import Scaffold.Proofs.Reading
import Scaffold.Proofs.TypeSpelling
/-!
What the grammar makes of types, properties, constructors and classes that are written plainly: the
words of each, and the tree that is read from them.
-/
namespace Scaffold.Php

open Reader Grammar

/-! Types -/

section

variable {depth n : Nat} {k? : Option Kind} {h : Hint}

def EndsHint (k? : Option Kind) : Prop :=
  k? ≠ some (.mark .pipe) ∧ k? ≠ some (.mark .ampersand)

theorem takes_joined_end (hk : EndsHint k?) (left : Hint) :
    Takes depth (hintFrom.joined n left) [] k? (· = left) := by
  unfold hintFrom.joined
  refine takes_peek ?_
  split
  · next heq => exact absurd heq hk.1
  · next heq => exact absurd heq hk.2
  · exact takes_pure rfl

theorem takes_hintFrom_named {ws : List Word} {t : String} {P : Hint → Prop} (ht : IsTypeName t)
    (hjoined : Takes depth (hintFrom.joined n (.named t)) ws k? P) :
    Takes depth (hintFrom (n + 1)) ((wordKind t.toList, t) :: ws) k? P := by
  unfold hintFrom
  have hstarts := ht.startsHint
  rcases ht.wordKind_eq with hk | ⟨k, hk, -⟩ <;> rw [hk] at hstarts ⊢ <;>
    refine takes_peek (takes_if_pos hstarts (takes_advance ?_)) <;>
    · rintro ⟨_, _, _, _⟩ hword
      cases hword
      exact hjoined

theorem takes_hintFrom (hp : h.Plain) (hk : EndsHint k?) (hn : h.words.length ≤ n) :
    Takes depth (hintFrom (n + 1)) h.words k? (· = h) := by
  induction hp generalizing n with
  | named ht => exact takes_hintFrom_named ht (takes_joined_end hk _)
  | @union t h ht hp ih =>
      obtain ⟨m, rfl⟩ : ∃ m, n = m + 1 := ⟨n - 1, by simp [Hint.words] at hn; omega⟩
      refine takes_hintFrom_named ht ?_
      unfold hintFrom.joined
      refine takes_peek (takes_advance fun _ _ => ?_)
      refine takes_bind_last (ih ?_) ?_
      · simp [Hint.words] at hn
        omega
      · rintro _ rfl
        exact takes_pure rfl

theorem Hint.Written.exists_words (hw : h.Written) :
    ∃ w ws, h.words = w :: ws ∧ startsHint w.1 = true := by
  cases hw with
  | plain hp => cases hp with
    | named ht => exact ⟨_, _, rfl, ht.startsHint⟩
    | union ht _ => exact ⟨_, _, rfl, ht.startsHint⟩
  | nullable _ => exact ⟨_, _, rfl, rfl⟩

theorem takes_hint (hw : h.Written) (hk : EndsHint k?) : Takes depth hint h.words k? (· = h) := by
  refine takes_rounds fun n hn => ?_
  cases hw with
  | plain hp => exact takes_hintFrom hp hk hn
  | @nullable t ht =>
      obtain ⟨m, rfl⟩ : ∃ m, n = m + 1 := ⟨n - 1, by simp [Hint.words] at hn; omega⟩
      have hinner : Takes depth (hintFrom (m + 1)) (Hint.named t).words k? (· = .named t) :=
        takes_hintFrom (.named ht) hk (Nat.le_of_succ_le_succ hn)
      unfold hintFrom
      refine takes_peek (takes_advance fun _ _ => ?_)
      refine takes_bind_last hinner ?_
      rintro _ rfl
      exact takes_pure rfl

theorem takes_hint? {h? : Option Hint} (hw : ∀ h ∈ h?, h.Written) :
    Takes depth hint? (wordsOf h?) (some .variable) (· = h?) := by
  cases h? with
  | none => exact takes_peek (takes_if_neg (by decide) (takes_pure rfl))
  | some h =>
      obtain ⟨w, ws, hwords, hstarts⟩ := (hw h rfl).exists_words
      have hends : EndsHint (some .variable) := ⟨by decide, by decide⟩
      have hhint : Takes depth hint h.words (some .variable) (· = h) := takes_hint (hw h rfl) hends
      change Takes depth hint? h.words _ _
      rw [hwords] at hhint ⊢
      refine takes_peek (takes_if_pos hstarts ?_)
      refine takes_bind_last hhint ?_
      rintro _ rfl
      exact takes_pure rfl

theorem firstKind_wordsOf {h? : Option Hint} (hw : ∀ h ∈ h?, h.Written) {K : Kind}
    (hvariable : K ≠ .variable) (hstarts : startsHint K = false) (text : String) (ws : List Word) :
    firstKind (wordsOf h? ++ (.variable, text) :: ws) k? ≠ some K := by
  cases h? with
  | none => exact fun heq => hvariable (Option.some.inj heq).symm
  | some h =>
      obtain ⟨w, ws', hwords, hw⟩ := (hw h rfl).exists_words
      change firstKind (h.words ++ _) k? ≠ _
      rw [hwords]
      intro heq
      obtain rfl : w.1 = K := Option.some.inj heq
      rw [hw] at hstarts
      exact absurd hstarts (by decide)

theorem ofWord?_of_firstKind_unionOf {t : String} {ts : List String}
    (h : firstKind (Hint.unionOf t ts).words none = some (.keyword .static)) :
    Keyword.ofWord? t.toList = some .static := by
  have hkind : wordKind t.toList = .keyword .static := by
    cases ts <;> exact Option.some.inj h
  exact wordKind_eq_keyword.1 hkind

end

/-! Members -/

section

variable {depth : Nat} {k? : Option Kind} (r : Rules)

theorem takes_attributes_none (hk : k? ≠ some (.mark .hashBracket)) :
    Takes depth (attributes r) [] k? (fun _ => True) := by
  refine takes_rounds fun n _ => takes_peek ?_
  split
  · next heq => exact absurd heq hk
  · exact takes_pure trivial

def modifierWords (ks : List (Keyword × String)) : List Word :=
  ks.map fun k => (.keyword k.1, k.2)

def EndsModifiers (k? : Option Kind) : Prop :=
  ∀ k, k? = some (.keyword k) → k.isModifier = false

theorem takes_modifiers_loop {ks : List (Keyword × String)}
    (hks : ∀ k ∈ ks, k.1.isModifier = true) (hk : EndsModifiers k?) {n : Nat} (hn : ks.length ≤ n) :
    Takes depth (modifiers.loop (n + 1)) (modifierWords ks) k? (fun _ => True) := by
  induction ks generalizing n with
  | nil =>
      refine takes_peek ?_
      split
      · next k heq => exact takes_if_neg (by simp [hk k heq]) (takes_pure trivial)
      · exact takes_pure trivial
  | cons k ks ih =>
      rw [List.length_cons] at hn
      obtain ⟨m, rfl⟩ : ∃ m, n = m + 1 := ⟨n - 1, by omega⟩
      have hrest := ih (fun k' hk' => hks k' (List.mem_cons_of_mem k hk')) (Nat.le_of_succ_le_succ hn)
      refine takes_peek (takes_if_pos (hks k (by simp)) (takes_advance fun _ _ => ?_))
      exact takes_bind_last hrest fun _ _ => takes_pure trivial

theorem takes_modifiers {ks : List (Keyword × String)} (hks : ∀ k ∈ ks, k.1.isModifier = true)
    (hk : EndsModifiers k?) : Takes depth modifiers (modifierWords ks) k? (fun _ => True) := by
  refine takes_rounds fun n hn => takes_modifiers_loop hks hk ?_
  rwa [modifierWords, List.length_map] at hn

theorem takes_anyName {k : Kind} {text : String} (hk : k = .name ∨ ∃ kw, k = .keyword kw) :
    Takes depth anyName [(k, text)] k? (· = text) := by
  refine takes_advance ?_
  rintro ⟨_, _, _, _⟩ hword
  cases hword
  rcases hk with rfl | ⟨kw, rfl⟩ <;> exact takes_pure rfl

theorem bareName_variable {x : String} {t : Token}
    (ht : t.word = (.variable, String.ofList ('$' :: x.toList))) : bareName t = x := by
  have htext : t.text = String.ofList ('$' :: x.toList) := congrArg Prod.snd ht
  rw [bareName, htext, String.toList_ofList]
  exact String.ofList_toList

theorem takes_terminator {text : String} :
    Takes depth terminator [(.mark .semicolon, text)] k? (fun _ => True) :=
  takes_peek (takes_advance fun _ _ => takes_pure trivial)

theorem takes_propertyItem {x : String} (hk : k? ≠ some (.mark .assign)) :
    Takes depth (propertyItem r) [variableWord x] k? (· = x) := by
  refine takes_eat fun t ht => ?_
  refine takes_eatIf_neg hk ?_
  exact takes_pure (bareName_variable ht)

theorem takes_property {h? : Option Hint} (hw : ∀ h ∈ h?, h.Written) {x : String}
    {ws ws' : List Word} (hitem : Takes depth (propertyItem r) (variableWord x :: ws)
      (firstKind ws' k?) (· = x)) (hend : Takes depth terminator ws' k? (fun _ => True))
    (hopen : firstKind ws' k? ≠ some (.mark .openBrace))
    (hcomma : firstKind ws' k? ≠ some (.mark .comma)) :
    Takes depth (property r) (wordsOf h? ++ variableWord x :: (ws ++ ws')) k?
      (· = .property x h?) := by
  refine takes_eatIf_neg (firstKind_wordsOf hw (by decide) rfl _ _) ?_
  refine takes_bind (takes_hint? hw) ?_
  rintro _ rfl
  refine takes_bind hitem ?_
  rintro _ rfl
  refine takes_peek ?_
  dsimp only
  split
  · next heq => exact absurd heq hopen
  · next heq => exact absurd heq hcomma
  · exact takes_bind_last hend fun _ _ => takes_pure rfl

theorem takes_property_plain {h? : Option Hint} (hw : ∀ h ∈ h?, h.Written) (x : String) :
    Takes depth (property r) (wordsOf h? ++ [variableWord x, semicolonWord]) k?
      (· = .property x h?) := by
  have hitem : Takes depth (propertyItem r) [variableWord x] (some (.mark .semicolon)) (· = x) :=
    takes_propertyItem r nofun
  have hend : Takes depth terminator [semicolonWord] k? (fun _ => True) := takes_terminator
  exact takes_property r hw hitem hend nofun nofun

theorem endsModifiers_wordsOf {h? : Option Hint} (hw : ∀ h ∈ h?, h.Written)
    (hstatic : ∀ h ∈ h?, firstKind h.words none ≠ some (.keyword .static)) (text : String)
    (ws : List Word) : EndsModifiers (firstKind (wordsOf h? ++ (.variable, text) :: ws) k?) := by
  intro k hk
  cases h? with
  | none => exact nomatch hk
  | some h =>
      obtain ⟨w, ws', hwords, hstarts⟩ := (hw h rfl).exists_words
      have hne := hstatic h rfl
      change firstKind (h.words ++ _) k? = _ at hk
      rw [hwords] at hk hne
      obtain hk : w.1 = .keyword k := Option.some.inj hk
      rw [hk] at hstarts
      change some w.1 ≠ _ at hne
      rw [hk] at hne
      cases k <;> first | rfl | exact absurd hstarts (by decide) | exact absurd rfl hne

def isVisibility (k : Keyword) : Bool :=
  k == .public_ || k == .protected_ || k == .private_

theorem takes_member {v : Keyword} (hv : isVisibility v = true) {ks : List (Keyword × String)}
    (hks : ∀ k ∈ ks, k.1.isModifier = true) {ws : List Word} {P : Member → Prop}
    (hk : EndsModifiers (firstKind ws k?))
    (hdeclared : Takes depth
      (match firstKind ws k? with
        | some (.keyword .const_) => constants r
        | some (.keyword .function) => method r
        | _ => property r) ws k? P) (text : String) :
    Takes depth (member r) (modifierWords ((v, text) :: ks) ++ ws) k? P := by
  have hall : ∀ k ∈ (v, text) :: ks, k.1.isModifier = true := by
    refine List.forall_mem_cons.2 ⟨?_, hks⟩
    cases v <;> first | rfl | exact absurd hv (by decide)
  have hmodifiers : Takes depth modifiers (modifierWords ((v, text) :: ks)) (firstKind ws k?)
      (fun _ => True) := takes_modifiers hall hk
  have hdeclared : Takes depth (memberDeclared r) (modifierWords ((v, text) :: ks) ++ ws) k? P := by
    refine takes_peek ?_
    cases v <;> first
      | exact takes_bind hmodifiers fun _ _ => takes_peek hdeclared
      | exact absurd hv (by decide)
  have hattributes : Takes depth (attributes r) [] (some (.keyword v)) (fun _ => True) :=
    takes_attributes_none r (by simp)
  have hrest := takes_bind_first hattributes fun _ _ => hdeclared
  refine takes_peek ?_
  cases v <;> first | exact hrest | exact absurd hv (by decide)

theorem takes_member_property {h? : Option Hint} (hw : ∀ h ∈ h?, h.Written)
    (hstatic : ∀ h ∈ h?, firstKind h.words none ≠ some (.keyword .static)) {v : Keyword}
    (hv : isVisibility v = true) {ks : List (Keyword × String)}
    (hks : ∀ k ∈ ks, k.1.isModifier = true) {x : String} {ws : List Word} {P : Member → Prop}
    (hproperty : Takes depth (property r) (wordsOf h? ++ variableWord x :: ws) k? P)
    (text : String) :
    Takes depth (member r)
      (modifierWords ((v, text) :: ks) ++ (wordsOf h? ++ variableWord x :: ws)) k? P := by
  refine takes_member r hv hks (endsModifiers_wordsOf hw hstatic _ _) ?_ text
  split
  · next heq => exact absurd heq (firstKind_wordsOf hw (by decide) rfl _ _)
  · next heq => exact absurd heq (firstKind_wordsOf hw (by decide) rfl _ _)
  · exact hproperty

theorem takes_classBody {w : Word} {ws : List Word} {m : Member} {open_ close_ : String}
    (hw : w.1 ≠ .mark .closeBrace)
    (hmember : Takes depth (member r) (w :: ws) (some (.mark .closeBrace)) (· = m)) :
    Takes depth (classBody r)
      ((.mark .openBrace, open_) :: (w :: ws ++ [(.mark .closeBrace, close_)])) k?
      (fun body => body.1 = [m]) := by
  refine takes_eat fun _ _ => ?_
  have hmembers : Takes depth (rounds (recovering peek (· == .mark .closeBrace) (member r)))
      (w :: ws) (some (.mark .closeBrace)) (· = [m]) := by
    refine takes_rounds fun n hn => ?_
    obtain ⟨n, rfl⟩ : ∃ m, n = m + 1 := ⟨n - 1, by rw [List.length_cons] at hn; omega⟩
    rw [← List.append_nil (w :: ws)]
    have hstop : Takes depth (recovering peek (· == .mark .closeBrace) (member r) (n + 1)) []
        (some (.mark .closeBrace)) (· = []) :=
      takes_recovering_stop looks_peek (by simp) n
    refine (takes_recovering_cons looks_peek (by simpa using hw) hmember hstop).mono ?_
    rintro _ ⟨_, _, rfl, rfl, rfl⟩
    rfl
  refine takes_bind hmembers ?_
  rintro _ rfl
  exact takes_eat fun _ _ => takes_pure rfl

theorem takes_parents_none {word : Keyword} (hk : k? ≠ some (.keyword word)) :
    Takes depth (parents word) [] k? (fun _ => True) :=
  takes_eatIf_neg hk (takes_pure trivial)

theorem takes_class {w : Word} {ws : List Word} {m : Member} {c : String} {k : Kind}
    {open_ close_ : String} (hc : k = .name ∨ ∃ kw, k = .keyword kw)
    (hw : w.1 ≠ .mark .closeBrace)
    (hmember : Takes depth (member r) (w :: ws) (some (.mark .closeBrace)) (· = m)) (text : String) :
    Takes depth (statement r)
      ((.keyword .class_, text) :: (k, c) ::
        (.mark .openBrace, open_) :: (w :: ws ++ [(.mark .closeBrace, close_)])) k?
      (fun s => ∃ start stop, s = .classLike (.mk .plain c [m] start stop)) := by
  refine takes_peek (takes_nextStart fun start => takes_advance ?_)
  rintro ⟨_, _, _, _⟩ hword
  cases hword
  refine takes_bind_word (takes_anyName hc) ?_
  rintro _ rfl
  refine takes_bind_first (P := fun _ => True) ?_ fun _ _ => ?_
  · refine takes_bind_first (takes_parents_none (by simp [firstKind])) fun _ _ => ?_
    exact takes_parents_none (by simp [firstKind])
  · refine takes_bind_last (takes_classBody r hw hmember) ?_
    rintro ⟨_, stop⟩ rfl
    exact takes_pure ⟨start, stop, rfl⟩

end

theorem scans_classOpening {c : String} {before lead rest : List Char} {gap : Char} {ws : List Word}
    (hbefore : ∀ x ∈ before, isSpace x = true) (hgap : gap = ' ' ∨ gap = '\n')
    (hlead : ∀ x ∈ lead, isSpace x = true) (hc : IsIdentifier c.toList)
    (hname : Keyword.ofWord? c.toList = none) (h : Scans rest ws) :
    Scans (before ++ ("class".toList ++ ' ' :: (c.toList ++ gap :: '\x7b' :: (lead ++ rest))))
      ((.keyword .class_, "class") :: (.name, c) :: (.mark .openBrace, "\x7b") :: ws) := by
  have hends : gap ∈ [' ', '\n', '|', '('] ∧ isSpace gap = true := by
    rcases hgap with rfl | rfl <;> decide
  have hbody := scans_mark ofCode_openBrace (scans_blanks hlead h)
  have hheader : Scans (c.toList ++ _) ((.name, c) :: _) :=
    scans_word hc (wordKind_eq_name.2 hname) (by decide) hends.1 (.inl rfl) (scans_blank hends.2 hbody)
  have hclass : Scans ("class".toList ++ _) ((.keyword .class_, "class") :: _) :=
    scans_word (by decide) (by decide) (by decide) (by decide) (.inr (by decide))
      (scans_blank (c := ' ') rfl hheader)
  exact scans_blanks hbefore hclass

/-- A source that holds one class with one member. The lists are the blanks around its words. -/
theorem statements_class {source c member : String} {before lead trail after : List Char} {gap : Char}
    (hsource : source.toList = '<' :: '?' :: 'p' :: 'h' :: 'p' :: (before ++ ("class".toList ++ ' ' ::
      (c.toList ++ gap :: '\x7b' :: (lead ++ (member.toList ++ (trail ++ '\x7d' :: after)))))))
    (hblank : (before ++ lead ++ trail ++ after).all isSpace = true)
    (hgap : gap = ' ' ∨ gap = '\n') (hc : IsIdentifier c.toList)
    (hname : Keyword.ofWord? c.toList = none) {w : Word} {ws : List Word} {m : Member}
    (hw : w.1 ≠ .mark .closeBrace)
    (hscans : ∀ {cs ws'}, Scans cs ws' → Scans (member.toList ++ cs) (w :: ws ++ ws'))
    (htakes : ∀ n, Takes 0 (Grammar.member (Rules.upTo (n + 2))) (w :: ws)
      (some (.mark .closeBrace)) (· = m)) :
    ∃ start stop, (Program.parse source).statements =
      [.other, .classLike (.mk .plain c [m] start stop)] := by
  simp only [List.all_eq_true, List.mem_append] at hblank
  have hafter := scans_blanks (fun x hx => hblank x (.inr hx)) scans_nil
  rw [List.append_nil] at hafter
  have hend := scans_blanks (fun x hx => hblank x (.inl (.inr hx)))
    (scans_mark ofCode_closeBrace hafter)
  have hstart := scans_classOpening (fun x hx => hblank x (.inl (.inl (.inl hx)))) hgap
    (fun x hx => hblank x (.inl (.inl (.inr hx)))) hc hname (hscans hend)
  obtain ⟨s, ⟨start, stop, rfl⟩, hstatements⟩ := statements_parse hsource hstart
    fun n => takes_class _ (.inl rfl) hw (htakes n) "class"
  exact ⟨start, stop, hstatements⟩

/-! Constructors -/

section

variable {depth : Nat} {k? : Option Kind} {r' : Rules} (r : Rules)

structure Argument where
  modifiers : List (Keyword × String)
  parameter : Parameter

namespace Argument

def words (a : Argument) : List Word :=
  modifierWords a.modifiers ++ (wordsOf a.parameter.hint ++ [variableWord a.parameter.name])

def wordsOfAll : List Argument → List Word
  | [] => []
  | [a] => a.words
  | a :: as => a.words ++ (.mark .comma, ",") :: wordsOfAll as

structure Written (a : Argument) : Prop where
  modifiers : ∀ k ∈ a.modifiers, k.1.isModifier = true
  hint : ∀ h ∈ a.parameter.hint, h.Written
  static : ∀ h ∈ a.parameter.hint, firstKind h.words none ≠ some (.keyword .static)

variable {a : Argument}

theorem Written.firstKind_ne (ha : a.Written) {m : Mark} (hm : startsHint (.mark m) = false) :
    firstKind a.words k? ≠ some (.mark m) := by
  cases hmodifiers : a.modifiers with
  | nil =>
      rw [words, hmodifiers]
      exact firstKind_wordsOf (K := .mark m) ha.hint nofun hm _ _
  | cons k ks => simp [words, hmodifiers, modifierWords, firstKind]

theorem Written.exists_words (ha : a.Written) :
    ∃ w ws, a.words = w :: ws ∧ w.1 ≠ .mark .closeParen := by
  have hne : firstKind a.words none ≠ some (.mark .closeParen) := ha.firstKind_ne rfl
  cases hwords : a.words with
  | nil => exact absurd hwords (by simp [words])
  | cons w ws =>
      rw [hwords] at hne
      exact ⟨w, ws, rfl, fun hw => hne (congrArg some hw)⟩

end Argument

theorem takes_parameter {a : Argument} (ha : a.Written) (n : Nat)
    (hk : k? = some (.mark .comma) ∨ k? = some (.mark .closeParen)) :
    Takes depth (parameter r (n + 1)) a.words k? (· = a.parameter) := by
  unfold parameter
  refine takes_bind_first (takes_attributes_none r (ha.firstKind_ne rfl)) fun _ _ => ?_
  refine takes_bind (takes_modifiers ha.modifiers
    (endsModifiers_wordsOf ha.hint ha.static _ _)) fun _ _ => ?_
  refine takes_bind (takes_hint? ha.hint) ?_
  rintro _ rfl
  refine takes_eatIf_neg nofun (takes_eatIf_neg nofun ?_)
  refine takes_eat fun t ht => ?_
  have hparameter : (⟨bareName t, a.parameter.hint⟩ : Parameter) = a.parameter := by
    rw [bareName_variable ht]
  rcases hk with rfl | rfl
  · exact takes_eatIf_neg nofun (takes_peek (takes_pure hparameter))
  · exact takes_eatIf_neg nofun (takes_peek (takes_pure hparameter))

theorem takes_parameterItems {as : List Argument} (has : ∀ a ∈ as, a.Written) (m : Nat) {n : Nat}
    (hn : (Argument.wordsOfAll as).length ≤ n) :
    Takes depth (itemsUntil .closeParen (parameter r (m + 1)) (n + 1)) (Argument.wordsOfAll as)
      (some (.mark .closeParen)) (· = as.map Argument.parameter) := by
  induction as generalizing n with
  | nil => exact takes_itemsUntil_nil n
  | cons a as ih =>
      obtain ⟨w, ws, hwords, hw⟩ := (has a (by simp)).exists_words
      have hitem : ∀ k?, k? = some (.mark .comma) ∨ k? = some (.mark .closeParen) →
          Takes depth (parameter r (m + 1)) (w :: ws) k? (· = a.parameter) := by
        intro k? hk
        rw [← hwords]
        exact takes_parameter r (has a (by simp)) m hk
      cases as with
      | nil =>
          change Takes depth _ a.words _ _
          rw [hwords]
          refine (takes_itemsUntil_last hw (by decide) (hitem _ (.inr rfl)) n).mono ?_
          rintro _ ⟨_, rfl, rfl⟩
          rfl
      | cons b bs =>
          have hlength : (Argument.wordsOfAll (b :: bs)).length + 1 ≤ n := by
            simp only [Argument.wordsOfAll, List.length_append, List.length_cons] at hn
            omega
          obtain ⟨l, rfl⟩ : ∃ l, n = l + 1 := ⟨n - 1, by omega⟩
          have hitems := ih (fun a' ha' => has a' (List.mem_cons_of_mem a ha'))
            (Nat.le_of_succ_le_succ hlength)
          change Takes depth _ (a.words ++ _ :: Argument.wordsOfAll (b :: bs)) _ _
          rw [hwords]
          refine (takes_itemsUntil_cons hw (hitem _ (.inl rfl)) hitems).mono ?_
          rintro _ ⟨_, _, rfl, rfl, rfl⟩
          rfl

theorem takes_parameters {as : List Argument} (has : ∀ a ∈ as, a.Written) :
    Takes depth (parameters r)
      ((.mark .openParen, "(") :: (Argument.wordsOfAll as ++ [(.mark .closeParen, ")")])) k?
      (· = as.map Argument.parameter) :=
  takes_bound fun m _ => takes_listed fun _ hn => takes_parameterItems r has m hn

def assignmentWords (x : String) : List Word :=
  [variableWord "this", (.mark .arrow, "->"), (wordKind x.toList, x), (.mark .assign, "="),
    variableWord x, semicolonWord]

theorem wordKind_eq (w : List Char) : wordKind w = .name ∨ ∃ k, wordKind w = .keyword k := by
  unfold wordKind
  cases Keyword.ofWord? w with
  | none => exact .inl rfl
  | some k => exact .inr ⟨k, rfl⟩

theorem takes_selector {k : Kind} {text : String} (hk : k = .name ∨ ∃ kw, k = .keyword kw) :
    Takes depth (selector r) [(k, text)] k? (fun _ => True) := by
  refine takes_peek ?_
  rcases hk with rfl | ⟨kw, rfl⟩ <;> exact takes_advance fun _ _ => takes_pure trivial

theorem takes_unit_variable {ws : List Word} {P : Expression → Prop} {x : String} {waiting : Bool}
    (htrailing : ∀ n e, ws.length ≤ n → Takes depth (trailing r true (n + 1) e) ws k? P) :
    Takes depth (unit r waiting) (variableWord x :: ws) k? P := by
  refine takes_rounds fun n _ => ?_
  refine takes_peek (takes_if_neg Bool.false_ne_true ?_)
  refine takes_bind_word (P := fun _ => True) ?_ fun e _ => takes_rounds fun n hn => ?_
  · exact takes_peek (takes_advance fun _ _ => takes_pure trivial)
  · exact htrailing n e hn

theorem takes_trailing_end {m : Mark} (hm : m ∈ [.assign, .semicolon, .closeBrace]) (n : Nat)
    (e : Expression) :
    Takes depth (trailing r true (n + 1) e) [] (some (.mark m)) (fun _ => True) := by
  simp only [List.mem_cons, List.not_mem_nil, or_false] at hm
  rcases hm with rfl | rfl | rfl <;> exact takes_peek (takes_pure trivial)

theorem takes_assignment (hdepth : depth + 1 < maxDepth) (x : String) :
    Takes depth (statement r) (assignmentWords x) k? (· = .expression .other) := by
  have htarget : Takes (depth + 1) (unit r false)
      [variableWord "this", (.mark .arrow, "->"), (wordKind x.toList, x)] (some (.mark .assign))
      (fun _ => True) := by
    refine takes_unit_variable r fun n e hn => ?_
    obtain ⟨n, rfl⟩ : ∃ m, n = m + 1 := ⟨n - 1, by rw [List.length_cons] at hn; omega⟩
    refine takes_peek (takes_advance fun _ _ => ?_)
    refine takes_bind_last (takes_selector r (wordKind_eq _)) fun _ _ => ?_
    exact takes_trailing_end r (by simp) n .other
  have hvalue : Takes (depth + 1 + 1) (unit r true) [variableWord x] (some (.mark .semicolon))
      (fun _ => True) :=
    takes_unit_variable r fun n e _ => takes_trailing_end r (by simp) n e
  have hchain : ∀ e, Takes (depth + 1) (rounds fun n => chain r n e)
      [(.mark .assign, "="), variableWord x] (some (.mark .semicolon)) (· = .other) := by
    intro e
    refine takes_rounds fun n hn => ?_
    obtain ⟨n, rfl⟩ : ∃ m, n = m + 1 := ⟨n - 1, by rw [List.length_cons] at hn; omega⟩
    refine takes_peek (takes_if_pos rfl (takes_advance fun _ _ => ?_))
    refine takes_bind_last (takes_nested hdepth hvalue) fun _ _ => ?_
    exact takes_peek (takes_if_neg Bool.false_ne_true (takes_pure rfl))
  have hexpression : Takes depth (expression r false)
      ([variableWord "this", (.mark .arrow, "->"), (wordKind x.toList, x)] ++
        [(.mark .assign, "="), variableWord x]) (some (.mark .semicolon)) (· = .other) :=
    takes_nested (Nat.lt_of_succ_lt hdepth) (takes_bind htarget fun e _ => hchain e)
  have hstatement : Takes depth (expressionStatement r)
      (([variableWord "this", (.mark .arrow, "->"), (wordKind x.toList, x)] ++
        [(.mark .assign, "="), variableWord x]) ++ [semicolonWord]) k? (· = .expression .other) := by
    refine takes_bind hexpression ?_
    rintro _ rfl
    exact takes_bind_last takes_terminator fun _ _ => takes_pure rfl
  refine takes_peek ?_
  exact hstatement

theorem takes_assignments (hdepth : depth + 1 < maxDepth) (xs : List String) (n : Nat)
    (hn : (xs.flatMap assignmentWords).length ≤ n) :
    Takes depth (recovering peek (· == .mark .closeBrace) (statement r) (n + 1))
      (xs.flatMap assignmentWords) (some (.mark .closeBrace))
      (· = xs.map fun _ => .expression .other) := by
  induction xs generalizing n with
  | nil => exact takes_recovering_stop looks_peek (by simp) n
  | cons x xs ih =>
      have hlength : (xs.flatMap assignmentWords).length + 1 ≤ n := by
        simp only [List.flatMap_cons, List.length_append, assignmentWords, List.length_cons] at hn ⊢
        omega
      obtain ⟨m, rfl⟩ : ∃ m, n = m + 1 := ⟨n - 1, by omega⟩
      have hrest := ih m (Nat.le_of_succ_le_succ hlength)
      refine (takes_recovering_cons looks_peek rfl (takes_assignment r hdepth x) hrest).mono ?_
      rintro _ ⟨_, _, rfl, rfl, rfl⟩
      rfl

theorem takes_block {r : Rules} (hdepth : depth + 1 < maxDepth) (hr : r.statement = statement r')
    (xs : List String) :
    Takes depth (block r)
      ((.mark .openBrace, "\x7b") :: (xs.flatMap assignmentWords ++ [(.mark .closeBrace, "\x7d")])) k?
      (· = xs.map fun _ => .expression .other) := by
  refine takes_eat fun _ _ => ?_
  rw [hr]
  refine takes_bind (takes_rounds fun n hn => takes_assignments r' hdepth xs n hn) ?_
  rintro _ rfl
  exact takes_eat fun _ _ => takes_pure rfl

def methodWords (name : String) (as : List Argument) (xs : List String) : List Word :=
  (.keyword .public_, "public") :: (.keyword .function, "function") ::
    (wordKind name.toList, name) ::
    ((.mark .openParen, "(") :: (Argument.wordsOfAll as ++ [(.mark .closeParen, ")")])) ++
    ((.mark .openBrace, "\x7b") :: (xs.flatMap assignmentWords ++ [(.mark .closeBrace, "\x7d")]))

theorem takes_method {r : Rules} (hdepth : depth + 1 < maxDepth) (hr : r.statement = statement r')
    (name : String) {as : List Argument} (has : ∀ a ∈ as, a.Written) (xs : List String) :
    Takes depth (member r) (methodWords name as xs) k?
      (· = .method name (as.map Argument.parameter) none
        (some (xs.map fun _ => .expression .other))) := by
  refine takes_member r rfl (List.forall_mem_nil _) (by rintro _ ⟨⟩; rfl) ?_ "public"
  refine takes_eat fun _ _ => ?_
  refine takes_eatIf_neg ?_ ?_
  · rcases wordKind_eq name.toList with hk | ⟨k, hk⟩ <;> simp [firstKind, hk]
  · refine takes_bind_word (takes_anyName (wordKind_eq _)) ?_
    rintro _ rfl
    refine takes_bind (takes_parameters r has) ?_
    rintro _ rfl
    refine takes_bind_first (P := (· = none)) ?_ ?_
    · exact takes_eatIf_neg (by simp [firstKind]) (takes_pure rfl)
    · rintro _ rfl
      refine takes_peek ?_
      refine takes_bind_last (takes_block hdepth hr xs) ?_
      rintro _ rfl
      exact takes_pure rfl

end

end Scaffold.Php
