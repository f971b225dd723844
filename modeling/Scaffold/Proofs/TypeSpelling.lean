import Scaffold.Php.Grammar.Basic
import Scaffold.Proofs.Scanning
import Scaffold.UnionType
/-!
The spellings of types that can be read back: names with bars between them, or one name after a
question mark. Every union of type names is declared in such a spelling.
-/
namespace Scaffold

namespace Php

def IsTypeName (t : String) : Prop :=
  IsIdentifier t.toList ∧ ∀ k ∈ Keyword.ofWord? t.toList, Grammar.namesType k = true

instance (t : String) : Decidable (IsTypeName t) :=
  inferInstanceAs (Decidable (_ ∧ _))

theorem IsTypeName.wordKind_eq {t : String} (h : IsTypeName t) :
    wordKind t.toList = .name ∨
      ∃ k, wordKind t.toList = .keyword k ∧ Grammar.namesType k = true := by
  unfold wordKind
  cases hk : Keyword.ofWord? t.toList with
  | none => exact .inl rfl
  | some k => exact .inr ⟨k, rfl, h.2 k hk⟩

theorem IsTypeName.startsHint {t : String} (h : IsTypeName t) :
    Grammar.startsHint (wordKind t.toList) = true := by
  rcases h.wordKind_eq with hk | ⟨k, hk, hnames⟩ <;> rw [hk]
  · rfl
  · exact hnames

theorem IsTypeName.ne_haltCompiler {t : String} (h : IsTypeName t) :
    wordKind t.toList ≠ .keyword .haltCompiler := by
  intro hk
  have hstarts := h.startsHint
  rw [hk] at hstarts
  exact absurd hstarts (by decide)

namespace Hint

def words : Hint → List Word
  | named t => [(wordKind t.toList, t)]
  | nullable h => (.mark .question, "?") :: h.words
  | union l r => l.words ++ (.mark .pipe, "|") :: r.words
  | intersection l r => l.words ++ (.mark .ampersand, "&") :: r.words
  | group h => (.mark .openParen, "(") :: (h.words ++ [(.mark .closeParen, ")")])

inductive Plain : Hint → Prop
  | named {t : String} : IsTypeName t → Plain (.named t)
  | union {t : String} {h : Hint} : IsTypeName t → Plain h → Plain (.union (.named t) h)

variable {h : Hint} {cs : List Char} {ws : List Word}

theorem Plain.exists_cons (hp : Plain h) : ∃ c cs, h.text.toList = c :: cs ∧ isNameStart c = true := by
  cases hp with
  | named ht => exact ht.1.exists_cons
  | @union t h ht _ =>
      obtain ⟨c, cs, hcs, hc⟩ := ht.1.exists_cons
      refine ⟨c, cs ++ '|' :: h.text.toList, ?_, hc⟩
      rw [text, String.toList_append, String.toList_append, text, hcs, List.append_assoc]
      rfl

theorem scans_typeName {t : String} {d : Char} (ht : IsTypeName t) (hd : d = ' ' ∨ d = '|')
    (hws : Scans (d :: cs) ws) : Scans (t.toList ++ d :: cs) ((wordKind t.toList, t) :: ws) := by
  have hends : d ∈ [' ', '\n', '|', '('] ∧ d ≠ '(' := by
    rcases hd with rfl | rfl <;> decide
  exact scans_word ht.1 rfl ht.ne_haltCompiler hends.1 (.inr hends.2) hws

theorem Plain.scans (hp : Plain h) (hws : Scans (' ' :: cs) ws) :
    Scans (h.text.toList ++ ' ' :: cs) (h.words ++ ws) := by
  induction hp with
  | named ht => exact scans_typeName ht (.inl rfl) hws
  | union ht hp ih =>
      obtain ⟨c, more, hmore, hc⟩ := hp.exists_cons
      rw [text, String.toList_append, String.toList_append, List.append_assoc, List.append_assoc,
        words, List.append_assoc]
      refine scans_typeName ht (.inr rfl) (scans_mark ?_ ih)
      rw [hmore]
      exact ofCode_pipe hc

inductive Written : Hint → Prop
  | plain {h : Hint} : h.Plain → Written h
  | nullable {t : String} : IsTypeName t → Written (.nullable (.named t))

theorem Plain.not_mem (hp : Plain h) {d : Char} (hd : ¬(d.isAlphanum = true ∨ d = '_'))
    (hbar : d ≠ '|') : d ∉ h.text.toList := by
  induction hp with
  | named ht => exact ht.1.not_mem hd
  | union ht _ ih =>
      have hname := ht.1.not_mem hd
      simp [text, hname, ih, hbar]

theorem Written.not_mem (hw : Written h) {d : Char} (hd : ¬(d.isAlphanum = true ∨ d = '_'))
    (hbar : d ≠ '|') (hquestion : d ≠ '?') : d ∉ h.text.toList := by
  cases hw with
  | plain hp => exact hp.not_mem hd hbar
  | nullable ht =>
      have hname := ht.1.not_mem hd
      simp [text, hname, hquestion]

theorem Written.scans (hw : Written h) (hws : Scans (' ' :: cs) ws) :
    Scans (h.text.toList ++ ' ' :: cs) (h.words ++ ws) := by
  cases hw with
  | plain hp => exact hp.scans hws
  | @nullable t ht =>
      obtain ⟨c, more, hmore, hc⟩ := ht.1.exists_cons
      rw [text, String.toList_append, List.append_assoc]
      refine scans_mark ?_ (scans_typeName ht (.inl rfl) hws)
      rw [text, hmore]
      exact ofCode_question hc

end Hint

def wordsOf (h? : Option Hint) : List Word :=
  h?.elim [] Hint.words

def variableWord (x : String) : Word :=
  (.variable, String.ofList ('$' :: x.toList))

def semicolonWord : Word :=
  (.mark .semicolon, ";")

def typeText (h? : Option Hint) : String :=
  h?.elim "" fun h => h.text ++ " "

theorem scans_typed {h? : Option Hint} (hw : ∀ h ∈ h?, h.Written) {x : String}
    (hx : IsIdentifier x.toList) {cs : List Char} {ws : List Word}
    (hcs : ∀ c ∈ cs.head?, isNameChar c = false) (hws : Scans cs ws) :
    Scans ((typeText h?).toList ++ '$' :: (x.toList ++ cs)) (wordsOf h? ++ variableWord x :: ws) := by
  have hvariable := scans_variable hx hcs hws
  cases h? with
  | none => exact hvariable
  | some h =>
      have hhint := (hw h rfl).scans (scans_blank (c := ' ') rfl hvariable)
      have htext : (typeText (some h)).toList ++ '$' :: (x.toList ++ cs) =
          h.text.toList ++ ' ' :: '$' :: (x.toList ++ cs) := by simp [typeText]
      rw [htext]
      exact hhint

/-! Types as lists of names -/

namespace Hint

def unionOf : String → List String → Hint
  | t, [] => .named t
  | t, u :: us => .union (.named t) (unionOf u us)

theorem plain_unionOf {t : String} {ts : List String} (h : ∀ u ∈ t :: ts, IsTypeName u) :
    (unionOf t ts).Plain := by
  induction ts generalizing t with
  | nil => exact .named (h t (by simp))
  | cons u us ih => exact .union (h t (by simp)) (ih fun v hv => h v (by simp [hv]))

theorem text_unionOf (t : String) (ts : List String) :
    (unionOf t ts).text = String.intercalate "|" (t :: ts) := by
  induction ts generalizing t with
  | nil => simp [unionOf, text]
  | cons u us ih => rw [unionOf, text, ih, String.intercalate_cons_cons, text]

theorem addTo_unionOf (t : String) (ts : List String) (u : UnionType) :
    (unionOf t ts).addTo u = (t :: ts).foldl UnionType.insert u := by
  induction ts generalizing t u with
  | nil => rfl
  | cons v vs ih => rw [unionOf, addTo, ih]; rfl

end Hint

end Php

open Php

namespace UnionType

theorem foldl_insert {ts : List String} {u : UnionType} (h : (u.members ++ ts).Nodup) :
    ts.foldl UnionType.insert u = { u with members := u.members ++ ts } := by
  induction ts generalizing u with
  | nil => simp
  | cons t ts ih =>
      have hnew : t ∉ u.members := by
        intro hmem
        exact (List.nodup_append.1 h).2.2 t hmem t (by simp) rfl
      rw [List.foldl_cons, insert, if_neg (by simpa using hnew), ih (by simpa using h)]
      simp

theorem ofHint?_unionOf {t : String} {ts : List String} (h : (t :: ts).Nodup) :
    UnionType.ofHint? (some (Hint.unionOf t ts)) = ⟨t :: ts, false⟩ := by
  change (Hint.unionOf t ts).addTo {} = _
  rw [Hint.addTo_unionOf, foldl_insert (by simpa using h)]
  rfl

theorem texts_of_not_mem {t : String} {ts : List String} (h : "null" ∉ t :: ts) :
    (⟨t :: ts, false⟩ : UnionType).declaredText = String.intercalate "|" (t :: ts) ∧
      (⟨t :: ts, false⟩ : UnionType).docText = String.intercalate "|" (t :: ts) := by
  have halternatives : (⟨t :: ts, false⟩ : UnionType).alternatives = t :: ts := rfl
  refine ⟨?_, ?_⟩
  · rw [declaredText, if_neg (by simp), halternatives, if_neg (by simpa using h)]
  · rw [docText, if_neg (by simp), halternatives]

theorem texts_singleton (t : String) :
    (⟨[t], false⟩ : UnionType).declaredText = t ∧ (⟨[t], false⟩ : UnionType).docText = t := by
  by_cases ht : t = "null"
  · subst ht
    exact ⟨by decide, by decide⟩
  · have hnull : "null" ∉ [t] := by simpa using Ne.symm ht
    simpa using texts_of_not_mem hnull

theorem texts_nullable {t : String} (ht : t ≠ "null") :
    (⟨[t], true⟩ : UnionType).declaredText = "?" ++ t ∧
      (⟨[t], true⟩ : UnionType).docText = t ++ "|null" := by
  have halternatives : (⟨[t], true⟩ : UnionType).alternatives = [t, "null"] := by
    simp [alternatives, Ne.symm ht]
  refine ⟨?_, ?_⟩
  · rw [declaredText, if_neg (by simp), halternatives, if_pos (by simp)]
    simp [ht]
  · rw [docText, if_neg (by simp), halternatives, String.intercalate_cons_cons, String.append_assoc]
    simp

theorem intercalate_snoc {sep t : String} {ts : List String} (hne : ts ≠ []) :
    String.intercalate sep (ts ++ [t]) = String.intercalate sep ts ++ sep ++ t := by
  induction ts with
  | nil => exact absurd rfl hne
  | cons u us ih =>
      cases us with
      | nil => simp [String.intercalate_cons_cons]
      | cons v vs =>
          rw [List.cons_append, List.cons_append, String.intercalate_cons_cons, ← List.cons_append,
            ih (by simp), String.intercalate_cons_cons]
          simp only [String.append_assoc]

def docTextNullLast (u : UnionType) : String :=
  if u.members = [] then mixed
  else String.intercalate "|" (u.alternatives.filter (· != "null")
    ++ if u.alternatives.contains "null" then ["null"] else [])

def declaredHint (u : UnionType) : Hint :=
  if u.members = [] then .named mixed
  else
    match u.alternatives.filter (· != "null"), u.alternatives.contains "null" with
    | [], _ => .named "null"
    | [t], true => .nullable (.named t)
    | t :: ts, true => .unionOf t (ts ++ ["null"])
    | t :: ts, false => .unionOf t ts

/-- How a union is declared: as any type, as `null`, with a question mark, with `null` last, or
without `null`. -/
inductive Declared (u : UnionType) : Hint → Prop
  | mixed : u.members = [] → Declared u (.named mixed)
  | null : u.members ≠ [] → u.alternatives.contains "null" = true →
      u.alternatives.filter (· != "null") = [] → Declared u (.named "null")
  | nullable {t : String} : u.members ≠ [] → u.alternatives.contains "null" = true →
      u.alternatives.filter (· != "null") = [t] → Declared u (.nullable (.named t))
  | nullLast {t t' : String} {ts : List String} : u.members ≠ [] →
      u.alternatives.contains "null" = true →
      u.alternatives.filter (· != "null") = t :: t' :: ts →
      Declared u (.unionOf t (t' :: ts ++ ["null"]))
  | plain {t : String} {ts : List String} : u.members ≠ [] →
      u.alternatives.contains "null" = false → u.alternatives = t :: ts → Declared u (.unionOf t ts)

section

variable {u : UnionType} {h : Hint}

theorem alternatives_ne_nil (hne : u.members ≠ []) : u.alternatives ≠ [] := by
  unfold alternatives
  split
  · simp
  · exact hne

theorem filter_of_not_contains (hnull : u.alternatives.contains "null" = false) :
    u.alternatives.filter (· != "null") = u.alternatives := by
  rw [List.filter_eq_self]
  intro t ht
  have hmem : "null" ∉ u.alternatives := by simpa using hnull
  rw [bne_iff_ne]
  rintro rfl
  exact hmem ht

theorem declared (u : UnionType) : Declared u u.declaredHint := by
  unfold declaredHint
  split
  · next hempty => exact .mixed hempty
  · next hne =>
      cases hnull : u.alternatives.contains "null" with
      | false =>
          obtain ⟨t, ts, halternatives⟩ := List.exists_cons_of_ne_nil (alternatives_ne_nil hne)
          rw [filter_of_not_contains hnull, halternatives]
          cases ts <;> exact .plain hne hnull halternatives
      | true =>
          cases hothers : u.alternatives.filter (· != "null") with
          | nil => exact .null hne hnull hothers
          | cons t ts =>
              cases ts with
              | nil => exact .nullable hne hnull hothers
              | cons t' ts => exact .nullLast hne hnull hothers

theorem Declared.text (hd : Declared u h) : h.text = u.declaredText := by
  unfold declaredText
  cases hd with
  | mixed hempty => rw [if_pos hempty]; rfl
  | null hne hnull hothers => rw [if_neg hne, if_pos hnull, hothers]; rfl
  | nullable hne hnull hothers => rw [if_neg hne, if_pos hnull, hothers]; rfl
  | nullLast hne hnull hothers =>
      rw [if_neg hne, if_pos hnull, hothers, Hint.text_unionOf, ← List.cons_append,
        intercalate_snoc (by simp)]
      exact String.append_assoc
  | plain hne hnull halternatives =>
      rw [if_neg hne, hnull, if_neg Bool.false_ne_true, halternatives, Hint.text_unionOf]

theorem mem_alternatives {t : String} (ht : t ∈ u.alternatives) : t ∈ u.members ∨ t = "null" := by
  unfold alternatives at ht
  split at ht
  · rcases List.mem_append.1 ht with ht | ht
    · exact .inl ht
    · exact .inr (List.mem_singleton.1 ht)
  · exact .inl ht

theorem Declared.written (hd : Declared u h) (hnames : ∀ t ∈ u.members, IsTypeName t) :
    h.Written := by
  have hnull : IsTypeName "null" := by decide
  have hall : ∀ t ∈ u.alternatives, IsTypeName t := by
    intro t ht
    rcases mem_alternatives ht with ht | rfl
    · exact hnames t ht
    · exact hnull
  have hsome : ∀ t ∈ u.alternatives.filter (· != "null"), IsTypeName t :=
    fun t ht => hall t (List.mem_filter.1 ht).1
  cases hd with
  | mixed _ => exact .plain (.named (by decide))
  | null _ _ _ => exact .plain (.named hnull)
  | nullable _ _ hothers => exact .nullable (hsome _ (by simp [hothers]))
  | nullLast _ _ hothers =>
      rw [hothers] at hsome
      refine .plain (Hint.plain_unionOf ?_)
      intro t ht
      rw [← List.cons_append] at ht
      rcases List.mem_append.1 ht with ht | ht
      · exact hsome t ht
      · rw [List.mem_singleton.1 ht]
        exact hnull
  | plain _ _ halternatives =>
      rw [halternatives] at hall
      exact .plain (Hint.plain_unionOf hall)

theorem nodup_alternatives (h : u.members.Nodup) : u.alternatives.Nodup := by
  unfold alternatives
  split
  · next hnull =>
      have hnew : "null" ∉ u.members := by simpa using (Bool.and_eq_true_iff.1 hnull).2
      rw [List.nodup_append]
      refine ⟨h, by simp, ?_⟩
      rintro t ht _ hmem rfl
      rw [List.mem_singleton.1 hmem] at ht
      exact hnew ht
  · exact h

theorem Declared.docText (hd : Declared u h) (hdistinct : u.members.Nodup) :
    (ofHint? (some h)).docText = u.docTextNullLast := by
  unfold docTextNullLast
  have halternatives := nodup_alternatives hdistinct
  cases hd with
  | mixed hempty =>
      rw [if_pos hempty]
      decide
  | null hne hnull hothers =>
      rw [if_neg hne, hothers, if_pos hnull]
      decide
  | @nullable t hne hnull hothers =>
      have ht : t ≠ "null" := by
        have hmem : t ∈ u.alternatives.filter (· != "null") := by simp [hothers]
        simpa using (List.mem_filter.1 hmem).2
      rw [if_neg hne, hothers, if_pos hnull]
      refine (texts_nullable ht).2.trans ?_
      simp [String.intercalate_cons_cons, String.append_assoc]
  | @nullLast t t' ts hne hnull hothers =>
      have hnodup : (t :: (t' :: ts ++ ["null"])).Nodup := by
        rw [← List.cons_append, ← hothers, List.nodup_append]
        refine ⟨halternatives.filter _, by simp, ?_⟩
        rintro u hu _ hmem rfl
        rw [List.mem_singleton.1 hmem] at hu
        exact absurd (List.mem_filter.1 hu).2 (by decide)
      rw [if_neg hne, hothers, if_pos hnull, ofHint?_unionOf hnodup]
      rfl
  | plain hne hnull hall =>
      rw [if_neg hne, filter_of_not_contains hnull, hnull, if_neg Bool.false_ne_true, List.append_nil,
        hall]
      rw [hall] at halternatives
      rw [ofHint?_unionOf halternatives]
      rfl

end

end UnionType

end Scaffold
