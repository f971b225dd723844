import Scaffold.Proofs.PropertyLine
/-!
Members whose value is the start of an array. Closed at once, the bracket makes an empty array. With
a semicolon behind it, the semicolon is taken for an element, and the bracket and the end of the
member are missed; these are faults, but the member is kept.
-/
namespace Scaffold

open Php Text

namespace Php

open Reader Grammar

section

variable {depth : Nat} {k? : Option Kind} {r r' : Rules}

theorem takes_expression {m : Mark} {w : Word} {ws : List Word} {waiting : Bool}
    (hdepth : depth < maxDepth) (hm : m = .semicolon ∨ m = .closeBrace)
    (hw : standsBefore w.1 = false)
    (hoperand : ∀ target, Takes (depth + 1) (operand r target waiting) (w :: ws) (some (.mark m))
      (fun _ => True)) :
    Takes depth (expression r waiting) (w :: ws) (some (.mark m)) (fun _ => True) := by
  have hmark : m ∈ [.assign, .semicolon, .closeBrace] := by
    rcases hm with rfl | rfl <;> decide
  have hbetween : standsBetween (.mark m) = false := by
    rcases hm with rfl | rfl <;> rfl
  have hunit : Takes (depth + 1) (unit r waiting) (w :: ws) (some (.mark m)) (fun _ => True) := by
    refine takes_rounds fun n _ => takes_peek (takes_if_neg (by simp [hw]) ?_)
    refine takes_bind_last (hoperand _) fun e _ => takes_rounds fun n _ => ?_
    exact takes_trailing_end r hmark n e
  have hchain (e : Expression) : Takes (depth + 1) (rounds fun n => chain r n e) []
      (some (.mark m)) (fun _ => True) := by
    refine takes_rounds fun n _ => takes_peek ?_
    rcases hm with rfl | rfl <;> exact takes_if_neg (by simp [hbetween]) (takes_pure trivial)
  exact takes_nested hdepth (takes_bind_last hunit fun e _ => hchain e)

theorem takes_emptyArray (hdepth : depth < maxDepth) :
    Takes depth (expression r false) [(.mark .openBracket, "["), (.mark .closeBracket, "]")]
      (some (.mark .semicolon)) (fun _ => True) := by
  refine takes_expression hdepth (.inl rfl) rfl fun target => takes_peek ?_
  refine takes_bind_last (P := fun _ => True) ?_ fun _ _ => takes_pure trivial
  refine @takes_listed _ _ [] _ _ _ _ _ _ _ fun n _ => ?_
  exact (takes_itemsUntil_nil n).mono fun _ _ => trivial

theorem takes_openArray (hdepth : depth + 1 < maxDepth) (hr : r.expression = expression r') :
    Takes depth (expression r false) [(.mark .openBracket, "["), semicolonWord]
      (some (.mark .closeBrace)) (fun _ => True) := by
  have hmisplaced : Takes (depth + 1) (expression r' false) [semicolonWord]
      (some (.mark .closeBrace)) (fun _ => True) := by
    refine takes_expression hdepth (.inr rfl) rfl fun target => takes_peek (takes_peek ?_)
    refine takes_advance fun _ _ => ?_
    exact takes_bind_first takes_note fun _ _ => takes_pure trivial
  have helement : Takes (depth + 1) (element r) [semicolonWord] (some (.mark .closeBrace))
      (fun _ => True) := by
    rw [← hr] at hmisplaced
    refine takes_peek (takes_bind_last hmisplaced fun _ _ => ?_)
    exact takes_eatIf_neg nofun (takes_pure trivial)
  refine takes_expression (Nat.lt_of_succ_lt hdepth) (.inr rfl) rfl fun target => takes_peek ?_
  refine takes_bind_last (P := fun _ => True) ?_ fun _ _ => takes_pure trivial
  refine takes_eat fun _ _ => ?_
  have hitems (n : Nat) : Takes (depth + 1) (itemsUntil .closeBracket (element r) (n + 1))
      [semicolonWord] (some (.mark .closeBrace)) (fun as => ∃ a, as = [a] ∧ True) :=
    takes_itemsUntil_last (by decide) (by decide) helement n
  refine takes_bind_last (takes_rounds fun n _ => hitems n) fun _ _ => ?_
  refine takes_bind_first (P := fun _ => True) ?_ fun _ _ => takes_pure trivial
  exact takes_peek (takes_if_neg nofun takes_note)

theorem takes_terminator_missed :
    Takes depth terminator [] (some (.mark .closeBrace)) (fun _ => True) :=
  takes_peek takes_note

theorem takes_propertyItem_value {x : String} {ws : List Word}
    (hvalue : Takes depth (r.expression false) ws k? (fun _ => True)) :
    Takes depth (propertyItem r) (variableWord x :: (.mark .assign, "=") :: ws) k? (· = x) := by
  refine takes_eat fun t ht => takes_eatIf_pos ?_
  exact takes_bind_last hvalue fun _ _ => takes_pure (bareName_variable ht)

theorem takes_constantItem {k : Kind} {x : String} {ws : List Word}
    (hk : k = .name ∨ ∃ kw, k = .keyword kw)
    (hvalue : Takes depth (r.expression false) ws k? (fun _ => True)) :
    Takes depth (constantItem r) ((k, x) :: (.mark .assign, "=") :: ws) k? (· = x) := by
  refine takes_bind_word (takes_anyName hk) ?_
  rintro _ rfl
  refine takes_eat fun _ _ => ?_
  exact takes_bind_last hvalue fun _ _ => takes_pure rfl

theorem takes_constants {k : Kind} {x : String} {ws ws' : List Word}
    (hk : k = .name ∨ ∃ kw, k = .keyword kw)
    (hvalue : Takes depth (r.expression false) ws (firstKind ws' k?) (fun _ => True))
    (hend : Takes depth terminator ws' k? (fun _ => True))
    (hcomma : firstKind ws' k? ≠ some (.mark .comma)) :
    Takes depth (constants r)
      ((.keyword .const_, "const") :: ((k, x) :: (.mark .assign, "=") :: ws ++ ws')) k?
      (· = .constant x none) := by
  have hnames : Takes depth (rounds (separatedUntil isTerminator (constantItem r)))
      ((k, x) :: (.mark .assign, "=") :: ws) (firstKind ws' k?) (· = [x]) := by
    have hstart : isTerminator k = false := by
      rcases hk with rfl | ⟨kw, rfl⟩ <;> rfl
    refine takes_rounds fun n _ => takes_peek (takes_if_neg (by simp [hstart]) ?_)
    refine takes_bind_last (takes_constantItem hk hvalue) ?_
    rintro _ rfl
    exact takes_eatIf_neg hcomma (takes_pure rfl)
  refine takes_eat fun _ _ => takes_peekSecond ?_
  refine takes_bind_first (P := (· = none)) (takes_pure rfl) ?_
  rintro _ rfl
  refine takes_bind hnames ?_
  rintro _ rfl
  exact takes_bind_last hend fun _ _ => takes_pure rfl

end

/-- Whether a text can follow the bracket that opens a value, and how it is read: the words of the
value, and those that end the member. -/
structure EndsArray (tail : String) (value rest : List Word) : Prop where
  scans : ∀ {cs ws}, Scans cs ws → Scans ('[' :: (tail.toList ++ cs)) (value ++ (rest ++ ws))
  takes : ∀ n, Takes 0 ((Rules.upTo (n + 2)).expression false) value
    (firstKind rest (some (.mark .closeBrace))) (fun _ => True)
  ends : Takes 0 terminator rest (some (.mark .closeBrace)) (fun _ => True)
  plain : firstKind rest (some (.mark .closeBrace)) ∉
    [some (.mark .openBrace), some (.mark .comma)]

theorem endsArray_closed :
    EndsArray "];" [(.mark .openBracket, "["), (.mark .closeBracket, "]")] [semicolonWord] where
  scans h := scans_mark ofCode_openBracket (scans_mark ofCode_closeBracket
    (scans_mark ofCode_semicolon h))
  takes _ := takes_emptyArray (by decide)
  ends := takes_terminator
  plain := by decide

theorem endsArray_open {gap : String} (hgap : ∀ c ∈ gap.toList, isSpace c = true) :
    EndsArray (gap ++ ";") [(.mark .openBracket, "["), semicolonWord] [] where
  scans {cs _} h := by
    have htail := scans_blanks hgap (scans_mark ofCode_semicolon h)
    have hchars : (gap ++ ";").toList ++ cs = gap.toList ++ ';' :: cs := by simp
    rw [hchars]
    exact scans_mark ofCode_openBracket htail
  takes _ := takes_openArray (by decide) rfl
  ends := takes_terminator_missed
  plain := by decide

namespace EndsArray

variable {tail : String} {value rest : List Word} (h : EndsArray tail value rest)
include h

theorem scans_assigned {cs : List Char} {ws : List Word} (hcs : Scans cs ws) :
    Scans (' ' :: '=' :: ' ' :: '[' :: (tail.toList ++ cs))
      ((.mark .assign, "=") :: (value ++ (rest ++ ws))) :=
  scans_blank rfl (scans_mark ofCode_assign (scans_blank rfl (h.scans hcs)))

theorem takes_property {h? : Option Hint} (hw : ∀ h ∈ h?, h.Written) (x : String) (n : Nat) :
    Takes 0 (property (Rules.upTo (n + 2)))
      (wordsOf h? ++ variableWord x :: ((.mark .assign, "=") :: value ++ rest))
      (some (.mark .closeBrace)) (· = .property x h?) := by
  have hplain := h.plain
  simp only [List.mem_cons, List.not_mem_nil, or_false, not_or] at hplain
  exact Php.takes_property _ hw (takes_propertyItem_value (h.takes n)) h.ends hplain.1 hplain.2

theorem takes_constant {v : Keyword} (hv : isVisibility v = true) {k : Kind}
    (hk : k = .name ∨ ∃ kw, k = .keyword kw) (visibility x : String) (n : Nat) :
    Takes 0 (member (Rules.upTo (n + 2)))
      ((.keyword v, visibility) :: (.keyword .const_, "const") :: ((k, x) ::
        (.mark .assign, "=") :: value ++ rest))
      (some (.mark .closeBrace)) (· = .constant x none) := by
  have hplain := h.plain
  simp only [List.mem_cons, List.not_mem_nil, or_false, not_or] at hplain
  have hconstants := takes_constants (x := x) hk (h.takes n) h.ends hplain.2
  have hmodifiers : EndsModifiers (some (.keyword .const_)) := by
    rintro _ ⟨⟩
    rfl
  refine takes_member _ hv (List.forall_mem_nil _) ?_ hconstants visibility
  exact hmodifiers

end EndsArray

end Php

def lineHint (declared? : Option DeclarationLine) : String :=
  match declared? with
  | some (.constant (some token) _) =>
      if isCapitalWord token then UnionType.mixed else (UnionType.ofToken token).docText
  | _ => UnionType.mixed

section

variable {s : Site} {visibility x tail : String} {value rest : List Word}
  (hx : IsIdentifier x.toList) (h : EndsArray tail value rest)
include hx h

theorem scans_constArray (hhalt : wordKind x.toList ≠ .keyword .haltCompiler) {cs : List Char}
    {ws : List Word} (hcs : Scans cs ws) :
    Scans (("const " ++ x ++ (" = [" ++ tail)).toList ++ cs)
      ((.keyword .const_, "const") :: ((wordKind x.toList, x) :: (.mark .assign, "=") :: value ++
        rest) ++ ws) := by
  have hname := scans_word hx rfl hhalt (by decide) (.inr (by decide)) (h.scans_assigned hcs)
  have hkind : wordKind "const".toList = .keyword .const_ := by decide
  have hconst := scans_word (by decide) hkind (by decide) (by decide) (.inr (by decide))
    (scans_blank (c := ' ') rfl hname)
  simpa using hconst

variable (hvisibility : visibility ∈ Line.visibilities)
include hvisibility

theorem PropertySignature.ofSite_array {h? : Option Hint} (hw : ∀ h ∈ h?, h.Written)
    (hstatic : ∀ h ∈ h?, firstKind h.words none ≠ some (.keyword .static))
    (hcomplete : completeMember s.content =
      visibility ++ " " ++ (typeText h? ++ "$" ++ x ++ (" = [" ++ tail))) :
    PropertySignature.ofSite s = .ok ⟨x, UnionType.ofHint? h?⟩ := by
  have hnone : ∀ k ∈ ([] : List (Keyword × String)), k.1.isModifier = true := List.forall_mem_nil _
  refine ofSite_property hvisibility hcomplete hw hstatic hnone ?_ (h.takes_property hw x)
  intro cs ws hcs
  have hline := scans_typed hw hx (by simp; decide) (h.scans_assigned hcs)
  simpa [modifierWords] using hline

theorem ConstantSignature.ofSite_array (hhalt : wordKind x.toList ≠ .keyword .haltCompiler)
    (hcomplete : completeMember s.content =
      visibility ++ " " ++ ("const " ++ x ++ (" = [" ++ tail))) :
    ConstantSignature.ofSite s = .ok ⟨x, lineHint (DeclarationLine.constant? s.content)⟩ := by
  obtain ⟨v, hv⟩ := exists_visibilityWord hvisibility
  obtain ⟨start, stop, hstatements⟩ := statements_memberSource (by simp)
    (fun hws => hv.scans (scans_constArray hx h hhalt hws))
    (h.takes_constant hv.visible (wordKind_eq _) visibility x)
  unfold ConstantSignature.ofSite Program.locate lineHint
  dsimp only
  rw [hcomplete, hstatements]
  generalize DeclarationLine.constant? s.content = declared?
  rfl

end

end Scaffold
