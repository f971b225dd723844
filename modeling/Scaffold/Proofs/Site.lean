import Scaffold.Proofs.Draft
import Scaffold.Proofs.Lines
/-!
What a document shows at a line depends only on the lines up to it, except for functions, which are
looked up in the whole document.
-/
namespace Scaffold

open Text

def SameUpTo (n : Nat) (t t' : String) : Prop :=
  (lines t).take n = (lines t').take n

theorem sameUpTo_append {a : List Char} (ha : IsWhole a) (b b' : List Char) :
    SameUpTo (wholeLines a).length (String.ofList (a ++ b)) (String.ofList (a ++ b')) := by
  unfold SameUpTo
  rw [lines_append ha, lines_append ha, List.take_left' (by simp), List.take_left' (by simp)]

theorem isDocumented_eq_take (document : String) (line : Nat) :
    isDocumented document line =
      hasDocComment (joinLines (((lines document).take line).drop (line - 3))).toList := by
  unfold isDocumented
  dsimp only
  rw [← List.drop_take]

namespace SameUpTo

variable {n line : Nat} {t t' : String}

theorem take_eq (h : SameUpTo n t t') (hk : line ≤ n) :
    (lines t).take line = (lines t').take line := by
  have hm : line = min line n := by omega
  rw [hm, ← List.take_take, ← List.take_take, show (lines t).take n = _ from h]

theorem getElem?_eq (h : SameUpTo n t t') (hk : line < n) :
    (lines t)[line]? = (lines t')[line]? := by
  rw [← List.getElem?_take_of_lt hk, show (lines t).take n = _ from h, List.getElem?_take_of_lt hk]

theorem ofLine?_eq (h : SameUpTo n t t') (hk : line < n) :
    Site.ofLine? t line = Site.ofLine? t' line := by
  have hc : classNameAbove t line = classNameAbove t' line := by
    unfold classNameAbove
    rw [h.take_eq (Nat.le_of_lt hk)]
  unfold Site.ofLine?
  rw [h.getElem?_eq hk, hc]

theorem isDocumented_eq (h : SameUpTo n t t') (hk : line ≤ n) :
    isDocumented t line = isDocumented t' line := by
  rw [isDocumented_eq_take, isDocumented_eq_take, h.take_eq hk]

end SameUpTo

namespace Site

theorem signature_eq {declared : DeclarationLine} (hkind : declared.kind ≠ .function) (s : Site)
    (t t' : String) : s.signature t declared = s.signature t' declared := by
  have h : Signature.ofSite t s declared.kind = Signature.ofSite t' s declared.kind := by
    cases hk : declared.kind with
    | classLike => rfl
    | constant => rfl
    | property => rfl
    | function => exact absurd hk hkind
  unfold signature
  rw [h]

theorem docText_eq {s : Site} (hkind : ∀ declared, DeclarationLine.parse? s.text = some declared →
    declared.kind ≠ .function) (t t' : String) (settings : Settings) :
    s.docText t settings = s.docText t' settings := by
  unfold docText
  cases hp : DeclarationLine.parse? s.text with
  | none => rfl
  | some declared =>
      dsimp only
      rw [signature_eq (hkind declared hp) s t t']

theorem text_of_ofLine? {document : String} {line : Nat} {s : Site}
    (h : ofLine? document line = some s) : (lines document)[line]? = some s.text := by
  obtain ⟨text, ht, hs⟩ := Option.bind_eq_some_iff.mp h
  rw [ht, ← Option.some.inj hs]

theorem exists_ofLine? {document text : String} {line : Nat}
    (h : (lines document)[line]? = some text) :
    ∃ s, ofLine? document line = some s ∧ s.text = text := by
  refine ⟨⟨text, indentation text, line, classNameAbove document line⟩, ?_, rfl⟩
  rw [ofLine?, h]
  rfl

theorem tab_of_ofLine? {document : String} {line : Nat} {s : Site}
    (h : ofLine? document line = some s) : s.tab = indentation s.text := by
  obtain ⟨text, -, hs⟩ := Option.bind_eq_some_iff.mp h
  rw [← Option.some.inj hs]

end Site

end Scaffold
