import Scaffold.Template.Accessor
import Scaffold.Template.Class
import Scaffold.Proofs.Lines
/-!
Generated texts are made of whole lines: whatever the settings, a text that is not empty ends with
a line feed.
-/
namespace Scaffold

def Text.EndsLine (s : String) : Prop :=
  s.toList.getLast? = some '\n'

namespace Text

instance (s : String) : Decidable (EndsLine s) :=
  inferInstanceAs (Decidable (s.toList.getLast? = some '\n'))

theorem EndsLine.append (a : String) {b : String} (h : EndsLine b) : EndsLine (a ++ b) := by
  rw [EndsLine, String.toList_append, List.getLast?_append, h]
  rfl

theorem EndsLine.isWhole {s : String} (h : EndsLine s) : IsWhole s.toList :=
  .inr h

theorem EndsLine.join {texts : List String} (hne : texts ≠ []) (h : ∀ t ∈ texts, EndsLine t) :
    EndsLine (String.join texts) := by
  induction texts with
  | nil => exact absurd rfl hne
  | cons t ts ih =>
      rw [String.join_cons]
      by_cases hts : ts = []
      · rw [hts]
        simpa [String.join] using h t (by simp)
      · exact EndsLine.append t (ih hts fun u hu => h u (by simp [hu]))

theorem EndsLine.unless {c : Prop} [Decidable c] {t : String} (h : (if c then "" else t) ≠ "")
    (ht : EndsLine t) : EndsLine (if c then "" else t) := by
  by_cases hc : c
  · exact absurd (if_pos hc) h
  · rw [if_neg hc]
    exact ht

end Text

namespace Template

open Text

theorem endsLine_docBlock (lines : List String) (tab : String) : EndsLine (docBlock lines tab) := by
  unfold docBlock
  exact EndsLine.append _ (by decide)

theorem endsLine_getter {p : PropertySignature} {tab : String} {s : Settings}
    (h : getter p tab s ≠ "") : EndsLine (getter p tab s) := by
  unfold getter at h ⊢
  refine EndsLine.unless h (EndsLine.append _ ?_)
  unfold getterCode
  exact EndsLine.append _ (by decide)

theorem endsLine_setter {p : PropertySignature} {tab : String} {className : Option String}
    {s : Settings} (h : setter p tab className s ≠ "") :
    EndsLine (setter p tab className s) := by
  unfold setter at h ⊢
  refine EndsLine.unless h (EndsLine.append _ ?_)
  unfold setterCode
  exact EndsLine.append _ (by decide)

def docLines (signature : Signature) (s : Settings) : List String :=
  match signature with
  | .classLike c => [capitalize c.keyword.text ++ " " ++ c.name ++ " description."]
  | .constant c =>
      descriptionIf s.constantDescription (c.name ++ " description.") s ++ ["@var " ++ c.hint]
  | .property p =>
      descriptionIf s.propertyDescription (p.name ++ " description.") s
        ++ ["@var " ++ p.types.docText]
  | .function f => functionLines f s

theorem doc_eq (signature : Signature) (tab : String) (s : Settings) :
    doc signature tab s =
      if signature.name = "" then "" else docBlock (docLines signature s) tab := by
  cases signature <;> rfl

theorem endsLine_doc {signature : Signature} {tab : String} {s : Settings}
    (h : doc signature tab s ≠ "") : EndsLine (doc signature tab s) := by
  rw [doc_eq] at h ⊢
  exact EndsLine.unless h (endsLine_docBlock _ _)

theorem endsLine_constructor (ps : List PropertySignature) (tab : String)
    (className : Option String) (s : Settings) : EndsLine (constructor ps tab className s) := by
  unfold constructor
  cases ps with
  | nil => exact EndsLine.append _ (by decide)
  | cons p ps => exact EndsLine.append _ (by decide)

theorem head?_constructor (ps : List PropertySignature) (tab : String)
    (className : Option String) (s : Settings) :
    (constructor ps tab className s).toList.head? = some '\n' := by
  unfold constructor
  cases ps with
  | nil =>
      simp only [String.toList_append, List.append_assoc]
      rfl
  | cons p ps =>
      simp only [String.toList_append, List.append_assoc]
      rfl

theorem endsLine_skeleton {keyword : Php.ClassKeyword} {name nameSpace : String} {s : Settings}
    (h : skeleton keyword name nameSpace s ≠ "") :
    EndsLine (skeleton keyword name nameSpace s) := by
  unfold skeleton at h ⊢
  exact EndsLine.unless h (EndsLine.append _ (by decide))

end Template

end Scaffold
