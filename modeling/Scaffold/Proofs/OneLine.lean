import Scaffold.Command.Target
import Scaffold.Proofs.Draft
import Scaffold.Proofs.Lines
import Scaffold.Proofs.Names
/-!
What a line shows of a property stands on one line: no name and no spelling of a type in it holds a
line feed, whether the line could be parsed or not.
-/
namespace Scaffold

open Php Text

namespace Text

theorem onOneLine_of_isSolid {s : String} (h : IsSolid s.toList) : Lacks '\n' s :=
  fun hm => absurd (h.2 '\n' hm) (by decide)

end Text

namespace UnionType

def OnOneLine (u : UnionType) : Prop :=
  ∀ m ∈ u.members, Lacks '\n' m

theorem onOneLine_insert {u : UnionType} (hu : u.OnOneLine) {name : String}
    (hn : Lacks '\n' name) : (u.insert name).OnOneLine := by
  unfold insert
  split
  · exact hu
  · intro m hm
    rcases List.mem_append.mp hm with hm | hm
    · exact hu m hm
    · rw [List.mem_singleton.mp hm]
      exact hn

theorem onOneLine_alternatives {u : UnionType} (hu : u.OnOneLine) :
    ∀ m ∈ u.alternatives, Lacks '\n' m := by
  unfold alternatives
  split
  · intro m hm
    rcases List.mem_append.mp hm with hm | hm
    · exact hu m hm
    · rw [List.mem_singleton.mp hm]
      decide
  · exact hu

theorem onOneLine_docText {u : UnionType} (hu : u.OnOneLine) : Lacks '\n' u.docText := by
  unfold docText
  split
  · decide
  · exact Lacks.intercalate (by decide) (onOneLine_alternatives hu)

theorem onOneLine_declaredText {u : UnionType} (hu : u.OnOneLine) :
    Lacks '\n' u.declaredText := by
  have halt := onOneLine_alternatives hu
  have hothers : ∀ m ∈ u.alternatives.filter (· != "null"), Lacks '\n' m :=
    fun m hm => halt m (List.mem_filter.mp hm).1
  unfold declaredText
  split
  · decide
  · split
    · split
      · decide
      · next only h => exact Lacks.append (by decide) (hothers only (by simp [h]))
      · exact Lacks.append (Lacks.intercalate (by decide) hothers) (by decide)
    · exact Lacks.intercalate (by decide) halt

end UnionType

namespace Php.Hint

theorem onOneLine_text {h : Hint} (hs : h.Solid) : Lacks '\n' h.text := by
  induction h with
  | named t => exact onOneLine_of_isSolid hs
  | nullable h ih => exact Lacks.append (by decide) (ih hs)
  | union l r ihl ihr => exact ((ihl hs.1).append (by decide)).append (ihr hs.2)
  | intersection l r ihl ihr => exact ((ihl hs.1).append (by decide)).append (ihr hs.2)
  | group h ih => exact (Lacks.append (by decide) (ih hs)).append (by decide)

theorem onOneLine_addTo {h : Hint} (hs : h.Solid) {u : UnionType} (hu : u.OnOneLine) :
    (h.addTo u).OnOneLine := by
  induction h generalizing u with
  | named t => exact UnionType.onOneLine_insert hu (onOneLine_text hs)
  | nullable h ih => exact ih hs hu
  | union l r ihl ihr => exact ihr hs.2 (ihl hs.1 hu)
  | intersection l r _ _ => exact UnionType.onOneLine_insert hu (onOneLine_text hs)
  | group h _ => exact UnionType.onOneLine_insert hu (onOneLine_text hs)

end Php.Hint

theorem UnionType.onOneLine_empty : UnionType.OnOneLine {} := by
  simp [UnionType.OnOneLine]

theorem UnionType.onOneLine_ofHint? {h? : Option Hint} (hs : ∀ h ∈ h?, h.Solid) :
    (UnionType.ofHint? h?).OnOneLine := by
  cases h? with
  | none => exact onOneLine_empty
  | some h => exact Hint.onOneLine_addTo (hs h (by simp)) onOneLine_empty

theorem isSolid_of_run? {p : Char → Bool} {cs taken rest : List Char}
    (hp : ∀ c, p c = true → isSpace c = false) (h : run? p cs = some (taken, rest)) :
    IsSolid taken := by
  unfold run? at h
  split at h
  · exact nomatch h
  · next hne =>
      obtain ⟨rfl, -⟩ := Prod.mk.inj (Option.some.inj h)
      exact ⟨fun hnil => hne hnil, fun c hc => hp c (List.all_eq_true.mp List.all_takeWhile c hc)⟩

theorem isSpace_of_isWordChar {c : Char} (h : isWordChar c = true) : isSpace c = false :=
  isSpace_of_class (by decide) h

theorem Line.isSolid_of_propertyHead? {cs rest : List Char} {type? : Option String} {name : String}
    (h : Line.propertyHead? cs = some (type?, name, rest)) : IsSolid name.toList := by
  have hname {type : Option String} {after : List Char}
      (h : ((run? isWordChar after).bind fun taken =>
        pure (type, String.ofList taken.1, taken.2)) = some (type?, name, rest)) :
      IsSolid name.toList := by
    obtain ⟨⟨taken, left⟩, hrun, hpure⟩ := Option.bind_eq_some_iff.mp h
    cases hpure
    rw [String.toList_ofList]
    exact isSolid_of_run? (fun _ => isSpace_of_isWordChar) hrun
  unfold Line.propertyHead? at h
  simp only [Option.bind_eq_bind] at h
  obtain ⟨⟨_, after⟩, -, h⟩ := Option.bind_eq_some_iff.mp h
  dsimp only at h
  split at h
  · exact hname h
  · obtain ⟨found, -, h⟩ := Option.bind_eq_some_iff.mp h
    exact hname h

theorem Line.isSolid_of_property? {cs : List Char} {type? : Option String} {name : String}
    (h : Line.property? cs = some (.property type? name)) : IsSolid name.toList := by
  unfold Line.property? at h
  simp only [Option.bind_eq_bind] at h
  obtain ⟨⟨type', name', rest⟩, hhead, h⟩ := Option.bind_eq_some_iff.mp h
  dsimp only at h
  have hn := Line.isSolid_of_propertyHead? hhead
  split at h
  · cases h
    exact hn
  · split at h
    · cases h
      exact hn
    · exact nomatch h
  · exact nomatch h

theorem Line.isSolid_of_classLike? {cs : List Char} {keyword name : String}
    (h : Line.classLike? cs = some (.classLike keyword name)) : IsSolid name.toList := by
  unfold Line.classLike? at h
  simp only [Option.bind_eq_bind, Option.bind_eq_some_iff] at h
  obtain ⟨_, -, ⟨taken, left⟩, hrun, hpure⟩ := h
  cases hpure
  rw [String.toList_ofList]
  exact isSolid_of_run? (fun _ => isSpace_of_isWordChar) hrun

theorem onOneLine_classNameAbove {document name : String} {line : Nat}
    (h : classNameAbove document line = some name) : Lacks '\n' name := by
  have hfound : ∀ n ∈ classNameAbove document line, Lacks '\n' n := by
    unfold classNameAbove
    refine List.foldlRecOn (motive := fun found => ∀ n ∈ found, Lacks '\n' n) _ _ (by simp)
      fun found hfound text _ => ?_
    split
    · next keyword name hc => simpa using onOneLine_of_isSolid (Line.isSolid_of_classLike? hc)
    · exact hfound
  exact hfound name h

def PropertySignature.OnOneLine (p : PropertySignature) : Prop :=
  Lacks '\n' p.name ∧ p.types.OnOneLine

theorem PropertySignature.onOneLine_ofSite {s : Site} {p : PropertySignature}
    (h : PropertySignature.ofSite s = .ok p) : p.OnOneLine := by
  have hsolid := Program.solid_parse (memberSource (completeMember s.content))
  unfold PropertySignature.ofSite Program.locate memberOfFirst at h
  dsimp only at h
  generalize Program.parse (memberSource (completeMember s.content)) = program at h hsolid
  split at h
  · next found hfind =>
      cases h
      obtain ⟨c, hc, hm⟩ := Option.bind_eq_some_iff.mp hfind
      obtain ⟨m, hmem, hpick⟩ := List.exists_of_findSome?_eq_some hm
      have hmember := (hsolid c (List.mem_of_head? hc)).2 m hmem
      split at hpick
      · next name hint =>
          cases hpick
          exact ⟨onOneLine_of_isSolid hmember.1, UnionType.onOneLine_ofHint? hmember.2⟩
      · exact nomatch hpick
  · exact nomatch h

theorem Site.onOneLine_property? {s : Site} {p : PropertySignature} (h : s.property? = some p) :
    p.OnOneLine := by
  unfold Site.property? at h
  split at h
  · next p' hp =>
      cases h
      exact PropertySignature.onOneLine_ofSite hp
  · split at h
    · next hline =>
        cases h
        exact ⟨onOneLine_of_isSolid (Line.isSolid_of_property? hline), UnionType.onOneLine_empty⟩
    · exact nomatch h

end Scaffold
