import Scaffold.Proofs.OneLine
import Scaffold.Proofs.Placement
import Scaffold.Proofs.Template
/-!
The lines of accessors. Each is empty or starts with the indentation of the property, so that none
of them can be taken for the end of the class.
-/
namespace Scaffold

open Text

namespace Text

theorem ofNat_ne_feed {n : Nat} (h : n ≠ 10) : Char.ofNat n ≠ '\n' := by
  intro he
  by_cases hv : n.isValidChar
  · rw [Char.ofNat, dif_pos hv] at he
    exact h (congrArg Char.toNat he)
  · rw [Char.ofNat, dif_neg hv] at he
    exact absurd he (by decide)

theorem feed_not_mem_upper {c : Char} (h : c ≠ '\n') : '\n' ∉ upper c := by
  have hascii : ∀ n < 128, n ≠ 10 → (Char.ofNat n).toUpper ≠ '\n' := by decide
  have hlong : ∀ entry ∈ longCapitals, 10 ∉ entry.2 := by decide
  have hruns : ∀ r ∈ caseRuns, 10 < r.lo + r.shift := by decide +kernel
  have hc : c.toNat ≠ 10 := fun hn => h (by rw [← Char.ofNat_toNat c, hn])
  unfold upper
  dsimp only
  split
  · next hlt =>
      have hu := hascii c.toNat hlt hc
      rw [Char.ofNat_toNat] at hu
      simpa using hu.symm
  · split
    · next ns hns =>
        obtain ⟨before, after, htable, -⟩ := List.lookup_eq_some_iff.mp hns
        have hmem : (c.toNat, ns) ∈ longCapitals := by simp [htable]
        intro hm
        obtain ⟨n, hn, he⟩ := List.mem_map.mp hm
        exact ofNat_ne_feed (fun hten => hlong _ hmem (hten ▸ hn)) he
    · split
      · next r hr =>
          have hhas := List.find?_some hr
          simp only [CaseRun.has, Bool.and_eq_true, decide_eq_true_eq] at hhas
          have hshift := hruns r (List.mem_of_find?_eq_some hr)
          have hne : (c.toNat + r.shift).toNat ≠ 10 := by omega
          simpa using (ofNat_ne_feed hne).symm
      · simpa using h.symm

theorem mem_of_mem_trim {s : String} {c : Char} (h : c ∈ (trim s).toList) : c ∈ s.toList := by
  simp only [trim, dropBlanksEnd, dropBlanks, String.toList_ofList, List.mem_reverse] at h
  have h' := (List.dropWhile_sublist _).mem h
  exact (List.dropWhile_sublist _).mem (List.mem_reverse.mp h')

theorem onOneLine_capitalize {s : String} (h : Lacks '\n' s) : Lacks '\n' (capitalize s) := by
  have htrim : ∀ c ∈ (trim s).toList, c ≠ '\n' := fun c hc he => h (he ▸ mem_of_mem_trim hc)
  unfold capitalize
  split
  · decide
  · next c cs ht =>
      rw [ht] at htrim
      rw [Lacks, String.toList_ofList, List.mem_append, not_or]
      exact ⟨feed_not_mem_upper (htrim c (by simp)), fun hm => htrim '\n' (by simp [hm]) rfl⟩

theorem onOneLine_of_mem_lines {document line : String} (h : line ∈ lines document) :
    Lacks '\n' line := by
  obtain ⟨l, hl, rfl⟩ := List.mem_map.mp h
  obtain ⟨p, hp, hsub⟩ := subset_of_mem_lineChars hl
  rw [Lacks, String.toList_ofList]
  exact fun hm => feed_not_mem_splitChars hp (hsub _ hm)

structure Sheltered (s : String) : Prop where
  whole : IsWhole s.toList
  no_close : ∀ l ∈ wholeLines s.toList, closes l = false

theorem sheltered_empty : Sheltered "" :=
  ⟨isWhole_nil, by simp⟩

theorem sheltered_feed : Sheltered "\n" :=
  ⟨isWhole_snoc [], by decide⟩

theorem Sheltered.append {a b : String} (ha : Sheltered a) (hb : Sheltered b) :
    Sheltered (a ++ b) := by
  refine ⟨?_, ?_⟩
  · rw [String.toList_append]
    exact ha.whole.append hb.whole
  · rw [String.toList_append, wholeLines_append ha.whole]
    exact List.forall_mem_append.mpr ⟨ha.no_close, hb.no_close⟩

theorem Sheltered.join {texts : List String} (h : ∀ t ∈ texts, Sheltered t) :
    Sheltered (String.join texts) := by
  induction texts with
  | nil => exact sheltered_empty
  | cons t ts ih =>
      rw [String.join_cons]
      exact (h t (by simp)).append (ih fun u hu => h u (by simp [hu]))

structure IsTab (tab : String) : Prop where
  on_one_line : Lacks '\n' tab
  nonempty : tab ≠ ""
  no_close : closes tab.toList = false

def tabbed (tab body : String) : String :=
  tab ++ body ++ "\n"

theorem sheltered_tabbed {tab body : String} (htab : IsTab tab) (hbody : Lacks '\n' body) :
    Sheltered (tabbed tab body) := by
  have hcs : (tabbed tab body).toList = (tab ++ body).toList ++ ['\n'] := by
    simp [tabbed]
  refine ⟨?_, ?_⟩
  · rw [hcs]
    exact isWhole_snoc _
  · rw [hcs, wholeLines_snoc, splitChars_of_not_mem (htab.on_one_line.append hbody)]
    intro l hl
    rw [List.mem_singleton.mp hl, String.toList_append]
    have hclose := htab.no_close
    cases htl : tab.toList with
    | nil => exact absurd (String.toList_eq_nil_iff.mp htl) htab.nonempty
    | cons c cs =>
        rw [htl] at hclose
        exact hclose

end Text

namespace Template

theorem docLine_eq (tab line : String) :
    docLine tab line = tabbed tab (if line = "" then " *" else " * " ++ line) := by
  unfold docLine tabbed
  apply String.toList_inj.mp
  split <;> simp

theorem docBlock_eq (lines : List String) (tab : String) :
    docBlock lines tab =
      tabbed tab "/**" ++ String.join (lines.map (docLine tab)) ++ tabbed tab " */" := by
  unfold docBlock tabbed
  apply String.toList_inj.mp
  simp

theorem getterCode_eq (p : PropertySignature) (tab : String) :
    getterCode p tab =
      tabbed tab ("public function " ++ getterName p ++ "(): " ++ p.types.declaredText)
        ++ tabbed tab "\x7b" ++ tabbed tab (tab ++ "return $this->" ++ p.name ++ ";")
        ++ tabbed tab "\x7d" := by
  unfold getterCode tabbed
  apply String.toList_inj.mp
  simp

theorem setterCode_eq (p : PropertySignature) (tab : String) (s : Settings) :
    setterCode p tab s =
      tabbed tab ("public function " ++ setterName p ++ "(" ++ p.types.declaredText ++ " $" ++ p.name
        ++ "): " ++ (if s.fluentSetters then "self" else "void"))
        ++ tabbed tab "\x7b" ++ tabbed tab (tab ++ "$this->" ++ p.name ++ " = $" ++ p.name ++ ";")
        ++ (if s.fluentSetters then "\n" ++ tabbed tab (tab ++ "return $this;") else "")
        ++ tabbed tab "\x7d" := by
  unfold setterCode tabbed
  apply String.toList_inj.mp
  split <;> simp

section

variable {p : PropertySignature} {tab : String} {s : Settings}

theorem sheltered_docBlock {lines : List String} (htab : IsTab tab)
    (h : ∀ l ∈ lines, Lacks '\n' l) : Sheltered (docBlock lines tab) := by
  rw [docBlock_eq]
  refine ((sheltered_tabbed htab (by decide)).append (Sheltered.join ?_)).append
    (sheltered_tabbed htab (by decide))
  intro text ht
  obtain ⟨l, hl, rfl⟩ := List.mem_map.mp ht
  rw [docLine_eq]
  refine sheltered_tabbed htab ?_
  split
  · decide
  · exact Lacks.append (by decide) (h l hl)

theorem onOneLine_blankLines (n : Nat) : ∀ l ∈ blankLines n, Lacks '\n' l := by
  intro l hl
  rw [List.eq_of_mem_replicate hl]
  decide

theorem onOneLine_descriptionIf {text : String} (h : Lacks '\n' text) (isShown : Bool) :
    ∀ l ∈ descriptionIf isShown text s, Lacks '\n' l := by
  unfold descriptionIf
  split
  · exact List.forall_mem_cons.mpr ⟨h, onOneLine_blankLines _⟩
  · simp

theorem sheltered_getterDoc (hp : p.OnOneLine) (htab : IsTab tab) :
    Sheltered (getterDoc p tab s) := by
  refine sheltered_docBlock htab (List.forall_mem_append.mpr ⟨?_, ?_⟩)
  · exact onOneLine_descriptionIf (Lacks.append (by decide) hp.1) _
  · simpa using Lacks.append (by decide) (UnionType.onOneLine_docText hp.2)

theorem sheltered_getterCode (hp : p.OnOneLine) (htab : IsTab tab) :
    Sheltered (getterCode p tab) := by
  have hname : Lacks '\n' (getterName p) := by
    unfold getterName
    refine Lacks.append ?_ (onOneLine_capitalize hp.1)
    split <;> decide
  have hhead : Lacks '\n'
      ("public function " ++ getterName p ++ "(): " ++ p.types.declaredText) :=
    ((Lacks.append (by decide) hname).append (by decide)).append
      (UnionType.onOneLine_declaredText hp.2)
  have hreturn : Lacks '\n' (tab ++ "return $this->" ++ p.name ++ ";") :=
    ((htab.on_one_line.append (by decide)).append hp.1).append (by decide)
  rw [getterCode_eq]
  exact (((sheltered_tabbed htab hhead).append (sheltered_tabbed htab (by decide))).append
    (sheltered_tabbed htab hreturn)).append (sheltered_tabbed htab (by decide))

theorem sheltered_getter (hp : p.OnOneLine) (htab : IsTab tab) :
    Sheltered (getter p tab s) := by
  unfold getter
  split
  · exact sheltered_empty
  · refine (sheltered_feed.append ?_).append (sheltered_getterCode hp htab)
    split
    · exact sheltered_getterDoc hp htab
    · exact sheltered_empty

theorem sheltered_setterDoc {className : Option String} (hp : p.OnOneLine) (htab : IsTab tab)
    (hclass : ∀ name ∈ className, Lacks '\n' name) : Sheltered (setterDoc p tab className s) := by
  have hself : Lacks '\n' (className.getD "self") := by
    cases className with
    | none => decide
    | some name => exact hclass name (by simp)
  have hreturn : ∀ l ∈ setterReturn className s, Lacks '\n' l := by
    unfold setterReturn
    split
    · refine List.forall_mem_append.mpr ⟨onOneLine_blankLines _, ?_⟩
      simpa using Lacks.append (by decide) hself
    · simp
  have hparam : Lacks '\n' ("@param " ++ p.types.docText ++ " $" ++ p.name) :=
    ((Lacks.append (by decide) (UnionType.onOneLine_docText hp.2)).append (by decide)).append
      hp.1
  refine sheltered_docBlock htab (List.forall_mem_append.mpr ⟨?_, hreturn⟩)
  refine List.forall_mem_append.mpr ⟨?_, by simpa using hparam⟩
  exact onOneLine_descriptionIf (Lacks.append (by decide) hp.1) _

theorem sheltered_setterCode (hp : p.OnOneLine) (htab : IsTab tab) :
    Sheltered (setterCode p tab s) := by
  have hname : Lacks '\n' (setterName p) :=
    Lacks.append (by decide) (onOneLine_capitalize hp.1)
  have hreturns : Lacks '\n' (if s.fluentSetters then "self" else "void") := by
    split <;> decide
  have hhead : Lacks '\n' ("public function " ++ setterName p ++ "(" ++ p.types.declaredText ++ " $"
      ++ p.name ++ "): " ++ (if s.fluentSetters then "self" else "void")) := by
    refine Lacks.append (Lacks.append (Lacks.append (Lacks.append ?_ ?_) hp.1)
      (by decide)) hreturns
    · exact ((Lacks.append (by decide) hname).append (by decide)).append
        (UnionType.onOneLine_declaredText hp.2)
    · decide
  have hassign : Lacks '\n' (tab ++ "$this->" ++ p.name ++ " = $" ++ p.name ++ ";") :=
    ((((htab.on_one_line.append (by decide)).append hp.1).append (by decide)).append hp.1).append
      (by decide)
  have hfluent : Sheltered
      (if s.fluentSetters then "\n" ++ tabbed tab (tab ++ "return $this;") else "") := by
    split
    · exact sheltered_feed.append
        (sheltered_tabbed htab (htab.on_one_line.append (by decide)))
    · exact sheltered_empty
  rw [setterCode_eq]
  exact ((((sheltered_tabbed htab hhead).append (sheltered_tabbed htab (by decide))).append
    (sheltered_tabbed htab hassign)).append hfluent).append (sheltered_tabbed htab (by decide))

theorem sheltered_setter {className : Option String} (hp : p.OnOneLine) (htab : IsTab tab)
    (hclass : ∀ name ∈ className, Lacks '\n' name) : Sheltered (setter p tab className s) := by
  unfold setter
  split
  · exact sheltered_empty
  · refine (sheltered_feed.append ?_).append (sheltered_setterCode hp htab)
    split
    · exact sheltered_setterDoc hp htab hclass
    · exact sheltered_empty

end

end Template

end Scaffold
