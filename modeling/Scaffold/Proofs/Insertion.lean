import Scaffold.Insertion
import Scaffold.Proofs.Lines
/-!
Insertions seen line by line. Insertions at or after a line leave all before it as it is; so a list of
insertions in the order of their lines can be done one at a time, the last one first, each into the
text that the later ones leave.
-/
namespace Scaffold.Insertion

open Text

theorem nextStarts_append (pos : Nat) (a b : List Char) :
    nextStarts pos (a ++ b) = nextStarts pos a ++ nextStarts (pos + a.length) b := by
  induction a generalizing pos with
  | nil => simp [nextStarts]
  | cons c a ih =>
      simp only [List.cons_append, nextStarts, ih, List.length_cons]
      rw [Nat.add_right_comm, Nat.add_assoc]
      split <;> simp

theorem length_lineStarts (cs : List Char) : (lineStarts cs).length = (splitChars cs).length := by
  rw [lineStarts, List.length_cons]
  generalize 0 = pos
  induction cs generalizing pos with
  | nil => rfl
  | cons c cs ih =>
      rw [nextStarts, splitChars_cons]
      by_cases hc : c = '\n'
      · simp [hc, ih (pos + 1)]
      · rw [if_neg hc, if_neg hc, ih (pos + 1), List.length_modifyHead]

theorem le_of_mem_nextStarts {pos p : Nat} {cs : List Char} (h : p ∈ nextStarts pos cs) :
    pos ≤ p := by
  induction cs generalizing pos with
  | nil => simp [nextStarts] at h
  | cons c cs ih =>
      simp only [nextStarts] at h
      split at h
      · rcases List.mem_cons.mp h with rfl | h
        · omega
        · have := ih h
          omega
      · have := ih h
        omega

theorem lineStarts_append {a : List Char} (ha : IsWhole a) (b : List Char) :
    ∃ heads, heads.length = (wholeLines a).length ∧
      lineStarts (a ++ b) = heads ++ a.length :: nextStarts a.length b := by
  by_cases hne : a = []
  · exact ⟨[], by simp [hne], by simp [hne, lineStarts]⟩
  · obtain ⟨body, rfl⟩ := ha.eq_snoc hne
    refine ⟨lineStarts body, ?_, ?_⟩
    · rw [length_lineStarts, wholeLines_snoc]
    · simp [lineStarts, nextStarts_append, nextStarts]

theorem getElem?_lineStarts {a : List Char} (ha : IsWhole a) (b : List Char) :
    (lineStarts (a ++ b))[(wholeLines a).length]? = some a.length := by
  obtain ⟨heads, hlen, hs⟩ := lineStarts_append ha b
  rw [hs, ← hlen]
  simp

def offset (cs : List Char) (line : Nat) : Nat :=
  (lineStarts cs)[line]?.getD cs.length

theorem offset_append {a : List Char} (ha : IsWhole a) (b : List Char) :
    offset (a ++ b) (wholeLines a).length = a.length := by
  rw [offset, getElem?_lineStarts ha]
  rfl

theorem le_offset {a : List Char} (ha : IsWhole a) (b : List Char) {line : Nat}
    (h : (wholeLines a).length ≤ line) : a.length ≤ offset (a ++ b) line := by
  obtain ⟨heads, hlen, hs⟩ := lineStarts_append ha b
  rw [offset, hs, List.getElem?_append_right (by omega)]
  cases hg : (a.length :: nextStarts a.length b)[line - heads.length]? with
  | none => simp
  | some p =>
      rw [Option.getD_some]
      rcases List.mem_cons.mp (List.mem_of_getElem? hg) with rfl | hp
      · exact Nat.le_refl _
      · exact le_of_mem_nextStarts hp

theorem offset_of_le {cs : List Char} {line : Nat} (h : (splitChars cs).length ≤ line) :
    offset cs line = cs.length := by
  rw [offset, List.getElem?_eq_none (by rw [length_lineStarts]; exact h)]
  rfl

def Ascending (insertions : List Insertion) : Prop :=
  insertions.Pairwise fun i j => i.line ≤ j.line

theorem ordered_of_ascending {insertions : List Insertion} (h : Ascending insertions) :
    ordered insertions = insertions.reverse := by
  apply List.mergeSort_of_pairwise
  rw [List.pairwise_reverse]
  exact h.imp fun hij => decide_eq_true hij

def insertInto (cs : List Char) (result : List Char) (i : Insertion) : List Char :=
  insertAt result (offset cs i.line) i.text.toList

theorem applyAll_of_ascending {insertions : List Insertion} (h : Ascending insertions)
    (cs : List Char) :
    applyAll (String.ofList cs) insertions =
      String.ofList (insertions.reverse.foldl (insertInto cs) cs) := by
  unfold applyAll
  rw [ordered_of_ascending h]
  simp only [String.toList_ofList]
  rfl

theorem insertAt_append {a : List Char} (b new : List Char) {pos : Nat} (h : a.length ≤ pos) :
    insertAt (a ++ b) pos new = a ++ insertAt b (pos - a.length) new := by
  simp only [insertAt, List.take_append, List.drop_append, List.take_of_length_le h,
    List.drop_eq_nil_of_le h, List.append_assoc, List.nil_append]

theorem insertAt_length (a b new : List Char) : insertAt (a ++ b) a.length new = a ++ (new ++ b) := by
  simp [insertAt]

theorem foldl_insertInto_append {a : List Char} (ha : IsWhole a) (b : List Char)
    (insertions : List Insertion) (h : ∀ i ∈ insertions, (wholeLines a).length ≤ i.line)
    (b₀ : List Char) :
    ∃ b', insertions.foldl (insertInto (a ++ b)) (a ++ b₀) = a ++ b' := by
  induction insertions generalizing b₀ with
  | nil => exact ⟨b₀, rfl⟩
  | cons i insertions ih =>
      rw [List.foldl_cons, insertInto, insertAt_append _ _ (le_offset ha b (h i (by simp)))]
      exact ih (fun j hj => h j (by simp [hj])) _

theorem ascending_cons {i : Insertion} {rest : List Insertion} :
    Ascending (i :: rest) ↔ (∀ j ∈ rest, i.line ≤ j.line) ∧ Ascending rest :=
  List.pairwise_cons

theorem applyAll_nil (document : String) : applyAll document [] = document := by
  have h : Ascending [] := List.Pairwise.nil
  simpa using applyAll_of_ascending h document.toList

theorem applyAll_keeps {a : List Char} (ha : IsWhole a) (b : List Char)
    {insertions : List Insertion} (h : Ascending insertions)
    (hk : ∀ i ∈ insertions, (wholeLines a).length ≤ i.line) :
    ∃ b', applyAll (String.ofList (a ++ b)) insertions = String.ofList (a ++ b') := by
  obtain ⟨b', hb⟩ := foldl_insertInto_append ha b insertions.reverse
    (fun i hi => hk i (List.mem_reverse.mp hi)) b
  exact ⟨b', by rw [applyAll_of_ascending h, hb]⟩

theorem applyAll_cons {a : List Char} (ha : IsWhole a) (b : List Char) {i : Insertion}
    {rest : List Insertion} (h : Ascending (i :: rest)) (hi : i.line = (wholeLines a).length) :
    ∃ b', applyAll (String.ofList (a ++ b)) rest = String.ofList (a ++ b') ∧
      applyAll (String.ofList (a ++ b)) (i :: rest) =
        String.ofList (a ++ (i.text.toList ++ b')) := by
  obtain ⟨hle, hrest⟩ := ascending_cons.mp h
  obtain ⟨b', hb⟩ := foldl_insertInto_append ha b rest.reverse
    (fun j hj => hi ▸ hle j (List.mem_reverse.mp hj)) b
  refine ⟨b', by rw [applyAll_of_ascending hrest, hb], ?_⟩
  rw [applyAll_of_ascending h, List.reverse_cons, List.foldl_append, hb, List.foldl_cons,
    List.foldl_nil, insertInto, hi, offset_append ha, insertAt_length]

theorem applyAll_singleton {a : List Char} (ha : IsWhole a) (b : List Char) (text : String) :
    applyAll (String.ofList (a ++ b)) [⟨(wholeLines a).length, text⟩] =
      String.ofList (a ++ (text.toList ++ b)) := by
  obtain ⟨b', hb, h⟩ := applyAll_cons ha b (i := ⟨(wholeLines a).length, text⟩)
    (List.pairwise_singleton _ _) rfl
  rw [applyAll_nil] at hb
  rw [h, List.append_cancel_left (String.ofList_injective hb).symm]

theorem applyAll_append {document : String} {front rest : List Insertion}
    (h : Ascending (front ++ rest))
    (hin : ∀ i ∈ front, i.line < (splitChars document.toList).length) :
    applyAll document (front ++ rest) = applyAll (applyAll document rest) front := by
  induction front with
  | nil => rw [List.nil_append, applyAll_nil]
  | cons i front ih =>
      rw [List.cons_append] at h ⊢
      obtain ⟨hle, htail⟩ := ascending_cons.mp h
      have ih := ih htail fun j hj => hin j (by simp [hj])
      obtain ⟨hfront, hrest, -⟩ := List.pairwise_append.mp htail
      have hcons : Ascending (i :: front) :=
        ascending_cons.mpr ⟨fun j hj => hle j (List.mem_append_left _ hj), hfront⟩
      obtain ⟨a, b, rfl, ha, hlen⟩ := exists_whole document (hin i (by simp))
      -- Both sides put the text of `i` right after `a`.
      obtain ⟨b₁, hb₁, hall⟩ := applyAll_cons ha b h hlen.symm
      obtain ⟨b₂, hb₂⟩ := applyAll_keeps ha b hrest
        fun j hj => hlen ▸ hle j (List.mem_append_right _ hj)
      obtain ⟨b₃, hb₃, hone⟩ := applyAll_cons ha b₂ hcons hlen.symm
      rw [hb₁, hb₂, hb₃] at ih
      rw [hall, hb₂, hone, List.append_cancel_left (String.ofList_injective ih)]

theorem applyAll_past_end {cs : List Char} {line : Nat} (h : (splitChars cs).length ≤ line)
    (text : String) :
    applyAll (String.ofList cs) [⟨line, text⟩] = String.ofList (cs ++ text.toList) := by
  rw [applyAll_of_ascending (List.pairwise_singleton _ _)]
  change String.ofList (insertInto cs cs ⟨line, text⟩) = _
  rw [insertInto, offset_of_le h]
  simp [insertAt]

end Scaffold.Insertion
