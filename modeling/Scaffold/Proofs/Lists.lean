/-!
Lists that are sorted by a key, and lists that are cut: at a separator, or where a property ends.
Sorting is stable: the members with one key keep their order. No piece holds the separator.
-/
namespace Scaffold

theorem filter_mergeSort {α κ : Type} [DecidableEq κ] {le : α → α → Bool} {key : α → κ}
    (htrans : ∀ a b c, le a b = true → le b c = true → le a c = true)
    (htotal : ∀ a b, (le a b || le b a) = true)
    (hkey : ∀ a b, key a = key b → le a b = true) (as : List α) (k : κ) :
    (as.mergeSort le).filter (key · = k) = as.filter (key · = k) := by
  have hgroup : (as.filter (key · = k)).Pairwise fun a b => le a b = true := by
    refine List.pairwise_iff_forall_sublist.mpr fun {a b} hab => hkey a b ?_
    have ha := List.mem_filter.mp (hab.subset (by simp : a ∈ [a, b]))
    have hb := List.mem_filter.mp (hab.subset (by simp : b ∈ [a, b]))
    rw [of_decide_eq_true ha.2, of_decide_eq_true hb.2]
  -- The members with the key stand in the sorted list in their old order, and there are no others.
  have hsub : (as.filter (key · = k)).Sublist (as.mergeSort le) :=
    List.sublist_mergeSort htrans htotal hgroup List.filter_sublist
  have hfilter : (as.filter (key · = k)).Sublist ((as.mergeSort le).filter (key · = k)) := by
    simpa using hsub.filter fun a => key a = k
  exact (hfilter.eq_of_length ((List.mergeSort_perm as le).filter _).length_eq.symm).symm

theorem not_mem_of_mem_splitOn {α : Type} [BEq α] [LawfulBEq α] {x : α} {as piece : List α}
    (h : piece ∈ as.splitOn x) : x ∉ piece := by
  induction as generalizing piece with
  | nil =>
      rw [List.splitOn_nil, List.mem_singleton] at h
      simp [h]
  | cons a as ih =>
      obtain ⟨p, ps, hp⟩ := List.exists_cons_of_ne_nil (List.splitOn_ne_nil x as)
      rw [List.splitOn_cons_eq_if_modifyHead, hp] at h
      rw [hp] at ih
      split at h
      · rcases List.mem_cons.mp h with rfl | h
        · simp
        · exact ih h
      · next hne =>
          have hxa : x ≠ a := fun heq => hne (by simp [heq])
          rcases List.mem_cons.mp h with rfl | h
          · simp [hxa, ih List.mem_cons_self]
          · exact ih (List.mem_cons_of_mem p h)

theorem takeWhile_append_of_stop {α : Type} {p : α → Bool} {as bs : List α}
    (has : ∀ a ∈ as, p a = true) (hbs : ∀ b ∈ bs.head?, p b = false) :
    (as ++ bs).takeWhile p = as ∧ (as ++ bs).dropWhile p = bs := by
  have hstop : bs.takeWhile p = [] ∧ bs.dropWhile p = bs := by
    cases bs with
    | nil => exact ⟨rfl, rfl⟩
    | cons b bs => simp [hbs b rfl]
  rw [List.takeWhile_append_of_pos has, List.dropWhile_append_of_pos has, hstop.1, hstop.2]
  exact ⟨List.append_nil as, rfl⟩

end Scaffold
