/-!
Lists that grow at their end by what they do not hold yet. Each member then stands where it came
first.
-/
namespace Scaffold

def appendNew (seen : List String) (a : String) : List String :=
  if seen.contains a then seen else seen ++ [a]

theorem foldl_appendNew (seen as : List String) :
    as.foldl appendNew seen = seen ++ (as.removeAll seen).eraseDups := by
  induction as generalizing seen with
  | nil => simp
  | cons a as ih =>
      rw [List.foldl_cons, ih, List.cons_removeAll, appendNew]
      by_cases ha : a ∈ seen
      · simp [ha]
      · have hrest : as.removeAll (seen ++ [a]) = (as.removeAll seen).filter fun b => !b == a := by
          simp only [List.removeAll, List.filter_filter]
          refine List.filter_congr fun b _ => ?_
          by_cases hb : b = a <;> simp [hb]
        simp [ha, hrest, List.eraseDups_cons]

theorem nodup_foldl_appendNew {seen : List String} (h : seen.Nodup) (as : List String) :
    (as.foldl appendNew seen).Nodup := by
  induction as generalizing seen with
  | nil => exact h
  | cons a as ih =>
      refine ih ?_
      unfold appendNew
      split
      · exact h
      · next ha =>
          have hfresh : a ∉ seen := by simpa using ha
          exact List.nodup_append.mpr ⟨h, by simp, by grind⟩

end Scaffold
