import Scaffold.Proofs.Lists
import Scaffold.Text.Lines
/-!
Texts as lists of lines. A text is whole if it is empty or ends in a line feed; putting a whole text
before another one puts its lines before those of the other, in both views of lines.
-/
namespace Scaffold.Text

theorem splitChars_append_feed (a b : List Char) :
    splitChars (a ++ '\n' :: b) = splitChars a ++ splitChars b := by
  simp only [splitChars, List.splitOn_append_cons_self]

theorem splitChars_of_not_mem {cs : List Char} (h : '\n' ∉ cs) : splitChars cs = [cs] := by
  rw [splitChars, List.splitOn_eq_singleton h]

def IsWhole (cs : List Char) : Prop :=
  cs = [] ∨ cs.getLast? = some '\n'

def wholeLines (cs : List Char) : List (List Char) :=
  (splitChars cs).dropLast

theorem isWhole_nil : IsWhole [] :=
  .inl rfl

theorem isWhole_snoc (cs : List Char) : IsWhole (cs ++ ['\n']) :=
  .inr (by simp)

theorem IsWhole.eq_snoc {cs : List Char} (h : IsWhole cs) (hne : cs ≠ []) :
    ∃ body, cs = body ++ ['\n'] := by
  rcases h with h | h
  · exact absurd h hne
  · obtain ⟨body, hb⟩ := List.getLast?_eq_some_iff.mp h
    exact ⟨body, hb⟩

theorem IsWhole.append {a b : List Char} (ha : IsWhole a) (hb : IsWhole b) : IsWhole (a ++ b) := by
  by_cases hne : b = []
  · rw [hne, List.append_nil]
    exact ha
  · obtain ⟨body, rfl⟩ := hb.eq_snoc hne
    rw [← List.append_assoc]
    exact isWhole_snoc _

@[simp] theorem wholeLines_nil : wholeLines [] = [] := rfl

theorem wholeLines_snoc (cs : List Char) : wholeLines (cs ++ ['\n']) = splitChars cs := by
  rw [wholeLines, splitChars_append_feed]
  simp [splitChars]

theorem splitChars_append {a : List Char} (ha : IsWhole a) (b : List Char) :
    splitChars (a ++ b) = wholeLines a ++ splitChars b := by
  by_cases hne : a = []
  · simp [hne]
  · obtain ⟨body, rfl⟩ := ha.eq_snoc hne
    rw [List.append_assoc, wholeLines_snoc]
    exact splitChars_append_feed body b

theorem wholeLines_append {a : List Char} (ha : IsWhole a) (b : List Char) :
    wholeLines (a ++ b) = wholeLines a ++ wholeLines b := by
  unfold wholeLines
  rw [splitChars_append ha, List.dropLast_append_of_ne_nil (splitChars_ne_nil b)]
  rfl

theorem splitChars_of_isWhole {a : List Char} (ha : IsWhole a) :
    splitChars a = wholeLines a ++ [[]] := by
  simpa [splitChars] using splitChars_append ha []

theorem exists_whole_of_lt {cs : List Char} {k : Nat} (hk : k < (splitChars cs).length) :
    ∃ a b, cs = a ++ b ∧ IsWhole a ∧ (wholeLines a).length = k := by
  induction k generalizing cs with
  | zero => exact ⟨[], cs, rfl, isWhole_nil, rfl⟩
  | succ k ih =>
      -- The first of the whole lines ends at the first line feed.
      by_cases hm : '\n' ∈ cs
      · obtain ⟨l, rest, rfl, hl⟩ := List.eq_append_cons_of_mem hm
        rw [splitChars_append_feed, splitChars_of_not_mem hl] at hk
        obtain ⟨a, b, rfl, ha, hlen⟩ := ih (Nat.lt_of_succ_lt_succ hk)
        refine ⟨l ++ ['\n'] ++ a, b, by simp, (isWhole_snoc l).append ha, ?_⟩
        rw [wholeLines_append (isWhole_snoc l), wholeLines_snoc, splitChars_of_not_mem hl]
        simp [hlen]
      · rw [splitChars_of_not_mem hm] at hk
        simp at hk

theorem lineChars_append (ps : List (List Char)) {qs : List (List Char)} (h : qs ≠ []) :
    lineChars (ps ++ qs) = ps.map dropReturn ++ lineChars qs := by
  induction ps with
  | nil => rfl
  | cons p ps ih =>
      obtain ⟨q, rest, hq⟩ := List.exists_cons_of_ne_nil
        (List.append_ne_nil_of_right_ne_nil ps h)
      rw [List.cons_append, hq, lineChars, ← hq, ih]
      rfl

theorem lines_append {a : List Char} (ha : IsWhole a) (b : List Char) :
    lines (String.ofList (a ++ b)) =
      (wholeLines a).map (fun l => String.ofList (dropReturn l)) ++ lines (String.ofList b) := by
  simp only [lines, String.toList_ofList]
  rw [splitChars_append ha, lineChars_append _ (splitChars_ne_nil b), List.map_append,
    List.map_map]
  rfl

theorem length_lineChars_le (ps : List (List Char)) : (lineChars ps).length ≤ ps.length := by
  fun_induction lineChars ps with
  | case1 => simp
  | case2 => simp
  | case3 => simp
  | case4 l l' ls ih => simpa using ih

theorem length_lines_le (s : String) : (lines s).length ≤ (splitChars s.toList).length := by
  simpa [lines] using length_lineChars_le (splitChars s.toList)

theorem exists_whole (s : String) {k : Nat} (hk : k < (splitChars s.toList).length) :
    ∃ a b, s = String.ofList (a ++ b) ∧ IsWhole a ∧ (wholeLines a).length = k := by
  obtain ⟨a, b, hab, ha, hlen⟩ := exists_whole_of_lt hk
  exact ⟨a, b, by rw [← hab, String.ofList_toList], ha, hlen⟩

theorem lt_length_lines {s : String} {k : Nat} {c : Char} {l : List Char}
    (h : (splitChars s.toList)[k]? = some (c :: l)) : k < (lines s).length := by
  obtain ⟨hk, -⟩ := List.getElem?_eq_some_iff.mp h
  obtain ⟨a, b, rfl, ha, rfl⟩ := exists_whole s hk
  rw [String.toList_ofList, splitChars_append ha, List.getElem?_append_right (Nat.le_refl _)] at h
  obtain ⟨p, ps, hb⟩ := List.exists_cons_of_ne_nil (splitChars_ne_nil b)
  obtain rfl : p = c :: l := by simpa [hb] using h
  have hpos : 0 < (lines (String.ofList b)).length := by
    simp only [lines, String.toList_ofList, hb, List.length_map]
    cases ps with
    | nil => simp [lineChars]
    | cons q qs => simp [lineChars]
  rw [lines_append ha, List.length_append, List.length_map]
  omega

/-! Texts without a given character -/

def Lacks (d : Char) (s : String) : Prop :=
  d ∉ s.toList

instance (d : Char) (s : String) : Decidable (Lacks d s) :=
  inferInstanceAs (Decidable (d ∉ s.toList))

section

variable {d : Char}

theorem Lacks.append {a b : String} (ha : Lacks d a) (hb : Lacks d b) : Lacks d (a ++ b) := by
  simpa [Lacks] using ⟨ha, hb⟩

theorem Lacks.join {texts : List String} (h : ∀ t ∈ texts, Lacks d t) :
    Lacks d (String.join texts) := by
  induction texts with
  | nil => simp [Lacks]
  | cons t ts ih =>
      rw [String.join_cons]
      exact (h t (by simp)).append (ih fun u hu => h u (by simp [hu]))

theorem Lacks.intercalate {sep : String} (hsep : Lacks d sep) {texts : List String}
    (h : ∀ t ∈ texts, Lacks d t) : Lacks d (String.intercalate sep texts) := by
  induction texts with
  | nil => simp [Lacks]
  | cons t ts ih =>
      have ht := h t (by simp)
      have ih := ih fun u hu => h u (by simp [hu])
      cases ts with
      | nil => simpa using ht
      | cons u us =>
          rw [String.intercalate_cons_cons]
          exact (ht.append hsep).append ih

end

theorem feed_not_mem_splitChars {cs l : List Char} (h : l ∈ splitChars cs) : '\n' ∉ l := by
  rw [splitChars] at h
  exact not_mem_of_mem_splitOn h

theorem subset_of_mem_lineChars {ps : List (List Char)} {l : List Char} (h : l ∈ lineChars ps) :
    ∃ p ∈ ps, ∀ c ∈ l, c ∈ p := by
  fun_induction lineChars ps with
  | case1 => exact absurd h List.not_mem_nil
  | case2 => exact absurd h List.not_mem_nil
  | case3 p => exact ⟨p, by simp, fun c hc => List.mem_singleton.mp h ▸ hc⟩
  | case4 p q qs ih =>
      rcases List.mem_cons.mp h with rfl | h
      · refine ⟨p, by simp, fun c hc => ?_⟩
        unfold dropReturn at hc
        split at hc
        · exact (List.dropLast_sublist p).mem hc
        · exact hc
      · obtain ⟨p', hp', hsub⟩ := ih h
        exact ⟨p', by simp [List.mem_cons.mp hp'], hsub⟩

theorem mem_of_mem_splitOn {x c : Char} {cs l : List Char} (h : l ∈ cs.splitOn x) (hc : c ∈ l) :
    c ∈ cs := by
  induction cs generalizing l with
  | nil =>
      rw [List.splitOn_nil, List.mem_singleton] at h
      exact h ▸ hc
  | cons a cs ih =>
      obtain ⟨p, ps, hp⟩ := List.exists_cons_of_ne_nil (List.splitOn_ne_nil x cs)
      rw [List.splitOn_cons_eq_if_modifyHead, hp] at h
      rw [hp] at ih
      split at h
      · rcases List.mem_cons.mp h with rfl | h
        · exact nomatch hc
        · exact List.mem_cons_of_mem a (ih h hc)
      · rcases List.mem_cons.mp h with rfl | h
        · rcases List.mem_cons.mp hc with rfl | hc
          · exact List.mem_cons_self
          · exact List.mem_cons_of_mem a (ih List.mem_cons_self hc)
        · exact List.mem_cons_of_mem a (ih (List.mem_cons_of_mem p h) hc)

theorem mem_of_mem_lines {document line : String} (h : line ∈ lines document) {c : Char}
    (hc : c ∈ line.toList) : c ∈ document.toList := by
  obtain ⟨l, hl, rfl⟩ := List.mem_map.mp h
  obtain ⟨p, hp, hsub⟩ := subset_of_mem_lineChars hl
  rw [String.toList_ofList] at hc
  rw [splitChars] at hp
  exact mem_of_mem_splitOn hp (hsub c hc)

/-! The one line that holds a character -/

theorem dropReturn_append {h : List Char} (hlast : ∀ c ∈ h.getLast?, c ≠ '\r') (l : List Char) :
    dropReturn (h ++ l) = h ++ dropReturn l := by
  by_cases hl : l = []
  · rw [hl, List.append_nil]
    have hh : h.getLast? ≠ some '\r' := fun hr => hlast _ hr rfl
    simp [dropReturn, hh]
  · have hgetLast : (h ++ l).getLast? = l.getLast? := by
      rw [List.getLast?_append, List.getLast?_eq_some_getLast hl]
      rfl
    unfold dropReturn
    rw [hgetLast, List.dropLast_append_of_ne_nil hl]
    split <;> rfl

theorem lines_of_first {h : List Char} (hh : '\n' ∉ h) (hne : h ≠ [])
    (hlast : ∀ c ∈ h.getLast?, c ≠ '\r') (b : List Char) :
    ∃ more rest, lines (String.ofList (h ++ b)) = String.ofList (h ++ more) :: rest ∧
      ∀ text ∈ rest, ∀ c ∈ text.toList, c ∈ b := by
  by_cases hm : '\n' ∈ b
  · obtain ⟨l, b', rfl, hl⟩ := List.eq_append_cons_of_mem hm
    refine ⟨dropReturn l, lines (String.ofList b'), ?_, fun text ht c hc => ?_⟩
    · have hfirst : '\n' ∉ h ++ l := by simp [hh, hl]
      have hsplit : h ++ (l ++ '\n' :: b') = (h ++ l ++ ['\n']) ++ b' := by simp
      rw [hsplit, lines_append (isWhole_snoc _), wholeLines_snoc, splitChars_of_not_mem hfirst]
      simp [dropReturn_append hlast]
    · have hmem := mem_of_mem_lines ht hc
      rw [String.toList_ofList] at hmem
      simp [hmem]
  · have hfirst : '\n' ∉ h ++ b := by simp [hh, hm]
    refine ⟨b, [], ?_, nofun⟩
    simp [lines, splitChars_of_not_mem hfirst, lineChars, hne]

theorem exists_line_of_mem {a h b : List Char} {d : Char} (ha : IsWhole a) (hh : '\n' ∉ h)
    (hlast : h.getLast? = some d) (hd : d ≠ '\r') (hda : d ∉ a) (hdb : d ∉ b) :
    ∃ (n : Nat) (more : List Char),
      (lines (String.ofList (a ++ (h ++ b))))[n]? = some (String.ofList (h ++ more)) ∧
      ∀ text ∈ lines (String.ofList (a ++ (h ++ b))), d ∈ text.toList →
        text = String.ofList (h ++ more) := by
  have hne : h ≠ [] := by
    rintro rfl
    exact nomatch hlast
  obtain ⟨more, rest, hlines, hrest⟩ := lines_of_first hh hne (by simpa [hlast] using hd) b
  have hwhole := lines_append ha []
  rw [List.append_nil] at hwhole
  rw [lines_append ha, hlines]
  refine ⟨(wholeLines a).length, more, by simp, fun text ht hmem => ?_⟩
  rcases List.mem_append.1 ht with ht | ht
  · have hline : text ∈ lines (String.ofList a) := by
      rw [hwhole]
      exact List.mem_append_left _ ht
    have hd' := mem_of_mem_lines hline hmem
    rw [String.toList_ofList] at hd'
    exact absurd hd' hda
  · rcases List.mem_cons.1 ht with rfl | ht
    · rfl
    · exact absurd (hrest text ht d hmem) hdb

end Scaffold.Text
