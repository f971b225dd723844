import Mathlib.Data.List.Flatten
import Scaffold.Proofs.Bytes
import Scaffold.Proofs.Insertion
/-!
Insertions done at once. Whatever their order, a list of insertions puts before each line the texts
for that line, in the order of the list, and after the end the texts for lines that do not exist, in
the order of the lines. Only the order of insertions before one line matters. On bytes every place
of an insertion is a boundary between characters of the text that has grown so far.
-/
namespace Scaffold.Insertion

open Text

def atLine (insertions : List Insertion) (k : Nat) : List Insertion :=
  insertions.filter fun i => i.line == k

def texts (insertions : List Insertion) : String :=
  String.join (insertions.map Insertion.text)

def inOrder (insertions : List Insertion) : List Insertion :=
  insertions.mergeSort fun i j => decide (i.line ≤ j.line)

def beyond (insertions : List Insertion) (n : Nat) : List Insertion :=
  insertions.filter fun i => decide (n ≤ i.line)

def simultaneous (document : String) (insertions : List Insertion) : String :=
  let lines := splitLines document
  joinLines (lines.mapIdx fun k line => texts (atLine insertions k) ++ line)
    ++ texts (inOrder (beyond insertions lines.length))

theorem mem_atLine {insertions : List Insertion} {i : Insertion} {k : Nat} :
    i ∈ atLine insertions k ↔ i ∈ insertions ∧ i.line = k := by
  simp [atLine]

theorem atLine_cons_self (i : Insertion) (rest : List Insertion) :
    atLine (i :: rest) i.line = i :: atLine rest i.line := by
  simp [atLine]

theorem atLine_cons_of_ne {i : Insertion} {k : Nat} (h : i.line ≠ k) (rest : List Insertion) :
    atLine (i :: rest) k = atLine rest k := by
  simp [atLine, h]

theorem atLine_eq_nil {insertions : List Insertion} {k : Nat} (h : ∀ i ∈ insertions, i.line ≠ k) :
    atLine insertions k = [] := by
  simpa [atLine] using h

theorem eq_nil_of_atLine {insertions : List Insertion} (h : ∀ k, atLine insertions k = []) :
    insertions = [] := by
  refine List.eq_nil_iff_forall_not_mem.mpr fun i hi => ?_
  have hmem := mem_atLine.mpr ⟨hi, rfl⟩
  rw [h i.line] at hmem
  exact absurd hmem List.not_mem_nil

theorem Ascending.le_of_atLine {i j : Insertion} {is js : List Insertion} (hj : Ascending (j :: js))
    (h : ∀ k, atLine (i :: is) k = atLine (j :: js) k) : j.line ≤ i.line := by
  have hi : i ∈ atLine (j :: js) i.line := by
    rw [← h, atLine_cons_self]
    exact List.mem_cons_self
  rcases List.mem_cons.mp (mem_atLine.mp hi).1 with rfl | hi
  · exact Nat.le_refl _
  · exact (ascending_cons.mp hj).1 i hi

theorem Ascending.eq_of_atLine {is js : List Insertion} (hi : Ascending is) (hj : Ascending js)
    (h : ∀ k, atLine is k = atLine js k) : is = js := by
  induction is generalizing js with
  | nil => exact (eq_nil_of_atLine fun k => (h k).symm).symm
  | cons i is ih =>
      cases js with
      | nil => exact eq_nil_of_atLine h
      | cons j js =>
          -- The first of either list is on its least line, and leads the group of that line.
          have hline : i.line = j.line :=
            Nat.le_antisymm (hi.le_of_atLine fun k => (h k).symm) (hj.le_of_atLine h)
          have hgroup := h i.line
          rw [atLine_cons_self, hline, atLine_cons_self] at hgroup
          obtain ⟨rfl, hsame⟩ := List.cons.inj hgroup
          refine congrArg (i :: ·)
            (ih (ascending_cons.mp hi).2 (ascending_cons.mp hj).2 fun k => ?_)
          by_cases hk : i.line = k
          · exact hk ▸ hsame
          · rw [← atLine_cons_of_ne hk is, h k, atLine_cons_of_ne hk]

theorem atLine_mergeSort {le : Insertion → Insertion → Bool}
    (htrans : ∀ a b c, le a b = true → le b c = true → le a c = true)
    (htotal : ∀ a b, (le a b || le b a) = true)
    (hline : ∀ a b, a.line = b.line → le a b = true) (insertions : List Insertion) (k : Nat) :
    atLine (insertions.mergeSort le) k = atLine insertions k :=
  filter_mergeSort htrans htotal hline insertions k

theorem ascending_inOrder (insertions : List Insertion) : Ascending (inOrder insertions) := by
  have h : (inOrder insertions).Pairwise fun i j => decide (i.line ≤ j.line) = true :=
    List.pairwise_mergeSort (by simp; omega) (by simp; omega) insertions
  exact h.imp of_decide_eq_true

theorem inOrder_of_ascending {insertions : List Insertion} (h : Ascending insertions) :
    inOrder insertions = insertions :=
  List.mergeSort_of_pairwise (h.imp fun hij => decide_eq_true hij)

theorem atLine_inOrder (insertions : List Insertion) (k : Nat) :
    atLine (inOrder insertions) k = atLine insertions k :=
  atLine_mergeSort (by simp; omega) (by simp; omega) (by simp; omega) insertions k

theorem inOrder_eq_of_atLine {is js : List Insertion} (h : ∀ k, atLine is k = atLine js k) :
    inOrder is = inOrder js :=
  (ascending_inOrder is).eq_of_atLine (ascending_inOrder js) fun k => by
    rw [atLine_inOrder, atLine_inOrder, h]

theorem ordered_eq_reverse (insertions : List Insertion) :
    ordered insertions = (inOrder insertions).reverse := by
  have hle : (ordered insertions).Pairwise fun i j => decide (j.line ≤ i.line) = true :=
    List.pairwise_mergeSort (by simp; omega) (by simp; omega) insertions.reverse
  have hascending : Ascending (ordered insertions).reverse :=
    List.pairwise_reverse.mpr (hle.imp of_decide_eq_true)
  have hgroups (k : Nat) : atLine (ordered insertions).reverse k = atLine insertions k := by
    have hsame : atLine (ordered insertions) k = atLine insertions.reverse k :=
      atLine_mergeSort (by simp; omega) (by simp; omega) (by simp; omega) _ k
    simp only [atLine, List.filter_reverse] at hsame ⊢
    rw [hsame, List.reverse_reverse]
  have heq := hascending.eq_of_atLine (ascending_inOrder insertions) fun k => by
    rw [hgroups, atLine_inOrder]
  rw [← heq, List.reverse_reverse]

theorem applyAll_inOrder (document : String) (insertions : List Insertion) :
    applyAll document (inOrder insertions) = applyAll document insertions := by
  have hsame : ordered (inOrder insertions) = ordered insertions := by
    rw [ordered_eq_reverse, ordered_eq_reverse, inOrder_of_ascending (ascending_inOrder _)]
  unfold applyAll
  rw [hsame]

/-! The texts before each line -/

section

variable {insertions : List Insertion}

def withTexts (insertions : List Insertion) (k : Nat) (pieces : List (List Char)) :
    List (List Char) :=
  pieces.mapIdx fun n piece => (texts (atLine insertions (n + k))).toList ++ piece

theorem withTexts_eq_self {k : Nat} {pieces : List (List Char)}
    (h : ∀ i ∈ insertions, k + pieces.length ≤ i.line) :
    withTexts insertions k pieces = pieces := by
  refine List.mapIdx_eq_iff.mpr fun n => ?_
  cases hn : pieces[n]? with
  | none => rfl
  | some piece =>
      have hlt : n < pieces.length := (List.getElem?_eq_some_iff.mp hn).1
      have hnone : atLine insertions (n + k) = [] := by
        refine atLine_eq_nil fun i hi => ?_
        have := h i hi
        omega
      simp [hnone, texts]

theorem withTexts_append (k : Nat) (ps qs : List (List Char)) :
    withTexts insertions k (ps ++ qs) =
      withTexts insertions k ps ++ withTexts insertions (ps.length + k) qs := by
  simp [withTexts, List.mapIdx_append, Nat.add_assoc]

theorem withTexts_cons_self (i : Insertion) (insertions : List Insertion) (piece : List Char)
    (ps : List (List Char)) :
    ∃ first more, withTexts insertions i.line (piece :: ps) = first :: more ∧
      withTexts (i :: insertions) i.line (piece :: ps) = (i.text.toList ++ first) :: more := by
  have hrest (n : Nat) : atLine (i :: insertions) (n + 1 + i.line) =
      atLine insertions (n + 1 + i.line) :=
    atLine_cons_of_ne (by omega) insertions
  refine ⟨_, _, List.mapIdx_cons, ?_⟩
  rw [withTexts, List.mapIdx_cons]
  simp only [hrest, Nat.zero_add, atLine_cons_self, texts, List.map_cons, String.join_cons,
    String.toList_append, List.append_assoc]

end

theorem intercalate_feed_append {ps qs : List (List Char)} (hp : ps ≠ []) (hq : qs ≠ []) :
    ['\n'].intercalate (ps ++ qs) = ['\n'].intercalate ps ++ '\n' :: ['\n'].intercalate qs := by
  induction ps with
  | nil => exact absurd rfl hp
  | cons p ps ih =>
      by_cases hps : ps = []
      · simp [hps, List.intercalate_cons_of_ne_nil hq]
      · rw [List.cons_append, List.intercalate_cons_of_ne_nil (by simp [hps]),
          List.intercalate_cons_of_ne_nil hps, ih hps]
        simp

theorem intercalate_splitChars (cs : List Char) : ['\n'].intercalate (splitChars cs) = cs := by
  rw [splitChars, List.intercalate_splitOn]

theorem intercalate_wholeLines {a : List Char} (ha : IsWhole a) {ps : List (List Char)}
    (hp : ps ≠ []) : ['\n'].intercalate (wholeLines a ++ ps) = a ++ ['\n'].intercalate ps := by
  by_cases hne : a = []
  · simp [hne]
  · obtain ⟨body, rfl⟩ := ha.eq_snoc hne
    rw [wholeLines_snoc, intercalate_feed_append (splitChars_ne_nil body) hp,
      intercalate_splitChars]
    simp

theorem toList_simultaneous (cs : List Char) (insertions : List Insertion) :
    (simultaneous (String.ofList cs) insertions).toList =
      ['\n'].intercalate (withTexts insertions 0 (splitChars cs)) ++
        (texts (inOrder (beyond insertions (splitChars cs).length))).toList := by
  have hpieces : ((splitLines (String.ofList cs)).mapIdx fun k line =>
      texts (atLine insertions k) ++ line).map String.toList =
        withTexts insertions 0 (splitChars cs) := by
    refine List.ext_getElem? fun n => ?_
    cases hn : (splitChars cs)[n]? <;> simp [withTexts, splitLines, hn]
  rw [simultaneous]
  simp only [joinLines, String.toList_append, String.toList_intercalate, hpieces]
  simp [splitLines]

theorem applyAll_of_beyond {cs : List Char} {insertions : List Insertion}
    (h : Ascending insertions) (hb : ∀ i ∈ insertions, (splitChars cs).length ≤ i.line) :
    applyAll (String.ofList cs) insertions = String.ofList (cs ++ (texts insertions).toList) := by
  rw [applyAll_of_ascending h]
  congr 1
  clear h
  induction insertions with
  | nil => simp [texts]
  | cons i rest ih =>
      rw [List.reverse_cons, List.foldl_append, ih fun j hj => hb j (by simp [hj]), List.foldl_cons,
        List.foldl_nil, insertInto, offset_of_le (hb i (by simp)), insertAt_length]
      simp [texts]

theorem toList_simultaneous_append {a : List Char} (ha : IsWhole a) (b : List Char)
    {insertions : List Insertion} (h : ∀ i ∈ insertions, (wholeLines a).length ≤ i.line) :
    (simultaneous (String.ofList (a ++ b)) insertions).toList =
      a ++ (['\n'].intercalate (withTexts insertions (wholeLines a).length (splitChars b)) ++
        (texts (inOrder (beyond insertions (splitChars (a ++ b)).length))).toList) := by
  have hne : withTexts insertions (wholeLines a).length (splitChars b) ≠ [] := by
    simpa [withTexts] using splitChars_ne_nil b
  have hfront : withTexts insertions 0 (wholeLines a) = wholeLines a :=
    withTexts_eq_self (by simpa using h)
  rw [toList_simultaneous, ← List.append_assoc, ← intercalate_wholeLines ha hne]
  congr 2
  rw [splitChars_append ha, withTexts_append, hfront, Nat.add_zero]

theorem intercalate_cons_append (a first : List Char) (rest : List (List Char)) :
    ['\n'].intercalate ((a ++ first) :: rest) = a ++ ['\n'].intercalate (first :: rest) := by
  cases rest with
  | nil => simp
  | cons p ps => simp [List.intercalate_cons_cons]

theorem simultaneous_cons {a : List Char} (ha : IsWhole a) (b : List Char) {i : Insertion}
    {rest : List Insertion} (h : Ascending (i :: rest)) (hi : i.line = (wholeLines a).length) :
    ∃ b', simultaneous (String.ofList (a ++ b)) rest = String.ofList (a ++ b') ∧
      simultaneous (String.ofList (a ++ b)) (i :: rest) =
        String.ofList (a ++ (i.text.toList ++ b')) := by
  have hle : ∀ j ∈ i :: rest, (wholeLines a).length ≤ j.line := by
    intro j hj
    rcases List.mem_cons.mp hj with rfl | hj
    · exact Nat.le_of_eq hi.symm
    · exact hi ▸ (ascending_cons.mp h).1 j hj
  obtain ⟨piece, ps, hb⟩ := List.exists_cons_of_ne_nil (splitChars_ne_nil b)
  have hwithin : beyond (i :: rest) (splitChars (a ++ b)).length =
      beyond rest (splitChars (a ++ b)).length := by
    simp [beyond, splitChars_append ha, hb, hi]
  obtain ⟨first, more, hrest, hcons⟩ := withTexts_cons_self i rest piece ps
  refine ⟨['\n'].intercalate (first :: more) ++
    (texts (inOrder (beyond rest (splitChars (a ++ b)).length))).toList,
    String.toList_injective ?_, String.toList_injective ?_⟩
  · rw [toList_simultaneous_append ha b fun j hj => hle j (List.mem_cons_of_mem i hj),
      String.toList_ofList, hb, ← hi, hrest]
  · rw [toList_simultaneous_append ha b hle, String.toList_ofList, hb, ← hi, hcons,
      intercalate_cons_append, hwithin, List.append_assoc]

theorem simultaneous_of_beyond {cs : List Char} {insertions : List Insertion}
    (h : Ascending insertions) (hb : ∀ i ∈ insertions, (splitChars cs).length ≤ i.line) :
    simultaneous (String.ofList cs) insertions =
      String.ofList (cs ++ (texts insertions).toList) := by
  have hall : beyond insertions (splitChars cs).length = insertions := by
    simpa [beyond] using hb
  apply String.toList_injective
  rw [toList_simultaneous, withTexts_eq_self (by simpa using hb), intercalate_splitChars, hall,
    inOrder_of_ascending h, String.toList_ofList]

theorem applyAll_eq_of_ascending {insertions : List Insertion} (h : Ascending insertions)
    (document : String) : applyAll document insertions = simultaneous document insertions := by
  -- Both sides put the text of the first insertion right before what the others leave there.
  induction insertions with
  | nil =>
      have hnil : simultaneous (String.ofList document.toList) [] = _ :=
        simultaneous_of_beyond h (by simp)
      rw [applyAll_nil]
      simpa [texts] using hnil.symm
  | cons i rest ih =>
      obtain ⟨hle, hrest⟩ := ascending_cons.mp h
      by_cases hi : i.line < (splitChars document.toList).length
      · obtain ⟨a, b, rfl, ha, hlen⟩ := exists_whole document hi
        obtain ⟨b₁, hb₁, happly⟩ := applyAll_cons ha b h hlen.symm
        obtain ⟨b₂, hb₂, hsame⟩ := simultaneous_cons ha b h hlen.symm
        have hb : b₁ = b₂ := by
          rw [ih hrest, hb₂] at hb₁
          exact (List.append_cancel_left (String.ofList_injective hb₁)).symm
        rw [happly, hsame, hb]
      · have hbeyond : ∀ j ∈ i :: rest, (splitChars document.toList).length ≤ j.line := by
          intro j hj
          rcases List.mem_cons.mp hj with rfl | hj
          · omega
          · have := hle j hj
            omega
        rw [← String.ofList_toList (s := document), applyAll_of_beyond h hbeyond,
          simultaneous_of_beyond h hbeyond]

theorem simultaneous_congr {is js : List Insertion} (h : ∀ k, atLine is k = atLine js k)
    (document : String) : simultaneous document is = simultaneous document js := by
  have hbeyond (n k : Nat) : atLine (beyond is n) k = atLine (beyond js n) k := by
    have hcomm (is : List Insertion) : atLine (beyond is n) k = beyond (atLine is k) n := by
      simp only [atLine, beyond, List.filter_filter, Bool.and_comm]
    rw [hcomm, hcomm, h]
  unfold simultaneous
  simp only [h, inOrder_eq_of_atLine (hbeyond _)]

theorem applyAll_eq (document : String) (insertions : List Insertion) :
    applyAll document insertions = simultaneous document insertions := by
  rw [← applyAll_inOrder, applyAll_eq_of_ascending (ascending_inOrder insertions)]
  exact simultaneous_congr (atLine_inOrder insertions) document

/-! The same on bytes -/

theorem offset_le_length (cs : List Char) (line : Nat) : offset cs line ≤ cs.length := by
  by_cases h : line < (splitChars cs).length
  · obtain ⟨a, b, rfl, ha, rfl⟩ := exists_whole_of_lt h
    rw [offset_append ha, List.length_append]
    omega
  · exact Nat.le_of_eq (offset_of_le (Nat.le_of_not_lt h))

theorem offset_mono (cs : List Char) {k n : Nat} (hkn : k ≤ n) : offset cs k ≤ offset cs n := by
  by_cases h : k < (splitChars cs).length
  · obtain ⟨a, b, rfl, ha, rfl⟩ := exists_whole_of_lt h
    rw [offset_append ha]
    exact le_offset ha b hkn
  · have hend : offset cs n = cs.length := offset_of_le (by omega)
    rw [hend]
    exact offset_le_length cs k

def byteStarts (bs : List UInt8) : List Nat :=
  0 :: feedEnds 0 bs

def applyBytes? (document : String) (insertions : List Insertion) : Option (List UInt8) :=
  let bs := encodeUtf8 document
  let starts := byteStarts bs
  (ordered insertions).foldlM
    (fun result i => insertBytes? result (starts[i.line]?.getD bs.length) (encodeUtf8 i.text)) bs

theorem feedEnds_encodeChars (pos start : Nat) (cs : List Char) :
    feedEnds start (encodeChars cs) =
      (nextStarts pos cs).map fun p => start + (encodeChars (cs.take (p - pos))).length := by
  induction cs generalizing pos start with
  | nil => rfl
  | cons c cs ih =>
      have hrest : (nextStarts (pos + 1) cs).map
          (fun p => start + (encodeChars ((c :: cs).take (p - pos))).length) =
            feedEnds (start + (String.utf8EncodeChar c).length) (encodeChars cs) := by
        rw [ih (pos + 1)]
        refine List.map_congr_left fun p hp => ?_
        have hle := le_of_mem_nextStarts hp
        have hstep : p - pos = (p - (pos + 1)) + 1 := by omega
        rw [hstep, List.take_succ_cons, encodeChars_cons, List.length_append, Nat.add_assoc]
      rw [nextStarts, encodeChars_cons]
      by_cases hc : c = '\n'
      · subst hc
        have hfeed : String.utf8EncodeChar '\n' = [0x0A] := by decide
        rw [if_pos rfl, List.map_cons, hrest, hfeed, List.singleton_append, feedEnds, if_pos rfl]
        simp [encodeChars, hfeed]
      · rw [if_neg hc, hrest, feedEnds_append fun hm => hc (feed_mem_utf8EncodeChar hm)]

theorem byteStarts_encodeChars (cs : List Char) :
    byteStarts (encodeChars cs) =
      (lineStarts cs).map fun p => (encodeChars (cs.take p)).length := by
  rw [byteStarts, feedEnds_encodeChars 0, lineStarts]
  simp [encodeChars]

theorem byteStarts_getD (cs : List Char) (line : Nat) :
    (byteStarts (encodeChars cs))[line]?.getD (encodeChars cs).length =
      (encodeChars (cs.take (offset cs line))).length := by
  rw [byteStarts_encodeChars, offset, List.getElem?_map]
  cases (lineStarts cs)[line]? <;> simp

theorem take_insertAt {result : List Char} {p pos : Nat} (hp : p ≤ pos) (hpos : pos ≤ result.length)
    (new : List Char) : (insertAt result pos new).take p = result.take p := by
  have hlen : (result.take pos).length = pos := List.length_take_of_le hpos
  rw [insertAt, List.append_assoc, List.take_append_of_le_length (by omega), List.take_take,
    Nat.min_eq_left hp]

theorem foldlM_insertBytes? (cs : List Char) {insertions : List Insertion}
    (hdown : insertions.Pairwise fun i j => j.line ≤ i.line) {result : List Char}
    (hkept : ∀ i ∈ insertions, result.take (offset cs i.line) = cs.take (offset cs i.line)) :
    insertions.foldlM (fun bs i => insertBytes? bs
        ((byteStarts (encodeChars cs))[i.line]?.getD (encodeChars cs).length) (encodeUtf8 i.text))
          (encodeChars result) =
      some (encodeChars (insertions.foldl (insertInto cs) result)) := by
  -- Places only go down, so what stands before the next one is still as in the original.
  induction insertions generalizing result with
  | nil => rfl
  | cons i rest ih =>
      obtain ⟨hle, hdown⟩ := List.pairwise_cons.mp hdown
      have hfirst := hkept i (by simp)
      have hpos : offset cs i.line ≤ result.length := by
        have hlen := congrArg List.length hfirst
        have := offset_le_length cs i.line
        simp only [List.length_take] at hlen
        omega
      have hstep : insertBytes? (encodeChars result)
          ((byteStarts (encodeChars cs))[i.line]?.getD (encodeChars cs).length)
            (encodeUtf8 i.text) = some (encodeChars (insertInto cs result i)) := by
        have hsplit := insertBytes?_length (result.take (offset cs i.line))
          (result.drop (offset cs i.line)) i.text.toList
        rw [List.take_append_drop] at hsplit
        rw [byteStarts_getD, ← hfirst, ← String.ofList_toList (s := i.text), encodeUtf8_ofList]
        simpa [insertInto, insertAt] using hsplit
      rw [List.foldlM_cons, hstep]
      refine ih hdown fun j hj => ?_
      rw [insertInto, take_insertAt (offset_mono cs (hle j hj)) hpos]
      exact hkept j (by simp [hj])

theorem applyBytes?_eq (document : String) (insertions : List Insertion) :
    applyBytes? document insertions = some (encodeUtf8 (applyAll document insertions)) := by
  have hdown : (ordered insertions).Pairwise fun i j => j.line ≤ i.line := by
    rw [ordered_eq_reverse, List.pairwise_reverse]
    exact ascending_inOrder insertions
  have h := foldlM_insertBytes? document.toList hdown fun i _ => rfl
  have happly : applyAll document insertions =
      String.ofList ((ordered insertions).foldl (insertInto document.toList) document.toList) := rfl
  rw [happly, encodeUtf8_ofList, ← h, ← encodeUtf8_ofList, String.ofList_toList]
  rfl

theorem sublist_insertAt (result : List Char) (pos : Nat) (new : List Char) :
    result.Sublist (insertAt result pos new) := by
  have h : (result.take pos ++ result.drop pos).Sublist (insertAt result pos new) :=
    List.Sublist.append (List.sublist_append_left _ new) (List.Sublist.refl _)
  rwa [List.take_append_drop] at h

theorem sublist_foldl_insertInto (cs result : List Char) (insertions : List Insertion) :
    result.Sublist (insertions.foldl (insertInto cs) result) := by
  induction insertions generalizing result with
  | nil => exact List.Sublist.refl result
  | cons i rest ih => exact (sublist_insertAt result _ _).trans (ih (insertInto cs result i))

theorem applyAll_at_once (document : String) (insertions : List Insertion) :
    applyAll document insertions = simultaneous document insertions ∧
      applyBytes? document insertions = some (encodeUtf8 (applyAll document insertions)) ∧
      (encodeUtf8 document).Sublist (encodeUtf8 (applyAll document insertions)) ∧
      ∀ others, (∀ k, atLine others k = atLine insertions k) →
        applyAll document others = applyAll document insertions := by
  refine ⟨applyAll_eq document insertions, applyBytes?_eq document insertions, ?_, ?_⟩
  · have hchars := sublist_foldl_insertInto document.toList document.toList (ordered insertions)
    have hbytes := hchars.flatMap String.utf8EncodeChar
    change (encodeChars _).Sublist (encodeChars _) at hbytes
    rw [← encodeUtf8_ofList, ← encodeUtf8_ofList, String.ofList_toList] at hbytes
    exact hbytes
  · intro others h
    rw [applyAll_eq, applyAll_eq, simultaneous_congr h]

def sampleInsertions : List Insertion :=
  [⟨7, "z"⟩, ⟨1, "x\n"⟩, ⟨5, "w"⟩, ⟨1, "y\n"⟩, ⟨0, "v\n"⟩]

def sampleReordered : List Insertion :=
  [⟨0, "v\n"⟩, ⟨1, "x\n"⟩, ⟨1, "y\n"⟩, ⟨5, "w"⟩, ⟨7, "z"⟩]

theorem applyAll_at_once_sample :
    (∀ k, atLine sampleReordered k = atLine sampleInsertions k) ∧
      applyAll "é\nb" sampleInsertions = "v\né\nx\ny\nbwz" := by
  have hgroups (k : Nat) : atLine sampleReordered k = atLine sampleInsertions k := by
    have hbelow : ∀ k < 8, atLine sampleReordered k = atLine sampleInsertions k := by decide
    have hlines : ∀ i ∈ sampleReordered ++ sampleInsertions, i.line < 8 := by decide
    by_cases hk : k < 8
    · exact hbelow k hk
    · have hne : ∀ i ∈ sampleReordered ++ sampleInsertions, i.line ≠ k := fun i hi heq =>
        hk (heq ▸ hlines i hi)
      rw [atLine_eq_nil fun i hi => hne i (List.mem_append_left _ hi),
        atLine_eq_nil fun i hi => hne i (List.mem_append_right _ hi)]
  have hascending : Ascending sampleReordered := by
    unfold Ascending
    decide
  obtain ⟨-, -, -, hsame⟩ := applyAll_at_once "é\nb" sampleInsertions
  refine ⟨hgroups, ?_⟩
  rw [← hsame sampleReordered hgroups]
  exact (applyAll_of_ascending hascending "é\nb".toList).trans (by decide)

end Scaffold.Insertion
