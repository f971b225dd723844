import Scaffold.Placement
import Scaffold.Proofs.Lines
/-!
The end of a class is known by the text before it: whole lines, none of which but the first may
start with a closing brace. Lines that do not start with one move the end down and nothing else.
-/
namespace Scaffold

open Text

def closes (l : List Char) : Bool :=
  l.head? == some '}'

theorem classEnd?_ofList (cs : List Char) :
    classEnd? (String.ofList cs) = ((splitChars cs).tail.findIdx? closes).map (· + 1) := by
  obtain ⟨p, ps, hp⟩ := List.exists_cons_of_ne_nil (splitChars_ne_nil cs)
  simp only [classEnd?, splitLines, String.toList_ofList, hp, List.map_cons, List.tail_cons,
    List.findIdx?_map]
  congr 2
  funext l
  simp [closes]

theorem closes_splitChars (b : List Char) :
    ∃ p ps, splitChars b = p :: ps ∧ closes p = closes b := by
  cases b with
  | nil => exact ⟨[], [], rfl, rfl⟩
  | cons c b =>
      obtain ⟨l, ls, hl⟩ := List.exists_cons_of_ne_nil (splitChars_ne_nil b)
      by_cases hc : c = '\n'
      · exact ⟨[], splitChars b, by simp [splitChars_cons, hc], by simp [closes, hc]⟩
      · exact ⟨c :: l, ls, by simp [splitChars_cons, hc, hl], rfl⟩

structure Encloses (a : List Char) : Prop where
  whole : IsWhole a
  nonempty : a ≠ []
  no_close : ∀ l ∈ (wholeLines a).tail, closes l = false

theorem Encloses.tail_append {a : List Char} (h : Encloses a) (ps : List (List Char)) :
    (wholeLines a ++ ps).tail = (wholeLines a).tail ++ ps := by
  obtain ⟨body, rfl⟩ := h.whole.eq_snoc h.nonempty
  rw [wholeLines_snoc, List.tail_append_of_ne_nil (splitChars_ne_nil body)]

theorem Encloses.length_tail {a : List Char} (h : Encloses a) :
    (wholeLines a).tail.length + 1 = (wholeLines a).length := by
  have ht := congrArg List.length (h.tail_append [[]])
  simp only [List.length_tail, List.length_append, List.length_singleton] at ht
  rw [List.length_tail]
  omega

theorem classEnd?_append {a b : List Char} (h : Encloses a) (hb : closes b = true) :
    classEnd? (String.ofList (a ++ b)) = some (wholeLines a).length := by
  obtain ⟨p, ps, hp, hcl⟩ := closes_splitChars b
  have hnone : (wholeLines a).tail.findIdx? closes = none :=
    List.findIdx?_eq_none_iff.mpr h.no_close
  rw [classEnd?_ofList, splitChars_append h.whole, h.tail_append, List.findIdx?_append, hnone, hp,
    List.findIdx?_cons, hcl, hb, ← h.length_tail]
  simp only [Option.none_or, if_true, Option.map_some, Nat.zero_add]

theorem classEnd?_eq_some {document : String} {line : Nat} (h : classEnd? document = some line) :
    ∃ a b, document = String.ofList (a ++ b) ∧ Encloses a ∧ closes b = true ∧
      (wholeLines a).length = line := by
  have hd : document = String.ofList document.toList := String.ofList_toList.symm
  rw [hd, classEnd?_ofList] at h
  obtain ⟨k, hk, rfl⟩ := Option.map_eq_some_iff.mp h
  obtain ⟨hlt, hclose, hbefore⟩ := List.findIdx?_eq_some_iff_getElem.mp hk
  rw [List.length_tail] at hlt
  obtain ⟨a, b, rfl, ha, hlen⟩ := exists_whole document (k := k + 1) (by omega)
  have hne : a ≠ [] := by
    rintro rfl
    simp at hlen
  simp only [String.toList_ofList, splitChars_append ha] at hclose hbefore
  obtain ⟨p, ps, hp, hcl⟩ := closes_splitChars b
  refine ⟨a, b, rfl, ⟨ha, hne, ?_⟩, ?_, hlen⟩
  · intro l hl
    obtain ⟨j, hj, rfl⟩ := List.getElem_of_mem hl
    rw [List.length_tail] at hj
    have hb := hbefore j (by omega)
    rw [List.getElem_tail, List.getElem_append_left (by omega)] at hb
    rw [List.getElem_tail]
    exact Bool.not_eq_true _ ▸ hb
  · rw [List.getElem_tail, List.getElem_append_right (by omega)] at hclose
    simpa [hlen, hp, hcl] using hclose

theorem lt_length_lines_of_classEnd? {document : String} {line : Nat}
    (h : classEnd? document = some line) : line < (lines document).length := by
  obtain ⟨a, b, rfl, ha, hb, rfl⟩ := classEnd?_eq_some h
  obtain ⟨p, ps, hp, hcl⟩ := closes_splitChars b
  cases p with
  | nil =>
      rw [← hcl] at hb
      exact absurd hb (by decide)
  | cons c l =>
      refine lt_length_lines (c := c) (l := l) ?_
      rw [String.toList_ofList, splitChars_append ha.whole,
        List.getElem?_append_right (Nat.le_refl _), hp]
      simp

def ClosesAt (document : String) (line : Nat) : Prop :=
  1 ≤ line ∧ ∃ l, (splitLines document)[line]? = some l ∧ l.toList.head? = some '}'

theorem closesAt_of_classEnd? {document : String} {line : Nat}
    (h : classEnd? document = some line) : ClosesAt document line := by
  unfold classEnd? at h
  split at h
  · exact nomatch h
  · next first rest hsplit =>
      obtain ⟨k, hk, rfl⟩ := Option.map_eq_some_iff.mp h
      obtain ⟨hlt, hclose, -⟩ := List.findIdx?_eq_some_iff_getElem.mp hk
      refine ⟨by omega, rest[k], ?_, by simpa using hclose⟩
      rw [hsplit, List.getElem?_cons_succ, List.getElem?_eq_getElem hlt]

theorem not_closesAt_of_classEnd? {document : String} (h : classEnd? document = none)
    (line : Nat) : ¬ ClosesAt document line := by
  rintro ⟨hline, l, hl, hclose⟩
  obtain ⟨k, rfl⟩ := Nat.exists_eq_succ_of_ne_zero (Nat.pos_iff_ne_zero.mp hline)
  unfold classEnd? at h
  split at h
  · next hsplit =>
      rw [hsplit] at hl
      exact nomatch hl
  · next first rest hsplit =>
      have hnone := List.findIdx?_eq_none_iff.mp (Option.map_eq_none_iff.mp h)
      rw [hsplit, List.getElem?_cons_succ] at hl
      have hopen := hnone l (List.mem_of_getElem? hl)
      simp [hclose] at hopen

end Scaffold
