import Scaffold.Text.Blank
/-!
How often a word occurs in a text. Where a character that is not in the word stands on either side
of a seam, no occurrence runs across it, so the counts of the two parts add up. The last section is on
the first piece of a text that is of a kind.
-/
namespace Scaffold.Text

def occurrencesIn (word : List Char) : List Char → Nat
  | [] => 0
  | c :: cs => (if word.isPrefixOf (c :: cs) then 1 else 0) + occurrencesIn word cs

def occurrences (word text : String) : Nat :=
  occurrencesIn word.toList text.toList

theorem isPrefixOf_append_cons {word : List Char} {c : Char} (hc : c ∉ word) (a b : List Char) :
    word.isPrefixOf (a ++ c :: b) = word.isPrefixOf a := by
  induction word generalizing a with
  | nil => rfl
  | cons d word ih =>
      have hne : d ≠ c := fun heq => hc (by simp [heq])
      cases a with
      | nil => simp [List.isPrefixOf, hne]
      | cons x a => simp [List.isPrefixOf, ih (fun hm => hc (List.mem_cons_of_mem d hm)) a]

def Apart (word : List Char) (c? : Option Char) : Prop :=
  ∀ c ∈ c?, c ∉ word

instance (word : List Char) (c? : Option Char) : Decidable (Apart word c?) :=
  decidable_of_iff (c?.all (fun c => !word.contains c) = true) (by cases c? <;> simp [Apart])

section

variable {word : List Char} (hword : word ≠ [])
include hword

theorem occurrencesIn_eq_zero_iff {cs : List Char} :
    occurrencesIn word cs = 0 ↔ ¬ word <:+: cs := by
  induction cs with
  | nil => simpa [occurrencesIn] using hword
  | cons c cs ih =>
      rw [occurrencesIn, Nat.add_eq_zero_iff, ih, List.infix_cons_iff, ← List.isPrefixOf_iff_prefix]
      by_cases hp : word.isPrefixOf (c :: cs) = true <;> simp [hp]

theorem occurrencesIn_of_disjoint {cs : List Char} (h : ∀ c ∈ cs, c ∉ word) :
    occurrencesIn word cs = 0 := by
  rw [occurrencesIn_eq_zero_iff hword]
  intro hsub
  obtain ⟨c, hc⟩ := List.exists_mem_of_ne_nil word hword
  exact h c (hsub.subset hc) hc

theorem occurrencesIn_append_cons {c : Char} (hc : c ∉ word) (a b : List Char) :
    occurrencesIn word (a ++ c :: b) = occurrencesIn word a + occurrencesIn word b := by
  -- No occurrence runs across `c`: one that starts before it also ends before it.
  induction a with
  | nil =>
      have hnot : word.isPrefixOf (c :: b) = false := by
        rw [← List.nil_append (c :: b), isPrefixOf_append_cons hc, Bool.eq_false_iff]
        simpa [List.isPrefixOf_iff_prefix] using hword
      simp [occurrencesIn, hnot]
  | cons x a ih =>
      rw [List.cons_append, occurrencesIn, occurrencesIn, ← List.cons_append,
        isPrefixOf_append_cons hc, ih, Nat.add_assoc]

theorem occurrencesIn_append_of_getLast? {a : List Char} (h : Apart word a.getLast?)
    (b : List Char) :
    occurrencesIn word (a ++ b) = occurrencesIn word a + occurrencesIn word b := by
  cases hlast : a.getLast? with
  | none =>
      rw [List.getLast?_eq_none_iff.mp hlast]
      simp [occurrencesIn]
  | some c =>
      have hc : c ∉ word := h c hlast
      obtain ⟨body, rfl⟩ := List.getLast?_eq_some_iff.mp hlast
      rw [List.append_assoc, List.singleton_append, occurrencesIn_append_cons hword hc,
        occurrencesIn_append_cons hword hc, occurrencesIn, Nat.add_zero]

theorem occurrencesIn_append_of_head? {b : List Char} (h : Apart word b.head?) (a : List Char) :
    occurrencesIn word (a ++ b) = occurrencesIn word a + occurrencesIn word b := by
  cases b with
  | nil => simp [occurrencesIn]
  | cons c b =>
      have hc : c ∉ word := h c rfl
      have hfirst := occurrencesIn_append_cons hword hc [] b
      rw [occurrencesIn_append_cons hword hc, ← List.nil_append (c :: b), hfirst]
      simp [occurrencesIn]

end

theorem exists_blanks_trim (s : String) :
    ∃ before after, (∀ c ∈ before, isBlank c = true) ∧ (∀ c ∈ after, isBlank c = true) ∧
      s.toList = before ++ ((trim s).toList ++ after) := by
  have hblank {cs : List Char} {c : Char} (hc : c ∈ cs.takeWhile isBlank) : isBlank c = true :=
    List.all_eq_true.mp List.all_takeWhile c hc
  have hend := List.takeWhile_append_dropWhile (p := isBlank) (l := (dropBlanks s.toList).reverse)
  refine ⟨s.toList.takeWhile isBlank, ((dropBlanks s.toList).reverse.takeWhile isBlank).reverse,
    fun _ => hblank, fun _ hc => hblank (List.mem_reverse.mp hc), ?_⟩
  rw [trim, String.toList_ofList, dropBlanksEnd, ← List.reverse_append, hend, List.reverse_reverse]
  exact List.takeWhile_append_dropWhile.symm

theorem occurrences_trim {word : String} (hword : word ≠ "")
    (hblank : word.toList.any isBlank = false) (s : String) :
    occurrences word (trim s) = occurrences word s := by
  have hne : word.toList ≠ [] := by simpa using hword
  obtain ⟨before, after, hbefore, hafter, hs⟩ := exists_blanks_trim s
  have hout {c : Char} (hc : isBlank c = true) : c ∉ word.toList := by
    intro hm
    exact List.any_eq_false.mp hblank c hm hc
  rw [occurrences, occurrences, hs,
    occurrencesIn_append_of_getLast? hne fun c hc => hout (hbefore c (List.mem_of_getLast? hc)),
    occurrencesIn_append_of_head? hne fun c hc => hout (hafter c (List.mem_of_head? hc)),
    occurrencesIn_of_disjoint hne fun c hc => hout (hbefore c hc),
    occurrencesIn_of_disjoint hne fun c hc => hout (hafter c hc)]
  simp

def Omits (word text : String) : Prop :=
  occurrences word text = 0

instance (word text : String) : Decidable (Omits word text) :=
  inferInstanceAs (Decidable (_ = 0))

section

variable {word : String} (hword : word.toList ≠ [])
include hword

theorem omits_iff {text : String} : Omits word text ↔ ¬ word.toList <:+: text.toList :=
  occurrencesIn_eq_zero_iff hword

theorem omits_of_disjoint {text : String} (h : ∀ c ∈ text.toList, c ∉ word.toList) :
    Omits word text :=
  occurrencesIn_of_disjoint hword h

theorem Omits.append_of_last {a b : String} (ha : Omits word a) (hb : Omits word b)
    (hlast : Apart word.toList a.toList.getLast?) : Omits word (a ++ b) := by
  rw [Omits, occurrences, String.toList_append, occurrencesIn_append_of_getLast? hword hlast]
  exact Nat.add_eq_zero_iff.mpr ⟨ha, hb⟩

theorem Omits.append_of_first {a b : String} (ha : Omits word a) (hb : Omits word b)
    (hfirst : Apart word.toList b.toList.head?) : Omits word (a ++ b) := by
  rw [Omits, occurrences, String.toList_append, occurrencesIn_append_of_head? hword hfirst]
  exact Nat.add_eq_zero_iff.mpr ⟨ha, hb⟩

theorem Omits.intercalate {sep : String} (hne : sep ≠ "") (hsep : Omits word sep)
    (hfirst : Apart word.toList sep.toList.head?) (hlast : Apart word.toList sep.toList.getLast?)
    {texts : List String} (h : ∀ t ∈ texts, Omits word t) :
    Omits word (String.intercalate sep texts) := by
  induction texts with
  | nil =>
      rw [String.intercalate_nil]
      exact omits_of_disjoint hword (by simp)
  | cons t ts ih =>
      obtain ⟨ht, hts⟩ := List.forall_mem_cons.mp h
      cases ts with
      | nil => simpa using ht
      | cons u us =>
          have hhead : (sep ++ String.intercalate sep (u :: us)).toList.head? =
              sep.toList.head? := by
            obtain ⟨c, cs, hc⟩ := List.exists_cons_of_ne_nil (by simpa using hne : sep.toList ≠ [])
            rw [String.toList_append, hc]
            rfl
          rw [String.intercalate_cons_cons, String.append_assoc]
          exact ht.append_of_first hword (hsep.append_of_last hword (ih hts) hlast) (hhead ▸ hfirst)

end

/-- Whether a piece of a text is of a kind, and no piece of that kind starts further to the left. -/
structure IsFirst (P : List Char → Prop) (text before piece after : List Char) : Prop where
  split : text = before ++ (piece ++ after)
  holds : P piece
  leftmost : ∀ before' piece', before' ++ piece' <+: text → P piece' →
    before.length ≤ before'.length

section

variable {P : List Char → Prop} {c : Char} {text before piece after : List Char}

theorem IsFirst.here (h : P piece) (after : List Char) : IsFirst P (piece ++ after) [] piece after :=
  ⟨rfl, h, fun _ _ _ _ => Nat.zero_le _⟩

theorem IsFirst.cons (hnone : ∀ piece', piece' <+: c :: text → ¬P piece')
    (h : IsFirst P text before piece after) : IsFirst P (c :: text) (c :: before) piece after where
  split := congrArg (c :: ·) h.split
  holds := h.holds
  leftmost before' piece' hpre hp := by
    cases before' with
    | nil => exact absurd hp (hnone piece' hpre)
    | cons d before' =>
        have hpre' : before' ++ piece' <+: text := (List.cons_prefix_cons.mp hpre).2
        exact Nat.succ_le_succ (h.leftmost before' piece' hpre' hp)

theorem IsFirst.leads (h : IsFirst P text before piece after) : before ++ piece <+: text :=
  ⟨after, (h.split.trans (List.append_assoc _ _ _).symm).symm⟩

theorem IsFirst.occurs (h : IsFirst P text before piece after) : piece <:+: text :=
  ⟨before, after, (h.split.trans (List.append_assoc _ _ _).symm).symm⟩

theorem IsFirst.unique {before' piece' after' : List Char} (h : IsFirst P text before piece after)
    (h' : IsFirst P text before' piece' after') :
    before = before' ∧ piece ++ after = piece' ++ after' := by
  have hlength : before.length = before'.length :=
    Nat.le_antisymm (h.leftmost _ _ h'.leads h'.holds) (h'.leftmost _ _ h.leads h.holds)
  exact List.append_inj (h.split.symm.trans h'.split) hlength

end

end Scaffold.Text
