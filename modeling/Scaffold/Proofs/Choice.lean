import Scaffold.Choice
/-!
The choices that a document offers: one for each acceptable line, in the order of the lines, and no
two with the same label. So any set of them can be picked, and what is picked comes in that order.
-/
namespace Scaffold.Choice

open Text

variable {accept : DeclarationLine → Bool}

def hitOf (accept : DeclarationLine → Bool) (numbered : String × Nat) :
    Option (Nat × DeclarationLine) :=
  (DeclarationLine.parse? numbered.1).bind fun d =>
    if accept d then some (numbered.2, d) else none

theorem hitOf_eq_some {numbered : String × Nat} {hit : Nat × DeclarationLine} :
    hitOf accept numbered = some hit ↔
      DeclarationLine.parse? numbered.1 = some hit.2 ∧ accept hit.2 = true ∧ numbered.2 = hit.1 := by
  obtain ⟨line, d⟩ := hit
  rw [hitOf, Option.bind_eq_some_iff]
  constructor
  · rintro ⟨d', hp, h⟩
    split at h
    · next ha =>
        obtain ⟨rfl, rfl⟩ := Prod.mk.inj (Option.some.inj h)
        exact ⟨hp, ha, rfl⟩
    · exact absurd h (by simp)
  · rintro ⟨hp, ha, rfl⟩
    exact ⟨d, hp, if_pos ha⟩

theorem hits_eq_filterMap (n : Nat) (texts : List String) :
    hits accept n texts = (texts.zipIdx n).filterMap (hitOf accept) := by
  induction texts generalizing n with
  | nil => rfl
  | cons t ts ih =>
      rw [hits, ih (n + 1), List.zipIdx_cons, List.filterMap_cons, hitOf]
      cases DeclarationLine.parse? t with
      | none => rfl
      | some d => by_cases ha : accept d = true <;> simp [ha]

theorem mem_hits {texts : List String} {line : Nat} {d : DeclarationLine} :
    (line, d) ∈ hits accept 0 texts ↔
      ∃ text, texts[line]? = some text ∧ DeclarationLine.parse? text = some d ∧
        accept d = true := by
  simp only [hits_eq_filterMap, List.mem_filterMap, hitOf_eq_some, Prod.exists]
  constructor
  · rintro ⟨text, k, hm, hp, ha, rfl⟩
    exact ⟨text, List.mem_zipIdx_iff_getElem?.mp hm, hp, ha⟩
  · rintro ⟨text, ht, hp, ha⟩
    exact ⟨text, line, List.mem_zipIdx_iff_getElem?.mpr ht, hp, ha, rfl⟩

theorem pairwise_hits (n : Nat) (texts : List String) :
    (hits accept n texts).Pairwise fun a b => a.1 < b.1 := by
  have hidx : (texts.zipIdx n).Pairwise fun a b => a.2 < b.2 := by
    rw [← List.pairwise_map (f := Prod.snd) (R := (· < ·)), List.zipIdx_map_snd]
    exact List.pairwise_lt_range'
  rw [hits_eq_filterMap, List.pairwise_filterMap]
  refine hidx.imp fun hab => ?_
  intro hit h hit' h'
  rw [← (hitOf_eq_some.mp h).2.2, ← (hitOf_eq_some.mp h').2.2]
  exact hab

theorem map_number (n : Nat) (hs : List (Nat × DeclarationLine)) :
    (number n hs).map (fun c => (c.line, c.declared)) = hs := by
  induction hs generalizing n with
  | nil => rfl
  | cons h hs ih => simp [number, ih]

theorem mem_ofDocument {document : String} {line : Nat} {d : DeclarationLine} :
    (∃ c ∈ ofDocument document accept, c.line = line ∧ c.declared = d) ↔
      ∃ text, (lines document)[line]? = some text ∧
        DeclarationLine.parse? text = some d ∧ accept d = true := by
  have h := congrArg (fun hs => (line, d) ∈ hs)
    (map_number 1 (hits accept 0 (lines document)))
  simpa only [ofDocument, List.mem_map, Prod.mk.injEq, mem_hits, eq_iff_iff] using h

theorem pairwise_line (document : String) (accept : DeclarationLine → Bool) :
    (ofDocument document accept).Pairwise fun a b => a.line < b.line := by
  have h : (hits accept 0 (lines document)).Pairwise fun a b => a.1 < b.1 :=
    pairwise_hits 0 (lines document)
  rw [← map_number 1 (hits accept 0 (lines document)), List.pairwise_map] at h
  exact h

theorem ordinal_of_label (n : Nat) (text : String) :
    Nat.ofDigitChars 10 ((toString n ++ ". " ++ text).toList.takeWhile Char.isDigit) 0 = n := by
  have hd : ∀ c ∈ Nat.toDigits 10 n, c.isDigit = true :=
    fun c hc => Nat.isDigit_of_mem_toDigits (by omega) (by omega) hc
  have ht : (toString n ++ ". " ++ text).toList = Nat.toDigits 10 n ++ '.' :: ' ' :: text.toList := by
    simp
  rw [ht, List.takeWhile_append_of_pos hd, List.takeWhile_cons_of_neg (by decide)]
  simp

theorem exists_ordinal {n : Nat} {hs : List (Nat × DeclarationLine)} {c : Choice}
    (h : c ∈ number n hs) : ∃ k text, n ≤ k ∧ c.label = toString k ++ ". " ++ text := by
  induction hs generalizing n with
  | nil => exact absurd h List.not_mem_nil
  | cons hit hs ih =>
      rcases List.mem_cons.mp h with rfl | h
      · exact ⟨n, hit.2.label, Nat.le_refl n, rfl⟩
      · obtain ⟨k, text, hk, ht⟩ := ih h
        exact ⟨k, text, by omega, ht⟩

theorem pairwise_label (n : Nat) (hs : List (Nat × DeclarationLine)) :
    (number n hs).Pairwise fun a b => a.label ≠ b.label := by
  -- The labels of a numbering start with its numbers, and those only grow.
  induction hs generalizing n with
  | nil => exact .nil
  | cons h hs ih =>
      refine List.pairwise_cons.mpr ⟨?_, ih (n + 1)⟩
      intro c hc heq
      obtain ⟨k, text, hk, ht⟩ := exists_ordinal hc
      have hn := ordinal_of_label n h.2.label
      rw [show toString n ++ ". " ++ h.2.label = toString k ++ ". " ++ text from heq.trans ht,
        ordinal_of_label] at hn
      omega

theorem eq_of_label_eq {document : String} {c c' : Choice} (hc : c ∈ ofDocument document accept)
    (hc' : c' ∈ ofDocument document accept) (h : c.label = c'.label) : c = c' := by
  have hne := pairwise_label 1 (hits accept 0 (lines document))
  exact List.Pairwise.forall_of_forall_of_flip (R := fun a b => a.label = b.label → a = b)
    (fun _ _ _ => rfl) (hne.imp fun hab he => absurd he hab)
    (hne.imp fun hab he => absurd he.symm hab) hc hc' h

end Scaffold.Choice
