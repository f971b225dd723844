import Scaffold.Text.Utf8
/-!
Texts as bytes, character by character. A place between two characters is a boundary of the bytes,
and a byte that is a line feed is one as a character.
-/
namespace Scaffold.Text

def encodeChars (cs : List Char) : List UInt8 :=
  cs.flatMap String.utf8EncodeChar

theorem encodeUtf8_ofList (cs : List Char) : encodeUtf8 (String.ofList cs) = encodeChars cs := by
  rw [encodeUtf8, String.toUTF8, String.toByteArray_ofList]
  exact List.toList_data_toByteArray

theorem encodeChars_append (a b : List Char) :
    encodeChars (a ++ b) = encodeChars a ++ encodeChars b :=
  List.flatMap_append

theorem encodeChars_cons (c : Char) (cs : List Char) :
    encodeChars (c :: cs) = String.utf8EncodeChar c ++ encodeChars cs :=
  List.flatMap_cons

theorem utf8EncodeChar_cases (c : Char) :
    c.toNat < 0x80 ∧ String.utf8EncodeChar c = [UInt8.ofNat c.toNat] ∨
      ∃ b bs, String.utf8EncodeChar c = b :: bs ∧ 0xC0 ≤ b.toNat ∧ ∀ x ∈ bs, 0x80 ≤ x.toNat := by
  have htoNat : c.val.toNat = c.toNat := rfl
  unfold String.utf8EncodeChar
  simp only [htoNat]
  split
  · exact .inl ⟨by omega, rfl⟩
  · refine .inr ?_
    split
    · exact ⟨_, _, rfl, by simp; omega, by simp; omega⟩
    · split
      · exact ⟨_, _, rfl, by simp; omega, by simp; omega⟩
      · exact ⟨_, _, rfl, by simp; omega, by simp; omega⟩

theorem feed_mem_utf8EncodeChar {c : Char} (h : 0x0A ∈ String.utf8EncodeChar c) : c = '\n' := by
  rcases utf8EncodeChar_cases c with ⟨hlt, hc⟩ | ⟨b, bs, hc, hb, hbs⟩
  · rw [hc, List.mem_singleton] at h
    have hn : 10 = c.toNat % 256 := by simpa using congrArg UInt8.toNat h
    exact Char.toNat_inj.mp (by change c.toNat = 10; omega)
  · rw [hc] at h
    rcases List.mem_cons.mp h with rfl | h
    · simp at hb
    · exact absurd (hbs _ h) (by decide)

theorem exists_first_utf8EncodeChar (c : Char) :
    ∃ b bs, String.utf8EncodeChar c = b :: bs ∧ isContinuation b = false := by
  rcases utf8EncodeChar_cases c with ⟨hlt, hc⟩ | ⟨b, bs, hc, hb, -⟩
  · refine ⟨_, _, hc, ?_⟩
    simp [isContinuation, UInt8.le_iff_toNat_le]
    omega
  · refine ⟨b, bs, hc, ?_⟩
    simp [isContinuation, UInt8.le_iff_toNat_le]
    omega

def isBoundary (bs : List UInt8) (pos : Nat) : Bool :=
  pos == 0 || pos == bs.length || bs[pos]?.any fun b => !isContinuation b

theorem isBoundary_length (a b : List Char) :
    isBoundary (encodeChars (a ++ b)) (encodeChars a).length = true := by
  cases b with
  | nil => simp [isBoundary]
  | cons c cs =>
      obtain ⟨first, rest, hc, hfirst⟩ := exists_first_utf8EncodeChar c
      have hbytes : encodeChars (a ++ c :: cs) =
          encodeChars a ++ first :: (rest ++ encodeChars cs) := by
        rw [encodeChars_append, encodeChars_cons, hc, List.cons_append]
      simp [isBoundary, hbytes, hfirst]

def insertBytes? (bs : List UInt8) (pos : Nat) (new : List UInt8) : Option (List UInt8) :=
  if isBoundary bs pos then some (bs.take pos ++ new ++ bs.drop pos) else none

theorem insertBytes?_length (a b new : List Char) :
    insertBytes? (encodeChars (a ++ b)) (encodeChars a).length (encodeChars new) =
      some (encodeChars (a ++ new ++ b)) := by
  rw [insertBytes?, if_pos (isBoundary_length a b)]
  simp [encodeChars_append]

def feedEnds (pos : Nat) : List UInt8 → List Nat
  | [] => []
  | b :: bs => if b = 0x0A then (pos + 1) :: feedEnds (pos + 1) bs else feedEnds (pos + 1) bs

theorem feedEnds_append {a : List UInt8} (ha : 0x0A ∉ a) (pos : Nat) (b : List UInt8) :
    feedEnds pos (a ++ b) = feedEnds (pos + a.length) b := by
  induction a generalizing pos with
  | nil => rfl
  | cons x a ih =>
      obtain ⟨hx, ha⟩ : 0x0A ≠ x ∧ 0x0A ∉ a := by simpa using ha
      rw [List.cons_append, feedEnds, if_neg (Ne.symm hx), ih ha, List.length_cons]
      congr 1
      omega

end Scaffold.Text
