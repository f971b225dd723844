import Scaffold.Proofs.OwnMethod
import Scaffold.Proofs.Simultaneous
import Scaffold.Proofs.Site
/-!
One number for a line in every view of a document. The lines that an editor shows, the pieces
between line feeds, the places where insertions go and the bytes where lines start are counted in
four ways; a line that is shown has the same number in all of them. The views differ in a carriage
return at the end of a line, and in the empty piece after the last line feed.
-/
namespace Scaffold

open Text

namespace Text

theorem length_encodeChars (cs : List Char) : (encodeChars cs).length = Php.byteSize cs := by
  rw [← utf8ByteSize_ofList, ← encodeUtf8_ofList]
  exact Array.length_toList

/-! How many lines there are -/

theorem length_lineChars (ps : List (List Char)) :
    ps.length = (lineChars ps).length + if ps.getLast? = some [] then 1 else 0 := by
  fun_induction lineChars ps with
  | case1 => rfl
  | case2 => rfl
  | case3 l hl => simp [hl]
  | case4 l l' ls ih => simp [ih, List.getLast?_cons_cons, Nat.add_right_comm]

theorem getLast?_splitChars (cs : List Char) :
    (splitChars cs).getLast? = some [] ↔ IsWhole cs := by
  constructor
  · intro h
    obtain ⟨front, hfront⟩ := List.getLast?_eq_some_iff.mp h
    have hcs := Insertion.intercalate_splitChars cs
    rw [hfront] at hcs
    by_cases hnil : front = []
    · rw [hnil] at hcs
      exact .inl hcs.symm
    · rw [Insertion.intercalate_feed_append hnil (by simp)] at hcs
      rw [← hcs]
      exact isWhole_snoc _
  · intro h
    rw [splitChars_of_isWhole h, List.getLast?_concat]

theorem length_splitLines (s : String) :
    IsWhole s.toList ∧ (splitLines s).length = (lines s).length + 1 ∨
      ¬IsWhole s.toList ∧ (splitLines s).length = (lines s).length := by
  have hlength := length_lineChars (splitChars s.toList)
  simp only [splitLines, lines, List.length_map, ← getLast?_splitChars]
  split at hlength
  · next h => exact .inl ⟨h, hlength⟩
  · next h => exact .inr ⟨h, hlength⟩

/-! Where a line stands -/

def IsLineEnd (ending rest : List Char) : Prop :=
  (ending = [] ∨ ending = ['\r']) ∧ ∀ c ∈ rest.head?, c = '\n'

theorem dropReturn_append_end (l : List Char) :
    ∃ ending, (ending = [] ∨ ending = ['\r']) ∧ l = dropReturn l ++ ending := by
  unfold dropReturn
  split
  · next hlast =>
      obtain ⟨front, rfl⟩ := List.getLast?_eq_some_iff.mp hlast
      exact ⟨['\r'], .inr rfl, by simp⟩
  · exact ⟨[], .inl rfl, by simp⟩

theorem exists_first {b : List Char} {text : String}
    (h : (lines (String.ofList b)).head? = some text) :
    ∃ ending rest, b = (text.toList ++ ending) ++ rest ∧ IsLineEnd ending rest ∧
      '\n' ∉ text.toList ++ ending := by
  by_cases hm : '\n' ∈ b
  · obtain ⟨l, rest, rfl, hl⟩ := List.eq_append_cons_of_mem hm
    have hsplit : l ++ '\n' :: rest = (l ++ ['\n']) ++ rest := by simp
    rw [hsplit, lines_append (isWhole_snoc l), wholeLines_snoc, splitChars_of_not_mem hl] at h
    obtain rfl : String.ofList (dropReturn l) = text := by simpa using h
    obtain ⟨ending, hending, heq⟩ := dropReturn_append_end l
    rw [String.toList_ofList]
    exact ⟨ending, '\n' :: rest, by rw [← heq], ⟨hending, by simp⟩, by rwa [← heq]⟩
  · simp only [lines, String.toList_ofList, splitChars_of_not_mem hm, lineChars] at h
    split at h
    · cases h
    · obtain rfl : String.ofList b = text := by simpa using h
      exact ⟨[], [], by simp, ⟨.inl rfl, by simp⟩, by simpa using hm⟩

theorem exists_place {document text : String} {k : Nat} (h : (lines document)[k]? = some text) :
    ∃ a ending rest, document = String.ofList (a ++ ((text.toList ++ ending) ++ rest)) ∧
      IsWhole a ∧ (wholeLines a).length = k ∧ IsLineEnd ending rest ∧
      '\n' ∉ text.toList ++ ending := by
  obtain ⟨hk, -⟩ := List.getElem?_eq_some_iff.mp h
  obtain ⟨a, b, rfl, ha, rfl⟩ := exists_whole document (Nat.lt_of_lt_of_le hk (length_lines_le _))
  have hfirst : (lines (String.ofList b)).head? = some text := by
    rw [lines_append ha, List.getElem?_append_right (by simp)] at h
    simpa [List.head?_eq_getElem?] using h
  obtain ⟨ending, rest, rfl, hend, hfeed⟩ := exists_first hfirst
  exact ⟨a, ending, rest, rfl, ha, rfl, hend, hfeed⟩

theorem head?_splitChars {l rest : List Char} (hl : '\n' ∉ l) (hrest : ∀ c ∈ rest.head?, c = '\n') :
    (splitChars (l ++ rest)).head? = some l := by
  cases rest with
  | nil => simp [splitChars_of_not_mem hl]
  | cons c rest =>
      obtain rfl := hrest c rfl
      rw [splitChars_append_feed, splitChars_of_not_mem hl]
      rfl

section

variable {a : List Char} (ha : IsWhole a)
include ha

theorem getElem?_splitLines {l rest : List Char} (hl : '\n' ∉ l)
    (hrest : ∀ c ∈ rest.head?, c = '\n') :
    (splitLines (String.ofList (a ++ (l ++ rest))))[(wholeLines a).length]? =
      some (String.ofList l) := by
  rw [splitLines, String.toList_ofList, splitChars_append ha, List.getElem?_map,
    List.getElem?_append_right (Nat.le_refl _), Nat.sub_self, ← List.head?_eq_getElem?,
    head?_splitChars hl hrest]
  rfl

theorem byteOfLine_eq_length (b : List Char) :
    byteOfLine (String.ofList (a ++ b)) (wholeLines a).length = (encodeChars a).length := by
  rw [byteOfLine_append ha, length_encodeChars]

theorem getElem?_byteStarts (b : List Char) :
    (Insertion.byteStarts (encodeUtf8 (String.ofList (a ++ b))))[(wholeLines a).length]? =
      some (encodeChars a).length := by
  rw [encodeUtf8_ofList, Insertion.byteStarts_encodeChars, List.getElem?_map,
    Insertion.getElem?_lineStarts ha, Option.map_some, List.take_left]

end

end Text

namespace Site

/-- A site stands in its document as line `k`, whichever way lines are counted. -/
structure IsLine (document : String) (k : Nat) (s : Site) : Prop where
  piece : ∃ ending, (ending = "" ∨ ending = "\r") ∧
    (splitLines document)[k]? = some (s.text ++ ending)
  start : ∃ p, (Insertion.lineStarts document.toList)[k]? = some p ∧
    s.text.toList <+: document.toList.drop p ∧
    byteOfLine document k = (encodeUtf8 (String.ofList (document.toList.take p))).length
  byte_start : (Insertion.byteStarts (encodeUtf8 document))[k]? = some (byteOfLine document k)
  byte_start_word : document.utf8ByteSize < UInt32.size →
    (UInt32.ofNat (byteOfLine document k)).toNat = byteOfLine document k
  bytes : encodeUtf8 s.text <+: (encodeUtf8 document).drop (byteOfLine document k)
  indented : ∃ rest, s.text = s.tab ++ rest ∧ (∀ c ∈ s.tab.toList, isBlank c = true) ∧
    ∀ c ∈ rest.toList.head?, isBlank c = false

theorem isLine_of_ofLine? {document : String} {k : Nat} {s : Site}
    (h : ofLine? document k = some s) : s.IsLine document k := by
  have hline : k < (splitChars document.toList).length := by
    obtain ⟨hlt, -⟩ := List.getElem?_eq_some_iff.mp (text_of_ofLine? h)
    exact Nat.lt_of_lt_of_le hlt (length_lines_le document)
  obtain ⟨a, ending, rest, rfl, ha, rfl, ⟨hending, hrest⟩, hfeed⟩ :=
    exists_place (text_of_ofLine? h)
  have hbyte := byteOfLine_eq_length ha ((s.text.toList ++ ending) ++ rest)
  refine ⟨⟨String.ofList ending, ?_, ?_⟩, ⟨a.length, ?_, ?_, ?_⟩, ?_, fun hsize => ?_, ?_, ?_⟩
  · rcases hending with rfl | rfl
    · exact .inl rfl
    · exact .inr rfl
  · rw [getElem?_splitLines ha hfeed hrest, String.ofList_append, String.ofList_toList]
  · rw [String.toList_ofList]
    exact Insertion.getElem?_lineStarts ha _
  · rw [String.toList_ofList, List.drop_left, List.append_assoc]
    exact List.prefix_append _ _
  · rw [hbyte, String.toList_ofList, List.take_left, encodeUtf8_ofList]
  · rw [hbyte]
    exact getElem?_byteStarts ha _
  · exact byteOfLine_word hline hsize
  · rw [hbyte, encodeUtf8_ofList, encodeChars_append, List.drop_left, List.append_assoc,
      encodeChars_append, ← encodeUtf8_ofList, String.ofList_toList]
    exact List.prefix_append _ _
  · refine ⟨trimStart s.text, ?_, fun c hc => ?_, fun c hc => ?_⟩
    · rw [tab_of_ofLine? h, indentation_append_trimStart]
    · rw [tab_of_ofLine? h, indentation, String.toList_ofList] at hc
      exact List.all_eq_true.mp List.all_takeWhile c hc
    · rw [trimStart, String.toList_ofList] at hc
      exact head?_dropBlanks s.text.toList c hc

end Site

theorem lines_agree (document : String) :
    (∀ k s, Site.ofLine? document k = some s → s.IsLine document k) ∧
      ((splitLines document).length = (lines document).length + 1 ↔
        document = "" ∨ document.toList.getLast? = some '\n') ∧
      ((splitLines document).length = (lines document).length ↔
        ¬(document = "" ∨ document.toList.getLast? = some '\n')) := by
  have hcount : ((splitLines document).length = (lines document).length + 1 ↔
        IsWhole document.toList) ∧
      ((splitLines document).length = (lines document).length ↔ ¬IsWhole document.toList) := by
    rcases length_splitLines document with ⟨h, hlength⟩ | ⟨h, hlength⟩
    · simp [h, hlength]
    · simp [h, hlength]
  rw [IsWhole, String.toList_eq_nil_iff] at hcount
  exact ⟨fun k s => Site.isLine_of_ofLine?, hcount⟩

/-- Carriage returns before and between line feeds, and one that ends the text. -/
def sampleReturns : String :=
  "é\r\n\t\u3000b\r\r\n\r"

theorem lines_agree_returns :
    (Site.ofLine? sampleReturns 1 = some ⟨"\t\u3000b\r", "\t\u3000", 1, none⟩ ∧
        Site.IsLine sampleReturns 1 ⟨"\t\u3000b\r", "\t\u3000", 1, none⟩) ∧
      (Insertion.lineStarts sampleReturns.toList)[1]? = some 3 ∧ byteOfLine sampleReturns 1 = 4 ∧
      (splitLines sampleReturns).length = (lines sampleReturns).length := by
  have hsite : Site.ofLine? sampleReturns 1 =
      some ⟨"\t\u3000b\r", "\t\u3000", 1, none⟩ := by decide +kernel
  obtain ⟨hline, -, hequal⟩ := lines_agree sampleReturns
  exact ⟨⟨hsite, hline 1 _ hsite⟩, by decide, by decide +kernel, hequal.mpr (by decide)⟩

end Scaffold
