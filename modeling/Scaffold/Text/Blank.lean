/-!
Blank characters: the Unicode property `White_Space`, and trimming by it.
-/
namespace Scaffold.Text

def isBlank (c : Char) : Bool :=
  let n := c.toNat
  (9 ≤ n && n ≤ 13) || n == 32 || n == 0x85 || n == 0xA0 || n == 0x1680
    || (0x2000 ≤ n && n ≤ 0x200A) || n == 0x2028 || n == 0x2029 || n == 0x202F
    || n == 0x205F || n == 0x3000

def dropBlanks (cs : List Char) : List Char :=
  cs.dropWhile isBlank

def dropBlanksEnd (cs : List Char) : List Char :=
  (cs.reverse.dropWhile isBlank).reverse

def trimStart (s : String) : String :=
  String.ofList (dropBlanks s.toList)

def trim (s : String) : String :=
  String.ofList (dropBlanksEnd (dropBlanks s.toList))

def indentation (s : String) : String :=
  String.ofList (s.toList.takeWhile isBlank)

theorem indentation_append_trimStart (s : String) : indentation s ++ trimStart s = s := by
  apply String.toList_injective
  simp [indentation, trimStart, dropBlanks]

theorem head?_dropBlanks (cs : List Char) : ∀ c ∈ (dropBlanks cs).head?, isBlank c = false := by
  intro c hc
  have hnot := List.head?_dropWhile_not isBlank cs
  rw [dropBlanks] at hc
  rw [hc] at hnot
  simpa using hnot

theorem dropBlanks_append_of_blank {bs : List Char} (hbs : ∀ c ∈ bs, isBlank c = true)
    (cs : List Char) : dropBlanks (bs ++ cs) = dropBlanks cs :=
  List.dropWhile_append_of_pos hbs

end Scaffold.Text
