/-!
Two ways to cut a text into lines. `splitLines` cuts at every line feed and keeps all that stands
between; `lines` is the editor's view, without the carriage return before a line feed and without
an empty line after the last line feed.
-/
namespace Scaffold.Text

def splitChars (cs : List Char) : List (List Char) :=
  cs.splitOn '\n'

theorem splitChars_ne_nil (cs : List Char) : splitChars cs ≠ [] :=
  List.splitOn_ne_nil '\n' cs

theorem splitChars_cons (c : Char) (cs : List Char) :
    splitChars (c :: cs) =
      if c = '\n' then [] :: splitChars cs else (splitChars cs).modifyHead (c :: ·) := by
  simp only [splitChars, List.splitOn_cons_eq_if_modifyHead, beq_iff_eq]

def splitLines (s : String) : List String :=
  (splitChars s.toList).map String.ofList

def dropReturn (l : List Char) : List Char :=
  if l.getLast? = some '\r' then l.dropLast else l

/-- The pieces, less an empty last one; a piece that a line feed ended loses one carriage return. -/
def lineChars : List (List Char) → List (List Char)
  | [] => []
  | [l] => if l = [] then [] else [l]
  | l :: l' :: ls => dropReturn l :: lineChars (l' :: ls)

def lines (s : String) : List String :=
  (lineChars (splitChars s.toList)).map String.ofList

def joinLines (ls : List String) : String :=
  String.intercalate "\n" ls

end Scaffold.Text
