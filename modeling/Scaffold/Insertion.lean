/-!
Edits that insert text before lines and change nothing else.
-/
namespace Scaffold

/-- Inserts `text` before a line; past the last line, at the end. -/
structure Insertion where
  line : Nat
  text : String
  deriving DecidableEq, Repr

namespace Insertion

def nextStarts (pos : Nat) : List Char → List Nat
  | [] => []
  | c :: cs => if c = '\n' then (pos + 1) :: nextStarts (pos + 1) cs else nextStarts (pos + 1) cs

def lineStarts (cs : List Char) : List Nat :=
  0 :: nextStarts 0 cs

def insertAt (cs : List Char) (pos : Nat) (new : List Char) : List Char :=
  cs.take pos ++ new ++ cs.drop pos

/-- Later lines first, and of one line the last first, so that each insertion leaves the positions
of those still to come as they are. -/
def ordered (insertions : List Insertion) : List Insertion :=
  insertions.reverse.mergeSort fun a b => decide (b.line ≤ a.line)

def applyAll (document : String) (insertions : List Insertion) : String :=
  let cs := document.toList
  let starts := lineStarts cs
  String.ofList <| (ordered insertions).foldl
    (fun result s => insertAt result (starts[s.line]?.getD cs.length) s.text.toList) cs

end Insertion

end Scaffold
