import Scaffold.Declaration.Line
import Scaffold.Text.Lines
/-!
A line of a document with what is known of its place.
-/
namespace Scaffold

def classNameAbove (document : String) (line : Nat) : Option String :=
  ((Text.lines document).take line).foldl
    (fun found text =>
      match DeclarationLine.classLike? text with
      | some (.classLike _ name) => some name
      | _ => found)
    none

structure Site where
  text : String
  tab : String
  line : Nat
  className : Option String
  deriving DecidableEq, Repr

namespace Site

def ofLine? (document : String) (line : Nat) : Option Site := do
  let text ← (Text.lines document)[line]?
  pure ⟨text, Text.indentation text, line, classNameAbove document line⟩

def content (s : Site) : String :=
  Text.trim s.text

end Site

end Scaffold
