import Scaffold.Declaration.Site
/-!
The declarations of a document that a user may choose from.
-/
namespace Scaffold

structure Choice where
  /-- The number in the list of choices, counted from one, and what is declared. -/
  label : String
  line : Nat
  declared : DeclarationLine
  deriving DecidableEq, Repr

namespace Choice

def hits (accept : DeclarationLine → Bool) : Nat → List String → List (Nat × DeclarationLine)
  | _, [] => []
  | line, text :: rest =>
      match DeclarationLine.parse? text with
      | some d =>
          if accept d then (line, d) :: hits accept (line + 1) rest
          else hits accept (line + 1) rest
      | none => hits accept (line + 1) rest

def number (n : Nat) : List (Nat × DeclarationLine) → List Choice
  | [] => []
  | (line, d) :: rest => ⟨toString n ++ ". " ++ d.label, line, d⟩ :: number (n + 1) rest

def ofDocument (document : String) (accept : DeclarationLine → Bool) : List Choice :=
  number 1 (hits accept 0 (Text.lines document))

def restrict (choices : List Choice) (picked : List String) : List Choice :=
  choices.filter fun c => picked.contains c.label

end Choice

end Scaffold
