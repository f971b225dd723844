import Scaffold.Text.Scan
/-!
Icons in messages: `$(name)` and two blanks.
-/
namespace Scaffold.Icon

/-- The text after the first closing parenthesis with two blanks after it, given the text after the
icon's first character. A name does not run over a line. -/
def afterName? : List Char → Option (List Char)
  | [] => none
  | c :: cs =>
      if c = '\n' then none
      else
        match cs with
        | ')' :: a :: b :: rest =>
            if Text.isBlank a && Text.isBlank b then some rest else afterName? cs
        | _ => afterName? cs

def afterIcon? : List Char → Option (List Char)
  | '$' :: '(' :: cs => afterName? cs
  | _ => none

def stripChars : List Char → List Char
  | [] => []
  | c :: cs =>
      match afterIcon? (c :: cs) with
      | some rest => rest
      | none => c :: stripChars cs

def strip (s : String) : String :=
  String.ofList (stripChars s.toList)

end Scaffold.Icon
