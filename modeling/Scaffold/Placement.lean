import Scaffold.Text.Lines
import Scaffold.Text.Scan
/-!
Where generated text goes: documentation above a line that has none, members into a class.
-/
namespace Scaffold

def hasDocComment (cs : List Char) : Bool :=
  match cs with
  | [] => false
  | '/' :: '*' :: '*' :: cs => Text.occursIn ['*', '/'] cs
  | _ :: cs => hasDocComment cs

def isDocumented (document : String) (line : Nat) : Bool :=
  let start := line - 3
  hasDocComment (Text.joinLines (((Text.lines document).drop start).take (line - start))).toList

/-- The first line after line 0 that starts with a closing brace. -/
def classEnd? (document : String) : Option Nat :=
  match Text.splitLines document with
  | [] => none
  | _ :: rest => (rest.findIdx? fun l => l.toList.head? == some '}').map (· + 1)

/-- Constructors go after the last property, or where accessors go if there is none. -/
def constructorPlace? (document : String) (lastProperty : Option Nat) : Option Nat :=
  match lastProperty with
  | some line => some (line + 1)
  | none => classEnd? document

end Scaffold
