import Scaffold.Php.Tree
/-!
Types as ordered sets of alternatives, and their two spellings: in documentation, where absence is
the alternative `null`, and in declarations, where one nullable type is written with `?`.
-/
namespace Scaffold

structure UnionType where
  members : List String := []
  nullable : Bool := false
  deriving DecidableEq, Repr

namespace UnionType

def mixed : String := "mixed"

def insert (u : UnionType) (name : String) : UnionType :=
  if u.members.contains name then u else { u with members := u.members ++ [name] }

def alternatives (u : UnionType) : List String :=
  if u.nullable && !u.members.contains "null" then u.members ++ ["null"] else u.members

def docText (u : UnionType) : String :=
  if u.members = [] then mixed else String.intercalate "|" u.alternatives

def declaredText (u : UnionType) : String :=
  if u.members = [] then mixed
  else if u.alternatives.contains "null" then
    match u.alternatives.filter (· != "null") with
    | [] => "null"
    | [only] => "?" ++ only
    | rest => String.intercalate "|" rest ++ "|null"
  else String.intercalate "|" u.alternatives

end UnionType

def isBoolean (hint : String) : Bool :=
  hint == "bool" || hint == "boolean"

namespace Php.Hint

def text : Hint → String
  | named t => t
  | nullable h => "?" ++ h.text
  | union l r => l.text ++ "|" ++ r.text
  | intersection l r => l.text ++ "&" ++ r.text
  | group h => "(" ++ h.text ++ ")"

/-- Adds the alternatives of a type. Only `?` and `|` are taken apart. -/
def addTo : Hint → UnionType → UnionType
  | nullable h, u => h.addTo { u with nullable := true }
  | union l r, u => r.addTo (l.addTo u)
  | h, u => u.insert h.text

def toUnion (h : Hint) : UnionType :=
  h.addTo {}

end Php.Hint

def UnionType.ofHint? (h : Option Php.Hint) : UnionType :=
  h.elim {} Php.Hint.toUnion

end Scaffold
