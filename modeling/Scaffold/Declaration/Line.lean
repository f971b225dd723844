import Scaffold.Text.Scan
import Scaffold.Text.Uppercase
import Scaffold.Text.Word
/-!
Recognising declarations by their first line. A recogniser reads one line of source, without
parsing it, and tells what it declares.
-/
namespace Scaffold

inductive DeclarationKind where
  | classLike
  | constant
  | property
  | function
  deriving DecidableEq, Repr

namespace DeclarationKind

def label : DeclarationKind → String
  | classLike => "Class"
  | constant => "Constant"
  | property => "Property"
  | function => "Function"

end DeclarationKind

/-- What a line declares. A type is kept as the line spells it. -/
inductive DeclarationLine where
  | classLike (keyword name : String)
  | constant (type? : Option String) (name : String)
  | property (type? : Option String) (name : String)
  | function (name : String) (isStatic : Bool)
  deriving DecidableEq, Repr

namespace DeclarationLine

def kind : DeclarationLine → DeclarationKind
  | classLike .. => .classLike
  | constant .. => .constant
  | property .. => .property
  | function .. => .function

def label : DeclarationLine → String
  | classLike keyword name => name ++ " (" ++ Text.capitalize keyword ++ ")"
  | constant (some t) name => t ++ " " ++ name ++ " (Constant)"
  | constant none name => name ++ " (Constant)"
  | property (some t) name => t ++ " $" ++ name ++ " (Property)"
  | property none name => "$" ++ name ++ " (Property)"
  | function name true => name ++ " (Static function)"
  | function name false => name ++ " (Function)"

end DeclarationLine

namespace Line

open Text

def visibilities : List String := ["public", "protected", "private"]

def isTypeChar (c : Char) : Bool :=
  isWordChar c || c == '\\' || c == '|'

def typeToken? (cs : List Char) : Option (String × List Char) :=
  let (mark, body) : List Char × List Char :=
    match cs with
    | '?' :: cs => (['?'], cs)
    | cs => ([], cs)
  do
    let (taken, rest) ← run? isTypeChar body
    let rest ← blanks? rest
    pure (String.ofList (mark ++ taken), rest)

def classLike? (cs : List Char) : Option DeclarationLine := do
  let (_, rest) := spacedRun ["abstract", "final", "readonly"] (dropBlanks cs)
  let (keyword, rest) ← spaced? ["class", "interface", "trait", "enum"] rest
  let (name, _) ← run? isWordChar rest
  pure (.classLike keyword (String.ofList name))

def assigned? (cs : List Char) : Option (String × List Char) := do
  let (name, rest) ← run? isWordChar cs
  let rest ← List.isPrefixOf? ['='] (dropBlanks rest)
  pure (String.ofList name, rest)

/-- The type, name and value of a constant. The longer reading, with a type, is tried first. -/
def typedAssigned? (cs : List Char) : Option (Option String × String × List Char) :=
  let typed := do
    let (type, rest) ← typeToken? cs
    let (name, rest) ← assigned? rest
    pure (some type, name, rest)
  let untyped := do
    let (name, rest) ← assigned? cs
    pure (none, name, rest)
  typed.or untyped

def constant? (cs : List Char) : Option DeclarationLine := do
  let rest := skipSpaced ["final"] (dropBlanks cs)
  let rest := skipSpaced ["final"] (skipSpaced visibilities rest)
  let (_, rest) ← spaced? ["const"] rest
  let (type?, name, value) ← typedAssigned? rest
  if (dropBlanks value).contains '\n' then none else pure (.constant type? name)

def propertyHead? (cs : List Char) : Option (Option String × String × List Char) := do
  let rest := skipSpaced ["readonly"] (dropBlanks cs)
  let (_, rest) ← spaced? visibilities rest
  let (_, rest) := spacedRun ["static", "readonly"] rest
  let (type?, rest) ←
    match typeToken? rest with
    | some (type, '$' :: rest) => some (some type, rest)
    | _ => (List.isPrefixOf? ['$'] rest).map (none, ·)
  let (name, rest) ← run? isWordChar rest
  pure (type?, String.ofList name, rest)

def property? (cs : List Char) : Option DeclarationLine := do
  let (type?, name, rest) ← propertyHead? cs
  match dropBlanks rest with
  | ';' :: _ => pure (.property type? name)
  | '=' :: value => if value.contains ';' then pure (.property type? name) else none
  | _ => none

def function? (cs : List Char) : Option DeclarationLine := do
  let (words, rest) := spacedRun
    ["public", "protected", "private", "static", "final", "abstract"] (dropBlanks cs)
  let (_, rest) ← spaced? ["function"] rest
  let rest :=
    match rest with
    | '&' :: rest => rest
    | rest => rest
  let (name, _) ← run? isWordChar rest
  pure (.function (String.ofList name) (words.contains "static"))

end Line

namespace DeclarationLine

def classLike? (line : String) : Option DeclarationLine :=
  Line.classLike? line.toList

def constant? (line : String) : Option DeclarationLine :=
  Line.constant? line.toList

def property? (line : String) : Option DeclarationLine :=
  Line.property? line.toList

def function? (line : String) : Option DeclarationLine :=
  Line.function? line.toList

def parse? (line : String) : Option DeclarationLine :=
  ((classLike? line).or (constant? line)).or ((property? line).or (function? line))

end DeclarationLine

/-- Whether a line starts a property, whether or not the property ends there. -/
def startsProperty (line : String) : Bool :=
  (Line.propertyHead? line.toList).isSome

end Scaffold
