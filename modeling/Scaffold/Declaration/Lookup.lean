import Scaffold.Declaration.Completion
import Scaffold.Declaration.Signature
import Scaffold.Declaration.Site
import Scaffold.Php.Program
import Scaffold.ThrowTree
/-!
From a declaration line to its signature. Classes, constants and properties are completed and parsed
alone; a method is looked up in its whole document.
-/
namespace Scaffold

inductive SignatureError where
  | parseFailed (what : String)
  | nodeNotFound (what : String)
  | nameNotFound (what : String)
  deriving DecidableEq, Repr

def SignatureError.wording (faults : String) : SignatureError → String
  | parseFailed what =>
      "Invalid PHP code: " ++ faults ++ " syntax error(s) while looking for " ++ what
  | nodeNotFound what => what ++ " declaration not found"
  | nameNotFound what => what ++ " name not found"

/-- How many faults there are is for the parser to say: a program only tells if it is faulty, and
a letter keeps the place of the number. -/
def SignatureError.message (e : SignatureError) : String :=
  e.wording "N"

namespace Php.Program

/-- Looks for a node in a program. Faults matter only if it is not found. -/
def locate {α : Type} (p : Program) (what : String) (find : List Statement → Option α) :
    Except SignatureError α :=
  match find p.statements with
  | some a => .ok a
  | none => .error (if p.faulty then .parseFailed what else .nodeNotFound what)

end Php.Program

def memberOfFirst {α : Type} (pick : Php.Member → Option α) (statements : List Php.Statement) :
    Option α := do
  let c ← (Php.declaredClasses statements).head?
  c.members.findSome? pick

def ClassSignature.ofSite (s : Site) : Except SignatureError ClassSignature :=
  (Php.Program.parse (headerSource (completeHeader s.content))).locate "Class" fun statements =>
    (Php.declaredClasses statements).head?.map fun c => ⟨c.name, c.keyword⟩

def isCapitalWord (token : String) : Bool :=
  token.toList != [] && token.toList.all Char.isUpper

def UnionType.ofToken (token : String) : UnionType :=
  let (nullable, body) : Bool × List Char :=
    match token.toList with
    | '?' :: body => (true, body)
    | body => (false, body)
  ((body.splitOn '|').filter (· != [])).foldl (fun u m => u.insert (String.ofList m)) ⟨[], nullable⟩

/-- A constant's type is the declared one, else the one that its line spells, else any. -/
def ConstantSignature.ofSite (s : Site) : Except SignatureError ConstantSignature := do
  let program := Php.Program.parse (memberSource (completeMember s.content))
  let (name, hint?) ← program.locate "Constant" <| memberOfFirst fun
    | .constant name hint => some (name, hint)
    | _ => none
  let hint :=
    match hint? with
    | some hint => hint.toUnion.docText
    | none =>
        match DeclarationLine.constant? s.content with
        | some (.constant (some token) _) =>
            if isCapitalWord token then UnionType.mixed else (UnionType.ofToken token).docText
        | _ => UnionType.mixed
  pure ⟨name, hint⟩

def PropertySignature.ofSite (s : Site) : Except SignatureError PropertySignature :=
  let program := Php.Program.parse (memberSource (completeMember s.content))
  program.locate "Property" <| memberOfFirst fun
    | .property name hint => some ⟨name, UnionType.ofHint? hint⟩
    | _ => none

structure Method where
  name : String
  parameters : List Php.Parameter
  returns : Option Php.Hint
  body? : Option (List Php.Statement)

namespace Method

def named? (name : String) (c : Php.ClassLike) : Option Method :=
  c.members.findSome? fun
    | .method name' ps returns body? =>
        if name' = name then some ⟨name', ps, returns, body?⟩ else none
    | _ => none

/-- A constructor returns nothing, and neither does a method whose type says so. -/
def returnHint (m : Method) : String :=
  if m.name = "__construct" then "void"
  else
    let types := UnionType.ofHint? m.returns
    (if types.members.contains "void" then { types with nullable := false } else types).docText

def signature (m : Method) : FunctionSignature where
  name := m.name
  parameters := m.parameters.map fun p => ⟨p.name, (UnionType.ofHint? p.hint).docText⟩
  returnHint := m.returnHint
  throws := m.body?.elim [] fun body => throwsOf (ThrowTree.ofStatements body)

/-- The method of a name: that of the class-like that covers the byte, else the first one. -/
def at? (name : String) (byte : Nat) (statements : List Php.Statement) : Option Method :=
  let classes := Php.declaredClasses statements
  ((classes.find? (·.covers byte)).bind (named? name)).or (classes.findSome? (named? name))

end Method

def byteOfLine (document : String) (line : Nat) : Nat :=
  ((Text.splitLines document).take line).foldr (fun l size => l.utf8ByteSize + 1 + size) 0

def FunctionSignature.ofSite (document : String) (s : Site) :
    Except SignatureError FunctionSignature :=
  match DeclarationLine.function? s.text with
  | some (.function name _) =>
      (Php.Program.parse document).locate "Method" fun statements =>
        (Method.at? name (byteOfLine document s.line) statements).map Method.signature
  | _ => .error (.nameNotFound "Function")

end Scaffold
