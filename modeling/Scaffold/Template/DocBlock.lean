import Scaffold.Declaration.Signature
import Scaffold.Settings
import Scaffold.Text.Uppercase
/-!
Documentation blocks.
-/
namespace Scaffold.Template

/-- A line of a block; an empty one has no blank after its star. -/
def docLine (tab line : String) : String :=
  if line = "" then tab ++ " *\n" else tab ++ " * " ++ line ++ "\n"

def docBlock (lines : List String) (tab : String) : String :=
  tab ++ "/**\n" ++ String.join (lines.map (docLine tab)) ++ tab ++ " */\n"

def blankLines (n : Nat) : List String :=
  List.replicate n ""

def descriptionIf (isShown : Bool) (text : String) (s : Settings) : List String :=
  if isShown then text :: blankLines s.linesAfterDescription.toNat else []

def docOfClass (c : ClassSignature) (tab : String) : String :=
  if c.name = "" then ""
  else docBlock [Text.capitalize c.keyword.text ++ " " ++ c.name ++ " description."] tab

def docOfVariable (name hint : String) (isShown : Bool) (tab : String) (s : Settings) : String :=
  if name = "" then ""
  else docBlock (descriptionIf isShown (name ++ " description.") s ++ ["@var " ++ hint]) tab

def returnLines (hint : String) (s : Settings) : List String :=
  if s.returnVoid || hint != "void" then blankLines s.linesBeforeReturn.toNat ++ ["@return " ++ hint]
  else []

def throwsLines (names : List String) (s : Settings) : List String :=
  if names = [] then []
  else
    blankLines s.linesBeforeThrows.toNat ++
      (if s.throwsOnOwnLines then names.map ("@throws " ++ ·)
       else ["@throws " ++ String.intercalate "|" names])

def functionLines (f : FunctionSignature) (s : Settings) : List String :=
  descriptionIf s.functionDescription (f.name ++ " description.") s
    ++ f.parameters.map (fun p => "@param " ++ p.hint ++ " $" ++ p.name)
    ++ returnLines f.returnHint s
    ++ throwsLines f.throws s

def docOfFunction (f : FunctionSignature) (tab : String) (s : Settings) : String :=
  if f.name = "" then "" else docBlock (functionLines f s) tab

def doc (signature : Signature) (tab : String) (s : Settings) : String :=
  match signature with
  | .classLike c => docOfClass c tab
  | .constant c => docOfVariable c.name c.hint s.constantDescription tab s
  | .property p => docOfVariable p.name p.types.docText s.propertyDescription tab s
  | .function f => docOfFunction f tab s

end Scaffold.Template
