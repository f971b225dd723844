import Scaffold.Template.DocBlock
/-!
Files that declare one class-like and nothing else, and constructors that assign the properties of a
class from their parameters.
-/
namespace Scaffold.Template

def skeleton (keyword : Php.ClassKeyword) (name nameSpace : String) (s : Settings) : String :=
  if name = "" then ""
  else
    "<?php\n\n"
      ++ (if s.strictTypes then "declare(strict_types=1);\n\n" else "")
      ++ (if nameSpace = "" then "" else "namespace " ++ nameSpace ++ ";\n\n")
      ++ (if s.skeletonDoc then docBlock [Text.capitalize keyword.text ++ " " ++ name] "" else "")
      ++ keyword.text ++ " " ++ name ++ "\n\x7b\n\x7d\n"

def memberTab : String := "    "

def argument (p : PropertySignature) : String :=
  p.types.declaredText ++ " $" ++ p.name

def arguments : List PropertySignature → List String
  | [] => []
  | [p] => [argument p]
  | p :: ps => (argument p ++ ",") :: arguments ps

def assignment (tab : String) (p : PropertySignature) : String :=
  tab ++ tab ++ "$this->" ++ p.name ++ " = $" ++ p.name ++ ";"

def constructorDescription (className : Option String) (s : Settings) : List String :=
  match className with
  | some name => descriptionIf s.functionDescription (name ++ " constructor.") s
  | none => []

def constructorDoc (ps : List PropertySignature) (tab : String) (className : Option String)
    (s : Settings) : String :=
  docBlock (constructorDescription className s
    ++ ps.map fun p => "@param " ++ p.types.docText ++ " $" ++ p.name) tab

def constructorOneLine (ps : List PropertySignature) (tab : String) : String :=
  tab ++ "public function __construct(" ++ String.intercalate " " (arguments ps) ++ ")"

/-- The signature and the brace after it: on one line if that is short enough, else with a line
for each argument. -/
def constructorHead (ps : List PropertySignature) (tab : String) (s : Settings) : String :=
  let oneLine := constructorOneLine ps tab
  if oneLine.length ≤ s.constructorLineLength.toNat then oneLine ++ "\n" ++ tab ++ "\x7b\n"
  else
    tab ++ "public function __construct(\n"
      ++ tab ++ tab ++ String.intercalate ("\n" ++ tab ++ tab) (arguments ps) ++ "\n"
      ++ tab ++ ") \x7b\n"

/-- A constructor; without properties it is empty and has no documentation. -/
def constructor (ps : List PropertySignature) (tab : String) (className : Option String)
    (s : Settings) : String :=
  match ps with
  | [] => "\n" ++ tab ++ "public function __construct()\n" ++ tab ++ "\x7b\n" ++ tab ++ "\x7d\n"
  | ps =>
      "\n" ++ constructorDoc ps tab className s
        ++ constructorHead ps tab s
        ++ String.intercalate "\n" (ps.map (assignment tab)) ++ "\n"
        ++ tab ++ "\x7d\n"

end Scaffold.Template
