import Scaffold.Template.DocBlock
/-!
Getters and setters. Each starts with an empty line.
-/
namespace Scaffold.Template

def getterName (p : PropertySignature) : String :=
  (if isBoolean p.types.docText then "is" else "get") ++ Text.capitalize p.name

def setterName (p : PropertySignature) : String :=
  "set" ++ Text.capitalize p.name

def getterDoc (p : PropertySignature) (tab : String) (s : Settings) : String :=
  docBlock (descriptionIf s.functionDescription ("Getter for " ++ p.name) s
    ++ ["@return " ++ p.types.docText]) tab

def getterCode (p : PropertySignature) (tab : String) : String :=
  tab ++ "public function " ++ getterName p ++ "(): " ++ p.types.declaredText ++ "\n"
    ++ tab ++ "\x7b\n"
    ++ tab ++ tab ++ "return $this->" ++ p.name ++ ";\n"
    ++ tab ++ "\x7d\n"

def getter (p : PropertySignature) (tab : String) (s : Settings) : String :=
  if p.name = "" then ""
  else "\n" ++ (if s.accessorDoc then getterDoc p tab s else "") ++ getterCode p tab

def setterReturn (className : Option String) (s : Settings) : List String :=
  if s.fluentSetters then
    blankLines s.linesBeforeReturn.toNat ++ ["@return " ++ className.getD "self"]
  else []

def setterDoc (p : PropertySignature) (tab : String) (className : Option String) (s : Settings) :
    String :=
  docBlock (descriptionIf s.functionDescription ("Setter for " ++ p.name) s
    ++ ["@param " ++ p.types.docText ++ " $" ++ p.name] ++ setterReturn className s) tab

def setterCode (p : PropertySignature) (tab : String) (s : Settings) : String :=
  tab ++ "public function " ++ setterName p ++ "(" ++ p.types.declaredText ++ " $" ++ p.name ++ "): "
    ++ (if s.fluentSetters then "self" else "void") ++ "\n"
    ++ tab ++ "\x7b\n"
    ++ tab ++ tab ++ "$this->" ++ p.name ++ " = $" ++ p.name ++ ";\n"
    ++ (if s.fluentSetters then "\n" ++ tab ++ tab ++ "return $this;\n" else "")
    ++ tab ++ "\x7d\n"

def setter (p : PropertySignature) (tab : String) (className : Option String) (s : Settings) :
    String :=
  if p.name = "" then ""
  else "\n" ++ (if s.accessorDoc then setterDoc p tab className s else "") ++ setterCode p tab s

end Scaffold.Template
