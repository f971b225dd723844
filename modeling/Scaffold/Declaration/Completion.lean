import Scaffold.Text.Blank
/-!
Closing an unfinished declaration line, and the source around it, so that it can be parsed alone.
-/
namespace Scaffold

/-- Ends a member that has no semicolon; an open bracket or quote at its end is closed first. -/
def completeMember (line : String) : String :=
  let declaration := Text.trim line
  if declaration.toList.contains ';' then declaration
  else
    match declaration.toList.getLast? with
    | some '[' => declaration ++ "];"
    | some '\x27' => declaration ++ "';"
    | some '\x22' => declaration ++ "\";"
    | _ => declaration ++ ";"

def completeHeader (line : String) : String :=
  let declaration := Text.trim line
  if declaration.toList.contains '{' then declaration ++ " \x7d"
  else declaration ++ " \x7b\x7d"

def memberSource (member : String) : String :=
  "<?php \n class Foo \x7b \n " ++ member ++ " \n \x7d \n"

def headerSource (header : String) : String :=
  "<?php \n " ++ header ++ " \n"

end Scaffold
