/-!
The reserved words of PHP. They are read in any case; each keeps its own spelling as a token's text.
-/
namespace Scaffold.Php

inductive Keyword where
  | abstract_ | and_ | array | as_ | break_ | callable | case_ | catch_ | class_ | clone
  | const_ | continue_ | declare_ | default_ | do_ | echo | else_ | elseif_ | empty
  | enddeclare | endfor | endforeach | endif | endswitch | endwhile | enum | eval | exit
  | extends_ | false_ | final_ | finally_ | fn | for_ | foreach_ | from_ | function | global
  | goto_ | haltCompiler | if_ | implements | include_ | instanceof | insteadof | interface
  | isset | list | magic | match_ | namespace_ | new_ | null | or_ | parent | print
  | private_ | privateSet | protected_ | protectedSet | public_ | publicSet | readonly
  | return_ | self | static | switch_ | throw_ | trait | true_ | try_ | unset | use_ | var_
  | while_ | xor_ | yield_
  deriving DecidableEq, Repr

namespace Keyword

/-- Spellings in lower case. The two spellings of `exit`, the five of `include`, and the names
that stand for a place in the source share one keyword each, since they are used alike. -/
def table : List (String × Keyword) := [
  ("abstract", abstract_), ("and", and_), ("array", array), ("as", as_), ("break", break_),
  ("callable", callable), ("case", case_), ("catch", catch_), ("class", class_),
  ("clone", clone), ("const", const_), ("continue", continue_), ("declare", declare_),
  ("default", default_), ("die", exit), ("do", do_), ("echo", echo), ("else", else_),
  ("elseif", elseif_), ("empty", empty), ("enddeclare", enddeclare), ("endfor", endfor),
  ("endforeach", endforeach), ("endif", endif), ("endswitch", endswitch),
  ("endwhile", endwhile), ("enum", enum), ("eval", eval), ("exit", exit),
  ("extends", extends_), ("false", false_), ("final", final_), ("finally", finally_),
  ("fn", fn), ("for", for_), ("foreach", foreach_), ("from", from_), ("function", function),
  ("global", global), ("goto", goto_), ("__halt_compiler", haltCompiler), ("if", if_),
  ("implements", implements), ("include", include_), ("include_once", include_),
  ("instanceof", instanceof), ("insteadof", insteadof), ("interface", interface),
  ("isset", isset), ("list", list), ("match", match_), ("namespace", namespace_),
  ("new", new_), ("null", null), ("or", or_), ("parent", parent), ("print", print),
  ("private", private_), ("protected", protected_), ("public", public_),
  ("readonly", readonly), ("require", include_), ("require_once", include_),
  ("return", return_), ("self", self), ("static", static), ("switch", switch_),
  ("throw", throw_), ("trait", trait), ("true", true_), ("try", try_), ("unset", unset),
  ("use", use_), ("var", var_), ("while", while_), ("xor", xor_), ("yield", yield_),
  ("__class__", magic), ("__dir__", magic), ("__file__", magic), ("__function__", magic),
  ("__line__", magic), ("__method__", magic), ("__namespace__", magic),
  ("__property__", magic), ("__trait__", magic)]

def ofWord? (word : List Char) : Option Keyword :=
  table.lookup (String.ofList (word.map Char.toLower))

/-- The keyword for a visibility that is limited to writing, as in `private(set)`. -/
def forWriting? : Keyword → Option Keyword
  | public_ => some publicSet
  | protected_ => some protectedSet
  | private_ => some privateSet
  | _ => none

def isModifier : Keyword → Bool
  | public_ | protected_ | private_ | publicSet | protectedSet | privateSet
  | static | final_ | abstract_ | readonly => true
  | _ => false

/-- Words that start a statement or a declaration. An expression that runs into one of them has
ended, so the word is left for what it starts. -/
def startsStatement : Keyword → Bool
  | if_ | else_ | elseif_ | while_ | do_ | for_ | foreach_ | switch_ | try_ | catch_
  | finally_ | class_ | interface | trait | enum | function | fn | return_ | break_
  | continue_ | goto_ | declare_ | namespace_ | use_ | const_ | global | abstract_
  | final_ => true
  | _ => false

def isBinary : Keyword → Bool
  | and_ | or_ | xor_ | instanceof => true
  | _ => false

end Keyword
end Scaffold.Php
