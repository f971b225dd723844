import Scaffold.UnionType
/-!
The shape of a method body, as far as its throws go, and the names that it throws.
-/
namespace Scaffold

inductive Raised where
  | new (className : String)
  | variable (name : String)
  | unknown
  deriving DecidableEq, Repr

inductive ThrowTree where
  | block (body : List ThrowTree)
  | conditional (first : List ThrowTree) (alternates : List (List ThrowTree))
  | tryCatch (block : List ThrowTree) (handlers : List (List String × Option String × List ThrowTree))
      (last : List ThrowTree)
  | throw (target : Raised)
  | other

namespace ThrowTree

instance : Inhabited ThrowTree := ⟨other⟩

def raised : Php.Expression → Raised
  | .instance c => .new c
  | .variable v => .variable v
  | _ => .unknown

mutual

def ofStatement : Php.Statement → ThrowTree
  | .expression (.throw e) => .throw (raised e)
  | .block body => .block (ofStatements body)
  | .conditional first alternates => .conditional (ofBranch first) (ofBranches alternates)
  | .loop _ body => .block (ofBranch body)
  | .doWhile body => .block [ofStatement body]
  | .tryCatch body catches none => .tryCatch (ofStatements body) (ofCatches catches) []
  | .tryCatch body catches (some last) =>
      .tryCatch (ofStatements body) (ofCatches catches) (ofStatements last)
  | _ => .other

def ofStatements : List Php.Statement → List ThrowTree
  | [] => []
  | s :: ss => ofStatement s :: ofStatements ss

def ofBranch : Php.Branch → List ThrowTree
  | .single body => [ofStatement body]
  | .delimited body => ofStatements body

def ofBranches : List Php.Branch → List (List ThrowTree)
  | [] => []
  | b :: bs => ofBranch b :: ofBranches bs

def ofCatches : List Php.Catch → List (List String × Option String × List ThrowTree)
  | [] => []
  | .mk hint v body :: cs => (hint.toUnion.members, v, ofStatements body) :: ofCatches cs

end

end ThrowTree

/-- The state of a walk: the handlers' variables with their types, innermost first, and the names
thrown so far. -/
structure ThrowWalk where
  bindings : List (String × List String) := []
  found : List String := []
  deriving DecidableEq, Repr

namespace ThrowWalk

def add (w : ThrowWalk) (name : String) : ThrowWalk :=
  if w.found.contains name then w else { w with found := w.found ++ [name] }

def bind (w : ThrowWalk) (name : String) (types : List String) : ThrowWalk :=
  { w with bindings := (name, types) :: w.bindings }

def unbind (w : ThrowWalk) : ThrowWalk :=
  { w with bindings := w.bindings.tail }

def raise (w : ThrowWalk) : Raised → ThrowWalk
  | .new name => w.add name
  | .variable name => ((w.bindings.lookup name).getD []).foldl add w
  | .unknown => w

mutual

def visit (w : ThrowWalk) : ThrowTree → ThrowWalk
  | .throw t => w.raise t
  | .block body => visitAll w body
  | .conditional first alternates => visitBranches (visitAll w first) alternates
  | .tryCatch block handlers last => visitAll (visitHandlers (visitAll w block) handlers) last
  | .other => w

def visitAll (w : ThrowWalk) : List ThrowTree → ThrowWalk
  | [] => w
  | n :: ns => visitAll (visit w n) ns

def visitBranches (w : ThrowWalk) : List (List ThrowTree) → ThrowWalk
  | [] => w
  | b :: bs => visitBranches (visitAll w b) bs

def visitHandlers (w : ThrowWalk) :
    List (List String × Option String × List ThrowTree) → ThrowWalk
  | [] => w
  | (types, some v, body) :: hs => visitHandlers (visitAll (w.bind v types) body).unbind hs
  | (_, none, body) :: hs => visitHandlers (visitAll w body) hs

end

end ThrowWalk

/-- The distinct names that a body throws, in the order of their first throw. A variable throws the
types of the innermost handler that binds it. -/
def throwsOf (body : List ThrowTree) : List String :=
  (ThrowWalk.visitAll {} body).found

end Scaffold
