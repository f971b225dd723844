/-!
The syntax tree, as far as declarations and throws need it. Expressions keep only what a `throw` can
show of them; statements keep their shape.
-/
namespace Scaffold.Php

inductive Hint where
  | named (text : String)
  | nullable (inner : Hint)
  | union (left right : Hint)
  | intersection (left right : Hint)
  | group (inner : Hint)
  deriving DecidableEq, Repr

inductive Expression where
  | variable (name : String)
  | name (text : String)
  | instance (className : String)
  | throw (thrown : Expression)
  | other
  deriving DecidableEq, Repr

inductive ClassKeyword where
  | plain
  | abstract
  | final
  | interface
  | trait
  | enum
  deriving DecidableEq, Repr

structure Parameter where
  name : String
  hint : Option Hint
  deriving DecidableEq, Repr

inductive Loop where
  | for
  | foreach
  | while
  deriving DecidableEq, Repr

mutual

inductive Statement where
  | expression (e : Expression)
  | block (body : List Statement)
  | conditional (first : Branch) (alternates : List Branch)
  | loop (kind : Loop) (body : Branch)
  | doWhile (body : Statement)
  | switch (cases : List (List Statement))
  | tryCatch (block : List Statement) (catches : List Catch) (finally? : Option (List Statement))
  | declare (body : Branch)
  | classLike (declaration : ClassLike)
  | namespaced (body : List Statement)
  | other

/-- The body of a conditional, loop or directive: one statement, or a list between a colon and the
word that ends the construct. -/
inductive Branch where
  | single (body : Statement)
  | delimited (body : List Statement)

inductive Catch where
  | mk (hint : Hint) (binder? : Option String) (body : List Statement)

/-- `start` and `stop` count bytes from the beginning of the source. -/
inductive ClassLike where
  | mk (keyword : ClassKeyword) (name : String) (members : List Member) (start stop : Nat)

inductive Member where
  | method (name : String) (parameters : List Parameter) (returns : Option Hint)
      (body? : Option (List Statement))
  /-- A property under its first name, without the dollar sign. -/
  | property (name : String) (hint : Option Hint)
  /-- Constants under the first name. -/
  | constant (name : String) (hint : Option Hint)
  | other

end

namespace ClassLike

def keyword : ClassLike → ClassKeyword
  | mk k _ _ _ _ => k

def name : ClassLike → String
  | mk _ n _ _ _ => n

def members : ClassLike → List Member
  | mk _ _ ms _ _ => ms

def start : ClassLike → Nat
  | mk _ _ _ s _ => s

def stop : ClassLike → Nat
  | mk _ _ _ _ s => s

/-- Whether a byte offset falls on the declaration; both ends count. -/
def covers (c : ClassLike) (offset : Nat) : Bool :=
  c.start ≤ offset && offset ≤ c.stop

end ClassLike

structure Program where
  statements : List Statement
  faulty : Bool

mutual

def declaredClasses : List Statement → List ClassLike
  | [] => []
  | s :: ss => s.declaredClasses ++ declaredClasses ss

def Statement.declaredClasses : Statement → List ClassLike
  | .classLike c => [c]
  | .namespaced body => Scaffold.Php.declaredClasses body
  | _ => []

end

end Scaffold.Php
