import Scaffold.Php.Cursor
import Scaffold.Php.Tree
/-!
The grammar by depth. `Rules` holds the readers for constructs that stand inside another one; the
modules beside this one build the readers of one depth from the rules of the depth below.
-/
namespace Scaffold.Php

open Reader

structure Rules where
  /-- The flag says that an operator waits for the expression. -/
  expression : Bool → Reader Expression
  statement : Reader Statement

namespace Grammar

def namesType : Keyword → Bool
  | .array | .callable | .null | .true_ | .false_ | .static | .self | .parent | .enum
  | .from_ => true
  | _ => false

def startsHint : Kind → Bool
  | .mark .question | .mark .openParen | .name | .qualified => true
  | .keyword k => namesType k
  | _ => false

/-- An ampersand before one of these belongs to a parameter, not to its type. -/
def endsHint : Option Kind → Bool
  | some .variable | some (.mark .ellipsis) | some (.mark .ampersand) => true
  | _ => false

/-- A type. `?` takes all that follows, and `|` and `&` group to the right. -/
def hintFrom : Nat → Reader Hint
  | 0 => fail
  | n + 1 => do
      match ← peek with
      | some (.mark .question) =>
          let _ ← advance
          let inner ← hintFrom n
          pure (.nullable inner)
      | some (.mark .openParen) =>
          let _ ← advance
          let inner ← hintFrom n
          let _ ← eat (.mark .closeParen)
          joined n (.group inner)
      | some k =>
          if startsHint k then
            let t ← advance
            joined n (.named t.text)
          else fail
      | none => fail
where
  joined (n : Nat) (left : Hint) : Reader Hint := do
    match ← peek with
    | some (.mark .pipe) =>
        let _ ← advance
        let right ← hintFrom n
        pure (.union left right)
    | some (.mark .ampersand) =>
        if endsHint (← peekSecond) then pure left
        else
          let _ ← advance
          let right ← hintFrom n
          pure (.intersection left right)
    | _ => pure left

def hint : Reader Hint :=
  rounds hintFrom

def hint? : Reader (Option Hint) := do
  match ← peek with
  | some k => if startsHint k then return some (← hint) else return none
  | none => return none

def block (r : Rules) : Reader (List Statement) := do
  let _ ← eat (.mark .openBrace)
  let body ← rounds (recovering peek (· == .mark .closeBrace) r.statement)
  let _ ← eat (.mark .closeBrace)
  pure body

def className : Reader String := do
  match ← peek with
  | some .qualified => return (← advance).text
  | _ => anyName

def argumentName : Reader Unit := do
  match ← peek with
  | some .name | some (.keyword _) =>
      match ← peekSecond with
      | some (.mark .colon) =>
          let _ ← advance
          let _ ← advance
      | _ => pure ()
  | _ => pure ()

def argument (r : Rules) : Reader Unit := do
  if ← eatIf (.mark .ellipsis) then
    let _ ← r.expression false
  else
    argumentName
    let _ ← r.expression false

def arguments (r : Rules) : Reader Unit := do
  let _ ← listed .openParen .closeParen (argument r)

/-- An argument of a call, which may be left open: by a question mark, or by dots for all that
remain. -/
def callArgument (r : Rules) : Reader Unit := do
  match ← peek with
  | some (.mark .ellipsis) =>
      let _ ← advance
      match ← peek with
      | some (.mark .closeParen) | some (.mark .comma) => pure ()
      | _ => let _ ← r.expression false
  | some (.mark .question) => let _ ← advance
  | _ =>
      argumentName
      match ← peek with
      | some (.mark .question) => let _ ← advance
      | _ => let _ ← r.expression false

def callArguments (r : Rules) : Reader Unit := do
  let _ ← listed .openParen .closeParen (callArgument r)

def arguments? (r : Rules) : Reader Unit := do
  match ← peek with
  | some (.mark .openParen) => arguments r
  | _ => pure ()

def attributeItem (r : Rules) : Reader Unit := do
  let _ ← className
  arguments? r

def attributes (r : Rules) : Reader Unit :=
  rounds loop
where
  loop : Nat → Reader Unit
    | 0 => pure ()
    | n + 1 => do
        match ← peek with
        | some (.mark .hashBracket) =>
            let _ ← listed .hashBracket .closeBracket (attributeItem r)
            loop n
        | _ => pure ()

def modifiers : Reader (List Keyword) :=
  rounds loop
where
  loop : Nat → Reader (List Keyword)
    | 0 => pure []
    | n + 1 => do
        match ← peek with
        | some (.keyword k) =>
            if k.isModifier then
              let _ ← advance
              let ks ← loop n
              pure (k :: ks)
            else pure []
        | _ => pure []

end Grammar
end Scaffold.Php
