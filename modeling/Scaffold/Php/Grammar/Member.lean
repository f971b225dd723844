import Scaffold.Php.Grammar.Basic
/-!
Parameters, members and bodies of class-like declarations.
-/
namespace Scaffold.Php.Grammar

open Reader

def bareName (t : Token) : String :=
  String.ofList (t.text.toList.drop 1)

mutual

def parameter (r : Rules) : Nat → Reader Parameter
  | 0 => fail
  | n + 1 => do
      attributes r
      let _ ← modifiers
      let hint ← hint?
      let _ ← eatIf (.mark .ampersand)
      let _ ← eatIf (.mark .ellipsis)
      let v ← eat .variable
      if ← eatIf (.mark .assign) then
        let _ ← r.expression false
      match ← peek with
      | some (.mark .openBrace) => hooks r n
      | _ => pure ()
      pure ⟨bareName v, hint⟩

def hooks (r : Rules) : Nat → Reader Unit
  | 0 => fail
  | n + 1 => do
      let _ ← eat (.mark .openBrace)
      let _ ← rounds (strictly (· == .mark .closeBrace) (hook r n))
      let _ ← eat (.mark .closeBrace)

def hook (r : Rules) : Nat → Reader Unit
  | 0 => fail
  | n + 1 => do
      attributes r
      let _ ← modifiers
      let _ ← eatIf (.mark .ampersand)
      let _ ← anyName
      match ← peek with
      | some (.mark .openParen) => let _ ← listed .openParen .closeParen (parameter r n)
      | _ => pure ()
      match ← peek with
      | some (.mark .semicolon) => let _ ← advance
      | some (.mark .doubleArrow) =>
          let _ ← advance
          let _ ← r.expression false
          let _ ← eat (.mark .semicolon)
      | _ => let _ ← block r

end

def parameters (r : Rules) : Reader (List Parameter) := do
  listed .openParen .closeParen (parameter r (← bound))

def returns? : Reader (Option Hint) := do
  if ← eatIf (.mark .colon) then return some (← hint) else return none

def method (r : Rules) : Reader Member := do
  let _ ← eat (.keyword .function)
  let _ ← eatIf (.mark .ampersand)
  let name ← anyName
  let ps ← parameters r
  let returns ← returns?
  match ← peek with
  | some (.mark .semicolon) =>
      let _ ← advance
      pure (.method name ps returns none)
  | _ =>
      let body ← block r
      pure (.method name ps returns (some body))

def constantItem (r : Rules) : Reader String := do
  let name ← anyName
  let _ ← eat (.mark .assign)
  let _ ← r.expression false
  pure name

def firstConstant (hint : Option Hint) : List String → Member
  | name :: _ => .constant name hint
  | [] => .other

/-- Class constants. They have a type unless the second token already ends or assigns. -/
def constants (r : Rules) : Reader Member := do
  let _ ← eat (.keyword .const_)
  let second ← peekSecond
  let hint ←
    if second = some (.mark .assign) || second = some (.mark .semicolon)
        || second = some .closeTag then
      pure none
    else some <$> hint
  let names ← rounds (separatedUntil isTerminator (constantItem r))
  terminator
  pure (firstConstant hint names)

def enumCase (r : Rules) : Reader Member := do
  let _ ← eat (.keyword .case_)
  let _ ← anyName
  if ← eatIf (.mark .assign) then
    let _ ← r.expression false
  terminator
  pure .other

def methodAlias : Reader Unit := do
  let _ ← eat (.keyword .as_)
  match ← peek with
  | some (.keyword .public_) | some (.keyword .protected_) | some (.keyword .private_) =>
      let _ ← advance
  | _ => pure ()
  match ← peek with
  | none => fail
  | some k => if isTerminator k then pure () else let _ ← anyName

/-- One rule on how the methods of used traits are named. Only a method that is named with its
trait can take precedence over others. -/
def adaptation : Reader Unit := do
  match ← peekSecond with
  | some (.mark .doubleColon) =>
      let _ ← className
      let _ ← advance
      let _ ← anyName
      match ← peek with
      | some (.keyword .as_) => methodAlias
      | _ =>
          let _ ← eat (.keyword .insteadof)
          let _ ← rounds (separated className)
  | _ =>
      let _ ← anyName
      methodAlias
  terminator

def traitUse : Reader Member := do
  let _ ← eat (.keyword .use_)
  let _ ← rounds (separatedUntil (fun k => k == .mark .openBrace || isTerminator k) className)
  match ← peek with
  | some (.mark .openBrace) =>
      let _ ← advance
      let _ ← rounds (strictly (· == .mark .closeBrace) adaptation)
      let _ ← eat (.mark .closeBrace)
      pure .other
  | _ =>
      terminator
      pure .other

def propertyItem (r : Rules) : Reader String := do
  let v ← eat .variable
  if ← eatIf (.mark .assign) then
    let _ ← r.expression false
  pure (bareName v)

def property (r : Rules) : Reader Member := do
  let _ ← eatIf (.keyword .var_)
  let hint ← hint?
  let name ← propertyItem r
  match ← peek with
  | some (.mark .openBrace) => hooks r (← bound)
  | some (.mark .comma) =>
      let _ ← advance
      let _ ← rounds (separated (propertyItem r))
      terminator
  | _ => terminator
  pure (.property name hint)

def memberDeclared (r : Rules) : Reader Member := do
  match ← peek with
  | some (.keyword .case_) => enumCase r
  | _ =>
      let _ ← modifiers
      match ← peek with
      | some (.keyword .const_) => constants r
      | some (.keyword .function) => method r
      | _ => property r

def member (r : Rules) : Reader Member := do
  match ← peek with
  | some (.keyword .use_) => traitUse
  | _ =>
      attributes r
      memberDeclared r

def classBody (r : Rules) : Reader (List Member × Nat) := do
  let _ ← eat (.mark .openBrace)
  let ms ← rounds (recovering peek (· == .mark .closeBrace) (member r))
  let close ← eat (.mark .closeBrace)
  pure (ms, close.stop)

def parents (word : Keyword) : Reader Unit := do
  if ← eatIf (.keyword word) then
    let _ ← rounds (separated className)

def anonymousClass (r : Rules) : Reader Unit := do
  attributes r
  let _ ← modifiers
  let _ ← eat (.keyword .class_)
  arguments? r
  parents .extends_
  parents .implements
  let _ ← classBody r

end Scaffold.Php.Grammar
