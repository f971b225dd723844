import Scaffold.Php.Grammar.Member
/-!
Expressions. An expression is a chain of units with operators between them; a unit is an operand
with what stands before and after it. How tightly operators bind does not matter here, since only
whole expressions are told apart.
-/
namespace Scaffold.Php.Grammar

open Reader

/-- An operand that cannot be one. The token stays if it starts a statement, or if it closes
something while an operator waits; otherwise it is dropped. -/
def misplaced (waiting : Bool) : Reader Expression := do
  match ← peek with
  | none => fail
  | some (.keyword k) =>
      if k.startsStatement then note else let _ ← advance; note
  | some (.mark .closeParen) | some (.mark .closeBracket) | some (.mark .closeBrace)
  | some (.mark .comma) =>
      if waiting then note else let _ ← advance; note
  | some _ => let _ ← advance; note
  pure .other

def anyVariable (r : Rules) : Nat → Reader Unit
  | 0 => fail
  | n + 1 => do
      match ← peek with
      | some .variable => let _ ← advance
      | some (.mark .dollarBrace) =>
          let _ ← advance
          let _ ← r.expression false
          let _ ← eat (.mark .closeBrace)
      | some (.mark .dollar) =>
          let _ ← advance
          anyVariable r n
      | _ => fail

def selector (r : Rules) : Reader Unit := do
  match ← peek with
  | none => fail
  | some .name | some (.keyword _) => let _ ← advance
  | some .variable | some (.mark .dollar) | some (.mark .dollarBrace) => rounds (anyVariable r)
  | some (.mark .openBrace) =>
      let _ ← advance
      let _ ← r.expression false
      let _ ← eat (.mark .closeBrace)
  | some _ => note

def trailing (r : Rules) (calls : Bool) : Nat → Expression → Reader Expression
  | 0, e => pure e
  | n + 1, e => do
      match ← peek with
      | some (.mark .openBracket) =>
          let _ ← advance
          match ← peek with
          | some (.mark .closeBracket) => pure ()
          | _ => let _ ← r.expression false
          let _ ← eat (.mark .closeBracket)
          trailing r calls n .other
      | some (.mark .arrow) | some (.mark .nullArrow) | some (.mark .doubleColon) =>
          let _ ← advance
          selector r
          trailing r calls n .other
      | some (.mark .openParen) =>
          if calls then
            callArguments r
            trailing r calls n .other
          else pure e
      | some (.mark .step) =>
          if calls then
            let _ ← advance
            trailing r calls n .other
          else pure e
      | _ => pure e

def element (r : Rules) : Reader Unit := do
  match ← peek with
  | some (.mark .comma) => pure ()
  | some (.mark .ellipsis) =>
      let _ ← advance
      let _ ← r.expression false
  | _ =>
      let _ ← r.expression false
      if ← eatIf (.mark .doubleArrow) then
        let _ ← r.expression false

def conditions (r : Rules) : Nat → Reader Unit
  | 0 => fail
  | n + 1 => do
      match ← peek with
      | some (.mark .doubleArrow) => pure ()
      | _ =>
          let _ ← r.expression false
          if ← eatIf (.mark .comma) then conditions r n

def matchArm (r : Rules) : Reader Unit := do
  match ← peek with
  | some (.keyword .default_) => let _ ← advance
  | _ => rounds (conditions r)
  let _ ← eat (.mark .doubleArrow)
  let _ ← r.expression false

def captured : Reader Unit := do
  let _ ← eatIf (.mark .ampersand)
  let _ ← eat .variable

def closure (r : Rules) : Reader Unit := do
  let word ← advance
  let _ ← eatIf (.mark .ampersand)
  let _ ← parameters r
  if word.kind = .keyword .fn then
    let _ ← returns?
    let _ ← eat (.mark .doubleArrow)
    let _ ← r.expression false
  else
    if ← eatIf (.keyword .use_) then
      let _ ← listed .openParen .closeParen captured
    let _ ← returns?
    let _ ← block r

def attributedClosure (r : Rules) : Reader Unit := do
  let _ ← eatIf (.keyword .static)
  match ← peek with
  | some (.keyword .fn) | some (.keyword .function) => closure r
  | _ => fail

def endsYield : Option Kind → Bool
  | none | some .closeTag | some (.mark .semicolon) | some (.mark .comma)
  | some (.mark .closeParen) | some (.mark .closeBracket) | some (.mark .closeBrace) => true
  | _ => false

def parts (r : Rules) (close : Mark) : Nat → Reader Unit
  | 0 => fail
  | n + 1 => do
      match ← peek with
      | none => fail
      | some .part =>
          let _ ← advance
          parts r close n
      | some (.mark .openBrace) =>
          let _ ← advance
          let _ ← r.expression false
          let _ ← eat (.mark .closeBrace)
          parts r close n
      | some k =>
          if k = .mark close then let _ ← advance
          else
            let _ ← r.expression false
            parts r close n

def template (r : Rules) (close : Mark) : Reader Expression := do
  let _ ← advance
  rounds (parts r close)
  pure .other

def opensAnonymous (k : Kind) : Bool :=
  match k with
  | .keyword .class_ | .mark .hashBracket => true
  | .keyword k => k.isModifier
  | _ => false

def instantiation (r : Rules) (target : Reader Expression) : Reader Expression := do
  let _ ← advance
  let isAnonymous ←
    match ← peek with
    | none | some (.keyword .static) => pure false
    | some k => pure (opensAnonymous k)
  if isAnonymous then
    anonymousClass r
    pure .other
  else
    let made ← target
    arguments? r
    match made with
    | .name text => pure (.instance text)
    | _ => pure .other

def parenthesized (r : Rules) : Reader Unit := do
  let _ ← eat (.mark .openParen)
  let _ ← r.expression false
  let _ ← eat (.mark .closeParen)

def reservedOperand (r : Rules) (target : Reader Expression) (waiting : Bool) (k : Keyword) :
    Reader Expression := do
  match k with
  | .true_ | .false_ | .null | .magic | .self | .parent =>
      let _ ← advance
      pure .other
  | .from_ | .readonly | .enum =>
      let t ← advance
      pure (.name t.text)
  | .new_ => instantiation r target
  | .throw_ =>
      let _ ← advance
      let e ← r.expression false
      pure (.throw e)
  | .clone =>
      let _ ← advance
      match ← peek with
      | some (.mark .openParen) => callArguments r
      | _ => let _ ← r.expression true
      pure .other
  | .print | .include_ =>
      let _ ← advance
      let _ ← r.expression true
      pure .other
  | .yield_ =>
      let _ ← advance
      if ← eatIf (.keyword .from_) then
        let _ ← r.expression false
      else if endsYield (← peek) then pure ()
      else
        let _ ← r.expression false
        if ← eatIf (.mark .doubleArrow) then
          let _ ← r.expression false
      pure .other
  | .isset =>
      let _ ← advance
      let _ ← listed .openParen .closeParen (r.expression false)
      pure .other
  | .empty | .eval =>
      let _ ← advance
      parenthesized r
      pure .other
  | .exit =>
      let _ ← advance
      arguments? r
      pure .other
  | .array =>
      match ← peekSecond with
      | some (.mark .openParen) =>
          let _ ← advance
          let _ ← listed .openParen .closeParen (element r)
          pure .other
      | _ => misplaced waiting
  | .list =>
      let t ← advance
      match ← peek with
      | some (.mark .openParen) =>
          let _ ← listed .openParen .closeParen (element r)
          pure .other
      | _ => pure (.name t.text)
  | .match_ =>
      let t ← advance
      match ← peek with
      | some (.mark .openParen) =>
          parenthesized r
          let _ ← listed .openBrace .closeBrace (matchArm r)
          pure .other
      | _ => pure (.name t.text)
  | .fn | .function =>
      closure r
      pure .other
  | .static =>
      let _ ← advance
      match ← peek with
      | some (.keyword .fn) | some (.keyword .function) => closure r
      | _ => pure ()
      pure .other
  | _ => misplaced waiting

def operand (r : Rules) (target : Reader Expression) (waiting : Bool) : Reader Expression := do
  match ← peek with
  | none => fail
  | some .variable =>
      let t ← advance
      pure (.variable t.text)
  | some (.mark .dollar) | some (.mark .dollarBrace) =>
      rounds (anyVariable r)
      pure .other
  | some .literal =>
      let _ ← advance
      pure .other
  | some .unclosed =>
      let _ ← advance
      fail
  | some (.mark .doubleQuote) => template r .doubleQuote
  | some (.mark .backtick) => template r .backtick
  | some (.mark .heredoc) => template r .heredocEnd
  | some .name | some .qualified =>
      let t ← advance
      pure (.name t.text)
  | some (.mark .openParen) =>
      parenthesized r
      pure .other
  | some (.mark .openBracket) =>
      let _ ← listed .openBracket .closeBracket (element r)
      pure .other
  | some (.mark .hashBracket) =>
      attributes r
      attributedClosure r
      pure .other
  | some (.keyword k) => reservedOperand r target waiting k
  | some _ => misplaced waiting

def standsBefore : Kind → Bool
  | .unary | .mark .sign | .mark .step | .mark .ampersand => true
  | _ => false

/-- An operand with the operators before it and the parts after it. Calls are parts of it only if
`calls` is set, unless an operator stands before them. -/
def unitFrom (r : Rules) : Nat → Bool → Bool → Reader Expression
  | 0, _, _ => fail
  | n + 1, calls, waiting => do
      match ← peek with
      | none => fail
      | some k =>
          if standsBefore k then
            let _ ← advance
            let _ ← nested (unitFrom r n true true)
            pure .other
          else
            let e ← operand r (nested (unitFrom r n false true)) waiting
            rounds fun m => trailing r calls m e

def unit (r : Rules) (waiting : Bool) : Reader Expression :=
  rounds fun n => unitFrom r n true waiting

def standsBetween : Kind → Bool
  | .binary | .mark .assign | .mark .ampersand | .mark .pipe | .mark .sign => true
  | .keyword k => k.isBinary
  | _ => false

def chain (r : Rules) : Nat → Expression → Reader Expression
  | 0, e => pure e
  | n + 1, e => do
      match ← peek with
      | none => pure e
      | some (.mark .question) =>
          let _ ← advance
          match ← peek with
          | some (.mark .colon) => pure ()
          | _ => let _ ← r.expression false
          let _ ← eat (.mark .colon)
          let _ ← nested (unit r true)
          chain r n .other
      | some k =>
          if standsBetween k then
            let _ ← advance
            let _ ← nested (unit r true)
            chain r n .other
          else pure e

def expression (r : Rules) (waiting : Bool) : Reader Expression :=
  nested do
    let e ← unit r waiting
    rounds fun n => chain r n e

end Scaffold.Php.Grammar
