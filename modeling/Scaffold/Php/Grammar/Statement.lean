import Scaffold.Php.Grammar.Expression
/-!
Statements and the declarations that stand among them.
-/
namespace Scaffold.Php.Grammar

open Reader

def delimited (r : Rules) (stops : Keyword → Bool) : Reader (List Statement) :=
  rounds (strictly stop r.statement)
where
  stop : Kind → Bool
    | .keyword k => stops k
    | _ => false

def loopBody (r : Rules) (last : Keyword) : Reader Branch := do
  if ← eatIf (.mark .colon) then
    let body ← delimited r (· == last)
    let _ ← eat (.keyword last)
    terminator
    pure (.delimited body)
  else
    let body ← r.statement
    pure (.single body)

def singleAlternates (r : Rules) : Nat → Reader (List Branch)
  | 0 => pure []
  | n + 1 => do
      match ← peek with
      | some (.keyword .elseif_) =>
          let _ ← advance
          parenthesized r
          let body ← r.statement
          let rest ← singleAlternates r n
          pure (.single body :: rest)
      | some (.keyword .else_) =>
          let _ ← advance
          let body ← r.statement
          pure [.single body]
      | _ => pure []

def endsBranch : Keyword → Bool
  | .elseif_ | .else_ | .endif => true
  | _ => false

def delimitedAlternates (r : Rules) : Nat → Reader (List Branch)
  | 0 => pure []
  | n + 1 => do
      match ← peek with
      | some (.keyword .elseif_) =>
          let _ ← advance
          parenthesized r
          let _ ← eat (.mark .colon)
          let body ← delimited r endsBranch
          let rest ← delimitedAlternates r n
          pure (.delimited body :: rest)
      | some (.keyword .else_) =>
          let _ ← advance
          let _ ← eat (.mark .colon)
          let body ← delimited r (· == .endif)
          pure [.delimited body]
      | _ => pure []

def conditional (r : Rules) : Reader Statement := do
  let _ ← eat (.keyword .if_)
  parenthesized r
  if ← eatIf (.mark .colon) then
    let first ← delimited r endsBranch
    let alternates ← rounds (delimitedAlternates r)
    let _ ← eat (.keyword .endif)
    terminator
    pure (.conditional (.delimited first) alternates)
  else
    let first ← r.statement
    let alternates ← rounds (singleAlternates r)
    pure (.conditional (.single first) alternates)

def whileLoop (r : Rules) : Reader Statement := do
  let _ ← eat (.keyword .while_)
  parenthesized r
  let body ← loopBody r .endwhile
  pure (.loop .while body)

def doWhile (r : Rules) : Reader Statement := do
  let _ ← eat (.keyword .do_)
  let body ← r.statement
  let _ ← eat (.keyword .while_)
  parenthesized r
  terminator
  pure (.doWhile body)

def expressionsUntil (r : Rules) (close : Mark) : Nat → Reader Unit
  | 0 => fail
  | n + 1 => do
      match ← peek with
      | none => fail
      | some k =>
          if k = .mark close then pure ()
          else
            let _ ← r.expression false
            if ← eatIf (.mark .comma) then expressionsUntil r close n

def forLoop (r : Rules) : Reader Statement := do
  let _ ← eat (.keyword .for_)
  let _ ← eat (.mark .openParen)
  rounds (expressionsUntil r .semicolon)
  let _ ← eat (.mark .semicolon)
  rounds (expressionsUntil r .semicolon)
  let _ ← eat (.mark .semicolon)
  rounds (expressionsUntil r .closeParen)
  let _ ← eat (.mark .closeParen)
  let body ← loopBody r .endfor
  pure (.loop .for body)

def foreachLoop (r : Rules) : Reader Statement := do
  let _ ← eat (.keyword .foreach_)
  let _ ← eat (.mark .openParen)
  let _ ← r.expression false
  let _ ← eat (.keyword .as_)
  let _ ← r.expression false
  if ← eatIf (.mark .doubleArrow) then
    let _ ← r.expression false
  let _ ← eat (.mark .closeParen)
  let body ← loopBody r .endforeach
  pure (.loop .foreach body)

def endsSwitch (k : Kind) : Bool :=
  k == .keyword .endswitch || k == .mark .closeBrace

def cases (r : Rules) : Nat → Reader (List (List Statement))
  | 0 => fail
  | n + 1 => do
      match ← peek with
      | none => fail
      | some (.keyword .default_) =>
          let _ ← advance
          body n
      | some k =>
          if endsSwitch k then pure []
          else
            let _ ← eat (.keyword .case_)
            let _ ← r.expression false
            body n
where
  body (n : Nat) : Reader (List (List Statement)) := do
    let separator ← advance
    if separator.kind = .mark .colon || separator.kind = .mark .semicolon then
      let first ← rounds (strictly stops r.statement)
      let rest ← cases r n
      pure (first :: rest)
    else fail
  stops (k : Kind) : Bool :=
    k == .keyword .case_ || k == .keyword .default_ || endsSwitch k

def switch (r : Rules) : Reader Statement := do
  let _ ← eat (.keyword .switch_)
  parenthesized r
  if ← eatIf (.mark .colon) then
    terminator?
    let cs ← rounds (cases r)
    let _ ← eat (.keyword .endswitch)
    terminator
    pure (.switch cs)
  else
    let _ ← eat (.mark .openBrace)
    terminator?
    let cs ← rounds (cases r)
    let _ ← eat (.mark .closeBrace)
    pure (.switch cs)

def catches (r : Rules) : Nat → Reader (List Catch)
  | 0 => pure []
  | n + 1 => do
      if ← eatIf (.keyword .catch_) then
        let _ ← eat (.mark .openParen)
        let hint ← hint
        let binder? ←
          match ← peek with
          | some .variable => some <$> Token.text <$> advance
          | _ => pure none
        let _ ← eat (.mark .closeParen)
        let body ← block r
        let rest ← catches r n
        pure (.mk hint binder? body :: rest)
      else pure []

def tryCatch (r : Rules) : Reader Statement := do
  let _ ← eat (.keyword .try_)
  let body ← block r
  let cs ← rounds (catches r)
  if ← eatIf (.keyword .finally_) then
    let last ← block r
    pure (.tryCatch body cs (some last))
  else pure (.tryCatch body cs none)

def importItem : Reader Unit := do
  let _ ← className
  if ← eatIf (.keyword .as_) then
    let _ ← anyName

def importKind? : Reader Unit := do
  match ← peek with
  | some (.keyword .function) | some (.keyword .const_) => let _ ← advance
  | _ => pure ()

def importGroup (item : Reader Unit) : Reader Unit := do
  let _ ← className
  let _ ← eat (.mark .backslash)
  let _ ← listed .openBrace .closeBrace item

def importList : Reader Unit := do
  let _ ← rounds (separatedUntil isTerminator importItem)

def imports : Reader Statement := do
  let _ ← eat (.keyword .use_)
  match ← peek with
  | none => fail
  | some (.keyword .function) | some (.keyword .const_) =>
      let third ← peekThird
      let _ ← advance
      if third = some (.mark .backslash) then importGroup importItem else importList
  | some _ =>
      if (← peekSecond) = some (.mark .backslash) then
        importGroup do
          importKind?
          importItem
      else importList
  terminator
  pure .other

def constantStatement (r : Rules) : Reader Statement := do
  let _ ← eat (.keyword .const_)
  let _ ← rounds (separatedUntil isTerminator (constantItem r))
  terminator
  pure .other

def functionStatement (r : Rules) : Reader Statement := do
  let _ ← eat (.keyword .function)
  let _ ← eatIf (.mark .ampersand)
  let _ ← anyName
  let _ ← parameters r
  let _ ← returns?
  let _ ← block r
  pure .other

def leaving (r : Rules) : Reader Statement := do
  let _ ← advance
  match ← peek with
  | some (.mark .semicolon) | some .closeTag => pure ()
  | _ => let _ ← r.expression false
  terminator
  pure .other

def listing {α : Type} (item : Reader α) : Reader Statement := do
  let _ ← advance
  let _ ← rounds (separatedUntil isTerminator item)
  terminator
  pure .other

def echo (r : Rules) : Reader Statement :=
  listing (r.expression false)

def global (r : Rules) : Reader Statement :=
  listing (rounds (anyVariable r))

def staticVariables (r : Rules) : Reader Statement :=
  listing (propertyItem r)

def unset (r : Rules) : Reader Statement := do
  let _ ← advance
  let _ ← listed .openParen .closeParen (r.expression false)
  terminator
  pure .other

def goto (_ : Rules) : Reader Statement := do
  let _ ← advance
  let _ ← anyName
  terminator
  pure .other

def declare (r : Rules) : Reader Statement := do
  let _ ← advance
  let _ ← listed .openParen .closeParen (constantItem r)
  let body ← loopBody r .enddeclare
  pure (.declare body)

def haltCompiler : Reader Statement := do
  let _ ← advance
  let _ ← eat (.mark .openParen)
  let _ ← eat (.mark .closeParen)
  terminator
  pure .other

def namespaceBody (r : Rules) : Reader (List Statement) := do
  match ← peek with
  | some (.mark .openBrace) => block r
  | _ =>
      terminator
      rounds (recovering peek (· == .keyword .namespace_) r.statement)

def namespaced (r : Rules) : Reader Statement := do
  let _ ← eat (.keyword .namespace_)
  match ← peek with
  | some (.mark .openBrace) | some (.mark .semicolon) | some .closeTag => pure ()
  | _ => let _ ← className
  let body ← namespaceBody r
  pure (.namespaced body)

def declaredKeyword (mods : List Keyword) : Kind → ClassKeyword
  | .keyword .class_ =>
      if mods.contains .abstract_ then .abstract
      else if mods.contains .final_ then .final else .plain
  | .keyword .interface => .interface
  | .keyword .trait => .trait
  | _ => .enum

def heritage : ClassKeyword → Reader Unit
  | .interface => parents .extends_
  | .trait => pure ()
  | .enum => do
      let _ ← returns?
      parents .implements
  | _ => do
      parents .extends_
      parents .implements

def classLike (r : Rules) (start : Nat) (mods : List Keyword) : Reader Statement := do
  let word ← advance
  let keyword := declaredKeyword mods word.kind
  let name ← anyName
  heritage keyword
  let (ms, stop) ← classBody r
  pure (.classLike (.mk keyword name ms start stop))

def expressionStatement (r : Rules) : Reader Statement := do
  let e ← expression r false
  terminator
  pure (.expression e)

def namesEnum : Option Kind → Bool
  | some .name | some (.keyword _) => true
  | _ => false

def opensClosure : Option Kind → Option Kind → Bool
  | some (.mark .openParen), _ | some (.mark .ampersand), some (.mark .openParen) => true
  | _, _ => false

def functionOrClosure (r : Rules) : Reader Statement := do
  if opensClosure (← peekSecond) (← peekThird) then expressionStatement r
  else functionStatement r

def modifiedClass (r : Rules) (start : Nat) : Reader Statement := do
  let mods ← modifiers
  match ← peek with
  | some (.keyword .class_) => classLike r start mods
  | _ => fail

def continuesClass : Option Kind → Bool
  | some (.keyword .class_) | some (.keyword .abstract_) | some (.keyword .final_)
  | some (.keyword .readonly) => true
  | _ => false

def declared (r : Rules) (start : Nat) : Reader Statement := do
  match ← peek with
  | some (.keyword .class_) | some (.keyword .interface) | some (.keyword .trait)
  | some (.keyword .enum) => classLike r start []
  | some (.keyword .function) => functionOrClosure r
  | some (.keyword .fn) => expressionStatement r
  | some (.keyword .const_) => constantStatement r
  | some (.keyword .static) =>
      match ← peekSecond with
      | some (.keyword .fn) | some (.keyword .function) => expressionStatement r
      | _ => modifiedClass r start
  | some (.keyword k) => if k.isModifier then modifiedClass r start else fail
  | _ => fail

def reservedStatement (r : Rules) (k : Keyword) : Reader Statement := do
  match k with
  | .namespace_ => namespaced r
  | .use_ => imports
  | .const_ => constantStatement r
  | .class_ | .interface | .trait => classLike r (← nextStart) []
  | .enum =>
      if namesEnum (← peekSecond) then classLike r (← nextStart) [] else expressionStatement r
  | .function => functionOrClosure r
  | .if_ => conditional r
  | .switch_ => switch r
  | .while_ => whileLoop r
  | .do_ => doWhile r
  | .for_ => forLoop r
  | .foreach_ => foreachLoop r
  | .try_ => tryCatch r
  | .return_ | .break_ | .continue_ => leaving r
  | .echo => echo r
  | .global => global r
  | .unset => unset r
  | .goto_ => goto r
  | .declare_ => declare r
  | .haltCompiler => haltCompiler
  | _ =>
      if k.isModifier then
        match ← peekSecond with
        | some .variable => if k = .static then staticVariables r else expressionStatement r
        | second =>
            if continuesClass second then modifiedClass r (← nextStart)
            else expressionStatement r
      else expressionStatement r

def statement (r : Rules) : Reader Statement := do
  match ← peek with
  | none => fail
  | some .inlineText | some .openTag | some .closeTag | some (.mark .semicolon) =>
      let _ ← advance
      pure .other
  | some .echoTag => echo r
  | some (.mark .openBrace) =>
      let body ← block r
      pure (.block body)
  | some (.mark .hashBracket) =>
      let start ← nextStart
      attributes r
      declared r start
  | some (.keyword k) => reservedStatement r k
  | some .name =>
      match ← peekSecond with
      | some (.mark .colon) =>
          let _ ← advance
          let _ ← advance
          pure .other
      | _ => expressionStatement r
  | _ => expressionStatement r

end Scaffold.Php.Grammar
