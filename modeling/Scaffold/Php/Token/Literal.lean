import Scaffold.Text.Scan
/-!
How many characters the literals, casts and comments of PHP source take. Where a closing may be
missing, the answer is nothing if it is. Loops count on from `n`.
-/
namespace Scaffold.Php

def isNameStart (c : Char) : Bool :=
  c.isAlpha || c == '_' || 128 ≤ c.toNat

def isNameChar (c : Char) : Bool :=
  isNameStart c || c.isDigit

def isBlankAscii (c : Char) : Bool :=
  c == ' ' || c == '\n' || c == '\t' || c == '\r' || c == '\x0c'

def isSpace (c : Char) : Bool :=
  isBlankAscii c || c == '\x0b'

def runSize (p : Char → Bool) (cs : List Char) : Nat :=
  (cs.takeWhile p).length

def stringSize? (quote : Char) : Nat → List Char → Option Nat
  | _, [] => none
  | n, '\\' :: _ :: cs => stringSize? quote (n + 2) cs
  | n, c :: cs => if c = quote then some (n + 1) else stringSize? quote (n + 1) cs

structure HeredocLabel where
  text : List Char
  inserts : Bool
  deriving DecidableEq, Repr

def lineEndSize? : List Char → Option Nat
  | '\n' :: _ => some 1
  | '\r' :: '\n' :: _ => some 2
  | _ => none

def heredocOpening? (cs : List Char) : Option (HeredocLabel × Nat) := do
  let gap := runSize isBlankAscii cs
  let cs := cs.drop gap
  let quote : List Char :=
    match cs with
    | '\x27' :: _ => ['\x27']
    | '\x22' :: _ => ['\x22']
    | _ => []
  let cs := cs.drop quote.length
  let c ← cs.head?
  if isNameStart c then
    let label := cs.takeWhile isNameChar
    let rest ← List.isPrefixOf? quote (cs.dropWhile isNameChar)
    let lineEnd ← lineEndSize? rest
    pure (⟨label, quote != ['\x27']⟩,
      gap + quote.length + label.length + quote.length + lineEnd)
  else none

def blockCommentSize? : Nat → List Char → Option Nat
  | _, [] => none
  | n, '*' :: '/' :: _ => some (n + 2)
  | n, _ :: cs => blockCommentSize? (n + 1) cs

/-- A comment up to the end of its line; a closing tag ends it too. -/
def lineCommentSize : Nat → List Char → Nat
  | n, [] => n
  | n, '?' :: '>' :: _ => n
  | n, c :: cs => if c = '\n' || c = '\r' then n else lineCommentSize (n + 1) cs

def isDigitOf (base : Nat) (c : Char) : Bool :=
  if c.isDigit then c.toNat - '0'.toNat < base
  else base = 16 && (('a' ≤ c && c ≤ 'f') || ('A' ≤ c && c ≤ 'F'))

/-- Digits, where a single underscore may stand before each. -/
def digitsSize (base : Nat) : Nat → List Char → Nat
  | n, '_' :: c :: cs => if isDigitOf base c then digitsSize base (n + 2) cs else n
  | n, c :: cs => if isDigitOf base c then digitsSize base (n + 1) cs else n
  | n, [] => n

def exponentSize (cs : List Char) : Nat :=
  match cs with
  | e :: cs =>
      if e = 'e' || e = 'E' then
        let sign :=
          match cs with
          | '+' :: _ | '-' :: _ => 1
          | _ => 0
        let digits := cs.drop sign
        if digits.head?.any Char.isDigit then 1 + sign + digitsSize 10 0 digits else 0
      else 0
  | [] => 0

def decimalSize (cs : List Char) : Nat :=
  let whole := digitsSize 10 0 cs
  match cs.drop whole with
  | '.' :: rest =>
      let fraction := digitsSize 10 0 rest
      whole + 1 + fraction + exponentSize (rest.drop fraction)
  | rest => whole + exponentSize rest

def base? : List Char → Option Nat
  | '0' :: x :: d :: _ =>
      let base :=
        match x.toLower with
        | 'x' => 16
        | 'o' => 8
        | 'b' => 2
        | _ => 0
      if isDigitOf base d then some base else none
  | _ => none

def numberSize (cs : List Char) : Nat :=
  match base? cs with
  | some base => digitsSize base 2 (cs.drop 2)
  | none => decimalSize cs

/-- Whether a number that starts like an octal one is whole and has a digit above seven. -/
def isFalseOctal (cs : List Char) : Bool :=
  match cs with
  | '0' :: d :: _ =>
      let size := digitsSize 10 0 cs
      d.isDigit && numberSize cs == size && (cs.take size).any fun c => c == '8' || c == '9'
  | _ => false

def castNames : List String :=
  ["int", "integer", "bool", "boolean", "float", "double", "real", "string", "binary",
    "array", "object", "unset", "void"]

/-- A cast, after its opening parenthesis. Blanks may stand anywhere in it. -/
def castSize? (cs : List Char) : Option Nat :=
  let inner := cs.takeWhile fun c => isSpace c || c.isAlpha
  let name := (inner.filter fun c => !isSpace c).map Char.toLower
  match cs.drop inner.length with
  | ')' :: _ =>
      if castNames.contains (String.ofList name) then some (inner.length + 1) else none
  | _ => none

end Scaffold.Php
