import Scaffold.Php.Token.Literal
/-!
Strings with insertions. `insertionSize?` says how far an insertion reaches, by the marks alone and
whatever tokens it holds; `quotedPart` and `heredocPart` read the text up to the next insertion.
-/
namespace Scaffold.Php

/-- An index after a variable, after its opening bracket; a blank breaks it off. -/
def indexSize : Nat → Nat → List Char → Nat
  | _, n, [] => n
  | 0, n, ']' :: _ => n + 1
  | depth + 1, n, ']' :: cs => indexSize depth (n + 1) cs
  | depth, n, '[' :: cs => indexSize (depth + 1) (n + 1) cs
  | depth, n, c :: cs => if isBlankAscii c then n else indexSize depth (n + 1) cs

def variableSize : Nat → List Char → Nat
  | n, '[' :: cs => indexSize 0 (n + 1) cs
  | n, '-' :: '>' :: c :: cs => if isNameStart c then n + 3 + runSize isNameChar cs else n
  | n, '?' :: '-' :: '>' :: c :: cs => if isNameStart c then n + 4 + runSize isNameChar cs else n
  | n, c :: cs => if isNameChar c then variableSize (n + 1) cs else n
  | n, [] => n

def bracesSize : Nat → Nat → List Char → Nat
  | _, n, [] => n
  | 0, n, '}' :: _ => n + 1
  | depth + 1, n, '}' :: cs => bracesSize depth (n + 1) cs
  | depth, n, '{' :: cs => bracesSize (depth + 1) (n + 1) cs
  | depth, n, _ :: cs => bracesSize depth (n + 1) cs

def insertionSize? : List Char → Option Nat
  | '$' :: '{' :: cs => some (bracesSize 0 2 cs)
  | '{' :: '$' :: cs => some (bracesSize 0 2 cs)
  | '$' :: c :: cs => if isNameStart c then some (variableSize 2 cs) else none
  | _ => none

inductive PartEnd where
  | closing
  | insertion (size : Nat)
  | line
  deriving DecidableEq, Repr

structure Part where
  size : Nat
  ending : PartEnd
  deriving DecidableEq, Repr

/-- Text up to a closing quote or an insertion. A backslash hides what follows it; only in double
quotes can it hide another backslash. -/
def quotedPart (close : Char) : Bool → Nat → List Char → Part
  | _, n, [] => ⟨n, .line⟩
  | hidden, n, c :: cs =>
      if hidden then quotedPart close (c == '\\' && close != '\x22') (n + 1) cs
      else if c = close then ⟨n, .closing⟩
      else
        match insertionSize? (c :: cs) with
        | some size => ⟨n, .insertion size⟩
        | none => quotedPart close (c == '\\') (n + 1) cs

def isPlain : List Char → Bool
  | [] => true
  | '\\' :: _ :: cs => isPlain cs
  | c :: cs => c == '\x22' || ((insertionSize? (c :: cs)).isNone && isPlain cs)

def isLabelled (label cs : List Char) : Bool :=
  label.isPrefixOf cs && !(cs.drop label.length).head?.any Char.isAlphanum

/-- Text of a heredoc up to the end of the line, an insertion, or its label. The label counts where
only blanks stand before it in the part. -/
def heredocPart (label : HeredocLabel) : Bool → Bool → Nat → List Char → Part
  | _, _, n, [] => ⟨n, .line⟩
  | _, _, n, '\r' :: '\n' :: _ => ⟨n + 2, .line⟩
  | blank, hidden, n, c :: cs =>
      if c = '\n' || c = '\r' then ⟨n + 1, .line⟩
      else if isBlankAscii c then heredocPart label blank hidden (n + 1) cs
      else
        match (if label.inserts && !hidden then insertionSize? (c :: cs) else none) with
        | some size => ⟨n, .insertion size⟩
        | none =>
            if label.inserts && c = '\\' then heredocPart label false true (n + 1) cs
            else if blank && isLabelled label.text (c :: cs) then
              ⟨n + label.text.length, .closing⟩
            else heredocPart label false false (n + 1) cs

end Scaffold.Php
