import Scaffold.Php.Token
import Scaffold.Php.Token.Template
/-!
Cutting PHP source into tokens. `Lexeme.next` reads one lexeme; `items` reads them all, and leaves
out blanks and comments. The tokens of an insertion are held back until it ends, because one that
breaks off takes them along.
-/
namespace Scaffold.Php

/-- What the scan stands in: text outside the tags, code, a string or command that ends at a quote,
a heredoc, the three tokens after the word that ends the code, or the data after them. -/
inductive Mode where
  | text
  | code
  | quoted (close : Char)
  | heredoc (label : HeredocLabel)
  | ending (left : Nat)
  | data
  deriving DecidableEq, Repr

inductive Yield where
  | nothing
  | token (kind : Kind)
  | fault
  | jam
  deriving DecidableEq, Repr

structure Lexeme where
  yield : Yield
  mode : Mode
  size : Nat
  insertion? : Option Nat
  deriving Repr

def textSize : Nat → List Char → Nat
  | n, [] => n
  | n, '<' :: '?' :: _ => n
  | n, _ :: cs => textSize (n + 1) cs

namespace Lexeme

def openTag? : List Char → Option (Kind × Nat)
  | '<' :: '?' :: '=' :: _ => some (.echoTag, 3)
  | '<' :: '?' :: p :: h :: q :: _ =>
      if [p.toLower, h.toLower, q.toLower] = ['p', 'h', 'p'] then some (.openTag, 5)
      else some (.openTag, 2)
  | '<' :: '?' :: _ => some (.openTag, 2)
  | _ => none

def ofText (cs : List Char) : Lexeme :=
  match openTag? cs with
  | some (kind, size) => ⟨.token kind, .code, size, none⟩
  | none => ⟨.token .inlineText, .text, textSize 0 cs, none⟩

def namePartsSize : Nat → List Char → Nat
  | n, [] => n
  | n, '\\' :: c :: cs => if isNameStart c then namePartsSize (n + 2) cs else n
  | n, c :: cs => if isNameChar c then namePartsSize (n + 1) cs else n

def startsPart : List Char → Bool
  | '\\' :: c :: _ => isNameStart c
  | _ => false

def startsSet : List Char → Bool
  | '(' :: s :: e :: t :: ')' :: _ => [s.toLower, e.toLower, t.toLower] = ['s', 'e', 't']
  | _ => false

def plain (kind : Kind) (size : Nat) : Lexeme :=
  ⟨.token kind, .code, size, none⟩

def skipped (size : Nat) : Lexeme :=
  ⟨.nothing, .code, size, none⟩

def ofWord (cs : List Char) : Lexeme :=
  let word := cs.takeWhile isNameChar
  let size := word.length
  let rest := cs.dropWhile isNameChar
  if startsPart rest then plain .qualified (namePartsSize size rest)
  else
    match Keyword.ofWord? word with
    | none => plain .name size
    | some .haltCompiler => ⟨.token (.keyword .haltCompiler), .ending 2, size, none⟩
    | some k =>
        match k.forWriting?, startsSet rest with
        | some k', true => plain (.keyword k') (size + 5)
        | _, _ => plain (.keyword k) size

def ofMark (cs : List Char) : Lexeme :=
  match Mark.table.find? fun (m, _) => m.isPrefixOf cs with
  | some (m, k) => plain k m.length
  | none => ⟨.fault, .code, 1, none⟩

def ofString (quote : Char) (start : Nat) (cs : List Char) : Lexeme :=
  match stringSize? quote start cs with
  | some size => plain .literal size
  | none => plain .unclosed (start + cs.length)

def ofOpening? (start : Nat) : List Char → Option Lexeme
  | '\x27' :: cs => some (ofString '\x27' (start + 1) cs)
  | '\x22' :: cs =>
      if isPlain cs then some (ofString '\x22' (start + 1) cs)
      else some ⟨.token (.mark .doubleQuote), .quoted '\x22', start + 1, none⟩
  | '<' :: '<' :: '<' :: cs =>
      match heredocOpening? cs with
      | some (label, size) => some ⟨.token (.mark .heredoc), .heredoc label, start + 3 + size, none⟩
      | none => none
  | _ => none

/-- A word, a string or a heredoc after the letter that calls it binary. -/
def ofLetter (c : Char) (cs : List Char) : Lexeme :=
  if c = 'b' || c = 'B' then (ofOpening? 1 cs).getD (ofWord (c :: cs)) else ofWord (c :: cs)

def ofCode (c : Char) (cs : List Char) : Lexeme :=
  if isSpace c then skipped (1 + runSize isSpace cs)
  else if isNameStart c then ofLetter c cs
  else if c.isDigit then
    let size := numberSize (c :: cs)
    if isFalseOctal (c :: cs) then ⟨.fault, .code, size, none⟩ else plain .literal size
  else
    match c, cs with
    | '$', d :: _ =>
        if isNameStart d then plain .variable (1 + runSize isNameChar cs) else ofMark (c :: cs)
    | '\\', d :: _ =>
        if isNameStart d then plain .qualified (namePartsSize 1 cs) else ofMark (c :: cs)
    | '?', '>' :: _ => ⟨.token .closeTag, .text, 2, none⟩
    | '/', '/' :: cs => skipped (lineCommentSize 2 cs)
    | '/', '*' :: d :: cs =>
        match blockCommentSize? 2 (d :: cs) with
        | some size => skipped size
        | none => ⟨.fault, .code, 3 + cs.length, none⟩
    | '#', '[' :: _ => ofMark (c :: cs)
    | '#', cs => skipped (lineCommentSize 1 cs)
    | '\x60', _ => ⟨.token (.mark .backtick), .quoted '\x60', 1, none⟩
    | '.', d :: _ => if d.isDigit then plain .literal (decimalSize (c :: cs)) else ofMark (c :: cs)
    | '(', cs =>
        match castSize? cs with
        | some size => plain .unary (1 + size)
        | none => ofMark (c :: cs)
    | c, cs => (ofOpening? 0 (c :: cs)).getD (ofMark (c :: cs))

def ofQuoted (close : Char) (cs : List Char) : Lexeme :=
  match quotedPart close false 0 cs with
  | ⟨0, .closing⟩ =>
      plain (.mark (if close = '\x22' then .doubleQuote else .backtick)) 1
  | ⟨n, .insertion size⟩ => ⟨.token .part, .quoted close, n, some size⟩
  | ⟨n, _⟩ => ⟨.token .part, .quoted close, n, none⟩

def ofHeredoc (label : HeredocLabel) (cs : List Char) : Lexeme :=
  match heredocPart label true false 0 cs with
  | ⟨n, .closing⟩ => plain (.mark .heredocEnd) n
  | ⟨n, .insertion size⟩ => ⟨.token .part, .heredoc label, n, some size⟩
  | ⟨n, .line⟩ => ⟨.token .part, .heredoc label, n, none⟩

def ofEnding (left : Nat) (c : Char) (cs : List Char) : Lexeme :=
  if isSpace c then ⟨.nothing, .ending left, 1 + runSize isSpace cs, none⟩
  else
    match left, c, cs with
    | 2, '(', _ => ⟨.token (.mark .openParen), .ending 1, 1, none⟩
    | 1, ')', _ => ⟨.token (.mark .closeParen), .ending 0, 1, none⟩
    | 0, ';', _ => ⟨.token (.mark .semicolon), .data, 1, none⟩
    | 0, '?', '>' :: _ => ⟨.token .closeTag, .data, 2, none⟩
    | _, _, _ => ⟨.jam, .ending left, 0, none⟩

def next (mode : Mode) (c : Char) (cs : List Char) : Lexeme :=
  match mode with
  | .text => ofText (c :: cs)
  | .code => ofCode c cs
  | .quoted close => ofQuoted close (c :: cs)
  | .heredoc label => ofHeredoc label (c :: cs)
  | .ending left => ofEnding left c cs
  | .data => ⟨.token .inlineText, .data, 1 + cs.length, none⟩

end Lexeme

def byteSize (cs : List Char) : Nat :=
  cs.foldr (fun c size => c.utf8Size + size) 0

structure OpenInsertion where
  /-- The byte that ends it. A token that touches this byte is its last. -/
  stop : Nat
  mode : Mode
  deriving Repr

structure Scan where
  mode : Mode
  insertions : List OpenInsertion
  held : List Item
  /-- Whether an insertion has broken off. From then on no insertion shows. -/
  broken : Bool

namespace Scan

def start : Scan :=
  ⟨.text, [], [], false⟩

def give (s : Scan) (item : Item) : List Item × Scan :=
  if s.insertions.isEmpty then ([item], s) else ([], { s with held := item :: s.held })

def opened (s : Scan) (pos : Nat) (cs : List Char) (mode : Mode) (size : Nat) : Scan :=
  { s with mode := .code, insertions := ⟨pos + byteSize (cs.take size), mode⟩ :: s.insertions }

/-- Ends the innermost insertion. After the outermost one, what was held back comes out. -/
def closed (s : Scan) (mode : Mode) (outer : List OpenInsertion) : List Item × Scan :=
  if outer.isEmpty then
    (if s.broken then [] else s.held.reverse, ⟨mode, [], [], s.broken⟩)
  else ([], { s with mode, insertions := outer })

def enter (s : Scan) (pos : Nat) (c : Char) (cs : List Char) : List Item × Scan :=
  match s.mode with
  | .quoted _ | .heredoc _ =>
      match Lexeme.next s.mode c cs with
      | ⟨_, mode, 0, some size⟩ =>
          let (items, s) := s.give (.token ⟨.part, "", pos, pos⟩)
          (items, s.opened pos (c :: cs) mode size)
      | _ => ([], s)
  | _ => ([], s)

def after (s : Scan) (l : Lexeme) (text : List Char) (pos stop : Nat) (rest : List Char) :
    List Item × Scan :=
  match l.yield with
  | .jam => ([.jam], s)
  | .fault =>
      if s.insertions.isEmpty then ([.fault], { s with mode := l.mode })
      else ([.gap], ⟨l.mode, [], [], true⟩)
  | .nothing => settle s
  | .token kind =>
      let (items, s) := s.give (.token ⟨kind, String.ofList text, pos, stop⟩)
      let (items', s) := settle s
      (items ++ items', s)
where
  settle (s : Scan) : List Item × Scan :=
    match s.insertions with
    | ⟨last, mode⟩ :: outer =>
        if pos ≤ last && last ≤ stop then s.closed mode outer else ([], proceed s)
    | [] => ([], proceed s)
  proceed (s : Scan) : Scan :=
    match l.insertion? with
    | some size => s.opened stop rest l.mode size
    | none => { s with mode := l.mode }

def items (s : Scan) (pos : Nat) (cs : List Char) : List Item :=
  match cs with
  | [] => []
  | c :: cs =>
      let (before, s) := s.enter pos c cs
      let l := Lexeme.next s.mode c cs
      if _h : 0 < l.size then
        let text := (c :: cs).take l.size
        let rest := (c :: cs).drop l.size
        let stop := pos + byteSize text
        let (given, s) := s.after l text pos stop rest
        before ++ given ++ items s stop rest
      else if s.insertions.isEmpty then before ++ [.jam]
      else before ++ [.gap, .jam]
termination_by cs.length
decreasing_by all_goals exact List.length_drop ▸ Nat.sub_lt (Nat.zero_lt_succ _) _h

end Scan

/-- A first line that starts with `#!` names the interpreter; it is text of its own. -/
def items (source : String) : List Item :=
  match source.toList with
  | '#' :: '!' :: cs =>
      let line := '#' :: '!' :: (cs.takeWhile (· ≠ '\n') ++ (cs.dropWhile (· ≠ '\n')).take 1)
      let rest := (cs.dropWhile (· ≠ '\n')).drop 1
      .token ⟨.inlineText, String.ofList line, 0, byteSize line⟩
        :: Scan.start.items (byteSize line) rest
  | cs => Scan.start.items 0 cs

end Scaffold.Php
