import Scaffold.Php.Keyword
/-!
Tokens of PHP source. A token's kind says how the grammar may use it; operators that the grammar
does not tell apart share a kind. A source is a list of items, most of them tokens.
-/
namespace Scaffold.Php

inductive Mark where
  | openParen | closeParen | openBracket | closeBracket | openBrace | closeBrace
  | semicolon | comma | colon | doubleColon | arrow | nullArrow | doubleArrow
  | assign | ampersand | pipe | ellipsis | question | dollar | backslash | hashBracket
  | sign | step
  | dollarBrace | doubleQuote | backtick | heredoc | heredocEnd
  deriving DecidableEq, Repr

inductive Kind where
  | inlineText
  | openTag
  | echoTag
  | closeTag
  | name
  | qualified
  | variable
  | keyword (k : Keyword)
  | literal
  | unclosed
  | part
  | mark (m : Mark)
  /-- An operator that stands only before its operand; casts are among them. -/
  | unary
  | binary
  deriving DecidableEq, Repr

/-- `start` and `stop` count bytes from the beginning of the source. -/
structure Token where
  kind : Kind
  text : String
  start : Nat
  stop : Nat
  deriving DecidableEq, Repr

inductive Item where
  | token (t : Token)
  /-- Text that is no token. Whoever meets it is lost, and it is gone after that. -/
  | fault
  /-- A string that breaks off inside of an insertion. It looks like the end of the source, once. -/
  | gap
  /-- Text that nobody gets past. -/
  | jam
  deriving DecidableEq, Repr

/-- Punctuation by its spelling, longer spellings before their own beginnings. -/
def Mark.table : List (List Char × Kind) := [
  ("**=".toList, .binary), ("...".toList, .mark .ellipsis), ("<=>".toList, .binary),
  ("===".toList, .binary), ("!==".toList, .binary), ("<<=".toList, .binary),
  (">>=".toList, .binary), ("??=".toList, .binary), ("?->".toList, .mark .nullArrow),
  ("->".toList, .mark .arrow), ("=>".toList, .mark .doubleArrow),
  ("::".toList, .mark .doubleColon), ("++".toList, .mark .step), ("--".toList, .mark .step),
  ("**".toList, .binary), ("+=".toList, .binary), ("-=".toList, .binary),
  ("*=".toList, .binary), ("/=".toList, .binary), (".=".toList, .binary),
  ("%=".toList, .binary), ("&=".toList, .binary), ("|=".toList, .binary),
  ("^=".toList, .binary), ("&&".toList, .binary), ("||".toList, .binary),
  ("|>".toList, .binary), ("??".toList, .binary), ("<<".toList, .binary),
  (">>".toList, .binary), ("<=".toList, .binary), (">=".toList, .binary),
  ("==".toList, .binary), ("!=".toList, .binary), ("<>".toList, .binary),
  ("#[".toList, .mark .hashBracket),
  ("(".toList, .mark .openParen), (")".toList, .mark .closeParen),
  ("[".toList, .mark .openBracket), ("]".toList, .mark .closeBracket),
  ("\x7b".toList, .mark .openBrace), ("\x7d".toList, .mark .closeBrace),
  (";".toList, .mark .semicolon), (",".toList, .mark .comma), (":".toList, .mark .colon),
  ("=".toList, .mark .assign), ("&".toList, .mark .ampersand), ("|".toList, .mark .pipe),
  ("?".toList, .mark .question), ("$\x7b".toList, .mark .dollarBrace),
  ("$".toList, .mark .dollar), ("\\".toList, .mark .backslash),
  ("+".toList, .mark .sign), ("-".toList, .mark .sign), ("!".toList, .unary),
  ("~".toList, .unary), ("@".toList, .unary), ("*".toList, .binary), ("/".toList, .binary),
  ("%".toList, .binary), (".".toList, .binary), ("<".toList, .binary), (">".toList, .binary),
  ("^".toList, .binary)]

end Scaffold.Php
