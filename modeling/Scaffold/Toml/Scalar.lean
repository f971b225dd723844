import Scaffold.Json.Reader
/-!
Strings, numbers and dates of TOML.
-/
namespace Scaffold.Toml

def isSpace (c : Char) : Bool :=
  c == ' ' || c == '\t'

def dropSpaces (cs : List Char) : List Char :=
  cs.dropWhile isSpace

def isControl (c : Char) : Bool :=
  (c.toNat < 32 && c != '\t') || c.toNat == 127

def newline? : List Char → Option (List Char)
  | '\n' :: cs => some cs
  | '\r' :: '\n' :: cs => some cs
  | _ => none

def hexChar? (n : Nat) (cs : List Char) : Option (Char × List Char) := do
  let ds ← (cs.take n).mapM Json.hexDigit?
  if ds.length = n then
    let v := ds.foldl (fun v d => v * 16 + d) 0
    if v < 0xD800 || (0xE000 ≤ v && v < 0x110000) then pure (Char.ofNat v, cs.drop n) else none
  else none

def escape? : List Char → Option (Char × List Char)
  | 'b' :: cs => some ('\x08', cs)
  | 't' :: cs => some ('\t', cs)
  | 'n' :: cs => some ('\n', cs)
  | 'f' :: cs => some ('\x0c', cs)
  | 'r' :: cs => some ('\r', cs)
  | 'e' :: cs => some ('\x1b', cs)
  | '\x22' :: cs => some ('\x22', cs)
  | '\\' :: cs => some ('\\', cs)
  | 'x' :: cs => hexChar? 2 cs
  | 'u' :: cs => hexChar? 4 cs
  | 'U' :: cs => hexChar? 8 cs
  | _ => none

def lineString? (quote : Char) (escapes : Bool) : Nat → List Char → Option (List Char × List Char)
  | 0, _ => none
  | _ + 1, [] => none
  | n + 1, c :: cs =>
      if c = quote then some ([], cs)
      else if isControl c then none
      else if escapes && c = '\\' then do
        let (e, cs) ← escape? cs
        let (s, cs) ← lineString? quote escapes n cs
        pure (e :: s, cs)
      else do
        let (s, cs) ← lineString? quote escapes n cs
        pure (c :: s, cs)

def dropLineSpace (cs : List Char) : List Char :=
  cs.dropWhile fun c => isSpace c || c == '\n' || c == '\r'

def lineEndingEscape? (cs : List Char) : Option (List Char) :=
  (newline? (dropSpaces cs)).map dropLineSpace

/-- A string over several lines, after its three quotes. Of more than three closing quotes, the
first ones belong to the string. -/
def blockString? (quote : Char) (escapes : Bool) : Nat → List Char → Option (List Char × List Char)
  | 0, _ => none
  | _ + 1, [] => none
  | n + 1, c :: cs =>
      match List.isPrefixOf? [quote, quote, quote] (c :: cs) with
      | some rest =>
          match List.isPrefixOf? [quote, quote] rest, List.isPrefixOf? [quote] rest with
          | some rest, _ => some ([quote, quote], rest)
          | none, some rest => some ([quote], rest)
          | none, none => some ([], rest)
      | none =>
          match newline? (c :: cs) with
          | some rest => do
              let (s, rest) ← blockString? quote escapes n rest
              pure ((if c = '\r' then ['\r', '\n'] else ['\n']) ++ s, rest)
          | none =>
              if isControl c then none
              else if escapes && c = '\\' then
                match lineEndingEscape? cs with
                | some rest => blockString? quote escapes n rest
                | none => do
                    let (e, cs) ← escape? cs
                    let (s, cs) ← blockString? quote escapes n cs
                    pure (e :: s, cs)
              else do
                let (s, cs) ← blockString? quote escapes n cs
                pure (c :: s, cs)

def dropNewline (cs : List Char) : List Char :=
  (newline? cs).getD cs

def string? (cs : List Char) : Option (String × List Char) := do
  let quote ← cs.head?
  if quote = '\x22' || quote = '\x27' then
    let escapes := quote == '\x22'
    let (s, rest) ←
      match List.isPrefixOf? [quote, quote, quote] cs with
      | some rest => blockString? quote escapes (rest.length + 1) (dropNewline rest)
      | none => lineString? quote escapes (cs.length + 1) (cs.drop 1)
    pure (String.ofList s, rest)
  else none

def keyString? (cs : List Char) : Option (String × List Char) := do
  let quote ← cs.head?
  if quote = '\x22' || quote = '\x27' then
    let (s, rest) ← lineString? quote (quote == '\x22') (cs.length + 1) (cs.drop 1)
    pure (String.ofList s, rest)
  else none

def plainDigits? (p : Char → Bool) : List Char → Option (List Char)
  | [] => none
  | [c] => if p c then some [c] else none
  | c :: '_' :: d :: cs => if p c && p d then (plainDigits? p (d :: cs)).map (c :: ·) else none
  | c :: cs => if p c then (plainDigits? p cs).map (c :: ·) else none

def signed (cs : List Char) : Bool × List Char :=
  match cs with
  | '-' :: cs => (true, cs)
  | '+' :: cs => (false, cs)
  | cs => (false, cs)

def wholeDigits? (cs : List Char) : Option (List Char) := do
  let ds ← plainDigits? Char.isDigit cs
  if ds.head? = some '0' && 1 < ds.length then none else pure ds

def valueOf (base : Nat) (ds : List Char) : Nat :=
  ds.foldl (fun v d => v * base + (Json.hexDigit? d).getD 0) 0

def hasRadix (base : Nat) (c : Char) : Bool :=
  match Json.hexDigit? c with
  | some d => d < base
  | none => false

def integer? (cs : List Char) : Option Json := do
  let n : Int ←
    match cs with
    | '0' :: 'x' :: ds => (plainDigits? (hasRadix 16) ds).map fun ds => (valueOf 16 ds : Int)
    | '0' :: 'o' :: ds => (plainDigits? (hasRadix 8) ds).map fun ds => (valueOf 8 ds : Int)
    | '0' :: 'b' :: ds => (plainDigits? (hasRadix 2) ds).map fun ds => (valueOf 2 ds : Int)
    | cs =>
        let (negative, ds) := signed cs
        (wholeDigits? ds).map fun ds =>
          let v : Int := valueOf 10 ds
          if negative then -v else v
  (Json.Integer.ofInt? n).map fun i => .number (.integer i)

/-- Infinity and what is no number have no JSON value. -/
def special? (cs : List Char) : Option Json :=
  match String.ofList (signed cs).2 with
  | "inf" | "nan" => some .null
  | _ => none

def float? (cs : List Char) : Option Json := do
  let (negative, cs) := signed cs
  let isMark (c : Char) : Bool := c == 'e' || c == 'E'
  let body := cs.takeWhile (!isMark ·)
  let whole ← wholeDigits? (body.takeWhile (· != '.'))
  let fraction ←
    match body.dropWhile (· != '.') with
    | [] => some []
    | _ :: ds => plainDigits? Char.isDigit ds
  let exponent : Int ←
    match cs.dropWhile (!isMark ·) with
    | [] => some 0
    | _ :: ds =>
        let (down, ds) := signed ds
        (plainDigits? Char.isDigit ds).map fun ds =>
          let v : Int := valueOf 10 ds
          if down then -v else v
  if body.length = cs.length && fraction = [] then none
  else
    let d : Decimal := ⟨negative, valueOf 10 (whole ++ fraction), exponent - fraction.length⟩
    if d.digits = 0 || exponent + whole.length < -400 then
      pure (.number (.decimal ⟨negative, 0, 0⟩))
    else if 400 < exponent + whole.length then none
    else
      let _ ← d.toDouble?
      pure (.number (.decimal d))

def twoDigits? (lo hi : Nat) : List Char → Option (Nat × List Char)
  | a :: b :: cs =>
      if a.isDigit && b.isDigit then
        let v := valueOf 10 [a, b]
        if lo ≤ v && v ≤ hi then some (v, cs) else none
      else none
  | _ => none

def pad2 (n : Nat) : List Char :=
  let ds := Nat.toDigits 10 n
  List.replicate (2 - ds.length) '0' ++ ds

def daysIn (year month : Nat) : Nat :=
  if month = 2 then
    if (year % 4 = 0 && year % 100 ≠ 0) || year % 400 = 0 then 29 else 28
  else if [4, 6, 9, 11].contains month then 30 else 31

def date? (cs : List Char) : Option (List Char × List Char) := do
  let year := cs.take 4
  if year.length = 4 && year.all Char.isDigit then
    let rest ← List.isPrefixOf? ['-'] (cs.drop 4)
    let (month, rest) ← twoDigits? 1 12 rest
    let rest ← List.isPrefixOf? ['-'] rest
    let (day, rest) ← twoDigits? 1 (daysIn (valueOf 10 year) month) rest
    pure (year ++ ['-'] ++ pad2 month ++ ['-'] ++ pad2 day, rest)
  else none

def secondFraction (ds : List Char) : List Char :=
  match ((ds.take 9).reverse.dropWhile (· = '0')).reverse with
  | [] => ['.', '0']
  | ds => '.' :: ds

def time? (cs : List Char) : Option (List Char × List Char) := do
  let (hour, rest) ← twoDigits? 0 23 cs
  let rest ← List.isPrefixOf? [':'] rest
  let (minute, rest) ← twoDigits? 0 59 rest
  let head := pad2 hour ++ [':'] ++ pad2 minute
  match rest with
  | ':' :: rest =>
      let (second, rest) ← twoDigits? 0 60 rest
      let head := head ++ [':'] ++ pad2 second
      match rest with
      | '.' :: rest =>
          match rest.takeWhile Char.isDigit with
          | [] => none
          | ds => pure (head ++ secondFraction ds, rest.dropWhile Char.isDigit)
      | rest => pure (head, rest)
  | rest => pure (head, rest)

def offset? (cs : List Char) : Option (List Char × List Char) :=
  match cs with
  | 'Z' :: rest | 'z' :: rest => some (['Z'], rest)
  | sign :: rest =>
      if sign = '+' || sign = '-' then do
        let (hour, rest) ← twoDigits? 0 23 rest
        let rest ← List.isPrefixOf? [':'] rest
        let (minute, rest) ← twoDigits? 0 59 rest
        pure (sign :: (pad2 hour ++ [':'] ++ pad2 minute), rest)
      else some ([], cs)
  | [] => some ([], [])

def dateJson (cs : List Char) : Json :=
  .object [("$__toml_private_datetime", .string (String.ofList cs))]

def datetime? (cs : List Char) : Option Json :=
  match date? cs with
  | some (date, []) => some (dateJson date)
  | some (date, mark :: rest) =>
      if mark = 'T' || mark = 't' || mark = ' ' then do
        let (time, rest) ← time? rest
        let (offset, rest) ← offset? rest
        if rest = [] then pure (dateJson (date ++ ['T'] ++ time ++ offset)) else none
      else none
  | none => do
      let (time, rest) ← time? cs
      if rest = [] then pure (dateJson time) else none

def isBareChar (c : Char) : Bool :=
  c.isAlphanum || c == '_' || c == '-'

def isPlainChar (c : Char) : Bool :=
  isBareChar c || c == '+' || c == '.' || c == ':'

/-- The text of a plain value; a date may have a blank before its time. -/
def plainToken (cs : List Char) : List Char × List Char :=
  let word := cs.takeWhile isPlainChar
  let rest := cs.dropWhile isPlainChar
  match date? word, rest with
  | some (_, []), ' ' :: d :: _ =>
      if d.isDigit then
        (word ++ ' ' :: (rest.drop 1).takeWhile isPlainChar, (rest.drop 1).dropWhile isPlainChar)
      else (word, rest)
  | _, _ => (word, rest)

def scalar? (cs : List Char) : Option (Json × List Char) :=
  match string? cs with
  | some (s, rest) => some (.string s, rest)
  | none =>
      let (word, rest) := plainToken cs
      let value? :=
        match String.ofList word with
        | "true" => some (Json.bool true)
        | "false" => some (Json.bool false)
        | _ => (((integer? word).or (special? word)).or (float? word)).or (datetime? word)
      value?.map (·, rest)

end Scaffold.Toml
