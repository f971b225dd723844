import Scaffold.Json.Value
import Scaffold.Text.Scan
/-!
Reading JSON text. Every reader takes characters from the start of a list and returns what follows.
-/
namespace Scaffold.Json

def isSpace (c : Char) : Bool :=
  c == ' ' || c == '\n' || c == '\t' || c == '\r'

def dropSpaces (cs : List Char) : List Char :=
  cs.dropWhile isSpace

def hexDigit? (c : Char) : Option Nat :=
  if c.isDigit then some (c.toNat - '0'.toNat)
  else if 'a' ≤ c && c ≤ 'f' then some (c.toNat - 'a'.toNat + 10)
  else if 'A' ≤ c && c ≤ 'F' then some (c.toNat - 'A'.toNat + 10)
  else none

def hex4? : List Char → Option (Nat × List Char)
  | a :: b :: c :: d :: cs => do
      let a ← hexDigit? a
      let b ← hexDigit? b
      let c ← hexDigit? c
      let d ← hexDigit? d
      pure (((a * 16 + b) * 16 + c) * 16 + d, cs)
  | _ => none

def unicodeEscape? (cs : List Char) : Option (Char × List Char) := do
  let (n, cs) ← hex4? cs
  if 0xD800 ≤ n && n < 0xDC00 then
    let cs ← List.isPrefixOf? ['\\', 'u'] cs
    let (m, cs) ← hex4? cs
    if 0xDC00 ≤ m && m < 0xE000 then
      pure (Char.ofNat (0x10000 + (n - 0xD800) * 0x400 + (m - 0xDC00)), cs)
    else none
  else if 0xDC00 ≤ n && n < 0xE000 then none
  else pure (Char.ofNat n, cs)

def escape? : List Char → Option (Char × List Char)
  | '\x22' :: cs => some ('\x22', cs)
  | '\\' :: cs => some ('\\', cs)
  | '/' :: cs => some ('/', cs)
  | 'b' :: cs => some ('\x08', cs)
  | 'f' :: cs => some ('\x0c', cs)
  | 'n' :: cs => some ('\n', cs)
  | 'r' :: cs => some ('\r', cs)
  | 't' :: cs => some ('\t', cs)
  | 'u' :: cs => unicodeEscape? cs
  | _ => none

def stringBody? : Nat → List Char → Option (List Char × List Char)
  | 0, _ => none
  | _ + 1, [] => none
  | n + 1, c :: cs =>
      if c = '\x22' then some ([], cs)
      else if c = '\\' then do
        let (e, cs) ← escape? cs
        let (s, cs) ← stringBody? n cs
        pure (e :: s, cs)
      else if c.toNat < 32 then none
      else do
        let (s, cs) ← stringBody? n cs
        pure (c :: s, cs)

def quoted? (cs : List Char) : Option (String × List Char) := do
  let cs ← List.isPrefixOf? ['\x22'] cs
  let (s, cs) ← stringBody? (cs.length + 1) cs
  pure (String.ofList s, cs)

def natOfDigits (ds : List Char) : Nat :=
  ds.foldl (fun n d => n * 10 + (d.toNat - '0'.toNat)) 0

def fraction? (cs : List Char) : Option (Option (List Char) × List Char) :=
  match cs with
  | '.' :: cs =>
      match Text.run? Char.isDigit cs with
      | some (ds, cs) => some (some ds, cs)
      | none => none
  | cs => some (none, cs)

def exponent? (cs : List Char) : Option (Option Int × List Char) :=
  match cs with
  | c :: cs' =>
      if c = 'e' || c = 'E' then
        let (negative, cs') : Bool × List Char :=
          match cs' with
          | '-' :: cs' => (true, cs')
          | '+' :: cs' => (false, cs')
          | cs' => (false, cs')
        match Text.run? Char.isDigit cs' with
        | some (ds, cs') =>
            let n : Int := natOfDigits ds
            some (some (if negative then -n else n), cs')
        | none => none
      else some (none, cs)
  | [] => some (none, [])

def whole? (cs : List Char) : Option (List Char × List Char) :=
  match cs with
  | '0' :: c :: cs => if c.isDigit then none else some (['0'], c :: cs)
  | cs => Text.run? Char.isDigit cs

/-- A whole number that fits 64 bits is kept exact; all others become decimals, which have to be in
the range of doubles. -/
def number? (cs : List Char) : Option (Json.Number × List Char) := do
  let (negative, cs) : Bool × List Char :=
    match cs with
    | '-' :: cs => (true, cs)
    | cs => (false, cs)
  let (ws, cs) ← whole? cs
  let (fs?, cs) ← fraction? cs
  let (e?, cs) ← exponent? cs
  let n := natOfDigits ws
  let integer? :=
    if fs? = none && e? = none && !(negative && n = 0) then
      Json.Integer.ofInt? (if negative then -(n : Int) else n)
    else none
  if let some i := integer? then pure (.integer i, cs)
  else
    let fs := fs?.getD []
    let e := e?.getD 0
    let d : Decimal := ⟨negative, natOfDigits (ws ++ fs), e - fs.length⟩
    if d.digits = 0 then pure (.decimal ⟨negative, 0, 0⟩, cs)
    else if 400 < e + ws.length then none
    else if e + ws.length < -400 then pure (.decimal ⟨negative, 0, 0⟩, cs)
    else
      let _ ← d.toDouble?
      pure (.decimal d, cs)

def scalar? (cs : List Char) : Option (Json × List Char) :=
  match cs with
  | 'n' :: cs => (List.isPrefixOf? "ull".toList cs).map (Json.null, ·)
  | 't' :: cs => (List.isPrefixOf? "rue".toList cs).map (Json.bool true, ·)
  | 'f' :: cs => (List.isPrefixOf? "alse".toList cs).map (Json.bool false, ·)
  | '\x22' :: _ => (quoted? cs).map fun (s, cs) => (Json.string s, cs)
  | cs => (number? cs).map fun (n, cs) => (Json.number n, cs)

def more? {α : Type} (close : Char) (item : List Char → Option (α × List Char)) :
    Nat → List Char → Option (List α × List Char)
  | 0, _ => none
  | n + 1, cs =>
      match dropSpaces cs with
      | ',' :: cs => do
          let (a, cs) ← item (dropSpaces cs)
          let (as, cs) ← more? close item n cs
          pure (a :: as, cs)
      | c :: cs => if c = close then some ([], cs) else none
      | [] => none

def sequence? {α : Type} (close : Char) (item : List Char → Option (α × List Char))
    (cs : List Char) : Option (List α × List Char) :=
  match dropSpaces cs with
  | [] => none
  | c :: cs =>
      if c = close then some ([], cs)
      else do
        let (a, cs) ← item (c :: cs)
        let (as, cs) ← more? close item (cs.length + 1) cs
        pure (a :: as, cs)

def pair? (value : List Char → Option (Json × List Char)) (cs : List Char) :
    Option ((String × Json) × List Char) := do
  let (name, cs) ← quoted? cs
  let cs ← List.isPrefixOf? [':'] (dropSpaces cs)
  let (v, cs) ← value (dropSpaces cs)
  pure ((name, v), cs)

def value? : Nat → List Char → Option (Json × List Char)
  | _, [] => none
  | 0, cs => scalar? cs
  | n + 1, '[' :: cs => do
      let (items, cs) ← sequence? ']' (value? n) cs
      pure (.array items, cs)
  | n + 1, '{' :: cs => do
      let (ms, cs) ← sequence? '}' (pair? (value? n)) cs
      pure (.object (ms.foldl (fun ms (name, v) => setMember name v ms) []), cs)
  | _ + 1, cs => scalar? cs

def parseWithin? (depth : Nat) (text : String) : Option Json := do
  let (v, rest) ← value? depth (dropSpaces text.toList)
  if dropSpaces rest = [] then pure v else none

/-- Texts from outside may nest 127 deep. -/
def parse? (text : String) : Option Json :=
  parseWithin? 127 text

end Scaffold.Json
