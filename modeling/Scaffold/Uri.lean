import Scaffold.Json.Reader
import Scaffold.Path
/-!
Identifiers of documents. A document is known by the normalised text of its identifier; that of a
local file has the path of the file in it.
-/
namespace Scaffold

structure Uri where
  text : String
  deriving DecidableEq, Repr

namespace Uri

def isEdge (c : Char) : Bool :=
  c.toNat ≤ 32

def cleaned (s : String) : List Char :=
  let cs := ((s.toList.dropWhile isEdge).reverse.dropWhile isEdge).reverse
  cs.filter fun c => c != '\t' && c != '\n' && c != '\r'

def isSchemeChar (c : Char) : Bool :=
  c.isAlphanum || c == '+' || c == '-' || c == '.'

def scheme? (cs : List Char) : Option (String × List Char) :=
  match cs with
  | [] => none
  | c :: _ =>
      if c.isAlpha then
        match cs.dropWhile isSchemeChar with
        | ':' :: rest => some (String.ofList ((cs.takeWhile isSchemeChar).map Char.toLower), rest)
        | _ => none
      else none

def defaultPort? : String → Option String
  | "http" | "ws" => some "80"
  | "https" | "wss" => some "443"
  | "ftp" => some "21"
  | _ => none

def upperHex (n : Nat) : Char :=
  (Nat.digitChar n).toUpper

def encodeByte (b : UInt8) : List Char :=
  ['%', upperHex (b.toNat / 16), upperHex (b.toNat % 16)]

def encodeChar (reserved : Char → Bool) (c : Char) : List Char :=
  if c.toNat < 32 || 126 < c.toNat || reserved c then
    (Text.encodeUtf8 (String.singleton c)).flatMap encodeByte
  else [c]

def inPath (c : Char) : Bool :=
  [' ', '\x22', '#', '<', '>', '?', '\x60', '{', '}'].contains c

/-- An apostrophe is encoded only where the scheme is `special`. -/
def inQuery (special : Bool) (c : Char) : Bool :=
  [' ', '\x22', '#', '<', '>'].contains c || (special && c == '\x27')

def inFragment (c : Char) : Bool :=
  [' ', '\x22', '<', '>', '\x60'].contains c

def never (_ : Char) : Bool := false

def isSlash (special : Bool) (c : Char) : Bool :=
  c == '/' || (special && c == '\\')

def dots (segment : List Char) : Nat :=
  match String.ofList (segment.map Char.toLower) with
  | "." | "%2e" => 1
  | ".." | ".%2e" | "%2e." | "%2e%2e" => 2
  | _ => 0

def resolve (done : List (List Char)) : List (List Char) → List (List Char)
  | [] => done
  | s :: rest =>
      match dots s with
      | 0 => resolve (done ++ [s.flatMap (encodeChar inPath)]) rest
      | 1 => if rest = [] then done ++ [[]] else resolve done rest
      | _ => if rest = [] then done.dropLast ++ [[]] else resolve done.dropLast rest

def normalPath (special : Bool) (cs : List Char) : List Char :=
  let cs :=
    match cs with
    | c :: rest => if isSlash special c then rest else cs
    | [] => []
  '/' :: ['/'].intercalate (resolve [] (cs.splitOnP (isSlash special)))

def decodeBytes : List Char → List UInt8
  | [] => []
  | '%' :: a :: b :: cs =>
      match Json.hexDigit? a, Json.hexDigit? b with
      | some a, some b => UInt8.ofNat (a * 16 + b) :: decodeBytes cs
      | _, _ => 0x25 :: decodeBytes (a :: b :: cs)
  | c :: cs => Text.encodeUtf8 (String.singleton c) ++ decodeBytes cs

def cut (at? : Char → Bool) (cs : List Char) : List Char × Option (List Char) :=
  match cs.dropWhile (!at? ·) with
  | [] => (cs, none)
  | _ :: rest => (cs.takeWhile (!at? ·), some rest)

def tail (mark : Char) (reserved : Char → Bool) : Option (List Char) → List Char
  | none => []
  | some cs => mark :: cs.flatMap (encodeChar reserved)

def authority? (special : Bool) : List Char → Option (List Char × List Char)
  | a :: b :: cs =>
      if isSlash special a && isSlash special b then
        some (cs.takeWhile (!isSlash special ·), cs.dropWhile (!isSlash special ·))
      else none
  | _ => none

def dropPort (port : String) (host : List Char) : List Char :=
  let suffix := (':' :: port.toList).reverse
  match List.isPrefixOf? suffix host.reverse with
  | some rest => rest.reverse
  | none => host

def file (cs after : List Char) : Uri :=
  let (host, path) :=
    match authority? true cs with
    | some (host, path) => (host.map Char.toLower, path)
    | none => ([], cs)
  let host := if host = "localhost".toList then [] else host
  ⟨String.ofList ("file://".toList ++ host ++ normalPath true path ++ after)⟩

def parse? (s : String) : Option Uri := do
  let (scheme, rest) ← scheme? (cleaned s)
  let (rest, fragment?) := cut (· == '#') rest
  let (rest, query?) := cut (· == '?') rest
  let special := scheme = "file" || (defaultPort? scheme).isSome
  let after := tail '?' (inQuery special) query? ++ tail '#' inFragment fragment?
  let start := scheme.toList ++ [':']
  if scheme = "file" then pure (file rest after)
  else
    match defaultPort? scheme with
    | some port =>
        let rest := rest.dropWhile (isSlash true)
        let host := dropPort port ((rest.takeWhile (!isSlash true ·)).map Char.toLower)
        if host = [] then none
        else
          let path := normalPath true (rest.dropWhile (!isSlash true ·))
          pure ⟨String.ofList (start ++ ['/', '/'] ++ host ++ path ++ after)⟩
    | none =>
        match authority? false rest, rest with
        | some (host, path), _ =>
            let path := if path = [] then [] else normalPath false path
            pure ⟨String.ofList (start ++ ['/', '/'] ++ host ++ path ++ after)⟩
        | none, '/' :: _ =>
            pure ⟨String.ofList (start ++ normalPath false rest ++ after)⟩
        | none, rest =>
            pure ⟨String.ofList (start ++ rest.flatMap (encodeChar never) ++ after)⟩

/-- The path of a local file; one on another host has none. -/
def path? (u : Uri) : Option Path :=
  match List.isPrefixOf? "file://".toList u.text.toList with
  | some ('/' :: cs) =>
      some ⟨decodeBytes ('/' :: cs.takeWhile fun c => c != '?' && c != '#')⟩
  | _ => none

end Uri

end Scaffold
