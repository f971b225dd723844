import Scaffold.Text.Utf8
/-!
Paths of files, as bytes. Slashes separate the parts; empty parts and single dots mean nothing, but
for a dot at the very start.
-/
namespace Scaffold

structure Path where
  bytes : List UInt8
  deriving DecidableEq, Repr

namespace Path

def slash : UInt8 := 0x2F
def dot : UInt8 := 0x2E

def ofString (s : String) : Path :=
  ⟨Text.encodeUtf8 s⟩

def lossy (p : Path) : String :=
  Text.decodeLossy p.bytes

def join (pieces : List (List UInt8)) : List UInt8 :=
  [slash].intercalate pieces

def isAbsolute (p : Path) : Bool :=
  p.bytes.head? == some slash

def isIdle (piece : List UInt8) : Bool :=
  piece == [] || piece == [dot]

def pieces (p : Path) : List (List UInt8) :=
  (if p.isAbsolute then p.bytes.drop 1 else p.bytes).splitOn slash

/-- Whether a path starts at a dot, which in a relative path is a part of its own. -/
def startsAtDot (p : Path) : Bool :=
  !p.isAbsolute && p.pieces.head? == some [dot]

def body (p : Path) : List (List UInt8) :=
  if p.startsAtDot then p.pieces.drop 1 else p.pieces

def parts (p : Path) : List (List UInt8) :=
  (if p.startsAtDot then [[dot]] else []) ++ p.body.filter (!isIdle ·)

def trimIdleEnd (ps : List (List UInt8)) : List (List UInt8) :=
  (ps.reverse.dropWhile isIdle).reverse

def trimIdle (ps : List (List UInt8)) : List (List UInt8) :=
  trimIdleEnd (ps.dropWhile isIdle)

def dropParts : List (List UInt8) → List (List UInt8) → Option (List (List UInt8))
  | [], ps => some ps
  | _ :: _, [] => none
  | part :: parts, piece :: ps =>
      if piece = part then dropParts parts ps
      else if isIdle piece then dropParts (part :: parts) ps
      else none

def below? (parts ps : List (List UInt8)) : Option Path :=
  (dropParts parts ps).map fun ps => ⟨join (trimIdle ps)⟩

/-- The path below a directory. The dot that a path starts at stays if nothing is dropped. -/
def relativeTo? (p root : Path) : Option Path :=
  if p.isAbsolute = root.isAbsolute then
    match p.startsAtDot, root.parts with
    | true, [] => some ⟨join ([dot] :: trimIdleEnd p.body)⟩
    | true, part :: parts => if part = [dot] then below? parts p.body else none
    | false, parts => below? parts p.body
  else none

def parent? (p : Path) : Option Path :=
  match p.pieces.reverse.dropWhile isIdle with
  | [] => none
  | _ :: above =>
      let above := (above.dropWhile isIdle).reverse
      if p.isAbsolute then some ⟨slash :: join above⟩ else some ⟨join above⟩

def fileName? (p : Path) : Option (List UInt8) := do
  let name ← p.parts.getLast?
  if name = [dot] || name = [dot, dot] then none else pure name

/-- A name cut at its last dot, unless it has none or starts with its only one. -/
def splitName (name : List UInt8) : List UInt8 × Option (List UInt8) :=
  let extension := (name.reverse.takeWhile (· ≠ dot)).reverse
  let before := (name.reverse.dropWhile (· ≠ dot)).drop 1
  if before = [] then (name, none) else (before.reverse, some extension)

def stem? (p : Path) : Option (List UInt8) :=
  p.fileName?.map fun name => (splitName name).1

def extension? (p : Path) : Option (List UInt8) :=
  p.fileName?.bind fun name => (splitName name).2

def isPhp (extension : List UInt8) : Bool :=
  (extension.map fun b => if 0x41 ≤ b && b ≤ 0x5A then b + 32 else b) == Text.encodeUtf8 "php"

def typeName (p : Path) : String :=
  (p.stem?.bind Text.decodeUtf8?).getD ""

end Path

end Scaffold
