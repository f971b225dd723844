/-!
Text as bytes. Bytes that are no text are read with a replacement character for each broken piece.
-/
namespace Scaffold.Text

def encodeUtf8 (s : String) : List UInt8 :=
  s.toUTF8.data.toList

def isContinuation (b : UInt8) : Bool :=
  0x80 ≤ b && b ≤ 0xBF

/-- What must hold of the second byte after a given first one, so that the character is written in
the shortest way and is a character at all. -/
def secondRange (b : UInt8) : UInt8 × UInt8 :=
  if b = 0xE0 then (0xA0, 0xBF)
  else if b = 0xED then (0x80, 0x9F)
  else if b = 0xF0 then (0x90, 0xBF)
  else if b = 0xF4 then (0x80, 0x8F)
  else (0x80, 0xBF)

def sequenceLength (b : UInt8) : Nat :=
  if b < 0x80 then 1
  else if 0xC2 ≤ b && b ≤ 0xDF then 2
  else if 0xE0 ≤ b && b ≤ 0xEF then 3
  else if 0xF0 ≤ b && b ≤ 0xF4 then 4
  else 0

def continuations (first : UInt8) (bs : List UInt8) : List UInt8 :=
  match bs with
  | [] => []
  | b :: rest =>
      let (lo, hi) := secondRange first
      if lo ≤ b && b ≤ hi then
        b :: (rest.take (sequenceLength first - 2)).takeWhile isContinuation
      else []

def decodeStep (b : UInt8) (bs : List UInt8) : Option Char × Nat :=
  let n := sequenceLength b
  if n = 0 then (none, 1)
  else if n = 1 then (some (Char.ofNat b.toNat), 1)
  else
    let cs := continuations b bs
    if cs.length + 1 = n then
      let lead := b.toNat % (if n = 2 then 32 else if n = 3 then 16 else 8)
      (some (Char.ofNat (cs.foldl (fun v c => v * 64 + c.toNat % 64) lead)), n)
    else (none, cs.length + 1)

def decodeChars : Nat → List UInt8 → List (Option Char)
  | 0, _ => []
  | _ + 1, [] => []
  | n + 1, b :: bs =>
      let (c, used) := decodeStep b bs
      c :: decodeChars n ((b :: bs).drop used)

def decodeUtf8? (bs : List UInt8) : Option String :=
  ((decodeChars bs.length bs).mapM id).map String.ofList

def decodeLossy (bs : List UInt8) : String :=
  String.ofList ((decodeChars bs.length bs).map (·.getD '\ufffd'))

end Scaffold.Text
