import Scaffold.Json.Value
import Scaffold.Path
import Scaffold.Text.Word
/-!
What a project says about itself: the version of PHP that it targets, and the directories that its
namespaces are loaded from.
-/
namespace Scaffold

/-- A version packed into 32 bits, eight for each of the two lower parts. -/
structure PhpVersion where
  value : UInt32
  deriving DecidableEq, Repr

namespace PhpVersion

def pack (major minor : UInt32) : PhpVersion :=
  ⟨(major <<< 16) ||| (minor <<< 8)⟩

def text (v : PhpVersion) : String :=
  toString (v.value >>> 16).toNat ++ "." ++ toString ((v.value >>> 8) &&& 0xFF).toNat ++ "."
    ++ toString (v.value &&& 0xFF).toNat

def fallback : PhpVersion := pack 7 4

def hasEnums (v : PhpVersion) : Bool :=
  (pack 8 1).value ≤ v.value

def pairHere? (cs : List Char) : Option ((List Char × List Char) × List Char) :=
  match cs.takeWhile Text.isDigitChar, cs.dropWhile Text.isDigitChar with
  | [], _ => none
  | major, '.' :: rest =>
      match rest.takeWhile Text.isDigitChar with
      | [] => none
      | minor => some ((major, minor), rest.dropWhile Text.isDigitChar)
  | _, _ => none

/-- All such pairs in a text, from left to right, none in another; `n` bounds its length. -/
def pairs : Nat → List Char → List (List Char × List Char)
  | 0, _ => []
  | _ + 1, [] => []
  | n + 1, c :: cs =>
      match pairHere? (c :: cs) with
      | some (p, rest) => p :: pairs n rest
      | none =>
          if Text.isDigitChar c then pairs n (cs.dropWhile Text.isDigitChar) else pairs n cs

def pairsOf (s : String) : List (List Char × List Char) :=
  pairs (s.length + 1) s.toList

def number? (ds : List Char) : Option UInt32 :=
  if ds.all Char.isDigit then
    let n := ds.foldl (fun n d => n * 10 + (d.toNat - '0'.toNat)) 0
    if n < UInt32.size then some (UInt32.ofNat n) else none
  else none

def parse (s : String) : PhpVersion :=
  match pairsOf s with
  | [] => fallback
  | (major, minor) :: _ =>
      match number? major, number? minor with
      | some major, some minor => pack major minor
      | _, _ => fallback

end PhpVersion

/-- A namespace, which ends in a backslash unless it is empty, and the directory that it is loaded
from, which ends in a slash unless it is empty. -/
structure Mapping where
  space : String
  base : String
  deriving DecidableEq, Repr

/-- Forward slashes only, one at the end, and not `./` at the start. -/
def normalDirectory (path : String) : String :=
  let cs := path.toList.map fun c => if c = '\\' then '/' else c
  let cs :=
    match cs with
    | '.' :: '/' :: rest => rest
    | cs => cs
  if cs = [] || cs.getLast? = some '/' then String.ofList cs else String.ofList (cs ++ ['/'])

namespace Mapping

def closed (space : String) : String :=
  if space = "" || space.toList.getLast? = some '\\' then space else space ++ "\\"

def ofEntry (space : String) : Json → List Mapping
  | .string path => [⟨closed space, normalDirectory path⟩]
  | .array items =>
      (items.filterMap Json.string?).map fun path => ⟨closed space, normalDirectory path⟩
  | _ => []

def ofSection (json : Json) (name : String) : List Mapping :=
  match ((json.member? name).bind (·.member? "psr-4")).bind Json.members? with
  | some entries => entries.flatMap fun (space, paths) => ofEntry space paths
  | none => []

/-- All mappings, longer namespaces first; those of one length keep their order. -/
def ofJson (json : Json) : List Mapping :=
  (ofSection json "autoload" ++ ofSection json "autoload-dev").mergeSort fun a b =>
    decide (b.space.utf8ByteSize ≤ a.space.utf8ByteSize)

def covers (m : Mapping) (dir : String) : Bool :=
  m.base != "" && m.base.toList.isPrefixOf dir.toList

/-- The mapping with the longest directory, the last of several. -/
def longest (ms : List Mapping) : Option Mapping :=
  ms.foldl
    (fun best m =>
      match best with
      | some b => if b.base.utf8ByteSize ≤ m.base.utf8ByteSize then some m else best
      | none => some m)
    none

def spaceOf (ms : List Mapping) (dir : String) : String :=
  let path :=
    match longest (ms.filter (·.covers dir)) with
    | some m => m.space.toList ++ dir.toList.drop m.base.length
    | none => dir.toList
  let cs := path.map fun c => if c = '/' then '\\' else c
  String.ofList (cs.reverse.dropWhile (· = '\\')).reverse

end Mapping

def namespaceOf (ms : List Mapping) (root dir : Path) : String :=
  match dir.relativeTo? root with
  | some relative => Mapping.spaceOf ms (normalDirectory relative.lossy)
  | none => ""

structure Project where
  phpVersion : String := "7.4"
  mappings : List Mapping := []
  deriving DecidableEq, Repr

namespace Project

def versionOf (json : Json) : String :=
  match ((json.member? "require").bind (·.member? "php")).bind Json.string? with
  | some constraint =>
      match (PhpVersion.pairsOf constraint).getLast? with
      | some (major, minor) => String.ofList (major ++ '.' :: minor)
      | none => "7.4"
  | none => "7.4"

def ofJson (json : Json) : Project :=
  ⟨versionOf json, Mapping.ofJson json⟩

def hasEnums (p : Project) : Bool :=
  (PhpVersion.parse p.phpVersion).hasEnums

end Project

end Scaffold
