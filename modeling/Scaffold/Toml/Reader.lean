import Scaffold.Toml.Scalar
import Scaffold.Toml.Table
/-!
Reading TOML text as a JSON object.
-/
namespace Scaffold.Toml

def key? (cs : List Char) : Option (String × List Char) :=
  match keyString? cs with
  | some r => some r
  | none => (Text.run? isBareChar cs).map fun (k, rest) => (String.ofList k, rest)

def path? : Nat → List Char → Option (List String × List Char)
  | 0, _ => none
  | n + 1, cs => do
      let (k, rest) ← key? (dropSpaces cs)
      match dropSpaces rest with
      | '.' :: rest => do
          let (ks, rest) ← path? n rest
          pure (k :: ks, rest)
      | rest => pure ([k], rest)

def comment? (cs : List Char) : Option (List Char) :=
  match cs with
  | '#' :: cs =>
      let isEnd (c : Char) : Bool := c == '\n' || c == '\r'
      if (cs.takeWhile (!isEnd ·)).any isControl then none else some (cs.dropWhile (!isEnd ·))
  | cs => some cs

def gap? : Nat → List Char → Option (List Char)
  | 0, _ => none
  | n + 1, cs => do
      let cs ← comment? (dropSpaces cs)
      match newline? cs with
      | some rest => gap? n rest
      | none => pure cs

def skipGap? (cs : List Char) : Option (List Char) :=
  gap? (cs.length + 1) cs

def elements? (value : List Char → Option (Json × List Char)) :
    Nat → List Char → Option (List Json × List Char)
  | 0, _ => none
  | n + 1, cs => do
      let cs ← skipGap? cs
      match cs with
      | ']' :: rest => pure ([], rest)
      | cs =>
          let (v, rest) ← value cs
          let rest ← skipGap? rest
          match rest with
          | ',' :: rest =>
              let (vs, rest) ← elements? value n rest
              pure (v :: vs, rest)
          | ']' :: rest => pure ([v], rest)
          | _ => none

def pairs? (value : List Char → Option (Json × List Char)) :
    Nat → Entries → List Char → Option (Entries × List Char)
  | 0, _, _ => none
  | n + 1, entries, cs => do
      let cs ← skipGap? cs
      match cs with
      | '}' :: rest => pure (entries, rest)
      | cs =>
          let (path, rest) ← path? (cs.length + 1) cs
          let rest ← List.isPrefixOf? ['='] rest
          let (v, rest) ← value (dropSpaces rest)
          let entries ← assign v path entries
          let rest ← skipGap? rest
          match rest with
          | ',' :: rest => pairs? value n entries rest
          | '}' :: rest => pure (entries, rest)
          | _ => none

def value? : Nat → List Char → Option (Json × List Char)
  | n + 1, '[' :: cs => do
      let (vs, rest) ← elements? (value? n) (cs.length + 1) cs
      pure (.array vs, rest)
  | n + 1, '{' :: cs => do
      let (entries, rest) ← pairs? (value? n) (cs.length + 1) [] cs
      pure (.object (toMembers entries), rest)
  | 0, '[' :: _ => none
  | 0, '{' :: _ => none
  | _, cs => scalar? cs

def maxDepth : Nat := 80

def lineEnd? (cs : List Char) : Option (List Char) := do
  let cs ← comment? (dropSpaces cs)
  match cs with
  | [] => pure []
  | cs => newline? cs

def assignUnder (header path : List String) (v : Json) (root : Entries) : Option Entries :=
  underHeader (assign v path) header root

def lines? : Nat → List String → Entries → List Char → Option Entries
  | 0, _, _, _ => none
  | n + 1, header, root, cs => do
      let cs ← skipGap? cs
      match cs with
      | [] => pure root
      | '[' :: '[' :: rest =>
          let (path, rest) ← path? (rest.length + 1) rest
          let rest ← List.isPrefixOf? [']', ']'] rest
          let key ← path.getLast?
          let root ← underHeader (addElement key) path.dropLast root
          let rest ← lineEnd? rest
          lines? n path root rest
      | '[' :: rest =>
          let (path, rest) ← path? (rest.length + 1) rest
          let rest ← List.isPrefixOf? [']'] rest
          let key ← path.getLast?
          let root ← underHeader (openTable key) path.dropLast root
          let rest ← lineEnd? rest
          lines? n path root rest
      | cs =>
          let (path, rest) ← path? (cs.length + 1) cs
          let rest ← List.isPrefixOf? ['='] rest
          let (v, rest) ← value? maxDepth (dropSpaces rest)
          let root ← assignUnder header path v root
          let rest ← lineEnd? rest
          lines? n header root rest

def parse? (text : String) : Option Json :=
  let cs :=
    match text.toList with
    | '\ufeff' :: cs => cs
    | cs => cs
  (lines? (cs.length + 1) [] [] cs).map fun entries => .object (toMembers entries)

end Scaffold.Toml
