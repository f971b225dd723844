import Scaffold.Json.Value
/-!
The tables of a TOML document while they are being read. How a table came about decides what may
still be added to it.
-/
namespace Scaffold.Toml

/-- How a table came about: as the parent of another table, by a header of its own, or as the
parent in a key with dots. -/
inductive Origin where
  | parent
  | header
  | dotted
  deriving DecidableEq, Repr

inductive Node where
  | value (j : Json)
  | table (origin : Origin) (entries : List (String × Node))
  | tables (elements : List (List (String × Node)))

abbrev Entries := List (String × Node)

def put (key : String) (node : Node) : Entries → Entries
  | [] => [(key, node)]
  | (k, n) :: rest => if k = key then (k, node) :: rest else (k, n) :: put key node rest

def underHeader (f : Entries → Option Entries) : List String → Entries → Option Entries
  | [], entries => f entries
  | key :: path, entries =>
      match entries.lookup key with
      | none => do
          let inner ← underHeader f path []
          pure (put key (.table .parent inner) entries)
      | some (.table origin inner) => do
          let inner ← underHeader f path inner
          pure (put key (.table origin inner) entries)
      | some (.tables elements) =>
          match elements.getLast? with
          | some last => do
              let last ← underHeader f path last
              pure (put key (.tables (elements.dropLast ++ [last])) entries)
          | none => none
      | some (.value _) => none

/-- Opens the table of a header. A table that only was a parent may still get one. -/
def openTable (key : String) (entries : Entries) : Option Entries :=
  match entries.lookup key with
  | none => some (put key (.table .header []) entries)
  | some (.table .parent inner) => some (put key (.table .header inner) entries)
  | some _ => none

def addElement (key : String) (entries : Entries) : Option Entries :=
  match entries.lookup key with
  | none => some (put key (.tables [[]]) entries)
  | some (.tables elements) => some (put key (.tables (elements ++ [[]])) entries)
  | some _ => none

/-- Sets a key with dots. It may extend tables, but none that has a header. -/
def assign (value : Json) : List String → Entries → Option Entries
  | [], _ => none
  | [key], entries =>
      match entries.lookup key with
      | none => some (put key (.value value) entries)
      | some _ => none
  | key :: path, entries =>
      match entries.lookup key with
      | none => do
          let inner ← assign value path []
          pure (put key (.table .dotted inner) entries)
      | some (.table .header _) => none
      | some (.table origin inner) => do
          let inner ← assign value path inner
          pure (put key (.table origin inner) entries)
      | some _ => none

mutual

def Node.toJson : Node → Json
  | .value j => j
  | .table _ entries => .object (toMembers entries)
  | .tables elements => .array (toObjects elements)

def toMembers : List (String × Node) → List (String × Json)
  | [] => []
  | (key, node) :: rest => (key, node.toJson) :: toMembers rest

def toObjects : List (List (String × Node)) → List Json
  | [] => []
  | entries :: rest => .object (toMembers entries) :: toObjects rest

end

end Scaffold.Toml
