import Scaffold.Number.Decimal
/-!
JSON values. The members of an object keep their order.
-/
namespace Scaffold

/-- A whole number that fits 64 bits, with or without a sign. -/
structure Json.Integer where
  value : Int
  sized : -(UInt64.size / 2 : Nat) ≤ value ∧ value < UInt64.size
  deriving DecidableEq, Repr

inductive Json.Number where
  | integer (n : Json.Integer)
  | decimal (d : Decimal)
  deriving DecidableEq, Repr

inductive Json where
  | null
  | bool (b : Bool)
  | number (n : Json.Number)
  | string (s : String)
  | array (items : List Json)
  | object (members : List (String × Json))

namespace Json

instance : Inhabited Json := ⟨null⟩

def Integer.ofInt? (n : Int) : Option Integer :=
  if h : -(UInt64.size / 2 : Nat) ≤ n ∧ n < UInt64.size then some ⟨n, h⟩ else none

def Integer.ofUInt64 (n : UInt64) : Integer :=
  ⟨n.toNat, by omega, Int.ofNat_lt.mpr n.toNat_lt_size⟩

/-- A number that is whole; it is exact as long as it fits. -/
def Number.whole (n : Int) : Number :=
  match Integer.ofInt? n with
  | some i => integer i
  | none => decimal ⟨decide (n < 0), n.natAbs, 0⟩

def ofNat (n : Nat) : Json :=
  .number (.whole n)

def ofUInt64 (n : UInt64) : Json :=
  .number (.integer (.ofUInt64 n))

def strings (ss : List String) : Json :=
  .array (ss.map .string)

def ofOption {α : Type} (f : α → Json) : Option α → Json
  | some a => f a
  | none => .null

def ofString? (s : Option String) : Json :=
  ofOption .string s

/-- Sets a member; a name that is there keeps its place. -/
def setMember (name : String) (value : Json) : List (String × Json) → List (String × Json)
  | [] => [(name, value)]
  | (n, v) :: ms => if n = name then (n, value) :: ms else (n, v) :: setMember name value ms

def members? : Json → Option (List (String × Json))
  | object ms => some ms
  | _ => none

def items? : Json → Option (List Json)
  | array items => some items
  | _ => none

def string? : Json → Option String
  | string s => some s
  | _ => none

def bool? : Json → Option Bool
  | bool b => some b
  | _ => none

def nat? : Json → Option Nat
  | number (.integer n) => n.value.toNat?
  | _ => none

def member? (name : String) (j : Json) : Option Json := do
  (← j.members?).lookup name

def present? (name : String) (j : Json) : Option Json :=
  match j.member? name with
  | some .null => none
  | v => v

end Json

end Scaffold
