/-!
Decimal numbers and the binary floating-point numbers nearest to them. A finite double is a whole
number times a power of two; the text of a double has the fewest digits that read back as it.
-/
namespace Scaffold

/-- The number `digits * 10 ^ exponent`, with its sign. -/
structure Decimal where
  negative : Bool
  digits : Nat
  exponent : Int
  deriving DecidableEq, Repr

/-- The positive number `mantissa * 2 ^ exponent`, with at most 53 bits. -/
structure Double where
  mantissa : Nat
  exponent : Int
  deriving DecidableEq, Repr

def roundDiv (num den : Nat) : Nat :=
  let q := num / den
  let r := num % den
  if 2 * r < den then q
  else if den < 2 * r then q + 1
  else if q % 2 = 0 then q else q + 1

namespace Decimal

def ratio (d : Decimal) : Nat × Nat :=
  match d.exponent with
  | .ofNat e => (d.digits * Nat.pow 10 e, 1)
  | .negSucc e => (d.digits, Nat.pow 10 (e + 1))

def scaled (num den : Nat) (exponent : Int) : Nat × Nat :=
  match exponent with
  | .ofNat e => (num, den * Nat.pow 2 e)
  | .negSucc e => (num * Nat.pow 2 (e + 1), den)

def binaryExponent (num den : Nat) : Int :=
  let guess : Int := (Nat.log2 num : Int) - Nat.log2 den - 52
  let (n, d) := scaled num den guess
  let e := if n / d < Nat.pow 2 52 then guess - 1 else guess
  max e (-1074)

def toDouble? (d : Decimal) : Option Double :=
  let (num, den) := d.ratio
  if num = 0 then some ⟨0, 0⟩
  else
    let e := binaryExponent num den
    let (n, d) := scaled num den e
    let m := roundDiv n d
    let (m, e) := if m = Nat.pow 2 53 then (Nat.pow 2 52, e + 1) else (m, e)
    if 971 < e then none else some ⟨m, e⟩

end Decimal

namespace Double

/-- The same double four times finer, with the ends of the interval that rounds to it:
lower end, value and upper end as multiples of the returned power of two. -/
def interval (x : Double) : Nat × Nat × Nat × Int :=
  let lower := if x.mantissa = Nat.pow 2 52 && (-1074 : Int) < x.exponent then 1 else 2
  (4 * x.mantissa - lower, 4 * x.mantissa, 4 * x.mantissa + 2, x.exponent - 2)

def gridRatio (m : Nat) (exponent k : Int) : Nat × Nat :=
  let (n, d) : Nat × Nat :=
    match exponent with
    | .ofNat e => (m * Nat.pow 2 e, 1)
    | .negSucc e => (m, Nat.pow 2 (e + 1))
  match k with
  | .ofNat k => (n, d * Nat.pow 10 k)
  | .negSucc k => (n * Nat.pow 10 (k + 1), d)

def onGrid? (x : Double) (k : Int) : Option Nat :=
  let (lo, mid, hi, e) := x.interval
  let (nl, dl) := gridRatio lo e k
  let (nm, dm) := gridRatio mid e k
  let (nh, dh) := gridRatio hi e k
  let closed := x.mantissa % 2 = 0
  let fits (g : Nat) : Bool :=
    if closed then decide (nl ≤ g * dl) && decide (g * dh ≤ nh)
    else decide (nl < g * dl) && decide (g * dh < nh)
  let below := nm / dm
  let near := roundDiv nm dm
  if fits near then some near
  else if fits below then some below
  else if fits (below + 1) then some (below + 1)
  else none

def shortestFrom (x : Double) (k : Int) : Nat → Nat × Int
  | 0 => (x.mantissa, 0)
  | n + 1 =>
      match x.onGrid? k with
      | some g => if g = 0 then shortestFrom x (k - 1) n else (g, k)
      | none => shortestFrom x (k - 1) n

def shortest (x : Double) : Nat × Int :=
  if x.mantissa = 0 then (0, 0) else shortestFrom x 309 700

end Double

namespace Decimal

/-- How the text of a double is laid out: `point` digits stand before the decimal point. Small and
middling numbers are written out, all others with an exponent. -/
def layout (ds : List Char) (point : Int) : List Char :=
  let n : Int := ds.length
  if n ≤ point && point ≤ 16 then
    ds ++ List.replicate (point - n).toNat '0' ++ ['.', '0']
  else if 0 < point && point ≤ 16 then
    ds.take point.toNat ++ '.' :: ds.drop point.toNat
  else if -5 < point && point ≤ 0 then
    '0' :: '.' :: (List.replicate (-point).toNat '0' ++ ds)
  else
    let fraction :=
      match ds.drop 1 with
      | [] => []
      | rest => '.' :: rest
    ds.take 1 ++ fraction ++ 'e' :: (toString (point - 1)).toList

def doubleText (d : Decimal) : String :=
  let sign := if d.negative then "-" else ""
  match d.toDouble? with
  | none => sign ++ "inf"
  | some x =>
      let (g, k) := x.shortest
      if g = 0 then sign ++ "0.0"
      else
        let ds := Nat.toDigits 10 g
        sign ++ String.ofList (layout ds (ds.length + k))

end Decimal

end Scaffold
