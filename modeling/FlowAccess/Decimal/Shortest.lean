import FlowAccess.Decimal.Binary64

/-!
# The shortest decimal of a double

Among the decimals that read back as a given double, `shortest` picks one with the fewest digits,
and of several of those the nearest. For each number of digits it tests the two neighbours of the
exact value on that decimal grid, in natural arithmetic.
-/

namespace FlowAccess

/-- The decimal `digits * 10 ^ exponent`. -/
structure Decimal where
  digits : Nat
  exponent : Int
  deriving DecidableEq, Inhabited

namespace Decimal

/-- Numerator and denominator of `n * base ^ e`. -/
def scale (n base : Nat) (e : Int) : Nat × Nat :=
  if 0 ≤ e then (n * Nat.pow base e.toNat, 1) else (n, Nat.pow base (-e).toNat)

/-- The numbers that round to one double: fractions over a common denominator. -/
structure Interval where
  low : Nat
  mid : Nat
  high : Nat
  den : Nat
  /-- Whether both ends belong to the interval. -/
  closed : Bool

/-- The interval of the numbers that round to a magnitude. -/
def Interval.of (x : Binary64) : Interval :=
  let (num, den) := scale 1 2 x.exponent
  let m := x.mantissa
  { low := (if x.narrowBelow then 4 * m - 1 else 4 * m - 2) * num
    mid := 4 * m * num
    high := (4 * m + 2) * num
    den := 4 * den
    closed := m % 2 = 0 }

/-- Whether `n * 10 ^ e` lies in the interval. -/
def Interval.contains (i : Interval) (n : Nat) (e : Int) : Bool :=
  let (num, den) := scale n 10 e
  let x := num * i.den
  let low := i.low * den
  let high := i.high * den
  if i.closed then low ≤ x && x ≤ high else low < x && x < high

/-- The grid point of step `10 ^ e` that lies in the interval nearest to its middle. -/
def Interval.gridPoint? (i : Interval) (e : Int) : Option Nat :=
  let (num, den) := scale 1 10 e
  let step := num * i.den
  let mid := i.mid * den
  let below := mid / step
  let toBelow := mid - below * step
  let toAbove := (below + 1) * step - mid
  match i.contains below e, i.contains (below + 1) e with
  | true, true =>
    if toBelow < toAbove then some below
    else if toAbove < toBelow then some (below + 1)
    else if below % 2 = 0 then some below else some (below + 1)
  | true, false => some below
  | false, true => some (below + 1)
  | false, false => none

/-- The number of decimal digits. -/
def digitCount (n : Nat) : Nat := (Nat.toDigits 10 n).length

/-- The power of ten that is at most a positive fraction, which is below ten times it. -/
def magnitude (num den : Nat) : Int :=
  let guess : Int := (digitCount num : Int) - digitCount den
  let (p, q) := scale 1 10 guess
  if p * den ≤ num * q then guess else guess - 1

/-- The first grid, from the given step down, that has a point in the interval. -/
def Interval.firstPoint? (i : Interval) : (tries : Nat) → Int → Option Decimal
  | 0, _ => none
  | tries + 1, e =>
    match i.gridPoint? e with
    | some n => some ⟨n, e⟩
    | none => i.firstPoint? tries (e - 1)

/-- Drops trailing zeros of the digits. -/
def normalize (d : Decimal) : (tries : Nat) → Decimal
  | 0 => d
  | tries + 1 =>
    if d.digits % 10 = 0 ∧ d.digits ≠ 0 then
      normalize ⟨d.digits / 10, d.exponent + 1⟩ tries
    else d

/-- The shortest decimal of the magnitude of a double that is finite and not zero. -/
def shortest (x : Binary64) : Decimal :=
  let i := Interval.of x
  let e := magnitude i.mid i.den
  match i.firstPoint? 18 (e + 1) with
  | some d => d.normalize 20
  | none => ⟨0, 0⟩

end Decimal
end FlowAccess
