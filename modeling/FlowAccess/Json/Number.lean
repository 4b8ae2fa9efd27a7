import FlowAccess.Json.Basic
import FlowAccess.Text.Numeral
import FlowAccess.Decimal.Shortest

/-!
# JSON numbers as text

Integers of at most 64 bits are exact. Every other literal becomes a double in two roundings: the
digits that are kept of it, a number of at most 64 bits, become a double, which is then multiplied
or divided by a power of ten. A double is written with the fewest digits that read back,
positionally while its leading digit stands at one of the places from `10 ^ -5` to `10 ^ 15`.
-/

namespace FlowAccess.Json

open Text

/-- The parts of a number literal. -/
structure Literal where
  negative : Bool
  /-- Digits before the point; at least one, and no zero before another digit. -/
  whole : List Char
  /-- Digits after the point; none without a point. -/
  fraction : List Char
  exponentNegative : Bool
  /-- Digits of the exponent; none without an exponent. -/
  exponent : List Char
  deriving DecidableEq

namespace Literal

/-- The exponent of a literal: a mark, an optional sign and one or more digits. -/
def exponent? : List Char → Option (Bool × List Char)
  | [] => some (false, [])
  | c :: rest =>
    if c = 'e' ∨ c = 'E' then
      let (negative, ds) :=
        match rest with
        | '-' :: ds => (true, ds)
        | '+' :: ds => (false, ds)
        | ds => (false, ds)
      if ds ≠ [] ∧ ds.all Numeral.isDigit then some (negative, ds) else none
    else none

/-- The fraction of a literal, if it has a point, and what follows it. -/
def fraction? : List Char → Option (List Char × List Char)
  | '.' :: rest =>
    let ds := rest.takeWhile Numeral.isDigit
    if ds = [] then none else some (ds, rest.dropWhile Numeral.isDigit)
  | rest => some ([], rest)

/-- Reads a literal by the grammar of JSON numbers. -/
def ofChars? (cs : List Char) : Option Literal := do
  let (negative, cs) :=
    match cs with
    | '-' :: cs => (true, cs)
    | cs => (false, cs)
  let whole := cs.takeWhile Numeral.isDigit
  if whole = [] ∨ (whole.head? = some '0' ∧ whole ≠ ['0']) then none
  else
    let (fraction, rest) ← fraction? (cs.dropWhile Numeral.isDigit)
    let (exponentNegative, exponent) ← exponent? rest
    return { negative, whole, fraction, exponentNegative, exponent }

/-- Whether a literal has neither a fraction nor an exponent. -/
def isWhole (l : Literal) : Bool := l.fraction.isEmpty && l.exponent.isEmpty

/-- The digits of a list that fit 64 bits after those already read, and the rest. -/
def takeDigits (n : Nat) : List Char → Nat × List Char
  | [] => (n, [])
  | c :: cs =>
    let m := 10 * n + (c.toNat - '0'.toNat)
    if m < 1 <<< 64 then takeDigits m cs else (n, c :: cs)

/-- The digits that are kept, and the power of ten they stand for. Of the whole part and of the
fraction the leading digits are kept, each as far as the number stays within 64 bits. A whole digit
that is left out moves the power up, a digit of the fraction that is kept moves it down. The
fraction may go on where the whole part has stopped. -/
def significand (l : Literal) : Nat × Int :=
  let (n, left) := takeDigits 0 l.whole
  let (m, rest) := takeDigits n l.fraction
  (m, (left.length : Int) + rest.length - l.fraction.length)

/-- The double nearest to a power of ten. -/
def powerOfTen (k : Nat) : Float := OfScientific.ofScientific 1 false k

/-- Divides a double by `10 ^ k` in steps that stay in range. -/
def divideSteps (x : Float) (k : Nat) : Float :=
  if x == 0.0 then x
  else if k ≤ 308 then x / powerOfTen k
  else divideSteps (x / powerOfTen 308) (k - 308)
termination_by k

/-- The double of `n * 10 ^ e`; none beyond the finite doubles. -/
def double? (n : Nat) (e : Int) : Option Float :=
  let x := (UInt64.ofNat n).toFloat
  if 0 ≤ e then
    if e ≤ 308 then
      let y := x * powerOfTen e.toNat
      if y.isInf then none else some y
    else if x == 0.0 then some x else none
  else some (divideSteps x (-e).toNat)

/-- The exponent of a literal, held within 32 bits; none if its digits do not fit. -/
def writtenExponent? (l : Literal) : Option Int :=
  let n := Numeral.value l.exponent
  if n < 1 <<< 31 then some (if l.exponentNegative then -(n : Int) else n) else none

/-- The least and the greatest exponent. -/
def clampExponent (e : Int) : Int := max (-(1 <<< 31 : Nat)) (min e ((1 <<< 31 : Nat) - 1))

/-- The double of a literal's magnitude. An exponent too long to hold makes the number zero if it
is negative or the digits are all zero. -/
def magnitude? (l : Literal) : Option Float :=
  let (n, e) := l.significand
  match l.writtenExponent? with
  | some w => double? n (clampExponent (e + w))
  | none => if n = 0 ∨ l.exponentNegative then some 0.0 else none

/-- The number that a literal denotes; none beyond the finite doubles. Minus zero is a double. -/
def number? (l : Literal) : Option Number :=
  let n := Numeral.value l.whole
  if l.isWhole ∧ !l.negative ∧ n < 1 <<< 64 then some (.integer n)
  else if l.isWhole ∧ l.negative ∧ 0 < n ∧ n ≤ 1 <<< 63 then some (.integer (-(n : Int)))
  else l.magnitude?.map fun x => .real (.ofFloat (if l.negative then -x else x))

end Literal

/-- The text of a finite double. -/
def realChars (x : Binary64) : List Char :=
  let sign := if x.negative then ['-'] else []
  if x.mantissa = 0 then sign ++ ['0', '.', '0']
  else
    let d := Decimal.shortest x
    let ds := Numeral.digits d.digits
    let place : Int := d.exponent + ds.length - 1
    if 15 < place ∨ place < -5 then
      let fraction := match ds.drop 1 with
        | [] => []
        | rest => '.' :: rest
      let exponent := if place < 0 then '-' :: Numeral.digits place.natAbs
        else '+' :: Numeral.digits place.natAbs
      sign ++ ds.take 1 ++ fraction ++ 'e' :: exponent
    else if 0 ≤ d.exponent then
      sign ++ ds ++ List.replicate d.exponent.toNat '0' ++ ['.', '0']
    else if 0 ≤ place then
      sign ++ ds.take (place.toNat + 1) ++ '.' :: ds.drop (place.toNat + 1)
    else
      sign ++ ['0', '.'] ++ List.replicate (-place - 1).toNat '0' ++ ds

/-- The text of a number. -/
def Number.chars : Number → List Char
  | .integer n => if n < 0 then '-' :: Numeral.digits n.natAbs else Numeral.digits n.natAbs
  | .real x => realChars x

end FlowAccess.Json
