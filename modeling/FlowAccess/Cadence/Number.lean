import FlowAccess.Text.Numeral

/-!
# Cadence numbers

The eighteen kinds of numbers, each with its range. A number is held as an integer within the
range of its kind; the fixed-point kinds count in units of `10 ^ -8`.
-/

namespace FlowAccess.Cadence

inductive NumberKind where
  | int
  | int8
  | int16
  | int32
  | int64
  | int128
  | uint
  | uint8
  | uint16
  | uint32
  | uint64
  | uint128
  | word8
  | word16
  | word32
  | word64
  | fix64
  | ufix64
  deriving DecidableEq, Inhabited

namespace NumberKind

/-- The kinds in the order of their declaration. -/
def all : List NumberKind :=
  [.int, .int8, .int16, .int32, .int64, .int128, .uint, .uint8, .uint16, .uint32, .uint64,
    .uint128, .word8, .word16, .word32, .word64, .fix64, .ufix64]

def name : NumberKind → String
  | .int => "Int"
  | .int8 => "Int8"
  | .int16 => "Int16"
  | .int32 => "Int32"
  | .int64 => "Int64"
  | .int128 => "Int128"
  | .uint => "UInt"
  | .uint8 => "UInt8"
  | .uint16 => "UInt16"
  | .uint32 => "UInt32"
  | .uint64 => "UInt64"
  | .uint128 => "UInt128"
  | .word8 => "Word8"
  | .word16 => "Word16"
  | .word32 => "Word32"
  | .word64 => "Word64"
  | .fix64 => "Fix64"
  | .ufix64 => "UFix64"

def ofName? (name : String) : Option NumberKind := all.find? (·.name = name)

/-- Whether numbers of the kind have a fraction. -/
def isFixed : NumberKind → Bool
  | .fix64 | .ufix64 => true
  | _ => false

/-- Whether the kind has negative numbers. -/
def signed : NumberKind → Bool
  | .int | .int8 | .int16 | .int32 | .int64 | .int128 | .fix64 => true
  | _ => false

/-- The width in bits. `Int` and `UInt` are held in 128 bits. -/
def bits : NumberKind → Nat
  | .int8 | .uint8 | .word8 => 8
  | .int16 | .uint16 | .word16 => 16
  | .int32 | .uint32 | .word32 => 32
  | .int64 | .uint64 | .word64 | .fix64 | .ufix64 => 64
  | .int | .int128 | .uint | .uint128 => 128

/-- The least number of the kind. -/
def least (k : NumberKind) : Int := if k.signed then -(1 <<< (k.bits - 1) : Nat) else 0

/-- The greatest number of the kind. -/
def greatest (k : NumberKind) : Int :=
  if k.signed then (1 <<< (k.bits - 1) : Nat) - 1 else (1 <<< k.bits : Nat) - 1

end NumberKind

/-- A number of one of the kinds. -/
structure Number where
  kind : NumberKind
  /-- The number, or for the fixed-point kinds the number times `10 ^ 8`. -/
  raw : Int
  least_le : kind.least ≤ raw
  le_greatest : raw ≤ kind.greatest
  deriving DecidableEq

namespace Number

/-- The number of that kind, if the kind has it. -/
def ofInt? (kind : NumberKind) (raw : Int) : Option Number :=
  if h : kind.least ≤ raw ∧ raw ≤ kind.greatest then some ⟨kind, raw, h.1, h.2⟩ else none

@[simp] theorem ofInt?_raw (n : Number) : ofInt? n.kind n.raw = some n :=
  dif_pos ⟨n.least_le, n.le_greatest⟩

theorem ofInt?_eq_some_iff {kind : NumberKind} {raw : Int} {n : Number} :
    ofInt? kind raw = some n ↔ n.kind = kind ∧ n.raw = raw := by
  constructor
  · intro h
    simp only [ofInt?] at h
    split at h
    · cases h; exact ⟨rfl, rfl⟩
    · cases h
  · rintro ⟨rfl, rfl⟩
    exact ofInt?_raw n

open Text

/-- Units in one. -/
def unit : Nat := 100000000

/-- The text of a number: an integer, or for the fixed-point kinds an integer and eight decimal
places. -/
def literal (n : Number) : String :=
  if n.kind.isFixed then
    let sign := if n.raw < 0 then ['-'] else []
    let m := n.raw.natAbs
    String.ofList (sign ++ Numeral.digits (m / unit) ++ '.' :: Numeral.padded 8 (m % unit))
  else Numeral.ofInt n.raw

/-- Reads an integer with an optional sign; a minus sign only for the signed kinds. -/
def integer? (signed : Bool) (cs : List Char) : Option Int :=
  if signed then Numeral.signed? cs else (Numeral.unsigned? cs).map Int.ofNat

/-- The units of the digits after a point, of which there are at most eight. -/
def fractionUnits? (fraction : List Char) : Option UInt64 :=
  if fraction = [] then some 0
  else (Numeral.word? fraction).map (· * .ofNat (Nat.pow 10 (8 - fraction.length)))

/-- So many ones and units, in units that fit a word. -/
def inUnits? (ones units : UInt64) : Option UInt64 := do
  Word.add? (← Word.mul? ones (.ofNat unit)) units

/-- Reads digits with up to eight decimal places, in units. -/
def units? (cs : List Char) : Option UInt64 := do
  let whole := cs.takeWhile (· ≠ '.')
  let fraction := (cs.dropWhile (· ≠ '.')).drop 1
  if fraction.all Numeral.isDigit ∧ fraction.length ≤ 8 then
    let n ← Numeral.word? whole
    let m ← fractionUnits? fraction
    inUnits? n m
  else none

/-- Reads a decimal with up to eight places, in units; a minus sign only for the signed kinds. -/
def fixed? (signed : Bool) : List Char → Option Int
  | '-' :: cs => if signed then (units? cs).map fun n => -(n.toNat : Int) else none
  | cs => (units? cs).map fun n => n.toNat

/-- The number of a kind that a text denotes. -/
def parse? (kind : NumberKind) (text : String) : Option Number :=
  (if kind.isFixed then fixed? kind.signed text.toList else integer? kind.signed text.toList).bind
    (ofInt? kind)

end Number
end FlowAccess.Cadence
