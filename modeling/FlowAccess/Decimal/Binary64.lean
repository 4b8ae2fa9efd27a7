/-!
# Doubles as exact numbers

A double is held by its 64 bits. Its magnitude is the exact number `mantissa * 2 ^ exponent`
(with the exponent held apart as an integer), so that every question of rounding is one of
natural numbers.
-/

namespace FlowAccess

/-- A double, by its IEEE 754 bits. -/
structure Binary64 where
  bits : UInt64
  deriving DecidableEq, Inhabited

namespace Binary64

def ofFloat (x : Float) : Binary64 := ⟨x.toBits⟩

/-- Whether the sign bit is set. -/
def negative (x : Binary64) : Bool := 1 <<< 63 ≤ x.bits.toNat

/-- The eleven exponent bits. -/
def biased (x : Binary64) : Nat := x.bits.toNat / 1 <<< 52 % 1 <<< 11

/-- The lowest 52 bits. -/
def fraction (x : Binary64) : Nat := x.bits.toNat % 1 <<< 52

/-- The integer part of the magnitude's exact form; below `2 ^ 53`. -/
def mantissa (x : Binary64) : Nat :=
  if x.biased = 0 then x.fraction else 1 <<< 52 + x.fraction

/-- The power of two of the magnitude's exact form. -/
def exponent (x : Binary64) : Int :=
  if x.biased = 0 then -1074 else (x.biased : Int) - 1075

/-- Whether the next double below is only half as far away as the next one above. -/
def narrowBelow (x : Binary64) : Bool := x.fraction = 0 ∧ 1 < x.biased

end Binary64
end FlowAccess
