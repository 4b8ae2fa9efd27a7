import FlowAccess.Bytes

/-!
# Words of 128 bits

The widest numbers are computed in words of 128 bits, which hold a number without a sign or one with
a sign in two's complement. Shifts drop what leaves the word and sums wrap around; where a step is
checked, it gives nothing instead.
-/

namespace FlowAccess.Cadence.Ccf

abbrev Wide := BitVec 128

namespace Wide

/-- Takes another byte into a word, below what it holds. -/
def push (w : Wide) (b : UInt8) : Wide := w <<< 8 ||| b.toBitVec.setWidth 128

/-- The word that bytes make, most significant byte first. -/
def ofBytes (bytes : Bytes) : Wide := bytes.foldl push 0

/-- A number without a sign as one with a sign, if it is one. -/
def signed? (w : Wide) : Option Wide := if w.msb then none else some w

/-- The difference of two numbers with a sign, if it is one. -/
def sub? (a b : Wide) : Option Wide := if a.ssubOverflow b then none else some (a - b)

end Wide
end FlowAccess.Cadence.Ccf
