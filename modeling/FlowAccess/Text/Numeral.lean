/-!
# Decimal numerals

Numbers are written without leading zeros. Reading takes any number of digits, leading zeros
included; which signs it takes is the caller's choice. Where a number is read into a machine word,
each step is checked.
-/

namespace FlowAccess

/-! ## Words of 64 bits -/

/-- The sum of two words, if it is one. -/
def Word.add? (a b : UInt64) : Option UInt64 :=
  if a.toNat + b.toNat < UInt64.size then some (a + b) else none

/-- The product of two words, if it is one. -/
def Word.mul? (a b : UInt64) : Option UInt64 :=
  if b.toNat * a.toNat < UInt64.size then some (a * b) else none

/-! ## Numerals -/

namespace Text.Numeral

/-- The digits of a number. -/
def digits (n : Nat) : List Char := Nat.toDigits 10 n

/-- At least `width` digits, filled up with zeros on the left. -/
def padded (width n : Nat) : List Char :=
  let ds := digits n
  List.replicate (width - ds.length) '0' ++ ds

def ofNat (n : Nat) : String := String.ofList (digits n)

def ofInt (n : Int) : String :=
  if n < 0 then String.ofList ('-' :: digits n.natAbs) else String.ofList (digits n.natAbs)

def isDigit (c : Char) : Bool := '0' ≤ c ∧ c ≤ '9'

/-- The number that a string of digits denotes. -/
def value (cs : List Char) : Nat := cs.foldl (fun n c => 10 * n + (c.toNat - '0'.toNat)) 0

/-- One or more digits and nothing else. -/
def nat? (cs : List Char) : Option Nat :=
  if cs ≠ [] ∧ cs.all isDigit then some (value cs) else none

/-- One or more digits after an optional plus sign. -/
def unsigned? : List Char → Option Nat
  | '+' :: cs => nat? cs
  | cs => nat? cs

/-- One or more digits after an optional sign. -/
def signed? : List Char → Option Int
  | '-' :: cs => (nat? cs).map fun n => -(n : Int)
  | cs => (unsigned? cs).map Int.ofNat

/-- Takes another digit into the word that the digits before it denote. -/
def push? (w : UInt64) (c : Char) : Option UInt64 := do
  Word.add? (← Word.mul? w 10) (.ofNat (c.toNat - '0'.toNat))

/-- One or more digits and nothing else, as a word. -/
def word? (cs : List Char) : Option UInt64 :=
  if cs ≠ [] ∧ cs.all isDigit then cs.foldlM push? 0 else none

end Text.Numeral
end FlowAccess
