import FlowAccess.Bytes

/-!
# CBOR items

Writing and reading of the items that messages are made of. Heads are written in their shortest
form and read in any form. Containers and strings are read with a definite length only; an array
that has none is told apart.
-/

namespace FlowAccess.Cbor

/-! ## Writing -/

/-- The kinds of items. -/
inductive Major where
  | unsigned
  | negative
  | bytes
  | text
  | array
  | map
  | tag
  | simple
  deriving DecidableEq

/-- The number of a kind, which stands in the upper three bits of an item's first byte. -/
def Major.code : Major → Nat
  | .unsigned => 0
  | .negative => 1
  | .bytes => 2
  | .text => 3
  | .array => 4
  | .map => 5
  | .tag => 6
  | .simple => 7

/-- The head of an item in its shortest form, for an argument below `2 ^ 64`. -/
def head (m : Major) (n : Nat) : Bytes :=
  let first (info : Nat) : UInt8 := UInt8.ofNat (32 * m.code + info)
  if n < 24 then [first n]
  else if n < 1 <<< 8 then first 24 :: Bytes.ofNat 1 n
  else if n < 1 <<< 16 then first 25 :: Bytes.ofNat 2 n
  else if n < 1 <<< 32 then first 26 :: Bytes.ofNat 4 n
  else first 27 :: Bytes.ofNat 8 n

def bytes (bs : Bytes) : Bytes := head .bytes bs.length ++ bs

def text (s : String) : Bytes :=
  let bs := Bytes.ofString s
  head .text bs.length ++ bs

def bool (b : Bool) : Bytes := if b then [0xf5] else [0xf4]

def null : Bytes := [0xf6]

/-- The tags of integers that do not fit 64 bits: `n` from its magnitude, or `-1 - n`. -/
def positiveBignum : Nat := 2

def negativeBignum : Nat := 3

def bignum (tag magnitude : Nat) : Bytes := head .tag tag ++ bytes (Bytes.minimal magnitude)

/-- Whether an integer has a plain item, which holds a sign and 64 bits. -/
def isPlain (n : Int) : Bool := -(1 <<< 64) ≤ n ∧ n < 1 <<< 64

/-- A plain integer. -/
def plain (n : Int) : Bytes :=
  if 0 ≤ n then head .unsigned n.toNat else head .negative (-1 - n).toNat

/-! ## Reading -/

/-- A reader takes items from the front of a byte string. -/
abbrev Reader := StateT Bytes Option

namespace Reader

/-- The next byte. -/
def byte : Reader UInt8 := fun input =>
  match input with
  | [] => none
  | b :: rest => some (b, rest)

/-- The next `n` bytes. -/
def take (n : Nat) : Reader Bytes := fun input =>
  if n ≤ input.length then some (input.take n, input.drop n) else none

/-- The number that the lower five bits of a first byte hold or announce. -/
def argument (info : Nat) : Reader Nat :=
  if info < 24 then return info
  else if info = 24 then return (← take 1).toNat
  else if info = 25 then return (← take 2).toNat
  else if info = 26 then return (← take 4).toNat
  else if info = 27 then return (← take 8).toNat
  else failure

/-- The head of an item of the given kind. -/
def head (m : Major) : Reader Nat := do
  let b ← byte
  if b.toNat / 32 = m.code then argument (b.toNat % 32) else failure

def tag : Reader Nat := head .tag

/-- The length of an array; none if the array ends with a break. -/
def array : Reader (Option Nat) := do
  let b ← byte
  if b.toNat / 32 ≠ Major.array.code then failure
  else if b.toNat % 32 = 31 then return none
  else return some (← argument (b.toNat % 32))

def bytes : Reader Bytes := do take (← head .bytes)

def text : Reader String := do
  match (← take (← head .text)).toString? with
  | some s => return s
  | none => failure

def bool : Reader Bool := do
  match (← byte) with
  | 0xf4 => return false
  | 0xf5 => return true
  | _ => failure

def null : Reader Unit := do
  if (← byte) = 0xf6 then return () else failure

def unsigned : Reader Nat := head .unsigned

/-- A plain integer. -/
def integer : Reader Int := do
  let b ← byte
  let n ← argument (b.toNat % 32)
  if b.toNat / 32 = Major.unsigned.code then return n
  else if b.toNat / 32 = Major.negative.code then return -1 - (n : Int)
  else failure

/-- The first byte of the next item, which stays unread. A negative integer shows its width only
with the byte after that, which has to be there. -/
def peek : Reader UInt8 := fun input =>
  match input with
  | [] => none
  | [b] => if 0x38 ≤ b.toNat ∧ b.toNat ≤ 0x3b then none else some (b, input)
  | b :: _ => some (b, input)

/-- Whether the next item is null. -/
def nextIsNull : Reader Bool := return (← peek) = 0xf6

/-- Whether the next item is tagged. -/
def nextIsTag : Reader Bool := return (← peek).toNat / 32 = Major.tag.code

end Reader
end FlowAccess.Cbor
