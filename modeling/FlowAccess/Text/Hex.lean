import FlowAccess.Bytes

/-!
# Hexadecimal text

Two digits a byte. Digits are written in lower case and read in either case; reading accepts
nothing but pairs of ASCII digits.
-/

namespace FlowAccess.Text.Hex

/-- The value of a hexadecimal digit of either case. -/
def digit? (c : Char) : Option Nat :=
  if '0' ≤ c ∧ c ≤ '9' then some (c.toNat - '0'.toNat)
  else if 'a' ≤ c ∧ c ≤ 'f' then some (c.toNat - 'a'.toNat + 10)
  else if 'A' ≤ c ∧ c ≤ 'F' then some (c.toNat - 'A'.toNat + 10)
  else none

/-- The two lower-case digits of a byte. -/
def byteDigits (b : UInt8) : List Char :=
  [Nat.digitChar (b.toNat / 16), Nat.digitChar (b.toNat % 16)]

def encodeChars (bytes : Bytes) : List Char := bytes.flatMap byteDigits

def encode (bytes : Bytes) : String := String.ofList (encodeChars bytes)

/-- Refuses an odd number of digits and anything that is no digit. -/
def decodeChars? : List Char → Option Bytes
  | [] => some []
  | [_] => none
  | hi :: lo :: rest => do
    let hi ← digit? hi
    let lo ← digit? lo
    let bytes ← decodeChars? rest
    return UInt8.ofNat (16 * hi + lo) :: bytes

def decode? (text : String) : Option Bytes := decodeChars? text.toList

/-- The digits of a text without the mark in front of hexadecimal numbers, which is optional. -/
def stripMark : List Char → List Char
  | '0' :: 'x' :: digits => digits
  | digits => digits

/-- The digits of a number in lower case without leading zeros, and one digit for 0. -/
def ofNat (n : Nat) : List Char := Nat.toDigits 16 n

end FlowAccess.Text.Hex
