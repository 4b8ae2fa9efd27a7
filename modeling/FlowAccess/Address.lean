import FlowAccess.Octets

/-!
# Account addresses

An address is eight bytes. Its text is up to sixteen hexadecimal digits, with or without `0x` in
front; short text is filled up with zeros on the left.
-/

namespace FlowAccess

/-- The address of an account. -/
abbrev Address := Octets 8

namespace Address

/-- Sixteen characters of a shorter text. -/
def pad (digits : List Char) : List Char := List.replicate (16 - digits.length) '0' ++ digits

/-- Reads one to sixteen digits after an optional mark. What is too long is told by its bytes in
UTF-8, and what is too short is filled up by its characters; digits have one byte each. -/
def parse? (text : String) : Option Address :=
  let digits := Text.Hex.stripMark text.toList
  if digits = [] ∨ 16 < (String.ofList digits).utf8ByteSize then none
  else (Text.Hex.decodeChars? (pad digits)).bind (Octets.ofBytes? 8)

/-- Sixteen digits after the mark. -/
def prefixed (a : Address) : String := "0x" ++ a.hex

/-- An address in words. -/
def describe (a : Address) : String := "Address(" ++ a.hex ++ ")"

end Address
end FlowAccess
