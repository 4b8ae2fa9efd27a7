import FlowAccess.Text.Hex

/-!
# Request targets

The path and the query of a request as they are sent. In a path, what a URL cannot hold is written
as percent signs and digits; in a query, so is everything but letters, digits and four marks, and
a space is a plus sign.
-/

namespace FlowAccess.Rest.Target

open Text

/-- A byte as a percent sign and two upper-case digits. -/
def percent (b : UInt8) : List Char := '%' :: (Hex.byteDigits b).map Char.toUpper

/-- Whether a byte is a letter or a digit. -/
def isAlphanumeric (b : UInt8) : Bool :=
  let c := Char.ofNat b.toNat
  ('0' ≤ c ∧ c ≤ '9') ∨ ('A' ≤ c ∧ c ≤ 'Z') ∨ ('a' ≤ c ∧ c ≤ 'z')

/-- Whether a path holds a byte as it is. -/
def isPathByte (b : UInt8) : Bool :=
  let c := Char.ofNat b.toNat
  0x20 < b.toNat ∧ b.toNat < 0x7F ∧
    c ∉ ['"', '#', '<', '>', '?', '\x60', '\x7b', '\x7d', '^']

def pathChars (bytes : Bytes) : List Char :=
  bytes.flatMap fun b => if isPathByte b then [Char.ofNat b.toNat] else percent b

def queryByte (b : UInt8) : List Char :=
  let c := Char.ofNat b.toNat
  if c = ' ' then ['+']
  else if isAlphanumeric b ∨ c ∈ ['*', '-', '.', '_'] then [c]
  else percent b

def queryChars (s : String) : List Char := (Bytes.ofString s).flatMap queryByte

/-- A name, an equals sign and a value. -/
def parameterChars (parameter : String × String) : List Char :=
  queryChars parameter.1 ++ '=' :: queryChars parameter.2

/-- A path, and behind a question mark the parameters, if there are any. -/
def render (path : String) (parameters : List (String × String)) : String :=
  let query := match parameters with
    | [] => []
    | p :: ps => '?' :: parameterChars p ++ ps.flatMap fun q => '&' :: parameterChars q
  String.ofList (pathChars (Bytes.ofString path) ++ query)

end FlowAccess.Rest.Target
