import FlowAccess.Json.Number

/-!
# Writing JSON

A tree is written without blanks, its members in the order they are held in. Strings escape a
quote, a backslash and the controls below the space, and hold everything else as it is.
-/

namespace FlowAccess.Json

open Text

def hexDigits4 (n : Nat) : List Char :=
  [Nat.digitChar (n / 4096 % 16), Nat.digitChar (n / 256 % 16), Nat.digitChar (n / 16 % 16),
    Nat.digitChar (n % 16)]

def escape (c : Char) : List Char :=
  if c = '"' then ['\\', '"']
  else if c = '\\' then ['\\', '\\']
  else if c = '\n' then ['\\', 'n']
  else if c = '\r' then ['\\', 'r']
  else if c = '\t' then ['\\', 't']
  else if c = '\x08' then ['\\', 'b']
  else if c = '\x0c' then ['\\', 'f']
  else if c.toNat < 0x20 then ['\\', 'u'] ++ hexDigits4 c.toNat
  else [c]

def stringChars (s : String) : List Char := '"' :: (s.toList.flatMap escape ++ ['"'])

mutual

def chars : Json → List Char
  | .null => "null".toList
  | .bool true => "true".toList
  | .bool false => "false".toList
  | .number n => n.chars
  | .string s => stringChars s
  | .array [] => ['[', ']']
  | .array (item :: rest) => '[' :: (chars item ++ charsItems rest)
  | .object [] => ['\x7b', '\x7d']
  | .object ((name, value) :: rest) =>
    '\x7b' :: (stringChars name ++ ':' :: (chars value ++ charsMembers rest))

/-- The items after the first, and the bracket that closes the array. -/
def charsItems : List Json → List Char
  | [] => [']']
  | item :: rest => ',' :: (chars item ++ charsItems rest)

/-- The members after the first, and the bracket that closes the object. -/
def charsMembers : List (String × Json) → List Char
  | [] => ['\x7d']
  | (name, value) :: rest =>
    ',' :: (stringChars name ++ ':' :: (chars value ++ charsMembers rest))

end

/-- The text of a tree. -/
def render (json : Json) : String := String.ofList json.chars

end FlowAccess.Json
