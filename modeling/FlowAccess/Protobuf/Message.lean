import FlowAccess.Protobuf.Record

/-!
# Protocol buffer messages

A message type says which records it writes and what it makes of the records that it reads. A
field that is absent has the default of its type, and defaults are not written. Of a field that
occurs several times the last value counts; the records of repeated singular messages are taken
together. Records of other fields do not matter.
-/

namespace FlowAccess.Protobuf

/-- The records of a message, and how many levels of groups or messages it has room for. -/
structure Fields where
  records : List Record
  room : Nat
  deriving DecidableEq

class Message (α : Type) where
  /-- The fields that hold the entries of a map. -/
  maps : List Nat := []
  /-- The records of a message, in the order of the field numbers. -/
  records : α → List Record
  ofFields? : Fields → Option α

/-- How many levels of groups and messages may be nested. -/
def maxNesting : Nat := 100

def encode {α : Type} [Message α] (message : α) : Bytes := writeRecords (Message.records message)

/-- The fields of a message of a type. -/
def Fields.ofBytes? (α : Type) [Message α] (room : Nat) (bytes : Bytes) : Option Fields :=
  (records? (Message.maps α) room [] bytes).map fun records => ⟨records, room⟩

/-- Reads a message that takes up all of the bytes. -/
def decode? {α : Type} [Message α] (bytes : Bytes) : Option α :=
  (Fields.ofBytes? α maxNesting bytes).bind Message.ofFields?

/-! ## Writing fields -/

namespace Record

def ofBytes (number : Nat) (bytes : Bytes) : List Record :=
  if bytes = [] then [] else [⟨number, .delimited bytes⟩]

def ofString (number : Nat) (s : String) : List Record := ofBytes number (Bytes.ofString s)

def ofNat (number n : Nat) : List Record := if n = 0 then [] else [⟨number, .varint n⟩]

def ofBool (number : Nat) (b : Bool) : List Record := ofNat number (if b then 1 else 0)

/-- A negative number is written in 64 bits of two's complement. -/
def ofInt (number : Nat) (n : Int) : List Record := ofNat number (n % (1 <<< 64 : Nat)).toNat

/-- Every item of a repeated field is written, even if it is empty. -/
def ofByteStrings (number : Nat) (items : List Bytes) : List Record :=
  items.map fun bytes => ⟨number, .delimited bytes⟩

def ofStrings (number : Nat) (items : List String) : List Record :=
  ofByteStrings number (items.map Bytes.ofString)

def ofMessages {α : Type} [Message α] (number : Nat) (messages : List α) : List Record :=
  ofByteStrings number (messages.map encode)

/-- A message that is present is written, even if all of its fields are absent. -/
def ofMessage? {α : Type} [Message α] (number : Nat) (message : Option α) : List Record :=
  ofMessages number message.toList

end Record

/-! ## Reading fields -/

namespace Fields

/-- The values of a field in order. -/
def contents (fields : Fields) (number : Nat) : List Content :=
  (fields.records.filter (·.number = number)).map (·.content)

/-- The values of a field whose values are byte strings. -/
def byteStrings? (fields : Fields) (number : Nat) : Option (List Bytes) :=
  (fields.contents number).mapM fun
    | .delimited bytes => some bytes
    | _ => none

/-- The values of a field whose values are numbers. -/
def varints? (fields : Fields) (number : Nat) : Option (List Nat) :=
  (fields.contents number).mapM fun
    | .varint n => some n
    | _ => none

def strings? (fields : Fields) (number : Nat) : Option (List String) := do
  (← fields.byteStrings? number).mapM Bytes.toString?

def bytes? (fields : Fields) (number : Nat) : Option Bytes :=
  (fields.byteStrings? number).map (·.getLastD [])

def string? (fields : Fields) (number : Nat) : Option String :=
  (fields.strings? number).map (·.getLastD "")

def varint? (fields : Fields) (number : Nat) : Option Nat :=
  (fields.varints? number).map (·.getLastD 0)

def uint64? (fields : Fields) (number : Nat) : Option UInt64 :=
  (fields.varint? number).map UInt64.ofNat

/-- The lowest 32 bits of a number. -/
def uint32? (fields : Fields) (number : Nat) : Option UInt32 :=
  (fields.varint? number).map UInt32.ofNat

def int64? (fields : Fields) (number : Nat) : Option Int64 :=
  (fields.varint? number).map fun n => Int64.ofInt n

/-- The lowest 32 bits of a number, with their sign. -/
def int32? (fields : Fields) (number : Nat) : Option Int32 :=
  (fields.varint? number).map fun n => Int32.ofInt n

def bool? (fields : Fields) (number : Nat) : Option Bool := (fields.varint? number).map (· ≠ 0)

/-- The fields of every message in a field. -/
def nested? (α : Type) [Message α] (fields : Fields) (number : Nat) : Option (List Fields) := do
  (← fields.byteStrings? number).mapM (ofBytes? α (fields.room - 1))

def messages? {α : Type} [Message α] (fields : Fields) (number : Nat) : Option (List α) := do
  (← fields.nested? α number).mapM Message.ofFields?

/-- The message in a field, if there is one. -/
def message? {α : Type} [Message α] (fields : Fields) (number : Nat) : Option (Option α) := do
  match ← fields.nested? α number with
  | [] => return none
  | parts => return some (← Message.ofFields? ⟨parts.flatMap (·.records), fields.room - 1⟩)

end Fields
end FlowAccess.Protobuf
