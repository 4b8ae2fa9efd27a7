import FlowAccess.Address
import FlowAccess.Error
import FlowAccess.Identifier
import FlowAccess.Text.Base64
import FlowAccess.Timestamp

/-!
# Scalars on the wire

Reading the value of one field, given the name under which a fault is reported. Binary messages
carry identifiers and addresses as bytes and times as numbers; JSON documents carry all of these
as text.
-/

namespace FlowAccess.Scalar

open Text

/-! ## Binary forms -/

def octets (n : Nat) (field : String) (bytes : Bytes) : Except DecodingError (Octets n) :=
  match Octets.ofBytes? n bytes with
  | some x => .ok x
  | none => .error (.invalidLength field n bytes.length)

def identifier (field : String) (bytes : Bytes) : Except DecodingError Identifier :=
  octets 32 field bytes

/-- An identifier that a node may leave out. -/
def identifierOrEmpty (field : String) (bytes : Bytes) : Except DecodingError Identifier :=
  if bytes = [] then .ok .empty else identifier field bytes

def address (field : String) (bytes : Bytes) : Except DecodingError Address := octets 8 field bytes

def pointInTime (field : String) (seconds nanos : Int) : Except DecodingError Timestamp :=
  if nanos < 0 then .error (.invalidTimestamp field (.negativeNanos nanos))
  else
    match Timestamp.ofUnix? seconds nanos.toNat with
    | some t => .ok t
    | none => .error (.invalidTimestamp field (.outOfRange seconds nanos.toNat))

/-! ## Text forms -/

/-- Digits after an optional mark. -/
def hexBytes (field text : String) : Except DecodingError Bytes :=
  match Hex.decodeChars? (Hex.stripMark text.toList) with
  | some bytes => .ok bytes
  | none => .error (.invalidHex field text)

def hexIdentifier (field text : String) : Except DecodingError Identifier := do
  identifier field (← hexBytes field text)

/-- An identifier that a node may leave out. -/
def hexIdentifierOrEmpty (field text : String) : Except DecodingError Identifier :=
  if text = "" then .ok .empty else hexIdentifier field text

def hexAddress (field text : String) : Except DecodingError Address :=
  match Address.parse? text with
  | some a => .ok a
  | none => .error (.invalidHex field text)

def base64Bytes (field text : String) : Except DecodingError Bytes :=
  match Base64.decode? text with
  | some bytes => .ok bytes
  | none => .error (.invalidBase64 field)

/-- A number of at most 64 bits, as digits and nothing else. -/
def uint64 (field text : String) : Except DecodingError UInt64 :=
  match Numeral.nat? text.toList with
  | some n => if n < UInt64.size then .ok (.ofNat n) else .error (.invalidNumber field text)
  | none => .error (.invalidNumber field text)

/-- A number of at most 32 bits; one that fits 64 is refused for its size. -/
def uint32 (field text : String) : Except DecodingError UInt32 := do
  let n ← uint64 field text
  if n.toNat < UInt32.size then return n.toUInt32
  else .error (.overflow field n.toNat (UInt32.size - 1))

def timestamp (field text : String) : Except DecodingError Timestamp :=
  match Timestamp.parse? text with
  | some t => .ok t
  | none => .error (.invalidTimestamp field (.unreadable text))

end FlowAccess.Scalar
