import FlowAccess.Cadence.Error

/-!
# Codec errors

Why a domain value cannot be written to a wire, and why a wire message is no domain value. Decoding
errors carry the place at which they arose, from the outside in.
-/

namespace FlowAccess

open Text

/-! ## Writing -/

/-- Why a domain value cannot be written. -/
inductive EncodingError where
  | overflow (field : String) (value max : Nat)
  | missingField (field : String)
  | unwritable (field : String) (source : Cadence.Error)
  deriving DecidableEq

def EncodingError.message : EncodingError → String
  | .overflow field value max =>
    field ++ " value " ++ Numeral.ofNat value ++ " exceeds the wire maximum " ++ Numeral.ofNat max
  | .missingField field => "missing required field " ++ field
  | .unwritable field source => "failed to encode " ++ field ++ ": " ++ source.message

/-! ## Reading -/

/-- What can be wrong with a point in time. -/
inductive TimestampFault where
  /-- The text is none of RFC 3339. -/
  | unreadable (text : String)
  | negativeNanos (nanos : Int)
  | outOfRange (seconds : Int) (nanos : Nat)
  deriving DecidableEq

def TimestampFault.message : TimestampFault → String
  | .unreadable text => Quoted.quote text ++ ": <chrono>"
  | .negativeNanos nanos => "negative nanos " ++ Numeral.ofInt nanos
  | .outOfRange seconds nanos =>
    Numeral.ofInt seconds ++ "s " ++ Numeral.ofNat nanos ++ "ns is out of range"

/-- Where in a message an error arose. -/
inductive Place where
  | item (list : String) (index : Nat)
  | entry (map key : String)
  | part (name : String)
  deriving DecidableEq

def Place.name : Place → String
  | .item list index => list ++ "[" ++ Numeral.ofNat index ++ "]"
  | .entry map key => map ++ "[" ++ key ++ "]"
  | .part name => name

/-- Why a wire message is no domain value. -/
inductive DecodingError where
  | invalidLength (field : String) (expected actual : Nat)
  | invalidHex (field value : String)
  | invalidBase64 (field : String)
  | invalidNumber (field value : String)
  | overflow (field : String) (value max : Nat)
  | invalidEnum (field value : String)
  | invalidTimestamp (field : String) (fault : TimestampFault)
  | missingField (field : String)
  | chunkIndexMismatch (position index : Nat)
  | payload (source : Cadence.Error)
  | within (place : Place) (source : DecodingError)
  deriving DecidableEq

namespace DecodingError

def message : DecodingError → String
  | .invalidLength field expected actual =>
    "invalid length for " ++ field ++ ": expected " ++ Numeral.ofNat expected ++ " bytes, got " ++
      Numeral.ofNat actual
  | .invalidHex field value => "invalid hex for " ++ field ++ ": " ++ Quoted.quote value
  | .invalidBase64 field => "invalid base64 for " ++ field ++ ": <base64>"
  | .invalidNumber field value =>
    "invalid unsigned integer for " ++ field ++ ": " ++ Quoted.quote value
  | .overflow field value max =>
    field ++ " value " ++ Numeral.ofNat value ++ " exceeds " ++ Numeral.ofNat max
  | .invalidEnum field value => "invalid " ++ field ++ " value: " ++ value
  | .invalidTimestamp field fault => "invalid timestamp for " ++ field ++ ": " ++ fault.message
  | .missingField field => "missing required field " ++ field
  | .chunkIndexMismatch position index =>
    "chunk at position " ++ Numeral.ofNat position ++ " carries index " ++ Numeral.ofNat index
  | .payload source => "failed to decode event payload: " ++ source.message
  | .within place source => place.name ++ ": " ++ source.message

/-- The error without the places around it. -/
def root : DecodingError → DecodingError
  | .within _ source => source.root
  | e => e

end DecodingError

/-- Marks an error with the place at which it arose. -/
def Place.mark {α : Type} (place : Place) : Except DecodingError α → Except DecodingError α
  | .ok a => .ok a
  | .error e => .error (.within place e)

end FlowAccess
