import FlowAccess.Cadence.Ccf.Reader
import FlowAccess.Cadence.Ccf.Writer
import FlowAccess.Cadence.JsonCdc
import FlowAccess.Error
import FlowAccess.Text.Names

/-!
# Encodings of event payloads

The two encodings that a client can ask an access node for, their names and numbers, and reading
and writing a value in either.
-/

namespace FlowAccess

open Cadence

/-- An encoding of values. -/
inductive Encoding where
  | ccf
  | jsonCdc
  deriving DecidableEq, Inhabited

namespace Encoding

def name : Encoding → String
  | .ccf => "ccf"
  | .jsonCdc => "json-cdc"

/-- The names that are understood, in any case. -/
def ofName? : String → Option Encoding :=
  Text.lookupName [("ccf-v0", .ccf), ("ccf", .ccf), ("jsoncdc", .jsonCdc), ("json", .jsonCdc),
    ("json-cdc", .jsonCdc)]

/-- The number of an encoding in requests. -/
def code : Encoding → Nat
  | .jsonCdc => 0
  | .ccf => 1

def ofCode? : Int → Option Encoding
  | 0 => some .jsonCdc
  | 1 => some .ccf
  | _ => none

/-- The value of a payload. -/
def decode (encoding : Encoding) (options : ValueOptions) (payload : Bytes) :
    Except Cadence.Error Value :=
  match encoding with
  | .ccf => Ccf.decode payload
  | .jsonCdc => JsonCdc.decode options payload

/-- The payload of a value. -/
def encode (encoding : Encoding) (v : Value) : Except Cadence.Error Bytes :=
  match encoding with
  | .ccf => Ccf.encode v
  | .jsonCdc => .ok (JsonCdc.encode v)

end Encoding
end FlowAccess
