import FlowAccess.Encoding
import FlowAccess.Identifier
import FlowAccess.Text.Blank
import FlowAccess.Timestamp

/-!
# Events

An event is received with its payload still encoded. The value is decoded when it is asked for,
and kept; what is kept is derived data and takes no part in comparing events.
-/

namespace FlowAccess

open Cadence Text

structure Event where
  eventType : String
  transactionId : Identifier
  transactionIndex : UInt32
  eventIndex : UInt32
  payload : Bytes
  encoding : Encoding
  options : ValueOptions := {}
  /-- The value, once it has been decoded. -/
  keptValue : Option Value := none
  /-- The name of the value's type, once it has been asked for. -/
  keptTypeId : Option String := none
  deriving DecidableEq, Inhabited

namespace Event

/-- What is received of an event: everything but the options and what is kept. -/
def received (e : Event) : Event :=
  { e with options := {}, keptValue := none, keptTypeId := none }

/-- Whether two events are received alike. -/
def Same (e f : Event) : Prop := e.received = f.received

instance (e f : Event) : Decidable (Same e f) := inferInstanceAs (Decidable (_ = _))

def isDecoded (e : Event) : Bool := e.keptValue.isSome

/-- The value, and the event that has it. A value that cannot be decoded is not kept. -/
def value (e : Event) : Except DecodingError Value × Event :=
  match e.keptValue with
  | some v => (.ok v, e)
  | none =>
    match e.encoding.decode e.options e.payload with
    | .ok v => (.ok v, { e with keptValue := some v })
    | .error err => (.error (.payload err), e)

/-- The name of the value's type, and the event that has it. -/
def valueTypeId (e : Event) : Except DecodingError String × Event :=
  match e.value with
  | (.error err, e) => (.error err, e)
  | (.ok v, e) =>
    match e.keptTypeId with
    | some t => (.ok t, e)
    | none => (.ok v.typeId, { e with keptTypeId := some v.typeId })

/-- The payload in an encoding, and the event after the value was needed for that. The payload is
taken as it is if it is in that encoding already. -/
def payloadIn (encoding : Encoding) (e : Event) : Except EncodingError Bytes × Event :=
  if encoding = e.encoding then (.ok e.payload, e)
  else
    match e.value with
    | (.error _, e) => (.error (.missingField "event.payload"), e)
    | (.ok v, e) =>
      match encoding.encode v with
      | .ok payload => (.ok payload, e)
      | .error err => (.error (.unwritable "event.payload" err), e)

/-- The event of a value, whose payload is the value's. -/
def ofValue (eventType : String) (transactionId : Identifier) (transactionIndex eventIndex : UInt32)
    (v : Value) (encoding : Encoding) : Except EncodingError Event :=
  match encoding.encode v with
  | .ok payload =>
    .ok { eventType, transactionId, transactionIndex, eventIndex, payload, encoding
          keptValue := some v }
  | .error err => .error (.unwritable "event.payload" err)

/-- The event with another payload. What is kept stays as it is. -/
def withPayload (payload : Bytes) (e : Event) : Event := { e with payload := payload }

/-- The event with other options for decoding its payload. -/
def withOptions (options : ValueOptions) (e : Event) : Event := { e with options := options }

/-- The name of an encoding in the description of an event. -/
def encodingLabel : Encoding → String
  | .ccf => "Ccf"
  | .jsonCdc => "JsonCdc"

/-- An event in words, with the length of its payload in place of the payload. -/
def describe (e : Event) : String :=
  "Event \x7b event_type: " ++ Quoted.quote e.eventType ++
    ", transaction_id: " ++ Identifier.describe e.transactionId ++
    ", transaction_index: " ++ Numeral.ofNat e.transactionIndex.toNat ++
    ", event_index: " ++ Numeral.ofNat e.eventIndex.toNat ++
    ", payload_len: " ++ Numeral.ofNat e.payload.length ++
    ", encoding: " ++ encodingLabel e.encoding ++
    ", decoded: " ++ (if e.isDecoded then "true" else "false") ++ " \x7d"

end Event

/-- All events of one block that answer a query. -/
structure BlockEvents where
  blockId : Identifier
  height : UInt64
  timestamp : Timestamp
  events : List Event
  deriving DecidableEq, Inhabited

/-! ## Queries -/

/-- What a subscription to events lets through. Empty lists let everything through. -/
structure EventFilter where
  eventTypes : List String
  addresses : List String
  contracts : List String
  deriving DecidableEq, Inhabited

namespace EventFilter

def isEmpty (f : EventFilter) : Bool :=
  f.eventTypes.isEmpty && f.addresses.isEmpty && f.contracts.isEmpty

inductive Fault where
  | blankEntry (entry : String)
  | invalidAddress (address : String)
  deriving DecidableEq

def Fault.message : Fault → String
  | .blankEntry entry => "event filter contains a blank entry: " ++ Quoted.quote entry
  | .invalidAddress address => "invalid address in event filter: " ++ address

/-- What an access node would refuse the filter for: the first blank name, or the first text that
is no address. -/
def fault? (f : EventFilter) : Option Fault :=
  match (f.eventTypes ++ f.contracts).find? isBlank with
  | some entry => some (.blankEntry entry)
  | none => (f.addresses.find? fun a => (Address.parse? a).isNone).map .invalidAddress

end EventFilter

/-- The events of one type from one height to another, both included. -/
structure EventRange where
  eventType : String
  start : UInt64
  stop : UInt64
  deriving DecidableEq, Inhabited

namespace EventRange

inductive Fault where
  | missing
  | inverted (start stop : UInt64)
  deriving DecidableEq

def Fault.message : Fault → String
  | .missing => "must provide start and end height range"
  | .inverted start stop =>
    "start height (" ++ Numeral.ofNat start.toNat ++ ") must be smaller than end height (" ++
      Numeral.ofNat stop.toNat ++ ")"

/-- What is wrong with a range; two zeros count as none given. -/
def fault? (r : EventRange) : Option Fault :=
  if r.start = 0 ∧ r.stop = 0 then some .missing
  else if r.stop < r.start then some (.inverted r.start r.stop)
  else none

end EventRange

/-- A qualified event type, by its parts. -/
structure EventTypeName where
  address : Address
  contract : String
  event : String
  deriving DecidableEq, Inhabited

/-- The parts with dots between them, behind the mark of account types. -/
def EventTypeName.render (t : EventTypeName) : String :=
  "A." ++ t.address.hex ++ "." ++ t.contract ++ "." ++ t.event

end FlowAccess
