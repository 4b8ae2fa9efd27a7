import FlowAccess.Event

/-!
# Codecs

What every wire codec shares: the options that it takes, the reading of lists, whose first error
carries its position, and the reading of events block by block, which keeps the blocks before the
first error.
-/

namespace FlowAccess

open Cadence

/-- How domain values and wire messages are turned into each other. -/
structure CodecOptions where
  /-- The encoding of event payloads on the wire. -/
  encoding : Encoding := .ccf
  /-- Whether payloads are decoded, and refused, as soon as an event is read. -/
  eager : Bool := true
  values : ValueOptions := {}
  deriving DecidableEq, Inhabited

/-- The event that a wire message carries. -/
def CodecOptions.event (options : CodecOptions) (eventType : String) (transactionId : Identifier)
    (transactionIndex eventIndex : UInt32) (payload : Bytes) : Except DecodingError Event :=
  let e : Event :=
    { eventType, transactionId, transactionIndex, eventIndex, payload
      encoding := options.encoding, options := options.values }
  if options.eager then
    match e.value with
    | (.ok _, e) => .ok e
    | (.error err, _) => .error err
  else .ok e

/-- Messages of a type on the wire that carry the values of a domain type. -/
class Carries (W D : Type) where
  write : CodecOptions → D → Except EncodingError W
  read : CodecOptions → W → Except DecodingError D

/-! ## Lists -/

/-- Reads a list whose first item has a given position. -/
def decodeListFrom {W D : Type} (list : String) (read : W → Except DecodingError D) (position : Nat) :
    List W → Except DecodingError (List D)
  | [] => .ok []
  | item :: rest => do
    let d ← (Place.item list position).mark (read item)
    return d :: (← decodeListFrom list read (position + 1) rest)

/-- Reads a list in order; the first error carries its position. -/
def decodeList {W D : Type} (list : String) (read : W → Except DecodingError D) (items : List W) :
    Except DecodingError (List D) :=
  decodeListFrom list read 0 items

/-- Blocks of events up to the first that cannot be read, and why it cannot. -/
structure PartialEvents where
  decoded : List BlockEvents
  error : DecodingError
  deriving DecidableEq

/-- Reads blocks of events of which the first has a given position. -/
def decodeBlocksFrom {W : Type} (read : W → Except DecodingError BlockEvents) (position : Nat) :
    List W → Except PartialEvents (List BlockEvents)
  | [] => .ok []
  | item :: rest =>
    match read item with
    | .error e => .error ⟨[], .within (.item "results" position) e⟩
    | .ok block =>
      match decodeBlocksFrom read (position + 1) rest with
      | .error p => .error { p with decoded := block :: p.decoded }
      | .ok blocks => .ok (block :: blocks)

/-- Reads blocks of events in order. -/
def decodeBlocks {W : Type} (read : W → Except DecodingError BlockEvents) (items : List W) :
    Except PartialEvents (List BlockEvents) :=
  decodeBlocksFrom read 0 items

/-! ## Numbers -/

/-- A number that has to fit 32 bits on the wire. -/
def narrow (field : String) (n : UInt64) : Except EncodingError UInt32 :=
  if n.toNat < UInt32.size then .ok n.toUInt32
  else .error (.overflow field n.toNat (UInt32.size - 1))

end FlowAccess
