import FlowAccess.Rest.Document.Block

/-!
# Events as documents
-/

namespace FlowAccess.Rest

open Json Text

structure Event where
  type : String := ""
  transactionId : String := ""
  transactionIndex : String := ""
  eventIndex : String := ""
  payload : String := ""
  deriving DecidableEq, Inhabited

namespace Event

instance : Document Event where
  toJson d :=
    .ofMembers [("type", .string d.type), ("transaction_id", .string d.transactionId),
      ("transaction_index", .string d.transactionIndex), ("event_index", .string d.eventIndex),
      ("payload", .string d.payload)]
  ofNode? node := do
    let fs ← Fields.ofNode?
      ["type", "transaction_id", "transaction_index", "event_index", "payload"] node
    return {
      type := ← fs.string? "type"
      transactionId := ← fs.string? "transaction_id"
      transactionIndex := ← fs.string? "transaction_index"
      eventIndex := ← fs.string? "event_index"
      payload := ← fs.string? "payload" }

/-- The payload is written in the encoding that the options ask for. -/
def ofDomain (options : CodecOptions) (e : FlowAccess.Event) : Except EncodingError Event :=
  return {
    type := e.eventType
    transactionId := e.transactionId.hex
    transactionIndex := numeral e.transactionIndex.toNat
    eventIndex := numeral e.eventIndex.toNat
    payload := Base64.encode (← (e.payloadIn options.encoding).1) }

def toDomain (options : CodecOptions) (d : Event) : Except DecodingError FlowAccess.Event := do
  let transactionId ← Scalar.hexIdentifier "transaction_id" d.transactionId
  let transactionIndex ← Scalar.uint32 "transaction_index" d.transactionIndex
  let eventIndex ← Scalar.uint32 "event_index" d.eventIndex
  let payload ← Scalar.base64Bytes "payload" d.payload
  options.event d.type transactionId transactionIndex eventIndex payload

instance : Carries Event FlowAccess.Event where
  write := ofDomain
  read := toDomain

end Event

structure BlockEvents where
  blockId : String := ""
  blockHeight : String := ""
  blockTimestamp : String := ""
  events : List Event := []
  deriving DecidableEq, Inhabited

namespace BlockEvents

instance : Document BlockEvents where
  toJson d :=
    .ofMembers [("block_id", .string d.blockId), ("block_height", .string d.blockHeight),
      ("block_timestamp", .string d.blockTimestamp), ("events", Document.toJson d.events)]
  ofNode? node := do
    let fs ← Fields.ofNode? ["block_id", "block_height", "block_timestamp", "events"] node
    return {
      blockId := ← fs.string? "block_id"
      blockHeight := ← fs.string? "block_height"
      blockTimestamp := ← fs.string? "block_timestamp"
      events := ← fs.withDefault? "events" [] Document.ofNode? }

def ofDomain (options : CodecOptions) (b : FlowAccess.BlockEvents) :
    Except EncodingError BlockEvents :=
  return {
    blockId := b.blockId.hex
    blockHeight := numeral b.height.toNat
    blockTimestamp := b.timestamp.format
    events := ← b.events.mapM (Event.ofDomain options) }

def toDomain (options : CodecOptions) (d : BlockEvents) :
    Except DecodingError FlowAccess.BlockEvents :=
  return {
    blockId := ← Scalar.hexIdentifier "block_id" d.blockId
    height := ← Scalar.uint64 "block_height" d.blockHeight
    timestamp := ← Scalar.timestamp "block_timestamp" d.blockTimestamp
    events := ← decodeList "events" (Event.toDomain options) d.events }

instance : Carries BlockEvents FlowAccess.BlockEvents where
  write := ofDomain
  read := toDomain

end BlockEvents
end FlowAccess.Rest
