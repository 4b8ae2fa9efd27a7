import FlowAccess.Grpc.Message.Block

/-!
# Events as messages

The message for one event, the two for the events of a block, and the filter of a subscription.
-/

namespace FlowAccess.Grpc

open Protobuf

structure Event where
  type : String := ""
  transactionId : Bytes := []
  transactionIndex : UInt32 := 0
  eventIndex : UInt32 := 0
  payload : Bytes := []
  deriving DecidableEq, Inhabited

namespace Event

instance : Message Event where
  records m :=
    Record.ofString 1 m.type ++ Record.ofBytes 2 m.transactionId ++
      Record.ofNat 3 m.transactionIndex.toNat ++ Record.ofNat 4 m.eventIndex.toNat ++
      Record.ofBytes 5 m.payload
  ofFields? fs :=
    return {
      type := ← fs.string? 1
      transactionId := ← fs.bytes? 2
      transactionIndex := ← fs.uint32? 3
      eventIndex := ← fs.uint32? 4
      payload := ← fs.bytes? 5 }

/-- The payload is written in the encoding that the options ask for. -/
def ofDomain (options : CodecOptions) (e : FlowAccess.Event) : Except EncodingError Event :=
  return {
    type := e.eventType
    transactionId := e.transactionId.bytes
    transactionIndex := e.transactionIndex
    eventIndex := e.eventIndex
    payload := ← (e.payloadIn options.encoding).1 }

def toDomain (options : CodecOptions) (m : Event) : Except DecodingError FlowAccess.Event := do
  let transactionId ← Scalar.identifier "event.transaction_id" m.transactionId
  options.event m.type transactionId m.transactionIndex m.eventIndex m.payload

instance : Carries Event FlowAccess.Event where
  write := ofDomain
  read := toDomain

end Event

/-- The events of a block in answer to a query. -/
structure BlockEvents where
  blockId : Bytes := []
  blockHeight : UInt64 := 0
  events : List Event := []
  blockTimestamp : Option Timestamp := none
  deriving DecidableEq, Inhabited

namespace BlockEvents

instance : Message BlockEvents where
  records m :=
    Record.ofBytes 1 m.blockId ++ Record.ofNat 2 m.blockHeight.toNat ++
      Record.ofMessages 3 m.events ++ Record.ofMessage? 4 m.blockTimestamp
  ofFields? fs :=
    return {
      blockId := ← fs.bytes? 1
      blockHeight := ← fs.uint64? 2
      events := ← fs.messages? 3
      blockTimestamp := ← fs.message? 4 }

def ofDomain (options : CodecOptions) (b : FlowAccess.BlockEvents) :
    Except EncodingError BlockEvents :=
  return {
    blockId := b.blockId.bytes
    blockHeight := b.height
    events := ← b.events.mapM (Event.ofDomain options)
    blockTimestamp := some (.ofDomain b.timestamp) }

def toDomain (options : CodecOptions) (m : BlockEvents) :
    Except DecodingError FlowAccess.BlockEvents :=
  return {
    blockId := ← Scalar.identifier "block_id" m.blockId
    height := m.blockHeight
    timestamp := ← Timestamp.toDomain "block_timestamp" m.blockTimestamp
    events := ← decodeList "events" (Event.toDomain options) m.events }

instance : Carries BlockEvents FlowAccess.BlockEvents where
  write := ofDomain
  read := toDomain

end BlockEvents

/-- The events of a block as an item of a subscription. -/
structure SubscribedEvents where
  block : BlockEvents := {}
  messageIndex : UInt64 := 0
  deriving DecidableEq, Inhabited

namespace SubscribedEvents

instance : Message SubscribedEvents where
  records m := Message.records m.block ++ Record.ofNat 5 m.messageIndex.toNat
  ofFields? fs := return { block := ← Message.ofFields? fs, messageIndex := ← fs.uint64? 5 }

def ofDomain (options : CodecOptions) (b : FlowAccess.BlockEvents) :
    Except EncodingError SubscribedEvents :=
  return { block := ← BlockEvents.ofDomain options b }

def toDomain (options : CodecOptions) (m : SubscribedEvents) :
    Except DecodingError FlowAccess.BlockEvents :=
  m.block.toDomain options

instance : Carries SubscribedEvents FlowAccess.BlockEvents where
  write := ofDomain
  read := toDomain

end SubscribedEvents

structure EventFilter where
  eventTypes : List String := []
  contracts : List String := []
  addresses : List String := []
  deriving DecidableEq, Inhabited

namespace EventFilter

instance : Message EventFilter where
  records m :=
    Record.ofStrings 1 m.eventTypes ++ Record.ofStrings 2 m.contracts ++
      Record.ofStrings 3 m.addresses
  ofFields? fs :=
    return {
      eventTypes := ← fs.strings? 1
      contracts := ← fs.strings? 2
      addresses := ← fs.strings? 3 }

def ofDomain (f : FlowAccess.EventFilter) : EventFilter :=
  { eventTypes := f.eventTypes, contracts := f.contracts, addresses := f.addresses }

end EventFilter
end FlowAccess.Grpc
