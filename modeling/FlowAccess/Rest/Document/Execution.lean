import FlowAccess.Execution
import FlowAccess.Rest.Document.Event

/-!
# Execution results as documents

Service events are documents of the same form as events, of which they use the type and the
payload only.
-/

namespace FlowAccess.Rest

open Json Text

namespace Event

def ofServiceEvent (e : ServiceEvent) : Event :=
  { type := e.eventType, transactionIndex := "0", eventIndex := "0"
    payload := Base64.encode e.payload }

def toServiceEvent (d : Event) : Except DecodingError ServiceEvent :=
  return { eventType := d.type, payload := ← Scalar.base64Bytes "payload" d.payload }

instance : Carries Event FlowAccess.ServiceEvent where
  write _ e := .ok (.ofServiceEvent e)
  read _ := toServiceEvent

end Event

structure Chunk where
  collectionIndex : String := ""
  startState : String := ""
  eventCollection : String := ""
  blockId : String := ""
  totalComputationUsed : String := ""
  numberOfTransactions : String := ""
  index : String := ""
  endState : String := ""
  deriving DecidableEq, Inhabited

namespace Chunk

instance : Document Chunk where
  toJson d :=
    .ofMembers [("collection_index", .string d.collectionIndex),
      ("start_state", .string d.startState), ("event_collection", .string d.eventCollection),
      ("block_id", .string d.blockId),
      ("total_computation_used", .string d.totalComputationUsed),
      ("number_of_transactions", .string d.numberOfTransactions), ("index", .string d.index),
      ("end_state", .string d.endState)]
  ofNode? node := do
    let fs ← Fields.ofNode?
      ["collection_index", "start_state", "event_collection", "block_id",
        "total_computation_used", "number_of_transactions", "index", "end_state"] node
    return {
      collectionIndex := ← fs.string? "collection_index"
      startState := ← fs.string? "start_state"
      eventCollection := ← fs.string? "event_collection"
      blockId := ← fs.string? "block_id"
      totalComputationUsed := ← fs.string? "total_computation_used"
      numberOfTransactions := ← fs.string? "number_of_transactions"
      index := ← fs.string? "index"
      endState := ← fs.string? "end_state" }

def ofDomain (c : FlowAccess.Chunk) : Chunk :=
  { collectionIndex := numeral c.collectionIndex.toNat, startState := c.startState.hex
    eventCollection := c.eventCollection.hex, blockId := c.blockId.hex
    totalComputationUsed := numeral c.totalComputationUsed.toNat
    numberOfTransactions := numeral c.numberOfTransactions.toNat
    index := numeral c.index.toNat, endState := c.endState.hex }

def toDomain (d : Chunk) : Except DecodingError FlowAccess.Chunk :=
  return {
    collectionIndex := ← Scalar.uint32 "chunk.collection_index" d.collectionIndex
    startState := ← Scalar.hexIdentifier "chunk.start_state" d.startState
    eventCollection := ← Scalar.hexIdentifier "chunk.event_collection" d.eventCollection
    blockId := ← Scalar.hexIdentifier "chunk.block_id" d.blockId
    totalComputationUsed := ← Scalar.uint64 "chunk.total_computation_used" d.totalComputationUsed
    numberOfTransactions := ← Scalar.uint32 "chunk.number_of_transactions" d.numberOfTransactions
    index := ← Scalar.uint64 "chunk.index" d.index
    endState := ← Scalar.hexIdentifier "chunk.end_state" d.endState }

instance : Carries Chunk FlowAccess.Chunk where
  write _ d := .ok (.ofDomain d)
  read _ := toDomain

end Chunk

structure ExecutionResult where
  id : String := ""
  blockId : String := ""
  previousResultId : String := ""
  chunks : List Chunk := []
  events : List Event := []
  deriving DecidableEq, Inhabited

namespace ExecutionResult

instance : Document ExecutionResult where
  toJson d :=
    .ofMembers [("id", .string d.id), ("block_id", .string d.blockId),
      ("previous_result_id", .string d.previousResultId), ("chunks", Document.toJson d.chunks),
      ("events", Document.toJson d.events)]
  ofNode? node := do
    let fs ← Fields.ofNode? ["id", "block_id", "previous_result_id", "chunks", "events"] node
    return {
      id := ← fs.withDefault? "id" "" Node.string?
      blockId := ← fs.string? "block_id"
      previousResultId := ← fs.string? "previous_result_id"
      chunks := ← fs.withDefault? "chunks" [] Document.ofNode?
      events := ← fs.withDefault? "events" [] Document.ofNode? }

def ofDomain (r : FlowAccess.ExecutionResult) : ExecutionResult :=
  { blockId := r.blockId.hex, previousResultId := r.previousResultId.hex
    chunks := r.chunks.map .ofDomain, events := r.serviceEvents.map .ofServiceEvent }

/-- The chunks must stand in the order of their indices. -/
def toDomain (d : ExecutionResult) : Except DecodingError FlowAccess.ExecutionResult := do
  let previousResultId ← Scalar.hexIdentifier "previous_result_id" d.previousResultId
  let blockId ← Scalar.hexIdentifier "block_id" d.blockId
  let chunks ← decodeList "chunks" Chunk.toDomain d.chunks
  let serviceEvents ← decodeList "events" Event.toServiceEvent d.events
  let r : FlowAccess.ExecutionResult := { previousResultId, blockId, chunks, serviceEvents }
  r.checkChunks

instance : Carries ExecutionResult FlowAccess.ExecutionResult where
  write _ d := .ok (.ofDomain d)
  read _ := toDomain

end ExecutionResult
end FlowAccess.Rest
