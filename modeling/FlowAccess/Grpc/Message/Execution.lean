import FlowAccess.Execution
import FlowAccess.Grpc.Message.Transaction

/-!
# Execution results and execution data as messages
-/

namespace FlowAccess.Grpc

open Protobuf

/-! ## Execution results -/

structure ServiceEvent where
  type : String := ""
  payload : Bytes := []
  deriving DecidableEq, Inhabited

namespace ServiceEvent

instance : Message ServiceEvent where
  records m := Record.ofString 1 m.type ++ Record.ofBytes 2 m.payload
  ofFields? fs := return { type := ← fs.string? 1, payload := ← fs.bytes? 2 }

def ofDomain (e : FlowAccess.ServiceEvent) : ServiceEvent :=
  { type := e.eventType, payload := e.payload }

def toDomain (m : ServiceEvent) : FlowAccess.ServiceEvent :=
  { eventType := m.type, payload := m.payload }

instance : Carries ServiceEvent FlowAccess.ServiceEvent where
  write _ d := .ok (.ofDomain d)
  read _ m := .ok m.toDomain

end ServiceEvent

structure Chunk where
  collectionIndex : UInt32 := 0
  startState : Bytes := []
  eventCollection : Bytes := []
  blockId : Bytes := []
  totalComputationUsed : UInt64 := 0
  numberOfTransactions : UInt32 := 0
  index : UInt64 := 0
  endState : Bytes := []
  deriving DecidableEq, Inhabited

namespace Chunk

instance : Message Chunk where
  records m :=
    Record.ofNat 1 m.collectionIndex.toNat ++ Record.ofBytes 2 m.startState ++
      Record.ofBytes 3 m.eventCollection ++ Record.ofBytes 4 m.blockId ++
      Record.ofNat 5 m.totalComputationUsed.toNat ++ Record.ofNat 6 m.numberOfTransactions.toNat ++
      Record.ofNat 7 m.index.toNat ++ Record.ofBytes 8 m.endState
  ofFields? fs :=
    return {
      collectionIndex := ← fs.uint32? 1
      startState := ← fs.bytes? 2
      eventCollection := ← fs.bytes? 3
      blockId := ← fs.bytes? 4
      totalComputationUsed := ← fs.uint64? 5
      numberOfTransactions := ← fs.uint32? 6
      index := ← fs.uint64? 7
      endState := ← fs.bytes? 8 }

def ofDomain (c : FlowAccess.Chunk) : Chunk :=
  { collectionIndex := c.collectionIndex, startState := c.startState.bytes
    eventCollection := c.eventCollection.bytes, blockId := c.blockId.bytes
    totalComputationUsed := c.totalComputationUsed
    numberOfTransactions := c.numberOfTransactions, index := c.index
    endState := c.endState.bytes }

def toDomain (m : Chunk) : Except DecodingError FlowAccess.Chunk :=
  return {
    collectionIndex := m.collectionIndex
    startState := ← Scalar.identifier "chunk.start_state" m.startState
    eventCollection := ← Scalar.identifier "chunk.event_collection" m.eventCollection
    blockId := ← Scalar.identifier "chunk.block_id" m.blockId
    totalComputationUsed := m.totalComputationUsed
    numberOfTransactions := m.numberOfTransactions
    index := m.index
    endState := ← Scalar.identifier "chunk.end_state" m.endState }

instance : Carries Chunk FlowAccess.Chunk where
  write _ d := .ok (.ofDomain d)
  read _ := toDomain

end Chunk

structure ExecutionResult where
  previousResultId : Bytes := []
  blockId : Bytes := []
  chunks : List Chunk := []
  serviceEvents : List ServiceEvent := []
  executionDataId : Bytes := []
  deriving DecidableEq, Inhabited

namespace ExecutionResult

instance : Message ExecutionResult where
  records m :=
    Record.ofBytes 1 m.previousResultId ++ Record.ofBytes 2 m.blockId ++
      Record.ofMessages 3 m.chunks ++ Record.ofMessages 4 m.serviceEvents ++
      Record.ofBytes 5 m.executionDataId
  ofFields? fs :=
    return {
      previousResultId := ← fs.bytes? 1
      blockId := ← fs.bytes? 2
      chunks := ← fs.messages? 3
      serviceEvents := ← fs.messages? 4
      executionDataId := ← fs.bytes? 5 }

def ofDomain (r : FlowAccess.ExecutionResult) : ExecutionResult :=
  { previousResultId := r.previousResultId.bytes, blockId := r.blockId.bytes
    chunks := r.chunks.map .ofDomain, serviceEvents := r.serviceEvents.map .ofDomain }

/-- The chunks must stand in the order of their indices. -/
def toDomain (m : ExecutionResult) : Except DecodingError FlowAccess.ExecutionResult := do
  let previousResultId ← Scalar.identifier "previous_result_id" m.previousResultId
  let blockId ← Scalar.identifier "block_id" m.blockId
  let chunks ← decodeList "chunks" Chunk.toDomain m.chunks
  let r : FlowAccess.ExecutionResult :=
    { previousResultId, blockId, chunks, serviceEvents := m.serviceEvents.map (·.toDomain) }
  r.checkChunks

instance : Carries ExecutionResult FlowAccess.ExecutionResult where
  write _ d := .ok (.ofDomain d)
  read _ := toDomain

end ExecutionResult

/-! ## Execution data -/

structure KeyPart where
  type : UInt32 := 0
  value : Bytes := []
  deriving DecidableEq, Inhabited

namespace KeyPart

instance : Message KeyPart where
  records m := Record.ofNat 1 m.type.toNat ++ Record.ofBytes 2 m.value
  ofFields? fs := return { type := ← fs.uint32? 1, value := ← fs.bytes? 2 }

def ofDomain (p : FlowAccess.KeyPart) : KeyPart := { type := p.type.toUInt32, value := p.value }

/-- The type of a key part has 16 bits, on a wire that has room for 32. -/
def toDomain (m : KeyPart) : Except DecodingError FlowAccess.KeyPart :=
  if m.type.toNat < UInt16.size then .ok { type := m.type.toUInt16, value := m.value }
  else .error (.overflow "key_part.type" m.type.toNat (UInt16.size - 1))

instance : Carries KeyPart FlowAccess.KeyPart where
  write _ d := .ok (.ofDomain d)
  read _ := toDomain

end KeyPart

structure Payload where
  keyPart : List KeyPart := []
  value : Bytes := []
  deriving DecidableEq, Inhabited

namespace Payload

instance : Message Payload where
  records m := Record.ofMessages 1 m.keyPart ++ Record.ofBytes 2 m.value
  ofFields? fs := return { keyPart := ← fs.messages? 1, value := ← fs.bytes? 2 }

def ofDomain (p : FlowAccess.Payload) : Payload :=
  { keyPart := p.keyParts.map .ofDomain, value := p.value }

def toDomain (m : Payload) : Except DecodingError FlowAccess.Payload :=
  return { keyParts := ← decodeList "key_part" KeyPart.toDomain m.keyPart, value := m.value }

instance : Carries Payload FlowAccess.Payload where
  write _ d := .ok (.ofDomain d)
  read _ := toDomain

end Payload

structure TrieUpdate where
  rootHash : Bytes := []
  paths : List Bytes := []
  payloads : List Payload := []
  deriving DecidableEq, Inhabited

namespace TrieUpdate

instance : Message TrieUpdate where
  records m :=
    Record.ofBytes 1 m.rootHash ++ Record.ofByteStrings 2 m.paths ++
      Record.ofMessages 3 m.payloads
  ofFields? fs :=
    return {
      rootHash := ← fs.bytes? 1
      paths := ← fs.byteStrings? 2
      payloads := ← fs.messages? 3 }

def ofDomain (u : FlowAccess.TrieUpdate) : TrieUpdate :=
  { rootHash := u.rootHash, paths := u.paths, payloads := u.payloads.map .ofDomain }

def toDomain (m : TrieUpdate) : Except DecodingError FlowAccess.TrieUpdate :=
  return {
    rootHash := m.rootHash
    paths := m.paths
    payloads := ← decodeList "payloads" Payload.toDomain m.payloads }

instance : Carries TrieUpdate FlowAccess.TrieUpdate where
  write _ d := .ok (.ofDomain d)
  read _ := toDomain

end TrieUpdate

structure LightResult where
  transactionId : Bytes := []
  failed : Bool := false
  computationUsed : UInt64 := 0
  deriving DecidableEq, Inhabited

namespace LightResult

instance : Message LightResult where
  records m :=
    Record.ofBytes 1 m.transactionId ++ Record.ofBool 2 m.failed ++
      Record.ofNat 3 m.computationUsed.toNat
  ofFields? fs :=
    return {
      transactionId := ← fs.bytes? 1
      failed := ← fs.bool? 2
      computationUsed := ← fs.uint64? 3 }

def ofDomain (r : FlowAccess.LightResult) : LightResult :=
  { transactionId := r.transactionId.bytes, failed := r.failed
    computationUsed := r.computationUsed }

def toDomain (m : LightResult) : Except DecodingError FlowAccess.LightResult :=
  return {
    transactionId := ← Scalar.identifier "transaction_id" m.transactionId
    failed := m.failed
    computationUsed := m.computationUsed }

instance : Carries LightResult FlowAccess.LightResult where
  write _ d := .ok (.ofDomain d)
  read _ := toDomain

end LightResult

/-- The transactions of a chunk. -/
structure ChunkCollection where
  transactions : List Transaction := []
  deriving DecidableEq, Inhabited

instance : Message ChunkCollection where
  records m := Record.ofMessages 1 m.transactions
  ofFields? fs := return { transactions := ← fs.messages? 1 }

structure ChunkExecutionData where
  collection : Option ChunkCollection := none
  events : List Event := []
  trieUpdate : Option TrieUpdate := none
  transactionResults : List LightResult := []
  deriving DecidableEq, Inhabited

namespace ChunkExecutionData

instance : Message ChunkExecutionData where
  records m :=
    Record.ofMessage? 1 m.collection ++ Record.ofMessages 2 m.events ++
      Record.ofMessage? 3 m.trieUpdate ++ Record.ofMessages 4 m.transactionResults
  ofFields? fs :=
    return {
      collection := ← fs.message? 1
      events := ← fs.messages? 2
      trieUpdate := ← fs.message? 3
      transactionResults := ← fs.messages? 4 }

def ofDomain (options : CodecOptions) (c : FlowAccess.ChunkExecutionData) :
    Except EncodingError ChunkExecutionData :=
  return {
    collection := some { transactions := c.transactions.map .ofDomain }
    events := ← c.events.mapM (Event.ofDomain options)
    trieUpdate := c.trieUpdate.map .ofDomain
    transactionResults := c.transactionResults.map .ofDomain }

def toDomain (options : CodecOptions) (m : ChunkExecutionData) :
    Except DecodingError FlowAccess.ChunkExecutionData := do
  let transactions :=
    match m.collection with
    | some c => c.transactions
    | none => []
  return {
    transactions := ← decodeList "transactions" Transaction.toDomain transactions
    events := ← decodeList "events" (Event.toDomain options) m.events
    trieUpdate := ← (Place.part "trie_update").mark (m.trieUpdate.mapM TrieUpdate.toDomain)
    transactionResults :=
      ← decodeList "transaction_results" LightResult.toDomain m.transactionResults }

instance : Carries ChunkExecutionData FlowAccess.ChunkExecutionData where
  write := ofDomain
  read := toDomain

end ChunkExecutionData

structure ExecutionData where
  blockId : Bytes := []
  chunks : List ChunkExecutionData := []
  deriving DecidableEq, Inhabited

namespace ExecutionData

instance : Message ExecutionData where
  records m := Record.ofBytes 1 m.blockId ++ Record.ofMessages 2 m.chunks
  ofFields? fs := return { blockId := ← fs.bytes? 1, chunks := ← fs.messages? 2 }

def ofDomain (options : CodecOptions) (d : FlowAccess.ExecutionData) :
    Except EncodingError ExecutionData :=
  return {
    blockId := d.blockId.bytes
    chunks := ← d.chunks.mapM (ChunkExecutionData.ofDomain options) }

def toDomain (options : CodecOptions) (m : ExecutionData) :
    Except DecodingError FlowAccess.ExecutionData :=
  return {
    blockId := ← Scalar.identifier "block_id" m.blockId
    chunks := ← decodeList "chunk_execution_data" (ChunkExecutionData.toDomain options) m.chunks }

instance : Carries ExecutionData FlowAccess.ExecutionData where
  write := ofDomain
  read := toDomain

end ExecutionData

/-- The execution data of a block as an item of a subscription. -/
structure SubscribedExecutionData where
  blockHeight : UInt64 := 0
  data : Option ExecutionData := none
  blockTimestamp : Option Timestamp := none
  deriving DecidableEq, Inhabited

namespace SubscribedExecutionData

instance : Message SubscribedExecutionData where
  records m :=
    Record.ofNat 1 m.blockHeight.toNat ++ Record.ofMessage? 2 m.data ++
      Record.ofMessage? 3 m.blockTimestamp
  ofFields? fs :=
    return {
      blockHeight := ← fs.uint64? 1
      data := ← fs.message? 2
      blockTimestamp := ← fs.message? 3 }

def ofDomain (options : CodecOptions) (d : FlowAccess.ExecutionDataAt) :
    Except EncodingError SubscribedExecutionData :=
  return {
    blockHeight := d.height
    data := some (← ExecutionData.ofDomain options d.data)
    blockTimestamp := some (.ofDomain d.timestamp) }

def toDomain (options : CodecOptions) (m : SubscribedExecutionData) :
    Except DecodingError FlowAccess.ExecutionDataAt := do
  let some data := m.data | .error (.missingField "block_execution_data")
  let data ← data.toDomain options
  return {
    height := m.blockHeight
    data
    timestamp := ← Timestamp.toDomain "block_timestamp" m.blockTimestamp }

instance : Carries SubscribedExecutionData FlowAccess.ExecutionDataAt where
  write := ofDomain
  read := toDomain

end SubscribedExecutionData
end FlowAccess.Grpc
