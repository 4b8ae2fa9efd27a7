import FlowAccess.Transaction

/-!
# Execution results and execution data
-/

namespace FlowAccess

/-- An event of the protocol itself, with an opaque payload. -/
structure ServiceEvent where
  eventType : String
  payload : Bytes
  deriving DecidableEq, Inhabited

structure Chunk where
  collectionIndex : UInt32
  startState : Identifier
  eventCollection : Identifier
  blockId : Identifier
  totalComputationUsed : UInt64
  numberOfTransactions : UInt32
  index : UInt64
  endState : Identifier
  deriving DecidableEq, Inhabited

structure ExecutionResult where
  previousResultId : Identifier
  blockId : Identifier
  chunks : List Chunk
  serviceEvents : List ServiceEvent
  deriving DecidableEq, Inhabited

namespace ExecutionResult

/-- The first chunk, from a position on, that does not stand where its index says. -/
def misplaced? (position : Nat) : List Chunk → Option (Nat × Chunk)
  | [] => none
  | chunk :: rest =>
    if chunk.index.toNat = position then misplaced? (position + 1) rest
    else some (position, chunk)

/-- Takes a result whose chunks stand where their indices say. -/
def checkChunks (r : ExecutionResult) : Except DecodingError ExecutionResult :=
  match misplaced? 0 r.chunks with
  | some (position, chunk) => .error (.chunkIndexMismatch position chunk.index.toNat)
  | none => .ok r

end ExecutionResult

/-! ## Execution data -/

structure KeyPart where
  type : UInt16
  value : Bytes
  deriving DecidableEq, Inhabited

/-- A register with its key and its value. -/
structure Payload where
  keyParts : List KeyPart
  value : Bytes
  deriving DecidableEq, Inhabited

/-- The registers that a chunk has written. -/
structure TrieUpdate where
  rootHash : Bytes
  paths : List Bytes
  payloads : List Payload
  deriving DecidableEq, Inhabited

/-- The outcome of a transaction without its events. -/
structure LightResult where
  transactionId : Identifier
  failed : Bool
  computationUsed : UInt64
  deriving DecidableEq, Inhabited

structure ChunkExecutionData where
  transactions : List Transaction
  events : List Event
  trieUpdate : Option TrieUpdate
  transactionResults : List LightResult
  deriving DecidableEq, Inhabited

/-- Everything that the execution of one block has produced. -/
structure ExecutionData where
  blockId : Identifier
  chunks : List ChunkExecutionData
  deriving DecidableEq, Inhabited

/-- One item of a subscription to execution data. -/
structure ExecutionDataAt where
  height : UInt64
  data : ExecutionData
  timestamp : Timestamp
  deriving DecidableEq, Inhabited

end FlowAccess
