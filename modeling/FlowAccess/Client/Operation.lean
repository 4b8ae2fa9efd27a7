import FlowAccess.Account
import FlowAccess.Block
import FlowAccess.Client.Error
import FlowAccess.Execution
import FlowAccess.Node

/-!
# Operations

What an access node can be asked over any transport, with the type of the answer. A client turns
an operation into a call: at most one request of its transport, and the meaning of the response.
-/

namespace FlowAccess

open Cadence

/-- An operation, indexed by the type of its answer. -/
inductive Operation : Type → Type where
  | ping : Operation Unit
  | nodeVersionInfo : Operation NodeVersionInfo
  | networkParameters : Operation NetworkParameters
  /-- The latest header, sealed or only final. -/
  | latestBlockHeader (isSealed : Bool) : Operation BlockHeader
  | blockHeaderById (id : Identifier) : Operation BlockHeader
  | blockHeaderByHeight (height : UInt64) : Operation BlockHeader
  | latestBlock (isSealed : Bool) : Operation Block
  | blockById (id : Identifier) : Operation Block
  | blockByHeight (height : UInt64) : Operation Block
  | collection (id : Identifier) : Operation Collection
  /-- Answered with the identifier that the node gives the transaction. -/
  | sendTransaction (transaction : Transaction) : Operation Identifier
  | transaction (id : Identifier) : Operation Transaction
  | transactionResult (id : Identifier) : Operation TransactionResult
  | accountAtLatestBlock (address : Address) : Operation Account
  | accountAtBlockHeight (address : Address) (height : UInt64) : Operation Account
  | scriptAtLatestBlock (script : Bytes) (arguments : List Value) : Operation Value
  | scriptAtBlockId (id : Identifier) (script : Bytes) (arguments : List Value) : Operation Value
  | scriptAtBlockHeight (height : UInt64) (script : Bytes) (arguments : List Value) :
    Operation Value
  | eventsForHeightRange (range : EventRange) : Operation (List BlockEvents)
  | eventsForBlockIds (eventType : String) (ids : List Identifier) : Operation (List BlockEvents)
  | executionResult (blockId : Identifier) : Operation ExecutionResult

/-- What a client does for an operation. Requests are indexed by the type of their responses. -/
inductive Call (Request : Type → Type) (α : Type) : Type 1 where
  /-- The answer is known without a node. -/
  | done (answer : Except ClientError α)
  | ask {R : Type} (request : Request R) (answer : R → Except ClientError α)

namespace Call

variable {Request : Type → Type} {α : Type}

/-- The answer, given the response to the request. -/
def answerFrom (node : {R : Type} → Request R → Except TransportError R) :
    Call Request α → Except ClientError α
  | .done answer => answer
  | .ask request answer =>
    match node request with
    | .ok r => answer r
    | .error e => .error (.transport e)

/-- A call that asks only if nothing stands against it. -/
def guarded (fault? : Option ClientError) (call : Call Request α) : Call Request α :=
  match fault? with
  | some e => .done (.error e)
  | none => call

end Call

/-! ## Scripts and their arguments -/

/-- The arguments of a script, which are always in the textual encoding. -/
def encodeArguments (arguments : List Value) : Except ClientError (List Bytes) :=
  arguments.mapM fun v =>
    (Encoding.jsonCdc.encode v).mapError fun e => .encoding (.unwritable "arguments" e)

/-- The value of a script, which is always in the textual encoding. -/
def decodeScriptValue (options : CodecOptions) (payload : Bytes) : Except ClientError Value :=
  (Encoding.jsonCdc.decode options.values payload).mapError fun e => .decoding (.payload e)

end FlowAccess
