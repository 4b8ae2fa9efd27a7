import FlowAccess.Client.Operation
import FlowAccess.Grpc.Rpc
import FlowAccess.Subscription.Basic

/-!
# The client for remote procedures

How operations and subscriptions are carried out by the procedures of a node. The encoding that
is asked for is the one that responses are read with.
-/

namespace FlowAccess.Grpc

open Cadence

structure Client where
  options : CodecOptions := {}
  /-- Blocks between reports on subscriptions to events. -/
  heartbeat : UInt64 := 100
  deriving DecidableEq, Inhabited

/-- What a response holds; the field that should hold it has a name. -/
def Holder.get {α : Type} (field : String) (m : Holder α) : Except DecodingError α :=
  match m.content with
  | some a => .ok a
  | none => .error (.missingField field)

namespace Client

def setEncoding (encoding : Encoding) (c : Client) : Client :=
  { c with options := { c.options with encoding } }

/-- An answer for which a response has to be turned into a domain value. -/
def read {R α : Type} (decode : R → Except DecodingError α) (r : R) : Except ClientError α :=
  (decode r).mapError .decoding

/-- An answer of blocks of events. -/
def readEvents (c : Client) (r : Listing BlockEvents) : Except ClientError (List FlowAccess.BlockEvents) :=
  (decodeBlocks (BlockEvents.toDomain c.options) r.items).mapError .partialEvents

/-- The request for a script, given its arguments as byte strings. -/
def script (c : Client) (arguments : List Value) (request : List Bytes → Rpc Blob) :
    Call Rpc Value :=
  match encodeArguments arguments with
  | .error e => .done (.error e)
  | .ok arguments => .ask (request arguments) fun r => decodeScriptValue c.options r.bytes

/-- What the client does for an operation. -/
def call {α : Type} (c : Client) : Operation α → Call Rpc α
  | .ping => .ask .ping fun _ => .ok ()
  | .nodeVersionInfo =>
    .ask .getNodeVersionInfo <| read fun r => do (← r.get "info").toDomain
  | .networkParameters => .ask .getNetworkParameters fun r => .ok { chainId := r.text }
  | .latestBlockHeader isSealed =>
    .ask (.getLatestBlockHeader isSealed) <| read fun r => do (← r.get "block").toDomain
  | .blockHeaderById id =>
    .ask (.getBlockHeaderById id) <| read fun r => do (← r.get "block").toDomain
  | .blockHeaderByHeight height =>
    .ask (.getBlockHeaderByHeight height) <| read fun r => do (← r.get "block").toDomain
  | .latestBlock isSealed =>
    .ask (.getLatestBlock isSealed) <| read fun r => do (← r.get "block").toDomain
  | .blockById id => .ask (.getBlockById id) <| read fun r => do (← r.get "block").toDomain
  | .blockByHeight height =>
    .ask (.getBlockByHeight height) <| read fun r => do (← r.get "block").toDomain
  | .collection id =>
    .ask (.getCollectionById id) <| read fun r => do (← r.get "collection").toDomain
  | .sendTransaction t =>
    .ask (.sendTransaction (.ofDomain t)) <| read fun r => Scalar.identifier "id" r.bytes
  | .transaction id =>
    .ask (.getTransaction id c.options.encoding) <| read fun r => do
      (← r.get "transaction").toDomain
  | .transactionResult id =>
    .ask (.getTransactionResult id c.options.encoding) <| read (·.toDomain c.options)
  | .accountAtLatestBlock address =>
    .ask (.getAccountAtLatestBlock address) <| read fun r => do (← r.get "account").toDomain
  | .accountAtBlockHeight address height =>
    .ask (.getAccountAtBlockHeight address height) <| read fun r => do
      (← r.get "account").toDomain
  | .scriptAtLatestBlock code arguments =>
    c.script arguments (.executeScriptAtLatestBlock code)
  | .scriptAtBlockId id code arguments => c.script arguments (.executeScriptAtBlockId id code)
  | .scriptAtBlockHeight height code arguments =>
    c.script arguments (.executeScriptAtBlockHeight height code)
  | .eventsForHeightRange range =>
    .guarded (range.fault?.map .invalidRange) <|
      .ask (.getEventsForHeightRange range c.options.encoding) c.readEvents
  | .eventsForBlockIds eventType ids =>
    if ids = [] then .done (.ok [])
    else .ask (.getEventsForBlockIds eventType ids c.options.encoding) c.readEvents
  | .executionResult id =>
    .ask (.getExecutionResultForBlockId id) <| read fun r => do
      (← r.get "execution_result").toDomain

/-! ## Operations of this transport alone -/

def transactionsByBlockId (c : Client) (id : Identifier) :
    Call Rpc (List FlowAccess.Transaction) :=
  .ask (.getTransactionsByBlockId id c.options.encoding) <| read fun r =>
    decodeList "transactions" Transaction.toDomain r.items

def transactionResultsByBlockId (c : Client) (id : Identifier) :
    Call Rpc (List FlowAccess.TransactionResult) :=
  .ask (.getTransactionResultsByBlockId id c.options.encoding) <| read fun r =>
    decodeList "transaction_results" (TransactionResult.toDomain c.options) r.items

/-- The state of the protocol at the latest sealed block, in a form of its own. -/
def latestProtocolStateSnapshot : Call Rpc Bytes :=
  .ask .getLatestProtocolStateSnapshot fun r => .ok r.bytes

def executionData (c : Client) (blockId : Identifier) : Call Rpc FlowAccess.ExecutionData :=
  .ask (.getExecutionDataByBlockId blockId c.options.encoding) <| read fun r => do
    (← r.get "block_execution_data").toDomain c.options

/-! ## Subscriptions -/

/-- What a client does for a subscription. -/
inductive Opening (α : Type) : Type 1 where
  | refused (e : ClientError)
  /-- It was cancelled before a request was made. -/
  | cancelled
  | ask {R : Type} (feed : Feed R) (decode : R → Except ClientError α)

/-- Subscribes to execution data; the options of this moment hold for all of the stream. -/
def subscribeExecutionData (c : Client) (start : Start) (cancelled : Bool) :
    Opening ExecutionDataAt :=
  if cancelled then .cancelled
  else .ask (.executionData start c.options.encoding) (read (·.toDomain c.options))

/-- Subscribes to the events that a filter lets through; a filter that lets all through is not
sent. -/
def subscribeEvents (c : Client) (start : Start) (filter : FlowAccess.EventFilter)
    (cancelled : Bool) : Opening FlowAccess.BlockEvents :=
  match filter.fault? with
  | some fault => .refused (.invalidArgument fault.message)
  | none =>
    if cancelled then .cancelled
    else
      let sent := if filter.isEmpty then none else some (EventFilter.ofDomain filter)
      .ask (.events start sent c.heartbeat c.options.encoding) (read (·.toDomain c.options))

end Client
end FlowAccess.Grpc
