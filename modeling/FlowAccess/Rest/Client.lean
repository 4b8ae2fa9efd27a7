import FlowAccess.Client.Operation
import FlowAccess.Rest.Query

/-!
# The client for documents

How operations are carried out by requests for documents. Documents hold event payloads in the
textual encoding only, so that the client has no choice of encoding.
-/

namespace FlowAccess.Rest

open Cadence Text

structure Client where
  /-- The address of the root of the documents. -/
  base : String
  /-- Whether payloads are decoded as soon as an event is read. -/
  eager : Bool := true
  values : ValueOptions := {}
  deriving DecidableEq, Inhabited

namespace Client

/-- The address of a root, which ends in no slash. -/
def trimBase (base : String) : String :=
  String.ofList (base.toList.reverse.dropWhile (· = '/')).reverse

/-- The client for the documents below a root. -/
def ofBase (base : String) : Client := { base := trimBase base }

def options (c : Client) : CodecOptions :=
  { encoding := .jsonCdc, eager := c.eager, values := c.values }

/-- The client with other options, but for the encoding. -/
def withOptions (options : CodecOptions) (c : Client) : Client :=
  { c with eager := options.eager, values := options.values }

/-- An answer for which a response has to be turned into a domain value. -/
def read {R α : Type} (decode : R → Except DecodingError α) (r : R) : Except ClientError α :=
  (decode r).mapError .decoding

/-- The first item of a list; an empty list means that the node does not know the thing. -/
def first {R α : Type} (thing : String) (decode : R → Except DecodingError α) :
    List R → Except ClientError α
  | r :: _ => read decode r
  | [] => .error (.transport { code := .notFound, message := thing ++ " not found" })

def header (r : List Block) : Except ClientError FlowAccess.BlockHeader := do
  return (← first "block" Block.toDomain r).header

/-- An answer of blocks of events. -/
def readEvents (c : Client) (r : List BlockEvents) : Except ClientError (List FlowAccess.BlockEvents) :=
  (decodeBlocks (BlockEvents.toDomain c.options) r).mapError .partialEvents

/-- The identifier under which a node has taken a transaction. -/
def submittedId (r : Transaction) : Except DecodingError Identifier :=
  match r.id with
  | some id => Scalar.hexIdentifier "id" id
  | none => .error (.missingField "id")

/-- The value of a script, which comes in base 64. -/
def scriptValue (c : Client) (r : String) : Except ClientError Value := do
  let payload ← read (Scalar.base64Bytes "value") r
  decodeScriptValue c.options payload

/-- The request for a script, given the script and its arguments. -/
def script (c : Client) (code : Bytes) (arguments : List Value)
    (request : ScriptBody → Query String) : Call Query Value :=
  match encodeArguments arguments with
  | .error e => .done (.error e)
  | .ok arguments =>
    .ask (request { script := Base64.encode code, arguments := arguments.map Base64.encode })
      c.scriptValue

/-- The latest block, sealed or only final. -/
def latest (isSealed : Bool) : Height := if isSealed then .sealed else .final

/-- What the client does for an operation. -/
def call {α : Type} (c : Client) : Operation α → Call Query α
  | .ping => .ask (.blocksByHeight .sealed false) fun _ => .ok ()
  | .nodeVersionInfo => .ask .nodeVersionInfo (read NodeVersionInfo.toDomain)
  | .networkParameters => .ask .networkParameters fun r => .ok r.toDomain
  | .latestBlockHeader isSealed => .ask (.blocksByHeight (latest isSealed) false) header
  | .blockHeaderById id => .ask (.blocksById id false) header
  | .blockHeaderByHeight height => .ask (.blocksByHeight (.number height) false) header
  | .latestBlock isSealed =>
    .ask (.blocksByHeight (latest isSealed) true) (first "block" Block.toDomain)
  | .blockById id => .ask (.blocksById id true) (first "block" Block.toDomain)
  | .blockByHeight height =>
    .ask (.blocksByHeight (.number height) true) (first "block" Block.toDomain)
  | .collection id => .ask (.collection id) (read Collection.toDomain)
  | .sendTransaction t => .ask (.sendTransaction (.ofDomain t)) (read submittedId)
  | .transaction id => .ask (.transaction id) (read Transaction.toDomain)
  | .transactionResult id =>
    .ask (.transactionResult id) (read (TransactionResult.toDomain c.options))
  | .accountAtLatestBlock address => .ask (.account address .sealed) (read Account.toDomain)
  | .accountAtBlockHeight address height =>
    .ask (.account address (.number height)) (read Account.toDomain)
  | .scriptAtLatestBlock code arguments => c.script code arguments (.scriptAtHeight .sealed)
  | .scriptAtBlockId id code arguments => c.script code arguments (.scriptAtBlockId id)
  | .scriptAtBlockHeight height code arguments =>
    c.script code arguments (.scriptAtHeight (.number height))
  | .eventsForHeightRange range =>
    .guarded (range.fault?.map .invalidRange) <|
      .ask (.eventsForHeightRange range) c.readEvents
  | .eventsForBlockIds eventType ids =>
    if ids = [] then .done (.ok [])
    else .ask (.eventsForBlockIds eventType ids) c.readEvents
  | .executionResult id =>
    .ask (.executionResults [id]) (first "execution result" ExecutionResult.toDomain)

/-- The operations that need procedures of a node: choosing an encoding, everything about a block
at once, and subscriptions. -/
def unsupported : List String := [
  "set_event_encoding", "get_transactions_by_block_id", "get_transaction_results_by_block_id",
  "get_latest_protocol_state_snapshot", "get_execution_data_by_block_id",
  "subscribe_events_by_block_height", "subscribe_events_by_block_id",
  "subscribe_execution_data_by_block_height", "subscribe_execution_data_by_block_id"]

/-- Why an operation is not even tried. -/
def refusal? (operation : String) : Option ClientError :=
  if unsupported.contains operation then some (.unsupported operation .http) else none

/-- The answer to an operation, given the reply to the request that it makes. -/
def answer {α : Type} (c : Client) (exchange : {R : Type} → Query R → Reply) (op : Operation α) :
    Except ClientError α :=
  (c.call op).answerFrom fun q => (exchange q).read c.base q

end Client
end FlowAccess.Rest
