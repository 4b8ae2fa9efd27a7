import FlowAccess.Grpc.Client
import FlowAccess.Rest.Client

/-!
# A node behind both transports

A node that knows the answers to operations, and what it sends when it is asked for them by
procedures or for documents. What it does not know it says so of, in a text.
-/

namespace FlowAccess

open Cadence

/-- The state of the chain on which a script is run. -/
inductive ScriptState where
  | latest
  | ofBlock (id : Identifier)
  | atHeight (height : UInt64)
  deriving DecidableEq

namespace ScriptState

def operation (code : Bytes) (arguments : List Value) : ScriptState → Operation Value
  | latest => .scriptAtLatestBlock code arguments
  | ofBlock id => .scriptAtBlockId id code arguments
  | atHeight height => .scriptAtBlockHeight height code arguments

def rpc (code : Bytes) (arguments : List Bytes) : ScriptState → Grpc.Rpc Grpc.Blob
  | latest => .executeScriptAtLatestBlock code arguments
  | ofBlock id => .executeScriptAtBlockId id code arguments
  | atHeight height => .executeScriptAtBlockHeight height code arguments

def query (body : Rest.ScriptBody) : ScriptState → Rest.Query String
  | latest => .scriptAtHeight .sealed body
  | ofBlock id => .scriptAtBlockId id body
  | atHeight height => .scriptAtHeight (.number height) body

end ScriptState

/-- What a node knows. -/
structure AccessNode where
  answer : {α : Type} → Operation α → Except String α
  /-- The value of a script, in the form in which it is sent. -/
  run : ScriptState → (code : Bytes) → (arguments : List Bytes) → Except String Bytes
  /-- What is sent with a header, if the block's payload has not been asked for. -/
  besides : BlockHeader → Option (List CollectionGuarantee × List BlockSeal)

/-- What is sent of what a node knows, given the failures of a transport for what has no form on the
wire and for what is not known. -/
def respond {D R : Type} (unwritable unknown : String → TransportError)
    (write : D → Except EncodingError R) : Except String D → Except TransportError R
  | .ok d => (write d).mapError fun e => unwritable e.message
  | .error text => .error (unknown text)

/-! ## Procedures -/

namespace Grpc

/-- The response with what a node knows, or the status of what it does not know. -/
def respond {D R : Type} : (D → Except EncodingError R) → Except String D →
    Except TransportError R :=
  FlowAccess.respond (fun text => { code := .internal, message := text }) fun text =>
    { code := .notFound, message := text }

section

variable {W D : Type} [Carries W D] (options : CodecOptions)

def hold (d : D) : Except EncodingError (Holder W) :=
  return { content := some (← Carries.write options d) }

def enlist (ds : List D) : Except EncodingError (Listing W) :=
  return { items := ← ds.mapM (Carries.write options) }

end

/-- What a node sends in response to a procedure. Event payloads are in the encoding that is asked
for. -/
def serve (node : AccessNode) {R : Type} : Rpc R → Except TransportError R
  | .ping => .ok {}
  | .getNodeVersionInfo => respond (hold {}) (node.answer .nodeVersionInfo)
  | .getNetworkParameters =>
    respond (fun p => .ok { text := p.chainId }) (node.answer .networkParameters)
  | .getLatestBlockHeader isSealed =>
    respond (hold {}) (node.answer (.latestBlockHeader isSealed))
  | .getBlockHeaderById id => respond (hold {}) (node.answer (.blockHeaderById id))
  | .getBlockHeaderByHeight height =>
    respond (hold {}) (node.answer (.blockHeaderByHeight height))
  | .getLatestBlock isSealed => respond (hold {}) (node.answer (.latestBlock isSealed))
  | .getBlockById id => respond (hold {}) (node.answer (.blockById id))
  | .getBlockByHeight height => respond (hold {}) (node.answer (.blockByHeight height))
  | .getCollectionById id => respond (hold {}) (node.answer (.collection id))
  | .sendTransaction m =>
    match m.toDomain with
    | .ok t => respond (fun id => .ok { bytes := id.bytes }) (node.answer (.sendTransaction t))
    | .error e => .error { code := .invalidArgument, message := e.message }
  | .getTransaction id encoding =>
    respond (hold { encoding }) (node.answer (.transaction id))
  | .getTransactionResult id encoding =>
    respond (Carries.write { encoding }) (node.answer (.transactionResult id))
  | .getAccountAtLatestBlock address =>
    respond (hold {}) (node.answer (.accountAtLatestBlock address))
  | .getAccountAtBlockHeight address height =>
    respond (hold {}) (node.answer (.accountAtBlockHeight address height))
  | .executeScriptAtLatestBlock code arguments =>
    respond (fun v => .ok { bytes := v }) (node.run .latest code arguments)
  | .executeScriptAtBlockId id code arguments =>
    respond (fun v => .ok { bytes := v }) (node.run (.ofBlock id) code arguments)
  | .executeScriptAtBlockHeight height code arguments =>
    respond (fun v => .ok { bytes := v }) (node.run (.atHeight height) code arguments)
  | .getEventsForHeightRange range encoding =>
    respond (enlist { encoding }) (node.answer (.eventsForHeightRange range))
  | .getEventsForBlockIds eventType ids encoding =>
    respond (enlist { encoding }) (node.answer (.eventsForBlockIds eventType ids))
  | .getExecutionResultForBlockId id => respond (hold {}) (node.answer (.executionResult id))
  | _ => .error { code := .unimplemented, message := "not served" }

/-- The client's answer to an operation if the node is the one that is asked. -/
def Client.answerOf (c : Client) (node : AccessNode) {α : Type} (op : Operation α) :
    Except ClientError α :=
  (c.call op).answerFrom (serve node)

end Grpc

/-! ## Documents -/

namespace Rest

open Text

/-- The response with what a node knows, or the status of what it does not know. -/
def respond {D R : Type} (url : String) : (D → Except EncodingError R) → Except String D →
    Except TransportError R :=
  FlowAccess.respond (.ofHttp 500 url) (.ofHttp 404 url)

/-- The document of a block of which only the header has been asked for. -/
def headerBlock (node : AccessNode) (h : FlowAccess.BlockHeader) : Block :=
  { header := .ofDomain h
    payload := (node.besides h).map fun (guarantees, seals) =>
      { guarantees := guarantees.map .ofDomain, seals := seals.map .ofDomain } }

/-- A transaction with the identifier that a node has given it. -/
def Transaction.withId (d : Transaction) (id : Identifier) : Transaction :=
  { d with id := some id.hex }

/-- What a node sends for a transaction. -/
def serveTransaction (node : AccessNode) (url : String) (d : Transaction) :
    Except TransportError Transaction :=
  match d.toDomain with
  | .ok t => respond url (fun id => .ok (d.withId id)) (node.answer (.sendTransaction t))
  | .error e => .error (.ofHttp 400 url e.message)

/-- What a node sends for a script. -/
def serveScript (node : AccessNode) (url : String) (state : ScriptState) (body : ScriptBody) :
    Except TransportError String :=
  let sent : Except DecodingError (Bytes × List Bytes) := do
    return (← Scalar.base64Bytes "script" body.script,
      ← decodeList "arguments" (Scalar.base64Bytes "arguments") body.arguments)
  match sent with
  | .ok (code, arguments) =>
    respond url (fun v => .ok (Base64.encode v)) (node.run state code arguments)
  | .error e => .error (.ofHttp 400 url e.message)

/-- What a node sends in response to a request at an address. -/
def serve (node : AccessNode) (url : String) {R : Type} : Query R → Except TransportError R
  | .nodeVersionInfo => respond url (Carries.write {}) (node.answer .nodeVersionInfo)
  | .networkParameters => respond url (Carries.write {}) (node.answer .networkParameters)
  | .blocksById id true => respond url ([·].mapM (Carries.write {})) (node.answer (.blockById id))
  | .blocksById id false =>
    respond url (fun h => .ok [headerBlock node h]) (node.answer (.blockHeaderById id))
  | .blocksByHeight (.number height) true =>
    respond url ([·].mapM (Carries.write {})) (node.answer (.blockByHeight height))
  | .blocksByHeight (.number height) false =>
    respond url (fun h => .ok [headerBlock node h]) (node.answer (.blockHeaderByHeight height))
  | .blocksByHeight .sealed true =>
    respond url ([·].mapM (Carries.write {})) (node.answer (.latestBlock true))
  | .blocksByHeight .sealed false =>
    respond url (fun h => .ok [headerBlock node h]) (node.answer (.latestBlockHeader true))
  | .blocksByHeight .final true =>
    respond url ([·].mapM (Carries.write {})) (node.answer (.latestBlock false))
  | .blocksByHeight .final false =>
    respond url (fun h => .ok [headerBlock node h]) (node.answer (.latestBlockHeader false))
  | .collection id => respond url (Carries.write {}) (node.answer (.collection id))
  | .sendTransaction d => serveTransaction node url d
  | .transaction id => respond url (Carries.write {}) (node.answer (.transaction id))
  | .transactionResult id =>
    respond url (Carries.write { encoding := .jsonCdc }) (node.answer (.transactionResult id))
  | .account address .sealed =>
    respond url (Carries.write {}) (node.answer (.accountAtLatestBlock address))
  | .account address (.number height) =>
    respond url (Carries.write {}) (node.answer (.accountAtBlockHeight address height))
  | .scriptAtHeight .sealed body => serveScript node url .latest body
  | .scriptAtHeight (.number height) body => serveScript node url (.atHeight height) body
  | .scriptAtBlockId id body => serveScript node url (.ofBlock id) body
  | .eventsForHeightRange range =>
    respond url (·.mapM (Carries.write { encoding := .jsonCdc }))
      (node.answer (.eventsForHeightRange range))
  | .eventsForBlockIds eventType ids =>
    respond url (·.mapM (Carries.write { encoding := .jsonCdc }))
      (node.answer (.eventsForBlockIds eventType ids))
  | .executionResults [id] =>
    respond url ([·].mapM (Carries.write {})) (node.answer (.executionResult id))
  | _ => .error (.ofHttp 400 url "not served")

/-- The client's answer to an operation if the node is the one that is asked. -/
def Client.answerOf (c : Client) (node : AccessNode) {α : Type} (op : Operation α) :
    Except ClientError α :=
  (c.call op).answerFrom fun q => serve node (c.base ++ q.path) q

end Rest
end FlowAccess
