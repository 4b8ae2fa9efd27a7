import FlowAccess.Client.Error
import FlowAccess.Grpc.Message.Account
import FlowAccess.Grpc.Message.Envelope
import FlowAccess.Grpc.Message.Execution
import FlowAccess.Grpc.Message.Node

/-!
# Remote procedures

The procedures of an access node, with their arguments and the type of their responses, the path
and the message of a request, and what a client makes of a reply.
-/

namespace FlowAccess.Grpc

open Protobuf

/-! ## Procedures with one response -/

/-- A request, indexed by the type of its response. -/
inductive Rpc : Type → Type where
  | ping : Rpc Acknowledgement
  | getNodeVersionInfo : Rpc (Holder NodeVersionInfo)
  | getNetworkParameters : Rpc Label
  | getLatestProtocolStateSnapshot : Rpc Blob
  | getLatestBlockHeader (isSealed : Bool) : Rpc (Holder BlockHeader)
  | getBlockHeaderById (id : Identifier) : Rpc (Holder BlockHeader)
  | getBlockHeaderByHeight (height : UInt64) : Rpc (Holder BlockHeader)
  | getLatestBlock (isSealed : Bool) : Rpc (Holder Block)
  | getBlockById (id : Identifier) : Rpc (Holder Block)
  | getBlockByHeight (height : UInt64) : Rpc (Holder Block)
  | getCollectionById (id : Identifier) : Rpc (Holder Collection)
  | sendTransaction (transaction : Transaction) : Rpc Blob
  | getTransaction (id : Identifier) (encoding : Encoding) : Rpc (Holder Transaction)
  | getTransactionResult (id : Identifier) (encoding : Encoding) : Rpc TransactionResult
  | getTransactionsByBlockId (id : Identifier) (encoding : Encoding) : Rpc (Listing Transaction)
  | getTransactionResultsByBlockId (id : Identifier) (encoding : Encoding) :
    Rpc (Listing TransactionResult)
  | getAccountAtLatestBlock (address : Address) : Rpc (Holder Account)
  | getAccountAtBlockHeight (address : Address) (height : UInt64) : Rpc (Holder Account)
  | executeScriptAtLatestBlock (script : Bytes) (arguments : List Bytes) : Rpc Blob
  | executeScriptAtBlockId (id : Identifier) (script : Bytes) (arguments : List Bytes) : Rpc Blob
  | executeScriptAtBlockHeight (height : UInt64) (script : Bytes) (arguments : List Bytes) :
    Rpc Blob
  | getEventsForHeightRange (range : EventRange) (encoding : Encoding) : Rpc (Listing BlockEvents)
  | getEventsForBlockIds (eventType : String) (ids : List Identifier) (encoding : Encoding) :
    Rpc (Listing BlockEvents)
  | getExecutionResultForBlockId (id : Identifier) : Rpc (Holder ExecutionResult)
  | getExecutionDataByBlockId (id : Identifier) (encoding : Encoding) : Rpc (Holder ExecutionData)

/-- The path of a procedure of the access service. -/
def accessPath (method : String) : String := "/flow.access.AccessAPI/" ++ method

/-- The path of a procedure of the execution data service. -/
def executionDataPath (method : String) : String :=
  "/flow.executiondata.ExecutionDataAPI/" ++ method

namespace Rpc

def path {R : Type} : Rpc R → String
  | .ping => accessPath "Ping"
  | .getNodeVersionInfo => accessPath "GetNodeVersionInfo"
  | .getNetworkParameters => accessPath "GetNetworkParameters"
  | .getLatestProtocolStateSnapshot => accessPath "GetLatestProtocolStateSnapshot"
  | .getLatestBlockHeader _ => accessPath "GetLatestBlockHeader"
  | .getBlockHeaderById _ => accessPath "GetBlockHeaderByID"
  | .getBlockHeaderByHeight _ => accessPath "GetBlockHeaderByHeight"
  | .getLatestBlock _ => accessPath "GetLatestBlock"
  | .getBlockById _ => accessPath "GetBlockByID"
  | .getBlockByHeight _ => accessPath "GetBlockByHeight"
  | .getCollectionById _ => accessPath "GetCollectionByID"
  | .sendTransaction _ => accessPath "SendTransaction"
  | .getTransaction .. => accessPath "GetTransaction"
  | .getTransactionResult .. => accessPath "GetTransactionResult"
  | .getTransactionsByBlockId .. => accessPath "GetTransactionsByBlockID"
  | .getTransactionResultsByBlockId .. => accessPath "GetTransactionResultsByBlockID"
  | .getAccountAtLatestBlock _ => accessPath "GetAccountAtLatestBlock"
  | .getAccountAtBlockHeight .. => accessPath "GetAccountAtBlockHeight"
  | .executeScriptAtLatestBlock .. => accessPath "ExecuteScriptAtLatestBlock"
  | .executeScriptAtBlockId .. => accessPath "ExecuteScriptAtBlockID"
  | .executeScriptAtBlockHeight .. => accessPath "ExecuteScriptAtBlockHeight"
  | .getEventsForHeightRange .. => accessPath "GetEventsForHeightRange"
  | .getEventsForBlockIds .. => accessPath "GetEventsForBlockIDs"
  | .getExecutionResultForBlockId _ => accessPath "GetExecutionResultForBlockID"
  | .getExecutionDataByBlockId .. => executionDataPath "GetExecutionDataByBlockID"

/-- The encoding of event payloads that a request asks for, if its response can hold any. -/
def encoding? {R : Type} : Rpc R → Option Encoding
  | .getTransaction _ encoding => some encoding
  | .getTransactionResult _ encoding => some encoding
  | .getTransactionsByBlockId _ encoding => some encoding
  | .getTransactionResultsByBlockId _ encoding => some encoding
  | .getEventsForHeightRange _ encoding => some encoding
  | .getEventsForBlockIds _ _ encoding => some encoding
  | .getExecutionDataByBlockId _ encoding => some encoding
  | _ => none

/-- The records of the message of a request. -/
def records {R : Type} : Rpc R → List Record
  | .ping => []
  | .getNodeVersionInfo => []
  | .getNetworkParameters => []
  | .getLatestProtocolStateSnapshot => []
  | .getLatestBlockHeader isSealed => Record.ofBool 1 isSealed
  | .getBlockHeaderById id => Record.ofBytes 1 id.bytes
  | .getBlockHeaderByHeight height => Record.ofNat 1 height.toNat
  | .getLatestBlock isSealed => Record.ofBool 1 isSealed
  | .getBlockById id => Record.ofBytes 1 id.bytes
  | .getBlockByHeight height => Record.ofNat 1 height.toNat
  | .getCollectionById id => Record.ofBytes 1 id.bytes
  | .sendTransaction t => Record.ofMessage? 1 (some t)
  | .getTransaction id encoding => Record.ofBytes 1 id.bytes ++ Record.ofNat 4 encoding.code
  | .getTransactionResult id encoding =>
    Record.ofBytes 1 id.bytes ++ Record.ofNat 4 encoding.code
  | .getTransactionsByBlockId id encoding =>
    Record.ofBytes 1 id.bytes ++ Record.ofNat 2 encoding.code
  | .getTransactionResultsByBlockId id encoding =>
    Record.ofBytes 1 id.bytes ++ Record.ofNat 2 encoding.code
  | .getAccountAtLatestBlock address => Record.ofBytes 1 address.bytes
  | .getAccountAtBlockHeight address height =>
    Record.ofBytes 1 address.bytes ++ Record.ofNat 2 height.toNat
  | .executeScriptAtLatestBlock script arguments =>
    Record.ofBytes 1 script ++ Record.ofByteStrings 2 arguments
  | .executeScriptAtBlockId id script arguments =>
    Record.ofBytes 1 id.bytes ++ Record.ofBytes 2 script ++ Record.ofByteStrings 3 arguments
  | .executeScriptAtBlockHeight height script arguments =>
    Record.ofNat 1 height.toNat ++ Record.ofBytes 2 script ++ Record.ofByteStrings 3 arguments
  | .getEventsForHeightRange range encoding =>
    Record.ofString 1 range.eventType ++ Record.ofNat 2 range.start.toNat ++
      Record.ofNat 3 range.stop.toNat ++ Record.ofNat 4 encoding.code
  | .getEventsForBlockIds eventType ids encoding =>
    Record.ofString 1 eventType ++ Record.ofByteStrings 2 (ids.map (·.bytes)) ++
      Record.ofNat 3 encoding.code
  | .getExecutionResultForBlockId id => Record.ofBytes 1 id.bytes
  | .getExecutionDataByBlockId id encoding =>
    Record.ofBytes 1 id.bytes ++ Record.ofNat 2 encoding.code

def message {R : Type} (rpc : Rpc R) : Bytes := writeRecords rpc.records

/-- Reads the message of a response. -/
def decode? {R : Type} : Rpc R → Bytes → Option R
  | .ping => Protobuf.decode?
  | .getNodeVersionInfo => Protobuf.decode?
  | .getNetworkParameters => Protobuf.decode?
  | .getLatestProtocolStateSnapshot => Protobuf.decode?
  | .getLatestBlockHeader _ => Protobuf.decode?
  | .getBlockHeaderById _ => Protobuf.decode?
  | .getBlockHeaderByHeight _ => Protobuf.decode?
  | .getLatestBlock _ => Protobuf.decode?
  | .getBlockById _ => Protobuf.decode?
  | .getBlockByHeight _ => Protobuf.decode?
  | .getCollectionById _ => Protobuf.decode?
  | .sendTransaction _ => Protobuf.decode?
  | .getTransaction .. => Protobuf.decode?
  | .getTransactionResult .. => Protobuf.decode?
  | .getTransactionsByBlockId .. => Protobuf.decode?
  | .getTransactionResultsByBlockId .. => Protobuf.decode?
  | .getAccountAtLatestBlock _ => Protobuf.decode?
  | .getAccountAtBlockHeight .. => Protobuf.decode?
  | .executeScriptAtLatestBlock .. => Protobuf.decode?
  | .executeScriptAtBlockId .. => Protobuf.decode?
  | .executeScriptAtBlockHeight .. => Protobuf.decode?
  | .getEventsForHeightRange .. => Protobuf.decode?
  | .getEventsForBlockIds .. => Protobuf.decode?
  | .getExecutionResultForBlockId _ => Protobuf.decode?
  | .getExecutionDataByBlockId .. => Protobuf.decode?

end Rpc

/-! ## Procedures with a stream of responses -/

/-- Where a subscription starts. -/
inductive Start where
  | block (id : Identifier)
  | height (height : UInt64)
  deriving DecidableEq

def Start.records : Start → List Record
  | .block id => Record.ofBytes 1 id.bytes
  | .height h => Record.ofNat 2 h.toNat

/-- A request, indexed by the type of the messages of its stream. -/
inductive Feed : Type → Type where
  | executionData (start : Start) (encoding : Encoding) : Feed SubscribedExecutionData
  /-- Blocks without events are reported every so many blocks. -/
  | events (start : Start) (filter : Option EventFilter) (heartbeat : UInt64)
    (encoding : Encoding) : Feed SubscribedEvents

namespace Feed

def path {R : Type} : Feed R → String
  | .executionData .. => executionDataPath "SubscribeExecutionData"
  | .events .. => executionDataPath "SubscribeEvents"

def encoding {R : Type} : Feed R → Encoding
  | .executionData _ encoding => encoding
  | .events _ _ _ encoding => encoding

def records {R : Type} : Feed R → List Record
  | .executionData start encoding => start.records ++ Record.ofNat 3 encoding.code
  | .events start filter heartbeat encoding =>
    start.records ++ Record.ofMessage? 3 filter ++ Record.ofNat 4 heartbeat.toNat ++
      Record.ofNat 5 encoding.code

def message {R : Type} (feed : Feed R) : Bytes := writeRecords feed.records

/-- Reads a message of the stream. -/
def decode? {R : Type} : Feed R → Bytes → Option R
  | .executionData .. => Protobuf.decode?
  | .events .. => Protobuf.decode?

end Feed

/-! ## Replies -/

/-- What a node sends in reply to a request: messages, and then a status. -/
structure Reply where
  messages : List Bytes := []
  status : StatusCode := .ok
  text : String := ""
  deriving DecidableEq

namespace Reply

/-- Reads one message, if it is not too long. -/
def receive {R : Type} (limit : Nat) (decode? : Bytes → Option R) (message : Bytes) :
    Except TransportError R :=
  if limit < message.length then .error { code := .outOfRange, message := TransportError.unnamed }
  else
    match decode? message with
    | some r => .ok r
    | none => .error { code := .internal, message := TransportError.unnamed }

/-- How a reply ends. -/
def outcome (reply : Reply) : Except TransportError Unit :=
  if reply.status = .ok then .ok () else .error { code := reply.status, message := reply.text }

/-- The response of a procedure that has one. -/
def unary {R : Type} (limit : Nat) (decode? : Bytes → Option R) (reply : Reply) :
    Except TransportError R := do
  let responses ← reply.messages.mapM (receive limit decode?)
  reply.outcome
  match responses with
  | r :: _ => return r
  | [] => .error { code := .internal, message := TransportError.unnamed }

/-- The stream of a procedure that has one. -/
def stream {R : Type} (limit : Nat) (decode? : Bytes → Option R) (reply : Reply) :
    List (Except TransportError R) :=
  reply.messages.map (receive limit decode?) ++
    match reply.outcome with
    | .ok _ => []
    | .error e => [.error e]

end Reply
end FlowAccess.Grpc
