import FlowAccess.Client.Error
import FlowAccess.Rest.Document.Account
import FlowAccess.Rest.Document.Execution
import FlowAccess.Rest.Document.Node
import FlowAccess.Rest.Document.Transaction
import FlowAccess.Rest.Target

/-!
# Requests for documents

What can be asked of a node's documents, with the type of the response: the path, the parameters
and the body of a request, and what a client makes of a reply.
-/

namespace FlowAccess.Rest

open Json

/-- A block by its height, or the latest one that is sealed or final. -/
inductive Height where
  | number (height : UInt64)
  | sealed
  | final
  deriving DecidableEq

def Height.text : Height → String
  | .number h => numeral h.toNat
  | .sealed => "sealed"
  | .final => "final"

/-- A script and its arguments, both in base 64. -/
structure ScriptBody where
  script : String
  arguments : List String
  deriving DecidableEq

def ScriptBody.toJson (d : ScriptBody) : Json :=
  .ofMembers [("script", .string d.script), ("arguments", Document.toJson d.arguments)]

/-- A request, indexed by the type of its response. -/
inductive Query : Type → Type where
  | nodeVersionInfo : Query NodeVersionInfo
  | networkParameters : Query NetworkParameters
  /-- Payloads of blocks are left out unless they are asked for. -/
  | blocksById (id : Identifier) (withPayload : Bool) : Query (List Block)
  | blocksByHeight (height : Height) (withPayload : Bool) : Query (List Block)
  | collection (id : Identifier) : Query Collection
  | sendTransaction (transaction : Transaction) : Query Transaction
  | transaction (id : Identifier) : Query Transaction
  | transactionResult (id : Identifier) : Query TransactionResult
  | account (address : Address) (height : Height) : Query Account
  /-- Answered with the value in base 64. -/
  | scriptAtHeight (height : Height) (body : ScriptBody) : Query String
  | scriptAtBlockId (id : Identifier) (body : ScriptBody) : Query String
  | eventsForHeightRange (range : EventRange) : Query (List BlockEvents)
  | eventsForBlockIds (eventType : String) (ids : List Identifier) : Query (List BlockEvents)
  | executionResults (blockIds : List Identifier) : Query (List ExecutionResult)

namespace Query

/-- The path below the root of the documents. -/
def path {R : Type} : Query R → String
  | .nodeVersionInfo => "/node_version_info"
  | .networkParameters => "/network/parameters"
  | .blocksById id _ => "/blocks/" ++ id.hex
  | .blocksByHeight .. => "/blocks"
  | .collection id => "/collections/" ++ id.hex
  | .sendTransaction _ => "/transactions"
  | .transaction id => "/transactions/" ++ id.hex
  | .transactionResult id => "/transaction_results/" ++ id.hex
  | .account address _ => "/accounts/" ++ address.hex
  | .scriptAtHeight .. => "/scripts"
  | .scriptAtBlockId .. => "/scripts"
  | .eventsForHeightRange _ => "/events"
  | .eventsForBlockIds .. => "/events"
  | .executionResults _ => "/execution_results"

/-- The parameter that asks for payloads. -/
def payloadParameter (withPayload : Bool) : List (String × String) :=
  if withPayload then [("expand", "payload")] else []

/-- Identifiers with commas between them. -/
def idList (ids : List Identifier) : String := ",".intercalate (ids.map (·.hex))

def parameters {R : Type} : Query R → List (String × String)
  | .nodeVersionInfo => []
  | .networkParameters => []
  | .blocksById _ withPayload => payloadParameter withPayload
  | .blocksByHeight height withPayload => ("height", height.text) :: payloadParameter withPayload
  | .collection _ => [("expand", "transactions")]
  | .sendTransaction _ => []
  | .transaction _ => []
  | .transactionResult _ => []
  | .account _ height => [("block_height", height.text), ("expand", "keys,contracts")]
  | .scriptAtHeight height _ => [("block_height", height.text)]
  | .scriptAtBlockId id _ => [("block_id", id.hex)]
  | .eventsForHeightRange range =>
    [("type", range.eventType), ("start_height", numeral range.start.toNat),
      ("end_height", numeral range.stop.toNat)]
  | .eventsForBlockIds eventType ids => [("type", eventType), ("block_ids", idList ids)]
  | .executionResults ids => [("block_id", idList ids)]

/-- The document that a request carries; those that carry none only read. -/
def body? {R : Type} : Query R → Option Json
  | .sendTransaction t => some (Document.toJson t)
  | .scriptAtHeight _ body => some body.toJson
  | .scriptAtBlockId _ body => some body.toJson
  | _ => none

def method {R : Type} (q : Query R) : String := if q.body?.isSome then "POST" else "GET"

/-- The target of a request to a node whose documents have a root. -/
def target {R : Type} (root : String) (q : Query R) : String :=
  Target.render (root ++ q.path) q.parameters

/-- Reads the document of a response. -/
def decode? {R : Type} : Query R → String → Option R
  | .nodeVersionInfo => document?
  | .networkParameters => document?
  | .blocksById .. => document?
  | .blocksByHeight .. => document?
  | .collection _ => document?
  | .sendTransaction _ => document?
  | .transaction _ => document?
  | .transactionResult _ => document?
  | .account .. => document?
  | .scriptAtHeight .. => document?
  | .scriptAtBlockId .. => document?
  | .eventsForHeightRange _ => document?
  | .eventsForBlockIds .. => document?
  | .executionResults _ => document?

end Query

/-! ## Replies -/

/-- The document with which a node reports a failure. -/
structure Failure where
  code : Nat := 0
  message : String := ""
  deriving DecidableEq

instance : Document Failure where
  toJson d := .ofMembers [("code", .number (.integer d.code)), ("message", .string d.message)]
  ofNode? node := do
    let fs ← Fields.ofNode? ["code", "message"] node
    return {
      code := ← fs.withDefault? "code" 0 (Node.natBelow? UInt16.size)
      message := ← fs.withDefault? "message" "" Node.string? }

/-- What comes of sending a request. -/
inductive Reply where
  | response (status : Nat) (body : String)
  /-- No response came, or none in time. -/
  | missing (timedOut : Bool)
  deriving DecidableEq

namespace Reply

/-- The text of a failure: that of the document if it has one, else the whole body. -/
def failureText (body : String) : String :=
  match (document? body : Option Failure) with
  | some f => if f.message = "" then body else f.message
  | none => body

/-- The response to a request. -/
def read {R : Type} (base : String) (q : Query R) : Reply → Except TransportError R
  | .missing timedOut =>
    .error {
      code := if timedOut then .deadlineExceeded else .unavailable
      message := TransportError.unnamed }
  | .response status body =>
    let url := base ++ q.path
    if 200 ≤ status ∧ status ≤ 299 then
      match q.decode? body with
      | some r => .ok r
      | none => .error {
          code := .internal
          message := "malformed response from " ++ url ++ ": <json>" }
    else .error (.ofHttp status url (failureText body))

end Reply
end FlowAccess.Rest
