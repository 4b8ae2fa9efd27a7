import FlowAccess.Client.StatusCode
import FlowAccess.Codec
import FlowAccess.Network

/-!
# Client errors

How an operation against a node can fail. A failure that the node reports keeps the node's text.
-/

namespace FlowAccess

/-- A failure reported by a node, or on the way to it. -/
structure TransportError where
  code : StatusCode
  message : String
  /-- The status of an HTTP response. -/
  httpStatus : Option Nat := none
  /-- What was asked for over HTTP. -/
  url : Option String := none
  deriving DecidableEq, Inhabited

namespace TransportError

/-- The text of a failure that neither a node nor this library has words for. -/
def unnamed : String := "<transport>"

/-- An HTTP response that reports a failure. -/
def ofHttp (status : Nat) (url message : String) : TransportError :=
  { code := .ofHttpStatus status, message, httpStatus := some status, url := some url }

def isNotFound (e : TransportError) : Bool := e.code = .notFound

end TransportError

/-- Why an operation failed. -/
inductive ClientError where
  | encoding (error : EncodingError)
  | decoding (error : DecodingError)
  | transport (error : TransportError)
  | invalidRange (fault : EventRange.Fault)
  /-- Some blocks of events could be read before one could not. -/
  | partialEvents (events : PartialEvents)
  | invalidArgument (message : String)
  /-- A transport does not offer an operation. -/
  | unsupported (operation : String) (carrier : Transport)
  deriving DecidableEq

namespace ClientError

def message : ClientError → String
  | .encoding e => e.message
  | .decoding e => e.message
  | .transport e => e.message
  | .invalidRange fault => fault.message
  | .partialEvents p => p.error.message
  | .invalidArgument message => message
  | .unsupported operation carrier =>
    operation ++ " is not supported by the " ++ carrier.name ++ " transport"

/-- The code of a failure of transport. -/
def code? : ClientError → Option StatusCode
  | .transport e => some e.code
  | _ => none

def isNotFound (e : ClientError) : Bool := e.code? = some .notFound

end ClientError
end FlowAccess
