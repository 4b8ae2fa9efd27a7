import FlowAccess.Codec
import FlowAccess.Network
import FlowAccess.Text.Uri

/-!
# Configuration

How a node is reached over either transport, and what a client is built from.
-/

namespace FlowAccess

open Text

/-- Why a configuration is refused. -/
inductive ConfigError where
  /-- A variable of the environment names nothing among the choices. -/
  | invalidVariable (variableName value choices : String)
  /-- An address has no scheme of a transport. -/
  | invalidEndpoint (carrier : Transport) (endpoint : String)
  | zeroTimeout
  | zeroMessageSize
  deriving DecidableEq

def ConfigError.message : ConfigError → String
  | .invalidVariable variableName value choices =>
    "Invalid " ++ variableName ++ ": " ++ value ++ ". Must be " ++ choices
  | .invalidEndpoint carrier endpoint => "Invalid " ++ carrier.name ++ " endpoint: " ++ endpoint
  | .zeroTimeout => "Request timeout must be greater than 0"
  | .zeroMessageSize => "Max message size must be greater than 0"

/-! ## Connections -/

/-- How a node is reached over HTTP. -/
structure HttpConfig where
  network : Network := .emulator
  /-- An address in place of the network's own. -/
  host : Option String := none
  /-- The seconds after which a request is given up. -/
  timeout : UInt64 := 30
  deriving DecidableEq, Inhabited

namespace HttpConfig

/-- The address that is connected to over a transport. -/
def endpointOver (carrier : Transport) (c : HttpConfig) : String :=
  c.host.getD (c.network.endpoint carrier)

def endpoint (c : HttpConfig) : String := c.endpointOver .http

/-- What is wrong with the address or the timeout, over a transport. -/
def faultOver? (carrier : Transport) (c : HttpConfig) : Option ConfigError :=
  if (Uri.afterScheme? (c.endpointOver carrier)).isNone then
    some (.invalidEndpoint carrier (c.endpointOver carrier))
  else if c.timeout = 0 then some .zeroTimeout
  else none

def fault? (c : HttpConfig) : Option ConfigError := c.faultOver? .http

end HttpConfig

/-- How a node is reached over gRPC, which limits the size of messages as well. -/
structure GrpcConfig extends HttpConfig where
  /-- The greatest size of a message in bytes. -/
  maxMessageSize : UInt64 := 20 * 1024 * 1024
  deriving DecidableEq, Inhabited

namespace GrpcConfig

def endpoint (c : GrpcConfig) : String := c.endpointOver .grpc

/-- What is wrong with the configuration; the size comes last. -/
def fault? (c : GrpcConfig) : Option ConfigError :=
  (c.faultOver? .grpc).or (if c.maxMessageSize = 0 then some .zeroMessageSize else none)

end GrpcConfig

/-! ## Clients -/

/-- What a client is built from. -/
structure Config extends GrpcConfig where
  transport : Transport := .grpc
  options : CodecOptions := {}
  /-- Blocks between reports on subscriptions to events. -/
  heartbeat : UInt64 := 100
  deriving DecidableEq, Inhabited

namespace Config

def grpc (c : Config) : GrpcConfig := c.toGrpcConfig

def http (c : Config) : HttpConfig := c.toHttpConfig

/-- The configuration with another encoding of event payloads. -/
def withEncoding (encoding : Encoding) (c : Config) : Config :=
  { c with options := { c.options with encoding } }

/-- The configuration that accepts, or refuses, older forms of values. -/
def withCompatible (compatible : Bool) (c : Config) : Config :=
  { c with options := { c.options with values := ⟨compatible⟩ } }

/-- The configuration that decodes payloads at once, or when they are asked for. -/
def withEager (eager : Bool) (c : Config) : Config := { c with options := { c.options with eager } }

end Config
end FlowAccess
