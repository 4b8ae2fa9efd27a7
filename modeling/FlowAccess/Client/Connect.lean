import FlowAccess.Config.Basic
import FlowAccess.Grpc.Client
import FlowAccess.Rest.Client

/-!
# Clients from configurations

A client over either transport, and what can be wrong with it before anything is sent.
-/

namespace FlowAccess

open Text

/-- A client over one of the transports. -/
inductive Client where
  | grpc (client : Grpc.Client)
  | http (client : Rest.Client)
  deriving DecidableEq

/-- Why there is no client for an address. -/
structure ConnectError where
  carrier : Transport
  endpoint : String
  cause : ClientError
  deriving DecidableEq

def ConnectError.message (e : ConnectError) : String :=
  match e.carrier with
  | .grpc => "Failed to connect to " ++ e.endpoint
  | .http => "Invalid HTTP configuration for " ++ e.endpoint

/-- Why an address cannot be connected to over gRPC. -/
def GrpcConfig.refusal? (c : GrpcConfig) : Option ClientError :=
  match c.fault? with
  | some fault => some (.invalidArgument fault.message)
  | none =>
    if Uri.isWellFormed c.endpoint then none
    else some (.transport {
      code := .invalidArgument, message := "invalid endpoint " ++ c.endpoint ++ ": <uri>" })

/-- The client for a configuration. -/
def Config.client (c : Config) : Except ConnectError Client :=
  match c.transport with
  | .grpc =>
    match c.grpc.refusal? with
    | some cause => .error { carrier := .grpc, endpoint := c.grpc.endpoint, cause }
    | none => .ok (.grpc { options := c.options, heartbeat := c.heartbeat })
  | .http =>
    match c.http.fault? with
    | some fault =>
      .error { carrier := .http, endpoint := c.http.endpoint
               cause := .invalidArgument fault.message }
    | none => .ok (.http ((Rest.Client.ofBase c.http.endpoint).withOptions c.options))

end FlowAccess
