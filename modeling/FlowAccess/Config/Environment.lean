import FlowAccess.Config.Basic
import FlowAccess.Text.Blank

/-!
# Configuration from the environment

The variables that configurations are read from. A name that is not understood is an error; a
number or a flag that is not understood leaves the default.
-/

namespace FlowAccess

open Text

/-- The values of the variables that are set. -/
abbrev Environment := String → Option String

namespace Environment

/-- A name out of a list of choices, or a default if the variable is not set. -/
def named {α : Type} (env : Environment) (variableName : String) (ofName? : String → Option α)
    (choices : String) (default : α) : Except ConfigError α :=
  match env variableName with
  | none => .ok default
  | some name =>
    match ofName? name with
    | some a => .ok a
    | none => .error (.invalidVariable variableName name choices)

/-- A number of at most 64 bits, with an optional plus sign. -/
def number? (env : Environment) (variableName : String) : Option UInt64 := do
  let n ← Numeral.unsigned? (← env variableName).toList
  if n < UInt64.size then return .ofNat n else none

/-- What a word says of a flag; no word at all sets it. -/
def flagOfWord? (word : String) : Option Bool :=
  if ["", "1", "true", "yes", "on"].contains word then some true
  else if ["0", "false", "no", "off"].contains word then some false
  else none

/-- A flag, in any case and with white space around it. -/
def flag? (env : Environment) (variableName : String) : Option Bool := do
  flagOfWord? (lower (trim (← env variableName)))

/-! ## Variables -/

def transport (env : Environment) : Except ConfigError Transport :=
  env.named "FLOW_ACCESS_TRANSPORT" Transport.ofName? "grpc or http" .grpc

def network (env : Environment) : Except ConfigError Network :=
  env.named "FLOW_NETWORK" Network.ofName? "emulator, testnet, or mainnet" .emulator

def encoding (env : Environment) : Except ConfigError Encoding :=
  env.named "FLOW_EVENT_ENCODING" Encoding.ofName? "ccf or json-cdc" .ccf

def host? (env : Environment) : Option String := env "FLOW_ACCESS_HOST"

def timeout? (env : Environment) : Option UInt64 := env.number? "FLOW_REQUEST_TIMEOUT_SECS"

def compatible? (env : Environment) : Option Bool := env.flag? "FLOW_JSON_BACKWARDS_COMPAT"

def lazy? (env : Environment) : Option Bool := env.flag? "FLOW_LAZY_EVENTS"

def heartbeat? (env : Environment) : Option UInt64 := env.number? "FLOW_HEARTBEAT_INTERVAL"

def maxMessageSize? (env : Environment) : Option UInt64 := env.number? "FLOW_GRPC_MAX_MESSAGE_SIZE"

end Environment

/-! ## Configurations -/

def HttpConfig.ofEnvironment (env : Environment) : Except ConfigError HttpConfig := do
  let c : HttpConfig := { network := ← env.network, host := env.host? }
  return { c with timeout := env.timeout?.getD c.timeout }

def GrpcConfig.ofEnvironment (env : Environment) : Except ConfigError GrpcConfig := do
  let c : GrpcConfig := { toHttpConfig := ← HttpConfig.ofEnvironment env }
  return { c with maxMessageSize := env.maxMessageSize?.getD c.maxMessageSize }

/-- Reads the names first, in the order transport, network, encoding. An empty host counts as none
here. -/
def Config.ofEnvironment (env : Environment) : Except ConfigError Config := do
  let transport ← env.transport
  let grpc ← GrpcConfig.ofEnvironment env
  let c : Config := { toGrpcConfig := grpc, transport }
  return { c with
    host := grpc.host.filter (· ≠ "")
    heartbeat := env.heartbeat?.getD c.heartbeat
    options := {
      encoding := ← env.encoding
      eager := !env.lazy?.getD false
      values := ⟨env.compatible?.getD false⟩ } }

end FlowAccess
