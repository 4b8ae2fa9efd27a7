import FlowAccess.Text.Names

/-!
# Networks and transports

The public networks with the endpoints of their access nodes, and the two ways to talk to a node.
-/

namespace FlowAccess

inductive Transport where
  | grpc
  | http
  deriving DecidableEq, Inhabited

namespace Transport

def name : Transport → String
  | .grpc => "grpc"
  | .http => "http"

/-- The transport of a name in any case. -/
def ofName? : String → Option Transport := Text.lookupName [("grpc", .grpc), ("http", .http)]

end Transport

inductive Network where
  /-- A network on the local machine. -/
  | emulator
  | testnet
  | mainnet
  deriving DecidableEq, Inhabited

namespace Network

def name : Network → String
  | .emulator => "emulator"
  | .testnet => "testnet"
  | .mainnet => "mainnet"

/-- The network of a name in any case. -/
def ofName? : String → Option Network :=
  Text.lookupName [("emulator", .emulator), ("testnet", .testnet), ("mainnet", .mainnet)]

/-- Where a network's access node is reached over a transport. -/
def endpoint : Transport → Network → String
  | .grpc, .emulator => "http://127.0.0.1:3569"
  | .grpc, .testnet => "http://access.devnet.nodes.onflow.org:9000"
  | .grpc, .mainnet => "http://access.mainnet.nodes.onflow.org:9000"
  | .http, .emulator => "http://127.0.0.1:8888/v1"
  | .http, .testnet => "https://rest-testnet.onflow.org/v1"
  | .http, .mainnet => "https://rest-mainnet.onflow.org/v1"

end Network
end FlowAccess
