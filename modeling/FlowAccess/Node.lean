import FlowAccess.Identifier

/-!
# Access nodes
-/

namespace FlowAccess

/-- The parameters of the network that a node serves. -/
structure NetworkParameters where
  chainId : String
  deriving DecidableEq, Inhabited

/-- The software of a node and the protocol that it speaks. -/
structure NodeVersionInfo where
  semver : String
  commit : String
  sporkId : Identifier
  protocolVersion : UInt64
  sporkRootBlockHeight : UInt64
  nodeRootBlockHeight : UInt64
  deriving DecidableEq, Inhabited

end FlowAccess
