import FlowAccess.Codec
import FlowAccess.Node
import FlowAccess.Protobuf.Message
import FlowAccess.Scalar

/-!
# Facts about a node as messages
-/

namespace FlowAccess.Grpc

open Protobuf

structure NodeVersionInfo where
  semver : String := ""
  commit : String := ""
  sporkId : Bytes := []
  protocolVersion : UInt64 := 0
  sporkRootBlockHeight : UInt64 := 0
  nodeRootBlockHeight : UInt64 := 0
  deriving DecidableEq, Inhabited

namespace NodeVersionInfo

instance : Message NodeVersionInfo where
  records m :=
    Record.ofString 1 m.semver ++ Record.ofString 2 m.commit ++ Record.ofBytes 3 m.sporkId ++
      Record.ofNat 4 m.protocolVersion.toNat ++ Record.ofNat 5 m.sporkRootBlockHeight.toNat ++
      Record.ofNat 6 m.nodeRootBlockHeight.toNat
  ofFields? fs :=
    return {
      semver := ← fs.string? 1
      commit := ← fs.string? 2
      sporkId := ← fs.bytes? 3
      protocolVersion := ← fs.uint64? 4
      sporkRootBlockHeight := ← fs.uint64? 5
      nodeRootBlockHeight := ← fs.uint64? 6 }

def ofDomain (i : FlowAccess.NodeVersionInfo) : NodeVersionInfo :=
  { semver := i.semver, commit := i.commit, sporkId := i.sporkId.bytes
    protocolVersion := i.protocolVersion, sporkRootBlockHeight := i.sporkRootBlockHeight
    nodeRootBlockHeight := i.nodeRootBlockHeight }

def toDomain (m : NodeVersionInfo) : Except DecodingError FlowAccess.NodeVersionInfo :=
  return {
    semver := m.semver
    commit := m.commit
    sporkId := ← Scalar.identifierOrEmpty "spork_id" m.sporkId
    protocolVersion := m.protocolVersion
    sporkRootBlockHeight := m.sporkRootBlockHeight
    nodeRootBlockHeight := m.nodeRootBlockHeight }

instance : Carries NodeVersionInfo FlowAccess.NodeVersionInfo where
  write _ d := .ok (.ofDomain d)
  read _ := toDomain

end NodeVersionInfo
end FlowAccess.Grpc
