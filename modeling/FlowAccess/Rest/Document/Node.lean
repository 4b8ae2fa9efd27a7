import FlowAccess.Node
import FlowAccess.Rest.Document.Block

/-!
# Facts about a node as documents
-/

namespace FlowAccess.Rest

open Json Text

structure NetworkParameters where
  chainId : String := ""
  deriving DecidableEq, Inhabited

namespace NetworkParameters

instance : Document NetworkParameters where
  toJson d := .ofMembers [("chain_id", .string d.chainId)]
  ofNode? node := do
    let fs ← Fields.ofNode? ["chain_id"] node
    return { chainId := ← fs.string? "chain_id" }

def ofDomain (p : FlowAccess.NetworkParameters) : NetworkParameters := { chainId := p.chainId }

def toDomain (d : NetworkParameters) : FlowAccess.NetworkParameters := { chainId := d.chainId }

instance : Carries NetworkParameters FlowAccess.NetworkParameters where
  write _ d := .ok (.ofDomain d)
  read _ d := .ok d.toDomain

end NetworkParameters

structure NodeVersionInfo where
  semver : String := ""
  commit : String := ""
  sporkId : String := ""
  protocolVersion : String := ""
  sporkRootBlockHeight : String := ""
  nodeRootBlockHeight : String := ""
  deriving DecidableEq, Inhabited

namespace NodeVersionInfo

instance : Document NodeVersionInfo where
  toJson d :=
    .ofMembers [("semver", .string d.semver), ("commit", .string d.commit),
      ("spork_id", .string d.sporkId), ("protocol_version", .string d.protocolVersion),
      ("spork_root_block_height", .string d.sporkRootBlockHeight),
      ("node_root_block_height", .string d.nodeRootBlockHeight)]
  ofNode? node := do
    let fs ← Fields.ofNode?
      ["semver", "commit", "spork_id", "protocol_version", "spork_root_block_height",
        "node_root_block_height"] node
    return {
      semver := ← fs.string? "semver"
      commit := ← fs.string? "commit"
      sporkId := ← fs.string? "spork_id"
      protocolVersion := ← fs.string? "protocol_version"
      sporkRootBlockHeight := ← fs.string? "spork_root_block_height"
      nodeRootBlockHeight := ← fs.string? "node_root_block_height" }

def ofDomain (i : FlowAccess.NodeVersionInfo) : NodeVersionInfo :=
  { semver := i.semver, commit := i.commit, sporkId := i.sporkId.hex
    protocolVersion := numeral i.protocolVersion.toNat
    sporkRootBlockHeight := numeral i.sporkRootBlockHeight.toNat
    nodeRootBlockHeight := numeral i.nodeRootBlockHeight.toNat }

def toDomain (d : NodeVersionInfo) : Except DecodingError FlowAccess.NodeVersionInfo :=
  return {
    semver := d.semver
    commit := d.commit
    sporkId := ← Scalar.hexIdentifierOrEmpty "spork_id" d.sporkId
    protocolVersion := ← Scalar.uint64 "protocol_version" d.protocolVersion
    sporkRootBlockHeight := ← Scalar.uint64 "spork_root_block_height" d.sporkRootBlockHeight
    nodeRootBlockHeight := ← Scalar.uint64 "node_root_block_height" d.nodeRootBlockHeight }

instance : Carries NodeVersionInfo FlowAccess.NodeVersionInfo where
  write _ d := .ok (.ofDomain d)
  read _ := toDomain

end NodeVersionInfo
end FlowAccess.Rest
