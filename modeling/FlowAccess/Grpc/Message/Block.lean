import FlowAccess.Block
import FlowAccess.Codec
import FlowAccess.Protobuf.Message
import FlowAccess.Scalar

/-!
# Blocks and collections as messages

The messages for blocks and what they refer to, and how domain values are turned into them and
back. Fields that the domain has no use for are left empty and ignored.
-/

namespace FlowAccess.Grpc

open Protobuf

/-! ## Time -/

/-- A point in time as a message. -/
structure Timestamp where
  seconds : Int64 := 0
  nanos : Int32 := 0
  deriving DecidableEq, Inhabited

namespace Timestamp

instance : Message Timestamp where
  records m := Record.ofInt 1 m.seconds.toInt ++ Record.ofInt 2 m.nanos.toInt
  ofFields? fs := return { seconds := ← fs.int64? 1, nanos := ← fs.int32? 2 }

def ofDomain (t : FlowAccess.Timestamp) : Timestamp :=
  { seconds := .ofInt t.seconds, nanos := .ofInt t.nanos }

/-- The point in time of a message; one that is absent is the start of Unix time. -/
def toDomain (field : String) : Option Timestamp → Except DecodingError FlowAccess.Timestamp
  | none => .ok .epoch
  | some m => Scalar.pointInTime field m.seconds.toInt m.nanos.toInt

end Timestamp

/-! ## Blocks -/

structure BlockHeader where
  id : Bytes := []
  parentId : Bytes := []
  height : UInt64 := 0
  timestamp : Option Timestamp := none
  payloadHash : Bytes := []
  view : UInt64 := 0
  deriving DecidableEq, Inhabited

namespace BlockHeader

instance : Message BlockHeader where
  records m :=
    Record.ofBytes 1 m.id ++ Record.ofBytes 2 m.parentId ++ Record.ofNat 3 m.height.toNat ++
      Record.ofMessage? 4 m.timestamp ++ Record.ofBytes 5 m.payloadHash ++
      Record.ofNat 6 m.view.toNat
  ofFields? fs :=
    return {
      id := ← fs.bytes? 1
      parentId := ← fs.bytes? 2
      height := ← fs.uint64? 3
      timestamp := ← fs.message? 4
      payloadHash := ← fs.bytes? 5
      view := ← fs.uint64? 6 }

def ofDomain (h : FlowAccess.BlockHeader) : BlockHeader :=
  { id := h.id.bytes, parentId := h.parentId.bytes, height := h.height
    timestamp := some (.ofDomain h.timestamp) }

def toDomain (m : BlockHeader) : Except DecodingError FlowAccess.BlockHeader :=
  return {
    id := ← Scalar.identifier "block_header.id" m.id
    parentId := ← Scalar.identifier "block_header.parent_id" m.parentId
    height := m.height
    timestamp := ← Timestamp.toDomain "block_header.timestamp" m.timestamp }

instance : Carries BlockHeader FlowAccess.BlockHeader where
  write _ d := .ok (.ofDomain d)
  read _ := toDomain

end BlockHeader

structure CollectionGuarantee where
  collectionId : Bytes := []
  signatures : List Bytes := []
  deriving DecidableEq, Inhabited

namespace CollectionGuarantee

instance : Message CollectionGuarantee where
  records m := Record.ofBytes 1 m.collectionId ++ Record.ofByteStrings 2 m.signatures
  ofFields? fs := return { collectionId := ← fs.bytes? 1, signatures := ← fs.byteStrings? 2 }

def ofDomain (g : FlowAccess.CollectionGuarantee) : CollectionGuarantee :=
  { collectionId := g.collectionId.bytes }

def toDomain (m : CollectionGuarantee) : Except DecodingError FlowAccess.CollectionGuarantee :=
  return { collectionId := ← Scalar.identifier "collection_guarantee.collection_id" m.collectionId }

instance : Carries CollectionGuarantee FlowAccess.CollectionGuarantee where
  write _ d := .ok (.ofDomain d)
  read _ := toDomain

end CollectionGuarantee

structure BlockSeal where
  blockId : Bytes := []
  executionReceiptId : Bytes := []
  executionReceiptSignatures : List Bytes := []
  resultApprovalSignatures : List Bytes := []
  deriving DecidableEq, Inhabited

namespace BlockSeal

instance : Message BlockSeal where
  records m :=
    Record.ofBytes 1 m.blockId ++ Record.ofBytes 2 m.executionReceiptId ++
      Record.ofByteStrings 3 m.executionReceiptSignatures ++
      Record.ofByteStrings 4 m.resultApprovalSignatures
  ofFields? fs :=
    return {
      blockId := ← fs.bytes? 1
      executionReceiptId := ← fs.bytes? 2
      executionReceiptSignatures := ← fs.byteStrings? 3
      resultApprovalSignatures := ← fs.byteStrings? 4 }

def ofDomain (s : FlowAccess.BlockSeal) : BlockSeal :=
  { blockId := s.blockId.bytes, executionReceiptId := s.executionReceiptId.bytes }

def toDomain (m : BlockSeal) : Except DecodingError FlowAccess.BlockSeal :=
  return {
    blockId := ← Scalar.identifier "block_seal.block_id" m.blockId
    executionReceiptId :=
      ← Scalar.identifier "block_seal.execution_receipt_id" m.executionReceiptId }

instance : Carries BlockSeal FlowAccess.BlockSeal where
  write _ d := .ok (.ofDomain d)
  read _ := toDomain

end BlockSeal

/-- A block as a message, which has the fields of its header in itself. -/
structure Block where
  id : Bytes := []
  parentId : Bytes := []
  height : UInt64 := 0
  timestamp : Option Timestamp := none
  guarantees : List CollectionGuarantee := []
  seals : List BlockSeal := []
  signatures : List Bytes := []
  deriving DecidableEq, Inhabited

namespace Block

instance : Message Block where
  records m :=
    Record.ofBytes 1 m.id ++ Record.ofBytes 2 m.parentId ++ Record.ofNat 3 m.height.toNat ++
      Record.ofMessage? 4 m.timestamp ++ Record.ofMessages 5 m.guarantees ++
      Record.ofMessages 6 m.seals ++ Record.ofByteStrings 7 m.signatures
  ofFields? fs :=
    return {
      id := ← fs.bytes? 1
      parentId := ← fs.bytes? 2
      height := ← fs.uint64? 3
      timestamp := ← fs.message? 4
      guarantees := ← fs.messages? 5
      seals := ← fs.messages? 6
      signatures := ← fs.byteStrings? 7 }

def ofDomain (b : FlowAccess.Block) : Block :=
  { id := b.header.id.bytes, parentId := b.header.parentId.bytes, height := b.header.height
    timestamp := some (.ofDomain b.header.timestamp)
    guarantees := b.guarantees.map .ofDomain, seals := b.seals.map .ofDomain }

def toDomain (m : Block) : Except DecodingError FlowAccess.Block := do
  let header : FlowAccess.BlockHeader := {
    id := ← Scalar.identifier "block.id" m.id
    parentId := ← Scalar.identifier "block.parent_id" m.parentId
    height := m.height
    timestamp := ← Timestamp.toDomain "block.timestamp" m.timestamp }
  let guarantees ← decodeList "collection_guarantees" CollectionGuarantee.toDomain m.guarantees
  let seals ← decodeList "block_seals" BlockSeal.toDomain m.seals
  return { header, guarantees, seals }

instance : Carries Block FlowAccess.Block where
  write _ d := .ok (.ofDomain d)
  read _ := toDomain

end Block

/-! ## Collections -/

structure Collection where
  id : Bytes := []
  transactionIds : List Bytes := []
  deriving DecidableEq, Inhabited

namespace Collection

instance : Message Collection where
  records m := Record.ofBytes 1 m.id ++ Record.ofByteStrings 2 m.transactionIds
  ofFields? fs := return { id := ← fs.bytes? 1, transactionIds := ← fs.byteStrings? 2 }

def ofDomain (c : FlowAccess.Collection) : Collection :=
  { id := c.id.bytes, transactionIds := c.transactionIds.map (·.bytes) }

/-- The identifier of a collection is derived from its transactions, so the one on the wire does
not matter. -/
def toDomain (m : Collection) : Except DecodingError FlowAccess.Collection :=
  return {
    transactionIds :=
      ← decodeList "transaction_ids" (Scalar.identifier "transaction_ids") m.transactionIds }

instance : Carries Collection FlowAccess.Collection where
  write _ d := .ok (.ofDomain d)
  read _ := toDomain

end Collection
end FlowAccess.Grpc
