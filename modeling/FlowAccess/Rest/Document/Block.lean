import FlowAccess.Block
import FlowAccess.Codec
import FlowAccess.Json.Document
import FlowAccess.Scalar

/-!
# Blocks and collections as documents

The documents for blocks and what they refer to, and how domain values are turned into them and
back. Numbers, identifiers and times are text in all documents.
-/

namespace FlowAccess.Rest

open Json Text

def numeral (n : Nat) : String := Numeral.ofNat n

/-! ## Blocks -/

structure BlockHeader where
  id : String := ""
  parentId : String := ""
  height : String := ""
  timestamp : String := ""
  deriving DecidableEq, Inhabited

namespace BlockHeader

instance : Document BlockHeader where
  toJson d :=
    .ofMembers [("id", .string d.id), ("parent_id", .string d.parentId),
      ("height", .string d.height), ("timestamp", .string d.timestamp)]
  ofNode? node := do
    let fs ← Fields.ofNode? ["id", "parent_id", "height", "timestamp"] node
    return {
      id := ← fs.string? "id"
      parentId := ← fs.string? "parent_id"
      height := ← fs.string? "height"
      timestamp := ← fs.string? "timestamp" }

def ofDomain (h : FlowAccess.BlockHeader) : BlockHeader :=
  { id := h.id.hex, parentId := h.parentId.hex, height := numeral h.height.toNat
    timestamp := h.timestamp.format }

def toDomain (d : BlockHeader) : Except DecodingError FlowAccess.BlockHeader :=
  return {
    id := ← Scalar.hexIdentifier "header.id" d.id
    parentId := ← Scalar.hexIdentifier "header.parent_id" d.parentId
    height := ← Scalar.uint64 "header.height" d.height
    timestamp := ← Scalar.timestamp "header.timestamp" d.timestamp }

instance : Carries BlockHeader FlowAccess.BlockHeader where
  write _ d := .ok (.ofDomain d)
  read _ := toDomain

end BlockHeader

structure CollectionGuarantee where
  collectionId : String := ""
  deriving DecidableEq, Inhabited

namespace CollectionGuarantee

instance : Document CollectionGuarantee where
  toJson d := .ofMembers [("collection_id", .string d.collectionId)]
  ofNode? node := do
    let fs ← Fields.ofNode? ["collection_id"] node
    return { collectionId := ← fs.string? "collection_id" }

def ofDomain (g : FlowAccess.CollectionGuarantee) : CollectionGuarantee :=
  { collectionId := g.collectionId.hex }

def toDomain (d : CollectionGuarantee) : Except DecodingError FlowAccess.CollectionGuarantee :=
  return { collectionId := ← Scalar.hexIdentifier "collection_id" d.collectionId }

instance : Carries CollectionGuarantee FlowAccess.CollectionGuarantee where
  write _ d := .ok (.ofDomain d)
  read _ := toDomain

end CollectionGuarantee

structure BlockSeal where
  blockId : String := ""
  resultId : String := ""
  deriving DecidableEq, Inhabited

namespace BlockSeal

instance : Document BlockSeal where
  toJson d := .ofMembers [("block_id", .string d.blockId), ("result_id", .string d.resultId)]
  ofNode? node := do
    let fs ← Fields.ofNode? ["block_id", "result_id"] node
    return { blockId := ← fs.string? "block_id", resultId := ← fs.string? "result_id" }

def ofDomain (s : FlowAccess.BlockSeal) : BlockSeal :=
  { blockId := s.blockId.hex, resultId := s.executionReceiptId.hex }

def toDomain (d : BlockSeal) : Except DecodingError FlowAccess.BlockSeal :=
  return {
    blockId := ← Scalar.hexIdentifier "block_seal.block_id" d.blockId
    executionReceiptId := ← Scalar.hexIdentifier "block_seal.result_id" d.resultId }

instance : Carries BlockSeal FlowAccess.BlockSeal where
  write _ d := .ok (.ofDomain d)
  read _ := toDomain

end BlockSeal

structure BlockPayload where
  guarantees : List CollectionGuarantee := []
  seals : List BlockSeal := []
  deriving DecidableEq, Inhabited

instance : Document BlockPayload where
  toJson d :=
    .ofMembers [("collection_guarantees", Document.toJson d.guarantees),
      ("block_seals", Document.toJson d.seals)]
  ofNode? node := do
    let fs ← Fields.ofNode? ["collection_guarantees", "block_seals"] node
    return {
      guarantees := ← fs.withDefault? "collection_guarantees" [] Document.ofNode?
      seals := ← fs.withDefault? "block_seals" [] Document.ofNode? }

/-- A block as a document. Nodes leave the payload out unless they are asked for it. -/
structure Block where
  header : BlockHeader
  payload : Option BlockPayload := none
  deriving DecidableEq, Inhabited

namespace Block

instance : Document Block where
  toJson d :=
    .ofMembers <| ("header", Document.toJson d.header) ::
      (d.payload.toList.map fun p => ("payload", Document.toJson p))
  ofNode? node := do
    let fs ← Fields.ofNode? ["header", "payload"] node
    return {
      header := ← fs.required? "header" Document.ofNode?
      payload := ← fs.optional? "payload" Document.ofNode? }

def ofDomain (b : FlowAccess.Block) : Block :=
  { header := .ofDomain b.header
    payload := some { guarantees := b.guarantees.map .ofDomain, seals := b.seals.map .ofDomain } }

/-- A payload that is left out has no guarantees and no seals. -/
def toDomain (d : Block) : Except DecodingError FlowAccess.Block := do
  let payload := d.payload.getD {}
  let guarantees ←
    decodeList "collection_guarantees" CollectionGuarantee.toDomain payload.guarantees
  let seals ← decodeList "block_seals" BlockSeal.toDomain payload.seals
  return { header := ← d.header.toDomain, guarantees, seals }

instance : Carries Block FlowAccess.Block where
  write _ d := .ok (.ofDomain d)
  read _ := toDomain

end Block

/-! ## Collections -/

structure CollectionTransaction where
  id : String := ""
  deriving DecidableEq, Inhabited

instance : Document CollectionTransaction where
  toJson d := .ofMembers [("id", .string d.id)]
  ofNode? node := do
    let fs ← Fields.ofNode? ["id"] node
    return { id := ← fs.string? "id" }

structure Collection where
  id : String := ""
  transactions : List CollectionTransaction := []
  deriving DecidableEq, Inhabited

namespace Collection

instance : Document Collection where
  toJson d :=
    .ofMembers [("id", .string d.id), ("transactions", Document.toJson d.transactions)]
  ofNode? node := do
    let fs ← Fields.ofNode? ["id", "transactions"] node
    return {
      id := ← fs.string? "id"
      transactions := ← fs.withDefault? "transactions" [] Document.ofNode? }

def ofDomain (c : FlowAccess.Collection) : Collection :=
  { id := c.id.hex, transactions := c.transactionIds.map fun id => { id := id.hex } }

/-- The identifier of a collection is derived from its transactions, so the one on the wire does
not matter. -/
def toDomain (d : Collection) : Except DecodingError FlowAccess.Collection :=
  return {
    transactionIds :=
      ← decodeList "transactions" (fun t => Scalar.hexIdentifier "transactions.id" t.id)
        d.transactions }

instance : Carries Collection FlowAccess.Collection where
  write _ d := .ok (.ofDomain d)
  read _ := toDomain

end Collection
end FlowAccess.Rest
