import FlowAccess.Identifier
import FlowAccess.Timestamp

/-!
# Blocks and collections

A block refers to the collections that it includes and to the results of earlier blocks that it
seals. A collection is an ordered list of transactions, and its identifier is derived from them.
-/

namespace FlowAccess

structure BlockHeader where
  id : Identifier
  parentId : Identifier
  height : UInt64
  timestamp : Timestamp
  deriving DecidableEq, Inhabited

/-- A collection that a block includes. -/
structure CollectionGuarantee where
  collectionId : Identifier
  deriving DecidableEq, Inhabited

/-- The sealing of an earlier block. -/
structure BlockSeal where
  blockId : Identifier
  executionReceiptId : Identifier
  deriving DecidableEq, Inhabited

structure Block where
  header : BlockHeader
  guarantees : List CollectionGuarantee
  seals : List BlockSeal
  deriving DecidableEq, Inhabited

structure Collection where
  transactionIds : List Identifier
  deriving DecidableEq, Inhabited

namespace Collection

/-- What a collection's identifier is the hash of. -/
def hashedBytes (c : Collection) : Bytes := c.transactionIds.flatMap (·.bytes)

def id (c : Collection) : Identifier := Identifier.hashOf c.hashedBytes

end Collection
end FlowAccess
