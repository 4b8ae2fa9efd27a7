import FlowAccess.Octets
import FlowAccess.Sha256

/-!
# Content identifiers

Blocks, collections, transactions and results are named by thirty-two bytes.
-/

namespace FlowAccess

/-- The identifier of a block, a collection, a transaction or a result. -/
abbrev Identifier := Octets 32

namespace Identifier

/-- The identifier that stands for none. -/
def empty : Identifier := Octets.zero 32

def isEmpty (id : Identifier) : Bool := id = empty

/-- An identifier in words. -/
def describe (id : Identifier) : String := "Identifier(" ++ id.hex ++ ")"

/-- The SHA-256 hash of a byte string. -/
def hashOf (bytes : Bytes) : Identifier :=
  ⟨Sha256.hash bytes, Sha256.State.length_bytes _⟩

end Identifier
end FlowAccess
