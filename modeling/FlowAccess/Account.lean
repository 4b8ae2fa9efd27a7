import FlowAccess.Address
import FlowAccess.Entries
import FlowAccess.Text.Names

/-!
# Accounts

An account has keys and contracts. Contracts are held in ascending order of their names, each name
once.
-/

namespace FlowAccess

inductive SignatureAlgorithm where
  | unknown
  | blsBls12381
  | ecdsaP256
  | ecdsaSecp256k1
  deriving DecidableEq, Inhabited

namespace SignatureAlgorithm

def all : List SignatureAlgorithm := [.unknown, .blsBls12381, .ecdsaP256, .ecdsaSecp256k1]

def name : SignatureAlgorithm → String
  | .unknown => "UNKNOWN"
  | .blsBls12381 => "BLS_BLS12_381"
  | .ecdsaP256 => "ECDSA_P256"
  | .ecdsaSecp256k1 => "ECDSA_secp256k1"

/-- The algorithm of exactly this name. -/
def ofExactName? (name : String) : Option SignatureAlgorithm := all.find? (·.name = name)

/-- The algorithm of a name in any case. -/
def ofName? (name : String) : Option SignatureAlgorithm :=
  all.find? fun a => Text.sameName a.name name

def code : SignatureAlgorithm → Nat
  | .unknown => 0
  | .blsBls12381 => 1
  | .ecdsaP256 => 2
  | .ecdsaSecp256k1 => 3

def ofCode? (code : Nat) : Option SignatureAlgorithm := all.find? (·.code = code)

end SignatureAlgorithm

inductive HashAlgorithm where
  | unknown
  | sha2Of256
  | sha2Of384
  | sha3Of256
  | sha3Of384
  | keccak256
  | kmac128
  deriving DecidableEq, Inhabited

namespace HashAlgorithm

def all : List HashAlgorithm :=
  [.unknown, .sha2Of256, .sha2Of384, .sha3Of256, .sha3Of384, .keccak256, .kmac128]

def name : HashAlgorithm → String
  | .unknown => "UNKNOWN"
  | .sha2Of256 => "SHA2_256"
  | .sha2Of384 => "SHA2_384"
  | .sha3Of256 => "SHA3_256"
  | .sha3Of384 => "SHA3_384"
  | .keccak256 => "KECCAK_256"
  | .kmac128 => "KMAC128"

/-- The algorithm of exactly this name. -/
def ofExactName? (name : String) : Option HashAlgorithm := all.find? (·.name = name)

/-- The algorithm of a name in any case. -/
def ofName? (name : String) : Option HashAlgorithm :=
  all.find? fun a => Text.sameName a.name name

def code : HashAlgorithm → Nat
  | .unknown => 0
  | .sha2Of256 => 1
  | .sha2Of384 => 2
  | .sha3Of256 => 3
  | .sha3Of384 => 4
  | .keccak256 => 5
  | .kmac128 => 6

def ofCode? (code : Nat) : Option HashAlgorithm := all.find? (·.code = code)

end HashAlgorithm

structure AccountKey where
  index : UInt32
  publicKey : Bytes
  signatureAlgorithm : SignatureAlgorithm
  hashAlgorithm : HashAlgorithm
  weight : UInt32
  sequenceNumber : UInt64
  revoked : Bool
  deriving DecidableEq, Inhabited

/-- Something for each contract, by the contract's name. -/
structure Contracts (α : Type) where
  entries : List (String × α)
  ordered : entries.Pairwise (·.1 < ·.1)
  deriving DecidableEq

namespace Contracts

variable {α β : Type}

instance : Inhabited (Contracts α) := ⟨⟨[], .nil⟩⟩

instance : CoeOut (Contracts α) (List (String × α)) := ⟨entries⟩

/-- Orders contracts; of several of one name the last counts. -/
def ofList (entries : List (String × α)) : Contracts α :=
  ⟨Entries.ofList entries, Entries.pairwise_ofList entries⟩

def map (f : α → β) (cs : Contracts α) : Contracts β :=
  ⟨cs.entries.map fun (name, a) => (name, f a), cs.ordered.map _ fun _ _ h => h⟩

end Contracts

structure Account where
  address : Address
  balance : UInt64
  keys : List AccountKey
  contracts : Contracts Bytes
  deriving DecidableEq, Inhabited

end FlowAccess
