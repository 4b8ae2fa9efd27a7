import FlowAccess.Address
import FlowAccess.Event

/-!
# Transactions and their results

The identifier of a transaction is the hash of all of its fields, each of them with its length in
front where that is not fixed.
-/

namespace FlowAccess

/-- The key whose sequence number a transaction uses up. -/
structure ProposalKey where
  address : Address
  keyIndex : UInt32
  sequenceNumber : UInt64
  deriving DecidableEq, Inhabited

structure Signature where
  address : Address
  keyIndex : UInt32
  signature : Bytes
  deriving DecidableEq, Inhabited

structure Transaction where
  script : Bytes
  arguments : List Bytes
  referenceBlockId : Identifier
  gasLimit : UInt64
  proposalKey : ProposalKey
  payer : Address
  authorizers : List Address
  payloadSignatures : List Signature
  envelopeSignatures : List Signature
  deriving DecidableEq, Inhabited

namespace Transaction

/-- A length in eight bytes. -/
def lengthBytes (n : Nat) : Bytes := Bytes.ofNat 8 n

/-- A byte string behind its length. -/
def sizedBytes (bytes : Bytes) : Bytes := lengthBytes bytes.length ++ bytes

/-- A list behind its length. -/
def sizedList {α : Type} (f : α → Bytes) (items : List α) : Bytes :=
  lengthBytes items.length ++ items.flatMap f

def signatureBytes (s : Signature) : Bytes :=
  s.address.bytes ++ Bytes.ofNat 4 s.keyIndex.toNat ++ sizedBytes s.signature

/-- What a transaction's identifier is the hash of. -/
def canonicalBytes (t : Transaction) : Bytes :=
  sizedBytes t.script ++ sizedList sizedBytes t.arguments ++ t.referenceBlockId.bytes ++
    Bytes.ofNat 8 t.gasLimit.toNat ++ t.proposalKey.address.bytes ++
    Bytes.ofNat 4 t.proposalKey.keyIndex.toNat ++ Bytes.ofNat 8 t.proposalKey.sequenceNumber.toNat ++
    t.payer.bytes ++ sizedList (·.bytes) t.authorizers ++
    sizedList signatureBytes t.payloadSignatures ++ sizedList signatureBytes t.envelopeSignatures

def id (t : Transaction) : Identifier := Identifier.hashOf t.canonicalBytes

end Transaction

/-- How far a transaction has got. -/
inductive TransactionStatus where
  | unknown
  | pending
  | finalized
  | executed
  | sealed
  | expired
  deriving DecidableEq, Inhabited

namespace TransactionStatus

def all : List TransactionStatus := [.unknown, .pending, .finalized, .executed, .sealed, .expired]

def name : TransactionStatus → String
  | .unknown => "Unknown"
  | .pending => "Pending"
  | .finalized => "Finalized"
  | .executed => "Executed"
  | .sealed => "Sealed"
  | .expired => "Expired"

/-- The status of a name in any case. -/
def ofName? (name : String) : Option TransactionStatus :=
  all.find? fun s => Text.sameName s.name name

def code : TransactionStatus → Nat
  | .unknown => 0
  | .pending => 1
  | .finalized => 2
  | .executed => 3
  | .sealed => 4
  | .expired => 5

def ofCode? (code : Int) : Option TransactionStatus := all.find? fun s => (s.code : Int) = code

/-- Whether the status will not change any more. -/
def isFinal : TransactionStatus → Bool
  | .sealed | .expired => true
  | _ => false

end TransactionStatus

structure TransactionResult where
  status : TransactionStatus
  statusCode : UInt32
  /-- Why the transaction failed, if it did. -/
  error : Option String
  events : List Event
  blockId : Identifier
  collectionId : Identifier
  computationUsed : UInt64
  deriving DecidableEq, Inhabited

def TransactionResult.failed (r : TransactionResult) : Bool := r.error.isSome

end FlowAccess
