import FlowAccess.Account
import FlowAccess.Codec
import FlowAccess.Protobuf.Message
import FlowAccess.Scalar

/-!
# Accounts as messages
-/

namespace FlowAccess.Grpc

open Protobuf

structure AccountKey where
  index : UInt32 := 0
  publicKey : Bytes := []
  signAlgo : UInt32 := 0
  hashAlgo : UInt32 := 0
  weight : UInt32 := 0
  sequenceNumber : UInt32 := 0
  revoked : Bool := false
  deriving DecidableEq, Inhabited

namespace AccountKey

instance : Message AccountKey where
  records m :=
    Record.ofNat 1 m.index.toNat ++ Record.ofBytes 2 m.publicKey ++
      Record.ofNat 3 m.signAlgo.toNat ++ Record.ofNat 4 m.hashAlgo.toNat ++
      Record.ofNat 5 m.weight.toNat ++ Record.ofNat 6 m.sequenceNumber.toNat ++
      Record.ofBool 7 m.revoked
  ofFields? fs :=
    return {
      index := ← fs.uint32? 1
      publicKey := ← fs.bytes? 2
      signAlgo := ← fs.uint32? 3
      hashAlgo := ← fs.uint32? 4
      weight := ← fs.uint32? 5
      sequenceNumber := ← fs.uint32? 6
      revoked := ← fs.bool? 7 }

/-- Sequence numbers have 32 bits in this message. -/
def ofDomain (k : FlowAccess.AccountKey) : Except EncodingError AccountKey :=
  return {
    index := k.index
    publicKey := k.publicKey
    signAlgo := .ofNat k.signatureAlgorithm.code
    hashAlgo := .ofNat k.hashAlgorithm.code
    weight := k.weight
    sequenceNumber := ← narrow "account_key.sequence_number" k.sequenceNumber
    revoked := k.revoked }

def toDomain (m : AccountKey) : Except DecodingError FlowAccess.AccountKey := do
  let some signatureAlgorithm := SignatureAlgorithm.ofCode? m.signAlgo.toNat
    | .error (.invalidEnum "sign_algo" (Text.Numeral.ofNat m.signAlgo.toNat))
  let some hashAlgorithm := HashAlgorithm.ofCode? m.hashAlgo.toNat
    | .error (.invalidEnum "hash_algo" (Text.Numeral.ofNat m.hashAlgo.toNat))
  return {
    index := m.index
    publicKey := m.publicKey
    signatureAlgorithm
    hashAlgorithm
    weight := m.weight
    sequenceNumber := m.sequenceNumber.toUInt64
    revoked := m.revoked }

instance : Carries AccountKey FlowAccess.AccountKey where
  write _ := ofDomain
  read _ := toDomain

end AccountKey

/-- The name and the code of a contract. -/
structure ContractEntry where
  name : String := ""
  code : Bytes := []
  deriving DecidableEq, Inhabited

instance : Message ContractEntry where
  records m := Record.ofString 1 m.name ++ Record.ofBytes 2 m.code
  ofFields? fs := return { name := ← fs.string? 1, code := ← fs.bytes? 2 }

structure Account where
  address : Bytes := []
  balance : UInt64 := 0
  code : Bytes := []
  keys : List AccountKey := []
  contracts : List ContractEntry := []
  deriving DecidableEq, Inhabited

namespace Account

/-- The records in front of those of the contracts. -/
def ownRecords (m : Account) : List Record :=
  Record.ofBytes 1 m.address ++ Record.ofNat 2 m.balance.toNat ++ Record.ofBytes 3 m.code ++
    Record.ofMessages 4 m.keys

instance : Message Account where
  maps := [5]
  records m := m.ownRecords ++ Record.ofMessages 5 m.contracts
  ofFields? fs :=
    return {
      address := ← fs.bytes? 1
      balance := ← fs.uint64? 2
      code := ← fs.bytes? 3
      keys := ← fs.messages? 4
      contracts := ← fs.messages? 5 }

def ofDomain (a : FlowAccess.Account) : Except EncodingError Account :=
  return {
    address := a.address.bytes
    balance := a.balance
    keys := ← a.keys.mapM AccountKey.ofDomain
    contracts := a.contracts.entries.map fun (name, code) => { name, code } }

def toDomain (m : Account) : Except DecodingError FlowAccess.Account :=
  return {
    address := ← Scalar.address "account.address" m.address
    balance := m.balance
    keys := ← decodeList "keys" AccountKey.toDomain m.keys
    contracts := .ofList (m.contracts.map fun e => (e.name, e.code)) }

instance : Carries Account FlowAccess.Account where
  write _ := ofDomain
  read _ := toDomain

end Account
end FlowAccess.Grpc
