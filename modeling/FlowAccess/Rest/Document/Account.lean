import FlowAccess.Account
import FlowAccess.Rest.Document.Block

/-!
# Accounts as documents
-/

namespace FlowAccess.Rest

open Json Text

structure AccountKey where
  index : String := ""
  publicKey : String := ""
  signingAlgorithm : String := ""
  hashingAlgorithm : String := ""
  sequenceNumber : String := ""
  weight : String := ""
  revoked : Bool := false
  deriving DecidableEq, Inhabited

namespace AccountKey

instance : Document AccountKey where
  toJson d :=
    .ofMembers [("index", .string d.index), ("public_key", .string d.publicKey),
      ("signing_algorithm", .string d.signingAlgorithm),
      ("hashing_algorithm", .string d.hashingAlgorithm),
      ("sequence_number", .string d.sequenceNumber), ("weight", .string d.weight),
      ("revoked", .bool d.revoked)]
  ofNode? node := do
    let fs ← Fields.ofNode?
      ["index", "public_key", "signing_algorithm", "hashing_algorithm", "sequence_number",
        "weight", "revoked"] node
    return {
      index := ← fs.string? "index"
      publicKey := ← fs.string? "public_key"
      signingAlgorithm := ← fs.string? "signing_algorithm"
      hashingAlgorithm := ← fs.string? "hashing_algorithm"
      sequenceNumber := ← fs.string? "sequence_number"
      weight := ← fs.string? "weight"
      revoked := ← fs.required? "revoked" Node.bool? }

def ofDomain (k : FlowAccess.AccountKey) : AccountKey :=
  { index := numeral k.index.toNat, publicKey := "0x" ++ Hex.encode k.publicKey
    signingAlgorithm := k.signatureAlgorithm.name, hashingAlgorithm := k.hashAlgorithm.name
    sequenceNumber := numeral k.sequenceNumber.toNat, weight := numeral k.weight.toNat
    revoked := k.revoked }

def toDomain (d : AccountKey) : Except DecodingError FlowAccess.AccountKey := do
  let index ← Scalar.uint32 "key.index" d.index
  let publicKey ← Scalar.hexBytes "key.public_key" d.publicKey
  let some signatureAlgorithm := SignatureAlgorithm.ofName? d.signingAlgorithm
    | .error (.invalidEnum "key.signing_algorithm" d.signingAlgorithm)
  let some hashAlgorithm := HashAlgorithm.ofName? d.hashingAlgorithm
    | .error (.invalidEnum "key.hashing_algorithm" d.hashingAlgorithm)
  return {
    index
    publicKey
    signatureAlgorithm
    hashAlgorithm
    weight := ← Scalar.uint32 "key.weight" d.weight
    sequenceNumber := ← Scalar.uint64 "key.sequence_number" d.sequenceNumber
    revoked := d.revoked }

instance : Carries AccountKey FlowAccess.AccountKey where
  write _ d := .ok (.ofDomain d)
  read _ := toDomain

end AccountKey

structure Account where
  address : String := ""
  balance : String := ""
  keys : List AccountKey := []
  contracts : Contracts String := default
  deriving DecidableEq, Inhabited

namespace Account

instance : Document Account where
  toJson d :=
    .ofMembers [("address", .string d.address), ("balance", .string d.balance),
      ("keys", Document.toJson d.keys),
      ("contracts", .ofMembers (d.contracts.map Json.string).entries)]
  ofNode? node := do
    let fs ← Fields.ofNode? ["address", "balance", "keys", "contracts"] node
    return {
      address := ← fs.string? "address"
      balance := ← fs.string? "balance"
      keys := ← fs.withDefault? "keys" [] Document.ofNode?
      contracts := .ofList (← fs.withDefault? "contracts" [] (Node.entries? Node.string?)) }

def ofDomain (a : FlowAccess.Account) : Account :=
  { address := a.address.hex, balance := numeral a.balance.toNat
    keys := a.keys.map .ofDomain
    contracts := a.contracts.map Base64.encode }

/-- Reads the code of a contract; an error carries the contract's name. -/
def contract (entry : String × String) : Except DecodingError (String × Bytes) := do
  let code ← (Place.entry "contracts" entry.1).mark (Scalar.base64Bytes "contracts" entry.2)
  return (entry.1, code)

def toDomain (d : Account) : Except DecodingError FlowAccess.Account := do
  let contracts ← d.contracts.entries.mapM contract
  return {
    address := ← Scalar.hexAddress "address" d.address
    balance := ← Scalar.uint64 "balance" d.balance
    keys := ← decodeList "keys" AccountKey.toDomain d.keys
    contracts := .ofList contracts }

instance : Carries Account FlowAccess.Account where
  write _ d := .ok (.ofDomain d)
  read _ := toDomain

end Account
end FlowAccess.Rest
