import FlowAccess.Rest.Document.Event
import FlowAccess.Transaction

/-!
# Transactions as documents
-/

namespace FlowAccess.Rest

open Json Text

structure ProposalKey where
  address : String := ""
  keyIndex : String := ""
  sequenceNumber : String := ""
  deriving DecidableEq, Inhabited

namespace ProposalKey

instance : Document ProposalKey where
  toJson d :=
    .ofMembers [("address", .string d.address), ("key_index", .string d.keyIndex),
      ("sequence_number", .string d.sequenceNumber)]
  ofNode? node := do
    let fs ← Fields.ofNode? ["address", "key_index", "sequence_number"] node
    return {
      address := ← fs.string? "address"
      keyIndex := ← fs.string? "key_index"
      sequenceNumber := ← fs.string? "sequence_number" }

def ofDomain (k : FlowAccess.ProposalKey) : ProposalKey :=
  { address := k.address.hex, keyIndex := numeral k.keyIndex.toNat
    sequenceNumber := numeral k.sequenceNumber.toNat }

def toDomain (d : ProposalKey) : Except DecodingError FlowAccess.ProposalKey :=
  return {
    address := ← Scalar.hexAddress "proposal_key.address" d.address
    keyIndex := ← Scalar.uint32 "proposal_key.key_index" d.keyIndex
    sequenceNumber := ← Scalar.uint64 "proposal_key.sequence_number" d.sequenceNumber }

instance : Carries ProposalKey FlowAccess.ProposalKey where
  write _ d := .ok (.ofDomain d)
  read _ := toDomain

end ProposalKey

structure Signature where
  address : String := ""
  keyIndex : String := ""
  signature : String := ""
  deriving DecidableEq, Inhabited

namespace Signature

instance : Document Signature where
  toJson d :=
    .ofMembers [("address", .string d.address), ("key_index", .string d.keyIndex),
      ("signature", .string d.signature)]
  ofNode? node := do
    let fs ← Fields.ofNode? ["address", "key_index", "signature"] node
    return {
      address := ← fs.string? "address"
      keyIndex := ← fs.string? "key_index"
      signature := ← fs.string? "signature" }

def ofDomain (s : FlowAccess.Signature) : Signature :=
  { address := s.address.hex, keyIndex := numeral s.keyIndex.toNat
    signature := Base64.encode s.signature }

def toDomain (d : Signature) : Except DecodingError FlowAccess.Signature :=
  return {
    address := ← Scalar.hexAddress "signature.address" d.address
    keyIndex := ← Scalar.uint32 "signature.key_index" d.keyIndex
    signature := ← Scalar.base64Bytes "signature.signature" d.signature }

instance : Carries Signature FlowAccess.Signature where
  write _ d := .ok (.ofDomain d)
  read _ := toDomain

end Signature

structure Transaction where
  /-- The identifier, which only nodes write. -/
  id : Option String := none
  script : String := ""
  arguments : List String := []
  referenceBlockId : String := ""
  gasLimit : String := ""
  payer : String := ""
  proposalKey : Option ProposalKey := none
  authorizers : List String := []
  payloadSignatures : List Signature := []
  envelopeSignatures : List Signature := []
  deriving DecidableEq, Inhabited

namespace Transaction

instance : Document Transaction where
  toJson d :=
    .ofMembers <| (d.id.toList.map fun id => ("id", .string id)) ++
      [("script", .string d.script), ("arguments", Document.toJson d.arguments),
        ("reference_block_id", .string d.referenceBlockId), ("gas_limit", .string d.gasLimit),
        ("payer", .string d.payer),
        ("proposal_key", (d.proposalKey.map Document.toJson).getD .null),
        ("authorizers", Document.toJson d.authorizers),
        ("payload_signatures", Document.toJson d.payloadSignatures),
        ("envelope_signatures", Document.toJson d.envelopeSignatures)]
  ofNode? node := do
    let fs ← Fields.ofNode?
      ["id", "script", "arguments", "reference_block_id", "gas_limit", "payer", "proposal_key",
        "authorizers", "payload_signatures", "envelope_signatures"] node
    return {
      id := ← fs.optional? "id" Node.string?
      script := ← fs.string? "script"
      arguments := ← fs.withDefault? "arguments" [] Document.ofNode?
      referenceBlockId := ← fs.string? "reference_block_id"
      gasLimit := ← fs.string? "gas_limit"
      payer := ← fs.string? "payer"
      proposalKey := ← fs.nullable? "proposal_key" Document.ofNode?
      authorizers := ← fs.withDefault? "authorizers" [] Document.ofNode?
      payloadSignatures := ← fs.withDefault? "payload_signatures" [] Document.ofNode?
      envelopeSignatures := ← fs.withDefault? "envelope_signatures" [] Document.ofNode? }

def ofDomain (t : FlowAccess.Transaction) : Transaction :=
  { script := Base64.encode t.script, arguments := t.arguments.map Base64.encode
    referenceBlockId := t.referenceBlockId.hex, gasLimit := numeral t.gasLimit.toNat
    payer := t.payer.hex, proposalKey := some (.ofDomain t.proposalKey)
    authorizers := t.authorizers.map (·.hex)
    payloadSignatures := t.payloadSignatures.map .ofDomain
    envelopeSignatures := t.envelopeSignatures.map .ofDomain }

/-- The proposal key is the one part that must be present. -/
def toDomain (d : Transaction) : Except DecodingError FlowAccess.Transaction := do
  let some proposalKey := d.proposalKey | .error (.missingField "proposal_key")
  let proposalKey ← proposalKey.toDomain
  let arguments ← decodeList "arguments" (Scalar.base64Bytes "arguments") d.arguments
  let authorizers ← decodeList "authorizers" (Scalar.hexAddress "authorizers") d.authorizers
  return {
    script := ← Scalar.base64Bytes "script" d.script
    arguments
    referenceBlockId := ← Scalar.hexIdentifierOrEmpty "reference_block_id" d.referenceBlockId
    gasLimit := ← Scalar.uint64 "gas_limit" d.gasLimit
    proposalKey
    payer := ← Scalar.hexAddress "payer" d.payer
    authorizers
    payloadSignatures := ← decodeList "payload_signatures" Signature.toDomain d.payloadSignatures
    envelopeSignatures :=
      ← decodeList "envelope_signatures" Signature.toDomain d.envelopeSignatures }

instance : Carries Transaction FlowAccess.Transaction where
  write _ d := .ok (.ofDomain d)
  read _ := toDomain

end Transaction

structure TransactionResult where
  blockId : String := ""
  collectionId : String := ""
  execution : Option String := none
  status : String := ""
  statusCode : UInt32 := 0
  errorMessage : String := ""
  computationUsed : String := ""
  events : List Event := []
  deriving DecidableEq, Inhabited

namespace TransactionResult

instance : Document TransactionResult where
  toJson d :=
    .ofMembers <| [("block_id", .string d.blockId), ("collection_id", .string d.collectionId),
        ("status", .string d.status), ("status_code", .number (.integer d.statusCode.toNat)),
        ("error_message", .string d.errorMessage),
        ("computation_used", .string d.computationUsed),
        ("events", Document.toJson d.events)] ++
      (d.execution.toList.map fun e => ("execution", .string e))
  ofNode? node := do
    let fs ← Fields.ofNode?
      ["block_id", "collection_id", "execution", "status", "status_code", "error_message",
        "computation_used", "events"] node
    return {
      blockId := ← fs.withDefault? "block_id" "" Node.string?
      collectionId := ← fs.withDefault? "collection_id" "" Node.string?
      execution := ← fs.optional? "execution" Node.string?
      status := ← fs.string? "status"
      statusCode := .ofNat (← fs.withDefault? "status_code" 0 (Node.natBelow? UInt32.size))
      errorMessage := ← fs.withDefault? "error_message" "" Node.string?
      computationUsed := ← fs.withDefault? "computation_used" "" Node.string?
      events := ← fs.withDefault? "events" [] Document.ofNode? }

/-- How the execution of a transaction went, in one word. -/
def executionWord (r : FlowAccess.TransactionResult) : String :=
  if r.failed then "Failure"
  else
    match r.status with
    | .executed | .sealed => "Success"
    | _ => "Pending"

def ofDomain (options : CodecOptions) (r : FlowAccess.TransactionResult) :
    Except EncodingError TransactionResult :=
  return {
    blockId := r.blockId.hex
    collectionId := r.collectionId.hex
    execution := some (executionWord r)
    status := r.status.name
    statusCode := r.statusCode
    errorMessage := r.error.getD ""
    computationUsed := numeral r.computationUsed.toNat
    events := ← r.events.mapM (Event.ofDomain options) }

/-- An empty error message stands for success, and an empty number for zero. -/
def toDomain (options : CodecOptions) (d : TransactionResult) :
    Except DecodingError FlowAccess.TransactionResult := do
  let computationUsed ←
    if d.computationUsed = "" then pure 0 else Scalar.uint64 "computation_used" d.computationUsed
  let some status := TransactionStatus.ofName? d.status
    | .error (.invalidEnum "status" d.status)
  return {
    status
    statusCode := d.statusCode
    error := if d.errorMessage = "" then none else some d.errorMessage
    events := ← decodeList "events" (Event.toDomain options) d.events
    blockId := ← Scalar.hexIdentifierOrEmpty "block_id" d.blockId
    collectionId := ← Scalar.hexIdentifierOrEmpty "collection_id" d.collectionId
    computationUsed }

instance : Carries TransactionResult FlowAccess.TransactionResult where
  write := ofDomain
  read := toDomain

end TransactionResult
end FlowAccess.Rest
