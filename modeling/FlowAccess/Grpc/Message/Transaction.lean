import FlowAccess.Grpc.Message.Event
import FlowAccess.Transaction

/-!
# Transactions as messages
-/

namespace FlowAccess.Grpc

open Protobuf

structure ProposalKey where
  address : Bytes := []
  keyId : UInt32 := 0
  sequenceNumber : UInt64 := 0
  deriving DecidableEq, Inhabited

namespace ProposalKey

instance : Message ProposalKey where
  records m :=
    Record.ofBytes 1 m.address ++ Record.ofNat 2 m.keyId.toNat ++
      Record.ofNat 3 m.sequenceNumber.toNat
  ofFields? fs :=
    return {
      address := ← fs.bytes? 1
      keyId := ← fs.uint32? 2
      sequenceNumber := ← fs.uint64? 3 }

def ofDomain (k : FlowAccess.ProposalKey) : ProposalKey :=
  { address := k.address.bytes, keyId := k.keyIndex, sequenceNumber := k.sequenceNumber }

def toDomain (m : ProposalKey) : Except DecodingError FlowAccess.ProposalKey :=
  return {
    address := ← Scalar.address "proposal_key.address" m.address
    keyIndex := m.keyId
    sequenceNumber := m.sequenceNumber }

instance : Carries ProposalKey FlowAccess.ProposalKey where
  write _ d := .ok (.ofDomain d)
  read _ := toDomain

end ProposalKey

structure Signature where
  address : Bytes := []
  keyId : UInt32 := 0
  signature : Bytes := []
  deriving DecidableEq, Inhabited

namespace Signature

instance : Message Signature where
  records m :=
    Record.ofBytes 1 m.address ++ Record.ofNat 2 m.keyId.toNat ++ Record.ofBytes 3 m.signature
  ofFields? fs :=
    return { address := ← fs.bytes? 1, keyId := ← fs.uint32? 2, signature := ← fs.bytes? 3 }

def ofDomain (s : FlowAccess.Signature) : Signature :=
  { address := s.address.bytes, keyId := s.keyIndex, signature := s.signature }

def toDomain (m : Signature) : Except DecodingError FlowAccess.Signature :=
  return {
    address := ← Scalar.address "signature.address" m.address
    keyIndex := m.keyId
    signature := m.signature }

instance : Carries Signature FlowAccess.Signature where
  write _ d := .ok (.ofDomain d)
  read _ := toDomain

end Signature

structure Transaction where
  script : Bytes := []
  arguments : List Bytes := []
  referenceBlockId : Bytes := []
  gasLimit : UInt64 := 0
  proposalKey : Option ProposalKey := none
  payer : Bytes := []
  authorizers : List Bytes := []
  payloadSignatures : List Signature := []
  envelopeSignatures : List Signature := []
  deriving DecidableEq, Inhabited

namespace Transaction

instance : Message Transaction where
  records m :=
    Record.ofBytes 1 m.script ++ Record.ofByteStrings 2 m.arguments ++
      Record.ofBytes 3 m.referenceBlockId ++ Record.ofNat 4 m.gasLimit.toNat ++
      Record.ofMessage? 5 m.proposalKey ++ Record.ofBytes 6 m.payer ++
      Record.ofByteStrings 7 m.authorizers ++ Record.ofMessages 8 m.payloadSignatures ++
      Record.ofMessages 9 m.envelopeSignatures
  ofFields? fs :=
    return {
      script := ← fs.bytes? 1
      arguments := ← fs.byteStrings? 2
      referenceBlockId := ← fs.bytes? 3
      gasLimit := ← fs.uint64? 4
      proposalKey := ← fs.message? 5
      payer := ← fs.bytes? 6
      authorizers := ← fs.byteStrings? 7
      payloadSignatures := ← fs.messages? 8
      envelopeSignatures := ← fs.messages? 9 }

def ofDomain (t : FlowAccess.Transaction) : Transaction :=
  { script := t.script, arguments := t.arguments
    referenceBlockId := t.referenceBlockId.bytes, gasLimit := t.gasLimit
    proposalKey := some (.ofDomain t.proposalKey), payer := t.payer.bytes
    authorizers := t.authorizers.map (·.bytes)
    payloadSignatures := t.payloadSignatures.map .ofDomain
    envelopeSignatures := t.envelopeSignatures.map .ofDomain }

/-- The proposal key is the one part that must be present. -/
def toDomain (m : Transaction) : Except DecodingError FlowAccess.Transaction := do
  let some proposalKey := m.proposalKey | .error (.missingField "proposal_key")
  let proposalKey ← proposalKey.toDomain
  let authorizers ← decodeList "authorizers" (Scalar.address "authorizers") m.authorizers
  return {
    script := m.script
    arguments := m.arguments
    referenceBlockId := ← Scalar.identifierOrEmpty "reference_block_id" m.referenceBlockId
    gasLimit := m.gasLimit
    proposalKey
    payer := ← Scalar.address "payer" m.payer
    authorizers
    payloadSignatures := ← decodeList "payload_signatures" Signature.toDomain m.payloadSignatures
    envelopeSignatures :=
      ← decodeList "envelope_signatures" Signature.toDomain m.envelopeSignatures }

instance : Carries Transaction FlowAccess.Transaction where
  write _ d := .ok (.ofDomain d)
  read _ := toDomain

end Transaction

structure TransactionResult where
  status : Int32 := 0
  statusCode : UInt32 := 0
  errorMessage : String := ""
  events : List Event := []
  blockId : Bytes := []
  transactionId : Bytes := []
  collectionId : Bytes := []
  blockHeight : UInt64 := 0
  computationUsage : UInt64 := 0
  deriving DecidableEq, Inhabited

namespace TransactionResult

instance : Message TransactionResult where
  records m :=
    Record.ofInt 1 m.status.toInt ++ Record.ofNat 2 m.statusCode.toNat ++
      Record.ofString 3 m.errorMessage ++ Record.ofMessages 4 m.events ++
      Record.ofBytes 5 m.blockId ++ Record.ofBytes 6 m.transactionId ++
      Record.ofBytes 7 m.collectionId ++ Record.ofNat 8 m.blockHeight.toNat ++
      Record.ofNat 10 m.computationUsage.toNat
  ofFields? fs :=
    return {
      status := ← fs.int32? 1
      statusCode := ← fs.uint32? 2
      errorMessage := ← fs.string? 3
      events := ← fs.messages? 4
      blockId := ← fs.bytes? 5
      transactionId := ← fs.bytes? 6
      collectionId := ← fs.bytes? 7
      blockHeight := ← fs.uint64? 8
      computationUsage := ← fs.uint64? 10 }

def ofDomain (options : CodecOptions) (r : FlowAccess.TransactionResult) :
    Except EncodingError TransactionResult :=
  return {
    status := .ofInt r.status.code
    statusCode := r.statusCode
    errorMessage := r.error.getD ""
    events := ← r.events.mapM (Event.ofDomain options)
    blockId := r.blockId.bytes
    collectionId := r.collectionId.bytes
    computationUsage := r.computationUsed }

/-- An empty error message stands for success. -/
def toDomain (options : CodecOptions) (m : TransactionResult) :
    Except DecodingError FlowAccess.TransactionResult := do
  let some status := TransactionStatus.ofCode? m.status.toInt
    | .error (.invalidEnum "status" (Text.Numeral.ofInt m.status.toInt))
  return {
    status
    statusCode := m.statusCode
    error := if m.errorMessage = "" then none else some m.errorMessage
    events := ← decodeList "events" (Event.toDomain options) m.events
    blockId := ← Scalar.identifierOrEmpty "block_id" m.blockId
    collectionId := ← Scalar.identifierOrEmpty "collection_id" m.collectionId
    computationUsed := m.computationUsage }

instance : Carries TransactionResult FlowAccess.TransactionResult where
  write := ofDomain
  read := toDomain

end TransactionResult
end FlowAccess.Grpc
