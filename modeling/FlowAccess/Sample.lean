import FlowAccess.Account
import FlowAccess.Block
import FlowAccess.Execution
import FlowAccess.Node

/-!
# Sample values

A value of every domain type, made from numbers that are drawn one after the other. Equal draws
make equal values, and later draws make other values than earlier ones.
-/

namespace FlowAccess

open Cadence

/-- What is made from a run of draws; the state is the number that was drawn last. -/
abbrev Sample := StateM UInt64

namespace Sample

def draw : Sample UInt64 := modifyGet fun n => (n + 1, n + 1)

/-- As many samples as asked for. -/
def several {α : Type} (count : Nat) (one : Sample α) : Sample (List α) :=
  (List.range count).mapM fun _ => one

def identifier : Sample Identifier := do return .hashOf (Bytes.ofNat 8 (← draw).toNat)

def address : Sample Address := do return .ofNat 8 (← draw).toNat

/-- The Unix second from which times count. -/
def genesis : Int := 1700000000

def timestamp : Sample Timestamp := do
  let n ← draw
  return (Timestamp.ofUnix? (genesis + n.toNat) (n.toUInt32.toNat % 1000 * 1000000)).getD .epoch

/-! ## Blocks and collections -/

def blockHeader : Sample BlockHeader := do
  return { id := ← identifier, parentId := ← identifier, height := ← draw, timestamp := ← timestamp }

def guarantee : Sample CollectionGuarantee := do return { collectionId := ← identifier }

def blockSeal : Sample BlockSeal := do
  return { blockId := ← identifier, executionReceiptId := ← identifier }

def block : Sample Block := do
  return {
    header := ← blockHeader, guarantees := ← several 3 guarantee, seals := ← several 2 blockSeal }

def collection : Sample Collection := do return { transactionIds := ← several 4 identifier }

/-! ## Transactions -/

/-- A byte string of one drawn byte over and over. -/
def filling (n : UInt64) : Bytes := List.replicate 64 n.toUInt8

def signature (address : Address) : Sample Signature := do
  let n ← draw
  return { address, keyIndex := (n % 4).toUInt32, signature := filling n }

def transaction : Sample Transaction := do
  let payer ← address
  let proposer ← address
  return {
    script := Bytes.ofString
      "transaction(greeting: String) \x7b execute \x7b log(greeting) \x7d \x7d"
    arguments := [Bytes.ofString "\x7b\"type\":\"String\",\"value\":\"hello\"\x7d"]
    referenceBlockId := ← identifier
    gasLimit := 9999
    proposalKey := { address := proposer, keyIndex := 1, sequenceNumber := ← draw }
    payer
    authorizers := [proposer, ← address]
    payloadSignatures := [← signature proposer]
    envelopeSignatures := [← signature payer, ← signature payer] }

/-! ## Events -/

def eventType : String := "A.0000000000000001.FooContract.FooEvent"

/-- A number of the kind `Int`. -/
def whole (n : UInt64) : Number :=
  ⟨.int, n.toNat, by simp [NumberKind.least, NumberKind.signed, NumberKind.bits],
    by have := n.toNat_lt; simp [NumberKind.greatest, NumberKind.signed, NumberKind.bits]; omega⟩

/-- A number of the kind `UFix64`, in units. -/
def units (n : UInt64) : Number :=
  ⟨.ufix64, n.toNat, by simp [NumberKind.least, NumberKind.signed],
    by have := n.toNat_lt; simp [NumberKind.greatest, NumberKind.signed, NumberKind.bits]; omega⟩

def eventValue : Sample Value := do
  let n ← draw
  return .composite .event eventType [
    ("a", .number (whole n)),
    ("b", .string ("foo-" ++ Text.Numeral.ofNat n.toNat)),
    ("c", .number (units (n * 100000000)))]

/-- An event with its value in an encoding, not decoded yet. -/
def event (encoding : Encoding) : Sample Event := do
  let v ← eventValue
  let transactionId ← identifier
  let n ← draw
  return {
    eventType, transactionId
    transactionIndex := (n % 10).toUInt32
    eventIndex := (n % 7).toUInt32
    payload := (encoding.encode v).toOption.getD []
    encoding }

def events (encoding : Encoding) (count : Nat) : Sample (List Event) := several count (event encoding)

def blockEvents (encoding : Encoding) (count : Nat) : Sample BlockEvents := do
  return {
    blockId := ← identifier, height := ← draw, timestamp := ← timestamp
    events := ← events encoding count }

def transactionResult (encoding : Encoding) : Sample TransactionResult := do
  return {
    status := .sealed, statusCode := 0, error := none
    events := ← events encoding 2
    blockId := ← identifier
    collectionId := ← identifier
    computationUsed := (← draw) * 10 }

/-! ## Accounts -/

def accountKey (index : UInt32) : Sample AccountKey := do
  let n ← draw
  return {
    index, publicKey := filling n, signatureAlgorithm := .ecdsaP256, hashAlgorithm := .sha3Of256
    weight := 1000, sequenceNumber := n, revoked := false }

def account : Sample Account := do
  return {
    address := ← address
    balance := 1000000000
    keys := [← accountKey 0, ← accountKey 1]
    contracts := .ofList [("FooContract",
      Bytes.ofString "access(all) contract FooContract \x7b\x7d")] }

/-! ## Execution -/

def chunk (blockId : Identifier) (index : Nat) : Sample Chunk := do
  return {
    collectionIndex := .ofNat index
    startState := ← identifier
    eventCollection := ← identifier
    blockId
    totalComputationUsed := (← draw) * 1000
    numberOfTransactions := 2
    index := .ofNat index
    endState := ← identifier }

def executionResult : Sample ExecutionResult := do
  let blockId ← identifier
  return {
    previousResultId := ← identifier
    blockId
    chunks := ← (List.range 3).mapM (chunk blockId)
    serviceEvents := [
      { eventType := "EpochSetup", payload := Bytes.ofString "\x7b\"whatever\":21\x7d" }] }

def payload (index : Nat) : Sample Payload := do
  return {
    keyParts := [
      { type := 0, value := (← address).bytes },
      { type := 2, value := Bytes.ofString ("key-" ++ Text.Numeral.ofNat index) }]
    value := List.replicate 8 (.ofNat index) }

def trieUpdate : Sample TrieUpdate := do
  return {
    rootHash := (← identifier).bytes
    paths := [(← identifier).bytes, (← identifier).bytes]
    payloads := ← (List.range 2).mapM payload }

def chunkExecutionData (encoding : Encoding) : Sample ChunkExecutionData := do
  let transactions ← several 2 transaction
  return {
    transactions
    events := ← events encoding 3
    trieUpdate := some (← trieUpdate)
    transactionResults := transactions.map fun t =>
      { transactionId := t.id, failed := false, computationUsed := 42 } }

def executionData (encoding : Encoding) : Sample ExecutionData := do
  return { blockId := ← identifier, chunks := ← several 2 (chunkExecutionData encoding) }

/-! ## Nodes -/

def nodeVersionInfo : Sample NodeVersionInfo := do
  return {
    semver := "v0.37.0", commit := "3ff9a4a", sporkId := ← identifier
    protocolVersion := 2, sporkRootBlockHeight := 1000, nodeRootBlockHeight := 1500 }

end Sample
end FlowAccess
