import FlowAccess.Proofs.Wires

/-!
# Messages as documents

The documents that stand for messages, field by field: bytes in digits or in base 64, numbers in
decimal digits, times as text, and codes as names. A document is accepted where its message is, and
as the same value (`Entity.read_toDocument_iff`), whatever is wrong with the message, so that
clients may go from one wire to the other. Short addresses are excluded, as documents may leave out
zeros in front, and so are the years that documents have no form for.
-/

namespace FlowAccess

open Text

/-! ## Scalars -/

/-- Whether bytes make no digits or at least the sixteen of an address. Fewer would be filled up. -/
def Address.NotShort (bytes : Bytes) : Prop := bytes = [] ∨ 8 ≤ bytes.length

instance (bytes : Bytes) : Decidable (Address.NotShort bytes) :=
  inferInstanceAs (Decidable (_ ∨ _))

theorem Address.parse?_encode {bytes : Bytes} (h : NotShort bytes) :
    parse? (Hex.encode bytes) = Octets.ofBytes? 8 bytes := by
  have hl := Hex.length_encodeChars bytes
  have hsize : (String.ofList (Hex.encodeChars bytes)).utf8ByteSize = 2 * bytes.length :=
    Hex.utf8ByteSize_encode bytes
  rw [parse?, Hex.encode, String.toList_ofList, Hex.stripMark_encodeChars]
  rcases h with rfl | h
  · rfl
  · by_cases h8 : bytes.length = 8
    · have hd : ¬(Hex.encodeChars bytes = [] ∨
          16 < (String.ofList (Hex.encodeChars bytes)).utf8ByteSize) := by
        rintro (hn | hn)
        · rw [hn, h8] at hl
          cases hl
        · omega
      rw [if_neg hd, pad, hl, h8]
      show (Hex.decodeChars? (Hex.encodeChars bytes)).bind _ = _
      rw [Hex.decodeChars?_encodeChars, Option.bind_some]
    · rw [if_pos (.inr (by omega)), Octets.ofBytes?_eq_none_iff.2 h8]

/-- A text that is empty where there is nothing is read as what there is. -/
theorem read_elim {α : Type} {read : String → Option α} {name : α → String} {value : Option α}
    (hempty : read "" = none) (h : ∀ a ∈ value, read (name a) = some a) :
    read (value.elim "" name) = value := by
  cases value with
  | none => exact hempty
  | some a => exact h a rfl

namespace Scalar

variable {field : String}

@[simp] theorem toOption_octets (n : Nat) (bytes : Bytes) :
    (octets n field bytes).toOption = Octets.ofBytes? n bytes := by
  unfold octets
  cases Octets.ofBytes? n bytes <;> rfl

@[simp] theorem toOption_identifier (bytes : Bytes) :
    (identifier field bytes).toOption = Octets.ofBytes? 32 bytes := toOption_octets 32 bytes

@[simp] theorem toOption_address (bytes : Bytes) :
    (address field bytes).toOption = Octets.ofBytes? 8 bytes := toOption_octets 8 bytes

@[simp] theorem toOption_hexIdentifier_encode (bytes : Bytes) :
    (hexIdentifier field (Hex.encode bytes)).toOption = Octets.ofBytes? 32 bytes := by
  rw [hexIdentifier, hexBytes_encode]
  exact toOption_identifier bytes

@[simp] theorem toOption_identifierOrEmpty (bytes : Bytes) :
    (identifierOrEmpty field bytes).toOption =
      if bytes = [] then some Identifier.empty else Octets.ofBytes? 32 bytes := by
  unfold identifierOrEmpty
  split
  · rfl
  · exact toOption_identifier bytes

@[simp] theorem toOption_hexIdentifierOrEmpty_encode (bytes : Bytes) :
    (hexIdentifierOrEmpty field (Hex.encode bytes)).toOption =
      if bytes = [] then some Identifier.empty else Octets.ofBytes? 32 bytes := by
  simp only [hexIdentifierOrEmpty, Hex.encode_eq_empty_iff]
  split
  · rfl
  · exact toOption_hexIdentifier_encode bytes

@[simp] theorem toOption_timestamp (text : String) :
    (timestamp field text).toOption = Timestamp.parse? text := by
  unfold timestamp
  cases Timestamp.parse? text <;> rfl

theorem toOption_hexAddress_encode {bytes : Bytes} (h : Address.NotShort bytes) :
    (hexAddress field (Hex.encode bytes)).toOption = Octets.ofBytes? 8 bytes := by
  rw [hexAddress, Address.parse?_encode h]
  cases Octets.ofBytes? 8 bytes <;> rfl

end Scalar

namespace Grpc

open Rest (numeral)

/-! ## Blocks and collections -/

namespace Timestamp

/-- The point in time of a message, if there is one. -/
def time? (m : Timestamp) : Option FlowAccess.Timestamp :=
  if m.nanos.toInt < 0 then none
  else FlowAccess.Timestamp.ofUnix? m.seconds.toInt m.nanos.toInt.toNat

/-- The text of a time; it is empty for one that is absent or that is no point in time. -/
def text (m : Option Timestamp) : String := (m.bind time?).elim "" (·.format)

/-- Whether a time is present, and in a year of four digits if it is a point in time. -/
def Plain (m : Option Timestamp) : Prop := m.isSome ∧ ∀ t ∈ m.bind time?, t.HasPlainYear

theorem toOption_toDomain {field : String} {m : Option Timestamp} (h : Plain m) :
    (toDomain field m).toOption = m.bind time? := by
  obtain ⟨m, rfl⟩ := Option.isSome_iff_exists.1 h.1
  simp only [toDomain, Scalar.pointInTime, Option.bind_some, time?]
  split
  · rfl
  · cases FlowAccess.Timestamp.ofUnix? m.seconds.toInt m.nanos.toInt.toNat <;> rfl

theorem parse?_text {m : Option Timestamp} (h : Plain m) :
    FlowAccess.Timestamp.parse? (text m) = m.bind time? :=
  read_elim rfl fun t ht => FlowAccess.Timestamp.parse?_format (h.2 t ht)

end Timestamp

def BlockHeader.toDocument (m : BlockHeader) : Rest.BlockHeader :=
  { id := Hex.encode m.id, parentId := Hex.encode m.parentId, height := numeral m.height.toNat
    timestamp := Timestamp.text m.timestamp }

theorem BlockHeader.toOption_toDocument {m : BlockHeader} (h : Timestamp.Plain m.timestamp) :
    m.toDocument.toDomain.toOption = m.toDomain.toOption := by
  -- the last step of a reading stays a bind, as it would be a map on one side only
  simp [-bind_pure_comp, toDocument, Rest.BlockHeader.toDomain, toDomain, numeral,
    Timestamp.toOption_toDomain h, Timestamp.parse?_text h]

def CollectionGuarantee.toDocument (m : CollectionGuarantee) : Rest.CollectionGuarantee :=
  { collectionId := Hex.encode m.collectionId }

theorem CollectionGuarantee.toOption_toDocument (m : CollectionGuarantee) :
    m.toDocument.toDomain.toOption = m.toDomain.toOption := by
  simp [-bind_pure_comp, toDocument, Rest.CollectionGuarantee.toDomain, toDomain]

def BlockSeal.toDocument (m : BlockSeal) : Rest.BlockSeal :=
  { blockId := Hex.encode m.blockId, resultId := Hex.encode m.executionReceiptId }

theorem BlockSeal.toOption_toDocument (m : BlockSeal) :
    m.toDocument.toDomain.toOption = m.toDomain.toOption := by
  simp [-bind_pure_comp, toDocument, Rest.BlockSeal.toDomain, toDomain]

namespace Block

/-- The header that a message has in itself. -/
def header (m : Block) : BlockHeader :=
  { id := m.id, parentId := m.parentId, height := m.height, timestamp := m.timestamp }

/-- A payload without guarantees and seals is left out. -/
def toDocument (m : Block) : Rest.Block :=
  { header := m.header.toDocument
    payload :=
      if m.guarantees = [] ∧ m.seals = [] then none
      else
        some { guarantees := m.guarantees.map (·.toDocument)
               seals := m.seals.map (·.toDocument) } }

theorem payload_toDocument (m : Block) :
    m.toDocument.payload.getD {} =
      { guarantees := m.guarantees.map (·.toDocument), seals := m.seals.map (·.toDocument) } := by
  unfold toDocument
  dsimp only
  split
  · rename_i h
    rw [h.1, h.2]
    rfl
  · rfl

/-- The header of a message is read first, and that of a document last. -/
theorem toOption_toDocument {m : Block} (h : Timestamp.Plain m.timestamp) :
    m.toDocument.toDomain.toOption = m.toDomain.toOption := by
  have hheader : m.toDocument.header.toDomain.toOption = m.header.toDomain.toOption :=
    BlockHeader.toOption_toDocument h
  have hm : m.toDomain.toOption = m.header.toDomain.toOption.bind fun h =>
      (m.guarantees.mapM fun g : CollectionGuarantee => g.toDomain.toOption).bind fun gs =>
        (m.seals.mapM fun s : BlockSeal => s.toDomain.toOption).bind fun ss =>
          some ⟨h, gs, ss⟩ := by
    simp only [toDomain, header, BlockHeader.toDomain, toOption_bind, toOption_pure,
      toOption_decodeList, Option.bind_assoc, Option.bind_some, Scalar.toOption_identifier,
      Timestamp.toOption_toDomain h]
  simp only [hm, Rest.Block.toDomain, payload_toDocument, toOption_bind, toOption_pure, hheader,
    toOption_decodeList, List.mapM_map, Function.comp_def,
    CollectionGuarantee.toOption_toDocument, BlockSeal.toOption_toDocument]
  rw [Option.bind_comm m.header.toDomain.toOption]
  exact congrArg _ (funext fun _ => Option.bind_comm _ _)

end Block

def Collection.toDocument (m : Collection) : Rest.Collection :=
  { id := Hex.encode m.id, transactions := m.transactionIds.map fun id => { id := Hex.encode id } }

theorem Collection.toOption_toDocument (m : Collection) :
    m.toDocument.toDomain.toOption = m.toDomain.toOption := by
  simp [-bind_pure_comp, toDocument, Rest.Collection.toDomain, toDomain, Function.comp_def]

/-! ## Transactions and events -/

def ProposalKey.toDocument (m : ProposalKey) : Rest.ProposalKey :=
  { address := Hex.encode m.address, keyIndex := numeral m.keyId.toNat
    sequenceNumber := numeral m.sequenceNumber.toNat }

theorem ProposalKey.toOption_toDocument {m : ProposalKey} (h : Address.NotShort m.address) :
    m.toDocument.toDomain.toOption = m.toDomain.toOption := by
  simp [-bind_pure_comp, toDocument, Rest.ProposalKey.toDomain, toDomain, numeral,
    Scalar.toOption_hexAddress_encode h]

def Signature.toDocument (m : Signature) : Rest.Signature :=
  { address := Hex.encode m.address, keyIndex := numeral m.keyId.toNat
    signature := Base64.encode m.signature }

theorem Signature.toOption_toDocument {m : Signature} (h : Address.NotShort m.address) :
    m.toDocument.toDomain.toOption = m.toDomain.toOption := by
  simp [-bind_pure_comp, toDocument, Rest.Signature.toDomain, toDomain, numeral,
    Scalar.toOption_hexAddress_encode h]

namespace Transaction

def toDocument (m : Transaction) : Rest.Transaction :=
  { script := Base64.encode m.script, arguments := m.arguments.map Base64.encode
    referenceBlockId := Hex.encode m.referenceBlockId, gasLimit := numeral m.gasLimit.toNat
    payer := Hex.encode m.payer, proposalKey := m.proposalKey.map (·.toDocument)
    authorizers := m.authorizers.map Hex.encode
    payloadSignatures := m.payloadSignatures.map (·.toDocument)
    envelopeSignatures := m.envelopeSignatures.map (·.toDocument) }

/-- Whether no address is short. -/
structure NotShort (m : Transaction) : Prop where
  proposer : ∀ k ∈ m.proposalKey, Address.NotShort k.address
  payer : Address.NotShort m.payer
  authorizers : ∀ a ∈ m.authorizers, Address.NotShort a
  payloadSigners : ∀ s ∈ m.payloadSignatures, Address.NotShort s.address
  envelopeSigners : ∀ s ∈ m.envelopeSignatures, Address.NotShort s.address

theorem toOption_toDocument {m : Transaction} (h : NotShort m) :
    m.toDocument.toDomain.toOption = m.toDomain.toOption := by
  unfold toDocument Rest.Transaction.toDomain toDomain
  cases hk : m.proposalKey with
  | none => rfl
  | some k =>
    have hkey := ProposalKey.toOption_toDocument (h.proposer k hk)
    simp [-bind_pure_comp, hkey, numeral, Scalar.toOption_hexAddress_encode h.payer,
      decodeList_map Scalar.base64Bytes_encode,
      toOption_decodeList_map fun a ha => Scalar.toOption_hexAddress_encode (h.authorizers a ha),
      toOption_decodeList_map fun s hs => Signature.toOption_toDocument (h.payloadSigners s hs),
      toOption_decodeList_map fun s hs => Signature.toOption_toDocument (h.envelopeSigners s hs)]

end Transaction

def Event.toDocument (m : Event) : Rest.Event :=
  { type := m.type, transactionId := Hex.encode m.transactionId
    transactionIndex := numeral m.transactionIndex.toNat, eventIndex := numeral m.eventIndex.toNat
    payload := Base64.encode m.payload }

theorem Event.toOption_toDocument (options : CodecOptions) (m : Event) :
    (m.toDocument.toDomain options).toOption = (m.toDomain options).toOption := by
  simp [toDocument, Rest.Event.toDomain, toDomain, numeral]

def BlockEvents.toDocument (m : BlockEvents) : Rest.BlockEvents :=
  { blockId := Hex.encode m.blockId, blockHeight := numeral m.blockHeight.toNat
    blockTimestamp := Timestamp.text m.blockTimestamp, events := m.events.map (·.toDocument) }

theorem BlockEvents.toOption_toDocument {options : CodecOptions} {m : BlockEvents}
    (h : Timestamp.Plain m.blockTimestamp) :
    (m.toDocument.toDomain options).toOption = (m.toDomain options).toOption := by
  simp [-bind_pure_comp, toDocument, Rest.BlockEvents.toDomain, toDomain, numeral,
    Timestamp.toOption_toDomain h, Timestamp.parse?_text h, Function.comp_def,
    Event.toOption_toDocument]

namespace TransactionResult

/-- The name of a status is empty if no status has the number. -/
def toDocument (m : TransactionResult) : Rest.TransactionResult :=
  { blockId := Hex.encode m.blockId, collectionId := Hex.encode m.collectionId
    status := (TransactionStatus.ofCode? m.status.toInt).elim "" (·.name)
    statusCode := m.statusCode, errorMessage := m.errorMessage
    computationUsed := numeral m.computationUsage.toNat, events := m.events.map (·.toDocument) }

theorem toOption_toDocument (options : CodecOptions) (m : TransactionResult) :
    (m.toDocument.toDomain options).toOption = (m.toDomain options).toOption := by
  have hn : Scalar.uint64 "computation_used" (Numeral.ofNat m.computationUsage.toNat) =
      .ok m.computationUsage := Scalar.uint64_numeral m.computationUsage
  have hs : TransactionStatus.ofName? m.toDocument.status =
      TransactionStatus.ofCode? m.status.toInt :=
    read_elim TransactionStatus.ofName?_empty fun s _ => s.ofName?_name
  simp only [Rest.TransactionResult.toDomain, toDomain, hs]
  simp only [toDocument, numeral, Numeral.ofNat_ne_empty, if_false, hn]
  cases TransactionStatus.ofCode? m.status.toInt with
  | none => rfl
  | some s =>
    simp only [toOption_bind, toOption_pure, toOption_ok, Option.bind_some, toOption_decodeList,
      List.mapM_map, Function.comp_def, Event.toOption_toDocument,
      Scalar.toOption_identifierOrEmpty, Scalar.toOption_hexIdentifierOrEmpty_encode]
    rfl

end TransactionResult

/-! ## Accounts -/

namespace AccountKey

/-- The name of an algorithm is empty if no algorithm has the number. -/
def toDocument (m : AccountKey) : Rest.AccountKey :=
  { index := numeral m.index.toNat, publicKey := Hex.encode m.publicKey
    signingAlgorithm := (SignatureAlgorithm.ofCode? m.signAlgo.toNat).elim "" (·.name)
    hashingAlgorithm := (HashAlgorithm.ofCode? m.hashAlgo.toNat).elim "" (·.name)
    sequenceNumber := numeral m.sequenceNumber.toNat, weight := numeral m.weight.toNat
    revoked := m.revoked }

theorem toOption_toDocument (m : AccountKey) :
    m.toDocument.toDomain.toOption = m.toDomain.toOption := by
  have hn : Scalar.uint64 "key.sequence_number" (Numeral.ofNat m.sequenceNumber.toNat) =
      .ok m.sequenceNumber.toUInt64 := Scalar.uint64_numeral m.sequenceNumber.toUInt64
  have hs : SignatureAlgorithm.ofName? m.toDocument.signingAlgorithm =
      SignatureAlgorithm.ofCode? m.signAlgo.toNat :=
    read_elim SignatureAlgorithm.ofName?_empty fun a _ => a.ofName?_name
  have hh : HashAlgorithm.ofName? m.toDocument.hashingAlgorithm =
      HashAlgorithm.ofCode? m.hashAlgo.toNat :=
    read_elim HashAlgorithm.ofName?_empty fun a _ => a.ofName?_name
  simp only [Rest.AccountKey.toDomain, toDomain, hs, hh]
  simp only [toDocument, numeral, Scalar.uint32_numeral, Scalar.hexBytes_encode, hn]
  cases SignatureAlgorithm.ofCode? m.signAlgo.toNat with
  | none => rfl
  | some s => cases HashAlgorithm.ofCode? m.hashAlgo.toNat <;> rfl

end AccountKey

namespace Account

def toDocument (m : Account) : Rest.Account :=
  { address := Hex.encode m.address, balance := numeral m.balance.toNat
    keys := m.keys.map (·.toDocument)
    contracts := (Contracts.ofList (m.contracts.map fun e => (e.name, e.code))).map Base64.encode }

theorem toOption_toDocument {m : Account} (h : Address.NotShort m.address) :
    m.toDocument.toDomain.toOption = m.toDomain.toOption := by
  simp [-bind_pure_comp, toDocument, Rest.Account.toDomain, toDomain, numeral,
    Rest.Account.mapM_contract, Scalar.toOption_hexAddress_encode h, Function.comp_def,
    AccountKey.toOption_toDocument]

end Account

/-! ## Execution results and nodes -/

def Chunk.toDocument (m : Chunk) : Rest.Chunk :=
  { collectionIndex := numeral m.collectionIndex.toNat, startState := Hex.encode m.startState
    eventCollection := Hex.encode m.eventCollection, blockId := Hex.encode m.blockId
    totalComputationUsed := numeral m.totalComputationUsed.toNat
    numberOfTransactions := numeral m.numberOfTransactions.toNat
    index := numeral m.index.toNat, endState := Hex.encode m.endState }

theorem Chunk.toOption_toDocument (m : Chunk) :
    m.toDocument.toDomain.toOption = m.toDomain.toOption := by
  simp [-bind_pure_comp, toDocument, Rest.Chunk.toDomain, toDomain, numeral]

/-- A service event has no transaction; what a document says of that is not read. -/
def ServiceEvent.toDocument (m : ServiceEvent) : Rest.Event :=
  { type := m.type, transactionIndex := "0", eventIndex := "0"
    payload := Base64.encode m.payload }

theorem ServiceEvent.toServiceEvent_toDocument (m : ServiceEvent) :
    m.toDocument.toServiceEvent = .ok m.toDomain :=
  Rest.Event.toServiceEvent_ofServiceEvent m.toDomain

def ExecutionResult.toDocument (m : ExecutionResult) : Rest.ExecutionResult :=
  { blockId := Hex.encode m.blockId, previousResultId := Hex.encode m.previousResultId
    chunks := m.chunks.map (·.toDocument), events := m.serviceEvents.map (·.toDocument) }

theorem ExecutionResult.toOption_toDocument (m : ExecutionResult) :
    m.toDocument.toDomain.toOption = m.toDomain.toOption := by
  have hs : (m.serviceEvents.mapM fun e => some e.toDomain) =
      some (m.serviceEvents.map (·.toDomain)) := mapM_eq_pure fun _ _ => rfl
  simp [toDocument, Rest.ExecutionResult.toDomain, toDomain, Function.comp_def,
    Chunk.toOption_toDocument, ServiceEvent.toServiceEvent_toDocument, hs]

def NodeVersionInfo.toDocument (m : NodeVersionInfo) : Rest.NodeVersionInfo :=
  { semver := m.semver, commit := m.commit, sporkId := Hex.encode m.sporkId
    protocolVersion := numeral m.protocolVersion.toNat
    sporkRootBlockHeight := numeral m.sporkRootBlockHeight.toNat
    nodeRootBlockHeight := numeral m.nodeRootBlockHeight.toNat }

theorem NodeVersionInfo.toOption_toDocument (m : NodeVersionInfo) :
    m.toDocument.toDomain.toOption = m.toDomain.toOption := by
  simp [-bind_pure_comp, toDocument, Rest.NodeVersionInfo.toDomain, toDomain, numeral]

end Grpc

/-! ## Entities -/

namespace Entity

/-- The document that stands for a message. -/
def toDocument : (k : Entity) → k.forms.Message → k.forms.Document
  | blockHeader, m => Grpc.BlockHeader.toDocument m
  | collectionGuarantee, m => Grpc.CollectionGuarantee.toDocument m
  | blockSeal, m => Grpc.BlockSeal.toDocument m
  | block, m => Grpc.Block.toDocument m
  | collection, m => Grpc.Collection.toDocument m
  | proposalKey, m => Grpc.ProposalKey.toDocument m
  | signature, m => Grpc.Signature.toDocument m
  | transaction, m => Grpc.Transaction.toDocument m
  | transactionResult, m => Grpc.TransactionResult.toDocument m
  | accountKey, m => Grpc.AccountKey.toDocument m
  | account, m => Grpc.Account.toDocument m
  | event, m => Grpc.Event.toDocument m
  | blockEvents, m => Grpc.BlockEvents.toDocument m
  | chunk, m => Grpc.Chunk.toDocument m
  | serviceEvent, m => Grpc.ServiceEvent.toDocument m
  | executionResult, m => Grpc.ExecutionResult.toDocument m
  | nodeVersionInfo, m => Grpc.NodeVersionInfo.toDocument m

/-- Whether a document can say the same as a message: no address is short, as it would be filled
up, and times are there, in years of four digits. -/
def Renderable : (k : Entity) → k.forms.Message → Prop
  | blockHeader, m => Grpc.Timestamp.Plain (Grpc.BlockHeader.timestamp m)
  | block, m => Grpc.Timestamp.Plain (Grpc.Block.timestamp m)
  | blockEvents, m => Grpc.Timestamp.Plain (Grpc.BlockEvents.blockTimestamp m)
  | proposalKey, m => Address.NotShort (Grpc.ProposalKey.address m)
  | signature, m => Address.NotShort (Grpc.Signature.address m)
  | transaction, m => Grpc.Transaction.NotShort m
  | account, m => Address.NotShort (Grpc.Account.address m)
  | _, _ => True

theorem toOption_read_toDocument {options : CodecOptions} {k : Entity} {m : k.forms.Message}
    (h : k.Renderable m) :
    (Carries.read options (k.toDocument m) : Except DecodingError k.Value).toOption =
      (Carries.read options m : Except DecodingError k.Value).toOption := by
  cases k with
  | blockHeader => exact Grpc.BlockHeader.toOption_toDocument h
  | collectionGuarantee => exact Grpc.CollectionGuarantee.toOption_toDocument m
  | blockSeal => exact Grpc.BlockSeal.toOption_toDocument m
  | block => exact Grpc.Block.toOption_toDocument h
  | collection => exact Grpc.Collection.toOption_toDocument m
  | proposalKey => exact Grpc.ProposalKey.toOption_toDocument h
  | signature => exact Grpc.Signature.toOption_toDocument h
  | transaction => exact Grpc.Transaction.toOption_toDocument h
  | transactionResult => exact Grpc.TransactionResult.toOption_toDocument options m
  | accountKey => exact Grpc.AccountKey.toOption_toDocument m
  | account => exact Grpc.Account.toOption_toDocument h
  | event => exact Grpc.Event.toOption_toDocument options m
  | blockEvents => exact Grpc.BlockEvents.toOption_toDocument h
  | chunk => exact Grpc.Chunk.toOption_toDocument m
  | serviceEvent => exact congrArg _ (Grpc.ServiceEvent.toServiceEvent_toDocument m)
  | executionResult => exact Grpc.ExecutionResult.toOption_toDocument m
  | nodeVersionInfo => exact Grpc.NodeVersionInfo.toOption_toDocument m

/-- The same is accepted of both wires. A message is read as a value if and only if the document
that says the same is read as that value, whatever else the message holds: identifiers that are
left out or of a wrong length, no proposal key, payloads that cannot be decoded, or chunks out of
order. -/
theorem read_toDocument_iff (options : CodecOptions) (k : Entity) (m : k.forms.Message)
    (h : k.Renderable m) (d : k.Value) :
    Carries.read options m = .ok d ↔ Carries.read options (k.toDocument m) = .ok d := by
  rw [← toOption_eq_some_iff, ← toOption_eq_some_iff, toOption_read_toDocument h]

/-- A transaction that names no reference block. -/
def unreferenced : Transaction where
  script := [0x74, 0x78]
  arguments := [[0x31]]
  referenceBlockId := .empty
  gasLimit := 9999
  proposalKey := { address := .ofNat 8 1, keyIndex := 2, sequenceNumber := 3 }
  payer := .ofNat 8 4
  authorizers := [.ofNat 8 1]
  payloadSignatures := [{ address := .ofNat 8 1, keyIndex := 2, signature := [0xFF] }]
  envelopeSignatures := []

/-- The message of the transaction, without the bytes of an identifier that stands for none. -/
def unreferencedMessage : Grpc.Transaction :=
  { Grpc.Transaction.ofDomain unreferenced with referenceBlockId := [] }

theorem read_toDocument_iff_unreferenced :
    transaction.Renderable unreferencedMessage ∧
      Carries.read {} unreferencedMessage = .ok unreferenced ∧
      Carries.read {} (Grpc.Transaction.toDocument unreferencedMessage) = .ok unreferenced := by
  have hm : transaction.Renderable unreferencedMessage := by
    refine ⟨?_, ?_, ?_, ?_, ?_⟩ <;> decide
  have hr : Carries.read {} unreferencedMessage = .ok unreferenced := rfl
  exact ⟨hm, hr, (read_toDocument_iff {} transaction unreferencedMessage hm unreferenced).1 hr⟩

end Entity
end FlowAccess
