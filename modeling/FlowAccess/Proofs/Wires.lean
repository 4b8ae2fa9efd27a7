import FlowAccess.Proofs.Grpc.RoundTrip
import FlowAccess.Proofs.Rest.RoundTrip

/-!
# Both wires

What both transports carry, and that neither loses any of it (`Entity.read_back_from_both_wires`): a
value is written, and from its bytes and from its text the same value is read. The values that a
wire has no form for are excluded wire by wire.
-/

namespace FlowAccess

/-! ## Serialisation -/

/-- The bytes that a message is sent as, if it can be written. -/
def Grpc.serialize (W : Type) {D : Type} [Protobuf.Message W] [Carries W D]
    (options : CodecOptions) (d : D) : Except EncodingError Bytes :=
  (Carries.write options d : Except EncodingError W).map Protobuf.encode

/-- What is read from bytes, if they are a message of the type. -/
def Grpc.deserialize? (W : Type) {D : Type} [Protobuf.Message W] [Carries W D]
    (options : CodecOptions) (bytes : Bytes) : Option (Except DecodingError D) :=
  (Protobuf.decode? bytes : Option W).map (Carries.read options)

/-- The text that a document is sent as, if it can be written. -/
def Rest.serialize (W : Type) {D : Type} [Json.Document W] [Carries W D]
    (options : CodecOptions) (d : D) : Except EncodingError String :=
  (Carries.write options d : Except EncodingError W).map fun w => (Json.Document.toJson w).render

/-- What is read from a text, if it is a document of the type. -/
def Rest.deserialize? (W : Type) {D : Type} [Json.Document W] [Carries W D]
    (options : CodecOptions) (text : String) : Option (Except DecodingError D) :=
  (Json.document? text : Option W).map (Carries.read options)

section

variable {W D : Type} [Carries W D] {options : CodecOptions} {d d' : D}

/-- What is written as a message is read as that message by any reader. -/
theorem Grpc.exists_serialize_of_write [Protobuf.Message W] {levels : Nat}
    [Protobuf.LawfulMessage W levels] (hl : levels ≤ Protobuf.maxNesting) {w : W}
    (hw : Carries.write options d = .ok w) :
    ∃ bytes, serialize W options d = .ok bytes ∧ (bytes.length < 2 ^ 64 →
      ∀ options', (deserialize? W options' bytes : Option (Except DecodingError D)) =
        some (Carries.read options' w)) := by
  refine ⟨Protobuf.encode w, ?_, fun hlength options' => ?_⟩
  · rw [serialize, hw]
    rfl
  · rw [deserialize?, Protobuf.decode?_encode hl hlength, Option.map_some]

/-- What is written as a document is read as that document by any reader. -/
theorem Rest.exists_serialize_of_write [Json.Document W] [Json.LawfulDocument W] {w : W}
    (hw : Carries.write options d = .ok w) :
    ∃ text, serialize W options d = .ok text ∧
      ∀ options', (deserialize? W options' text : Option (Except DecodingError D)) =
        some (Carries.read options' w) := by
  refine ⟨(Json.Document.toJson w).render, ?_, fun options' => ?_⟩
  · rw [serialize, hw]
    rfl
  · rw [deserialize?, Json.document?_render, Option.map_some]

/-- A value that a message carries is read from the message's bytes. -/
theorem Grpc.exists_serialize [Protobuf.Message W] {levels : Nat}
    [Protobuf.LawfulMessage W levels] (hl : levels ≤ Protobuf.maxNesting)
    (h : ∃ w : W, Carries.write options d = .ok w ∧ Carries.read options w = .ok d') :
    ∃ bytes, serialize W options d = .ok bytes ∧
      (bytes.length < 2 ^ 64 → deserialize? W options bytes = some (.ok d')) := by
  obtain ⟨w, hw, hr⟩ := h
  obtain ⟨bytes, hb, hd⟩ := exists_serialize_of_write hl hw
  exact ⟨bytes, hb, fun hlength => by rw [hd hlength, hr]⟩

/-- A value that a document carries is read from the document's text. -/
theorem Rest.exists_serialize [Json.Document W] [Json.LawfulDocument W]
    (h : ∃ w : W, Carries.write options d = .ok w ∧ Carries.read options w = .ok d') :
    ∃ text, serialize W options d = .ok text ∧ deserialize? W options text = some (.ok d') := by
  obtain ⟨w, hw, hr⟩ := h
  obtain ⟨text, ht, hd⟩ := exists_serialize_of_write hw
  exact ⟨text, ht, by rw [hd, hr]⟩

/-- An account is read from its bytes, in whichever order its contracts stand there. -/
theorem Grpc.Account.deserialize?_perm {a : FlowAccess.Account} {m : Account}
    (hn : ∀ k ∈ a.keys, k.sequenceNumber.toNat < UInt32.size) (hm : ofDomain a = .ok m)
    {contracts : List ContractEntry} (hp : contracts.Perm m.contracts)
    (hlength : (Protobuf.encode ({ m with contracts } : Account)).length < 2 ^ 64) :
    (deserialize? Account options (Protobuf.encode ({ m with contracts } : Account)) :
      Option (Except DecodingError FlowAccess.Account)) = some (.ok a) := by
  obtain ⟨m', hm', hread⟩ := exists_ofDomain hn
  obtain rfl : m = m' := Except.ok.inj (hm.symm.trans hm')
  rw [deserialize?, Protobuf.decode?_encode (by decide) hlength, Option.map_some]
  exact congrArg some ((toDomain_perm_ofDomain hm hp).trans hread)

end

/-! ## Entities -/

/-- The kinds of values that both transports carry. -/
inductive Entity where
  | blockHeader
  | collectionGuarantee
  | blockSeal
  | block
  | collection
  | proposalKey
  | signature
  | transaction
  | transactionResult
  | accountKey
  | account
  | event
  | blockEvents
  | chunk
  | serviceEvent
  | executionResult
  | nodeVersionInfo
  deriving DecidableEq

namespace Entity

/-- A type of values, and the message and the document that carry them. -/
structure Forms where
  Value : Type
  Message : Type
  Document : Type
  {levels : Nat}
  [isMessage : Protobuf.Message Message]
  [lawfulMessage : Protobuf.LawfulMessage Message levels]
  [messageCarries : Carries Message Value]
  [isDocument : Json.Document Document]
  [lawfulDocument : Json.LawfulDocument Document]
  [documentCarries : Carries Document Value]
  levels_le : levels ≤ Protobuf.maxNesting := by decide

attribute [instance] Forms.isMessage Forms.lawfulMessage Forms.messageCarries Forms.isDocument
  Forms.lawfulDocument Forms.documentCarries

def forms : Entity → Forms
  | blockHeader => .mk BlockHeader Grpc.BlockHeader Rest.BlockHeader
  | collectionGuarantee => .mk CollectionGuarantee Grpc.CollectionGuarantee Rest.CollectionGuarantee
  | blockSeal => .mk BlockSeal Grpc.BlockSeal Rest.BlockSeal
  | block => .mk Block Grpc.Block Rest.Block
  | collection => .mk Collection Grpc.Collection Rest.Collection
  | proposalKey => .mk ProposalKey Grpc.ProposalKey Rest.ProposalKey
  | signature => .mk Signature Grpc.Signature Rest.Signature
  | transaction => .mk Transaction Grpc.Transaction Rest.Transaction
  | transactionResult => .mk TransactionResult Grpc.TransactionResult Rest.TransactionResult
  | accountKey => .mk AccountKey Grpc.AccountKey Rest.AccountKey
  | account => .mk Account Grpc.Account Rest.Account
  | event => .mk Event Grpc.Event Rest.Event
  | blockEvents => .mk BlockEvents Grpc.BlockEvents Rest.BlockEvents
  | chunk => .mk Chunk Grpc.Chunk Rest.Chunk
  | serviceEvent => .mk ServiceEvent Grpc.ServiceEvent Rest.Event
  | executionResult => .mk ExecutionResult Grpc.ExecutionResult Rest.ExecutionResult
  | nodeVersionInfo => .mk NodeVersionInfo Grpc.NodeVersionInfo Rest.NodeVersionInfo

/-- The values of a kind. -/
abbrev Value (k : Entity) : Type := k.forms.Value

variable (k : Entity) (options : CodecOptions)

/-- The bytes of a value. -/
def toProtobuf (d : k.Value) : Except EncodingError Bytes :=
  Grpc.serialize k.forms.Message options d

def ofProtobuf? (bytes : Bytes) : Option (Except DecodingError k.Value) :=
  Grpc.deserialize? k.forms.Message options bytes

/-- The text of a value. -/
def toText (d : k.Value) : Except EncodingError String := Rest.serialize k.forms.Document options d

def ofText? (text : String) : Option (Except DecodingError k.Value) :=
  Rest.deserialize? k.forms.Document options text

/-! ## What is read -/

/-- A value as it is read: its events have the options of the reader. -/
def readBy : (k : Entity) → k.Value → k.Value
  | event, e => Event.readBy options e
  | blockEvents, b => BlockEvents.readBy options b
  | transactionResult, r => TransactionResult.readBy options r
  | _, d => d

/-- What is received of a value, which is what counts when values are compared. -/
def received : (k : Entity) → k.Value → k.Value
  | event, e => Event.received e
  | blockEvents, b => BlockEvents.received b
  | transactionResult, r => TransactionResult.received r
  | _, d => d

/-- What codecs ask of a value: readable events, no empty error message, and chunks in order. -/
def Carriable : (k : Entity) → k.Value → Prop
  | event, e => Event.Readable options e
  | blockEvents, b => ∀ e ∈ BlockEvents.events b, e.Readable options
  | transactionResult, r =>
    TransactionResult.error r ≠ some "" ∧ ∀ e ∈ TransactionResult.events r, e.Readable options
  | executionResult, r => ExecutionResult.InOrder r
  | _, _ => True

/-- The sequence numbers of keys have 32 bits, which is what messages have room for. -/
def HasNarrowNumbers : (k : Entity) → k.Value → Prop
  | accountKey, k => (AccountKey.sequenceNumber k).toNat ≤ 2 ^ 32 - 1
  | account, a => ∀ k ∈ Account.keys a, k.sequenceNumber.toNat ≤ 2 ^ 32 - 1
  | _, _ => True

/-- The years of times have four digits, as documents have no form for others. -/
def HasPlainYears : (k : Entity) → k.Value → Prop
  | blockHeader, h => (BlockHeader.timestamp h).HasPlainYear
  | block, b => (Block.header b).timestamp.HasPlainYear
  | blockEvents, b => (BlockEvents.timestamp b).HasPlainYear
  | _, _ => True

variable {k options} {d : k.Value}

theorem exists_message (hc : k.Carriable options d) (hn : k.HasNarrowNumbers d) :
    ∃ w : k.forms.Message, Carries.write options d = .ok w ∧
      Carries.read options w = .ok (k.readBy options d) := by
  cases k with
  | blockHeader => exact ⟨_, rfl, Grpc.BlockHeader.toDomain_ofDomain d⟩
  | collectionGuarantee => exact ⟨_, rfl, Grpc.CollectionGuarantee.toDomain_ofDomain d⟩
  | blockSeal => exact ⟨_, rfl, Grpc.BlockSeal.toDomain_ofDomain d⟩
  | block => exact ⟨_, rfl, Grpc.Block.toDomain_ofDomain d⟩
  | collection => exact ⟨_, rfl, Grpc.Collection.toDomain_ofDomain d⟩
  | proposalKey => exact ⟨_, rfl, Grpc.ProposalKey.toDomain_ofDomain d⟩
  | signature => exact ⟨_, rfl, Grpc.Signature.toDomain_ofDomain d⟩
  | transaction => exact ⟨_, rfl, Grpc.Transaction.toDomain_ofDomain d⟩
  | transactionResult => exact Grpc.TransactionResult.exists_ofDomain hc.1 hc.2
  | accountKey => exact Grpc.AccountKey.exists_ofDomain (Nat.lt_succ_of_le hn)
  | account => exact Grpc.Account.exists_ofDomain fun k hk => Nat.lt_succ_of_le (hn k hk)
  | event => exact Grpc.Event.exists_ofDomain hc
  | blockEvents => exact Grpc.BlockEvents.exists_ofDomain hc
  | chunk => exact ⟨_, rfl, Grpc.Chunk.toDomain_ofDomain d⟩
  | serviceEvent => exact ⟨_, rfl, rfl⟩
  | executionResult => exact ⟨_, rfl, Grpc.ExecutionResult.toDomain_ofDomain hc⟩
  | nodeVersionInfo => exact ⟨_, rfl, Grpc.NodeVersionInfo.toDomain_ofDomain d⟩

theorem exists_document (hc : k.Carriable options d) (hy : k.HasPlainYears d) :
    ∃ w : k.forms.Document, Carries.write options d = .ok w ∧
      Carries.read options w = .ok (k.readBy options d) := by
  cases k with
  | blockHeader => exact ⟨_, rfl, Rest.BlockHeader.toDomain_ofDomain hy⟩
  | collectionGuarantee => exact ⟨_, rfl, Rest.CollectionGuarantee.toDomain_ofDomain d⟩
  | blockSeal => exact ⟨_, rfl, Rest.BlockSeal.toDomain_ofDomain d⟩
  | block => exact ⟨_, rfl, Rest.Block.toDomain_ofDomain hy⟩
  | collection => exact ⟨_, rfl, Rest.Collection.toDomain_ofDomain d⟩
  | proposalKey => exact ⟨_, rfl, Rest.ProposalKey.toDomain_ofDomain d⟩
  | signature => exact ⟨_, rfl, Rest.Signature.toDomain_ofDomain d⟩
  | transaction => exact ⟨_, rfl, Rest.Transaction.toDomain_ofDomain d⟩
  | transactionResult => exact Rest.TransactionResult.exists_ofDomain hc.1 hc.2
  | accountKey => exact ⟨_, rfl, Rest.AccountKey.toDomain_ofDomain d⟩
  | account => exact ⟨_, rfl, Rest.Account.toDomain_ofDomain d⟩
  | event => exact Rest.Event.exists_ofDomain hc
  | blockEvents => exact Rest.BlockEvents.exists_ofDomain hy hc
  | chunk => exact ⟨_, rfl, Rest.Chunk.toDomain_ofDomain d⟩
  | serviceEvent => exact ⟨_, rfl, Rest.Event.toServiceEvent_ofServiceEvent d⟩
  | executionResult => exact ⟨_, rfl, Rest.ExecutionResult.toDomain_ofDomain hc⟩
  | nodeVersionInfo => exact ⟨_, rfl, Rest.NodeVersionInfo.toDomain_ofDomain d⟩

theorem received_readBy (d : k.Value) : k.received (k.readBy options d) = k.received d := by
  cases k with
  | event => exact Event.received_readBy options d
  | blockEvents => exact BlockEvents.received_readBy options d
  | transactionResult => exact TransactionResult.received_readBy options d
  | _ => rfl

/-- Neither wire loses anything. What is written is read as it was, from the bytes (of which there
are fewer than `2 ^ 64`, as of any) and from the text, so that both wires agree. -/
theorem read_back_from_both_wires (options : CodecOptions) (k : Entity) (d : k.Value)
    (hc : k.Carriable options d) :
    (k.HasNarrowNumbers d → ∃ bytes, k.toProtobuf options d = .ok bytes ∧
      (bytes.length < 2 ^ 64 →
        k.ofProtobuf? options bytes = some (.ok (k.readBy options d)))) ∧
    (k.HasPlainYears d → ∃ text, k.toText options d = .ok text ∧
      k.ofText? options text = some (.ok (k.readBy options d))) ∧
    k.received (k.readBy options d) = k.received d :=
  ⟨fun hn => Grpc.exists_serialize k.forms.levels_le (exists_message hc hn),
    fun hy => Rest.exists_serialize (exists_document hc hy), received_readBy d⟩

/-- An event of a block in the last leap second of 2016, with a payload that is to be decoded. -/
def leapSecondEvents : BlockEvents where
  blockId := .ofNat 32 9
  height := 12
  timestamp := ⟨1483228799, 1500000000, by decide⟩
  events :=
    [{ eventType := "A.0000000000000001.Token.Minted", transactionId := .ofNat 32 7
       transactionIndex := 1, eventIndex := 2, encoding := .ccf
       payload := [0xD8, 0x82, 0x82, 0xD8, 0x89, 0x00, 0xF5] }]

theorem read_back_from_both_wires_leap_second :
    blockEvents.Carriable {} leapSecondEvents ∧ blockEvents.HasNarrowNumbers leapSecondEvents ∧
      blockEvents.HasPlainYears leapSecondEvents ∧
      ∃ bytes text, blockEvents.toProtobuf {} leapSecondEvents = .ok bytes ∧
        blockEvents.ofProtobuf? {} bytes = some (.ok (blockEvents.readBy {} leapSecondEvents)) ∧
        blockEvents.toText {} leapSecondEvents = .ok text ∧
        blockEvents.ofText? {} text = some (.ok (blockEvents.readBy {} leapSecondEvents)) := by
  have hc : blockEvents.Carriable {} leapSecondEvents := by
    intro e he
    cases List.mem_singleton.1 he
    have hv : (Encoding.ccf.decode {} [0xD8, 0x82, 0x82, 0xD8, 0x89, 0x00, 0xF5]).toBool = true :=
      by decide +kernel
    refine ⟨rfl, fun _ => ?_⟩
    cases h : Encoding.ccf.decode {} [0xD8, 0x82, 0x82, 0xD8, 0x89, 0x00, 0xF5] with
    | ok v => exact ⟨v, rfl⟩
    | error e =>
      rw [h] at hv
      cases hv
  have hy : blockEvents.HasPlainYears leapSecondEvents := by
    show Timestamp.HasPlainYear _
    decide
  have hlength : ∀ bytes, blockEvents.toProtobuf {} leapSecondEvents = .ok bytes →
      bytes.length < 2 ^ 64 := by
    have hl : (blockEvents.toProtobuf {} leapSecondEvents).toOption.all
        (·.length < 2 ^ 64) = true := by decide +kernel
    intro bytes h
    rw [h] at hl
    exact of_decide_eq_true hl
  obtain ⟨hbytes, htext, -⟩ := read_back_from_both_wires {} blockEvents leapSecondEvents hc
  obtain ⟨bytes, hw, hr⟩ := hbytes trivial
  obtain ⟨text, hw', hr'⟩ := htext hy
  exact ⟨hc, trivial, hy, bytes, text, hw, hr (hlength bytes hw), hw', hr'⟩

end Entity
end FlowAccess
