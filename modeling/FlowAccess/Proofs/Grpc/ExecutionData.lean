import FlowAccess.Proofs.Crossing
import FlowAccess.Proofs.Event.Holders

/-!
# Execution data as messages

Execution data is lists in lists: chunks, with their transactions, events and written registers, and
the parts of the registers' keys.
-/

namespace FlowAccess.Grpc

variable {options : CodecOptions}

/-! ## Values read back -/

theorem KeyPart.toDomain_ofDomain (p : FlowAccess.KeyPart) : (ofDomain p).toDomain = .ok p := by
  have hlt : p.type.toUInt32.toNat < UInt16.size := by
    rw [UInt16.toNat_toUInt32]
    exact p.type.toNat_lt
  simp only [toDomain, ofDomain, if_pos hlt, UInt16.toUInt16_toUInt32]

theorem Payload.toDomain_ofDomain (p : FlowAccess.Payload) : (ofDomain p).toDomain = .ok p := by
  simp only [ofDomain, toDomain, decodeList_map KeyPart.toDomain_ofDomain]
  rfl

theorem TrieUpdate.toDomain_ofDomain (u : FlowAccess.TrieUpdate) :
    (ofDomain u).toDomain = .ok u := by
  simp only [ofDomain, toDomain, decodeList_map Payload.toDomain_ofDomain]
  rfl

theorem TrieUpdate.mapM_toDomain_ofDomain (u : Option FlowAccess.TrieUpdate) :
    (u.map ofDomain).mapM toDomain = .ok u := by
  cases u with
  | none => rfl
  | some u =>
    rw [Option.map_some, Option.mapM_some, toDomain_ofDomain]
    rfl

theorem LightResult.toDomain_ofDomain (r : FlowAccess.LightResult) :
    (ofDomain r).toDomain = .ok r := by
  simp only [ofDomain, toDomain, Scalar.identifier_bytes]
  rfl

theorem ChunkExecutionData.exists_ofDomain {c : FlowAccess.ChunkExecutionData}
    (h : HoldsEvents.Readable options c) :
    ∃ m, ofDomain options c = .ok m ∧
      m.toDomain options = .ok (HoldsEvents.readBy options c) := by
  have hevents : ∀ e ∈ c.events, e.Readable options := by
    rw [← HoldsEvents.events_chunk]
    exact h
  obtain ⟨ms, hms, hes⟩ := Event.exists_mapM_ofDomain hevents "events"
  refine ⟨⟨some ⟨c.transactions.map .ofDomain⟩, ms, c.trieUpdate.map .ofDomain,
    c.transactionResults.map .ofDomain⟩, ?_, ?_⟩
  · rw [ofDomain, hms]
    rfl
  · simp only [toDomain, decodeList_map Transaction.toDomain_ofDomain, hes,
      TrieUpdate.mapM_toDomain_ofDomain, decodeList_map LightResult.toDomain_ofDomain]
    rfl

theorem ExecutionData.exists_ofDomain {d : FlowAccess.ExecutionData}
    (h : HoldsEvents.Readable options d) :
    ∃ m, ofDomain options d = .ok m ∧
      m.toDomain options = .ok (HoldsEvents.readBy options d) := by
  obtain ⟨ms, hms, hcs⟩ : ∃ ms, d.chunks.mapM (ChunkExecutionData.ofDomain options) = .ok ms ∧
      decodeList "chunk_execution_data" (ChunkExecutionData.toDomain options) ms =
        .ok (d.chunks.map (HoldsEvents.readBy options)) :=
    exists_mapM_decodeList fun c hc => ChunkExecutionData.exists_ofDomain fun e he =>
      h e (List.mem_flatMap.2 ⟨c, hc, he⟩)
  refine ⟨⟨d.blockId.bytes, ms⟩, ?_, ?_⟩
  · rw [ofDomain, hms]
    rfl
  · simp only [toDomain, Scalar.identifier_bytes, hcs]
    rfl

theorem SubscribedExecutionData.exists_ofDomain {d : FlowAccess.ExecutionDataAt}
    (h : HoldsEvents.Readable options d) :
    ∃ m, ofDomain options d = .ok m ∧
      m.toDomain options = .ok (HoldsEvents.readBy options d) := by
  obtain ⟨m, hm, hd⟩ := ExecutionData.exists_ofDomain (d := d.data) h
  refine ⟨⟨d.height, some m, some (.ofDomain d.timestamp)⟩, ?_, ?_⟩
  · rw [ofDomain, hm]
    rfl
  · simp only [toDomain, Timestamp.toDomain_ofDomain, hd]
    rfl

/-! ## Values that were read -/

theorem ChunkExecutionData.readable_of_toDomain {m : ChunkExecutionData}
    {c : FlowAccess.ChunkExecutionData} (h : m.toDomain options = .ok c) :
    ∀ e ∈ HoldsEvents.events c, e.Readable options ∧ e.readBy options = e := by
  obtain ⟨_, -, h⟩ := ok_of_bind_ok h
  obtain ⟨_, hes, h⟩ := ok_of_bind_ok h
  obtain ⟨_, -, h⟩ := ok_of_bind_ok h
  obtain ⟨_, -, h⟩ := ok_of_bind_ok h
  cases h
  intro e he
  rw [HoldsEvents.events_chunk] at he
  obtain ⟨_, -, he⟩ := mem_of_decodeList hes he
  exact Event.readable_of_toDomain he

theorem ExecutionData.readable_of_toDomain {m : ExecutionData} {d : FlowAccess.ExecutionData}
    (h : m.toDomain options = .ok d) :
    ∀ e ∈ HoldsEvents.events d, e.Readable options ∧ e.readBy options = e := by
  obtain ⟨_, -, h⟩ := ok_of_bind_ok h
  obtain ⟨_, hcs, h⟩ := ok_of_bind_ok h
  cases h
  intro e he
  obtain ⟨c, hc, he⟩ := List.mem_flatMap.1 he
  obtain ⟨_, -, hc⟩ := mem_of_decodeList hcs hc
  exact ChunkExecutionData.readable_of_toDomain hc e he

/-! ## The types of key parts -/

def Payload.keyPartTypes (m : Payload) : List UInt32 := m.keyPart.map (·.type)

def TrieUpdate.keyPartTypes (m : TrieUpdate) : List UInt32 := m.payloads.flatMap (·.keyPartTypes)

def ChunkExecutionData.keyPartTypes (m : ChunkExecutionData) : List UInt32 :=
  m.trieUpdate.toList.flatMap (·.keyPartTypes)

def ExecutionData.keyPartTypes (m : ExecutionData) : List UInt32 :=
  m.chunks.flatMap (·.keyPartTypes)

/-- All of the types have 16 bits. -/
def Narrow (types : List UInt32) : Prop := ∀ t ∈ types, t.toNat < UInt16.size

instance (types : List UInt32) : Decidable (Narrow types) :=
  List.decidableBAll _ types

/-- The error is that one of the types has more than 16 bits. -/
def OverflowsAt (types : List UInt32) (e : DecodingError) : Prop :=
  ∃ t ∈ types, UInt16.size ≤ t.toNat ∧
    e.root = .overflow "key_part.type" t.toNat (UInt16.size - 1)

theorem Payload.narrow_of_toDomain {m : Payload} {p : FlowAccess.Payload}
    (h : m.toDomain = .ok p) : Narrow m.keyPartTypes := by
  obtain ⟨_, hps, -⟩ := ok_of_bind_ok h
  intro t ht
  obtain ⟨part, hpart, rfl⟩ := List.mem_map.1 ht
  obtain ⟨_, -, h⟩ := exists_of_decodeList hps hpart
  by_contra hwide
  rw [KeyPart.toDomain, if_neg hwide] at h
  cases h

theorem Payload.overflowsAt_of_toDomain {m : Payload} {e : DecodingError}
    (h : m.toDomain = .error e) : OverflowsAt m.keyPartTypes e := by
  cases hps : decodeList "key_part" KeyPart.toDomain m.keyPart with
  | ok ps =>
    rw [toDomain, hps] at h
    cases h
  | error e' =>
    rw [toDomain, hps] at h
    cases h
    obtain ⟨part, hpart, _, e', he, rfl⟩ := exists_of_decodeList_eq_error hps
    rw [KeyPart.toDomain] at he
    split at he
    · cases he
    · rename_i hwide
      cases he
      exact ⟨part.type, List.mem_map_of_mem hpart, Nat.le_of_not_lt hwide, rfl⟩

theorem TrieUpdate.narrow_of_toDomain {m : TrieUpdate} {u : FlowAccess.TrieUpdate}
    (h : m.toDomain = .ok u) : Narrow m.keyPartTypes := by
  obtain ⟨_, hps, -⟩ := ok_of_bind_ok h
  intro t ht
  obtain ⟨payload, hpayload, ht⟩ := List.mem_flatMap.1 ht
  obtain ⟨_, -, h⟩ := exists_of_decodeList hps hpayload
  exact Payload.narrow_of_toDomain h t ht

theorem TrieUpdate.overflowsAt_of_toDomain {m : TrieUpdate} {e : DecodingError}
    (h : m.toDomain = .error e) : OverflowsAt m.keyPartTypes e := by
  cases hps : decodeList "payloads" Payload.toDomain m.payloads with
  | ok ps =>
    rw [toDomain, hps] at h
    cases h
  | error e' =>
    rw [toDomain, hps] at h
    cases h
    obtain ⟨payload, hpayload, _, e', he, rfl⟩ := exists_of_decodeList_eq_error hps
    obtain ⟨t, ht, hwide, hroot⟩ := Payload.overflowsAt_of_toDomain he
    exact ⟨t, List.mem_flatMap.2 ⟨payload, hpayload, ht⟩, hwide, hroot⟩

theorem ChunkExecutionData.narrow_of_toDomain {m : ChunkExecutionData}
    {c : FlowAccess.ChunkExecutionData} (h : m.toDomain options = .ok c) :
    Narrow m.keyPartTypes := by
  obtain ⟨_, -, h⟩ := ok_of_bind_ok h
  obtain ⟨_, -, h⟩ := ok_of_bind_ok h
  obtain ⟨_, hu, -⟩ := ok_of_bind_ok h
  intro t ht
  obtain ⟨update, hupdate, ht⟩ := List.mem_flatMap.1 ht
  rw [Option.mem_toList.1 hupdate, Option.mapM_some] at hu
  obtain ⟨_, hu, -⟩ := ok_of_bind_ok (Place.mark_eq_ok_iff.1 hu)
  exact TrieUpdate.narrow_of_toDomain hu t ht

theorem ExecutionData.narrow_of_toDomain {m : ExecutionData} {d : FlowAccess.ExecutionData}
    (h : m.toDomain options = .ok d) : Narrow m.keyPartTypes := by
  obtain ⟨_, -, h⟩ := ok_of_bind_ok h
  obtain ⟨_, hcs, -⟩ := ok_of_bind_ok h
  intro t ht
  obtain ⟨chunk, hchunk, ht⟩ := List.mem_flatMap.1 ht
  obtain ⟨_, -, h⟩ := exists_of_decodeList hcs hchunk
  exact ChunkExecutionData.narrow_of_toDomain h t ht

/-- The chunk as far as it is read before its written registers are. -/
def ChunkExecutionData.upToTrieUpdate (m : ChunkExecutionData) : ChunkExecutionData :=
  { m with trieUpdate := none, transactionResults := [] }

/-- A chunk with a type that is too wide is refused for one, or for what is read before. -/
theorem ChunkExecutionData.exists_error_of_not_narrow {m : ChunkExecutionData}
    (h : ¬Narrow m.keyPartTypes) : ∃ e, m.toDomain options = .error e ∧
      (OverflowsAt m.keyPartTypes e ∨ m.upToTrieUpdate.toDomain options = .error e) := by
  simp only [toDomain, upToTrieUpdate]
  cases decodeList "transactions" Transaction.toDomain _ with
  | error e => exact ⟨e, rfl, .inr rfl⟩
  | ok transactions =>
    cases decodeList "events" (Event.toDomain options) m.events with
    | error e => exact ⟨e, rfl, .inr rfl⟩
    | ok events =>
      cases hm : m.trieUpdate with
      | none => exact absurd (by simp [Narrow, keyPartTypes, hm]) h
      | some update =>
        have htypes : m.keyPartTypes = update.keyPartTypes := by simp [keyPartTypes, hm]
        rw [htypes] at h ⊢
        cases hu : update.toDomain with
        | ok u => exact absurd (TrieUpdate.narrow_of_toDomain hu) h
        | error e =>
          obtain ⟨t, ht, hwide, hroot⟩ := TrieUpdate.overflowsAt_of_toDomain hu
          refine ⟨.within (.part "trie_update") e, ?_, .inl ⟨t, ht, hwide, hroot⟩⟩
          rw [Option.mapM_some, hu]
          rfl

/-- The message as far as it is read before the written registers of a chunk are. -/
def ExecutionData.upToTrieUpdate (m : ExecutionData) (before : List ChunkExecutionData)
    (chunk : ChunkExecutionData) : ExecutionData :=
  { m with chunks := before ++ [chunk.upToTrieUpdate] }

theorem ExecutionData.exists_error_of_chunk {m : ExecutionData}
    {before after : List ChunkExecutionData} {chunk : ChunkExecutionData}
    (hm : m.chunks = before ++ chunk :: after) (h : ¬Narrow chunk.keyPartTypes) :
    ∃ e, m.toDomain options = .error e ∧ (OverflowsAt chunk.keyPartTypes e ∨
      (m.upToTrieUpdate before chunk).toDomain options = .error e) := by
  simp only [toDomain, upToTrieUpdate, hm, decodeList, decodeListFrom_append]
  cases Scalar.identifier "block_id" m.blockId with
  | error e => exact ⟨e, rfl, .inr rfl⟩
  | ok blockId =>
    cases decodeListFrom "chunk_execution_data" (ChunkExecutionData.toDomain options) 0 before with
    | error e => exact ⟨e, rfl, .inr rfl⟩
    | ok chunks =>
      obtain ⟨e, he, hcause⟩ : ∃ e, chunk.toDomain options = .error e ∧ _ :=
        ChunkExecutionData.exists_error_of_not_narrow h
      refine ⟨.within (.item "chunk_execution_data" (0 + before.length)) e, ?_,
        hcause.imp id fun hc => ?_⟩
      · rw [decodeListFrom, he]
        rfl
      · rw [decodeListFrom, hc]
        rfl

/-- A message with a type that is too wide is refused for one in the first chunk that has any, or
for what is read before. -/
theorem ExecutionData.exists_error_of_not_narrow {m : ExecutionData} (h : ¬Narrow m.keyPartTypes) :
    ∃ e, m.toDomain options = .error e ∧ ∃ before chunk after,
      m.chunks = before ++ chunk :: after ∧ (∀ c ∈ before, Narrow c.keyPartTypes) ∧
        (OverflowsAt chunk.keyPartTypes e ∨
          (m.upToTrieUpdate before chunk).toDomain options = .error e) := by
  cases hfind : m.chunks.find? fun c => ¬Narrow c.keyPartTypes with
  | none =>
    refine absurd (fun t ht => ?_) h
    obtain ⟨c, hc, ht⟩ := List.mem_flatMap.1 ht
    have hnarrow : Narrow c.keyPartTypes := by simpa using List.find?_eq_none.1 hfind c hc
    exact hnarrow t ht
  | some chunk =>
    obtain ⟨hchunk, before, after, hm, hbefore⟩ := List.find?_eq_some_iff_append.1 hfind
    obtain ⟨e, he, hcause⟩ := exists_error_of_chunk hm (by simpa using hchunk)
    exact ⟨e, he, before, chunk, after, hm, by simpa using hbefore, hcause⟩

end FlowAccess.Grpc

namespace FlowAccess

/-! ## Entities -/

/-- The kinds of values that only messages carry. -/
inductive StreamedEntity where
  | executionDataAt
  | executionData
  | chunkExecutionData
  | trieUpdate
  | payload
  | keyPart
  | lightResult
  deriving DecidableEq

namespace StreamedEntity

/-- A type of values, and the message that carries them. -/
structure Forms where
  Value : Type
  Message : Type
  {levels : Nat}
  [holdsEvents : HoldsEvents Value]
  [isMessage : Protobuf.Message Message]
  [lawfulMessage : Protobuf.LawfulMessage Message levels]
  [carries : Carries Message Value]

attribute [instance] Forms.holdsEvents Forms.isMessage Forms.lawfulMessage Forms.carries

def forms : StreamedEntity → Forms
  | executionDataAt => .mk ExecutionDataAt Grpc.SubscribedExecutionData
  | executionData => .mk ExecutionData Grpc.ExecutionData
  | chunkExecutionData => .mk ChunkExecutionData Grpc.ChunkExecutionData
  | trieUpdate => .mk TrieUpdate Grpc.TrieUpdate
  | payload => .mk Payload Grpc.Payload
  | keyPart => .mk KeyPart Grpc.KeyPart
  | lightResult => .mk LightResult Grpc.LightResult

/-- The values of a kind. -/
abbrev Value (k : StreamedEntity) : Type := k.forms.Value

theorem levels_le (k : StreamedEntity) : k.forms.levels ≤ Protobuf.maxNesting := by
  cases k <;> decide

variable {k : StreamedEntity} {options : CodecOptions} {d : k.Value}

theorem exists_message (h : HoldsEvents.Readable options d) :
    ∃ m : k.forms.Message, Carries.write options d = .ok m ∧
      Carries.read options m = .ok (HoldsEvents.readBy options d) := by
  cases k with
  | executionDataAt => exact Grpc.SubscribedExecutionData.exists_ofDomain h
  | executionData => exact Grpc.ExecutionData.exists_ofDomain h
  | chunkExecutionData => exact Grpc.ChunkExecutionData.exists_ofDomain h
  | trieUpdate => exact ⟨_, rfl, Grpc.TrieUpdate.toDomain_ofDomain d⟩
  | payload => exact ⟨_, rfl, Grpc.Payload.toDomain_ofDomain d⟩
  | keyPart => exact ⟨_, rfl, Grpc.KeyPart.toDomain_ofDomain d⟩
  | lightResult => exact ⟨_, rfl, Grpc.LightResult.toDomain_ofDomain d⟩

/-- Execution data is read back from the message that is written of it. What is read of a message is
read back too, and the types of its key parts had 16 bits all; a message with a wider type is
refused for that, unless something in front of it is refused first. -/
theorem read_back_from_messages (options : CodecOptions) :
    (∀ (k : StreamedEntity) (d : k.Value), HoldsEvents.Readable options d →
      ∃ m : k.forms.Message, Carries.write options d = .ok m ∧
        Carries.read options m = .ok (HoldsEvents.readBy options d) ∧
        HoldsEvents.received (HoldsEvents.readBy options d) = HoldsEvents.received d ∧
        ((Protobuf.encode m).length < 2 ^ 64 →
          Protobuf.decode? (Protobuf.encode m) = some m)) ∧
    (∀ (m : Grpc.ExecutionData) (d : ExecutionData), Carries.read options m = .ok d →
      Grpc.Narrow m.keyPartTypes ∧ ∃ m' : Grpc.ExecutionData,
        Carries.write options d = .ok m' ∧ Carries.read options m' = .ok d) ∧
    ∀ m : Grpc.ExecutionData, ¬Grpc.Narrow m.keyPartTypes →
      ∃ e, (Carries.read options m : Except DecodingError ExecutionData) = .error e ∧
        ∃ before chunk after, m.chunks = before ++ chunk :: after ∧
          (∀ c ∈ before, Grpc.Narrow c.keyPartTypes) ∧
          (Grpc.OverflowsAt chunk.keyPartTypes e ∨
            (Carries.read options (m.upToTrieUpdate before chunk) :
              Except DecodingError ExecutionData) = .error e) := by
  refine ⟨fun k d hr => ?_, fun m d h => ⟨Grpc.ExecutionData.narrow_of_toDomain h, ?_⟩,
    fun m => Grpc.ExecutionData.exists_error_of_not_narrow⟩
  · obtain ⟨m, hw, hm⟩ := exists_message hr
    exact ⟨m, hw, hm, HoldsEvents.received_readBy options d,
      Protobuf.decode?_encode (levels_le k)⟩
  · have hread := Grpc.ExecutionData.readable_of_toDomain h
    obtain ⟨m', hw, hm⟩ := Grpc.ExecutionData.exists_ofDomain fun e he => (hread e he).1
    rw [HoldsEvents.readBy_eq_self fun e he => (hread e he).2] at hm
    exact ⟨m', hw, hm⟩

/-- The message of a chunk that has written one register, whose key has one part of the type. -/
def registerWrite (type : UInt32) : Grpc.ExecutionData where
  blockId := List.replicate 32 9
  chunks :=
    [{ trieUpdate := some { payloads := [{ keyPart := [{ type, value := [1] }], value := [2] }] } }]

/-- A chunk that has emitted an event and has written nothing. -/
def quietChunk : ChunkExecutionData where
  transactions := []
  events :=
    [{ eventType := "A.0000000000000001.Token.Paused", transactionId := .ofNat 32 7
       transactionIndex := 0, eventIndex := 0, encoding := .ccf
       payload := [0xD8, 0x82, 0x82, 0xD8, 0x89, 0x00, 0xF5] }]
  trieUpdate := some ⟨[], [], []⟩
  transactionResults := [⟨.ofNat 32 7, false, 9⟩]

theorem read_back_from_messages_register :
    HoldsEvents.Readable {} quietChunk ∧
    (∃ m : Grpc.ChunkExecutionData, Carries.write {} quietChunk = .ok m ∧
      Carries.read {} m = .ok (HoldsEvents.readBy {} quietChunk)) ∧
    (∃ (d : ExecutionData) (m' : Grpc.ExecutionData),
      Carries.read {} (registerWrite 65535) = .ok d ∧ Carries.write {} d = .ok m' ∧
        Carries.read {} m' = .ok d) ∧
    ∃ e, (Carries.read {} (registerWrite 65536) : Except DecodingError ExecutionData) = .error e ∧
      e.message = "chunk_execution_data[0]: trie_update: payloads[0]: key_part[0]: " ++
        "key_part.type value 65536 exceeds 65535" := by
  obtain ⟨hwritten, hread, hrefused⟩ := read_back_from_messages {}
  have hreadable : HoldsEvents.Readable {} quietChunk := by
    intro e he
    cases List.mem_singleton.1 he
    have hv : (Encoding.ccf.decode {} [0xD8, 0x82, 0x82, 0xD8, 0x89, 0x00, 0xF5]).toOption =
      some (.bool true) := by decide +kernel
    exact ⟨rfl, fun _ => ⟨_, toOption_eq_some_iff.1 hv⟩⟩
  obtain ⟨m, hw, hm, -⟩ := hwritten chunkExecutionData quietChunk hreadable
  have hok : (Carries.read {} (registerWrite 65535) :
      Except DecodingError ExecutionData).toOption.isSome := by decide +kernel
  obtain ⟨d, hd⟩ := Option.isSome_iff_exists.1 hok
  have hd := toOption_eq_some_iff.1 hd
  obtain ⟨-, m', hw', hm'⟩ := hread (registerWrite 65535) d hd
  obtain ⟨e, he, -⟩ := hrefused (registerWrite 65536) (by decide)
  refine ⟨hreadable, ⟨m, hw, hm⟩, ⟨d, m', hd, hw', hm'⟩, e, he, ?_⟩
  cases he
  decide +kernel

end StreamedEntity
end FlowAccess
