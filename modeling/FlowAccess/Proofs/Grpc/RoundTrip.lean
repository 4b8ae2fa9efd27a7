import FlowAccess.Proofs.Codec
import FlowAccess.Proofs.Grpc.Messages
import FlowAccess.Proofs.Scalars

/-!
# Domain values read back from messages
-/

namespace FlowAccess.Grpc

/-! ## Blocks and collections -/

@[simp] theorem Timestamp.toDomain_ofDomain (field : String) (t : FlowAccess.Timestamp) :
    toDomain field (some (ofDomain t)) = .ok t := by
  obtain ⟨hmin, hmax, hnanos, -⟩ := t.valid
  rw [toDomain, ofDomain, Int64.toInt_ofInt_of_le (by omega) (by omega),
    Int32.toInt_ofInt_of_le (by omega) (by omega), Scalar.pointInTime_self]

theorem BlockHeader.toDomain_ofDomain (h : FlowAccess.BlockHeader) :
    (ofDomain h).toDomain = .ok h := by
  simp only [ofDomain, toDomain, Scalar.identifier_bytes, Timestamp.toDomain_ofDomain]
  rfl

theorem CollectionGuarantee.toDomain_ofDomain (g : FlowAccess.CollectionGuarantee) :
    (ofDomain g).toDomain = .ok g := by
  simp only [ofDomain, toDomain, Scalar.identifier_bytes]
  rfl

theorem BlockSeal.toDomain_ofDomain (s : FlowAccess.BlockSeal) : (ofDomain s).toDomain = .ok s := by
  simp only [ofDomain, toDomain, Scalar.identifier_bytes]
  rfl

theorem Block.toDomain_ofDomain (b : FlowAccess.Block) : (ofDomain b).toDomain = .ok b := by
  simp only [ofDomain, toDomain, Scalar.identifier_bytes, Timestamp.toDomain_ofDomain,
    decodeList_map CollectionGuarantee.toDomain_ofDomain,
    decodeList_map BlockSeal.toDomain_ofDomain]
  rfl

theorem Collection.toDomain_ofDomain (c : FlowAccess.Collection) :
    (ofDomain c).toDomain = .ok c := by
  simp only [ofDomain, toDomain, decodeList_map Scalar.identifier_bytes]
  rfl

/-! ## Transactions and events -/

theorem ProposalKey.toDomain_ofDomain (k : FlowAccess.ProposalKey) :
    (ofDomain k).toDomain = .ok k := by
  simp only [ofDomain, toDomain, Scalar.address_bytes]
  rfl

theorem Signature.toDomain_ofDomain (s : FlowAccess.Signature) : (ofDomain s).toDomain = .ok s := by
  simp only [ofDomain, toDomain, Scalar.address_bytes]
  rfl

theorem Transaction.toDomain_ofDomain (t : FlowAccess.Transaction) :
    (ofDomain t).toDomain = .ok t := by
  simp only [ofDomain, toDomain, ProposalKey.toDomain_ofDomain, Scalar.identifierOrEmpty_bytes,
    Scalar.address_bytes, decodeList_map Scalar.address_bytes,
    decodeList_map Signature.toDomain_ofDomain]
  rfl

/-- An event in the encoding of the wire is written as it is, and read under the options of the
reader. -/
theorem Event.exists_ofDomain_of_encoding {sent : CodecOptions} {e : FlowAccess.Event}
    (h : e.encoding = sent.encoding) :
    ∃ m, ofDomain sent e = .ok m ∧ ∀ options, m.toDomain options =
      options.event e.eventType e.transactionId e.transactionIndex e.eventIndex e.payload := by
  refine ⟨⟨e.eventType, e.transactionId.bytes, e.transactionIndex, e.eventIndex, e.payload⟩, ?_,
    fun options => ?_⟩
  · rw [ofDomain, e.payloadIn_self h]
    rfl
  · rw [toDomain, Scalar.identifier_bytes]
    rfl

theorem Event.exists_ofDomain {options : CodecOptions} {e : FlowAccess.Event}
    (h : e.Readable options) :
    ∃ m, ofDomain options e = .ok m ∧ m.toDomain options = .ok (e.readBy options) := by
  obtain ⟨m, hm, hr⟩ := exists_ofDomain_of_encoding h.1
  exact ⟨m, hm, (hr options).trans (CodecOptions.event_eq h)⟩

theorem Event.exists_mapM_ofDomain {options : CodecOptions} {events : List FlowAccess.Event}
    (h : ∀ e ∈ events, e.Readable options) (list : String) :
    ∃ ms, events.mapM (ofDomain options) = .ok ms ∧
      decodeList list (toDomain options) ms = .ok (events.map (.readBy options)) :=
  exists_mapM_decodeList fun e he => exists_ofDomain (h e he)

theorem BlockEvents.exists_ofDomain {options : CodecOptions} {b : FlowAccess.BlockEvents}
    (h : ∀ e ∈ b.events, e.Readable options) :
    ∃ m, ofDomain options b = .ok m ∧ m.toDomain options = .ok (b.readBy options) := by
  obtain ⟨ms, hms, hes⟩ := Event.exists_mapM_ofDomain h "events"
  refine ⟨⟨b.blockId.bytes, b.height, ms, some (.ofDomain b.timestamp)⟩, ?_, ?_⟩
  · rw [ofDomain, hms]
    rfl
  · simp only [toDomain, Scalar.identifier_bytes, Timestamp.toDomain_ofDomain, hes]
    rfl

/-- Codes have few bits. -/
@[simp] theorem toInt_ofInt_code (s : TransactionStatus) : (Int32.ofInt s.code).toInt = s.code := by
  cases s <;> rfl

theorem TransactionResult.exists_ofDomain {options : CodecOptions}
    {r : FlowAccess.TransactionResult} (he : r.error ≠ some "")
    (h : ∀ e ∈ r.events, e.Readable options) :
    ∃ m, ofDomain options r = .ok m ∧ m.toDomain options = .ok (r.readBy options) := by
  obtain ⟨ms, hms, hes⟩ := Event.exists_mapM_ofDomain h "events"
  refine ⟨⟨.ofInt r.status.code, r.statusCode, r.error.getD "", ms, r.blockId.bytes, [],
    r.collectionId.bytes, 0, r.computationUsed⟩, ?_, ?_⟩
  · rw [ofDomain, hms]
    rfl
  · simp only [toDomain, toInt_ofInt_code, TransactionStatus.ofCode?_code,
      Scalar.identifierOrEmpty_bytes, hes, error_getD he]
    rfl

/-! ## Accounts -/

theorem AccountKey.exists_ofDomain {k : FlowAccess.AccountKey}
    (h : k.sequenceNumber.toNat < UInt32.size) :
    ∃ m, ofDomain k = .ok m ∧ m.toDomain = .ok k := by
  have hs : (UInt32.ofNat k.signatureAlgorithm.code).toNat = k.signatureAlgorithm.code := by
    cases k.signatureAlgorithm <;> rfl
  have hh : (UInt32.ofNat k.hashAlgorithm.code).toNat = k.hashAlgorithm.code := by
    cases k.hashAlgorithm <;> rfl
  have hn : k.sequenceNumber.toUInt32.toUInt64 = k.sequenceNumber := by
    rw [← UInt64.toNat_inj, UInt32.toNat_toUInt64, UInt64.toNat_toUInt32]
    exact Nat.mod_eq_of_lt h
  refine ⟨⟨k.index, k.publicKey, .ofNat k.signatureAlgorithm.code, .ofNat k.hashAlgorithm.code,
    k.weight, k.sequenceNumber.toUInt32, k.revoked⟩, ?_, ?_⟩
  · rw [ofDomain, narrow_eq h]
    rfl
  · simp only [toDomain, hs, hh, SignatureAlgorithm.ofCode?_code, HashAlgorithm.ofCode?_code, hn]
    rfl

theorem Account.exists_ofDomain {a : FlowAccess.Account}
    (h : ∀ k ∈ a.keys, k.sequenceNumber.toNat < UInt32.size) :
    ∃ m, ofDomain a = .ok m ∧ m.toDomain = .ok a := by
  obtain ⟨ms, hms, hks⟩ : ∃ ms, a.keys.mapM AccountKey.ofDomain = .ok ms ∧
      decodeList "keys" AccountKey.toDomain ms = .ok (a.keys.map id) :=
    exists_mapM_decodeList fun k hk => AccountKey.exists_ofDomain (h k hk)
  have hcs : (a.contracts.entries.map fun e => (⟨e.1, e.2⟩ : ContractEntry)).map
      (fun e => (e.name, e.code)) = a.contracts.entries := by
    rw [List.map_map]
    exact List.map_id _
  refine ⟨⟨a.address.bytes, a.balance, [], ms,
    a.contracts.entries.map fun e => ⟨e.1, e.2⟩⟩, ?_, ?_⟩
  · rw [ofDomain, hms]
    rfl
  · simp only [toDomain, Scalar.address_bytes, hks, List.map_id, hcs, Contracts.ofList_entries]
    rfl

/-- The contracts of an account are a map on the wire. In which order they are listed does not
matter. -/
theorem Account.toDomain_perm {m : Account} {contracts : List ContractEntry}
    (hp : contracts.Perm m.contracts) (h : (m.contracts.map (·.name)).Nodup) :
    ({ m with contracts } : Account).toDomain = m.toDomain := by
  have hnames : (m.contracts.map fun e => (e.name, e.code)).map (·.1) = m.contracts.map (·.name) :=
    List.map_map
  have hsame : Contracts.ofList (contracts.map fun e => (e.name, e.code)) =
      .ofList (m.contracts.map fun e => (e.name, e.code)) :=
    Contracts.ofList_perm (hp.map _) (hnames ▸ h)
  simp only [toDomain, hsame]

/-- An account that is written is read in every order in which its contracts may be listed. -/
theorem Account.toDomain_perm_ofDomain {a : FlowAccess.Account} {m : Account}
    (hm : ofDomain a = .ok m) {contracts : List ContractEntry}
    (hp : contracts.Perm m.contracts) :
    ({ m with contracts } : Account).toDomain = m.toDomain := by
  refine toDomain_perm hp ?_
  obtain ⟨keys, -, hm⟩ := ok_of_bind_ok hm
  obtain rfl := Except.ok.inj hm
  have hnames : (a.contracts.entries.map fun e => (⟨e.1, e.2⟩ : ContractEntry)).map (·.name) =
      a.contracts.entries.map (·.1) := List.map_map
  exact hnames ▸ a.contracts.nodup_names

/-! ## Execution results and nodes -/

theorem Chunk.toDomain_ofDomain (c : FlowAccess.Chunk) : (ofDomain c).toDomain = .ok c := by
  simp only [ofDomain, toDomain, Scalar.identifier_bytes]
  rfl

theorem ExecutionResult.toDomain_ofDomain {r : FlowAccess.ExecutionResult} (h : r.InOrder) :
    (ofDomain r).toDomain = .ok r := by
  have hs : (r.serviceEvents.map ServiceEvent.ofDomain).map (·.toDomain) = r.serviceEvents := by
    rw [List.map_map]
    exact List.map_id _
  simp only [ofDomain, toDomain, Scalar.identifier_bytes, decodeList_map Chunk.toDomain_ofDomain,
    hs]
  exact ExecutionResult.checkChunks_eq h

theorem NodeVersionInfo.toDomain_ofDomain (i : FlowAccess.NodeVersionInfo) :
    (ofDomain i).toDomain = .ok i := by
  simp only [ofDomain, toDomain, Scalar.identifierOrEmpty_bytes]
  rfl

end FlowAccess.Grpc
