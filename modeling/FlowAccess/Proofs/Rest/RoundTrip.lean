import FlowAccess.Proofs.Rest.Documents
import FlowAccess.Proofs.Scalars

/-!
# Domain values read back from documents

What a domain value is written as is read as the same value: points in time if their years have
four digits, events if they are readable, and the chunks of a result if they stand in order.
-/

namespace FlowAccess.Rest

open Text

/-! ## Blocks and collections -/

theorem BlockHeader.toDomain_ofDomain {h : FlowAccess.BlockHeader} (ht : h.timestamp.HasPlainYear) :
    (ofDomain h).toDomain = .ok h := by
  simp only [ofDomain, toDomain, numeral, Scalar.hexIdentifier_hex, Scalar.uint64_numeral,
    Scalar.timestamp_format ht]
  rfl

theorem CollectionGuarantee.toDomain_ofDomain (g : FlowAccess.CollectionGuarantee) :
    (ofDomain g).toDomain = .ok g := by
  simp only [ofDomain, toDomain, Scalar.hexIdentifier_hex]
  rfl

theorem BlockSeal.toDomain_ofDomain (s : FlowAccess.BlockSeal) : (ofDomain s).toDomain = .ok s := by
  simp only [ofDomain, toDomain, Scalar.hexIdentifier_hex]
  rfl

theorem Block.toDomain_ofDomain {b : FlowAccess.Block} (ht : b.header.timestamp.HasPlainYear) :
    (ofDomain b).toDomain = .ok b := by
  simp only [ofDomain, toDomain, Option.getD_some, BlockHeader.toDomain_ofDomain ht,
    decodeList_map CollectionGuarantee.toDomain_ofDomain,
    decodeList_map BlockSeal.toDomain_ofDomain]
  rfl

theorem Collection.toDomain_ofDomain (c : FlowAccess.Collection) :
    (ofDomain c).toDomain = .ok c := by
  have hts : decodeList "transactions"
      (fun t : CollectionTransaction => Scalar.hexIdentifier "transactions.id" t.id)
      (c.transactionIds.map fun id => { id := id.hex }) = .ok c.transactionIds := by
    refine decodeList_map (fun id => ?_) c.transactionIds
    exact Scalar.hexIdentifier_hex id
  simp only [ofDomain, toDomain, hts]
  rfl

/-! ## Transactions and events -/

theorem ProposalKey.toDomain_ofDomain (k : FlowAccess.ProposalKey) :
    (ofDomain k).toDomain = .ok k := by
  simp only [ofDomain, toDomain, numeral, Scalar.hexAddress_hex, Scalar.uint32_numeral,
    Scalar.uint64_numeral]
  rfl

theorem Signature.toDomain_ofDomain (s : FlowAccess.Signature) : (ofDomain s).toDomain = .ok s := by
  simp only [ofDomain, toDomain, numeral, Scalar.hexAddress_hex, Scalar.uint32_numeral,
    Scalar.base64Bytes_encode]
  rfl

theorem Transaction.toDomain_ofDomain (t : FlowAccess.Transaction) :
    (ofDomain t).toDomain = .ok t := by
  simp only [ofDomain, toDomain, numeral, ProposalKey.toDomain_ofDomain, Scalar.base64Bytes_encode,
    Scalar.hexIdentifierOrEmpty_hex, Scalar.uint64_numeral, Scalar.hexAddress_hex,
    decodeList_map Scalar.base64Bytes_encode, decodeList_map Scalar.hexAddress_hex,
    decodeList_map Signature.toDomain_ofDomain]
  rfl

/-- An event in the encoding of the wire is written as it is, and read under the options of the
reader. -/
theorem Event.exists_ofDomain_of_encoding {sent : CodecOptions} {e : FlowAccess.Event}
    (h : e.encoding = sent.encoding) :
    ∃ d, ofDomain sent e = .ok d ∧ ∀ options, d.toDomain options =
      options.event e.eventType e.transactionId e.transactionIndex e.eventIndex e.payload := by
  refine ⟨⟨e.eventType, e.transactionId.hex, numeral e.transactionIndex.toNat,
    numeral e.eventIndex.toNat, Base64.encode e.payload⟩, ?_, fun options => ?_⟩
  · rw [ofDomain, e.payloadIn_self h]
    rfl
  · simp only [toDomain, numeral, Scalar.hexIdentifier_hex, Scalar.uint32_numeral,
      Scalar.base64Bytes_encode]
    rfl

theorem Event.exists_ofDomain {options : CodecOptions} {e : FlowAccess.Event}
    (h : e.Readable options) :
    ∃ d, ofDomain options e = .ok d ∧ d.toDomain options = .ok (e.readBy options) := by
  obtain ⟨d, hd, hr⟩ := exists_ofDomain_of_encoding h.1
  exact ⟨d, hd, (hr options).trans (CodecOptions.event_eq h)⟩

theorem Event.exists_mapM_ofDomain {options : CodecOptions} {events : List FlowAccess.Event}
    (h : ∀ e ∈ events, e.Readable options) (list : String) :
    ∃ ds, events.mapM (ofDomain options) = .ok ds ∧
      decodeList list (toDomain options) ds = .ok (events.map (.readBy options)) :=
  exists_mapM_decodeList fun e he => exists_ofDomain (h e he)

theorem BlockEvents.exists_ofDomain {options : CodecOptions} {b : FlowAccess.BlockEvents}
    (ht : b.timestamp.HasPlainYear) (h : ∀ e ∈ b.events, e.Readable options) :
    ∃ d, ofDomain options b = .ok d ∧ d.toDomain options = .ok (b.readBy options) := by
  obtain ⟨ds, hds, hes⟩ := Event.exists_mapM_ofDomain h "events"
  refine ⟨⟨b.blockId.hex, numeral b.height.toNat, b.timestamp.format, ds⟩, ?_, ?_⟩
  · rw [ofDomain, hds]
    rfl
  · simp only [toDomain, numeral, Scalar.hexIdentifier_hex, Scalar.uint64_numeral,
      Scalar.timestamp_format ht, hes]
    rfl

theorem TransactionResult.exists_ofDomain {options : CodecOptions}
    {r : FlowAccess.TransactionResult} (he : r.error ≠ some "")
    (h : ∀ e ∈ r.events, e.Readable options) :
    ∃ d, ofDomain options r = .ok d ∧ d.toDomain options = .ok (r.readBy options) := by
  obtain ⟨ds, hds, hes⟩ := Event.exists_mapM_ofDomain h "events"
  refine ⟨⟨r.blockId.hex, r.collectionId.hex, some (executionWord r), r.status.name, r.statusCode,
    r.error.getD "", numeral r.computationUsed.toNat, ds⟩, ?_, ?_⟩
  · rw [ofDomain, hds]
    rfl
  · simp only [toDomain, numeral, Numeral.ofNat_ne_empty, if_false, Scalar.uint64_numeral,
      TransactionStatus.ofName?_name, Scalar.hexIdentifierOrEmpty_hex, hes, error_getD he]
    rfl

/-! ## Accounts -/

theorem AccountKey.toDomain_ofDomain (k : FlowAccess.AccountKey) :
    (ofDomain k).toDomain = .ok k := by
  simp only [ofDomain, toDomain, numeral, Scalar.uint32_numeral, Scalar.hexBytes_marked,
    SignatureAlgorithm.ofName?_name, HashAlgorithm.ofName?_name, Scalar.uint64_numeral]
  rfl

theorem Account.mapM_contract (cs : Contracts Bytes) :
    (cs.map Base64.encode).entries.mapM contract = .ok cs.entries :=
  mapM_map_eq_pure fun e _ => by
    rw [contract, Scalar.base64Bytes_encode]
    rfl

theorem Account.toDomain_ofDomain (a : FlowAccess.Account) : (ofDomain a).toDomain = .ok a := by
  simp only [ofDomain, toDomain, numeral, mapM_contract, Scalar.hexAddress_hex,
    Scalar.uint64_numeral, decodeList_map AccountKey.toDomain_ofDomain]
  exact congrArg Except.ok (by rw [Contracts.ofList_entries])

/-! ## Execution results and nodes -/

theorem Event.toServiceEvent_ofServiceEvent (e : ServiceEvent) :
    (ofServiceEvent e).toServiceEvent = .ok e := by
  simp only [ofServiceEvent, toServiceEvent, Scalar.base64Bytes_encode]
  rfl

theorem Chunk.toDomain_ofDomain (c : FlowAccess.Chunk) : (ofDomain c).toDomain = .ok c := by
  simp only [ofDomain, toDomain, numeral, Scalar.uint32_numeral, Scalar.hexIdentifier_hex,
    Scalar.uint64_numeral]
  rfl

theorem ExecutionResult.toDomain_ofDomain {r : FlowAccess.ExecutionResult} (h : r.InOrder) :
    (ofDomain r).toDomain = .ok r := by
  simp only [ofDomain, toDomain, Scalar.hexIdentifier_hex, decodeList_map Chunk.toDomain_ofDomain,
    decodeList_map Event.toServiceEvent_ofServiceEvent]
  exact ExecutionResult.checkChunks_eq h

theorem NodeVersionInfo.toDomain_ofDomain (i : FlowAccess.NodeVersionInfo) :
    (ofDomain i).toDomain = .ok i := by
  simp only [ofDomain, toDomain, numeral, Scalar.hexIdentifierOrEmpty_hex, Scalar.uint64_numeral]
  rfl

end FlowAccess.Rest
