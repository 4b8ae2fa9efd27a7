import FlowAccess.Proofs.Wires

/-!
# From messages to documents

A value that was read from a message has what codecs ask of values (`Entity.carriable_of_read`), so
that it can be written as a document. It is read back from the document if its time is in a year of
four digits. Messages have times in other years too, and documents have a text for them, which is
not read (`Entity.read_written_document`).
-/

namespace FlowAccess

/-! ## Values that were read -/

namespace Grpc

variable {options : CodecOptions}

theorem Event.readable_of_toDomain {m : Event} {e : FlowAccess.Event}
    (h : m.toDomain options = .ok e) : e.Readable options ∧ e.readBy options = e := by
  obtain ⟨_, -, h⟩ := ok_of_bind_ok h
  exact CodecOptions.readable_of_event h

theorem Event.readable_of_decodeList {list : String} {ms : List Event}
    {events : List FlowAccess.Event} (h : decodeList list (toDomain options) ms = .ok events) :
    (∀ e ∈ events, e.Readable options) ∧ events.map (.readBy options) = events := by
  have hread : ∀ e ∈ events, e.Readable options ∧ e.readBy options = e := fun e he => by
    obtain ⟨m, -, hm⟩ := mem_of_decodeList h he
    exact readable_of_toDomain hm
  exact ⟨fun e he => (hread e he).1,
    (List.map_congr_left fun e he => (hread e he).2).trans (List.map_id _)⟩

theorem BlockEvents.readable_of_toDomain {m : BlockEvents} {b : FlowAccess.BlockEvents}
    (h : m.toDomain options = .ok b) :
    (∀ e ∈ b.events, e.Readable options) ∧ b.readBy options = b := by
  obtain ⟨_, -, h⟩ := ok_of_bind_ok h
  obtain ⟨_, -, h⟩ := ok_of_bind_ok h
  obtain ⟨events, hes, h⟩ := ok_of_bind_ok h
  cases h
  obtain ⟨hr, hm⟩ := Event.readable_of_decodeList hes
  exact ⟨hr, by rw [FlowAccess.BlockEvents.readBy, hm]⟩

theorem TransactionResult.readable_of_toDomain {m : TransactionResult}
    {r : FlowAccess.TransactionResult} (h : m.toDomain options = .ok r) :
    (r.error ≠ some "" ∧ ∀ e ∈ r.events, e.Readable options) ∧ r.readBy options = r := by
  unfold toDomain at h
  split at h
  · obtain ⟨events, hes, h⟩ := ok_of_bind_ok h
    obtain ⟨_, -, h⟩ := ok_of_bind_ok h
    obtain ⟨_, -, h⟩ := ok_of_bind_ok h
    cases h
    obtain ⟨hr, hm⟩ := Event.readable_of_decodeList hes
    refine ⟨⟨fun he => ?_, hr⟩, by rw [FlowAccess.TransactionResult.readBy, hm]⟩
    dsimp only at he
    split at he
    · cases he
    · rename_i hne
      exact hne (Option.some.inj he)
  · cases h

theorem ExecutionResult.inOrder_of_toDomain {m : ExecutionResult} {r : FlowAccess.ExecutionResult}
    (h : m.toDomain = .ok r) : r.InOrder := by
  obtain ⟨_, -, h⟩ := ok_of_bind_ok h
  obtain ⟨_, -, h⟩ := ok_of_bind_ok h
  obtain ⟨_, -, h⟩ := ok_of_bind_ok h
  exact ExecutionResult.inOrder_of_checkChunks h

end Grpc

/-! ## Documents that are refused -/

namespace Rest

theorem BlockHeader.toDomain_ofDomain_eq_error {h : FlowAccess.BlockHeader}
    (ht : ¬h.timestamp.HasPlainYear) : (ofDomain h).toDomain =
      .error (.invalidTimestamp "header.timestamp" (.unreadable h.timestamp.format)) := by
  simp only [ofDomain, toDomain, numeral, Scalar.hexIdentifier_hex, Scalar.uint64_numeral,
    Scalar.timestamp_format_eq_error ht]
  rfl

theorem Block.toDomain_ofDomain_eq_error {b : FlowAccess.Block}
    (ht : ¬b.header.timestamp.HasPlainYear) : (ofDomain b).toDomain =
      .error (.invalidTimestamp "header.timestamp" (.unreadable b.header.timestamp.format)) := by
  simp only [ofDomain, toDomain, Option.getD_some, BlockHeader.toDomain_ofDomain_eq_error ht,
    decodeList_map CollectionGuarantee.toDomain_ofDomain,
    decodeList_map BlockSeal.toDomain_ofDomain]
  rfl

theorem BlockEvents.exists_ofDomain_eq_error {options : CodecOptions} {b : FlowAccess.BlockEvents}
    (ht : ¬b.timestamp.HasPlainYear) (h : ∀ e ∈ b.events, e.Readable options) :
    ∃ d, ofDomain options b = .ok d ∧ d.toDomain options =
      .error (.invalidTimestamp "block_timestamp" (.unreadable b.timestamp.format)) := by
  obtain ⟨ds, hds, -⟩ := Event.exists_mapM_ofDomain h "events"
  refine ⟨⟨b.blockId.hex, numeral b.height.toNat, b.timestamp.format, ds⟩, ?_, ?_⟩
  · rw [ofDomain, hds]
    rfl
  · simp only [toDomain, numeral, Scalar.hexIdentifier_hex, Scalar.uint64_numeral,
      Scalar.timestamp_format_eq_error ht]
    rfl

end Rest

/-! ## Entities -/

namespace Entity

variable {options : CodecOptions} {k : Entity} {d : k.Value}

theorem carriable_of_read {m : k.forms.Message} (h : Carries.read options m = .ok d) :
    k.Carriable options d ∧ k.readBy options d = d := by
  cases k with
  | event => exact Grpc.Event.readable_of_toDomain h
  | blockEvents => exact Grpc.BlockEvents.readable_of_toDomain h
  | transactionResult => exact Grpc.TransactionResult.readable_of_toDomain h
  | executionResult => exact ⟨Grpc.ExecutionResult.inOrder_of_toDomain h, rfl⟩
  | _ => exact ⟨trivial, rfl⟩

/-- A time in another year is written, and the document is refused for it. -/
theorem exists_refused_document (hc : k.Carriable options d) (hy : ¬k.HasPlainYears d) :
    ∃ w : k.forms.Document, Carries.write options d = .ok w ∧ ∃ field text,
      (Carries.read options w : Except DecodingError k.Value) =
        .error (.invalidTimestamp field (.unreadable text)) := by
  cases k with
  | blockHeader => exact ⟨_, rfl, _, _, Rest.BlockHeader.toDomain_ofDomain_eq_error hy⟩
  | block => exact ⟨_, rfl, _, _, Rest.Block.toDomain_ofDomain_eq_error hy⟩
  | blockEvents =>
    obtain ⟨w, hw, hr⟩ := Rest.BlockEvents.exists_ofDomain_eq_error hy hc
    exact ⟨w, hw, _, _, hr⟩
  | _ => exact absurd trivial hy

/-- Whatever is read of a message is written as a document. If its times are in years of four
digits, it is read back from the document, and otherwise the document is refused. -/
theorem read_written_document (options : CodecOptions) (k : Entity) (m : k.forms.Message)
    (d : k.Value) (h : Carries.read options m = .ok d) :
    ∃ w : k.forms.Document, Carries.write options d = .ok w ∧
      (k.HasPlainYears d → Carries.read options w = .ok d) ∧
      (¬k.HasPlainYears d → ∃ field text, (Carries.read options w : Except DecodingError k.Value) =
        .error (.invalidTimestamp field (.unreadable text))) := by
  obtain ⟨hc, hread⟩ := carriable_of_read h
  by_cases hy : k.HasPlainYears d
  · obtain ⟨w, hw, hr⟩ := exists_document hc hy
    rw [hread] at hr
    exact ⟨w, hw, fun _ => hr, fun hn => absurd hy hn⟩
  · obtain ⟨w, hw, hr⟩ := exists_refused_document hc hy
    exact ⟨w, hw, fun hp => absurd hp hy, fun _ => hr⟩

/-- The header of a block in the first second of the year 10000. -/
def lateHeader : BlockHeader where
  id := .ofNat 32 1
  parentId := .ofNat 32 2
  height := 7
  timestamp := ⟨253402300800, 0, by decide⟩

/-- The message is accepted, and the document that is written of what was read is not. -/
theorem read_written_document_late : ∃ w : Rest.BlockHeader,
    Carries.read {} (Grpc.BlockHeader.ofDomain lateHeader) = .ok lateHeader ∧
      Carries.write {} lateHeader = .ok w ∧ w.timestamp = "+10000-01-01T00:00:00Z" ∧
      ∃ field text, (Carries.read {} w : Except DecodingError BlockHeader) =
        .error (.invalidTimestamp field (.unreadable text)) := by
  have hr : Carries.read {} (Grpc.BlockHeader.ofDomain lateHeader) = .ok lateHeader := rfl
  have hy : ¬blockHeader.HasPlainYears lateHeader := by
    show ¬Timestamp.HasPlainYear _
    decide
  obtain ⟨w, hw, -, hrefused⟩ :=
    read_written_document {} blockHeader (Grpc.BlockHeader.ofDomain lateHeader) lateHeader hr
  refine ⟨w, hr, hw, ?_, hrefused hy⟩
  cases hw
  decide

end Entity
end FlowAccess
