import FlowAccess.Account
import FlowAccess.Execution
import FlowAccess.Proofs.Lists

/-!
# What both codecs share

The names and codes of algorithms and of the states of a transaction are told apart, contracts are
put back in the order in which they are held, an event is read as it was written if it is
`Readable`, as every event is that was read, and the chunks of a result are accepted if each stands
where its index says.
-/

namespace FlowAccess

/-! ## Names and codes -/

@[simp] theorem SignatureAlgorithm.ofCode?_code (a : SignatureAlgorithm) :
    ofCode? a.code = some a := by
  cases a <;> rfl

@[simp] theorem HashAlgorithm.ofCode?_code (a : HashAlgorithm) : ofCode? a.code = some a := by
  cases a <;> rfl

@[simp] theorem TransactionStatus.ofCode?_code (s : TransactionStatus) :
    ofCode? s.code = some s := by
  cases s <;> rfl

theorem Text.sameName_eq (s t : String) :
    sameName s t = decide (s.toList.map Char.toLower = t.toList.map Char.toLower) := by
  simp only [sameName, lower, ← String.toList_inj, String.toList_map]

@[simp] theorem SignatureAlgorithm.ofName?_name (a : SignatureAlgorithm) :
    ofName? a.name = some a := by
  simp only [ofName?, Text.sameName_eq]
  cases a <;> decide

@[simp] theorem HashAlgorithm.ofName?_name (a : HashAlgorithm) : ofName? a.name = some a := by
  simp only [ofName?, Text.sameName_eq]
  cases a <;> decide

@[simp] theorem TransactionStatus.ofName?_name (s : TransactionStatus) :
    ofName? s.name = some s := by
  simp only [ofName?, Text.sameName_eq]
  cases s <;> decide

theorem SignatureAlgorithm.ofName?_empty : ofName? "" = none := by
  simp only [ofName?, Text.sameName_eq]
  decide

theorem HashAlgorithm.ofName?_empty : ofName? "" = none := by
  simp only [ofName?, Text.sameName_eq]
  decide

theorem TransactionStatus.ofName?_empty : ofName? "" = none := by
  simp only [ofName?, Text.sameName_eq]
  decide

/-- An error message that is not empty stands for itself, and an empty one for none. -/
theorem error_getD {error : Option String} (h : error ≠ some "") :
    (if error.getD "" = "" then none else some (error.getD "")) = error := by
  cases error with
  | none => rfl
  | some e => exact if_neg fun he => h (congrArg some he)

theorem narrow_eq {field : String} {n : UInt64} (h : n.toNat < UInt32.size) :
    narrow field n = .ok n.toUInt32 :=
  if_pos h

/-! ## Contracts -/

/-- Contracts that are listed in order are held in that order. -/
@[simp] theorem Contracts.ofList_entries {α : Type} (cs : Contracts α) :
    ofList cs.entries = cs := by
  obtain ⟨entries, ordered⟩ := cs
  simp only [ofList, Entries.ofList_of_pairwise ordered]

theorem Contracts.nodup_names {α : Type} (cs : Contracts α) : (cs.entries.map (·.1)).Nodup := by
  refine List.pairwise_map.2 (cs.ordered.imp fun hlt => ?_)
  exact fun heq => String.lt_irrefl _ (heq ▸ hlt)

/-- Contracts of different names are held in one order, in whichever they are listed. -/
theorem Contracts.ofList_perm {α : Type} {entries entries' : List (String × α)}
    (hp : entries'.Perm entries) (h : (entries.map (·.1)).Nodup) :
    ofList entries' = ofList entries := by
  simp only [ofList, Entries.ofList_perm hp h]

/-! ## Events -/

namespace Event

/-- Whether an event is in the encoding of the wire and its payload is accepted. -/
def Readable (options : CodecOptions) (e : Event) : Prop :=
  e.encoding = options.encoding ∧
    (options.eager → ∃ v, options.encoding.decode options.values e.payload = .ok v)

/-- An event with the options of its reader and, if the reader has asked for it, its value. -/
def readBy (options : CodecOptions) (e : Event) : Event :=
  { e.received with
    options := options.values
    keptValue :=
      if options.eager then (options.encoding.decode options.values e.payload).toOption else none }

@[simp] theorem received_readBy (options : CodecOptions) (e : Event) :
    (e.readBy options).received = e.received := rfl

/-- The payload of an event in the encoding of the wire is taken as it is. -/
theorem payloadIn_self {options : CodecOptions} {e : Event} (h : e.encoding = options.encoding) :
    e.payloadIn options.encoding = (.ok e.payload, e) :=
  if_pos h.symm

end Event

/-- The events of a block as they are read. -/
def BlockEvents.readBy (options : CodecOptions) (b : BlockEvents) : BlockEvents :=
  { b with events := b.events.map (Event.readBy options) }

/-- What is received of the events of a block. -/
def BlockEvents.received (b : BlockEvents) : BlockEvents :=
  { b with events := b.events.map (·.received) }

@[simp] theorem BlockEvents.received_readBy (options : CodecOptions) (b : BlockEvents) :
    (b.readBy options).received = b.received := by
  simp [received, readBy, Function.comp_def]

/-- The result of a transaction with its events as they are read. -/
def TransactionResult.readBy (options : CodecOptions) (r : TransactionResult) : TransactionResult :=
  { r with events := r.events.map (Event.readBy options) }

/-- What is received of the result of a transaction. -/
def TransactionResult.received (r : TransactionResult) : TransactionResult :=
  { r with events := r.events.map (·.received) }

@[simp] theorem TransactionResult.received_readBy (options : CodecOptions)
    (r : TransactionResult) : (r.readBy options).received = r.received := by
  simp [received, readBy, Function.comp_def]

/-- An event in the encoding of the wire is read as it was written, if it is readable. -/
theorem CodecOptions.event_eq_ok_iff {options : CodecOptions} {e r : Event}
    (he : e.encoding = options.encoding) :
    options.event e.eventType e.transactionId e.transactionIndex e.eventIndex e.payload = .ok r ↔
      e.Readable options ∧ r = e.readBy options := by
  unfold CodecOptions.event Event.Readable Event.readBy Event.value
  cases heager : options.eager with
  | false => simp [Event.received, he, eq_comm]
  | true =>
    cases hv : options.encoding.decode options.values e.payload with
    | error err => simp [hv]
    | ok v => simp [hv, Event.received, he, Except.toOption, eq_comm]

theorem CodecOptions.event_eq {options : CodecOptions} {e : Event} (h : e.Readable options) :
    options.event e.eventType e.transactionId e.transactionIndex e.eventIndex e.payload =
      .ok (e.readBy options) :=
  (event_eq_ok_iff h.1).2 ⟨h, rfl⟩

/-- An event that is read is readable, and as it is read. -/
theorem CodecOptions.readable_of_event {options : CodecOptions} {eventType : String}
    {transactionId : Identifier} {transactionIndex eventIndex : UInt32} {payload : Bytes}
    {e : Event}
    (h : options.event eventType transactionId transactionIndex eventIndex payload = .ok e) :
    e.Readable options ∧ e.readBy options = e := by
  unfold CodecOptions.event Event.value at h
  unfold Event.Readable Event.readBy
  cases heager : options.eager with
  | false =>
    simp only [heager, Bool.false_eq_true, if_false] at h
    cases h
    simp [Event.received]
  | true =>
    cases hv : options.encoding.decode options.values payload with
    | error err =>
      simp only [heager, if_true, hv] at h
      cases h
    | ok v =>
      simp only [heager, if_true, hv] at h
      cases h
      simp [Event.received, hv, Except.toOption]

/-! ## Chunks -/

namespace ExecutionResult

theorem misplaced?_eq_none_iff {position : Nat} {chunks : List Chunk} :
    misplaced? position chunks = none ↔
      ∀ i (hi : i < chunks.length), chunks[i].index.toNat = position + i := by
  induction chunks generalizing position with
  | nil => simp [misplaced?]
  | cons chunk rest ih =>
    rw [misplaced?]
    constructor
    · intro h i hi
      split at h
      · rename_i hc
        cases i with
        | zero => exact hc
        | succ i =>
          rw [List.getElem_cons_succ, ih.1 h i (by simpa using hi)]
          omega
      · cases h
    · intro h
      have hc : chunk.index.toNat = position := h 0 (by simp)
      rw [if_pos hc]
      refine ih.2 fun i hi => ?_
      have := h (i + 1) (by simpa using hi)
      simp only [List.getElem_cons_succ] at this
      omega

/-- The chunks stand where their indices say. -/
def InOrder (r : ExecutionResult) : Prop :=
  ∀ i (hi : i < r.chunks.length), r.chunks[i].index.toNat = i

theorem misplaced?_zero_eq_none_iff {r : ExecutionResult} :
    misplaced? 0 r.chunks = none ↔ r.InOrder := by
  simp only [misplaced?_eq_none_iff, InOrder, Nat.zero_add]

theorem checkChunks_eq {r : ExecutionResult} (h : r.InOrder) : r.checkChunks = .ok r := by
  rw [checkChunks, misplaced?_zero_eq_none_iff.2 h]

theorem inOrder_of_checkChunks {r r' : ExecutionResult} (h : r.checkChunks = .ok r') :
    r'.InOrder := by
  unfold checkChunks at h
  split at h
  · cases h
  · rename_i hnone
    cases h
    exact misplaced?_zero_eq_none_iff.1 hnone

end ExecutionResult
end FlowAccess
