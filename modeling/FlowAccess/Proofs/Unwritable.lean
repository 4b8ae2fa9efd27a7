import FlowAccess.Network
import FlowAccess.Proofs.Grpc.ExecutionData
import FlowAccess.Proofs.Wires

/-!
# Values that cannot be written

Two things in a value can stand in the way of writing it: a key with a number that messages have no
room for, and an event in another encoding than the wire's that has no payload in the wire's
(`Offends`). Every codec writes a value that holds neither, and refuses any other for the first of
them in the order in which they are converted (`refuses_offences`).
-/

namespace FlowAccess

open Cadence

variable {options : CodecOptions} {t : Transport}

/-! ## Offences -/

/-- A part of a value for which the value may be refused. -/
inductive Convertible where
  | key (k : AccountKey)
  | event (e : Event)

/-- The error that a value with a part is refused with over a transport. -/
inductive Offends (options : CodecOptions) : Transport → Convertible → EncodingError → Prop
  | wideNumber {k : AccountKey} (h : 2 ^ 32 - 1 < k.sequenceNumber.toNat) :
    Offends options .grpc (.key k)
      (.overflow "account_key.sequence_number" k.sequenceNumber.toNat (2 ^ 32 - 1))
  | noValue {t : Transport} {e : Event} {err : DecodingError} (hne : e.encoding ≠ options.encoding)
    (hv : e.value.1 = .error err) : Offends options t (.event e) (.missingField "event.payload")
  | noPayload {t : Transport} {e : Event} {v : Value} {err : Error}
    (hne : e.encoding ≠ options.encoding) (hccf : options.encoding = .ccf)
    (hv : e.value.1 = .ok v) (hp : Ccf.encode v = .error err) :
    Offends options t (.event e) (.unwritable "event.payload" err)

namespace Convertible

/-- The error of a part as codecs find it. -/
def fault? (options : CodecOptions) : Transport → Convertible → Option EncodingError
  | .grpc, .key k => error? (narrow "account_key.sequence_number" k.sequenceNumber)
  | .http, .key _ => none
  | _, .event e => error? (e.payloadIn options.encoding).1

theorem fault?_event (t : Transport) (e : Event) :
    (event e).fault? options t = error? (e.payloadIn options.encoding).1 := by
  cases t <;> rfl

theorem offends_key_iff {k : AccountKey} {err : EncodingError} :
    Offends options t (.key k) err ↔ (key k).fault? options t = some err := by
  cases t with
  | http => exact iff_of_false nofun nofun
  | grpc =>
    rw [fault?, error?_eq_some_iff, narrow]
    have hsize : UInt32.size = 2 ^ 32 := rfl
    split
    · refine iff_of_false ?_ nofun
      rintro ⟨h⟩
      omega
    · constructor
      · rintro ⟨h⟩
        rfl
      · rintro ⟨⟩
        exact .wideNumber (by omega)

/-- Only the compact encoding refuses values. -/
theorem encode_eq_error_iff {encoding : Encoding} {v : Value} {err : Error} :
    encoding.encode v = .error err ↔ encoding = .ccf ∧ Ccf.encode v = .error err := by
  cases encoding with
  | ccf => exact (and_iff_right rfl).symm
  | jsonCdc => exact iff_of_false nofun nofun

theorem offends_event_iff {e : Event} {err : EncodingError} :
    Offends options t (.event e) err ↔ (event e).fault? options t = some err := by
  rw [fault?_event, error?_eq_some_iff]
  unfold Event.payloadIn
  split
  · rename_i heq
    refine iff_of_false ?_ nofun
    rintro (_ | ⟨hne⟩ | ⟨hne⟩) <;> exact hne heq.symm
  rename_i hne
  constructor
  · intro h
    cases h with
    | noValue _ hv =>
      generalize e.value = x at hv ⊢
      obtain ⟨outcome, _⟩ := x
      obtain rfl : outcome = _ := hv
      rfl
    | noPayload _ hccf hv hp =>
      generalize e.value = x at hv ⊢
      obtain ⟨outcome, _⟩ := x
      obtain rfl : outcome = _ := hv
      simp only [encode_eq_error_iff.2 ⟨hccf, hp⟩]
  · intro h
    split at h
    · rename_i hv
      cases h
      exact .noValue (Ne.symm hne) (congrArg Prod.fst hv)
    · rename_i v _ hv
      split at h
      · cases h
      · rename_i hp
        cases h
        obtain ⟨hccf, hp⟩ := encode_eq_error_iff.1 hp
        exact .noPayload (Ne.symm hne) hccf (congrArg Prod.fst hv) hp

theorem offends_iff {c : Convertible} {err : EncodingError} :
    Offends options t c err ↔ c.fault? options t = some err := by
  cases c with
  | key k => exact offends_key_iff
  | event e => exact offends_event_iff

end Convertible

/-! ## Outcomes -/

/-- The outcome of writing a value with these parts is an error if and only if one of them offends,
and then it is the error of the first that does. -/
structure RefusesOffences {W : Type} (options : CodecOptions) (t : Transport)
    (parts : List Convertible) (outcome : Except EncodingError W) : Prop where
  refuses_iff : (∃ e, outcome = .error e) ↔ ∃ c ∈ parts, ∃ e, Offends options t c e
  refuses_first : ∀ e, outcome = .error e ↔ ∃ before c after, parts = before ++ c :: after ∧
    (∀ b ∈ before, ∀ e', ¬Offends options t b e') ∧ Offends options t c e

/-- The first error among parts. -/
def firstFault? (options : CodecOptions) (t : Transport) (parts : List Convertible) :
    Option EncodingError :=
  parts.findSome? (·.fault? options t)

theorem firstFault?_append (parts rest : List Convertible) :
    firstFault? options t (parts ++ rest) =
      (firstFault? options t parts).or (firstFault? options t rest) :=
  List.findSome?_append

theorem refusesOffences_of_error? {W : Type} {parts : List Convertible}
    {outcome : Except EncodingError W} (h : error? outcome = firstFault? options t parts) :
    RefusesOffences options t parts outcome where
  refuses_iff := by
    simp only [← error?_eq_some_iff, h, firstFault?, ← Option.isSome_iff_exists,
      List.isSome_findSome?, List.any_eq_true, Convertible.offends_iff]
  refuses_first e := by
    simp only [← error?_eq_some_iff, h, firstFault?, List.findSome?_eq_some_iff,
      Convertible.offends_iff, ← Option.eq_none_iff_forall_ne_some, ← ne_eq, and_comm]

/-! ## Values with events -/

/-- The events of a value, as its parts. -/
def eventParts {D : Type} [HoldsEvents D] (d : D) : List Convertible :=
  (HoldsEvents.events d).map .event

theorem eventParts_cons {D : Type} [HoldsEvents D] (d : D) (ds : List D) :
    eventParts (d :: ds) = eventParts d ++ eventParts ds :=
  List.map_append

/-- A list of values with events is refused for the first of its values that is. -/
theorem error?_mapM_eq_firstFault? {D W : Type} [HoldsEvents D]
    {write : D → Except EncodingError W}
    (h : ∀ d, error? (write d) = firstFault? options t (eventParts d)) (ds : List D) :
    error? (ds.mapM write) = firstFault? options t (eventParts ds) := by
  rw [error?_mapM]
  simp only [h]
  induction ds with
  | nil => rfl
  | cons d ds ih =>
    rw [List.findSome?_cons, ih, eventParts_cons, firstFault?_append]
    cases firstFault? options t (eventParts d) <;> rfl

/-- An event is all of its parts. -/
theorem error?_payloadIn (t : Transport) (e : Event) :
    error? (e.payloadIn options.encoding).1 = firstFault? options t (eventParts e) := by
  rw [← Convertible.fault?_event t]
  exact List.findSome?_singleton.symm

/-! ## Messages -/

namespace Grpc

theorem AccountKey.error?_ofDomain (options : CodecOptions) (k : FlowAccess.AccountKey) :
    error? (ofDomain k) = (Convertible.key k).fault? options .grpc :=
  error?_bind_pure _ _

theorem Account.error?_ofDomain (a : FlowAccess.Account) :
    error? (ofDomain a) = firstFault? options .grpc (a.keys.map .key) := by
  rw [ofDomain, error?_bind_pure, error?_mapM, firstFault?, List.findSome?_map]
  simp only [AccountKey.error?_ofDomain options]
  rfl

theorem Event.error?_ofDomain (e : FlowAccess.Event) :
    error? (ofDomain options e) = firstFault? options .grpc (eventParts e) :=
  (error?_bind_pure _ _).trans (error?_payloadIn .grpc e)

theorem Event.error?_mapM_ofDomain (es : List FlowAccess.Event) :
    error? (es.mapM (ofDomain options)) = firstFault? options .grpc (eventParts es) :=
  error?_mapM_eq_firstFault? error?_ofDomain es

theorem BlockEvents.error?_ofDomain (b : FlowAccess.BlockEvents) :
    error? (ofDomain options b) = firstFault? options .grpc (eventParts b) :=
  (error?_bind_pure _ _).trans (Event.error?_mapM_ofDomain b.events)

theorem SubscribedEvents.error?_ofDomain (b : FlowAccess.BlockEvents) :
    error? (ofDomain options b) = firstFault? options .grpc (eventParts b) :=
  (error?_bind_pure _ _).trans (BlockEvents.error?_ofDomain b)

theorem TransactionResult.error?_ofDomain (r : FlowAccess.TransactionResult) :
    error? (ofDomain options r) = firstFault? options .grpc (eventParts r) :=
  (error?_bind_pure _ _).trans (Event.error?_mapM_ofDomain r.events)

theorem ChunkExecutionData.error?_ofDomain (c : FlowAccess.ChunkExecutionData) :
    error? (ofDomain options c) = firstFault? options .grpc (eventParts c) :=
  (error?_bind_pure _ _).trans (Event.error?_mapM_ofDomain c.events)

theorem ExecutionData.error?_ofDomain (d : FlowAccess.ExecutionData) :
    error? (ofDomain options d) = firstFault? options .grpc (eventParts d) :=
  (error?_bind_pure _ _).trans
    (error?_mapM_eq_firstFault? ChunkExecutionData.error?_ofDomain d.chunks)

theorem SubscribedExecutionData.error?_ofDomain (d : FlowAccess.ExecutionDataAt) :
    error? (ofDomain options d) = firstFault? options .grpc (eventParts d) :=
  (error?_bind_pure _ _).trans (ExecutionData.error?_ofDomain d.data)

end Grpc

/-! ## Documents -/

namespace Rest

/-- Documents have room for all numbers of keys. -/
theorem firstFault?_keys (ks : List FlowAccess.AccountKey) :
    firstFault? options .http (ks.map .key) = none := by
  rw [firstFault?, List.findSome?_eq_none_iff]
  intro c hc
  obtain ⟨k, -, rfl⟩ := List.mem_map.1 hc
  rfl

theorem Event.error?_ofDomain (e : FlowAccess.Event) :
    error? (ofDomain options e) = firstFault? options .http (eventParts e) :=
  (error?_bind_pure _ _).trans (error?_payloadIn .http e)

theorem Event.error?_mapM_ofDomain (es : List FlowAccess.Event) :
    error? (es.mapM (ofDomain options)) = firstFault? options .http (eventParts es) :=
  error?_mapM_eq_firstFault? error?_ofDomain es

theorem BlockEvents.error?_ofDomain (b : FlowAccess.BlockEvents) :
    error? (ofDomain options b) = firstFault? options .http (eventParts b) :=
  (error?_bind_pure _ _).trans (Event.error?_mapM_ofDomain b.events)

theorem TransactionResult.error?_ofDomain (r : FlowAccess.TransactionResult) :
    error? (ofDomain options r) = firstFault? options .http (eventParts r) :=
  (error?_bind_pure _ _).trans (Event.error?_mapM_ofDomain r.events)

end Rest

/-! ## Entities -/

namespace Entity

/-- The keys or the events of a value, in the order in which they are converted. -/
def parts : (k : Entity) → k.Value → List Convertible
  | accountKey, k => [.key k]
  | account, a => (Account.keys a).map .key
  | event, e => eventParts (D := Event) e
  | blockEvents, b => eventParts (D := BlockEvents) b
  | transactionResult, r => eventParts (D := TransactionResult) r
  | _, _ => []

variable {k : Entity}

theorem error?_write_message (d : k.Value) :
    error? (Carries.write options d : Except EncodingError k.forms.Message) =
      firstFault? options .grpc (k.parts d) := by
  cases k with
  | accountKey =>
    exact (Grpc.AccountKey.error?_ofDomain options d).trans List.findSome?_singleton.symm
  | account => exact Grpc.Account.error?_ofDomain d
  | event => exact Grpc.Event.error?_ofDomain d
  | blockEvents => exact Grpc.BlockEvents.error?_ofDomain d
  | transactionResult => exact Grpc.TransactionResult.error?_ofDomain d
  | _ => rfl

theorem error?_write_document (d : k.Value) :
    error? (Carries.write options d : Except EncodingError k.forms.Document) =
      firstFault? options .http (k.parts d) := by
  cases k with
  | accountKey => exact (Rest.firstFault?_keys [d]).symm
  | account => exact (Rest.firstFault?_keys (Account.keys d)).symm
  | event => exact Rest.Event.error?_ofDomain d
  | blockEvents => exact Rest.BlockEvents.error?_ofDomain d
  | transactionResult => exact Rest.TransactionResult.error?_ofDomain d
  | _ => rfl

end Entity

theorem StreamedEntity.error?_write {k : StreamedEntity} (d : k.Value) :
    error? (Carries.write options d : Except EncodingError k.forms.Message) =
      firstFault? options .grpc (eventParts d) := by
  cases k with
  | executionDataAt => exact Grpc.SubscribedExecutionData.error?_ofDomain d
  | executionData => exact Grpc.ExecutionData.error?_ofDomain d
  | chunkExecutionData => exact Grpc.ChunkExecutionData.error?_ofDomain d
  | _ => rfl

/-- A value of any type is refused as a message if and only if it has a key or an event that offends
there, and as a document if and only if it has an event that does; it is refused for the first. -/
theorem refuses_offences (options : CodecOptions) :
    (∀ (k : Entity) (d : k.Value),
      RefusesOffences options .grpc (k.parts d)
        (Carries.write options d : Except EncodingError k.forms.Message) ∧
      RefusesOffences options .http (k.parts d)
        (Carries.write options d : Except EncodingError k.forms.Document)) ∧
    (∀ (k : StreamedEntity) (d : k.Value),
      RefusesOffences options .grpc (eventParts d)
        (Carries.write options d : Except EncodingError k.forms.Message)) ∧
    (∀ b : BlockEvents,
      RefusesOffences options .grpc (eventParts b)
        (Carries.write options b : Except EncodingError Grpc.SubscribedEvents)) ∧
    ∀ p : NetworkParameters,
      RefusesOffences options .http []
        (Carries.write options p : Except EncodingError Rest.NetworkParameters) :=
  ⟨fun _ d => ⟨refusesOffences_of_error? (Entity.error?_write_message d),
      refusesOffences_of_error? (Entity.error?_write_document d)⟩,
    fun _ d => refusesOffences_of_error? (StreamedEntity.error?_write d),
    fun b => refusesOffences_of_error? (Grpc.SubscribedEvents.error?_ofDomain b),
    fun _ => refusesOffences_of_error? rfl⟩

end FlowAccess
