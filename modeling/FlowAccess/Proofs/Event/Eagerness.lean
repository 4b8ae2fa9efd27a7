import FlowAccess.Grpc.Message.Execution
import FlowAccess.Proofs.Event.Holders
import FlowAccess.Proofs.Event.Uses
import FlowAccess.Rest.Document.Transaction

/-!
# Eager and lazy reading

Whether payloads are decoded as soon as they are read is decided where single events are read, below
any number of lists and records. Readers that differ there only differ in how they take events, and
in nothing else (`CodecOptions.Then`), so that an eager reader accepts what a lazy one accepts if
all events have values, and neither can be told from the other by what is read
(`EventCarrier.eager_iff_lazy`).
-/

namespace FlowAccess

open Cadence HoldsEvents

/-- Readers with the second options read an event as readers with the first do, and then take it
through `t`. -/
def CodecOptions.Then (first second : CodecOptions) (t : Event → Option Event) : Prop :=
  ∀ eventType transactionId transactionIndex eventIndex payload,
    (second.event eventType transactionId transactionIndex eventIndex payload).toOption =
      (first.event eventType transactionId transactionIndex eventIndex payload).toOption.bind t

section

variable {W D : Type} [HoldsEvents D] {t : Event → Option Event}

theorem mapM_then {f g : W → Option D} (h : ∀ w, g w = (f w).bind (mapEvents? t)) (ws : List W) :
    ws.mapM g = (ws.mapM f).bind (mapEvents? t) := by
  induction ws with
  | nil => rfl
  | cons w ws ih =>
    simp only [List.mapM_cons, h, ih, Option.bind_eq_bind, Option.pure_def]
    cases f w with
    | none => rfl
    | some d =>
      cases ws.mapM f with
      | none => simp
      | some ds => simp only [Option.bind_some, mapEvents?_cons]

theorem toOption_decodeList_then {first second : W → Except DecodingError D}
    (h : ∀ w, (second w).toOption = (first w).toOption.bind (mapEvents? t)) (list : String)
    (ws : List W) : (decodeList list second ws).toOption =
      (decodeList list first ws).toOption.bind (mapEvents? t) := by
  simp only [toOption_decodeList, mapM_then h]

end

/-! ## Messages and documents -/

namespace Grpc

variable {first second : CodecOptions} {t : FlowAccess.Event → Option FlowAccess.Event}

theorem Event.toOption_toDomain_then (h : first.Then second t) (m : Event) :
    (m.toDomain second).toOption = (m.toDomain first).toOption.bind (mapEvents? t) := by
  simp only [toDomain, toOption_bind, h _ _ _ _ _, Option.bind_assoc, mapEvents?_event]

theorem BlockEvents.toOption_toDomain_then (h : first.Then second t) (m : BlockEvents) :
    (m.toDomain second).toOption = (m.toDomain first).toOption.bind (mapEvents? t) := by
  simp only [toDomain, toOption_bind, toOption_pure, Option.bind_assoc, Option.bind_some,
    toOption_decodeList_then (Event.toOption_toDomain_then h), BlockEvents.mapEvents?_mk]

theorem TransactionResult.toOption_toDomain_then (h : first.Then second t) (m : TransactionResult) :
    (m.toDomain second).toOption = (m.toDomain first).toOption.bind (mapEvents? t) := by
  unfold toDomain
  cases TransactionStatus.ofCode? m.status.toInt with
  | none => rfl
  | some status =>
    simp only [toOption_bind, toOption_pure, Option.bind_assoc, Option.bind_some,
      toOption_decodeList_then (Event.toOption_toDomain_then h), TransactionResult.mapEvents?_mk,
      Option.bind_comm (mapEvents? t _)]

theorem ChunkExecutionData.toOption_toDomain_then (h : first.Then second t)
    (m : ChunkExecutionData) :
    (m.toDomain second).toOption = (m.toDomain first).toOption.bind (mapEvents? t) := by
  simp only [toDomain, toOption_bind, toOption_pure, Option.bind_assoc, Option.bind_some,
    toOption_decodeList_then (Event.toOption_toDomain_then h), ChunkExecutionData.mapEvents?_mk,
    Option.bind_comm (mapEvents? t _)]

theorem ExecutionData.toOption_toDomain_then (h : first.Then second t) (m : ExecutionData) :
    (m.toDomain second).toOption = (m.toDomain first).toOption.bind (mapEvents? t) := by
  simp only [toDomain, toOption_bind, toOption_pure, Option.bind_assoc, Option.bind_some,
    toOption_decodeList_then (ChunkExecutionData.toOption_toDomain_then h),
    ExecutionData.mapEvents?_mk]

theorem SubscribedExecutionData.toOption_toDomain_then (h : first.Then second t)
    (m : SubscribedExecutionData) :
    (m.toDomain second).toOption = (m.toDomain first).toOption.bind (mapEvents? t) := by
  unfold toDomain
  cases m.data with
  | none => rfl
  | some data =>
    simp only [toOption_bind, toOption_pure, Option.bind_assoc, Option.bind_some,
      ExecutionData.toOption_toDomain_then h, ExecutionDataAt.mapEvents?_mk,
      Option.bind_comm (mapEvents? t _)]

end Grpc

namespace Rest

variable {first second : CodecOptions} {t : FlowAccess.Event → Option FlowAccess.Event}

theorem Event.toOption_toDomain_then (h : first.Then second t) (d : Event) :
    (d.toDomain second).toOption = (d.toDomain first).toOption.bind (mapEvents? t) := by
  simp only [toDomain, toOption_bind, h _ _ _ _ _, Option.bind_assoc, mapEvents?_event]

theorem BlockEvents.toOption_toDomain_then (h : first.Then second t) (d : BlockEvents) :
    (d.toDomain second).toOption = (d.toDomain first).toOption.bind (mapEvents? t) := by
  simp only [toDomain, toOption_bind, toOption_pure, Option.bind_assoc, Option.bind_some,
    toOption_decodeList_then (Event.toOption_toDomain_then h), BlockEvents.mapEvents?_mk]

theorem TransactionResult.toOption_toDomain_then (h : first.Then second t) (d : TransactionResult) :
    (d.toDomain second).toOption = (d.toDomain first).toOption.bind (mapEvents? t) := by
  unfold toDomain
  cases TransactionStatus.ofName? d.status <;> by_cases hempty : d.computationUsed = "" <;>
    simp only [hempty, if_true, if_false, toOption_bind, toOption_pure, toOption_error,
      Option.bind_assoc, Option.bind_some, Option.bind_none, Option.bind_fun_none,
      toOption_decodeList_then (Event.toOption_toDomain_then h), TransactionResult.mapEvents?_mk,
      Option.bind_comm (mapEvents? t _)]

end Rest

/-! ## Carriers of events -/

/-- The messages and the documents that carry events. -/
inductive EventCarrier where
  | event
  | blockEvents
  | subscribedEvents
  | transactionResult
  | chunkExecutionData
  | executionData
  | subscribedExecutionData
  | eventDocument
  | blockEventsDocument
  | transactionResultDocument
  deriving DecidableEq

namespace EventCarrier

/-- What stands on the wire, and the values that are read from it. -/
structure Forms where
  Wire : Type
  Value : Type
  [carries : Carries Wire Value]
  [holdsEvents : HoldsEvents Value]
  /-- Readers differ in how they read events only. -/
  toOption_read {first second : CodecOptions} {t : Event → Option Event} :
    first.Then second t → ∀ w : Wire,
      (Carries.read second w : Except DecodingError Value).toOption =
        (Carries.read first w : Except DecodingError Value).toOption.bind (mapEvents? t)

attribute [instance] Forms.carries Forms.holdsEvents

def forms : EventCarrier → Forms
  | event => ⟨Grpc.Event, Event, Grpc.Event.toOption_toDomain_then⟩
  | blockEvents => ⟨Grpc.BlockEvents, BlockEvents, Grpc.BlockEvents.toOption_toDomain_then⟩
  | subscribedEvents =>
    ⟨Grpc.SubscribedEvents, BlockEvents,
      fun h w => Grpc.BlockEvents.toOption_toDomain_then h w.block⟩
  | transactionResult =>
    ⟨Grpc.TransactionResult, TransactionResult, Grpc.TransactionResult.toOption_toDomain_then⟩
  | chunkExecutionData =>
    ⟨Grpc.ChunkExecutionData, ChunkExecutionData, Grpc.ChunkExecutionData.toOption_toDomain_then⟩
  | executionData =>
    ⟨Grpc.ExecutionData, ExecutionData, Grpc.ExecutionData.toOption_toDomain_then⟩
  | subscribedExecutionData =>
    ⟨Grpc.SubscribedExecutionData, ExecutionDataAt,
      Grpc.SubscribedExecutionData.toOption_toDomain_then⟩
  | eventDocument => ⟨Rest.Event, Event, Rest.Event.toOption_toDomain_then⟩
  | blockEventsDocument => ⟨Rest.BlockEvents, BlockEvents, Rest.BlockEvents.toOption_toDomain_then⟩
  | transactionResultDocument =>
    ⟨Rest.TransactionResult, TransactionResult, Rest.TransactionResult.toOption_toDomain_then⟩

/-- The values of a kind. -/
abbrev Value (k : EventCarrier) : Type := k.forms.Value

variable (k : EventCarrier)

def read (options : CodecOptions) (w : k.forms.Wire) : Except DecodingError k.Value :=
  Carries.read options w

end EventCarrier

/-! ## Single events -/

/-- Options under which payloads are decoded as they are read, or when they are asked for. -/
abbrev CodecOptions.eagerly (encoding : Encoding) (values : ValueOptions) : CodecOptions :=
  { encoding, eager := true, values }

@[inherit_doc CodecOptions.eagerly]
abbrev CodecOptions.lazily (encoding : Encoding) (values : ValueOptions) : CodecOptions :=
  { encoding, eager := false, values }

namespace Event

/-- The event with its value, if it has one. -/
def decoded? (e : Event) : Option Event :=
  match e.value with
  | (.ok _, e) => some e
  | (.error _, _) => none

variable {e e' : Event}

theorem decoded?_eq_some_iff : e.decoded? = some e' ↔ ∃ v, e.value = (.ok v, e') := by
  rw [decoded?]
  split
  · simp_all
  · simp_all

theorem exists_decoded?_iff : (∃ e', e.decoded? = some e') ↔ ∃ v, e.value.1 = .ok v := by
  simp only [decoded?_eq_some_iff]
  exact ⟨fun ⟨e', v, h⟩ => ⟨v, by rw [h]⟩, fun ⟨v, h⟩ => ⟨e.value.2, v, Prod.ext h rfl⟩⟩

/-- The event with its value is received as it was, and says the same of its value. -/
theorem of_decoded? (h : e.decoded? = some e') :
    e'.received = e.received ∧ e'.isDecoded ∧ e'.value.1 = e.value.1 ∧
      e'.valueTypeId.1 = e.valueTypeId.1 := by
  obtain ⟨v, hv⟩ := decoded?_eq_some_iff.1 h
  obtain ⟨w, hw⟩ | ⟨_, -, hw⟩ := value_cases e
  · cases hw.symm.trans hv
    have hk : ({ e with keptValue := some v } : Event).value =
      (.ok v, { e with keptValue := some v }) := value_of_kept rfl
    refine ⟨rfl, rfl, by rw [hk, hv], ?_⟩
    rw [valueTypeId_of_ok hk, valueTypeId_of_ok hv]
  · cases hw.symm.trans hv

end Event

namespace CodecOptions

variable (encoding : Encoding) (values : ValueOptions)

theorem lazily_then_eagerly :
    (lazily encoding values).Then (eagerly encoding values) Event.decoded? := by
  intro eventType transactionId transactionIndex eventIndex payload
  simp only [event, if_true, Bool.false_eq_true, if_false, toOption_ok, Option.bind_some]
  rw [Event.decoded?]
  generalize Event.value _ = found
  obtain ⟨_ | _, _⟩ := found <;> rfl

/-- A lazy reader leaves no value in an event. -/
theorem lazily_then_forget : (lazily encoding values).Then (lazily encoding values)
    fun e => some { e with keptValue := none } :=
  fun _ _ _ _ _ => rfl

end CodecOptions

/-! ## Both readers -/

namespace EventCarrier

variable {k : EventCarrier} {encoding : Encoding} {values : ValueOptions} {w : k.forms.Wire}
  {d d' : k.Value}

theorem toOption_read_eagerly : (k.read (.eagerly encoding values) w).toOption =
    (k.read (.lazily encoding values) w).toOption.bind (mapEvents? Event.decoded?) :=
  k.forms.toOption_read (CodecOptions.lazily_then_eagerly encoding values) w

theorem exists_read_eagerly_iff : (∃ d, k.read (.eagerly encoding values) w = .ok d) ↔
    ∃ d', k.read (.lazily encoding values) w = .ok d' ∧
      ∀ e ∈ events d', ∃ v, e.value.1 = .ok v := by
  simp only [← Event.exists_decoded?_iff, ← exists_mapEvents?_iff]
  simp only [← toOption_eq_some_iff, toOption_read_eagerly, Option.bind_eq_some_iff]
  exact ⟨fun ⟨d, d', h, ht⟩ => ⟨d', h, d, ht⟩, fun ⟨d', h, d, ht⟩ => ⟨d, d', h, ht⟩⟩

theorem mapEvents?_of_read (hd : k.read (.eagerly encoding values) w = .ok d)
    (hd' : k.read (.lazily encoding values) w = .ok d') :
    mapEvents? Event.decoded? d' = some d := by
  have h : (k.read (.eagerly encoding values) w).toOption = _ := toOption_read_eagerly
  rw [hd, hd'] at h
  exact h.symm

theorem isDecoded_of_read_lazily (hd : k.read (.lazily encoding values) w = .ok d) {e : Event}
    (he : e ∈ events d) : e.isDecoded = false := by
  have h := k.forms.toOption_read (CodecOptions.lazily_then_forget encoding values) w
  rw [show Carries.read _ w = .ok d from hd] at h
  obtain ⟨_, -, hf⟩ := exists_of_mem_mapEvents? h.symm he
  cases hf
  rfl

/-- An eager reader accepts what a lazy one accepts if its events have values. Both then read the
same, the eager one with the values decoded, and the events say the same of their values. A lazy
reader decodes nothing. -/
theorem eager_iff_lazy (k : EventCarrier) (encoding : Encoding) (values : ValueOptions)
    (w : k.forms.Wire) :
    ((∃ d, k.read (.eagerly encoding values) w = .ok d) ↔
      ∃ d', k.read (.lazily encoding values) w = .ok d' ∧
        ∀ e ∈ events d', ∃ v, e.value.1 = .ok v) ∧
    (∀ d d', k.read (.eagerly encoding values) w = .ok d →
      k.read (.lazily encoding values) w = .ok d' →
      received d = received d' ∧ (∀ e ∈ events d, e.isDecoded) ∧
        List.Forall₂ (fun e e' => e.value.1 = e'.value.1 ∧ e.valueTypeId.1 = e'.valueTypeId.1)
          (events d) (events d')) ∧
    ∀ d', k.read (.lazily encoding values) w = .ok d' → ∀ e ∈ events d', e.isDecoded = false := by
  refine ⟨exists_read_eagerly_iff, fun d d' hd hd' => ?_, fun d' hd' e =>
    isDecoded_of_read_lazily hd'⟩
  have ht := mapEvents?_of_read hd hd'
  refine ⟨mapEvents_of_mapEvents? ht fun e e' h => (Event.of_decoded? h).1, fun e he => ?_,
    (events_of_mapEvents? ht).flip.imp fun _ _ h => (Event.of_decoded? h).2.2⟩
  obtain ⟨_, -, hdecoded⟩ := exists_of_mem_mapEvents? ht he
  exact (Event.of_decoded? hdecoded).2.1

/-- The message for the events of a block, with one event. -/
def pausedEvents : Grpc.BlockEvents where
  blockId := List.replicate 32 9
  blockHeight := 12
  blockTimestamp := some { seconds := 1483228799, nanos := 0 }
  events :=
    [{ type := "A.0000000000000001.Token.Paused", transactionId := List.replicate 32 7
       payload := Event.truthPayload true }]

theorem eager_iff_lazy_paused : ∃ d d',
    blockEvents.read (.eagerly .ccf {}) pausedEvents = .ok d ∧
    blockEvents.read (.lazily .ccf {}) pausedEvents = .ok d' ∧
    (events d).map Event.isDecoded = [true] ∧ received d = received d' ∧
    ∀ e ∈ events d', e.isDecoded = false := by
  obtain ⟨hiff, hsame, hlazy⟩ := eager_iff_lazy blockEvents .ccf {} pausedEvents
  have hread : (blockEvents.read (.eagerly .ccf {}) pausedEvents).toOption.map
      (fun d => (events d).map Event.isDecoded) = some [true] := by decide +kernel
  obtain ⟨d, hd, hevents⟩ := Option.map_eq_some_iff.1 hread
  have hd := toOption_eq_some_iff.1 hd
  obtain ⟨d', hd', -⟩ := hiff.1 ⟨d, hd⟩
  exact ⟨d, d', hd, hd', hevents, (hsame d d' hd hd').1, hlazy d' hd'⟩

end EventCarrier
end FlowAccess
