import FlowAccess.Proofs.Event.Uses
import FlowAccess.Proofs.Transcoding
import FlowAccess.Proofs.Wires

/-!
# Events of values at their receivers

An event that is built from a value keeps this value, and not what can be read of the payload that
it gets. Whoever receives the event has the payload only. The two compare equal, but say the same
of the value only where the encoding gives back what it was given: within its limits
(`Encoding.Readable`), and if it leaves the value as it is (`Encoding.kept`). The compact encoding
does not do so with an optional that holds an empty one (`received_emptied`).
-/

namespace FlowAccess
open Cadence

namespace Event

variable {eventType : String} {transactionId : Identifier} {transactionIndex eventIndex : UInt32}
  {e r : Event} {v : Value} {encoding : Encoding}

/-! ## Senders -/

theorem ofValue_eq_ok_iff :
    ofValue eventType transactionId transactionIndex eventIndex v encoding = .ok e ↔
      ∃ payload, encoding.encode v = .ok payload ∧
        e = { eventType, transactionId, transactionIndex, eventIndex, payload, encoding
              keptValue := some v } := by
  unfold ofValue
  cases encoding.encode v with
  | ok payload => simp [eq_comm]
  | error err => simp

/-! ## Receivers -/

theorem Same.encoding_eq (h : r.Same e) : r.encoding = e.encoding := by
  have h := congrArg Event.encoding h
  exact h

theorem Same.payload_eq (h : r.Same e) : r.payload = e.payload := by
  have h := congrArg Event.payload h
  exact h

/-- What an event says that was received for another of a value `v`: it shows what the encoding has
left of `v`, if that can be read, and so agrees with its sender exactly if this is all of `v`. -/
structure ReceivedFor (r e : Event) (v : Value) : Prop where
  same : r.Same e
  value : ∀ w, r.value.1 = .ok w ↔ e.encoding.Readable v ∧ w = e.encoding.kept v
  valueTypeId : ∀ t, r.valueTypeId.1 = .ok t ↔
    e.encoding.Readable v ∧ t = (e.encoding.kept v).typeId
  agrees : r.value.1 = e.value.1 ∧ r.valueTypeId.1 = e.valueTypeId.1 ↔
    e.encoding.Readable v ∧ e.encoding.kept v = v

/-- What a reader makes of an event that was sent of a value: it gets the event, unless it has asked
for values and the value cannot be read. -/
def Arrives (options : CodecOptions) (e : Event) (v : Value)
    (result : Except DecodingError Event) : Prop :=
  ((∃ r, result = .ok r) ↔ (options.eager → e.encoding.Readable v)) ∧
    ∀ r, result = .ok r → r.ReceivedFor e v

theorem Arrives.exists_received {options : CodecOptions} {result : Except DecodingError Event}
    (ha : Arrives options e v result) (hreadable : e.encoding.Readable v) :
    ∃ r, result = .ok r ∧ r.ReceivedFor e v := by
  obtain ⟨r, hr⟩ := ha.1.2 fun _ => hreadable
  exact ⟨r, hr, ha.2 r hr⟩

section
variable (hv : e.value.1 = .ok v) (ht : e.valueTypeId.1 = .ok v.typeId)
  (hd : ∀ values w, e.encoding.decode values e.payload = .ok w ↔
    e.encoding.Readable v ∧ w = e.encoding.kept v)

include hv ht hd

theorem receivedFor (hs : r.Same e) (hr : r.value.1 = r.payloadValue) (hn : r.NamesValue) :
    r.ReceivedFor e v := by
  have hencoding := hs.encoding_eq
  have hpayload := hs.payload_eq
  have hvalue : ∀ w, r.value.1 = .ok w ↔ e.encoding.Readable v ∧ w = e.encoding.kept v := by
    intro w
    rw [hr, payloadValue, mapError_eq_ok_iff, hencoding, hpayload, hd]
  have htype : ∀ t, r.valueTypeId.1 = .ok t ↔
      e.encoding.Readable v ∧ t = (e.encoding.kept v).typeId := by
    intro t
    rw [hn.valueTypeId_eq_ok_iff]
    constructor
    · rintro ⟨w, hw, rfl⟩
      obtain ⟨hreadable, rfl⟩ := (hvalue w).1 hw
      exact ⟨hreadable, rfl⟩
    · rintro ⟨hreadable, rfl⟩
      exact ⟨_, (hvalue _).2 ⟨hreadable, rfl⟩, rfl⟩
  refine ⟨hs, hvalue, htype, ?_⟩
  rw [hv, ht, hvalue, htype]
  constructor
  · rintro ⟨⟨hreadable, hkept⟩, -⟩
    exact ⟨hreadable, hkept.symm⟩
  · rintro ⟨hreadable, hkept⟩
    rw [hkept]
    exact ⟨⟨hreadable, rfl⟩, hreadable, rfl⟩

theorem arrives {options : CodecOptions} (he : e.encoding = options.encoding) :
    Arrives options e v
      (options.event e.eventType e.transactionId e.transactionIndex e.eventIndex e.payload) := by
  have hread (r : Event) := CodecOptions.event_eq_ok_iff (r := r) he
  constructor
  · have hreadable : e.Readable options ↔ (options.eager → e.encoding.Readable v) := by
      simp only [Readable, ← he, hd, exists_and_left, exists_eq, and_true, true_and]
    rw [← hreadable]
    constructor
    · rintro ⟨r, hr⟩
      exact ((hread r).1 hr).1
    · intro h
      exact ⟨_, (hread _).2 ⟨h, rfl⟩⟩
  · intro r hr
    have hb : r.Built := .read hr
    obtain ⟨-, rfl⟩ := (hread r).1 hr
    exact receivedFor hv ht hd (received_readBy options e) hb.value_eq hb.namesValue

end

/-- An event of a value shows this value. Whoever builds an event of the same payload, or reads the
event from either wire, has an event that compares equal, and reads the value as the encoding has
left it, if at all. That is what the sender has within the limits of the encoding, if the encoding
leaves the value as it is, and nowhere else. -/
theorem ofValue_received
    (h : ofValue eventType transactionId transactionIndex eventIndex v encoding = .ok e)
    (hc : encoding = .ccf → v.InMemory ∧ v.Agree) :
    e.encoding = encoding ∧ e.value.1 = .ok v ∧ e.valueTypeId.1 = .ok v.typeId ∧
    (∀ values, ReceivedFor (({ eventType, transactionId, transactionIndex, eventIndex, encoding
                               payload := e.payload } : Event).withOptions values) e v) ∧
    ∀ sent options, sent.encoding = encoding → options.encoding = encoding →
      (∃ bytes, Entity.event.toProtobuf sent e = .ok bytes ∧ (bytes.length < 2 ^ 64 →
        ∃ result, Entity.event.ofProtobuf? options bytes = some result ∧
          Arrives options e v result)) ∧
      ∃ text, Entity.event.toText sent e = .ok text ∧
        ∃ result, Entity.event.ofText? options text = some result ∧
          Arrives options e v result := by
  obtain ⟨payload, hp, rfl⟩ := ofValue_eq_ok_iff.1 h
  obtain ⟨payload', hp', hd⟩ := Encoding.exists_encode_decode hc
  obtain rfl := Except.ok.inj (hp.symm.trans hp')
  refine ⟨rfl, rfl, rfl, fun values => ?_, fun sent options hs ho => ?_⟩
  · exact receivedFor rfl rfl hd rfl (value_of_unkept rfl) nofun
  generalize he : ({ eventType, transactionId, transactionIndex, eventIndex, payload, encoding
                     keptValue := some v } : Event) = e at *
  obtain rfl : e.encoding = encoding := he ▸ rfl
  have hv : e.value.1 = .ok v := he ▸ rfl
  have ht : e.valueTypeId.1 = .ok v.typeId := he ▸ rfl
  have hd : ∀ values w, e.encoding.decode values e.payload = .ok w ↔
      e.encoding.Readable v ∧ w = e.encoding.kept v := he ▸ hd
  constructor
  · obtain ⟨m, hm, hread⟩ := Grpc.Event.exists_ofDomain_of_encoding hs.symm
    obtain ⟨bytes, hb, hr⟩ :=
      Grpc.exists_serialize_of_write (W := Grpc.Event) (D := Event) (by decide) hm
    refine ⟨bytes, hb, fun hlength => ?_⟩
    exact ⟨_, (hr hlength options).trans (congrArg some (hread options)),
      arrives hv ht hd ho.symm⟩
  · obtain ⟨d, hw, hread⟩ := Rest.Event.exists_ofDomain_of_encoding hs.symm
    obtain ⟨text, ht', hr⟩ := Rest.exists_serialize_of_write (W := Rest.Event) (D := Event) hw
    exact ⟨text, ht', _, (hr options).trans (congrArg some (hread options)),
      arrives hv ht hd ho.symm⟩

/-- The event `paused` of another value. -/
def pausedOf (v : Value) : Except EncodingError Event :=
  ofValue paused.eventType paused.transactionId paused.transactionIndex paused.eventIndex v .ccf

/-- Two instances of a type, with an optional in one of them. -/
def agreeing : Value :=
  .array [.composite .struct "S" [("a", .present (.bool true))],
    .composite .struct "S" [("a", .bool false)]]

theorem inMemory_agreeing : agreeing.InMemory where
  lengths := by
    simp only [agreeing, Value.LengthsFit, Value.ItemsFit, Value.FieldsFit, Value.TextFits]
    decide
  types := by decide

/-- The two instances are received as they were sent, in bytes that are to be decoded at once as
well as in a text that is not. -/
theorem ofValue_received_agreeing :
    agreeing.InMemory ∧ agreeing.Agree ∧ ∃ e, pausedOf agreeing = .ok e ∧
      e.value.1 = .ok agreeing ∧ e.valueTypeId.1 = .ok "[S]" ∧
      ((paused.withPayload e.payload).Same e ∧
        (paused.withPayload e.payload).value.1 = e.value.1 ∧
        (paused.withPayload e.payload).valueTypeId.1 = e.valueTypeId.1) ∧
      (∃ bytes r, Entity.event.toProtobuf {} e = .ok bytes ∧
        Entity.event.ofProtobuf? {} bytes = some (.ok r) ∧
        Same r e ∧ (value r).1 = e.value.1 ∧ (valueTypeId r).1 = e.valueTypeId.1) ∧
      ∃ text r, Entity.event.toText {} e = .ok text ∧
        Entity.event.ofText? { eager := false } text = some (.ok r) ∧
        Same r e ∧ (value r).1 = e.value.1 ∧ (valueTypeId r).1 = e.valueTypeId.1 := by
  have hm := inMemory_agreeing
  have ha : agreeing.Agree := by decide
  obtain ⟨payload, hp, -⟩ := Encoding.exists_encode_decode fun _ : Encoding.ccf = .ccf => ⟨hm, ha⟩
  have h : pausedOf agreeing = .ok _ := ofValue_eq_ok_iff.2 ⟨payload, hp, rfl⟩
  have hroom : Encoding.ccf.Readable agreeing := by
    show Ccf.messageRoom agreeing ≤ Ccf.fullRoom
    decide
  obtain ⟨-, hv, ht, hr, hwires⟩ := ofValue_received h fun _ => ⟨hm, ha⟩
  refine ⟨hm, ha, _, h, hv, ht, ⟨(hr {}).same, (hr {}).agrees.2 ⟨hroom, rfl⟩⟩, ?_, ?_⟩
  · obtain ⟨⟨bytes, hw, hread⟩, -⟩ := hwires {} {} rfl rfl
    have hlength : bytes.length < 2 ^ 64 := by
      have hl : ((pausedOf agreeing).toOption.all fun e : Event =>
          (Entity.event.toProtobuf {} e).toOption.all (·.length < 2 ^ 64)) = true := by
        decide +kernel
      rw [h, toOption_ok, Option.all_some, hw] at hl
      exact of_decide_eq_true hl
    obtain ⟨result, hresult, harrives⟩ := hread hlength
    obtain ⟨r, rfl, hfor⟩ := harrives.exists_received hroom
    exact ⟨bytes, r, hw, hresult, hfor.same, hfor.agrees.2 ⟨hroom, rfl⟩⟩
  · obtain ⟨-, text, hw, result, hresult, harrives⟩ := hwires {} { eager := false } rfl rfl
    obtain ⟨r, rfl, hfor⟩ := harrives.exists_received hroom
    exact ⟨text, r, hw, hresult, hfor.same, hfor.agrees.2 ⟨hroom, rfl⟩⟩

/-- An optional that holds an empty one is received as an empty one, in an event that is the
same. -/
theorem received_emptied :
    ∃ e, pausedOf (.present .absent) = .ok e ∧ (paused.withPayload e.payload).Same e ∧
      e.value.1 = .ok (.present .absent) ∧ e.valueTypeId.1 = .ok "Never??" ∧
      (paused.withPayload e.payload).value.1 = .ok .absent ∧
      (paused.withPayload e.payload).valueTypeId.1 = .ok "Never?" := by
  have hm : (Value.present .absent).InMemory := ⟨trivial, by decide⟩
  have ha : (Value.present .absent).Agree := by decide
  obtain ⟨payload, hp, hd⟩ := Encoding.exists_encode_decode fun _ : Encoding.ccf = .ccf => ⟨hm, ha⟩
  have h : pausedOf (.present .absent) = .ok _ := ofValue_eq_ok_iff.2 ⟨payload, hp, rfl⟩
  have hroom : Encoding.ccf.Readable (.present .absent) :=
    Encoding.readable_of_nesting_le _ trivial (by decide)
  have hr : ReceivedFor (paused.withPayload payload) _ (.present .absent) :=
    receivedFor (e := { paused.withPayload payload with keptValue := some (.present .absent) })
      rfl rfl hd rfl (value_of_unkept rfl) nofun
  exact ⟨_, h, hr.same, rfl, rfl, (hr.value _).2 ⟨hroom, rfl⟩,
    (hr.valueTypeId _).2 ⟨hroom, rfl⟩⟩

end Event
end FlowAccess
