import FlowAccess.Proofs.Codec

/-!
# What an event keeps

An event may be asked for its value, copied, and given another payload or other options, in any
order. What it keeps is never what a failed decoding left, and all that it says of its value is of
one value (`Event.value_uses`). Nothing that is kept is given up, though: the value is that of the
payload and the options with which it was first decoded (`Event.source`), also when the event has
got others since then.
-/

namespace FlowAccess

open Cadence

namespace Event

/-! ## Histories -/

/-- What can be done with an event. -/
inductive Use where
  | value
  | valueTypeId
  | payloadIn (encoding : Encoding)
  | isDecoded
  | clone
  | withOptions (options : ValueOptions)
  | withPayload (payload : Bytes)
  deriving DecidableEq

/-- The event after it was used. A copy takes along what is kept. -/
def use (e : Event) : Use → Event
  | .value => e.value.2
  | .valueTypeId => e.valueTypeId.2
  | .payloadIn encoding => (e.payloadIn encoding).2
  | .isDecoded => e
  | .clone => e
  | .withOptions options => e.withOptions options
  | .withPayload payload => e.withPayload payload

def uses (e : Event) (us : List Use) : Event := us.foldl use e

/-- Events as they are built: of a payload that nothing has looked at, or as a codec reads them. -/
inductive Built : Event → Prop
  | ofPayload (eventType : String) (transactionId : Identifier)
    (transactionIndex eventIndex : UInt32) (payload : Bytes) (encoding : Encoding) :
    Built { eventType, transactionId, transactionIndex, eventIndex, payload, encoding }
  | read {options : CodecOptions} {eventType : String} {transactionId : Identifier}
    {transactionIndex eventIndex : UInt32} {payload : Bytes} {e : Event} :
    options.event eventType transactionId transactionIndex eventIndex payload = .ok e → Built e

/-- The value of the payload as it is, whatever has been kept. -/
def payloadValue (e : Event) : Except DecodingError Value :=
  (e.encoding.decode e.options e.payload).mapError .payload

/-- The event as it was when its value was decoded, in front of the use that asked for it; as it is
in the end if the value has not been decoded. -/
def source (e : Event) : List Use → Event
  | [] => e
  | u :: us => if (e.use u).isDecoded then e else (e.use u).source us

variable {e : Event} {v : Value}

/-! ## Single uses -/

theorem value_of_kept (h : e.keptValue = some v) : e.value = (.ok v, e) := by
  rw [value, h]

theorem value_of_unkept (h : e.keptValue = none) : e.value.1 = e.payloadValue := by
  unfold value payloadValue
  rw [h]
  cases e.encoding.decode e.options e.payload <;> rfl

/-- An event either has a value, which it keeps when it is asked for it, or stays as it is. -/
theorem value_cases (e : Event) :
    (∃ v, e.value = (.ok v, { e with keptValue := some v })) ∨
      ∃ err, e.keptValue = none ∧ e.value = (.error err, e) := by
  cases h : e.keptValue with
  | some v => exact .inl ⟨v, by rw [value_of_kept h, ← h]⟩
  | none =>
    unfold value
    rw [h]
    cases e.encoding.decode e.options e.payload with
    | ok v => exact .inl ⟨v, rfl⟩
    | error err => exact .inr ⟨.payload err, rfl, rfl⟩

/-- A value that cannot be decoded is not kept. -/
theorem value_snd_of_error {err : DecodingError} (h : e.value.1 = .error err) :
    e.isDecoded = false ∧ e.value.2 = e := by
  obtain ⟨v, hv⟩ | ⟨_, hk, hv⟩ := value_cases e
  · rw [hv] at h
    cases h
  · rw [isDecoded, hk, hv]
    exact ⟨rfl, rfl⟩

theorem valueTypeId_of_error {err : DecodingError} (h : e.value = (.error err, e)) :
    e.valueTypeId = (.error err, e) := by
  rw [valueTypeId, h]

theorem valueTypeId_of_ok (h : e.value = (.ok v, { e with keptValue := some v })) :
    e.valueTypeId = (.ok (e.keptTypeId.getD v.typeId),
      { e with keptValue := some v, keptTypeId := some (e.keptTypeId.getD v.typeId) }) := by
  rw [valueTypeId, h]
  cases hk : e.keptTypeId <;> rfl

/-- The payload in another encoding is that of the value, for which the event is asked. -/
theorem payloadIn_of_ne {encoding : Encoding} (hne : encoding ≠ e.encoding) :
    (e.payloadIn encoding).2 = e.value.2 ∧ ∀ p, (e.payloadIn encoding).1 = .ok p ↔
      ∃ v, e.value.1 = .ok v ∧ encoding.encode v = .ok p := by
  rw [payloadIn, if_neg hne]
  rcases e.value with ⟨_ | v, e'⟩
  · exact ⟨rfl, fun p => iff_of_false nofun nofun⟩
  · cases hp : encoding.encode v with
    | error err =>
      simp [hp]
    | ok p => simp [hp]

/-- What a use leaves of an event. A value that was asked for is kept, with or without a name of its
type; and nothing else changes what is kept. -/
inductive Used (e : Event) : Event → Prop
  | asked (v : Value) (hv : e.value.1 = .ok v) (name : Option String)
    (hn : name = e.keptTypeId ∨ name = some (e.keptTypeId.getD v.typeId)) :
    Used e { e with keptValue := some v, keptTypeId := name }
  | spared (payload : Bytes) (options : ValueOptions) : Used e { e with payload, options }

theorem used_use (e : Event) (u : Use) : Used e (e.use u) := by
  have hvalue : Used e e.value.2 ∧ Used e e.valueTypeId.2 := by
    obtain ⟨v, hv⟩ | ⟨err, -, hv⟩ := value_cases e
    · rw [valueTypeId_of_ok hv, hv]
      have h : e.value.1 = .ok v := by rw [hv]
      exact ⟨.asked v h e.keptTypeId (.inl rfl), .asked v h _ (.inr rfl)⟩
    · rw [valueTypeId_of_error hv, hv]
      exact ⟨.spared e.payload e.options, .spared e.payload e.options⟩
  cases u with
  | value => exact hvalue.1
  | valueTypeId => exact hvalue.2
  | payloadIn encoding =>
    by_cases he : encoding = e.encoding
    · rw [use, payloadIn, if_pos he]
      exact .spared e.payload e.options
    · rw [use, (payloadIn_of_ne he).1]
      exact hvalue.1
  | isDecoded | clone => exact .spared e.payload e.options
  | withOptions options => exact .spared e.payload options
  | withPayload payload => exact .spared payload e.options

namespace Used

variable {e' : Event}

theorem encoding_eq (h : Used e e') : e'.encoding = e.encoding := by
  cases h <;> rfl

/-- What is kept is not given up. -/
theorem keptValue_eq (h : Used e e') (hk : e.keptValue = some v) : e'.keptValue = some v := by
  cases h with
  | asked w hw name hn =>
    rw [value_of_kept hk] at hw
    cases hw
    rfl
  | spared payload options => exact hk

/-- What is kept after a use is what the event gave before it. -/
theorem value_eq_of_kept (h : Used e e') (hk : e'.keptValue = some v) : e.value.1 = .ok v := by
  cases h with
  | asked w hw name hn =>
    cases hk
    exact hw
  | spared payload options => rw [value_of_kept (e := e) hk]

end Used

/-- The name that an event keeps is that of the type of the value that it keeps. -/
def NamesValue (e : Event) : Prop :=
  ∀ t, e.keptTypeId = some t → ∃ v, e.keptValue = some v ∧ v.typeId = t

/-- A name that is kept is the one that the value has anyway. -/
theorem NamesValue.getD_eq (h : e.NamesValue) (hv : e.value.1 = .ok v) :
    e.keptTypeId.getD v.typeId = v.typeId := by
  cases hk : e.keptTypeId with
  | none => rfl
  | some t =>
    obtain ⟨w, hw, ht⟩ := h t hk
    rw [value_of_kept hw] at hv
    cases hv
    exact ht.symm

theorem NamesValue.used {e' : Event} (h : e.NamesValue) (hu : Used e e') : e'.NamesValue := by
  cases hu with
  | spared payload options => exact h
  | asked v hv name hn =>
    rintro t rfl
    refine ⟨v, rfl, ?_⟩
    obtain hn | hn := hn
    · rw [← h.getD_eq hv, ← hn, Option.getD_some]
    · rw [h.getD_eq hv] at hn
      exact (Option.some.inj hn).symm

theorem NamesValue.valueTypeId_eq_ok_iff (h : e.NamesValue) {t : String} :
    e.valueTypeId.1 = .ok t ↔ ∃ v, e.value.1 = .ok v ∧ v.typeId = t := by
  obtain ⟨v, hv⟩ | ⟨err, -, hv⟩ := value_cases e
  · rw [valueTypeId_of_ok hv, h.getD_eq (v := v) (by rw [hv]), hv]
    simp
  · rw [valueTypeId_of_error hv, hv]
    exact iff_of_false nofun nofun

/-! ## Runs -/

theorem uses_induction {P : Event → Prop} (h : P e) (hu : ∀ e e', Used e e' → P e → P e')
    (us : List Use) : P (e.uses us) := by
  induction us generalizing e with
  | nil => exact h
  | cons u us ih => exact ih (hu e _ (used_use e u) h)

theorem encoding_uses (e : Event) (us : List Use) : (e.uses us).encoding = e.encoding :=
  uses_induction (P := fun e' => e'.encoding = e.encoding) rfl
    (fun _ _ hu h => hu.encoding_eq.trans h) us

theorem value_uses_of_kept (h : e.keptValue = some v) (us : List Use) :
    (e.uses us).value.1 = .ok v := by
  have hk := uses_induction (P := fun e' => e'.keptValue = some v) h
    (fun _ _ hu h => hu.keptValue_eq h) us
  rw [value_of_kept hk]

/-- The source is what the event was after some of the uses. -/
theorem exists_source_eq_uses (e : Event) (us : List Use) :
    ∃ before after, us = before ++ after ∧ e.source us = e.uses before := by
  induction us generalizing e with
  | nil => exact ⟨[], [], rfl, rfl⟩
  | cons u us ih =>
    rw [source]
    split
    · exact ⟨[], u :: us, rfl, rfl⟩
    · obtain ⟨before, after, rfl, hs⟩ := ih (e.use u)
      exact ⟨u :: before, after, rfl, hs⟩

/-- The value comes from the source, if at first it comes from the payload. -/
theorem value_uses_eq_source (h : e.value.1 = e.payloadValue) (us : List Use) :
    (e.uses us).value.1 = (e.source us).payloadValue := by
  induction us generalizing e with
  | nil => exact h
  | cons u us ih =>
    show ((e.use u).uses us).value.1 = _
    rw [source]
    cases hk : (e.use u).keptValue with
    | none =>
      rw [if_neg (by simp [isDecoded, hk])]
      exact ih (value_of_unkept hk)
    | some v =>
      rw [if_pos (by simp [isDecoded, hk]), ← h, (used_use e u).value_eq_of_kept hk]
      exact value_uses_of_kept hk us

/-! ## Events as they are built -/

theorem Built.value_eq (h : e.Built) : e.value.1 = e.payloadValue := by
  cases hk : e.keptValue with
  | none => exact value_of_unkept hk
  | some v =>
    cases h with
    | ofPayload => cases hk
    | @read options _ _ _ _ _ _ h =>
      obtain ⟨⟨he, -⟩, hr⟩ := CodecOptions.readable_of_event h
      have ho : options.values = e.options := congrArg Event.options hr
      have hv : (if options.eager then (options.encoding.decode options.values e.payload).toOption
          else none) = some v := (congrArg Event.keptValue hr).trans hk
      split at hv
      · rw [value_of_kept hk, payloadValue, he, ← ho, toOption_eq_some_iff.1 hv]
        rfl
      · cases hv

theorem Built.namesValue (h : e.Built) : e.NamesValue := by
  cases h with
  | ofPayload => nofun
  | read h =>
    have hr := (CodecOptions.readable_of_event h).2
    intro t ht
    rw [← hr] at ht
    cases ht

/-- All that an event says of its value, after any uses, is of one value: the one that its payload
and its options at the source had. It is the value of the payload as it is if neither the payload
nor the options have been replaced since then. A value that cannot be decoded is not kept. -/
theorem value_uses (hb : e.Built) (us : List Use) :
    (e.uses us).value.1 = (e.source us).payloadValue ∧
    ((e.source us).payload = (e.uses us).payload → (e.source us).options = (e.uses us).options →
      (e.uses us).value.1 = (e.uses us).payloadValue) ∧
    (∀ t, (e.uses us).valueTypeId.1 = .ok t ↔
      ∃ v, (e.uses us).value.1 = .ok v ∧ v.typeId = t) ∧
    (∀ encoding, encoding ≠ (e.uses us).encoding →
      ∀ p, ((e.uses us).payloadIn encoding).1 = .ok p ↔
        ∃ v, (e.uses us).value.1 = .ok v ∧ encoding.encode v = .ok p) ∧
    ∀ err, (e.uses us).value.1 = .error err →
      (e.uses us).isDecoded = false ∧ (e.uses us).value.2 = e.uses us := by
  have hsource := value_uses_eq_source hb.value_eq us
  have hnames : (e.uses us).NamesValue :=
    uses_induction hb.namesValue (fun _ _ hu h => h.used hu) us
  refine ⟨hsource, fun hp ho => ?_, fun t => hnames.valueTypeId_eq_ok_iff,
    fun encoding hne => (payloadIn_of_ne hne).2, fun err => value_snd_of_error⟩
  obtain ⟨before, -, -, hs⟩ := exists_source_eq_uses e us
  have he : (e.source us).encoding = (e.uses us).encoding := by
    rw [hs, encoding_uses, encoding_uses]
  rw [hsource, payloadValue, he, hp, ho, payloadValue]

/-- The compact form of a truth value. -/
def truthPayload (b : Bool) : Bytes :=
  [0xD8, 0x82, 0x82, 0xD8, 0x89, 0x00, if b then 0xF5 else 0xF4]

/-- An event with the value `true`. -/
def paused : Event where
  eventType := "A.0000000000000001.Token.Paused"
  transactionId := .ofNat 32 7
  transactionIndex := 0
  eventIndex := 0
  payload := truthPayload true
  encoding := .ccf

/-- An event that gets another payload after it was decoded goes on to give the value of the old
one. -/
theorem value_uses_replaced :
    paused.Built ∧
      (paused.uses [.value, .withPayload (truthPayload false)]).value.1 = .ok (.bool true) ∧
      (paused.uses [.value, .withPayload (truthPayload false)]).payloadValue =
        .ok (.bool false) := by
  have hb : paused.Built := .ofPayload ..
  obtain ⟨hsource, -⟩ := value_uses hb [.value, .withPayload (truthPayload false)]
  have hold : (paused.source [.value, .withPayload (truthPayload false)]).payloadValue.toOption =
      some (.bool true) := by decide +kernel
  have hnew : (paused.uses [.value, .withPayload (truthPayload false)]).payloadValue.toOption =
      some (.bool false) := by decide +kernel
  exact ⟨hb, hsource.trans (toOption_eq_some_iff.1 hold), toOption_eq_some_iff.1 hnew⟩

end Event
end FlowAccess
