import FlowAccess.Event
import FlowAccess.Proofs.Ccf.RoundTrip
import FlowAccess.Proofs.JsonCdc.RoundTrip

/-!
# Transcoding

A payload that is received in one encoding is passed on in the other through its value. The
encodings do not take the same values: each has a limit of its own on nesting, which the writers do
not know of, and a character of several code points has a compact form only. Within these limits
(`Encoding.Readable`) the receiver reads the value that was sent (`transcode_then_decode`), and
values of up to 31 levels are within all of them (`readable_of_nesting_le`).
-/

namespace FlowAccess

open Cadence

namespace Encoding

/-- What is written of a value in the encoding can be read again. -/
def Readable : Encoding → Value → Prop
  | .ccf, v => Ccf.messageRoom v ≤ Ccf.fullRoom
  | .jsonCdc, v => v.SingleCharacters ∧ v.containers ≤ 127

/-- What is left of a value in the encoding. -/
def kept : Encoding → Value → Value
  | .ccf, v => v.collapse
  | .jsonCdc, v => v

end Encoding

namespace Cadence.Value

mutual

/-- A level of a value is at most four containers. -/
theorem containers_le : (v : Value) → v.containers ≤ 4 * v.nesting + 1
  | .present v => by
    have := containers_le v
    simp only [containers, nesting]
    omega
  | .array items => by
    have := containersItems_le items
    simp only [containers, nesting]
    omega
  | .dictionary entries => by
    have := containersEntries_le entries
    simp only [containers, nesting]
    split <;> omega
  | .composite _ _ fields => by
    have := containersFields_le fields
    simp only [containers, nesting]
    split <;> omega
  | .absent => by decide
  | .void | .bool _ | .string _ | .character _ | .address _ | .number _ => Nat.le_refl 1

theorem containersItems_le : (items : List Value) →
    containersItems items ≤ 4 * nestingItems items + 1
  | [] => Nat.zero_le _
  | v :: rest => by
    have hv := containers_le v
    have hr := containersItems_le rest
    simp only [containersItems, nestingItems]
    omega

theorem containersEntries_le : (entries : List (Value × Value)) →
    containersEntries entries ≤ 4 * nestingEntries entries + 1
  | [] => Nat.zero_le _
  | (k, v) :: rest => by
    have hk := containers_le k
    have hv := containers_le v
    have hr := containersEntries_le rest
    simp only [containersEntries, nestingEntries]
    omega

theorem containersFields_le : (fields : List (String × Value)) →
    containersFields fields ≤ 4 * nestingFields fields + 1
  | [] => Nat.zero_le _
  | (_, v) :: rest => by
    have hv := containers_le v
    have hr := containersFields_le rest
    simp only [containersFields, nestingFields]
    omega

end
end Cadence.Value

namespace Encoding

variable {source target : Encoding} {options : ValueOptions} {v w : Value} {p : Bytes}

/-- A value of single characters and up to 31 levels can be read in every encoding. -/
theorem readable_of_nesting_le (target : Encoding) (hs : v.SingleCharacters)
    (hn : v.nesting ≤ 31) : target.Readable v := by
  cases target with
  | ccf => exact Ccf.messageRoom_le_fullRoom (by omega)
  | jsonCdc =>
    have := v.containers_le
    exact ⟨hs, by omega⟩

/-- A value whose instances agree is written in both encodings, and what is written is read as what
is left of it, if it is read at all. -/
theorem exists_encode_decode (hc : target = .ccf → v.InMemory ∧ v.Agree) :
    ∃ p, target.encode v = .ok p ∧
      ∀ options w, target.decode options p = .ok w ↔ target.Readable v ∧ w = target.kept v := by
  cases target with
  | ccf =>
    obtain ⟨hm, hag⟩ := hc rfl
    obtain ⟨p, he, -⟩ := Ccf.exists_encode hm.types hm.lengths hag.matched
    refine ⟨p, he, fun _ w => ?_⟩
    show Ccf.decode p = .ok w ↔ _ ∧ w = v.collapse
    rw [← (Value.collapse_conform_eq_iff hag.matched).2 hag]
    exact Ccf.decode_eq_ok_iff hm he
  | jsonCdc => exact ⟨_, rfl, fun _ _ => JsonCdc.decode_encode_eq_ok_iff⟩

end Encoding

namespace Event

variable {e : Event} {target : Encoding} {v : Value} {p : Bytes}

/-- The value of an event is the one of its payload, unless it has kept another. -/
theorem value_eq (hd : e.encoding.decode e.options e.payload = .ok v)
    (hk : ∀ w ∈ e.keptValue, w = v) : e.value.1 = .ok v := by
  unfold value
  cases hkept : e.keptValue with
  | none => simp only [hd]
  | some w => rw [hk w hkept]

/-- In the other encoding the payload of an event is that of its value. -/
theorem payloadIn_eq (hne : e.encoding ≠ target) (hv : e.value.1 = .ok v)
    (he : target.encode v = .ok p) : (e.payloadIn target).1 = .ok p := by
  rw [payloadIn, if_neg hne.symm]
  rcases h : e.value with ⟨result, decoded⟩
  rw [h] at hv
  obtain rfl : result = .ok v := hv
  simp only [he]

end Event

/-- What is transcoded can be read again if the other encoding has room for the value, and then
has kept of the value all that the other encoding keeps of any. -/
theorem transcode_then_decode {source target : Encoding} (hne : source ≠ target)
    {options : ValueOptions} {p : Bytes} {v : Value} (hd : source.decode options p = .ok v)
    (hc : target = .ccf → v.InMemory ∧ v.Agree) :
    ∃ p', target.encode v = .ok p' ∧
      (∀ e : Event, e.encoding = source → e.options = options → e.payload = p →
        (∀ w ∈ e.keptValue, w = v) → (e.payloadIn target).1 = .ok p') ∧
      ∀ options' w, target.decode options' p' = .ok w ↔ target.Readable v ∧ w = target.kept v := by
  obtain ⟨p', he, hr⟩ := Encoding.exists_encode_decode hc
  refine ⟨p', he, ?_, hr⟩
  rintro e rfl rfl rfl hk
  exact Event.payloadIn_eq hne (Event.value_eq hd hk) he

/-- An optional that holds an empty one comes out of the compact encoding empty. -/
theorem transcode_then_decode_mixed :
    Encoding.jsonCdc ≠ .ccf ∧
      Encoding.jsonCdc.decode {} (JsonCdc.encode Ccf.mixed) = .ok Ccf.mixed ∧
      Ccf.mixed.InMemory ∧ Ccf.mixed.Agree ∧
      ∃ p', Encoding.ccf.encode Ccf.mixed = .ok p' ∧
        ∀ options, Encoding.ccf.decode options p' = .ok Ccf.mixed.collapse := by
  have hs : Ccf.mixed.SingleCharacters := by
    simp [Ccf.mixed, Value.SingleCharacters, Value.SingleCharactersItems,
      Value.SingleCharactersFields]
  have hn : Ccf.mixed.containers ≤ 127 := by decide +kernel
  have hr : JsonCdc.decode {} (JsonCdc.encode Ccf.mixed) = .ok Ccf.mixed :=
    JsonCdc.decode_encode_eq_ok_iff.2 ⟨⟨hs, hn⟩, rfl⟩
  have hd : Encoding.jsonCdc.decode {} (JsonCdc.encode Ccf.mixed) = .ok Ccf.mixed := hr
  have ha : Ccf.mixed.Agree := by decide
  have hne : Encoding.jsonCdc ≠ .ccf := by decide
  obtain ⟨p', he, -, hr⟩ := transcode_then_decode hne hd fun _ => ⟨Ccf.inMemory_mixed, ha⟩
  have hroom : Encoding.ccf.Readable Ccf.mixed := Encoding.readable_of_nesting_le _ hs (by decide)
  exact ⟨hne, hd, Ccf.inMemory_mixed, ha, p', he, fun options =>
    (hr options _).2 ⟨hroom, rfl⟩⟩

/-! ## Beyond the limits -/

/-- An empty array inside of `n` arrays. -/
def nested : Nat → Value
  | 0 => .array []
  | n + 1 => .array [nested n]

theorem lengthsFit_nested (n : Nat) : (nested n).LengthsFit := by
  induction n with
  | zero => exact ⟨by decide, trivial⟩
  | succ n ih => exact ⟨by simp, ih, trivial⟩

/-- The compact encoding has room for 64 arrays, and the text that they are transcoded to cannot be
read. -/
theorem unreadable_transcoded :
    ∃ p, Encoding.ccf.encode (nested 63) = .ok p ∧
      (∀ options, Encoding.ccf.decode options p = .ok (nested 63)) ∧
      ∃ p', Encoding.jsonCdc.encode (nested 63) = .ok p' ∧
        ∀ options w, Encoding.jsonCdc.decode options p' ≠ .ok w := by
  have hm : (nested 63).InMemory := ⟨lengthsFit_nested 63, by decide⟩
  have ha : (nested 63).Agree := by decide
  have hroom : Encoding.ccf.Readable (nested 63) := by
    show Ccf.messageRoom (nested 63) ≤ Ccf.fullRoom
    decide +kernel
  have hc : (nested 63).collapse = nested 63 := rfl
  obtain ⟨p, he, hr⟩ := Encoding.exists_encode_decode fun _ => ⟨hm, ha⟩
  obtain ⟨p', he', hr'⟩ := @Encoding.exists_encode_decode .jsonCdc (nested 63) fun h => nomatch h
  refine ⟨p, he, fun options => (hr options _).2 ⟨hroom, hc.symm⟩, p', he', fun options w h => ?_⟩
  have hn : (nested 63).containers ≤ 127 := ((hr' options w).1 h).1.2
  exact absurd hn (by decide +kernel)

end FlowAccess
