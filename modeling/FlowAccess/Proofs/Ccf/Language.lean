import FlowAccess.Proofs.Ccf.Parts

/-!
# The language of the decoder

A byte string is decoded exactly if it is a message of the grammar, to the value that the message
denotes (`decode_eq_ok_iff_isMessage`). Nothing can be appended to a message and nothing can be cut
off its end (`decode_extended_or_cut`).

A list of definitions has at least one, but the decoder also takes an empty one
(`decode_eq_ok_iff_grammar`). No writer produces it, since a value without composites has no list.
-/

namespace FlowAccess.Cadence.Ccf

open Cbor (IsItem isHead_head)
open Piece

variable {b : Bytes} {v : Value}

theorem decode_eq_ok_iff_readMessage : decode b = .ok v ↔ readMessage b = .ok (v, []) := by
  rw [decode]
  split <;> simp_all

/-- What is decoded are the messages whose list of definitions has any length. -/
theorem decode_eq_ok_iff_isMessage : decode b = .ok v ↔ IsMessage 0 b v := by
  rw [decode_eq_ok_iff_readMessage]
  constructor
  · intro h
    obtain ⟨bs, hm, rfl⟩ := takes_message.sound h
    rwa [List.append_nil]
  · intro h
    have := (takes_message.complete h []).1 trivial
    rwa [List.append_nil] at this

/-- A list of definitions of any length has at least one of them or is empty. -/
theorem isMessage_zero_iff : IsMessage 0 b v ↔ IsMessage 1 b v ∨
    ∃ lb bs, IsDefinitionList lb [] ∧ IsTypedValue [] bs v ∧ b = lb ++ bs := by
  constructor
  · intro h
    cases h with
    | plain h => exact .inl (.plain h)
    | @defined lb bs defs _ _ hl h =>
      cases defs with
      | nil => exact .inr ⟨lb, bs, hl, h, rfl⟩
      | cons d defs => exact .inl (.defined (Nat.le_add_left ..) hl h)
  · rintro (h | ⟨lb, bs, hl, h, rfl⟩)
    · cases h with
      | plain h => exact .plain h
      | defined _ hl h => exact .defined (Nat.zero_le _) hl h
    · exact .defined (Nat.zero_le _) hl h

/-- What is decoded is one item, and a message of the grammar or one that has an empty list of
definitions. -/
theorem decode_eq_ok_iff_grammar (b : Bytes) (v : Value) :
    decode b = .ok v ↔ IsItem b ∧ (IsMessage 1 b v ∨
      ∃ lb bs, IsDefinitionList lb [] ∧ IsTypedValue [] bs v ∧ b = lb ++ bs) := by
  rw [decode_eq_ok_iff_isMessage, ← isMessage_zero_iff]
  exact (and_iff_right_of_imp IsMessage.isItem).symm

/-- What has an empty list of definitions is no message of the grammar. -/
theorem not_isMessage_of_empty {lb bs : Bytes} {w : Value} (hl : IsDefinitionList lb [])
    (h : IsTypedValue [] bs v) : ¬IsMessage 1 (lb ++ bs) w := by
  obtain ⟨⟨hs, -, -⟩, -⟩ := h
  generalize hb : lb ++ _ = b
  intro hm
  cases hm with
  | plain h =>
    obtain ⟨⟨hs', -, -⟩, -⟩ := h
    generalize [] = defs at hl
    obtain ⟨ht, -, -, -⟩ := hl
    simp only [List.append_assoc] at hb
    obtain ⟨-, he⟩ := takes_tag.unique ht hs' hb
    cases he
  | @defined lb' _ _ _ hn hl' h =>
    obtain ⟨⟨hs', -, -⟩, -⟩ := h
    simp only [List.append_assoc] at hb
    rw [← List.append_assoc, ← List.append_assoc lb'] at hb
    obtain ⟨-, rfl⟩ := takes_definitions.unique (.inr ⟨_, _, hl, hs, rfl⟩)
      (.inr ⟨_, _, hl', hs', rfl⟩) hb
    cases hn

/-- A truth value that follows an empty list of definitions. -/
def undefinedTruth : Bytes :=
  [0xd8, 0x81, 0x82, 0x80, 0xd8, 0x82, 0x82, 0xd8, 0x89, 0x00, 0xf5]

theorem decode_undefinedTruth :
    decode undefinedTruth = .ok (.bool true) ∧ ¬IsMessage 1 undefinedTruth (.bool true) := by
  have hl : IsDefinitionList (tagHead Tag.typedefsAndValue ++ arrayHead 2 ++ arrayHead 0 ++ join [])
      (contents []) :=
    .intro (isHead_head _ (by decide)) (isHead_head _ (by decide)) (isHead_head _ (by decide)) nofun
  have hd : IsDeclaration 0 (tagHead Tag.typedValue ++ arrayHead 2 ++
      (tagHead Tag.simple ++ Cbor.head .unsigned SimpleType.bool.code)) (.simple _) :=
    .intro (isHead_head _ (by decide)) (isHead_head _ (by decide))
      (.simple (by decide) (isHead_head _ (by decide)) (isHead_head _ (by decide)))
  have hv : IsTypedValue [] _ (.bool true) := .intro hd (.simple (by decide) (.bool true))
  exact ⟨by decide +kernel, not_isMessage_of_empty hl hv⟩

/-! ## Messages in front of others -/

theorem decode_append (h : decode b = .ok v) {x : Bytes} (hx : x ≠ []) :
    decode (b ++ x) = .error (.malformedCcf .trailingBytes) := by
  have hr := (takes_message.complete (decode_eq_ok_iff_isMessage.1 h) x).1 trivial
  rw [decode, hr]
  cases x with
  | nil => exact absurd rfl hx
  | cons _ _ => rfl

/-- A message in front of another is that message. -/
theorem eq_of_isPrefix {c : Bytes} {w : Value} (hb : decode b = .ok v) (hc : decode c = .ok w)
    (h : b <+: c) : b = c := by
  obtain ⟨x, rfl⟩ := h
  by_cases hx : x = []
  · rw [hx, List.append_nil]
  · rw [decode_append hb hx] at hc
    cases hc

/-- What follows a message is reported, and no message is the front of another. -/
theorem decode_extended_or_cut (h : decode b = .ok v) :
    (∀ x ≠ [], decode (b ++ x) = .error (.malformedCcf .trailingBytes)) ∧
    (Error.malformedCcf .trailingBytes).message =
      "malformed CCF payload: trailing bytes after message" ∧
    (∀ p, p <+: b → p ≠ b → ∃ e, decode p = .error e) ∧
    ∀ c w, decode c = .ok w → c <+: b ∨ b <+: c → c = b := by
  refine ⟨fun x => decode_append h, by decide, fun p hp hne => ?_, fun c w hc hp => ?_⟩
  · cases hd : decode p with
    | error e => exact ⟨e, rfl⟩
    | ok w => exact absurd (eq_of_isPrefix hd h hp) hne
  · rcases hp with hp | hp
    · exact eq_of_isPrefix hc h hp
    · exact (eq_of_isPrefix h hc hp).symm

/-- An optional of a truth value that is not there. -/
def absence : Bytes := [0xd8, 0x82, 0x82, 0xd8, 0x8a, 0xd8, 0x89, 0x00, 0xf6]

theorem decode_extended_or_cut_absence :
    decode absence = .ok .absent ∧
      (∀ x ≠ [], decode (absence ++ x) = .error (.malformedCcf .trailingBytes)) ∧
      ∃ e, decode (absence.take 8) = .error e := by
  have h : decode absence = .ok .absent := by decide +kernel
  obtain ⟨hx, -, hp, -⟩ := decode_extended_or_cut h
  exact ⟨h, hx, hp _ (List.take_prefix ..) (by decide)⟩

end FlowAccess.Cadence.Ccf
