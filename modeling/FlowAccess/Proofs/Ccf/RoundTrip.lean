import FlowAccess.Proofs.Ccf.Messages

/-!
# Round trips of the compact encoding

What becomes of a value is decided by three conditions on it. It has a message if no instance in it
has another number of fields than the first one of its type (`exists_encode_iff`). The message can
be read if it takes no more room than there is (`decode_eq_ok_iff`), as that of a value of up to 32
levels does. What is read is the value, with its null optionals emptied, if the instances in it
agree on the definitions that they share (`decode_encode_eq_collapse_iff`).

Instances of one type that differ in their kinds, or in the names of equally many fields, are
encoded all the same: the writer compares the numbers of their fields only. Such a message describes
another value, with the kinds and the names of the first instance.
-/

namespace FlowAccess.Cadence

/-- A value in memory: no length in it, nor the number of types it has instances of, is beyond the
machine words that count them. -/
structure Value.InMemory (v : Value) : Prop where
  lengths : v.LengthsFit
  types : (Ccf.Typedefs.collect [] v).length < 2 ^ 64

namespace Ccf
open Value

variable {v w : Value} {b : Bytes}

/-- What the decoder makes of the message of a value. -/
theorem decode_encode (hv : v.InMemory) (he : encode v = .ok b) :
    decode b = if messageRoom v ≤ fullRoom then .ok (v.conform (Typedefs.collect [] v)).collapse
      else .error (.malformedCcf .tooDeep) := by
  obtain ⟨b', he', hr⟩ := exists_encode hv.types hv.lengths (matched_of_encode he)
  obtain rfl : b = b' := Except.ok.inj (he.symm.trans he')
  obtain ⟨hok, herr⟩ := decode_of_reads hr
  split
  · exact hok ‹_›
  · exact herr ‹_›

/-- A value is refused only for an instance that has another number of fields than the first one of
its type. -/
theorem exists_encode_iff (hv : v.InMemory) :
    (∃ b, encode v = .ok b) ↔ Matched (Typedefs.collect [] v) v.instances := by
  constructor
  · rintro ⟨b, he⟩
    exact matched_of_encode he
  · intro hm
    obtain ⟨b, he, -⟩ := exists_encode hv.types hv.lengths hm
    exact ⟨b, he⟩

/-- A message can be read exactly if there is room for it. -/
theorem decode_eq_ok_iff (hv : v.InMemory) (he : encode v = .ok b) :
    decode b = .ok w ↔
      messageRoom v ≤ fullRoom ∧ w = (v.conform (Typedefs.collect [] v)).collapse := by
  rw [decode_encode hv he]
  split
  · rw [Except.ok.injEq, eq_comm]
    exact (and_iff_right ‹_›).symm
  · exact iff_of_false (fun h => nomatch h) fun h => absurd h.1 ‹_›

/-- Up to 32 levels the room is enough: a value takes at most twice as much as it has levels. -/
theorem messageRoom_le_fullRoom (h : v.nesting ≤ 32) : messageRoom v ≤ fullRoom :=
  calc messageRoom v
    _ ≤ 2 * v.nesting + 1 := messageRoom_le v
    _ ≤ 2 * 32 + 1 := by omega

/-- The value with its null optionals emptied survives a round trip if its instances agree and it
has at most 32 levels. -/
theorem encode_then_decode (hv : v.InMemory) (ha : v.Agree) (hn : v.nesting ≤ 32) :
    ∃ b, encode v = .ok b ∧ decode b = .ok v.collapse ∧ (v.Solid → decode b = .ok v) := by
  obtain ⟨b, he⟩ := (exists_encode_iff hv).2 ha.matched
  have hd : decode b = .ok v.collapse :=
    (decode_eq_ok_iff hv he).2
      ⟨messageRoom_le_fullRoom hn, ((collapse_conform_eq_iff ha.matched).2 ha).symm⟩
  exact ⟨b, he, hd, fun hs => hs.collapse_eq ▸ hd⟩

/-- Two instances of a type whose field is an optional in one of them only. -/
def mixed : Value :=
  .array [.composite .struct "S" [("a", .present .absent)],
    .composite .struct "S" [("a", .bool true)]]

theorem inMemory_mixed : mixed.InMemory where
  lengths := by
    simp only [mixed, LengthsFit, ItemsFit, FieldsFit, TextFits]
    decide
  types := by decide

theorem encode_then_decode_mixed :
    mixed.InMemory ∧ mixed.Agree ∧ mixed.nesting ≤ 32 ∧
      ∃ b, encode mixed = .ok b ∧
        decode b = .ok (.array [.composite .struct "S" [("a", .absent)],
          .composite .struct "S" [("a", .bool true)]]) := by
  have ha : mixed.Agree := by decide
  have hn : mixed.nesting ≤ 32 := by decide
  obtain ⟨b, he, hd, -⟩ := encode_then_decode inMemory_mixed ha hn
  exact ⟨inMemory_mixed, ha, hn, b, he, hd⟩

/-- The message of a value describes this value exactly if the instances in it agree. -/
theorem decode_encode_eq_collapse_iff (hv : v.InMemory) (he : encode v = .ok b)
    (hd : decode b = .ok w) :
    w = (v.conform (Typedefs.collect [] v)).collapse ∧ (w = v.collapse ↔ v.Agree) := by
  obtain ⟨-, rfl⟩ := (decode_eq_ok_iff hv he).1 hd
  exact ⟨rfl, collapse_conform_eq_iff (matched_of_encode he)⟩

/-- Two instances of a type that name its field differently. -/
def misnamed : Value :=
  .array [.composite .struct "S" [("a", .bool true)], .composite .struct "S" [("b", .bool false)]]

theorem inMemory_misnamed : misnamed.InMemory where
  lengths := by
    simp only [misnamed, LengthsFit, ItemsFit, FieldsFit, TextFits]
    decide
  types := by decide

/-- The second instance comes back with the field name of the first. -/
theorem decode_encode_misnamed :
    misnamed.InMemory ∧ ∃ b w, encode misnamed = .ok b ∧ decode b = .ok w ∧
      w = .array [.composite .struct "S" [("a", .bool true)],
        .composite .struct "S" [("a", .bool false)]] ∧
      w ≠ misnamed.collapse := by
  have hm : Matched (Typedefs.collect [] misnamed) misnamed.instances := by
    intro i hi
    rcases List.mem_cons.1 hi with rfl | hi
    · exact ⟨_, rfl, rfl⟩
    · obtain rfl := List.mem_singleton.1 hi
      exact ⟨_, rfl, rfl⟩
  obtain ⟨b, he⟩ := (exists_encode_iff inMemory_misnamed).2 hm
  have hroom : messageRoom misnamed ≤ fullRoom := messageRoom_le_fullRoom (by decide)
  have hd := (decode_eq_ok_iff inMemory_misnamed he).2 ⟨hroom, rfl⟩
  obtain ⟨-, hw⟩ := decode_encode_eq_collapse_iff inMemory_misnamed he hd
  have hna : ¬misnamed.Agree := by decide
  exact ⟨inMemory_misnamed, b, _, he, hd, rfl, fun h => hna (hw.1 h)⟩

end Ccf
end FlowAccess.Cadence
