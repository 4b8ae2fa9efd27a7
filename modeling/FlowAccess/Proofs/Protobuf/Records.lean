import FlowAccess.Protobuf.Message
import Mathlib.Algebra.Group.Nat.Defs

/-!
# Records read back

A number of 64 bits is read back from its digits in base 128, a key from its number, and a list of
records from its bytes (`records?_writeRecords`), if the records are `Plain`. Every law of a reader
is stated over whatever bytes follow.
-/

namespace FlowAccess.Protobuf

/-! ## Numbers in base 128 -/

theorem varintWithin?_writeVarint {limit n : Nat} (h : n < 128 ^ (limit + 1)) (rest : Bytes) :
    varintWithin? (limit + 1) (writeVarint n ++ rest) = some (n, rest) := by
  induction limit generalizing n with
  | zero =>
    rw [writeVarint, if_pos (by omega), List.singleton_append, varintWithin?, UInt8.toNat_ofNat',
      if_pos (by omega), Nat.mod_eq_of_lt (by omega)]
  | succ limit ih =>
    by_cases hn : n < 128
    · rw [writeVarint, if_pos hn, List.singleton_append, varintWithin?, UInt8.toNat_ofNat',
        if_pos (by omega), Nat.mod_eq_of_lt (by omega)]
    · have hlt : n / 128 < 128 ^ (limit + 1) := by
        rw [Nat.pow_succ] at h
        exact Nat.div_lt_of_lt_mul (by rwa [Nat.mul_comm])
      have hb : (UInt8.ofNat (128 + n % 128)).toNat = 128 + n % 128 := by
        rw [UInt8.toNat_ofNat', Nat.mod_eq_of_lt (by omega)]
      rw [writeVarint, if_neg hn, List.cons_append, varintWithin?, hb, if_neg (by omega), ih hlt]
      simp only [Option.some.injEq, Prod.mk.injEq, and_true]
      omega

theorem varint?_writeVarint {n : Nat} (h : n < 2 ^ 64) (rest : Bytes) :
    varint? (writeVarint n ++ rest) = some (n, rest) := by
  rw [varint?, varintWithin?_writeVarint (by omega)]
  exact if_pos h

theorem writeVarint_ne_nil (n : Nat) : writeVarint n ≠ [] := by
  rw [writeVarint]
  split <;> simp

/-! ## Records -/

theorem Layout.ofCode?_code (layout : Layout) : ofCode? layout.code = some layout := by
  cases layout <;> rfl

/-- The numbers that fields may have. -/
def IsFieldNumber (n : Nat) : Prop := 1 ≤ n ∧ n < 2 ^ 29

instance (n : Nat) : Decidable (IsFieldNumber n) := inferInstanceAs (Decidable (_ ∧ _))

theorem key?_writeKey {number : Nat} (h : IsFieldNumber number) (layout : Layout) (rest : Bytes) :
    key? (writeKey number layout ++ rest) = some ((number, layout), rest) := by
  obtain ⟨hpos, hlt⟩ := h
  have hc : layout.code < 8 := by cases layout <;> decide
  have hm : (8 * number + layout.code) % 8 = layout.code := by omega
  have hd : (8 * number + layout.code) / 8 = number := by omega
  rw [key?, writeKey, varint?_writeVarint (by omega)]
  simp only [hm, Layout.ofCode?_code, hd]
  exact if_pos (by omega)

/-- What a message may write, if some of its fields hold the entries of maps: numbers of 64 bits,
and byte strings. -/
def Record.Plain (maps : List Nat) (r : Record) : Prop :=
  IsFieldNumber r.number ∧
    match r.content with
    | .varint n => n < 2 ^ 64 ∧ r.number ∉ maps
    | .delimited _ => True
    | .other => False

/-- The byte string of a record is short enough to be written with its length. -/
def Record.Fits (r : Record) : Prop :=
  match r.content with
  | .delimited bytes => bytes.length < 2 ^ 64
  | _ => True

theorem content?_varint {n : Nat} (h : n < 2 ^ 64) (rest : Bytes) :
    content? .varint (writeVarint n ++ rest) = some (.varint n, rest) := by
  rw [content?, varint?_writeVarint h, Option.map_some]

theorem content?_delimited {bytes : Bytes} (h : bytes.length < 2 ^ 64) (rest : Bytes) :
    content? .delimited (writeVarint bytes.length ++ bytes ++ rest) =
      some (.delimited bytes, rest) := by
  rw [content?, List.append_assoc, varint?_writeVarint h]
  simp [cut?]

/-- The layout of a record, and the bytes of its value. -/
theorem Record.exists_write {maps : List Nat} {r : Record} (hp : r.Plain maps) (hf : r.Fits) :
    ∃ layout value, r.write = writeKey r.number layout ++ value ∧
      (r.number ∈ maps → layout = .delimited) ∧ layout ≠ .groupStart ∧ layout ≠ .groupEnd ∧
      ∀ rest, content? layout (value ++ rest) = some (r.content, rest) := by
  obtain ⟨number, content⟩ := r
  obtain ⟨-, hp⟩ := hp
  cases content with
  | varint n =>
    exact ⟨.varint, writeVarint n, rfl, fun hm => absurd hm hp.2, nofun, nofun,
      content?_varint hp.1⟩
  | delimited bytes =>
    exact ⟨.delimited, writeVarint bytes.length ++ bytes, by simp [write], fun _ => rfl, nofun,
      nofun, content?_delimited hf⟩
  | other => exact hp.elim

theorem records?_append {maps : List Nat} {room : Nat} (hroom : 0 < room) {r : Record}
    (hp : r.Plain maps) (hf : r.Fits) (rest : Bytes) :
    records? maps room [] (r.write ++ rest) = (records? maps room [] rest).map (r :: ·) := by
  obtain ⟨layout, value, hw, hmaps, hstart, hend, hvalue⟩ := r.exists_write hp hf
  have hk := key?_writeKey hp.1 layout (value ++ rest)
  have hne : r.write ++ rest ≠ [] := by
    rw [hw, writeKey]
    simp [writeVarint_ne_nil]
  rw [hw, List.append_assoc] at hne ⊢
  rw [records?, if_neg hne]
  split
  · rename_i hk'
    rw [hk] at hk'
    cases hk'
  · rename_i number layout' rest' hk'
    rw [hk] at hk'
    cases hk'
    split
    · rename_i hm
      cases hmaps hm.2
      split
      · rename_i hc
        rw [hvalue] at hc
        cases hc
      · rename_i hc
        rw [hvalue] at hc
        cases hc
        rfl
    · split
      · exact absurd rfl hend
      · exact absurd rfl hstart
      · rw [if_pos (by simpa using hroom)]
        split
        · rename_i hc
          rw [hvalue] at hc
          cases hc
        · rename_i hc
          rw [hvalue] at hc
          cases hc
          simp

/-- Plain records are read back from their bytes. -/
theorem records?_writeRecords {maps : List Nat} {room : Nat} (hroom : 0 < room)
    {records : List Record} (hp : ∀ r ∈ records, r.Plain maps) (hf : ∀ r ∈ records, r.Fits) :
    records? maps room [] (writeRecords records) = some records := by
  induction records with
  | nil => simp [writeRecords, records?]
  | cons r rest ih =>
    have hr := records?_append hroom (hp r (.head _)) (hf r (.head _)) (writeRecords rest)
    rw [writeRecords, List.flatMap_cons]
    rw [← writeRecords, hr, ih (fun r h => hp r (.tail _ h)) fun r h => hf r (.tail _ h)]
    rfl

/-! ## Lengths -/

theorem length_delimited_le {bytes : Bytes} {number : Nat} {records : List Record}
    (h : ⟨number, .delimited bytes⟩ ∈ records) :
    bytes.length ≤ (writeRecords records).length := by
  obtain ⟨before, after, rfl⟩ := List.append_of_mem h
  simp only [writeRecords, List.flatMap_append, List.flatMap_cons, List.length_append, Record.write]
  omega

/-- The records of bytes that are short enough fit. -/
theorem fits_of_length_lt {records : List Record} (h : (writeRecords records).length < 2 ^ 64) :
    ∀ r ∈ records, r.Fits := by
  rintro ⟨number, content⟩ hr
  cases content with
  | delimited bytes => exact Nat.lt_of_le_of_lt (length_delimited_le hr) h
  | varint n | other => trivial

end FlowAccess.Protobuf
