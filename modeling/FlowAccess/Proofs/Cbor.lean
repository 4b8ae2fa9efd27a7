import FlowAccess.Proofs.Cbor.Items

/-!
# CBOR items read back

What is written is an item of its form, with a head in the shortest of its widths (`isHead_head`),
and so it is read back, whatever follows it.
-/

namespace FlowAccess

/-! ## Numbers in bytes -/

namespace Bytes

theorem toNat_ofNat (width n : Nat) : toNat (ofNat width n) = n % 256 ^ width := by
  induction width generalizing n with
  | zero => simp [ofNat, Nat.mod_one]
  | succ width ih =>
    have h : n % 256 ^ (width + 1) = n % 256 + 256 * (n / 256 % 256 ^ width) := by
      rw [Nat.pow_succ', Nat.mod_mul]
    simp only [ofNat, toNat_append_singleton, ih, UInt8.toNat_ofNat', h]
    omega

theorem length_minimal_le {n width : Nat} (h : n < 256 ^ width) : (minimal n).length ≤ width := by
  fun_induction minimal n generalizing width with
  | case1 => simp
  | case2 n hn ih =>
    cases width with
    | zero => omega
    | succ width =>
      have : n / 256 < 256 ^ width := by
        rw [Nat.pow_succ'] at h; omega
      simp [ih this]

end Bytes

namespace Cbor

variable {m : Major} {n : Nat}

/-! ## Heads -/

theorem toNat_first (m : Major) {info : Nat} (h : info < 32) :
    (UInt8.ofNat (32 * m.code + info)).toNat = 32 * m.code + info := by
  cases m <;> simp [Major.code] <;> omega

/-- A first byte holds the kind of the item above what it says of the argument. -/
theorem isHead_cons (m : Major) {info : Nat} {bs : Bytes} (h : IsArgument info bs n) :
    IsHead m (UInt8.ofNat (32 * m.code + info) :: bs) n := by
  have hi := h.lt
  have hf := toNat_first m (show info < 32 by omega)
  refine .intro (by omega) ?_
  rwa [hf, show (32 * m.code + info) % 32 = info by omega]

/-- The bytes of a head after the first give its argument. -/
theorem isArgument_ofNat {k : Nat} (hk : k < 4) (h : n < 256 ^ 2 ^ k) :
    IsArgument (24 + k) (Bytes.ofNat (2 ^ k) n) n := by
  have := IsArgument.long hk (Bytes.length_ofNat (2 ^ k) n)
  rwa [Bytes.toNat_ofNat, Nat.mod_eq_of_lt h] at this

theorem isHead_head (m : Major) (h : n < 2 ^ 64) : IsHead m (head m n) n := by
  unfold head
  split
  · exact isHead_cons m (.short ‹_›)
  split
  · exact isHead_cons m (isArgument_ofNat (k := 0) (by decide) ‹_›)
  split
  · exact isHead_cons m (isArgument_ofNat (k := 1) (by decide) ‹_›)
  split
  · exact isHead_cons m (isArgument_ofNat (k := 2) (by decide) ‹_›)
  · exact isHead_cons m (isArgument_ofNat (k := 3) (by decide) h)

/-! ## Items -/

theorem reads_head (h : n < 2 ^ 64) : Reads (Reader.head m) (head m n) n :=
  (takes_head m).complete (isHead_head m h)

theorem reads_bytes {bs : Bytes} (h : bs.length < 2 ^ 64) : Reads Reader.bytes (bytes bs) bs :=
  takes_bytes.complete (.intro (isHead_head _ h))

theorem reads_text {s : String} (h : (Bytes.ofString s).length < 2 ^ 64) :
    Reads Reader.text (text s) s :=
  takes_text.complete (.intro (isHead_head _ h))

/-- An integer of 64 bits and a sign is written as a plain item. -/
theorem isInteger_plain {i : Int} (h : isPlain i) : IsInteger (plain i) i := by
  have h : -(1 <<< 64) ≤ i ∧ i < 1 <<< 64 := of_decide_eq_true h
  unfold plain
  split
  · obtain ⟨m, rfl⟩ := Int.eq_ofNat_of_zero_le ‹_›
    exact .unsigned (isHead_head _ (by omega))
  · obtain ⟨m, rfl⟩ : ∃ m : Nat, i = -1 - (m : Int) := ⟨(-1 - i).toNat, by omega⟩
    rw [show (-1 - (-1 - (m : Int))).toNat = m by omega]
    exact .negative (isHead_head _ (by omega))

theorem nextIsNull_head (h : n < 2 ^ 64) (hm : m ≠ .simple) :
    Shows Reader.nextIsNull (head m n) false :=
  nextIsNull_of_isHead (isHead_head m h) hm

end Cbor
end FlowAccess
