import FlowAccess.Cadence.Ccf.Reader
import FlowAccess.Cadence.Ccf.Writer
import FlowAccess.Proofs.Cbor.Items

/-!
# What the words of 128 bits denote

No step of the readers and the writers leaves its word: up to sixteen bytes make the word of their
number (`toNat_ofBytes`), and a bignum is the number with a sign that its tag and its magnitude
denote, where there is one (`toInt_signedBignum?`).
-/

namespace FlowAccess.Cadence.Ccf

namespace Wide

/-- A byte is taken in without loss where the upper eight bits are free. -/
theorem toNat_push {w : Wide} (h : w.toNat < 2 ^ 120) (b : UInt8) :
    (push w b).toNat = 256 * w.toNat + b.toNat := by
  have hb : b.toNat < 2 ^ 8 := b.toNat_lt
  have hshift : (w <<< 8).toNat = 2 ^ 8 * w.toNat := by
    rw [BitVec.toNat_shiftLeft, Nat.shiftLeft_eq, Nat.mod_eq_of_lt (by omega), Nat.mul_comm]
  have hbyte : (b.toBitVec.setWidth 128).toNat = b.toNat := by
    rw [BitVec.toNat_setWidth, UInt8.toNat_toBitVec, Nat.mod_eq_of_lt (by omega)]
  rw [push, BitVec.toNat_or, hshift, hbyte, ← Nat.two_pow_add_eq_or_of_lt hb]

theorem ofBytes_append_singleton (bytes : Bytes) (b : UInt8) :
    ofBytes (bytes ++ [b]) = push (ofBytes bytes) b := by
  rw [ofBytes, List.foldl_append]
  rfl

/-- Less than sixteen bytes leave the upper eight bits of a word free. -/
theorem toNat_lt_of_length_lt {bytes : Bytes} (h : bytes.length < 16) : bytes.toNat < 2 ^ 120 :=
  calc bytes.toNat < 256 ^ bytes.length := Cbor.toNat_lt bytes
    _ ≤ 256 ^ 15 := Nat.pow_le_pow_right (by decide) (Nat.le_of_lt_succ h)
    _ = 2 ^ 120 := by decide

/-- Sixteen bytes fill the word and no bit of them leaves it. -/
theorem toNat_ofBytes {bytes : Bytes} (h : bytes.length ≤ 16) :
    (ofBytes bytes).toNat = bytes.toNat := by
  induction bytes using List.reverseRecOn with
  | nil => rfl
  | append_singleton bytes b ih =>
    rw [List.length_append, List.length_singleton] at h
    have ih := ih (by omega)
    have hlt : Bytes.toNat bytes < 2 ^ 120 := toNat_lt_of_length_lt (by omega)
    rw [ofBytes_append_singleton, toNat_push (by rwa [ih]), ih, Bytes.toNat_append_singleton]

theorem signed?_eq (w : Wide) : signed? w = if w.toNat < 2 ^ 127 then some w else none := by
  rw [signed?, BitVec.msb_eq_decide]
  by_cases h : w.toNat < 2 ^ 127
  · rw [if_pos h, if_neg (by simpa using h)]
  · rw [if_neg h, if_pos (by simpa using h)]

theorem toInt_of_lt {w : Wide} (h : w.toNat < 2 ^ 127) : w.toInt = w.toNat :=
  BitVec.toInt_eq_toNat_of_lt (by omega)

theorem toInt_neg_one : (-1 : Wide).toInt = -1 := by decide

/-- No number without a minus is too great to be taken from -1. -/
theorem not_ssubOverflow_neg_one {w : Wide} (h : w.toNat < 2 ^ 127) :
    ¬(-1 : Wide).ssubOverflow w := by
  rw [BitVec.ssubOverflow, toInt_neg_one, toInt_of_lt h]
  simp
  omega

theorem toInt_sub?_neg_one {w : Wide} (h : w.toNat < 2 ^ 127) :
    (sub? (-1) w).map BitVec.toInt = some (-1 - (w.toNat : Int)) := by
  have hover := not_ssubOverflow_neg_one h
  rw [sub?, if_neg hover, Option.map_some, BitVec.toInt_sub_of_not_ssubOverflow hover, toInt_neg_one,
    toInt_of_lt h]

end Wide

/-- The number that a bignum denotes. -/
def bignumValue (tag magnitude : Nat) : Int :=
  if tag = Cbor.positiveBignum then magnitude else -1 - (magnitude : Int)

theorem toInt_signedBignum? (tag : Nat) (w : Wide) :
    (signedBignum? tag w).map BitVec.toInt =
      if w.toNat < 2 ^ 127 then some (bignumValue tag w.toNat) else none := by
  unfold signedBignum? bignumValue
  rw [Wide.signed?_eq]
  by_cases h : w.toNat < 2 ^ 127
  · rw [if_pos h, if_pos h]
    by_cases ht : tag = Cbor.positiveBignum
    · simp [ht, Wide.toInt_of_lt h]
    · simpa [ht] using Wide.toInt_sub?_neg_one h
  · rw [if_neg h, if_neg h]
    rfl

/-- The magnitude of the bignum of a negative number is computed within the word. -/
theorem not_overflow_of_slt {w : Wide} (h : w.slt 0) :
    ¬w.saddOverflow 1 ∧ ¬(w + 1).negOverflow := by
  have hneg : w.toInt < 0 := BitVec.slt_iff_toInt_lt.1 h
  have hle := BitVec.le_toInt w
  have hone : (1 : Wide).toInt = 1 := by decide
  have hadd : ¬w.saddOverflow 1 := by
    rw [BitVec.saddOverflow, hone]
    simp
    omega
  refine ⟨hadd, ?_⟩
  rw [BitVec.negOverflow, BitVec.toInt_add_of_not_saddOverflow hadd, hone]
  simp
  omega

theorem toNat_neg_add_one {w : Wide} (h : w.slt 0) : ((-(w + 1)).toNat : Int) = -1 - w.toInt := by
  obtain ⟨hadd, hneg⟩ := not_overflow_of_slt h
  have hlt : w.toInt < 0 := BitVec.slt_iff_toInt_lt.1 h
  have hint : (-(w + 1)).toInt = -1 - w.toInt := by
    rw [BitVec.toInt_neg_of_not_negOverflow hneg, BitVec.toInt_add_of_not_saddOverflow hadd]
    show -(w.toInt + 1) = _
    omega
  have hmsb : (-(w + 1)).msb = false := by
    rw [BitVec.msb_eq_toInt]
    exact decide_eq_false (by omega)
  rw [← hint, BitVec.toInt_eq_toNat_of_msb hmsb]

theorem toInt_eq_toNat_of_not_slt {w : Wide} (h : ¬w.slt 0) : w.toInt = w.toNat := by
  have hmsb : w.msb = false := by
    rw [BitVec.msb_eq_toInt]
    exact decide_eq_false fun hlt => h (BitVec.slt_iff_toInt_lt.2 hlt)
  exact BitVec.toInt_eq_toNat_of_msb hmsb

end FlowAccess.Cadence.Ccf
