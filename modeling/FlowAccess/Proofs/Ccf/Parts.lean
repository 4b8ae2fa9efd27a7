import FlowAccess.Proofs.Cbor
import FlowAccess.Proofs.Ccf.Acceptance

/-!
# Parts of compact messages read back

Heads, numbers and the other values without parts are written in their forms, so that the readers
take them in any room.
-/

namespace FlowAccess.Cadence.Ccf

open Cbor (isHead_head)

/-! ## Heads -/

theorem reads_tag {tag : Nat} (h : tag < 2 ^ 64) :
    Reads (Reader.cbor Cbor.Reader.tag) (tagHead tag) True tag :=
  takes_tag.complete (isHead_head _ h)

theorem reads_length {n : Nat} (part : CcfArray) (h : n < 2 ^ 64) :
    Reads (Reader.length part) (arrayHead n) True n :=
  (takes_length part).complete (isHead_head _ h)

theorem reads_array {n : Nat} (part : CcfArray) (h : n < 2 ^ 64) :
    Reads (Reader.array n part) (arrayHead n) True () :=
  (takes_count n part).complete (isHead_head _ h)

theorem reads_typedValue : Reads Reader.typedValue (tagHead Tag.typedValue) True () :=
  takes_typedValue.complete (isHead_head _ (by decide))

/-! ## Values without parts -/

theorem isBignum_bignum {tag m : Nat} (ht : tag < 2 ^ 64) (hm : m < 2 ^ 128) :
    IsBignum (Cbor.bignum tag m) tag m := by
  have hl : (Bytes.minimal m).length ≤ 16 := Bytes.length_minimal_le hm
  have := IsBignum.intro (isHead_head .tag ht) (.intro (isHead_head _ (by omega))) hl
  rwa [Bytes.toNat_minimal] at this

/-- A number with a sign is written as a plain item or as a bignum. -/
theorem isInteger_signedInteger (w : Wide) : IsInteger (signedInteger w) w.toInt := by
  unfold signedInteger
  split
  · exact .plain (Cbor.isInteger_plain ‹_›)
  split
  · have h := IsInteger.negative (isBignum_bignum (by decide) (-(w + 1)).isLt)
    rwa [toNat_neg_add_one ‹_›, Int.sub_sub_self] at h
  · rw [toInt_eq_toNat_of_not_slt ‹_›]
    exact .positive (isBignum_bignum (by decide) w.isLt)

/-- A number without a sign is written as a plain item or as a bignum. -/
theorem isInteger_unsignedInteger (w : Wide) : IsInteger (unsignedInteger w) w.toNat := by
  unfold unsignedInteger
  split
  · exact .plain (Cbor.isInteger_plain ‹_›)
  · exact .positive (isBignum_bignum (by decide) w.isLt)

theorem range_of_signed {k : NumberKind} :
    k.signed = true → -2 ^ 127 ≤ k.least ∧ k.greatest < 2 ^ 127 := by
  cases k <;> decide

theorem range_of_unsigned {k : NumberKind} :
    k.signed = false → 0 ≤ k.least ∧ k.greatest < 2 ^ 128 := by
  cases k <;> decide

theorem isInteger_encodeNumber (n : Number) : IsInteger (encodeNumber n) n.raw := by
  have hl := n.least_le
  have hg := n.le_greatest
  unfold encodeNumber
  cases hs : n.kind.signed with
  | true =>
    obtain ⟨hmin, hmax⟩ := range_of_signed hs
    have hw : (BitVec.ofInt 128 n.raw).toInt = n.raw :=
      BitVec.toInt_ofInt_eq_self (by decide) (by omega) (by omega)
    have h := isInteger_signedInteger (.ofInt 128 n.raw)
    rw [hw] at h
    rwa [if_pos rfl]
  | false =>
    obtain ⟨hmin, hmax⟩ := range_of_unsigned hs
    have hw : ((BitVec.ofInt 128 n.raw).toNat : Int) = n.raw := by
      rw [BitVec.toNat_ofInt, Int.toNat_of_nonneg (Int.emod_nonneg _ (by decide))]
      exact Int.emod_eq_of_lt (by omega) (by omega)
    have h := isInteger_unsignedInteger (.ofInt 128 n.raw)
    rw [hw] at h
    rwa [if_neg Bool.false_ne_true]

theorem isBytes_address (a : Address) : Cbor.IsBytes (Cbor.bytes a.bytes) a.bytes :=
  .intro (isHead_head _ (by rw [a.length_eq]; decide))

theorem isText_text {s : String} (h : Value.TextFits s) : Cbor.IsText (Cbor.text s) s :=
  .intro (isHead_head _ h)

end FlowAccess.Cadence.Ccf
