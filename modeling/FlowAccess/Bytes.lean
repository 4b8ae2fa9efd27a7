/-!
# Byte strings

Byte strings are lists of bytes, so that every reader is a structural recursion on its input.
Numbers cross into them most significant byte first, in a fixed width (`Bytes.ofNat`) or without
leading zeros (`Bytes.minimal`); `Bytes.toNat` reads both back.
-/

namespace FlowAccess

/-- A byte string. -/
abbrev Bytes := List UInt8

namespace Bytes

/-- The number that a byte string denotes, most significant byte first. -/
def toNat (bytes : Bytes) : Nat :=
  bytes.foldl (fun n b => 256 * n + b.toNat) 0

/-- The lowest `width` bytes of a number, most significant first. -/
def ofNat : (width : Nat) → Nat → Bytes
  | 0, _ => []
  | width + 1, n => ofNat width (n / 256) ++ [UInt8.ofNat n]

/-- The bytes of a number without leading zeros; 0 has none. -/
def minimal (n : Nat) : Bytes :=
  if n = 0 then [] else minimal (n / 256) ++ [UInt8.ofNat n]
termination_by n
decreasing_by omega

@[simp] theorem toNat_nil : toNat [] = 0 := rfl

@[simp] theorem toNat_append_singleton (bytes : Bytes) (b : UInt8) :
    toNat (bytes ++ [b]) = 256 * toNat bytes + b.toNat := by
  simp [toNat]

@[simp] theorem length_ofNat (width n : Nat) : (ofNat width n).length = width := by
  induction width generalizing n with
  | zero => rfl
  | succ width ih => simp [ofNat, ih]

theorem toNat_minimal (n : Nat) : toNat (minimal n) = n := by
  fun_induction minimal n with
  | case1 => rfl
  | case2 n _ ih => simp only [toNat_append_singleton, ih, UInt8.toNat_ofNat']; omega

/-- The bytes of a string in UTF-8. -/
def ofString (s : String) : Bytes := s.toByteArray.data.toList

/-- The string that bytes spell in UTF-8, if they do. -/
def toString? (bytes : Bytes) : Option String := String.fromUTF8? ⟨bytes.toArray⟩

@[simp] theorem toString?_ofString (s : String) : toString? (ofString s) = some s := by
  simp only [toString?, ofString, String.fromUTF8?, Array.toArray_toList]
  exact dif_pos s.isValidUTF8

theorem ofString_of_toString? {bytes : Bytes} {s : String} (h : toString? bytes = some s) :
    ofString s = bytes := by
  simp only [toString?, String.fromUTF8?] at h
  split at h
  · cases h; rfl
  · cases h

theorem toString?_eq_some_iff {bytes : Bytes} {s : String} :
    toString? bytes = some s ↔ bytes = ofString s :=
  ⟨fun h => (ofString_of_toString? h).symm, fun h => h ▸ toString?_ofString s⟩

end Bytes
end FlowAccess
