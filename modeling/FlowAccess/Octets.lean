import FlowAccess.Text.Hex

/-!
# Byte strings of a fixed length

Identifiers and addresses are byte strings of one length each; the length is part of the type.
-/

namespace FlowAccess

/-- A byte string of `n` bytes. -/
structure Octets (n : Nat) where
  bytes : Bytes
  length_eq : bytes.length = n
  deriving DecidableEq

namespace Octets

variable {n : Nat}

/-- The byte string that is all zeros. -/
def zero (n : Nat) : Octets n := ⟨List.replicate n 0, List.length_replicate⟩

instance : Inhabited (Octets n) := ⟨zero n⟩

/-- Takes a byte string of the right length. -/
def ofBytes? (n : Nat) (bytes : Bytes) : Option (Octets n) :=
  if h : bytes.length = n then some ⟨bytes, h⟩ else none

/-- The big-endian bytes of a number. -/
def ofNat (n value : Nat) : Octets n := ⟨Bytes.ofNat n value, Bytes.length_ofNat n value⟩

/-- Two lower-case digits a byte. -/
def hex (x : Octets n) : String := Text.Hex.encode x.bytes

@[simp] theorem ofBytes?_bytes (x : Octets n) : ofBytes? n x.bytes = some x :=
  dif_pos x.length_eq

theorem ofBytes?_eq_some_iff {bytes : Bytes} {x : Octets n} :
    ofBytes? n bytes = some x ↔ x.bytes = bytes := by
  constructor
  · intro h
    simp only [ofBytes?] at h
    split at h
    · cases h; rfl
    · cases h
  · rintro rfl
    exact ofBytes?_bytes x

theorem ofBytes?_eq_none_iff {bytes : Bytes} :
    ofBytes? n bytes = none ↔ bytes.length ≠ n := by
  simp [ofBytes?]

end Octets
end FlowAccess
