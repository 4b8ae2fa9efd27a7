import FlowAccess.Cadence.Value
import Mathlib.Algebra.Group.Int.Defs
import Mathlib.Algebra.Group.Nat.Defs

/-!
# Values up to empty optionals

The compact encoding writes a `Void`, an empty optional and every optional around one of them as
null (`Value.isNull`), so that an optional which holds null comes back empty: `Value.collapse` is
what is left of a value. Nothing else is touched, and nothing at all in a `Solid` value. Values are
measured by `nesting`, the levels of their tree, and by their lengths, which have to fit the machine
words of a message (`LengthsFit`).
-/

namespace FlowAccess.Cadence.Value

/-! ## Null -/

/-- Whether a value is written as null. -/
def isNull : Value → Bool
  | .void | .absent => true
  | .present v => isNull v
  | _ => false

mutual

/-- The value with every optional that holds null emptied. -/
def collapse : Value → Value
  | .present v =>
    match collapse v with
    | .void | .absent => .absent
    | w => .present w
  | .array items => .array (collapseItems items)
  | .dictionary entries => .dictionary (collapseEntries entries)
  | .composite kind id fields => .composite kind id (collapseFields fields)
  | v => v

def collapseItems : List Value → List Value
  | [] => []
  | v :: rest => collapse v :: collapseItems rest

def collapseEntries : List (Value × Value) → List (Value × Value)
  | [] => []
  | (k, v) :: rest => (collapse k, collapse v) :: collapseEntries rest

def collapseFields : List (String × Value) → List (String × Value)
  | [] => []
  | (name, v) :: rest => (name, collapse v) :: collapseFields rest

end

theorem collapse_eq_null_iff :
    (v : Value) → (collapse v = .void ∨ collapse v = .absent ↔ v.isNull = true)
  | .present v => by
    rw [isNull, ← collapse_eq_null_iff v, collapse]
    split <;> simp_all
  | .void | .absent => by simp [isNull, collapse]
  | .bool _ | .string _ | .character _ | .address _ | .number _ | .array _ | .dictionary _
  | .composite .. => by simp [isNull, collapse]

theorem collapse_present (v : Value) :
    collapse (.present v) = if v.isNull then .absent else .present (collapse v) := by
  have h := collapse_eq_null_iff v
  rw [collapse]
  split
  · rw [if_pos (h.1 (.inl ‹_›))]
  · rw [if_pos (h.1 (.inr ‹_›))]
  · rw [if_neg fun hn => (h.2 hn).elim ‹_› ‹_›]

mutual

/-- No optional directly holds a `Void` or an empty optional. -/
def Solid : Value → Prop
  | .present v => v ≠ .void ∧ v ≠ .absent ∧ Solid v
  | .array items => SolidItems items
  | .dictionary entries => SolidEntries entries
  | .composite _ _ fields => SolidFields fields
  | _ => True

def SolidItems : List Value → Prop
  | [] => True
  | v :: rest => Solid v ∧ SolidItems rest

def SolidEntries : List (Value × Value) → Prop
  | [] => True
  | (k, v) :: rest => Solid k ∧ Solid v ∧ SolidEntries rest

def SolidFields : List (String × Value) → Prop
  | [] => True
  | (_, v) :: rest => Solid v ∧ SolidFields rest

end

mutual

theorem Solid.collapse_eq : {v : Value} → v.Solid → v.collapse = v
  | .present v, h => by
    obtain ⟨hv, ha, h⟩ := h
    rw [collapse, h.collapse_eq]
    split <;> simp_all
  | .array items, h => congrArg Value.array (collapseItems_eq h)
  | .dictionary entries, h => congrArg Value.dictionary (collapseEntries_eq h)
  | .composite kind id fields, h => congrArg (Value.composite kind id) (collapseFields_eq h)
  | .void, _ | .absent, _ | .bool _, _ | .string _, _ | .character _, _ | .address _, _
  | .number _, _ => rfl

theorem collapseItems_eq : {items : List Value} → SolidItems items → collapseItems items = items
  | [], _ => rfl
  | _ :: _, ⟨h, hs⟩ => by rw [collapseItems, h.collapse_eq, collapseItems_eq hs]

theorem collapseEntries_eq :
    {entries : List (Value × Value)} → SolidEntries entries → collapseEntries entries = entries
  | [], _ => rfl
  | (_, _) :: _, ⟨hk, hv, hs⟩ => by
    rw [collapseEntries, hk.collapse_eq, hv.collapse_eq, collapseEntries_eq hs]

theorem collapseFields_eq :
    {fields : List (String × Value)} → SolidFields fields → collapseFields fields = fields
  | [], _ => rfl
  | (_, _) :: _, ⟨h, hs⟩ => by rw [collapseFields, h.collapse_eq, collapseFields_eq hs]

end

/-! ## Measures -/

mutual

/-- The levels of a value: every optional, array, dictionary and composite is one. -/
def nesting : Value → Nat
  | .absent => 1
  | .present v => nesting v + 1
  | .array items => nestingItems items + 1
  | .dictionary entries => nestingEntries entries + 1
  | .composite _ _ fields => nestingFields fields + 1
  | _ => 0

def nestingItems : List Value → Nat
  | [] => 0
  | v :: rest => max (nesting v) (nestingItems rest)

def nestingEntries : List (Value × Value) → Nat
  | [] => 0
  | (k, v) :: rest => max (max (nesting k) (nesting v)) (nestingEntries rest)

def nestingFields : List (String × Value) → Nat
  | [] => 0
  | (_, v) :: rest => max (nesting v) (nestingFields rest)

end

/-- A string whose UTF-8 bytes are counted by 64 bits. -/
def TextFits (s : String) : Prop := (Bytes.ofString s).length < 2 ^ 64

instance (s : String) : Decidable (TextFits s) := inferInstanceAs (Decidable (_ < _))

mutual

/-- The lengths in a value are those of data in memory: strings are counted by 64 bits, and
elements by 63. -/
def LengthsFit : Value → Prop
  | .string s | .character s => TextFits s
  | .present v => LengthsFit v
  | .array items => items.length < 2 ^ 63 ∧ ItemsFit items
  | .dictionary entries => entries.length < 2 ^ 63 ∧ EntriesFit entries
  | .composite _ id fields => TextFits id ∧ fields.length < 2 ^ 63 ∧ FieldsFit fields
  | _ => True

def ItemsFit : List Value → Prop
  | [] => True
  | v :: rest => LengthsFit v ∧ ItemsFit rest

def EntriesFit : List (Value × Value) → Prop
  | [] => True
  | (k, v) :: rest => LengthsFit k ∧ LengthsFit v ∧ EntriesFit rest

def FieldsFit : List (String × Value) → Prop
  | [] => True
  | (name, v) :: rest => TextFits name ∧ LengthsFit v ∧ FieldsFit rest

end

/-! ## Parts -/

/-- What holds of a value holds of its parts too. -/
structure Inherited (q : Value → Prop) : Prop where
  present : ∀ {v}, q (.present v) → q v
  array : ∀ {items}, q (.array items) → ∀ v ∈ items, q v
  dictionary : ∀ {entries}, q (.dictionary entries) → ∀ e ∈ entries, q e.1 ∧ q e.2
  composite : ∀ {kind id fields}, q (.composite kind id fields) → ∀ f ∈ fields, q f.2

theorem nesting_le_of_mem {v : Value} {items : List Value} (h : v ∈ items) :
    v.nesting ≤ nestingItems items := by
  induction items with
  | nil => cases h
  | cons w rest ih =>
    rw [nestingItems]
    rcases List.mem_cons.1 h with rfl | h
    · exact Nat.le_max_left ..
    · exact Nat.le_trans (ih h) (Nat.le_max_right ..)

theorem nesting_le_of_mem_entries {e : Value × Value} {entries : List (Value × Value)}
    (h : e ∈ entries) : max e.1.nesting e.2.nesting ≤ nestingEntries entries := by
  induction entries with
  | nil => cases h
  | cons w rest ih =>
    rw [nestingEntries]
    rcases List.mem_cons.1 h with rfl | h
    · exact Nat.le_max_left ..
    · exact Nat.le_trans (ih h) (Nat.le_max_right ..)

theorem nesting_le_of_mem_fields {f : String × Value} {fields : List (String × Value)}
    (h : f ∈ fields) : f.2.nesting ≤ nestingFields fields := by
  induction fields with
  | nil => cases h
  | cons w rest ih =>
    rw [nestingFields]
    rcases List.mem_cons.1 h with rfl | h
    · exact Nat.le_max_left ..
    · exact Nat.le_trans (ih h) (Nat.le_max_right ..)

theorem inherited_nesting_le (n : Nat) : Inherited (·.nesting ≤ n) where
  present h := Nat.le_of_succ_le h
  array h _ hv := Nat.le_trans (nesting_le_of_mem hv) (Nat.le_of_succ_le h)
  dictionary h _ he :=
    Nat.max_le.1 (Nat.le_trans (nesting_le_of_mem_entries he) (Nat.le_of_succ_le h))
  composite h _ hf := Nat.le_trans (nesting_le_of_mem_fields hf) (Nat.le_of_succ_le h)

theorem lengthsFit_of_mem {v : Value} {items : List Value} (h : ItemsFit items) (hv : v ∈ items) :
    v.LengthsFit := by
  induction items with
  | nil => cases hv
  | cons w rest ih =>
    rcases List.mem_cons.1 hv with rfl | hv
    · exact h.1
    · exact ih h.2 hv

theorem lengthsFit_of_mem_entries {e : Value × Value} {entries : List (Value × Value)}
    (h : EntriesFit entries) (he : e ∈ entries) : e.1.LengthsFit ∧ e.2.LengthsFit := by
  induction entries with
  | nil => cases he
  | cons w rest ih =>
    rcases List.mem_cons.1 he with rfl | he
    · exact ⟨h.1, h.2.1⟩
    · exact ih h.2.2 he

theorem fits_of_mem_fields {f : String × Value} {fields : List (String × Value)}
    (h : FieldsFit fields) (hf : f ∈ fields) : TextFits f.1 ∧ f.2.LengthsFit := by
  induction fields with
  | nil => cases hf
  | cons w rest ih =>
    rcases List.mem_cons.1 hf with rfl | hf
    · exact ⟨h.1, h.2.1⟩
    · exact ih h.2.2 hf

theorem inherited_lengthsFit : Inherited LengthsFit where
  present h := h
  array h _ hv := lengthsFit_of_mem h.2 hv
  dictionary h _ he := lengthsFit_of_mem_entries h.2 he
  composite h _ hf := (fits_of_mem_fields h.2.2 hf).2

end FlowAccess.Cadence.Value
