import FlowAccess.Proofs.Ccf.Parts
import FlowAccess.Proofs.Ccf.Room

/-!
# Types and references read back

A type is read back as the message spells it (`StaticType.inline`), in the room that it takes. A
composite type is spelled by the place of its definition, and the reader, which looks for the
definition by that, finds the one that the writer meant (`exists_find?_definitions`).
-/

namespace FlowAccess.Cadence.Ccf

open StaticType

variable {defs : Typedefs}

/-! ## Types -/

/-- A type as a message spells it. -/
def StaticType.inline (defs : Typedefs) : StaticType → InlineType
  | .simple t => .simple t.code
  | .optional t => .optional (t.inline defs)
  | .array t => .array (t.inline defs)
  | .dictionary k v => .dictionary (k.inline defs) (v.inline defs)
  | .composite id => .reference (typedefId ((defs.index? id).getD 0))

/-- Every composite type in a type has a definition. -/
def StaticType.Defined (defs : Typedefs) : StaticType → Prop
  | .simple _ => True
  | .optional t | .array t => t.Defined defs
  | .dictionary k v => k.Defined defs ∧ v.Defined defs
  | .composite id => ∃ d, defs.find? id = some d

theorem Typedefs.exists_index?_of_find? {id : String} {d : Typedef} (h : defs.find? id = some d) :
    ∃ i, defs.index? id = some i ∧ defs[i]? = some d := by
  induction defs with
  | nil => cases h
  | cons e rest ih =>
    rw [find?_cons] at h
    simp only [index?, List.findIdx?_cons]
    by_cases he : e.typeId = id
    · rw [if_pos he] at h
      exact ⟨0, by simp [he], h⟩
    · rw [if_neg he] at h
      obtain ⟨i, hi, hd⟩ := ih h
      rw [index?] at hi
      exact ⟨i + 1, by simp [he, hi], by simpa using hd⟩

theorem length_typedefId_lt {i : Nat} (h : i < 2 ^ 64) : (typedefId i).length < 2 ^ 64 := by
  have : (typedefId i).length ≤ 8 := Bytes.length_minimal_le h
  omega

theorem SimpleType.code_lt (t : SimpleType) : t.code < 2 ^ 64 := by
  cases t with
  | number k => cases k <;> decide
  | _ => decide

theorem reads_type (hl : defs.length < 2 ^ 64) : (t : StaticType) → t.Defined defs →
    ∃ bytes, encodeType defs t = .ok bytes ∧
      ∀ room, Reads (readType room) bytes (t.room ≤ room) (t.inline defs)
  | .simple t, _ => by
    refine ⟨_, rfl, fun room => ?_⟩
    cases room with
    | zero => exact .tooDeep _ _ (by simp [StaticType.room])
    | succ room =>
      refine ((reads_tag (by decide)).andThen ?_).of_true (Nat.succ_le_succ (Nat.zero_le _))
      rw [if_pos rfl]
      exact (Reads.cbor (Cbor.reads_head t.code_lt)).finish (.pure _)
  | .optional t, h => by
    obtain ⟨bytes, he, hr⟩ := reads_type hl t h
    refine ⟨_, by rw [encodeType, he]; rfl, fun room => ?_⟩
    cases room with
    | zero => exact .tooDeep _ _ (by simp [StaticType.room])
    | succ room =>
      refine (reads_tag (by decide)).andThen ?_
      rw [if_neg (by decide), if_pos rfl]
      refine ((hr room).finish ?_).congr Nat.succ_le_succ_iff.symm
      exact .pure _
  | .array t, h => by
    obtain ⟨bytes, he, hr⟩ := reads_type hl t h
    refine ⟨_, by rw [encodeType, he]; rfl, fun room => ?_⟩
    cases room with
    | zero => exact .tooDeep _ _ (by simp [StaticType.room])
    | succ room =>
      refine (reads_tag (by decide)).andThen ?_
      rw [if_neg (by decide), if_neg (by decide), if_pos rfl]
      refine ((hr room).finish ?_).congr Nat.succ_le_succ_iff.symm
      exact .pure _
  | .dictionary k v, h => by
    obtain ⟨kb, hk, hrk⟩ := reads_type hl k h.1
    obtain ⟨vb, hv, hrv⟩ := reads_type hl v h.2
    refine ⟨_, by rw [encodeType, hk, hv]; rfl, fun room => ?_⟩
    cases room with
    | zero => exact .tooDeep _ _ (by simp [StaticType.room])
    | succ room =>
      rw [List.append_assoc, List.append_assoc]
      refine (reads_tag (by decide)).andThen ?_
      rw [if_neg (by decide), if_neg (by decide), if_neg (by decide), if_pos rfl]
      refine (reads_array _ (by decide)).andThen ?_
      refine ((hrk room).bind ((hrv room).finish ?_)).congr ?_
      · exact .pure _
      · rw [StaticType.room, Nat.succ_le_succ_iff, Nat.max_le]
  | .composite id, ⟨d, hd⟩ => by
    obtain ⟨i, hi, hg⟩ := Typedefs.exists_index?_of_find? hd
    have hb := length_typedefId_lt (Nat.lt_trans (List.getElem?_eq_some_iff.1 hg).1 hl)
    refine ⟨_, by rw [encodeType, hi]; rfl, fun room => ?_⟩
    cases room with
    | zero => exact .tooDeep _ _ (by simp [StaticType.room])
    | succ room =>
      refine ((reads_tag (by decide)).andThen ?_).of_true (Nat.succ_le_succ (Nat.zero_le _))
      rw [if_neg (by decide), if_neg (by decide), if_neg (by decide), if_neg (by decide),
        if_pos rfl, StaticType.inline, hi]
      exact (Reads.cbor (Cbor.reads_bytes hb)).finish (.pure _)

/-! ## Definitions -/

/-- A definition as a message spells it. -/
def definition (defs : Typedefs) (index : Nat) (d : Typedef) : Definition where
  id := typedefId index
  kind := d.kind
  typeId := d.typeId
  fields := d.fields.map fun (name, t) => (name, t.inline defs)

/-- The definitions of a list that starts at a place. -/
def definitionsFrom (defs : Typedefs) (index : Nat) : List Typedef → List Definition
  | [] => []
  | d :: rest => definition defs index d :: definitionsFrom defs (index + 1) rest

theorem typedefId_inj {i j : Nat} (h : typedefId i = typedefId j) : i = j := by
  rw [← Bytes.toNat_minimal i, ← Bytes.toNat_minimal j]
  exact congrArg Bytes.toNat h

theorem find?_definitionsFrom {ds : List Typedef} {k : Nat} {d : Typedef} (h : ds[k]? = some d)
    (index : Nat) : (definitionsFrom defs index ds).find? (·.id = typedefId (index + k)) =
      some (definition defs (index + k) d) := by
  induction ds generalizing index k with
  | nil => simp at h
  | cons e rest ih =>
    cases k with
    | zero =>
      obtain rfl : e = d := by simpa using h
      simp [definitionsFrom, definition]
    | succ k =>
      have hne : typedefId index ≠ typedefId (index + (k + 1)) := fun he => by
        have := typedefId_inj he; omega
      have := ih (by simpa using h) (index + 1)
      rw [Nat.add_right_comm, Nat.add_assoc] at this
      rw [definitionsFrom, List.find?_cons_of_neg (by simp [definition, hne]), this]

/-- The reader finds a definition by the reference that the writer made of its type. -/
theorem exists_find?_definitions {id : String} {d : Typedef} (h : defs.find? id = some d) :
    ∃ i, StaticType.inline defs (.composite id) = .reference (typedefId i) ∧
      (definitionsFrom defs 0 defs).find? (·.id = typedefId i) = some (definition defs i d) := by
  obtain ⟨i, hi, hd⟩ := Typedefs.exists_index?_of_find? h
  refine ⟨i, by rw [StaticType.inline, hi]; rfl, ?_⟩
  rw [← Nat.zero_add i]
  exact find?_definitionsFrom hd 0

end FlowAccess.Cadence.Ccf
