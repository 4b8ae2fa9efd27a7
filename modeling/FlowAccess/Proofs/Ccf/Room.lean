import FlowAccess.Proofs.Ccf.Instances

/-!
# The room that a message takes

Reading recurses on the room that is left. `messageRoom` is the room that the message of a value
takes: a type takes one more than its parts, and a value one more than its parts at their declared
types, where a part under `AnyStruct` takes the room of its own type, and one for the typed pair it
stands in (`declaredRoom`). An optional that holds null takes no room for what it holds.

A value takes at most twice as much as it has levels (`messageRoom_le`).
-/

namespace FlowAccess.Cadence.Ccf

/-! ## Types -/

namespace StaticType

/-- The room that reading a type takes. -/
def room : StaticType → Nat
  | .simple _ | .composite _ => 1
  | .optional t | .array t => room t + 1
  | .dictionary k v => max (room k) (room v) + 1

/-- The type that a container declares for parts of the given types. -/
abbrev common (types : List StaticType) : StaticType := (Value.common? types).getD any

theorem common_eq (types : List StaticType) :
    common types = any ∨ types ≠ [] ∧ ∀ t ∈ types, common types = t := by
  cases types with
  | nil => exact .inl rfl
  | cons t rest =>
    simp only [common, Value.common?]
    split
    · refine .inr ⟨by simp, fun u hu => ?_⟩
      rcases List.mem_cons.1 hu with rfl | hu
      · rfl
      · have : u = t := of_decide_eq_true (List.all_eq_true.1 ‹_› u hu)
        exact this.symm
    · exact .inl rfl

theorem common_eq_any_or {types : List StaticType} :
    ∀ t ∈ types, common types = any ∨ common types = t := fun t ht =>
  (common_eq types).imp_right fun h => h.2 t ht

/-- What holds of any type at all and of the types of the parts holds of their common type. -/
theorem common_induction {p : StaticType → Prop} {types : List StaticType} (h : p any)
    (ht : ∀ t ∈ types, p t) : p (common types) := by
  obtain he | ⟨hn, he⟩ := common_eq types
  · exact he ▸ h
  · obtain ⟨t, hm⟩ := List.exists_mem_of_ne_nil types hn
    exact he t hm ▸ ht t hm

end StaticType

open StaticType

def typesRoom : List StaticType → Nat
  | [] => 0
  | t :: rest => max t.room (typesRoom rest)

/-- The room that reading a list of definitions takes. -/
def typedefsRoom : List Typedef → Nat
  | [] => 0
  | d :: rest => max (typesRoom d.types) (typedefsRoom rest)

/-! ## Values -/

/-- The room for a value at its declared type, from the room that it takes at its own type. -/
def declaredRoom (declared own : StaticType) (room : Nat) : Nat :=
  if declared = any then max own.room room + 1 else room

mutual

/-- The room that reading a value at its own type takes. -/
def valueRoom (defs : Typedefs) : Value → Nat
  | .present v => if v.isNull then 1 else valueRoom defs v + 1
  | .array items => itemsRoom defs (common (ofItems items)) items + 1
  | .dictionary entries =>
    entriesRoom defs (common (ofKeys entries)) (common (ofValues entries)) entries + 1
  | .composite _ id fields =>
    fieldsRoom defs (((defs.find? id).map Typedef.types).getD []) fields + 1
  | _ => 1

def itemsRoom (defs : Typedefs) (type : StaticType) : List Value → Nat
  | [] => 0
  | v :: rest => max (declaredRoom type (of v) (valueRoom defs v)) (itemsRoom defs type rest)

def entriesRoom (defs : Typedefs) (keyType valueType : StaticType) : List (Value × Value) → Nat
  | [] => 0
  | (k, v) :: rest =>
    max (max (declaredRoom keyType (of k) (valueRoom defs k))
      (declaredRoom valueType (of v) (valueRoom defs v))) (entriesRoom defs keyType valueType rest)

def fieldsRoom (defs : Typedefs) (types : List StaticType) : List (String × Value) → Nat
  | [] => 0
  | (_, v) :: rest =>
    match types with
    | [] => 0
    | type :: types =>
      max (declaredRoom type (of v) (valueRoom defs v)) (fieldsRoom defs types rest)

end

/-- The room that reading the message of a value takes. -/
def messageRoom (v : Value) : Nat :=
  let defs := Typedefs.collect [] v
  max (typedefsRoom defs) (max (of v).room (valueRoom defs v))

/-! ## Bounds -/

mutual

theorem room_of_le : (v : Value) → (of v).room ≤ v.nesting + 1
  | .present v => Nat.succ_le_succ (room_of_le v)
  | .array items => Nat.succ_le_succ <|
    common_induction (Nat.succ_pos _) (room_ofItems_le items)
  | .dictionary entries => Nat.succ_le_succ <| Nat.max_le.2
    ⟨common_induction (Nat.succ_pos _) (room_ofKeys_le entries),
      common_induction (Nat.succ_pos _) (room_ofValues_le entries)⟩
  | .composite .. => Nat.succ_le_succ (Nat.zero_le _)
  | .absent | .void | .bool _ | .string _ | .character _ | .address _ | .number _ => Nat.le.refl

theorem room_ofItems_le :
    (items : List Value) → ∀ t ∈ ofItems items, t.room ≤ Value.nestingItems items + 1
  | [], _, h => nomatch h
  | v :: rest, t, h => by
    rw [Value.nestingItems]
    rcases List.mem_cons.1 h with rfl | h
    · have := room_of_le v; omega
    · have := room_ofItems_le rest t h; omega

theorem room_ofKeys_le : (entries : List (Value × Value)) →
    ∀ t ∈ ofKeys entries, t.room ≤ Value.nestingEntries entries + 1
  | [], _, h => nomatch h
  | (k, v) :: rest, t, h => by
    rw [Value.nestingEntries]
    rcases List.mem_cons.1 h with rfl | h
    · have := room_of_le k; omega
    · have := room_ofKeys_le rest t h; omega

theorem room_ofValues_le :
    (entries : List (Value × Value)) →
      ∀ t ∈ ofValues entries, t.room ≤ Value.nestingEntries entries + 1
  | [], _, h => nomatch h
  | (k, v) :: rest, t, h => by
    rw [Value.nestingEntries]
    rcases List.mem_cons.1 h with rfl | h
    · have := room_of_le v; omega
    · have := room_ofValues_le rest t h; omega

end

theorem declaredRoom_le (declared : StaticType) {v : Value} {n : Nat}
    (h : n ≤ 2 * v.nesting + 1) : declaredRoom declared (of v) n ≤ 2 * v.nesting + 2 := by
  have := room_of_le v
  unfold declaredRoom
  split <;> omega

mutual

theorem valueRoom_le (defs : Typedefs) : (v : Value) → valueRoom defs v ≤ 2 * v.nesting + 1
  | .present v => by
    have := valueRoom_le defs v
    rw [valueRoom, Value.nesting]
    split <;> omega
  | .array items => by
    have := itemsRoom_le defs (common (ofItems items)) items
    rw [valueRoom, Value.nesting]; omega
  | .dictionary entries => by
    have := entriesRoom_le defs (common (ofKeys entries)) (common (ofValues entries)) entries
    rw [valueRoom, Value.nesting]; omega
  | .composite _ id fields => by
    have := fieldsRoom_le defs fields (((defs.find? id).map Typedef.types).getD [])
    rw [valueRoom, Value.nesting]; omega
  | .void | .absent | .bool _ | .string _ | .character _ | .address _ | .number _ => by
    simp [valueRoom]

theorem itemsRoom_le (defs : Typedefs) (type : StaticType) :
    (items : List Value) → itemsRoom defs type items ≤ 2 * Value.nestingItems items + 2
  | [] => Nat.zero_le _
  | v :: rest => by
    have := declaredRoom_le type (valueRoom_le defs v)
    have := itemsRoom_le defs type rest
    rw [itemsRoom, Value.nestingItems]; omega

theorem entriesRoom_le (defs : Typedefs) (keyType valueType : StaticType) :
    (entries : List (Value × Value)) →
      entriesRoom defs keyType valueType entries ≤ 2 * Value.nestingEntries entries + 2
  | [] => Nat.zero_le _
  | (k, v) :: rest => by
    have := declaredRoom_le keyType (valueRoom_le defs k)
    have := declaredRoom_le valueType (valueRoom_le defs v)
    have := entriesRoom_le defs keyType valueType rest
    rw [entriesRoom, Value.nestingEntries]; omega

theorem fieldsRoom_le (defs : Typedefs) :
    (fields : List (String × Value)) → (types : List StaticType) →
      fieldsRoom defs types fields ≤ 2 * Value.nestingFields fields + 2
  | [], _ => by simp [fieldsRoom]
  | (_, _) :: _, [] => Nat.zero_le _
  | (_, v) :: rest, type :: types => by
    have := declaredRoom_le type (valueRoom_le defs v)
    have := fieldsRoom_le defs rest types
    rw [fieldsRoom, Value.nestingFields]; omega

end

theorem typesRoom_fieldTypes_le (kind : CompositeKind) (id : String)
    (fields : List (String × Value)) :
    typesRoom (Typedef.types ⟨kind, id, Typedefs.fieldTypes fields⟩) ≤
      Value.nestingFields fields + 1 := by
  induction fields with
  | nil => exact Nat.zero_le _
  | cons f rest ih =>
    have := room_of_le f.2
    simp only [Typedef.types, Typedefs.fieldTypes, List.map_cons, typesRoom, Value.nestingFields]
      at ih ⊢
    omega

theorem typesRoom_le_nesting (v : Value) : ∀ i ∈ v.instances, typesRoom i.types ≤ v.nesting :=
  (Value.inherited_nesting_le v.nesting).forall_instances
    (fun kind id fields h => Nat.le_trans (typesRoom_fieldTypes_le kind id fields) h)
    v (Nat.le_refl _)

theorem Covers.typesRoom_le : {ts us : List StaticType} → ts.length = us.length →
    Covers ts us → typesRoom ts ≤ max 1 (typesRoom us)
  | [], _, _, _ => Nat.zero_le _
  | _ :: _, [], h, _ => by simp at h
  | t :: ts, u :: us, h, ⟨htu, hts⟩ => by
    have := hts.typesRoom_le (by simpa using h)
    rw [typesRoom, typesRoom]
    rcases htu with rfl | rfl
    · have : any.room = 1 := rfl
      omega
    · omega

theorem typedefsRoom_le {defs : List Typedef} {n : Nat} (h : ∀ d ∈ defs, typesRoom d.types ≤ n) :
    typedefsRoom defs ≤ n := by
  induction defs with
  | nil => exact Nat.zero_le _
  | cons d rest ih =>
    exact Nat.max_le.2 ⟨h d (.head _), ih fun e he => h e (.tail _ he)⟩

theorem messageRoom_le (v : Value) : messageRoom v ≤ 2 * v.nesting + 1 := by
  have ht := room_of_le v
  have hv := valueRoom_le (Typedefs.collect [] v) v
  have hd : typedefsRoom (Typedefs.collect [] v) ≤ v.nesting + 1 := by
    refine typedefsRoom_le fun d hd => ?_
    obtain ⟨i, hi, hw⟩ := Typedefs.exists_instance_of_mem_collect hd
    have := hw.types.typesRoom_le hw.length_eq
    have := typesRoom_le_nesting v i hi
    omega
  simp only [messageRoom]
  omega

end FlowAccess.Cadence.Ccf
