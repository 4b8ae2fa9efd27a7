import FlowAccess.Proofs.Ccf.Instances

/-!
# Agreement of instances

The first instance of a type sets the kind and the field names of its definition, and later ones
have no say. In a value whose instances `Agree` on them the definitions say what every instance
says; in any other value with matching numbers of fields they overrule some instance, and the value
that they describe (`Value.conform`) is another one (`collapse_conform_eq_iff`).
-/

namespace FlowAccess.Cadence.Value
open Ccf

/-- Any two instances of one type have the same kind and the same field names in the same order. -/
def Agree (v : Value) : Prop :=
  ∀ i ∈ v.instances, ∀ j ∈ v.instances, i.typeId = j.typeId → i.kind = j.kind ∧ i.names = j.names

instance (v : Value) : Decidable v.Agree :=
  inferInstanceAs (Decidable (∀ i ∈ v.instances, ∀ j ∈ v.instances, _ → _))

mutual

/-- The value as definitions describe it: every instance has the kind and the field names of its
definition. -/
def conform (defs : Typedefs) : Value → Value
  | .present v => .present (conform defs v)
  | .array items => .array (conformItems defs items)
  | .dictionary entries => .dictionary (conformEntries defs entries)
  | .composite kind id fields =>
    match defs.find? id with
    | some d => .composite d.kind d.typeId (conformFields defs d.names fields)
    | none => .composite kind id (conformFields defs [] fields)
  | v => v

def conformItems (defs : Typedefs) : List Value → List Value
  | [] => []
  | v :: rest => conform defs v :: conformItems defs rest

def conformEntries (defs : Typedefs) : List (Value × Value) → List (Value × Value)
  | [] => []
  | (k, v) :: rest => (conform defs k, conform defs v) :: conformEntries defs rest

/-- Names beyond those given stay as they are. -/
def conformFields (defs : Typedefs) : List String → List (String × Value) → List (String × Value)
  | _, [] => []
  | [], (own, v) :: rest => (own, conform defs v) :: conformFields defs [] rest
  | name :: names, (_, v) :: rest => (name, conform defs v) :: conformFields defs names rest

end

/-- The heading of an instance after its definition has overruled it. -/
def adopt (defs : Typedefs) (i : Typedef) : CompositeKind × String × List String :=
  ((defs.find? i.typeId).getD i).heading

/-- Every instance has a definition with as many fields. -/
def Matched (defs : Typedefs) (is : List Typedef) : Prop :=
  ∀ i ∈ is, ∃ d, defs.find? i.typeId = some d ∧ d.fields.length = i.fields.length

section
variable {defs : Typedefs}

theorem map_fst_conformFields {names : List String} {fields : List (String × Value)}
    (h : names.length = fields.length) : (conformFields defs names fields).map (·.1) = names := by
  induction fields generalizing names with
  | nil => simpa [conformFields] using (List.length_eq_zero_iff.1 h).symm
  | cons f rest ih =>
    cases names with
    | nil => simp at h
    | cons name names => exact congrArg (name :: ·) (ih (by simpa using h))

theorem isNull_conform : (v : Value) → (conform defs v).isNull = v.isNull
  | .present v => isNull_conform v
  | .composite _ id _ => by
    unfold conform
    split <;> rfl
  | .void | .absent | .bool _ | .string _ | .character _ | .address _ | .number _ | .array _
  | .dictionary _ => rfl

mutual

theorem map_heading_conform : (v : Value) → Matched defs v.instances →
    (conform defs v).instances.map (·.heading) = v.instances.map (adopt defs)
  | .present v, h => map_heading_conform v h
  | .array items, h => map_heading_conformItems items h
  | .dictionary entries, h => map_heading_conformEntries entries h
  | .composite kind id fields, h => by
    obtain ⟨d, hd, hl⟩ := h _ (.head _)
    have hf := map_heading_conformFields fields d.names fun i hi => h i (.tail _ hi)
    have hn : d.names.length = fields.length := by
      rw [length_fieldTypes] at hl
      simpa [Typedef.names] using hl
    simp only [conform, hd, instances, List.map_cons, hf]
    refine congrArg (· :: _) ?_
    simp only [adopt, hd, Option.getD_some, Typedef.heading, names_fieldTypes,
      map_fst_conformFields hn]
  | .void, _ | .absent, _ | .bool _, _ | .string _, _ | .character _, _ | .address _, _
  | .number _, _ => rfl

theorem map_heading_conformItems : (items : List Value) → Matched defs (itemInstances items) →
    (itemInstances (conformItems defs items)).map (·.heading) =
      (itemInstances items).map (adopt defs)
  | [], _ => rfl
  | v :: rest, h => by
    simp only [conformItems, itemInstances, List.map_append]
    rw [map_heading_conform v fun i hi => h i (List.mem_append_left _ hi),
      map_heading_conformItems rest fun i hi => h i (List.mem_append_right _ hi)]

theorem map_heading_conformEntries : (entries : List (Value × Value)) →
    Matched defs (entryInstances entries) →
    (entryInstances (conformEntries defs entries)).map (·.heading) =
      (entryInstances entries).map (adopt defs)
  | [], _ => rfl
  | (k, v) :: rest, h => by
    simp only [conformEntries, entryInstances, List.map_append]
    rw [map_heading_conform k fun i hi => h i (by simp [entryInstances, hi]),
      map_heading_conform v fun i hi => h i (by simp [entryInstances, hi]),
      map_heading_conformEntries rest fun i hi => h i (by simp [entryInstances, hi])]

theorem map_heading_conformFields : (fields : List (String × Value)) → (names : List String) →
    Matched defs (fieldInstances fields) →
    (fieldInstances (conformFields defs names fields)).map (·.heading) =
      (fieldInstances fields).map (adopt defs)
  | [], _, _ => by simp [conformFields, fieldInstances]
  | (_, v) :: rest, names, h => by
    have hv := map_heading_conform v fun i hi => h i (List.mem_append_left _ hi)
    have hr (names) :=
      map_heading_conformFields rest names fun i hi => h i (List.mem_append_right _ hi)
    cases names <;> simp only [conformFields, fieldInstances, List.map_append, hv, hr]

end

mutual

theorem conform_eq_self : (v : Value) → (∀ i ∈ v.instances, adopt defs i = i.heading) →
    conform defs v = v
  | .present v, h => congrArg Value.present (conform_eq_self v h)
  | .array items, h => congrArg Value.array (conformItems_eq_self items h)
  | .dictionary entries, h => congrArg Value.dictionary (conformEntries_eq_self entries h)
  | .composite kind id fields, h => by
    have ha := h _ (.head _)
    have hr (names) := conformFields_eq_self fields names fun i hi => h i (.tail _ hi)
    rw [adopt] at ha
    unfold conform
    split
    · rename_i d hd
      rw [hd, Option.getD_some, Typedef.heading, Typedef.heading, names_fieldTypes] at ha
      obtain ⟨hk, hi, hn⟩ : d.kind = kind ∧ d.typeId = id ∧ d.names = fields.map (·.1) := by
        simpa using ha
      rw [hk, hi, hr _ (.inr hn)]
    · rw [hr _ (.inl rfl)]
  | .void, _ | .absent, _ | .bool _, _ | .string _, _ | .character _, _ | .address _, _
  | .number _, _ => rfl

theorem conformItems_eq_self : (items : List Value) →
    (∀ i ∈ itemInstances items, adopt defs i = i.heading) → conformItems defs items = items
  | [], _ => rfl
  | v :: rest, h => by
    rw [conformItems, conform_eq_self v fun i hi => h i (List.mem_append_left _ hi),
      conformItems_eq_self rest fun i hi => h i (List.mem_append_right _ hi)]

theorem conformEntries_eq_self : (entries : List (Value × Value)) →
    (∀ i ∈ entryInstances entries, adopt defs i = i.heading) →
    conformEntries defs entries = entries
  | [], _ => rfl
  | (k, v) :: rest, h => by
    rw [conformEntries, conform_eq_self k fun i hi => h i (by simp [entryInstances, hi]),
      conform_eq_self v fun i hi => h i (by simp [entryInstances, hi]),
      conformEntries_eq_self rest fun i hi => h i (by simp [entryInstances, hi])]

theorem conformFields_eq_self : (fields : List (String × Value)) → (names : List String) →
    (∀ i ∈ fieldInstances fields, adopt defs i = i.heading) →
    names = [] ∨ names = fields.map (·.1) → conformFields defs names fields = fields
  | [], _, _, _ => by simp [conformFields]
  | (own, v) :: rest, names, h, hn => by
    have hv := conform_eq_self v fun i hi => h i (List.mem_append_left _ hi)
    have hr (names) (hn) :=
      conformFields_eq_self rest names (fun i hi => h i (List.mem_append_right _ hi)) hn
    rcases hn with rfl | rfl
    · rw [conformFields, hv, hr _ (.inl rfl)]
    · rw [List.map_cons, conformFields, hv, hr _ (.inr rfl)]

end

theorem instances_of_isNull : (v : Value) → v.isNull = true → v.instances = []
  | .void, _ | .absent, _ => rfl
  | .present v, h => instances_of_isNull v h
  | .bool _, h | .string _, h | .character _, h | .address _, h | .number _, h | .array _, h
  | .dictionary _, h | .composite .., h => nomatch h

mutual

/-- Emptying optionals drops no instance. -/
theorem map_heading_collapse : (v : Value) →
    v.collapse.instances.map (·.heading) = v.instances.map (·.heading)
  | .present v => by
    rw [collapse_present]
    split
    · rw [instances, instances_of_isNull v ‹_›]; rfl
    · exact map_heading_collapse v
  | .array items => map_heading_collapseItems items
  | .dictionary entries => map_heading_collapseEntries entries
  | .composite kind id fields => by
    simp only [collapse, instances, List.map_cons, map_heading_collapseFields fields]
    refine congrArg (· :: _) ?_
    simp only [Typedef.heading, names_fieldTypes, map_fst_collapseFields]
  | .void | .absent | .bool _ | .string _ | .character _ | .address _ | .number _ => rfl

theorem map_heading_collapseItems : (items : List Value) →
    (itemInstances (collapseItems items)).map (·.heading) = (itemInstances items).map (·.heading)
  | [] => rfl
  | v :: rest => by
    simp only [collapseItems, itemInstances, List.map_append, map_heading_collapse v,
      map_heading_collapseItems rest]

theorem map_heading_collapseEntries : (entries : List (Value × Value)) →
    (entryInstances (collapseEntries entries)).map (·.heading) =
      (entryInstances entries).map (·.heading)
  | [] => rfl
  | (k, v) :: rest => by
    simp only [collapseEntries, entryInstances, List.map_append, map_heading_collapse k,
      map_heading_collapse v, map_heading_collapseEntries rest]

theorem map_heading_collapseFields : (fields : List (String × Value)) →
    (fieldInstances (collapseFields fields)).map (·.heading) =
      (fieldInstances fields).map (·.heading)
  | [] => rfl
  | (_, v) :: rest => by
    simp only [collapseFields, fieldInstances, List.map_append, map_heading_collapse v,
      map_heading_collapseFields rest]

theorem map_fst_collapseFields : (fields : List (String × Value)) →
    (collapseFields fields).map (·.1) = fields.map (·.1)
  | [] => rfl
  | (name, _) :: rest => congrArg (name :: ·) (map_fst_collapseFields rest)

end
end

/-- In a value whose instances agree, the collected definitions say what each instance says. -/
theorem Agree.adopt_eq {v : Value} (h : v.Agree) {i : Typedef} (hi : i ∈ v.instances) :
    adopt (Typedefs.collect [] v) i = i.heading := by
  obtain ⟨d, hd, _⟩ := Typedefs.exists_typedef_of_mem_instances hi
  obtain ⟨j, hj, hw⟩ := Typedefs.exists_instance_of_mem_collect (Typedefs.mem_of_find? hd)
  have hid : j.typeId = i.typeId :=
    (congrArg (·.2.1) hw.heading).symm.trans (Typedefs.typeId_of_find? hd)
  obtain ⟨hk, hn⟩ := h j hj i hi hid
  rw [adopt, hd, Option.getD_some, hw.heading, Typedef.heading, Typedef.heading, hk, hid, hn]

theorem Agree.matched {v : Value} (h : v.Agree) :
    Matched (Typedefs.collect [] v) v.instances := fun i hi => by
  obtain ⟨d, hd, _⟩ := Typedefs.exists_typedef_of_mem_instances hi
  have := h.adopt_eq hi
  rw [adopt, hd] at this
  have := congrArg (fun h => h.2.2.length) this
  exact ⟨d, hd, by simpa [Typedef.heading, Typedef.names] using this⟩

/-- The collected definitions overrule no instance exactly if the instances agree. -/
theorem collapse_conform_eq_iff {v : Value} (hm : Matched (Typedefs.collect [] v) v.instances) :
    (v.conform (Typedefs.collect [] v)).collapse = v.collapse ↔ v.Agree := by
  constructor
  · intro h i hi j hj hij
    have hh : v.instances.map (·.heading) = v.instances.map (adopt (Typedefs.collect [] v)) := by
      rw [← map_heading_collapse, ← h, map_heading_collapse, map_heading_conform v hm]
    have ha := List.map_inj_left.1 hh
    obtain ⟨d, hd, _⟩ := hm i hi
    have hi' : i.heading = d.heading := by rw [ha i hi, adopt, hd]; rfl
    have hj' : j.heading = d.heading := by rw [ha j hj, adopt, ← hij, hd]; rfl
    have := hi'.trans hj'.symm
    exact ⟨congrArg (·.1) this, congrArg (·.2.2) this⟩
  · intro h
    rw [conform_eq_self v fun i hi => h.adopt_eq hi]

end FlowAccess.Cadence.Value
