import FlowAccess.Proofs.Ccf.Messages

/-!
# Values without a message

The writer checks of each part that the declared type has the shape of the value, and that every
composite type has a definition. None of these checks can fail: a part is only ever written at its
own type, because the type that is declared for it is `AnyStruct` or its own, also after instances
that came later widened a definition (`Covered`). What is left is the number of fields: a value is
refused exactly if two instances of one type differ in it (`encode_error_iff_uneven`).
-/

namespace FlowAccess.Cadence

/-- Two instances of a type have different numbers of fields. -/
def Value.Uneven (v : Value) (typeId : String) : Prop :=
  ∃ i ∈ v.instances, ∃ j ∈ v.instances,
    i.typeId = typeId ∧ j.typeId = typeId ∧ i.fields.length ≠ j.fields.length

namespace Ccf
open StaticType Value

variable {defs : Typedefs}

/-! ## Types are written -/

theorem exists_encodeType : (t : StaticType) → t.Defined defs → ∃ b, encodeType defs t = .ok b
  | .simple _, _ => ⟨_, rfl⟩
  | .optional t, h | .array t, h => by
    obtain ⟨b, hb⟩ := exists_encodeType t h
    exact ⟨_, by rw [encodeType, hb]; rfl⟩
  | .dictionary k v, ⟨hk, hv⟩ => by
    obtain ⟨kb, hkb⟩ := exists_encodeType k hk
    obtain ⟨vb, hvb⟩ := exists_encodeType v hv
    exact ⟨_, by rw [encodeType, hkb, hvb]; rfl⟩
  | .composite _, ⟨_, hd⟩ => by
    obtain ⟨i, hi, -⟩ := Typedefs.exists_index?_of_find? hd
    exact ⟨_, by rw [encodeType, hi]; rfl⟩

theorem exists_encodeFieldTypes_ok : (fields : List (String × StaticType)) →
    (∀ t ∈ fields.map (·.2), t.Defined defs) → ∃ b, encodeFieldTypes defs fields = .ok b
  | [], _ => ⟨_, rfl⟩
  | (_, t) :: rest, h => by
    obtain ⟨b, hb⟩ := exists_encodeType t (h t (.head _))
    obtain ⟨bs, hbs⟩ := exists_encodeFieldTypes_ok rest fun t ht => h t (.tail _ ht)
    exact ⟨_, by rw [encodeFieldTypes, hb, hbs]; rfl⟩

theorem exists_encodeTypedefs_ok : (ds : List Typedef) → (index : Nat) →
    (∀ d ∈ ds, ∀ t ∈ d.types, t.Defined defs) → ∃ b, encodeTypedefs defs index ds = .ok b
  | [], _, _ => ⟨_, rfl⟩
  | d :: rest, index, h => by
    obtain ⟨b, hb⟩ := exists_encodeFieldTypes_ok d.fields (h d (.head _))
    obtain ⟨bs, hbs⟩ :=
      exists_encodeTypedefs_ok rest (index + 1) fun d hd => h d (.tail _ hd)
    exact ⟨_, by rw [encodeTypedefs, encodeTypedef, hb, hbs]; rfl⟩

/-- Under a type that is any or its own, a value is written at its own type. -/
theorem exists_declare_of {type : StaticType} {v : Value} (ht : type = any ∨ type = of v)
    (hd : (of v).Defined defs) : ∃ start, declare defs type v = .ok (start, of v) := by
  by_cases hany : type = any
  · obtain ⟨b, hb⟩ := exists_encodeType (of v) hd
    refine ⟨tagHead Tag.typedValue ++ arrayHead 2 ++ b, ?_⟩
    rw [declare, if_pos hany]
    dsimp only
    rw [hb]
    rfl
  · obtain rfl := ht.resolve_left hany
    exact ⟨[], declare_of defs v⟩

/-! ## Values are refused for their fields -/

/-- The instance has another number of fields than its definition, and the error names its type. -/
def Refused (defs : Typedefs) (e : Error) (i : Typedef) : Prop :=
  (∃ d, defs.find? i.typeId = some d ∧ d.fields.length ≠ i.fields.length) ∧
    e = .malformedCcf (.unequalInstances i.typeId)

/-- Nothing is refused for the type that is declared for a part. -/
theorem error_of_declare {α : Type} {type : StaticType} {v : Value} {e : Error}
    {f : Bytes × StaticType → Except Error α} (ht : type = any ∨ type = of v)
    (hd : (of v).Defined defs) (h : (declare defs type v >>= f) = .error e) :
    ∃ start, f (start, of v) = .error e := by
  obtain ⟨start, hs⟩ := exists_declare_of ht hd
  exact ⟨start, error_of_ok_bind hs h⟩

theorem error_of_append {x : Except Error Bytes} {f : Bytes → Bytes} {e : Error}
    (h : (do return f (← x)) = .error e) : x = .error e := by
  rcases error_of_bind_error h with h | ⟨_, -, h⟩
  · exact h
  · cases h

mutual

/-- A value whose instances are covered is refused for one of them only. -/
theorem refused_of_encodeValue : (v : Value) → (∀ i ∈ v.instances, Covered defs i) → {e : Error} →
    encodeValue defs (of v) v = .error e → ∃ i ∈ v.instances, Refused defs e i
  | .present v, hc, e, h => refused_of_encodeValue v hc (encodeValue_present defs v ▸ h)
  | .array items, hc, e, h => by
    rw [of, encodeValue] at h
    exact refused_of_encodeItems items common_eq_any_or hc (error_of_append h)
  | .dictionary entries, hc, e, h => by
    rw [of, encodeValue] at h
    exact refused_of_encodeEntries entries common_eq_any_or common_eq_any_or hc (error_of_append h)
  | .composite kind id fields, hc, e, h => by
    obtain ⟨d, hd, hcovers⟩ := hc _ (.head _)
    rw [encodeValue, hd] at h
    dsimp only at h
    split at h
    · obtain rfl := Except.error.inj h
      refine ⟨_, .head _, ⟨d, hd, ?_⟩, rfl⟩
      rwa [length_fieldTypes]
    · obtain ⟨i, hi, hr⟩ := refused_of_encodeFields fields _ hcovers
        (fun i hi => hc i (.tail _ hi)) (error_of_append h)
      exact ⟨i, .tail _ hi, hr⟩
  | .void, _, _, h | .absent, _, _, h | .bool _, _, _, h | .string _, _, _, h
  | .character _, _, _, h | .address _, _, _, h | .number _, _, _, h => nomatch h

theorem refused_of_encodeItems : (items : List Value) → {type : StaticType} →
    (∀ t ∈ ofItems items, type = any ∨ type = t) →
    (∀ i ∈ itemInstances items, Covered defs i) → {e : Error} →
    encodeItems defs type items = .error e → ∃ i ∈ itemInstances items, Refused defs e i
  | [], _, _, _, _, h => nomatch h
  | v :: rest, type, ht, hc, e, h => by
    have hv : ∀ i ∈ v.instances, Covered defs i := fun i hi => hc i (List.mem_append_left _ hi)
    rw [encodeItems] at h
    obtain ⟨_, h⟩ := error_of_declare (ht _ (.head _)) (defined_of v hv) h
    rcases error_of_bind_error h with h | ⟨_, -, h⟩
    · obtain ⟨i, hi, hr⟩ := refused_of_encodeValue v hv h
      exact ⟨i, List.mem_append_left _ hi, hr⟩
    · obtain ⟨i, hi, hr⟩ := refused_of_encodeItems rest (fun t hm => ht t (.tail _ hm))
        (fun i hi => hc i (List.mem_append_right _ hi)) (error_of_append h)
      exact ⟨i, List.mem_append_right _ hi, hr⟩

theorem refused_of_encodeEntries : (entries : List (Value × Value)) →
    {keyType valueType : StaticType} → (∀ t ∈ ofKeys entries, keyType = any ∨ keyType = t) →
    (∀ t ∈ ofValues entries, valueType = any ∨ valueType = t) →
    (∀ i ∈ entryInstances entries, Covered defs i) → {e : Error} →
    encodeEntries defs keyType valueType entries = .error e →
    ∃ i ∈ entryInstances entries, Refused defs e i
  | [], _, _, _, _, _, _, h => nomatch h
  | (k, v) :: rest, _, _, hkt, hvt, hc, e, h => by
    have hk : ∀ i ∈ k.instances, Covered defs i := fun i hi => hc i (by simp [entryInstances, hi])
    have hv : ∀ i ∈ v.instances, Covered defs i := fun i hi => hc i (by simp [entryInstances, hi])
    rw [encodeEntries] at h
    obtain ⟨_, h⟩ := error_of_declare (hkt _ (.head _)) (defined_of k hk) h
    rcases error_of_bind_error h with h | ⟨_, -, h⟩
    · obtain ⟨i, hi, hr⟩ := refused_of_encodeValue k hk h
      exact ⟨i, by simp [entryInstances, hi], hr⟩
    obtain ⟨_, h⟩ := error_of_declare (hvt _ (.head _)) (defined_of v hv) h
    rcases error_of_bind_error h with h | ⟨_, -, h⟩
    · obtain ⟨i, hi, hr⟩ := refused_of_encodeValue v hv h
      exact ⟨i, by simp [entryInstances, hi], hr⟩
    · obtain ⟨i, hi, hr⟩ := refused_of_encodeEntries rest (fun t hm => hkt t (.tail _ hm))
        (fun t hm => hvt t (.tail _ hm)) (fun i hi => hc i (by simp [entryInstances, hi]))
        (error_of_append h)
      exact ⟨i, by simp [entryInstances, hi], hr⟩

theorem refused_of_encodeFields : (fields : List (String × Value)) → (types : List StaticType) →
    Covers types ((Typedefs.fieldTypes fields).map (·.2)) →
    (∀ i ∈ fieldInstances fields, Covered defs i) → {e : Error} →
    encodeFields defs types fields = .error e → ∃ i ∈ fieldInstances fields, Refused defs e i
  | [], _, _, _, _, h => nomatch h
  | _ :: _, [], _, _, _, h => nomatch h
  | (_, v) :: rest, type :: types, ⟨ht, hts⟩, hc, e, h => by
    have hv : ∀ i ∈ v.instances, Covered defs i := fun i hi => hc i (List.mem_append_left _ hi)
    rw [encodeFields] at h
    obtain ⟨_, h⟩ := error_of_declare ht (defined_of v hv) h
    rcases error_of_bind_error h with h | ⟨_, -, h⟩
    · obtain ⟨i, hi, hr⟩ := refused_of_encodeValue v hv h
      exact ⟨i, List.mem_append_left _ hi, hr⟩
    · obtain ⟨i, hi, hr⟩ := refused_of_encodeFields rest types hts
        (fun i hi => hc i (List.mem_append_right _ hi)) (error_of_append h)
      exact ⟨i, List.mem_append_right _ hi, hr⟩

end

/-! ## Messages -/

theorem refused_of_encode {v : Value} {e : Error} (h : encode v = .error e) :
    ∃ i ∈ v.instances, Refused (Typedefs.collect [] v) e i := by
  have hc := @covered_of_mem_instances v
  obtain ⟨ds, hds⟩ := exists_encodeTypedefs_ok (Typedefs.collect [] v) 0 defined_of_mem_collect
  obtain ⟨tb, ht⟩ := exists_encodeType (of v) (defined_of v hc)
  have hv : encodeValue (Typedefs.collect [] v) (of v) v = .error e := by
    unfold encode at h
    dsimp only at h
    split at h
    · have h := error_of_ok_bind rfl h
      have h := error_of_ok_bind ht h
      exact error_of_append h
    · have h := error_of_ok_bind hds h
      have h := error_of_ok_bind rfl h
      have h := error_of_ok_bind ht h
      exact error_of_append h
  exact refused_of_encodeValue v hc hv

/-- The definition of a type has the fields of some instance of it. -/
theorem Refused.uneven {v : Value} {e : Error} {i : Typedef} (hi : i ∈ v.instances)
    (h : Refused (Typedefs.collect [] v) e i) : v.Uneven i.typeId := by
  obtain ⟨⟨d, hd, hn⟩, -⟩ := h
  obtain ⟨j, hj, hw⟩ := Typedefs.exists_instance_of_mem_collect (Typedefs.mem_of_find? hd)
  have hid : d.typeId = j.typeId := congrArg (·.2.1) hw.heading
  have hlength : d.fields.length = j.fields.length := by
    simpa [Typedef.types] using hw.length_eq
  exact ⟨j, hj, i, hi, hid.symm.trans (Typedefs.typeId_of_find? hd), rfl, hlength ▸ hn⟩

theorem not_matched_of_uneven {v : Value} {typeId : String} (h : v.Uneven typeId) :
    ¬Matched (Typedefs.collect [] v) v.instances := by
  obtain ⟨i, hi, j, hj, rfl, hji, hn⟩ := h
  intro hm
  obtain ⟨d, hd, hdi⟩ := hm i hi
  obtain ⟨c, hc, hcj⟩ := hm j hj
  rw [hji, hd] at hc
  obtain rfl := Option.some.inj hc
  exact hn (hdi.symm.trans hcj)

/-- A value has no message exactly if two instances of one type in it have different numbers of
fields, and the error names such a type. No type that the writer is at is one that it has no case
for. -/
theorem encode_error_iff_uneven (v : Value) :
    ((∃ e, encode v = .error e) ↔ ∃ typeId, v.Uneven typeId) ∧
    (∀ e, encode v = .error e → ∃ typeId, v.Uneven typeId ∧
      e = .malformedCcf (.unequalInstances typeId) ∧
      e.message = "malformed CCF payload: " ++
        ("instances of " ++ typeId ++ " disagree on their fields")) ∧
    encode v ≠ .error (.malformedCcf .optionalType) ∧
    encode v ≠ .error (.malformedCcf .arrayType) ∧
    encode v ≠ .error (.malformedCcf .dictionaryType) ∧
    ∀ typeId, encode v ≠ .error (.malformedCcf (.noTypedef typeId)) := by
  have herror : ∀ e, encode v = .error e → ∃ typeId, v.Uneven typeId ∧
      e = .malformedCcf (.unequalInstances typeId) := by
    intro e h
    obtain ⟨i, hi, hr⟩ := refused_of_encode h
    exact ⟨i.typeId, hr.uneven hi, hr.2⟩
  have hunreached : ∀ fault, (∀ typeId, fault ≠ .unequalInstances typeId) →
      encode v ≠ .error (.malformedCcf fault) := by
    intro fault hf h
    obtain ⟨typeId, -, he⟩ := herror _ h
    exact hf typeId (Error.malformedCcf.inj he)
  refine ⟨⟨?_, ?_⟩, ?_, hunreached _ nofun, hunreached _ nofun, hunreached _ nofun,
    fun _ => hunreached _ nofun⟩
  · rintro ⟨e, h⟩
    obtain ⟨typeId, hu, -⟩ := herror e h
    exact ⟨typeId, hu⟩
  · rintro ⟨typeId, hu⟩
    cases h : encode v with
    | error e => exact ⟨e, rfl⟩
    | ok b => exact absurd (matched_of_encode h) (not_matched_of_uneven hu)
  · intro e h
    obtain ⟨typeId, hu, rfl⟩ := herror e h
    exact ⟨typeId, hu, rfl, rfl⟩

end Ccf
end FlowAccess.Cadence
