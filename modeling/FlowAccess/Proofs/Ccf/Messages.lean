import FlowAccess.Proofs.Ccf.Values
import FlowAccess.Proofs.Outcomes

/-!
# Messages read back

A message holds the definitions that were collected from its value, in which every instance in the
value fits if it has as many fields as its definition. Whether such a message can be read is a
matter of `messageRoom` alone, and what is read is the value as the definitions describe it
(`exists_encode`). A value with an instance that has another number of fields has no message
(`matched_of_encode`).
-/

namespace FlowAccess.Cadence

namespace Value
open Ccf

/-! ## Lengths -/

/-- The lengths in a definition are those of data in memory. -/
structure HeadingFits (d : Typedef) : Prop where
  typeId : TextFits d.typeId
  count : d.fields.length < 2 ^ 64
  names : ∀ name ∈ d.names, TextFits name

theorem HeadingFits.congr {d e : Typedef} (h : HeadingFits d) (he : e.heading = d.heading) :
    HeadingFits e where
  typeId := by
    have : e.typeId = d.typeId := congrArg (·.2.1) he
    exact this ▸ h.typeId
  count := by
    have : e.names = d.names := congrArg (·.2.2) he
    have := congrArg List.length this
    simp only [Typedef.names, List.length_map] at this
    exact this ▸ h.count
  names := by
    have : e.names = d.names := congrArg (·.2.2) he
    exact this ▸ h.names

theorem headingFits_of_mem {v : Value} (h : v.LengthsFit) : ∀ i ∈ v.instances, HeadingFits i := by
  refine inherited_lengthsFit.forall_instances ?_ v h
  rintro kind id fields ⟨ht, hn, hf⟩
  refine ⟨ht, ?_, ?_⟩
  · show (Typedefs.fieldTypes fields).length < 2 ^ 64
    rw [length_fieldTypes]
    omega
  · rw [names_fieldTypes]
    intro name hm
    obtain ⟨f, hmem, rfl⟩ := List.mem_map.1 hm
    exact (fits_of_mem_fields hf hmem).1

end Value

namespace Ccf
open StaticType Value

variable {defs : Typedefs}

/-! ## Definitions -/

theorem mem_types_fieldTypes {kind : CompositeKind} {id : String} {fields : List (String × Value)}
    {t : StaticType} (h : t ∈ Typedef.types ⟨kind, id, Typedefs.fieldTypes fields⟩) :
    ∃ f ∈ fields, t = of f.2 := by
  induction fields with
  | nil => cases h
  | cons f rest ih =>
    rcases List.mem_cons.1 h with rfl | h
    · exact ⟨f, .head _, rfl⟩
    · obtain ⟨g, hg, ht⟩ := ih h
      exact ⟨g, .tail _ hg, ht⟩

theorem defined_types {v : Value} (h : ∀ i ∈ v.instances, Covered defs i) :
    ∀ i ∈ v.instances, ∀ t ∈ i.types, t.Defined defs := by
  have hq := inherited_forall_instances (Covered defs)
  refine hq.forall_instances ?_ v h
  intro kind id fields hf t ht
  obtain ⟨f, hm, rfl⟩ := mem_types_fieldTypes ht
  exact defined_of f.2 (hq.composite hf f hm)

theorem Covers.defined : {ts us : List StaticType} → ts.length = us.length → Covers ts us →
    (∀ u ∈ us, u.Defined defs) → ∀ t ∈ ts, t.Defined defs
  | [], _, _, _, _ => fun _ ht => nomatch ht
  | _ :: _, [], h, _, _ => by simp at h
  | t :: ts, u :: us, h, ⟨htu, hts⟩, hu => by
    intro s hs
    rcases List.mem_cons.1 hs with rfl | hs
    · rcases htu with rfl | rfl
      · trivial
      · exact hu _ (.head _)
    · exact hts.defined (by simpa using h) (fun u hm => hu u (.tail _ hm)) s hs

theorem exists_encodeFieldTypes (hl : defs.length < 2 ^ 64) :
    (fields : List (String × StaticType)) → (∀ name ∈ fields.map (·.1), TextFits name) →
    (∀ t ∈ fields.map (·.2), t.Defined defs) →
    ∃ bytes, encodeFieldTypes defs fields = .ok bytes ∧
      Reads (Reader.many readField fields.length) bytes
        (typesRoom (fields.map (·.2)) ≤ fullRoom) (fields.map fun (n, t) => (n, t.inline defs))
  | [], _, _ => ⟨_, rfl, (Reads.pure _).of_true (Nat.zero_le _)⟩
  | (name, t) :: rest, hn, ht => by
    obtain ⟨tb, he, hr⟩ := reads_type hl t (ht _ (.head _))
    obtain ⟨bs, hes, hrs⟩ := exists_encodeFieldTypes hl rest (fun n h => hn n (.tail _ h))
      fun t h => ht t (.tail _ h)
    refine ⟨arrayHead 2 ++ Cbor.text name ++ tb ++ bs, ?_, ?_⟩
    · simp only [encodeFieldTypes, he, hes, bind, Except.bind, pure, Except.pure]
    · have hfield : Reads readField (arrayHead 2 ++ (Cbor.text name ++ tb)) (t.room ≤ fullRoom)
          (name, t.inline defs) := by
        refine (reads_array _ (by decide)).andThen ?_
        refine (Reads.cbor (Cbor.reads_text (hn _ (.head _)))).andThen ((hr fullRoom).finish ?_)
        exact .pure _
      rw [List.append_assoc (arrayHead 2), List.length_cons, Reader.many]
      refine (hfield.bind (hrs.finish ?_)).congr Nat.max_le.symm
      exact .pure _

theorem exists_encodeTypedef (hl : defs.length < 2 ^ 64) {index : Nat} (hi : index < 2 ^ 64)
    {d : Typedef} (hf : HeadingFits d) (hd : ∀ t ∈ d.types, t.Defined defs) :
    ∃ bytes, encodeTypedef defs index d = .ok bytes ∧
      Reads readDefinition bytes (typesRoom d.types ≤ fullRoom) (definition defs index d) := by
  obtain ⟨bs, he, hr⟩ := exists_encodeFieldTypes hl d.fields hf.names hd
  refine ⟨_, by rw [encodeTypedef, he]; rfl, ?_⟩
  have htag : typedefTag d.kind < 2 ^ 64 := by cases d.kind <;> decide
  simp only [List.append_assoc]
  refine (reads_tag htag).andThen ?_
  have hrest : Reads (readDefinitionOf d.kind)
      (arrayHead 3 ++ (Cbor.bytes (typedefId index) ++ (Cbor.text d.typeId ++
        (arrayHead d.fields.length ++ bs)))) (typesRoom d.types ≤ fullRoom)
      (definition defs index d) := by
    refine (reads_array _ (by decide)).andThen ?_
    refine (Reads.cbor (Cbor.reads_bytes (length_typedefId_lt hi))).andThen ?_
    refine (Reads.cbor (Cbor.reads_text hf.typeId)).andThen ?_
    refine (reads_length _ hf.count).andThen (hr.finish ?_)
    exact .pure _
  cases hk : d.kind with
  | struct => rw [hk] at hrest; exact hrest
  | event => rw [hk] at hrest; exact hrest

theorem exists_encodeTypedefs (hl : defs.length < 2 ^ 64) : (ds : List Typedef) → (index : Nat) →
    index + ds.length ≤ 2 ^ 64 → (∀ d ∈ ds, HeadingFits d) →
    (∀ d ∈ ds, ∀ t ∈ d.types, t.Defined defs) →
    ∃ bytes, encodeTypedefs defs index ds = .ok bytes ∧
      Reads (Reader.many readDefinition ds.length) bytes (typedefsRoom ds ≤ fullRoom)
        (definitionsFrom defs index ds)
  | [], _, _, _, _ => ⟨_, rfl, (Reads.pure _).of_true (Nat.zero_le _)⟩
  | d :: rest, index, hi, hf, hd => by
    rw [List.length_cons] at hi
    have hlt : index < 2 ^ 64 := by omega
    obtain ⟨b, he, hr⟩ := exists_encodeTypedef hl hlt (hf _ (.head _)) (hd _ (.head _))
    obtain ⟨bs, hes, hrs⟩ := exists_encodeTypedefs hl rest (index + 1) (by omega)
      (fun d h => hf d (.tail _ h)) fun d h => hd d (.tail _ h)
    refine ⟨b ++ bs, ?_, ?_⟩
    · simp only [encodeTypedefs, he, hes, bind, Except.bind, pure, Except.pure]
    · rw [List.length_cons, Reader.many]
      refine (hr.bind (hrs.finish ?_)).congr Nat.max_le.symm
      exact .pure _

/-! ## Collected definitions -/

theorem covered_of_mem_instances {v : Value} :
    ∀ i ∈ v.instances, Covered (Typedefs.collect [] v) i :=
  fun _ hi => Typedefs.exists_typedef_of_mem_instances hi

theorem headingFits_of_mem_collect {v : Value} (hf : v.LengthsFit) :
    ∀ d ∈ Typedefs.collect [] v, HeadingFits d := fun d hd => by
  obtain ⟨i, hi, hw⟩ := Typedefs.exists_instance_of_mem_collect hd
  exact (headingFits_of_mem hf i hi).congr hw.heading

theorem defined_of_mem_collect {v : Value} :
    ∀ d ∈ Typedefs.collect [] v, ∀ t ∈ d.types, t.Defined (Typedefs.collect [] v) := fun d hd => by
  obtain ⟨i, hi, hw⟩ := Typedefs.exists_instance_of_mem_collect hd
  exact hw.types.defined hw.length_eq (defined_types covered_of_mem_instances i hi)

/-- The definitions of a value are read back in their order. -/
theorem exists_encodeTypedefs_collect {v : Value} (hl : (Typedefs.collect [] v).length < 2 ^ 64)
    (hf : v.LengthsFit) :
    ∃ bytes, encodeTypedefs (Typedefs.collect [] v) 0 (Typedefs.collect [] v) = .ok bytes ∧
      Reads (Reader.many readDefinition (Typedefs.collect [] v).length) bytes
        (typedefsRoom (Typedefs.collect [] v) ≤ fullRoom)
        (definitionsFrom (Typedefs.collect [] v) 0 (Typedefs.collect [] v)) :=
  exists_encodeTypedefs hl (Typedefs.collect [] v) 0 (by omega) (headingFits_of_mem_collect hf)
    defined_of_mem_collect

/-! ## Messages -/

theorem Matched.fits {v : Value} (h : Matched (Typedefs.collect [] v) v.instances) :
    ∀ i ∈ v.instances, Fits (Typedefs.collect [] v) i := fun i hi => by
  obtain ⟨d, hd, hn⟩ := h i hi
  obtain ⟨e, he, hc⟩ := Typedefs.exists_typedef_of_mem_instances hi
  obtain rfl := Option.some.inj (hd.symm.trans he)
  exact ⟨d, hd, hn, hc⟩

/-- The pair of a type and a value, after its tag. -/
theorem reads_pair {ds : List Definition} {type : InlineType} {tb vb : Bytes} {p q : Prop}
    {v : Value} (ht : Reads (readType fullRoom) tb p type)
    (hv : Reads (readValue ds fullRoom type) vb q v) :
    Reads (do
      Reader.array 2 .typedValue
      let type ← readType fullRoom
      readValue ds fullRoom type) (arrayHead 2 ++ (tb ++ vb)) (p ∧ q) v :=
  (reads_array _ (by decide)).andThen (ht.bind hv)

theorem reads_noDefinitions : Reads readDefinitions (tagHead Tag.typedValue) True [] := by
  refine (reads_tag (by decide)).finish ?_
  rw [if_neg (by decide), if_pos rfl]
  exact .pure []

theorem reads_definitions {n : Nat} {db : Bytes} {p : Prop} {ds : List Definition}
    (hn : n < 2 ^ 64) (h : Reads (Reader.many readDefinition n) db p ds) :
    Reads readDefinitions (tagHead Tag.typedefsAndValue ++ (arrayHead 2 ++ (arrayHead n ++
      (db ++ tagHead Tag.typedValue)))) p ds := by
  refine (reads_tag (by decide)).andThen ?_
  rw [if_pos rfl]
  refine (reads_array _ (by decide)).andThen ((reads_length _ hn).andThen ?_)
  refine (h.bind (reads_typedValue.finish ?_)).congr (iff_of_eq (and_true p))
  exact .pure ds

/-- The message of a value whose instances match their definitions. -/
theorem exists_encode {v : Value} (hl : (Typedefs.collect [] v).length < 2 ^ 64)
    (hf : v.LengthsFit) (hm : Matched (Typedefs.collect [] v) v.instances) :
    ∃ b, encode v = .ok b ∧ Reads readMessage b (messageRoom v ≤ fullRoom)
      (v.conform (Typedefs.collect [] v)).collapse := by
  obtain ⟨vb, hw⟩ := exists_written hl v (Matched.fits hm) hf
  obtain ⟨tb, hte, htr⟩ := reads_type hl (of v) (defined_of v covered_of_mem_instances)
  obtain ⟨db, hde, hdr⟩ := exists_encodeTypedefs_collect hl hf
  have hpair := reads_pair (htr fullRoom) (hw.reads fullRoom)
  have hroom : messageRoom v ≤ fullRoom ↔ typedefsRoom (Typedefs.collect [] v) ≤ fullRoom ∧
      (of v).room ≤ fullRoom ∧ valueRoom (Typedefs.collect [] v) v ≤ fullRoom := by
    rw [messageRoom, Nat.max_le, Nat.max_le]
  generalize hc : Typedefs.collect [] v = defs at *
  cases defs with
  | nil =>
    refine ⟨tagHead Tag.typedValue ++ (arrayHead 2 ++ (tb ++ vb)), ?_, ?_⟩
    · simp [encode, hc, hte, hw.encoded, bind, Except.bind, pure, Except.pure]
    · refine (reads_noDefinitions.andThen hpair).congr ?_
      rw [hroom]
      exact (and_iff_right (Nat.zero_le _)).symm
  | cons d rest =>
    refine ⟨_, ?_, ((reads_definitions hl hdr).bind hpair).congr hroom.symm⟩
    simp [encode, hc, hte, hde, hw.encoded, bind, Except.bind, pure, Except.pure]

theorem decode_of_reads {b : Bytes} {p : Prop} {v : Value} (h : Reads readMessage b p v) :
    (p → decode b = .ok v) ∧ (¬p → decode b = .error (.malformedCcf .tooDeep)) := by
  obtain ⟨hp, hn⟩ := h []
  rw [List.append_nil] at hp hn
  exact ⟨fun h => by rw [decode, hp h], fun h => by rw [decode, hn h]⟩

/-! ### Values without a message -/

mutual

/-- A value that is written at any type has as many fields in each instance as its definition. -/
theorem matched_of_encodeValue : (v : Value) → {type : StaticType} → {b : Bytes} →
    encodeValue defs type v = .ok b → Matched defs v.instances
  | .present v, type, b, h => by
    unfold encodeValue at h
    split at h
    · obtain ⟨⟨start, t⟩, -, h⟩ := ok_of_bind_ok h
      obtain ⟨_, h, -⟩ := ok_of_bind_ok h
      exact matched_of_encodeValue v h
    · cases h
  | .array items, type, b, h => by
    unfold encodeValue at h
    split at h
    · obtain ⟨_, h, -⟩ := ok_of_bind_ok h
      exact matched_of_encodeItems items h
    · cases h
  | .dictionary entries, type, b, h => by
    unfold encodeValue at h
    split at h
    · obtain ⟨_, h, -⟩ := ok_of_bind_ok h
      exact matched_of_encodeEntries entries h
    · cases h
  | .composite kind id fields, type, b, h => by
    unfold encodeValue at h
    split at h
    · cases h
    · rename_i d hd
      split at h
      · cases h
      · rename_i hn
        obtain ⟨_, h, -⟩ := ok_of_bind_ok h
        intro i hi
        rcases List.mem_cons.1 hi with rfl | hi
        · exact ⟨d, hd, by simpa [length_fieldTypes] using hn⟩
        · exact matched_of_encodeFields fields (d.fields.map (·.2)) (by simpa using hn) h i hi
  | .void, _, _, _ | .absent, _, _, _ | .bool _, _, _, _ | .string _, _, _, _
  | .character _, _, _, _ | .address _, _, _, _ | .number _, _, _, _ => fun _ hi => nomatch hi

theorem matched_of_encodeItems : (items : List Value) → {type : StaticType} → {b : Bytes} →
    encodeItems defs type items = .ok b → Matched defs (itemInstances items)
  | [], _, _, _ => fun _ hi => nomatch hi
  | v :: rest, type, b, h => by
    unfold encodeItems at h
    obtain ⟨⟨_, _⟩, -, h⟩ := ok_of_bind_ok h
    obtain ⟨_, hv, h⟩ := ok_of_bind_ok h
    obtain ⟨_, hr, -⟩ := ok_of_bind_ok h
    intro i hi
    rcases List.mem_append.1 hi with hi | hi
    · exact matched_of_encodeValue v hv i hi
    · exact matched_of_encodeItems rest hr i hi

theorem matched_of_encodeEntries : (entries : List (Value × Value)) →
    {keyType valueType : StaticType} → {b : Bytes} →
    encodeEntries defs keyType valueType entries = .ok b → Matched defs (entryInstances entries)
  | [], _, _, _, _ => fun _ hi => nomatch hi
  | (k, v) :: rest, _, _, b, h => by
    unfold encodeEntries at h
    obtain ⟨⟨_, _⟩, -, h⟩ := ok_of_bind_ok h
    obtain ⟨_, hk, h⟩ := ok_of_bind_ok h
    obtain ⟨⟨_, _⟩, -, h⟩ := ok_of_bind_ok h
    obtain ⟨_, hv, h⟩ := ok_of_bind_ok h
    obtain ⟨_, hr, -⟩ := ok_of_bind_ok h
    intro i hi
    rcases List.mem_append.1 hi with hi | hi
    · exact matched_of_encodeValue k hk i hi
    rcases List.mem_append.1 hi with hi | hi
    · exact matched_of_encodeValue v hv i hi
    · exact matched_of_encodeEntries rest hr i hi

/-- There are as many types as fields. -/
theorem matched_of_encodeFields : (fields : List (String × Value)) → (types : List StaticType) →
    {b : Bytes} → types.length = fields.length → encodeFields defs types fields = .ok b →
    Matched defs (fieldInstances fields)
  | [], _, _, _, _ => fun _ hi => nomatch hi
  | (_, v) :: rest, [], _, hn, _ => by simp at hn
  | (_, v) :: rest, type :: types, b, hn, h => by
    unfold encodeFields at h
    obtain ⟨⟨_, _⟩, -, h⟩ := ok_of_bind_ok h
    obtain ⟨_, hv, h⟩ := ok_of_bind_ok h
    obtain ⟨_, hr, -⟩ := ok_of_bind_ok h
    intro i hi
    rcases List.mem_append.1 hi with hi | hi
    · exact matched_of_encodeValue v hv i hi
    · exact matched_of_encodeFields rest types (Nat.succ.inj hn) hr i hi

end

theorem matched_of_encode {v : Value} {b : Bytes} (h : encode v = .ok b) :
    Matched (Typedefs.collect [] v) v.instances := by
  unfold encode at h
  dsimp only at h
  split at h
  · obtain ⟨_, -, h⟩ := ok_of_bind_ok h
    obtain ⟨_, -, h⟩ := ok_of_bind_ok h
    obtain ⟨_, hv, -⟩ := ok_of_bind_ok h
    exact matched_of_encodeValue v hv
  · obtain ⟨_, -, h⟩ := ok_of_bind_ok h
    obtain ⟨_, -, h⟩ := ok_of_bind_ok h
    obtain ⟨_, -, h⟩ := ok_of_bind_ok h
    obtain ⟨_, hv, -⟩ := ok_of_bind_ok h
    exact matched_of_encodeValue v hv

end Ccf
end FlowAccess.Cadence
