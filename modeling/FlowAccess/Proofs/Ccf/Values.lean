import FlowAccess.Proofs.Ccf.Agreement
import FlowAccess.Proofs.Ccf.Types

/-!
# Values read back

What is written of a value does not name its type, so the reader needs the type that the writer
had: the value's own, or `AnyStruct`, under which both change over to its own. The reader ends up
with the value as the definitions describe it, its null optionals emptied, wherever the room
suffices (`exists_written`).
-/

namespace FlowAccess.Cadence.Ccf

open StaticType

variable {defs : Typedefs}

/-- An instance has a definition whose types take in its own. -/
def Covered (defs : Typedefs) (i : Typedef) : Prop :=
  ∃ d, defs.find? i.typeId = some d ∧ Covers d.types i.types

/-- An instance has a definition with as many fields, whose types take in its own. -/
def Fits (defs : Typedefs) (i : Typedef) : Prop :=
  ∃ d, defs.find? i.typeId = some d ∧ d.fields.length = i.fields.length ∧ Covers d.types i.types

theorem Fits.covered {i : Typedef} : Fits defs i → Covered defs i :=
  fun ⟨d, hd, _, hc⟩ => ⟨d, hd, hc⟩

/-! ## Values without parts -/

/-- What is written of a value at its own type. -/
structure Written (defs : Typedefs) (v : Value) (bytes : Bytes) : Prop where
  encoded : encodeValue defs (of v) v = .ok bytes
  nextIsNull : ∀ rest, Cbor.Reader.nextIsNull (bytes ++ rest) = some (v.isNull, bytes ++ rest)
  reads : ∀ room, Reads (readValue (definitionsFrom defs 0 defs) room ((of v).inline defs)) bytes
    (valueRoom defs v ≤ room) (v.conform defs).collapse

theorem of_ne_any (v : Value) : of v ≠ any := by
  cases v <;> simp [of, any]

/-- A value without parts is read in any room at all. -/
theorem reads_simple {t : SimpleType} {bytes : Bytes} {v : Value} {ds : List Definition}
    (ht : t ≠ .anyStruct) (h : Reads (readSimple t.code) bytes True v) (room : Nat) :
    Reads (readValue ds room (.simple t.code)) bytes (1 ≤ room) v := by
  cases room with
  | zero => exact .tooDeep _ _ (by simp)
  | succ room =>
    rw [readValue, if_neg fun he => ht (SimpleType.code_inj he)]
    exact h.of_true (Nat.succ_le_succ (Nat.zero_le _))

/-- What is written of a value without parts is of its form. -/
theorem written_simple {t : SimpleType} {v : Value} {bytes : Bytes} (h : IsSimple t bytes v)
    (he : encodeValue defs (of v) v = .ok bytes) : Written defs v bytes where
  encoded := he
  nextIsNull := h.nextIsNull
  reads room := by
    have ht : t ≠ .anyStruct := by
      rintro rfl
      cases h
    have hr := @reads_simple t bytes v (definitionsFrom defs 0 defs) ht
      ((takes_simpleType t).complete h)
    cases h <;> exact hr room

theorem written_void : Written defs .void Cbor.null := written_simple .void rfl

theorem written_bool (b : Bool) : Written defs (.bool b) (Cbor.bool b) :=
  written_simple (.bool b) rfl

theorem written_string {s : String} (h : Value.TextFits s) :
    Written defs (.string s) (Cbor.text s) := written_simple (.string (isText_text h)) rfl

theorem written_character {s : String} (h : Value.TextFits s) :
    Written defs (.character s) (Cbor.text s) := written_simple (.character (isText_text h)) rfl

theorem written_address (a : Address) : Written defs (.address a) (Cbor.bytes a.bytes) :=
  written_simple (.address (isBytes_address a)) rfl

theorem written_number (n : Number) : Written defs (.number n) (encodeNumber n) :=
  written_simple (.number (isInteger_encodeNumber n)) rfl

/-! ## Optionals -/

theorem declare_of (defs : Typedefs) (v : Value) : declare defs (of v) v = .ok ([], of v) := by
  rw [declare, if_neg (of_ne_any v)]; rfl

/-- A present optional is written as the value it holds. -/
theorem encodeValue_present (defs : Typedefs) (v : Value) :
    encodeValue defs (of (.present v)) (.present v) = encodeValue defs (of v) v := by
  rw [of, encodeValue, declare_of]
  show (encodeValue defs (of v) v).bind (fun b => .ok ([] ++ b)) = _
  cases encodeValue defs (of v) v <;> rfl

theorem encodeValue_of_isNull (defs : Typedefs) :
    (v : Value) → v.isNull = true → encodeValue defs (of v) v = .ok Cbor.null
  | .void, _ | .absent, _ => rfl
  | .present v, h => (encodeValue_present defs v).trans (encodeValue_of_isNull defs v h)
  | .bool _, h | .string _, h | .character _, h | .address _, h | .number _, h | .array _, h
  | .dictionary _, h | .composite .., h => nomatch h

theorem reads_null_optional {ds : List Definition} (inner : InlineType) (room : Nat) :
    Reads (readValue ds room (.optional inner)) Cbor.null (1 ≤ room) .absent := by
  cases room with
  | zero => exact .tooDeep _ _ (by simp)
  | succ room =>
    refine Reads.look Cbor.nextIsNull_null (Reads.of_true ?_ (Nat.succ_le_succ (Nat.zero_le _)))
    exact (Reads.cbor Cbor.reads_null).finish (.pure _)

theorem written_absent : Written defs .absent Cbor.null where
  encoded := rfl
  nextIsNull := Cbor.nextIsNull_null
  reads := reads_null_optional _

theorem written_present {v : Value} {bytes : Bytes} (h : Written defs v bytes) :
    Written defs (.present v) bytes where
  encoded := (encodeValue_present defs v).trans h.encoded
  nextIsNull := h.nextIsNull
  reads room := by
    rw [valueRoom, Value.conform, Value.collapse_present]
    by_cases hn : v.isNull = true
    · obtain rfl : Cbor.null = bytes :=
        Except.ok.inj ((encodeValue_of_isNull defs v hn).symm.trans h.encoded)
      rw [if_pos hn, if_pos ((Value.isNull_conform v).trans hn)]
      exact reads_null_optional _ room
    · rw [if_neg hn, if_neg fun h => hn ((Value.isNull_conform v).symm.trans h)]
      cases room with
      | zero => exact .tooDeep _ _ (by omega)
      | succ room =>
        refine (Reads.look h.nextIsNull ?_).congr Nat.succ_le_succ_iff.symm
        rw [if_neg hn]
        exact (h.reads room).finish (.pure _)

/-! ## Parts at their declared types -/

/-- A value is read back at its own type, and under `AnyStruct` behind its own type. -/
theorem exists_declare (hl : defs.length < 2 ^ 64) {v : Value} {bytes : Bytes}
    (h : Written defs v bytes) (hd : (of v).Defined defs) {type : StaticType}
    (ht : type = any ∨ type = of v) :
    ∃ start, declare defs type v = .ok (start, of v) ∧
      ∀ room, Reads (readValue (definitionsFrom defs 0 defs) room (type.inline defs))
        (start ++ bytes) (declaredRoom type (of v) (valueRoom defs v) ≤ room)
        (v.conform defs).collapse := by
  by_cases hany : type = any
  · subst hany
    obtain ⟨tb, he, hr⟩ := reads_type hl (of v) hd
    refine ⟨_, by rw [declare, if_pos rfl]; dsimp only; rw [he]; rfl, fun room => ?_⟩
    rw [declaredRoom, if_pos rfl]
    cases room with
    | zero => exact .tooDeep _ _ (by omega)
    | succ room =>
      rw [show any.inline defs = .simple SimpleType.anyStruct.code from rfl, readValue, if_pos rfl,
        List.append_assoc, List.append_assoc]
      refine reads_typedValue.andThen ((reads_array _ (by decide)).andThen ?_)
      refine ((hr room).bind (h.reads room)).congr ?_
      rw [Nat.succ_le_succ_iff, Nat.max_le]
  · obtain rfl := ht.resolve_left hany
    refine ⟨[], declare_of defs v, fun room => ?_⟩
    rw [declaredRoom, if_neg hany]
    exact h.reads room

/-! ## Containers -/

/-- What is written of the items of an array. -/
structure WrittenItems (defs : Typedefs) (type : StaticType) (items : List Value) (bytes : Bytes) :
    Prop where
  encoded : encodeItems defs type items = .ok bytes
  reads : ∀ room, Reads
    (Reader.many (readValue (definitionsFrom defs 0 defs) room (type.inline defs)) items.length)
    bytes (itemsRoom defs type items ≤ room)
    (Value.collapseItems (Value.conformItems defs items))

theorem writtenItems_nil (type : StaticType) : WrittenItems defs type [] [] where
  encoded := rfl
  reads _ := (Reads.pure _).of_true (Nat.zero_le _)

theorem exists_writtenItems_cons (hl : defs.length < 2 ^ 64) {type : StaticType} {v : Value}
    {items : List Value} {bytes bs : Bytes} (h : Written defs v bytes) (hd : (of v).Defined defs)
    (ht : type = any ∨ type = of v) (hs : WrittenItems defs type items bs) :
    ∃ bs, WrittenItems defs type (v :: items) bs := by
  obtain ⟨start, he, hr⟩ := exists_declare hl h hd ht
  refine ⟨start ++ bytes ++ bs, ?_, fun room => ?_⟩
  · simp only [encodeItems, he, h.encoded, hs.encoded, bind, Except.bind, pure, Except.pure]
  · rw [List.length_cons, Reader.many, itemsRoom, Value.conformItems, Value.collapseItems]
    refine ((hr room).bind ((hs.reads room).finish ?_)).congr Nat.max_le.symm
    exact .pure _

theorem written_array {items : List Value} {bytes : Bytes} (hn : items.length < 2 ^ 64)
    (h : WrittenItems defs (common (ofItems items)) items bytes) :
    Written defs (.array items) (arrayHead items.length ++ bytes) where
  encoded := by
    rw [of, encodeValue, h.encoded]; rfl
  nextIsNull rest := by
    rw [arrayHead, List.append_assoc]
    exact Cbor.nextIsNull_head hn (by decide) _
  reads room := by
    cases room with
    | zero => exact .tooDeep _ _ (by simp [valueRoom])
    | succ room =>
      rw [valueRoom, of, StaticType.inline, readValue]
      refine ((reads_length _ hn).andThen ((h.reads room).finish ?_)).congr
        Nat.succ_le_succ_iff.symm
      exact .pure _

theorem reads_entry {ds : List Definition} {room : Nat} {key value : InlineType} {kb vb : Bytes}
    {p q : Prop} {k v : Value} (hk : Reads (readValue ds room key) kb p k)
    (hv : Reads (readValue ds room value) vb q v) :
    Reads (readEntry ds room key value) (kb ++ vb) (p ∧ q) (k, v) := by
  refine hk.bind (hv.finish ?_)
  exact .pure _

/-- What is written of the entries of a dictionary. -/
structure WrittenEntries (defs : Typedefs) (keyType valueType : StaticType)
    (entries : List (Value × Value)) (bytes : Bytes) : Prop where
  encoded : encodeEntries defs keyType valueType entries = .ok bytes
  reads : ∀ room, Reads
    (Reader.many (readEntry (definitionsFrom defs 0 defs) room (keyType.inline defs)
      (valueType.inline defs)) entries.length)
    bytes (entriesRoom defs keyType valueType entries ≤ room)
    (Value.collapseEntries (Value.conformEntries defs entries))

theorem writtenEntries_nil (keyType valueType : StaticType) :
    WrittenEntries defs keyType valueType [] [] where
  encoded := rfl
  reads _ := (Reads.pure _).of_true (Nat.zero_le _)

theorem exists_writtenEntries_cons (hl : defs.length < 2 ^ 64) {keyType valueType : StaticType}
    {k v : Value} {entries : List (Value × Value)} {kb vb bs : Bytes} (hk : Written defs k kb)
    (hv : Written defs v vb) (hkd : (of k).Defined defs) (hvd : (of v).Defined defs)
    (hkt : keyType = any ∨ keyType = of k) (hvt : valueType = any ∨ valueType = of v)
    (hs : WrittenEntries defs keyType valueType entries bs) :
    ∃ bs, WrittenEntries defs keyType valueType ((k, v) :: entries) bs := by
  obtain ⟨ks, hke, hkr⟩ := exists_declare hl hk hkd hkt
  obtain ⟨vs, hve, hvr⟩ := exists_declare hl hv hvd hvt
  refine ⟨ks ++ kb ++ vs ++ vb ++ bs, ?_, fun room => ?_⟩
  · simp only [encodeEntries, hke, hk.encoded, hve, hv.encoded, hs.encoded, bind, Except.bind, pure,
      Except.pure]
  · rw [List.length_cons, Reader.many, entriesRoom, Value.conformEntries, Value.collapseEntries,
      List.append_assoc (ks ++ kb)]
    refine ((reads_entry (hkr room) (hvr room)).bind ((hs.reads room).finish ?_)).congr ?_
    · exact .pure _
    · rw [Nat.max_le, Nat.max_le]

theorem written_dictionary {entries : List (Value × Value)} {bytes : Bytes}
    (hn : entries.length < 2 ^ 63)
    (h : WrittenEntries defs (common (ofKeys entries)) (common (ofValues entries)) entries bytes) :
    Written defs (.dictionary entries) (arrayHead (2 * entries.length) ++ bytes) where
  encoded := by
    rw [of, encodeValue, h.encoded]; rfl
  nextIsNull rest := by
    rw [arrayHead, List.append_assoc]
    exact Cbor.nextIsNull_head (by omega) (by decide) _
  reads room := by
    cases room with
    | zero => exact .tooDeep _ _ (by simp [valueRoom])
    | succ room =>
      rw [valueRoom, of, StaticType.inline, readValue]
      refine (reads_length _ (by omega)).andThen ?_
      rw [if_neg (by omega), Nat.mul_div_cancel_left _ Nat.two_pos]
      refine ((h.reads room).finish ?_).congr Nat.succ_le_succ_iff.symm
      exact .pure _

/-! ## Composites -/

/-- What is written of the fields of an instance, from their declarations. -/
structure WrittenFields (defs : Typedefs) (declared : List (String × StaticType))
    (fields : List (String × Value)) (bytes : Bytes) : Prop where
  encoded : encodeFields defs (declared.map (·.2)) fields = .ok bytes
  reads : ∀ room, Reads
    (eachOf (readValue (definitionsFrom defs 0 defs) room)
      (declared.map fun (name, t) => (name, t.inline defs)))
    bytes (fieldsRoom defs (declared.map (·.2)) fields ≤ room)
    (Value.collapseFields (Value.conformFields defs (declared.map (·.1)) fields))

theorem writtenFields_nil : WrittenFields defs [] [] [] where
  encoded := rfl
  reads _ := by
    rw [fieldsRoom]
    exact (Reads.pure _).of_true (Nat.zero_le _)

theorem exists_writtenFields_cons (hl : defs.length < 2 ^ 64) {name own : String}
    {type : StaticType} {declared : List (String × StaticType)} {v : Value}
    {fields : List (String × Value)} {bytes bs : Bytes} (h : Written defs v bytes)
    (hd : (of v).Defined defs) (ht : type = any ∨ type = of v)
    (hs : WrittenFields defs declared fields bs) :
    ∃ bs, WrittenFields defs ((name, type) :: declared) ((own, v) :: fields) bs := by
  obtain ⟨start, he, hr⟩ := exists_declare hl h hd ht
  refine ⟨start ++ bytes ++ bs, ?_, fun room => ?_⟩
  · simp only [List.map_cons, encodeFields, he, h.encoded, hs.encoded, bind, Except.bind, pure,
      Except.pure]
  · simp only [List.map_cons, eachOf, fieldsRoom, Value.conformFields, Value.collapseFields]
    refine ((hr room).bind ((hs.reads room).finish ?_)).congr Nat.max_le.symm
    exact .pure _

theorem written_composite {kind : CompositeKind} {id : String} {fields : List (String × Value)}
    {d : Typedef} {bytes : Bytes} (hd : defs.find? id = some d)
    (hf : d.fields.length = fields.length) (hn : fields.length < 2 ^ 64)
    (h : WrittenFields defs d.fields fields bytes) :
    Written defs (.composite kind id fields) (arrayHead fields.length ++ bytes) where
  encoded := by
    rw [encodeValue, hd]
    dsimp only
    rw [if_neg (by simpa using hf), h.encoded]; rfl
  nextIsNull rest := by
    rw [arrayHead, List.append_assoc]
    exact Cbor.nextIsNull_head hn (by decide) _
  reads room := by
    obtain ⟨i, hi, hg⟩ := exists_find?_definitions hd
    cases room with
    | zero => exact .tooDeep _ _ (by simp [valueRoom])
    | succ room =>
      rw [valueRoom, of, hi, readValue, hg, Value.conform, hd]
      dsimp only
      refine (reads_length _ hn).andThen ?_
      rw [if_neg (by simp [definition, hf])]
      refine ((h.reads room).finish ?_).congr Nat.succ_le_succ_iff.symm
      exact .pure _

/-! ## All values -/

mutual

theorem defined_of : (v : Value) → (∀ i ∈ v.instances, Covered defs i) → (of v).Defined defs
  | .present v, h => defined_of v h
  | .array items, h => common_induction trivial (defined_ofItems items h)
  | .dictionary entries, h =>
    ⟨common_induction trivial (defined_ofKeys entries h),
      common_induction trivial (defined_ofValues entries h)⟩
  | .composite .., h => (h _ (.head _)).imp fun _ h => h.1
  | .void, _ | .absent, _ | .bool _, _ | .string _, _ | .character _, _ | .address _, _
  | .number _, _ => trivial

theorem defined_ofItems : (items : List Value) → (∀ i ∈ Value.itemInstances items, Covered defs i) →
    ∀ t ∈ ofItems items, t.Defined defs
  | [], _, _, ht => nomatch ht
  | v :: rest, h, t, ht => by
    rcases List.mem_cons.1 ht with rfl | ht
    · exact defined_of v fun i hi => h i (List.mem_append_left _ hi)
    · exact defined_ofItems rest (fun i hi => h i (List.mem_append_right _ hi)) t ht

theorem defined_ofKeys : (entries : List (Value × Value)) →
    (∀ i ∈ Value.entryInstances entries, Covered defs i) → ∀ t ∈ ofKeys entries, t.Defined defs
  | [], _, _, ht => nomatch ht
  | (k, v) :: rest, h, t, ht => by
    rcases List.mem_cons.1 ht with rfl | ht
    · exact defined_of k fun i hi => h i (by simp [Value.entryInstances, hi])
    · exact defined_ofKeys rest (fun i hi => h i (by simp [Value.entryInstances, hi])) t ht

theorem defined_ofValues : (entries : List (Value × Value)) →
    (∀ i ∈ Value.entryInstances entries, Covered defs i) → ∀ t ∈ ofValues entries, t.Defined defs
  | [], _, _, ht => nomatch ht
  | (k, v) :: rest, h, t, ht => by
    rcases List.mem_cons.1 ht with rfl | ht
    · exact defined_of v fun i hi => h i (by simp [Value.entryInstances, hi])
    · exact defined_ofValues rest (fun i hi => h i (by simp [Value.entryInstances, hi])) t ht

end

mutual

theorem exists_written (hl : defs.length < 2 ^ 64) : (v : Value) →
    (∀ i ∈ v.instances, Fits defs i) → v.LengthsFit → ∃ bytes, Written defs v bytes
  | .void, _, _ => ⟨_, written_void⟩
  | .absent, _, _ => ⟨_, written_absent⟩
  | .present v, h, hf => (exists_written hl v h hf).imp fun _ => written_present
  | .bool b, _, _ => ⟨_, written_bool b⟩
  | .string _, _, hf => ⟨_, written_string hf⟩
  | .character _, _, hf => ⟨_, written_character hf⟩
  | .address a, _, _ => ⟨_, written_address a⟩
  | .number n, _, _ => ⟨_, written_number n⟩
  | .array items, h, ⟨hn, hf⟩ =>
    let ⟨_, hw⟩ := exists_writtenItems hl items common_eq_any_or h hf
    ⟨_, written_array (by omega) hw⟩
  | .dictionary entries, h, ⟨hn, hf⟩ =>
    let ⟨_, hw⟩ := exists_writtenEntries hl entries common_eq_any_or common_eq_any_or h hf
    ⟨_, written_dictionary hn hw⟩
  | .composite kind id fields, h, ⟨_, hn, hf⟩ => by
    obtain ⟨d, hd, hlen, hc⟩ := h _ (.head _)
    rw [Value.length_fieldTypes] at hlen
    obtain ⟨bytes, hw⟩ :=
      exists_writtenFields hl fields d.fields hlen hc (fun i hi => h i (.tail _ hi)) hf
    exact ⟨_, written_composite hd hlen (by omega) hw⟩

theorem exists_writtenItems (hl : defs.length < 2 ^ 64) : (items : List Value) →
    {type : StaticType} → (∀ t ∈ ofItems items, type = any ∨ type = t) →
    (∀ i ∈ Value.itemInstances items, Fits defs i) → Value.ItemsFit items →
    ∃ bytes, WrittenItems defs type items bytes
  | [], type, _, _, _ => ⟨_, writtenItems_nil type⟩
  | v :: rest, type, ht, h, ⟨hv, hr⟩ => by
    have hvi : ∀ i ∈ v.instances, Fits defs i := fun i hi =>
      h i (List.mem_append_left _ hi)
    obtain ⟨_, hw⟩ := exists_written hl v hvi hv
    obtain ⟨_, hs⟩ := exists_writtenItems hl rest (fun t hm => ht t (.tail _ hm))
      (fun i hi => h i (List.mem_append_right _ hi)) hr
    exact exists_writtenItems_cons hl hw (defined_of v fun i hi => (hvi i hi).covered)
      (ht _ (.head _)) hs

theorem exists_writtenEntries (hl : defs.length < 2 ^ 64) : (entries : List (Value × Value)) →
    {keyType valueType : StaticType} →
    (∀ t ∈ ofKeys entries, keyType = any ∨ keyType = t) →
    (∀ t ∈ ofValues entries, valueType = any ∨ valueType = t) →
    (∀ i ∈ Value.entryInstances entries, Fits defs i) → Value.EntriesFit entries →
    ∃ bytes, WrittenEntries defs keyType valueType entries bytes
  | [], keyType, valueType, _, _, _, _ => ⟨_, writtenEntries_nil keyType valueType⟩
  | (k, v) :: rest, _, _, hk, hv, h, ⟨hkf, hvf, hr⟩ => by
    have hki : ∀ i ∈ k.instances, Fits defs i := fun i hi =>
      h i (by simp [Value.entryInstances, hi])
    have hvi : ∀ i ∈ v.instances, Fits defs i := fun i hi =>
      h i (by simp [Value.entryInstances, hi])
    obtain ⟨_, hkw⟩ := exists_written hl k hki hkf
    obtain ⟨_, hvw⟩ := exists_written hl v hvi hvf
    obtain ⟨_, hs⟩ := exists_writtenEntries hl rest (fun t hm => hk t (.tail _ hm))
      (fun t hm => hv t (.tail _ hm)) (fun i hi => h i (by simp [Value.entryInstances, hi])) hr
    exact exists_writtenEntries_cons hl hkw hvw (defined_of k fun i hi => (hki i hi).covered)
      (defined_of v fun i hi => (hvi i hi).covered) (hk _ (.head _)) (hv _ (.head _)) hs

theorem exists_writtenFields (hl : defs.length < 2 ^ 64) : (fields : List (String × Value)) →
    (declared : List (String × StaticType)) → declared.length = fields.length →
    Covers (declared.map (·.2)) ((Typedefs.fieldTypes fields).map (·.2)) →
    (∀ i ∈ Value.fieldInstances fields, Fits defs i) → Value.FieldsFit fields →
    ∃ bytes, WrittenFields defs declared fields bytes
  | [], [], _, _, _, _ => ⟨_, writtenFields_nil⟩
  | (_, v) :: rest, (_, _) :: declared, hn, ⟨ht, hc⟩, h, ⟨_, hv, hr⟩ => by
    have hvi : ∀ i ∈ v.instances, Fits defs i := fun i hi =>
      h i (List.mem_append_left _ hi)
    obtain ⟨_, hw⟩ := exists_written hl v hvi hv
    obtain ⟨_, hs⟩ := exists_writtenFields hl rest declared (Nat.succ.inj hn) hc
      (fun i hi => h i (List.mem_append_right _ hi)) hr
    exact exists_writtenFields_cons hl hw (defined_of v fun i hi => (hvi i hi).covered) ht hs

end

end FlowAccess.Cadence.Ccf
