import FlowAccess.Proofs.Ccf.Values
import Mathlib.Data.List.Forall2
import Mathlib.Data.List.Nodup

/-!
# Names of types

The type that is reported for a value (`Value.typeId`) and the type that a compact message declares
for it (`StaticType.of`) are inferred side by side, one from names and one from types, and the name
is that of the type (`typeId_eq_render`). They agree because no two types have one name, as long as
the identifiers of composite types stay clear of the names of the other types and of the marks that
names are put together with (`render_inj`): what stands before the first colon outside of braces is
the type of the keys.
-/

namespace FlowAccess.Cadence

namespace Ccf

/-! ## Words -/

/-- The marks that the names of types are put together with. -/
def marks : List Char := ['?', '[', ']', '\x7b', '\x7d', ':', ' ']

/-- No mark is in the text. -/
def Word (cs : List Char) : Prop := ∀ c ∈ cs, c ∉ marks

instance (cs : List Char) : Decidable (Word cs) :=
  decidable_of_iff (cs.all (· ∉ marks) = true) (by simp [Word])

/-- The identifier of a composite type has a point, and no marks. -/
structure QualifiedId (id : String) : Prop where
  point : '.' ∈ id.toList
  word : Word id.toList

namespace SimpleType

theorem mem_all (t : SimpleType) : t ∈ all := by
  cases t with
  | number k => cases k <;> decide
  | _ => decide

theorem word_name (t : SimpleType) : Word t.name.toList ∧ '.' ∉ t.name.toList := by
  have h : ∀ t ∈ all, Word t.name.toList ∧ '.' ∉ t.name.toList := by decide
  exact h t (mem_all t)

theorem name_inj {s t : SimpleType} (h : s.name = t.name) : s = t := by
  have hn : (all.map name).Nodup := by decide
  exact List.inj_on_of_nodup_map hn (mem_all s) (mem_all t) h

end SimpleType

/-! ## Types -/

namespace StaticType

/-- The identifiers of all composite types in a type are qualified. -/
def Qualified : StaticType → Prop
  | .simple _ => True
  | .optional t | .array t => Qualified t
  | .dictionary k v => Qualified k ∧ Qualified v
  | .composite id => QualifiedId id

/-- The text of a type. -/
def chars (t : StaticType) : List Char := t.render.toList

@[simp] theorem chars_optional (t : StaticType) : chars (.optional t) = t.chars ++ ['?'] := by
  simp [chars, render]

@[simp] theorem chars_array (t : StaticType) : chars (.array t) = '[' :: t.chars ++ [']'] := by
  simp [chars, render]

@[simp] theorem chars_dictionary (k v : StaticType) :
    chars (.dictionary k v) = '\x7b' :: k.chars ++ ':' :: ' ' :: v.chars ++ ['\x7d'] := by
  simp [chars, render]

/-- What stands before the first colon outside of braces, so many of which are open. -/
def beforeColon : ℕ → List Char → List Char
  | _, [] => []
  | depth, c :: cs =>
    if c = ':' ∧ depth = 0 then []
    else c :: beforeColon
      (if c = '\x7b' then depth + 1 else if c = '\x7d' then depth - 1 else depth) cs

theorem beforeColon_word {cs : List Char} (h : Word cs) (depth : ℕ) (rest : List Char) :
    beforeColon depth (cs ++ rest) = cs ++ beforeColon depth rest := by
  induction cs with
  | nil => rfl
  | cons c cs ih =>
    obtain ⟨hc, hcs⟩ := List.forall_mem_cons.1 h
    have hne (d : Char) (hd : d ∈ marks) : c ≠ d := fun hcd => hc (hcd ▸ hd)
    rw [List.cons_append, beforeColon, if_neg fun h => hne ':' (by decide) h.1,
      if_neg (hne '\x7b' (by decide)), if_neg (hne '\x7d' (by decide)), ih hcs, List.cons_append]

/-- A type has no colon outside of its braces, all of which it closes. -/
theorem beforeColon_chars {t : StaticType} (h : t.Qualified) (depth : ℕ) (rest : List Char) :
    beforeColon depth (t.chars ++ rest) = t.chars ++ beforeColon depth rest := by
  induction t generalizing depth rest with
  | simple t => exact beforeColon_word t.word_name.1 depth rest
  | composite id => exact beforeColon_word h.word depth rest
  | optional t ih => simp [ih h, beforeColon]
  | array t ih => simp [ih h, beforeColon]
  | dictionary k v ihk ihv => simp [ihk h.1, ihv h.2, beforeColon]

/-- The mark at the end of a type with parts. -/
def closing : StaticType → Option Char
  | .simple _ | .composite _ => none
  | .optional _ => some '?'
  | .array _ => some ']'
  | .dictionary _ _ => some '\x7d'

theorem word_of_closing {t : StaticType} (h : t.Qualified) (hc : t.closing = none) :
    Word t.chars := by
  cases t with
  | simple t => exact t.word_name.1
  | composite id => exact h.word
  | optional | array | dictionary => cases hc

theorem getLast?_of_closing {t : StaticType} {c : Char} (hc : t.closing = some c) :
    t.chars.getLast? = some c ∧ c ∈ marks := by
  cases t with
  | simple | composite => cases hc
  | optional t =>
    cases hc
    exact ⟨by rw [chars_optional, List.getLast?_concat], by decide⟩
  | array t =>
    cases hc
    exact ⟨by rw [chars_array, List.getLast?_concat], by decide⟩
  | dictionary k v =>
    cases hc
    exact ⟨by rw [chars_dictionary, List.getLast?_concat], by decide⟩

theorem closing_eq {s t : StaticType} (hs : s.Qualified) (ht : t.Qualified)
    (h : s.chars = t.chars) : s.closing = t.closing := by
  have hword {s t : StaticType} (hs : s.Qualified) (h : s.chars = t.chars)
      (hn : s.closing = none) : t.closing = none := by
    cases hc : t.closing with
    | none => rfl
    | some c =>
      obtain ⟨hl, hm⟩ := getLast?_of_closing hc
      exact absurd hm (word_of_closing hs hn c (h ▸ List.mem_of_getLast? hl))
  cases hc : s.closing with
  | none => exact (hword hs h hc).symm
  | some c =>
    cases hd : t.closing with
    | none =>
      rw [hword ht h.symm hd] at hc
      cases hc
    | some d =>
      have := (getLast?_of_closing hc).1
      rw [h, (getLast?_of_closing hd).1] at this
      exact this.symm

/-- The point of a composite type is in no other name. -/
theorem chars_simple_ne {t : SimpleType} {id : String} (h : QualifiedId id) :
    t.name.toList ≠ id.toList := fun heq => t.word_name.2 (heq ▸ h.point)

/-- The types of the keys and of the values of a dictionary type. -/
theorem chars_pair_inj {k l v w : StaticType} (hk : k.Qualified) (hl : l.Qualified)
    (h : k.chars ++ ':' :: ' ' :: v.chars = l.chars ++ ':' :: ' ' :: w.chars) :
    k.chars = l.chars ∧ v.chars = w.chars := by
  have hbefore {k : StaticType} (hk : k.Qualified) (cs : List Char) :
      beforeColon 0 (k.chars ++ ':' :: cs) = k.chars := by
    rw [beforeColon_chars hk, beforeColon, if_pos ⟨rfl, rfl⟩, List.append_nil]
  have hkl : k.chars = l.chars := by
    rw [← hbefore hk (' ' :: v.chars), h, hbefore hl]
  rw [hkl] at h
  have h := List.append_cancel_left h
  exact ⟨hkl, List.cons_inj_right _ |>.1 (List.cons_inj_right _ |>.1 h)⟩

/-- No two types have the same name. -/
theorem chars_inj {s t : StaticType} (hs : s.Qualified) (ht : t.Qualified)
    (h : s.chars = t.chars) : s = t := by
  have hc := closing_eq hs ht h
  induction s generalizing t with
  | simple a =>
    cases t with
    | simple b => exact congrArg simple (SimpleType.name_inj (String.toList_inj.1 h))
    | composite id => exact absurd h (chars_simple_ne ht)
    | optional | array | dictionary => cases hc
  | composite id =>
    cases t with
    | simple b => exact absurd h.symm (chars_simple_ne hs)
    | composite id' => exact congrArg composite (String.toList_inj.1 h)
    | optional | array | dictionary => cases hc
  | optional s ih =>
    cases t with
    | optional t =>
      rw [chars_optional, chars_optional] at h
      have h := List.append_cancel_right h
      exact congrArg optional (ih hs ht h (closing_eq hs ht h))
    | simple | composite | array | dictionary => cases hc
  | array s ih =>
    cases t with
    | array t =>
      rw [chars_array, chars_array] at h
      have h := (List.cons.inj (List.append_cancel_right h)).2
      exact congrArg array (ih hs ht h (closing_eq hs ht h))
    | simple | composite | optional | dictionary => cases hc
  | dictionary k v ihk ihv =>
    cases t with
    | dictionary l w =>
      rw [chars_dictionary, chars_dictionary] at h
      obtain ⟨hk, hv⟩ := chars_pair_inj hs.1 ht.1 (List.cons.inj (List.append_cancel_right h)).2
      obtain rfl := ihk hs.1 ht.1 hk (closing_eq hs.1 ht.1 hk)
      obtain rfl := ihv hs.2 ht.2 hv (closing_eq hs.2 ht.2 hv)
      rfl
    | simple | composite | optional | array => cases hc

/-- Types of the same name are the same. -/
theorem render_inj {s t : StaticType} (hs : s.Qualified) (ht : t.Qualified)
    (h : s.render = t.render) : s = t :=
  chars_inj hs ht (congrArg String.toList h)

end StaticType

/-! ## Inference -/

/-- The name of a type that is qualified. -/
structure Named (id : String) (t : StaticType) : Prop where
  qualified : t.Qualified
  eq_render : id = t.render

namespace Named

variable {id jd : String} {s t : StaticType} {ids : List String} {types : List StaticType}

theorem eq_iff (hs : Named id s) (ht : Named jd t) : id = jd ↔ s = t := by
  rw [hs.eq_render, ht.eq_render]
  exact ⟨StaticType.render_inj hs.qualified ht.qualified, congrArg StaticType.render⟩

theorem any : Named Value.anyStruct StaticType.any := ⟨trivial, rfl⟩

theorem optional (h : Named id t) : Named (id ++ "?") (.optional t) where
  qualified := h.qualified
  eq_render := by rw [h.eq_render, StaticType.render]

theorem array (h : Named id t) : Named ("[" ++ id ++ "]") (.array t) where
  qualified := h.qualified
  eq_render := by rw [h.eq_render, StaticType.render]

theorem dictionary (hs : Named id s) (ht : Named jd t) :
    Named ("\x7b" ++ id ++ ": " ++ jd ++ "\x7d") (.dictionary s t) where
  qualified := ⟨hs.qualified, ht.qualified⟩
  eq_render := by rw [hs.eq_render, ht.eq_render, StaticType.render]

theorem all_eq (h : Named id t) (hs : List.Forall₂ Named ids types) :
    ids.all (· = id) = types.all (· = t) := by
  induction hs with
  | nil => rfl
  | cons hj _ ih => rw [List.all_cons, List.all_cons, ih, decide_eq_decide.2 (hj.eq_iff h)]

/-- The names of the parts have something in common if their types have. -/
theorem common (hs : List.Forall₂ Named ids types) :
    Named ((Value.common? ids).getD Value.anyStruct)
      ((Value.common? types).getD StaticType.any) := by
  cases hs with
  | nil => exact .any
  | cons h hs =>
    rw [Value.common?, Value.common?, all_eq h hs]
    split
    · exact h
    · exact .any

end Named

/-! ## Values -/

end Ccf

namespace Value
open Ccf

/-- The identifiers of all instances in a value are qualified. -/
def Qualified (v : Value) : Prop := ∀ i ∈ v.instances, QualifiedId i.typeId

theorem inherited_qualified : Inherited Qualified :=
  inherited_forall_instances fun i => QualifiedId i.typeId

mutual

/-- The name that is reported is that of the type that is declared. -/
theorem named_of : (v : Value) → v.Qualified → Named v.typeId (StaticType.of v)
  | .present v, h => (named_of v (inherited_qualified.present h)).optional
  | .array items, h => (Named.common (named_ofItems items (inherited_qualified.array h))).array
  | .dictionary entries, h =>
    have hentries := inherited_qualified.dictionary h
    (Named.common (named_ofKeys entries fun e he => (hentries e he).1)).dictionary
      (Named.common (named_ofValues entries fun e he => (hentries e he).2))
  | .composite _ _ _, h => ⟨h _ (.head _), rfl⟩
  | .void, _ | .absent, _ | .bool _, _ | .string _, _ | .character _, _ | .address _, _
  | .number _, _ => ⟨trivial, rfl⟩

theorem named_ofItems : (items : List Value) → (∀ v ∈ items, v.Qualified) →
    List.Forall₂ Named (typeIds items) (StaticType.ofItems items)
  | [], _ => .nil
  | v :: rest, h =>
    .cons (named_of v (h v (.head _))) (named_ofItems rest fun w hw => h w (.tail _ hw))

theorem named_ofKeys : (entries : List (Value × Value)) → (∀ e ∈ entries, e.1.Qualified) →
    List.Forall₂ Named (keyTypeIds entries) (StaticType.ofKeys entries)
  | [], _ => .nil
  | (k, v) :: rest, h =>
    .cons (named_of k (h (k, v) (.head _))) (named_ofKeys rest fun e he => h e (.tail _ he))

theorem named_ofValues : (entries : List (Value × Value)) → (∀ e ∈ entries, e.2.Qualified) →
    List.Forall₂ Named (valueTypeIds entries) (StaticType.ofValues entries)
  | [], _ => .nil
  | (k, v) :: rest, h =>
    .cons (named_of v (h (k, v) (.head _))) (named_ofValues rest fun e he => h e (.tail _ he))

end

end Value

namespace Ccf

open StaticType

/-! ## Elements -/

variable {defs : Typedefs} {items : List Value}

/-- A value with its own type before it, as it stands where its type is not declared. -/
def encodeTyped (defs : Typedefs) (v : Value) : Except Error Bytes := do
  let type ← encodeType defs (of v)
  let value ← encodeValue defs (of v) v
  return tagHead Tag.typedValue ++ arrayHead 2 ++ type ++ value

/-- A value where some type is declared. -/
def encodeDeclared (defs : Typedefs) (declared : StaticType) (v : Value) : Except Error Bytes := do
  let (start, type) ← declare defs declared v
  return start ++ (← encodeValue defs type v)

theorem encodeDeclared_any (v : Value) : encodeDeclared defs any v = encodeTyped defs v := by
  simp [encodeDeclared, declare, encodeTyped]
  rfl

theorem encodeDeclared_of (v : Value) :
    encodeDeclared defs (of v) v = encodeValue defs (of v) v := by
  rw [encodeDeclared, declare_of]
  exact bind_pure (encodeValue defs (of v) v)

/-- Elements are written one after another. -/
theorem encodeItems_eq {declared : StaticType} {write : Value → Except Error Bytes}
    (h : ∀ v ∈ items, encodeDeclared defs declared v = write v) :
    encodeItems defs declared items = List.flatten <$> items.mapM write := by
  induction items with
  | nil => rfl
  | cons v rest ih =>
    obtain ⟨hv, hrest⟩ := List.forall_mem_cons.1 h
    simp [encodeItems, ih hrest, ← hv, encodeDeclared]

theorem of_mem_ofItems {v : Value} (h : v ∈ items) : of v ∈ ofItems items := by
  induction items with
  | nil => cases h
  | cons w rest ih =>
    rcases List.mem_cons.1 h with rfl | h
    · exact .head _
    · exact .tail _ (ih h)

/-- Elements of a common type are written as they are, and others with their types before them. -/
theorem encodeItems_common (defs : Typedefs) (items : List Value) :
    encodeItems defs (common (ofItems items)) items = List.flatten <$> items.mapM fun v =>
      if common (ofItems items) = any then encodeTyped defs v else encodeValue defs (of v) v := by
  refine encodeItems_eq fun v hv => ?_
  by_cases hany : common (ofItems items) = any
  · rw [if_pos hany, hany, encodeDeclared_any]
  · have ht := (common_eq_any_or (of v) (of_mem_ofItems hv)).resolve_left hany
    rw [if_neg hany, ht, encodeDeclared_of]

/-- The name of the type of a value is that of the type that is declared for it, so that values
have one name if they have one type. An array is named for `AnyStruct` if that is declared for its
elements, and then each of them is written with its own type before it. -/
theorem typeId_eq_render {v : Value} (h : v.Qualified) :
    v.typeId = (of v).render ∧
    (∀ w : Value, w.Qualified → (v.typeId = w.typeId ↔ of v = of w)) ∧
    ∀ items, v = .array items → (v.typeId = "[AnyStruct]" ↔ of v = .array any) ∧
      ∀ defs, encodeValue defs (of v) v =
        (fun parts => arrayHead items.length ++ parts.flatten) <$> items.mapM fun w =>
          if v.typeId = "[AnyStruct]" then encodeTyped defs w else encodeValue defs (of w) w := by
  have hv := Value.named_of v h
  refine ⟨hv.eq_render, fun w hw => hv.eq_iff (Value.named_of w hw), fun items hitems => ?_⟩
  subst hitems
  have hany : (Value.array items).typeId = "[AnyStruct]" ↔ common (ofItems items) = any :=
    (hv.eq_iff Named.any.array).trans ⟨StaticType.array.inj, congrArg StaticType.array⟩
  refine ⟨hv.eq_iff Named.any.array, fun defs => ?_⟩
  simp only [hany, of, encodeValue, encodeItems_common, bind_map_left]
  rfl

/-- An array of a composite value and of an optional is named for `AnyStruct`, as is declared for
it. Without the optional it is named for the composite type. -/
theorem typeId_eq_render_composite :
    let deposited := Value.composite .event "A.0000000000000001.Token.Deposited" []
    (Value.array [deposited]).typeId = (of (.array [deposited])).render ∧
      of (.array [deposited, .present .void]) = .array any ∧
      (Value.array [deposited]).typeId ≠ (Value.array [deposited, .present .void]).typeId := by
  intro deposited
  have hid : QualifiedId "A.0000000000000001.Token.Deposited" := ⟨by decide, by decide⟩
  have hone : (Value.array [deposited]).Qualified := by
    intro i hi
    cases List.mem_singleton.1 hi
    exact hid
  have htwo : (Value.array [deposited, .present .void]).Qualified := by
    intro i hi
    cases List.mem_singleton.1 hi
    exact hid
  obtain ⟨hr, heq, -⟩ := typeId_eq_render hone
  obtain ⟨-, -, harray⟩ := typeId_eq_render htwo
  refine ⟨hr, (harray _ rfl).1.1 (by decide), fun h => ?_⟩
  exact absurd ((heq _ htwo).1 h) (by decide)

end Ccf
end FlowAccess.Cadence
