import FlowAccess.Cadence.Ccf.StaticType
import FlowAccess.Proofs.Value

/-!
# Instances and their definitions

A composite value is an instance of its type. The definitions of a message are folded from the
instances of its value (`Typedefs.collect_eq_foldl`), each of which is taken for a definition of its
own: the first instance of a type sets the kind, the names and the number of the fields
(`exists_instance_of_mem_collect`), and every instance finds its own field types under its
definition, or `AnyStruct` in their place (`exists_typedef_of_mem_instances`).
-/

namespace FlowAccess.Cadence

namespace Ccf.Typedef

def names (d : Typedef) : List String := d.fields.map (·.1)

def types (d : Typedef) : List StaticType := d.fields.map (·.2)

/-- What a definition says of its type apart from the types of the fields. -/
def heading (d : Typedef) : CompositeKind × String × List String := (d.kind, d.typeId, d.names)

end Ccf.Typedef

namespace Value
open Ccf

/-! ## Instances -/

mutual

/-- The instances in a value, outer ones first, each as the definition it would have by itself. -/
def instances : Value → List Typedef
  | .present v => instances v
  | .array items => itemInstances items
  | .dictionary entries => entryInstances entries
  | .composite kind id fields => ⟨kind, id, Typedefs.fieldTypes fields⟩ :: fieldInstances fields
  | _ => []

def itemInstances : List Value → List Typedef
  | [] => []
  | v :: rest => instances v ++ itemInstances rest

def entryInstances : List (Value × Value) → List Typedef
  | [] => []
  | (k, v) :: rest => instances k ++ (instances v ++ entryInstances rest)

def fieldInstances : List (String × Value) → List Typedef
  | [] => []
  | (_, v) :: rest => instances v ++ fieldInstances rest

end

theorem names_fieldTypes (kind : CompositeKind) (id : String) (fields : List (String × Value)) :
    Typedef.names ⟨kind, id, Typedefs.fieldTypes fields⟩ = fields.map (·.1) := by
  induction fields with
  | nil => rfl
  | cons f rest ih => exact congrArg (f.1 :: ·) ih

theorem length_fieldTypes (fields : List (String × Value)) :
    (Typedefs.fieldTypes fields).length = fields.length := by
  induction fields with
  | nil => rfl
  | cons f rest ih => exact congrArg (· + 1) ih

section
variable {i : Typedef}

theorem mem_itemInstances {v : Value} {items : List Value} (h : v ∈ items)
    (hi : i ∈ v.instances) : i ∈ itemInstances items := by
  induction items with
  | nil => cases h
  | cons w rest ih =>
    rcases List.mem_cons.1 h with rfl | h
    · exact List.mem_append_left _ hi
    · exact List.mem_append_right _ (ih h)

theorem mem_entryInstances {e : Value × Value} {entries : List (Value × Value)} (h : e ∈ entries)
    (hi : i ∈ e.1.instances ∨ i ∈ e.2.instances) : i ∈ entryInstances entries := by
  induction entries with
  | nil => cases h
  | cons w rest ih =>
    rw [entryInstances, ← List.append_assoc]
    rcases List.mem_cons.1 h with rfl | h
    · exact List.mem_append_left _ (List.mem_append.2 hi)
    · exact List.mem_append_right _ (ih h)

theorem mem_fieldInstances {f : String × Value} {fields : List (String × Value)} (h : f ∈ fields)
    (hi : i ∈ f.2.instances) : i ∈ fieldInstances fields := by
  induction fields with
  | nil => cases h
  | cons w rest ih =>
    rcases List.mem_cons.1 h with rfl | h
    · exact List.mem_append_left _ hi
    · exact List.mem_append_right _ (ih h)

end

theorem inherited_forall_instances (p : Typedef → Prop) :
    Inherited fun v => ∀ i ∈ v.instances, p i where
  present h := h
  array h _ hv i hi := h i (mem_itemInstances hv hi)
  dictionary h _ he :=
    ⟨fun i hi => h i (mem_entryInstances he (.inl hi)),
      fun i hi => h i (mem_entryInstances he (.inr hi))⟩
  composite h _ hf i hi := h i (.tail _ (mem_fieldInstances hf hi))

section
variable {p : Typedef → Prop} {q : Value → Prop}

mutual

/-- To show something of all instances in a value, it is enough to show it of a composite value,
from what a value hands down to its parts. -/
theorem Inherited.forall_instances (hq : Inherited q)
    (hp : ∀ kind id fields, q (.composite kind id fields) →
      p ⟨kind, id, Typedefs.fieldTypes fields⟩) : (v : Value) → q v → ∀ i ∈ v.instances, p i
  | .present v, h, i, hi => hq.forall_instances hp v (hq.present h) i hi
  | .array items, h, i, hi => hq.forall_itemInstances hp items (hq.array h) i hi
  | .dictionary entries, h, i, hi => hq.forall_entryInstances hp entries (hq.dictionary h) i hi
  | .composite kind id fields, h, i, hi => by
    rcases List.mem_cons.1 hi with rfl | hi
    · exact hp kind id fields h
    · exact hq.forall_fieldInstances hp fields (hq.composite h) i hi
  | .void, _, _, hi | .absent, _, _, hi | .bool _, _, _, hi | .string _, _, _, hi
  | .character _, _, _, hi | .address _, _, _, hi | .number _, _, _, hi => nomatch hi

theorem Inherited.forall_itemInstances (hq : Inherited q)
    (hp : ∀ kind id fields, q (.composite kind id fields) →
      p ⟨kind, id, Typedefs.fieldTypes fields⟩) :
    (items : List Value) → (∀ v ∈ items, q v) → ∀ i ∈ itemInstances items, p i
  | [], _, _, hi => nomatch hi
  | v :: rest, h, i, hi => by
    rcases List.mem_append.1 hi with hi | hi
    · exact hq.forall_instances hp v (h v (.head _)) i hi
    · exact hq.forall_itemInstances hp rest (fun w hw => h w (.tail _ hw)) i hi

theorem Inherited.forall_entryInstances (hq : Inherited q)
    (hp : ∀ kind id fields, q (.composite kind id fields) →
      p ⟨kind, id, Typedefs.fieldTypes fields⟩) :
    (entries : List (Value × Value)) → (∀ e ∈ entries, q e.1 ∧ q e.2) →
    ∀ i ∈ entryInstances entries, p i
  | [], _, _, hi => nomatch hi
  | (k, v) :: rest, h, i, hi => by
    obtain ⟨hk, hv⟩ := h (k, v) (.head _)
    rcases List.mem_append.1 hi with hi | hi
    · exact hq.forall_instances hp k hk i hi
    rcases List.mem_append.1 hi with hi | hi
    · exact hq.forall_instances hp v hv i hi
    · exact hq.forall_entryInstances hp rest (fun e he => h e (.tail _ he)) i hi

theorem Inherited.forall_fieldInstances (hq : Inherited q)
    (hp : ∀ kind id fields, q (.composite kind id fields) →
      p ⟨kind, id, Typedefs.fieldTypes fields⟩) :
    (fields : List (String × Value)) → (∀ f ∈ fields, q f.2) → ∀ i ∈ fieldInstances fields, p i
  | [], _, _, hi => nomatch hi
  | (name, v) :: rest, h, i, hi => by
    rcases List.mem_append.1 hi with hi | hi
    · exact hq.forall_instances hp v (h (name, v) (.head _)) i hi
    · exact hq.forall_fieldInstances hp rest (fun f hf => h f (.tail _ hf)) i hi

end
end
end Value

/-! ## Collecting -/

namespace Ccf

/-- The types of a definition take in those of an instance: each is the same or any. -/
def Covers : List StaticType → List StaticType → Prop
  | t :: ts, u :: us => (t = StaticType.any ∨ t = u) ∧ Covers ts us
  | _, _ => True

theorem Covers.refl : (ts : List StaticType) → Covers ts ts
  | [] => trivial
  | _ :: ts => ⟨.inr rfl, .refl ts⟩

theorem Covers.trans : {ts us vs : List StaticType} → us.length = ts.length →
    Covers ts us → Covers us vs → Covers ts vs
  | [], _, _, _, _, _ => trivial
  | _ :: _, [], _, h, _, _ => by simp at h
  | _ :: _, _ :: _, [], _, _, _ => trivial
  | _ :: _, _ :: _, _ :: _, h, ⟨htu, hts⟩, ⟨huv, hus⟩ => by
    refine ⟨?_, hts.trans (by simpa using h) hus⟩
    rcases htu with rfl | rfl
    · exact .inl rfl
    · exact huv

namespace Typedefs

theorem widen_names (fields : List (String × StaticType)) (seen : List StaticType) :
    (widen fields seen).map (·.1) = fields.map (·.1) := by
  fun_induction widen fields seen <;> simp_all

theorem covers_widen_known (fields : List (String × StaticType)) (seen : List StaticType) :
    Covers ((widen fields seen).map (·.2)) (fields.map (·.2)) := by
  fun_induction widen fields seen with
  | case1 name known rest t types ih =>
    refine ⟨?_, ih⟩
    split
    · exact .inr rfl
    · exact .inl rfl
  | case2 => exact .refl _

theorem covers_widen_seen (fields : List (String × StaticType)) (seen : List StaticType) :
    Covers ((widen fields seen).map (·.2)) seen := by
  fun_induction widen fields seen with
  | case1 name known rest t types ih =>
    refine ⟨?_, ih⟩
    split
    · exact .inr ‹_›
    · exact .inl rfl
  | case2 fields seen h =>
    cases fields <;> cases seen <;> first | trivial | exact (h _ _ _ _ _ rfl rfl).elim

/-! ### One instance -/

/-- Takes in an instance. -/
def take (defs : Typedefs) (i : Typedef) : Typedefs := add i.kind i.typeId i.fields defs

theorem find?_cons (d : Typedef) (defs : Typedefs) (id : String) :
    find? (d :: defs) id = if d.typeId = id then some d else find? defs id := by
  simp only [find?, List.find?_cons]
  split <;> simp_all

theorem mem_of_find? {defs : Typedefs} {id : String} {d : Typedef} (h : find? defs id = some d) :
    d ∈ defs := List.mem_of_find?_eq_some h

theorem typeId_of_find? {defs : Typedefs} {id : String} {d : Typedef} (h : find? defs id = some d) :
    d.typeId = id := by simpa using List.find?_some h

/-- The definition of a type after one more instance of it. -/
def absorb (i : Typedef) : Option Typedef → Typedef
  | some d => { d with fields := widen d.fields i.types }
  | none => i

theorem find?_take (defs : Typedefs) (i : Typedef) (id : String) :
    find? (take defs i) id =
      if i.typeId = id then some (absorb i (find? defs id)) else find? defs id := by
  induction defs with
  | nil => rw [take, add, find?_cons]; rfl
  | cons d rest ih =>
    simp only [take, add] at ih ⊢
    by_cases hd : d.typeId = i.typeId
    · rw [if_pos hd, find?_cons, find?_cons]
      dsimp only
      by_cases h : i.typeId = id
      · rw [if_pos h, if_pos (hd.trans h), if_pos (hd.trans h)]; rfl
      · rw [if_neg h, if_neg (hd ▸ h), if_neg (hd ▸ h)]
    · rw [if_neg hd, find?_cons, find?_cons, ih]
      by_cases h : d.typeId = id
      · rw [if_pos h, if_pos h, if_neg fun hi => hd (h.trans hi.symm)]
      · rw [if_neg h, if_neg h]

theorem mem_take {defs : Typedefs} {i d : Typedef} (h : d ∈ take defs i) :
    d = i ∨ ∃ c ∈ defs, d = c ∨ d = absorb i (some c) := by
  induction defs with
  | nil => exact .inl (List.mem_singleton.1 h)
  | cons c rest ih =>
    simp only [take, add] at h ih
    split at h
    · rcases List.mem_cons.1 h with rfl | h
      · exact .inr ⟨c, .head _, .inr rfl⟩
      · exact .inr ⟨d, .tail _ h, .inl rfl⟩
    · rcases List.mem_cons.1 h with rfl | h
      · exact .inr ⟨d, .head _, .inl rfl⟩
      · obtain h | ⟨c', hc, h⟩ := ih h
        · exact .inl h
        · exact .inr ⟨c', .tail _ hc, h⟩

end Typedefs

/-- The definition `e` is `d` with the types of some fields widened. -/
structure Widens (d e : Typedef) : Prop where
  heading : e.heading = d.heading
  types : Covers e.types d.types

namespace Widens

theorem refl (d : Typedef) : Widens d d := ⟨rfl, .refl _⟩

theorem length_eq {d e : Typedef} (h : Widens d e) : e.types.length = d.types.length := by
  have := congrArg (fun h : CompositeKind × String × List String => h.2.2.length) h.heading
  simpa [Typedef.heading, Typedef.names, Typedef.types] using this

theorem trans {c d e : Typedef} (h : Widens c d) (h' : Widens d e) : Widens c e :=
  ⟨h'.heading.trans h.heading, h'.types.trans h'.length_eq.symm h.types⟩

theorem absorb (d i : Typedef) : Widens d (Typedefs.absorb i (some d)) where
  heading := by
    show (_, _, _) = (_, _, _)
    rw [Typedef.names, Typedefs.absorb, Typedefs.widen_names]; rfl
  types := Typedefs.covers_widen_known ..

end Widens

namespace Typedefs

/-! ### A list of instances -/

theorem exists_find?_foldl {defs : Typedefs} {id : String} {d : Typedef}
    (h : find? defs id = some d) (is : List Typedef) :
    ∃ e, find? (is.foldl take defs) id = some e ∧ Widens d e := by
  induction is generalizing defs d with
  | nil => exact ⟨d, h, .refl d⟩
  | cons i is ih =>
    have ht := find?_take defs i id
    rw [h] at ht
    split at ht
    · obtain ⟨e, he, hw⟩ := ih ht
      exact ⟨e, he, (Widens.absorb d i).trans hw⟩
    · exact ih ht

theorem covers_absorb (i : Typedef) (d : Option Typedef) : Covers (absorb i d).types i.types := by
  cases d with
  | none => exact .refl _
  | some d => exact covers_widen_seen ..

theorem exists_find?_of_mem {i : Typedef} {is : List Typedef} (h : i ∈ is) (defs : Typedefs) :
    ∃ e, find? (is.foldl take defs) i.typeId = some e ∧ Covers e.types i.types := by
  induction is generalizing defs with
  | nil => cases h
  | cons j is ih =>
    rcases List.mem_cons.1 h with rfl | h
    · have ht := find?_take defs i i.typeId
      rw [if_pos rfl] at ht
      obtain ⟨e, he, hw⟩ := exists_find?_foldl ht is
      exact ⟨e, he, hw.types.trans hw.length_eq.symm (covers_absorb ..)⟩
    · exact ih h _

theorem exists_widens_of_mem {d : Typedef} {is : List Typedef} {defs : Typedefs}
    (h : d ∈ is.foldl take defs) : ∃ c ∈ defs ++ is, Widens c d := by
  induction is generalizing defs with
  | nil => exact ⟨d, by simpa using h, .refl d⟩
  | cons i is ih =>
    obtain ⟨c, hc, hw⟩ := ih h
    rcases List.mem_append.1 hc with hc | hc
    · rcases mem_take hc with rfl | ⟨b, hb, rfl | rfl⟩
      · exact ⟨c, by simp, hw⟩
      · exact ⟨c, by simp [hb], hw⟩
      · exact ⟨b, by simp [hb], (Widens.absorb b i).trans hw⟩
    · exact ⟨c, by simp [hc], hw⟩

/-! ### A value -/

mutual

theorem collect_eq_foldl :
    (v : Value) → (defs : Typedefs) → collect defs v = v.instances.foldl take defs
  | .present v, defs => collect_eq_foldl v defs
  | .array items, defs => collectItems_eq_foldl items defs
  | .dictionary entries, defs => collectEntries_eq_foldl entries defs
  | .composite _ _ fields, _ => collectFields_eq_foldl fields _
  | .void, _ | .absent, _ | .bool _, _ | .string _, _ | .character _, _ | .address _, _
  | .number _, _ => rfl

theorem collectItems_eq_foldl : (items : List Value) → (defs : Typedefs) →
    collectItems defs items = (Value.itemInstances items).foldl take defs
  | [], _ => rfl
  | v :: rest, defs => by
    rw [collectItems, Value.itemInstances, List.foldl_append, collect_eq_foldl v,
      collectItems_eq_foldl rest]

theorem collectEntries_eq_foldl : (entries : List (Value × Value)) → (defs : Typedefs) →
    collectEntries defs entries = (Value.entryInstances entries).foldl take defs
  | [], _ => rfl
  | (k, v) :: rest, defs => by
    rw [collectEntries, Value.entryInstances, List.foldl_append, List.foldl_append,
      collect_eq_foldl k, collect_eq_foldl v, collectEntries_eq_foldl rest]

theorem collectFields_eq_foldl : (fields : List (String × Value)) → (defs : Typedefs) →
    collectFields defs fields = (Value.fieldInstances fields).foldl take defs
  | [], _ => rfl
  | (_, v) :: rest, defs => by
    rw [collectFields, Value.fieldInstances, List.foldl_append, collect_eq_foldl v,
      collectFields_eq_foldl rest]

end

theorem exists_typedef_of_mem_instances {v : Value} {i : Typedef} (h : i ∈ v.instances) :
    ∃ d, find? (collect [] v) i.typeId = some d ∧ Covers d.types i.types :=
  collect_eq_foldl v [] ▸ exists_find?_of_mem h []

theorem exists_instance_of_mem_collect {v : Value} {d : Typedef} (h : d ∈ collect [] v) :
    ∃ i ∈ v.instances, Widens i d :=
  exists_widens_of_mem (collect_eq_foldl v [] ▸ h)

end Typedefs
end Ccf

end FlowAccess.Cadence
