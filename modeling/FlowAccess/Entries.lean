/-!
# Entries by name

Lists of entries in ascending order of their names, each name once.
-/

namespace FlowAccess.Entries

variable {α : Type}

/-- Puts an entry in its place; a later one of the same name replaces the earlier one. -/
def insert (name : String) (a : α) : List (String × α) → List (String × α)
  | [] => [(name, a)]
  | (other, b) :: rest =>
    if name < other then (name, a) :: (other, b) :: rest
    else if name = other then (name, a) :: rest
    else (other, b) :: insert name a rest

/-- Orders entries; of several of one name the last counts. -/
def ofList (entries : List (String × α)) : List (String × α) :=
  entries.foldl (fun es (name, a) => insert name a es) []

variable {name : String} {a : α} {entries : List (String × α)}

theorem mem_insert {e : String × α} (h : e ∈ insert name a entries) :
    e = (name, a) ∨ e ∈ entries := by
  induction entries with
  | nil => exact .inl (List.mem_singleton.1 h)
  | cons other rest ih =>
    simp only [insert] at h
    split at h
    · exact List.mem_cons.1 h
    · split at h
      · exact (List.mem_cons.1 h).imp_right (.tail _)
      · obtain rfl | h := List.mem_cons.1 h
        · exact .inr (.head _)
        · exact (ih h).imp_right (.tail _)

theorem pairwise_insert (h : entries.Pairwise (·.1 < ·.1)) :
    (insert name a entries).Pairwise (·.1 < ·.1) := by
  induction entries with
  | nil => exact List.pairwise_singleton _ _
  | cons other rest ih =>
    obtain ⟨hother, hrest⟩ := List.pairwise_cons.1 h
    simp only [insert]
    split
    · rename_i hlt
      refine List.pairwise_cons.2 ⟨fun e he => ?_, h⟩
      obtain rfl | he := List.mem_cons.1 he
      · exact hlt
      · exact String.lt_trans hlt (hother e he)
    · rename_i hlt
      split
      · rename_i heq
        exact List.pairwise_cons.2 ⟨fun e he => heq ▸ hother e he, hrest⟩
      · rename_i hne
        refine List.pairwise_cons.2 ⟨fun e he => ?_, ih hrest⟩
        obtain rfl | he := mem_insert he
        · exact Std.lt_of_le_of_ne (String.not_lt.1 hlt) (Ne.symm hne)
        · exact hother e he

/-- What is true of entries that are put in one after the other is true of all that are in. -/
theorem foldl_insert_induction {P : List (String × α) → Prop} {read : List (String × α)}
    (hread : P read) (h : ∀ name a es, (name, a) ∈ entries → P es → P (insert name a es)) :
    P (entries.foldl (fun es (name, a) => insert name a es) read) := by
  induction entries generalizing read with
  | nil => exact hread
  | cons e rest ih =>
    exact ih (h e.1 e.2 read (.head _) hread) fun name a es he => h name a es (.tail _ he)

theorem pairwise_ofList (entries : List (String × α)) :
    (ofList entries).Pairwise (·.1 < ·.1) :=
  foldl_insert_induction .nil fun _ _ _ _ => pairwise_insert

theorem mem_of_mem_ofList {e : String × α} (h : e ∈ ofList entries) : e ∈ entries := by
  revert h
  refine foldl_insert_induction (P := fun es => e ∈ es → e ∈ entries) nofun ?_
  intro name a es hm ih h
  obtain rfl | h := mem_insert h
  · exact hm
  · exact ih h

/-! ## Looking up -/

theorem lookup_cons (e : String × α) (name : String) :
    (e :: entries).lookup name = if name = e.1 then some e.2 else entries.lookup name := by
  obtain ⟨name', a⟩ := e
  by_cases h : name = name' <;> simp [List.lookup_cons, h, beq_eq_false_iff_ne.2]

@[simp] theorem lookup_insert (other : String) :
    (insert name a entries).lookup other =
      if other = name then some a else entries.lookup other := by
  induction entries with
  | nil => exact lookup_cons (name, a) other
  | cons e rest ih =>
    simp only [insert]
    split
    · exact lookup_cons (name, a) other
    · split
      · rename_i heq
        simp only [lookup_cons, ← heq]
        split <;> rfl
      · rename_i hne
        simp only [lookup_cons, ih]
        by_cases h : other = e.1
        · rw [if_pos h, if_neg (h ▸ Ne.symm hne), if_pos h]
        · rw [if_neg h, if_neg h]

/-- Among ordered entries there is at most one of a name. -/
theorem filter_eq_lookup (h : entries.Pairwise (·.1 < ·.1)) (name : String) :
    entries.filter (·.1 = name) = ((entries.lookup name).map fun a => (name, a)).toList := by
  induction entries with
  | nil => rfl
  | cons e rest ih =>
    obtain ⟨he, hrest⟩ := List.pairwise_cons.1 h
    by_cases hn : e.1 = name
    · have hnone : rest.filter (·.1 = name) = [] := List.filter_eq_nil_iff.2 fun r hr hrn => by
        have := he r hr
        rw [of_decide_eq_true hrn, hn] at this
        exact String.lt_irrefl _ this
      rw [List.filter_cons_of_pos (by simpa using hn), hnone, lookup_cons, if_pos hn.symm, ← hn]
      rfl
    · rw [List.filter_cons_of_neg (by simpa using hn), ih hrest, lookup_cons, if_neg (Ne.symm hn)]

/-! ## Entries that are in order already -/

/-- An entry whose name comes after all others is put at the end. -/
theorem insert_of_lt (h : ∀ e ∈ entries, e.1 < name) :
    insert name a entries = entries ++ [(name, a)] := by
  induction entries with
  | nil => rfl
  | cons e rest ih =>
    have he := h e (.head _)
    have hne : name ≠ e.1 := fun hn => String.lt_irrefl _ (hn ▸ he)
    rw [insert, if_neg (String.lt_asymm he), if_neg hne, ih fun e hr => h e (.tail _ hr)]
    rfl

theorem foldl_insert {read : List (String × α)} (h : (read ++ entries).Pairwise (·.1 < ·.1)) :
    entries.foldl (fun es (name, a) => insert name a es) read = read ++ entries := by
  induction entries generalizing read with
  | nil => simp
  | cons e rest ih =>
    have he : ∀ r ∈ read, r.1 < e.1 := fun r hr =>
      (List.pairwise_append.1 h).2.2 r hr e (.head _)
    rw [List.foldl_cons]
    show rest.foldl _ (insert e.1 e.2 read) = _
    rw [insert_of_lt he, ih (by simpa using h)]
    simp

theorem ofList_of_pairwise (h : entries.Pairwise (·.1 < ·.1)) : ofList entries = entries :=
  foldl_insert h

/-! ## Entries in no order -/

theorem perm_insert (h : name ∉ entries.map (·.1)) :
    (insert name a entries).Perm ((name, a) :: entries) := by
  induction entries with
  | nil => exact .refl _
  | cons e rest ih =>
    rw [List.map_cons, List.mem_cons, not_or] at h
    obtain ⟨hne, hrest⟩ := h
    rw [insert, if_neg hne]
    split
    · exact .refl _
    · exact ((ih hrest).cons e).trans (.swap ..)

theorem perm_foldl_insert {read : List (String × α)} (h : ((read ++ entries).map (·.1)).Nodup) :
    (entries.foldl (fun es (name, a) => insert name a es) read).Perm (read ++ entries) := by
  induction entries generalizing read with
  | nil => simp
  | cons e rest ih =>
    have hmiddle : (read ++ e :: rest).Perm (e :: (read ++ rest)) := List.perm_middle
    have hnodup := (hmiddle.map (·.1)).nodup_iff.1 h
    have he : e.1 ∉ read.map (·.1) := by
      intro hm
      refine (List.nodup_cons.1 hnodup).1 ?_
      rw [List.map_append]
      exact List.mem_append_left _ hm
    have hinsert : (insert e.1 e.2 read ++ rest).Perm (e :: (read ++ rest)) :=
      (perm_insert he).append_right rest
    have hrest := (hinsert.map (·.1)).nodup_iff.2 hnodup
    exact ((ih hrest).trans hinsert).trans hmiddle.symm

theorem perm_ofList (h : (entries.map (·.1)).Nodup) : (ofList entries).Perm entries :=
  perm_foldl_insert h

/-- The order in which entries of different names come has no say in the order that they get. -/
theorem ofList_perm {entries' : List (String × α)} (hp : entries'.Perm entries)
    (h : (entries.map (·.1)).Nodup) : ofList entries' = ofList entries := by
  have h' : (entries'.map (·.1)).Nodup := (hp.map (·.1)).nodup_iff.2 h
  have hsame : (ofList entries').Perm (ofList entries) :=
    ((perm_ofList h').trans hp).trans (perm_ofList h).symm
  refine hsame.eq_of_pairwise ?_ (pairwise_ofList _) (pairwise_ofList _)
  intro e e' _ _ hlt hgt
  exact absurd hgt (String.lt_asymm hlt)

end FlowAccess.Entries
