import FlowAccess.Codec
import FlowAccess.Proofs.Outcomes

/-!
# Lists read item by item

A list whose items are all read is read as the list of what they are read as, in order, and nothing
else is in it. Any other list is read up to its first item that cannot be read (`Stops`). Two lists
are accepted alike if their items are.
-/

namespace FlowAccess

theorem mapM_eq_pure {m : Type → Type} [Monad m] [LawfulMonad m] {α β : Type} {read : α → m β}
    {f : α → β} {items : List α} (h : ∀ a ∈ items, read a = pure (f a)) :
    items.mapM read = pure (items.map f) := by
  induction items with
  | nil => simp
  | cons a items ih => simp [h a (.head _), ih fun a ha => h a (.tail _ ha)]

/-- Items that are read back from how they are written. -/
theorem mapM_map_eq_pure {m : Type → Type} [Monad m] [LawfulMonad m] {α β : Type} {write : α → β}
    {read : β → m α} {items : List α} (h : ∀ a ∈ items, read (write a) = pure a) :
    (items.map write).mapM read = pure items := by
  rw [List.mapM_map]
  exact (mapM_eq_pure (f := id) h).trans (by rw [List.map_id])

/-- A list is written, and its items are read one by one, if each of its items is. -/
theorem exists_mapM_map {W D E ε ε' : Type} {write : D → Except ε' W} {read : W → Except ε E}
    {f : D → E} {items : List D} (h : ∀ d ∈ items, ∃ w, write d = .ok w ∧ read w = .ok (f d)) :
    ∃ ws, items.mapM write = .ok ws ∧ ws.map read = (items.map f).map .ok := by
  induction items with
  | nil => exact ⟨[], rfl, rfl⟩
  | cons d items ih =>
    obtain ⟨w, hw, hr⟩ := h d (.head _)
    obtain ⟨ws, hws, hrs⟩ := ih fun d hd => h d (.tail _ hd)
    refine ⟨w :: ws, ?_, ?_⟩
    · rw [List.mapM_cons, hw, hws]
      rfl
    · rw [List.map_cons, hr, hrs, List.map_cons, List.map_cons]

/-! ## The first item that cannot be read -/

/-- A list is read up to an item that cannot be read: what the items before it are read as, and its
error. -/
inductive Stops {W D ε : Type} (read : W → Except ε D) : List W → List D → ε → Prop
  | here {w : W} {e : ε} (h : read w = .error e) (rest : List W) : Stops read (w :: rest) [] e
  | later {w : W} {d : D} {rest : List W} {ds : List D} {e : ε} (hd : read w = .ok d)
    (h : Stops read rest ds e) : Stops read (w :: rest) (d :: ds) e

section

variable {W D ε : Type}

theorem of_map_cons_eq {read : W → Except ε D} {w : W} {items : List W} {ds : List D}
    (h : (w :: items).map read = ds.map .ok) :
    ∃ d es, ds = d :: es ∧ read w = .ok d ∧ items.map read = es.map .ok := by
  cases ds with
  | nil => cases h
  | cons d es =>
    obtain ⟨hw, h⟩ := List.cons.inj h
    exact ⟨d, es, rfl, hw, h⟩

/-- A list is read as a whole or up to some item. -/
theorem reads_or_stops (read : W → Except ε D) (items : List W) :
    (∃ ds : List D, items.map read = ds.map .ok) ∨ ∃ ds e, Stops read items ds e := by
  induction items with
  | nil => exact .inl ⟨[], rfl⟩
  | cons w items ih =>
    cases hw : read w with
    | error e => exact .inr ⟨[], e, .here hw items⟩
    | ok d =>
      obtain ⟨ds, h⟩ | ⟨ds, e, h⟩ := ih
      · exact .inl ⟨d :: ds, by rw [List.map_cons, hw, h, List.map_cons]⟩
      · exact .inr ⟨d :: ds, e, .later hw h⟩

theorem Stops.exists_mem {read : W → Except ε D} {items : List W} {ds : List D} {e : ε}
    (h : Stops read items ds e) : ∃ item ∈ items, read item = .error e := by
  induction h with
  | here hw rest => exact ⟨_, .head _, hw⟩
  | later _ _ ih =>
    obtain ⟨item, hm, h⟩ := ih
    exact ⟨item, .tail _ hm, h⟩

/-- Nothing makes a difference that follows the item that cannot be read. -/
theorem Stops.of_take_eq {read : W → Except ε D} {items items' : List W} {ds : List D} {e : ε}
    (h : Stops read items ds e)
    (ht : items'.take (ds.length + 1) = items.take (ds.length + 1)) : Stops read items' ds e := by
  induction h generalizing items' with
  | here hw rest =>
    cases items' with
    | nil => cases ht
    | cons w' rest' =>
      cases ht
      exact .here hw rest'
  | later hd _ ih =>
    cases items' with
    | nil => cases ht
    | cons w' rest' =>
      rw [List.length_cons, List.take_succ_cons, List.take_succ_cons] at ht
      obtain ⟨rfl, hrest⟩ := List.cons.inj ht
      exact .later hd (ih hrest)

/-- A reader that is known on lists that can be read, and on those that cannot, is known on all. -/
theorem outcome_iff_of_stops {ε' : Type} {read : W → Except ε D} {items : List W}
    {outcome : Except ε' (List D)} {fail : List D → ε → ε'}
    (hok : ∀ ds, items.map read = ds.map .ok → outcome = .ok ds)
    (hfail : ∀ ds e, Stops read items ds e → outcome = .error (fail ds e)) :
    (∀ ds, outcome = .ok ds ↔ items.map read = ds.map .ok) ∧
      ∀ e', outcome = .error e' ↔ ∃ ds e, Stops read items ds e ∧ e' = fail ds e := by
  constructor
  · refine fun ds => ⟨fun ho => ?_, hok ds⟩
    obtain ⟨ds', h⟩ | ⟨ds', e, h⟩ := reads_or_stops read items
    · cases (hok ds' h).symm.trans ho
      exact h
    · cases (hfail ds' e h).symm.trans ho
  · refine fun e' => ⟨fun ho => ?_, ?_⟩
    · obtain ⟨ds, h⟩ | ⟨ds, e, h⟩ := reads_or_stops read items
      · cases (hok ds h).symm.trans ho
      · cases (hfail ds e h).symm.trans ho
        exact ⟨ds, e, h, rfl⟩
    · rintro ⟨ds, e, h, rfl⟩
      exact hfail ds e h

end

/-! ## Lists -/

section

variable {V W D : Type} {list : String} {read : W → Except DecodingError D} {items : List W}
  {ds : List D} {e : DecodingError}

theorem decodeListFrom_of_map_eq (h : items.map read = ds.map .ok) (position : Nat) :
    decodeListFrom list read position items = .ok ds := by
  induction items generalizing ds position with
  | nil =>
    cases List.map_eq_nil_iff.1 h.symm
    rfl
  | cons w items ih =>
    obtain ⟨d, es, rfl, hw, h⟩ := of_map_cons_eq h
    rw [decodeListFrom, hw, ih h]
    rfl

theorem decodeListFrom_of_stops (h : Stops read items ds e) (position : Nat) :
    decodeListFrom list read position items =
      .error (.within (.item list (position + ds.length)) e) := by
  induction h generalizing position with
  | here hw =>
    rw [decodeListFrom, hw]
    rfl
  | @later _ d rest ds _ hd _ ih =>
    have hposition : position + (d :: ds).length = position + 1 + ds.length := by
      rw [List.length_cons]
      omega
    rw [decodeListFrom, hd, ih, hposition]
    rfl

theorem decodeList_iff_of_stops (list : String) (read : W → Except DecodingError D)
    (items : List W) :
    (∀ ds, decodeList list read items = .ok ds ↔ items.map read = ds.map .ok) ∧
      ∀ e, decodeList list read items = .error e ↔
        ∃ ds e', Stops read items ds e' ∧ e = .within (.item list ds.length) e' :=
  outcome_iff_of_stops (fun _ h => decodeListFrom_of_map_eq h 0) fun ds e h => by
    rw [decodeList, decodeListFrom_of_stops h, Nat.zero_add]

/-- A list is read if each of its items is. -/
theorem decodeList_eq_ok_iff :
    decodeList list read items = .ok ds ↔ items.map read = ds.map .ok :=
  (decodeList_iff_of_stops list read items).1 ds

/-- A list fails at its first item that cannot be read. -/
theorem decodeList_eq_error_iff : decodeList list read items = .error e ↔
    ∃ ds e', Stops read items ds e' ∧ e = .within (.item list ds.length) e' :=
  (decodeList_iff_of_stops list read items).2 e

/-- What is in a list that was read was read from one of its items. -/
theorem mem_of_decodeList (h : decodeList list read items = .ok ds) {d : D} (hd : d ∈ ds) :
    ∃ item ∈ items, read item = .ok d := by
  have hm : .ok d ∈ items.map read := decodeList_eq_ok_iff.1 h ▸ List.mem_map_of_mem hd
  exact List.mem_map.1 hm

/-- Every item of a list that was read was read as something that is in it. -/
theorem exists_of_decodeList (h : decodeList list read items = .ok ds) {item : W}
    (hi : item ∈ items) : ∃ d ∈ ds, read item = .ok d := by
  have hm : read item ∈ ds.map .ok := decodeList_eq_ok_iff.1 h ▸ List.mem_map_of_mem hi
  obtain ⟨d, hd, hr⟩ := List.mem_map.1 hm
  exact ⟨d, hd, hr.symm⟩

/-- The error of a list is that of one of its items, with the item's position. -/
theorem exists_of_decodeList_eq_error (h : decodeList list read items = .error e) :
    ∃ item ∈ items, ∃ i e', read item = .error e' ∧ e = .within (.item list i) e' := by
  obtain ⟨ds, e', hs, rfl⟩ := decodeList_eq_error_iff.1 h
  obtain ⟨item, hm, hr⟩ := hs.exists_mem
  exact ⟨item, hm, ds.length, e', hr, rfl⟩

/-- A list is written, and read as what its items are read as, if each of its items is. -/
theorem exists_mapM_decodeList {E : Type} {write : D → Except EncodingError W}
    {read : W → Except DecodingError E} {f : D → E}
    (h : ∀ d ∈ ds, ∃ w, write d = .ok w ∧ read w = .ok (f d)) :
    ∃ ws, ds.mapM write = .ok ws ∧ decodeList list read ws = .ok (ds.map f) := by
  obtain ⟨ws, hws, hr⟩ := exists_mapM_map h
  exact ⟨ws, hws, decodeList_eq_ok_iff.2 hr⟩

/-- Wire messages that are read back from how they are written. -/
theorem decodeList_map {write : D → W} (h : ∀ d, read (write d) = .ok d) (ds : List D) :
    decodeList list read (ds.map write) = .ok ds := by
  rw [decodeList_eq_ok_iff, List.map_map]
  exact List.map_congr_left fun d _ => h d

/-- The items of a list are read before those that are appended to it. -/
theorem decodeListFrom_append (position : Nat) (items items' : List W) :
    decodeListFrom list read position (items ++ items') = do
      let ds ← decodeListFrom list read position items
      return ds ++ (← decodeListFrom list read (position + items.length) items') := by
  induction items generalizing position with
  | nil => cases h : decodeListFrom list read position items' <;> simp [decodeListFrom, h] <;> rfl
  | cons w items ih =>
    have hposition : position + (w :: items).length = position + 1 + items.length := by
      simp only [List.length_cons]
      omega
    simp only [List.cons_append, decodeListFrom, ih, hposition, bind_assoc, pure_bind]

variable {f : V → W} {accept : V → Option D} {vs : List V}

theorem toOption_decodeListFrom_map (h : ∀ v ∈ vs, (read (f v)).toOption = accept v)
    (position : Nat) :
    (decodeListFrom list read position (vs.map f)).toOption = vs.mapM accept := by
  induction vs generalizing position with
  | nil => rfl
  | cons v vs ih =>
    have hrest := ih (fun v hv => h v (.tail _ hv)) (position + 1)
    simp only [List.map_cons, decodeListFrom, toOption_bind, Place.toOption_mark, h v (.head _),
      hrest, toOption_pure, List.mapM_cons, Option.bind_eq_bind, Option.pure_def]

/-- A list is accepted if its items are, wherever they stand and whatever the list is called. -/
theorem toOption_decodeList_map (h : ∀ v ∈ vs, (read (f v)).toOption = accept v) :
    (decodeList list read (vs.map f)).toOption = vs.mapM accept :=
  toOption_decodeListFrom_map h 0

@[simp] theorem toOption_decodeList (items : List W) :
    (decodeList list read items).toOption = items.mapM fun w => (read w).toOption := by
  have h : (decodeList list read (items.map id)).toOption =
      items.mapM fun w => (read w).toOption := toOption_decodeList_map fun _ _ => rfl
  rwa [List.map_id] at h

end

/-! ## Blocks -/

section

variable {W D : Type} {read : W → Except DecodingError BlockEvents} {items : List W}
  {bs : List BlockEvents} {e : DecodingError}

theorem decodeBlocksFrom_of_map_eq (h : items.map read = bs.map .ok) (position : Nat) :
    decodeBlocksFrom read position items = .ok bs := by
  induction items generalizing bs position with
  | nil =>
    cases List.map_eq_nil_iff.1 h.symm
    rfl
  | cons w items ih =>
    obtain ⟨b, bs, rfl, hw, h⟩ := of_map_cons_eq h
    rw [decodeBlocksFrom, hw]
    simp only [ih h]

theorem decodeBlocksFrom_of_stops (h : Stops read items bs e) (position : Nat) :
    decodeBlocksFrom read position items =
      .error ⟨bs, .within (.item "results" (position + bs.length)) e⟩ := by
  induction h generalizing position with
  | here hw =>
    rw [decodeBlocksFrom, hw]
    rfl
  | @later _ b rest bs _ hd _ ih =>
    have hposition : position + (b :: bs).length = position + 1 + bs.length := by
      rw [List.length_cons]
      omega
    rw [decodeBlocksFrom, hd, hposition]
    simp only [ih]

/-- A block that cannot be read takes all that follows it with it. -/
theorem decodeBlocksFrom_congr_of_error {w w' : W} (hw : read w = .error e)
    (hw' : read w' = .error e) (rest rest' before : List W) (position : Nat) :
    decodeBlocksFrom read position (before ++ w :: rest) =
      decodeBlocksFrom read position (before ++ w' :: rest') := by
  induction before generalizing position with
  | nil => simp only [List.nil_append, decodeBlocksFrom, hw, hw']
  | cons b before ih => simp only [List.cons_append, decodeBlocksFrom, ih]

theorem decodeBlocks_iff_of_stops (read : W → Except DecodingError BlockEvents) (items : List W) :
    (∀ bs, decodeBlocks read items = .ok bs ↔ items.map read = bs.map .ok) ∧
      ∀ p, decodeBlocks read items = .error p ↔ ∃ bs e, Stops read items bs e ∧
        p = ⟨bs, .within (.item "results" bs.length) e⟩ :=
  outcome_iff_of_stops (fun _ h => decodeBlocksFrom_of_map_eq h 0) fun bs e h => by
    rw [decodeBlocks, decodeBlocksFrom_of_stops h, Nat.zero_add]

/-- Blocks are answered if each of them can be read. -/
theorem decodeBlocks_eq_ok_iff :
    decodeBlocks read items = .ok bs ↔ items.map read = bs.map .ok :=
  (decodeBlocks_iff_of_stops read items).1 bs

/-- Blocks are kept up to the first that cannot be read. -/
theorem decodeBlocks_eq_error_iff {p : PartialEvents} : decodeBlocks read items = .error p ↔
    ∃ e, Stops read items p.decoded e ∧ p.error = .within (.item "results" p.decoded.length) e := by
  rw [(decodeBlocks_iff_of_stops read items).2]
  constructor
  · rintro ⟨bs, e, h, rfl⟩
    exact ⟨e, h, rfl⟩
  · rintro ⟨e, h, hp⟩
    exact ⟨p.decoded, e, h, by rw [← hp]⟩

theorem exists_mapM_decodeBlocks {write : D → Except EncodingError W} {f : D → BlockEvents}
    {ds : List D} (h : ∀ d ∈ ds, ∃ w, write d = .ok w ∧ read w = .ok (f d)) :
    ∃ ws, ds.mapM write = .ok ws ∧ decodeBlocks read ws = .ok (ds.map f) := by
  obtain ⟨ws, hws, hr⟩ := exists_mapM_map h
  exact ⟨ws, hws, decodeBlocks_eq_ok_iff.2 hr⟩

end

end FlowAccess
