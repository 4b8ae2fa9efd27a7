import FlowAccess.Proofs.Codec
import Mathlib.Data.List.Forall2

/-!
# Values that hold events

A value holds its events in places of its own, in which other events can be put. To take it through
a function that refuses some events is to put there what the function gives of each, if it refuses
none of them (`HoldsEvents.mapEvents?`).
-/

namespace FlowAccess

/-- Values with places for events. -/
class HoldsEvents (D : Type) where
  /-- The events, in order. -/
  events : D → List Event
  /-- The value with other events in its places. -/
  mapEvents : (Event → Event) → D → D
  events_mapEvents (f : Event → Event) (d : D) : events (mapEvents f d) = (events d).map f
  mapEvents_id (d : D) : mapEvents id d = d
  mapEvents_mapEvents (f g : Event → Event) (d : D) :
    mapEvents f (mapEvents g d) = mapEvents (f ∘ g) d
  mapEvents_congr {f g : Event → Event} {d : D} :
    (∀ e ∈ events d, f e = g e) → mapEvents f d = mapEvents g d

namespace HoldsEvents

/-! ## Holders -/

instance : HoldsEvents Event where
  events e := [e]
  mapEvents f e := f e
  events_mapEvents _ _ := rfl
  mapEvents_id _ := rfl
  mapEvents_mapEvents _ _ _ := rfl
  mapEvents_congr h := h _ (.head _)

instance {D : Type} [HoldsEvents D] : HoldsEvents (List D) where
  events ds := ds.flatMap events
  mapEvents f ds := ds.map (mapEvents f)
  events_mapEvents f ds := by
    simp only [List.flatMap_map, List.map_flatMap, events_mapEvents]
  mapEvents_id ds := (List.map_congr_left fun d _ => mapEvents_id d).trans (List.map_id ds)
  mapEvents_mapEvents f g ds := by
    simp only [List.map_map, Function.comp_def, mapEvents_mapEvents]
  mapEvents_congr h := List.map_congr_left fun d hd =>
    mapEvents_congr fun e he => h e (List.mem_flatMap.2 ⟨d, hd, he⟩)

/-- Values that hold the events of one of their parts. -/
@[reducible] def ofPart {D F : Type} [HoldsEvents F] (part : D → F) (withPart : F → D → D)
    (part_withPart : ∀ x d, part (withPart x d) = x) (withPart_part : ∀ d, withPart (part d) d = d)
    (withPart_withPart : ∀ x y d, withPart x (withPart y d) = withPart x d) : HoldsEvents D where
  events d := events (part d)
  mapEvents f d := withPart (mapEvents f (part d)) d
  events_mapEvents f d := by rw [part_withPart, events_mapEvents]
  mapEvents_id d := by rw [mapEvents_id, withPart_part]
  mapEvents_mapEvents f g d := by
    rw [part_withPart, withPart_withPart, mapEvents_mapEvents]
  mapEvents_congr h := by rw [mapEvents_congr h]

instance : HoldsEvents BlockEvents :=
  ofPart (·.events) (fun es b => { b with events := es }) (fun _ _ => rfl) (fun _ => rfl)
    fun _ _ _ => rfl

instance : HoldsEvents TransactionResult :=
  ofPart (·.events) (fun es r => { r with events := es }) (fun _ _ => rfl) (fun _ => rfl)
    fun _ _ _ => rfl

instance : HoldsEvents ChunkExecutionData :=
  ofPart (·.events) (fun es c => { c with events := es }) (fun _ _ => rfl) (fun _ => rfl)
    fun _ _ _ => rfl

instance : HoldsEvents ExecutionData :=
  ofPart (·.chunks) (fun cs d => { d with chunks := cs }) (fun _ _ => rfl) (fun _ => rfl)
    fun _ _ _ => rfl

instance : HoldsEvents ExecutionDataAt :=
  ofPart (·.data) (fun data d => { d with data }) (fun _ _ => rfl) (fun _ => rfl)
    fun _ _ _ => rfl

/-- Values that hold no events. -/
@[reducible] def ofNoEvents (D : Type) : HoldsEvents D where
  events _ := []
  mapEvents _ d := d
  events_mapEvents _ _ := rfl
  mapEvents_id _ := rfl
  mapEvents_mapEvents _ _ _ := rfl
  mapEvents_congr _ := rfl

instance : HoldsEvents KeyPart := ofNoEvents KeyPart

instance : HoldsEvents Payload := ofNoEvents Payload

instance : HoldsEvents TrieUpdate := ofNoEvents TrieUpdate

instance : HoldsEvents LightResult := ofNoEvents LightResult

@[simp] theorem events_list (es : List Event) : events es = es := List.flatMap_singleton' es

theorem events_chunk (c : ChunkExecutionData) : events c = c.events := events_list c.events

/-! ## Reading -/

section

variable {D : Type} [HoldsEvents D]

/-- What is received of a value, which is what counts when values are compared. -/
def received (d : D) : D := mapEvents Event.received d

/-- Whether all events are readable. -/
def Readable (options : CodecOptions) (d : D) : Prop := ∀ e ∈ events d, e.Readable options

/-- The value with its events as they are read. -/
def readBy (options : CodecOptions) (d : D) : D := mapEvents (Event.readBy options) d

@[simp] theorem received_readBy (options : CodecOptions) (d : D) :
    received (readBy options d) = received d :=
  mapEvents_mapEvents _ _ d

theorem readBy_eq_self {options : CodecOptions} {d : D}
    (h : ∀ e ∈ events d, e.readBy options = e) : readBy options d = d :=
  (mapEvents_congr h).trans (mapEvents_id d)

end

/-! ## Events that may be refused -/

section

variable {D F : Type} [HoldsEvents D] [HoldsEvents F] {t : Event → Option Event} {d d' : D}

/-- The value with what is given of each event in the place of it, if something is given of each. -/
def mapEvents? (t : Event → Option Event) (d : D) : Option D :=
  if ∀ e ∈ events d, (t e).isSome then some (mapEvents (fun e => (t e).getD e) d) else none

theorem exists_mapEvents?_iff :
    (∃ d', mapEvents? t d = some d') ↔ ∀ e ∈ events d, ∃ e', t e = some e' := by
  simp only [← Option.isSome_iff_exists, mapEvents?]
  split
  · exact iff_of_true rfl ‹_›
  · exact iff_of_false nofun ‹_›

theorem mapEvents?_eq_some (h : mapEvents? t d = some d') :
    (∀ e ∈ events d, t e = some ((t e).getD e)) ∧ mapEvents (fun e => (t e).getD e) d = d' := by
  rw [mapEvents?] at h
  split at h
  · rename_i hs
    refine ⟨fun e he => ?_, Option.some.inj h⟩
    rw [Option.getD_of_ne_none (Option.isSome_iff_ne_none.1 (hs e he))]
  · cases h

/-- What is given of the events stands where they stood. -/
theorem events_of_mapEvents? (h : mapEvents? t d = some d') :
    List.Forall₂ (fun e e' => t e = some e') (events d) (events d') := by
  obtain ⟨hs, rfl⟩ := mapEvents?_eq_some h
  rw [events_mapEvents, List.forall₂_map_right_iff, List.forall₂_same]
  exact hs

theorem exists_of_mem_mapEvents? (h : mapEvents? t d = some d') {e' : Event}
    (he' : e' ∈ events d') : ∃ e ∈ events d, t e = some e' := by
  obtain ⟨hs, rfl⟩ := mapEvents?_eq_some h
  rw [events_mapEvents] at he'
  obtain ⟨e, he, rfl⟩ := List.mem_map.1 he'
  exact ⟨e, he, hs e he⟩

/-- What is given of a value differs from it in what is given of the events. -/
theorem mapEvents_of_mapEvents? (h : mapEvents? t d = some d') {f : Event → Event}
    (hf : ∀ e e', t e = some e' → f e' = f e) : mapEvents f d' = mapEvents f d := by
  obtain ⟨hs, rfl⟩ := mapEvents?_eq_some h
  rw [mapEvents_mapEvents]
  exact mapEvents_congr fun e he => hf e _ (hs e he)

@[simp] theorem mapEvents?_event : (mapEvents? t : Event → Option Event) = t := by
  funext e
  cases h : t e with
  | none => simp [mapEvents?, events, h]
  | some e' => simp [mapEvents?, events, mapEvents, h]

@[simp] theorem mapEvents?_cons (d : D) (ds : List D) :
    mapEvents? t (d :: ds) = (mapEvents? t d).bind fun d' =>
      (mapEvents? t ds).bind fun ds' => some (d' :: ds') := by
  have hcons : (∀ e ∈ events (d :: ds), (t e).isSome) ↔
      (∀ e ∈ events d, (t e).isSome) ∧ ∀ e ∈ events ds, (t e).isSome := List.forall_mem_append
  simp only [mapEvents?, hcons]
  by_cases hd : ∀ e ∈ events d, (t e).isSome
  · by_cases hds : ∀ e ∈ events ds, (t e).isSome
    · rw [if_pos ⟨hd, hds⟩, if_pos hd, if_pos hds]
      rfl
    · rw [if_neg fun h => hds h.2, if_pos hd, if_neg hds]
      rfl
  · rw [if_neg fun h => hd h.1, if_neg hd]
    rfl

/-- A value that holds the events of one of its parts is taken through what the part is. -/
theorem mapEvents?_part (part : F → D) (he : ∀ x, events (part x) = events x)
    (hm : ∀ f x, mapEvents f (part x) = part (mapEvents f x)) (x : F) :
    mapEvents? t (part x) = (mapEvents? t x).bind fun x => some (part x) := by
  simp only [mapEvents?, he, hm]
  split <;> rfl

end

end HoldsEvents

open HoldsEvents

section

variable {t : Event → Option Event}

theorem BlockEvents.mapEvents?_mk (blockId : Identifier) (height : UInt64) (timestamp : Timestamp)
    (es : List Event) : mapEvents? t (mk blockId height timestamp es) =
      (mapEvents? t es).bind fun es => some (mk blockId height timestamp es) :=
  mapEvents?_part (mk blockId height timestamp) (fun _ => rfl) (fun _ _ => rfl) es

theorem TransactionResult.mapEvents?_mk (status : TransactionStatus) (statusCode : UInt32)
    (error : Option String) (es : List Event) (blockId collectionId : Identifier)
    (computationUsed : UInt64) :
    mapEvents? t (mk status statusCode error es blockId collectionId computationUsed) =
      (mapEvents? t es).bind fun es =>
        some (mk status statusCode error es blockId collectionId computationUsed) :=
  mapEvents?_part (mk status statusCode error · blockId collectionId computationUsed)
    (fun _ => rfl) (fun _ _ => rfl) es

theorem ChunkExecutionData.mapEvents?_mk (transactions : List Transaction) (es : List Event)
    (trieUpdate : Option TrieUpdate) (transactionResults : List LightResult) :
    mapEvents? t (mk transactions es trieUpdate transactionResults) =
      (mapEvents? t es).bind fun es => some (mk transactions es trieUpdate transactionResults) :=
  mapEvents?_part (mk transactions · trieUpdate transactionResults)
    (fun _ => rfl) (fun _ _ => rfl) es

theorem ExecutionData.mapEvents?_mk (blockId : Identifier) (cs : List ChunkExecutionData) :
    mapEvents? t (mk blockId cs) = (mapEvents? t cs).bind fun cs => some (mk blockId cs) :=
  mapEvents?_part (mk blockId) (fun _ => rfl) (fun _ _ => rfl) cs

theorem ExecutionDataAt.mapEvents?_mk (height : UInt64) (d : ExecutionData)
    (timestamp : Timestamp) : mapEvents? t (mk height d timestamp) =
      (mapEvents? t d).bind fun d => some (mk height d timestamp) :=
  mapEvents?_part (mk height · timestamp) (fun _ => rfl) (fun _ _ => rfl) d

end

end FlowAccess
