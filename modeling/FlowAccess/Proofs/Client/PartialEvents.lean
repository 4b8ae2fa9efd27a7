import FlowAccess.Grpc.Client
import FlowAccess.Proofs.Lists
import FlowAccess.Rest.Client

/-!
# Partial events

Blocks of events are read one after another, and the events of a block after its own fields. What is
answered is all of the blocks, or those before the first that cannot be read, with the place and the
error of the first thing in it that is wrong; nothing that follows is looked at
(`decodeBlocks_first_failure`). Both clients answer with what they were given of that.
-/

namespace FlowAccess

/-! ## The forms of a block -/

/-- How a transport carries the events of a block: fields of the block itself, which are read first,
and a list of events. -/
structure BlockForm where
  Block : Type
  Event : Type
  events : Block → List Event
  withEvents : Block → List Event → Block
  /-- The block without its events. -/
  readOwn : Block → Except DecodingError BlockEvents
  readEvent : CodecOptions → Event → Except DecodingError FlowAccess.Event
  readBlock : CodecOptions → Block → Except DecodingError BlockEvents
  events_withEvents : ∀ w es, events (withEvents w es) = es := by intros; rfl
  readOwn_withEvents : ∀ w es, readOwn (withEvents w es) = readOwn w := by intros; rfl
  readBlock_eq : ∀ options w, readBlock options w = do
    let own ← readOwn w
    return { own with events := ← decodeList "events" (readEvent options) (events w) }

/-- The form of a block on each transport. -/
def Transport.blockForm : Transport → BlockForm
  | .grpc => {
      Block := Grpc.BlockEvents
      Event := Grpc.Event
      events := Grpc.BlockEvents.events
      withEvents := fun w es => { w with events := es }
      readOwn := fun w => return {
        blockId := ← Scalar.identifier "block_id" w.blockId
        height := w.blockHeight
        timestamp := ← Grpc.Timestamp.toDomain "block_timestamp" w.blockTimestamp
        events := [] }
      readEvent := Grpc.Event.toDomain
      readBlock := Grpc.BlockEvents.toDomain
      readBlock_eq := fun options w => by simp [Grpc.BlockEvents.toDomain] }
  | .http => {
      Block := Rest.BlockEvents
      Event := Rest.Event
      events := Rest.BlockEvents.events
      withEvents := fun w es => { w with events := es }
      readOwn := fun w => return {
        blockId := ← Scalar.hexIdentifier "block_id" w.blockId
        height := ← Scalar.uint64 "block_height" w.blockHeight
        timestamp := ← Scalar.timestamp "block_timestamp" w.blockTimestamp
        events := [] }
      readEvent := Rest.Event.toDomain
      readBlock := Rest.BlockEvents.toDomain
      readBlock_eq := fun options w => by simp [Rest.BlockEvents.toDomain] }

namespace BlockForm

variable {form : BlockForm} {options : CodecOptions} {w : form.Block} {own : BlockEvents}
  {e : DecodingError}

theorem readBlock_of_own_error (h : form.readOwn w = .error e) :
    form.readBlock options w = .error e := by
  rw [form.readBlock_eq, h]
  rfl

/-- A block whose own fields are read fails as the list of its events does. -/
theorem readBlock_eq_error_iff (h : form.readOwn w = .ok own) :
    form.readBlock options w = .error e ↔ ∃ es e',
      Stops (form.readEvent options) (form.events w) es e' ∧
        e = .within (.item "events" es.length) e' := by
  rw [← decodeList_eq_error_iff, form.readBlock_eq, h]
  show (decodeList "events" (form.readEvent options) (form.events w)).bind _ = _ ↔ _
  cases decodeList "events" (form.readEvent options) (form.events w) with
  | error e' =>
    constructor
    · rintro ⟨⟩
      rfl
    · rintro ⟨⟩
      rfl
  | ok es => exact iff_of_false nofun nofun

/-- What it means that the blocks of a response, and the events of each block, are read in order and
no further than to the first that cannot be read. -/
structure ReadInOrder (form : BlockForm) (options : CodecOptions) (blocks : List form.Block) :
    Prop where
  /-- All blocks are answered if each of them can be read. -/
  ok : ∀ bs, decodeBlocks (form.readBlock options) blocks = .ok bs ↔
    blocks.map (form.readBlock options) = bs.map .ok
  /-- Otherwise those before the first that cannot be read are kept, with its position and its
  error. -/
  error : ∀ p, decodeBlocks (form.readBlock options) blocks = .error p ↔
    ∃ e, Stops (form.readBlock options) blocks p.decoded e ∧
      p.error = .within (.item "results" p.decoded.length) e
  /-- The own fields of a block come before its events. -/
  own : ∀ w ∈ blocks, ∀ e, form.readOwn w = .error e → form.readBlock options w = .error e
  /-- Then the error of a block is that of its first event that cannot be read. -/
  events : ∀ w ∈ blocks, ∀ own, form.readOwn w = .ok own → ∀ e,
    form.readBlock options w = .error e ↔
      ∃ es e', Stops (form.readEvent options) (form.events w) es e' ∧
        e = .within (.item "events" es.length) e'
  /-- Nothing that follows the own fields of a block is looked at if they cannot be read. -/
  after_own : ∀ before w rest e, blocks = before ++ w :: rest → form.readOwn w = .error e →
    ∀ later rest',
      decodeBlocks (form.readBlock options) (before ++ form.withEvents w later :: rest') =
        decodeBlocks (form.readBlock options) blocks
  /-- Nothing that follows an event is looked at if it cannot be read. -/
  after_event : ∀ before w rest own es e, blocks = before ++ w :: rest →
    form.readOwn w = .ok own → Stops (form.readEvent options) (form.events w) es e →
    ∀ later rest', later.take (es.length + 1) = (form.events w).take (es.length + 1) →
      decodeBlocks (form.readBlock options) (before ++ form.withEvents w later :: rest') =
        decodeBlocks (form.readBlock options) blocks

theorem readInOrder (form : BlockForm) (options : CodecOptions) (blocks : List form.Block) :
    form.ReadInOrder options blocks where
  ok _ := decodeBlocks_eq_ok_iff
  error _ := decodeBlocks_eq_error_iff
  own _ _ _ := readBlock_of_own_error
  events _ _ _ hown _ := readBlock_eq_error_iff hown
  after_own := by
    rintro before w rest e rfl hown later rest'
    have hlater : form.readOwn (form.withEvents w later) = .error e := by
      rw [form.readOwn_withEvents, hown]
    exact decodeBlocksFrom_congr_of_error (readBlock_of_own_error hlater)
      (readBlock_of_own_error hown) rest' rest before 0
  after_event := by
    rintro before w rest own es e rfl hown hstops later rest' htake
    have hlater : form.readOwn (form.withEvents w later) = .ok own := by
      rw [form.readOwn_withEvents, hown]
    have hstops' : Stops (form.readEvent options) (form.events (form.withEvents w later)) es e := by
      rw [form.events_withEvents]
      exact hstops.of_take_eq htake
    exact decodeBlocksFrom_congr_of_error
      ((readBlock_eq_error_iff hlater).2 ⟨es, e, hstops', rfl⟩)
      ((readBlock_eq_error_iff hown).2 ⟨es, e, hstops, rfl⟩) rest' rest before 0

end BlockForm

/-! ## Clients -/

/-- The answer to what a node responds to a request is what the blocks in it are read as, or the
partial events. -/
def Call.HandsOn {Request : Type → Type} {R : Type} (request : Request R)
    (read : R → Except PartialEvents (List BlockEvents))
    (call : Call Request (List BlockEvents)) : Prop :=
  ∀ (node : {R : Type} → Request R → Except TransportError R) (r : R), node request = .ok r →
    (∀ bs, read r = .ok bs → call.answerFrom node = .ok bs) ∧
    ∀ p, read r = .error p → call.answerFrom node = .error (.partialEvents p)

theorem Call.handsOn_of_ask {Request : Type → Type} {R : Type} {request : Request R}
    {read : R → Except PartialEvents (List BlockEvents)} {call : Call Request (List BlockEvents)}
    (h : call = .ask request fun r => (read r).mapError .partialEvents) :
    call.HandsOn request read := by
  intro node r hr
  rw [h, answerFrom, hr]
  constructor
  · intro bs hbs
    simp only [hbs]
    rfl
  · intro p hp
    simp only [hp]
    rfl

/-- Over every transport blocks are read in order up to the first thing that cannot be read, which
is what the error names, and the blocks before it are kept. Both clients answer with all of that. -/
theorem decodeBlocks_first_failure :
    (∀ (t : Transport) (options : CodecOptions) (blocks : List t.blockForm.Block),
      t.blockForm.ReadInOrder options blocks) ∧
    (∀ c : Grpc.Client,
      (∀ range : EventRange, range.fault? = none →
        (c.call (.eventsForHeightRange range)).HandsOn
          (.getEventsForHeightRange range c.options.encoding)
          fun r => decodeBlocks (Transport.grpc.blockForm.readBlock c.options) r.items) ∧
      ∀ eventType ids, ids ≠ [] →
        (c.call (.eventsForBlockIds eventType ids)).HandsOn
          (.getEventsForBlockIds eventType ids c.options.encoding)
          fun r => decodeBlocks (Transport.grpc.blockForm.readBlock c.options) r.items) ∧
    ∀ c : Rest.Client,
      (∀ range : EventRange, range.fault? = none →
        (c.call (.eventsForHeightRange range)).HandsOn (.eventsForHeightRange range)
          (decodeBlocks (Transport.http.blockForm.readBlock c.options))) ∧
      ∀ eventType ids, ids ≠ [] →
        (c.call (.eventsForBlockIds eventType ids)).HandsOn (.eventsForBlockIds eventType ids)
          (decodeBlocks (Transport.http.blockForm.readBlock c.options)) := by
  refine ⟨fun t => t.blockForm.readInOrder, fun c => ⟨fun range h => ?_, fun _ _ h => ?_⟩,
    fun c => ⟨fun range h => ?_, fun _ _ h => ?_⟩⟩
  · refine Call.handsOn_of_ask ?_
    rw [Grpc.Client.call, h]
    rfl
  · exact Call.handsOn_of_ask (if_neg h)
  · refine Call.handsOn_of_ask ?_
    rw [Rest.Client.call, h]
    rfl
  · exact Call.handsOn_of_ask (if_neg h)

/-- Of two blocks, the second has an event of no transaction. The client answers with the first,
and would so if there were more events after that one. -/
theorem decodeBlocks_first_failure_second :
    let good : Grpc.BlockEvents := { blockId := List.replicate 32 0 }
    let bad (more : List Grpc.Event) : Grpc.BlockEvents := { good with events := {} :: more }
    let node (more : List Grpc.Event) {R : Type} : Grpc.Rpc R → Except TransportError R
      | .getEventsForBlockIds .. => .ok ⟨[good, bad more]⟩
      | _ => .error default
    ∃ block, Transport.grpc.blockForm.readBlock {} good = .ok block ∧
      ∀ more, (({} : Grpc.Client).call (.eventsForBlockIds "Deposited" [.empty])).answerFrom
          (node more) =
        .error (.partialEvents ⟨[block], .within (.item "results" 1)
          (.within (.item "events" 0) (.invalidLength "event.transaction_id" 32 0))⟩) := by
  intro good bad node
  refine ⟨_, rfl, fun more => ?_⟩
  obtain ⟨hread, hanswer, -⟩ := decodeBlocks_first_failure
  have h := hread .grpc {} [good, bad []]
  have hevent : Transport.grpc.blockForm.readEvent {} ({} : Grpc.Event) =
      .error (.invalidLength "event.transaction_id" 32 0) := rfl
  have hevents := Stops.here hevent []
  have hbad := (h.events (bad []) (.tail _ (.head _)) _ rfl _).2 ⟨_, _, hevents, rfl⟩
  have hmore := h.after_event [good] (bad []) [] _ _ _ rfl rfl hevents ({} :: more) [] rfl
  refine ((hanswer {}).2 "Deposited" [.empty] (by decide) (node more) _ rfl).2 _ (hmore.trans ?_)
  exact (h.error _).2 ⟨_, .later rfl (.here hbad []), rfl⟩

end FlowAccess
