import FlowAccess.Grpc.Client
import FlowAccess.Proofs.Crossing
import FlowAccess.Proofs.Event.Holders

/-!
# Responses with events

A request whose response can hold events says in which encoding it wants their payloads, by a number
in a field of its own (`version?`). The payloads themselves do not say which encoding they are in,
so that the events of a response depend on the options that it is read with. What they are under any
options is the `Reading` of the request: they have the encoding of these options, and payloads of
the response.
-/

namespace FlowAccess.Grpc

open HoldsEvents Protobuf

/-! ## Payloads -/

/-- Messages that hold payloads of events. -/
class HoldsPayloads (W : Type) where
  payloads : W → List Bytes

open HoldsPayloads

instance : HoldsPayloads Event := ⟨fun m => [m.payload]⟩

instance {W : Type} [HoldsPayloads W] : HoldsPayloads (List W) := ⟨fun ms => ms.flatMap payloads⟩

instance {W : Type} [HoldsPayloads W] : HoldsPayloads (Option W) := ⟨fun m => payloads m.toList⟩

instance : HoldsPayloads BlockEvents := ⟨fun m => payloads m.events⟩

instance : HoldsPayloads SubscribedEvents := ⟨fun m => payloads m.block⟩

instance : HoldsPayloads TransactionResult := ⟨fun m => payloads m.events⟩

instance : HoldsPayloads ChunkExecutionData := ⟨fun m => payloads m.events⟩

instance : HoldsPayloads ExecutionData := ⟨fun m => payloads m.chunks⟩

instance : HoldsPayloads SubscribedExecutionData := ⟨fun m => payloads m.data⟩

instance : HoldsPayloads Transaction := ⟨fun _ => []⟩

instance : HoldsEvents FlowAccess.Transaction := ofNoEvents FlowAccess.Transaction

@[simp] theorem payloads_some {W : Type} [HoldsPayloads W] (m : W) :
    payloads (some m) = payloads m :=
  List.append_nil _

/-- Events in the encoding of a reader, with payloads that it was given. -/
def ReadFrom (options : CodecOptions) (given : List Bytes) (events : List FlowAccess.Event) : Prop :=
  ∀ e ∈ events, e.encoding = options.encoding ∧ e.payload ∈ given

/-- Messages whose events are read from the payloads that they hold. -/
class ReadsPayloads (W D : Type) [Carries W D] [HoldsPayloads W] [HoldsEvents D] : Prop where
  readFrom_of_read {options : CodecOptions} {m : W} {d : D} :
    Carries.read options m = .ok d → ReadFrom options (payloads m) (events d)

section

variable {W D : Type} [Carries W D] [HoldsPayloads W] [HoldsEvents D] [ReadsPayloads W D]
  {options : CodecOptions} {list : String}

theorem readFrom_of_items {ms : List W} {ds : List D}
    (h : ∀ d ∈ ds, ∃ m ∈ ms, Carries.read options m = .ok d) :
    ReadFrom options (payloads ms) (events ds) := by
  intro e he
  obtain ⟨d, hd, he⟩ := List.mem_flatMap.1 he
  obtain ⟨m, hm, hr⟩ := h d hd
  obtain ⟨hencoding, hpayload⟩ := ReadsPayloads.readFrom_of_read hr e he
  exact ⟨hencoding, List.mem_flatMap.2 ⟨m, hm, hpayload⟩⟩

theorem readFrom_of_decodeList {ms : List W} {ds : List D}
    (h : decodeList list (Carries.read options) ms = .ok ds) :
    ReadFrom options (payloads ms) (events ds) :=
  readFrom_of_items fun _ hd => mem_of_decodeList h hd

end

instance : ReadsPayloads Event FlowAccess.Event where
  readFrom_of_read {options m d} h := by
    obtain ⟨id, -, h⟩ := ok_of_bind_ok h
    obtain ⟨-, rfl⟩ := (CodecOptions.event_eq_ok_iff
      (e := ⟨m.type, id, m.transactionIndex, m.eventIndex, m.payload, options.encoding, {}, none,
        none⟩) rfl).1 h
    intro e he
    obtain rfl := List.mem_singleton.1 he
    exact ⟨rfl, .head _⟩

instance : ReadsPayloads BlockEvents FlowAccess.BlockEvents where
  readFrom_of_read h := by
    obtain ⟨_, -, h⟩ := ok_of_bind_ok h
    obtain ⟨_, -, h⟩ := ok_of_bind_ok h
    obtain ⟨es, hes, h⟩ := ok_of_bind_ok h
    cases h
    exact readFrom_of_decodeList (W := Event) (D := FlowAccess.Event) hes

instance : ReadsPayloads SubscribedEvents FlowAccess.BlockEvents where
  readFrom_of_read {_ m _} h := ReadsPayloads.readFrom_of_read (W := BlockEvents) (m := m.block) h

instance : ReadsPayloads TransactionResult FlowAccess.TransactionResult where
  readFrom_of_read {options m d} h := by
    have h : m.toDomain options = .ok d := h
    unfold TransactionResult.toDomain at h
    split at h
    · obtain ⟨es, hes, h⟩ := ok_of_bind_ok h
      obtain ⟨_, -, h⟩ := ok_of_bind_ok h
      obtain ⟨_, -, h⟩ := ok_of_bind_ok h
      cases h
      exact readFrom_of_decodeList (W := Event) (D := FlowAccess.Event) hes
    · cases h

instance : ReadsPayloads ChunkExecutionData FlowAccess.ChunkExecutionData where
  readFrom_of_read h := by
    obtain ⟨_, -, h⟩ := ok_of_bind_ok h
    obtain ⟨es, hes, h⟩ := ok_of_bind_ok h
    obtain ⟨_, -, h⟩ := ok_of_bind_ok h
    obtain ⟨_, -, h⟩ := ok_of_bind_ok h
    cases h
    exact readFrom_of_decodeList (W := Event) (D := FlowAccess.Event) hes

instance : ReadsPayloads ExecutionData FlowAccess.ExecutionData where
  readFrom_of_read h := by
    obtain ⟨_, -, h⟩ := ok_of_bind_ok h
    obtain ⟨cs, hcs, h⟩ := ok_of_bind_ok h
    cases h
    exact readFrom_of_decodeList (W := ChunkExecutionData) (D := FlowAccess.ChunkExecutionData) hcs

instance : ReadsPayloads SubscribedExecutionData ExecutionDataAt where
  readFrom_of_read {options m d} h := by
    have h : m.toDomain options = .ok d := h
    unfold SubscribedExecutionData.toDomain at h
    split at h
    · rename_i data hm
      obtain ⟨d, hd, h⟩ := ok_of_bind_ok h
      obtain ⟨_, -, h⟩ := ok_of_bind_ok h
      cases h
      show ReadFrom options (payloads m.data) (events d)
      rw [hm, payloads_some]
      exact ReadsPayloads.readFrom_of_read hd
    · cases h

instance : ReadsPayloads Transaction FlowAccess.Transaction where
  readFrom_of_read _ := nofun

/-! ## Outcomes -/

/-- The events that a client gives out: those of an answer, or of the blocks that it could read before
one that it could not. -/
def shown : Except ClientError (List FlowAccess.Event) → List FlowAccess.Event
  | .ok es => es
  | .error (.partialEvents p) => events p.decoded
  | .error _ => []

/-- How the events of a response are read, and from which payloads. -/
structure Reading (R : Type) where
  /-- The field of the request with the number of the encoding. -/
  field : Nat
  payloads : R → List Bytes
  /-- The events of a response, under the options of a reader. -/
  events : CodecOptions → R → Except ClientError (List FlowAccess.Event)
  readFrom (options : CodecOptions) (r : R) : ReadFrom options (payloads r) (shown (events options r))

namespace Reading

variable {R D : Type} [HoldsEvents D]

/-- The events of what is read. -/
def eventsOf (decode : R → Except DecodingError D) (r : R) :
    Except ClientError (List FlowAccess.Event) :=
  (Client.read decode r).map HoldsEvents.events

theorem readFrom_eventsOf {options : CodecOptions} {given : List Bytes}
    {decode : R → Except DecodingError D} {r : R}
    (h : ∀ d, decode r = .ok d → ReadFrom options given (HoldsEvents.events d)) :
    ReadFrom options given (shown (eventsOf decode r)) := by
  unfold eventsOf Client.read
  cases hd : decode r with
  | ok d => exact h d hd
  | error e => nofun

section

variable (W D : Type) [Carries W D] [HoldsPayloads W] [HoldsEvents D] [ReadsPayloads W D]

/-- The response is a message with events. -/
def bare (field : Nat) : Reading W where
  field
  payloads := HoldsPayloads.payloads
  events options := eventsOf (Carries.read options : W → Except DecodingError D)
  readFrom _ _ := readFrom_eventsOf fun _ => ReadsPayloads.readFrom_of_read

/-- The response holds such a message. -/
def held (name : String) (field : Nat) : Reading (Holder W) where
  field
  payloads r := HoldsPayloads.payloads r.content
  events options := eventsOf fun r => do
    (Carries.read options (← r.get name) : Except DecodingError D)
  readFrom options r := readFrom_eventsOf fun d h => by
    obtain ⟨m, hm, hd⟩ := ok_of_bind_ok h
    have hcontent : r.content = some m := by
      unfold Holder.get at hm
      split at hm
      · cases hm
        assumption
      · cases hm
    rw [hcontent, payloads_some]
    exact ReadsPayloads.readFrom_of_read hd

/-- The response lists such messages. -/
def listed (list : String) (field : Nat) : Reading (Listing W) where
  field
  payloads r := HoldsPayloads.payloads r.items
  events options := eventsOf fun r =>
    decodeList list (Carries.read options : W → Except DecodingError D) r.items
  readFrom _ _ := readFrom_eventsOf fun _ => readFrom_of_decodeList

end

/-- The blocks that could be read. -/
def blocksRead : Except PartialEvents (List FlowAccess.BlockEvents) → List FlowAccess.BlockEvents
  | .ok bs => bs
  | .error p => p.decoded

theorem mem_of_mem_blocksRead {read : BlockEvents → Except DecodingError FlowAccess.BlockEvents}
    {ms : List BlockEvents} {position : Nat} {b : FlowAccess.BlockEvents}
    (h : b ∈ blocksRead (decodeBlocksFrom read position ms)) : ∃ m ∈ ms, read m = .ok b := by
  induction ms generalizing position with
  | nil => cases h
  | cons m ms ih =>
    rw [decodeBlocksFrom] at h
    cases hm : read m with
    | error e =>
      rw [hm] at h
      cases h
    | ok c =>
      have hmem : b ∈ c :: blocksRead (decodeBlocksFrom read (position + 1) ms) := by
        rw [hm] at h
        dsimp only at h
        split at h
        · rename_i heq
          rw [heq]
          exact h
        · rename_i heq
          rw [heq]
          exact h
      rcases List.mem_cons.1 hmem with rfl | hb
      · exact ⟨m, .head _, hm⟩
      · obtain ⟨m', hm', hr⟩ := ih hb
        exact ⟨m', .tail _ hm', hr⟩

theorem shown_blocksRead (x : Except PartialEvents (List FlowAccess.BlockEvents)) :
    shown ((x.mapError .partialEvents).map HoldsEvents.events) =
      HoldsEvents.events (blocksRead x) := by
  cases x <;> rfl

/-- The response lists blocks of events, of which those before a failure are kept. -/
def blocks (field : Nat) : Reading (Listing BlockEvents) where
  field
  payloads r := HoldsPayloads.payloads r.items
  events options r := ((decodeBlocks (Carries.read options) r.items).mapError .partialEvents).map
    HoldsEvents.events
  readFrom _ _ := by
    rw [shown_blocksRead]
    exact readFrom_of_items (W := BlockEvents) fun _ => mem_of_mem_blocksRead

end Reading

/-! ## Requests -/

/-- The number in a field of a request. -/
def version? (field : Nat) (message : Bytes) : Option Nat := do
  let records ← records? [] maxNesting [] message
  Fields.varint? ⟨records, maxNesting⟩ field

theorem version?_writeRecords {records : List Record} (hp : AllPlain [] records)
    (hl : (writeRecords records).length < 2 ^ 64) (field : Nat) :
    version? field (writeRecords records) = Fields.varint? ⟨records, maxNesting⟩ field := by
  rw [version?, records?_writeRecords (by decide) hp (fits_of_length_lt hl)]
  rfl

@[simp] theorem allPlain_code {number : Nat} (h : IsFieldNumber number) (encoding : Encoding) :
    AllPlain [] (Record.ofNat number encoding.code) :=
  allPlain_ofNat h List.not_mem_nil (by cases encoding <;> decide)

/-- What is made of the response to a request that asks for an encoding. -/
def Rpc.reading? {R : Type} : Rpc R → Option (Reading R)
  | .getTransaction .. => some (.held Transaction FlowAccess.Transaction "transaction" 4)
  | .getTransactionResult .. => some (.bare TransactionResult FlowAccess.TransactionResult 4)
  | .getTransactionsByBlockId .. =>
    some (.listed Transaction FlowAccess.Transaction "transactions" 2)
  | .getTransactionResultsByBlockId .. =>
    some (.listed TransactionResult FlowAccess.TransactionResult "transaction_results" 2)
  | .getEventsForHeightRange .. => some (.blocks 4)
  | .getEventsForBlockIds .. => some (.blocks 3)
  | .getExecutionDataByBlockId .. =>
    some (.held ExecutionData FlowAccess.ExecutionData "block_execution_data" 2)
  | _ => none

/-- What is made of the messages of a stream. -/
def Feed.reading {R : Type} : Feed R → Reading R
  | .executionData .. => .bare SubscribedExecutionData ExecutionDataAt 3
  | .events .. => .bare SubscribedEvents FlowAccess.BlockEvents 5

/-- The encoding that a request asks for is in its message. -/
theorem Rpc.version?_message {R : Type} {rpc : Rpc R} {reading : Reading R} {encoding : Encoding}
    (hr : rpc.reading? = some reading) (he : rpc.encoding? = some encoding)
    (hl : rpc.message.length < 2 ^ 64) :
    version? reading.field rpc.message = some encoding.code := by
  cases rpc with
  | getTransaction | getTransactionResult | getTransactionsByBlockId
  | getTransactionResultsByBlockId | getEventsForHeightRange | getEventsForBlockIds
  | getExecutionDataByBlockId =>
    cases hr
    cases he
    rw [message, version?_writeRecords (by simp (disch := decide) [records]) hl]
    simp [records, Reading.held, Reading.bare, Reading.listed, Reading.blocks]
  | _ => cases hr

theorem Feed.version?_message {R : Type} (feed : Feed R) (hl : feed.message.length < 2 ^ 64) :
    version? feed.reading.field feed.message = some feed.encoding.code := by
  cases feed with
  | executionData start e | events start filter heartbeat e =>
    cases start with
    | block | height =>
      rw [message, version?_writeRecords (by simp (disch := decide) [records, Start.records]) hl]
      simp [records, reading, encoding, Start.records, Reading.bare]

end FlowAccess.Grpc
