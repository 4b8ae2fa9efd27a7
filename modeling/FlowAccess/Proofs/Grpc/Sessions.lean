import FlowAccess.Proofs.Grpc.Readings
import FlowAccess.Proofs.Subscription.History

/-!
# Sessions of a client

A client is used over and over, and in between its options change: it can be given others, or another
encoding alone. Streams that were opened under the old ones stay open, and their messages are
decoded by tasks of their own while all this happens. A `Session` is a client with its open streams
and the record of all exchanges.

The request of an exchange and the reading of its response are both made from the options of one
moment (`Client.negotiated_ask`), and a stream takes the options of this moment along
(`Client.negotiated_subscribe`), so that no later change gets between the two
(`Session.read_as_requested`).
-/

namespace FlowAccess

open Protobuf

/-- The events of an answer. -/
def Operation.events {α : Type} : Operation α → α → List Event
  | .transactionResult _, r => HoldsEvents.events r
  | .eventsForHeightRange _, bs => HoldsEvents.events bs
  | .eventsForBlockIds _ _, bs => HoldsEvents.events bs
  | _, _ => []

namespace Grpc

/-! ## Inquiries and topics -/

/-- What the client can be asked for a single answer. -/
inductive Inquiry : Type → Type 1 where
  | operation {α : Type} (op : Operation α) : Inquiry α
  | transactionsByBlockId (id : Identifier) : Inquiry (List FlowAccess.Transaction)
  | transactionResultsByBlockId (id : Identifier) : Inquiry (List FlowAccess.TransactionResult)
  | latestProtocolStateSnapshot : Inquiry Bytes
  | executionData (blockId : Identifier) : Inquiry FlowAccess.ExecutionData

/-- What the client can subscribe to. -/
inductive Topic : Type → Type where
  | executionData (start : Start) : Topic ExecutionDataAt
  | events (start : Start) (filter : FlowAccess.EventFilter) : Topic FlowAccess.BlockEvents

/-- The events of an answer. -/
def Inquiry.events {α : Type} : Inquiry α → α → List FlowAccess.Event
  | .operation op, a => op.events a
  | .transactionsByBlockId _, ts => HoldsEvents.events ts
  | .transactionResultsByBlockId _, rs => HoldsEvents.events rs
  | .executionData _, d => HoldsEvents.events d
  | _, _ => []

/-- The events of an item. -/
def Topic.eventsOf {α : Type} : Topic α → α → List FlowAccess.Event
  | .executionData _, d => HoldsEvents.events d
  | .events _ _, b => HoldsEvents.events b

namespace Client

def ask {α : Type} (c : Client) : Inquiry α → Call Rpc α
  | .operation op => c.call op
  | .transactionsByBlockId id => c.transactionsByBlockId id
  | .transactionResultsByBlockId id => c.transactionResultsByBlockId id
  | .latestProtocolStateSnapshot => latestProtocolStateSnapshot
  | .executionData blockId => c.executionData blockId

def subscribe {α : Type} (c : Client) (cancelled : Bool) : Topic α → Opening α
  | .executionData start => c.subscribeExecutionData start cancelled
  | .events start filter => c.subscribeEvents start filter cancelled

end Client

/-! ## Calls under options -/

/-- A call that asks for the encoding of the options, and reads the response under them; if it asks
for no encoding, no events come of it. -/
def Negotiated {α : Type} (options : CodecOptions) (eventsOf : α → List FlowAccess.Event) :
    Call Rpc α → Prop
  | .done _ => True
  | .ask request answer =>
    match request.reading? with
    | none => ∀ r, shown ((answer r).map eventsOf) = []
    | some reading => request.encoding? = some options.encoding ∧
      ∀ r, (answer r).map eventsOf = reading.events options r

theorem shown_map_read {R α : Type} (decode : R → Except DecodingError α) (r : R) :
    shown ((Client.read decode r).map fun _ => []) = [] := by
  unfold Client.read
  cases decode r <;> rfl

theorem negotiated_script {c : Client} {options : CodecOptions} {arguments : List Cadence.Value}
    {request : List Bytes → Rpc Blob} (hr : ∀ arguments, (request arguments).reading? = none) :
    Negotiated options (fun _ => []) (c.script arguments request) := by
  unfold Client.script
  split
  · trivial
  · rename_i arguments _
    rw [Negotiated, hr]
    intro r
    unfold decodeScriptValue
    cases Encoding.jsonCdc.decode c.options.values r.bytes <;> rfl

namespace Client

variable {c : Client} {α : Type}

theorem negotiated_call (op : Operation α) : Negotiated c.options op.events (c.call op) := by
  cases op with
  | ping | networkParameters => exact fun _ => rfl
  | nodeVersionInfo | latestBlockHeader | blockHeaderById | blockHeaderByHeight | latestBlock
  | blockById | blockByHeight | collection | sendTransaction | accountAtLatestBlock
  | accountAtBlockHeight | executionResult => exact shown_map_read _
  | scriptAtLatestBlock | scriptAtBlockId | scriptAtBlockHeight =>
    exact negotiated_script fun _ => rfl
  | transaction | transactionResult => exact ⟨rfl, fun _ => rfl⟩
  | eventsForHeightRange range =>
    rw [call]
    unfold Call.guarded
    split
    · trivial
    · exact ⟨rfl, fun _ => rfl⟩
  | eventsForBlockIds eventType ids =>
    rw [call]
    split
    · trivial
    · exact ⟨rfl, fun _ => rfl⟩

theorem negotiated_ask (inquiry : Inquiry α) :
    Negotiated c.options inquiry.events (c.ask inquiry) := by
  cases inquiry with
  | operation op => exact negotiated_call op
  | latestProtocolStateSnapshot => exact fun _ => rfl
  | transactionsByBlockId | transactionResultsByBlockId | executionData =>
    exact ⟨rfl, fun _ => rfl⟩

/-- What is asked for with a subscription is what its messages are decoded with. -/
theorem negotiated_subscribe {R : Type} {topic : Topic α} {cancelled : Bool} {feed : Feed R}
    {decode : R → Except ClientError α} (h : c.subscribe cancelled topic = .ask feed decode) :
    feed.encoding = c.options.encoding ∧
      ∀ m, (decode m).map topic.eventsOf = feed.reading.events c.options m := by
  cases topic with
  | executionData start =>
    rw [subscribe, subscribeExecutionData] at h
    split at h
    · cases h
    · cases h
      exact ⟨rfl, fun _ => rfl⟩
  | events start filter =>
    rw [subscribe, subscribeEvents] at h
    split at h
    · cases h
    · split at h
      · cases h
      · cases h
        exact ⟨rfl, fun _ => rfl⟩

end Client

/-! ## Agreement -/

/-- The payloads of a response are in the encoding that its request has asked for, in whatever sense
the node puts payloads in an encoding. -/
def Honoured {R : Type} (reading : Reading R) (message : Bytes) (response : R)
    (IsIn : Encoding → Bytes → Prop) : Prop :=
  ∀ encoding : Encoding, version? reading.field message = some encoding.code →
    ∀ p ∈ reading.payloads response, IsIn encoding p

/-- What is made of a response agrees with the request: the options that the response is read under
have the encoding that was asked for. If the node has honoured this, its events are in the encoding
that they say they are in. -/
structure Agrees {R : Type} (reading : Reading R) (message : Bytes) (options : CodecOptions)
    (response : R) (outcome : Except ClientError (List FlowAccess.Event)) : Prop where
  asked : version? reading.field message = some options.encoding.code
  outcome_eq : outcome = reading.events options response
  readFrom : ReadFrom options (reading.payloads response) (shown outcome)
  honoured : ∀ IsIn, Honoured reading message response IsIn →
    ∀ e ∈ shown outcome, IsIn e.encoding e.payload

theorem agrees {R : Type} {reading : Reading R} {message : Bytes} {options : CodecOptions}
    {response : R} {outcome : Except ClientError (List FlowAccess.Event)}
    (ha : version? reading.field message = some options.encoding.code)
    (ho : outcome = reading.events options response) :
    Agrees reading message options response outcome := by
  have hread : ReadFrom options (reading.payloads response) (shown outcome) :=
    ho ▸ reading.readFrom options response
  refine ⟨ha, ho, hread, fun IsIn hhonoured e he => ?_⟩
  obtain ⟨hencoding, hpayload⟩ := hread e he
  rw [hencoding]
  exact hhonoured options.encoding ha e.payload hpayload

/-! ## Exchanges -/

/-- A request and its response, and what the client has made of it. -/
structure Exchange where
  {Response : Type}
  {Answer : Type}
  inquiry : Inquiry Answer
  request : Rpc Response
  response : Response
  answer : Except ClientError Answer

namespace Exchange

/-- What the client has made of the events of the response. -/
def outcome (x : Exchange) : Except ClientError (List FlowAccess.Event) :=
  x.answer.map x.inquiry.events

/-- The response was read as it was asked for; without a number of an encoding in the request, there
are no events. -/
def ReadAsRequested (x : Exchange) : Prop :=
  match x.request.reading? with
  | none => shown x.outcome = []
  | some reading => ∃ options, Agrees reading x.request.message options x.response x.outcome

end Exchange

/-! ## Streams -/

/-- A stream that was opened, with all that it delivers sooner or later, and what has become of it. -/
structure Stream where
  {Response : Type}
  {Item : Type}
  topic : Topic Item
  feed : Feed Response
  decode : Response → Except ClientError Item
  script : List (Except TransportError Response)
  history : Subscription.History Response Item

namespace Stream

/-- The stream after an action of its task or its consumer, if that can happen. -/
def act (t : Stream) (a : Subscription.Action) : Stream :=
  match t.history.act t.decode a with
  | some history => { t with history }
  | none => t

/-- Every message of the stream is decoded as it was asked for, and so was every item that has come
of one. -/
def ReadAsRequested (t : Stream) : Prop :=
  ∃ options, (∀ m, Agrees t.feed.reading t.feed.message options m
      ((t.decode m).map t.topic.eventsOf)) ∧
    ∀ item ∈ t.history.sent, ∃ m, .ok m ∈ t.script ∧
      Agrees t.feed.reading t.feed.message options m (.ok (t.topic.eventsOf item))

end Stream

/-! ## Sessions -/

structure Session where
  client : Client
  /-- The length of the longest message that is sent or received. -/
  limit : UInt64
  exchanges : List Exchange := []
  streams : List Stream := []

/-- What may happen next. A node's reply is all that the node ever sends to a request. -/
inductive Action : Type 1 where
  | withOptions (options : CodecOptions)
  | setEncoding (encoding : Encoding)
  | withHeartbeat (blocks : UInt64)
  | ask {α : Type} (inquiry : Inquiry α) (reply : Reply)
  | subscribe {α : Type} (topic : Topic α) (cancelled held : Bool) (reply : Reply)
  /-- Something happens to the stream that was opened at a place. -/
  | stream (place : Nat) (action : Subscription.Action)

namespace Session

/-- Sends a request and reads the response, if there is one. -/
def ask {α : Type} (s : Session) (inquiry : Inquiry α) (reply : Reply) : Session :=
  match s.client.ask inquiry with
  | .done _ => s
  | .ask request answer =>
    if s.limit.toNat < request.message.length then s
    else
      match reply.unary s.limit.toNat request.decode? with
      | .error _ => s
      | .ok response =>
        let answer := answer response
        { s with exchanges := s.exchanges ++ [{ inquiry, request, response, answer }] }

/-- Opens a stream. -/
def subscribe {α : Type} (s : Session) (topic : Topic α) (cancelled held : Bool) (reply : Reply) :
    Session :=
  match s.client.subscribe cancelled topic with
  | .refused _ | .cancelled => s
  | .ask feed decode =>
    if s.limit.toNat < feed.message.length then s
    else
      let script := reply.stream s.limit.toNat feed.decode?
      let history := .start script held false
      { s with streams := s.streams ++ [{ topic, feed, decode, script, history }] }

def step (s : Session) : Action → Session
  | .withOptions options => { s with client := { s.client with options } }
  | .setEncoding encoding => { s with client := s.client.setEncoding encoding }
  | .withHeartbeat blocks => { s with client := { s.client with heartbeat := blocks } }
  | .ask inquiry reply => s.ask inquiry reply
  | .subscribe topic cancelled held reply => s.subscribe topic cancelled held reply
  | .stream place action => { s with streams := s.streams.modify place (·.act action) }

def run (s : Session) (actions : List Action) : Session := actions.foldl step s

end Session

/-! ## The invariant -/

theorem Exchange.readAsRequested_of_negotiated {R α : Type} {options : CodecOptions}
    {inquiry : Inquiry α} {request : Rpc R} {answer : R → Except ClientError α}
    (hn : Negotiated options inquiry.events (.ask request answer))
    (hl : request.message.length < 2 ^ 64) (response : R) :
    ReadAsRequested { inquiry, request, response, answer := answer response } := by
  rw [Negotiated] at hn
  unfold ReadAsRequested
  dsimp only
  split
  · rename_i hr
    rw [hr] at hn
    exact hn response
  · rename_i reading hr
    rw [hr] at hn
    obtain ⟨hencoding, houtcome⟩ := hn
    exact ⟨options, agrees (Rpc.version?_message hr hencoding hl) (houtcome response)⟩

namespace Stream

/-- What holds of every stream of a session: it is decoded under options whose encoding was asked
for, and what has come of it has come of its script. -/
structure Sound (t : Stream) : Prop where
  decoded : ∃ options, ∀ m, Agrees t.feed.reading t.feed.message options m
    ((t.decode m).map t.topic.eventsOf)
  faithful : t.history.Faithful t.decode t.script

theorem sound_of_subscribe {R α : Type} {c : Client} {topic : Topic α} {cancelled : Bool}
    {feed : Feed R} {decode : R → Except ClientError α}
    (h : c.subscribe cancelled topic = .ask feed decode) (hl : feed.message.length < 2 ^ 64)
    (script : List (Except TransportError R)) (held : Bool) :
    Sound { topic, feed, decode, script, history := .start script held false } where
  decoded := by
    obtain ⟨hencoding, hdecode⟩ := Client.negotiated_subscribe h
    have hversion := feed.version?_message hl
    rw [hencoding] at hversion
    exact ⟨c.options, fun m => agrees hversion (hdecode m)⟩
  faithful := Subscription.History.faithful_start decode script held false

variable {t : Stream}

theorem Sound.act (h : t.Sound) (a : Subscription.Action) : (t.act a).Sound := by
  unfold Stream.act
  split
  · exact ⟨h.decoded, h.faithful.act ‹_›⟩
  · exact h

theorem Sound.readAsRequested (h : t.Sound) : t.ReadAsRequested := by
  obtain ⟨options, hdecode⟩ := h.decoded
  refine ⟨options, hdecode, fun item hi => ?_⟩
  have hsent : Except.ok item ∈
      (t.script.take t.history.sent.length).map (Subscription.outcome t.decode) := by
    rw [h.faithful.sent_eq]
    exact List.mem_map_of_mem hi
  obtain ⟨entry, hentry, ho⟩ := List.mem_map.1 hsent
  cases entry with
  | error e => cases ho
  | ok m =>
    have hm := hdecode m
    have hd : t.decode m = .ok item := ho
    rw [hd] at hm
    exact ⟨m, List.mem_of_mem_take hentry, hm⟩

end Stream

namespace Session

/-- What holds of every session. -/
structure Sound (s : Session) : Prop where
  exchanges : ∀ x ∈ s.exchanges, x.ReadAsRequested
  streams : ∀ t ∈ s.streams, t.Sound

variable {s : Session} {α : Type}

theorem length_lt {message : Bytes} (h : ¬s.limit.toNat < message.length) :
    message.length < 2 ^ 64 :=
  Nat.lt_of_le_of_lt (Nat.le_of_not_lt h) s.limit.toNat_lt

theorem Sound.ask (h : s.Sound) (inquiry : Inquiry α) (reply : Reply) :
    (s.ask inquiry reply).Sound := by
  have hn := s.client.negotiated_ask inquiry
  unfold Session.ask
  cases hc : s.client.ask inquiry with
  | done answer => exact h
  | ask request answer =>
    rw [hc] at hn
    dsimp only
    split
    · exact h
    rename_i hl
    split
    · exact h
    rename_i response _
    have hx := Exchange.readAsRequested_of_negotiated hn (length_lt hl) response
    exact ⟨List.forall_mem_append.2 ⟨h.exchanges, List.forall_mem_singleton.2 hx⟩, h.streams⟩

theorem Sound.subscribe (h : s.Sound) (topic : Topic α) (cancelled held : Bool) (reply : Reply) :
    (s.subscribe topic cancelled held reply).Sound := by
  unfold Session.subscribe
  split
  · exact h
  · exact h
  · rename_i feed decode hc
    split
    · exact h
    rename_i hl
    have ht := Stream.sound_of_subscribe hc (length_lt hl)
      (reply.stream s.limit.toNat feed.decode?) held
    exact ⟨h.exchanges, List.forall_mem_append.2 ⟨h.streams, List.forall_mem_singleton.2 ht⟩⟩

theorem Sound.actAt (h : s.Sound) (place : Nat) (action : Subscription.Action) :
    ∀ t ∈ s.streams.modify place (·.act action), t.Sound := by
  intro t ht
  obtain ⟨j, hj, rfl⟩ := List.mem_iff_getElem.1 ht
  have hsound := h.streams _ (List.getElem_mem (by rwa [List.length_modify] at hj))
  rw [List.getElem_modify]
  split
  · exact hsound.act action
  · exact hsound

theorem Sound.step (h : s.Sound) (a : Action) : (s.step a).Sound := by
  cases a with
  | withOptions | setEncoding | withHeartbeat => exact ⟨h.exchanges, h.streams⟩
  | ask inquiry reply => exact h.ask inquiry reply
  | subscribe topic cancelled held reply => exact h.subscribe topic cancelled held reply
  | stream place action => exact ⟨h.exchanges, h.actAt place action⟩

theorem Sound.run (h : s.Sound) (actions : List Action) : (s.run actions).Sound := by
  induction actions generalizing s with
  | nil => exact h
  | cons a actions ih => exact ih (h.step a)

/-- However the options of a client change from request to request, and while streams are open:
every response, and every message of every stream, is read under options whose encoding has the
number that its request has sent. -/
theorem read_as_requested (client : Client) (limit : UInt64) (actions : List Action) :
    (∀ x ∈ (run { client, limit } actions).exchanges, x.ReadAsRequested) ∧
      ∀ t ∈ (run { client, limit } actions).streams, t.ReadAsRequested := by
  have h : Sound { client, limit } := ⟨List.forall_mem_nil _, List.forall_mem_nil _⟩
  have hrun := h.run actions
  exact ⟨hrun.exchanges, fun t ht => (hrun.streams t ht).readAsRequested⟩

/-- Two streams of an event each. The second is opened under another encoding, before the first has
delivered anything. -/
def overlapping : List Action :=
  let block : BlockEvents :=
    { blockId := .replicate 32 9, blockTimestamp := some {}
      events := [{ transactionId := .replicate 32 7 }] }
  let message : SubscribedEvents := { block }
  let reply : Reply := { messages := [encode message] }
  let events : Topic FlowAccess.BlockEvents := .events (.height 12) default
  [.withOptions { encoding := .jsonCdc, eager := false }, .subscribe events false true reply,
    .setEncoding .ccf, .subscribe events false true reply] ++
    .replicate 4 (.stream 1 .task) ++ .replicate 4 (.stream 0 .task)

/-- Each stream keeps the encoding that it was opened under. -/
theorem read_as_requested_overlapping :
    (run { client := { options := {} }, limit := 1000 } overlapping).streams.map
        (fun t => (t.history.sent.flatMap t.topic.eventsOf).map (·.encoding)) =
      [[.jsonCdc], [.ccf]] ∧
    ∀ t ∈ (run { client := { options := {} }, limit := 1000 } overlapping).streams,
      t.ReadAsRequested := by
  refine ⟨by decide +kernel, fun t ht => ?_⟩
  exact (read_as_requested { options := {} } 1000 overlapping).2 t ht

end Session

end Grpc
end FlowAccess
