import FlowAccess.Proofs.Client.Answers
import FlowAccess.Proofs.JsonCdc.RoundTrip

/-!
# Both transports give the same answers

Whoever asks a node by way of its procedures and whoever asks for its documents are told the same
(`clients_agree`): the same data, the same values of scripts, and the same words for what is not
known. Operations that are settled without a node are settled alike.
-/

namespace FlowAccess

open Cadence Text

/-! ## Replies -/

theorem Grpc.Reply.unary_notFound {R : Type} (limit : Nat) (decode? : Bytes → Option R)
    (text : String) : unary limit decode? { status := .notFound, text } =
      .error { code := .notFound, message := text } := rfl

namespace Rest

open Json

/-- The document with which a node reports that it knows of nothing. -/
def Failure.notFound (text : String) : Failure := { code := 404, message := text }

theorem Failure.document?_render_notFound (text : String) :
    document? (Document.toJson (notFound text)).render = some (notFound text) := by
  have hplain : (Document.toJson (notFound text)).Plain :=
    plain_ofMembers (by simpa [notFound] using plain_uint32 404)
  have hcode : (node (.number (.integer 404))).natBelow? UInt16.size = some 404 :=
    natBelow?_node (n := 404) (by decide)
  rw [document?, parse?_render_node hplain, Option.bind_some]
  exact ofNode?_bind (by simp (disch := decide) [Entries.ofList, hcode, notFound])

theorem Reply.read_notFound {R : Type} (base : String) (q : Query R) {text : String}
    (h : text ≠ "") :
    read base q (.response 404 (Document.toJson (Failure.notFound text)).render) =
      .error (.ofHttp 404 (base ++ q.path) text) := by
  have htext : failureText (Document.toJson (Failure.notFound text)).render = text := by
    rw [failureText, Failure.document?_render_notFound]
    exact if_neg h
  rw [read, htext]
  exact if_neg (by decide)

end Rest

/-! ## Agreement -/

/-- The two clients cannot be told apart by their answers. -/
structure ClientsAgree (node : AccessNode) (g : Grpc.Client) (r : Rest.Client) : Prop where
  /-- What the node knows is answered, and received as it is. -/
  answers {α : Type} (op : Operation α) : op.WantsData → op.settled? = none → ∀ d,
    node.answer op = .ok d → op.Representable g.options d → op.Representable r.options d →
      g.answerOf node op = .ok (op.readBy g.options d) ∧
      r.answerOf node op = .ok (op.readBy r.options d) ∧
      op.received (op.readBy g.options d) = op.received d ∧
      op.received (op.readBy r.options d) = op.received d
  notFound {α : Type} (op : Operation α) : op.WantsData → op.settled? = none → ∀ text,
    node.answer op = .error text →
      SaysNotFound text (g.answerOf node op) ∧ SaysNotFound text (r.answerOf node op)
  /-- The same script is sent with the same arguments, in base 64 by one of the clients. -/
  scripts (state : ScriptState) (code : Bytes) (arguments : List Value) : ∀ sent,
    encodeArguments arguments = .ok sent → ∃ body read read',
      g.call (state.operation code arguments) = .ask (state.rpc code sent) read ∧
      r.call (state.operation code arguments) = .ask (state.query body) read' ∧
      Base64.decode? body.script = some code ∧ body.arguments.mapM Base64.decode? = some sent
  /-- Both clients make the same of any value, a failure if it is none. -/
  values (state : ScriptState) (code : Bytes) (arguments : List Value) : ∀ sent,
    encodeArguments arguments = .ok sent → ∀ value, node.run state code sent = .ok value →
      g.answerOf node (state.operation code arguments) = decodeScriptValue g.options value ∧
      r.answerOf node (state.operation code arguments) = decodeScriptValue g.options value
  noValue (state : ScriptState) (code : Bytes) (arguments : List Value) : ∀ sent,
    encodeArguments arguments = .ok sent → ∀ text, node.run state code sent = .error text →
      SaysNotFound text (g.answerOf node (state.operation code arguments)) ∧
      SaysNotFound text (r.answerOf node (state.operation code arguments))
  /-- What is settled without the node is settled alike. -/
  settled {α : Type} (op : Operation α) : ∀ a, op.settled? = some a →
    g.call op = .done a ∧ r.call op = .done a
  /-- That something was not found is what the status and the words of a reply are read as. -/
  status {R : Type} (limit : Nat) (decode? : Bytes → Option R) (text : String) :
    Grpc.Reply.unary limit decode? { status := .notFound, text } =
      .error { code := .notFound, message := text }
  httpStatus {R : Type} (q : Rest.Query R) (text : String) : text ≠ "" →
    Rest.Reply.read r.base q
        (.response 404 (Json.Document.toJson (Rest.Failure.notFound text)).render) =
      .error (.ofHttp 404 (r.base ++ q.path) text)

/-- The clients of both transports agree if they read payloads with the same options, whether or not
they do so at once. -/
theorem clients_agree (node : AccessNode) (g : Grpc.Client) (r : Rest.Client)
    (h : g.options = { r.options with eager := g.options.eager }) : ClientsAgree node g r where
  answers op hop hn d hd hg hr :=
    ⟨(Grpc.Client.gets node hop hn).answerFrom_eq_ok hd hg,
      (Rest.Client.gets node hop hn).answerFrom_eq_ok hd hr,
      op.received_readBy g.options d, op.received_readBy r.options d⟩
  notFound op hop hn text ht :=
    ⟨(Grpc.Client.gets node hop hn).saysNotFound ht, (Rest.Client.gets node hop hn).saysNotFound ht⟩
  scripts state code arguments sent hs := by
    refine ⟨_, _, _, Grpc.Client.call_script hs, Rest.Client.call_script hs,
      Base64.decode?_encode code, ?_⟩
    exact mapM_map_eq_pure fun bytes _ => Base64.decode?_encode bytes
  values state code arguments sent hs value hv := by
    rw [Grpc.Client.answerOf, Grpc.Client.call_script hs, Call.answerFrom, Grpc.serve_script, hv,
      Rest.Client.answerOf, Rest.Client.call_script hs, Call.answerFrom, Rest.serve_script, hv]
    refine ⟨rfl, (Rest.Client.scriptValue_encode value).trans ?_⟩
    rw [h]
    rfl
  noValue state code arguments sent hs text ht := by
    rw [Grpc.Client.answerOf, Grpc.Client.call_script hs, Call.answerFrom, Grpc.serve_script, ht,
      Rest.Client.answerOf, Rest.Client.call_script hs, Call.answerFrom, Rest.serve_script, ht]
    exact ⟨saysNotFound_transport rfl rfl, saysNotFound_transport rfl rfl⟩
  settled op a := op.call_of_settled
  status := Grpc.Reply.unary_notFound
  httpStatus q _ := Rest.Reply.read_notFound r.base q

/-- The events of a block, which are one with a truth value. -/
def truthEvents (height : UInt64) (b : Bool) : BlockEvents where
  blockId := .ofNat 32 height.toNat
  height
  timestamp := ⟨1483228799, 0, by decide⟩
  events :=
    [{ eventType := "A.0000000000000001.Token.Paused", transactionId := .ofNat 32 7
       transactionIndex := 0, eventIndex := 0, encoding := .jsonCdc
       payload := JsonCdc.encode (.bool b) }]

theorem decode_truth (options : ValueOptions) (b : Bool) :
    Encoding.jsonCdc.decode options (JsonCdc.encode (.bool b)) = .ok (.bool b) :=
  JsonCdc.decode_encode_eq_ok_iff.2 ⟨⟨trivial, by decide +revert⟩, rfl⟩

theorem representable_truthEvents {options : CodecOptions} (h : options.encoding = .jsonCdc)
    (height : UInt64) (b : Bool) :
    Entity.blockEvents.Carriable options (truthEvents height b) ∧
      Entity.blockEvents.HasPlainYears (truthEvents height b) := by
  constructor
  · intro e he
    cases List.mem_singleton.1 he
    refine ⟨h.symm, fun _ => ⟨.bool b, ?_⟩⟩
    rw [h]
    exact decode_truth options.values b
  · show Timestamp.HasPlainYear ⟨1483228799, 0, _⟩
    decide

/-- A node that knows of events in two blocks, of which it lists the later one first. Scripts have
the value of their argument there. -/
def eventfulNode : AccessNode where
  answer
    | .eventsForHeightRange _ => .ok [truthEvents 8 true, truthEvents 7 false]
    | _ => .error "nothing is known of it"
  run _ _ arguments :=
    match arguments with
    | [argument] => .ok argument
    | _ => .error "a script has one argument"
  besides _ := none

/-- The two blocks with events. -/
def tokenRange : EventRange where
  eventType := "A.0000000000000001.Token.Paused"
  start := 7
  stop := 8

/-- A client that decodes no payload. -/
def lazyRpcs : Grpc.Client := { options := { encoding := .jsonCdc, eager := false } }

/-- A client that decodes all payloads. -/
def eagerQueries : Rest.Client := { base := "http://node/v1" }

/-- Both blocks are received in the order in which they are listed, by a client that decodes no
payload and by one that decodes them all. The value of a script reaches both. -/
theorem clients_agree_on_events :
    (∃ blocks blocks' : List BlockEvents,
      lazyRpcs.answerOf eventfulNode (.eventsForHeightRange tokenRange) = .ok blocks ∧
      eagerQueries.answerOf eventfulNode (.eventsForHeightRange tokenRange) = .ok blocks' ∧
      blocks.map BlockEvents.received = blocks'.map BlockEvents.received ∧
      blocks.map (·.height) = [8, 7] ∧
      (blocks.flatMap (·.events)).map (·.isDecoded) = [false, false] ∧
      (blocks'.flatMap (·.events)).map (·.isDecoded) = [true, true]) ∧
    lazyRpcs.answerOf eventfulNode (.scriptAtLatestBlock [0x66] [.bool true]) =
      .ok (.bool true) ∧
    eagerQueries.answerOf eventfulNode (.scriptAtLatestBlock [0x66] [.bool true]) =
      .ok (.bool true) ∧
    SaysNotFound "nothing is known of it"
      (lazyRpcs.answerOf eventfulNode (.collection (.ofNat 32 3))) ∧
    SaysNotFound "nothing is known of it"
      (eagerQueries.answerOf eventfulNode (.collection (.ofNat 32 3))) := by
  have hagree := clients_agree eventfulNode lazyRpcs eagerQueries rfl
  have hrepresentable {options : CodecOptions} (h : options.encoding = .jsonCdc) :
      ∀ b ∈ [truthEvents 8 true, truthEvents 7 false],
        Entity.blockEvents.Carriable options b ∧ Entity.blockEvents.HasPlainYears b := by
    refine List.forall_mem_cons.2 ⟨representable_truthEvents h 8 true, ?_⟩
    exact List.forall_mem_singleton.2 (representable_truthEvents h 7 false)
  refine ⟨?_, ?_⟩
  · obtain ⟨hg, hr, hsame, hsame'⟩ :=
      hagree.answers (.eventsForHeightRange tokenRange) trivial rfl _ rfl (hrepresentable rfl)
        (hrepresentable rfl)
    exact ⟨_, _, hg, hr, hsame.trans hsame'.symm, rfl, rfl, by decide +kernel⟩
  · obtain ⟨hg, hr⟩ := hagree.values .latest [0x66] [.bool true] _ rfl _ rfl
    have htruth : decodeScriptValue {} (JsonCdc.encode (.bool true)) = .ok (.bool true) := by
      rw [decodeScriptValue, decode_truth]
      rfl
    obtain ⟨hng, hnr⟩ := hagree.notFound (.collection (.ofNat 32 3)) trivial rfl _ rfl
    exact ⟨hg.trans htruth, hr.trans htruth, hng, hnr⟩

/-- A node that knows of no events. -/
def quietNode : AccessNode where
  answer
    | .eventsForHeightRange _ => .ok []
    | _ => .error "nothing is known of it"
  run _ _ _ := .ok []
  besides _ := none

/-- A range of heights that counts as none. -/
def missingRange : EventRange where
  eventType := "A.0000000000000001.Token.Minted"
  start := 0
  stop := 0

/-- The clients do not ask for a range that is missing, whatever the node would answer. -/
theorem clients_refuse_missing_range :
    quietNode.answer (.eventsForHeightRange missingRange) = .ok [] ∧
    (Operation.eventsForHeightRange missingRange).Representable { encoding := .jsonCdc } [] ∧
    Grpc.Client.answerOf { options := { encoding := .jsonCdc } } quietNode
      (.eventsForHeightRange missingRange) = .error (.invalidRange .missing) ∧
    Rest.Client.answerOf { base := "http://node/v1" } quietNode
      (.eventsForHeightRange missingRange) = .error (.invalidRange .missing) := by
  have hsettled : (Operation.eventsForHeightRange missingRange).settled? =
      some (.error (.invalidRange .missing)) := by
    rw [Operation.settled?, show missingRange.fault? = some .missing by decide]
    rfl
  obtain ⟨hg, hr⟩ := Operation.call_of_settled hsettled
  refine ⟨rfl, List.forall_mem_nil _, ?_, ?_⟩
  · rw [Grpc.Client.answerOf, hg, Call.answerFrom]
  · rw [Rest.Client.answerOf, hr, Call.answerFrom]

end FlowAccess
