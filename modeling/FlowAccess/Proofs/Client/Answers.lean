import FlowAccess.Proofs.Client.Node
import FlowAccess.Proofs.Wires

/-!
# What clients make of a node's answers

For every operation, each client makes the request by which a node can tell the operation, and reads
what the node writes of its answer (`Grpc.Client.gets`, `Rest.Client.gets`). Which operations a
client settles without a node does not depend on the transport (`Operation.call_of_settled`).
-/

namespace FlowAccess

open Cadence Text

namespace Operation

variable {α : Type}

/-- Operations that are answered with data of the chain. -/
def WantsData : Operation α → Prop
  | ping | scriptAtLatestBlock .. | scriptAtBlockId .. | scriptAtBlockHeight .. => False
  | _ => True

/-- The answer to an operation for which no node has to be asked: one that is refused at once, or
one about no blocks at all. -/
def settled? : Operation α → Option (Except ClientError α)
  | eventsForHeightRange range => range.fault?.map fun fault => .error (.invalidRange fault)
  | eventsForBlockIds _ ids => if ids = [] then some (.ok []) else none
  | scriptAtLatestBlock _ arguments => refused? (encodeArguments arguments)
  | scriptAtBlockId _ _ arguments => refused? (encodeArguments arguments)
  | scriptAtBlockHeight _ _ arguments => refused? (encodeArguments arguments)
  | _ => none
where
  refused? {β γ : Type} : Except ClientError β → Option (Except ClientError γ)
    | .error e => some (.error e)
    | .ok _ => none

theorem ids_ne_nil {eventType : String} {ids : List Identifier}
    (h : (eventsForBlockIds eventType ids).settled? = none) : ids ≠ [] := by
  rintro rfl
  cases h

/-- Whether the wires have forms for an answer. -/
def Representable (options : CodecOptions) : Operation α → α → Prop
  | latestBlockHeader _, h => Entity.blockHeader.HasPlainYears h
  | blockHeaderById _, h => Entity.blockHeader.HasPlainYears h
  | blockHeaderByHeight _, h => Entity.blockHeader.HasPlainYears h
  | latestBlock _, b => Entity.block.HasPlainYears b
  | blockById _, b => Entity.block.HasPlainYears b
  | blockByHeight _, b => Entity.block.HasPlainYears b
  | transactionResult _, r => Entity.transactionResult.Carriable options r
  | accountAtLatestBlock _, a => Entity.account.HasNarrowNumbers a
  | accountAtBlockHeight _ _, a => Entity.account.HasNarrowNumbers a
  | eventsForHeightRange _, bs =>
    ∀ b ∈ bs, Entity.blockEvents.Carriable options b ∧ Entity.blockEvents.HasPlainYears b
  | eventsForBlockIds _ _, bs =>
    ∀ b ∈ bs, Entity.blockEvents.Carriable options b ∧ Entity.blockEvents.HasPlainYears b
  | executionResult _, r => Entity.executionResult.Carriable options r
  | _, _ => True

/-- An answer as it is read: its events have the options of the reader. -/
def readBy (options : CodecOptions) : Operation α → α → α
  | transactionResult _, r => TransactionResult.readBy options r
  | eventsForHeightRange _, bs => List.map (BlockEvents.readBy options) bs
  | eventsForBlockIds _ _, bs => List.map (BlockEvents.readBy options) bs
  | _, d => d

/-- What is received of an answer, which is what counts when answers are compared. -/
def received : Operation α → α → α
  | transactionResult _, r => TransactionResult.received r
  | eventsForHeightRange _, bs => List.map BlockEvents.received bs
  | eventsForBlockIds _ _, bs => List.map BlockEvents.received bs
  | _, d => d

theorem received_readBy (options : CodecOptions) (op : Operation α) (d : α) :
    op.received (op.readBy options d) = op.received d := by
  cases op with
  | transactionResult => exact TransactionResult.received_readBy options d
  | eventsForHeightRange | eventsForBlockIds =>
    simp [received, readBy, Function.comp_def]
  | _ => rfl

end Operation

/-! ## Calls -/

/-- The failure is that something was not found, in the node's words. -/
def SaysNotFound {α : Type} (text : String) (answer : Except ClientError α) : Prop :=
  ∃ e, answer = .error e ∧ e.isNotFound ∧ e.message = text

theorem saysNotFound_transport {α : Type} {e : TransportError} {text : String}
    (hcode : e.code = .notFound) (hmessage : e.message = text) :
    SaysNotFound text (.error (.transport e) : Except ClientError α) :=
  ⟨.transport e, rfl, by simp [ClientError.isNotFound, ClientError.code?, hcode], hmessage⟩

/-- A call gets what a node knows if the node is asked for that, and if the client reads what is
written of it. -/
inductive Call.Gets {Request : Type → Type} {α : Type}
    (serve : {R : Type} → Request R → Except TransportError R) (known : Except String α)
    (Representable : α → Prop) (readBy : α → α) : Call Request α → Prop
  | ask {R : Type} {request : Request R} {answer : R → Except ClientError α}
    {write : α → Except EncodingError R} {unwritable unknown : String → TransportError}
    (hserve : serve request = respond unwritable unknown write known)
    (hunknown : ∀ text, (unknown text).code = .notFound ∧ (unknown text).message = text)
    (hread : ∀ d, Representable d → ∃ r, write d = .ok r ∧ answer r = .ok (readBy d)) :
    Gets serve known Representable readBy (.ask request answer)

namespace Call.Gets

variable {Request : Type → Type} {α : Type} {call : Call Request α}
  {serve : {R : Type} → Request R → Except TransportError R} {known : Except String α}
  {Representable : α → Prop} {readBy : α → α}

theorem answerFrom_eq_ok (h : call.Gets (@serve) known Representable readBy) {d : α}
    (hd : known = .ok d) (hr : Representable d) : call.answerFrom serve = .ok (readBy d) := by
  obtain ⟨hserve, -, hread⟩ := h
  obtain ⟨r, hw, ha⟩ := hread d hr
  rw [Call.answerFrom, hserve, hd, respond, hw]
  exact ha

theorem saysNotFound (h : call.Gets (@serve) known Representable readBy) {text : String}
    (ht : known = .error text) : SaysNotFound text (call.answerFrom serve) := by
  obtain ⟨hserve, hunknown, -⟩ := h
  obtain ⟨hcode, hmessage⟩ := hunknown text
  rw [Call.answerFrom, hserve, ht]
  exact saysNotFound_transport hcode hmessage

end Call.Gets

/-! ## Procedures -/

/-- What is written and can be read back is read back by a client, which only renames failures. -/
theorem exists_read {D R E ε ε' : Type} {d : D} {d' : E} {write : D → Except EncodingError R}
    {decode : R → Except ε E} {rename : ε → ε'} (h : ∃ r, write d = .ok r ∧ decode r = .ok d') :
    ∃ r, write d = .ok r ∧ (decode r).mapError rename = .ok d' := by
  simp only [mapError_eq_ok_iff]
  exact h

namespace Grpc

theorem exists_hold {W D E : Type} [Carries W D] {options : CodecOptions} {d : D} {d' : E}
    {decode : W → Except DecodingError E} {field : String}
    (h : ∃ m : W, Carries.write options d = .ok m ∧ decode m = .ok d') :
    ∃ r : Holder W, hold options d = .ok r ∧
      Client.read (fun r => do decode (← r.get field)) r = .ok d' := by
  obtain ⟨m, hw, hr⟩ := exists_read h
  refine ⟨⟨some m⟩, ?_, hr⟩
  rw [hold, hw]
  rfl

theorem Client.exists_readEvents {c : Client} {bs : List FlowAccess.BlockEvents}
    (h : ∀ b ∈ bs, Entity.blockEvents.Carriable c.options b) :
    ∃ r : Listing BlockEvents, enlist { encoding := c.options.encoding } bs = .ok r ∧
      c.readEvents r = .ok (bs.map (.readBy c.options)) := by
  obtain ⟨ms, hms, hbs⟩ : ∃ ms, bs.mapM (BlockEvents.ofDomain c.options) = .ok ms ∧
      decodeBlocks (BlockEvents.toDomain c.options) ms = .ok (bs.map (.readBy c.options)) :=
    exists_mapM_decodeBlocks fun b hb => BlockEvents.exists_ofDomain (h b hb)
  refine ⟨⟨ms⟩, ?_, mapError_eq_ok_iff.2 hbs⟩
  -- the request asks for the encoding with which the client reads
  show (do return ({ items := ← bs.mapM (BlockEvents.ofDomain c.options) } : Listing _)) = _
  rw [hms]
  rfl

variable {c : Client} {α : Type} {op : Operation α} (node : AccessNode)

theorem Client.gets_of_ask {R : Type} {rpc : Rpc R} {answer : R → Except ClientError α}
    {write : α → Except EncodingError R} (hcall : c.call op = .ask rpc answer)
    (hserve : serve node rpc = respond write (node.answer op))
    (hread : ∀ d, op.Representable c.options d →
      ∃ r, write d = .ok r ∧ answer r = .ok (op.readBy c.options d)) :
    (c.call op).Gets (serve node) (node.answer op) (op.Representable c.options)
      (op.readBy c.options) := by
  rw [hcall]
  exact .ask hserve (fun _ => ⟨rfl, rfl⟩) hread

/-- The client asks for what it is asked for, and understands what the node writes of it. -/
theorem Client.gets (hop : op.WantsData) (hn : op.settled? = none) :
    (c.call op).Gets (serve node) (node.answer op) (op.Representable c.options)
      (op.readBy c.options) := by
  cases op with
  | ping | scriptAtLatestBlock | scriptAtBlockId | scriptAtBlockHeight => exact hop.elim
  | nodeVersionInfo =>
    exact gets_of_ask node rfl rfl fun _ _ =>
      exists_hold (Entity.exists_message (k := .nodeVersionInfo) trivial trivial)
  | networkParameters => exact gets_of_ask node rfl rfl fun _ _ => ⟨_, rfl, rfl⟩
  | latestBlockHeader | blockHeaderById | blockHeaderByHeight =>
    exact gets_of_ask node rfl rfl fun _ _ =>
      exists_hold (Entity.exists_message (k := .blockHeader) trivial trivial)
  | latestBlock | blockById | blockByHeight =>
    exact gets_of_ask node rfl rfl fun _ _ =>
      exists_hold (Entity.exists_message (k := .block) trivial trivial)
  | collection =>
    exact gets_of_ask node rfl rfl fun _ _ =>
      exists_hold (Entity.exists_message (k := .collection) trivial trivial)
  | sendTransaction t =>
    have hserve : serve node (.sendTransaction (.ofDomain t)) =
        respond (fun id => .ok { bytes := id.bytes }) (node.answer (.sendTransaction t)) := by
      rw [serve, Transaction.toDomain_ofDomain]
    exact gets_of_ask node rfl hserve fun id _ =>
      exists_read ⟨_, rfl, Scalar.identifier_bytes id⟩
  | transaction =>
    exact gets_of_ask node rfl rfl fun _ _ =>
      exists_hold (Entity.exists_message (k := .transaction) trivial trivial)
  | transactionResult =>
    exact gets_of_ask node rfl rfl fun _ hr =>
      exists_read (Entity.exists_message (k := .transactionResult) hr trivial)
  | accountAtLatestBlock | accountAtBlockHeight =>
    exact gets_of_ask node rfl rfl fun _ hr =>
      exists_hold (Entity.exists_message (k := .account) trivial hr)
  | eventsForHeightRange range =>
    have hcall : c.call (.eventsForHeightRange range) =
        .ask (.getEventsForHeightRange range c.options.encoding) c.readEvents := by
      rw [call, Option.map_eq_none_iff.1 hn]
      rfl
    exact gets_of_ask node hcall rfl fun _ hr => exists_readEvents fun b hb => (hr b hb).1
  | eventsForBlockIds =>
    exact gets_of_ask node (if_neg (Operation.ids_ne_nil hn)) rfl fun _ hr =>
      exists_readEvents fun b hb => (hr b hb).1
  | executionResult =>
    exact gets_of_ask node rfl rfl fun _ hr =>
      exists_hold (Entity.exists_message (k := .executionResult) hr trivial)

end Grpc

/-! ## Documents -/

namespace Rest

theorem exists_first {W D E : Type} [Carries W D] {options : CodecOptions} {d : D} {d' : E}
    {decode : W → Except DecodingError E} {thing : String}
    (h : ∃ m : W, Carries.write options d = .ok m ∧ decode m = .ok d') :
    ∃ r : List W, [d].mapM (Carries.write options) = .ok r ∧
      Client.first thing decode r = .ok d' := by
  obtain ⟨m, hw, hr⟩ := exists_read h
  refine ⟨[m], ?_, hr⟩
  rw [List.mapM_cons, hw]
  rfl

/-- A header is read from the document of its block, with a payload or without one. -/
theorem Client.header_headerBlock (node : AccessNode) {h : FlowAccess.BlockHeader}
    (ht : h.timestamp.HasPlainYear) : header [headerBlock node h] = .ok h := by
  have hblock : ∃ b : FlowAccess.Block, (headerBlock node h).toDomain = .ok b ∧ b.header = h := by
    cases hb : node.besides h with
    | none =>
      refine ⟨⟨h, [], []⟩, ?_, rfl⟩
      simp only [headerBlock, hb, Option.map_none, Block.toDomain, Option.getD_none,
        BlockHeader.toDomain_ofDomain ht]
      rfl
    | some payload =>
      obtain ⟨guarantees, seals⟩ := payload
      refine ⟨⟨h, guarantees, seals⟩, ?_, rfl⟩
      simp only [headerBlock, hb, Option.map_some]
      exact Block.toDomain_ofDomain (b := ⟨h, guarantees, seals⟩) ht
  obtain ⟨b, hb, rfl⟩ := hblock
  rw [header, first, read, hb]
  rfl

theorem Client.read_submittedId_withId (d : Transaction) (id : Identifier) :
    read submittedId (d.withId id) = .ok id := by
  show (Scalar.hexIdentifier "id" id.hex).mapError ClientError.decoding = _
  rw [Scalar.hexIdentifier_hex]
  rfl

theorem Client.exists_readEvents {c : Client} {bs : List FlowAccess.BlockEvents}
    (h : ∀ b ∈ bs, Entity.blockEvents.Carriable c.options b ∧
      Entity.blockEvents.HasPlainYears b) :
    ∃ r : List BlockEvents, bs.mapM (Carries.write { encoding := .jsonCdc }) = .ok r ∧
      c.readEvents r = .ok (bs.map (.readBy c.options)) := by
  obtain ⟨ds, hds, hbs⟩ : ∃ ds, bs.mapM (BlockEvents.ofDomain c.options) = .ok ds ∧
      decodeBlocks (BlockEvents.toDomain c.options) ds = .ok (bs.map (.readBy c.options)) :=
    exists_mapM_decodeBlocks fun b hb => BlockEvents.exists_ofDomain (h b hb).2 (h b hb).1
  exact ⟨ds, hds, mapError_eq_ok_iff.2 hbs⟩

variable {c : Client} {α : Type} {op : Operation α} (node : AccessNode)

theorem Client.gets_of_ask {R : Type} {q : Query R} {answer : R → Except ClientError α}
    {write : α → Except EncodingError R} (hcall : c.call op = .ask q answer)
    (hserve : ∀ url, serve node url q = respond url write (node.answer op))
    (hread : ∀ d, op.Representable c.options d →
      ∃ r, write d = .ok r ∧ answer r = .ok (op.readBy c.options d)) :
    (c.call op).Gets (fun q => serve node (c.base ++ q.path) q) (node.answer op)
      (op.Representable c.options) (op.readBy c.options) := by
  rw [hcall]
  exact .ask (hserve _) (fun _ => ⟨rfl, rfl⟩) hread

/-- The client asks for what it is asked for, and understands what the node writes of it. -/
theorem Client.gets (hop : op.WantsData) (hn : op.settled? = none) :
    (c.call op).Gets (fun q => serve node (c.base ++ q.path) q) (node.answer op)
      (op.Representable c.options) (op.readBy c.options) := by
  cases op with
  | ping | scriptAtLatestBlock | scriptAtBlockId | scriptAtBlockHeight => exact hop.elim
  | nodeVersionInfo =>
    exact gets_of_ask node rfl (fun _ => rfl) fun _ _ =>
      exists_read (Entity.exists_document (k := .nodeVersionInfo) trivial trivial)
  | networkParameters => exact gets_of_ask node rfl (fun _ => rfl) fun _ _ => ⟨_, rfl, rfl⟩
  | latestBlockHeader isSealed =>
    have hserve (url : String) : serve node url (.blocksByHeight (latest isSealed) false) =
        respond url (fun h => .ok [headerBlock node h])
          (node.answer (.latestBlockHeader isSealed)) := by
      cases isSealed <;> rfl
    exact gets_of_ask node rfl hserve fun _ hr => ⟨_, rfl, header_headerBlock node hr⟩
  | blockHeaderById | blockHeaderByHeight =>
    exact gets_of_ask node rfl (fun _ => rfl) fun _ hr => ⟨_, rfl, header_headerBlock node hr⟩
  | latestBlock isSealed =>
    have hserve (url : String) : serve node url (.blocksByHeight (latest isSealed) true) =
        respond url ([·].mapM (Carries.write {})) (node.answer (.latestBlock isSealed)) := by
      cases isSealed <;> rfl
    exact gets_of_ask node rfl hserve fun _ hr =>
      exists_first (Entity.exists_document (k := .block) trivial hr)
  | blockById | blockByHeight =>
    exact gets_of_ask node rfl (fun _ => rfl) fun _ hr =>
      exists_first (Entity.exists_document (k := .block) trivial hr)
  | collection =>
    exact gets_of_ask node rfl (fun _ => rfl) fun _ _ =>
      exists_read (Entity.exists_document (k := .collection) trivial trivial)
  | sendTransaction t =>
    have hserve (url : String) : serve node url (.sendTransaction (.ofDomain t)) =
        respond url (fun id => .ok ((Transaction.ofDomain t).withId id))
          (node.answer (.sendTransaction t)) := by
      show serveTransaction node url (.ofDomain t) = _
      rw [serveTransaction, Transaction.toDomain_ofDomain]
    exact gets_of_ask node rfl hserve fun id _ => ⟨_, rfl, read_submittedId_withId _ id⟩
  | transaction =>
    exact gets_of_ask node rfl (fun _ => rfl) fun _ _ =>
      exists_read (Entity.exists_document (k := .transaction) trivial trivial)
  | transactionResult =>
    exact gets_of_ask node rfl (fun _ => rfl) fun _ hr =>
      exists_read (Entity.exists_document (k := .transactionResult) hr trivial)
  | accountAtLatestBlock | accountAtBlockHeight =>
    exact gets_of_ask node rfl (fun _ => rfl) fun _ _ =>
      exists_read (Entity.exists_document (k := .account) trivial trivial)
  | eventsForHeightRange range =>
    have hcall : c.call (.eventsForHeightRange range) =
        .ask (.eventsForHeightRange range) c.readEvents := by
      rw [call, Option.map_eq_none_iff.1 hn]
      rfl
    exact gets_of_ask node hcall (fun _ => rfl) fun _ hr => exists_readEvents hr
  | eventsForBlockIds =>
    exact gets_of_ask node (if_neg (Operation.ids_ne_nil hn)) (fun _ => rfl) fun _ hr =>
      exists_readEvents hr
  | executionResult =>
    exact gets_of_ask node rfl (fun _ => rfl) fun _ hr =>
      exists_first (Entity.exists_document (k := .executionResult) hr trivial)

end Rest

/-! ## Scripts -/

section

variable {g : Grpc.Client} {r : Rest.Client} {state : ScriptState} {code : Bytes}
  {arguments : List Value} {sent : List Bytes} {node : AccessNode}

theorem Grpc.Client.call_script (h : encodeArguments arguments = .ok sent) :
    g.call (state.operation code arguments) =
      .ask (state.rpc code sent) fun b => decodeScriptValue g.options b.bytes := by
  cases state <;> (
    show g.script arguments _ = _
    rw [script, h]
    rfl)

theorem Rest.Client.call_script (h : encodeArguments arguments = .ok sent) :
    r.call (state.operation code arguments) =
      .ask (state.query ⟨Base64.encode code, sent.map Base64.encode⟩) r.scriptValue := by
  cases state <;> (
    show r.script code arguments _ = _
    rw [script, h]
    rfl)

theorem Grpc.serve_script (node : AccessNode) (state : ScriptState) (code : Bytes)
    (sent : List Bytes) : serve node (state.rpc code sent) =
      respond (fun v => .ok { bytes := v }) (node.run state code sent) := by
  cases state <;> rfl

theorem Rest.serve_script (node : AccessNode) (url : String) (state : ScriptState) (code : Bytes)
    (sent : List Bytes) :
    serve node url (state.query ⟨Base64.encode code, sent.map Base64.encode⟩) =
      respond url (fun v => .ok (Base64.encode v)) (node.run state code sent) := by
  have hs : serveScript node url state ⟨Base64.encode code, sent.map Base64.encode⟩ =
      respond url (fun v => .ok (Base64.encode v)) (node.run state code sent) := by
    simp only [serveScript, Scalar.base64Bytes_encode, decodeList_map Scalar.base64Bytes_encode]
    rfl
  cases state <;> exact hs

theorem Rest.Client.scriptValue_encode (value : Bytes) :
    r.scriptValue (Base64.encode value) = decodeScriptValue r.options value := by
  rw [scriptValue, read, Scalar.base64Bytes_encode]
  rfl

theorem script_of_refused {a : Except ClientError Value} {request : List Bytes → Grpc.Rpc Grpc.Blob}
    {request' : Rest.ScriptBody → Rest.Query String}
    (h : Operation.settled?.refused? (encodeArguments arguments) = some a) :
    g.script arguments request = .done a ∧ r.script code arguments request' = .done a := by
  rw [Grpc.Client.script, Rest.Client.script]
  cases hargs : encodeArguments arguments with
  | ok sent =>
    rw [hargs] at h
    cases h
  | error e =>
    rw [hargs] at h
    cases h
    exact ⟨rfl, rfl⟩

/-- Neither client asks for an operation that is settled, and both have the same answer. -/
theorem Operation.call_of_settled {α : Type} {op : Operation α} {a : Except ClientError α}
    (h : op.settled? = some a) : g.call op = .done a ∧ r.call op = .done a := by
  cases op with
  | eventsForHeightRange range =>
    obtain ⟨fault, hf, rfl⟩ := Option.map_eq_some_iff.1 h
    rw [Grpc.Client.call, Rest.Client.call, hf]
    exact ⟨rfl, rfl⟩
  | eventsForBlockIds eventType ids =>
    rw [settled?] at h
    split at h
    · rename_i hids
      cases h
      exact ⟨if_pos hids, if_pos hids⟩
    · cases h
  | scriptAtLatestBlock => exact script_of_refused h
  | scriptAtBlockId => exact script_of_refused h
  | scriptAtBlockHeight => exact script_of_refused h
  | _ => cases h

end

end FlowAccess
