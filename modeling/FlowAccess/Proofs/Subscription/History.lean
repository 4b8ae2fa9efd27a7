import FlowAccess.Subscription.Basic

/-!
# Runs of a subscription

The task, the consumer and the holder of the token act in any order. A `History` is a subscription
with the record of what has passed between them, a run is a list of actions, and the invariant of
all runs (`Faithful`) ties the record to the script of the stream.

What a step of the task can do is said once, in `TaskStep`. Everything else about the task is
derived from its cases.
-/

namespace FlowAccess

variable {M T : Type}

/-! ## The script -/

/-- The entry of a script that was received. -/
def Received.entry : Received M → List (Except TransportError M)
  | .message m => [.ok m]
  | .failure e => [.error e]
  | .ended => []

/-- The entry that has been received and not yet been examined. -/
def TaskPosition.unexamined : TaskPosition M → List (Except TransportError M)
  | .received r => r.entry
  | _ => []

/-- Whether the task looks at the token before it takes its next step: wherever it may wait, and
with a failure of the stream at hand. -/
def TaskPosition.mindsToken : TaskPosition M → Bool
  | .reserving | .reserved | .receiving | .received (.failure _) => true
  | _ => false

namespace Subscription

/-- What an entry of the script amounts to for the consumer. -/
def outcome (decode : M → Except ClientError T) :
    Except TransportError M → Except ClientError T
  | .ok m => decode m
  | .error e => .error (.transport e)

/-- How many messages of the script come before its first failure, or before its end. -/
def good (decode : M → Except ClientError T) (script : List (Except TransportError M)) : Nat :=
  script.findIdx fun entry => !(outcome decode entry).isOk

/-- A number of good entries before a bad one is the number of messages before the first failure. -/
theorem good_eq_of_failure {decode : M → Except ClientError T}
    {script : List (Except TransportError M)} {items : List T} {e : ClientError}
    (hs : (script.take items.length).map (outcome decode) = items.map .ok)
    (he : script[items.length]?.map (outcome decode) = some (.error e)) :
    good decode script = items.length := by
  obtain ⟨entry, hentry, he⟩ := Option.map_eq_some_iff.1 he
  obtain ⟨hlt, hget⟩ := List.getElem?_eq_some_iff.1 hentry
  refine (List.findIdx_eq hlt).2 ⟨by rw [hget, he]; rfl, fun j hj => ?_⟩
  have hj' : j < script.length := by omega
  have h := congrArg (·[j]?) hs
  simp only [List.getElem?_map, List.getElem?_take_of_lt hj, List.getElem?_eq_getElem hj',
    List.getElem?_eq_getElem hj, Option.map_some, Option.some.injEq] at h
  rw [h]
  rfl

/-- A script that has been used up without a failure consists of messages only. -/
theorem good_eq_of_end {decode : M → Except ClientError T}
    {script : List (Except TransportError M)} {items : List T}
    (hs : (script.take items.length).map (outcome decode) = items.map .ok)
    (hl : items.length = script.length) : good decode script = items.length := by
  rw [hl, List.take_length] at hs
  rw [hl]
  refine List.findIdx_eq_length.2 fun entry hentry => ?_
  have h : outcome decode entry ∈ items.map .ok := hs ▸ List.mem_map_of_mem hentry
  obtain ⟨item, -, h⟩ := List.mem_map.1 h
  rw [← h]
  rfl

/-! ## Steps of the task -/

/-- The steps that the task can take, and when it can take them. -/
inductive TaskStep (decode : M → Except ClientError T) (s : Subscription M T) :
    Move M T → Prop where
  | cancelled (hp : s.position.mindsToken = true) (hc : s.cancelled = true) :
    TaskStep decode s (.exit .cancelled)
  | consumerGone (hp : s.position = .reserving) (hl : s.listening ≠ .toAll) :
    TaskStep decode s (.exit .consumerGone)
  | reserve (hp : s.position = .reserving) (hc : s.cancelled = false) (hl : s.listening = .toAll)
    (hs : s.slot = none) : TaskStep decode s .reserve
  | ask (hp : s.position = .reserved) (hc : s.cancelled = false) : TaskStep decode s .ask
  | receive {r : Received M} {rest : List (Except TransportError M)}
    (hp : s.position = .receiving) (hc : s.cancelled = false)
    (hs : s.script = r.entry ++ rest) (hr : r = .ended → rest = []) :
    TaskStep decode s (.receive r rest)
  | send {m : M} {item : T} (hp : s.position = .received (.message m))
    (hd : decode m = .ok item) : TaskStep decode s (.send item)
  | refuse {m : M} {e : ClientError} (hp : s.position = .received (.message m))
    (hd : decode m = .error e) : TaskStep decode s (.exit (.failed e))
  | fail {e : TransportError} (hp : s.position = .received (.failure e))
    (hc : s.cancelled = false) : TaskStep decode s (.exit (.failed (.transport e)))
  | end (hp : s.position = .received .ended) : TaskStep decode s (.exit .endOfStream)

theorem delivery?_eq_some {s : Subscription M T} {r : Received M}
    {rest : List (Except TransportError M)} (h : s.delivery? = some (r, rest)) :
    s.script = r.entry ++ rest ∧ (r = .ended → rest = []) := by
  simp only [delivery?] at h
  split at h
  · cases h; simp [Received.entry, *]
  · cases h; simp [Received.entry, *]
  · split at h
    · cases h
    · cases h; simp [Received.entry, *]

/-- The next step of the task is one of those listed. -/
theorem taskStep_of_next? {decode : M → Except ClientError T} {s : Subscription M T}
    {move : Move M T} (h : s.next? decode = some move) : TaskStep decode s move := by
  unfold next? at h
  cases hp : s.position with
  | reserving =>
    rw [hp] at h
    dsimp only at h
    by_cases hc : s.cancelled = true
    · rw [if_pos hc] at h
      exact Option.some.inj h ▸ .cancelled (by rw [hp]; rfl) hc
    rw [if_neg hc] at h
    by_cases hl : s.listening = .toAll
    · rw [if_neg (not_not_intro hl)] at h
      cases hs : s.slot with
      | some item => simp [hs] at h
      | none =>
        rw [hs, if_neg nofun] at h
        exact Option.some.inj h ▸ .reserve hp (Bool.eq_false_iff.2 hc) hl hs
    · rw [if_pos hl] at h
      exact Option.some.inj h ▸ .consumerGone hp hl
  | reserved =>
    rw [hp] at h
    obtain rfl := Option.some.inj h
    split
    · exact .cancelled (by rw [hp]; rfl) ‹_›
    · exact .ask hp (Bool.eq_false_iff.2 ‹_›)
  | receiving =>
    rw [hp] at h
    dsimp only at h
    by_cases hc : s.cancelled = true
    · rw [if_pos hc] at h
      exact Option.some.inj h ▸ .cancelled (by rw [hp]; rfl) hc
    · rw [if_neg hc] at h
      obtain ⟨⟨r, rest⟩, hd, rfl⟩ := Option.map_eq_some_iff.1 h
      obtain ⟨hs, hr⟩ := delivery?_eq_some hd
      exact .receive hp (Bool.eq_false_iff.2 hc) hs hr
  | received r =>
    rw [hp] at h
    obtain rfl := Option.some.inj h
    cases r with
    | message m =>
      simp only [examine]
      cases hd : decode m with
      | ok item => exact .send hp hd
      | error e => exact .refuse hp hd
    | failure e =>
      simp only [examine]
      split
      · exact .cancelled (by rw [hp]; rfl) ‹_›
      · exact .fail hp (Bool.eq_false_iff.2 ‹_›)
    | ended => exact .end hp
  | exited => simp [hp] at h

theorem TaskStep.position_ne_exited {decode : M → Except ClientError T} {s : Subscription M T}
    {move : Move M T} (h : TaskStep decode s move) : s.position ≠ .exited := by
  intro he
  cases h <;> simp_all [TaskPosition.mindsToken]

@[simp] theorem perform_listening (s : Subscription M T) (move : Move M T) :
    (s.perform move).listening = s.listening := by
  cases move <;> rfl

@[simp] theorem perform_cancelled (s : Subscription M T) (move : Move M T) :
    (s.perform move).cancelled = s.cancelled := by
  cases move <;> rfl

/-- When no new items are wanted, the task does not wait for the place of one but exits. -/
theorem TaskStep.position_perform {decode : M → Except ClientError T} {s : Subscription M T}
    {move : Move M T} (h : TaskStep decode s move) (hp : s.position = .reserving)
    (hl : s.listening ≠ .toAll) :
    (s.perform move).position = .exited ∧ (s.perform move).slot = s.slot := by
  cases h <;> simp_all [perform]

/-- An exit leaves the error channel as it is, unless it is for a failure. -/
theorem errorAfter_eq_or (s : Subscription M T) (reason : Exit) :
    s.errorAfter reason = s.error ∨ ∃ e, reason = .failed e ∧ s.listening ≠ .toNothing ∧
      s.errorAfter reason = some e := by
  cases reason with
  | failed e =>
    by_cases hl : s.listening = .toNothing
    · exact .inl (if_pos hl)
    · exact .inr ⟨e, rfl, hl, if_neg hl⟩
  | cancelled | endOfStream | consumerGone => exact .inl rfl

/-! ## Looking once -/

theorem pollItem_eq_ready {s t : Subscription M T} {item : T}
    (h : s.pollItem = (.ready item, t)) : s.slot = some item ∧ t = { s with slot := none } := by
  unfold pollItem at h
  split at h
  · cases h; exact ⟨‹_›, rfl⟩
  · split at h <;> cases h

theorem pollError_eq_ready {s t : Subscription M T} {e : ClientError}
    (h : s.pollError = (.ready e, t)) : s.error = some e ∧ t = { s with error := none } := by
  unfold pollError at h
  split at h
  · cases h; exact ⟨‹_›, rfl⟩
  · split at h <;> cases h

theorem pollItem_eq_closed {s t : Subscription M T} (h : s.pollItem = (.closed, t)) :
    s.slot = none ∧ (s.position = .exited ∨ s.position = .reserving ∧ s.listening ≠ .toAll) := by
  unfold pollItem at h
  split at h
  · cases h
  · split at h
    · refine ⟨‹_›, ?_⟩
      cases hp : s.position with
      | exited => exact .inl rfl
      | reserving | reserved | receiving | received r =>
        simp_all [TaskPosition.isExited, TaskPosition.hasPlace]
    · cases h

theorem pollError_eq_closed {s t : Subscription M T} (h : s.pollError = (.closed, t)) :
    s.position = .exited ∧ s.error = none := by
  unfold pollError at h
  split at h
  · cases h
  · split at h
    · refine ⟨?_, ‹_›⟩
      cases hp : s.position with
      | exited => rfl
      | reserving | reserved | receiving | received r => simp_all [TaskPosition.isExited]
    · cases h

/-! ## Histories -/

/-- A subscription and what has passed so far. -/
structure History (M T : Type) where
  state : Subscription M T
  /-- The items that have come into the slot, in order. -/
  sent : List T := []
  /-- The items that the consumer has taken, in order. -/
  taken : List T := []
  /-- The errors that have come into the error channel, in order. -/
  reported : List ClientError := []
  /-- The errors that the consumer has taken, in order. -/
  seen : List ClientError := []
  /-- Why the task has exited, once it has. -/
  exit? : Option Exit := none
  /-- Whether the consumer still has the end of the channel from which it takes items. -/
  holding : Bool := true

/-- What may happen next. -/
inductive Action where
  /-- The task takes a step. -/
  | task
  | takeItem
  | takeError
  | closeItems
  | dropItems
  | drop
  | cancel
  | release
  deriving DecidableEq

namespace History

/-- What a channel holds that was empty before. -/
def gained {α : Type} : Option α → Option α → List α
  | none, some a => [a]
  | _, _ => []

@[simp] theorem gained_self {α : Type} (o : Option α) : gained o o = [] := by
  cases o <;> rfl

@[simp] theorem gained_none {α : Type} (o : Option α) : gained none o = o.toList := by
  cases o <;> rfl

/-- The history after a step of the task. What was sent and reported is seen from the channels. -/
def record (h : History M T) (move : Move M T) : History M T :=
  { h with
    state := h.state.perform move
    sent := h.sent ++ gained h.state.slot (h.state.perform move).slot
    reported := h.reported ++ gained h.state.error (h.state.perform move).error
    exit? := match move with
      | .exit reason => some reason
      | _ => h.exit? }

/-- A step that leaves the channels alone shows in the state only. -/
theorem record_reserve (h : History M T) :
    h.record .reserve = { h with state := h.state.perform .reserve } := by
  simp [record, perform]

theorem record_ask (h : History M T) :
    h.record .ask = { h with state := h.state.perform .ask } := by
  simp [record, perform]

theorem record_receive (h : History M T) (r : Received M) (rest : List (Except TransportError M)) :
    h.record (.receive r rest) = { h with state := h.state.perform (.receive r rest) } := by
  simp [record, perform]

/-- An item that comes into the empty slot has been sent. -/
theorem record_send {h : History M T} (hs : h.state.slot = none) (item : T) :
    h.record (.send item) =
      { h with state := h.state.perform (.send item), sent := h.sent ++ [item] } := by
  simp [record, perform, hs]

/-- The history after an action, if it can happen. -/
def act (decode : M → Except ClientError T) (h : History M T) : Action → Option (History M T)
  | .task => (h.state.next? decode).map h.record
  | .takeItem =>
    match h.holding, h.state.pollItem with
    | true, (.ready item, s) => some { h with state := s, taken := h.taken ++ [item] }
    | _, _ => none
  | .takeError =>
    match h.state.pollError with
    | (.ready e, s) => some { h with state := s, seen := h.seen ++ [e] }
    | _ => none
  | .closeItems => some { h with state := h.state.closeItems }
  | .dropItems => some { h with state := h.state.dropItems, holding := false }
  | .drop => some { h with state := h.state.drop, holding := false }
  | .cancel => some { h with state := h.state.cancel }
  | .release => some { h with state := h.state.release }

/-- The task of a history takes the steps of its subscription. -/
theorem act_task_state (decode : M → Except ClientError T) (h : History M T) :
    (h.act decode .task).map (·.state) = h.state.advance? decode :=
  Option.map_map ..

/-- The history after a run of actions, if each of them can happen in its turn. -/
def play (decode : M → Except ClientError T) : List Action → History M T → Option (History M T)
  | [], h => some h
  | a :: as, h => (h.act decode a).bind (play decode as)

/-- The history of a subscription to a script before anything has happened. -/
def start (script : List (Except TransportError M)) (held cancelled : Bool) : History M T :=
  { state := { script, held, cancelled } }

/-- What one action keeps, a run keeps. -/
theorem play_induction {decode : M → Except ClientError T} {p : History M T → Prop}
    (step : ∀ {a : Action} {h h' : History M T}, p h → h.act decode a = some h' → p h')
    {as : List Action} {h h' : History M T} (hp : p h) (hr : h.play decode as = some h') :
    p h' := by
  induction as generalizing h with
  | nil => cases hr; exact hp
  | cons a as ih =>
    obtain ⟨h₁, ha, hr⟩ := Option.bind_eq_some_iff.1 hr
    exact ih (step hp ha) hr

/-- The error waits on the error channel or has been taken from it. -/
def Carries (h : History M T) (e : ClientError) : Prop := h.state.error = some e ∨ e ∈ h.seen

/-- What an action of the consumer or of the holder of the token leaves as it is: all that only the
task changes. Items that were taken stay taken, no error comes up, and neither a cancellation nor
the end of a channel that was given up is taken back. -/
structure TaskUnmoved (h h' : History M T) : Prop where
  position_eq : h'.state.position = h.state.position
  script_eq : h'.state.script = h.state.script
  requests_eq : h'.state.requests = h.state.requests
  sent_eq : h'.sent = h.sent
  reported_eq : h'.reported = h.reported
  exit?_eq : h'.exit? = h.exit?
  cancelled : h.state.cancelled = true → h'.state.cancelled = true
  taken_prefix : h.taken <+: h'.taken
  holding : h'.holding = true → h.holding = true
  deaf : h.state.listening = .toNothing → h'.state.listening = .toNothing
  carries : ∀ e, h'.Carries e → h.Carries e

/-- Only the task changes what the task answers for. -/
theorem taskUnmoved_of_act {decode : M → Except ClientError T} {h h' : History M T} {a : Action}
    (hne : a ≠ .task) (ha : h.act decode a = some h') : TaskUnmoved h h' := by
  cases a with
  | task => exact absurd rfl hne
  | takeItem =>
    simp only [act] at ha
    split at ha
    · rename_i hp
      cases ha
      obtain ⟨-, rfl⟩ := pollItem_eq_ready hp
      exact ⟨rfl, rfl, rfl, rfl, rfl, rfl, id, List.prefix_append _ _, id, id, fun _ => id⟩
    · cases ha
  | takeError =>
    simp only [act] at ha
    split at ha
    · rename_i e _ hp
      cases ha
      obtain ⟨he, rfl⟩ := pollError_eq_ready hp
      refine ⟨rfl, rfl, rfl, rfl, rfl, rfl, id, List.prefix_rfl, id, id, fun e' h' => ?_⟩
      rcases h' with h' | h'
      · cases h'
      · rcases List.mem_append.1 h' with h' | h'
        · exact .inr h'
        · exact .inl (List.mem_singleton.1 h' ▸ he)
    · cases ha
  | closeItems =>
    cases ha
    exact ⟨by simp, by simp, by simp, rfl, rfl, rfl, by simp, List.prefix_rfl, id,
      (closeItems_listening_eq_toNothing_iff _).2, by simp [Carries]⟩
  | dropItems =>
    cases ha
    exact ⟨by simp [Subscription.dropItems], by simp [Subscription.dropItems],
      by simp [Subscription.dropItems], rfl, rfl, rfl, by simp [Subscription.dropItems],
      List.prefix_rfl, nofun, (closeItems_listening_eq_toNothing_iff _).2,
      by simp [Carries, Subscription.dropItems]⟩
  | drop =>
    cases ha
    exact ⟨rfl, rfl, rfl, rfl, rfl, rfl, id, List.prefix_rfl, nofun, fun _ => rfl,
      fun _ h' => h'.elim nofun .inr⟩
  | cancel =>
    cases ha
    exact ⟨rfl, rfl, rfl, rfl, rfl, rfl, fun _ => rfl, List.prefix_rfl, id, id, fun _ => id⟩
  | release =>
    cases ha
    exact ⟨rfl, rfl, rfl, rfl, rfl, rfl, id, List.prefix_rfl, id, id, fun _ => id⟩

/-! ## The invariant -/

/-- What holds of every history of a subscription to a script. -/
structure Faithful (decode : M → Except ClientError T) (script : List (Except TransportError M))
    (h : History M T) : Prop where
  sent_eq : (script.take h.sent.length).map (outcome decode) = h.sent.map .ok
  ahead : h.exit? = none →
    script.drop h.sent.length = h.state.position.unexamined ++ h.state.script
  ended : h.state.position = .received .ended → h.state.script = []
  exited_iff : h.state.position = .exited ↔ h.exit? ≠ none
  failed : ∀ e, h.exit? = some (.failed e) →
    script[h.sent.length]?.map (outcome decode) = some (.error e)
  endOfStream : h.exit? = some .endOfStream → script.length ≤ h.sent.length
  minded : h.exit? = some .cancelled → h.state.cancelled = true
  gone : h.exit? = some .consumerGone → h.state.listening ≠ .toAll
  holds : h.state.listening = .toAll → h.holding = true
  taken_prefix : h.taken <+: h.sent
  slot_eq : h.holding = true → h.taken ++ h.state.slot.toList = h.sent
  /-- The place for an item is taken only when the consumer has everything before it, and a failure
  leaves it empty. -/
  place : h.state.position.hasPlace = true ∨ (∃ e, h.exit? = some (.failed e)) →
    h.taken = h.sent ∧ h.state.slot = none
  reported_eq : h.reported = [] ∨ ∃ e, h.exit? = some (.failed e) ∧ h.reported = [e]
  reported_of_failed : ∀ e, h.exit? = some (.failed e) → h.state.listening ≠ .toNothing →
    h.reported = [e]
  seen_prefix : h.seen <+: h.reported
  seen_eq : h.state.listening ≠ .toNothing → h.seen ++ h.state.error.toList = h.reported
  /-- Nothing waits where nobody listens. -/
  deaf : h.state.listening = .toNothing → h.state.error = none

theorem faithful_start (decode : M → Except ClientError T)
    (script : List (Except TransportError M)) (held cancelled : Bool) :
    (start script held cancelled : History M T).Faithful decode script where
  sent_eq := rfl
  ahead _ := rfl
  ended h := by cases h
  exited_iff := by simp [start]
  failed _ h := by cases h
  endOfStream h := by cases h
  minded h := by cases h
  gone h := by cases h
  holds _ := rfl
  taken_prefix := List.prefix_rfl
  slot_eq _ := rfl
  place h := by simp [start, TaskPosition.hasPlace] at h
  reported_eq := .inl rfl
  reported_of_failed _ h := by cases h
  seen_prefix := List.prefix_rfl
  seen_eq _ := rfl
  deaf _ := rfl

variable {decode : M → Except ClientError T} {script : List (Except TransportError M)}
  {h : History M T}

theorem Faithful.exit?_eq_none (hf : h.Faithful decode script) (hp : h.state.position ≠ .exited) :
    h.exit? = none :=
  Decidable.not_not.1 fun hx => hp (hf.exited_iff.2 hx)

/-- A message that is decoded and sent is the next of the script. -/
theorem Faithful.sent_eq_append (hf : h.Faithful decode script) {m : M} {item : T}
    (hp : h.state.position = .received (.message m)) (hd : decode m = .ok item) :
    (script.take (h.sent ++ [item]).length).map (outcome decode) = (h.sent ++ [item]).map .ok := by
  have hx : h.exit? = none := hf.exit?_eq_none (by simp [hp])
  have ha : script.drop h.sent.length = .ok m :: h.state.script := by
    simpa [hp, TaskPosition.unexamined, Received.entry] using hf.ahead hx
  rw [List.length_append, List.length_singleton, List.take_add, ha, List.map_append, hf.sent_eq]
  simp [outcome, hd]

/-- A failure that is examined is the next entry of the script. -/
theorem Faithful.failure_next (hf : h.Faithful decode script) {entry : Except TransportError M}
    (hx : h.exit? = none) (hp : h.state.position.unexamined = [entry]) :
    script[h.sent.length]?.map (outcome decode) = some (outcome decode entry) := by
  have ha : script.drop h.sent.length = entry :: h.state.script := by
    rw [hf.ahead hx, hp, List.singleton_append]
  have h0 : (script.drop h.sent.length)[0]? = some entry := by rw [ha, List.getElem?_cons_zero]
  rw [List.getElem?_drop, Nat.add_zero] at h0
  rw [h0, Option.map_some]

theorem Faithful.reported_eq_nil (hf : h.Faithful decode script) (hx : h.exit? = none) :
    h.reported = [] := by
  obtain hr | ⟨e, he, -⟩ := hf.reported_eq
  · exact hr
  · rw [hx] at he
    cases he

theorem Faithful.error_eq_none (hf : h.Faithful decode script) (hx : h.exit? = none) :
    h.state.error = none := by
  by_cases hl : h.state.listening = .toNothing
  · exact hf.deaf hl
  · have hs := hf.seen_eq hl
    rw [hf.reported_eq_nil hx, List.append_eq_nil_iff] at hs
    exact Option.toList_eq_nil_iff.1 hs.2

theorem Faithful.seen_eq_nil (hf : h.Faithful decode script) (hx : h.exit? = none) : h.seen = [] :=
  List.prefix_nil.1 (hf.reported_eq_nil hx ▸ hf.seen_prefix)

/-- What an exit has to answer for. -/
structure Justified (decode : M → Except ClientError T) (script : List (Except TransportError M))
    (h : History M T) (reason : Exit) : Prop where
  cancelled : reason = .cancelled → h.state.cancelled = true
  gone : reason = .consumerGone → h.state.listening ≠ .toAll
  endOfStream : reason = .endOfStream → script.length ≤ h.sent.length
  failed : ∀ e, reason = .failed e →
    script[h.sent.length]?.map (outcome decode) = some (.error e) ∧
      h.state.position.hasPlace = true

/-- An exit keeps the record faithful, whatever its reason: the slot stays as it is, and a failure
is the first error. -/
theorem Faithful.exits (hf : h.Faithful decode script) (hx : h.exit? = none) {reason : Exit}
    (hj : h.Justified decode script reason) :
    (h.record (.exit reason)).Faithful decode script := by
  have herror := hf.error_eq_none hx
  have hsent : (h.record (.exit reason)).sent = h.sent := by simp [record, perform]
  have hreported : (h.record (.exit reason)).reported = (h.state.errorAfter reason).toList := by
    simp [record, perform, hf.reported_eq_nil hx, herror]
  have hseen := hf.seen_eq_nil hx
  exact {
    sent_eq := by rw [hsent]; exact hf.sent_eq
    ahead := fun he => by cases he
    ended := fun he => by cases he
    exited_iff := iff_of_true rfl (Option.some_ne_none reason)
    failed := fun e he => by rw [hsent]; exact (hj.failed e (Option.some.inj he)).1
    endOfStream := fun he => by rw [hsent]; exact hj.endOfStream (Option.some.inj he)
    minded := fun he => hj.cancelled (Option.some.inj he)
    gone := fun he => hj.gone (Option.some.inj he)
    holds := hf.holds
    taken_prefix := by rw [hsent]; exact hf.taken_prefix
    slot_eq := by rw [hsent]; exact hf.slot_eq
    place := by
      rw [hsent]
      rintro (hp | ⟨e, he⟩)
      · cases hp
      · exact hf.place (.inl (hj.failed e (Option.some.inj he)).2)
    reported_eq := by
      rw [hreported]
      rcases errorAfter_eq_or h.state reason with he | ⟨e, rfl, -, he⟩
      · exact .inl (by rw [he, herror]; rfl)
      · exact .inr ⟨e, rfl, by rw [he]; rfl⟩
    reported_of_failed := fun e he hl => by
      have hl : h.state.listening ≠ .toNothing := hl
      rw [hreported, Option.some.inj he, errorAfter, if_neg hl]
      rfl
    seen_prefix := by
      show h.seen <+: _
      rw [hseen]
      exact List.nil_prefix
    seen_eq := fun _ => by
      rw [hreported]
      exact congrArg (· ++ _) hseen
    deaf := fun hl => by
      rcases errorAfter_eq_or h.state reason with he | ⟨e, -, hne, -⟩
      · exact he.trans herror
      · exact absurd hl hne }

/-- A step that neither sends nor exits keeps the record faithful, if it leaves the channels alone
and the place is taken only when the consumer has everything. -/
theorem Faithful.advances (hf : h.Faithful decode script) {position : TaskPosition M}
    {rest : List (Except TransportError M)} {requests : Nat} (hx : h.exit? = none)
    (ha : h.state.position.unexamined ++ h.state.script = position.unexamined ++ rest)
    (hp : position ≠ .exited) (hr : position = .received .ended → rest = [])
    (hh : h.taken = h.sent ∧ h.state.slot = none) :
    { h with state := { h.state with position, script := rest, requests } }.Faithful
      decode script :=
  { hf with
    ahead := fun _ => (hf.ahead hx).trans ha
    ended := hr
    exited_iff := by simp [hx, hp]
    place := fun _ => hh }

/-- A step of the task keeps the record faithful. -/
theorem Faithful.task (hf : h.Faithful decode script) {move : Move M T}
    (hs : TaskStep decode h.state move) : (h.record move).Faithful decode script := by
  cases hs with
  | cancelled hp hc =>
    have hx := hf.exit?_eq_none fun he => by simp [he, TaskPosition.mindsToken] at hp
    exact hf.exits hx ⟨fun _ => hc, by simp, by simp, by simp⟩
  | consumerGone hp hl =>
    have hx := hf.exit?_eq_none (by simp [hp])
    exact hf.exits hx ⟨by simp, fun _ => hl, by simp, by simp⟩
  | reserve hp hc hl hs =>
    have hx := hf.exit?_eq_none (by simp [hp])
    -- The slot is empty, so the consumer has taken all that it was sent.
    have ht : h.taken = h.sent := by simpa [hs] using hf.slot_eq (hf.holds hl)
    rw [record_reserve]
    exact hf.advances hx (by simp [hp, TaskPosition.unexamined]) (by simp) (by simp) ⟨ht, hs⟩
  | ask hp hc =>
    have hx := hf.exit?_eq_none (by simp [hp])
    have hh := hf.place (.inl (by simp [hp, TaskPosition.hasPlace]))
    rw [record_ask]
    exact hf.advances hx (by simp [hp, TaskPosition.unexamined]) (by simp) (by simp) hh
  | @receive r rest hp hc hs hr =>
    have hx := hf.exit?_eq_none (by simp [hp])
    have hh := hf.place (.inl (by simp [hp, TaskPosition.hasPlace]))
    rw [record_receive]
    have hu : h.state.position.unexamined ++ h.state.script =
        (TaskPosition.received r).unexamined ++ rest := by
      simp [hp, hs, TaskPosition.unexamined]
    exact hf.advances hx hu (by simp) (by simpa using hr) hh
  | @send m item hp hd =>
    have hx := hf.exit?_eq_none (by simp [hp])
    obtain ⟨ht, hslot⟩ := hf.place (.inl (by simp [hp, TaskPosition.hasPlace]))
    rw [record_send hslot]
    exact { hf with
      sent_eq := hf.sent_eq_append hp hd
      ahead := fun _ => by
        have ha := hf.ahead hx
        rw [hp] at ha
        simp [perform, TaskPosition.unexamined, ← List.drop_drop, ha, Received.entry]
      ended := fun he => by cases he
      exited_iff := by simp [perform, hx]
      failed := fun e he => by simp [hx] at he
      endOfStream := fun he => by simp [hx] at he
      reported_of_failed := fun e he => by simp [hx] at he
      taken_prefix := hf.taken_prefix.trans (List.prefix_append _ _)
      slot_eq := fun _ => by simp [perform, ht]
      place := fun he => by simp [perform, hx, TaskPosition.hasPlace] at he }
  | refuse hp hd =>
    have hx := hf.exit?_eq_none (by simp [hp])
    have hn := hf.failure_next hx (by rw [hp]; rfl)
    refine hf.exits hx ⟨by simp, by simp, by simp, fun e he => ?_⟩
    cases he
    exact ⟨hn.trans (congrArg some hd), by simp [hp, TaskPosition.hasPlace]⟩
  | fail hp hc =>
    have hx := hf.exit?_eq_none (by simp [hp])
    have hn := hf.failure_next hx (by rw [hp]; rfl)
    refine hf.exits hx ⟨by simp, by simp, by simp, fun e he => ?_⟩
    cases he
    exact ⟨hn, by simp [hp, TaskPosition.hasPlace]⟩
  | «end» hp =>
    have hx := hf.exit?_eq_none (by simp [hp])
    have ha := hf.ahead hx
    rw [hf.ended hp, hp] at ha
    exact hf.exits hx ⟨by simp, by simp, fun _ => List.drop_eq_nil_iff.1 ha, by simp⟩

theorem Faithful.takeItem (hf : h.Faithful decode script) {item : T} (hh : h.holding = true)
    (hs : h.state.slot = some item) :
    { h with state := { h.state with slot := none }, taken := h.taken ++ [item] }.Faithful
      decode script :=
  have ht : h.taken ++ [item] = h.sent := by simpa [hs] using hf.slot_eq hh
  { hf with
    taken_prefix := ht ▸ List.prefix_rfl
    slot_eq := fun _ => by simpa using ht
    place := fun _ => ⟨ht, rfl⟩ }

theorem Faithful.takeError (hf : h.Faithful decode script) {e : ClientError}
    (he : h.state.error = some e) :
    { h with state := { h.state with error := none }, seen := h.seen ++ [e] }.Faithful
      decode script :=
  have hl : h.state.listening ≠ .toNothing := fun hl => by
    rw [hf.deaf hl] at he
    cases he
  have hseen : h.seen ++ [e] = h.reported := by
    rw [← hf.seen_eq hl, he]
    rfl
  { hf with
    seen_prefix := hseen ▸ List.prefix_rfl
    seen_eq := fun _ => (List.append_nil _).trans hseen
    deaf := fun _ => rfl }

theorem Faithful.closeItems (hf : h.Faithful decode script) :
    { h with state := h.state.closeItems }.Faithful decode script where
  sent_eq := hf.sent_eq
  ahead := by simpa using hf.ahead
  ended := by simpa using hf.ended
  exited_iff := by simpa using hf.exited_iff
  failed := hf.failed
  endOfStream := hf.endOfStream
  minded := by simpa using hf.minded
  gone _ := h.state.closeItems_listening_ne
  holds hl := absurd hl h.state.closeItems_listening_ne
  taken_prefix := hf.taken_prefix
  slot_eq := by simpa using hf.slot_eq
  place := by simpa using hf.place
  reported_eq := hf.reported_eq
  reported_of_failed e he hl :=
    hf.reported_of_failed e he (mt h.state.closeItems_listening_eq_toNothing_iff.2 hl)
  seen_prefix := hf.seen_prefix
  seen_eq hl := by simpa using hf.seen_eq (mt h.state.closeItems_listening_eq_toNothing_iff.2 hl)
  deaf hl := by simpa using hf.deaf (h.state.closeItems_listening_eq_toNothing_iff.1 hl)

theorem Faithful.dropItems (hf : h.Faithful decode script) :
    { h with state := h.state.dropItems, holding := false }.Faithful decode script :=
  { hf.closeItems with
    holds := fun hl => absurd hl h.state.closeItems_listening_ne
    slot_eq := nofun
    place := fun hp => ⟨(hf.closeItems.place hp).1, rfl⟩ }

theorem Faithful.drop (hf : h.Faithful decode script) :
    { h with state := h.state.drop, holding := false }.Faithful decode script :=
  { hf with
    gone := fun _ => by simp [Subscription.drop]
    holds := nofun
    slot_eq := nofun
    place := fun hp => ⟨(hf.place hp).1, rfl⟩
    reported_of_failed := fun _ _ hl => absurd rfl hl
    seen_eq := fun hl => absurd rfl hl
    deaf := fun _ => rfl }

/-- Every action keeps the record faithful. -/
theorem Faithful.act (hf : h.Faithful decode script) {a : Action} {h' : History M T}
    (ha : h.act decode a = some h') : h'.Faithful decode script := by
  cases a with
  | task =>
    obtain ⟨move, hm, rfl⟩ := Option.map_eq_some_iff.1 ha
    exact hf.task (taskStep_of_next? hm)
  | takeItem =>
    simp only [History.act] at ha
    split at ha
    · rename_i hh hp
      cases ha
      obtain ⟨hs, rfl⟩ := pollItem_eq_ready hp
      exact hf.takeItem hh hs
    · cases ha
  | takeError =>
    simp only [History.act] at ha
    split at ha
    · rename_i hp
      cases ha
      obtain ⟨he, rfl⟩ := pollError_eq_ready hp
      exact hf.takeError he
    · cases ha
  | closeItems => cases ha; exact hf.closeItems
  | dropItems => cases ha; exact hf.dropItems
  | drop => cases ha; exact hf.drop
  | cancel => cases ha; exact { hf with minded := fun _ => rfl }
  | release => cases ha; exact { hf with }

/-- Every run keeps the record faithful. -/
theorem faithful_play {script : List (Except TransportError M)} {held cancelled : Bool}
    {actions : List Action} {h : History M T}
    (hr : (start script held cancelled).play decode actions = some h) :
    h.Faithful decode script :=
  play_induction (fun hf ha => hf.act ha) (faithful_start decode script held cancelled) hr

end History
end Subscription
end FlowAccess
