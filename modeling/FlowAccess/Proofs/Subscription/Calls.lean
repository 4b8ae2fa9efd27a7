import FlowAccess.Proofs.Subscription.Delivery

/-!
# Asking for the next result

A consumer that asks for the next result looks for an item and then for the error, and anything may
happen between the two looks and between two rounds of them. Still it gets the items in order, then
the error if there is one, and then the end for ever (`errors_follow_items`). The reason is that an
error waits only while no item does.
-/

namespace FlowAccess.Subscription

variable {M T : Type}

/-- A consumer that asks for the next result again and again. -/
structure Caller (M T : Type) where
  history : History M T
  /-- What it has been answered; none stands for the end. -/
  answers : List (Option (Except ClientError T)) := []
  /-- Whether it looks for the error next. -/
  atErrors : Bool := false
  /-- Whether it has found during this call that no items are left, and that no error is. -/
  itemsEnded : Bool := false
  errorsEnded : Bool := false

namespace Caller

/-- The end of a call. -/
def answer (c : Caller M T) (h : History M T) (r : Option (Except ClientError T)) : Caller M T :=
  { history := h, answers := c.answers ++ [r] }

def lookForItem (c : Caller M T) : Caller M T :=
  if c.itemsEnded then { c with atErrors := true }
  else
    match c.history.state.pollItem with
    | (.ready item, s) =>
      c.answer { c.history with state := s, taken := c.history.taken ++ [item] } (some (.ok item))
    | (.closed, _) => { c with atErrors := true, itemsEnded := true }
    | (.pending, _) => { c with atErrors := true }

/-- No error is left: the call is over if no items are left either. -/
def endErrors (c : Caller M T) : Caller M T :=
  if c.itemsEnded then c.answer c.history none
  else { c with atErrors := false, errorsEnded := true }

def lookForError (c : Caller M T) : Caller M T :=
  if c.errorsEnded then c.endErrors
  else
    match c.history.state.pollError with
    | (.ready e, s) =>
      c.answer { c.history with state := s, seen := c.history.seen ++ [e] } (some (.error e))
    | (.closed, _) => c.endErrors
    | (.pending, _) => { c with atErrors := false }

/-- What may happen while somebody asks for the next result. -/
inductive Turn where
  | look
  | task
  | closeItems
  | cancel
  | release
  deriving DecidableEq

def turn (decode : M → Except ClientError T) (c : Caller M T) : Turn → Option (Caller M T)
  | .look => some (if c.atErrors then c.lookForError else c.lookForItem)
  | .task => (c.history.act decode .task).map fun h => { c with history := h }
  | .closeItems => (c.history.act decode .closeItems).map fun h => { c with history := h }
  | .cancel => (c.history.act decode .cancel).map fun h => { c with history := h }
  | .release => (c.history.act decode .release).map fun h => { c with history := h }

def play (decode : M → Except ClientError T) : List Turn → Caller M T → Option (Caller M T)
  | [], c => some c
  | t :: ts, c => (c.turn decode t).bind (play decode ts)

def start (script : List (Except TransportError M)) (held cancelled : Bool) : Caller M T :=
  { history := .start script held cancelled }

/-- The two looks of a call in one go are one poll of the subscription. -/
theorem looks_eq_poll (h : History M T) :
    let c := lookForItem { history := h }
    let c := if c.atErrors then c.lookForError else c
    (c.answers, c.history.state) =
      match h.state.poll with
      | (.ready r, s) => ([some r], s)
      | (.closed, s) => ([none], s)
      | (.pending, s) => ([], s) := by
  have hs : (h.state.pollItem.1 = .pending ∨ h.state.pollItem.1 = .closed) →
      h.state.pollItem.2 = h.state := by
    unfold pollItem
    split
    · simp
    · split <;> simp
  have he : (h.state.pollError.1 = .pending ∨ h.state.pollError.1 = .closed) →
      h.state.pollError.2 = h.state := by
    unfold pollError
    split
    · simp
    · split <;> simp
  rcases hi : h.state.pollItem with ⟨item | _ | _, s⟩
  · simp [lookForItem, poll, hi, answer]
  all_goals
    obtain rfl : s = h.state := by simpa [hi] using hs
    rcases hp : h.state.pollError with ⟨e | _ | _, t⟩
    · simp [lookForItem, lookForError, poll, hi, hp, answer]
    all_goals
      obtain rfl : t = h.state := by simpa [hp] using he
      simp [lookForItem, lookForError, endErrors, poll, hi, hp, answer]

/-! ## The invariant -/

/-- What holds while somebody asks for the next result. -/
structure Told (decode : M → Except ClientError T) (script : List (Except TransportError M))
    (c : Caller M T) : Prop where
  faithful : c.history.Faithful decode script
  holding : c.history.holding = true
  listening : c.history.state.listening ≠ .toNothing
  answers_eq : ∃ ends : Nat, c.answers = c.history.taken.map (some ∘ .ok) ++
    c.history.seen.map (some ∘ .error) ++ List.replicate ends none ∧
    (ends ≠ 0 → c.history.state.position = .exited ∧ c.history.state.slot = none ∧
      c.history.state.error = none)
  items_ended : c.itemsEnded = true → c.history.state.slot = none ∧
    (c.history.state.position = .exited ∨
      c.history.state.position = .reserving ∧ c.history.state.listening ≠ .toAll)
  errors_ended : c.errorsEnded = true →
    c.history.state.position = .exited ∧ c.history.state.error = none

variable {decode : M → Except ClientError T} {script : List (Except TransportError M)}
  {c : Caller M T}

theorem told_start (decode : M → Except ClientError T) (script : List (Except TransportError M))
    (held cancelled : Bool) : (start script held cancelled : Caller M T).Told decode script where
  faithful := History.faithful_start decode script held cancelled
  holding := rfl
  listening := nofun
  answers_eq := ⟨0, rfl, nofun⟩
  items_ended := nofun
  errors_ended := nofun

/-- While an item waits, no error has been seen and no end has been told. -/
theorem Told.answers_of_slot (ht : c.Told decode script) {item : T}
    (hs : c.history.state.slot = some item) :
    c.answers = c.history.taken.map (some ∘ .ok) ∧ c.history.seen = [] := by
  obtain ⟨ends, ha, he⟩ := ht.answers_eq
  have hends : ends = 0 := Decidable.not_not.1 fun hn => by simp [(he hn).2.1] at hs
  have hreported : c.history.reported = [] := by
    obtain hr | ⟨e, hx, -⟩ := ht.faithful.reported_eq
    · exact hr
    · simp [(ht.faithful.place (.inr ⟨e, hx⟩)).2] at hs
  have hseen := ht.faithful.seen_eq ht.listening
  rw [hreported, List.append_eq_nil_iff] at hseen
  rw [ha, hends, hseen.1]
  simp

theorem Told.lookForItem (ht : c.Told decode script) : c.lookForItem.Told decode script := by
  unfold Caller.lookForItem
  split
  · exact { ht with }
  · split
    · rename_i hp
      obtain ⟨hs, rfl⟩ := pollItem_eq_ready hp
      obtain ⟨ha, hseen⟩ := ht.answers_of_slot hs
      exact {
        faithful := ht.faithful.takeItem ht.holding hs
        holding := ht.holding
        listening := ht.listening
        answers_eq := ⟨0, by simp [answer, ha, hseen], nofun⟩
        items_ended := nofun
        errors_ended := nofun }
    · exact { ht with items_ended := fun _ => pollItem_eq_closed ‹_› }
    · exact { ht with }

/-- Once no error is left and no items are left, there is nothing left. -/
theorem Told.endErrors (ht : c.Told decode script)
    (he : c.history.state.position = .exited ∧ c.history.state.error = none) :
    c.endErrors.Told decode script := by
  unfold Caller.endErrors
  split
  · rename_i hi
    obtain ⟨ends, ha, -⟩ := ht.answers_eq
    exact { ht with
      answers_eq := ⟨ends + 1, by simp [answer, ha, List.replicate_succ'],
        fun _ => ⟨he.1, (ht.items_ended hi).1, he.2⟩⟩
      items_ended := nofun
      errors_ended := nofun }
  · exact { ht with errors_ended := fun _ => he }

theorem Told.lookForError (ht : c.Told decode script) : c.lookForError.Told decode script := by
  unfold Caller.lookForError
  split
  · exact ht.endErrors (ht.errors_ended ‹_›)
  · split
    · rename_i hp
      obtain ⟨he, rfl⟩ := pollError_eq_ready hp
      obtain ⟨ends, ha, hends⟩ := ht.answers_eq
      have h0 : ends = 0 := Decidable.not_not.1 fun hn => by simp [(hends hn).2.2] at he
      exact {
        faithful := ht.faithful.takeError he
        holding := ht.holding
        listening := ht.listening
        answers_eq := ⟨0, by simp [answer, ha, h0], nofun⟩
        items_ended := nofun
        errors_ended := nofun }
    · exact ht.endErrors (pollError_eq_closed ‹_›)
    · exact { ht with }

/-- A step of the task opens no channel that has ended. -/
theorem Told.task (ht : c.Told decode script) {move : Move M T}
    (hs : TaskStep decode c.history.state move) :
    { c with history := c.history.record move }.Told decode script := by
  have hp := hs.position_ne_exited
  exact {
    faithful := ht.faithful.task hs
    holding := ht.holding
    listening := by
      show (c.history.state.perform move).listening ≠ .toNothing
      rw [perform_listening]
      exact ht.listening
    answers_eq := by
      obtain ⟨ends, ha, hends⟩ := ht.answers_eq
      exact ⟨ends, ha, fun hn => absurd (hends hn).1 hp⟩
    items_ended := fun hi => by
      obtain ⟨hslot, he | ⟨hr, hl⟩⟩ := ht.items_ended hi
      · exact absurd he hp
      · obtain ⟨hexited, hs⟩ := hs.position_perform hr hl
        exact ⟨hs.trans hslot, .inl hexited⟩
    errors_ended := fun he => absurd (ht.errors_ended he).1 hp }

theorem Told.closeItems (ht : c.Told decode script) :
    { c with history := { c.history with state := c.history.state.closeItems } }.Told
      decode script where
  faithful := ht.faithful.closeItems
  holding := ht.holding
  listening := mt (closeItems_listening_eq_toNothing_iff _).1 ht.listening
  answers_eq := by simpa using ht.answers_eq
  items_ended hi := by
    obtain ⟨hslot, he | ⟨hr, -⟩⟩ := ht.items_ended hi
    · simp [hslot, he]
    · simp [hslot, hr, closeItems_listening_ne]
  errors_ended := by simpa using ht.errors_ended

theorem Told.turn (ht : c.Told decode script) {t : Turn} {c' : Caller M T}
    (hc : c.turn decode t = some c') : c'.Told decode script := by
  cases t with
  | look =>
    cases hc
    split
    · exact ht.lookForError
    · exact ht.lookForItem
  | task =>
    simp only [Caller.turn, History.act, Option.map_map, Option.map_eq_some_iff] at hc
    obtain ⟨move, hm, rfl⟩ := hc
    exact ht.task (taskStep_of_next? hm)
  | closeItems => cases hc; exact ht.closeItems
  | cancel =>
    cases hc
    exact { ht with faithful := ht.faithful.act (a := .cancel) rfl }
  | release =>
    cases hc
    exact { ht with faithful := ht.faithful.act (a := .release) rfl }

theorem told_play {turns : List Turn} (ht : c.Told decode script) {c' : Caller M T}
    (hr : c.play decode turns = some c') : c'.Told decode script := by
  induction turns generalizing c with
  | nil => cases hr; exact ht
  | cons t ts ih =>
    obtain ⟨c₁, hc, hr⟩ := Option.bind_eq_some_iff.1 hr
    exact ih (ht.turn hc) hr

/-! ## Results -/

/-- The answers are items in the order of the stream, then the failure if it is reached, then ends;
an end is not told before all that was sent and reported has been. -/
theorem Told.exists_answers (ht : c.Told decode script) :
    ∃ items errors ends, c.answers = items.map (some ∘ .ok) ++ errors.map (some ∘ .error) ++
        List.replicate ends none ∧
      items.map .ok = (script.take items.length).map (outcome decode) ∧ errors.length ≤ 1 ∧
      (∀ e ∈ errors, items.length = good decode script ∧
        script[items.length]?.map (outcome decode) = some (.error e)) ∧
      (ends ≠ 0 → items = c.history.sent ∧
        ∀ e, c.history.exit? = some (.failed e) → errors = [e]) := by
  have hf := ht.faithful
  obtain ⟨ends, ha, hends⟩ := ht.answers_eq
  have hseen := hf.seen_eq ht.listening
  have hmem : ∀ e ∈ c.history.seen, e ∈ c.history.reported := fun e he =>
    hseen ▸ List.mem_append_left _ he
  refine ⟨c.history.taken, c.history.seen, ends, ha, ?_, ?_, fun e he => ?_, fun hn => ?_⟩
  · have hp := List.prefix_iff_eq_take.1 hf.taken_prefix
    have hs := congrArg (List.take c.history.taken.length) hf.sent_eq
    rw [← List.map_take, ← List.map_take, List.take_take,
      Nat.min_eq_left hf.taken_prefix.length_le, ← hp] at hs
    exact hs.symm
  · obtain hr | ⟨e, -, hr⟩ := hf.reported_eq
    all_goals
      have hl := congrArg List.length hseen
      simp only [hr, List.length_append, List.length_nil, List.length_singleton] at hl
      omega
  · obtain ⟨hx, -, hnext, -, hsent, -⟩ := hf.of_mem_reported (hmem e he)
    have hl : c.history.taken.length = good decode script := by rw [hf.good_eq hx, hsent]
    exact ⟨hl, hl ▸ hnext⟩
  · obtain ⟨-, hslot, herror⟩ := hends hn
    refine ⟨by simpa [hslot] using hf.slot_eq ht.holding, fun e hx => ?_⟩
    rw [herror, Option.toList_none, List.append_nil] at hseen
    rw [hseen, hf.reported_of_failed e hx ht.listening]

end Caller

/-- At most one error is reported: what waits on the error channel or has been taken from it, as
long as somebody listens. It is the failure at the first position of the stream that has one, the
consumer has every item before it by then, and nothing follows it; exits for other reasons report
nothing. So whoever asks for the next result again and again is given the items in order, then the
error if there is one, and then the end for ever. -/
theorem errors_follow_items (decode : M → Except ClientError T)
    (script : List (Except TransportError M)) (held cancelled : Bool) :
    (∀ actions h, (History.start script held cancelled).play decode actions = some h →
      h.reported.length ≤ 1 ∧ h.seen <+: h.reported ∧
      (h.state.listening ≠ .toNothing → h.seen ++ h.state.error.toList = h.reported) ∧
      (∀ reason, h.exit? = some reason → (∀ e, reason ≠ .failed e) → h.reported = []) ∧
      ∀ a h', h.act decode a = some h' → h'.reported ≠ h.reported →
        ∃ e, h.reported = [] ∧ h'.reported = [e] ∧
          script[good decode script]?.map (outcome decode) = some (.error e) ∧
          h.taken.map .ok = (script.take (good decode script)).map (outcome decode) ∧
          ∀ more h'', h'.play decode more = some h'' →
            h''.sent = h.taken ∧ h''.taken = h.taken ∧ h''.state.slot = none ∧
              h''.reported = [e]) ∧
    ∀ turns c, (Caller.start script held cancelled).play decode turns = some c →
      ∃ items errors ends, c.answers = items.map (some ∘ .ok) ++ errors.map (some ∘ .error) ++
          List.replicate ends none ∧
        items.map .ok = (script.take items.length).map (outcome decode) ∧ errors.length ≤ 1 ∧
        (∀ e ∈ errors, items.length = good decode script ∧
          script[items.length]?.map (outcome decode) = some (.error e)) ∧
        (ends ≠ 0 → items = c.history.sent ∧
          ∀ e, c.history.exit? = some (.failed e) → errors = [e]) := by
  refine ⟨fun actions h hr => ?_, fun turns c hr => ?_⟩
  · have hf := History.faithful_play hr
    refine ⟨?_, hf.seen_prefix, hf.seen_eq, fun reason hx hne => ?_,
      fun a h' ha hne => hf.of_reports ha hne⟩
    · obtain hr | ⟨e, -, hr⟩ := hf.reported_eq <;> simp [hr]
    · refine hf.reported_eq.resolve_right fun ⟨e, he, _⟩ => ?_
      rw [hx] at he
      exact hne e (Option.some.inj he)
  · exact (Caller.told_play (Caller.told_start decode script held cancelled) hr).exists_answers

/-- A consumer that looks for the next result at all times while the stream is read. -/
def eagerTurns : List Caller.Turn :=
  [.look, .task, .task, .look, .task, .task, .look, .task, .task, .task, .task, .look, .task,
    .task, .task, .task, .look, .look, .look, .look]

theorem errors_follow_items_interrupted :
    ∃ (h : History Nat Nat) (c : Caller Nat Nat),
      (History.start History.interrupted false false).play .ok
        (History.untilReset ++ [.task]) = some h ∧
      h.reported.length ≤ 1 ∧ h.seen ++ h.state.error.toList = h.reported ∧
      (Caller.start History.interrupted false false).play .ok eagerTurns = some c ∧
      c.answers = [some (.ok 7), some (.ok 8),
        some (.error (.transport { code := .unavailable, message := "reset" })), none] ∧
      ∃ (items : List Nat) (errors : List ClientError) (ends : Nat),
        c.answers = items.map (some ∘ .ok) ++ errors.map (some ∘ .error) ++
          List.replicate ends none ∧ errors.length ≤ 1 := by
  have run := errors_follow_items .ok History.interrupted false false
  have hh := run.1 (History.untilReset ++ [.task]) _ rfl
  obtain ⟨items, errors, ends, ha, -, hl, -⟩ := run.2 eagerTurns _ rfl
  exact ⟨_, _, rfl, hh.1, hh.2.2.1 nofun, rfl, rfl, items, errors, ends, ha, hl⟩

end FlowAccess.Subscription
