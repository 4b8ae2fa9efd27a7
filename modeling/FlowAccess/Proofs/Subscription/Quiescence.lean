import FlowAccess.Proofs.Subscription.Delivery

/-!
# A cancelled subscription comes to rest

From wherever it is cancelled, a subscription asks the stream for nothing more and receives nothing
more. A message that is at hand may still become an item, an item that waits can still be taken, and
with its second step at the latest the task exits, which closes both channels
(`quiesces_after_cancel`). A task that has exited does not notice a cancellation.
-/

namespace FlowAccess

variable {M T : Type}

/-- How many steps a task has left once it is cancelled: a message at hand is sent before the token
is looked at. -/
def TaskPosition.stepsLeft : TaskPosition M → Nat
  | .exited => 0
  | .received (.message _) => 2
  | _ => 1

theorem TaskPosition.stepsLeft_le (p : TaskPosition M) : p.stepsLeft ≤ 2 := by
  unfold stepsLeft
  split <;> decide

theorem TaskPosition.stepsLeft_eq_zero_iff {p : TaskPosition M} :
    p.stepsLeft = 0 ↔ p = .exited := by
  unfold stepsLeft
  split <;> simp_all

namespace Subscription

/-- Once the task has exited, both channels are closed as soon as what waits has been taken. -/
theorem closed_of_exited {s : Subscription M T} (hp : s.position = .exited) :
    s.pollItem.2.pollItem.1 = .closed ∧ s.pollError.2.pollError.1 = .closed := by
  have he : s.position.isExited = true := by rw [hp]; rfl
  constructor
  · cases hs : s.slot <;> simp [pollItem, hs, he]
  · cases hs : s.error <;> simp [pollError, hs, he]

namespace History

variable {decode : M → Except ClientError T} {script : List (Except TransportError M)}
  {held cancelled : Bool} {actions : List Action} {h k k' : History M T}

/-! ## Steps of a cancelled task -/

/-- What holds of a history `k` that continues a cancelled one. Until the task moves nothing has
been sent; after that it waits for the place of an item or has exited, and what was sent is at most
the message that was at hand. -/
structure Winding (decode : M → Except ClientError T) (h k : History M T) : Prop where
  cancelled : k.state.cancelled = true
  requests_eq : k.state.requests = h.state.requests
  script_eq : k.state.script = h.state.script
  sent : k.state.position = h.state.position ∧ k.sent = h.sent ∨
    (k.state.position = .reserving ∨ k.state.position = .exited) ∧
      (k.sent = h.sent ∨ ∃ m item, h.state.position = .received (.message m) ∧
        decode m = .ok item ∧ k.sent = h.sent ++ [item])

theorem Winding.sent_eq (hk : Winding decode h k) : k.sent = h.sent ∨
    ∃ m item, h.state.position = .received (.message m) ∧ decode m = .ok item ∧
      k.sent = h.sent ++ [item] :=
  hk.sent.elim (fun hs => .inl hs.2) (·.2)

/-- The task is where it was when it was cancelled, or where it receives nothing. -/
theorem Winding.position_eq (hk : Winding decode h k) :
    k.state.position = h.state.position ∨ k.state.position = .reserving ∨
      k.state.position = .exited :=
  hk.sent.elim (fun hs => .inl hs.1) (fun hs => .inr hs.1)

/-- A cancelled task sends the message at hand or exits, and has a step less left then. -/
theorem Winding.task (hk : Winding decode h k) (hf : k.Faithful decode script) {move : Move M T}
    (hs : TaskStep decode k.state move) :
    Winding decode h (k.record move) ∧
      (k.state.perform move).position.stepsLeft < k.state.position.stepsLeft := by
  have hleft : 0 < k.state.position.stepsLeft :=
    Nat.pos_of_ne_zero fun h0 => hs.position_ne_exited (TaskPosition.stepsLeft_eq_zero_iff.1 h0)
  cases hs with
  | cancelled | consumerGone | refuse | «end» =>
    refine ⟨⟨hk.cancelled, hk.requests_eq, hk.script_eq, .inr ⟨.inr rfl, ?_⟩⟩, hleft⟩
    simpa [record, perform] using hk.sent_eq
  | reserve _ hc | ask _ hc | receive _ hc | fail _ hc => simp [hk.cancelled] at hc
  | @send m item hpos hd =>
    -- a message is at hand only if the task has not moved
    have hsent : k.state.position = h.state.position ∧ k.sent = h.sent :=
      hk.sent.resolve_right fun hs => by simp [hpos] at hs
    have hslot := (hf.place (.inl (by simp [hpos, TaskPosition.hasPlace]))).2
    rw [record_send hslot]
    refine ⟨⟨hk.cancelled, hk.requests_eq, hk.script_eq, .inr ⟨.inl rfl, .inr ?_⟩⟩, ?_⟩
    · exact ⟨m, item, hsent.1 ▸ hpos, hd, congrArg (· ++ [item]) hsent.2⟩
    · rw [hpos]
      exact Nat.lt_succ_self 1

theorem Winding.of_taskUnmoved (hk : Winding decode h k) (hu : TaskUnmoved k k') :
    Winding decode h k' where
  cancelled := hu.cancelled hk.cancelled
  requests_eq := hu.requests_eq.trans hk.requests_eq
  script_eq := hu.script_eq.trans hk.script_eq
  sent := by
    rw [hu.position_eq, hu.sent_eq]
    exact hk.sent

/-- In a run after the cancellation, each step of the task uses up one of those that are left. -/
theorem Winding.play {more : List Action} (hk : Winding decode h k) (hf : k.Faithful decode script)
    (hr : k.play decode more = some k') :
    Winding decode h k' ∧
      k'.state.position.stepsLeft + more.count .task ≤ k.state.position.stepsLeft := by
  induction more generalizing k with
  | nil => cases hr; exact ⟨hk, Nat.le_refl _⟩
  | cons a more ih =>
    obtain ⟨k₁, ha, hr⟩ := Option.bind_eq_some_iff.1 hr
    have hf₁ := hf.act ha
    by_cases hne : a = .task
    · subst hne
      obtain ⟨move, hm, rfl⟩ := Option.map_eq_some_iff.1 ha
      obtain ⟨hk₁, hlt⟩ := hk.task hf (taskStep_of_next? hm)
      obtain ⟨hk', hle⟩ := ih hk₁ hf₁ hr
      have hle : (k.state.perform move).position.stepsLeft ≥ _ := hle
      exact ⟨hk', by rw [List.count_cons_self]; omega⟩
    · have hu := taskUnmoved_of_act hne ha
      obtain ⟨hk', hle⟩ := ih (hk.of_taskUnmoved hu) hf₁ hr
      rw [hu.position_eq] at hle
      exact ⟨hk', by rwa [List.count_cons_of_ne hne]⟩

/-- A cancelled task never waits. -/
theorem exists_act_task (hc : k.state.cancelled = true) (hp : k.state.position ≠ .exited) :
    ∃ k', k.act decode .task = some k' := by
  have hs : ∃ move, k.state.next? decode = some move := by
    unfold next?
    cases hpos : k.state.position with
    | reserving | reserved | receiving | received r => simp [hc]
    | exited => exact absurd hpos hp
  obtain ⟨move, hm⟩ := hs
  exact ⟨_, Option.map_eq_some_iff.2 ⟨move, hm, rfl⟩⟩

/-! ## Items and channels -/

/-- An end of the channel that is held has been held before. -/
theorem holding_of_play {more : List Action} (hr : h.play decode more = some k)
    (hh : k.holding = true) : h.holding = true := by
  refine play_induction (p := fun k => k.holding = true → h.holding = true)
    (fun {a k k'} hk ha => ?_) id hr hh
  by_cases hne : a = .task
  · subst hne
    obtain ⟨move, -, rfl⟩ := Option.map_eq_some_iff.1 ha
    exact hk
  · exact fun hh => hk ((taskUnmoved_of_act hne ha).holding hh)

/-- An item in the slot stays there until the consumer takes it, if nothing is sent. -/
theorem Faithful.takes_or_can_take (hf : h.Faithful decode script) (hk : k.Faithful decode script)
    {item : T} (hs : h.state.slot = some item) (hsent : k.sent = h.sent)
    (hh : k.holding = true) (hh' : h.holding = true) :
    k.taken = h.taken ++ [item] ∨
      ∃ k', k.act decode .takeItem = some k' ∧ k'.taken = h.taken ++ [item] := by
  have heq : k.taken ++ k.state.slot.toList = h.taken ++ [item] := by
    rw [hk.slot_eq hh, hsent, ← hf.slot_eq hh', hs]
    rfl
  cases hslot : k.state.slot with
  | none =>
    rw [hslot, Option.toList_none, List.append_nil] at heq
    exact .inl heq
  | some item' =>
    rw [hslot, Option.toList_some] at heq
    refine .inr ⟨{ k with state := { k.state with slot := none }, taken := k.taken ++ [item'] },
      ?_, heq⟩
    simp only [History.act, hh, pollItem, hslot]

/-! ## A task that has exited -/

/-- A history with the token cancelled. -/
def cancel (h : History M T) : History M T := { h with state := h.state.cancel }

/-- An action does the same after a cancellation, if the task has exited, and leaves it so. -/
theorem act_cancel_of_exited (hp : h.state.position = .exited) (a : Action) :
    h.cancel.act decode a = (h.act decode a).map cancel ∧
      ∀ h', h.act decode a = some h' → h'.state.position = .exited := by
  constructor
  · cases a with
    | task => simp [act, next?, cancel, Subscription.cancel, hp]
    | takeItem =>
      cases hh : h.holding <;> cases hs : h.state.slot <;>
        simp [act, pollItem, cancel, Subscription.cancel, hh, hs, hp, TaskPosition.isExited]
    | takeError =>
      cases he : h.state.error <;>
        simp [act, pollError, cancel, Subscription.cancel, he, hp, TaskPosition.isExited]
    | closeItems => simp only [act, cancel, closeItems_cancel, Option.map_some]
    | dropItems =>
      simp only [act, cancel, Subscription.dropItems, closeItems_cancel, Option.map_some]
      rfl
    | drop | cancel | release => rfl
  · intro h' ha
    by_cases hne : a = .task
    · subst hne
      simp [act, next?, hp] at ha
    · rw [(taskUnmoved_of_act hne ha).position_eq, hp]

/-- A task that has exited does not notice a cancellation, whatever happens after it. -/
theorem play_cancel_of_exited (hp : h.state.position = .exited) (more : List Action) :
    h.cancel.play decode more = (h.play decode more).map cancel := by
  induction more generalizing h with
  | nil => rfl
  | cons a more ih =>
    obtain ⟨hact, hexited⟩ : h.cancel.act decode a = (h.act decode a).map cancel ∧ _ :=
      act_cancel_of_exited hp a
    rw [play, play, hact]
    cases ha : h.act decode a with
    | none => rfl
    | some h₁ => exact ih (hexited h₁ ha)

/-! ## Rest -/

/-- After a cancellation, in whatever state it comes and whatever happens then: the stream is not
asked again and delivers nothing, the only item that may be added is the message that was at hand,
and an item that waited stays until it is taken. The task exits in at most two steps, which nothing
keeps it from taking, and then both channels are closed but for what waits in them. A cancellation
that finds the task exited changes nothing but the token. -/
theorem quiesces_after_cancel (hr : (start script held cancelled).play decode actions = some h) :
    (∀ more k, h.play decode (.cancel :: more) = some k →
      k.state.requests = h.state.requests ∧ k.state.script = h.state.script ∧
      (k.state.position = h.state.position ∨ k.state.position = .reserving ∨
        k.state.position = .exited) ∧
      (k.sent = h.sent ∨ ∃ m item, h.state.position = .received (.message m) ∧
        decode m = .ok item ∧ k.sent = h.sent ++ [item]) ∧
      (∀ item, h.state.slot = some item → k.holding = true → k.taken = h.taken ++ [item] ∨
        ∃ k', k.act decode .takeItem = some k' ∧ k'.taken = h.taken ++ [item]) ∧
      more.count .task ≤ 2 ∧
      (k.state.position ≠ .exited →
        more.count .task < 2 ∧ ∃ k', k.act decode .task = some k') ∧
      (k.state.position = .exited →
        k.state.pollItem.2.pollItem.1 = .closed ∧ k.state.pollError.2.pollError.1 = .closed)) ∧
    (h.state.position = .exited → ∀ more,
      h.play decode (.cancel :: more) = (h.play decode more).map cancel) := by
  have hf := faithful_play hr
  refine ⟨fun more k hm => ?_, fun hp more => play_cancel_of_exited hp more⟩
  have hstart : Winding decode h h.cancel := ⟨rfl, rfl, rfl, .inl ⟨rfl, rfl⟩⟩
  have hm' : h.cancel.play decode more = some k := hm
  obtain ⟨hk, hcount⟩ := hstart.play (hf.act (a := .cancel) rfl) hm'
  have htwo := h.cancel.state.position.stepsLeft_le
  refine ⟨hk.requests_eq, hk.script_eq, hk.position_eq, hk.sent_eq, fun item hs hh => ?_, by omega,
    fun hp => ⟨?_, exists_act_task hk.cancelled hp⟩, closed_of_exited⟩
  · -- while an item waits the task has no message at hand, so nothing was sent
    have hsent : k.sent = h.sent := hk.sent_eq.resolve_right fun ⟨m, _, hpos, _⟩ => by
      have hslot := (hf.place (.inl (by simp [hpos, TaskPosition.hasPlace]))).2
      rw [hs] at hslot
      cases hslot
    have hfk : k.Faithful decode script := play_induction (fun hk ha => hk.act ha) hf hm
    exact hf.takes_or_can_take hfk hs hsent hh (holding_of_play hm hh)
  · have hpos := mt TaskPosition.stepsLeft_eq_zero_iff.1 hp
    omega

/-- The token is cancelled with a message at hand, which still becomes an item. -/
theorem quiesces_after_cancel_interrupted :
    ∃ h k : History Nat Nat,
      (start interrupted false false).play .ok [.task, .task, .task] = some h ∧
      h.state.position = .received (.message 7) ∧
      h.play .ok [.cancel, .task, .takeItem, .task] = some k ∧
      k.state.requests = h.state.requests ∧ k.state.script = h.state.script ∧ k.taken = [7] ∧
      k.state.position = .exited ∧ k.state.pollItem.2.pollItem.1 = .closed ∧
      k.state.pollError.2.pollError.1 = .closed := by
  have hr : (start interrupted false false).play .ok [.task, .task, .task] = some _ := rfl
  obtain ⟨hrest, -⟩ := quiesces_after_cancel hr
  obtain ⟨hreq, hscript, -, -, -, -, -, hclosed⟩ := hrest [.task, .takeItem, .task] _ rfl
  exact ⟨_, _, hr, rfl, rfl, hreq, hscript, rfl, rfl, hclosed rfl⟩

end History
end Subscription
end FlowAccess
