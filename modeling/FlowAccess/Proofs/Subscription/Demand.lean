import FlowAccess.Proofs.Subscription.Delivery

/-!
# Requests follow demand

The task asks the stream only while it has the place of an item, and it gets the place only when the
consumer has taken everything before. So in every run the stream has been asked at most once more
than the consumer has taken items (`requests_follow_takes`). A step may find the place taken and the
answer pending, at hand or dropped; the count of requests that have not come to an item
(`TaskPosition.pending`) covers these cases.
-/

namespace FlowAccess

variable {M T : Type}

/-- How many requests the task has made that have not come to an item yet. -/
def TaskPosition.pending : TaskPosition M → Nat
  | .receiving | .received _ => 1
  | _ => 0

namespace Subscription.History

variable {decode : M → Except ClientError T} {script : List (Except TransportError M)}
  {held cancelled : Bool} {actions : List Action} {h h' : History M T}

/-- The items that the task has sent and the consumer has not taken. -/
def untaken (h : History M T) : List T := h.sent.drop h.taken.length

/-- How the requests of the task go with the items that were sent and taken. An exit may leave a
request without an item. -/
structure Paced (h : History M T) : Prop where
  requests_eq : h.exit? = none → h.state.requests = h.sent.length + h.state.position.pending
  sent_le : h.sent.length ≤ h.state.requests
  requests_le : h.state.requests ≤ h.taken.length + 1

theorem paced_start (script : List (Except TransportError M)) (held cancelled : Bool) :
    (start script held cancelled : History M T).Paced where
  requests_eq _ := rfl
  sent_le := Nat.le_refl 0
  requests_le := Nat.zero_le 1

/-- A step of the task keeps the pace: it asks with the place in its hands, when the consumer has
everything that was sent. -/
theorem Paced.task (hp : h.Paced) (hf : h.Faithful decode script) {move : Move M T}
    (hs : TaskStep decode h.state move) : (h.record move).Paced := by
  have hx := hf.exit?_eq_none hs.position_ne_exited
  have heq := hp.requests_eq hx
  cases hs with
  | cancelled | consumerGone | refuse | fail | «end» =>
    refine ⟨fun he => (by cases he), ?_, hp.requests_le⟩
    simpa [record, perform] using hp.sent_le
  | reserve hpos =>
    rw [hpos] at heq
    rw [record_reserve]
    exact ⟨fun _ => heq, hp.sent_le, hp.requests_le⟩
  | ask hpos =>
    have htaken := (hf.place (.inl (by simp [hpos, TaskPosition.hasPlace]))).1
    rw [hpos] at heq
    rw [record_ask]
    refine ⟨fun _ => congrArg (· + 1) heq, Nat.le_succ_of_le hp.sent_le, ?_⟩
    show h.state.requests + 1 ≤ h.taken.length + 1
    rw [heq, htaken]
    exact Nat.le_refl _
  | receive hpos =>
    rw [hpos] at heq
    rw [record_receive]
    exact ⟨fun _ => heq, hp.sent_le, hp.requests_le⟩
  | @send m item hpos =>
    have hslot := (hf.place (.inl (by simp [hpos, TaskPosition.hasPlace]))).2
    have hl : (h.record (.send item)).sent.length = h.state.requests := by
      rw [heq, hpos, record_send hslot, List.length_append]
      rfl
    exact ⟨fun _ => hl.symm, Nat.le_of_eq hl, hp.requests_le⟩

theorem Paced.of_taskUnmoved (hp : h.Paced) (hu : TaskUnmoved h h') : h'.Paced where
  requests_eq hx := by
    rw [hu.requests_eq, hu.sent_eq, hu.position_eq]
    exact hp.requests_eq (hu.exit?_eq ▸ hx)
  sent_le := by
    rw [hu.requests_eq, hu.sent_eq]
    exact hp.sent_le
  requests_le := by
    have hl := hu.taken_prefix.length_le
    have hr := hp.requests_le
    rw [hu.requests_eq]
    omega

/-- Every action keeps the pace. -/
theorem Paced.act (hp : h.Paced) (hf : h.Faithful decode script) {a : Action}
    (ha : h.act decode a = some h') : h'.Paced := by
  by_cases hne : a = .task
  · subst hne
    obtain ⟨move, hm, rfl⟩ := Option.map_eq_some_iff.1 ha
    exact hp.task hf (taskStep_of_next? hm)
  · exact hp.of_taskUnmoved (taskUnmoved_of_act hne ha)

/-- Every run keeps the pace. -/
theorem paced_play (hr : (start script held cancelled).play decode actions = some h) : h.Paced := by
  refine (play_induction (p := fun k => k.Faithful decode script ∧ k.Paced) (fun hk ha => ?_)
    ⟨faithful_start decode script held cancelled, paced_start script held cancelled⟩ hr).2
  exact ⟨hk.1.act ha, hk.2.act hk.1 ha⟩

/-- The task has the place of an item only while nothing that it sent waits. -/
theorem Faithful.untaken_eq_nil (hf : h.Faithful decode script)
    (hp : h.state.position.hasPlace = true) : h.untaken = [] ∧ h.state.slot = none := by
  obtain ⟨ht, hs⟩ := hf.place (.inl hp)
  exact ⟨by rw [untaken, ht, List.drop_length], hs⟩

/-- While the consumer holds its end of the channel, what it has not taken is in the slot. -/
theorem Faithful.untaken_eq_slot (hf : h.Faithful decode script) (hh : h.holding = true) :
    h.untaken = h.state.slot.toList := by
  rw [untaken, ← hf.slot_eq hh, List.drop_left]

/-- The stream is asked for at most one message more than the consumer has taken items. Of the items
that were sent at most one has not been taken, and none while the task has the place of one; so the
answer to a request finds the slot empty and the place taken. -/
theorem requests_follow_takes
    (hr : (start script held cancelled).play decode actions = some h) :
    h.state.requests ≤ h.taken.length + 1 ∧
    h.untaken.length + h.state.position.hasPlace.toNat ≤ 1 ∧
    (h.holding = true → h.untaken = h.state.slot.toList) ∧
    (h.state.position = .receiving →
      h.untaken = [] ∧ h.state.slot = none ∧ h.state.position.hasPlace = true) := by
  have hf := faithful_play hr
  have hp := paced_play hr
  refine ⟨hp.requests_le, ?_, hf.untaken_eq_slot, fun hpos => ?_⟩
  · cases hplace : h.state.position.hasPlace with
    | true =>
      rw [(hf.untaken_eq_nil hplace).1]
      exact Nat.le_refl 1
    | false =>
      have hsent := hp.sent_le
      have hreq := hp.requests_le
      rw [untaken, List.length_drop, Bool.toNat_false]
      omega
  · have hplace : h.state.position.hasPlace = true := by rw [hpos]; rfl
    obtain ⟨hu, hs⟩ := hf.untaken_eq_nil hplace
    exact ⟨hu, hs, hplace⟩

/-- The consumer has taken two items, and the third request is open. -/
theorem requests_follow_takes_interrupted :
    ∃ h : History Nat Nat,
      (start interrupted false false).play .ok untilReset.dropLast = some h ∧
      h.state.requests = 3 ∧ h.state.requests ≤ h.taken.length + 1 ∧
      h.untaken.length + h.state.position.hasPlace.toNat ≤ 1 ∧
      h.state.position = .receiving ∧ h.state.slot = none := by
  have hr : (start interrupted false false).play .ok untilReset.dropLast = some _ := rfl
  obtain ⟨hreq, hone, -, hreceiving⟩ := requests_follow_takes hr
  exact ⟨_, hr, rfl, hreq, hone, rfl, (hreceiving rfl).2.1⟩

end Subscription.History
end FlowAccess
