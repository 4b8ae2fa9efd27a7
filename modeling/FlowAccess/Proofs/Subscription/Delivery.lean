import FlowAccess.Proofs.Subscription.History

/-!
# What a subscription delivers

In every run the consumer gets the messages of the stream in order and then, if the stream or a
decoder fails, that one failure. A history that has an exit does not change any more but for what
the consumer takes, and what a cancelled subscription can still report was at hand when it was
cancelled.
-/

namespace FlowAccess.Subscription.History

variable {M T : Type} {decode : M → Except ClientError T}
  {script : List (Except TransportError M)} {held cancelled : Bool} {actions : List Action}
  {h h' : History M T}

/-! ## Items -/

/-- Entries that come to items are messages which decode to them. -/
theorem exists_messages {entries : List (Except TransportError M)} {items : List T}
    (he : entries.map (outcome decode) = items.map .ok) :
    ∃ messages : List M, entries = messages.map .ok ∧ messages.map decode = items.map .ok := by
  induction entries generalizing items with
  | nil => exact ⟨[], rfl, he⟩
  | cons entry entries ih =>
    cases items with
    | nil => cases he
    | cons item items =>
      rw [List.map_cons, List.map_cons, List.cons.injEq] at he
      obtain ⟨messages, rfl, hm⟩ := ih he.2
      cases entry with
      | ok m =>
        have hd : decode m = .ok item := he.1
        exact ⟨m :: messages, rfl, by rw [List.map_cons, hm, hd, List.map_cons]⟩
      | error e => cases he.1

theorem Faithful.length_le (hf : h.Faithful decode script) : h.sent.length ≤ script.length := by
  have hl := congrArg List.length hf.sent_eq
  simp only [List.length_map, List.length_take] at hl
  omega

theorem Faithful.good_eq (hf : h.Faithful decode script) {e : ClientError}
    (he : h.exit? = some (.failed e)) : good decode script = h.sent.length :=
  good_eq_of_failure hf.sent_eq (hf.failed e he)

/-- The items that the consumer has taken and the one that waits for it are what the first messages
of the stream decode to, as many as have been sent. If the task has exited on its own, these are
all messages before the first failure or the end. -/
theorem delivered_in_order (hr : (start script held cancelled).play decode actions = some h) :
    (h.holding = true → ∃ messages : List M,
      messages.length = h.sent.length ∧ messages.map .ok <+: script ∧
        messages.map decode = (h.taken ++ h.state.slot.toList).map .ok) ∧
    (h.exit? = some .cancelled → h.state.cancelled = true) ∧
    (h.exit? = some .consumerGone → h.state.listening ≠ .toAll) ∧
    (h.state.position = .exited → h.exit? ≠ some .cancelled → h.exit? ≠ some .consumerGone →
      h.sent.length = good decode script) := by
  have hf := faithful_play hr
  refine ⟨fun hh => ?_, hf.minded, hf.gone, fun hp hc hg => ?_⟩
  · obtain ⟨messages, hm, hd⟩ := exists_messages hf.sent_eq
    refine ⟨messages, ?_, hm ▸ List.take_prefix _ _, ?_⟩
    · have hl := congrArg List.length hd
      simpa using hl
    · rw [hd, hf.slot_eq hh]
  · cases he : h.exit? with
    | none => exact absurd he (hf.exited_iff.1 hp)
    | some reason =>
      cases reason with
      | cancelled => exact absurd he hc
      | consumerGone => exact absurd he hg
      | endOfStream =>
        exact (good_eq_of_end hf.sent_eq (Nat.le_antisymm hf.length_le (hf.endOfStream he))).symm
      | failed e => exact (hf.good_eq he).symm

/-- A stream of two messages that is reset. -/
def interrupted : List (Except TransportError Nat) :=
  [.ok 7, .ok 8, .error { code := .unavailable, message := "reset" }]

/-- The consumer takes each of the two messages when it comes, and then the task has the failure at
hand. -/
def untilReset : List Action :=
  [.task, .task, .task, .task, .takeItem, .task, .task, .task, .task, .takeItem, .task, .task,
    .task]

theorem delivered_in_order_interrupted :
    ∃ h : History Nat Nat,
      (start interrupted false false).play .ok (untilReset ++ [.task]) = some h ∧
      h.taken = [7, 8] ∧
      (∃ messages : List Nat, messages.length = 2 ∧ messages.map .ok <+: interrupted ∧
        messages.map Except.ok = ([7, 8].map Except.ok : List (Except ClientError Nat))) ∧
      h.state.position = .exited ∧ h.sent.length = good Except.ok interrupted := by
  have hr : (start interrupted false false).play .ok (untilReset ++ [.task]) = some _ := rfl
  exact ⟨_, hr, rfl, (delivered_in_order hr).1 rfl, rfl,
    (delivered_in_order hr).2.2.2 rfl nofun nofun⟩

/-! ## Errors -/

/-- Once the task has exited, it sends and reports nothing more. -/
theorem Faithful.act_of_exited (hf : h.Faithful decode script) (hx : h.exit? ≠ none) {a : Action}
    (ha : h.act decode a = some h') :
    h'.exit? = h.exit? ∧ h'.sent = h.sent ∧ h'.reported = h.reported := by
  by_cases hne : a = .task
  · subst hne
    obtain ⟨t, ht, -⟩ := Option.map_eq_some_iff.1 ha
    simp [next?, hf.exited_iff.2 hx] at ht
  · have hu := taskUnmoved_of_act hne ha
    exact ⟨hu.exit?_eq, hu.sent_eq, hu.reported_eq⟩

theorem Faithful.play_of_exited (hf : h.Faithful decode script) (hx : h.exit? ≠ none)
    (hr : h.play decode actions = some h') :
    h'.Faithful decode script ∧ h'.exit? = h.exit? ∧ h'.sent = h.sent ∧
      h'.reported = h.reported := by
  refine play_induction (p := fun k => k.Faithful decode script ∧ k.exit? = h.exit? ∧
    k.sent = h.sent ∧ k.reported = h.reported) (fun hk ha => ?_) ⟨hf, rfl, rfl, rfl⟩ hr
  obtain ⟨hk, he, hs, hp⟩ := hk
  obtain ⟨he', hs', hp'⟩ := hk.act_of_exited (by rwa [he]) ha
  exact ⟨hk.act ha, he'.trans he, hs'.trans hs, hp'.trans hp⟩

/-- Only the task reports, and not while the consumer takes anything. -/
theorem taken_eq_of_reported_ne {a : Action} (ha : h.act decode a = some h')
    (hne : h'.reported ≠ h.reported) : h'.taken = h.taken := by
  by_cases htask : a = .task
  · subst htask
    obtain ⟨move, -, rfl⟩ := Option.map_eq_some_iff.1 ha
    rfl
  · exact absurd (taskUnmoved_of_act htask ha).reported_eq hne

/-- An error that has been reported is the failure at the first position of the stream that has
one, and the consumer has every item before it. -/
theorem Faithful.of_mem_reported (hf : h.Faithful decode script) {e : ClientError}
    (he : e ∈ h.reported) :
    h.exit? = some (.failed e) ∧ h.reported = [e] ∧
      script[good decode script]?.map (outcome decode) = some (.error e) ∧
      h.taken.map .ok = (script.take (good decode script)).map (outcome decode) ∧
      h.sent = h.taken ∧ h.state.slot = none := by
  obtain hr | ⟨e', hx, hr⟩ := hf.reported_eq
  · rw [hr] at he
    cases he
  · rw [hr, List.mem_singleton] at he
    subst he
    obtain ⟨ht, hs⟩ := hf.place (.inr ⟨e, hx⟩)
    rw [hf.good_eq hx, ht]
    exact ⟨hx, hr, hf.failed e hx, hf.sent_eq.symm, rfl, hs⟩

/-- The step that reports an error finds the consumer with every item before the failure, and
nothing follows it. -/
theorem Faithful.of_reports (hf : h.Faithful decode script) {a : Action}
    (ha : h.act decode a = some h') (hne : h'.reported ≠ h.reported) :
    ∃ e, h.reported = [] ∧ h'.reported = [e] ∧
      script[good decode script]?.map (outcome decode) = some (.error e) ∧
      h.taken.map .ok = (script.take (good decode script)).map (outcome decode) ∧
      ∀ more h'', h'.play decode more = some h'' →
        h''.sent = h.taken ∧ h''.taken = h.taken ∧ h''.state.slot = none ∧ h''.reported = [e] := by
  have hf' := hf.act ha
  have hr : h.reported = [] :=
    hf.reported_eq_nil (Decidable.not_not.1 fun hx => hne (hf.act_of_exited hx ha).2.2)
  obtain ⟨e, hx, he⟩ := hf'.reported_eq.resolve_left (hr ▸ hne)
  have hmem : e ∈ h'.reported := he ▸ List.mem_singleton_self e
  obtain ⟨-, -, hnext, htaken, hsent, -⟩ := hf'.of_mem_reported hmem
  have heq := taken_eq_of_reported_ne ha hne
  rw [heq] at htaken hsent
  refine ⟨e, hr, he, hnext, htaken, fun more h'' hp => ?_⟩
  obtain ⟨hf'', -, hs, hp⟩ := hf'.play_of_exited (by simp [hx]) hp
  obtain ⟨-, -, -, -, ht, hslot⟩ := hf''.of_mem_reported (hp ▸ hmem)
  rw [hsent] at hs
  exact ⟨hs, ht ▸ hs, hslot, hp.trans he⟩

end FlowAccess.Subscription.History
