import FlowAccess.Proofs.Subscription.Delivery

/-!
# Errors of a cancelled subscription

Wherever the task of a subscription may wait it minds the token, and a failure of the stream that is
found after the token was cancelled is passed over. A message that has been received is decoded all
the same: if it cannot be, its error comes up even then, and no other error does. What waited on the
error channel before stays there until it is taken (`error_after_cancel`).
-/

namespace FlowAccess.Subscription

variable {M T : Type} {decode : M → Except ClientError T} {s : Subscription M T}

/-- The message at hand cannot be decoded, and somebody listens for the error. -/
def Undecodable (decode : M → Except ClientError T) (s : Subscription M T) (e : ClientError) :
    Prop :=
  s.listening ≠ .toNothing ∧ ∃ m, s.position = .received (.message m) ∧ decode m = .error e

/-- A step of a cancelled task leaves the error channel as it is, but for a message at hand that
cannot be decoded. -/
theorem TaskStep.error_perform {move : Move M T} (hs : TaskStep decode s move)
    (hc : s.cancelled = true) :
    (s.perform move).error = s.error ∨
      ∃ e, Undecodable decode s e ∧ (s.perform move).error = some e := by
  cases hs with
  | cancelled | consumerGone | «end» | send => exact .inl rfl
  | reserve _ h0 | ask _ h0 | receive _ h0 | fail _ h0 => simp [hc] at h0
  | @refuse m e hp hd =>
    rcases errorAfter_eq_or s (.failed e) with he | ⟨e', heq, hl, he⟩
    · exact .inl he
    · obtain rfl : e = e' := Exit.failed.inj heq
      exact .inr ⟨e, ⟨hl, m, hp, hd⟩, he⟩

/-- A cancelled task receives nothing. -/
theorem TaskStep.position_perform_ne {move : Move M T} (hs : TaskStep decode s move)
    (hc : s.cancelled = true) (m : M) : (s.perform move).position ≠ .received (.message m) := by
  cases hs with
  | cancelled | consumerGone | «end» | send | refuse => nofun
  | reserve _ h0 | ask _ h0 | receive _ h0 | fail _ h0 => simp [hc] at h0

/-- A message at hand that cannot be decoded puts its error on the channel. -/
theorem Undecodable.error_examine {e : ClientError} (h : Undecodable decode s e) {r : Received M}
    (hp : s.position = .received r) : (s.perform (s.examine decode r)).error = some e := by
  obtain ⟨hl, m, hm, hd⟩ := h
  obtain rfl : r = .message m := TaskPosition.received.inj (hp.symm.trans hm)
  rw [examine, hd]
  exact if_neg hl

namespace History

variable {script : List (Except TransportError M)} {held cancelled : Bool} {actions : List Action}
  {h k k' : History M T}

/-- The answer at hand is examined in the next step, which puts an error on the channel only for a
message that cannot be decoded. -/
theorem Faithful.act_task_received (hf : h.Faithful decode script) (hc : h.state.cancelled = true)
    {r : Received M} (hp : h.state.position = .received r) :
    ∃ h', h.act decode .task = some h' ∧ h'.seen = [] ∧
      ∀ e, h'.state.error = some e ↔ Undecodable decode h.state e := by
  have hx := hf.exit?_eq_none (by simp [hp])
  have hnext : h.state.next? decode = some (h.state.examine decode r) := by rw [next?, hp]
  refine ⟨_, Option.map_eq_some_iff.2 ⟨_, hnext, rfl⟩, hf.seen_eq_nil hx, fun e => ⟨?_, ?_⟩⟩
  · intro he
    rcases (taskStep_of_next? hnext).error_perform hc with heq | ⟨e', hu, he'⟩
    · have he : (h.state.perform (h.state.examine decode r)).error = some e := he
      rw [heq, hf.error_eq_none hx] at he
      cases he
    · obtain rfl : e' = e := Option.some.inj (he'.symm.trans he)
      exact hu
  · intro hu
    exact hu.error_examine hp

/-- What holds of a history `k` that continues a cancelled one. Once the task has moved there is no
message at hand, and never will be. -/
structure Closing (decode : M → Except ClientError T) (h k : History M T) : Prop where
  cancelled : k.state.cancelled = true
  deaf : h.state.listening = .toNothing → k.state.listening = .toNothing
  position : k.state.position = h.state.position ∨ ∀ m, k.state.position ≠ .received (.message m)
  carries : ∀ e, k.Carries e → h.Carries e ∨ Undecodable decode h.state e

/-- A message that is at hand was so when the token was cancelled. -/
theorem Closing.undecodable (hk : Closing decode h k) {e : ClientError}
    (hu : Undecodable decode k.state e) : Undecodable decode h.state e := by
  obtain ⟨hl, m, hp, hd⟩ := hu
  rcases hk.position with heq | hne
  · exact ⟨mt hk.deaf hl, m, heq ▸ hp, hd⟩
  · exact absurd hp (hne m)

theorem Closing.task (hk : Closing decode h k) {move : Move M T}
    (hs : TaskStep decode k.state move) : Closing decode h (k.record move) where
  cancelled := (perform_cancelled k.state move).trans hk.cancelled
  deaf hl := (perform_listening k.state move).trans (hk.deaf hl)
  position := .inr (hs.position_perform_ne hk.cancelled)
  carries e he := by
    rcases he with he | he
    · have he : (k.state.perform move).error = some e := he
      rcases hs.error_perform hk.cancelled with heq | ⟨e', hu, he'⟩
      · exact hk.carries e (.inl (heq ▸ he))
      · obtain rfl : e' = e := Option.some.inj (he'.symm.trans he)
        exact .inr (hk.undecodable hu)
    · exact hk.carries e (.inr he)

theorem Closing.of_taskUnmoved (hk : Closing decode h k) (hu : TaskUnmoved k k') :
    Closing decode h k' where
  cancelled := hu.cancelled hk.cancelled
  deaf hl := hu.deaf (hk.deaf hl)
  position := by
    rw [hu.position_eq]
    exact hk.position
  carries e he := hk.carries e (hu.carries e he)

/-- Every action of whomever closes the subscription further. -/
theorem Closing.act (hk : Closing decode h k) {a : Action} (ha : k.act decode a = some k') :
    Closing decode h k' := by
  by_cases hne : a = .task
  · subst hne
    obtain ⟨move, hm, rfl⟩ := Option.map_eq_some_iff.1 ha
    exact hk.task (taskStep_of_next? hm)
  · exact hk.of_taskUnmoved (taskUnmoved_of_act hne ha)

/-- An error that waits stays readable: the consumer takes it or can still take it. -/
theorem Faithful.sees_or_can_see (hf : h.Faithful decode script) {e : ClientError}
    (he : h.state.error = some e) {more : List Action} (hr : h.play decode more = some k)
    (hl : k.state.listening ≠ .toNothing) :
    k.seen = h.seen ++ [e] ∨ ∃ k', k.act decode .takeError = some k' ∧ k'.seen = h.seen ++ [e] := by
  have hlh : h.state.listening ≠ .toNothing := fun hdeaf => by
    rw [hf.deaf hdeaf] at he
    cases he
  have hreported : h.seen ++ [e] = h.reported := by
    rw [← hf.seen_eq hlh, he]
    rfl
  have hx : h.exit? ≠ none := fun hx => by simp [hf.reported_eq_nil hx] at hreported
  obtain ⟨hfk, -, -, hrk⟩ := hf.play_of_exited hx hr
  have hseen := hfk.seen_eq hl
  rw [hrk, ← hreported] at hseen
  cases hke : k.state.error with
  | none =>
    rw [hke, Option.toList_none, List.append_nil] at hseen
    exact .inl hseen
  | some e' =>
    rw [hke, Option.toList_some] at hseen
    refine .inr ⟨{ k with state := { k.state with error := none }, seen := k.seen ++ [e'] }, ?_,
      hseen⟩
    simp only [History.act, pollError, hke]

/-- What comes of the error channel after a cancellation. An answer of the stream that is at hand
then is examined with nothing on the channel, and puts an error there if and only if it is a message
that cannot be decoded and somebody listens; a failure of the stream never does. Whatever happens
next, no error comes up but that one and those from before, and an error that waits stays until it
is taken. -/
theorem error_after_cancel (hr : (start script held cancelled).play decode actions = some h)
    (hc : h.state.cancelled = true) :
    (∀ r, h.state.position = .received r → h.state.error = none ∧ h.seen = [] ∧
      ∃ h', h.act decode .task = some h' ∧ h'.seen = [] ∧
        ∀ e, h'.state.error = some e ↔ Undecodable decode h.state e) ∧
    ∀ more k, h.play decode more = some k →
      (∀ e, k.Carries e → h.Carries e ∨ Undecodable decode h.state e) ∧
      ∀ e, h.state.error = some e → k.state.listening ≠ .toNothing →
        k.seen = h.seen ++ [e] ∨
          ∃ k', k.act decode .takeError = some k' ∧ k'.seen = h.seen ++ [e] := by
  have hf := faithful_play hr
  refine ⟨fun r hp => ?_, fun more k hm => ⟨?_, fun e he hl => hf.sees_or_can_see he hm hl⟩⟩
  · have hx := hf.exit?_eq_none (by simp [hp])
    exact ⟨hf.error_eq_none hx, hf.seen_eq_nil hx, hf.act_task_received hc hp⟩
  · have hstart : Closing decode h h := ⟨hc, id, .inl rfl, fun _ => .inl⟩
    exact (play_induction (fun hk ha => hk.act ha) hstart hm).carries

/-- A stream is reset just before the subscription is cancelled. -/
theorem error_after_cancel_interrupted :
    ∃ h : History Nat Nat,
      (start interrupted false false).play .ok (untilReset ++ [.cancel]) = some h ∧
      h.state.cancelled = true ∧
      (∃ h', h.act .ok .task = some h' ∧ h'.seen = [] ∧ ∀ e, h'.state.error ≠ some e) ∧
      ∃ k, h.play .ok [.task, .closeItems] = some k ∧ ∀ e, ¬k.Carries e := by
  have hr : (start interrupted false false).play .ok (untilReset ++ [.cancel]) = some _ := rfl
  obtain ⟨hstep, hrun⟩ := error_after_cancel hr rfl
  have hnone {s : Subscription Nat Nat} {reset : TransportError}
      (hp : s.position = .received (.failure reset)) (e : ClientError) :
      ¬Undecodable .ok s e := by
    rintro ⟨-, m, hm, -⟩
    cases hp.symm.trans hm
  obtain ⟨-, -, h', ha, hseen, herror⟩ := hstep _ rfl
  refine ⟨_, hr, rfl, ⟨h', ha, hseen, fun e he => ?_⟩, _, rfl, fun e he => ?_⟩
  · exact hnone rfl e ((herror e).1 he)
  · rcases (hrun [.task, .closeItems] _ rfl).1 e he with (hwaits | hseen) | hu
    · cases hwaits
    · cases hseen
    · exact hnone rfl e hu

/-- A decoder that refuses every message. -/
def refuseAll (_ : Unit) : Except ClientError Unit := .error (.decoding (.missingField "message"))

/-- A subscription that is cancelled with a message at hand that cannot be decoded gets an error on
the channel that was empty. -/
theorem error_although_cancelled :
    ¬∀ (actions : List Action) (h h' : History Unit Unit) (r : Received Unit),
      (start [.ok ()] false false).play refuseAll actions = some h → h.state.cancelled = true →
      h.state.position = .received r → h.act refuseAll .task = some h' →
      h'.state.error = h.state.error := by
  intro hsilent
  have h := hsilent [.task, .task, .task, .cancel] _ _ _ rfl rfl rfl rfl
  cases h

end History
end FlowAccess.Subscription
