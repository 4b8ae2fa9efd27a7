import FlowAccess.Proofs.Ccf.Grammar

/-!
# Readers of compact messages

A reader is described in two ways. It takes certain bytes off the front wherever the room suffices,
and finds a message too deep that begins with them everywhere else (`Reads`). And it takes whatever
has a form, and nothing else (`Takes`), where the room is right for the depth. Each way of putting
readers together has its law.
-/

namespace FlowAccess.Cadence.Ccf

open Cbor (IsHead IsBytes IsText)
open Piece Reader

/-- The reader takes exactly `bytes` from the front and answers `a` if the room `fits`; it finds
the message too deep if not. -/
def Reads {α : Type} (read : Reader α) (bytes : Bytes) (fits : Prop) (a : α) : Prop :=
  ∀ rest, (fits → read (bytes ++ rest) = .ok (a, rest)) ∧
    (¬fits → read (bytes ++ rest) = .error (.malformedCcf .tooDeep))

section
variable {α β : Type} {read : Reader α} {next : α → Reader β} {bs bs' : Bytes} {p q : Prop}
  {a : α} {b : β}

theorem bind_ok {input rest : Bytes} (h : read input = .ok (a, rest)) :
    (read >>= next) input = next a rest := by
  show (read input).bind _ = _
  rw [h]; rfl

theorem bind_error {input : Bytes} {e : Error} (h : read input = .error e) :
    (read >>= next) input = .error e := by
  show (read input).bind _ = _
  rw [h]; rfl

namespace Reads

theorem congr (h : Reads read bs p a) (hpq : p ↔ q) : Reads read bs q a :=
  propext hpq ▸ h

/-- What fits any room fits one that is large enough. -/
theorem of_true (h : Reads read bs True a) (hp : p) : Reads read bs p a :=
  h.congr (iff_of_true trivial hp)

theorem pure (a : α) : Reads (Pure.pure a) [] True a :=
  fun _ => ⟨fun _ => rfl, fun h => absurd trivial h⟩

/-- No room is left. -/
theorem tooDeep (bs : Bytes) (a : α) (h : ¬p) : Reads (Reader.fail .tooDeep) bs p a :=
  fun _ => ⟨fun hp => absurd hp h, fun _ => rfl⟩

theorem cbor {read : Cbor.Reader α} (h : Cbor.Reads read bs a) :
    Reads (Reader.cbor read) bs True a :=
  fun rest => ⟨fun _ => by simp only [Reader.cbor, h rest], fun h => absurd trivial h⟩

theorem bind (h : Reads read bs p a) (h' : Reads (next a) bs' q b) :
    Reads (read >>= next) (bs ++ bs') (p ∧ q) b := by
  intro rest
  rw [List.append_assoc]
  obtain ⟨hp, hp'⟩ := h (bs' ++ rest)
  obtain ⟨hq, hq'⟩ := h' rest
  refine ⟨fun ⟨p, q⟩ => (bind_ok (hp p)).trans (hq q), fun hpq => ?_⟩
  by_cases p : p
  · exact (bind_ok (hp p)).trans (hq' fun q => hpq ⟨p, q⟩)
  · exact bind_error (hp' p)

/-- A look at what comes next takes nothing. -/
theorem look {γ : Type} {look : Cbor.Reader γ} {next : γ → Reader α} {c : γ}
    (h : ∀ rest, look (bs ++ rest) = some (c, bs ++ rest)) (hn : Reads (next c) bs p a) :
    Reads (Reader.cbor look >>= next) bs p a := fun rest => by
  have : Reader.cbor look (bs ++ rest) = .ok (c, bs ++ rest) := by simp only [Reader.cbor, h]
  rw [bind_ok this]
  exact hn rest

/-- A part that fits in any room stands first. -/
theorem andThen (h : Reads read bs True a) (h' : Reads (next a) bs' q b) :
    Reads (read >>= next) (bs ++ bs') q b :=
  (h.bind h').congr (iff_of_eq (true_and q))

/-- What follows a reader may take nothing. -/
theorem finish (h : Reads read bs p a) (h' : Reads (next a) [] True b) :
    Reads (read >>= next) bs p b :=
  List.append_nil bs ▸ (h.bind h').congr (iff_of_eq (and_true p))

end Reads
end

/-- The reader takes what has a form from the front, whatever follows, and nothing else. -/
structure Takes {α : Type} (read : Reader α) (form : Bytes → α → Prop) : Prop where
  sound {input rest : Bytes} {a : α} (h : read input = .ok (a, rest)) :
    ∃ bs, form bs a ∧ input = bs ++ rest
  complete {bs : Bytes} {a : α} (h : form bs a) : Reads read bs True a

section
variable {α β γ : Type} {read : Reader α} {form : Bytes → α → Prop} {input rest : Bytes}

theorem of_bind_ok {next : α → Reader β} {b : β} (h : (read >>= next) input = .ok (b, rest)) :
    ∃ a mid, read input = .ok (a, mid) ∧ next a mid = .ok (b, rest) := by
  cases hr : read input with
  | error e =>
    rw [bind_error hr] at h
    cases h
  | ok p =>
    obtain ⟨a, mid⟩ := p
    rw [bind_ok hr] at h
    exact ⟨a, mid, rfl, h⟩

namespace Takes

/-- A reader that goes on has taken something first. -/
theorem split {next : α → Reader β} {b : β} (ht : Takes read form)
    (h : (read >>= next) input = .ok (b, rest)) :
    ∃ a bs mid, form bs a ∧ input = bs ++ mid ∧ next a mid = .ok (b, rest) := by
  obtain ⟨a, mid, hr, hn⟩ := of_bind_ok h
  obtain ⟨bs, hf, rfl⟩ := ht.sound hr
  exact ⟨a, bs, mid, hf, rfl, hn⟩

/-- What has a form is not the front of something else that has it, and stands for one thing. -/
theorem unique (ht : Takes read form) {bs bs' rest' : Bytes} {a a' : α} (h : form bs a)
    (h' : form bs' a') (he : bs ++ rest = bs' ++ rest') : bs = bs' ∧ a = a' := by
  have hr := (ht.complete h rest).1 trivial
  have hr' := (ht.complete h' rest').1 trivial
  rw [he, hr'] at hr
  cases hr
  exact ⟨List.append_cancel_right he, rfl⟩

theorem cbor {read : Cbor.Reader α} (h : Cbor.Takes read form) : Takes (Reader.cbor read) form where
  sound {input rest a} hr := by
    simp only [Reader.cbor] at hr
    split at hr
    · cases hr
      exact h.sound ‹_›
    · cases hr
  complete hf := .cbor (h.complete hf)

theorem congr {form' : Bytes → α → Prop} (h : Takes read form)
    (hf : ∀ bs a, form bs a ↔ form' bs a) : Takes read form' := by
  obtain rfl : form = form' := funext fun bs => funext fun a => propext (hf bs a)
  exact h

/-- What is read is one of two forms, according to what it shows before. -/
theorem look {look : Cbor.Reader Bool} {yes no : Reader α} {p q : Bytes → α → Prop}
    (hl : ∀ {input c rest}, look input = some (c, rest) → rest = input)
    (hy : Takes yes p) (hn : Takes no q)
    (hs : ∀ {bs a}, p bs a ∨ q bs a → ∃ c, Cbor.Shows look bs c) :
    Takes (do if (← Reader.cbor look) then yes else no) fun bs a =>
      p bs a ∧ Cbor.Shows look bs true ∨ q bs a ∧ Cbor.Shows look bs false where
  sound {input rest a} h := by
    obtain ⟨c, mid, hc, h₁⟩ := of_bind_ok h
    simp only [Reader.cbor] at hc
    split at hc
    · cases hc
      rename_i hlook
      obtain rfl := hl hlook
      cases c with
      | true =>
        obtain ⟨bs, hf, rfl⟩ := hy.sound h₁
        obtain ⟨c, hc⟩ := hs (.inl hf)
        obtain rfl := hc.eq hlook
        exact ⟨bs, .inl ⟨hf, hc⟩, rfl⟩
      | false =>
        obtain ⟨bs, hf, rfl⟩ := hn.sound h₁
        obtain ⟨c, hc⟩ := hs (.inr hf)
        obtain rfl := hc.eq hlook
        exact ⟨bs, .inr ⟨hf, hc⟩, rfl⟩
    · cases hc
  complete h := by
    rcases h with ⟨h, hc⟩ | ⟨h, hc⟩
    · exact .look hc (hy.complete h)
    · exact .look hc (hn.complete h)

/-- Nothing is read but what is expected. -/
theorem expect [DecidableEq α] (h : Takes read form) (expected : α) (fault : α → CcfFault) :
    Takes (do
      let a ← read
      if a ≠ expected then fail (fault a)) fun bs _ => form bs expected where
  sound hr := by
    obtain ⟨a, bs, mid, hf, rfl, h₁⟩ := h.split hr
    split at h₁
    · cases h₁
    · obtain rfl := Decidable.not_not.1 ‹_›
      cases h₁
      exact ⟨bs, hf, rfl⟩
  complete hf := by
    refine (h.complete hf).finish ?_
    rw [if_neg (not_not_intro rfl)]
    exact .pure _

/-- A reader whose answer is put into a value. -/
theorem map (h : Takes read form) (f : α → β) :
    Takes (do return f (← read)) fun bs b => ∃ a, form bs a ∧ b = f a where
  sound hr := by
    obtain ⟨a, bs, mid, hf, rfl, h₁⟩ := h.split hr
    cases h₁
    exact ⟨bs, ⟨a, hf, rfl⟩, rfl⟩
  complete := by
    rintro bs _ ⟨a, hf, rfl⟩
    exact (h.complete hf).finish (.pure _)

/-- What is read one after the other are pieces of one form. -/
theorem many (h : Takes read form) (n : Nat) : Takes (Reader.many read n) fun bs as =>
    ∃ pieces : List (Piece α), pieces.length = n ∧ (∀ p ∈ pieces, form p.bytes p.content) ∧
      bs = join pieces ∧ as = contents pieces where
  sound {input rest as} hr := by
    induction n generalizing input rest as with
    | zero =>
      cases hr
      exact ⟨[], ⟨[], rfl, nofun, rfl, rfl⟩, rfl⟩
    | succ n ih =>
      obtain ⟨a, bs, mid, hf, rfl, hn⟩ := h.split hr
      obtain ⟨as, mid', hm, hp⟩ := of_bind_ok hn
      cases hp
      obtain ⟨_, ⟨pieces, rfl, hps, rfl, rfl⟩, rfl⟩ := ih hm
      refine ⟨_, ⟨⟨bs, a⟩ :: pieces, rfl, ?_, rfl, rfl⟩, (List.append_assoc ..).symm⟩
      intro p hp
      rcases List.mem_cons.1 hp with rfl | hp
      · exact hf
      · exact hps p hp
  complete := by
    rintro _ _ ⟨pieces, rfl, hps, rfl, rfl⟩
    induction pieces with
    | nil => exact .pure []
    | cons p pieces ih =>
      have hrest := ih fun q hq => hps q (.tail _ hq)
      exact (h.complete (hps p (.head _))).andThen (hrest.finish (.pure _))

end Takes

/-- What is read for the members of a list are pieces, each of the form of its member. -/
theorem takes_eachOf {read : β → Reader γ} {form : β → Bytes → γ → Prop}
    (h : ∀ b, Takes (read b) (form b)) (list : List (α × β)) :
    Takes (eachOf read list) fun bs cs => ∃ pieces : List (Piece γ), pieces.length = list.length ∧
      (∀ q ∈ list.zip pieces, form q.1.2 q.2.bytes q.2.content) ∧ bs = join pieces ∧
      cs = (list.map (·.1)).zip (contents pieces) where
  sound {input rest cs} hr := by
    induction list generalizing input rest cs with
    | nil =>
      cases hr
      exact ⟨[], ⟨[], rfl, nofun, rfl, rfl⟩, rfl⟩
    | cons m list ih =>
      obtain ⟨c, bs, mid, hf, rfl, hn⟩ := (h m.2).split hr
      obtain ⟨cs, mid', hm, hp⟩ := of_bind_ok hn
      cases hp
      obtain ⟨_, ⟨pieces, hl, hps, rfl, rfl⟩, rfl⟩ := ih hm
      refine ⟨_, ⟨⟨bs, c⟩ :: pieces, congrArg (· + 1) hl, ?_, rfl, rfl⟩,
        (List.append_assoc ..).symm⟩
      intro q hq
      rcases List.mem_cons.1 hq with rfl | hq
      · exact hf
      · exact hps q hq
  complete := by
    rintro _ _ ⟨pieces, hl, hps, rfl, rfl⟩
    induction list generalizing pieces with
    | nil =>
      obtain rfl := List.length_eq_zero_iff.1 hl
      exact .pure []
    | cons m list ih =>
      cases pieces with
      | nil => simp at hl
      | cons p pieces =>
        have hrest := ih pieces (by simpa using hl) fun q hq => hps q (.tail _ hq)
        exact ((h m.2).complete (hps (m, p) (.head _))).andThen (hrest.finish (.pure _))

end

/-! ## Heads -/

theorem takes_tag : Takes (cbor Cbor.Reader.tag) IsTag := .cbor (Cbor.takes_head .tag)

theorem takes_bytes : Takes (cbor Cbor.Reader.bytes) IsBytes := .cbor Cbor.takes_bytes

theorem takes_text : Takes (cbor Cbor.Reader.text) IsText := .cbor Cbor.takes_text

theorem takes_array : Takes (cbor Cbor.Reader.array) Cbor.IsArrayHead := .cbor Cbor.takes_array

theorem takes_length (part : CcfArray) : Takes (Reader.length part) IsCount where
  sound h := by
    obtain ⟨_, bs, mid, hf, rfl, hn⟩ := takes_array.split h
    cases hf with
    | definite hf =>
      cases hn
      exact ⟨bs, hf, rfl⟩
    | indefinite hm hb => cases hn
  complete h := (takes_array.complete (.definite h)).finish (.pure _)

theorem takes_count (n : Nat) (part : CcfArray) :
    Takes (Reader.array n part) fun bs _ => IsCount bs n :=
  (takes_length part).expect n fun _ => .wrongCount part n

theorem takes_typedValue : Takes Reader.typedValue fun bs _ => IsTag bs Tag.typedValue :=
  takes_tag.expect Tag.typedValue .expectedTypedValue

end FlowAccess.Cadence.Ccf
