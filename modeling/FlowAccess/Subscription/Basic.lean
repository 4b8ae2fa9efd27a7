import FlowAccess.Client.Error

/-!
# Subscriptions

A subscription turns a stream of messages into items for a consumer. Its task takes the one place
for an item before it asks the stream for a message, so that it is never ahead of the consumer by
more than one item. The task ends when it is cancelled, when the stream ends, when the consumer
stops taking items, or with the first failure, which is the one error that the consumer gets.
-/

namespace FlowAccess

/-- What comes of asking a stream for a message. -/
inductive Received (M : Type) where
  | message (m : M)
  | failure (e : TransportError)
  | ended
  deriving DecidableEq

/-- Where the task of a subscription stands. -/
inductive TaskPosition (M : Type) where
  /-- It waits for the place of an item. -/
  | reserving
  /-- It has the place. -/
  | reserved
  /-- It has the place and has asked the stream for a message. -/
  | receiving
  /-- It has the place and an answer of the stream. -/
  | received (r : Received M)
  | exited
  deriving DecidableEq

/-- Whether the task has the place of an item. -/
def TaskPosition.hasPlace {M : Type} : TaskPosition M → Bool
  | .reserved | .receiving | .received _ => true
  | _ => false

def TaskPosition.isExited {M : Type} : TaskPosition M → Bool
  | .exited => true
  | _ => false

/-- What the consumer still listens to. -/
inductive Listening where
  | toAll
  /-- No new items. -/
  | toErrors
  | toNothing
  deriving DecidableEq

structure Subscription (M T : Type) where
  /-- What the stream still delivers. -/
  script : List (Except TransportError M)
  /-- Whether the stream stays open after that. -/
  held : Bool := false
  position : TaskPosition M := .reserving
  /-- The item that waits for the consumer. -/
  slot : Option T := none
  /-- The error that waits for the consumer. -/
  error : Option ClientError := none
  listening : Listening := .toAll
  cancelled : Bool := false
  /-- How often the stream has been asked for a message. -/
  requests : Nat := 0

namespace Subscription

variable {M T : Type}

/-! ## The task -/

/-- What the stream answers, and what it delivers after that; nothing while it stays open. -/
def delivery? (s : Subscription M T) : Option (Received M × List (Except TransportError M)) :=
  match s.script with
  | .ok m :: rest => some (.message m, rest)
  | .error e :: rest => some (.failure e, rest)
  | [] => if s.held then none else some (.ended, [])

/-- Why the task exits. -/
inductive Exit where
  | cancelled
  | endOfStream
  | consumerGone
  | failed (e : ClientError)
  deriving DecidableEq

/-- What the task does in one step. -/
inductive Move (M T : Type) where
  /-- It takes the place of an item. -/
  | reserve
  /-- It asks the stream for a message. -/
  | ask
  | receive (r : Received M) (rest : List (Except TransportError M))
  | send (item : T)
  | exit (reason : Exit)

/-- What the task makes of an answer of the stream. -/
def examine (decode : M → Except ClientError T) (s : Subscription M T) : Received M → Move M T
  | .message m =>
    match decode m with
    | .ok item => .send item
    | .error e => .exit (.failed e)
  | .failure e => .exit (if s.cancelled then .cancelled else .failed (.transport e))
  | .ended => .exit .endOfStream

/-- What the task does next; nothing if it waits or has exited. Wherever it may wait, it looks first
whether it has been cancelled. -/
def next? (decode : M → Except ClientError T) (s : Subscription M T) : Option (Move M T) :=
  match s.position with
  | .reserving =>
    if s.cancelled then some (.exit .cancelled)
    else if s.listening ≠ .toAll then some (.exit .consumerGone)
    else if s.slot.isSome then none
    else some .reserve
  | .reserved => some (if s.cancelled then .exit .cancelled else .ask)
  | .receiving =>
    if s.cancelled then some (.exit .cancelled)
    else s.delivery?.map fun (r, rest) => .receive r rest
  | .received r => some (s.examine decode r)
  | .exited => none

/-- The error that waits after an exit: a failure, unless nobody listens. -/
def errorAfter (s : Subscription M T) : Exit → Option ClientError
  | .failed e => if s.listening = .toNothing then s.error else some e
  | _ => s.error

/-- The subscription after a step of its task. -/
def perform (s : Subscription M T) : Move M T → Subscription M T
  | .reserve => { s with position := .reserved }
  | .ask => { s with position := .receiving, requests := s.requests + 1 }
  | .receive r rest => { s with position := .received r, script := rest }
  | .send item => { s with position := .reserving, slot := some item }
  | .exit reason => { s with position := .exited, error := s.errorAfter reason }

/-- One step of the task; none if it waits or has exited. -/
def advance? (decode : M → Except ClientError T) (s : Subscription M T) :
    Option (Subscription M T) :=
  (s.next? decode).map s.perform

/-- How many steps the task can still take on its own, at most. -/
def remaining (s : Subscription M T) : Nat :=
  4 * s.script.length +
    match s.position with
    | .exited => 0
    | .received .ended => 1
    | .receiving => 2
    | .reserved => 3
    | .reserving => 4
    | .received _ => 5

theorem remaining_exit_lt {s : Subscription M T} (h : s.position ≠ .exited) (reason : Exit) :
    (s.perform (.exit reason)).remaining < s.remaining := by
  simp only [remaining, perform]
  split
  · exact absurd ‹_› h
  all_goals omega

theorem remaining_examine_lt {decode : M → Except ClientError T} {s : Subscription M T}
    {r : Received M} (h : s.position = .received r) :
    (s.perform (s.examine decode r)).remaining < s.remaining := by
  cases r with
  | message m =>
    simp only [examine]
    split
    · simp [remaining, perform, h]
    · exact remaining_exit_lt (by simp [h]) _
  | failure e => exact remaining_exit_lt (by simp [h]) _
  | ended => exact remaining_exit_lt (by simp [h]) _

theorem remaining_delivery_lt {s : Subscription M T} {r : Received M}
    {rest : List (Except TransportError M)} (hp : s.position = .receiving)
    (h : s.delivery? = some (r, rest)) :
    (s.perform (.receive r rest)).remaining < s.remaining := by
  simp only [delivery?] at h
  split at h
  · cases h; simp [remaining, perform, *]; omega
  · cases h; simp [remaining, perform, *]; omega
  · split at h
    · cases h
    · cases h; simp [remaining, perform, *]

theorem remaining_perform_lt {decode : M → Except ClientError T} {s : Subscription M T}
    {move : Move M T} (h : s.next? decode = some move) :
    (s.perform move).remaining < s.remaining := by
  simp only [next?] at h
  split at h
  · have hexit := remaining_exit_lt (s := s) (by simp [*])
    split at h
    · cases h; exact hexit _
    · split at h
      · cases h; exact hexit _
      · split at h
        · cases h
        · cases h; simp [remaining, perform, *]
  · split at h
    · cases h; exact remaining_exit_lt (by simp [*]) _
    · cases h; simp [remaining, perform, *]
  · split at h
    · cases h; exact remaining_exit_lt (by simp [*]) _
    · obtain ⟨⟨r, rest⟩, hd, rfl⟩ := Option.map_eq_some_iff.1 h
      exact remaining_delivery_lt ‹_› hd
  · cases h; exact remaining_examine_lt ‹_›
  · cases h

theorem remaining_lt_of_advance? {decode : M → Except ClientError T} {s t : Subscription M T}
    (h : s.advance? decode = some t) : t.remaining < s.remaining := by
  obtain ⟨move, hm, rfl⟩ := Option.map_eq_some_iff.1 h
  exact remaining_perform_lt hm

/-- Lets the task run until it waits or has exited. -/
def settle (decode : M → Except ClientError T) (s : Subscription M T) : Subscription M T :=
  match _h : s.advance? decode with
  | none => s
  | some t => settle decode t
termination_by s.remaining
decreasing_by exact remaining_lt_of_advance? _h

/-! ## The consumer -/

/-- What a consumer gets when it looks once. -/
inductive Poll (α : Type) where
  | ready (a : α)
  | closed
  | pending
  deriving DecidableEq

/-- Takes the item that waits. No more come once the task has exited, or once new items are not
wanted and the task has no place for one. -/
def pollItem (s : Subscription M T) : Poll T × Subscription M T :=
  match s.slot with
  | some item => (.ready item, { s with slot := none })
  | none =>
    if s.position.isExited ∨ (s.listening ≠ .toAll ∧ !s.position.hasPlace) then (.closed, s)
    else (.pending, s)

/-- Takes the error that waits. -/
def pollError (s : Subscription M T) : Poll ClientError × Subscription M T :=
  match s.error with
  | some e => (.ready e, { s with error := none })
  | none => if s.position.isExited then (.closed, s) else (.pending, s)

/-- Takes an item, or else the error. -/
def poll (s : Subscription M T) : Poll (Except ClientError T) × Subscription M T :=
  match s.pollItem with
  | (.ready item, s) => (.ready (.ok item), s)
  | (items, s) =>
    match s.pollError with
    | (.ready e, s) => (.ready (.error e), s)
    | (.closed, s) =>
      match items with
      | .closed => (.closed, s)
      | _ => (.pending, s)
    | (.pending, s) => (.pending, s)

def cancel (s : Subscription M T) : Subscription M T := { s with cancelled := true }

/-- Lets the stream end after its script. -/
def release (s : Subscription M T) : Subscription M T := { s with held := false }

/-- Refuses items other than those that the task has a place for. -/
def closeItems (s : Subscription M T) : Subscription M T :=
  if s.listening = .toAll then { s with listening := .toErrors } else s

@[simp] theorem closeItems_script (s : Subscription M T) : s.closeItems.script = s.script := by
  unfold closeItems; split <;> rfl

@[simp] theorem closeItems_position (s : Subscription M T) :
    s.closeItems.position = s.position := by
  unfold closeItems; split <;> rfl

@[simp] theorem closeItems_slot (s : Subscription M T) : s.closeItems.slot = s.slot := by
  unfold closeItems; split <;> rfl

@[simp] theorem closeItems_error (s : Subscription M T) : s.closeItems.error = s.error := by
  unfold closeItems; split <;> rfl

@[simp] theorem closeItems_cancelled (s : Subscription M T) :
    s.closeItems.cancelled = s.cancelled := by
  unfold closeItems; split <;> rfl

@[simp] theorem closeItems_requests (s : Subscription M T) :
    s.closeItems.requests = s.requests := by
  unfold closeItems; split <;> rfl

theorem closeItems_cancel (s : Subscription M T) : s.cancel.closeItems = s.closeItems.cancel := by
  by_cases h : s.listening = .toAll <;> simp [closeItems, cancel, h]

theorem closeItems_listening_ne (s : Subscription M T) : s.closeItems.listening ≠ .toAll := by
  unfold closeItems
  split
  · simp
  · assumption

theorem closeItems_listening_eq_toNothing_iff (s : Subscription M T) :
    s.closeItems.listening = .toNothing ↔ s.listening = .toNothing := by
  unfold closeItems
  split <;> simp [*]

/-- Gives up the items: one that waits is lost, and no new ones are wanted. -/
def dropItems (s : Subscription M T) : Subscription M T := { s.closeItems with slot := none }

/-- Stops listening; what waits is lost. -/
def drop (s : Subscription M T) : Subscription M T :=
  { s with listening := .toNothing, slot := none, error := none }

/-- What a consumer gets that takes items as they come, so many at most, until there are no more. -/
def results (decode : M → Except ClientError T) :
    Nat → Subscription M T → List (Except ClientError T)
  | 0, _ => []
  | limit + 1, s =>
    match (s.settle decode).poll with
    | (.ready r, s) => r :: results decode limit s
    | _ => []

/-- What a consumer gets from a stream. Each result takes an entry of the script, at least. -/
def collect (decode : M → Except ClientError T) (script : List (Except TransportError M)) :
    List (Except ClientError T) :=
  results decode script.length { script }

end Subscription
end FlowAccess
