import FlowAccess.Error

/-!
# Outcomes

A computation that gives a value has given one at each of its steps (`ok_of_bind_ok`). Two that
report their failures in words of their own are compared by `toOption`, which forgets the words, and
two that differ in what they give by `error?`, which forgets that.
-/

namespace FlowAccess

variable {ε α β : Type}

theorem ok_of_bind_ok {x : Except ε α} {f : α → Except ε β} {b : β} (h : (x >>= f) = .ok b) :
    ∃ a, x = .ok a ∧ f a = .ok b := by
  cases x with
  | error e => cases h
  | ok a => exact ⟨a, rfl, h⟩

/-- A failed computation fails in one of its steps. -/
theorem error_of_bind_error {x : Except ε α} {f : α → Except ε β} {e : ε}
    (h : (x >>= f) = .error e) : x = .error e ∨ ∃ a, x = .ok a ∧ f a = .error e := by
  cases x with
  | error d =>
    obtain rfl : d = e := Except.error.inj h
    exact .inl rfl
  | ok a => exact .inr ⟨a, rfl, h⟩

theorem error_of_ok_bind {x : Except ε α} {f : α → Except ε β} {a : α} {e : ε} (hx : x = .ok a)
    (h : (x >>= f) = .error e) : f a = .error e := by
  subst hx
  exact h

theorem mapError_eq_ok_iff {ε' : Type} {x : Except ε α} {f : ε → ε'} {a : α} :
    x.mapError f = .ok a ↔ x = .ok a := by
  cases x with
  | ok b =>
    constructor
    · rintro ⟨⟩
      rfl
    · rintro ⟨⟩
      rfl
  | error e => exact iff_of_false nofun nofun

@[simp] theorem toOption_ok (a : α) : (.ok a : Except ε α).toOption = some a := rfl

@[simp] theorem toOption_error (e : ε) : (.error e : Except ε α).toOption = none := rfl

@[simp] theorem toOption_pure (a : α) : (pure a : Except ε α).toOption = some a := rfl

@[simp] theorem toOption_bind (x : Except ε α) (f : α → Except ε β) :
    (x >>= f).toOption = x.toOption.bind fun a => (f a).toOption := by
  cases x <;> rfl

theorem toOption_eq_some_iff {x : Except ε α} {a : α} : x.toOption = some a ↔ x = .ok a := by
  cases x with
  | error e => exact iff_of_false nofun nofun
  | ok b => rw [toOption_ok, Option.some_inj, Except.ok.injEq]

/-! ## Errors -/

/-- The error of a computation that fails. -/
def error? : Except ε α → Option ε
  | .ok _ => none
  | .error e => some e

theorem error?_eq_some_iff {x : Except ε α} {e : ε} : error? x = some e ↔ x = .error e := by
  cases x with
  | ok a => exact iff_of_false nofun nofun
  | error d => rw [error?, Option.some_inj, Except.error.injEq]

/-- What a computation gives may be put into something else. -/
@[simp] theorem error?_bind_pure (x : Except ε α) (f : α → β) :
    error? (x >>= fun a => pure (f a)) = error? x := by
  cases x <;> rfl

/-- A list fails with the error of the first of its items that fails. -/
theorem error?_mapM (f : α → Except ε β) (as : List α) :
    error? (as.mapM f) = as.findSome? fun a => error? (f a) := by
  induction as with
  | nil => rfl
  | cons a as ih =>
    rw [List.mapM_cons, List.findSome?_cons]
    cases f a with
    | error e => rfl
    | ok b => exact (error?_bind_pure _ _).trans ih

/-! ## Places -/

/-- The place of an error is one of its words. -/
@[simp] theorem Place.toOption_mark (place : Place) (x : Except DecodingError α) :
    (place.mark x).toOption = x.toOption := by
  cases x <;> rfl

theorem Place.mark_eq_ok_iff {place : Place} {x : Except DecodingError α} {a : α} :
    place.mark x = .ok a ↔ x = .ok a := by
  rw [← toOption_eq_some_iff, toOption_mark, toOption_eq_some_iff]

end FlowAccess
