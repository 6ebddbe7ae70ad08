import FieldRules.Log.Event

/-!
# Logged computations

A logged computation has an outcome, a value or an error, and the events that
it reported on the way.  A sequence of computations stops at the first error
and keeps the events up to it.
-/

namespace FieldRules

/-- The outcome of a computation, with its events in order. -/
structure Logged (ε α : Type) where
  events : List Event
  outcome : Except ε α

namespace Logged

variable {ε α β : Type}

/-- Succeed without events. -/
def ofValue (value : α) : Logged ε α :=
  ⟨[], .ok value⟩

/-- A computation without events. -/
def ofExcept (outcome : Except ε α) : Logged ε α :=
  ⟨[], outcome⟩

/-- Fail without events. -/
def fail (error : ε) : Logged ε α :=
  ⟨[], .error error⟩

/-- Report one event. -/
def report (event : Event) : Logged ε Unit :=
  ⟨[event], .ok ()⟩

/-- Go on with the value of a computation. -/
def andThen (first : Logged ε α) (next : α → Logged ε β) : Logged ε β :=
  match first.outcome with
  | .error error => ⟨first.events, .error error⟩
  | .ok value =>
      let second := next value
      ⟨first.events ++ second.events, second.outcome⟩

instance : Monad (Logged ε) where
  pure := ofValue
  bind := andThen

@[simp]
theorem outcome_pure (value : α) : (pure value : Logged ε α).outcome = .ok value :=
  rfl

@[simp]
theorem events_pure (value : α) : (pure value : Logged ε α).events = [] :=
  rfl

@[simp]
theorem outcome_fail (error : ε) : (fail error : Logged ε α).outcome = .error error :=
  rfl

@[simp]
theorem outcome_report (event : Event) : (report event : Logged ε Unit).outcome = .ok () :=
  rfl

@[simp]
theorem outcome_ofExcept (outcome : Except ε α) : (ofExcept outcome).outcome = outcome :=
  rfl

/-- Outcomes compose as if nothing were reported. -/
@[simp]
theorem outcome_bind (first : Logged ε α) (next : α → Logged ε β) :
    (first >>= next).outcome = first.outcome.bind fun value => (next value).outcome := by
  show (first.andThen next).outcome = _
  unfold andThen
  cases first.outcome <;> rfl

/-- Change the error of a computation. -/
def mapError {ε' : Type} (f : ε → ε') (computation : Logged ε α) : Logged ε' α :=
  ⟨computation.events, computation.outcome.mapError f⟩

end Logged

end FieldRules
