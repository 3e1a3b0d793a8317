import Mathlib.Data.List.Forall2
import ResourceQuery.Store.Transaction

/-!
# What actions do to a database

An action is described by the calls that it makes, each with its reply, and by its result.  The
rules below take an action apart along its steps, whatever the database answers and whatever has
happened before.

## Main Definitions

- `Action.Does`: the calls of an action and its result.
- `MutationStep.Accepted`, `MutationStep.Failed`: how a step of a write went.
- `MutationStep.AllAccepted`, `MutationStep.StoppedBy`: how several steps went.

## Main Statements

- `Action.Does.bind`: two actions, one after the other.
- `MutationStep.does_runAll`: steps are sent in order, up to the first one that fails.
- `MutationStep.AllAccepted.not_stoppedBy`: the replies tell whether a step failed.

## Design Notes

An action that fails has still made its calls, so its description covers both outcomes.  What is
counted along the way leaves no trace.
-/

namespace ResourceQuery

variable {σ ε ε' α β : Type}

/-! ### Actions -/

namespace Action

/-- **What an action does**, whatever happened before: the calls it makes, each with its reply, and
its result have a property. -/
def Does (action : Action σ ε α) (P : List Store.Event → Except ε α → Prop) : Prop :=
  ∀ session : Session σ, ∃ events,
    (action.run session).2.trace = session.trace ++ events ∧ P events (action.run session).1

theorem Does.mono {action : Action σ ε α} {P Q : List Store.Event → Except ε α → Prop}
    (does : action.Does P) (h : ∀ events result, P events result → Q events result) :
    action.Does Q := by
  intro session
  obtain ⟨events, trace, holds⟩ := does session
  exact ⟨events, trace, h _ _ holds⟩

/-- **Two actions, one after the other.**  The second is not begun if the first fails. -/
theorem Does.bind {action : Action σ ε α} {next : α → Action σ ε β}
    {P : List Store.Event → Except ε α → Prop} {Q : List Store.Event → Except ε β → Prop}
    (first : action.Does P) (failed : ∀ events e, P events (.error e) → Q events (.error e))
    (rest : ∀ events a, P events (.ok a) →
      (next a).Does (fun more result => Q (events ++ more) result)) :
    (action >>= next).Does Q := by
  intro session
  obtain ⟨events, trace, holds⟩ := first session
  have run : (action >>= next).run session
      = match action.run session with
        | (.ok a, between) => (next a).run between
        | (.error e, between) => (.error e, between) := by
    show (match action.run session with
      | (result, between) => ExceptT.bindCont next result between) = _
    rcases action.run session with ⟨_ | _, _⟩ <;> rfl
  rw [run]
  rcases outcome : action.run session with ⟨_ | a, between⟩
  · rw [outcome] at trace holds
    exact ⟨events, trace, failed events _ holds⟩
  · rw [outcome] at trace holds
    obtain ⟨more, trace', holds'⟩ := rest events a holds between
    refine ⟨events ++ more, ?_, holds'⟩
    rw [trace', trace, List.append_assoc]

theorem does_pure {a : α} {P : List Store.Event → Except ε α → Prop} (h : P [] (.ok a)) :
    (pure a : Action σ ε α).Does P :=
  fun _ => ⟨[], (List.append_nil _).symm, h⟩

theorem does_throw {e : ε} {P : List Store.Event → Except ε α → Prop} (h : P [] (.error e)) :
    (throw e : Action σ ε α).Does P :=
  fun _ => ⟨[], (List.append_nil _).symm, h⟩

/-- Counting makes no calls. -/
theorem does_count_bind {record : Metrics → Metrics} {next : Unit → Action σ ε α}
    {P : List Store.Event → Except ε α → Prop} (rest : (next ()).Does P) :
    (count record >>= next).Does P :=
  fun session => rest { session with metrics := record session.metrics }

theorem does_count {record : Metrics → Metrics} {P : List Store.Event → Except ε Unit → Prop}
    (h : P [] (.ok ())) : (count record : Action σ ε Unit).Does P :=
  fun _ => ⟨[], (List.append_nil _).symm, h⟩

/-- Reporting errors in another way makes no difference to the calls. -/
theorem Does.mapError {action : Action σ ε α} {f : ε → ε'}
    {P : List Store.Event → Except ε' α → Prop}
    (does : action.Does (fun events result => P events (result.mapError f))) :
    (action.mapError f).Does P :=
  fun session => does session

/-- Looking at the outcome of an action makes no difference to the calls. -/
theorem Does.outcome {action : Action σ ε α}
    {P : List Store.Event → Except ε' (Except ε α) → Prop}
    (does : action.Does (fun events result => P events (.ok result))) :
    (action.outcome : Action σ ε' (Except ε α)).Does P :=
  fun session => does session

end Action

/-! ### Calls -/

namespace Store

open ResourceQuery.Action

variable (store : Store σ)

/-- A call is recorded with its reply. -/
theorem does_call (c : Call) :
    (store.call c).Does (fun events reply => events = [⟨c, reply⟩]) :=
  fun session => ⟨[⟨c, (store.answer c session.state).1⟩], rfl, rfl⟩

theorem does_send (c : Call) :
    (store.send c).Does (fun events reply => events = [⟨c, reply⟩]) :=
  does_count_bind (store.does_call c)

/-- Beginning a transaction is one call, whose failure is reported as a failed write. -/
theorem does_begin (report : StoreError → ε) :
    (store.begin.mapError report).Does (fun events result => ∃ reply : Except StoreError Unit,
      events = [⟨.start, reply⟩]
        ∧ result = reply.mapError (fun failure => report failure.asUpdateFailure)) := by
  refine Does.mapError (Does.mapError ((store.does_call .start).mono ?_))
  rintro events reply rfl
  exact ⟨reply, rfl, by cases reply <;> rfl⟩

/-- Keeping a transaction is one call, whose failure is reported as a failed write. -/
theorem does_keep (report : StoreError → ε) :
    (store.keep.mapError report).Does (fun events result => ∃ reply : Except StoreError Unit,
      events = [⟨.commit, reply⟩]
        ∧ result = reply.mapError (fun failure => report failure.asUpdateFailure)) := by
  refine Does.mapError ((Does.mapError (P := fun events result =>
    ∃ reply : Except StoreError Unit, events = [⟨.commit, reply⟩]
      ∧ result = reply.mapError StoreError.asUpdateFailure)
    ((store.does_call .commit).mono fun events reply h => ⟨reply, h, rfl⟩)).bind ?_ ?_)
  · rintro events e ⟨_ | _, rfl, h⟩
    · cases h
      exact ⟨_, rfl, rfl⟩
    · cases h
  · rintro events _ ⟨_ | _, rfl, h⟩
    · cases h
    · exact does_count ⟨.ok (), rfl, rfl⟩

/-- Undoing a transaction is one call, and whether it fails is not reported. -/
theorem does_undo :
    (store.undo : Action σ ε Unit).Does (fun events result => ∃ reply : Except StoreError Unit,
      events = [⟨.rollback, reply⟩] ∧ result = .ok ()) := by
  refine does_count_bind ((Does.outcome (P := fun events result =>
    ∃ reply : Except StoreError Unit, events = [⟨.rollback, reply⟩] ∧ result = .ok reply)
    ((store.does_call .rollback).mono fun events reply h => ⟨reply, h, rfl⟩)).bind ?_ ?_)
  · rintro events e ⟨reply, -, h⟩
    cases h
  · rintro events _ ⟨reply, rfl, -⟩
    exact does_pure ⟨reply, rfl, rfl⟩

end Store

/-! ### Steps of a write -/

namespace MutationStep

/-- **A step was accepted**: the database ran its statement, and the number of rows was the expected
one.  A step that adds a row has its identifier returned. -/
inductive Accepted (step : MutationStep) : Store.Event → Option Sql.Value → Prop
  | returned (id : Sql.Value) (returns : step.expectation = .returnsId) :
    Accepted step ⟨.fetchId step.render, .ok id⟩ (some id)
  | counted (rows : UInt64) (counts : step.expectation ≠ .returnsId)
      (met : step.expectation.isMetBy rows.toNat = true) :
    Accepted step ⟨.execute step.render, .ok rows⟩ none

/-- **A step failed**: the database did not run its statement, or the number of rows was another
than expected. -/
inductive Failed (step : MutationStep) : Store.Event → StoreError → Prop
  | notReturned (failure : StoreError) (returns : step.expectation = .returnsId) :
    Failed step ⟨.fetchId step.render, .error failure⟩ failure
  | notRun (failure : StoreError) (counts : step.expectation ≠ .returnsId) :
    Failed step ⟨.execute step.render, .error failure⟩ failure
  | miscounted (rows : UInt64) (counts : step.expectation ≠ .returnsId)
      (missed : step.expectation.isMetBy rows.toNat = false) :
    Failed step ⟨.execute step.render, .ok rows⟩ (.rowCountMismatch step.expectation rows.toNat)

/-- The steps were sent in order, and each was accepted. -/
def AllAccepted (steps : List MutationStep) (sent : List Store.Event) : Prop :=
  List.Forall₂ (fun step event => ∃ value?, step.Accepted event value?) steps sent

/-- The steps were sent in order up to the first one that failed, and none after it. -/
def StoppedBy (steps : List MutationStep) (sent : List Store.Event) (failure : StoreError) : Prop :=
  ∃ done step rest accepted event, steps = done ++ step :: rest ∧ sent = accepted ++ [event]
    ∧ AllAccepted done accepted ∧ step.Failed event failure

/-- The reply to a step tells whether it failed. -/
theorem Accepted.not_failed {step : MutationStep} {event : Store.Event} {value? : Option Sql.Value}
    {failure : StoreError} (accepted : step.Accepted event value?) :
    ¬ step.Failed event failure := by
  intro failed
  cases accepted with
  | returned id returns => cases failed
  | counted rows counts met =>
    cases failed with
    | miscounted rows' counts' missed =>
      rw [met] at missed
      cases missed

/-- The reply to a step tells what it returned. -/
theorem Accepted.value_eq {step : MutationStep} {event : Store.Event}
    {value? value?' : Option Sql.Value} (accepted : step.Accepted event value?)
    (accepted' : step.Accepted event value?') : value? = value?' := by
  cases accepted <;> cases accepted' <;> rfl

/-- A step sends a statement, and neither begins nor ends a transaction. -/
theorem Accepted.call_ne {step : MutationStep} {event : Store.Event} {value? : Option Sql.Value}
    (accepted : step.Accepted event value?) : event.call ≠ .commit := by
  cases accepted <;> exact fun same => Store.Call.noConfusion same

theorem Failed.call_ne {step : MutationStep} {event : Store.Event} {failure : StoreError}
    (failed : step.Failed event failure) : event.call ≠ .commit := by
  cases failed <;> exact fun same => Store.Call.noConfusion same

theorem StoppedBy.cons {step : MutationStep} {steps : List MutationStep} {event : Store.Event}
    {sent : List Store.Event} {value? : Option Sql.Value} {failure : StoreError}
    (first : step.Accepted event value?) (stopped : StoppedBy steps sent failure) :
    StoppedBy (step :: steps) (event :: sent) failure := by
  obtain ⟨done, failing, rest, accepted, last, rfl, rfl, all, failed⟩ := stopped
  exact ⟨step :: done, failing, rest, event :: accepted, last, rfl, rfl,
    List.Forall₂.cons ⟨_, first⟩ all, failed⟩

theorem StoppedBy.append {steps more : List MutationStep} {sent : List Store.Event}
    {failure : StoreError} (stopped : StoppedBy steps sent failure) :
    StoppedBy (steps ++ more) sent failure := by
  obtain ⟨done, step, rest, accepted, last, rfl, rfl, all, failed⟩ := stopped
  exact ⟨done, step, rest ++ more, accepted, last, by simp, rfl, all, failed⟩

/-- **The replies tell whether a step failed**: steps that were all accepted begin with no steps
that were stopped. -/
theorem AllAccepted.not_stoppedBy_append {steps more : List MutationStep}
    {sent later : List Store.Event} {failure : StoreError}
    (all : AllAccepted (steps ++ more) (sent ++ later)) : ¬ StoppedBy steps sent failure := by
  rintro ⟨done, step, rest, accepted, event, rfl, rfl, before, failed⟩
  have same : done.length = accepted.length := before.length_eq
  rw [AllAccepted, List.append_assoc, List.append_assoc] at all
  have tail := List.forall₂_drop_append _ _ _ all
  rw [← same, List.drop_left] at tail
  cases tail with
  | cons first _ =>
    obtain ⟨value?, accepted⟩ := first
    exact accepted.not_failed failed

theorem AllAccepted.not_stoppedBy {steps : List MutationStep} {sent : List Store.Event}
    {failure : StoreError} (all : AllAccepted steps sent) : ¬ StoppedBy steps sent failure := by
  rw [← List.append_nil steps, ← List.append_nil sent] at all
  exact all.not_stoppedBy_append

/-! ### Running steps -/

section Running

open ResourceQuery.Action

variable (store : Store σ)

/-- A step whose rows are counted is accepted, or fails because of the database or the count. -/
theorem does_runCounted {step : MutationStep} (counts : step.expectation ≠ .returnsId) :
    (step.runCounted store).Does (fun events result => ∃ event, events = [event]
      ∧ ((step.Accepted event none ∧ result = .ok ())
        ∨ ∃ failure, step.Failed event failure ∧ result = .error failure)) := by
  refine (store.does_send _).bind ?_ ?_
  · rintro events failure rfl
    exact ⟨_, rfl, .inr ⟨failure, .notRun failure counts, rfl⟩⟩
  · rintro events rows rfl
    by_cases met : step.expectation.isMetBy (UInt64.toNat rows) = true
    · rw [if_pos met]
      exact does_pure ⟨_, rfl, .inl ⟨.counted rows counts met, rfl⟩⟩
    · rw [if_neg met]
      have missed := Bool.eq_false_iff.mpr met
      exact does_throw ⟨_, rfl, .inr ⟨_, .miscounted rows counts missed, rfl⟩⟩

/-- **A step sends one statement**, which is accepted or fails. -/
theorem does_run (step : MutationStep) :
    (step.run store).Does (fun events result => ∃ event, events = [event]
      ∧ ((∃ value?, step.Accepted event value? ∧ result = .ok value?)
        ∨ ∃ failure, step.Failed event failure ∧ result = .error failure.asUpdateFailure)) := by
  refine Does.mapError ?_
  split
  · rename_i returns
    refine (store.does_send _).bind ?_ ?_
    · rintro events failure rfl
      exact ⟨_, rfl, .inr ⟨failure, .notReturned failure returns, rfl⟩⟩
    · rintro events id rfl
      exact does_pure ⟨_, rfl, .inl ⟨some id, .returned id returns, rfl⟩⟩
  · rename_i counts
    refine (does_runCounted store counts).bind ?_ ?_
    · rintro events e ⟨event, rfl, ⟨-, h⟩ | ⟨failure, failed, h⟩⟩
      · cases h
      · cases h
        exact ⟨event, rfl, .inr ⟨e, failed, rfl⟩⟩
    · rintro events _ ⟨event, rfl, ⟨accepted, -⟩ | ⟨failure, -, h⟩⟩
      · exact does_pure ⟨event, rfl, .inl ⟨none, accepted, rfl⟩⟩
      · cases h

/-- **Steps are sent in order, up to the first one that fails.** -/
theorem does_runAll (steps : List MutationStep) :
    (runAll store steps).Does (fun events result =>
      (AllAccepted steps events ∧ result = .ok ())
        ∨ ∃ failure, StoppedBy steps events failure
          ∧ result = .error failure.asUpdateFailure) := by
  induction steps with
  | nil => exact does_pure (.inl ⟨List.Forall₂.nil, rfl⟩)
  | cons step rest ih =>
    refine (does_run store step).bind ?_ ?_
    · rintro events e ⟨event, rfl, ⟨value?, -, h⟩ | ⟨failure, failed, h⟩⟩
      · cases h
      · cases h
        exact .inr ⟨failure, ⟨[], step, rest, [], event, rfl, rfl, List.Forall₂.nil, failed⟩, rfl⟩
    · rintro events value? ⟨event, rfl, ⟨value?, accepted, h⟩ | ⟨failure, -, h⟩⟩
      · refine ih.mono ?_
        rintro more result (⟨all, rfl⟩ | ⟨failure, stopped, rfl⟩)
        · exact .inl ⟨List.Forall₂.cons ⟨_, accepted⟩ all, rfl⟩
        · exact .inr ⟨failure, stopped.cons accepted, rfl⟩
      · cases h

end Running

end MutationStep

end ResourceQuery
