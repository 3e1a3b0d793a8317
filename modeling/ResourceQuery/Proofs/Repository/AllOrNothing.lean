import ResourceQuery.Proofs.Store.Traces
import ResourceQuery.Repository.Basic

/-!
# Writes are all or nothing

Every write is planned first and then run in one transaction.  This file follows the calls that a
write makes to the database, for every database and every way in which its calls can fail.

## Main Definitions

- `StoreError.ReportedBy`: a failure is reported as a failed write, once.
- `Repository.Created`, `Repository.CreationStopped`: how the statements of a creation went.
- `Repository.Course`: the calls of a write and its result.
- `Repository.AllOrNothing`: what is asked of them.

## Main Statements

- `Repository.does_transaction`: a transaction is begun, and then kept or undone.
- `Repository.writes_allOrNothing`: creations, updates and deletions are all or nothing.
-/

namespace ResourceQuery

open ResourceQuery.MutationStep ResourceQuery.Action

variable {σ α π : Type}

/-- **A failure is reported as a failed write, once**: one that says so itself is passed on as it
is. -/
def StoreError.ReportedBy (failure : StoreError) (error : RepositoryError) : Prop :=
  (∃ cause, failure = .updateFailed cause ∧ error = .updateFailed failure)
    ∨ (∀ cause, failure ≠ .updateFailed cause) ∧ error = .updateFailed (.updateFailed failure)

theorem StoreError.reportedBy_ofStore (failure : StoreError) :
    failure.ReportedBy (RepositoryError.ofStore failure.asUpdateFailure) := by
  cases failure with
  | updateFailed cause => exact .inl ⟨cause, rfl, rfl⟩
  | statement error => exact .inr ⟨fun _ same => StoreError.noConfusion same, rfl⟩
  | connection error => exact .inr ⟨fun _ same => StoreError.noConfusion same, rfl⟩
  | rowCountMismatch expected affected =>
    exact .inr ⟨fun _ same => StoreError.noConfusion same, rfl⟩

namespace Repository

/-! ### How the statements of a write went -/

/-- All planned steps were accepted. -/
def Applied (steps : List MutationStep) (sent : List Store.Event) (_ : Unit) : Prop :=
  AllAccepted steps sent

/-- A planned step failed. -/
def Halted (steps : List MutationStep) (sent : List Store.Event) (error : RepositoryError) : Prop :=
  ∃ failure, StoppedBy steps sent failure ∧ failure.ReportedBy error

/-- **A resource was created**: the steps up to the insertion were accepted, the identifier that it
returned can be used, and the steps planned with it were accepted too. -/
inductive Created (schema : Schema) (plan : ChangeSet × CreatePlan) :
    List Store.Event → ResourceId → Prop
  | mk {first last : List Store.Event} {event : Store.Event} {value? : Option Sql.Value}
      {id : ResourceId} {afterInsert : List MutationStep}
      (before : AllAccepted plan.2.beforeInsert first)
      (inserted : plan.2.insert.Accepted event value?)
      (usable : value?.bind ResourceId.ofValue? = some id)
      (planned : plan.1.planAfterCreate schema id = .ok afterInsert)
      (after : AllAccepted afterInsert last) :
    Created schema plan (first ++ event :: last) id

/-- **A creation came to a halt**: a step failed, before or after the identifier was known, the
identifier cannot be used, or the steps that need it cannot be planned. -/
inductive CreationStopped (schema : Schema) (plan : ChangeSet × CreatePlan) :
    List Store.Event → RepositoryError → Prop
  | early {sent : List Store.Event} {failure : StoreError} {error : RepositoryError}
      (stopped : StoppedBy (plan.2.beforeInsert ++ [plan.2.insert]) sent failure)
      (reported : failure.ReportedBy error) :
    CreationStopped schema plan sent error
  | unusable {first : List Store.Event} {event : Store.Event} {value? : Option Sql.Value}
      (before : AllAccepted plan.2.beforeInsert first)
      (inserted : plan.2.insert.Accepted event value?)
      (unusable : value?.bind ResourceId.ofValue? = none) :
    CreationStopped schema plan (first ++ [event])
      (.updateFailed (.updateFailed (.statement .missingReturnedId)))
  | unplanned {first : List Store.Event} {event : Store.Event} {value? : Option Sql.Value}
      {id : ResourceId} {error : CompileError}
      (before : AllAccepted plan.2.beforeInsert first)
      (inserted : plan.2.insert.Accepted event value?)
      (usable : value?.bind ResourceId.ofValue? = some id)
      (unplanned : plan.1.planAfterCreate schema id = .error error) :
    CreationStopped schema plan (first ++ [event]) (.ofCompile error)
  | late {first last : List Store.Event} {event : Store.Event} {value? : Option Sql.Value}
      {id : ResourceId} {afterInsert : List MutationStep} {failure : StoreError}
      {error : RepositoryError}
      (before : AllAccepted plan.2.beforeInsert first)
      (inserted : plan.2.insert.Accepted event value?)
      (usable : value?.bind ResourceId.ofValue? = some id)
      (planned : plan.1.planAfterCreate schema id = .ok afterInsert)
      (stopped : StoppedBy afterInsert last failure) (reported : failure.ReportedBy error) :
    CreationStopped schema plan (first ++ event :: last) error

/-! ### The course of a write -/

/-- **The calls of a write and its result.**  The write is planned; if it has a plan, a transaction
is begun, statements are sent, and the transaction is kept if they are complete and undone if they
came to a halt. -/
inductive Course (plan : Except CompileError π) (Completed : π → List Store.Event → α → Prop)
    (Stopped : π → List Store.Event → RepositoryError → Prop) :
    List Store.Event → Except RepositoryError α → Prop
  | unplanned {error : CompileError} (failed : plan = .error error) :
    Course plan Completed Stopped [] (.error (.ofCompile error))
  | unstarted {p : π} {failure : StoreError} {error : RepositoryError} (planned : plan = .ok p)
      (reported : failure.ReportedBy error) :
    Course plan Completed Stopped [⟨.start, .error failure⟩] (.error error)
  | kept {p : π} {sent : List Store.Event} {a : α} (planned : plan = .ok p)
      (completed : Completed p sent a) :
    Course plan Completed Stopped
      (⟨.start, .ok ()⟩ :: sent ++ [⟨.commit, .ok ()⟩]) (.ok a)
  | unkept {p : π} {sent : List Store.Event} {a : α} {failure : StoreError}
      {error : RepositoryError} (planned : plan = .ok p) (completed : Completed p sent a)
      (reported : failure.ReportedBy error) :
    Course plan Completed Stopped
      (⟨.start, .ok ()⟩ :: sent ++ [⟨.commit, .error failure⟩]) (.error error)
  | undone {p : π} {sent : List Store.Event} {error : RepositoryError}
      {reply : Except StoreError Unit} (planned : plan = .ok p) (stopped : Stopped p sent error) :
    Course plan Completed Stopped
      (⟨.start, .ok ()⟩ :: sent ++ [⟨.rollback, reply⟩]) (.error error)

/-- **All or nothing.**  The calls of a write take their course; the transaction is asked to be kept
if and only if the statements sent in it are complete, and the write succeeds if and only if it was
kept. -/
structure AllOrNothing (plan : Except CompileError π) (Completed : π → List Store.Event → α → Prop)
    (Stopped : π → List Store.Event → RepositoryError → Prop) (calls : List Store.Event)
    (result : Except RepositoryError α) : Prop where
  course : Course plan Completed Stopped calls result
  commit_iff : (∃ event ∈ calls, event.call = .commit) ↔
    ∃ p sent last a, plan = .ok p ∧ calls = ⟨.start, .ok ()⟩ :: sent ++ [last] ∧ Completed p sent a
  ok_iff : (∃ a, result = .ok a) ↔ ⟨.commit, .ok ()⟩ ∈ calls

/-- The statements sent in a transaction tell how it went, and do not end it. -/
structure Decides (Completed : π → List Store.Event → α → Prop)
    (Stopped : π → List Store.Event → RepositoryError → Prop) : Prop where
  open_of_completed : ∀ {p sent a}, Completed p sent a → ∀ event ∈ sent, event.call ≠ .commit
  open_of_stopped : ∀ {p sent e}, Stopped p sent e → ∀ event ∈ sent, event.call ≠ .commit
  exclusive : ∀ {p sent a e}, Completed p sent a → ¬ Stopped p sent e

section

variable {plan : Except CompileError π} {Completed : π → List Store.Event → α → Prop}
  {Stopped : π → List Store.Event → RepositoryError → Prop}

theorem Course.commit_iff (decides : Decides Completed Stopped) {calls : List Store.Event}
    {result : Except RepositoryError α} (course : Course plan Completed Stopped calls result) :
    (∃ event ∈ calls, event.call = .commit) ↔
      ∃ p sent last a, plan = .ok p ∧ calls = ⟨.start, .ok ()⟩ :: sent ++ [last]
        ∧ Completed p sent a := by
  cases course with
  | unplanned failed => simp
  | unstarted planned reported => simp
  | kept planned completed =>
    exact ⟨fun _ => ⟨_, _, _, _, planned, rfl, completed⟩,
      fun _ => ⟨⟨.commit, .ok ()⟩, by simp, rfl⟩⟩
  | @unkept p sent a failure error planned completed reported =>
    exact ⟨fun _ => ⟨_, _, _, _, planned, rfl, completed⟩,
      fun _ => ⟨⟨.commit, .error failure⟩, by simp, rfl⟩⟩
  | @undone p sent error reply planned stopped =>
    constructor
    · rintro ⟨event, mem, committed⟩
      simp only [List.cons_append, List.mem_cons, List.mem_append, List.not_mem_nil,
        or_false] at mem
      rcases mem with rfl | mem | rfl
      · cases committed
      · exact absurd committed (decides.open_of_stopped stopped event mem)
      · cases committed
    · rintro ⟨p', sent', last, a, planned', same, completed⟩
      rw [planned] at planned'
      cases planned'
      obtain ⟨rfl, -⟩ := List.append_inj' (List.cons.inj same).2 rfl
      exact absurd stopped (decides.exclusive completed)

/-- A reply that closes a transaction in any other way than by keeping it is not among the calls. -/
theorem not_mem_of_open {sent : List Store.Event} {last : Store.Event}
    (isOpen : ∀ event ∈ sent, event.call ≠ .commit) (other : last ≠ ⟨.commit, .ok ()⟩) :
    (⟨.commit, .ok ()⟩ : Store.Event) ∉ ⟨.start, .ok ()⟩ :: sent ++ [last] := by
  intro mem
  simp only [List.cons_append, List.mem_cons, List.mem_append, List.not_mem_nil, or_false] at mem
  rcases mem with same | mem | same
  · cases same
  · exact isOpen _ mem rfl
  · exact other same.symm

theorem Course.ok_iff (decides : Decides Completed Stopped) {calls : List Store.Event}
    {result : Except RepositoryError α} (course : Course plan Completed Stopped calls result) :
    (∃ a, result = .ok a) ↔ ⟨.commit, .ok ()⟩ ∈ calls := by
  cases course with
  | unplanned failed => simp
  | unstarted planned reported => simp
  | kept planned completed => simp
  | @unkept _ _ _ failure _ planned completed reported =>
    have absent := not_mem_of_open (decides.open_of_completed completed)
      (fun same : ⟨.commit, .error failure⟩ = _ => by cases same)
    exact ⟨fun ⟨_, ok⟩ => (by cases ok), fun mem => absurd mem absent⟩
  | @undone _ _ _ reply planned stopped =>
    have absent := not_mem_of_open (decides.open_of_stopped stopped)
      (fun same : ⟨.rollback, reply⟩ = _ => by cases same)
    exact ⟨fun ⟨_, ok⟩ => (by cases ok), fun mem => absurd mem absent⟩

theorem Course.allOrNothing (decides : Decides Completed Stopped) {calls : List Store.Event}
    {result : Except RepositoryError α} (course : Course plan Completed Stopped calls result) :
    AllOrNothing plan Completed Stopped calls result :=
  ⟨course, course.commit_iff decides, course.ok_iff decides⟩

/-! ### Transactions -/

/-- How the statements of a write went, read off its result. -/
def Went (Completed : List Store.Event → α → Prop)
    (Stopped : List Store.Event → RepositoryError → Prop) (sent : List Store.Event) :
    Except RepositoryError α → Prop
  | .ok a => Completed sent a
  | .error e => Stopped sent e

/-- **A transaction is begun, and then kept or undone.**  Whether undoing it succeeds makes no
difference to what is reported. -/
theorem does_transaction (repository : Repository σ) {p : π} (planned : plan = .ok p)
    {action : Action σ RepositoryError α} (does : action.Does (Went (Completed p) (Stopped p))) :
    (repository.transaction action).Does (Course plan Completed Stopped) := by
  refine (repository.store.does_begin RepositoryError.ofStore).bind ?_ ?_
  · rintro events e ⟨failure | _, rfl, h⟩
    · cases h
      exact .unstarted planned (StoreError.reportedBy_ofStore failure)
    · cases h
  rintro events _ ⟨_ | _, rfl, h⟩
  · cases h
  refine (Does.outcome (P := fun sent outcome => ∃ result, outcome = .ok result
    ∧ Went (Completed p) (Stopped p) sent result) (does.mono fun sent result h =>
      ⟨result, rfl, h⟩)).bind ?_ ?_
  · rintro sent e ⟨result, h, -⟩
    cases h
  rintro sent outcome ⟨result, h, went⟩
  cases h
  cases outcome with
  | ok a =>
    refine (repository.store.does_keep RepositoryError.ofStore).bind ?_ ?_
    · rintro events e ⟨failure | _, rfl, h⟩
      · cases h
        exact .unkept planned went (StoreError.reportedBy_ofStore failure)
      · cases h
    · rintro events _ ⟨_ | _, rfl, h⟩
      · cases h
      · exact does_pure (.kept planned went)
  | error e =>
    refine repository.store.does_undo.bind ?_ ?_
    · rintro events e ⟨reply, -, h⟩
      cases h
    · rintro events _ ⟨reply, rfl, -⟩
      exact does_throw (.undone planned went)

/-- **A write is planned before a transaction is begun.** -/
theorem does_write (repository : Repository σ) {body : π → Action σ RepositoryError α}
    (does : ∀ p, (body p).Does (Went (Completed p) (Stopped p))) :
    (planned plan >>= fun p => repository.transaction (body p)).Does
      (Course plan Completed Stopped) := by
  cases hplan : plan with
  | error e => exact does_throw (.unplanned rfl)
  | ok p => exact repository.does_transaction rfl (does p)

end

/-! ### Planned steps -/

/-- Steps sent as part of a write are applied, or halted by the first that fails. -/
theorem does_runAll (repository : Repository σ) (steps : List MutationStep) :
    (run (runAll repository.store steps)).Does (Went (Applied steps) (Halted steps)) := by
  refine Does.mapError ((MutationStep.does_runAll repository.store steps).mono ?_)
  rintro sent result (⟨all, rfl⟩ | ⟨failure, stopped, rfl⟩)
  · exact all
  · exact ⟨failure, stopped, StoreError.reportedBy_ofStore failure⟩

theorem open_of_allAccepted {steps : List MutationStep} {sent : List Store.Event}
    (all : AllAccepted steps sent) : ∀ event ∈ sent, event.call ≠ .commit := by
  induction all with
  | nil => simp
  | cons first _ ih =>
    obtain ⟨value?, accepted⟩ := first
    intro event mem
    rcases List.mem_cons.mp mem with rfl | mem
    · exact accepted.call_ne
    · exact ih event mem

theorem open_of_stoppedBy {steps : List MutationStep} {sent : List Store.Event}
    {failure : StoreError} (stopped : StoppedBy steps sent failure) :
    ∀ event ∈ sent, event.call ≠ .commit := by
  obtain ⟨done, step, rest, accepted, last, rfl, rfl, all, failed⟩ := stopped
  intro event mem
  rcases List.mem_append.mp mem with mem | mem
  · exact open_of_allAccepted all event mem
  · rw [List.mem_singleton.mp mem]
    exact failed.call_ne

theorem decides_applied (steps : π → List MutationStep) :
    Decides (fun p => Applied (steps p)) (fun p => Halted (steps p)) where
  open_of_completed all := open_of_allAccepted all
  open_of_stopped := fun ⟨_, stopped, _⟩ => open_of_stoppedBy stopped
  exclusive := by
    rintro p sent _ e all ⟨failure, stopped, -⟩
    exact AllAccepted.not_stoppedBy all stopped

/-! ### Creations -/

/-- **A creation sends its steps in two parts**, of which the second is planned when the identifier
is known. -/
theorem does_runCreate (repository : Repository σ) (changes : ChangeSet) (plan : CreatePlan) :
    (repository.runCreate changes plan).Does
      (Went (Created repository.schema (changes, plan))
        (CreationStopped repository.schema (changes, plan))) := by
  refine (repository.does_runAll plan.beforeInsert).bind ?_ ?_
  · rintro first e ⟨failure, stopped, reported⟩
    exact .early stopped.append reported
  rintro first _ (before : AllAccepted plan.beforeInsert first)
  refine (Does.mapError (P := fun events result => ∃ event, events = [event]
    ∧ ((∃ value?, plan.insert.Accepted event value? ∧ result = .ok value?)
      ∨ ∃ failure e, plan.insert.Failed event failure ∧ failure.ReportedBy e ∧ result = .error e))
    ((plan.insert.does_run repository.store).mono ?_)).bind ?_ ?_
  · rintro events result ⟨event, rfl, ⟨value?, accepted, rfl⟩ | ⟨failure, failed, rfl⟩⟩
    · exact ⟨event, rfl, .inl ⟨value?, accepted, rfl⟩⟩
    · exact ⟨event, rfl, .inr ⟨failure, _, failed, StoreError.reportedBy_ofStore failure, rfl⟩⟩
  · rintro events e ⟨event, rfl, ⟨_, -, h⟩ | ⟨failure, _, failed, reported, h⟩⟩
    · cases h
    · cases h
      exact .early ⟨_, _, [], first, event, rfl, rfl, before, failed⟩ reported
  rintro events value? ⟨event, rfl, ⟨_, inserted, h⟩ | ⟨_, _, -, -, h⟩⟩
  swap
  · cases h
  cases h
  unfold returnedId
  cases usable : value?.bind ResourceId.ofValue? with
  | none => exact does_throw (.unusable before inserted usable)
  | some id =>
    cases afterwards : changes.planAfterCreate repository.schema id with
    | error e =>
      rw [pure_bind, afterwards]
      exact does_throw (.unplanned before inserted usable afterwards)
    | ok afterInsert =>
      rw [pure_bind, afterwards]
      refine (repository.does_runAll afterInsert).bind ?_ ?_
      · rintro last e ⟨failure, stopped, reported⟩
        exact .late before inserted usable afterwards stopped reported
      · rintro last _ (all : AllAccepted afterInsert last)
        rw [← List.append_nil last] at all
        exact does_pure (.mk before inserted usable afterwards all)

/-- The replies tell which statement added the row, and what it returned. -/
theorem insertion_unique {plan : CreatePlan} {first first' last last' : List Store.Event}
    {event event' : Store.Event} {value? value?' : Option Sql.Value}
    (before : AllAccepted plan.beforeInsert first) (before' : AllAccepted plan.beforeInsert first')
    (inserted : plan.insert.Accepted event value?) (inserted' : plan.insert.Accepted event' value?')
    (same : first ++ event :: last = first' ++ event' :: last') :
    value? = value?' ∧ last = last' := by
  have lengths : first.length = first'.length := before.length_eq.symm.trans before'.length_eq
  obtain ⟨-, tails⟩ := List.append_inj same lengths
  cases tails
  exact ⟨inserted.value_eq inserted', rfl⟩

/-- **A creation that is complete did not come to a halt.** -/
theorem Created.not_stopped {schema : Schema} {plan : ChangeSet × CreatePlan}
    {sent : List Store.Event} {id : ResourceId} {e : RepositoryError}
    (created : Created schema plan sent id) : ¬ CreationStopped schema plan sent e := by
  intro stopped
  cases created with
  | @mk first last event value? id afterInsert before inserted usable planned after =>
    generalize same : first ++ event :: last = sent at stopped
    cases stopped with
    | early stopped reported =>
      subst same
      have all : AllAccepted (plan.2.beforeInsert ++ [plan.2.insert] ++ afterInsert)
          (first ++ event :: last ++ []) := by
        rw [List.append_assoc, List.append_nil]
        exact List.rel_append before (List.Forall₂.cons ⟨_, inserted⟩ after)
      exact all.not_stoppedBy_append stopped
    | unusable before' inserted' unusable' =>
      obtain ⟨rfl, -⟩ := insertion_unique before before' inserted inserted' same
      rw [usable] at unusable'
      cases unusable'
    | unplanned before' inserted' usable' unplanned' =>
      obtain ⟨rfl, -⟩ := insertion_unique before before' inserted inserted' same
      rw [usable] at usable'
      cases usable'
      rw [planned] at unplanned'
      cases unplanned'
    | late before' inserted' usable' planned' stopped reported =>
      obtain ⟨rfl, rfl⟩ := insertion_unique before before' inserted inserted' same
      rw [usable] at usable'
      cases usable'
      rw [planned] at planned'
      cases planned'
      exact after.not_stoppedBy stopped

theorem decides_created (schema : Schema) : Decides (Created schema) (CreationStopped schema) where
  open_of_completed := by
    rintro plan _ id ⟨before, inserted, -, -, after⟩
    exact open_of_allAccepted (List.rel_append before (List.Forall₂.cons ⟨_, inserted⟩ after))
  open_of_stopped := by
    rintro plan sent e stopped
    cases stopped with
    | early stopped reported => exact open_of_stoppedBy stopped
    | unusable before inserted _ | unplanned before inserted _ _ =>
      exact open_of_allAccepted (List.rel_append before (.cons ⟨_, inserted⟩ .nil))
    | @late first last event _ _ _ _ _ before inserted _ _ stopped _ =>
      intro other mem
      rcases List.mem_append.mp mem with mem | mem
      · exact open_of_allAccepted before other mem
      rcases List.mem_cons.mp mem with rfl | mem
      · exact inserted.call_ne
      · exact open_of_stoppedBy stopped other mem
  exclusive := Created.not_stopped

/-! ### Writes -/

/-- **Writes are all or nothing**, for every database and whatever happened before.  The calls made
by a creation, an update or a deletion take the course of one transaction: none without a plan, a
single one if the transaction cannot be begun, and else the planned statements in order, up to the
first that fails, and then one call that keeps or undoes them. -/
theorem writes_allOrNothing (repository : Repository σ) :
    (∀ resourceType after, (repository.create resourceType after).Does
      (AllOrNothing (planCreate repository.schema resourceType after)
        (Created repository.schema) (CreationStopped repository.schema)))
    ∧ (∀ resourceType before after, (repository.update resourceType before after).Does
      (AllOrNothing (planUpdate repository.schema resourceType before after) Applied Halted))
    ∧ ∀ resourceType id, (repository.delete resourceType id).Does
      (AllOrNothing (planDelete repository.schema resourceType id)
        (fun step => Applied [step]) (fun step => Halted [step])) := by
  refine ⟨fun resourceType after => ?_, fun resourceType before after => ?_,
    fun resourceType id => ?_⟩
  · refine (does_write repository ?_).mono (fun _ _ course =>
      course.allOrNothing (decides_created repository.schema))
    exact fun plan => repository.does_runCreate plan.1 plan.2
  · refine (does_write repository ?_).mono (fun _ _ course =>
      course.allOrNothing (decides_applied (fun steps => steps)))
    exact fun steps => repository.does_runAll steps
  · refine (does_write repository ?_).mono (fun _ _ course =>
      course.allOrNothing (decides_applied (fun step => [step])))
    exact fun step => repository.does_runAll [step]

end Repository

end ResourceQuery
