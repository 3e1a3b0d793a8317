import ResourceQuery.Proofs.Repository.AllOrNothing

/-!
# Metrics account for every call

Statements are counted before they are sent, kept transactions after the reply to their commit, and
undone ones before the call that undoes them.  Whatever the database answers, the counters agree
with the calls that were made as soon as an operation is over, and so they do after any number of
operations.

## Main Definitions

- `Metrics.ofTrace`: what a trace says should have been counted.
- `Session.Accounted`: the counters agree with the trace.
- `Action.Leads`, `Action.Preserves`: what an action does to properties of sessions.
- `Repository.Job`, `Repository.runJobs`: operations done one after the other on one database.
- `Repository.Balanced`: the calls of operations agree with their outcomes.

## Main Statements

- `Repository.Course.closed`: a transaction that was begun is kept, undone or lost.
- `Repository.runJobs_balanced`: what any number of operations leaves in order.
- `Repository.metrics_account_for_calls`: the counters after any sequence of operations.

## Design Notes

Two things are kept apart: an invariant of sessions compares counters and trace, and a description
of the calls compares trace and outcomes.  Only the first one looks at counters.
-/

namespace ResourceQuery

variable {σ ε ε' α β : Type}

/-! ### Calls that count -/

namespace Store.Event

/-- A statement was sent. -/
def sent : Event → Bool
  | ⟨.fetchRows _, _⟩ | ⟨.fetchCount _, _⟩ | ⟨.execute _, _⟩ | ⟨.fetchId _, _⟩ => true
  | _ => false

/-- The rows of a query came back. -/
def foundRows : Event → Bool
  | ⟨.fetchRows _, .ok _⟩ => true
  | _ => false

/-- A transaction was begun. -/
def begun : Event → Bool
  | ⟨.start, .ok _⟩ => true
  | _ => false

/-- A transaction was kept. -/
def kept : Event → Bool
  | ⟨.commit, .ok _⟩ => true
  | _ => false

/-- A transaction was to be kept, and the database failed to do so. -/
def unkept : Event → Bool
  | ⟨.commit, .error _⟩ => true
  | _ => false

/-- A transaction was to be undone. -/
def undone : Event → Bool
  | ⟨.rollback, _⟩ => true
  | _ => false

/-- A statement that changes rows was sent, as part of a transaction. -/
def changes : Event → Bool
  | ⟨.execute _, _⟩ | ⟨.fetchId _, _⟩ => true
  | _ => false

/-- Statements that change rows neither begin nor end a transaction, and fetch no rows. -/
theorem elsewhere_of_changes {event : Event} (h : event.changes = true) :
    event.kept = false ∧ event.begun = false ∧ event.undone = false ∧ event.unkept = false
      ∧ event.foundRows = false := by
  obtain ⟨call, reply⟩ := event
  cases call with
  | execute _ | fetchId _ => exact ⟨rfl, rfl, rfl, rfl, rfl⟩
  | _ => cases h

end Store.Event

open Store (Event)
open Store.Event (elsewhere_of_changes)

/-- **What a trace says should have been counted**: queries whose rows came back, transactions that
were kept, transactions that were to be undone, and statements that were sent. -/
def Metrics.ofTrace (trace : List Event) : Metrics where
  queries := trace.countP Event.foundRows
  mutations := trace.countP Event.kept
  mutationFailures := trace.countP Event.undone
  statements := trace.countP Event.sent

/-! ### An invariant of sessions -/

/-- The counters agree with the calls that were made. -/
def Session.Accounted (session : Session σ) : Prop :=
  session.metrics = Metrics.ofTrace session.trace

/-- A session in which nothing has happened yet is accounted for. -/
theorem Session.accounted_start (state : σ) : (Session.start state).Accounted := rfl

namespace Action

variable {I : Session σ → Prop}

/-- **What an action leads to**: from any session with one property to a result and a session with
another. -/
def Leads (I : Session σ → Prop) (action : Action σ ε α) (Q : Except ε α → Session σ → Prop) :
    Prop :=
  ∀ session, I session → Q (action.run session).1 (action.run session).2

/-- **An action preserves a property of sessions**, whether it succeeds or fails. -/
def Preserves (action : Action σ ε α) (I : Session σ → Prop) : Prop :=
  Leads I action (fun _ => I)

/-- **Two actions, one after the other.**  The second is not begun if the first fails. -/
theorem Leads.bind {action : Action σ ε α} {next : α → Action σ ε β}
    {P : Except ε α → Session σ → Prop} {Q : Except ε β → Session σ → Prop}
    (first : Leads I action P) (failed : ∀ e session, P (.error e) session → Q (.error e) session)
    (rest : ∀ a, Leads (P (.ok a)) (next a) Q) : Leads I (action >>= next) Q := by
  intro session holds
  have between := first session holds
  have run : (action >>= next).run session
      = match action.run session with
        | (.ok a, between) => (next a).run between
        | (.error e, between) => (.error e, between) := by
    change (match action.run session with
      | (result, between) => ExceptT.bindCont next result between) = _
    rcases action.run session with ⟨_ | _, _⟩ <;> rfl
  rw [run]
  rcases ran : action.run session with ⟨e | a, after⟩
  · rw [ran] at between
    exact failed e after between
  · rw [ran] at between
    exact rest a after between

theorem Preserves.bind {action : Action σ ε α} {next : α → Action σ ε β}
    (first : action.Preserves I) (rest : ∀ a, (next a).Preserves I) :
    (action >>= next).Preserves I :=
  Leads.bind first (fun _ _ holds => holds) rest

theorem preserves_pure (a : α) : (pure a : Action σ ε α).Preserves I :=
  fun _ holds => holds

theorem preserves_throw (e : ε) : (throw e : Action σ ε α).Preserves I :=
  fun _ holds => holds

theorem Leads.mapError {action : Action σ ε α} {f : ε → ε'}
    {Q : Except ε' α → Session σ → Prop}
    (leads : Leads I action (fun result => Q (result.mapError f))) :
    Leads I (action.mapError f) Q :=
  fun session holds => leads session holds

theorem Preserves.mapError {action : Action σ ε α} {f : ε → ε'} (h : action.Preserves I) :
    (action.mapError f).Preserves I :=
  Leads.mapError h

theorem Preserves.outcome {action : Action σ ε α} (h : action.Preserves I) :
    (action.outcome : Action σ ε' (Except ε α)).Preserves I :=
  fun session holds => h session holds

end Action

/-! ### Counters and calls -/

theorem countP_singleton_eq_toNat (kind : α → Bool) (a : α) : [a].countP kind = (kind a).toNat := by
  rw [List.countP_singleton]
  cases kind a <;> rfl

/-- What one more call adds to the counters. -/
theorem Metrics.ofTrace_concat (trace : List Event) (event : Event) :
    ofTrace (trace ++ [event]) =
      { queries := (ofTrace trace).queries + event.foundRows.toNat
        mutations := (ofTrace trace).mutations + event.kept.toNat
        mutationFailures := (ofTrace trace).mutationFailures + event.undone.toNat
        statements := (ofTrace trace).statements + event.sent.toNat } := by
  simp only [ofTrace, List.countP_append, countP_singleton_eq_toNat]

theorem Session.Accounted.concat {session : Session σ} (holds : session.Accounted) (event : Event)
    (state : σ) :
    Session.Accounted
      { state
        metrics :=
          { queries := session.metrics.queries + event.foundRows.toNat
            mutations := session.metrics.mutations + event.kept.toNat
            mutationFailures := session.metrics.mutationFailures + event.undone.toNat
            statements := session.metrics.statements + event.sent.toNat }
        trace := session.trace ++ [event] } := by
  rw [Session.Accounted, Metrics.ofTrace_concat, ← holds]

namespace Store

open ResourceQuery.Action

variable (store : Store σ)

/-- A call is recorded with its reply, and counts nothing by itself. -/
theorem leads_call {I : Session σ → Prop} (c : Call)
    {Q : Except StoreError c.Reply → Session σ → Prop}
    (after : ∀ session reply state, I session →
      Q reply { session with state, trace := session.trace ++ [⟨c, reply⟩] }) :
    Leads I (store.call c) Q :=
  fun session holds => after session _ _ holds

/-- A statement is counted before it is sent. -/
theorem leads_send {I : Session σ → Prop} (c : Call)
    {Q : Except StoreError c.Reply → Session σ → Prop}
    (after : ∀ session reply state, I session →
      Q reply ⟨state, session.metrics.countStatement, session.trace ++ [⟨c, reply⟩]⟩) :
    Leads I (store.send c) Q :=
  fun session holds => after session _ _ holds

theorem preserves_fetchCount (statement : Sql.Rendered) :
    (store.send (.fetchCount statement)).Preserves Session.Accounted :=
  fun _ holds => holds.concat ⟨.fetchCount statement, _⟩ _

theorem preserves_execute (statement : Sql.Rendered) :
    (store.send (.execute statement)).Preserves Session.Accounted :=
  fun _ holds => holds.concat ⟨.execute statement, _⟩ _

theorem preserves_fetchId (statement : Sql.Rendered) :
    (store.send (.fetchId statement)).Preserves Session.Accounted :=
  fun _ holds => holds.concat ⟨.fetchId statement, _⟩ _

theorem preserves_begin : store.begin.Preserves Session.Accounted :=
  fun _ holds => holds.concat ⟨.start, _⟩ _

/-- A kept transaction is counted after the reply, so that a commit that fails counts nothing. -/
theorem preserves_keep : store.keep.Preserves Session.Accounted := by
  refine Leads.bind (P := fun result session => match result with
      | .ok _ => Session.Accounted { session with metrics := session.metrics.countMutation }
      | .error _ => session.Accounted)
    (Leads.mapError (store.leads_call .commit ?_)) (fun _ _ holds => holds) ?_
  · intro session reply state holds
    cases reply with
    | error failure => exact holds.concat ⟨.commit, .error failure⟩ state
    | ok done => exact holds.concat ⟨.commit, .ok done⟩ state
  · exact fun _ _ holds => holds

/-- An undone transaction is counted before the call, whatever the reply. -/
theorem preserves_undo : (store.undo : Action σ ε Unit).Preserves Session.Accounted :=
  fun _ holds => holds.concat ⟨.rollback, _⟩ _

/-- **A transaction leaves its counters in order** if what is done inside it does. -/
theorem preserves_transaction {report : StoreError → ε} {action : Action σ ε α}
    (inside : action.Preserves Session.Accounted) :
    (store.transaction report action).Preserves Session.Accounted := by
  refine store.preserves_begin.mapError.bind fun _ => inside.outcome.bind fun outcome => ?_
  cases outcome with
  | ok a => exact store.preserves_keep.mapError.bind fun _ => preserves_pure a
  | error e => exact store.preserves_undo.bind fun _ => preserves_throw e

end Store

namespace QueryPlan

open ResourceQuery.Action

/-- A query is counted after its rows came back. -/
theorem preserves_run (plan : QueryPlan) (store : Store σ) :
    (plan.run store).Preserves Session.Accounted := by
  refine Preserves.bind ?_ fun total? => ?_
  · unfold runCount
    split
    · exact preserves_pure none
    · exact (store.preserves_fetchCount _).bind fun total => preserves_pure _
  · refine Leads.bind (P := fun result session => match result with
        | .ok _ => Session.Accounted { session with metrics := session.metrics.countQuery }
        | .error _ => session.Accounted) (store.leads_send _ ?_) (fun _ _ holds => holds) ?_
    · intro session reply state holds
      cases reply with
      | error failure => exact holds.concat ⟨.fetchRows _, .error failure⟩ state
      | ok rows => exact holds.concat ⟨.fetchRows _, .ok rows⟩ state
    · exact fun _ _ holds => holds

end QueryPlan

namespace MutationStep

open ResourceQuery.Action

variable (store : Store σ)

theorem preserves_run (step : MutationStep) : (step.run store).Preserves Session.Accounted := by
  refine Preserves.mapError ?_
  split
  · exact (store.preserves_fetchId _).bind fun id => preserves_pure _
  · refine Preserves.bind ?_ fun _ => preserves_pure none
    refine (store.preserves_execute _).bind fun (rows : UInt64) => ?_
    split
    · exact preserves_pure ()
    · exact preserves_throw _

theorem preserves_runAll (steps : List MutationStep) :
    (runAll store steps).Preserves Session.Accounted := by
  induction steps with
  | nil => exact preserves_pure ()
  | cons step rest ih => exact (step.preserves_run store).bind fun _ => ih

end MutationStep

namespace Repository

open ResourceQuery.Action

variable {π : Type} (repository : Repository σ)

/-! ### Operations -/

/-- Planning makes no calls and counts nothing. -/
theorem preserves_planned {I : Session σ → Prop} (plan : Except CompileError α) :
    (planned plan : Action σ RepositoryError α).Preserves I :=
  fun _ holds => holds

theorem preserves_query (request : Request) :
    (repository.query request).Preserves Session.Accounted :=
  (preserves_planned _).bind fun plan => (plan.preserves_run repository.store).mapError

theorem preserves_runSteps (steps : List MutationStep) :
    (repository.runSteps steps).Preserves Session.Accounted :=
  repository.store.preserves_transaction
    (MutationStep.preserves_runAll repository.store steps).mapError

theorem preserves_update (resourceType : String) (before after : Snapshot) :
    (repository.update resourceType before after).Preserves Session.Accounted :=
  (preserves_planned _).bind repository.preserves_runSteps

theorem preserves_delete (resourceType : String) (id : ResourceId) :
    (repository.delete resourceType id).Preserves Session.Accounted :=
  (preserves_planned _).bind fun step => repository.preserves_runSteps [step]

theorem preserves_create (resourceType : String) (after : Snapshot) :
    (repository.create resourceType after).Preserves Session.Accounted := by
  refine (preserves_planned _).bind fun (changes, plan) =>
    repository.store.preserves_transaction ?_
  refine (MutationStep.preserves_runAll repository.store _).mapError.bind fun _ => ?_
  refine (plan.insert.preserves_run repository.store).mapError.bind fun value? => ?_
  refine Preserves.bind ?_ fun id => (preserves_planned _).bind fun steps => ?_
  · unfold returnedId
    split
    · exact preserves_pure _
    · exact preserves_throw _
  · exact (MutationStep.preserves_runAll repository.store steps).mapError.bind fun _ =>
      preserves_pure id

end Repository

/-! ### Kinds of calls -/

namespace Action

/-- All calls that an action makes are of one kind. -/
def Makes (action : Action σ ε α) (kind : Event → Bool) : Prop :=
  action.Does (fun calls _ => ∀ event ∈ calls, kind event = true)

variable {kind : Event → Bool}

theorem Makes.bind {action : Action σ ε α} {next : α → Action σ ε β}
    (first : action.Makes kind) (rest : ∀ a, (next a).Makes kind) :
    (action >>= next).Makes kind := by
  refine Does.bind first (fun calls e all => all) fun calls a all => (rest a).mono ?_
  exact fun more result others => List.forall_mem_append.mpr ⟨all, others⟩

theorem makes_pure (a : α) : (pure a : Action σ ε α).Makes kind :=
  does_pure (List.forall_mem_nil _)

theorem makes_throw (e : ε) : (throw e : Action σ ε α).Makes kind :=
  does_throw (List.forall_mem_nil _)

theorem Makes.mapError {action : Action σ ε α} {f : ε → ε'} (h : action.Makes kind) :
    (action.mapError f).Makes kind :=
  Does.mapError h

end Action

namespace MutationStep

open ResourceQuery.Action

variable (store : Store σ)

theorem Accepted.changes {step : MutationStep} {event : Event} {value? : Option Sql.Value}
    (accepted : step.Accepted event value?) : event.changes = true := by
  cases accepted <;> rfl

theorem Failed.changes {step : MutationStep} {event : Event} {failure : StoreError}
    (failed : step.Failed event failure) : event.changes = true := by
  cases failed <;> rfl

/-- A step sends a statement that changes rows. -/
theorem makes_run (step : MutationStep) : (step.run store).Makes Event.changes := by
  refine (does_run store step).mono ?_
  rintro calls result ⟨event, rfl, ⟨value?, accepted, -⟩ | ⟨failure, failed, -⟩⟩
  · exact List.forall_mem_singleton.mpr accepted.changes
  · exact List.forall_mem_singleton.mpr failed.changes

theorem makes_runAll (steps : List MutationStep) : (runAll store steps).Makes Event.changes := by
  induction steps with
  | nil => exact makes_pure ()
  | cons step rest ih => exact (step.makes_run store).bind fun _ => ih

end MutationStep

namespace Repository

open ResourceQuery.Action

variable {π : Type} (repository : Repository σ)

theorem makes_runCreate (changes : ChangeSet) (plan : CreatePlan) :
    (repository.runCreate changes plan).Makes Event.changes := by
  refine (MutationStep.makes_runAll repository.store _).mapError.bind fun _ => ?_
  refine (plan.insert.makes_run repository.store).mapError.bind fun value? => ?_
  refine Makes.bind ?_ fun id => Makes.bind ?_ fun steps => ?_
  · unfold returnedId
    split
    · exact makes_pure _
    · exact makes_throw _
  · cases changes.planAfterCreate repository.schema id with
    | ok steps => exact makes_pure steps
    | error e => exact makes_throw _
  · exact (MutationStep.makes_runAll repository.store steps).mapError.bind fun _ => makes_pure id

/-! ### Calls and outcomes -/

/-- **The calls of a write agree with its result**: it succeeds if and only if a transaction was
kept, each transaction that was begun was kept, undone or lost, and no rows were fetched. -/
structure Closed (calls : List Event) (result : Except RepositoryError α) : Prop where
  kept : calls.countP Event.kept = result.isOk.toNat
  begun : calls.countP Event.begun
    = calls.countP Event.kept + calls.countP Event.undone + calls.countP Event.unkept
  found : calls.countP Event.foundRows = 0

/-- The calls of a transaction that count in some way, besides statements that change rows. -/
theorem countP_transaction {sent : List Event} {kind : Event → Bool}
    (all : ∀ event ∈ sent, event.changes = true) (first last : Event)
    (other : ∀ event : Event, event.changes = true → kind event = false) :
    (first :: sent ++ [last]).countP kind = (kind first).toNat + (kind last).toNat := by
  have none : sent.countP kind = 0 := List.countP_eq_zero.mpr fun event mem counts => by
    rw [other event (all event mem)] at counts
    cases counts
  rw [List.cons_append, ← List.singleton_append, List.countP_append, List.countP_append, none,
    countP_singleton_eq_toNat, countP_singleton_eq_toNat, Nat.zero_add]

/-- A transaction that was begun is settled by its last call. -/
theorem closed_transaction {sent : List Event} {last : Event} {result : Except RepositoryError α}
    (all : ∀ event ∈ sent, event.changes = true) (kept : last.kept.toNat = result.isOk.toNat)
    (settles : last.kept.toNat + last.undone.toNat + last.unkept.toNat = 1)
    (begun : last.begun = false) (found : last.foundRows = false) :
    Closed (⟨.start, .ok ()⟩ :: sent ++ [last]) result := by
  have counts (kind : Event → Bool) (other : ∀ event : Event, event.changes = true →
      kind event = false) := countP_transaction all ⟨.start, .ok ()⟩ last other
  have keeps := counts Event.kept fun _ changes => (elsewhere_of_changes changes).1
  constructor
  · rw [keeps, ← kept]
    exact Nat.zero_add _
  · rw [keeps, counts Event.begun fun _ changes => (elsewhere_of_changes changes).2.1,
      counts Event.undone fun _ changes => (elsewhere_of_changes changes).2.2.1,
      counts Event.unkept fun _ changes => (elsewhere_of_changes changes).2.2.2.1, begun]
    change 1 + 0 = 0 + _ + (0 + _) + (0 + _)
    omega
  · rw [counts Event.foundRows fun _ changes => (elsewhere_of_changes changes).2.2.2.2, found]
    rfl

/-- **A transaction that was begun is kept, undone or lost**, and a write succeeds if and only if
its transaction was kept. -/
theorem Course.closed {plan : Except CompileError π} {calls : List Event}
    {result : Except RepositoryError α}
    (course : Course plan (fun _ sent _ => ∀ event ∈ sent, event.changes = true)
      (fun _ sent _ => ∀ event ∈ sent, event.changes = true) calls result) :
    Closed calls result := by
  cases course with
  | unplanned failed => exact ⟨rfl, rfl, rfl⟩
  | unstarted planned reported => exact ⟨rfl, rfl, rfl⟩
  | kept planned sent => exact closed_transaction sent rfl rfl rfl rfl
  | unkept planned sent reported => exact closed_transaction sent rfl rfl rfl rfl
  | undone planned sent => exact closed_transaction sent rfl rfl rfl rfl

/-- **A query succeeds if and only if its rows came back**, and has nothing to do with
transactions. -/
theorem does_query_rows (request : Request) :
    (repository.query request).Does (fun calls result =>
      calls.countP Event.foundRows = result.isOk.toNat ∧ calls.countP Event.kept = 0
        ∧ calls.countP Event.begun = 0 ∧ calls.countP Event.undone = 0
        ∧ calls.countP Event.unkept = 0) := by
  unfold query
  cases request.compile repository.schema repository.settings with
  | error e => exact does_throw ⟨rfl, rfl, rfl, rfl, rfl⟩
  | ok plan =>
    refine Does.mapError (Does.bind (P := fun calls _ => calls = []
      ∨ ∃ statement reply, calls = [⟨.fetchCount statement, reply⟩]) ?_ ?_ ?_)
    · split
      · exact does_pure (.inl rfl)
      · refine (repository.store.does_send _).bind ?_ ?_
        · rintro calls failure rfl
          exact .inr ⟨_, _, rfl⟩
        · rintro calls total rfl
          exact does_pure (.inr ⟨_, _, rfl⟩)
    · rintro calls failure (rfl | ⟨statement, reply, rfl⟩) <;> exact ⟨rfl, rfl, rfl, rfl, rfl⟩
    · rintro calls total? counted
      refine (repository.store.does_send _).bind ?_ ?_
      · rintro more failure rfl
        rcases counted with rfl | ⟨statement, reply, rfl⟩ <;> exact ⟨rfl, rfl, rfl, rfl, rfl⟩
      · rintro more rows rfl
        refine does_count_bind (does_pure ?_)
        rcases counted with rfl | ⟨statement, reply, rfl⟩ <;> exact ⟨rfl, rfl, rfl, rfl, rfl⟩

theorem does_update_closed (resourceType : String) (before after : Snapshot) :
    (repository.update resourceType before after).Does Closed := by
  refine (does_write repository fun steps => ?_).mono fun _ _ course => course.closed
  refine (MutationStep.makes_runAll repository.store steps).mapError.mono ?_
  rintro calls (_ | _) all <;> exact all

theorem does_delete_closed (resourceType : String) (id : ResourceId) :
    (repository.delete resourceType id).Does Closed := by
  refine (does_write repository fun step => ?_).mono fun _ _ course => course.closed
  refine (MutationStep.makes_runAll repository.store [step]).mapError.mono ?_
  rintro calls (_ | _) all <;> exact all

theorem does_create_closed (resourceType : String) (after : Snapshot) :
    (repository.create resourceType after).Does Closed := by
  refine (does_write repository fun plan => ?_).mono fun _ _ course => course.closed
  refine (repository.makes_runCreate plan.1 plan.2).mono ?_
  rintro calls (_ | _) all <;> exact all

/-! ### Sequences of operations -/

/-- An operation on resources. -/
inductive Operation where
  | query (request : Request)
  | create (resourceType : String) (after : Snapshot)
  | update (resourceType : String) (before after : Snapshot)
  | delete (resourceType : String) (id : ResourceId)

/-- An operation with the schema and the settings under which it is done. -/
structure Job where
  schema : Schema
  settings : QuerySettings
  operation : Operation

/-- What an operation that succeeds returns. -/
inductive Response where
  /-- The result of a query. -/
  | found (result : QueryResult)
  /-- The identifier of a resource that was created. -/
  | created (id : ResourceId)
  /-- A resource was updated or deleted. -/
  | written

/-- The outcome of an operation. -/
abbrev Outcome := Except RepositoryError Response

/-- A query succeeded. -/
def Outcome.answers : Outcome → Bool
  | .ok (.found _) => true
  | _ => false

/-- A creation, an update or a deletion succeeded. -/
def Outcome.writes : Outcome → Bool
  | .ok (.created _) | .ok .written => true
  | _ => false

/-- Do an operation. -/
def Job.run (job : Job) (store : Store σ) : Action σ RepositoryError Response :=
  let repository : Repository σ := ⟨job.schema, job.settings, store⟩
  match job.operation with
  | .query request => do return .found (← repository.query request)
  | .create resourceType after => do return .created (← repository.create resourceType after)
  | .update resourceType before after => do
    repository.update resourceType before after
    return .written
  | .delete resourceType id => do
    repository.delete resourceType id
    return .written

/-- Do operations one after the other, whether they succeed or fail. -/
def runJobs (store : Store σ) : List Job → Session σ → List Outcome × Session σ
  | [], session => ([], session)
  | job :: rest, session =>
    let (outcome, session) := (job.run store).run session
    let (outcomes, session) := runJobs store rest session
    (outcome :: outcomes, session)

/-- **The calls of operations agree with their outcomes**: rows came back for each query that
succeeded, a transaction was kept for each write that succeeded, and each transaction that was begun
was kept, undone or lost. -/
structure Balanced (calls : List Event) (outcomes : List Outcome) : Prop where
  found : calls.countP Event.foundRows = outcomes.countP Outcome.answers
  kept : calls.countP Event.kept = outcomes.countP Outcome.writes
  begun : calls.countP Event.begun
    = calls.countP Event.kept + calls.countP Event.undone + calls.countP Event.unkept

theorem Balanced.append {calls more : List Event} {outcomes others : List Outcome}
    (first : Balanced calls outcomes) (rest : Balanced more others) :
    Balanced (calls ++ more) (outcomes ++ others) := by
  constructor
  · rw [List.countP_append, List.countP_append, first.found, rest.found]
  · rw [List.countP_append, List.countP_append, first.kept, rest.kept]
  · simp only [List.countP_append, first.begun, rest.begun]
    omega

/-- A write that succeeded or failed is balanced. -/
theorem Closed.balanced {calls : List Event} {result : Except RepositoryError α}
    {outcome : Outcome} (closed : Closed calls result) (answers : outcome.answers = false)
    (writes : outcome.writes = result.isOk) : Balanced calls [outcome] := by
  constructor
  · rw [closed.found, countP_singleton_eq_toNat, answers]
    rfl
  · rw [closed.kept, countP_singleton_eq_toNat, writes]
  · exact closed.begun

/-- **One operation is balanced.** -/
theorem Job.does_run (job : Job) (store : Store σ) :
    (job.run store).Does (fun calls outcome => Balanced calls [outcome]) := by
  obtain ⟨schema, settings, operation⟩ := job
  let repository : Repository σ := ⟨schema, settings, store⟩
  cases operation with
  | query request =>
    refine (repository.does_query_rows request).bind ?_ ?_
    · rintro calls e ⟨found, kept, begun, undone, unkept⟩
      exact ⟨found, kept, by rw [kept, begun, undone, unkept]⟩
    · rintro calls result ⟨found, kept, begun, undone, unkept⟩
      refine does_pure ?_
      rw [List.append_nil]
      exact ⟨found, kept, by rw [kept, begun, undone, unkept]⟩
  | create resourceType after =>
    refine (repository.does_create_closed resourceType after).bind ?_ ?_
    · exact fun calls e closed => closed.balanced rfl rfl
    · exact fun calls id closed => does_pure (by simpa using closed.balanced rfl rfl)
  | update resourceType before after =>
    refine (repository.does_update_closed resourceType before after).bind ?_ ?_
    · exact fun calls e closed => closed.balanced rfl rfl
    · exact fun calls _ closed => does_pure (by simpa using closed.balanced rfl rfl)
  | delete resourceType id =>
    refine (repository.does_delete_closed resourceType id).bind ?_ ?_
    · exact fun calls e closed => closed.balanced rfl rfl
    · exact fun calls _ closed => does_pure (by simpa using closed.balanced rfl rfl)

/-- One operation leaves the counters in order. -/
theorem Job.preserves_run (job : Job) (store : Store σ) :
    (job.run store).Preserves Session.Accounted := by
  obtain ⟨schema, settings, operation⟩ := job
  let repository : Repository σ := ⟨schema, settings, store⟩
  cases operation with
  | query request => exact (repository.preserves_query request).bind fun _ => preserves_pure _
  | create resourceType after =>
    exact (repository.preserves_create resourceType after).bind fun _ => preserves_pure _
  | update resourceType before after =>
    exact (repository.preserves_update resourceType before after).bind fun _ => preserves_pure _
  | delete resourceType id =>
    exact (repository.preserves_delete resourceType id).bind fun _ => preserves_pure _

/-- **Any number of operations** leaves the counters in order and the calls balanced. -/
theorem runJobs_balanced (store : Store σ) (jobs : List Job) (session : Session σ)
    (accounted : session.Accounted) :
    (runJobs store jobs session).2.Accounted ∧ ∃ calls,
      (runJobs store jobs session).2.trace = session.trace ++ calls
        ∧ Balanced calls (runJobs store jobs session).1 := by
  induction jobs generalizing session with
  | nil => exact ⟨accounted, [], (List.append_nil _).symm, ⟨rfl, rfl, rfl⟩⟩
  | cons job rest ih =>
    obtain ⟨calls, trace, balanced⟩ := job.does_run store session
    obtain ⟨accounted, more, traces, others⟩ := ih _ (job.preserves_run store session accounted)
    refine ⟨accounted, calls ++ more, ?_, balanced.append others⟩
    rw [← List.append_assoc, ← trace]
    exact traces

/-- **Metrics account for every call.**  After any sequence of queries, creations, updates and
deletions on any database, of which each call may fail, the counters say how many statements were
sent, how many queries and how many writes succeeded, and how many transactions were to be undone.
The writes that succeeded are the transactions that were kept, and each transaction that was begun
was kept, undone, or lost when it was to be kept. -/
theorem metrics_account_for_calls (store : Store σ) (jobs : List Job) (state : σ) :
    let outcomes := (runJobs store jobs (Session.start state)).1
    let session := (runJobs store jobs (Session.start state)).2
    session.metrics.statements = session.trace.countP Event.sent
    ∧ session.metrics.queries = outcomes.countP Outcome.answers
    ∧ session.metrics.mutations = outcomes.countP Outcome.writes
    ∧ session.metrics.mutations = session.trace.countP Event.kept
    ∧ session.metrics.mutationFailures = session.trace.countP Event.undone
    ∧ session.trace.countP Event.begun
      = session.metrics.mutations + session.metrics.mutationFailures
        + session.trace.countP Event.unkept := by
  intro outcomes session
  obtain ⟨accounted, calls, trace, balanced⟩ :=
    runJobs_balanced store jobs _ (Session.accounted_start state)
  have trace : session.trace = calls := trace
  have accounted : session.metrics = Metrics.ofTrace session.trace := accounted
  rw [accounted, trace]
  exact ⟨rfl, balanced.found, balanced.kept, rfl, rfl, balanced.begun⟩

end Repository

end ResourceQuery
