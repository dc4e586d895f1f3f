/-
The deployment around one Execution.

Everything that touches the Execution at once: commands and audits, heartbeats, the jobs of
any number of Workers, each waiting for the reply to its next await, and the crashes of
Workers.  A claim that commits starts the run of its lease; a job goes on one await at a
time, in any order with the others.

* `Deployment.step` — one action of the environment or of a job;
* `run_guardedBy` — a run issues transactions under its own lease only;
* `passJob_unguarded`, `cancellation_unguarded` — the other jobs issue none under a lease of a
  run.
-/
import ExecutorService.MultiRuns
import ExecutorService.RunEffects

namespace ExecutorService

open Program Job
open Tables (StepRun FinalizeRequest)

/-- Transactions that no job issues: commands, audits without a session, heartbeats. -/
def TableTransaction.isFree : TableTransaction → Bool
  | .cancel .. | .retry .. | .createOperation .. | .finalizeCommand .. | .renewExecution ..
  | .renewCancellation .. | .failQueueTimeout .. | .requestExpiredCancellation .. => true
  | _ => false

/-- A background pass over the Execution. -/
inductive Pass
  | recoverExpiredLease (view : ClaimView)
  | cleanupExpired
  | retryUnresolved
  | auditWaiting (now : Time)

/-- A job of a Worker that waits for its next await; a run has the lease it was claimed
with. -/
structure Task where
  lease : Option ExecutionLease
  program : Job Unit

/-- An Execution and the tasks that Workers run for it. -/
structure Deployment where
  world : World
  tasks : List Task := []

/-- What happens next: a request, a claim, or a step of a task. -/
inductive Action
  | write (eventTime : Time) (tx : TableTransaction) (free : tx.isFree = true)
  | log (tx : LogTransaction)
  | claim (eventTime now : Time) (worker : WorkerId) (attemptId : UUID) (view : ClaimView)
      (workspacePath notebookPath : String)
  | claimHandover (eventTime now : Time) (worker : WorkerId) (view : ClaimView)
      (workspacePath notebookPath : String)
  | claimCancellation (eventTime now : Time) (worker : WorkerId)
  | pass (job : Pass)
  | await (i : ℕ) (c : Choice)
  | crash (i : ℕ)

/-- The job a pass starts on the row it reads. -/
def passJob (e : ExecutionRow) : Pass → Job Unit
  | .recoverExpiredLease view => recoverExpiredLease view
  | .cleanupExpired => cleanupExpiredSession
  | .retryUnresolved => retryUnresolvedSession
  | .auditWaiting now => auditWaiting e now

/-- The reply a job gets: a run seals results under its own lease. -/
def Task.perform {α : Type} (settings : Settings) (lease : Option ExecutionLease) (c : Choice)
    (w : World) (e : Effect α) : World × Except Failure α :=
  match lease with
  | none => e.perform settings c w
  | some lease => e.perform settings (c.sealedBy lease) w

namespace Deployment

/-- A claim: its transaction, and the job of the lease it issued. -/
def claim (settings : Settings) (eventTime : Time) (tx : TableTransaction)
    (job : Tables → Lease → Task) (s : Deployment) : Deployment :=
  match tx.commit settings eventTime s.world.history.rows with
  | .ok (rows, lease) =>
    { world := { s.world with history := s.world.history.step settings (.table eventTime tx) }
      tasks := s.tasks ++ (lease.map (job rows.tables)).toList }
  | .error _ => s

/-- The run of a lease. -/
def runTask (workspacePath notebookPath : String) (handover : Option HandoverRow) (t : Tables) :
    Lease → Task
  | .execution lease => ⟨some lease, run lease (t.claimed workspacePath notebookPath) handover⟩
  | .cancellation _ => ⟨none, .ret ()⟩

/-- The task of a claimed cancellation. -/
def cancellationTask (t : Tables) : Lease → Task
  | .cancellation lease =>
    ⟨none, cancellation ⟨lease, t.execution.runtimeTargetId, t.execution.runtimeSessionId⟩⟩
  | .execution _ => ⟨none, .ret ()⟩

/-- A job gets the reply to its await. -/
def advance (settings : Settings) (i : ℕ) (c : Choice) (s : Deployment) : Deployment :=
  match s.tasks[i]? with
  | none => s
  | some task =>
    match task.program with
    | .ret _ => { s with tasks := s.tasks.eraseIdx i }
    | .raise _ => { s with tasks := s.tasks.eraseIdx i }
    | .call e k =>
      { world := (Task.perform settings task.lease c s.world e).1
        tasks := s.tasks.set i { task with program := k (Task.perform settings task.lease c s.world e).2 } }

/-- One action. -/
def step (settings : Settings) (s : Deployment) : Action → Deployment
  | .write eventTime tx _ =>
    { s with world.history := s.world.history.step settings (.table eventTime tx) }
  | .log tx => { s with world.history := s.world.history.step settings (.log tx) }
  | .claim eventTime now worker attemptId view workspacePath notebookPath =>
    s.claim settings eventTime (.claim now worker attemptId view)
      (runTask workspacePath notebookPath none)
  | .claimHandover eventTime now worker view workspacePath notebookPath =>
    s.claim settings eventTime (.claimHandover now worker view)
      (runTask workspacePath notebookPath s.world.tables.handover)
  | .claimCancellation eventTime now worker =>
    s.claim settings eventTime (.claimCancellation now worker) cancellationTask
  | .pass job =>
    { s with tasks := s.tasks ++ [⟨none, passJob s.world.tables.execution job⟩] }
  | .await i c => s.advance settings i c
  | .crash i => { s with tasks := s.tasks.eraseIdx i }

/-- The state after a list of actions on a submitted Execution. -/
def run (settings : Settings) (submission : Submission settings) (actions : List Action) : Deployment :=
  Transition.run (step settings) { world := { history := submission.history } } actions

end Deployment

section

variable {settings : Settings} {lease : ExecutionLease}

/-! ### Whose transactions they are -/

/-- Every transaction of the effect is issued under the lease. -/
def Effect.GuardedBy (lease : ExecutionLease) {α : Type} (e : Effect α) : Prop :=
  ∀ c tx, e.table? c = some tx → tx.guard = some (.execution lease)

/-- No transaction of the effect is one of a run. -/
def Effect.Unguarded {α : Type} (e : Effect α) : Prop :=
  ∀ c tx, e.table? c = some tx → ∀ lease, tx.guard ≠ some (.execution lease)

theorem RunEffect.guardedBy {α : Type} {e : Effect α} {starts : Bool}
    (h : RunEffect lease starts e) : e.GuardedBy lease := by
  intro c tx htable
  cases h <;> simp only [Effect.table?, Option.some.injEq, reduceCtorEq] at htable
  case transaction guarded => exact htable ▸ guarded c
  case markStarted => exact htable ▸ rfl
  case releaseForHandover => exact htable ▸ rfl

theorem run_guardedBy (lease : ExecutionLease) (claimed : Claimed) (handover : Option HandoverRow) :
    (run lease claimed handover).Within (Effect.GuardedBy lease) :=
  (run_effects lease claimed handover).mono RunEffect.guardedBy

/-- Transactions outside of the runs are proper on any rows. -/
theorem TableTransaction.proper_of_unguarded {tx : TableTransaction}
    (h : ∀ lease, tx.guard ≠ some (.execution lease)) (trail : List EventSubject) (t : Tables) :
    tx.Proper trail t := by
  cases tx <;> first | trivial | exact absurd rfl (h _)

theorem TableTransaction.proper_of_isFree {tx : TableTransaction} (h : tx.isFree = true)
    (trail : List EventSubject) (t : Tables) : tx.Proper trail t := by
  cases tx <;> trivial

theorem TableTransaction.renews_of_isFree {tx : TableTransaction} (h : tx.isFree = true)
    {l : ExecutionLease} (hguard : tx.guard = some (.execution l)) : tx.isRenewal = true := by
  cases tx <;> first
    | rfl
    | exact absurd h Bool.false_ne_true
    | (simp only [guard, reduceCtorEq] at hguard)

/-! ### Background jobs -/

section

variable {α : Type}

theorem unguarded_of_none {e : Effect α} (h : ∀ c, e.table? c = none) : e.Unguarded := by
  intro c tx htable
  rw [h] at htable
  cases htable

theorem unguarded_of_tx {tx : Choice → TableTransaction}
    (h : ∀ c lease, (tx c).guard ≠ some (.execution lease)) :
    Effect.Unguarded (.transaction tx) := by
  intro c tx' htable
  cases htable
  exact h c

theorem unguarded_of_reserve {tx : Choice → TableTransaction}
    (h : ∀ c lease, (tx c).guard ≠ some (.execution lease)) : Effect.Unguarded (.reserve tx) := by
  intro c tx' htable
  cases htable
  exact h c

/-- An effect without a transaction. -/
theorem within_await {e : Effect α} (h : ∀ c, e.table? c = none) :
    (Program.await e : Job α).Within Effect.Unguarded :=
  .await (unguarded_of_none h)

theorem within_onException {p : Job α} {g : Failure → Job α} (h : p.Within Effect.Unguarded)
    (hg : ∀ x, (g x).Within Effect.Unguarded) : (onException p g).Within Effect.Unguarded := by
  refine h.handle fun x => ?_
  split
  · exact hg x
  · trivial

theorem recoverSession_unguarded (observation : RuntimeObservation) :
    (recoverSession observation).Within Effect.Unguarded := by
  refine within_onException ?_ fun _ => within_await fun _ => rfl
  refine Within.bind (within_await fun _ => rfl) fun current => ?_
  split
  · split
    · trivial
    · refine Within.bind (within_onException ?_ fun _ => trivial) fun deleted => ?_
      · refine Within.bind (within_await fun _ => rfl) fun usable => ?_
        split
        · exact Within.bind (within_await fun _ => rfl) fun _ => trivial
        · trivial
      · exact .await (unguarded_of_tx fun _ _ h => by cases h)
  · trivial

theorem reserveAndRecover_unguarded {tx : Choice → TableTransaction}
    (h : ∀ c lease, (tx c).guard ≠ some (.execution lease)) :
    (reserveAndRecover tx).Within Effect.Unguarded := by
  refine Within.bind (.await (unguarded_of_reserve h)) fun reserved => ?_
  cases reserved with
  | none => trivial
  | some observation => exact recoverSession_unguarded observation

theorem auditWaiting_unguarded (row : ExecutionRow) (now : Time) :
    (auditWaiting row now).Within Effect.Unguarded := by
  unfold auditWaiting
  dsimp only
  refine within_onException ?_ fun _ => within_await fun _ => rfl
  split
  · exact reserveAndRecover_unguarded fun _ _ h => by cases h
  · split
    · exact reserveAndRecover_unguarded fun _ _ h => by cases h
    · refine Within.bind (within_await fun _ => rfl) fun usable => ?_
      split
      · split
        · exact reserveAndRecover_unguarded fun _ _ h => by cases h
        · refine Within.bind (within_onException (within_await fun _ => rfl) fun _ => ?_)
            fun found => ?_
          · exact Within.bind (within_await fun _ => rfl) fun _ => trivial
          · split
            · trivial
            · exact reserveAndRecover_unguarded fun _ _ h => by cases h
      · exact reserveAndRecover_unguarded fun _ _ h => by cases h

theorem passJob_unguarded (e : ExecutionRow) (pass : Pass) :
    (passJob e pass).Within Effect.Unguarded := by
  cases pass with
  | recoverExpiredLease view => exact reserveAndRecover_unguarded fun _ _ h => by cases h
  | cleanupExpired => exact reserveAndRecover_unguarded fun _ _ h => by cases h
  | retryUnresolved => exact reserveAndRecover_unguarded fun _ _ h => by cases h
  | auditWaiting now => exact auditWaiting_unguarded e now

theorem cancellation_unguarded (work : CancellationWork) :
    (cancellation work).Within Effect.Unguarded := by
  refine within_onException ?_ fun _ => trivial
  refine Within.bind ?_ fun cleanup => .await (unguarded_of_tx fun _ _ h => by cases h)
  unfold stopCancelledRuntime
  split
  · trivial
  · exact Within.bind (within_await fun _ => rfl) fun _ => trivial
  · refine Within.bind (within_await fun _ => rfl) fun _ =>
      Within.bind (within_await fun _ => rfl) fun usable => ?_
    split
    · refine within_onException ?_ fun _ => ?_
      · exact Within.bind (within_await fun _ => rfl) fun _ =>
          Within.bind (within_await fun _ => rfl) fun _ => trivial
      · exact Within.bind (within_await fun _ => rfl) fun _ => trivial
    · exact Within.bind (within_await fun _ => rfl) fun _ => trivial

end

end

end ExecutorService
