/-
Executor domain enumerations and the Execution transition table.

The enumerations are those of `domain/enums.py`; the table is
`EXECUTION_TRANSITIONS` of `domain/transitions.py`, which API commands and
Workers both consult before they change an Execution's status.

* `requireExecutionTransition_ok` — the table guard as a membership fact.
-/
import Mathlib.Data.Int.Notation
import Mathlib.Data.List.Basic

namespace ExecutorService

/-- Row identifiers (UUID columns). -/
abbrev UUID := ℕ

/-- Identity of a Worker process: the value of the lease owner columns. -/
abbrev WorkerId := ℕ

/-- Identifier of a kernel session on a Runtime. -/
abbrev SessionId := ℕ

/-- Client-chosen idempotency keys and request fingerprints. -/
abbrev Key := ℕ

/-- A clock reading or a duration, in the database's time unit. -/
abbrev Time := ℤ

/-- The status of an Execution. -/
inductive ExecutionStatus
  | queued | running | waitingForOperation | finalizing | cancelRequested
  | cancelled | succeeded | failed
  deriving DecidableEq, Repr

/-- `is_terminal`. -/
def ExecutionStatus.isTerminal : ExecutionStatus → Bool
  | .cancelled | .succeeded | .failed => true
  | _ => false

/-- Whether an Execution has one Operation or waits for more. -/
inductive OperationMode
  | single | multi
  deriving DecidableEq, Repr

/-- The pools of Runtime Targets. -/
inductive RuntimePool
  | interactive | batch
  deriving DecidableEq, Repr

/-- The kinds of Runtimes. -/
inductive RuntimeType
  | jupyter
  deriving DecidableEq, Repr

/-- The status of a Step. -/
inductive StepStatus
  | pending | running | succeeded | failed | skipped | cancelled
  deriving DecidableEq, Repr

/-- The status of a row of the outbox. -/
inductive OutboxStatus
  | pending | published
  deriving DecidableEq, Repr

/-- The status of a Runtime Target. -/
inductive RuntimeTargetStatus
  | active | draining | offline
  deriving DecidableEq, Repr

/-- The status of an Attempt. -/
inductive AttemptStatus
  | running | waiting | succeeded | failed | cancelled
  deriving DecidableEq, Repr

/-- The status of an Operation. -/
inductive OperationStatus
  | queued | running | succeeded | failed | cancelled
  deriving DecidableEq, Repr

/-- The Operation has ended. -/
def OperationStatus.isTerminal : OperationStatus → Bool
  | .succeeded | .failed | .cancelled => true
  | _ => false

/-- Why an Execution failed. -/
inductive FailureType
  | toolError | infrastructureError | workerShutdown | runtimeUnavailable
  | leaseExpired | internalError | operationWaitTimeout | operationTimeout
  | stepTimeout | executionTimeout | queueTimeout | outputLimitExceeded
  | runtimeSessionLost | completionFailed
  deriving DecidableEq, Repr

/-- What ended a MULTI Execution, or any Execution past its lifetime. -/
inductive FinalizedBy
  | agent | waitTimeout | maxRuntime
  deriving DecidableEq, Repr

/-- Why an Execution is handed over. -/
inductive HandoverReason
  | executorShutdown | executorUnresponsive
  deriving DecidableEq, Repr

/-- Where a retry begins. -/
inductive RetryStrategy
  | notRetryable | fromFailedStep | fromStart
  deriving DecidableEq, Repr

/-- How far the removal of a Runtime session is. -/
inductive RuntimeSessionCleanupStatus
  | notRequired | pending | succeeded | failed
  deriving DecidableEq, Repr

/-- How far the abort of a Runtime session is. -/
inductive RuntimeAbortStatus
  | notRequired | pending | idleConfirmed | sessionDeleted | sessionMissing | failed
  deriving DecidableEq, Repr

/-- How far the notebook's projection is. -/
inductive NotebookProjectionStatus
  | notStarted | pending | succeeded | failed
  deriving DecidableEq, Repr

/-- The types of Artifacts. -/
inductive ArtifactType
  | dataset | notebook | report | plot | model | metric | log | other
  deriving DecidableEq, Repr

/-- The status of an Artifact. -/
inductive ArtifactStatus
  | available | incomplete | deleted
  deriving DecidableEq, Repr

/-! ### Allowed Execution status transitions -/

/-- `EXECUTION_TRANSITIONS`; a status without an entry allows nothing. -/
def executionTransitions : ExecutionStatus → List ExecutionStatus
  -- Claimed, cancelled, or failed when a retained retry cannot resume.
  | .queued => [.running, .cancelRequested, .failed]
  -- `queued`: a retained retry waits for its Runtime Target.
  | .running => [.succeeded, .failed, .waitingForOperation, .cancelRequested, .queued]
  | .waitingForOperation => [.queued, .finalizing, .cancelRequested, .failed]
  | .finalizing => [.running, .cancelRequested, .failed]
  -- `failed` when the maximum-runtime audit, not a caller, requested it.
  | .cancelRequested => [.cancelled, .failed]
  -- Explicit SINGLE retry.
  | .failed => [.queued]
  | .cancelled | .succeeded => []

/-- The errors a transaction can raise; each one rolls it back. -/
inductive StoreError
  | leaseLost
  | invalidStateTransition
  | versionConflict
  | persistenceConflict
  | idempotencyConflict
  | invalidSpec (type : String)
  | completion (phase : String)
  | value (message : String)
  deriving DecidableEq, Repr

/-- A transaction's result: an error, or what it commits. -/
abbrev Txn (α : Type) := Except StoreError α

namespace Txn

variable {α β : Type}

theorem bind_ok {x : Txn α} {f : α → Txn β} {b : β} :
    (x >>= f) = .ok b ↔ ∃ a, x = .ok a ∧ f a = .ok b := by
  cases x with
  | error e => simp [bind, Except.bind]
  | ok a => simp [bind, Except.bind]

theorem pure_ok {a b : α} : (pure a : Txn α) = .ok b ↔ a = b := by
  simp [pure, Except.pure]

theorem mapError_ok {f : StoreError → StoreError} {x : Txn α} {a : α} :
    x.mapError f = .ok a ↔ x = .ok a := by
  cases x <;> simp [Except.mapError]

end Txn

/-- `require_execution_transition`. -/
def requireExecutionTransition (current target : ExecutionStatus) : Txn Unit :=
  if target ∈ executionTransitions current then .ok ()
  else .error .invalidStateTransition

theorem requireExecutionTransition_ok {current target : ExecutionStatus} {u : Unit} :
    requireExecutionTransition current target = .ok u ↔
      target ∈ executionTransitions current := by
  unfold requireExecutionTransition
  split <;> simp_all

end ExecutorService
