/-
Ends of a run.

`run_finalizer.py` ends a run under its Execution lease: the abort record, the
release to the cancellation path or to another Worker, and `finalize`, which
closes the Execution with its Attempt, Operation and Steps.  `cancellation.py`
ends a CANCEL_REQUESTED Execution under a cancellation lease.

The two differ in the Operation event: `finalize` of a run announces an
Operation only when it has just closed it, the cancellation announces the active
Operation whatever its status was.
-/
import ExecutorService.StepState

namespace ExecutorService

namespace Tables

/-- The abort, cleanup and failure columns of the row and of the Attempt. -/
def withAbort (now : Time) (attemptId : UUID) (abort : RuntimeAbortStatus)
    (cleanup : RuntimeSessionCleanupStatus) (failureType : FailureType) (t : Tables) : Tables :=
  { t with
    execution := { t.execution with
      runtimeAbortStatus := abort
      runtimeSessionCleanupStatus := cleanup
      failureType := some failureType
      updatedAt := now
      version := t.execution.version + 1 }
    attempts := t.attempts.updateWhere (·.id == attemptId) fun a =>
      { a with
        runtimeAbortStatus := abort
        runtimeSessionCleanupStatus := cleanup
        failureType := some failureType } }

/-- `_record_runtime_abort`. -/
def recordRuntimeAbort (clock : Clock) (lease : ExecutionLease) (abort : RuntimeAbortStatus)
    (cleanup : RuntimeSessionCleanupStatus) (failureType : FailureType) (t : Tables) :
    Txn Change := do
  let _ ← t.requireActiveLease clock.lease lease
  return { tables := t.withAbort clock.now lease.attemptId abort cleanup failureType }

/-- The owner leaves, the token stays. -/
def released (now : Time) (attemptId : UUID) (t : Tables) : Tables :=
  { t with
    execution := { t.execution with
      leaseOwner := none
      leaseExpiresAt := none
      heartbeatAt := none
      updatedAt := now }
    attempts := t.attempts.updateWhere (·.id == attemptId) fun a =>
      { a with leaseOwner := none, leaseExpiresAt := none } }

/-- `release_for_cancellation`. -/
def releaseForCancellation (clock : Clock) (lease : ExecutionLease) (t : Tables) :
    Txn Change := do
  let _ ← t.requireActiveLease clock.lease lease [.cancelRequested]
  return { tables := t.released clock.now lease.attemptId }

/-- A running Step of this lease's Attempt that another Worker can follow. -/
def followableStep (lease : ExecutionLease) (t : Tables) : Option StepAttemptRow :=
  t.runningStepAttempt.filter fun h => h.executionAttemptId == lease.attemptId &&
    executionJournal t.execution.runtimeType && t.execution.runtimeSessionId.isSome &&
    t.execution.runtimeAbortStatus != .pending

/-- The transaction of `release_for_handover`; without a followable Step it
commits nothing. -/
def releaseForHandover (clock : Clock) (lease : ExecutionLease) (t : Tables) : Txn Change := do
  let _ ← t.requireActiveLease clock.lease lease
  match t.followableStep lease with
  | none => return { tables := t }
  | some stepAttempt =>
    t.beginHandover clock.now clock.now .executorShutdown lease.attemptId stepAttempt

/-! ### The end of a run -/

/-- `AttemptStatus(status.value)`. -/
def attemptStatusOf : ExecutionStatus → Txn AttemptStatus
  | .running => .ok .running
  | .succeeded => .ok .succeeded
  | .failed => .ok .failed
  | .cancelled => .ok .cancelled
  | _ => .error (.value "not a valid AttemptStatus")

/-- The arguments of `finalize` besides the lease. -/
structure FinalizeRequest where
  status : ExecutionStatus
  errorMessage : Option String := none
  retainSession : Bool := false
  retryFromSequence : Option ℕ := none
  failureType : Option FailureType := none
  retryStrategy : RetryStrategy := .notRetryable
  cleanupStatus : RuntimeSessionCleanupStatus := .notRequired

/-- What a failed end keeps of the request; a success keeps nothing. -/
def FinalizeRequest.effective (q : FinalizeRequest) : FinalizeRequest :=
  if q.status = .failed then q
  else { q with errorMessage := none, failureType := none, retryStrategy := .notRetryable }

/-- A pending abort never ends as a session that needed no cleanup. -/
def effectiveCleanup (e : ExecutionRow) (cleanup : RuntimeSessionCleanupStatus) :
    RuntimeSessionCleanupStatus :=
  if e.runtimeAbortStatus = .pending ∧ cleanup = .notRequired then .failed else cleanup

/-- How a pending abort is resolved by the cleanup that followed it. -/
def resolvedAbort (current : RuntimeAbortStatus) (cleanup : RuntimeSessionCleanupStatus) :
    RuntimeAbortStatus :=
  if current = .pending then (if cleanup = .succeeded then .sessionDeleted else .failed)
  else current

/-- The Execution row `finalize` writes. -/
def finalizeExecution (settings : Settings) (now : Time) (q : FinalizeRequest)
    (e : ExecutionRow) : ExecutionRow :=
  let cleanup := effectiveCleanup e q.cleanupStatus
  let k := q.effective
  { e with
    status := q.status
    errorMessage := k.errorMessage
    failureType := k.failureType
    finishedAt := some now
    updatedAt := now
    leaseOwner := none
    leaseExpiresAt := none
    operationWaitExpiresAt := none
    retryStrategy := k.retryStrategy
    retryFromSequence := match k.retryStrategy with
      | .fromFailedStep => q.retryFromSequence
      | .fromStart => some 0
      | .notRetryable => none
    retainedRuntimeSessionUntil :=
      if q.status = .failed ∧ q.retainSession then
        some (now + settings.failedSessionRetentionSeconds)
      else none
    runtimeSessionCleanupStatus := cleanup
    runtimeAbortStatus := resolvedAbort e.runtimeAbortStatus cleanup
    runtimeSessionId :=
      if ¬ q.retainSession ∧ cleanup = .succeeded then none else e.runtimeSessionId
    version := e.version + 1 }

/-- The Attempt row `finalize` writes. -/
def finalizeAttempt (now : Time) (status : AttemptStatus) (q : FinalizeRequest)
    (e : ExecutionRow) (a : AttemptRow) : AttemptRow :=
  let cleanup := effectiveCleanup e q.cleanupStatus
  let k := q.effective
  { a with
    status := status
    leaseOwner := none
    leaseExpiresAt := none
    errorMessage := k.errorMessage
    failureType := k.failureType
    retryStrategy := k.retryStrategy
    runtimeSessionCleanupStatus := cleanup
    runtimeAbortStatus := if e.runtimeAbortStatus = .pending
      then resolvedAbort e.runtimeAbortStatus cleanup else a.runtimeAbortStatus
    finishedAt := some now }

/-- The open active Operation ends with the run. -/
def finalizeOperation (now : Time) (attemptId : UUID) (q : FinalizeRequest) (t : Tables) :
    Tables :=
  t.closeActiveOperation fun o =>
    { o with
      status := if q.status = .succeeded then .succeeded else .failed
      executionAttemptId := some attemptId
      errorMessage := q.effective.errorMessage
      finishedAt := some now
      updatedAt := now }

/-- The Steps of a failed run: the running ones fail, the rest is skipped. -/
def finalizeSteps (now : Time) (attemptId : UUID) (q : FinalizeRequest) (t : Tables) : Tables :=
  if q.status = .failed then
    let t := (t.failRunningSteps now q.errorMessage).skipPendingSteps now
    { t with
      stepAttempts := t.stepAttempts.updateWhere
        (fun h => h.executionAttemptId == attemptId && h.status == .running) fun h =>
        { h with status := .failed, errorMessage := q.errorMessage, finishedAt := some now } }
  else t

/-- The events of the Steps a failed run leaves running, written before the
PENDING Steps are skipped. -/
def finalizeStepEvents (now : Time) (attemptId : UUID) (q : FinalizeRequest)
    (running : List UUID) (t : Tables) : Txn (List EventPayload) :=
  if q.status = .failed then
    (t.failRunningSteps now q.errorMessage).addStepHistoryCompletedEvents
      (running.map fun stepId => (stepId, attemptId)) .failed
      (textOr q.errorMessage "Step execution failed.")
      (q.effective.retryStrategy != .notRetryable)
  else .ok []

/-- The row, the Attempt and the Operation of a finished run. -/
def runClosed (settings : Settings) (now : Time) (attemptId : UUID)
    (attemptStatus : AttemptStatus) (q : FinalizeRequest) (t : Tables) : Tables :=
  { t with
    execution := finalizeExecution settings now q t.execution
    attempts := t.attempts.updateWhere (·.id == attemptId)
      (finalizeAttempt now attemptStatus q t.execution) }.finalizeOperation now attemptId q

/-- `ExecutionRunFinalizer.finalize`. -/
def finalize (settings : Settings) (clock : Clock) (lease : ExecutionLease)
    (q : FinalizeRequest) (t : Tables) : Txn Change := do
  let _ ← t.requireActiveLease clock.lease lease
  let _ ← (if q.status = .succeeded then
      t.requireCompletedResults t.execution.activeOperationId t.execution.finalizationRequested
        true
    else .ok () : Txn Unit)
  let attemptStatus ← attemptStatusOf q.status
  requireExecutionTransition t.execution.status q.status
  let running := (t.stepAttempts.filter fun h =>
    h.executionAttemptId == lease.attemptId && h.status == .running).map (·.executionStepId)
  let closed := t.runClosed settings clock.now lease.attemptId attemptStatus q
  let stepEvents ← closed.finalizeStepEvents clock.now lease.attemptId q running
  let closed := closed.finalizeSteps clock.now lease.attemptId q
  return { tables := closed
           events := stepEvents ++ closedOperationEvent t closed ++
             closed.addExecutionCompletedEvent }

/-! ### The end of a cancellation -/

/-- Whether the maximum-runtime audit, not a caller, asked for the end. -/
def timedOut (e : ExecutionRow) : Bool :=
  e.finalizedBy == some .maxRuntime

/-- The error of a Step that is cancelled. -/
def cancellationReasonText (e : ExecutionRow) : String :=
  textOr e.cancellationReason "Step was cancelled by request."

/-- How a cancellation ends a Step. -/
def endedStep (e : ExecutionRow) : StepStatus :=
  if timedOut e then .failed else .cancelled

/-- The Execution row a cancellation writes. -/
def cancelExecution (now : Time) (cleanup : RuntimeSessionCleanupStatus) (e : ExecutionRow) :
    ExecutionRow :=
  { e with
    status := if timedOut e then .failed else .cancelled
    errorMessage := if timedOut e then some (cancellationReasonText e) else e.errorMessage
    finishedAt := some now
    updatedAt := now
    leaseOwner := none
    leaseExpiresAt := none
    heartbeatAt := none
    cancellationLeaseOwner := none
    cancellationLeaseExpiresAt := none
    operationWaitExpiresAt := none
    failureType := if timedOut e then some .executionTimeout else none
    retryStrategy := .notRetryable
    retryFromSequence := none
    retainedRuntimeSessionUntil := none
    runtimeSessionCleanupStatus := cleanup
    runtimeAbortStatus := resolvedAbort e.runtimeAbortStatus cleanup
    runtimeSessionId := if cleanup = .succeeded then none else e.runtimeSessionId
    version := e.version + 1 }

/-- How a cancellation ends an Attempt. -/
def cancelAttempt (now : Time) (cleanup : RuntimeSessionCleanupStatus) (e : ExecutionRow)
    (a : AttemptRow) : AttemptRow :=
  { a with
    status := if timedOut e then .failed else .cancelled
    failureType := if timedOut e then some .executionTimeout else none
    errorMessage := if timedOut e then some (cancellationReasonText e) else a.errorMessage
    retryStrategy := .notRetryable
    runtimeSessionCleanupStatus := cleanup
    leaseOwner := none
    leaseExpiresAt := none
    runtimeAbortStatus := if e.runtimeAbortStatus = .pending
      then resolvedAbort e.runtimeAbortStatus cleanup else a.runtimeAbortStatus
    finishedAt := some now }

/-- How a cancellation ends an Operation. -/
def cancelOperation (now : Time) (e : ExecutionRow) (o : OperationRow) : OperationRow :=
  { o with
    status := if timedOut e then .failed else .cancelled
    failureType := if timedOut e then some .executionTimeout else none
    errorMessage := if timedOut e then some (cancellationReasonText e) else o.errorMessage
    finishedAt := some now
    updatedAt := now }

/-- Every table a cancellation closes. -/
def cancelTables (now : Time) (cleanup : RuntimeSessionCleanupStatus) (t : Tables) : Tables :=
  let e := t.execution
  { t with
    execution := cancelExecution now cleanup e
    attempts := t.attempts.updateWhere (·.isLive) (cancelAttempt now cleanup e)
    steps := (t.steps.updateWhere (·.status == .running) fun s =>
        { s with status := endedStep e, finishedAt := some now, updatedAt := now }).updateWhere
      (·.status == .pending) fun s =>
        { s with status := .skipped, finishedAt := some now, updatedAt := now }
    operations := t.operations.updateWhere
      (fun o => o.status == .queued || o.status == .running) (cancelOperation now e)
    stepAttempts := t.stepAttempts.updateWhere (·.status == .running) fun h =>
      { h with status := endedStep e, finishedAt := some now } }

/-- `CancellationProcessor.finalize`. -/
def finalizeCancellation (clock : Clock) (lease : CancellationLease)
    (cleanup : RuntimeSessionCleanupStatus) (t : Tables) : Txn Change := do
  t.requireActiveCancellationLease clock.lease lease
  let e := t.execution
  requireExecutionTransition e.status (if timedOut e then .failed else .cancelled)
  let running := t.runningStepAttempts
  let t := t.cancelTables clock.now cleanup
  let stepEvents ← t.addStepHistoryCompletedEvents running (endedStep e)
    (cancellationReasonText e) false
  let operationEvents := match e.activeOperationId with
    | some operationId => t.addOperationCompletedEvent operationId
    | none => []
  return { tables := t
           events := stepEvents ++ operationEvents ++ t.addExecutionCompletedEvent }

/-! ### What the ends of a run can do -/

section
variable {clock : Clock} {lease : ExecutionLease} {t : Tables} {c : Change}

theorem recordRuntimeAbort_ok {abort : RuntimeAbortStatus}
    {cleanup : RuntimeSessionCleanupStatus} {failureType : FailureType}
    (h : t.recordRuntimeAbort clock lease abort cleanup failureType = .ok c) :
    (∃ a, t.requireActiveLease clock.lease lease = .ok a) ∧
      c = { tables := t.withAbort clock.now lease.attemptId abort cleanup failureType } := by
  simp only [recordRuntimeAbort, Txn.bind_ok, Txn.pure_ok] at h
  obtain ⟨a, ha, rfl⟩ := h
  exact ⟨⟨a, ha⟩, rfl⟩

theorem releaseForCancellation_ok (h : t.releaseForCancellation clock lease = .ok c) :
    (∃ a, t.requireActiveLease clock.lease lease [.cancelRequested] = .ok a) ∧
      c = { tables := t.released clock.now lease.attemptId } := by
  simp only [releaseForCancellation, Txn.bind_ok, Txn.pure_ok] at h
  obtain ⟨a, ha, rfl⟩ := h
  exact ⟨⟨a, ha⟩, rfl⟩

theorem releaseForHandover_ok (h : t.releaseForHandover clock lease = .ok c) :
    (∃ a, t.requireActiveLease clock.lease lease = .ok a) ∧
      (c = { tables := t } ∨ ∃ stepAttempt stepId, t.followableStep lease = some stepAttempt ∧
        t.handover = none ∧
        c.tables = t.handedOver clock.now clock.now .executorShutdown lease.attemptId ∧
        c.lease = none ∧
        c.events.map (·.subject) = [.stepHandoverStarted stepId lease.attemptId]) := by
  simp only [releaseForHandover, Txn.bind_ok] at h
  obtain ⟨a, ha, h⟩ := h
  refine ⟨⟨a, ha⟩, ?_⟩
  split at h
  · exact .inl (Txn.pure_ok.mp h).symm
  · rename_i stepAttempt hstep
    obtain ⟨hhandover, tables, hlease, stepId, events⟩ := beginHandover_ok h
    exact .inr ⟨stepAttempt, stepId, hstep, hhandover, tables, hlease, events⟩

/-- A run ends SUCCEEDED or FAILED, and its Attempt with it. -/
theorem finalize_ok {settings : Settings} {q : FinalizeRequest}
    (h : t.finalize settings clock lease q = .ok c) :
    (∃ a, t.requireActiveLease clock.lease lease = .ok a) ∧
      ∃ attemptStatus stepEvents,
        ((q.status = .succeeded ∧ attemptStatus = .succeeded ∧
            t.requireCompletedResults t.execution.activeOperationId
              t.execution.finalizationRequested true = .ok ()) ∨
          (q.status = .failed ∧ attemptStatus = .failed)) ∧
        (∀ e ∈ stepEvents, ∃ s a, EventPayload.subject e = .stepCompleted .failed s a) ∧
        c.lease = none ∧
        c.tables = (t.runClosed settings clock.now lease.attemptId attemptStatus
          q).finalizeSteps clock.now lease.attemptId q ∧
        c.events = stepEvents ++ closedOperationEvent t c.tables ++
          c.tables.addExecutionCompletedEvent := by
  simp only [finalize, Txn.bind_ok, Txn.pure_ok] at h
  obtain ⟨a, ha, _, hresults, attemptStatus, hattempt, _, htransition, stepEvents, hevents, rfl⟩ := h
  have hrunning := requireActiveLease_running ha
  rw [requireExecutionTransition_ok, hrunning] at htransition
  refine ⟨⟨a, ha⟩, attemptStatus, stepEvents, ?_, ?_, rfl, rfl, rfl⟩
  · -- RUNNING allows five statuses; only two of them are Attempt statuses.
    cases hq : q.status <;> simp [hq, executionTransitions, attemptStatusOf] at htransition hattempt
    · simp only [hq, if_true] at hresults
      exact .inl ⟨rfl, hattempt.symm, hresults⟩
    · exact .inr ⟨rfl, hattempt.symm⟩
  · unfold finalizeStepEvents at hevents
    split at hevents
    · exact addStepHistoryCompletedEvents_subject hevents
    · cases hevents
      simp

theorem finalizeCancellation_ok {lease : CancellationLease}
    {cleanup : RuntimeSessionCleanupStatus}
    (h : t.finalizeCancellation clock lease cleanup = .ok c) :
    t.requireActiveCancellationLease clock.lease lease = .ok () ∧
      ∃ stepEvents,
        (∀ e ∈ stepEvents, ∃ s a,
          EventPayload.subject e = .stepCompleted (endedStep t.execution) s a) ∧
        c.lease = none ∧ c.tables = t.cancelTables clock.now cleanup ∧
        c.events = stepEvents ++ (match t.execution.activeOperationId with
          | some operationId => c.tables.addOperationCompletedEvent operationId
          | none => []) ++ c.tables.addExecutionCompletedEvent := by
  simp only [finalizeCancellation, Txn.bind_ok, Txn.pure_ok] at h
  obtain ⟨_, hlease, _, _, stepEvents, hevents, rfl⟩ := h
  exact ⟨hlease, stepEvents, addStepHistoryCompletedEvents_subject hevents, rfl, rfl, rfl⟩

end

end Tables

end ExecutorService
