/-
Audits, retained sessions and retention.

The transactions no Worker lease guards: the deadlines of `multi_lifecycle.py`,
the retention window of `retained_session_cleanup.py`, the outcome of a session
cleanup (`session_recovery.py`), and on the event tables the publication of the
outbox and the two retention passes (`event_retention.py`).
-/
import ExecutorService.Finalizer

namespace ExecutorService

/-- `RuntimeObservation`: the columns a background pass captured. -/
structure RuntimeObservation where
  status : ExecutionStatus
  version : ℕ
  fencingToken : ℕ
  operationId : Option UUID
  targetId : Option UUID
  sessionId : Option SessionId
  deriving DecidableEq

/-- What an audit observes of the row. -/
def RuntimeObservation.capture (e : ExecutionRow) : RuntimeObservation :=
  ⟨e.status, e.version, e.fencingToken, e.activeOperationId, e.runtimeTargetId,
    e.runtimeSessionId⟩

/-- `current`: every captured column unchanged. -/
def RuntimeObservation.current (o : RuntimeObservation) (e : ExecutionRow) : Bool :=
  o == .capture e

namespace Tables

/-! ### Deadlines -/

/-- The row of an Execution no Worker claimed in time. -/
def queueTimedOutRow (now : Time) (message : String) (e : ExecutionRow) : ExecutionRow :=
  { e with
    status := .failed
    errorMessage := some message
    failureType := some .queueTimeout
    finishedAt := some now
    updatedAt := now
    retryStrategy := .notRetryable
    retryFromSequence := none
    version := e.version + 1 }

/-- The error of an Execution that no Target accepted in time. -/
def queueTimeoutMessage (settings : Settings) : String :=
  "No Runtime Target accepted the Execution within " ++
    toString settings.executionQueueTimeoutSeconds ++ " seconds."

/-- `_fail_queue_timeouts` for one Execution. -/
def failQueueTimeout (settings : Settings) (now : Time) (t : Tables) : Txn Change :=
  let e := t.execution
  if e.status = .queued ∧ e.executionExpiresAt = none ∧
      e.createdAt ≤ now - settings.executionQueueTimeoutSeconds then do
    let message := queueTimeoutMessage settings
    requireExecutionTransition e.status .failed
    return t.unclaimedEnd now (queueTimedOutRow now message e) message (some .queueTimeout)
  else .ok { tables := t }

/-- Past the maximum runtime, with a grace once the auditor finalized it. -/
def pastMaxRuntime (settings : Settings) (now : Time) (e : ExecutionRow) : Bool :=
  e.executionExpiresAt.any fun expiry =>
    if e.finalizedBy = some .maxRuntime then
      decide (expiry ≤ now - settings.executionQueueTimeoutSeconds)
    else decide (expiry ≤ now)

/-- The row the maximum-runtime audit leaves to the cancellation path. -/
def cancelledByAudit (now : Time) (e : ExecutionRow) : ExecutionRow :=
  { e with
    status := .cancelRequested
    finalizedBy := some .maxRuntime
    cancellationReason := some "Execution exceeded its maximum runtime."
    operationWaitExpiresAt := none
    updatedAt := now
    version := e.version + 1 }

/-- `_request_expired_execution_cancellations` for one Execution. -/
def requestExpiredCancellation (settings : Settings) (now : Time) (t : Tables) : Txn Change :=
  let e := t.execution
  if (e.status = .queued ∨ e.status = .running ∨ e.status = .finalizing) ∧
      pastMaxRuntime settings now e then do
    requireExecutionTransition e.status .cancelRequested
    return { tables := { t with execution := cancelledByAudit now e } }
  else .ok { tables := t }

/-- A session that a failed wait leaves to the cleanup passes. -/
def waitingCleanup (failureType : FailureType) (e : ExecutionRow) :
    RuntimeSessionCleanupStatus :=
  if failureType ≠ .runtimeSessionLost ∧ e.runtimeSessionId.isSome then .pending
  else .notRequired

/-- A waiting Execution and its WAITING Attempt fail. -/
def waitingFailed (now : Time) (failureType : FailureType) (errorMessage : String)
    (finalizedBy : Option FinalizedBy) (t : Tables) : Tables :=
  let e := t.execution
  { t with
    execution := { e with
      status := .failed
      errorMessage := some errorMessage
      failureType := some failureType
      finalizedBy := finalizedBy
      finishedAt := some now
      updatedAt := now
      leaseOwner := none
      leaseExpiresAt := none
      operationWaitExpiresAt := none
      retryStrategy := .notRetryable
      retryFromSequence := none
      retainedRuntimeSessionUntil := none
      runtimeSessionCleanupStatus := waitingCleanup failureType e
      recoveryCount := e.recoveryCount + 1
      version := e.version + 1
      runtimeSessionId := if failureType = .runtimeSessionLost then none else e.runtimeSessionId }
    attempts := match t.attempts.find? (·.status == .waiting) with
      | none => t.attempts
      | some attempt => t.attempts.updateWhere (·.id == attempt.id) fun a =>
        { a with
          status := .failed
          leaseOwner := none
          leaseExpiresAt := none
          errorMessage := some errorMessage
          failureType := some failureType
          retryStrategy := .notRetryable
          runtimeSessionCleanupStatus := waitingCleanup failureType e
          finishedAt := some now } }

/-- `_fail_locked_waiting_execution`. -/
def failLockedWaitingExecution (now : Time) (failureType : FailureType) (errorMessage : String)
    (finalizedBy : Option FinalizedBy) (t : Tables) : Txn Change := do
  requireExecutionTransition t.execution.status .failed
  let t := t.waitingFailed now failureType errorMessage finalizedBy
  return { tables := t, events := t.addExecutionCompletedEvent }

/-- Name of the deadline in the messages of `_end_waiting_execution`. -/
def deadlineText (finalizedBy : FinalizedBy) (other : String) : String :=
  if finalizedBy = .maxRuntime then "maximum runtime" else other

/-- Failure type and message of a waiting Execution that ends without a
successful last Operation. -/
def waitingEndFailure (finalizedBy : FinalizedBy) (operation : Option OperationRow) :
    FailureType × String :=
  match operation with
  | some o =>
    if o.status.isTerminal then
      (o.failureType.getD .toolError,
        truncateMessage ("No further Operation arrived before the " ++
          deadlineText finalizedBy "wait deadline" ++ "; the last Operation failed" ++
          (if textOr o.errorMessage "" = "" then "." else ": " ++ textOr o.errorMessage "")))
    else
      (if finalizedBy = .maxRuntime then .executionTimeout else .operationWaitTimeout,
        "The Execution ended at its " ++ deadlineText finalizedBy "Operation wait deadline" ++
          " without a completed Operation.")
  | none =>
    (if finalizedBy = .maxRuntime then .executionTimeout else .operationWaitTimeout,
      "The Execution ended at its " ++ deadlineText finalizedBy "Operation wait deadline" ++
        " without a completed Operation.")

/-- The row a deadline finalizes, as a finalize call does. -/
def finalizedByAudit (now : Time) (finalizedBy : FinalizedBy) (e : ExecutionRow) :
    ExecutionRow :=
  { e with
    status := .finalizing
    finalizationRequested := true
    finalizedBy := some finalizedBy
    operationWaitExpiresAt := none
    updatedAt := now
    version := e.version + 1 }

/-- `_end_waiting_execution`: from the Executor's view of the last Operation. -/
def endWaitingExecution (now : Time) (observation : RuntimeObservation)
    (finalizedBy : FinalizedBy) (t : Tables) : Txn Change :=
  let e := t.execution
  if ¬ observation.current e ∨ e.status ≠ .waitingForOperation then .ok { tables := t }
  else
    let operation := e.activeOperationId.bind t.operation?
    if operation.any (·.status == .succeeded) then do
      requireExecutionTransition e.status .finalizing
      return { tables := { t with execution := finalizedByAudit now finalizedBy e } }
    else
      let (failureType, message) := waitingEndFailure finalizedBy operation
      t.failLockedWaitingExecution now failureType message (some finalizedBy)

/-- `_fail_waiting_execution`. -/
def failWaitingExecution (now : Time) (observation : RuntimeObservation)
    (failureType : FailureType) (errorMessage : String) (t : Tables) : Txn Change :=
  if ¬ observation.current t.execution ∨ t.execution.status ≠ .waitingForOperation then
    .ok { tables := t }
  else t.failLockedWaitingExecution now failureType errorMessage none

/-! ### Retained sessions -/

/-- `_mark_attempt_pending`: the latest Attempt. -/
def markAttemptPending (t : Tables) : Tables :=
  match t.latestAttempt? with
  | none => t
  | some latest => { t with attempts := t.attempts.updateWhere (·.id == latest.id) fun a =>
      { a with runtimeSessionCleanupStatus := .pending } }

/-- A retained session past its window. -/
def retentionExpired (now : Time) (e : ExecutionRow) : Bool :=
  (e.status == .failed || e.status == .queued) && e.retryStrategy == .fromFailedStep &&
    e.retainedRuntimeSessionUntil.any (· ≤ now) && e.runtimeSessionId.isSome

/-- The columns that reserve a retained session for deletion. -/
def reservedRow (now : Time) (e : ExecutionRow) : ExecutionRow :=
  { e with
    retryStrategy := .notRetryable
    retryFromSequence := none
    retainedRuntimeSessionUntil := none
    runtimeSessionCleanupStatus := .pending
    updatedAt := now
    version := e.version + 1 }

/-- The error of a retry that came too late for its session. -/
def retryWindowMessage : String :=
  "The retained runtime session retry window expired before execution resumed."

/-- `cleanup_expired` for one Execution: a queued retry fails with it. -/
def cleanupExpired (now : Time) (t : Tables) : Txn Change :=
  let e := t.execution
  if ¬ retentionExpired now e then .ok { tables := t }
  else if e.status = .queued then do
    requireExecutionTransition e.status .failed
    let row := reservedRow now { e with
      status := .failed
      errorMessage := some retryWindowMessage
      finishedAt := some now }
    let (t, events) := t.failUnclaimed now row retryWindowMessage none
    let t := t.markAttemptPending
    return { tables := t, events := events ++ t.addExecutionCompletedEvent }
  else .ok { tables := { t with execution := reservedRow now e }.markAttemptPending }

/-- `retry_unresolved` for one Execution. -/
def retryUnresolved (settings : Settings) (now : Time) (t : Tables) : Tables :=
  let e := t.execution
  if (e.status = .failed ∨ e.status = .cancelled) ∧ e.runtimeSessionId.isSome ∧
      (e.runtimeSessionCleanupStatus = .pending ∨ e.runtimeSessionCleanupStatus = .failed) ∧
      e.updatedAt ≤ now - settings.runtimeCleanupRetryIntervalSeconds then
    { t with execution := { e with
      runtimeSessionCleanupStatus := .pending
      updatedAt := now
      version := e.version + 1 } }.markAttemptPending
  else t

/-- The outcome of a cleanup, on the row and on the latest Attempt. -/
def cleanedUp (now : Time) (cleanup : RuntimeSessionCleanupStatus) (t : Tables) : Tables :=
  let e := t.execution
  let abort := resolvedAbort e.runtimeAbortStatus cleanup
  { t with
    execution := { e with
      runtimeSessionId := if cleanup = .succeeded then none else e.runtimeSessionId
      runtimeSessionCleanupStatus := cleanup
      runtimeAbortStatus := abort
      updatedAt := now
      version := e.version + 1 }
    attempts := match t.latestAttempt? with
      | none => t.attempts
      | some latest => t.attempts.updateWhere (·.id == latest.id) fun a =>
        { a with
          runtimeSessionCleanupStatus := cleanup
          runtimeAbortStatus := if e.runtimeAbortStatus = .pending
            then abort else a.runtimeAbortStatus } }

/-- `record_result`: nothing is written if anything moved meanwhile. -/
def recordResult (now : Time) (observation : RuntimeObservation)
    (cleanup : RuntimeSessionCleanupStatus) (t : Tables) : Tables :=
  let e := t.execution
  if ¬ observation.current e ∨ ¬ (e.status = .failed ∨ e.status = .cancelled) then t
  else t.cleanedUp now cleanup

/-! ### What the audits can do -/

section
variable {settings : Settings} {now : Time} {t : Tables} {c : Change}

theorem failQueueTimeout_ok (h : t.failQueueTimeout settings now = .ok c) :
    c = { tables := t } ∨ (t.execution.status = .queued ∧ t.execution.executionExpiresAt = none ∧
      c = t.unclaimedEnd now (queueTimedOutRow now (queueTimeoutMessage settings) t.execution)
        (queueTimeoutMessage settings) (some .queueTimeout)) := by
  simp only [failQueueTimeout] at h
  split at h
  · rename_i hguard
    simp only [Txn.bind_ok, Txn.pure_ok] at h
    obtain ⟨_, _, rfl⟩ := h
    exact .inr ⟨hguard.1, hguard.2.1, rfl⟩
  · cases h
    exact .inl rfl

theorem requestExpiredCancellation_ok (h : t.requestExpiredCancellation settings now = .ok c) :
    c = { tables := t } ∨
      ((t.execution.status = .queued ∨ t.execution.status = .running ∨
          t.execution.status = .finalizing) ∧
        c = { tables := { t with execution := cancelledByAudit now t.execution } }) := by
  simp only [requestExpiredCancellation] at h
  split at h
  · rename_i hguard
    simp only [Txn.bind_ok, Txn.pure_ok] at h
    obtain ⟨_, _, rfl⟩ := h
    exact .inr ⟨hguard.1, rfl⟩
  · cases h
    exact .inl rfl

theorem failLockedWaitingExecution_ok {failureType : FailureType} {message : String}
    {finalizedBy : Option FinalizedBy}
    (h : t.failLockedWaitingExecution now failureType message finalizedBy = .ok c) :
    c = { tables := t.waitingFailed now failureType message finalizedBy
          events := (t.waitingFailed now failureType message
            finalizedBy).addExecutionCompletedEvent } := by
  simp only [failLockedWaitingExecution, Txn.bind_ok, Txn.pure_ok] at h
  obtain ⟨_, _, rfl⟩ := h
  rfl

/-- A waiting Execution that an audit ends is finalized or failed. -/
theorem endWaitingExecution_ok {observation : RuntimeObservation} {finalizedBy : FinalizedBy}
    (h : t.endWaitingExecution now observation finalizedBy = .ok c) :
    c = { tables := t } ∨ (t.execution.status = .waitingForOperation ∧
      (c = { tables := { t with execution := finalizedByAudit now finalizedBy t.execution } } ∨
        ∃ failureType message,
          c = { tables := t.waitingFailed now failureType message (some finalizedBy)
                events := (t.waitingFailed now failureType message
                  (some finalizedBy)).addExecutionCompletedEvent })) := by
  simp only [endWaitingExecution] at h
  split at h
  · cases h
    exact .inl rfl
  rename_i hguard
  simp only [not_or, not_not] at hguard
  refine .inr ⟨hguard.2, ?_⟩
  split at h
  · simp only [Txn.bind_ok, Txn.pure_ok] at h
    obtain ⟨_, _, rfl⟩ := h
    exact .inl rfl
  · exact .inr ⟨_, _, failLockedWaitingExecution_ok h⟩

theorem failWaitingExecution_ok {observation : RuntimeObservation} {failureType : FailureType}
    {message : String} (h : t.failWaitingExecution now observation failureType message = .ok c) :
    c = { tables := t } ∨ (t.execution.status = .waitingForOperation ∧
      c = { tables := t.waitingFailed now failureType message none
            events := (t.waitingFailed now failureType message
              none).addExecutionCompletedEvent }) := by
  simp only [failWaitingExecution] at h
  split at h
  · cases h
    exact .inl rfl
  rename_i hguard
  simp only [not_or, not_not] at hguard
  exact .inr ⟨hguard.2, failLockedWaitingExecution_ok h⟩

/-- An expired retention window reserves the session; a queued retry fails. -/
theorem cleanupExpired_ok (h : t.cleanupExpired now = .ok c) :
    c = { tables := t } ∨ (retentionExpired now t.execution = true ∧
      ((t.execution.status ≠ .queued ∧
          c = { tables := { t with
            execution := reservedRow now t.execution }.markAttemptPending }) ∨
        (t.execution.status = .queued ∧ ∃ row closed events,
          row = reservedRow now { t.execution with
            status := .failed
            errorMessage := some retryWindowMessage
            finishedAt := some now } ∧
          (closed, events) = t.failUnclaimed now row retryWindowMessage none ∧
          c = { tables := closed.markAttemptPending
                events := events ++ closed.markAttemptPending.addExecutionCompletedEvent }))) := by
  simp only [cleanupExpired] at h
  split at h
  · cases h
    exact .inl rfl
  rename_i hexpired
  refine .inr ⟨by simpa using hexpired, ?_⟩
  split at h
  · rename_i hqueued
    simp only [Txn.bind_ok, Txn.pure_ok] at h
    obtain ⟨_, _, rfl⟩ := h
    exact .inr ⟨hqueued, _, _, _, rfl, rfl, rfl⟩
  · rename_i hqueued
    cases h
    exact .inl ⟨hqueued, rfl⟩

theorem recordResult_cases (observation : RuntimeObservation)
    (cleanup : RuntimeSessionCleanupStatus) (now : Time) (t : Tables) :
    t.recordResult now observation cleanup = t ∨
      (observation.current t.execution = true ∧
        (t.execution.status = .failed ∨ t.execution.status = .cancelled) ∧
        t.recordResult now observation cleanup = t.cleanedUp now cleanup) := by
  simp only [recordResult]
  split
  · exact .inl rfl
  · rename_i hguard
    rw [not_or, not_not, not_not] at hguard
    exact .inr ⟨hguard.1, hguard.2, rfl⟩

end

end Tables

/-! ### Publication and retention -/

namespace EventLog

/-- A publisher sent the outbox rows with these sequence numbers. -/
def markPublished (now : Time) (sequences : List ℕ) (log : EventLog) : EventLog :=
  { log with
    outbox := log.outbox.updateWhere
      (fun o => sequences.contains o.eventSequence && o.status == .pending)
      fun o => { o with status := .published, publishedAt := some now } }

/-- A failed publication backs off. -/
def markUnpublished (availableAt : Time) (sequence : ℕ) (log : EventLog) : EventLog :=
  { log with
    outbox := log.outbox.updateWhere
      (fun o => o.eventSequence == sequence && o.status == .pending)
      fun o => { o with attemptCount := o.attemptCount + 1, availableAt := availableAt } }

/-- `_delete_published_outbox`: a batch of old published rows. -/
def deletePublishedOutbox (settings : Settings) (now : Time) (batch : List ℕ)
    (log : EventLog) : EventLog :=
  { log with outbox := log.outbox.filter fun o => !(batch.contains o.eventSequence &&
    o.status == .published &&
    o.publishedAt.any (· < now - settings.publishedOutboxRetentionSeconds)) }

/-- `_delete_execution_events`: a batch of events of an Execution that ended
long ago, without those an outbox row still needs. -/
def deleteExecutionEvents (settings : Settings) (now : Time) (batch : List ℕ)
    (e : ExecutionRow) (log : EventLog) : EventLog :=
  if e.status.isTerminal ∧
      e.finishedAt.any (· < now - settings.executionEventRetentionSeconds) then
    { log with events := log.events.filter fun v => !(batch.contains v.eventSequence &&
      !log.outbox.any (·.eventSequence == v.eventSequence)) }
  else log

end EventLog

end ExecutorService
