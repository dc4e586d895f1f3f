/-
Handover and recovery of running Steps.

`begin_handover` (`execution_worker/handover.py`) frees the lease of a RUNNING
Execution whose Step the kernel goes on executing; `fence_expired_leases`
(`lease_recovery.py`) does it for a Worker that stopped responding, and fails
the Executions that no other Worker can follow.  One pass of the source handles
every expired Execution in one transaction; here it is the part of one of them.
-/
import ExecutorService.Claiming

namespace ExecutorService

/-- `runtime_capabilities(…).execution_journal`. -/
def executionJournal : RuntimeType → Bool
  | .jupyter => true

namespace Tables

/-- The running Step attempt whose code went to a Jupyter journal. -/
def runningStepAttempt (t : Tables) : Option StepAttemptRow :=
  t.stepAttempts.find? fun h =>
    h.status == .running && t.stepRuns.any (·.executionStepAttemptId == h.id)

/-- The RUNNING Attempt, if any. -/
def runningAttempt? (t : Tables) : Option AttemptRow :=
  t.attempts.find? (·.status == .running)

/-- Step and Attempt of every RUNNING Step attempt. -/
def runningStepAttempts (t : Tables) : List (UUID × UUID) :=
  (t.stepAttempts.filter (·.status == .running)).map fun h =>
    (h.executionStepId, h.executionAttemptId)

/-- The lease is freed, the previous owner fenced out and the Step released. -/
def handedOver (now pausedSince : Time) (reason : HandoverReason) (attemptId : UUID)
    (t : Tables) : Tables :=
  { t with
    execution := { t.execution with
      leaseOwner := none
      leaseExpiresAt := none
      heartbeatAt := none
      fencingToken := t.execution.fencingToken + 1
      updatedAt := now
      version := t.execution.version + 1 }
    attempts := t.attempts.updateWhere (·.id == attemptId) fun a =>
      { a with leaseOwner := none, leaseExpiresAt := none }
    handover := some ⟨reason, pausedSince⟩ }

/-- `begin_handover`.  A second released row would break its primary key. -/
def beginHandover (now pausedSince : Time) (reason : HandoverReason) (attemptId : UUID)
    (stepAttempt : StepAttemptRow) (t : Tables) : Txn Change := do
  if t.handover.isSome then .error .persistenceConflict
  else
    let t := t.handedOver now pausedSince reason attemptId
    match t.step? stepAttempt.executionStepId with
    | none => .error (.value "Running Step was not found for handover.")
    | some step =>
      let operation ← t.operationPayload step.operationId
      let attempt ← t.attemptPayload attemptId
      return { tables := t
               events := [.stepHandoverStarted operation ⟨step.id, step.sequence⟩ attempt
                 reason now] }

/-- `NotebookProjectionInterruptedError`. -/
def projectionInterrupted (reason : String) : String :=
  "Notebook projection was not refreshed after " ++ reason ++
    ". The notebook may be stale; inspect the Step result reference " ++
    "for any preserved output."

/-- An earlier snapshot no longer covers the latest Step. -/
def invalidateNotebook (reason : String) (e : ExecutionRow) : ExecutionRow :=
  if e.notebookPath.isSome ∧ e.notebookProjectionStatus ≠ .failed then
    { e with
      notebookProjectionStatus := .failed
      notebookProjectionError := some (projectionInterrupted reason)
      notebookProjectedAt := none }
  else e

/-- The failure type of a lost lease: a pending timeout abort keeps its own. -/
def recoveryFailureType (e : ExecutionRow) : FailureType :=
  match e.runtimeAbortStatus, e.failureType with
  | .pending, some .stepTimeout => .stepTimeout
  | .pending, some .operationTimeout => .operationTimeout
  | _, _ => .leaseExpired

/-- The error of an Execution whose lease has expired. -/
def recoveryMessage (failureType : FailureType) : String :=
  if failureType = .stepTimeout ∨ failureType = .operationTimeout then
    "Worker lease expired while Runtime abort was pending; " ++
      "the abandoned session requires cleanup."
  else "Worker lease expired; execution requires retry."

/-- `_hand_over`: `none` leaves the Execution to the failure path. -/
def handOver (now : Time) (view : ClaimView) (t : Tables) : Option (Txn Change) :=
  let e := t.execution
  if executionJournal e.runtimeType && e.runtimeSessionId.isSome &&
      (e.runtimeTargetId.bind view.target).isSome && e.runtimeAbortStatus != .pending then
    match t.runningStepAttempt, t.runningAttempt? with
    | some stepAttempt, some attempt =>
      if stepAttempt.executionAttemptId = attempt.id then
        some (t.beginHandover now (e.heartbeatAt.getD now) .executorUnresponsive attempt.id
          stepAttempt)
      else none
    | _, _ => none
  else none

/-- RUNNING Steps and Step attempts of an abandoned run fail. -/
def failRunningSteps (now : Time) (message : Option String) (t : Tables) : Tables :=
  { t with steps := t.steps.updateWhere (·.status == .running) fun s =>
    { s with
      status := .failed
      errorMessage := message
      finishedAt := some now
      updatedAt := now } }

/-- Every running Step of an Attempt fails. -/
def failRunningStepAttempts (now : Time) (message : Option String) (t : Tables) : Tables :=
  { t with stepAttempts := t.stepAttempts.updateWhere (·.status == .running) fun h =>
    { h with status := .failed, errorMessage := message, finishedAt := some now } }

/-- The Execution row and its Attempts after an expired lease. -/
def failExpired (now : Time) (t : Tables) : Tables :=
  let e := t.execution
  let failureType := recoveryFailureType e
  let message := recoveryMessage failureType
  let strategy : RetryStrategy := if e.operationMode = .multi then .notRetryable else .fromStart
  let cleanup : RuntimeSessionCleanupStatus :=
    if e.runtimeSessionId.isSome then .pending else .notRequired
  { t with
    execution := invalidateNotebook "Worker lease expiry" { e with
      status := .failed
      errorMessage := some message
      failureType := some failureType
      finishedAt := some now
      updatedAt := now
      leaseOwner := none
      leaseExpiresAt := none
      heartbeatAt := none
      fencingToken := e.fencingToken + 1
      retryStrategy := strategy
      retryFromSequence := if strategy = .fromStart then some 0 else none
      retainedRuntimeSessionUntil := none
      recoveryCount := e.recoveryCount + 1
      runtimeSessionCleanupStatus := cleanup
      version := e.version + 1 }
    attempts := t.attempts.updateWhere (·.status == .running) fun a =>
      { a with
        status := .failed
        leaseOwner := none
        leaseExpiresAt := none
        errorMessage := some message
        failureType := some failureType
        retryStrategy := strategy
        runtimeSessionCleanupStatus := cleanup
        finishedAt := some now } }

/-- The active Operation of an expired run, if it is still open. -/
def failExpiredOperation (now : Time) (attempt : Option AttemptRow) (t : Tables) :
    Tables × List EventPayload :=
  let closed := t.closeActiveOperation fun o =>
    { o with
      status := .failed
      executionAttemptId := (attempt.map (·.id)).or o.executionAttemptId
      errorMessage := t.execution.errorMessage
      finishedAt := some now
      updatedAt := now }
  (closed, closedOperationEvent t closed)

/-- A RUNNING Execution whose lease is free, missing or past. -/
def leaseExpired (now : Time) (e : ExecutionRow) : Bool :=
  e.status == .running && (e.leaseOwner.isNone || !e.leaseExpiresAt.any (now ≤ ·))

/-- The rows of an abandoned run that no other Worker can follow, up to its
Operation. -/
def abandoned (now : Time) (t : Tables) : Tables :=
  let t := t.failExpired now
  ((t.failRunningSteps now t.execution.errorMessage).failRunningStepAttempts now
    t.execution.errorMessage)

/-- The part of `fence_expired_leases` for one Execution. -/
def fenceExpiredLease (now : Time) (view : ClaimView) (t : Tables) : Txn Change :=
  if ¬ leaseExpired now t.execution then .ok { tables := t }
  else if t.handover.isSome then .ok { tables := t }
  else match t.handOver now view with
    | some change => change
    | none => do
      requireExecutionTransition t.execution.status .failed
      let failed := t.abandoned now
      let stepEvents ← failed.addStepHistoryCompletedEvents t.runningStepAttempts .failed
        (textOr failed.execution.errorMessage "Worker lease expired during Step execution.")
        (failed.execution.retryStrategy != .notRetryable)
      let (closed, operationEvents) := (failed.skipPendingSteps now).failExpiredOperation now
        t.runningAttempt?
      return { tables := closed
               events := stepEvents ++ operationEvents ++ closed.addExecutionCompletedEvent }

/-! ### What recovery can do -/

theorem beginHandover_ok {now pausedSince : Time} {reason : HandoverReason} {attemptId : UUID}
    {stepAttempt : StepAttemptRow} {t : Tables} {c : Change}
    (h : t.beginHandover now pausedSince reason attemptId stepAttempt = .ok c) :
    t.handover = none ∧ c.tables = t.handedOver now pausedSince reason attemptId ∧
      c.lease = none ∧ ∃ stepId, c.events.map (·.subject) =
        [.stepHandoverStarted stepId attemptId] := by
  unfold beginHandover at h
  cases hh : t.handover with
  | some released => simp [hh] at h
  | none =>
    simp only [hh, Option.isSome_none, Bool.false_eq_true, if_false] at h
    split at h
    · cases h
    rename_i step hstep
    simp only [Txn.bind_ok, Txn.pure_ok] at h
    obtain ⟨operation, _, attempt, hattempt, rfl⟩ := h
    have hid : attempt.id = attemptId := by
      simp only [attemptPayload] at hattempt
      split at hattempt
      · rename_i row hrow
        cases hattempt
        simpa [attemptRef] using List.find?_some hrow
      · cases hattempt
    exact ⟨rfl, rfl, rfl, step.id, by simp [EventPayload.subject, hid]⟩

/-- A run another Worker can follow, when its lease is gone. -/
structure Followable (attempt : AttemptRow) (stepAttempt : StepAttemptRow) (t : Tables) : Prop where
  running : t.runningAttempt? = some attempt
  step : t.runningStepAttempt = some stepAttempt
  owned : stepAttempt.executionAttemptId = attempt.id
  session : t.execution.runtimeSessionId.isSome = true

/-- The three ends of `fence_expired_leases` for one Execution. -/
inductive FenceOutcome (now : Time) (t : Tables) : Change → Prop
  | idle : FenceOutcome now t { tables := t }
  | handedOver {c : Change} {attempt : AttemptRow} {stepAttempt : StepAttemptRow}
      {pausedSince : Time} {stepId : UUID}
      (expired : leaseExpired now t.execution = true)
      (handover : t.handover = none)
      (followable : Followable attempt stepAttempt t)
      (tables : c.tables = t.handedOver now pausedSince .executorUnresponsive attempt.id)
      (lease : c.lease = none)
      (events : c.events.map (·.subject) = [.stepHandoverStarted stepId attempt.id]) :
      FenceOutcome now t c
  | failed {stepEvents : List EventPayload}
      (expired : leaseExpired now t.execution = true)
      (handover : t.handover = none)
      (steps : ∀ e ∈ stepEvents, ∃ s a, e.subject = .stepCompleted .failed s a) :
      FenceOutcome now t
        { tables := (((t.abandoned now).skipPendingSteps now).failExpiredOperation now
            t.runningAttempt?).1
          events := stepEvents ++ (((t.abandoned now).skipPendingSteps now).failExpiredOperation
            now t.runningAttempt?).2 ++ (((t.abandoned now).skipPendingSteps
            now).failExpiredOperation now t.runningAttempt?).1.addExecutionCompletedEvent }

theorem handOver_some {now : Time} {view : ClaimView} {t : Tables} {change : Txn Change}
    (h : t.handOver now view = some change) :
    ∃ attempt stepAttempt, Followable attempt stepAttempt t ∧
      change = t.beginHandover now (t.execution.heartbeatAt.getD now) .executorUnresponsive
        attempt.id stepAttempt := by
  simp only [handOver] at h
  split at h
  · rename_i hguard
    simp only [Bool.and_eq_true] at hguard
    split at h
    · rename_i stepAttempt attempt hstep hattempt
      split at h
      · rename_i howned
        cases h
        exact ⟨attempt, stepAttempt, ⟨hattempt, hstep, howned, hguard.1.1.2⟩, rfl⟩
      · cases h
    · cases h
  · cases h

theorem fenceExpiredLease_ok {now : Time} {view : ClaimView} {t : Tables} {c : Change}
    (h : t.fenceExpiredLease now view = .ok c) : FenceOutcome now t c := by
  simp only [fenceExpiredLease] at h
  split at h
  · cases h
    exact .idle
  rename_i hexpired
  split at h
  · cases h
    exact .idle
  rename_i hhandover
  have expired : leaseExpired now t.execution = true := by simpa using hexpired
  have handover : t.handover = none := by simpa using hhandover
  split at h
  · rename_i change hchange
    obtain ⟨attempt, stepAttempt, followable, rfl⟩ := handOver_some hchange
    obtain ⟨_, tables, lease, stepId, events⟩ := beginHandover_ok h
    exact .handedOver expired handover followable tables lease events
  · simp only [Txn.bind_ok, Txn.pure_ok] at h
    obtain ⟨_, _, stepEvents, hevents, rfl⟩ := h
    exact .failed expired handover (addStepHistoryCompletedEvents_subject hevents)

end Tables

end ExecutorService
