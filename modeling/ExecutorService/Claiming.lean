/-
Claims.

The transactions of `execution_worker/claiming.py`: each locks the Execution row
and either issues a lease, under a new fencing token, or leaves without one.  A
claim of a retained retry whose Target is gone fails the Execution instead.

What a claim reads outside the Execution's own rows is its `ClaimView`: whether
admission is active, the Target row it locks, and the Target the selector chose.
-/
import ExecutorService.Events
import ExecutorService.Leases
import Mathlib.Data.Rat.Defs

namespace ExecutorService

/-- A `runtime_targets` row. -/
structure RuntimeTarget where
  id : UUID
  name : String
  runtimeType : RuntimeType
  pool : RuntimePool
  enabled : Bool
  status : RuntimeTargetStatus
  supportedProfiles : List String
  maxConcurrentExecutions : ℕ
  activeSessionCount : Option ℕ := none
  sessionCountObservedAt : Option Time := none
  lastHealthCheckAt : Option Time := none
  lastHealthError : Option String := none
  cpuUtilization : Option ℚ := none
  memoryUtilization : Option ℚ := none
  resourceObservedAt : Option Time := none
  resourceLastError : Option String := none

/-- What a claim reads besides the Execution's rows. -/
structure ClaimView where
  admissionIsActive : Bool
  target : UUID → Option RuntimeTarget
  selected : Option RuntimeTarget

namespace RuntimeTarget

/-- The Target part of the checks that a MULTI claim and a resumed retry share. -/
def matchesExecution (target : RuntimeTarget) (e : ExecutionRow) : Bool :=
  target.enabled && target.runtimeType == e.runtimeType && target.pool == e.runtimePool &&
    target.supportedProfiles.contains e.runtimeProfile

end RuntimeTarget

namespace Tables

/-! ### Cancellation -/

/-- A cancellation claim that finds no live cancellation owner takes a new token,
and with it any Step released for handover. -/
def fenceForCancellation (t : Tables) : Tables :=
  { t with
    execution := { t.execution with
      fencingToken := t.execution.fencingToken + 1
      leaseOwner := none
      leaseExpiresAt := none
      heartbeatAt := none }
    handover := none }

/-- The cancellation owner columns. -/
def holdCancellation (settings : Settings) (now : Time) (worker : WorkerId) (t : Tables) :
    Change where
  tables := { t with execution := { t.execution with
    cancellationLeaseOwner := some worker
    cancellationLeaseExpiresAt := some (now + settings.executionLeaseSeconds)
    updatedAt := now } }
  lease := some (.cancellation ⟨t.execution.id, worker, t.execution.fencingToken⟩)

/-- `claim_cancellation`. -/
def claimCancellation (settings : Settings) (now : Time) (worker : WorkerId) (t : Tables) :
    Change :=
  let e := t.execution
  let active := e.cancellationLeaseOwner.isSome && e.cancellationLeaseExpiresAt.any (now < ·)
  if e.status ≠ .cancelRequested then { tables := t }
  else if e.leaseOwner.isSome ∧ e.leaseExpiresAt.any (now < ·) then { tables := t }
  else if active then
    if e.cancellationLeaseOwner ≠ some worker then { tables := t }
    else t.holdCancellation settings now worker
  else t.fenceForCancellation.holdCancellation settings now worker

/-! ### Operations of a claim -/

/-- The active Operation while it is QUEUED or RUNNING. -/
def isOpenActive (t : Tables) (o : OperationRow) : Bool :=
  some o.id == t.execution.activeOperationId && (o.status == .queued || o.status == .running)

/-- The active Operation, if it has not ended. -/
def openActiveOperation (t : Tables) : Option UUID :=
  (t.operations.find? t.isOpenActive).map (·.id)

/-- The ends of the open active Operation differ in the columns they assign. -/
def closeActiveOperation (assign : OperationRow → OperationRow) (t : Tables) : Tables :=
  { t with operations := t.operations.updateWhere t.isOpenActive assign }

/-- The event of an Operation that was open before the transaction. -/
def closedOperationEvent (before after : Tables) : List EventPayload :=
  match before.openActiveOperation with
  | some operationId => after.addOperationCompletedEvent operationId
  | none => []

/-- The Operation row of `fail_active_operation_without_attempt`. -/
def failUnattempted (now : Time) (errorMessage : String) (failureType : Option FailureType)
    (o : OperationRow) : OperationRow :=
  { o with
    status := .failed
    executionAttemptId := none
    errorMessage := some (truncateMessage errorMessage)
    failureType := failureType
    finishedAt := some now
    updatedAt := now }

/-- `fail_active_operation_without_attempt`: an open active Operation fails and
announces it. -/
def failActiveOperationWithoutAttempt (now : Time) (errorMessage : String)
    (failureType : Option FailureType) (t : Tables) : Tables × List EventPayload :=
  let closed := t.closeActiveOperation (failUnattempted now errorMessage failureType)
  (closed, closedOperationEvent t closed)

/-- Steps that never started. -/
def skipPendingSteps (now : Time) (t : Tables) : Tables :=
  { t with steps := t.steps.updateWhere (·.status == .pending) fun s =>
    { s with status := .skipped, finishedAt := some now, updatedAt := now } }

/-- The Operation a claim starts: absent when the Execution is finalizing. -/
def startOperation (now : Time) (operation : Option OperationRow) (attemptId : UUID)
    (t : Tables) : Tables :=
  { t with
    operations := t.operations.updateWhere (fun o => some o.id == operation.map (·.id)) fun o =>
      { o with
        status := .running
        executionAttemptId := some attemptId
        startedAt := some now
        updatedAt := now } }

/-! ### Claims of Execution work -/

/-- The QUEUED active Operation, `none` inside when finalizing; the outer `none`
is a claim that finds nothing to run. -/
def claimableOperation (t : Tables) : Option (Option OperationRow) :=
  match t.execution.finalizationRequested, t.execution.activeOperationId with
  | false, some operationId =>
    (t.operations.find? fun o => o.id == operationId && o.status == .queued).map some
  | false, none => if t.execution.retryCount = 0 then none else some none
  | true, _ => some none

/-- A waiting MULTI Attempt continues under a new token. -/
def resumeWaiting (settings : Settings) (now : Time) (worker : WorkerId) (attemptId : UUID)
    (t : Tables) : Tables :=
  let expires := now + settings.executionLeaseSeconds
  let token := t.execution.fencingToken + 1
  { t with
    attempts := t.attempts.updateWhere (·.id == attemptId) fun a =>
      { a with
        status := .running
        leaseOwner := some worker
        leaseExpiresAt := some expires
        heartbeatAt := now
        fencingToken := token
        errorMessage := none
        failureType := none
        retryStrategy := .notRetryable
        runtimeSessionCleanupStatus := .notRequired
        runtimeAbortStatus := .notRequired }
    execution := { t.execution with
      status := .running
      leaseOwner := some worker
      leaseExpiresAt := some expires
      heartbeatAt := some now
      fencingToken := token
      executionExpiresAt := t.execution.executionExpiresAt.or
        (some (t.execution.startedAt.getD now + settings.executionMaxRuntimeSeconds))
      errorMessage := none
      failureType := none
      runtimeSessionCleanupStatus := .notRequired
      runtimeAbortStatus := .notRequired
      updatedAt := now
      version := t.execution.version + 1 } }

/-- The claim of an Execution whose Attempt waits for it. -/
def claimWaiting (settings : Settings) (now : Time) (worker : WorkerId)
    (operation : Option OperationRow) (waiting : AttemptRow) (t : Tables) : Txn Change := do
  requireExecutionTransition t.execution.status .running
  return { tables := (t.resumeWaiting settings now worker waiting.id).startOperation now
             operation waiting.id
           lease := some (.execution
             ⟨t.execution.id, waiting.id, worker, t.execution.fencingToken + 1⟩) }

/-- A new Attempt on a Target: a fresh run, or a resumed retained retry. -/
def addAttempt (settings : Settings) (now : Time) (worker : WorkerId) (attemptId : UUID)
    (isResume : Bool) (target : RuntimeTarget) (t : Tables) : Tables :=
  let expires := now + settings.executionLeaseSeconds
  let token := t.execution.fencingToken + 1
  let startedAt := t.execution.startedAt.getD now
  { t with
    attempts := t.attempts ++ [{
      id := attemptId
      attemptNumber := t.attempts.length + 1
      runtimeType := t.execution.runtimeType
      runtimeProfile := t.execution.runtimeProfile
      runtimeTargetId := target.id
      status := .running
      leaseOwner := some worker
      leaseExpiresAt := some expires
      heartbeatAt := now
      fencingToken := token
      startedAt := now }]
    execution := { t.execution with
      status := .running
      runtimeTargetId := some target.id
      leaseOwner := some worker
      leaseExpiresAt := some expires
      heartbeatAt := some now
      fencingToken := token
      startedAt := some startedAt
      executionExpiresAt := t.execution.executionExpiresAt.or
        (some (startedAt + settings.executionMaxRuntimeSeconds))
      errorMessage := none
      failureType := none
      retainedRuntimeSessionUntil :=
        if isResume then t.execution.retainedRuntimeSessionUntil else none
      runtimeSessionCleanupStatus := .notRequired
      runtimeAbortStatus := .notRequired
      updatedAt := now
      version := t.execution.version + 1 } }

/-- The claim of an Execution with a new Attempt. -/
def claimNewAttempt (settings : Settings) (now : Time) (worker : WorkerId) (attemptId : UUID)
    (isResume : Bool) (operation : Option OperationRow) (target : RuntimeTarget)
    (t : Tables) : Txn Change := do
  if t.attempts.any (·.id == attemptId) then .error .persistenceConflict
  else
    requireExecutionTransition t.execution.status .running
    return { tables := (t.startOperation now operation attemptId).addAttempt settings now worker
               attemptId isResume target
             lease := some (.execution
               ⟨t.execution.id, attemptId, worker, t.execution.fencingToken + 1⟩) }

/-- The row of a retained retry whose Target is gone. -/
def unavailableRow (now : Time) (errorMessage : String) (e : ExecutionRow) : ExecutionRow :=
  { e with
    status := .failed
    errorMessage := some errorMessage
    failureType := some .runtimeUnavailable
    finishedAt := some now
    updatedAt := now
    leaseOwner := none
    leaseExpiresAt := none
    heartbeatAt := none
    retryStrategy := .fromStart
    retryFromSequence := some 0
    retainedRuntimeSessionUntil := none
    runtimeSessionCleanupStatus := .failed
    version := e.version + 1 }

/-- The ends that close an Execution no Attempt is running for: its row, its
PENDING Steps and its open Operation, with their events. -/
def failUnclaimed (now : Time) (row : ExecutionRow) (errorMessage : String)
    (failureType : Option FailureType) (t : Tables) : Tables × List EventPayload :=
  ({ t with execution := row }.skipPendingSteps now).failActiveOperationWithoutAttempt now
    errorMessage failureType

/-- Such an end, with the event that announces it. -/
def unclaimedEnd (now : Time) (row : ExecutionRow) (errorMessage : String)
    (failureType : Option FailureType) (t : Tables) : Change where
  tables := (t.failUnclaimed now row errorMessage failureType).1
  events := (t.failUnclaimed now row errorMessage failureType).2 ++
    (t.failUnclaimed now row errorMessage failureType).1.addExecutionCompletedEvent

/-- `_fail_unavailable_retained_retry`. -/
def failUnavailableRetainedRetry (now : Time) (errorMessage : String) (t : Tables) :
    Txn Change := do
  requireExecutionTransition t.execution.status .failed
  return t.unclaimedEnd now (unavailableRow now errorMessage t.execution) errorMessage none

/-- A retry that resumes its retained session on its own Target. -/
def isResume (e : ExecutionRow) : Bool :=
  decide (0 < e.retryCount) && e.retryStrategy == .fromFailedStep &&
    e.retryFromSequence.isSome && e.runtimeSessionId.isSome && e.runtimeTargetId.isSome

/-- The MULTI branch of `claim`: the session and its WAITING Attempt go on. -/
def claimMulti (settings : Settings) (now : Time) (worker : WorkerId) (view : ClaimView)
    (operation : Option OperationRow) (targetId : UUID) (t : Tables) : Txn Change :=
  match t.attempts.find? (·.status == .waiting), view.target targetId with
  | some waiting, some target =>
    if target.matchesExecution t.execution ∧ target.status ≠ .offline ∧
        waiting.runtimeType = t.execution.runtimeType ∧
        waiting.runtimeProfile = t.execution.runtimeProfile then
      t.claimWaiting settings now worker operation waiting
    else .ok { tables := t }
  | _, _ => .ok { tables := t }

/-- The resume branch of `claim`: the retention deadline is compared with the
time read when the claim started. -/
def claimResume (settings : Settings) (now : Time) (worker : WorkerId) (attemptId : UUID)
    (view : ClaimView) (operation : Option OperationRow) (targetId : UUID) (t : Tables) :
    Txn Change :=
  if ¬ t.execution.retainedRuntimeSessionUntil.any (now < ·) then .ok { tables := t }
  else match view.target targetId with
    | none => t.failUnavailableRetainedRetry now
        "The retained Runtime Target is missing or disabled before retry."
    | some target =>
      if ¬ target.matchesExecution t.execution then t.failUnavailableRetainedRetry now
        "The retained Runtime Target is missing or disabled before retry."
      else if target.status = .offline then .ok { tables := t }
      else t.claimNewAttempt settings now worker attemptId true operation target

/-- `claim`. -/
def claim (settings : Settings) (now : Time) (worker : WorkerId) (attemptId : UUID)
    (view : ClaimView) (t : Tables) : Txn Change :=
  let e := t.execution
  if ¬ (e.status = .queued ∨ e.status = .finalizing) then .ok { tables := t }
  else if e.runtimeSessionId = none ∧ ¬ view.admissionIsActive then .ok { tables := t }
  else match t.claimableOperation with
    | none => .ok { tables := t }
    | some operation =>
      match e.operationMode, e.runtimeSessionId, e.runtimeTargetId with
      | .multi, some _, some targetId =>
        t.claimMulti settings now worker view operation targetId
      | _, _, targetId =>
        match isResume e, targetId with
        | true, some targetId =>
          t.claimResume settings now worker attemptId view operation targetId
        | _, _ =>
          match view.selected with
          | none => .ok { tables := t }
          | some target =>
            t.claimNewAttempt settings now worker attemptId false operation target

/-! ### Handover and deferral -/

/-- The Attempt of a released Step continues under a new token. -/
def takeOver (settings : Settings) (now : Time) (worker : WorkerId) (attemptId : UUID)
    (t : Tables) : Tables :=
  let expires := now + settings.executionLeaseSeconds
  let token := t.execution.fencingToken + 1
  { t with
    handover := none
    attempts := t.attempts.updateWhere (·.id == attemptId) fun a =>
      { a with
        leaseOwner := some worker
        leaseExpiresAt := some expires
        heartbeatAt := now
        fencingToken := token }
    execution := { t.execution with
      leaseOwner := some worker
      leaseExpiresAt := some expires
      heartbeatAt := some now
      fencingToken := token
      updatedAt := now
      version := t.execution.version + 1 } }

/-- `claim_handover`: without an Attempt or a Target the released row is
dropped. -/
def claimHandover (settings : Settings) (now : Time) (worker : WorkerId) (view : ClaimView)
    (t : Tables) : Change :=
  let e := t.execution
  if e.status ≠ .running ∨ (e.leaseOwner.isSome ∧ e.leaseExpiresAt.any (now < ·)) then
    { tables := t }
  else if t.handover.isNone then { tables := t }
  else match t.attempts.find? (·.status == .running), e.runtimeTargetId.bind view.target with
    | some attempt, some _ =>
      { tables := t.takeOver settings now worker attempt.id
        lease := some (.execution ⟨e.id, attempt.id, worker, e.fencingToken + 1⟩) }
    | _, _ => { tables := { t with handover := none } }

/-- Back to QUEUED until the Target recovers. -/
def deferred (now : Time) (attemptId : UUID) (t : Tables) : Tables :=
  let message := "The retained Runtime Target is temporarily unavailable; waiting for recovery."
  { t with
    execution := { t.execution with
      status := .queued
      errorMessage := some message
      failureType := some .runtimeUnavailable
      leaseOwner := none
      leaseExpiresAt := none
      heartbeatAt := none
      updatedAt := now
      version := t.execution.version + 1 }
    attempts := t.attempts.updateWhere (·.id == attemptId) fun a =>
      { a with
        status := .failed
        leaseOwner := none
        leaseExpiresAt := none
        errorMessage := some message
        failureType := some .runtimeUnavailable
        retryStrategy := .fromFailedStep
        runtimeSessionCleanupStatus := .notRequired
        finishedAt := some now }
    operations := t.operations.updateWhere
      (fun o => some o.id == t.execution.activeOperationId && o.status == .running) fun o =>
      { o with
        status := .queued
        executionAttemptId := none
        errorMessage := none
        startedAt := none
        finishedAt := none
        updatedAt := now } }

/-- `defer_retained_retry`. -/
def deferRetainedRetry (clock : Clock) (lease : ExecutionLease) (t : Tables) : Txn Tables := do
  let _ ← t.requireActiveLease clock.lease lease
  if t.execution.retryStrategy ≠ .fromFailedStep then return t
  else
    requireExecutionTransition t.execution.status .queued
    return t.deferred clock.now lease.attemptId

/-! ### What a claim can do -/

theorem claimCancellation_cases (settings : Settings) (now : Time) (worker : WorkerId)
    (t : Tables) :
    t.claimCancellation settings now worker = { tables := t } ∨
      (t.execution.status = .cancelRequested ∧
        ((t.execution.cancellationLeaseOwner = some worker ∧
            t.claimCancellation settings now worker = t.holdCancellation settings now worker) ∨
          t.claimCancellation settings now worker =
            t.fenceForCancellation.holdCancellation settings now worker)) := by
  unfold claimCancellation
  by_cases hs : t.execution.status = .cancelRequested
  · by_cases hl : t.execution.leaseOwner.isSome = true ∧
        t.execution.leaseExpiresAt.any (now < ·) = true
    · exact .inl (by simp [hs, hl])
    · refine (Classical.em _).imp_right fun h => ⟨hs, ?_⟩
      by_cases ho : t.execution.cancellationLeaseOwner = some worker
      · simp only [hs, hl, ho, ne_eq, not_true_eq_false, if_false] at h ⊢
        split
        · exact .inl ⟨trivial, rfl⟩
        · exact .inr rfl
      · simp only [hs, hl, ho, ne_eq, not_true_eq_false, if_false] at h ⊢
        split at h
        · simp at h
        · rename_i hactive
          exact .inr (by simp [hactive])
  · exact .inl (by simp [hs])

/-- The Execution a claim may take, with the Operation it starts. -/
structure Claimable (view : ClaimView) (operation : Option OperationRow) (t : Tables) : Prop where
  status : t.execution.status = .queued ∨ t.execution.status = .finalizing
  admission : t.execution.runtimeSessionId = none → view.admissionIsActive = true
  operation : t.claimableOperation = some operation

/-- The five ends of `claim`. -/
inductive ClaimOutcome (settings : Settings) (now : Time) (worker : WorkerId) (attemptId : UUID)
    (view : ClaimView) (t : Tables) : Change → Prop
  | idle : ClaimOutcome settings now worker attemptId view t { tables := t }
  | waiting {operation : Option OperationRow} {targetId : UUID} {waiting : AttemptRow}
      (claimable : Claimable view operation t)
      (multi : t.execution.operationMode = .multi)
      (session : t.execution.runtimeSessionId.isSome = true)
      (target : t.execution.runtimeTargetId = some targetId)
      (attempt : t.attempts.find? (·.status == .waiting) = some waiting) :
      ClaimOutcome settings now worker attemptId view t
        { tables := (t.resumeWaiting settings now worker waiting.id).startOperation now
            operation waiting.id
          lease := some (.execution
            ⟨t.execution.id, waiting.id, worker, t.execution.fencingToken + 1⟩) }
  | resumed {operation : Option OperationRow} {target : RuntimeTarget}
      (claimable : Claimable view operation t)
      (fresh : t.attempts.any (·.id == attemptId) = false)
      (resume : isResume t.execution = true)
      (retained : t.execution.retainedRuntimeSessionUntil.any (now < ·) = true)
      (locked : t.execution.runtimeTargetId.bind view.target = some target) :
      ClaimOutcome settings now worker attemptId view t
        { tables := (t.startOperation now operation attemptId).addAttempt settings now worker
            attemptId true target
          lease := some (.execution
            ⟨t.execution.id, attemptId, worker, t.execution.fencingToken + 1⟩) }
  | started {operation : Option OperationRow} {target : RuntimeTarget}
      (claimable : Claimable view operation t)
      (fresh : t.attempts.any (·.id == attemptId) = false)
      (resume : isResume t.execution = false)
      (multi : ¬ (t.execution.operationMode = .multi ∧
        t.execution.runtimeSessionId.isSome = true ∧ t.execution.runtimeTargetId.isSome = true))
      (selected : view.selected = some target) :
      ClaimOutcome settings now worker attemptId view t
        { tables := (t.startOperation now operation attemptId).addAttempt settings now worker
            attemptId false target
          lease := some (.execution
            ⟨t.execution.id, attemptId, worker, t.execution.fencingToken + 1⟩) }
  | unavailable {message : String} {operation : Option OperationRow}
      (claimable : Claimable view operation t)
      (resume : isResume t.execution = true)
      (retained : t.execution.retainedRuntimeSessionUntil.any (now < ·) = true) :
      ClaimOutcome settings now worker attemptId view t
        (t.unclaimedEnd now (unavailableRow now message t.execution) message none)

theorem isResume_target {e : ExecutionRow} (h : isResume e = true) :
    e.runtimeTargetId.isSome = true := by
  simp only [isResume, Bool.and_eq_true] at h
  exact h.2

theorem failUnavailableRetainedRetry_ok {now : Time} {message : String} {t : Tables} {c : Change}
    (h : t.failUnavailableRetainedRetry now message = .ok c) :
    ExecutionStatus.failed ∈ executionTransitions t.execution.status ∧
      c = t.unclaimedEnd now (unavailableRow now message t.execution) message none := by
  simp only [failUnavailableRetainedRetry, Txn.bind_ok, Txn.pure_ok,
    requireExecutionTransition_ok] at h
  obtain ⟨_, hmem, rfl⟩ := h
  exact ⟨hmem, rfl⟩

theorem claimNewAttempt_ok {settings : Settings} {now : Time} {worker : WorkerId}
    {attemptId : UUID} {resume : Bool} {operation : Option OperationRow}
    {target : RuntimeTarget} {t : Tables} {c : Change}
    (h : t.claimNewAttempt settings now worker attemptId resume operation target = .ok c) :
    t.attempts.any (·.id == attemptId) = false ∧
      c = { tables := (t.startOperation now operation attemptId).addAttempt settings now worker
              attemptId resume target
            lease := some (.execution
              ⟨t.execution.id, attemptId, worker, t.execution.fencingToken + 1⟩) } := by
  unfold claimNewAttempt at h
  by_cases hid : t.attempts.any (·.id == attemptId) = true
  · rw [if_pos hid] at h
    cases h
  · rw [if_neg hid] at h
    simp only [Txn.bind_ok, Txn.pure_ok] at h
    obtain ⟨_, _, rfl⟩ := h
    exact ⟨by simpa using hid, rfl⟩

theorem claim_ok {settings : Settings} {now : Time} {worker : WorkerId} {attemptId : UUID}
    {view : ClaimView} {t : Tables} {c : Change}
    (h : t.claim settings now worker attemptId view = .ok c) :
    ClaimOutcome settings now worker attemptId view t c := by
  have idle : ∀ {c : Change}, (.ok { tables := t } : Txn Change) = .ok c →
      ClaimOutcome settings now worker attemptId view t c := by
    intro c h
    cases h
    exact .idle
  simp only [claim] at h
  -- Rows that wait for no Worker, that the admission check holds back or that have no Operation
  -- to claim are left as they are.
  split at h
  · exact idle h
  rename_i hstatus
  split at h
  · exact idle h
  rename_i hadmission
  split at h
  · exact idle h
  rename_i operation hoperation
  have claimable : Claimable view operation t := by
    refine ⟨not_not.mp hstatus, fun hnone => ?_, hoperation⟩
    simpa [hnone] using hadmission
  split at h
  · -- The MULTI branch.
    rename_i session targetId hmode hsession htarget
    unfold claimMulti at h
    split at h
    · rename_i waiting target hwaiting _
      split at h
      · simp only [claimWaiting, Txn.bind_ok, Txn.pure_ok] at h
        obtain ⟨_, _, rfl⟩ := h
        exact .waiting claimable hmode (by simp [hsession]) htarget hwaiting
      · exact idle h
    · exact idle h
  · rename_i hmulti
    split at h
    · -- The resume branch.
      rename_i targetId hresume htargetId
      unfold claimResume at h
      split at h
      · exact idle h
      rename_i hretained
      have retained : t.execution.retainedRuntimeSessionUntil.any (now < ·) = true := by
        simpa using hretained
      have unavailable : ∀ {message : String},
          t.failUnavailableRetainedRetry now message = .ok c →
          ClaimOutcome settings now worker attemptId view t c := by
        intro message h
        obtain ⟨_, rfl⟩ := failUnavailableRetainedRetry_ok h
        exact .unavailable claimable hresume retained
      -- The Target is read only while the Runtime session is still kept.
      split at h
      · exact unavailable h
      · rename_i target htarget
        split at h
        · exact unavailable h
        split at h
        · exact idle h
        obtain ⟨fresh, rfl⟩ := claimNewAttempt_ok h
        exact .resumed claimable fresh hresume retained (by simp [htargetId, htarget])
    · rename_i hresume
      split at h
      · exact idle h
      · rename_i target hselected
        obtain ⟨fresh, rfl⟩ := claimNewAttempt_ok h
        refine .started claimable fresh ?_ ?_ hselected
        · -- A retry that resumes has a Target, so the branch above took it.
          rw [Bool.eq_false_iff]
          intro hr
          obtain ⟨targetId, htarget⟩ := Option.isSome_iff_exists.mp (isResume_target hr)
          exact hresume targetId hr htarget
        · rintro ⟨hmode, hsession, htarget⟩
          obtain ⟨session, hsession⟩ := Option.isSome_iff_exists.mp hsession
          obtain ⟨targetId, htarget⟩ := Option.isSome_iff_exists.mp htarget
          exact hmulti session targetId hmode hsession htarget

theorem claimHandover_cases (settings : Settings) (now : Time) (worker : WorkerId)
    (view : ClaimView) (t : Tables) :
    t.claimHandover settings now worker view = { tables := t } ∨
      (t.execution.status = .running ∧ t.handover.isSome = true ∧
        (t.claimHandover settings now worker view = { tables := { t with handover := none } } ∨
          ∃ attempt, t.attempts.find? (·.status == .running) = some attempt ∧
            t.claimHandover settings now worker view =
              { tables := t.takeOver settings now worker attempt.id
                lease := some (.execution
                  ⟨t.execution.id, attempt.id, worker, t.execution.fencingToken + 1⟩) })) := by
  unfold claimHandover
  by_cases hs : t.execution.status ≠ .running ∨
      (t.execution.leaseOwner.isSome = true ∧ t.execution.leaseExpiresAt.any (now < ·) = true)
  · exact .inl (by simp [hs])
  cases hh : t.handover with
  | none => exact .inl (by simp)
  | some released =>
    have hrunning : t.execution.status = .running := not_not.mp fun h => hs (.inl h)
    refine .inr ⟨hrunning, rfl, ?_⟩
    simp only [if_neg hs, Option.isNone_some, Bool.false_eq_true, if_false]
    split
    · rename_i attempt target hattempt htarget
      exact .inr ⟨attempt, hattempt, rfl⟩
    · exact .inl rfl

theorem deferRetainedRetry_ok {clock : Clock} {lease : ExecutionLease} {t t' : Tables}
    (h : t.deferRetainedRetry clock lease = .ok t') :
    ∃ a, t.requireActiveLease clock.lease lease = .ok a ∧
      (t' = t ∨ (t.execution.retryStrategy = .fromFailedStep ∧
        t' = t.deferred clock.now lease.attemptId)) := by
  simp only [deferRetainedRetry, Txn.bind_ok] at h
  obtain ⟨a, ha, h⟩ := h
  refine ⟨a, ha, ?_⟩
  split at h
  · exact .inl (Txn.pure_ok.mp h).symm
  · rename_i hstrategy
    simp only [Txn.bind_ok, Txn.pure_ok] at h
    obtain ⟨_, _, rfl⟩ := h
    exact .inr ⟨not_not.mp hstrategy, rfl⟩

end Tables

end ExecutorService
