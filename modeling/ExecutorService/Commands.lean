/-
API commands on an Execution.

The domain methods `request_cancel`, `request_retry`, `request_operation` and
`request_finalization` (`domain/models.py`) change the domain object; the
repository's `save` copies the columns it lists back to the row.  The command
handlers (`application/services/`) wrap them in one transaction each, after the
lookup of an earlier receipt with the same idempotency key.

`save` does not list `runtime_session_id` and `runtime_target_id` among its
columns, so what `request_retry` assigns to them stays in the domain object.
-/
import ExecutorService.Codec
import ExecutorService.Rows

namespace ExecutorService

namespace Execution

/-- `request_cancel`. -/
def requestCancel (now : Time) (key : Key) (reason : Option String) (e : Execution) :
    Txn Execution := do
  if e.status.isTerminal then .error .invalidStateTransition
  else if e.status = .cancelRequested then return e
  else
    requireExecutionTransition e.status .cancelRequested
    return { e with
      status := .cancelRequested
      cancelIdempotencyKey := some key
      cancellationReason := reason
      operationWaitExpiresAt := none
      version := e.version + 1
      updatedAt := now }

/-- A retained session that a retry may still resume. -/
def hasResumableSession (now : Time) (e : Execution) : Bool :=
  e.retryFromSequence.isSome && e.runtimeSessionId.isSome && e.runtimeTargetId.isSome &&
    e.retainedRuntimeSessionUntil.any (now < ·)

/-- What FROM_START forgets before it requeues. -/
def forgetSession (e : Execution) : Execution :=
  { e with
    retryFromSequence := some 0
    runtimeSessionId := none
    runtimeTargetId := none
    retainedRuntimeSessionUntil := none
    runtimeSessionCleanupStatus := .notRequired }

/-- The columns a retry resets, with the sequence it starts from. -/
def requeued (now : Time) (e : Execution) : Execution :=
  { e with
    status := .queued
    errorMessage := none
    finishedAt := none
    leaseOwner := none
    leaseExpiresAt := none
    heartbeatAt := none
    retryCount := e.retryCount + 1
    version := e.version + 1
    updatedAt := now }

/-- The strategy part of `request_retry`. -/
def retryBase (now : Time) (e : Execution) : Txn Execution :=
  match e.retryStrategy with
  | .notRetryable => .error .invalidStateTransition
  | .fromFailedStep =>
    if e.hasResumableSession now then .ok e else .error .invalidStateTransition
  | .fromStart =>
    if (e.runtimeSessionCleanupStatus = .pending ∨ e.runtimeSessionCleanupStatus = .failed) ∧
        e.runtimeSessionId ≠ none then .error .invalidStateTransition
    else .ok e.forgetSession

/-- `request_retry`. -/
def requestRetry (now : Time) (e : Execution) : Txn Execution := do
  if e.status ≠ .failed then .error .invalidStateTransition
  else if e.operationMode ≠ .single then .error .invalidStateTransition
  else if e.activeOperationId = none then .error .invalidStateTransition
  else
    let e ← e.retryBase now
    if e.retryFromSequence = none then .error .invalidStateTransition
    else
      requireExecutionTransition e.status .queued
      return e.requeued now

/-- What `request_retry` does to the Steps from the retry sequence on. -/
def resetStep (now : Time) (retryFromSequence : ℕ) (step : ExecutionStep) : ExecutionStep :=
  if step.sequence < retryFromSequence then step
  else { step with
    status := .pending
    result := { step.result with outputSummary := {} }
    resultExecutionAttemptId := none
    errorMessage := none
    startedAt := none
    finishedAt := none
    updatedAt := now }

/-- `request_operation`. -/
def requestOperation (now : Time) (expectedVersion : ℕ) (e : Execution) : Txn Execution := do
  if e.operationMode ≠ .multi then .error .invalidStateTransition
  else if e.status ≠ .waitingForOperation then .error .invalidStateTransition
  else if e.version ≠ expectedVersion then .error .versionConflict
  else
    requireExecutionTransition e.status .queued
    return { e with
      status := .queued
      finalizationRequested := false
      operationWaitExpiresAt := none
      updatedAt := now
      version := e.version + 1 }

/-- The Steps of the active Operation. -/
def activeSteps (steps : List ExecutionStep) (e : Execution) : List ExecutionStep :=
  steps.filter fun s => some s.operationId == e.activeOperationId

/-- `request_finalization`. -/
def requestFinalization (now : Time) (expectedVersion : ℕ) (steps : List ExecutionStep)
    (e : Execution) : Txn Execution := do
  if e.operationMode ≠ .multi then .error .invalidStateTransition
  else if e.status ≠ .waitingForOperation then .error .invalidStateTransition
  else if e.version ≠ expectedVersion then .error .versionConflict
  else if e.activeSteps steps = [] ∨ (e.activeSteps steps).any (·.status != .succeeded) then
    .error .invalidStateTransition
  else
    requireExecutionTransition e.status .finalizing
    return { e with
      status := .finalizing
      finalizationRequested := true
      finalizedBy := some .agent
      operationWaitExpiresAt := none
      updatedAt := now
      version := e.version + 1 }

end Execution

/-! ### The repository -/

namespace Tables

/-- The columns of `executions` that `save` assigns. -/
def saveExecution (e : Execution) (row : ExecutionRow) : ExecutionRow :=
  { row with
    status := e.status
    cancelIdempotencyKey := e.cancelIdempotencyKey
    cancellationReason := e.cancellationReason
    version := e.version
    updatedAt := e.updatedAt
    startedAt := e.startedAt
    finishedAt := e.finishedAt
    errorMessage := e.errorMessage
    failureType := e.failureType
    leaseOwner := e.leaseOwner
    leaseExpiresAt := e.leaseExpiresAt
    heartbeatAt := e.heartbeatAt
    retryStrategy := e.retryStrategy
    retryFromSequence := e.retryFromSequence
    retainedRuntimeSessionUntil := e.retainedRuntimeSessionUntil
    retryCount := e.retryCount
    recoveryCount := e.recoveryCount
    runtimeSessionCleanupStatus := e.runtimeSessionCleanupStatus
    finalizationRequested := e.finalizationRequested
    finalizedBy := e.finalizedBy
    activeOperationId := e.activeOperationId
    operationWaitExpiresAt := e.operationWaitExpiresAt
    executionExpiresAt := e.executionExpiresAt }

/-- The columns of `execution_steps` that `save` assigns. -/
def saveStep (step row : ExecutionStep) : ExecutionStep :=
  { row with
    status := step.status
    sourceSha256 := step.sourceSha256
    sourceSnapshotPath := step.sourceSnapshotPath
    sourceSizeBytes := step.sourceSizeBytes
    stepTimeoutSeconds := step.stepTimeoutSeconds
    resultExecutionAttemptId := step.resultExecutionAttemptId
    result := { step.result with manifestSizeBytes := row.result.manifestSizeBytes }
    errorMessage := step.errorMessage
    updatedAt := step.updatedAt
    startedAt := step.startedAt
    finishedAt := step.finishedAt }

/-- One update per Step of the domain object. -/
def saveSteps (steps rows : List ExecutionStep) : List ExecutionStep :=
  steps.foldl (fun rows step => rows.updateWhere (·.id == step.id) (saveStep step)) rows

/-- `save`: an optimistic update of the row, then of its Steps. -/
def save (e : Execution) (steps : List ExecutionStep) (t : Tables) : Txn Tables :=
  if t.execution.version + 1 ≠ e.version then .error .persistenceConflict
  else .ok { t with
    execution := saveExecution e t.execution
    steps := saveSteps steps t.steps }

theorem save_ok {e : Execution} {steps : List ExecutionStep} {t t' : Tables}
    (h : t.save e steps = .ok t') :
    t' = { t with execution := saveExecution e t.execution, steps := saveSteps steps t.steps } := by
  unfold save at h
  split at h
  · cases h
  · cases h
    rfl

theorem saveSteps_cons (step : ExecutionStep) (steps rows : List ExecutionStep) :
    saveSteps (step :: steps) rows =
      saveSteps steps (rows.updateWhere (·.id == step.id) (saveStep step)) := rfl

/-- A Step without a row is not saved. -/
theorem saveSteps_of_fresh {steps rows : List ExecutionStep}
    (h : ∀ s ∈ steps, ∀ r ∈ rows, r.id ≠ s.id) : saveSteps steps rows = rows := by
  induction steps with
  | nil => rfl
  | cons step steps ih =>
    have hself : rows.updateWhere (·.id == step.id) (saveStep step) = rows :=
      List.updateWhere_eq_self fun r hr => by simpa using h step List.mem_cons_self r hr
    rw [saveSteps_cons, hself]
    exact ih fun s hs => h s (List.mem_cons_of_mem _ hs)

/-- Each Step of the domain object is saved to its own row. -/
theorem saveSteps_append {f : ExecutionStep → ExecutionStep} (hf : ∀ s, (f s).id = s.id)
    (added saved : List ExecutionStep) {rows : List ExecutionStep}
    (hnodup : (rows.map (·.id)).Nodup)
    (hsaved : ∀ s ∈ saved, ∀ r ∈ rows, s.id ≠ r.id)
    (hadded : ∀ s ∈ added, (∀ r ∈ rows, r.id ≠ s.id) ∧ ∀ r ∈ saved, r.id ≠ s.id) :
    saveSteps (rows.map f ++ added) (saved ++ rows) =
      saved ++ rows.map fun r => saveStep (f r) r := by
  induction rows generalizing saved with
  | nil =>
    rw [List.append_nil, List.map_nil, List.map_nil, List.nil_append, List.append_nil]
    exact saveSteps_of_fresh fun s hs => (hadded s hs).2
  | cons row rows ih =>
    rw [List.map_cons, List.nodup_cons] at hnodup
    have hhead : ∀ r ∈ rows, r.id ≠ row.id :=
      fun r hr hid => hnodup.1 (hid ▸ List.mem_map_of_mem hr)
    -- Only the row itself has the id of its Step.
    have hupdate : (saved ++ row :: rows).updateWhere (·.id == (f row).id) (saveStep (f row)) =
        (saved ++ [saveStep (f row) row]) ++ rows := by
      rw [List.updateWhere, List.map_append, List.map_cons, List.append_assoc, List.singleton_append]
      congr 1
      · exact List.updateWhere_eq_self fun s hs => by
          simpa [hf] using hsaved s hs row List.mem_cons_self
      · congr 1
        · simp [hf]
        · exact List.updateWhere_eq_self fun r hr => by simpa [hf] using hhead r hr
    rw [List.map_cons, List.cons_append, saveSteps_cons, hupdate, ih _ hnodup.2, List.map_cons,
      List.append_assoc, List.singleton_append]
    · intro s hs r hr
      rcases List.mem_append.mp hs with hs | hs
      · exact hsaved s hs r (List.mem_cons_of_mem _ hr)
      · rw [List.mem_singleton.mp hs]
        exact (hhead r hr).symm
    · intro s hs
      refine ⟨fun r hr => (hadded s hs).1 r (List.mem_cons_of_mem _ hr), fun r hr => ?_⟩
      rcases List.mem_append.mp hr with hr | hr
      · exact (hadded s hs).2 r hr
      · rw [List.mem_singleton.mp hr]
        exact (hadded s hs).1 row List.mem_cons_self

theorem saveSteps_map {f : ExecutionStep → ExecutionStep} (hf : ∀ s, (f s).id = s.id)
    {rows : List ExecutionStep} (hnodup : (rows.map (·.id)).Nodup) :
    saveSteps (rows.map f) rows = rows.map fun r => saveStep (f r) r := by
  have h := saveSteps_append hf [] [] hnodup (fun s hs => nomatch hs)
    fun s hs => nomatch hs
  rwa [List.append_nil] at h

@[simp] theorem saveStep_self (s : ExecutionStep) : saveStep s s = s := rfl

/-- Saving Steps that did not change, and Steps without a row, changes no row. -/
theorem saveSteps_self {rows added : List ExecutionStep} (hnodup : (rows.map (·.id)).Nodup)
    (hadded : ∀ s ∈ added, ∀ r ∈ rows, r.id ≠ s.id) :
    saveSteps (rows ++ added) rows = rows := by
  have h := saveSteps_append (f := id) (fun s => rfl) added [] hnodup
    (fun s hs => nomatch hs) fun s hs => ⟨hadded s hs, fun r hr => nomatch hr⟩
  rw [List.map_id] at h
  rw [List.nil_append] at h
  rw [h]
  exact List.map_id _

/-- The active Operation back to QUEUED. -/
def requeueOperation (now : Time) (operationId : UUID) (t : Tables) : Tables :=
  { t with
    operations := t.operations.updateWhere
      (fun o => o.id == operationId && o.status == .failed) fun o =>
      { o with
        status := .queued
        executionAttemptId := none
        errorMessage := none
        updatedAt := now
        startedAt := none
        finishedAt := none } }

/-- `requeue_operation_for_retry`: the Operation must be FAILED. -/
def requeueOperationForRetry (now : Time) (operationId : UUID) (t : Tables) : Txn Tables :=
  if t.operations.countP (fun o => o.id == operationId && o.status == .failed) ≠ 1 then
    .error .persistenceConflict
  else .ok (t.requeueOperation now operationId)

/-- `ensure_same_receipt`. -/
def ensureSameReceipt (receipt : CommandReceipt) (commandType : String) (fingerprint : Key) :
    Txn Unit :=
  if receipt.commandType ≠ commandType ∨ receipt.requestFingerprint ≠ fingerprint then
    .error .idempotencyConflict
  else .ok ()

/-- The receipt of a key. -/
def commandReceipt? (t : Tables) (key : Key) : Option CommandReceipt :=
  t.receipts.find? (·.idempotencyKey == key)

/-! ### Command handlers -/

/-- `cancel`: an earlier key owner or a pending cancellation leaves the rows. -/
def cancel (now : Time) (key : Key) (reason : Option String) (t : Tables) : Txn Tables := do
  if t.execution.cancelIdempotencyKey = some key then return t
  else if t.execution.status = .cancelRequested then return t
  else
    let e ← t.execution.toExecution.requestCancel now key reason
    t.save e t.steps

/-- The command `retry`, with its record. -/
def retry (now : Time) (key : Key) (t : Tables) : Txn Tables := do
  if key ∈ t.retries then return t
  else
    let e ← t.execution.toExecution.requestRetry now
    match e.activeOperationId, e.retryFromSequence with
    | some operationId, some fromSequence =>
      let t ← t.save e (t.steps.map (Execution.resetStep now fromSequence))
      let t ← t.requeueOperationForRetry now operationId
      return { t with retries := t.retries ++ [key] }
    | _, _ => .error .persistenceConflict

/-- The command `finalize`, with its receipt. -/
def finalizeCommand (now : Time) (key fingerprint : Key) (expectedVersion : ℕ) (t : Tables) :
    Txn Tables := do
  match t.commandReceipt? key with
  | some receipt =>
    ensureSameReceipt receipt "execution_finalize" fingerprint
    return t
  | none =>
    let e ← t.execution.toExecution.requestFinalization now expectedVersion t.steps
    let t ← t.save e t.steps
    return { t with receipts := t.receipts ++ [⟨key, "execution_finalize", fingerprint, none⟩] }

end Tables

/-- A Step of a request, with the identifier and the immutable source snapshot
it gets before the transaction commits. -/
structure StepSpec where
  id : UUID
  sequence : ℕ
  code : String
  sourceSha256 : String
  stepTimeoutSeconds : Option Time
  snapshotPath : String
  snapshotChecksum : String
  snapshotSizeBytes : ℕ

/-- `validate_step_limits`. -/
def validateStepLimits (settings : Settings) (current new : ℕ) : Txn Unit :=
  if new > settings.maxStepsPerOperation then .error (.invalidSpec "too_many_steps")
  else if current + new > settings.maxStepsPerExecution then
    .error (.invalidSpec "execution_step_limit_exceeded")
  else .ok ()

/-- `validate_timeouts`. -/
def validateTimeouts (settings : Settings) (operationTimeoutSeconds : Option Time)
    (steps : List StepSpec) : Txn Unit :=
  let limit := settings.executionMaxRuntimeSeconds
  if operationTimeoutSeconds.any (limit < ·) then .error (.invalidSpec "exceeds_max_runtime")
  else if steps.any fun s => s.stepTimeoutSeconds.any (limit < ·) then
    .error (.invalidSpec "exceeds_max_runtime")
  else .ok ()

/-- `validate_operation_steps` after the emptiness check. -/
def validateStepSequence (expected : ℕ) : List StepSpec → Txn Unit
  | [] => .ok ()
  | step :: rest =>
    if step.sequence ≠ expected then .error (.invalidSpec "sequence_not_contiguous")
    else if Codec.strip step.code.toList = [] then .error (.invalidSpec "source_blank")
    else validateStepSequence (expected + 1) rest

/-- `validate_operation_steps`. -/
def validateOperationSteps (expectedStart : ℕ) (steps : List StepSpec) : Txn Unit :=
  if steps = [] then .error (.invalidSpec "steps_empty")
  else validateStepSequence expectedStart steps

/-- `snapshot_sources`: a supplied checksum must be the snapshot's. -/
def snapshotSources (now : Time) (operationId : UUID) (steps : List StepSpec) :
    Txn (List ExecutionStep) :=
  steps.mapM fun s =>
    if s.sourceSha256 ≠ "" ∧ s.snapshotChecksum ≠ s.sourceSha256 then
      .error .invalidStateTransition
    else .ok {
      id := s.id
      operationId := operationId
      sequence := s.sequence
      sourceSha256 := s.snapshotChecksum
      sourceSnapshotPath := s.snapshotPath
      sourceSizeBytes := s.snapshotSizeBytes
      stepTimeoutSeconds := s.stepTimeoutSeconds
      createdAt := now
      updatedAt := now }

/-- A create-operation request with the identifiers it draws. -/
structure CreateOperationCommand where
  operationId : UUID
  idempotencyKey : Key
  requestFingerprint : Key
  expectedVersion : ℕ
  steps : List StepSpec
  operationTimeoutSeconds : Option Time

/-- The QUEUED Operation row of a request. -/
def newOperation (now : Time) (operationId key fingerprint : Key) (number : ℕ)
    (timeout : Option Time) (steps : List StepSpec) : OperationRow where
  id := operationId
  operationNumber := number
  firstSequence := (steps.head?.map (·.sequence)).getD 0
  lastSequence := (steps.getLast?.map (·.sequence)).getD 0
  idempotencyKey := key
  requestFingerprint := fingerprint
  operationTimeoutSeconds := timeout
  createdAt := now
  updatedAt := now

namespace Tables

/-- `next_operation_number`. -/
def nextOperationNumber (t : Tables) : ℕ :=
  (t.operations.map (·.operationNumber)).foldl max 0 + 1

/-- The uniqueness constraints an appended Operation and its Steps must meet. -/
def appendOperation (operation : OperationRow) (steps : List ExecutionStep) (t : Tables) :
    Txn Tables :=
  if t.operations.any (fun o => o.id == operation.id ||
      o.operationNumber == operation.operationNumber ||
      o.idempotencyKey == operation.idempotencyKey) then .error .persistenceConflict
  else if steps.any (fun s => t.steps.any fun r => r.id == s.id || r.sequence == s.sequence) ∨
      ¬ (steps.map (·.id)).Nodup then .error .persistenceConflict
  else .ok { t with
    operations := t.operations ++ [operation]
    steps := t.steps ++ steps }

/-- The command `create_operation`, with its receipt. -/
def createOperation (settings : Settings) (now : Time) (c : CreateOperationCommand)
    (t : Tables) : Txn Tables := do
  match t.commandReceipt? c.idempotencyKey with
  | some receipt =>
    ensureSameReceipt receipt "execution_operation_create" c.requestFingerprint
    return t
  | none =>
    let e ← t.execution.toExecution.requestOperation now c.expectedVersion
    validateStepLimits settings t.steps.length c.steps.length
    validateTimeouts settings c.operationTimeoutSeconds c.steps
    validateOperationSteps t.steps.length c.steps
    let steps ← snapshotSources now c.operationId c.steps
    let operation := newOperation now c.operationId c.idempotencyKey c.requestFingerprint
      t.nextOperationNumber c.operationTimeoutSeconds c.steps
    let t ← t.save { e with activeOperationId := some c.operationId } (t.steps ++ steps)
    let t ← t.appendOperation operation steps
    return { t with receipts := t.receipts ++
      [⟨c.idempotencyKey, "execution_operation_create", c.requestFingerprint,
        some c.operationId⟩] }

end Tables

/-! ### What a command can do -/

namespace Tables

/-- The row a caller's cancel leaves. -/
def cancelRequestedRow (now : Time) (key : Key) (reason : Option String) (e : ExecutionRow) :
    ExecutionRow :=
  { e with
    status := .cancelRequested
    cancelIdempotencyKey := some key
    cancellationReason := reason
    operationWaitExpiresAt := none
    version := e.version + 1
    updatedAt := now }

theorem cancel_ok {now : Time} {key : Key} {reason : Option String} {t t' : Tables}
    (h : t.cancel now key reason = .ok t') :
    t' = t ∨ (t.execution.status.isTerminal = false ∧ t.execution.status ≠ .cancelRequested ∧
      t' = { t with
        execution := cancelRequestedRow now key reason t.execution
        steps := saveSteps t.steps t.steps }) := by
  unfold cancel at h
  split at h
  · exact .inl (Txn.pure_ok.mp h).symm
  split at h
  · exact .inl (Txn.pure_ok.mp h).symm
  rename_i hstatus
  simp only [Txn.bind_ok] at h
  obtain ⟨e, he, hsave⟩ := h
  unfold Execution.requestCancel at he
  split at he
  · cases he
  rename_i hterminal
  simp only [Txn.bind_ok, Txn.pure_ok] at he
  obtain ⟨_, _, rfl⟩ := he
  exact .inr ⟨by simpa using hterminal, hstatus, save_ok hsave⟩

/-- The row a retry leaves: `save` keeps the session and Target columns. -/
def retriedRow (now : Time) (e : ExecutionRow) : ExecutionRow :=
  saveExecution ((if e.retryStrategy = .fromStart then e.toExecution.forgetSession
    else e.toExecution).requeued now) e

/-- What `request_retry` accepts, with the sequence it starts from. -/
structure Retryable (now : Time) (operationId : UUID) (fromSequence : ℕ) (e : ExecutionRow) :
    Prop where
  failed : e.status = .failed
  single : e.operationMode = .single
  operation : e.activeOperationId = some operationId
  strategy : (e.retryStrategy = .fromFailedStep ∧ e.toExecution.hasResumableSession now = true ∧
      e.retryFromSequence = some fromSequence) ∨
    (e.retryStrategy = .fromStart ∧ fromSequence = 0 ∧
      ¬ ((e.runtimeSessionCleanupStatus = .pending ∨ e.runtimeSessionCleanupStatus = .failed) ∧
        e.runtimeSessionId ≠ none))

theorem requestRetry_ok {now : Time} {row : ExecutionRow} {e : Execution} {operationId : UUID}
    {fromSequence : ℕ} (h : row.toExecution.requestRetry now = .ok e)
    (hop : e.activeOperationId = some operationId)
    (hfrom : e.retryFromSequence = some fromSequence) :
    Retryable now operationId fromSequence row ∧ saveExecution e row = retriedRow now row := by
  unfold Execution.requestRetry at h
  split at h
  · cases h
  rename_i hfailed
  split at h
  · cases h
  rename_i hsingle
  split at h
  · cases h
  simp only [Txn.bind_ok] at h
  obtain ⟨e', he', h⟩ := h
  split at h
  · cases h
  simp only [Txn.bind_ok, Txn.pure_ok] at h
  obtain ⟨_, _, rfl⟩ := h
  -- The requeued object keeps Operation and start sequence of the one it resets.
  replace hop : e'.activeOperationId = some operationId := hop
  replace hfrom : e'.retryFromSequence = some fromSequence := hfrom
  unfold Execution.retryBase at he'
  split at he'
  · cases he'
  · rename_i hstrategy
    split at he'
    · rename_i hsession
      cases he'
      refine ⟨⟨not_not.mp hfailed, not_not.mp hsingle, hop, .inl ⟨hstrategy, hsession, hfrom⟩⟩, ?_⟩
      simp [retriedRow, hstrategy]
    · cases he'
  · rename_i hstrategy
    split at he'
    · cases he'
    · rename_i hsession
      cases he'
      refine ⟨⟨not_not.mp hfailed, not_not.mp hsingle, hop, .inr ⟨hstrategy, ?_, hsession⟩⟩, ?_⟩
      · simpa [Execution.forgetSession] using hfrom.symm
      · simp [retriedRow, hstrategy]

theorem retry_ok {now : Time} {key : Key} {t t' : Tables} (h : t.retry now key = .ok t') :
    t' = t ∨ ∃ operationId fromSequence,
      Retryable now operationId fromSequence t.execution ∧
      t.operations.countP (fun o => o.id == operationId && o.status == .failed) = 1 ∧
      t' = { (t.requeueOperation now operationId) with
        execution := retriedRow now t.execution
        steps := saveSteps (t.steps.map (Execution.resetStep now fromSequence)) t.steps
        retries := t.retries ++ [key] } := by
  unfold retry at h
  split at h
  · exact .inl (Txn.pure_ok.mp h).symm
  simp only [Txn.bind_ok] at h
  obtain ⟨e, he, h⟩ := h
  split at h
  · rename_i operationId fromSequence hop hfrom
    simp only [Txn.bind_ok, Txn.pure_ok] at h
    obtain ⟨saved, hsaved, requeued, hrequeued, rfl⟩ := h
    obtain ⟨retryable, hrow⟩ := requestRetry_ok he hop hfrom
    have hsaved := save_ok hsaved
    unfold requeueOperationForRetry at hrequeued
    split at hrequeued
    · cases hrequeued
    rename_i hcount
    cases hrequeued
    subst hsaved
    refine .inr ⟨operationId, fromSequence, retryable, by simpa using hcount, ?_⟩
    simp [requeueOperation, hrow]
  · cases h

/-- The row a finalize call leaves. -/
def finalizationRequestedRow (now : Time) (e : ExecutionRow) : ExecutionRow :=
  { e with
    status := .finalizing
    finalizationRequested := true
    finalizedBy := some .agent
    operationWaitExpiresAt := none
    updatedAt := now
    version := e.version + 1 }

theorem finalizeCommand_ok {now : Time} {key fingerprint : Key} {expectedVersion : ℕ}
    {t t' : Tables} (h : t.finalizeCommand now key fingerprint expectedVersion = .ok t') :
    t' = t ∨ (t.execution.operationMode = .multi ∧ t.execution.status = .waitingForOperation ∧
      t' = { t with
        execution := finalizationRequestedRow now t.execution
        steps := saveSteps t.steps t.steps
        receipts := t.receipts ++ [⟨key, "execution_finalize", fingerprint, none⟩] }) := by
  unfold finalizeCommand at h
  split at h
  · simp only [Txn.bind_ok, Txn.pure_ok] at h
    obtain ⟨_, _, rfl⟩ := h
    exact .inl rfl
  simp only [Txn.bind_ok, Txn.pure_ok] at h
  obtain ⟨e, he, saved, hsaved, rfl⟩ := h
  unfold Execution.requestFinalization at he
  split at he
  · cases he
  rename_i hmulti
  split at he
  · cases he
  rename_i hwaiting
  split at he
  · cases he
  split at he
  · cases he
  simp only [Txn.bind_ok, Txn.pure_ok] at he
  obtain ⟨_, _, rfl⟩ := he
  have hsaved := save_ok hsaved
  subst hsaved
  exact .inr ⟨not_not.mp hmulti, not_not.mp hwaiting, rfl⟩

/-- The row a further Operation leaves. -/
def operationRequestedRow (now : Time) (operationId : UUID) (e : ExecutionRow) : ExecutionRow :=
  { e with
    status := .queued
    finalizationRequested := false
    operationWaitExpiresAt := none
    updatedAt := now
    version := e.version + 1
    activeOperationId := some operationId }

/-- The rows a create-operation adds are new. -/
structure FreshOperation (operation : OperationRow) (steps : List ExecutionStep) (t : Tables) :
    Prop where
  freshId : ∀ o ∈ t.operations, o.id ≠ operation.id
  freshSteps : ∀ s ∈ steps, ∀ r ∈ t.steps, r.id ≠ s.id ∧ r.sequence ≠ s.sequence
  nodup : (steps.map (·.id)).Nodup

theorem appendOperation_ok {operation : OperationRow} {steps : List ExecutionStep} {t t' : Tables}
    (h : t.appendOperation operation steps = .ok t') :
    FreshOperation operation steps t ∧
      t' = { t with operations := t.operations ++ [operation], steps := t.steps ++ steps } := by
  unfold appendOperation at h
  split at h
  · cases h
  rename_i hoperation
  split at h
  · cases h
  rename_i hsteps
  cases h
  simp only [not_or, not_not, List.any_eq_true, Bool.or_eq_true, beq_iff_eq, not_exists,
    not_and] at hoperation hsteps
  refine ⟨⟨fun o ho => (hoperation o ho).1.1, fun s hs r hr => ?_, hsteps.2⟩, rfl⟩
  exact hsteps.1 s hs r hr

theorem createOperation_ok {settings : Settings} {now : Time} {c : CreateOperationCommand}
    {t t' : Tables} (h : t.createOperation settings now c = .ok t') :
    t' = t ∨ (t.execution.operationMode = .multi ∧ t.execution.status = .waitingForOperation ∧
      ∃ operation steps, operation.id = c.operationId ∧ operation.status = .queued ∧
        snapshotSources now c.operationId c.steps = .ok steps ∧
        validateOperationSteps t.steps.length c.steps = .ok () ∧
        FreshOperation operation steps { t with steps := saveSteps (t.steps ++ steps) t.steps } ∧
        t' = { t with
          execution := operationRequestedRow now c.operationId t.execution
          operations := t.operations ++ [operation]
          steps := saveSteps (t.steps ++ steps) t.steps ++ steps
          receipts := t.receipts ++ [⟨c.idempotencyKey, "execution_operation_create",
            c.requestFingerprint, some c.operationId⟩] }) := by
  unfold createOperation at h
  split at h
  · simp only [Txn.bind_ok, Txn.pure_ok] at h
    obtain ⟨_, _, rfl⟩ := h
    exact .inl rfl
  simp only [Txn.bind_ok, Txn.pure_ok] at h
  obtain ⟨e, he, _, _, _, _, _, hvalid, steps, hsteps, saved, hsaved, appended, happended, rfl⟩ := h
  unfold Execution.requestOperation at he
  split at he
  · cases he
  rename_i hmulti
  split at he
  · cases he
  rename_i hwaiting
  split at he
  · cases he
  simp only [Txn.bind_ok, Txn.pure_ok] at he
  obtain ⟨_, _, rfl⟩ := he
  have hsaved := save_ok hsaved
  subst hsaved
  obtain ⟨fresh, rfl⟩ := appendOperation_ok happended
  refine .inr ⟨not_not.mp hmulti, not_not.mp hwaiting, _, steps, rfl, rfl, hsteps, hvalid, ?_, rfl⟩
  exact ⟨fresh.freshId, fresh.freshSteps, fresh.nodup⟩

end Tables

/-! ### Submission -/

/-- A submit request with the identifiers it draws. -/
structure SubmitExecutionCommand where
  executionId : UUID
  operationId : UUID
  idempotencyKey : Key
  requestFingerprint : Key
  operationMode : OperationMode
  runtimePool : RuntimePool
  runtimeType : RuntimeType
  runtimeProfile : String
  operationWaitTimeoutSeconds : Option Time
  operationTimeoutSeconds : Option Time
  steps : List StepSpec

/-- The mode checks of `validate_submit`; the pool is the trigger type. -/
def validateSubmit (c : SubmitExecutionCommand) : Txn Unit := do
  validateOperationSteps 0 c.steps
  match c.operationMode with
  | .single =>
    if c.operationWaitTimeoutSeconds.isSome then .error (.invalidSpec "not_allowed_for_single")
    else .ok ()
  | .multi =>
    if c.runtimePool ≠ .interactive then .error (.invalidSpec "multi_requires_interactive")
    else if c.operationWaitTimeoutSeconds = none then .error (.invalidSpec "required_for_multi")
    else .ok ()

/-- `submit` for a key no Execution has: the rows it inserts. -/
def submit (settings : Settings) (now : Time) (c : SubmitExecutionCommand) : Txn Tables := do
  validateSubmit c
  validateStepLimits settings 0 c.steps.length
  validateTimeouts settings c.operationTimeoutSeconds c.steps
  let steps ← snapshotSources now c.operationId c.steps
  if ¬ (steps.map (·.id)).Nodup then .error .persistenceConflict
  else return {
    execution := {
      id := c.executionId
      idempotencyKey := c.idempotencyKey
      requestFingerprint := c.requestFingerprint
      operationMode := c.operationMode
      operationWaitTimeoutSeconds := c.operationWaitTimeoutSeconds
      runtimeType := c.runtimeType
      runtimePool := c.runtimePool
      runtimeProfile := c.runtimeProfile
      activeOperationId := some c.operationId
      createdAt := now
      updatedAt := now }
    operations := [newOperation now c.operationId c.idempotencyKey c.requestFingerprint 1
      c.operationTimeoutSeconds c.steps]
    steps := steps }

end ExecutorService
