/-
Step and Operation state under an Execution lease.

The transactions a run issues while it holds its lease: the Runtime session and
start events, Step start and end (`step_executor.py`), the ends of a MULTI
Operation (`multi_operation_state.py`) and the notebook columns
(`notebook_projector.py`).  Each starts with `require_active_lease`.
-/
import ExecutorService.Recovery

namespace ExecutorService

namespace Tables

/-- `ensure_count`: the planned Steps are the cells of the source. -/
def ensureCount (clock : Clock) (lease : ExecutionLease) (cellCount : ℕ) (t : Tables) :
    Txn Change := do
  let _ ← t.requireActiveLease clock.lease lease
  if t.steps.length ≠ cellCount then
    .error (.value "Execution planned steps differ from source cells.")
  else return { tables := t }

/-- The session columns of the row and of the running Attempt. -/
def withSession (now : Time) (attemptId : UUID) (sessionId : SessionId)
    (workspacePath notebookPath : String) (t : Tables) : Tables :=
  { t with
    execution := { t.execution with
      runtimeSessionId := some sessionId
      workspacePath := some workspacePath
      notebookPath := some notebookPath
      updatedAt := now }
    attempts := t.attempts.updateWhere (·.id == attemptId) fun a =>
      { a with runtimeSessionId := some sessionId } }

/-- `record_runtime_session`: the session columns, then the start events. -/
def recordRuntimeSession (clock : Clock) (lease : ExecutionLease) (sessionId : SessionId)
    (workspacePath notebookPath : String) (log : EventLog) (t : Tables) : Txn Change := do
  let _ ← t.requireActiveLease clock.lease lease
  let t := t.withSession clock.now lease.attemptId sessionId workspacePath notebookPath
  return { tables := t, events := t.addStartEvents log }

/-! ### Steps -/

/-- A Step that starts over. -/
def startStep (now : Time) (s : ExecutionStep) : ExecutionStep :=
  { s with
    status := .running
    result := {}
    resultExecutionAttemptId := none
    startedAt := some now
    updatedAt := now }

/-- The Step attempt of an Attempt and a sequence (unique together). -/
def isStepAttempt (attemptId : UUID) (sequence : ℕ) (h : StepAttemptRow) : Bool :=
  h.executionAttemptId == attemptId && h.sequence == sequence

/-- The Step attempt of this Attempt and sequence, RUNNING again or new. -/
def startedStepAttempts (now : Time) (attemptId historyId : UUID) (step : ExecutionStep)
    (rows : List StepAttemptRow) : List StepAttemptRow :=
  if rows.any (isStepAttempt attemptId step.sequence) then
    rows.updateWhere (isStepAttempt attemptId step.sequence) fun h =>
      { h with
        status := .running
        startedAt := now
        finishedAt := none
        errorMessage := none
        result := {} }
  else rows ++ [{
    id := historyId
    executionAttemptId := attemptId
    executionStepId := step.id
    sequence := step.sequence
    status := .running
    startedAt := now }]

/-- `session.merge` of the journal request: one row per Step attempt. -/
def mergedStepRuns (run : StepRunRow) (rows : List StepRunRow) : List StepRunRow :=
  if rows.any (·.executionStepAttemptId == run.executionStepAttemptId) then
    rows.updateWhere (·.executionStepAttemptId == run.executionStepAttemptId) fun _ => run
  else rows ++ [run]

/-- The Step and its attempt run under a journal request. -/
def stepStarted (now : Time) (attemptId : UUID) (step : ExecutionStep)
    (historyId requestId : UUID) (artifactBaseline : ℕ) (t : Tables) : Tables :=
  let id := ((t.stepAttempts.find? (isStepAttempt attemptId step.sequence)).map
    (·.id)).getD historyId
  { t with
    steps := t.steps.updateWhere (·.sequence == step.sequence) (startStep now)
    stepAttempts := startedStepAttempts now attemptId historyId step t.stepAttempts
    stepRuns := mergedStepRuns ⟨id, requestId, artifactBaseline, none⟩ t.stepRuns }

/-- `mark_started`: every run of a Step gets a fresh journal request. -/
def markStarted (clock : Clock) (lease : ExecutionLease) (sequence : ℕ)
    (historyId requestId : UUID) (artifactBaseline : ℕ) (t : Tables) : Txn Change := do
  let _ ← t.requireActiveLease clock.lease lease
  match t.stepAt? sequence with
  | none => .error (.value "Execution Step was not found.")
  | some step =>
    if t.stepAttempts.any (·.id == historyId) ∨ t.stepRuns.any (·.requestId == requestId) then
      .error .persistenceConflict
    else
      let t := t.stepStarted clock.now lease.attemptId step historyId requestId artifactBaseline
      let events ← t.addStepStartedEvent lease.attemptId step
      return { tables := t, events := events }

/-- What a run follows: the journal request of one Step. -/
structure StepRun where
  sequence : ℕ
  requestId : UUID
  submitted : Bool
  artifactBaseline : ℕ
  deriving DecidableEq

/-- `load_run`: the Step run a replacement Worker must follow. -/
def loadRun (clock : Clock) (lease : ExecutionLease) (t : Tables) : Txn StepRun := do
  let _ ← t.requireActiveLease clock.lease lease
  let rows := t.stepAttempts.filterMap fun h =>
    if h.executionAttemptId = lease.attemptId ∧ h.status = .running then
      (t.stepRuns.find? (·.executionStepAttemptId == h.id)).map fun run => (h.sequence, run)
    else none
  match rows with
  | [] => .error (.value "Handed-over Execution has no running Step.")
  | (sequence, run) :: _ =>
    return ⟨sequence, run.requestId, run.submittedAt.isSome, run.artifactBaseline⟩

/-- The Runtime has the code of a Step. -/
def markSubmitted (clock : Clock) (lease : ExecutionLease) (requestId : UUID) (t : Tables) :
    Txn Change := do
  let _ ← t.requireActiveLease clock.lease lease
  return { tables := { t with
    stepRuns := t.stepRuns.updateWhere (·.requestId == requestId) fun run =>
      { run with submittedAt := some clock.now } } }

/-- A handed-over Step has been followed to its end. -/
def recordHandoverCompleted (clock : Clock) (lease : ExecutionLease) (sequence : ℕ)
    (handover : HandoverRow) (finished : Bool) (t : Tables) : Txn Change := do
  let _ ← t.requireActiveLease clock.lease lease
  match t.stepAt? sequence with
  | none => .error (.value "Execution Step was not found.")
  | some step =>
    let operation ← t.operationPayload step.operationId
    let attempt ← t.attemptPayload lease.attemptId
    return { tables := t
             events := [.stepHandoverCompleted operation ⟨step.id, step.sequence⟩ attempt
               (max (clock.event - handover.pausedSince) 0) finished] }

/-- The Step row and its attempt row when the Step ends with a sealed result. -/
def endStep (now : Time) (attemptId : UUID) (sequence : ℕ) (status : StepStatus)
    (stored : StepResultDescriptor) (message : Option String) (t : Tables) : Tables :=
  { t with
    steps := t.steps.updateWhere (·.sequence == sequence) fun s =>
      { s with
        status := status
        result := .ofDescriptor stored
        resultExecutionAttemptId := some attemptId
        errorMessage := message.or s.errorMessage
        finishedAt := some now
        updatedAt := now }
    stepAttempts := t.stepAttempts.updateWhere (isStepAttempt attemptId sequence) fun h =>
      { h with
        status := status
        result := .ofDescriptor stored
        errorMessage := message.or h.errorMessage
        finishedAt := some now } }

/-- `mark_succeeded`: any error but a lost lease is a completion error. -/
def markSucceeded (clock : Clock) (lease : ExecutionLease) (sequence : ℕ)
    (stored : StepResultDescriptor) (t : Tables) : Txn Change := do
  let _ ← t.requireActiveLease clock.lease lease
  match t.stepAt? sequence with
  | none => .error (.completion "RESULT_REFERENCE_PERSIST")
  | some step =>
    let t := t.endStep clock.now lease.attemptId sequence .succeeded stored none
    match t.addStepCompletedEvent lease.attemptId step .succeeded stored none false with
    | .ok events => .ok { tables := t, events := events }
    | .error _ => .error (.completion "RESULT_REFERENCE_PERSIST")

/-- `mark_failed`. -/
def markFailed (clock : Clock) (lease : ExecutionLease) (sequence : ℕ)
    (stored : StepResultDescriptor) (errorMessage : String) (retryable : Bool) (t : Tables) :
    Txn Change := do
  let _ ← t.requireActiveLease clock.lease lease
  match t.stepAt? sequence with
  | none => .error (.value "Execution Step or its Operation was not found.")
  | some step =>
    let message := truncateMessage errorMessage
    let t := t.endStep clock.now lease.attemptId sequence .failed stored (some message)
    let events ← t.addStepCompletedEvent lease.attemptId step .failed stored (some message)
      retryable
    return { tables := t, events := events }

/-- The result columns of an interrupted Step and its attempt. -/
def withEvidence (now : Time) (attemptId : UUID) (step : ExecutionStep)
    (stored : Option StepResultDescriptor) (t : Tables) : Tables :=
  match stored with
  | none => t
  | some d => { t with
      steps := t.steps.updateWhere (·.sequence == step.sequence) fun s =>
        { s with
          resultExecutionAttemptId := some attemptId
          updatedAt := now
          result := .ofDescriptor d }
      stepAttempts := t.stepAttempts.updateWhere
        (fun h => h.executionAttemptId == attemptId && h.executionStepId == step.id &&
          h.status == .running) fun h =>
        { h with result := .ofDescriptor d } }

/-- `_record_interrupted_result`: evidence of a cancelled Step, without a
transition; the notebook no longer covers it. -/
def recordInterruptedResult (clock : Clock) (lease : ExecutionLease) (sequence : ℕ)
    (stored : Option StepResultDescriptor) (t : Tables) : Txn Change := do
  let _ ← t.requireActiveLease clock.lease lease [.running, .cancelRequested]
  if stored.any fun d => d.reference.executionAttemptId != lease.attemptId ||
      d.reference.fencingToken != lease.fencingToken then
    .error (.value "Interrupted result ownership conflicts.")
  else
    match t.steps.find? fun s => s.sequence == sequence && s.status == .running with
    | none => .error (.value "No row was found when one was required")
    | some step =>
      if t.stepAttempts.countP (fun h => h.executionAttemptId == lease.attemptId &&
          h.executionStepId == step.id && h.status == .running) ≠ 1 then
        .error (.value "No row was found when one was required")
      else
        let t := t.withEvidence clock.now lease.attemptId step stored
        return { tables := { t with
          execution := invalidateNotebook "Step interruption" t.execution } }

/-! ### MULTI Operations -/

/-- `require_completed_results`. -/
def requireCompletedResults (operationId : Option UUID) (finalizing requireNotebookArtifact : Bool)
    (t : Tables) : Txn Unit :=
  match operationId.bind t.operation? with
  | none => .error (.completion "OPERATION_COMPLETION_CHECK")
  | some operation =>
    let steps := t.steps.filter (·.operationId == operation.id)
    if ¬ (operation.status = .running ∨ operation.status = .succeeded) ∨
        (finalizing ∧ operation.status ≠ .succeeded) then
      .error (.completion "OPERATION_COMPLETION_CHECK")
    else if steps = [] ∨ steps.any (fun s => s.status != .succeeded ||
        s.result.complete != some true || s.result.manifestPath.all (· == "") ||
        s.result.manifestChecksumSha256.all (· == "") ||
        s.result.manifestSizeBytes.all (· == 0) || s.resultExecutionAttemptId.isNone ||
        s.result.fencingToken.isNone) then
      .error (.completion "RESULT_COMPLETION_CHECK")
    else if t.execution.notebookProjectionStatus ≠ .succeeded then
      .error (.completion "NOTEBOOK_COMPLETION_CHECK")
    else if ¬ requireNotebookArtifact then .ok ()
    else if t.artifacts.any fun a => a.artifactType == .notebook && a.status == .available &&
        some a.relativePath == t.execution.notebookPath then .ok ()
    else .error (.completion "NOTEBOOK_ARTIFACT_CHECK")

/-- The Operation ends and the Attempt waits for the next one. -/
def operationEnded (now : Time) (attemptId operationId : UUID) (status : OperationStatus)
    (errorMessage : Option String) (failureType : Option FailureType) (waitSeconds : Time)
    (t : Tables) : Tables :=
  let deadline := now + waitSeconds
  { t with
    execution := { t.execution with
      status := .waitingForOperation
      leaseOwner := none
      leaseExpiresAt := none
      updatedAt := now
      finalizationRequested := false
      operationWaitExpiresAt :=
        some (min deadline (t.execution.executionExpiresAt.getD deadline))
      version := t.execution.version + 1 }
    operations := t.operations.updateWhere (·.id == operationId) fun o =>
      { o with
        status := status
        errorMessage := (errorMessage.filter (· ≠ "")).map truncateMessage
        failureType := if status = .succeeded then none else failureType.or (some .toolError)
        finishedAt := some now
        updatedAt := now }
    attempts := t.attempts.updateWhere (·.id == attemptId) fun a =>
      { a with status := .waiting, leaseOwner := none, leaseExpiresAt := none } }

/-- `complete`: an Operation that is not RUNNING is left alone. -/
def completeOperation (clock : Clock) (lease : ExecutionLease) (operationId : UUID)
    (status : OperationStatus) (errorMessage : Option String)
    (failureType : Option FailureType) (t : Tables) : Txn Change := do
  let _ ← t.requireActiveLease clock.lease lease
  match t.operation? operationId with
  | none => return { tables := t }
  | some operation =>
    if operation.status ≠ .running then return { tables := t }
    else
      let _ ← (if status = .succeeded then t.requireCompletedResults (some operationId) false false
        else .ok () : Txn Unit)
      requireExecutionTransition t.execution.status .waitingForOperation
      match t.execution.operationWaitTimeoutSeconds with
      | none => .error (.value "MULTI execution has no Operation wait timeout.")
      | some seconds =>
        let t := t.operationEnded clock.now lease.attemptId operationId status errorMessage
          failureType seconds
        return { tables := t, events := t.addOperationCompletedEvent operationId }

/-- The PENDING Steps of an Operation beyond a failed one. -/
def stepsSkippedAfter (now : Time) (operationId : UUID) (failedSequence : ℕ) (t : Tables) :
    Tables :=
  { t with
    steps := t.steps.updateWhere (fun s => s.operationId == operationId &&
      decide (failedSequence < s.sequence) && s.status == .pending) fun s =>
      { s with status := .skipped, finishedAt := some now, updatedAt := now } }

/-- `skip_steps_after`. -/
def skipStepsAfter (clock : Clock) (lease : ExecutionLease) (operationId : UUID)
    (failedSequence : ℕ) (t : Tables) : Txn Change := do
  let _ ← t.requireActiveLease clock.lease lease
  return { tables := t.stepsSkippedAfter clock.now operationId failedSequence }

/-! ### Notebook and artifacts -/

/-- The first transaction of `project`. -/
def beginProjection (clock : Clock) (lease : ExecutionLease) (t : Tables) : Txn Change := do
  let _ ← t.requireActiveLease clock.lease lease
  return { tables := { t with execution := { t.execution with
    notebookProjectionStatus := .pending
    notebookProjectionError := none
    updatedAt := clock.now } } }

/-- The outcome of the notebook's projection. -/
def recordProjection (clock : Clock) (lease : ExecutionLease)
    (status : NotebookProjectionStatus) (attemptCount : ℕ) (errorMessage : Option String)
    (t : Tables) : Txn Change := do
  let _ ← t.requireActiveLease clock.lease lease
  return { tables := { t with execution := { t.execution with
    notebookProjectionStatus := status
    notebookProjectionAttemptCount :=
      t.execution.notebookProjectionAttemptCount + attemptCount
    notebookProjectionError := errorMessage
    notebookProjectedAt := if status = .succeeded then some clock.now else none
    updatedAt := clock.now } } }

/-- `persist_notebook`: one live reference per notebook path. -/
def persistNotebook (clock : Clock) (lease : ExecutionLease) (notebook : ArtifactRow)
    (t : Tables) : Txn Change := do
  let _ ← t.requireActiveLease clock.lease lease [.running, .cancelRequested]
  let same (a : ArtifactRow) := a.artifactType == .notebook && a.relativePath == notebook.relativePath
  if t.artifacts.any same then
    return { tables := { t with
      artifacts := t.artifacts.updateWhere same fun a => { a with status := notebook.status } } }
  else return { tables := { t with
    artifacts := t.artifacts ++ [{ notebook with artifactType := .notebook }] } }

/-- `persist`: the artifacts of a Step that were not registered before. -/
def persistArtifacts (clock : Clock) (lease : ExecutionLease) (sequence : ℕ)
    (allowCancelRequested : Bool) (artifacts : List ArtifactRow) (t : Tables) : Txn Change := do
  let _ ← t.requireActiveLease clock.lease lease
    (if allowCancelRequested then [.running, .cancelRequested] else [.running])
  if (t.stepAt? sequence).isNone ∨ ¬ t.stepAttempts.any (fun h =>
      h.executionAttemptId == lease.attemptId && h.sequence == sequence) then
    .error (.value "Artifact cannot be linked because its Execution Step is missing.")
  else return { tables := { t with
    artifacts := artifacts.foldl (fun rows a =>
      if rows.any (·.identityHash == a.identityHash) then rows else rows ++ [a]) t.artifacts } }

/-- A lease check on its own: `assert_execution`, or a diagnostic record, whose
table nothing reads. -/
def assertExecution (clock : Clock) (lease : ExecutionLease) (allowed : List ExecutionStatus)
    (t : Tables) : Txn Change := do
  let _ ← t.requireActiveLease clock.lease lease allowed
  return { tables := t }

/-! ### What a run can write -/

section
variable {clock : Clock} {lease : ExecutionLease} {t : Tables} {c : Change}

theorem assertExecution_ok {allowed : List ExecutionStatus}
    (h : t.assertExecution clock lease allowed = .ok c) :
    (∃ a, t.requireActiveLease clock.lease lease allowed = .ok a) ∧ c = { tables := t } := by
  simp only [assertExecution, Txn.bind_ok, Txn.pure_ok] at h
  obtain ⟨a, ha, rfl⟩ := h
  exact ⟨⟨a, ha⟩, rfl⟩

theorem ensureCount_ok {cellCount : ℕ} (h : t.ensureCount clock lease cellCount = .ok c) :
    (∃ a, t.requireActiveLease clock.lease lease = .ok a) ∧ c = { tables := t } := by
  simp only [ensureCount, Txn.bind_ok] at h
  obtain ⟨a, ha, h⟩ := h
  split at h
  · cases h
  · exact ⟨⟨a, ha⟩, (Txn.pure_ok.mp h).symm⟩

theorem recordRuntimeSession_ok {sessionId : SessionId} {workspace notebook : String}
    {log : EventLog}
    (h : t.recordRuntimeSession clock lease sessionId workspace notebook log = .ok c) :
    (∃ a, t.requireActiveLease clock.lease lease = .ok a) ∧
      c = { tables := t.withSession clock.now lease.attemptId sessionId workspace notebook
            events := (t.withSession clock.now lease.attemptId sessionId workspace
              notebook).addStartEvents log } := by
  simp only [recordRuntimeSession, Txn.bind_ok, Txn.pure_ok] at h
  obtain ⟨a, ha, rfl⟩ := h
  exact ⟨⟨a, ha⟩, rfl⟩

theorem attemptPayload_id {attemptId : UUID} {ref : AttemptRef}
    (h : t.attemptPayload attemptId = .ok ref) : ref.id = attemptId := by
  simp only [attemptPayload] at h
  split at h
  · rename_i row hrow
    cases h
    simpa [attemptRef] using List.find?_some hrow
  · cases h

theorem markStarted_ok {sequence baseline : ℕ} {historyId requestId : UUID}
    (h : t.markStarted clock lease sequence historyId requestId baseline = .ok c) :
    (∃ a, t.requireActiveLease clock.lease lease = .ok a) ∧
      t.stepAttempts.any (·.id == historyId) = false ∧
      t.stepRuns.any (·.requestId == requestId) = false ∧
      ∃ step, t.stepAt? sequence = some step ∧
        c.tables = t.stepStarted clock.now lease.attemptId step historyId requestId baseline ∧
        c.lease = none ∧ c.events.map (·.subject) = [.stepStarted step.id lease.attemptId] := by
  simp only [markStarted, Txn.bind_ok] at h
  obtain ⟨a, ha, h⟩ := h
  split at h
  · cases h
  rename_i step hstep
  split at h
  · cases h
  rename_i hfresh
  simp only [not_or, Bool.not_eq_true] at hfresh
  simp only [Txn.bind_ok, Txn.pure_ok] at h
  obtain ⟨events, hevents, rfl⟩ := h
  simp only [addStepStartedEvent, Txn.bind_ok, Txn.pure_ok] at hevents
  obtain ⟨operation, _, attempt, hattempt, rfl⟩ := hevents
  exact ⟨⟨a, ha⟩, hfresh.1, hfresh.2, step, hstep, rfl, rfl, by
    simp [EventPayload.subject, attemptPayload_id hattempt]⟩

theorem markSubmitted_ok {requestId : UUID} (h : t.markSubmitted clock lease requestId = .ok c) :
    (∃ a, t.requireActiveLease clock.lease lease = .ok a) ∧
      c = { tables := { t with
        stepRuns := t.stepRuns.updateWhere (·.requestId == requestId) fun run =>
          { run with submittedAt := some clock.now } } } := by
  simp only [markSubmitted, Txn.bind_ok, Txn.pure_ok] at h
  obtain ⟨a, ha, rfl⟩ := h
  exact ⟨⟨a, ha⟩, rfl⟩

theorem recordHandoverCompleted_ok {sequence : ℕ} {handover : HandoverRow} {finished : Bool}
    (h : t.recordHandoverCompleted clock lease sequence handover finished = .ok c) :
    (∃ a, t.requireActiveLease clock.lease lease = .ok a) ∧
      ∃ step, t.stepAt? sequence = some step ∧ c.tables = t ∧ c.lease = none ∧
        c.events.map (·.subject) = [.stepHandoverCompleted step.id lease.attemptId] := by
  simp only [recordHandoverCompleted, Txn.bind_ok] at h
  obtain ⟨a, ha, h⟩ := h
  split at h
  · cases h
  rename_i step hstep
  simp only [Txn.bind_ok, Txn.pure_ok] at h
  obtain ⟨operation, _, attempt, hattempt, rfl⟩ := h
  exact ⟨⟨a, ha⟩, step, hstep, rfl, rfl, by
    simp [EventPayload.subject, attemptPayload_id hattempt]⟩

theorem addStepCompletedEvent_subject {attemptId : UUID} {step : ExecutionStep}
    {status : StepStatus} {stored : StepResultDescriptor} {message : Option String}
    {retryable : Bool} {events : List EventPayload}
    (h : t.addStepCompletedEvent attemptId step status stored message retryable = .ok events) :
    events.map (·.subject) = [.stepCompleted status step.id attemptId] := by
  simp only [addStepCompletedEvent, Txn.bind_ok, Txn.pure_ok] at h
  obtain ⟨operation, _, attempt, hattempt, rfl⟩ := h
  simp [EventPayload.subject, attemptPayload_id hattempt]

theorem markSucceeded_ok {sequence : ℕ} {stored : StepResultDescriptor}
    (h : t.markSucceeded clock lease sequence stored = .ok c) :
    (∃ a, t.requireActiveLease clock.lease lease = .ok a) ∧
      ∃ step, t.stepAt? sequence = some step ∧
        c.tables = t.endStep clock.now lease.attemptId sequence .succeeded stored none ∧
        c.lease = none ∧
        c.events.map (·.subject) = [.stepCompleted .succeeded step.id lease.attemptId] := by
  simp only [markSucceeded, Txn.bind_ok] at h
  obtain ⟨a, ha, h⟩ := h
  split at h
  · cases h
  rename_i step hstep
  split at h
  · rename_i events hevents
    cases h
    exact ⟨⟨a, ha⟩, step, hstep, rfl, rfl, addStepCompletedEvent_subject hevents⟩
  · cases h

theorem markFailed_ok {sequence : ℕ} {stored : StepResultDescriptor} {message : String}
    {retryable : Bool} (h : t.markFailed clock lease sequence stored message retryable = .ok c) :
    (∃ a, t.requireActiveLease clock.lease lease = .ok a) ∧
      ∃ step, t.stepAt? sequence = some step ∧
        c.tables = t.endStep clock.now lease.attemptId sequence .failed stored
          (some (truncateMessage message)) ∧
        c.lease = none ∧
        c.events.map (·.subject) = [.stepCompleted .failed step.id lease.attemptId] := by
  simp only [markFailed, Txn.bind_ok] at h
  obtain ⟨a, ha, h⟩ := h
  split at h
  · cases h
  rename_i step hstep
  simp only [Txn.bind_ok, Txn.pure_ok] at h
  obtain ⟨events, hevents, rfl⟩ := h
  exact ⟨⟨a, ha⟩, step, hstep, rfl, rfl, addStepCompletedEvent_subject hevents⟩

theorem recordInterruptedResult_ok {sequence : ℕ} {stored : Option StepResultDescriptor}
    (h : t.recordInterruptedResult clock lease sequence stored = .ok c) :
    (∃ a, t.requireActiveLease clock.lease lease [.running, .cancelRequested] = .ok a) ∧
      ∃ step, c = { tables := { t.withEvidence clock.now lease.attemptId step stored with
        execution := invalidateNotebook "Step interruption" t.execution } } := by
  simp only [recordInterruptedResult, Txn.bind_ok] at h
  obtain ⟨a, ha, h⟩ := h
  split at h
  · cases h
  split at h
  · cases h
  rename_i step hstep
  split at h
  · cases h
  refine ⟨⟨a, ha⟩, step, ?_⟩
  rw [← Txn.pure_ok.mp h]
  cases stored <;> rfl

/-- An Operation that ends leaves its Execution WAITING; one that is not RUNNING
is left alone. -/
theorem completeOperation_ok {operationId : UUID} {status : OperationStatus}
    {message : Option String} {failureType : Option FailureType}
    (h : t.completeOperation clock lease operationId status message failureType = .ok c) :
    (∃ a, t.requireActiveLease clock.lease lease = .ok a) ∧
      (c = { tables := t } ∨ ∃ operation seconds,
        t.operation? operationId = some operation ∧ operation.status = .running ∧
        t.execution.operationWaitTimeoutSeconds = some seconds ∧
        (status = .succeeded →
          t.requireCompletedResults (some operationId) false false = .ok ()) ∧
        c = { tables := t.operationEnded clock.now lease.attemptId operationId status message
                failureType seconds
              events := (t.operationEnded clock.now lease.attemptId operationId status message
                failureType seconds).addOperationCompletedEvent operationId }) := by
  simp only [completeOperation, Txn.bind_ok] at h
  obtain ⟨a, ha, h⟩ := h
  refine ⟨⟨a, ha⟩, ?_⟩
  split at h
  · exact .inl (Txn.pure_ok.mp h).symm
  rename_i operation hoperation
  split at h
  · exact .inl (Txn.pure_ok.mp h).symm
  rename_i hrunning
  simp only [Txn.bind_ok] at h
  obtain ⟨_, hresults, _, _, h⟩ := h
  split at h
  · cases h
  rename_i seconds hseconds
  refine .inr ⟨operation, seconds, hoperation, not_not.mp hrunning, hseconds, ?_,
    (Txn.pure_ok.mp h).symm⟩
  intro hstatus
  simpa [hstatus] using hresults

theorem skipStepsAfter_ok {operationId : UUID} {sequence : ℕ}
    (h : t.skipStepsAfter clock lease operationId sequence = .ok c) :
    (∃ a, t.requireActiveLease clock.lease lease = .ok a) ∧
      c = { tables := t.stepsSkippedAfter clock.now operationId sequence } := by
  simp only [skipStepsAfter, Txn.bind_ok, Txn.pure_ok] at h
  obtain ⟨a, ha, rfl⟩ := h
  exact ⟨⟨a, ha⟩, rfl⟩

/-- Columns of an Execution row that only the notebook projector writes. -/
def SameButNotebook (e e' : ExecutionRow) : Prop :=
  e' = { e with
    notebookProjectionStatus := e'.notebookProjectionStatus
    notebookProjectionAttemptCount := e'.notebookProjectionAttemptCount
    notebookProjectionError := e'.notebookProjectionError
    notebookProjectedAt := e'.notebookProjectedAt
    updatedAt := e'.updatedAt }

theorem invalidateNotebook_same (reason : String) (e : ExecutionRow) :
    SameButNotebook e (invalidateNotebook reason e) := by
  unfold SameButNotebook invalidateNotebook
  split <;> rfl

theorem beginProjection_ok (h : t.beginProjection clock lease = .ok c) :
    (∃ a, t.requireActiveLease clock.lease lease = .ok a) ∧
      ∃ e, SameButNotebook t.execution e ∧ c = { tables := { t with execution := e } } := by
  simp only [beginProjection, Txn.bind_ok, Txn.pure_ok] at h
  obtain ⟨a, ha, rfl⟩ := h
  refine ⟨⟨a, ha⟩, _, ?_, rfl⟩
  rfl

theorem recordProjection_ok {status : NotebookProjectionStatus} {count : ℕ}
    {message : Option String} (h : t.recordProjection clock lease status count message = .ok c) :
    (∃ a, t.requireActiveLease clock.lease lease = .ok a) ∧
      ∃ e, SameButNotebook t.execution e ∧ c = { tables := { t with execution := e } } := by
  simp only [recordProjection, Txn.bind_ok, Txn.pure_ok] at h
  obtain ⟨a, ha, rfl⟩ := h
  refine ⟨⟨a, ha⟩, _, ?_, rfl⟩
  rfl

theorem persistNotebook_ok {notebook : ArtifactRow}
    (h : t.persistNotebook clock lease notebook = .ok c) :
    (∃ a, t.requireActiveLease clock.lease lease [.running, .cancelRequested] = .ok a) ∧
      ∃ artifacts, c = { tables := { t with artifacts := artifacts } } := by
  simp only [persistNotebook, Txn.bind_ok] at h
  obtain ⟨a, ha, h⟩ := h
  split at h
  all_goals
    rw [Txn.pure_ok] at h
    exact ⟨⟨a, ha⟩, _, h.symm⟩

theorem persistArtifacts_ok {sequence : ℕ} {allow : Bool} {artifacts : List ArtifactRow}
    (h : t.persistArtifacts clock lease sequence allow artifacts = .ok c) :
    (∃ a, t.requireActiveLease clock.lease lease
      (if allow then [.running, .cancelRequested] else [.running]) = .ok a) ∧
      ∃ artifacts, c = { tables := { t with artifacts := artifacts } } := by
  simp only [persistArtifacts, Txn.bind_ok] at h
  obtain ⟨a, ha, h⟩ := h
  split at h
  · cases h
  · exact ⟨⟨a, ha⟩, _, (Txn.pure_ok.mp h).symm⟩

end

end Tables

end ExecutorService
