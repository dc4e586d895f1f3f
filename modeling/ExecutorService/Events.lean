/-
Event writers.

The builders of `execution_worker/event_writer/`: each reads the tables as the
transaction has left them so far and returns the payloads it persists, in order.
A builder that finds no Attempt or Operation to name raises, which rolls the
transaction back.  `EventLog.persistAll` validates the payloads of one
transaction against the public contract (`infrastructure/events.py`) and appends
them with the next sequence numbers, in `execution_events` and in the outbox.

* `validateExecutionEventPayload_subject` — validation keeps an event's subject;
* `EventLog.persistAll_ok` — what persisting appends: one row per payload, of the
  same subject, in order.
-/
import ExecutorService.Codec
import ExecutorService.Rows
import Mathlib.Data.List.Dedup
import Mathlib.Data.List.Sort

namespace ExecutorService

/-- `text or default`: an empty text counts as missing. -/
def textOr (text : Option String) (default : String) : String :=
  match text with
  | some s => if s = "" then default else s
  | none => default

/-! ### The public contract -/

/-- `ResultReference.validate_relative_path`. -/
def ResultRef.validate (ref : ResultRef) : Txn ResultRef :=
  let path := ref.relativePath.toList.map fun c => if c = '\\' then '/' else c
  if ref.relativePath.length < 1 ∨ ref.relativePath.length > 4096 then
    .error (.value "relative_path length")
  else if ref.checksumSha256.length ≠ 64 ∨
      ¬ ref.checksumSha256.toList.all (fun c => c.isDigit || ('a' ≤ c && c ≤ 'f')) then
    .error (.value "checksum_sha256 pattern")
  else if (path.splitOn '/').any fun part => part = [] ∨ part = ['.'] ∨ part = ['.', '.'] then
    .error (.value "Result relative_path must stay below its root.")
  else .ok { ref with relativePath := String.ofList path }

/-- `OutputSummary.validate_content_types`. -/
def EventOutputSummary.validate (summary : EventOutputSummary) : Txn EventOutputSummary :=
  if summary.contentTypes.any fun item => Codec.strip item.toList = [] then
    .error (.value "Output content types must not be blank.")
  else .ok { summary with contentTypes := summary.contentTypes.dedup.insertionSort (· ≤ ·) }

/-- The constraints of an error. -/
def EventError.validate (error : EventError) : Txn Unit :=
  if error.code.length < 1 ∨ error.code.length > 128 then .error (.value "code length")
  else if error.message.length < 1 ∨ error.message.length > 2000 then
    .error (.value "message length")
  else .ok ()

/-- The constraints of an Attempt. -/
def AttemptRef.validate (attempt : AttemptRef) : Txn Unit :=
  if attempt.number < 1 then .error (.value "attempt number") else .ok ()

/-- The constraints of an Operation. -/
def OperationRef.validate (operation : OperationRef) : Txn Unit :=
  if operation.number < 1 then .error (.value "operation number") else .ok ()

/-- A field that may be null. -/
def validateOption {α β : Type} (validate : α → Txn β) : Option α → Txn (Option β)
  | none => .ok none
  | some a => (validate a).map some

/-- `StepResult.validate_outcome`; only the reference is normalised. -/
def StepResultEntry.validate (entry : StepResultEntry) : Txn StepResultEntry := do
  entry.attempt.validate
  let resultRef ← validateOption ResultRef.validate entry.resultRef
  if ¬ (entry.status = .succeeded ∨ entry.status = .failed ∨ entry.status = .cancelled) then
    .error (.value "step result status")
  else if entry.status = .succeeded ∧ resultRef = none then
    .error (.value "A successful Step result requires a reference.")
  else if entry.status = .succeeded ∧ resultRef.any (!·.complete) then
    .error (.value "A successful Step requires complete output.")
  else .ok { entry with resultRef := resultRef }

/-- `validate_execution_event_payload`.  The caller identity echoed in
`execution.completed` is not modelled, so its bounds are not checked here. -/
def validateExecutionEventPayload : EventPayload → Txn EventPayload
  | .started provider profile targetId sessionId =>
    if profile.length < 1 ∨ profile.length > 128 then .error (.value "profile length")
    else .ok (.started provider profile targetId sessionId)
  | .operationStarted operation stepCount => do
    operation.validate
    if stepCount < 1 then .error (.value "step_count")
    else .ok (.operationStarted operation stepCount)
  | .stepStarted operation step attempt => do
    operation.validate
    attempt.validate
    return .stepStarted operation step attempt
  | .stepHandoverStarted operation step attempt reason detectedAt => do
    operation.validate
    attempt.validate
    return .stepHandoverStarted operation step attempt reason detectedAt
  | .stepHandoverCompleted operation step attempt pausedSeconds finished => do
    operation.validate
    attempt.validate
    if pausedSeconds < 0 then .error (.value "paused_seconds")
    else return .stepHandoverCompleted operation step attempt pausedSeconds finished
  | .stepCompleted status operation step attempt resultRef outputSummary error => do
    operation.validate
    attempt.validate
    let resultRef ← validateOption ResultRef.validate resultRef
    let outputSummary ← validateOption EventOutputSummary.validate outputSummary
    let _ ← validateOption EventError.validate error
    if ¬ (status = .succeeded ∨ status = .failed ∨ status = .cancelled) then
      .error (.value "step status")
    else if status = .succeeded ∧ (resultRef = none ∨ outputSummary = none) then
      .error (.value "A successful Step requires its persisted result.")
    else if status = .succeeded ∧ resultRef.any (!·.complete) then
      .error (.value "A successful Step requires complete output.")
    else if status = .succeeded ∧ error ≠ none then
      .error (.value "A successful Step cannot contain an error.")
    else if status ≠ .succeeded ∧ error = none then
      .error (.value "A failed or cancelled Step requires an error.")
    else if resultRef.isNone ≠ outputSummary.isNone then
      .error (.value "Result reference and output summary must agree.")
    else .ok (.stepCompleted status operation step attempt resultRef outputSummary error)
  | .operationCompleted status executionStatus operation stepSummary stepResults
      continuation error => do
    operation.validate
    let stepResults ← stepResults.mapM StepResultEntry.validate
    let _ ← validateOption EventError.validate error
    let sequences := stepResults.map (·.sequence)
    if ¬ status.isTerminal then .error (.value "operation status")
    else if ¬ (executionStatus = .waitingForOperation ∨ executionStatus.isTerminal) then
      .error (.value "execution_status")
    else if stepSummary.completed ≠
          stepSummary.succeeded + stepSummary.failed + stepSummary.cancelled ∨
        stepSummary.completed > stepSummary.total then
      .error (.value "Step summary counts are inconsistent.")
    else if status = .succeeded ∧ error ≠ none then
      .error (.value "A successful Operation cannot contain an error.")
    else if status ≠ .succeeded ∧ error = none then
      .error (.value "A failed or cancelled Operation requires an error.")
    else if continuation ≠ none ∧ executionStatus ≠ .waitingForOperation then
      .error (.value "Continuation requires WAITING_FOR_OPERATION.")
    else if sequences ≠ sequences.dedup.insertionSort (· ≤ ·) then
      .error (.value "Operation Step results must have unique ordered sequences.")
    else .ok (.operationCompleted status executionStatus operation stepSummary stepResults
      continuation error)
  | .completed status finalizedBy operationSummary retry error => do
    let _ ← validateOption EventError.validate error
    if ¬ status.isTerminal then .error (.value "execution status")
    else if operationSummary.succeeded + operationSummary.failed + operationSummary.cancelled >
        operationSummary.total then
      .error (.value "Operation summary counts are inconsistent.")
    else if status = .succeeded ∧ (retry ≠ none ∨ error ≠ none) then
      .error (.value "A successful Execution cannot contain retry or error.")
    else if status ≠ .succeeded ∧ error = none then
      .error (.value "A failed or cancelled Execution requires an error.")
    else if status ≠ .failed ∧ retry ≠ none then
      .error (.value "Only a failed Execution can be retried.")
    else .ok (.completed status finalizedBy operationSummary retry error)

/-! ### Subjects -/

/-- What an event is about: its type and the rows it names. -/
inductive EventSubject
  | started
  | operationStarted (operationId : UUID)
  | stepStarted (stepId attemptId : UUID)
  | stepCompleted (status : StepStatus) (stepId attemptId : UUID)
  | stepHandoverStarted (stepId attemptId : UUID)
  | stepHandoverCompleted (stepId attemptId : UUID)
  | operationCompleted (operationId : UUID) (status : OperationStatus)
  | completed (status : ExecutionStatus)
  deriving DecidableEq, Repr

/-- What an event is about. -/
def EventPayload.subject : EventPayload → EventSubject
  | .started .. => .started
  | .operationStarted operation _ => .operationStarted operation.id
  | .stepStarted _ step attempt => .stepStarted step.id attempt.id
  | .stepCompleted status _ step attempt .. => .stepCompleted status step.id attempt.id
  | .stepHandoverStarted _ step attempt .. => .stepHandoverStarted step.id attempt.id
  | .stepHandoverCompleted _ step attempt .. => .stepHandoverCompleted step.id attempt.id
  | .operationCompleted status _ operation .. => .operationCompleted operation.id status
  | .completed status .. => .completed status

/-- Normalising a payload changes neither its type nor the rows it names. -/
theorem validateExecutionEventPayload_subject {p p' : EventPayload}
    (h : validateExecutionEventPayload p = .ok p') : p'.subject = p.subject := by
  cases p <;> simp only [validateExecutionEventPayload, Txn.bind_ok] at h
  case started =>
    split at h
    · cases h
    · cases h
      rfl
  case operationStarted =>
    obtain ⟨_, _, h⟩ := h
    split at h
    · cases h
    · cases h
      rfl
  case stepStarted =>
    obtain ⟨_, _, _, _, h⟩ := h
    cases h
    rfl
  case stepHandoverStarted =>
    obtain ⟨_, _, _, _, h⟩ := h
    cases h
    rfl
  case stepHandoverCompleted =>
    obtain ⟨_, _, _, _, h⟩ := h
    split at h
    · cases h
    · cases h
      rfl
  case stepCompleted =>
    obtain ⟨_, _, _, _, _, _, _, _, _, _, h⟩ := h
    repeat' split at h
    all_goals first | cases h; rfl | cases h
  case operationCompleted =>
    obtain ⟨_, _, _, _, _, _, h⟩ := h
    repeat' split at h
    all_goals first | cases h; rfl | cases h
  case completed =>
    obtain ⟨_, _, h⟩ := h
    repeat' split at h
    all_goals first | cases h; rfl | cases h

/-- An `operation_completed` event of the contract names a terminal status. -/
theorem validateExecutionEventPayload_terminal {p p' : EventPayload} {operationId : UUID}
    {status : OperationStatus} (h : validateExecutionEventPayload p = .ok p')
    (hp : p.subject = .operationCompleted operationId status) : status.isTerminal = true := by
  cases p <;> simp only [EventPayload.subject, reduceCtorEq, EventSubject.operationCompleted.injEq]
    at hp
  obtain ⟨_, rfl⟩ := hp
  simp only [validateExecutionEventPayload, Txn.bind_ok] at h
  obtain ⟨_, _, _, _, _, _, h⟩ := h
  split at h
  · cases h
  · rename_i hterminal
    exact not_not.mp hterminal

/-- The payload of `execution.completed` is stored as it was built. -/
theorem validateExecutionEventPayload_completed {status : ExecutionStatus}
    {finalizedBy : Option FinalizedBy} {summary : OperationSummary} {retry : Option RetryOffer}
    {error : Option EventError} {p : EventPayload}
    (h : validateExecutionEventPayload (.completed status finalizedBy summary retry error) =
      .ok p) : p = .completed status finalizedBy summary retry error := by
  simp only [validateExecutionEventPayload, Txn.bind_ok] at h
  obtain ⟨_, _, h⟩ := h
  repeat' split at h
  all_goals first | exact (Except.ok.inj h).symm | cases h

/-! ### Persisting -/

/-- The outbox row written beside an event row. -/
def EventRow.toOutbox (row : EventRow) : OutboxRow :=
  ⟨row.eventSequence, row.payload, .pending, 0, row.createdAt, none⟩

namespace EventLog

/-- `persist_execution_event`: a validated payload takes the next sequence
number, an event row and a PENDING outbox row. -/
def persist (now : Time) (log : EventLog) (payload : EventPayload) : Txn EventLog := do
  let payload ← validateExecutionEventPayload payload
  let row : EventRow := ⟨log.lastSequence + 1, payload, now⟩
  return { lastSequence := log.lastSequence + 1
           events := log.events ++ [row]
           outbox := log.outbox ++ [row.toOutbox]
           history := log.history ++ [row] }

/-- The events of one transaction, in the order they were built. -/
def persistAll (now : Time) (payloads : List EventPayload) (log : EventLog) : Txn EventLog :=
  payloads.foldlM (persist now) log

/-- An `execution.started` row is still in the outbox. -/
def outboxHasStarted (log : EventLog) : Bool :=
  log.outbox.any (·.payload.subject == .started)

/-- An `operation_started` row of the Operation is still among the events. -/
def eventsHaveOperationStarted (operationId : UUID) (log : EventLog) : Bool :=
  log.events.any (·.payload.subject == .operationStarted operationId)

/-- The log with event rows appended, in the event table and in the outbox. -/
def append (rows : List EventRow) (log : EventLog) : EventLog where
  lastSequence := log.lastSequence + rows.length
  events := log.events ++ rows
  outbox := log.outbox ++ rows.map (·.toOutbox)
  history := log.history ++ rows

/-- Persisting appends one row per payload, in order, with whatever validation keeps. -/
theorem persistAll_map {β : Type} {f : EventPayload → β}
    (hf : ∀ {p p'}, validateExecutionEventPayload p = .ok p' → f p' = f p) {now : Time}
    {payloads : List EventPayload} {log log' : EventLog}
    (h : log.persistAll now payloads = .ok log') :
    ∃ rows : List EventRow,
      rows.map (fun row => f row.payload) = payloads.map f ∧ log' = log.append rows := by
  induction payloads generalizing log with
  | nil =>
    simp only [persistAll, List.foldlM_nil, Txn.pure_ok] at h
    exact ⟨[], rfl, by simp [append, ← h]⟩
  | cons p payloads ih =>
    simp only [persistAll, List.foldlM_cons, Txn.bind_ok] at h
    obtain ⟨mid, hmid, hrest⟩ := h
    obtain ⟨rows, hrows, rfl⟩ := ih hrest
    simp only [persist, Txn.bind_ok, Txn.pure_ok] at hmid
    obtain ⟨p', hp', rfl⟩ := hmid
    refine ⟨⟨log.lastSequence + 1, p', now⟩ :: rows, ?_, ?_⟩
    · simp [hrows, hf hp']
    · simp only [append, List.length_cons, List.append_assoc, List.singleton_append,
        List.map_cons, EventLog.mk.injEq, and_true]
      omega

/-- Persisting appends one row per payload, of the same subject, in order. -/
theorem persistAll_ok {now : Time} {payloads : List EventPayload} {log log' : EventLog}
    (h : log.persistAll now payloads = .ok log') :
    ∃ rows : List EventRow,
      rows.map (·.payload.subject) = payloads.map (·.subject) ∧ log' = log.append rows :=
  persistAll_map validateExecutionEventPayload_subject h

/-- The last event of a transaction is the last of the log. -/
theorem persistAll_last {now : Time} {payloads : List EventPayload} {p : EventPayload}
    {log log' : EventLog} (h : log.persistAll now (payloads ++ [p]) = .ok log') :
    ∃ row, validateExecutionEventPayload p = .ok row.payload ∧
      log'.history.getLast? = some row := by
  simp only [persistAll, List.foldlM_append, List.foldlM_cons, List.foldlM_nil, Txn.bind_ok,
    Txn.pure_ok] at h
  obtain ⟨mid, _, log'', hlast, rfl⟩ := h
  simp only [persist, Txn.bind_ok, Txn.pure_ok] at hlast
  obtain ⟨p', hp', rfl⟩ := hlast
  exact ⟨_, hp', List.getLast?_concat⟩

/-- Every payload of a committed transaction is valid. -/
theorem persistAll_valid {now : Time} {payloads : List EventPayload} {log log' : EventLog}
    (h : log.persistAll now payloads = .ok log') :
    ∀ p ∈ payloads, ∃ p', validateExecutionEventPayload p = .ok p' := by
  induction payloads generalizing log with
  | nil => simp
  | cons p payloads ih =>
    simp only [persistAll, List.foldlM_cons, Txn.bind_ok] at h
    obtain ⟨mid, hmid, hrest⟩ := h
    simp only [persist, Txn.bind_ok] at hmid
    obtain ⟨p', hp', _⟩ := hmid
    intro q hq
    rcases List.mem_cons.mp hq with rfl | hq
    · exact ⟨p', hp'⟩
    · exact ih hrest q hq

end EventLog

namespace Tables

/-! ### Payload parts -/

/-- An Attempt, as events name it. -/
def attemptRef (a : AttemptRow) : AttemptRef :=
  ⟨a.id, a.attemptNumber, if a.attemptNumber = 1 then .initial else .retry⟩

/-- `attempt_payload`. -/
def attemptPayload (t : Tables) (attemptId : UUID) : Txn AttemptRef :=
  match t.attempt? attemptId with
  | some a => .ok (attemptRef a)
  | none => .error (.value "Execution Attempt was not found.")

/-- `operation_payload`. -/
def operationPayload (t : Tables) (operationId : UUID) : Txn OperationRef :=
  match t.operation? operationId with
  | some o => .ok ⟨o.id, o.operationNumber⟩
  | none => .error (.value "Execution Operation was not found.")

/-- The reference to a result that was just sealed. -/
def storedResultReference (d : StepResultDescriptor) : ResultRef :=
  ⟨d.reference.relativePath, d.reference.sizeBytes, d.reference.checksumSha256, d.complete⟩

/-- The reference to a result, from the columns of its row. -/
def rowResultReference (c : ResultColumns) : Option ResultRef := do
  let complete ← c.complete
  let path ← c.manifestPath
  let checksum ← c.manifestChecksumSha256
  let size ← c.manifestSizeBytes
  return ⟨path, size, checksum, complete⟩

/-- `sorted(set(mime_types))`. -/
def sortedMimeTypes (mimeTypes : List String) : List String :=
  mimeTypes.dedup.insertionSort (· ≤ ·)

/-- The outputs of a result that was just sealed. -/
def eventOutputSummary (d : StepResultDescriptor) : EventOutputSummary :=
  ⟨d.outputCount, sortedMimeTypes d.outputSummary.mimeTypes⟩

/-- The status of a Step, as a text. -/
def stepStatusText : StepStatus → String
  | .pending => "pending"
  | .running => "running"
  | .succeeded => "succeeded"
  | .failed => "failed"
  | .skipped => "skipped"
  | .cancelled => "cancelled"

/-- The error of a Step. -/
def stepError (status : StepStatus) (message : String) (retryable : Bool) : EventError where
  code := if status = .cancelled then "STEP_CANCELLED" else "STEP_EXECUTION_FAILED"
  message := message
  retryable := retryable

/-! ### Step events -/

/-- `add_step_started_event`. -/
def addStepStartedEvent (t : Tables) (attemptId : UUID) (step : ExecutionStep) :
    Txn (List EventPayload) := do
  let operation ← t.operationPayload step.operationId
  let attempt ← t.attemptPayload attemptId
  return [.stepStarted operation ⟨step.id, step.sequence⟩ attempt]

/-- `add_step_completed_event`. -/
def addStepCompletedEvent (t : Tables) (attemptId : UUID) (step : ExecutionStep)
    (status : StepStatus) (stored : StepResultDescriptor) (errorMessage : Option String)
    (retryable : Bool) : Txn (List EventPayload) := do
  let operation ← t.operationPayload step.operationId
  let attempt ← t.attemptPayload attemptId
  let error := if status = .succeeded then none
    else some (stepError status
      (textOr errorMessage ("Step was " ++ stepStatusText status ++ ".")) retryable)
  return [.stepCompleted status operation ⟨step.id, step.sequence⟩ attempt
    (some (storedResultReference stored)) (some (eventOutputSummary stored)) error]

/-- `add_step_history_completed_event`: the end of a Step attempt another
function closes.  A missing Step or Step attempt emits nothing. -/
def addStepHistoryCompletedEvent (t : Tables) (stepId attemptId : UUID) (status : StepStatus)
    (errorMessage : String) (retryable : Bool) : Txn (List EventPayload) :=
  match t.step? stepId, t.stepAttempts.find? fun h =>
      h.executionStepId == stepId && h.executionAttemptId == attemptId with
  | some step, some history => do
    let operation ← t.operationPayload step.operationId
    let attempt ← t.attemptPayload attemptId
    let resultRef := rowResultReference history.result
    let summary := resultRef.map fun _ => EventOutputSummary.mk
      history.result.outputSummary.outputCount
      (sortedMimeTypes history.result.outputSummary.mimeTypes)
    return [.stepCompleted status operation ⟨step.id, step.sequence⟩ attempt
      resultRef summary (some (stepError status errorMessage retryable))]
  | _, _ => .ok []

/-- One history event per running Step attempt, in the order they were read. -/
def addStepHistoryCompletedEvents (t : Tables) (running : List (UUID × UUID))
    (status : StepStatus) (errorMessage : String) (retryable : Bool) :
    Txn (List EventPayload) := do
  let events ← running.mapM fun p =>
    t.addStepHistoryCompletedEvent p.1 p.2 status errorMessage retryable
  return events.flatten

/-! ### Start events -/

/-- `add_start_events`: whether a start was announced before is read off the
outbox for the Execution and off the event table for the Operation. -/
def addStartEvents (t : Tables) (log : EventLog) : List EventPayload :=
  match t.execution.runtimeTargetId, t.execution.runtimeSessionId with
  | some targetId, some sessionId =>
    let started :=
      if log.outboxHasStarted then []
      else [.started t.execution.runtimeType t.execution.runtimeProfile targetId sessionId]
    match t.execution.activeOperationId with
    | none => started
    | some operationId =>
      if t.execution.finalizationRequested then started
      else match t.operation? operationId with
        | none => started
        | some operation =>
          if log.eventsHaveOperationStarted operationId then started
          else started ++ [.operationStarted ⟨operation.id, operation.operationNumber⟩
            (t.steps.countP (·.operationId == operationId))]
  | _, _ => []

/-! ### Completion events -/

/-- The Step attempt with the largest attempt number, with that Attempt. -/
def latestStepAttempt (t : Tables) (stepId : UUID) : Option (StepAttemptRow × AttemptRow) :=
  (t.stepAttempts.filter (·.executionStepId == stepId)).foldl
    (fun best h => match t.attempt? h.executionAttemptId, best with
      | some a, some (bh, ba) =>
        if a.attemptNumber ≥ ba.attemptNumber then some (h, a) else some (bh, ba)
      | some a, none => some (h, a)
      | none, best => best) none

/-- The finished Steps of an Operation. -/
def stepResults (t : Tables) (steps : List ExecutionStep) : List StepResultEntry :=
  steps.filterMap fun step =>
    if step.status = .succeeded ∨ step.status = .failed ∨ step.status = .cancelled then
      match t.latestStepAttempt step.id with
      | none => none
      | some (history, attempt) =>
        let resultRef := rowResultReference history.result
        if step.status = .succeeded ∧ resultRef = none then none
        else some ⟨step.id, step.sequence, step.status, attemptRef attempt, resultRef⟩
    else none

/-- Text of a failure type in an error code. -/
def failureCode : FailureType → String
  | .toolError => "TOOL_ERROR"
  | .infrastructureError => "INFRASTRUCTURE_ERROR"
  | .workerShutdown => "WORKER_SHUTDOWN"
  | .runtimeUnavailable => "RUNTIME_UNAVAILABLE"
  | .leaseExpired => "LEASE_EXPIRED"
  | .internalError => "INTERNAL_ERROR"
  | .operationWaitTimeout => "OPERATION_WAIT_TIMEOUT"
  | .operationTimeout => "OPERATION_TIMEOUT"
  | .stepTimeout => "STEP_TIMEOUT"
  | .executionTimeout => "EXECUTION_TIMEOUT"
  | .queueTimeout => "QUEUE_TIMEOUT"
  | .outputLimitExceeded => "OUTPUT_LIMIT_EXCEEDED"
  | .runtimeSessionLost => "RUNTIME_SESSION_LOST"
  | .completionFailed => "COMPLETION_FAILED"

/-- The status of an Operation, as a text. -/
def operationStatusText : OperationStatus → String
  | .queued => "queued"
  | .running => "running"
  | .succeeded => "succeeded"
  | .failed => "failed"
  | .cancelled => "cancelled"

/-- The code of an Operation's error, by what failed. -/
def operationErrorCode (operation : OperationRow) (failureType : Option FailureType) : String :=
  if operation.status = .cancelled then "OPERATION_CANCELLED"
  else if failureType = some .completionFailed then "OPERATION_COMPLETION_FAILED"
  else match operation.failureType with
    | some .executionTimeout => "OPERATION_" ++ failureCode .executionTimeout
    | some .queueTimeout => "OPERATION_" ++ failureCode .queueTimeout
    | _ => "OPERATION_STEP_FAILED"

/-- The continuation that a completed Operation offers. -/
def continuation (t : Tables) : Option Continuation :=
  if t.execution.status = .waitingForOperation then
    t.execution.operationWaitExpiresAt.map fun expiry => ⟨t.execution.version, expiry⟩
  else none

/-- The event of a completed Operation. -/
def operationCompletedPayload (t : Tables) (operation : OperationRow) : EventPayload :=
  let steps := (t.steps.filter (·.operationId == operation.id)).insertionSort
    (·.sequence ≤ ·.sequence)
  let count (s : StepStatus) := steps.countP (·.status == s)
  let error : Option EventError :=
    if operation.status = .succeeded then none
    else some {
      code := operationErrorCode operation t.execution.failureType
      message := textOr operation.errorMessage
        ("Operation was " ++ operationStatusText operation.status ++ ".")
      stepId := (steps.find? (·.status == .failed)).map (·.id)
      retryable := t.continuation.isSome || t.execution.retryStrategy != .notRetryable }
  .operationCompleted operation.status t.execution.status
    ⟨operation.id, operation.operationNumber⟩
    { total := steps.length
      completed := count .succeeded + count .failed + count .cancelled
      succeeded := count .succeeded
      failed := count .failed
      cancelled := count .cancelled }
    (t.stepResults steps) t.continuation error

/-- `add_operation_completed_event`: no Operation row, no event. -/
def addOperationCompletedEvent (t : Tables) (operationId : UUID) : List EventPayload :=
  match t.operation? operationId with
  | none => []
  | some operation => [t.operationCompletedPayload operation]

/-- The status of an Execution, as a text. -/
def executionStatusText : ExecutionStatus → String
  | .queued => "queued"
  | .running => "running"
  | .waitingForOperation => "waiting_for_operation"
  | .finalizing => "finalizing"
  | .cancelRequested => "cancel_requested"
  | .cancelled => "cancelled"
  | .succeeded => "succeeded"
  | .failed => "failed"

/-- The Step a retry would start from. -/
def failedStep (t : Tables) : Option ExecutionStep :=
  t.execution.retryFromSequence.bind t.stepAt?

/-- The retry object: both deadlines are read from the row. -/
def retryOffer (t : Tables) : Option RetryOffer := do
  let step ← t.failedStep
  let deadline ← t.execution.retainedRuntimeSessionUntil.or t.execution.executionExpiresAt
  guard (t.execution.status = .failed ∧ t.execution.retryStrategy ≠ .notRetryable)
  return ⟨step.id, deadline⟩

/-- The event of a completed Execution. -/
def completedPayload (t : Tables) : EventPayload :=
  let e := t.execution
  let count (s : OperationStatus) := t.operations.countP (·.status == s)
  let error : Option EventError :=
    if e.status = .succeeded then none
    else some {
      code := if e.status = .cancelled then "EXECUTION_CANCELLED"
        else "EXECUTION_" ++ (e.failureType.map failureCode).getD "FAILED"
      message := textOr e.errorMessage (textOr e.cancellationReason
        ("Execution was " ++ executionStatusText e.status ++ "."))
      operationId := (e.activeOperationId.bind t.operation?).map (·.id)
      stepId := t.failedStep.map (·.id)
      retryable := t.retryOffer.isSome }
  .completed e.status e.finalizedBy
    { total := t.operations.length
      succeeded := count .succeeded
      failed := count .failed
      cancelled := count .cancelled }
    t.retryOffer error

/-- `add_execution_completed_event`. -/
def addExecutionCompletedEvent (t : Tables) : List EventPayload :=
  [t.completedPayload]

/-! ### Subjects of the builders -/

theorem addStepHistoryCompletedEvent_subject {t : Tables} {stepId attemptId : UUID}
    {status : StepStatus} {message : String} {retryable : Bool} {events : List EventPayload}
    (h : t.addStepHistoryCompletedEvent stepId attemptId status message retryable = .ok events) :
    ∀ e ∈ events, ∃ s a, e.subject = .stepCompleted status s a := by
  unfold addStepHistoryCompletedEvent at h
  split at h
  · simp only [Txn.bind_ok, Txn.pure_ok] at h
    obtain ⟨_, _, _, _, rfl⟩ := h
    simp [EventPayload.subject]
  · cases h
    simp

theorem addStepHistoryCompletedEvents_subject {t : Tables} {running : List (UUID × UUID)}
    {status : StepStatus} {message : String} {retryable : Bool} {events : List EventPayload}
    (h : t.addStepHistoryCompletedEvents running status message retryable = .ok events) :
    ∀ e ∈ events, ∃ s a, e.subject = .stepCompleted status s a := by
  simp only [addStepHistoryCompletedEvents, Txn.bind_ok, Txn.pure_ok] at h
  obtain ⟨lists, hlists, rfl⟩ := h
  induction running generalizing lists with
  | nil =>
    simp only [List.mapM_nil, Txn.pure_ok] at hlists
    subst hlists
    simp
  | cons p running ih =>
    simp only [List.mapM_cons, Txn.bind_ok, Txn.pure_ok] at hlists
    obtain ⟨events, hevents, rest, hrest, rfl⟩ := hlists
    intro e he
    rw [List.flatten_cons, List.mem_append] at he
    rcases he with he | he
    · exact addStepHistoryCompletedEvent_subject hevents e he
    · exact ih rest hrest e he

theorem addOperationCompletedEvent_subject (t : Tables) (operationId : UUID) :
    (t.addOperationCompletedEvent operationId).map (·.subject) =
      ((t.operation? operationId).map fun o =>
        EventSubject.operationCompleted o.id o.status).toList := by
  unfold addOperationCompletedEvent
  cases t.operation? operationId <;> rfl

theorem addExecutionCompletedEvent_subject (t : Tables) :
    t.addExecutionCompletedEvent.map (·.subject) = [.completed t.execution.status] := rfl

end Tables

end ExecutorService
