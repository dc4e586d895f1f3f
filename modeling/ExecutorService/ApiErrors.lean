/-
Errors of the API (`domain/errors.py`, `interfaces/error_body.py`).

A domain error has a code, a message and the fields it is about; REST answers it
with the status of its class, MCP with a text.  The messages are those of the
handlers and of the domain object: `StoreError` keeps only the kind of an error, so
`Command.failure` and `SubmitRequest.failure` read the message off the rows and the
request that raised it.

* `Command.call` — a lifecycle command that nothing else overtakes, with the error it
  raises.
-/
import ExecutorService.CommandCalls
import ExecutorService.Submissions

namespace ExecutorService

/-! ### Error bodies -/

/-- The codes that Execution and Artifact requests answer. -/
inductive ErrorCode
  | invalidIdentity | executionNotFound | executionAttemptNotFound | executionOperationNotFound
  | executionNotebookNotAvailable | notebookCellNotFound | notebookReadError | artifactNotFound
  | artifactContentUnavailable | artifactRangeNotSatisfiable | invalidExecutionSpec | invalidCursor
  | unsupportedRuntimeProfile | unsupportedRuntimeCapability | artifactRegistrationError
  | invalidStateTransition | executionVersionConflict | idempotencyConflict | persistenceConflict
  | internalError
  deriving DecidableEq, Repr

namespace ErrorCode

/-- The code as the API writes it. -/
def value : ErrorCode → String
  | .invalidIdentity => "INVALID_IDENTITY"
  | .executionNotFound => "EXECUTION_NOT_FOUND"
  | .executionAttemptNotFound => "EXECUTION_ATTEMPT_NOT_FOUND"
  | .executionOperationNotFound => "EXECUTION_OPERATION_NOT_FOUND"
  | .executionNotebookNotAvailable => "EXECUTION_NOTEBOOK_NOT_AVAILABLE"
  | .notebookCellNotFound => "NOTEBOOK_CELL_NOT_FOUND"
  | .notebookReadError => "NOTEBOOK_READ_ERROR"
  | .artifactNotFound => "ARTIFACT_NOT_FOUND"
  | .artifactContentUnavailable => "ARTIFACT_CONTENT_UNAVAILABLE"
  | .artifactRangeNotSatisfiable => "ARTIFACT_RANGE_NOT_SATISFIABLE"
  | .invalidExecutionSpec => "INVALID_EXECUTION_SPEC"
  | .invalidCursor => "INVALID_CURSOR"
  | .unsupportedRuntimeProfile => "UNSUPPORTED_RUNTIME_PROFILE"
  | .unsupportedRuntimeCapability => "UNSUPPORTED_RUNTIME_CAPABILITY"
  | .artifactRegistrationError => "ARTIFACT_REGISTRATION_ERROR"
  | .invalidStateTransition => "INVALID_STATE_TRANSITION"
  | .executionVersionConflict => "EXECUTION_VERSION_CONFLICT"
  | .idempotencyConflict => "IDEMPOTENCY_CONFLICT"
  | .persistenceConflict => "PERSISTENCE_CONFLICT"
  | .internalError => "INTERNAL_ERROR"

/-- `http_status` of the error's class; an unexpected error answers 500. -/
def httpStatus : ErrorCode → ℕ
  | .invalidIdentity | .artifactRegistrationError => 400
  | .executionNotFound | .executionAttemptNotFound | .executionOperationNotFound
  | .notebookCellNotFound | .artifactNotFound => 404
  | .executionNotebookNotAvailable | .artifactContentUnavailable | .invalidStateTransition
  | .executionVersionConflict | .idempotencyConflict | .persistenceConflict => 409
  | .artifactRangeNotSatisfiable => 416
  | .notebookReadError | .invalidExecutionSpec | .invalidCursor | .unsupportedRuntimeProfile
  | .unsupportedRuntimeCapability => 422
  | .internalError => 500

end ErrorCode

/-- One field-level problem; `location` is the path of the field in the request. -/
structure ErrorIssue where
  location : List String
  message : String
  type : String
  context : List (String × String) := []
  deriving DecidableEq, Repr

/-- A raised error; `sizeBytes` is the header of an unsatisfiable range. -/
structure ApiError where
  code : ErrorCode
  message : String
  details : List ErrorIssue := []
  sizeBytes : Option ℕ := none
  deriving DecidableEq, Repr

namespace ApiError

/-- `InvalidExecutionSpecError.at`. -/
def invalidSpecAt (location : List String) (message type : String)
    (context : List (String × String) := []) : ApiError where
  code := .invalidExecutionSpec
  message := message
  details := [⟨location, message, type, context⟩]

/-- `ExecutionNotFoundError`. -/
def executionNotFound (executionId : UUID) : ApiError :=
  ⟨.executionNotFound, s!"Execution {executionId} was not found.", [], none⟩

/-- An exception outside the domain errors. -/
def internal : ApiError :=
  ⟨.internalError, "An internal error occurred.", [], none⟩

end ApiError

/-! ### Texts of the domain object -/

/-- The status as the API writes it. -/
def ExecutionStatus.value : ExecutionStatus → String
  | .queued => "QUEUED"
  | .running => "RUNNING"
  | .waitingForOperation => "WAITING_FOR_OPERATION"
  | .finalizing => "FINALIZING"
  | .cancelRequested => "CANCEL_REQUESTED"
  | .cancelled => "CANCELLED"
  | .succeeded => "SUCCEEDED"
  | .failed => "FAILED"

/-- The type as the API writes it. -/
def RuntimeType.value : RuntimeType → String
  | .jupyter => "JUPYTER"

/-- `TriggerType`; the pool of an Execution is its trigger type. -/
def RuntimePool.value : RuntimePool → String
  | .interactive => "INTERACTIVE"
  | .batch => "BATCH"

/-- The message of `require_execution_transition`. -/
def transitionText (current target : ExecutionStatus) : String :=
  let current := current.value
  let target := target.value
  s!"Execution cannot move from {current} to {target}."

namespace Execution

/-- The message of a refused `request_cancel`. -/
def cancelText (e : Execution) : String :=
  let id := e.id
  let status := e.status.value
  if e.status.isTerminal then s!"Execution {id} is already terminal ({status})."
  else transitionText e.status .cancelRequested

/-- The message of a refused `request_retry`. -/
def retryText (now : Time) (e : Execution) : String :=
  let id := e.id
  if e.status ≠ .failed then s!"Execution {id} must be FAILED before retry."
  else if e.operationMode ≠ .single then
    "Only SINGLE executions support explicit retry; MULTI Tool failures require " ++
      "a correction Operation."
  else if e.activeOperationId = none then s!"Execution {id} has no active Operation to retry."
  else match e.retryStrategy with
    | .notRetryable => s!"Execution {id} has no supported retry strategy."
    | .fromFailedStep =>
      if e.hasResumableSession now then transitionText e.status .queued
      else s!"Execution {id} has no resumable retained Runtime session."
    | .fromStart =>
      s!"Execution {id} has unresolved abandoned Runtime session cleanup."

/-- The message of a refused `request_operation`. -/
def operationText (e : Execution) : String :=
  let id := e.id
  if e.operationMode ≠ .multi then "Only MULTI executions accept another Operation."
  else if e.status ≠ .waitingForOperation then
    s!"Execution {id} must be WAITING_FOR_OPERATION before adding an Operation."
  else "Resolved Step source checksum changed before persistence."

/-- The message of a refused `request_finalization`. -/
def finalizationText (e : Execution) : String :=
  let id := e.id
  if e.operationMode ≠ .multi then "Only MULTI executions can be finalized."
  else if e.status ≠ .waitingForOperation then
    s!"Execution {id} must be WAITING_FOR_OPERATION before finalization."
  else "Finalization requires a successful last Operation; append a corrective Operation " ++
    "or cancel the Execution."

/-- The text of a version conflict. -/
def versionText (expectedVersion : ℕ) (e : Execution) : String :=
  let version := e.version
  s!"Execution version is {version}, expected {expectedVersion}."

end Execution

/-! ### Texts of the request validation -/

/-- The first Step that `validate_operation_steps` refuses, with its index. -/
def firstRefusedStep (expectedStart : ℕ) (steps : List StepSpec) : Option (ℕ × StepSpec) :=
  (steps.zipIdx.map fun (step, index) => (index, step)).find? fun (index, step) =>
    step.sequence != expectedStart + index || Codec.strip step.code.toList == []

/-- The first Step whose timeout exceeds the limit, with its index. -/
def firstSlowStep (limit : Time) (steps : List StepSpec) : Option (ℕ × Time) :=
  steps.zipIdx.findSome? fun (step, index) =>
    step.stepTimeoutSeconds.bind fun value => if limit < value then some (index, value) else none

/-- The error of a Step or timeout check, by its type: `location` is where the fields of
the Operation sit in the request and `current` the number of Steps before it. -/
def operationSpecError (settings : Settings) (location : List String) (current : ℕ)
    (operationTimeoutSeconds : Option Time) (steps : List StepSpec) (type : String) : ApiError :=
  let stepsLocation := location ++ ["spec", "steps"]
  let new := steps.length
  let perOperation := settings.maxStepsPerOperation
  let perExecution := settings.maxStepsPerExecution
  let limit := settings.executionMaxRuntimeSeconds
  match type with
  | "too_many_steps" => .invalidSpecAt stepsLocation
      s!"An Operation may carry at most {perOperation} Steps; this one has {new}." type
      [("limit", toString perOperation), ("actual", toString new)]
  | "execution_step_limit_exceeded" => .invalidSpecAt stepsLocation
      (s!"An Execution may hold at most {perExecution} Steps; it has {current} and this " ++
        s!"Operation adds {new}.") type
      [("limit", toString perExecution), ("existing", toString current),
        ("requested", toString new), ("actual", toString (current + new))]
  | "exceeds_max_runtime" => match operationTimeoutSeconds.filter (limit < ·) with
    | some value => .invalidSpecAt (location ++ ["operation_timeout_seconds"])
        (s!"operation_timeout_seconds ({value}) exceeds the Execution maximum runtime of " ++
          s!"{limit} seconds.") type
        [("limit_seconds", toString limit), ("actual_seconds", toString value)]
    | none => match firstSlowStep limit steps with
      | some (index, value) => .invalidSpecAt
          (stepsLocation ++ [toString index, "step_timeout_seconds"])
          (s!"steps[{index}].step_timeout_seconds ({value}) exceeds the Execution maximum " ++
            s!"runtime of {limit} seconds.") type
          [("limit_seconds", toString limit), ("actual_seconds", toString value)]
      | none => .internal
  | "steps_empty" => .invalidSpecAt stepsLocation "An Operation requires at least one Step." type
  | "sequence_not_contiguous" => match firstRefusedStep current steps with
    | some (index, step) =>
      let sequence := step.sequence
      let expected := current + index
      .invalidSpecAt (stepsLocation ++ [toString index, "sequence"])
        (s!"Step sequences must be contiguous and start at {current}; steps[{index}] has " ++
          s!"{sequence}, expected {expected}.") type
        [("expected", toString expected), ("actual", toString sequence)]
    | none => .internal
  | "source_blank" => match firstRefusedStep current steps with
    | some (index, step) =>
      let sequence := step.sequence
      .invalidSpecAt (stepsLocation ++ [toString index, "payload", "source"])
        s!"Step {sequence} source must not be blank." type [("sequence", toString sequence)]
    | none => .internal
  | _ => .internal

/-- `validate_schema_version`. -/
def schemaVersionError (specLocation : List String) (version : String) : ApiError :=
  .invalidSpecAt (specLocation ++ ["schema_version"])
    s!"Only ExecutionSpec schema_version 1.0 is supported, not {version}."
    "unsupported_schema_version" [("expected", "1.0"), ("actual", version)]

namespace SubmitRequest

/-- The error of a check that only a submit makes, by its type. -/
def scopeError (q : SubmitRequest) (type : String) : ApiError :=
  let tenantId := q.tenantId
  let pool := q.runtimePool.value
  match type with
  | "unsupported_schema_version" =>
    schemaVersionError ["body", "operation", "spec"] q.specSchemaVersion
  | "session_without_project" =>
    .invalidSpecAt ["header", "X-Session-Id"] "X-Session-Id requires X-Project-Id." type
  | "reserved_value" =>
    let header := if q.projectId = some "unscoped" then "X-Project-Id" else "X-Session-Id"
    .invalidSpecAt ["header", header]
      s!"'unscoped' is reserved for workspace paths; {header} must not use it." type
      [("actual", "unscoped")]
  | "not_allowed_for_single" =>
    .invalidSpecAt ["body", "lifecycle", "operation_wait_timeout_seconds"]
      "SINGLE execution does not accept operation_wait_timeout_seconds." type
      (q.operationWaitTimeoutSeconds.toList.map fun value => ("actual", toString value))
  | "multi_requires_interactive" => .invalidSpecAt ["body", "trigger", "type"]
      s!"MULTI execution requires INTERACTIVE trigger, not {pool}." type
      [("actual", pool), ("expected", "INTERACTIVE")]
  | "required_for_multi" => .invalidSpecAt ["body", "lifecycle", "operation_wait_timeout_seconds"]
      "MULTI execution requires operation_wait_timeout_seconds." type
  | "invalid_tenant" => .invalidSpecAt ["header", "X-Tenant-Id"]
      "tenant_id must match ^[a-z][a-z0-9-]\x7b1,62\x7d[a-z0-9]$." type [("actual", tenantId)]
  | "reserved_tenant" => .invalidSpecAt ["header", "X-Tenant-Id"]
      s!"tenant_id '{tenantId}' is reserved." type [("actual", tenantId)]
  | _ => .internal

/-- The types of the checks that every Operation passes. -/
def operationSpecTypes : List String :=
  ["too_many_steps", "execution_step_limit_exceeded", "exceeds_max_runtime", "steps_empty",
    "sequence_not_contiguous", "source_blank"]

/-- What a refused submit raises. -/
def failure (settings : Settings) (q : SubmitRequest) : SubmitError → ApiError
  | .rejected (.invalidSpec type) =>
    if type ∈ operationSpecTypes then
      operationSpecError settings ["body", "operation"] 0 q.operationTimeoutSeconds q.steps type
    else q.scopeError type
  | .rejected .invalidStateTransition =>
    ⟨.invalidStateTransition, "Resolved Step source checksum changed before persistence.", [], none⟩
  | .rejected .persistenceConflict =>
    ⟨.persistenceConflict, "A persistence constraint was violated.", [], none⟩
  | .rejected _ => .internal
  | .unsupportedProfile =>
    let profile := q.runtimeProfile
    let runtimeType := q.runtimeType.value
    ⟨.unsupportedRuntimeProfile, s!"runtime_profile '{profile}' is not supported for " ++
      s!"runtime_type '{runtimeType}'.", [], none⟩
  | .unsupportedCapability =>
    let runtimeType := q.runtimeType.value
    ⟨.unsupportedRuntimeCapability, s!"runtime_type '{runtimeType}' keeps no session state " ++
      "between Operations, so it supports only SINGLE.", [], none⟩
  | .idempotencyConflict => ⟨.idempotencyConflict,
      "The submit idempotency_key was already used with a different request.", [], none⟩
  | .persistenceConflict =>
    ⟨.persistenceConflict, "Accepted command has no persisted Operation.", [], none⟩
  | .integrityError => .internal

end SubmitRequest

/-! ### Lifecycle commands -/

namespace Command

/-- A receipt of the key that is not the command's. -/
def receiptConflict : ApiError :=
  ⟨.idempotencyConflict, "idempotency_key was already used with a different command.", [], none⟩

/-- A record of the command without its Operation. -/
def missingOperation : Command → ApiError
  | .create .. =>
    ⟨.persistenceConflict, "Accepted continue command has no Operation receipt.", [], none⟩
  | _ => ⟨.persistenceConflict, "Accepted command has no persisted Operation.", [], none⟩

/-- A conflict at the commit that left no record of the command. -/
def conflict : Command → ApiError
  | .cancel .. => ⟨.idempotencyConflict,
      "The cancel request conflicted with another state change.", [], none⟩
  | .retry _ => ⟨.idempotencyConflict,
      "The retry request conflicted with another state change.", [], none⟩
  | _ => ⟨.idempotencyConflict, "The command conflicted with another state change.", [], none⟩

/-- What a refused command raises. -/
def failure (settings : Settings) (now : Time) (t : Tables) : Command → CommandError → ApiError
  | .cancel .., .store .invalidStateTransition =>
    ⟨.invalidStateTransition, t.execution.toExecution.cancelText, [], none⟩
  | .retry _, .store .invalidStateTransition =>
    ⟨.invalidStateTransition, t.execution.toExecution.retryText now, [], none⟩
  | .finalize .., .store .invalidStateTransition =>
    ⟨.invalidStateTransition, t.execution.toExecution.finalizationText, [], none⟩
  | .finalize _ _ expectedVersion, .store .versionConflict =>
    ⟨.executionVersionConflict, t.execution.toExecution.versionText expectedVersion, [], none⟩
  | .create .., .store .invalidStateTransition =>
    ⟨.invalidStateTransition, t.execution.toExecution.operationText, [], none⟩
  | .create _ c, .store .versionConflict =>
    ⟨.executionVersionConflict, t.execution.toExecution.versionText c.expectedVersion, [], none⟩
  | .create _ c, .store (.invalidSpec type) =>
    operationSpecError settings ["body"] t.steps.length c.operationTimeoutSeconds c.steps type
  | _, _ => .internal

/-- A call between whose parts nothing commits: the second lookup of a conflict finds
what the first one found. -/
def call (settings : Settings) (now : Time) (t : Tables) (command : Command) :
    Tables × Except ApiError (Option UUID) :=
  match CommandService.entry command, command with
  | .done _, .create version _ => (t, .error (schemaVersionError ["body", "spec"] version))
  | _, _ => match command.lookup t with
    | some (.ok operationId) => (t, .ok operationId)
    | some (.error (.store .persistenceConflict)) => (t, .error command.missingOperation)
    | some (.error _) => (t, .error receiptConflict)
    | none => match command.locked settings now t with
      | .unchanged => (t, .ok none)
      | .committed rows operationId => (rows, .ok operationId)
      | .conflict => (t, .error command.conflict)
      | .failed error => (t, .error (command.failure settings now t error))

end Command

end ExecutorService
