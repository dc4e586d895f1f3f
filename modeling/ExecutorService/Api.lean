/-
Execution and Artifact requests (`interfaces/http/executions/`, `interfaces/mcp/server.py`).

`Database` holds every Execution with the rows that carry its id.  A query on one
Execution reads the rows of its record; a query that names another column, such as the
id of an Artifact or of an Attempt, reads the records of all Executions.  The views show
the columns that the rows of the model have: audit columns and metadata are left out.

* `Database` and its queries, under the names of the query services;
* `authorizeExecution` — the rule that hides an Execution from a caller.
-/
import ExecutorService.ApiErrors
import Mathlib.Data.List.Sort

namespace ExecutorService

/-! ### Callers -/

/-- Who calls: the client of the key, and what its headers name. -/
structure Caller where
  client : String
  admin : Bool
  tenantId : Option String
  userId : Option String
  projectId : Option String := none
  sessionId : Option String := none

/-- `require_tenant`. -/
def requireTenant (caller : Caller) : Except ApiError String :=
  match caller.tenantId with
  | none => .error ⟨.invalidIdentity, "This key has no tenant; send X-Tenant-Id.", [], none⟩
  | some tenantId => .ok tenantId

/-- `require_user`. -/
def requireUser (caller : Caller) : Except ApiError String :=
  match caller.userId with
  | none => .error ⟨.invalidIdentity, "X-User-Id is required.", [], none⟩
  | some userId => .ok userId

/-! ### Rows -/

/-- Where an Artifact is stored: on the Runtime's storage, or by its URI. -/
inductive ArtifactStorageType
  | pv | s3
  deriving DecidableEq, Repr

/-- A row of `execution_artifacts`. -/
structure ExecutionArtifact where
  id : UUID
  executionAttemptId : Option UUID := none
  executionStepId : Option UUID := none
  executionStepAttemptId : Option UUID := none
  parentArtifactId : Option UUID := none
  externalParentAssetId : Option String := none
  artifactType : ArtifactType
  storageType : ArtifactStorageType
  status : ArtifactStatus
  name : String
  description : Option String := none
  relativePath : Option String
  mediaType : Option String
  sizeBytes : Option ℕ
  checksumSha256 : Option String
  identityHash : Key
  createdAt : Time
  deriving DecidableEq, Repr

/-- A diagnostic event of an Execution, as the Worker recorded it. -/
structure ExecutionDiagnostic where
  id : UUID
  attemptId : Option UUID
  operationId : Option UUID
  stepId : Option UUID
  stepSequence : Option ℕ
  fencingToken : ℕ
  detail : String
  occurredAt : Time
  createdAt : Time
  deriving DecidableEq, Repr

/-- An Execution with the rows that carry its id.  `materialized` is the `artifact_id`
in the result of a completed materialization receipt, by key. -/
structure ExecutionRecord where
  tenantId : String
  userId : String
  projectId : Option String := none
  sessionId : Option String := none
  tables : Tables
  log : EventLog := {}
  artifacts : List ExecutionArtifact := []
  materialized : List (Key × UUID) := []
  diagnostics : List ExecutionDiagnostic := []

/-- The id of the Execution. -/
def ExecutionRecord.id (r : ExecutionRecord) : UUID :=
  r.tables.execution.id

/-- What the queries read: the Executions with all their rows. -/
structure Database where
  records : List ExecutionRecord := []

namespace Database

/-- The rows of an Execution. -/
def record? (d : Database) (executionId : UUID) : Option ExecutionRecord :=
  d.records.find? (·.id == executionId)

/-- `session.get(ExecutionArtifactORM, artifact_id)`, with the Execution it belongs to. -/
def artifact? (d : Database) (artifactId : UUID) : Option (ExecutionRecord × ExecutionArtifact) :=
  d.records.findSome? fun r => (r.artifacts.find? (·.id == artifactId)).map fun a => (r, a)

/-- The Artifact with an identity hash, of any Execution. -/
def artifactByIdentity? (d : Database) (identityHash : Key) : Option ExecutionArtifact :=
  d.records.findSome? fun r => r.artifacts.find? (·.identityHash == identityHash)

/-- The Step attempts of an Attempt, of any Execution. -/
def stepAttemptsOf (d : Database) (attemptId : UUID) : List StepAttemptRow :=
  d.records.flatMap fun r => r.tables.stepAttempts.filter (·.executionAttemptId == attemptId)

/-- A write to the rows of one Execution. -/
def update (d : Database) (executionId : UUID) (f : ExecutionRecord → ExecutionRecord) : Database :=
  ⟨d.records.updateWhere (·.id == executionId) f⟩

end Database

/-! ### Pages -/

/-- The payload of an opaque cursor, or the error that its decoding raises. -/
inductive Cursor
  | time (kind : String) (createdAt : Time) (id : UUID)
  | integer (kind : String) (value : ℕ)
  | invalid (message : String)
  deriving DecidableEq, Repr

namespace Cursor

/-- `InvalidCursorError`. -/
def error (message : String) : ApiError :=
  ⟨.invalidCursor, message, [], none⟩

/-- The error for a cursor of another collection. -/
def wrongKind : ApiError :=
  error "Cursor does not belong to this collection."

/-- `decode_time_cursor`. -/
def decodeTime (kind : String) : Cursor → Except ApiError (Time × UUID)
  | .time kind' createdAt id => if kind' = kind then .ok (createdAt, id) else .error wrongKind
  | .integer kind' _ =>
    .error (if kind' = kind then error "Cursor payload is invalid." else wrongKind)
  | .invalid message => .error (error message)

/-- `decode_integer_cursor`. -/
def decodeInteger (kind : String) : Cursor → Except ApiError ℕ
  | .integer kind' value => if kind' = kind then .ok value else .error wrongKind
  | .time kind' _ _ =>
    .error (if kind' = kind then error "Cursor position is invalid." else wrongKind)
  | .invalid message => .error (error message)

end Cursor

/-- One page, and the cursor of the next. -/
structure Page (α : Type) where
  items : List α
  nextCursor : Option Cursor
  deriving DecidableEq, Repr

/-- The first `limit` rows, and the cursor of the last of them if there are more. -/
def Page.of {α β : Type} (limit : ℕ) (position : α → Cursor) (view : α → β) (rows : List α) :
    Page β :=
  let fetched := rows.take (limit + 1)
  let shown := fetched.take limit
  { items := shown.map view
    nextCursor := if fetched.length > limit then shown.getLast?.map position else none }

/-- A page of rows ordered by an integer column, after the cursor. -/
def integerPage {α β : Type} (kind : String) (column : α → ℕ) (view : α → β)
    (cursor : Option Cursor) (limit : ℕ) (rows : List α) : Except ApiError (Page β) := do
  let rows ← match cursor with
    | none => pure rows
    | some cursor => do
      let value ← cursor.decodeInteger kind
      pure (rows.filter (value < column ·))
  return Page.of limit (fun row => .integer kind (column row)) view
    (rows.insertionSort fun a b => column a ≤ column b)

/-- A page of rows ordered by time of creation and id, after the cursor. -/
def timePage {α β : Type} (kind : String) (createdAt : α → Time) (id : α → UUID) (view : α → β)
    (cursor : Option Cursor) (limit : ℕ) (rows : List α) : Except ApiError (Page β) := do
  let rows ← match cursor with
    | none => pure rows
    | some cursor => do
      let (time, itemId) ← cursor.decodeTime kind
      pure (rows.filter fun row =>
        time < createdAt row || (createdAt row == time && itemId < id row))
  return Page.of limit (fun row => .time kind (createdAt row) (id row)) view
    (rows.insertionSort fun a b => createdAt a < createdAt b ∨
      (createdAt a = createdAt b ∧ id a ≤ id b))

/-! ### Views -/

/-- `ExecutionSummaryView`. -/
structure ExecutionSummaryView where
  id : UUID
  operationMode : OperationMode
  operationWaitTimeoutSeconds : Option Time
  triggerType : RuntimePool
  userId : String
  projectId : Option String
  sessionId : Option String
  tenantId : String
  status : ExecutionStatus
  version : ℕ
  stepCount : ℕ
  createdAt : Time
  updatedAt : Time
  startedAt : Option Time
  finishedAt : Option Time

/-- `ExecutionDetailView`: the columns beyond those of the summary, except the count. -/
structure ExecutionDetailView where
  id : UUID
  operationMode : OperationMode
  operationWaitTimeoutSeconds : Option Time
  triggerType : RuntimePool
  userId : String
  projectId : Option String
  sessionId : Option String
  tenantId : String
  runtimeType : RuntimeType
  runtimePool : RuntimePool
  runtimeProfile : String
  runtimeTargetId : Option UUID
  runtimeSessionId : Option SessionId
  status : ExecutionStatus
  version : ℕ
  cancellationReason : Option String
  finalizedBy : Option FinalizedBy
  workspacePath : Option String
  notebookPath : Option String
  notebookProjectionStatus : NotebookProjectionStatus
  notebookProjectionAttemptCount : ℕ
  notebookProjectionError : Option String
  notebookProjectedAt : Option Time
  failureType : Option FailureType
  errorMessage : Option String
  retryStrategy : RetryStrategy
  retryCount : ℕ
  retryFromSequence : Option ℕ
  retainedRuntimeSessionUntil : Option Time
  recoveryCount : ℕ
  runtimeSessionCleanupStatus : RuntimeSessionCleanupStatus
  runtimeAbortStatus : RuntimeAbortStatus
  operationWaitExpiresAt : Option Time
  executionExpiresAt : Option Time
  createdAt : Time
  updatedAt : Time
  startedAt : Option Time
  finishedAt : Option Time

/-- `execution_summary_view`. -/
def executionSummaryView (r : ExecutionRecord) (stepCount : ℕ) : ExecutionSummaryView :=
  let e := r.tables.execution
  { id := e.id, operationMode := e.operationMode
    operationWaitTimeoutSeconds := e.operationWaitTimeoutSeconds
    triggerType := e.runtimePool, userId := r.userId, projectId := r.projectId
    sessionId := r.sessionId, tenantId := r.tenantId, status := e.status, version := e.version
    stepCount := stepCount, createdAt := e.createdAt, updatedAt := e.updatedAt
    startedAt := e.startedAt, finishedAt := e.finishedAt }

/-- `execution_detail_view`. -/
def executionDetailView (r : ExecutionRecord) : ExecutionDetailView :=
  let e := r.tables.execution
  { id := e.id, operationMode := e.operationMode
    operationWaitTimeoutSeconds := e.operationWaitTimeoutSeconds
    triggerType := e.runtimePool, userId := r.userId, projectId := r.projectId
    sessionId := r.sessionId, tenantId := r.tenantId
    runtimeType := e.runtimeType, runtimePool := e.runtimePool, runtimeProfile := e.runtimeProfile
    runtimeTargetId := e.runtimeTargetId, runtimeSessionId := e.runtimeSessionId
    status := e.status, version := e.version, cancellationReason := e.cancellationReason
    finalizedBy := e.finalizedBy, workspacePath := e.workspacePath, notebookPath := e.notebookPath
    notebookProjectionStatus := e.notebookProjectionStatus
    notebookProjectionAttemptCount := e.notebookProjectionAttemptCount
    notebookProjectionError := e.notebookProjectionError
    notebookProjectedAt := e.notebookProjectedAt, failureType := e.failureType
    errorMessage := e.errorMessage, retryStrategy := e.retryStrategy, retryCount := e.retryCount
    retryFromSequence := e.retryFromSequence
    retainedRuntimeSessionUntil := e.retainedRuntimeSessionUntil
    recoveryCount := e.recoveryCount
    runtimeSessionCleanupStatus := e.runtimeSessionCleanupStatus
    runtimeAbortStatus := e.runtimeAbortStatus
    operationWaitExpiresAt := e.operationWaitExpiresAt
    executionExpiresAt := e.executionExpiresAt, createdAt := e.createdAt
    updatedAt := e.updatedAt, startedAt := e.startedAt, finishedAt := e.finishedAt }

/-- An Artifact, as the API returns it. -/
structure ExecutionArtifactView where
  id : UUID
  executionId : UUID
  executionAttemptId : Option UUID
  executionStepId : Option UUID
  executionStepAttemptId : Option UUID
  parentArtifactId : Option UUID
  externalParentAssetId : Option String
  artifactType : ArtifactType
  storageType : ArtifactStorageType
  status : ArtifactStatus
  name : String
  description : Option String
  relativePath : Option String
  mediaType : Option String
  sizeBytes : Option ℕ
  checksumSha256 : Option String
  createdAt : Time
  deriving DecidableEq, Repr

/-- `artifact_view`. -/
def artifactView (executionId : UUID) (a : ExecutionArtifact) : ExecutionArtifactView :=
  { id := a.id, executionId := executionId, executionAttemptId := a.executionAttemptId
    executionStepId := a.executionStepId, executionStepAttemptId := a.executionStepAttemptId
    parentArtifactId := a.parentArtifactId, externalParentAssetId := a.externalParentAssetId
    artifactType := a.artifactType, storageType := a.storageType, status := a.status
    name := a.name, description := a.description, relativePath := a.relativePath
    mediaType := a.mediaType, sizeBytes := a.sizeBytes, checksumSha256 := a.checksumSha256
    createdAt := a.createdAt }

/-- An Attempt, as the API returns it, with the number of its Steps. -/
structure ExecutionAttemptView where
  id : UUID
  executionId : UUID
  attemptNumber : ℕ
  runtimeType : RuntimeType
  runtimeProfile : String
  runtimeTargetId : UUID
  runtimeSessionId : Option SessionId
  status : AttemptStatus
  leaseOwner : Option WorkerId
  leaseExpiresAt : Option Time
  heartbeatAt : Time
  errorMessage : Option String
  failureType : Option FailureType
  retryStrategy : RetryStrategy
  runtimeSessionCleanupStatus : RuntimeSessionCleanupStatus
  runtimeAbortStatus : RuntimeAbortStatus
  startedAt : Time
  finishedAt : Option Time
  stepCount : ℕ

/-- `attempt_view`. -/
def attemptView (executionId : UUID) (a : AttemptRow) (stepCount : ℕ) : ExecutionAttemptView :=
  { id := a.id, executionId := executionId, attemptNumber := a.attemptNumber
    runtimeType := a.runtimeType, runtimeProfile := a.runtimeProfile
    runtimeTargetId := a.runtimeTargetId, runtimeSessionId := a.runtimeSessionId
    status := a.status, leaseOwner := a.leaseOwner, leaseExpiresAt := a.leaseExpiresAt
    heartbeatAt := a.heartbeatAt, errorMessage := a.errorMessage, failureType := a.failureType
    retryStrategy := a.retryStrategy
    runtimeSessionCleanupStatus := a.runtimeSessionCleanupStatus
    runtimeAbortStatus := a.runtimeAbortStatus, startedAt := a.startedAt
    finishedAt := a.finishedAt, stepCount := stepCount }

/-- An Operation, as the API returns it. -/
structure ExecutionOperationView where
  id : UUID
  executionId : UUID
  operationNumber : ℕ
  firstSequence : ℕ
  lastSequence : ℕ
  operationTimeoutSeconds : Option Time
  status : OperationStatus
  executionAttemptId : Option UUID
  errorMessage : Option String
  createdAt : Time
  updatedAt : Time
  startedAt : Option Time
  finishedAt : Option Time
  stepCount : ℤ

/-- `operation_view`. -/
def operationView (executionId : UUID) (o : OperationRow) : ExecutionOperationView :=
  { id := o.id, executionId := executionId, operationNumber := o.operationNumber
    firstSequence := o.firstSequence, lastSequence := o.lastSequence
    operationTimeoutSeconds := o.operationTimeoutSeconds, status := o.status
    executionAttemptId := o.executionAttemptId, errorMessage := o.errorMessage
    createdAt := o.createdAt, updatedAt := o.updatedAt, startedAt := o.startedAt
    finishedAt := o.finishedAt, stepCount := (o.lastSequence : ℤ) - o.firstSequence + 1 }

/-- `ExecutionEventView`: an event with the delivery columns of its outbox row. -/
structure ExecutionEventView where
  event : EventRow
  outbox : Option OutboxRow

/-- `OperationResultBundle`. -/
structure OperationResultBundle where
  execution : ExecutionDetailView
  operation : ExecutionOperationView
  steps : List ExecutionStep

/-- `ExecutionResultBundle`. -/
structure ExecutionResultBundle where
  execution : ExecutionDetailView
  operations : List OperationResultBundle
  attempts : List ExecutionAttemptView
  artifacts : List ExecutionArtifactView

/-- `ExecutionCommandResponse`, with the Steps of the Operation it names. -/
structure CommandResponse where
  executionId : UUID
  operation : Option (UUID × List (ℕ × UUID))
  status : ExecutionStatus
  version : ℕ
  createdAt : Time
  updatedAt : Time
  deriving DecidableEq, Repr

/-- The answer, from the rows after the command. -/
def CommandResponse.fromDomain (t : Tables) (operationId : Option UUID) : CommandResponse where
  executionId := t.execution.id
  operation := operationId.map fun id =>
    (id, (t.steps.filter (·.operationId == id)).map fun s => (s.sequence, s.id))
  status := t.execution.status
  version := t.execution.version
  createdAt := t.execution.createdAt
  updatedAt := t.execution.updatedAt

/-! ### Runtime storage -/

/-- A notebook cell; `idempotencyKey` is the `executor` entry of its metadata. -/
structure NotebookCell where
  content : String
  idempotencyKey : Option Key := none
  deriving DecidableEq, Repr

/-- A notebook; `cells` is `none` if the document has no list of cells. -/
structure Notebook where
  metadata : String
  cells : Option (List NotebookCell)
  deriving DecidableEq, Repr

/-- What the Runtime says of a file that it wrote. -/
structure RuntimeFileMetadata where
  path : String
  mediaType : Option String
  sizeBytes : ℕ
  checksumSha256 : String
  deriving DecidableEq, Repr

/-- A range of a file of the Runtime. -/
structure RuntimeFileContent where
  checksumSha256 : String
  start : ℕ
  stop : ℕ
  size : ℕ
  isPartial : Bool
  body : List UInt8
  deriving DecidableEq, Repr

/-- How the Runtime fails to open a file. -/
inductive RuntimeFileError
  | range (message : String) (size : ℕ)
  | unavailable (message : String)
  | other
  deriving DecidableEq, Repr

/-- What the Runtime Targets of a type and pool answer; `none` and `false` are a raised
error. -/
structure RuntimeStorage where
  readNotebook : RuntimeType → Option UUID → String → RuntimePool → Option Notebook
  writeNotebook : RuntimeType → Option UUID → String → Notebook → RuntimePool → Bool
  writeText : RuntimeType → Option UUID → String → String → RuntimePool → Option RuntimeFileMetadata
  openFile : RuntimeType → Option UUID → String → Option String → RuntimePool →
    Except RuntimeFileError RuntimeFileContent

/-- The content of an Artifact, with its name. -/
structure ArtifactContent where
  name : String
  mediaType : String
  content : RuntimeFileContent
  deriving DecidableEq, Repr

/-! ### Queries -/

namespace Database

variable (d : Database)

/-- `queries.execution`, as the record it reads. -/
def execution (executionId : UUID) : Except ApiError ExecutionRecord :=
  match d.record? executionId with
  | none => .error (.executionNotFound executionId)
  | some r => .ok r

/-- The filters of `executions`. -/
structure ExecutionFilter where
  projectId : Option String := none
  sessionId : Option String := none
  triggerType : Option RuntimePool := none
  status : Option ExecutionStatus := none

/-- The rows that `executions` selects for a tenant and a user. -/
def ExecutionFilter.selects (filter : ExecutionFilter) (userId tenantId : Option String)
    (r : ExecutionRecord) : Bool :=
  userId.all (r.userId == ·) && filter.projectId.all (r.projectId == some ·) &&
    filter.sessionId.all (r.sessionId == some ·) && tenantId.all (r.tenantId == ·) &&
    filter.triggerType.all (r.tables.execution.runtimePool == ·) &&
    filter.status.all (r.tables.execution.status == ·)

/-- `executions`: the newest first. -/
def executions (filter : ExecutionFilter) (userId tenantId : Option String)
    (cursor : Option Cursor) (limit : ℕ) : Except ApiError (Page ExecutionSummaryView) := do
  let createdAt (r : ExecutionRecord) : Time := r.tables.execution.createdAt
  let rows := d.records.filter (filter.selects userId tenantId)
  let rows ← match cursor with
    | none => pure rows
    | some cursor => do
      let (time, itemId) ← cursor.decodeTime "executions"
      pure (rows.filter fun r => createdAt r < time || (createdAt r == time && r.id < itemId))
  return Page.of limit (fun r => .time "executions" (createdAt r) r.id)
    (fun r => executionSummaryView r r.tables.steps.length)
    (rows.insertionSort fun a b => createdAt b < createdAt a ∨
      (createdAt a = createdAt b ∧ b.id ≤ a.id))

/-- The error for an Operation of another Execution, or of none. -/
def operationNotFound (executionId operationId : UUID) : ApiError :=
  ⟨.executionOperationNotFound, s!"Execution Operation {operationId} was not found in " ++
    s!"Execution {executionId}.", [], none⟩

/-- The error for an Attempt of another Execution, or of none. -/
def attemptNotFound (executionId attemptId : UUID) : ApiError :=
  ⟨.executionAttemptNotFound, s!"Execution Attempt {attemptId} was not found in " ++
    s!"Execution {executionId}.", [], none⟩

/-- `steps`. -/
def steps (executionId : UUID) (cursor : Option Cursor) (limit : ℕ) :
    Except ApiError (Page ExecutionStep) := do
  let r ← d.execution executionId
  integerPage "execution_steps" (·.sequence) (·) cursor limit r.tables.steps

/-- `step`. -/
def step (executionId stepId : UUID) : Except ApiError ExecutionStep := do
  let r ← d.execution executionId
  match r.tables.step? stepId with
  | none => .error ⟨.executionNotFound, s!"Execution Step {stepId} was not found in " ++
      s!"Execution {executionId}.", [], none⟩
  | some step => .ok step

/-- `operations`. -/
def operations (executionId : UUID) (cursor : Option Cursor) (limit : ℕ) :
    Except ApiError (Page ExecutionOperationView) := do
  let r ← d.execution executionId
  integerPage "execution_operations" (·.operationNumber) (operationView executionId) cursor limit
    r.tables.operations

/-- `operation`, and `require_operation`. -/
def operation (executionId operationId : UUID) : Except ApiError ExecutionOperationView := do
  let r ← d.execution executionId
  match r.tables.operation? operationId with
  | none => .error (operationNotFound executionId operationId)
  | some operation => .ok (operationView executionId operation)

/-- `operation_steps`. -/
def operationSteps (executionId operationId : UUID) (cursor : Option Cursor) (limit : ℕ) :
    Except ApiError (Page ExecutionStep) := do
  let _ ← d.operation executionId operationId
  let r ← d.execution executionId
  integerPage "execution_operation_steps" (·.sequence) (·) cursor limit
    (r.tables.steps.filter (·.operationId == operationId))

/-- `attempts`. -/
def attempts (executionId : UUID) (cursor : Option Cursor) (limit : ℕ) :
    Except ApiError (Page ExecutionAttemptView) := do
  let r ← d.execution executionId
  -- `_step_counts` counts by the id of the Attempt alone.
  integerPage "execution_attempts" (·.attemptNumber)
    (fun a => attemptView executionId a (d.stepAttemptsOf a.id).length) cursor limit
    r.tables.attempts

/-- `attempt`. -/
def attempt (executionId attemptId : UUID) : Except ApiError ExecutionAttemptView := do
  let r ← d.execution executionId
  match r.tables.attempt? attemptId with
  | none => .error (attemptNotFound executionId attemptId)
  | some attempt => .ok (attemptView executionId attempt (d.stepAttemptsOf attemptId).length)

/-- `attempt_steps`. -/
def attemptSteps (executionId attemptId : UUID) (cursor : Option Cursor) (limit : ℕ) :
    Except ApiError (Page StepAttemptRow) := do
  let _ ← d.attempt executionId attemptId
  integerPage "execution_step_attempts" (·.sequence) (·) cursor limit (d.stepAttemptsOf attemptId)

/-- `events`: after a cursor, or after a sequence number. -/
def events (executionId : UUID) (afterSequence : ℕ) (cursor : Option Cursor) (limit : ℕ) :
    Except ApiError (Page ExecutionEventView) := do
  let r ← d.execution executionId
  let after ← match cursor with
    | none => pure afterSequence
    | some cursor => cursor.decodeInteger "execution_events"
  return Page.of limit (fun event => .integer "execution_events" event.eventSequence)
    (fun event => ⟨event, r.log.outbox.find? (·.eventSequence == event.eventSequence)⟩)
    ((r.log.events.filter (after < ·.eventSequence)).insertionSort fun a b =>
      a.eventSequence ≤ b.eventSequence)

/-- `artifacts`. -/
def artifacts (executionId : UUID) (cursor : Option Cursor) (limit : ℕ) :
    Except ApiError (Page ExecutionArtifactView) := do
  let r ← d.execution executionId
  timePage "execution_artifacts" (·.createdAt) (·.id) (artifactView executionId) cursor limit
    r.artifacts

/-- `artifact`; its error is not the one of a hidden Artifact. -/
def artifact (artifactId : UUID) : Except ApiError ExecutionArtifactView :=
  match d.artifact? artifactId with
  | none => .error
      ⟨.artifactNotFound, s!"Execution Artifact {artifactId} was not found.", [], none⟩
  | some (r, a) => .ok (artifactView r.id a)

/-- `operation_result_snapshot`. -/
def operationResult (executionId operationId : UUID) : Except ApiError OperationResultBundle := do
  let r ← d.execution executionId
  let operation ← d.operation executionId operationId
  return ⟨executionDetailView r, operation, (r.tables.steps.filter
    (·.operationId == operationId)).insertionSort fun a b => a.sequence ≤ b.sequence⟩

/-- `execution_result_snapshot`, with the Steps grouped by Operation; here the Step attempts
are counted among those of the Execution. -/
def executionResult (executionId : UUID) : Except ApiError ExecutionResultBundle := do
  let r ← d.execution executionId
  let steps := r.tables.steps.insertionSort fun a b => a.sequence ≤ b.sequence
  let operations := r.tables.operations.insertionSort fun a b =>
    a.operationNumber ≤ b.operationNumber
  let attempts := r.tables.attempts.insertionSort fun a b => a.attemptNumber ≤ b.attemptNumber
  let artifacts := r.artifacts.insertionSort fun a b => a.createdAt < b.createdAt ∨
    (a.createdAt = b.createdAt ∧ a.id ≤ b.id)
  return {
    execution := executionDetailView r
    operations := operations.map fun o =>
      ⟨executionDetailView r, operationView executionId o, steps.filter (·.operationId == o.id)⟩
    attempts := attempts.map fun a => attemptView executionId a
      (r.tables.stepAttempts.countP (·.executionAttemptId == a.id))
    artifacts := artifacts.map (artifactView executionId) }

/-- A UUID of a cursor kind, or `None`. -/
def shown : Option UUID → String
  | none => "None"
  | some id => toString id

/-- `SQLAlchemyDiagnosticQueryService.list`. -/
def diagnostics (executionId : UUID) (attemptId operationId stepId : Option UUID)
    (cursor : Option Cursor) (limit : ℕ) : Except ApiError (Page ExecutionDiagnostic) := do
  -- A `ValueError`; the routes bound the limit before.
  if limit < 1 ∨ 200 < limit then .error .internal
  else
    let kind := "diagnostics:" ++ toString executionId ++ ":" ++ shown attemptId ++ ":" ++
      shown operationId ++ ":" ++ shown stepId
    -- The cursor is decoded before the Execution is looked up.
    let _ ← match cursor with
      | none => pure (0, 0)
      | some cursor => cursor.decodeTime kind
    let r ← d.execution executionId
    timePage kind (·.createdAt) (·.id) (·) cursor limit (r.diagnostics.filter fun row =>
      attemptId.all (row.attemptId == some ·) && operationId.all (row.operationId == some ·) &&
        stepId.all (row.stepId == some ·))

end Database

/-! ### Queries that read the Runtime -/

section Storage

variable (storage : RuntimeStorage) (d : Database)

/-- `_load` and `_cells`. -/
def loadNotebook (executionId : UUID) : Except ApiError (Notebook × List NotebookCell) := do
  let r ← d.execution executionId
  let e := r.tables.execution
  match e.notebookPath.filter (· ≠ "") with
  | none => .error ⟨.executionNotebookNotAvailable,
      s!"Execution {executionId} notebook is not available yet.", [], none⟩
  | some path => match storage.readNotebook e.runtimeType e.runtimeTargetId path e.runtimePool with
    | none => .error ⟨.executionNotebookNotAvailable,
        s!"Execution {executionId} notebook is currently unavailable.", [], none⟩
    | some notebook => match notebook.cells with
      | none => .error ⟨.notebookReadError,
          s!"Execution {executionId} notebook content is invalid.", [], none⟩
      | some cells => .ok (notebook, cells)

/-- `NotebookView`, with the cells as the notebook has them. -/
structure NotebookView where
  executionId : UUID
  full : Bool
  metadata : String
  cells : List NotebookCell
  startIndex : ℕ
  limit : ℕ
  totalCount : ℕ
  deriving DecidableEq, Repr

/-- `read_notebook`: all cells, or some of them. -/
def readNotebook (executionId : UUID) (full : Bool) (startIndex limit : ℕ) :
    Except ApiError NotebookView := do
  if limit < 1 then .error ⟨.notebookReadError,
    "Notebook start_index must be non-negative and limit must be positive.", [], none⟩
  else
    let (notebook, cells) ← loadNotebook storage d executionId
    return ⟨executionId, full, notebook.metadata, (cells.drop startIndex).take limit, startIndex,
      limit, cells.length⟩

/-- `read_cell`. -/
def readCell (executionId : UUID) (cellIndex : ℕ) : Except ApiError NotebookCell := do
  let (_, cells) ← loadNotebook storage d executionId
  match cells[cellIndex]? with
  | none => .error ⟨.notebookCellNotFound, s!"Cell index {cellIndex} was not found in " ++
      s!"Execution {executionId} notebook.", [], none⟩
  | some cell => .ok cell

/-- `_validate_relative_path`; empty and `.` parts are dropped before the check. -/
def isSafeRelativePath (path : String) : Bool :=
  path != "" && !path.startsWith "/" && !path.contains '\\' && !(path.splitOn "/").contains ".."

/-- The error for an Artifact that has no content here. -/
def contentUnavailable (message : String) : ApiError :=
  ⟨.artifactContentUnavailable, message, [], none⟩

/-- `ArtifactContentService.open`. -/
def openArtifact (artifactId : UUID) (range : Option String) : Except ApiError ArtifactContent := do
  let a ← d.artifact artifactId
  if a.status ≠ .available then
    .error (contentUnavailable "Artifact content is available only for AVAILABLE Artifacts.")
  else if a.storageType ≠ .pv then .error (contentUnavailable
    "Artifact content download is not configured for this storage type.")
  else match a.relativePath with
    | none => .error (contentUnavailable "Artifact storage path is missing.")
    | some path =>
      if ¬ isSafeRelativePath path then
        .error (contentUnavailable "Artifact storage path is not a safe relative path.")
      else
        let r ← d.execution a.executionId
        let e := r.tables.execution
        match storage.openFile e.runtimeType e.runtimeTargetId path range e.runtimePool with
        | .error (.range message size) =>
          .error ⟨.artifactRangeNotSatisfiable, message, [], some size⟩
        | .error (.unavailable message) => .error (contentUnavailable message)
        | .error .other => .error .internal
        | .ok content => .ok ⟨a.name,
            (a.mediaType.filter (· ≠ "")).getD "application/octet-stream", content⟩

end Storage

/-! ### Authorisation -/

/-- Hide an Execution outside the caller's tenant or, with a user, outside that user. -/
def authorizeExecution (d : Database) (caller : Caller) (executionId : UUID) (write : Bool) :
    Except ApiError Unit := do
  let tenantId ← requireTenant caller
  let userId ← if write then some <$> requireUser caller else pure caller.userId
  let r ← d.execution executionId
  if r.tenantId ≠ tenantId ∨ userId.any (r.userId != ·) then
    .error (.executionNotFound executionId)
  else .ok ()

end ExecutorService
