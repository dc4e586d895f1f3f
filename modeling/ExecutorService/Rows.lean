/-
The database rows of one Execution.

`Rows` is what PostgreSQL holds for one Execution: in `Tables` the `executions`
row with its Operations, Steps, Attempts, Step attempts, journal requests,
handover row, receipts and notebook artifacts, in `EventLog` its event and outbox
rows (`infrastructure/db/models/`).  Every transaction of the service that
touches an Execution locks this row first, so a transaction is a function of
`Rows`.

`Execution` holds the columns the domain object carries, `ExecutionRow` adds the
ones only the ORM row has (fencing token and cancellation lease).  Audit columns
(`created_by`, `updated_by` and their clients), request metadata and the
diagnostics table are left out: no transaction decides anything from them.
-/
import ExecutorService.Enums
import ExecutorService.Table

namespace ExecutorService

/-! ### Step results -/

/-- `output_summary` of a Step; `empty_output_summary` is `{}`. -/
structure OutputSummary where
  outputCount : ℕ := 0
  outputTypes : List (String × ℕ) := []
  streamNames : List String := []
  mimeTypes : List String := []
  hasImage : Bool := false
  imageCount : ℕ := 0
  hasError : Bool := false
  deriving DecidableEq, Repr

/-- Where the sealed result of a Step is. -/
structure StepResultReference where
  relativePath : String
  checksumSha256 : String
  sizeBytes : ℕ
  executionAttemptId : UUID
  fencingToken : ℕ
  deriving DecidableEq, Repr

/-- What the result store returns for a sealed Step result. -/
structure StepResultDescriptor where
  complete : Bool
  reference : StepResultReference
  outputCount : ℕ
  representationCount : ℕ
  totalSizeBytes : ℕ
  outputSummary : OutputSummary
  executionCount : Option ℕ
  errorMessage : Option String
  deriving DecidableEq, Repr

/-- The result columns that Step and Step attempt rows share. -/
structure ResultColumns where
  outputSummary : OutputSummary := {}
  manifestPath : Option String := none
  manifestChecksumSha256 : Option String := none
  manifestSizeBytes : Option ℕ := none
  fencingToken : Option ℕ := none
  complete : Option Bool := none
  representationCount : ℕ := 0
  totalSizeBytes : ℕ := 0
  deriving DecidableEq, Repr

/-- `_assign_step_result`, with the summary assigned beside it. -/
def ResultColumns.ofDescriptor (d : StepResultDescriptor) : ResultColumns where
  outputSummary := d.outputSummary
  manifestPath := some d.reference.relativePath
  manifestChecksumSha256 := some d.reference.checksumSha256
  manifestSizeBytes := some d.reference.sizeBytes
  fencingToken := some d.reference.fencingToken
  complete := some d.complete
  representationCount := d.representationCount
  totalSizeBytes := d.totalSizeBytes

/-! ### Rows -/

/-- The columns of `executions` that the domain object carries. -/
structure Execution where
  id : UUID
  idempotencyKey : Key
  requestFingerprint : Key
  operationMode : OperationMode
  operationWaitTimeoutSeconds : Option Time
  runtimeType : RuntimeType
  runtimePool : RuntimePool
  runtimeProfile : String
  status : ExecutionStatus := .queued
  cancelIdempotencyKey : Option Key := none
  cancellationReason : Option String := none
  runtimeTargetId : Option UUID := none
  runtimeSessionId : Option SessionId := none
  workspacePath : Option String := none
  notebookPath : Option String := none
  notebookProjectionStatus : NotebookProjectionStatus := .notStarted
  notebookProjectionAttemptCount : ℕ := 0
  notebookProjectionError : Option String := none
  notebookProjectedAt : Option Time := none
  errorMessage : Option String := none
  failureType : Option FailureType := none
  leaseOwner : Option WorkerId := none
  leaseExpiresAt : Option Time := none
  heartbeatAt : Option Time := none
  retryStrategy : RetryStrategy := .notRetryable
  retryFromSequence : Option ℕ := none
  retainedRuntimeSessionUntil : Option Time := none
  retryCount : ℕ := 0
  recoveryCount : ℕ := 0
  runtimeSessionCleanupStatus : RuntimeSessionCleanupStatus := .notRequired
  runtimeAbortStatus : RuntimeAbortStatus := .notRequired
  finalizationRequested : Bool := false
  finalizedBy : Option FinalizedBy := none
  activeOperationId : Option UUID := none
  operationWaitExpiresAt : Option Time := none
  executionExpiresAt : Option Time := none
  version : ℕ := 0
  createdAt : Time
  updatedAt : Time
  startedAt : Option Time := none
  finishedAt : Option Time := none

/-- An `executions` row: `to_domain` forgets the three columns added here. -/
structure ExecutionRow extends Execution where
  fencingToken : ℕ := 0
  cancellationLeaseOwner : Option WorkerId := none
  cancellationLeaseExpiresAt : Option Time := none

/-- The row of an Operation. -/
structure OperationRow where
  id : UUID
  operationNumber : ℕ
  firstSequence : ℕ
  lastSequence : ℕ
  idempotencyKey : Key
  requestFingerprint : Key
  operationTimeoutSeconds : Option Time := none
  status : OperationStatus := .queued
  executionAttemptId : Option UUID := none
  errorMessage : Option String := none
  failureType : Option FailureType := none
  createdAt : Time
  updatedAt : Time
  startedAt : Option Time := none
  finishedAt : Option Time := none

/-- The row of a Step. -/
structure ExecutionStep where
  id : UUID
  operationId : UUID
  sequence : ℕ
  sourceSha256 : String := ""
  sourceSnapshotPath : String := ""
  sourceSizeBytes : ℕ := 0
  stepTimeoutSeconds : Option Time := none
  status : StepStatus := .pending
  resultExecutionAttemptId : Option UUID := none
  result : ResultColumns := {}
  errorMessage : Option String := none
  createdAt : Time
  updatedAt : Time
  startedAt : Option Time := none
  finishedAt : Option Time := none

/-- The row of an Attempt. -/
structure AttemptRow where
  id : UUID
  attemptNumber : ℕ
  runtimeType : RuntimeType
  runtimeProfile : String
  runtimeTargetId : UUID
  runtimeSessionId : Option SessionId := none
  status : AttemptStatus
  leaseOwner : Option WorkerId
  leaseExpiresAt : Option Time
  heartbeatAt : Time
  fencingToken : ℕ
  errorMessage : Option String := none
  failureType : Option FailureType := none
  retryStrategy : RetryStrategy := .notRetryable
  runtimeSessionCleanupStatus : RuntimeSessionCleanupStatus := .notRequired
  runtimeAbortStatus : RuntimeAbortStatus := .notRequired
  startedAt : Time
  finishedAt : Option Time := none

/-- The row of a Step in an Attempt. -/
structure StepAttemptRow where
  id : UUID
  executionAttemptId : UUID
  executionStepId : UUID
  sequence : ℕ
  status : StepStatus
  result : ResultColumns := {}
  errorMessage : Option String := none
  startedAt : Time
  finishedAt : Option Time := none

/-- The journal request of one Step run.  The baseline is the Runtime's artifact
snapshot before the run, kept as the opaque value the Worker stored. -/
structure StepRunRow where
  executionStepAttemptId : UUID
  requestId : UUID
  artifactBaseline : ℕ
  submittedAt : Option Time := none

/-- A running Step released for another Worker to follow. -/
structure HandoverRow where
  reason : HandoverReason
  pausedSince : Time

/-- The columns of an Artifact that the Worker writes. -/
structure ArtifactRow where
  identityHash : Key
  artifactType : ArtifactType
  status : ArtifactStatus
  relativePath : String

/-- The row of an accepted command. -/
structure CommandReceipt where
  idempotencyKey : Key
  commandType : String
  requestFingerprint : Key
  operationId : Option UUID

/-! ### Events -/

/-- Why there is an Attempt. -/
inductive AttemptReason
  | initial | retry
  deriving DecidableEq, Repr

/-- An Operation in an event. -/
structure OperationRef where
  id : UUID
  number : ℕ
  deriving DecidableEq, Repr

/-- A Step in an event. -/
structure StepRef where
  id : UUID
  sequence : ℕ
  deriving DecidableEq, Repr

/-- An Attempt in an event. -/
structure AttemptRef where
  id : UUID
  number : ℕ
  reason : AttemptReason
  deriving DecidableEq, Repr

/-- `result_ref` of a payload; the storage and media type fields are constants. -/
structure ResultRef where
  relativePath : String
  sizeBytes : ℕ
  checksumSha256 : String
  complete : Bool
  deriving DecidableEq, Repr

/-- The outputs of a Step in its event. -/
structure EventOutputSummary where
  count : ℕ
  contentTypes : List String
  deriving DecidableEq, Repr

/-- The error of an event. -/
structure EventError where
  code : String
  message : String
  operationId : Option UUID := none
  stepId : Option UUID := none
  retryable : Bool
  deriving DecidableEq, Repr

/-- The Steps of an Operation, counted by status. -/
structure StepSummary where
  total : ℕ
  completed : ℕ
  succeeded : ℕ
  failed : ℕ
  cancelled : ℕ
  deriving DecidableEq, Repr

/-- A finished Step in the event of its Operation. -/
structure StepResultEntry where
  stepId : UUID
  sequence : ℕ
  status : StepStatus
  attempt : AttemptRef
  resultRef : Option ResultRef
  deriving DecidableEq, Repr

/-- What a caller needs to continue a MULTI Execution. -/
structure Continuation where
  expectedVersion : ℕ
  expiresAt : Time
  deriving DecidableEq, Repr

/-- The Operations of an Execution, counted by status. -/
structure OperationSummary where
  total : ℕ
  succeeded : ℕ
  failed : ℕ
  cancelled : ℕ
  deriving DecidableEq, Repr

/-- What a caller needs to retry. -/
structure RetryOffer where
  fromStepId : UUID
  expiresAt : Time
  deriving DecidableEq, Repr

/-- Event payloads; the constructor is the event type. -/
inductive EventPayload
  | started (provider : RuntimeType) (profile : String) (targetId : UUID)
      (sessionId : SessionId)
  | operationStarted (operation : OperationRef) (stepCount : ℕ)
  | stepStarted (operation : OperationRef) (step : StepRef) (attempt : AttemptRef)
  | stepCompleted (status : StepStatus) (operation : OperationRef) (step : StepRef)
      (attempt : AttemptRef) (resultRef : Option ResultRef)
      (outputSummary : Option EventOutputSummary) (error : Option EventError)
  | stepHandoverStarted (operation : OperationRef) (step : StepRef) (attempt : AttemptRef)
      (reason : HandoverReason) (detectedAt : Time)
  | stepHandoverCompleted (operation : OperationRef) (step : StepRef) (attempt : AttemptRef)
      (pausedSeconds : Time) (finishedDuringHandover : Bool)
  | operationCompleted (status : OperationStatus) (executionStatus : ExecutionStatus)
      (operation : OperationRef) (stepSummary : StepSummary)
      (stepResults : List StepResultEntry) (continuation : Option Continuation)
      (error : Option EventError)
  | completed (status : ExecutionStatus) (finalizedBy : Option FinalizedBy)
      (operationSummary : OperationSummary) (retry : Option RetryOffer)
      (error : Option EventError)
  deriving DecidableEq, Repr

/-- A row of the outbox. -/
structure EventRow where
  eventSequence : ℕ
  payload : EventPayload
  createdAt : Time

/-- An outbox row; it references the event row with the same sequence. -/
structure OutboxRow where
  eventSequence : ℕ
  payload : EventPayload
  status : OutboxStatus
  attemptCount : ℕ
  availableAt : Time
  publishedAt : Option Time := none

/-- The domain tables of one Execution. -/
structure Tables where
  execution : ExecutionRow
  operations : List OperationRow
  steps : List ExecutionStep
  attempts : List AttemptRow := []
  stepAttempts : List StepAttemptRow := []
  stepRuns : List StepRunRow := []
  handover : Option HandoverRow := none
  artifacts : List ArtifactRow := []
  retries : List Key := []
  receipts : List CommandReceipt := []

/-- The event tables of one Execution.  `history` is not in the database: it is
every event ever committed, including those a retention pass deleted since. -/
structure EventLog where
  lastSequence : ℕ := 0
  events : List EventRow := []
  outbox : List OutboxRow := []
  history : List EventRow := []

/-- The rows of an Execution with its outbox. -/
structure Rows where
  tables : Tables
  log : EventLog := {}

/-- An Attempt that occupies a Runtime slot. -/
def AttemptRow.isLive (a : AttemptRow) : Bool :=
  a.status == .running || a.status == .waiting

/-- Settings the transactions read. -/
structure Settings where
  executionLeaseSeconds : Time
  executionMaxRuntimeSeconds : Time
  executionQueueTimeoutSeconds : Time
  failedSessionRetentionSeconds : Time
  runtimeCleanupRetryIntervalSeconds : Time
  publishedOutboxRetentionSeconds : Time
  executionEventRetentionSeconds : Time
  maxStepsPerOperation : ℕ
  maxStepsPerExecution : ℕ

/-- The clock readings of one transaction: `now` is read when the function
starts, `lease` inside the lease check, `event` when an event is built. -/
structure Clock where
  now : Time
  lease : Time
  event : Time

/-- `text[:2000]`. -/
def truncateMessage (text : String) : String :=
  String.ofList (text.toList.take 2000)

namespace Tables

/-- The row of an Operation. -/
def operation? (t : Tables) (id : UUID) : Option OperationRow :=
  t.operations.find? (·.id == id)

/-- The row of a Step. -/
def step? (t : Tables) (id : UUID) : Option ExecutionStep :=
  t.steps.find? (·.id == id)

/-- The Step with a given sequence (unique per Execution). -/
def stepAt? (t : Tables) (sequence : ℕ) : Option ExecutionStep :=
  t.steps.find? (·.sequence == sequence)

/-- The row of an Attempt. -/
def attempt? (t : Tables) (id : UUID) : Option AttemptRow :=
  t.attempts.find? (·.id == id)

/-- The Attempt with the largest attempt number. -/
def latestAttempt? (t : Tables) : Option AttemptRow :=
  t.attempts.foldl
    (fun best a => match best with
      | some b => if a.attemptNumber > b.attemptNumber then some a else some b
      | none => some a) none

end Tables

end ExecutorService
