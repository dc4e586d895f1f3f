/-
The store of one Execution.

`Transaction` lists every transaction of the service that writes to the rows of
an Execution, with its arguments; PostgreSQL's row lock serialises them, so a
history of the Execution is a list of transactions.  The arguments are free: any
Worker, any lease value, any clock reading.  A transaction that raises is rolled
back and leaves the rows as they were.

* `History.step_table` — a step commits one change with its events, or leaves
  the history as it was.
-/
import ExecutorService.Commands
import ExecutorService.Lifecycle
import ExecutorService.Transition

namespace ExecutorService

/-- Transactions on the domain tables. -/
inductive TableTransaction
  | cancel (now : Time) (key : Key) (reason : Option String)
  | retry (now : Time) (key : Key)
  | createOperation (now : Time) (command : CreateOperationCommand)
  | finalizeCommand (now : Time) (key fingerprint : Key) (expectedVersion : ℕ)
  | claim (now : Time) (worker : WorkerId) (attemptId : UUID) (view : ClaimView)
  | claimHandover (now : Time) (worker : WorkerId) (view : ClaimView)
  | claimCancellation (now : Time) (worker : WorkerId)
  | renewExecution (now : Time) (lease : ExecutionLease)
  | renewCancellation (now : Time) (lease : CancellationLease)
  | assertExecution (clock : Clock) (lease : ExecutionLease) (allowed : List ExecutionStatus)
  | ensureCount (clock : Clock) (lease : ExecutionLease) (cellCount : ℕ)
  | recordRuntimeSession (clock : Clock) (lease : ExecutionLease) (sessionId : SessionId)
      (workspacePath notebookPath : String)
  | markStarted (clock : Clock) (lease : ExecutionLease) (sequence : ℕ)
      (historyId requestId : UUID) (artifactBaseline : ℕ)
  | markSubmitted (clock : Clock) (lease : ExecutionLease) (requestId : UUID)
  | recordHandoverCompleted (clock : Clock) (lease : ExecutionLease) (sequence : ℕ)
      (handover : HandoverRow) (finished : Bool)
  | markSucceeded (clock : Clock) (lease : ExecutionLease) (sequence : ℕ)
      (stored : StepResultDescriptor)
  | markFailed (clock : Clock) (lease : ExecutionLease) (sequence : ℕ)
      (stored : StepResultDescriptor) (errorMessage : String) (retryable : Bool)
  | recordInterruptedResult (clock : Clock) (lease : ExecutionLease) (sequence : ℕ)
      (stored : Option StepResultDescriptor)
  | completeOperation (clock : Clock) (lease : ExecutionLease) (operationId : UUID)
      (status : OperationStatus) (errorMessage : Option String)
      (failureType : Option FailureType)
  | skipStepsAfter (clock : Clock) (lease : ExecutionLease) (operationId : UUID)
      (failedSequence : ℕ)
  | beginProjection (clock : Clock) (lease : ExecutionLease)
  | recordProjection (clock : Clock) (lease : ExecutionLease)
      (status : NotebookProjectionStatus) (attemptCount : ℕ) (errorMessage : Option String)
  | persistNotebook (clock : Clock) (lease : ExecutionLease) (notebook : ArtifactRow)
  | persistArtifacts (clock : Clock) (lease : ExecutionLease) (sequence : ℕ)
      (allowCancelRequested : Bool) (artifacts : List ArtifactRow)
  | recordRuntimeAbort (clock : Clock) (lease : ExecutionLease) (abort : RuntimeAbortStatus)
      (cleanup : RuntimeSessionCleanupStatus) (failureType : FailureType)
  | deferRetainedRetry (clock : Clock) (lease : ExecutionLease)
  | releaseForCancellation (clock : Clock) (lease : ExecutionLease)
  | releaseForHandover (clock : Clock) (lease : ExecutionLease)
  | finalize (clock : Clock) (lease : ExecutionLease) (request : Tables.FinalizeRequest)
  | finalizeCancellation (clock : Clock) (lease : CancellationLease)
      (cleanup : RuntimeSessionCleanupStatus)
  | fenceExpiredLease (now : Time) (view : ClaimView)
  | failQueueTimeout (now : Time)
  | requestExpiredCancellation (now : Time)
  | endWaitingExecution (now : Time) (observation : RuntimeObservation)
      (finalizedBy : FinalizedBy)
  | failWaitingExecution (now : Time) (observation : RuntimeObservation)
      (failureType : FailureType) (errorMessage : String)
  | cleanupExpired (now : Time)
  | retryUnresolved (now : Time)
  | recordResult (now : Time) (observation : RuntimeObservation)
      (cleanup : RuntimeSessionCleanupStatus)

/-- Transactions on the event tables alone. -/
inductive LogTransaction
  | markPublished (now : Time) (sequences : List ℕ)
  | markUnpublished (availableAt : Time) (sequence : ℕ)
  | deletePublishedOutbox (now : Time) (batch : List ℕ)
  | deleteExecutionEvents (now : Time) (batch : List ℕ)

/-- A transaction on the rows, or on the outbox alone. -/
inductive Transaction
  | table (eventTime : Time) (transaction : TableTransaction)
  | log (transaction : LogTransaction)

/-- A transaction without events or a lease. -/
def Txn.quiet (x : Txn Tables) : Txn Change :=
  x.map fun t => { tables := t }

theorem Txn.quiet_ok {x : Txn Tables} {c : Change} :
    x.quiet = .ok c ↔ ∃ t, x = .ok t ∧ { tables := t } = c := by
  cases x with
  | error e => simp [Txn.quiet, Except.map]
  | ok t => simp [Txn.quiet, Except.map]

namespace TableTransaction

/-- What a transaction would commit on the rows. -/
def change (settings : Settings) (r : Rows) : TableTransaction → Txn Change
  | .cancel now key reason => (r.tables.cancel now key reason).quiet
  | .retry now key => (r.tables.retry now key).quiet
  | .createOperation now c => (r.tables.createOperation settings now c).quiet
  | .finalizeCommand now key fp version => (r.tables.finalizeCommand now key fp version).quiet
  | .claim now worker attemptId view => r.tables.claim settings now worker attemptId view
  | .claimHandover now worker view => .ok (r.tables.claimHandover settings now worker view)
  | .claimCancellation now worker => .ok (r.tables.claimCancellation settings now worker)
  | .renewExecution now lease => (r.tables.renewExecution settings now lease).quiet
  | .renewCancellation now lease => (r.tables.renewCancellation settings now lease).quiet
  | .assertExecution clock lease allowed => r.tables.assertExecution clock lease allowed
  | .ensureCount clock lease count => r.tables.ensureCount clock lease count
  | .recordRuntimeSession clock lease session workspace notebook =>
    r.tables.recordRuntimeSession clock lease session workspace notebook r.log
  | .markStarted clock lease sequence history request baseline =>
    r.tables.markStarted clock lease sequence history request baseline
  | .markSubmitted clock lease request => r.tables.markSubmitted clock lease request
  | .recordHandoverCompleted clock lease sequence handover finished =>
    r.tables.recordHandoverCompleted clock lease sequence handover finished
  | .markSucceeded clock lease sequence stored =>
    r.tables.markSucceeded clock lease sequence stored
  | .markFailed clock lease sequence stored message retryable =>
    r.tables.markFailed clock lease sequence stored message retryable
  | .recordInterruptedResult clock lease sequence stored =>
    r.tables.recordInterruptedResult clock lease sequence stored
  | .completeOperation clock lease operationId status message failureType =>
    r.tables.completeOperation clock lease operationId status message failureType
  | .skipStepsAfter clock lease operationId sequence =>
    r.tables.skipStepsAfter clock lease operationId sequence
  | .beginProjection clock lease => r.tables.beginProjection clock lease
  | .recordProjection clock lease status count message =>
    r.tables.recordProjection clock lease status count message
  | .persistNotebook clock lease notebook => r.tables.persistNotebook clock lease notebook
  | .persistArtifacts clock lease sequence allow artifacts =>
    r.tables.persistArtifacts clock lease sequence allow artifacts
  | .recordRuntimeAbort clock lease abort cleanup failureType =>
    r.tables.recordRuntimeAbort clock lease abort cleanup failureType
  | .deferRetainedRetry clock lease => (r.tables.deferRetainedRetry clock lease).quiet
  | .releaseForCancellation clock lease => r.tables.releaseForCancellation clock lease
  | .releaseForHandover clock lease => r.tables.releaseForHandover clock lease
  | .finalize clock lease request => r.tables.finalize settings clock lease request
  | .finalizeCancellation clock lease cleanup =>
    r.tables.finalizeCancellation clock lease cleanup
  | .fenceExpiredLease now view => r.tables.fenceExpiredLease now view
  | .failQueueTimeout now => r.tables.failQueueTimeout settings now
  | .requestExpiredCancellation now => r.tables.requestExpiredCancellation settings now
  | .endWaitingExecution now observation finalizedBy =>
    r.tables.endWaitingExecution now observation finalizedBy
  | .failWaitingExecution now observation failureType message =>
    r.tables.failWaitingExecution now observation failureType message
  | .cleanupExpired now => r.tables.cleanupExpired now
  | .retryUnresolved now => .ok { tables := r.tables.retryUnresolved settings now }
  | .recordResult now observation cleanup =>
    .ok { tables := r.tables.recordResult now observation cleanup }

end TableTransaction

/-- The outbox after a transaction. -/
def LogTransaction.apply (settings : Settings) (r : Rows) : LogTransaction → EventLog
  | .markPublished now sequences => r.log.markPublished now sequences
  | .markUnpublished availableAt sequence => r.log.markUnpublished availableAt sequence
  | .deletePublishedOutbox now batch => r.log.deletePublishedOutbox settings now batch
  | .deleteExecutionEvents now batch =>
    r.log.deleteExecutionEvents settings now batch r.tables.execution

@[simp] theorem LogTransaction.apply_history (settings : Settings) (r : Rows)
    (tx : LogTransaction) : (tx.apply settings r).history = r.log.history := by
  cases tx with
  | deleteExecutionEvents =>
    rw [apply, EventLog.deleteExecutionEvents]
    split <;> rfl
  | _ => rfl

/-- A history of one Execution: its rows and the leases its claims issued. -/
structure History where
  rows : Rows
  issued : List Lease := []

/-- The error a transaction raises where its events are refused: `mark_succeeded` alone wraps
it. -/
def TableTransaction.wrapped : TableTransaction → StoreError → StoreError
  | .markSucceeded .., _ => .completion "RESULT_REFERENCE_PERSIST"
  | _, error => error

/-- What a table transaction commits, with its events appended. -/
def TableTransaction.commit (settings : Settings) (eventTime : Time) (r : Rows)
    (tx : TableTransaction) : Txn (Rows × Option Lease) := do
  let change ← tx.change settings r
  let log ← (r.log.persistAll eventTime change.events).mapError tx.wrapped
  return (⟨change.tables, log⟩, change.lease)

/-- One transaction of a history; a raised error rolls it back. -/
def History.step (settings : Settings) (h : History) : Transaction → History
  | .table eventTime tx =>
    match tx.commit settings eventTime h.rows with
    | .ok (rows, lease) => ⟨rows, h.issued ++ lease.toList⟩
    | .error _ => h
  | .log tx => { h with rows := { h.rows with log := tx.apply settings h.rows } }

/-- An accepted submission: the request and the rows it inserted. -/
structure Submission (settings : Settings) where
  now : Time
  command : SubmitExecutionCommand
  tables : Tables
  accepted : submit settings now command = .ok tables

/-- The history a submission starts. -/
def Submission.history {settings : Settings} (s : Submission settings) : History :=
  { rows := { tables := s.tables } }

/-- The history after a list of transactions on a submitted Execution. -/
def Submission.run {settings : Settings} (s : Submission settings) (txs : List Transaction) :
    History :=
  Transition.run (History.step settings) s.history txs

theorem Txn.eq_ok_of_isSome {α : Type} (x : Txn α) (h : x.toOption.isSome = true) :
    x = .ok (x.toOption.get h) := by
  cases x with
  | error e => cases h
  | ok a => rfl

/-- A request the service accepts starts a history. -/
def Submission.ofAccepted (settings : Settings) (now : Time) (command : SubmitExecutionCommand)
    (h : (submit settings now command).toOption.isSome = true) : Submission settings where
  now := now
  command := command
  tables := (submit settings now command).toOption.get h
  accepted := Txn.eq_ok_of_isSome _ h

theorem Submission.run_append {settings : Settings} (s : Submission settings)
    (txs later : List Transaction) :
    s.run (txs ++ later) = Transition.run (History.step settings) (s.run txs) later :=
  Transition.run_append _ _ _

theorem TableTransaction.commit_ok {settings : Settings} {eventTime : Time} {r r' : Rows}
    {tx : TableTransaction} {lease : Option Lease} :
    tx.commit settings eventTime r = .ok (r', lease) ↔
      ∃ change log, tx.change settings r = .ok change ∧
        r.log.persistAll eventTime change.events = .ok log ∧
        r' = ⟨change.tables, log⟩ ∧ lease = change.lease := by
  simp only [commit, Txn.bind_ok, Txn.mapError_ok, Txn.pure_ok, Prod.mk.injEq]
  constructor
  · rintro ⟨change, hchange, log, hlog, rfl, rfl⟩
    exact ⟨change, log, hchange, hlog, rfl, rfl⟩
  · rintro ⟨change, log, hchange, hlog, rfl, rfl⟩
    exact ⟨change, hchange, log, hlog, rfl, rfl⟩

/-- A step commits one change, or leaves the history as it was. -/
theorem History.step_table {settings : Settings} {h : History} {eventTime : Time}
    {tx : TableTransaction} :
    h.step settings (.table eventTime tx) = h ∨
      ∃ change log, tx.change settings h.rows = .ok change ∧
        h.rows.log.persistAll eventTime change.events = .ok log ∧
        h.step settings (.table eventTime tx) =
          ⟨⟨change.tables, log⟩, h.issued ++ change.lease.toList⟩ := by
  simp only [History.step]
  cases hc : tx.commit settings eventTime h.rows with
  | error e => exact .inl rfl
  | ok x =>
    obtain ⟨rows, lease⟩ := x
    obtain ⟨change, log, hchange, hlog, rfl, rfl⟩ := TableTransaction.commit_ok.mp hc
    exact .inr ⟨change, log, hchange, hlog, rfl⟩

theorem History.step_table_or (h : History) (settings : Settings) (eventTime : Time)
    (tx : TableTransaction) : h.step settings (.table eventTime tx) = h ∨
      ∃ change log, tx.change settings h.rows = .ok change ∧
        h.step settings (.table eventTime tx) =
          ⟨⟨change.tables, log⟩, h.issued ++ change.lease.toList⟩ := by
  rcases History.step_table with hstep | ⟨change, log, hchange, _, hstep⟩
  · exact .inl hstep
  · exact .inr ⟨change, log, hchange, hstep⟩

/-! ### A small installation -/

namespace Small

/-- Limits for the runs below. -/
def settings : Settings where
  executionLeaseSeconds := 60
  executionMaxRuntimeSeconds := 1000
  executionQueueTimeoutSeconds := 300
  failedSessionRetentionSeconds := 100
  runtimeCleanupRetryIntervalSeconds := 30
  publishedOutboxRetentionSeconds := 100
  executionEventRetentionSeconds := 100
  maxStepsPerOperation := 10
  maxStepsPerExecution := 20

/-- One Operation of one Step. -/
def command (mode : OperationMode) : SubmitExecutionCommand where
  executionId := 1
  operationId := 10
  idempotencyKey := 100
  requestFingerprint := 101
  operationMode := mode
  runtimePool := .interactive
  runtimeType := .jupyter
  runtimeProfile := "python"
  operationWaitTimeoutSeconds := match mode with
    | .single => none
    | .multi => some 300
  operationTimeoutSeconds := none
  steps := [⟨11, 0, "x", "", none, "steps/11", "", 1⟩]

/-- An accepted Execution. -/
def submission (mode : OperationMode) : Submission settings :=
  .ofAccepted settings 0 (command mode) (by cases mode <;> decide)

/-- A Runtime Target. -/
def target : RuntimeTarget where
  id := 5
  name := "target"
  runtimeType := .jupyter
  pool := .interactive
  enabled := true
  status := .active
  supportedProfiles := ["python"]
  maxConcurrentExecutions := 1

/-- A claim that finds the Target. -/
def view : ClaimView where
  admissionIsActive := true
  target := fun _ => some target
  selected := some target

/-- The lease of the Attempt `attemptId` under a token. -/
def lease (attemptId : UUID) (token : ℕ) : ExecutionLease := ⟨1, attemptId, 7, token⟩

/-- One time for all columns. -/
def clock (now : Time) : Clock := ⟨now, now, now⟩

/-- A sealed result of an Attempt under a token. -/
def stored (attemptId : UUID) (token : ℕ) : StepResultDescriptor where
  complete := true
  reference := ⟨"results/11", String.ofList (List.replicate 64 'a'), 1, attemptId, token⟩
  outputCount := 0
  representationCount := 0
  totalSizeBytes := 0
  outputSummary := {}
  executionCount := some 1
  errorMessage := none

/-- A first run whose only Step fails. -/
def failedRun : List Transaction :=
  [.table 1 (.claim 1 7 20 view),
    .table 2 (.recordRuntimeSession (clock 2) (lease 20 1) 30 "workspace" "notebook"),
    .table 3 (.markStarted (clock 3) (lease 20 1) 0 40 41 0),
    .table 4 (.markSubmitted (clock 4) (lease 20 1) 41),
    .table 5 (.markFailed (clock 5) (lease 20 1) 0 (stored 20 1) "boom" false)]

end Small

end ExecutorService
