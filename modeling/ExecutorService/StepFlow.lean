/-
Steps and sessions of a run.

The parts the SINGLE and the MULTI runner share: executing a Step
(`step_executor.py`), the notebook (`notebook_projector.py`), artifacts, aborts
(`run_finalizer.py`) and the ends of a session (`step_flow.py`).  Each function
is the coroutine of the same name, with its awaits in the source's order.
-/
import ExecutorService.Effects

namespace ExecutorService

open Tables (StepRun FinalizeRequest)

namespace Job

variable {α : Type}

/-- A transaction, as a step of a job. -/
def transaction (tx : Choice → TableTransaction) : Job Unit :=
  .await (.transaction tx)

/-- A call of the Runtime or of the storage, as a step of a job. -/
def external (call : External) : Job Unit :=
  .await (.external call)

/-- `except Exception as exc`. -/
def onException (p : Job α) (h : Failure → Job α) : Job α :=
  p.handle fun x => if x.isException then h x else .raise x

/-- `except ExecutionLeaseLostError: raise`, then `except Exception as exc`. -/
def onOtherException (p : Job α) (h : Failure → Job α) : Job α :=
  p.handle fun x => if x.isException && x != .leaseLost then h x else .raise x

end Job

open Job

section

variable (lease : ExecutionLease)

/-- `assert_execution`. -/
def assertExecution : Job Unit :=
  transaction fun c => .assertExecution c.clock lease [.running]

/-! ### Notebook and artifacts -/

/-- `register_artifact`: the notebook file's reference. -/
def registerNotebook : Job Unit :=
  onOtherException
    (do
      external .notebookMetadata
      transaction fun c => .persistNotebook c.clock lease c.notebook)
    fun _ => do
      external .diagnostics
      .raise (.completion "NOTEBOOK_ARTIFACT_REGISTER")

/-- `prepare`: the cells of the planned Steps. -/
def prepareNotebook (steps : List ExecutionStep) : Job Unit := do
  external .notebookSources
  if steps = [] then return
  else
    assertExecution lease
    external .prepareNotebook
    registerNotebook lease

/-- The outcome of the notebook's projection. -/
def recordProjection (status : NotebookProjectionStatus) (attemptCount : ℕ) (failed : Bool) :
    Job Unit :=
  transaction fun c => .recordProjection c.clock lease status attemptCount
    (if failed then some c.text else none)

/-- The write attempts of `project`, `remaining` of three being left. -/
def writeNotebook : ℕ → Job Bool
  | 0 => do
    recordProjection lease .failed 3 true
    external .diagnostics
    return false
  | remaining + 1 => do
    let written ← onOtherException
      (do
        assertExecution lease
        external .writeNotebook
        return true)
      fun _ => return false
    if written then
      recordProjection lease .succeeded (3 - remaining) false
      registerNotebook lease
      return true
    else
      if remaining ≠ 0 then external .retryDelay
      writeNotebook remaining

/-- `project`. -/
def project : Job Bool := do
  assertExecution lease
  transaction fun c => .beginProjection c.clock lease
  onException (external .buildNotebook) fun x => do
    recordProjection lease .failed 0 true
    external .diagnostics
    .raise x
  writeNotebook lease 3

/-- `project_required`: a successful run cannot ignore a failed delivery. -/
def projectRequired : Job Unit := do
  let projected ← (project lease).handle fun
    | .leaseLost => .raise .leaseLost
    | .completion phase => .raise (.completion phase)
    | x => .raise (if x.isException then .completion "NOTEBOOK_BUILD" else x)
  if projected then return else .raise (.completion "NOTEBOOK_WRITE")

/-- `project_after_failure`: never replaces the failure it follows. -/
def projectAfterFailure : Job Bool :=
  onOtherException (project lease) fun _ => return false

/-- `discover_and_register`. -/
def discoverAndRegister (sequence : ℕ) (allowCancelRequested : Bool) : Job Unit := do
  external .discoverArtifacts
  transaction fun c =>
    .persistArtifacts c.clock lease sequence allowCancelRequested c.artifacts

/-- `register_incomplete`: best effort. -/
def registerIncomplete (sequence : ℕ) (allowCancelRequested : Bool) : Job Unit :=
  onException (discoverAndRegister lease sequence allowCancelRequested) fun _ =>
    external .diagnostics

/-- The evidence of a failed Step: the notebook and the Artifacts. -/
def recordFailureEvidence (sequence : ℕ) : Job Unit := do
  let _ ← projectAfterFailure lease
  registerIncomplete lease sequence false

/-! ### One Step -/

/-- `StepFlow.start`: the artifact baseline, then `mark_started`. -/
def startStep (sequence : ℕ) : Job StepRun := do
  external .snapshot
  .await (.markStarted lease sequence)

/-- `release`: a journal that cannot be deleted is left to its retention. -/
def releaseJournal : Job Unit :=
  (external .releaseJournal).handle fun x => if x.isDriverError then return () else .raise x

/-- `_execute_with_result_store`. -/
def executeWithResultStore (run : StepRun) (handover : Option HandoverRow) :
    Job StepResultDescriptor :=
  let body : Job StepResultDescriptor := do
    external .beginResult
    if ¬ run.submitted then
      .await (.startExecution lease run)
      transaction fun c => .markSubmitted c.clock lease run.requestId
    external .follow
    match handover with
    | none => pure ()
    | some row =>
      transaction fun c => .recordHandoverCompleted c.clock lease run.sequence row c.answer
      external .follow
    .await .sealResult
  body.handle fun
    | .outputLimit => do
      match ← .await .preserveResult with
      | none => .raise (.storedStep .outputLimit none)
      | some stored => .raise (.storedOutputLimit stored)
    | x =>
      if x.isExecutionError then do
        let stored ← onException (.await .sealResult) fun _ => do
          let stored ← .await .preserveResult
          .raise (.storedStep x stored)
        .raise (.storedExecution stored)
      else if x.isException then do
        let stored ← .await .preserveResult
        .raise (.storedStep x stored)
      else .raise x

/-- The end of `execute` for a cancelled Step that keeps its evidence. -/
def recordInterrupted (sequence : ℕ) : Job Unit := do
  let stored ← .await .preserveResult
  (transaction fun c => .recordInterruptedResult c.clock lease sequence stored).handle fun x =>
    if x = .cancelled then .raise x else return ()

/-- `execute`: the deadlines, then the Step under them. -/
def executeStep (run : StepRun) (handover : Option HandoverRow) : Job StepResultDescriptor := do
  let scope ← .await (.deadlines run.submitted)
  let result := (executeWithResultStore lease run handover).handle fun
    | .deadline => do
      match ← .await .preserveResult with
      | none => .raise (.storedStep (.timeout scope) none)
      | some stored => .raise (.storedTimeout scope stored)
    | .cancelled => do
      if ← .await .shuttingDown then .raise .cancelled
      else
        recordInterrupted lease run.sequence
        .raise .cancelled
    | x => .raise x
  result.handle fun x => do
    external .diagnostics
    .raise x

/-- `publish_success`. -/
def publishSuccess (sequence : ℕ) : Job Unit := do
  releaseJournal
  projectRequired lease
  onOtherException (discoverAndRegister lease sequence false) fun _ => do
    external .diagnostics
    .raise (.completion "ARTIFACT_REGISTER")

/-- `mark_succeeded`. -/
def markSucceeded (sequence : ℕ) (stored : StepResultDescriptor) : Job Unit :=
  transaction fun c => .markSucceeded c.clock lease sequence stored

/-- `mark_failed`. -/
def markFailed (sequence : ℕ) (stored : StepResultDescriptor) (retryable : Bool) : Job Unit :=
  transaction fun c => .markFailed c.clock lease sequence stored c.text retryable

/-! ### Aborts -/

/-- What an abort leaves of the session, and how a retry goes on. -/
structure RuntimeAbortResolution where
  abortStatus : RuntimeAbortStatus
  cleanupStatus : RuntimeSessionCleanupStatus
  retryStrategy : RetryStrategy
  retainSession : Bool

/-- How an abort goes, in the rows. -/
def recordRuntimeAbort (abort : RuntimeAbortStatus) (cleanup : RuntimeSessionCleanupStatus)
    (failureType : FailureType) : Job Unit :=
  transaction fun c => .recordRuntimeAbort c.clock lease abort cleanup failureType

/-- What the answer to an abort means for the session. -/
def abortResolution (sessionId : SessionId) :
    RuntimeAbortStatus → Job RuntimeAbortResolution
  | .idleConfirmed => return ⟨.idleConfirmed, .notRequired, .fromFailedStep, true⟩
  | .sessionMissing => return ⟨.sessionMissing, .succeeded, .fromStart, false⟩
  | _ => do
    let deleted ← onException
      (do
        .await (.deleteSession sessionId)
        return true)
      fun _ => do
        external .diagnostics
        return false
    if deleted then return ⟨.sessionDeleted, .succeeded, .fromStart, false⟩
    else return ⟨.failed, .failed, .fromStart, false⟩

/-- The abort of a session, with its outcome in the rows. -/
def resolveRuntimeAbort (sessionId : SessionId) (failureType : FailureType) :
    Job RuntimeAbortResolution := do
  recordRuntimeAbort lease .pending .pending failureType
  let status ← onException (.await (.abortSession sessionId)) fun _ => do
    external .diagnostics
    return .failed
  if status = .failed then external .diagnostics
  let resolution ← abortResolution sessionId status
  recordRuntimeAbort lease resolution.abortStatus resolution.cleanupStatus failureType
  return resolution

/-- `StepFlow.abort` for a Step that hit a limit. -/
def abortStep (sessionId : SessionId) (sequence : ℕ) (failureType : FailureType)
    (stored : StepResultDescriptor) : Job RuntimeAbortResolution := do
  let resolution ← resolveRuntimeAbort lease sessionId failureType
  markFailed lease sequence stored true
  return resolution

/-! ### The ends of a session -/

/-- The end of a run. -/
def finalizeRun (request : Choice → FinalizeRequest) : Job Unit :=
  transaction fun c => .finalize c.clock lease (request c)

/-- `best_effort_session_stop`. -/
def bestEffortSessionStop (sessionId : SessionId) : Job RuntimeSessionCleanupStatus :=
  onException
    (do
      external .interruptSession
      .await (.deleteSession sessionId)
      return .succeeded)
    fun _ => do
      external .diagnostics
      return .failed

/-- `stop_session`: only while this Worker still owns the Execution. -/
def stopSession (sessionId : Option SessionId) : Job RuntimeSessionCleanupStatus :=
  match sessionId with
  | none => return .notRequired
  | some sessionId => do
    let owns ← Program.handle
      (do
        assertExecution lease
        return true)
      fun x => if x = .leaseLost then return false else .raise x
    if owns then
      (bestEffortSessionStop sessionId).handle fun x =>
        if x = .deadline then return .failed else .raise x
    else return .notRequired

/-- `complete_session`: the session is deleted before the run succeeds. -/
def completeSession (sessionId : SessionId) : Job Unit := do
  assertExecution lease
  onOtherException (.await (.deleteSession sessionId)) fun _ => do
    external .diagnostics
    .raise (.completion "RUNTIME_RELEASE")
  finalizeRun lease fun _ => { status := .succeeded, cleanupStatus := .succeeded }

/-- `hand_off_cancelled`: whether a new owner took the job. -/
def handOffCancelled (runInFlight : Option StepRun) : Job Bool := do
  if ← .await .cancellationOwnsTerminal then
    transaction fun c => .releaseForCancellation c.clock lease
    return true
  else if ← .await .shuttingDown then
    if runInFlight.isSome then
      (Program.await (.releaseForHandover lease)).handle fun x =>
        if x = .leaseLost then return true else .raise x
    else return false
  else return false

end

end ExecutorService
