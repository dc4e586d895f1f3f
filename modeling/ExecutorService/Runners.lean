/-
The jobs of a Worker.

`single` and `multi` are `SingleExecutionRunner.run` and
`MultiExecutionRunner.run`, from the claim that issued their lease to their end;
`cancellation` is `CancellationProcessor.cancel` after its claim; `recovery` and
`auditWaiting` are what the background passes do for one Execution outside their
transactions.

The handlers around a run read its local variables, so what a run raises carries
them.
-/
import ExecutorService.StepFlow

namespace ExecutorService

open Job
open Tables (StepRun FinalizeRequest)

/-- What a claim hands to a run: the Execution as the claim committed it, and the
paths planned for it. -/
structure Claimed where
  execution : ExecutionRow
  steps : List ExecutionStep
  workspacePath : String
  notebookPath : String

/-- The local variables of a run that its handlers read. -/
structure Locals where
  runtimeSessionId : Option SessionId := none
  failedSequence : Option ℕ := none
  runInFlight : Option StepRun := none

/-- A part of a run, before its handlers. -/
abbrev Body (α : Type) := Program Effect Failure (Failure × Locals) α

/-- A part of a run, with the variables as they are when it raises. -/
def Locals.run (l : Locals) {α : Type} (p : Job α) : Body α :=
  p.under l

/-! ### SINGLE -/

section

variable (lease : ExecutionLease)

/-- The check of a retained session before it is resumed; `true` when the retry
is deferred instead. -/
def preflight (sessionId : SessionId) : Job Bool := do
  let found ← Program.handle
    (do
      let answer ← .await (.sessionExists sessionId)
      return some answer)
    fun x =>
      if x.isDriverError then do
        transaction fun c => .deferRetainedRetry c.clock lease
        return none
      else .raise x
  match found with
  | none => return true
  | some true => return false
  | some false => .raise .sessionLost

/-- The sources of the Steps are read. -/
def readSources : List ExecutionStep → Job Unit
  | [] => return
  | _ :: rest => do
    external .readSource
    readSources rest

/-- The handlers around one Step of a SINGLE run. -/
def singleStepFailed (l : Locals) (sequence : ℕ) : Failure → Body StepResultDescriptor
  | .cancelled => do
    l.run do
      if ¬ (← .await .shuttingDown) then registerIncomplete lease sequence true
    .raise (.cancelled, l)
  | .storedTimeout scope stored =>
    .raise (.storedTimeout scope stored, { l with failedSequence := some sequence })
  | .storedOutputLimit stored =>
    .raise (.storedOutputLimit stored, { l with failedSequence := some sequence })
  | .storedExecution stored => do
    let l := { l with failedSequence := some sequence }
    l.run (markFailed lease sequence stored true)
    let l := { l with runInFlight := none }
    l.run do
      releaseJournal
      recordFailureEvidence lease sequence
    .raise (.storedExecution stored, l)
  | .storedStep original stored => do
    let l := { l with failedSequence := some sequence }
    match stored with
    | none => pure ()
    | some result =>
      l.run (markFailed lease sequence result ((original.policy false).2 != .notRetryable))
    .raise (.storedStep original stored, l)
  | x => .raise (x, l)

/-- One Step of a SINGLE run. -/
def singleStep (l : Locals) (run : StepRun) (handover : Option HandoverRow) : Body Locals := do
  let l := { l with runInFlight := some run }
  let result ← (executeStep lease run handover).handle (singleStepFailed lease l run.sequence)
  l.run (markSucceeded lease run.sequence result)
  let l := { l with runInFlight := none }
  l.run (publishSuccess lease run.sequence)
  return l

/-- The Steps from `sequence` on; the first may be taken over. -/
def singleSteps (sessionId : SessionId) (l : Locals) :
    List ℕ → Option (StepRun × Option HandoverRow) → Body Unit
  | [], _ => l.run (completeSession lease sessionId)
  | _ :: rest, some (run, handover) => do
    let l ← singleStep lease l run handover
    singleSteps sessionId l rest none
  | sequence :: rest, none => do
    let run ← l.run (startStep lease sequence)
    let l ← singleStep lease l run none
    singleSteps sessionId l rest none

/-- A retry that continues on its retained session. -/
def resumes (e : ExecutionRow) (handover : Option HandoverRow) : Bool :=
  handover.isNone && decide (0 < e.retryCount) && e.retryStrategy == .fromFailedStep &&
    e.retryFromSequence.isSome && e.runtimeSessionId.isSome

/-- The positions of the Steps from one on. -/
def sequencesFrom (start : ℕ) (steps : List ExecutionStep) : List ℕ :=
  (List.range steps.length).drop start

/-- A taken over run: the session and the Step in flight are the row's. -/
def singleTakenOver (claimed : Claimed) (handover : HandoverRow) : Body Unit := do
  let l : Locals := { runtimeSessionId := claimed.execution.runtimeSessionId }
  let run ← l.run (.await (.loadRun lease))
  match claimed.execution.runtimeSessionId with
  | none => .raise (.other, l)
  | some sessionId =>
    singleSteps lease sessionId l (sequencesFrom run.sequence claimed.steps)
      (some (run, some handover))

/-- A run on a new session, or on the retained one. -/
def singleStarted (claimed : Claimed) (resume : Bool) (l : Locals) : Body Unit := do
  l.run do
    external .prepareWorkspace
    transaction fun c => .ensureCount c.clock lease claimed.steps.length
    prepareNotebook lease claimed.steps
  let start := if resume then claimed.execution.retryFromSequence.getD 0 else 0
  let sessionId ← match resume, l.runtimeSessionId with
    | true, some sessionId => pure sessionId
    | true, none => .raise (.other, l)
    | false, _ => l.run (.await .startSession)
  let l := { l with runtimeSessionId := some sessionId }
  l.run (transaction fun c => .recordRuntimeSession c.clock lease sessionId
    claimed.workspacePath claimed.notebookPath)
  singleSteps lease sessionId l (sequencesFrom start claimed.steps) none

/-- The run of a SINGLE Execution, up to its failures. -/
def singleBody (claimed : Claimed) (handover : Option HandoverRow) : Body Unit := do
  let resume := resumes claimed.execution handover
  let l : Locals := { runtimeSessionId :=
    if resume then claimed.execution.runtimeSessionId else none }
  let deferred ← match l.runtimeSessionId with
    | some sessionId => l.run (preflight lease sessionId)
    | none => pure false
  if deferred then return
  else
    l.run (readSources claimed.steps)
    match handover with
    | some row => singleTakenOver lease claimed row
    | none => singleStarted lease claimed resume l

/-- The handler of a Step that hit a limit. -/
def singleAborted (l : Locals) (failureType : FailureType) (stored : StepResultDescriptor) :
    Job Unit :=
  match l.runtimeSessionId, l.failedSequence with
  | some sessionId, some sequence => do
    let resolution ← abortStep lease sessionId sequence failureType stored
    recordFailureEvidence lease sequence
    finalizeRun lease fun c => {
      status := .failed
      errorMessage := some c.text
      retainSession := resolution.retainSession
      retryFromSequence := some sequence
      failureType := some failureType
      retryStrategy := resolution.retryStrategy
      cleanupStatus := resolution.cleanupStatus }
  | _, _ => .raise .other

/-- The handlers around a SINGLE run. -/
def singleFailed : Failure × Locals → Job Unit
  | (.cancelled, l) => do
    if ← handOffCancelled lease l.runInFlight then .raise .cancelled
    else
      let cleanup ← stopSession lease l.runtimeSessionId
      finalizeRun lease fun _ => {
        status := .failed
        errorMessage := some "Executor worker stopped while the execution was running."
        failureType := some .workerShutdown
        retryStrategy := .fromStart
        cleanupStatus := cleanup }
      .raise .cancelled
  | (.storedTimeout scope stored, l) => singleAborted lease l (.ofScope scope) stored
  | (.storedOutputLimit stored, l) => singleAborted lease l .outputLimitExceeded stored
  | (.leaseLost, _) => return
  | (.deadline, _) => .raise .deadline
  | (x, l) => do
    external .diagnostics
    let retain := x.isExecutionError && l.runtimeSessionId.isSome && l.failedSequence.isSome
    let policy := x.policy retain
    let cleanup ← if retain then pure .notRequired else stopSession lease l.runtimeSessionId
    finalizeRun lease fun c => {
      status := .failed
      errorMessage := some c.text
      retainSession := retain
      retryFromSequence := l.failedSequence
      failureType := some policy.1
      retryStrategy := policy.2
      cleanupStatus := cleanup }

/-- The run of a SINGLE Execution. -/
def single (claimed : Claimed) (handover : Option HandoverRow) : Job Unit :=
  (singleBody lease claimed handover).handle (singleFailed lease)

/-! ### MULTI -/

/-- The Operation ends FAILED and the Execution waits for the next one. -/
def failOperation (operationId : UUID) (failureType : FailureType) : Job Unit :=
  transaction fun c =>
    .completeOperation c.clock lease operationId .failed (some c.text) (some failureType)

/-- The handler of a MULTI Step that hit a limit. -/
def multiAborted (sessionId : SessionId) (operationId : UUID) (sequence : ℕ)
    (failureType : FailureType) (stored : StepResultDescriptor) : Job Unit := do
  let resolution ← abortStep lease sessionId sequence failureType stored
  transaction fun c => .skipStepsAfter c.clock lease operationId sequence
  recordFailureEvidence lease sequence
  if resolution.retainSession then failOperation lease operationId failureType
  else finalizeRun lease fun c => {
    status := .failed
    errorMessage := some c.text
    failureType := some failureType
    cleanupStatus := resolution.cleanupStatus }

/-- The handlers around one Step of a MULTI run; `none` ends the run. -/
def multiStepFailed (l : Locals) (sessionId : SessionId) (operationId : UUID) (sequence : ℕ) :
    Failure → Body (Option StepResultDescriptor)
  | .cancelled => do
    l.run do
      if ¬ (← .await .shuttingDown) then registerIncomplete lease sequence true
    .raise (.cancelled, l)
  | .storedTimeout scope stored => do
    l.run (multiAborted lease sessionId operationId sequence (.ofScope scope) stored)
    return none
  | .storedOutputLimit stored => do
    l.run (multiAborted lease sessionId operationId sequence .outputLimitExceeded stored)
    return none
  | .storedExecution stored => do
    l.run (markFailed lease sequence stored true)
    let l := { l with runInFlight := none }
    l.run do
      releaseJournal
      transaction fun c => .skipStepsAfter c.clock lease operationId sequence
      recordFailureEvidence lease sequence
      failOperation lease operationId .toolError
    return none
  | .storedStep original stored => do
    match stored with
    | none => pure ()
    | some result => l.run (markFailed lease sequence result false)
    .raise (.storedStep original stored, l)
  | x => .raise (x, l)

/-- One Step of a MULTI run; `none` when the run ended with it. -/
def multiStep (l : Locals) (sessionId : SessionId) (operationId : UUID) (run : StepRun)
    (handover : Option HandoverRow) : Body (Option Locals) := do
  let l := { l with runInFlight := some run }
  let result ← Program.handle
    (do
      let result ← executeStep lease run handover
      return some result)
    (multiStepFailed lease l sessionId operationId run.sequence)
  match result with
  | none => return none
  | some result =>
    l.run (markSucceeded lease run.sequence result)
    let l := { l with runInFlight := none }
    l.run (publishSuccess lease run.sequence)
    return some l

/-- The Steps of an Operation, one after the other. -/
def multiSteps (sessionId : SessionId) (operationId : UUID) (l : Locals) :
    List ExecutionStep → Option (StepRun × Option HandoverRow) → Body Unit
  | [], _ => l.run (transaction fun c =>
      .completeOperation c.clock lease operationId .succeeded none none)
  | step :: rest, takenOver => do
    l.run (external .readSource)
    let (run, handover) ← match takenOver with
      | some taken => pure taken
      | none => do
        let run ← l.run (startStep lease step.sequence)
        pure (run, none)
    match ← multiStep lease l sessionId operationId run handover with
    | none => return
    | some l => multiSteps sessionId operationId l rest none

/-- The Steps a MULTI run executes: the PENDING ones of its Operation and the one
it took over, in order. -/
def pendingSteps (claimed : Claimed) (operationId : UUID) (takenOver : Option StepRun) :
    List ExecutionStep :=
  (claimed.steps.filter fun s => s.operationId == operationId &&
    (s.status == .pending || takenOver.any (·.sequence == s.sequence))).mergeSort
      fun s s' => decide (s.sequence ≤ s'.sequence)

/-- The Steps of the active Operation on an established session. -/
def multiOperation (claimed : Claimed) (handover : Option HandoverRow) (l : Locals)
    (sessionId : SessionId) (takenOver : Option StepRun) : Body Unit := do
  match claimed.execution.activeOperationId with
  | none => .raise (.other, l)
  | some operationId =>
    let pending := pendingSteps claimed operationId takenOver
    if pending = [] then .raise (.other, l)
    else
      match takenOver with
      | none => l.run (prepareNotebook lease pending)
      | some _ => pure ()
      multiSteps lease sessionId operationId l pending (takenOver.map fun run => (run, handover))

/-- The run of a MULTI Execution, up to its failures. -/
def multiBody (claimed : Claimed) (handover : Option HandoverRow) : Body Unit := do
  let l : Locals := { runtimeSessionId := claimed.execution.runtimeSessionId }
  match handover with
  | some _ => do
    let run ← l.run (.await (.loadRun lease))
    match l.runtimeSessionId with
    | none => .raise (.other, l)
    | some sessionId => multiOperation lease claimed handover l sessionId (some run)
  | none => do
    l.run (external .prepareWorkspace)
    let sessionId ← match l.runtimeSessionId with
      | some sessionId => pure sessionId
      | none => l.run (.await .startSession)
    let l := { l with runtimeSessionId := some sessionId }
    l.run (transaction fun c => .recordRuntimeSession c.clock lease sessionId
      claimed.workspacePath claimed.notebookPath)
    if claimed.execution.finalizationRequested then
      l.run do
        projectRequired lease
        completeSession lease sessionId
    else multiOperation lease claimed none l sessionId none

/-- The handlers around a MULTI run. -/
def multiFailed : Failure × Locals → Job Unit
  | (.cancelled, l) => do
    if ← handOffCancelled lease l.runInFlight then .raise .cancelled
    else
      let cleanup ← stopSession lease l.runtimeSessionId
      finalizeRun lease fun _ => {
        status := .failed
        errorMessage := some "Executor worker stopped while a MULTI Operation Step was running."
        failureType := some .workerShutdown
        cleanupStatus := cleanup }
      .raise .cancelled
  | (.leaseLost, _) => return
  | (.deadline, _) => .raise .deadline
  | (x, l) => do
    external .diagnostics
    let cleanup ← stopSession lease l.runtimeSessionId
    finalizeRun lease fun c => {
      status := .failed
      errorMessage := some c.text
      failureType := some (x.policy false).1
      cleanupStatus := cleanup }

/-- The run of a MULTI Execution. -/
def multi (claimed : Claimed) (handover : Option HandoverRow) : Job Unit :=
  (multiBody lease claimed handover).handle (multiFailed lease)

/-- `ExecutionRunner.run` after its claim. -/
def run (claimed : Claimed) (handover : Option HandoverRow) : Job Unit :=
  match claimed.execution.operationMode with
  | .multi => multi lease claimed handover
  | .single => single lease claimed handover

end

/-! ### Cancellation -/

/-- What the cancellation of an Execution needs. -/
structure CancellationWork where
  lease : CancellationLease
  runtimeTargetId : Option UUID
  runtimeSessionId : Option SessionId

/-- `_stop_cancelled_runtime`. -/
def stopCancelledRuntime (work : CancellationWork) : Job RuntimeSessionCleanupStatus :=
  match work.runtimeSessionId, work.runtimeTargetId with
  | none, _ => return .notRequired
  | some _, none => do
    external .diagnostics
    return .failed
  | some sessionId, some _ => do
    .await (.assertCancellation work.lease)
    if ← .await .targetUsable then bestEffortSessionStop sessionId
    else
      external .diagnostics
      return .failed

/-- `cancel` after its claim. -/
def cancellation (work : CancellationWork) : Job Unit :=
  onException
    (do
      let cleanup ← stopCancelledRuntime work
      transaction fun c => .finalizeCancellation c.clock work.lease cleanup)
    fun _ => return

/-! ### Background passes -/

/-- `RuntimeSessionRecovery.cleanup`. -/
def recoverSession (observation : RuntimeObservation) : Job Unit :=
  onException
    (do
      let current ← .await (.observe observation)
      if current ∧ (observation.status = .failed ∨ observation.status = .cancelled) then
        match observation.sessionId with
        | none => return
        | some sessionId =>
          let deleted ← onException
            (do
              if ← .await .targetUsable then
                .await (.deleteSession sessionId)
                return true
              else return false)
            fun _ => return false
          transaction fun c => .recordResult c.clock.now observation
            (if deleted then .succeeded else .failed)
      else return)
    fun _ => external .diagnostics

/-- A background transaction and the deletion of the session it reserved. -/
def reserveAndRecover (tx : Choice → TableTransaction) : Job Unit := do
  match ← .await (.reserve tx) with
  | none => return
  | some observation => recoverSession observation

/-- The pass of `fence_expired_leases` over one Execution. -/
def recoverExpiredLease (view : ClaimView) : Job Unit :=
  reserveAndRecover fun c => .fenceExpiredLease c.clock.now view

/-- The passes of `RetainedSessionCleaner` over one Execution. -/
def cleanupExpiredSession : Job Unit :=
  reserveAndRecover fun c => .cleanupExpired c.clock.now

/-- `retry_unresolved`. -/
def retryUnresolvedSession : Job Unit :=
  reserveAndRecover fun c => .retryUnresolved c.clock.now

/-- `_fail_waiting_execution`, on what an audit observed. -/
def failWaiting (observation : RuntimeObservation) (failureType : FailureType)
    (message : String) : Job Unit :=
  reserveAndRecover fun c =>
    .failWaitingExecution c.clock.now observation failureType message

/-- `_end_waiting_execution`, on what an audit observed. -/
def endWaiting (observation : RuntimeObservation) (finalizedBy : FinalizedBy) : Job Unit :=
  reserveAndRecover fun c => .endWaitingExecution c.clock.now observation finalizedBy

/-- The probe of a waiting session; an outage is no answer. -/
def probeWaiting (observation : RuntimeObservation) (sessionId : SessionId) : Job Unit := do
  let found ← onException (.await (.sessionExists sessionId)) fun _ => do
    external .diagnostics
    return true
  if found then return
  else
    failWaiting observation .runtimeSessionLost
      "The retained MULTI Runtime session no longer exists."

/-- `_audit_waiting` on a row read before. -/
def auditWaiting (row : ExecutionRow) (now : Time) : Job Unit :=
  let observation := RuntimeObservation.capture row
  let audit : Job Unit :=
    if row.executionExpiresAt.any (· ≤ now) then endWaiting observation .maxRuntime
    else if row.operationWaitExpiresAt.any (· ≤ now) then endWaiting observation .waitTimeout
    else do
      if ← .await .targetUsable then
        match row.runtimeSessionId with
        | none =>
          failWaiting observation .runtimeSessionLost
            "The retained MULTI Runtime session reference was lost."
        | some sessionId => probeWaiting observation sessionId
      else
        failWaiting observation .runtimeUnavailable
          "The assigned Runtime Target is missing or disabled while waiting for the Agent."
  onException audit fun _ => external .diagnostics

end ExecutorService
