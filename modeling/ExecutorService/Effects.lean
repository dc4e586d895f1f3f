/-
What a Worker job awaits.

A job is a coroutine of a Worker process: a run (`single_runner.py`,
`multi_runner.py`), a cancellation, or a pass over one Execution.  Between two
awaits it only computes, so a job is a `Program` over the effects listed here:
database transactions, Runtime calls, and calls that touch nothing shared.

An await may return, may raise, or may be cancelled, and a call that raises may
have taken effect or not; `Choice` is what the scheduler, the clock and the
Runtime decide for one await.
-/
import ExecutorService.Program
import ExecutorService.Store

namespace ExecutorService

/-! ### Exceptions -/

/-- What a timeout is of. -/
inductive TimeoutScope
  | step | operation
  deriving DecidableEq, Repr

/-- The failure of a timeout. -/
def FailureType.ofScope : TimeoutScope → FailureType
  | .step => .stepTimeout
  | .operation => .operationTimeout

/-- The exceptions the jobs tell apart.  `deadline` is the cancellation that
`asyncio.timeout` delivers inside its own block. -/
inductive Failure
  | cancelled
  | deadline
  | leaseLost
  | sessionLost
  | driver
  | execution
  | timeout (scope : TimeoutScope)
  | outputLimit
  | completion (phase : String)
  | storedTimeout (scope : TimeoutScope) (stored : StepResultDescriptor)
  | storedOutputLimit (stored : StepResultDescriptor)
  | storedExecution (stored : StepResultDescriptor)
  | storedStep (original : Failure) (stored : Option StepResultDescriptor)
  | other
  deriving DecidableEq

namespace Failure

/-- `except Exception` catches it. -/
def isException : Failure → Bool
  | .cancelled | .deadline => false
  | _ => true

/-- A `RuntimeExecutionError`: the code failed, the session is usable. -/
def isExecutionError : Failure → Bool
  | .execution | .timeout _ | .outputLimit | .storedTimeout .. | .storedOutputLimit _
  | .storedExecution _ => true
  | _ => false

/-- A `RuntimeDriverError`. -/
def isDriverError : Failure → Bool
  | .driver | .sessionLost => true
  | x => x.isExecutionError

/-- The exception a rolled back transaction raises. -/
def ofStore : StoreError → Failure
  | .leaseLost => .leaseLost
  | .completion phase => .completion phase
  | _ => .other

/-- `failure_policy`: the failure type and the retry it allows. -/
def policy : Failure → Bool → FailureType × RetryStrategy
  | .storedStep original _, retain => original.policy retain
  | .completion _, _ => (.completionFailed, .notRetryable)
  | .sessionLost, _ => (.runtimeSessionLost, .fromStart)
  | .timeout scope, retain | .storedTimeout scope _, retain =>
    (.ofScope scope, if retain then .fromFailedStep else .fromStart)
  | .outputLimit, retain | .storedOutputLimit _, retain =>
    (.outputLimitExceeded, if retain then .fromFailedStep else .fromStart)
  | .execution, retain | .storedExecution _, retain =>
    (.toolError, if retain then .fromFailedStep else .fromStart)
  | .driver, _ => (.runtimeUnavailable, .fromStart)
  | _, _ => (.internalError, .notRetryable)

end Failure

/-! ### Effects -/

/-- Awaits that change neither the rows nor the sessions. -/
inductive External
  | readSource | prepareWorkspace | snapshot | beginResult | follow | releaseJournal
  | diagnostics | notebookSources | prepareNotebook | buildNotebook | writeNotebook | retryDelay
  | notebookMetadata | discoverArtifacts | interruptSession
  deriving DecidableEq, Repr

/-- What is decided outside the job for one await: the clock, whether the call
fails and whether it took effect before it did, and the data it returns. -/
structure Choice where
  clock : Clock
  eventTime : Time
  interrupt : Option (Bool × Failure) := none
  answer : Bool := false
  scope : TimeoutScope := .step
  text : String := ""
  sessionId : SessionId := 0
  historyId : UUID := 0
  requestId : UUID := 0
  artifactBaseline : ℕ := 0
  artifacts : List ArtifactRow := []
  notebook : ArtifactRow := ⟨0, .notebook, .available, ""⟩
  abort : RuntimeAbortStatus := .failed
  stored : Option StepResultDescriptor := none
  executionCount : Option ℕ := none

/-- The effects of a job, with the type of their reply. -/
inductive Effect : Type → Type
  | external (call : External) : Effect Unit
  | shuttingDown : Effect Bool
  | deadlines (submitted : Bool) : Effect TimeoutScope
  | transaction (tx : Choice → TableTransaction) : Effect Unit
  | markStarted (lease : ExecutionLease) (sequence : ℕ) : Effect Tables.StepRun
  | loadRun (lease : ExecutionLease) : Effect Tables.StepRun
  | releaseForHandover (lease : ExecutionLease) : Effect Bool
  | cancellationOwnsTerminal : Effect Bool
  | assertCancellation (lease : CancellationLease) : Effect Unit
  | reserve (tx : Choice → TableTransaction) : Effect (Option RuntimeObservation)
  | targetUsable : Effect Bool
  | observe (observation : RuntimeObservation) : Effect Bool
  | startSession : Effect SessionId
  | deleteSession (sessionId : SessionId) : Effect Unit
  | abortSession (sessionId : SessionId) : Effect RuntimeAbortStatus
  | sessionExists (sessionId : SessionId) : Effect Bool
  | startExecution (lease : ExecutionLease) (run : Tables.StepRun) : Effect Unit
  | sealResult : Effect StepResultDescriptor
  | preserveResult : Effect (Option StepResultDescriptor)

/-- A job's program. -/
abbrev Job (α : Type) := Program Effect Failure Failure α

/-! ### The world -/

/-- What the jobs for one Execution share: its history, the Runtime sessions
created for it and those still alive, and the journal requests submitted to the
Runtime, as Attempt, sequence and request. -/
structure World where
  history : History
  created : List SessionId := []
  sessions : List SessionId := []
  submitted : List (UUID × ℕ × UUID) := []

/-- The rows of the Execution. -/
def World.tables (w : World) : Tables :=
  w.history.rows.tables

/-- The session a background pass leaves to delete: of a row it changed to a
pending cleanup. -/
def reservation (before after : ExecutionRow) : Option RuntimeObservation :=
  if before.version ≠ after.version ∧ after.runtimeSessionCleanupStatus = .pending ∧
      after.runtimeSessionId.isSome then some (.capture after)
  else none

/-- The failures an await may raise; recording a diagnostic or a partial result
swallows every exception. -/
def Effect.mayRaise {α : Type} : Effect α → Failure → Bool
  | _, .cancelled | _, .deadline => true
  | .external .diagnostics, _ | .preserveResult, _ => false
  | _, .other => true
  | .deadlines submitted, .timeout _ => !submitted
  | .external .follow, .execution | .external .follow, .outputLimit => true
  | .external _, .driver | .external _, .sessionLost => true
  | .startSession, .driver | .deleteSession _, .driver | .abortSession _, .driver
  | .sessionExists _, .driver | .startExecution .., .driver | .startExecution .., .sessionLost =>
    true
  | _, _ => false

/-- The failure of an await, and whether it took effect before. -/
def Effect.interruption {α : Type} (e : Effect α) (c : Choice) : Option (Bool × Failure) :=
  c.interrupt.filter fun i => e.mayRaise i.2

/-- The reply to an effect that would turn `w` into `w'` and return `value`. -/
def Effect.reply {α : Type} (e : Effect α) (c : Choice) (w w' : World) (value : α) :
    World × Except Failure α :=
  match e.interruption c with
  | none => (w', .ok value)
  | some (performed, x) => (if performed then w' else w, .error x)

/-- A transaction: rolled back with its own error, or committed. -/
def Effect.commit {α : Type} (settings : Settings) (e : Effect α) (c : Choice)
    (tx : TableTransaction) (w : World) (value : α) : World × Except Failure α :=
  match tx.commit settings c.eventTime w.history.rows with
  | .ok _ =>
    e.reply c w { w with history := w.history.step settings (.table c.eventTime tx) } value
  | .error error =>
    (w, .error (match e.interruption c with
      | none => .ofStore error
      | some (_, x) => x))

/-- A read of the rows. -/
def Effect.read {α : Type} (e : Effect α) (c : Choice) (x : Txn α) (w : World) :
    World × Except Failure α :=
  match x with
  | .ok value => e.reply c w w value
  | .error error => (w, .error (.ofStore error))

/-- What an await does to the world, and its reply. -/
def Effect.perform (settings : Settings) (c : Choice) (w : World) :
    {α : Type} → Effect α → World × Except Failure α
  | _, .external call => Effect.reply (.external call) c w w ()
  | _, .shuttingDown => (w, .ok c.answer)
  | _, .deadlines submitted => Effect.reply (.deadlines submitted) c w w c.scope
  | _, .transaction tx => Effect.commit settings (.transaction tx) c (tx c) w ()
  | _, .markStarted lease sequence =>
    Effect.commit settings (.markStarted lease sequence) c
      (.markStarted c.clock lease sequence c.historyId c.requestId c.artifactBaseline) w
      ⟨sequence, c.requestId, false, c.artifactBaseline⟩
  | _, .loadRun lease => Effect.read (.loadRun lease) c (w.tables.loadRun c.clock lease) w
  | _, .releaseForHandover lease =>
    Effect.commit settings (.releaseForHandover lease) c (.releaseForHandover c.clock lease) w
      (w.tables.followableStep lease).isSome
  | _, .cancellationOwnsTerminal =>
    Effect.reply .cancellationOwnsTerminal c w w
      (w.tables.execution.status == .cancelRequested || w.tables.execution.status == .cancelled)
  | _, .assertCancellation lease =>
    Effect.read (.assertCancellation lease) c
      (w.tables.requireActiveCancellationLease c.clock.lease lease) w
  | _, .reserve tx =>
    Effect.commit settings (.reserve tx) c (tx c) w
      (reservation w.tables.execution
        (w.history.step settings (.table c.eventTime (tx c))).rows.tables.execution)
  | _, .targetUsable => Effect.reply .targetUsable c w w c.answer
  | _, .observe observation =>
    Effect.reply (.observe observation) c w w (observation.current w.tables.execution)
  | _, .startSession =>
    if c.sessionId ∈ w.created then (w, .error .driver)
    else Effect.reply .startSession c w
      { w with
        created := w.created ++ [c.sessionId]
        sessions := w.sessions ++ [c.sessionId] } c.sessionId
  | _, .deleteSession sessionId =>
    Effect.reply (.deleteSession sessionId) c w
      { w with sessions := w.sessions.filter (· != sessionId) } ()
  | _, .abortSession sessionId =>
    -- Idle only if it exists, missing only if it does not; a transport error fails.
    Effect.reply (.abortSession sessionId) c w w
      (match c.abort, decide (sessionId ∈ w.sessions) with
        | .idleConfirmed, true => .idleConfirmed
        | .sessionMissing, false => .sessionMissing
        | _, _ => .failed)
  | _, .sessionExists sessionId =>
    Effect.reply (.sessionExists sessionId) c w w (decide (sessionId ∈ w.sessions))
  | _, .startExecution lease run =>
    Effect.reply (.startExecution lease run) c w
      { w with submitted := w.submitted ++ [(lease.attemptId, run.sequence, run.requestId)] } ()
  | _, .sealResult => match c.stored with
    | some stored => Effect.reply .sealResult c w w stored
    | none => (w, .error .other)
  | _, .preserveResult => Effect.reply .preserveResult c w w c.stored

end ExecutorService
