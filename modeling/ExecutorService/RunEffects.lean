/-
What a run awaits.

A run writes under its own lease only, and the one place where it creates a Runtime
session is the start of a run that has none to go on with.  Both are facts about its
program, whatever the replies are: one lemma for each function of `StepFlow` and
`Runners`, in their order.

* `startsSession` — the runs that have no session to go on with;
* `run_effects` — a run awaits the `RunEffect`s of its lease, and creates a session only
  if it is one of those.
-/
import ExecutorService.LeaseFencing
import ExecutorService.Runners
import Mathlib

namespace ExecutorService

open Job Program
open Tables (StepRun FinalizeRequest)

/-- The effects of a run under `lease`; `starts` lets it create a session. -/
inductive RunEffect (lease : ExecutionLease) (starts : Bool) : {β : Type} → Effect β → Prop
  | external (call : External) : RunEffect lease starts (.external call)
  | shuttingDown : RunEffect lease starts .shuttingDown
  | deadlines (submitted : Bool) : RunEffect lease starts (.deadlines submitted)
  | transaction {tx : Choice → TableTransaction}
      (guarded : ∀ c, (tx c).guard = some (.execution lease)) :
      RunEffect lease starts (.transaction tx)
  | markStarted (sequence : ℕ) : RunEffect lease starts (.markStarted lease sequence)
  | loadRun : RunEffect lease starts (.loadRun lease)
  | releaseForHandover : RunEffect lease starts (.releaseForHandover lease)
  | cancellationOwnsTerminal : RunEffect lease starts .cancellationOwnsTerminal
  | startSession (allowed : starts = true) : RunEffect lease starts .startSession
  | deleteSession (sessionId : SessionId) : RunEffect lease starts (.deleteSession sessionId)
  | abortSession (sessionId : SessionId) : RunEffect lease starts (.abortSession sessionId)
  | sessionExists (sessionId : SessionId) : RunEffect lease starts (.sessionExists sessionId)
  | startExecution (run : StepRun) : RunEffect lease starts (.startExecution lease run)
  | sealResult : RunEffect lease starts .sealResult
  | preserveResult : RunEffect lease starts .preserveResult

section

variable {lease : ExecutionLease} {starts : Bool}

/-! ### The parts of a run -/

theorem transaction_effects {tx : Choice → TableTransaction}
    (guarded : ∀ c, (tx c).guard = some (.execution lease)) :
    (transaction tx).Within (RunEffect lease starts) :=
  .await (.transaction guarded)

theorem external_effects (call : External) :
    (external call).Within (RunEffect lease starts) :=
  .await (.external call)

theorem onException_effects {α : Type} {p : Job α} {h : Failure → Job α}
    (hp : p.Within (RunEffect lease starts)) (hh : ∀ x, (h x).Within (RunEffect lease starts)) :
    (onException p h).Within (RunEffect lease starts) := by
  refine hp.handle fun x => ?_
  split
  · exact hh x
  · trivial

theorem onOtherException_effects {α : Type} {p : Job α} {h : Failure → Job α}
    (hp : p.Within (RunEffect lease starts)) (hh : ∀ x, (h x).Within (RunEffect lease starts)) :
    (onOtherException p h).Within (RunEffect lease starts) := by
  refine hp.handle fun x => ?_
  split
  · exact hh x
  · trivial

/-- A diagnostic, and an end. -/
theorem diagnostics_effects {α : Type} {p : Job α} (h : p.Within (RunEffect lease starts)) :
    (external .diagnostics >>= fun _ => p).Within (RunEffect lease starts) :=
  (external_effects _).bind fun _ => h

theorem assertExecution_effects :
    (assertExecution lease).Within (RunEffect lease starts) :=
  transaction_effects fun _ => rfl

theorem registerNotebook_effects :
    (registerNotebook lease).Within (RunEffect lease starts) :=
  onOtherException_effects
    ((external_effects _).bind fun _ => transaction_effects fun _ => rfl)
    fun _ => diagnostics_effects trivial

theorem prepareNotebook_effects (steps : List ExecutionStep) :
    (prepareNotebook lease steps).Within (RunEffect lease starts) := by
  refine (external_effects _).bind fun _ => ?_
  split
  · trivial
  · exact assertExecution_effects.bind fun _ =>
      (external_effects _).bind fun _ => registerNotebook_effects

theorem recordProjection_effects (status : NotebookProjectionStatus) (attemptCount : ℕ)
    (failed : Bool) :
    (recordProjection lease status attemptCount failed).Within (RunEffect lease starts) :=
  transaction_effects fun _ => rfl

theorem writeNotebook_effects (remaining : ℕ) :
    (writeNotebook lease remaining).Within (RunEffect lease starts) := by
  induction remaining with
  | zero => exact (recordProjection_effects _ _ _).bind fun _ => diagnostics_effects trivial
  | succ remaining ih =>
    refine Within.bind (onOtherException_effects ?_ fun _ => ?_) fun written => ?_
    · exact assertExecution_effects.bind fun _ => (external_effects _).bind fun _ => trivial
    · trivial
    · split
      · exact (recordProjection_effects _ _ _).bind fun _ =>
          registerNotebook_effects.bind fun _ => trivial
      · split
        · exact (external_effects _).bind fun _ => ih
        · exact ih

theorem project_effects : (project lease).Within (RunEffect lease starts) := by
  refine assertExecution_effects.bind fun _ =>
    (transaction_effects fun _ => rfl).bind fun _ => ?_
  refine (onException_effects (external_effects _) fun x => ?_).bind fun _ =>
    writeNotebook_effects 3
  exact (recordProjection_effects _ _ _).bind fun _ => diagnostics_effects trivial

theorem projectRequired_effects : (projectRequired lease).Within (RunEffect lease starts) := by
  refine (project_effects.handle fun x => ?_).bind fun projected => ?_
  · split <;> trivial
  · split <;> trivial

theorem projectAfterFailure_effects :
    (projectAfterFailure lease).Within (RunEffect lease starts) :=
  onOtherException_effects project_effects fun _ => trivial

theorem discoverAndRegister_effects (sequence : ℕ) (allow : Bool) :
    (discoverAndRegister lease sequence allow).Within (RunEffect lease starts) :=
  (external_effects _).bind fun _ => transaction_effects fun _ => rfl

theorem registerIncomplete_effects (sequence : ℕ) (allow : Bool) :
    (registerIncomplete lease sequence allow).Within (RunEffect lease starts) :=
  onException_effects (discoverAndRegister_effects sequence allow) fun _ => external_effects _

theorem recordFailureEvidence_effects (sequence : ℕ) :
    (recordFailureEvidence lease sequence).Within (RunEffect lease starts) :=
  projectAfterFailure_effects.bind fun _ => registerIncomplete_effects sequence false

/-! ### One Step -/

theorem startStep_effects (sequence : ℕ) :
    (startStep lease sequence).Within (RunEffect lease starts) :=
  (external_effects _).bind fun _ => .await (.markStarted sequence)

theorem releaseJournal_effects : releaseJournal.Within (RunEffect lease starts) := by
  refine (external_effects _).handle fun x => ?_
  split <;> trivial

/-- What a Step that hit a limit or was left keeps of its output. -/
theorem preserveResult_effects {α : Type} {f : Option StepResultDescriptor → Job α}
    (h : ∀ stored, (f stored).Within (RunEffect lease starts)) :
    ((Program.await .preserveResult : Job _) >>= f).Within (RunEffect lease starts) :=
  (Within.await .preserveResult).bind h

/-- A Step that is followed to its end and sealed. -/
theorem follow_effects (run : StepRun) (handover : Option HandoverRow) :
    (do
      external .follow
      match handover with
      | none => pure ()
      | some row =>
        transaction fun c => .recordHandoverCompleted c.clock lease run.sequence row c.answer
        external .follow
      .await .sealResult : Job StepResultDescriptor).Within (RunEffect lease starts) := by
  refine (external_effects _).bind fun _ => ?_
  cases handover with
  | none => exact .await .sealResult
  | some row =>
    exact (transaction_effects fun _ => rfl).bind fun _ =>
      (external_effects _).bind fun _ => .await .sealResult

theorem executeWithResultStore_effects (run : StepRun) (handover : Option HandoverRow) :
    (executeWithResultStore lease run handover).Within (RunEffect lease starts) := by
  refine Within.handle ((external_effects _).bind fun _ => ?_) fun x => ?_
  · by_cases hsubmitted : run.submitted = true
    · simp only [hsubmitted, not_true_eq_false, if_false]
      exact follow_effects run handover
    · simp only [hsubmitted]
      refine Within.bind (.await (.startExecution run)) fun _ => ?_
      exact Within.bind (transaction_effects fun _ => rfl) fun _ => follow_effects run handover
  · split
    · exact preserveResult_effects fun stored => by cases stored <;> trivial
    · split
      · refine Within.bind (onException_effects (.await .sealResult) fun _ => ?_) fun _ => trivial
        exact preserveResult_effects fun _ => trivial
      · split
        · exact preserveResult_effects fun _ => trivial
        · trivial

theorem recordInterrupted_effects (sequence : ℕ) :
    (recordInterrupted lease sequence).Within (RunEffect lease starts) := by
  refine preserveResult_effects fun stored => ?_
  refine (transaction_effects fun _ => rfl).handle fun x => ?_
  split <;> trivial

theorem executeStep_effects (run : StepRun) (handover : Option HandoverRow) :
    (executeStep lease run handover).Within (RunEffect lease starts) := by
  refine (Within.await (.deadlines run.submitted)).bind fun scope => ?_
  refine ((executeWithResultStore_effects run handover).handle fun x => ?_).handle fun x =>
    diagnostics_effects trivial
  split
  · exact preserveResult_effects fun stored => by cases stored <;> trivial
  · refine (Within.await .shuttingDown).bind fun down => ?_
    split
    · trivial
    · exact (recordInterrupted_effects run.sequence).bind fun _ => trivial
  · trivial

theorem publishSuccess_effects (sequence : ℕ) :
    (publishSuccess lease sequence).Within (RunEffect lease starts) :=
  releaseJournal_effects.bind fun _ => projectRequired_effects.bind fun _ =>
    onOtherException_effects (discoverAndRegister_effects sequence false) fun _ =>
      diagnostics_effects trivial

theorem markSucceeded_effects (sequence : ℕ) (stored : StepResultDescriptor) :
    (markSucceeded lease sequence stored).Within (RunEffect lease starts) :=
  transaction_effects fun _ => rfl

theorem markFailed_effects (sequence : ℕ) (stored : StepResultDescriptor) (retryable : Bool) :
    (markFailed lease sequence stored retryable).Within (RunEffect lease starts) :=
  transaction_effects fun _ => rfl

/-! ### Aborts and ends -/

theorem abortResolution_effects (sessionId : SessionId) (status : RuntimeAbortStatus) :
    (abortResolution sessionId status).Within (RunEffect lease starts) := by
  unfold abortResolution
  split
  · trivial
  · trivial
  · refine Within.bind (onException_effects ?_ fun _ => ?_) fun deleted => ?_
    · exact (Within.await (.deleteSession sessionId)).bind fun _ => trivial
    · exact diagnostics_effects trivial
    · split <;> trivial

theorem abortStep_effects (sessionId : SessionId) (sequence : ℕ) (failureType : FailureType)
    (stored : StepResultDescriptor) :
    (abortStep lease sessionId sequence failureType stored).Within (RunEffect lease starts) := by
  have resolve : (resolveRuntimeAbort lease sessionId failureType).Within
      (RunEffect lease starts) := by
    refine (transaction_effects fun _ => rfl).bind fun _ => ?_
    refine Within.bind (onException_effects (.await (.abortSession sessionId)) fun _ => ?_)
      fun status => ?_
    · exact diagnostics_effects trivial
    have rest : (abortResolution sessionId status >>= fun resolution =>
        recordRuntimeAbort lease resolution.abortStatus resolution.cleanupStatus failureType >>=
          fun _ => (pure resolution : Job _)).Within (RunEffect lease starts) :=
      (abortResolution_effects sessionId status).bind fun _ =>
        (transaction_effects fun _ => rfl).bind fun _ => trivial
    split
    · exact diagnostics_effects rest
    · exact rest
  exact resolve.bind fun _ => (markFailed_effects sequence stored true).bind fun _ => trivial

theorem finalizeRun_effects (request : Choice → FinalizeRequest) :
    (finalizeRun lease request).Within (RunEffect lease starts) :=
  transaction_effects fun _ => rfl

theorem bestEffortSessionStop_effects (sessionId : SessionId) :
    (bestEffortSessionStop sessionId).Within (RunEffect lease starts) :=
  onException_effects
    ((external_effects _).bind fun _ =>
      (Within.await (.deleteSession sessionId)).bind fun _ => trivial)
    fun _ => diagnostics_effects trivial

theorem stopSession_effects (sessionId : Option SessionId) :
    (stopSession lease sessionId).Within (RunEffect lease starts) := by
  cases sessionId with
  | none => trivial
  | some sessionId =>
    refine Within.bind (Within.handle ?_ fun x => ?_) fun owns => ?_
    · exact assertExecution_effects.bind fun _ => trivial
    · split <;> trivial
    · split
      · refine (bestEffortSessionStop_effects sessionId).handle fun x => ?_
        split <;> trivial
      · trivial

theorem completeSession_effects (sessionId : SessionId) :
    (completeSession lease sessionId).Within (RunEffect lease starts) := by
  refine assertExecution_effects.bind fun _ => ?_
  refine Within.bind (onOtherException_effects (.await (.deleteSession sessionId)) fun _ => ?_)
    fun _ => finalizeRun_effects _
  exact diagnostics_effects trivial

theorem handOffCancelled_effects (runInFlight : Option StepRun) :
    (handOffCancelled lease runInFlight).Within (RunEffect lease starts) := by
  refine (Within.await .cancellationOwnsTerminal).bind fun owned => ?_
  split
  · exact (transaction_effects fun _ => rfl).bind fun _ => trivial
  · refine (Within.await .shuttingDown).bind fun down => ?_
    split
    · split
      · refine (Within.await .releaseForHandover).handle fun x => ?_
        split <;> trivial
      · trivial
    · trivial

/-! ### SINGLE -/

theorem run_within {α : Type} {l : Locals} {p : Job α} (h : p.Within (RunEffect lease starts)) :
    (l.run p).Within (RunEffect lease starts) :=
  h.under

theorem preflight_effects (sessionId : SessionId) :
    (preflight lease sessionId).Within (RunEffect lease starts) := by
  refine Within.bind (Within.handle ?_ fun x => ?_) fun found => ?_
  · exact (Within.await (.sessionExists sessionId)).bind fun _ => trivial
  · split
    · exact (transaction_effects fun _ => rfl).bind fun _ => trivial
    · trivial
  · split <;> trivial

theorem readSources_effects (steps : List ExecutionStep) :
    (readSources steps).Within (RunEffect lease starts) := by
  induction steps with
  | nil => trivial
  | cons step rest ih => exact (external_effects _).bind fun _ => ih

/-- A Step interrupted by a cancellation that is no shutdown leaves its artifacts. -/
theorem interrupted_effects {α : Type} (l : Locals) (sequence : ℕ) {f : Unit → Body α}
    (h : ∀ u, (f u).Within (RunEffect lease starts)) :
    (l.run (do
      if ¬ (← .await .shuttingDown) then registerIncomplete lease sequence true) >>= f).Within
      (RunEffect lease starts) := by
  refine Within.bind (run_within ((Within.await .shuttingDown).bind fun down => ?_)) h
  split
  · exact registerIncomplete_effects sequence true
  · trivial

theorem singleStepFailed_effects (l : Locals) (sequence : ℕ) (x : Failure) :
    (singleStepFailed lease l sequence x).Within (RunEffect lease starts) := by
  unfold singleStepFailed
  split
  · exact interrupted_effects l sequence fun _ => trivial
  · trivial
  · trivial
  · refine Within.bind (run_within (markFailed_effects ..)) fun _ => ?_
    refine Within.bind (run_within ?_) fun _ => trivial
    exact releaseJournal_effects.bind fun _ => recordFailureEvidence_effects sequence
  · split
    · trivial
    · exact Within.bind (run_within (markFailed_effects ..)) fun _ => trivial
  · trivial

theorem singleStep_effects (l : Locals) (run : StepRun) (handover : Option HandoverRow) :
    (singleStep lease l run handover).Within (RunEffect lease starts) := by
  refine Within.bind ((executeStep_effects run handover).handle fun x => ?_) fun result => ?_
  · exact singleStepFailed_effects _ run.sequence x
  · exact Within.bind (run_within (markSucceeded_effects ..)) fun _ =>
      Within.bind (run_within (publishSuccess_effects _)) fun _ => trivial

theorem singleSteps_effects (sessionId : SessionId) (sequences : List ℕ) (l : Locals)
    (takenOver : Option (StepRun × Option HandoverRow)) :
    (singleSteps lease sessionId l sequences takenOver).Within (RunEffect lease starts) := by
  induction sequences generalizing l takenOver with
  | nil => exact run_within (completeSession_effects sessionId)
  | cons sequence rest ih =>
    cases takenOver with
    | none =>
      exact Within.bind (run_within (startStep_effects sequence)) fun run =>
        Within.bind (singleStep_effects l run none) fun l => ih l none
    | some taken => exact Within.bind (singleStep_effects l taken.1 taken.2) fun l => ih l none

theorem singleTakenOver_effects (claimed : Claimed) (handover : HandoverRow) :
    (singleTakenOver lease claimed handover).Within (RunEffect lease starts) := by
  refine Within.bind (run_within (.await .loadRun)) fun run => ?_
  split
  · trivial
  · exact singleSteps_effects ..

theorem singleStarted_effects (claimed : Claimed) (resume : Bool) (l : Locals)
    (h : resume = false → starts = true) :
    (singleStarted lease claimed resume l).Within (RunEffect lease starts) := by
  refine Within.bind (run_within ?_) fun _ => ?_
  · exact (external_effects _).bind fun _ =>
      (transaction_effects fun _ => rfl).bind fun _ => prepareNotebook_effects _
  have rest : ∀ sessionId, (Locals.run { l with runtimeSessionId := some sessionId }
      (transaction fun c => .recordRuntimeSession c.clock lease sessionId claimed.workspacePath
        claimed.notebookPath) >>= fun _ =>
      singleSteps lease sessionId { l with runtimeSessionId := some sessionId } (sequencesFrom
        (if resume then claimed.execution.retryFromSequence.getD 0 else 0) claimed.steps)
        none).Within (RunEffect lease starts) := fun sessionId =>
    Within.bind (run_within (transaction_effects fun _ => rfl)) fun _ => singleSteps_effects ..
  dsimp only
  split
  · exact rest _
  · trivial
  · exact Within.bind (run_within (.await (.startSession (h rfl)))) rest

/-- A run that has no session to go on with. -/
def startsSession (e : ExecutionRow) (handover : Option HandoverRow) : Bool :=
  handover.isNone && match e.operationMode with
    | .multi => e.runtimeSessionId.isNone
    | .single => !resumes e handover

theorem singleBody_effects (claimed : Claimed) (handover : Option HandoverRow)
    (h : handover = none → resumes claimed.execution handover = false → starts = true) :
    (singleBody lease claimed handover).Within (RunEffect lease starts) := by
  have rest : ∀ (l : Locals) (next : Body Unit), next.Within (RunEffect lease starts) →
      (l.run (readSources claimed.steps) >>= fun _ => next).Within (RunEffect lease starts) :=
    fun _ _ hnext => Within.bind (run_within (readSources_effects _)) fun _ => hnext
  unfold singleBody
  dsimp only
  split
  · refine Within.bind (run_within (preflight_effects _)) fun deferred => ?_
    split
    · trivial
    · refine rest _ _ ?_
      cases handover with
      | none => exact singleStarted_effects claimed _ _ (h rfl)
      | some row => exact singleTakenOver_effects claimed row
  · refine rest _ _ ?_
    cases handover with
    | none => exact singleStarted_effects claimed _ _ (h rfl)
    | some row => exact singleTakenOver_effects claimed row

theorem singleAborted_effects (l : Locals) (failureType : FailureType)
    (stored : StepResultDescriptor) :
    (singleAborted lease l failureType stored).Within (RunEffect lease starts) := by
  unfold singleAborted
  split
  · exact (abortStep_effects ..).bind fun _ =>
      (recordFailureEvidence_effects _).bind fun _ => finalizeRun_effects _
  · trivial

theorem singleFailed_effects (x : Failure × Locals) :
    (singleFailed lease x).Within (RunEffect lease starts) := by
  unfold singleFailed
  split
  · refine (handOffCancelled_effects _).bind fun handed => ?_
    split
    · trivial
    · exact (stopSession_effects _).bind fun _ => (finalizeRun_effects _).bind fun _ => trivial
  · exact singleAborted_effects ..
  · exact singleAborted_effects ..
  · trivial
  · trivial
  · refine diagnostics_effects ?_
    dsimp only
    split
    · exact finalizeRun_effects _
    · exact (stopSession_effects _).bind fun _ => finalizeRun_effects _

/-! ### MULTI -/

theorem failOperation_effects (operationId : UUID) (failureType : FailureType) :
    (failOperation lease operationId failureType).Within (RunEffect lease starts) :=
  transaction_effects fun _ => rfl

theorem multiAborted_effects (sessionId : SessionId) (operationId : UUID) (sequence : ℕ)
    (failureType : FailureType) (stored : StepResultDescriptor) :
    (multiAborted lease sessionId operationId sequence failureType stored).Within
      (RunEffect lease starts) := by
  refine (abortStep_effects ..).bind fun resolution =>
    (transaction_effects fun _ => rfl).bind fun _ =>
    (recordFailureEvidence_effects sequence).bind fun _ => ?_
  split
  · exact failOperation_effects ..
  · exact finalizeRun_effects _

theorem multiStepFailed_effects (l : Locals) (sessionId : SessionId) (operationId : UUID)
    (sequence : ℕ) (x : Failure) :
    (multiStepFailed lease l sessionId operationId sequence x).Within
      (RunEffect lease starts) := by
  unfold multiStepFailed
  split
  · exact interrupted_effects l sequence fun _ => trivial
  · exact Within.bind (run_within (multiAborted_effects ..)) fun _ => trivial
  · exact Within.bind (run_within (multiAborted_effects ..)) fun _ => trivial
  · refine Within.bind (run_within (markFailed_effects ..)) fun _ => ?_
    refine Within.bind (run_within ?_) fun _ => trivial
    exact releaseJournal_effects.bind fun _ => (transaction_effects fun _ => rfl).bind fun _ =>
      (recordFailureEvidence_effects sequence).bind fun _ => failOperation_effects ..
  · split
    · trivial
    · exact Within.bind (run_within (markFailed_effects ..)) fun _ => trivial
  · trivial

theorem multiStep_effects (l : Locals) (sessionId : SessionId) (operationId : UUID)
    (run : StepRun) (handover : Option HandoverRow) :
    (multiStep lease l sessionId operationId run handover).Within (RunEffect lease starts) := by
  refine Within.bind (Within.handle ?_ fun x => ?_) fun result => ?_
  · exact (executeStep_effects run handover).bind fun _ => trivial
  · exact multiStepFailed_effects _ sessionId operationId run.sequence x
  · cases result with
    | none => trivial
    | some result =>
      exact Within.bind (run_within (markSucceeded_effects ..)) fun _ =>
        Within.bind (run_within (publishSuccess_effects _)) fun _ => trivial

theorem multiSteps_effects (sessionId : SessionId) (operationId : UUID)
    (steps : List ExecutionStep) (l : Locals)
    (takenOver : Option (StepRun × Option HandoverRow)) :
    (multiSteps lease sessionId operationId l steps takenOver).Within
      (RunEffect lease starts) := by
  induction steps generalizing l takenOver with
  | nil => exact run_within (transaction_effects fun _ => rfl)
  | cons step rest ih =>
    refine Within.bind (run_within (external_effects _)) fun _ => ?_
    have taken : ∀ (run : StepRun) (handover : Option HandoverRow)
        (continued : Option Locals → Body Unit),
        (∀ next, (continued next).Within (RunEffect lease starts)) →
        (multiStep lease l sessionId operationId run handover >>= continued).Within
          (RunEffect lease starts) :=
      fun _ _ _ => Within.bind (multiStep_effects ..)
    cases takenOver with
    | none =>
      refine Within.bind (run_within (startStep_effects _)) fun run => ?_
      refine taken run none _ fun next => ?_
      cases next with
      | none => trivial
      | some l => exact ih l none
    | some takenOver =>
      refine taken takenOver.1 takenOver.2 _ fun next => ?_
      cases next with
      | none => trivial
      | some l => exact ih l none

theorem multiOperation_effects (claimed : Claimed) (handover : Option HandoverRow) (l : Locals)
    (sessionId : SessionId) (takenOver : Option StepRun) :
    (multiOperation lease claimed handover l sessionId takenOver).Within
      (RunEffect lease starts) := by
  unfold multiOperation
  split
  · trivial
  · simp only
    split
    · trivial
    · cases takenOver with
      | none =>
        exact Within.bind (run_within (prepareNotebook_effects _)) fun _ => multiSteps_effects ..
      | some run => exact multiSteps_effects ..

theorem multiBody_effects (claimed : Claimed) (handover : Option HandoverRow)
    (h : handover = none → claimed.execution.runtimeSessionId = none → starts = true) :
    (multiBody lease claimed handover).Within (RunEffect lease starts) := by
  cases handover with
  | some row =>
    refine Within.bind (run_within (.await .loadRun)) fun run => ?_
    split
    · trivial
    · exact multiOperation_effects ..
  | none =>
    have rest : ∀ (l : Locals) (sessionId : SessionId),
        (l.run (transaction fun c => .recordRuntimeSession c.clock lease sessionId
            claimed.workspacePath claimed.notebookPath) >>= fun _ =>
          if claimed.execution.finalizationRequested then
            l.run do
              projectRequired lease
              completeSession lease sessionId
          else multiOperation lease claimed none l sessionId none).Within
          (RunEffect lease starts) := by
      intro l sessionId
      refine Within.bind (run_within (transaction_effects fun _ => rfl)) fun _ => ?_
      split
      · exact run_within (projectRequired_effects.bind fun _ => completeSession_effects sessionId)
      · exact multiOperation_effects ..
    refine Within.bind (run_within (external_effects _)) fun _ => ?_
    cases hsession : claimed.execution.runtimeSessionId with
    | none =>
      exact Within.bind (run_within (.await (.startSession (h rfl hsession)))) fun sessionId =>
        rest _ sessionId
    | some sessionId => exact rest _ sessionId

theorem multiFailed_effects (x : Failure × Locals) :
    (multiFailed lease x).Within (RunEffect lease starts) := by
  unfold multiFailed
  split
  · refine (handOffCancelled_effects _).bind fun handed => ?_
    split
    · trivial
    · exact (stopSession_effects _).bind fun _ => (finalizeRun_effects _).bind fun _ => trivial
  · trivial
  · trivial
  · exact diagnostics_effects ((stopSession_effects _).bind fun _ => finalizeRun_effects _)

/-! ### A run -/

theorem run_effects (lease : ExecutionLease) (claimed : Claimed)
    (handover : Option HandoverRow) :
    (run lease claimed handover).Within
      (RunEffect lease (startsSession claimed.execution handover)) := by
  unfold run
  split
  · rename_i hmode
    refine (multiBody_effects claimed handover ?_).handle fun x => multiFailed_effects x
    rintro rfl hsession
    simp [startsSession, hmode, hsession]
  · rename_i hmode
    refine (singleBody_effects claimed handover ?_).handle fun x => singleFailed_effects x
    rintro rfl hresumes
    simp [startsSession, hmode, hresumes]

end

end ExecutorService
