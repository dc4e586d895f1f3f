/-
What a run does besides its Steps.

Most of what a run awaits leaves its Steps and its Attempt as they are: the notebook, the
artifacts, the sessions, the code it follows.  `Quiet` parts await nothing else, and what
they raise is an exception of an await or one without a Step result.  One lemma for each
such function of `StepFlow` and `Runners`, in their order.

* `Quiet.bind`, `Quiet.handle` — how quiet parts compose;
* `project_quiet`, `publishSuccess_quiet` — the notebook and the artifacts;
* `stopSession_quiet`, `handOffCancelled_quiet` — the ends of a session.
-/
import ExecutorService.LeaseFencing
import ExecutorService.Runners
import Mathlib.Tactic.Common

namespace ExecutorService

open Job Program
open Tables (StepRun FinalizeRequest)

/-- No Step result goes with the failure. -/
def Failure.isPlain : Failure → Bool
  | .storedTimeout .. | .storedOutputLimit _ | .storedExecution _ | .storedStep .. => false
  | _ => true

/-- Transactions of a run that leave its Steps and its Attempt as they are. -/
def TableTransaction.isQuiet : TableTransaction → Bool
  | .assertExecution .. | .ensureCount .. | .recordRuntimeSession .. | .markSubmitted ..
  | .recordInterruptedResult .. | .beginProjection .. | .recordProjection ..
  | .persistNotebook .. | .persistArtifacts .. | .recordRuntimeAbort ..
  | .releaseForCancellation .. | .releaseForHandover .. => true
  | _ => false

/-- The effects of a run that leave its Steps and its Attempt as they are. -/
inductive QuietEffect (lease : ExecutionLease) : {β : Type} → Effect β → Prop
  | external (call : External) : QuietEffect lease (.external call)
  | shuttingDown : QuietEffect lease .shuttingDown
  | deadlines (submitted : Bool) : QuietEffect lease (.deadlines submitted)
  | transaction {tx : Choice → TableTransaction}
      (guarded : ∀ c, (tx c).guard = some (.execution lease))
      (quiet : ∀ c, (tx c).isQuiet = true) : QuietEffect lease (.transaction tx)
  | loadRun : QuietEffect lease (.loadRun lease)
  | releaseForHandover : QuietEffect lease (.releaseForHandover lease)
  | cancellationOwnsTerminal : QuietEffect lease .cancellationOwnsTerminal
  | startSession : QuietEffect lease .startSession
  | deleteSession (sessionId : SessionId) : QuietEffect lease (.deleteSession sessionId)
  | abortSession (sessionId : SessionId) : QuietEffect lease (.abortSession sessionId)
  | sessionExists (sessionId : SessionId) : QuietEffect lease (.sessionExists sessionId)
  | startExecution (run : StepRun) : QuietEffect lease (.startExecution lease run)
  | sealResult : QuietEffect lease .sealResult
  | preserveResult : QuietEffect lease .preserveResult

/-- The failures of an end are among `P`. -/
def FailsWith {α : Type} (P : Failure → Prop) (r : Except Failure α) : Prop :=
  ∀ x, r = .error x → P x

/-- A part that leaves the Steps alone, and raises without a Step result unless an await
did. -/
def Job.Quiet (lease : ExecutionLease) {α : Type} (p : Job α) : Prop :=
  ∀ P : Failure → Prop, (∀ x, x.isPlain = true → P x) →
    p.Confined (QuietEffect lease) (fun _ r => FailsWith P r) (FailsWith P)

section

variable {lease : ExecutionLease} {α β : Type}

theorem failsWith_ok {P : Failure → Prop} (a : α) : FailsWith P (.ok a) :=
  fun _ hx => by cases hx

theorem failsWith_error {P : Failure → Prop} {x : Failure} (h : P x) :
    FailsWith P (.error x : Except Failure α) :=
  fun _ hx => by cases hx; exact h

namespace Job.Quiet

theorem ret (a : α) : Quiet lease (.ret a : Job α) :=
  fun _ _ => failsWith_ok a

theorem raise {x : Failure} (h : x.isPlain = true) : Quiet lease (.raise x : Job α) :=
  fun _ hP => failsWith_error (hP x h)

theorem await {e : Effect α} (h : QuietEffect lease e) : Quiet lease (Program.await e) :=
  fun _ _ => .await h fun _ hr => hr

theorem bind {p : Job α} {f : α → Job β} (h : Quiet lease p) (hf : ∀ a, Quiet lease (f a)) :
    Quiet lease (p >>= f) :=
  fun P hP => (h P hP).bind (fun a _ => hf a P hP) fun x hx => failsWith_error (hx x rfl)

/-- A handler raises what it got, or is a quiet part. -/
theorem handle {p : Job α} {g : Failure → Job α} (h : Quiet lease p)
    (hg : ∀ x, g x = .raise x ∨ Quiet lease (g x)) : Quiet lease (p.handle g) := by
  intro P hP
  refine (h P hP).handle (fun a _ => failsWith_ok a) fun x hx => ?_
  rcases hg x with hsame | hquiet
  · rw [hsame]
    exact failsWith_error (hx x rfl)
  · exact hquiet P hP

theorem onException {p : Job α} {g : Failure → Job α} (h : Quiet lease p)
    (hg : ∀ x, Quiet lease (g x)) : Quiet lease (onException p g) := by
  refine h.handle fun x => ?_
  split
  · exact .inr (hg x)
  · exact .inl rfl

theorem onOtherException {p : Job α} {g : Failure → Job α} (h : Quiet lease p)
    (hg : ∀ x, Quiet lease (g x)) : Quiet lease (onOtherException p g) := by
  refine h.handle fun x => ?_
  split
  · exact .inr (hg x)
  · exact .inl rfl

theorem transaction {tx : Choice → TableTransaction}
    (guarded : ∀ c, (tx c).guard = some (.execution lease)) (quiet : ∀ c, (tx c).isQuiet = true) :
    Quiet lease (transaction tx) :=
  .await (.transaction guarded quiet)

theorem external (call : External) : Quiet lease (external call) :=
  .await (.external call)

/-- A diagnostic, and an end. -/
theorem diagnostics {p : Job α} (h : Quiet lease p) :
    Quiet lease (Job.external .diagnostics >>= fun _ => p) :=
  (external _).bind fun _ => h

end Job.Quiet

open Job (Quiet)

/-! ### Notebook and artifacts -/

theorem assertExecution_quiet : Quiet lease (assertExecution lease) :=
  .transaction (fun _ => rfl) fun _ => rfl

theorem registerNotebook_quiet : Quiet lease (registerNotebook lease) :=
  .onOtherException
    ((Quiet.external _).bind fun _ => .transaction (fun _ => rfl) fun _ => rfl)
    fun _ => .diagnostics (.raise rfl)

theorem prepareNotebook_quiet (steps : List ExecutionStep) :
    Quiet lease (prepareNotebook lease steps) := by
  refine (Quiet.external _).bind fun _ => ?_
  split
  · exact .ret ()
  · exact assertExecution_quiet.bind fun _ =>
      (Quiet.external _).bind fun _ => registerNotebook_quiet

theorem recordProjection_quiet (status : NotebookProjectionStatus) (attemptCount : ℕ)
    (failed : Bool) : Quiet lease (recordProjection lease status attemptCount failed) :=
  .transaction (fun _ => rfl) fun _ => rfl

theorem writeNotebook_quiet (remaining : ℕ) : Quiet lease (writeNotebook lease remaining) := by
  induction remaining with
  | zero => exact (recordProjection_quiet _ _ _).bind fun _ => .diagnostics (.ret false)
  | succ remaining ih =>
    refine Quiet.bind (.onOtherException ?_ fun _ => .ret false) fun written => ?_
    · exact assertExecution_quiet.bind fun _ => (Quiet.external _).bind fun _ => .ret true
    · split
      · exact (recordProjection_quiet _ _ _).bind fun _ =>
          registerNotebook_quiet.bind fun _ => .ret true
      · split
        · exact (Quiet.external _).bind fun _ => ih
        · exact ih

theorem project_quiet : Quiet lease (project lease) := by
  refine assertExecution_quiet.bind fun _ =>
    Quiet.bind (.transaction (fun _ => rfl) fun _ => rfl) fun _ => ?_
  -- A notebook that cannot be built raises what the build raised.
  intro P hP
  refine Confined.bind ((Quiet.external _ P hP).handle (fun a _ => failsWith_ok a) fun x hx => ?_)
    (fun _ _ => writeNotebook_quiet 3 P hP) fun x hx => failsWith_error (hx x rfl)
  split
  · refine Confined.bind (recordProjection_quiet _ _ _ P hP) (fun _ _ => ?_)
      fun x hx => failsWith_error (hx x rfl)
    exact Confined.bind (Quiet.external _ P hP) (fun _ _ => failsWith_error (hx x rfl))
      fun x hx => failsWith_error (hx x rfl)
  · exact failsWith_error (hx x rfl)

theorem projectRequired_quiet : Quiet lease (projectRequired lease) := by
  refine (project_quiet.handle fun x => ?_).bind fun projected => ?_
  · split
    · exact .inr (.raise rfl)
    · exact .inr (.raise rfl)
    · split
      · exact .inr (.raise rfl)
      · exact .inl rfl
  · split
    · exact .ret ()
    · exact .raise rfl

theorem projectAfterFailure_quiet : Quiet lease (projectAfterFailure lease) :=
  .onOtherException project_quiet fun _ => .ret false

theorem discoverAndRegister_quiet (sequence : ℕ) (allow : Bool) :
    Quiet lease (discoverAndRegister lease sequence allow) :=
  (Quiet.external _).bind fun _ => .transaction (fun _ => rfl) fun _ => rfl

theorem registerIncomplete_quiet (sequence : ℕ) (allow : Bool) :
    Quiet lease (registerIncomplete lease sequence allow) :=
  .onException (discoverAndRegister_quiet sequence allow) fun _ => .external _

theorem recordFailureEvidence_quiet (sequence : ℕ) :
    Quiet lease (recordFailureEvidence lease sequence) :=
  projectAfterFailure_quiet.bind fun _ => registerIncomplete_quiet sequence false

/-- A Step interrupted by a cancellation that is no shutdown leaves its artifacts. -/
theorem interrupted_quiet (sequence : ℕ) :
    Quiet lease (do
      if ¬ (← Program.await .shuttingDown) then registerIncomplete lease sequence true) := by
  refine (Quiet.await .shuttingDown).bind fun down => ?_
  split
  · exact registerIncomplete_quiet sequence true
  · exact .ret ()

theorem releaseJournal_quiet : Quiet lease releaseJournal := by
  refine (Quiet.external _).handle fun x => ?_
  split
  · exact .inr (.ret ())
  · exact .inl rfl

theorem recordInterrupted_quiet (sequence : ℕ) :
    Quiet lease (recordInterrupted lease sequence) := by
  refine (Quiet.await .preserveResult).bind fun stored => ?_
  refine (Quiet.transaction (fun _ => rfl) fun _ => rfl).handle fun x => ?_
  split
  · exact .inl rfl
  · exact .inr (.ret ())

theorem publishSuccess_quiet (sequence : ℕ) : Quiet lease (publishSuccess lease sequence) :=
  releaseJournal_quiet.bind fun _ => projectRequired_quiet.bind fun _ =>
    .onOtherException (discoverAndRegister_quiet sequence false) fun _ => .diagnostics (.raise rfl)

/-! ### Sessions -/

theorem recordRuntimeAbort_quiet (abort : RuntimeAbortStatus)
    (cleanup : RuntimeSessionCleanupStatus) (failureType : FailureType) :
    Quiet lease (recordRuntimeAbort lease abort cleanup failureType) :=
  .transaction (fun _ => rfl) fun _ => rfl

theorem bestEffortSessionStop_quiet (sessionId : SessionId) :
    Quiet lease (bestEffortSessionStop sessionId) :=
  .onException
    ((Quiet.external _).bind fun _ => (Quiet.await (.deleteSession sessionId)).bind fun _ => .ret _)
    fun _ => .diagnostics (.ret _)

theorem stopSession_quiet (sessionId : Option SessionId) :
    Quiet lease (stopSession lease sessionId) := by
  cases sessionId with
  | none => exact .ret _
  | some sessionId =>
    refine Quiet.bind (Quiet.handle ?_ fun x => ?_) fun owns => ?_
    · exact assertExecution_quiet.bind fun _ => .ret true
    · split
      · exact .inr (.ret false)
      · exact .inl rfl
    · split
      · refine (bestEffortSessionStop_quiet sessionId).handle fun x => ?_
        split
        · exact .inr (.ret _)
        · exact .inl rfl
      · exact .ret _

theorem handOffCancelled_quiet (runInFlight : Option StepRun) :
    Quiet lease (handOffCancelled lease runInFlight) := by
  refine (Quiet.await .cancellationOwnsTerminal).bind fun owned => ?_
  split
  · exact Quiet.bind (.transaction (fun _ => rfl) fun _ => rfl) fun _ => .ret true
  · refine (Quiet.await .shuttingDown).bind fun down => ?_
    split
    · split
      · refine (Quiet.await .releaseForHandover).handle fun x => ?_
        split
        · exact .inr (.ret true)
        · exact .inl rfl
      · exact .ret false
    · exact .ret false

theorem readSources_quiet (steps : List ExecutionStep) : Quiet lease (readSources steps) := by
  induction steps with
  | nil => exact .ret ()
  | cons step rest ih => exact (Quiet.external _).bind fun _ => ih

end

end ExecutorService
