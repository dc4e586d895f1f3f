/-
What the transactions do to the shape of an Execution's rows.

A transaction of a run checks its lease and little else: that the Step it starts is the
next PENDING one, that the Step it ends is running, that an Operation it fails has no
open Step left is known to the run that issues it.  `Proper` says what these
transactions rely on.  A proper transaction is a `ShapeMove`; the others are one on any
sound rows.

* `TableTransaction.Proper` — what the issuer of a transaction has to know;
* `shapeMove_of_change` — each proper transaction is a move of the shape.
-/
import ExecutorService.OperationMoves
import ExecutorService.LeaseMoves
import ExecutorService.Numbering
import ExecutorService.Shapes

namespace ExecutorService

/-- Events about Steps and about the end of the Execution. -/
def EventSubject.isStepwise : EventSubject → Bool
  | .stepStarted .. | .stepCompleted .. | .stepHandoverStarted .. | .stepHandoverCompleted ..
  | .completed _ => true
  | _ => false

/-- The events of a change that are about Steps. -/
def Change.stepwise (c : Change) : List EventSubject :=
  (c.events.map (·.subject)).filter (·.isStepwise)

/-- What a run asks of its own end: a retry from a failed Step keeps the session and the Steps
before that one, a success has released the session, an undelivered result is final. -/
structure Tables.ProperEnd (t : Tables) (q : Tables.FinalizeRequest) : Prop where
  multi : t.execution.operationMode = .multi → q.retryStrategy = .notRetryable
  retained : q.retryStrategy = .fromFailedStep → q.retainSession = true
  kept : q.retainSession = true → q.status = .failed ∧ t.execution.runtimeSessionId.isSome = true ∧
    ∃ sequence, q.retryFromSequence = some sequence ∧
      (∀ s ∈ t.steps, s.sequence < sequence → s.status = .succeeded) ∧
      ∃ s ∈ t.steps, s.sequence = sequence ∧ (s.status = .running ∨ s.status = .failed)
  released : q.status = .succeeded → q.cleanupStatus = .succeeded
  undelivered : q.failureType = some .completionFailed → q.retryStrategy = .notRetryable

/-- A result that was sealed under a lease. -/
def StepResultDescriptor.SealedUnder (lease : ExecutionLease) (stored : StepResultDescriptor) :
    Prop :=
  stored.reference.executionAttemptId = lease.attemptId ∧
    stored.reference.fencingToken = lease.fencingToken

/-- What the issuer of a transaction knows about the rows it finds. -/
def TableTransaction.Proper (trail : List EventSubject) (t : Tables) : TableTransaction → Prop
  | .markStarted _ _ sequence .. => t.shape.At sequence ∧
    ∃ s ∈ t.shape.steps, s.sequence = sequence ∧ some s.operationId = t.shape.active
  | .markSucceeded _ lease sequence stored | .markFailed _ lease sequence stored .. =>
    stored.SealedUnder lease ∧ ∃ h ∈ t.shape.stepAttempts,
      h.attemptId = lease.attemptId ∧ h.sequence = sequence ∧ h.status = .running
  | .recordHandoverCompleted _ lease sequence .. =>
    ∀ s ∈ t.shape.steps, s.sequence = sequence → Unfollowed trail s.id lease.attemptId
  | .skipStepsAfter .. => t.shape.NoneRunning
  | .completeOperation _ _ operationId status .. =>
    t.execution.operationMode = .multi ∧ t.execution.runtimeSessionId.isSome = true ∧
      t.execution.activeOperationId = some operationId ∧ status.isTerminal = true ∧
      (status ≠ .succeeded → t.shape.NoneOpen)
  | .deferRetainedRetry .. =>
    t.execution.operationMode = .single ∧ t.shape.NoneRunning ∧ t.shape.Resumable
  | .finalize _ _ q => t.ProperEnd q
  | _ => True

namespace Tables

variable {t : Tables} {trail : List EventSubject}

/-! ### Step events of an end -/

/-- Each Step attempt that an end closes is announced, if the rows have it. -/
theorem addStepHistoryCompletedEvents_subjects {running : List (UUID × UUID)}
    {status : StepStatus} {message : String} {retryable : Bool} {events : List EventPayload}
    (h : t.addStepHistoryCompletedEvents running status message retryable = .ok events)
    (hfound : ∀ p ∈ running, (∃ s ∈ t.steps, s.id = p.1) ∧
      ∃ x ∈ t.stepAttempts, x.executionStepId = p.1 ∧ x.executionAttemptId = p.2) :
    events.map (·.subject) = running.map fun p => .stepCompleted status p.1 p.2 := by
  simp only [addStepHistoryCompletedEvents, Txn.bind_ok, Txn.pure_ok] at h
  obtain ⟨lists, hlists, rfl⟩ := h
  induction running generalizing lists with
  | nil =>
    simp only [List.mapM_nil, Txn.pure_ok] at hlists
    subst hlists
    rfl
  | cons p running ih =>
    simp only [List.mapM_cons, Txn.bind_ok, Txn.pure_ok] at hlists
    obtain ⟨events, hevents, rest, hrest, rfl⟩ := hlists
    obtain ⟨⟨s, hs, hid⟩, x, hx, hstep, hattempt⟩ := hfound p List.mem_cons_self
    have hsome : (t.step? p.1).isSome = true := by
      rw [step?, List.find?_isSome]
      exact ⟨s, hs, by simpa using hid⟩
    have hhistory : (t.stepAttempts.find? fun h =>
        h.executionStepId == p.1 && h.executionAttemptId == p.2).isSome = true := by
      rw [List.find?_isSome]
      exact ⟨x, hx, by simp [hstep, hattempt]⟩
    obtain ⟨step, hstep⟩ := Option.isSome_iff_exists.mp hsome
    obtain ⟨history, hhistory⟩ := Option.isSome_iff_exists.mp hhistory
    have hstepId : step.id = p.1 := by simpa using List.find?_some hstep
    simp only [addStepHistoryCompletedEvent, hstep, hhistory, Txn.bind_ok, Txn.pure_ok] at hevents
    obtain ⟨operation, _, attempt, hattempt, rfl⟩ := hevents
    rw [List.flatten_cons, List.map_append, List.map_cons, List.map_nil, List.map_cons,
      ih (fun q hq => hfound q (List.mem_cons_of_mem _ hq)) rest hrest]
    simp [EventPayload.subject, hstepId, attemptPayload_id hattempt]

/-- The shape of the Step attempts that are running. -/
theorem runningStepAttempts_shape (t : Tables) :
    t.runningStepAttempts = t.shape.running.map fun h => (h.stepId, h.attemptId) := by
  simp only [runningStepAttempts, ShapeRows.running, shape, List.filter_map, List.map_map]
  rfl

/-- Step attempts of a sound shape have their Steps. -/
theorem found_of_keyed (hkeyed : t.shape.Keyed) {p : UUID × UUID}
    (hp : ∃ h ∈ t.shape.stepAttempts, (h.stepId, h.attemptId) = p) :
    (∃ s ∈ t.steps, s.id = p.1) ∧
      ∃ x ∈ t.stepAttempts, x.executionStepId = p.1 ∧ x.executionAttemptId = p.2 := by
  obtain ⟨h, hh, rfl⟩ := hp
  obtain ⟨⟨s, hs, hid, _⟩, _⟩ := hkeyed.attempted h hh
  obtain ⟨step, hstep, rfl⟩ := List.mem_map.mp hs
  obtain ⟨x, hx, rfl⟩ := List.mem_map.mp hh
  exact ⟨⟨step, hstep, hid⟩, x, hx, rfl, rfl⟩

/-! ### Shapes of the updates -/

/-- An update of the Steps that assigns their status, seen through their shapes. -/
theorem steps_shape {p : ExecutionStep → Bool} {f : ExecutionStep → ExecutionStep}
    {p' : StepShape → Bool} {status : StepStatus} (hp : ∀ s, p' s.shape = p s)
    (hf : ∀ s, (f s).shape = { s.shape with status }) (rows : List ExecutionStep) :
    (rows.updateWhere p f).map (·.shape) =
      (rows.map (·.shape)).updateWhere p' fun s => { s with status } :=
  List.map_updateWhere_comm hp (fun s => (hf s).symm) rows

theorem stepAttempts_shape {p : StepAttemptRow → Bool} {f : StepAttemptRow → StepAttemptRow}
    {p' : StepAttemptShape → Bool} {status : StepStatus} (hp : ∀ h, p' h.shape = p h)
    (hf : ∀ h, (f h).shape = { h.shape with status }) (rows : List StepAttemptRow) :
    (rows.updateWhere p f).map (·.shape) =
      (rows.map (·.shape)).updateWhere p' fun h => { h with status } :=
  List.map_updateWhere_comm hp (fun h => (hf h).symm) rows

theorem attempts_shape {attemptId : UUID} {f : AttemptRow → AttemptRow} {status : AttemptStatus}
    (hf : ∀ a, (f a).shape = (a.id, status)) (rows : List AttemptRow) :
    (rows.updateWhere (·.id == attemptId) f).map (·.shape) =
      (rows.map (·.shape)).updateWhere (·.1 == attemptId) fun a => (a.1, status) :=
  List.map_updateWhere_comm
    (show ∀ a : AttemptRow, (a.shape.1 == attemptId) = (a.id == attemptId) from fun _ => rfl)
    (fun a => (hf a).symm) rows

/-- An update that leaves ids and statuses of the Attempts. -/
theorem attempts_shape_same {p : AttemptRow → Bool} {f : AttemptRow → AttemptRow}
    (hf : ∀ a, (f a).shape = a.shape) (rows : List AttemptRow) :
    (rows.updateWhere p f).map (·.shape) = rows.map (·.shape) :=
  List.map_updateWhere hf rows

theorem operations_ids {p : OperationRow → Bool} {f : OperationRow → OperationRow}
    (hf : ∀ o, (f o).id = o.id) (rows : List OperationRow) :
    (rows.updateWhere p f).map (·.id) = rows.map (·.id) :=
  List.map_updateWhere hf rows

theorem shape_withSession (now : Time) (attemptId : UUID) (sessionId : SessionId)
    (workspace notebook : String) (t : Tables) :
    (t.withSession now attemptId sessionId workspace notebook).shape =
      { t.shape with session := true } := by
  refine congrArg (fun attempts => { t.shape with session := true, attempts }) ?_
  refine attempts_shape_same ?_ _
  exact fun _ => rfl

theorem shape_withAbort (now : Time) (attemptId : UUID) (abort : RuntimeAbortStatus)
    (cleanup : RuntimeSessionCleanupStatus) (failureType : FailureType) (t : Tables) :
    (t.withAbort now attemptId abort cleanup failureType).shape =
      { t.shape with aborting := abort == .pending } := by
  let c : Shape := { t.shape with aborting := abort == .pending }
  refine congrArg (fun attempts => { c with attempts }) ?_
  refine attempts_shape_same ?_ _
  exact fun _ => rfl

theorem shape_released (now : Time) (attemptId : UUID) (t : Tables) :
    (t.released now attemptId).shape = t.shape := by
  refine congrArg (fun attempts => { t.shape with attempts }) ?_
  refine attempts_shape_same ?_ _
  exact fun _ => rfl

theorem shape_handedOver (now pausedSince : Time) (reason : HandoverReason) (attemptId : UUID)
    (t : Tables) :
    (t.handedOver now pausedSince reason attemptId).shape = { t.shape with handover := true } := by
  refine congrArg (fun attempts => { t.shape with handover := true, attempts }) ?_
  refine attempts_shape_same ?_ _
  exact fun _ => rfl

theorem shape_takeOver (settings : Settings) (now : Time) (worker : WorkerId) (attemptId : UUID)
    (t : Tables) :
    (t.takeOver settings now worker attemptId).shape = { t.shape with handover := false } := by
  refine congrArg (fun attempts => { t.shape with handover := false, attempts }) ?_
  refine attempts_shape_same ?_ _
  exact fun _ => rfl

theorem shape_markAttemptPending (t : Tables) : t.markAttemptPending.shape = t.shape := by
  unfold markAttemptPending
  split
  · rfl
  · refine congrArg (fun attempts => { t.shape with attempts }) ?_
    refine attempts_shape_same ?_ _
    exact fun _ => rfl

theorem shape_withEvidence (now : Time) (attemptId : UUID) (step : ExecutionStep)
    (stored : Option StepResultDescriptor) (t : Tables) :
    (t.withEvidence now attemptId step stored).shape = t.shape := by
  cases stored with
  | none => rfl
  | some d =>
    refine congrArg₂ (fun steps stepAttempts => { t.shape with steps, stepAttempts }) ?_ ?_
    · refine List.map_updateWhere ?_ _
      exact fun _ => rfl
    · refine List.map_updateWhere ?_ _
      exact fun _ => rfl

theorem shape_sameButNotebook {e : ExecutionRow} (same : SameButNotebook t.execution e) :
    { t with execution := e }.shape = t.shape := by
  rw [shape, same]
  rfl

/-- A Step attempt that a PENDING Step gets is a new one. -/
theorem stepAttempt_fresh (hs : t.shape.Sound) {step : ExecutionStep} (hstep : step ∈ t.steps)
    (hpending : step.status = .pending) {attemptId : UUID}
    (hattempt : (attemptId, .running) ∈ t.shape.attempts) :
    t.stepAttempts.any (isStepAttempt attemptId step.sequence) = false := by
  rw [List.any_eq_false]
  intro h hh hsame
  simp only [isStepAttempt, Bool.and_eq_true, beq_iff_eq] at hsame
  obtain ⟨⟨s, hsteps, hid, hsequence⟩, _⟩ :=
    hs.keyed.attempted h.shape (List.mem_map_of_mem hh)
  have hsame' : s = step.shape := hs.keyed.step_of_sequence hsteps (List.mem_map_of_mem hstep)
    (hsequence.trans hsame.2)
  have hno := hs.statuses.unattempted step.shape (List.mem_map_of_mem hstep) hpending h.shape
    (List.mem_map_of_mem hh) (hid.symm.trans (by rw [hsame'])) _ hattempt hsame.1.symm
  cases hno

theorem shape_stepStarted {now : Time} {attemptId historyId requestId : UUID} {baseline : ℕ}
    {step : ExecutionStep}
    (hfresh : t.stepAttempts.any (isStepAttempt attemptId step.sequence) = false) :
    (t.stepStarted now attemptId step historyId requestId baseline).shape =
      { t.shape with toShapeRows := t.shape.started step.shape attemptId } := by
  refine congrArg₂ (fun steps stepAttempts => { t.shape with steps, stepAttempts }) ?_ ?_
  · refine steps_shape ?_ ?_ _ <;> exact fun _ => rfl
  · show (startedStepAttempts now attemptId historyId step t.stepAttempts).map (·.shape) = _
    rw [startedStepAttempts, hfresh, if_neg Bool.false_ne_true, List.map_append]
    rfl

theorem shape_endStep {now : Time} {attemptId : UUID} {sequence : ℕ} {status : StepStatus}
    {stored : StepResultDescriptor} {message : Option String} {h : StepAttemptShape}
    (hattempt : h.attemptId = attemptId) (hsequence : h.sequence = sequence) :
    (t.endStep now attemptId sequence status stored message).shape =
      { t.shape with toShapeRows := t.shape.finished h status } := by
  subst hattempt hsequence
  refine congrArg₂ (fun steps stepAttempts => { t.shape with steps, stepAttempts }) ?_ ?_
  · refine steps_shape ?_ ?_ _ <;> exact fun _ => rfl
  · refine stepAttempts_shape ?_ ?_ _ <;> exact fun _ => rfl

theorem shape_stepsSkippedAfter (now : Time) (operationId : UUID) (sequence : ℕ) (t : Tables) :
    (t.stepsSkippedAfter now operationId sequence).shape =
      { t.shape with toShapeRows := t.shape.skipped fun s =>
          s.operationId == operationId && decide (sequence < s.sequence) } := by
  refine congrArg (fun steps => { t.shape with steps }) ?_
  refine steps_shape ?_ ?_ _ <;> exact fun _ => rfl

theorem shape_operationEnded (now : Time) (attemptId operationId : UUID) (status : OperationStatus)
    (message : Option String) (failureType : Option FailureType) (seconds : Time) (t : Tables) :
    (t.operationEnded now attemptId operationId status message failureType seconds).shape =
      { t.shape with
        toShapeRows := t.shape.withAttempt attemptId .waiting
        status := .waitingForOperation } := by
  refine congrArg₂ (fun attempts operations =>
      { t.shape with attempts, operations, status := .waitingForOperation }) ?_ ?_
  · refine attempts_shape ?_ _
    exact fun _ => rfl
  · refine operations_ids ?_ _
    exact fun _ => rfl

theorem shape_deferred (now : Time) (attemptId : UUID) (t : Tables) :
    (t.deferred now attemptId).shape =
      { t.shape with
        toShapeRows := t.shape.withAttempt attemptId .failed
        status := .queued } := by
  refine congrArg₂ (fun attempts operations =>
      { t.shape with attempts, operations, status := .queued }) ?_ ?_
  · refine attempts_shape ?_ _
    exact fun _ => rfl
  · refine operations_ids ?_ _
    exact fun _ => rfl

theorem shape_resumeWaiting {settings : Settings} {now : Time} {worker : WorkerId}
    {attemptId : UUID} {operation : Option OperationRow}
    (hexpires : t.execution.executionExpiresAt.isSome = true) :
    ((t.resumeWaiting settings now worker attemptId).startOperation now operation attemptId).shape =
      { t.shape with
        toShapeRows := t.shape.withAttempt attemptId .running
        status := .running
        aborting := false } := by
  obtain ⟨expiry, hexpiry⟩ := Option.isSome_iff_exists.mp hexpires
  have hexpires' : ((t.resumeWaiting settings now worker attemptId).startOperation now operation
      attemptId).shape.expires = t.shape.expires := by
    simp [shape, startOperation, resumeWaiting, hexpiry]
  refine Eq.trans (congrArg₂ (fun attempts operations =>
    { ((t.resumeWaiting settings now worker attemptId).startOperation now operation
        attemptId).shape with attempts, operations }) ?_ ?_)
    (congrArg (fun expires => { t.shape with
        toShapeRows := t.shape.withAttempt attemptId .running
        status := .running
        aborting := false
        expires }) hexpires')
  · refine attempts_shape ?_ _
    exact fun _ => rfl
  · refine operations_ids ?_ _
    exact fun _ => rfl

theorem shape_addAttempt {settings : Settings} {now : Time} {worker : WorkerId}
    {attemptId : UUID} {operation : Option OperationRow} {isResume : Bool}
    {target : RuntimeTarget} :
    ((t.startOperation now operation attemptId).addAttempt settings now worker attemptId isResume
      target).shape =
      { t.shape with
        attempts := t.shape.attempts ++ [(attemptId, .running)]
        status := .running
        target := true
        expires := true
        aborting := false } := by
  let next := (t.startOperation now operation attemptId).addAttempt settings now worker attemptId
    isResume target
  let c : Shape := { t.shape with
    attempts := t.shape.attempts ++ [(attemptId, .running)]
    status := .running
    target := true
    aborting := false }
  have hexpires : next.execution.executionExpiresAt.isSome = true := by
    show (t.execution.executionExpiresAt.or _).isSome = true
    cases t.execution.executionExpiresAt <;> rfl
  have hoperations : next.operations.map (·.id) = t.operations.map (·.id) := by
    refine operations_ids ?_ _
    exact fun _ => rfl
  have hattempts : next.attempts.map (·.shape) = t.shape.attempts ++ [(attemptId, .running)] := by
    exact List.map_append
  have hsame : next.shape = { c with
      attempts := next.attempts.map (·.shape)
      operations := next.operations.map (·.id)
      expires := next.execution.executionExpiresAt.isSome } := rfl
  rw [hexpires, hoperations, hattempts] at hsame
  exact hsame

/-! ### Shapes of the ends -/

/-- The running Steps end, then the PENDING ones are skipped. -/
theorem steps_closed {stepEnd : StepStatus} {f g : ExecutionStep → ExecutionStep}
    (hf : ∀ s, (f s).shape = { s.shape with status := stepEnd })
    (hg : ∀ s, (g s).shape = { s.shape with status := .skipped }) (hne : stepEnd ≠ .pending)
    (rows : List ExecutionStep) :
    ((rows.updateWhere (·.status == .running) f).updateWhere (·.status == .pending) g).map
      (·.shape) = (rows.map (·.shape)).map (·.closed stepEnd) := by
  have hstatus : ∀ s, (f s).status = stepEnd := fun s => congrArg StepShape.status (hf s)
  simp only [List.updateWhere, List.map_map]
  refine List.map_congr_left fun s _ => ?_
  by_cases hrunning : s.status = .running
  · have hshape : s.shape.status = .running := hrunning
    simp [hrunning, hstatus, hne, hf, StepShape.closed, hshape]
  · by_cases hpending : s.status = .pending
    · have hshape : s.shape.status = .pending := hpending
      simp [hpending, hg, StepShape.closed, hshape]
    · have hshape : s.shape.closed stepEnd = s.shape := by
        cases hs : s.status <;> simp_all [StepShape.closed, ExecutionStep.shape]
      simp [hrunning, hpending, hshape]

/-- With no Step running, only PENDING ones are left to skip. -/
theorem steps_closed_of_noneRunning {stepEnd : StepStatus} {g : ExecutionStep → ExecutionStep}
    (hg : ∀ s, (g s).shape = { s.shape with status := .skipped }) (hidle : t.shape.NoneRunning) :
    (t.steps.updateWhere (·.status == .pending) g).map (·.shape) =
      t.shape.steps.map (·.closed stepEnd) := by
  simp only [shape, List.updateWhere, List.map_map]
  refine List.map_congr_left fun s hs => ?_
  have hne : s.status ≠ .running := hidle s.shape (List.mem_map_of_mem hs)
  cases hs : s.status <;> simp_all [StepShape.closed, ExecutionStep.shape]

theorem steps_closed_of_noneOpen {c : ShapeRows} {stepEnd : StepStatus} (h : c.NoneOpen) :
    c.steps.map (·.closed stepEnd) = c.steps := by
  conv_rhs => rw [← List.map_id c.steps]
  refine List.map_congr_left fun s hs => ?_
  have hclosed := h s hs
  obtain ⟨id, operationId, sequence, status⟩ := s
  cases status <;> simp_all [StepShape.closed, StepStatus.isOpen]

/-- An update that ends exactly the live Attempts. -/
theorem attempts_closed {p : AttemptRow → Bool} {f : AttemptRow → AttemptRow}
    {attemptEnd : AttemptStatus} (hp : ∀ a ∈ t.attempts, p a = a.status.isLive)
    (hf : ∀ a, (f a).shape = (a.id, attemptEnd)) :
    (t.attempts.updateWhere p f).map (·.shape) =
      t.shape.attempts.map fun a => if a.2.isLive then (a.1, attemptEnd) else a := by
  simp only [shape, List.updateWhere, List.map_map]
  refine List.map_congr_left fun a ha => ?_
  have hlive : a.shape.2.isLive = a.status.isLive := rfl
  rw [Function.comp_apply, Function.comp_apply, hp a ha, hlive]
  split
  · exact hf a
  · rfl

theorem attempts_closed_of_noneLive {c : ShapeRows} {attemptEnd : AttemptStatus}
    (h : c.NoneLive) :
    (c.attempts.map fun a => if a.2.isLive then (a.1, attemptEnd) else a) = c.attempts := by
  conv_rhs => rw [← List.map_id c.attempts]
  refine List.map_congr_left fun a ha => ?_
  simp [h a ha]

/-- An update that ends exactly the running Step attempts. -/
theorem stepAttempts_closed {p : StepAttemptRow → Bool} {f : StepAttemptRow → StepAttemptRow}
    {stepEnd : StepStatus} (hp : ∀ h ∈ t.stepAttempts, p h = (h.status == .running))
    (hf : ∀ h, (f h).shape = { h.shape with status := stepEnd }) :
    (t.stepAttempts.updateWhere p f).map (·.shape) =
      t.shape.stepAttempts.map (·.closed stepEnd) := by
  simp only [shape, List.updateWhere, List.map_map]
  refine List.map_congr_left fun h hh => ?_
  rw [Function.comp_apply, Function.comp_apply, hp h hh, StepAttemptShape.closed]
  by_cases hs : h.status = .running
  · have hshape : h.shape.status = .running := hs
    simp [hs, hf, hshape]
  · have hshape : h.shape.status ≠ .running := hs
    simp [hs, hshape]

theorem stepAttempts_closed_of_none {c : ShapeRows} {stepEnd : StepStatus}
    (h : ∀ x ∈ c.stepAttempts, x.status ≠ .running) :
    c.stepAttempts.map (·.closed stepEnd) = c.stepAttempts := by
  conv_rhs => rw [← List.map_id c.stepAttempts]
  refine List.map_congr_left fun x hx => ?_
  simp [StepAttemptShape.closed, h x hx]

/-- The columns an end of the Execution leaves. -/
structure SameColumns (t t' : Tables) : Prop where
  mode : t'.execution.operationMode = t.execution.operationMode
  active : t'.execution.activeOperationId = t.execution.activeOperationId
  operations : t'.operations.map (·.id) = t.operations.map (·.id)
  target : t'.execution.runtimeTargetId = t.execution.runtimeTargetId
  expires : t'.execution.executionExpiresAt = t.execution.executionExpiresAt
  retried : t'.execution.retryCount = t.execution.retryCount
  handover : t'.handover = t.handover

/-! ### Events of the ends -/

theorem completed_stepwise (id : UUID) (c : OperationColumns) :
    (c.completed id).filter (·.isStepwise) = [] := by
  unfold OperationColumns.completed
  cases c.operations.find? (·.1 == id) <;> rfl

theorem closedOperationEvent_stepwise (before after : Tables) :
    ((closedOperationEvent before after).map (·.subject)).filter (·.isStepwise) = [] := by
  rw [closedOperationEvent_subject]
  split
  · exact completed_stepwise _ _
  · rfl

theorem addOperationCompletedEvent_stepwise (t : Tables) (operationId : UUID) :
    ((t.addOperationCompletedEvent operationId).map (·.subject)).filter (·.isStepwise) = [] := by
  rw [completed_columns, completed_stepwise]

theorem addStartEvents_stepwise (t : Tables) (log : EventLog) :
    ((t.addStartEvents log).map (·.subject)).filter (·.isStepwise) = [] := by
  rw [List.filter_eq_nil_iff]
  intro subject hsubject
  rcases addStartEvents_subject t log subject hsubject with rfl | ⟨_, rfl⟩ <;>
    simp [EventSubject.isStepwise]

/-- An end announces the Steps it closes, then itself. -/
theorem stepwise_of_end {c : Change} (stepEvents : List EventPayload) {operationEvents : List EventPayload}
    {subjects : List EventSubject} (hsteps : stepEvents.map (·.subject) = subjects)
    (hstepwise : ∀ e ∈ subjects, e.isStepwise = true)
    (hoperation : (operationEvents.map (·.subject)).filter (·.isStepwise) = [])
    (hevents : c.events = stepEvents ++ operationEvents ++ t.addExecutionCompletedEvent) :
    c.stepwise = subjects ++ [.completed t.execution.status] := by
  rw [Change.stepwise, hevents, List.map_append, List.map_append, List.filter_append,
    List.filter_append, hoperation, List.append_nil, hsteps, List.filter_eq_self.mpr hstepwise,
    addExecutionCompletedEvent_subject]
  rfl

/-- An end of the Execution as a move of its shape. -/
theorem shapeMove_of_closed (c : Change) (stepEnd : StepStatus) (attemptEnd : AttemptStatus)
    (hopen : t.execution.status.isTerminal = false) (hreleased : t.handover = none)
    (hterminal : c.tables.execution.status.isTerminal = true)
    (hstep : stepEnd.isOpen = false) (hskipped : stepEnd ≠ .skipped)
    (hattempt : attemptEnd.isLive = false) (same : t.SameColumns c.tables)
    (hsteps : c.tables.steps.map (·.shape) = t.shape.steps.map (·.closed stepEnd))
    (hattempts : c.tables.attempts.map (·.shape) =
      t.shape.attempts.map fun a => if a.2.isLive then (a.1, attemptEnd) else a)
    (hstepAttempts : c.tables.stepAttempts.map (·.shape) =
      t.shape.stepAttempts.map (·.closed stepEnd))
    (hmulti : t.execution.operationMode = .multi → c.tables.execution.retryStrategy = .notRetryable)
    (hkept : c.tables.execution.status = .failed →
      c.tables.execution.retryStrategy = .fromFailedStep → stepEnd = .failed ∧
        { t.shape with retryFrom := c.tables.execution.retryFromSequence }.Kept)
    (hevents : c.stepwise = t.shape.running.map
        (fun h => EventSubject.stepCompleted stepEnd h.stepId h.attemptId) ++
      [.completed c.tables.execution.status]) :
    ShapeMove trail t.shape c.stepwise c.tables.shape := by
  have hshape : c.tables.shape = { t.shape with
      toShapeRows := t.shape.closed stepEnd attemptEnd
      status := c.tables.execution.status
      session := c.tables.shape.session
      aborting := c.tables.shape.aborting
      strategy := c.tables.execution.retryStrategy
      retryFrom := c.tables.execution.retryFromSequence } :=
    Shape.ext same.mode same.active hsteps hattempts hstepAttempts rfl same.operations rfl
      (congrArg Option.isSome same.target) (congrArg Option.isSome same.expires) rfl rfl
      (congrArg (fun n => decide (0 < n)) same.retried) rfl (congrArg Option.isSome same.handover)
  rw [hevents, hshape]
  exact .close hopen hterminal hstep hskipped hattempt (by simp [shape, hreleased]) hmulti
    fun hfailed _ => hkept hfailed

/-- No Step attempt runs when nothing is running or live. -/
theorem running_nil (hs : t.shape.Sound) (hidle : t.shape.NoneRunning) : t.shape.running = [] := by
  rw [ShapeRows.running, List.filter_eq_nil_iff]
  intro h hh hrunning
  exact hs.statuses.none_attempted hidle h hh (by simpa using hrunning)

theorem unclaimedEnd_stepwise (now : Time) (row : ExecutionRow) (message : String)
    (failureType : Option FailureType) (t : Tables) :
    (t.unclaimedEnd now row message failureType).stepwise = [.completed row.status] :=
  stepwise_of_end (t := (t.unclaimedEnd now row message failureType).tables) [] rfl
    (by simp) (closedOperationEvent_stepwise _ _) rfl

/-- An end of an Execution that nothing runs for. -/
theorem shapeMove_failUnclaimed {now : Time} {row : ExecutionRow} {message : String}
    {failureType : Option FailureType} {c : Change} (hs : t.shape.Sound)
    (hopen : t.execution.status.isTerminal = false) (hreleased : t.handover = none)
    (hidle : t.shape.NoneRunning) (hlive : t.shape.NoneLive)
    (same : t.SameColumns { t with execution := row }) (hfailed : row.status = .failed)
    (hmulti : t.execution.operationMode = .multi → row.retryStrategy = .notRetryable)
    (hretry : row.retryStrategy ≠ .fromFailedStep)
    (hshape : c.tables.shape = (t.failUnclaimed now row message failureType).1.shape)
    (hevents : c.stepwise = [.completed .failed]) :
    ShapeMove trail t.shape c.stepwise c.tables.shape := by
  have hend : (t.failUnclaimed now row message failureType).1.execution = row := rfl
  have hnone := hs.statuses.none_attempted hidle
  have hmove : ShapeMove trail t.shape
      (t.unclaimedEnd now row message failureType).stepwise
      (t.unclaimedEnd now row message failureType).tables.shape := by
    refine shapeMove_of_closed _ .failed .failed hopen hreleased ?_ rfl
      (by decide) rfl ⟨same.mode, same.active, ?_, same.target, same.expires, same.retried, rfl⟩ ?_
      ?_ ?_ hmulti (fun _ h => absurd h hretry) ?_
    · show row.status.isTerminal = true
      rw [hfailed]
      rfl
    · refine operations_ids ?_ _
      exact fun _ => rfl
    · refine steps_closed_of_noneRunning ?_ hidle
      exact fun _ => rfl
    · exact (attempts_closed_of_noneLive hlive).symm
    · exact (stepAttempts_closed_of_none hnone).symm
    · rw [unclaimedEnd_stepwise, running_nil hs hidle]
      rfl
  rw [unclaimedEnd_stepwise, hfailed] at hmove
  rw [hshape, hevents]
  exact hmove

theorem shapeMove_unclaimedEnd {now : Time} {row : ExecutionRow} {message : String}
    {failureType : Option FailureType} (hs : t.shape.Sound)
    (hopen : t.execution.status.isTerminal = false) (hreleased : t.handover = none)
    (hidle : t.shape.NoneRunning) (hlive : t.shape.NoneLive)
    (same : t.SameColumns { t with execution := row }) (hfailed : row.status = .failed)
    (hmulti : t.execution.operationMode = .multi → row.retryStrategy = .notRetryable)
    (hretry : row.retryStrategy ≠ .fromFailedStep) :
    ShapeMove trail t.shape (t.unclaimedEnd now row message failureType).stepwise
      (t.unclaimedEnd now row message failureType).tables.shape :=
  shapeMove_failUnclaimed hs hopen hreleased hidle hlive same hfailed hmulti hretry rfl
    ((unclaimedEnd_stepwise now row message failureType t).trans (by rw [hfailed]))

/-- The Attempt a run holds or waits with is the live one. -/
theorem live_iff (hs : t.shape.Sound) {attemptId : UUID} {status : AttemptStatus}
    (hmem : (attemptId, status) ∈ t.shape.attempts) (hlive : status.isLive = true)
    {a : AttemptRow} (ha : a ∈ t.attempts) : (a.id == attemptId) = a.status.isLive := by
  have hshape : a.shape ∈ t.shape.attempts := List.mem_map_of_mem ha
  by_cases hid : a.id = attemptId
  · have hsame : a.shape = (attemptId, status) := hs.keyed.attempt_of_id hshape hmem hid
    have hstatus : a.status = status := congrArg Prod.snd hsame
    simp [hid, hstatus, hlive]
  · have hdead : a.status.isLive = false := by
      by_contra hla
      have hla : a.shape.2.isLive = true := Bool.not_eq_false _ ▸ hla
      have hsame := hs.statuses.liveAttempt _ hshape _ hmem hla hlive
      exact hid (congrArg Prod.fst hsame)
    simp [hid, hdead]

/-- A waiting Execution that fails. -/
theorem shapeMove_waitingFailed {now : Time} {failureType : FailureType} {message : String}
    {finalizedBy : Option FinalizedBy} (hs : t.shape.Sound) (hreleased : t.handover = none)
    (hwaiting : t.execution.status = .waitingForOperation) :
    ShapeMove trail t.shape
      (Change.stepwise
        { tables := t.waitingFailed now failureType message finalizedBy
          events := (t.waitingFailed now failureType message
            finalizedBy).addExecutionCompletedEvent })
      (t.waitingFailed now failureType message finalizedBy).shape := by
  obtain ⟨hmulti, _, ⟨a, ha, hstatus⟩, hopen⟩ := hs.atStatus.waiting (.inl hwaiting)
  have hidle := hopen.noneRunning
  have hnone := hs.statuses.none_attempted hidle
  refine shapeMove_of_closed
    { tables := t.waitingFailed now failureType message finalizedBy
      events := (t.waitingFailed now failureType message finalizedBy).addExecutionCompletedEvent }
    .failed .failed (by rw [hwaiting]; rfl) hreleased rfl rfl
    (by decide) rfl ⟨rfl, rfl, rfl, rfl, rfl, rfl, rfl⟩ (steps_closed_of_noneOpen hopen).symm ?_
    (stepAttempts_closed_of_none hnone).symm (fun _ => rfl) (fun _ h => by cases h) ?_
  · -- The Attempt that the update looks up is the WAITING one.
    obtain ⟨row, hrow, rfl⟩ := List.mem_map.mp ha
    obtain ⟨found, hfound⟩ := Option.isSome_iff_exists.mp
      (List.find?_isSome.mpr ⟨row, hrow, beq_iff_eq.mpr hstatus⟩ :
        (t.attempts.find? (·.status == .waiting)).isSome = true)
    have hfoundStatus : found.status = .waiting := by simpa using List.find?_some hfound
    have hfoundMem : (found.id, AttemptStatus.waiting) ∈ t.shape.attempts := by
      rw [← hfoundStatus]
      exact List.mem_map_of_mem (List.mem_of_find?_eq_some hfound)
    have hattempts : (t.waitingFailed now failureType message finalizedBy).attempts =
        t.attempts.updateWhere (·.id == found.id) fun a =>
          { a with
            status := .failed
            leaseOwner := none
            leaseExpiresAt := none
            errorMessage := some message
            failureType := some failureType
            retryStrategy := .notRetryable
            runtimeSessionCleanupStatus := waitingCleanup failureType t.execution
            finishedAt := some now } := by
      simp only [waitingFailed, hfound]
    rw [hattempts]
    exact attempts_closed (fun a ha => live_iff hs hfoundMem rfl ha) fun _ => rfl
  · rw [running_nil hs hidle]
    rfl

/-- The rows of an abandoned run are the sound rows with their statuses changed. -/
theorem addStepHistoryCompletedEvents_running {after : Tables} (hkeyed : t.shape.Keyed)
    (hsteps : after.steps.map (·.id) = t.steps.map (·.id))
    (hstepAttempts : after.stepAttempts.map (fun h => (h.executionStepId, h.executionAttemptId)) =
      t.stepAttempts.map fun h => (h.executionStepId, h.executionAttemptId))
    {running : List StepAttemptShape} (hrunning : ∀ h ∈ running, h ∈ t.shape.stepAttempts)
    {status : StepStatus} {message : String} {retryable : Bool} {events : List EventPayload}
    (h : after.addStepHistoryCompletedEvents (running.map fun h => (h.stepId, h.attemptId)) status
      message retryable = .ok events) :
    events.map (·.subject) =
      running.map fun h => EventSubject.stepCompleted status h.stepId h.attemptId := by
  rw [addStepHistoryCompletedEvents_subjects h, List.map_map]
  · rfl
  · intro p hp
    obtain ⟨x, hx, rfl⟩ := List.mem_map.mp hp
    obtain ⟨⟨s, hs, hid⟩, y, hy, hstep, hattempt⟩ :=
      found_of_keyed hkeyed ⟨x, hrunning x hx, rfl⟩
    constructor
    · have hmem : s.id ∈ after.steps.map (·.id) := by
        rw [hsteps]
        exact List.mem_map_of_mem hs
      obtain ⟨s', hs', hid'⟩ := List.mem_map.mp hmem
      exact ⟨s', hs', hid'.trans hid⟩
    · have hmem : (y.executionStepId, y.executionAttemptId) ∈ after.stepAttempts.map
          fun h => (h.executionStepId, h.executionAttemptId) := by
        rw [hstepAttempts]
        exact List.mem_map_of_mem hy
      obtain ⟨y', hy', hkey⟩ := List.mem_map.mp hmem
      rw [Prod.mk.injEq] at hkey
      exact ⟨y', hy', hkey.1.trans hstep, hkey.2.trans hattempt⟩

theorem mem_of_running {c : ShapeRows} : ∀ h ∈ c.running, h ∈ c.stepAttempts :=
  fun _ hh => (List.mem_filter.mp hh).1

/-- The Step events of a lost lease. -/
theorem fenceExpiredLease_failed {now : Time} {view : ClaimView} {c : Change}
    (h : t.fenceExpiredLease now view = .ok c) (hexpired : leaseExpired now t.execution = true)
    (hhandover : t.handover = none) (hfollow : t.handOver now view = none) :
    ∃ stepEvents message retryable,
      (t.abandoned now).addStepHistoryCompletedEvents t.runningStepAttempts .failed message
        retryable = .ok stepEvents ∧
      c.tables = (((t.abandoned now).skipPendingSteps now).failExpiredOperation now
        t.runningAttempt?).1 ∧
      c.events = stepEvents ++ (((t.abandoned now).skipPendingSteps now).failExpiredOperation now
        t.runningAttempt?).2 ++ c.tables.addExecutionCompletedEvent := by
  simp only [fenceExpiredLease, hexpired, hhandover, hfollow, Option.isSome_none,
    not_true_eq_false, if_false, Bool.false_eq_true, Txn.bind_ok, Txn.pure_ok] at h
  obtain ⟨_, _, stepEvents, hevents, rfl⟩ := h
  exact ⟨stepEvents, _, _, hevents, rfl, rfl⟩

/-- The row of an abandoned run but for the notebook. -/
theorem abandoned_row (now : Time) (t : Tables) : ∃ e, SameButNotebook e (t.abandoned now).execution ∧
    e.status = .failed ∧ e.operationMode = t.execution.operationMode ∧
    e.activeOperationId = t.execution.activeOperationId ∧
    e.runtimeTargetId = t.execution.runtimeTargetId ∧
    e.executionExpiresAt = t.execution.executionExpiresAt ∧
    e.retryCount = t.execution.retryCount ∧
    e.retryStrategy = (if t.execution.operationMode = .multi then .notRetryable else .fromStart) :=
  ⟨_, invalidateNotebook_same "Worker lease expiry" _, rfl, rfl, rfl, rfl, rfl, rfl, rfl⟩

theorem beginHandover_subject {now pausedSince : Time} {reason : HandoverReason}
    {attemptId : UUID} {stepAttempt : StepAttemptRow} {c : Change}
    (h : t.beginHandover now pausedSince reason attemptId stepAttempt = .ok c) :
    c.events.map (·.subject) = [.stepHandoverStarted stepAttempt.executionStepId attemptId] := by
  unfold beginHandover at h
  split at h
  · cases h
  dsimp only at h
  split at h
  · cases h
  rename_i step hstep
  simp only [Txn.bind_ok, Txn.pure_ok] at h
  obtain ⟨operation, _, attempt, hattempt, rfl⟩ := h
  have hid : step.id = stepAttempt.executionStepId := by simpa using List.find?_some hstep
  simp [EventPayload.subject, hid, attemptPayload_id hattempt]

/-- A running Step that is released. -/
theorem shapeMove_beginHandover {now pausedSince : Time} {reason : HandoverReason}
    {stepAttempt : StepAttemptRow} {c : Change}
    (h : t.beginHandover now pausedSince reason stepAttempt.executionAttemptId stepAttempt = .ok c)
    (hstep : t.runningStepAttempt = some stepAttempt)
    (habort : t.execution.runtimeAbortStatus ≠ .pending) :
    ShapeMove trail t.shape c.stepwise c.tables.shape := by
  obtain ⟨_, htables, _, _⟩ := beginHandover_ok h
  have hrunning := List.find?_some hstep
  simp only [Bool.and_eq_true, beq_iff_eq] at hrunning
  rw [Change.stepwise, beginHandover_subject h, htables, shape_handedOver]
  exact .handOver (h := stepAttempt.shape)
    (List.mem_map_of_mem (List.mem_of_find?_eq_some hstep)) hrunning.1 (by simp [shape, habort])

theorem handOver_aborting {now : Time} {view : ClaimView} {change : Txn Change}
    (h : t.handOver now view = some change) : t.execution.runtimeAbortStatus ≠ .pending := by
  simp only [handOver] at h
  split at h
  · rename_i hguard
    simp only [Bool.and_eq_true, bne_iff_ne, ne_eq] at hguard
    exact hguard.2
  · cases h

theorem shapeMove_fenceExpiredLease {now : Time} {view : ClaimView} {c : Change}
    (h : t.fenceExpiredLease now view = .ok c) (hs : t.shape.Sound) :
    ShapeMove trail t.shape c.stepwise c.tables.shape := by
  by_cases hexpired : leaseExpired now t.execution = true
  swap
  · -- A lease that has not expired is left alone.
    rw [fenceExpiredLease, if_pos hexpired] at h
    cases h
    exact .stay
  by_cases hhandover : t.handover = none
  swap
  · have hsome : t.handover.isSome = true := Option.isSome_iff_ne_none.mpr hhandover
    -- So is a Step that is already handed over.
    rw [fenceExpiredLease, if_neg (not_not.mpr hexpired), if_pos hsome] at h
    cases h
    exact .stay
  have hrunning : t.execution.status = .running := by
    simp only [leaseExpired, Bool.and_eq_true, beq_iff_eq] at hexpired
    exact hexpired.1
  cases hfollow : t.handOver now view with
  | some change =>
    -- The running Step can be followed by another Worker.
    have hsome : t.fenceExpiredLease now view = change := by
      simp [fenceExpiredLease, hexpired, hhandover, hfollow]
    obtain ⟨attempt, stepAttempt, followable, rfl⟩ := handOver_some hfollow
    rw [hsome, ← followable.owned] at h
    exact shapeMove_beginHandover h followable.step (handOver_aborting hfollow)
  | none =>
    -- It cannot: the run fails, with all that is running.
    obtain ⟨stepEvents, message, retryable, hevents, htables, hlog⟩ :=
      fenceExpiredLease_failed h hexpired hhandover hfollow
    obtain ⟨e, same, hfailed, hmode, hactive, htarget, hexpires, hretried, hstrategy⟩ :=
      abandoned_row now t
    have hrow : c.tables.execution = (t.abandoned now).execution := by
      rw [htables]
      rfl
    rw [same] at hrow
    -- The run has a live Attempt.
    obtain ⟨a, ha, hstatus⟩ := hs.atStatus.running hrunning
    have hlive : (a.1, AttemptStatus.running) ∈ t.shape.attempts := by
      rw [← hstatus]
      exact ha
    refine shapeMove_of_closed _ .failed .failed (by rw [hrunning]; rfl)
      hhandover ?_ rfl (by decide) rfl ?_ ?_ ?_ ?_ (fun hmulti => ?_) (fun _ hretry => ?_) ?_
    · rw [hrow]
      show e.status.isTerminal = true
      rw [hfailed]
      rfl
    · -- The columns that no end touches.
      refine ⟨?_, ?_, ?_, ?_, ?_, ?_, ?_⟩
      · rw [hrow]
        exact hmode
      · rw [hrow]
        exact hactive
      · rw [htables]
        refine operations_ids ?_ _
        exact fun _ => rfl
      · rw [hrow]
        exact htarget
      · rw [hrow]
        exact hexpires
      · rw [hrow]
        exact hretried
      · rw [htables]
        rfl
    · rw [htables]
      -- The running Step fails, and those behind it are skipped.
      refine steps_closed ?_ ?_ (by decide) _ <;> exact fun _ => rfl
    · rw [htables]
      refine attempts_closed (fun a ha => ?_) ?_
      · -- The running Attempt is the only live one.
        by_cases hrun : a.status = .running
        · simp [hrun, AttemptStatus.isLive]
        · have hdead : a.status.isLive = false := by
            by_contra hla
            have hla : a.shape.2.isLive = true := Bool.not_eq_false _ ▸ hla
            have hsame := hs.statuses.liveAttempt _ (List.mem_map_of_mem ha) _ hlive hla rfl
            exact hrun (congrArg Prod.snd hsame)
          simp [hrun, hdead]
      · exact fun _ => rfl
    · rw [htables]
      -- The running Step attempt fails.
      refine stepAttempts_closed ?_ ?_
      · exact fun _ _ => rfl
      · exact fun _ => rfl
    · rw [hrow]
      -- A MULTI run is not retried; a SINGLE one not from its failed Step.
      show e.retryStrategy = _
      rw [hstrategy, if_pos hmulti]
    · rw [hrow] at hretry
      replace hretry : e.retryStrategy = .fromFailedStep := hretry
      rw [hstrategy] at hretry
      split at hretry <;> cases hretry
    · rw [runningStepAttempts_shape] at hevents
      -- The failed Step attempt is announced, and then the Operation and the Execution.
      refine stepwise_of_end _ (addStepHistoryCompletedEvents_running hs.keyed ?_ ?_ mem_of_running
        hevents) ?_ (closedOperationEvent_stepwise _ _) hlog
      · refine List.map_updateWhere ?_ _
        exact fun _ => rfl
      · refine List.map_updateWhere ?_ _
        exact fun _ => rfl
      · intro subject hsubject
        obtain ⟨x, _, rfl⟩ := List.mem_map.mp hsubject
        rfl

/-! ### The end of a run -/

/-- A Step with a complete result. -/
structure Delivered (s : ExecutionStep) : Prop where
  succeeded : s.status = .succeeded
  complete : s.result.complete = some true
  path : ∃ path, s.result.manifestPath = some path ∧ path ≠ ""
  checksum : ∃ checksum, s.result.manifestChecksumSha256 = some checksum ∧ checksum ≠ ""
  size : ∃ size, s.result.manifestSizeBytes = some size ∧ size ≠ 0
  attempt : s.resultExecutionAttemptId.isSome = true
  token : s.result.fencingToken.isSome = true

/-- What passed the checks of a completion. -/
structure Completed (operation : OperationRow) (requireNotebookArtifact : Bool) (t : Tables) :
    Prop where
  status : operation.status = .running ∨ operation.status = .succeeded
  steps : ∀ s ∈ t.steps, s.operationId = operation.id → Delivered s
  notebook : t.execution.notebookProjectionStatus = .succeeded
  artifact : requireNotebookArtifact = true → ∃ a ∈ t.artifacts, a.artifactType = .notebook ∧
    a.status = .available ∧ some a.relativePath = t.execution.notebookPath

theorem exists_of_all_eq_false {α : Type} [DecidableEq α] {x : Option α} {default : α}
    (h : x.all (· == default) = false) : ∃ a, x = some a ∧ a ≠ default := by
  cases x with
  | none => cases h
  | some a => exact ⟨a, rfl, by simpa using h⟩

theorem requireCompletedResults_ok {operationId : Option UUID} {finalizing artifact : Bool}
    (h : t.requireCompletedResults operationId finalizing artifact = .ok ()) :
    ∃ operation, operationId.bind t.operation? = some operation ∧
      Completed operation artifact t := by
  unfold requireCompletedResults at h
  split at h
  · cases h
  rename_i operation hoperation
  dsimp only at h
  split at h
  · cases h
  rename_i hstatus
  split at h
  · cases h
  rename_i hsteps
  split at h
  · cases h
  rename_i hnotebook
  rw [not_or, not_not] at hstatus
  rw [not_or, Bool.not_eq_true, List.any_eq_false] at hsteps
  refine ⟨operation, hoperation, hstatus.1, fun s hs hop => ?_, not_not.mp hnotebook, ?_⟩
  · have hstep := hsteps.2 s (List.mem_filter.mpr ⟨hs, by simpa using hop⟩)
    simp only [Bool.or_eq_true, not_or, Bool.not_eq_true, bne_eq_false_iff_eq] at hstep
    obtain ⟨⟨⟨⟨⟨⟨hsucceeded, hcomplete⟩, hpath⟩, hchecksum⟩, hsize⟩, hattempt⟩, htoken⟩ := hstep
    exact ⟨hsucceeded, hcomplete, exists_of_all_eq_false hpath, exists_of_all_eq_false hchecksum,
      exists_of_all_eq_false hsize, by simpa using hattempt,
      by simpa using htoken⟩
  · intro hartifact
    rw [if_neg (not_not.mpr hartifact)] at h
    split at h
    · rename_i hany
      obtain ⟨a, ha, hmatch⟩ := List.any_eq_true.mp hany
      simp only [Bool.and_eq_true, beq_iff_eq] at hmatch
      exact ⟨a, ha, hmatch.1.1, hmatch.1.2, hmatch.2⟩
    · cases h

/-- A completed active Operation leaves no Step open. -/
theorem noneOpen_of_completed (hs : t.shape.Sound) {operation : OperationRow} {artifact : Bool}
    (hoperation : t.execution.activeOperationId.bind t.operation? = some operation)
    (h : Completed operation artifact t) : t.shape.NoneOpen := by
  intro s hmem
  obtain ⟨step, hstep, rfl⟩ := List.mem_map.mp hmem
  by_contra hopen
  have hactive := hs.statuses.openStep _ hmem (Bool.not_eq_false _ ▸ hopen)
  obtain ⟨operationId, hid, hfound⟩ := Option.bind_eq_some_iff.mp hoperation
  have hoperationId : operation.id = operationId := by simpa using List.find?_some hfound
  have hsame : some step.operationId = t.execution.activeOperationId := hactive
  rw [hid, Option.some.injEq] at hsame
  have hdone := (h.steps step hstep (hsame.trans hoperationId.symm)).succeeded
  exact hopen (by rw [ExecutionStep.shape, hdone]; rfl)

theorem finalize_stepEvents {settings : Settings} {clock : Clock} {lease : ExecutionLease}
    {q : FinalizeRequest} {c : Change} (h : t.finalize settings clock lease q = .ok c) :
    ∃ attemptStatus stepEvents,
      (t.runClosed settings clock.now lease.attemptId attemptStatus q).finalizeStepEvents clock.now
        lease.attemptId q ((t.stepAttempts.filter fun h =>
          h.executionAttemptId == lease.attemptId && h.status == .running).map
            (·.executionStepId)) = .ok stepEvents ∧
      c.events = stepEvents ++ closedOperationEvent t c.tables ++
        c.tables.addExecutionCompletedEvent := by
  simp only [finalize, Txn.bind_ok, Txn.pure_ok] at h
  obtain ⟨_, _, _, _, attemptStatus, _, _, _, stepEvents, hevents, rfl⟩ := h
  exact ⟨attemptStatus, stepEvents, hevents, rfl⟩

/-- A lease that passes is of the running Attempt. -/
theorem leaseAttempt_running {now : Time} {lease : ExecutionLease}
    {allowed : List ExecutionStatus} (h : ∃ a, t.requireActiveLease now lease allowed = .ok a) :
    (lease.attemptId, AttemptStatus.running) ∈ t.shape.attempts := by
  obtain ⟨a, ha⟩ := h
  obtain ⟨hmem, hid, hstatus, _⟩ := requireActiveLease_attempt ha
  have hshape : a.shape = (lease.attemptId, .running) := by rw [AttemptRow.shape, hid, hstatus]
  rw [← hshape]
  exact List.mem_map_of_mem hmem

/-- While a run holds its lease no Step is released. -/
theorem leaseHandover_none {now : Time} {lease : ExecutionLease} {allowed : List ExecutionStatus}
    (h : ∃ a, t.requireActiveLease now lease allowed = .ok a) (hl : t.leaseColumns.Sound) :
    t.handover = none := by
  have hreleased := (hl.owner (leaseOwner_ne_none h)).2
  simpa [leaseColumns] using hreleased

/-- Every running Step attempt is one of the running Attempt. -/
theorem running_of_attempt (hs : t.shape.Sound) {attemptId : UUID}
    (hmem : (attemptId, AttemptStatus.running) ∈ t.shape.attempts) {h : StepAttemptRow}
    (hh : h ∈ t.stepAttempts) :
    (h.executionAttemptId == attemptId && h.status == .running) = (h.status == .running) := by
  by_cases hrun : h.status = .running
  · have hlive := (hs.statuses.runningStepAttempt h.shape (List.mem_map_of_mem hh) hrun).1
    have hsame := hs.statuses.liveAttempt _ hlive _ hmem rfl rfl
    have hid : h.executionAttemptId = attemptId := congrArg Prod.fst hsame
    simp [hid]
  · simp [hrun]

theorem runClosed_columns (settings : Settings) (now : Time) (attemptId : UUID)
    (attemptStatus : AttemptStatus) (q : FinalizeRequest) (t : Tables) :
    t.SameColumns ((t.runClosed settings now attemptId attemptStatus q).finalizeSteps now attemptId
      q) := by
  have hoperations : (t.runClosed settings now attemptId attemptStatus q).operations.map (·.id) =
      t.operations.map (·.id) := by
    refine operations_ids ?_ _
    exact fun _ => rfl
  rw [finalizeSteps]
  split
  · exact ⟨rfl, rfl, hoperations, rfl, rfl, rfl, rfl⟩
  · exact ⟨rfl, rfl, hoperations, rfl, rfl, rfl, rfl⟩

theorem shapeMove_finalize {settings : Settings} {clock : Clock} {lease : ExecutionLease}
    {q : FinalizeRequest} {c : Change} (h : t.finalize settings clock lease q = .ok c)
    (hs : t.shape.Sound) (hl : t.leaseColumns.Sound) (hq : t.ProperEnd q) :
    ShapeMove trail t.shape c.stepwise c.tables.shape := by
  obtain ⟨active, attemptStatus, _, hstatus, _, _, htables, _⟩ := finalize_ok h
  obtain ⟨_, stepEvents, hstepEvents, hevents⟩ := finalize_stepEvents h
  have hrunning : t.execution.status = .running := status_running active
  have hlive := leaseAttempt_running active
  have hhandover := leaseHandover_none active hl
  have hrow : c.tables.execution = finalizeExecution settings clock.now q t.execution := by
    rw [htables, finalizeSteps]
    split <;> rfl
  have same : t.SameColumns c.tables := htables ▸ runClosed_columns settings clock.now
    lease.attemptId attemptStatus q t
  -- The Attempt of the lease is the one that ends.
  have hattempts : ∀ attemptEnd, attemptStatus = attemptEnd →
      c.tables.attempts.map (·.shape) =
        t.shape.attempts.map fun a => if a.2.isLive then (a.1, attemptEnd) else a := by
    rintro _ rfl
    have hsame : c.tables.attempts = t.attempts.updateWhere (·.id == lease.attemptId)
        (finalizeAttempt clock.now attemptStatus q t.execution) := by
      rw [htables, finalizeSteps]
      split <;> rfl
    rw [hsame]
    refine attempts_closed (fun a ha => live_iff hs hlive rfl ha) ?_
    exact fun _ => rfl
  rcases hstatus with ⟨hsucceeded, rfl, hresults⟩ | ⟨hfailed, rfl⟩
  · -- A success leaves nothing open.
    obtain ⟨operation, hoperation, hcompleted⟩ := requireCompletedResults_ok hresults
    have hopen := noneOpen_of_completed hs hoperation hcompleted
    have hne : ¬ q.status = .failed := by rw [hsucceeded]; decide
    rw [finalizeStepEvents, if_neg hne] at hstepEvents
    cases hstepEvents
    rw [finalizeSteps, if_neg hne] at htables
    refine shapeMove_of_closed _ .failed .succeeded
      (by rw [hrunning]; rfl) hhandover ?_ rfl (by decide) rfl same ?_ (hattempts _ rfl) ?_
      (fun hmulti => ?_) (fun hend => ?_) ?_
    · rw [hrow]
      show q.status.isTerminal = true
      rw [hsucceeded]
      rfl
    · rw [htables, steps_closed_of_noneOpen hopen]
      rfl
    · rw [htables, stepAttempts_closed_of_none (hs.statuses.none_attempted hopen.noneRunning)]
      rfl
    · rw [hrow, finalizeExecution]
      simp only [FinalizeRequest.effective, if_neg hne]
    · rw [hrow] at hend
      exact absurd hend hne
    · rw [running_nil hs hopen.noneRunning]
      exact stepwise_of_end [] rfl (by simp) (closedOperationEvent_stepwise _ _)
        hevents
  · rw [finalizeStepEvents, if_pos hfailed] at hstepEvents
    -- A failure closes what is open.
    rw [finalizeSteps, if_pos hfailed] at htables
    refine shapeMove_of_closed _ .failed .failed
      (by rw [hrunning]; rfl) hhandover ?_ rfl (by decide) rfl same ?_ (hattempts _ rfl) ?_
      (fun hmulti => ?_) (fun _ hretry => ?_) ?_
    · rw [hrow]
      show q.status.isTerminal = true
      rw [hfailed]
      rfl
    · rw [htables]
      refine steps_closed ?_ ?_ (by decide) _ <;> exact fun _ => rfl
    · rw [htables]
      refine stepAttempts_closed (fun h hh => running_of_attempt hs hlive hh) ?_
      exact fun _ => rfl
    · rw [hrow, finalizeExecution]
      simp only [FinalizeRequest.effective, if_pos hfailed]
      exact hq.multi hmulti
    · -- A retained session: the Steps before the retry point have succeeded.
      rw [hrow, finalizeExecution] at hretry
      simp only [FinalizeRequest.effective, if_pos hfailed] at hretry
      obtain ⟨_, _, sequence, hsequence, hkept, step, hstep, hhere, hran⟩ :=
        hq.kept (hq.retained hretry)
      have hfrom : c.tables.execution.retryFromSequence = some sequence := by
        rw [hrow, finalizeExecution]
        simp only [FinalizeRequest.effective, if_pos hfailed, hretry]
        exact hsequence
      rw [hfrom]
      refine ⟨rfl, rfl, fun s hmem hlt => ?_, step.shape, List.mem_map_of_mem hstep, hhere, hran⟩
      obtain ⟨step, hstep, rfl⟩ := List.mem_map.mp hmem
      exact hkept step hstep hlt
    · -- Every running Step attempt is announced.
      have hlist : ((t.stepAttempts.filter fun h => h.executionAttemptId == lease.attemptId &&
          h.status == .running).map (·.executionStepId)).map (fun stepId =>
            (stepId, lease.attemptId)) =
          t.shape.running.map fun h => (h.stepId, h.attemptId) := by
        rw [List.filter_congr fun h hh => running_of_attempt hs hlive hh, ← runningStepAttempts_shape,
          runningStepAttempts, List.map_map]
        refine List.map_congr_left fun h hh => ?_
        obtain ⟨hmem, hrun⟩ := List.mem_filter.mp hh
        have hattempt := running_of_attempt hs hlive hmem
        rw [hrun, Bool.and_eq_true, beq_iff_eq] at hattempt
        rw [Function.comp_apply, hattempt.1]
      rw [hlist] at hstepEvents
      refine stepwise_of_end _ (addStepHistoryCompletedEvents_running hs.keyed ?_ ?_ mem_of_running
        hstepEvents) ?_ (closedOperationEvent_stepwise _ _) hevents
      · refine List.map_updateWhere ?_ _
        exact fun _ => rfl
      · rfl
      · intro subject hsubject
        obtain ⟨x, _, rfl⟩ := List.mem_map.mp hsubject
        rfl

/-! ### The other ends and the claims -/

theorem finalizeCancellation_stepEvents {clock : Clock} {lease : CancellationLease}
    {cleanup : RuntimeSessionCleanupStatus} {c : Change}
    (h : t.finalizeCancellation clock lease cleanup = .ok c) :
    ∃ stepEvents,
      (t.cancelTables clock.now cleanup).addStepHistoryCompletedEvents t.runningStepAttempts
        (endedStep t.execution) (cancellationReasonText t.execution) false = .ok stepEvents ∧
      c.events = stepEvents ++ (match t.execution.activeOperationId with
        | some operationId => c.tables.addOperationCompletedEvent operationId
        | none => []) ++ c.tables.addExecutionCompletedEvent := by
  simp only [finalizeCancellation, Txn.bind_ok, Txn.pure_ok] at h
  obtain ⟨_, _, _, _, stepEvents, hevents, rfl⟩ := h
  exact ⟨stepEvents, hevents, rfl⟩

theorem shapeMove_finalizeCancellation {clock : Clock} {lease : CancellationLease}
    {cleanup : RuntimeSessionCleanupStatus} {c : Change}
    (h : t.finalizeCancellation clock lease cleanup = .ok c) (hs : t.shape.Sound)
    (hl : t.leaseColumns.Sound) : ShapeMove trail t.shape c.stepwise c.tables.shape := by
  obtain ⟨active, _, _, _, htables, _⟩ := finalizeCancellation_ok h
  obtain ⟨stepEvents, hstepEvents, hevents⟩ := finalizeCancellation_stepEvents h
  obtain ⟨_, hstatus, howner, _⟩ := requireActiveCancellationLease_row active
  -- The owner of the cancellation excludes a handed-over Step.
  have hhandover : t.handover = none := by
    have hreleased := (hl.cancellation (by simp [leaseColumns, howner])).2.2
    simpa [leaseColumns] using hreleased
  -- The Steps end as cancelled, or as failed after a timeout.
  have hend : (endedStep t.execution).isOpen = false ∧ endedStep t.execution ≠ .skipped ∧
      endedStep t.execution ≠ .pending := by
    rw [endedStep]
    split <;> decide
  refine shapeMove_of_closed _ (endedStep t.execution)
    (if timedOut t.execution then .failed else .cancelled) (by rw [hstatus]; rfl)
    hhandover ?_ hend.1 hend.2.1 ?_ ⟨?_, ?_, ?_, ?_, ?_, ?_, ?_⟩ ?_ ?_ ?_ (fun _ => ?_)
    (fun _ hretry => ?_) ?_
  · rw [htables]
    show (if timedOut t.execution then ExecutionStatus.failed else .cancelled).isTerminal = true
    split <;> rfl
  · split <;> rfl
  · rw [htables]
    rfl
  · rw [htables]
    rfl
  · rw [htables]
    refine operations_ids ?_ _
    exact fun _ => rfl
  · rw [htables]
    rfl
  · rw [htables]
    rfl
  · rw [htables]
    rfl
  · rw [htables]
    rfl
  · rw [htables]
    -- Every open Step ends.
    refine steps_closed ?_ ?_ hend.2.2 _ <;> exact fun _ => rfl
  · rw [htables]
    refine attempts_closed (fun a _ => ?_) ?_
    · -- Every live Attempt ends.
      cases hstatus : a.status <;> simp [AttemptRow.isLive, AttemptStatus.isLive, hstatus]
    · exact fun _ => rfl
  · rw [htables]
    refine stepAttempts_closed ?_ ?_
    · exact fun _ _ => rfl
    · exact fun _ => rfl
  · rw [htables]
    rfl
  · rw [htables] at hretry
    -- A cancelled Execution is not retried.
    cases hretry
  · rw [runningStepAttempts_shape] at hstepEvents
    -- The running Step attempts are announced first.
    refine stepwise_of_end _ (addStepHistoryCompletedEvents_running hs.keyed ?_ ?_ mem_of_running
      hstepEvents) ?_ ?_ hevents
    · refine Eq.trans (List.map_updateWhere ?_ _) (List.map_updateWhere ?_ _) <;> exact fun _ => rfl
    · refine List.map_updateWhere ?_ _
      exact fun _ => rfl
    · intro subject hsubject
      obtain ⟨x, _, rfl⟩ := List.mem_map.mp hsubject
      rfl
    · cases t.execution.activeOperationId with
      | none => rfl
      | some operationId => exact addOperationCompletedEvent_stepwise _ _

/-- What a status of a sound Execution says about its handover row. -/
theorem handover_none (hl : t.leaseColumns.Sound) (h : t.execution.status.isRunnable = false) :
    t.handover = none := by
  by_contra hsome
  have hreleased : t.leaseColumns.released = true := Option.isSome_iff_ne_none.mpr hsome
  have hrunnable := hl.handover hreleased
  rw [leaseColumns, h] at hrunnable
  cases hrunnable

theorem shapeMove_claim {settings : Settings} {now : Time} {worker : WorkerId} {attemptId : UUID}
    {view : ClaimView} {c : Change} (h : t.claim settings now worker attemptId view = .ok c)
    (hs : t.shape.Sound) (hl : t.leaseColumns.Sound) :
    ShapeMove trail t.shape c.stepwise c.tables.shape := by
  -- A new Attempt has an id of its own.
  have hfresh : t.attempts.any (·.id == attemptId) = false →
      ∀ a ∈ t.shape.attempts, a.1 ≠ attemptId := by
    intro hany a ha
    obtain ⟨row, hrow, rfl⟩ := List.mem_map.mp ha
    rw [List.any_eq_false] at hany
    exact fun hid => hany row hrow (beq_iff_eq.mpr hid)
  -- Only a SINGLE Execution resumes a session.
  have hsingle : isResume t.execution = true → t.execution.operationMode = .single := by
    intro hresume
    simp only [isResume, Bool.and_eq_true, beq_iff_eq] at hresume
    cases hmode : t.execution.operationMode with
    | single => rfl
    | multi =>
      have hnot : t.execution.retryStrategy = .notRetryable := hs.columns.multi hmode
      rw [hnot] at hresume
      exact absurd hresume.1.1.1.2 (by decide)
  cases claim_ok h with
  | idle => exact .stay
  | @waiting operation targetId waiting claimable multi session target attempt =>
    have hstatus : waiting.status = .waiting := by simpa using List.find?_some attempt
    have hmem : (waiting.id, AttemptStatus.waiting) ∈ t.shape.attempts := by
      rw [← hstatus]
      exact List.mem_map_of_mem (List.mem_of_find?_eq_some attempt)
    -- The deadline was set when the first Attempt was claimed.
    have hexpires := (hs.columns.attempted (List.ne_nil_of_mem hmem)).2
    rw [shape_resumeWaiting hexpires]
    exact .resume claimable.status hmem
  | resumed claimable fresh resume retained locked =>
    rw [shape_addAttempt]
    refine .attempt claimable.status (hfresh fresh) fun hmulti => ?_
    exact absurd ((hsingle resume).symm.trans hmulti.1) (by decide)
  | started claimable fresh resume multi selected =>
    rw [shape_addAttempt]
    exact .attempt claimable.status (hfresh fresh) multi
  | unavailable claimable resume retained =>
    -- Nothing was claimed: a queued retry ends here.
    have hmode := hsingle resume
    have hqueued : t.execution.status = .queued := by
      rcases claimable.status with hqueued | hfinalizing
      · exact hqueued
      · have hmulti := (hs.atStatus.waiting (.inr hfinalizing)).1
        exact absurd (hmode.symm.trans hmulti) (by decide)
    refine shapeMove_unclaimedEnd hs (by rw [hqueued]; rfl)
      (handover_none hl (by rw [hqueued]; rfl)) (hs.atStatus.queued hqueued)
      (hs.atStatus.queuedSingle hqueued hmode).1 ⟨rfl, rfl, rfl, rfl, rfl, rfl, rfl⟩ rfl
      (fun hmulti => ?_) ?_
    · exact absurd (hmode.symm.trans hmulti) (by decide)
    · simp [unavailableRow]

/-- The Steps a command saves, by their shapes. -/
theorem saveSteps_self_shape (hs : t.shape.Sound) : saveSteps t.steps t.steps = t.steps := by
  have hids : (t.steps.map (·.id)).Nodup := by
    have hshape := hs.keyed.stepIds
    rwa [shape, List.map_map] at hshape
  have hself : saveSteps (t.steps ++ []) t.steps = t.steps := saveSteps_self hids (by simp)
  rwa [List.append_nil] at hself

/-- A create-operation saves the Steps there are as they are. -/
theorem createOperation_steps (hs : t.shape.Sound) {operation : OperationRow}
    {steps : List ExecutionStep}
    (fresh : FreshOperation operation steps { t with steps := saveSteps (t.steps ++ steps) t.steps }) :
    saveSteps (t.steps ++ steps) t.steps = t.steps ∧
      ∀ s ∈ steps, ∀ r ∈ t.steps, r.id ≠ s.id ∧ r.sequence ≠ s.sequence := by
  have hids : (t.steps.map (·.id)).Nodup := by
    have hshape := hs.keyed.stepIds
    rwa [shape, List.map_map] at hshape
  -- Saving changes no identifier, so the new Steps differ from the old ones too.
  have hfresh : ∀ s ∈ steps, ∀ r ∈ t.steps, r.id ≠ s.id ∧ r.sequence ≠ s.sequence := by
    intro s hsteps r hr
    have hnumber : r.number ∈ (saveSteps (t.steps ++ steps) t.steps).map (·.number) := by
      rw [number_saveSteps]
      exact List.mem_map_of_mem hr
    obtain ⟨r', hr', hsame⟩ := List.mem_map.mp hnumber
    have hid : r'.id = r.id := congrArg StepNumber.id hsame
    have hsequence : r'.sequence = r.sequence := congrArg StepNumber.sequence hsame
    have hnew := fresh.freshSteps s hsteps r' hr'
    rwa [hid, hsequence] at hnew
  exact ⟨saveSteps_self hids fun s hsteps r hr => (hfresh s hsteps r hr).1, hfresh⟩

theorem snapshotSources_pending {now : Time} {operationId : UUID} {specs : List StepSpec}
    {steps : List ExecutionStep} (h : snapshotSources now operationId specs = .ok steps) :
    ∀ s ∈ steps, s.operationId = operationId ∧ s.status = .pending := by
  induction specs generalizing steps with
  | nil =>
    simp only [snapshotSources, List.mapM_nil, Txn.pure_ok] at h
    subst h
    simp
  | cons spec specs ih =>
    simp only [snapshotSources, List.mapM_cons, Txn.bind_ok, Txn.pure_ok] at h
    obtain ⟨step, hstep, rest, hrest, rfl⟩ := h
    split at hstep
    · cases hstep
    · cases hstep
      intro s hs
      rcases List.mem_cons.mp hs with rfl | hs
      · exact ⟨rfl, rfl⟩
      · exact ih hrest s hs

/-- The sequences of the Steps of one request. -/
theorem snapshotSources_sequences {now : Time} {operationId : UUID} {specs : List StepSpec}
    {steps : List ExecutionStep} {start : ℕ}
    (h : snapshotSources now operationId specs = .ok steps)
    (hvalid : validateOperationSteps start specs = .ok ()) :
    (steps.map (·.sequence)).Nodup := by
  have hnumbers := congrArg (List.map StepNumber.sequence) (snapshotSources_number h)
  rw [List.map_map, List.map_map] at hnumbers
  have hsequences : steps.map (·.sequence) = specs.map (·.sequence) := hnumbers
  rw [hsequences, (validateOperationSteps_ok hvalid).2]
  exact List.nodup_range'

theorem shapeMove_createOperation {settings : Settings} {now : Time}
    {command : CreateOperationCommand} {t' : Tables}
    (h : t.createOperation settings now command = .ok t') (hs : t.shape.Sound) :
    ShapeMove trail t.shape [] t'.shape := by
  rcases createOperation_ok h with rfl | ⟨_, hwaiting, operation, steps, hid, hqueued, hsteps,
    hvalid, fresh, rfl⟩
  · exact .stay
  obtain ⟨hsaved, hfresh⟩ := createOperation_steps hs fresh
  have hpending := snapshotSources_pending hsteps
  have hmove := @ShapeMove.operation trail t.shape command.operationId (steps.map (·.shape))
    hwaiting ?_ ?_ ?_ ?_
  · rw [hsaved]
    have hrows : (t.steps ++ steps).map (·.shape) = t.shape.steps ++ steps.map (·.shape) :=
      List.map_append
    have hoperations : (t.operations ++ [operation]).map (·.id) =
        t.shape.operations ++ [command.operationId] := by
      rw [List.map_append, List.map_singleton, hid]
      rfl
    rw [← hrows, ← hoperations] at hmove
    exact hmove
  · intro hmem
    obtain ⟨o, ho, hoid⟩ := List.mem_map.mp hmem
    exact fresh.freshId o ho (hoid.trans hid.symm)
  · intro s hmem
    obtain ⟨step, hstep, rfl⟩ := List.mem_map.mp hmem
    exact hpending step hstep
  · rw [List.map_append, List.nodup_append]
    refine ⟨hs.keyed.stepIds, ?_, fun id hmem id' hmem' => ?_⟩
    · rw [List.map_map]
      exact fresh.nodup
    · obtain ⟨s, hs', rfl⟩ := List.mem_map.mp hmem
      obtain ⟨r, hr, rfl⟩ := List.mem_map.mp hs'
      obtain ⟨s', hs'', rfl⟩ := List.mem_map.mp hmem'
      obtain ⟨r', hr', rfl⟩ := List.mem_map.mp hs''
      exact (hfresh r' hr' r hr).1
  · rw [List.map_append, List.nodup_append]
    refine ⟨hs.keyed.sequences, ?_, fun n hmem n' hmem' => ?_⟩
    · rw [List.map_map]
      exact snapshotSources_sequences hsteps hvalid
    · obtain ⟨s, hs', rfl⟩ := List.mem_map.mp hmem
      obtain ⟨r, hr, rfl⟩ := List.mem_map.mp hs'
      obtain ⟨s', hs'', rfl⟩ := List.mem_map.mp hmem'
      obtain ⟨r', hr', rfl⟩ := List.mem_map.mp hs''
      exact (hfresh r' hr' r hr).2

theorem shapeMove_retry {now : Time} {key : Key} {t' : Tables}
    (h : t.retry now key = .ok t') (hs : t.shape.Sound) :
    ShapeMove trail t.shape [] t'.shape := by
  rcases retry_ok h with rfl | ⟨operationId, fromSequence, retryable, _, rfl⟩
  · exact .stay
  have hids : (t.steps.map (·.id)).Nodup := by
    have hshape := hs.keyed.stepIds
    rwa [shape, List.map_map] at hshape
  -- The Steps are saved by their ids.
  have hsaved := saveSteps_map (f := Execution.resetStep now fromSequence)
    (fun s => by unfold Execution.resetStep; split <;> rfl) hids
  have hmove := @ShapeMove.retry trail t.shape fromSequence retryable.failed retryable.single ?_
  · -- Those from the retry point on are pending again.
    have hsteps : (saveSteps (t.steps.map (Execution.resetStep now fromSequence)) t.steps).map
        (·.shape) = t.shape.steps.map (·.reset fromSequence) := by
      rw [hsaved, shape, List.map_map, List.map_map]
      refine List.map_congr_left fun s _ => ?_
      rw [Function.comp_apply, Function.comp_apply, StepShape.reset, Execution.resetStep]
      show _ = if s.sequence < fromSequence then _ else _
      split <;> rfl
    have hoperations : (t.requeueOperation now operationId).operations.map (·.id) =
        t.operations.map (·.id) := by
      refine operations_ids ?_ _
      exact fun _ => rfl
    -- The retry point is the failed Step, or the first.
    have hrow : (retriedRow now t.execution).retryFromSequence = some fromSequence := by
      rcases retryable.strategy with ⟨hfailed, _, hfrom⟩ | ⟨hstart, rfl, _⟩
      · simp [retriedRow, saveExecution, Execution.requeued, hfailed, hfrom]
      · simp [retriedRow, saveExecution, Execution.requeued, Execution.forgetSession, hstart]
    have hshape : Tables.shape { (t.requeueOperation now operationId) with
          execution := retriedRow now t.execution
          steps := saveSteps (t.steps.map (Execution.resetStep now fromSequence)) t.steps
          retries := t.retries ++ [key] } =
        { t.shape with
          status := .queued
          retryFrom := some fromSequence
          retried := true
          steps := t.shape.steps.map (·.reset fromSequence) } := by
      refine Shape.ext ?_ ?_ hsteps rfl rfl ?_ hoperations ?_ ?_ ?_ ?_ hrow ?_ ?_ rfl <;>
        simp only [shape, retriedRow, saveExecution, Execution.requeued] <;> split <;>
        simp [Execution.forgetSession]
    rw [hshape]
    exact hmove
  · -- With the session of the failed run, or from the first Step.
    rcases retryable.strategy with ⟨hfailed, hsession, hfrom⟩ | ⟨hstart, rfl, _⟩
    · simp only [Execution.hasResumableSession, Bool.and_eq_true] at hsession
      exact .inl ⟨hfailed, hsession.1.1.2, hfrom⟩
    · refine .inr ⟨?_, rfl⟩
      show t.execution.retryStrategy ≠ .fromFailedStep
      rw [hstart]
      decide

theorem shapeMove_of_same {c : Change} (hshape : c.tables.shape = t.shape)
    (hevents : c.stepwise = []) : ShapeMove trail t.shape c.stepwise c.tables.shape := by
  rw [hshape, hevents]
  exact .stay

theorem stepwise_of_subject {c : Change} {subject : EventSubject}
    (hevents : c.events.map (·.subject) = [subject]) (hstepwise : subject.isStepwise = true) :
    c.stepwise = [subject] := by
  rw [Change.stepwise, hevents, List.filter_cons_of_pos hstepwise, List.filter_nil]

theorem shapeMove_claimHandover (settings : Settings) (now : Time) (worker : WorkerId)
    (view : ClaimView) (t : Tables) :
    ShapeMove trail t.shape (t.claimHandover settings now worker view).stepwise
      (t.claimHandover settings now worker view).tables.shape := by
  rcases claimHandover_cases settings now worker view t with
    hc | ⟨_, _, hc | ⟨attempt, _, hc⟩⟩
  · rw [hc]
    exact .stay
  · rw [hc]
    exact .takeOver
  · rw [hc]
    rw [shape_takeOver]
    exact .takeOver

theorem shapeMove_claimCancellation (settings : Settings) (now : Time) (worker : WorkerId)
    (t : Tables) :
    ShapeMove trail t.shape (t.claimCancellation settings now worker).stepwise
      (t.claimCancellation settings now worker).tables.shape := by
  rcases claimCancellation_cases settings now worker t with hc | ⟨_, ⟨_, hc⟩ | hc⟩
  · rw [hc]
    exact .stay
  · rw [hc]
    exact .stay
  · rw [hc]
    exact .takeOver

theorem shapeMove_releaseForHandover {clock : Clock} {lease : ExecutionLease} {c : Change}
    (h : t.releaseForHandover clock lease = .ok c) :
    ShapeMove trail t.shape c.stepwise c.tables.shape := by
  simp only [releaseForHandover, Txn.bind_ok] at h
  obtain ⟨_, _, h⟩ := h
  split at h
  · cases h
    exact .stay
  rename_i stepAttempt hfollow
  obtain ⟨hstep, hguard⟩ := Option.filter_eq_some_iff.mp hfollow
  simp only [Bool.and_eq_true, beq_iff_eq, bne_iff_ne, ne_eq] at hguard
  rw [← hguard.1.1.1] at h
  exact shapeMove_beginHandover h hstep hguard.2

/-- A run ends the Step it has running. -/
theorem shapeMove_endStep {now : Time} {lease : ExecutionLease} {sequence : ℕ}
    {status : StepStatus} {stored : StepResultDescriptor} {message : Option String}
    {step : ExecutionStep} {c : Change} (hs : t.shape.Sound)
    (active : ∃ a, t.requireActiveLease now lease = .ok a) {updated : Time}
    (hrunning : ∃ h ∈ t.shape.stepAttempts, h.attemptId = lease.attemptId ∧
      h.sequence = sequence ∧ h.status = .running)
    (hstep : t.stepAt? sequence = some step) (hended : status.isOpen = false)
    (htables : c.tables = t.endStep updated lease.attemptId sequence status stored message)
    (hevents : c.events.map (·.subject) = [.stepCompleted status step.id lease.attemptId]) :
    ShapeMove trail t.shape c.stepwise c.tables.shape := by
  obtain ⟨h, hmem, hattempt, hsequence, hrun⟩ := hrunning
  obtain ⟨⟨s, hsteps, hid, hnumber⟩, _⟩ := hs.keyed.attempted h hmem
  have hfound : step.sequence = sequence := by simpa using List.find?_some hstep
  have hsame : s = step.shape := hs.keyed.step_of_sequence hsteps
    (List.mem_map_of_mem (List.mem_of_find?_eq_some hstep))
    (hnumber.trans (hsequence.trans hfound.symm))
  have hstepId : step.id = h.stepId := by rw [← hid, hsame, ExecutionStep.shape]
  rw [stepwise_of_subject hevents rfl, htables, shape_endStep hattempt hsequence, hstepId,
    ← hattempt]
  exact .finish (status_running active) hmem hrun hended

/-- Outcome columns that a cleanup or an expired window writes on an ended Execution. -/
theorem shapeMove_settle {c : Change} (hl : t.leaseColumns.Sound)
    (hterminal : t.execution.status.isTerminal = true)
    (hshape : ∃ session aborting strategy retryFrom,
      (strategy = t.execution.retryStrategy ∧ retryFrom = t.execution.retryFromSequence ∨
        strategy = .notRetryable) ∧
      c.tables.shape = { t.shape with session, aborting, strategy, retryFrom })
    (hevents : c.events = []) : ShapeMove trail t.shape c.stepwise c.tables.shape := by
  obtain ⟨session, aborting, strategy, retryFrom, hretry, hshape⟩ := hshape
  have hreleased : t.handover = none := by
    refine handover_none hl ?_
    cases hstatus : t.execution.status <;> rw [hstatus] at hterminal <;> first | rfl | cases hterminal
  have hstepwise : c.stepwise = [] := by rw [Change.stepwise, hevents]; rfl
  rw [hstepwise, hshape]
  exact .settle hterminal (by simp [shape, hreleased]) hretry

theorem shape_cleanedUp (now : Time) (cleanup : RuntimeSessionCleanupStatus) (t : Tables) :
    (t.cleanedUp now cleanup).shape =
      { t.shape with
        session := (t.cleanedUp now cleanup).shape.session
        aborting := (t.cleanedUp now cleanup).shape.aborting } := by
  refine congrArg (fun attempts => { t.shape with
    attempts
    session := (t.cleanedUp now cleanup).shape.session
    aborting := (t.cleanedUp now cleanup).shape.aborting }) ?_
  rw [cleanedUp]
  cases t.latestAttempt? with
  | none => rfl
  | some latest =>
    refine attempts_shape_same ?_ _
    exact fun _ => rfl

theorem shape_retryUnresolved (settings : Settings) (now : Time) (t : Tables) :
    (t.retryUnresolved settings now).shape = t.shape := by
  simp only [retryUnresolved]
  split
  · rw [shape_markAttemptPending]
    rfl
  · rfl

/-- The end of a retention window. -/
theorem shapeMove_cleanupExpired {now : Time} {c : Change} (h : t.cleanupExpired now = .ok c)
    (hs : t.shape.Sound) (hl : t.leaseColumns.Sound) :
    ShapeMove trail t.shape c.stepwise c.tables.shape := by
  rcases cleanupExpired_ok h with rfl | ⟨hexpired, ⟨hne, rfl⟩ | ⟨hqueued, row, closed, events, rfl,
    hclosed, rfl⟩⟩
  · exact .stay
  · simp only [retentionExpired, Bool.and_eq_true, Bool.or_eq_true, beq_iff_eq] at hexpired
    have hfailed : t.execution.status = .failed := hexpired.1.1.1.resolve_right hne
    exact shapeMove_settle hl (by rw [hfailed]; rfl)
      ⟨t.shape.session, t.shape.aborting, .notRetryable, none, .inr rfl,
        shape_markAttemptPending _⟩ rfl
  · obtain ⟨rfl, rfl⟩ := Prod.mk.inj hclosed
    simp only [retentionExpired, Bool.and_eq_true, beq_iff_eq] at hexpired
    have hsingle : t.execution.operationMode = .single := by
      cases hmode : t.execution.operationMode with
      | single => rfl
      | multi =>
        have hnot : t.execution.retryStrategy = .notRetryable := hs.columns.multi hmode
        rw [hnot] at hexpired
        exact absurd hexpired.1.1.2 (by decide)
    refine shapeMove_failUnclaimed hs (by rw [hqueued]; rfl)
      (handover_none hl (by rw [hqueued]; rfl)) (hs.atStatus.queued hqueued)
      (hs.atStatus.queuedSingle hqueued hsingle).1 ?_ ?_ ?_ ?_ (shape_markAttemptPending _) ?_
    · exact ⟨rfl, rfl, rfl, rfl, rfl, rfl, rfl⟩
    · rfl
    · exact fun _ => rfl
    · simp [reservedRow]
    · let row := reservedRow now { t.execution with
        status := .failed
        errorMessage := some retryWindowMessage
        finishedAt := some now }
      have hstatus : (t.failUnclaimed now row retryWindowMessage
          none).1.markAttemptPending.execution.status = .failed := by
        rw [markAttemptPending]
        split <;> rfl
      refine Eq.trans (@stepwise_of_end (t.failUnclaimed now row retryWindowMessage
        none).1.markAttemptPending _ [] _ [] rfl (by simp) (closedOperationEvent_stepwise _ _)
        rfl) ?_
      rw [hstatus]
      rfl

end Tables

open Tables in
/-- A proper transaction is a move of the shape. -/
theorem shapeMove_of_change {trail : List EventSubject} {settings : Settings} {r : Rows}
    {tx : TableTransaction} {c : Change} (h : tx.change settings r = .ok c)
    (hs : r.tables.shape.Sound) (hl : r.tables.leaseColumns.Sound)
    (hp : tx.Proper trail r.tables) :
    ShapeMove trail r.tables.shape c.stepwise c.tables.shape := by
  have hsaved := saveSteps_self_shape hs
  cases tx with
  | cancel now key reason =>
    obtain ⟨t, ht, rfl⟩ := Txn.quiet_ok.mp h
    rcases cancel_ok ht with rfl | ⟨hopen, _, rfl⟩
    · exact .stay
    · -- The Steps are saved as they are.
      rw [hsaved]
      exact .requestCancel hopen
  | retry now key =>
    obtain ⟨t, ht, rfl⟩ := Txn.quiet_ok.mp h
    exact shapeMove_retry ht hs
  | createOperation now command =>
    obtain ⟨t, ht, rfl⟩ := Txn.quiet_ok.mp h
    exact shapeMove_createOperation ht hs
  | finalizeCommand now key fingerprint expectedVersion =>
    obtain ⟨t, ht, rfl⟩ := Txn.quiet_ok.mp h
    rcases finalizeCommand_ok ht with rfl | ⟨_, hwaiting, rfl⟩
    · exact .stay
    · rw [hsaved]
      exact .finalizing hwaiting
  | claim now worker attemptId view => exact shapeMove_claim h hs hl
  | claimHandover now worker view =>
    cases h
    exact shapeMove_claimHandover settings now worker view r.tables
  | claimCancellation now worker =>
    cases h
    exact shapeMove_claimCancellation settings now worker r.tables
  | renewExecution now lease =>
    obtain ⟨t, ht, rfl⟩ := Txn.quiet_ok.mp h
    obtain ⟨_, rfl⟩ := renewExecution_ok ht
    refine shapeMove_of_same ?_ rfl
    -- The Attempt's lease has no part in the shape.
    refine congrArg (fun attempts => { r.tables.shape with attempts }) ?_
    refine attempts_shape_same ?_ _
    exact fun _ => rfl
  | renewCancellation now lease =>
    obtain ⟨t, ht, rfl⟩ := Txn.quiet_ok.mp h
    obtain ⟨_, rfl⟩ := renewCancellation_ok ht
    exact .stay
  | assertExecution clock lease allowed =>
    obtain ⟨_, rfl⟩ := assertExecution_ok h
    exact .stay
  | ensureCount clock lease cellCount =>
    obtain ⟨_, rfl⟩ := ensureCount_ok h
    exact .stay
  | recordRuntimeSession clock lease sessionId workspace notebook =>
    obtain ⟨active, rfl⟩ := recordRuntimeSession_ok h
    -- The events that are sent late are no events of Steps.
    have hevents : Change.stepwise
        { tables := r.tables.withSession clock.now lease.attemptId sessionId workspace notebook
          events := (r.tables.withSession clock.now lease.attemptId sessionId workspace
            notebook).addStartEvents r.log } = [] := addStartEvents_stepwise _ _
    rw [hevents, shape_withSession]
    exact .session (status_running active)
  | markStarted clock lease sequence historyId requestId baseline =>
    obtain ⟨active, _, _, step, hstep, tables, _, events⟩ := markStarted_ok h
    obtain ⟨hat, s, hmem, hsequence, hactive⟩ := hp
    have hfound : step ∈ r.tables.steps ∧ step.sequence = sequence :=
      ⟨List.mem_of_find?_eq_some hstep, by simpa using List.find?_some hstep⟩
    -- The Step at this position is the one the run has come to.
    have hsame : s = step.shape := hs.keyed.step_of_sequence hmem
      (List.mem_map_of_mem hfound.1) (hsequence.trans hfound.2.symm)
    subst hsame
    rw [← hsequence] at hat
    have hlive := leaseAttempt_running active
    have hpending : step.status = .pending := hat.pending hmem hactive
    rw [stepwise_of_subject events rfl, tables, shape_stepStarted (stepAttempt_fresh hs hfound.1
      hpending hlive)]
    exact .start (status_running active) (by simp [shape, leaseHandover_none active hl]) hlive hmem
      hactive hat
  | markSubmitted clock lease requestId =>
    obtain ⟨_, rfl⟩ := markSubmitted_ok h
    exact .stay
  | recordHandoverCompleted clock lease sequence handover finished =>
    obtain ⟨active, step, hstep, tables, _, events⟩ := recordHandoverCompleted_ok h
    have hfound : step ∈ r.tables.steps := List.mem_of_find?_eq_some hstep
    have hsequence : step.sequence = sequence := by simpa using List.find?_some hstep
    rw [stepwise_of_subject events rfl, tables]
    exact .handoverCompleted (by simp [shape, leaseHandover_none active hl])
      (List.mem_map_of_mem hfound)
      -- The Step was handed over to this run.
      (hp step.shape (List.mem_map_of_mem hfound) hsequence)
  | markSucceeded clock lease sequence stored =>
    obtain ⟨active, step, hstep, tables, _, events⟩ := markSucceeded_ok h
    exact shapeMove_endStep hs active hp.2 hstep rfl tables events
  | markFailed clock lease sequence stored message retryable =>
    obtain ⟨active, step, hstep, tables, _, events⟩ := markFailed_ok h
    exact shapeMove_endStep hs active hp.2 hstep rfl tables events
  | recordInterruptedResult clock lease sequence stored =>
    obtain ⟨_, step, rfl⟩ := recordInterruptedResult_ok h
    refine shapeMove_of_same ?_ rfl
    -- The evidence is written to the row of the Step, not to its status.
    have hsame := shape_sameButNotebook
      (t := r.tables.withEvidence clock.now lease.attemptId step stored)
      (e := invalidateNotebook "Step interruption" r.tables.execution) ?_
    · exact hsame.trans (shape_withEvidence _ _ _ _ _)
    · have hrow := invalidateNotebook_same "Step interruption" r.tables.execution
      cases stored <;> exact hrow
  | completeOperation clock lease operationId status message failureType =>
    obtain ⟨active, rfl | ⟨operation, seconds, hoperation, hrunning, _, hresults, rfl⟩⟩ :=
      completeOperation_ok h
    · exact .stay
    · -- The active Operation ends, and with it every Step of it.
      obtain ⟨hmulti, hsession, hactive, hterminal, hopen⟩ := hp
      have hevents : Change.stepwise
          { tables := r.tables.operationEnded clock.now lease.attemptId operationId status message
              failureType seconds
            events := (r.tables.operationEnded clock.now lease.attemptId operationId status message
              failureType seconds).addOperationCompletedEvent operationId } = [] :=
        addOperationCompletedEvent_stepwise _ _
      rw [hevents, shape_operationEnded]
      refine .complete (status_running active) hmulti hsession (leaseAttempt_running active) ?_
      by_cases hstatus : status = .succeeded
      · obtain ⟨found, hfound, hcompleted⟩ := requireCompletedResults_ok (hresults hstatus)
        rw [← hactive] at hfound
        exact noneOpen_of_completed hs hfound hcompleted
      · exact hopen hstatus
  | skipStepsAfter clock lease operationId sequence =>
    obtain ⟨active, rfl⟩ := skipStepsAfter_ok h
    rw [shape_stepsSkippedAfter]
    exact .skip (status_running active) hp
  | beginProjection clock lease =>
    obtain ⟨_, e, same, rfl⟩ := beginProjection_ok h
    exact shapeMove_of_same (shape_sameButNotebook same) rfl
  | recordProjection clock lease status count message =>
    obtain ⟨_, e, same, rfl⟩ := recordProjection_ok h
    exact shapeMove_of_same (shape_sameButNotebook same) rfl
  | persistNotebook clock lease notebook =>
    obtain ⟨_, artifacts, rfl⟩ := persistNotebook_ok h
    exact .stay
  | persistArtifacts clock lease sequence allow artifacts =>
    obtain ⟨_, artifacts, rfl⟩ := persistArtifacts_ok h
    exact .stay
  | recordRuntimeAbort clock lease abort cleanup failureType =>
    obtain ⟨active, rfl⟩ := recordRuntimeAbort_ok h
    rw [shape_withAbort]
    -- An abort does not concern a handed-over Step.
    exact .abort (by simp [shape, leaseHandover_none active hl])
  | deferRetainedRetry clock lease =>
    obtain ⟨t, ht, rfl⟩ := Txn.quiet_ok.mp h
    obtain ⟨a, ha, rfl | ⟨_, rfl⟩⟩ := deferRetainedRetry_ok ht
    · exact .stay
    · rw [shape_deferred]
      -- The retry point stays where it was.
      exact .defer (requireActiveLease_running ha) hp.1 (leaseAttempt_running ⟨a, ha⟩) hp.2.1
        hp.2.2
  | releaseForCancellation clock lease =>
    obtain ⟨_, rfl⟩ := releaseForCancellation_ok h
    exact shapeMove_of_same (shape_released _ _ _) rfl
  | releaseForHandover clock lease => exact shapeMove_releaseForHandover h
  | finalize clock lease request => exact shapeMove_finalize h hs hl hp
  | finalizeCancellation clock lease cleanup => exact shapeMove_finalizeCancellation h hs hl
  | fenceExpiredLease now view => exact shapeMove_fenceExpiredLease h hs
  | failQueueTimeout now =>
    rcases failQueueTimeout_ok h with rfl | ⟨hqueued, hexpires, rfl⟩
    · exact .stay
    · -- Without a claim there is no Attempt.
      have hnone : r.tables.shape.attempts = [] := by
        by_contra hattempts
        have hsome := (hs.columns.attempted hattempts).2
        simp [shape, hexpires] at hsome
      exact shapeMove_unclaimedEnd hs (by rw [hqueued]; rfl)
        (handover_none hl (by rw [hqueued]; rfl)) (hs.atStatus.queued hqueued)
        (by simp [ShapeRows.NoneLive, hnone]) ⟨rfl, rfl, rfl, rfl, rfl, rfl, rfl⟩ rfl (fun _ => rfl)
        (by simp [queueTimedOutRow])
  | requestExpiredCancellation now =>
    rcases requestExpiredCancellation_ok h with rfl | ⟨hstatus, rfl⟩
    · exact .stay
    · refine .requestCancel ?_
      rcases hstatus with hstatus | hstatus | hstatus <;>
        simp [shape, hstatus, ExecutionStatus.isTerminal]
  | endWaitingExecution now observation finalizedBy =>
    rcases endWaitingExecution_ok h with rfl | ⟨hwaiting, rfl | ⟨failureType, message, rfl⟩⟩
    · exact .stay
    · exact .finalizing hwaiting
    · -- A wait that fails leaves nothing open.
      exact shapeMove_waitingFailed hs (handover_none hl (by rw [hwaiting]; rfl)) hwaiting
  | failWaitingExecution now observation failureType message =>
    rcases failWaitingExecution_ok h with rfl | ⟨hwaiting, rfl⟩
    · exact .stay
    · exact shapeMove_waitingFailed hs (handover_none hl (by rw [hwaiting]; rfl)) hwaiting
  | cleanupExpired now => exact shapeMove_cleanupExpired h hs hl
  | retryUnresolved now =>
    cases h
    exact shapeMove_of_same (shape_retryUnresolved settings now r.tables) rfl
  | recordResult now observation cleanup =>
    cases h
    rcases recordResult_cases observation cleanup now r.tables with hr | ⟨_, hended, hr⟩ <;> rw [hr]
    · exact .stay
    · -- The Execution had ended before.
      refine shapeMove_settle hl ?_ ⟨_, _, _, _, .inl ⟨rfl, rfl⟩, shape_cleanedUp now cleanup _⟩ rfl
      rcases hended with hended | hended <;> rw [hended] <;> rfl

end ExecutorService
