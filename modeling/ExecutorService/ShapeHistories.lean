/-
Histories of proper transactions.

A history is sound when its leases are fenced, its Operations and its shape are sound, and
each released Step has been reported as followed at most as often as it was released.
Proper transactions keep that.

* `ShapeMove.followed` — a move reports no Step as followed that was not released;
* `History.Sound.step` — a proper transaction keeps a sound history sound;
* `Submission.sound` — a submission starts a sound history.
-/
import ExecutorService.LeaseFencing
import ExecutorService.OperationEvents
import ExecutorService.ShapeChanges

namespace ExecutorService

/-- The Step and end events of an Execution, in order. -/
def History.trail (h : History) : List EventSubject :=
  (h.rows.log.history.map (·.payload.subject)).filter (·.isStepwise)

/-- Each report that a released Step is followed has its release. -/
structure Followed (trail : List EventSubject) (c : Shape) : Prop where
  counted : ∀ stepId attemptId, trail.count (.stepHandoverCompleted stepId attemptId) ≤
    trail.count (.stepHandoverStarted stepId attemptId)
  released : c.handover = true → ∀ h ∈ c.stepAttempts, h.status = .running →
    Unfollowed trail h.stepId h.attemptId

/-- What holds of an Execution in every reachable state. -/
structure History.Sound (h : History) : Prop where
  fenced : h.Fenced
  operations : h.rows.tables.operationColumns.Sound
  shape : h.rows.tables.shape.Sound
  followed : Followed h.trail h.rows.tables.shape

/-! ### Moves -/

/-- Events that are about no release leave the counts as they are. -/
theorem Followed.append {trail events : List EventSubject} {c c' : Shape} (h : Followed trail c)
    (hevents : ∀ stepId attemptId, EventSubject.stepHandoverStarted stepId attemptId ∉ events ∧
      EventSubject.stepHandoverCompleted stepId attemptId ∉ events)
    (hreleased : c'.handover = true → c.handover = true ∧ ∀ x ∈ c'.stepAttempts,
      x.status = .running → ∃ y ∈ c.stepAttempts, y.status = .running ∧ y.stepId = x.stepId ∧
        y.attemptId = x.attemptId) : Followed (trail ++ events) c' := by
  have hcounts : ∀ stepId attemptId,
      (trail ++ events).count (.stepHandoverStarted stepId attemptId) =
        trail.count (.stepHandoverStarted stepId attemptId) ∧
      (trail ++ events).count (.stepHandoverCompleted stepId attemptId) =
        trail.count (.stepHandoverCompleted stepId attemptId) := by
    intro stepId attemptId
    obtain ⟨hstarted, hcompleted⟩ := hevents stepId attemptId
    rw [List.count_append, List.count_append, List.count_eq_zero.mpr hstarted,
      List.count_eq_zero.mpr hcompleted, Nat.add_zero, Nat.add_zero]
    exact ⟨rfl, rfl⟩
  refine ⟨fun stepId attemptId => ?_, fun hhandover x hx hrunning => ?_⟩
  · rw [(hcounts stepId attemptId).1, (hcounts stepId attemptId).2]
    exact h.counted stepId attemptId
  · obtain ⟨hbefore, hrows⟩ := hreleased hhandover
    obtain ⟨y, hy, hrun, hstep, hattempt⟩ := hrows x hx hrunning
    rw [Unfollowed, (hcounts _ _).1, (hcounts _ _).2, ← hstep, ← hattempt]
    exact h.released hbefore y hy hrun

theorem Followed.same {trail : List EventSubject} {c c' : Shape} (h : Followed trail c)
    (hhandover : c'.handover = true → c.handover = true)
    (hsame : c'.stepAttempts = c.stepAttempts) : Followed (trail ++ []) c' :=
  h.append (fun _ _ => ⟨List.not_mem_nil, List.not_mem_nil⟩) fun hc =>
    ⟨hhandover hc, fun x hx hrunning => ⟨x, hsame ▸ hx, hrunning, rfl, rfl⟩⟩

/-- The only row that a release can be about. -/
theorem ShapeRows.Statuses.running_keys {c : ShapeRows} (h : c.Statuses) {x y : StepAttemptShape}
    (hx : x ∈ c.stepAttempts) (hy : y ∈ c.stepAttempts) (hxrun : x.status = .running)
    (hyrun : y.status = .running) : x.stepId = y.stepId ∧ x.attemptId = y.attemptId := by
  obtain ⟨hxa, s, hs, hsid, _, hsrun⟩ := h.runningStepAttempt x hx hxrun
  obtain ⟨hya, s', hs', hsid', _, hsrun'⟩ := h.runningStepAttempt y hy hyrun
  have hstep := h.runningStep s hs s' hs' hsrun hsrun'
  have hattempt := h.liveAttempt _ hxa _ hya rfl rfl
  exact ⟨by rw [← hsid, ← hsid', hstep], congrArg Prod.fst hattempt⟩

theorem ShapeMove.followed {trail events : List EventSubject} {c c' : Shape}
    (h : ShapeMove trail c events c') (hs : c.Sound) (hf : Followed trail c) :
    Followed (trail ++ events) c' := by
  cases h with
  -- Moves that report no hand-over leave both counts alone.
  | stay => exact hf.same id rfl
  | requestCancel => exact hf.same id rfl
  | finalizing => exact hf.same id rfl
  | retry => exact hf.same id rfl
  | operation => exact hf.same id rfl
  | resume => exact hf.same id rfl
  | attempt => exact hf.same id rfl
  | takeOver => exact hf.same (fun h => absurd h Bool.false_ne_true) rfl
  | session => exact hf.same id rfl
  | abort => exact hf.same id rfl
  | skip => exact hf.same id rfl
  | complete => exact hf.same id rfl
  | defer => exact hf.same id rfl
  | settle => exact hf.same id rfl
  -- A hand-over is counted once more, and the Step it names is the one running.
  | @handOver x mem running aborting =>
    have hcount : ∀ stepId attemptId,
        (trail ++ [EventSubject.stepHandoverStarted x.stepId x.attemptId]).count
          (.stepHandoverCompleted stepId attemptId) =
        trail.count (.stepHandoverCompleted stepId attemptId) := by
      intro stepId attemptId
      have hnone : [EventSubject.stepHandoverStarted x.stepId x.attemptId].count
          (.stepHandoverCompleted stepId attemptId) = 0 := List.count_eq_zero.mpr (by simp)
      rw [List.count_append, hnone, Nat.add_zero]
    refine ⟨fun stepId attemptId => ?_, fun _ y hy hrunning => ?_⟩
    · rw [hcount, List.count_append]
      exact (hf.counted stepId attemptId).trans (Nat.le_add_right _ _)
    · obtain ⟨hstep, hattempt⟩ := hs.statuses.running_keys hy mem hrunning running
      rw [Unfollowed, hcount, hstep, hattempt, List.count_append, List.count_singleton_self]
      exact Nat.lt_succ_of_le (hf.counted x.stepId x.attemptId)
  -- The completion is counted once more, which the guard of the move allows.
  | @handoverCompleted s attemptId released mem unfollowed =>
    refine ⟨fun stepId attemptId' => ?_, fun h => absurd (released.symm.trans h) (by decide)⟩
    have hstarted : (trail ++ [EventSubject.stepHandoverCompleted s.id attemptId]).count
        (.stepHandoverStarted stepId attemptId') =
        trail.count (.stepHandoverStarted stepId attemptId') := by
      have hnone : [EventSubject.stepHandoverCompleted s.id attemptId].count
          (.stepHandoverStarted stepId attemptId') = 0 := List.count_eq_zero.mpr (by simp)
      rw [List.count_append, hnone, Nat.add_zero]
    rw [hstarted, List.count_append]
    by_cases hsame : s.id = stepId ∧ attemptId = attemptId'
    · rw [← hsame.1, ← hsame.2, List.count_singleton_self]
      exact unfollowed
    · have hnone : [EventSubject.stepHandoverCompleted s.id attemptId].count
          (.stepHandoverCompleted stepId attemptId') = 0 := by
        rw [List.count_eq_zero, List.mem_singleton, EventSubject.stepHandoverCompleted.injEq]
        exact fun h => hsame ⟨h.1.symm, h.2.symm⟩
      rw [hnone, Nat.add_zero]
      exact hf.counted stepId attemptId'
  -- A Step that starts, finishes or is closed reports no hand-over.
  | start before released =>
    exact hf.append (fun _ _ => by simp) fun h => absurd (released.symm.trans h) (by decide)
  | finish before mem running ended =>
    refine hf.append (fun _ _ => by simp) fun h => ⟨h, fun x hx hrunning => ?_⟩
    rcases List.mem_updateWhere.mp hx with ⟨y, _, _, rfl⟩ | ⟨hx, _⟩
    · exact absurd hrunning (StepStatus.ne_running ended)
    · exact ⟨x, hx, hrunning, rfl, rfl⟩
  | close before terminal step skipped attempt released =>
    refine hf.append (fun _ _ => ?_) fun h => absurd (released.symm.trans h) (by decide)
    constructor <;> intro hmem <;> rcases List.mem_append.mp hmem with hmem | hmem
    · obtain ⟨_, _, hevent⟩ := List.mem_map.mp hmem
      cases hevent
    · simp at hmem
    · obtain ⟨_, _, hevent⟩ := List.mem_map.mp hmem
      cases hevent
    · simp at hmem

/-! ### Histories -/

variable {settings : Settings}

/-- A transaction whose issuer knows what it has to, where it commits. -/
def Transaction.Proper (settings : Settings) (h : History) : Transaction → Prop
  | .table _ tx => ∀ c, tx.change settings h.rows = .ok c → tx.Proper h.trail h.rows.tables
  | .log _ => True

/-- A proper transaction is a move of the shape that appends its events. -/
theorem History.step_shape {h : History} (hs : h.Sound) {tx : Transaction}
    (hp : tx.Proper settings h) :
    ∃ events, ShapeMove h.trail h.rows.tables.shape events
        (h.step settings tx).rows.tables.shape ∧
      (h.step settings tx).trail = h.trail ++ events := by
  cases tx with
  | log tx =>
    refine ⟨[], .stay, ?_⟩
    rw [List.append_nil, trail, trail, History.step]
    exact congrArg (fun rows : List EventRow =>
      (rows.map (·.payload.subject)).filter (·.isStepwise)) (tx.apply_history settings h.rows)
  | table eventTime tx =>
    rcases History.step_table with hstep | ⟨change, log, hchange, hlog, hstep⟩
    · rw [hstep]
      exact ⟨[], .stay, (List.append_nil _).symm⟩
    · rw [hstep]
      refine ⟨change.stepwise, shapeMove_of_change hchange hs.shape hs.fenced.sound
        (hp change hchange), ?_⟩
      obtain ⟨rows, hrows, rfl⟩ := EventLog.persistAll_ok hlog
      rw [Change.stepwise, ← hrows]
      show ((h.rows.log.history ++ rows).map _).filter _ = _
      rw [List.map_append, List.filter_append]
      rfl

theorem History.Sound.step {h : History} (hs : h.Sound) {tx : Transaction}
    (hp : tx.Proper settings h) : (h.step settings tx).Sound := by
  obtain ⟨events, hmove, htrail⟩ := History.step_shape hs hp
  refine ⟨hs.fenced.step tx, History.step_operations_sound hs.operations tx,
    hmove.sound hs.shape, ?_⟩
  rw [htrail]
  exact hmove.followed hs.shape hs.followed

/-! ### Submissions -/

theorem submit_shape {now : Time} {command : SubmitExecutionCommand} {t : Tables}
    (h : submit settings now command = .ok t) : t.shape.Sound := by
  simp only [submit, Txn.bind_ok] at h
  obtain ⟨_, hsubmit, _, _, _, _, steps, hsteps, h⟩ := h
  split at h
  · cases h
  rename_i hnodup
  cases h
  simp only [validateSubmit, Txn.bind_ok] at hsubmit
  obtain ⟨_, hvalid, _⟩ := hsubmit
  have hpending := Tables.snapshotSources_pending hsteps
  have hsequences := Tables.snapshotSources_sequences hsteps hvalid
  -- The sequences of a submission run from 0 without a gap.
  have hrange : steps.map (·.sequence) = List.range steps.length := by
    have hlength : steps.length = command.steps.length := by
      simpa using congrArg List.length (snapshotSources_number hsteps)
    have hnumbers := congrArg (List.map StepNumber.sequence) (snapshotSources_number hsteps)
    rw [List.map_map, List.map_map] at hnumbers
    have hsame : steps.map (·.sequence) = command.steps.map (·.sequence) := hnumbers
    rw [hsame, (validateOperationSteps_ok hvalid).2, hlength, List.range_eq_range']
  -- Every Step is new: PENDING and of the first Operation.
  have hstep : ∀ s ∈ steps.map (·.shape), s.operationId = command.operationId ∧
      s.status = .pending := by
    intro s hs
    obtain ⟨step, hmem, rfl⟩ := List.mem_map.mp hs
    exact hpending step hmem
  have hat : ∀ s ∈ steps.map (·.shape), s.status = if 0 ≤ s.sequence then .pending else .succeeded :=
    fun s hs => by rw [(hstep s hs).2, if_pos (Nat.zero_le _)]
  have hidle : ∀ s ∈ steps.map (·.shape), s.status ≠ .running :=
    fun s hs => by rw [(hstep s hs).2]; decide
  -- The parts of soundness one by one; all the rest is empty.
  refine ⟨⟨?_, ?_, List.nodup_nil, List.nodup_nil, by simp [Tables.shape], fun _ s hs => ?_, fun _ => ?_⟩,
    ⟨?_, ?_, by simp [Tables.shape], fun s hs _ => ?_, by simp [Tables.shape], fun s hs hrun => ?_,
      by simp [Tables.shape]⟩,
    ⟨fun _ => rfl, fun h => absurd rfl h, fun _ => rfl, fun s hs => ?_, fun h => by cases h⟩, ?_⟩
  · show ((steps.map (·.shape)).map (·.id)).Nodup
    rw [List.map_map]
    exact not_not.mp hnodup
  · show ((steps.map (·.shape)).map (·.sequence)).Nodup
    rw [List.map_map]
    exact hsequences
  · exact congrArg some (hstep s hs).1
  · show (steps.map (·.shape)).map (·.sequence) = List.range (steps.map (·.shape)).length
    rw [List.map_map, List.length_map]
    exact hrange
  · exact fun s hs _ _ hrun => absurd hrun (hidle s hs)
  · exact fun s hs hrun => absurd hrun (hidle s hs)
  · exact congrArg some (hstep s hs).1
  · exact absurd hrun (hidle s hs)
  · rw [(hstep s hs).1]
    exact List.mem_singleton_self _
  · refine .of_queued rfl hidle
      (fun _ => ⟨by simp [ShapeRows.NoneLive, Tables.shape], ?_, ?_, fun _ => rfl⟩)
      fun _ => ⟨fun s hs _ => hat s hs, .inl ⟨rfl, rfl⟩⟩
    · exact fun s hs _ => hat s hs
    · intro hstrategy
      cases hstrategy

theorem Submission.sound (s : Submission settings) : s.history.Sound := by
  refine ⟨s.fenced, s.operations_sound, submit_shape s.accepted, ?_⟩
  refine ⟨fun _ _ => Nat.le_refl _, fun h => ?_⟩
  have hhandover := (submit_execution s.accepted).2.2.1
  simp [Submission.history, Tables.shape, hhandover] at h

end ExecutorService
