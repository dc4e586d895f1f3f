/-
Success is earned.

SUCCEEDED is written in one place, but what it stands for is put together by several runs:
each Step reports its own result, the notebook is registered on its own, a retry keeps the
Steps that had succeeded, and recoveries and cancellations come in between.  An Execution is
SUCCEEDED only when all of it is there.

* `Tables.Achieved` — what the rows of an Execution say that it has achieved;
* `Deployment.reported_run` — each Step that has succeeded was reported by a run that held the
  lease, in the Attempt and under the token that the row names;
* `Deployment.earned_run` — both in every reachable state of a deployment; and an undelivered
  result is never retried.
-/
import ExecutorService.DeploymentRuns
import ExecutorService.KeptRows

namespace ExecutorService

/-! ### Steps and their Operations -/

/-- A Step after a move was there before it, or it belongs to a new Operation. -/
theorem ShapeMove.step_before {trail events : List EventSubject} {c c' : Shape}
    (h : ShapeMove trail c events c') : ∀ s ∈ c'.steps,
      (∃ s₀ ∈ c.steps, s₀.id = s.id ∧ s₀.operationId = s.operationId) ∨
        s.operationId ∉ c.operations := by
  have same : ∀ {c' : ShapeRows}, ShapeRows.SameKeys c.toShapeRows c' → ∀ s ∈ c'.steps,
      (∃ s₀ ∈ c.steps, s₀.id = s.id ∧ s₀.operationId = s.operationId) ∨
        s.operationId ∉ c.operations := by
    intro c' hsame s hs
    obtain ⟨s₀, hs₀, hid, hoperation, _⟩ := hsame.symm.step hs
    exact .inl ⟨s₀, hs₀, hid, hoperation⟩
  have stay : ∀ s ∈ c.steps, (∃ s₀ ∈ c.steps, s₀.id = s.id ∧ s₀.operationId = s.operationId) ∨
      s.operationId ∉ c.operations := same (.refl _)
  cases h with
  | stay | requestCancel | finalizing | handOver | takeOver | handoverCompleted | session | abort |
      settle | attempt | resume | complete | defer => exact stay
  | retry => exact same (ShapeRows.sameKeys_reset _ _)
  | operation before fresh added =>
    intro s hs
    rcases List.mem_append.mp hs with hs | hs
    · exact stay s hs
    · rw [(added s hs).1]
      exact .inr fresh
  | @start s attemptId =>
    intro x hx
    exact same (ShapeRows.sameKeys_withStep s.sequence .running _) x hx
  | finish => exact same (ShapeRows.sameKeys_finished _ _ _)
  | skip => exact same (ShapeRows.sameKeys_skipped _ _)
  | close => exact same (ShapeRows.sameKeys_closed _ _ _)

namespace Tables

/-- What the rows of an Execution say that it has achieved. -/
structure Achieved (t : Tables) : Prop where
  /-- An Operation that has succeeded has a complete result of each of its Steps. -/
  delivered : ∀ o ∈ t.operations, o.status = .succeeded →
    ∀ s ∈ t.steps, s.operationId = o.id → Delivered s
  finished : t.execution.status = .succeeded → t.Finished
  /-- A result that could not be completed is final. -/
  undelivered : t.execution.status = .failed →
    t.execution.failureType = some .completionFailed → t.execution.retryStrategy = .notRetryable

/-- The end of an Execution stays as it is. -/
theorem SameEnd.finished {t t' : Tables} (h : t.SameEnd t') (hfinished : t.Finished) :
    t'.Finished := by
  obtain ⟨status, ⟨o, ho, hid, hstatus⟩, projection, ⟨a, ha, htype, havailable, hpath⟩, session⟩ :=
    hfinished
  have hoperations := h.operations (by rw [status]; rfl)
  refine ⟨h.status.trans status, ⟨o, hoperations ▸ ho, ?_, hstatus⟩,
    h.projection.trans projection, ⟨a, h.artifacts ▸ ha, htype, havailable, ?_⟩, h.session session⟩
  · rw [h.active]
    exact hid
  · rw [h.notebook]
    exact hpath

/-- The Steps of an Operation keep their results. -/
theorem delivered_of_old {t t' : Tables} {trail events : List EventSubject}
    (hmove : ShapeMove trail t.shape events t'.shape) (hs : t'.shape.Sound)
    (hold : ∀ s ∈ t.steps, s.status.isOpen = false → s ∈ t'.steps) {o : OperationRow}
    (ho : o ∈ t.operations) (hdelivered : ∀ s ∈ t.steps, s.operationId = o.id → Delivered s) :
    ∀ s ∈ t'.steps, s.operationId = o.id → Delivered s := by
  intro s hmem hoperation
  rcases hmove.step_before s.shape (List.mem_map_of_mem hmem) with ⟨_, hmem₀, hid, hsame⟩ | hnew
  · obtain ⟨s₀, hs₀, rfl⟩ := List.mem_map.mp hmem₀
    have hdelivered₀ := hdelivered s₀ hs₀ (hsame.trans hoperation)
    have hkept := hold s₀ hs₀ (by rw [hdelivered₀.succeeded]; rfl)
    have hids : (t'.steps.map (·.id)).Nodup := by
      have hshape := hs.keyed.stepIds
      rwa [shape, List.map_map] at hshape
    exact List.inj_on_of_nodup_map hids hkept hmem hid ▸ hdelivered₀
  · have howned : o.id ∈ t.shape.operations := List.mem_map_of_mem ho
    have hnew : s.operationId ∉ t.shape.operations := hnew
    rw [hoperation] at hnew
    exact absurd howned hnew

/-- What was achieved before a transaction is there after it. -/
theorem Keeps.achieved {t t' : Tables} {tx : TableTransaction} {trail events : List EventSubject}
    (h : Keeps tx t t') (hmove : ShapeMove trail t.shape events t'.shape)
    (hs : t'.shape.Sound) (ha : t.Achieved) : t'.Achieved := by
  refine ⟨fun o ho hstatus => ?_, fun hstatus => ?_, fun hstatus hfailure => ?_⟩
  · obtain ⟨o₀, ho₀, hid, hkept⟩ := h.operations o ho hstatus
    rw [← hid] at hkept ⊢
    refine delivered_of_old hmove hs h.old ho₀ ?_
    rcases hkept with hsucceeded | hdelivered
    · exact ha.delivered o₀ ho₀ hsucceeded
    · exact hdelivered
  · rcases h.ended (by rw [hstatus]; rfl) with hsame | hunfinished | hfinished
    · exact hsame.finished (ha.finished (hsame.status.symm.trans hstatus))
    · exact absurd hstatus hunfinished.status
    · exact hfinished
  · rcases h.ended (by rw [hstatus]; rfl) with hsame | hunfinished | hfinished
    · rcases hsame.strategy with hstrategy | hstrategy
      · rw [hstrategy]
        exact ha.undelivered (hsame.status.symm.trans hstatus) (hsame.failureType.symm.trans hfailure)
      · exact hstrategy
    · exact hunfinished.undelivered hfailure
    · exact absurd (hfinished.status.symm.trans hstatus) (by decide)

/-- A retry is one of a single Operation that has failed. -/
theorem achieved_retry {t t' : Tables} {now : Time} {key : Key} (h : t.retry now key = .ok t')
    (hs : t.shape.Sound) (ho : t.operationColumns.Sound) (ha : t.Achieved) : t'.Achieved := by
  rcases retry_ok h with rfl | ⟨operationId, fromSequence, retryable, hcount, rfl⟩
  · exact ha
  have hids : (t.operations.map (·.id)).Nodup := by
    have hnodup := ho.nodup
    rwa [operationColumns, List.map_map] at hnodup
  obtain ⟨failed, hfailed, hmatch⟩ := List.countP_pos_iff.mp (hcount ▸ Nat.one_pos)
  simp only [Bool.and_eq_true, beq_iff_eq] at hmatch
  have hqueued : (retriedRow now t.execution).status = .queued := by
    simp only [retriedRow, saveExecution, Execution.requeued]
  refine ⟨fun o hmem hstatus s hstep hoperation => ?_, fun hstatus => ?_, fun hstatus => ?_⟩
  · rcases List.mem_updateWhere.mp hmem with ⟨_, _, _, rfl⟩ | ⟨hmem, hother⟩
    · cases hstatus
    · -- The Step belongs to the Operation that has failed, so that one would have succeeded.
      have hstep : s ∈ saveSteps (t.steps.map (Execution.resetStep now fromSequence)) t.steps := hstep
      rw [retry_steps hs] at hstep
      obtain ⟨x, hx, rfl⟩ := List.mem_map.mp hstep
      have hx' : x.operationId = o.id := by
        rw [← hoperation]
        split <;> rfl
      have hactive : some x.operationId = t.execution.activeOperationId :=
        hs.keyed.single retryable.single x.shape (List.mem_map_of_mem hx)
      have hid : o.id = failed.id := by
        rw [← hx', hmatch.1]
        exact Option.some.inj (hactive.trans retryable.operation)
      have hsame := List.inj_on_of_nodup_map hids hmem hfailed hid
      rw [hsame, hmatch.2] at hstatus
      cases hstatus
  · exact absurd (hqueued.symm.trans hstatus) (by decide)
  · exact absurd (hqueued.symm.trans hstatus) (by decide)

end Tables

/-! ### Histories -/

section

variable {settings : Settings} {h : History}

/-- Honest transactions keep what was achieved. -/
theorem History.Sound.achieved {tx : Transaction} (hs : h.Sound) (hp : tx.Honest settings h)
    (ha : h.rows.tables.Achieved) : (h.step settings tx).rows.tables.Achieved := by
  cases tx with
  | log tx => exact ha
  | table eventTime tx =>
    rcases h.step_table_or settings eventTime tx with hstep | ⟨change, log, hchange, hstep⟩
    · rw [hstep]
      exact ha
    · have hproper : tx.Proper h.trail h.rows.tables := hp.proper change hchange
      have hmove := shapeMove_of_change hchange hs.shape hs.fenced.sound hproper
      rw [hstep]
      by_cases hretry : ∃ now key, tx = .retry now key
      · obtain ⟨now, key, rfl⟩ := hretry
        obtain ⟨t, ht, rfl⟩ := Txn.quiet_ok.mp hchange
        exact Tables.achieved_retry ht hs.shape hs.operations ha
      · have hne : ∀ now key, tx ≠ .retry now key := fun now key heq => hretry ⟨now, key, heq⟩
        exact (keeps_of_change hchange hs.shape hs.fenced.sound hproper hne).achieved hmove
          (hmove.sound hs.shape) ha

/-- A Step that has newly succeeded was reported under an active lease. -/
theorem History.Sound.reported {tx : Transaction} (hs : h.Sound) (hp : tx.Honest settings h)
    {s : ExecutionStep} (hmem : s ∈ (h.step settings tx).rows.tables.steps)
    (hstatus : s.status = .succeeded) : s ∈ h.rows.tables.steps ∨
      ∃ lease tx', h.rows.tables.Reports s tx' lease ∧ .execution lease ∈ h.issued := by
  cases tx with
  | log tx => exact .inl hmem
  | table eventTime tx =>
    rcases h.step_table_or settings eventTime tx with hstep | ⟨change, log, hchange, hstep⟩
    · rw [hstep] at hmem
      exact .inl hmem
    · rw [hstep] at hmem
      by_cases hretry : ∃ now key, tx = .retry now key
      · obtain ⟨now, key, rfl⟩ := hretry
        obtain ⟨t, ht, rfl⟩ := Txn.quiet_ok.mp hchange
        refine .inl ?_
        rcases Tables.retry_ok ht with rfl | ⟨_, fromSequence, _, _, rfl⟩
        · exact hmem
        have hmem : s ∈ Tables.saveSteps (h.rows.tables.steps.map (Execution.resetStep now fromSequence))
            h.rows.tables.steps := hmem
        rw [Tables.retry_steps hs.shape] at hmem
        obtain ⟨x, hx, rfl⟩ := List.mem_map.mp hmem
        split at hstatus
        · rename_i hlt
          rw [if_pos hlt]
          exact hx
        · cases hstatus
      · have hne : ∀ now key, tx ≠ .retry now key := fun now key heq => hretry ⟨now, key, heq⟩
        have hkeeps := keeps_of_change hchange hs.shape hs.fenced.sound (hp.proper change hchange) hne
        rcases hkeeps.results s hmem hstatus with hold | ⟨lease, hreports⟩
        · exact .inl hold
        · refine .inr ⟨lease, tx, hreports, ?_⟩
          rcases hp.issued eventTime tx lease rfl hreports.guard with hrenewal | hissued
          · exact absurd (hreports.loud.symm.trans hrenewal) (by decide)
          · exact hissued

theorem submit_pending {now : Time} {command : SubmitExecutionCommand} {t : Tables}
    (h : submit settings now command = .ok t) : t.execution.status = .queued ∧
      (∀ s ∈ t.steps, s.status = .pending) ∧ ∀ o ∈ t.operations, o.status = .queued := by
  simp only [submit, Txn.bind_ok] at h
  obtain ⟨_, _, _, _, _, _, steps, hsteps, h⟩ := h
  split at h
  · cases h
  · cases h
    refine ⟨rfl, fun s hs => (Tables.snapshotSources_pending hsteps s hs).2, fun o ho => ?_⟩
    rw [List.mem_singleton.mp ho]
    rfl

/-- A submission has achieved nothing. -/
theorem Submission.achieved (submission : Submission settings) :
    submission.history.rows.tables.Achieved := by
  obtain ⟨hstatus, _, hoperations⟩ := submit_pending submission.accepted
  have hqueued : submission.history.rows.tables.execution.status = .queued := hstatus
  refine ⟨fun o ho hsucceeded => ?_, fun h => absurd (hqueued.symm.trans h) (by decide),
    fun h => absurd (hqueued.symm.trans h) (by decide)⟩
  exact absurd ((hoperations o ho).symm.trans hsucceeded) (by decide)

end

namespace Deployment

variable {settings : Settings}

/-- The Step was reported by a run that held the lease: a claim had issued it, it was active on
the rows, and the row of the Step names its Attempt and its token. -/
def Reported (submission : Submission settings) (actions : List Action) (s : ExecutionStep) :
    Prop :=
  ∃ before action after lease, actions = before ++ action :: after ∧
    s ∉ (run settings submission before).world.tables.steps ∧
    s ∈ (run settings submission (before ++ [action])).world.tables.steps ∧
    .execution lease ∈ (run settings submission before).world.history.issued ∧
    (∃ now a, (run settings submission before).world.tables.requireActiveLease now lease = .ok a) ∧
    s.resultExecutionAttemptId = some lease.attemptId ∧
    s.result.fencingToken = some lease.fencingToken

/-- What an Execution has achieved after some actions, and how. -/
structure Earned (submission : Submission settings) (actions : List Action) : Prop where
  achieved : (run settings submission actions).world.tables.Achieved
  reported : ∀ s ∈ (run settings submission actions).world.tables.steps,
    s.status = .succeeded → Reported submission actions s
  /-- An undelivered result is not retried: a request leaves the rows as they are. -/
  final : ∀ now key t, (run settings submission actions).world.tables.execution.failureType =
      some .completionFailed →
    (run settings submission actions).world.tables.retry now key = .ok t →
      t = (run settings submission actions).world.tables

theorem achieved_run (submission : Submission settings) (actions : List Action) :
    (run settings submission actions).world.tables.Achieved :=
  (sound_start submission).invariant (P := fun h => h.rows.tables.Achieved)
    (fun _ _ hs hp ha => hs.achieved hp ha) submission.achieved actions

theorem reported_run (submission : Submission settings) (actions : List Action)
    {s : ExecutionStep} (hmem : s ∈ (run settings submission actions).world.tables.steps)
    (hstatus : s.status = .succeeded) : Reported submission actions s := by
  rcases Transition.origin (P := fun d : Deployment => s ∈ d.world.tables.steps) hmem with
    hfirst | ⟨before, action, after, rfl, hnot, hthen⟩
  · have hpending := (submit_pending submission.accepted).2.1 s hfirst
    exact absurd (hpending.symm.trans hstatus) (by decide)
  have hlast : s ∈ (run settings submission (before ++ [action])).world.tables.steps := by
    rw [run, Transition.run_append]
    exact hthen
  have hthen : s ∈ ((run settings submission before).step settings
      action).world.history.rows.tables.steps := hthen
  rcases (sound_run submission before).step_history action with hsame | ⟨tx, honest, hstep⟩
  · rw [hsame] at hthen
    exact absurd hthen hnot
  · rw [hstep] at hthen
    rcases (sound_run submission before).history.reported honest hthen hstatus with
      hold | ⟨lease, _, reports, issued⟩
    · exact absurd hold hnot
    · exact ⟨before, action, after, lease, rfl, hnot, hlast, issued, reports.active, reports.attempt,
        reports.token⟩

/-- Success is earned: in every reachable state of a deployment each Step of an Operation that
has succeeded has a complete result, reported under an active lease; an Execution that has
succeeded has a succeeded Operation, a registered notebook and no session; and a result that
could not be completed is not retried. -/
theorem earned_run (submission : Submission settings) (actions : List Action) :
    Earned submission actions := by
  have hachieved := achieved_run submission actions
  refine ⟨hachieved, fun s hs => reported_run submission actions hs,
    fun now key t hfailure hretry => ?_⟩
  rcases Tables.retry_ok hretry with heq | ⟨_, _, retryable, _⟩
  · exact heq
  have hstrategy := hachieved.undelivered retryable.failed hfailure
  rcases retryable.strategy with ⟨hfailed, _⟩ | ⟨hstart, _⟩
  · exact absurd (hstrategy.symm.trans hfailed) (by decide)
  · exact absurd (hstrategy.symm.trans hstart) (by decide)

end Deployment

end ExecutorService
