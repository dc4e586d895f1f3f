/-
The repository round trip.

A command loads the aggregate of an Execution, its row and its Steps, changes it in
memory and saves it through the repository.  `save` lists the columns it writes; the
Target and the session are not among them, although a retry from the start clears
both, and it looks for the row at the version before, which a cancel of an Execution
that is already being cancelled has not left.

* `DomainCommand.apply` — the four commands on the aggregate;
* `Stored` — the saved rows are the aggregate, and nothing else changed;
* `repository_round_trip` — exactly when a command that succeeds is stored as it left
  the aggregate.
-/
import ExecutorService.Numbering
import ExecutorService.StartEvents

namespace ExecutorService

/-- The commands of the domain object. -/
inductive DomainCommand
  | requestCancel (key : Key) (reason : Option String)
  | requestRetry
  | requestOperation (expectedVersion : ℕ)
  | requestFinalization (expectedVersion : ℕ)
  deriving DecidableEq

/-- The aggregate after a command that succeeds. -/
def DomainCommand.apply (now : Time) (e : Execution) (steps : List ExecutionStep) :
    DomainCommand → Txn (Execution × List ExecutionStep)
  | .requestCancel key reason => do
    let e ← e.requestCancel now key reason
    return (e, steps)
  | .requestRetry => do
    let e ← e.requestRetry now
    return (e, steps.map (Execution.resetStep now (e.retryFromSequence.getD 0)))
  | .requestOperation expectedVersion => do
    let e ← e.requestOperation now expectedVersion
    return (e, steps)
  | .requestFinalization expectedVersion => do
    let e ← e.requestFinalization now expectedVersion steps
    return (e, steps)

/-- The aggregate was saved, what is loaded again is the aggregate, and no other column of
any row changed. -/
def Stored (t : Tables) (e : Execution) (steps : List ExecutionStep) : Prop :=
  t.save e steps = .ok { t with
    execution := { t.execution with toExecution := e }
    steps := steps }

/-- A command whose every change `save` writes. -/
def DomainCommand.Persisted (e : Execution) : DomainCommand → Prop
  | .requestCancel _ _ => e.status ≠ .cancelRequested
  | .requestRetry => e.retryStrategy = .fromStart →
      e.runtimeSessionId = none ∧ e.runtimeTargetId = none
  | _ => True

namespace Tables

variable {t : Tables}

theorem stored_iff {e : Execution} {steps : List ExecutionStep}
    (hversion : e.version = t.execution.version + 1)
    (hsteps : saveSteps steps t.steps = steps) :
    Stored t e steps ↔ saveExecution e t.execution = { t.execution with toExecution := e } := by
  rw [Stored, save, if_neg (by omega), hsteps]
  constructor
  · intro h
    exact congrArg Tables.execution (Except.ok.inj h)
  · intro h
    rw [h]

theorem saveSteps_unchanged (hnodup : (t.steps.map (·.id)).Nodup) :
    saveSteps t.steps t.steps = t.steps := by
  have h : saveSteps (t.steps ++ []) t.steps = t.steps :=
    saveSteps_self hnodup fun s hs => nomatch hs
  rwa [List.append_nil] at h

theorem saveSteps_reset (hnodup : (t.steps.map (·.id)).Nodup) (now : Time) (fromSequence : ℕ) :
    saveSteps (t.steps.map (Execution.resetStep now fromSequence)) t.steps =
      t.steps.map (Execution.resetStep now fromSequence) := by
  have hid : ∀ s, (Execution.resetStep now fromSequence s).id = s.id := by
    intro s
    unfold Execution.resetStep
    split <;> rfl
  rw [saveSteps_map hid hnodup]
  refine List.map_congr_left fun s _ => ?_
  unfold Execution.resetStep
  split <;> rfl

/-- A cancel is stored unless the Execution is being cancelled already. -/
theorem stored_cancel {now : Time} {key : Key} {reason : Option String} {e : Execution}
    (hnodup : (t.steps.map (·.id)).Nodup)
    (h : t.execution.toExecution.requestCancel now key reason = .ok e) :
    Stored t e t.steps ↔ t.execution.status ≠ .cancelRequested := by
  unfold Execution.requestCancel at h
  split at h
  · cases h
  split at h
  · rename_i hstatus
    cases h
    -- The version did not move, so `save` does not find the row.
    refine ⟨fun hstored => ?_, fun hne => absurd hstatus hne⟩
    rw [Stored, save, if_pos (by simp)] at hstored
    cases hstored
  · rename_i hstatus
    simp only [Txn.bind_ok, Txn.pure_ok] at h
    obtain ⟨_, _, rfl⟩ := h
    rw [stored_iff rfl (saveSteps_unchanged hnodup)]
    exact ⟨fun _ => hstatus, fun _ => rfl⟩

theorem stored_retry {now : Time} {e : Execution} (hnodup : (t.steps.map (·.id)).Nodup)
    (h : t.execution.toExecution.requestRetry now = .ok e) :
    Stored t e (t.steps.map (Execution.resetStep now (e.retryFromSequence.getD 0))) ↔
      (t.execution.retryStrategy = .fromStart →
        t.execution.runtimeSessionId = none ∧ t.execution.runtimeTargetId = none) := by
  unfold Execution.requestRetry at h
  split at h
  · cases h
  split at h
  · cases h
  split at h
  · cases h
  simp only [Txn.bind_ok] at h
  obtain ⟨base, hbase, h⟩ := h
  split at h
  · cases h
  simp only [Txn.bind_ok, Txn.pure_ok] at h
  obtain ⟨_, _, rfl⟩ := h
  unfold Execution.retryBase at hbase
  split at hbase
  · cases hbase
  · rename_i hstrategy
    split at hbase
    · cases hbase
      rw [stored_iff rfl (saveSteps_reset hnodup now _)]
      refine ⟨fun _ hstart => absurd (hstrategy.symm.trans hstart) (by decide), fun _ => rfl⟩
    · cases hbase
  · rename_i hstrategy
    split at hbase
    · cases hbase
    · cases hbase
      rw [stored_iff rfl (saveSteps_reset hnodup now _)]
      -- `save` keeps the session and the Target that the command cleared.
      refine ⟨fun hsaved _ => ⟨?_, ?_⟩, fun hnone => ?_⟩
      · exact congrArg (·.runtimeSessionId) hsaved
      · exact congrArg (·.runtimeTargetId) hsaved
      · obtain ⟨hsession, htarget⟩ := hnone hstrategy
        simp only [saveExecution, Execution.requeued, Execution.forgetSession, hsession, htarget]

theorem stored_operation {now : Time} {expectedVersion : ℕ} {e : Execution}
    (hnodup : (t.steps.map (·.id)).Nodup)
    (h : t.execution.toExecution.requestOperation now expectedVersion = .ok e) :
    Stored t e t.steps := by
  unfold Execution.requestOperation at h
  split at h
  · cases h
  split at h
  · cases h
  split at h
  · cases h
  simp only [Txn.bind_ok, Txn.pure_ok] at h
  obtain ⟨_, _, rfl⟩ := h
  rw [stored_iff rfl (saveSteps_unchanged hnodup)]
  rfl

theorem stored_finalization {now : Time} {expectedVersion : ℕ} {e : Execution}
    (hnodup : (t.steps.map (·.id)).Nodup)
    (h : t.execution.toExecution.requestFinalization now expectedVersion t.steps = .ok e) :
    Stored t e t.steps := by
  unfold Execution.requestFinalization at h
  split at h
  · cases h
  split at h
  · cases h
  split at h
  · cases h
  split at h
  · cases h
  simp only [Txn.bind_ok, Txn.pure_ok] at h
  obtain ⟨_, _, rfl⟩ := h
  rw [stored_iff rfl (saveSteps_unchanged hnodup)]
  rfl

end Tables

variable {settings : Settings}

/-- A command that succeeds on a stored aggregate is stored as it left it, unless it is a
retry from the start of a row with a session or a Target, or a repeated cancel. -/
theorem repository_round_trip (s : Submission settings) (txs : List Transaction) (now : Time)
    (command : DomainCommand) {e : Execution} {steps : List ExecutionStep}
    (h : command.apply now (s.run txs).rows.tables.execution.toExecution
      (s.run txs).rows.tables.steps = .ok (e, steps)) :
    Stored (s.run txs).rows.tables e steps ↔
      command.Persisted (s.run txs).rows.tables.execution.toExecution := by
  have hnodup : ((s.run txs).rows.tables.steps.map (·.id)).Nodup := by
    have hstepIds := (s.numbers_run txs).stepIds
    rw [Tables.numbers, List.map_map] at hstepIds
    exact hstepIds
  cases command with
  | requestCancel key reason =>
    simp only [DomainCommand.apply, Txn.bind_ok, Txn.pure_ok, Prod.mk.injEq] at h
    obtain ⟨_, he, rfl, rfl⟩ := h
    exact Tables.stored_cancel hnodup he
  | requestRetry =>
    simp only [DomainCommand.apply, Txn.bind_ok, Txn.pure_ok, Prod.mk.injEq] at h
    obtain ⟨_, he, rfl, rfl⟩ := h
    exact Tables.stored_retry hnodup he
  | requestOperation expectedVersion =>
    simp only [DomainCommand.apply, Txn.bind_ok, Txn.pure_ok, Prod.mk.injEq] at h
    obtain ⟨_, he, rfl, rfl⟩ := h
    exact ⟨fun _ => trivial, fun _ => Tables.stored_operation hnodup he⟩
  | requestFinalization expectedVersion =>
    simp only [DomainCommand.apply, Txn.bind_ok, Txn.pure_ok, Prod.mk.injEq] at h
    obtain ⟨_, he, rfl, rfl⟩ := h
    exact ⟨fun _ => trivial, fun _ => Tables.stored_finalization hnodup he⟩

/-! ### A retained and a lost session -/

/-- A first run whose Step fails and whose session is kept for a retry. -/
def Small.retainedRun : List Transaction :=
  Small.failedRun ++ [.table 6 (.finalize (Small.clock 6) (Small.lease 20 1)
    { status := .failed
      errorMessage := some "boom"
      failureType := some .toolError
      retryStrategy := .fromFailedStep
      retryFromSequence := some 0
      retainSession := true })]

/-- The retry resumes on the session, which `save` keeps as the command does. -/
theorem repository_round_trip_retainedRun :
    let t := ((Small.submission .single).run Small.retainedRun).rows.tables
    t.execution.runtimeSessionId = some 30 ∧ ∃ e steps,
      DomainCommand.requestRetry.apply 7 t.execution.toExecution t.steps = .ok (e, steps) ∧
        Stored t e steps := by
  intro t
  obtain ⟨⟨e, steps⟩, happly⟩ : ∃ x,
      DomainCommand.requestRetry.apply 7 t.execution.toExecution t.steps = .ok x :=
    ⟨_, rfl⟩
  refine ⟨by decide +kernel, e, steps, happly, ?_⟩
  rw [repository_round_trip (Small.submission .single) Small.retainedRun 7 .requestRetry happly]
  intro hstart
  revert hstart
  decide +kernel

/-- The retry of a run that lost its Runtime clears the Target; its row keeps it. -/
theorem retry_keeps_target :
    ¬ ∀ (settings : Settings) (s : Submission settings) (txs : List Transaction) (now : Time)
      (command : DomainCommand) (e : Execution) (steps : List ExecutionStep),
      command.apply now (s.run txs).rows.tables.execution.toExecution
        (s.run txs).rows.tables.steps = .ok (e, steps) →
      Stored (s.run txs).rows.tables e steps := by
  intro h
  have hstored := h Small.settings (Small.submission .single) Small.lostRun 5 .requestRetry _ _ rfl
  -- The aggregate has no Target, the saved row has.
  have htarget := congrArg (fun saved => saved.toOption.map (·.execution.runtimeTargetId)) hstored
  revert htarget
  decide +kernel

end ExecutorService
