/-
What a transaction keeps of the rows it finds.

A run reports a Step once and never looks at it again, so its result has to outlive whatever
comes later: recoveries, cancellations, other Operations.  Four transactions change what an
Execution has achieved: a Step or an Operation succeeds, the run ends, a retry puts Steps back.
The others only move what is open.

* `Tables.Continues`, `continues_of_change` — what every other transaction keeps;
* `Tables.Keeps`, `keeps_of_change` — what they all keep.
-/
import ExecutorService.Knowledge
import ExecutorService.ShapeHistories

namespace ExecutorService

/-- Steps that have ended stay as they are, and none has newly succeeded. -/
structure KeepsEnded (steps steps' : List ExecutionStep) : Prop where
  old : ∀ s ∈ steps, s.status.isOpen = false → s ∈ steps'
  new : ∀ s ∈ steps', s.status = .succeeded → s ∈ steps

namespace KeepsEnded

theorem refl (steps : List ExecutionStep) : KeepsEnded steps steps :=
  ⟨fun _ hs _ => hs, fun _ hs _ => hs⟩

theorem trans {l l' l'' : List ExecutionStep} (h : KeepsEnded l l') (h' : KeepsEnded l' l'') :
    KeepsEnded l l'' :=
  ⟨fun s hs hended => h'.old s (h.old s hs hended) hended,
    fun s hs hstatus => h.new s (h'.new s hs hstatus) hstatus⟩

/-- Open Steps get another status, or keep theirs. -/
theorem updateWhere {p : ExecutionStep → Bool} {f : ExecutionStep → ExecutionStep}
    {steps : List ExecutionStep} (hp : ∀ s ∈ steps, p s = true → s.status.isOpen = true)
    (hf : ∀ s ∈ steps, p s = true → (f s).status ≠ .succeeded) :
    KeepsEnded steps (steps.updateWhere p f) := by
  refine ⟨fun s hs hended => List.mem_updateWhere.mpr (.inr ⟨hs, ?_⟩), fun s hs hstatus => ?_⟩
  · by_contra hmatch
    rw [Bool.not_eq_false] at hmatch
    exact absurd ((hp s hs hmatch).symm.trans hended) (by decide)
  · rcases List.mem_updateWhere.mp hs with ⟨x, hx, hmatch, rfl⟩ | ⟨hs, _⟩
    · exact absurd hstatus (hf x hx hmatch)
    · exact hs

/-- The Steps with an open status get another one. -/
theorem move {f : ExecutionStep → ExecutionStep} {status : StepStatus}
    (hopen : status.isOpen = true) (hf : ∀ s, (f s).status ≠ .succeeded)
    (steps : List ExecutionStep) : KeepsEnded steps (steps.updateWhere (·.status == status) f) :=
  updateWhere (fun s _ hmatch => by rw [beq_iff_eq.mp hmatch, hopen]) fun s _ _ => hf s

theorem append {steps added : List ExecutionStep} (h : ∀ s ∈ added, s.status = .pending) :
    KeepsEnded steps (steps ++ added) := by
  refine ⟨fun s hs _ => List.mem_append_left _ hs, fun s hs hstatus => ?_⟩
  rcases List.mem_append.mp hs with hs | hs
  · exact hs
  · exact absurd ((h s hs).symm.trans hstatus) (by decide)

end KeepsEnded

/-- Milestones: transactions that change what an Execution has achieved. -/
def TableTransaction.isMilestone : TableTransaction → Bool
  | .retry .. | .markSucceeded .. | .completeOperation .. | .finalize .. => true
  | _ => false

namespace Tables

/-- The columns that say how an Execution ended. -/
structure SameEnd (t t' : Tables) : Prop where
  status : t'.execution.status = t.execution.status
  failureType : t'.execution.failureType = t.execution.failureType
  strategy : t'.execution.retryStrategy = t.execution.retryStrategy ∨
    t'.execution.retryStrategy = .notRetryable
  projection : t'.execution.notebookProjectionStatus = t.execution.notebookProjectionStatus
  notebook : t'.execution.notebookPath = t.execution.notebookPath
  active : t'.execution.activeOperationId = t.execution.activeOperationId
  session : t.execution.runtimeSessionId = none → t'.execution.runtimeSessionId = none
  artifacts : t'.artifacts = t.artifacts
  operations : t.execution.status.isTerminal = true → t'.operations = t.operations

/-- An end that is no success; the end of an undelivered result is final. -/
structure Unfinished (t : Tables) : Prop where
  status : t.execution.status ≠ .succeeded
  undelivered : t.execution.failureType = some .completionFailed →
    t.execution.retryStrategy = .notRetryable

/-- What a transaction that is no milestone does to the rows. -/
structure Continues (t t' : Tables) : Prop where
  steps : KeepsEnded t.steps t'.steps
  operations : ∀ o ∈ t'.operations, o.status = .succeeded →
    ∃ o₀ ∈ t.operations, o₀.id = o.id ∧ o₀.status = .succeeded
  ended : t'.execution.status.isTerminal = true → t.SameEnd t' ∨ t'.Unfinished

variable {t t' : Tables}

theorem Continues.refl (t : Tables) : t.Continues t :=
  ⟨.refl _, fun o ho hstatus => ⟨o, ho, rfl, hstatus⟩,
    fun _ => .inl ⟨rfl, rfl, .inl rfl, rfl, rfl, rfl, id, rfl, fun _ => rfl⟩⟩

/-- Operations get other statuses than SUCCEEDED. -/
theorem operations_kept {p : OperationRow → Bool} {f : OperationRow → OperationRow}
    (hf : ∀ o, (f o).status ≠ .succeeded) {operations : List OperationRow} :
    ∀ o ∈ operations.updateWhere p f, o.status = .succeeded →
      ∃ o₀ ∈ operations, o₀.id = o.id ∧ o₀.status = .succeeded := by
  intro o ho hstatus
  rcases List.mem_updateWhere.mp ho with ⟨x, _, _, rfl⟩ | ⟨ho, _⟩
  · exact absurd hstatus (hf x)
  · exact ⟨o, ho, rfl, hstatus⟩

theorem operations_same (h : t'.operations = t.operations) :
    ∀ o ∈ t'.operations, o.status = .succeeded →
      ∃ o₀ ∈ t.operations, o₀.id = o.id ∧ o₀.status = .succeeded := by
  rw [h]
  exact fun o ho hstatus => ⟨o, ho, rfl, hstatus⟩

/-- A transaction that leaves the Execution open. -/
theorem Continues.of_open (hsteps : KeepsEnded t.steps t'.steps)
    (hoperations : ∀ o ∈ t'.operations, o.status = .succeeded →
      ∃ o₀ ∈ t.operations, o₀.id = o.id ∧ o₀.status = .succeeded)
    (hopen : t'.execution.status.isTerminal = false) : t.Continues t' :=
  ⟨hsteps, hoperations, fun h => absurd (hopen.symm.trans h) (by decide)⟩

/-- A transaction under a lease leaves the Execution open. -/
theorem Continues.of_held {now : Time} {lease : ExecutionLease} {allowed : List ExecutionStatus}
    (active : ∃ a, t.requireActiveLease now lease allowed = .ok a) (hl : t.leaseColumns.Sound)
    (hsteps : KeepsEnded t.steps t'.steps) (hoperations : t'.operations = t.operations)
    (hstatus : t'.execution.status = t.execution.status) : t.Continues t' := by
  refine .of_open hsteps (operations_same hoperations) ?_
  have hrunnable : t.execution.status.isRunnable = true :=
    (hl.owner (leaseOwner_ne_none active)).1
  rw [hstatus]
  cases hs : t.execution.status <;> rw [hs] at hrunnable <;> first | rfl | cases hrunnable

theorem Continues.unfinished (hsteps : KeepsEnded t.steps t'.steps)
    (hoperations : ∀ o ∈ t'.operations, o.status = .succeeded →
      ∃ o₀ ∈ t.operations, o₀.id = o.id ∧ o₀.status = .succeeded)
    (h : t'.Unfinished) : t.Continues t' :=
  ⟨hsteps, hoperations, fun _ => .inr h⟩

theorem keepsEnded_skipPending (now : Time) (t : Tables) :
    KeepsEnded t.steps (t.skipPendingSteps now).steps := by
  refine .move rfl (fun _ => ?_) _
  simp

/-- An end of an Execution that no Attempt runs for. -/
theorem continues_failUnclaimed {now : Time} {row : ExecutionRow} {message : String}
    {failureType : Option FailureType} (hfailed : row.status = .failed)
    (hdelivered : row.failureType = some .completionFailed → row.retryStrategy = .notRetryable) :
    t.Continues (t.failUnclaimed now row message failureType).1 := by
  refine .unfinished (keepsEnded_skipPending now { t with execution := row })
    (operations_kept fun o => ?_) ⟨?_, hdelivered⟩
  · simp [failUnattempted]
  · show row.status ≠ .succeeded
    rw [hfailed]
    decide

theorem Continues.markAttemptPending (h : t.Continues t') : t.Continues t'.markAttemptPending := by
  unfold Tables.markAttemptPending
  split
  · exact h
  · refine ⟨h.steps, h.operations, fun hterminal => (h.ended hterminal).imp ?_ ?_⟩
    · exact fun h => ⟨h.status, h.failureType, h.strategy, h.projection, h.notebook, h.active,
        h.session, h.artifacts, h.operations⟩
    · exact fun h => ⟨h.status, h.undelivered⟩

/-- The end of a run whose lease was lost. -/
theorem continues_fenceFailed (now : Time) (t : Tables) (attempt : Option AttemptRow) :
    t.Continues (((t.abandoned now).skipPendingSteps now).failExpiredOperation now attempt).1 := by
  obtain ⟨e, same, hfailed, _, _, _, _, _, hstrategy⟩ := abandoned_row now t
  have hrow : (t.abandoned now).execution.status = .failed := by rw [same, hfailed]
  have hfailure : (t.abandoned now).execution.failureType =
      some (recoveryFailureType t.execution) := by
    show (invalidateNotebook _ _).failureType = _
    rw [invalidateNotebook_same]
  refine .unfinished (.trans ?_ (keepsEnded_skipPending now (t.abandoned now)))
    (operations_kept fun _ => by simp) ⟨?_, fun hcompletion => ?_⟩
  · refine .move rfl (fun _ => ?_) _
    simp
  · show (t.abandoned now).execution.status ≠ .succeeded
    rw [hrow]
    decide
  · have hcause : (t.abandoned now).execution.failureType = some .completionFailed := hcompletion
    rw [hfailure, recoveryFailureType] at hcause
    split at hcause <;> cases hcause

/-- The Step whose evidence is recorded is running. -/
theorem recordInterruptedResult_running {clock : Clock} {lease : ExecutionLease} {sequence : ℕ}
    {stored : Option StepResultDescriptor} {c : Change}
    (h : t.recordInterruptedResult clock lease sequence stored = .ok c) :
    (∃ a, t.requireActiveLease clock.lease lease [.running, .cancelRequested] = .ok a) ∧
      ∃ step ∈ t.steps, step.status = .running ∧
        c = { tables := { t.withEvidence clock.now lease.attemptId step stored with
          execution := invalidateNotebook "Step interruption" t.execution } } := by
  simp only [recordInterruptedResult, Txn.bind_ok] at h
  obtain ⟨a, ha, h⟩ := h
  split at h
  · cases h
  split at h
  · cases h
  rename_i step hstep
  split at h
  · cases h
  have hfound := List.find?_some hstep
  simp only [Bool.and_eq_true, beq_iff_eq] at hfound
  refine ⟨⟨a, ha⟩, step, List.mem_of_find?_eq_some hstep, hfound.2, ?_⟩
  rw [← Txn.pure_ok.mp h]
  cases stored <;> rfl

/-- The Step at a sequence. -/
theorem step_of_sequence (hs : t.shape.Sound) {s s' : ExecutionStep} (hmem : s ∈ t.steps)
    (hmem' : s' ∈ t.steps) (hsequence : s.sequence = s'.sequence) : s = s' := by
  have hnodup : (t.steps.map (·.sequence)).Nodup := by
    have hsequences := hs.keyed.sequences
    rwa [shape, List.map_map] at hsequences
  exact List.inj_on_of_nodup_map hnodup hmem hmem' hsequence

/-- The Step of a running Step attempt. -/
theorem running_of_stepAttempt (hs : t.shape.Sound) {x : StepAttemptShape}
    (hx : x ∈ t.shape.stepAttempts) (hrunning : x.status = .running) {s : ExecutionStep}
    (hmem : s ∈ t.steps) (hsequence : s.sequence = x.sequence) : s.status = .running := by
  obtain ⟨_, y, hy, _, hysequence, hyrunning⟩ := hs.statuses.runningStepAttempt x hx hrunning
  obtain ⟨s', hmem', rfl⟩ := List.mem_map.mp hy
  rw [step_of_sequence hs hmem hmem' (hsequence.trans hysequence.symm)]
  exact hyrunning

/-- A run ends a Step that is running. -/
theorem keepsEnded_endStep (hs : t.shape.Sound) {now : Time} {attemptId : UUID} {sequence : ℕ}
    {status : StepStatus} {stored : StepResultDescriptor} {message : Option String}
    (hproper : ∃ h ∈ t.shape.stepAttempts, h.attemptId = attemptId ∧ h.sequence = sequence ∧
      h.status = .running) (hstatus : status ≠ .succeeded) :
    KeepsEnded t.steps (t.endStep now attemptId sequence status stored message).steps := by
  obtain ⟨x, hx, _, hsequence, hrunning⟩ := hproper
  refine .updateWhere (fun s hmem hmatch => ?_) fun _ _ _ => hstatus
  rw [running_of_stepAttempt hs hx hrunning hmem ((beq_iff_eq.mp hmatch).trans hsequence.symm)]
  rfl

end Tables

open Tables in
/-- A transaction that is no milestone moves only what is open. -/
theorem continues_of_change {trail : List EventSubject} {settings : Settings} {r : Rows}
    {tx : TableTransaction} {c : Change} (h : tx.change settings r = .ok c)
    (hquiet : tx.isMilestone = false) (hs : r.tables.shape.Sound)
    (hl : r.tables.leaseColumns.Sound) (hp : tx.Proper trail r.tables) :
    r.tables.Continues c.tables := by
  have hsaved := saveSteps_self_shape hs
  have hsteps := KeepsEnded.refl r.tables.steps
  have failed : ∀ {t : Tables}, t.execution.status = .failed →
      (t.execution.failureType = some .completionFailed →
        t.execution.retryStrategy = .notRetryable) → t.Unfinished :=
    fun hstatus hdelivered => ⟨by rw [hstatus]; decide, hdelivered⟩
  cases tx with
  -- These are the milestones.
  | retry | markSucceeded | completeOperation | finalize => cases hquiet
  | cancel now key reason =>
    obtain ⟨t, ht, rfl⟩ := Txn.quiet_ok.mp h
    rcases cancel_ok ht with rfl | ⟨_, _, rfl⟩
    · exact .refl _
    · -- A cancellation is asked for while the Execution is open.
      rw [hsaved]
      exact .of_open hsteps (operations_same rfl) rfl
  | createOperation now command =>
    obtain ⟨t, ht, rfl⟩ := Txn.quiet_ok.mp h
    rcases createOperation_ok ht with rfl | ⟨_, _, operation, steps, _, hqueued, hadded, _, fresh, rfl⟩
    · exact .refl _
    · -- The new rows are pending, and the old ones stay.
      rw [(createOperation_steps hs fresh).1]
      refine .of_open (.append fun s hs => (snapshotSources_pending hadded s hs).2)
        (fun o ho hstatus => ?_) rfl
      rcases List.mem_append.mp ho with ho | ho
      · exact ⟨o, ho, rfl, hstatus⟩
      · rw [List.mem_singleton.mp ho, hqueued] at hstatus
        cases hstatus
  | finalizeCommand now key fingerprint expectedVersion =>
    obtain ⟨t, ht, rfl⟩ := Txn.quiet_ok.mp h
    rcases finalizeCommand_ok ht with rfl | ⟨_, _, rfl⟩
    · exact .refl _
    · rw [hsaved]
      exact .of_open hsteps (operations_same rfl) rfl
  | claim now worker attemptId view =>
    -- A claim starts an Operation; one that has succeeded is not started again.
    have started : ∀ {operation : Option OperationRow} {attemptId : UUID} {t : Tables},
        ∀ o ∈ (t.startOperation now operation attemptId).operations, o.status = .succeeded →
          ∃ o₀ ∈ t.operations, o₀.id = o.id ∧ o₀.status = .succeeded := by
      intro operation attemptId t
      exact operations_kept fun _ => by simp
    cases claim_ok h with
    | idle => exact .refl _
    | waiting => exact .of_open hsteps started rfl
    | resumed => exact .of_open hsteps started rfl
    | started => exact .of_open hsteps started rfl
    | unavailable => exact continues_failUnclaimed rfl fun h => by cases h
  | claimHandover now worker view =>
    cases h
    rcases claimHandover_cases settings now worker view r.tables with
      hc | ⟨hstatus, _, hc | ⟨attempt, _, hc⟩⟩ <;> rw [hc]
    · exact .refl _
    · -- It hands over an Execution that is running.
      exact .of_open hsteps (operations_same rfl) (by rw [hstatus]; rfl)
    · refine .of_open hsteps (operations_same rfl) ?_
      show r.tables.execution.status.isTerminal = false
      rw [hstatus]
      rfl
  | claimCancellation now worker =>
    cases h
    rcases claimCancellation_cases settings now worker r.tables with
      hc | ⟨hstatus, ⟨_, hc⟩ | hc⟩ <;> rw [hc]
    · exact .refl _
    all_goals
      refine .of_open hsteps (operations_same rfl) ?_
      show r.tables.execution.status.isTerminal = false
      rw [hstatus]
      rfl
  | renewExecution now lease =>
    obtain ⟨t, ht, rfl⟩ := Txn.quiet_ok.mp h
    obtain ⟨_, rfl⟩ := renewExecution_ok ht
    -- Only the lease columns change.
    exact ⟨hsteps, operations_same rfl,
      fun _ => .inl ⟨rfl, rfl, .inl rfl, rfl, rfl, rfl, id, rfl, fun _ => rfl⟩⟩
  | renewCancellation now lease =>
    obtain ⟨t, ht, rfl⟩ := Txn.quiet_ok.mp h
    obtain ⟨_, rfl⟩ := renewCancellation_ok ht
    exact ⟨hsteps, operations_same rfl,
      fun _ => .inl ⟨rfl, rfl, .inl rfl, rfl, rfl, rfl, id, rfl, fun _ => rfl⟩⟩
  | assertExecution clock lease allowed =>
    obtain ⟨_, rfl⟩ := assertExecution_ok h
    exact .refl _
  | ensureCount clock lease cellCount =>
    obtain ⟨_, rfl⟩ := ensureCount_ok h
    exact .refl _
  | recordRuntimeSession clock lease sessionId workspace notebook =>
    obtain ⟨active, rfl⟩ := recordRuntimeSession_ok h
    -- Whoever holds the lease finds the Execution open.
    exact .of_held active hl hsteps rfl rfl
  | markStarted clock lease sequence historyId requestId baseline =>
    obtain ⟨active, _, _, step, hstep, tables, _, _⟩ := markStarted_ok h
    obtain ⟨hat, s, hmem, hsequence, hactive⟩ := hp
    have hfound : step ∈ r.tables.steps ∧ step.sequence = sequence :=
      ⟨List.mem_of_find?_eq_some hstep, by simpa using List.find?_some hstep⟩
    have hsame : s = step.shape := hs.keyed.step_of_sequence hmem
      (List.mem_map_of_mem hfound.1) (hsequence.trans hfound.2.symm)
    subst hsame
    rw [← hsequence] at hat
    -- Only a pending Step is started.
    have hpending : step.status = .pending := hat.pending hmem hactive
    rw [tables]
    refine .of_held active hl (.updateWhere (fun x hx hmatch => ?_) fun x _ _ => ?_) rfl rfl
    · rw [step_of_sequence hs hx hfound.1 (beq_iff_eq.mp hmatch), hpending]
      rfl
    · show StepStatus.running ≠ .succeeded
      decide
  | markSubmitted clock lease requestId =>
    obtain ⟨_, rfl⟩ := markSubmitted_ok h
    exact ⟨hsteps, operations_same rfl,
      fun _ => .inl ⟨rfl, rfl, .inl rfl, rfl, rfl, rfl, id, rfl, fun _ => rfl⟩⟩
  | recordHandoverCompleted clock lease sequence handover finished =>
    obtain ⟨active, step, hstep, tables, _, _⟩ := recordHandoverCompleted_ok h
    rw [tables]
    exact .refl _
  | markFailed clock lease sequence stored message retryable =>
    obtain ⟨active, step, hstep, tables, _, _⟩ := markFailed_ok h
    rw [tables]
    -- The run holds a running attempt of the Step.
    exact .of_held active hl (keepsEnded_endStep hs hp.2 (by decide)) rfl rfl
  | recordInterruptedResult clock lease sequence stored =>
    obtain ⟨active, step, hmem, hrunning, rfl⟩ := recordInterruptedResult_running h
    have hrow := invalidateNotebook_same "Step interruption" r.tables.execution
    have hstatus : (invalidateNotebook "Step interruption" r.tables.execution).status =
        r.tables.execution.status := by rw [hrow]
    -- No other Step has its sequence number.
    have hopen : ∀ s ∈ r.tables.steps, (s.sequence == step.sequence) = true →
        s.status = .running := by
      intro s hs' hmatch
      rw [step_of_sequence hs hs' hmem (beq_iff_eq.mp hmatch)]
      exact hrunning
    cases stored with
    | none => exact .of_held active hl hsteps rfl hstatus
    | some stored =>
      refine .of_held active hl (.updateWhere (fun s hs' hmatch => ?_) fun s hs' hmatch => ?_) rfl
        hstatus
      · rw [hopen s hs' hmatch]
        rfl
      · show s.status ≠ .succeeded
        rw [hopen s hs' hmatch]
        decide
  | skipStepsAfter clock lease operationId sequence =>
    obtain ⟨active, rfl⟩ := skipStepsAfter_ok h
    refine .of_held active hl (.updateWhere (fun s _ hmatch => ?_) fun _ _ _ => ?_) rfl rfl
    · -- Only pending Steps are skipped.
      simp only [Bool.and_eq_true, beq_iff_eq] at hmatch
      rw [hmatch.2]
      rfl
    · simp
  | beginProjection clock lease =>
    obtain ⟨active, e, same, rfl⟩ := beginProjection_ok h
    exact .of_held active hl hsteps rfl (by rw [same])
  | recordProjection clock lease status count message =>
    obtain ⟨active, e, same, rfl⟩ := recordProjection_ok h
    exact .of_held active hl hsteps rfl (by rw [same])
  | persistNotebook clock lease notebook =>
    obtain ⟨active, artifacts, rfl⟩ := persistNotebook_ok h
    exact .of_held active hl hsteps rfl rfl
  | persistArtifacts clock lease sequence allow artifacts =>
    obtain ⟨active, artifacts, rfl⟩ := persistArtifacts_ok h
    exact .of_held active hl hsteps rfl rfl
  | recordRuntimeAbort clock lease abort cleanup failureType =>
    obtain ⟨active, rfl⟩ := recordRuntimeAbort_ok h
    exact .of_held active hl hsteps rfl rfl
  | deferRetainedRetry clock lease =>
    obtain ⟨t, ht, rfl⟩ := Txn.quiet_ok.mp h
    obtain ⟨a, ha, rfl | ⟨_, rfl⟩⟩ := deferRetainedRetry_ok ht
    · exact .refl _
    · exact .of_open hsteps (operations_kept fun _ => by simp) rfl
  | releaseForCancellation clock lease =>
    obtain ⟨active, rfl⟩ := releaseForCancellation_ok h
    exact .of_held active hl hsteps rfl rfl
  | releaseForHandover clock lease =>
    obtain ⟨active, rfl | ⟨_, _, _, _, tables, _⟩⟩ := releaseForHandover_ok h
    · exact .refl _
    · rw [tables]
      exact .of_held active hl hsteps rfl rfl
  | finalizeCancellation clock lease cleanup =>
    obtain ⟨_, _, _, _, tables, _⟩ := finalizeCancellation_ok h
    rw [tables]
    -- It ends every open row, none of them with success.
    refine .unfinished ?_ (operations_kept fun _ => ?_) ⟨?_, fun _ => rfl⟩
    · have hend : endedStep r.tables.execution ≠ .succeeded := by
        rw [endedStep]
        split <;> decide
      refine KeepsEnded.trans (.move rfl (fun _ => hend) _) (.move rfl (fun _ => ?_) _)
      simp
    · rw [cancelOperation]
      split <;> simp
    · show (if timedOut r.tables.execution then ExecutionStatus.failed else .cancelled) ≠ .succeeded
      split <;> decide
  | fenceExpiredLease now view =>
    cases fenceExpiredLease_ok h with
    | idle => exact .refl _
    | handedOver _ _ _ tables =>
      rw [tables]
      exact ⟨hsteps, operations_same rfl,
        fun _ => .inl ⟨rfl, rfl, .inl rfl, rfl, rfl, rfl, id, rfl, fun _ => rfl⟩⟩
    | failed => exact continues_fenceFailed now r.tables _
  | failQueueTimeout now =>
    rcases failQueueTimeout_ok h with rfl | ⟨_, _, rfl⟩
    · exact .refl _
    · exact continues_failUnclaimed rfl fun _ => rfl
  | requestExpiredCancellation now =>
    rcases requestExpiredCancellation_ok h with rfl | ⟨_, rfl⟩
    · exact .refl _
    · exact .of_open hsteps (operations_same rfl) rfl
  | endWaitingExecution now observation finalizedBy =>
    rcases endWaitingExecution_ok h with rfl | ⟨_, rfl | ⟨failureType, message, rfl⟩⟩
    · exact .refl _
    · exact .of_open hsteps (operations_same rfl) rfl
    · exact .unfinished hsteps (operations_same rfl) (failed rfl fun _ => rfl)
  | failWaitingExecution now observation failureType message =>
    rcases failWaitingExecution_ok h with rfl | ⟨_, rfl⟩
    · exact .refl _
    · exact .unfinished hsteps (operations_same rfl) (failed rfl fun _ => rfl)
  | cleanupExpired now =>
    rcases cleanupExpired_ok h with rfl | ⟨_, ⟨_, rfl⟩ | ⟨_, row, closed, events, rfl, hclosed, rfl⟩⟩
    · exact .refl _
    · refine Continues.markAttemptPending ?_
      -- The session is forgotten, and nothing else.
      exact ⟨hsteps, operations_same rfl,
        fun _ => .inl ⟨rfl, rfl, .inr rfl, rfl, rfl, rfl, id, rfl, fun _ => rfl⟩⟩
    · refine Continues.markAttemptPending ?_
      have hsame := congrArg Prod.fst hclosed
      dsimp only at hsame
      rw [hsame]
      exact continues_failUnclaimed rfl fun _ => rfl
  | retryUnresolved now =>
    cases h
    show r.tables.Continues (r.tables.retryUnresolved settings now)
    unfold retryUnresolved
    dsimp only
    split
    · refine Continues.markAttemptPending ?_
      exact ⟨hsteps, operations_same rfl,
        fun _ => .inl ⟨rfl, rfl, .inl rfl, rfl, rfl, rfl, id, rfl, fun _ => rfl⟩⟩
    · exact .refl _
  | recordResult now observation cleanup =>
    cases h
    rcases recordResult_cases observation cleanup now r.tables with hr | ⟨_, _, hr⟩ <;> rw [hr]
    · exact .refl _
    · refine ⟨hsteps, operations_same rfl,
        fun _ => .inl ⟨rfl, rfl, .inl rfl, rfl, rfl, rfl, fun hnone => ?_, rfl, fun _ => rfl⟩⟩
      -- The session that was removed is forgotten.
      show (if cleanup = .succeeded then none else r.tables.execution.runtimeSessionId) = none
      split
      · rfl
      · exact hnone

/-! ### Milestones -/

namespace Tables

/-- A success: the active Operation has succeeded, its notebook is registered, and the session
is gone. -/
structure Finished (t : Tables) : Prop where
  status : t.execution.status = .succeeded
  operation : ∃ o ∈ t.operations, some o.id = t.execution.activeOperationId ∧ o.status = .succeeded
  projection : t.execution.notebookProjectionStatus = .succeeded
  artifact : ∃ a ∈ t.artifacts, a.artifactType = .notebook ∧ a.status = .available ∧
    some a.relativePath = t.execution.notebookPath
  session : t.execution.runtimeSessionId = none

/-- The result of a Step that a transaction reports, under a lease that is active. -/
structure Reports (t : Tables) (s : ExecutionStep) (tx : TableTransaction)
    (lease : ExecutionLease) : Prop where
  guard : tx.guard = some (.execution lease)
  loud : tx.isRenewal = false
  active : ∃ now a, t.requireActiveLease now lease = .ok a
  attempt : s.resultExecutionAttemptId = some lease.attemptId
  token : s.result.fencingToken = some lease.fencingToken

/-- What every transaction but a retry keeps. -/
structure Keeps (tx : TableTransaction) (t t' : Tables) : Prop where
  old : ∀ s ∈ t.steps, s.status.isOpen = false → s ∈ t'.steps
  results : ∀ s ∈ t'.steps, s.status = .succeeded → s ∈ t.steps ∨ ∃ lease, t.Reports s tx lease
  operations : ∀ o ∈ t'.operations, o.status = .succeeded → ∃ o₀ ∈ t.operations, o₀.id = o.id ∧
    (o₀.status = .succeeded ∨ ∀ s ∈ t.steps, s.operationId = o.id → Delivered s)
  ended : t'.execution.status.isTerminal = true → t.SameEnd t' ∨ t'.Unfinished ∨ t'.Finished

theorem Continues.keeps {t t' : Tables} (h : t.Continues t') (tx : TableTransaction) :
    Keeps tx t t' := by
  refine ⟨h.steps.old, fun s hs hstatus => .inl (h.steps.new s hs hstatus), fun o ho hstatus => ?_,
    fun hterminal => (h.ended hterminal).imp_right .inl⟩
  obtain ⟨o₀, ho₀, hid, hstatus₀⟩ := h.operations o ho hstatus
  exact ⟨o₀, ho₀, hid, .inl hstatus₀⟩

variable {t : Tables} {c : Change}

/-- A retry puts Steps back; the others stay as they are. -/
theorem retry_steps {now : Time} {fromSequence : ℕ} (hs : t.shape.Sound) :
    saveSteps (t.steps.map (Execution.resetStep now fromSequence)) t.steps =
      t.steps.map fun s => if s.sequence < fromSequence then s else Execution.resetStep now 0 s := by
  have hids : (t.steps.map (·.id)).Nodup := by
    have hshape := hs.keyed.stepIds
    rwa [shape, List.map_map] at hshape
  rw [saveSteps_map (fun s => by unfold Execution.resetStep; split <;> rfl) hids]
  refine List.map_congr_left fun s _ => ?_
  unfold Execution.resetStep
  split
  · exact saveStep_self s
  · rfl

theorem keeps_markSucceeded {clock : Clock} {lease : ExecutionLease} {sequence : ℕ}
    {stored : StepResultDescriptor} (h : t.markSucceeded clock lease sequence stored = .ok c)
    (hs : t.shape.Sound) (hsealed : stored.SealedUnder lease)
    (hproper : ∃ h ∈ t.shape.stepAttempts, h.attemptId = lease.attemptId ∧ h.sequence = sequence ∧
      h.status = .running) : Keeps (.markSucceeded clock lease sequence stored) t c.tables := by
  obtain ⟨active, step, hstep, tables, _, _⟩ := markSucceeded_ok h
  obtain ⟨x, hx, _, hsequence, hrunning⟩ := hproper
  rw [tables]
  refine ⟨fun s hmem hended => List.mem_updateWhere.mpr (.inr ⟨hmem, ?_⟩),
    fun s hmem hstatus => ?_, fun o ho hstatus => ⟨o, ho, rfl, .inl hstatus⟩, fun hterminal => ?_⟩
  · by_contra hmatch
    rw [Bool.not_eq_false, beq_iff_eq] at hmatch
    rw [running_of_stepAttempt hs hx hrunning hmem (hmatch.trans hsequence.symm)] at hended
    cases hended
  · rcases List.mem_updateWhere.mp hmem with ⟨y, _, _, rfl⟩ | ⟨hmem, _⟩
    · exact .inr ⟨lease, rfl, rfl, ⟨_, active⟩, rfl, congrArg some hsealed.2⟩
    · exact .inl hmem
  · have hstatus : t.execution.status = .running := status_running active
    have hterminal : t.execution.status.isTerminal = true := hterminal
    rw [hstatus] at hterminal
    cases hterminal

theorem keeps_completeOperation {clock : Clock} {lease : ExecutionLease} {operationId : UUID}
    {status : OperationStatus} {message : Option String} {failureType : Option FailureType}
    (h : t.completeOperation clock lease operationId status message failureType = .ok c) :
    Keeps (.completeOperation clock lease operationId status message failureType) t c.tables := by
  obtain ⟨active, rfl | ⟨operation, seconds, hoperation, hrunning, _, hresults, rfl⟩⟩ :=
    completeOperation_ok h
  · exact (Continues.refl _).keeps _
  refine ⟨fun _ hmem _ => hmem, fun _ hmem _ => .inl hmem, fun o ho hstatus => ?_,
    fun hterminal => by cases hterminal⟩
  rcases List.mem_updateWhere.mp ho with ⟨x, hx, hid, rfl⟩ | ⟨ho, _⟩
  · have hsucceeded : status = .succeeded := hstatus
    obtain ⟨found, hfound, hcompleted⟩ := requireCompletedResults_ok (hresults hsucceeded)
    have hfoundId : found.id = operationId := by
      have hfound : t.operation? operationId = some found := hfound
      simpa using List.find?_some hfound
    refine ⟨x, hx, rfl, .inr fun s hs hop => hcompleted.steps s hs ?_⟩
    rw [hop, hfoundId]
    exact beq_iff_eq.mp hid
  · exact ⟨o, ho, rfl, .inl hstatus⟩

/-- A failed end keeps what has ended. -/
theorem continues_finalize_failed {settings : Settings} {now : Time} {attemptId : UUID}
    {attemptStatus : AttemptStatus} {q : FinalizeRequest} (hfailed : q.status = .failed)
    (hq : t.ProperEnd q) : t.Continues ((t.runClosed settings now attemptId attemptStatus
      q).finalizeSteps now attemptId q) := by
  rw [finalizeSteps, if_pos hfailed]
  refine .unfinished (.trans ?_ (keepsEnded_skipPending now
    ((t.runClosed settings now attemptId attemptStatus q).failRunningSteps now q.errorMessage)))
    (operations_kept fun o => ?_) ⟨?_, ?_⟩
  · refine .move rfl (fun _ => ?_) _
    simp
  · simp [hfailed]
  · show q.status ≠ .succeeded
    rw [hfailed]
    decide
  · show q.effective.failureType = some .completionFailed → q.effective.retryStrategy = .notRetryable
    rw [FinalizeRequest.effective, if_pos hfailed]
    exact hq.undelivered

/-- A run that ends SUCCEEDED has finished. -/
theorem finished_runClosed {settings : Settings} {now : Time} {attemptId : UUID}
    {attemptStatus : AttemptStatus} {q : FinalizeRequest} {operation : OperationRow}
    (hstatus : q.status = .succeeded) (hq : t.ProperEnd q)
    (hoperation : t.execution.activeOperationId.bind t.operation? = some operation)
    (hcompleted : Completed operation true t) :
    (t.runClosed settings now attemptId attemptStatus q).Finished := by
  obtain ⟨active, hactive, hfound⟩ := Option.bind_eq_some_iff.mp hoperation
  have hmem : operation ∈ t.operations := List.mem_of_find?_eq_some hfound
  have hid : operation.id = active := by simpa using List.find?_some hfound
  refine ⟨hstatus, ?_, hcompleted.notebook, hcompleted.artifact rfl, ?_⟩
  · by_cases hopen : t.isOpenActive operation = true
    · exact ⟨_, List.mem_updateWhere.mpr (.inl ⟨operation, hmem, hopen, rfl⟩),
        (congrArg some hid).trans hactive.symm, if_pos hstatus⟩
    · refine ⟨operation, List.mem_updateWhere.mpr (.inr ⟨hmem, Bool.not_eq_true _ ▸ hopen⟩),
        (congrArg some hid).trans hactive.symm, ?_⟩
      rcases hcompleted.status with hrunning | hsucceeded
      · exact absurd (by simp [isOpenActive, hactive, hid, hrunning]) hopen
      · exact hsucceeded
  · have hretain : ¬ q.retainSession = true := fun hretain => by
      have hfailed := (hq.kept hretain).1
      rw [hstatus] at hfailed
      cases hfailed
    have hcleanup : effectiveCleanup t.execution q.cleanupStatus = .succeeded := by
      rw [hq.released hstatus, effectiveCleanup, if_neg (by simp)]
    show (if ¬ q.retainSession ∧ effectiveCleanup t.execution q.cleanupStatus = .succeeded then none
      else t.execution.runtimeSessionId) = none
    rw [if_pos ⟨hretain, hcleanup⟩]

theorem keeps_finalize {settings : Settings} {clock : Clock} {lease : ExecutionLease}
    {q : FinalizeRequest} (h : t.finalize settings clock lease q = .ok c) (hq : t.ProperEnd q) :
    Keeps (.finalize clock lease q) t c.tables := by
  obtain ⟨_, attemptStatus, _, hstatus, _, _, htables, _⟩ := finalize_ok h
  rw [htables]
  rcases hstatus with ⟨hsucceeded, rfl, hresults⟩ | ⟨hfailed, rfl⟩
  · obtain ⟨operation, hoperation, hcompleted⟩ := requireCompletedResults_ok hresults
    obtain ⟨active, hactive, hfound⟩ := Option.bind_eq_some_iff.mp hoperation
    have hid : operation.id = active := by simpa using List.find?_some hfound
    rw [finalizeSteps, if_neg (by rw [hsucceeded]; decide)]
    refine ⟨fun _ hmem _ => hmem, fun _ hmem _ => .inl hmem, fun o ho hend => ?_,
      fun _ => .inr (.inr (finished_runClosed hsucceeded hq hoperation hcompleted))⟩
    rcases List.mem_updateWhere.mp ho with ⟨x, hx, hmatch, rfl⟩ | ⟨ho, _⟩
    · refine ⟨x, hx, rfl, .inr fun s hs hop => hcompleted.steps s hs ?_⟩
      simp only [isOpenActive, Bool.and_eq_true, beq_iff_eq] at hmatch
      have hxid : x.id = active := Option.some.inj (hmatch.1.trans hactive)
      exact hop.trans (hxid.trans hid.symm)
    · exact ⟨o, ho, rfl, .inl hend⟩
  · exact (continues_finalize_failed hfailed hq).keeps _

end Tables

open Tables in
/-- What every transaction but a retry keeps of the rows it finds. -/
theorem keeps_of_change {trail : List EventSubject} {settings : Settings} {r : Rows}
    {tx : TableTransaction} {c : Change} (h : tx.change settings r = .ok c)
    (hs : r.tables.shape.Sound) (hl : r.tables.leaseColumns.Sound)
    (hp : tx.Proper trail r.tables) (hretry : ∀ now key, tx ≠ .retry now key) :
    Keeps tx r.tables c.tables := by
  cases hmilestone : tx.isMilestone with
  | false => exact (continues_of_change h hmilestone hs hl hp).keeps tx
  | true =>
    cases tx with
    | retry now key => exact absurd rfl (hretry now key)
    | markSucceeded clock lease sequence stored => exact keeps_markSucceeded h hs hp.1 hp.2
    | completeOperation clock lease operationId status message failureType =>
      exact keeps_completeOperation h
    | finalize clock lease q => exact keeps_finalize h hp
    | _ => cases hmilestone

end ExecutorService
