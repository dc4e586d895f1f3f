/-
Step sequences and Operation numbers.

The Steps of an Execution are numbered from zero, over all its Operations; each
Operation covers a range of them, and the ranges follow one another.  The sequences
come from the caller and are checked against the number of Steps there are, the number
of an Operation is one more than the largest, and `save` writes every Step again
before the new ones are added.

* `numbers_of_change` — only a create-operation changes the numbers;
* `append_only_numbering` — in every state the numbering is without gaps and the limits
  hold, and a create-operation leaves every earlier Step and Operation as it was.
-/
import ExecutorService.Store

namespace ExecutorService

/-- The identifiers of a Step, in its Execution and its Operation. -/
structure StepNumber where
  id : UUID
  operationId : UUID
  sequence : ℕ

/-- The identifiers of an Operation and the Steps it covers. -/
structure OperationNumber where
  id : UUID
  operationNumber : ℕ
  firstSequence : ℕ
  lastSequence : ℕ

/-- What numbers a Step. -/
def ExecutionStep.number (s : ExecutionStep) : StepNumber :=
  ⟨s.id, s.operationId, s.sequence⟩

/-- What numbers an Operation. -/
def OperationRow.number (o : OperationRow) : OperationNumber :=
  ⟨o.id, o.operationNumber, o.firstSequence, o.lastSequence⟩

/-- What numbers the Steps and the Operations. -/
structure Numbers where
  steps : List StepNumber
  operations : List OperationNumber

/-- The numbers of all rows. -/
def Tables.numbers (t : Tables) : Numbers :=
  ⟨t.steps.map (·.number), t.operations.map (·.number)⟩

/-- Operations whose ranges follow one another from `start` up to `stop`. -/
def Consecutive : ℕ → List OperationNumber → ℕ → Prop
  | start, [], stop => start = stop
  | start, o :: rest, stop =>
    o.firstSequence = start ∧ o.firstSequence ≤ o.lastSequence ∧
      Consecutive (o.lastSequence + 1) rest stop

/-- The numbering of an Execution, and the configured limits on it. -/
structure Numbers.Sound (settings : Settings) (n : Numbers) : Prop where
  sequences : n.steps.map (·.sequence) = List.range n.steps.length
  numbers : n.operations.map (·.operationNumber) = List.range' 1 n.operations.length
  ranges : Consecutive 0 n.operations n.steps.length
  covered : ∀ s ∈ n.steps, ∀ o ∈ n.operations,
    s.operationId = o.id ↔ o.firstSequence ≤ s.sequence ∧ s.sequence ≤ o.lastSequence
  perOperation : ∀ o ∈ n.operations,
    n.steps.countP (·.operationId == o.id) ≤ settings.maxStepsPerOperation
  perExecution : n.steps.length ≤ settings.maxStepsPerExecution
  stepIds : (n.steps.map (·.id)).Nodup

/-! ### What a request adds -/

theorem validateStepSequence_ok {expected : ℕ} {steps : List StepSpec}
    (h : validateStepSequence expected steps = .ok ()) :
    steps.map (·.sequence) = List.range' expected steps.length := by
  induction steps generalizing expected with
  | nil => rfl
  | cons step steps ih =>
    simp only [validateStepSequence] at h
    split at h
    · cases h
    rename_i hsequence
    split at h
    · cases h
    rw [List.map_cons, List.length_cons, List.range'_succ, ih h, not_not.mp hsequence]

theorem validateOperationSteps_ok {expected : ℕ} {steps : List StepSpec}
    (h : validateOperationSteps expected steps = .ok ()) :
    steps ≠ [] ∧ steps.map (·.sequence) = List.range' expected steps.length := by
  simp only [validateOperationSteps] at h
  split at h
  · cases h
  · rename_i hne
    exact ⟨hne, validateStepSequence_ok h⟩

theorem validateStepLimits_ok {settings : Settings} {current new : ℕ}
    (h : validateStepLimits settings current new = .ok ()) :
    new ≤ settings.maxStepsPerOperation ∧ current + new ≤ settings.maxStepsPerExecution := by
  simp only [validateStepLimits] at h
  split at h
  · cases h
  split at h
  · cases h
  omega

/-- A snapshot keeps the identifiers of the request. -/
theorem snapshotSources_number {now : Time} {operationId : UUID} {specs : List StepSpec}
    {steps : List ExecutionStep} (h : snapshotSources now operationId specs = .ok steps) :
    steps.map (·.number) = specs.map fun s => ⟨s.id, operationId, s.sequence⟩ := by
  induction specs generalizing steps with
  | nil =>
    simp only [snapshotSources, List.mapM_nil, Txn.pure_ok] at h
    subst h
    rfl
  | cons spec specs ih =>
    simp only [snapshotSources, List.mapM_cons, Txn.bind_ok, Txn.pure_ok] at h
    obtain ⟨step, hstep, rest, hrest, rfl⟩ := h
    split at hstep
    · cases hstep
    · cases hstep
      rw [List.map_cons, ih hrest]
      rfl

/-- The Operation of a request covers the Steps it brings. -/
theorem newOperation_range (now : Time) (operationId key fingerprint : Key) (number : ℕ)
    (timeout : Option Time) {start : ℕ} {specs : List StepSpec} (hne : specs ≠ [])
    (hsequences : specs.map (·.sequence) = List.range' start specs.length) :
    (newOperation now operationId key fingerprint number timeout specs).firstSequence = start ∧
      (newOperation now operationId key fingerprint number timeout specs).lastSequence + 1 =
        start + specs.length := by
  have hlength : 0 < specs.length := List.length_pos_of_ne_nil hne
  have hhead : specs.head?.map (·.sequence) = some start := by
    rw [← List.head?_map, hsequences, List.head?_range']
    simp [hne]
  have hlast : specs.getLast?.map (·.sequence) = some (start + specs.length - 1) := by
    rw [← List.getLast?_map, hsequences, List.getLast?_range']
    simp [hne]
  refine ⟨?_, ?_⟩
  · simp only [newOperation, hhead, Option.getD_some]
  · simp only [newOperation, hlast, Option.getD_some]
    omega

/-! ### The step -/

namespace Numbers

variable {n : Numbers} {settings : Settings}

theorem consecutive_append {start mid stop : ℕ} {operations : List OperationNumber}
    {o : OperationNumber} (h : Consecutive start operations mid) (hfirst : o.firstSequence = mid)
    (hlast : o.firstSequence ≤ o.lastSequence) (hstop : o.lastSequence + 1 = stop) :
    Consecutive start (operations ++ [o]) stop := by
  induction operations generalizing start with
  | nil =>
    replace h : start = mid := h
    exact ⟨hfirst.trans h.symm, hlast, hstop⟩
  | cons x rest ih => exact ⟨h.1, h.2.1, ih h.2.2⟩

theorem consecutive_le {start stop : ℕ} {operations : List OperationNumber}
    (h : Consecutive start operations stop) :
    start ≤ stop ∧ ∀ o ∈ operations, o.lastSequence < stop := by
  induction operations generalizing start with
  | nil => exact ⟨le_of_eq h, fun o ho => nomatch ho⟩
  | cons x rest ih =>
    obtain ⟨hle, hrest⟩ := ih h.2.2
    obtain ⟨hfirst, hlast, _⟩ := h
    refine ⟨by omega, fun o ho => ?_⟩
    rcases List.mem_cons.mp ho with rfl | ho
    · omega
    · exact hrest o ho

/-- Every sequence below the end is covered. -/
theorem consecutive_covers {start stop sequence : ℕ} {operations : List OperationNumber}
    (h : Consecutive start operations stop) (hge : start ≤ sequence) (hlt : sequence < stop) :
    ∃ o ∈ operations, o.firstSequence ≤ sequence ∧ sequence ≤ o.lastSequence := by
  induction operations generalizing start with
  | nil =>
    replace h : start = stop := h
    omega
  | cons x rest ih =>
    obtain ⟨hfirst, _, hrest⟩ := h
    by_cases hx : sequence ≤ x.lastSequence
    · exact ⟨x, List.mem_cons_self, by omega, hx⟩
    · obtain ⟨o, ho, hrange⟩ := ih hrest (by omega)
      exact ⟨o, List.mem_cons_of_mem _ ho, hrange⟩

/-- An Operation that covers its new Steps keeps the numbering. -/
theorem Sound.append (h : n.Sound settings) {o : OperationNumber} {steps : List StepNumber}
    (hnumber : o.operationNumber = n.operations.length + 1)
    (hsequences : steps.map (·.sequence) = List.range' n.steps.length steps.length)
    (hne : steps ≠ []) (hfirst : o.firstSequence = n.steps.length)
    (hlast : o.lastSequence + 1 = n.steps.length + steps.length)
    (howned : ∀ s ∈ steps, s.operationId = o.id) (hfresh : ∀ x ∈ n.operations, x.id ≠ o.id)
    (hids : ((n.steps ++ steps).map (·.id)).Nodup)
    (hperOperation : steps.length ≤ settings.maxStepsPerOperation)
    (hperExecution : n.steps.length + steps.length ≤ settings.maxStepsPerExecution) :
    Sound settings ⟨n.steps ++ steps, n.operations ++ [o]⟩ := by
  have hlength : 0 < steps.length := List.length_pos_of_ne_nil hne
  -- The old Steps have numbers below, and the new ones numbers from, the old count.
  have hbelow : ∀ s ∈ n.steps, s.sequence < n.steps.length := by
    intro s hs
    have hmem : s.sequence ∈ n.steps.map (·.sequence) := List.mem_map_of_mem hs
    rw [h.sequences] at hmem
    exact List.mem_range.mp hmem
  have hold : ∀ s ∈ n.steps, s.operationId ≠ o.id := by
    intro s hs heq
    obtain ⟨x, hx, hrange⟩ := consecutive_covers h.ranges (Nat.zero_le _) (hbelow s hs)
    exact hfresh x hx (((h.covered s hs x hx).mpr hrange).symm.trans heq)
  have habove : ∀ s ∈ steps, n.steps.length ≤ s.sequence ∧
      s.sequence < n.steps.length + steps.length := by
    intro s hs
    have hmem : s.sequence ∈ steps.map (·.sequence) := List.mem_map_of_mem hs
    rw [hsequences, List.mem_range'_1] at hmem
    exact hmem
  refine ⟨?_, ?_, ?_, ?_, ?_, ?_, hids⟩
  · rw [List.map_append, h.sequences, hsequences, List.length_append, List.range_eq_range',
      List.range_eq_range', ← List.range'_append, Nat.one_mul, Nat.zero_add]
  · rw [List.map_append, h.numbers, List.map_singleton, List.length_append, List.length_singleton,
      List.range'_concat, hnumber, Nat.one_mul, Nat.add_comm 1]
  · rw [List.length_append]
    exact consecutive_append h.ranges hfirst (by omega) hlast
  · -- An Operation covers exactly its own Steps: four cases, old or new on either side.
    intro s hs x hx
    rcases List.mem_append.mp hs with hs | hs <;> rcases List.mem_append.mp hx with hx | hx
    · exact h.covered s hs x hx
    · rw [List.mem_singleton.mp hx]
      have hlt := hbelow s hs
      exact ⟨fun heq => absurd heq (hold s hs), fun hrange => by omega⟩
    · have hle := (consecutive_le h.ranges).2 x hx
      have hge := (habove s hs).1
      refine ⟨fun heq => absurd ?_ (hfresh x hx), fun hrange => by omega⟩
      exact heq.symm.trans (howned s hs)
    · rw [List.mem_singleton.mp hx]
      have hrange := habove s hs
      exact ⟨fun _ => by omega, fun _ => howned s hs⟩
  · -- No Operation has Steps of both kinds, so the counts do not add up.
    intro x hx
    rw [List.countP_append]
    rcases List.mem_append.mp hx with hx | hx
    · have hzero : steps.countP (·.operationId == x.id) = 0 := by
        rw [List.countP_eq_zero]
        intro s hs
        rw [howned s hs, beq_iff_eq]
        exact (hfresh x hx).symm
      rw [hzero]
      exact h.perOperation x hx
    · rw [List.mem_singleton.mp hx]
      have hzero : n.steps.countP (·.operationId == o.id) = 0 := by
        rw [List.countP_eq_zero]
        intro s hs
        rw [beq_iff_eq]
        exact hold s hs
      rw [hzero, Nat.zero_add]
      exact le_trans List.countP_le_length hperOperation
  · rw [List.length_append]
    exact hperExecution

end Numbers

/-! ### Transactions -/

namespace Tables

variable {t t' : Tables}

theorem numbers_eq (hsteps : t'.steps.map (·.number) = t.steps.map (·.number))
    (hoperations : t'.operations.map (·.number) = t.operations.map (·.number)) :
    t'.numbers = t.numbers := by
  rw [numbers, hsteps, hoperations, numbers]

/-- An update that keeps the numbers of the Steps. -/
theorem number_steps {p : ExecutionStep → Bool} {f : ExecutionStep → ExecutionStep}
    (steps : List ExecutionStep) (hf : ∀ s, (f s).number = s.number := by intro s; rfl) :
    (steps.updateWhere p f).map (·.number) = steps.map (·.number) :=
  List.map_updateWhere hf steps

theorem number_operations {p : OperationRow → Bool} {f : OperationRow → OperationRow}
    (operations : List OperationRow) (hf : ∀ o, (f o).number = o.number := by intro o; rfl) :
    (operations.updateWhere p f).map (·.number) = operations.map (·.number) :=
  List.map_updateWhere hf operations

theorem number_saveSteps (steps rows : List ExecutionStep) :
    (saveSteps steps rows).map (·.number) = rows.map (·.number) := by
  induction steps generalizing rows with
  | nil => rfl
  | cons step steps ih =>
    rw [saveSteps_cons, ih]
    exact number_steps rows

theorem numbers_skipPendingSteps (now : Time) (t : Tables) :
    (t.skipPendingSteps now).numbers = t.numbers :=
  numbers_eq (number_steps t.steps) rfl

theorem numbers_closeActiveOperation {f : OperationRow → OperationRow}
    (hf : ∀ o, (f o).number = o.number) : (t.closeActiveOperation f).numbers = t.numbers :=
  numbers_eq rfl (number_operations t.operations hf)

theorem numbers_failUnclaimed (now : Time) (row : ExecutionRow) (message : String)
    (failureType : Option FailureType) :
    (t.failUnclaimed now row message failureType).1.numbers = t.numbers := by
  have hclosed : (t.failUnclaimed now row message failureType).1.numbers =
      ({ t with execution := row }.skipPendingSteps now).numbers :=
    numbers_closeActiveOperation fun o => rfl
  rw [hclosed, numbers_skipPendingSteps]
  rfl

@[simp] theorem numbers_markAttemptPending (t : Tables) : t.markAttemptPending.numbers = t.numbers := by
  unfold markAttemptPending
  split <;> rfl

theorem numbers_endStep {now : Time} {attemptId : UUID} {sequence : ℕ} {status : StepStatus}
    {stored : StepResultDescriptor} {message : Option String} :
    (t.endStep now attemptId sequence status stored message).numbers = t.numbers :=
  numbers_eq (number_steps t.steps) rfl

theorem numbers_abandoned (now : Time) (t : Tables) : (t.abandoned now).numbers = t.numbers :=
  numbers_eq (number_steps t.steps) rfl

/-- The rows a create-operation adds. -/
theorem createOperation_rows {settings : Settings} {now : Time} {command : CreateOperationCommand}
    (h : t.createOperation settings now command = .ok t') :
    t' = t ∨ ∃ steps, snapshotSources now command.operationId command.steps = .ok steps ∧
      validateStepLimits settings t.steps.length command.steps.length = .ok () ∧
      validateOperationSteps t.steps.length command.steps = .ok () ∧
      FreshOperation (newOperation now command.operationId command.idempotencyKey
        command.requestFingerprint t.nextOperationNumber command.operationTimeoutSeconds
        command.steps) steps { t with steps := saveSteps (t.steps ++ steps) t.steps } ∧
      t'.operations = t.operations ++ [newOperation now command.operationId command.idempotencyKey
        command.requestFingerprint t.nextOperationNumber command.operationTimeoutSeconds
        command.steps] ∧
      t'.steps = saveSteps (t.steps ++ steps) t.steps ++ steps := by
  unfold createOperation at h
  split at h
  · simp only [Txn.bind_ok, Txn.pure_ok] at h
    obtain ⟨_, _, rfl⟩ := h
    exact .inl rfl
  simp only [Txn.bind_ok, Txn.pure_ok] at h
  obtain ⟨e, _, _, hlimits, _, _, _, hvalid, steps, hsteps, saved, hsaved, appended, happended,
    rfl⟩ := h
  have hsaved := save_ok hsaved
  subst hsaved
  obtain ⟨fresh, rfl⟩ := appendOperation_ok happended
  exact .inr ⟨steps, hsteps, hlimits, hvalid,
    ⟨fresh.freshId, fresh.freshSteps, fresh.nodup⟩, rfl, rfl⟩

end Tables

open Tables in
/-- Only a create-operation changes the numbers. -/
theorem numbers_of_change {settings : Settings} {r : Rows} {tx : TableTransaction} {c : Change}
    (h : tx.change settings r = .ok c) :
    c.tables.numbers = r.tables.numbers ∨
      ∃ now command, tx = .createOperation now command := by
  cases tx with
  -- Only this one adds rows.
  | createOperation now command => exact .inr ⟨now, command, rfl⟩
  | cancel now key reason =>
    obtain ⟨t, ht, rfl⟩ := Txn.quiet_ok.mp h
    rcases cancel_ok ht with rfl | ⟨_, _, rfl⟩
    · exact .inl rfl
    · -- The Steps are saved by their ids, and `save` does not write what numbers them.
      exact .inl (numbers_eq (number_saveSteps _ _) rfl)
  | retry now key =>
    obtain ⟨t, ht, rfl⟩ := Txn.quiet_ok.mp h
    rcases retry_ok ht with rfl | ⟨operationId, fromSequence, _, _, rfl⟩
    · exact .inl rfl
    · -- A retry sets statuses back.
      exact .inl (numbers_eq (number_saveSteps _ _) (number_operations _))
  | finalizeCommand now key fingerprint expectedVersion =>
    obtain ⟨t, ht, rfl⟩ := Txn.quiet_ok.mp h
    rcases finalizeCommand_ok ht with rfl | ⟨_, _, rfl⟩
    · exact .inl rfl
    · exact .inl (numbers_eq (number_saveSteps _ _) rfl)
  | claim now worker attemptId view =>
    refine .inl ?_
    cases claim_ok h with
    | idle => rfl
    -- A claim starts an Operation.
    | waiting => exact numbers_eq rfl (number_operations _)
    | resumed => exact numbers_eq rfl (number_operations _)
    | started => exact numbers_eq rfl (number_operations _)
    | unavailable => exact numbers_failUnclaimed _ _ _ _
  | claimHandover now worker view =>
    cases h
    refine .inl ?_
    rcases claimHandover_cases settings now worker view r.tables with
      hc | ⟨_, _, hc | ⟨attempt, _, hc⟩⟩ <;> rw [hc] <;> rfl
  | claimCancellation now worker =>
    cases h
    refine .inl ?_
    rcases claimCancellation_cases settings now worker r.tables with
      hc | ⟨_, ⟨_, hc⟩ | hc⟩ <;> rw [hc] <;> rfl
  | renewExecution now lease =>
    obtain ⟨t, ht, rfl⟩ := Txn.quiet_ok.mp h
    obtain ⟨_, rfl⟩ := renewExecution_ok ht
    exact .inl rfl
  | renewCancellation now lease =>
    obtain ⟨t, ht, rfl⟩ := Txn.quiet_ok.mp h
    obtain ⟨_, rfl⟩ := renewCancellation_ok ht
    exact .inl rfl
  | assertExecution clock lease allowed =>
    obtain ⟨_, rfl⟩ := assertExecution_ok h
    exact .inl rfl
  | ensureCount clock lease cellCount =>
    obtain ⟨_, rfl⟩ := ensureCount_ok h
    exact .inl rfl
  | recordRuntimeSession clock lease sessionId workspace notebook =>
    obtain ⟨_, rfl⟩ := recordRuntimeSession_ok h
    exact .inl rfl
  | markStarted clock lease sequence historyId requestId baseline =>
    obtain ⟨_, _, _, step, _, tables, _, _⟩ := markStarted_ok h
    rw [tables]
    -- One Step becomes RUNNING.
    exact .inl (numbers_eq (number_steps _) rfl)
  | markSubmitted clock lease requestId =>
    obtain ⟨_, rfl⟩ := markSubmitted_ok h
    exact .inl rfl
  | recordHandoverCompleted clock lease sequence handover finished =>
    obtain ⟨_, step, _, tables, _, _⟩ := recordHandoverCompleted_ok h
    rw [tables]
    exact .inl rfl
  | markSucceeded clock lease sequence stored =>
    obtain ⟨_, step, _, tables, _, _⟩ := markSucceeded_ok h
    rw [tables]
    -- A Step that ends keeps its number.
    exact .inl numbers_endStep
  | markFailed clock lease sequence stored message retryable =>
    obtain ⟨_, step, _, tables, _, _⟩ := markFailed_ok h
    rw [tables]
    exact .inl numbers_endStep
  | recordInterruptedResult clock lease sequence stored =>
    obtain ⟨_, step, rfl⟩ := recordInterruptedResult_ok h
    cases stored with
    | none => exact .inl rfl
    -- The evidence is written to the row of the Step that was running.
    | some stored => exact .inl (numbers_eq (number_steps _) rfl)
  | completeOperation clock lease operationId status message failureType =>
    obtain ⟨_, rfl | ⟨operation, seconds, _, _, _, _, rfl⟩⟩ := completeOperation_ok h
    · exact .inl rfl
    · -- An Operation that ends keeps its number.
      exact .inl (numbers_eq rfl (number_operations _))
  | skipStepsAfter clock lease operationId sequence =>
    obtain ⟨_, rfl⟩ := skipStepsAfter_ok h
    -- The Steps behind a failed one are skipped.
    exact .inl (numbers_eq (number_steps _) rfl)
  | beginProjection clock lease =>
    obtain ⟨_, e, _, rfl⟩ := beginProjection_ok h
    exact .inl rfl
  | recordProjection clock lease status count message =>
    obtain ⟨_, e, _, rfl⟩ := recordProjection_ok h
    exact .inl rfl
  | persistNotebook clock lease notebook =>
    obtain ⟨_, artifacts, rfl⟩ := persistNotebook_ok h
    exact .inl rfl
  | persistArtifacts clock lease sequence allow artifacts =>
    obtain ⟨_, artifacts, rfl⟩ := persistArtifacts_ok h
    exact .inl rfl
  | recordRuntimeAbort clock lease abort cleanup failureType =>
    obtain ⟨_, rfl⟩ := recordRuntimeAbort_ok h
    exact .inl rfl
  | deferRetainedRetry clock lease =>
    obtain ⟨t, ht, rfl⟩ := Txn.quiet_ok.mp h
    obtain ⟨_, _, rfl | ⟨_, rfl⟩⟩ := deferRetainedRetry_ok ht
    · exact .inl rfl
    · exact .inl (numbers_eq rfl (number_operations _))
  | releaseForCancellation clock lease =>
    obtain ⟨_, rfl⟩ := releaseForCancellation_ok h
    exact .inl rfl
  | releaseForHandover clock lease =>
    obtain ⟨_, rfl | ⟨stepAttempt, stepId, _, _, tables, _, _⟩⟩ := releaseForHandover_ok h
    · exact .inl rfl
    · rw [tables]
      exact .inl rfl
  | finalize clock lease request =>
    obtain ⟨_, attemptStatus, stepEvents, _, _, _, tables, _⟩ := finalize_ok h
    -- The active Operation is closed, and then the Steps that are left.
    have hclosed : (r.tables.runClosed settings clock.now lease.attemptId attemptStatus
        request).numbers = r.tables.numbers := numbers_closeActiveOperation fun o => rfl
    refine .inl ?_
    rw [tables, finalizeSteps]
    split
    · rw [← hclosed]
      refine numbers_eq ?_ rfl
      exact (number_steps _).trans (number_steps _)
    · exact hclosed
  | finalizeCancellation clock lease cleanup =>
    obtain ⟨_, stepEvents, _, _, tables, _⟩ := finalizeCancellation_ok h
    rw [tables]
    -- All open Steps and the active Operation are cancelled.
    refine .inl (numbers_eq ?_ (number_operations _))
    exact (number_steps _).trans (number_steps _)
  | fenceExpiredLease now view =>
    refine .inl ?_
    cases fenceExpiredLease_ok h with
    | idle => rfl
    | handedOver _ _ _ tables _ _ =>
      rw [tables]
      rfl
    | failed =>
      -- What the lost run leaves open is closed.
      have hclosed : (((r.tables.abandoned now).skipPendingSteps now).failExpiredOperation now
          r.tables.runningAttempt?).1.numbers =
          ((r.tables.abandoned now).skipPendingSteps now).numbers :=
        numbers_closeActiveOperation fun o => rfl
      rw [hclosed, numbers_skipPendingSteps, numbers_abandoned]
  | failQueueTimeout now =>
    rcases failQueueTimeout_ok h with rfl | ⟨_, _, rfl⟩
    · exact .inl rfl
    · -- It ends without an Attempt.
      exact .inl (numbers_failUnclaimed _ _ _ _)
  | requestExpiredCancellation now =>
    rcases requestExpiredCancellation_ok h with rfl | ⟨_, rfl⟩
    · exact .inl rfl
    · exact .inl rfl
  | endWaitingExecution now observation finalizedBy =>
    rcases endWaitingExecution_ok h with rfl | ⟨_, rfl | ⟨failureType, message, rfl⟩⟩
    · exact .inl rfl
    · exact .inl rfl
    · exact .inl rfl
  | failWaitingExecution now observation failureType message =>
    rcases failWaitingExecution_ok h with rfl | ⟨_, rfl⟩
    · exact .inl rfl
    · exact .inl rfl
  | cleanupExpired now =>
    refine .inl ?_
    rcases cleanupExpired_ok h with rfl | ⟨_, ⟨_, rfl⟩ | ⟨_, row, closed, events, rfl, hclosed, rfl⟩⟩
    · rfl
    · -- The session is forgotten, and nothing is numbered anew.
      exact numbers_markAttemptPending _
    · obtain ⟨rfl, rfl⟩ := Prod.mk.inj hclosed
      rw [numbers_markAttemptPending]
      exact numbers_failUnclaimed _ _ _ _
  | retryUnresolved now =>
    cases h
    refine .inl ?_
    simp only [retryUnresolved]
    split
    · exact numbers_markAttemptPending _
    · rfl
  | recordResult now observation cleanup =>
    cases h
    refine .inl ?_
    rcases recordResult_cases observation cleanup now r.tables with hr | ⟨_, _, hr⟩
    · rw [hr]
    · -- The session's end is noted in the row of the Execution.
      rw [hr]
      rfl

/-! ### The numbering of an Execution -/

theorem foldl_max_range' (m : ℕ) : (List.range' 1 m).foldl max 0 = m := by
  induction m with
  | zero => rfl
  | succ m ih =>
    rw [List.range'_concat, List.foldl_append, ih, List.foldl_cons, List.foldl_nil]
    omega

variable {settings : Settings}

/-- What a create-operation appends, to rows that stay as they were. -/
theorem Tables.createOperation_appends {now : Time} {command : CreateOperationCommand}
    {t t' : Tables} (hn : t.numbers.Sound settings)
    (h : t.createOperation settings now command = .ok t') :
    ∃ steps operations, t'.steps = t.steps ++ steps ∧ t'.operations = t.operations ++ operations ∧
      t'.numbers.Sound settings := by
  rcases createOperation_rows h with rfl | ⟨steps, hsteps, hlimits, hvalid, fresh, hoperations,
    hrows⟩
  · exact ⟨[], [], by simp, by simp, hn⟩
  -- Saving rewrites the Steps that are there and keeps their ids.
  have hids : (saveSteps (t.steps ++ steps) t.steps).map (·.id) = t.steps.map (·.id) := by
    have hmap : ∀ l : List ExecutionStep, l.map (·.id) = (l.map (·.number)).map (·.id) := by
      intro l
      rw [List.map_map]
      rfl
    rw [hmap, number_saveSteps, ← hmap]
  have hnodup : (t.steps.map (·.id)).Nodup := by
    have hstepIds := hn.stepIds
    rw [numbers, List.map_map] at hstepIds
    exact hstepIds
  have hfresh : ∀ s ∈ steps, ∀ r ∈ t.steps, r.id ≠ s.id := by
    intro s hs r hr
    have hmem : r.id ∈ (saveSteps (t.steps ++ steps) t.steps).map (·.id) := by
      rw [hids]
      exact List.mem_map_of_mem hr
    obtain ⟨r', hr', hid⟩ := List.mem_map.mp hmem
    rw [← hid]
    exact (fresh.freshSteps s hs r' hr').1
  rw [saveSteps_self hnodup hfresh] at hrows
  refine ⟨steps, _, hrows, hoperations, ?_⟩
  -- The new Operation covers the new Steps, which go on where the old ones end.
  obtain ⟨hne, hsequences⟩ := validateOperationSteps_ok hvalid
  obtain ⟨hperOperation, hperExecution⟩ := validateStepLimits_ok hlimits
  have hnumbers := snapshotSources_number hsteps
  have hlength : steps.length = command.steps.length := by
    simpa using congrArg List.length hnumbers
  obtain ⟨hfirst, hlast⟩ := newOperation_range now command.operationId command.idempotencyKey
    command.requestFingerprint t.nextOperationNumber command.operationTimeoutSeconds hne hsequences
  have happended : t'.numbers = ⟨t.numbers.steps ++ steps.map (·.number), t.numbers.operations ++
      [(newOperation now command.operationId command.idempotencyKey command.requestFingerprint
        t.nextOperationNumber command.operationTimeoutSeconds command.steps).number]⟩ := by
    rw [numbers, hrows, hoperations, List.map_append, List.map_append]
    rfl
  rw [happended]
  have hcount : t.numbers.steps.length = t.steps.length := List.length_map ..
  -- The new numbers continue the old ones, and the limits were checked.
  refine hn.append ?_ ?_ ?_ (by rw [hcount]; exact hfirst) ?_ ?_ ?_ ?_ ?_ ?_
  · have hmax : t.operations.map (·.operationNumber) = List.range' 1 t.operations.length := by
      have hrange := hn.numbers
      rw [numbers, List.map_map, List.length_map] at hrange
      exact hrange
    replace hmax : t.nextOperationNumber = t.operations.length + 1 := by
      rw [nextOperationNumber, hmax, foldl_max_range']
    rw [OperationRow.number, numbers, List.length_map]
    exact hmax
  · rw [List.length_map, hlength, hcount, hnumbers, List.map_map]
    exact hsequences
  · intro hnil
    rw [List.map_eq_nil_iff] at hnil
    rw [hnil] at hlength
    exact hne (List.eq_nil_of_length_eq_zero hlength.symm)
  · rw [hcount, List.length_map, hlength]
    exact hlast
  · intro s hs
    rw [hnumbers] at hs
    obtain ⟨spec, _, rfl⟩ := List.mem_map.mp hs
    rfl
  · intro x hx
    obtain ⟨o, ho, rfl⟩ := List.mem_map.mp hx
    exact fresh.freshId o ho
  · have happend : (t.numbers.steps ++ steps.map (·.number)).map (·.id) =
        t.steps.map (·.id) ++ steps.map (·.id) := by
      rw [numbers, List.map_append, List.map_map, List.map_map]
      rfl
    rw [happend, List.nodup_append]
    refine ⟨hnodup, fresh.nodup, fun id hid id' hid' => ?_⟩
    obtain ⟨r, hr, rfl⟩ := List.mem_map.mp hid
    obtain ⟨s, hs, rfl⟩ := List.mem_map.mp hid'
    exact hfresh s hs r hr
  · rw [List.length_map, hlength]
    exact hperOperation
  · rw [List.length_map, hlength, hcount]
    exact hperExecution

theorem submit_numbers {now : Time} {command : SubmitExecutionCommand} {t : Tables}
    (h : submit settings now command = .ok t) : t.numbers.Sound settings := by
  simp only [submit, Txn.bind_ok] at h
  obtain ⟨_, hsubmit, _, hlimits, _, _, steps, hsteps, h⟩ := h
  split at h
  · cases h
  rename_i hnodup
  cases h
  simp only [validateSubmit, Txn.bind_ok] at hsubmit
  obtain ⟨_, hvalid, _⟩ := hsubmit
  obtain ⟨hne, hsequences⟩ := validateOperationSteps_ok hvalid
  obtain ⟨hperOperation, hperExecution⟩ := validateStepLimits_ok hlimits
  have hnumbers := snapshotSources_number hsteps
  have hlength : steps.length = command.steps.length := by
    simpa using congrArg List.length hnumbers
  obtain ⟨hfirst, hlast⟩ := newOperation_range now command.operationId command.idempotencyKey
    command.requestFingerprint 1 command.operationTimeoutSeconds hne hsequences
  -- The first Operation is appended to an Execution without Steps.
  have hempty : Numbers.Sound settings ⟨[], []⟩ := by
    refine ⟨rfl, rfl, rfl, ?_, ?_, Nat.zero_le _, List.nodup_nil⟩ <;> simp
  have happended : Numbers.Sound settings ⟨[] ++ steps.map (·.number), [] ++
      [(newOperation now command.operationId command.idempotencyKey command.requestFingerprint 1
        command.operationTimeoutSeconds command.steps).number]⟩ := by
    refine hempty.append rfl ?_ ?_ hfirst ?_ ?_ ?_ ?_ ?_ ?_
    · rw [List.length_map, hlength, hnumbers, List.map_map]
      exact hsequences
    · intro hnil
      rw [List.map_eq_nil_iff] at hnil
      rw [hnil] at hlength
      exact hne (List.eq_nil_of_length_eq_zero hlength.symm)
    · rw [List.length_map, hlength]
      exact hlast
    · intro s hs
      rw [hnumbers] at hs
      obtain ⟨spec, _, rfl⟩ := List.mem_map.mp hs
      rfl
    · intro x hx
      cases hx
    · rw [List.nil_append, List.map_map]
      exact not_not.mp hnodup
    · rw [List.length_map, hlength]
      exact hperOperation
    · rw [List.length_map, hlength]
      exact hperExecution
  exact happended

theorem History.numbers_step {h : History} (hn : h.rows.tables.numbers.Sound settings)
    (tx : Transaction) : (h.step settings tx).rows.tables.numbers.Sound settings := by
  cases tx with
  | log tx => exact hn
  | table eventTime tx =>
    rcases h.step_table_or settings eventTime tx with hstep | ⟨c, log, hchange, hstep⟩
    · rw [hstep]
      exact hn
    · rw [hstep]
      rcases numbers_of_change hchange with hsame | ⟨now, command, rfl⟩
      · show c.tables.numbers.Sound settings
        rw [hsame]
        exact hn
      · obtain ⟨t, ht, rfl⟩ := Txn.quiet_ok.mp hchange
        obtain ⟨_, _, _, _, hsound⟩ := Tables.createOperation_appends hn ht
        exact hsound

theorem Submission.numbers_run (s : Submission settings) (txs : List Transaction) :
    (s.run txs).rows.tables.numbers.Sound settings :=
  Transition.invariant_of_step (I := fun h : History => h.rows.tables.numbers.Sound settings)
    (fun _ tx hn => History.numbers_step hn tx) (submit_numbers s.accepted) txs

/-- The numbering has no gaps and keeps to the limits, and a create-operation changes no
row that was there before. -/
theorem append_only_numbering (s : Submission settings) (txs : List Transaction) :
    (s.run txs).rows.tables.numbers.Sound settings ∧
      ∀ eventTime now command, ∃ steps operations,
        ((s.run txs).step settings (.table eventTime
          (.createOperation now command))).rows.tables.steps =
            (s.run txs).rows.tables.steps ++ steps ∧
        ((s.run txs).step settings (.table eventTime
          (.createOperation now command))).rows.tables.operations =
            (s.run txs).rows.tables.operations ++ operations := by
  refine ⟨s.numbers_run txs, fun eventTime now command => ?_⟩
  rcases (s.run txs).step_table_or settings eventTime (.createOperation now command) with
    hstep | ⟨c, log, hchange, hstep⟩
  · rw [hstep]
    exact ⟨[], [], by simp, by simp⟩
  · rw [hstep]
    obtain ⟨t, ht, rfl⟩ := Txn.quiet_ok.mp hchange
    obtain ⟨steps, operations, hsteps, hoperations, _⟩ :=
      Tables.createOperation_appends (s.numbers_run txs) ht
    exact ⟨steps, operations, hsteps, hoperations⟩

end ExecutorService
