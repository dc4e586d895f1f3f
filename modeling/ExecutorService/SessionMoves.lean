/-
The Runtime session of one Execution.

`SessionColumns` are the columns that decide whether a claim goes on with the session a
row holds or starts another one.  `SessionMove` is what a transaction may do to them;
`admitted` says whether a claim of a row without a session was let in.

* `sessionMove_of_change` — each transaction refines the protocol;
* `SessionColumns.Held` — a claimable row that holds a session is one whose claim goes on
  with it;
* `SessionMove.held` — every move keeps it, but for a retry from the start that leaves a
  session on its row.
-/
import ExecutorService.LeaseMoves

namespace ExecutorService

/-- The columns of the session protocol. -/
structure SessionColumns where
  mode : OperationMode
  /-- The row has an Operation wait timeout. -/
  waits : Bool
  status : ExecutionStatus
  session : Option SessionId
  target : Option UUID
  strategy : RetryStrategy
  retryFrom : Option ℕ
  retries : ℕ
  deriving DecidableEq

/-- The session columns of a row. -/
def ExecutionRow.sessionColumns (e : ExecutionRow) : SessionColumns where
  mode := e.operationMode
  waits := e.operationWaitTimeoutSeconds.isSome
  status := e.status
  session := e.runtimeSessionId
  target := e.runtimeTargetId
  strategy := e.retryStrategy
  retryFrom := e.retryFromSequence
  retries := e.retryCount

/-- One move of the session protocol. -/
inductive SessionMove (admitted : Bool) (c : SessionColumns) : SessionColumns → Prop
  | stay : SessionMove admitted c c
  | requestCancel (open_ : c.status.isTerminal = false) :
      SessionMove admitted c { c with status := .cancelRequested }
  | resume (before : c.status = .failed) (strategy : c.strategy = .fromFailedStep)
      (target : c.target.isSome = true) (from_ : c.retryFrom.isSome = true) :
      SessionMove admitted c { c with status := .queued, retries := c.retries + 1 }
  | restart (before : c.status = .failed) (strategy : c.strategy = .fromStart) :
      SessionMove admitted c { c with
        status := .queued
        retryFrom := some 0
        retries := c.retries + 1 }
  | request {status : ExecutionStatus} (before : c.status = .waitingForOperation)
      (after : status = .queued ∨ status = .finalizing) :
      SessionMove admitted c { c with status := status }
  | claim {target : Option UUID} (before : c.status = .queued ∨ c.status = .finalizing)
      (admission : c.session = none → admitted = true) (after : target.isSome = true) :
      SessionMove admitted c { c with status := .running, target := target }
  | record {session : SessionId} (before : c.status = .running) :
      SessionMove admitted c { c with session := some session }
  | wait (before : c.status = .running) (waits : c.waits = true) :
      SessionMove admitted c { c with status := .waitingForOperation }
  | defer (before : c.status = .running) (strategy : c.strategy = .fromFailedStep) :
      SessionMove admitted c { c with status := .queued }
  | close {status : ExecutionStatus} {session : Option SessionId} {strategy : RetryStrategy}
      {retryFrom : Option ℕ} (after : status.isTerminal = true)
      (session_ : session = c.session ∨ session = none) :
      SessionMove admitted c { c with
        status := status
        session := session
        strategy := strategy
        retryFrom := retryFrom }

/-! ### The invariant -/

/-- A retry that its claim resumes. -/
structure SessionColumns.Resumable (c : SessionColumns) : Prop where
  retried : 0 < c.retries
  from_ : c.retryFrom.isSome = true

/-- A row that no end has closed. -/
def ExecutionStatus.isOpen : ExecutionStatus → Bool
  | .queued | .running | .waitingForOperation | .finalizing => true
  | _ => false

/-- What a row with a session can be. -/
structure SessionColumns.Held (c : SessionColumns) : Prop where
  multi : c.waits = true → c.mode = .multi
  waiting : c.status = .waitingForOperation ∨ c.status = .finalizing → c.mode = .multi
  running : c.status = .running → c.target.isSome = true
  target : c.session.isSome = true → c.target.isSome = true
  queued : c.status = .queued → c.session.isSome = true →
    c.mode = .multi ∨ c.strategy = .fromFailedStep
  resumable : c.status.isOpen = true → c.strategy = .fromFailedStep → c.Resumable

/-- A retry from the start of a row without a session. -/
def SessionColumns.CleanRestart (c c' : SessionColumns) : Prop :=
  c.status = .failed → c'.status = .queued → c.strategy = .fromStart → c.session = none

theorem SessionMove.held {admitted : Bool} {c c' : SessionColumns}
    (h : SessionMove admitted c c') (hc : c.Held) (clean : c.CleanRestart c') : c'.Held := by
  -- A move that keeps strategy and start sequence keeps what an open row says of them.
  have resumable : ∀ {c' : SessionColumns}, c.status.isOpen = true → c'.strategy = c.strategy →
      c.retries ≤ c'.retries → c'.retryFrom = c.retryFrom →
      c'.strategy = .fromFailedStep → c'.Resumable := by
    intro c' hopen hstrategy hretries hfrom hfailed
    have hresumable := hc.resumable hopen (hstrategy ▸ hfailed)
    exact ⟨Nat.lt_of_lt_of_le hresumable.retried hretries, hfrom ▸ hresumable.from_⟩
  cases h with
  -- In each case the columns of the new row, one after the other.
  | stay => exact hc
  | requestCancel open_ =>
    exact {
      multi := hc.multi
      waiting := by simp
      running := by simp
      target := hc.target
      queued := by simp
      resumable := by simp [ExecutionStatus.isOpen] }
  -- A retry from the failed Step keeps the session of the run it continues.
  | resume before strategy target from_ =>
    exact {
      multi := hc.multi
      waiting := by simp
      running := by simp
      target := hc.target
      queued := fun _ _ => .inr strategy
      resumable := fun _ _ => ⟨Nat.succ_pos _, from_⟩ }
  | restart before strategy =>
    -- A retry from the start begins without a session.
    have hnone : c.session = none := clean before rfl strategy
    exact {
      multi := hc.multi
      waiting := by simp
      running := by simp
      target := hc.target
      queued := by simp [hnone]
      resumable := fun _ _ => ⟨Nat.succ_pos _, rfl⟩ }
  | request before after =>
    -- Only a MULTI Execution waits.
    have hmulti := hc.waiting (.inl before)
    exact {
      multi := hc.multi
      waiting := fun _ => hmulti
      running := by rcases after with rfl | rfl <;> simp
      target := hc.target
      queued := fun _ _ => .inl hmulti
      resumable := fun _ => resumable (by rw [before]; rfl) rfl le_rfl rfl }
  | claim before admission after =>
    -- The claim sets the Target, whatever it was.
    have hopen : c.status.isOpen = true := by
      rcases before with h | h <;> rw [h] <;> rfl
    exact {
      multi := hc.multi
      waiting := by simp
      running := fun _ => after
      target := fun _ => after
      queued := by simp
      resumable := fun _ => resumable hopen rfl le_rfl rfl }
  | record before =>
    exact {
      multi := hc.multi
      waiting := hc.waiting
      running := hc.running
      -- A session is recorded under the Target of the run.
      target := fun _ => hc.running before
      queued := by simp [before]
      resumable := fun _ => resumable (by rw [before]; rfl) rfl le_rfl rfl }
  | wait before waits =>
    exact {
      multi := hc.multi
      waiting := fun _ => hc.multi waits
      running := by simp
      target := hc.target
      queued := by simp
      resumable := fun _ => resumable (by rw [before]; rfl) rfl le_rfl rfl }
  | defer before strategy =>
    exact {
      multi := hc.multi
      waiting := by simp
      running := by simp
      target := hc.target
      queued := fun _ _ => .inr strategy
      resumable := fun _ => resumable (by rw [before]; rfl) rfl le_rfl rfl }
  | @close status session strategy retryFrom after session_ =>
    -- The end of a run leaves the session to the retry, or clears it.
    have hclosed : status.isOpen = false := by
      cases status <;> first | rfl | cases after
    exact {
      multi := hc.multi
      waiting := by rintro (rfl | rfl) <;> cases after
      running := by rintro rfl; cases after
      target := by
        rcases session_ with rfl | rfl
        · exact hc.target
        · simp
      queued := by rintro rfl; cases after
      -- A closed row is not open.
      resumable := by simp [hclosed] }

/-! ### Refinement -/

namespace Tables

/-- The session columns of the Execution. -/
def sessionColumns (t : Tables) : SessionColumns :=
  t.execution.sessionColumns

/-- An end that clears the session under a condition. -/
theorem kept_or_cleared (p : Prop) [Decidable p] (session : Option SessionId) :
    (if p then none else session) = session ∨ (if p then none else session) = none := by
  split
  · exact .inr rfl
  · exact .inl rfl

/-- A change that keeps the session columns. -/
theorem sessionMove_of_eq {admitted : Bool} {t : Tables} {c : Change}
    (h : c.tables.sessionColumns = t.sessionColumns) :
    SessionMove admitted t.sessionColumns c.tables.sessionColumns := by
  rw [h]
  exact .stay

theorem sessionColumns_of_sameButNotebook {e e' : ExecutionRow} (h : SameButNotebook e e') :
    e'.sessionColumns = e.sessionColumns := by
  unfold SameButNotebook at h
  rw [h]
  rfl

@[simp] theorem sessionColumns_markAttemptPending (t : Tables) :
    t.markAttemptPending.sessionColumns = t.sessionColumns := by
  unfold markAttemptPending
  split <;> rfl

theorem sessionColumns_abandoned (now : Time) (t : Tables) :
    (t.abandoned now).sessionColumns = { t.sessionColumns with
      status := .failed
      strategy := if t.execution.operationMode = .multi then .notRetryable else .fromStart
      retryFrom := if (if t.execution.operationMode = .multi then RetryStrategy.notRetryable
        else .fromStart) = .fromStart then some 0 else none } := by
  simp only [abandoned, failRunningSteps, failRunningStepAttempts, failExpired, sessionColumns,
    invalidateNotebook]
  split <;> rfl

theorem sessionMove_retry {admitted : Bool} {now : Time} {operationId : UUID}
    {fromSequence : ℕ} {t : Tables} (h : Retryable now operationId fromSequence t.execution) :
    SessionMove admitted t.sessionColumns (retriedRow now t.execution).sessionColumns := by
  rcases h.strategy with ⟨strategy, resumable, from_⟩ | ⟨strategy, _, _⟩
  · have hrow : (retriedRow now t.execution).sessionColumns =
        { t.sessionColumns with status := .queued, retries := t.sessionColumns.retries + 1 } := by
      simp [retriedRow, strategy, saveExecution, Execution.requeued, sessionColumns,
        ExecutionRow.sessionColumns]
    simp only [Execution.hasResumableSession, Bool.and_eq_true] at resumable
    rw [hrow]
    exact .resume h.failed strategy resumable.1.2 resumable.1.1.1
  · have hrow : (retriedRow now t.execution).sessionColumns =
        { t.sessionColumns with
          status := .queued
          retryFrom := some 0
          retries := t.sessionColumns.retries + 1 } := by
      simp [retriedRow, strategy, saveExecution, Execution.requeued, Execution.forgetSession,
        sessionColumns, ExecutionRow.sessionColumns]
    rw [hrow]
    exact .restart h.failed strategy

theorem sessionMove_claim {settings : Settings} {now : Time} {worker : WorkerId}
    {attemptId : UUID} {view : ClaimView} {t : Tables} {c : Change}
    (h : t.claim settings now worker attemptId view = .ok c) :
    SessionMove view.admissionIsActive t.sessionColumns c.tables.sessionColumns := by
  cases claim_ok h with
  | idle => exact .stay
  | waiting claimable _ _ target =>
    exact .claim claimable.status claimable.admission (congrArg Option.isSome target)
  | resumed claimable => exact .claim claimable.status claimable.admission rfl
  | started claimable => exact .claim claimable.status claimable.admission rfl
  | unavailable claimable => exact .close rfl (.inl rfl)

theorem sessionMove_fenceExpiredLease {admitted : Bool} {now : Time} {view : ClaimView}
    {t : Tables} {c : Change} (h : t.fenceExpiredLease now view = .ok c) :
    SessionMove admitted t.sessionColumns c.tables.sessionColumns := by
  cases fenceExpiredLease_ok h with
  | idle => exact .stay
  | handedOver expired handover followable tables lease events =>
    exact sessionMove_of_eq (by rw [tables]; rfl)
  | failed expired handover steps =>
    have hclosed : ((((t.abandoned now).skipPendingSteps now).failExpiredOperation now
        t.runningAttempt?).1).sessionColumns = (t.abandoned now).sessionColumns := rfl
    rw [hclosed, sessionColumns_abandoned]
    exact .close rfl (.inl rfl)

end Tables

/-- The admission a claim read. -/
def TableTransaction.admitted : TableTransaction → Bool
  | .claim _ _ _ view => view.admissionIsActive
  | _ => false

open Tables in
/-- Every transaction is a move of the session protocol. -/
theorem sessionMove_of_change {settings : Settings} {r : Rows} {tx : TableTransaction}
    {c : Change} (h : tx.change settings r = .ok c) :
    SessionMove tx.admitted r.tables.sessionColumns c.tables.sessionColumns := by
  cases tx with
  | cancel now key reason =>
    obtain ⟨t, ht, rfl⟩ := Txn.quiet_ok.mp h
    rcases cancel_ok ht with rfl | ⟨hopen, _, rfl⟩
    · exact .stay
    · exact .requestCancel hopen
  | retry now key =>
    obtain ⟨t, ht, rfl⟩ := Txn.quiet_ok.mp h
    -- The retry begins at the failed Step or at the start.
    rcases retry_ok ht with rfl | ⟨operationId, fromSequence, retryable, _, rfl⟩
    · exact .stay
    · exact sessionMove_retry retryable
  | createOperation now command =>
    obtain ⟨t, ht, rfl⟩ := Txn.quiet_ok.mp h
    rcases createOperation_ok ht with rfl | ⟨_, hwaiting, operation, steps, _, _, _, _, _, rfl⟩
    · exact .stay
    · -- It goes on with the session of the run.
      exact .request hwaiting (.inl rfl)
  | finalizeCommand now key fingerprint expectedVersion =>
    obtain ⟨t, ht, rfl⟩ := Txn.quiet_ok.mp h
    rcases finalizeCommand_ok ht with rfl | ⟨_, hwaiting, rfl⟩
    · exact .stay
    · exact .request hwaiting (.inr rfl)
  | claim now worker attemptId view => exact sessionMove_claim h
  | claimHandover now worker view =>
    cases h
    refine sessionMove_of_eq ?_
    rcases claimHandover_cases settings now worker view r.tables with
      -- A handover changes nobody's session.
      h | ⟨_, _, h | ⟨attempt, _, h⟩⟩ <;> rw [h] <;> rfl
  | claimCancellation now worker =>
    cases h
    refine sessionMove_of_eq ?_
    rcases claimCancellation_cases settings now worker r.tables with h | ⟨_, ⟨_, h⟩ | h⟩ <;>
      rw [h] <;> rfl
  | renewExecution now lease =>
    obtain ⟨t, ht, rfl⟩ := Txn.quiet_ok.mp h
    obtain ⟨_, rfl⟩ := renewExecution_ok ht
    exact .stay
  | renewCancellation now lease =>
    obtain ⟨t, ht, rfl⟩ := Txn.quiet_ok.mp h
    obtain ⟨_, rfl⟩ := renewCancellation_ok ht
    exact .stay
  | assertExecution clock lease allowed =>
    obtain ⟨_, rfl⟩ := assertExecution_ok h
    exact .stay
  | ensureCount clock lease cellCount =>
    obtain ⟨_, rfl⟩ := ensureCount_ok h
    exact .stay
  | recordRuntimeSession clock lease sessionId workspace notebook =>
    obtain ⟨active, rfl⟩ := recordRuntimeSession_ok h
    -- The session of the run.
    exact .record (status_running active)
  | markStarted clock lease sequence historyId requestId baseline =>
    obtain ⟨_, _, _, step, _, tables, _⟩ := markStarted_ok h
    exact sessionMove_of_eq (by rw [tables]; rfl)
  | markSubmitted clock lease requestId =>
    obtain ⟨_, rfl⟩ := markSubmitted_ok h
    exact .stay
  | recordHandoverCompleted clock lease sequence handover finished =>
    obtain ⟨_, step, _, tables, _⟩ := recordHandoverCompleted_ok h
    exact sessionMove_of_eq (by rw [tables])
  | markSucceeded clock lease sequence stored =>
    obtain ⟨_, step, _, tables, _⟩ := markSucceeded_ok h
    exact sessionMove_of_eq (by rw [tables]; rfl)
  | markFailed clock lease sequence stored message retryable =>
    obtain ⟨_, step, _, tables, _⟩ := markFailed_ok h
    exact sessionMove_of_eq (by rw [tables]; rfl)
  | recordInterruptedResult clock lease sequence stored =>
    obtain ⟨_, step, rfl⟩ := recordInterruptedResult_ok h
    exact sessionMove_of_eq (sessionColumns_of_sameButNotebook
      (invalidateNotebook_same "Step interruption" r.tables.execution))
  | completeOperation clock lease operationId status message failureType =>
    obtain ⟨active, rfl | ⟨operation, seconds, _, _, hwaits, _, rfl⟩⟩ := completeOperation_ok h
    · exact .stay
    · -- The run waits with its session.
      refine .wait (status_running active) ?_
      simp [sessionColumns, ExecutionRow.sessionColumns, hwaits]
  | skipStepsAfter clock lease operationId sequence =>
    obtain ⟨_, rfl⟩ := skipStepsAfter_ok h
    exact .stay
  | beginProjection clock lease =>
    obtain ⟨_, e, same, rfl⟩ := beginProjection_ok h
    exact sessionMove_of_eq (sessionColumns_of_sameButNotebook same)
  | recordProjection clock lease status count message =>
    obtain ⟨_, e, same, rfl⟩ := recordProjection_ok h
    exact sessionMove_of_eq (sessionColumns_of_sameButNotebook same)
  | persistNotebook clock lease notebook =>
    obtain ⟨_, artifacts, rfl⟩ := persistNotebook_ok h
    exact .stay
  | persistArtifacts clock lease sequence allow artifacts =>
    obtain ⟨_, artifacts, rfl⟩ := persistArtifacts_ok h
    exact .stay
  | recordRuntimeAbort clock lease abort cleanup failureType =>
    obtain ⟨_, rfl⟩ := recordRuntimeAbort_ok h
    exact .stay
  | deferRetainedRetry clock lease =>
    obtain ⟨t, ht, rfl⟩ := Txn.quiet_ok.mp h
    obtain ⟨a, ha, rfl | ⟨strategy, rfl⟩⟩ := deferRetainedRetry_ok ht
    · exact .stay
    · -- The retained retry is put off, with its session.
      exact .defer (status_running ⟨a, ha⟩) strategy
  | releaseForCancellation clock lease =>
    obtain ⟨_, rfl⟩ := releaseForCancellation_ok h
    exact .stay
  | releaseForHandover clock lease =>
    obtain ⟨_, rfl | ⟨stepAttempt, stepId, _, _, tables, _⟩⟩ := releaseForHandover_ok h
    · exact .stay
    · exact sessionMove_of_eq (by rw [tables]; rfl)
  | finalize clock lease request =>
    obtain ⟨_, attemptStatus, stepEvents, hstatus, _, _, tables, _⟩ := finalize_ok h
    -- The row is that of the request, whatever becomes of the Steps.
    have hcolumns : c.tables.sessionColumns =
        (finalizeExecution settings clock.now request r.tables.execution).sessionColumns := by
      rw [tables]
      simp only [finalizeSteps]
      split <;> rfl
    have hterminal : request.status.isTerminal = true := by
      rcases hstatus with ⟨hq, _⟩ | ⟨hq, _⟩ <;> rw [hq] <;> rfl
    rw [hcolumns]
    exact .close hterminal (kept_or_cleared _ _)
  | finalizeCancellation clock lease cleanup =>
    obtain ⟨_, stepEvents, _, _, tables, _⟩ := finalizeCancellation_ok h
    -- The session goes, or is kept for the clean-up.
    rw [tables]
    refine .close ?_ (kept_or_cleared _ _)
    simp only [cancelTables, cancelExecution]
    split <;> rfl
  | fenceExpiredLease now view => exact sessionMove_fenceExpiredLease h
  | failQueueTimeout now =>
    rcases failQueueTimeout_ok h with rfl | ⟨_, _, rfl⟩
    · exact .stay
    · exact .close rfl (.inl rfl)
  | requestExpiredCancellation now =>
    rcases requestExpiredCancellation_ok h with rfl | ⟨hs, rfl⟩
    · exact .stay
    · -- As for a caller.
      refine .requestCancel ?_
      rcases hs with hs | hs | hs <;>
        simp [sessionColumns, ExecutionRow.sessionColumns, hs, ExecutionStatus.isTerminal]
  | endWaitingExecution now observation finalizedBy =>
    rcases endWaitingExecution_ok h with rfl | ⟨hs, rfl | ⟨failureType, message, rfl⟩⟩
    · exact .stay
    · exact .request hs (.inr rfl)
    · exact .close rfl (kept_or_cleared _ _)
  | failWaitingExecution now observation failureType message =>
    rcases failWaitingExecution_ok h with rfl | ⟨_, rfl⟩
    · exact .stay
    · exact .close rfl (kept_or_cleared _ _)
  | cleanupExpired now =>
    rcases cleanupExpired_ok h with
      rfl | ⟨hexpired, ⟨hs, rfl⟩ | ⟨_, row, closed, events, rfl, hclosed, rfl⟩⟩
    · exact .stay
    · rw [sessionColumns_markAttemptPending]
      simp only [retentionExpired, Bool.and_eq_true, Bool.or_eq_true, beq_iff_eq] at hexpired
      -- A retained session that is not queued belongs to a failed Execution.
      have hfailed : r.tables.execution.status = .failed := hexpired.1.1.1.resolve_right hs
      have hterminal : r.tables.execution.status.isTerminal = true := by
        rw [hfailed]
        rfl
      exact .close hterminal (.inl rfl)
    · obtain ⟨rfl, rfl⟩ := Prod.mk.inj hclosed
      rw [sessionColumns_markAttemptPending]
      exact .close rfl (.inl rfl)
  | retryUnresolved now =>
    cases h
    refine sessionMove_of_eq ?_
    simp only [retryUnresolved]
    split
    · -- The Attempt has no session columns.
      rw [sessionColumns_markAttemptPending]
      rfl
    · rfl
  | recordResult now observation cleanup =>
    cases h
    rcases recordResult_cases observation cleanup now r.tables with hr | ⟨_, hs, hr⟩ <;>
      simp only [hr]
    · exact .stay
    · -- The session that was found belongs to an Execution that has ended.
      have hterminal : r.tables.execution.status.isTerminal = true := by
        rcases hs with hs | hs <;> rw [hs] <;> rfl
      exact .close hterminal (kept_or_cleared _ _)

/-! ### Histories -/

variable {settings : Settings}

theorem submit_held {now : Time} {command : SubmitExecutionCommand} {t : Tables}
    (h : submit settings now command = .ok t) :
    t.sessionColumns.Held ∧ t.sessionColumns.status = .queued ∧
      t.sessionColumns.session = none := by
  simp only [submit, Txn.bind_ok] at h
  obtain ⟨_, hvalid, _, _, _, _, steps, _, h⟩ := h
  have hmulti : command.operationWaitTimeoutSeconds.isSome = true →
      command.operationMode = .multi := by
    intro hwaits
    simp only [validateSubmit, Txn.bind_ok] at hvalid
    obtain ⟨_, _, hmode⟩ := hvalid
    cases hm : command.operationMode with
    | multi => rfl
    | single => simp [hm, hwaits] at hmode
  split at h
  · cases h
  · cases h
    exact ⟨⟨hmulti, by rintro (⟨⟨⟩⟩ | ⟨⟨⟩⟩), by rintro ⟨⟩, by rintro ⟨⟩, by rintro _ ⟨⟩,
      by rintro _ ⟨⟩⟩, rfl, rfl⟩

theorem History.sessionMove_step (h : History) (eventTime : Time) (tx : TableTransaction) :
    SessionMove tx.admitted h.rows.tables.sessionColumns
      (h.step settings (.table eventTime tx)).rows.tables.sessionColumns := by
  rcases History.step_table_or h settings eventTime tx with hstep | ⟨c, log, hchange, hstep⟩ <;>
    rw [hstep]
  · exact .stay
  · exact sessionMove_of_change hchange

end ExecutorService
