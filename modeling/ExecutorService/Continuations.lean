/-
The continuation an agent is offered.

The `operation_completed` event of a MULTI Operation carries the version of the
Execution and the deadline of its wait.  An agent sends that version with its next
Operation, so nothing that runs while the Execution waits may move it.

* `waiting_of_change` — a transaction that leaves the Execution waiting has just
  completed its Operation, or has touched neither version nor deadline;
* `continuation_honoured` — in every state the stored version and deadline are those
  of the latest event, and a create-operation with that version is accepted.
-/
import ExecutorService.LeaseFencing

namespace ExecutorService

/-- The continuation of an `operation_completed` event. -/
def EventPayload.continuation? : EventPayload → Option (Option Continuation)
  | .operationCompleted _ _ _ _ _ continuation _ => some continuation
  | _ => none

/-- The continuation of the latest `operation_completed` event. -/
def EventLog.latestContinuation (log : EventLog) : Option Continuation :=
  (log.history.filterMap (·.payload.continuation?)).getLast?.join

theorem validateExecutionEventPayload_continuation {p p' : EventPayload}
    (h : validateExecutionEventPayload p = .ok p') : p'.continuation? = p.continuation? := by
  have hsubject := validateExecutionEventPayload_subject h
  cases p with
  | operationCompleted =>
    simp only [validateExecutionEventPayload, Txn.bind_ok] at h
    obtain ⟨_, _, _, _, _, _, h⟩ := h
    repeat' split at h
    all_goals first | cases h; rfl | cases h
  | _ => cases p' <;> first | rfl | cases hsubject

/-! ### What keeps an Execution waiting -/

/-- The columns an agent's next Operation is checked against. -/
structure SameWait (t t' : Tables) : Prop where
  status : t'.execution.status = t.execution.status
  version : t'.execution.version = t.execution.version
  deadline : t'.execution.operationWaitExpiresAt = t.execution.operationWaitExpiresAt

/-- What a transaction may have done when it leaves the Execution waiting. -/
inductive WaitStep (t : Tables) (c : Change) : Prop
  | same (wait : SameWait t c.tables) (events : c.events.filterMap (·.continuation?) = [])
  | completed {deadline : Time}
      (wait : c.tables.execution.operationWaitExpiresAt = some deadline)
      (events : c.events.filterMap (·.continuation?) =
        [some ⟨c.tables.execution.version, deadline⟩])

namespace WaitStep

variable {t : Tables} {c : Change}

/-- A transaction of a running Execution that keeps its status. -/
theorem running (hwaiting : c.tables.execution.status = .waitingForOperation)
    (hbefore : t.execution.status = .running)
    (hsame : c.tables.execution.status = t.execution.status) : WaitStep t c :=
  absurd (hbefore.symm.trans (hsame.symm.trans hwaiting)) (by decide)

end WaitStep

/-- The event of a completed Operation carries the version and the deadline it leaves. -/
theorem Tables.operationEnded_continuation {now : Time} {attemptId operationId : UUID}
    {status : OperationStatus} {message : Option String} {failureType : Option FailureType}
    {seconds : Time} {t : Tables} {operation : OperationRow}
    (hfound : t.operation? operationId = some operation) :
    ∃ deadline, (t.operationEnded now attemptId operationId status message failureType
        seconds).execution.operationWaitExpiresAt = some deadline ∧
      ((t.operationEnded now attemptId operationId status message failureType
        seconds).addOperationCompletedEvent operationId).filterMap (·.continuation?) =
        [some ⟨(t.operationEnded now attemptId operationId status message failureType
          seconds).execution.version, deadline⟩] := by
  refine ⟨_, rfl, ?_⟩
  have hfound : t.operations.find? (·.id == operationId) = some operation := hfound
  have hafter : ((t.operationEnded now attemptId operationId status message failureType
      seconds).operation? operationId).isSome = true := by
    have hid := List.find?_some hfound
    exact List.find?_isSome.mpr ⟨_, List.mem_updateWhere.mpr
      (.inl ⟨operation, List.mem_of_find?_eq_some hfound, hid, rfl⟩), hid⟩
  obtain ⟨row, hrow⟩ := Option.isSome_iff_exists.mp hafter
  rw [addOperationCompletedEvent, hrow]
  rfl

open Tables in
/-- A transaction that leaves the Execution waiting has just completed its Operation, or
touched neither the version nor the deadline. -/
theorem waiting_of_change {settings : Settings} {r : Rows} {tx : TableTransaction} {c : Change}
    (h : tx.change settings r = .ok c)
    (hwaiting : c.tables.execution.status = .waitingForOperation) : WaitStep r.tables c := by
  -- Under its lease the Execution is RUNNING, so that it does not wait afterwards either.
  have held : ∀ {clock : Clock} {lease : ExecutionLease},
      (∃ a, r.tables.requireActiveLease clock.lease lease = .ok a) →
      c.tables.execution.status = r.tables.execution.status → WaitStep r.tables c := by
    rintro clock lease ⟨a, ha⟩ hsame
    exact .running hwaiting (requireActiveLease_running ha) hsame
  cases tx with
  | cancel now key reason =>
    obtain ⟨t, ht, rfl⟩ := Txn.quiet_ok.mp h
    rcases cancel_ok ht with rfl | ⟨hopen, _, rfl⟩
    · exact .same ⟨rfl, rfl, rfl⟩ rfl
    · -- Another status than WAITING_FOR_OPERATION.
      cases hwaiting
  | retry now key =>
    obtain ⟨t, ht, rfl⟩ := Txn.quiet_ok.mp h
    rcases retry_ok ht with rfl | ⟨operationId, fromSequence, retryable, _, rfl⟩
    · exact .same ⟨rfl, rfl, rfl⟩ rfl
    · simp [retriedRow, saveExecution, Execution.requeued] at hwaiting
  | createOperation now command =>
    obtain ⟨t, ht, rfl⟩ := Txn.quiet_ok.mp h
    rcases createOperation_ok ht with rfl | ⟨_, _, operation, steps, _, _, _, _, _, rfl⟩
    · exact .same ⟨rfl, rfl, rfl⟩ rfl
    · -- It is QUEUED for the new Operation.
      cases hwaiting
  | finalizeCommand now key fingerprint expectedVersion =>
    obtain ⟨t, ht, rfl⟩ := Txn.quiet_ok.mp h
    rcases finalizeCommand_ok ht with rfl | ⟨_, _, rfl⟩
    · exact .same ⟨rfl, rfl, rfl⟩ rfl
    · -- It is FINALIZING.
      cases hwaiting
  | claim now worker attemptId view =>
    cases claim_ok h with
    | idle => exact .same ⟨rfl, rfl, rfl⟩ rfl
    -- After a claim it is RUNNING.
    | waiting => cases hwaiting
    | resumed => cases hwaiting
    | started => cases hwaiting
    | unavailable => cases hwaiting
  | claimHandover now worker view =>
    cases h
    rcases claimHandover_cases settings now worker view r.tables with
      hc | ⟨hrunning, _, hc | ⟨attempt, _, hc⟩⟩
    · rw [hc]
      exact .same ⟨rfl, rfl, rfl⟩ rfl
    · rw [hc]
      exact .same ⟨rfl, rfl, rfl⟩ rfl
    · -- A handover keeps the status.
      exact .running hwaiting hrunning (by rw [hc]; rfl)
  | claimCancellation now worker =>
    cases h
    rcases claimCancellation_cases settings now worker r.tables with
      hc | ⟨_, ⟨_, hc⟩ | hc⟩ <;> rw [hc] <;> exact .same ⟨rfl, rfl, rfl⟩ rfl
  | renewExecution now lease =>
    obtain ⟨t, ht, rfl⟩ := Txn.quiet_ok.mp h
    obtain ⟨_, rfl⟩ := renewExecution_ok ht
    exact .same ⟨rfl, rfl, rfl⟩ rfl
  | renewCancellation now lease =>
    obtain ⟨t, ht, rfl⟩ := Txn.quiet_ok.mp h
    obtain ⟨_, rfl⟩ := renewCancellation_ok ht
    exact .same ⟨rfl, rfl, rfl⟩ rfl
  | assertExecution clock lease allowed =>
    obtain ⟨_, rfl⟩ := assertExecution_ok h
    exact .same ⟨rfl, rfl, rfl⟩ rfl
  | ensureCount clock lease cellCount =>
    obtain ⟨_, rfl⟩ := ensureCount_ok h
    exact .same ⟨rfl, rfl, rfl⟩ rfl
  | recordRuntimeSession clock lease sessionId workspace notebook =>
    obtain ⟨active, rfl⟩ := recordRuntimeSession_ok h
    exact held active rfl
  | markStarted clock lease sequence historyId requestId baseline =>
    obtain ⟨active, _, _, step, _, tables, _, _⟩ := markStarted_ok h
    exact held active (by rw [tables]; rfl)
  | markSubmitted clock lease requestId =>
    obtain ⟨active, rfl⟩ := markSubmitted_ok h
    exact held active rfl
  | recordHandoverCompleted clock lease sequence handover finished =>
    obtain ⟨active, step, _, tables, _, _⟩ := recordHandoverCompleted_ok h
    exact held active (by rw [tables])
  | markSucceeded clock lease sequence stored =>
    obtain ⟨active, step, _, tables, _, _⟩ := markSucceeded_ok h
    exact held active (by rw [tables]; rfl)
  | markFailed clock lease sequence stored message retryable =>
    obtain ⟨active, step, _, tables, _, _⟩ := markFailed_ok h
    exact held active (by rw [tables]; rfl)
  | recordInterruptedResult clock lease sequence stored =>
    obtain ⟨_, step, rfl⟩ := recordInterruptedResult_ok h
    have hrow := invalidateNotebook_same "Step interruption" r.tables.execution
    unfold SameButNotebook at hrow
    exact .same ⟨by rw [hrow], by rw [hrow], by rw [hrow]⟩ rfl
  | completeOperation clock lease operationId status message failureType =>
    obtain ⟨active, rfl | ⟨operation, seconds, hfound, _, _, _, rfl⟩⟩ := completeOperation_ok h
    · exact .same ⟨rfl, rfl, rfl⟩ rfl
    · -- This is where an Execution begins to wait, and the event offers the continuation.
      obtain ⟨deadline, hdeadline, hevents⟩ := operationEnded_continuation hfound
      exact .completed hdeadline hevents
  | skipStepsAfter clock lease operationId sequence =>
    obtain ⟨active, rfl⟩ := skipStepsAfter_ok h
    exact held active rfl
  | beginProjection clock lease =>
    obtain ⟨active, e, same, rfl⟩ := beginProjection_ok h
    unfold SameButNotebook at same
    exact held active (by rw [same])
  | recordProjection clock lease status count message =>
    obtain ⟨active, e, same, rfl⟩ := recordProjection_ok h
    unfold SameButNotebook at same
    exact held active (by rw [same])
  | persistNotebook clock lease notebook =>
    obtain ⟨_, artifacts, rfl⟩ := persistNotebook_ok h
    exact .same ⟨rfl, rfl, rfl⟩ rfl
  | persistArtifacts clock lease sequence allow artifacts =>
    obtain ⟨_, artifacts, rfl⟩ := persistArtifacts_ok h
    exact .same ⟨rfl, rfl, rfl⟩ rfl
  | recordRuntimeAbort clock lease abort cleanup failureType =>
    obtain ⟨active, rfl⟩ := recordRuntimeAbort_ok h
    exact held active rfl
  | deferRetainedRetry clock lease =>
    obtain ⟨t, ht, rfl⟩ := Txn.quiet_ok.mp h
    obtain ⟨a, ha, rfl | ⟨_, rfl⟩⟩ := deferRetainedRetry_ok ht
    · exact .same ⟨rfl, rfl, rfl⟩ rfl
    · -- It is QUEUED again.
      cases hwaiting
  | releaseForCancellation clock lease =>
    obtain ⟨_, rfl⟩ := releaseForCancellation_ok h
    exact .same ⟨rfl, rfl, rfl⟩ rfl
  | releaseForHandover clock lease =>
    obtain ⟨active, rfl | ⟨stepAttempt, stepId, _, _, tables, _, _⟩⟩ := releaseForHandover_ok h
    · exact .same ⟨rfl, rfl, rfl⟩ rfl
    · exact held active (by rw [tables]; rfl)
  | finalize clock lease request =>
    obtain ⟨_, attemptStatus, stepEvents, hstatus, _, _, tables, _⟩ := finalize_ok h
    -- The end of a run is terminal.
    have hrow : c.tables.execution.status = request.status := by
      rw [tables, finalizeSteps]
      split <;> rfl
    rw [hrow] at hwaiting
    rcases hstatus with ⟨hq, _⟩ | ⟨hq, _⟩ <;> rw [hq] at hwaiting <;> cases hwaiting
  | finalizeCancellation clock lease cleanup =>
    obtain ⟨_, stepEvents, _, _, tables, _⟩ := finalizeCancellation_ok h
    -- A cancellation ends in CANCELLED or FAILED.
    rw [tables] at hwaiting
    simp only [cancelTables, cancelExecution] at hwaiting
    split at hwaiting <;> cases hwaiting
  | fenceExpiredLease now view =>
    cases fenceExpiredLease_ok h with
    | idle => exact .same ⟨rfl, rfl, rfl⟩ rfl
    | handedOver expired _ _ tables _ _ =>
      -- An expired lease is one of a RUNNING Execution.
      have hrunning : r.tables.execution.status = .running := by
        simp only [leaseExpired, Bool.and_eq_true, beq_iff_eq] at expired
        exact expired.1
      exact .running hwaiting hrunning (by rw [tables]; rfl)
    | failed =>
      -- A lost run ends in FAILED.
      simp only [failExpiredOperation, closeActiveOperation, skipPendingSteps, abandoned,
        failRunningStepAttempts, failRunningSteps, failExpired, invalidateNotebook] at hwaiting
      split at hwaiting <;> cases hwaiting
  | failQueueTimeout now =>
    rcases failQueueTimeout_ok h with rfl | ⟨_, _, rfl⟩
    · exact .same ⟨rfl, rfl, rfl⟩ rfl
    · cases hwaiting
  | requestExpiredCancellation now =>
    rcases requestExpiredCancellation_ok h with rfl | ⟨_, rfl⟩
    · exact .same ⟨rfl, rfl, rfl⟩ rfl
    · cases hwaiting
  | endWaitingExecution now observation finalizedBy =>
    rcases endWaitingExecution_ok h with rfl | ⟨_, rfl | ⟨failureType, message, rfl⟩⟩
    · exact .same ⟨rfl, rfl, rfl⟩ rfl
    · -- The wait is over.
      cases hwaiting
    · cases hwaiting
  | failWaitingExecution now observation failureType message =>
    rcases failWaitingExecution_ok h with rfl | ⟨_, rfl⟩
    · exact .same ⟨rfl, rfl, rfl⟩ rfl
    · cases hwaiting
  | cleanupExpired now =>
    -- The Attempt does not matter here.
    have hpending : ∀ t : Tables, t.markAttemptPending.execution = t.execution := by
      intro t
      unfold markAttemptPending
      split <;> rfl
    rcases cleanupExpired_ok h with rfl | ⟨hexpired, ⟨hqueued, rfl⟩ |
      ⟨_, row, closed, events, rfl, hclosed, rfl⟩⟩
    · exact .same ⟨rfl, rfl, rfl⟩ rfl
    · -- A retained session is one of a FAILED or QUEUED Execution.
      rw [hpending] at hwaiting
      replace hwaiting : r.tables.execution.status = .waitingForOperation := hwaiting
      simp [retentionExpired, hwaiting] at hexpired
    · obtain ⟨rfl, rfl⟩ := Prod.mk.inj hclosed
      rw [hpending] at hwaiting
      cases hwaiting
  | retryUnresolved now =>
    cases h
    simp only [retryUnresolved] at hwaiting ⊢
    split at hwaiting
    · -- An unresolved session is one of an Execution that has ended.
      rename_i hguard
      have hpending : ∀ t : Tables, t.markAttemptPending.execution = t.execution := by
        intro t
        unfold markAttemptPending
        split <;> rfl
      rw [hpending] at hwaiting
      replace hwaiting : r.tables.execution.status = .waitingForOperation := hwaiting
      rw [hwaiting] at hguard
      simp at hguard
    · rename_i hguard
      simp only [if_neg hguard]
      exact .same ⟨rfl, rfl, rfl⟩ rfl
  | recordResult now observation cleanup =>
    cases h
    rcases recordResult_cases observation cleanup now r.tables with hr | ⟨_, hstatus, hr⟩
    · simp only [hr]
      exact .same ⟨rfl, rfl, rfl⟩ rfl
    · rw [hr] at hwaiting
      replace hwaiting : r.tables.execution.status = .waitingForOperation := hwaiting
      -- The session's end is observed of an Execution that has ended.
      rw [hwaiting] at hstatus
      rcases hstatus with hno | hno <;> cases hno

/-! ### The continuation -/

/-- A waiting Execution is where the latest event says. -/
def Rows.Advertised (r : Rows) : Prop :=
  r.tables.execution.status = .waitingForOperation → ∃ deadline,
    r.tables.execution.operationWaitExpiresAt = some deadline ∧
      r.log.latestContinuation = some ⟨r.tables.execution.version, deadline⟩

variable {settings : Settings}

theorem History.advertised_step {h : History} (ha : h.rows.Advertised) (tx : Transaction) :
    (h.step settings tx).rows.Advertised := by
  cases tx with
  | log tx =>
    intro hwaiting
    obtain ⟨deadline, hdeadline, hlatest⟩ := ha hwaiting
    refine ⟨deadline, hdeadline, ?_⟩
    rw [EventLog.latestContinuation, History.step, LogTransaction.apply_history]
    exact hlatest
  | table eventTime tx =>
    rcases (History.step_table : h.step settings (.table eventTime tx) = h ∨ _) with
      hstep | ⟨c, log, hchange, hlog, hstep⟩
    · rw [hstep]
      exact ha
    · rw [hstep]
      intro hwaiting
      obtain ⟨rows, hrows, rfl⟩ :=
        EventLog.persistAll_map validateExecutionEventPayload_continuation hlog
      have happended : rows.filterMap (·.payload.continuation?) =
          c.events.filterMap (·.continuation?) := by
        have hfilter : ∀ {α : Type} (g : α → Option (Option Continuation)) (l : List α),
            l.filterMap g = (l.map g).filterMap id :=
          fun g l => (List.filterMap_map (f := g) (g := id)).symm
        calc rows.filterMap (·.payload.continuation?)
            = (rows.map (·.payload.continuation?)).filterMap id := hfilter _ _
          _ = (c.events.map (·.continuation?)).filterMap id := by rw [hrows]
          _ = c.events.filterMap (·.continuation?) := (hfilter _ _).symm
      rcases waiting_of_change hchange hwaiting with ⟨wait, hnone⟩ | ⟨hdeadline, hone⟩
      · obtain ⟨deadline, hdeadline, hlatest⟩ := ha (wait.status.symm.trans hwaiting)
        refine ⟨deadline, wait.deadline.trans hdeadline, ?_⟩
        rw [EventLog.latestContinuation, EventLog.append, List.filterMap_append, happended, hnone,
          List.append_nil, wait.version]
        exact hlatest
      · refine ⟨_, hdeadline, ?_⟩
        rw [EventLog.latestContinuation, EventLog.append, List.filterMap_append, happended, hone,
          List.getLast?_concat]
        rfl

theorem continuation_honoured (s : Submission settings) (txs : List Transaction)
    (hmulti : (s.run txs).rows.tables.execution.operationMode = .multi)
    (hwaiting : (s.run txs).rows.tables.execution.status = .waitingForOperation) :
    ∃ continuation, (s.run txs).rows.log.latestContinuation = some continuation ∧
      continuation.expectedVersion = (s.run txs).rows.tables.execution.version ∧
      (s.run txs).rows.tables.execution.operationWaitExpiresAt = some continuation.expiresAt ∧
      ∀ now, ∃ e, (s.run txs).rows.tables.execution.toExecution.requestOperation now
        continuation.expectedVersion = .ok e := by
  have hadvertised : (s.run txs).rows.Advertised := by
    refine Transition.invariant_of_step (I := fun h : History => h.rows.Advertised)
      (fun h tx ha => History.advertised_step ha tx) ?_ txs
    intro hno
    replace hno : s.tables.execution.status = .waitingForOperation := hno
    rw [(submit_execution s.accepted).2.2.2] at hno
    cases hno
  obtain ⟨deadline, hdeadline, hlatest⟩ := hadvertised hwaiting
  refine ⟨_, hlatest, rfl, hdeadline, fun now => ?_⟩
  rw [Execution.requestOperation, if_neg (not_not.mpr hmulti), if_neg (not_not.mpr hwaiting),
    if_neg (not_not.mpr rfl), hwaiting]
  exact ⟨_, rfl⟩

/-- A first run whose Operation fails, after which the Execution waits. -/
def Small.failedOperationRun : List Transaction :=
  Small.failedRun ++ [.table 6 (.completeOperation (Small.clock 6) (Small.lease 20 1) 10 .failed
    (some "boom") (some .toolError))]

theorem continuation_honoured_failedOperationRun :
    ((Small.submission .multi).run Small.failedOperationRun).rows.tables.execution.status =
        .waitingForOperation ∧
      ∃ continuation,
        ((Small.submission .multi).run Small.failedOperationRun).rows.log.latestContinuation =
          some continuation ∧
        continuation.expectedVersion =
          ((Small.submission .multi).run Small.failedOperationRun).rows.tables.execution.version ∧
        ((Small.submission .multi).run
          Small.failedOperationRun).rows.tables.execution.operationWaitExpiresAt =
            some continuation.expiresAt ∧
        ∀ now, ∃ e, ((Small.submission .multi).run
          Small.failedOperationRun).rows.tables.execution.toExecution.requestOperation now
            continuation.expectedVersion = .ok e :=
  ⟨by decide +kernel, continuation_honoured (Small.submission .multi) Small.failedOperationRun
    (by decide +kernel) (by decide +kernel)⟩

end ExecutorService
