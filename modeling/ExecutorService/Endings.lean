/-
What an ending reports.

The cancellation path serves two requests: a caller's cancel and the maximum-runtime
audit.  It tells them apart by `finalized_by`, a column that a finalize call and the
wait deadline write too.  Lease recovery takes the cause of a pending abort from the
failure type of the row.

* `Traced` — a history, with who entered CANCEL_REQUESTED last;
* `TruthfulEnd` — what the end of a cancellation and of an expired lease must report;
* `Untouched` — the condition on a step: a cancel finds no earlier finalization, and
  recovery no pending abort of an output limit;
* `endings_truthful` — in every run of such steps every end is reported truthfully.
-/
import ExecutorService.LeaseFencing
import ExecutorService.OperationEvents

namespace ExecutorService

/-- What moves an Execution to CANCEL_REQUESTED. -/
inductive Requester
  | caller | maxRuntimeAudit
  deriving DecidableEq, Repr

/-- Who asks for the cancellation. -/
def TableTransaction.requester : TableTransaction → Option Requester
  | .cancel .. => some .caller
  | .requestExpiredCancellation _ => some .maxRuntimeAudit
  | _ => none

/-- Who asks for the cancellation. -/
def Transaction.requester : Transaction → Option Requester
  | .table _ tx => tx.requester
  | .log _ => none

/-- A history and the requester of its latest cancellation. -/
structure Traced where
  history : History
  requester : Option Requester := none

/-- The row of the Execution. -/
def Traced.execution (s : Traced) : ExecutionRow :=
  s.history.rows.tables.execution

/-- A transaction; the first request for a cancellation is remembered. -/
def Traced.step (settings : Settings) (s : Traced) (tx : Transaction) : Traced where
  history := s.history.step settings tx
  requester :=
    if s.execution.status ≠ .cancelRequested ∧
        (s.history.step settings tx).rows.tables.execution.status = .cancelRequested then
      tx.requester
    else s.requester

/-- An Execution before any request. -/
def Submission.traced {settings : Settings} (s : Submission settings) : Traced where
  history := s.history

/-- A cause that a Runtime abort can be pending for. -/
def FailureType.isAbortCause : FailureType → Bool
  | .stepTimeout | .operationTimeout | .outputLimitExceeded => true
  | _ => false

/-- What a step that ends an Execution must report.  The cancellation path: a caller's
cancel ends CANCELLED, with no `finalized_by` in the row and in the event, and a
timeout is the audit's.  Lease recovery: a pending abort keeps its cause. -/
def TruthfulEnd (settings : Settings) (s : Traced) : Transaction → Prop
  | .table eventTime (.finalizeCancellation clock lease cleanup) =>
    ∀ r l, TableTransaction.commit settings eventTime s.history.rows
        (.finalizeCancellation clock lease cleanup) = .ok (r, l) →
      (s.requester = some .caller → r.tables.execution.status = .cancelled ∧
        r.tables.execution.finalizedBy = none ∧ ∃ summary retry error,
          r.log.history.getLast?.map (·.payload) =
            some (.completed .cancelled none summary retry error)) ∧
      (r.tables.execution.status = .failed ∧
        r.tables.execution.failureType = some .executionTimeout →
          s.requester = some .maxRuntimeAudit)
  | .table eventTime (.fenceExpiredLease now view) =>
    ∀ r l failureType, TableTransaction.commit settings eventTime s.history.rows
        (.fenceExpiredLease now view) = .ok (r, l) →
      Tables.leaseExpired now s.execution = true → s.execution.runtimeAbortStatus = .pending →
      s.execution.failureType = some failureType → failureType.isAbortCause = true →
      r.tables.execution.status = .failed ∧ r.tables.execution.failureType = some failureType
  | _ => True

/-- A cancel finds no earlier finalization; recovery finds no pending abort of an
output limit. -/
def Untouched (s : Traced) : Transaction → Prop
  | .table _ (.cancel ..) =>
    s.execution.status.isTerminal = false → s.execution.status ≠ .cancelRequested →
      s.execution.finalizedBy = none
  | .table _ (.fenceExpiredLease now _) => Tables.leaseExpired now s.execution = true →
      s.execution.runtimeAbortStatus = .pending →
        s.execution.failureType ≠ some .outputLimitExceeded
  | _ => True

/-! ### Steps -/

/-- What a transaction can do to a cancellation request and to a pending abort. -/
structure EndingStep (requester : Option Requester) (t t' : Tables) : Prop where
  requested : t'.execution.status = .cancelRequested →
    (t.execution.status = .cancelRequested ∧
      t'.execution.finalizedBy = t.execution.finalizedBy) ∨
    (t.execution.status ≠ .cancelRequested ∧
      ((requester = some .caller ∧ t.execution.status.isTerminal = false ∧
          t'.execution.finalizedBy = t.execution.finalizedBy) ∨
        (requester = some .maxRuntimeAudit ∧ t'.execution.finalizedBy = some .maxRuntime)))
  pending : t'.execution.runtimeAbortStatus = .pending → t'.handover ≠ none →
    t.execution.runtimeAbortStatus = .pending ∧ t.handover ≠ none

namespace EndingStep

variable {requester : Option Requester} {t t' : Tables}

theorem same (hstatus : t'.execution.status = t.execution.status)
    (hfinalized : t'.execution.finalizedBy = t.execution.finalizedBy)
    (habort : t'.execution.runtimeAbortStatus = .pending →
      t.execution.runtimeAbortStatus = .pending)
    (hhandover : t'.handover ≠ none → t.handover ≠ none) : EndingStep requester t t' :=
  ⟨fun hrequested => .inl ⟨hstatus.symm.trans hrequested, hfinalized⟩,
    fun hpending hreleased => ⟨habort hpending, hhandover hreleased⟩⟩

/-- The Execution is not waiting for a cancellation afterwards. -/
theorem leaves (hstatus : t'.execution.status ≠ .cancelRequested)
    (habort : t'.execution.runtimeAbortStatus = .pending →
      t.execution.runtimeAbortStatus = .pending)
    (hhandover : t'.handover ≠ none → t.handover ≠ none) : EndingStep requester t t' :=
  ⟨fun hrequested => absurd hrequested hstatus,
    fun hpending hreleased => ⟨habort hpending, hhandover hreleased⟩⟩

/-- Only columns of a notebook change. -/
theorem notebook {e : ExecutionRow} (h : Tables.SameButNotebook t.execution e)
    (hexecution : t'.execution = e) (hhandover : t'.handover = t.handover) :
    EndingStep requester t t' := by
  unfold Tables.SameButNotebook at h
  rw [h] at hexecution
  refine .same ?_ ?_ (fun hpending => ?_) fun hreleased => ?_
  · rw [hexecution]
  · rw [hexecution]
  · rw [hexecution] at hpending
    exact hpending
  · rw [← hhandover]
    exact hreleased

/-- A Step is released while no abort is pending. -/
theorem handOver (hstatus : t'.execution.status = t.execution.status)
    (hfinalized : t'.execution.finalizedBy = t.execution.finalizedBy)
    (habort : t'.execution.runtimeAbortStatus = t.execution.runtimeAbortStatus)
    (hnot : t.execution.runtimeAbortStatus ≠ .pending) : EndingStep requester t t' :=
  ⟨fun hrequested => .inl ⟨hstatus.symm.trans hrequested, hfinalized⟩,
    fun hpending => absurd (habort.symm.trans hpending) hnot⟩

end EndingStep

namespace Tables

theorem resolvedAbort_ne_pending (current : RuntimeAbortStatus)
    (cleanup : RuntimeSessionCleanupStatus) : resolvedAbort current cleanup ≠ .pending := by
  intro hpending
  rw [resolvedAbort] at hpending
  split at hpending
  · split at hpending <;> cases hpending
  · contradiction

theorem handOver_abort {now : Time} {view : ClaimView} {t : Tables} {change : Txn Change}
    (h : t.handOver now view = some change) : t.execution.runtimeAbortStatus ≠ .pending := by
  simp only [handOver] at h
  split at h
  · rename_i hguard
    simp only [Bool.and_eq_true, bne_iff_ne] at hguard
    exact hguard.2
  · cases h

theorem followableStep_abort {lease : ExecutionLease} {t : Tables} {stepAttempt : StepAttemptRow}
    (h : t.followableStep lease = some stepAttempt) :
    t.execution.runtimeAbortStatus ≠ .pending := by
  rw [followableStep, Option.filter_eq_some_iff] at h
  have hguard := h.2
  simp only [Bool.and_eq_true, bne_iff_ne] at hguard
  exact hguard.2

/-- The failure path of recovery: a row that fails with the cause it had. -/
theorem fence_failed_row (now : Time) (t : Tables) :
    (((t.abandoned now).skipPendingSteps now).failExpiredOperation now
      t.runningAttempt?).1.execution.status = .failed ∧
    (((t.abandoned now).skipPendingSteps now).failExpiredOperation now
      t.runningAttempt?).1.execution.failureType = some (recoveryFailureType t.execution) ∧
    (((t.abandoned now).skipPendingSteps now).failExpiredOperation now
      t.runningAttempt?).1.execution.runtimeAbortStatus = t.execution.runtimeAbortStatus ∧
    (((t.abandoned now).skipPendingSteps now).failExpiredOperation now
      t.runningAttempt?).1.handover = t.handover := by
  have hrow : ∀ e, (invalidateNotebook "Worker lease expiry" e).status = e.status ∧
      (invalidateNotebook "Worker lease expiry" e).failureType = e.failureType ∧
      (invalidateNotebook "Worker lease expiry" e).runtimeAbortStatus = e.runtimeAbortStatus := by
    intro e
    have hsame := invalidateNotebook_same "Worker lease expiry" e
    unfold SameButNotebook at hsame
    rw [hsame]
    exact ⟨rfl, rfl, rfl⟩
  exact ⟨(hrow _).1, (hrow _).2.1, (hrow _).2.2, rfl⟩

theorem endingStep_fenceExpiredLease {requester : Option Requester} {now : Time}
    {view : ClaimView} {t : Tables} {c : Change} (h : t.fenceExpiredLease now view = .ok c) :
    EndingStep requester t c.tables := by
  have houtcome := fenceExpiredLease_ok h
  simp only [fenceExpiredLease] at h
  cases houtcome with
  | idle => exact .same rfl rfl id id
  | handedOver expired handover followable tables lease events =>
    -- The Step was handed over, so `_hand_over` passed its guard.
    have habort : t.execution.runtimeAbortStatus ≠ .pending := by
      rw [if_neg (not_not.mpr expired), if_neg (by rw [handover]; exact Bool.false_ne_true)] at h
      split at h
      · rename_i change hchange
        exact handOver_abort hchange
      · simp only [Txn.bind_ok, Txn.pure_ok] at h
        obtain ⟨_, _, _, _, rfl⟩ := h
        have hreleased := congrArg Tables.handover tables
        rw [(fence_failed_row now t).2.2.2, handover] at hreleased
        cases hreleased
    rw [tables]
    exact .handOver rfl rfl rfl habort
  | failed expired handover steps =>
    obtain ⟨hstatus, _, habort, hhandover⟩ := fence_failed_row now t
    refine .leaves ?_ (fun hpending => habort.symm.trans hpending) fun hreleased => ?_
    · rw [hstatus]
      exact ExecutionStatus.noConfusion
    · rw [← hhandover]
      exact hreleased

theorem endingStep_markAttemptPending {requester : Option Requester} {t t' : Tables}
    (h : EndingStep requester t t') : EndingStep requester t t'.markAttemptPending := by
  unfold markAttemptPending
  split
  · exact h
  · exact ⟨h.requested, h.pending⟩

theorem endingStep_of_change {settings : Settings} {r : Rows} {tx : TableTransaction} {c : Change}
    (hs : r.tables.leaseColumns.Sound) (h : tx.change settings r = .ok c) :
    EndingStep tx.requester r.tables c.tables := by
  cases tx with
  | cancel now key reason =>
    obtain ⟨t, ht, rfl⟩ := Txn.quiet_ok.mp h
    rcases cancel_ok ht with rfl | ⟨hopen, hnot, rfl⟩
    · exact .same rfl rfl id id
    · -- The caller asks while the Execution is open and not yet cancelled.
      exact ⟨fun _ => .inr ⟨hnot, .inl ⟨rfl, hopen, rfl⟩⟩, fun hpending hreleased =>
        ⟨hpending, hreleased⟩⟩
  | retry now key =>
    obtain ⟨t, ht, rfl⟩ := Txn.quiet_ok.mp h
    rcases retry_ok ht with rfl | ⟨operationId, fromSequence, retryable, _, rfl⟩
    · exact .same rfl rfl id id
    · refine .leaves ?_ id id
      exact fun hno => nomatch hno
  | createOperation now command =>
    obtain ⟨t, ht, rfl⟩ := Txn.quiet_ok.mp h
    rcases createOperation_ok ht with rfl | ⟨_, _, operation, steps, _, _, _, _, _, rfl⟩
    · exact .same rfl rfl id id
    · -- It is QUEUED for the new Operation.
      exact .leaves ExecutionStatus.noConfusion id id
  | finalizeCommand now key fingerprint expectedVersion =>
    obtain ⟨t, ht, rfl⟩ := Txn.quiet_ok.mp h
    rcases finalizeCommand_ok ht with rfl | ⟨_, _, rfl⟩
    · exact .same rfl rfl id id
    · -- It is FINALIZING.
      exact .leaves ExecutionStatus.noConfusion id id
  | claim now worker attemptId view =>
    cases claim_ok h with
    | idle => exact .same rfl rfl id id
    -- Only a new Attempt clears the abort.
    | waiting claimable => exact .leaves ExecutionStatus.noConfusion (fun hno => nomatch hno) id
    | resumed claimable => exact .leaves ExecutionStatus.noConfusion (fun hno => nomatch hno) id
    | started claimable => exact .leaves ExecutionStatus.noConfusion (fun hno => nomatch hno) id
    | unavailable => exact .leaves ExecutionStatus.noConfusion id id
  | claimHandover now worker view =>
    cases h
    -- A handover that is taken over is no longer there.
    have hnone : (none : Option HandoverRow) ≠ none → r.tables.handover ≠ none :=
      fun hno => absurd rfl hno
    rcases claimHandover_cases settings now worker view r.tables with
      hc | ⟨_, _, hc | ⟨attempt, _, hc⟩⟩ <;> rw [hc]
    · exact .same rfl rfl id id
    · exact .same rfl rfl id hnone
    · exact .same rfl rfl id hnone
  | claimCancellation now worker =>
    cases h
    rcases claimCancellation_cases settings now worker r.tables with
      hc | ⟨_, ⟨_, hc⟩ | hc⟩ <;> rw [hc]
    · exact .same rfl rfl id id
    · exact .same rfl rfl id id
    · exact .same rfl rfl id fun hno => absurd rfl hno
  | renewExecution now lease =>
    obtain ⟨t, ht, rfl⟩ := Txn.quiet_ok.mp h
    obtain ⟨_, rfl⟩ := renewExecution_ok ht
    exact .same rfl rfl id id
  | renewCancellation now lease =>
    obtain ⟨t, ht, rfl⟩ := Txn.quiet_ok.mp h
    obtain ⟨_, rfl⟩ := renewCancellation_ok ht
    exact .same rfl rfl id id
  | assertExecution clock lease allowed =>
    obtain ⟨_, rfl⟩ := assertExecution_ok h
    exact .same rfl rfl id id
  | ensureCount clock lease cellCount =>
    obtain ⟨_, rfl⟩ := ensureCount_ok h
    exact .same rfl rfl id id
  | recordRuntimeSession clock lease sessionId workspace notebook =>
    obtain ⟨_, rfl⟩ := recordRuntimeSession_ok h
    exact .same rfl rfl id id
  | markStarted clock lease sequence historyId requestId baseline =>
    obtain ⟨_, _, _, step, _, tables, _, events⟩ := markStarted_ok h
    rw [tables]
    exact .same rfl rfl id id
  | markSubmitted clock lease requestId =>
    obtain ⟨_, rfl⟩ := markSubmitted_ok h
    exact .same rfl rfl id id
  | recordHandoverCompleted clock lease sequence handover finished =>
    obtain ⟨_, step, _, tables, _, events⟩ := recordHandoverCompleted_ok h
    rw [tables]
    exact .same rfl rfl id id
  | markSucceeded clock lease sequence stored =>
    obtain ⟨_, step, _, tables, _, events⟩ := markSucceeded_ok h
    rw [tables]
    exact .same rfl rfl id id
  | markFailed clock lease sequence stored message retryable =>
    obtain ⟨_, step, _, tables, _, events⟩ := markFailed_ok h
    rw [tables]
    exact .same rfl rfl id id
  | recordInterruptedResult clock lease sequence stored =>
    obtain ⟨_, step, rfl⟩ := recordInterruptedResult_ok h
    refine .notebook (invalidateNotebook_same _ _) rfl ?_
    cases stored <;> rfl
  | completeOperation clock lease operationId status message failureType =>
    obtain ⟨active, rfl | ⟨operation, seconds, hfound, hrunning, _, _, rfl⟩⟩ :=
      completeOperation_ok h
    · exact .same rfl rfl id id
    · -- The Execution waits.
      exact .leaves ExecutionStatus.noConfusion id id
  | skipStepsAfter clock lease operationId sequence =>
    obtain ⟨_, rfl⟩ := skipStepsAfter_ok h
    exact .same rfl rfl id id
  | beginProjection clock lease =>
    obtain ⟨_, e, same, rfl⟩ := beginProjection_ok h
    exact .notebook same rfl rfl
  | recordProjection clock lease status count message =>
    obtain ⟨_, e, same, rfl⟩ := recordProjection_ok h
    exact .notebook same rfl rfl
  | persistNotebook clock lease notebook =>
    obtain ⟨_, artifacts, rfl⟩ := persistNotebook_ok h
    exact .same rfl rfl id id
  | persistArtifacts clock lease sequence allow artifacts =>
    obtain ⟨_, artifacts, rfl⟩ := persistArtifacts_ok h
    exact .same rfl rfl id id
  | recordRuntimeAbort clock lease abort cleanup failureType =>
    -- The owner of a lease excludes a released Step.
    obtain ⟨active, rfl⟩ := recordRuntimeAbort_ok h
    have hreleased := (hs.owner (leaseOwner_ne_none active)).2
    have hhandover : r.tables.handover = none := by
      simpa [leaseColumns] using hreleased
    -- The abort is noted; there is no handed-over Step that it could be about.
    refine ⟨fun hrequested => .inl ⟨hrequested, rfl⟩, fun _ hno => ?_⟩
    exact absurd hhandover hno
  | deferRetainedRetry clock lease =>
    obtain ⟨t, ht, rfl⟩ := Txn.quiet_ok.mp h
    obtain ⟨a, ha, rfl | ⟨_, rfl⟩⟩ := deferRetainedRetry_ok ht
    · exact .same rfl rfl id id
    · exact .leaves ExecutionStatus.noConfusion id id
  | releaseForCancellation clock lease =>
    obtain ⟨_, rfl⟩ := releaseForCancellation_ok h
    exact .same rfl rfl id id
  | releaseForHandover clock lease =>
    obtain ⟨_, rfl | ⟨stepAttempt, stepId, hstep, _, tables, _, events⟩⟩ := releaseForHandover_ok h
    · exact .same rfl rfl id id
    · -- The Step that is handed over can be followed.
      rw [tables]
      exact .handOver rfl rfl rfl (followableStep_abort hstep)
  | finalize clock lease request =>
    obtain ⟨active, attemptStatus, stepEvents, hstatus, hsteps, hlease, tables, events⟩ :=
      finalize_ok h
    -- The rows of the Steps do not matter here.
    have hrow : c.tables.execution = finalizeExecution settings clock.now request
        r.tables.execution ∧ c.tables.handover = r.tables.handover := by
      rw [tables, finalizeSteps]
      split <;> exact ⟨rfl, rfl⟩
    refine .leaves ?_ ?_ (fun hreleased => hrow.2 ▸ hreleased)
    · rw [hrow.1]
      show request.status ≠ _
      rcases hstatus with ⟨hstatus, _⟩ | ⟨hstatus, _⟩
      · rw [hstatus]
        exact ExecutionStatus.noConfusion
      · rw [hstatus]
        exact ExecutionStatus.noConfusion
    · -- The end of a run resolves its abort.
      rw [hrow.1]
      exact fun hpending => absurd hpending (resolvedAbort_ne_pending _ _)
  | finalizeCancellation clock lease cleanup =>
    obtain ⟨active, stepEvents, hsteps, _, tables, events⟩ := finalizeCancellation_ok h
    rw [tables]
    refine .leaves ?_ ?_ id
    · -- A cancellation that is ended leaves the status.
      show (if timedOut r.tables.execution then ExecutionStatus.failed else .cancelled) ≠ _
      split <;> exact ExecutionStatus.noConfusion
    · exact fun hpending => absurd hpending (resolvedAbort_ne_pending _ _)
  | fenceExpiredLease now view => exact endingStep_fenceExpiredLease h
  | failQueueTimeout now =>
    rcases failQueueTimeout_ok h with rfl | ⟨_, _, rfl⟩
    · exact .same rfl rfl id id
    · exact .leaves ExecutionStatus.noConfusion id id
  | requestExpiredCancellation now =>
    rcases requestExpiredCancellation_ok h with rfl | ⟨hstatus, rfl⟩
    · exact .same rfl rfl id id
    · -- The audit asks while the Execution is open.
      refine ⟨fun _ => .inr ⟨?_, .inr ⟨rfl, rfl⟩⟩, fun hpending hreleased => ⟨hpending, hreleased⟩⟩
      rcases hstatus with hstatus | hstatus | hstatus <;> rw [hstatus] <;>
        exact ExecutionStatus.noConfusion
  | endWaitingExecution now observation finalizedBy =>
    rcases endWaitingExecution_ok h with rfl | ⟨_, rfl | ⟨failureType, message, rfl⟩⟩
    · exact .same rfl rfl id id
    · exact .leaves ExecutionStatus.noConfusion id id
    · exact .leaves ExecutionStatus.noConfusion id id
  | failWaitingExecution now observation failureType message =>
    rcases failWaitingExecution_ok h with rfl | ⟨_, rfl⟩
    · exact .same rfl rfl id id
    · exact .leaves ExecutionStatus.noConfusion id id
  | cleanupExpired now =>
    rcases cleanupExpired_ok h with rfl | ⟨_, ⟨_, rfl⟩ | ⟨_, row, closed, events, rfl, hclosed, rfl⟩⟩
    · exact .same rfl rfl id id
    · exact endingStep_markAttemptPending (.same rfl rfl id id)
    · obtain ⟨rfl, rfl⟩ := Prod.mk.inj hclosed
      exact endingStep_markAttemptPending (.leaves ExecutionStatus.noConfusion id id)
  | retryUnresolved now =>
    cases h
    simp only [retryUnresolved]
    split
    · exact endingStep_markAttemptPending (.same rfl rfl id id)
    · exact .same rfl rfl id id
  | recordResult now observation cleanup =>
    cases h
    rcases recordResult_cases observation cleanup now r.tables with hr | ⟨_, _, hr⟩ <;> rw [hr]
    · exact .same rfl rfl id id
    · -- The session's end resolves the abort.
      exact .same rfl rfl (fun hpending => absurd hpending (resolvedAbort_ne_pending _ _)) id

end Tables

/-! ### Runs -/

/-- The requester of a cancellation is known and agrees with `finalized_by`, and a
pending abort excludes a released Step. -/
structure Traced.Sound (s : Traced) : Prop where
  fenced : s.history.Fenced
  requested : s.execution.status = .cancelRequested →
    (s.requester = some .caller ∧ s.execution.finalizedBy = none) ∨
      (s.requester = some .maxRuntimeAudit ∧ s.execution.finalizedBy = some .maxRuntime)
  pending : s.execution.runtimeAbortStatus = .pending → s.history.rows.tables.handover = none

section

variable {settings : Settings}

theorem Submission.traced_sound (s : Submission settings) : s.traced.Sound := by
  obtain ⟨_, _, hhandover, hstatus⟩ := submit_execution s.accepted
  refine ⟨s.fenced, fun hrequested => ?_, fun _ => hhandover⟩
  have hqueued : s.traced.execution.status = .queued := hstatus
  rw [hqueued] at hrequested
  cases hrequested

theorem Traced.Sound.step {s : Traced} {tx : Transaction} (h : s.Sound) (hok : Untouched s tx) :
    (s.step settings tx).Sound := by
  cases tx with
  -- A log write moves no row, so the requester stays.
  | log tx =>
    have hsame : (s.step settings (.log tx)).requester = s.requester := by
      refine if_neg fun hno => hno.1 ?_
      exact hno.2
    refine ⟨h.fenced.step (.log tx), fun hrequested => ?_, h.pending⟩
    rw [hsame]
    exact h.requested hrequested
  | table eventTime tx =>
    refine ⟨h.fenced.step (.table eventTime tx), fun hrequested => ?_, fun hpending => ?_⟩
    · -- While CANCEL_REQUESTED: the request is either kept or has just been entered.
      have hafter : (s.history.step settings (.table eventTime tx)).rows.tables.execution.status =
        .cancelRequested := hrequested
      rcases s.history.step_table_or settings eventTime tx with hstep | ⟨change, log, hchange, hstep⟩
      · rw [hstep] at hafter
        have hkept : (s.step settings (.table eventTime tx)).requester = s.requester :=
          if_neg fun hno => hno.1 hafter
        rw [hkept, Traced.execution, Traced.step, hstep]
        exact h.requested hafter
      · have hrow : (s.step settings (.table eventTime tx)).execution = change.tables.execution := by
          rw [Traced.execution, Traced.step, hstep]
        have hmove := Tables.endingStep_of_change h.fenced.sound hchange
        rw [hrow] at hrequested ⊢
        rcases hmove.requested hrequested with ⟨hbefore, hfinalized⟩ | ⟨hbefore, hentered⟩
        · -- Kept: the column and the remembered requester both stay.
          have hkept : (s.step settings (.table eventTime tx)).requester = s.requester :=
            if_neg fun hno => hno.1 hbefore
          rw [hkept, hfinalized]
          exact h.requested hbefore
        · -- Entered now: by a caller on an open row, or by the system for an Attempt that timed
          -- out.
          have hnew : (s.step settings (.table eventTime tx)).requester = tx.requester :=
            if_pos ⟨hbefore, hafter⟩
          rw [hnew]
          rcases hentered with ⟨hcaller, hopen, hfinalized⟩ | haudit
          · refine .inl ⟨hcaller, hfinalized.trans ?_⟩
            cases tx with
            | cancel now key reason => exact hok hopen hbefore
            | _ => cases hcaller
          · exact .inr haudit
    · -- A released Step stays accounted for, unless this transaction released it.
      rcases s.history.step_table_or settings eventTime tx with hstep | ⟨change, log, hchange, hstep⟩
      · rw [Traced.execution, Traced.step, hstep] at hpending
        rw [Traced.step, hstep]
        exact h.pending hpending
      · rw [Traced.execution, Traced.step, hstep] at hpending
        rw [Traced.step, hstep]
        by_contra hreleased
        have hmove := Tables.endingStep_of_change h.fenced.sound hchange
        obtain ⟨hbefore, hno⟩ := hmove.pending hpending hreleased
        exact hno (h.pending hbefore)

/-- The end of a cancellation. -/
theorem Traced.Sound.cancellation {s : Traced} (h : s.Sound) {eventTime : Time} {clock : Clock}
    {lease : CancellationLease} {cleanup : RuntimeSessionCleanupStatus} :
    TruthfulEnd settings s (.table eventTime (.finalizeCancellation clock lease cleanup)) := by
  intro r l hcommit
  obtain ⟨change, log, hchange, hlog, rfl, rfl⟩ := TableTransaction.commit_ok.mp hcommit
  obtain ⟨active, stepEvents, _, _, tables, events⟩ := Tables.finalizeCancellation_ok hchange
  have hstatus : s.execution.status = .cancelRequested :=
    (Tables.requireActiveCancellationLease_row active).2.1
  have hrow : change.tables.execution =
      Tables.cancelExecution clock.now cleanup s.execution := by
    rw [tables]
    rfl
  refine ⟨fun hcaller => ?_, fun htimeout => ?_⟩
  · -- A caller's request left `finalized_by` empty, so the end is CANCELLED.
    have hnone : s.execution.finalizedBy = none := by
      rcases h.requested hstatus with ⟨_, hnone⟩ | ⟨haudit, _⟩
      · exact hnone
      · rw [hcaller] at haudit
        cases haudit
    have htimed : Tables.timedOut s.execution = false := by
      rw [Tables.timedOut, hnone]
      rfl
    have hcancelled : change.tables.execution.status = .cancelled := by
      rw [hrow, Tables.cancelExecution, htimed]
      rfl
    have hfinalized : change.tables.execution.finalizedBy = none := by
      rw [hrow]
      exact hnone
    refine ⟨hcancelled, hfinalized, ?_⟩
    rw [events, Tables.addExecutionCompletedEvent] at hlog
    obtain ⟨row, hvalid, hlast⟩ := EventLog.persistAll_last hlog
    obtain ⟨summary, retry, error, hbuilt⟩ : ∃ summary retry error,
        change.tables.completedPayload = .completed change.tables.execution.status
          change.tables.execution.finalizedBy summary retry error := ⟨_, _, _, rfl⟩
    rw [hbuilt, hcancelled, hfinalized] at hvalid
    have hpayload := validateExecutionEventPayload_completed hvalid
    -- The validated payload repeats the columns, and nothing follows it in the batch.
    refine ⟨summary, retry, error, ?_⟩
    dsimp only
    rw [hlast, Option.map_some, hpayload]
  · rcases h.requested hstatus with ⟨_, hnone⟩ | ⟨haudit, _⟩
    · -- Without `finalized_by` the end is CANCELLED.
      have htimed : Tables.timedOut s.execution = false := by
        rw [Tables.timedOut, hnone]
        rfl
      have hfailed := htimeout.1
      rw [hrow, Tables.cancelExecution, htimed] at hfailed
      cases hfailed
    · exact haudit

/-- The end of an expired lease with a pending abort. -/
theorem Traced.Sound.recovery {s : Traced} (h : s.Sound) {eventTime now : Time} {view : ClaimView}
    (hok : Untouched s (.table eventTime (.fenceExpiredLease now view))) :
    TruthfulEnd settings s (.table eventTime (.fenceExpiredLease now view)) := by
  intro r l failureType hcommit hexpired hpending hfailure hcause
  obtain ⟨change, log, hchange, _, rfl, rfl⟩ := TableTransaction.commit_ok.mp hcommit
  have hhandover := h.pending hpending
  -- The failure kept on the released Step is the one that recovery reports.
  have hkept : Tables.recoveryFailureType s.execution = failureType := by
    rw [Tables.recoveryFailureType, hpending, hfailure]
    cases failureType with
    | stepTimeout => rfl
    | operationTimeout => rfl
    | outputLimitExceeded => exact absurd hfailure (hok hexpired hpending)
    | _ => cases hcause
  have hfence : s.history.rows.tables.fenceExpiredLease now view = .ok change := hchange
  cases Tables.fenceExpiredLease_ok hfence with
  | idle =>
    -- An expired run without a released Step is not left alone.
    exfalso
    have hexpired' : Tables.leaseExpired now s.history.rows.tables.execution = true := hexpired
    rw [Tables.fenceExpiredLease, if_neg (not_not.mpr hexpired'),
      if_neg (by rw [hhandover]; exact Bool.false_ne_true)] at hfence
    split at hfence
    · rename_i hchange
      exact Tables.handOver_abort hchange hpending
    · simp only [Txn.bind_ok, Txn.pure_ok] at hfence
      obtain ⟨_, _, _, _, heq⟩ := hfence
      have hstatus := congrArg (fun c : Change => c.tables.execution.status) heq
      rw [(Tables.fence_failed_row now _).1] at hstatus
      have hrunning : s.history.rows.tables.execution.status = .running := by
        have hboth := hexpired
        simp only [Tables.leaseExpired, Bool.and_eq_true, beq_iff_eq] at hboth
        exact hboth.1
      dsimp only at hstatus
      rw [hrunning] at hstatus
      cases hstatus
  -- A hand-over would release the Step that is already released.
  | handedOver expired handover followable tables lease events =>
    have hmove := (Tables.endingStep_fenceExpiredLease hfence : EndingStep none _ _)
    have hreleased := hmove.pending (by rw [tables]; exact hpending)
      (by rw [tables]; exact Option.some_ne_none _)
    exact absurd hhandover hreleased.2
  -- The row fails with the type that was kept.
  | failed expired handover steps =>
    obtain ⟨hstatus, hfailed, _⟩ := Tables.fence_failed_row now s.history.rows.tables
    refine ⟨hstatus, hfailed.trans ?_⟩
    rw [← hkept]
    rfl

/-- In every run whose steps meet the condition, every step reports an end as it
is. -/
theorem endings_truthful (s : Submission settings) (txs : List Transaction)
    (h : Transition.Along (Traced.step settings) Untouched s.traced txs) :
    Transition.Along (Traced.step settings) (TruthfulEnd settings) s.traced txs := by
  refine Transition.along_of_invariant (fun s tx hs hok => hs.step hok) (fun s tx hs hok => ?_)
    s.traced_sound h
  cases tx with
  | log tx => trivial
  | table eventTime tx =>
    cases tx with
    | finalizeCancellation clock lease cleanup => exact hs.cancellation
    | fenceExpiredLease now view => exact hs.recovery hok
    | _ => trivial

end

/-! ### A cancelled run and a cancelled finalization -/

theorem endings_truthful_cancelledRun :
    (Transition.run (Traced.step Small.settings) (Small.submission .multi).traced
      Small.cancelledRun).execution.status = .cancelled ∧
    Transition.Along (Traced.step Small.settings) (TruthfulEnd Small.settings)
      (Small.submission .multi).traced Small.cancelledRun := by
  refine ⟨by decide +kernel, endings_truthful _ _ ?_⟩
  refine ⟨trivial, trivial, trivial, trivial, trivial, fun _ _ => ?_, trivial, trivial, trivial,
    trivial⟩
  decide +kernel

/-- A waiting Execution is finalized at its maximum runtime; then a caller cancels it. -/
def Small.cancelledFinalization : List Transaction :=
  [.table 1 (.claim 1 7 20 view),
    .table 2 (.recordRuntimeSession (clock 2) (lease 20 1) 30 "workspace" "notebook"),
    .table 3 (.markStarted (clock 3) (lease 20 1) 0 40 41 0),
    .table 4 (.markSubmitted (clock 4) (lease 20 1) 41),
    .table 5 (.markSucceeded (clock 5) (lease 20 1) 0 (stored 20 1)),
    .table 6 (.recordProjection (clock 6) (lease 20 1) .succeeded 1 none),
    .table 7 (.completeOperation (clock 7) (lease 20 1) 10 .succeeded none none),
    .table 1001 (.endWaitingExecution 1001 ⟨.waitingForOperation, 2, 1, some 10, some 5, some 30⟩
      .maxRuntime),
    .table 1002 (.cancel 1002 200 none),
    .table 1003 (.claimCancellation 1003 8)]

/-- The caller's cancel is reported as a timeout. -/
theorem cancelled_finalization_reports_timeout :
    ¬ ∀ (settings : Settings) (s : Submission settings) (txs : List Transaction),
      Transition.Along (Traced.step settings) (TruthfulEnd settings) s.traced txs := by
  intro h
  let last : Transaction :=
    .table 1004 (.finalizeCancellation (Small.clock 1004) ⟨1, 8, 2⟩ .succeeded)
  have halong := h Small.settings (Small.submission .multi) (Small.cancelledFinalization ++ [last])
  obtain ⟨hend, _⟩ := (Transition.along_append.mp halong).2
  -- Who asked for the end, and what its transaction commits.
  have hcaller : (Transition.run (Traced.step Small.settings) (Small.submission .multi).traced
      Small.cancelledFinalization).requester = some .caller := by decide +kernel
  have hcommits : ((TableTransaction.commit Small.settings 1004
      (Transition.run (Traced.step Small.settings) (Small.submission .multi).traced
        Small.cancelledFinalization).history.rows
      (.finalizeCancellation (Small.clock 1004) ⟨1, 8, 2⟩ .succeeded)).toOption.map
        fun r => r.1.tables.execution.status) = some .failed := by decide +kernel
  obtain ⟨⟨r, l⟩, hr, hfailed⟩ := Option.map_eq_some_iff.mp hcommits
  have hcommit : TableTransaction.commit Small.settings 1004
      (Transition.run (Traced.step Small.settings) (Small.submission .multi).traced
        Small.cancelledFinalization).history.rows
      (.finalizeCancellation (Small.clock 1004) ⟨1, 8, 2⟩ .succeeded) = .ok (r, l) := by
    revert hr
    generalize TableTransaction.commit Small.settings 1004 _ _ = x
    intro hr
    cases x with
    | error e => cases hr
    | ok y =>
      cases hr
      rfl
  have hcancelled := ((hend r l hcommit).1 hcaller).1
  rw [show r.tables.execution.status = .failed from hfailed] at hcancelled
  cases hcancelled

end ExecutorService
