/-
The lease protocol of one Execution.

`LeaseColumns` are the columns a lease check reads and a claim writes.
`LeaseMove` is the protocol on them: what a transaction may do to owner, token,
cancellation owner and released Step, and which lease it issues while doing so.
Every transaction of the service is one of these moves.

* `leaseMove_of_change` — each transaction refines the protocol;
* `LeaseColumns.Sound` — a run owner, a cancellation owner and a released Step
  exclude each other and fit the status;
* `LeaseMove.sound` — every move keeps it.
-/
import ExecutorService.Store

namespace ExecutorService

/-- The columns of the lease protocol. -/
structure LeaseColumns where
  id : UUID
  status : ExecutionStatus
  leaseOwner : Option WorkerId
  fencingToken : ℕ
  cancellationLeaseOwner : Option WorkerId
  released : Bool
  deriving DecidableEq

/-- The lease columns of the Execution. -/
def Tables.leaseColumns (t : Tables) : LeaseColumns where
  id := t.execution.id
  status := t.execution.status
  leaseOwner := t.execution.leaseOwner
  fencingToken := t.execution.fencingToken
  cancellationLeaseOwner := t.execution.cancellationLeaseOwner
  released := t.handover.isSome

/-- A status in which a run or a released Step may exist. -/
def ExecutionStatus.isRunnable : ExecutionStatus → Bool
  | .running | .cancelRequested => true
  | _ => false

/-- One move of the lease protocol, with the lease it issues. -/
inductive LeaseMove (c : LeaseColumns) : Option Lease → LeaseColumns → Prop
  | stay : LeaseMove c none c
  | requestCancel (open_ : c.status.isTerminal = false) :
      LeaseMove c none { c with status := .cancelRequested }
  | idle {status : ExecutionStatus} {owner : Option WorkerId}
      (before : c.status.isRunnable = false) (after : status.isRunnable = false)
      (owner_ : owner = c.leaseOwner ∨ owner = none) :
      LeaseMove c none { c with status := status, leaseOwner := owner }
  | endRun {status : ExecutionStatus} (before : c.status = .running)
      (owned : c.leaseOwner ≠ none) (after : status.isRunnable = false) :
      LeaseMove c none { c with status := status, leaseOwner := none }
  | release (before : c.status = .cancelRequested) (owned : c.leaseOwner ≠ none) :
      LeaseMove c none { c with leaseOwner := none }
  | handOver (before : c.status = .running) (unreleased : c.released = false) :
      LeaseMove c none { c with
        leaseOwner := none, fencingToken := c.fencingToken + 1, released := true }
  | fence (before : c.status = .running) (unreleased : c.released = false) :
      LeaseMove c none { c with
        status := .failed, leaseOwner := none, fencingToken := c.fencingToken + 1 }
  | claim {worker : WorkerId} {attemptId : UUID}
      (before : c.status = .queued ∨ c.status = .finalizing) :
      LeaseMove c (some (.execution ⟨c.id, attemptId, worker, c.fencingToken + 1⟩)) { c with
        status := .running
        leaseOwner := some worker
        fencingToken := c.fencingToken + 1 }
  | takeOver {worker : WorkerId} {attemptId : UUID} (before : c.status = .running)
      (released : c.released = true) :
      LeaseMove c (some (.execution ⟨c.id, attemptId, worker, c.fencingToken + 1⟩)) { c with
        leaseOwner := some worker
        fencingToken := c.fencingToken + 1
        released := false }
  | drop (before : c.status = .running) : LeaseMove c none { c with released := false }
  | claimCancellation {worker : WorkerId} (before : c.status = .cancelRequested) :
      LeaseMove c (some (.cancellation ⟨c.id, worker, c.fencingToken + 1⟩)) { c with
        leaseOwner := none
        fencingToken := c.fencingToken + 1
        cancellationLeaseOwner := some worker
        released := false }
  | reclaimCancellation {worker : WorkerId} (before : c.status = .cancelRequested)
      (owned : c.cancellationLeaseOwner = some worker) :
      LeaseMove c (some (.cancellation ⟨c.id, worker, c.fencingToken⟩)) c
  | endCancellation {status : ExecutionStatus} (before : c.status = .cancelRequested)
      (owned : c.cancellationLeaseOwner ≠ none) (after : status.isRunnable = false) :
      LeaseMove c none { c with
        status := status, leaseOwner := none, cancellationLeaseOwner := none }

/-! ### Soundness of the columns -/

/-- Owners and a released Step exclude each other and fit the status. -/
structure LeaseColumns.Sound (c : LeaseColumns) : Prop where
  owner : c.leaseOwner ≠ none → c.status.isRunnable = true ∧ c.released = false
  cancellation : c.cancellationLeaseOwner ≠ none →
    c.status = .cancelRequested ∧ c.leaseOwner = none ∧ c.released = false
  handover : c.released = true → c.status.isRunnable = true

theorem LeaseMove.sound {c c' : LeaseColumns} {lease : Option Lease}
    (h : LeaseMove c lease c') (hs : c.Sound) : c'.Sound := by
  obtain ⟨owner, cancellation, handover⟩ := hs
  cases h with
  | stay => exact ⟨owner, cancellation, handover⟩
  -- A request leaves the lease to its owner.
  | requestCancel open_ =>
    refine ⟨fun h => ⟨rfl, (owner h).2⟩, fun h => ⟨rfl, (cancellation h).2⟩, fun _ => rfl⟩
  | idle before after owner_ =>
    -- Without a run there is no owner, and no cancellation that is claimed.
    have hnone : c.leaseOwner = none := by
      by_contra h
      exact absurd (owner h).1 (by simp [before])
    have hcancel : c.cancellationLeaseOwner = none := by
      by_contra h
      simp [(cancellation h).1, ExecutionStatus.isRunnable] at before
    have hreleased : c.released ≠ true := fun h => by simp [handover h] at before
    refine ⟨fun h => ?_, fun h => absurd hcancel h, fun h => absurd h hreleased⟩
    rcases owner_ with rfl | rfl
    · exact absurd hnone h
    · exact absurd rfl h
  | endRun before owned after =>
    -- The owner of a run excludes one of a cancellation.
    have hcancel : c.cancellationLeaseOwner = none := by
      by_contra h
      exact owned (cancellation h).2.1
    have hreleased := (owner owned).2
    exact ⟨fun h => absurd rfl h, fun h => absurd hcancel h, fun h => by simp [hreleased] at h⟩
  | release before owned =>
    -- The owner releases the lease for the cancellation.
    exact ⟨fun h => absurd rfl h,
      fun h => ⟨(cancellation h).1, rfl, (cancellation h).2.2⟩, handover⟩
  | handOver before unreleased =>
    -- The released Step is one of a run.
    refine ⟨fun h => absurd rfl h, fun h => ?_, fun _ => by simp [before, ExecutionStatus.isRunnable]⟩
    simp [(cancellation h).1] at before
  | fence before unreleased =>
    -- The token is new, and nobody has the lease.
    refine ⟨fun h => absurd rfl h, fun h => ?_, fun h => by simp [unreleased] at h⟩
    simp [(cancellation h).1] at before
  | claim before =>
    -- A claim finds no released Step.
    have hreleased : c.released = false := by
      by_contra h
      have := handover (by simpa using h)
      rcases before with before | before <;> simp [before, ExecutionStatus.isRunnable] at this
    refine ⟨fun _ => ⟨rfl, hreleased⟩, fun h => ?_, fun _ => rfl⟩
    rcases before with before | before <;> simp [(cancellation h).1] at before
  | takeOver before released =>
    -- The new owner takes the released Step over.
    refine ⟨fun _ => ⟨by simp [before, ExecutionStatus.isRunnable], rfl⟩, fun h => ?_,
      fun h => by simp at h⟩
    simp [(cancellation h).1] at before
  | drop before =>
    -- The released Step is dropped; its owner keeps what it has.
    refine ⟨fun h => ⟨(owner h).1, rfl⟩, fun h => ?_, fun h => by simp at h⟩
    simp [(cancellation h).1] at before
  | claimCancellation before =>
    -- A cancellation is claimed when the owner has gone.
    exact ⟨fun h => absurd rfl h, fun _ => ⟨before, rfl, rfl⟩, fun h => by simp at h⟩
  | reclaimCancellation before owned => exact ⟨owner, cancellation, handover⟩
  | endCancellation before owned after =>
    have hreleased := (cancellation owned).2.2
    exact ⟨fun h => absurd rfl h, fun h => absurd rfl h, fun h => by simp [hreleased] at h⟩

/-! ### Refinement -/

namespace Tables

/-- A change that keeps the lease columns and issues nothing. -/
theorem leaseMove_of_eq {t : Tables} {c : Change} (hc : c.tables.leaseColumns = t.leaseColumns)
    (hl : c.lease = none) : LeaseMove t.leaseColumns c.lease c.tables.leaseColumns := by
  rw [hc, hl]
  exact .stay

@[simp] theorem leaseColumns_markAttemptPending (t : Tables) :
    t.markAttemptPending.leaseColumns = t.leaseColumns := by
  unfold markAttemptPending
  split <;> rfl

theorem leaseColumns_of_sameButNotebook {t : Tables} {e : ExecutionRow}
    (h : SameButNotebook t.execution e) :
    { t with execution := e }.leaseColumns = t.leaseColumns := by
  unfold SameButNotebook at h
  rw [h]
  rfl

theorem leaseColumns_abandoned (now : Time) (t : Tables) :
    (t.abandoned now).leaseColumns = { t.leaseColumns with
      status := .failed
      leaseOwner := none
      fencingToken := t.execution.fencingToken + 1 } := by
  simp only [abandoned, failRunningSteps, failRunningStepAttempts, failExpired, leaseColumns,
    invalidateNotebook]
  split <;> rfl

/-- A passed check names an owner. -/
theorem leaseOwner_ne_none {now : Time} {lease : ExecutionLease} {t : Tables}
    {allowed : List ExecutionStatus} (h : ∃ a, t.requireActiveLease now lease allowed = .ok a) :
    t.leaseColumns.leaseOwner ≠ none := by
  obtain ⟨a, ha⟩ := h
  have := (requireActiveLease_row ha).2.2.1
  simp [leaseColumns, this]

theorem status_running {now : Time} {lease : ExecutionLease} {t : Tables}
    (h : ∃ a, t.requireActiveLease now lease = .ok a) :
    t.leaseColumns.status = .running := by
  obtain ⟨a, ha⟩ := h
  exact requireActiveLease_running ha

theorem leaseMove_claim {settings : Settings} {now : Time} {worker : WorkerId} {attemptId : UUID}
    {view : ClaimView} {t : Tables} {c : Change}
    (h : t.claim settings now worker attemptId view = .ok c) :
    LeaseMove t.leaseColumns c.lease c.tables.leaseColumns := by
  cases claim_ok h with
  | idle => exact .stay
  | waiting claimable => exact .claim claimable.status
  | resumed claimable => exact .claim claimable.status
  | started claimable => exact .claim claimable.status
  | unavailable claimable =>
    simp only [unclaimedEnd]
    refine .idle ?_ rfl (.inr rfl)
    rcases claimable.status with hs | hs <;> simp [leaseColumns, hs, ExecutionStatus.isRunnable]

theorem leaseMove_fenceExpiredLease {now : Time} {view : ClaimView} {t : Tables} {c : Change}
    (h : t.fenceExpiredLease now view = .ok c) :
    LeaseMove t.leaseColumns c.lease c.tables.leaseColumns := by
  have running : leaseExpired now t.execution = true → t.leaseColumns.status = .running := by
    intro hexpired
    simp only [leaseExpired, Bool.and_eq_true, beq_iff_eq] at hexpired
    exact hexpired.1
  cases fenceExpiredLease_ok h with
  | idle => exact .stay
  | handedOver expired handover followable tables lease events =>
    rw [tables, lease]
    exact .handOver (running expired) (by simp [leaseColumns, handover])
  | failed expired handover steps =>
    have hclosed : ((((t.abandoned now).skipPendingSteps now).failExpiredOperation now
        t.runningAttempt?).1).leaseColumns = (t.abandoned now).leaseColumns := rfl
    rw [hclosed, leaseColumns_abandoned]
    exact .fence (running expired) (by simp [leaseColumns, handover])

theorem leaseMove_claimCancellation (settings : Settings) (now : Time) (worker : WorkerId)
    (t : Tables) :
    LeaseMove t.leaseColumns (t.claimCancellation settings now worker).lease
      (t.claimCancellation settings now worker).tables.leaseColumns := by
  rcases claimCancellation_cases settings now worker t with h | ⟨hs, ⟨howner, h⟩ | h⟩
  · rw [h]
    exact .stay
  · rw [h]
    have hcolumns : (t.holdCancellation settings now worker).tables.leaseColumns =
        t.leaseColumns := by
      simp [holdCancellation, leaseColumns, howner]
    rw [hcolumns]
    exact .reclaimCancellation hs howner
  · rw [h]
    exact .claimCancellation hs

theorem leaseMove_claimHandover (settings : Settings) (now : Time) (worker : WorkerId)
    (view : ClaimView) (t : Tables) :
    LeaseMove t.leaseColumns (t.claimHandover settings now worker view).lease
      (t.claimHandover settings now worker view).tables.leaseColumns := by
  rcases claimHandover_cases settings now worker view t with
    h | ⟨hs, hreleased, h | ⟨attempt, _, h⟩⟩
  · rw [h]
    exact .stay
  · rw [h]
    exact .drop hs
  · rw [h]
    exact .takeOver hs hreleased

end Tables

open Tables in
/-- Every transaction is a move of the lease protocol. -/
theorem leaseMove_of_change {settings : Settings} {r : Rows} {tx : TableTransaction} {c : Change}
    (h : tx.change settings r = .ok c) :
    LeaseMove r.tables.leaseColumns c.lease c.tables.leaseColumns := by
  cases tx with
  | cancel now key reason =>
    obtain ⟨t, ht, rfl⟩ := Txn.quiet_ok.mp h
    rcases cancel_ok ht with rfl | ⟨hopen, _, rfl⟩
    · exact .stay
    · exact .requestCancel hopen
  | retry now key =>
    obtain ⟨t, ht, rfl⟩ := Txn.quiet_ok.mp h
    rcases retry_ok ht with rfl | ⟨operationId, fromSequence, retryable, _, rfl⟩
    · exact .stay
    · -- A failed Execution has no run.
      refine .idle ?_ rfl (.inr rfl)
      simp [leaseColumns, retryable.failed, ExecutionStatus.isRunnable]
  | createOperation now command =>
    obtain ⟨t, ht, rfl⟩ := Txn.quiet_ok.mp h
    rcases createOperation_ok ht with rfl | ⟨_, hwaiting, operation, steps, _, _, _, _, _, rfl⟩
    · exact .stay
    · -- Nor has a waiting one.
      refine .idle ?_ rfl (.inl rfl)
      simp [leaseColumns, hwaiting, ExecutionStatus.isRunnable]
  | finalizeCommand now key fingerprint expectedVersion =>
    obtain ⟨t, ht, rfl⟩ := Txn.quiet_ok.mp h
    rcases finalizeCommand_ok ht with rfl | ⟨_, hwaiting, rfl⟩
    · exact .stay
    · refine .idle ?_ rfl (.inl rfl)
      simp [leaseColumns, hwaiting, ExecutionStatus.isRunnable]
  | claim now worker attemptId view => exact leaseMove_claim h
  | claimHandover now worker view =>
    cases h
    exact leaseMove_claimHandover settings now worker view r.tables
  | claimCancellation now worker =>
    cases h
    exact leaseMove_claimCancellation settings now worker r.tables
  | renewExecution now lease =>
    obtain ⟨t, ht, rfl⟩ := Txn.quiet_ok.mp h
    obtain ⟨_, rfl⟩ := renewExecution_ok ht
    exact .stay
  | renewCancellation now lease =>
    obtain ⟨t, ht, rfl⟩ := Txn.quiet_ok.mp h
    obtain ⟨_, rfl⟩ := renewCancellation_ok ht
    exact .stay
  | assertExecution clock lease allowed =>
    obtain ⟨_, rfl⟩ := assertExecution_ok h
    exact .stay
  | ensureCount clock lease cellCount =>
    obtain ⟨_, rfl⟩ := ensureCount_ok h
    exact .stay
  | recordRuntimeSession clock lease sessionId workspace notebook =>
    obtain ⟨_, rfl⟩ := recordRuntimeSession_ok h
    exact .stay
  | markStarted clock lease sequence historyId requestId baseline =>
    obtain ⟨_, _, _, step, _, tables, lease, _⟩ := markStarted_ok h
    exact leaseMove_of_eq (by rw [tables]; rfl) lease
  | markSubmitted clock lease requestId =>
    obtain ⟨_, rfl⟩ := markSubmitted_ok h
    exact .stay
  | recordHandoverCompleted clock lease sequence handover finished =>
    obtain ⟨_, step, _, tables, lease, _⟩ := recordHandoverCompleted_ok h
    exact leaseMove_of_eq (by rw [tables]) lease
  | markSucceeded clock lease sequence stored =>
    obtain ⟨_, step, _, tables, lease, _⟩ := markSucceeded_ok h
    exact leaseMove_of_eq (by rw [tables]; rfl) lease
  | markFailed clock lease sequence stored message retryable =>
    obtain ⟨_, step, _, tables, lease, _⟩ := markFailed_ok h
    exact leaseMove_of_eq (by rw [tables]; rfl) lease
  | recordInterruptedResult clock lease sequence stored =>
    obtain ⟨_, step, rfl⟩ := recordInterruptedResult_ok h
    refine leaseMove_of_eq ?_ rfl
    rw [← leaseColumns_of_sameButNotebook (invalidateNotebook_same "Step interruption"
      r.tables.execution)]
    cases stored <;> rfl
  | completeOperation clock lease operationId status message failureType =>
    obtain ⟨active, rfl | ⟨operation, seconds, _, _, _, _, rfl⟩⟩ := completeOperation_ok h
    · exact .stay
    · -- The run has come to its end, and the Execution waits.
      exact .endRun (status_running active) (leaseOwner_ne_none active) rfl
  | skipStepsAfter clock lease operationId sequence =>
    obtain ⟨_, rfl⟩ := skipStepsAfter_ok h
    exact .stay
  | beginProjection clock lease =>
    obtain ⟨_, e, same, rfl⟩ := beginProjection_ok h
    exact leaseMove_of_eq (leaseColumns_of_sameButNotebook same) rfl
  | recordProjection clock lease status count message =>
    obtain ⟨_, e, same, rfl⟩ := recordProjection_ok h
    exact leaseMove_of_eq (leaseColumns_of_sameButNotebook same) rfl
  | persistNotebook clock lease notebook =>
    obtain ⟨_, artifacts, rfl⟩ := persistNotebook_ok h
    exact .stay
  | persistArtifacts clock lease sequence allow artifacts =>
    obtain ⟨_, artifacts, rfl⟩ := persistArtifacts_ok h
    exact .stay
  | recordRuntimeAbort clock lease abort cleanup failureType =>
    obtain ⟨_, rfl⟩ := recordRuntimeAbort_ok h
    exact .stay
  | deferRetainedRetry clock lease =>
    obtain ⟨t, ht, rfl⟩ := Txn.quiet_ok.mp h
    obtain ⟨a, ha, rfl | ⟨_, rfl⟩⟩ := deferRetainedRetry_ok ht
    · exact .stay
    · -- The run gives the retry back.
      exact .endRun (status_running ⟨a, ha⟩) (leaseOwner_ne_none ⟨a, ha⟩) rfl
  | releaseForCancellation clock lease =>
    obtain ⟨⟨a, ha⟩, rfl⟩ := releaseForCancellation_ok h
    exact .release (List.mem_singleton.mp (requireActiveLease_row ha).2.1)
      (leaseOwner_ne_none ⟨a, ha⟩)
  | releaseForHandover clock lease =>
    obtain ⟨active, rfl | ⟨stepAttempt, stepId, _, hhandover, tables, lease, _⟩⟩ :=
      releaseForHandover_ok h
    · exact .stay
    · -- The run releases its Step for another Worker.
      rw [tables, lease]
      exact .handOver (status_running active) (by simp [leaseColumns, hhandover])
  | finalize clock lease request =>
    obtain ⟨active, attemptStatus, stepEvents, hstatus, _, hlease, tables, _⟩ := finalize_ok h
    -- The Steps do not matter to the lease.
    have hcolumns : c.tables.leaseColumns =
        { r.tables.leaseColumns with status := request.status, leaseOwner := none } := by
      rw [tables]
      simp only [finalizeSteps]
      split <;> rfl
    rw [hcolumns, hlease]
    refine .endRun (status_running active) (leaseOwner_ne_none active) ?_
    rcases hstatus with ⟨hq, _⟩ | ⟨hq, _⟩ <;> rw [hq] <;> rfl
  | finalizeCancellation clock lease cleanup =>
    obtain ⟨active, stepEvents, _, hlease, tables, _⟩ := finalizeCancellation_ok h
    obtain ⟨_, hs, howner, _⟩ := requireActiveCancellationLease_row active
    rw [tables, hlease]
    -- The owner of the cancellation ends it.
    refine .endCancellation hs ?_ ?_
    · simp [leaseColumns, howner]
    · simp only [cancelTables, cancelExecution]
      split <;> rfl
  | fenceExpiredLease now view => exact leaseMove_fenceExpiredLease h
  | failQueueTimeout now =>
    rcases failQueueTimeout_ok h with rfl | ⟨hs, _, rfl⟩
    · exact .stay
    · -- It was queued, without a run.
      refine .idle ?_ rfl (.inl rfl)
      simp [leaseColumns, hs, ExecutionStatus.isRunnable]
  | requestExpiredCancellation now =>
    rcases requestExpiredCancellation_ok h with rfl | ⟨hs, rfl⟩
    · exact .stay
    · -- The audit asks as a caller does.
      refine .requestCancel ?_
      rcases hs with hs | hs | hs <;> simp [leaseColumns, hs, ExecutionStatus.isTerminal]
  | endWaitingExecution now observation finalizedBy =>
    rcases endWaitingExecution_ok h with rfl | ⟨hs, rfl | ⟨failureType, message, rfl⟩⟩
    · exact .stay
    · -- It was waiting, without a run.
      refine .idle ?_ rfl (.inl rfl)
      simp [leaseColumns, hs, ExecutionStatus.isRunnable]
    · refine .idle ?_ rfl (.inr rfl)
      simp [leaseColumns, hs, ExecutionStatus.isRunnable]
  | failWaitingExecution now observation failureType message =>
    rcases failWaitingExecution_ok h with rfl | ⟨hs, rfl⟩
    · exact .stay
    · refine .idle ?_ rfl (.inr rfl)
      simp [leaseColumns, hs, ExecutionStatus.isRunnable]
  | cleanupExpired now =>
    rcases cleanupExpired_ok h with rfl | ⟨_, ⟨_, rfl⟩ | ⟨hs, row, closed, events, rfl, hclosed, rfl⟩⟩
    · exact .stay
    · exact leaseMove_of_eq (leaseColumns_markAttemptPending _) rfl
    · obtain ⟨rfl, rfl⟩ := Prod.mk.inj hclosed
      rw [leaseColumns_markAttemptPending]
      -- The retained session is one of an Execution without a run.
      refine .idle ?_ rfl (.inl rfl)
      simp [leaseColumns, hs, ExecutionStatus.isRunnable]
  | retryUnresolved now =>
    cases h
    refine leaseMove_of_eq ?_ rfl
    simp only [retryUnresolved]
    split
    · rw [leaseColumns_markAttemptPending]
      rfl
    · rfl
  | recordResult now observation cleanup =>
    cases h
    refine leaseMove_of_eq ?_ rfl
    rcases recordResult_cases observation cleanup now r.tables with hr | ⟨_, _, hr⟩ <;> rw [hr]
    rfl

end ExecutorService
