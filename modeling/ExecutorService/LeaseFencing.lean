/-
Lease fencing.

A lease is honoured only while the row holds its token, and the token moves
whenever the row gets another owner.  So of all the leases ever issued for an
Execution at most one passes a check, and one whose token the row has left behind
never passes again: nothing its Worker writes commits.

* `IssuedBy` — how the issued leases relate to the columns; `LeaseMove.issuedBy`
  keeps it along every move of the protocol;
* `TableTransaction.token_of_guard` — a transaction under a lease commits only at
  the lease's token;
* `lease_fencing` — the statement for every history and every clock.
-/
import ExecutorService.LeaseMoves

namespace ExecutorService

/-- The check of a lease passes at some clock reading. -/
def Lease.Passes (now : Time) (t : Tables) : Lease → Prop
  | .execution lease => ∃ allowed a, t.requireActiveLease now lease allowed = .ok a
  | .cancellation lease => t.requireActiveCancellationLease now lease = .ok ()

theorem Lease.Passes.token {now : Time} {t : Tables} {lease : Lease}
    (h : lease.Passes now t) : t.execution.fencingToken = lease.fencingToken := by
  cases lease with
  | execution lease =>
    obtain ⟨allowed, a, ha⟩ := h
    exact (Tables.requireActiveLease_row ha).2.2.2
  | cancellation lease => exact (Tables.requireActiveCancellationLease_row h).2.2.2

/-! ### Issued leases -/

/-- No issued lease is ahead of the row; those at its token are one value, and
the cancellation owner's if there is one. -/
structure IssuedBy (c : LeaseColumns) (issued : List Lease) : Prop where
  bounded : ∀ l ∈ issued, l.fencingToken ≤ c.fencingToken
  unique : ∀ l ∈ issued, ∀ l' ∈ issued, l.fencingToken = c.fencingToken →
    l'.fencingToken = c.fencingToken → l = l'
  cancellation : ∀ worker, c.cancellationLeaseOwner = some worker →
    ∀ l ∈ issued, l.fencingToken = c.fencingToken →
      l = .cancellation ⟨c.id, worker, c.fencingToken⟩

theorem LeaseMove.token_le {c c' : LeaseColumns} {lease : Option Lease}
    (h : LeaseMove c lease c') : c.fencingToken ≤ c'.fencingToken := by
  cases h <;> simp

namespace IssuedBy

variable {c c' : LeaseColumns} {issued : List Lease}

/-- A move that keeps the token and at most drops the cancellation owner. -/
theorem keep (h : IssuedBy c issued) (hid : c'.id = c.id)
    (htoken : c'.fencingToken = c.fencingToken)
    (howner : c'.cancellationLeaseOwner = c.cancellationLeaseOwner ∨
      c'.cancellationLeaseOwner = none) : IssuedBy c' issued := by
  refine ⟨?_, ?_, ?_⟩
  · rw [htoken]
    exact h.bounded
  · rw [htoken]
    exact h.unique
  · intro worker hworker
    rcases howner with howner | howner
    · rw [htoken, hid]
      exact h.cancellation worker (howner ▸ hworker)
    · rw [howner] at hworker
      cases hworker

/-- A move to a new token without a lease: no issued lease is at it. -/
theorem bump (h : IssuedBy c issued) (htoken : c.fencingToken < c'.fencingToken) :
    IssuedBy c' issued := by
  have behind : ∀ l ∈ issued, l.fencingToken < c'.fencingToken :=
    fun l hl => lt_of_le_of_lt (h.bounded l hl) htoken
  refine ⟨fun l hl => (behind l hl).le, fun l hl _ _ hl' => ?_, fun _ _ l hl hl' => ?_⟩
  · exact absurd hl' (behind l hl).ne
  · exact absurd hl' (behind l hl).ne

/-- A move to a new token that issues the one lease at it. -/
theorem issue {lease : Lease} (h : IssuedBy c issued)
    (htoken : c.fencingToken < c'.fencingToken) (hlease : lease.fencingToken = c'.fencingToken)
    (howner : ∀ worker, c'.cancellationLeaseOwner = some worker →
      lease = .cancellation ⟨c'.id, worker, c'.fencingToken⟩) :
    IssuedBy c' (issued ++ [lease]) := by
  have behind : ∀ l ∈ issued, l.fencingToken < c'.fencingToken :=
    fun l hl => lt_of_le_of_lt (h.bounded l hl) htoken
  have only : ∀ l ∈ issued ++ [lease], l.fencingToken = c'.fencingToken → l = lease := by
    intro l hl heq
    rcases List.mem_append.mp hl with hl | hl
    · exact absurd heq (behind l hl).ne
    · exact List.mem_singleton.mp hl
  refine ⟨?_, ?_, ?_⟩
  · intro l hl
    rcases List.mem_append.mp hl with hl | hl
    · exact (behind l hl).le
    · rw [List.mem_singleton.mp hl, hlease]
  · intro l hl l' hl' heq heq'
    rw [only l hl heq, only l' hl' heq']
  · intro worker hworker l hl heq
    rw [only l hl heq, howner worker hworker]

/-- The cancellation owner may get its own lease again. -/
theorem reissue {worker : WorkerId} (h : IssuedBy c issued)
    (howner : c.cancellationLeaseOwner = some worker) :
    IssuedBy c (issued ++ [.cancellation ⟨c.id, worker, c.fencingToken⟩]) := by
  have only : ∀ l ∈ issued ++ [Lease.cancellation ⟨c.id, worker, c.fencingToken⟩],
      l.fencingToken = c.fencingToken → l = .cancellation ⟨c.id, worker, c.fencingToken⟩ := by
    intro l hl heq
    rcases List.mem_append.mp hl with hl | hl
    · exact h.cancellation worker howner l hl heq
    · exact List.mem_singleton.mp hl
  refine ⟨?_, ?_, ?_⟩
  · intro l hl
    rcases List.mem_append.mp hl with hl | hl
    · exact h.bounded l hl
    · rw [List.mem_singleton.mp hl]
      exact le_refl _
  · intro l hl l' hl' heq heq'
    rw [only l hl heq, only l' hl' heq']
  · intro worker' hworker l hl heq
    rw [howner] at hworker
    cases hworker
    exact only l hl heq

end IssuedBy

theorem LeaseMove.issuedBy {c c' : LeaseColumns} {lease : Option Lease} {issued : List Lease}
    (h : LeaseMove c lease c') (hs : c.Sound) (hi : IssuedBy c issued) :
    IssuedBy c' (issued ++ lease.toList) := by
  -- A run owner and a cancellation owner exclude each other, so a claim of a run
  -- never meets a cancellation owner.
  have noCancellation : ∀ {status : ExecutionStatus}, c.status = status →
      status ≠ .cancelRequested → c.cancellationLeaseOwner = none := by
    intro status hstatus hne
    by_contra howner
    exact hne (hstatus ▸ (hs.cancellation howner).1)
  cases h <;> simp only [Option.toList_none, List.append_nil, Option.toList_some]
  case stay => exact hi
  case requestCancel => exact hi.keep rfl rfl (.inl rfl)
  case idle => exact hi.keep rfl rfl (.inl rfl)
  case endRun => exact hi.keep rfl rfl (.inl rfl)
  case release => exact hi.keep rfl rfl (.inl rfl)
  case handOver => exact hi.bump (Nat.lt_succ_self _)
  case fence => exact hi.bump (Nat.lt_succ_self _)
  case claim before =>
    refine hi.issue (Nat.lt_succ_self _) rfl fun worker hworker => ?_
    have hnone : c.cancellationLeaseOwner = none := by
      rcases before with before | before
      · exact noCancellation before (by decide)
      · exact noCancellation before (by decide)
    exact absurd (hnone.symm.trans hworker) (by simp)
  case takeOver before _ =>
    refine hi.issue (Nat.lt_succ_self _) rfl fun worker hworker => ?_
    exact absurd ((noCancellation before (by decide)).symm.trans hworker) (by simp)
  case drop => exact hi.keep rfl rfl (.inl rfl)
  case claimCancellation =>
    refine hi.issue (Nat.lt_succ_self _) rfl fun worker hworker => ?_
    cases hworker
    rfl
  case reclaimCancellation _ howner => exact hi.reissue howner
  case endCancellation => exact hi.keep rfl rfl (.inr rfl)

/-! ### Histories -/

/-- The invariant of a history. -/
structure History.Fenced (h : History) : Prop where
  sound : h.rows.tables.leaseColumns.Sound
  issued : IssuedBy h.rows.tables.leaseColumns h.issued

theorem submit_execution {settings : Settings} {now : Time} {c : SubmitExecutionCommand}
    {t : Tables} (h : submit settings now c = .ok t) :
    t.execution.leaseOwner = none ∧ t.execution.cancellationLeaseOwner = none ∧
      t.handover = none ∧ t.execution.status = .queued := by
  simp only [submit, Txn.bind_ok] at h
  obtain ⟨_, _, _, _, _, _, steps, _, h⟩ := h
  split at h
  · cases h
  · cases h
    exact ⟨rfl, rfl, rfl, rfl⟩

variable {settings : Settings}

theorem Submission.fenced (s : Submission settings) : s.history.Fenced := by
  obtain ⟨howner, hcancel, hhandover, _⟩ := submit_execution s.accepted
  refine ⟨⟨fun h => absurd howner h, fun h => absurd hcancel h, fun h => ?_⟩, ?_⟩
  · simp [Submission.history, Tables.leaseColumns, hhandover] at h
  · exact ⟨by simp [Submission.history], by simp [Submission.history], by simp [Submission.history]⟩

theorem History.Fenced.step {h : History} (hf : h.Fenced) (tx : Transaction) :
    (h.step settings tx).Fenced := by
  cases tx with
  | log tx => exact ⟨hf.sound, hf.issued⟩
  | table eventTime tx =>
    rcases History.step_table with hstep | ⟨change, log, hchange, _, hstep⟩ <;> rw [hstep]
    · exact hf
    · have move := leaseMove_of_change hchange
      exact ⟨move.sound hf.sound, move.issuedBy hf.sound hf.issued⟩

theorem History.token_step_le (h : History) (tx : Transaction) :
    h.rows.tables.execution.fencingToken ≤
      (h.step settings tx).rows.tables.execution.fencingToken := by
  cases tx with
  | log tx => exact le_refl _
  | table eventTime tx =>
    rcases History.step_table with hstep | ⟨change, log, hchange, _, hstep⟩ <;> rw [hstep]
    exact (leaseMove_of_change hchange).token_le

theorem Submission.run_fenced (s : Submission settings) (txs : List Transaction) :
    (s.run txs).Fenced :=
  Transition.invariant_of_step (fun _ tx hf => hf.step tx) s.fenced txs

theorem History.token_run_le (h : History) (txs : List Transaction) :
    h.rows.tables.execution.fencingToken ≤
      (Transition.run (History.step settings) h txs).rows.tables.execution.fencingToken := by
  induction txs generalizing h with
  | nil => exact le_refl _
  | cons tx txs ih => exact le_trans (h.token_step_le tx) (ih _)

/-! ### Writes under a lease -/

/-- The lease a transaction is issued under. -/
def TableTransaction.guard : TableTransaction → Option Lease
  | .renewExecution _ lease | .assertExecution _ lease _ | .ensureCount _ lease _
  | .recordRuntimeSession _ lease .. | .markStarted _ lease .. | .markSubmitted _ lease _
  | .recordHandoverCompleted _ lease .. | .markSucceeded _ lease .. | .markFailed _ lease ..
  | .recordInterruptedResult _ lease .. | .completeOperation _ lease ..
  | .skipStepsAfter _ lease .. | .beginProjection _ lease | .recordProjection _ lease ..
  | .persistNotebook _ lease _ | .persistArtifacts _ lease .. | .recordRuntimeAbort _ lease ..
  | .deferRetainedRetry _ lease | .releaseForCancellation _ lease
  | .releaseForHandover _ lease | .finalize _ lease _ => some (.execution lease)
  | .renewCancellation _ lease | .finalizeCancellation _ lease _ => some (.cancellation lease)
  | _ => none

open Tables in
/-- A transaction under a lease commits only at the lease's token. -/
theorem TableTransaction.token_of_guard {r : Rows} {tx : TableTransaction} {c : Change}
    {lease : Lease} (hguard : tx.guard = some lease) (h : tx.change settings r = .ok c) :
    r.tables.execution.fencingToken = lease.fencingToken := by
  have execution : ∀ {now : Time} {l : ExecutionLease} {allowed : List ExecutionStatus},
      (∃ a, r.tables.requireActiveLease now l allowed = .ok a) →
      r.tables.execution.fencingToken = l.fencingToken :=
    fun ⟨_, ha⟩ => (requireActiveLease_row ha).2.2.2
  cases tx <;> simp only [TableTransaction.guard, Option.some.injEq, reduceCtorEq] at hguard <;>
    subst hguard
  case renewExecution now l =>
    obtain ⟨t, ht, _⟩ := Txn.quiet_ok.mp h
    have hheld := (renewExecution_ok ht).1
    simp only [ExecutionRow.heldBy, Bool.and_eq_true, beq_iff_eq] at hheld
    exact hheld.1.2
  case renewCancellation now l =>
    obtain ⟨t, ht, _⟩ := Txn.quiet_ok.mp h
    have hheld := (renewCancellation_ok ht).1
    simp only [ExecutionRow.cancellationHeldBy, Bool.and_eq_true, beq_iff_eq] at hheld
    exact hheld.1.2
  case assertExecution => exact execution (assertExecution_ok h).1
  case ensureCount => exact execution (ensureCount_ok h).1
  case recordRuntimeSession => exact execution (recordRuntimeSession_ok h).1
  case markStarted => exact execution (markStarted_ok h).1
  case markSubmitted => exact execution (markSubmitted_ok h).1
  case recordHandoverCompleted => exact execution (recordHandoverCompleted_ok h).1
  case markSucceeded => exact execution (markSucceeded_ok h).1
  case markFailed => exact execution (markFailed_ok h).1
  case recordInterruptedResult => exact execution (recordInterruptedResult_ok h).1
  case completeOperation => exact execution (completeOperation_ok h).1
  case skipStepsAfter => exact execution (skipStepsAfter_ok h).1
  case beginProjection => exact execution (beginProjection_ok h).1
  case recordProjection => exact execution (recordProjection_ok h).1
  case persistNotebook => exact execution (persistNotebook_ok h).1
  case persistArtifacts => exact execution (persistArtifacts_ok h).1
  case recordRuntimeAbort => exact execution (recordRuntimeAbort_ok h).1
  case deferRetainedRetry =>
    obtain ⟨t, ht, _⟩ := Txn.quiet_ok.mp h
    obtain ⟨a, ha, _⟩ := deferRetainedRetry_ok ht
    exact execution ⟨a, ha⟩
  case releaseForCancellation => exact execution (releaseForCancellation_ok h).1
  case releaseForHandover => exact execution (releaseForHandover_ok h).1
  case finalize => exact execution (finalize_ok h).1
  case finalizeCancellation =>
    exact (requireActiveCancellationLease_row (finalizeCancellation_ok h).1).2.2.2

/-- Under a lease whose token is not the row's, a transaction changes nothing. -/
theorem History.step_of_stale {h : History} {tx : TableTransaction} {lease : Lease}
    (hguard : tx.guard = some lease)
    (hstale : h.rows.tables.execution.fencingToken ≠ lease.fencingToken) (eventTime : Time) :
    h.step settings (.table eventTime tx) = h := by
  rcases History.step_table with hstep | ⟨change, log, hchange, _, _⟩
  · exact hstep
  · exact absurd (TableTransaction.token_of_guard hguard hchange) hstale

/-- Lease fencing, for every history of an Execution and every clock: at most one
issued lease passes a check, the token never decreases, and a lease the token has
left behind never passes again and commits nothing. -/
theorem lease_fencing (s : Submission settings) (txs : List Transaction) :
    (∀ l ∈ (s.run txs).issued, ∀ l' ∈ (s.run txs).issued, ∀ now now' : Time,
      l.Passes now (s.run txs).rows.tables → l'.Passes now' (s.run txs).rows.tables → l = l') ∧
    (∀ later, (s.run txs).rows.tables.execution.fencingToken ≤
      (s.run (txs ++ later)).rows.tables.execution.fencingToken) ∧
    (∀ l ∈ (s.run txs).issued,
      l.fencingToken ≠ (s.run txs).rows.tables.execution.fencingToken →
      ∀ later, (∀ now : Time, ¬ l.Passes now (s.run (txs ++ later)).rows.tables) ∧
        ∀ eventTime tx, tx.guard = some l →
          s.run (txs ++ later ++ [.table eventTime tx]) = s.run (txs ++ later)) := by
  have fenced := s.run_fenced txs
  have monotone : ∀ later, (s.run txs).rows.tables.execution.fencingToken ≤
      (s.run (txs ++ later)).rows.tables.execution.fencingToken := by
    intro later
    rw [s.run_append]
    exact History.token_run_le _ later
  refine ⟨?_, monotone, ?_⟩
  · intro l hl l' hl' now now' hpass hpass'
    exact fenced.issued.unique l hl l' hl' hpass.token.symm hpass'.token.symm
  · intro l hl hstale later
    -- The token has passed the lease's and never comes back to it.
    have behind : l.fencingToken < (s.run txs).rows.tables.execution.fencingToken :=
      lt_of_le_of_ne (fenced.issued.bounded l hl) hstale
    have stale : (s.run (txs ++ later)).rows.tables.execution.fencingToken ≠ l.fencingToken :=
      (lt_of_lt_of_le behind (monotone later)).ne'
    refine ⟨fun now hpass => stale hpass.token, fun eventTime tx hguard => ?_⟩
    rw [s.run_append]
    exact History.step_of_stale hguard stale eventTime

end ExecutorService
