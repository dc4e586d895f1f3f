/-
Idempotency keys in the rows.

The keys of accepted commands are kept in four places: the submit key on the
Execution and on its first Operation, the cancel key on the Execution, the retry keys
in a table of their own, and the keys of finalize and create-operation in the command
receipts.  Workers and audits touch none of them.

A cancelled Execution stays so: `isClosed` holds from the request on, and with it the
cancel key is never replaced.

* `keyStep_of_change` — what a transaction that is no command does to the keys;
* `sameSubmission_of_change` — no transaction changes what was submitted.
-/
import ExecutorService.LeaseMoves

namespace ExecutorService

/-- The keys of the commands that an Execution accepted, and who it is. -/
structure KeyColumns where
  id : UUID
  idempotencyKey : Key
  requestFingerprint : Key
  cancelIdempotencyKey : Option Key
  retries : List Key
  receipts : List CommandReceipt
  operations : List (UUID × Key)

/-- The key of an Operation. -/
def OperationRow.keyed (o : OperationRow) : UUID × Key :=
  (o.id, o.idempotencyKey)

/-- The keys of the Execution and of all its commands. -/
def Tables.keyColumns (t : Tables) : KeyColumns where
  id := t.execution.id
  idempotencyKey := t.execution.idempotencyKey
  requestFingerprint := t.execution.requestFingerprint
  cancelIdempotencyKey := t.execution.cancelIdempotencyKey
  retries := t.retries
  receipts := t.receipts
  operations := t.operations.map (·.keyed)

/-- The caller's commands. -/
def TableTransaction.isCommand : TableTransaction → Bool
  | .cancel .. | .retry .. | .createOperation .. | .finalizeCommand .. => true
  | _ => false

/-- A cancellation was requested, or the Execution ended without a retry. -/
def ExecutionRow.isClosed (e : ExecutionRow) : Bool :=
  match e.status with
  | .cancelRequested | .cancelled => true
  | .failed => e.retryStrategy == .notRetryable
  | _ => false

/-- What a change keeps of the keys. -/
structure KeyStep (t t' : Tables) : Prop where
  keys : t'.keyColumns = t.keyColumns
  closed : t.execution.isClosed = true → t'.execution.isClosed = true

namespace KeyStep

variable {t t' t'' : Tables}

theorem same (hkeys : t'.keyColumns = t.keyColumns)
    (hstatus : t'.execution.status = t.execution.status)
    (hstrategy : t'.execution.retryStrategy = t.execution.retryStrategy) : KeyStep t t' := by
  refine ⟨hkeys, fun hclosed => ?_⟩
  rw [ExecutionRow.isClosed, hstatus, hstrategy]
  exact hclosed

/-- The Execution was open before. -/
theorem opened (hkeys : t'.keyColumns = t.keyColumns)
    (hopen : t.execution.isClosed = false) : KeyStep t t' :=
  ⟨hkeys, fun hclosed => absurd (hopen.symm.trans hclosed) Bool.false_ne_true⟩

theorem closes (hkeys : t'.keyColumns = t.keyColumns)
    (hclosed : t'.execution.isClosed = true) : KeyStep t t' :=
  ⟨hkeys, fun _ => hclosed⟩

theorem notebook {e : ExecutionRow} (h : Tables.SameButNotebook t.execution e)
    (ht : t' = { t with execution := e }) : KeyStep t t' := by
  unfold Tables.SameButNotebook at h
  rw [h] at ht
  subst ht
  exact .same rfl rfl rfl

end KeyStep

theorem ExecutionRow.isClosed_of_status {e : ExecutionRow} {status : ExecutionStatus}
    (h : e.status = status) (hopen : status = .queued ∨ status = .running ∨
      status = .waitingForOperation ∨ status = .finalizing) : e.isClosed = false := by
  rw [ExecutionRow.isClosed, h]
  rcases hopen with rfl | rfl | rfl | rfl <;> rfl

namespace Tables

variable {t : Tables}

/-- An update that keeps the ids and keys of the Operations. -/
theorem keyed_updateWhere {p : OperationRow → Bool} {f : OperationRow → OperationRow}
    (hf : ∀ o, (f o).keyed = o.keyed) (operations : List OperationRow) :
    (operations.updateWhere p f).map (·.keyed) = operations.map (·.keyed) :=
  List.map_updateWhere hf operations

theorem keyColumns_closeActiveOperation {f : OperationRow → OperationRow}
    (hf : ∀ o, (f o).keyed = o.keyed) : (t.closeActiveOperation f).keyColumns = t.keyColumns := by
  simp only [keyColumns, closeActiveOperation, keyed_updateWhere hf]

theorem keyColumns_failUnclaimed {now : Time} {row : ExecutionRow} {message : String}
    {failureType : Option FailureType} (hid : row.id = t.execution.id)
    (hkey : row.idempotencyKey = t.execution.idempotencyKey)
    (hfingerprint : row.requestFingerprint = t.execution.requestFingerprint)
    (hcancel : row.cancelIdempotencyKey = t.execution.cancelIdempotencyKey) :
    (t.failUnclaimed now row message failureType).1.keyColumns = t.keyColumns := by
  have hclosed : (t.failUnclaimed now row message failureType).1.keyColumns =
      ({ t with execution := row }.skipPendingSteps now).keyColumns :=
    keyColumns_closeActiveOperation fun o => rfl
  rw [hclosed]
  simp only [keyColumns, skipPendingSteps, hid, hkey, hfingerprint, hcancel]

theorem keyStep_markAttemptPending {t' : Tables} (h : KeyStep t t') :
    KeyStep t t'.markAttemptPending := by
  unfold markAttemptPending
  split
  · exact h
  · exact ⟨h.keys, h.closed⟩

theorem keyColumns_startOperation {now : Time} {operation : Option OperationRow}
    {attemptId : UUID} : (t.startOperation now operation attemptId).keyColumns = t.keyColumns := by
  simp only [keyColumns, startOperation]
  rw [keyed_updateWhere]
  exact fun o => rfl

theorem keyStep_claim {settings : Settings} {now : Time} {worker : WorkerId} {attemptId : UUID}
    {view : ClaimView} {c : Change} (h : t.claim settings now worker attemptId view = .ok c) :
    KeyStep t c.tables := by
  have hopen : ∀ {operation : Option OperationRow}, Claimable view operation t →
      t.execution.isClosed = false := by
    intro operation hclaimable
    rcases hclaimable.status with hstatus | hstatus
    · exact ExecutionRow.isClosed_of_status hstatus (.inl rfl)
    · exact ExecutionRow.isClosed_of_status hstatus (.inr (.inr (.inr rfl)))
  cases claim_ok h with
  | idle => exact .same rfl rfl rfl
  | waiting claimable => exact .opened keyColumns_startOperation (hopen claimable)
  | resumed claimable => exact .opened keyColumns_startOperation (hopen claimable)
  | started claimable => exact .opened keyColumns_startOperation (hopen claimable)
  | unavailable claimable =>
    exact .opened (keyColumns_failUnclaimed rfl rfl rfl rfl) (hopen claimable)

theorem keyStep_fenceExpiredLease {now : Time} {view : ClaimView} {c : Change}
    (h : t.fenceExpiredLease now view = .ok c) : KeyStep t c.tables := by
  have hopen : leaseExpired now t.execution = true → t.execution.isClosed = false := by
    intro hexpired
    simp only [leaseExpired, Bool.and_eq_true, beq_iff_eq] at hexpired
    exact ExecutionRow.isClosed_of_status hexpired.1 (.inr (.inl rfl))
  cases fenceExpiredLease_ok h with
  | idle => exact .same rfl rfl rfl
  | handedOver expired handover followable tables lease events =>
    rw [tables]
    exact .same rfl rfl rfl
  | failed expired handover steps =>
    refine .opened ?_ (hopen expired)
    have hclosed : (((t.abandoned now).skipPendingSteps now).failExpiredOperation now
        t.runningAttempt?).1.keyColumns = ((t.abandoned now).skipPendingSteps now).keyColumns :=
      keyColumns_closeActiveOperation fun o => rfl
    rw [hclosed]
    have hrow := invalidateNotebook_same "Worker lease expiry"
    simp only [keyColumns, skipPendingSteps, abandoned, failRunningSteps, failRunningStepAttempts,
      failExpired]
    rw [hrow]

/-- What a transaction that is no command does to the keys. -/
theorem keyStep_of_change {settings : Settings} {r : Rows} {tx : TableTransaction} {c : Change}
    (h : tx.change settings r = .ok c) (hcommand : tx.isCommand = false) :
    KeyStep r.tables c.tables := by
  -- Whoever holds the lease finds the Execution open.
  have hrunning : ∀ {now : Time} {lease : ExecutionLease},
      (∃ a, r.tables.requireActiveLease now lease = .ok a) →
        r.tables.execution.isClosed = false := by
    rintro now lease ⟨a, ha⟩
    exact ExecutionRow.isClosed_of_status (requireActiveLease_running ha) (.inr (.inl rfl))
  cases tx with
  -- These are the commands.
  | cancel now key reason => cases hcommand
  | retry now key => cases hcommand
  | createOperation now command => cases hcommand
  | finalizeCommand now key fingerprint expectedVersion => cases hcommand
  | claim now worker attemptId view => exact keyStep_claim h
  | claimHandover now worker view =>
    cases h
    rcases claimHandover_cases settings now worker view r.tables with
      hc | ⟨_, _, hc | ⟨attempt, _, hc⟩⟩ <;> rw [hc] <;> exact .same rfl rfl rfl
  | claimCancellation now worker =>
    cases h
    rcases claimCancellation_cases settings now worker r.tables with
      hc | ⟨_, ⟨_, hc⟩ | hc⟩ <;> rw [hc] <;> exact .same rfl rfl rfl
  | renewExecution now lease =>
    obtain ⟨t, ht, rfl⟩ := Txn.quiet_ok.mp h
    obtain ⟨_, rfl⟩ := renewExecution_ok ht
    exact .same rfl rfl rfl
  | renewCancellation now lease =>
    obtain ⟨t, ht, rfl⟩ := Txn.quiet_ok.mp h
    obtain ⟨_, rfl⟩ := renewCancellation_ok ht
    exact .same rfl rfl rfl
  | assertExecution clock lease allowed =>
    obtain ⟨_, rfl⟩ := assertExecution_ok h
    exact .same rfl rfl rfl
  | ensureCount clock lease cellCount =>
    obtain ⟨_, rfl⟩ := ensureCount_ok h
    exact .same rfl rfl rfl
  | recordRuntimeSession clock lease sessionId workspace notebook =>
    obtain ⟨_, rfl⟩ := recordRuntimeSession_ok h
    exact .same rfl rfl rfl
  | markStarted clock lease sequence historyId requestId baseline =>
    obtain ⟨_, _, _, step, _, tables, _, events⟩ := markStarted_ok h
    rw [tables]
    exact .same rfl rfl rfl
  | markSubmitted clock lease requestId =>
    obtain ⟨_, rfl⟩ := markSubmitted_ok h
    exact .same rfl rfl rfl
  | recordHandoverCompleted clock lease sequence handover finished =>
    obtain ⟨_, step, _, tables, _, events⟩ := recordHandoverCompleted_ok h
    rw [tables]
    exact .same rfl rfl rfl
  | markSucceeded clock lease sequence stored =>
    obtain ⟨_, step, _, tables, _, events⟩ := markSucceeded_ok h
    rw [tables]
    exact .same rfl rfl rfl
  | markFailed clock lease sequence stored message retryable =>
    obtain ⟨_, step, _, tables, _, events⟩ := markFailed_ok h
    rw [tables]
    exact .same rfl rfl rfl
  | recordInterruptedResult clock lease sequence stored =>
    obtain ⟨_, step, rfl⟩ := recordInterruptedResult_ok h
    have hrow := invalidateNotebook_same "Step interruption" r.tables.execution
    unfold SameButNotebook at hrow
    rw [hrow]
    cases stored with
    | none => exact .same rfl rfl rfl
    | some stored => exact .same rfl rfl rfl
  | completeOperation clock lease operationId status message failureType =>
    obtain ⟨active, rfl | ⟨operation, seconds, hfound, _, _, _, rfl⟩⟩ := completeOperation_ok h
    · exact .same rfl rfl rfl
    · -- An Operation ends; it keeps its key.
      refine .opened ?_ (hrunning active)
      simp only [keyColumns, operationEnded]
      rw [keyed_updateWhere]
      exact fun o => rfl
  | skipStepsAfter clock lease operationId sequence =>
    obtain ⟨_, rfl⟩ := skipStepsAfter_ok h
    exact .same rfl rfl rfl
  | beginProjection clock lease =>
    obtain ⟨_, e, same, rfl⟩ := beginProjection_ok h
    exact .notebook same rfl
  | recordProjection clock lease status count message =>
    obtain ⟨_, e, same, rfl⟩ := recordProjection_ok h
    exact .notebook same rfl
  | persistNotebook clock lease notebook =>
    obtain ⟨_, artifacts, rfl⟩ := persistNotebook_ok h
    exact .same rfl rfl rfl
  | persistArtifacts clock lease sequence allow artifacts =>
    obtain ⟨_, artifacts, rfl⟩ := persistArtifacts_ok h
    exact .same rfl rfl rfl
  | recordRuntimeAbort clock lease abort cleanup failureType =>
    obtain ⟨_, rfl⟩ := recordRuntimeAbort_ok h
    exact .same rfl rfl rfl
  | deferRetainedRetry clock lease =>
    obtain ⟨t, ht, rfl⟩ := Txn.quiet_ok.mp h
    obtain ⟨a, ha, rfl | ⟨_, rfl⟩⟩ := deferRetainedRetry_ok ht
    · exact .same rfl rfl rfl
    · -- The Operation is queued again.
      refine .opened ?_ (hrunning ⟨a, ha⟩)
      simp only [keyColumns, deferred]
      rw [keyed_updateWhere]
      exact fun o => rfl
  | releaseForCancellation clock lease =>
    obtain ⟨_, rfl⟩ := releaseForCancellation_ok h
    exact .same rfl rfl rfl
  | releaseForHandover clock lease =>
    obtain ⟨_, rfl | ⟨stepAttempt, stepId, _, _, tables, _, events⟩⟩ := releaseForHandover_ok h
    · exact .same rfl rfl rfl
    · rw [tables]
      exact .same rfl rfl rfl
  | finalize clock lease request =>
    obtain ⟨active, attemptStatus, stepEvents, _, _, _, tables, events⟩ := finalize_ok h
    -- It closes the active Operation, and maybe the Execution.
    refine .opened ?_ (hrunning active)
    have hclosed : (r.tables.runClosed settings clock.now lease.attemptId attemptStatus
        request).keyColumns = r.tables.keyColumns :=
      keyColumns_closeActiveOperation fun o => rfl
    rw [tables, finalizeSteps]
    split <;> exact hclosed
  | finalizeCancellation clock lease cleanup =>
    obtain ⟨active, stepEvents, _, _, tables, events⟩ := finalizeCancellation_ok h
    rw [tables]
    -- A cancelled Execution is closed, and so is one that timed out.
    refine .closes ?_ ?_
    · simp only [keyColumns, cancelTables, cancelExecution]
      rw [keyed_updateWhere]
      exact fun o => rfl
    · simp only [cancelTables, cancelExecution, ExecutionRow.isClosed]
      by_cases htimed : timedOut r.tables.execution = true
      · simp [htimed]
      · simp [htimed]
  | fenceExpiredLease now view => exact keyStep_fenceExpiredLease h
  | failQueueTimeout now =>
    rcases failQueueTimeout_ok h with rfl | ⟨hstatus, _, rfl⟩
    · exact .same rfl rfl rfl
    · -- It was queued.
      exact .opened (keyColumns_failUnclaimed rfl rfl rfl rfl)
        (ExecutionRow.isClosed_of_status hstatus (.inl rfl))
  | requestExpiredCancellation now =>
    rcases requestExpiredCancellation_ok h with rfl | ⟨_, rfl⟩
    · exact .same rfl rfl rfl
    · -- The cancellation has no key of a caller.
      exact .closes rfl rfl
  | endWaitingExecution now observation finalizedBy =>
    rcases endWaitingExecution_ok h with rfl | ⟨hstatus, hcase⟩
    · exact .same rfl rfl rfl
    -- It was waiting for an Operation.
    have hopen : r.tables.execution.isClosed = false :=
      ExecutionRow.isClosed_of_status hstatus (.inr (.inr (.inl rfl)))
    rcases hcase with rfl | ⟨failureType, message, rfl⟩
    · exact .opened rfl hopen
    · exact .opened rfl hopen
  | failWaitingExecution now observation failureType message =>
    rcases failWaitingExecution_ok h with rfl | ⟨hstatus, rfl⟩
    · exact .same rfl rfl rfl
    · exact .opened rfl (ExecutionRow.isClosed_of_status hstatus (.inr (.inr (.inl rfl))))
  | cleanupExpired now =>
    rcases cleanupExpired_ok h with rfl | ⟨hexpired, hcase⟩
    · exact .same rfl rfl rfl
    -- A retained session is one of an open Execution.
    have hopen : r.tables.execution.isClosed = false := by
      simp only [retentionExpired, Bool.and_eq_true, Bool.or_eq_true, beq_iff_eq] at hexpired
      obtain ⟨⟨⟨hstatus | hstatus, hstrategy⟩, _⟩, _⟩ := hexpired
      · simp [ExecutionRow.isClosed, hstatus, hstrategy]
      · exact ExecutionRow.isClosed_of_status hstatus (.inl rfl)
    rcases hcase with ⟨_, rfl⟩ | ⟨_, row, closed, events, rfl, hclosed, rfl⟩
    · exact keyStep_markAttemptPending (.opened rfl hopen)
    · obtain ⟨rfl, rfl⟩ := Prod.mk.inj hclosed
      exact keyStep_markAttemptPending (.opened (keyColumns_failUnclaimed rfl rfl rfl rfl) hopen)
  | retryUnresolved now =>
    cases h
    simp only [retryUnresolved]
    split
    · -- The Attempt alone changes.
      exact keyStep_markAttemptPending (.same rfl rfl rfl)
    · exact .same rfl rfl rfl
  | recordResult now observation cleanup =>
    cases h
    rcases recordResult_cases observation cleanup now r.tables with hr | ⟨_, _, hr⟩ <;> rw [hr] <;>
      exact .same rfl rfl rfl

/-! ### Submissions -/

/-- The Execution is the one that was submitted: who it is does not change, and
Operations are only appended. -/
structure SameSubmission (t t' : Tables) : Prop where
  id : t'.execution.id = t.execution.id
  key : t'.execution.idempotencyKey = t.execution.idempotencyKey
  fingerprint : t'.execution.requestFingerprint = t.execution.requestFingerprint
  operations : t.operations.map (·.keyed) <+: t'.operations.map (·.keyed)

theorem SameSubmission.refl (t : Tables) : SameSubmission t t :=
  ⟨rfl, rfl, rfl, List.prefix_refl _⟩

theorem sameSubmission_of_keys {t t' : Tables} (h : t'.keyColumns = t.keyColumns) :
    SameSubmission t t' := by
  simp only [keyColumns, KeyColumns.mk.injEq] at h
  obtain ⟨hid, hkey, hfingerprint, _, _, _, hoperations⟩ := h
  exact ⟨hid, hkey, hfingerprint, hoperations ▸ List.prefix_refl _⟩

theorem sameSubmission_of_change {settings : Settings} {r : Rows} {tx : TableTransaction}
    {c : Change} (h : tx.change settings r = .ok c) : SameSubmission r.tables c.tables := by
  by_cases hcommand : tx.isCommand = false
  · exact sameSubmission_of_keys (keyStep_of_change h hcommand).keys
  cases tx with
  | cancel now key reason =>
    obtain ⟨t, ht, rfl⟩ := Txn.quiet_ok.mp h
    rcases cancel_ok ht with rfl | ⟨_, _, rfl⟩
    · exact .refl _
    · exact ⟨rfl, rfl, rfl, List.prefix_refl _⟩
  | retry now key =>
    obtain ⟨t, ht, rfl⟩ := Txn.quiet_ok.mp h
    rcases retry_ok ht with rfl | ⟨operationId, fromSequence, _, _, rfl⟩
    · exact .refl _
    · have hkeyed : (r.tables.requeueOperation now operationId).operations.map (·.keyed) =
          r.tables.operations.map (·.keyed) := by
        simp only [requeueOperation]
        rw [keyed_updateWhere]
        exact fun o => rfl
      exact ⟨rfl, rfl, rfl, hkeyed ▸ List.prefix_refl _⟩
  | createOperation now command =>
    obtain ⟨t, ht, rfl⟩ := Txn.quiet_ok.mp h
    rcases createOperation_ok ht with rfl | ⟨_, _, operation, steps, _, _, _, _, _, rfl⟩
    · exact .refl _
    · refine ⟨rfl, rfl, rfl, ?_⟩
      rw [List.map_append]
      exact List.prefix_append _ _
  | finalizeCommand now key fingerprint expectedVersion =>
    obtain ⟨t, ht, rfl⟩ := Txn.quiet_ok.mp h
    rcases finalizeCommand_ok ht with rfl | ⟨_, _, rfl⟩
    · exact .refl _
    · exact ⟨rfl, rfl, rfl, List.prefix_refl _⟩
  | _ => exact absurd rfl hcommand

end Tables

end ExecutorService
