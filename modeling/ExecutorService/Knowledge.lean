/-
What a run knows while it awaits.

A run owns its Execution while the row is RUNNING under its lease.  Until then it may have
been cancelled, fenced or handed over, and then its transactions roll back; but as long as it
owns the row, no other transaction moves a Step or an Attempt.  So what a run found out about
them stays true until it moves them itself.

* `LeaseMove.owned`, `foreign_change` — the row was owned before, and what the others leave;
* `quiet_change` — what the quiet transactions of the run leave;
* `rules` — the world as the run of a lease shares it;
* `Learns` — what a part of a run knows before it and after it; `Learns.quiet` for the quiet
  parts.
-/
import ExecutorService.Progress
import ExecutorService.Triples
import ExecutorService.QuietParts
import ExecutorService.ShapeHistories

namespace ExecutorService

open Program Job
open Tables (StepRun FinalizeRequest)

/-- RUNNING under the lease. -/
structure LeaseColumns.OwnedBy (lease : ExecutionLease) (c : LeaseColumns) : Prop where
  status : c.status = .running
  owner : c.leaseOwner = some lease.owner
  token : c.fencingToken = lease.fencingToken

theorem LeaseMove.owned {c c' : LeaseColumns} {issued : Option Lease} {lease : ExecutionLease}
    (h : LeaseMove c issued c') (hbound : lease.fencingToken ≤ c.fencingToken)
    (howned : c'.OwnedBy lease) : c.OwnedBy lease := by
  obtain ⟨status, owner, token⟩ := howned
  cases h with
  | stay => exact ⟨status, owner, token⟩
  | requestCancel open_ => cases status
  | idle before after owner_ =>
    simp only at status
    rw [status] at after
    cases after
  | endRun before owned after => cases owner
  | release before owned => cases owner
  | handOver before unreleased => cases owner
  | fence before unreleased => cases owner
  | claim before => exact absurd token (Nat.lt_succ_of_le hbound).ne'
  | takeOver before released => exact absurd token (Nat.lt_succ_of_le hbound).ne'
  | drop before => exact ⟨status, owner, token⟩
  | claimCancellation before => cases owner
  | reclaimCancellation before owned => exact ⟨status, owner, token⟩
  | endCancellation before owned after => cases owner

/-- The Steps, the Attempts and the retry of a shape are those of another. -/
structure Shape.Unmoved (c c' : Shape) : Prop where
  rows : c'.toShapeRows = c.toShapeRows
  session : c.session = true → c'.session = true
  strategy : c'.strategy = c.strategy
  retryFrom : c'.retryFrom = c.retryFrom
  retried : c'.retried = c.retried

theorem Shape.Unmoved.refl (c : Shape) : c.Unmoved c :=
  ⟨rfl, id, rfl, rfl, rfl⟩

theorem Shape.Unmoved.of_eq {c c' : Shape} (h : c' = c) : c.Unmoved c' :=
  h ▸ .refl c

/-- A heartbeat. -/
def TableTransaction.isRenewal : TableTransaction → Bool
  | .renewExecution .. | .renewCancellation .. => true
  | _ => false

section

variable {settings : Settings} {lease : ExecutionLease} {r : Rows} {tx : TableTransaction}
  {c : Change}

open Tables

theorem shape_renewal (hrenewal : tx.isRenewal = true) (h : tx.change settings r = .ok c) :
    c.tables.shape = r.tables.shape ∧ c.stepwise = [] := by
  cases tx with
  | renewExecution now lease =>
    obtain ⟨t, ht, rfl⟩ := Txn.quiet_ok.mp h
    obtain ⟨_, rfl⟩ := renewExecution_ok ht
    refine ⟨congrArg (fun attempts => { r.tables.shape with attempts }) ?_, rfl⟩
    refine attempts_shape_same ?_ _
    exact fun _ => rfl
  | renewCancellation now lease =>
    obtain ⟨t, ht, rfl⟩ := Txn.quiet_ok.mp h
    obtain ⟨_, rfl⟩ := renewCancellation_ok ht
    exact ⟨rfl, rfl⟩
  | _ => cases hrenewal

/-- A transaction under a cancellation lease commits while the cancellation is requested. -/
theorem status_of_cancellation {l : CancellationLease} (hguard : tx.guard = some (.cancellation l))
    (h : tx.change settings r = .ok c) : r.tables.execution.status = .cancelRequested := by
  cases tx <;> simp only [TableTransaction.guard, Option.some.injEq, reduceCtorEq] at hguard
  case renewCancellation now lease =>
    obtain ⟨t, ht, _⟩ := Txn.quiet_ok.mp h
    have hheld := (renewCancellation_ok ht).1
    simp only [ExecutionRow.cancellationHeldBy, Bool.and_eq_true, beq_iff_eq] at hheld
    exact hheld.1.1.1.2
  case finalizeCancellation clock lease cleanup =>
    exact (requireActiveCancellationLease_row (finalizeCancellation_ok h).1).2.1

/-- What another transaction leaves of a row that a run owns. -/
theorem foreign_change (hl : r.tables.leaseColumns.Sound)
    (h : tx.change settings r = .ok c)
    (hforeign : tx.isRenewal = true ∨
      ∀ l, tx.guard = some (.execution l) → l.fencingToken ≠ lease.fencingToken)
    (hbefore : r.tables.leaseColumns.OwnedBy lease)
    (hafter : c.tables.leaseColumns.OwnedBy lease) :
    c.tables.shape = r.tables.shape ∧ c.stepwise = [] := by
  rcases hforeign with hrenewal | hforeign
  · exact shape_renewal hrenewal h
  -- The row is RUNNING under this lease, so nothing has been handed over.
  have hrunning : r.tables.execution.status = .running := hbefore.status
  have hhandover : r.tables.handover = none := by
    have hreleased := (hl.owner (by rw [hbefore.owner]; simp)).2
    simpa [leaseColumns] using hreleased
  cases hguard : tx.guard with
  | some l =>
    cases l with
    -- Another lease's guard would have another token.
    | execution l =>
      have htoken := TableTransaction.token_of_guard hguard h
      exact absurd (htoken.symm.trans hbefore.token) (hforeign l hguard)
    -- A cancellation lease is only good while CANCEL_REQUESTED.
    | cancellation l =>
      have hcancelled := status_of_cancellation hguard h
      exact absurd (hrunning.symm.trans hcancelled) (by decide)
  | none =>
    have hstatus : c.tables.execution.status = .running := hafter.status
    -- An unguarded transaction: it does nothing to a row that is RUNNING, or takes the lease
    -- away.
    cases tx <;> simp only [TableTransaction.guard, reduceCtorEq] at hguard
    case cancel now key reason =>
      obtain ⟨t, ht, rfl⟩ := Txn.quiet_ok.mp h
      rcases cancel_ok ht with rfl | ⟨_, _, rfl⟩
      · exact ⟨rfl, rfl⟩
      · cases hstatus
    case retry now key =>
      obtain ⟨t, ht, rfl⟩ := Txn.quiet_ok.mp h
      rcases retry_ok ht with rfl | ⟨_, _, retryable, _⟩
      · exact ⟨rfl, rfl⟩
      · exact absurd (hrunning.symm.trans retryable.failed) (by decide)
    case createOperation now command =>
      obtain ⟨t, ht, rfl⟩ := Txn.quiet_ok.mp h
      rcases createOperation_ok ht with rfl | ⟨_, hwaiting, _⟩
      · exact ⟨rfl, rfl⟩
      · exact absurd (hrunning.symm.trans hwaiting) (by decide)
    case finalizeCommand now key fingerprint version =>
      obtain ⟨t, ht, rfl⟩ := Txn.quiet_ok.mp h
      rcases finalizeCommand_ok ht with rfl | ⟨_, hwaiting, _⟩
      · exact ⟨rfl, rfl⟩
      · exact absurd (hrunning.symm.trans hwaiting) (by decide)
    case claim now worker attemptId view =>
      have absurd_of : ∀ {operation}, Claimable view operation r.tables → False := by
        intro operation claimable
        rcases claimable.status with hs | hs <;> rw [hrunning] at hs <;> cases hs
      cases claim_ok h with
      | idle => exact ⟨rfl, rfl⟩
      | waiting claimable => exact (absurd_of claimable).elim
      | resumed claimable => exact (absurd_of claimable).elim
      | started claimable => exact (absurd_of claimable).elim
      | unavailable claimable => exact (absurd_of claimable).elim
    case claimHandover now worker view =>
      cases h
      rcases claimHandover_cases settings now worker view r.tables with hc | ⟨_, hsome, _⟩
      · rw [hc]
        exact ⟨rfl, rfl⟩
      · rw [hhandover] at hsome
        cases hsome
    case claimCancellation now worker =>
      cases h
      rcases claimCancellation_cases settings now worker r.tables with hc | ⟨hcancel, _⟩
      · rw [hc]
        exact ⟨rfl, rfl⟩
      · exact absurd (hrunning.symm.trans hcancel) (by decide)
    case fenceExpiredLease now view =>
      have hmove := leaseMove_fenceExpiredLease h
      cases fenceExpiredLease_ok h with
      | idle => exact ⟨rfl, rfl⟩
      | handedOver _ _ _ tables =>
        have howner := hafter.owner
        rw [tables] at howner
        cases howner
      | failed =>
        have hfailed : (r.tables.abandoned now).execution.status = .running := hafter.status
        obtain ⟨e, same, hfailed', _⟩ := abandoned_row now r.tables
        rw [same] at hfailed
        exact absurd (hfailed'.symm.trans hfailed) (by decide)
    case failQueueTimeout now =>
      rcases failQueueTimeout_ok h with rfl | ⟨hqueued, _⟩
      · exact ⟨rfl, rfl⟩
      · exact absurd (hrunning.symm.trans hqueued) (by decide)
    case requestExpiredCancellation now =>
      rcases requestExpiredCancellation_ok h with rfl | ⟨_, rfl⟩
      · exact ⟨rfl, rfl⟩
      · cases hstatus
    case endWaitingExecution now observation finalizedBy =>
      rcases endWaitingExecution_ok h with rfl | ⟨hwaiting, _⟩
      · exact ⟨rfl, rfl⟩
      · exact absurd (hrunning.symm.trans hwaiting) (by decide)
    case failWaitingExecution now observation failureType message =>
      rcases failWaitingExecution_ok h with rfl | ⟨hwaiting, _⟩
      · exact ⟨rfl, rfl⟩
      · exact absurd (hrunning.symm.trans hwaiting) (by decide)
    case cleanupExpired now =>
      rcases cleanupExpired_ok h with rfl | ⟨hexpired, _⟩
      · exact ⟨rfl, rfl⟩
      · simp only [retentionExpired, hrunning, Bool.and_eq_true] at hexpired
        exact absurd hexpired.1.1.1 (by decide)
    case retryUnresolved now =>
      cases h
      exact ⟨shape_retryUnresolved settings now r.tables, rfl⟩
    case recordResult now observation cleanup =>
      cases h
      rcases recordResult_cases observation cleanup now r.tables with hr | ⟨_, hended, _⟩
      · rw [hr]
        exact ⟨rfl, rfl⟩
      · rcases hended with hended | hended <;> rw [hrunning] at hended <;> cases hended

/-- What a quiet transaction leaves of a row that the run still owns. -/
theorem quiet_change (hquiet : tx.isQuiet = true) (h : tx.change settings r = .ok c)
    (hafter : c.tables.leaseColumns.OwnedBy lease) :
    r.tables.shape.Unmoved c.tables.shape ∧ c.stepwise = [] := by
  cases tx <;> simp only [TableTransaction.isQuiet, Bool.false_eq_true] at hquiet
  -- The guarded transactions that report no Step leave its columns alone.
  case assertExecution clock lease allowed =>
    obtain ⟨_, rfl⟩ := assertExecution_ok h
    exact ⟨.refl _, rfl⟩
  case ensureCount clock lease cellCount =>
    obtain ⟨_, rfl⟩ := ensureCount_ok h
    exact ⟨.refl _, rfl⟩
  case recordRuntimeSession clock lease sessionId workspace notebook =>
    obtain ⟨_, rfl⟩ := recordRuntimeSession_ok h
    rw [shape_withSession]
    exact ⟨⟨rfl, fun _ => rfl, rfl, rfl, rfl⟩, addStartEvents_stepwise _ _⟩
  case markSubmitted clock lease requestId =>
    obtain ⟨_, rfl⟩ := markSubmitted_ok h
    exact ⟨.refl _, rfl⟩
  case recordInterruptedResult clock lease sequence stored =>
    obtain ⟨_, step, rfl⟩ := recordInterruptedResult_ok h
    refine ⟨.of_eq ?_, rfl⟩
    refine Eq.trans (shape_sameButNotebook (t := r.tables.withEvidence clock.now lease.attemptId
      step stored) ?_) (shape_withEvidence _ _ _ _ _)
    have hrow := invalidateNotebook_same "Step interruption" r.tables.execution
    cases stored <;> exact hrow
  case beginProjection clock lease =>
    obtain ⟨_, e, same, rfl⟩ := beginProjection_ok h
    exact ⟨.of_eq (shape_sameButNotebook same), rfl⟩
  case recordProjection clock lease status count message =>
    obtain ⟨_, e, same, rfl⟩ := recordProjection_ok h
    exact ⟨.of_eq (shape_sameButNotebook same), rfl⟩
  case persistNotebook clock lease notebook =>
    obtain ⟨_, artifacts, rfl⟩ := persistNotebook_ok h
    exact ⟨.refl _, rfl⟩
  case persistArtifacts clock lease sequence allow artifacts =>
    obtain ⟨_, artifacts, rfl⟩ := persistArtifacts_ok h
    exact ⟨.refl _, rfl⟩
  case recordRuntimeAbort clock lease abort cleanup failureType =>
    obtain ⟨_, rfl⟩ := recordRuntimeAbort_ok h
    rw [shape_withAbort]
    exact ⟨⟨rfl, id, rfl, rfl, rfl⟩, rfl⟩
  case releaseForCancellation clock lease =>
    obtain ⟨_, rfl⟩ := releaseForCancellation_ok h
    exact ⟨.of_eq (shape_released _ _ _), rfl⟩
  case releaseForHandover clock lease =>
    obtain ⟨_, rfl | ⟨_, _, _, _, tables, _⟩⟩ := releaseForHandover_ok h
    · exact ⟨.refl _, rfl⟩
    · -- A hand-over gives the lease up.
      have howner := hafter.owner
      rw [tables] at howner
      cases howner

end

/-! ### The rules of a run -/

/-- The transaction of an effect. -/
def Effect.table? {α : Type} (c : Choice) : Effect α → Option TableTransaction
  | .transaction tx => some (tx c)
  | .markStarted lease sequence =>
    some (.markStarted c.clock lease sequence c.historyId c.requestId c.artifactBaseline)
  | .releaseForHandover lease => some (.releaseForHandover c.clock lease)
  | .reserve tx => some (tx c)
  | _ => none

/-- A run seals results under its lease. -/
def Choice.sealedBy (lease : ExecutionLease) (c : Choice) : Choice :=
  { c with stored := c.stored.map fun d => { d with reference := { d.reference with
      executionAttemptId := lease.attemptId
      fencingToken := lease.fencingToken } } }

section

variable {settings : Settings} {α : Type} {e : Effect α} {c : Choice} {w w' : World}

theorem Effect.mayRaise_plain {x : Failure} (h : e.mayRaise x = true) : x.isPlain = true := by
  by_contra hplain
  have hraises : e.mayRaise x = false := by
    cases e with
    | external call => cases x <;> first | exact absurd rfl hplain | (cases call <;> rfl)
    | _ => cases x <;> first | exact absurd rfl hplain | rfl
  rw [hraises] at h
  cases h

theorem Effect.interruption_plain {performed : Bool} {x : Failure}
    (h : e.interruption c = some (performed, x)) : x.isPlain = true :=
  mayRaise_plain (Option.filter_eq_some_iff.mp h).2

/-- A reply: what the effect did, or a failure before or after it. -/
theorem Effect.reply_cases {value : α} {w₂ : World} {r : Except Failure α}
    (h : e.reply c w w' value = (w₂, r)) :
    w₂ = w' ∧ r = .ok value ∨
      (w₂ = w ∨ w₂ = w') ∧ ∃ x, r = .error x ∧ x.isPlain = true := by
  unfold reply at h
  cases hi : e.interruption c with
  | none =>
    rw [hi] at h
    cases h
    exact .inl ⟨rfl, rfl⟩
  | some i =>
    obtain ⟨performed, x⟩ := i
    rw [hi] at h
    cases h
    refine .inr ⟨?_, x, rfl, interruption_plain hi⟩
    cases performed
    · exact .inl rfl
    · exact .inr rfl

theorem StoreError.plain (error : StoreError) : (Failure.ofStore error).isPlain = true := by
  cases error <;> rfl

/-- A step that committed a change. -/
structure History.Committed (settings : Settings) (h : History) (eventTime : Time)
    (tx : TableTransaction) (change : Change) (h' : History) : Prop where
  step : h' = h.step settings (.table eventTime tx)
  ok : tx.change settings h.rows = .ok change
  tables : h'.rows.tables = change.tables
  trail : h'.trail = h.trail ++ change.stepwise
  issued : h'.issued = h.issued ++ change.lease.toList

theorem History.committed {h : History} {eventTime : Time} {tx : TableTransaction}
    {committed : Rows × Option Lease} (hc : tx.commit settings eventTime h.rows = .ok committed) :
    ∃ change, h.Committed settings eventTime tx change (h.step settings (.table eventTime tx)) ∧
      committed.1.tables = change.tables ∧ committed.2 = change.lease := by
  obtain ⟨rows, lease⟩ := committed
  obtain ⟨change, log, hchange, hlog, rfl, rfl⟩ := TableTransaction.commit_ok.mp hc
  have hstep : h.step settings (.table eventTime tx) =
      ⟨⟨change.tables, log⟩, h.issued ++ change.lease.toList⟩ := by
    simp only [step, hc]
  refine ⟨change, ⟨rfl, hchange, by rw [hstep], ?_, by rw [hstep]⟩, rfl, rfl⟩
  obtain ⟨rows, hrows, rfl⟩ := EventLog.persistAll_ok hlog
  rw [hstep, Change.stepwise, ← hrows]
  show ((h.rows.log.history ++ rows).map _).filter _ = _
  rw [List.map_append, List.filter_append]
  rfl

/-- A transaction committed, or it raised and left the rows. -/
theorem Effect.commit_cases {tx : TableTransaction} {value : α} {w₂ : World}
    {r : Except Failure α} (h : e.commit settings c tx w value = (w₂, r)) :
    (∃ change, w.history.Committed settings c.eventTime tx change w₂.history ∧
      (r = .ok value ∨ ∃ x, r = .error x ∧ x.isPlain = true)) ∨
    w₂ = w ∧ ∃ x, r = .error x ∧ x.isPlain = true := by
  unfold commit at h
  cases hc : tx.commit settings c.eventTime w.history.rows with
  | ok committed =>
    rw [hc] at h
    obtain ⟨change, hcommitted, _⟩ := History.committed hc
    rcases reply_cases h with ⟨hw, hr⟩ | ⟨hw | hw, hr⟩
    · exact .inl ⟨change, hw ▸ hcommitted, .inl hr⟩
    · exact .inr ⟨hw, hr⟩
    · exact .inl ⟨change, hw ▸ hcommitted, .inr hr⟩
  | error error =>
    rw [hc] at h
    cases h
    refine .inr ⟨rfl, _, rfl, ?_⟩
    cases hi : e.interruption c with
    | none => exact StoreError.plain error
    | some i => exact interruption_plain hi

theorem Effect.read_cases {x : Txn α} {w₂ : World} {r : Except Failure α}
    (h : e.read c x w = (w₂, r)) :
    w₂ = w ∧ ((∃ value, x = .ok value ∧ r = .ok value) ∨ ∃ x, r = .error x ∧ x.isPlain = true) := by
  unfold read at h
  cases x with
  | ok value =>
    rcases reply_cases h with ⟨hw, hr⟩ | ⟨hw | hw, hr⟩
    · exact ⟨hw, .inl ⟨value, rfl, hr⟩⟩
    · exact ⟨hw, .inr hr⟩
    · exact ⟨hw, .inr hr⟩
  | error error =>
    cases h
    exact ⟨rfl, .inr ⟨_, rfl, StoreError.plain error⟩⟩

/-- What an await did to the history, and that it raises no Step result. -/
theorem Effect.perform_cases {r : Except Failure α} (h : e.perform settings c w = (w', r)) :
    (w'.history = w.history ∨ ∃ tx change, e.table? c = some tx ∧
      w.history.Committed settings c.eventTime tx change w'.history) ∧
    ∀ x, r = .error x → x.isPlain = true := by
  -- An answer from outside commits nothing, and what it raises is plain.
  have replied : ∀ {w₁ : World} {value : α}, e.reply c w w₁ value = (w', r) →
      w₁.history = w.history → w'.history = w.history ∧ ∀ x, r = .error x → x.isPlain = true := by
    intro w₁ value h hw₁
    rcases reply_cases h with ⟨hw, hr⟩ | ⟨hw | hw, x, hr, hplain⟩
    · exact ⟨by rw [hw, hw₁], fun y hy => by cases hr.symm.trans hy⟩
    · exact ⟨by rw [hw], fun y hy => by cases hr.symm.trans hy; exact hplain⟩
    · exact ⟨by rw [hw, hw₁], fun y hy => by cases hr.symm.trans hy; exact hplain⟩
  have quiet : (w'.history = w.history ∧ ∀ x, r = .error x → x.isPlain = true) →
      (w'.history = w.history ∨ ∃ tx change, e.table? c = some tx ∧
        w.history.Committed settings c.eventTime tx change w'.history) ∧
      ∀ x, r = .error x → x.isPlain = true := fun h => ⟨.inl h.1, h.2⟩
  -- A transaction commits its change or leaves the tables as they were.
  have committed : ∀ {tx : TableTransaction} {value : α}, e.table? c = some tx →
      e.commit settings c tx w value = (w', r) →
      (w'.history = w.history ∨ ∃ tx change, e.table? c = some tx ∧
        w.history.Committed settings c.eventTime tx change w'.history) ∧
      ∀ x, r = .error x → x.isPlain = true := by
    intro tx value htable h
    rcases commit_cases h with ⟨change, hc, hr | ⟨x, hr, hplain⟩⟩ | ⟨hw, x, hr, hplain⟩
    · exact ⟨.inr ⟨tx, change, htable, hc⟩, fun y hy => by cases hr.symm.trans hy⟩
    · exact ⟨.inr ⟨tx, change, htable, hc⟩, fun y hy => by cases hr.symm.trans hy; exact hplain⟩
    · exact ⟨.inl (by rw [hw]), fun y hy => by cases hr.symm.trans hy; exact hplain⟩
  -- A read changes nothing.
  have read : ∀ {x : Txn α}, e.read c x w = (w', r) →
      w'.history = w.history ∧ ∀ x, r = .error x → x.isPlain = true := by
    intro x h
    obtain ⟨hw, ⟨value, _, hr⟩ | ⟨x, hr, hplain⟩⟩ := read_cases h
    · exact ⟨by rw [hw], fun y hy => by cases hr.symm.trans hy⟩
    · exact ⟨by rw [hw], fun y hy => by cases hr.symm.trans hy; exact hplain⟩
  -- Each effect is one of these three.
  cases e with
  | external call => exact quiet (replied h rfl)
  | shuttingDown =>
    cases h
    exact ⟨.inl rfl, fun x hx => by cases hx⟩
  | deadlines submitted => exact quiet (replied h rfl)
  | transaction tx => exact committed rfl h
  | markStarted lease sequence => exact committed rfl h
  | loadRun lease => exact quiet (read h)
  | releaseForHandover lease => exact committed rfl h
  | cancellationOwnsTerminal => exact quiet (replied h rfl)
  | assertCancellation lease => exact quiet (read h)
  | reserve tx => exact committed rfl h
  | targetUsable => exact quiet (replied h rfl)
  | observe observation => exact quiet (replied h rfl)
  | startSession =>
    simp only [perform] at h
    split at h
    · cases h
      exact ⟨.inl rfl, fun x hx => by cases hx; rfl⟩
    · exact quiet (replied h rfl)
  | deleteSession sessionId => exact quiet (replied h rfl)
  | abortSession sessionId => exact quiet (replied h rfl)
  | sessionExists sessionId => exact quiet (replied h rfl)
  | startExecution lease run => exact quiet (replied h rfl)
  | sealResult =>
    simp only [perform] at h
    cases hstored : c.stored with
    | none =>
      rw [hstored] at h
      cases h
      exact ⟨.inl rfl, fun x hx => by cases hx; rfl⟩
    | some stored =>
      rw [hstored] at h
      exact quiet (replied h rfl)
  | preserveResult => exact quiet (replied h rfl)

end

/-- A world whose history is sound. -/
structure SoundWorld extends World where
  sound : toWorld.history.Sound

/-- What a run can know about the rows and the events. -/
abbrev Fact : Type :=
  Shape → List EventSubject → Prop

/-- What the run knows as long as it owns the row. -/
def Knows (lease : ExecutionLease) (Q : Fact) (w : SoundWorld) : Prop :=
  w.tables.leaseColumns.OwnedBy lease → Q w.tables.shape w.history.trail

/-- The world as the run of a lease shares it. -/
def rules (settings : Settings) (lease : ExecutionLease) : Rules Effect Failure SoundWorld where
  rely w w' := w'.tables.leaseColumns.OwnedBy lease →
    w.tables.leaseColumns.OwnedBy lease ∧ w'.tables.shape = w.tables.shape ∧
      w'.history.trail = w.history.trail
  refl _ h := ⟨h, rfl, rfl⟩
  trans h h' howned := by
    obtain ⟨howned, hshape, htrail⟩ := h' howned
    obtain ⟨howned, hshape', htrail'⟩ := h howned
    exact ⟨howned, hshape.trans hshape', htrail.trans htrail'⟩
  step e w r w' := ∃ c : Choice, e.perform settings (c.sealedBy lease) w.toWorld = (w'.toWorld, r)
  allowed e w := ∀ (c : Choice) (tx : TableTransaction), e.table? (c.sealedBy lease) = some tx →
    (Transaction.table c.eventTime tx).Proper settings w.history

section

variable {settings : Settings} {lease : ExecutionLease} {Q Q' : Fact}

theorem Knows.mono {w : SoundWorld} (h : Knows lease Q w)
    (himp : ∀ c trail, c.Sound → Q c trail → Q' c trail) : Knows lease Q' w :=
  fun howned => himp _ _ w.sound.shape (h howned)

theorem stable_knows (settings : Settings) (lease : ExecutionLease) (Q : Fact) :
    (rules settings lease).Stable (Knows lease Q) := by
  intro w w' h hrely howned
  obtain ⟨howned, hshape, htrail⟩ := hrely howned
  rw [hshape, htrail]
  exact h howned

/-- The fact outlives the quiet transactions of the run. -/
def Fact.Stable (Q : Fact) : Prop :=
  ∀ c c' trail, c.Unmoved c' → Q c trail → Q c' trail

theorem TableTransaction.proper_of_isQuiet {tx : TableTransaction} (h : tx.isQuiet = true)
    (trail : List EventSubject) (t : Tables) : tx.Proper trail t := by
  cases tx <;> trivial

theorem owned_before {w : SoundWorld} {w' : World} {eventTime : Time} {tx : TableTransaction}
    {change : Change} (hc : w.history.Committed settings eventTime tx change w'.history)
    (hguard : tx.guard = some (.execution lease)) (howned : w'.tables.leaseColumns.OwnedBy lease) :
    w.tables.leaseColumns.OwnedBy lease := by
  have htoken := TableTransaction.token_of_guard hguard hc.ok
  refine (leaseMove_of_change hc.ok).owned ?_ ?_
  · exact htoken.ge
  · rw [← hc.tables]
    exact howned

theorem QuietEffect.guarded {α : Type} {e : Effect α} (h : QuietEffect lease e) {c : Choice}
    {tx : TableTransaction} (htable : e.table? c = some tx) :
    tx.guard = some (.execution lease) ∧ tx.isQuiet = true := by
  cases h <;> simp only [Effect.table?, Option.some.injEq, reduceCtorEq] at htable
  case transaction guarded quiet =>
    subst htable
    exact ⟨guarded c, quiet c⟩
  case releaseForHandover =>
    subst htable
    exact ⟨rfl, rfl⟩

/-- Quiet effects are allowed, and the run still knows what it knew. -/
theorem Knows.quiet {α : Type} {e : Effect α} {w : SoundWorld} (hquiet : QuietEffect lease e)
    (hQ : Q.Stable) (h : Knows lease Q w) :
    (rules settings lease).allowed e w ∧ ∀ r w', (rules settings lease).step e w r w' →
      Knows lease Q w' ∧ ∀ x, r = .error x → x.isPlain = true := by
  refine ⟨fun c tx htable change _ => ?_, fun r w' hstep => ?_⟩
  · exact TableTransaction.proper_of_isQuiet (hquiet.guarded htable).2 _ _
  obtain ⟨c, hstep⟩ := hstep
  obtain ⟨hhistory, hplain⟩ := Effect.perform_cases hstep
  refine ⟨fun howned => ?_, hplain⟩
  rcases hhistory with hsame | ⟨tx, change, htable, hc⟩
  · have htables : w'.tables = w.tables := congrArg (·.rows.tables) hsame
    rw [htables] at howned ⊢
    rw [hsame]
    exact h howned
  · obtain ⟨hguard, hq⟩ := hquiet.guarded htable
    have hbefore := owned_before hc hguard howned
    have hafter : change.tables.leaseColumns.OwnedBy lease := by
      rw [← hc.tables]
      exact howned
    obtain ⟨hunmoved, hevents⟩ := quiet_change hq hc.ok hafter
    rw [hc.trail, hevents, List.append_nil]
    have hshape : w'.tables.shape = change.tables.shape := congrArg Tables.shape hc.tables
    rw [hshape]
    exact hQ _ _ _ hunmoved (h hbefore)

/-! ### What a part of a run learns -/

/-- From `Q` every effect of the part is allowed; `ok` is known when it returns, `error` when
it raises. -/
def Learns (settings : Settings) (lease : ExecutionLease) {X α : Type} (Q : Fact)
    (p : Program Effect Failure X α) (ok : α → Fact) (error : X → Fact) : Prop :=
  Triple (rules settings lease) (Knows lease Q) p (fun a => Knows lease (ok a))
    fun x => Knows lease (error x)

namespace Learns

variable {X α β : Type} {p : Program Effect Failure X α} {ok ok' : α → Fact}
  {error error' : X → Fact}

theorem mono (h : Learns settings lease Q p ok error)
    (hpre : ∀ c trail, c.Sound → Q' c trail → Q c trail)
    (hok : ∀ a c trail, c.Sound → ok a c trail → ok' a c trail)
    (herror : ∀ x c trail, c.Sound → error x c trail → error' x c trail) :
    Learns settings lease Q' p ok' error' :=
  Triple.mono h (fun _ hw => hw.mono hpre) (fun a _ hw => hw.mono (hok a))
    fun x _ hw => hw.mono (herror x)

theorem pre (h : Learns settings lease Q p ok error)
    (hpre : ∀ c trail, c.Sound → Q' c trail → Q c trail) : Learns settings lease Q' p ok error :=
  h.mono hpre (fun _ _ _ _ => id) fun _ _ _ _ => id

theorem ret {a : α} (h : ∀ c trail, c.Sound → Q c trail → ok a c trail) :
    Learns settings lease Q (.ret a : Program Effect Failure X α) ok error :=
  Triple.ret (stable_knows settings lease _) fun _ hw => hw.mono h

theorem raise {x : X} (h : ∀ c trail, c.Sound → Q c trail → error x c trail) :
    Learns settings lease Q (.raise x : Program Effect Failure X α) ok error :=
  Triple.raise (stable_knows settings lease _) fun _ hw => hw.mono h

theorem bind {M : α → Fact} {f : α → Program Effect Failure X β} {ok : β → Fact}
    (h : Learns settings lease Q p M error)
    (hf : ∀ a, Learns settings lease (M a) (f a) ok error) :
    Learns settings lease Q (p >>= f) ok error :=
  Triple.bind h hf

theorem handle {Y : Type} {M : X → Fact} {g : X → Program Effect Failure Y α} {error : Y → Fact}
    (h : Learns settings lease Q p ok M)
    (hg : ∀ x, Learns settings lease (M x) (g x) ok error) :
    Learns settings lease Q (p.handle g) ok error :=
  Triple.handle h hg

theorem run {p : Job α} {l : Locals} {error : Failure × Locals → Fact}
    (h : Learns settings lease Q p ok fun x => error (x, l)) :
    Learns settings lease Q (l.run p) ok error :=
  Triple.under h

/-- What the code does not read need not be named. -/
theorem exists_ {ι : Type} [Nonempty ι] {Q : ι → Fact}
    (h : ∀ i, Learns settings lease (Q i) p ok error) :
    Learns settings lease (fun c trail => ∃ i, Q i c trail) p ok error := by
  intro w hw
  by_cases howned : w.tables.leaseColumns.OwnedBy lease
  · obtain ⟨i, hi⟩ := hw howned
    exact h i w fun _ => hi
  · exact h (Classical.arbitrary ι) w fun h => absurd h howned

/-- What follows a part may depend on what the part returns whatever the replies. -/
theorem bind_yields {V : α → Prop} {M : α → Fact} {f : α → Program Effect Failure X β}
    {ok : β → Fact} (h : Learns settings lease Q p M error) (hy : p.Yields V)
    (hf : ∀ a, V a → Learns settings lease (M a) (f a) ok error) :
    Learns settings lease Q (p >>= f) ok error :=
  Triple.bind (Triple.yields h hy) fun a w hw => hf a hw.1 w hw.2

/-- A quiet part keeps what the run knows. -/
theorem quiet {p : Job α} (h : Quiet lease p) (hQ : Q.Stable) :
    Learns settings lease Q p (fun _ => Q) fun x c trail => x.isPlain = true ∧ Q c trail := by
  have hconfined := h (fun x => x.isPlain = true) fun _ => id
  have htriple := Triple.of_confined (R := rules settings lease)
    (stable_knows settings lease Q) (fun hquiet hw => Knows.quiet hquiet hQ hw) hconfined
  refine Triple.mono htriple (fun _ => id) (fun _ _ hw => hw.1) fun x w hw howned => ?_
  exact ⟨hw.2 x rfl, hw.1 howned⟩

end Learns

end

end ExecutorService
