/-
Start events.

`record_runtime_session` writes `execution.started` when the outbox holds no such
row of the Execution, and `operation_started` when the event table holds none of
the active Operation.  Both tables forget: published outbox rows are deleted by
age, and so are the events of an Execution that ended, which a retry may reopen.

* `Tables.addStartEvents_started`, `Tables.addStartEvents_operation` — what the
  builder writes, from the rows it finds;
* `start_events_once` — at most one of each as long as the rows that announce an
  earlier start are there whenever a session is recorded;
* `retention_repeats_started` — a retry after the outbox retention announces the
  Execution again.
-/
import ExecutorService.OperationEvents

namespace ExecutorService

/-- How often an event was ever persisted. -/
def EventLog.emitted (subject : EventSubject) (log : EventLog) : ℕ :=
  log.history.countP (·.payload.subject == subject)

/-- Retention has kept the rows that `record_runtime_session` looks up: the
outbox row of an earlier `execution.started`, and the event row of an earlier
`operation_started` of the active Operation. -/
structure Rows.RemembersStarts (r : Rows) : Prop where
  started : 0 < r.log.emitted .started → r.log.outboxHasStarted = true
  operation : ∀ operationId, r.tables.execution.activeOperationId = some operationId →
    0 < r.log.emitted (.operationStarted operationId) →
      r.log.eventsHaveOperationStarted operationId = true

/-- A session is recorded under its lease only while those rows are there. -/
def StartsRemembered (h : History) : Transaction → Prop
  | .table _ (.recordRuntimeSession clock lease ..) =>
    (∃ a, h.rows.tables.requireActiveLease clock.lease lease = .ok a) → h.rows.RemembersStarts
  | _ => True

/-! ### One transaction -/

namespace Tables

/-- The two halves of `add_start_events`. -/
theorem addStartEvents_eq (t : Tables) (log : EventLog) :
    ∃ started operations : List EventSubject,
      (t.addStartEvents log).map (·.subject) = started ++ operations ∧
      started.length ≤ (!log.outboxHasStarted).toNat ∧ (∀ x ∈ started, x = .started) ∧
      (operations = [] ∨ ∃ operationId, t.execution.activeOperationId = some operationId ∧
        log.eventsHaveOperationStarted operationId = false ∧
        operations = [.operationStarted operationId]) := by
  unfold addStartEvents
  split
  · rename_i targetId sessionId htarget hsession
    -- The first half is the same in every branch below.
    let started : List EventSubject := if log.outboxHasStarted then [] else [.started]
    have hmap : (if log.outboxHasStarted then [] else
        [EventPayload.started t.execution.runtimeType t.execution.runtimeProfile targetId
          sessionId]).map (·.subject) = started := by
      simp only [started]
      split <;> rfl
    have hlength : started.length ≤ (!log.outboxHasStarted).toNat := by
      cases h : log.outboxHasStarted <;> simp [started, h]
    have hstarted : ∀ x ∈ started, x = .started := by
      intro x hx
      cases h : log.outboxHasStarted <;> simp [started, h] at hx
      exact hx
    dsimp only
    split
    · exact ⟨started, [], by rw [hmap, List.append_nil], hlength, hstarted, .inl rfl⟩
    rename_i operationId hactive
    split
    · exact ⟨started, [], by rw [hmap, List.append_nil], hlength, hstarted, .inl rfl⟩
    split
    · exact ⟨started, [], by rw [hmap, List.append_nil], hlength, hstarted, .inl rfl⟩
    rename_i operation hoperation
    split
    · exact ⟨started, [], by rw [hmap, List.append_nil], hlength, hstarted, .inl rfl⟩
    rename_i hevents
    have hid : operation.id = operationId := by simpa using List.find?_some hoperation
    refine ⟨started, [.operationStarted operationId], ?_, hlength, hstarted,
      .inr ⟨operationId, hactive, by simpa using hevents, rfl⟩⟩
    rw [List.map_append, hmap, List.map_singleton, EventPayload.subject, hid]
  · exact ⟨[], [], rfl, Nat.zero_le _, by simp, .inl rfl⟩

theorem addStartEvents_started (t : Tables) (log : EventLog) :
    ((t.addStartEvents log).map (·.subject)).count .started ≤ (!log.outboxHasStarted).toNat := by
  obtain ⟨started, operations, heq, hlength, _, hoperations⟩ := t.addStartEvents_eq log
  have hnone : operations.count .started = 0 := by
    rcases hoperations with rfl | ⟨_, _, _, rfl⟩ <;> simp
  rw [heq, List.count_append, hnone, Nat.add_zero]
  exact List.count_le_length.trans hlength

/-- Only the active Operation is announced, and only while no row does. -/
theorem addStartEvents_operation (t : Tables) (log : EventLog) (operationId : UUID) :
    ((t.addStartEvents log).map (·.subject)).count (.operationStarted operationId) ≤
      (t.execution.activeOperationId == some operationId &&
        !log.eventsHaveOperationStarted operationId).toNat := by
  obtain ⟨started, operations, heq, _, hstarted, hoperations⟩ := t.addStartEvents_eq log
  have hnone : started.count (.operationStarted operationId) = 0 := by
    rw [List.count_eq_zero]
    intro hmem
    cases hstarted _ hmem
  rw [heq, List.count_append, hnone, Nat.zero_add]
  rcases hoperations with rfl | ⟨active, hactive, hevents, rfl⟩
  · exact Nat.zero_le _
  · by_cases hid : active = operationId
    · subst hid
      simp [hactive, hevents]
    · simp [hid]

end Tables

/-- The start events of a move are those the transaction announces. -/
theorem OperationMove.count_le {announced events : List EventSubject} {cancels : Bool}
    {c c' : OperationColumns} (h : OperationMove announced cancels c events c')
    {subject : EventSubject}
    (hsubject : ∀ id s, subject ≠ .operationCompleted id s) :
    events.count subject ≤ announced.count subject := by
  have completed : ∀ {id : UUID} {c : OperationColumns}, (c.completed id).count subject = 0 := by
    intro id c
    rw [List.count_eq_zero]
    intro hmem
    simp only [OperationColumns.completed, Option.mem_toList, Option.map_eq_some_iff] at hmem
    obtain ⟨o, _, ho⟩ := hmem
    exact hsubject _ _ ho.symm
  cases h with
  | stay => exact le_refl _
  | append => exact Nat.zero_le _
  | reopen => exact Nat.zero_le _
  | close =>
    cases c.openActive with
    | none => exact Nat.zero_le _
    | some id => exact completed.le.trans (Nat.zero_le _)
  | complete => exact completed.le.trans (Nat.zero_le _)
  | cancel =>
    cases c.active with
    | none => exact Nat.zero_le _
    | some id => exact completed.le.trans (Nat.zero_le _)

/-! ### Histories -/

variable {settings : Settings}

theorem EventLog.emitted_eq {subject : EventSubject} (hsubject : subject.isOperational = true)
    (log : EventLog) : log.emitted subject =
      ((log.history.map (·.payload.subject)).filter (·.isOperational)).count subject := by
  rw [List.count_filter hsubject, List.count, List.countP_map, emitted]
  rfl

/-- A committed transaction persists a start event at most as often as it
announces it. -/
theorem History.step_emitted_le {h : History} {eventTime : Time} {tx : TableTransaction}
    {subject : EventSubject}
    (hsubject : subject = .started ∨ ∃ operationId, subject = .operationStarted operationId) :
    (h.step settings (.table eventTime tx)).rows.log.emitted subject ≤
        h.rows.log.emitted subject ∨
      ∃ change, tx.change settings h.rows = .ok change ∧
        (h.step settings (.table eventTime tx)).rows.log.emitted subject ≤
          h.rows.log.emitted subject + (tx.announced h.rows).count subject := by
  have operational : subject.isOperational = true := by
    rcases hsubject with rfl | ⟨_, rfl⟩ <;> rfl
  rcases History.step_operations with hstep | ⟨events, hmove, _, hhistory, change, hchange⟩
  · rw [hstep]
    exact .inl (le_refl _)
  refine .inr ⟨change, hchange, ?_⟩
  have hcount : events.count subject ≤ (tx.announced h.rows).count subject := by
    refine hmove.count_le fun id s => ?_
    rcases hsubject with rfl | ⟨_, rfl⟩ <;> simp
  rw [EventLog.emitted_eq operational, EventLog.emitted_eq operational, hhistory,
    List.count_append]
  exact Nat.add_le_add_left hcount _

/-- At most one start event of each kind was persisted so far. -/
structure History.StartedOnce (h : History) : Prop where
  started : h.rows.log.emitted .started ≤ 1
  operations : ∀ operationId, h.rows.log.emitted (.operationStarted operationId) ≤ 1

theorem History.StartedOnce.step {h : History} {tx : Transaction} (hs : h.StartedOnce)
    (hok : StartsRemembered h tx) : (h.step settings tx).StartedOnce := by
  cases tx with
  -- A log write emits nothing new.
  | log tx =>
    have hsame : ∀ subject, (h.step settings (.log tx)).rows.log.emitted subject =
        h.rows.log.emitted subject := by
      intro subject
      simp only [History.step, EventLog.emitted, LogTransaction.apply_history]
    exact ⟨(hsame _).le.trans hs.started, fun id => (hsame _).le.trans (hs.operations id)⟩
  | table eventTime tx =>
    have step := @History.step_emitted_le settings h eventTime tx
    cases tx
    case recordRuntimeSession clock lease session workspace notebook =>
      -- A column that remembers the earlier event keeps the count at one.
      have bound : ∀ {before after announced : ℕ} {found : Bool}, before ≤ 1 →
          after ≤ before + announced → announced ≤ (!found).toNat →
          (0 < before → found = true) → after ≤ 1 := by
        intro before after announced found hbefore hafter hannounced hfound
        cases found with
        | true =>
          rw [Bool.not_true, Bool.toNat_false] at hannounced
          omega
        | false =>
          rw [Bool.not_false, Bool.toNat_true] at hannounced
          have hzero : before = 0 := by
            by_contra hne
            cases hfound (Nat.pos_of_ne_zero hne)
          omega
      refine ⟨?_, fun operationId => ?_⟩
      · rcases step (.inl rfl) with hle | ⟨change, hchange, hle⟩
        · exact hle.trans hs.started
        -- The start of the Execution is remembered by its own row.
        have remembers := hok (Tables.recordRuntimeSession_ok hchange).1
        exact bound hs.started hle (Tables.addStartEvents_started _ _) remembers.started
      · rcases step (.inr ⟨operationId, rfl⟩) with hle | ⟨change, hchange, hle⟩
        · exact hle.trans (hs.operations operationId)
        have remembers := hok (Tables.recordRuntimeSession_ok hchange).1
        have hannounced := Tables.addStartEvents_operation (h.rows.tables.withSession clock.now
          lease.attemptId session workspace notebook) h.rows.log operationId
        -- Only the active Operation is announced, and its row remembers it.
        by_cases hactive : h.rows.tables.execution.activeOperationId = some operationId
        · have hcolumn : (h.rows.tables.withSession clock.now lease.attemptId session workspace
              notebook).execution.activeOperationId = some operationId := hactive
          rw [hcolumn, beq_self_eq_true, Bool.true_and] at hannounced
          exact bound (hs.operations operationId) hle hannounced
            (remembers.operation operationId hactive)
        · have hcolumn : ((h.rows.tables.withSession clock.now lease.attemptId session workspace
              notebook).execution.activeOperationId == some operationId) = false := by
            rw [beq_eq_false_iff_ne]
            exact hactive
          rw [hcolumn, Bool.false_and, Bool.toNat_false] at hannounced
          exact hle.trans ((Nat.add_le_add_left hannounced _).trans (hs.operations operationId))
    -- No other transaction emits a start.
    all_goals
      refine ⟨?_, fun operationId => ?_⟩
      · rcases step (.inl rfl) with hle | ⟨_, _, hle⟩
        · exact hle.trans hs.started
        · exact hle.trans hs.started
      · rcases step (.inr ⟨operationId, rfl⟩) with hle | ⟨_, _, hle⟩
        · exact hle.trans (hs.operations operationId)
        · exact hle.trans (hs.operations operationId)

/-- At most one `execution.started` is ever persisted for an Execution, and at
most one `operation_started` for each Operation, in every history that keeps the
rows of earlier starts until the last session is recorded. -/
theorem start_events_once (s : Submission settings) (txs : List Transaction)
    (h : Transition.Along (History.step settings) StartsRemembered s.history txs) :
    (s.run txs).rows.log.emitted .started ≤ 1 ∧
      ∀ operationId, (s.run txs).rows.log.emitted (.operationStarted operationId) ≤ 1 := by
  have hstart : s.history.StartedOnce := ⟨Nat.zero_le _, fun _ => Nat.zero_le _⟩
  have honce : (s.run txs).StartedOnce :=
    Transition.invariant (fun _ _ hs hok => hs.step hok) hstart h
  exact ⟨honce.started, honce.operations⟩

/-! ### A retry after retention -/

namespace Small

/-- A first run that fails on its Runtime. -/
def lostRun : List Transaction :=
  [.table 1 (.claim 1 7 20 view),
    .table 2 (.recordRuntimeSession (clock 2) (lease 20 1) 30 "workspace" "notebook"),
    .table 3 (.markStarted (clock 3) (lease 20 1) 0 40 41 0),
    .table 4 (.finalize (clock 4) (lease 20 1)
      { status := .failed
        errorMessage := some "connection lost"
        failureType := some .infrastructureError
        retryStrategy := .fromStart
        cleanupStatus := .succeeded })]

/-- A retry of that run. -/
def retriedRun (now : Time) : List Transaction :=
  [.table now (.retry now 300),
    .table now (.claim now 7 21 view),
    .table now (.recordRuntimeSession (clock now) (lease 21 2) 31 "workspace" "notebook")]

/-- The events of the first run are published and forgotten before the retry. -/
def forgottenRun : List Transaction :=
  lostRun ++ [.log (.markPublished 5 [1, 2, 3, 4, 5, 6]),
    .log (.deletePublishedOutbox 200 [1, 2, 3, 4, 5, 6])] ++ retriedRun 201

end Small

/-- Without a retention pass between the runs the retry announces nothing again. -/
theorem start_events_once_retriedRun :
    let h := (Small.submission .single).run (Small.lostRun ++ Small.retriedRun 5)
    h.rows.tables.execution.retryCount = 1 ∧ h.rows.log.emitted .started ≤ 1 := by
  refine ⟨by decide +kernel, (start_events_once (Small.submission .single)
    (Small.lostRun ++ Small.retriedRun 5) ?_).1⟩
  -- Both runs record a session for the one Operation.
  have remembers : ∀ {r : Rows}, r.tables.execution.activeOperationId = some 10 →
      (0 < r.log.emitted .started → r.log.outboxHasStarted = true) →
      (0 < r.log.emitted (.operationStarted 10) →
        r.log.eventsHaveOperationStarted 10 = true) → r.RemembersStarts := by
    intro r hactive started operation
    refine ⟨started, fun operationId hid => ?_⟩
    rw [hactive, Option.some.injEq] at hid
    exact hid ▸ operation
  refine ⟨trivial, fun _ => remembers ?_ ?_ ?_, trivial, trivial, trivial, trivial,
    fun _ => remembers ?_ ?_ ?_, trivial⟩
  all_goals decide +kernel

/-- The retry announced the Execution a second time. -/
theorem retention_repeats_started :
    ¬ ∀ (settings : Settings) (s : Submission settings) (txs : List Transaction),
      (s.run txs).rows.log.emitted .started ≤ 1 ∧
        ∀ operationId, (s.run txs).rows.log.emitted (.operationStarted operationId) ≤ 1 := by
  intro h
  have hstarted := (h Small.settings (Small.submission .single) Small.forgottenRun).1
  revert hstarted
  decide +kernel

end ExecutorService
