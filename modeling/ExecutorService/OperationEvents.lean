/-
Completion events of Operations.

Every path that ends an Operation writes `operation_completed` beside it, and all
but one write it only for an Operation that was open.  The cancellation writes it
for the active Operation whether it was open or not, so a cancel of an Execution
that waits for its next Operation announces the last one a second time.

* `OperationMove.completed_count` — the events of one move count the Operations
  it closes;
* `operation_completed_once` — so do those of every history in which no
  cancellation ends an Execution whose active Operation is already terminal;
* `cancel_repeats_operation_completed` — a history in which one does.
-/
import ExecutorService.OperationMoves

namespace ExecutorService

/-- The Operation moved from an open status to a terminal one. -/
def Tables.completes (operationId : UUID) (t t' : Tables) : Bool :=
  (t.operation? operationId).any (!·.status.isTerminal) &&
    (t'.operation? operationId).any (·.status.isTerminal)

/-- The event announces the end of an Operation. -/
def EventSubject.isCompletedOf (operationId : UUID) : EventSubject → Bool
  | .operationCompleted id _ => id == operationId
  | _ => false

/-- The `operation_completed` events ever persisted for an Operation. -/
def EventLog.completedCount (operationId : UUID) (log : EventLog) : ℕ :=
  log.history.countP fun e => e.payload.subject.isCompletedOf operationId

/-! ### One move -/

/-- `Tables.completes` on the columns. -/
def OperationColumns.completes (id : UUID) (c c' : OperationColumns) : Bool :=
  (c.operations.find? (·.1 == id)).any (!·.2.isTerminal) &&
    (c'.operations.find? (·.1 == id)).any (·.2.isTerminal)

theorem completes_columns (operationId : UUID) (t t' : Tables) :
    t.operationColumns.completes operationId t'.operationColumns = t.completes operationId t' := by
  simp only [OperationColumns.completes, Tables.completes, Tables.operationColumns,
    Tables.operation?, List.find?_map, Option.any_map]
  rfl

namespace OperationColumns

variable {c : OperationColumns} {p : UUID × OperationStatus → Bool} {s : OperationStatus}
  {status : ExecutionStatus}

/-- An assignment closes the selected Operations that were open. -/
theorem completes_assign (hs : s.isTerminal = true) (id : UUID) :
    c.completes id (c.assign p s status) =
      (c.operations.find? (·.1 == id)).any fun o => !o.2.isTerminal && p o := by
  rw [completes, find_assign]
  cases c.operations.find? (·.1 == id) with
  | none => rfl
  | some o =>
    cases hp : p o
    · cases ho : o.2.isTerminal <;> simp [hp, ho]
    · simp [hp, hs]

/-- Closing exactly one open Operation, with its event. -/
theorem completed_count_of_mem (h : c.Sound) (hs : s.isTerminal = true)
    {o : UUID × OperationStatus} (ho : o ∈ c.operations) (hopen : o.2.isTerminal = false)
    (hp : p o = true) (id : UUID) :
    ((c.assign p s status).completed o.1).countP (·.isCompletedOf id) =
      (c.completes id (c.assign p s status)).toNat := by
  rw [completed_assign_of_mem h.nodup ho hp, completes_assign hs]
  by_cases hid : o.1 = id
  · subst hid
    rw [List.find?_of_nodup h.nodup ho]
    simp [EventSubject.isCompletedOf, hopen, hp]
  · -- Another open Operation would be the active one too.
    have hother : (c.operations.find? (·.1 == id)).any (fun o => !o.2.isTerminal && p o) = false := by
      cases hfound : c.operations.find? (·.1 == id) with
      | none => rfl
      | some o' =>
        have hid' : o'.1 = id := by simpa using List.find?_some hfound
        have hclosed : o'.2.isTerminal = true := by
          by_contra hopen'
          have hactive' := h.active o' (List.mem_of_find?_eq_some hfound) (by simpa using hopen')
          have hactive := h.active o ho hopen
          exact hid (Option.some.inj (hactive.trans hactive'.symm) |>.trans hid')
        simp [hclosed]
    rw [hother]
    simp [EventSubject.isCompletedOf, hid]

end OperationColumns

/-- A move writes one completion event for each Operation it closes, and no
other, unless it cancels an Execution whose active Operation is not open. -/
theorem OperationMove.completed_count {announced events : List EventSubject} {cancels : Bool}
    {c c' : OperationColumns} (h : OperationMove announced cancels c events c') (hc : c.Sound)
    (valid : ∀ id s, .operationCompleted id s ∈ events → s.isTerminal = true)
    (starts : ∀ subject ∈ announced, ∀ id, subject.isCompletedOf id = false)
    (opened : cancels = true → c.openActive.isSome = true) (id : UUID) :
    events.countP (·.isCompletedOf id) = (c.completes id c').toNat := by
  -- An Operation that keeps its status completes nothing.
  have unmoved : ∀ o : Option (UUID × OperationStatus),
      (o.any (!·.2.isTerminal) && o.any (·.2.isTerminal)) = false := by
    intro o
    cases o with
    | none => rfl
    | some o => simp
  cases h with
  | stay =>
    have hcount : announced.countP (·.isCompletedOf id) = 0 :=
      List.countP_eq_zero.mpr fun subject hsubject => by simp [starts subject hsubject id]
    rw [hcount, OperationColumns.completes, unmoved]
    rfl
  | @append new before fresh =>
    have hsame : c.completes id ⟨.queued, some new, c.operations ++ [(new, .queued)]⟩ = false := by
      rw [OperationColumns.completes, List.find?_append]
      cases hfound : c.operations.find? (·.1 == id) with
      | none => rfl
      | some o => exact unmoved (some o)
    rw [hsame]
    rfl
  | @reopen status p s active running after =>
    have hsame : c.completes id (c.assign p s status) = false := by
      rw [OperationColumns.completes, OperationColumns.find_assign]
      cases c.operations.find? (·.1 == id) with
      | none => rfl
      | some o => cases hp : p o <;> simp [hp, running]
    rw [hsame]
    rfl
  | @close status s terminal =>
    cases hactive : c.openActive with
    | none =>
      -- Nothing is open, so nothing is assigned.
      have hsame : c.completes id (c.assign c.isOpenActive s status) = false := by
        rw [OperationColumns.completes_assign terminal]
        rw [OperationColumns.openActive, Option.map_eq_none_iff, List.find?_eq_none] at hactive
        cases hfound : c.operations.find? (·.1 == id) with
        | none => rfl
        | some o =>
          have hclosed := hactive o (List.mem_of_find?_eq_some hfound)
          simp [hclosed]
      rw [hsame]
      rfl
    | some active =>
      rw [OperationColumns.openActive, Option.map_eq_some_iff] at hactive
      obtain ⟨o, hfound, rfl⟩ := hactive
      have hopen := List.find?_some hfound
      refine OperationColumns.completed_count_of_mem hc terminal
        (List.mem_of_find?_eq_some hfound) ?_ hopen id
      simp only [OperationColumns.isOpenActive, Bool.and_eq_true, Bool.not_eq_true'] at hopen
      exact hopen.2
  | @complete completed s running =>
    have hmem := List.mem_of_find?_eq_some running
    have terminal : s.isTerminal = true := by
      refine valid completed s ?_
      rw [OperationColumns.completed_assign_of_mem hc.nodup hmem (by simp)]
      exact List.mem_singleton_self _
    exact OperationColumns.completed_count_of_mem hc terminal hmem rfl (by simp) id
  | @cancel status s cancelled terminal before =>
    obtain ⟨active, hactive⟩ := Option.isSome_iff_exists.mp (opened cancelled)
    rw [OperationColumns.openActive, Option.map_eq_some_iff] at hactive
    obtain ⟨o, hfound, rfl⟩ := hactive
    have hopen := List.find?_some hfound
    simp only [OperationColumns.isOpenActive, Bool.and_eq_true, beq_iff_eq,
      Bool.not_eq_true'] at hopen
    rw [← hopen.1]
    exact OperationColumns.completed_count_of_mem hc terminal
      (List.mem_of_find?_eq_some hfound) hopen.2 (by simp [hopen.2]) id

/-! ### Histories -/

variable {settings : Settings}

/-- A cancellation is finalized under its lease only while the active Operation
is QUEUED or RUNNING. -/
def CancelledWhileOpen (h : History) : Transaction → Prop
  | .table _ (.finalizeCancellation clock lease _) =>
    h.rows.tables.requireActiveCancellationLease clock.lease lease = .ok () →
      h.rows.tables.openActiveOperation.isSome = true
  | _ => True

/-- What a committed transaction does to the Operations and to the history. -/
theorem History.step_operations {h : History} {eventTime : Time} {tx : TableTransaction} :
    h.step settings (.table eventTime tx) = h ∨
      ∃ events : List EventSubject,
        OperationMove (tx.announced h.rows) tx.endsCancellation h.rows.tables.operationColumns
          events (h.step settings (.table eventTime tx)).rows.tables.operationColumns ∧
        (∀ id s, .operationCompleted id s ∈ events → s.isTerminal = true) ∧
        ((h.step settings (.table eventTime tx)).rows.log.history.map
          (·.payload.subject)).filter (·.isOperational) =
          (h.rows.log.history.map (·.payload.subject)).filter (·.isOperational) ++ events ∧
        ∃ change, tx.change settings h.rows = .ok change := by
  rcases History.step_table with hstep | ⟨change, log, hchange, hlog, hstep⟩
  · exact .inl hstep
  refine .inr ⟨change.operational, ?_, ?_, ?_, change, hchange⟩
  · rw [hstep]
    exact operationMove_of_change hchange
  · intro id s hmem
    obtain ⟨payload, hpayload, hsubject⟩ := List.mem_map.mp (List.mem_filter.mp hmem).1
    obtain ⟨_, hvalid⟩ := EventLog.persistAll_valid hlog payload hpayload
    exact validateExecutionEventPayload_terminal hvalid hsubject
  · obtain ⟨rows, hrows, rfl⟩ := EventLog.persistAll_ok hlog
    rw [hstep, Change.operational, ← hrows]
    show ((h.rows.log.history ++ rows).map _).filter _ = _
    rw [List.map_append, List.filter_append]

theorem EventLog.completedCount_eq (operationId : UUID) (log : EventLog) :
    log.completedCount operationId =
      ((log.history.map (·.payload.subject)).filter (·.isOperational)).countP
        (·.isCompletedOf operationId) := by
  rw [List.countP_filter, List.countP_map, completedCount]
  refine List.countP_congr fun e _ => ?_
  show _ ↔ (e.payload.subject.isCompletedOf operationId && e.payload.subject.isOperational) = true
  cases e.payload <;> simp [EventPayload.subject, EventSubject.isCompletedOf,
    EventSubject.isOperational]

theorem TableTransaction.announced_starts (r : Rows) (tx : TableTransaction) :
    ∀ subject ∈ tx.announced r,
      subject = .started ∨ ∃ operationId, subject = .operationStarted operationId := by
  cases tx
  case recordRuntimeSession => exact Tables.addStartEvents_subject _ _
  all_goals exact fun subject hsubject => absurd hsubject List.not_mem_nil

theorem Submission.operations_sound (s : Submission settings) :
    s.history.rows.tables.operationColumns.Sound := by
  have hcolumns : s.history.rows.tables.operationColumns =
      ⟨.queued, some s.command.operationId, [(s.command.operationId, .queued)]⟩ := by
    have h := s.accepted
    simp only [submit, Txn.bind_ok] at h
    obtain ⟨_, _, _, _, _, _, steps, _, h⟩ := h
    split at h
    · cases h
    · rw [Submission.history, ← Txn.pure_ok.mp h]
      rfl
  rw [hcolumns]
  refine ⟨List.nodup_singleton _, fun o ho _ => ?_, fun h => by cases h⟩
  rw [List.mem_singleton.mp ho]

theorem History.step_operations_sound {h : History} (hs : h.rows.tables.operationColumns.Sound)
    (tx : Transaction) : (h.step settings tx).rows.tables.operationColumns.Sound := by
  cases tx with
  | log tx => exact hs
  | table eventTime tx =>
    rcases History.step_operations with hstep | ⟨events, hmove, hvalid, _⟩
    · rw [hstep]
      exact hs
    · exact hmove.sound hs hvalid

theorem History.step_completedCount {h : History}
    (hs : h.rows.tables.operationColumns.Sound) {tx : Transaction}
    (hok : CancelledWhileOpen h tx) (operationId : UUID) :
    (h.step settings tx).rows.log.completedCount operationId =
      h.rows.log.completedCount operationId +
        (h.rows.tables.completes operationId (h.step settings tx).rows.tables).toNat := by
  have unmoved : ∀ t : Tables, t.completes operationId t = false := by
    intro t
    cases hfound : t.operation? operationId with
    | none => simp [Tables.completes, hfound]
    | some o => simp [Tables.completes, hfound]
  cases tx with
  | log tx =>
    have hsame : (h.step settings (.log tx)).rows.log.completedCount operationId =
        h.rows.log.completedCount operationId := by
      simp only [History.step, EventLog.completedCount, LogTransaction.apply_history]
    have htables : (h.step settings (.log tx)).rows.tables = h.rows.tables := rfl
    rw [hsame, htables, unmoved]
    rfl
  | table eventTime tx =>
    rcases History.step_operations with hstep | ⟨events, hmove, hvalid, hhistory, change, hchange⟩
    · rw [hstep, unmoved]
      rfl
    have starts : ∀ subject ∈ tx.announced h.rows, ∀ id, subject.isCompletedOf id = false := by
      intro subject hsubject id
      rcases tx.announced_starts h.rows subject hsubject with rfl | ⟨_, rfl⟩ <;> rfl
    have opened : tx.endsCancellation = true →
        h.rows.tables.operationColumns.openActive.isSome = true := by
      intro hcancels
      cases tx <;> simp only [TableTransaction.endsCancellation, Bool.false_eq_true] at hcancels
      rw [Tables.openActive_columns]
      exact hok (Tables.finalizeCancellation_ok hchange).1
    rw [EventLog.completedCount_eq, EventLog.completedCount_eq, hhistory, List.countP_append,
      hmove.completed_count hs hvalid starts opened, completes_columns]

/-- The `operation_completed` events of an Operation are as many as its moves to
a terminal status, in every history whose cancellations end an Execution while
its active Operation is open. -/
theorem operation_completed_once (s : Submission settings) (txs : List Transaction)
    (h : Transition.Along (History.step settings) CancelledWhileOpen s.history txs)
    (operationId : UUID) :
    (s.run txs).rows.log.completedCount operationId =
      Transition.count (History.step settings)
        (fun h h' => h.rows.tables.completes operationId h'.rows.tables) s.history txs := by
  let counter (h : History) : ℕ := h.rows.log.completedCount operationId
  let kind (h h' : History) : Bool := h.rows.tables.completes operationId h'.rows.tables
  have hsound : ∀ (h : History) (tx : Transaction), h.rows.tables.operationColumns.Sound →
      CancelledWhileOpen h tx → (h.step settings tx).rows.tables.operationColumns.Sound :=
    fun h tx hs _ => h.step_operations_sound hs tx
  have hcount : ∀ (h : History) (tx : Transaction), h.rows.tables.operationColumns.Sound →
      CancelledWhileOpen h tx →
      counter (h.step settings tx) = counter h + (kind h (h.step settings tx)).toNat :=
    fun h tx hs hok => h.step_completedCount hs hok operationId
  have hbalance := Transition.balance hsound hcount s.operations_sound h
  have hstart : counter s.history = 0 := rfl
  rw [hstart, Nat.zero_add] at hbalance
  exact hbalance

/-! ### A cancelled run and a cancelled wait -/

/-- A cancel of a running Execution. -/
def Small.cancelledRun : List Transaction :=
  failedRun ++
  [.table 6 (.cancel 6 200 none),
    .table 7 (.releaseForCancellation (clock 7) (lease 20 1)),
    .table 8 (.claimCancellation 8 8),
    .table 9 (.finalizeCancellation (clock 9) ⟨1, 8, 2⟩ .succeeded)]

theorem operation_completed_once_cancelledRun :
    let h := (Small.submission .multi).run Small.cancelledRun
    h.rows.tables.execution.status = .cancelled ∧ h.rows.log.completedCount 10 =
      Transition.count (History.step Small.settings)
        (fun h h' => h.rows.tables.completes 10 h'.rows.tables)
        (Small.submission .multi).history Small.cancelledRun := by
  refine ⟨by decide +kernel, operation_completed_once _ _ ?_ 10⟩
  refine ⟨trivial, trivial, trivial, trivial, trivial, trivial, trivial, trivial, fun _ => ?_,
    trivial⟩
  decide +kernel

/-- A MULTI Operation fails and its Execution waits; a cancel ends the wait. -/
def Small.cancelledWait : List Transaction :=
  failedRun ++
  [.table 6 (.skipStepsAfter (clock 6) (lease 20 1) 10 0),
    .table 7 (.completeOperation (clock 7) (lease 20 1) 10 .failed (some "boom") (some .toolError)),
    .table 8 (.cancel 8 200 none),
    .table 9 (.claimCancellation 9 8),
    .table 10 (.finalizeCancellation (clock 10) ⟨1, 8, 2⟩ .succeeded)]

/-- The Operation completed once and its completion was announced twice. -/
theorem cancel_repeats_operation_completed :
    ¬ ∀ (settings : Settings) (s : Submission settings) (txs : List Transaction)
      (operationId : UUID),
      (s.run txs).rows.log.completedCount operationId =
        Transition.count (History.step settings)
          (fun h h' => h.rows.tables.completes operationId h'.rows.tables) s.history txs := by
  intro h
  have hcounts := h Small.settings (Small.submission .multi) Small.cancelledWait 10
  revert hcounts
  decide +kernel

end ExecutorService
