/-
Operation moves.

Seven kinds of change are all that a transaction can do to the Operations of an
Execution, with the events about Operations it writes beside them.  The columns
involved are the Execution's status, its active Operation and the statuses of all
its Operations; `OperationColumns` holds them and `OperationMove` lists the moves.

* `operationMove_of_change` — every transaction is one of the moves;
* `OperationColumns.Sound` — at most the active Operation is open, and none is
  while the Execution waits, is finalizing or has ended;
* `OperationMove.sound` — every move whose events are valid keeps it.
-/
import ExecutorService.Store

namespace ExecutorService

/-- Statuses in which no Operation is open. -/
def ExecutionStatus.isSettled : ExecutionStatus → Bool
  | .waitingForOperation | .finalizing | .cancelled | .succeeded | .failed => true
  | .queued | .running | .cancelRequested => false

/-- Events that announce the start of a run or a move of an Operation. -/
def EventSubject.isOperational : EventSubject → Bool
  | .started | .operationStarted _ | .operationCompleted _ _ => true
  | _ => false

/-- The events of a change that are about Operations, in order. -/
def Change.operational (c : Change) : List EventSubject :=
  (c.events.map (·.subject)).filter (·.isOperational)

/-- The columns Operations move in. -/
structure OperationColumns where
  status : ExecutionStatus
  active : Option UUID
  operations : List (UUID × OperationStatus)

/-- The statuses of the Execution and of its Operations. -/
def Tables.operationColumns (t : Tables) : OperationColumns where
  status := t.execution.status
  active := t.execution.activeOperationId
  operations := t.operations.map fun o => (o.id, o.status)

namespace OperationColumns

/-- The active Operation while it is open. -/
def isOpenActive (c : OperationColumns) (o : UUID × OperationStatus) : Bool :=
  some o.1 == c.active && !o.2.isTerminal

/-- The active Operation, if it has not ended. -/
def openActive (c : OperationColumns) : Option UUID :=
  (c.operations.find? c.isOpenActive).map (·.1)

/-- The event `add_operation_completed_event` writes. -/
def completed (id : UUID) (c : OperationColumns) : List EventSubject :=
  ((c.operations.find? (·.1 == id)).map fun o => .operationCompleted o.1 o.2).toList

/-- The selected Operations get a status. -/
def assign (p : UUID × OperationStatus → Bool) (s : OperationStatus) (status : ExecutionStatus)
    (c : OperationColumns) : OperationColumns :=
  { c with status := status, operations := c.operations.updateWhere p fun o => (o.1, s) }

end OperationColumns

/-- What a transaction can do to the Operations; `announced` are the start
events it writes, `cancels` says that it ends a cancellation. -/
inductive OperationMove (announced : List EventSubject) (cancels : Bool) (c : OperationColumns) :
    List EventSubject → OperationColumns → Prop
  | stay {status : ExecutionStatus}
      (settled : status.isSettled = true → c.status.isSettled = true) :
      OperationMove announced cancels c announced { c with status := status }
  | append {id : UUID} (before : c.status = .waitingForOperation)
      (fresh : ∀ o ∈ c.operations, o.1 ≠ id) :
      OperationMove announced cancels c []
        ⟨.queued, some id, c.operations ++ [(id, .queued)]⟩
  | reopen {status : ExecutionStatus} {p : UUID × OperationStatus → Bool} {s : OperationStatus}
      (active : ∀ o ∈ c.operations, p o = true → some o.1 = c.active)
      (running : s.isTerminal = false) (after : status.isSettled = false) :
      OperationMove announced cancels c [] (c.assign p s status)
  | close {status : ExecutionStatus} {s : OperationStatus} (terminal : s.isTerminal = true) :
      OperationMove announced cancels c
        (match c.openActive with
          | some id => (c.assign c.isOpenActive s status).completed id
          | none => [])
        (c.assign c.isOpenActive s status)
  | complete {id : UUID} {s : OperationStatus}
      (running : c.operations.find? (·.1 == id) = some (id, .running)) :
      OperationMove announced cancels c
        ((c.assign (·.1 == id) s .waitingForOperation).completed id)
        (c.assign (·.1 == id) s .waitingForOperation)
  | cancel {status : ExecutionStatus} {s : OperationStatus} (cancelled : cancels = true)
      (terminal : s.isTerminal = true) (before : c.status = .cancelRequested) :
      OperationMove announced cancels c
        (match c.active with
          | some id => (c.assign (!·.2.isTerminal) s status).completed id
          | none => [])
        (c.assign (!·.2.isTerminal) s status)

/-- The start events a transaction writes. -/
def TableTransaction.announced (r : Rows) : TableTransaction → List EventSubject
  | .recordRuntimeSession clock lease session workspace notebook =>
    ((r.tables.withSession clock.now lease.attemptId session workspace
      notebook).addStartEvents r.log).map (·.subject)
  | _ => []

/-- The transaction ends a cancellation. -/
def TableTransaction.endsCancellation : TableTransaction → Bool
  | .finalizeCancellation .. => true
  | _ => false

/-! ### Columns of the updates -/

namespace Tables

variable {t : Tables}

theorem isOpenActive_columns (o : OperationRow) :
    t.operationColumns.isOpenActive (o.id, o.status) = t.isOpenActive o := by
  simp only [OperationColumns.isOpenActive, isOpenActive, operationColumns]
  cases o.status <;> rfl

theorem openActive_columns : t.operationColumns.openActive = t.openActiveOperation := by
  have hselect : (t.operationColumns.isOpenActive ∘ fun o : OperationRow => (o.id, o.status)) =
      t.isOpenActive := funext isOpenActive_columns
  rw [OperationColumns.openActive, operationColumns, List.find?_map, Option.map_map,
    openActiveOperation, ← hselect]
  rfl

theorem completed_columns (operationId : UUID) :
    (t.addOperationCompletedEvent operationId).map (·.subject) =
      t.operationColumns.completed operationId := by
  rw [addOperationCompletedEvent_subject]
  simp only [OperationColumns.completed, operationColumns, List.find?_map, Option.map_map]
  rfl

/-- An update that assigns the status of Operations it selects by id and status. -/
theorem operationColumns_of_update {t' : Tables} {p : OperationRow → Bool}
    {f : OperationRow → OperationRow} {p' : UUID × OperationStatus → Bool} {s : OperationStatus}
    (hactive : t'.execution.activeOperationId = t.execution.activeOperationId)
    (hoperations : t'.operations = t.operations.updateWhere p f)
    (hp : ∀ o : OperationRow, p' (o.id, o.status) = p o)
    (hf : ∀ o, (f o).id = o.id ∧ (f o).status = s) :
    t'.operationColumns = t.operationColumns.assign p' s t'.execution.status := by
  simp only [operationColumns, OperationColumns.assign, hactive, hoperations,
    OperationColumns.mk.injEq, true_and]
  refine List.map_updateWhere_comm hp (fun o => ?_) _
  rw [(hf o).1, (hf o).2]

theorem closeActiveOperation_columns {f : OperationRow → OperationRow} {s : OperationStatus}
    (hf : ∀ o, (f o).id = o.id ∧ (f o).status = s) :
    (t.closeActiveOperation f).operationColumns =
      t.operationColumns.assign t.operationColumns.isOpenActive s t.execution.status :=
  operationColumns_of_update rfl rfl isOpenActive_columns hf

/-- The same after other updates of the transaction moved the status. -/
theorem closeActiveOperation_columns_of {before : Tables} {f : OperationRow → OperationRow}
    {s : OperationStatus} {status : ExecutionStatus}
    (hbefore : before.operationColumns = { t.operationColumns with status := status })
    (hf : ∀ o, (f o).id = o.id ∧ (f o).status = s) :
    (before.closeActiveOperation f).operationColumns =
      t.operationColumns.assign t.operationColumns.isOpenActive s status := by
  have hstatus : before.execution.status = status := congrArg (·.status) hbefore
  rw [closeActiveOperation_columns hf, hbefore, hstatus]
  rfl

@[simp] theorem operationColumns_markAttemptPending (t : Tables) :
    t.markAttemptPending.operationColumns = t.operationColumns := by
  unfold markAttemptPending
  split <;> rfl

/-- Only start events are among those of `add_start_events`. -/
theorem addStartEvents_subject (t : Tables) (log : EventLog) :
    ∀ subject ∈ (t.addStartEvents log).map (·.subject),
      subject = .started ∨ ∃ operationId, subject = .operationStarted operationId := by
  intro subject hsubject
  simp only [addStartEvents] at hsubject
  repeat' split at hsubject
  all_goals
    simp only [List.map_nil, List.map_cons, List.map_append, List.mem_cons, List.mem_append,
      List.not_mem_nil, or_false, List.nil_append, EventPayload.subject] at hsubject
  all_goals grind

theorem addStartEvents_operational (t : Tables) (log : EventLog) :
    ∀ subject ∈ (t.addStartEvents log).map (·.subject), subject.isOperational = true := by
  intro subject hsubject
  rcases addStartEvents_subject t log subject hsubject with rfl | ⟨_, rfl⟩ <;> rfl

/-- The events of an end that closes the open active Operation. -/
theorem closedOperationEvent_subject (before after : Tables) :
    (closedOperationEvent before after).map (·.subject) =
      match before.operationColumns.openActive with
      | some operationId => after.operationColumns.completed operationId
      | none => [] := by
  rw [openActive_columns]
  simp only [closedOperationEvent]
  cases before.openActiveOperation with
  | none => rfl
  | some operationId => exact completed_columns operationId

end Tables

theorem OperationColumns.completed_operational (id : UUID) (c : OperationColumns) :
    (c.completed id).filter (·.isOperational) = c.completed id := by
  unfold completed
  cases c.operations.find? (·.1 == id) <;> rfl

/-- Step events are not about Operations. -/
theorem filter_stepEvents {events : List EventPayload} {status : StepStatus}
    (h : ∀ e ∈ events, ∃ s a, e.subject = .stepCompleted status s a) :
    (events.map (·.subject)).filter (·.isOperational) = [] := by
  rw [List.filter_eq_nil_iff]
  intro subject hsubject
  obtain ⟨e, he, rfl⟩ := List.mem_map.mp hsubject
  obtain ⟨s, a, hs⟩ := h e he
  simp [hs, EventSubject.isOperational]

/-! ### Moves of the transactions -/

namespace OperationMove

variable {announced : List EventSubject} {cancels : Bool} {t : Tables} {c : Change}

theorem of_eq (hcolumns : c.tables.operationColumns = t.operationColumns)
    (hevents : c.operational = announced) :
    OperationMove announced cancels t.operationColumns c.operational c.tables.operationColumns := by
  rw [hcolumns, hevents]
  exact .stay fun h => h

/-- A transaction that moves the status and writes no event about an Operation. -/
theorem of_status (hsettled : c.tables.execution.status.isSettled = true →
      t.execution.status.isSettled = true)
    (hactive : c.tables.execution.activeOperationId = t.execution.activeOperationId)
    (hoperations : c.tables.operations = t.operations) (hevents : c.operational = []) :
    OperationMove [] cancels t.operationColumns c.operational c.tables.operationColumns := by
  have hcolumns : c.tables.operationColumns =
      { t.operationColumns with status := c.tables.execution.status } := by
    simp only [Tables.operationColumns, hactive, hoperations]
  rw [hevents, hcolumns]
  exact .stay hsettled

/-- An end that closes the open active Operation, after its Step events and
before the event of the Execution. -/
theorem of_closed {stepEvents completed : List EventPayload} {stepStatus : StepStatus}
    {status : ExecutionStatus} {s : OperationStatus} {before after : Tables}
    (hs : s.isTerminal = true)
    (hcolumns : c.tables.operationColumns =
      t.operationColumns.assign t.operationColumns.isOpenActive s status)
    (hbefore : before.operationColumns.openActive = t.operationColumns.openActive)
    (hafter : after.operationColumns = c.tables.operationColumns)
    (hsteps : ∀ e ∈ stepEvents, ∃ s a, e.subject = .stepCompleted stepStatus s a)
    (hcompleted : (completed.map (·.subject)).filter (·.isOperational) = [])
    (hevents : c.events = stepEvents ++ Tables.closedOperationEvent before after ++ completed) :
    OperationMove [] cancels t.operationColumns c.operational c.tables.operationColumns := by
  have hoperational : c.operational = match t.operationColumns.openActive with
      | some operationId => c.tables.operationColumns.completed operationId
      | none => [] := by
    rw [Change.operational, hevents, List.map_append, List.map_append, List.filter_append,
      List.filter_append, filter_stepEvents hsteps, hcompleted, List.append_nil, List.nil_append,
      Tables.closedOperationEvent_subject, hbefore, hafter]
    cases t.operationColumns.openActive with
    | none => rfl
    | some operationId => exact OperationColumns.completed_operational _ _
  rw [hoperational, hcolumns]
  exact .close hs

end OperationMove

open Tables in
theorem operationMove_unclaimedEnd {cancels : Bool} {now : Time} {row : ExecutionRow}
    {message : String} {failureType : Option FailureType} {t : Tables}
    (hrow : row.activeOperationId = t.execution.activeOperationId) :
    OperationMove [] cancels t.operationColumns
      (t.unclaimedEnd now row message failureType).operational
      (t.unclaimedEnd now row message failureType).tables.operationColumns := by
  -- The row is assigned before the Operation closes; it keeps the active Operation.
  let before := { t with execution := row }.skipPendingSteps now
  have hbefore : before.operationColumns = { t.operationColumns with status := row.status } := by
    simp only [before, operationColumns, skipPendingSteps, hrow]
  have hcolumns : (t.unclaimedEnd now row message failureType).tables.operationColumns =
      t.operationColumns.assign t.operationColumns.isOpenActive .failed row.status :=
    closeActiveOperation_columns_of hbefore fun o => ⟨rfl, rfl⟩
  have hopen : before.operationColumns.openActive = t.operationColumns.openActive := by
    rw [hbefore]
    rfl
  have hevents : (t.unclaimedEnd now row message failureType).events =
      [] ++ closedOperationEvent before (t.unclaimedEnd now row message failureType).tables ++
        (t.unclaimedEnd now row message failureType).tables.addExecutionCompletedEvent := rfl
  have hnone : ∀ e ∈ ([] : List EventPayload), ∃ s a, e.subject = .stepCompleted .failed s a :=
    fun e he => absurd he List.not_mem_nil
  exact .of_closed rfl hcolumns hopen rfl hnone rfl hevents

open Tables in
/-- An expired retained retry also marks its latest Attempt. -/
theorem operationMove_expired {cancels : Bool} {now : Time} {row : ExecutionRow}
    {message : String} {t : Tables}
    (hrow : row.activeOperationId = t.execution.activeOperationId) :
    OperationMove [] cancels t.operationColumns
      (Change.operational
        { tables := (t.failUnclaimed now row message none).1.markAttemptPending
          events := (t.failUnclaimed now row message none).2 ++ (t.failUnclaimed now row message
            none).1.markAttemptPending.addExecutionCompletedEvent })
      (t.failUnclaimed now row message none).1.markAttemptPending.operationColumns := by
  have hmove := @operationMove_unclaimedEnd cancels now row message none t hrow
  simp only [Change.operational, unclaimedEnd, List.map_append, List.filter_append] at hmove ⊢
  rw [operationColumns_markAttemptPending]
  exact hmove

/-- A transaction that opens the active Operation again. -/
theorem operationMove_reopen {cancels : Bool} {t : Tables} {c : Change} (s : OperationStatus)
    (p : UUID × OperationStatus → Bool)
    (hcolumns : c.tables.operationColumns =
      t.operationColumns.assign p s c.tables.execution.status)
    (running : s.isTerminal = false) (after : c.tables.execution.status.isSettled = false)
    (active : ∀ o, p o = true → some o.1 = t.execution.activeOperationId)
    (hevents : c.operational = []) :
    OperationMove [] cancels t.operationColumns c.operational c.tables.operationColumns := by
  rw [hevents, hcolumns]
  exact .reopen (fun o _ ho => active o ho) running after

open Tables in
/-- A claim starts the Operation it found QUEUED, if it found one. -/
theorem operationMove_start {cancels : Bool} {now : Time} {attemptId : UUID} {view : ClaimView}
    {operation : Option OperationRow} {t : Tables} (h : Claimable view operation t) :
    OperationMove [] cancels t.operationColumns []
      { (t.startOperation now operation attemptId).operationColumns with status := .running } := by
  cases operation with
  | none =>
    have hsame : (t.startOperation now none attemptId).operations = t.operations :=
      List.updateWhere_eq_self fun o _ => rfl
    have hcolumns : (t.startOperation now none attemptId).operationColumns =
        t.operationColumns := by
      simp only [operationColumns, hsame]
      rfl
    rw [hcolumns]
    exact .stay fun hsettled => by cases hsettled
  | some operation =>
    have hactive : some operation.id = t.execution.activeOperationId := by
      have hfound := h.operation
      simp only [claimableOperation] at hfound
      split at hfound
      · rename_i operationId hactive
        simp only [Option.map_eq_some_iff, Option.some.injEq, exists_eq_right] at hfound
        have := List.find?_some hfound
        simp only [Bool.and_eq_true, beq_iff_eq] at this
        rw [hactive, this.1]
      · split at hfound <;> cases hfound
      · cases hfound
    have hcolumns : (t.startOperation now (some operation) attemptId).operationColumns =
        t.operationColumns.assign (fun o => some o.1 == some operation.id) .running
          t.execution.status :=
      operationColumns_of_update rfl rfl (fun o => rfl) fun o => ⟨rfl, rfl⟩
    rw [hcolumns]
    have hmove := @OperationMove.reopen [] cancels t.operationColumns .running
      (fun o => some o.1 == some operation.id) .running (fun o _ ho => by
        rw [beq_iff_eq] at ho
        rw [ho, hactive]
        rfl) rfl rfl
    exact hmove

open Tables in
theorem operationMove_claim {cancels : Bool} {settings : Settings} {now : Time} {worker : WorkerId}
    {attemptId : UUID} {view : ClaimView} {t : Tables} {c : Change}
    (h : t.claim settings now worker attemptId view = .ok c) :
    OperationMove [] cancels t.operationColumns c.operational c.tables.operationColumns := by
  cases claim_ok h with
  | idle => exact .of_eq rfl rfl
  | waiting claimable => exact operationMove_start claimable
  | resumed claimable => exact operationMove_start claimable
  | started claimable => exact operationMove_start claimable
  | unavailable => exact operationMove_unclaimedEnd rfl

open Tables in
theorem operationMove_fenceExpiredLease {cancels : Bool} {now : Time} {view : ClaimView}
    {t : Tables} {c : Change}
    (h : t.fenceExpiredLease now view = .ok c) :
    OperationMove [] cancels t.operationColumns c.operational c.tables.operationColumns := by
  cases fenceExpiredLease_ok h with
  | idle => exact .of_eq rfl rfl
  | handedOver expired handover followable tables lease events =>
    refine .of_eq ?_ ?_
    · rw [tables]
      rfl
    · rw [Change.operational, events]
      rfl
  | failed expired handover steps =>
    let before := (t.abandoned now).skipPendingSteps now
    have hrow : before.execution.activeOperationId = t.execution.activeOperationId := by
      show (invalidateNotebook _ _).activeOperationId = _
      rw [invalidateNotebook_same _ _]
    have hbefore : before.operationColumns =
        { t.operationColumns with status := before.execution.status } := by
      simp only [operationColumns, hrow]
      rfl
    have hopen : before.operationColumns.openActive = t.operationColumns.openActive := by
      rw [hbefore]
      rfl
    have hcolumns : (before.failExpiredOperation now t.runningAttempt?).1.operationColumns =
        t.operationColumns.assign t.operationColumns.isOpenActive .failed
          before.execution.status :=
      closeActiveOperation_columns_of hbefore fun o => ⟨rfl, rfl⟩
    exact .of_closed rfl hcolumns hopen rfl steps rfl rfl

open Tables in
theorem operationMove_finalizeCancellation {now : Time} {cleanup : RuntimeSessionCleanupStatus}
    {t : Tables} {c : Change} {stepEvents : List EventPayload} {stepStatus : StepStatus}
    (hstatus : t.execution.status = .cancelRequested)
    (hsteps : ∀ e ∈ stepEvents, ∃ s a, e.subject = .stepCompleted stepStatus s a)
    (tables : c.tables = t.cancelTables now cleanup)
    (events : c.events = stepEvents ++ (match t.execution.activeOperationId with
      | some operationId => c.tables.addOperationCompletedEvent operationId
      | none => []) ++ c.tables.addExecutionCompletedEvent) :
    OperationMove [] true t.operationColumns c.operational c.tables.operationColumns := by
  have hopen : ∀ o : OperationRow, (!o.status.isTerminal) =
      (o.status == .queued || o.status == .running) := by
    intro o
    cases o.status <;> rfl
  have hcolumns : c.tables.operationColumns = t.operationColumns.assign (!·.2.isTerminal)
      (if timedOut t.execution then .failed else .cancelled) c.tables.execution.status := by
    rw [tables]
    exact operationColumns_of_update rfl rfl hopen fun o => ⟨rfl, rfl⟩
  have hoperational : c.operational = match t.operationColumns.active with
      | some operationId => c.tables.operationColumns.completed operationId
      | none => [] := by
    rw [Change.operational, events, List.map_append, List.map_append, List.filter_append,
      List.filter_append, filter_stepEvents hsteps, addExecutionCompletedEvent_subject]
    show [] ++ _ ++ [] = _
    rw [List.append_nil, List.nil_append, operationColumns]
    cases t.execution.activeOperationId with
    | none => rfl
    | some operationId =>
      show ((c.tables.addOperationCompletedEvent operationId).map (·.subject)).filter _ = _
      rw [completed_columns, OperationColumns.completed_operational]
  rw [hoperational, hcolumns]
  refine .cancel rfl ?_ hstatus
  split <;> rfl

open Tables in
/-- Every transaction is a move of the Operations. -/
theorem operationMove_of_change {settings : Settings} {r : Rows} {tx : TableTransaction}
    {c : Change} (h : tx.change settings r = .ok c) :
    OperationMove (tx.announced r) tx.endsCancellation r.tables.operationColumns c.operational
      c.tables.operationColumns := by
  cases tx with
  | cancel now key reason =>
    obtain ⟨t, ht, rfl⟩ := Txn.quiet_ok.mp h
    rcases cancel_ok ht with rfl | ⟨hopen, _, rfl⟩
    · exact .of_eq rfl rfl
    · -- The status leaves the settled ones.
      exact .of_status (fun hsettled => by cases hsettled) rfl rfl rfl
  | retry now key =>
    obtain ⟨t, ht, rfl⟩ := Txn.quiet_ok.mp h
    rcases retry_ok ht with rfl | ⟨operationId, fromSequence, retryable, _, rfl⟩
    · exact .of_eq rfl rfl
    · -- The failed Operation is queued again; it becomes the active one.
      refine operationMove_reopen .queued (fun o => o.1 == operationId && o.2 == .failed) ?_
        rfl rfl ?_ rfl
      · refine operationColumns_of_update ?_ rfl (fun o => rfl) fun o => ⟨rfl, rfl⟩
        simp only [retriedRow, saveExecution, Execution.requeued]
        split <;> rfl
      · intro o ho
        rw [Bool.and_eq_true, beq_iff_eq] at ho
        rw [ho.1, retryable.operation]
  | createOperation now command =>
    obtain ⟨t, ht, rfl⟩ := Txn.quiet_ok.mp h
    rcases createOperation_ok ht with rfl | ⟨_, hwaiting, operation, steps, hid, hqueued, _, _,
      fresh, rfl⟩
    · exact .of_eq rfl rfl
    · -- The new Operation has an id of its own.
      have hfresh : ∀ o ∈ r.tables.operationColumns.operations, o.1 ≠ command.operationId := by
        intro o ho
        obtain ⟨row, hrow, rfl⟩ := List.mem_map.mp ho
        rw [← hid]
        exact fresh.freshId row hrow
      have hmove := @OperationMove.append [] false _ _ hwaiting hfresh
      have hoperations : r.tables.operationColumns.operations ++
          [(command.operationId, OperationStatus.queued)] =
          (r.tables.operations ++ [operation]).map fun o => (o.id, o.status) := by
        rw [List.map_append, List.map_singleton, hid, hqueued]
        rfl
      rw [hoperations] at hmove
      exact hmove
  | finalizeCommand now key fingerprint expectedVersion =>
    obtain ⟨t, ht, rfl⟩ := Txn.quiet_ok.mp h
    rcases finalizeCommand_ok ht with rfl | ⟨_, hwaiting, rfl⟩
    · exact .of_eq rfl rfl
    · -- A waiting Execution is settled, and FINALIZING is too.
      exact .of_status (fun _ => by rw [hwaiting]; rfl) rfl rfl rfl
  | claim now worker attemptId view => exact operationMove_claim h
  | claimHandover now worker view =>
    cases h
    rcases claimHandover_cases settings now worker view r.tables with
      hc | ⟨_, _, hc | ⟨attempt, _, hc⟩⟩ <;> rw [hc] <;> exact .of_eq rfl rfl
  | claimCancellation now worker =>
    cases h
    rcases claimCancellation_cases settings now worker r.tables with
      hc | ⟨_, ⟨_, hc⟩ | hc⟩ <;> rw [hc] <;> exact .of_eq rfl rfl
  | renewExecution now lease =>
    obtain ⟨t, ht, rfl⟩ := Txn.quiet_ok.mp h
    obtain ⟨_, rfl⟩ := renewExecution_ok ht
    exact .of_eq rfl rfl
  | renewCancellation now lease =>
    obtain ⟨t, ht, rfl⟩ := Txn.quiet_ok.mp h
    obtain ⟨_, rfl⟩ := renewCancellation_ok ht
    exact .of_eq rfl rfl
  | assertExecution clock lease allowed =>
    obtain ⟨_, rfl⟩ := assertExecution_ok h
    exact .of_eq rfl rfl
  | ensureCount clock lease cellCount =>
    obtain ⟨_, rfl⟩ := ensureCount_ok h
    exact .of_eq rfl rfl
  | recordRuntimeSession clock lease sessionId workspace notebook =>
    obtain ⟨_, rfl⟩ := recordRuntimeSession_ok h
    -- Start events that were not sent yet come with the session.
    exact .of_eq rfl (List.filter_eq_self.mpr (addStartEvents_operational _ _))
  | markStarted clock lease sequence historyId requestId baseline =>
    obtain ⟨_, _, _, step, _, tables, _, events⟩ := markStarted_ok h
    exact .of_eq (by rw [tables]; rfl) (by rw [Change.operational, events]; rfl)
  | markSubmitted clock lease requestId =>
    obtain ⟨_, rfl⟩ := markSubmitted_ok h
    exact .of_eq rfl rfl
  | recordHandoverCompleted clock lease sequence handover finished =>
    obtain ⟨_, step, _, tables, _, events⟩ := recordHandoverCompleted_ok h
    exact .of_eq (by rw [tables]) (by rw [Change.operational, events]; rfl)
  | markSucceeded clock lease sequence stored =>
    obtain ⟨_, step, _, tables, _, events⟩ := markSucceeded_ok h
    exact .of_eq (by rw [tables]; rfl) (by rw [Change.operational, events]; rfl)
  | markFailed clock lease sequence stored message retryable =>
    obtain ⟨_, step, _, tables, _, events⟩ := markFailed_ok h
    exact .of_eq (by rw [tables]; rfl) (by rw [Change.operational, events]; rfl)
  | recordInterruptedResult clock lease sequence stored =>
    obtain ⟨_, step, rfl⟩ := recordInterruptedResult_ok h
    have hrow := invalidateNotebook_same "Step interruption" r.tables.execution
    refine .of_eq ?_ rfl
    -- Only columns of the notebook change.
    rw [operationColumns, hrow]
    cases stored <;> rfl
  | completeOperation clock lease operationId status message failureType =>
    obtain ⟨active, rfl | ⟨operation, seconds, hfound, hrunning, _, _, rfl⟩⟩ :=
      completeOperation_ok h
    · exact .of_eq rfl rfl
    · -- A running Operation ends with its event.
      have hcolumns : (r.tables.operationEnded clock.now lease.attemptId operationId status message
          failureType seconds).operationColumns =
          r.tables.operationColumns.assign (·.1 == operationId) status .waitingForOperation :=
        operationColumns_of_update rfl rfl (fun o => rfl) fun o => ⟨rfl, rfl⟩
      have hid : operation.id = operationId := by simpa using List.find?_some hfound
      -- It is the one that the completed event names.
      have hcolumn : r.tables.operationColumns.operations.find? (·.1 == operationId) =
          some (operationId, .running) := by
        have hfound : (r.tables.operations.find? (·.id == operationId)) = some operation := hfound
        rw [operationColumns, List.find?_map]
        exact Option.map_eq_some_iff.mpr ⟨operation, hfound, by rw [hid, hrunning]⟩
      rw [Change.operational, completed_columns, OperationColumns.completed_operational, hcolumns]
      exact .complete hcolumn
  | skipStepsAfter clock lease operationId sequence =>
    obtain ⟨_, rfl⟩ := skipStepsAfter_ok h
    exact .of_eq rfl rfl
  | beginProjection clock lease =>
    obtain ⟨_, e, same, rfl⟩ := beginProjection_ok h
    exact .of_eq (by rw [operationColumns, same]; rfl) rfl
  | recordProjection clock lease status count message =>
    obtain ⟨_, e, same, rfl⟩ := recordProjection_ok h
    exact .of_eq (by rw [operationColumns, same]; rfl) rfl
  | persistNotebook clock lease notebook =>
    obtain ⟨_, artifacts, rfl⟩ := persistNotebook_ok h
    exact .of_eq rfl rfl
  | persistArtifacts clock lease sequence allow artifacts =>
    obtain ⟨_, artifacts, rfl⟩ := persistArtifacts_ok h
    exact .of_eq rfl rfl
  | recordRuntimeAbort clock lease abort cleanup failureType =>
    obtain ⟨_, rfl⟩ := recordRuntimeAbort_ok h
    exact .of_eq rfl rfl
  | deferRetainedRetry clock lease =>
    obtain ⟨t, ht, rfl⟩ := Txn.quiet_ok.mp h
    obtain ⟨a, ha, rfl | ⟨_, rfl⟩⟩ := deferRetainedRetry_ok ht
    · exact .of_eq rfl rfl
    · -- The running Operation is queued again.
      refine operationMove_reopen .queued
        (fun o => some o.1 == r.tables.execution.activeOperationId && o.2 == .running) ?_
        rfl rfl ?_ rfl
      · exact operationColumns_of_update rfl rfl (fun o => rfl) fun o => ⟨rfl, rfl⟩
      · intro o ho
        rw [Bool.and_eq_true, beq_iff_eq] at ho
        exact ho.1
  | releaseForCancellation clock lease =>
    obtain ⟨_, rfl⟩ := releaseForCancellation_ok h
    exact .of_eq rfl rfl
  | releaseForHandover clock lease =>
    obtain ⟨_, rfl | ⟨stepAttempt, stepId, _, _, tables, _, events⟩⟩ := releaseForHandover_ok h
    · exact .of_eq rfl rfl
    · exact .of_eq (by rw [tables]; rfl) (by rw [Change.operational, events]; rfl)
  | finalize clock lease request =>
    obtain ⟨active, attemptStatus, stepEvents, hstatus, hsteps, hlease, tables, events⟩ :=
      finalize_ok h
    -- Behind the closed Operation only Steps are changed.
    have hcolumns : c.tables.operationColumns =
        (r.tables.runClosed settings clock.now lease.attemptId attemptStatus
          request).operationColumns := by
      rw [tables, finalizeSteps]
      split <;> rfl
    -- The active Operation ends as the run does.
    have hclosed : ∀ s : OperationStatus,
        (if request.status = .succeeded then .succeeded else .failed) = s →
        (r.tables.runClosed settings clock.now lease.attemptId attemptStatus
          request).operationColumns = r.tables.operationColumns.assign
            r.tables.operationColumns.isOpenActive s request.status :=
      fun s hs => closeActiveOperation_columns_of rfl fun o => ⟨rfl, hs⟩
    refine .of_closed ?_ (hcolumns.trans (hclosed _ rfl)) rfl rfl hsteps rfl events
    split <;> rfl
  | finalizeCancellation clock lease cleanup =>
    obtain ⟨active, stepEvents, hsteps, _, tables, events⟩ := finalizeCancellation_ok h
    exact operationMove_finalizeCancellation (requireActiveCancellationLease_row active).2.1
      hsteps tables events
  | fenceExpiredLease now view => exact operationMove_fenceExpiredLease h
  | failQueueTimeout now =>
    rcases failQueueTimeout_ok h with rfl | ⟨hs, _, rfl⟩
    · exact .of_eq rfl rfl
    · exact operationMove_unclaimedEnd rfl
  | requestExpiredCancellation now =>
    rcases requestExpiredCancellation_ok h with rfl | ⟨hs, rfl⟩
    · exact .of_eq rfl rfl
    · -- It is no end yet.
      exact .of_status (fun hsettled => by cases hsettled) rfl rfl rfl
  | endWaitingExecution now observation finalizedBy =>
    rcases endWaitingExecution_ok h with rfl | ⟨hs, rfl | ⟨failureType, message, rfl⟩⟩
    · exact .of_eq rfl rfl
    · -- It was waiting, so that no Operation was open.
      exact .of_status (fun _ => by rw [hs]; rfl) rfl rfl rfl
    · exact .of_status (fun _ => by rw [hs]; rfl) rfl rfl rfl
  | failWaitingExecution now observation failureType message =>
    rcases failWaitingExecution_ok h with rfl | ⟨hs, rfl⟩
    · exact .of_eq rfl rfl
    · exact .of_status (fun _ => by rw [hs]; rfl) rfl rfl rfl
  | cleanupExpired now =>
    rcases cleanupExpired_ok h with rfl | ⟨_, ⟨_, rfl⟩ | ⟨hs, row, closed, events, rfl, hclosed, rfl⟩⟩
    · exact .of_eq rfl rfl
    · exact .of_eq (operationColumns_markAttemptPending _) rfl
    · -- The queued retry is given up.
      obtain ⟨rfl, rfl⟩ := Prod.mk.inj hclosed
      exact operationMove_expired rfl
  | retryUnresolved now =>
    cases h
    refine .of_eq ?_ rfl
    simp only [retryUnresolved]
    split
    · exact operationColumns_markAttemptPending _
    · rfl
  | recordResult now observation cleanup =>
    cases h
    rcases recordResult_cases observation cleanup now r.tables with hr | ⟨_, _, hr⟩ <;> rw [hr] <;>
      exact .of_eq rfl rfl

/-! ### Soundness -/

/-- At most the active Operation is open, and none is in a settled status. -/
structure OperationColumns.Sound (c : OperationColumns) : Prop where
  nodup : (c.operations.map (·.1)).Nodup
  active : ∀ o ∈ c.operations, o.2.isTerminal = false → some o.1 = c.active
  settled : c.status.isSettled = true → ∀ o ∈ c.operations, o.2.isTerminal = true

namespace OperationColumns

variable {c : OperationColumns} {p : UUID × OperationStatus → Bool} {s : OperationStatus}
  {status : ExecutionStatus}

theorem find_assign (id : UUID) : (c.assign p s status).operations.find? (·.1 == id) =
    (c.operations.find? (·.1 == id)).map fun o => if p o then (o.1, s) else o := by
  refine List.find?_updateWhere ?_ _
  exact fun o => rfl

theorem nodup_assign (h : (c.operations.map (·.1)).Nodup) :
    ((c.assign p s status).operations.map (·.1)).Nodup := by
  have hkeys : (c.assign p s status).operations.map (·.1) = c.operations.map (·.1) := by
    refine List.map_updateWhere ?_ _
    exact fun o => rfl
  rw [hkeys]
  exact h

theorem completed_assign_of_mem (h : (c.operations.map (·.1)).Nodup)
    {o : UUID × OperationStatus} (ho : o ∈ c.operations) (hp : p o = true) :
    (c.assign p s status).completed o.1 = [.operationCompleted o.1 s] := by
  rw [completed, find_assign, List.find?_of_nodup h ho]
  simp [hp]

/-- After every open Operation got a terminal status none is open. -/
theorem sound_of_closed (h : c.Sound) (hs : s.isTerminal = true)
    (hp : ∀ o ∈ c.operations, o.2.isTerminal = false → p o = true) :
    (c.assign p s status).Sound := by
  have terminal : ∀ o ∈ (c.assign p s status).operations, o.2.isTerminal = true := by
    refine List.forall_mem_updateWhere (fun o _ _ => hs) fun o ho hpo => ?_
    by_contra hopen
    rw [hp o ho (by simpa using hopen)] at hpo
    cases hpo
  refine ⟨nodup_assign h.nodup, fun o ho hopen => ?_, fun _ => terminal⟩
  rw [terminal o ho] at hopen
  cases hopen

theorem Sound.isOpenActive (h : c.Sound) {o : UUID × OperationStatus} (ho : o ∈ c.operations)
    (hopen : o.2.isTerminal = false) : c.isOpenActive o = true := by
  simp [OperationColumns.isOpenActive, h.active o ho hopen, hopen]

end OperationColumns

theorem OperationMove.sound {announced events : List EventSubject} {c c' : OperationColumns}
    (h : OperationMove announced cancels c events c') (hc : c.Sound)
    (valid : ∀ id s, .operationCompleted id s ∈ events → s.isTerminal = true) : c'.Sound := by
  cases h with
  | stay settled => exact ⟨hc.nodup, hc.active, fun hs => hc.settled (settled hs)⟩
  | append before fresh =>
    have hterminal := hc.settled (by rw [before]; rfl)
    refine ⟨?_, fun o ho hopen => ?_, fun hs => by cases hs⟩
    · rw [List.map_append, List.map_singleton, List.nodup_append]
      refine ⟨hc.nodup, List.nodup_singleton _, fun id hid id' hid' => ?_⟩
      obtain ⟨o, ho, rfl⟩ := List.mem_map.mp hid
      rw [List.mem_singleton.mp hid']
      exact fresh o ho
    · rcases List.mem_append.mp ho with ho | ho
      · rw [hterminal o ho] at hopen
        cases hopen
      · rw [List.mem_singleton.mp ho]
  | reopen active running after =>
    refine ⟨OperationColumns.nodup_assign hc.nodup, ?_, fun hs => ?_⟩
    · exact List.forall_mem_updateWhere (fun o ho hp _ => active o ho hp)
        fun o ho _ hopen => hc.active o ho hopen
    · rw [OperationColumns.assign] at hs
      rw [after] at hs
      cases hs
  | close terminal =>
    exact OperationColumns.sound_of_closed hc terminal fun o ho hopen => hc.isOpenActive ho hopen
  | @complete id s running =>
    -- The event of the Operation names the status it got, which is terminal.
    have hmem := List.mem_of_find?_eq_some running
    have terminal : s.isTerminal = true := by
      refine valid id s ?_
      rw [OperationColumns.completed_assign_of_mem hc.nodup hmem (by simp)]
      exact List.mem_singleton_self _
    refine OperationColumns.sound_of_closed hc terminal fun o ho hopen => ?_
    have hactive := (hc.active o ho hopen).trans (hc.active (id, .running) hmem rfl).symm
    simpa using hactive
  | cancel cancelled terminal =>
    exact OperationColumns.sound_of_closed hc terminal fun o _ hopen => by simp [hopen]

end ExecutorService
