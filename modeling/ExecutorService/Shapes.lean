/-
The shape of an Execution's rows.

What the tables of an Execution say about what is running and what is still open:
its status and mode, and of every Step, Attempt and Step attempt its identifiers and
its status.  `ShapeMove` lists what a transaction of a run, of an audit or of a
command can do to them, with the events about Steps and ends it writes.

* `Shape.Sound` — the structural invariant: identifiers are unique, at most one Step
  runs and at most one Attempt is live, open Steps belong to the active Operation, and
  each status of the Execution allows only certain rows;
* `ShapeMove.sound` — every move keeps it.
-/
import ExecutorService.Store

namespace ExecutorService

/-- What an invariant of Steps reads of a row. -/
structure StepShape where
  id : UUID
  operationId : UUID
  sequence : ℕ
  status : StepStatus
  deriving DecidableEq

/-- What it reads of the row of a Step in an Attempt. -/
structure StepAttemptShape where
  attemptId : UUID
  stepId : UUID
  sequence : ℕ
  status : StepStatus
  deriving DecidableEq

/-- The rows of a shape, with the mode and the active Operation. -/
structure ShapeRows where
  mode : OperationMode
  active : Option UUID
  steps : List StepShape
  attempts : List (UUID × AttemptStatus)
  stepAttempts : List StepAttemptShape

/-- The rows and the columns of the Execution that decide what may happen to them. -/
@[ext] structure Shape extends ShapeRows where
  status : ExecutionStatus
  operations : List UUID
  session : Bool
  target : Bool
  expires : Bool
  strategy : RetryStrategy
  retryFrom : Option ℕ
  retried : Bool
  aborting : Bool
  handover : Bool

/-- The shape of a Step. -/
def ExecutionStep.shape (s : ExecutionStep) : StepShape :=
  ⟨s.id, s.operationId, s.sequence, s.status⟩

/-- The shape of an Attempt. -/
def AttemptRow.shape (a : AttemptRow) : UUID × AttemptStatus :=
  (a.id, a.status)

/-- The shape of a Step in an Attempt. -/
def StepAttemptRow.shape (h : StepAttemptRow) : StepAttemptShape :=
  ⟨h.executionAttemptId, h.executionStepId, h.sequence, h.status⟩

/-- The shape of all rows. -/
def Tables.shape (t : Tables) : Shape where
  mode := t.execution.operationMode
  active := t.execution.activeOperationId
  steps := t.steps.map (·.shape)
  attempts := t.attempts.map (·.shape)
  stepAttempts := t.stepAttempts.map (·.shape)
  status := t.execution.status
  operations := t.operations.map (·.id)
  session := t.execution.runtimeSessionId.isSome
  target := t.execution.runtimeTargetId.isSome
  expires := t.execution.executionExpiresAt.isSome
  strategy := t.execution.retryStrategy
  retryFrom := t.execution.retryFromSequence
  retried := decide (0 < t.execution.retryCount)
  aborting := t.execution.runtimeAbortStatus == .pending
  handover := t.handover.isSome

/-- A Step that has not ended. -/
def StepStatus.isOpen : StepStatus → Bool
  | .pending | .running => true
  | _ => false

theorem StepStatus.ne_running {status : StepStatus} (h : status.isOpen = false) :
    status ≠ .running := by
  rintro rfl
  cases h

theorem StepStatus.ne_pending {status : StepStatus} (h : status.isOpen = false) :
    status ≠ .pending := by
  rintro rfl
  cases h

/-- An Attempt that a run holds or waits with. -/
def AttemptStatus.isLive : AttemptStatus → Bool
  | .running | .waiting => true
  | _ => false

namespace ShapeRows

/-- A Step by its identifiers. -/
def stepKey (s : StepShape) : UUID × UUID × ℕ :=
  (s.id, s.operationId, s.sequence)

/-- What identifies the row of a Step in an Attempt. -/
def stepAttemptKey (h : StepAttemptShape) : UUID × UUID × ℕ :=
  (h.attemptId, h.stepId, h.sequence)

/-- The identifiers of the rows. -/
structure Keyed (c : ShapeRows) : Prop where
  stepIds : (c.steps.map (·.id)).Nodup
  sequences : (c.steps.map (·.sequence)).Nodup
  attemptIds : (c.attempts.map (·.1)).Nodup
  stepAttemptKeys : (c.stepAttempts.map fun h => (h.attemptId, h.sequence)).Nodup
  /-- A Step attempt is one of a Step and of an Attempt of the Execution. -/
  attempted : ∀ h ∈ c.stepAttempts, (∃ s ∈ c.steps, s.id = h.stepId ∧ s.sequence = h.sequence) ∧
    ∃ a ∈ c.attempts, a.1 = h.attemptId
  /-- A SINGLE Execution has one Operation. -/
  single : c.mode = .single → ∀ s ∈ c.steps, some s.operationId = c.active
  numbered : c.mode = .single → c.steps.map (·.sequence) = List.range c.steps.length

/-- No Step is running. -/
def NoneRunning (c : ShapeRows) : Prop :=
  ∀ s ∈ c.steps, s.status ≠ .running

/-- Every Step has ended. -/
def NoneOpen (c : ShapeRows) : Prop :=
  ∀ s ∈ c.steps, s.status.isOpen = false

/-- Every Attempt has ended. -/
def NoneLive (c : ShapeRows) : Prop :=
  ∀ a ∈ c.attempts, a.2.isLive = false

/-- An Attempt waits for the next Operation. -/
def SomeWaiting (c : ShapeRows) : Prop :=
  ∃ a ∈ c.attempts, a.2 = .waiting

/-- The active Operation stands at a sequence: the Steps before it have succeeded, the others
are PENDING. -/
def At (sequence : ℕ) (c : ShapeRows) : Prop :=
  ∀ s ∈ c.steps, some s.operationId = c.active →
    s.status = if sequence ≤ s.sequence then .pending else .succeeded

/-- What is running and what is open. -/
structure Statuses (c : ShapeRows) : Prop where
  runningStep : ∀ s ∈ c.steps, ∀ s' ∈ c.steps, s.status = .running → s'.status = .running → s = s'
  /-- The Steps of an Operation run in order, each after the one before it succeeded. -/
  order : ∀ s ∈ c.steps, s.status = .running → ∀ s' ∈ c.steps, s'.operationId = s.operationId →
    (s'.sequence < s.sequence → s'.status = .succeeded) ∧
      (s.sequence < s'.sequence → s'.status = .pending)
  liveAttempt : ∀ a ∈ c.attempts, ∀ a' ∈ c.attempts, a.2.isLive = true → a'.2.isLive = true →
    a = a'
  openStep : ∀ s ∈ c.steps, s.status.isOpen = true → some s.operationId = c.active
  /-- A running Step attempt is that of the running Step and of the running Attempt. -/
  runningStepAttempt : ∀ h ∈ c.stepAttempts, h.status = .running →
    (h.attemptId, .running) ∈ c.attempts ∧
      ∃ s ∈ c.steps, s.id = h.stepId ∧ s.sequence = h.sequence ∧ s.status = .running
  attemptOf : ∀ s ∈ c.steps, s.status = .running →
    ∃ h ∈ c.stepAttempts, h.stepId = s.id ∧ h.sequence = s.sequence ∧ h.status = .running
  /-- A live Attempt has not run a Step that is PENDING. -/
  unattempted : ∀ s ∈ c.steps, s.status = .pending → ∀ h ∈ c.stepAttempts, h.stepId = s.id →
    ∀ a ∈ c.attempts, a.1 = h.attemptId → a.2.isLive = false

end ShapeRows

namespace Shape

/-- The Steps before the retry sequence have succeeded, the one there has run and has not. -/
structure Kept (c : Shape) : Prop where
  known : c.retryFrom.isSome = true
  below : ∀ s ∈ c.steps, s.sequence < c.retryFrom.getD 0 → s.status = .succeeded
  here : ∃ s ∈ c.steps, s.sequence = c.retryFrom.getD 0 ∧
    (s.status = .running ∨ s.status = .failed)

/-- Where a SINGLE run starts: the Steps from there on are the PENDING ones. -/
structure Resumable (c : Shape) : Prop where
  steps : c.At (c.retryFrom.getD 0)
  resumed : c.strategy = .fromFailedStep → c.session = true ∧ c.retried = true ∧
    c.retryFrom.isSome = true
  fresh : c.strategy ≠ .fromFailedStep → c.retryFrom.getD 0 = 0

/-- The columns of the Execution. -/
structure Columns (c : Shape) : Prop where
  multi : c.mode = .multi → c.strategy = .notRetryable
  attempted : c.attempts ≠ [] → c.target = true ∧ c.expires = true
  first : c.attempts = [] → c.operations.length = 1
  owned : ∀ s ∈ c.steps, s.operationId ∈ c.operations
  handover : c.handover = true → c.aborting = false

/-- What a status of the Execution allows. -/
structure AtStatus (c : Shape) : Prop where
  running : c.status = .running → ∃ a ∈ c.attempts, a.2 = .running
  queued : c.status = .queued → c.NoneRunning
  queuedSingle : c.status = .queued → c.mode = .single → c.NoneLive ∧ c.Resumable
  queuedMulti : c.status = .queued → c.mode = .multi → c.At 0 ∧
    ((c.attempts = [] ∧ c.session = false) ∨ (c.session = true ∧ c.SomeWaiting))
  waiting : c.status = .waitingForOperation ∨ c.status = .finalizing →
    c.mode = .multi ∧ c.session = true ∧ c.SomeWaiting ∧ c.NoneOpen
  terminal : c.status.isTerminal = true → c.NoneOpen ∧ c.NoneLive
  failed : c.status = .failed → c.mode = .single → c.strategy = .fromFailedStep → c.Kept

/-- The structural invariant. -/
structure Sound (c : Shape) : Prop where
  keyed : c.Keyed
  statuses : c.Statuses
  columns : c.Columns
  atStatus : c.AtStatus

end Shape

/-! ### Moves -/

/-- The end of an Execution, on one Step. -/
def StepShape.closed (stepEnd : StepStatus) (s : StepShape) : StepShape :=
  { s with status := match s.status with
    | .running => stepEnd
    | .pending => .skipped
    | status => status }

/-- A running row, ended with its Step. -/
def StepAttemptShape.closed (stepEnd : StepStatus) (h : StepAttemptShape) : StepAttemptShape :=
  { h with status := if h.status = .running then stepEnd else h.status }

/-- The end of an Execution, on its rows. -/
def ShapeRows.closed (stepEnd : StepStatus) (attemptEnd : AttemptStatus) (c : ShapeRows) :
    ShapeRows :=
  { c with
    steps := c.steps.map (·.closed stepEnd)
    attempts := c.attempts.map fun a => if a.2.isLive then (a.1, attemptEnd) else a
    stepAttempts := c.stepAttempts.map (·.closed stepEnd) }

/-- The Step attempts that are running. -/
def ShapeRows.running (c : ShapeRows) : List StepAttemptShape :=
  c.stepAttempts.filter (·.status == .running)

/-- A retry puts the Steps from a sequence on back to PENDING. -/
def StepShape.reset (fromSequence : ℕ) (s : StepShape) : StepShape :=
  if s.sequence < fromSequence then s else { s with status := .pending }

/-- The Attempt gets a status. -/
def ShapeRows.withAttempt (attemptId : UUID) (status : AttemptStatus) (c : ShapeRows) :
    ShapeRows :=
  { c with attempts := c.attempts.updateWhere (·.1 == attemptId) fun a => (a.1, status) }

/-- The Step with this sequence gets a status. -/
def ShapeRows.withStep (sequence : ℕ) (status : StepStatus) (c : ShapeRows) : ShapeRows :=
  { c with steps := c.steps.updateWhere (·.sequence == sequence) fun s => { s with status } }

/-- A Step starts under an Attempt. -/
def ShapeRows.started (s : StepShape) (attemptId : UUID) (c : ShapeRows) : ShapeRows :=
  { c.withStep s.sequence .running with
    stepAttempts := c.stepAttempts ++ [⟨attemptId, s.id, s.sequence, .running⟩] }

/-- A running Step ends with its attempt. -/
def ShapeRows.finished (h : StepAttemptShape) (status : StepStatus) (c : ShapeRows) : ShapeRows :=
  { c.withStep h.sequence status with
    stepAttempts := c.stepAttempts.updateWhere
      (fun x => x.attemptId == h.attemptId && x.sequence == h.sequence)
      fun x => { x with status } }

/-- The selected PENDING Steps are skipped. -/
def ShapeRows.skipped (p : StepShape → Bool) (c : ShapeRows) : ShapeRows :=
  { c with
    steps := c.steps.updateWhere (fun s => p s && s.status == .pending)
      fun s => { s with status := .skipped } }

/-- A released Step of an Attempt that no Worker has reported as followed. -/
def Unfollowed (trail : List EventSubject) (stepId attemptId : UUID) : Prop :=
  trail.count (.stepHandoverCompleted stepId attemptId) <
    trail.count (.stepHandoverStarted stepId attemptId)

/-- What a transaction can do to the shape after the events of `trail`, with the events it
writes about Steps and the end of the Execution. -/
inductive ShapeMove (trail : List EventSubject) (c : Shape) : List EventSubject → Shape → Prop
  | stay : ShapeMove trail c [] c
  | requestCancel (open_ : c.status.isTerminal = false) :
      ShapeMove trail c [] { c with status := .cancelRequested }
  | finalizing (before : c.status = .waitingForOperation) :
      ShapeMove trail c [] { c with status := .finalizing }
  | retry {fromSequence : ℕ} (before : c.status = .failed) (single : c.mode = .single)
      (strategy : c.strategy = .fromFailedStep ∧ c.session = true ∧
          c.retryFrom = some fromSequence ∨
        c.strategy ≠ .fromFailedStep ∧ fromSequence = 0) :
      ShapeMove trail c [] { c with
        status := .queued
        retryFrom := some fromSequence
        retried := true
        steps := c.steps.map (·.reset fromSequence) }
  | operation {id : UUID} {steps : List StepShape} (before : c.status = .waitingForOperation)
      (fresh : id ∉ c.operations)
      (added : ∀ s ∈ steps, s.operationId = id ∧ s.status = .pending)
      (ids : ((c.steps ++ steps).map (·.id)).Nodup)
      (sequences : ((c.steps ++ steps).map (·.sequence)).Nodup) :
      ShapeMove trail c [] { c with
        status := .queued
        active := some id
        operations := c.operations ++ [id]
        steps := c.steps ++ steps }
  | resume {attemptId : UUID} (before : c.status = .queued ∨ c.status = .finalizing)
      (waiting : (attemptId, .waiting) ∈ c.attempts) :
      ShapeMove trail c [] { c with
        toShapeRows := c.withAttempt attemptId .running
        status := .running
        aborting := false }
  | attempt {attemptId : UUID} (before : c.status = .queued ∨ c.status = .finalizing)
      (fresh : ∀ a ∈ c.attempts, a.1 ≠ attemptId)
      (multi : ¬ (c.mode = .multi ∧ c.session = true ∧ c.target = true)) :
      ShapeMove trail c [] { c with
        attempts := c.attempts ++ [(attemptId, .running)]
        status := .running
        target := true
        expires := true
        aborting := false }
  | handOver {h : StepAttemptShape} (mem : h ∈ c.stepAttempts) (running : h.status = .running)
      (aborting : c.aborting = false) :
      ShapeMove trail c [.stepHandoverStarted h.stepId h.attemptId] { c with handover := true }
  | takeOver : ShapeMove trail c [] { c with handover := false }
  | handoverCompleted {s : StepShape} {attemptId : UUID} (released : c.handover = false)
      (mem : s ∈ c.steps) (unfollowed : Unfollowed trail s.id attemptId) :
      ShapeMove trail c [.stepHandoverCompleted s.id attemptId] c
  | session (before : c.status = .running) : ShapeMove trail c [] { c with session := true }
  | abort {aborting : Bool} (before : c.handover = false) : ShapeMove trail c [] { c with aborting }
  | start {s : StepShape} {attemptId : UUID} (before : c.status = .running)
      (released : c.handover = false) (attempt : (attemptId, .running) ∈ c.attempts) (mem : s ∈ c.steps)
      (active : some s.operationId = c.active) (at_ : c.At s.sequence) :
      ShapeMove trail c [.stepStarted s.id attemptId] { c with toShapeRows := c.started s attemptId }
  | finish {h : StepAttemptShape} {status : StepStatus} (before : c.status = .running)
      (mem : h ∈ c.stepAttempts) (running : h.status = .running)
      (ended : status.isOpen = false) :
      ShapeMove trail c [.stepCompleted status h.stepId h.attemptId]
        { c with toShapeRows := c.finished h status }
  | skip {p : StepShape → Bool} (before : c.status = .running) (idle : c.NoneRunning) :
      ShapeMove trail c [] { c with toShapeRows := c.skipped p }
  | complete {attemptId : UUID} (before : c.status = .running) (multi : c.mode = .multi)
      (session : c.session = true) (attempt : (attemptId, .running) ∈ c.attempts)
      (closed : c.NoneOpen) :
      ShapeMove trail c [] { c with
        toShapeRows := c.withAttempt attemptId .waiting
        status := .waitingForOperation }
  | defer {attemptId : UUID} (before : c.status = .running) (single : c.mode = .single)
      (attempt : (attemptId, .running) ∈ c.attempts) (idle : c.NoneRunning)
      (resumable : c.Resumable) :
      ShapeMove trail c [] { c with
        toShapeRows := c.withAttempt attemptId .failed
        status := .queued }
  | close {status : ExecutionStatus} {stepEnd : StepStatus} {attemptEnd : AttemptStatus}
      {session aborting : Bool} {strategy : RetryStrategy} {retryFrom : Option ℕ}
      (before : c.status.isTerminal = false) (terminal : status.isTerminal = true)
      (step : stepEnd.isOpen = false) (skipped : stepEnd ≠ .skipped)
      (attempt : attemptEnd.isLive = false)
      (released : c.handover = false)
      (multi : c.mode = .multi → strategy = .notRetryable)
      (kept : status = .failed → c.mode = .single → strategy = .fromFailedStep →
        stepEnd = .failed ∧ { c with retryFrom }.Kept) :
      ShapeMove trail c
        (c.running.map (fun h => .stepCompleted stepEnd h.stepId h.attemptId) ++
          [.completed status])
        { c with
          toShapeRows := c.closed stepEnd attemptEnd
          status, session, aborting, strategy, retryFrom }
  | settle {session aborting : Bool} {strategy : RetryStrategy} {retryFrom : Option ℕ}
      (before : c.status.isTerminal = true) (released : c.handover = false)
      (retry : strategy = c.strategy ∧ retryFrom = c.retryFrom ∨ strategy = .notRetryable) :
      ShapeMove trail c [] { c with session, aborting, strategy, retryFrom }

/-! ### Keys -/

namespace ShapeRows

variable {c c' c'' : ShapeRows}

/-- The rows are the same up to their statuses. -/
structure SameKeys (c c' : ShapeRows) : Prop where
  mode : c'.mode = c.mode
  active : c'.active = c.active
  steps : c'.steps.map stepKey = c.steps.map stepKey
  attempts : c'.attempts.map (·.1) = c.attempts.map (·.1)
  stepAttempts : c'.stepAttempts.map stepAttemptKey = c.stepAttempts.map stepAttemptKey

theorem SameKeys.map_step {β : Type} (h : SameKeys c c') {f : StepShape → β}
    {g : UUID × UUID × ℕ → β} (hf : ∀ s, f s = g (stepKey s)) :
    c'.steps.map f = c.steps.map f := by
  rw [List.map_congr_left fun s _ => hf s, List.map_congr_left fun s _ => hf s]
  have hmap : ∀ l : List StepShape, (l.map fun s => g (stepKey s)) = (l.map stepKey).map g := by
    intro l
    rw [List.map_map]
    rfl
  rw [hmap, hmap, h.steps]

theorem SameKeys.refl (c : ShapeRows) : SameKeys c c :=
  ⟨rfl, rfl, rfl, rfl, rfl⟩

theorem SameKeys.symm (h : SameKeys c c') : SameKeys c' c :=
  ⟨h.mode.symm, h.active.symm, h.steps.symm, h.attempts.symm, h.stepAttempts.symm⟩

/-- A Step before has its Step after. -/
theorem SameKeys.step (h : SameKeys c c') {s : StepShape} (hs : s ∈ c.steps) :
    ∃ s' ∈ c'.steps, s'.id = s.id ∧ s'.operationId = s.operationId ∧ s'.sequence = s.sequence := by
  have hmem : stepKey s ∈ c'.steps.map stepKey := by
    rw [h.steps]
    exact List.mem_map_of_mem hs
  obtain ⟨s', hs', hkey⟩ := List.mem_map.mp hmem
  simp only [stepKey, Prod.mk.injEq] at hkey
  exact ⟨s', hs', hkey⟩

theorem SameKeys.attempt (h : SameKeys c c') {a : UUID × AttemptStatus} (ha : a ∈ c.attempts) :
    ∃ a' ∈ c'.attempts, a'.1 = a.1 := by
  have hmem : a.1 ∈ c'.attempts.map (·.1) := by
    rw [h.attempts]
    exact List.mem_map_of_mem ha
  exact List.mem_map.mp hmem

theorem SameKeys.stepAttempt (h : SameKeys c c') {x : StepAttemptShape}
    (hx : x ∈ c'.stepAttempts) :
    ∃ y ∈ c.stepAttempts, y.attemptId = x.attemptId ∧ y.stepId = x.stepId ∧
      y.sequence = x.sequence := by
  have hmem : stepAttemptKey x ∈ c.stepAttempts.map stepAttemptKey := by
    rw [← h.stepAttempts]
    exact List.mem_map_of_mem hx
  obtain ⟨y, hy, hkey⟩ := List.mem_map.mp hmem
  simp only [stepAttemptKey, Prod.mk.injEq] at hkey
  exact ⟨y, hy, hkey⟩

theorem Keyed.same (h : c.Keyed) (hsame : SameKeys c c') : c'.Keyed := by
  have hattempts : ∀ l : List StepAttemptShape, (l.map fun h => (h.attemptId, h.sequence)) =
      (l.map stepAttemptKey).map fun k => (k.1, k.2.2) := by
    intro l
    rw [List.map_map]
    rfl
  refine ⟨?_, ?_, ?_, ?_, fun x hx => ?_, fun hsingle s hs => ?_, fun hsingle => ?_⟩
  · rw [hsame.map_step (f := fun s => s.id) (g := fun k => k.1) fun _ => rfl]
    exact h.stepIds
  · rw [hsame.map_step (f := fun s => s.sequence) (g := fun k => k.2.2) fun _ => rfl]
    exact h.sequences
  · rw [hsame.attempts]
    exact h.attemptIds
  · rw [hattempts, hsame.stepAttempts, ← hattempts]
    exact h.stepAttemptKeys
  · obtain ⟨y, hy, hattempt, hstep, hsequence⟩ := hsame.stepAttempt hx
    obtain ⟨⟨s, hs, hid, hseq⟩, a, ha, haid⟩ := h.attempted y hy
    obtain ⟨s', hs', hid', _, hseq'⟩ := hsame.step hs
    obtain ⟨a', ha', haid'⟩ := hsame.attempt ha
    exact ⟨⟨s', hs', hid'.trans (hid.trans hstep), hseq'.trans (hseq.trans hsequence)⟩, a', ha',
      haid'.trans (haid.trans hattempt)⟩
  · obtain ⟨s', hs', _, hoperation, _⟩ := hsame.symm.step hs
    rw [hsame.active, ← hoperation]
    exact h.single (hsame.mode ▸ hsingle) s' hs'
  · have hlength : c'.steps.length = c.steps.length := by
      have hkeys := congrArg List.length hsame.steps
      rwa [List.length_map, List.length_map] at hkeys
    rw [hsame.map_step (f := fun s => s.sequence) (g := fun k => k.2.2) fun _ => rfl, hlength]
    exact h.numbered (hsame.mode ▸ hsingle)

theorem sameKeys_closed (stepEnd : StepStatus) (attemptEnd : AttemptStatus) (c : ShapeRows) :
    SameKeys c (c.closed stepEnd attemptEnd) := by
  refine ⟨rfl, rfl, ?_, ?_, ?_⟩
  · rw [closed, List.map_map]
    rfl
  · rw [closed, List.map_map]
    refine List.map_congr_left fun a _ => ?_
    rw [Function.comp_apply]
    split <;> rfl
  · rw [closed, List.map_map]
    rfl

theorem sameKeys_reset (fromSequence : ℕ) (c : ShapeRows) :
    SameKeys c { c with steps := c.steps.map (·.reset fromSequence) } := by
  refine ⟨rfl, rfl, ?_, rfl, rfl⟩
  rw [List.map_map]
  refine List.map_congr_left fun s _ => ?_
  rw [Function.comp_apply, StepShape.reset]
  split <;> rfl

theorem sameKeys_withAttempt (attemptId : UUID) (status : AttemptStatus) (c : ShapeRows) :
    SameKeys c (c.withAttempt attemptId status) := by
  refine ⟨rfl, rfl, rfl, ?_, rfl⟩
  rw [withAttempt, List.map_updateWhere]
  exact fun a => rfl

theorem sameKeys_withStep (sequence : ℕ) (status : StepStatus) (c : ShapeRows) :
    SameKeys c (c.withStep sequence status) := by
  refine ⟨rfl, rfl, ?_, rfl, rfl⟩
  rw [withStep, List.map_updateWhere]
  exact fun s => rfl

theorem sameKeys_finished (h : StepAttemptShape) (status : StepStatus) (c : ShapeRows) :
    SameKeys c (c.finished h status) := by
  refine ⟨rfl, rfl, (sameKeys_withStep h.sequence status c).steps, rfl, ?_⟩
  rw [finished, List.map_updateWhere]
  exact fun x => rfl

theorem sameKeys_skipped (p : StepShape → Bool) (c : ShapeRows) : SameKeys c (c.skipped p) := by
  refine ⟨rfl, rfl, ?_, rfl, rfl⟩
  rw [skipped, List.map_updateWhere]
  exact fun s => rfl

theorem Keyed.step_of_sequence (h : c.Keyed) {s s' : StepShape} (hs : s ∈ c.steps)
    (hs' : s' ∈ c.steps) (hsequence : s.sequence = s'.sequence) : s = s' :=
  List.inj_on_of_nodup_map h.sequences hs hs' hsequence

theorem Keyed.step_of_id (h : c.Keyed) {s s' : StepShape} (hs : s ∈ c.steps)
    (hs' : s' ∈ c.steps) (hid : s.id = s'.id) : s = s' :=
  List.inj_on_of_nodup_map h.stepIds hs hs' hid

theorem Keyed.attempt_of_id (h : c.Keyed) {a a' : UUID × AttemptStatus} (ha : a ∈ c.attempts)
    (ha' : a' ∈ c.attempts) (hid : a.1 = a'.1) : a = a' :=
  List.inj_on_of_nodup_map h.attemptIds ha ha' hid

/-! ### Statuses -/

theorem NoneOpen.noneRunning (h : c.NoneOpen) : c.NoneRunning :=
  fun s hs => StepStatus.ne_running (h s hs)

theorem Statuses.none_attempted (h : c.Statuses) (hidle : c.NoneRunning) :
    ∀ x ∈ c.stepAttempts, x.status ≠ .running := by
  intro x hx hrunning
  obtain ⟨_, s, hs, _, _, hstep⟩ := h.runningStepAttempt x hx hrunning
  exact hidle s hs hstep

theorem Statuses.none_attempted_of_noneLive (h : c.Statuses) (hlive : c.NoneLive) :
    ∀ x ∈ c.stepAttempts, x.status ≠ .running := by
  intro x hx hrunning
  have := hlive _ (h.runningStepAttempt x hx hrunning).1
  cases this

/-- Nothing is open. -/
theorem Statuses.closed (hsteps : c.NoneOpen) (hattempts : c.NoneLive)
    (hstepAttempts : ∀ h ∈ c.stepAttempts, h.status ≠ .running) : c.Statuses := by
  have hrunning := hsteps.noneRunning
  have hpending : ∀ s ∈ c.steps, s.status ≠ .pending :=
    fun s hs => StepStatus.ne_pending (hsteps s hs)
  refine ⟨fun s hs _ _ h => absurd h (hrunning s hs), fun s hs h => absurd h (hrunning s hs),
    fun a ha _ _ hlive => ?_, fun s hs hopen => ?_,
    fun h hh hno => absurd hno (hstepAttempts h hh), fun s hs h => absurd h (hrunning s hs),
    fun s hs h => absurd h (hpending s hs)⟩
  · exact absurd (hlive.symm.trans (hattempts a ha)) (by decide)
  · exact absurd (hopen.symm.trans (hsteps s hs)) (by decide)

/-- The live Attempt gets another status; only a running one has a running Step. -/
theorem Statuses.withAttempt (h : c.Statuses) (hkeyed : c.Keyed) {attemptId : UUID}
    {before after : AttemptStatus} (hmem : (attemptId, before) ∈ c.attempts)
    (hlive : before.isLive = true)
    (hrunning : after = .running ∨ ∀ x ∈ c.stepAttempts, x.status ≠ .running) :
    (c.withAttempt attemptId after).Statuses := by
  have hold : ∀ a ∈ c.attempts, a.1 = attemptId → a = (attemptId, before) :=
    fun a ha hid => hkeyed.attempt_of_id ha hmem hid
  refine ⟨h.runningStep, h.order, ?_, h.openStep, fun x hx hstatus => ?_, h.attemptOf, ?_⟩
  · -- Any live Attempt after the move is the one it moved.
    have hone : ∀ a ∈ (c.withAttempt attemptId after).attempts, a.2.isLive = true →
        a = (attemptId, after) := by
      refine List.forall_mem_updateWhere (fun a ha hid _ => ?_) fun a ha hid ha' => ?_
      · rw [beq_iff_eq.mp hid]
      · have heq := h.liveAttempt a ha _ hmem ha' hlive
        rw [heq] at hid
        simp at hid
    intro a ha a' ha' hla hla'
    rw [hone a ha hla, hone a' ha' hla']
  · rcases hrunning with rfl | hnone
    · obtain ⟨hattempt, hstep⟩ := h.runningStepAttempt x hx hstatus
      refine ⟨?_, hstep⟩
      refine List.mem_updateWhere.mpr ?_
      by_cases hid : x.attemptId = attemptId
      · exact .inl ⟨_, hattempt, by simpa using hid, rfl⟩
      · exact .inr ⟨hattempt, by simpa using hid⟩
    · exact absurd hstatus (hnone x hx)
  · intro s hs hpending x hx hstep a ha haid
    have hdead := h.unattempted s hs hpending x hx hstep
    rcases List.mem_updateWhere.mp ha with ⟨a', ha', hid, rfl⟩ | ⟨ha, _⟩
    · have hno := hdead a' ha' haid
      rw [hold a' ha' (beq_iff_eq.mp hid), hlive] at hno
      cases hno
    · exact hdead a ha haid

theorem Statuses.reset (hkeyed : c.Keyed) (hstatuses : c.Statuses) (hsingle : c.mode = .single)
    (hopen : c.NoneOpen) (hlive : c.NoneLive) (fromSequence : ℕ) :
    { c with steps := c.steps.map (·.reset fromSequence) : ShapeRows }.Statuses := by
  have hnone := hstatuses.none_attempted_of_noneLive hlive
  have hreset : ∀ s ∈ c.steps.map (·.reset fromSequence), s.status ≠ .running := by
    intro s hs
    obtain ⟨s', hs', rfl⟩ := List.mem_map.mp hs
    rw [StepShape.reset]
    split
    · exact hopen.noneRunning s' hs'
    · simp
  have hkey := (hkeyed.same (sameKeys_reset fromSequence c)).single hsingle
  refine ⟨fun s hs _ _ h => absurd h (hreset s hs), fun s hs h => absurd h (hreset s hs),
    hstatuses.liveAttempt, fun s hs _ => hkey s hs, fun x hx h => absurd h (hnone x hx),
    fun s hs h => absurd h (hreset s hs), fun _ _ _ _ _ _ a ha _ => hlive a ha⟩

theorem Statuses.operation (hkeyed : c.Keyed) (hstatuses : c.Statuses) (hopen : c.NoneOpen)
    {id : UUID} {steps : List StepShape}
    (hadded : ∀ s ∈ steps, s.operationId = id ∧ s.status = .pending)
    (hids : ((c.steps ++ steps).map (·.id)).Nodup) :
    { c with active := some id, steps := c.steps ++ steps : ShapeRows }.Statuses := by
  have hnone := hstatuses.none_attempted hopen.noneRunning
  have hidle : ∀ s ∈ c.steps ++ steps, s.status ≠ .running := by
    intro s hs
    rcases List.mem_append.mp hs with hs | hs
    · exact hopen.noneRunning s hs
    · rw [(hadded s hs).2]
      decide
  refine ⟨fun s hs _ _ h => absurd h (hidle s hs), fun s hs h => absurd h (hidle s hs),
    hstatuses.liveAttempt, fun s hs h => ?_, fun x hx h => absurd h (hnone x hx),
    fun s hs h => absurd h (hidle s hs), fun s hs hpending x hx hstep => ?_⟩
  · rcases List.mem_append.mp hs with hs | hs
    · exact absurd (h.symm.trans (hopen s hs)) (by decide)
    · rw [(hadded s hs).1]
  · -- A Step that has an attempt is not one of the new ones.
    obtain ⟨⟨s', hs', hid, _⟩, _⟩ := hkeyed.attempted x hx
    have heq := List.inj_on_of_nodup_map hids (List.mem_append_left _ hs') hs (hid.trans hstep)
    have hno := hopen s' hs'
    rw [heq, hpending] at hno
    cases hno

theorem Statuses.attempt (hkeyed : c.Keyed) (hstatuses : c.Statuses) (hlive : c.NoneLive)
    {attemptId : UUID} (hfresh : ∀ a ∈ c.attempts, a.1 ≠ attemptId) :
    { c with attempts := c.attempts ++ [(attemptId, .running)] : ShapeRows }.Statuses := by
  have hnone := hstatuses.none_attempted_of_noneLive hlive
  have hone : ∀ a ∈ c.attempts ++ [(attemptId, .running)], a.2.isLive = true →
      a = (attemptId, .running) := by
    intro a ha hla
    rcases List.mem_append.mp ha with ha | ha
    · exact absurd (hla.symm.trans (hlive a ha)) (by decide)
    · exact List.mem_singleton.mp ha
  refine ⟨hstatuses.runningStep, hstatuses.order, fun a ha a' ha' hla hla' => ?_,
    hstatuses.openStep, fun x hx h => absurd h (hnone x hx), hstatuses.attemptOf,
    fun s hs hpending x hx hstep a ha haid => ?_⟩
  · rw [hone a ha hla, hone a' ha' hla']
  · rcases List.mem_append.mp ha with ha | ha
    · exact hlive a ha
    · obtain ⟨_, a', ha', haid'⟩ := hkeyed.attempted x hx
      rw [List.mem_singleton.mp ha] at haid
      exact absurd (haid'.trans haid.symm) (hfresh a' ha')

theorem mem_withStep {sequence : ℕ} {status : StepStatus} {s : StepShape}
    (hs : s ∈ (c.withStep sequence status).steps) :
    (∃ s' ∈ c.steps, s'.sequence = sequence ∧ s = { s' with status }) ∨
      (s ∈ c.steps ∧ s.sequence ≠ sequence) := by
  rcases List.mem_updateWhere.mp hs with ⟨s', hs', hsequence, rfl⟩ | ⟨hs, hsequence⟩
  · exact .inl ⟨s', hs', by simpa using hsequence, rfl⟩
  · exact .inr ⟨hs, by simpa using hsequence⟩

/-- The Step that an Operation stands at is PENDING, and none is running. -/
theorem At.pending {s : StepShape} (hat : c.At s.sequence) (hs : s ∈ c.steps)
    (hactive : some s.operationId = c.active) : s.status = .pending := by
  rw [hat s hs hactive, if_pos (Nat.le_refl _)]

theorem At.noneRunning {sequence : ℕ} (hat : c.At sequence) (h : c.Statuses) : c.NoneRunning := by
  intro s hs hrunning
  have hstatus := hat s hs (h.openStep s hs (by rw [hrunning]; rfl))
  rw [hrunning] at hstatus
  split at hstatus <;> cases hstatus

theorem Keyed.started (h : c.Keyed) (hstatuses : c.Statuses) {s : StepShape} {attemptId : UUID}
    (hs : s ∈ c.steps) (hpending : s.status = .pending)
    (hattempt : (attemptId, .running) ∈ c.attempts) : (c.started s attemptId).Keyed := by
  have hstep := h.same (sameKeys_withStep s.sequence .running c)
  refine ⟨hstep.stepIds, hstep.sequences, h.attemptIds, ?_, ?_, hstep.single, hstep.numbered⟩
  · rw [ShapeRows.started, List.map_append, List.map_singleton, List.nodup_append]
    refine ⟨h.stepAttemptKeys, List.nodup_singleton _, fun k hk k' hk' heq => ?_⟩
    obtain ⟨x, hx, rfl⟩ := List.mem_map.mp hk
    rw [List.mem_singleton.mp hk', Prod.mk.injEq] at heq
    -- The Attempt would have run this PENDING Step before.
    obtain ⟨⟨s', hs', hid, hsequence⟩, _⟩ := h.attempted x hx
    have hsame := h.step_of_sequence hs' hs (hsequence.trans heq.2)
    have hno := hstatuses.unattempted s hs hpending x hx (hid.symm.trans (by rw [hsame])) _ hattempt
      heq.1.symm
    cases hno
  · intro x hx
    rcases List.mem_append.mp hx with hx | hx
    · exact hstep.attempted x hx
    · rw [List.mem_singleton.mp hx]
      refine ⟨⟨{ s with status := .running }, ?_, rfl, rfl⟩, _, hattempt, rfl⟩
      exact List.mem_updateWhere.mpr (.inl ⟨s, hs, by simp, rfl⟩)

theorem Statuses.started (hkeyed : c.Keyed) (h : c.Statuses) {s : StepShape} {attemptId : UUID}
    (hs : s ∈ c.steps) (hactive : some s.operationId = c.active) (hat : c.At s.sequence)
    (hattempt : (attemptId, .running) ∈ c.attempts) : (c.started s attemptId).Statuses := by
  have hpending := hat.pending hs hactive
  have hidle := hat.noneRunning h
  have hnone := h.none_attempted hidle
  have hmem : { s with status := .running } ∈ (c.withStep s.sequence .running).steps :=
    List.mem_updateWhere.mpr (.inl ⟨s, hs, by simp, rfl⟩)
  have hrunning : ∀ x ∈ (c.withStep s.sequence .running).steps, x.status = .running →
      x = { s with status := .running } := by
    intro x hx hstatus
    rcases mem_withStep hx with ⟨s', hs', hsequence, rfl⟩ | ⟨hx, _⟩
    · rw [hkeyed.step_of_sequence hs' hs hsequence]
    · exact absurd hstatus (hidle x hx)
  refine ⟨fun x hx y hy hxr hyr => ?_, fun x hx hxr y hy hoperation => ?_, h.liveAttempt,
    fun x hx hopen => ?_, fun x hx hxr => ?_, fun x hx hxr => ?_, fun x hx hxp y hy hstep => ?_⟩
  · rw [hrunning x hx hxr, hrunning y hy hyr]
  · rw [hrunning x hx hxr] at hoperation ⊢
    rcases mem_withStep hy with ⟨_, _, hsequence, rfl⟩ | ⟨hy, _⟩
    · exact ⟨fun hlt => absurd hsequence (Nat.ne_of_lt hlt), fun hlt => absurd hsequence (Nat.ne_of_gt hlt)⟩
    · have hstatus := hat y hy (hoperation ▸ hactive)
      refine ⟨fun hlt => ?_, fun hlt => ?_⟩
      · rw [hstatus, if_neg (Nat.not_le.mpr hlt)]
      · rw [hstatus, if_pos (Nat.le_of_lt hlt)]
  · rcases mem_withStep hx with ⟨s', hs', hsequence, rfl⟩ | ⟨hx, _⟩
    · rw [hkeyed.step_of_sequence hs' hs hsequence]
      exact h.openStep s hs (by rw [hpending]; rfl)
    · exact h.openStep x hx hopen
  · rcases List.mem_append.mp hx with hx | hx
    · exact absurd hxr (hnone x hx)
    · rw [List.mem_singleton.mp hx]
      exact ⟨hattempt, _, hmem, rfl, rfl, rfl⟩
  · rw [hrunning x hx hxr]
    exact ⟨_, List.mem_append_right _ (List.mem_singleton_self _), rfl, rfl, rfl⟩
  · rcases mem_withStep hx with ⟨_, _, _, rfl⟩ | ⟨hx, hne⟩
    · cases hxp
    · rcases List.mem_append.mp hy with hy | hy
      · exact h.unattempted x hx hxp y hy hstep
      · rw [List.mem_singleton.mp hy] at hstep
        exact absurd (congrArg StepShape.sequence (hkeyed.step_of_id hx hs hstep.symm)) hne

/-- The running Step attempt is unique. -/
theorem Statuses.stepAttempt_unique (h : c.Statuses) {x y : StepAttemptShape}
    (hx : x ∈ c.stepAttempts) (hxr : x.status = .running) (hy : y ∈ c.stepAttempts)
    (hyr : y.status = .running) : x.attemptId = y.attemptId ∧ x.stepId = y.stepId ∧
      x.sequence = y.sequence := by
  obtain ⟨hxa, s, hs, hsid, hss, hsr⟩ := h.runningStepAttempt x hx hxr
  obtain ⟨hya, s', hs', hsid', hss', hsr'⟩ := h.runningStepAttempt y hy hyr
  have hattempt := h.liveAttempt _ hxa _ hya rfl rfl
  have hstep := h.runningStep s hs s' hs' hsr hsr'
  rw [hstep] at hsid hss
  exact ⟨congrArg Prod.fst hattempt, hsid.symm.trans hsid', hss.symm.trans hss'⟩

theorem noneRunning_finished (h : c.Statuses) {x : StepAttemptShape} {status : StepStatus}
    (hx : x ∈ c.stepAttempts) (hxr : x.status = .running) (hended : status.isOpen = false) :
    (c.finished x status).NoneRunning := by
  obtain ⟨_, s, hs, _, hsequence, hrunning⟩ := h.runningStepAttempt x hx hxr
  intro y hy hyr
  rcases mem_withStep hy with ⟨_, _, _, rfl⟩ | ⟨hy, hne⟩
  · exact StepStatus.ne_running hended hyr
  · exact hne ((congrArg StepShape.sequence (h.runningStep y hy s hs hyr hrunning)).trans hsequence)

theorem Statuses.finished (h : c.Statuses) {x : StepAttemptShape} {status : StepStatus}
    (hx : x ∈ c.stepAttempts) (hxr : x.status = .running) (hended : status.isOpen = false) :
    (c.finished x status).Statuses := by
  have hidle := noneRunning_finished h hx hxr hended
  have hnone : ∀ y ∈ (c.finished x status).stepAttempts, y.status ≠ .running := by
    refine List.forall_mem_updateWhere (fun y _ _ => StepStatus.ne_running hended)
      fun y hy hne hyr => ?_
    obtain ⟨hattempt, _, hsequence⟩ := h.stepAttempt_unique hy hyr hx hxr
    simp [hattempt, hsequence] at hne
  refine ⟨fun y hy _ _ hyr => absurd hyr (hidle y hy), fun y hy hyr => absurd hyr (hidle y hy),
    h.liveAttempt, fun y hy hopen => ?_, fun y hy hyr => absurd hyr (hnone y hy),
    fun y hy hyr => absurd hyr (hidle y hy), fun y hy hyp z hz hstep a ha haid => ?_⟩
  · rcases mem_withStep hy with ⟨_, _, _, rfl⟩ | ⟨hy, _⟩
    · exact absurd (hopen.symm.trans hended) (by decide)
    · exact h.openStep y hy hopen
  · rcases mem_withStep hy with ⟨_, _, _, rfl⟩ | ⟨hy, _⟩
    · exact absurd hyp (StepStatus.ne_pending hended)
    · obtain ⟨z', hz', hattempt, hid, _⟩ := (sameKeys_finished x status c).stepAttempt hz
      exact h.unattempted y hy hyp z' hz' (hid.trans hstep) a ha (haid.trans hattempt.symm)

theorem mem_skipped {p : StepShape → Bool} {s : StepShape} (hs : s ∈ (c.skipped p).steps) :
    s.status = .skipped ∨ s ∈ c.steps := by
  rcases List.mem_updateWhere.mp hs with ⟨s', _, _, rfl⟩ | ⟨hs, _⟩
  · exact .inl rfl
  · exact .inr hs

theorem Statuses.skipped (h : c.Statuses) (hidle : c.NoneRunning) (p : StepShape → Bool) :
    (c.skipped p).Statuses := by
  have hold : ∀ s ∈ (c.skipped p).steps, s.status.isOpen = true → s ∈ c.steps := by
    intro s hs hopen
    rcases mem_skipped hs with hskipped | hs
    · rw [hskipped] at hopen
      cases hopen
    · exact hs
  have hrunning : ∀ s ∈ (c.skipped p).steps, s.status ≠ .running :=
    fun s hs hr => hidle s (hold s hs (by rw [hr]; rfl)) hr
  have hpending : ∀ s ∈ (c.skipped p).steps, s.status = .pending → s ∈ c.steps :=
    fun s hs hr => hold s hs (by rw [hr]; rfl)
  exact ⟨fun s hs _ _ hr => absurd hr (hrunning s hs), fun s hs hr => absurd hr (hrunning s hs),
    h.liveAttempt, fun s hs ho => h.openStep s (hold s hs ho) ho,
    fun x hx hr => absurd hr (h.none_attempted hidle x hx), fun s hs hr => absurd hr (hrunning s hs),
    fun s hs hp => h.unattempted s (hpending s hs hp) hp⟩

theorem noneOpen_closed {stepEnd : StepStatus} (hstep : stepEnd.isOpen = false)
    (attemptEnd : AttemptStatus) (c : ShapeRows) : (c.closed stepEnd attemptEnd).NoneOpen := by
  intro s hs
  obtain ⟨s', _, rfl⟩ := List.mem_map.mp hs
  rw [StepShape.closed]
  split
  · exact hstep
  · rfl
  · cases hs' : s'.status <;> simp_all [StepStatus.isOpen]

theorem noneLive_closed {attemptEnd : AttemptStatus} (hattempt : attemptEnd.isLive = false)
    (stepEnd : StepStatus) (c : ShapeRows) : (c.closed stepEnd attemptEnd).NoneLive := by
  intro a ha
  obtain ⟨a', _, rfl⟩ := List.mem_map.mp ha
  split
  · exact hattempt
  · rename_i hlive
    simpa using hlive

theorem Statuses.of_closed {stepEnd : StepStatus} {attemptEnd : AttemptStatus}
    (hstep : stepEnd.isOpen = false) (hattempt : attemptEnd.isLive = false) (c : ShapeRows) :
    (c.closed stepEnd attemptEnd).Statuses := by
  refine .closed (noneOpen_closed hstep attemptEnd c) (noneLive_closed hattempt stepEnd c) ?_
  intro x hx hxr
  obtain ⟨y, _, rfl⟩ := List.mem_map.mp hx
  rw [StepAttemptShape.closed] at hxr
  split at hxr
  · exact StepStatus.ne_running hstep hxr
  · rename_i hne
    exact hne hxr

end ShapeRows

/-! ### Soundness -/

namespace Shape

variable {c c' : Shape}

theorem AtStatus.of_running (hstatus : c.status = .running)
    (h : ∃ a ∈ c.attempts, a.2 = .running) : c.AtStatus := by
  refine ⟨fun _ => h, ?_, ?_, ?_, ?_, ?_, ?_⟩ <;> rw [hstatus] <;>
    simp [ExecutionStatus.isTerminal]

theorem AtStatus.of_cancelRequested (hstatus : c.status = .cancelRequested) : c.AtStatus := by
  refine ⟨?_, ?_, ?_, ?_, ?_, ?_, ?_⟩ <;> rw [hstatus] <;> simp [ExecutionStatus.isTerminal]

theorem AtStatus.of_terminal (hstatus : c.status.isTerminal = true) (hopen : c.NoneOpen)
    (hlive : c.NoneLive)
    (hfailed : c.status = .failed → c.mode = .single → c.strategy = .fromFailedStep → c.Kept) :
    c.AtStatus := by
  refine ⟨?_, ?_, ?_, ?_, ?_, fun _ => ⟨hopen, hlive⟩, hfailed⟩ <;>
    · intro h
      revert hstatus
      first
        | rw [h]
          simp [ExecutionStatus.isTerminal]
        | rcases h with h | h <;> rw [h] <;> simp [ExecutionStatus.isTerminal]

theorem AtStatus.of_queued (hstatus : c.status = .queued) (hidle : c.NoneRunning)
    (hsingle : c.mode = .single → c.NoneLive ∧ c.Resumable)
    (hmulti : c.mode = .multi → c.At 0 ∧ ((c.attempts = [] ∧ c.session = false) ∨
      (c.session = true ∧ c.SomeWaiting))) : c.AtStatus := by
  refine ⟨?_, fun _ => hidle, fun _ => hsingle, fun _ => hmulti, ?_, ?_, ?_⟩ <;> rw [hstatus] <;>
    simp [ExecutionStatus.isTerminal]

theorem AtStatus.of_waiting (hstatus : c.status = .waitingForOperation ∨ c.status = .finalizing)
    (h : c.mode = .multi ∧ c.session = true ∧ c.SomeWaiting ∧ c.NoneOpen) : c.AtStatus := by
  refine ⟨?_, ?_, ?_, ?_, fun _ => h, ?_, ?_⟩ <;>
    rcases hstatus with hstatus | hstatus <;> rw [hstatus] <;> simp [ExecutionStatus.isTerminal]

/-- A claim of a new Attempt finds no live one. -/
theorem Sound.noneLive_of_claim (h : c.Sound)
    (hbefore : c.status = .queued ∨ c.status = .finalizing)
    (hmulti : ¬ (c.mode = .multi ∧ c.session = true ∧ c.target = true)) : c.NoneLive := by
  have hwaiting : c.mode = .multi → c.session = true → ¬ c.SomeWaiting := by
    rintro hmode hsession ⟨a, ha, _⟩
    exact hmulti ⟨hmode, hsession, (h.columns.attempted (List.ne_nil_of_mem ha)).1⟩
  rcases hbefore with hqueued | hfinalizing
  · cases hmode : c.mode with
    | single => exact (h.atStatus.queuedSingle hqueued hmode).1
    | multi =>
      rcases (h.atStatus.queuedMulti hqueued hmode).2 with ⟨hempty, _⟩ | ⟨hsession, hsome⟩
      · intro a ha
        rw [hempty] at ha
        cases ha
      · exact absurd hsome (hwaiting hmode hsession)
  · obtain ⟨hmode, hsession, hsome, _⟩ := h.atStatus.waiting (.inr hfinalizing)
    exact absurd hsome (hwaiting hmode hsession)

theorem Resumable.withAttempt (h : c.Resumable) (attemptId : UUID) (status : AttemptStatus)
    (executionStatus : ExecutionStatus) :
    { c with
      toShapeRows := c.withAttempt attemptId status
      status := executionStatus : Shape }.Resumable :=
  ⟨h.steps, h.resumed, h.fresh⟩

theorem attempts_ne_nil_of_sameKeys {c c' : ShapeRows} (h : ShapeRows.SameKeys c c') :
    c'.attempts = [] ↔ c.attempts = [] := by
  have hlength := congrArg List.length h.attempts
  rw [List.length_map, List.length_map] at hlength
  rw [← List.length_eq_zero_iff, ← List.length_eq_zero_iff, hlength]

/-- The columns after a move that keeps the identifiers of the rows. -/
theorem Columns.same (h : c.Columns) (hsame : ShapeRows.SameKeys c.toShapeRows c'.toShapeRows)
    (hoperations : c'.operations = c.operations) (htarget : c'.target = c.target)
    (hexpires : c'.expires = c.expires) (hmulti : c'.mode = .multi → c'.strategy = .notRetryable)
    (hhandover : c'.handover = true → c'.aborting = false) : c'.Columns := by
  refine ⟨hmulti, fun hne => ?_, fun hempty => ?_, fun s hs => ?_, hhandover⟩
  · rw [htarget, hexpires]
    exact h.attempted (mt (attempts_ne_nil_of_sameKeys hsame).mpr hne)
  · rw [hoperations]
    exact h.first ((attempts_ne_nil_of_sameKeys hsame).mp hempty)
  · obtain ⟨s', hs', _, hoperation, _⟩ := hsame.symm.step hs
    rw [hoperations, ← hoperation]
    exact h.owned s' hs'

theorem AtStatus.congr (h : c.AtStatus) (hrows : c'.toShapeRows = c.toShapeRows)
    (hstatus : c'.status = c.status) (hsession : c'.session = c.session)
    (hstrategy : c'.strategy = c.strategy) (hretryFrom : c'.retryFrom = c.retryFrom)
    (hretried : c'.retried = c.retried) : c'.AtStatus := by
  obtain ⟨running, queued, queuedSingle, queuedMulti, waiting, terminal, failed⟩ := h
  refine ⟨?_, ?_, fun hqueued hmode => ?_, ?_, ?_, ?_, ?_⟩
  · rw [hrows, hstatus]
    exact running
  · rw [hrows, hstatus]
    exact queued
  · rw [hstatus] at hqueued
    rw [hrows] at hmode
    obtain ⟨hlive, steps, resumed, fresh⟩ := queuedSingle hqueued hmode
    refine ⟨by rw [hrows]; exact hlive, ?_, ?_, ?_⟩
    · rw [hrows, hretryFrom]
      exact steps
    · rw [hstrategy, hsession, hretried, hretryFrom]
      exact resumed
    · rw [hstrategy, hretryFrom]
      exact fresh
  · rw [hrows, hstatus, hsession]
    exact queuedMulti
  · rw [hrows, hstatus, hsession]
    exact waiting
  · rw [hrows, hstatus]
    exact terminal
  · intro hfailed hmode hstrategy'
    rw [hstatus] at hfailed
    rw [hrows] at hmode
    rw [hstrategy] at hstrategy'
    obtain ⟨known, below, here⟩ := failed hfailed hmode hstrategy'
    refine ⟨?_, ?_, ?_⟩ <;> rw [hretryFrom]
    · exact known
    · rw [hrows]
      exact below
    · rw [hrows]
      exact here

end Shape

theorem ShapeRows.Statuses.noneLive_withAttempt {c : ShapeRows} (h : c.Statuses) {attemptId : UUID}
    {before after : AttemptStatus} (hmem : (attemptId, before) ∈ c.attempts)
    (hlive : before.isLive = true) (hafter : after.isLive = false) :
    (c.withAttempt attemptId after).NoneLive := by
  refine List.forall_mem_updateWhere (fun a _ _ => hafter) fun a ha hne => ?_
  by_contra hla
  have heq := h.liveAttempt a ha _ hmem (by simpa using hla) hlive
  rw [heq] at hne
  simp at hne

theorem ShapeRows.mem_withAttempt {c : ShapeRows} {attemptId : UUID}
    {before after : AttemptStatus} (hmem : (attemptId, before) ∈ c.attempts) :
    (attemptId, after) ∈ (c.withAttempt attemptId after).attempts :=
  List.mem_updateWhere.mpr (.inl ⟨_, hmem, by simp, rfl⟩)

theorem ShapeMove.sound {trail : List EventSubject} {c c' : Shape} {events : List EventSubject}
    (h : ShapeMove trail c events c') (hs : c.Sound) : c'.Sound := by
  obtain ⟨keyed, statuses, columns, atStatus⟩ := hs
  cases h with
  | stay => exact ⟨keyed, statuses, columns, atStatus⟩
  | requestCancel open_ =>
    -- What has to hold of a cancelled Execution holds of every shape.
    exact ⟨keyed, statuses, columns.same (.refl _) rfl rfl rfl columns.multi columns.handover,
      .of_cancelRequested rfl⟩
  | finalizing before =>
    -- A FINALIZING Execution is as a waiting one.
    exact ⟨keyed, statuses, columns.same (.refl _) rfl rfl rfl columns.multi columns.handover,
      .of_waiting (.inr rfl) (atStatus.waiting (.inl before))⟩
  | @retry fromSequence before single strategy =>
    obtain ⟨hopen, hlive⟩ := atStatus.terminal (by rw [before]; rfl)
    have hsame := ShapeRows.sameKeys_reset fromSequence c.toShapeRows
    have hstatuses := ShapeRows.Statuses.reset keyed statuses single hopen hlive fromSequence
    -- The Steps that stay as they are have succeeded.
    have hkept : ∀ s ∈ c.steps, s.sequence < fromSequence → s.status = .succeeded := by
      rcases strategy with ⟨hfailed, _, hfrom⟩ | ⟨_, rfl⟩
      · have hbelow := (atStatus.failed before single hfailed).below
        rwa [hfrom] at hbelow
      · exact fun s _ hlt => absurd hlt (Nat.not_lt_zero _)
    refine ⟨keyed.same hsame, hstatuses, columns.same hsame rfl rfl rfl columns.multi
      columns.handover, .of_queued rfl (fun s hs => ?_) (fun _ => ⟨hlive, ?_, ?_, ?_⟩)
      fun hmulti => ?_⟩
    · -- No Step is running before the retry, nor after it.
      obtain ⟨s', hs', rfl⟩ := List.mem_map.mp hs
      rw [StepShape.reset]
      split
      · exact hopen.noneRunning s' hs'
      · simp
    · -- The Steps below the retry point have succeeded, the others are pending.
      intro s hs _
      obtain ⟨s', hs', rfl⟩ := List.mem_map.mp hs
      rw [StepShape.reset, Option.getD_some]
      split
      · rename_i hlt
        rw [if_neg (Nat.not_le.mpr hlt), hkept s' hs' hlt]
      · rename_i hge
        rw [if_pos (Nat.not_lt.mp hge)]
    · -- A resumed session keeps the deadline and the retry point.
      intro hfailed
      rcases strategy with ⟨_, hsession, _⟩ | ⟨hne, _⟩
      · exact ⟨hsession, rfl, rfl⟩
      · exact absurd hfailed hne
    · -- A retry from the start begins at the first Step.
      intro hne
      rcases strategy with ⟨hfailed, _⟩ | ⟨_, hzero⟩
      · exact absurd hfailed hne
      · exact hzero
    · exact absurd (single.symm.trans hmulti) (by decide)
  | @operation id steps before fresh added ids sequences =>
    -- Only a MULTI Execution waits, with a waiting Attempt.
    obtain ⟨hmulti, hsession, hsome, hopen⟩ := atStatus.waiting (.inl before)
    have hne : c.attempts ≠ [] := by
      obtain ⟨a, ha, _⟩ := hsome
      exact List.ne_nil_of_mem ha
    refine ⟨⟨ids, sequences, keyed.attemptIds, keyed.stepAttemptKeys, fun x hx => ?_,
        fun hsingle => ?_, fun hsingle => ?_⟩, .operation keyed statuses hopen added ids,
      ⟨columns.multi, columns.attempted, fun h => absurd h hne, fun s hs => ?_, columns.handover⟩,
      .of_queued rfl (fun s hs => ?_) (fun hsingle => ?_)
        fun _ => ⟨fun s hs hactive => ?_, .inr ⟨hsession, hsome⟩⟩⟩
    · -- The Step attempts are those of old Steps.
      obtain ⟨⟨s, hs, hkey⟩, hattempt⟩ := keyed.attempted x hx
      exact ⟨⟨s, List.mem_append_left _ hs, hkey⟩, hattempt⟩
    · exact absurd (hsingle.symm.trans hmulti) (by decide)
    · exact absurd (hsingle.symm.trans hmulti) (by decide)
    · -- Each Step belongs to an Operation that is there.
      rcases List.mem_append.mp hs with hs | hs
      · exact List.mem_append_left _ (columns.owned s hs)
      · rw [(added s hs).1]
        exact List.mem_append_right _ (List.mem_singleton_self _)
    · rcases List.mem_append.mp hs with hs | hs
      · exact hopen.noneRunning s hs
      · rw [(added s hs).2]
        decide
    · exact absurd (hsingle.symm.trans hmulti) (by decide)
    · rw [if_pos (Nat.zero_le _)]
      rcases List.mem_append.mp hs with hs | hs
      · -- The new Operation has none of the old Steps.
        exact absurd (Option.some.inj hactive ▸ columns.owned s hs) fresh
      · exact (added s hs).2
  | @resume attemptId before waiting =>
    -- The waiting Attempt runs again.
    have hsame := ShapeRows.sameKeys_withAttempt attemptId .running c.toShapeRows
    exact ⟨keyed.same hsame, statuses.withAttempt keyed waiting rfl (.inl rfl),
      columns.same hsame rfl rfl rfl columns.multi (fun _ => rfl),
      .of_running rfl ⟨_, ShapeRows.mem_withAttempt waiting, rfl⟩⟩
  | @attempt attemptId before fresh multi =>
    have hlive := Shape.Sound.noneLive_of_claim ⟨keyed, statuses, columns, atStatus⟩ before multi
    refine ⟨⟨keyed.stepIds, keyed.sequences, ?_, keyed.stepAttemptKeys, fun x hx => ?_,
      keyed.single, keyed.numbered⟩, .attempt keyed statuses hlive fresh,
      ⟨columns.multi, fun _ => ⟨rfl, rfl⟩, fun h => ?_, columns.owned, fun _ => rfl⟩,
      .of_running rfl ⟨_, List.mem_append_right _ (List.mem_singleton_self _), rfl⟩⟩
    · -- The ids of the Attempts stay distinct.
      rw [List.map_append, List.map_singleton, List.nodup_append]
      refine ⟨keyed.attemptIds, List.nodup_singleton _, fun id hid id' hid' => ?_⟩
      obtain ⟨a, ha, rfl⟩ := List.mem_map.mp hid
      rw [List.mem_singleton.mp hid']
      exact fresh a ha
    · -- Old Step attempts keep their Attempt.
      obtain ⟨hstep, a, ha, hid⟩ := keyed.attempted x hx
      exact ⟨hstep, a, List.mem_append_left _ ha, hid⟩
    · simp at h
  | handOver mem running aborting =>
    exact ⟨keyed, statuses, columns.same (.refl _) rfl rfl rfl columns.multi fun _ => aborting,
      atStatus.congr rfl rfl rfl rfl rfl rfl⟩
  | takeOver =>
    exact ⟨keyed, statuses,
      columns.same (.refl _) rfl rfl rfl columns.multi fun h => absurd h Bool.false_ne_true,
      atStatus.congr rfl rfl rfl rfl rfl rfl⟩
  | handoverCompleted released mem unfollowed => exact ⟨keyed, statuses, columns, atStatus⟩
  | session before =>
    exact ⟨keyed, statuses, columns.same (.refl _) rfl rfl rfl columns.multi columns.handover,
      .of_running before (atStatus.running before)⟩
  | abort before =>
    refine ⟨keyed, statuses, columns.same (.refl _) rfl rfl rfl columns.multi fun h => ?_,
      atStatus.congr rfl rfl rfl rfl rfl rfl⟩
    exact absurd (before.symm.trans h) (by decide)
  | start before released attempt mem active at_ =>
    -- The Step that starts was pending.
    have hpending := at_.pending mem active
    refine ⟨keyed.started statuses mem hpending attempt,
      .started keyed statuses mem active at_ attempt,
      ⟨columns.multi, columns.attempted, columns.first, fun s hs => ?_, columns.handover⟩,
      .of_running before (atStatus.running before)⟩
    rcases ShapeRows.mem_withStep hs with ⟨s', hs', _, rfl⟩ | ⟨hs, _⟩
    · exact columns.owned s' hs'
    · exact columns.owned s hs
  | @finish h status before mem running ended =>
    have hsame := ShapeRows.sameKeys_finished h status c.toShapeRows
    exact ⟨keyed.same hsame, statuses.finished mem running ended,
      columns.same hsame rfl rfl rfl columns.multi columns.handover,
      .of_running before (atStatus.running before)⟩
  | @skip p before idle =>
    have hsame := ShapeRows.sameKeys_skipped p c.toShapeRows
    exact ⟨keyed.same hsame, statuses.skipped idle p,
      columns.same hsame rfl rfl rfl columns.multi columns.handover,
      .of_running before (atStatus.running before)⟩
  | @complete attemptId before multi session attempt closed =>
    -- The Attempt waits; no Step of it is running.
    have hsame := ShapeRows.sameKeys_withAttempt attemptId .waiting c.toShapeRows
    have hnone := statuses.none_attempted closed.noneRunning
    exact ⟨keyed.same hsame, statuses.withAttempt keyed attempt rfl (.inr hnone),
      columns.same hsame rfl rfl rfl columns.multi columns.handover,
      .of_waiting (.inl rfl) ⟨multi, session, ⟨_, ShapeRows.mem_withAttempt attempt, rfl⟩, closed⟩⟩
  | @defer attemptId before single attempt idle resumable =>
    -- The Attempt ends, and the retry point stays.
    have hsame := ShapeRows.sameKeys_withAttempt attemptId .failed c.toShapeRows
    have hnone := statuses.none_attempted idle
    refine ⟨keyed.same hsame, statuses.withAttempt keyed attempt rfl (.inr hnone),
      columns.same hsame rfl rfl rfl columns.multi columns.handover,
      .of_queued rfl idle (fun _ => ⟨statuses.noneLive_withAttempt attempt rfl rfl,
        resumable.withAttempt attemptId .failed .queued⟩) fun hmulti => ?_⟩
    exact absurd (single.symm.trans hmulti) (by decide)
  | @close status stepEnd attemptEnd _ _ _ _ before terminal step skipped attempt released multi
      kept =>
    -- All rows that are open end together.
    have hsame := ShapeRows.sameKeys_closed stepEnd attemptEnd c.toShapeRows
    refine ⟨keyed.same hsame, .of_closed step attempt _,
      columns.same hsame rfl rfl rfl multi fun h => ?_,
      .of_terminal terminal (ShapeRows.noneOpen_closed step attemptEnd _)
        (ShapeRows.noneLive_closed attempt stepEnd _) fun hfailed hmode hstrategy => ?_⟩
    · exact absurd (released.symm.trans h) (by decide)
    · -- A retained session: the retry point is a Step that ran.
      obtain ⟨rfl, hsome, hbelow, s, hs, hsequence, hran⟩ := kept hfailed hmode hstrategy
      refine ⟨hsome, fun s hs hlt => ?_, _, List.mem_map_of_mem hs, hsequence, .inr ?_⟩
      · obtain ⟨s', hs', rfl⟩ := List.mem_map.mp hs
        rw [StepShape.closed, hbelow s' hs' hlt]
      · rcases hran with hrunning | hstatus
        · rw [StepShape.closed, hrunning]
        · rw [StepShape.closed, hstatus]
  | settle before released retry =>
    -- An Execution that has ended has no open row.
    obtain ⟨hopen, hlive⟩ := atStatus.terminal before
    refine ⟨keyed, statuses, columns.same (.refl _) rfl rfl rfl (fun hmulti => ?_) fun h => ?_,
      .of_terminal before hopen hlive fun hfailed hmode hstrategy => ?_⟩
    · rcases retry with ⟨rfl, _⟩ | rfl
      · exact columns.multi hmulti
      · rfl
    · exact absurd (released.symm.trans h) (by decide)
    · -- The session is kept, or the retry is given up.
      rcases retry with ⟨rfl, rfl⟩ | rfl
      · obtain ⟨known, below, here⟩ := atStatus.failed hfailed hmode hstrategy
        exact ⟨known, below, here⟩
      · cases hstrategy

end ExecutorService
