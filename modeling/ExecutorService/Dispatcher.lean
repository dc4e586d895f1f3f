/-
Local jobs of a Worker (`execution_worker/dispatcher.py`).

`ExecutionJobDispatcher` keeps one task per Execution in a table.  A cancellation that
replaces a run is a hand-off: a task that waits for the run's task and then runs the
dispatched coroutine.  The event loop takes the first steps of tasks, their later steps
and their callbacks in any order.

* `Consistent` — names, the table, coroutines and the idle event, over every run;
* `Held` — a task that may still execute is the table's, or its hand-off is;
* `one_local_job` — what both say, as long as no hand-off is abandoned: a hand-off whose
  cancellation was requested before its first step ends without waiting.
-/
import ExecutorService.Enums
import ExecutorService.Transition
import Mathlib.Data.List.AList

namespace ExecutorService

/-! ### Tasks -/

/-- An `asyncio` task. -/
abbrev TaskId := ℕ

/-- A job's coroutine. -/
abbrev CoroutineId := ℕ

namespace LocalJob

/-- The name of a task. -/
inductive TaskName where
  | execution (executionId : UUID)
  | cancellation (executionId : UUID)
  deriving DecidableEq, Repr

/-- What a task runs: a dispatched coroutine, or `_handoff_to_cancellation`. -/
inductive Body where
  | direct (coroutine : CoroutineId)
  | handoff (previous : TaskId) (cancellation : CoroutineId)
  deriving DecidableEq, Repr

/-- How far a task is.  `awaiting` is the `gather` of a hand-off, `executing` the
dispatched coroutine; the flag says that `Task.cancel` was called. -/
inductive Stage where
  | created (cancelled : Bool)
  | awaiting (cancelled : Bool)
  | executing
  | done
  deriving DecidableEq, Repr

/-- `Task.cancel`.  An executing coroutine may end at any time, cancelled or not. -/
def Stage.cancel : Stage → Stage
  | .created _ => .created true
  | .awaiting _ => .awaiting true
  | .executing => .executing
  | .done => .done

/-- Whether a task at this stage may execute its coroutine, now or later. -/
def Stage.live : Stage → Bool
  | .created cancelled => !cancelled
  | .awaiting _ => true
  | .executing => true
  | .done => false

/-- Whether a task at this stage needs its coroutine no more. -/
def Stage.spent : Stage → Bool
  | .executing => true
  | .done => true
  | _ => false

end LocalJob

open LocalJob

/-- A task that the dispatcher has made. -/
structure LocalTask where
  executionId : UUID
  name : TaskName
  body : Body
  stage : Stage := .created false
  deriving DecidableEq, Repr

/-- The coroutine that the task runs in the end. -/
def LocalTask.coroutine (x : LocalTask) : CoroutineId :=
  match x.body with
  | .direct c => c
  | .handoff _ c => c

/-! ### The dispatcher -/

/-- The dispatcher with the event loop's tasks.  A coroutine is the number of the
`dispatch` call that brought it; `waiting` holds the blocked `wait_idle` calls. -/
structure ExecutionJobDispatcher where
  jobs : AList fun _ : UUID => TaskId := ∅
  idle : Bool := true
  accepting : Bool := false
  tasks : List LocalTask := []
  dispatched : ℕ := 0
  started : List CoroutineId := []
  closed : List CoroutineId := []
  waiting : List ℕ := []

namespace ExecutionJobDispatcher

/-- `active_job_count`. -/
def activeJobCount (d : ExecutionJobDispatcher) : ℕ :=
  d.jobs.entries.length

/-- `set_accepting`. -/
def setAccepting (d : ExecutionJobDispatcher) (accepting : Bool) : ExecutionJobDispatcher :=
  { d with accepting := accepting }

/-- `close` of a coroutine that is not started. -/
def close (d : ExecutionJobDispatcher) (c : CoroutineId) : ExecutionJobDispatcher :=
  { d with closed := d.closed ++ [c] }

/-- The stages of tasks change. -/
def restage (d : ExecutionJobDispatcher) (f : TaskId → Stage → Stage) : ExecutionJobDispatcher :=
  { d with tasks := d.tasks.mapIdx fun t x => { x with stage := f t x.stage } }

/-- The stage of one task changes. -/
def setStage (d : ExecutionJobDispatcher) (t : TaskId) (stage : Stage) : ExecutionJobDispatcher :=
  d.restage fun i s => if i = t then stage else s

/-- A cancelled `gather` cancels what it waits for, and still waits for it. -/
def awaited (d : ExecutionJobDispatcher) (t : TaskId) : Option TaskId :=
  match d.tasks[t]? with
  | some ⟨_, _, .handoff previous _, .awaiting _⟩ => some previous
  | _ => none

/-- `cancel` of tasks, which goes on to the task that each awaits. -/
def cancel (d : ExecutionJobDispatcher) (ts : List TaskId) : ExecutionJobDispatcher :=
  d.restage fun i s => if i ∈ ts ++ ts.filterMap d.awaited then s.cancel else s

/-- `create_task` and `_track`. -/
def track (d : ExecutionJobDispatcher) (x : LocalTask) : ExecutionJobDispatcher :=
  { d with
    tasks := d.tasks ++ [x]
    jobs := d.jobs.insert x.executionId d.tasks.length
    idle := false }

/-- The job of an Execution, unless its task is done. -/
def current (d : ExecutionJobDispatcher) (executionId : UUID) : Option (TaskId × LocalTask) := do
  let t ← d.jobs.lookup executionId
  let x ← d.tasks[t]?
  if x.stage = .done then none else some (t, x)

/-- `dispatch`. -/
def dispatch (d : ExecutionJobDispatcher) (executionId : UUID) (replace : Bool) :
    ExecutionJobDispatcher :=
  let coroutine := d.dispatched
  let d := { d with dispatched := d.dispatched + 1 }
  if !d.accepting && !replace then d.close coroutine
  else
    match d.current executionId with
    | some (t, x) =>
      if replace then
        if x.name = .cancellation executionId then d.close coroutine
        else (d.cancel [t]).track ⟨executionId, .cancellation executionId, .handoff t coroutine,
          .created false⟩
      else d.close coroutine
    | none => d.track ⟨executionId,
        if replace then .cancellation executionId else .execution executionId,
        .direct coroutine, .created false⟩

/-- `cancel_all`. -/
def cancelAll (d : ExecutionJobDispatcher) : ExecutionJobDispatcher :=
  d.cancel (d.jobs.entries.map (·.snd))

/-- `Event.set` releases every waiter. -/
def removeIfCurrent (d : ExecutionJobDispatcher) (executionId : UUID) (t : TaskId) :
    ExecutionJobDispatcher :=
  if d.jobs.lookup executionId = some t then
    let d := { d with jobs := d.jobs.erase executionId }
    if d.activeJobCount = 0 then { d with idle := true, waiting := [] } else d
  else d

/-- `wait_idle`. -/
def waitIdle (d : ExecutionJobDispatcher) (w : ℕ) : ExecutionJobDispatcher :=
  if d.idle then d else { d with waiting := d.waiting ++ [w] }

/-! ### The event loop -/

/-- The dispatched coroutine of a task begins. -/
def enter (d : ExecutionJobDispatcher) (t : TaskId) (c : CoroutineId) : ExecutionJobDispatcher :=
  { d.setStage t .executing with started := d.started ++ [c] }

/-- The first step of a task.  One that was cancelled before it throws into a coroutine
that has not begun: nothing of its body runs, and a hand-off drops its cancellation. -/
def start (d : ExecutionJobDispatcher) (t : TaskId) : ExecutionJobDispatcher :=
  match d.tasks[t]? with
  | some ⟨_, _, .direct c, .created false⟩ => d.enter t c
  | some ⟨_, _, .direct c, .created true⟩ => (d.setStage t .done).close c
  | some ⟨_, _, .handoff _ _, .created false⟩ => d.setStage t (.awaiting false)
  | some ⟨_, _, .handoff _ _, .created true⟩ => d.setStage t .done
  | _ => d

/-- `done` of a task. -/
def isDone (d : ExecutionJobDispatcher) (t : TaskId) : Bool :=
  d.tasks[t]?.any (·.stage = .done)

/-- A hand-off resumes when the `gather` of the replaced task is over. -/
def resume (d : ExecutionJobDispatcher) (t : TaskId) : ExecutionJobDispatcher :=
  match d.tasks[t]? with
  | some ⟨_, _, .handoff previous c, .awaiting cancelled⟩ =>
    if d.isDone previous then
      if cancelled then (d.setStage t .done).close c else d.enter t c
    else d
  | _ => d

/-- A task's coroutine comes to its end. -/
def finish (d : ExecutionJobDispatcher) (t : TaskId) : ExecutionJobDispatcher :=
  match d.tasks[t]? with
  | some ⟨_, _, _, .executing⟩ => d.setStage t .done
  | _ => d

/-- The done callback that `_track` added. -/
def callback (d : ExecutionJobDispatcher) (t : TaskId) : ExecutionJobDispatcher :=
  match d.tasks[t]? with
  | some ⟨executionId, _, _, .done⟩ => d.removeIfCurrent executionId t
  | _ => d

end ExecutionJobDispatcher

namespace LocalJob

/-- What happens next. -/
inductive Action where
  | setAccepting (accepting : Bool)
  | dispatch (executionId : UUID) (replace : Bool)
  | cancel (t : TaskId)
  | cancelAll
  | waitIdle (w : ℕ)
  | start (t : TaskId)
  | resume (t : TaskId)
  | finish (t : TaskId)
  | callback (t : TaskId)

end LocalJob

namespace ExecutionJobDispatcher

/-- One step of the event loop, or a call from outside. -/
def step (d : ExecutionJobDispatcher) : Action → ExecutionJobDispatcher
  | .setAccepting accepting => d.setAccepting accepting
  | .dispatch executionId replace => d.dispatch executionId replace
  | .cancel t => d.cancel [t]
  | .cancelAll => d.cancelAll
  | .waitIdle w => d.waitIdle w
  | .start t => d.start t
  | .resume t => d.resume t
  | .finish t => d.finish t
  | .callback t => d.callback t

/-! ### What the operations leave -/

variable {d : ExecutionJobDispatcher}

@[simp] theorem tasks_restage (f : TaskId → Stage → Stage) (t : TaskId) :
    (d.restage f).tasks[t]? = d.tasks[t]?.map fun x => { x with stage := f t x.stage } := by
  simp [restage]

theorem tasks_restage_eq_some {f : TaskId → Stage → Stage} {t : TaskId} {y : LocalTask} :
    (d.restage f).tasks[t]? = some y ↔
      ∃ x, d.tasks[t]? = some x ∧ { x with stage := f t x.stage } = y := by
  simp

theorem tasks_track_eq_some {x y : LocalTask} {t : ℕ} :
    (d.track x).tasks[t]? = some y ↔
      d.tasks[t]? = some y ∨ (t = d.tasks.length ∧ x = y) := by
  rw [track, List.getElem?_append, List.getElem?_singleton]
  by_cases hlt : t < d.tasks.length
  · simp [hlt, Nat.ne_of_lt hlt]
  · by_cases h : t = d.tasks.length
    · simp [h]
    · simp [hlt, h, show t - d.tasks.length ≠ 0 by omega]

theorem isDone_iff {t : TaskId} :
    d.isDone t = true ↔ ∃ x, d.tasks[t]? = some x ∧ x.stage = .done := by
  simp [isDone, Option.any_eq_true]

theorem current_eq_some {executionId : UUID} {t : TaskId} {x : LocalTask} :
    d.current executionId = some (t, x) ↔
      d.jobs.lookup executionId = some t ∧ d.tasks[t]? = some x ∧ x.stage ≠ .done := by
  simp only [current, Option.bind_eq_bind, Option.bind_eq_some_iff]
  constructor
  · rintro ⟨u, hu, y, hy, h⟩
    split at h
    · cases h
    · cases h
      exact ⟨hu, hy, ‹_›⟩
  · rintro ⟨ht, hx, hdone⟩
    exact ⟨t, ht, x, hx, by simp [hdone]⟩

theorem current_eq_none {executionId : UUID} {t : TaskId} {x : LocalTask}
    (h : d.current executionId = none) (ht : d.jobs.lookup executionId = some t)
    (hx : d.tasks[t]? = some x) : x.stage = .done := by
  by_contra hdone
  rw [current_eq_some.mpr ⟨ht, hx, hdone⟩] at h
  cases h

/-! ### Names, the table and the coroutines -/

/-- What holds of every dispatcher, with or without replacements. -/
structure Consistent (d : ExecutionJobDispatcher) : Prop where
  named : ∀ {t : TaskId} {p c} {x : LocalTask}, d.tasks[t]? = some x → x.body = .handoff p c →
    x.name = .cancellation x.executionId
  table : ∀ {e t}, d.jobs.lookup e = some t → ∃ x, d.tasks[t]? = some x ∧ x.executionId = e
  begun : ∀ {t : TaskId} {x : LocalTask}, d.tasks[t]? = some x → x.stage = .executing →
    x.coroutine ∈ d.started
  waited : ∀ {t : TaskId} {p c} {x : LocalTask}, d.tasks[t]? = some x → x.body = .handoff p c →
    c ∈ d.started →
    d.isDone p = true
  spent : ∀ {t : TaskId} {x : LocalTask}, d.tasks[t]? = some x → x.coroutine ∈ d.started ++ d.closed →
    x.stage.spent = true
  fresh : ∀ {t : TaskId} {x : LocalTask}, d.tasks[t]? = some x → x.coroutine < d.dispatched
  used : ∀ c ∈ d.started ++ d.closed, c < d.dispatched
  distinct : ∀ {t t' : TaskId} {x x' : LocalTask}, d.tasks[t]? = some x → d.tasks[t']? = some x' →
    x.coroutine = x'.coroutine → t = t'
  once : (d.started ++ d.closed).Nodup
  idle : d.idle = true ↔ d.activeJobCount = 0
  released : d.idle = true → d.waiting = []

theorem Consistent.notSpent {t : TaskId} {x : LocalTask} (h : Consistent d)
    (hx : d.tasks[t]? = some x) (hs : x.stage.spent = false) :
    x.coroutine ∉ d.started ++ d.closed := fun hc => by
  rw [h.spent hx hc] at hs
  cases hs

/-- What a change of stage leaves alone. -/
structure Steady (s s' : Stage) : Prop where
  done : s = .done → s' = .done
  spent : s.spent = true → s'.spent = true
  executing : s' = .executing → s = .executing

theorem Steady.refl (s : Stage) : Steady s s := ⟨id, id, id⟩

theorem Steady.cancel (s : Stage) : Steady s s.cancel := by
  cases s <;> exact ⟨by simp [Stage.cancel], by simp [Stage.cancel, Stage.spent],
    by simp [Stage.cancel]⟩

theorem Steady.toDone (s : Stage) : Steady s .done := ⟨fun _ => rfl, fun _ => rfl, nofun⟩

theorem isDone_restage {f : TaskId → Stage → Stage} {t : TaskId}
    (hf : ∀ {x : LocalTask}, d.tasks[t]? = some x → x.stage = .done → f t x.stage = .done)
    (h : d.isDone t = true) : (d.restage f).isDone t = true := by
  obtain ⟨x, hx, hdone⟩ := isDone_iff.mp h
  exact isDone_iff.mpr ⟨_, tasks_restage_eq_some.mpr ⟨x, hx, rfl⟩, hf hx hdone⟩

theorem Consistent.restage {f : TaskId → Stage → Stage} (h : Consistent d)
    (hf : ∀ {t : TaskId} {x : LocalTask}, d.tasks[t]? = some x → Steady x.stage (f t x.stage)) :
    Consistent (d.restage f) where
  named ht hb := by
    obtain ⟨x, hx, rfl⟩ := tasks_restage_eq_some.mp ht
    exact h.named (x := x) hx hb
  table he := by
    obtain ⟨x, hx, hxe⟩ := h.table he
    exact ⟨_, tasks_restage_eq_some.mpr ⟨x, hx, rfl⟩, hxe⟩
  begun ht hs := by
    obtain ⟨x, hx, rfl⟩ := tasks_restage_eq_some.mp ht
    exact h.begun (x := x) hx ((hf hx).executing hs)
  waited ht hb hc := by
    obtain ⟨x, hx, rfl⟩ := tasks_restage_eq_some.mp ht
    exact isDone_restage (fun hy => (hf hy).done) (h.waited hx hb hc)
  spent ht hc := by
    obtain ⟨x, hx, rfl⟩ := tasks_restage_eq_some.mp ht
    exact (hf hx).spent (h.spent hx hc)
  fresh ht := by
    obtain ⟨x, hx, rfl⟩ := tasks_restage_eq_some.mp ht
    exact h.fresh (x := x) hx
  used := h.used
  distinct ht ht' heq := by
    obtain ⟨x, hx, rfl⟩ := tasks_restage_eq_some.mp ht
    obtain ⟨x', hx', rfl⟩ := tasks_restage_eq_some.mp ht'
    exact h.distinct hx hx' heq
  once := h.once
  idle := h.idle
  released := h.released

theorem Consistent.cancel (h : Consistent d) (ts : List TaskId) : Consistent (d.cancel ts) := by
  refine h.restage fun {t x} _ => ?_
  split
  · exact Steady.cancel _
  · exact Steady.refl _

theorem Consistent.setStage {t : TaskId} {stage : Stage} (h : Consistent d)
    (hs : ∀ x, d.tasks[t]? = some x → Steady x.stage stage) : Consistent (d.setStage t stage) := by
  refine h.restage fun {i x} hx => ?_
  by_cases hi : i = t
  · subst hi
    simpa using hs x hx
  · simpa [hi] using Steady.refl _

/-- A coroutine that no task has and that was neither started nor closed. -/
structure Unused (d : ExecutionJobDispatcher) (c : CoroutineId) : Prop where
  dispatched : c < d.dispatched
  notSpent : c ∉ d.started ++ d.closed
  notHeld : ∀ {t : TaskId} {x : LocalTask}, d.tasks[t]? = some x → x.coroutine ≠ c

theorem Unused.restage {f : TaskId → Stage → Stage} {c : CoroutineId} (h : Unused d c) :
    Unused (d.restage f) c where
  dispatched := h.dispatched
  notSpent := h.notSpent
  notHeld ht := by
    obtain ⟨x, hx, rfl⟩ := tasks_restage_eq_some.mp ht
    exact h.notHeld (x := x) hx

/-- The next `dispatch` call brings an unused coroutine. -/
theorem Consistent.bump (h : Consistent d) :
    Consistent { d with dispatched := d.dispatched + 1 } ∧
      Unused { d with dispatched := d.dispatched + 1 } d.dispatched := by
  refine ⟨{ h with
    fresh := fun hx => Nat.lt_succ_of_lt (h.fresh hx)
    used := fun c hc => Nat.lt_succ_of_lt (h.used c hc) }, Nat.lt_succ_self _, ?_, ?_⟩
  · exact fun hc => lt_irrefl _ (h.used _ hc)
  · exact fun hx heq => lt_irrefl _ (heq ▸ h.fresh hx)

theorem Consistent.close {c : CoroutineId} (h : Consistent d) (hlt : c < d.dispatched)
    (hc : c ∉ d.started ++ d.closed)
    (hspent : ∀ {t : TaskId} {x : LocalTask}, d.tasks[t]? = some x → x.coroutine = c →
      x.stage.spent = true) :
    Consistent (d.close c) where
  named := h.named
  table := h.table
  begun := h.begun
  waited := h.waited
  spent hx hmem := by
    simp only [ExecutionJobDispatcher.close, ← List.append_assoc] at hmem
    rcases List.mem_append.mp hmem with hmem | hmem
    · exact h.spent hx hmem
    · exact hspent hx (List.mem_singleton.mp hmem)
  fresh := h.fresh
  used c' hmem := by
    simp only [ExecutionJobDispatcher.close, ← List.append_assoc] at hmem
    rcases List.mem_append.mp hmem with hmem | hmem
    · exact h.used c' hmem
    · exact List.mem_singleton.mp hmem ▸ hlt
  distinct := h.distinct
  once := by
    simp only [ExecutionJobDispatcher.close, ← List.append_assoc]
    exact List.nodup_append.mpr ⟨h.once, List.nodup_singleton c, fun a ha b hb heq =>
      hc (List.mem_singleton.mp hb ▸ heq ▸ ha)⟩
  idle := h.idle
  released := h.released

theorem lookup_track {x : LocalTask} {e : UUID} :
    (d.track x).jobs.lookup e =
      if e = x.executionId then some d.tasks.length else d.jobs.lookup e := by
  split
  · subst e
    exact AList.lookup_insert _
  · exact AList.lookup_insert_ne ‹_›

theorem Consistent.track {x : LocalTask} (h : Consistent d) (hx : Unused d x.coroutine)
    (hs : x.stage = .created false)
    (hn : ∀ p c, x.body = .handoff p c → x.name = .cancellation x.executionId) :
    Consistent (d.track x) where
  named ht hb := by
    rcases tasks_track_eq_some.mp ht with hy | ⟨-, rfl⟩
    · exact h.named hy hb
    · exact hn _ _ hb
  table he := by
    rw [lookup_track] at he
    split at he
    · cases he
      -- The tracked task is the one the table now gives for its Execution.
      exact ⟨x, tasks_track_eq_some.mpr (.inr ⟨rfl, rfl⟩), ‹_ = _›.symm⟩
    · obtain ⟨y, hy, hye⟩ := h.table he
      exact ⟨y, tasks_track_eq_some.mpr (.inl hy), hye⟩
  begun ht hex := by
    rcases tasks_track_eq_some.mp ht with hy | ⟨-, rfl⟩
    · exact h.begun hy hex
    · rw [hs] at hex
      cases hex
  waited ht hb hc := by
    rcases tasks_track_eq_some.mp ht with hy | ⟨-, rfl⟩
    · obtain ⟨z, hz, hdone⟩ := isDone_iff.mp (h.waited hy hb hc)
      exact isDone_iff.mpr ⟨z, tasks_track_eq_some.mpr (.inl hz), hdone⟩
    · -- The coroutine of the new task has not been started, so no hand-off waits in it yet.
      refine absurd (List.mem_append_left _ ?_) hx.notSpent
      have hc : _ ∈ d.started := hc
      simpa [LocalTask.coroutine, hb] using hc
  spent ht hc := by
    rcases tasks_track_eq_some.mp ht with hy | ⟨-, rfl⟩
    · exact h.spent hy hc
    · exact absurd hc hx.notSpent
  fresh ht := by
    rcases tasks_track_eq_some.mp ht with hy | ⟨-, rfl⟩
    · exact h.fresh hy
    · exact hx.dispatched
  used := h.used
  distinct ht ht' heq := by
    rcases tasks_track_eq_some.mp ht with hy | ⟨rfl, rfl⟩ <;>
      rcases tasks_track_eq_some.mp ht' with hy' | ⟨rfl, rfl⟩
    · exact h.distinct hy hy' heq
    · exact absurd heq (hx.notHeld hy)
    · exact absurd heq.symm (hx.notHeld hy')
    · rfl
  once := h.once
  -- The table is not empty, so the idle flag is down.
  idle := by simp [ExecutionJobDispatcher.track, activeJobCount, AList.insert]
  released := nofun

theorem mem_entered {c c' : CoroutineId} :
    c' ∈ d.started ++ [c] ++ d.closed ↔ c' = c ∨ c' ∈ d.started ++ d.closed := by
  simp only [List.mem_append, List.mem_singleton]
  tauto

/-- The coroutine of a task that has not begun, begins. -/
theorem Consistent.enter {t : TaskId} {x : LocalTask} (h : Consistent d)
    (hx : d.tasks[t]? = some x) (hs : x.stage.spent = false)
    (hp : ∀ p c, x.body = .handoff p c → d.isDone p = true) :
    Consistent (d.enter t x.coroutine) := by
  -- Entering a task that is not done leaves every finished task finished.
  have hstill : ∀ {p}, d.isDone p = true → (d.setStage t .executing).isDone p = true := by
    intro p hdone
    refine isDone_restage (fun {y} hy hyd => ?_) hdone
    split
    · subst p
      cases hx.symm.trans hy
      rw [hyd] at hs
      cases hs
    · exact hyd
  -- A task with this coroutine is the one that enters it.
  have hself : ∀ {i y}, d.tasks[i]? = some y → y.coroutine = x.coroutine → i = t ∧ y = x := by
    intro i y hy heq
    obtain rfl := h.distinct hy hx heq
    cases hx.symm.trans hy
    exact ⟨rfl, rfl⟩
  exact {
    named := fun ht hb => by
      obtain ⟨y, hy, rfl⟩ := tasks_restage_eq_some.mp ht
      exact h.named (x := y) hy hb
    table := fun he => by
      obtain ⟨y, hy, hye⟩ := h.table he
      exact ⟨_, tasks_restage_eq_some.mpr ⟨y, hy, rfl⟩, hye⟩
    begun := fun {i _} ht hex => by
      obtain ⟨y, hy, rfl⟩ := tasks_restage_eq_some.mp ht
      -- The entered task has just started its coroutine; any other had started before.
      by_cases hi : i = t
      · subst hi
        cases hx.symm.trans hy
        exact List.mem_append_right _ (List.mem_singleton.mpr rfl)
      · have hex : y.stage = .executing := by simpa [hi] using hex
        exact List.mem_append_left _ (h.begun (x := y) hy hex)
    waited := fun {i p c _} ht hb hc => by
      obtain ⟨y, hy, rfl⟩ := tasks_restage_eq_some.mp ht
      refine hstill ?_
      rcases List.mem_append.mp hc with hc | hc
      · exact h.waited (x := y) hy hb hc
      · -- The coroutine entered now is this task's own, and its predecessor is done.
        have hb : y.body = .handoff p c := hb
        obtain ⟨-, rfl⟩ := hself hy (by
          rw [← List.mem_singleton.mp hc, LocalTask.coroutine, hb])
        exact hp p c hb
    spent := fun {i _} ht hc => by
      obtain ⟨y, hy, rfl⟩ := tasks_restage_eq_some.mp ht
      by_cases hi : i = t
      · simp [hi, Stage.spent]
      · rw [if_neg hi]
        -- A spent coroutine is not the one just entered, for that one is unused.
        rcases mem_entered.mp hc with hc | hc
        · exact absurd (hself hy hc).1 hi
        · exact h.spent hy hc
    fresh := fun ht => by
      obtain ⟨y, hy, rfl⟩ := tasks_restage_eq_some.mp ht
      exact h.fresh (x := y) hy
    used := fun c hc => by
      rcases mem_entered.mp hc with rfl | hc
      · exact h.fresh hx
      · exact h.used c hc
    distinct := fun ht ht' heq => by
      obtain ⟨y, hy, rfl⟩ := tasks_restage_eq_some.mp ht
      obtain ⟨y', hy', rfl⟩ := tasks_restage_eq_some.mp ht'
      exact h.distinct hy hy' heq
    once := by
      have hnodup := List.nodup_cons.mpr ⟨h.notSpent hx hs, h.once⟩
      have happend : (d.started ++ [x.coroutine] ++ d.closed).Nodup := by
        simpa using List.nodup_middle.mpr hnodup
      exact happend
    idle := h.idle
    released := h.released }

theorem Consistent.removeIfCurrent (h : Consistent d) (e : UUID) (t : TaskId) :
    Consistent (d.removeIfCurrent e t) := by
  rw [ExecutionJobDispatcher.removeIfCurrent]
  split
  · have htable : ∀ {e' t'}, (d.jobs.erase e).lookup e' = some t' →
        ∃ x, d.tasks[t']? = some x ∧ x.executionId = e' := by
      intro e' t' he'
      by_cases heq : e' = e
      · subst heq
        rw [AList.lookup_erase] at he'
        cases he'
      · exact h.table ((AList.lookup_erase_ne heq).symm.trans he')
    dsimp only
    split
    · exact { h with table := htable, idle := ⟨fun _ => ‹_›, fun _ => rfl⟩, released := fun _ => rfl }
    · -- An entry is left, and one was there before.
      have hidle : d.idle = false := by
        have hne : d.activeJobCount ≠ 0 := fun h0 => by
          have : d.jobs.entries = [] := List.length_eq_zero_iff.mp h0
          have hl := ‹d.jobs.lookup e = some t›
          simp [AList.lookup, this] at hl
        cases hi : d.idle with
        | false => rfl
        | true => exact absurd (h.idle.mp hi) hne
      exact { h with
        table := htable
        idle := by simpa [hidle] using ‹_›
        released := fun hi => by simp [hidle] at hi }
  · exact h

theorem Consistent.dispatch (h : Consistent d) (e : UUID) (replace : Bool) :
    Consistent (d.dispatch e replace) := by
  obtain ⟨hb, hu⟩ := h.bump
  have hclose := hb.close hu.dispatched hu.notSpent fun hx heq => absurd heq (hu.notHeld hx)
  rw [ExecutionJobDispatcher.dispatch]
  split
  · exact hclose
  · split
    · split
      · split
        · exact hclose
        · exact (hb.cancel _).track hu.restage rfl fun _ _ _ => rfl
      · exact hclose
    · exact hb.track hu rfl nofun

/-- A task that ends without its coroutine closes it. -/
theorem Consistent.discard {t : TaskId} {x : LocalTask} (h : Consistent d)
    (hx : d.tasks[t]? = some x) (hc : x.coroutine ∉ d.started ++ d.closed) :
    Consistent ((d.setStage t .done).close x.coroutine) := by
  refine (h.setStage fun _ _ => Steady.toDone _).close (h.fresh hx) hc fun {i y} hy heq => ?_
  obtain ⟨z, hz, rfl⟩ := tasks_restage_eq_some.mp hy
  obtain rfl := h.distinct hz hx heq
  simp [Stage.spent]

theorem Consistent.start (h : Consistent d) (t : TaskId) : Consistent (d.start t) := by
  rw [ExecutionJobDispatcher.start]
  split
  case h_1 hx => exact h.enter hx rfl nofun
  case h_2 hx => exact h.discard hx (h.notSpent hx rfl)
  case h_3 hx =>
    refine h.setStage fun y hy => ?_
    cases hx.symm.trans hy
    exact ⟨nofun, nofun, nofun⟩
  case h_4 hx => exact h.setStage fun _ _ => Steady.toDone _
  case h_5 => exact h

theorem Consistent.resume (h : Consistent d) (t : TaskId) : Consistent (d.resume t) := by
  rw [ExecutionJobDispatcher.resume]
  split
  case h_1 hx =>
    split
    · split
      · exact h.discard hx (h.notSpent hx rfl)
      · refine h.enter hx rfl fun p c hb => ?_
        cases hb
        assumption
    · exact h
  case h_2 => exact h

theorem Consistent.step (h : Consistent d) (a : Action) : Consistent (d.step a) := by
  cases a with
  | setAccepting accepting => exact { h with }
  | dispatch e replace => exact h.dispatch e replace
  | cancel t => exact h.cancel _
  | cancelAll => exact h.cancel _
  | waitIdle w =>
    rw [ExecutionJobDispatcher.step, waitIdle]
    split
    · exact h
    · exact { h with released := fun hi => absurd hi ‹_› }
  | start t => exact h.start t
  | resume t => exact h.resume t
  | finish t =>
    rw [ExecutionJobDispatcher.step, finish]
    split
    · exact h.setStage fun _ _ => Steady.toDone _
    · exact h
  | callback t =>
    rw [ExecutionJobDispatcher.step, callback]
    split
    · exact h.removeIfCurrent _ _
    · exact h

/-! ### The table holds what may execute -/

/-- The job of `e` is the task `t`, or a hand-off from `t` that has not ended. -/
def Holds (d : ExecutionJobDispatcher) (e : UUID) (t : TaskId) : Prop :=
  d.jobs.lookup e = some t ∨
    ∃ h y c, d.jobs.lookup e = some h ∧ d.tasks[h]? = some y ∧ y.stage ≠ .done ∧
      y.body = .handoff t c

/-- What holds when no replacement was cancelled before its first step. -/
structure Held (d : ExecutionJobDispatcher) : Prop where
  holds : ∀ {t : TaskId} {x : LocalTask}, d.tasks[t]? = some x → x.stage.live = true →
    d.Holds x.executionId t

/-- The first step of `t` ends a hand-off whose replaced task may still execute. -/
def abandons (d : ExecutionJobDispatcher) (t : TaskId) : Bool :=
  match d.tasks[t]? with
  | some ⟨_, _, .handoff previous _, .created true⟩ => d.tasks[previous]?.any (·.stage.live)
  | _ => false

/-- No hand-off is abandoned. -/
def Orderly (d : ExecutionJobDispatcher) : Action → Prop
  | .start t => d.abandons t = false
  | _ => True

instance (d : ExecutionJobDispatcher) (a : Action) : Decidable (d.Orderly a) := by
  cases a <;> simp only [Orderly] <;> infer_instance

theorem Held.restage {f : TaskId → Stage → Stage} (h : Held d)
    (hlive : ∀ {t : TaskId} {x : LocalTask}, d.tasks[t]? = some x →
      (f t x.stage).live = true → x.stage.live = true)
    (hend : ∀ {t p : TaskId} {c : CoroutineId} {y x : LocalTask}, d.tasks[t]? = some y →
      y.body = .handoff p c → y.stage ≠ .done → f t y.stage = .done → d.tasks[p]? = some x →
      x.stage.live = false) :
    Held (d.restage f) := by
  refine ⟨fun {t x} ht hx => ?_⟩
  obtain ⟨x, hxd, rfl⟩ := tasks_restage_eq_some.mp ht
  rcases h.holds hxd (hlive hxd hx) with hl | ⟨i, y, c, hl, hy, hdone, hb⟩
  · exact .inl hl
  · refine .inr ⟨i, _, c, hl, tasks_restage_eq_some.mpr ⟨y, hy, rfl⟩, fun hs => ?_, hb⟩
    have := hend hy hb hdone hs hxd
    rw [hlive hxd hx] at this
    cases this

theorem Held.cancel (h : Held d) (ts : List TaskId) : Held (d.cancel ts) := by
  refine h.restage (fun {t x} _ => ?_) (fun {t _ _ y _} _ _ hdone hs => ?_)
  · split
    · cases x.stage <;> simp [Stage.cancel, Stage.live]
    · exact id
  · split at hs
    · cases hstage : y.stage <;> simp_all [Stage.cancel]
    · exact absurd hs hdone

/-- A task moves on. -/
theorem Held.advance {t : TaskId} {stage : Stage} (h : Held d) (hs : stage ≠ .done)
    (hlive : ∀ x, d.tasks[t]? = some x → x.stage.live = true) : Held (d.setStage t stage) := by
  refine h.restage (fun {i y} hy => ?_) (fun {i _ _ y _} _ _ hdone hend _ => ?_)
  · by_cases hi : i = t
    · subst hi
      exact fun _ => hlive y hy
    · simp [hi]
  · split at hend
    · exact absurd hend hs
    · exact absurd hend hdone

theorem Held.enter {t : TaskId} (h : Held d) (c : CoroutineId)
    (hlive : ∀ x, d.tasks[t]? = some x → x.stage.live = true) : Held (d.enter t c) :=
  ⟨(h.advance (show Stage.executing ≠ .done from nofun) hlive).holds⟩

/-- A task ends; behind a hand-off nothing may be left to execute. -/
theorem Held.end {t : TaskId} (h : Held d) (hend : ∀ p c x y, d.tasks[t]? = some x →
    x.body = .handoff p c → d.tasks[p]? = some y → y.stage.live = false) :
    Held (d.setStage t .done) := by
  refine h.restage (fun {i y} hy => ?_) (fun {i p c y z} hy hb hdone hs hz => ?_)
  · split
    · exact nofun
    · exact id
  · by_cases hi : i = t
    · subst hi
      exact hend p c y z hy hb hz
    · exact absurd (by simpa [hi] using hs) hdone

theorem Held.track {x : LocalTask} (h : Held d) (hs : x.stage ≠ .done)
    (hprev : ∀ {t : TaskId} {y : LocalTask}, d.tasks[t]? = some y → y.stage.live = true →
      y.executionId = x.executionId → ∃ c, x.body = .handoff t c) :
    Held (d.track x) := by
  refine ⟨fun {t y} ht hy => ?_⟩
  rcases tasks_track_eq_some.mp ht with hyd | ⟨rfl, rfl⟩
  · by_cases he : y.executionId = x.executionId
    · obtain ⟨c, hb⟩ := hprev hyd hy he
      refine .inr ⟨_, x, c, ?_, tasks_track_eq_some.mpr (.inr ⟨rfl, rfl⟩), hs, hb⟩
      rw [lookup_track, if_pos he]
    · rcases h.holds hyd hy with hl | ⟨i, z, c, hl, hz, hdone, hb⟩
      · exact .inl (by rw [lookup_track, if_neg he, hl])
      · exact .inr ⟨i, z, c, by rw [lookup_track, if_neg he, hl],
          tasks_track_eq_some.mpr (.inl hz), hdone, hb⟩
  · exact .inl (by rw [lookup_track, if_pos rfl])

theorem lookup_removeIfCurrent {e e' : UUID} {t i : TaskId} (h : d.jobs.lookup e' = some i)
    (hi : i ≠ t) : (d.removeIfCurrent e t).jobs.lookup e' = some i := by
  rw [ExecutionJobDispatcher.removeIfCurrent]
  split
  · have hne : e' ≠ e := by
      rintro rfl
      exact hi (Option.some.inj (h.symm.trans ‹_›))
    have herase : (d.jobs.erase e).lookup e' = some i := (AList.lookup_erase_ne hne).trans h
    dsimp only
    split
    · exact herase
    · exact herase
  · exact h

theorem tasks_removeIfCurrent (e : UUID) (t : TaskId) :
    (d.removeIfCurrent e t).tasks = d.tasks := by
  rw [ExecutionJobDispatcher.removeIfCurrent]
  split
  · dsimp only
    split
    · rfl
    · rfl
  · rfl

theorem Held.removeIfCurrent {t : TaskId} {x : LocalTask} (h : Held d)
    (hx : d.tasks[t]? = some x) (hs : x.stage = .done) (e : UUID) :
    Held (d.removeIfCurrent e t) := by
  refine ⟨fun {i y} hi hy => ?_⟩
  rw [tasks_removeIfCurrent] at hi
  -- What the entry names has not ended, so it is not `t`.
  have hne : ∀ {j : TaskId} {z : LocalTask}, d.tasks[j]? = some z → z.stage ≠ .done → j ≠ t := by
    rintro j z hz hdone rfl
    cases hx.symm.trans hz
    exact hdone hs
  rcases h.holds hi hy with hl | ⟨j, z, c, hl, hz, hdone, hb⟩
  · refine .inl (lookup_removeIfCurrent hl (hne hi fun hd => ?_))
    rw [hd] at hy
    cases hy
  · refine .inr ⟨j, z, c, lookup_removeIfCurrent hl (hne hz hdone), ?_, hdone, hb⟩
    rw [tasks_removeIfCurrent]
    exact hz

/-- The Execution of a hand-off in the table is the table's. -/
theorem Consistent.name_of_lookup {e : UUID} {t p : TaskId} {c : CoroutineId} {x : LocalTask}
    (hd : Consistent d) (ht : d.jobs.lookup e = some t) (hx : d.tasks[t]? = some x)
    (hb : x.body = .handoff p c) : x.name = .cancellation e := by
  obtain ⟨y, hy, rfl⟩ := hd.table ht
  cases hx.symm.trans hy
  exact hd.named hx hb

theorem Held.dispatch (h : Held d) (hd : Consistent d) (e : UUID) (replace : Bool) :
    Held (d.dispatch e replace) := by
  have hb : Held { d with dispatched := d.dispatched + 1 } := ⟨h.holds⟩
  rw [ExecutionJobDispatcher.dispatch]
  split
  · exact ⟨h.holds⟩
  · split
    case h_1 t x hcur =>
      obtain ⟨ht, hx, hdone⟩ := current_eq_some.mp hcur
      split
      · split
        · exact ⟨h.holds⟩
        · -- The replaced job is no hand-off, so nothing else of `e` may execute.
          rename_i hname
          refine (hb.cancel [t]).track (by simp) fun {i y} hi hy he => ⟨d.dispatched, ?_⟩
          obtain ⟨z, hz, rfl⟩ := tasks_restage_eq_some.mp hi
          have hlive : z.stage.live = true := by
            split at hy
            · cases hstage : z.stage <;> simp_all [Stage.cancel, Stage.live]
            · exact hy
          have he : z.executionId = e := he
          rcases h.holds hz hlive with hl | ⟨j, w, c, hl, hw, -, hb⟩
          · rw [he] at hl
            rw [Option.some.inj (ht.symm.trans hl)]
          · rw [he] at hl
            exact absurd (hd.name_of_lookup hl hw hb) (by
              cases ht.symm.trans hl
              cases hx.symm.trans hw
              exact hname)
      · exact ⟨h.holds⟩
    case h_2 hcur =>
      refine hb.track (by simp) fun {t x} hx hlive he => ?_
      have he : x.executionId = e := he
      -- Without a current job nothing of `e` may execute.
      rcases h.holds hx hlive with hl | ⟨j, w, c, hl, hw, hdone, -⟩
      · rw [current_eq_none hcur (he ▸ hl) hx] at hlive
        cases hlive
      · exact absurd (current_eq_none hcur (he ▸ hl) hw) hdone

theorem Held.start (h : Held d) {t : TaskId} (ha : d.abandons t = false) : Held (d.start t) := by
  rw [ExecutionJobDispatcher.start]
  split
  case h_1 hx =>
    refine h.enter _ fun y hy => ?_
    cases hx.symm.trans hy
    rfl
  case h_2 hx =>
    refine ⟨(h.end fun p c y z hy hb _ => ?_).holds⟩
    cases hx.symm.trans hy
    cases hb
  case h_3 hx =>
    refine h.advance nofun fun y hy => ?_
    cases hx.symm.trans hy
    rfl
  case h_4 hx =>
    refine h.end fun p c y z hy hb hz => ?_
    cases hx.symm.trans hy
    cases hb
    simpa [abandons, hx, hz] using ha
  case h_5 => exact h

theorem live_of_isDone {t : TaskId} {x : LocalTask} (h : d.isDone t = true)
    (hx : d.tasks[t]? = some x) : x.stage.live = false := by
  obtain ⟨y, hy, hdone⟩ := isDone_iff.mp h
  cases hx.symm.trans hy
  rw [hdone]
  rfl

theorem Held.resume (h : Held d) (t : TaskId) : Held (d.resume t) := by
  rw [ExecutionJobDispatcher.resume]
  split
  case h_1 hx =>
    split
    · split
      · refine ⟨(h.end fun p c y z hy hb hz => ?_).holds⟩
        cases hx.symm.trans hy
        cases hb
        exact live_of_isDone ‹_› hz
      · refine h.enter _ fun y hy => ?_
        cases hx.symm.trans hy
        rfl
    · exact h
  case h_2 => exact h

theorem Consistent.isDone_of_executing {t p : TaskId} {c : CoroutineId} {x : LocalTask}
    (hd : Consistent d) (hx : d.tasks[t]? = some x) (hs : x.stage = .executing)
    (hb : x.body = .handoff p c) : d.isDone p = true := by
  have hc := hd.begun hx hs
  rw [LocalTask.coroutine, hb] at hc
  exact hd.waited hx hb hc

theorem Held.finish (h : Held d) (hd : Consistent d) (t : TaskId) : Held (d.finish t) := by
  rw [ExecutionJobDispatcher.finish]
  split
  case h_1 hx =>
    refine h.end fun p c y z hy hb hz => ?_
    cases hx.symm.trans hy
    exact live_of_isDone (hd.isDone_of_executing hx rfl hb) hz
  case h_2 => exact h

theorem Held.step (h : Held d) (hd : Consistent d) {a : Action} (ha : d.Orderly a) :
    Held (d.step a) := by
  cases a with
  | setAccepting accepting => exact ⟨h.holds⟩
  | dispatch e replace => exact h.dispatch hd e replace
  | cancel t => exact h.cancel _
  | cancelAll => exact h.cancel _
  | waitIdle w =>
    rw [ExecutionJobDispatcher.step, waitIdle]
    split
    · exact h
    · exact ⟨h.holds⟩
  | start t => exact h.start ha
  | resume t => exact h.resume t
  | finish t => exact h.finish hd t
  | callback t =>
    rw [ExecutionJobDispatcher.step, callback]
    split
    · exact h.removeIfCurrent ‹_› rfl _
    · exact h

/-! ### One local job -/

/-- The table's promise, in a state and for the actions taken there. -/
structure OneLocalJob (d : ExecutionJobDispatcher) : Prop where
  one : ∀ (t t' : TaskId) (x x' : LocalTask), d.tasks[t]? = some x → d.tasks[t']? = some x' →
    x.stage = .executing → x'.stage = .executing → x.executionId = x'.executionId → t = t'
  replaced : ∀ (t p : TaskId) (c : CoroutineId) (x : LocalTask), d.tasks[t]? = some x →
    x.body = .handoff p c → c ∈ d.started → d.isDone p = true
  once : d.started.Nodup
  kept : ∀ (t t' : TaskId) (e : UUID), d.jobs.lookup e = some t' → t' ≠ t →
    (d.step (.callback t)).jobs.lookup e = some t'
  idle : d.idle = true ↔ d.activeJobCount = 0
  blocks : ∀ w, w ∉ d.waiting → (w ∈ (d.step (.waitIdle w)).waiting ↔ d.activeJobCount ≠ 0)
  released : d.activeJobCount = 0 → d.waiting = []
  waits : ∀ a w, w ∈ d.waiting → w ∉ (d.step a).waiting → (d.step a).activeJobCount = 0

theorem Consistent.empty : Consistent {} where
  named := nofun
  table := nofun
  begun := nofun
  waited := nofun
  spent := nofun
  fresh := nofun
  used := nofun
  distinct := nofun
  once := List.nodup_nil
  idle := by simp [activeJobCount]
  released := fun _ => rfl

/-- Of two executing tasks of one Execution each is the table's job. -/
theorem Held.one (h : Held d) (hd : Consistent d) {t t' : TaskId} {x x' : LocalTask}
    (hx : d.tasks[t]? = some x) (hx' : d.tasks[t']? = some x') (hs : x.stage = .executing)
    (hs' : x'.stage = .executing) (he : x.executionId = x'.executionId) : t = t' := by
  have hlive : x.stage.live = true := by rw [hs]; rfl
  have hlive' : x'.stage.live = true := by rw [hs']; rfl
  -- A hand-off that executes has nothing live behind it.
  have hbehind : ∀ {i j : TaskId} {y z : LocalTask} {c : CoroutineId}, d.tasks[i]? = some y →
      y.stage = .executing → y.body = .handoff j c → d.tasks[j]? = some z →
      z.stage.live = true → False := by
    intro i j y z c hy hys hb hz hzl
    rw [live_of_isDone (hd.isDone_of_executing hy hys hb) hz] at hzl
    cases hzl
  have hh' := h.holds hx' hlive'
  rw [← he] at hh'
  rcases h.holds hx hlive with hl | ⟨i, y, c, hl, hy, -, hb⟩ <;>
    rcases hh' with hl' | ⟨i', y', c', hl', hy', -, hb'⟩ <;>
    cases hl.symm.trans hl'
  · rfl
  · cases hx.symm.trans hy'
    exact (hbehind hx hs hb' hx' hlive').elim
  · cases hx'.symm.trans hy
    exact (hbehind hx' hs' hb hx hlive).elim
  · cases hy.symm.trans hy'
    cases hb.symm.trans hb'
    rfl

theorem waiting_dispatch (e : UUID) (replace : Bool) :
    (d.dispatch e replace).waiting = d.waiting := by
  rw [ExecutionJobDispatcher.dispatch]
  split
  · rfl
  · split
    · split
      · split
        · rfl
        · rfl
      · rfl
    · rfl

theorem waiting_removeIfCurrent (e : UUID) (t : TaskId) :
    (d.removeIfCurrent e t).waiting = d.waiting ∨
      (d.removeIfCurrent e t).activeJobCount = 0 := by
  rw [ExecutionJobDispatcher.removeIfCurrent]
  split
  · dsimp only
    split
    · exact .inr ‹_›
    · exact .inl rfl
  · exact .inl rfl

/-- A waiter stays unless the table is empty. -/
theorem waiting_step (a : Action) (w : ℕ) (hw : w ∈ d.waiting) :
    w ∈ (d.step a).waiting ∨ (d.step a).activeJobCount = 0 := by
  cases a with
  | setAccepting accepting => exact .inl hw
  | dispatch e replace =>
    rw [ExecutionJobDispatcher.step, waiting_dispatch]
    exact .inl hw
  | cancel t => exact .inl hw
  | cancelAll => exact .inl hw
  | waitIdle w' =>
    rw [ExecutionJobDispatcher.step, waitIdle]
    split
    · exact .inl hw
    · exact .inl (List.mem_append_left _ hw)
  | start t =>
    rw [ExecutionJobDispatcher.step, ExecutionJobDispatcher.start]
    split <;> exact .inl hw
  | resume t =>
    rw [ExecutionJobDispatcher.step, ExecutionJobDispatcher.resume]
    split
    · split
      · split <;> exact .inl hw
      · exact .inl hw
    · exact .inl hw
  | finish t =>
    rw [ExecutionJobDispatcher.step, finish]
    split <;> exact .inl hw
  | callback t =>
    rw [ExecutionJobDispatcher.step, callback]
    split
    · rcases waiting_removeIfCurrent _ t with h | h
      · exact .inl (h.symm ▸ hw)
      · exact .inr h
    · exact .inl hw

theorem lookup_callback {e : UUID} {t t' : TaskId} (h : d.jobs.lookup e = some t')
    (hne : t' ≠ t) : (d.callback t).jobs.lookup e = some t' := by
  rw [callback]
  split
  · exact lookup_removeIfCurrent h hne
  · exact h

theorem Held.oneLocalJob (h : Held d) (hd : Consistent d) : OneLocalJob d where
  one _ _ _ _ hx hx' hs hs' he := h.one hd hx hx' hs hs' he
  replaced _ _ _ _ hx hb hc := hd.waited hx hb hc
  once := (List.nodup_append.mp hd.once).1
  kept _ _ _ hl hne := lookup_callback hl hne
  idle := hd.idle
  blocks w hw := by
    rw [ExecutionJobDispatcher.step, waitIdle, Ne, ← hd.idle]
    split
    · simp [*]
    · simp [*]
  released h0 := hd.released (hd.idle.mpr h0)
  waits a w hw hw' := (waiting_step a w hw).resolve_left hw'

/-- In a run that abandons no hand-off each Execution has one local job. -/
theorem one_local_job (acts : List Action) (h : Transition.Along step Orderly {} acts) :
    OneLocalJob (Transition.run step {} acts) := by
  have hinv : Consistent (Transition.run step {} acts) ∧ Held (Transition.run step {} acts) :=
    Transition.invariant (I := fun d => Consistent d ∧ Held d)
      (fun _ a hd ha => ⟨hd.1.step a, hd.2.step hd.1 ha⟩) ⟨Consistent.empty, ⟨nofun⟩⟩ h
  exact hinv.2.oneLocalJob hinv.1

end ExecutionJobDispatcher

namespace Small

open ExecutionJobDispatcher

/-- A run is replaced, and the hand-off is cancelled while it waits for the run. -/
def replacedRun : List Action :=
  [.setAccepting true, .dispatch 1 false, .start 0, .dispatch 1 true, .start 1, .cancelAll,
    .waitIdle 0, .finish 0, .callback 0, .resume 1, .callback 1]

theorem one_local_job_replaced : OneLocalJob (Transition.run step {} replacedRun) :=
  one_local_job replacedRun (by decide)

/-- The hand-off is cancelled before its first step, and the run goes on beside the next
cancellation. -/
def abandonedRun : List Action :=
  [.setAccepting true, .dispatch 1 false, .start 0, .dispatch 1 true, .cancelAll, .start 1,
    .callback 1, .dispatch 1 true, .start 2]

theorem two_local_jobs : ¬ ∀ acts, OneLocalJob (Transition.run step {} acts) := by
  intro h
  have hone := (h abandonedRun).one 0 2 _ _ rfl rfl (by decide) (by decide) (by decide)
  cases hone

end Small

end ExecutorService
