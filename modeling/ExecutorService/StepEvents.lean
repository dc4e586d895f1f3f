/-
What the events of an Execution tell of its Steps.

The event log is written by whoever moves a Step: its run, the run that takes it over, the
end of a run, the recovery of a lease, a cancellation.  Whoever it is, the log tells of each
Step attempt that it started and then how it ended, of each release before it is followed,
and of each end of the Execution once.

* `EventSubject.Due` — what has to be in the log before an event is written;
* `Told` — the log is lawful, and tells the story of each Step attempt;
* `step_events_lawful`, `step_starts_once`, `end_announced_once` — of every reachable state
  of a deployment.
-/
import ExecutorService.DeploymentRuns
import ExecutorService.Traces

namespace ExecutorService

/-- The start or the end of a Step under an Attempt. -/
def EventSubject.isStepOf (stepId attemptId : UUID) : EventSubject → Bool
  | .stepStarted s a => s == stepId && a == attemptId
  | .stepCompleted _ s a => s == stepId && a == attemptId
  | _ => false

/-- The event announces the start of a Step. -/
def EventSubject.startsStep (stepId : UUID) : EventSubject → Bool
  | .stepStarted s _ => s == stepId
  | _ => false

/-- The end of the Execution. -/
def EventSubject.isEnd : EventSubject → Bool
  | .completed _ => true
  | _ => false

/-- An end that a retry may follow. -/
def EventSubject.isRetryableEnd (mode : OperationMode) (e : EventSubject) : Bool :=
  e.isEnd && mode == .single

/-- The events since the last retry could be requested. -/
def recent (mode : OperationMode) (trail : List EventSubject) : List EventSubject :=
  Trace.since (EventSubject.isRetryableEnd mode) trail

/-- What is in the log when an event is written. -/
def EventSubject.Due (mode : OperationMode) (before : List EventSubject) : EventSubject → Prop
  | .stepStarted s a => before.filter (·.isStepOf s a) = [] ∧
    ∀ e ∈ recent mode before, e.startsStep s = false
  | .stepCompleted _ s a => before.filter (·.isStepOf s a) = [.stepStarted s a]
  | .stepHandoverStarted s a => before.filter (·.isStepOf s a) = [.stepStarted s a]
  | .stepHandoverCompleted s a => Unfollowed before s a
  | .completed _ => ∀ s a, before.filter (·.isStepOf s a) ≠ [.stepStarted s a]
  | _ => True

/-- What the log tells of a Step attempt. -/
def StepAttemptShape.story (h : StepAttemptShape) : List EventSubject :=
  .stepStarted h.stepId h.attemptId ::
    if h.status = .running then [] else [.stepCompleted h.status h.stepId h.attemptId]

/-- The trail tells the story of every Step attempt. -/
structure Told (c : Shape) (trail : List EventSubject) : Prop where
  lawful : Trace.Lawful (EventSubject.Due c.mode) trail
  story : ∀ h ∈ c.stepAttempts, trail.filter (·.isStepOf h.stepId h.attemptId) = h.story
  /-- It tells of no other Step attempt. -/
  known : ∀ e ∈ trail, ∀ stepId attemptId, e.isStepOf stepId attemptId = true →
    ∃ h ∈ c.stepAttempts, h.stepId = stepId ∧ h.attemptId = attemptId
  /-- A PENDING Step has not started since it could be reset. -/
  pending : ∀ s ∈ c.steps, s.status = .pending →
    ∀ e ∈ recent c.mode trail, e.startsStep s.id = false
  rested : c.mode = .single → c.status.isTerminal = true →
    ∀ e ∈ recent c.mode trail, ∀ stepId, e.startsStep stepId = false

/-! ### Moves -/

section

variable {c c' : Shape} {trail : List EventSubject}

theorem recent_concat (mode : OperationMode) (e : EventSubject) :
    recent mode (trail ++ [e]) =
      if e.isRetryableEnd mode then [] else recent mode trail ++ [e] :=
  Trace.since_concat trail e

/-- At most one Step attempt is running. -/
theorem Shape.Sound.running_cases (h : c.Sound) : c.running = [] ∨ ∃ x, c.running = [x] := by
  have hnodup : c.running.Nodup := (List.Nodup.of_map _ h.keyed.stepAttemptKeys).filter _
  have hsame : ∀ x ∈ c.running, ∀ y ∈ c.running, x = y := by
    intro x hx y hy
    obtain ⟨hx, hxrun⟩ := List.mem_filter.mp hx
    obtain ⟨hy, hyrun⟩ := List.mem_filter.mp hy
    rw [beq_iff_eq] at hxrun hyrun
    obtain ⟨hxa, s, hs, _, hsx, hsrun⟩ := h.statuses.runningStepAttempt x hx hxrun
    obtain ⟨hya, s', hs', _, hsy, hsrun'⟩ := h.statuses.runningStepAttempt y hy hyrun
    have hattempt := congrArg Prod.fst (h.statuses.liveAttempt _ hxa _ hya rfl rfl)
    have hstep := h.statuses.runningStep s hs s' hs' hsrun hsrun'
    refine List.inj_on_of_nodup_map h.keyed.stepAttemptKeys hx hy ?_
    rw [Prod.mk.injEq, ← hsx, ← hsy, hstep]
    exact ⟨hattempt, rfl⟩
  cases hrunning : c.running with
  | nil => exact .inl rfl
  | cons x rest =>
    refine .inr ⟨x, ?_⟩
    rw [hrunning] at hnodup hsame
    cases rest with
    | nil => rfl
    | cons y rest =>
      have heq := hsame x List.mem_cons_self y (List.mem_cons_of_mem _ List.mem_cons_self)
      exact absurd (heq ▸ List.mem_cons_self) (List.nodup_cons.mp hnodup).1

/-- A Step attempt is found by its Step and its Attempt. -/
theorem ShapeRows.Keyed.stepAttempt_of_ids {c : ShapeRows} (h : c.Keyed) {x y : StepAttemptShape}
    (hx : x ∈ c.stepAttempts) (hy : y ∈ c.stepAttempts) (hstep : x.stepId = y.stepId)
    (hattempt : x.attemptId = y.attemptId) : x = y := by
  obtain ⟨⟨s, hs, hsid, hsx⟩, _⟩ := h.attempted x hx
  obtain ⟨⟨s', hs', hsid', hsy⟩, _⟩ := h.attempted y hy
  have heq := h.step_of_id hs hs' (hsid.trans (hstep.trans hsid'.symm))
  refine List.inj_on_of_nodup_map h.stepAttemptKeys hx hy ?_
  rw [Prod.mk.injEq, ← hsx, ← hsy, heq]
  exact ⟨hattempt, rfl⟩

theorem StepAttemptShape.story_running {h : StepAttemptShape} (hrunning : h.status = .running) :
    h.story = [.stepStarted h.stepId h.attemptId] := by
  rw [story, if_pos hrunning]

namespace Told

/-- A move of other rows, or of Steps that were PENDING. -/
theorem rows (h : Told c trail) (hmode : c'.mode = c.mode) (hattempts : c'.stepAttempts = c.stepAttempts)
    (hpending : ∀ s ∈ c'.steps, s.status = .pending →
      (∃ s₀ ∈ c.steps, s₀.id = s.id ∧ s₀.status = .pending) ∨
        ∀ e ∈ recent c.mode trail, e.startsStep s.id = false)
    (hrested : c'.status.isTerminal = true → c.status.isTerminal = true) :
    Told c' (trail ++ []) := by
  rw [List.append_nil]
  refine ⟨hmode ▸ h.lawful, hattempts ▸ h.story, hattempts ▸ h.known, fun s hs hstatus => ?_,
    fun hsingle hterminal => ?_⟩
  swap
  · rw [hmode] at hsingle ⊢
    exact h.rested hsingle (hrested hterminal)
  rw [hmode]
  rcases hpending s hs hstatus with ⟨s₀, hs₀, hid, hstatus₀⟩ | hnone
  · rw [← hid]
    exact h.pending s₀ hs₀ hstatus₀
  · exact hnone

/-- An event that is neither the start nor the end of a Step attempt. -/
theorem report (h : Told c trail) {e : EventSubject} (hdue : e.Due c.mode trail)
    (hstep : ∀ stepId attemptId, e.isStepOf stepId attemptId = false)
    (hstart : ∀ stepId, e.startsStep stepId = false) : Told c (trail ++ [e]) := by
  have hrecent : ∀ x ∈ recent c.mode (trail ++ [e]), ∀ stepId, x.startsStep stepId = true →
      x ∈ recent c.mode trail := by
    intro x hx stepId hstarts
    rw [recent_concat] at hx
    split at hx
    · cases hx
    · rcases List.mem_append.mp hx with hx | hx
      · exact hx
      · rw [List.mem_singleton.mp hx, hstart stepId] at hstarts
        cases hstarts
  refine ⟨Trace.lawful_concat.mpr ⟨h.lawful, hdue⟩, fun x hx => ?_, fun x hx => ?_,
    fun s hs hstatus x hx => ?_, fun hsingle hterminal x hx stepId => ?_⟩
  · rw [List.filter_append, List.filter_singleton, hstep]
    exact (List.append_nil _).trans (h.story x hx)
  · intro stepId attemptId hof
    rcases List.mem_append.mp hx with hx | hx
    · exact h.known x hx stepId attemptId hof
    · rw [List.mem_singleton.mp hx, hstep] at hof
      cases hof
  · by_contra hstarts
    rw [Bool.not_eq_false] at hstarts
    rw [h.pending s hs hstatus x (hrecent x hx _ hstarts)] at hstarts
    cases hstarts
  · by_contra hstarts
    rw [Bool.not_eq_false] at hstarts
    rw [h.rested hsingle hterminal x (hrecent x hx _ hstarts) stepId] at hstarts
    cases hstarts

/-- Where no Step attempt is running the log is settled. -/
theorem settled (h : Told c trail) (hnone : ∀ x ∈ c.stepAttempts, x.status ≠ .running)
    (status : ExecutionStatus) : (EventSubject.completed status).Due c.mode trail := by
  intro stepId attemptId hfilter
  have hmem : EventSubject.stepStarted stepId attemptId ∈
      trail.filter (·.isStepOf stepId attemptId) := by
    rw [hfilter]
    exact List.mem_singleton_self _
  obtain ⟨hmem, hof⟩ := List.mem_filter.mp hmem
  obtain ⟨x, hx, rfl, rfl⟩ := h.known _ hmem stepId attemptId hof
  have hstory := (h.story x hx).symm.trans hfilter
  rw [StepAttemptShape.story, if_neg (hnone x hx)] at hstory
  cases hstory

/-- A Step starts under an Attempt that has not run it. -/
theorem start (h : Told c trail) (hs : c.Sound) (hopen : c.status.isTerminal = false)
    {s : StepShape} {attemptId : UUID} (hmem : s ∈ c.steps) (hpending : s.status = .pending)
    (hattempt : (attemptId, .running) ∈ c.attempts) :
    Told { c with toShapeRows := c.started s attemptId } (trail ++ [.stepStarted s.id attemptId]) := by
  have hfresh : ∀ x ∈ c.stepAttempts, ¬ (x.stepId = s.id ∧ x.attemptId = attemptId) := by
    rintro x hx ⟨hstep, rfl⟩
    have hdead := hs.statuses.unattempted s hmem hpending x hx hstep _ hattempt rfl
    cases hdead
  have hnone : trail.filter (·.isStepOf s.id attemptId) = [] := by
    refine List.filter_eq_nil_iff.mpr fun e he hof => ?_
    obtain ⟨x, hx, hkey⟩ := h.known e he s.id attemptId hof
    exact hfresh x hx hkey
  refine ⟨Trace.lawful_concat.mpr ⟨h.lawful, hnone, h.pending s hmem hpending⟩, fun x hx => ?_,
    fun e he stepId attemptId' hof => ?_, fun s' hs' hstatus e he => ?_,
    fun _ hterminal => absurd (hopen.symm.trans hterminal) (by decide)⟩
  · rw [List.filter_append, List.filter_singleton]
    rcases List.mem_append.mp hx with hx | hx
    · have hother : (EventSubject.stepStarted s.id attemptId).isStepOf x.stepId x.attemptId = false := by
        have hne := hfresh x hx
        rw [EventSubject.isStepOf, Bool.and_eq_false_iff, beq_eq_false_iff_ne, beq_eq_false_iff_ne]
        by_cases hstep : s.id = x.stepId
        · exact .inr fun heq => hne ⟨hstep.symm, heq.symm⟩
        · exact .inl hstep
      rw [hother]
      exact (List.append_nil _).trans (h.story x hx)
    · rw [List.mem_singleton.mp hx, hnone]
      simp [EventSubject.isStepOf, StepAttemptShape.story]
  · rcases List.mem_append.mp he with he | he
    · obtain ⟨x, hx, hkey⟩ := h.known e he stepId attemptId' hof
      exact ⟨x, List.mem_append_left _ hx, hkey⟩
    · rw [List.mem_singleton.mp he, EventSubject.isStepOf, Bool.and_eq_true, beq_iff_eq,
        beq_iff_eq] at hof
      exact ⟨_, List.mem_append_right _ (List.mem_singleton_self _), hof⟩
  · rcases ShapeRows.mem_withStep hs' with ⟨_, _, _, rfl⟩ | ⟨hs', hne⟩
    · cases hstatus
    · rw [recent_concat] at he
      rcases List.mem_append.mp he with he | he
      · exact h.pending s' hs' hstatus e he
      · rw [List.mem_singleton.mp he, EventSubject.startsStep, beq_eq_false_iff_ne]
        intro hid
        exact hne (hs.keyed.step_of_id hmem hs' hid ▸ rfl)

/-- A running Step attempt ends. -/
theorem finish (h : Told c trail) (hs : c.Sound) {x : StepAttemptShape} {status : StepStatus}
    (hx : x ∈ c.stepAttempts) (hrunning : x.status = .running) (hended : status.isOpen = false)
    (hmode : c'.mode = c.mode)
    (hrows : ∀ y ∈ c'.stepAttempts, y = { x with status } ∨ y ∈ c.stepAttempts ∧ y ≠ x)
    (hkept : ∀ y ∈ c.stepAttempts, ∃ y' ∈ c'.stepAttempts, y'.stepId = y.stepId ∧
      y'.attemptId = y.attemptId)
    (hpending : ∀ s ∈ c'.steps, s.status = .pending → s ∈ c.steps)
    (hrested : c'.status.isTerminal = true → c.status.isTerminal = true) :
    Told c' (trail ++ [.stepCompleted status x.stepId x.attemptId]) := by
  -- The Attempt has started and has not ended.
  have hstarted : trail.filter (·.isStepOf x.stepId x.attemptId) =
      [.stepStarted x.stepId x.attemptId] := by
    rw [h.story x hx, StepAttemptShape.story_running hrunning]
  -- What is recent has grown by the one completion, which starts no Step.
  have hrecent : ∀ e ∈ recent c.mode (trail ++ [.stepCompleted status x.stepId x.attemptId]),
      e ∈ recent c.mode trail ∨ e = .stepCompleted status x.stepId x.attemptId := by
    intro e he
    rw [recent_concat] at he
    exact (List.mem_append.mp he).imp_right List.mem_singleton.mp
  rw [← hmode] at hrecent
  refine ⟨Trace.lawful_concat.mpr ⟨hmode ▸ h.lawful, hstarted⟩, fun y hy => ?_,
    fun e he stepId attemptId hof => ?_, fun s hs' hstatus e he => ?_,
    fun hsingle hterminal e he stepId => ?_⟩
  · rw [List.filter_append, List.filter_singleton]
    -- The finished Attempt has its whole story; no other one gains an event.
    rcases hrows y hy with rfl | ⟨hy, hne⟩
    · rw [hstarted, StepAttemptShape.story, if_neg (StepStatus.ne_running hended)]
      simp [EventSubject.isStepOf]
    · have hother : (EventSubject.stepCompleted status x.stepId x.attemptId).isStepOf y.stepId
          y.attemptId = false := by
        rw [EventSubject.isStepOf, Bool.and_eq_false_iff, beq_eq_false_iff_ne, beq_eq_false_iff_ne]
        by_cases hstep : x.stepId = y.stepId
        · exact .inr fun heq => hne (hs.keyed.stepAttempt_of_ids hy hx hstep.symm heq.symm)
        · exact .inl hstep
      rw [hother]
      exact (List.append_nil _).trans (h.story y hy)
  · -- The completion names an Attempt that is known.
    have hkey : ∃ y ∈ c.stepAttempts, y.stepId = stepId ∧ y.attemptId = attemptId := by
      rcases List.mem_append.mp he with he | he
      · exact h.known e he stepId attemptId hof
      · rw [List.mem_singleton.mp he, EventSubject.isStepOf, Bool.and_eq_true, beq_iff_eq,
          beq_iff_eq] at hof
        exact ⟨x, hx, hof⟩
    obtain ⟨y, hy, rfl, rfl⟩ := hkey
    exact hkept y hy
  · rcases hrecent e he with he | rfl
    · rw [hmode] at he
      exact h.pending s (hpending s hs' hstatus) hstatus e he
    · rfl
  · rcases hrecent e he with he | rfl
    · rw [hmode] at hsingle he
      exact h.rested hsingle (hrested hterminal) e he stepId
    · rfl

/-- The Execution ends when nothing is open or running. -/
theorem complete (h : Told c trail) (hnone : ∀ x ∈ c.stepAttempts, x.status ≠ .running)
    (hmode : c'.mode = c.mode) (hopen : c'.NoneOpen) (hattempts : c'.stepAttempts = c.stepAttempts)
    (status : ExecutionStatus) : Told c' (trail ++ [.completed status]) := by
  have hreport := h.report (h.settled hnone status) (fun _ _ => rfl) fun _ => rfl
  refine ⟨hmode ▸ hreport.lawful, hattempts ▸ hreport.story, hattempts ▸ hreport.known,
    fun s hs hstatus => absurd hstatus (StepStatus.ne_pending (hopen s hs)), fun hsingle _ e he => ?_⟩
  rw [hsingle, recent_concat] at he
  cases he

end Told

/-- The rows after an end of the Execution. -/
theorem closed_noneOpen {stepEnd : StepStatus} (hstep : stepEnd.isOpen = false)
    (attemptEnd : AttemptStatus) (c : ShapeRows) : (c.closed stepEnd attemptEnd).NoneOpen := by
  intro s hs
  obtain ⟨s, _, rfl⟩ := List.mem_map.mp hs
  rw [StepShape.closed]
  cases s.status <;> first | rfl | exact hstep

theorem closed_none_running {stepEnd : StepStatus} (hstep : stepEnd.isOpen = false)
    (attemptEnd : AttemptStatus) (c : ShapeRows) :
    ∀ x ∈ (c.closed stepEnd attemptEnd).stepAttempts, x.status ≠ .running := by
  intro x hx
  obtain ⟨x, _, rfl⟩ := List.mem_map.mp hx
  rw [StepAttemptShape.closed]
  split
  · exact StepStatus.ne_running hstep
  · assumption

/-- A move writes only events that are due, and tells of what it does. -/
theorem ShapeMove.told {events : List EventSubject} (h : ShapeMove trail c events c')
    (hs : c.Sound) (ht : Told c trail) : Told c' (trail ++ events) := by
  have hsame : ∀ s ∈ c.steps, s.status = .pending →
      (∃ s₀ ∈ c.steps, s₀.id = s.id ∧ s₀.status = .pending) ∨
        ∀ e ∈ recent c.mode trail, e.startsStep s.id = false :=
    fun s hs hstatus => .inl ⟨s, hs, rfl, hstatus⟩
  -- Which events the move reports, and which Steps are still to be started after it.
  cases h with
  | stay => exact ht.rows rfl rfl hsame id
  | requestCancel => exact ht.rows rfl rfl hsame fun h => by cases h
  | finalizing => exact ht.rows rfl rfl hsame fun h => by cases h
  -- A retry opens a new window, in which nothing has started.
  | retry before single =>
    refine ht.rows rfl rfl (fun s _ _ => .inr fun e he => ?_) fun h => by cases h
    exact ht.rested single (by rw [before]; rfl) e he s.id
  | @operation id steps before fresh added ids sequences =>
    refine ht.rows rfl rfl (fun s hmem hstatus => ?_) fun h => by cases h
    rcases List.mem_append.mp hmem with hmem | hmem
    · exact .inl ⟨s, hmem, rfl, hstatus⟩
    · -- A start would have been of a Step there is.
      refine .inr fun e he => ?_
      by_contra hstarts
      rw [Bool.not_eq_false] at hstarts
      cases e <;> simp only [EventSubject.startsStep, beq_iff_eq, Bool.false_eq_true] at hstarts
      rename_i stepId attemptId
      obtain ⟨x, hx, hxstep, _⟩ := ht.known _ (Trace.mem_of_since he) stepId attemptId
        (by simp [EventSubject.isStepOf])
      obtain ⟨⟨s₀, hs₀, hid, _⟩, _⟩ := hs.keyed.attempted x hx
      have heq := List.inj_on_of_nodup_map ids (List.mem_append_left _ hs₀)
        (List.mem_append_right _ hmem) (hid.trans (hxstep.trans hstarts))
      exact fresh ((added s hmem).1 ▸ heq ▸ hs.columns.owned s₀ hs₀)
  | resume => exact ht.rows rfl rfl hsame fun h => by cases h
  | attempt => exact ht.rows rfl rfl hsame fun h => by cases h
  | takeOver => exact ht.rows rfl rfl hsame id
  | session => exact ht.rows rfl rfl hsame id
  | abort => exact ht.rows rfl rfl hsame id
  | @skip p before idle =>
    refine ht.rows rfl rfl (fun s hmem hstatus => ?_) id
    rcases List.mem_updateWhere.mp hmem with ⟨_, _, _, rfl⟩ | ⟨hmem, _⟩
    · cases hstatus
    · exact .inl ⟨s, hmem, rfl, hstatus⟩
  | complete => exact ht.rows rfl rfl hsame fun h => by cases h
  | defer => exact ht.rows rfl rfl hsame fun h => by cases h
  | settle before => exact ht.rows rfl rfl hsame id
  -- A hand-over reports no end.
  | @handOver x mem running aborting =>
    have hreport := ht.report (e := .stepHandoverStarted x.stepId x.attemptId)
      ((ht.story x mem).trans (StepAttemptShape.story_running running)) (fun _ _ => rfl) fun _ => rfl
    rw [← List.append_nil (trail ++ _)]
    exact hreport.rows rfl rfl (fun s hs hstatus => .inl ⟨s, hs, rfl, hstatus⟩) id
  | handoverCompleted released mem unfollowed =>
    exact ht.report unfollowed (fun _ _ => rfl) fun _ => rfl
  | start before released attempt mem active at_ =>
    exact ht.start hs (by rw [before]; rfl) mem (at_.pending mem active) attempt
  | @finish x status before mem running ended =>
    refine ht.finish hs mem running ended rfl (fun y hy => ?_) (fun y hy => ?_)
      (fun s hmem hstatus => ?_) id
    · rcases List.mem_updateWhere.mp hy with ⟨z, hz, hkey, rfl⟩ | ⟨hy, hkey⟩
      · simp only [Bool.and_eq_true, beq_iff_eq] at hkey
        have heq := List.inj_on_of_nodup_map hs.keyed.stepAttemptKeys hz mem (Prod.ext hkey.1 hkey.2)
        exact .inl (by rw [heq])
      · refine .inr ⟨hy, ?_⟩
        rintro rfl
        simp at hkey
    · obtain ⟨y', hy', hattempt, hstep, _⟩ :=
        (ShapeRows.sameKeys_finished x status c.toShapeRows).symm.stepAttempt hy
      exact ⟨y', hy', hstep, hattempt⟩
    · rcases ShapeRows.mem_withStep hmem with ⟨_, _, _, rfl⟩ | ⟨hmem, _⟩
      · exact absurd hstatus (StepStatus.ne_pending ended)
      · exact hmem
  -- Closing: at most one Step runs, and it is reported before the Operation ends.
  | @close status stepEnd attemptEnd session aborting strategy retryFrom before terminal step skipped
      attempt released multi kept =>
    have hnone := closed_none_running step attemptEnd c.toShapeRows
    have hopen := closed_noneOpen step attemptEnd c.toShapeRows
    rcases hs.running_cases with hnil | ⟨x, hone⟩
    · have hidle : ∀ x ∈ c.stepAttempts, x.status ≠ .running := by
        intro x hx hrunning
        have hmem : x ∈ c.running := List.mem_filter.mpr ⟨hx, by simpa using hrunning⟩
        rw [hnil] at hmem
        cases hmem
      rw [hnil]
      refine ht.complete hidle ?_ hopen ?_ status
      · rfl
      refine (List.map_congr_left fun x hx => ?_).trans (List.map_id _)
      rw [StepAttemptShape.closed, if_neg (hidle x hx)]
      rfl
    · have hrunning : ∀ y ∈ c.stepAttempts, y.status = .running ↔ y = x := by
        intro y hy
        have hmem : y ∈ c.running ↔ y = x := by rw [hone, List.mem_singleton]
        rw [← hmem, ShapeRows.running, List.mem_filter, beq_iff_eq]
        exact ⟨fun h => ⟨hy, h⟩, fun h => h.2⟩
      have hx : x ∈ c.stepAttempts :=
        Tables.mem_of_running x (by rw [hone]; exact List.mem_singleton_self x)
      have hfinished : Told { c with toShapeRows := c.closed stepEnd attemptEnd }
          (trail ++ [.stepCompleted stepEnd x.stepId x.attemptId]) := by
        refine ht.finish hs hx ((hrunning x hx).mpr rfl) step rfl (fun y hy => ?_) (fun y hy => ?_)
          (fun s hmem hstatus => absurd hstatus (StepStatus.ne_pending (hopen s hmem))) id
        · obtain ⟨y, hmem, rfl⟩ := List.mem_map.mp hy
          have hyrunning := hrunning y hmem
          by_cases hyrun : y.status = .running
          · rw [hyrunning.mp hyrun, StepAttemptShape.closed, if_pos ((hrunning x hx).mpr rfl)]
            exact .inl rfl
          · rw [StepAttemptShape.closed, if_neg hyrun]
            exact .inr ⟨hmem, fun heq => hyrun (hyrunning.mpr heq)⟩
        · obtain ⟨y', hy', hattempt, hstep, _⟩ :=
            (ShapeRows.sameKeys_closed stepEnd attemptEnd c.toShapeRows).symm.stepAttempt hy
          exact ⟨y', hy', hstep, hattempt⟩
      rw [hone, ← List.append_assoc]
      refine hfinished.complete hnone ?_ ?_ ?_ status
      · rfl
      · exact hopen
      · rfl

/-- A move announces an end exactly when it is one. -/
theorem ShapeMove.ends {events : List EventSubject} (h : ShapeMove trail c events c') :
    events.filter (·.isEnd) =
      if c.status.isTerminal = false ∧ c'.status.isTerminal = true then [.completed c'.status]
      else [] := by
  have hsame : ¬ (c.status.isTerminal = false ∧ c.status.isTerminal = true) :=
    fun h => absurd (h.1.symm.trans h.2) (by decide)
  cases h with
  | close before terminal =>
    have hnone : ∀ l : List StepAttemptShape, ∀ stepEnd : StepStatus,
        (l.map fun h => EventSubject.stepCompleted stepEnd h.stepId h.attemptId).filter (·.isEnd) =
          [] := by
      intro l stepEnd
      refine List.filter_eq_nil_iff.mpr fun e he => ?_
      obtain ⟨_, _, rfl⟩ := List.mem_map.mp he
      exact Bool.false_ne_true
    rw [List.filter_append, hnone, if_pos ⟨before, terminal⟩]
    rfl
  | stay => exact (if_neg hsame).symm
  | handOver => exact (if_neg hsame).symm
  | takeOver => exact (if_neg hsame).symm
  | handoverCompleted => exact (if_neg hsame).symm
  | session => exact (if_neg hsame).symm
  | abort => exact (if_neg hsame).symm
  | start => exact (if_neg hsame).symm
  | finish => exact (if_neg hsame).symm
  | skip => exact (if_neg hsame).symm
  | settle => exact (if_neg hsame).symm
  | _ => exact (if_neg fun h => absurd h.2 Bool.false_ne_true).symm

end

/-! ### Deployments -/

variable {settings : Settings}

theorem submit_stepAttempts {now : Time} {command : SubmitExecutionCommand} {t : Tables}
    (h : submit settings now command = .ok t) : t.stepAttempts = [] := by
  simp only [submit, Txn.bind_ok] at h
  obtain ⟨_, _, _, _, _, _, steps, _, h⟩ := h
  split at h
  · cases h
  · cases h
    rfl

theorem told_start (submission : Submission settings) :
    Told submission.tables.shape submission.history.trail := by
  have hattempts : submission.tables.shape.stepAttempts = [] :=
    congrArg (List.map StepAttemptRow.shape) (submit_stepAttempts submission.accepted)
  have htrail : submission.history.trail = [] := rfl
  rw [htrail]
  refine ⟨Trace.lawful_nil, fun h hh => ?_, fun e he => absurd he List.not_mem_nil,
    fun _ _ _ e he => absurd (Trace.mem_of_since he) List.not_mem_nil,
    fun _ _ e he => absurd (Trace.mem_of_since he) List.not_mem_nil⟩
  rw [hattempts] at hh
  cases hh

theorem told_run (submission : Submission settings) (actions : List Action) :
    Told (Deployment.run settings submission actions).world.tables.shape
      (Deployment.run settings submission actions).world.history.trail :=
  (Deployment.sound_start submission).fact (Q := fun c trail => Told c trail)
    (fun _ _ _ _ hs hmove ht => hmove.told hs ht) (told_start submission) actions

/-- In every reachable state each event was due when it was written, the log tells of every Step
attempt that it started and how it ended, and of no others. -/
theorem step_events_lawful (submission : Submission settings) (actions : List Action) :
    let h := (Deployment.run settings submission actions).world.history
    Trace.Lawful (EventSubject.Due h.rows.tables.execution.operationMode) h.trail ∧
      (∀ x ∈ h.rows.tables.stepAttempts,
        h.trail.filter (·.isStepOf x.executionStepId x.executionAttemptId) = x.shape.story) ∧
      ∀ e ∈ h.trail, ∀ stepId attemptId, e.isStepOf stepId attemptId = true →
        ∃ x ∈ h.rows.tables.stepAttempts,
          x.executionStepId = stepId ∧ x.executionAttemptId = attemptId := by
  intro h
  have htold := told_run submission actions
  refine ⟨htold.lawful, fun x hx => htold.story x.shape (List.mem_map_of_mem hx),
    fun e he stepId attemptId hof => ?_⟩
  obtain ⟨x, hx, hids⟩ := htold.known e he stepId attemptId hof
  obtain ⟨row, hrow, rfl⟩ := List.mem_map.mp hx
  exact ⟨row, hrow, hids⟩

/-- No Step starts twice between two ends of the Execution, and none of a MULTI Execution ever
does: a Step that was released, fenced or cut off is not run again. -/
theorem step_starts_once (submission : Submission settings) (actions : List Action)
    (stepId : UUID) :
    let h := (Deployment.run settings submission actions).world.history
    (∀ events, events <:+: h.trail → (∀ e ∈ events, e.isEnd = false) →
      events.countP (·.startsStep stepId) ≤ 1) ∧
    (h.rows.tables.execution.operationMode = .multi → h.trail.countP (·.startsStep stepId) ≤ 1) := by
  intro h
  have hlawful := (told_run submission actions).lawful
  have honce : ∀ events, events <:+: h.trail →
      (∀ e ∈ events, e.isRetryableEnd h.rows.tables.execution.operationMode = false) →
      events.countP (·.startsStep stepId) ≤ 1 := by
    refine fun events hevents => hlawful.at_most_one (fun before e hdue hstarts x hx => ?_) hevents
    cases e <;> simp only [EventSubject.startsStep, beq_iff_eq, Bool.false_eq_true] at hstarts
    exact hstarts ▸ hdue.2 x hx
  refine ⟨fun events hevents hend => honce events hevents fun e he => ?_, fun hmulti => ?_⟩
  · rw [EventSubject.isRetryableEnd, hend e he, Bool.false_and]
  · refine honce _ (List.infix_refl _) fun e _ => ?_
    rw [EventSubject.isRetryableEnd, hmulti]
    exact Bool.and_false _

/-- An action announces the end of the Execution once, with its status, when it ends it, and
otherwise not at all. -/
theorem end_announced_once (submission : Submission settings) (actions : List Action)
    (action : Action) :
    let s := Deployment.run settings submission actions
    let s' := s.step settings action
    ∃ events, s'.world.history.trail = s.world.history.trail ++ events ∧
      events.filter (·.isEnd) =
        if s.world.tables.execution.status.isTerminal = false ∧
          s'.world.tables.execution.status.isTerminal = true
        then [.completed s'.world.tables.execution.status] else [] := by
  intro s s'
  have hs : s.Sound settings := Deployment.sound_run submission actions
  have hmove : ∃ events, ShapeMove s.world.history.trail s.world.tables.shape events
      s'.world.tables.shape ∧ s'.world.history.trail = s.world.history.trail ++ events := by
    show ∃ events, ShapeMove _ _ events s'.world.history.rows.tables.shape ∧ _
    rcases hs.step_history action with hsame | ⟨tx, honest, hstep⟩
    · have hhistory : s'.world.history = s.world.history := hsame
      rw [hhistory]
      exact ⟨[], .stay, (List.append_nil _).symm⟩
    · have hhistory : s'.world.history = s.world.history.step settings tx := hstep
      rw [hhistory]
      exact History.step_shape hs.history honest.proper
  obtain ⟨events, hmove, htrail⟩ := hmove
  exact ⟨events, htrail, hmove.ends⟩

end ExecutorService
