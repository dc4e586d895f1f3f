/-
The rows of an Execution at any time.

A dozen code paths end an Execution, each with its own updates of Steps, Operations, Attempts,
handover and leases, and any of them may come in between the others.  None of them leaves a
row behind.

* `Tables.Regular` — what holds of the rows of an Execution between any two transactions;
* `Deployment.regular_run` — it holds in every reachable state of a deployment.
-/
import ExecutorService.DeploymentRuns

namespace ExecutorService

/-- Nothing of the Execution is open, held or released. -/
structure Tables.Closed (t : Tables) : Prop where
  steps : ∀ s ∈ t.steps, s.status.isOpen = false
  operations : ∀ o ∈ t.operations, o.status.isTerminal = true
  attempts : ∀ a ∈ t.attempts, a.status.isLive = false
  stepAttempts : ∀ h ∈ t.stepAttempts, h.status ≠ .running
  handover : t.handover = none
  leaseOwner : t.execution.leaseOwner = none
  cancellationLeaseOwner : t.execution.cancellationLeaseOwner = none

/-- What the rows of an Execution have between any two transactions. -/
structure Tables.Regular (t : Tables) : Prop where
  ended : t.execution.status.isTerminal = true → t.Closed
  oneAttempt : ∀ a ∈ t.attempts, ∀ a' ∈ t.attempts, a.status.isLive = true →
    a'.status.isLive = true → a = a'
  oneStep : ∀ s ∈ t.steps, ∀ s' ∈ t.steps, s.status = .running → s'.status = .running → s = s'
  /-- The Steps of an Operation run in order, each after the one before it succeeded. -/
  order : ∀ s ∈ t.steps, s.status = .running → ∀ s' ∈ t.steps, s'.operationId = s.operationId →
    (s'.sequence < s.sequence → s'.status = .succeeded) ∧
      (s.sequence < s'.sequence → s'.status = .pending)
  active : ∀ s ∈ t.steps, s.status.isOpen = true →
    some s.operationId = t.execution.activeOperationId
  /-- A Step runs under the Attempt that is running. -/
  attempted : ∀ s ∈ t.steps, s.status = .running → ∃ h ∈ t.stepAttempts,
    h.executionStepId = s.id ∧ h.status = .running ∧
      ∃ a ∈ t.attempts, a.id = h.executionAttemptId ∧ a.status = .running
  running : t.execution.status = .running → ∃ a ∈ t.attempts, a.status = .running
  /-- A MULTI Execution keeps one Attempt WAITING between its Operations. -/
  waiting : t.execution.status = .waitingForOperation ∨ t.execution.status = .finalizing ∨
      t.execution.status = .queued ∧ t.execution.operationMode = .multi ∧ t.attempts ≠ [] →
    t.execution.operationMode = .multi ∧ ∃ a ∈ t.attempts, a.status = .waiting ∧
      ∀ a' ∈ t.attempts, a'.status.isLive = true → a' = a
  /-- A released Step belongs to no Worker. -/
  handover : t.handover ≠ none → t.execution.status.isRunnable = true ∧
    t.execution.leaseOwner = none ∧ t.execution.cancellationLeaseOwner = none
  leased : t.execution.leaseOwner ≠ none → t.execution.status.isRunnable = true ∧
    t.execution.cancellationLeaseOwner = none

namespace History.Sound

variable {h : History}

theorem closed (hs : h.Sound) (hended : h.rows.tables.execution.status.isTerminal = true) :
    h.rows.tables.Closed := by
  obtain ⟨hopen, hlive⟩ := hs.shape.atStatus.terminal hended
  have hsettled : h.rows.tables.execution.status.isSettled = true := by
    cases hstatus : h.rows.tables.execution.status <;> rw [hstatus] at hended <;> first | rfl | cases hended
  have hunrunnable : h.rows.tables.execution.status.isRunnable ≠ true := by
    cases hstatus : h.rows.tables.execution.status <;> rw [hstatus] at hended <;>
      first | exact Bool.false_ne_true | cases hended
  refine ⟨fun s hmem => hopen s.shape (List.mem_map_of_mem hmem), fun o ho => ?_,
    fun a ha => hlive a.shape (List.mem_map_of_mem ha), fun x hx => ?_, ?_, ?_, ?_⟩
  · exact hs.operations.settled hsettled (o.id, o.status) (List.mem_map_of_mem ho)
  · exact hs.shape.statuses.none_attempted hopen.noneRunning x.shape (List.mem_map_of_mem hx)
  · by_contra hreleased
    refine hunrunnable (hs.fenced.sound.handover ?_)
    exact Option.isSome_iff_ne_none.mpr hreleased
  · by_contra howner
    exact hunrunnable (hs.fenced.sound.owner howner).1
  · by_contra howner
    refine hunrunnable ?_
    have hstatus : h.rows.tables.execution.status = .cancelRequested :=
      (hs.fenced.sound.cancellation howner).1
    rw [hstatus]
    rfl

theorem oneAttempt (hs : h.Sound) : ∀ a ∈ h.rows.tables.attempts, ∀ a' ∈ h.rows.tables.attempts,
    a.status.isLive = true → a'.status.isLive = true → a = a' := by
  intro a ha a' ha' hlive hlive'
  have hsame := hs.shape.statuses.liveAttempt a.shape (List.mem_map_of_mem ha) a'.shape
    (List.mem_map_of_mem ha') hlive hlive'
  have hnodup : (h.rows.tables.attempts.map (·.id)).Nodup := by
    have hids := hs.shape.keyed.attemptIds
    rwa [Tables.shape, List.map_map] at hids
  exact List.inj_on_of_nodup_map hnodup ha ha' (congrArg Prod.fst hsame)

theorem oneStep (hs : h.Sound) : ∀ s ∈ h.rows.tables.steps, ∀ s' ∈ h.rows.tables.steps,
    s.status = .running → s'.status = .running → s = s' := by
  intro s hmem s' hmem' hrunning hrunning'
  have hsame := hs.shape.statuses.runningStep s.shape (List.mem_map_of_mem hmem) s'.shape
    (List.mem_map_of_mem hmem') hrunning hrunning'
  have hnodup : (h.rows.tables.steps.map (·.id)).Nodup := by
    have hids := hs.shape.keyed.stepIds
    rwa [Tables.shape, List.map_map] at hids
  exact List.inj_on_of_nodup_map hnodup hmem hmem' (congrArg StepShape.id hsame)

theorem waiting (hs : h.Sound) (hmode : h.rows.tables.execution.operationMode = .multi)
    (hwaiting : h.rows.tables.shape.SomeWaiting) :
    h.rows.tables.execution.operationMode = .multi ∧ ∃ a ∈ h.rows.tables.attempts,
      a.status = .waiting ∧ ∀ a' ∈ h.rows.tables.attempts, a'.status.isLive = true → a' = a := by
  obtain ⟨x, hx, hstatus⟩ := hwaiting
  obtain ⟨a, ha, rfl⟩ := List.mem_map.mp hx
  have hstatus : a.status = .waiting := hstatus
  refine ⟨hmode, a, ha, hstatus, fun a' ha' hlive => ?_⟩
  exact hs.oneAttempt a' ha' a ha hlive (by rw [hstatus]; rfl)

theorem regular (hs : h.Sound) : h.rows.tables.Regular := by
  have hrows := hs.shape.statuses
  have hstatus := hs.shape.atStatus
  have hlease := hs.fenced.sound
  refine ⟨hs.closed, hs.oneAttempt, hs.oneStep, fun s hmem hrunning s' hmem' hsame => ?_,
    fun s hmem hopen => hrows.openStep s.shape (List.mem_map_of_mem hmem) hopen,
    fun s hmem hrunning => ?_, fun hrunning => ?_, fun hwaiting => ?_, fun hreleased => ?_,
    fun howner => ?_⟩
  · exact hrows.order s.shape (List.mem_map_of_mem hmem) hrunning s'.shape
      (List.mem_map_of_mem hmem') hsame
  · obtain ⟨x, hx, hstep, _, hxrunning⟩ := hrows.attemptOf s.shape (List.mem_map_of_mem hmem) hrunning
    obtain ⟨hattempt, _⟩ := hrows.runningStepAttempt x hx hxrunning
    obtain ⟨row, hrow, rfl⟩ := List.mem_map.mp hx
    obtain ⟨a, ha, hkey⟩ := List.mem_map.mp hattempt
    exact ⟨row, hrow, hstep, hxrunning, a, ha, congrArg Prod.fst hkey, congrArg Prod.snd hkey⟩
  · obtain ⟨x, hx, hxrunning⟩ := hstatus.running hrunning
    obtain ⟨a, ha, rfl⟩ := List.mem_map.mp hx
    exact ⟨a, ha, hxrunning⟩
  · rcases hwaiting with hwaiting | hfinalizing | ⟨hqueued, hmulti, hattempts⟩
    · obtain ⟨hmode, _, hsome, _⟩ := hstatus.waiting (.inl hwaiting)
      exact hs.waiting hmode hsome
    · obtain ⟨hmode, _, hsome, _⟩ := hstatus.waiting (.inr hfinalizing)
      exact hs.waiting hmode hsome
    · rcases (hstatus.queuedMulti hqueued hmulti).2 with ⟨hnone, _⟩ | ⟨_, hsome⟩
      · exact absurd (List.map_eq_nil_iff.mp hnone) hattempts
      · exact hs.waiting hmulti hsome
  · have hhandover : h.rows.tables.leaseColumns.released = true :=
      Option.isSome_iff_ne_none.mpr hreleased
    refine ⟨hlease.handover hhandover, ?_, ?_⟩
    · by_contra howner
      exact absurd ((hlease.owner howner).2.symm.trans hhandover) (by decide)
    · by_contra howner
      exact absurd ((hlease.cancellation howner).2.2.symm.trans hhandover) (by decide)
  · refine ⟨(hlease.owner howner).1, ?_⟩
    by_contra hcancellation
    exact howner (hlease.cancellation hcancellation).2.1

end History.Sound

/-- In every reachable state of a deployment the rows of the Execution are regular. -/
theorem Deployment.regular_run {settings : Settings} (submission : Submission settings)
    (actions : List Action) :
    (Deployment.run settings submission actions).world.tables.Regular :=
  (Deployment.sound_run submission actions).history.regular

end ExecutorService
