/-
A MULTI run is safe.

The run of a MULTI Execution, with what it knows from its claim to its end.  Its Steps are
the PENDING ones of the active Operation, in order, after the one it took over; when a Step
fails the Steps after it are skipped before the Operation ends.

* `Since.todo_multi`, `Since.busy_multi` — the Steps a run starts with;
* `multiSteps_learns` — the loop over the Steps;
* `multi_learns` — the whole run, from what a claim leaves.
-/
import ExecutorService.SingleRuns
import Mathlib.Data.List.Sort

namespace ExecutorService

open Program Job
open Tables (StepRun FinalizeRequest)

section

variable {settings : Settings} {lease : ExecutionLease} {operationId : UUID} {Q : Fact}

/-! ### The end of an Operation -/

theorem failOperation_learns (failureType : FailureType) :
    Learns settings lease (Established .multi (some operationId) ShapeRows.NoneOpen)
      (failOperation lease operationId failureType) (fun _ _ _ => True) (fun _ _ _ => True) :=
  completeOperation_learns (fun c => some c.text) _ rfl fun _ _ h => h

/-- An end of a MULTI run that has failed. -/
theorem multiEnd_learns (failureType : Choice → FailureType) (message : Choice → String)
    (cleanup : RuntimeSessionCleanupStatus) :
    Learns settings lease Q
      (finalizeRun lease fun c => {
        status := .failed
        errorMessage := some (message c)
        failureType := some (failureType c)
        cleanupStatus := cleanup })
      (fun _ _ _ => True) (fun _ _ _ => True) := by
  refine (finalizeRun_learns fun c t trail _ _ => ?_).mono (fun _ _ _ => id) (fun _ _ _ _ => id)
    fun _ _ _ _ _ => trivial
  exact properEnd_of_released rfl (fun h => by cases h) (fun _ => rfl) (fun h => by cases h)
    fun _ => rfl

theorem multiAborted_learns (sessionId : SessionId) (sequence : ℕ) (todo : List ℕ)
    (failureType : FailureType) (stored : StepResultDescriptor) :
    Learns settings lease
      (fun c trail => stored.SealedUnder lease ∧ Established .multi (some operationId)
        (ShapeRows.Busy lease.attemptId sequence todo) c trail)
      (multiAborted lease sessionId operationId sequence failureType stored)
      (fun _ _ _ => True) (fun _ _ _ => True) := by
  refine ((abortStep_learns sessionId failureType stored).mono (fun _ _ _ => id)
    (fun _ _ _ _ => id) fun _ _ _ _ _ => trivial).bind fun resolution => ?_
  refine (skipStepsAfter_learns operationId sequence).bind fun _ => ?_
  refine Learns.after (recordFailureEvidence_quiet sequence) Established.stable (fun _ => ?_)
    fun _ _ _ _ _ _ => trivial
  split
  · exact failOperation_learns failureType
  · exact multiEnd_learns _ _ _

/-! ### Steps -/

/-- The handlers around one Step; those that return end the run. -/
theorem multiStepFailed_learns (l : Locals) (sessionId : SessionId) (sequence : ℕ)
    (todo : List ℕ) (x : Failure) :
    Learns settings lease
      (SealedIn lease (Established .multi (some operationId)
        (ShapeRows.Busy lease.attemptId sequence todo)) x)
      (multiStepFailed lease l sessionId operationId sequence x)
      (fun result c trail => ∀ stored, result = some stored → stored.SealedUnder lease ∧
        Established .multi (some operationId)
          (ShapeRows.Busy lease.attemptId sequence todo) c trail)
      (fun _ _ _ => True) := by
  have hstable : Fact.Stable (Established .multi (some operationId)
      (ShapeRows.Busy lease.attemptId sequence todo)) :=
    Established.stable
  unfold multiStepFailed
  split
  · exact ((Learns.runQuiet (interrupted_quiet sequence) hstable fun _ _ _ _ _ _ => trivial).bind
      fun _ => .raise fun _ _ _ _ => trivial).pre fun _ _ _ h => h.2
  · refine (Learns.run (multiAborted_learns sessionId sequence todo _ _)).bind fun _ => ?_
    exact .ret fun _ _ _ _ stored h => by cases h
  · refine (Learns.run (multiAborted_learns sessionId sequence todo _ _)).bind fun _ => ?_
    exact .ret fun _ _ _ _ stored h => by cases h
  · rename_i stored
    refine (Learns.run ((markFailed_learns sequence todo stored true).mono (fun _ _ _ => id)
      (fun _ _ _ _ => id) fun _ _ _ _ _ => trivial)).bind fun _ => ?_
    refine Learns.bind (M := fun _ _ _ => True) (Learns.run ?_)
      fun _ => .ret fun _ _ _ _ stored h => by cases h
    refine Learns.after releaseJournal_quiet Established.stable (fun _ => ?_)
      fun _ _ _ _ _ _ => trivial
    refine (skipStepsAfter_learns operationId sequence).bind fun _ => ?_
    exact Learns.after (recordFailureEvidence_quiet sequence) Established.stable
      (fun _ => failOperation_learns .toolError) fun _ _ _ _ _ _ => trivial
  · split
    · exact .raise fun _ _ _ _ => trivial
    · rename_i result
      refine (Learns.run ((markFailed_learns sequence todo result false).mono (fun _ _ _ => id)
        (fun _ _ _ _ => id) fun _ _ _ _ _ => trivial)).bind fun _ => ?_
      exact .raise fun _ _ _ _ => trivial
  · exact .raise fun _ _ _ _ => trivial

/-- One Step; when the run goes on, the Steps after it are left. -/
theorem multiStep_learns (l : Locals) (sessionId : SessionId) (run : StepRun) (todo : List ℕ)
    (handover : Option HandoverRow) :
    Learns settings lease
      (Following .multi (some operationId) lease.attemptId run.sequence todo handover)
      (multiStep lease l sessionId operationId run handover)
      (fun next c trail => next ≠ none →
        Established .multi (some operationId) (ShapeRows.Todo todo) c trail)
      (fun _ _ _ => True) := by
  refine Learns.bind (Learns.handle (((executeStep_learns run).bind fun result => ?_))
    fun x => multiStepFailed_learns _ sessionId run.sequence todo x) fun result => ?_
  · refine .ret fun c trail _ h stored hstored => ?_
    cases hstored
    exact h
  · cases result with
    | none => exact .ret fun _ _ _ _ h => absurd rfl h
    | some result =>
      refine (Learns.run ((markSucceeded_learns run.sequence todo result).mono
        (fun _ _ _ h => h result rfl) (fun _ _ _ _ => id) fun _ _ _ _ _ => trivial)).bind
        fun _ => ?_
      exact (Learns.runQuiet (publishSuccess_quiet run.sequence) Established.stable
        fun _ _ _ _ _ _ => trivial).bind fun _ => .ret fun _ _ _ h _ => h

/-- The Steps that are left, each started when the one before it has succeeded. -/
theorem multiSteps_learns (sessionId : SessionId) (pending : List ExecutionStep) (l : Locals) :
    Learns settings lease
      (Established .multi (some operationId) (ShapeRows.Todo (pending.map (·.sequence))))
      (multiSteps lease sessionId operationId l pending none) (fun _ _ _ => True)
      (fun _ _ _ => True) := by
  induction pending generalizing l with
  | nil =>
    exact Learns.run (completeOperation_learns (fun _ => none) none rfl fun h => absurd rfl h)
  | cons step rest ih =>
    refine (Learns.runQuiet (Quiet.external _) Established.stable fun _ _ _ _ _ _ => trivial).bind
      fun _ => ?_
    refine Learns.bind (Learns.run ((startStep_learns step.sequence (rest.map (·.sequence))).mono
      (fun _ _ _ => id) (fun _ _ _ _ => id) fun _ _ _ _ _ => trivial)) fun run => ?_
    refine ((multiStep_learns l sessionId run (rest.map (·.sequence)) none).pre
      fun c trail _ h => ?_).bind fun next => ?_
    · refine ⟨?_, fun h => by cases h⟩
      rw [h.1]
      exact h.2
    · cases next with
      | none => exact .ret fun _ _ _ _ => trivial
      | some l => exact (ih l).pre fun _ _ _ h => h (by simp)

/-- The Step that was taken over, then the Steps that are left. -/
theorem multiSteps_takenOver (sessionId : SessionId) (run : StepRun) (handover : Option HandoverRow)
    (step : ExecutionStep) (rest : List ExecutionStep) (l : Locals) :
    Learns settings lease
      (Following .multi (some operationId) lease.attemptId run.sequence (rest.map (·.sequence))
        handover)
      (multiSteps lease sessionId operationId l (step :: rest) (some (run, handover)))
      (fun _ _ _ => True) (fun _ _ _ => True) := by
  refine (Learns.runQuiet (Quiet.external _) Following.stable fun _ _ _ _ _ _ => trivial).bind
    fun _ => ?_
  refine (multiStep_learns l sessionId run _ handover).bind fun next => ?_
  cases next with
  | none => exact .ret fun _ _ _ _ => trivial
  | some l => exact (multiSteps_learns sessionId rest l).pre fun _ _ _ h => h (by simp)

/-! ### The Steps of an Operation -/

theorem mem_pendingSteps {claimed : Claimed} {takenOver : Option StepRun} {s : ExecutionStep} :
    s ∈ pendingSteps claimed operationId takenOver ↔ s ∈ claimed.steps ∧
      s.operationId = operationId ∧
      (s.status = .pending ∨ ∃ run, takenOver = some run ∧ run.sequence = s.sequence) := by
  rw [pendingSteps, (List.mergeSort_perm _ _).mem_iff, List.mem_filter]
  simp only [Bool.and_eq_true, Bool.or_eq_true, beq_iff_eq, Option.any_eq_true]

theorem pendingSteps_sorted {claimed : Claimed} {takenOver : Option StepRun}
    (hnodup : (claimed.steps.map (·.sequence)).Nodup) :
    ((pendingSteps claimed operationId takenOver).map (·.sequence)).Pairwise (· < ·) := by
  have hsorted : (pendingSteps claimed operationId takenOver).Pairwise fun s s' =>
      decide (s.sequence ≤ s'.sequence) = true := by
    refine List.pairwise_mergeSort (fun a b c hab hbc => ?_) (fun a b => ?_) _
    · simp only [decide_eq_true_eq] at hab hbc ⊢
      exact hab.trans hbc
    · simp only [Bool.or_eq_true, decide_eq_true_eq]
      exact Nat.le_total _ _
  have hdistinct : ((pendingSteps claimed operationId takenOver).map (·.sequence)).Nodup := by
    refine ((List.mergeSort_perm _ _).map _).nodup_iff.mpr ?_
    exact hnodup.sublist (List.filter_sublist.map _)
  rw [List.Nodup, List.pairwise_map] at hdistinct
  rw [List.pairwise_map]
  exact hsorted.imp₂ (fun s s' hle hne => lt_of_le_of_ne (of_decide_eq_true hle) hne) hdistinct

variable {t : Tables} {trail₀ : List EventSubject} {workspacePath notebookPath : String}

/-- The sequences of the Steps a run executes. -/
theorem Since.mem_pending {c : Shape} {trail : List EventSubject} {takenOver : Option StepRun}
    (h : Since t.shape trail₀ c trail) {n : ℕ} :
    n ∈ (pendingSteps (t.claimed workspacePath notebookPath) operationId takenOver).map
        (·.sequence) ↔
      ∃ s ∈ c.steps, s.sequence = n ∧ s.operationId = operationId ∧
        (s.status = .pending ∨ ∃ run, takenOver = some run ∧ run.sequence = n) := by
  rw [List.mem_map, h.1.rows]
  constructor
  · rintro ⟨s, hs, rfl⟩
    obtain ⟨hmem, hoperation, hstatus⟩ := mem_pendingSteps.mp hs
    exact ⟨s.shape, List.mem_map_of_mem hmem, rfl, hoperation, hstatus⟩
  · rintro ⟨s, hs, rfl, hoperation, hstatus⟩
    obtain ⟨step, hmem, rfl⟩ := List.mem_map.mp hs
    exact ⟨step, mem_pendingSteps.mpr ⟨hmem, hoperation, hstatus⟩, rfl⟩

theorem Since.active {c : Shape} {trail : List EventSubject} (h : Since t.shape trail₀ c trail) :
    c.active = t.execution.activeOperationId := by
  rw [h.1.rows]
  rfl

/-- The Steps of an Operation that starts. -/
theorem Since.todo_multi {c : Shape} {trail : List EventSubject}
    (hactive : t.execution.activeOperationId = some operationId) (hat : t.shape.At 0)
    (hnodup : (t.steps.map (·.sequence)).Nodup) (h : Since t.shape trail₀ c trail) :
    c.Todo ((pendingSteps (t.claimed workspacePath notebookPath) operationId none).map
      (·.sequence)) := by
  have hat' : c.At 0 := by
    rw [h.1.rows]
    exact hat
  have hc : c.active = some operationId := h.active.trans hactive
  refine hat'.todo_of_mem (pendingSteps_sorted hnodup) fun n => ?_
  rw [h.mem_pending]
  constructor
  · rintro ⟨s, hs, hn, hoperation, _⟩
    exact ⟨s, hs, hn, by rw [hoperation, hc]⟩
  · rintro ⟨s, hs, hn, hoperation⟩
    have hpending := hat' s hs hoperation
    rw [if_pos (Nat.zero_le _)] at hpending
    exact ⟨s, hs, hn, Option.some.inj (hoperation.trans hc), .inl hpending⟩

/-- The Steps of an Operation whose running Step is taken over. -/
theorem Since.busy_multi {c : Shape} {trail : List EventSubject} {run : StepRun}
    {step : ExecutionStep} {rest : List ExecutionStep} (hs : c.Sound)
    (hactive : t.execution.activeOperationId = some operationId)
    (hnodup : (t.steps.map (·.sequence)).Nodup) (h : Since t.shape trail₀ c trail)
    (hpending : pendingSteps (t.claimed workspacePath notebookPath) operationId (some run) =
      step :: rest)
    {x : StepAttemptShape} (hx : x ∈ c.stepAttempts) (hrunning : x.status = .running)
    (hsequence : x.sequence = run.sequence) :
    c.Busy x.attemptId x.sequence (rest.map (·.sequence)) := by
  have hc : c.active = some operationId := h.active.trans hactive
  have hsorted : ((pendingSteps (t.claimed workspacePath notebookPath) operationId
      (some run)).map (·.sequence)).Pairwise (· < ·) := pendingSteps_sorted hnodup
  have hmem : ∀ n, n ∈ (step :: rest).map (·.sequence) ↔ ∃ s ∈ c.steps, s.sequence = n ∧
      s.operationId = operationId ∧
      (s.status = .pending ∨ ∃ run', some run = some run' ∧ run'.sequence = n) := by
    intro n
    rw [← hpending]
    exact h.mem_pending
  rw [hpending] at hsorted
  obtain ⟨_, y, hy, _, hysequence, hyrunning⟩ := hs.statuses.runningStepAttempt x hx hrunning
  have hyactive := hs.statuses.openStep y hy (by rw [hyrunning]; rfl)
  have hyoperation : y.operationId = operationId := Option.some.inj (hyactive.trans hc)
  have horder : ∀ s ∈ c.steps, s.operationId = operationId →
      (s.sequence < x.sequence → s.status = .succeeded) ∧
        (x.sequence < s.sequence → s.status = .pending) := by
    intro s hmem hoperation
    rw [← hysequence]
    exact hs.statuses.order y hy hyrunning s hmem (hoperation.trans hyoperation.symm)
  -- The Step taken over is the first one: those before it have succeeded.
  have hfirst : step.sequence = x.sequence := by
    have hin := (hmem x.sequence).mpr ⟨y, hy, hysequence, hyoperation, .inr ⟨run, rfl, hsequence.symm⟩⟩
    rcases List.mem_cons.mp hin with heq | hrest
    · exact heq.symm
    have hlt : step.sequence < x.sequence := List.rel_of_pairwise_cons hsorted hrest
    obtain ⟨s, hs', hn, hoperation, hstatus⟩ := (hmem step.sequence).mp List.mem_cons_self
    rcases hstatus with hstatus | ⟨run', hrun', hn'⟩
    · rw [(horder s hs' hoperation).1 (hn ▸ hlt)] at hstatus
      cases hstatus
    · cases hrun'
      exact absurd (hsequence.trans hn') hlt.ne'
  rw [List.map_cons, hfirst] at hsorted
  refine hs.statuses.busy hx hrunning hsorted (fun n hn => ?_) fun s hs' hs'' hgt => ?_
  · obtain ⟨s, hs', hn', hoperation, _⟩ := (hmem n).mp (List.mem_cons_of_mem _ hn)
    exact ⟨s, hs', hn', by rw [hoperation, hc]⟩
  · have hoperation : s.operationId = operationId := Option.some.inj (hs''.trans hc)
    have hin := (hmem s.sequence).mpr ⟨s, hs', rfl, hoperation, .inl ((horder s hs' hoperation).2 hgt)⟩
    rcases List.mem_cons.mp hin with heq | hrest
    · exact absurd (heq.trans hfirst) hgt.ne'
    · exact hrest

/-! ### From a claim to its end -/

/-- The Steps of the active Operation, when it starts. -/
theorem multiOperation_learns (hnodup : (t.steps.map (·.sequence)).Nodup)
    (hstart : t.execution.activeOperationId ≠ none → t.shape.At 0) (l : Locals)
    (sessionId : SessionId) :
    Learns settings lease (fun c trail => c.mode = .multi ∧ c.session = true ∧
        Since t.shape trail₀ c trail)
      (multiOperation lease (t.claimed workspacePath notebookPath) none l sessionId none)
      (fun _ _ _ => True) (fun _ _ _ => True) := by
  have hstable : Fact.Stable fun c trail => c.mode = .multi ∧ c.session = true ∧
      Since t.shape trail₀ c trail := by
    rintro c c' trail hunmoved ⟨hmode, hsession, hsince⟩
    exact ⟨by rw [hunmoved.rows]; exact hmode, hunmoved.session hsession,
      Since.stable t.shape trail₀ c c' trail hunmoved hsince⟩
  unfold multiOperation
  split
  · exact .raise fun _ _ _ _ => trivial
  · rename_i operationId hactive
    have hactive : t.execution.activeOperationId = some operationId := hactive
    dsimp only
    split
    · exact .raise fun _ _ _ _ => trivial
    · refine Learns.bind (Learns.runQuiet (prepareNotebook_quiet _) hstable
        fun _ _ _ _ _ _ => trivial) fun _ => ?_
      refine (multiSteps_learns sessionId _ l).pre fun c trail hs h => ?_
      exact ⟨h.1, h.2.2.active.trans hactive, h.2.1,
        h.2.2.todo_multi hactive (hstart (by rw [hactive]; simp)) hnodup⟩

/-- The Steps of the active Operation, from the one that is taken over on. -/
theorem multiOperation_takenOver (hnodup : (t.steps.map (·.sequence)).Nodup)
    (hreleased : ∀ h ∈ t.shape.stepAttempts, h.status = .running →
      Unfollowed trail₀ h.stepId h.attemptId)
    (handover : HandoverRow) (l : Locals) (sessionId : SessionId) (run : StepRun) :
    Learns settings lease (fun c trail => (∃ h ∈ c.stepAttempts, h.attemptId = lease.attemptId ∧
        h.sequence = run.sequence ∧ h.status = .running) ∧ c.mode = .multi ∧ c.session = true ∧
        Since t.shape trail₀ c trail)
      (multiOperation lease (t.claimed workspacePath notebookPath) (some handover) l sessionId
        (some run))
      (fun _ _ _ => True) (fun _ _ _ => True) := by
  unfold multiOperation
  split
  · exact .raise fun _ _ _ _ => trivial
  · rename_i operationId hactive
    have hactive : t.execution.activeOperationId = some operationId := hactive
    dsimp only
    cases hpending : pendingSteps (t.claimed workspacePath notebookPath) operationId (some run) with
    | nil =>
      rw [if_pos rfl]
      exact .raise fun _ _ _ _ => trivial
    | cons step rest =>
      rw [if_neg (List.cons_ne_nil _ _)]
      refine (multiSteps_takenOver sessionId run (some handover) step rest l).pre
        fun c trail hs h => ?_
      obtain ⟨⟨x, hx, hattempt, hsequence, hrunning⟩, hmode, hsession, hsince⟩ := h
      have hbusy := hsince.busy_multi hs hactive hnodup hpending hx hrunning hsequence
      rw [hattempt, hsequence] at hbusy
      refine ⟨⟨hmode, hsince.active.trans hactive, hsession, hbusy⟩, fun _ s hs' hs'' => ?_⟩
      exact hsince.unfollowed hs hreleased hx hattempt hsequence hrunning hs' hs''

/-- A MULTI run before its handlers. -/
theorem multiBody_learns (hmulti : t.execution.operationMode = .multi)
    (hnodup : (t.steps.map (·.sequence)).Nodup) {handover : Option HandoverRow}
    (hstart : handover = none → t.execution.finalizationRequested = false →
      t.execution.activeOperationId ≠ none → t.shape.At 0)
    (hreleased : handover.isSome = true → ∀ h ∈ t.shape.stepAttempts, h.status = .running →
      Unfollowed trail₀ h.stepId h.attemptId) :
    Learns settings lease (Since t.shape trail₀)
      (multiBody lease (t.claimed workspacePath notebookPath) handover) (fun _ _ _ => True)
      (fun _ _ _ => True) := by
  have hstable := Since.stable t.shape trail₀
  unfold multiBody
  dsimp only [Tables.claimed]
  split
  · -- A released row is taken over: its session is the one to go on with.
    rename_i row
    refine Learns.bind (Learns.run ((loadRun_learns hstable).mono (fun _ _ _ => id)
      (fun _ _ _ _ => id) fun _ _ _ _ _ => trivial)) fun run => ?_
    split
    · exact .raise fun _ _ _ _ => trivial
    · rename_i sessionId hsession
      refine (multiOperation_takenOver hnodup (hreleased rfl) row _ sessionId run).pre
        fun c trail hs h => ⟨h.1, h.2.mode.trans hmulti, ?_, h.2⟩
      exact h.2.1.session (by simp [Tables.shape, hsession])
  · -- Otherwise the run records its session first, and then ends or runs the Operation.
    refine Learns.bind (Learns.runQuiet (Quiet.external _) hstable fun _ _ _ _ _ _ => trivial)
      fun _ => ?_
    have rest : ∀ sessionId, Learns settings lease (Since t.shape trail₀)
        (Locals.run { runtimeSessionId := some sessionId } (transaction fun c =>
            .recordRuntimeSession c.clock lease sessionId workspacePath notebookPath) >>= fun _ =>
          if t.execution.finalizationRequested then
            Locals.run { runtimeSessionId := some sessionId } (do
              projectRequired lease
              completeSession lease sessionId)
          else multiOperation lease (t.claimed workspacePath notebookPath) none
            { runtimeSessionId := some sessionId } sessionId none)
        (fun _ _ _ => True) (fun _ _ _ => True) := by
      intro sessionId
      refine Learns.bind (Learns.run ((recordRuntimeSession_learns hstable sessionId _ _).mono
        (fun _ _ _ => id) (fun _ _ _ _ => id) fun _ _ _ _ _ => trivial)) fun _ => ?_
      split
      · refine Learns.run (Learns.after projectRequired_quiet hstable (fun _ => ?_)
          fun _ _ _ _ _ _ => trivial) |>.pre fun _ _ _ h => h.2
        exact (completeSession_learns hstable sessionId).mono (fun _ _ _ => id)
          (fun _ _ _ _ => id) fun _ _ _ _ _ => trivial
      · rename_i hfinalizing
        refine (multiOperation_learns hnodup (hstart rfl (by simpa using hfinalizing)) _
          sessionId).pre fun c trail _ h => ⟨h.2.mode.trans hmulti, h.1, h.2⟩
    -- The session may have to be started.
    split
    · exact rest _
    · exact Learns.bind (Learns.runQuiet (.await .startSession) hstable fun _ _ _ _ _ _ => trivial)
        rest

theorem multiFailed_learns (y : Failure × Locals) :
    Learns settings lease (fun _ _ => True) (multiFailed lease y) (fun _ _ _ => True)
      (fun _ _ _ => True) := by
  have hstable : Fact.Stable fun _ _ => True := fun _ _ _ _ h => h
  unfold multiFailed
  split
  · refine Learns.after (handOffCancelled_quiet _) hstable (fun handed => ?_)
      fun _ _ _ _ _ _ => trivial
    split
    · exact .raise fun _ _ _ _ => trivial
    · refine Learns.after (stopSession_quiet _) hstable (fun cleanup => ?_)
        fun _ _ _ _ _ _ => trivial
      exact Learns.bind (multiEnd_learns _ _ _) fun _ => .raise fun _ _ _ _ => trivial
  · exact .ret fun _ _ _ _ => trivial
  · exact .raise fun _ _ _ _ => trivial
  · refine Learns.after (Quiet.external _) hstable (fun _ => ?_) fun _ _ _ _ _ _ => trivial
    exact Learns.after (stopSession_quiet _) hstable (fun cleanup => multiEnd_learns _ _ _)
      fun _ _ _ _ _ _ => trivial

/-- A MULTI run from its claim to its end. -/
theorem multi_learns (hmulti : t.execution.operationMode = .multi)
    (hnodup : (t.steps.map (·.sequence)).Nodup) {handover : Option HandoverRow}
    (hstart : handover = none → t.execution.finalizationRequested = false →
      t.execution.activeOperationId ≠ none → t.shape.At 0)
    (hreleased : handover.isSome = true → ∀ h ∈ t.shape.stepAttempts, h.status = .running →
      Unfollowed trail₀ h.stepId h.attemptId) :
    Learns settings lease (Since t.shape trail₀)
      (multi lease (t.claimed workspacePath notebookPath) handover) (fun _ _ _ => True)
      (fun _ _ _ => True) :=
  (multiBody_learns hmulti hnodup hstart hreleased).handle fun y => multiFailed_learns y

/-! ### Runs -/

/-- What a claim leaves to its run. -/
structure Startable (t : Tables) (trail₀ : List EventSubject) (handover : Option HandoverRow) :
    Prop where
  single : handover = none → t.execution.operationMode = .single →
    t.shape.NoneRunning ∧ t.shape.Resumable
  multi : handover = none → t.execution.operationMode = .multi →
    t.execution.finalizationRequested = false → t.execution.activeOperationId ≠ none →
    t.shape.At 0
  released : handover.isSome = true → ∀ h ∈ t.shape.stepAttempts, h.status = .running →
    Unfollowed trail₀ h.stepId h.attemptId

/-- Every effect of a run, from its claim to its end, is allowed. -/
theorem run_learns (hkeyed : t.shape.Keyed) {handover : Option HandoverRow}
    (h : Startable t trail₀ handover) :
    Learns settings lease (Since t.shape trail₀)
      (run lease (t.claimed workspacePath notebookPath) handover) (fun _ _ _ => True)
      (fun _ _ _ => True) := by
  have hnodup : (t.steps.map (·.sequence)).Nodup := by
    have hsequences := hkeyed.sequences
    rwa [Tables.shape, List.map_map] at hsequences
  unfold run
  split
  · rename_i hmode
    exact multi_learns hmode hnodup (fun hnone => h.multi hnone hmode) h.released
  · rename_i hmode
    exact single_learns hmode (fun hnone => h.single hnone hmode) h.released _ _

end

end ExecutorService
