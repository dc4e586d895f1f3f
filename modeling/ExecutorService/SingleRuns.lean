/-
A SINGLE run is safe.

The run of a SINGLE Execution, with what it knows from its claim to its end.  It starts at
the Step the claim found, and each Step it starts is the next one left; a Step it takes over
is the one that runs.  What it raises says which Step failed, and then the Steps before that
one have succeeded and the session is there to be retained.

* `singleSteps_learns` — the loop over the Steps;
* `singleFailed_learns` — the handlers around the run;
* `single_learns` — the whole run, from what a claim leaves.
-/
import ExecutorService.RunSteps

namespace ExecutorService

open Program Job
open Tables (StepRun FinalizeRequest)

/-! ### Failure policies -/

theorem Failure.policy_retains (x : Failure) (retain : Bool)
    (h : (x.policy retain).2 = .fromFailedStep) : retain = true := by
  induction x with
  | storedStep original stored ih => exact ih h
  | _ => cases retain <;> first | rfl | cases h

theorem Failure.policy_undelivered (x : Failure) (retain : Bool)
    (h : (x.policy retain).1 = .completionFailed) : (x.policy retain).2 = .notRetryable := by
  induction x with
  | storedStep original stored ih => exact ih h
  | timeout scope => cases scope <;> cases h
  | storedTimeout scope stored => cases scope <;> cases h
  | _ => first | rfl | cases h

/-- The result of a Step that hit a limit. -/
def Failure.limitResult : Failure → Option StepResultDescriptor
  | .storedTimeout _ stored | .storedOutputLimit stored => some stored
  | _ => none

theorem Failure.limitResult_of_plain {x : Failure} (h : x.isPlain = true) : x.limitResult = none := by
  cases x <;> first | rfl | cases h

section

variable {settings : Settings} {lease : ExecutionLease} {active : Option UUID} {Q : Fact}
  {α : Type}

/-! ### What a SINGLE run raises -/

/-- What is known of the rows when a SINGLE run raises. -/
structure SingleFailure (lease : ExecutionLease) (active : Option UUID) (x : Failure) (l : Locals)
    (c : Shape) (trail : List EventSubject) : Prop where
  mode : c.mode = .single
  failed : ∀ sequence, l.failedSequence = some sequence → c.session = true ∧ c.FailedAt sequence
  limit : ∀ stored, x.limitResult = some stored → stored.SealedUnder lease ∧
    ∃ sequence todo, l.failedSequence = some sequence ∧
      Established .single active (ShapeRows.Busy lease.attemptId sequence todo) c trail

theorem SingleFailure.stable (x : Failure) (l : Locals) :
    Fact.Stable (SingleFailure lease active x l) := by
  rintro c c' trail hunmoved ⟨hmode, hfailed, hlimit⟩
  have hsame := hunmoved.rows
  refine ⟨?_, fun sequence h => ?_, fun stored h => ?_⟩
  · rw [hsame]
    exact hmode
  · obtain ⟨hsession, hbelow⟩ := hfailed sequence h
    rw [hsame]
    exact ⟨hunmoved.session hsession, hbelow⟩
  · obtain ⟨hresult, sequence, todo, hsequence, hbusy⟩ := hlimit stored h
    exact ⟨hresult, sequence, todo, hsequence, Established.stable c c' trail hunmoved hbusy⟩

/-- Before a Step has failed nothing is said about one. -/
theorem SingleFailure.of_plain {x : Failure} {l : Locals} {c : Shape} {trail : List EventSubject}
    (hl : l.failedSequence = none) (hplain : x.isPlain = true) (hmode : c.mode = .single) :
    SingleFailure lease active x l c trail := by
  refine ⟨hmode, fun sequence h => ?_, fun stored h => ?_⟩
  · rw [hl] at h
    cases h
  · rw [Failure.limitResult_of_plain hplain] at h
    cases h

/-- The Step that failed has run. -/
theorem SingleFailure.of_failed {x : Failure} {l : Locals} {c : Shape} {trail : List EventSubject}
    {sequence : ℕ} {T : List ℕ} (hs : c.Sound) (hl : l.failedSequence = some sequence)
    (hlimit : x.limitResult = none)
    (h : Established .single active (ShapeRows.Busy lease.attemptId sequence T) c trail ∨
      Established .single active (ShapeRows.Stopped sequence) c trail) :
    SingleFailure lease active x l c trail := by
  have hknown : c.mode = .single ∧ c.session = true ∧ c.FailedAt sequence := by
    rcases h with h | h
    · exact ⟨h.mode, h.session, h.rows.failedAt hs.keyed hs.statuses h.mode⟩
    · exact ⟨h.mode, h.session, h.rows.failedAt hs.keyed h.mode⟩
  refine ⟨hknown.1, fun n hn => ?_, fun stored h => ?_⟩
  · cases hl.symm.trans hn
    exact hknown.2
  · rw [hlimit] at h
    cases h

/-- The Step that hit a limit still runs. -/
theorem SingleFailure.of_limit {x : Failure} {l : Locals} {c : Shape} {trail : List EventSubject}
    {sequence : ℕ} {todo : List ℕ} {stored : StepResultDescriptor} (hs : c.Sound)
    (hl : l.failedSequence = some sequence) (hx : x.limitResult = some stored)
    (hresult : stored.SealedUnder lease)
    (h : Established .single active (ShapeRows.Busy lease.attemptId sequence todo) c trail) :
    SingleFailure lease active x l c trail := by
  refine ⟨h.mode, fun n hn => ?_, fun d hd => ?_⟩
  · cases hl.symm.trans hn
    exact ⟨h.session, h.rows.failedAt hs.keyed hs.statuses h.mode⟩
  · cases hx.symm.trans hd
    exact ⟨hresult, sequence, todo, hl, h⟩

/-! ### Steps -/

/-- The handlers around one Step. -/
theorem singleStepFailed_learns {l : Locals} (hl : l.failedSequence = none) (sequence : ℕ)
    (todo : List ℕ) (x : Failure) {ok : StepResultDescriptor → Fact} :
    Learns settings lease
      (SealedIn lease
        (Established .single active (ShapeRows.Busy lease.attemptId sequence todo)) x)
      (singleStepFailed lease l sequence x) ok
      (fun y => SingleFailure lease active y.1 y.2) := by
  have hstable : Fact.Stable
      (Established .single active (ShapeRows.Busy lease.attemptId sequence todo)) :=
    Established.stable
  have failed : ∀ {y : Failure} {c : Shape} {trail : List EventSubject}, c.Sound →
      y.isPlain = true ∧
        (Established .single active (ShapeRows.Busy lease.attemptId sequence todo) c trail ∨
          Established .single active (ShapeRows.Stopped sequence) c trail) →
      SingleFailure lease active y { l with failedSequence := some sequence } c trail :=
    fun hs h => .of_failed hs rfl (Failure.limitResult_of_plain h.1) h.2
  -- Marking the Step failed leaves it the one that stopped the run.
  have ended : ∀ (result : StepResultDescriptor) (retryable : Bool),
      Learns settings lease
        (fun c trail => result.SealedUnder lease ∧
          Established .single active (ShapeRows.Busy lease.attemptId sequence todo) c trail)
        (Locals.run { l with failedSequence := some sequence }
          (markFailed lease sequence result retryable))
        (fun _ => Established .single active (ShapeRows.Stopped sequence))
        (fun y => SingleFailure lease active y.1 y.2) := fun result retryable =>
    .run ((markFailed_learns sequence todo result retryable).mono (fun _ _ _ => id)
      (fun _ _ _ _ => id) fun _ _ _ hs h => failed hs h)
  unfold singleStepFailed
  split
  · -- A cancellation keeps the Step as it is and leaves its interruption to the abort.
    refine ((Learns.runQuiet (interrupted_quiet sequence) hstable fun y c trail _ hplain h =>
      .of_plain hl hplain h.mode).bind fun _ => .raise fun c trail _ h => ?_).pre fun _ _ _ h => h.2
    exact .of_plain hl rfl h.mode
  · exact .raise fun c trail hs h => .of_limit hs rfl rfl h.1 h.2
  · exact .raise fun c trail hs h => .of_limit hs rfl rfl h.1 h.2
  · rename_i stored
    -- The Step's own failure: mark it and take down the evidence.
    refine (ended stored true).bind fun _ => ?_
    refine (Learns.runQuiet (releaseJournal_quiet.bind fun _ => recordFailureEvidence_quiet sequence)
      Established.stable fun y c trail hs hplain h => .of_failed (T := todo) hs rfl
        (Failure.limitResult_of_plain hplain) (.inr h)).bind fun _ => ?_
    exact .raise fun c trail hs h => .of_failed (T := todo) hs rfl rfl (.inr h)
  · rename_i original stored
    -- Without a sealed result there is nothing to mark.
    split
    · exact .raise fun c trail hs h => .of_failed hs rfl rfl (.inl h.2)
    · rename_i result
      refine (ended result _).bind fun _ => ?_
      exact .raise fun c trail hs h => .of_failed (T := todo) hs rfl rfl (.inr h)
  · -- Any other failure is plain.
    rename_i hcancelled htimeout houtput hexecution hstep
    refine .raise fun c trail hs h => .of_plain hl ?_ h.2.mode
    cases x <;> first | rfl | skip
    · exact absurd rfl (htimeout _ _)
    · exact absurd rfl (houtput _)
    · exact absurd rfl (hexecution _)
    · exact absurd rfl (hstep _ _)

/-- One Step of a run. -/
theorem singleStep_learns {l : Locals} (hl : l.failedSequence = none) (run : StepRun)
    (todo : List ℕ) (handover : Option HandoverRow) :
    Learns settings lease (Following .single active lease.attemptId run.sequence todo handover)
      (singleStep lease l run handover)
      (fun _ => Established .single active (ShapeRows.Todo todo))
      (fun y => SingleFailure lease active y.1 y.2) := by
  refine ((executeStep_learns run).handle fun x =>
    singleStepFailed_learns (l := { l with runInFlight := some run }) hl run.sequence todo x).bind
    fun result => ?_
  refine (Learns.run ((markSucceeded_learns run.sequence todo result).mono (fun _ _ _ => id)
    (fun _ _ _ _ => id) fun y c trail _ h => .of_plain hl h.1 h.2)).bind fun _ => ?_
  exact (Learns.runQuiet (publishSuccess_quiet run.sequence) Established.stable
    fun y c trail _ hplain h => .of_plain hl hplain h.mode).bind fun _ => .ret fun _ _ _ h => h

theorem singleStep_yields {l : Locals} (hl : l.failedSequence = none) (run : StepRun)
    (handover : Option HandoverRow) :
    (singleStep lease l run handover).Yields (·.failedSequence = none) :=
  (Yields.any _).bind fun _ _ => (Yields.any _).bind fun _ _ => (Yields.any _).bind fun _ _ => hl

/-- The Steps that are left, each started when the one before it has succeeded. -/
theorem singleSteps_learns (sessionId : SessionId) (todo : List ℕ) {l : Locals}
    (hl : l.failedSequence = none) :
    Learns settings lease (Established .single active (ShapeRows.Todo todo))
      (singleSteps lease sessionId l todo none) (fun _ _ _ => True)
      (fun y => SingleFailure lease active y.1 y.2) := by
  induction todo generalizing l with
  | nil =>
    exact .run ((completeSession_learns Established.stable sessionId).mono (fun _ _ _ => id)
      (fun _ _ _ _ => id) fun y c trail _ h => .of_plain hl h.1 h.2.mode)
  | cons sequence rest ih =>
    refine (Learns.run ((startStep_learns sequence rest).mono (fun _ _ _ => id)
      (fun _ _ _ _ => id) fun y c trail _ h => .of_plain hl h.1 h.2)).bind fun run => ?_
    refine ((singleStep_learns hl run rest none).pre fun c trail _ h => ?_).bind_yields
      (singleStep_yields hl run none) fun l' hl' => ih hl'
    refine ⟨?_, fun h => by cases h⟩
    rw [h.1]
    exact h.2

/-- The Step that was taken over, then the Steps that are left. -/
theorem singleSteps_takenOver (sessionId : SessionId) (run : StepRun) (handover : Option HandoverRow)
    (todo : List ℕ) {l : Locals} (hl : l.failedSequence = none) :
    Learns settings lease (Following .single active lease.attemptId run.sequence todo handover)
      (singleSteps lease sessionId l (run.sequence :: todo) (some (run, handover)))
      (fun _ _ _ => True) (fun y => SingleFailure lease active y.1 y.2) :=
  (singleStep_learns hl run todo handover).bind_yields (singleStep_yields hl run handover)
    fun _ hl' => singleSteps_learns sessionId todo hl'

/-! ### The start of a run -/

/-! ### From a claim to the first Step -/

/-- What a claim hands to a run. -/
def Tables.claimed (workspacePath notebookPath : String) (t : Tables) : Claimed :=
  ⟨t.execution, t.steps, workspacePath, notebookPath⟩

variable {t : Tables} {trail₀ : List EventSubject}

theorem Shape.Unmoved.resumable {c c' : Shape} (h : c.Unmoved c') (hr : c.Resumable) :
    c'.Resumable := by
  refine ⟨?_, fun hstrategy => ?_, fun hstrategy => ?_⟩
  · rw [h.rows, h.retryFrom]
    exact hr.steps
  · obtain ⟨hsession, hretried, hfrom⟩ := hr.resumed (h.strategy ▸ hstrategy)
    exact ⟨h.session hsession, h.retried ▸ hretried, h.retryFrom ▸ hfrom⟩
  · rw [h.retryFrom]
    exact hr.fresh (h.strategy ▸ hstrategy)

theorem Since.mode {c : Shape} {trail : List EventSubject} (h : Since t.shape trail₀ c trail) :
    c.mode = t.execution.operationMode := by
  rw [h.1.rows]
  rfl

open Tables in
/-- The retry waits for its Target. -/
theorem deferRetainedRetry_learns (hsingle : t.execution.operationMode = .single)
    (hidle : t.shape.NoneRunning) (hresumable : t.shape.Resumable) :
    Learns settings lease (Since t.shape trail₀)
      (transaction fun c => .deferRetainedRetry c.clock lease) (fun _ c _ => c.mode = .single)
      (PlainIn .single) := by
  refine (Learns.transaction (fun _ => rfl) (fun _ => rfl) (fun c h _ hknown => ?_)
    fun c h change _ hchange hknown _ => ?_).mono (fun _ _ _ => id) (fun _ _ _ _ => id) ?_
  · refine ⟨hknown.mode.trans hsingle, ?_, hknown.1.resumable hresumable⟩
    rw [hknown.1.rows]
    exact hidle
  · obtain ⟨_, ht, rfl⟩ := Txn.quiet_ok.mp hchange
    obtain ⟨_, _, rfl | ⟨_, rfl⟩⟩ := deferRetainedRetry_ok ht
    · exact hknown.mode.trans hsingle
    · exact hknown.mode.trans hsingle
  · rintro x c trail _ ⟨hplain, h | h⟩
    · exact ⟨hplain, h.mode.trans hsingle⟩
    · exact ⟨hplain, h⟩

/-- A retained session that cannot be asked defers the retry. -/
theorem preflight_learns (hsingle : t.execution.operationMode = .single)
    (hidle : t.shape.NoneRunning) (hresumable : t.shape.Resumable) (sessionId : SessionId) :
    Learns settings lease (Since t.shape trail₀) (preflight lease sessionId)
      (fun deferred c trail => deferred = false → Since t.shape trail₀ c trail)
      (PlainIn .single) := by
  have hstable := Since.stable t.shape trail₀
  refine Learns.bind (M := fun found c trail =>
    c.mode = .single ∧ (found ≠ none → Since t.shape trail₀ c trail)) ?_ fun found => ?_
  · refine Learns.handle (M := fun x c trail => x.isPlain = true ∧ Since t.shape trail₀ c trail)
      ?_ fun x => ?_
    · refine Learns.after (Quiet.await (.sessionExists sessionId)) hstable (fun answer => ?_)
        fun _ _ _ _ hplain h => ⟨hplain, h⟩
      exact .ret fun c trail _ h => ⟨h.mode.trans hsingle, fun _ => h⟩
    · split
      · refine ((deferRetainedRetry_learns hsingle hidle hresumable).pre fun _ _ _ h => h.2).bind
          fun _ => .ret fun c trail _ h => ⟨h, fun h => absurd rfl h⟩
      · exact .raise fun c trail _ h => ⟨h.1, h.2.mode.trans hsingle⟩
  · split
    · exact .ret fun c trail _ h hdeferred => by cases hdeferred
    · exact .ret fun c trail _ h _ => h.2 (by simp)
    · exact .raise fun c trail _ h => ⟨rfl, h.1⟩

/-- A SINGLE run starts where its retry put it, or at the first Step. -/
theorem start_at (hresumable : t.shape.Resumable) :
    t.shape.At (if resumes t.execution none then t.execution.retryFromSequence.getD 0 else 0) := by
  by_cases hresumes : resumes t.execution none = true
  · rw [if_pos hresumes]
    exact hresumable.steps
  · rw [if_neg hresumes]
    have hstrategy : t.shape.strategy ≠ .fromFailedStep := by
      intro hstrategy
      obtain ⟨hsession, hretried, hfrom⟩ := hresumable.resumed hstrategy
      refine hresumes ?_
      simp only [Tables.shape] at hstrategy hsession hretried hfrom
      simp [resumes, hstrategy, hsession, hfrom, of_decide_eq_true hretried]
    have hat := hresumable.steps
    rwa [hresumable.fresh hstrategy] at hat

/-- The Steps that are left to a run that starts. -/
theorem Since.todo {c : Shape} {trail : List EventSubject} {start : ℕ} (hs : c.Sound)
    (hsingle : t.execution.operationMode = .single) (hat : t.shape.At start)
    (h : Since t.shape trail₀ c trail) : c.Todo (sequencesFrom start t.steps) := by
  have hat' : c.At start := by
    rw [h.1.rows]
    exact hat
  have htodo := hat'.todo hs.keyed (h.mode.trans hsingle)
  have hlength : c.steps.length = t.steps.length := by
    rw [h.1.rows]
    exact List.length_map _
  rwa [hlength] at htodo

theorem singleStarted_learns (hsingle : t.execution.operationMode = .single)
    (hresumable : t.shape.Resumable) (workspacePath notebookPath : String) {l : Locals}
    (hl : l.failedSequence = none) :
    Learns settings lease (Since t.shape trail₀)
      (singleStarted lease (t.claimed workspacePath notebookPath) (resumes t.execution none) l)
      (fun _ _ _ => True)
      (fun y => SingleFailure lease t.execution.activeOperationId y.1 y.2) := by
  have hstable := Since.stable t.shape trail₀
  have plain : ∀ {l : Locals}, l.failedSequence = none → ∀ (x : Failure) (c : Shape)
      (trail : List EventSubject), c.Sound → x.isPlain = true → Since t.shape trail₀ c trail →
      SingleFailure lease t.execution.activeOperationId x l c trail :=
    fun hl _ _ _ _ hplain h => .of_plain hl hplain (h.mode.trans hsingle)
  have prepared : Quiet lease (do
      external .prepareWorkspace
      transaction fun c => .ensureCount c.clock lease t.steps.length
      prepareNotebook lease t.steps) :=
    (Quiet.external _).bind fun _ => (Quiet.transaction (fun _ => rfl) fun _ => rfl).bind
      fun _ => prepareNotebook_quiet _
  refine (Learns.runQuiet prepared hstable (plain hl)).bind fun _ => ?_
  have rest : ∀ sessionId, Learns settings lease (Since t.shape trail₀)
      (Locals.run { l with runtimeSessionId := some sessionId } (transaction fun c =>
          .recordRuntimeSession c.clock lease sessionId workspacePath notebookPath) >>= fun _ =>
        singleSteps lease sessionId { l with runtimeSessionId := some sessionId } (sequencesFrom
          (if resumes t.execution none then t.execution.retryFromSequence.getD 0 else 0) t.steps)
          none)
      (fun _ _ _ => True)
      (fun y => SingleFailure lease t.execution.activeOperationId y.1 y.2) := by
    intro sessionId
    refine (Learns.run ((recordRuntimeSession_learns hstable sessionId _ _).mono (fun _ _ _ => id)
      (fun _ _ _ _ => id) fun x c trail _ h => .of_plain hl h.1 (h.2.mode.trans hsingle))).bind
      fun _ => ?_
    refine (singleSteps_learns (l := { l with runtimeSessionId := some sessionId }) sessionId _
      hl).pre fun c trail hs h => ?_
    refine ⟨h.2.mode.trans hsingle, ?_, h.1, h.2.todo hs hsingle (start_at hresumable)⟩
    rw [h.2.1.rows]
    rfl
  dsimp only [Tables.claimed]
  split
  · exact rest _
  · exact .raise fun c trail hs h => plain hl _ c trail hs rfl h
  · exact (Learns.runQuiet (.await .startSession) hstable (plain hl)).bind rest

/-- The row that was released is that of the running Step. -/
theorem Since.unfollowed {c : Shape} {trail : List EventSubject} (h : Since t.shape trail₀ c trail)
    (hs : c.Sound) (hreleased : ∀ h ∈ t.shape.stepAttempts, h.status = .running →
      Unfollowed trail₀ h.stepId h.attemptId)
    {x : StepAttemptShape} (hx : x ∈ c.stepAttempts) {attemptId : UUID} {sequence : ℕ}
    (hattempt : x.attemptId = attemptId) (hsequence : x.sequence = sequence)
    (hrunning : x.status = .running) {s : StepShape} (hmem : s ∈ c.steps)
    (hs' : s.sequence = sequence) : Unfollowed trail s.id attemptId := by
  obtain ⟨_, y, hy, hid, hysequence, _⟩ := hs.statuses.runningStepAttempt x hx hrunning
  have hsame := hs.keyed.step_of_sequence hmem hy (hs'.trans (hysequence.trans hsequence).symm)
  have hx' : x ∈ t.shape.stepAttempts := by
    rw [← h.1.rows]
    exact hx
  rw [h.2, hsame, hid, ← hattempt]
  exact hreleased x hx' hrunning

theorem singleTakenOver_learns (hsingle : t.execution.operationMode = .single)
    (hreleased : ∀ h ∈ t.shape.stepAttempts, h.status = .running →
      Unfollowed trail₀ h.stepId h.attemptId)
    (workspacePath notebookPath : String) (handover : HandoverRow) :
    Learns settings lease (Since t.shape trail₀)
      (singleTakenOver lease (t.claimed workspacePath notebookPath) handover) (fun _ _ _ => True)
      (fun y => SingleFailure lease t.execution.activeOperationId y.1 y.2) := by
  have hstable := Since.stable t.shape trail₀
  refine (Learns.run ((loadRun_learns hstable).mono (fun _ _ _ => id) (fun _ _ _ _ => id)
    fun x c trail _ h => .of_plain rfl h.1 (h.2.mode.trans hsingle))).bind fun run => ?_
  dsimp only [Tables.claimed]
  split
  · exact .raise fun c trail _ h => .of_plain rfl rfl (h.2.mode.trans hsingle)
  · rename_i sessionId hsession
    by_cases hlt : run.sequence < t.steps.length
    · have hdrop : sequencesFrom run.sequence t.steps =
          run.sequence :: sequencesFrom (run.sequence + 1) t.steps := by
        rw [sequencesFrom, List.drop_eq_getElem_cons (by simpa using hlt), List.getElem_range]
        rfl
      rw [hdrop]
      refine (singleSteps_takenOver sessionId run (some handover) _ rfl).pre fun c trail hs h => ?_
      obtain ⟨⟨x, hx, hattempt, hsequence, hrunning⟩, hsince⟩ := h
      have hmode := hsince.mode.trans hsingle
      have hlength : c.steps.length = t.steps.length := by
        rw [hsince.1.rows]
        exact List.length_map _
      obtain ⟨todo, htodo, hbusy⟩ := hs.statuses.busy_single hs.keyed hmode hx hrunning
      rw [hlength, hsequence] at htodo
      rw [hattempt, hsequence] at hbusy
      have hrest := (List.cons.inj (hdrop.symm.trans htodo)).2
      rw [hrest]
      refine ⟨⟨hmode, ?_, hsince.1.session (by simp [Tables.shape, hsession]), hbusy⟩,
        fun _ s hs' hs'' => hsince.unfollowed hs hreleased hx hattempt hsequence hrunning hs' hs''⟩
      rw [hsince.1.rows]
      rfl
    · have hnil : sequencesFrom run.sequence t.steps = [] := by
        rw [sequencesFrom, List.drop_eq_nil_iff, List.length_range]
        exact Nat.not_lt.mp hlt
      rw [hnil]
      exact Learns.run (((completeSession_learns hstable sessionId).mono (fun _ _ _ h => h.2)
        (fun _ _ _ _ => id)) fun y c trail _ h => .of_plain rfl h.1 (h.2.mode.trans hsingle))

/-- A SINGLE run before its handlers. -/
theorem singleBody_learns (hsingle : t.execution.operationMode = .single)
    {handover : Option HandoverRow}
    (hstart : handover = none → t.shape.NoneRunning ∧ t.shape.Resumable)
    (hreleased : handover.isSome = true → ∀ h ∈ t.shape.stepAttempts, h.status = .running →
      Unfollowed trail₀ h.stepId h.attemptId)
    (workspacePath notebookPath : String) :
    Learns settings lease (Since t.shape trail₀)
      (singleBody lease (t.claimed workspacePath notebookPath) handover) (fun _ _ _ => True)
      (fun y => SingleFailure lease t.execution.activeOperationId y.1 y.2) := by
  have hstable := Since.stable t.shape trail₀
  have sources : ∀ (l : Locals) (next : Body Unit), l.failedSequence = none →
      Learns settings lease (Since t.shape trail₀) next (fun _ _ _ => True)
        (fun y => SingleFailure lease t.execution.activeOperationId y.1 y.2) →
      Learns settings lease (Since t.shape trail₀)
        (l.run (readSources t.steps) >>= fun _ => next) (fun _ _ _ => True)
        (fun y => SingleFailure lease t.execution.activeOperationId y.1 y.2) :=
    fun l next hl hnext => (Learns.runQuiet (readSources_quiet _) hstable
      fun x c trail _ hplain h => .of_plain hl hplain (h.mode.trans hsingle)).bind fun _ => hnext
  cases handover with
  | none =>
    obtain ⟨hidle, hresumable⟩ := hstart rfl
    unfold singleBody
    dsimp only [Tables.claimed]
    split
    · refine (Learns.run ((preflight_learns hsingle hidle hresumable _).mono (fun _ _ _ => id)
        (fun _ _ _ _ => id) fun x c trail _ h => .of_plain rfl h.1 h.2)).bind fun deferred => ?_
      split
      · exact .ret fun _ _ _ _ => trivial
      · rename_i hdeferred
        refine Learns.pre (sources _ _ rfl
          (singleStarted_learns hsingle hresumable workspacePath notebookPath rfl))
          fun c trail _ h => h (by simpa using hdeferred)
    · exact sources _ _ rfl
        (singleStarted_learns hsingle hresumable workspacePath notebookPath rfl)
  | some row =>
    have hresumes : resumes t.execution (some row) = false := rfl
    unfold singleBody
    dsimp only [Tables.claimed]
    rw [hresumes]
    exact sources _ _ rfl
      (singleTakenOver_learns hsingle (hreleased rfl) workspacePath notebookPath row)

/-! ### The handlers around a run -/

/-- An end that keeps the session for a retry from the Step that failed. -/
theorem properEnd_of_failed {q : FinalizeRequest} (hsingle : t.execution.operationMode = .single)
    (hstatus : q.status = .failed)
    (hretained : q.retryStrategy = .fromFailedStep → q.retainSession = true)
    (hkept : q.retainSession = true → t.shape.session = true ∧
      ∃ sequence, q.retryFromSequence = some sequence ∧ t.shape.FailedAt sequence)
    (hundelivered : q.failureType = some .completionFailed → q.retryStrategy = .notRetryable) :
    t.ProperEnd q := by
  refine ⟨fun h => ?_, hretained, fun h => ?_, fun h => ?_, hundelivered⟩
  · rw [hsingle] at h
    cases h
  · obtain ⟨hsession, sequence, hsequence, hbelow, x, hx, hhere, hran⟩ := hkept h
    obtain ⟨s, hs, rfl⟩ := List.mem_map.mp hx
    exact ⟨hstatus, hsession, sequence, hsequence,
      fun s hs hlt => hbelow s.shape (List.mem_map_of_mem hs) hlt, s, hs, hhere, hran⟩
  · rw [hstatus] at h
    cases h

theorem singleAborted_learns {x : Failure} {l : Locals} {failureType : FailureType}
    {stored : StepResultDescriptor} (hx : x.limitResult = some stored)
    (hfailure : failureType ≠ .completionFailed) :
    Learns settings lease (SingleFailure lease active x l)
      (singleAborted lease l failureType stored) (fun _ _ _ => True) (fun _ _ _ => True) := by
  unfold singleAborted
  split
  · rename_i sessionId sequence _ hsequence
    have busy : Learns settings lease
        (fun c trail => ∃ todo, stored.SealedUnder lease ∧
          Established .single active (ShapeRows.Busy lease.attemptId sequence todo) c trail)
        (abortStep lease sessionId sequence failureType stored)
        (fun _ => Established .single active (ShapeRows.Stopped sequence)) fun _ _ _ => True :=
      Learns.exists_ fun _ => (abortStep_learns sessionId failureType stored).mono
        (fun _ _ _ => id) (fun _ _ _ _ => id) fun _ _ _ _ _ => trivial
    refine Learns.bind_yields (busy.pre fun c trail _ h => ?_)
      (abortStep_retains sessionId failureType stored) fun resolution hretains => ?_
    · obtain ⟨hresult, n, todo, hn, hbusy⟩ := h.limit stored hx
      cases hsequence.symm.trans hn
      exact ⟨todo, hresult, hbusy⟩
    · refine Learns.after (recordFailureEvidence_quiet sequence) Established.stable (fun _ => ?_)
        fun _ _ _ _ _ _ => trivial
      refine (finalizeRun_learns fun c t trail hs h => ?_).mono (fun _ _ _ => id)
        (fun _ _ _ _ => id) fun _ _ _ _ _ => trivial
      refine properEnd_of_failed h.mode rfl hretains (fun _ => ?_) fun hf => ?_
      · exact ⟨h.session, sequence, rfl, h.rows.failedAt hs.keyed h.mode⟩
      · exact absurd (Option.some.inj hf) hfailure
  · exact .raise fun _ _ _ _ => trivial

theorem singleFailed_learns (x : Failure) (l : Locals) :
    Learns settings lease (SingleFailure lease active x l) (singleFailed lease (x, l))
      (fun _ _ _ => True) (fun _ _ _ => True) := by
  have hstable : ∀ y, Fact.Stable (SingleFailure lease active y l) :=
    fun y => SingleFailure.stable y l
  unfold singleFailed
  split
  · -- A cancellation ends the run only when nobody has taken it over.
    rename_i heq
    cases heq
    refine Learns.after (handOffCancelled_quiet _) (hstable _) (fun handed => ?_)
      fun _ _ _ _ _ _ => trivial
    split
    · exact .raise fun _ _ _ _ => trivial
    · refine Learns.after (stopSession_quiet _) (hstable _) (fun cleanup => ?_)
        fun _ _ _ _ _ _ => trivial
      refine ((finalizeRun_learns fun c t trail _ h => ?_).mono (fun _ _ _ => id)
        (fun _ _ _ _ => id) fun _ _ _ _ _ => trivial).bind fun _ => .raise fun _ _ _ _ => trivial
      refine properEnd_of_released rfl (fun h => by cases h) (fun hmulti => ?_)
        (fun h => by cases h) fun h => by cases h
      cases h.mode.symm.trans hmulti
  · rename_i heq
    cases heq
    exact singleAborted_learns rfl (by rename_i scope _; cases scope <;> decide)
  · rename_i heq
    cases heq
    exact singleAborted_learns rfl (by decide)
  · exact .ret fun _ _ _ _ => trivial
  · exact .raise fun _ _ _ _ => trivial
  · rename_i heq
    cases heq
    refine Learns.after (Quiet.external _) (hstable _) (fun _ => ?_) fun _ _ _ _ _ _ => trivial
    -- The end keeps the session only where the failed Step has one to resume from.
    have ended : ∀ cleanup : RuntimeSessionCleanupStatus,
        Learns settings lease (SingleFailure lease active x l)
          (finalizeRun lease fun c => {
            status := .failed
            errorMessage := some c.text
            retainSession :=
              x.isExecutionError && l.runtimeSessionId.isSome && l.failedSequence.isSome
            retryFromSequence := l.failedSequence
            failureType := some (x.policy
              (x.isExecutionError && l.runtimeSessionId.isSome && l.failedSequence.isSome)).1
            retryStrategy := (x.policy
              (x.isExecutionError && l.runtimeSessionId.isSome && l.failedSequence.isSome)).2
            cleanupStatus := cleanup })
          (fun _ _ _ => True) (fun _ _ _ => True) := by
      intro cleanup
      refine (finalizeRun_learns fun c t trail _ h => ?_).mono (fun _ _ _ => id)
        (fun _ _ _ _ => id) fun _ _ _ _ _ => trivial
      refine properEnd_of_failed h.mode rfl (x.policy_retains _) (fun hretain => ?_)
        fun hf => x.policy_undelivered _ (Option.some.inj hf)
      simp only [Bool.and_eq_true] at hretain
      obtain ⟨sequence, hsequence⟩ := Option.isSome_iff_exists.mp hretain.2
      obtain ⟨hsession, hbelow⟩ := h.failed sequence hsequence
      exact ⟨hsession, sequence, hsequence, hbelow⟩
    dsimp only
    split
    · exact ended _
    · exact Learns.after (stopSession_quiet _) (hstable _) (fun cleanup => ended cleanup)
        fun _ _ _ _ _ _ => trivial

/-- A SINGLE run from its claim to its end. -/
theorem single_learns (hsingle : t.execution.operationMode = .single)
    {handover : Option HandoverRow}
    (hstart : handover = none → t.shape.NoneRunning ∧ t.shape.Resumable)
    (hreleased : handover.isSome = true → ∀ h ∈ t.shape.stepAttempts, h.status = .running →
      Unfollowed trail₀ h.stepId h.attemptId)
    (workspacePath notebookPath : String) :
    Learns settings lease (Since t.shape trail₀)
      (single lease (t.claimed workspacePath notebookPath) handover) (fun _ _ _ => True)
      (fun _ _ _ => True) :=
  (singleBody_learns hsingle hstart hreleased workspacePath notebookPath).handle
    fun y => singleFailed_learns y.1 y.2

end

end ExecutorService
