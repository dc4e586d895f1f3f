/-
What the parts of a run learn.

The transactions of a run that move its Steps, and the parts of `StepFlow` around them, with
what the run knows before and after.  Each is allowed because of what is known: the Step it
starts is the next one left, the Step it ends is the one that runs, the Steps it skips wait.

* `Learns.commit` — one transaction that moves the Steps;
* `startStep_learns`, `markSucceeded_learns`, `markFailed_learns`, `skipStepsAfter_learns` — the
  Steps;
* `executeStep_learns` — a Step that is followed, with its results sealed under the lease;
* `abortStep_learns`, `finalizeRun_learns` — aborts and ends.
-/
import ExecutorService.Knowledge

namespace ExecutorService

open Program Job
open Tables (StepRun FinalizeRequest)

/-- Transactions of a run that move its Steps or its Attempt. -/
def TableTransaction.isLoud : TableTransaction → Bool
  | .markStarted .. | .recordHandoverCompleted .. | .markSucceeded .. | .markFailed ..
  | .completeOperation .. | .skipStepsAfter .. | .deferRetainedRetry .. | .finalize .. => true
  | _ => false

theorem LeaseColumns.OwnedBy.of_active {t : Tables} {now : Time} {lease : ExecutionLease}
    (h : ∃ a, t.requireActiveLease now lease = .ok a) : t.leaseColumns.OwnedBy lease := by
  obtain ⟨a, ha⟩ := h
  have hrow := Tables.requireActiveLease_row ha
  exact ⟨Tables.requireActiveLease_running ha, hrow.2.2.1, hrow.2.2.2⟩

/-- The Step run of a replacement is that of a running Step attempt. -/
theorem Tables.loadRun_ok {clock : Clock} {lease : ExecutionLease} {t : Tables} {run : StepRun}
    (h : t.loadRun clock lease = .ok run) :
    ∃ h ∈ t.stepAttempts, h.executionAttemptId = lease.attemptId ∧ h.status = .running ∧
      h.sequence = run.sequence := by
  simp only [loadRun, Txn.bind_ok] at h
  obtain ⟨_, _, h⟩ := h
  split at h
  · cases h
  · rename_i sequence row rest hrows
    cases h
    have hmem : (sequence, row) ∈ (sequence, row) :: rest := List.mem_cons_self
    rw [← hrows] at hmem
    obtain ⟨x, hx, hfound⟩ := List.mem_filterMap.mp hmem
    split at hfound
    · rename_i hcond
      obtain ⟨_, _, heq⟩ := Option.map_eq_some_iff.mp hfound
      exact ⟨x, hx, hcond.1, hcond.2, congrArg Prod.fst heq⟩
    · cases hfound

section

variable {settings : Settings} {lease : ExecutionLease} {Q : Fact} {α : Type}

open Tables in
theorem TableTransaction.owned_of_loud {r : Rows} {tx : TableTransaction} {c : Change}
    (hloud : tx.isLoud = true) (hguard : tx.guard = some (.execution lease))
    (h : tx.change settings r = .ok c) : r.tables.leaseColumns.OwnedBy lease := by
  cases tx <;> simp only [isLoud, Bool.false_eq_true] at hloud <;>
    simp only [guard, Option.some.injEq, Lease.execution.injEq] at hguard <;> subst hguard
  case markStarted => exact .of_active (markStarted_ok h).1
  case recordHandoverCompleted => exact .of_active (recordHandoverCompleted_ok h).1
  case markSucceeded => exact .of_active (markSucceeded_ok h).1
  case markFailed => exact .of_active (markFailed_ok h).1
  case completeOperation => exact .of_active (completeOperation_ok h).1
  case skipStepsAfter => exact .of_active (skipStepsAfter_ok h).1
  case deferRetainedRetry =>
    obtain ⟨t, ht, _⟩ := Txn.quiet_ok.mp h
    obtain ⟨a, ha, _⟩ := deferRetainedRetry_ok ht
    exact .of_active ⟨a, ha⟩
  case finalize => exact .of_active (finalize_ok h).1

/-- A transaction that moves the Steps: it is proper because of `Q`, and `after` holds once it
has committed. -/
theorem Learns.commit {e : Effect α} {tx : Choice → TableTransaction} {v : Choice → α}
    {after : α → Fact} (htable : ∀ c, e.table? c = some (tx c))
    (hperform : ∀ c w, e.perform settings c w = e.commit settings c (tx c) w (v c))
    (guarded : ∀ c, (tx c).guard = some (.execution lease)) (loud : ∀ c, (tx c).isLoud = true)
    (hproper : ∀ (c : Choice) (h : History), h.Sound → Q h.rows.tables.shape h.trail →
      (tx c).Proper h.trail h.rows.tables)
    (hcommit : ∀ (c : Choice) (h : History) (change : Change), h.Sound →
      (tx c).change settings h.rows = .ok change → Q h.rows.tables.shape h.trail →
      change.tables.leaseColumns.OwnedBy lease →
      after (v c) change.tables.shape (h.trail ++ change.stepwise)) :
    Learns settings lease Q (Program.await e) after fun x c trail =>
      x.isPlain = true ∧ (Q c trail ∨ ∃ a, after a c trail) := by
  have hstable := stable_knows settings lease
  -- What a committed change leaves to know.
  have committed : ∀ {w w' : SoundWorld} {c : Choice} {change : Change}, Knows lease Q w →
      w.history.Committed settings c.eventTime (tx c) change w'.history →
      Knows lease (after (v c)) w' := by
    intro w w' c change hw hc howned
    have hbefore := TableTransaction.owned_of_loud (loud c) (guarded c) hc.ok
    have htables : w'.tables = change.tables := hc.tables
    rw [htables] at howned ⊢
    rw [hc.trail]
    exact hcommit c w.history change w.sound hc.ok (hw hbefore) howned
  refine Triple.await (hstable Q) (fun w hw c tx' htx change hchange => ?_)
    (fun w a w' hw hstep => ?_) (fun w x w' hw hstep => ?_) (fun _ => hstable _) fun _ => hstable _
  · -- The write has to be proper where it is issued, while the lease is still owned.
    rw [htable] at htx
    cases htx
    have howned := TableTransaction.owned_of_loud (loud _) (guarded _) hchange
    exact hproper _ w.history w.sound (hw howned)
  · -- An answer means that the change was committed.
    obtain ⟨c, hstep⟩ := hstep
    rw [hperform] at hstep
    rcases Effect.commit_cases hstep with ⟨change, hc, hr | ⟨x, hr, _⟩⟩ | ⟨_, x, hr, _⟩
    · cases hr
      exact committed hw hc
    · cases hr
    · cases hr
  · -- A failure leaves the change either committed or not made.
    obtain ⟨c, hstep⟩ := hstep
    rw [hperform] at hstep
    rcases Effect.commit_cases hstep with ⟨change, hc, hr | ⟨x, hr, hplain⟩⟩ | ⟨hsame, x, hr, hplain⟩
    · cases hr
    · cases hr
      exact fun howned => ⟨hplain, .inr ⟨_, committed hw hc howned⟩⟩
    · cases hr
      intro howned
      have hworld : w'.toWorld = w.toWorld := hsame
      rw [hworld] at howned ⊢
      exact ⟨hplain, .inl (hw howned)⟩

/-- The same for a transaction that returns nothing. -/
theorem Learns.transaction {tx : Choice → TableTransaction} {P : Fact}
    (guarded : ∀ c, (tx c).guard = some (.execution lease)) (loud : ∀ c, (tx c).isLoud = true)
    (hproper : ∀ (c : Choice) (h : History), h.Sound → Q h.rows.tables.shape h.trail →
      (tx c).Proper h.trail h.rows.tables)
    (hcommit : ∀ (c : Choice) (h : History) (change : Change), h.Sound →
      (tx c).change settings h.rows = .ok change → Q h.rows.tables.shape h.trail →
      change.tables.leaseColumns.OwnedBy lease →
      P change.tables.shape (h.trail ++ change.stepwise)) :
    Learns settings lease Q (transaction tx) (fun _ => P) fun x c trail =>
      x.isPlain = true ∧ (Q c trail ∨ P c trail) := by
  refine (Learns.commit (e := .transaction tx) (v := fun _ => ()) (fun _ => rfl)
    (fun _ _ => rfl) guarded loud hproper hcommit).mono (fun _ _ _ => id) (fun _ _ _ _ => id) ?_
  rintro x c trail _ ⟨hplain, hQ | ⟨_, hafter⟩⟩
  · exact ⟨hplain, .inl hQ⟩
  · exact ⟨hplain, .inr hafter⟩

/-- A quiet effect with what its answer says. -/
theorem Learns.answer {e : Effect α} {answer : α → Prop} (hquiet : QuietEffect lease e)
    (hQ : Q.Stable)
    (hanswer : ∀ (c : Choice) (w w' : World) (a : α),
      e.perform settings (c.sealedBy lease) w = (w', .ok a) → answer a) :
    Learns settings lease Q (Program.await e) (fun a c trail => answer a ∧ Q c trail)
      fun x c trail => x.isPlain = true ∧ Q c trail := by
  have hstable := stable_knows settings lease
  refine Triple.await (hstable Q) (fun w hw => (Knows.quiet hquiet hQ hw).1)
    (fun w a w' hw hstep => ?_) (fun w x w' hw hstep => ?_) (fun _ => hstable _) fun _ => hstable _
  · obtain ⟨hw', _⟩ := (Knows.quiet hquiet hQ hw).2 _ _ hstep
    obtain ⟨c, hstep⟩ := hstep
    exact fun howned => ⟨hanswer c _ _ _ hstep, hw' howned⟩
  · obtain ⟨hw', hplain⟩ := (Knows.quiet hquiet hQ hw).2 _ _ hstep
    exact fun howned => ⟨hplain x rfl, hw' howned⟩

/-- A quiet part, and what follows it. -/
theorem Learns.after {β : Type} {p : Job α} {f : α → Job β} {ok : β → Fact}
    {error : Failure → Fact} (hp : Quiet lease p) (hQ : Q.Stable)
    (hf : ∀ a, Learns settings lease Q (f a) ok error)
    (herror : ∀ x c trail, c.Sound → x.isPlain = true → Q c trail → error x c trail) :
    Learns settings lease Q (p >>= f) ok error :=
  ((Learns.quiet hp hQ).mono (fun _ _ _ => id) (fun _ _ _ _ => id)
    fun x c trail hs h => herror x c trail hs h.1 h.2).bind hf

/-! ### Steps -/

/-- An Execution on a session, with what its run knows of the rows. -/
structure Established (mode : OperationMode) (active : Option UUID) (A : ShapeRows → Prop)
    (c : Shape) (trail : List EventSubject) : Prop where
  mode : c.mode = mode
  active : c.active = active
  session : c.session = true
  rows : A c.toShapeRows

variable {mode : OperationMode} {active : Option UUID} {A B : ShapeRows → Prop}

theorem Established.stable : Fact.Stable (Established mode active A) := by
  rintro c c' trail hunmoved ⟨hmode, hactive, hsession, hrows⟩
  have hsame := hunmoved.rows
  refine ⟨?_, ?_, hunmoved.session hsession, hsame ▸ hrows⟩
  · rw [hsame]
    exact hmode
  · rw [hsame]
    exact hactive

/-- A fact beside one that outlives the quiet transactions. -/
theorem Fact.Stable.and {φ : Prop} (hQ : Q.Stable) : Fact.Stable fun c trail => φ ∧ Q c trail :=
  fun c c' trail hunmoved h => ⟨h.1, hQ c c' trail hunmoved h.2⟩

/-- A failure without a result, of an Execution in this mode. -/
def PlainIn (mode : OperationMode) (x : Failure) : Fact :=
  fun c _ => x.isPlain = true ∧ c.mode = mode

open Tables ShapeRows in
theorem startStep_learns (sequence : ℕ) (todo : List ℕ) :
    Learns settings lease (Established mode active (Todo (sequence :: todo)))
      (startStep lease sequence)
      (fun run c trail => run.sequence = sequence ∧
        Established mode active (Busy lease.attemptId sequence todo) c trail)
      (PlainIn mode) := by
  refine Learns.after (Quiet.external _) Established.stable (fun _ => ?_)
    fun x c trail _ hplain h => ⟨hplain, h.mode⟩
  refine (Learns.commit (e := .markStarted lease sequence)
    (v := fun c => ⟨sequence, c.requestId, false, c.artifactBaseline⟩) (fun _ => rfl)
    (fun _ _ => rfl) (fun _ => rfl) (fun _ => rfl) ?_ ?_).mono (fun _ _ _ => id)
    (fun _ _ _ _ => id) ?_
  · intro c h hs hknown
    obtain ⟨s, hmem, hsequence, hactive⟩ := hknown.rows.known sequence List.mem_cons_self
    exact ⟨hknown.rows.at_, s, hmem, hsequence, hactive⟩
  · intro c h change hs hchange hknown _
    obtain ⟨hheld, _, _, step, hstep, htables, _⟩ := markStarted_ok hchange
    obtain ⟨s, hmem, hsequence, hactive⟩ := hknown.rows.known sequence List.mem_cons_self
    have hfound : step ∈ h.rows.tables.steps ∧ step.sequence = sequence :=
      ⟨List.mem_of_find?_eq_some hstep, by simpa using List.find?_some hstep⟩
    have hsame : s = step.shape := hs.shape.keyed.step_of_sequence hmem
      (List.mem_map_of_mem hfound.1) (hsequence.trans hfound.2.symm)
    have hpending : step.shape.status = .pending :=
      hsame ▸ hknown.rows.pending s hmem hactive (hsequence ▸ List.mem_cons_self)
    have htodo : h.rows.tables.shape.Todo (step.shape.sequence :: todo) := by
      rw [← hsame, hsequence]
      exact hknown.rows
    rw [htables, shape_stepStarted (stepAttempt_fresh hs.shape hfound.1 hpending
      (leaseAttempt_running hheld))]
    refine ⟨rfl, hknown.mode, hknown.active, hknown.session, ?_⟩
    have hbusy := htodo.started lease.attemptId
    rw [← hsame, hsequence] at hbusy
    rw [← hsame]
    exact hbusy
  · rintro x c trail _ ⟨hplain, h | ⟨_, _, h⟩⟩
    · exact ⟨hplain, h.mode⟩
    · exact ⟨hplain, h.mode⟩

open Tables in
/-- The Step that runs ends. -/
theorem endStep_shape {t : Tables} {now : Time} {sequence : ℕ} {todo : List ℕ}
    {status : StepStatus} {stored : StepResultDescriptor} {message : Option String}
    {trail trail' : List EventSubject}
    (hknown : Established mode active (ShapeRows.Busy lease.attemptId sequence todo) t.shape trail)
    (hA : ∀ h : StepAttemptShape, h.sequence = sequence →
      A (t.shape.toShapeRows.finished h status)) :
    Established mode active A
      (t.endStep now lease.attemptId sequence status stored message).shape trail' := by
  obtain ⟨h, _, hattempt, hsequence, _⟩ := hknown.rows.attempt
  rw [shape_endStep hattempt hsequence]
  exact ⟨hknown.mode, hknown.active, hknown.session, hA h hsequence⟩

open Tables ShapeRows in
theorem markSucceeded_learns (sequence : ℕ) (todo : List ℕ) (stored : StepResultDescriptor) :
    Learns settings lease
      (fun c trail => stored.SealedUnder lease ∧
        Established mode active (Busy lease.attemptId sequence todo) c trail)
      (markSucceeded lease sequence stored) (fun _ => Established mode active (Todo todo))
      (PlainIn mode) := by
  refine (Learns.transaction (fun _ => rfl) (fun _ => rfl) (fun c h _ hknown => ?_)
    fun c h change _ hchange hknown _ => ?_).mono (fun _ _ _ => id) (fun _ _ _ _ => id) ?_
  · exact ⟨hknown.1, hknown.2.rows.attempt⟩
  · obtain ⟨_, _, _, htables, _⟩ := markSucceeded_ok hchange
    rw [htables]
    refine endStep_shape hknown.2 fun x hx => ?_
    subst hx
    exact hknown.2.rows.succeeded
  · rintro x c trail _ ⟨hplain, h | h⟩
    · exact ⟨hplain, h.2.mode⟩
    · exact ⟨hplain, h.mode⟩

open Tables ShapeRows in
theorem markFailed_learns (sequence : ℕ) (todo : List ℕ) (stored : StepResultDescriptor)
    (retryable : Bool) :
    Learns settings lease
      (fun c trail => stored.SealedUnder lease ∧
        Established mode active (Busy lease.attemptId sequence todo) c trail)
      (markFailed lease sequence stored retryable)
      (fun _ => Established mode active (Stopped sequence))
      (fun x c trail => x.isPlain = true ∧
        (Established mode active (Busy lease.attemptId sequence todo) c trail ∨
          Established mode active (Stopped sequence) c trail)) := by
  refine (Learns.transaction (fun _ => rfl) (fun _ => rfl) (fun c h _ hknown => ?_)
    fun c h change _ hchange hknown _ => ?_).mono (fun _ _ _ => id) (fun _ _ _ _ => id) ?_
  · exact ⟨hknown.1, hknown.2.rows.attempt⟩
  · obtain ⟨_, _, _, htables, _⟩ := markFailed_ok hchange
    rw [htables]
    refine endStep_shape hknown.2 fun x hx => ?_
    subst hx
    exact hknown.2.rows.failed
  · rintro x c trail _ ⟨hplain, h | h⟩
    · exact ⟨hplain, .inl h.2⟩
    · exact ⟨hplain, .inr h⟩

open Tables ShapeRows in
theorem skipStepsAfter_learns (operationId : UUID) (sequence : ℕ) :
    Learns settings lease (Established mode (some operationId) (Stopped sequence))
      (transaction fun c => .skipStepsAfter c.clock lease operationId sequence)
      (fun _ => Established mode (some operationId) NoneOpen) (fun _ _ _ => True) := by
  refine (Learns.transaction (fun _ => rfl) (fun _ => rfl) (fun c h hs hknown => ?_)
    fun c h change hs hchange hknown _ => ?_).mono (fun _ _ _ => id) (fun _ _ _ _ => id)
    fun _ _ _ _ _ => trivial
  · exact hknown.rows.noneRunning hs.shape.statuses
  · obtain ⟨_, rfl⟩ := skipStepsAfter_ok hchange
    rw [shape_stepsSkippedAfter]
    exact ⟨hknown.mode, hknown.active, hknown.session,
      hknown.rows.skipped hs.shape.statuses hknown.active⟩

theorem completeOperation_learns {operationId : UUID} {status : OperationStatus}
    (message : Choice → Option String) (failureType : Option FailureType)
    (terminal : status.isTerminal = true)
    (hopen : status ≠ .succeeded → ∀ c : ShapeRows, A c → c.NoneOpen) :
    Learns settings lease (Established .multi (some operationId) A)
      (transaction fun c =>
        .completeOperation c.clock lease operationId status (message c) failureType)
      (fun _ _ _ => True) (fun _ _ _ => True) := by
  refine (Learns.transaction (fun _ => rfl) (fun _ => rfl) (fun c h _ hknown => ?_)
    fun _ _ _ _ _ _ _ => trivial).mono (fun _ _ _ => id) (fun _ _ _ _ => id)
    fun _ _ _ _ _ => trivial
  exact ⟨hknown.mode, hknown.session, hknown.active, terminal,
    fun hstatus => hopen hstatus _ hknown.rows⟩

open Tables in
/-- The end of a run; once it has committed the run owns the row no more. -/
theorem finalizeRun_learns {request : Choice → FinalizeRequest}
    (hproper : ∀ (c : Choice) (t : Tables) (trail : List EventSubject), t.shape.Sound →
      Q t.shape trail → t.ProperEnd (request c)) :
    Learns settings lease Q (finalizeRun lease request) (fun _ _ _ => True)
      fun x c trail => x.isPlain = true ∧ Q c trail := by
  refine (Learns.transaction (P := fun _ _ => False) (fun _ => rfl) (fun _ => rfl)
    (fun c h hs hknown => ?_) fun c h change _ hchange _ howned => ?_).mono (fun _ _ _ => id)
    (fun _ _ _ _ _ => trivial) ?_
  · exact hproper c _ _ hs.shape hknown
  · obtain ⟨_, _, _, hended, _, _, htables, _⟩ := finalize_ok hchange
    have hstatus : change.tables.execution.status = (request c).status := by
      rw [htables, finalizeSteps]
      split <;> rfl
    have hrunning := hstatus.symm.trans howned.status
    rcases hended with ⟨hq, _⟩ | ⟨hq, _⟩ <;> rw [hq] at hrunning <;> cases hrunning
  · rintro x c trail _ ⟨hplain, h | h⟩
    · exact ⟨hplain, h⟩
    · exact h.elim

/-- An end that retains nothing. -/
theorem properEnd_of_released {t : Tables} {q : FinalizeRequest} (hretain : q.retainSession = false)
    (hstrategy : q.retryStrategy ≠ .fromFailedStep)
    (hmulti : t.execution.operationMode = .multi → q.retryStrategy = .notRetryable)
    (hreleased : q.status = .succeeded → q.cleanupStatus = .succeeded)
    (hundelivered : q.failureType = some .completionFailed → q.retryStrategy = .notRetryable) :
    t.ProperEnd q :=
  ⟨hmulti, fun h => absurd h hstrategy, fun h => absurd (hretain.symm.trans h) (by decide),
    hreleased, hundelivered⟩

/-! ### Results -/

/-- The result that goes with the failure, if there is one, is sealed under the lease. -/
def Failure.SealedUnder (lease : ExecutionLease) : Failure → Prop
  | .storedTimeout _ stored | .storedOutputLimit stored | .storedExecution stored
  | .storedStep _ (some stored) => stored.SealedUnder lease
  | _ => True

theorem Failure.SealedUnder.of_plain {x : Failure} (h : x.isPlain = true) : x.SealedUnder lease := by
  cases x <;> trivial

theorem sealResult_learns (hQ : Q.Stable) :
    Learns settings lease Q (Program.await .sealResult)
      (fun stored c trail => stored.SealedUnder lease ∧ Q c trail)
      fun x c trail => x.isPlain = true ∧ Q c trail := by
  refine Learns.answer .sealResult hQ fun c w w' stored h => ?_
  simp only [Effect.perform, Choice.sealedBy] at h
  cases hstored : c.stored with
  | none =>
    rw [hstored] at h
    cases h
  | some d =>
    rw [hstored] at h
    rcases Effect.reply_cases h with ⟨_, hr⟩ | ⟨_, x, hr, _⟩
    · cases hr
      exact ⟨rfl, rfl⟩
    · cases hr

theorem preserveResult_learns (hQ : Q.Stable) :
    Learns settings lease Q (Program.await .preserveResult)
      (fun stored c trail => (∀ d, stored = some d → d.SealedUnder lease) ∧ Q c trail)
      fun x c trail => x.isPlain = true ∧ Q c trail := by
  refine Learns.answer .preserveResult hQ fun c w w' stored h d hd => ?_
  rcases Effect.reply_cases h with ⟨_, hr⟩ | ⟨_, x, hr, _⟩
  · cases hr
    simp only [Choice.sealedBy, Option.map_eq_some_iff] at hd
    obtain ⟨_, _, rfl⟩ := hd
    exact ⟨rfl, rfl⟩
  · cases hr

/-- A failure of a run, with what is still known. -/
def SealedIn (lease : ExecutionLease) (Q : Fact) (x : Failure) : Fact :=
  fun c trail => x.SealedUnder lease ∧ Q c trail

/-- The partial result of a Step, and what follows it. -/
theorem Learns.preserved {f : Option StepResultDescriptor → Job α} {ok : α → Fact}
    (hQ : Q.Stable)
    (hf : ∀ stored, Learns settings lease
      (fun c trail => (∀ d, stored = some d → d.SealedUnder lease) ∧ Q c trail) (f stored) ok
      (SealedIn lease Q)) :
    Learns settings lease Q (Program.await .preserveResult >>= f) ok (SealedIn lease Q) :=
  ((preserveResult_learns hQ).mono (fun _ _ _ => id) (fun _ _ _ _ => id)
    fun _ _ _ _ h => ⟨.of_plain h.1, h.2⟩).bind hf

/-- The run follows a Step; one it took over has not been reported as followed. -/
structure Following (mode : OperationMode) (active : Option UUID) (attemptId : UUID) (sequence : ℕ)
    (todo : List ℕ) (handover : Option HandoverRow) (c : Shape) (trail : List EventSubject) :
    Prop where
  busy : Established mode active (ShapeRows.Busy attemptId sequence todo) c trail
  unfollowed : handover.isSome = true → ∀ s ∈ c.steps, s.sequence = sequence →
    Unfollowed trail s.id attemptId

variable {attemptId : UUID} {sequence : ℕ} {todo : List ℕ} {handover : Option HandoverRow}

theorem Following.stable :
    Fact.Stable (Following mode active attemptId sequence todo handover) := by
  rintro c c' trail hunmoved ⟨hbusy, hunfollowed⟩
  refine ⟨Established.stable c c' trail hunmoved hbusy, ?_⟩
  rw [hunmoved.rows]
  exact hunfollowed

open Tables in
theorem recordHandoverCompleted_learns (row : HandoverRow) :
    Learns settings lease
      (Following mode active lease.attemptId sequence todo (some row))
      (transaction fun c => .recordHandoverCompleted c.clock lease sequence row c.answer)
      (fun _ => Established mode active (ShapeRows.Busy lease.attemptId sequence todo))
      fun x c trail => x.isPlain = true ∧
        Established mode active (ShapeRows.Busy lease.attemptId sequence todo) c trail := by
  refine (Learns.transaction (fun _ => rfl) (fun _ => rfl) (fun c h _ hknown => ?_)
    fun c h change _ hchange hknown _ => ?_).mono (fun _ _ _ => id) (fun _ _ _ _ => id) ?_
  · exact hknown.unfollowed rfl
  · obtain ⟨_, _, _, htables, _⟩ := recordHandoverCompleted_ok hchange
    rw [htables]
    have hbusy := hknown.busy
    exact ⟨hbusy.mode, hbusy.active, hbusy.session, hbusy.rows⟩
  · rintro x c trail _ ⟨hplain, h | h⟩
    · exact ⟨hplain, h.busy⟩
    · exact ⟨hplain, h⟩

/-- A Step that is followed to its end and sealed. -/
theorem follow_learns (run : StepRun) :
    Learns settings lease
      (Following mode active lease.attemptId run.sequence todo handover)
      (do
        external .follow
        handover.elim (.await .sealResult) fun row => do
          transaction fun c => .recordHandoverCompleted c.clock lease run.sequence row c.answer
          external .follow
          .await .sealResult : Job StepResultDescriptor)
      (fun stored c trail => stored.SealedUnder lease ∧
        Established mode active (ShapeRows.Busy lease.attemptId run.sequence todo) c trail)
      fun x c trail => x.isPlain = true ∧
        Established mode active (ShapeRows.Busy lease.attemptId run.sequence todo) c trail := by
  refine Learns.after (Quiet.external _) Following.stable (fun _ => ?_)
    fun x c trail _ hplain h => ⟨hplain, h.busy⟩
  cases handover with
  | none => exact (sealResult_learns Established.stable).pre fun _ _ _ h => h.busy
  | some row =>
    refine (recordHandoverCompleted_learns row).bind fun _ => ?_
    exact Learns.after (Quiet.external _) Established.stable
      (fun _ => sealResult_learns Established.stable) fun _ _ _ _ hplain h => ⟨hplain, h⟩

theorem executeWithResultStore_learns (run : StepRun) :
    Learns settings lease
      (Following mode active lease.attemptId run.sequence todo handover)
      (executeWithResultStore lease run handover)
      (fun stored c trail => stored.SealedUnder lease ∧
        Established mode active (ShapeRows.Busy lease.attemptId run.sequence todo) c trail)
      (SealedIn lease
        (Established mode active (ShapeRows.Busy lease.attemptId run.sequence todo))) := by
  have hstable : Fact.Stable
      (Established mode active (ShapeRows.Busy lease.attemptId run.sequence todo)) :=
    Established.stable
  refine Learns.handle (M := fun x c trail => x.isPlain = true ∧
    Established mode active (ShapeRows.Busy lease.attemptId run.sequence todo) c trail)
    (Learns.after (Quiet.external _) Following.stable (fun _ => ?_)
      fun x c trail _ hplain h => ⟨hplain, h.busy⟩) fun x => ?_
  · -- Submit only what has not been submitted, then follow to the end.
    by_cases hsubmitted : run.submitted = true
    · simp only [hsubmitted, not_true_eq_false, if_false]
      cases handover <;> exact follow_learns run
    · simp only [hsubmitted]
      refine Learns.after (Quiet.await (.startExecution run)) Following.stable (fun _ => ?_)
        fun x c trail _ hplain h => ⟨hplain, h.busy⟩
      exact Learns.after (Quiet.transaction (fun _ => rfl) fun _ => rfl) Following.stable
        (fun _ => by cases handover <;> exact follow_learns run)
        fun x c trail _ hplain h => ⟨hplain, h.busy⟩
  · -- What was raised decides how the result is sealed before it is raised again.
    split
    · refine (Learns.preserved hstable fun stored => ?_).pre fun _ _ _ h => h.2
      cases stored with
      | none => exact .raise fun _ _ _ h => ⟨trivial, h.2⟩
      | some stored => exact .raise fun _ _ _ h => ⟨h.1 stored rfl, h.2⟩
    · split
      · refine Learns.bind (M := fun stored c trail => stored.SealedUnder lease ∧
          Established mode active (ShapeRows.Busy lease.attemptId run.sequence todo) c trail)
          (Learns.handle ((sealResult_learns hstable).pre fun _ _ _ h => h.2) fun y => ?_)
          fun stored => .raise fun _ _ _ h => ⟨h.1, h.2⟩
        split
        · refine (Learns.preserved hstable fun stored => .raise fun _ _ _ h => ?_).pre
            fun _ _ _ h => h.2
          refine ⟨?_, h.2⟩
          cases stored with
          | none => trivial
          | some stored => exact h.1 stored rfl
        · exact .raise fun _ _ _ h => ⟨.of_plain h.1, h.2⟩
      · split
        · refine (Learns.preserved hstable fun stored => .raise fun _ _ _ h => ?_).pre
            fun _ _ _ h => h.2
          refine ⟨?_, h.2⟩
          cases stored with
          | none => trivial
          | some stored => exact h.1 stored rfl
        · exact .raise fun _ _ _ h => ⟨.of_plain h.1, h.2⟩

/-- A Step under its deadlines. -/
theorem executeStep_learns (run : StepRun) :
    Learns settings lease
      (Following mode active lease.attemptId run.sequence todo handover)
      (executeStep lease run handover)
      (fun stored c trail => stored.SealedUnder lease ∧
        Established mode active (ShapeRows.Busy lease.attemptId run.sequence todo) c trail)
      (SealedIn lease
        (Established mode active (ShapeRows.Busy lease.attemptId run.sequence todo))) := by
  have hstable : Fact.Stable
      (Established mode active (ShapeRows.Busy lease.attemptId run.sequence todo)) :=
    Established.stable
  have plain : ∀ (x : Failure) (c : Shape) (trail : List EventSubject), c.Sound →
      x.isPlain = true →
      Established mode active (ShapeRows.Busy lease.attemptId run.sequence todo) c trail →
      SealedIn lease (Established mode active
        (ShapeRows.Busy lease.attemptId run.sequence todo)) x c trail :=
    fun _ _ _ _ hplain h => ⟨.of_plain hplain, h⟩
  refine Learns.after (Quiet.await (.deadlines run.submitted)) Following.stable (fun scope => ?_)
    fun x c trail _ hplain h => ⟨.of_plain hplain, h.busy⟩
  refine Learns.handle (M := SealedIn lease
    (Established mode active (ShapeRows.Busy lease.attemptId run.sequence todo)))
    (Learns.handle (executeWithResultStore_learns run) fun x => ?_) fun x => ?_
  · split
    · refine (Learns.preserved hstable fun stored => ?_).pre fun _ _ _ h => h.2
      cases stored with
      | none => exact .raise fun _ _ _ h => ⟨trivial, h.2⟩
      | some stored => exact .raise fun _ _ _ h => ⟨h.1 stored rfl, h.2⟩
    · refine (Learns.after (Quiet.await .shuttingDown) hstable (fun down => ?_) plain).pre
        fun _ _ _ h => h.2
      split
      · exact .raise fun _ _ _ h => ⟨trivial, h⟩
      · exact Learns.after (recordInterrupted_quiet run.sequence) hstable
          (fun _ => .raise fun _ _ _ h => ⟨trivial, h⟩) plain
    · exact .raise fun _ _ _ h => h
  · -- What is recorded at the end does not change what the Step raised.
    refine Learns.bind (M := fun _ c trail => x.SealedUnder lease ∧
      Established mode active (ShapeRows.Busy lease.attemptId run.sequence todo) c trail) ?_
      fun _ => .raise fun _ _ _ h => h
    exact (Learns.quiet (Quiet.external _) hstable.and).mono (fun _ _ _ => id) (fun _ _ _ _ => id)
      fun y c trail hs h => ⟨.of_plain h.1, h.2.2⟩

/-! ### Aborts -/

theorem abortResolution_quiet (sessionId : SessionId) (status : RuntimeAbortStatus) :
    Quiet lease (abortResolution sessionId status) := by
  cases status
  all_goals first
    | exact .ret _
    | refine Quiet.bind (.onException
        ((Quiet.await (.deleteSession sessionId)).bind fun _ => .ret true)
        fun _ => .diagnostics (.ret false)) fun deleted => ?_
  all_goals
    split
    · exact .ret _
    · exact .ret _

theorem resolveRuntimeAbort_quiet (sessionId : SessionId) (failureType : FailureType) :
    Quiet lease (resolveRuntimeAbort lease sessionId failureType) := by
  refine (recordRuntimeAbort_quiet _ _ _).bind fun _ => Quiet.bind (.onException
    (.await (.abortSession sessionId)) fun _ => .diagnostics (.ret _)) fun status => ?_
  have resolved : Quiet lease (do
      let resolution ← abortResolution sessionId status
      recordRuntimeAbort lease resolution.abortStatus resolution.cleanupStatus failureType
      return resolution) :=
    (abortResolution_quiet sessionId status).bind fun _ =>
      (recordRuntimeAbort_quiet _ _ _).bind fun _ => .ret _
  split
  · exact .diagnostics resolved
  · exact resolved

/-- A retry from the failed Step keeps the session. -/
def RuntimeAbortResolution.Retains (resolution : RuntimeAbortResolution) : Prop :=
  resolution.retryStrategy = .fromFailedStep → resolution.retainSession = true

theorem abortResolution_retains (sessionId : SessionId) (status : RuntimeAbortStatus) :
    (abortResolution sessionId status).Yields RuntimeAbortResolution.Retains := by
  cases status
  case idleConfirmed => exact fun _ => rfl
  case sessionMissing =>
    intro h
    cases h
  all_goals
    refine (Yields.any _).bind fun deleted _ => ?_
    split
    all_goals
      intro h
      cases h

theorem resolveRuntimeAbort_retains (sessionId : SessionId) (failureType : FailureType) :
    (resolveRuntimeAbort lease sessionId failureType).Yields RuntimeAbortResolution.Retains := by
  refine (Yields.any _).bind fun _ _ => (Yields.any _).bind fun status _ => ?_
  have resolved : (do
      let resolution ← abortResolution sessionId status
      recordRuntimeAbort lease resolution.abortStatus resolution.cleanupStatus failureType
      return resolution : Job RuntimeAbortResolution).Yields RuntimeAbortResolution.Retains :=
    (abortResolution_retains sessionId status).bind fun _ hretains =>
      (Yields.any _).bind fun _ _ => hretains
  split
  · exact (Yields.any _).bind fun _ _ => resolved
  · exact resolved

theorem abortStep_retains (sessionId : SessionId) (failureType : FailureType)
    (stored : StepResultDescriptor) :
    (abortStep lease sessionId sequence failureType stored).Yields
      RuntimeAbortResolution.Retains :=
  (resolveRuntimeAbort_retains sessionId failureType).bind fun _ hretains =>
    (Yields.any _).bind fun _ _ => hretains

/-- The Step that hit a limit ends after its session was asked to stop it. -/
theorem abortStep_learns (sessionId : SessionId) (failureType : FailureType)
    (stored : StepResultDescriptor) :
    Learns settings lease
      (fun c trail => stored.SealedUnder lease ∧
        Established mode active (ShapeRows.Busy lease.attemptId sequence todo) c trail)
      (abortStep lease sessionId sequence failureType stored)
      (fun _ => Established mode active (ShapeRows.Stopped sequence))
      (fun x c trail => x.isPlain = true ∧
        (Established mode active (ShapeRows.Busy lease.attemptId sequence todo) c trail ∨
          Established mode active (ShapeRows.Stopped sequence) c trail)) :=
  Learns.after (resolveRuntimeAbort_quiet sessionId failureType) Established.stable.and
    (fun _ => (markFailed_learns sequence todo stored true).bind fun _ => .ret fun _ _ _ h => h)
    fun _ _ _ _ hplain h => ⟨hplain, .inl h.2⟩

/-! ### The start and the end of a run -/

/-- A quiet part of a run, with its local variables. -/
theorem Learns.runQuiet {p : Job α} {l : Locals} {error : Failure × Locals → Fact}
    (hp : Quiet lease p) (hQ : Q.Stable)
    (herror : ∀ x c trail, c.Sound → x.isPlain = true → Q c trail → error (x, l) c trail) :
    Learns settings lease Q (l.run p) (fun _ => Q) error :=
  .run ((Learns.quiet hp hQ).mono (fun _ _ _ => id) (fun _ _ _ _ => id)
    fun x c trail hs h => herror x c trail hs h.1 h.2)

theorem completeSession_learns (hQ : Q.Stable) (sessionId : SessionId) :
    Learns settings lease Q (completeSession lease sessionId) (fun _ _ _ => True)
      fun x c trail => x.isPlain = true ∧ Q c trail := by
  refine Learns.after assertExecution_quiet hQ (fun _ => ?_) fun _ _ _ _ hplain h => ⟨hplain, h⟩
  refine Learns.after (.onOtherException (.await (.deleteSession sessionId))
    fun _ => .diagnostics (.raise rfl)) hQ (fun _ => ?_) fun _ _ _ _ hplain h => ⟨hplain, h⟩
  refine finalizeRun_learns fun c t trail _ _ => ?_
  exact properEnd_of_released rfl (by decide) (fun _ => rfl) (fun _ => rfl) fun _ => rfl

theorem Shape.Unmoved.trans {c c' c'' : Shape} (h : c.Unmoved c') (h' : c'.Unmoved c'') :
    c.Unmoved c'' :=
  ⟨h'.rows.trans h.rows, fun hs => h'.session (h.session hs), h'.strategy.trans h.strategy,
    h'.retryFrom.trans h.retryFrom, h'.retried.trans h.retried⟩

/-- The rows and the events are those a claim left. -/
def Since (claimed : Shape) (trail₀ : List EventSubject) : Fact :=
  fun c trail => claimed.Unmoved c ∧ trail = trail₀

theorem Since.stable (claimed : Shape) (trail₀ : List EventSubject) :
    Fact.Stable (Since claimed trail₀) :=
  fun _ _ _ hunmoved h => ⟨h.1.trans hunmoved, h.2⟩

/-- A session that has been recorded is the row's. -/
theorem recordRuntimeSession_learns (hQ : Q.Stable) (sessionId : SessionId)
    (workspacePath notebookPath : String) :
    Learns settings lease Q
      (transaction fun c =>
        .recordRuntimeSession c.clock lease sessionId workspacePath notebookPath)
      (fun _ c trail => c.session = true ∧ Q c trail) fun x c trail => x.isPlain = true ∧ Q c trail := by
  have hstable := stable_knows settings lease
  have hquiet : QuietEffect lease (.transaction fun c =>
      .recordRuntimeSession c.clock lease sessionId workspacePath notebookPath) :=
    .transaction (fun _ => rfl) fun _ => rfl
  refine Triple.await (hstable Q) (fun w hw => (Knows.quiet hquiet hQ hw).1)
    (fun w a w' hw hstep => ?_) (fun w x w' hw hstep => ?_) (fun _ => hstable _) fun _ => hstable _
  · obtain ⟨hw', _⟩ := (Knows.quiet hquiet hQ hw).2 _ _ hstep
    refine fun howned => ⟨?_, hw' howned⟩
    obtain ⟨c, hstep⟩ := hstep
    rcases Effect.commit_cases hstep with ⟨change, hc, _⟩ | ⟨_, x, hr, _⟩
    · obtain ⟨_, rfl⟩ := Tables.recordRuntimeSession_ok hc.ok
      have htables : w'.tables.shape = _ := congrArg Tables.shape hc.tables
      rw [htables, Tables.shape_withSession]
    · cases hr
  · obtain ⟨hw', hplain⟩ := (Knows.quiet hquiet hQ hw).2 _ _ hstep
    exact fun howned => ⟨hplain x rfl, hw' howned⟩

/-- The Step attempt that a replacement follows. -/
theorem loadRun_learns (hQ : Q.Stable) :
    Learns settings lease Q (Program.await (.loadRun lease))
      (fun run c trail => (∃ h ∈ c.stepAttempts, h.attemptId = lease.attemptId ∧
        h.sequence = run.sequence ∧ h.status = .running) ∧ Q c trail)
      fun x c trail => x.isPlain = true ∧ Q c trail := by
  have hstable := stable_knows settings lease
  refine Triple.await (hstable Q) (fun w hw => (Knows.quiet .loadRun hQ hw).1)
    (fun w a w' hw hstep => ?_) (fun w x w' hw hstep => ?_) (fun _ => hstable _) fun _ => hstable _
  · obtain ⟨hw', _⟩ := (Knows.quiet .loadRun hQ hw).2 _ _ hstep
    refine fun howned => ⟨?_, hw' howned⟩
    obtain ⟨c, hstep⟩ := hstep
    obtain ⟨hsame, ⟨run, hrun, hr⟩ | ⟨x, hr, _⟩⟩ := Effect.read_cases hstep
    · cases hr
      have htables : w'.tables = w.tables := congrArg (·.history.rows.tables) hsame
      rw [htables]
      obtain ⟨h, hmem, hattempt, hstatus, hsequence⟩ := Tables.loadRun_ok hrun
      exact ⟨h.shape, List.mem_map_of_mem hmem, hattempt, hsequence, hstatus⟩
    · cases hr
  · obtain ⟨hw', hplain⟩ := (Knows.quiet .loadRun hQ hw).2 _ _ hstep
    exact fun howned => ⟨hplain x rfl, hw' howned⟩

end

end ExecutorService
