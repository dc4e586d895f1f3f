/-
Every reachable state of a deployment is sound.

Each run waits in a state from which it is safe, and what the other jobs do in between does
not touch the rows it owns: another run holds another lease, and the commands, audits and
heartbeats leave a row that is owned alone.  So every transaction that commits is proper
where it commits, and the history of a deployment is one of proper transactions.

* `rely_of_committed` — what the transactions of the others leave of a run;
* `startable_claim`, `startable_claimHandover` — what a claim leaves to its run;
* `Deployment.Sound.step` — every action keeps a sound state sound;
* `Transaction.Honest`, `Deployment.history_run` — what a deployment commits;
* `Deployment.Sound.invariant`, `Deployment.Sound.fact` — the rules for every reachable state.
-/
import ExecutorService.Deployments
import ExecutorService.Positions

namespace ExecutorService

open Program Job
open Tables (StepRun FinalizeRequest)

variable {settings : Settings} {lease : ExecutionLease}

/-- A run waits where it is safe; another job issues no transaction of a run. -/
structure Task.Sound (settings : Settings) (w : SoundWorld) (task : Task) : Prop where
  background : task.lease = none → task.program.Within Effect.Unguarded
  issued : ∀ lease, task.lease = some lease → .execution lease ∈ w.history.issued
  guarded : ∀ lease, task.lease = some lease → task.program.Within (Effect.GuardedBy lease)
  safe : ∀ lease, task.lease = some lease →
    Safe (rules settings lease) (fun _ _ => True) task.program w

/-- What holds of a deployment in every reachable state. -/
structure Deployment.Sound (settings : Settings) (s : Deployment) : Prop where
  history : s.world.history.Sound
  tasks : ∀ task ∈ s.tasks, task.Sound settings ⟨s.world, history⟩
  leases : (s.tasks.filterMap (·.lease)).Nodup

/-! ### The others -/

/-- What a transaction that is not one of the run leaves of it. -/
theorem rely_of_committed {w v : SoundWorld} {eventTime : Time} {tx : TableTransaction}
    {change : Change} (hc : w.history.Committed settings eventTime tx change v.history)
    (hissued : .execution lease ∈ w.history.issued)
    (hothers : tx.isRenewal = true ∨ ∀ l, tx.guard = some (.execution l) →
      .execution l ∈ w.history.issued ∧ l ≠ lease) :
    (rules settings lease).rely w v := by
  intro howned
  have hbound := w.sound.fenced.issued.bounded _ hissued
  have htables : v.tables = change.tables := hc.tables
  rw [htables] at howned ⊢
  have hbefore := (leaseMove_of_change hc.ok).owned hbound howned
  have hforeign : tx.isRenewal = true ∨
      ∀ l, tx.guard = some (.execution l) → l.fencingToken ≠ lease.fencingToken := by
    refine hothers.imp_right fun hothers l hguard htoken => ?_
    -- At most one issued lease is at the token of the row.
    obtain ⟨hl, hne⟩ := hothers l hguard
    have hrow := TableTransaction.token_of_guard hguard hc.ok
    have hsame := w.sound.fenced.issued.unique _ hl _ hissued hrow.symm (htoken.symm.trans hrow.symm)
    exact hne (Lease.execution.inj hsame)
  obtain ⟨hshape, hevents⟩ :=
    foreign_change w.sound.fenced.sound hc.ok hforeign hbefore howned
  rw [hc.trail, hevents, List.append_nil]
  exact ⟨hbefore, hshape, rfl⟩

theorem History.trail_log (h : History) (tx : LogTransaction) :
    (h.step settings (.log tx)).trail = h.trail := by
  rw [History.trail, History.trail, History.step]
  exact congrArg (fun rows : List EventRow =>
    (rows.map (·.payload.subject)).filter (·.isStepwise)) (tx.apply_history settings h.rows)

theorem rely_of_same {w w' : SoundWorld} (htables : w'.tables = w.tables)
    (htrail : w'.history.trail = w.history.trail) : (rules settings lease).rely w w' := by
  intro howned
  rw [htables] at howned ⊢
  exact ⟨howned, rfl, htrail⟩

theorem Task.Sound.interfere {w w' : SoundWorld} {task : Task} (h : task.Sound settings w)
    (hissued : ∀ l ∈ w.history.issued, l ∈ w'.history.issued)
    (hrely : ∀ lease, task.lease = some lease → (rules settings lease).rely w w') :
    task.Sound settings w' :=
  ⟨h.background, fun lease hl => hissued _ (h.issued lease hl), h.guarded,
    fun lease hl => (h.safe lease hl).interfere (hrely lease hl)⟩

/-! ### Claims -/

open Tables

variable {t : Tables} {trail : List EventSubject}

/-- The Steps are as they were. -/
structure Shape.SameSteps (c c' : Shape) : Prop where
  steps : c'.steps = c.steps
  active : c'.active = c.active
  session : c'.session = c.session
  strategy : c'.strategy = c.strategy
  retryFrom : c'.retryFrom = c.retryFrom
  retried : c'.retried = c.retried

theorem Shape.SameSteps.at_ {c c' : Shape} (h : c.SameSteps c') {sequence : ℕ}
    (hat : c.At sequence) : c'.At sequence := by
  unfold ShapeRows.At
  rw [h.steps, h.active]
  exact hat

theorem Shape.SameSteps.resumable {c c' : Shape} (h : c.SameSteps c') (hr : c.Resumable) :
    c'.Resumable := by
  refine ⟨?_, ?_, ?_⟩
  · rw [h.retryFrom]
    exact h.at_ hr.steps
  · rw [h.strategy, h.session, h.retried, h.retryFrom]
    exact hr.resumed
  · rw [h.strategy, h.retryFrom]
    exact hr.fresh

/-- A claimed Execution is about to run the Steps it was claimed with. -/
theorem startable_of_sameSteps {t' : Tables} (hs : t.shape.Sound) (ho : t.operationColumns.Sound)
    {view : ClaimView} {operation : Option OperationRow} (claimable : Claimable view operation t)
    (hsame : t.shape.SameSteps t'.shape)
    (hmode : t'.execution.operationMode = t.execution.operationMode)
    (hfinalizing : t'.execution.finalizationRequested = t.execution.finalizationRequested) :
    Startable t' trail none := by
  refine ⟨fun _ hsingle => ?_, fun _ hmulti hfinal hactive => ?_, fun h => by cases h⟩
  · have hsingle : t.execution.operationMode = .single := hmode.symm.trans hsingle
    have hqueued : t.execution.status = .queued := by
      rcases claimable.status with hqueued | hstatus
      · exact hqueued
      · have hmulti := (hs.atStatus.waiting (.inr hstatus)).1
        exact absurd (hsingle.symm.trans hmulti) (by decide)
    refine ⟨fun s hmem => ?_, hsame.resumable (hs.atStatus.queuedSingle hqueued hsingle).2⟩
    rw [hsame.steps] at hmem
    exact hs.atStatus.queued hqueued s hmem
  · have hmulti : t.execution.operationMode = .multi := hmode.symm.trans hmulti
    have hactive : t.execution.activeOperationId ≠ none := fun h => hactive (hsame.active.trans h)
    rcases claimable.status with hqueued | hstatus
    · exact hsame.at_ (hs.atStatus.queuedMulti hqueued hmulti).1
    · -- No Operation is open while the Execution is FINALIZING.
      obtain ⟨operationId, hid⟩ := Option.ne_none_iff_exists'.mp hactive
      have hclaim := claimable.operation
      rw [claimableOperation, ← hfinalizing, hfinal, hid] at hclaim
      obtain ⟨o, hfound, _⟩ := Option.map_eq_some_iff.mp hclaim
      have hopen := List.find?_some hfound
      simp only [Bool.and_eq_true, beq_iff_eq] at hopen
      have hsettled := ho.settled (by rw [operationColumns, hstatus]; rfl) (o.id, o.status)
        (List.mem_map_of_mem (List.mem_of_find?_eq_some hfound))
      rw [hopen.2] at hsettled
      cases hsettled

/-- A claim issues a run lease at the next token, and leaves its Steps to the run. -/
theorem startable_claim {now : Time} {worker : WorkerId} {attemptId : UUID} {view : ClaimView}
    {c : Change} (h : t.claim settings now worker attemptId view = .ok c) (hs : t.shape.Sound)
    (ho : t.operationColumns.Sound) {l : Lease} (hlease : c.lease = some l) :
    ∃ lease, l = .execution lease ∧ t.execution.fencingToken < lease.fencingToken ∧
      Startable c.tables trail none := by
  cases claim_ok h with
  | idle => cases hlease
  | @waiting operation targetId waiting claimable multi session target attempt =>
    cases hlease
    have hmem : (waiting.id, AttemptStatus.waiting) ∈ t.shape.attempts := by
      have hstatus : waiting.status = .waiting := by simpa using List.find?_some attempt
      rw [← hstatus]
      exact List.mem_map_of_mem (List.mem_of_find?_eq_some attempt)
    refine ⟨_, rfl, Nat.lt_succ_self _, startable_of_sameSteps hs ho claimable ?_ rfl rfl⟩
    rw [shape_resumeWaiting (hs.columns.attempted (List.ne_nil_of_mem hmem)).2]
    exact ⟨rfl, rfl, rfl, rfl, rfl, rfl⟩
  | resumed claimable fresh resume retained locked =>
    cases hlease
    refine ⟨_, rfl, Nat.lt_succ_self _, startable_of_sameSteps hs ho claimable ?_ rfl rfl⟩
    rw [shape_addAttempt]
    exact ⟨rfl, rfl, rfl, rfl, rfl, rfl⟩
  | started claimable fresh resume multi selected =>
    cases hlease
    refine ⟨_, rfl, Nat.lt_succ_self _, startable_of_sameSteps hs ho claimable ?_ rfl rfl⟩
    rw [shape_addAttempt]
    exact ⟨rfl, rfl, rfl, rfl, rfl, rfl⟩
  | unavailable claimable resume retained => cases hlease

/-- A released Step is taken over by the lease at the next token. -/
theorem startable_claimHandover {now : Time} {worker : WorkerId} {view : ClaimView}
    (hf : Followed trail t.shape) {l : Lease}
    (hlease : (t.claimHandover settings now worker view).lease = some l) :
    ∃ lease, l = .execution lease ∧ t.execution.fencingToken < lease.fencingToken ∧
      Startable (t.claimHandover settings now worker view).tables trail t.handover := by
  rcases claimHandover_cases settings now worker view t with hc | ⟨_, hreleased, hc | ⟨attempt, _, hc⟩⟩
  · rw [hc] at hlease
    cases hlease
  · rw [hc] at hlease
    cases hlease
  · rw [hc] at hlease ⊢
    cases hlease
    refine ⟨_, rfl, Nat.lt_succ_self _, fun hnone => ?_, fun hnone => ?_, fun _ => ?_⟩
    · rw [hnone] at hreleased
      cases hreleased
    · rw [hnone] at hreleased
      cases hreleased
    · rw [shape_takeOver]
      exact hf.released hreleased

theorem unguarded_of_guard {tx : TableTransaction} (h : tx.guard = none) :
    ∀ lease, tx.guard ≠ some (.execution lease) := by
  intro lease hguard
  rw [h] at hguard
  cases hguard

namespace Deployment

variable {s : Deployment}

/-- The jobs that are left, in a world that the run of each of them relies on. -/
theorem Sound.others (hs : s.Sound settings) {w : World} (hw : w.history.Sound) {tasks : List Task}
    (hsub : tasks.Sublist s.tasks)
    (hissued : ∀ l ∈ s.world.history.issued, l ∈ w.history.issued)
    (hrely : ∀ task ∈ tasks, ∀ lease, task.lease = some lease →
      (rules settings lease).rely ⟨s.world, hs.history⟩ ⟨w, hw⟩) :
    Deployment.Sound settings ⟨w, tasks⟩ := by
  refine ⟨hw, fun task htask => ?_, hs.leases.sublist (hsub.filterMap _)⟩
  exact (hs.tasks task (hsub.subset htask)).interfere hissued (hrely task htask)

/-- A transaction outside of the runs. -/
theorem Sound.transaction (hs : s.Sound settings) {w : World} {eventTime : Time}
    {tx : TableTransaction} {change : Change}
    (hc : s.world.history.Committed settings eventTime tx change w.history)
    (hproper : tx.Proper s.world.history.trail s.world.tables) {tasks : List Task}
    (hsub : tasks.Sublist s.tasks)
    (hothers : ∀ task ∈ tasks, ∀ lease, task.lease = some lease → tx.isRenewal = true ∨
      ∀ l, tx.guard = some (.execution l) → .execution l ∈ s.world.history.issued ∧ l ≠ lease) :
    Deployment.Sound settings ⟨w, tasks⟩ := by
  have hsound : w.history.Sound := by
    rw [hc.step]
    have hproper : (Transaction.table eventTime tx).Proper settings s.world.history :=
      fun _ _ => hproper
    exact hs.history.step hproper
  refine hs.others hsound hsub (fun l hl => ?_) fun task htask lease hlease => ?_
  · rw [hc.issued]
    exact List.mem_append_left _ hl
  · exact rely_of_committed (w := ⟨s.world, hs.history⟩) (v := ⟨w, hsound⟩) hc
      ((hs.tasks task (hsub.subset htask)).issued lease hlease) (hothers task htask lease hlease)

theorem Sound.write (hs : s.Sound settings) (eventTime : Time) {tx : TableTransaction}
    (free : tx.isFree = true) : (s.step settings (.write eventTime tx free)).Sound settings := by
  show Deployment.Sound settings ⟨{ s.world with history := _ }, s.tasks⟩
  cases hcommit : tx.commit settings eventTime s.world.history.rows with
  | error error =>
    have hsame : s.world.history.step settings (.table eventTime tx) = s.world.history := by
      rw [History.step, hcommit]
    rw [hsame]
    exact hs
  | ok committed =>
    obtain ⟨change, hc, _⟩ := History.committed hcommit
    refine hs.transaction (w := { s.world with history := _ }) hc
      (TableTransaction.proper_of_isFree free _ _) (List.Sublist.refl _) fun task _ lease _ => ?_
    by_cases hrenewal : tx.isRenewal = true
    · exact .inl hrenewal
    · exact .inr fun l hguard => absurd (TableTransaction.renews_of_isFree free hguard) hrenewal

theorem Sound.log (hs : s.Sound settings) (tx : LogTransaction) :
    (s.step settings (.log tx)).Sound settings := by
  have hsound : (s.world.history.step settings (.log tx)).Sound :=
    hs.history.step (show (Transaction.log tx).Proper settings _ from trivial)
  refine hs.others (w := { s.world with history := s.world.history.step settings (.log tx) })
    hsound (List.Sublist.refl _) (fun _ => id) fun task _ lease _ => rely_of_same rfl ?_
  exact History.trail_log s.world.history tx

/-- A job may take a place among the others when no other has its lease. -/
theorem Sound.insert {w : World} {pre post : List Task} {task : Task}
    (hs : Deployment.Sound settings ⟨w, pre ++ post⟩) (htask : task.Sound settings ⟨w, hs.history⟩)
    (hnew : ∀ lease, task.lease = some lease → ∀ other ∈ pre ++ post, other.lease ≠ some lease) :
    Deployment.Sound settings ⟨w, pre ++ task :: post⟩ := by
  refine ⟨hs.history, fun other hother => ?_, ?_⟩
  · rcases List.mem_append.mp hother with hother | hother
    · exact hs.tasks other (List.mem_append_left _ hother)
    · rcases List.mem_cons.mp hother with rfl | hother
      · exact htask
      · exact hs.tasks other (List.mem_append_right _ hother)
  · refine (List.perm_middle.filterMap _).nodup_iff.mpr ?_
    cases hlease : task.lease with
    | none =>
      rw [List.filterMap_cons_none hlease]
      exact hs.leases
    | some lease =>
      rw [List.filterMap_cons_some hlease]
      refine List.nodup_cons.mpr ⟨fun hmem => ?_, hs.leases⟩
      obtain ⟨other, hother, hsame⟩ := List.mem_filterMap.mp hmem
      exact hnew lease hlease other hother hsame

theorem Task.sound_of_unguarded {w : SoundWorld} {program : Job Unit}
    (h : program.Within Effect.Unguarded) : Task.Sound settings w ⟨none, program⟩ := by
  refine ⟨fun _ => h, ?_, ?_, ?_⟩ <;> intro l hl <;> cases hl

theorem Task.sound_of_safe {w : SoundWorld} {program : Job Unit}
    (hissued : .execution lease ∈ w.history.issued)
    (hguarded : program.Within (Effect.GuardedBy lease))
    (hsafe : Safe (rules settings lease) (fun _ _ => True) program w) :
    Task.Sound settings w ⟨some lease, program⟩ := by
  refine ⟨fun hl => ?_, fun l hl => ?_, fun l hl => ?_, fun l hl => ?_⟩ <;> cases hl
  · exact hissued
  · exact hguarded
  · exact hsafe

/-- A job may join when no other has its lease. -/
theorem Sound.join (hs : s.Sound settings) {task : Task}
    (htask : task.Sound settings ⟨s.world, hs.history⟩)
    (hnew : ∀ lease, task.lease = some lease → ∀ other ∈ s.tasks, other.lease ≠ some lease) :
    Deployment.Sound settings ⟨s.world, s.tasks ++ [task]⟩ := by
  have hsame : Deployment.Sound settings ⟨s.world, s.tasks ++ []⟩ := by
    rw [List.append_nil]
    exact hs
  exact hsame.insert htask fun lease hlease other hother => hnew lease hlease other (by simpa using hother)

/-- A claim that commits starts the run of its lease. -/
theorem Sound.claimRun (hs : s.Sound settings) (eventTime : Time) {tx : TableTransaction}
    (hguard : tx.guard = none) (workspacePath notebookPath : String)
    {handover : Option HandoverRow}
    (hstart : ∀ change l, tx.change settings s.world.history.rows = .ok change →
      change.lease = some l → ∃ lease, l = .execution lease ∧
        s.world.tables.execution.fencingToken < lease.fencingToken ∧
        Startable change.tables (s.world.history.trail ++ change.stepwise) handover) :
    (s.claim settings eventTime tx (runTask workspacePath notebookPath handover)).Sound settings := by
  unfold Deployment.claim
  cases hcommit : tx.commit settings eventTime s.world.history.rows with
  | error error => exact hs
  | ok committed =>
    obtain ⟨change, hc, htables, hlease⟩ := History.committed hcommit
    obtain ⟨rows, lease⟩ := committed
    dsimp only at htables hlease ⊢
    have hclaimed := hs.transaction
      (w := { s.world with history := s.world.history.step settings (.table eventTime tx) }) hc
      (TableTransaction.proper_of_unguarded (unguarded_of_guard hguard) _ _)
      (List.Sublist.refl _) fun task _ lease _ => .inr fun l hl =>
        absurd hl (unguarded_of_guard hguard l)
    cases lease with
    | none => simpa using hclaimed
    | some l =>
      obtain ⟨lease, rfl, htoken, hstartable⟩ := hstart change l hc.ok hlease.symm
      refine hclaimed.join (Task.sound_of_safe ?_ (run_guardedBy _ _ _) ?_)
        fun l hl task htask hsame => ?_
      · show _ ∈ (s.world.history.step settings (.table eventTime tx)).issued
        rw [hc.issued, ← hlease]
        exact List.mem_append_right _ List.mem_cons_self
      · have hrows : (s.world.history.step settings (.table eventTime tx)).rows.tables =
            rows.tables := hc.tables.trans htables.symm
        rw [← hc.trail, ← htables] at hstartable
        have hkeyed : rows.tables.shape.Keyed := by
          rw [← hrows]
          exact hclaimed.history.shape.keyed
        refine Safe.mono (run_learns hkeyed hstartable _ fun _ => ?_) fun _ _ _ => trivial
        refine ⟨?_, rfl⟩
        show Shape.Unmoved _ (s.world.history.step settings (.table eventTime tx)).rows.tables.shape
        rw [hrows]
        exact .refl _
      · cases hl
        have hbound := hs.history.fenced.issued.bounded _ ((hs.tasks task htask).issued lease hsame)
        exact absurd hbound (Nat.not_le.mpr htoken)

/-- A cancellation that is claimed starts its job. -/
theorem Sound.claimCancellation (hs : s.Sound settings) (eventTime now : Time) (worker : WorkerId) :
    (s.claim settings eventTime (.claimCancellation now worker) cancellationTask).Sound settings := by
  unfold Deployment.claim
  cases hcommit : (TableTransaction.claimCancellation now worker).commit settings eventTime
      s.world.history.rows with
  | error error => exact hs
  | ok committed =>
    obtain ⟨change, hc, _⟩ := History.committed hcommit
    obtain ⟨rows, lease⟩ := committed
    dsimp only
    have hclaimed := hs.transaction (w := { s.world with
        history := s.world.history.step settings (.table eventTime (.claimCancellation now worker)) })
      hc (TableTransaction.proper_of_unguarded (unguarded_of_guard rfl) _ _)
      (List.Sublist.refl _) fun task _ lease _ => .inr fun l hl => by cases hl
    cases lease with
    | none => simpa using hclaimed
    | some l =>
      cases l with
      | execution lease =>
        refine hclaimed.join (Task.sound_of_unguarded trivial) fun lease hl => ?_
        cases hl
      | cancellation lease =>
        refine hclaimed.join (Task.sound_of_unguarded (cancellation_unguarded _)) fun lease hl => ?_
        cases hl

/-- What the reply to an await leaves of the other jobs. -/
theorem Sound.performed {α : Type} (hs : s.Sound settings) {e : Effect α} {c : Choice} {w : World}
    {r : Except Failure α} (hperform : e.perform settings c s.world = (w, r))
    (hproper : ∀ tx, e.table? c = some tx →
      (Transaction.table c.eventTime tx).Proper settings s.world.history)
    {tasks : List Task} (hsub : tasks.Sublist s.tasks)
    (hothers : ∀ tx, e.table? c = some tx → ∀ task ∈ tasks, ∀ lease, task.lease = some lease →
      ∀ l, tx.guard = some (.execution l) → .execution l ∈ s.world.history.issued ∧ l ≠ lease) :
    Deployment.Sound settings ⟨w, tasks⟩ ∧ ∀ l ∈ s.world.history.issued, l ∈ w.history.issued := by
  rcases (Effect.perform_cases hperform).1 with hsame | ⟨tx, change, htable, hc⟩
  · have hsound : w.history.Sound := by
      rw [hsame]
      exact hs.history
    have hissued : ∀ l ∈ s.world.history.issued, l ∈ w.history.issued := by
      rw [hsame]
      exact fun _ => id
    refine ⟨hs.others hsound hsub hissued fun _ _ _ _ => rely_of_same ?_ ?_, hissued⟩
    · exact congrArg (·.rows.tables) hsame
    · exact congrArg History.trail hsame
  · refine ⟨hs.transaction hc (hproper tx htable change hc.ok) hsub fun task htask lease hlease =>
      .inr (hothers tx htable task htask lease hlease), fun l hl => ?_⟩
    rw [hc.issued]
    exact List.mem_append_left _ hl

/-- A job gets the reply to its await. -/
theorem Sound.advance (hs : s.Sound settings) (i : ℕ) (c : Choice) :
    (s.advance settings i c).Sound settings := by
  unfold Deployment.advance
  cases htask : s.tasks[i]? with
  | none => exact hs
  | some task =>
    obtain ⟨pre, post, htasks, hset, herase⟩ := List.exists_split_of_getElem? htask
    have hmem : task ∈ s.tasks := List.mem_of_getElem? htask
    have hsound := hs.tasks task hmem
    -- The other Tasks keep their place, their leases and what they may assume.
    have hsub : (pre ++ post).Sublist s.tasks := by
      rw [htasks]
      exact (List.sublist_cons_self _ _).append_left pre
    -- No other Task holds the lease of this one.
    have hdistinct : ∀ lease, task.lease = some lease → ∀ other ∈ pre ++ post,
        other.lease ≠ some lease := by
      intro lease hlease other hother hsame
      have hleases := hs.leases
      rw [htasks, (List.perm_middle.filterMap _).nodup_iff, List.filterMap_cons_some hlease] at hleases
      exact (List.nodup_cons.mp hleases).1 (List.mem_filterMap.mpr ⟨other, hother, hsame⟩)
    -- A Task that has ended is only dropped.
    have hended : Deployment.Sound settings { s with tasks := s.tasks.eraseIdx i } := by
      rw [herase]
      exact hs.others hs.history hsub (fun _ => id) fun _ _ _ _ => rely_of_same rfl rfl
    obtain ⟨lease, program⟩ := task
    dsimp only
    cases program with
    | ret _ => exact hended
    | raise _ => exact hended
    | call e k =>
      dsimp only
      rw [hset]
      cases lease with
      -- A background Task writes without a lease, so any other may take it for interference.
      | none =>
        obtain ⟨hunguarded, hrest⟩ := hsound.background rfl
        cases hperform : e.perform settings c s.world with
        | mk w r =>
          obtain ⟨hothers, _⟩ := hs.performed hperform (fun tx htable change _ =>
            TableTransaction.proper_of_unguarded (hunguarded c tx htable) _ _) hsub
            fun tx htable _ _ _ _ l hguard => absurd hguard (hunguarded c tx htable l)
          show Deployment.Sound settings ⟨(e.perform settings c s.world).1,
            pre ++ ⟨none, k (e.perform settings c s.world).2⟩ :: post⟩
          rw [hperform]
          exact hothers.insert (Task.sound_of_unguarded (hrest r)) fun _ hl => by cases hl
      -- A guarded Task may write under its own lease alone, which nobody else holds.
      | some lease =>
        obtain ⟨hguarded, hrest⟩ := hsound.guarded lease rfl
        obtain ⟨hallowed, hsafe⟩ := (hsound.safe lease rfl).call_step
        have hissued := hsound.issued lease rfl
        cases hperform : e.perform settings (c.sealedBy lease) s.world with
        | mk w r =>
          obtain ⟨hothers, hleases⟩ := hs.performed hperform (fun tx htable => hallowed c tx htable)
            hsub fun tx htable other hother l' hl' l hguard => by
              have hlease := hguard.symm.trans (hguarded (c.sealedBy lease) tx htable)
              cases hlease
              exact ⟨hissued, fun heq => hdistinct lease rfl other hother (heq ▸ hl')⟩
          show Deployment.Sound settings ⟨(e.perform settings (c.sealedBy lease) s.world).1,
            pre ++ ⟨some lease, k (e.perform settings (c.sealedBy lease) s.world).2⟩ :: post⟩
          rw [hperform]
          refine hothers.insert ?_ fun l hl => ?_
          · exact Task.sound_of_safe (hleases _ hissued) (hrest r)
              (hsafe r ⟨w, hothers.history⟩ ⟨c, hperform⟩)
          · cases hl
            exact hdistinct lease rfl

/-- Every action keeps a sound deployment sound. -/
theorem Sound.step (hs : s.Sound settings) (action : Action) :
    (s.step settings action).Sound settings := by
  have hshape := hs.history.shape
  have hoperations := hs.history.operations
  cases action with
  | write eventTime tx free => exact hs.write eventTime free
  | log tx => exact hs.log tx
  | claim eventTime now worker attemptId view workspacePath notebookPath =>
    refine hs.claimRun eventTime rfl _ _ fun change l hchange hlease => ?_
    exact startable_claim hchange hshape hoperations hlease
  | claimHandover eventTime now worker view workspacePath notebookPath =>
    refine hs.claimRun eventTime rfl _ _ fun change l hchange hlease => ?_
    cases hchange
    have hnone : (s.world.tables.claimHandover settings now worker view).stepwise = [] := by
      rcases Tables.claimHandover_cases settings now worker view s.world.tables with
        hc | ⟨_, _, hc | ⟨attempt, _, hc⟩⟩ <;> rw [hc] <;> rfl
    obtain ⟨lease, rfl, htoken, hstartable⟩ := startable_claimHandover hs.history.followed hlease
    refine ⟨lease, rfl, htoken, ?_⟩
    show Startable _ (_ ++ (s.world.tables.claimHandover settings now worker view).stepwise) _
    rw [hnone, List.append_nil]
    exact hstartable
  | claimCancellation eventTime now worker => exact hs.claimCancellation eventTime now worker
  | pass job =>
    refine hs.join (Task.sound_of_unguarded (passJob_unguarded _ job)) fun l hl => ?_
    cases hl
  | await i c => exact hs.advance i c
  | crash i =>
    refine hs.others hs.history (List.eraseIdx_sublist _ _) (fun _ => id) fun _ _ _ _ => ?_
    exact rely_of_same rfl rfl

end Deployment

/-! ### Runs -/

/-- A proper transaction; if it is one of a run, a claim issued the lease of the run. -/
structure Transaction.Honest (settings : Settings) (h : History) (tx : Transaction) : Prop where
  proper : tx.Proper settings h
  issued : ∀ eventTime tx' lease, tx = .table eventTime tx' →
    tx'.guard = some (.execution lease) → tx'.isRenewal = true ∨ .execution lease ∈ h.issued

theorem Transaction.honest_of_unguarded {h : History} {eventTime : Time} {tx : TableTransaction}
    (hguard : ∀ lease, tx.guard ≠ some (.execution lease)) :
    Transaction.Honest settings h (.table eventTime tx) := by
  refine ⟨fun _ _ => TableTransaction.proper_of_unguarded hguard _ _, ?_⟩
  rintro _ _ lease ⟨⟩ hlease
  exact absurd hlease (hguard lease)

namespace Deployment

variable {s : Deployment}

/-- A claim commits its transaction or none. -/
theorem claim_history (settings : Settings) (eventTime : Time) (tx : TableTransaction)
    (job : Tables → Lease → Task) (s : Deployment) :
    (s.claim settings eventTime tx job).world.history = s.world.history ∨
      (s.claim settings eventTime tx job).world.history =
        s.world.history.step settings (.table eventTime tx) := by
  unfold Deployment.claim
  split
  · exact .inr rfl
  · exact .inl rfl

/-- What an action commits is one honest transaction. -/
theorem Sound.step_history (hs : s.Sound settings) (action : Action) :
    (s.step settings action).world.history = s.world.history ∨
      ∃ tx : Transaction, tx.Honest settings s.world.history ∧
        (s.step settings action).world.history = s.world.history.step settings tx := by
  -- A claim either finds nothing or commits one unguarded transaction.
  have claimed : ∀ {eventTime : Time} {tx : TableTransaction} {job : Tables → Lease → Task},
      tx.guard = none →
      (s.claim settings eventTime tx job).world.history = s.world.history ∨
        ∃ tx' : Transaction, tx'.Honest settings s.world.history ∧
          (s.claim settings eventTime tx job).world.history = s.world.history.step settings tx' := by
    intro eventTime tx job hguard
    refine (claim_history settings eventTime tx job s).imp_right fun h => ⟨_, ?_, h⟩
    exact Transaction.honest_of_unguarded (unguarded_of_guard hguard)
  cases action with
  | write eventTime tx free =>
    refine .inr ⟨.table eventTime tx,
      ⟨fun _ _ => TableTransaction.proper_of_isFree free _ _, ?_⟩, rfl⟩
    rintro _ _ lease ⟨⟩ hguard
    exact .inl (TableTransaction.renews_of_isFree free hguard)
  | log tx =>
    refine .inr ⟨.log tx, ⟨trivial, ?_⟩, rfl⟩
    rintro _ _ lease ⟨⟩
  | claim eventTime now worker attemptId view workspacePath notebookPath =>
    exact claimed rfl
  | claimHandover => exact claimed rfl
  | claimCancellation => exact claimed rfl
  | pass => exact .inl rfl
  | crash => exact .inl rfl
  | await i c =>
    show (s.advance settings i c).world.history = _ ∨ ∃ tx : Transaction, _ ∧
      (s.advance settings i c).world.history = _
    unfold Deployment.advance
    cases htask : s.tasks[i]? with
    | none => exact .inl rfl
    | some task =>
      have hsound := hs.tasks task (List.mem_of_getElem? htask)
      obtain ⟨lease, program⟩ := task
      dsimp only
      cases program with
      | ret _ => exact .inl rfl
      | raise _ => exact .inl rfl
      | call e k =>
        dsimp only
        cases lease with
        -- Background Tasks commit unguarded transactions only.
        | none =>
          refine (Effect.perform_cases rfl).1.imp_right ?_
          rintro ⟨tx, change, htable, hc⟩
          exact ⟨_, Transaction.honest_of_unguarded ((hsound.background rfl).1 c tx htable), hc.step⟩
        | some lease =>
          refine (Effect.perform_cases rfl).1.imp_right ?_
          rintro ⟨tx, change, htable, hc⟩
          refine ⟨_, ⟨(hsound.safe lease rfl).call_step.1 c tx htable, ?_⟩, hc.step⟩
          rintro _ _ l ⟨⟩ hguard
          -- The lease that guards the write is the one the Task was given.
          have hlease := hguard.symm.trans ((hsound.guarded lease rfl).1 (c.sealedBy lease) tx htable)
          cases hlease
          exact .inr (hsound.issued lease rfl)

/-- What a deployment commits from a sound state on are honest transactions. -/
theorem Sound.honest_run (hs : s.Sound settings) (actions : List Action) :
    ∃ txs, (Transition.run (Deployment.step settings) s actions).world.history =
        Transition.run (History.step settings) s.world.history txs ∧
      Transition.Along (History.step settings) (fun h tx => Transaction.Honest settings h tx)
        s.world.history txs :=
  Transition.simulates (I := Deployment.Sound settings) (v := fun s => s.world.history)
    (fun _ action hs => hs.step action) (fun _ action hs => hs.step_history action) hs actions

/-- A property that honest transactions keep on sound histories holds from a sound state on. -/
theorem Sound.invariant {P : History → Prop}
    (hstep : ∀ h tx, h.Sound → Transaction.Honest settings h tx → P h → P (h.step settings tx))
    (hs : s.Sound settings) (h : P s.world.history) (actions : List Action) :
    P (Transition.run (Deployment.step settings) s actions).world.history := by
  obtain ⟨txs, hrun, halong⟩ := hs.honest_run actions
  rw [hrun]
  refine (Transition.invariant (I := fun h => h.Sound ∧ P h) (fun h tx hh hp => ?_)
    ⟨hs.history, h⟩ halong).2
  exact ⟨hh.1.step hp.proper, hstep h tx hh.1 hp hh.2⟩

/-- A fact that every move of the shape keeps holds from a sound state on. -/
theorem Sound.fact {Q : Fact}
    (hmove : ∀ trail c events c', c.Sound → ShapeMove trail c events c' → Q c trail →
      Q c' (trail ++ events))
    (hs : s.Sound settings) (h : Q s.world.tables.shape s.world.history.trail)
    (actions : List Action) :
    Q (Transition.run (Deployment.step settings) s actions).world.tables.shape
      (Transition.run (Deployment.step settings) s actions).world.history.trail := by
  refine hs.invariant (P := fun h => Q h.rows.tables.shape h.trail) (fun h tx hh hp hQ => ?_) h
    actions
  obtain ⟨events, hshape, htrail⟩ := History.step_shape hh hp.proper
  rw [htrail]
  exact hmove _ _ _ _ hh.shape hshape hQ

theorem sound_start (submission : Submission settings) :
    Deployment.Sound settings { world := { history := submission.history } } :=
  ⟨submission.sound, fun _ htask => absurd htask List.not_mem_nil, List.nodup_nil⟩

/-- Every reachable state of a deployment is sound. -/
theorem sound_run (submission : Submission settings) (actions : List Action) :
    (run settings submission actions).Sound settings :=
  Transition.invariant_of_step (I := Deployment.Sound settings) (fun _ action hs => hs.step action)
    (sound_start submission) actions

/-- The history of a deployment is one of honest transactions. -/
theorem history_run (submission : Submission settings) (actions : List Action) :
    ∃ txs, (run settings submission actions).world.history = submission.run txs ∧
      Transition.Along (History.step settings) (fun h tx => Transaction.Honest settings h tx)
        submission.history txs :=
  (sound_start submission).honest_run actions

end Deployment

end ExecutorService
