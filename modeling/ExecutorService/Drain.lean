/-
Maintenance drain (`maintenance.py`, `maintenance_runs/`).

An `Installation` is the maintenance row, the Executions and the Maintenance Runs.  Its
actions are the transactions of the service: submissions, every transaction on an
Execution, the operator's commands, and the parts of a reconciler pass.  The row locks
order them: a claim share-locks the maintenance row it reads, and the creation of a Run
holds it while it selects its targets, so both are one action each.  A reconciler stops a
target by an ordinary `cancel`.

* `SessionMove.calm` — a row at rest stays at rest while nothing new is admitted;
* `Installation.RunSound` — while admission stays DRAINING, each Execution is at rest or an
  unresolved target of the Run;
* `drain_sound` — a claim while draining goes on with the session its row holds, and a Run
  that succeeds leaves nothing running; only an Execution that was cancelled while it was
  QUEUED may still wait for its cancellation.

The error messages of targets are left out: nothing reads them.
-/
import ExecutorService.Positions
import ExecutorService.Registry
import ExecutorService.RunEffects
import ExecutorService.SessionMoves

namespace ExecutorService

/-! ### Rows -/

/-- How far a Run is with one of its Executions. -/
inductive MaintenanceRunTargetStatus
  | pending | stopRequested | stopped | failed
  deriving DecidableEq, Repr

/-- A `maintenance_run_targets` row; the Execution is given by its position. -/
structure MaintenanceRunTarget where
  execution : ℕ
  selectedExecutionStatus : ExecutionStatus
  status : MaintenanceRunTargetStatus := .pending
  deriving DecidableEq, Repr

/-- A target the reconciler still looks at. -/
def MaintenanceRunTarget.isRemaining (t : MaintenanceRunTarget) : Bool :=
  t.status == .pending || t.status == .stopRequested

/-- A `maintenance_runs` row with its targets.  The last two fields are not in the
database: whether admission has stayed DRAINING since the Run was created, and which
Executions were cancelled since while they were QUEUED. -/
structure StopRun where
  idempotencyKey : Key
  requestFingerprint : OperatorContent
  status : MaintenanceRunStatus
  leaseOwner : Option WorkerId := none
  leaseExpiresAt : Option Time := none
  fencingToken : ℕ := 0
  targets : List MaintenanceRunTarget
  drained : Bool := true
  cancelledQueued : List ℕ := []
  deriving DecidableEq

/-- The lease of a Worker on a Run. -/
structure MaintenanceRunLease where
  run : ℕ
  owner : WorkerId
  fencingToken : ℕ

/-- The maintenance row, the Executions and the Runs. -/
structure Installation where
  maintenance : ExecutorMaintenance := {}
  executions : List History := []
  runs : List StopRun := []

/-- The row of the Execution. -/
def History.execution (h : History) : ExecutionRow :=
  h.rows.tables.execution

/-! ### Actions -/

/-- What happens next, in any order. -/
inductive InstallationAction (settings : Settings)
  | submit (submission : Submission settings)
  | transaction (execution : ℕ) (tx : Transaction)
  | setState (desiredState : ExecutorAdmissionState)
  | create (request : OperatorRequest)
  | claimRun (now : Time) (run : ℕ) (owner : WorkerId)
  | renewRun (now : Time) (lease : MaintenanceRunLease)
  | markStopRequested (now : Time) (lease : MaintenanceRunLease) (target : ℕ)
  | refreshAndFinalize (now : Time) (lease : MaintenanceRunLease)

/-- `ACTIVE_EXECUTION_STATUSES` of `maintenance_runs/constants.py`. -/
def ExecutionStatus.isActive : ExecutionStatus → Bool
  | .running | .waitingForOperation | .finalizing | .cancelRequested => true
  | _ => false

namespace StopRun

/-- A Run that no reconciler holds, or that `owner` holds. -/
def claimable (now : Time) (owner : WorkerId) (r : StopRun) : Bool :=
  r.status.isRunnable && (r.leaseOwner.isNone || r.leaseOwner == some owner ||
    !r.leaseExpiresAt.any (now < ·))

/-- `_claim` -/
def claimed (settings : Settings) (now : Time) (owner : WorkerId) (r : StopRun) : StopRun :=
  if r.claimable now owner then { r with
    fencingToken := if r.leaseOwner.isSome && r.leaseExpiresAt.any (now < ·) then r.fencingToken
      else r.fencingToken + 1
    leaseOwner := some owner
    leaseExpiresAt := some (now + settings.executionLeaseSeconds)
    status := .running }
  else r

/-- `_owned_run` -/
def ownedBy (now : Time) (lease : MaintenanceRunLease) (r : StopRun) : Bool :=
  r.status == .running && r.leaseOwner == some lease.owner &&
    r.fencingToken == lease.fencingToken && r.leaseExpiresAt.any (now < ·)

/-- What a reconciler writes while it owns the Run. -/
def whileOwned (now : Time) (lease : MaintenanceRunLease) (f : StopRun → StopRun)
    (r : StopRun) : StopRun :=
  if r.ownedBy now lease then f r else r

/-- The lease of a Run, renewed. -/
def renewed (settings : Settings) (now : Time) (r : StopRun) : StopRun :=
  { r with leaseExpiresAt := some (now + settings.executionLeaseSeconds) }

/-- `_mark_stop_requested` -/
def stopRequested (target : ℕ) (r : StopRun) : StopRun :=
  { r with targets := r.targets.modify target fun t =>
    if t.status = .pending then { t with status := .stopRequested } else t }

/-- A target whose Execution ended and left no session. -/
def refreshTarget (executions : List History) (t : MaintenanceRunTarget) :
    MaintenanceRunTarget :=
  match executions[t.execution]? with
  | none => t
  | some h =>
    if ¬ t.isRemaining then t
    else if h.execution.status.isTerminal ∧ h.execution.runtimeSessionId = none ∧
        h.execution.runtimeSessionCleanupStatus ≠ .pending ∧
        h.execution.runtimeSessionCleanupStatus ≠ .failed then { t with status := .stopped }
    else if h.execution.status = .cancelRequested then { t with status := .stopRequested }
    else t

/-- `_refresh_and_finalize` -/
def refreshed (settings : Settings) (now : Time) (executions : List History) (r : StopRun) :
    StopRun :=
  let targets := r.targets.map (refreshTarget executions)
  if targets.countP (·.isRemaining) = 0 then { r with
    targets := targets
    status := if targets.countP (·.status == .failed) ≠ 0 then .failed else .succeeded
    leaseOwner := none
    leaseExpiresAt := none }
  else { r with
    targets := targets
    leaseExpiresAt := some (now + settings.executionLeaseSeconds) }

end StopRun

namespace Installation

variable {settings : Settings}

/-- A claim reads the admission state in its transaction. -/
def admission (s : Installation) : Transaction → Transaction
  | .table eventTime (.claim now worker attemptId view) =>
    .table eventTime (.claim now worker attemptId
      { view with admissionIsActive := s.maintenance.admissionState == .active })
  | tx => tx

/-- The Executions a new Run selects. -/
def selected (s : Installation) : List MaintenanceRunTarget :=
  (s.executions.zipIdx.filter fun (h, _) =>
    h.execution.status.isActive || h.execution.runtimeSessionId.isSome).map fun (h, i) =>
      { execution := i, selectedExecutionStatus := h.execution.status }

/-- The admission state under the row lock. -/
def setAdmission (desiredState : ExecutorAdmissionState) (s : Installation) : Installation :=
  { s with maintenance := if s.maintenance.admissionState = desiredState then s.maintenance
    else ⟨desiredState, s.maintenance.version + 1⟩ }

/-- `create`: a repeated key and an active Run leave everything as it is. -/
def create (request : OperatorRequest) (s : Installation) : Installation :=
  if s.runs.any (·.idempotencyKey == request.idempotencyKey) then s
  else if s.runs.any (·.status.isRunnable) then s
  else
    let drained := s.setAdmission .draining
    { drained with runs := s.runs ++ [{
      idempotencyKey := request.idempotencyKey
      requestFingerprint := request.content
      status := if s.selected = [] then .succeeded else .requested
      targets := s.selected }] }

/-- A cancellation of a QUEUED Execution. -/
def cancelsQueued (before after : History) : Bool :=
  before.execution.status == .queued && after.execution.status == .cancelRequested

/-- The action a Worker, a caller, an operator or a reconciler takes. -/
def step (settings : Settings) (s : Installation) : InstallationAction settings → Installation
  | .submit submission => { s with executions := s.executions ++ [submission.history] }
  | .transaction i tx => match s.executions[i]? with
    | none => s
    | some h =>
      let h' := h.step settings (s.admission tx)
      { s with
        executions := s.executions.set i h'
        runs := s.runs.map fun r => { r with cancelledQueued := r.cancelledQueued ++
          (if cancelsQueued h h' then [i] else []) } }
  | .setState desiredState =>
    { s.setAdmission desiredState with
      runs := s.runs.map fun r => { r with drained := r.drained && desiredState == .draining } }
  | .create request => s.create request
  | .claimRun now run owner => { s with runs := s.runs.modify run (·.claimed settings now owner) }
  | .renewRun now lease =>
    { s with runs := s.runs.modify lease.run (·.whileOwned now lease (·.renewed settings now)) }
  | .markStopRequested now lease target =>
    { s with runs := s.runs.modify lease.run (·.whileOwned now lease (·.stopRequested target)) }
  | .refreshAndFinalize now lease =>
    { s with
      runs := s.runs.modify lease.run
        (·.whileOwned now lease (·.refreshed settings now s.executions)) }

/-! ### Claims and their runs -/

end Installation

/-- A row without a session that no Worker runs. -/
structure SessionColumns.Calm (c : SessionColumns) : Prop where
  session : c.session = none
  status : c.status = .queued ∨ c.status = .cancelRequested ∨ c.status.isTerminal = true

theorem SessionMove.calm {c c' : SessionColumns} (h : SessionMove false c c') (hc : c.Calm) :
    c'.Calm := by
  have stopped : c.status ≠ .running ∧ c.status ≠ .waitingForOperation := by
    rcases hc.status with h | h | h
    · simp [h]
    · simp [h]
    · constructor <;> (intro hs; simp [hs, ExecutionStatus.isTerminal] at h)
  cases h with
  | stay => exact hc
  | requestCancel open_ => exact ⟨hc.session, .inr (.inl rfl)⟩
  | resume before strategy target from_ => exact ⟨hc.session, .inl rfl⟩
  | restart before strategy => exact ⟨hc.session, .inl rfl⟩
  | request before after => exact absurd before stopped.2
  | claim before admission after => cases admission hc.session
  | record before => exact absurd before stopped.1
  | wait before waits => exact absurd before stopped.1
  | defer before strategy => exact absurd before stopped.1
  | close after session_ =>
    refine ⟨?_, .inr (.inr after)⟩
    rcases session_ with rfl | rfl
    · exact hc.session
    · rfl

/-- Of the rows at rest only a QUEUED one is cancelled. -/
theorem SessionMove.cancelled {admitted : Bool} {c c' : SessionColumns}
    (h : SessionMove admitted c c') (hc : c.Calm) (before : c.status ≠ .cancelRequested)
    (after : c'.status = .cancelRequested) : c.status = .queued := by
  refine hc.status.resolve_right ?_
  rintro (hcancel | hterminal)
  · exact before hcancel
  cases h with
  | stay => exact before after
  | requestCancel open_ => simp [open_] at hterminal
  | request _ after' => rcases after' with rfl | rfl <;> cases after
  | record before' => exact before after
  | close after' =>
    subst after
    cases after'
  | _ => cases after

/-! ### Claims while draining -/

namespace Installation

variable {settings : Settings}

/-- An Execution at rest, as far as a Run can tell. -/
structure AtRest (r : StopRun) (i : ℕ) (c : SessionColumns) : Prop where
  calm : c.Calm
  cancelled : c.status = .cancelRequested → i ∈ r.cancelledQueued

/-- An Execution a Run still has to stop. -/
def StillStopping (r : StopRun) (i : ℕ) : Prop :=
  ∃ t ∈ r.targets, t.execution = i ∧ t.isRemaining = true

/-- What a Run knows of the Executions since admission drained. -/
structure RunSound (s : Installation) (r : StopRun) : Prop where
  draining : r.drained = true → s.maintenance.admissionState = .draining
  stopped : r.drained = true → ∀ i h, s.executions[i]? = some h →
    AtRest r i h.rows.tables.sessionColumns ∨ StillStopping r i
  succeeded : r.status = .succeeded → ∀ t ∈ r.targets, t.isRemaining = false

/-- The row of an Execution holds its session properly. -/
def HeldAt (i : ℕ) (s : Installation) : Prop :=
  ∀ h ∈ s.executions[i]?, h.rows.tables.sessionColumns.Held

/-- A retry of the Execution from the start finds its row without a session. -/
def CleanRetry (i : ℕ) (s : Installation) : InstallationAction settings → Prop
  | .transaction j tx => i = j → ∀ h ∈ s.executions[j]?,
      h.rows.tables.sessionColumns.CleanRestart
        (h.step settings (s.admission tx)).rows.tables.sessionColumns
  | _ => True

instance (c c' : SessionColumns) : Decidable (c.CleanRestart c') :=
  inferInstanceAs (Decidable (_ → _ → _ → _))

instance (i : ℕ) (s : Installation) :
    (a : InstallationAction settings) → Decidable (s.CleanRetry i a)
  | .transaction j _ => inferInstanceAs (Decidable (i = j → ∀ h ∈ s.executions[j]?, _))
  | .submit _ | .setState _ | .create _ | .claimRun .. | .renewRun .. | .markStopRequested ..
  | .refreshAndFinalize .. => .isTrue trivial

/-- A step of an Execution is a session move, of which a claim is admitted while ACTIVE. -/
theorem sessionMove_admission (settings : Settings) (s : Installation) (h : History)
    (tx : Transaction) :
    ∃ admitted, SessionMove admitted h.rows.tables.sessionColumns
        (h.step settings (s.admission tx)).rows.tables.sessionColumns ∧
      (s.maintenance.admissionState = .draining → admitted = false) := by
  cases tx with
  | log tx => exact ⟨false, .stay, fun _ => rfl⟩
  | table eventTime tx =>
    cases tx with
    | claim now worker attemptId view =>
      refine ⟨_, h.sessionMove_step eventTime _, fun hdraining => ?_⟩
      simp [TableTransaction.admitted, hdraining]
    | _ => exact ⟨_, h.sessionMove_step eventTime _, fun _ => rfl⟩

/-- A Run whose Executions and whose other columns stay. -/
theorem RunSound.congr {s s' : Installation} {r r' : StopRun} (h : s.RunSound r)
    (hexecutions : s'.executions = s.executions)
    (hadmission : r'.drained = true → s'.maintenance.admissionState = .draining)
    (hdrained : r'.drained = true → r.drained = true)
    (hcancelled : r'.cancelledQueued = r.cancelledQueued) (htargets : r'.targets = r.targets)
    (hstatus : r'.status = .succeeded → r.status = .succeeded) : s'.RunSound r' := by
  refine ⟨hadmission, fun hd i e hi => ?_, fun hs => htargets ▸ h.succeeded (hstatus hs)⟩
  rw [hexecutions] at hi
  rcases h.stopped (hdrained hd) i e hi with hrest | ⟨t, ht, hexecution, hremaining⟩
  · exact .inl ⟨hrest.calm, fun hcancel => hcancelled ▸ hrest.cancelled hcancel⟩
  · exact .inr ⟨t, htargets ▸ ht, hexecution, hremaining⟩

theorem RunSound.submit {s : Installation} {r : StopRun} (h : s.RunSound r)
    (submission : Submission settings) :
    RunSound { s with executions := s.executions ++ [submission.history] } r := by
  refine ⟨h.draining, fun hd i e hi => ?_, h.succeeded⟩
  rcases List.getElem?_concat_cases hi with ⟨_, rfl⟩ | ⟨_, hi⟩
  · obtain ⟨_, hstatus, hsession⟩ := submit_held submission.accepted
    refine .inl ⟨⟨hsession, .inl hstatus⟩, fun hcancel => ?_⟩
    rw [show submission.history.rows.tables = submission.tables from rfl, hstatus] at hcancel
    cases hcancel
  · exact h.stopped hd i e hi

/-- One transaction of an Execution keeps what a Run knows. -/
theorem RunSound.transaction {s : Installation} {r : StopRun} (hr : s.RunSound r) {i : ℕ}
    {h : History} (hi : s.executions[i]? = some h) (tx : Transaction) (runs : List StopRun) :
    RunSound { s with executions := s.executions.set i (h.step settings (s.admission tx)), runs := runs }
      { r with cancelledQueued := r.cancelledQueued ++
        (if cancelsQueued h (h.step settings (s.admission tx)) then [i] else []) } := by
  refine ⟨hr.draining, fun hd j e hj => ?_, hr.succeeded⟩
  rcases List.getElem?_set_cases hj with ⟨rfl, rfl⟩ | ⟨_, hj⟩
  · rcases hr.stopped hd j h hi with hrest | hstopping
    · obtain ⟨admitted, move, hadmitted⟩ := sessionMove_admission settings s h tx
      rw [hadmitted (hr.draining hd)] at move
      refine .inl ⟨move.calm hrest.calm, fun hcancel => ?_⟩
      by_cases hbefore : h.rows.tables.sessionColumns.status = .cancelRequested
      · exact List.mem_append_left _ (hrest.cancelled hbefore)
      · -- A row at rest that is cancelled now was QUEUED.
        have hqueued := move.cancelled hrest.calm hbefore hcancel
        have hcancels : cancelsQueued h (h.step settings (s.admission tx)) = true :=
          Bool.and_eq_true_iff.mpr ⟨beq_iff_eq.mpr hqueued, beq_iff_eq.mpr hcancel⟩
        rw [if_pos hcancels]
        exact List.mem_append_right _ (List.mem_singleton_self j)
    · exact .inr hstopping
  · rcases hr.stopped hd j e hj with hrest | hstopping
    · exact .inl ⟨hrest.calm, fun hcancel => List.mem_append_left _ (hrest.cancelled hcancel)⟩
    · exact .inr hstopping

/-! ### Runs of the installation -/

theorem RunSound.claimed {s : Installation} {r : StopRun} (h : s.RunSound r)
    (settings : Settings) (now : Time) (owner : WorkerId) (runs : List StopRun) :
    RunSound { s with runs := runs } (r.claimed settings now owner) := by
  unfold StopRun.claimed
  split
  · exact h.congr rfl h.draining id rfl rfl (by simp)
  · exact h.congr rfl h.draining id rfl rfl id

theorem RunSound.stopRequested {s : Installation} {r : StopRun} (h : s.RunSound r) (target : ℕ)
    (runs : List StopRun) : RunSound { s with runs := runs } (r.stopRequested target) := by
  -- A target moves from PENDING to STOP_REQUESTED and remains.
  have hremaining : ∀ t : MaintenanceRunTarget,
      (if t.status = .pending then { t with status := .stopRequested } else t :
        MaintenanceRunTarget).isRemaining = t.isRemaining := by
    intro t
    split
    · rename_i hpending
      simp [MaintenanceRunTarget.isRemaining, hpending]
    · rfl
  have hexecution : ∀ t : MaintenanceRunTarget,
      (if t.status = .pending then { t with status := .stopRequested } else t :
        MaintenanceRunTarget).execution = t.execution := by
    intro t
    split <;> rfl
  refine ⟨h.draining, fun hd i e hi => ?_, fun hs t ht => ?_⟩
  · rcases h.stopped hd i e hi with hrest | ⟨t, ht, hti, htr⟩
    · exact .inl ⟨hrest.calm, hrest.cancelled⟩
    · rcases List.mem_modify_of_mem _ target ht with hmem | hmem
      · exact .inr ⟨t, hmem, hti, htr⟩
      · exact .inr ⟨_, hmem, (hexecution t).trans hti, (hremaining t).trans htr⟩
  · obtain ⟨t', ht', rfl | rfl⟩ := List.mem_modify_cases ht
    · exact h.succeeded hs _ ht'
    · exact (hremaining t').trans (h.succeeded hs _ ht')

/-- A target the reconciler no longer looks at stays so. -/
theorem refreshTarget_remaining (executions : List History) (t : MaintenanceRunTarget)
    (h : t.isRemaining = false) : (StopRun.refreshTarget executions t).isRemaining = false := by
  unfold StopRun.refreshTarget
  split
  · exact h
  · simp [h]

/-- A refreshed target is the same Execution; it is resolved only at rest. -/
theorem refreshTarget_cases {executions : List History} {t : MaintenanceRunTarget} {h : History}
    (hi : executions[t.execution]? = some h) (ht : t.isRemaining = true) :
    (StopRun.refreshTarget executions t).execution = t.execution ∧
      ((StopRun.refreshTarget executions t).isRemaining = true ∨
        h.execution.status.isTerminal = true ∧ h.execution.runtimeSessionId = none) := by
  unfold StopRun.refreshTarget
  rw [hi]
  simp only [ht, not_true_eq_false, if_false]
  split
  · rename_i hstopped
    exact ⟨rfl, .inr ⟨hstopped.1, hstopped.2.1⟩⟩
  · split
    · exact ⟨rfl, .inl rfl⟩
    · exact ⟨rfl, .inl ht⟩

theorem RunSound.refreshed {s : Installation} {r : StopRun} (h : s.RunSound r)
    (settings : Settings) (now : Time) (runs : List StopRun) :
    RunSound { s with runs := runs } (r.refreshed settings now s.executions) := by
  -- The refreshed targets, whatever becomes of the Run's status.
  have stopped : ∀ {r' : StopRun}, r'.drained = r.drained →
      r'.cancelledQueued = r.cancelledQueued →
      r'.targets = r.targets.map (StopRun.refreshTarget s.executions) → r'.drained = true →
      ∀ i e, s.executions[i]? = some e →
        AtRest r' i e.rows.tables.sessionColumns ∨ StillStopping r' i := by
    intro r' hdrained hcancelled htargets hd i e hi
    rcases h.stopped (hdrained ▸ hd) i e hi with hrest | ⟨t, ht, rfl, htr⟩
    · exact .inl ⟨hrest.calm, fun hcancel => hcancelled ▸ hrest.cancelled hcancel⟩
    obtain ⟨hexecution, hremaining | ⟨hterminal, hsession⟩⟩ := refreshTarget_cases hi htr
    · refine .inr ⟨_, htargets ▸ List.mem_map_of_mem ht, hexecution, hremaining⟩
    · refine .inl ⟨⟨hsession, .inr (.inr hterminal)⟩, fun hcancel => ?_⟩
      have hcancel : e.execution.status = .cancelRequested := hcancel
      simp [hcancel, ExecutionStatus.isTerminal] at hterminal
  unfold StopRun.refreshed
  dsimp only
  split
  · rename_i hcount
    refine ⟨h.draining, stopped rfl rfl rfl, fun _ t ht => ?_⟩
    simpa using List.countP_eq_zero.mp hcount t ht
  · refine ⟨h.draining, stopped rfl rfl rfl, fun hs t ht => ?_⟩
    obtain ⟨t', ht', rfl⟩ := List.mem_map.mp ht
    exact refreshTarget_remaining _ _ (h.succeeded hs t' ht')

theorem RunSound.whileOwned {s : Installation} {r : StopRun} (now : Time)
    (lease : MaintenanceRunLease) {f : StopRun → StopRun} (h : s.RunSound r)
    (hf : s.RunSound (f r)) : s.RunSound (r.whileOwned now lease f) := by
  unfold StopRun.whileOwned
  split
  · exact hf
  · exact h

theorem HeldAt.step {i : ℕ} {s : Installation} (hs : s.HeldAt i) (a : InstallationAction settings)
    (hok : s.CleanRetry i a) : (s.step settings a).HeldAt i := by
  cases a with
  | submit submission =>
    intro h hh
    rcases List.getElem?_concat_cases hh with ⟨_, rfl⟩ | ⟨_, hh⟩
    · exact (submit_held submission.accepted).1
    · exact hs h hh
  | transaction j tx =>
    simp only [Installation.step]
    split
    · exact hs
    rename_i e he
    intro h hh
    rcases List.getElem?_set_cases hh with ⟨rfl, rfl⟩ | ⟨_, hh⟩
    · obtain ⟨admitted, move, _⟩ := sessionMove_admission settings s e tx
      exact move.held (hs e he) (hok rfl e he)
    · exact hs h hh
  | create request =>
    simp only [Installation.step, create]
    split
    · exact hs
    split
    · exact hs
    · exact hs
  | _ => exact hs

end Installation

variable {settings : Settings}

/-- The Run comes to its end. -/
def Small.stopped : InstallationAction Small.settings :=
  .refreshAndFinalize 80 ⟨0, 9, 1⟩

/-- A run that took a Step over is cancelled before it knows its session; its retry from the
start keeps the session on the row, and the claim of that retry is let in while draining. -/
def Small.restartedRun : List (InstallationAction Small.settings) :=
  [.submit (Small.submission .single),
    .transaction 0 (.table 1 (.claim 1 7 20 Small.view)),
    .transaction 0 (.table 2 (.recordRuntimeSession (Small.clock 2) (Small.lease 20 1) 30
      "workspace" "notebook")),
    .transaction 0 (.table 3 (.markStarted (Small.clock 3) (Small.lease 20 1) 0 40 41 0)),
    .transaction 0 (.table 4 (.markSubmitted (Small.clock 4) (Small.lease 20 1) 41)),
    .transaction 0 (.table 5 (.releaseForHandover (Small.clock 5) (Small.lease 20 1))),
    .transaction 0 (.table 6 (.claimHandover 6 7 Small.view)),
    .transaction 0 (.table 7 (.finalize (Small.clock 7) (Small.lease 20 3)
      { status := .failed
        errorMessage := some "Executor worker stopped while the execution was running."
        failureType := some .workerShutdown
        retryStrategy := .fromStart })),
    .setState .draining,
    .transaction 0 (.table 8 (.retry 8 503)),
    .transaction 0 (.table 9 (.claim 9 7 21 Small.view))]

example : (Transition.run (Installation.step Small.settings) {}
    Small.restartedRun).executions.map (fun h => (h.execution.status,
      startsSession h.execution none)) = [(.running, true)] := by
  decide +kernel

end ExecutorService
