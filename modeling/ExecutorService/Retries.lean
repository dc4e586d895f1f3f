/-
Where a retry resumes.

The retry point is chosen by the run that fails, checked by the command, applied to the rows
by the repository, and read again by the claim and by the runner of the next Attempt.  Between
them the retried run may be deferred, handed over, cancelled or fail once more.  Whatever
happens until the Execution ends, the Steps before the point are left alone and the others are
run in order from the point on.

* `Resuming`, `ShapeMove.resuming` — how far a retried run has come, and that every move keeps
  account of it;
* `AcceptedRetry` — a retry of a failed Execution that the service accepts;
* `AcceptedRetry.resumed_run` — what holds at any time until the Execution ends again.
-/
import ExecutorService.AttemptNumbers
import ExecutorService.Successes

namespace ExecutorService

/-- The Step that an event starts. -/
def EventSubject.started? : EventSubject → Option UUID
  | .stepStarted stepId _ => some stepId
  | _ => none

/-- What may become of a Step that is not started. -/
inductive StepStatus.Becomes : StepStatus → StepStatus → Prop
  | same (status : StepStatus) : Becomes status status
  | skipped : Becomes .pending .skipped
  | ended {status : StepStatus} (h : status.isOpen = false) : Becomes .running status

namespace StepStatus.Becomes

variable {status status' : StepStatus}

theorem of_ended (h : Becomes status status') (hended : status.isOpen = false) :
    status' = status := by
  cases h with
  | same => rfl
  | skipped => cases hended
  | ended => cases hended

/-- A Step does not become PENDING. -/
theorem ne_pending (h : Becomes status status') (hne : status ≠ .pending) :
    status' ≠ .pending := by
  cases h with
  | same => exact hne
  | skipped => exact absurd rfl hne
  | ended hended =>
    rintro rfl
    cases hended

/-- A Step that is not started may only be skipped. -/
theorem unstarted (h : Becomes status status') (hunstarted : status = .pending ∨ status = .skipped) :
    status' = .pending ∨ status' = .skipped := by
  cases h with
  | same => exact hunstarted
  | skipped => exact .inr rfl
  | ended => rcases hunstarted with h | h <;> cases h

end StepStatus.Becomes

/-- The retried run has started `n` Steps from a sequence on, one after the other, under
Attempts that were not there before. -/
structure Resuming (fromSequence : ℕ) (ids before : List UUID) (n : ℕ) (c : Shape)
    (events : List EventSubject) : Prop where
  mode : c.mode = .single
  known : c.steps.map (·.id) = ids
  started : events.filterMap (·.started?) = (ids.drop fromSequence).take n
  below : ∀ s ∈ c.steps, s.sequence < fromSequence → s.status = .succeeded
  reached : ∀ s ∈ c.steps, fromSequence ≤ s.sequence → s.sequence < fromSequence + n →
    s.status ≠ .pending
  ahead : ∀ s ∈ c.steps, fromSequence + n ≤ s.sequence →
    s.status = .pending ∨ s.status = .skipped
  attempts : ∀ id ∈ before, id ∈ c.attempts.map (·.1)
  live : ∀ a ∈ c.attempts, a.2.isLive = true → a.1 ∉ before
  under : ∀ stepId attemptId, .stepStarted stepId attemptId ∈ events →
    attemptId ∈ c.attempts.map (·.1) ∧ attemptId ∉ before

section

variable {fromSequence n : ℕ} {ids before : List UUID} {c c' : Shape}
  {trail events news : List EventSubject}

namespace Resuming

/-- A move that starts no Step. -/
theorem moves (h : Resuming fromSequence ids before n c events) (hmode : c'.mode = c.mode)
    (hids : c'.steps.map (·.id) = c.steps.map (·.id))
    (hsteps : ∀ s' ∈ c'.steps, ∃ s ∈ c.steps, s.sequence = s'.sequence ∧
      s.status.Becomes s'.status)
    (hattempts : ∀ a ∈ c.attempts, a.1 ∈ c'.attempts.map (·.1))
    (hlive : ∀ a' ∈ c'.attempts, a'.2.isLive = true →
      (∃ a ∈ c.attempts, a.1 = a'.1 ∧ a.2.isLive = true) ∨ a'.1 ∉ c.attempts.map (·.1))
    (hnews : ∀ e ∈ news, e.started? = none) :
    Resuming fromSequence ids before n c' (events ++ news) := by
  have hkept : ∀ id ∈ c.attempts.map (·.1), id ∈ c'.attempts.map (·.1) := by
    intro id hid
    obtain ⟨a, ha, rfl⟩ := List.mem_map.mp hid
    exact hattempts a ha
  refine ⟨hmode.trans h.mode, hids.trans h.known, ?_, fun s' hs' hlt => ?_, fun s' hs' hle hlt => ?_,
    fun s' hs' hle => ?_, fun id hid => hkept id (h.attempts id hid), fun a' ha' hlive' => ?_,
    fun stepId attemptId hmem => ?_⟩
  · rw [List.filterMap_append, List.filterMap_eq_nil_iff.mpr hnews, List.append_nil]
    exact h.started
  · obtain ⟨s, hs, hsequence, hstatus⟩ := hsteps s' hs'
    have hsucceeded := h.below s hs (hsequence ▸ hlt)
    rw [hsucceeded] at hstatus
    exact hstatus.of_ended rfl
  · obtain ⟨s, hs, hsequence, hstatus⟩ := hsteps s' hs'
    exact hstatus.ne_pending (h.reached s hs (hsequence ▸ hle) (hsequence ▸ hlt))
  · obtain ⟨s, hs, hsequence, hstatus⟩ := hsteps s' hs'
    exact hstatus.unstarted (h.ahead s hs (hsequence ▸ hle))
  · rcases hlive a' ha' hlive' with ⟨a, ha, hid, hlive⟩ | hnew
    · exact hid ▸ h.live a ha hlive
    · exact fun hmem => hnew (h.attempts _ hmem)
  · rcases List.mem_append.mp hmem with hmem | hmem
    · obtain ⟨hid, hnew⟩ := h.under stepId attemptId hmem
      exact ⟨hkept _ hid, hnew⟩
    · cases hnews _ hmem

/-- A move of the Steps alone. -/
theorem steps (h : Resuming fromSequence ids before n c events) (hmode : c'.mode = c.mode)
    (hids : c'.steps.map (·.id) = c.steps.map (·.id))
    (hsteps : ∀ s' ∈ c'.steps, ∃ s ∈ c.steps, s.sequence = s'.sequence ∧
      s.status.Becomes s'.status) (hattempts : c'.attempts = c.attempts)
    (hnews : ∀ e ∈ news, e.started? = none) :
    Resuming fromSequence ids before n c' (events ++ news) := by
  refine h.moves hmode hids hsteps (fun a ha => ?_) (fun a ha hlive => .inl ⟨a, ?_, rfl, hlive⟩)
    hnews
  · rw [hattempts]
    exact List.mem_map_of_mem ha
  · rwa [hattempts] at ha

/-- A move of other rows. -/
theorem rows (h : Resuming fromSequence ids before n c events)
    (hsame : c'.toShapeRows = c.toShapeRows) (hnews : ∀ e ∈ news, e.started? = none) :
    Resuming fromSequence ids before n c' (events ++ news) := by
  refine h.steps (by rw [hsame]) (by rw [hsame]) (fun s hs => ⟨s, ?_, rfl, .same _⟩) (by rw [hsame])
    hnews
  rwa [hsame] at hs

/-- An Attempt that was live gets another status. -/
theorem attempt (h : Resuming fromSequence ids before n c events) {attemptId : UUID}
    {status status' : AttemptStatus} (hmem : (attemptId, status) ∈ c.attempts)
    (hlive : status.isLive = true)
    (hsame : c'.toShapeRows = c.withAttempt attemptId status') :
    Resuming fromSequence ids before n c' (events ++ []) := by
  have hattempts : c'.attempts = (c.withAttempt attemptId status').attempts := by rw [hsame]
  refine h.moves (by rw [hsame]; rfl) (by rw [hsame]; rfl) (fun s hs => ⟨s, ?_, rfl, .same _⟩)
    (fun a ha => ?_) (fun a' ha' hlive' => ?_) fun e he => by cases he
  · rwa [hsame] at hs
  · rw [hattempts, (ShapeRows.sameKeys_withAttempt attemptId status' c.toShapeRows).attempts]
    exact List.mem_map_of_mem ha
  · rw [hattempts] at ha'
    rcases List.mem_updateWhere.mp ha' with ⟨a, _, hid, rfl⟩ | ⟨ha', _⟩
    · exact .inl ⟨_, hmem, (beq_iff_eq.mp hid).symm, hlive⟩
    · exact .inl ⟨a', ha', rfl, hlive'⟩

/-- The next Step that starts is the first that has not. -/
theorem next (h : Resuming fromSequence ids before n c events) (hs : c.Sound) {s : StepShape}
    (hmem : s ∈ c.steps) (hat : c.At s.sequence) : s.sequence = fromSequence + n := by
  have hactive : ∀ x ∈ c.steps, some x.operationId = c.active := hs.keyed.single h.mode
  have hpending : s.status = .pending := hat.pending hmem (hactive s hmem)
  have hge : fromSequence + n ≤ s.sequence := by
    by_contra hlt
    by_cases hbelow : s.sequence < fromSequence
    · have hstatus := h.below s hmem hbelow
      rw [hpending] at hstatus
      cases hstatus
    · exact h.reached s hmem (Nat.not_lt.mp hbelow) (Nat.not_le.mp hlt) hpending
  by_contra hne
  have hlt : fromSequence + n < s.sequence := lt_of_le_of_ne hge fun heq => hne heq.symm
  -- The Step there would have succeeded before it was started.
  have hnumber : fromSequence + n ∈ c.steps.map (·.sequence) := by
    have hlast : s.sequence ∈ c.steps.map (·.sequence) := List.mem_map_of_mem hmem
    rw [hs.keyed.numbered h.mode, List.mem_range] at hlast ⊢
    exact hlt.trans hlast
  obtain ⟨x, hx, hsequence⟩ := List.mem_map.mp hnumber
  have hstatus := hat x hx (hactive x hx)
  rw [hsequence, if_neg (Nat.not_le.mpr hlt)] at hstatus
  rcases h.ahead x hx hsequence.ge with hahead | hahead <;> rw [hstatus] at hahead <;> cases hahead

/-- A Step of a SINGLE Execution is found by its sequence. -/
theorem id_at (h : Resuming fromSequence ids before n c events) (hs : c.Sound) {s : StepShape}
    (hmem : s ∈ c.steps) : ids[s.sequence]? = some s.id := by
  obtain ⟨i, hi, rfl⟩ := List.mem_iff_getElem.mp hmem
  have hsequence : (c.steps.map (·.sequence))[i]? = (List.range c.steps.length)[i]? := by
    rw [hs.keyed.numbered h.mode]
  rw [List.getElem?_map, List.getElem?_eq_getElem hi, List.getElem?_range hi] at hsequence
  have hnumber : c.steps[i].sequence = i := Option.some.inj hsequence
  rw [hnumber, ← h.known, List.getElem?_map, List.getElem?_eq_getElem hi]
  rfl

theorem start (h : Resuming fromSequence ids before n c events) (hs : c.Sound) {s : StepShape}
    {attemptId : UUID} (hmem : s ∈ c.steps) (hat : c.At s.sequence)
    (hattempt : (attemptId, .running) ∈ c.attempts) :
    Resuming fromSequence ids before (n + 1) { c with toShapeRows := c.started s attemptId }
      (events ++ [.stepStarted s.id attemptId]) := by
  have hnext := h.next hs hmem hat
  have hids : (c.started s attemptId).steps.map (·.id) = c.steps.map (·.id) :=
    (ShapeRows.sameKeys_withStep s.sequence .running c.toShapeRows).map_step
      (f := fun s => s.id) (g := fun k => k.1) fun _ => rfl
  refine ⟨h.mode, hids.trans h.known, ?_, fun x hx hlt => ?_, fun x hx hle hlt => ?_,
    fun x hx hle => ?_, h.attempts, h.live, fun stepId attemptId' hstarted => ?_⟩
  · have hid := h.id_at hs hmem
    rw [hnext, ← List.getElem?_drop] at hid
    rw [List.filterMap_append, h.started, List.take_add_one, hid]
    rfl
  · rcases ShapeRows.mem_withStep hx with ⟨x', _, hsequence, rfl⟩ | ⟨hx, _⟩
    · have hlt : x'.sequence < fromSequence := hlt
      omega
    · exact h.below x hx hlt
  · rcases ShapeRows.mem_withStep hx with ⟨x', _, _, rfl⟩ | ⟨hx, hne⟩
    · exact fun h => by cases h
    · exact h.reached x hx hle (by omega)
  · rcases ShapeRows.mem_withStep hx with ⟨x', _, hsequence, rfl⟩ | ⟨hx, _⟩
    · have hle : fromSequence + (n + 1) ≤ x'.sequence := hle
      omega
    · exact h.ahead x hx (by omega)
  · rcases List.mem_append.mp hstarted with hstarted | hstarted
    · exact h.under stepId attemptId' hstarted
    · cases List.mem_singleton.mp hstarted
      exact ⟨List.mem_map_of_mem hattempt, h.live _ hattempt rfl⟩

end Resuming

/-- A move before the Execution ends again keeps account of what the retried run has started. -/
theorem ShapeMove.resuming (h : ShapeMove trail c news c') (hs : c.Sound)
    (hopen : c.status.isTerminal = false) (hr : Resuming fromSequence ids before n c events) :
    ∃ n', Resuming fromSequence ids before n' c' (events ++ news) := by
  have none_started : ∀ e ∈ ([] : List EventSubject), e.started? = none := fun e he => by cases he
  have single : c.mode = .multi → False := fun hmulti => by cases hr.mode.symm.trans hmulti
  cases h with
  -- Moves that touch neither Steps nor Attempts.
  | stay | requestCancel | finalizing | takeOver | session | abort =>
    exact ⟨n, hr.rows rfl none_started⟩
  | handOver | handoverCompleted =>
    exact ⟨n, hr.rows rfl fun e he => by rw [List.mem_singleton.mp he]; rfl⟩
  | retry failed =>
    rw [failed] at hopen
    cases hopen
  | settle ended => exact absurd (hopen.symm.trans ended) (by decide)
  -- A new Operation and its completion need MULTI.
  | operation waiting => exact (single (hs.atStatus.waiting (.inl waiting)).1).elim
  | complete _ multi => exact (single multi).elim
  | resume _ waiting => exact ⟨n, hr.attempt waiting rfl rfl⟩
  | «defer» _ _ attempt => exact ⟨n, hr.attempt attempt rfl rfl⟩
  -- The new Attempt comes behind the rows that are there.
  | @attempt attemptId _ fresh =>
    refine ⟨n, hr.moves rfl rfl (fun s hs => ⟨s, hs, rfl, .same _⟩) (fun a ha => ?_)
      (fun a ha hlive => ?_) none_started⟩
    · exact List.mem_map_of_mem (List.mem_append_left _ ha)
    · rcases List.mem_append.mp ha with ha | ha
      · exact .inl ⟨a, ha, rfl, hlive⟩
      · rw [List.mem_singleton.mp ha]
        refine .inr fun hmem => ?_
        obtain ⟨b, hb, hid⟩ := List.mem_map.mp hmem
        exact fresh b hb hid
  | start _ _ attempt mem _ at_ => exact ⟨n + 1, hr.start hs mem at_ attempt⟩
  -- Only the running Step ends, and it is one of the retried ones.
  | @finish x status _ mem running ended =>
    have hids : (c.finished x status).steps.map (·.id) = c.steps.map (·.id) :=
      (ShapeRows.sameKeys_finished x status c.toShapeRows).map_step (f := fun s => s.id)
        (g := fun k => k.1) fun _ => rfl
    refine ⟨n, hr.steps rfl hids (fun s' hs' => ?_) rfl fun e he => ?_⟩
    · rcases ShapeRows.mem_withStep hs' with ⟨s, hmem, hsequence, rfl⟩ | ⟨hmem, _⟩
      · obtain ⟨_, y, hy, _, hysequence, hrunning⟩ := hs.statuses.runningStepAttempt x mem running
        have hsame := hs.keyed.step_of_sequence hmem hy (hsequence.trans hysequence.symm)
        refine ⟨s, hmem, rfl, ?_⟩
        rw [hsame, hrunning]
        exact .ended ended
      · exact ⟨s', hmem, rfl, .same _⟩
    · rw [List.mem_singleton.mp he]
      rfl
  | @skip p _ idle =>
    have hids : (c.skipped p).steps.map (·.id) = c.steps.map (·.id) :=
      (ShapeRows.sameKeys_skipped p c.toShapeRows).map_step (f := fun s => s.id)
        (g := fun k => k.1) fun _ => rfl
    refine ⟨n, hr.steps rfl hids (fun s' hs' => ?_) rfl none_started⟩
    rcases List.mem_updateWhere.mp hs' with ⟨s, hmem, hmatch, rfl⟩ | ⟨hmem, _⟩
    · rw [Bool.and_eq_true, beq_iff_eq] at hmatch
      refine ⟨s, hmem, rfl, ?_⟩
      rw [hmatch.2]
      exact .skipped
    · exact ⟨s', hmem, rfl, .same _⟩
  -- Closing ends or skips Steps and leaves no Attempt alive.
  | @close status stepEnd attemptEnd _ _ _ _ _ _ step _ attempt =>
    have hsame := ShapeRows.sameKeys_closed stepEnd attemptEnd c.toShapeRows
    have hids : (c.closed stepEnd attemptEnd).steps.map (·.id) = c.steps.map (·.id) :=
      hsame.map_step (f := fun s => s.id) (g := fun k => k.1) fun _ => rfl
    refine ⟨n, hr.moves rfl hids (fun s' hs' => ?_) (fun a ha => ?_) (fun a' ha' hlive => ?_)
      fun e he => ?_⟩
    · obtain ⟨s, hmem, rfl⟩ := List.mem_map.mp hs'
      refine ⟨s, hmem, rfl, ?_⟩
      rw [StepShape.closed]
      cases s.status <;> first | exact .same _ | exact .skipped | exact .ended step
    · rw [hsame.attempts]
      exact List.mem_map_of_mem ha
    · have hdead := ShapeRows.noneLive_closed attempt stepEnd c.toShapeRows a' ha'
      exact absurd (hdead.symm.trans hlive) (by decide)
    · rcases List.mem_append.mp he with he | he
      · obtain ⟨x, _, rfl⟩ := List.mem_map.mp he
        rfl
      · rw [List.mem_singleton.mp he]
        rfl

end

/-! ### Until the Execution ends again -/

namespace Deployment

variable {settings : Settings}

/-- The Execution has not ended before any of the actions. -/
def OpenAlong (settings : Settings) (s : Deployment) (actions : List Action) : Prop :=
  Transition.Along (step settings)
    (fun d _ => d.world.tables.execution.status.isTerminal = false) s actions

instance (s : Deployment) (actions : List Action) : Decidable (s.OpenAlong settings actions) :=
  inferInstanceAs (Decidable (Transition.Along _ _ _ _))

/-- A property that honest transactions keep while the Execution is open. -/
theorem Sound.until_end {P : History → Prop} {s : Deployment} (hs : s.Sound settings)
    (hstep : ∀ h tx, h.Sound → Transaction.Honest settings h tx →
      h.rows.tables.execution.status.isTerminal = false → P h → P (h.step settings tx))
    (h : P s.world.history) {actions : List Action} (hopen : s.OpenAlong settings actions) :
    P (Transition.run (Deployment.step settings) s actions).world.history := by
  refine (Transition.invariant (I := fun d : Deployment => d.Sound settings ∧ P d.world.history)
    (fun d action hd hopen => ?_) ⟨hs, h⟩ hopen).2
  refine ⟨hd.1.step action, ?_⟩
  rcases hd.1.step_history action with hsame | ⟨tx, honest, hnext⟩
  · rw [hsame]
    exact hd.2
  · rw [hnext]
    exact hstep _ tx hd.1.history honest hopen hd.2

end Deployment

/-- A retry with a new key is written down. -/
theorem Tables.retry_retries {t t' : Tables} {now : Time} {key : Key}
    (h : t.retry now key = .ok t') (hnew : key ∉ t.retries) : t'.retries = t.retries ++ [key] := by
  unfold retry at h
  rw [if_neg hnew] at h
  simp only [Txn.bind_ok] at h
  obtain ⟨e, _, h⟩ := h
  split at h
  · simp only [Txn.bind_ok, Txn.pure_ok] at h
    obtain ⟨saved, hsaved, requeued, hrequeued, rfl⟩ := h
    have hsaved := save_ok hsaved
    unfold requeueOperationForRetry at hrequeued
    split at hrequeued
    · cases hrequeued
    · cases hrequeued
      subst hsaved
      rfl
  · cases h

/-- A retry that the service accepts after some actions. -/
structure AcceptedRetry (settings : Settings) where
  submission : Submission settings
  before : List Action
  eventTime : Time
  now : Time
  key : Key
  rows : Tables
  new : key ∉ (Deployment.run settings submission before).world.tables.retries
  accepted : (Deployment.run settings submission before).world.tables.retry now key = .ok rows

namespace AcceptedRetry

variable {settings : Settings}

/-- A retry that the service accepts, with the rows it leaves. -/
def ofAccepted (submission : Submission settings) (before : List Action) (eventTime now : Time)
    (key : Key)
    (new : key ∉ (Deployment.run settings submission before).world.tables.retries)
    (h : ((Deployment.run settings submission before).world.tables.retry now
      key).toOption.isSome = true) : AcceptedRetry settings where
  submission := submission
  before := before
  eventTime := eventTime
  now := now
  key := key
  rows := ((Deployment.run settings submission before).world.tables.retry now
    key).toOption.get h
  new := new
  accepted := Txn.eq_ok_of_isSome _ h

variable (r : AcceptedRetry settings)

/-- The state that the retry finds. -/
def failed : Deployment :=
  Deployment.run settings r.submission r.before

/-- The sequence that the retry resumes at. -/
def point : ℕ :=
  r.rows.execution.retryFromSequence.getD 0

/-- The state after the retry and some actions. -/
def run (after : List Action) : Deployment :=
  Deployment.run settings r.submission
    (r.before ++ .write r.eventTime (.retry r.now r.key) rfl :: after)

/-- The Step events since the retry. -/
def events (after : List Action) : List EventSubject :=
  (r.run after).world.history.trail.drop r.failed.world.history.trail.length

/-- What holds of a retried run. -/
structure Resumed (after : List Action) : Prop where
  single : r.failed.world.tables.execution.operationMode = .single
  /-- A retry resumes at the Step that failed, or at the first one. -/
  point : r.failed.world.tables.execution.retryStrategy = .fromFailedStep ∧
      (∃ s ∈ r.failed.world.tables.steps, s.sequence = r.point ∧ s.status = .failed) ∨
    r.failed.world.tables.execution.retryStrategy = .fromStart ∧ r.point = 0
  ordered : r.failed.world.tables.steps.map (·.sequence) =
    List.range r.failed.world.tables.steps.length
  /-- The Steps before the point keep their results. -/
  kept : ∀ s ∈ r.failed.world.tables.steps, s.sequence < r.point →
    s.status = .succeeded ∧ s ∈ (r.run after).world.tables.steps
  /-- The Steps from the point on are started one after the other, all of them in a success. -/
  started : ∃ n, (r.events after).filterMap (·.started?) =
      ((r.failed.world.tables.steps.map (·.id)).drop r.point).take n ∧
    ((r.run after).world.tables.execution.status = .succeeded →
      r.failed.world.tables.steps.length ≤ r.point + n)
  /-- They run under Attempts that are later than all before. -/
  attempts : ∀ stepId attemptId, .stepStarted stepId attemptId ∈ r.events after →
    ∃ a ∈ (r.run after).world.tables.attempts, a.id = attemptId ∧
      ∀ b ∈ r.failed.world.tables.attempts, b.attemptNumber < a.attemptNumber

theorem failed_sound : r.failed.Sound settings :=
  Deployment.sound_run _ _

/-- What the retry does to the rows. -/
theorem applied : ∃ operationId,
    Tables.Retryable r.now operationId r.point r.failed.world.tables.execution ∧
      r.rows.steps = (r.failed.world.tables.steps.map fun s =>
        if s.sequence < r.point then s else Execution.resetStep r.now 0 s) ∧
      r.rows.attempts = r.failed.world.tables.attempts ∧
      r.rows.execution.operationMode = .single := by
  have hretries := Tables.retry_retries r.accepted r.new
  rcases Tables.retry_ok r.accepted with hsame | ⟨operationId, fromSequence, retryable, _, hrows⟩
  · -- A repeated key changes nothing, but this one is new.
    rw [hsame] at hretries
    exact absurd hretries (by simp)
  have hrow : (Tables.retriedRow r.now r.failed.world.tables.execution).retryFromSequence =
      some fromSequence := by
    rcases retryable.strategy with ⟨hfailed, _, hfrom⟩ | ⟨hstart, rfl, _⟩
    · simp [failed, Tables.retriedRow, Tables.saveExecution, Execution.requeued, hfailed, hfrom]
    · simp [failed, Tables.retriedRow, Tables.saveExecution, Execution.requeued,
        Execution.forgetSession, hstart]
  have hpoint : r.point = fromSequence := by
    rw [point, hrows]
    exact congrArg (·.getD 0) hrow
  rw [hpoint]
  refine ⟨operationId, retryable, ?_, ?_, ?_⟩ <;> rw [hrows]
  · exact Tables.retry_steps r.failed_sound.history.shape
  · rfl
  · exact retryable.single

theorem run_eq (after : List Action) :
    r.run after = Transition.run (Deployment.step settings) (r.run []) after := by
  show Transition.run (Deployment.step settings) _ (r.before ++ _ :: after) =
    Transition.run _ (Transition.run _ _ (r.before ++ [_])) after
  rw [← Transition.run_append, List.append_assoc]
  rfl

/-- The state that the retry leaves. -/
theorem run_nil : (r.run []).world.tables = r.rows ∧
    (r.run []).world.history.trail = r.failed.world.history.trail := by
  have hcommit : (TableTransaction.retry r.now r.key).commit settings r.eventTime
      r.failed.world.history.rows = .ok (⟨r.rows, r.failed.world.history.rows.log⟩, none) :=
    TableTransaction.commit_ok.mpr ⟨{ tables := r.rows }, _, Txn.quiet_ok.mpr ⟨_, r.accepted, rfl⟩,
      rfl, rfl, rfl⟩
  have hrun : (r.run []).world.history = r.failed.world.history.step settings
      (.table r.eventTime (.retry r.now r.key)) := by
    show (Transition.run (Deployment.step settings) _ (r.before ++ [_])).world.history = _
    rw [Transition.run_append]
    rfl
  have hrows : (r.run []).world.history.rows = ⟨r.rows, r.failed.world.history.rows.log⟩ := by
    rw [hrun]
    simp only [History.step, hcommit]
  refine ⟨congrArg Rows.tables hrows, ?_⟩
  rw [History.trail, hrows]
  rfl

theorem ordered : r.failed.world.tables.steps.map (·.sequence) =
    List.range r.failed.world.tables.steps.length := by
  obtain ⟨_, retryable, _⟩ := r.applied
  have hnumbered := r.failed_sound.history.shape.keyed.numbered retryable.single
  rw [Tables.shape, List.map_map, List.length_map] at hnumbered
  exact hnumbered

theorem failed_terminal : r.failed.world.tables.shape.status.isTerminal = true := by
  obtain ⟨_, retryable, _⟩ := r.applied
  show r.failed.world.tables.execution.status.isTerminal = true
  rw [retryable.failed]
  rfl

/-- The Steps before the point have succeeded. -/
theorem below {s : ExecutionStep} (hs : s ∈ r.failed.world.tables.steps)
    (hlt : s.sequence < r.point) : s.status = .succeeded := by
  obtain ⟨_, retryable, _⟩ := r.applied
  rcases retryable.strategy with ⟨hstrategy, _, hfrom⟩ | ⟨_, hzero, _⟩
  · have hkept := r.failed_sound.history.shape.atStatus.failed retryable.failed retryable.single
      hstrategy
    refine hkept.below s.shape (List.mem_map_of_mem hs) ?_
    show s.sequence < r.failed.world.tables.execution.retryFromSequence.getD 0
    rwa [hfrom]
  · rw [hzero] at hlt
    exact absurd hlt (Nat.not_lt_zero _)

/-- The retry point of a failed Step is the Step that failed. -/
theorem at_point : r.failed.world.tables.execution.retryStrategy = .fromFailedStep ∧
      (∃ s ∈ r.failed.world.tables.steps, s.sequence = r.point ∧ s.status = .failed) ∨
    r.failed.world.tables.execution.retryStrategy = .fromStart ∧ r.point = 0 := by
  obtain ⟨_, retryable, _⟩ := r.applied
  refine retryable.strategy.imp ?_ fun ⟨hstrategy, hzero, _⟩ => ⟨hstrategy, hzero⟩
  rintro ⟨hstrategy, _, hfrom⟩
  have hshape := r.failed_sound.history.shape
  obtain ⟨_, hmem, hsequence, hran⟩ :=
    (hshape.atStatus.failed retryable.failed retryable.single hstrategy).here
  obtain ⟨s, hs, rfl⟩ := List.mem_map.mp hmem
  refine ⟨hstrategy, s, hs, ?_, ?_⟩
  · have hsequence : s.sequence =
      r.failed.world.tables.execution.retryFromSequence.getD 0 := hsequence
    rw [hsequence, hfrom]
    rfl
  · -- Nothing runs when the Execution has ended.
    rcases hran with hrunning | hfailed
    · exact absurd hrunning ((hshape.atStatus.terminal r.failed_terminal).1.noneRunning _ hmem)
    · exact hfailed

/-- The retry has started nothing. -/
theorem resuming_start : Resuming r.point (r.failed.world.tables.steps.map (·.id))
    (r.failed.world.tables.attempts.map (·.id)) 0 r.rows.shape [] := by
  obtain ⟨_, _, hsteps, hattempts, hmode⟩ := r.applied
  have hids : r.rows.shape.attempts.map (·.1) = r.failed.world.tables.attempts.map (·.id) := by
    rw [Tables.shape, hattempts, List.map_map]
    rfl
  -- The retry resets the Steps from the point on and leaves the others.
  have hrow : ∀ x ∈ r.rows.shape.steps, ∃ s ∈ r.failed.world.tables.steps,
      s.sequence = x.sequence ∧
        x.status = if s.sequence < r.point then s.status else .pending := by
    intro x hx
    rw [Tables.shape, hsteps, List.map_map] at hx
    obtain ⟨s, hs, rfl⟩ := List.mem_map.mp hx
    refine ⟨s, hs, ?_, ?_⟩ <;> rw [Function.comp_apply] <;> split <;> rfl
  refine ⟨hmode, ?_, (List.take_zero).symm, fun x hx hlt => ?_, fun x _ hle hlt => ?_,
    fun x hx hle => ?_, fun id hid => hids ▸ hid, fun a ha hlive => ?_, fun _ _ h => by cases h⟩
  · rw [Tables.shape, hsteps, List.map_map, List.map_map]
    refine List.map_congr_left fun s _ => ?_
    rw [Function.comp_apply, Function.comp_apply]
    split <;> rfl
  · obtain ⟨s, hs, hsequence, hstatus⟩ := hrow x hx
    rw [hstatus, if_pos (hsequence ▸ hlt)]
    exact r.below hs (hsequence ▸ hlt)
  · exact absurd hlt (Nat.not_lt.mpr hle)
  · obtain ⟨s, _, hsequence, hstatus⟩ := hrow x hx
    rw [hstatus, if_neg (hsequence ▸ Nat.not_lt.mpr hle)]
    exact .inl rfl
  · rw [Tables.shape, hattempts] at ha
    have hdead := (r.failed_sound.history.shape.atStatus.terminal r.failed_terminal).2 a ha
    exact absurd (hdead.symm.trans hlive) (by decide)

variable {r} {after : List Action}

/-- How far the retried run has come. -/
theorem resuming_run (hopen : (r.run []).OpenAlong settings after) :
    ∃ events n, (r.run after).world.history.trail = r.failed.world.history.trail ++ events ∧
      Resuming r.point (r.failed.world.tables.steps.map (·.id))
        (r.failed.world.tables.attempts.map (·.id)) n (r.run after).world.tables.shape events := by
  have hs : (r.run []).Sound settings := Deployment.sound_run _ _
  obtain ⟨hrows, htrail⟩ := r.run_nil
  rw [run_eq]
  refine hs.until_end (P := fun h => ∃ events n, h.trail = r.failed.world.history.trail ++ events ∧
    Resuming r.point (r.failed.world.tables.steps.map (·.id))
      (r.failed.world.tables.attempts.map (·.id)) n h.rows.tables.shape events)
    (fun h tx hh honest hopen hP => ?_) ⟨[], 0, ?_, ?_⟩ hopen
  · -- An honest transaction is a move, and the Execution was open before it.
    obtain ⟨events, n, htrail, hresuming⟩ := hP
    obtain ⟨news, hmove, hnews⟩ := History.step_shape hh honest.proper
    obtain ⟨n', hresuming⟩ := hmove.resuming hh.shape hopen hresuming
    exact ⟨events ++ news, n', by rw [hnews, htrail, List.append_assoc], hresuming⟩
  · rw [htrail, List.append_nil]
  · have hshape : (r.run []).world.history.rows.tables.shape = r.rows.shape :=
      congrArg Tables.shape hrows
    rw [hshape]
    exact r.resuming_start

/-- The rows of the Steps before the point stay. -/
theorem kept_run (hopen : (r.run []).OpenAlong settings after) {s : ExecutionStep}
    (hs : s ∈ r.failed.world.tables.steps) (hlt : s.sequence < r.point) :
    s ∈ (r.run after).world.tables.steps := by
  have hsound : (r.run []).Sound settings := Deployment.sound_run _ _
  have hended : s.status.isOpen = false := by rw [r.below hs hlt]; rfl
  rw [run_eq]
  refine hsound.until_end (P := fun h => s ∈ h.rows.tables.steps)
    (fun h tx hh honest hopen hmem => ?_) ?_ hopen
  · cases tx with
    | log tx => exact hmem
    | table eventTime tx =>
      rcases h.step_table_or settings eventTime tx with hstep | ⟨change, log, hchange, hstep⟩
      · rw [hstep]
        exact hmem
      rw [hstep]
      by_cases hretry : ∃ now key, tx = .retry now key
      · -- Another retry waits for the end of this one.
        obtain ⟨now, key, rfl⟩ := hretry
        obtain ⟨t, ht, rfl⟩ := Txn.quiet_ok.mp hchange
        rcases Tables.retry_ok ht with rfl | ⟨_, _, retryable, _⟩
        · exact hmem
        · rw [retryable.failed] at hopen
          cases hopen
      · have hne : ∀ now key, tx ≠ .retry now key := fun now key heq => hretry ⟨now, key, heq⟩
        exact (keeps_of_change hchange hh.shape hh.fenced.sound (honest.proper change hchange)
          hne).old s hmem hended
  · have hrows : (r.run []).world.history.rows.tables = r.rows := r.run_nil.1
    obtain ⟨_, _, hsteps, _⟩ := r.applied
    rw [hrows, hsteps]
    exact List.mem_map.mpr ⟨s, hs, if_pos hlt⟩

/-- The Attempts before the retry are the first ones after it. -/
theorem attempts_run (r : AcceptedRetry settings) (after : List Action) :
    r.failed.world.tables.attemptKeys <+: (r.run after).world.tables.attemptKeys := by
  have hs := r.failed_sound
  have hrun : r.run after = Transition.run (Deployment.step settings) r.failed
      (.write r.eventTime (.retry r.now r.key) rfl :: after) := by
    show Transition.run (Deployment.step settings) _ (r.before ++ _ :: after) = _
    rw [Transition.run_append]
    rfl
  rw [hrun]
  refine hs.invariant (P := fun h => r.failed.world.tables.attemptKeys <+: h.rows.tables.attemptKeys)
    (fun h tx _ _ hstored => ?_) (List.prefix_refl _) _
  obtain ⟨_, hkeeps⟩ := h.step_attempts settings tx
  rw [hkeeps.keys]
  exact hstored.trans (List.prefix_append _ _)

/-- In a success every Step from the point on was started. -/
theorem started_all {n : ℕ} {events : List EventSubject}
    (h : Resuming r.point (r.failed.world.tables.steps.map (·.id))
      (r.failed.world.tables.attempts.map (·.id)) n (r.run after).world.tables.shape events)
    (hsucceeded : (r.run after).world.tables.execution.status = .succeeded) :
    r.failed.world.tables.steps.length ≤ r.point + n := by
  have hs : (r.run after).Sound settings := Deployment.sound_run _ _
  have hachieved : (r.run after).world.tables.Achieved := Deployment.achieved_run _ _
  have hkeyed : (r.run after).world.tables.shape.Keyed := hs.history.shape.keyed
  have hlength : (r.run after).world.tables.shape.steps.length =
      r.failed.world.tables.steps.length := by
    have hids := congrArg List.length h.known
    rwa [List.length_map, List.length_map] at hids
  by_contra hlt
  -- The first Step that was not started is pending or skipped, and a success has neither.
  rw [Nat.not_le, ← hlength] at hlt
  have hmem : r.point + n ∈ (r.run after).world.tables.shape.steps.map (·.sequence) := by
    rw [hkeyed.numbered h.mode]
    exact List.mem_range.mpr hlt
  obtain ⟨x, hx, hsequence⟩ := List.mem_map.mp hmem
  obtain ⟨s, hstep, rfl⟩ := List.mem_map.mp hx
  obtain ⟨o, ho, hactive, hstatus⟩ := (hachieved.finished hsucceeded).operation
  have hoperation : some s.operationId = (r.run after).world.tables.execution.activeOperationId :=
    hkeyed.single h.mode s.shape hx
  have hdelivered := hachieved.delivered o ho hstatus s hstep
    (Option.some.inj (hoperation.trans hactive.symm))
  have hsame : s.shape.status = .succeeded := hdelivered.succeeded
  rcases h.ahead s.shape hx hsequence.ge with hahead | hahead <;> rw [hsame] at hahead <;>
    cases hahead

/-- A retry resumes exactly where it has to: whatever happens until the Execution ends again, the
Steps before the retry point keep their results, the others are started in order from the point
on, under later Attempts, and all of them are in a success. -/
theorem resumed_run (r : AcceptedRetry settings) (after : List Action)
    (hopen : (r.run []).OpenAlong settings after) : r.Resumed after := by
  obtain ⟨_, retryable, _⟩ := r.applied
  obtain ⟨events, n, htrail, hresuming⟩ := resuming_run hopen
  have hevents : r.events after = events := by
    rw [AcceptedRetry.events, htrail, List.drop_left]
  refine ⟨retryable.single, r.at_point, r.ordered,
    fun s hs hlt => ⟨r.below hs hlt, kept_run hopen hs hlt⟩, ⟨n, ?_, started_all hresuming⟩,
    fun stepId attemptId hstarted => ?_⟩
  · rw [hevents]
    exact hresuming.started
  · -- The Attempt is none of those before, so its number is larger than theirs.
    rw [hevents] at hstarted
    obtain ⟨hmem, hnew⟩ := hresuming.under stepId attemptId hstarted
    obtain ⟨x, hx, rfl⟩ := List.mem_map.mp hmem
    obtain ⟨a, ha, rfl⟩ := List.mem_map.mp hx
    obtain ⟨txs, hhistory, _⟩ := (Deployment.sound_start r.submission).honest_run
      (r.before ++ .write r.eventTime (.retry r.now r.key) rfl :: after)
    have hattempted : (r.run after).world.history.rows.tables.Attempted := by
      show (Transition.run (Deployment.step settings) _ _).world.history.rows.tables.Attempted
      rw [hhistory]
      exact r.submission.attempted_run txs
    exact ⟨a, ha, rfl, hattempted.later (r.attempts_run after) ha hnew⟩

end AcceptedRetry

namespace Small

/-- One time for all columns, and a Target. -/
def choice (now : Time) : Choice where
  clock := clock now
  eventTime := now

/-- A run whose Worker is gone: the recovery pass ends it. -/
def expiredRun : List Action :=
  [.claim 1 1 7 20 view "workspace" "notebook",
    .pass (.recoverExpiredLease view),
    .await 1 (choice 100)]

/-- A caller retries it from the start. -/
def acceptedRetry : AcceptedRetry settings :=
  .ofAccepted (submission .single) expiredRun 200 200 500 (by decide) (by decide)

/-- The run of the retry, up to the start of its Step. -/
def secondRun : List Action :=
  .claim 201 201 8 21 view "workspace" "notebook" ::
    List.replicate 12 (.await 2 { choice 202 with sessionId := 31, historyId := 50 })

theorem resumed_secondRun : acceptedRetry.Resumed secondRun ∧
    (acceptedRetry.events secondRun).filterMap (·.started?) = [11] :=
  ⟨acceptedRetry.resumed_run secondRun (by decide), by decide⟩

end Small

end ExecutorService
