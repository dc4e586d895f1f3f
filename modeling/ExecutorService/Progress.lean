/-
How far a run has got with the Steps of its Operation.

Between its transactions a run knows which Steps are left to it: before a Step `Todo`,
while one runs `Busy`, and after one failed `Stopped`.  They say of the rows what the
transactions of the run rely on, and each transaction turns one of them into the next.

* `Todo.started`, `Busy.succeeded`, `Busy.failed`, `Stopped.skipped` — the transactions
  of a run on them;
* `Shape.Resumable.todo`, `ShapeRows.Statuses.busy` — what a claim starts with.
-/
import ExecutorService.Shapes

namespace ExecutorService

namespace ShapeRows

variable {c : ShapeRows}

/-- The Steps of the active Operation that are left are PENDING, those before them have
succeeded. -/
structure Todo (todo : List ℕ) (c : ShapeRows) : Prop where
  sorted : todo.Pairwise (· < ·)
  known : ∀ n ∈ todo, ∃ s ∈ c.steps, s.sequence = n ∧ some s.operationId = c.active
  pending : ∀ s ∈ c.steps, some s.operationId = c.active → s.sequence ∈ todo → s.status = .pending
  done : ∀ s ∈ c.steps, some s.operationId = c.active → s.sequence ∉ todo →
    s.status = .succeeded ∧ ∀ n ∈ todo, s.sequence < n

/-- An Attempt runs a Step, and the Steps after it are left. -/
structure Busy (attemptId : UUID) (sequence : ℕ) (todo : List ℕ) (c : ShapeRows) : Prop where
  sorted : (sequence :: todo).Pairwise (· < ·)
  known : ∀ n ∈ sequence :: todo, ∃ s ∈ c.steps, s.sequence = n ∧ some s.operationId = c.active
  attempt : ∃ h ∈ c.stepAttempts, h.attemptId = attemptId ∧ h.sequence = sequence ∧
    h.status = .running
  pending : ∀ s ∈ c.steps, some s.operationId = c.active → s.sequence ∈ todo → s.status = .pending
  done : ∀ s ∈ c.steps, some s.operationId = c.active → s.sequence ∉ sequence :: todo →
    s.status = .succeeded ∧ ∀ n ∈ sequence :: todo, s.sequence < n

/-- A Step of the active Operation has failed and none after it has run. -/
structure Stopped (sequence : ℕ) (c : ShapeRows) : Prop where
  known : ∃ s ∈ c.steps, s.sequence = sequence ∧ some s.operationId = c.active
  below : ∀ s ∈ c.steps, some s.operationId = c.active → s.sequence < sequence →
    s.status = .succeeded
  here : ∀ s ∈ c.steps, some s.operationId = c.active → s.sequence = sequence →
    s.status = .failed
  above : ∀ s ∈ c.steps, some s.operationId = c.active → sequence < s.sequence →
    s.status = .pending

/-- Every Step before a sequence has succeeded, the one there has run and has not. -/
structure FailedAt (sequence : ℕ) (c : ShapeRows) : Prop where
  below : ∀ s ∈ c.steps, s.sequence < sequence → s.status = .succeeded
  here : ∃ s ∈ c.steps, s.sequence = sequence ∧ (s.status = .running ∨ s.status = .failed)

/-! ### One Step -/

theorem Todo.at_ {sequence : ℕ} {todo : List ℕ} (h : c.Todo (sequence :: todo)) :
    c.At sequence := by
  intro s hs hactive
  have hafter : ∀ n ∈ todo, sequence < n := fun _ hn => List.rel_of_pairwise_cons h.sorted hn
  by_cases hmem : s.sequence ∈ sequence :: todo
  · have hle : sequence ≤ s.sequence := by
      rcases List.mem_cons.mp hmem with heq | hin
      · exact heq.ge
      · exact (hafter _ hin).le
    rw [if_pos hle]
    exact h.pending s hs hactive hmem
  · obtain ⟨hsucceeded, hlt⟩ := h.done s hs hactive hmem
    rw [if_neg (Nat.not_le.mpr (hlt sequence List.mem_cons_self))]
    exact hsucceeded

theorem Todo.started {todo : List ℕ} {s : StepShape} (h : c.Todo (s.sequence :: todo))
    (attemptId : UUID) : (c.started s attemptId).Busy attemptId s.sequence todo := by
  have hne : ∀ n ∈ todo, n ≠ s.sequence :=
    fun n hn => (List.rel_of_pairwise_cons h.sorted hn).ne'
  refine ⟨h.sorted, fun n hn => ?_,
    ⟨_, List.mem_append_right _ (List.mem_singleton_self _), rfl, rfl, rfl⟩,
    fun x hx hactive hmem => ?_, fun x hx hactive hmem => ?_⟩
  · obtain ⟨x, hx, hsequence, hactive⟩ := h.known n hn
    obtain ⟨x', hx', hid, hoperation, hsequence'⟩ :=
      (sameKeys_withStep s.sequence .running c).step hx
    exact ⟨x', hx', hsequence'.trans hsequence, by rw [hoperation]; exact hactive⟩
  · rcases mem_withStep hx with ⟨x', _, hsequence, rfl⟩ | ⟨hx, _⟩
    · exact absurd hsequence (hne _ hmem)
    · exact h.pending x hx hactive (List.mem_cons_of_mem _ hmem)
  · rcases mem_withStep hx with ⟨x', _, hsequence, rfl⟩ | ⟨hx, _⟩
    · exact absurd (hsequence ▸ List.mem_cons_self) hmem
    · exact h.done x hx hactive hmem

theorem Busy.succeeded {attemptId : UUID} {todo : List ℕ} {h : StepAttemptShape}
    (hb : c.Busy attemptId h.sequence todo) : (c.finished h .succeeded).Todo todo := by
  have hne : ∀ n ∈ todo, n ≠ h.sequence :=
    fun n hn => (List.rel_of_pairwise_cons hb.sorted hn).ne'
  refine ⟨(List.pairwise_cons.mp hb.sorted).2, fun n hn => ?_, fun x hx hactive hmem => ?_,
    fun x hx hactive hmem => ?_⟩
  · obtain ⟨x, hx, hsequence, hactive⟩ := hb.known n (List.mem_cons_of_mem _ hn)
    obtain ⟨x', hx', hid, hoperation, hsequence'⟩ :=
      (sameKeys_withStep h.sequence .succeeded c).step hx
    exact ⟨x', hx', hsequence'.trans hsequence, by rw [hoperation]; exact hactive⟩
  · rcases mem_withStep hx with ⟨x', _, hsequence, rfl⟩ | ⟨hx, _⟩
    · exact absurd hsequence (hne _ hmem)
    · exact hb.pending x hx hactive hmem
  · rcases mem_withStep hx with ⟨x', _, hsequence, rfl⟩ | ⟨hx, hsequence⟩
    · refine ⟨rfl, fun n hn => ?_⟩
      show x'.sequence < n
      rw [hsequence]
      exact List.rel_of_pairwise_cons hb.sorted hn
    · have hnot : x.sequence ∉ h.sequence :: todo := by
        rw [List.mem_cons, not_or]
        exact ⟨hsequence, hmem⟩
      obtain ⟨hsucceeded, hlt⟩ := hb.done x hx hactive hnot
      exact ⟨hsucceeded, fun n hn => hlt n (List.mem_cons_of_mem _ hn)⟩

/-- The Steps before the running one have succeeded, those after it are PENDING. -/
theorem Busy.order {attemptId : UUID} {sequence : ℕ} {todo : List ℕ}
    (h : c.Busy attemptId sequence todo) {s : StepShape} (hs : s ∈ c.steps)
    (hactive : some s.operationId = c.active) :
    (s.sequence < sequence → s.status = .succeeded) ∧
      (sequence < s.sequence → s.status = .pending) := by
  have hafter : ∀ n ∈ todo, sequence < n := fun _ hn => List.rel_of_pairwise_cons h.sorted hn
  by_cases hmem : s.sequence ∈ sequence :: todo
  · constructor
    · intro hlt
      rcases List.mem_cons.mp hmem with heq | hin
      · exact absurd heq hlt.ne
      · exact absurd (hafter _ hin) hlt.asymm
    · intro hlt
      rcases List.mem_cons.mp hmem with heq | hin
      · exact absurd heq hlt.ne'
      · exact h.pending s hs hactive hin
  · obtain ⟨hsucceeded, hlt⟩ := h.done s hs hactive hmem
    exact ⟨fun _ => hsucceeded, fun hgt => absurd (hlt sequence List.mem_cons_self) hgt.asymm⟩

theorem Busy.failed {attemptId : UUID} {todo : List ℕ} {h : StepAttemptShape}
    (hb : c.Busy attemptId h.sequence todo) : (c.finished h .failed).Stopped h.sequence := by
  refine ⟨?_, fun x hx hactive hlt => ?_, fun x hx hactive heq => ?_, fun x hx hactive hlt => ?_⟩
  · obtain ⟨x, hx, hsequence, hactive⟩ := hb.known h.sequence List.mem_cons_self
    obtain ⟨x', hx', _, hoperation, hsequence'⟩ :=
      (sameKeys_withStep h.sequence .failed c).step hx
    exact ⟨x', hx', hsequence'.trans hsequence, by rw [hoperation]; exact hactive⟩
  · rcases mem_withStep hx with ⟨x', _, hsequence, rfl⟩ | ⟨hx, _⟩
    · exact absurd hsequence hlt.ne
    · exact (hb.order hx hactive).1 hlt
  · rcases mem_withStep hx with ⟨x', _, _, rfl⟩ | ⟨_, hsequence⟩
    · rfl
    · exact absurd heq hsequence
  · rcases mem_withStep hx with ⟨x', _, hsequence, rfl⟩ | ⟨hx, _⟩
    · exact absurd hsequence hlt.ne'
    · exact (hb.order hx hactive).2 hlt

theorem Busy.failedAt {attemptId : UUID} {sequence : ℕ} {todo : List ℕ}
    (h : c.Busy attemptId sequence todo) (hkeyed : c.Keyed) (hstatuses : c.Statuses)
    (hsingle : c.mode = .single) : c.FailedAt sequence := by
  refine ⟨fun s hs hlt => (h.order hs (hkeyed.single hsingle s hs)).1 hlt, ?_⟩
  obtain ⟨x, hx, _, hsequence, hrunning⟩ := h.attempt
  obtain ⟨_, s, hs, _, hsame, hstatus⟩ := hstatuses.runningStepAttempt x hx hrunning
  exact ⟨s, hs, hsame.trans hsequence, .inl hstatus⟩

theorem Stopped.failedAt {sequence : ℕ} (h : c.Stopped sequence) (hkeyed : c.Keyed)
    (hsingle : c.mode = .single) : c.FailedAt sequence := by
  refine ⟨fun s hs hlt => h.below s hs (hkeyed.single hsingle s hs) hlt, ?_⟩
  obtain ⟨s, hs, hsequence, hactive⟩ := h.known
  exact ⟨s, hs, hsequence, .inr (h.here s hs hactive hsequence)⟩

theorem Stopped.noneRunning {sequence : ℕ} (h : c.Stopped sequence) (hstatuses : c.Statuses) :
    c.NoneRunning := by
  intro s hs hrunning
  have hactive := hstatuses.openStep s hs (by rw [hrunning]; rfl)
  rcases lt_trichotomy s.sequence sequence with hlt | heq | hlt
  · have hstatus := h.below s hs hactive hlt
    rw [hrunning] at hstatus
    cases hstatus
  · have hstatus := h.here s hs hactive heq
    rw [hrunning] at hstatus
    cases hstatus
  · have hstatus := h.above s hs hactive hlt
    rw [hrunning] at hstatus
    cases hstatus

/-- Skipping the Steps after the one that ended leaves none open. -/
theorem Stopped.skipped {sequence : ℕ} {operationId : UUID} (h : c.Stopped sequence)
    (hstatuses : c.Statuses) (hactive : c.active = some operationId) :
    (c.skipped fun s => s.operationId == operationId && decide (sequence < s.sequence)).NoneOpen := by
  intro s hs
  rcases List.mem_updateWhere.mp hs with ⟨x, _, _, rfl⟩ | ⟨hs, hnot⟩
  · rfl
  by_contra hopen
  have hopen : s.status.isOpen = true := Bool.not_eq_false _ ▸ hopen
  have hmem := hstatuses.openStep s hs hopen
  have hoperation : s.operationId = operationId := Option.some.inj (hmem.trans hactive)
  rcases lt_trichotomy s.sequence sequence with hlt | heq | hlt
  · rw [h.below s hs hmem hlt] at hopen
    cases hopen
  · rw [h.here s hs hmem heq] at hopen
    cases hopen
  · simp [hoperation, hlt, h.above s hs hmem hlt] at hnot

/-! ### What a claim starts with -/

/-- The sequences from one on, of a SINGLE Execution. -/
theorem Keyed.mem_sequences (h : c.Keyed) (hsingle : c.mode = .single) {sequence : ℕ} :
    (∃ s ∈ c.steps, s.sequence = sequence) ↔ sequence < c.steps.length := by
  have hmem : sequence ∈ c.steps.map (·.sequence) ↔ sequence < c.steps.length := by
    rw [h.numbered hsingle, List.mem_range]
  rw [← hmem, List.mem_map]

theorem At.todo (h : c.Keyed) (hsingle : c.mode = .single) {start : ℕ} (hat : c.At start) :
    c.Todo ((List.range c.steps.length).drop start) := by
  have hmem : ∀ n, n ∈ (List.range c.steps.length).drop start ↔
      start ≤ n ∧ n < c.steps.length := by
    intro n
    rw [List.range_eq_range', List.drop_range', List.mem_range'_1]
    omega
  refine ⟨List.pairwise_lt_range.drop, fun n hn => ?_, fun s hs hactive hin => ?_,
    fun s hs hactive hnot => ?_⟩
  · obtain ⟨s, hs, hsequence⟩ := (h.mem_sequences hsingle).mpr ((hmem n).mp hn).2
    exact ⟨s, hs, hsequence, h.single hsingle s hs⟩
  · rw [hat s hs hactive, if_pos ((hmem _).mp hin).1]
  · have hlt := (h.mem_sequences hsingle).mp ⟨s, hs, rfl⟩
    have hbefore : s.sequence < start := by
      by_contra hge
      exact hnot ((hmem _).mpr ⟨Nat.not_lt.mp hge, hlt⟩)
    refine ⟨by rw [hat s hs hactive, if_neg (Nat.not_le.mpr hbefore)], fun n hn => ?_⟩
    exact lt_of_lt_of_le hbefore ((hmem n).mp hn).1

/-- The Steps of an Operation that all wait. -/
theorem At.todo_of_mem {todo : List ℕ} (hat : c.At 0) (hsorted : todo.Pairwise (· < ·))
    (hmem : ∀ n, n ∈ todo ↔ ∃ s ∈ c.steps, s.sequence = n ∧ some s.operationId = c.active) :
    c.Todo todo :=
  ⟨hsorted, fun n hn => (hmem n).mp hn,
    fun s hs hactive _ => by rw [hat s hs hactive, if_pos (Nat.zero_le _)],
    fun s hs hactive hnot => absurd ((hmem _).mpr ⟨s, hs, rfl, hactive⟩) hnot⟩

/-- A running Step attempt, with the Steps after it. -/
theorem Statuses.busy (hstatuses : c.Statuses) {h : StepAttemptShape} (hmem : h ∈ c.stepAttempts)
    (hrunning : h.status = .running) {todo : List ℕ}
    (hsorted : (h.sequence :: todo).Pairwise (· < ·))
    (hknown : ∀ n ∈ todo, ∃ s ∈ c.steps, s.sequence = n ∧ some s.operationId = c.active)
    (hall : ∀ s ∈ c.steps, some s.operationId = c.active → h.sequence < s.sequence →
      s.sequence ∈ todo) : c.Busy h.attemptId h.sequence todo := by
  obtain ⟨_, x, hx, _, hsequence, hrun⟩ := hstatuses.runningStepAttempt h hmem hrunning
  have hactive := hstatuses.openStep x hx (by rw [hrun]; rfl)
  have hafter : ∀ n ∈ todo, h.sequence < n := fun _ hn => List.rel_of_pairwise_cons hsorted hn
  have horder : ∀ s ∈ c.steps, some s.operationId = c.active →
      (s.sequence < h.sequence → s.status = .succeeded) ∧
        (h.sequence < s.sequence → s.status = .pending) := by
    intro s hs hs'
    rw [← hsequence]
    exact hstatuses.order x hx hrun s hs (Option.some.inj (hs'.trans hactive.symm))
  refine ⟨hsorted, fun n hn => ?_, ⟨h, hmem, rfl, rfl, hrunning⟩, fun s hs hs' hin => ?_,
    fun s hs hs' hnot => ?_⟩
  · rcases List.mem_cons.mp hn with rfl | hn
    · exact ⟨x, hx, hsequence, hactive⟩
    · exact hknown n hn
  · exact (horder s hs hs').2 (hafter _ hin)
  · rw [List.mem_cons, not_or] at hnot
    have hlt : s.sequence < h.sequence := by
      rcases lt_trichotomy s.sequence h.sequence with hlt | heq | hgt
      · exact hlt
      · exact absurd heq hnot.1
      · exact absurd (hall s hs hs' hgt) hnot.2
    refine ⟨(horder s hs hs').1 hlt, fun n hn => ?_⟩
    rcases List.mem_cons.mp hn with rfl | hn
    · exact hlt
    · exact hlt.trans (hafter n hn)

/-- The Step a SINGLE run takes over, with the Steps after it. -/
theorem Statuses.busy_single (hstatuses : c.Statuses) (hkeyed : c.Keyed)
    (hsingle : c.mode = .single) {h : StepAttemptShape} (hmem : h ∈ c.stepAttempts)
    (hrunning : h.status = .running) :
    ∃ todo, (List.range c.steps.length).drop h.sequence = h.sequence :: todo ∧
      c.Busy h.attemptId h.sequence todo := by
  obtain ⟨_, x, hx, _, hsequence, _⟩ := hstatuses.runningStepAttempt h hmem hrunning
  have hlt := (hkeyed.mem_sequences hsingle).mp ⟨x, hx, hsequence⟩
  have hdrop : (List.range c.steps.length).drop h.sequence =
      h.sequence :: (List.range c.steps.length).drop (h.sequence + 1) := by
    rw [List.drop_eq_getElem_cons (by simpa using hlt), List.getElem_range]
  have hmem' : ∀ n, n ∈ (List.range c.steps.length).drop (h.sequence + 1) ↔
      h.sequence < n ∧ n < c.steps.length := by
    intro n
    rw [List.range_eq_range', List.drop_range', List.mem_range'_1]
    omega
  refine ⟨_, hdrop, hstatuses.busy hmem hrunning ?_ (fun n hn => ?_) fun s hs _ hgt => ?_⟩
  · rw [← hdrop]
    exact List.pairwise_lt_range.drop
  · obtain ⟨s, hs, hn'⟩ := (hkeyed.mem_sequences hsingle).mpr ((hmem' n).mp hn).2
    exact ⟨s, hs, hn', hkeyed.single hsingle s hs⟩
  · exact (hmem' _).mpr ⟨hgt, (hkeyed.mem_sequences hsingle).mp ⟨s, hs, rfl⟩⟩

end ShapeRows

end ExecutorService
