/-
What the operator wants of a Runtime Target, and its health.

The row of one Target has five writers: `upsert`, `disable`, `set_state`, a probe and the
deferral of a retained retry.  A probe and an `upsert` of another endpoint leave a drain
alone; the deferral writes OFFLINE over it, and the next probe makes the Target ACTIVE
again.  An `upsert` that changes only the credential leaves an ACTIVE Target ACTIVE before
any probe has used the new one.

* `TargetMove` — what a step can do to the row of a Target;
* `HonoursIntent` — a drain and a disablement last until an operator ends them;
* `Probed` — the Runtime of an ACTIVE Target answered for its present configuration;
* `operator_intent_and_health` — both hold in every run without such a deferral or `upsert`.
-/
import ExecutorService.Registry
import ExecutorService.RoundTrips

namespace ExecutorService

/-! ### Statement -/

/-- The step is the commit of a call with this content, under the lock of its row. -/
def Commits (s : OperatorService) (a : OperatorAction) (content : OperatorContent) : Prop :=
  ∃ i input call registry phase, a = .advance i input ∧ s.calls[i]? = some call ∧
    call.phase = .locking ∧ call.request.content = content ∧
    call.request.lockRow input s.registry = .committed registry phase

/-- `set_state ACTIVE` or `disable`. -/
def EndsDrain (targetId : UUID) : OperatorContent → Prop
  | .setState id desiredState _ _ => id = targetId ∧ desiredState = .active
  | .disable id _ _ => id = targetId
  | _ => False

/-- `set_state` or `upsert`. -/
def Enables (t : RegisteredTarget) : OperatorContent → Prop
  | .setState id _ _ _ => id = t.id
  | .upsert name _ _ _ _ _ _ _ => name = t.name
  | _ => False

/-- A drained Target stays DRAINING until an operator ends the drain, and a disabled one is
enabled or ACTIVE only through an operator's command. -/
structure HonoursIntent (settings : ProbeSettings) (s : OperatorService) (a : OperatorAction) :
    Prop where
  draining : ∀ targetId t, s.registry.target? targetId = some t → t.status = .draining →
    (∃ t', (s.step settings a).registry.target? targetId = some t' ∧ t'.status = .draining) ∨
      ∃ content, Commits s a content ∧ EndsDrain targetId content
  disabled : ∀ targetId t t', s.registry.target? targetId = some t → t.enabled = false →
    (s.step settings a).registry.target? targetId = some t' →
    t'.enabled = true ∨ t'.status = .active →
      ∃ content, Commits s a content ∧ Enables t content

/-- The Runtime answered a probe of the Target with this configuration. -/
def Answered (answers : List ProbeObservation) (t : RegisteredTarget) : Prop :=
  ∃ observed ∈ answers, observed.targetId = t.id ∧
    observed.connectionConfig = t.connectionConfig ∧ observed.pool = t.pool ∧
    observed.credentialCiphertext.credential = t.credentialCiphertext.credential

/-- A Target that is active has answered a probe. -/
def Probed (s : OperatorService) : Prop :=
  ∀ targetId t, s.registry.target? targetId = some t → t.status = .active → Answered s.answers t

/-- The condition on a step: a deferral that takes effect does not meet a drained Target,
and no `upsert` that changes the credential alone of an ACTIVE one commits. -/
def RespectsIntent (s : OperatorService) : OperatorAction → Prop
  | .deferRetainedRetry execution clock lease targetId _ =>
    execution.deferralWrites clock lease = true →
      ∀ t, s.registry.target? targetId = some t → t.status ≠ .draining
  | .advance i input => ∀ name runtimeType connectionConfig credential pool
      maxConcurrentExecutions actorClient actorId t,
      Commits s (.advance i input) (.upsert name runtimeType connectionConfig (some credential) pool
        maxConcurrentExecutions actorClient actorId) →
      s.registry.targets.find? (·.name == name) = some t → t.status = .active →
      t.identityChanged connectionConfig pool = false →
        credential = t.credentialCiphertext.credential
  | _ => True

/-! ### Rows -/

namespace RegisteredTarget

variable (t : RegisteredTarget)

theorem id_probed (settings : ProbeSettings) (now : Time) (answer : ProbeAnswer) :
    (t.probed settings now answer).id = t.id := by
  unfold probed
  cases answer.health settings <;> cases answer.resource settings <;> rfl

theorem name_probed (settings : ProbeSettings) (now : Time) (answer : ProbeAnswer) :
    (t.probed settings now answer).name = t.name := by
  unfold probed
  cases answer.health settings <;> cases answer.resource settings <;> rfl

theorem enabled_probed (settings : ProbeSettings) (now : Time) (answer : ProbeAnswer) :
    (t.probed settings now answer).enabled = t.enabled := by
  unfold probed
  cases answer.health settings <;> cases answer.resource settings <;> rfl

theorem observation_probed (settings : ProbeSettings) (now : Time) (answer : ProbeAnswer) :
    (t.probed settings now answer).observation = t.observation := by
  unfold probed
  cases answer.health settings <;> cases answer.resource settings <;> rfl

/-- A probe makes a Target ACTIVE only if it is healthy, and leaves a drain alone. -/
theorem status_probed (settings : ProbeSettings) (now : Time) (answer : ProbeAnswer) :
    (t.probed settings now answer).status =
      if t.status = .draining then .draining
      else match answer.health settings with
        | .ok _ => .active
        | .error _ => .offline := by
  have hresource : (t.probed settings now answer).status =
      (t.healthChecked now (answer.health settings)).status := by
    unfold probed
    cases answer.resource settings <;> rfl
  rw [hresource]
  unfold healthChecked
  by_cases hdraining : t.status = .draining
  · cases answer.health settings <;> simp [hdraining]
  · cases answer.health settings <;> simp [hdraining]

theorem id_upserted (nonce : ℕ) (connectionConfig : ConnectionConfig) (credential : Option String)
    (pool : RuntimePool) (maxConcurrentExecutions : Option ℕ) :
    (t.upserted nonce connectionConfig credential pool maxConcurrentExecutions).id = t.id := by
  unfold upserted
  split <;> rfl

theorem name_upserted (nonce : ℕ) (connectionConfig : ConnectionConfig)
    (credential : Option String) (pool : RuntimePool) (maxConcurrentExecutions : Option ℕ) :
    (t.upserted nonce connectionConfig credential pool maxConcurrentExecutions).name = t.name := by
  unfold upserted
  split <;> rfl

/-- An `upsert` leaves the status alone unless it changes the endpoint or the pool. -/
theorem status_upserted (nonce : ℕ) (connectionConfig : ConnectionConfig)
    (credential : Option String) (pool : RuntimePool) (maxConcurrentExecutions : Option ℕ) :
    (t.upserted nonce connectionConfig credential pool maxConcurrentExecutions).status =
      if t.identityChanged connectionConfig pool = true ∧ t.status ≠ .draining then .offline
      else t.status := by
  unfold upserted
  by_cases hchanged : t.identityChanged connectionConfig pool = true
  · simp [hchanged, forgetHealth]
  · simp [hchanged]

theorem identityChanged_eq_false {connectionConfig : ConnectionConfig} {pool : RuntimePool} :
    t.identityChanged connectionConfig pool = false ↔
      t.connectionConfig = connectionConfig ∧ t.pool = pool := by
  simp [identityChanged]

end RegisteredTarget

namespace Registry

variable {r : Registry}

theorem id_of_target? {targetId : UUID} {t : RegisteredTarget}
    (h : r.target? targetId = some t) : t.id = targetId := by
  simpa using List.find?_some h

theorem target?_of_mem (hkeys : (r.targets.map (·.id)).Nodup) {t : RegisteredTarget}
    (h : t ∈ r.targets) : r.target? t.id = some t :=
  List.find?_of_nodup hkeys h

theorem target?_setTarget {targetId : UUID} {f : RegisteredTarget → RegisteredTarget}
    (hf : ∀ t, (f t).id = t.id) (id : UUID) :
    (r.setTarget targetId f).target? id =
      if id = targetId then (r.target? id).map f else r.target? id := by
  unfold setTarget target?
  rw [List.find?_updateWhere (fun t => by rw [hf])]
  split
  · rename_i hid
    subst hid
    cases hfound : r.targets.find? (·.id == id) with
    | none => rfl
    | some t =>
      have ht : t.id = id := id_of_target? hfound
      simp [ht]
  · rename_i hid
    cases hfound : r.targets.find? (·.id == id) with
    | none => rfl
    | some t =>
      have ht : t.id = id := id_of_target? hfound
      simp [ht, hid]

theorem nodup_setTarget {targetId : UUID} {f : RegisteredTarget → RegisteredTarget}
    (hf : ∀ t, (f t).id = t.id) (h : (r.targets.map (·.id)).Nodup) :
    ((r.setTarget targetId f).targets.map (·.id)).Nodup := by
  unfold setTarget
  rw [List.map_updateWhere hf]
  exact h

/-- A commit leaves the Targets as the command left them. -/
theorem commit_ok {r' : Registry} {request : OperatorRequest} {result : ReceiptResult}
    {phase phase' : OperatorPhase} (h : r.commit request result phase = .committed r' phase') :
    r'.targets = r.targets ∧ phase' = phase := by
  unfold commit addReceipt at h
  split at h
  · rename_i hadd
    split at hadd
    · cases hadd
    · cases hadd
      cases h
      exact ⟨rfl, rfl⟩
  · cases h

theorem target?_congr {r' : Registry} (h : r'.targets = r.targets) (targetId : UUID) :
    r'.target? targetId = r.target? targetId := by
  rw [target?, target?, h]

end Registry

/-! ### What a step can do to a row -/

/-- A probe is about to write its answer. -/
def OperatorService.Writing (s : OperatorService) (targetId : UUID) (observed : ProbeObservation)
    (answer : ProbeAnswer) : Prop :=
  (∃ call ∈ s.calls, call.phase = .probing targetId (.writing observed answer)) ∨
    some ⟨targetId, .writing observed answer⟩ ∈ s.probes

/-- What a step can do to the row of a Target. -/
inductive TargetMove (settings : ProbeSettings) (s : OperatorService) (a : OperatorAction)
    (targetId : UUID) : Option RegisteredTarget → Option RegisteredTarget → Prop
  | same (t : Option RegisteredTarget) : TargetMove settings s a targetId t t
  | registered {t : RegisteredTarget} (hoffline : t.status = .offline)
      (henabled : t.enabled = true) : TargetMove settings s a targetId none (some t)
  | upserted {t : RegisteredTarget} {name : String} {runtimeType : RuntimeType}
      {connectionConfig : ConnectionConfig} {credential : Option String} {pool : RuntimePool}
      {maxConcurrentExecutions : Option ℕ} {actorClient actorId : Option String} {nonce : ℕ}
      (hcommits : Commits s a (.upsert name runtimeType connectionConfig credential pool
        maxConcurrentExecutions actorClient actorId))
      (hfound : s.registry.targets.find? (·.name == name) = some t) :
      TargetMove settings s a targetId (some t)
        (some (t.upserted nonce connectionConfig credential pool maxConcurrentExecutions))
  | disabled {t : RegisteredTarget} {actorClient actorId : Option String}
      (hcommits : Commits s a (.disable targetId actorClient actorId)) :
      TargetMove settings s a targetId (some t) (some t.disabled)
  | stateSet {t : RegisteredTarget} {desiredState : RuntimeTargetStatus}
      {actorClient actorId : Option String}
      (hcommits : Commits s a (.setState targetId desiredState actorClient actorId)) :
      TargetMove settings s a targetId (some t) (some (t.stateSet desiredState))
  | probed {t : RegisteredTarget} {now : Time} {answer : ProbeAnswer}
      (hwriting : s.Writing targetId t.observation answer) (henabled : t.enabled = true) :
      TargetMove settings s a targetId (some t) (some (t.probed settings now answer))
  | deferred {t : RegisteredTarget} {now : Time} {diagnostic : String}
      (hdraining : RespectsIntent s a → t.status ≠ .draining) :
      TargetMove settings s a targetId (some t) (some (t.deferred now diagnostic))
  | purged {t : RegisteredTarget} (hoffline : t.status = .offline) :
      TargetMove settings s a targetId (some t) none

namespace OperatorService

variable {settings : ProbeSettings} {s : OperatorService}

/-- The row of a Target that a transaction sets by a function. -/
theorem targetMove_setTarget {a : OperatorAction} {targetId id : UUID}
    {f : RegisteredTarget → RegisteredTarget} (hf : ∀ t, (f t).id = t.id)
    (hmove : ∀ t, s.registry.target? targetId = some t →
      TargetMove settings s a targetId (some t) (some (f t))) :
    TargetMove settings s a id (s.registry.target? id)
      ((s.registry.setTarget targetId f).target? id) := by
  rw [Registry.target?_setTarget hf]
  split
  · rename_i hid
    subst hid
    cases hfound : s.registry.target? id with
    | none => exact .same none
    | some t => exact hmove t hfound
  · exact .same _

theorem targetMove_lockRow {i : ℕ} {input : CallInput} {call : OperatorCall} {r : Registry}
    {phase : OperatorPhase} (hkeys : (s.registry.targets.map (·.id)).Nodup)
    (hcall : s.calls[i]? = some call) (hphase : call.phase = .locking)
    (h : call.request.lockRow input s.registry = .committed r phase) (id : UUID) :
    TargetMove settings s (.advance i input) id (s.registry.target? id) (r.target? id) := by
  have hcommits : Commits s (.advance i input) call.request.content :=
    ⟨i, input, call, r, phase, rfl, hcall, hphase, rfl, h⟩
  unfold OperatorRequest.lockRow at h
  split at h
  · rename_i name runtimeType connectionConfig credential pool maximum actorClient actorId hcontent
    rw [hcontent] at hcommits
    split at h
    · cases h
    split at h
    · split at h <;> cases h
    · rename_i target hfound
      split at h
      · cases h
      split at h
      · cases h
      · -- The Target that is written is the one that was locked.
        rw [Registry.target?_congr (Registry.commit_ok h).1]
        refine targetMove_setTarget (fun t => t.id_upserted _ _ _ _ _) fun t ht => ?_
        rw [Registry.target?_of_mem hkeys (List.mem_of_find?_eq_some hfound),
          Option.some.injEq] at ht
        exact ht ▸ .upserted hcommits hfound
  · rename_i targetId actorClient actorId hcontent
    rw [hcontent] at hcommits
    split at h
    · cases h
    · rw [Registry.target?_congr (Registry.commit_ok h).1]
      exact targetMove_setTarget (fun t => rfl) fun t _ => .disabled hcommits
  · rename_i targetId desiredState actorClient actorId hcontent
    rw [hcontent] at hcommits
    split at h
    · cases h
    · rw [Registry.target?_congr (Registry.commit_ok h).1]
      exact targetMove_setTarget (fun t => rfl) fun t _ => .stateSet hcommits
  · rw [Registry.target?_congr (Registry.commit_ok h).1]
    -- A Run is created and no Target touched.
    exact .same _
  · split at h
    · cases h
    simp only at h
    split at h
    · cases h
    · cases h
      exact .same _

theorem targetMove_insertTarget {i : ℕ} {input : CallInput} {request : OperatorRequest}
    {r : Registry} {phase : OperatorPhase}
    (h : request.insertTarget settings input s.registry = .committed r phase) (id : UUID) :
    TargetMove settings s (.advance i input) id (s.registry.target? id) (r.target? id) := by
  unfold OperatorRequest.insertTarget at h
  split at h
  · split at h
    · cases h
    · rw [Registry.target?_congr (Registry.commit_ok h).1]
      unfold Registry.target?
      rw [List.find?_append]
      cases hfound : s.registry.targets.find? (·.id == id) with
      | some t => exact .same _
      | none =>
        rw [Option.none_or, List.find?_singleton]
        split
        · exact .registered rfl rfl
        · exact .same none
  · cases h

theorem targetMove_probeStep {a : OperatorAction} {input : CallInput} {targetId : UUID}
    {phase : ProbePhase}
    (hwriting : ∀ observed answer, phase = .writing observed answer →
      s.Writing targetId observed answer) (id : UUID) :
    TargetMove settings s a id (s.registry.target? id)
      ((s.registry.probeStep settings input targetId phase).1.target? id) := by
  unfold Registry.probeStep
  split
  · split
    · exact .same _
    · split <;> exact .same _
  · exact .same _
  · rename_i observed answer
    split
    · exact .same _
    · rename_i target hfound
      split
      · exact .same _
      rename_i hobserved
      rw [ne_eq, not_not] at hobserved
      split
      · rename_i henabled
        refine targetMove_setTarget (fun t => t.id_probed _ _ _) fun t ht => ?_
        rw [hfound, Option.some.injEq] at ht
        subst ht
        exact .probed (hobserved ▸ hwriting observed answer rfl) henabled
      · exact .same _
  · exact .same _

/-- What a step can do to the row of a Target. -/
theorem targetMove_of_step (hkeys : (s.registry.targets.map (·.id)).Nodup) (a : OperatorAction)
    (id : UUID) :
    TargetMove settings s a id (s.registry.target? id) ((s.step settings a).registry.target? id) := by
  cases a with
  | call request => exact .same _
  | advance i input =>
    unfold step
    -- What the call does depends on its phase; only four of them write a Target.
    simp only
    split
    · rename_i call hcall
      unfold advance
      split
      · split <;> exact .same _
      · rename_i hphase
        unfold settle
        split
        · rename_i hlock
          exact targetMove_lockRow hkeys hcall hphase hlock id
        · exact .same _
        · exact .same _
      · unfold settle
        split
        · rename_i hinsert
          exact targetMove_insertTarget hinsert id
        · exact .same _
        · exact .same _
      · rename_i targetId phase hphase
        exact targetMove_probeStep (fun observed answer hwriting =>
          .inl ⟨call, List.mem_of_getElem? hcall, hwriting ▸ hphase⟩) id
      · exact .same _
    · exact .same _
  | probe targetId => exact .same _
  | advanceProbe i input =>
    unfold step
    simp only
    split
    · rename_i probe hprobe
      exact targetMove_probeStep (fun observed answer hwriting =>
        .inr (hwriting ▸ List.mem_of_getElem? hprobe)) id
    · exact .same _
  | deferRetainedRetry execution clock lease targetId diagnostic =>
    unfold step
    simp only
    split
    · rename_i hwrites
      exact targetMove_setTarget (fun t => rfl) fun t ht =>
        .deferred fun hrespects => hrespects hwrites t ht
    · exact .same _
  | purge targetId reserved unconfirmed =>
    unfold step
    simp only
    split
    · rename_i target hfound
      split
      · exact .same _
      · rename_i hblocked
        simp only [Bool.or_eq_true, not_or, decide_eq_true_eq, not_not] at hblocked
        -- The purged Target is gone, and every other is where it was.
        by_cases hid : id = targetId
        · subst hid
          have hgone : (s.registry.targets.filter (·.id != id)).find? (·.id == id) = none := by
            simp
          unfold Registry.target?
          rw [hgone]
          change TargetMove settings s _ id (s.registry.target? id) none
          rw [hfound]
          exact .purged hblocked.1.1.2
        · have hkept : (s.registry.targets.filter (·.id != targetId)).find? (·.id == id) =
              s.registry.targets.find? (·.id == id) := by
            rw [List.find?_filter]
            congr 1
            funext t
            by_cases ht : t.id = id <;> simp [ht, hid]
          unfold Registry.target?
          rw [hkept]
          exact .same _
    · exact .same _
  | reconcile runId status => exact .same _

/-! ### Answers -/

theorem answers_mono (a : OperatorAction) {observed : ProbeObservation}
    (h : observed ∈ s.answers) : observed ∈ (s.step settings a).answers := by
  cases a with
  | advance i input =>
    unfold step
    simp only
    split
    · unfold advance
      split
      · split <;> exact h
      · unfold settle
        split <;> exact h
      · unfold settle
        split <;> exact h
      · exact List.mem_append_left _ h
      · exact h
    · exact h
  | advanceProbe i input =>
    unfold step
    simp only
    split
    · exact List.mem_append_left _ h
    · exact h
  | deferRetainedRetry execution clock lease targetId diagnostic =>
    unfold step
    simp only
    split <;> exact h
  | purge targetId reserved unconfirmed =>
    unfold step
    simp only
    split
    · split <;> exact h
    · exact h
  | call request => exact h
  | probe targetId => exact h
  | reconcile runId status => exact h

/-- A probe that is about to write was so before, or its answer has just come in. -/
theorem answered_of_probeStep {input : CallInput} {targetId : UUID} {phase : ProbePhase}
    {observed : ProbeObservation} {answer : ProbeAnswer}
    (h : (s.registry.probeStep settings input targetId phase).2 =
      .goesOn (.writing observed answer)) :
    phase = .calling observed ∧ answer = input.answer := by
  unfold Registry.probeStep at h
  split at h
  · split at h
    · cases h
    · split at h <;> cases h
  · cases h
    exact ⟨rfl, rfl⟩
  · split at h
    · cases h
    · split at h
      · cases h
      · split at h <;> cases h
  · cases h

theorem mem_answered {input : CallInput} {phase : ProbePhase} {observed : ProbeObservation}
    {health : List String × ℕ} (hphase : phase = .calling observed)
    (hhealth : input.answer.health settings = .ok health) :
    observed ∈ phase.answered settings input := by
  subst hphase
  unfold ProbePhase.answered
  rw [hhealth]
  exact List.mem_singleton.mpr rfl

theorem writing_setCall {i : ℕ} {call : OperatorCall} {targetId : UUID}
    {observed : ProbeObservation} {answer : ProbeAnswer}
    (h : (s.setCall i call).Writing targetId observed answer) :
    s.Writing targetId observed answer ∨ call.phase = .probing targetId (.writing observed answer) := by
  rcases h with ⟨other, hmem, hother⟩ | hprobe
  · rcases List.mem_or_eq_of_mem_set hmem with hmem | rfl
    · exact .inl (.inl ⟨other, hmem, hother⟩)
    · exact .inr hother
  · exact .inl (.inr hprobe)

theorem writing_settle {i : ℕ} {call : OperatorCall} {result : RowResult} {targetId : UUID}
    {observed : ProbeObservation} {answer : ProbeAnswer}
    (hphase : ∀ registry phase, result = .committed registry phase →
      phase ≠ .probing targetId (.writing observed answer))
    (h : (s.settle i call result).Writing targetId observed answer) :
    s.Writing targetId observed answer := by
  unfold settle at h
  split at h
  · rename_i registry phase
    rcases writing_setCall h with h | h
    · exact h
    · exact absurd h (hphase registry phase rfl)
  · rcases writing_setCall h with h | h
    · exact h
    · cases h
  · rcases writing_setCall h with h | h
    · exact h
    · cases h

/-- A call that commits does not write the answer of a probe next. -/
theorem phase_of_lockRow {input : CallInput} {r r' : Registry} {request : OperatorRequest}
    {phase : OperatorPhase} (h : request.lockRow input r = .committed r' phase) {targetId : UUID}
    {observed : ProbeObservation} {answer : ProbeAnswer} :
    phase ≠ .probing targetId (.writing observed answer) := by
  unfold OperatorRequest.lockRow at h
  split at h
  · split at h
    · cases h
    split at h
    · split at h <;> cases h
    · split at h
      · cases h
      split at h
      · cases h
      · rw [(Registry.commit_ok h).2]
        exact nofun
  · split at h
    · cases h
    · rw [(Registry.commit_ok h).2]
      exact nofun
  · split at h
    · cases h
    · rw [(Registry.commit_ok h).2]
      split <;> exact nofun
  · rw [(Registry.commit_ok h).2]
    exact nofun
  · split at h
    · cases h
    simp only at h
    split at h
    · cases h
    · cases h
      exact nofun

theorem phase_of_insertTarget {input : CallInput} {r r' : Registry} {request : OperatorRequest}
    {phase : OperatorPhase} (h : request.insertTarget settings input r = .committed r' phase)
    {targetId : UUID} {observed : ProbeObservation} {answer : ProbeAnswer} :
    phase ≠ .probing targetId (.writing observed answer) := by
  unfold OperatorRequest.insertTarget at h
  split at h
  · split at h
    · cases h
    · rw [(Registry.commit_ok h).2]
      exact nofun
  · cases h

/-- A healthy answer that is about to be written has been recorded. -/
theorem writing_of_step {a : OperatorAction} {targetId : UUID} {observed : ProbeObservation}
    {answer : ProbeAnswer} (h : (s.step settings a).Writing targetId observed answer) :
    s.Writing targetId observed answer ∨
      ∀ health, answer.health settings = .ok health → observed ∈ (s.step settings a).answers := by
  cases a with
  | call request =>
    -- A new call starts in no writing phase.
    rcases h with ⟨call, hmem, hcall⟩ | hprobe
    · rcases List.mem_append.mp hmem with hmem | hmem
      · exact .inl (.inl ⟨call, hmem, hcall⟩)
      · rw [List.mem_singleton] at hmem
        subst hmem
        simp only [OperatorRequest.entry] at hcall
        split at hcall <;> cases hcall
    · exact .inl (.inr hprobe)
  | advance i input =>
    unfold step at h ⊢
    simp only at h ⊢
    split at h
    · rename_i call hcall
      unfold advance at h ⊢
      split at h
      · split at h
        · exact .inl ((writing_setCall h).resolve_right nofun)
        · exact .inl ((writing_setCall h).resolve_right nofun)
      · exact .inl (writing_settle (fun _ _ hlock => phase_of_lockRow hlock) h)
      · exact .inl (writing_settle (fun _ _ hinsert => phase_of_insertTarget hinsert) h)
      · rename_i id phase hphase
        rcases writing_setCall h with h | h
        · exact .inl h
        · -- The phase is entered with the answer that was just received.
          simp only at h
          split at h
          · rename_i next hnext
            cases h
            obtain ⟨hcalling, rfl⟩ := answered_of_probeStep hnext
            exact .inr fun health hhealth =>
              List.mem_append_right _ (mem_answered hcalling hhealth)
          · cases h
      · exact .inl h
    · exact .inl h
  | probe id =>
    rcases h with hcall | hprobe
    · exact .inl (.inl hcall)
    · rcases List.mem_append.mp hprobe with hmem | hmem
      · exact .inl (.inr hmem)
      · cases List.mem_singleton.mp hmem
  | advanceProbe i input =>
    -- The same for a probe without a call.
    unfold step at h ⊢
    simp only at h ⊢
    split at h
    · rename_i probe hprobe
      rcases h with hcall | hmem
      · exact .inl (.inl hcall)
      · rcases List.mem_or_eq_of_mem_set hmem with hmem | hset
        · exact .inl (.inr hmem)
        · split at hset
          · rename_i next hnext
            cases hset
            obtain ⟨hcalling, rfl⟩ := answered_of_probeStep hnext
            exact .inr fun health hhealth =>
              List.mem_append_right _ (mem_answered hcalling hhealth)
          · cases hset
    · exact .inl h
  | deferRetainedRetry execution clock lease id diagnostic =>
    unfold step at h
    simp only at h
    split at h <;> exact .inl h
  | purge id reserved unconfirmed =>
    unfold step at h
    simp only at h
    split at h
    · split at h <;> exact .inl h
    · exact .inl h
  | reconcile runId status => exact .inl h

theorem nodup_of_lockRow {input : CallInput} {r r' : Registry} {request : OperatorRequest}
    {phase : OperatorPhase} (hkeys : (r.targets.map (·.id)).Nodup)
    (h : request.lockRow input r = .committed r' phase) : (r'.targets.map (·.id)).Nodup := by
  unfold OperatorRequest.lockRow at h
  split at h
  · split at h
    · cases h
    split at h
    · split at h <;> cases h
    · split at h
      · cases h
      split at h
      · cases h
      · rw [(Registry.commit_ok h).1]
        exact Registry.nodup_setTarget (fun t => t.id_upserted _ _ _ _ _) hkeys
  · split at h
    · cases h
    · rw [(Registry.commit_ok h).1]
      exact Registry.nodup_setTarget (fun t => rfl) hkeys
  · split at h
    · cases h
    · rw [(Registry.commit_ok h).1]
      exact Registry.nodup_setTarget (fun t => rfl) hkeys
  · rw [(Registry.commit_ok h).1]
    exact hkeys
  · split at h
    · cases h
    simp only at h
    split at h
    · cases h
    · cases h
      exact hkeys

theorem nodup_of_insertTarget {input : CallInput} {r r' : Registry} {request : OperatorRequest}
    {phase : OperatorPhase} (hkeys : (r.targets.map (·.id)).Nodup)
    (h : request.insertTarget settings input r = .committed r' phase) :
    (r'.targets.map (·.id)).Nodup := by
  unfold OperatorRequest.insertTarget at h
  split at h
  · split at h
    · cases h
    · rename_i htaken
      rw [(Registry.commit_ok h).1, List.map_append]
      refine List.nodup_append.mpr ⟨hkeys, List.nodup_singleton _, ?_⟩
      rintro id hid _ hnew rfl
      obtain ⟨t, ht, rfl⟩ := List.mem_map.mp hid
      replace hnew : t.id = input.newId := List.mem_singleton.mp hnew
      refine htaken (List.any_eq_true.mpr ⟨t, ht, ?_⟩)
      simp [hnew]
  · cases h

theorem nodup_of_probeStep {input : CallInput} {targetId : UUID} {phase : ProbePhase}
    {r : Registry} (hkeys : (r.targets.map (·.id)).Nodup) :
    (((r.probeStep settings input targetId phase).1).targets.map (·.id)).Nodup := by
  unfold Registry.probeStep
  split
  · split
    · exact hkeys
    · split <;> exact hkeys
  · exact hkeys
  · split
    · exact hkeys
    · split
      · exact hkeys
      · split
        · exact Registry.nodup_setTarget (fun t => t.id_probed _ _ _) hkeys
        · exact hkeys
  · exact hkeys

theorem nodup_of_step (hkeys : (s.registry.targets.map (·.id)).Nodup) (a : OperatorAction) :
    ((s.step settings a).registry.targets.map (·.id)).Nodup := by
  cases a with
  -- Only an insertion adds an id, and the guard of the insertion keeps it new.
  | advance i input =>
    unfold step
    simp only
    split
    · unfold advance
      split
      · split <;> exact hkeys
      · unfold settle
        split
        · rename_i hlock
          exact nodup_of_lockRow hkeys hlock
        · exact hkeys
        · exact hkeys
      · unfold settle
        split
        · rename_i hinsert
          exact nodup_of_insertTarget hkeys hinsert
        · exact hkeys
        · exact hkeys
      · exact nodup_of_probeStep hkeys
      · exact hkeys
    · exact hkeys
  | advanceProbe i input =>
    unfold step
    simp only
    split
    · exact nodup_of_probeStep hkeys
    · exact hkeys
  | deferRetainedRetry execution clock lease targetId diagnostic =>
    unfold step
    simp only
    split
    · exact Registry.nodup_setTarget (fun t => rfl) hkeys
    · exact hkeys
  | purge targetId reserved unconfirmed =>
    unfold step
    simp only
    split
    · split
      · exact hkeys
      · exact hkeys.sublist (List.filter_sublist.map _)
    · exact hkeys
  | call request => exact hkeys
  | probe targetId => exact hkeys
  | reconcile runId status => exact hkeys

end OperatorService

/-! ### Runs -/

/-- What holds of the rows in every reachable state. -/
structure Healthy (settings : ProbeSettings) (s : OperatorService) : Prop where
  keys : (s.registry.targets.map (·.id)).Nodup
  disabled : ∀ targetId t, s.registry.target? targetId = some t → t.enabled = false →
    t.status = .offline
  probed : Probed s
  answered : ∀ targetId observed answer health, s.Writing targetId observed answer →
    answer.health settings = .ok health → observed ∈ s.answers

namespace Healthy

variable {settings : ProbeSettings} {s : OperatorService} {a : OperatorAction}

theorem disabled_of_move (h : Healthy settings s) {targetId : UUID}
    {t' : RegisteredTarget} {before : Option RegisteredTarget}
    (hbefore : s.registry.target? targetId = before)
    (hmove : TargetMove settings s a targetId before (some t')) (hdisabled : t'.enabled = false) :
    t'.status = .offline := by
  cases hmove with
  | same => exact h.disabled targetId t' hbefore hdisabled
  | registered hoffline _ => exact hoffline
  | upserted => cases hdisabled
  | disabled => rfl
  | stateSet => cases hdisabled
  | probed _ henabled =>
    rw [RegisteredTarget.enabled_probed, henabled] at hdisabled
    cases hdisabled
  | deferred => rfl

/-- A row that becomes or stays ACTIVE was answered for. -/
theorem answered_of_move (h : Healthy settings s) (hrespects : RespectsIntent s a)
    {targetId : UUID} {t' : RegisteredTarget} {before : Option RegisteredTarget}
    (hbefore : s.registry.target? targetId = before)
    (hmove : TargetMove settings s a targetId before (some t')) (hactive : t'.status = .active) :
    Answered s.answers t' := by
  cases hmove with
  | same => exact h.probed targetId t' hbefore hactive
  | registered hoffline _ => exact absurd (hoffline.symm.trans hactive) nofun
  | @upserted t name runtimeType connectionConfig credential pool _ _ _ nonce hcommits hfound =>
    rw [RegisteredTarget.status_upserted] at hactive
    split at hactive
    · cases hactive
    rename_i hchanged
    have hsame : t.identityChanged connectionConfig pool = false := by
      rw [Bool.eq_false_iff]
      exact fun hchange => hchanged ⟨hchange, by rw [hactive]; exact nofun⟩
    obtain ⟨hconfig, hpool⟩ := t.identityChanged_eq_false.mp hsame
    obtain ⟨observed, hmem, hid, hoconfig, hopool, hcredential⟩ := h.probed targetId t hbefore hactive
    refine ⟨observed, hmem, hid.trans (t.id_upserted _ _ _ _ _).symm, hoconfig.trans hconfig,
      hopool.trans hpool, hcredential.trans ?_⟩
    cases credential with
    | none => simp only [RegisteredTarget.upserted, hsame, Bool.false_eq_true, if_false]
    | some credential =>
      have ⟨_, _, _, _, _, hadvance, _⟩ := hcommits
      subst hadvance
      exact (hrespects name runtimeType connectionConfig credential pool _ _ _ t hcommits hfound
        hactive hsame).symm
  | disabled => cases hactive
  | stateSet =>
    simp only [RegisteredTarget.stateSet] at hactive
    split at hactive <;> cases hactive
  | @probed t now answer hwriting henabled =>
    rw [RegisteredTarget.status_probed] at hactive
    split at hactive
    · cases hactive
    split at hactive
    · rename_i health hhealth
      have hobservation := t.observation_probed settings now answer
      refine ⟨t.observation, h.answered _ _ _ _ hwriting hhealth, ?_⟩
      rw [← hobservation]
      exact ⟨rfl, rfl, rfl, rfl⟩
    · cases hactive
  | deferred => cases hactive

theorem step (h : Healthy settings s) (hrespects : RespectsIntent s a) :
    Healthy settings (s.step settings a) where
  keys := OperatorService.nodup_of_step h.keys a
  disabled targetId t' ht' hdisabled :=
    h.disabled_of_move rfl (ht' ▸ OperatorService.targetMove_of_step h.keys a targetId) hdisabled
  probed targetId t' ht' hactive := by
    obtain ⟨observed, hmem, hrest⟩ := h.answered_of_move hrespects rfl
      (ht' ▸ OperatorService.targetMove_of_step h.keys a targetId) hactive
    exact ⟨observed, OperatorService.answers_mono a hmem, hrest⟩
  answered targetId observed answer health hwriting hhealth := by
    rcases OperatorService.writing_of_step hwriting with hwriting | hnew
    · exact OperatorService.answers_mono a (h.answered _ _ _ _ hwriting hhealth)
    · exact hnew health hhealth

/-- A drain ends at a commit that ends it. -/
theorem draining_of_move (hrespects : RespectsIntent s a) {targetId : UUID} {t : RegisteredTarget}
    {after : Option RegisteredTarget} (hmove : TargetMove settings s a targetId (some t) after)
    (hdraining : t.status = .draining) :
    (∃ t', after = some t' ∧ t'.status = .draining) ∨
      ∃ content, Commits s a content ∧ EndsDrain targetId content := by
  cases hmove with
  | same => exact .inl ⟨t, rfl, hdraining⟩
  | upserted =>
    refine .inl ⟨_, rfl, ?_⟩
    rw [RegisteredTarget.status_upserted, if_neg fun hchanged => hchanged.2 hdraining]
    exact hdraining
  | disabled hcommits => exact .inr ⟨_, hcommits, rfl⟩
  | @stateSet _ desiredState _ _ hcommits =>
    by_cases hactive : desiredState = .active
    · exact .inr ⟨_, hcommits, rfl, hactive⟩
    · exact .inl ⟨_, rfl, if_neg hactive⟩
  | probed =>
    refine .inl ⟨_, rfl, ?_⟩
    rw [RegisteredTarget.status_probed, if_pos hdraining]
  | deferred hnot => exact absurd hdraining (hnot hrespects)
  | purged hoffline => exact absurd (hoffline.symm.trans hdraining) nofun

/-- A disabled row is enabled by a commit. -/
theorem enabled_of_move (h : Healthy settings s) {targetId : UUID} {t t' : RegisteredTarget}
    (ht : s.registry.target? targetId = some t)
    (hmove : TargetMove settings s a targetId (some t) (some t')) (hdisabled : t.enabled = false)
    (hon : t'.enabled = true ∨ t'.status = .active) :
    ∃ content, Commits s a content ∧ Enables t content := by
  have hoffline := h.disabled targetId t ht hdisabled
  cases hmove with
  | same =>
    rw [hdisabled, hoffline] at hon
    rcases hon with hon | hon <;> cases hon
  | @upserted _ name _ _ _ _ _ _ _ _ hcommits hfound =>
    have hname : t.name = name := by simpa using List.find?_some hfound
    exact ⟨_, hcommits, hname.symm⟩
  | disabled => rcases hon with hon | hon <;> cases hon
  | stateSet hcommits => exact ⟨_, hcommits, (Registry.id_of_target? ht).symm⟩
  | probed _ henabled =>
    rw [hdisabled] at henabled
    cases henabled
  | deferred =>
    rcases hon with hon | hon
    · exact absurd (hdisabled.symm.trans hon) nofun
    · cases hon

theorem honoursIntent (h : Healthy settings s) (hrespects : RespectsIntent s a) :
    HonoursIntent settings s a where
  draining targetId _ ht hdraining := draining_of_move hrespects
    (ht ▸ OperatorService.targetMove_of_step h.keys a targetId) hdraining
  disabled targetId _ _ ht hdisabled ht' hon := h.enabled_of_move ht
    (ht ▸ ht' ▸ OperatorService.targetMove_of_step h.keys a targetId) hdisabled hon

end Healthy

/-- In every run in which no deferral meets a drained Target and no `upsert` changes only
the credential of an ACTIVE one, a drain and a disablement last until an operator ends
them and the Runtime of every ACTIVE Target answered for its present configuration. -/
theorem operator_intent_and_health (settings : ProbeSettings) (acts : List OperatorAction)
    (hrespects : Transition.Along (OperatorService.step settings) RespectsIntent {} acts) :
    Transition.Along (OperatorService.step settings) (HonoursIntent settings) {} acts ∧
      Probed (OperatorService.run settings acts) := by
  have hstart : Healthy settings {} := by
    refine ⟨List.nodup_nil, fun _ _ ht => ?_, fun _ _ ht => ?_, ?_⟩
    · cases ht
    · cases ht
    · rintro _ _ _ _ (⟨_, hmem, _⟩ | hmem) _
      · cases hmem
      · cases hmem
  refine ⟨Transition.along_of_invariant (fun _ _ hs => hs.step) (fun _ _ hs => hs.honoursIntent)
    hstart hrespects, ?_⟩
  exact (Transition.invariant (fun _ _ hs => hs.step) hstart hrespects).probed

/-! ### A drain that a deferral ends -/

namespace Small

/-- Settings for the runs below. -/
def probeSettings : ProbeSettings where
  runtimeAllowedProfiles := ["python"]
  runtimeDefaultMaxConcurrentExecutions := 1
  redactMessage := id

/-- The Runtime is healthy, and no Execution holds the Target. -/
def callInput : CallInput where
  now := 1
  newId := 5
  nonce := 0
  reserved := false
  selected := []
  answer := ⟨.ok (some 0), .ok ["python"], .error "unavailable"⟩

/-- A Target is registered and probed. -/
def registeredTarget : List OperatorAction :=
  [.call ⟨50, .upsert "target" .jupyter ⟨"http://runtime"⟩ (some "token") .interactive none none none⟩,
    .advance 0 callInput, .advance 0 callInput, .advance 0 callInput, .advance 0 callInput,
    .advance 0 callInput, .advance 0 callInput]

/-- An operator drains it. -/
def drainedTarget : List OperatorAction :=
  registeredTarget ++ [.call ⟨51, .setState 5 .draining none none⟩, .advance 1 callInput,
    .advance 1 callInput]

/-- The rows of an Execution whose retry runs on its retained session. -/
def resumedRetry : Tables :=
  ((submission .single).run (retainedRun ++ [.table 7 (.retry 7 300),
    .table 8 (.claim 8 7 21 view)])).rows.tables

end Small

theorem operator_intent_and_health_registeredTarget :
    (∃ t, (OperatorService.run Small.probeSettings Small.registeredTarget).registry.target? 5 =
        some t ∧ t.status = .active) ∧
      Transition.Along (OperatorService.step Small.probeSettings)
        (HonoursIntent Small.probeSettings) {} Small.registeredTarget ∧
      Probed (OperatorService.run Small.probeSettings Small.registeredTarget) := by
  refine ⟨⟨_, rfl, by decide +kernel⟩, operator_intent_and_health _ _ ?_⟩
  refine ⟨trivial, ?_, ?_, ?_, ?_, ?_, ?_, trivial⟩
  all_goals
    intro _ _ _ _ _ _ _ _ t hcommits hfound _ _
    obtain ⟨_, _, call, _, _, hadvance, hcall, hphase, _⟩ := hcommits
    cases hadvance
    cases hcall
    -- Only the second step locks a row, and there is none yet.
    first
      | cases hphase; done
      | cases (show none = some t from hfound)

/-- The deferral of a retry writes OFFLINE over the operator's drain. -/
theorem deferral_ends_drain :
    ¬ ∀ (settings : ProbeSettings) (acts : List OperatorAction),
      Transition.Along (OperatorService.step settings) (HonoursIntent settings) {} acts ∧
        Probed (OperatorService.run settings acts) := by
  intro h
  have halong := (h Small.probeSettings (Small.drainedTarget ++
    [.deferRetainedRetry Small.resumedRetry (Small.clock 9) (Small.lease 21 2) 5 "timeout"])).1
  have hhonours := (Transition.along_append.mp halong).2.1
  obtain ⟨t, ht, hdraining⟩ : ∃ t,
      (Transition.run (OperatorService.step Small.probeSettings) {}
        Small.drainedTarget).registry.target? 5 = some t ∧ t.status = .draining :=
    ⟨_, rfl, by decide +kernel⟩
  rcases hhonours.draining 5 t ht hdraining with ⟨t', ht', hdraining'⟩ | ⟨content, hcommits, _⟩
  · have hstatus := congrArg (Option.map (·.status)) ht'
    rw [Option.map_some, hdraining'] at hstatus
    revert hstatus
    decide +kernel
  · obtain ⟨_, _, _, _, _, hadvance, _⟩ := hcommits
    cases hadvance

end ExecutorService
