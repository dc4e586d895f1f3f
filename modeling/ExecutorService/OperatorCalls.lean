/-
Repeated operator commands.

A call looks for the record of its key before it locks its row and leaves its own at the
commit.  A call that was overtaken between the two, by a call with its key, does not look
again: it meets the unique key of the receipt at its commit, or the active Run of the call
that overtook it, and returns that error.

* `OperatorRequest.Recorded` — the receipt or the Run that a command leaves;
* `RepeatAnswered` — what a call whose key was used must return;
* `NotOvertaken` — the condition on a step: a call under its lock was not overtaken by one with
  its key, a Run is not created under the key of another kind of command, and the desired
  state of a Target is one that the interfaces admit;
* `operator_commands_idempotent` — in every run of such steps every return is right, no
  command takes effect twice, and every call returns.
-/
import ExecutorService.OperatorIntent

namespace ExecutorService

/-! ### Statement -/

/-- The view that a command has now: of the Target it names, where a registration has the Target
that the receipt of its key names; of the maintenance row; or of the Run of its key. -/
def Registry.Current (r : Registry) (request : OperatorRequest) (view : OperatorView) : Prop :=
  match request.content with
  | .upsert name .. => ∃ receipt target, r.receipt? request.idempotencyKey = some receipt ∧
      receipt.result = .target target.id ∧ r.target? target.id = some target ∧
      target.name = name ∧ view = .target target
  | .disable targetId .. => ∃ target, r.target? targetId = some target ∧ view = .target target
  | .setState targetId .. => ∃ target, r.target? targetId = some target ∧ view = .target target
  | .setAdmission .. => view = .maintenance r.maintenance
  | .createRun .. => ∃ run, r.run? request.idempotencyKey = some run ∧ view = .run run

/-- The Target that the receipt of the key names was not purged. -/
def Registry.NotPurged (r : Registry) (key : Key) : Prop :=
  ∀ receipt targetId, r.receipt? key = some receipt → receipt.result = .target targetId →
    targetId ∉ r.purged

/-- The call took effect. -/
def OperatorService.Applied (s : OperatorService) (i : ℕ) (request : OperatorRequest) : Prop :=
  ∃ call, s.calls[i]? = some call ∧ call.applied = true ∧ call.request = request

/-- What a call returns: the current view of its command if another call with its key and content
took effect, and the conflict if one with its key and other content did; neither changes
anything. -/
structure RepeatAnswered (s s' : OperatorService) (i : ℕ) (request : OperatorRequest)
    (result : OperatorResult) : Prop where
  repeated : (∃ j, j ≠ i ∧ s.Applied j request) → s.registry.NotPurged request.idempotencyKey →
    (∃ view, result = .ok view ∧ s'.registry.Current request view) ∧ s'.registry = s.registry
  conflicting : (∃ j other, s.Applied j other ∧ other.idempotencyKey = request.idempotencyKey ∧
      other.content ≠ request.content) →
    (∃ message, result = .error (.idempotencyConflict message)) ∧
      s'.registry = s.registry ∧ ¬ s'.Applied i request

/-- How many more steps a call may take. -/
def OperatorPhase.rank : OperatorPhase → ℕ
  | .looking => 6
  | .locking => 5
  | .inserting => 4
  | .probing _ .reading => 3
  | .probing _ (.calling _) => 2
  | .probing _ (.writing _ _) => 1
  | .probing _ .viewing => 1
  | .done _ => 0

/-- A call that returns is answered rightly, and a call that moves comes nearer to its
return. -/
def IdempotentCall (settings : ProbeSettings) (s : OperatorService) : OperatorAction → Prop
  | .call request => ∀ result, request.entry = .done result →
      RepeatAnswered s (s.step settings (.call request)) s.calls.length request result
  | .advance i input => ∀ call, s.calls[i]? = some call → 0 < call.phase.rank →
      ∃ call', (s.step settings (.advance i input)).calls[i]? = some call' ∧
        call'.request = call.request ∧ call'.phase.rank < call.phase.rank ∧
        ∀ result, call'.phase = .done result →
          RepeatAnswered s (s.step settings (.advance i input)) i call.request result
  | _ => True

/-- A command takes effect at most once. -/
def AppliedOnce (s : OperatorService) : Prop :=
  ∀ i j request other, s.Applied i request → s.Applied j other →
    request.idempotencyKey = other.idempotencyKey → i = j

/-- The key was recorded, in the Runs for a Run and in the receipts for another command. -/
def Registry.used (r : Registry) (request : OperatorRequest) : Bool :=
  if request.content.isRun then (r.run? request.idempotencyKey).isSome
  else (r.receipt? request.idempotencyKey).isSome

/-- The condition on a step. -/
def NotOvertaken (s : OperatorService) : OperatorAction → Prop
  | .call request => request.entry = .looking ∧
      ∀ call ∈ s.calls, call.request.idempotencyKey = request.idempotencyKey →
        call.request.content.isRun = request.content.isRun
  | .advance i _ => ∀ call, s.calls[i]? = some call →
      call.phase = .locking ∨ call.phase = .inserting → s.registry.used call.request = false
  | _ => True

/-! ### Records -/

/-- What the receipt of a command holds. -/
def OperatorContent.resultFits : OperatorContent → ReceiptResult → Bool
  | .setAdmission .., .singletonKey => true
  | .upsert .., .target _ => true
  | .disable targetId .., .target id => id == targetId
  | .setState targetId .., .target id => id == targetId
  | _, _ => false

/-- The command left its record. -/
def OperatorRequest.Recorded (r : Registry) (request : OperatorRequest) : Prop :=
  if request.content.isRun then
    ∃ run, r.run? request.idempotencyKey = some run ∧ run.requestFingerprint = request.content
  else ∃ receipt, r.receipt? request.idempotencyKey = some receipt ∧
    receipt.commandType = request.content.commandType ∧
    receipt.requestFingerprint = request.content ∧
    request.content.resultFits receipt.result = true

/-- Records stay; a Run may move on. -/
structure Registry.KeepsRecords (r r' : Registry) : Prop where
  receipts : ∀ key receipt, r.receipt? key = some receipt → r'.receipt? key = some receipt
  runs : ∀ key run, r.run? key = some run →
    ∃ run', r'.run? key = some run' ∧ run'.requestFingerprint = run.requestFingerprint

/-- The Target is the one that a registration named. -/
def OperatorContent.Names (target : RegisteredTarget) : OperatorContent → Prop
  | .upsert name .. => target.name = name
  | _ => True

/-- The Target of a receipt is registered under its name or was purged. -/
def Registry.Known (r : Registry) : Prop :=
  ∀ key receipt targetId, r.receipt? key = some receipt → receipt.result = .target targetId →
    (∃ target, r.target? targetId = some target ∧ receipt.requestFingerprint.Names target) ∨
      targetId ∈ r.purged

/-- Targets stay, with their names. -/
def Registry.KeepsTargets (r r' : Registry) : Prop :=
  ∀ targetId target, r.target? targetId = some target →
    ∃ target', r'.target? targetId = some target' ∧ target'.name = target.name

/-- What a commit does to the records. -/
structure Registry.CommitsRecord (r r' : Registry) (request : OperatorRequest) : Prop where
  fresh : r.used request = false
  recorded : request.Recorded r'
  keeps : r.KeepsRecords r'
  known : r.Known → r'.Known

theorem OperatorContent.Names.of_name {content : OperatorContent} {target target' : RegisteredTarget}
    (h : content.Names target) (hname : target'.name = target.name) : content.Names target' := by
  cases content with
  | upsert => exact hname.trans h
  | _ => trivial

namespace Registry

variable {r r' : Registry}

theorem KeepsRecords.refl (r : Registry) : r.KeepsRecords r :=
  ⟨fun _ _ h => h, fun _ run h => ⟨run, h, rfl⟩⟩

theorem KeepsRecords.of_eq (hreceipts : r'.receipts = r.receipts) (hruns : r'.runs = r.runs) :
    r.KeepsRecords r' := by
  refine ⟨fun key receipt h => ?_, fun key run h => ⟨run, ?_, rfl⟩⟩
  · rw [receipt?, hreceipts]
    exact h
  · rw [run?, hruns]
    exact h

theorem Known.of_eq (h : r.Known) (hreceipts : r'.receipts = r.receipts)
    (hpurged : r'.purged = r.purged) (htargets : r.KeepsTargets r') : r'.Known := by
  intro key receipt targetId hreceipt hresult
  rw [receipt?, hreceipts] at hreceipt
  rw [hpurged]
  refine (h key receipt targetId hreceipt hresult).imp_left ?_
  rintro ⟨target, hfound, hnames⟩
  obtain ⟨target', hfound', hname⟩ := htargets targetId target hfound
  exact ⟨target', hfound', hnames.of_name hname⟩

/-- A purged Target is remembered. -/
theorem Known.purge (h : r.Known) (id : UUID) :
    Known { r with targets := r.targets.filter (·.id != id), purged := r.purged ++ [id] } := by
  intro key receipt targetId hreceipt hresult
  by_cases hid : targetId = id
  · exact .inr (List.mem_append_right _ (List.mem_singleton.mpr hid))
  · rcases h key receipt targetId hreceipt hresult with ⟨target, hfound, hnames⟩ | hpurged
    · refine .inl ⟨target, ?_, hnames⟩
      rw [target?, List.find?_filter]
      refine (congrArg (List.find? · r.targets) (funext fun t => ?_)).trans hfound
      by_cases ht : t.id = targetId
      · simp [ht, hid]
      · simp [ht]
    · exact .inr (List.mem_append_left _ hpurged)

theorem keepsTargets_setTarget {id : UUID} {f : RegisteredTarget → RegisteredTarget}
    (hf : ∀ t, (f t).id = t.id) (hname : ∀ t, (f t).name = t.name) :
    r.KeepsTargets (r.setTarget id f) := by
  intro targetId target hfound
  rw [target?_setTarget hf, hfound]
  split
  · exact ⟨f target, rfl, hname target⟩
  · exact ⟨target, rfl, rfl⟩

/-- The commit of a command that has written its row. -/
theorem commitsRecord {r₀ : Registry} {request : OperatorRequest} {result : ReceiptResult}
    {phase phase' : OperatorPhase} (h : r.commit request result phase = .committed r' phase')
    (hrun : request.content.isRun = false) (hfits : request.content.resultFits result = true)
    (hreceipts : r.receipts = r₀.receipts) (hruns : r.runs = r₀.runs)
    (hpurged : r.purged = r₀.purged)
    (htargets : r₀.KeepsTargets r)
    (hknown : ∀ targetId, result = .target targetId →
      ∃ target, r.target? targetId = some target ∧ request.content.Names target) :
    r₀.CommitsRecord r' request := by
  unfold commit addReceipt at h
  split at h
  · rename_i hadd
    split at hadd
    · cases hadd
    rename_i hfree
    cases hadd
    cases h
    -- The key was free among the receipts.
    have hnone : r₀.receipt? request.idempotencyKey = none := by
      rw [receipt?, ← hreceipts]
      exact Option.not_isSome_iff_eq_none.mp hfree
    -- The list holds the old receipts and the new one.
    have hnew : ∀ key receipt, (r.receipts ++ [OperatorReceipt.mk request.idempotencyKey
        request.content.commandType request.content result]).find? (·.idempotencyKey == key) =
          some receipt →
        r₀.receipt? key = some receipt ∨
          receipt = ⟨request.idempotencyKey, request.content.commandType, request.content,
            result⟩ := by
      intro key receipt hfound
      rw [List.find?_append, hreceipts] at hfound
      rcases Option.or_eq_some_iff.mp hfound with hold | ⟨_, hnew⟩
      · exact .inl hold
      · rw [List.find?_singleton] at hnew
        split at hnew
        · exact .inr (Option.some.inj hnew).symm
        · cases hnew
    have hown : (r.receipts ++ [OperatorReceipt.mk request.idempotencyKey
        request.content.commandType request.content result]).find?
          (·.idempotencyKey == request.idempotencyKey) =
        some ⟨request.idempotencyKey, request.content.commandType, request.content, result⟩ := by
      rw [List.find?_append, hreceipts,
        show r₀.receipts.find? (·.idempotencyKey == request.idempotencyKey) = none from hnone]
      simp
    -- A fresh key, its record, and every older record as it was.
    refine ⟨?_, ?_, ⟨fun key receipt hfound => ?_, fun key run hfound => ⟨run, ?_, rfl⟩⟩, ?_⟩
    · rw [used, hrun, if_neg Bool.false_ne_true, hnone]
      rfl
    · rw [OperatorRequest.Recorded, hrun, if_neg Bool.false_ne_true]
      exact ⟨_, hown, rfl, rfl, hfits⟩
    · rw [receipt?, List.find?_append, hreceipts,
        show r₀.receipts.find? (·.idempotencyKey == key) = some receipt from hfound]
      rfl
    · rw [run?, hruns]
      exact hfound
    · intro hbefore key receipt targetId hfound hresult
      rcases hnew key receipt hfound with hold | rfl
      · refine (hbefore key receipt targetId hold hresult).imp ?_ fun hmem => hpurged ▸ hmem
        rintro ⟨target, hregistered, hnames⟩
        obtain ⟨target', hregistered', hname⟩ := htargets targetId target hregistered
        exact ⟨target', hregistered', hnames.of_name hname⟩
      · exact .inl (hknown targetId hresult)
  · cases h

/-- The commit of a command that has written the row of a Target. -/
theorem commitsRecord_setTarget {request : OperatorRequest} {targetId : UUID}
    {f : RegisteredTarget → RegisteredTarget} {phase phase' : OperatorPhase}
    (h : (r.setTarget targetId f).commit request (.target targetId) phase = .committed r' phase')
    (hf : ∀ t, (f t).id = t.id) (hname : ∀ t, (f t).name = t.name) {target : RegisteredTarget}
    (hfound : r.target? targetId = some target) (hnames : request.content.Names target)
    (hrun : request.content.isRun = false)
    (hfits : request.content.resultFits (.target targetId) = true) :
    r.CommitsRecord r' request := by
  have hkeeps : r.KeepsTargets (r.setTarget targetId f) := keepsTargets_setTarget hf hname
  refine commitsRecord h hrun hfits rfl rfl rfl hkeeps ?_
  rintro id ⟨⟩
  obtain ⟨target', hfound', hsame⟩ := hkeeps targetId target hfound
  exact ⟨target', hfound', hnames.of_name hsame⟩

end Registry

/-! ### Lookups and commits -/

namespace OperatorRequest

variable {r r' : Registry} {request other : OperatorRequest}

theorem Recorded.keep (h : request.Recorded r) (hkeeps : r.KeepsRecords r') :
    request.Recorded r' := by
  unfold Recorded at h ⊢
  by_cases hisRun : request.content.isRun = true
  · rw [if_pos hisRun] at h ⊢
    obtain ⟨run, hrun, hfingerprint⟩ := h
    obtain ⟨run', hrun', hsame⟩ := hkeeps.runs _ run hrun
    exact ⟨run', hrun', hsame.trans hfingerprint⟩
  · rw [if_neg hisRun] at h ⊢
    obtain ⟨receipt, hreceipt, hrest⟩ := h
    exact ⟨receipt, hkeeps.receipts _ receipt hreceipt, hrest⟩

theorem Recorded.used (h : other.Recorded r) (hkey : other.idempotencyKey = request.idempotencyKey)
    (hrun : other.content.isRun = request.content.isRun) : r.used request = true := by
  unfold Recorded at h
  rw [Registry.used, ← hkey, ← hrun]
  split at h
  · rename_i hisRun
    obtain ⟨run, hfound, _⟩ := h
    rw [if_pos hisRun, hfound]
    rfl
  · rename_i hisRun
    obtain ⟨receipt, hfound, _⟩ := h
    rw [if_neg hisRun, hfound]
    rfl

/-- A repeated call finds its record and returns the view of the row as it is. -/
theorem Recorded.lookup (h : request.Recorded r) (hknown : r.Known)
    (hpurged : r.NotPurged request.idempotencyKey) :
    ∃ view, request.lookup r = some (.ok view) ∧ r.Current request view := by
  unfold Recorded at h
  unfold OperatorRequest.lookup
  split at h
  · -- A Run is its own record; everything else has a receipt.
    rename_i hrun
    obtain ⟨run, hfound, hfingerprint⟩ := h
    refine ⟨.run run, ?_, ?_⟩
    · rw [if_pos hrun, hfound, Option.map_some, if_neg (not_not.mpr hfingerprint)]
    · unfold Registry.Current
      split
      case h_5 => exact ⟨run, hfound, rfl⟩
      all_goals
        rename_i hcontent
        rw [hcontent] at hrun
        cases hrun
  · rename_i hrun
    -- The receipt's type and fingerprint fit, so what it names is returned.
    obtain ⟨receipt, hfound, htype, hfingerprint, hfits⟩ := h
    rw [if_neg hrun, hfound, Option.map_some,
      if_neg (not_or.mpr ⟨not_not.mpr htype, not_not.mpr hfingerprint⟩)]
    cases hresult : receipt.result with
    | singletonKey =>
      refine ⟨.maintenance r.maintenance, rfl, ?_⟩
      unfold Registry.Current
      rw [hresult] at hfits
      split
      case h_4 => rfl
      all_goals
        rename_i hcontent
        rw [hcontent] at hfits
        cases hfits
    | target targetId =>
      -- The Target of the receipt is still registered under its name.
      obtain ⟨target, htarget, hnames⟩ := (hknown _ receipt targetId hfound hresult).resolve_right
        (hpurged receipt targetId hfound hresult)
      refine ⟨.target target, ?_, ?_⟩
      · cases request.content <;> simp [Registry.targetView, htarget]
      · unfold Registry.Current
        rw [hresult] at hfits
        rw [hfingerprint] at hnames
        split <;> rename_i hcontent <;> rw [hcontent] at hfits hnames
        · rw [← Registry.id_of_target? htarget] at hresult htarget
          exact ⟨receipt, target, hfound, hresult, htarget, hnames, rfl⟩
        · exact ⟨target, beq_iff_eq.mp hfits ▸ htarget, rfl⟩
        · exact ⟨target, beq_iff_eq.mp hfits ▸ htarget, rfl⟩
        · cases hfits
        · cases hfits

/-- A call whose key was used for something else finds that record. -/
theorem Recorded.conflict (h : other.Recorded r)
    (hkey : other.idempotencyKey = request.idempotencyKey)
    (hrun : other.content.isRun = request.content.isRun) (hcontent : other.content ≠ request.content) :
    ∃ message, request.lookup r = some (.error (.idempotencyConflict message)) := by
  unfold Recorded at h
  unfold OperatorRequest.lookup
  rw [hkey, hrun] at h
  split at h
  · rename_i hisRun
    obtain ⟨run, hfound, hfingerprint⟩ := h
    rw [if_pos hisRun, hfound, Option.map_some, if_pos (hfingerprint ▸ hcontent)]
    exact ⟨_, rfl⟩
  · rename_i hisRun
    obtain ⟨receipt, hfound, _, hfingerprint, _⟩ := h
    rw [if_neg hisRun, hfound, Option.map_some, if_pos (.inr (hfingerprint ▸ hcontent))]
    exact ⟨_, rfl⟩

theorem lockRow_commitsRecord {input : CallInput} {phase : OperatorPhase}
    (hkeys : (r.targets.map (·.id)).Nodup)
    (h : request.lockRow input r = .committed r' phase) : r.CommitsRecord r' request := by
  unfold lockRow at h
  split at h
  · -- One case per command, each with the row it locks.
    rename_i hcontent
    split at h
    · cases h
    split at h
    · split at h <;> cases h
    · rename_i target hfound
      split at h
      · cases h
      split at h
      · cases h
      · -- The upsert changes a Target that is there: its id and name stay.
        refine Registry.commitsRecord_setTarget h (fun t => t.id_upserted _ _ _ _ _)
          (fun t => t.name_upserted _ _ _ _ _)
          (Registry.target?_of_mem hkeys (List.mem_of_find?_eq_some hfound)) ?_
          (by rw [hcontent]; rfl) (by rw [hcontent]; rfl)
        rw [hcontent]
        have hname := List.find?_some hfound
        exact beq_iff_eq.mp hname
  · rename_i hcontent
    split at h
    · cases h
    · rename_i hfound
      exact Registry.commitsRecord_setTarget h (fun t => rfl) (fun t => rfl) hfound
        (by rw [hcontent]; trivial) (by rw [hcontent]; rfl)
        (by rw [hcontent]; exact beq_self_eq_true _)
  · rename_i hcontent
    split at h
    · cases h
    · rename_i hfound
      exact Registry.commitsRecord_setTarget h (fun t => rfl) (fun t => rfl) hfound
        (by rw [hcontent]; trivial) (by rw [hcontent]; rfl)
        (by rw [hcontent]; exact beq_self_eq_true _)
  · rename_i hcontent
    refine Registry.commitsRecord h (by rw [hcontent]; rfl) (by rw [hcontent]; rfl) rfl rfl rfl
      (fun _ target hfound => ⟨target, hfound, rfl⟩) ?_
    rintro targetId ⟨⟩
  · rename_i hcontent
    split at h
    · cases h
    simp only at h
    split at h
    · cases h
    rename_i htaken
    cases h
    have hrun : request.content.isRun = true := by
      rw [hcontent]
      rfl
    -- No Run has this key yet.
    have hnone : r.runs.find? (·.idempotencyKey == request.idempotencyKey) = none := by
      rw [List.find?_eq_none]
      intro run hmem hkey
      exact htaken (List.any_eq_true.mpr ⟨run, hmem, by simp [hkey]⟩)
    refine ⟨?_, ?_, ⟨fun _ _ hfound => hfound, fun key run hfound => ⟨run, ?_, rfl⟩⟩,
      fun hknown => hknown⟩
    · rw [Registry.used, if_pos hrun, Registry.run?, hnone]
      rfl
    · rw [Recorded, if_pos hrun, Registry.run?, List.find?_append, hnone]
      simp
    · rw [Registry.run?, List.find?_append,
        show r.runs.find? (·.idempotencyKey == key) = some run from hfound]
      rfl

theorem insertTarget_commitsRecord {settings : ProbeSettings} {input : CallInput}
    {phase : OperatorPhase} (h : request.insertTarget settings input r = .committed r' phase) :
    r.CommitsRecord r' request := by
  unfold insertTarget at h
  split at h
  · rename_i hcontent
    split at h
    · cases h
    · rename_i hfree
      refine Registry.commitsRecord h (by rw [hcontent]; rfl) (by rw [hcontent]; rfl) rfl rfl rfl
        (fun targetId target hfound => ⟨target, ?_, rfl⟩) ?_
      · rw [Registry.target?] at hfound
        rw [Registry.target?, List.find?_append, hfound]
        rfl
      · rintro targetId ⟨⟩
        have hnone : r.targets.find? (·.id == input.newId) = none := by
          rw [List.find?_eq_none]
          intro t hmem hid
          exact hfree (List.any_eq_true.mpr ⟨t, hmem, by simp [hid]⟩)
        have hnew : ∀ target : RegisteredTarget, target.id = input.newId →
            (r.targets ++ [target]).find? (·.id == input.newId) = some target := by
          intro target hid
          rw [List.find?_append, hnone, Option.none_or, List.find?_singleton,
            if_pos (beq_iff_eq.mpr hid)]
        exact ⟨_, hnew _ rfl, by rw [hcontent]; exact rfl⟩
  · cases h

end OperatorRequest

/-! ### What a step can do to a call -/

/-- A step of a call, with the registry it leaves. -/
inductive CallMove (r : Registry) (call : OperatorCall) : Registry → OperatorCall → Prop
  | found {result : OperatorResult} (hphase : call.phase = .looking)
      (hlookup : call.request.lookup r = some result) :
      CallMove r call r { call with phase := .done result }
  | missed (hphase : call.phase = .looking) : CallMove r call r { call with phase := .locking }
  | committed {r' : Registry} {phase : OperatorPhase}
      (hphase : call.phase = .locking ∨ call.phase = .inserting)
      (hcommits : r.CommitsRecord r' call.request) (hrank : phase.rank < 4) :
      CallMove r call r' { call with phase := phase, applied := true }
  | inserts (hphase : call.phase = .locking) : CallMove r call r { call with phase := .inserting }
  | failed {error : RegistryError} (hphase : call.phase = .locking ∨ call.phase = .inserting) :
      CallMove r call r { call with phase := .done (.error error) }
  | probed {r' : Registry} {phase : OperatorPhase} (hbefore : call.phase.rank < 4)
      (hrank : phase.rank < call.phase.rank) (hkeeps : r.KeepsRecords r')
      (hknown : r.Known → r'.Known) : CallMove r call r' { call with phase := phase }

namespace CallMove

variable {r r' : Registry} {call call' : OperatorCall}

theorem request_eq (h : CallMove r call r' call') : call'.request = call.request := by
  cases h <;> rfl

theorem rank_of_pending (h : call.phase = .locking ∨ call.phase = .inserting) :
    4 ≤ call.phase.rank := by
  rcases h with h | h <;> simp [h, OperatorPhase.rank]

theorem rank_lt (h : CallMove r call r' call') : call'.phase.rank < call.phase.rank := by
  cases h with
  | found hphase _ => simp [hphase, OperatorPhase.rank]
  | missed hphase => simp [hphase, OperatorPhase.rank]
  | committed hphase _ hrank => exact hrank.trans_le (rank_of_pending hphase)
  | inserts hphase => simp [hphase, OperatorPhase.rank]
  | failed hphase => exact Nat.lt_of_lt_of_le (by simp [OperatorPhase.rank]) (rank_of_pending hphase)
  | probed _ hrank _ _ => exact hrank

theorem keeps (h : CallMove r call r' call') : r.KeepsRecords r' := by
  cases h with
  | committed _ hcommits _ => exact hcommits.keeps
  | probed _ _ hkeeps _ => exact hkeeps
  | _ => exact .refl r

theorem known (h : CallMove r call r' call') (hknown : r.Known) : r'.Known := by
  cases h with
  | committed _ hcommits _ => exact hcommits.known hknown
  | probed _ _ _ hkept => exact hkept hknown
  | _ => exact hknown

/-- A call that takes effect now left its record under a fresh key. -/
theorem applied (h : CallMove r call r' call') (happlied : call'.applied = true) :
    call.applied = true ∨ r.used call.request = false ∧ call.request.Recorded r' := by
  cases h with
  | committed _ hcommits _ => exact .inr ⟨hcommits.fresh, hcommits.recorded⟩
  | _ => exact .inl happlied

theorem applied_of_pending (h : CallMove r call r' call') (hrank : 4 ≤ call'.phase.rank) :
    call'.applied = call.applied := by
  cases h with
  | committed _ _ hafter => exact absurd hrank (not_le.mpr hafter)
  | _ => rfl

theorem applied_of_going (h : CallMove r call r' call') (hpositive : 0 < call'.phase.rank)
    (hrank : call'.phase.rank < 4) :
    call'.applied = true ∨ call.phase.rank < 4 ∧ call'.applied = call.applied := by
  cases h with
  | found => exact absurd hpositive (lt_irrefl 0)
  | missed => exact absurd hrank (by simp [OperatorPhase.rank])
  | committed => exact .inl rfl
  | inserts => exact absurd hrank (by simp [OperatorPhase.rank])
  | failed => exact absurd hpositive (lt_irrefl 0)
  | probed hbefore _ _ _ => exact .inr ⟨hbefore, rfl⟩

/-- Where a call that returns was. -/
theorem cases_of_done (h : CallMove r call r' call') {result : OperatorResult}
    (hdone : call'.phase = .done result) :
    (call.phase = .looking ∧ call.request.lookup r = some result ∧ r' = r ∧
        call'.applied = call.applied) ∨
      (call.phase = .locking ∨ call.phase = .inserting) ∨ call.phase.rank < 4 := by
  cases h with
  | found hphase hlookup =>
    cases hdone
    exact .inl ⟨hphase, hlookup, rfl, rfl⟩
  | missed => cases hdone
  | committed hphase _ _ => exact .inr (.inl hphase)
  | inserts => cases hdone
  | failed hphase => exact .inr (.inl hphase)
  | probed hbefore _ _ _ => exact .inr (.inr hbefore)

end CallMove

theorem Registry.commit_rank {r r' : Registry} {request : OperatorRequest} {result : ReceiptResult}
    {phase phase' : OperatorPhase} (h : r.commit request result phase = .committed r' phase')
    (hrank : phase.rank < 4) : phase'.rank < 4 :=
  (Registry.commit_ok h).2 ▸ hrank

theorem Registry.commit_ne_inserts {r : Registry} {request : OperatorRequest}
    {result : ReceiptResult} {phase : OperatorPhase} : r.commit request result phase ≠ .inserts := by
  unfold Registry.commit
  split <;> exact nofun

theorem OperatorRequest.lockRow_rank {input : CallInput} {r r' : Registry}
    {request : OperatorRequest} {phase : OperatorPhase}
    (h : request.lockRow input r = .committed r' phase) : phase.rank < 4 := by
  unfold OperatorRequest.lockRow at h
  split at h
  · split at h
    · cases h
    split at h
    · split at h <;> cases h
    · split at h
      · cases h
      split at h
      · cases h
      · exact Registry.commit_rank h (by simp [OperatorPhase.rank])
  · split at h
    · cases h
    · exact Registry.commit_rank h (by simp [OperatorPhase.rank])
  · split at h
    · cases h
    · refine Registry.commit_rank h ?_
      split <;> simp [OperatorPhase.rank]
  · exact Registry.commit_rank h (by simp [OperatorPhase.rank])
  · split at h
    · cases h
    simp only at h
    split at h
    · cases h
    · cases h
      simp [OperatorPhase.rank]

theorem OperatorRequest.insertTarget_rank {settings : ProbeSettings} {input : CallInput}
    {r r' : Registry} {request : OperatorRequest} {phase : OperatorPhase}
    (h : request.insertTarget settings input r = .committed r' phase) : phase.rank < 4 := by
  unfold OperatorRequest.insertTarget at h
  split at h
  · split at h
    · cases h
    · exact Registry.commit_rank h (by simp [OperatorPhase.rank])
  · cases h

theorem OperatorRequest.insertTarget_ne_inserts {settings : ProbeSettings} {input : CallInput}
    {r : Registry} {request : OperatorRequest} :
    request.insertTarget settings input r ≠ .inserts := by
  unfold OperatorRequest.insertTarget
  split
  · split
    · exact nofun
    · exact Registry.commit_ne_inserts
  · exact nofun

namespace OperatorService

variable {settings : ProbeSettings} {s : OperatorService}

/-- A probe leaves the records alone and goes on to a later part. -/
theorem probeStep_keeps (settings : ProbeSettings) (input : CallInput) (targetId : UUID)
    (phase : ProbePhase) (r : Registry) :
    r.KeepsRecords (r.probeStep settings input targetId phase).1 ∧
      (r.Known → (r.probeStep settings input targetId phase).1.Known) ∧
      ∀ next, (r.probeStep settings input targetId phase).2 = .goesOn next →
        (OperatorPhase.probing targetId next).rank < (OperatorPhase.probing targetId phase).rank := by
  cases phase with
  | reading =>
    unfold Registry.probeStep
    simp only
    split
    · exact ⟨.refl r, id, by rintro next ⟨⟩⟩
    · split
      · refine ⟨.refl r, id, ?_⟩
        rintro next ⟨⟩
        simp [OperatorPhase.rank]
      · refine ⟨.refl r, id, ?_⟩
        rintro next ⟨⟩
        simp [OperatorPhase.rank]
  | calling observed =>
    refine ⟨.refl r, id, ?_⟩
    rintro next ⟨⟩
    simp [OperatorPhase.rank]
  | writing observed answer =>
    unfold Registry.probeStep
    simp only
    split
    · exact ⟨.refl r, id, by rintro next ⟨⟩⟩
    · split
      · exact ⟨.refl r, id, by rintro next ⟨⟩⟩
      · split
        · exact ⟨.of_eq rfl rfl, fun hknown => hknown.of_eq rfl rfl
            (Registry.keepsTargets_setTarget (fun t => t.id_probed _ _ _)
              fun t => t.name_probed _ _ _), by rintro next ⟨⟩⟩
        · exact ⟨.refl r, id, by rintro next ⟨⟩⟩
  | viewing => exact ⟨.refl r, id, by rintro next ⟨⟩⟩

theorem callMove_settle {i : ℕ} {call : OperatorCall} {result : RowResult}
    (hphase : call.phase = .locking ∨ call.phase = .inserting)
    (hcommits : ∀ r phase, result = .committed r phase →
      s.registry.CommitsRecord r call.request ∧ phase.rank < 4)
    (hinserts : result = .inserts → call.phase = .locking) :
    ∃ call', (s.settle i call result).calls = s.calls.set i call' ∧
      CallMove s.registry call (s.settle i call result).registry call' := by
  unfold settle
  split
  · rename_i r phase
    obtain ⟨hrecord, hrank⟩ := hcommits r phase rfl
    exact ⟨_, rfl, .committed hphase hrecord hrank⟩
  · exact ⟨_, rfl, .inserts (hinserts rfl)⟩
  · exact ⟨_, rfl, .failed hphase⟩

/-- What a step can do to the call it moves. -/
theorem callMove_of_advance (settings : ProbeSettings)
    (hkeys : (s.registry.targets.map (·.id)).Nodup) (i : ℕ) {call : OperatorCall}
    (hrank : 0 < call.phase.rank) (input : CallInput) :
    ∃ call', (s.advance settings i call input).calls = s.calls.set i call' ∧
      CallMove s.registry call (s.advance settings i call input).registry call' := by
  unfold advance
  split
  · rename_i hphase
    split
    · rename_i hlookup
      exact ⟨_, rfl, .found hphase hlookup⟩
    · exact ⟨_, rfl, .missed hphase⟩
  · rename_i hphase
    exact callMove_settle (.inl hphase) (fun r phase hlock =>
      ⟨OperatorRequest.lockRow_commitsRecord hkeys hlock, OperatorRequest.lockRow_rank hlock⟩)
      fun _ => hphase
  · rename_i hphase
    exact callMove_settle (.inr hphase) (fun r phase hinsert =>
      ⟨OperatorRequest.insertTarget_commitsRecord hinsert,
        OperatorRequest.insertTarget_rank hinsert⟩)
      fun hinserts => absurd hinserts OperatorRequest.insertTarget_ne_inserts
  · rename_i targetId phase hphase
    obtain ⟨hkeeps, hknown, hnext⟩ := probeStep_keeps settings input targetId phase s.registry
    refine ⟨_, rfl, .probed ?_ ?_ hkeeps hknown⟩
    · rw [hphase]
      cases phase <;> simp [OperatorPhase.rank]
    · split
      · rename_i next hgoes
        rw [hphase]
        exact hnext next hgoes
      · exact hrank
  · rename_i hphase
    rw [hphase] at hrank
    cases hrank

theorem advance_returned {i : ℕ} {call : OperatorCall} (h : ¬ 0 < call.phase.rank)
    (input : CallInput) : s.advance settings i call input = s := by
  unfold advance
  split
  · rename_i hphase
    exact absurd (by simp [hphase, OperatorPhase.rank]) h
  · rename_i hphase
    exact absurd (by simp [hphase, OperatorPhase.rank]) h
  · rename_i hphase
    exact absurd (by simp [hphase, OperatorPhase.rank]) h
  · rename_i targetId phase hphase
    refine absurd ?_ h
    rw [hphase]
    cases phase <;> simp [OperatorPhase.rank]
  · rfl

end OperatorService

/-! ### Runs -/

/-- What holds of the rows and of the calls in every reachable state. -/
structure Idempotent (s : OperatorService) : Prop where
  keys : (s.registry.targets.map (·.id)).Nodup
  known : s.registry.Known
  recorded : ∀ i request, s.Applied i request → request.Recorded s.registry
  once : AppliedOnce s
  pending : ∀ (i : ℕ) (call : OperatorCall), s.calls[i]? = some call → 4 ≤ call.phase.rank →
    call.applied = false
  going : ∀ (i : ℕ) (call : OperatorCall), s.calls[i]? = some call → 0 < call.phase.rank →
    call.phase.rank < 4 → call.applied = true
  apart : ∀ call ∈ s.calls, ∀ other ∈ s.calls,
    call.request.idempotencyKey = other.request.idempotencyKey →
    call.request.content.isRun = other.request.content.isRun

namespace Idempotent

variable {settings : ProbeSettings} {s s' : OperatorService}

/-- A step that moves no call. -/
theorem of_calls_eq (h : Idempotent s) (hcalls : s'.calls = s.calls)
    (hkeys : (s'.registry.targets.map (·.id)).Nodup) (hknown : s'.registry.Known)
    (hkeeps : s.registry.KeepsRecords s'.registry) : Idempotent s' where
  keys := hkeys
  known := hknown
  recorded i request happlied := by
    rw [OperatorService.Applied, hcalls] at happlied
    exact (h.recorded i request happlied).keep hkeeps
  once i j request other hi hj hkey := by
    rw [OperatorService.Applied, hcalls] at hi hj
    exact h.once i j request other hi hj hkey
  pending i call hcall := h.pending i call (hcalls ▸ hcall)
  going i call hcall := h.going i call (hcalls ▸ hcall)
  apart := by
    rw [hcalls]
    exact h.apart

/-- A call that took effect under the key of another uses its record. -/
theorem used (h : Idempotent s) {i j : ℕ} {call : OperatorCall} {other : OperatorRequest}
    (hcall : s.calls[i]? = some call) (happlied : s.Applied j other)
    (hkey : other.idempotencyKey = call.request.idempotencyKey) :
    s.registry.used call.request = true := by
  refine (h.recorded j other happlied).used hkey ?_
  obtain ⟨call', hcall', _, rfl⟩ := happlied
  exact h.apart call' (List.mem_of_getElem? hcall') call (List.mem_of_getElem? hcall) hkey

/-- The calls that took effect after a call has moved. -/
theorem applied_of_set {i j : ℕ} {call call' : OperatorCall} {request : OperatorRequest}
    (hcall : s.calls[i]? = some call) (hcalls : s'.calls = s.calls.set i call')
    (h : s'.Applied j request) :
    (i = j ∧ call'.applied = true ∧ call'.request = request) ∨ (i ≠ j ∧ s.Applied j request) := by
  obtain ⟨other, hother, happlied, hrequest⟩ := h
  rw [hcalls, List.getElem?_set] at hother
  split at hother
  · rename_i hij
    rw [if_pos (hij ▸ (List.getElem?_eq_some_iff.mp hcall).1), Option.some.injEq] at hother
    exact .inl ⟨hij, hother ▸ happlied, hother ▸ hrequest⟩
  · rename_i hij
    exact .inr ⟨hij, other, hother, happlied, hrequest⟩

/-- A call that moves keeps the invariant. -/
theorem of_callMove (h : Idempotent s) {i : ℕ} {call call' : OperatorCall}
    (hcall : s.calls[i]? = some call) (hcalls : s'.calls = s.calls.set i call')
    (hmove : CallMove s.registry call s'.registry call')
    (hkeys : (s'.registry.targets.map (·.id)).Nodup) : Idempotent s' := by
  -- Only the one call has moved.
  have hset : ∀ (j : ℕ) (other : OperatorCall), s'.calls[j]? = some other →
      other = call' ∨ s.calls[j]? = some other := by
    intro j other hother
    rw [hcalls, List.getElem?_set] at hother
    split at hother
    · split at hother
      · exact .inl (Option.some.inj hother).symm
      · cases hother
    · exact .inr hother
  refine ⟨hkeys, hmove.known h.known, ?_, ?_, ?_, ?_, ?_⟩
  · intro j request hnow
    -- The request applied now is the call's own, or it had been applied before.
    rcases applied_of_set hcall hcalls hnow with ⟨_, happlied, rfl⟩ | ⟨_, happlied⟩
    · rw [hmove.request_eq]
      rcases hmove.applied happlied with hbefore | ⟨_, hrecorded⟩
      · exact (h.recorded i call.request ⟨call, hcall, hbefore, rfl⟩).keep hmove.keeps
      · exact hrecorded
    · exact (h.recorded j request happlied).keep hmove.keeps
  · intro j k request other hj hk hkey
    rcases applied_of_set hcall hcalls hj with ⟨rfl, happlied, rfl⟩ | ⟨hij, hj⟩
    · -- Two applied requests of one key are the same call: the second would have found its key
      -- used.
      rcases applied_of_set hcall hcalls hk with ⟨hik, _, _⟩ | ⟨_, hk⟩
      · exact hik
      · rw [hmove.request_eq] at hkey
        rcases hmove.applied happlied with hbefore | ⟨hfresh, _⟩
        · exact h.once i k call.request other ⟨call, hcall, hbefore, rfl⟩ hk hkey
        · rw [h.used hcall hk hkey.symm] at hfresh
          cases hfresh
    · rcases applied_of_set hcall hcalls hk with ⟨rfl, happlied, rfl⟩ | ⟨_, hk⟩
      · rw [hmove.request_eq] at hkey
        rcases hmove.applied happlied with hbefore | ⟨hfresh, _⟩
        · exact h.once j i request call.request hj ⟨call, hcall, hbefore, rfl⟩ hkey
        · rw [h.used hcall hj hkey] at hfresh
          cases hfresh
      · exact h.once j k request other hj hk hkey
  · intro j other hother hrank
    rcases hset j other hother with rfl | hother
    · rw [hmove.applied_of_pending hrank]
      exact h.pending i call hcall (hrank.trans hmove.rank_lt.le)
    · exact h.pending j other hother hrank
  · intro j other hother hpositive hrank
    rcases hset j other hother with rfl | hother
    · rcases hmove.applied_of_going hpositive hrank with happlied | ⟨hbefore, happlied⟩
      · exact happlied
      · rw [happlied]
        exact h.going i call hcall (hpositive.trans hmove.rank_lt) hbefore
    · exact h.going j other hother hpositive hrank
  · have hmem : ∀ other ∈ s'.calls, ∃ other' ∈ s.calls, other'.request = other.request := by
      intro other hother
      obtain ⟨j, hj⟩ := List.mem_iff_getElem?.mp hother
      rcases hset j other hj with rfl | hj
      · exact ⟨call, List.mem_of_getElem? hcall, hmove.request_eq.symm⟩
      · exact ⟨other, List.mem_of_getElem? hj, rfl⟩
    intro first hfirst second hsecond hkey
    obtain ⟨first', hfirst', heq⟩ := hmem first hfirst
    obtain ⟨second', hsecond', heq'⟩ := hmem second hsecond
    rw [← heq, ← heq'] at hkey ⊢
    exact h.apart first' hfirst' second' hsecond' hkey

/-- A new call has neither a record nor an effect. -/
theorem of_call (h : Idempotent s) {request : OperatorRequest} (hentry : request.entry = .looking)
    (hapart : ∀ call ∈ s.calls, call.request.idempotencyKey = request.idempotencyKey →
      call.request.content.isRun = request.content.isRun) :
    Idempotent (s.step settings (.call request)) := by
  have hnew : ∀ (i : ℕ) (call : OperatorCall),
      (s.step settings (.call request)).calls[i]? = some call →
      s.calls[i]? = some call ∨ call = ⟨request, .looking, false⟩ := by
    intro i call hcall
    rw [show (s.step settings (.call request)).calls = s.calls ++ [⟨request, .looking, false⟩] by
      rw [← hentry]; rfl, List.getElem?_append] at hcall
    split at hcall
    · exact .inl hcall
    · rw [List.getElem?_singleton] at hcall
      split at hcall
      · exact .inr (Option.some.inj hcall).symm
      · cases hcall
  have hold : ∀ i other, (s.step settings (.call request)).Applied i other → s.Applied i other := by
    rintro i other ⟨call, hcall, happlied, hrequest⟩
    rcases hnew i call hcall with hcall | rfl
    · exact ⟨call, hcall, happlied, hrequest⟩
    · cases happlied
  refine ⟨h.keys, h.known, fun i other happlied => h.recorded i other (hold i other happlied),
    fun i j first second hi hj => h.once i j first second (hold i first hi) (hold j second hj),
    fun i call hcall hrank => ?_, fun i call hcall hpositive hrank => ?_, ?_⟩
  · rcases hnew i call hcall with hcall | rfl
    · exact h.pending i call hcall hrank
    · rfl
  · rcases hnew i call hcall with hcall | rfl
    · exact h.going i call hcall hpositive hrank
    · exact absurd hrank (by simp [OperatorPhase.rank])
  · intro first hfirst second hsecond hkey
    obtain ⟨i, hi⟩ := List.mem_iff_getElem?.mp hfirst
    obtain ⟨j, hj⟩ := List.mem_iff_getElem?.mp hsecond
    rcases hnew i first hi with hi | rfl
    · rcases hnew j second hj with hj | rfl
      · exact h.apart first (List.mem_of_getElem? hi) second (List.mem_of_getElem? hj) hkey
      · exact hapart first (List.mem_of_getElem? hi) hkey
    · rcases hnew j second hj with hj | rfl
      · exact (hapart second (List.mem_of_getElem? hj) hkey.symm).symm
      · rfl

theorem step (h : Idempotent s) {a : OperatorAction} (hok : NotOvertaken s a) :
    Idempotent (s.step settings a) := by
  have hkeys : ((s.step settings a).registry.targets.map (·.id)).Nodup :=
    OperatorService.nodup_of_step h.keys a
  cases a with
  | call request => exact h.of_call hok.1 hok.2
  | advance i input =>
    unfold OperatorService.step at hkeys ⊢
    simp only at hkeys ⊢
    split
    · rename_i call hcall
      rw [hcall] at hkeys
      -- A call that has returned takes no further step.
      by_cases hrank : 0 < call.phase.rank
      · obtain ⟨call', hcalls, hmove⟩ :=
          OperatorService.callMove_of_advance settings h.keys i hrank input
        exact h.of_callMove hcall hcalls hmove hkeys
      · rw [OperatorService.advance_returned hrank]
        exact h
    · exact h
  | probe targetId => exact h.of_calls_eq rfl hkeys h.known (.refl _)
  | advanceProbe i input =>
    unfold OperatorService.step at hkeys ⊢
    simp only at hkeys ⊢
    split
    · rename_i probe hprobe
      rw [hprobe] at hkeys
      -- A probe writes what it observed and keeps receipts and Runs.
      obtain ⟨hkeeps, hknown, _⟩ :=
        OperatorService.probeStep_keeps settings input probe.targetId probe.phase s.registry
      exact h.of_calls_eq rfl hkeys (hknown h.known) hkeeps
    · exact h
  | deferRetainedRetry execution clock lease targetId diagnostic =>
    unfold OperatorService.step at hkeys ⊢
    simp only at hkeys ⊢
    split
    · rename_i hwrites
      rw [if_pos hwrites] at hkeys
      exact h.of_calls_eq rfl hkeys (h.known.of_eq rfl rfl
        (Registry.keepsTargets_setTarget (fun t => rfl) fun t => rfl)) (.of_eq rfl rfl)
    · exact h
  | purge targetId reserved unconfirmed =>
    unfold OperatorService.step at hkeys ⊢
    simp only at hkeys ⊢
    split
    · rename_i target hfound
      rw [hfound] at hkeys
      simp only at hkeys
      split
      · exact h
      · rename_i hblocked
        rw [if_neg hblocked] at hkeys
        exact h.of_calls_eq rfl hkeys (h.known.purge targetId) (.of_eq rfl rfl)
    · exact h
  | reconcile runId status =>
    refine h.of_calls_eq rfl hkeys h.known ⟨fun _ _ hfound => hfound, fun key run hfound => ?_⟩
    -- The status of one Run changes; no key does.
    have hmoved : (s.registry.runs.updateWhere (·.id == runId) fun run =>
        { run with status := status }).find? (·.idempotencyKey == key) =
          (s.registry.run? key).map fun run =>
            if run.id == runId then { run with status := status } else run := by
      rw [List.find?_updateWhere]
      · rfl
      · exact fun _ => rfl
    rw [hfound, Option.map_some] at hmoved
    refine ⟨_, hmoved, ?_⟩
    split <;> rfl

/-- A call that returns from its lookup. -/
theorem answered_of_lookup (h : Idempotent s) {i : ℕ} {call call' : OperatorCall}
    {result : OperatorResult} (hcall : s.calls[i]? = some call)
    (hcalls : s'.calls = s.calls.set i call') (hregistry : s'.registry = s.registry)
    (hfresh : call'.applied = false) (hlookup : call.request.lookup s.registry = some result) :
    RepeatAnswered s s' i call.request result where
  repeated := by
    rintro ⟨j, _, happlied⟩ hpurged
    obtain ⟨view, hview, hcurrent⟩ := (h.recorded j call.request happlied).lookup h.known hpurged
    rw [hlookup, Option.some.injEq] at hview
    rw [hregistry]
    exact ⟨⟨view, hview, hcurrent⟩, rfl⟩
  conflicting := by
    rintro ⟨j, other, happlied, hkey, hcontent⟩
    have hrun : other.content.isRun = call.request.content.isRun := by
      obtain ⟨call', hcall', _, rfl⟩ := happlied
      exact h.apart call' (List.mem_of_getElem? hcall') call (List.mem_of_getElem? hcall) hkey
    obtain ⟨message, hconflict⟩ := (h.recorded j other happlied).conflict hkey hrun hcontent
    rw [hlookup, Option.some.injEq] at hconflict
    refine ⟨⟨message, hconflict⟩, hregistry, fun hnow => ?_⟩
    rcases applied_of_set hcall hcalls hnow with ⟨_, hyes, _⟩ | ⟨hne, _⟩
    · rw [hfresh] at hyes
      cases hyes
    · exact hne rfl

/-- A call alone with its key is answered rightly, whatever it returns. -/
theorem answered_of_alone {i : ℕ} {request : OperatorRequest} {result : OperatorResult}
    (halone : ∀ j other, s.Applied j other → other.idempotencyKey = request.idempotencyKey →
      j = i ∧ other = request) : RepeatAnswered s s' i request result where
  repeated := by
    rintro ⟨j, hne, happlied⟩ _
    exact absurd (halone j request happlied rfl).1 hne
  conflicting := by
    rintro ⟨j, other, happlied, hkey, hcontent⟩
    exact absurd (congrArg _ (halone j other happlied hkey).2) hcontent

/-- A call that moves is answered rightly. -/
theorem idempotentCall (h : Idempotent s) {a : OperatorAction} (hok : NotOvertaken s a) :
    IdempotentCall settings s a := by
  cases a with
  | call request =>
    intro result hresult
    rw [hok.1] at hresult
    cases hresult
  | advance i input =>
    intro call hcall hrank
    have hstep : s.step settings (.advance i input) = s.advance settings i call input := by
      rw [OperatorService.step, hcall]
    obtain ⟨call', hcalls, hmove⟩ :=
      OperatorService.callMove_of_advance settings h.keys i hrank input
    rw [hstep]
    have hcall' : (s.advance settings i call input).calls[i]? = some call' := by
      rw [hcalls, List.getElem?_set_self (List.getElem?_eq_some_iff.mp hcall).1]
    refine ⟨call', hcall', hmove.request_eq, hmove.rank_lt, fun result hresult => ?_⟩
    rcases hmove.cases_of_done hresult with ⟨hphase, hlookup, hregistry, happlied⟩ | hphase | hbefore
    · refine h.answered_of_lookup hcall hcalls hregistry (happlied.trans ?_) hlookup
      exact h.pending i call hcall (by simp [hphase, OperatorPhase.rank])
    · -- Under its lock the call is the first with its key.
      refine answered_of_alone fun j other hother hkey => ?_
      have hused := h.used hcall hother hkey
      rw [hok call hcall hphase] at hused
      cases hused
    · -- After its commit the call is the only one with its key.
      have hown : s.Applied i call.request := ⟨call, hcall, h.going i call hcall hrank hbefore, rfl⟩
      refine answered_of_alone fun j other hother hkey => ?_
      obtain rfl := h.once j i other call.request hother hown hkey
      obtain ⟨call₂, hcall₂, _, rfl⟩ := hother
      rw [hcall, Option.some.injEq] at hcall₂
      exact ⟨rfl, congrArg _ hcall₂.symm⟩
  | _ => trivial

end Idempotent

/-- In every run in which no call is overtaken by one with its key, every call that returns
is answered rightly, every call comes nearer to its return with each step, and no command
takes effect twice. -/
theorem operator_commands_idempotent (settings : ProbeSettings) (acts : List OperatorAction)
    (hok : Transition.Along (OperatorService.step settings) NotOvertaken {} acts) :
    Transition.Along (OperatorService.step settings) (IdempotentCall settings) {} acts ∧
      AppliedOnce (OperatorService.run settings acts) := by
  have hnone : ∀ i request, ¬ OperatorService.Applied {} i request := by
    rintro i request ⟨call, hcall, _⟩
    rw [show (OperatorService.calls {})[i]? = none from List.getElem?_nil] at hcall
    cases hcall
  have hstart : Idempotent {} := by
    refine ⟨List.nodup_nil, ?_, fun i request h => absurd h (hnone i request),
      fun i j request other h => absurd h (hnone i request), ?_, ?_, ?_⟩
    · intro key receipt targetId hreceipt
      cases hreceipt
    · intro i call hcall
      cases hcall
    · intro i call hcall
      cases hcall
    · intro call hcall
      cases hcall
  exact ⟨Transition.along_of_invariant (fun _ _ hs => hs.step) (fun _ _ hs => hs.idempotentCall)
    hstart hok, (Transition.invariant (fun _ _ hs => hs.step) hstart hok).once⟩

/-! ### A late repeat and an overlapping one -/

namespace Small

/-- The registration is repeated after it has returned. -/
def repeatedRegistration : List OperatorAction :=
  registeredTarget ++ [.call ⟨50, .upsert "target" .jupyter ⟨"http://runtime"⟩ (some "token")
    .interactive none none none⟩, .advance 1 callInput]

/-- Two calls drain the Target under one key; both look before either commits. -/
def overlappingDrains : List OperatorAction :=
  registeredTarget ++ [.call ⟨51, .setState 5 .draining none none⟩,
    .call ⟨51, .setState 5 .draining none none⟩, .advance 1 callInput, .advance 2 callInput,
    .advance 1 callInput]

end Small

theorem operator_commands_idempotent_repeatedRegistration :
    (∃ call target, (OperatorService.run Small.probeSettings
        Small.repeatedRegistration).calls[1]? = some call ∧
      call.phase = .done (.ok (.target target)) ∧ call.applied = false) ∧
      Transition.Along (OperatorService.step Small.probeSettings)
        (IdempotentCall Small.probeSettings) {} Small.repeatedRegistration ∧
      AppliedOnce (OperatorService.run Small.probeSettings Small.repeatedRegistration) := by
  refine ⟨⟨_, _, rfl, rfl, rfl⟩, operator_commands_idempotent _ _ ?_⟩
  refine ⟨⟨rfl, List.forall_mem_nil _⟩, ?_, ?_, ?_, ?_, ?_, ?_, ⟨rfl, ?_⟩, ?_, trivial⟩
  case refine_7 =>
    intro call hmem _
    obtain rfl := List.mem_singleton.mp hmem
    rfl
  all_goals
    intro call hcall hphase
    cases hcall
    first
      | rfl
      | rcases hphase with hphase | hphase <;> cases hphase

/-- The call that looked too early meets the key of the receipt at its commit. -/
theorem overlapping_call_fails :
    ¬ ∀ (settings : ProbeSettings) (acts : List OperatorAction),
      Transition.Along (OperatorService.step settings) (IdempotentCall settings) {} acts ∧
        AppliedOnce (OperatorService.run settings acts) := by
  intro h
  have halong := (h Small.probeSettings (Small.overlappingDrains ++
    [.advance 2 Small.callInput])).1
  have hcall := (Transition.along_append.mp halong).2.1
  obtain ⟨call', hcall', _, _, hanswered⟩ := hcall _ rfl (by decide +kernel)
  cases hcall'
  obtain ⟨⟨view, hview, _⟩, _⟩ := (hanswered (.error .integrityError) rfl).repeated
    ⟨1, by decide, _, rfl, rfl, rfl⟩ (fun _ _ _ _ => List.not_mem_nil)
  cases hview

end ExecutorService
