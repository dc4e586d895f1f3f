/-
The numbers of Attempts.

An Attempt is numbered when a claim adds it, by the Attempts that are there; afterwards it is
looked up by its number, a page of Attempts goes by it, and the event of a Step tells by it
whether the run was a retry.

* `KeepsAttempts`, `attempts_of_change` — only a claim adds an Attempt, and none changes its
  number;
* `Submission.attempts_numbered` — in every history the Attempts are numbered from one on, and
  the latest one is the one that was claimed last.
-/
import ExecutorService.Numbering
import Mathlib.Data.List.Induction

namespace ExecutorService

/-- An Attempt by its identifiers. -/
def AttemptRow.key (a : AttemptRow) : UUID × ℕ :=
  (a.id, a.attemptNumber)

/-- The ids and numbers of the Attempts. -/
def Tables.attemptKeys (t : Tables) : List (UUID × ℕ) :=
  t.attempts.map (·.key)

/-- The keys stay, or a new Attempt gets the next number. -/
structure KeepsAttempts (attemptId : Option UUID) (t t' : Tables) : Prop where
  keys : t'.attemptKeys = t.attemptKeys ++
    (attemptId.map fun id => (id, t.attempts.length + 1)).toList
  fresh : ∀ id ∈ attemptId, ∀ a ∈ t.attempts, a.id ≠ id

namespace Tables

variable {t t' t'' : Tables}

theorem keeps_of_keys (h : t'.attemptKeys = t.attemptKeys) : KeepsAttempts none t t' :=
  ⟨by rw [h]; exact (List.append_nil _).symm, fun _ hid => by cases hid⟩

theorem keeps_of_attempts (h : t'.attempts = t.attempts) : KeepsAttempts none t t' :=
  keeps_of_keys (by rw [attemptKeys, h]; rfl)

/-- Attempts that are updated keep their numbers. -/
theorem keeps_updateWhere {p : AttemptRow → Bool} {f : AttemptRow → AttemptRow}
    (hf : ∀ a, (f a).key = a.key) (h : t'.attempts = t.attempts.updateWhere p f) :
    KeepsAttempts none t t' :=
  keeps_of_keys (by rw [attemptKeys, h, List.map_updateWhere hf]; rfl)

/-- A new Attempt is the next one. -/
theorem keeps_addAttempt {attemptId : UUID} (fresh : t.attempts.any (·.id == attemptId) = false)
    {added : AttemptRow} (h : t'.attempts = t.attempts ++ [added])
    (hkey : added.key = (attemptId, t.attempts.length + 1) := by rfl) :
    KeepsAttempts (some attemptId) t t' := by
  refine ⟨by rw [attemptKeys, h, List.map_append, List.map_singleton, hkey]; rfl, ?_⟩
  rintro _ ⟨⟩ a ha hid
  rw [List.any_eq_false] at fresh
  exact fresh a ha (beq_iff_eq.mpr hid)

/-- An update of the Attempt that is found, or of none. -/
theorem keeps_updateFound {found : Option AttemptRow} {f : AttemptRow → AttemptRow}
    (h : t'.attempts = match found with
      | none => t.attempts
      | some attempt => t.attempts.updateWhere (·.id == attempt.id) f)
    (hf : ∀ a, (f a).key = a.key) : KeepsAttempts none t t' := by
  cases found with
  | none => exact keeps_of_attempts h
  | some attempt => exact keeps_updateWhere hf h

theorem keeps_markAttemptPending (h : KeepsAttempts none t t') :
    KeepsAttempts none t t'.markAttemptPending := by
  unfold Tables.markAttemptPending
  split
  · exact h
  · refine ⟨?_, h.fresh⟩
    rw [← h.keys, attemptKeys, List.map_updateWhere]
    · rfl
    · exact fun a => rfl

end Tables

open Tables in
/-- Only a claim adds an Attempt. -/
theorem attempts_of_change {settings : Settings} {r : Rows} {tx : TableTransaction} {c : Change}
    (h : tx.change settings r = .ok c) : ∃ attemptId, KeepsAttempts attemptId r.tables c.tables := by
  -- Most transactions leave the Attempts alone, or change a column that numbers nothing.
  have same : ∀ {t' : Tables}, t'.attempts = r.tables.attempts →
      ∃ attemptId, KeepsAttempts attemptId r.tables t' := fun h => ⟨none, keeps_of_attempts h⟩
  have updated : ∀ {t' : Tables} {p : AttemptRow → Bool} {f : AttemptRow → AttemptRow},
      t'.attempts = r.tables.attempts.updateWhere p f → (∀ a, (f a).key = a.key) →
        ∃ attemptId, KeepsAttempts attemptId r.tables t' := fun h hf => ⟨none, keeps_updateWhere hf h⟩
  cases tx with
  | createOperation now command =>
    obtain ⟨t, ht, rfl⟩ := Txn.quiet_ok.mp h
    -- The commands of callers make no Attempt.
    rcases createOperation_ok ht with rfl | ⟨_, _, _, _, _, _, _, _, _, rfl⟩ <;> exact same rfl
  | cancel now key reason =>
    obtain ⟨t, ht, rfl⟩ := Txn.quiet_ok.mp h
    rcases cancel_ok ht with rfl | ⟨_, _, rfl⟩ <;> exact same rfl
  | retry now key =>
    obtain ⟨t, ht, rfl⟩ := Txn.quiet_ok.mp h
    rcases retry_ok ht with rfl | ⟨operationId, fromSequence, _, _, rfl⟩ <;> exact same rfl
  | finalizeCommand now key fingerprint expectedVersion =>
    obtain ⟨t, ht, rfl⟩ := Txn.quiet_ok.mp h
    rcases finalizeCommand_ok ht with rfl | ⟨_, _, rfl⟩ <;> exact same rfl
  | claim now worker attemptId view =>
    cases claim_ok h with
    | idle => exact same rfl
    | waiting => exact updated rfl fun _ => rfl
    -- Only a claim adds one, with a number beyond the others.
    | resumed _ fresh => exact ⟨some attemptId, keeps_addAttempt fresh rfl⟩
    | started _ fresh => exact ⟨some attemptId, keeps_addAttempt fresh rfl⟩
    | unavailable => exact same rfl
  | claimHandover now worker view =>
    cases h
    rcases claimHandover_cases settings now worker view r.tables with
      hc | ⟨_, _, hc | ⟨attempt, _, hc⟩⟩ <;> rw [hc]
    · exact same rfl
    · exact same rfl
    · -- The Attempt keeps its number for the new Worker.
      exact updated rfl fun _ => rfl
  | claimCancellation now worker =>
    cases h
    rcases claimCancellation_cases settings now worker r.tables with
      hc | ⟨_, ⟨_, hc⟩ | hc⟩ <;> rw [hc] <;> exact same rfl
  | renewExecution now lease =>
    obtain ⟨t, ht, rfl⟩ := Txn.quiet_ok.mp h
    obtain ⟨_, rfl⟩ := renewExecution_ok ht
    exact updated rfl fun _ => rfl
  | renewCancellation now lease =>
    obtain ⟨t, ht, rfl⟩ := Txn.quiet_ok.mp h
    obtain ⟨_, rfl⟩ := renewCancellation_ok ht
    exact same rfl
  | assertExecution clock lease allowed =>
    obtain ⟨_, rfl⟩ := assertExecution_ok h
    exact same rfl
  | ensureCount clock lease cellCount =>
    obtain ⟨_, rfl⟩ := ensureCount_ok h
    exact same rfl
  | recordRuntimeSession clock lease sessionId workspace notebook =>
    obtain ⟨_, rfl⟩ := recordRuntimeSession_ok h
    exact updated rfl fun _ => rfl
  | markStarted clock lease sequence historyId requestId baseline =>
    obtain ⟨_, _, _, step, _, tables, _, _⟩ := markStarted_ok h
    rw [tables]
    exact same rfl
  | markSubmitted clock lease requestId =>
    obtain ⟨_, rfl⟩ := markSubmitted_ok h
    exact same rfl
  | recordHandoverCompleted clock lease sequence handover finished =>
    obtain ⟨_, step, _, tables, _, _⟩ := recordHandoverCompleted_ok h
    rw [tables]
    exact same rfl
  | markSucceeded clock lease sequence stored =>
    obtain ⟨_, step, _, tables, _, _⟩ := markSucceeded_ok h
    rw [tables]
    exact same rfl
  | markFailed clock lease sequence stored message retryable =>
    obtain ⟨_, step, _, tables, _, _⟩ := markFailed_ok h
    rw [tables]
    exact same rfl
  | recordInterruptedResult clock lease sequence stored =>
    obtain ⟨_, step, rfl⟩ := recordInterruptedResult_ok h
    cases stored <;> exact same rfl
  | completeOperation clock lease operationId status message failureType =>
    obtain ⟨_, rfl | ⟨operation, seconds, _, _, _, _, rfl⟩⟩ := completeOperation_ok h
    · exact same rfl
    · -- The Attempt waits for the next Operation.
      exact updated rfl fun _ => rfl
  | skipStepsAfter clock lease operationId sequence =>
    obtain ⟨_, rfl⟩ := skipStepsAfter_ok h
    exact same rfl
  | beginProjection clock lease =>
    obtain ⟨_, e, _, rfl⟩ := beginProjection_ok h
    exact same rfl
  | recordProjection clock lease status count message =>
    obtain ⟨_, e, _, rfl⟩ := recordProjection_ok h
    exact same rfl
  | persistNotebook clock lease notebook =>
    obtain ⟨_, artifacts, rfl⟩ := persistNotebook_ok h
    exact same rfl
  | persistArtifacts clock lease sequence allow artifacts =>
    obtain ⟨_, artifacts, rfl⟩ := persistArtifacts_ok h
    exact same rfl
  | recordRuntimeAbort clock lease abort cleanup failureType =>
    obtain ⟨_, rfl⟩ := recordRuntimeAbort_ok h
    exact updated rfl fun _ => rfl
  | deferRetainedRetry clock lease =>
    obtain ⟨t, ht, rfl⟩ := Txn.quiet_ok.mp h
    obtain ⟨_, _, rfl | ⟨_, rfl⟩⟩ := deferRetainedRetry_ok ht
    · exact same rfl
    · exact updated rfl fun _ => rfl
  | releaseForCancellation clock lease =>
    obtain ⟨_, rfl⟩ := releaseForCancellation_ok h
    exact updated rfl fun _ => rfl
  | releaseForHandover clock lease =>
    obtain ⟨_, rfl | ⟨stepAttempt, stepId, _, _, tables, _, _⟩⟩ := releaseForHandover_ok h
    · exact same rfl
    · rw [tables]
      exact updated rfl fun _ => rfl
  | finalize clock lease request =>
    obtain ⟨_, attemptStatus, stepEvents, _, _, _, tables, _⟩ := finalize_ok h
    rw [tables, finalizeSteps]
    -- The end of the run is the end of its Attempt.
    split <;> exact updated rfl fun _ => rfl
  | finalizeCancellation clock lease cleanup =>
    obtain ⟨_, stepEvents, _, _, tables, _⟩ := finalizeCancellation_ok h
    rw [tables]
    exact updated rfl fun _ => rfl
  | fenceExpiredLease now view =>
    cases fenceExpiredLease_ok h with
    | idle => exact same rfl
    | handedOver _ _ _ tables _ _ =>
      rw [tables]
      exact updated rfl fun _ => rfl
    -- The Attempt of the lost lease fails.
    | failed => exact updated rfl fun _ => rfl
  | failQueueTimeout now =>
    rcases failQueueTimeout_ok h with rfl | ⟨_, _, rfl⟩ <;> exact same rfl
  | requestExpiredCancellation now =>
    rcases requestExpiredCancellation_ok h with rfl | ⟨_, rfl⟩ <;> exact same rfl
  | endWaitingExecution now observation finalizedBy =>
    rcases endWaitingExecution_ok h with rfl | ⟨_, rfl | ⟨failureType, message, rfl⟩⟩
    · exact same rfl
    · exact same rfl
    · -- The waiting Attempt ends.
      exact ⟨none, keeps_updateFound rfl fun _ => rfl⟩
  | failWaitingExecution now observation failureType message =>
    rcases failWaitingExecution_ok h with rfl | ⟨_, rfl⟩
    · exact same rfl
    · exact ⟨none, keeps_updateFound rfl fun _ => rfl⟩
  | cleanupExpired now =>
    rcases cleanupExpired_ok h with rfl | ⟨_, ⟨_, rfl⟩ | ⟨_, row, closed, events, rfl, hclosed, rfl⟩⟩
    · exact same rfl
    · -- Its Attempt waits for the session's end.
      exact ⟨none, keeps_markAttemptPending (keeps_of_attempts rfl)⟩
    · obtain ⟨rfl, rfl⟩ := Prod.mk.inj hclosed
      exact ⟨none, keeps_markAttemptPending (keeps_of_attempts rfl)⟩
  | retryUnresolved now =>
    cases h
    simp only [retryUnresolved]
    split
    · exact ⟨none, keeps_markAttemptPending (keeps_of_attempts rfl)⟩
    · exact same rfl
  | recordResult now observation cleanup =>
    cases h
    rcases recordResult_cases observation cleanup now r.tables with hr | ⟨_, _, hr⟩ <;> rw [hr]
    · exact same rfl
    · -- It notes the end of the session.
      exact ⟨none, keeps_updateFound rfl fun _ => rfl⟩

/-! ### Histories -/

/-- The Attempts are numbered from one on, in the order of their claims. -/
structure Tables.Attempted (t : Tables) : Prop where
  numbers : t.attempts.map (·.attemptNumber) = List.range' 1 t.attempts.length
  ids : (t.attempts.map (·.id)).Nodup

namespace Tables

variable {t t' : Tables} {attemptId : Option UUID}

theorem attemptKeys_numbers (t : Tables) :
    t.attempts.map (·.attemptNumber) = t.attemptKeys.map Prod.snd := by
  rw [attemptKeys, List.map_map]
  rfl

theorem attemptKeys_ids (t : Tables) : t.attempts.map (·.id) = t.attemptKeys.map Prod.fst := by
  rw [attemptKeys, List.map_map]
  rfl

theorem attempted_of_keeps (h : KeepsAttempts attemptId t t') (ht : t.Attempted) :
    t'.Attempted := by
  have hlength : t'.attempts.length = t.attempts.length + attemptId.toList.length := by
    have hkeys := congrArg List.length h.keys
    cases attemptId <;> simpa [attemptKeys] using hkeys
  have hnumbers : t.attemptKeys.map Prod.snd = List.range' 1 t.attempts.length :=
    t.attemptKeys_numbers.symm.trans ht.numbers
  have hids : (t.attemptKeys.map Prod.fst).Nodup := t.attemptKeys_ids ▸ ht.ids
  refine ⟨?_, ?_⟩
  · rw [attemptKeys_numbers, h.keys, List.map_append, hnumbers, hlength]
    cases attemptId with
    | none => exact List.append_nil _
    | some id =>
      show _ ++ [t.attempts.length + 1] = List.range' 1 (t.attempts.length + 1)
      rw [List.range'_concat, Nat.one_mul, Nat.add_comm 1]
  · rw [attemptKeys_ids, h.keys, List.map_append]
    cases attemptId with
    | none => exact (List.append_nil _).symm ▸ hids
    | some id =>
      refine List.nodup_append.mpr ⟨hids, List.nodup_singleton _, fun x hx y hy => ?_⟩
      rw [List.mem_singleton.mp hy]
      rw [← attemptKeys_ids] at hx
      obtain ⟨a, ha, rfl⟩ := List.mem_map.mp hx
      exact h.fresh id rfl a ha

theorem Attempted.sorted (h : t.Attempted) :
    (t.attempts.map (·.attemptNumber)).Pairwise (· < ·) := by
  rw [h.numbers]
  exact List.pairwise_lt_range'

/-- An Attempt that was not there before has a larger number than all that were. -/
theorem Attempted.later {t₀ : Tables} (h : t.Attempted)
    (hstored : t₀.attemptKeys <+: t.attemptKeys) {a : AttemptRow} (ha : a ∈ t.attempts)
    (hnew : a.id ∉ t₀.attempts.map (·.id)) :
    ∀ b ∈ t₀.attempts, b.attemptNumber < a.attemptNumber := by
  intro b hb
  have hsorted : (t.attemptKeys.map Prod.snd).Pairwise (· < ·) :=
    t.attemptKeys_numbers ▸ h.sorted
  obtain ⟨rest, hkeys⟩ := hstored
  rw [← hkeys, List.map_append] at hsorted
  have hkey : a.key ∈ t₀.attemptKeys ++ rest := by
    rw [hkeys]
    exact List.mem_map_of_mem ha
  rcases List.mem_append.mp hkey with hold | hafter
  · obtain ⟨x, hx, hsame⟩ := List.mem_map.mp hold
    exact absurd (List.mem_map.mpr ⟨x, hx, congrArg Prod.fst hsame⟩) hnew
  · have hbefore : b.key ∈ t₀.attemptKeys := List.mem_map_of_mem hb
    exact (List.pairwise_append.mp hsorted).2.2 _ (List.mem_map_of_mem hbefore) _
      (List.mem_map_of_mem hafter)

/-- The latest Attempt is the one that was claimed last. -/
theorem Attempted.latest (h : t.Attempted) : t.latestAttempt? = t.attempts.getLast? := by
  have hsorted : t.attempts.Pairwise fun a b => a.attemptNumber < b.attemptNumber :=
    List.pairwise_map.mp h.sorted
  rw [latestAttempt?]
  generalize t.attempts = attempts at hsorted
  induction attempts using List.reverseRecOn with
  | nil => rfl
  | append_singleton attempts a ih =>
    -- The fold has found the last of the others, and the new number is larger.
    obtain ⟨hsorted, _, hlast⟩ := List.pairwise_append.mp hsorted
    rw [List.foldl_append, ih hsorted, List.getLast?_concat, List.foldl_cons, List.foldl_nil]
    cases hbest : attempts.getLast? with
    | none => rfl
    | some b =>
      have hlt := hlast b (List.mem_of_getLast? hbest) a (List.mem_singleton_self a)
      exact if_pos hlt

end Tables

section

variable {settings : Settings}

theorem History.step_attempts (h : History) (settings : Settings) (tx : Transaction) :
    ∃ attemptId, KeepsAttempts attemptId h.rows.tables (h.step settings tx).rows.tables := by
  cases tx with
  | log tx => exact ⟨none, Tables.keeps_of_attempts rfl⟩
  | table eventTime tx =>
    rcases h.step_table_or settings eventTime tx with hstep | ⟨change, log, hchange, hstep⟩ <;>
      rw [hstep]
    · exact ⟨none, Tables.keeps_of_attempts rfl⟩
    · exact attempts_of_change hchange

theorem submit_attempts {now : Time} {command : SubmitExecutionCommand} {t : Tables}
    (h : submit settings now command = .ok t) : t.attempts = [] := by
  simp only [submit, Txn.bind_ok] at h
  obtain ⟨_, _, _, _, _, _, steps, _, h⟩ := h
  split at h
  · cases h
  · cases h
    rfl

theorem Submission.attempted_run (submission : Submission settings) (txs : List Transaction) :
    (submission.run txs).rows.tables.Attempted := by
  refine Transition.invariant_of_step (I := fun h : History => h.rows.tables.Attempted)
    (fun h tx ht => ?_) ?_ txs
  · obtain ⟨_, hkeeps⟩ := h.step_attempts settings tx
    exact Tables.attempted_of_keeps hkeeps ht
  · have hattempts : submission.history.rows.tables.attempts = [] :=
      submit_attempts submission.accepted
    refine ⟨?_, ?_⟩ <;> rw [hattempts]
    · rfl
    · exact List.nodup_nil

/-- In every history the Attempts are numbered from one on, in the order of their claims, and
the latest Attempt is the one that was claimed last. -/
theorem Submission.attempts_numbered (submission : Submission settings) (txs : List Transaction) :
    (submission.run txs).rows.tables.Attempted ∧
      (submission.run txs).rows.tables.latestAttempt? =
        (submission.run txs).rows.tables.attempts.getLast? :=
  ⟨submission.attempted_run txs, (submission.attempted_run txs).latest⟩

end

end ExecutorService
