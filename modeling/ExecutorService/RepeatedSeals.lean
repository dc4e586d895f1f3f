/-
Seals that are repeated.

A seal of an open result writes the manifest, beside a temporary file that is named by the pid
and must not be there yet, removes the state file and the log, renames the directory and syncs
it.  `play` runs a thread against what happens to each of its file operations, one after the
other, until they run out: the process stops there.  `complete` runs it undisturbed.

* `play_run` — what `play` does is a run of the process;
* `play_sealResult` — the result after an interrupted seal: still open, without its state file,
  or sealed; and the temporary files that are left;
* `seal_again_iff` — a seal can be repeated exactly if the interrupted one did not stop between
  the removal of the state file and the rename, and left no temporary file of the process that
  repeats it;
* `stranded_seal` — a result that stays without its state file.
-/
import ExecutorService.SealedResults

namespace ExecutorService.ResultStore

open Codec (Text Python)

variable {F : Type}

/-! ### Threads and file operations -/

/-- An operation on the log in memory, which cannot fail. -/
def Op.isMemory {α : Type} : Op F α → Bool
  | .currentLog | .keepLog _ | .object _ | .addEntry .. | .forgetLog => true
  | _ => false

section

variable {α β : Type}

/-- The store and the thread after file operations that went as the list says. -/
def play : Thread F α → List Io → Store F → Store F × Thread F α
  | .ret a, _, s => (s, .ret a)
  | .raise x, _, s => (s, .raise x)
  | .call e k, ios, s => match e.isMemory, ios with
    | true, ios => play (k (e.perform .done s).2) ios (e.perform .done s).1
    | false, [] => (s, .call e k)
    | false, io :: ios => play (k (e.perform io s).2) ios (e.perform io s).1

/-- A thread that nothing disturbs. -/
def complete : Thread F α → Store F → Store F × Except Failure α
  | .ret a, s => (s, .ok a)
  | .raise x, s => (s, .error x)
  | .call e k, s => complete (k (e.perform .done s).2) (e.perform .done s).1

/-- The call has returned or raised. -/
def ended : Thread F α → Bool
  | .call .. => false
  | _ => true

/-- An operation that took effect, though it may have failed. -/
def Io.tookEffect : Io → Bool
  | .done | .failed true => true
  | _ => false

/-- The file operations that took effect; the first that fails is the last one. -/
def effects : List Io → ℕ
  | .done :: ios => effects ios + 1
  | .failed true :: _ => 1
  | _ => 0

theorem play_call_memory {e : Op F β} {k : Except Failure β → Thread F α} (he : e.isMemory = true)
    (ios : List Io) (s : Store F) :
    play (.call e k) ios s = play (k (e.perform .done s).2) ios (e.perform .done s).1 := by
  simp only [play, he]

theorem play_call_nil {e : Op F β} {k : Except Failure β → Thread F α} (he : e.isMemory = false)
    (s : Store F) : play (.call e k) [] s = (s, .call e k) := by
  simp only [play, he]

theorem play_call_cons {e : Op F β} {k : Except Failure β → Thread F α} (he : e.isMemory = false)
    (io : Io) (ios : List Io) (s : Store F) :
    play (.call e k) (io :: ios) s = play (k (e.perform io s).2) ios (e.perform io s).1 := by
  simp only [play, he]

/-- What `play` does, step by step. -/
theorem play_run (py : Python F) {request : Request F} {waiting : Bool} {i : ℕ}
    {t : Thread F (Reply F)} (ios : List Io) {s : State F}
    (h : s.calls[i]? = some ⟨request, t, waiting⟩) :
    ∃ acts, Transition.run (State.step py) s acts =
      { s with
        store := (play t ios s.store).1
        calls := s.calls.set i ⟨request, (play t ios s.store).2, waiting⟩ } := by
  have hlt := (List.getElem?_eq_some_iff.mp h).1
  have hself : ∀ c, s.calls[i]? = some c → s.calls.set i c = s.calls := fun c hc => by
    rw [← (List.getElem?_eq_some_iff.mp hc).2, List.set_getElem_self]
  induction t generalizing ios s with
  | ret a => exact ⟨[], by simp only [play, hself _ h, Transition.run_nil]⟩
  | raise x => exact ⟨[], by simp only [play, hself _ h, Transition.run_nil]⟩
  | call e k ih =>
    -- One step, and the steps of what follows it.
    have hstep : ∀ io ios', ∃ acts, Transition.run (State.step py) s acts =
        { s with
          store := (play (k (e.perform io s.store).2) ios' (e.perform io s.store).1).1
          calls := s.calls.set i
            ⟨request, (play (k (e.perform io s.store).2) ios' (e.perform io s.store).1).2,
              waiting⟩ } := by
      intro io ios'
      obtain ⟨acts, hacts⟩ := ih (e.perform io s.store).2 ios' (s := { s with
          store := (e.perform io s.store).1
          calls := s.calls.set i ⟨request, k (e.perform io s.store).2, waiting⟩ })
        (by rw [List.getElem?_set_self hlt]) (by rw [List.length_set]; exact hlt)
        (fun c hc => by
          rw [List.getElem?_set_self hlt] at hc
          rw [List.set_set, Option.some.inj hc])
      refine ⟨.step i io :: acts, ?_⟩
      rw [Transition.run_cons, State.step, h]
      simp only
      rw [hacts, List.set_set]
    by_cases he : e.isMemory = true
    · rw [play_call_memory he]
      exact hstep .done ios
    · cases ios with
      | nil =>
        rw [play_call_nil (Bool.eq_false_iff.mpr he)]
        exact ⟨[], by simp only [hself _ h, Transition.run_nil]⟩
      | cons io ios =>
        rw [play_call_cons (Bool.eq_false_iff.mpr he)]
        exact hstep io ios

/-- What is wrapped for the caller. -/
theorem play_bind_ret (t : Thread F α) (f : α → β) (ios : List Io) (s : Store F) :
    (play (t >>= fun a => .ret (f a)) ios s).1 = (play t ios s).1 := by
  induction t generalizing ios s with
  | ret a => rfl
  | raise x => rfl
  | call e k ih =>
    by_cases he : e.isMemory = true
    · exact (congrArg Prod.fst (play_call_memory he ios s)).trans
        ((ih _ ios _).trans (congrArg Prod.fst (play_call_memory he ios s)).symm)
    · have he := Bool.eq_false_iff.mpr he
      cases ios with
      | nil =>
        have hnil : ∀ {γ : Type} (k' : _ → Thread F γ), (play (.call e k') [] s).1 = s :=
          fun k' => congrArg Prod.fst (play_call_nil he s)
        exact (hnil _).trans (hnil k).symm
      | cons io ios =>
        exact (congrArg Prod.fst (play_call_cons he io ios s)).trans
          ((ih _ ios _).trans (congrArg Prod.fst (play_call_cons he io ios s)).symm)

/-- An operation that only an interruption keeps from its effect. -/
def Op.Takes (e : Op F α) (s s' : Store F) (a : α) : Prop :=
  e.isMemory = false ∧ ∀ io, e.perform io s = io.reply s s' a

variable {e : Op F α} {k : Except Failure α → Thread F β} {f : α → Thread F β} {s s' : Store F}
  {a : α}

theorem play_memory {Q : Store F → Prop} {ios : List Io} (he : e.isMemory = true)
    (h : e.perform .done s = (s', .ok a)) (hrest : Q (play (k (.ok a)) ios s').1) :
    Q (play (.call e k) ios s).1 := by
  rw [play_call_memory he, h]
  exact hrest

theorem complete_call {r : Except Failure α} (h : e.perform .done s = (s', r)) :
    complete (.call e k) s = complete (k r) s' := by
  rw [complete, h]

theorem Op.Takes.done (h : e.Takes s s' a) : e.perform .done s = (s', .ok a) :=
  h.2 .done

/-- What holds when an operation ends, and what follows it. -/
theorem play_call {Q : List Io → Store F → Prop} (h : e.Takes s s' a) (hstop : Q [] s)
    (hdone : ∀ ios, Q (.done :: ios) (play (k (.ok a)) ios s').1)
    (hafter : ∀ ios, Q (.failed true :: ios) (play (k (.error .io)) ios s').1)
    (hbefore : ∀ ios, Q (.failed false :: ios) (play (k (.error .io)) ios s).1)
    (htorn : ∀ ios, Q (.torn :: ios) (play (k (.error .io)) ios s).1) (ios : List Io) :
    Q ios (play (.call e k) ios s).1 := by
  cases ios with
  | nil =>
    rw [play_call_nil h.1]
    exact hstop
  | cons io ios =>
    rw [play_call_cons h.1, h.2]
    rcases io with _ | (_ | _) | _
    · exact hdone ios
    · exact hbefore ios
    · exact hafter ios
    · exact htorn ios

/-- What holds after each number of effects, operation by operation. -/
theorem play_takes {Q : ℕ → Store F → Prop} (h : e.Takes s s' a)
    (hraise : ∀ x, k (.error x) = .raise x) (hbefore : Q 0 s) (hafter : Q 1 s')
    (hrest : ∀ ios, Q (effects ios + 1) (play (k (.ok a)) ios s').1) (ios : List Io) :
    Q (effects ios) (play (.call e k) ios s).1 := by
  refine play_call (Q := fun ios => Q (effects ios)) h hbefore hrest ?_ ?_ ?_ ios
  · intro ios
    rw [hraise]
    exact hafter
  · intro ios
    rw [hraise]
    exact hbefore
  · intro ios
    rw [hraise]
    exact hbefore

/-- An operation that fails in every case. -/
theorem play_fail {Q : Store F → Prop} (he : e.isMemory = false)
    (hraise : ∀ x, k (.error x) = .raise x)
    (h : ∀ io, ∃ s' x, e.perform io s = (s', .error x) ∧ Q s') (hbefore : Q s)
    (ios : List Io) : Q (play (.call e k) ios s).1 := by
  cases ios with
  | nil =>
    rw [play_call_nil he]
    exact hbefore
  | cons io ios =>
    obtain ⟨s', x, hperform, hs'⟩ := h io
    rw [play_call_cons he, hperform]
    simp only [hraise]
    exact hs'

end

/-! ### Open results -/

/-- An open result: its state file, its log, and the log in memory, if there is one. -/
structure Store.Open (s : Store F) (header : Header) (lines : List (Option (LogEntry F)))
    (known : OutputLog → Prop) : Prop where
  opened : header.state = .opened
  valid : ¬ (header.identity.sequence < 0 ∨ header.identity.fencingToken < 1)
  final : s.final = none
  working : ∃ d f, s.working = some d ∧ d.state = some header ∧ d.log = some f ∧ f.lines = lines
  memory : ∀ i, s.current = some i →
    ∃ object, s.objects[i]? = some object ∧ object.header.identity = header.identity ∧ known object

/-- A result that was not renamed and has no state file. -/
def Store.Stranded (s : Store F) : Prop :=
  s.final = none ∧ ∃ d, s.working = some d ∧ d.state = none

/-- The result is sealed with this manifest. -/
def Store.Sealed (s : Store F) (m : Manifest F) : Prop :=
  ∃ d, s.final = some d ∧ d.manifest = some m

section

variable {s : Store F} {m : Manifest F}

theorem takes_finalExists : Op.finalExists.Takes s s s.final.isSome :=
  ⟨rfl, fun _ => rfl⟩

theorem takes_syncFinal : Op.syncFinal.Takes s s () :=
  ⟨rfl, fun _ => rfl⟩

theorem takes_loadTerminal (h : s.Sealed m) : Op.loadTerminal.Takes s s m := by
  obtain ⟨d, hd, hm⟩ := h
  refine ⟨rfl, fun io => ?_⟩
  simp only [Op.perform, hd, Option.bind_some, hm]

theorem perform_currentLog {log : Option ℕ} (h : s.current = log) :
    Op.currentLog.perform .done s = (s, .ok log) := by
  rw [Op.perform, h]

theorem perform_finalExists {found : Bool} (h : s.final.isSome = found) :
    Op.finalExists.perform .done s = (s, .ok found) := by
  rw [takes_finalExists.done, h]

theorem perform_object {i : ℕ} {object : OutputLog} (h : s.objects[i]? = some object) :
    (Op.object i).perform .done s = (s, .ok object) := by
  simp only [Op.perform, h]

section

variable {d : Directory F} (hd : s.working = some d)

include hd

theorem takes_requireWorking : Op.requireWorking.Takes s s () :=
  ⟨rfl, fun io => by simp only [Op.perform, hd]⟩

theorem takes_syncWorking : Op.syncWorking.Takes s s () :=
  ⟨rfl, fun io => by simp only [Op.perform, hd]⟩

theorem takes_loadState {header : Header} (h : d.state = some header) :
    Op.loadState.Takes s s header :=
  ⟨rfl, fun io => by simp only [Op.perform, hd, Option.bind_some, h]⟩

theorem takes_readLog {lf : LogFile F} {entries : List (LogEntry F)} (h : d.log = some lf)
    (hlines : lf.lines = entries.map some) : (Op.readLog false).Takes s s entries := by
  refine ⟨rfl, fun io => ?_⟩
  simp only [Op.perform, Op.performReadLog, hd, h, parseLines_eq_some.mpr hlines]
  rcases io with _ | (_ | _) | _ <;> rfl

theorem takes_repairLog {lf : LogFile F} {entries : List (LogEntry F)} (h : d.log = some lf)
    (hlines : lf.lines = entries.map some) :
    (Op.readLog true).Takes s
      { s with working := some { d with log := some ⟨lf.lines, false⟩ } } entries := by
  refine ⟨rfl, fun io => ?_⟩
  simp only [Op.perform, Op.performReadLog, hd, h, parseLines_eq_some.mpr hlines]
  rcases io with _ | (_ | _) | _ <;> rfl

/-- A log with a line that JSON does not read. -/
theorem fails_readLog {lf : LogFile F} (h : d.log = some lf) (hlines : parseLines lf.lines = none)
    (repair : Bool) (io : Io) :
    ∃ s' x, (Op.readLog repair).perform io s = (s', .error x) ∧
      (s' = s ∨ s' = { s with working := some { d with log := some ⟨lf.lines, false⟩ } }) := by
  simp only [Op.perform, Op.performReadLog, hd, h, hlines]
  cases repair <;> rcases io with _ | (_ | _) | _ <;> simp [Io.reply]

theorem takes_createTemporary (h : s.hasTemporary s.pid = false) :
    Op.createTemporary.Takes s
      { s with working := some { d with temporaries := s.pid :: d.temporaries } } () := by
  refine ⟨rfl, fun io => ?_⟩
  rw [Op.perform, if_neg (by rw [h]; exact Bool.false_ne_true), Store.write, hd]
  rfl

theorem takes_replaceManifest (h : s.hasTemporary s.pid = true) :
    (Op.replaceManifest m).Takes s { s with working := some { d with
      manifest := some m
      temporaries := d.temporaries.filter (· != s.pid) } } () := by
  refine ⟨rfl, fun io => ?_⟩
  rw [Op.perform, if_pos h, Store.write, hd]
  rfl

theorem takes_removeTemporary :
    Op.removeTemporary.Takes s { s with working := some { d with
      temporaries := d.temporaries.filter (· != s.pid) } } () :=
  ⟨rfl, fun io => by rw [Op.perform, hd]; rfl⟩

theorem takes_removeState (h : d.state.isSome) :
    Op.removeState.Takes s { s with working := some { d with state := none } } () :=
  ⟨rfl, fun io => by simp only [Op.perform, hd, h, if_true]⟩

theorem takes_removeLog (h : d.log.isSome) :
    Op.removeLog.Takes s { s with working := some { d with log := none } } () :=
  ⟨rfl, fun io => by simp only [Op.perform, hd, h, if_true]⟩

theorem takes_publish (h : s.final = none) :
    Op.publish.Takes s { s with final := some d, working := none } () :=
  ⟨rfl, fun io => by simp only [Op.perform, hd, h]⟩

end

/-- What follows the manifest. -/
def closeResult : Thread F (Manifest F) := do
  .await .removeState
  .await .removeLog
  .await .forgetLog
  .await .syncWorking
  .await .publish
  .await .syncFinal
  .await .loadTerminal

/-- The operations that publish a manifest, each with what holds before and after it. -/
theorem play_closeResult {d : Directory F} {Q : ℕ → Store F → Prop} (hd : s.working = some d)
    (hstate : d.state.isSome) (hlog : d.log.isSome) (hmanifest : d.manifest = some m)
    (hfinal : s.final = none) (hopen : Q 0 s)
    (hstranded : ∀ n s', 1 ≤ n → n < 4 → s'.Stranded → Q n s')
    (hsealed : ∀ n s', 4 ≤ n → s'.Sealed m → Q n s') (ios : List Io) :
    Q (effects ios) (play closeResult ios s).1 := by
  -- The directory without its state file, then without its log.
  let bare : Directory F := { d with state := none }
  have hbare : ∀ n log current, 1 ≤ n → n < 4 →
      Q n { s with working := some { bare with log := log }, current := current } :=
    fun n log current hle hlt => hstranded n _ hle hlt ⟨hfinal, { bare with log := log }, rfl, rfl⟩
  refine play_takes (Q := Q) (takes_removeState hd hstate) (fun _ => rfl) hopen
    (hbare 1 d.log s.current (by omega) (by omega)) (fun ios => ?_) ios
  refine play_takes (Q := fun n => Q (n + 1)) (takes_removeLog (d := bare) rfl hlog)
    (fun _ => rfl) (hbare 1 d.log s.current (by omega) (by omega))
    (hbare 2 none s.current (by omega) (by omega)) (fun ios => ?_) ios
  refine play_memory (Q := Q _) (e := .forgetLog) rfl rfl ?_
  refine play_takes (Q := fun n => Q (n + 1 + 1)) (takes_syncWorking rfl) (fun _ => rfl)
    (hbare 2 none none (by omega) (by omega)) (hbare 3 none none (by omega) (by omega))
    (fun ios => ?_) ios
  -- The renamed directory.
  have hrenamed : ∀ n, 4 ≤ n → Q n { s with
      final := some { bare with log := none }, working := none, current := none } :=
    fun n hle => hsealed n _ hle ⟨_, rfl, hmanifest⟩
  refine play_takes (Q := fun n => Q (n + 1 + 1 + 1))
    (takes_publish (s := { s with working := some { bare with log := none }, current := none })
      rfl hfinal) (fun _ => rfl) (hbare 3 none none (by omega) (by omega)) (hrenamed 4 (by omega))
    (fun ios => ?_) ios
  refine play_takes (Q := fun n => Q (n + 1 + 1 + 1 + 1)) takes_syncFinal (fun _ => rfl)
    (hrenamed 4 (by omega)) (hrenamed 5 (by omega)) (fun ios => ?_) ios
  refine play_takes (Q := fun n => Q (n + 1 + 1 + 1 + 1 + 1))
    (takes_loadTerminal ⟨{ bare with log := none }, rfl, hmanifest⟩) (fun _ => rfl)
    (hrenamed 5 (by omega)) (hrenamed 6 (by omega)) (fun ios => ?_) ios
  exact hrenamed _ (by omega)

/-! ### An interrupted seal -/

section

variable {state : ResultState} {executionCount : Option ℤ} {errorMessage : Option Text}

theorem identityJson_valid {identity : StepResultIdentity}
    (h : ¬ (identity.sequence < 0 ∨ identity.fencingToken < 1)) :
    identityJson (F := F) identity = .ret identity :=
  if_neg h

/-- The check of a log that was found. -/
def checkLog (identity : StepResultIdentity) (log : ℕ) : Thread F ℕ := do
  let object ← .await (.object log)
  let identity ← identityJson identity
  if object.header.identity ≠ identity then .raise (.storage "Step result identity conflicts.")
  else return log

theorem play_checkLog {header : Header} {log : ℕ} {object : OutputLog} {β : Type}
    {f : ℕ → Thread F β} {Q : Store F → Prop} {ios : List Io}
    (hvalid : ¬ (header.identity.sequence < 0 ∨ header.identity.fencingToken < 1))
    (hobject : s.objects[log]? = some object) (hidentity : object.header.identity = header.identity)
    (hrest : Q (play (f log) ios s).1) :
    Q (play (checkLog header.identity log >>= f) ios s).1 := by
  refine play_memory (Q := Q) (e := .object log) rfl (perform_object hobject) ?_
  show Q (play (Program.bind (Program.bind (identityJson header.identity) _) f) ios s).1
  rw [identityJson_valid hvalid]
  show Q (play (Program.bind (ite _ _ _) f) ios s).1
  rw [if_neg (not_not.mpr hidentity)]
  exact hrest

/-- A log that is in memory is opened without the files. -/
theorem play_openLog_loaded {header : Header} {log : ℕ} {object : OutputLog} {β : Type}
    {f : ℕ → Thread F β} {Q : Store F → Prop} {ios : List Io}
    (hvalid : ¬ (header.identity.sequence < 0 ∨ header.identity.fencingToken < 1))
    (hcurrent : s.current = some log) (hobject : s.objects[log]? = some object)
    (hidentity : object.header.identity = header.identity)
    (hrest : Q (play (f log) ios s).1) :
    Q (play (openLog header.identity >>= f) ios s).1 := by
  refine play_memory (Q := Q) rfl (perform_currentLog hcurrent) ?_
  exact play_checkLog hvalid hobject hidentity hrest

/-- The store whose log was read, and kept in memory. -/
def Store.loaded (s : Store F) (d : Directory F) (header : Header) (entries : List (LogEntry F)) :
    Store F :=
  { s with
    working := some { d with log := some ⟨entries.map some, false⟩ }
    objects := s.objects ++ [OutputLog.load header entries]
    current := some s.objects.length }

/-- What follows the opening of the log. -/
def sealLog (state : ResultState) (executionCount : Option ℤ) (errorMessage : Option Text)
    (log : ℕ) : Thread F (Manifest F) := do
  let entries ← .await (.readLog false)
  let object ← .await (.object log)
  publishManifest (object.manifest entries state executionCount errorMessage)

/-- The file operations of a seal before it writes the manifest. -/
def Store.reads (s : Store F) : ℕ :=
  if s.current.isSome then 3 else 5

/-- Whether the temporary file is there after its removal, the next operation. -/
def kept (ios : List Io) : Bool :=
  !ios.head?.any Io.tookEffect

/-- Whether the temporary manifest of the process is there after a seal that has so many
operations before it writes the manifest; `stale` if one was there before. -/
def leftover : ℕ → Bool → List Io → Bool
  | n + 1, stale, .done :: ios => leftover n stale ios
  | 0, true, _ :: ios => kept ios
  | 0, false, .failed true :: ios => kept ios
  | 0, false, [.done] => true
  | 0, false, .done :: io :: ios => !io.tookEffect && kept ios
  | _, stale, _ => stale

/-- A call of a seal, and what it finds: the entries of the log, the counters that may be in
memory, its pid, and the processes with a temporary manifest. -/
structure SealCall (F : Type) where
  header : Header
  entries : List (LogEntry F)
  known : OutputLog → Prop
  state : ResultState
  executionCount : Option ℤ
  errorMessage : Option Text
  pid : ℕ
  temporaries : ℕ → Bool

namespace SealCall

variable (c : SealCall F)

/-- The result is open, and these temporary manifests are there. -/
structure Still (temporaries : ℕ → Bool) (s : Store F) : Prop where
  opened : s.Open c.header (c.entries.map some) fun o => c.known o ∨ o = .load c.header c.entries
  pid : s.pid = c.pid
  temporaries : ∀ pid, s.hasTemporary pid = temporaries pid

/-- The result `s'` that is left when the operations went so; `n` of them come before the
manifest is written. -/
structure Interrupted (n : ℕ) (ios : List Io) (s' : Store F) : Prop where
  still : c.temporaries c.pid = true ∨ effects ios < n + 5 → c.Still
    (Function.update c.temporaries c.pid (leftover n (c.temporaries c.pid) ios)) s'
  stranded : c.temporaries c.pid = false → n + 5 ≤ effects ios → effects ios < n + 8 → s'.Stranded
  published : c.temporaries c.pid = false → n + 8 ≤ effects ios → ∃ object,
    (c.known object ∨ object = OutputLog.load c.header c.entries) ∧
      s'.Sealed (object.manifest c.entries c.state c.executionCount c.errorMessage)

variable {c}

/-- Nothing that decides about the result was reached. -/
theorem Interrupted.of_still {n : ℕ} {ios : List Io} {b : Bool} (heffects : effects ios < n + 5)
    (hleft : leftover n (c.temporaries c.pid) ios = b)
    (h : c.Still (Function.update c.temporaries c.pid b) s) : c.Interrupted n ios s :=
  ⟨fun _ => hleft ▸ h, fun _ hle => absurd heffects (by omega),
    fun _ hle => absurd heffects (by omega)⟩

theorem Interrupted.done {n : ℕ} {ios : List Io} (h : c.Interrupted n ios s) :
    c.Interrupted (n + 1) (.done :: ios) s := by
  have heffects : effects (.done :: ios) = effects ios + 1 := rfl
  refine ⟨fun hstill => h.still (hstill.imp_right (by omega)), fun hfresh hle hlt => ?_,
    fun hfresh hle => ?_⟩
  · exact h.stranded hfresh (by omega) (by omega)
  · exact h.published hfresh (by omega)

/-- An operation before the manifest is written. -/
theorem play_read {α β : Type} {e : Op F α} {k : Except Failure α → Thread F β} {s s' : Store F}
    {a : α} {n : ℕ} (h : e.Takes s s' a) (hraise : ∀ x, k (.error x) = .raise x)
    (hs : c.Still c.temporaries s) (hs' : c.Still c.temporaries s')
    (hrest : ∀ ios, c.Interrupted n ios (play (k (.ok a)) ios s').1) (ios : List Io) :
    c.Interrupted (n + 1) ios (play (.call e k) ios s).1 := by
  have hstop : ∀ {t}, c.Still c.temporaries t → ∀ ios', effects ios' < n + 1 + 5 →
      leftover (n + 1) (c.temporaries c.pid) ios' = c.temporaries c.pid →
      c.Interrupted (n + 1) ios' t :=
    fun ht ios' heffects hleft => .of_still heffects hleft (by rwa [Function.update_eq_self])
  refine play_call h (hstop hs [] (by simp [effects]) rfl) (fun ios => (hrest ios).done) ?_ ?_ ?_ ios
  · intro ios
    rw [hraise]
    exact hstop hs' _ (by simp [effects]) rfl
  · intro ios
    rw [hraise]
    exact hstop hs _ (by simp [effects]) rfl
  · intro ios
    rw [hraise]
    exact hstop hs _ (by simp [effects]) rfl

/-- The manifest and the temporary files may change. -/
theorem Still.change {temporaries temporaries' : ℕ → Bool} (h : c.Still temporaries s)
    {d d' : Directory F} (hd : s.working = some d) (hstate : d'.state = d.state)
    (hlog : d'.log = d.log) (htemporaries : ∀ pid, d'.temporaries.contains pid = temporaries' pid) :
    c.Still temporaries' { s with working := some d' } := by
  obtain ⟨⟨hopened, hvalid, hfinal, ⟨_, lf, hd', hheader, hlf, hlines⟩, hmemory⟩, hpid, _⟩ := h
  rw [hd] at hd'
  cases hd'
  exact ⟨⟨hopened, hvalid, hfinal, ⟨d', lf, rfl, hstate.trans hheader, hlog.trans hlf, hlines⟩,
    hmemory⟩, hpid, htemporaries⟩

theorem Still.contains {temporaries : ℕ → Bool} (h : c.Still temporaries s) {d : Directory F}
    (hd : s.working = some d) (pid : ℕ) : d.temporaries.contains pid = temporaries pid := by
  rw [← h.temporaries pid, Store.hasTemporary, hd, Option.any_some]

/-- The temporary file of the process is removed. -/
theorem Still.remove {temporaries : ℕ → Bool} (h : c.Still temporaries s) {d d' : Directory F}
    (hd : s.working = some d) (hstate : d'.state = d.state) (hlog : d'.log = d.log)
    (htemporaries : d'.temporaries = d.temporaries.filter (· != s.pid)) :
    c.Still (Function.update temporaries c.pid false) { s with working := some d' } := by
  refine h.change hd hstate hlog fun pid => ?_
  have hcontains := h.contains hd pid
  rw [htemporaries, h.pid]
  by_cases heq : pid = c.pid
  · subst heq
    simp
  · rw [Function.update_of_ne heq, ← hcontains]
    simp [heq]

/-- What a seal that has failed does at last. -/
theorem play_cleanup {β : Type} {temporaries : ℕ → Bool} (h : c.Still temporaries s)
    {k : Except Failure Unit → Thread F β} (hk : ∀ r, ∃ x, k r = .raise x) (ios : List Io) :
    c.Still (Function.update temporaries c.pid (temporaries c.pid && kept ios))
      (play (.call .removeTemporary k) ios s).1 := by
  obtain ⟨d, _, hd, _⟩ := h.opened.working
  have hremoved : c.Still (Function.update temporaries c.pid false)
      { s with working := some { d with temporaries := d.temporaries.filter (· != s.pid) } } :=
    h.remove hd rfl rfl rfl
  have hsame : c.Still (Function.update temporaries c.pid (temporaries c.pid && true)) s := by
    rwa [Bool.and_true, Function.update_eq_self]
  have hgone : c.Still (Function.update temporaries c.pid (temporaries c.pid && false))
      { s with working := some { d with temporaries := d.temporaries.filter (· != s.pid) } } := by
    rwa [Bool.and_false]
  have hends : ∀ r ios t, (play (k r) ios t).1 = t := by
    intro r ios t
    obtain ⟨x, hx⟩ := hk r
    rw [hx, play]
  refine play_call (Q := fun ios => c.Still (Function.update temporaries c.pid
    (temporaries c.pid && kept ios))) (takes_removeTemporary hd) hsame ?_ ?_ ?_ ?_ ios
  · intro ios
    rw [hends]
    exact hgone
  · intro ios
    rw [hends]
    exact hgone
  · intro ios
    rw [hends]
    exact hsame
  · intro ios
    rw [hends]
    exact hsame

/-- The manifest is written, unless a temporary file is in the way. -/
theorem play_writeManifest {β : Type} {f : Unit → Thread F β} (hs : c.Still c.temporaries s)
    (hrest : c.temporaries c.pid = false → ∀ s', c.Still c.temporaries s' →
      (∃ d, s'.working = some d ∧ d.manifest = some m) →
      ∀ ios, c.Interrupted 0 (.done :: .done :: .done :: .done :: ios) (play (f ()) ios s').1)
    (ios : List Io) : c.Interrupted 0 ios (play (writeManifest m >>= f) ios s).1 := by
  obtain ⟨d, _, hd, _⟩ := hs.opened.working
  -- What remains after an operation that failed.
  let cleanup : Thread F β :=
    (Program.await .removeTemporary >>= fun _ => Program.raise Failure.io : Thread F Unit) >>= f
  have hcleanup : ∀ {temporaries t}, c.Still temporaries t → ∀ ios,
      c.Still (Function.update temporaries c.pid (temporaries c.pid && kept ios))
        (play cleanup ios t).1 :=
    fun h ios => play_cleanup h (by rintro (x | _) <;> exact ⟨_, rfl⟩) ios
  cases hstale : c.temporaries c.pid with
  | true =>
    -- Another seal has left its file, which is removed.
    cases ios with
    | nil =>
      refine .of_still (b := true) (by simp [effects]) (by rw [hstale]; rfl) ?_
      rw [← hstale, Function.update_eq_self]
      exact hs
    | cons io ios =>
      have hrefused : Op.createTemporary.perform io s = (s, .error .io) := by
        rw [Op.perform, if_pos (by rw [hs.temporaries, hs.pid, hstale])]
      have hplay : play (writeManifest m >>= f) (io :: ios) s = play cleanup ios s :=
        (play_call_cons (e := .createTemporary) rfl io ios s).trans (by rw [hrefused]; rfl)
      have hstill := hcleanup hs ios
      rw [hstale, Bool.true_and] at hstill
      rw [hplay]
      refine ⟨fun _ => ?_, fun hfresh => ?_, fun hfresh => ?_⟩
      · rw [hstale]
        exact hstill
      · rw [hstale] at hfresh
        cases hfresh
      · rw [hstale] at hfresh
        cases hfresh
  | false =>
    have hnone : s.hasTemporary s.pid = false := by rw [hs.temporaries, hs.pid, hstale]
    have hnot : Function.update c.temporaries c.pid false = c.temporaries := by
      rw [← hstale, Function.update_eq_self]
    -- The store with the temporary file, and with the manifest in its place.
    have h₁ : c.Still (Function.update c.temporaries c.pid true)
        { s with working := some { d with temporaries := s.pid :: d.temporaries } } := by
      refine hs.change hd rfl rfl fun pid => ?_
      have hcontains := hs.contains hd pid
      by_cases heq : pid = c.pid
      · subst heq
        simp [hs.pid]
      · rw [Function.update_of_ne heq, ← hcontains]
        simp [hs.pid, heq]
    have h₂ : c.Still _ { s with working := some { d with
        manifest := some m
        temporaries := (s.pid :: d.temporaries).filter (· != s.pid) } } :=
      h₁.remove rfl rfl rfl rfl
    rw [Function.update_idem, hnot] at h₂
    have hcreated : Store.hasTemporary
        { s with working := some { d with temporaries := s.pid :: d.temporaries } } s.pid =
        true := by
      rw [h₁.temporaries, hs.pid, Function.update_self]
    -- An end with or without the file.
    have hleft : ∀ {ios b t}, effects ios < 5 → leftover 0 false ios = b →
        c.Still (Function.update c.temporaries c.pid b) t → c.Interrupted 0 ios t :=
      fun heffects hb ht => .of_still heffects (by rwa [hstale]) ht
    have hwithout : ∀ {ios t}, effects ios < 5 → leftover 0 false ios = false →
        c.Still c.temporaries t → c.Interrupted 0 ios t :=
      fun heffects hb ht => hleft heffects hb (by rwa [hnot])
    have hfailed : ∀ {ios ios' t}, effects ios' < 5 → leftover 0 false ios' = false →
        c.Still c.temporaries t → c.Interrupted 0 ios' (play cleanup ios t).1 := by
      intro ios ios' t heffects hb ht
      have hstill := hcleanup ht ios
      rw [hstale, Bool.false_and] at hstill
      exact hleft heffects hb hstill
    have hkept : ∀ {ios ios' t}, effects ios' < 5 → leftover 0 false ios' = kept ios →
        c.Still (Function.update c.temporaries c.pid true) t →
        c.Interrupted 0 ios' (play cleanup ios t).1 := by
      intro ios ios' t heffects hb ht
      have hstill := hcleanup ht ios
      rw [Function.update_self, Bool.true_and, Function.update_idem] at hstill
      exact hleft heffects hb hstill
    refine play_call (takes_createTemporary hd hnone) (hwithout (by simp [effects]) rfl hs)
      (fun ios => ?_) (fun ios => hkept (by simp [effects]) rfl h₁)
      (fun ios => hfailed (by simp [effects]) rfl hs)
      (fun ios => hfailed (by simp [effects]) rfl hs) ios
    refine play_call (Q := fun ios => c.Interrupted 0 (.done :: ios))
      (takes_replaceManifest rfl hcreated) (hleft (by simp [effects]) rfl h₁) (fun ios => ?_)
      (fun ios => hfailed (by simp [effects]) rfl h₂)
      (fun ios => hkept (by simp [effects]) rfl h₁)
      (fun ios => hkept (by simp [effects]) rfl h₁) ios
    refine play_call (Q := fun ios => c.Interrupted 0 (.done :: .done :: ios))
      (takes_syncWorking rfl) (hwithout (by simp [effects]) rfl h₂) (fun ios => ?_)
      (fun ios => hfailed (by simp [effects]) rfl h₂)
      (fun ios => hfailed (by simp [effects]) rfl h₂)
      (fun ios => hfailed (by simp [effects]) rfl h₂) ios
    have h₃ : c.Still _ { s with working := some { d with
        manifest := some m
        temporaries := ((s.pid :: d.temporaries).filter (· != s.pid)).filter (· != s.pid) } } :=
      h₂.remove rfl rfl rfl rfl
    rw [hnot] at h₃
    refine play_call (Q := fun ios => c.Interrupted 0 (.done :: .done :: .done :: ios))
      (takes_removeTemporary rfl) (hwithout (by simp [effects]) rfl h₂) ?_ ?_ ?_ ?_ ios
    · exact fun ios => hrest hstale _ h₃ ⟨_, rfl, rfl⟩ ios
    · exact fun ios => hwithout (by simp [effects]) rfl h₃
    · exact fun ios => hwithout (by simp [effects]) rfl h₂
    · exact fun ios => hwithout (by simp [effects]) rfl h₂

/-- The seal from the manifest on. -/
theorem play_publishManifest {object : OutputLog} (hs : c.Still c.temporaries s)
    (hobject : c.known object ∨ object = OutputLog.load c.header c.entries) (ios : List Io) :
    c.Interrupted 0 ios
      (play (publishManifest (object.manifest c.entries c.state c.executionCount c.errorMessage))
        ios s).1 := by
  refine play_writeManifest hs (fun hfresh s' hs' ⟨d, hd, hmanifest⟩ ios => ?_) ios
  obtain ⟨_, lf, hd', hheader, hlf, _⟩ := hs'.opened.working
  rw [hd] at hd'
  cases hd'
  have hleft : leftover 0 (c.temporaries c.pid) (.done :: .done :: .done :: .done :: ios) =
      c.temporaries c.pid := by
    rw [hfresh]
    rfl
  refine play_closeResult (Q := fun n t => effects ios = n →
      c.Interrupted 0 (.done :: .done :: .done :: .done :: ios) t) hd (by rw [hheader]; rfl)
    (by rw [hlf]; rfl) hmanifest hs'.opened.final ?_ ?_ ?_ ios rfl
  · intro hzero
    refine .of_still (by simp [effects, hzero]) hleft ?_
    rwa [Function.update_eq_self]
  · intro n t hle hlt hstranded hn
    exact ⟨fun hstill => absurd hstill (by simp [hfresh, effects]; omega), fun _ _ _ => hstranded,
      fun _ h => absurd h (by simp [effects]; omega)⟩
  · intro n t hle hsealed hn
    exact ⟨fun hstill => absurd hstill (by simp [hfresh, effects]; omega),
      fun _ _ h => absurd h (by simp [effects]; omega), fun _ _ => ⟨object, hobject, hsealed⟩⟩

/-- From the opened log on. -/
theorem play_sealLog {log : ℕ} {object : OutputLog} (hs : c.Still c.temporaries s)
    (hheld : s.objects[log]? = some object)
    (hobject : c.known object ∨ object = OutputLog.load c.header c.entries) (ios : List Io) :
    c.Interrupted 1 ios
      (play (sealLog c.state c.executionCount c.errorMessage log) ios s).1 := by
  obtain ⟨d, lf, hd, _, hlf, hlines⟩ := hs.opened.working
  refine play_read (takes_readLog hd hlf hlines) (fun _ => rfl) hs hs (fun ios => ?_) ios
  refine play_memory (Q := c.Interrupted 0 ios) (e := .object log) rfl (perform_object hheld) ?_
  exact play_publishManifest hs hobject ios

theorem play_sealResult (hstate : c.state ≠ .opened) (hpid : s.pid = c.pid)
    (htemporaries : ∀ pid, s.hasTemporary pid = c.temporaries pid)
    (h : s.Open c.header (c.entries.map some) c.known) (ios : List Io) :
    c.Interrupted s.reads ios
      (play (sealResult c.header.identity c.state c.executionCount c.errorMessage) ios s).1 := by
  obtain ⟨hopened, hvalid, hfinal, ⟨d, lf, hd, hheader, hlog, hlines⟩, hmemory⟩ := h
  have hs : c.Still c.temporaries s :=
    ⟨⟨hopened, hvalid, hfinal, ⟨d, lf, hd, hheader, hlog, hlines⟩, fun i hi => by
      obtain ⟨object, hobject, hidentity, hknown⟩ := hmemory i hi
      exact ⟨object, hobject, hidentity, .inl hknown⟩⟩, hpid, htemporaries⟩
  have hexists : Op.finalExists.Takes s s false := by
    have htakes := takes_finalExists (s := s)
    rwa [hfinal] at htakes
  rw [sealResult, if_neg hstate]
  cases hcurrent : s.current with
  | some log =>
    -- The log in memory is opened without the files.
    obtain ⟨object, hobject, hidentity, hknown⟩ := hmemory log hcurrent
    have hreads : s.reads = 3 := by simp [Store.reads, hcurrent]
    rw [hreads]
    refine play_read hexists (fun _ => rfl) hs hs (fun ios => ?_) ios
    refine play_read (takes_requireWorking hd) (fun _ => rfl) hs hs (fun ios => ?_) ios
    refine play_memory (Q := c.Interrupted 1 ios) rfl (perform_currentLog hcurrent) ?_
    refine play_checkLog hvalid hobject hidentity ?_
    exact play_sealLog hs hobject (.inl hknown) ios
  | none =>
    have hreads : s.reads = 5 := by simp [Store.reads, hcurrent]
    rw [hreads]
    refine play_read hexists (fun _ => rfl) hs hs (fun ios => ?_) ios
    refine play_read (takes_requireWorking hd) (fun _ => rfl) hs hs (fun ios => ?_) ios
    refine play_memory (Q := c.Interrupted 3 ios) rfl (perform_currentLog hcurrent) ?_
    refine play_read (takes_loadState hd hheader) (fun _ => rfl) hs hs (fun ios => ?_) ios
    show c.Interrupted 2 ios
      (play (Program.bind (Program.bind (ite (c.header.state ≠ .opened) _ _) _) _) ios s).1
    rw [if_neg (not_not.mpr hopened)]
    -- The log is repaired, read and kept in memory.
    have hrepaired : c.Still c.temporaries
        { s with working := some { d with log := some ⟨lf.lines, false⟩ } } :=
      ⟨⟨hopened, hvalid, hfinal, ⟨_, _, rfl, hheader, rfl, hlines⟩, hs.opened.memory⟩, hpid,
        fun pid => hs.contains hd pid⟩
    refine play_read (takes_repairLog hd hlog hlines) (fun _ => rfl) hs hrepaired
      (fun ios => ?_) ios
    refine play_memory (Q := c.Interrupted 1 ios) (e := .keepLog (OutputLog.load c.header c.entries))
      rfl rfl ?_
    have hheld : (s.loaded d c.header c.entries).objects[s.objects.length]? =
        some (OutputLog.load c.header c.entries) := List.getElem?_concat_length ..
    have hloaded : c.Still c.temporaries (s.loaded d c.header c.entries) :=
      ⟨⟨hopened, hvalid, hfinal, ⟨_, _, rfl, hheader, rfl, rfl⟩, fun i hi => by
        cases hi
        exact ⟨_, hheld, by rw [(load_counts c.header c.entries).1], .inr rfl⟩⟩, hpid,
        fun pid => hs.contains hd pid⟩
    refine play_checkLog (Q := c.Interrupted 1 ios) hvalid hheld
      (by rw [(load_counts c.header c.entries).1]) ?_
    rw [hlines]
    exact play_sealLog hloaded hheld (.inr rfl) ios

end SealCall

/-! ### A seal that nothing disturbs -/

theorem complete_writeManifest {d : Directory F} {β : Type} {f : Unit → Thread F β}
    (hd : s.working = some d) (hfresh : s.hasTemporary s.pid = false) :
    ∃ d', d'.state = d.state ∧ d'.log = d.log ∧ d'.manifest = some m ∧
      complete (writeManifest m >>= f) s = complete (f ()) { s with working := some d' } := by
  have hcreated : Store.hasTemporary
      { s with working := some { d with temporaries := s.pid :: d.temporaries } } s.pid = true := by
    simp [Store.hasTemporary]
  refine ⟨{ d with
    manifest := some m
    temporaries := ((s.pid :: d.temporaries).filter (· != s.pid)).filter (· != s.pid) },
    rfl, rfl, rfl, ?_⟩
  refine (complete_call (takes_createTemporary hd hfresh).done).trans ?_
  refine (complete_call (takes_replaceManifest rfl hcreated).done).trans ?_
  refine (complete_call (takes_syncWorking rfl).done).trans ?_
  refine (complete_call (Op.Takes.done (takes_removeTemporary rfl))).trans ?_
  rfl

theorem complete_publishManifest {d : Directory F} (hd : s.working = some d)
    (hstate : d.state.isSome) (hlog : d.log.isSome) (hfinal : s.final = none)
    (hfresh : s.hasTemporary s.pid = false) :
    ∃ s', complete (publishManifest m) s = (s', .ok m) := by
  obtain ⟨d', hstate', hlog', hmanifest, hwritten⟩ :=
    complete_writeManifest (m := m) (f := fun _ => closeResult) hd hfresh
  refine ⟨{ s with
    final := some { d' with state := none, log := none }
    working := none
    current := none }, hwritten.trans ?_⟩
  refine (complete_call (takes_removeState rfl (by rwa [hstate'])).done).trans ?_
  refine (complete_call (takes_removeLog (d := { d' with state := none }) rfl
    (by rwa [← hlog'] at hlog)).done).trans ?_
  refine (complete_call (e := .forgetLog) rfl).trans ?_
  refine (complete_call (takes_syncWorking rfl).done).trans ?_
  refine (complete_call (takes_publish (s := { s with
    working := some { d' with state := none, log := none }
    current := none }) rfl hfinal).done).trans ?_
  refine (complete_call takes_syncFinal.done).trans ?_
  exact complete_call (takes_loadTerminal
    ⟨{ d' with state := none, log := none }, rfl, hmanifest⟩).done

theorem complete_sealLog {d : Directory F} {lf : LogFile F} {entries : List (LogEntry F)} {log : ℕ}
    {object : OutputLog} (hd : s.working = some d) (hstate : d.state.isSome)
    (hlog : d.log = some lf) (hlines : lf.lines = entries.map some) (hfinal : s.final = none)
    (hobject : s.objects[log]? = some object) (hfresh : s.hasTemporary s.pid = false) :
    ∃ s', complete (sealLog state executionCount errorMessage log) s =
      (s', .ok (object.manifest entries state executionCount errorMessage)) := by
  obtain ⟨s', hs'⟩ := complete_publishManifest
    (m := object.manifest entries state executionCount errorMessage) hd hstate
    (by rw [hlog]; rfl) hfinal hfresh
  refine ⟨s', (complete_call (takes_readLog hd hlog hlines).done).trans ?_⟩
  refine (complete_call (e := .object log) (perform_object hobject)).trans ?_
  exact hs'

theorem complete_checkLog {header : Header} {log : ℕ} {object : OutputLog} {β : Type}
    {f : ℕ → Thread F β}
    (hvalid : ¬ (header.identity.sequence < 0 ∨ header.identity.fencingToken < 1))
    (hobject : s.objects[log]? = some object)
    (hidentity : object.header.identity = header.identity) :
    complete (checkLog header.identity log >>= f) s = complete (f log) s := by
  refine (complete_call (e := .object log) (perform_object hobject)).trans ?_
  show complete (Program.bind (Program.bind (identityJson header.identity) _) f) s = _
  rw [identityJson_valid hvalid]
  show complete (Program.bind (ite _ _ _) f) s = _
  rw [if_neg (not_not.mpr hidentity)]
  rfl

/-- An open result is sealed. -/
theorem complete_open {header : Header} {entries : List (LogEntry F)} {known : OutputLog → Prop}
    (hstate : state ≠ .opened) (h : s.Open header (entries.map some) known)
    (hfresh : s.hasTemporary s.pid = false) :
    ∃ object s', (known object ∨ object = OutputLog.load header entries) ∧
      complete (sealResult header.identity state executionCount errorMessage) s =
        (s', .ok (object.manifest entries state executionCount errorMessage)) := by
  obtain ⟨hopened, hvalid, hfinal, ⟨d, lf, hd, hheader, hlog, hlines⟩, hmemory⟩ := h
  rw [sealResult, if_neg hstate]
  have hexists := perform_finalExists (s := s) (by rw [hfinal])
  cases hcurrent : s.current with
  | some log =>
    obtain ⟨object, hobject, hidentity, hknown⟩ := hmemory log hcurrent
    obtain ⟨s', hs'⟩ : ∃ s', complete (sealLog state executionCount errorMessage log) s =
        (s', .ok (object.manifest entries state executionCount errorMessage)) :=
      complete_sealLog hd (by rw [hheader]; rfl) hlog hlines hfinal hobject hfresh
    refine ⟨object, s', .inl hknown, (complete_call hexists).trans ?_⟩
    refine (complete_call (takes_requireWorking hd).done).trans ?_
    refine (complete_call (perform_currentLog hcurrent)).trans ?_
    exact (complete_checkLog hvalid hobject hidentity).trans hs'
  | none =>
    have hobject : (s.loaded d header entries).objects[s.objects.length]? =
        some (OutputLog.load header entries) := List.getElem?_concat_length ..
    obtain ⟨s', hs'⟩ : ∃ s', complete (sealLog state executionCount errorMessage s.objects.length)
        (s.loaded d header entries) = (s', .ok ((OutputLog.load header entries).manifest entries
          state executionCount errorMessage)) :=
      complete_sealLog (s := s.loaded d header entries) rfl
        (by show d.state.isSome = true; rw [hheader]; rfl) rfl rfl hfinal hobject
        (by rw [← hfresh, Store.hasTemporary, Store.hasTemporary, hd]; rfl)
    refine ⟨_, s', .inr rfl, (complete_call hexists).trans ?_⟩
    refine (complete_call (takes_requireWorking hd).done).trans ?_
    refine (complete_call (perform_currentLog hcurrent)).trans ?_
    refine (complete_call (takes_loadState hd hheader).done).trans ?_
    show complete (Program.bind (Program.bind (ite (header.state ≠ .opened) _ _) _) _) s = _
    rw [if_neg (not_not.mpr hopened)]
    refine (complete_call (takes_repairLog hd hlog hlines).done).trans ?_
    refine (complete_call (e := .keepLog (OutputLog.load header entries)) rfl).trans ?_
    rw [hlines]
    exact (complete_checkLog (s := s.loaded d header entries) hvalid hobject
      (by rw [(load_counts header entries).1])).trans hs'

/-- A sealed result stays as it is: its manifest is the answer to the same state. -/
theorem complete_sealed (hstate : state ≠ .opened) (h : s.Sealed m)
    (identity : StepResultIdentity) :
    complete (sealResult identity state executionCount errorMessage) s =
      (s, if m.state = state then .ok m
        else .error (.storage "Terminal Step result state conflicts with replay.")) := by
  obtain ⟨d, hd, hm⟩ := h
  rw [sealResult, if_neg hstate]
  refine (complete_call (perform_finalExists (s := s) (by rw [hd]))).trans ?_
  refine (complete_call (takes_loadTerminal ⟨d, hd, hm⟩).done).trans ?_
  show complete (ite (m.state ≠ state) _ _) s = _
  by_cases hsame : m.state = state
  · rw [if_neg (not_not.mpr hsame), if_pos hsame]
    rfl
  · rw [if_pos hsame, if_neg hsame]
    rfl

/-! ### Logs with a line that JSON does not read -/

section

variable {header : Header} {lines : List (Option (LogEntry F))} {known : OutputLog → Prop}

theorem play_unreadable (hstate : state ≠ .opened) (h : s.Open header lines known)
    (hlines : parseLines lines = none) (executionCount : Option ℤ) (errorMessage : Option Text)
    (ios : List Io) :
    (play (sealResult header.identity state executionCount errorMessage) ios s).1.Open header
      lines known := by
  obtain ⟨hopened, hvalid, hfinal, ⟨d, lf, hd, hheader, hlog, rfl⟩, hmemory⟩ := h
  have hopen : s.Open header lf.lines known :=
    ⟨hopened, hvalid, hfinal, ⟨d, lf, hd, hheader, hlog, rfl⟩, hmemory⟩
  -- The log fails, and repairing it leaves its lines.
  have hfail : ∀ repair io, ∃ s' x, (Op.readLog repair).perform io s = (s', .error x) ∧
      s'.Open header lf.lines known := by
    intro repair io
    obtain ⟨s', x, hperform, rfl | rfl⟩ := fails_readLog hd hlog hlines repair io
    · exact ⟨_, x, hperform, hopen⟩
    · exact ⟨_, x, hperform, hopened, hvalid, hfinal, ⟨_, _, rfl, hheader, rfl, rfl⟩, hmemory⟩
  have hexists : Op.finalExists.Takes s s false := by
    have htakes := takes_finalExists (s := s)
    rwa [hfinal] at htakes
  rw [sealResult, if_neg hstate]
  refine play_takes (Q := fun _ s' => s'.Open header lf.lines known) hexists (fun _ => rfl) hopen
    hopen (fun ios => ?_) ios
  refine play_takes (Q := fun _ s' => s'.Open header lf.lines known) (takes_requireWorking hd)
    (fun _ => rfl) hopen hopen (fun ios => ?_) ios
  cases hcurrent : s.current with
  | some log =>
    obtain ⟨object, hobject, hidentity, _⟩ := hmemory log hcurrent
    refine play_openLog_loaded (Q := fun s' => s'.Open header lf.lines known) hvalid hcurrent
      hobject hidentity ?_
    exact play_fail (e := .readLog false) rfl (fun _ => rfl) (hfail false) hopen ios
  | none =>
    refine play_memory (Q := fun s' => s'.Open header lf.lines known) rfl
      (perform_currentLog hcurrent) ?_
    refine play_takes (Q := fun _ s' => s'.Open header lf.lines known) (takes_loadState hd hheader)
      (fun _ => rfl) hopen hopen (fun ios => ?_) ios
    show (play (Program.bind (Program.bind (ite (header.state ≠ .opened) _ _) _) _) ios s).1.Open
      header lf.lines known
    rw [if_neg (not_not.mpr hopened)]
    exact play_fail (e := .readLog true) rfl (fun _ => rfl) (hfail true) hopen ios

end

/-! ### Seals that fail -/

/-- An operation that opens the log, or reads. -/
def Op.opens {α : Type} : Op F α → Bool
  | .keepLog _ | .readLog _ => true
  | e => e.reads

section

variable {α β : Type}

/-- A thread raises if every operation succeeds. -/
def Fails (t : Thread F α) (s : Store F) : Prop :=
  ∃ x, (complete t s).2 = .error x

theorem complete_bind (t : Thread F α) (f : α → Thread F β) (s : Store F) :
    complete (t >>= f) s = match complete t s with
      | (s', .ok a) => complete (f a) s'
      | (s', .error x) => (s', .error x) := by
  induction t generalizing s with
  | ret a => rfl
  | raise x => rfl
  | call e k ih => exact ih _ _

theorem fails_bind {t : Thread F α} {f : α → Thread F β}
    (h : ∀ a, (complete t s).2 = .ok a → Fails (f a) (complete t s).1) : Fails (t >>= f) s := by
  rw [Fails, complete_bind]
  split
  · rename_i s' a heq
    have hrest := h a (by rw [heq])
    rw [heq] at hrest
    exact hrest
  · exact ⟨_, rfl⟩

/-- What each operation of a thread keeps. -/
theorem complete_within {P : Store F → Prop} (ok : ∀ {β : Type}, Op F β → Prop) {t : Thread F α}
    (h : t.Within ok) (hkeep : ∀ {β : Type} {e : Op F β} {s : Store F}, ok e → P s →
      P (e.perform .done s).1) (hs : P s) : P (complete t s).1 := by
  induction t generalizing s with
  | ret a => exact hs
  | raise x => exact hs
  | call e k ih => exact ih _ (h.2 _) (hkeep h.1 hs)

/-- A read, and then a failure. -/
theorem fails_read {e : Op F α} (he : e.reads = true) {f : α → Thread F β}
    (h : ∀ a, Fails (f a) s) : Fails (Program.await e >>= f) s := by
  refine fails_bind fun a _ => ?_
  have hsame : (complete (Program.await e : Thread F α) s).1 = s :=
    complete_within (P := (· = s)) (fun e => e.reads = true) (Program.Within.await he)
      (fun he heq => (Op.perform_reads he _ _).trans heq) rfl
  rw [hsame]
  exact h a

/-- Opening the log leaves the directory as it is, but for bytes after its last line. -/
theorem perform_opens {e : Op F α} (he : e.opens = true) (s : Store F) :
    (e.perform .done s).1.final = s.final ∧ (e.perform .done s).1.pid = s.pid ∧
      ((e.perform .done s).1.working = s.working ∨ ∃ d f, s.working = some d ∧ d.log = some f ∧
        (e.perform .done s).1.working = some { d with log := some ⟨f.lines, false⟩ }) := by
  cases e with
  | keepLog log => exact ⟨rfl, rfl, .inl rfl⟩
  | readLog repair =>
    have hperform : (Op.readLog repair).perform .done s =
      (((Op.readLog repair).perform .done s).1, ((Op.readLog repair).perform .done s).2) := rfl
    obtain ⟨heq | ⟨d, f, hd, hf, heq⟩, _⟩ := performReadLog_cases hperform
    · rw [heq]
      exact ⟨rfl, rfl, .inl rfl⟩
    · rw [heq]
      exact ⟨rfl, rfl, .inr ⟨d, f, hd, hf, rfl⟩⟩
  | _ =>
    rw [Op.perform_reads (by exact he)]
    exact ⟨rfl, rfl, .inl rfl⟩

theorem openLog_within (identity : StepResultIdentity) :
    (openLog identity : Thread F ℕ).Within fun e => e.opens = true := by
  have hidentity : (identityJson identity : Thread F StepResultIdentity).Within
      fun e => e.opens = true := by
    rw [identityJson]
    split <;> trivial
  refine .bind (.bind (.await rfl) ?_) fun log => .bind (.await rfl) fun object =>
    .bind hidentity fun identity => ?_
  · rintro (_ | log)
    · refine .bind (.await rfl) fun header => ?_
      split
      · trivial
      · exact .bind (.await rfl) fun entries => .await rfl
    · trivial
  · split <;> trivial

end

section

variable {state : ResultState} {executionCount : Option ℤ} {errorMessage : Option Text}
  {identity : StepResultIdentity}

/-- A seal of a result that was not renamed fails if it does so once the log is open. -/
theorem fails_sealResult {P : Store F → Prop} (hstate : state ≠ .opened) (hfinal : s.final = none)
    (hkeep : ∀ {β : Type} {e : Op F β} {s : Store F}, e.opens = true → P s →
      P (e.perform .done s).1) (hs : P s)
    (hrest : ∀ s', P s' → ∀ log, Fails (sealLog state executionCount errorMessage log) s') :
    Fails (sealResult identity state executionCount errorMessage) s := by
  have hopen : Fails (Program.await .requireWorking >>= fun _ => openLog identity >>= fun log =>
      sealLog state executionCount errorMessage log) s := by
    refine fails_read rfl fun _ => fails_bind fun log _ => ?_
    exact hrest _ (complete_within (fun e => e.opens = true) (openLog_within identity) hkeep hs) log
  obtain ⟨x, hx⟩ := hopen
  have hfound : Op.finalExists.perform .done s = (s, .ok false) :=
    perform_finalExists (by rw [hfinal]; rfl)
  rw [sealResult, if_neg hstate]
  exact ⟨x, (congrArg Prod.snd (complete_call hfound)).trans hx⟩

theorem fails_sealLog (h : ∀ m : Manifest F, Fails (publishManifest m) s) (log : ℕ) :
    Fails (sealLog state executionCount errorMessage log) s :=
  fails_read rfl fun _ => fails_read rfl fun _ => h _

/-- The temporary file of another seal of the process is in the way. -/
theorem fails_temporary (hstate : state ≠ .opened) (hfinal : s.final = none)
    (h : s.hasTemporary s.pid = true) :
    Fails (sealResult identity state executionCount errorMessage) s := by
  refine fails_sealResult (P := fun s => s.hasTemporary s.pid = true) hstate hfinal ?_ h
    fun s' hs' log => fails_sealLog (fun m => ⟨.io, ?_⟩) log
  · intro β e s he hs
    obtain ⟨_, hpid, heq | ⟨d, f, hd, _, heq⟩⟩ := perform_opens he s
    · rw [Store.hasTemporary, heq, hpid]
      exact hs
    · rw [Store.hasTemporary, hd] at hs
      rw [Store.hasTemporary, heq, hpid]
      exact hs
  · have hrefused : Op.createTemporary.perform .done s' = (s', .error .io) := by
      rw [Op.perform, if_pos hs']
    refine (congrArg Prod.snd (complete_call hrefused)).trans ?_
    cases hd : s'.working with
    | none =>
      rw [Store.hasTemporary, hd] at hs'
      cases hs'
    | some d => exact congrArg Prod.snd (complete_call (takes_removeTemporary hd).done)

/-- An operation that writes the manifest. -/
def Op.writesManifest {α : Type} : Op F α → Bool
  | .createTemporary | .replaceManifest _ | .syncWorking | .removeTemporary => true
  | _ => false

theorem Store.Stranded.writeManifest (h : s.Stranded) (m : Manifest F) :
    (complete (writeManifest m) s).1.Stranded := by
  refine complete_within (fun e => e.writesManifest = true) ?_ ?_ h
  · have hwrites : (Program.bind (.await .createTemporary) fun _ =>
        Program.bind (.await (.replaceManifest m)) fun _ => .await .syncWorking :
        Thread F Unit).Within fun e => e.writesManifest = true :=
      .bind (.await rfl) fun _ => .bind (.await rfl) fun _ => .await rfl
    refine .cont hwrites ?_
    rintro (x | a)
    · exact .bind (.await rfl) fun _ => trivial
    · exact .bind (.await rfl) fun _ => trivial
  · rintro β e s he ⟨hfinal, d, hd, hnone⟩
    cases e with
    | createTemporary =>
      rw [Op.perform]
      split
      · exact ⟨hfinal, d, hd, hnone⟩
      · exact ⟨hfinal, _, rfl, by rw [hd]; exact hnone⟩
    | replaceManifest m =>
      rw [Op.perform]
      split
      · exact ⟨hfinal, _, rfl, by rw [hd]; exact hnone⟩
      · exact ⟨hfinal, d, hd, hnone⟩
    | syncWorking =>
      rw [Op.perform_reads rfl]
      exact ⟨hfinal, d, hd, hnone⟩
    | removeTemporary =>
      have hmap : (Op.removeTemporary.perform .done s).1.working =
          some { d with temporaries := d.temporaries.filter (· != s.pid) } := by
        rw [Op.perform, hd]
        rfl
      exact ⟨hfinal, _, hmap, hnone⟩
    | _ => cases he

/-- Without its state file a result is not sealed. -/
theorem fails_stranded (hstate : state ≠ .opened) (h : s.Stranded) :
    Fails (sealResult identity state executionCount errorMessage) s := by
  refine fails_sealResult (P := Store.Stranded) hstate h.1 ?_ h
    fun s' hs' log => fails_sealLog (fun m => ?_) log
  · rintro β e s he ⟨hfinal, d, hd, hnone⟩
    obtain ⟨hsame, _, heq | ⟨d', f, hd', _, heq⟩⟩ := perform_opens he s
    · exact ⟨hsame.trans hfinal, d, heq.trans hd, hnone⟩
    · rw [hd] at hd'
      cases hd'
      exact ⟨hsame.trans hfinal, _, heq, hnone⟩
  · -- The manifest may be written, but there is no state file to remove.
    show Fails (writeManifest m >>= fun _ => closeResult) s'
    refine fails_bind fun _ _ => ?_
    obtain ⟨_, d, hd, hnone⟩ := hs'.writeManifest m
    have hremove : ∀ t : Store F, t.working = some d →
        Op.removeState.perform .done t = (t, .error .io) := by
      intro t ht
      simp [Op.perform, ht, hnone]
    exact ⟨.io, congrArg Prod.snd (complete_call (hremove _ hd))⟩

theorem fails_unreadable (hstate : state ≠ .opened) (hfinal : s.final = none) {d : Directory F}
    {lf : LogFile F} (hd : s.working = some d) (hlog : d.log = some lf)
    (hlines : parseLines lf.lines = none) :
    Fails (sealResult identity state executionCount errorMessage) s := by
  refine fails_sealResult (P := fun s => ∃ d lf, s.working = some d ∧ d.log = some lf ∧
    parseLines lf.lines = none) hstate hfinal ?_ ⟨d, lf, hd, hlog, hlines⟩ ?_
  · rintro β e s he ⟨d, lf, hd, hlog, hlines⟩
    obtain ⟨_, _, heq | ⟨d', f, hd', hf, heq⟩⟩ := perform_opens he s
    · exact ⟨d, lf, heq.trans hd, hlog, hlines⟩
    · rw [hd] at hd'
      cases hd'
      rw [hlog] at hf
      cases hf
      exact ⟨_, _, heq, rfl, hlines⟩
  · rintro s' ⟨d, lf, hd, hlog, hlines⟩ log
    obtain ⟨s'', x, hread, _⟩ := fails_readLog hd hlog hlines false .done
    exact ⟨x, congrArg Prod.snd (complete_call hread)⟩

end

end

end

/-! ### Repeating a seal -/

/-- A seal with these arguments succeeds: its manifest lists the outputs of the log's lines,
with the counters of a log that was in memory or was read from them. -/
def Store.SealsAgain (s : Store F) (header : Header) (lines : List (Option (LogEntry F)))
    (known : OutputLog → Prop) (state : ResultState) (executionCount : Option ℤ)
    (errorMessage : Option Text) : Prop :=
  ∃ m, (complete (sealResult header.identity state executionCount errorMessage) s).2 = .ok m ∧
    ∀ entries, lines = entries.map some →
      ∃ object, (known object ∨ object = OutputLog.load header entries) ∧
        m = object.manifest entries state executionCount errorMessage

/-- The store that a repeated seal finds: in the same process, or in one that has started again
with this pid. -/
def Store.reopened (s : Store F) : Option ℕ → Store F
  | none => s
  | some pid => s.restarted pid

/-- After a seal whose operations went so the same seal succeeds. -/
def RepeatedIn (restart : Option ℕ) (s : Store F) (header : Header)
    (lines : List (Option (LogEntry F))) (known : OutputLog → Prop) (state : ResultState)
    (executionCount : Option ℤ) (errorMessage : Option Text) (ios : List Io) : Prop :=
  let s' := (play (sealResult header.identity state executionCount errorMessage) ios s).1
  (s'.reopened restart).SealsAgain header lines known state executionCount errorMessage

/-- Whatever happened to a seal, the same seal succeeds, in the same process if the first one
has ended and in one that has started again. -/
def Repeatable (s : Store F) (header : Header) (lines : List (Option (LogEntry F)))
    (known : OutputLog → Prop) (state : ResultState) (executionCount : Option ℤ)
    (errorMessage : Option Text) (ios : List Io) : Prop :=
  ∀ restart,
    (restart = none →
      ended (play (sealResult header.identity state executionCount errorMessage) ios s).2) →
    RepeatedIn restart s header lines known state executionCount errorMessage ios

/-- The removal of the state file has taken effect, and the rename has not. -/
def Store.Strands (s : Store F) (ios : List Io) : Prop :=
  s.hasTemporary s.pid = false ∧ s.reads + 5 ≤ effects ios ∧ effects ios < s.reads + 8

/-- The rename has taken effect. -/
def Store.Publishes (s : Store F) (ios : List Io) : Prop :=
  s.hasTemporary s.pid = false ∧ s.reads + 8 ≤ effects ios

/-- The processes whose temporary manifest is there afterwards, if the result is still open. -/
def Store.leaves (s : Store F) (ios : List Io) : ℕ → Bool :=
  Function.update s.hasTemporary s.pid (leftover s.reads (s.hasTemporary s.pid) ios)

section

variable {s : Store F} {header : Header} {entries : List (LogEntry F)} {known : OutputLog → Prop}
  {state : ResultState} {executionCount : Option ℤ} {errorMessage : Option Text}

theorem Store.Open.sealsAgain (hstate : state ≠ .opened)
    (h : s.Open header (entries.map some) fun o => known o ∨ o = OutputLog.load header entries)
    (hfresh : s.hasTemporary s.pid = false) :
    s.SealsAgain header (entries.map some) known state executionCount errorMessage := by
  obtain ⟨object, s', hobject, hcomplete⟩ := complete_open hstate h hfresh
  refine ⟨_, congrArg Prod.snd hcomplete, fun entries' heq => ?_⟩
  obtain rfl := List.map_injective_iff.mpr (Option.some_injective _) heq
  exact ⟨object, or_assoc.mp hobject |>.imp_right (or_self_iff.mp ·), rfl⟩

theorem Store.Sealed.sealsAgain {object : OutputLog} (hstate : state ≠ .opened)
    (hobject : known object ∨ object = OutputLog.load header entries)
    (h : s.Sealed (object.manifest entries state executionCount errorMessage)) :
    s.SealsAgain header (entries.map some) known state executionCount errorMessage := by
  refine ⟨object.manifest entries state executionCount errorMessage, ?_, fun entries' heq => ?_⟩
  · have hsame : (object.manifest entries state executionCount errorMessage).state = state := rfl
    rw [complete_sealed hstate h, if_pos hsame]
  · obtain rfl := List.map_injective_iff.mpr (Option.some_injective _) heq
    exact ⟨object, hobject, rfl⟩

theorem Fails.not_sealsAgain {lines : List (Option (LogEntry F))}
    (h : Fails (sealResult header.identity state executionCount errorMessage) s) :
    ¬ s.SealsAgain header lines known state executionCount errorMessage := by
  obtain ⟨x, hx⟩ := h
  rintro ⟨m, hm, _⟩
  rw [hx] at hm
  cases hm

/-- What the process that repeats a seal finds. -/
theorem reopened_files (s : Store F) (restart : Option ℕ) :
    (s.reopened restart).final = s.final ∧ (s.reopened restart).working = s.working ∧
      (s.reopened restart).pid = restart.getD s.pid := by
  cases restart <;> exact ⟨rfl, rfl, rfl⟩

theorem Store.Open.reopened {lines : List (Option (LogEntry F))} (h : s.Open header lines known)
    (restart : Option ℕ) : (s.reopened restart).Open header lines known := by
  cases restart with
  | none => exact h
  | some pid => exact ⟨h.opened, h.valid, h.final, h.working, fun _ hi => by cases hi⟩

theorem hasTemporary_reopened (s : Store F) (restart : Option ℕ) :
    (s.reopened restart).hasTemporary (s.reopened restart).pid =
      s.hasTemporary (restart.getD s.pid) := by
  obtain ⟨_, hworking, hpid⟩ := reopened_files s restart
  rw [Store.hasTemporary, Store.hasTemporary, hworking, hpid]

/-- A seal whose log can be read. -/
theorem repeatedIn_iff (hstate : state ≠ .opened) (h : s.Open header (entries.map some) known)
    (ios : List Io) (restart : Option ℕ) :
    RepeatedIn restart s header (entries.map some) known state executionCount errorMessage ios ↔
      ¬ s.Strands ios ∧ (s.Publishes ios ∨ s.leaves ios (restart.getD s.pid) = false) := by
  let c : SealCall F :=
    ⟨header, entries, known, state, executionCount, errorMessage, s.pid, s.hasTemporary⟩
  have hafter := SealCall.play_sealResult (c := c) hstate rfl (fun _ => rfl) h ios
  obtain ⟨hstill, hstranded, hpublished⟩ := hafter
  rw [RepeatedIn]
  generalize (play (sealResult header.identity state executionCount errorMessage) ios s).1 = s'
    at hstill hstranded hpublished
  obtain ⟨hfinal, hworking, _⟩ := reopened_files s' restart
  by_cases hopen : s.hasTemporary s.pid = true ∨ effects ios < s.reads + 5
  · -- The result is still open, and may have a temporary file in the way.
    obtain ⟨hopened, hpid, htemporaries⟩ := hstill hopen
    have hleaves : (s'.reopened restart).hasTemporary (s'.reopened restart).pid =
        s.leaves ios (restart.getD s.pid) := by
      rw [hasTemporary_reopened, htemporaries, hpid]
      rfl
    have hnot : ¬ s.Strands ios ∧ ¬ s.Publishes ios := by
      rcases hopen with hstale | hlt
      · exact ⟨fun hs => by simp [hs.1] at hstale, fun hs => by simp [hs.1] at hstale⟩
      · exact ⟨fun hs => by have := hs.2.1; omega, fun hs => by have := hs.2; omega⟩
    constructor
    · intro hagain
      refine ⟨hnot.1, .inr (Bool.eq_false_iff.mpr fun hleft => ?_)⟩
      exact (fails_temporary hstate (hfinal.trans hopened.final)
        (hleaves.trans hleft)).not_sealsAgain hagain
    · rintro ⟨_, hpublishes | hleft⟩
      · exact absurd hpublishes hnot.2
      · exact (hopened.reopened restart).sealsAgain hstate (hleaves.trans hleft)
  · obtain ⟨hfresh, hle⟩ : s.hasTemporary s.pid = false ∧ s.reads + 5 ≤ effects ios := by
      rw [not_or, Bool.not_eq_true, Nat.not_lt] at hopen
      exact hopen
    rcases Nat.lt_or_ge (effects ios) (s.reads + 8) with hlt | hge
    · refine iff_of_false (fun hagain => ?_) fun hcondition => hcondition.1 ⟨hfresh, hle, hlt⟩
      obtain ⟨hnone, d, hd, hstate'⟩ := hstranded hfresh hle hlt
      exact (fails_stranded hstate ⟨hfinal.trans hnone, d, hworking.trans hd,
        hstate'⟩).not_sealsAgain hagain
    · refine iff_of_true ?_ ⟨fun hs => by have := hs.2.2; omega, .inl ⟨hfresh, hge⟩⟩
      obtain ⟨object, hobject, d, hd, hm⟩ := hpublished hfresh hge
      exact Store.Sealed.sealsAgain hstate hobject ⟨d, hfinal.trans hd, hm⟩

end

/-- A seal that was interrupted can be repeated exactly if the log's lines can be read, the
interruption was not between the removal of the state file and the rename, and, unless the result
was renamed, no temporary manifest of the process that repeats it is there; a sealed result
answers a seal with its manifest or, for another state, with an error; and each interruption is
one that a run of the process can have. -/
theorem seal_again_iff (header : Header) (lines : List (Option (LogEntry F)))
    (known : OutputLog → Prop) (state : ResultState) (executionCount : Option ℤ)
    (errorMessage : Option Text) (hstate : state ≠ .opened) :
    (∀ (s : Store F) (ios : List Io) (restart : Option ℕ), s.Open header lines known →
      (RepeatedIn restart s header lines known state executionCount errorMessage ios ↔
        (parseLines lines).isSome ∧ ¬ s.Strands ios ∧
          (s.Publishes ios ∨ s.leaves ios (restart.getD s.pid) = false))) ∧
    (∀ (s : Store F) (m : Manifest F), s.Sealed m →
      complete (sealResult header.identity state executionCount errorMessage) s =
        (s, if m.state = state then .ok m
          else .error (.storage "Terminal Step result state conflicts with replay."))) ∧
    ∀ (py : Python F) (p : State F) (i : ℕ) (request : Request F) (waiting : Bool) (ios : List Io),
      p.calls[i]? = some ⟨request, sealResult header.identity state executionCount errorMessage >>=
        fun m => .ret (.manifest m), waiting⟩ →
      ∃ acts, (Transition.run (State.step py) p acts).store =
        (play (sealResult header.identity state executionCount errorMessage) ios p.store).1 := by
  refine ⟨fun s ios restart h => ?_, fun s m h => complete_sealed hstate h header.identity,
    fun py p i request waiting ios hi => ?_⟩
  · cases hparse : parseLines lines with
    | none =>
      refine iff_of_false (fun hagain => ?_) (by simp)
      have hafter := (play_unreadable hstate h hparse executionCount errorMessage ios).reopened
        restart
      obtain ⟨d, lf, hd, _, hlog, rfl⟩ := hafter.working
      exact (fails_unreadable hstate hafter.final hd hlog hparse).not_sealsAgain hagain
    | some entries =>
      obtain rfl := parseLines_eq_some.mp hparse
      simpa using repeatedIn_iff hstate h ios restart
  · obtain ⟨acts, hacts⟩ := play_run py ios hi
    exact ⟨acts, by rw [hacts, play_bind_ret]⟩

namespace Small

/-- The header of a result that was begun. -/
def openHeader : Header := ⟨.opened, ⟨0, 1⟩, ⟨"sources/a/source.py".toList, [], 2⟩⟩

/-- A result that was begun, in a process that has started again. -/
def openStore : Store Unit where
  working := some { state := some openHeader, log := some {} }

theorem openStore_open : openStore.Open openHeader [] fun _ => False where
  opened := rfl
  valid := by decide
  final := rfl
  working := ⟨_, _, rfl, rfl, rfl, rfl⟩
  memory := nofun

/-- A seal whose removal of the log fails. -/
def logRemovalFails : List Io := List.replicate 10 .done ++ [.failed false]

theorem seal_again_openStore :
    RepeatedIn (some 1) openStore openHeader [] (fun _ => False) .finalized none none
        logRemovalFails ↔
      (parseLines (F := Unit) []).isSome ∧ ¬ openStore.Strands logRemovalFails ∧
        (openStore.Publishes logRemovalFails ∨ openStore.leaves logRemovalFails 1 = false) :=
  (seal_again_iff openHeader [] (fun _ => False) .finalized none none (by decide)).1 openStore
    logRemovalFails (some 1) openStore_open

/-- The state file is gone, and no later seal opens the result. -/
theorem stranded_seal :
    ¬ Repeatable openStore openHeader [] (fun _ => False) .finalized none none
      logRemovalFails := by
  intro hrepeat
  obtain ⟨m, hm, _⟩ := hrepeat (some 1) nofun
  have herror : (complete (sealResult openHeader.identity .finalized none none)
      ((play (sealResult openHeader.identity .finalized none none) logRemovalFails
        openStore).1.restarted 1)).2 =
      .error (.storage "Open Step result state is unavailable.") := rfl
  exact absurd (herror.symm.trans hm) nofun

/-- The process is killed while it writes the manifest, and starts again with the same pid: its
first seal is refused, and the second one is not. -/
example :
    let killed := (play (sealResult openHeader.identity .finalized none none)
      (List.replicate 6 .done) openStore).1.restarted 1
    let refused := complete (sealResult openHeader.identity .finalized none none) killed
    refused.2 = .error .io ∧
      ∃ m, (complete (sealResult openHeader.identity .finalized none none) refused.1).2 = .ok m :=
  ⟨rfl, _, rfl⟩

end Small

end ExecutorService.ResultStore
