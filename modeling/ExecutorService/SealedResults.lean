/-
Sealed results.

What the manifest of a sealed Step result says about the output that was
acknowledged.  An append that is interrupted between its two writes leaves a line
that the memory does not know of, and a cancelled caller leaves a thread that still
writes.  Apart from these, every manifest is sound:

* `StateInv` — the store, and what each running thread knows of it;
* `sealed_result_sound` — every manifest of a run whose calls start when they fit;
* `interrupted_append_miscounts` — a manifest that counts none of its outputs.
-/
import ExecutorService.ResultThreads

namespace ExecutorService.ResultStore

open Codec (Text Python CodecError RuntimeOutputRecord RuntimeOutputRepresentation OutputKind
  OutputDescriptor OutputFile RepresentationDescriptor)

variable {F : Type} {py : Python F}

/-! ### Threads that begin -/

/-- The operation makes the directory of a new result. -/
def Op.makes {α : Type} : Op F α → Bool
  | .makeWorking => true
  | _ => false

/-- An operation of a `begin` on its new directory. -/
def Op.builds {α : Type} : Op F α → Bool
  | .writeSource | .createLog | .writeState _ => true
  | _ => false

/-- A thread that only reads until it makes its directory, and then goes on as
`build`. -/
def Looks {α : Type} (build : Thread F α) : Thread F α → Prop
  | .ret _ => True
  | .raise _ => True
  | .call e k => (e.reads = true ∧ ∀ r, Looks build (k r)) ∨
      (e.makes = true ∧ (∀ x, Looks build (k (.error x))) ∧ ∀ a, k (.ok a) = build)

/-- How a `begin` prepares its new directory: nobody else touches it. -/
def builder (py : Python F) : Program.Rules (Op F) Failure (Store F) where
  rely s s' := s.Fresh → s' = s
  refl _ _ := rfl
  trans := by
    intro s s' s'' h h' hs
    obtain rfl := h hs
    exact h' hs
  step e s r s' := ∃ io, e.perform io s = (s', r)
  allowed e s := s.Fresh ∧ e.builds = true ∧ ∀ acknowledged, Inv py acknowledged s → ∀ io,
    Inv py acknowledged (e.perform io s).1 ∧
      ((e.perform io s).1 = s ∨ ¬ s.Settled ∧ (e.perform io s).1.Blank)

section

variable {α : Type} {s : Store F}

/-- What follows the preparation of a directory. -/
def building (identity : StepResultIdentity) (source : ExecutionSourceReference) :
    Thread F (Reply F) := do
  prepare identity source
  return .begun

theorem begin_looks (identity : StepResultIdentity) (source : ExecutionSourceReference) :
    Looks (building identity source) (Request.thread py (.begin identity source)) := by
  refine .inl ⟨rfl, ?_⟩
  rintro (x | sealed)
  · trivial
  cases sealed with
  | true =>
    refine .inl ⟨rfl, ?_⟩
    rintro (x | manifest)
    · trivial
    · show Looks _ (Program.bind (ite _ _ _) _)
      split
      · trivial
      · trivial
  | false =>
    refine .inl ⟨rfl, ?_⟩
    rintro (x | exists_)
    · trivial
    cases exists_ with
    | true =>
      refine .inl ⟨rfl, ?_⟩
      rintro (x | header)
      · trivial
      · show Looks _ (Program.bind (Program.bind (identityJson identity) _) _)
        rw [identityJson]
        split
        · trivial
        · show Looks _ (Program.bind (ite _ _ _) _)
          split
          · trivial
          · split
            · trivial
            · trivial
    | false => exact .inr ⟨rfl, fun _ => trivial, fun _ => rfl⟩

theorem Store.Fresh.write (h : s.Fresh) {f : Directory F → Directory F}
    (hf : ∀ d, (f d).state = d.state ∧ (f d).manifest = d.manifest)
    (hlines : ∀ d lf, s.working = some d → (f d).log = some lf → lf.lines = []) :
    (s.write f).Fresh := by
  obtain ⟨hfinal, ⟨hcurrent, hblank⟩, d, hd, hstate, hmanifest⟩ := h
  have hwrite : (s.write f).working = some (f d) := by
    rw [Store.write, hd]
    rfl
  refine ⟨hfinal, ⟨hcurrent, ?_⟩, f d, hwrite, ?_, ?_⟩
  · intro d' lf hd' hlf
    rw [hwrite] at hd'
    cases hd'
    exact hlines d lf hd hlf
  · rw [(hf d).1, hstate]
  · rw [(hf d).2, hmanifest]

/-- A fresh directory that changes and stays closed. -/
theorem Inv.write_fresh {acknowledged : List BatchKey} (h : Inv py acknowledged s)
    (hfresh : s.Fresh) {f : Directory F → Directory F}
    (hf : ∀ d, (f d).state = d.state) : Inv py acknowledged (s.write f) := by
  obtain ⟨_, _, d, hd, hstate, hmanifest⟩ := hfresh
  rw [Store.write, hd]
  refine h.setWorking hd (fun hsome => ?_) fun header hheader => ?_
  · rw [hstate, hmanifest] at hsome
    rcases hsome with hsome | hsome <;> cases hsome
  · rw [Option.getD_some, hf, hstate] at hheader
    cases hheader

/-- Nothing was acknowledged before the result was begun. -/
theorem Inv.acknowledged_eq_nil {acknowledged : List BatchKey} (h : Inv py acknowledged s)
    (hs : ¬ s.Settled) : acknowledged = [] := by
  by_contra hne
  exact hs (h.silent hne)

/-- An operation on a fresh directory. -/
theorem safe_build {β : Type} {e : Op F α} {f : α → Thread F β} (hbuilds : e.builds = true)
    (h : s.Fresh)
    (hallowed : ∀ acknowledged, Inv py acknowledged s → ∀ io,
      Inv py acknowledged (e.perform io s).1 ∧
        ((e.perform io s).1 = s ∨ ¬ s.Settled ∧ (e.perform io s).1.Blank))
    (hok : ∀ io a s', e.perform io s = (s', .ok a) →
      Program.Safe (builder py) (fun _ _ => True) (f a) s') :
    Program.Safe (builder py) (fun _ _ => True) (Program.await e >>= f) s := by
  refine Program.Safe.await_bind (P := (· = s)) ?_ rfl ?_ ?_ ?_
  · rintro _ s' rfl hr
    exact hr h
  · rintro _ rfl
    exact ⟨h, hbuilds, hallowed⟩
  · rintro _ a s' rfl ⟨io, hio⟩
    exact hok io a s' hio
  · exact fun _ _ _ _ _ _ _ => trivial

/-- `.state.json` beside an empty log. -/
theorem Inv.writeState {acknowledged : List BatchKey} (h : Inv py acknowledged s)
    (hfresh : s.Fresh) (hlog : ∀ d, s.working = some d → d.log = some {}) (header : Header) :
    Inv py acknowledged (s.write fun d => { d with state := some header }) ∧
      (s.write fun d => { d with state := some header }).Blank := by
  obtain rfl := h.acknowledged_eq_nil hfresh.not_settled
  obtain ⟨_, ⟨hcurrent, hblank⟩, d, hd, _⟩ := hfresh
  rw [Store.write, hd]
  refine ⟨h.setWorking hd (fun _ => .inl rfl) ?_, hcurrent, ?_⟩
  · rintro _ ⟨⟩
    refine ⟨_, hlog d hd, fun entries hlines => ?_⟩
    obtain rfl := List.map_eq_nil_iff.mp (Eq.symm hlines)
    refine ⟨trivial, ?_, List.nodup_nil, List.prefix_refl _, Nat.zero_le _, ?_⟩
    · exact fun _ h => absurd h List.not_mem_nil
    · intro log object hlog
      rw [hcurrent] at hlog
      cases hlog
  · rintro _ f ⟨⟩ hf
    exact hblank d f hd hf

theorem prepare_safe (identity : StepResultIdentity) (source : ExecutionSourceReference)
    (h : s.Fresh) :
    Program.Safe (builder py) (fun _ _ => True) (prepare identity source) s := by
  have hsame : s.write id = s := by
    obtain ⟨_, _, d, hd, _⟩ := h
    rw [Store.write, hd]
    cases s
    simp_all
  -- The source is written, the log is created and the state is written, each on the new
  -- directory.
  refine safe_build rfl h ?_ ?_
  · intro acknowledged hinv io
    have hstore : (Op.writeSource.perform io s).1 = s := by
      rw [Op.perform, hsame, Io.reply_self]
    rw [hstore]
    exact ⟨hinv, .inl rfl⟩
  -- Writing the source leaves the abstract store as it was.
  intro io _ s' hio
  obtain rfl : s' = s := by
    simp only [Op.perform, hsame] at hio
    rw [← io.reply_self s (), hio]
  show Program.Safe _ _ (Program.bind (identityJson identity) _) s'
  rw [identityJson]
  split
  · exact fun _ _ => trivial
  -- The empty log, and then `.state.json`.
  have hcreated : (s'.write fun d => { d with log := some {} }).Fresh :=
    h.write (fun _ => ⟨rfl, rfl⟩) (by rintro d lf _ ⟨⟩; rfl)
  refine safe_build rfl h ?_ ?_
  · intro acknowledged hinv io
    rcases (Io.reply_cases (t := (Op.createLog.perform io s').1) rfl).1 with heq | heq
    · rw [heq]
      exact ⟨hinv, .inl rfl⟩
    · rw [heq]
      exact ⟨hinv.write_fresh h (fun _ => rfl), .inr ⟨h.not_settled, hcreated.2.1⟩⟩
  intro io _ s₁ hio
  -- An operation that answered has had its effect.
  obtain rfl := (Io.reply_cases hio).2 _ rfl
  intro s₂ hs₂
  obtain rfl := hs₂ hcreated
  refine ⟨⟨hcreated, rfl, fun acknowledged hinv io => ?_⟩, ?_⟩
  · -- With the state in place the Step is open.
    have hwritten := hinv.writeState hcreated (by rintro _ ⟨⟩; rfl) ⟨.opened, identity, source⟩
    rcases (Io.reply_cases (t := ((Op.writeState ⟨.opened, identity, source⟩).perform io
      (s'.write fun d => { d with log := some {} })).1) rfl).1 with heq | heq
    · rw [heq]
      exact ⟨hinv, .inl rfl⟩
    · rw [heq]
      exact ⟨hwritten.1, .inr ⟨hcreated.not_settled, hwritten.2⟩⟩
  · rintro (x | _) _ _
    · exact fun _ _ => trivial
    · exact fun _ _ => trivial

theorem building_safe (identity : StepResultIdentity) (source : ExecutionSourceReference)
    (h : s.Fresh) :
    Program.Safe (builder py) (fun _ _ => True) (building identity source) s :=
  Program.Safe.bind (prepare_safe identity source h) (fun _ _ _ _ _ => trivial)
    (fun _ _ _ _ _ => trivial)

/-- A directory that was just made. -/
theorem Inv.make {acknowledged : List BatchKey} (h : Inv py acknowledged s)
    (hfinal : s.final = none) (hworking : s.working = none) :
    ¬ s.Settled ∧ Store.Fresh { s with working := some {} } ∧
      Inv py acknowledged { s with working := some {} } := by
  have hsettled : ¬ s.Settled := by
    rintro (hsome | ⟨d, hd, _⟩)
    · simp [hfinal] at hsome
    · rw [hworking] at hd
      cases hd
  have hcurrent : s.current = none := by
    cases hc : s.current with
    | none => rfl
    | some log => exact absurd (h.loaded log hc).1 hsettled
  refine ⟨hsettled, ⟨hfinal, ⟨hcurrent, ?_⟩, {}, rfl, rfl, rfl⟩, ?_, ?_, ?_, ?_⟩
  · rintro _ f ⟨⟩ ⟨⟩
  · intro d hd
    rw [show s.final = some d from hd] at hfinal
    cases hfinal
  · intro log hlog
    rw [show s.current = some log from hlog] at hcurrent
    cases hcurrent
  · intro hne
    exact absurd (h.acknowledged_eq_nil hsettled) hne
  · rintro _ header ⟨⟩ ⟨⟩

end

/-! ### Runs -/

section

variable (py : Python F)

/-- The request begins a result. -/
def Request.isBegin : Request F → Bool
  | .begin .. => true
  | _ => false

/-- A writing call whose thread may still act, or whose caller waits for it. -/
def Call.Writes (call : Call F) : Prop :=
  call.request.isBegin = false ∧ (call.running = true ∨ call.waiting = true)

/-- A `begin` that prepares its new directory. -/
def Call.Builds (call : Call F) : Prop :=
  call.request.isBegin = true ∧ ∃ (α : Type) (e : Op F α) (k : Except Failure α → Thread F (Reply F)),
    call.thread = .call e k ∧ e.builds = true

/-- At most one of the calls meets `p`. -/
def Unique (p : Call F → Prop) (calls : List (Call F)) : Prop :=
  ∀ (i j : ℕ) (c c' : Call F), calls[i]? = some c → calls[j]? = some c' → p c → p c' → i = j

/-- What holds of a call: a `begin` reads, or prepares a directory of its own; a
writing call keeps the invariant. -/
def CallInv (acknowledged : List BatchKey) (store : Store F) (call : Call F) : Prop :=
  match call.request with
  | .begin identity source => Looks (building identity source) call.thread ∨
      call.Builds ∧ Program.Safe (builder py) (fun _ _ => True) call.thread store
  | request => call.Writes → Program.Safe (writer py acknowledged)
      (Ends py acknowledged fun reply s =>
        Inv py (acknowledge acknowledged (request.acknowledges py reply)) s) call.thread store

/-- What holds of the store and of the calls in every reachable state. -/
structure StateInv (s : State F) : Prop where
  store : Inv py s.acknowledged s.store
  calls : ∀ (i : ℕ) (c : Call F), s.calls[i]? = some c → CallInv py s.acknowledged s.store c
  writers : Unique Call.Writes s.calls
  builders : Unique Call.Builds s.calls

/-- No thread of an append or a seal is running. -/
def State.Quiet (s : State F) : Prop :=
  ∀ c ∈ s.calls, c.request.isBegin = false → c.running = false

/-- When a call may start its thread: an append or a seal after the threads of the
earlier ones have ended, with a log in memory that knows every batch of the file;
an append of a new batch after the acknowledgement of the earlier ones. -/
def Request.Fits (s : State F) : Request F → Prop
  | .begin .. => True
  | .append _ _ batchId _ => s.Quiet ∧ s.store.Remembers ∧
      ∀ d f, s.store.working = some d → d.log = some f → Awaited s.acknowledged batchId f.lines
  | _ => s.Quiet ∧ s.store.Remembers

/-- The steps that do not meet the defects: every call starts when it fits, and no
`begin` that has overlooked the final directory makes a new one beside it. -/
def Undisturbed (s : State F) : Action F → Prop
  | .call request => s.calls.any (·.waiting) = false → request.Fits s
  | .step i _ => ∀ request k waiting, s.calls[i]? = some ⟨request, .call .makeWorking k, waiting⟩ →
      s.store.final = none
  | _ => True

end

section

variable {p : Call F → Prop} {calls : List (Call F)}

theorem Unique.set (h : Unique p calls) {i : ℕ} {c c' : Call F} (hi : calls[i]? = some c)
    (hc : p c' → p c ∨ ∀ (j : ℕ) (c'' : Call F), calls[j]? = some c'' → ¬ p c'') :
    Unique p (calls.set i c') := by
  have hlt := (List.getElem?_eq_some_iff.mp hi).1
  -- Where the new call stands, the old one stood, or none did.
  have hold : ∀ (j : ℕ) (d : Call F), (calls.set i c')[j]? = some d → p d →
      j = i ∧ d = c' ∨ calls[j]? = some d := by
    intro j d hj _
    by_cases hij : j = i
    · subst hij
      rw [List.getElem?_set_self hlt] at hj
      exact .inl ⟨rfl, (Option.some.inj hj).symm⟩
    · rw [List.getElem?_set_ne (Ne.symm hij)] at hj
      exact .inr hj
  intro j k d d' hj hk hd hd'
  rcases hold j d hj hd with ⟨rfl, rfl⟩ | hj'
  · rcases hold k d' hk hd' with ⟨rfl, rfl⟩ | hk'
    · rfl
    · rcases hc hd with hpc | hnone
      · exact h j k c d' hi hk' hpc hd'
      · exact absurd hd' (hnone k d' hk')
  · rcases hold k d' hk hd' with ⟨rfl, rfl⟩ | hk'
    · rcases hc hd' with hpc | hnone
      · exact h j k d c hj' hi hd hpc
      · exact absurd hd (hnone j d hj')
    · exact h j k d d' hj' hk' hd hd'

theorem Unique.append (h : Unique p calls) {c : Call F}
    (hc : p c → ∀ (j : ℕ) (c' : Call F), calls[j]? = some c' → ¬ p c') :
    Unique p (calls ++ [c]) := by
  have hold : ∀ (j : ℕ) (d : Call F), (calls ++ [c])[j]? = some d →
      calls[j]? = some d ∨ j = calls.length ∧ d = c := by
    intro j d hj
    by_cases hlt : j < calls.length
    · rw [List.getElem?_append_left hlt] at hj
      exact .inl hj
    · rw [List.getElem?_append_right (by omega)] at hj
      obtain ⟨hlt', hd⟩ := List.getElem?_eq_some_iff.mp hj
      simp only [List.length_singleton] at hlt'
      have hzero : j - calls.length = 0 := by omega
      simp only [hzero, List.getElem_singleton] at hd
      exact .inr ⟨by omega, hd.symm⟩
  intro j k d d' hj hk hd hd'
  rcases hold j d hj with hj' | ⟨rfl, rfl⟩ <;> rcases hold k d' hk with hk' | ⟨rfl, rfl⟩
  · exact h j k d d' hj' hk' hd hd'
  · exact absurd hd (hc hd' j d hj')
  · exact absurd hd' (hc hd k d' hk')
  · rfl

theorem getElem?_eraseIdx_exists {i j : ℕ} {c : Call F} (h : (calls.eraseIdx i)[j]? = some c) :
    ∃ k, k ≠ i ∧ calls[k]? = some c ∧ k = if j < i then j else j + 1 := by
  rw [List.getElem?_eraseIdx] at h
  by_cases hlt : j < i
  · rw [if_pos hlt] at h
    exact ⟨j, by omega, h, by rw [if_pos hlt]⟩
  · rw [if_neg hlt] at h
    exact ⟨j + 1, by omega, h, by rw [if_neg hlt]⟩

theorem Unique.eraseIdx (h : Unique p calls) (i : ℕ) : Unique p (calls.eraseIdx i) := by
  intro j k d d' hj hk hd hd'
  obtain ⟨j', _, hj', hj_eq⟩ := getElem?_eraseIdx_exists hj
  obtain ⟨k', _, hk', hk_eq⟩ := getElem?_eraseIdx_exists hk
  have := h j' k' d d' hj' hk' hd hd'
  split at hj_eq <;> split at hk_eq <;> omega

end

variable {s : State F}

theorem callInv_of_writes {acknowledged : List BatchKey} {store : Store F} {c : Call F}
    (hc : c.request.isBegin = false) :
    CallInv py acknowledged store c ↔ (c.Writes → Program.Safe (writer py acknowledged)
      (Ends py acknowledged fun reply s =>
        Inv py (acknowledge acknowledged (c.request.acknowledges py reply)) s) c.thread store) := by
  obtain ⟨request, thread, waiting⟩ := c
  cases request with
  | begin identity source => cases hc
  | append identity expectedOffset batchId records => rfl
  | finalize identity executionCount errorMessage => rfl
  | abort identity reason => rfl

/-- What the others know survives a step that they may rely on. -/
theorem CallInv.interfere {acknowledged : List BatchKey} {store store' : Store F} {c : Call F}
    (h : CallInv py acknowledged store c)
    (hwriter : c.Writes → (writer py acknowledged).rely store store')
    (hbuilder : c.Builds → store.Fresh → store' = store) :
    CallInv py acknowledged store' c := by
  cases hc : c.request.isBegin with
  | false =>
    rw [callInv_of_writes hc] at h ⊢
    exact fun hwrites => (h hwrites).interfere (hwriter hwrites)
  | true =>
    obtain ⟨request, thread, waiting⟩ := c
    cases request with
    | begin identity source =>
      rcases h with hlooks | ⟨hbuilds, hsafe⟩
      · exact .inl hlooks
      · exact .inr ⟨hbuilds, hsafe.interfere (hbuilder hbuilds)⟩
    | _ => cases hc

theorem Looks.not_builds {build : Thread F (Reply F)} {c : Call F} (h : Looks build c.thread) :
    ¬ c.Builds := by
  obtain ⟨request, thread, waiting⟩ := c
  rintro ⟨_, α, e, k, rfl, he⟩
  rcases h with ⟨hreads, _⟩ | ⟨hmakes, _⟩
  · cases e <;> cases he <;> cases hreads
  · cases e <;> cases he <;> cases hmakes

/-- A thread that prepares its directory finds it as it left it. -/
theorem CallInv.fresh {acknowledged : List BatchKey} {store : Store F} {c : Call F}
    (h : CallInv py acknowledged store c) (hbuilds : c.Builds) : store.Fresh := by
  obtain ⟨request, thread, waiting⟩ := c
  cases request with
  | begin identity source =>
    rcases h with hlooks | ⟨_, hsafe⟩
    · exact absurd hbuilds (Looks.not_builds (c := ⟨.begin identity source, thread, waiting⟩) hlooks)
    · obtain ⟨_, α, e, k, rfl, _⟩ := hbuilds
      exact hsafe.call_step.1.1
  | append identity expectedOffset batchId records => cases hbuilds.1
  | finalize identity executionCount errorMessage => cases hbuilds.1
  | abort identity reason => cases hbuilds.1

/-- The next operation of one thread. -/
theorem StateInv.perform (h : StateInv py s) {i : ℕ} {c c' : Call F} {store : Store F}
    (hi : s.calls[i]? = some c) (hinv : Inv py s.acknowledged store)
    (hc' : CallInv py s.acknowledged store c') (hwrites : c'.Writes → c.Writes)
    (hbuilds : c'.Builds → c.Builds ∨ ∀ (j : ℕ) (d : Call F), s.calls[j]? = some d → ¬ d.Builds)
    (hwriter : ∀ (j : ℕ) (d : Call F), j ≠ i → s.calls[j]? = some d → d.Writes →
      (writer py s.acknowledged).rely s.store store)
    (hbuilder : ∀ (j : ℕ) (d : Call F), j ≠ i → s.calls[j]? = some d → d.Builds →
      s.store.Fresh → store = s.store) :
    StateInv py { s with store := store, calls := s.calls.set i c' } := by
  refine ⟨hinv, ?_, h.writers.set hi fun hw => .inl (hwrites hw), h.builders.set hi hbuilds⟩
  intro j d hj
  by_cases hij : j = i
  · subst hij
    rw [List.getElem?_set_self (List.getElem?_eq_some_iff.mp hi).1] at hj
    cases hj
    exact hc'
  · rw [List.getElem?_set_ne (Ne.symm hij)] at hj
    exact (h.calls j d hj).interfere (hwriter j d hij hj) (hbuilder j d hij hj)

theorem StateInv.step_writer (h : StateInv py s) {i : ℕ} {request : Request F} {α : Type}
    {e : Op F α} {k : Except Failure α → Thread F (Reply F)} {waiting : Bool}
    (hi : s.calls[i]? = some ⟨request, .call e k, waiting⟩) (hrequest : request.isBegin = false)
    (io : Io) : StateInv py (s.step py (.step i io)) := by
  have hwrites : Call.Writes (⟨request, .call e k, waiting⟩ : Call F) := ⟨hrequest, .inl rfl⟩
  have hsafe := (callInv_of_writes (c := ⟨request, .call e k, waiting⟩) hrequest).mp
    (h.calls i _ hi) hwrites
  obtain ⟨hallowed, hnext⟩ := hsafe.call_step
  simp only [State.step, hi]
  refine h.perform hi (hallowed io).1 ?_ (fun _ => hwrites) (fun hb => ?_) ?_ ?_
  · rw [callInv_of_writes (c := ⟨request, _, waiting⟩) hrequest]
    exact fun _ => hnext _ _ ⟨io, rfl⟩
  · rw [show request.isBegin = true from hb.1] at hrequest
    cases hrequest
  · intro j d hij hj hd
    exact absurd (h.writers j i d _ hj hi hd hwrites) hij
  · exact fun _ _ _ _ _ hfresh => (hallowed io).2 hfresh

theorem StateInv.step_begin (h : StateInv py s) {i : ℕ} {identity : StepResultIdentity}
    {source : ExecutionSourceReference} {α : Type} {e : Op F α}
    {k : Except Failure α → Thread F (Reply F)} {waiting : Bool}
    (hi : s.calls[i]? = some ⟨.begin identity source, .call e k, waiting⟩) (io : Io)
    (hok : Undisturbed s (.step i io)) : StateInv py (s.step py (.step i io)) := by
  have hwrites : ∀ thread : Thread F (Reply F),
      Call.Writes (⟨.begin identity source, thread, waiting⟩ : Call F) →
      Call.Writes (⟨.begin identity source, .call e k, waiting⟩ : Call F) :=
    fun _ hw => by cases hw.1
  simp only [State.step, hi]
  rcases h.calls i _ hi with (⟨hreads, hlooks⟩ | ⟨hmakes, hlooks, hbuild⟩) | ⟨hbuilds, hsafe⟩
  · -- A read.
    rw [Op.perform_reads hreads]
    refine h.perform hi h.store (.inl (hlooks _)) (hwrites _)
      (fun hb => absurd hb (Looks.not_builds (hlooks _))) ?_ ?_
    · exact fun _ _ _ _ _ => (writer py s.acknowledged).refl _
    · exact fun _ _ _ _ _ _ => rfl
  · -- The new directory: nothing was there, and nobody prepares another one.
    cases e with
    | makeWorking =>
      cases hworking : s.store.working with
      | some d =>
        -- Another directory is there already: the operation only reports it.
        simp only [Op.perform, hworking]
        refine h.perform hi h.store (.inl (hlooks _)) (hwrites _)
          (fun hb => absurd hb (Looks.not_builds (hlooks _))) ?_ ?_
        · exact fun _ _ _ _ _ => (writer py s.acknowledged).refl _
        · exact fun _ _ _ _ _ _ => rfl
      | none =>
        -- Nothing was there, so no other call can be preparing one.
        have hnofresh : ¬ s.store.Fresh := by
          rintro ⟨_, _, d, hd, _⟩
          rw [hworking] at hd
          cases hd
        obtain ⟨hsettled, hfresh, hmade⟩ := h.store.make (hok _ _ _ hi) hworking
        have hrely : (writer py s.acknowledged).rely s.store { s.store with working := some {} } :=
          fun _ => ⟨hmade, .inr ⟨hsettled, hfresh.2.1⟩⟩
        simp only [Op.perform, hworking]
        -- Made and answered, not made, made but reported as failed, or killed before it.
        rcases io with _ | (_ | _) | _
        · refine h.perform hi hmade (.inr ⟨?_, ?_⟩) (hwrites _) (fun _ => .inr ?_)
            (fun _ _ _ _ _ => hrely) (fun _ _ _ _ _ hf => absurd hf hnofresh)
          · refine ⟨rfl, ?_⟩
            show ∃ (α : Type) (e : Op F α) (k' : _), k (.ok ()) = .call e k' ∧ e.builds = true
            rw [hbuild]
            exact ⟨_, _, _, rfl, rfl⟩
          · show Program.Safe _ _ (k (.ok ())) _
            rw [hbuild]
            exact building_safe identity source hfresh
          · exact fun j d hj hd => hnofresh ((h.calls j d hj).fresh hd)
        · refine h.perform hi h.store (.inl (hlooks _)) (hwrites _)
            (fun hb => absurd hb (Looks.not_builds (hlooks _)))
            (fun _ _ _ _ _ => (writer py s.acknowledged).refl _) (fun _ _ _ _ _ _ => rfl)
        · refine h.perform hi hmade (.inl (hlooks _)) (hwrites _)
            (fun hb => absurd hb (Looks.not_builds (hlooks _)))
            (fun _ _ _ _ _ => hrely) (fun _ _ _ _ _ hf => absurd hf hnofresh)
        · refine h.perform hi h.store (.inl (hlooks _)) (hwrites _)
            (fun hb => absurd hb (Looks.not_builds (hlooks _)))
            (fun _ _ _ _ _ => (writer py s.acknowledged).refl _) (fun _ _ _ _ _ _ => rfl)
    | _ => cases hmakes
  · -- An operation on the directory it is preparing.
    obtain ⟨⟨_, _, hallowed⟩, hnext⟩ := hsafe.call_step
    -- The rules of building allow it, whatever has been acknowledged meanwhile.
    obtain ⟨hinv, hrely⟩ := hallowed s.acknowledged h.store io
    refine h.perform hi hinv ?_ (hwrites _) (fun _ => .inl hbuilds)
      (fun _ _ _ _ _ _ => ⟨hinv, hrely⟩) ?_
    · have hsafe' : Program.Safe (builder py) (fun _ _ => True) (k (e.perform io s.store).2)
          (e.perform io s.store).1 := hnext _ _ ⟨io, rfl⟩
      cases hk : k (e.perform io s.store).2 with
      | ret reply => exact .inl trivial
      | raise x => exact .inl trivial
      | call e' k' =>
        rw [hk] at hsafe'
        exact .inr ⟨⟨rfl, _, e', k', rfl, hsafe'.call_step.1.2.1⟩, hsafe'⟩
    · intro j d hij hj hd
      exact absurd (h.builders j i d _ hj hi hd hbuilds) hij

/-- What a writing thread returns is only wrapped for its caller. -/
theorem safe_wrap {α β : Type} {acknowledged : List BatchKey} {store : Store F}
    {good : α → Store F → Prop} {good' : β → Store F → Prop} {p : Thread F α} {f : α → β}
    (h : Program.Safe (writer py acknowledged) (Ends py acknowledged good) p store)
    (hgood : ∀ a s, good a s → good' (f a) s) :
    Program.Safe (writer py acknowledged) (Ends py acknowledged good')
      (p >>= fun a => Program.ret (f a)) store := by
  induction p generalizing store with
  | ret a => exact fun s hr => hgood a s (h s hr)
  | raise x => exact fun s hr => h s hr
  | call e k ih =>
    exact fun s hr => ⟨(h s hr).1, fun r s' hs => ih r ((h s hr).2 r s' hs)⟩

/-- A writing call that fits starts safely. -/
theorem StateInv.thread_safe (h : StateInv py s) {request : Request F}
    (hrequest : request.isBegin = false) (hfits : request.Fits s) :
    Program.Safe (writer py s.acknowledged) (Ends py s.acknowledged fun reply store =>
      Inv py (acknowledge s.acknowledged (request.acknowledges py reply)) store)
      (request.thread py) s.store := by
  cases request with
  | begin identity source => cases hrequest
  | append identity expectedOffset batchId records =>
    obtain ⟨_, hremembers, hlines⟩ := hfits
    refine safe_wrap (append_safe identity expectedOffset records ⟨h.store, hremembers, hlines⟩) ?_
    rintro receipt store ⟨digest, hdigest, hgood⟩
    rw [Request.acknowledges, hdigest]
    exact hgood
  | finalize identity executionCount errorMessage =>
    exact safe_wrap (sealResult_safe identity _ executionCount errorMessage
      ⟨h.store, hfits.2, fun _ _ _ _ => trivial⟩) fun _ _ hgood => hgood
  | abort identity reason =>
    exact safe_wrap (sealResult_safe identity _ none (some reason)
      ⟨h.store, hfits.2, fun _ _ _ _ => trivial⟩) fun _ _ hgood => hgood

theorem StateInv.step_call (h : StateInv py s) (request : Request F)
    (hok : Undisturbed s (.call request)) : StateInv py (s.step py (.call request)) := by
  simp only [State.step]
  split
  · exact h
  rename_i hwaiting
  have hfree : s.calls.any (·.waiting) = false := by simpa using hwaiting
  have hfits := hok hfree
  -- The lock is free and the earlier writers have ended.
  have hnone : request.isBegin = false →
      ∀ (j : ℕ) (c : Call F), s.calls[j]? = some c → ¬ c.Writes := by
    rintro hrequest j c hj ⟨hc, hlive⟩
    have hmem := List.mem_of_getElem? hj
    have hquiet : s.Quiet := by
      cases request with
      | begin identity source => cases hrequest
      | append identity expectedOffset batchId records => exact hfits.1
      | finalize identity executionCount errorMessage => exact hfits.1
      | abort identity reason => exact hfits.1
    rcases hlive with hrunning | hwait
    · rw [hquiet c hmem hc] at hrunning
      cases hrunning
    · rw [List.any_eq_false] at hfree
      exact hfree c hmem hwait
  -- A new `begin` starts by looking and builds nothing yet.
  have hlooks : request.isBegin = true → ¬ Call.Builds (⟨request, request.thread py, true⟩ : Call F) := by
    intro hrequest
    cases request with
    | begin identity source =>
      have hthread : Looks (building identity source) (Request.thread py (.begin identity source)) :=
        begin_looks identity source
      exact Looks.not_builds (c := ⟨.begin identity source, _, true⟩) hthread
    | _ => cases hrequest
  refine ⟨h.store, ?_, h.writers.append fun hw => hnone hw.1,
    h.builders.append fun hb => absurd hb (hlooks hb.1)⟩
  intro j c hj
  -- The calls that are there keep their place; the new one comes last.
  by_cases hlt : j < s.calls.length
  · rw [List.getElem?_append_left hlt] at hj
    exact h.calls j c hj
  · have hc : c = ⟨request, request.thread py, true⟩ := by
      rw [List.getElem?_append_right (by omega)] at hj
      have := List.mem_of_getElem? hj
      exact List.mem_singleton.mp this
    subst hc
    cases hrequest : request.isBegin with
    | false =>
      rw [callInv_of_writes (c := ⟨request, request.thread py, true⟩) hrequest]
      exact fun _ => h.thread_safe hrequest hfits
    | true =>
      cases request with
      | begin identity source =>
        have hthread : Looks (building identity source)
            (Request.thread py (.begin identity source)) := begin_looks identity source
        exact .inl hthread
      | _ => cases hrequest

theorem StateInv.step_cancel (h : StateInv py s) (i : ℕ) :
    StateInv py (s.step py (.cancel i)) := by
  simp only [State.step]
  split
  · rename_i c hi
    have hwrites : Call.Writes { c with waiting := false } → c.Writes := by
      rintro ⟨hc, hlive⟩
      refine ⟨hc, ?_⟩
      rcases hlive with hrunning | hwait
      · exact .inl hrunning
      · cases hwait
    refine h.perform hi h.store ?_ hwrites (fun hb => .inl hb)
      (fun _ _ _ _ _ => (writer py s.acknowledged).refl _) (fun _ _ _ _ _ _ => rfl)
    have hcall := h.calls i c hi
    cases hc : c.request.isBegin with
    | false =>
      rw [callInv_of_writes hc] at hcall
      rw [callInv_of_writes (c := { c with waiting := false }) hc]
      exact fun hw => hcall (hwrites hw)
    | true =>
      obtain ⟨request, thread, waiting⟩ := c
      cases request with
      | begin identity source => exact hcall
      | _ => cases hc
  · exact h

/-- A call leaves the list. -/
theorem StateInv.erase (h : StateInv py s) {i : ℕ} {acknowledged : List BatchKey}
    (hinv : Inv py acknowledged s.store)
    (hsame : acknowledged = s.acknowledged ∨ ∀ (j : ℕ) (c : Call F), j ≠ i →
      s.calls[j]? = some c → ¬ c.Writes) :
    StateInv py { s with calls := s.calls.eraseIdx i, acknowledged := acknowledged } := by
  refine ⟨hinv, ?_, h.writers.eraseIdx i, h.builders.eraseIdx i⟩
  intro j c hj
  obtain ⟨k, hk, hkc, _⟩ := getElem?_eraseIdx_exists hj
  have hcall := h.calls k c hkc
  rcases hsame with rfl | hnone
  · exact hcall
  · cases hc : c.request.isBegin with
    | false =>
      rw [callInv_of_writes hc]
      exact fun hw => absurd hw (hnone k c hk hkc)
    | true =>
      obtain ⟨request, thread, waiting⟩ := c
      cases request with
      | begin identity source => exact hcall
      | _ => cases hc

theorem StateInv.step_resume (h : StateInv py s) (i : ℕ) :
    StateInv py (s.step py (.resume i)) := by
  simp only [State.step]
  split
  · rename_i request reply hi
    cases hrequest : request.isBegin with
    | true =>
      cases request with
      | begin identity source => exact h.erase h.store (.inl rfl)
      | _ => cases hrequest
    | false =>
      have hwrites : Call.Writes (⟨request, .ret reply, true⟩ : Call F) := ⟨hrequest, .inr rfl⟩
      have hsafe := (callInv_of_writes (c := ⟨request, .ret reply, true⟩) hrequest).mp
        (h.calls i _ hi) hwrites
      refine h.erase (hsafe _ ((writer py s.acknowledged).refl _)) (.inr ?_)
      intro j c hij hj hw
      exact hij (h.writers j i c _ hj hi hw hwrites)
  · exact h.erase h.store (.inl rfl)
  · exact h

/-- A restart loses the memory and the threads. -/
theorem StateInv.step_restart (h : StateInv py s) (pid : ℕ) :
    StateInv py (s.step py (.restart pid)) := by
  have hnone : ∀ (i : ℕ) (c : Call F), ([] : List (Call F))[i]? ≠ some c := by
    intro i c hi
    simp at hi
  refine ⟨⟨?_, ?_, h.store.silent, ?_⟩, fun i c hi => absurd hi (hnone i c),
    fun i j c c' hi => absurd hi (hnone i c), fun i j c c' hi => absurd hi (hnone i c)⟩
  · intro d hd
    obtain ⟨hworking, _, hmanifest⟩ := h.store.sealed d hd
    exact ⟨hworking, rfl, hmanifest⟩
  · intro log hlog
    cases hlog
  · intro d header hd hheader
    obtain ⟨f, hf, hrecorded⟩ := h.store.opened d header hd hheader
    refine ⟨f, hf, fun entries hlines => { hrecorded entries hlines with memory := ?_ }⟩
    intro log object hlog
    cases hlog

theorem StateInv.step (h : StateInv py s) (a : Action F) (hok : Undisturbed s a) :
    StateInv py (s.step py a) := by
  cases a with
  | call request => exact h.step_call request hok
  | cancel i => exact h.step_cancel i
  | resume i => exact h.step_resume i
  | restart pid => exact h.step_restart pid
  | step i io =>
    cases hi : s.calls[i]? with
    | none =>
      simp only [State.step, hi]
      exact h
    | some c =>
      obtain ⟨request, thread, waiting⟩ := c
      cases thread with
      | ret reply =>
        simp only [State.step, hi]
        exact h
      | raise x =>
        simp only [State.step, hi]
        exact h
      | call e k =>
        cases hrequest : request.isBegin with
        | false => exact h.step_writer hi hrequest io
        | true =>
          cases request with
          | begin identity source => exact h.step_begin hi io hok
          | _ => cases hrequest

/-- Every sealed manifest, in every state of a run whose calls start when they fit,
counts and lists exactly the outputs of the batches on record, in order, with every
acknowledged batch among them, and names files with the bytes on record. -/
theorem sealed_result_sound (py : Python F) (acts : List (Action F))
    (hacts : Transition.Along (State.step py) Undisturbed {} acts) :
    ∀ d, (Transition.run (State.step py) {} acts).store.final = some d →
      ∃ m, d.manifest = some m ∧
        m.Sound py (Transition.run (State.step py) {} acts).acknowledged d := by
  have hstart : StateInv py ({} : State F) := by
    refine ⟨⟨?_, ?_, ?_, ?_⟩, ?_, ?_, ?_⟩
    · rintro d ⟨⟩
    · rintro log ⟨⟩
    · exact fun hne => absurd rfl hne
    · rintro d header ⟨⟩
    · rintro i c hi
      cases hi
    · rintro i j c c' hi
      cases hi
    · rintro i j c c' hi
      cases hi
  have hrun := Transition.invariant (I := StateInv py) (fun s a h hok => h.step a hok) hstart hacts
  intro d hd
  exact (hrun.store.sealed d hd).2.2

namespace Small

/-- The identity of the Step result below. -/
def identity : StepResultIdentity := ⟨0, 1⟩

/-- Its source. -/
def source : ExecutionSourceReference := ⟨[], [], 0⟩

/-- A line on `stdout`. -/
def record : RuntimeOutputRecord Unit where
  kind := .stream
  representations := [⟨"text/plain".toList, .utf8, "hi".toList⟩]
  streamName := some "stdout".toList

/-- `begin`, up to the return to its caller. -/
def begun : List (Action Unit) :=
  .call (.begin identity source) :: List.replicate 6 (.step 0 .done) ++ [.resume 0]

/-- A batch of two records; one whose output file cannot be written at first, and whose caller is
cancelled the second time, after its line was written; a restart, and the same batch once more,
which is acknowledged then; and the result is sealed. -/
def sealedRun : List (Action Unit) :=
  begun ++ .call (.append identity 0 7 [record, record]) :: List.replicate 12 (.step 0 .done) ++
    [.resume 0] ++ .call (.append identity 2 8 [record]) :: List.replicate 4 (.step 0 .done) ++
    [.step 0 (.failed false), .resume 0] ++
    .call (.append identity 2 8 [record]) :: List.replicate 6 (.step 0 .done) ++
    [.cancel 0, .step 0 .done, .step 0 .done, .restart 2] ++
    .call (.append identity 2 8 [record]) :: List.replicate 7 (.step 0 .done) ++
    [.resume 0] ++ .call (.finalize identity none none) :: List.replicate 15 (.step 0 .done)

/-- `fsync` fails after the line of a batch reached the file; the caller aborts. -/
def interruptedRun : List (Action Unit) :=
  begun ++ .call (.append identity 0 7 [record]) :: List.replicate 9 (.step 0 .done) ++
    [.step 0 (.failed false), .resume 0] ++
    .call (.abort identity "fsync".toList) :: List.replicate 15 (.step 0 .done)

/-- Enough for a step to meet the condition, while only one log is in memory. -/
def admits (s : State Unit) : Action Unit → Bool
  | .call (.begin ..) => true
  | .call (.append _ _ batchId _) => s.calls.isEmpty && s.store.objects.all known &&
      (lines s).all fun line => line.all fun entry =>
        entry.batchId == batchId || s.acknowledged.contains entry.key
  | .call _ => s.calls.isEmpty && s.store.objects.all known
  | .step .. => s.store.final.isNone
  | _ => true
where
  lines (s : State Unit) : List (Option (LogEntry Unit)) :=
    ((s.store.working.bind (·.log)).map (·.lines)).getD []
  known (object : OutputLog) : Bool :=
    (lines s).all fun line => line.all fun entry => (object.find entry.batchId).isSome

theorem undisturbed_of_admits {s : State Unit} {a : Action Unit} (h : admits s a = true) :
    Undisturbed s a := by
  have hlines : ∀ {d : Directory Unit} {f : LogFile Unit}, s.store.working = some d →
      d.log = some f → admits.lines s = f.lines := by
    intro d f hd hf
    simp [admits.lines, hd, hf]
  have hquiet : s.calls.isEmpty = true → s.Quiet := by
    intro hempty c hc
    rw [List.isEmpty_iff.mp hempty] at hc
    exact absurd hc List.not_mem_nil
  have hremembers : s.store.objects.all (admits.known s) = true → s.store.Remembers := by
    intro hall d f log object entry hd hf _ hobject hentry
    have hknown := List.all_eq_true.mp hall object (List.mem_of_getElem? hobject)
    rw [admits.known, hlines hd hf] at hknown
    exact List.all_eq_true.mp hknown (some entry) hentry
  cases a with
  | call request =>
    intro _
    cases request with
    | begin identity source => trivial
    | append identity expectedOffset batchId records =>
      simp only [admits, Bool.and_eq_true] at h
      refine ⟨hquiet h.1.1, hremembers h.1.2, fun d f hd hf entry hentry => ?_⟩
      rw [hlines hd hf] at h
      have := List.all_eq_true.mp h.2 (some entry) hentry
      simpa using this
    | finalize identity executionCount errorMessage =>
      simp only [admits, Bool.and_eq_true] at h
      exact ⟨hquiet h.1, hremembers h.2⟩
    | abort identity reason =>
      simp only [admits, Bool.and_eq_true] at h
      exact ⟨hquiet h.1, hremembers h.2⟩
  | step i io => exact fun _ _ _ _ => Option.isNone_iff_eq_none.mp h
  | cancel i => trivial
  | resume i => trivial
  | restart pid => trivial

/-- Every step of the run is admitted. -/
def admitsAll : State Unit → List (Action Unit) → Bool
  | _, [] => true
  | s, a :: acts => admits s a && admitsAll (s.step Codec.Small.python a) acts

theorem along_of_admitsAll {s : State Unit} {acts : List (Action Unit)}
    (h : admitsAll s acts = true) :
    Transition.Along (State.step Codec.Small.python) Undisturbed s acts := by
  induction acts generalizing s with
  | nil => trivial
  | cons a acts ih =>
    rw [admitsAll, Bool.and_eq_true] at h
    exact ⟨undisturbed_of_admits h.1, ih h.2⟩

end Small

theorem sealed_result_sound_sealedRun :
    (Transition.run (State.step Codec.Small.python) {} Small.sealedRun).acknowledged.length = 2 ∧
    (Transition.run (State.step Codec.Small.python) {} Small.sealedRun).store.final.isSome ∧
    ∀ d, (Transition.run (State.step Codec.Small.python) {} Small.sealedRun).store.final = some d →
      ∃ m, d.manifest = some m ∧ m.Sound Codec.Small.python
        (Transition.run (State.step Codec.Small.python) {} Small.sealedRun).acknowledged d :=
  ⟨by decide +kernel, by decide +kernel, sealed_result_sound Codec.Small.python Small.sealedRun
    (Small.along_of_admitsAll (by decide +kernel))⟩

/-- An append whose `fsync` fails, and the abort that follows it in the same
process: the manifest lists one output and counts none. -/
theorem interrupted_append_miscounts :
    ((Transition.run (State.step Codec.Small.python) {} Small.interruptedRun).store.final.bind
      (·.manifest)).map (fun m => (m.outputs.length, m.outputCount)) = some (1, 0) ∧
    ¬ ∀ d, (Transition.run (State.step Codec.Small.python) {} Small.interruptedRun).store.final =
        some d →
      ∃ m, d.manifest = some m ∧ m.Sound Codec.Small.python
        (Transition.run (State.step Codec.Small.python) {} Small.interruptedRun).acknowledged d := by
  have hcounts : ((Transition.run (State.step Codec.Small.python) {}
      Small.interruptedRun).store.final.bind (·.manifest)).map
      (fun m => (m.outputs.length, m.outputCount)) = some (1, 0) := by decide +kernel
  refine ⟨hcounts, fun hall => ?_⟩
  obtain ⟨m, hm, hpair⟩ := Option.map_eq_some_iff.mp hcounts
  obtain ⟨d, hd, hmanifest⟩ := Option.bind_eq_some_iff.mp hm
  obtain ⟨m', hm', hsound⟩ := hall d hd
  rw [hmanifest] at hm'
  cases hm'
  have := hsound.outputCount
  rw [(Prod.mk.inj hpair).1, (Prod.mk.inj hpair).2] at this
  omega

end ExecutorService.ResultStore
