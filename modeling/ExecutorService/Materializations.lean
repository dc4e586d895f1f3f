/-
Materialized Artifacts under concurrency (`infrastructure/materialized_artifacts/`).

A call of `materialize` reserves its idempotency key in a transaction of its own, takes the lock
of the Execution row, writes the file and the notebook, and completes the receipt with the end
of the transaction that holds the lock.  Calls for one Execution interleave between these
operations, each of which may fail with or without having taken effect, and a call may be gone
at any time; its lock goes with it.

* `materialize_safe` — what a call does is allowed to it, whatever the others do;
* `Sound` — the receipts, the Artifacts and the notebook after every interleaving;
* `materialize_idempotent` — what that means for keys, repeats and cells.
-/
import ExecutorService.ApiRequests
import ExecutorService.Program
import ExecutorService.Transition

namespace ExecutorService.Materialization

/-! ### Rows and files -/

/-- A row of `command_receipts`; `artifactId` is `none` while a materialization is pending. -/
structure Receipt where
  idempotencyKey : Key
  commandType : String
  requestFingerprint : Key
  artifactId : Option UUID := none
  deriving DecidableEq

/-- `validate_receipt`. -/
def Receipt.validate (r : Receipt) (fingerprint : Key) : Except ApiError (Option UUID) :=
  if r.commandType ≠ ExecutionRecord.materializeType ∨ r.requestFingerprint ≠ fingerprint then
    .error Command.receiptConflict
  else .ok r.artifactId

/-- An Artifact row, with the key of the call that inserted it. -/
structure ArtifactRow where
  insertedBy : Option Key := none
  artifact : ExecutionArtifact
  deriving DecidableEq

/-- What the calls for one Execution share. -/
structure Store where
  receipts : List Receipt := []
  artifacts : List ArtifactRow := []
  files : List (String × String) := []
  notebook : Notebook

/-- The receipt of a key. -/
def Store.receipt? (s : Store) (key : Key) : Option Receipt :=
  s.receipts.find? (·.idempotencyKey == key)

/-- The cells of the notebook, none before it is there. -/
def Store.cells (s : Store) : List NotebookCell :=
  s.notebook.cells.getD []

/-- What a call does with the database and the Runtime's files. -/
inductive Op : Type → Type
  | receipt (key : Key) : Op (Option Receipt)
  | execution : Op ExecutionRow
  | insertReceipt (receipt : Receipt) : Op Bool
  | lock : Op ExecutionRow
  | writeText (path content : String) : Op RuntimeFileMetadata
  | readNotebook : Op Notebook
  | writeNotebook (notebook : Notebook) : Op Unit
  | artifactByIdentity (identityHash : Key) : Op (Option ExecutionArtifact)
  | commit (artifact : Option ExecutionArtifact) (key : Key) (artifactId : UUID) : Op Unit

/-- What happens to an operation: a failed one may have taken effect. -/
inductive Io
  | done
  | failed (performed : Bool)
  deriving DecidableEq

/-- The store and the reply of an operation that would leave `s'` and return `value`. -/
def Io.reply {α : Type} (io : Io) (s s' : Store) (value : α) : Store × Except ApiError α :=
  match io with
  | .done => (s', .ok value)
  | .failed true => (s', .error .internal)
  | .failed false => (s, .error .internal)

/-- The end of the transaction: a new Artifact row and the result of the receipt. -/
def Store.complete (s : Store) (artifact : Option ExecutionArtifact) (key : Key)
    (artifactId : UUID) : Store :=
  { s with
    artifacts := s.artifacts ++ artifact.toList.map fun a => ⟨some key, a⟩
    receipts := s.receipts.updateWhere (·.idempotencyKey == key) fun r =>
      { r with artifactId := some artifactId } }

/-- The Execution row that the calls are about, and the metadata that the Runtime returns for
a file. -/
structure Environment where
  execution : ExecutionRow
  file : RuntimeFileMetadata

/-- One operation, with what the database or the Runtime answers. -/
def Op.perform (env : Environment) (io : Io) (s : Store) : {α : Type} → Op α →
    Store × Except ApiError α
  | _, .receipt key => io.reply s s (s.receipt? key)
  | _, .execution => io.reply s s env.execution
  -- The scope and the key are unique.
  | _, .insertReceipt r => match s.receipt? r.idempotencyKey with
    | some _ => io.reply s s false
    | none => io.reply s { s with receipts := s.receipts ++ [r] } true
  | _, .lock => io.reply s s env.execution
  | _, .writeText path content =>
    io.reply s { s with files := (path, content) :: s.files } env.file
  | _, .readNotebook => io.reply s s s.notebook
  | _, .writeNotebook notebook => io.reply s { s with notebook := notebook } ()
  | _, .artifactByIdentity identityHash =>
    io.reply s s ((s.artifacts.find? (·.artifact.identityHash == identityHash)).map (·.artifact))
  -- The ids and the identities of Artifacts are unique.
  | _, .commit artifact key artifactId =>
    if s.artifacts.any fun row => artifact.any fun a =>
        row.artifact.id == a.id || row.artifact.identityHash == a.identityHash then
      (s, .error .internal)
    else io.reply s (s.complete artifact key artifactId) ()

/-! ### A call -/

/-- A call as a program over these operations. -/
abbrev Thread (α : Type) := Program Op ApiError ApiError α

/-- A check, as a part of a call. -/
def lift {α : Type} : Except ApiError α → Thread α
  | .ok a => .ret a
  | .error x => .raise x

section

variable (digests : Digests) (now : Time)

/-- `receipt`. -/
def existing (c : MaterializeCommand) : Thread (Option UUID) := do
  match ← .await (.receipt c.idempotencyKey) with
  | none => return none
  | some r => lift (r.validate c.fingerprint)

/-- The pending receipt of a command. -/
def pending (c : MaterializeCommand) : Receipt :=
  ⟨c.idempotencyKey, ExecutionRecord.materializeType, c.fingerprint, none⟩

/-- `reserve`. -/
def reserve (c : MaterializeCommand) : Thread Unit := do
  if ← .await (.insertReceipt (pending c)) then return ()
  else match ← .await (.receipt c.idempotencyKey) with
    | none => .raise .internal
    | some r => do
      let _ ← lift (r.validate c.fingerprint)
      return ()

/-- `append_notebook_markdown`. -/
def appendNotebookMarkdown (e : ExecutionRow) (key : Key) (content : String) : Thread Unit :=
  match e.notebookPath with
  | none => .raise (registrationError "Execution notebook is not available.")
  | some _ => do
    let notebook ← .await .readNotebook
    match notebook.cells with
    | none => .raise .internal
    | some cells =>
      if cells.any (·.idempotencyKey == some key) then return ()
      else .await (.writeNotebook { notebook with cells := some (cells ++ [⟨content, some key⟩]) })

/-- `persist`; its writes end the transaction. -/
def persist (c : MaterializeCommand) (destination name : String) (file : RuntimeFileMetadata) :
    Thread UUID := do
  match ← .await (.receipt c.idempotencyKey) with
  | none => .raise (registrationError "Artifact command must be reserved before writing.")
  | some r =>
    match ← lift (r.validate c.fingerprint) with
    | some artifactId => return artifactId
    | none =>
      let identity := digests.identityHash c.executionId destination file.checksumSha256
      match ← .await (.artifactByIdentity identity) with
      | some a => do
        .await (.commit none c.idempotencyKey a.id)
        return a.id
      | none => do
        let a := Database.newArtifact digests now c name identity file
        .await (.commit (some a) c.idempotencyKey a.id)
        return a.id

/-- The notebook's part of a materialization. -/
def appendReport (c : MaterializeCommand) (content : String) (e : ExecutionRow) : Thread Unit :=
  if c.appendToNotebook then appendNotebookMarkdown e c.idempotencyKey content else return ()

/-- What follows when no completed receipt was found under the lock. -/
def write (c : MaterializeCommand) (content name : String) (e : ExecutionRow) : Thread UUID :=
  if e.status ≠ .succeeded then
    .raise ⟨.invalidStateTransition, "Execution is no longer SUCCEEDED.", [], none⟩
  else match e.workspacePath with
    | none => .raise (registrationError "Execution workspace is not available.")
    | some workspace => do
      let destination := MaterializeCommand.targetPath workspace c.artifactType name
      let file ← .await (.writeText destination content)
      appendReport c content e
      persist digests now c destination name file

/-- The part of `materialize` under the lock of the Execution. -/
def underLock (c : MaterializeCommand) (content name : String) (e : ExecutionRow) :
    Thread UUID := do
  match ← .await (.receipt c.idempotencyKey) with
  | none => .raise (registrationError "Artifact reservation is missing.")
  | some r =>
    match ← lift (r.validate c.fingerprint) with
    | some artifactId => return artifactId
    | none => write digests now c content name e

/-- `materialize`. -/
def materialize (c : MaterializeCommand) : Thread UUID := do
  match ← existing c with
  | some artifactId => return artifactId
  | none =>
    let content ← lift c.content
    let e ← .await .execution
    if e.status ≠ .succeeded then
      .raise ⟨.invalidStateTransition,
        "Execution Artifacts authored after execution require SUCCEEDED state.", [], none⟩
    else if e.workspacePath.isNone then
      .raise (registrationError "Execution workspace is not available.")
    else
      let name ← lift c.artifactName
      reserve c
      let e ← .await .lock
      underLock digests now c content name e

/-! ### Interleaved calls -/

/-- A call and what is left of it. -/
structure Call where
  command : MaterializeCommand
  thread : Thread UUID

/-- The store, the calls and the one that holds the lock of the Execution row. -/
structure State where
  store : Store
  calls : List Call := []
  holder : Option ℕ := none

/-- The operation takes the lock of the key. -/
def Op.isLock {α : Type} : Op α → Bool
  | .lock => true
  | _ => false

/-- The call has returned or raised. -/
def ended {α : Type} : Thread α → Bool
  | .call .. => false
  | _ => true

/-- What happens next: a call, a step of one, or the end of its process. -/
inductive Action
  | call (command : MaterializeCommand) (now : Time)
  | step (call : ℕ) (io : Io) (file : RuntimeFileMetadata)
  | abort (call : ℕ)

/-- The lock after a step of the call `i` to `thread`. -/
def nextHolder (holder : Option ℕ) (i : ℕ) (locked : Bool) (thread : Thread UUID) : Option ℕ :=
  let holder := if locked then some i else holder
  if ended thread ∧ holder = some i then none else holder

variable (e : ExecutionRow)

/-- A new call for the Execution, the next operation of a call, or its end.  A call that wants
the lock waits while another holds it. -/
def State.step (s : State) : Action → State
  | .call command now =>
    if command.executionId = e.id then
      { s with calls := s.calls ++ [⟨command, materialize digests now command⟩] }
    else s
  | .step i io file => match s.calls[i]? with
    | some ⟨command, .call op k⟩ =>
      if op.isLock && s.holder.isSome then s
      else
        let (store, reply) := op.perform ⟨e, file⟩ io s.store
        { store := store
          calls := s.calls.set i ⟨command, k reply⟩
          holder := nextHolder s.holder i (op.isLock && reply.isOk) (k reply) }
    | _ => s
  | .abort i => match s.calls[i]? with
    | some ⟨command, .call _ _⟩ =>
      { s with
        calls := s.calls.set i ⟨command, .raise .internal⟩
        holder := if s.holder = some i then none else s.holder }
    | _ => s

end

/-- The operation writes to the Runtime's storage. -/
def Op.writesFile {α : Type} : Op α → Bool
  | .writeText .. | .writeNotebook _ => true
  | _ => false

/-- A call that is about to write the file or the notebook. -/
def Call.writesFile (call : Call) : Bool :=
  match call.thread with
  | .call op _ => op.writesFile
  | _ => false

/-! ### What a call may do -/

/-- The receipt of the command, with the given result. -/
def Has (c : MaterializeCommand) (s : Store) (result : Option UUID) : Prop :=
  s.receipt? c.idempotencyKey = some { pending c with artifactId := result }

/-- The key of the command belongs to another command. -/
def Conflicts (c : MaterializeCommand) (s : Store) : Prop :=
  ∃ r, s.receipt? c.idempotencyKey = some r ∧
    (r.commandType ≠ ExecutionRecord.materializeType ∨ r.requestFingerprint ≠ c.fingerprint)

/-- Receipts stay, completed ones with their result. -/
def Grows (s s' : Store) : Prop :=
  ∀ key r, s.receipt? key = some r → ∃ result, s'.receipt? key = some { r with artifactId := result } ∧
    ∀ artifactId, r.artifactId = some artifactId → result = some artifactId

/-- What only the holder of the lock changes. -/
structure Steady (s s' : Store) : Prop where
  notebook : s'.notebook = s.notebook
  receipts : ∀ key r, s.receipt? key = some r → s'.receipt? key = some r

theorem Grows.refl (s : Store) : Grows s s :=
  fun _ r h => ⟨r.artifactId, h, fun _ => id⟩

theorem Grows.trans {s s' s'' : Store} (h : Grows s s') (h' : Grows s' s'') : Grows s s'' := by
  intro key r hr
  obtain ⟨result, hr', hkept⟩ := h key r hr
  obtain ⟨result', hr'', hkept'⟩ := h' key _ hr'
  exact ⟨result', hr'', fun artifactId hid => hkept' artifactId (hkept artifactId hid)⟩

/-- The store as one call sees it. -/
structure View where
  store : Store
  held : Bool

/-- The operations that need the lock and the pending receipt of the command. -/
def Writing (c : MaterializeCommand) (v : View) : Prop :=
  v.held = true ∧ Has c v.store none

/-- What a call relies on, and what it guarantees to the others. -/
def rules (c : MaterializeCommand) : Program.Rules Op ApiError View where
  rely v v' := v'.held = v.held ∧ Grows v.store v'.store ∧
    (v.held = true → Steady v.store v'.store)
  refl _ := ⟨rfl, Grows.refl _, fun _ => ⟨rfl, fun _ _ => id⟩⟩
  trans h h' := ⟨h'.1.trans h.1, h.2.1.trans h'.2.1, fun hheld =>
    have first := h.2.2 hheld
    have second := h'.2.2 (h.1.trans hheld)
    ⟨second.notebook.trans first.notebook,
      fun key r hr => second.receipts key r (first.receipts key r hr)⟩⟩
  step op v r v' := ∃ env io, op.perform env io v.store = (v'.store, r) ∧
    v'.held = (v.held || (op.isLock && r.isOk))
  allowed op v := match op with
    | .insertReceipt r => r = pending c
    | .writeText .. => Writing c v
    | .writeNotebook notebook => Writing c v ∧ ∃ cells content,
        v.store.notebook.cells = some cells ∧
          cells.any (·.idempotencyKey == some c.idempotencyKey) = false ∧
          notebook = { v.store.notebook with
            cells := some (cells ++ [⟨content, some c.idempotencyKey⟩]) }
    | .commit artifact key artifactId => Writing c v ∧ key = c.idempotencyKey ∧
        ∀ a ∈ artifact, a.id = artifactId
    | _ => True

/-- A call that returns has completed its receipt. -/
def post (c : MaterializeCommand) : Except ApiError UUID → View → Prop
  | .ok artifactId, v => Has c v.store (some artifactId)
  | .error _, _ => True

/-- A postcondition of the values a part of a call returns. -/
def Gives {α : Type} (Q : α → View → Prop) : Except ApiError α → View → Prop
  | .ok a, v => Q a v
  | .error _, _ => True

section

variable {c : MaterializeCommand} {v v' : View} {α : Type}

theorem Has.grow {s s' : Store} {result : Option UUID} (h : Has c s result) (hg : Grows s s') :
    ∃ result', Has c s' result' ∧ ∀ artifactId, result = some artifactId → result' = some artifactId :=
  hg _ _ h

theorem Has.completed {s s' : Store} {artifactId : UUID} (h : Has c s (some artifactId))
    (hg : Grows s s') : Has c s' (some artifactId) := by
  obtain ⟨result, hresult, hkept⟩ := h.grow hg
  rwa [hkept artifactId rfl] at hresult

theorem receipt?_complete (s : Store) (artifact : Option ExecutionArtifact) (key key' : Key)
    (artifactId : UUID) : (s.complete artifact key artifactId).receipt? key' =
      (s.receipt? key').map fun r =>
        if r.idempotencyKey == key then { r with artifactId := some artifactId } else r := by
  have hkey : ∀ r : Receipt, (({ r with artifactId := some artifactId } : Receipt).idempotencyKey ==
      key') = (r.idempotencyKey == key') := fun _ => rfl
  exact List.find?_updateWhere hkey s.receipts

/-- The result of a pending receipt. -/
theorem Has.complete {s : Store} {result : Option UUID} (h : Has c s result)
    (artifact : Option ExecutionArtifact) (artifactId : UUID) :
    Has c (s.complete artifact c.idempotencyKey artifactId) (some artifactId) := by
  rw [Has, receipt?_complete, h]
  simp [pending]

theorem Writing.rely (h : Writing c v) (hr : (rules c).rely v v') : Writing c v' :=
  ⟨hr.1.trans h.1, (hr.2.2 h.1).receipts _ _ h.2⟩

theorem receipt?_key {s : Store} {key : Key} {r : Receipt} (h : s.receipt? key = some r) :
    r.idempotencyKey = key := by
  simpa using List.find?_some h

/-- A receipt that is valid for the command is the command's. -/
theorem has_of_validate {s : Store} {r : Receipt} {result : Option UUID}
    (hr : s.receipt? c.idempotencyKey = some r) (hv : r.validate c.fingerprint = .ok result) :
    Has c s result := by
  rw [Receipt.validate] at hv
  split at hv
  · cases hv
  · rename_i hvalid
    rw [not_or, not_not, not_not] at hvalid
    cases hv
    rw [Has, hr]
    obtain ⟨key, commandType, fingerprint, artifactId⟩ := r
    have hkey : key = c.idempotencyKey := receipt?_key hr
    obtain ⟨rfl, rfl⟩ := hvalid
    rw [hkey]
    rfl

theorem validate_of_has {result : Option UUID} :
    ({ pending c with artifactId := result } : Receipt).validate c.fingerprint = .ok result := by
  simp [Receipt.validate, pending]

section

variable {Q : α → View → Prop}

theorem safe_raise (x : ApiError) : Program.Safe (rules c) (Gives Q) (.raise x) v :=
  fun _ _ => trivial

theorem safe_ret {a : α} (h : ∀ v', (rules c).rely v v' → Q a v') :
    Program.Safe (rules c) (Gives Q) (.ret a) v :=
  h

theorem perform_failed {β : Type} (op : Op β) (env : Environment) (performed : Bool) (s s' : Store)
    (b : β) : (s', .ok b) ≠ op.perform env (.failed performed) s := by
  intro h
  have hfailed : (op.perform env (.failed performed) s).2 = .error .internal := by
    cases op <;> cases performed <;> simp only [Op.perform, Io.reply] <;> split <;> rfl
  rw [← h] at hfailed
  cases hfailed

/-- An operation that succeeds. -/
theorem step_ok {β : Type} {op : Op β} {b : β} (h : (rules c).step op v (.ok b) v') :
    ∃ env, op.perform env .done v.store = (v'.store, .ok b) ∧ v'.held = (v.held || op.isLock) := by
  obtain ⟨env, io, hperform, hheld⟩ := h
  refine ⟨env, ?_, by simpa [Except.isOk, Except.toBool] using hheld⟩
  cases io with
  | done => exact hperform
  | failed performed => exact (perform_failed op env performed _ _ b hperform.symm).elim

/-- An operation that reads. -/
theorem step_read {β : Type} {op : Op β} {a b : β} (hlock : op.isLock = false)
    (hread : ∀ env, op.perform env .done v.store = (v.store, .ok a))
    (h : (rules c).step op v (.ok b) v') : v' = v ∧ b = a := by
  obtain ⟨env, hperform, hheld⟩ := step_ok h
  obtain ⟨store', held'⟩ := v'
  rw [hread env] at hperform
  rw [hlock, Bool.or_false] at hheld
  cases hperform
  cases hheld
  exact ⟨rfl, rfl⟩

theorem step_receipt {key : Key} {r : Option Receipt}
    (h : (rules c).step (.receipt key) v (.ok r) v') : v' = v ∧ r = v.store.receipt? key :=
  step_read rfl (fun _ => rfl) h

/-! ### The parts of a call -/

theorem existing_safe : Program.Safe (rules c)
    (Gives fun result v => ∀ artifactId, result = some artifactId → Has c v.store (some artifactId))
    (existing c) v := by
  refine Program.Safe.await_bind (P := fun _ => True) (fun _ _ _ _ => trivial) trivial
    (fun _ _ => trivial) ?_ (fun _ x _ _ _ => safe_raise x)
  intro w r w' _ hstep
  obtain ⟨rfl, rfl⟩ := step_receipt hstep
  cases hr : w'.store.receipt? c.idempotencyKey with
  | none => exact safe_ret fun _ _ _ => by simp
  | some r =>
    cases hv : r.validate c.fingerprint with
    | error x =>
      simp only [hv]
      exact safe_raise x
    | ok result =>
      simp only [hv]
      refine safe_ret fun w'' hrely artifactId hid => ?_
      have hhas := has_of_validate hr hv
      rw [hid] at hhas
      exact hhas.completed hrely.2.1

/-- After the reservation the key is the command's. -/
theorem reserve_safe : Program.Safe (rules c) (Gives fun _ v => ∃ result, Has c v.store result)
    (reserve c) v := by
  have howns : ∀ {w w' : View} {result : Option UUID}, Has c w.store result →
      (rules c).rely w w' → ∃ result', Has c w'.store result' := fun h hrely => by
    obtain ⟨result', h', _⟩ := h.grow hrely.2.1
    exact ⟨result', h'⟩
  refine Program.Safe.await_bind (P := fun _ => True) (fun _ _ _ _ => trivial) trivial
    (fun _ _ => rfl) ?_ (fun _ x _ _ _ => safe_raise x)
  intro w inserted w' _ hstep
  obtain ⟨env, hperform, _⟩ := step_ok hstep
  cases inserted with
  | true =>
    have hhas : Has c w'.store none := by
      simp only [Op.perform] at hperform
      split at hperform
      · exact absurd (Prod.mk.inj hperform).2 (by simp)
      · rename_i hnone
        obtain ⟨hstore, _⟩ := Prod.mk.inj hperform
        rw [Has, ← hstore, Store.receipt?, List.find?_append]
        have hnone' : w.store.receipts.find? (·.idempotencyKey == c.idempotencyKey) = none := hnone
        rw [hnone']
        simp [pending]
    exact safe_ret fun _ hrely => howns hhas hrely
  | false =>
    refine Program.Safe.await_bind (P := fun _ => True) (fun _ _ _ _ => trivial) trivial
      (fun _ _ => trivial) ?_ (fun _ x _ _ _ => safe_raise x)
    intro w r w' _ hstep
    obtain ⟨rfl, rfl⟩ := step_receipt hstep
    cases hr : w'.store.receipt? c.idempotencyKey with
    | none => exact safe_raise .internal
    | some r =>
      cases hv : r.validate c.fingerprint with
      | error x =>
        simp only [hv]
        exact safe_raise x
      | ok result =>
        simp only [hv]
        exact safe_ret fun _ hrely => howns (has_of_validate hr hv) hrely

theorem appendNotebookMarkdown_safe (e : ExecutionRow) (content : String) (hw : Writing c v) :
    Program.Safe (rules c) (Gives fun _ v => Writing c v)
      (appendNotebookMarkdown e c.idempotencyKey content) v := by
  rw [appendNotebookMarkdown]
  split
  · exact safe_raise _
  · refine Program.Safe.await_bind (P := Writing c) (fun _ _ => Writing.rely) hw
      (fun _ _ => trivial) ?_ (fun _ x _ _ _ => safe_raise x)
    intro w notebook w' hw hstep
    obtain ⟨rfl, rfl⟩ := step_read (a := w.store.notebook) rfl (fun _ => rfl) hstep
    cases hcells : w'.store.notebook.cells with
    | none => exact safe_raise _
    | some cells =>
      simp only
      split
      · exact safe_ret fun _ hrely => hw.rely hrely
      · rename_i htagged
        refine Program.Safe.await (fun w hrely => ?_) (fun w r w'' hrely hstep w''' hrely' => ?_)
        · -- The notebook is still the one that was read.
          have hnotebook := (hrely.2.2 hw.1).notebook
          refine ⟨hw.rely hrely, cells, content, by rw [hnotebook, hcells], by simpa using htagged, ?_⟩
          rw [hnotebook]
        · cases r with
          | error x => trivial
          | ok u =>
            obtain ⟨env, hperform, hheld⟩ := step_ok hstep
            obtain ⟨hstore, _⟩ := Prod.mk.inj hperform
            have hwrite := hw.rely hrely
            refine Writing.rely ⟨?_, ?_⟩ hrely'
            · rw [hheld, hwrite.1, Bool.true_or]
            · rw [← hstore]
              exact hwrite.2

theorem appendReport_safe (e : ExecutionRow) (content : String) (hw : Writing c v) :
    Program.Safe (rules c) (Gives fun _ v => Writing c v) (appendReport c content e) v := by
  rw [appendReport]
  split
  · exact appendNotebookMarkdown_safe e content hw
  · exact safe_ret fun _ hrely => hw.rely hrely

variable {digests : Digests} {now : Time}

/-- The end of the transaction completes the receipt. -/
theorem commit_safe (artifact : Option ExecutionArtifact) (artifactId : UUID) (hw : Writing c v)
    (hid : ∀ a ∈ artifact, a.id = artifactId) :
    Program.Safe (rules c) (Gives fun id v => Has c v.store (some id))
      (do
        .await (.commit artifact c.idempotencyKey artifactId)
        return artifactId) v := by
  refine Program.Safe.await_bind (P := Writing c) (fun _ _ => Writing.rely) hw
    (fun _ hw => ⟨hw, rfl, hid⟩) ?_ (fun _ x _ _ _ => safe_raise x)
  intro w u w' hw hstep
  obtain ⟨env, hperform, _⟩ := step_ok hstep
  have hhas : Has c w'.store (some artifactId) := by
    simp only [Op.perform] at hperform
    split at hperform
    · exact absurd (Prod.mk.inj hperform).2 (by simp)
    · obtain ⟨hstore, _⟩ := Prod.mk.inj hperform
      rw [← hstore]
      exact hw.2.complete _ _
  exact safe_ret fun _ hrely => hhas.completed hrely.2.1

theorem persist_safe (destination name : String) (file : RuntimeFileMetadata) (hw : Writing c v) :
    Program.Safe (rules c) (Gives fun id v => Has c v.store (some id))
      (persist digests now c destination name file) v := by
  refine Program.Safe.await_bind (P := Writing c) (fun _ _ => Writing.rely) hw
    (fun _ _ => trivial) ?_ (fun _ x _ _ _ => safe_raise x)
  intro w r w' hw hstep
  obtain ⟨rfl, rfl⟩ := step_receipt hstep
  rw [hw.2]
  simp only [validate_of_has]
  refine Program.Safe.await_bind (P := Writing c) (fun _ _ => Writing.rely) hw
    (fun _ _ => trivial) ?_ (fun _ x _ _ _ => safe_raise x)
  intro w found w' hw hstep
  obtain ⟨rfl, _⟩ := step_read rfl (fun _ => rfl) hstep
  cases found with
  | some a => exact commit_safe none a.id hw fun _ h => by cases h
  | none => exact commit_safe (some _) _ hw fun _ h => by rw [Option.mem_some.mp h]

theorem write_safe (content name : String) (e : ExecutionRow) (hw : Writing c v) :
    Program.Safe (rules c) (Gives fun id v => Has c v.store (some id))
      (write digests now c content name e) v := by
  rw [write]
  split
  · exact safe_raise _
  · split
    · exact safe_raise _
    · refine Program.Safe.await_bind (P := Writing c) (fun _ _ => Writing.rely) hw
        (fun _ hw => hw) ?_ (fun _ x _ _ _ => safe_raise x)
      intro w file w' hw hstep
      obtain ⟨env, hperform, hheld⟩ := step_ok hstep
      obtain ⟨hstore, _⟩ := Prod.mk.inj hperform
      have hw' : Writing c w' := by
        refine ⟨by rw [hheld, hw.1, Bool.true_or], ?_⟩
        rw [← hstore]
        exact hw.2
      exact (appendReport_safe e content hw').bind (fun _ _ hw => persist_safe _ _ _ hw)
        (fun x _ _ => safe_raise x)

theorem underLock_safe (content name : String) (e : ExecutionRow) (hheld : v.held = true)
    (hhas : ∃ result, Has c v.store result) :
    Program.Safe (rules c) (Gives fun id v => Has c v.store (some id))
      (underLock digests now c content name e) v := by
  refine Program.Safe.await_bind (P := fun w => w.held = true ∧ ∃ result, Has c w.store result)
    ?_ ⟨hheld, hhas⟩ (fun _ _ => trivial) ?_ (fun _ x _ _ _ => safe_raise x)
  · rintro w w' ⟨hheld, result, hhas⟩ hrely
    obtain ⟨result', hhas', _⟩ := hhas.grow hrely.2.1
    exact ⟨hrely.1.trans hheld, result', hhas'⟩
  · rintro w r w' ⟨hheld, result, hhas⟩ hstep
    obtain ⟨rfl, rfl⟩ := step_receipt hstep
    rw [hhas]
    simp only [validate_of_has]
    cases result with
    | some artifactId => exact safe_ret fun _ hrely => hhas.completed hrely.2.1
    | none => exact write_safe content name e ⟨hheld, hhas⟩

theorem materialize_safe : Program.Safe (rules c) (post c) (materialize digests now c) v := by
  have hpost : (post c) = Gives fun id v => Has c v.store (some id) := by
    funext r v
    cases r <;> rfl
  rw [hpost]
  refine existing_safe.bind ?_ fun x _ _ => safe_raise x
  intro result v hresult
  cases result with
  | some artifactId => exact safe_ret fun _ hrely => (hresult artifactId rfl).completed hrely.2.1
  | none =>
    simp only
    cases c.content with
    | error x => exact safe_raise x
    | ok content =>
      refine Program.Safe.await_bind (P := fun _ => True) (fun _ _ _ _ => trivial) trivial
        (fun _ _ => trivial) ?_ (fun _ x _ _ _ => safe_raise x)
      intro w e w' _ _
      split
      · exact safe_raise _
      · split
        · exact safe_raise _
        · cases c.artifactName with
          | error x => exact safe_raise x
          | ok name =>
            refine reserve_safe.bind ?_ fun x _ _ => safe_raise x
            intro _ w (hhas : ∃ result, Has c w.store result)
            refine Program.Safe.await_bind (P := fun w => ∃ result, Has c w.store result) ?_ hhas
              (fun _ _ => trivial) ?_ (fun _ x _ _ _ => safe_raise x)
            · rintro w w' ⟨result, hhas⟩ hrely
              obtain ⟨result', hhas', _⟩ := hhas.grow hrely.2.1
              exact ⟨result', hhas'⟩
            · intro w e w' hhas hstep
              obtain ⟨env, hperform, hheld⟩ := step_ok hstep
              obtain ⟨hstore, _⟩ := Prod.mk.inj hperform
              rw [Op.isLock, Bool.or_true] at hheld
              refine underLock_safe content name e hheld ?_
              rw [← hstore]
              exact hhas

end

/-! ### What an operation does to the store -/

/-- The store after an operation that takes effect. -/
def Op.effect (s : Store) : {α : Type} → Op α → Store
  | _, .insertReceipt r =>
    if (s.receipt? r.idempotencyKey).isNone then { s with receipts := s.receipts ++ [r] } else s
  | _, .writeText path content => { s with files := (path, content) :: s.files }
  | _, .writeNotebook notebook => { s with notebook := notebook }
  | _, .commit artifact key artifactId => s.complete artifact key artifactId
  | _, _ => s

theorem reply_store (io : Io) (s s' : Store) (value : α) :
    (io.reply s s' value).1 = s ∨ (io.reply s s' value).1 = s' := by
  cases io with
  | done => exact .inr rfl
  | failed performed => cases performed with
    | true => exact .inr rfl
    | false => exact .inl rfl

theorem perform_store (env : Environment) (io : Io) (s : Store) (op : Op α) :
    (op.perform env io s).1 = s ∨ (op.perform env io s).1 = op.effect s := by
  cases op with
  | insertReceipt r =>
    rw [Op.perform, Op.effect]
    split
    · exact .inl ((reply_store ..).elim id id)
    · rename_i hnone
      rw [hnone, Option.isNone_none, if_pos rfl]
      exact reply_store ..
  | commit artifact key artifactId =>
    rw [Op.perform]
    split
    · exact .inl rfl
    · exact reply_store ..
  | _ => exact reply_store ..

/-- A receipt that was there is found first. -/
theorem receipt?_append {s : Store} {key : Key} {r : Receipt} (h : s.receipt? key = some r)
    (receipts : List Receipt) :
    Store.receipt? { s with receipts := s.receipts ++ receipts } key = some r := by
  rw [Store.receipt?, List.find?_append]
  rw [Store.receipt?] at h
  rw [h, Option.some_or]

theorem effect_grows {op : Op α} (h : (rules c).allowed op v) :
    Grows v.store (op.effect v.store) := by
  cases op with
  | insertReceipt r =>
    rw [Op.effect]
    split
    · exact fun key r hr => ⟨r.artifactId, receipt?_append hr _, fun _ => id⟩
    · exact Grows.refl _
  | commit artifact key artifactId =>
    obtain ⟨⟨_, hpending⟩, rfl, _⟩ := h
    intro key r hr
    rw [Op.effect, receipt?_complete, hr, Option.map_some]
    split
    · rename_i hkey
      refine ⟨some artifactId, rfl, fun id hid => ?_⟩
      -- The receipt of the command is pending.
      rw [← receipt?_key hr, beq_iff_eq.mp hkey, hpending] at hr
      rw [← Option.some.inj hr] at hid
      cases hid
    · exact ⟨r.artifactId, rfl, fun _ => id⟩
  | _ => exact Grows.refl _

/-- Without the lock. -/
theorem effect_steady {op : Op α} (h : (rules c).allowed op v) (hheld : v.held = false) :
    Steady v.store (op.effect v.store) := by
  have hwriting : ¬ Writing c v := fun hw => Bool.false_ne_true (hheld.symm.trans hw.1)
  cases op with
  | insertReceipt r =>
    rw [Op.effect]
    split
    · exact ⟨rfl, fun key r hr => receipt?_append hr _⟩
    · exact ⟨rfl, fun _ _ => id⟩
  | writeNotebook notebook => exact (hwriting h.1).elim
  | commit artifact key artifactId => exact (hwriting h.1).elim
  | _ => exact ⟨rfl, fun _ _ => id⟩

/-- Cells are appended. -/
theorem effect_cells {op : Op α} (h : (rules c).allowed op v) :
    v.store.cells <+: (op.effect v.store).cells := by
  cases op with
  | insertReceipt r =>
    rw [Op.effect]
    split <;> exact List.prefix_rfl
  | writeNotebook notebook =>
    obtain ⟨_, cells, content, hcells, _, rfl⟩ := h
    rw [Store.cells, hcells]
    exact List.prefix_append ..
  | _ => exact List.prefix_rfl

/-- What holds of the rows and the cells. -/
structure Tidy (s : Store) : Prop where
  cells : ∀ key, s.cells.countP (·.idempotencyKey == some key) ≤ 1
  inserted : ∀ key, s.artifacts.countP (·.insertedBy == some key) ≤ 1
  completed : ∀ row ∈ s.artifacts, ∀ key, row.insertedBy = some key →
    ∃ r, s.receipt? key = some r ∧ r.artifactId = some row.artifact.id

theorem effect_tidy {op : Op α} (h : (rules c).allowed op v) (ht : Tidy v.store) :
    Tidy (op.effect v.store) := by
  have hcompleted : ∀ row ∈ v.store.artifacts, ∀ key, row.insertedBy = some key →
      ∃ r, (op.effect v.store).receipt? key = some r ∧ r.artifactId = some row.artifact.id := by
    -- A receipt that is there only gains its cell and its Artifact.
    intro row hrow key hkey
    obtain ⟨r, hr, hid⟩ := ht.completed row hrow key hkey
    obtain ⟨result, hr', hkept⟩ := effect_grows h key r hr
    exact ⟨_, hr', hkept _ hid⟩
  cases op with
  | insertReceipt r =>
    simp only [Op.effect] at hcompleted ⊢
    split
    · rename_i hnone
      rw [if_pos hnone] at hcompleted
      exact ⟨ht.cells, ht.inserted, hcompleted⟩
    · exact ht
  | writeNotebook notebook =>
    obtain ⟨_, cells, content, hcells, htagged, rfl⟩ := h
    refine ⟨fun key => ?_, ht.inserted, hcompleted⟩
    -- At most one cell had this key, and none if it is the caller's own.
    have hone := ht.cells key
    rw [Store.cells, hcells, Option.getD_some] at hone
    rw [Op.effect, Store.cells, Option.getD_some, List.countP_append]
    by_cases hkey : key = c.idempotencyKey
    · have hzero : cells.countP (·.idempotencyKey == some key) = 0 := by
        rw [hkey, List.countP_eq_zero]
        simpa using htagged
      rw [hzero, Nat.zero_add]
      exact List.countP_le_length
    · have hother : ([⟨content, some c.idempotencyKey⟩] : List NotebookCell).countP
          (·.idempotencyKey == some key) = 0 := by
        simp [Ne.symm hkey]
      rw [hother]
      exact hone
  | commit artifact key artifactId =>
    obtain ⟨⟨_, hpending⟩, rfl, hid⟩ := h
    -- The caller's receipt is still pending, so no row was inserted under its key.
    have hnone : ∀ row ∈ v.store.artifacts, row.insertedBy ≠ some c.idempotencyKey := by
      intro row hrow hkey
      obtain ⟨r, hr, hcompleted⟩ := ht.completed row hrow _ hkey
      rw [hpending] at hr
      rw [← Option.some.inj hr] at hcompleted
      cases hcompleted
    refine ⟨ht.cells, fun key => ?_, fun row hrow key hkey => ?_⟩
    · rw [Op.effect, Store.complete, List.countP_append]
      by_cases hkey : key = c.idempotencyKey
      · have hzero : v.store.artifacts.countP (·.insertedBy == some key) = 0 := by
          rw [hkey, List.countP_eq_zero]
          simpa using hnone
        rw [hzero, Nat.zero_add]
        refine List.countP_le_length.trans ?_
        rw [List.length_map]
        cases artifact <;> simp
      · have hother : (artifact.toList.map fun a => (⟨some c.idempotencyKey, a⟩ : ArtifactRow)).countP
            (·.insertedBy == some key) = 0 := by
          rw [List.countP_eq_zero]
          simp [Ne.symm hkey]
        rw [hother]
        exact ht.inserted key
    · -- The new row is the one the receipt now names.
      rcases List.mem_append.mp hrow with hrow | hrow
      · exact hcompleted row hrow key hkey
      · obtain ⟨a, ha, rfl⟩ := List.mem_map.mp hrow
        cases hkey
        have hcomplete := Has.complete hpending artifact artifactId
        exact ⟨_, hcomplete, by rw [hid a (Option.mem_toList.mp ha)]⟩
  -- The other operations write neither cells nor rows.
  | _ => exact ⟨ht.cells, ht.inserted, hcompleted⟩

/-! ### Every interleaving -/

/-- The store as a call sees it: it holds the lock or not. -/
def State.view (s : State) (i : ℕ) : View :=
  ⟨s.store, s.holder == some i⟩

/-- The calls are safe, the lock belongs to one that goes on, and the store is tidy. -/
structure Sound (s : State) : Prop where
  safe : ∀ i call, s.calls[i]? = some call →
    Program.Safe (rules call.command) (post call.command) call.thread (s.view i)
  holder : ∀ i, s.holder = some i → ∃ call, s.calls[i]? = some call ∧ ended call.thread = false
  tidy : Tidy s.store

variable {s : State} {e : ExecutionRow} {digests : Digests}

/-- A call that ended does not need the lock. -/
theorem safe_ended {thread : Thread UUID} {store : Store} {held held' : Bool}
    (hended : ended thread = true)
    (h : Program.Safe (rules c) (post c) thread ⟨store, held⟩) :
    Program.Safe (rules c) (post c) thread ⟨store, held'⟩ := by
  cases thread with
  | ret artifactId =>
    have hhas : Has c store (some artifactId) := h _ ((rules c).refl _)
    exact fun w hrely => hhas.completed hrely.2.1
  | raise x => exact fun _ _ => trivial
  | call op k => cases hended

theorem nextHolder_other {holder : Option ℕ} {i j : ℕ} {locked : Bool} (thread : Thread UUID)
    (hne : j ≠ i) (hfree : locked = true → holder = none) :
    (nextHolder holder i locked thread == some j) = (holder == some j) := by
  rw [nextHolder]
  cases locked with
  | true =>
    rw [hfree rfl, if_pos rfl]
    split <;> simp [Ne.symm hne]
  | false =>
    rw [if_neg Bool.false_ne_true]
    split
    · rename_i h
      rw [h.2]
      simp [Ne.symm hne]
    · rfl

theorem nextHolder_self {holder : Option ℕ} {i : ℕ} {locked : Bool} {thread : Thread UUID}
    (hgoes : ended thread = false) :
    (nextHolder holder i locked thread == some i) = ((holder == some i) || locked) := by
  rw [nextHolder, if_neg fun h => by rw [hgoes] at h; exact Bool.false_ne_true h.1]
  cases locked <;> simp

/-- The lock is held by a call that goes on. -/
theorem nextHolder_some {holder : Option ℕ} {i j : ℕ} {locked : Bool} {thread : Thread UUID}
    (h : nextHolder holder i locked thread = some j) :
    (j = i ∧ ended thread = false) ∨ (j ≠ i ∧ holder = some j) := by
  obtain ⟨holder', hdef⟩ : ∃ holder', holder' = if locked = true then some i else holder :=
    ⟨_, rfl⟩
  simp only [nextHolder, ← hdef] at h
  by_cases hends : ended thread = true ∧ holder' = some i
  · rw [if_pos hends] at h
    cases h
  · rw [if_neg hends] at h
    by_cases hji : j = i
    · refine .inl ⟨hji, Bool.eq_false_iff.mpr fun hended => hends ⟨hended, ?_⟩⟩
      rw [h, hji]
    · refine .inr ⟨hji, ?_⟩
      rw [hdef] at h
      split at h
      · exact absurd (Option.some.inj h).symm hji
      · exact h

theorem Sound.call (h : Sound s) (command : MaterializeCommand) (now : Time) :
    Sound { s with calls := s.calls ++ [⟨command, materialize digests now command⟩] } := by
  refine ⟨fun i call hcall => ?_, fun i hi => ?_, h.tidy⟩
  · rw [List.getElem?_append] at hcall
    split at hcall
    · exact h.safe i call hcall
    · rw [List.getElem?_singleton] at hcall
      split at hcall
      · obtain rfl := Option.some.inj hcall
        exact materialize_safe
      · cases hcall
  · obtain ⟨call, hcall, hgoes⟩ := h.holder i hi
    refine ⟨call, ?_, hgoes⟩
    rw [List.getElem?_append_left (List.getElem?_eq_some_iff.mp hcall).1]
    exact hcall

/-- The other calls, when the call `i` goes on to `thread`. -/
theorem Sound.others (h : Sound s) {i : ℕ} {call : Call} (hi : s.calls[i]? = some call)
    {thread : Thread UUID} {s' : State}
    (hcalls : s'.calls = s.calls.set i ⟨call.command, thread⟩)
    (hself : Program.Safe (rules call.command) (post call.command) thread (s'.view i))
    (hothers : ∀ j ≠ i, ∀ c, (rules c).rely (s.view j) (s'.view j))
    (hholder : ∀ j, s'.holder = some j →
      (j = i ∧ ended thread = false) ∨ (j ≠ i ∧ s.holder = some j))
    (htidy : Tidy s'.store) : Sound s' := by
  have hset : s'.calls[i]? = some ⟨call.command, thread⟩ := by
    rw [hcalls, List.getElem?_set_self (List.getElem?_eq_some_iff.mp hi).1]
  have hkept : ∀ j ≠ i, s'.calls[j]? = s.calls[j]? := fun j hne => by
    rw [hcalls, List.getElem?_set_ne (Ne.symm hne)]
  refine ⟨fun j call' hj => ?_, fun j hj => ?_, htidy⟩
  · by_cases hji : j = i
    · rw [hji, hset] at hj
      obtain rfl := Option.some.inj hj
      rw [hji]
      exact hself
    · rw [hkept j hji] at hj
      exact (h.safe j call' hj).interfere (hothers j hji _)
  · rcases hholder j hj with ⟨rfl, hgoes⟩ | ⟨hji, hheld⟩
    · exact ⟨_, hset, hgoes⟩
    · rw [hkept j hji]
      exact h.holder j hheld

/-- An operation of a call that may issue it. -/
theorem Sound.perform (h : Sound s) {i : ℕ} {command : MaterializeCommand} {op : Op α}
    {k : Except ApiError α → Thread UUID} (hi : s.calls[i]? = some ⟨command, .call op k⟩)
    (hfree : op.isLock = true → s.holder = none) (env : Environment) (io : Io) :
    Sound
      { store := (op.perform env io s.store).1
        calls := s.calls.set i ⟨command, k (op.perform env io s.store).2⟩
        holder := nextHolder s.holder i (op.isLock && (op.perform env io s.store).2.isOk)
          (k (op.perform env io s.store).2) } := by
  obtain ⟨hallowed, hnext⟩ := (h.safe i _ hi).call_step
  have hlocked : (op.isLock && (op.perform env io s.store).2.isOk) = true → s.holder = none :=
    fun hlocked => hfree (Bool.and_eq_true_iff.mp hlocked).1
  have hgrows : Grows s.store (op.effect s.store) := effect_grows hallowed
  have hsteady : (s.view i).held = false → Steady s.store (op.effect s.store) :=
    effect_steady hallowed
  have htidy : Tidy (op.effect s.store) := effect_tidy hallowed h.tidy
  refine h.others hi rfl ?_ (fun j hji c => ?_) (fun j => nextHolder_some) ?_
  · have hsafe := hnext _ ⟨_, (s.holder == some i) || (op.isLock && (op.perform env io s.store).2.isOk)⟩
      ⟨env, io, rfl, rfl⟩
    by_cases hended : ended (k (op.perform env io s.store).2) = true
    · exact safe_ended hended hsafe
    · rw [State.view, nextHolder_self (Bool.eq_false_iff.mpr hended)]
      exact hsafe
  · refine ⟨nextHolder_other _ hji hlocked, ?_, fun hheld => ?_⟩
    · rcases perform_store env io s.store op with hstore | hstore
      · rw [State.view, State.view, hstore]
        exact Grows.refl _
      · rw [State.view, State.view, hstore]
        exact hgrows
    · have hother : (s.view i).held = false := by
        rw [State.view, beq_iff_eq.mp hheld]
        simpa using hji
      rcases perform_store env io s.store op with hstore | hstore
      · rw [State.view, State.view, hstore]
        exact ⟨rfl, fun _ _ => id⟩
      · rw [State.view, State.view, hstore]
        exact hsteady hother
  · rcases perform_store env io s.store op with hstore | hstore
    · rw [hstore]
      exact h.tidy
    · rw [hstore]
      exact htidy

theorem Sound.abort (h : Sound s) {i : ℕ} {call : Call} (hi : s.calls[i]? = some call) :
    Sound
      { s with
        calls := s.calls.set i ⟨call.command, .raise .internal⟩
        holder := if s.holder = some i then none else s.holder } := by
  refine h.others hi rfl (fun _ _ => trivial) (fun j hji c => ⟨?_, Grows.refl _, fun _ =>
    ⟨rfl, fun _ _ => id⟩⟩) (fun j hj => ?_) h.tidy
  · show ((if s.holder = some i then none else s.holder) == some j) = (s.holder == some j)
    split
    · rename_i hheld
      rw [hheld]
      simp [Ne.symm hji]
    · rfl
  · simp only at hj
    split at hj
    · cases hj
    · rename_i hother
      refine .inr ⟨fun hji => hother ?_, hj⟩
      rw [← hji]
      exact hj

theorem Sound.step (h : Sound s) (action : Action) : Sound (s.step digests e action) := by
  cases action with
  | call command now =>
    rw [State.step]
    split
    · exact h.call command now
    · exact h
  | step i io file =>
    simp only [State.step]
    split
    · rename_i command α op k hi
      split
      · exact h
      · rename_i hfree
        refine h.perform hi (fun hlock => ?_) ⟨e, file⟩ io
        rw [hlock, Bool.true_and, Bool.not_eq_true, Option.isSome_eq_false_iff,
          Option.isNone_iff_eq_none] at hfree
        exact hfree
    · exact h
  | abort i =>
    simp only [State.step]
    split
    · rename_i command α op k hi
      exact h.abort hi
    · exact h

theorem Sound.run (h : Sound s) (actions : List Action) :
    Sound (Transition.run (State.step digests e) s actions) :=
  Transition.invariant_of_step (I := Sound) (fun _ action hs => hs.step action) h actions

/-- A step leaves the store or takes the effect of an allowed operation. -/
theorem Sound.step_store (h : Sound s) (action : Action) :
    (s.step digests e action).store = s.store ∨
      ∃ (i : ℕ) (c : MaterializeCommand) (α : Type) (op : Op α),
        (rules c).allowed op (s.view i) ∧
          (s.step digests e action).store = op.effect s.store := by
  cases action with
  | call command now =>
    rw [State.step]
    split <;> exact .inl rfl
  | step i io file =>
    simp only [State.step]
    split
    · rename_i command α op k hi
      split
      · exact .inl rfl
      · rcases perform_store ⟨e, file⟩ io s.store op with hstore | hstore
        · exact .inl hstore
        · exact .inr ⟨i, command, α, op, (h.safe i _ hi).call_step.1, hstore⟩
    · exact .inl rfl
  | abort i =>
    simp only [State.step]
    split <;> exact .inl rfl

theorem Sound.step_grows (h : Sound s) (action : Action) :
    Grows s.store (s.step digests e action).store := by
  rcases h.step_store action with hstore | ⟨i, c, α, op, hallowed, hstore⟩
  · rw [hstore]
    exact Grows.refl _
  · rw [hstore]
    exact effect_grows hallowed

theorem Sound.step_cells (h : Sound s) (action : Action) :
    s.store.cells <+: (s.step digests e action).store.cells := by
  rcases h.step_store action with hstore | ⟨i, c, α, op, hallowed, hstore⟩
  · rw [hstore]
  · rw [hstore]
    exact effect_cells hallowed

theorem Conflicts.grow {s s' : Store} (h : Conflicts c s) (hg : Grows s s') : Conflicts c s' := by
  obtain ⟨r, hr, hother⟩ := h
  obtain ⟨result, hr', _⟩ := hg _ r hr
  exact ⟨_, hr', hother⟩

/-- A key belongs to one command. -/
theorem Has.not_conflicts {s : Store} {result : Option UUID} (h : Has c s result) :
    ¬ Conflicts c s := by
  rintro ⟨r, hr, hother⟩
  rw [h] at hr
  rw [← Option.some.inj hr] at hother
  exact hother.elim (· rfl) (· rfl)

/-- Before a call writes it has the lock and the pending receipt. -/
theorem Sound.writing (h : Sound s) {i : ℕ} {call : Call} (hi : s.calls[i]? = some call)
    (hwrites : call.writesFile = true) : s.holder = some i ∧ Has call.command s.store none := by
  obtain ⟨command, thread⟩ := call
  cases thread with
  | ret artifactId => cases hwrites
  | raise x => cases hwrites
  | call op k =>
    have hallowed := (h.safe i _ hi).call_step.1
    have hwriting : Writing command (s.view i) := by
      cases op with
      | writeText path content => exact hallowed
      | writeNotebook notebook => exact hallowed.1
      | _ => cases hwrites
    exact ⟨beq_iff_eq.mp hwriting.1, hwriting.2⟩

theorem Sound.returned (h : Sound s) {call : Call} (hcall : call ∈ s.calls) {artifactId : UUID}
    (hret : call.thread = .ret artifactId) : Has call.command s.store (some artifactId) := by
  obtain ⟨i, hi, rfl⟩ := List.getElem_of_mem hcall
  have hsafe := h.safe i _ (List.getElem?_eq_getElem hi)
  rw [hret] at hsafe
  exact hsafe _ ((rules _).refl _)

/-- A call first reads the receipt of its key. -/
theorem materialize_first (digests : Digests) (now : Time) (c : MaterializeCommand) :
    ∃ k, materialize digests now c = .call (.receipt c.idempotencyKey) k ∧
      ∀ r : Receipt, (∀ artifactId, r.validate c.fingerprint = .ok (some artifactId) →
        k (.ok (some r)) = .ret artifactId) ∧
      ∀ x, r.validate c.fingerprint = .error x → k (.ok (some r)) = .raise x := by
  refine ⟨_, rfl, fun r => ⟨fun artifactId hvalid => ?_, fun x hvalid => ?_⟩⟩
  · simp only [Program.cont, hvalid]
    rfl
  · simp only [Program.cont, hvalid]
    rfl

/-- A call at its start, when its key has a receipt. -/
theorem step_first {i : ℕ} {now : Time}
    (hi : s.calls[i]? = some ⟨c, materialize digests now c⟩) {r : Receipt}
    (hr : s.store.receipt? c.idempotencyKey = some r) (file : RuntimeFileMetadata)
    {thread : Thread UUID}
    (hnext : ∀ k, materialize digests now c = .call (.receipt c.idempotencyKey) k →
      k (.ok (some r)) = thread) :
    (s.step digests e (.step i .done file)).calls[i]? = some ⟨c, thread⟩ ∧
      (s.step digests e (.step i .done file)).store = s.store := by
  obtain ⟨k, hk, _⟩ := materialize_first digests now c
  rw [hk] at hi
  simp only [State.step, hi, Op.isLock, Bool.false_and, Bool.false_eq_true, if_false, Op.perform,
    Io.reply, hr, hnext k hk]
  exact ⟨List.getElem?_set_self (List.getElem?_eq_some_iff.mp hi).1, trivial⟩

end

/-! ### Idempotency -/

/-- What holds of keys, Artifacts and cells, now and after one more step. -/
structure Idempotent (digests : Digests) (e : ExecutionRow) (s : State) : Prop where
  oneArtifact : ∀ key, s.store.artifacts.countP (·.insertedBy == some key) ≤ 1
  oneCell : ∀ key, s.store.cells.countP (·.idempotencyKey == some key) ≤ 1
  /-- The calls of one key that return are for one command, and return one id. -/
  sameId : ∀ call ∈ s.calls, ∀ call' ∈ s.calls, ∀ artifactId artifactId',
    call.command.idempotencyKey = call'.command.idempotencyKey →
      call.thread = .ret artifactId → call'.thread = .ret artifactId' →
        artifactId = artifactId' ∧ call.command.fingerprint = call'.command.fingerprint
  /-- What a call returns is the result of its receipt. -/
  returned : ∀ call ∈ s.calls, ∀ artifactId, call.thread = .ret artifactId →
    Has call.command s.store (some artifactId)
  completed : ∀ c artifactId action, Has c s.store (some artifactId) →
    Has c (s.step digests e action).store (some artifactId)
  repeated : ∀ i c now artifactId file, s.calls[i]? = some ⟨c, materialize digests now c⟩ →
    Has c s.store (some artifactId) →
      (s.step digests e (.step i .done file)).calls[i]? = some ⟨c, .ret artifactId⟩
  conflicts : ∀ c action, Conflicts c s.store → Conflicts c (s.step digests e action).store
  rejected : ∀ i c now file, s.calls[i]? = some ⟨c, materialize digests now c⟩ →
    Conflicts c s.store →
      (s.step digests e (.step i .done file)).calls[i]? =
        some ⟨c, .raise Command.receiptConflict⟩
  /-- Wherever it stands, a call with the key of another command neither writes nor returns. -/
  untouched : ∀ call ∈ s.calls, Conflicts call.command s.store →
    call.writesFile = false ∧ ∀ artifactId, call.thread ≠ .ret artifactId
  /-- Who writes has the lock and owns the key. -/
  owned : ∀ i call, s.calls[i]? = some call → call.writesFile = true →
    s.holder = some i ∧ Has call.command s.store none
  appended : ∀ action, s.store.cells <+: (s.step digests e action).store.cells

section

variable {s : State} {e : ExecutionRow} {digests : Digests}

theorem Sound.idempotent (h : Sound s) : Idempotent digests e s where
  oneArtifact := h.tidy.inserted
  oneCell := h.tidy.cells
  sameId call hcall call' hcall' artifactId artifactId' hkey hret hret' := by
    have hhas := h.returned hcall hret
    have hhas' := h.returned hcall' hret'
    rw [Has, hkey, hhas'] at hhas
    obtain ⟨_, _, hfingerprint, hresult⟩ := Receipt.mk.inj (Option.some.inj hhas)
    exact ⟨(Option.some.inj hresult).symm, hfingerprint.symm⟩
  returned call hcall artifactId := h.returned hcall
  completed c artifactId action hhas := hhas.completed (h.step_grows action)
  repeated i c now artifactId file hi hhas := by
    refine (step_first hi hhas file fun k hk => ?_).1
    obtain ⟨k', hk', hnext⟩ := materialize_first digests now c
    obtain rfl : k' = k := by
      rw [hk'] at hk
      cases hk
      rfl
    exact (hnext _).1 artifactId validate_of_has
  conflicts c action hconflicts := hconflicts.grow (h.step_grows action)
  rejected i c now file hi hconflicts := by
    obtain ⟨r, hr, hother⟩ := hconflicts
    refine (step_first hi hr file fun k hk => ?_).1
    obtain ⟨k', hk', hnext⟩ := materialize_first digests now c
    obtain rfl : k' = k := by
      rw [hk'] at hk
      cases hk
      rfl
    exact (hnext r).2 _ (if_pos hother)
  untouched call hcall hconflicts := by
    obtain ⟨i, hi, hget⟩ := List.getElem_of_mem hcall
    refine ⟨Bool.eq_false_iff.mpr fun hwrites => ?_, fun artifactId hret => ?_⟩
    · refine (h.writing (i := i) ?_ hwrites).2.not_conflicts hconflicts
      rw [List.getElem?_eq_getElem hi, hget]
    · exact (h.returned hcall hret).not_conflicts hconflicts
  owned i call hi := h.writing hi
  appended := h.step_cells

end

/-- A store that no call has written to: any receipts and Artifacts, and no two cells of one
key. -/
structure Fresh (s : Store) : Prop where
  artifacts : ∀ row ∈ s.artifacts, row.insertedBy = none
  cells : ∀ key, s.cells.countP (·.idempotencyKey == some key) ≤ 1

theorem Fresh.sound {s : Store} (h : Fresh s) : Sound ⟨s, [], none⟩ := by
  refine ⟨fun i call hcall => absurd hcall (by simp), fun i hi => absurd hi (by simp),
    h.cells, fun key => ?_, fun row hrow key hkey => ?_⟩
  · rw [List.countP_eq_zero.mpr fun row hrow => by simp [h.artifacts row hrow]]
    exact Nat.zero_le 1
  · rw [h.artifacts row hrow] at hkey
    cases hkey

/-- Calls for one Execution in any number and order, each operation of which may fail before or
after it took effect: a key has at most one Artifact and one cell, all its repeats return one
id, another command is turned away before it writes, and no cell is lost. -/
theorem materialize_idempotent (digests : Digests) (e : ExecutionRow) {s : Store} (h : Fresh s)
    (actions : List Action) :
    Idempotent digests e (Transition.run (State.step digests e) ⟨s, [], none⟩ actions) :=
  (h.sound.run actions).idempotent

namespace Small

/-- A SINGLE Execution that has succeeded. -/
def succeededRow : ExecutionRow where
  id := 1
  idempotencyKey := 0
  requestFingerprint := 0
  operationMode := .single
  operationWaitTimeoutSeconds := none
  runtimeType := .jupyter
  runtimePool := .batch
  runtimeProfile := "python"
  status := .succeeded
  workspacePath := some "w"
  notebookPath := some "w/notebooks/execution.ipynb"
  createdAt := 0
  updatedAt := 0

/-- Digests without collisions among small keys. -/
def digests : Digests := ⟨fun fingerprint => 1000 + fingerprint, fun _ _ _ => 0⟩

/-- A report that also goes to the notebook. -/
def note (fingerprint : Key) : MaterializeCommand where
  executionId := 1
  idempotencyKey := 7
  fingerprint := fingerprint
  artifactType := .report
  content := .ok "a note"
  appendToNotebook := true

/-- What the Runtime says of the report. -/
def file : RuntimeFileMetadata := ⟨"w/reports/final-report.md", none, 6, "a"⟩

/-- A notebook with one cell. -/
def store : Store where
  notebook := ⟨"", some [⟨"x", none⟩]⟩

theorem fresh : Fresh store := by
  refine ⟨fun row hrow => absurd hrow List.not_mem_nil, fun key => ?_⟩
  exact List.countP_le_length

/-- Two calls of one command, the first of which fails in its commit and has committed, and a
call of another command with their key. -/
def retried : List Action :=
  .call (note 3) 0 :: .call (note 3) 0 :: List.replicate 2 (.step 1 .done file) ++
    List.replicate 10 (.step 0 .done file) ++ .step 0 (.failed true) file ::
    List.replicate 4 (.step 1 .done file) ++ [.call (note 4) 0, .step 2 .done file]

/-- What a call has returned. -/
def returned (call : Call) : Option UUID :=
  match call.thread with
  | .ret artifactId => some artifactId
  | _ => none

theorem materialize_idempotent_retried :
    Idempotent digests succeededRow
        (Transition.run (State.step digests succeededRow) ⟨store, [], none⟩ retried) ∧
      (Transition.run (State.step digests succeededRow) ⟨store, [], none⟩ retried).calls.map
        returned = [none, some 1003, none] :=
  ⟨materialize_idempotent digests succeededRow fresh retried, by decide +kernel⟩

end Small

end ExecutorService.Materialization
