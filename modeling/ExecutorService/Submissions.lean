/-
Submit calls (`application/services/submission.py`).

A call looks its key up, snapshots the sources, inserts its rows and commits; other
calls run in between.  PostgreSQL checks a unique constraint when a row is inserted:
an insert waits for an uncommitted row with the same tenant and key, and fails if that
row was committed.  The insert is the flush of `add_operation`; only the commit turns a
violated constraint into the conflict that makes the handler look again.

* `Service.step` — a call moves on, or a transaction changes a stored Execution;
* `Answers` — what every finished call must have returned;
* `Unraced` — the condition on a step: a call that inserts its rows finds no Execution
  committed under its key since its lookup;
* `submit_idempotent` — in every run of such steps every call returns the one
  Execution of its key, or the conflict.
-/
import ExecutorService.CommandKeys
import ExecutorService.Positions

namespace ExecutorService

/-! ### Requests -/

/-- A submit request, with the fields that only its validation reads. -/
structure SubmitRequest extends SubmitExecutionCommand where
  tenantId : String
  specSchemaVersion : String := "1.0"
  projectId : Option String := none
  sessionId : Option String := none

/-- The profiles of a Runtime type, and whether it keeps sessions. -/
structure RuntimeOffering where
  profiles : List String
  statefulSessions : Bool

/-- The errors of a submission. -/
inductive SubmitError
  /-- An error of the validation or of the snapshots. -/
  | rejected (error : StoreError)
  | unsupportedProfile
  | unsupportedCapability
  | idempotencyConflict
  | persistenceConflict
  /-- The database driver's own error. -/
  | integrityError
  deriving DecidableEq, Repr

/-- A lower-case letter or a digit of ASCII. -/
def isLowerAlnum (c : Char) : Bool :=
  ('a' ≤ c ∧ c ≤ 'z') ∨ ('0' ≤ c ∧ c ≤ '9')

/-- `is_valid_tenant_id`: `[a-z][a-z0-9-]{1,62}[a-z0-9]`. -/
def isValidTenantId (tenantId : String) : Bool :=
  match tenantId.toList with
  | [] => false
  | first :: rest => match rest.getLast? with
    | none => false
    | some last =>
      ('a' ≤ first ∧ first ≤ 'z') ∧ isLowerAlnum last ∧ 2 ≤ rest.length ∧ rest.length ≤ 63 ∧
        rest.dropLast.all fun c => isLowerAlnum c || c == '-'

/-- Names that no tenant may have. -/
def reservedTenantIds : List String := ["dlq", "work"]

/-- `_validate_tenant`. -/
def validateTenant (tenantId : String) : Txn Unit :=
  if ¬ isValidTenantId tenantId then .error (.invalidSpec "invalid_tenant")
  else if tenantId ∈ reservedTenantIds then .error (.invalidSpec "reserved_tenant")
  else .ok ()

/-- The part of `validate_submit` before the Steps. -/
def SubmitRequest.validateScope (q : SubmitRequest) : Txn Unit :=
  if q.specSchemaVersion ≠ "1.0" then .error (.invalidSpec "unsupported_schema_version")
  else if q.sessionId.isSome ∧ q.projectId.isNone then
    .error (.invalidSpec "session_without_project")
  else if q.projectId = some "unscoped" ∨ q.sessionId = some "unscoped" then
    .error (.invalidSpec "reserved_value")
  else .ok ()

/-- What `submit` checks before it looks its key up. -/
def SubmitRequest.validate (settings : Settings)
    (offerings : RuntimeType → Option RuntimeOffering) (q : SubmitRequest) :
    Except SubmitError Unit := do
  let spec : Txn Unit := do
    q.validateScope
    validateSubmit q.toSubmitExecutionCommand
    validateTenant q.tenantId
    validateStepLimits settings 0 q.steps.length
    validateTimeouts settings q.operationTimeoutSeconds q.steps
  match spec with
  | .error error => .error (.rejected error)
  | .ok () => match offerings q.runtimeType with
    | none => .error .unsupportedProfile
    | some offering =>
      if q.runtimeProfile ∉ offering.profiles then .error .unsupportedProfile
      else if q.operationMode = .multi ∧ ¬ offering.statefulSessions then
        .error .unsupportedCapability
      else .ok ()

/-! ### Calls -/

/-- The result of a call: an Execution and an Operation of it. -/
abbrev SubmitResult := Except SubmitError (UUID × UUID)

/-- Where a call is: before its lookup; with rows to insert; with rows inserted and
not yet committed; before the second lookup of a conflict; returned. -/
inductive SubmitPhase
  | looking
  | inserting (rows : Tables)
  | committing (rows : Tables)
  | reloading
  | done (result : SubmitResult)

/-- A submission and where it is. -/
structure SubmitCall where
  request : SubmitRequest
  phase : SubmitPhase

/-- A committed Execution. -/
structure StoredExecution where
  tenantId : String
  history : History

/-- The database and the calls of every API process. -/
structure Service where
  executions : List StoredExecution := []
  calls : List SubmitCall := []

/-- The rows of the Execution. -/
def StoredExecution.tables (x : StoredExecution) : Tables :=
  x.history.rows.tables

/-- The Execution has this tenant and submit key. -/
def StoredExecution.submittedAs (x : StoredExecution) (tenantId : String) (key : Key) : Bool :=
  x.tenantId == tenantId && x.tables.execution.idempotencyKey == key

/-- `get_operation_id_by_key`. -/
def Tables.operationIdByKey (t : Tables) (key : Key) : Option UUID :=
  (t.operations.find? (·.idempotencyKey == key)).map (·.id)

/-- `get_by_submit_key`. -/
def Service.getBySubmitKey (s : Service) (tenantId : String) (key : Key) :
    Option StoredExecution :=
  s.executions.find? (·.submittedAs tenantId key)

/-- What a call returns for an Execution that has its key. -/
def StoredExecution.answer (x : StoredExecution) (q : SubmitRequest) : SubmitResult :=
  -- `ensure_same_fingerprint`
  if x.tables.execution.requestFingerprint ≠ q.requestFingerprint then
    .error .idempotencyConflict
  else match x.tables.operationIdByKey q.idempotencyKey with
    | some operationId => .ok (x.tables.execution.id, operationId)
    -- `required_operation_id`
    | none => .error .persistenceConflict

/-- One submission goes on. -/
def Service.setPhase (s : Service) (i : ℕ) (call : SubmitCall) (phase : SubmitPhase) : Service :=
  { s with calls := s.calls.set i { call with phase := phase } }

/-- Another call has inserted a row with this tenant and key and not committed it. -/
def Service.blocked (s : Service) (i : ℕ) (q : SubmitRequest) : Bool :=
  s.calls.zipIdx.any fun (call, j) => j != i && match call.phase with
    | .committing _ => call.request.tenantId == q.tenantId &&
        call.request.idempotencyKey == q.idempotencyKey
    | _ => false

/-- A call moves on: it runs to its next wait for the database. -/
def Service.advance (settings : Settings) (s : Service) (i : ℕ) (call : SubmitCall) (now : Time) :
    Service :=
  let q := call.request
  match call.phase with
  | .looking => match s.getBySubmitKey q.tenantId q.idempotencyKey with
    | some x => match x.answer q with
      | .error .persistenceConflict => s.setPhase i call .reloading
      | result => s.setPhase i call (.done result)
    | none => match submit settings now q.toSubmitExecutionCommand with
      | .ok rows => s.setPhase i call (.inserting rows)
      | .error error => s.setPhase i call (.done (.error (.rejected error)))
  | .inserting rows =>
    if s.blocked i q then s
    else if (s.getBySubmitKey q.tenantId q.idempotencyKey).isSome then
      s.setPhase i call (.done (.error .integrityError))
    else s.setPhase i call (.committing rows)
  | .committing rows =>
    let stored : StoredExecution := {
      tenantId := q.tenantId
      history := { rows := { tables := rows } } }
    { s with executions := s.executions ++ [stored] }.setPhase i call
      (.done (.ok (q.executionId, q.operationId)))
  | .reloading => match s.getBySubmitKey q.tenantId q.idempotencyKey with
    | some x => s.setPhase i call (.done (x.answer q))
    | none => s.setPhase i call (.done (.error .persistenceConflict))
  | .done _ => s

/-- What happens next: a submission, a session of one, or another transaction. -/
inductive SubmitAction
  | submit (request : SubmitRequest)
  | advance (call : ℕ) (now : Time)
  /-- Any transaction on a stored Execution. -/
  | transaction (execution : ℕ) (transaction : Transaction)

/-- One action. -/
def Service.step (settings : Settings) (offerings : RuntimeType → Option RuntimeOffering)
    (s : Service) : SubmitAction → Service
  | .submit request => { s with calls := s.calls ++ [{
      request := request
      phase := match request.validate settings offerings with
        | .ok () => .looking
        | .error error => .done (.error error) }] }
  | .advance i now => match s.calls[i]? with
    | some call => s.advance settings i call now
    | none => s
  | .transaction i tx => { s with
      executions := s.executions.modify i fun x =>
        { x with history := x.history.step settings tx } }

/-! ### Answers -/

/-- A request that the service accepts under a new key. -/
def SubmitRequest.Accepted (settings : Settings)
    (offerings : RuntimeType → Option RuntimeOffering) (q : SubmitRequest) : Prop :=
  q.validate settings offerings = .ok () ∧
    ∀ now, ∃ rows, submit settings now q.toSubmitExecutionCommand = .ok rows

/-- The right result for an Execution that has the key of the request: the Execution
and its first Operation for the same content, the conflict for another. -/
def StoredExecution.Answered (x : StoredExecution) (q : SubmitRequest) (result : SubmitResult) :
    Prop :=
  (x.tables.execution.requestFingerprint = q.requestFingerprint →
    ∃ operation, x.tables.operations.head? = some operation ∧
      result = .ok (x.tables.execution.id, operation.id)) ∧
  (x.tables.execution.requestFingerprint ≠ q.requestFingerprint →
    result = .error .idempotencyConflict)

/-- At most one Execution has a key, and every call that has returned did so with the
Execution of its key or with the conflict. -/
def Answers (settings : Settings) (offerings : RuntimeType → Option RuntimeOffering)
    (s : Service) : Prop :=
  (∀ tenantId key, s.executions.countP (·.submittedAs tenantId key) ≤ 1) ∧
  ∀ call ∈ s.calls, call.request.Accepted settings offerings → ∀ result,
    call.phase = .done result → ∃ x ∈ s.executions,
      x.submittedAs call.request.tenantId call.request.idempotencyKey = true ∧
      x.Answered call.request result

/-- A call that inserts its rows finds no Execution under its key: none was committed
since its lookup. -/
def Unraced (s : Service) : SubmitAction → Prop
  | .advance i _ => ∀ call rows, s.calls[i]? = some call → call.phase = .inserting rows →
      s.getBySubmitKey call.request.tenantId call.request.idempotencyKey = none
  | _ => True

/-! ### Stored Executions -/

/-- The first Operation has the submit key. -/
def StoredExecution.Keyed (x : StoredExecution) : Prop :=
  ∃ operation, x.tables.operations.head? = some operation ∧
    operation.idempotencyKey = x.tables.execution.idempotencyKey

section

variable {settings : Settings} {offerings : RuntimeType → Option RuntimeOffering}
  {x x' : StoredExecution} {q : SubmitRequest}

theorem StoredExecution.answer_answered (h : x.Keyed)
    (hkey : x.submittedAs q.tenantId q.idempotencyKey = true) : x.Answered q (x.answer q) := by
  obtain ⟨operation, hhead, hoperation⟩ := h
  simp only [StoredExecution.submittedAs, Bool.and_eq_true, beq_iff_eq] at hkey
  have hfound : x.tables.operationIdByKey q.idempotencyKey = some operation.id := by
    rw [Tables.operationIdByKey]
    rcases hoperations : x.tables.operations with _ | ⟨o, rest⟩
    · rw [hoperations] at hhead
      cases hhead
    · rw [hoperations, List.head?_cons] at hhead
      obtain rfl := Option.some.inj hhead
      rw [List.find?_cons_of_pos (by rw [hoperation, hkey.2]; exact beq_self_eq_true _)]
      rfl
  refine ⟨fun hsame => ⟨operation, hhead, ?_⟩, fun hother => ?_⟩
  · rw [StoredExecution.answer, if_neg (not_not.mpr hsame), hfound]
  · rw [StoredExecution.answer, if_pos hother]

/-- The first Operation stays the first. -/
theorem SameSubmission.head {t t' : Tables} (h : Tables.SameSubmission t t')
    {operation : OperationRow} (hhead : t.operations.head? = some operation) :
    ∃ operation', t'.operations.head? = some operation' ∧ operation'.keyed = operation.keyed := by
  obtain ⟨rest, hrest⟩ := h.operations
  have hmap : (t'.operations.map (·.keyed)).head? = some operation.keyed := by
    rw [← hrest, List.head?_append, List.head?_map, hhead]
    rfl
  rw [List.head?_map, Option.map_eq_some_iff] at hmap
  exact hmap

theorem History.step_sameSubmission (h : History) (tx : Transaction) :
    Tables.SameSubmission h.rows.tables (h.step settings tx).rows.tables := by
  cases tx with
  | log tx => exact .refl _
  | table eventTime tx =>
    rcases History.step_table with hstep | ⟨change, log, hchange, _, hstep⟩
    · rw [hstep]
      exact .refl _
    · rw [hstep]
      exact Tables.sameSubmission_of_change hchange

/-- The same Execution at a later time. -/
structure StoredExecution.Later (x x' : StoredExecution) : Prop where
  tenant : x'.tenantId = x.tenantId
  same : Tables.SameSubmission x.tables x'.tables

theorem StoredExecution.Later.submittedAs (h : x.Later x') (tenantId : String) (key : Key) :
    x'.submittedAs tenantId key = x.submittedAs tenantId key := by
  rw [StoredExecution.submittedAs, StoredExecution.submittedAs, h.tenant, h.same.key]

theorem StoredExecution.Later.keyed (h : x.Later x') (hx : x.Keyed) : x'.Keyed := by
  obtain ⟨operation, hhead, hkey⟩ := hx
  obtain ⟨operation', hhead', hkeyed⟩ := SameSubmission.head h.same hhead
  refine ⟨operation', hhead', ?_⟩
  rw [h.same.key, ← hkey]
  exact congrArg Prod.snd hkeyed

theorem StoredExecution.Later.answered (h : x.Later x') {result : SubmitResult}
    (hx : x.Answered q result) : x'.Answered q result := by
  rw [StoredExecution.Answered, h.same.fingerprint, h.same.id]
  refine ⟨fun hsame => ?_, hx.2⟩
  obtain ⟨operation, hhead, hresult⟩ := hx.1 hsame
  obtain ⟨operation', hhead', hkeyed⟩ := SameSubmission.head h.same hhead
  refine ⟨operation', hhead', ?_⟩
  rw [hresult, show operation'.id = operation.id from congrArg Prod.fst hkeyed]

/-- The rows that `submit` inserts are those of its request. -/
structure SubmitRequest.Rows (q : SubmitRequest) (t : Tables) : Prop where
  id : t.execution.id = q.executionId
  key : t.execution.idempotencyKey = q.idempotencyKey
  fingerprint : t.execution.requestFingerprint = q.requestFingerprint
  operation : ∃ operation, t.operations = [operation] ∧ operation.id = q.operationId ∧
    operation.idempotencyKey = q.idempotencyKey

theorem submit_rows {now : Time} {t : Tables}
    (h : submit settings now q.toSubmitExecutionCommand = .ok t) : q.Rows t := by
  simp only [submit, Txn.bind_ok] at h
  obtain ⟨_, _, _, _, _, _, steps, _, h⟩ := h
  split at h
  · cases h
  · obtain rfl := Txn.pure_ok.mp h
    exact ⟨rfl, rfl, rfl, _, rfl, rfl, rfl⟩

theorem SubmitRequest.Rows.stored {rows : Tables} (h : q.Rows rows) :
    StoredExecution.Keyed ⟨q.tenantId, { rows := { tables := rows } }⟩ ∧
    StoredExecution.Answered ⟨q.tenantId, { rows := { tables := rows } }⟩ q
      (.ok (q.executionId, q.operationId)) := by
  obtain ⟨operation, hoperations, hid, hkey⟩ := h.operation
  have hhead : rows.operations.head? = some operation := by
    rw [hoperations]
    rfl
  refine ⟨⟨operation, hhead, hkey.trans h.key.symm⟩, fun _ => ⟨operation, hhead, ?_⟩,
    fun hother => absurd h.fingerprint hother⟩
  show Except.ok _ = Except.ok (rows.execution.id, operation.id)
  rw [h.id, hid]

end

/-! ### The invariant -/

/-- What holds of a call in each of its phases. -/
def Service.CallOk (settings : Settings) (offerings : RuntimeType → Option RuntimeOffering)
    (s : Service) (call : SubmitCall) : Prop :=
  match call.phase with
  | .looking => True
  | .inserting rows => call.request.Rows rows
  | .committing rows => call.request.Rows rows ∧
      s.getBySubmitKey call.request.tenantId call.request.idempotencyKey = none
  -- The Operation of a stored Execution is always found.
  | .reloading => False
  | .done result => call.request.Accepted settings offerings → ∃ x ∈ s.executions,
      x.submittedAs call.request.tenantId call.request.idempotencyKey = true ∧
      x.Answered call.request result

/-- What holds of the Executions and of the submissions in every reachable state. -/
structure Service.Inv (settings : Settings) (offerings : RuntimeType → Option RuntimeOffering)
    (s : Service) : Prop where
  once : ∀ tenantId key, s.executions.countP (·.submittedAs tenantId key) ≤ 1
  keyed : ∀ x ∈ s.executions, x.Keyed
  calls : ∀ call ∈ s.calls, s.CallOk settings offerings call
  /-- An uncommitted row keeps others with its key out. -/
  apart : ∀ (i j : ℕ) (call call' : SubmitCall) (rows rows' : Tables),
    s.calls[i]? = some call → s.calls[j]? = some call' →
    call.phase = .committing rows → call'.phase = .committing rows' →
    call.request.tenantId = call'.request.tenantId →
    call.request.idempotencyKey = call'.request.idempotencyKey → i = j

namespace Service

section

variable {settings : Settings} {offerings : RuntimeType → Option RuntimeOffering} {s : Service}
  {i : ℕ} {call : SubmitCall}

theorem getBySubmitKey_eq_none {tenantId : String} {key : Key} :
    s.getBySubmitKey tenantId key = none ↔
      ∀ x ∈ s.executions, x.submittedAs tenantId key = false := by
  simp only [getBySubmitKey, List.find?_eq_none, Bool.not_eq_true]

theorem blocked_eq_false {q : SubmitRequest} (h : s.blocked i q = false) {j : ℕ}
    {call' : SubmitCall} {rows : Tables} (hj : s.calls[j]? = some call') (hji : j ≠ i)
    (hphase : call'.phase = .committing rows) (htenant : call'.request.tenantId = q.tenantId) :
    call'.request.idempotencyKey ≠ q.idempotencyKey := by
  intro hkey
  simp only [blocked, List.any_eq_false] at h
  have hnot := h (call', j) (List.mem_zipIdx_iff_getElem?.mpr hj)
  simp [hji, hphase, htenant, hkey] at hnot

/-- A call that moves on without a change to the database. -/
theorem Inv.setPhase (h : s.Inv settings offerings) (hi : s.calls[i]? = some call)
    {phase : SubmitPhase} (hok : s.CallOk settings offerings { call with phase := phase })
    (hfree : ∀ rows, phase = .committing rows → s.blocked i call.request = false) :
    (s.setPhase i call phase).Inv settings offerings := by
  refine ⟨h.once, h.keyed, fun call' hcall' => ?_, ?_⟩
  · rcases List.mem_or_eq_of_mem_set hcall' with hold | rfl
    · exact h.calls call' hold
    · exact hok
  · intro j k callj callk rowsj rowsk hj hk hphasej hphasek htenant hkey
    rcases List.getElem?_set_cases hj with ⟨rfl, rfl⟩ | ⟨hne, hold⟩ <;>
      rcases List.getElem?_set_cases hk with ⟨rfl, rfl⟩ | ⟨hne', hold'⟩
    · rfl
    · exact absurd hkey.symm (blocked_eq_false (hfree _ hphasej) hold' hne' hphasek htenant.symm)
    · exact absurd hkey (blocked_eq_false (hfree _ hphasek) hold hne hphasej htenant)
    · exact h.apart j k callj callk rowsj rowsk hold hold' hphasej hphasek htenant hkey

theorem Inv.finish (h : s.Inv settings offerings) (hi : s.calls[i]? = some call)
    {result : SubmitResult} (hresult : call.request.Accepted settings offerings →
      ∃ x ∈ s.executions, x.submittedAs call.request.tenantId call.request.idempotencyKey = true ∧
        x.Answered call.request result) :
    (s.setPhase i call (.done result)).Inv settings offerings :=
  h.setPhase hi hresult (fun _ hno => nomatch hno)

/-- A lookup that finds an Execution answers with it. -/
theorem Inv.found (h : s.Inv settings offerings) {tenantId : String} {key : Key}
    {x : StoredExecution} (hx : s.getBySubmitKey tenantId key = some x) :
    x ∈ s.executions ∧ x.submittedAs tenantId key = true ∧ x.Keyed := by
  have hmem := List.mem_of_find?_eq_some hx
  exact ⟨hmem, List.find?_some (p := fun x : StoredExecution => x.submittedAs tenantId key) hx,
    h.keyed x hmem⟩

theorem Inv.look (h : s.Inv settings offerings) (hi : s.calls[i]? = some call)
    (hphase : call.phase = .looking) (now : Time) :
    (s.advance settings i call now).Inv settings offerings := by
  simp only [advance, hphase]
  split
  next x hx =>
    obtain ⟨hmem, hkey, hkeyed⟩ := h.found hx
    have hanswered := x.answer_answered hkeyed hkey
    split
    next hconflict =>
      -- The Operation is there, so the answer is no conflict of persistence.
      rw [hconflict] at hanswered
      by_cases hsame : x.tables.execution.requestFingerprint = call.request.requestFingerprint
      · obtain ⟨_, _, hok⟩ := hanswered.1 hsame
        cases hok
      · exact nomatch hanswered.2 hsame
    · exact h.finish hi fun _ => ⟨x, hmem, hkey, hanswered⟩
  · split
    next rows hrows =>
      exact h.setPhase hi (submit_rows hrows) (fun _ hno => nomatch hno)
    next error herror =>
      refine h.finish hi fun haccepted => ?_
      obtain ⟨rows, hrows⟩ := haccepted.2 now
      rw [herror] at hrows
      cases hrows

theorem Inv.insert (h : s.Inv settings offerings) (hi : s.calls[i]? = some call) {rows : Tables}
    (hphase : call.phase = .inserting rows)
    (hnone : s.getBySubmitKey call.request.tenantId call.request.idempotencyKey = none)
    (now : Time) : (s.advance settings i call now).Inv settings offerings := by
  have hrows := h.calls call (List.mem_of_getElem? hi)
  simp only [CallOk, hphase] at hrows
  simp only [advance, hphase, hnone, Option.isSome_none, Bool.false_eq_true, if_false]
  split
  · exact h
  next hblocked =>
    exact h.setPhase hi ⟨hrows, hnone⟩ fun _ _ => Bool.eq_false_iff.mpr hblocked

theorem mem_submittedAs_iff {tenantId tenantId' : String} {key key' : Key} {rows : Tables}
    (hkey : rows.execution.idempotencyKey = key) :
    StoredExecution.submittedAs ⟨tenantId, { rows := { tables := rows } }⟩ tenantId' key' = true ↔
      tenantId = tenantId' ∧ key = key' := by
  simp only [StoredExecution.submittedAs, Bool.and_eq_true, beq_iff_eq]
  exact and_congr_right fun _ => by rw [← hkey]; rfl

theorem Inv.commit (h : s.Inv settings offerings) (hi : s.calls[i]? = some call) {rows : Tables}
    (hphase : call.phase = .committing rows) (now : Time) :
    (s.advance settings i call now).Inv settings offerings := by
  have hcall := h.calls call (List.mem_of_getElem? hi)
  simp only [CallOk, hphase] at hcall
  obtain ⟨hrows, hnone⟩ := hcall
  obtain ⟨hkeyed, hanswered⟩ := hrows.stored
  rw [getBySubmitKey_eq_none] at hnone
  simp only [advance, hphase]
  -- Another call that is about to commit has another key.
  have hother : ∀ (j : ℕ) (call' : SubmitCall) (rows' : Tables), j ≠ i →
      s.calls[j]? = some call' → call'.phase = .committing rows' →
      ¬ (call.request.tenantId = call'.request.tenantId ∧
        call.request.idempotencyKey = call'.request.idempotencyKey) := by
    rintro j call' rows' hji hj hphase' ⟨htenant, hkey⟩
    exact hji (h.apart i j call call' rows rows' hi hj hphase hphase' htenant hkey).symm
  refine ⟨fun tenantId key => ?_, fun x hx => ?_, fun call' hcall' => ?_, ?_⟩
  · show (s.executions ++ [_]).countP _ ≤ 1
    rw [List.countP_append, List.countP_singleton]
    split
    next hsame =>
      obtain ⟨rfl, rfl⟩ := (mem_submittedAs_iff hrows.key).mp hsame
      rw [List.countP_eq_zero.mpr fun x hx => Bool.eq_false_iff.mp (hnone x hx)]
    · exact h.once tenantId key
  · rcases List.mem_append.mp hx with hold | hnew
    · exact h.keyed x hold
    · rw [List.mem_singleton.mp hnew]
      exact hkeyed
  · obtain ⟨j, hj⟩ := List.mem_iff_getElem?.mp hcall'
    rcases List.getElem?_set_cases hj with ⟨rfl, rfl⟩ | ⟨hji, hold⟩
    · intro _
      exact ⟨_, List.mem_append_right _ (List.mem_singleton_self _),
        (mem_submittedAs_iff hrows.key).mpr ⟨rfl, rfl⟩, hanswered⟩
    · have hok := h.calls call' (List.mem_of_getElem? hold)
      rcases hphase' : call'.phase with _ | rows' | rows' | _ | result <;>
        simp only [CallOk, hphase'] at hok ⊢
      · exact hok
      · refine ⟨hok.1, getBySubmitKey_eq_none.mpr fun x hx => ?_⟩
        rcases List.mem_append.mp hx with hx | hx
        · exact getBySubmitKey_eq_none.mp hok.2 x hx
        · rw [List.mem_singleton.mp hx, Bool.eq_false_iff, Ne, mem_submittedAs_iff hrows.key]
          exact hother j call' rows' hji hold hphase'
      · intro haccepted
        obtain ⟨x, hx, hanswer⟩ := hok haccepted
        exact ⟨x, List.mem_append_left _ hx, hanswer⟩
  · intro j k callj callk rowsj rowsk hj hk hphasej hphasek htenant hkey
    rcases List.getElem?_set_cases hj with ⟨rfl, rfl⟩ | ⟨_, hold⟩
    · cases hphasej
    rcases List.getElem?_set_cases hk with ⟨rfl, rfl⟩ | ⟨_, hold'⟩
    · cases hphasek
    exact h.apart j k callj callk rowsj rowsk hold hold' hphasej hphasek htenant hkey

/-- A transaction on a stored Execution. -/
theorem Inv.transaction (h : s.Inv settings offerings) {f : StoredExecution → StoredExecution}
    (hf : ∀ x : StoredExecution, x.Later (f x)) (i : ℕ) :
    ({ s with executions := s.executions.modify i f } : Service).Inv settings offerings := by
  refine ⟨fun tenantId key => ?_, fun x' hx' => ?_, fun call hcall => ?_, h.apart⟩
  · show (s.executions.modify i f).countP _ ≤ 1
    rw [List.countP_modify fun x => (hf x).submittedAs tenantId key]
    exact h.once tenantId key
  · obtain ⟨x, hx, rfl | rfl⟩ := List.mem_modify_cases hx'
    · exact h.keyed x' hx
    · exact (hf x).keyed (h.keyed x hx)
  · have hok := h.calls call hcall
    rcases hphase : call.phase with _ | rows | rows | _ | result <;>
      simp only [CallOk, hphase] at hok ⊢
    · exact hok
    · refine ⟨hok.1, getBySubmitKey_eq_none.mpr fun x' hx' => ?_⟩
      obtain ⟨x, hx, rfl | rfl⟩ := List.mem_modify_cases hx'
      · exact getBySubmitKey_eq_none.mp hok.2 x' hx
      · rw [(hf x).submittedAs]
        exact getBySubmitKey_eq_none.mp hok.2 x hx
    · intro haccepted
      obtain ⟨x, hx, hkey, hanswer⟩ := hok haccepted
      rcases List.mem_modify_of_mem f i hx with hmem | hmem
      · exact ⟨x, hmem, hkey, hanswer⟩
      · exact ⟨f x, hmem, by rw [(hf x).submittedAs]; exact hkey, (hf x).answered hanswer⟩

theorem Inv.submit (h : s.Inv settings offerings) (request : SubmitRequest) :
    (s.step settings offerings (.submit request)).Inv settings offerings := by
  refine ⟨h.once, h.keyed, fun call hcall => ?_, ?_⟩
  · rcases List.mem_append.mp hcall with hold | hnew
    · exact h.calls call hold
    · rw [List.mem_singleton.mp hnew]
      rcases hvalid : request.validate settings offerings with error | ⟨⟩ <;>
        simp only [CallOk]
      intro haccepted
      rw [haccepted.1] at hvalid
      cases hvalid
  · intro j k callj callk rowsj rowsk hj hk hphasej hphasek htenant hkey
    -- The new call has not inserted a row.
    have hnew : ∀ rows, (match request.validate settings offerings with
        | .ok () => SubmitPhase.looking
        | .error error => .done (.error error)) ≠ .committing rows := by
      intro rows
      split <;> exact nofun
    rcases List.getElem?_concat_cases hj with ⟨rfl, rfl⟩ | ⟨_, hold⟩
    · exact absurd hphasej (hnew rowsj)
    rcases List.getElem?_concat_cases hk with ⟨rfl, rfl⟩ | ⟨_, hold'⟩
    · exact absurd hphasek (hnew rowsk)
    exact h.apart j k callj callk rowsj rowsk hold hold' hphasej hphasek htenant hkey

theorem Inv.step (h : s.Inv settings offerings) {action : SubmitAction}
    (hok : Unraced s action) : (s.step settings offerings action).Inv settings offerings := by
  cases action with
  | submit request => exact h.submit request
  | transaction i tx =>
    exact h.transaction (f := fun x => { x with history := x.history.step settings tx })
      (fun x => ⟨rfl, x.history.step_sameSubmission tx⟩) i
  | advance i now =>
    simp only [Service.step]
    split
    next call hi =>
      rcases hphase : call.phase with _ | rows | rows | _ | result
      · exact h.look hi hphase now
      · exact h.insert hi hphase (hok call rows hi hphase) now
      · exact h.commit hi hphase now
      · have hcall := h.calls call (List.mem_of_getElem? hi)
        simp only [CallOk, hphase] at hcall
      · simp only [advance, hphase]
        exact h
    · exact h

theorem Inv.init : Inv settings offerings {} := by
  refine ⟨fun _ _ => Nat.zero_le 1, fun x hx => ?_, fun call hcall => ?_, ?_⟩
  · cases hx
  · cases hcall
  · intro i j call call' rows rows' hi
    cases hi

theorem Inv.answers (h : s.Inv settings offerings) : Answers settings offerings s := by
  refine ⟨h.once, fun call hcall haccepted result hphase => ?_⟩
  have hok := h.calls call hcall
  simp only [CallOk, hphase] at hok
  exact hok haccepted

end

end Service

/-! ### Every call returns -/

/-- How many steps a call still makes at most. -/
def SubmitPhase.weight : SubmitPhase → ℕ
  | .looking => 3
  | .inserting _ => 2
  | .committing _ => 1
  | .reloading => 1
  | .done _ => 0

/-- The submission has returned. -/
def SubmitCall.Returned (call : SubmitCall) : Prop :=
  ∃ result, call.phase = .done result

namespace Service

/-- The sessions that all submissions have left. -/
def weight (s : Service) : ℕ :=
  (s.calls.map (·.phase.weight)).sum

section

variable (settings : Settings) (offerings : RuntimeType → Option RuntimeOffering) {s : Service}
  {i : ℕ} {call : SubmitCall}

/-- A call that waits for no other one comes closer to its end. -/
theorem advance_moves (hreturned : ¬ call.Returned)
    (hfree : ∀ rows, call.phase = .inserting rows → s.blocked i call.request = false)
    (now : Time) :
    ∃ phase : SubmitPhase, (s.advance settings i call now).calls =
        s.calls.set i { call with phase := phase } ∧ phase.weight < call.phase.weight := by
  rcases hcase : call.phase with _ | rows | rows | _ | result <;> simp only [advance, hcase]
  · split
    · split
      · exact ⟨.reloading, rfl, by decide⟩
      · exact ⟨.done _, rfl, Nat.zero_lt_succ 2⟩
    · split
      next rows _ => exact ⟨.inserting rows, rfl, Nat.lt_succ_self 2⟩
      · exact ⟨.done _, rfl, Nat.zero_lt_succ 2⟩
  · rw [if_neg (Bool.eq_false_iff.mp (hfree rows hcase))]
    split
    · exact ⟨.done (.error .integrityError), rfl, Nat.zero_lt_two⟩
    · exact ⟨.committing rows, rfl, Nat.one_lt_two⟩
  · exact ⟨.done _, rfl, Nat.one_pos⟩
  · split
    · exact ⟨.done _, rfl, Nat.one_pos⟩
    · exact ⟨.done _, rfl, Nat.one_pos⟩
  · exact absurd ⟨result, hcase⟩ hreturned

/-- What keeps a call from inserting its rows can commit them. -/
theorem exists_committing {q : SubmitRequest} (h : s.blocked i q = true) :
    ∃ (j : ℕ) (call' : SubmitCall) (rows : Tables),
      s.calls[j]? = some call' ∧ call'.phase = .committing rows := by
  simp only [blocked, List.any_eq_true] at h
  obtain ⟨⟨call', j⟩, hmem, hblocks⟩ := h
  rcases hphase : call'.phase with _ | rows | rows | _ | result <;>
    simp only [hphase, Bool.and_false, Bool.false_eq_true] at hblocks
  exact ⟨j, call', rows, List.mem_zipIdx_iff_getElem?.mp hmem, hphase⟩

/-- As long as a call has not returned, some call comes closer to its end. -/
theorem exists_moves (hi : s.calls[i]? = some call) (hreturned : ¬ call.Returned) :
    ∃ (j : ℕ) (call' : SubmitCall) (phase : SubmitPhase), s.calls[j]? = some call' ∧
      phase.weight < call'.phase.weight ∧ (s.step settings offerings (.advance j 0)).calls =
        s.calls.set j { call' with phase := phase } := by
  have hmoves : ∀ (j : ℕ) (call' : SubmitCall), s.calls[j]? = some call' → ¬ call'.Returned →
      (∀ rows, call'.phase = .inserting rows → s.blocked j call'.request = false) →
      ∃ (j : ℕ) (call' : SubmitCall) (phase : SubmitPhase), s.calls[j]? = some call' ∧
        phase.weight < call'.phase.weight ∧ (s.step settings offerings (.advance j 0)).calls =
          s.calls.set j { call' with phase := phase } := by
    intro j call' hj hreturned hfree
    obtain ⟨phase, hcalls, hless⟩ := advance_moves settings hreturned hfree 0
    exact ⟨j, call', phase, hj, hless, by simp only [step, hj, hcalls]⟩
  rcases hblocked : s.blocked i call.request with _ | _
  · exact hmoves i call hi hreturned fun _ _ => hblocked
  · obtain ⟨j, call', rows, hj, hphase⟩ := exists_committing hblocked
    refine hmoves j call' hj ?_ ?_
    · rintro ⟨result, hdone⟩
      rw [hphase] at hdone
      cases hdone
    · intro rows' hinserting
      rw [hphase] at hinserting
      cases hinserting

/-- Every call returns when the calls move on. -/
theorem exists_returned (hi : s.calls[i]? = some call) :
    ∃ actions call', (Transition.run (step settings offerings) s actions).calls[i]? =
      some call' ∧ call'.request = call.request ∧ call'.Returned := by
  -- The steps that all calls together still make at most become fewer.
  induction hn : s.weight using Nat.strong_induction_on generalizing s call with
  | _ n ih =>
    by_cases hreturned : call.Returned
    · exact ⟨[], call, hi, rfl, hreturned⟩
    obtain ⟨j, callj, phase, hj, hless, hcalls⟩ := exists_moves settings offerings hi hreturned
    have hsum := List.sum_map_set (fun c : SubmitCall => c.phase.weight) hj
      { callj with phase := phase }
    have hweight : (s.step settings offerings (.advance j 0)).weight < n := by
      rw [weight, hcalls, ← hn, weight]
      simp only at hsum
      omega
    -- The call itself is still there, at most one phase on.
    have hcall : ∃ call', (s.step settings offerings (.advance j 0)).calls[i]? = some call' ∧
        call'.request = call.request := by
      rw [hcalls]
      by_cases hij : j = i
      · subst hij
        obtain rfl := Option.some.inj (hi.symm.trans hj)
        refine ⟨{ call with phase := phase }, ?_, rfl⟩
        rw [List.getElem?_set_self', hj]
        rfl
      · exact ⟨call, by rw [List.getElem?_set_ne hij, hi], rfl⟩
    obtain ⟨call', hi', hrequest⟩ := hcall
    obtain ⟨actions, call'', hrun, hrequest', hdone⟩ := ih _ hweight hi' rfl
    exact ⟨.advance j 0 :: actions, call'', hrun, hrequest'.trans hrequest, hdone⟩

end

end Service

/-- In every run whose inserts find no Execution committed since the lookup, at most
one Execution is created for a key and every call that has returned answered with it or
with the conflict; and every call returns. -/
theorem submit_idempotent (settings : Settings)
    (offerings : RuntimeType → Option RuntimeOffering) (actions : List SubmitAction)
    (h : Transition.Along (Service.step settings offerings) Unraced {} actions) :
    Answers settings offerings (Transition.run (Service.step settings offerings) {} actions) ∧
    ∀ (i : ℕ) (call : SubmitCall),
      (Transition.run (Service.step settings offerings) {} actions).calls[i]? = some call →
      ∃ actions' call', (Transition.run (Service.step settings offerings) {}
          (actions ++ actions')).calls[i]? = some call' ∧
        call'.request = call.request ∧ call'.Returned := by
  refine ⟨?_, fun i call hi => ?_⟩
  · have hinv := Transition.invariant (I := Service.Inv settings offerings)
      (fun s action hs hok => hs.step hok) .init h
    exact hinv.answers
  · obtain ⟨actions', call', hcall', hrequest, hreturned⟩ :=
      Service.exists_returned settings offerings hi
    rw [← Transition.run_append] at hcall'
    exact ⟨actions', call', hcall', hrequest, hreturned⟩

/-! ### Two calls with one key -/

namespace Small

/-- A SINGLE Execution of a tenant. -/
def submitRequest : SubmitRequest where
  toSubmitExecutionCommand := command .single
  tenantId := "team"

/-- A Runtime with the profile of the request. -/
def offerings : RuntimeType → Option RuntimeOffering :=
  fun _ => some ⟨["python"], true⟩

/-- The same request again, with another Execution at hand. -/
def repeatedRequest : SubmitRequest :=
  { submitRequest with executionId := 2, operationId := 20 }

/-- A call that returns, its repeat, and one with other content. -/
def repeatedSubmits : List SubmitAction :=
  [.submit submitRequest, .advance 0 0, .advance 0 0, .advance 0 0, .submit repeatedRequest,
    .advance 1 1, .submit { repeatedRequest with requestFingerprint := 102 }, .advance 2 2]

/-- Both calls look the key up; the first commits before the second inserts. -/
def overlappingSubmits : List SubmitAction :=
  [.submit submitRequest, .submit repeatedRequest, .advance 0 0, .advance 1 0, .advance 0 0,
    .advance 0 0, .advance 1 0]

theorem repeatedRequest_accepted : repeatedRequest.Accepted settings offerings := by
  refine ⟨by decide +kernel, fun now => ⟨_, rfl⟩⟩

end Small

theorem submit_idempotent_repeatedSubmits :
    Transition.Along (Service.step Small.settings Small.offerings) Unraced {}
      Small.repeatedSubmits ∧
    Answers Small.settings Small.offerings
      (Transition.run (Service.step Small.settings Small.offerings) {} Small.repeatedSubmits) := by
  have h : Transition.Along (Service.step Small.settings Small.offerings) Unraced {}
      Small.repeatedSubmits := by
    refine ⟨trivial, ?_, ?_, ?_, trivial, ?_, trivial, ?_, trivial⟩ <;>
      intro call rows hi hphase <;> obtain rfl := Option.some.inj hi
    · cases hphase
    · rfl
    · cases hphase
    · cases hphase
    · cases hphase
  exact ⟨h, (submit_idempotent _ _ _ h).1⟩

/-- The second of two overlapping calls ends in the driver's error. -/
theorem overlapping_submit_fails :
    ¬ ∀ (settings : Settings) (offerings : RuntimeType → Option RuntimeOffering)
      (actions : List SubmitAction), Answers settings offerings
        (Transition.run (Service.step settings offerings) {} actions) := by
  intro h
  obtain ⟨_, hanswers⟩ := h Small.settings Small.offerings Small.overlappingSubmits
  obtain ⟨x, _, _, hsame, hother⟩ := hanswers ⟨Small.repeatedRequest,
    .done (.error .integrityError)⟩ (List.mem_of_getElem? (i := 1) rfl) Small.repeatedRequest_accepted _ rfl
  by_cases hfingerprint : x.tables.execution.requestFingerprint =
      Small.repeatedRequest.requestFingerprint
  · obtain ⟨_, _, hok⟩ := hsame hfingerprint
    cases hok
  · exact nomatch hother hfingerprint

end ExecutorService
