/-
Calls of the lifecycle commands (`application/services/lifecycle.py`, `operations.py`).

A call looks for a record of its key; finds none, locks the Execution, applies the
command and commits; and looks once more if the commit met a conflict.  The lock is
held up to the commit, so the second part is one step; other calls and Worker
transactions run between the parts.

* `CommandService.step` — a call moves on, or a Worker transaction commits;
* `IdempotentStep` — what a call that returns must return;
* `Undisturbed` — the condition on a step: a call that locks the Execution was not
  overtaken by one with its key, a cancel records its key, and the keys of a create
  and a finalize are not those of a submit, cancel or retry;
* `commands_idempotent` — in every run of such steps every return is right, no command
  takes effect twice, and every call returns.
-/
import ExecutorService.CommandKeys
import ExecutorService.OperationMoves
import ExecutorService.Positions

namespace ExecutorService

/-! ### Commands -/

/-- The errors of a command. -/
inductive CommandError
  | store (error : StoreError)
  /-- The database driver's own error. -/
  | integrityError
  deriving DecidableEq, Repr

/-- The kinds of commands. -/
inductive CommandKind
  | cancel | retry | finalize | create
  deriving DecidableEq, Repr

/-- The commands on an Execution, with what a caller gives. -/
inductive Command
  | cancel (idempotencyKey : Key) (reason : Option String)
  | retry (idempotencyKey : Key)
  | finalize (idempotencyKey requestFingerprint : Key) (expectedVersion : ℕ)
  | create (specSchemaVersion : String) (command : CreateOperationCommand)

/-- A command's key and content; a cancel and a retry are known by their key alone. -/
structure CommandIdentity where
  kind : CommandKind
  idempotencyKey : Key
  requestFingerprint : Option Key := none
  deriving DecidableEq, Repr

/-- The Operation that a retry and a create return. -/
abbrev CommandResult := Except CommandError (Option UUID)

/-- What a call does once it has the lock. -/
inductive LockedResult
  | unchanged
  | committed (rows : Tables) (operationId : Option UUID)
  | conflict
  | failed (error : CommandError)

/-- A violated constraint at the commit is a conflict; other errors leave the call. -/
def LockedResult.of (operationId : Option UUID) : Txn Tables → LockedResult
  | .ok rows => .committed rows operationId
  | .error .persistenceConflict => .conflict
  | .error error => .failed (.store error)

namespace Command

/-- The key of a command. -/
def idempotencyKey : Command → Key
  | .cancel key _ => key
  | .retry key => key
  | .finalize key _ _ => key
  | .create _ c => c.idempotencyKey

/-- What a command is remembered by: its kind, its key and its fingerprint. -/
def identity : Command → CommandIdentity
  | .cancel key _ => ⟨.cancel, key, none⟩
  | .retry key => ⟨.retry, key, none⟩
  | .finalize key fingerprint _ => ⟨.finalize, key, some fingerprint⟩
  | .create _ c => ⟨.create, c.idempotencyKey, some c.requestFingerprint⟩

/-- The commands that leave a receipt. -/
def hasReceipt : Command → Bool
  | .finalize .. | .create .. => true
  | _ => false

/-- `get_by_cancel_key`, `get_by_retry_key` or `get_command_receipt`, and what the call
returns for what it finds. -/
def lookup (t : Tables) : Command → Option CommandResult
  | .cancel key _ =>
    if t.execution.cancelIdempotencyKey = some key then some (.ok none) else none
  | .retry key =>
    if key ∈ t.retries then some (match t.execution.activeOperationId with
      | some operationId => .ok (some operationId)
      -- `required_operation_id`
      | none => .error (.store .persistenceConflict))
    else none
  | .finalize key fingerprint _ => (t.commandReceipt? key).map fun receipt =>
      match Tables.ensureSameReceipt receipt "execution_finalize" fingerprint with
      | .ok () => .ok none
      | .error error => .error (.store error)
  | .create _ c => (t.commandReceipt? c.idempotencyKey).map fun receipt =>
      match Tables.ensureSameReceipt receipt "execution_operation_create" c.requestFingerprint with
      | .ok () => match receipt.operationId with
        | some operationId => .ok (some operationId)
        -- `operation_id_from_receipt`
        | none => .error (.store .persistenceConflict)
      | .error error => .error (.store error)

end Command

namespace Tables

/-- The receipt of a command; its key is unique among those of the Execution. -/
def addCommandReceipt (receipt : CommandReceipt) (t : Tables) : Txn Tables :=
  if (t.commandReceipt? receipt.idempotencyKey).isSome then .error .persistenceConflict
  else .ok { t with receipts := t.receipts ++ [receipt] }

/-- `add_retry_receipt`; the key is unique among the retries of the Execution. -/
def addRetryReceipt (key : Key) (t : Tables) : Txn Tables :=
  if key ∈ t.retries then .error .persistenceConflict
  else .ok { t with retries := t.retries ++ [key] }

/-- The flush of `add_operation` violates a constraint. -/
def operationTaken (operation : OperationRow) (t : Tables) : Bool :=
  t.operations.any fun o => o.id == operation.id ||
    o.operationNumber == operation.operationNumber ||
    o.idempotencyKey == operation.idempotencyKey

end Tables

namespace Command

/-- The rest of `create` once `request_operation` has accepted. -/
def createLocked (settings : Settings) (now : Time) (c : CreateOperationCommand) (t : Tables)
    (e : Execution) : Txn LockedResult := do
  validateStepLimits settings t.steps.length c.steps.length
  validateTimeouts settings c.operationTimeoutSeconds c.steps
  validateOperationSteps t.steps.length c.steps
  let steps ← snapshotSources now c.operationId c.steps
  let operation := newOperation now c.operationId c.idempotencyKey c.requestFingerprint
    t.nextOperationNumber c.operationTimeoutSeconds c.steps
  let t ← t.save { e with activeOperationId := some c.operationId } (t.steps ++ steps)
  -- The flush of the Operation; the Steps and the receipt follow at the commit.
  if t.operationTaken operation then return .failed .integrityError
  else
    let t ← t.appendOperation operation steps
    let t ← t.addCommandReceipt ⟨c.idempotencyKey, "execution_operation_create",
      c.requestFingerprint, some c.operationId⟩
    return .committed t (some c.operationId)

/-- What a call does from its lock of the Execution on. -/
def locked (settings : Settings) (now : Time) (t : Tables) : Command → LockedResult
  | .cancel key reason =>
    if t.execution.status = .cancelRequested then .unchanged
    else .of none do
      let e ← t.execution.toExecution.requestCancel now key reason
      t.save e t.steps
  | .retry key => match t.execution.toExecution.requestRetry now with
    | .error error => .failed (.store error)
    | .ok e => match e.activeOperationId, e.retryFromSequence with
      | some operationId, some fromSequence => .of (some operationId) do
        let t ← t.save e (t.steps.map (Execution.resetStep now fromSequence))
        let t ← t.requeueOperationForRetry now operationId
        t.addRetryReceipt key
      -- `required_operation_id`
      | _, _ => .conflict
  | .finalize key fingerprint expectedVersion => .of none do
      let e ← t.execution.toExecution.requestFinalization now expectedVersion t.steps
      let t ← t.save e t.steps
      t.addCommandReceipt ⟨key, "execution_finalize", fingerprint, none⟩
  | .create _ c => match t.execution.toExecution.requestOperation now c.expectedVersion with
    | .error error => .failed (.store error)
    | .ok e => match createLocked settings now c t e with
      | .ok result => result
      | .error .persistenceConflict => .conflict
      | .error error => .failed (.store error)

/-- The transaction of the store that a command is. -/
def transaction (now : Time) : Command → TableTransaction
  | .cancel key reason => .cancel now key reason
  | .retry key => .retry now key
  | .finalize key fingerprint expectedVersion => .finalizeCommand now key fingerprint expectedVersion
  | .create _ c => .createOperation now c

end Command

/-! ### Calls -/

/-- Where a call is: before its lookup, before its lock, before the second lookup that
follows a conflict, or returned. -/
inductive CallPhase
  | looking
  | locking
  | resolving
  | done (result : CommandResult)
  deriving DecidableEq

/-- A call.  `applied` says that its transaction changed the Execution. -/
structure CommandCall where
  command : Command
  phase : CallPhase
  applied : Bool := false

/-- An Execution and the calls on it. -/
structure CommandService where
  history : History
  calls : List CommandCall := []

/-- What happens next: a call, a session of one, or another transaction. -/
inductive CommandAction
  | call (command : Command)
  | advance (call : ℕ) (now : Time)
  /-- A transaction of a Worker or an audit. -/
  | transaction (transaction : Transaction)

namespace CommandService

/-- The rows of the Execution. -/
def tables (s : CommandService) : Tables :=
  s.history.rows.tables

/-- One call goes on. -/
def setCall (s : CommandService) (i : ℕ) (call : CommandCall) : CommandService :=
  { s with calls := s.calls.set i call }

/-- One session of a call. -/
def advance (settings : Settings) (s : CommandService) (i : ℕ) (call : CommandCall) (now : Time) :
    CommandService :=
  match call.phase with
  | .looking => match call.command.lookup s.tables with
    | some (.error (.store .persistenceConflict)) => s.setCall i { call with phase := .resolving }
    | some result => s.setCall i { call with phase := .done result }
    | none => s.setCall i { call with phase := .locking }
  | .locking => match call.command.locked settings now s.tables with
    | .unchanged => s.setCall i { call with phase := .done (.ok none) }
    | .committed rows operationId =>
      { s with history := { s.history with rows := { s.history.rows with tables := rows } } }.setCall
        i { call with phase := .done (.ok operationId), applied := true }
    | .conflict => s.setCall i { call with phase := .resolving }
    | .failed error => s.setCall i { call with phase := .done (.error error) }
  | .resolving => match call.command.lookup s.tables with
    | some result => s.setCall i { call with phase := .done result }
    | none => s.setCall i { call with phase := .done (.error (.store .idempotencyConflict)) }
  | .done _ => s

/-- What a handler checks before anything else. -/
def entry : Command → CallPhase
  | .create specSchemaVersion _ =>
    if specSchemaVersion ≠ "1.0" then
      .done (.error (.store (.invalidSpec "unsupported_schema_version")))
    else .looking
  | _ => .looking

/-- One action. -/
def step (settings : Settings) (s : CommandService) : CommandAction → CommandService
  | .call command => { s with calls := s.calls ++ [{ command := command, phase := entry command }] }
  | .advance i now => match s.calls[i]? with
    | some call => s.advance settings i call now
    | none => s
  | .transaction (.table eventTime tx) =>
    if tx.isCommand then s
    else { s with history := s.history.step settings (.table eventTime tx) }
  | .transaction (.log tx) => { s with history := s.history.step settings (.log tx) }

end CommandService

/-! ### Idempotency -/

/-- The call has returned. -/
def CommandCall.Returned (call : CommandCall) : Prop :=
  ∃ result, call.phase = .done result

/-- The call has returned without an error. -/
def CommandCall.Succeeded (call : CommandCall) : Prop :=
  ∃ operationId, call.phase = .done (.ok operationId)

/-- The key was used on the Execution for something else: it is the submit key, or a
call of another command or with other content succeeded with it. -/
def CommandService.UsedOtherwise (s : CommandService) (command : Command) : Prop :=
  s.tables.execution.idempotencyKey = command.idempotencyKey ∨
    ∃ other ∈ s.calls, other.Succeeded ∧
      other.command.idempotencyKey = command.idempotencyKey ∧
      other.command.identity ≠ command.identity

/-- A call that returns succeeds if one with its key and content succeeded before, and a
create or finalize meets the conflict if its key was used for something else. -/
def IdempotentStep (settings : Settings) (s : CommandService) : CommandAction → Prop
  | .advance i now => ∀ call call' result, s.calls[i]? = some call → ¬ call.Returned →
      (s.step settings (.advance i now)).calls[i]? = some call' → call'.phase = .done result →
      ((∃ other ∈ s.calls, other.Succeeded ∧ other.command.identity = call.command.identity) →
        ∃ operationId, result = .ok operationId) ∧
      (call.command.hasReceipt = true → s.UsedOtherwise call.command →
        result = .error (.store .idempotencyConflict))
  | _ => True

/-- A call that locks the Execution: no call with its key committed since its lookup (or
the command is accepted all the same and meets the conflict of its key at the commit), and
a cancel finds a pending cancellation only if it is its own. -/
def Command.Undisturbed (now : Time) (t : Tables) : Command → Prop
  | .cancel key _ => t.execution.status = .cancelRequested ↔
      t.execution.cancelIdempotencyKey = some key
  | .retry key => key ∈ t.retries →
      ∃ e, t.execution.toExecution.requestRetry now = .ok e
  | .finalize key _ expectedVersion => (t.commandReceipt? key).isSome →
      ∃ e, t.execution.toExecution.requestFinalization now expectedVersion t.steps = .ok e
  | .create _ c => t.commandReceipt? c.idempotencyKey = none

/-- The key is not that of the submit, the cancel or a retry. -/
def Tables.ReceiptKey (t : Tables) (key : Key) : Prop :=
  t.execution.idempotencyKey ≠ key ∧ t.execution.cancelIdempotencyKey ≠ some key ∧
    key ∉ t.retries

/-- The condition on a step: a call at its lock is not overtaken, and its key is not one that
a command without a receipt has. -/
def Undisturbed (s : CommandService) : CommandAction → Prop
  | .advance i now => ∀ call, s.calls[i]? = some call →
      (call.phase = .locking → call.command.Undisturbed now s.tables) ∧
      (call.command.hasReceipt = true → ¬ call.Returned →
        s.tables.ReceiptKey call.command.idempotencyKey)
  | _ => True

/-! ### Records -/

/-- The command left its record. -/
def Command.Recorded (t : Tables) : Command → Prop
  | .cancel key _ => t.execution.cancelIdempotencyKey = some key
  | .retry key => key ∈ t.retries
  | .finalize key fingerprint _ => ∃ receipt, t.commandReceipt? key = some receipt ∧
      receipt.commandType = "execution_finalize" ∧ receipt.requestFingerprint = fingerprint
  | .create _ c => ∃ receipt, t.commandReceipt? c.idempotencyKey = some receipt ∧
      receipt.commandType = "execution_operation_create" ∧
      receipt.requestFingerprint = c.requestFingerprint ∧ receipt.operationId.isSome = true

/-- Records stay. -/
structure Tables.KeepsRecords (t t' : Tables) : Prop where
  cancel : ∀ key, t.execution.cancelIdempotencyKey = some key →
    t'.execution.cancelIdempotencyKey = some key
  retries : ∀ key ∈ t.retries, key ∈ t'.retries
  receipts : ∀ key receipt, t.commandReceipt? key = some receipt →
    t'.commandReceipt? key = some receipt

namespace Command

variable {command other : Command} {t t' : Tables}

theorem Recorded.keep (h : command.Recorded t) (hkeeps : t.KeepsRecords t') :
    command.Recorded t' := by
  cases command with
  | cancel key reason => exact hkeeps.cancel key h
  | retry key => exact hkeeps.retries key h
  | finalize key fingerprint expectedVersion =>
    obtain ⟨receipt, hreceipt, hsame⟩ := h
    exact ⟨receipt, hkeeps.receipts key receipt hreceipt, hsame⟩
  | create specSchemaVersion c =>
    obtain ⟨receipt, hreceipt, hsame⟩ := h
    exact ⟨receipt, hkeeps.receipts c.idempotencyKey receipt hreceipt, hsame⟩

/-- The record is that of every call with the key and content. -/
theorem Recorded.congr (h : other.Recorded t) (hidentity : other.identity = command.identity) :
    command.Recorded t := by
  cases other <;> cases command <;> simp only [identity, CommandIdentity.mk.injEq, reduceCtorEq,
    false_and, true_and, Option.some.injEq] at hidentity
  · obtain ⟨rfl, _⟩ := hidentity
    exact h
  · obtain ⟨rfl, _⟩ := hidentity
    exact h
  · obtain ⟨rfl, rfl⟩ := hidentity
    exact h
  · simp only [Recorded] at h ⊢
    rw [← hidentity.1, ← hidentity.2]
    exact h

theorem ensureSameReceipt_ok {receipt : CommandReceipt} {commandType : String} {fingerprint : Key} :
    Tables.ensureSameReceipt receipt commandType fingerprint = .ok () ↔
      receipt.commandType = commandType ∧ receipt.requestFingerprint = fingerprint := by
  unfold Tables.ensureSameReceipt
  split
  next h =>
    refine ⟨(fun hno => nomatch hno), fun hsame => ?_⟩
    exact absurd hsame (not_and_or.mpr h)
  next h =>
    refine ⟨fun _ => ?_, fun _ => rfl⟩
    simpa [not_or] using h

theorem ensureSameReceipt_conflict {receipt : CommandReceipt} {commandType : String}
    {fingerprint : Key} (h : receipt.commandType ≠ commandType ∨
      receipt.requestFingerprint ≠ fingerprint) :
    Tables.ensureSameReceipt receipt commandType fingerprint = .error .idempotencyConflict :=
  if_pos h

/-- A call finds its record and succeeds. -/
theorem Recorded.lookup (h : command.Recorded t) (hactive : t.execution.activeOperationId ≠ none) :
    ∃ operationId, command.lookup t = some (.ok operationId) := by
  cases command with
  | cancel key reason => exact ⟨none, if_pos h⟩
  | retry key =>
    obtain ⟨operationId, hoperation⟩ := Option.ne_none_iff_exists'.mp hactive
    refine ⟨some operationId, ?_⟩
    rw [Command.lookup, if_pos (show key ∈ t.retries from h), hoperation]
  | finalize key fingerprint expectedVersion =>
    obtain ⟨receipt, hreceipt, hsame⟩ := h
    refine ⟨none, ?_⟩
    rw [Command.lookup, hreceipt, Option.map_some, ensureSameReceipt_ok.mpr hsame]
  | create specSchemaVersion c =>
    obtain ⟨receipt, hreceipt, htype, hfingerprint, hoperation⟩ := h
    obtain ⟨operationId, hoperation⟩ := Option.isSome_iff_exists.mp hoperation
    refine ⟨some operationId, ?_⟩
    rw [Command.lookup, hreceipt, Option.map_some, ensureSameReceipt_ok.mpr ⟨htype, hfingerprint⟩]
    simp only [hoperation]

theorem recorded_of_lookup {operationId : Option UUID}
    (h : command.lookup t = some (.ok operationId)) : command.Recorded t := by
  cases command with
  | cancel key reason =>
    simp only [Command.lookup] at h
    split at h
    next hkey => exact hkey
    · cases h
  | retry key =>
    simp only [Command.lookup] at h
    split at h
    next hkey => exact hkey
    · cases h
  | finalize key fingerprint expectedVersion =>
    obtain ⟨receipt, hreceipt, h⟩ := Option.map_eq_some_iff.mp h
    split at h
    next hsame => exact ⟨receipt, hreceipt, ensureSameReceipt_ok.mp hsame⟩
    · cases h
  | create specSchemaVersion c =>
    obtain ⟨receipt, hreceipt, h⟩ := Option.map_eq_some_iff.mp h
    split at h
    next hsame =>
      obtain ⟨htype, hfingerprint⟩ := ensureSameReceipt_ok.mp hsame
      split at h
      next hoperation =>
        refine ⟨receipt, hreceipt, htype, hfingerprint, ?_⟩
        rw [hoperation]
        rfl
      · cases h
    · cases h

/-- A create or finalize whose key another command has recorded finds its receipt. -/
theorem Recorded.receipt (h : other.Recorded t) (hreceipt : command.hasReceipt = true)
    (hkey : other.idempotencyKey = command.idempotencyKey)
    (hown : t.ReceiptKey command.idempotencyKey) :
    ∃ receipt, t.commandReceipt? command.idempotencyKey = some receipt ∧
      (other.identity ≠ command.identity →
        command.lookup t = some (.error (.store .idempotencyConflict))) := by
  -- Cancel and retry leave no receipt: their keys are on the row and among the retries.
  obtain ⟨_, hcancel, hretry⟩ := hown
  cases other with
  | cancel key reason => exact absurd (h.trans (congrArg some hkey)) hcancel
  | retry key => exact absurd (hkey ▸ h) hretry
  | finalize key fingerprint expectedVersion =>
    obtain ⟨receipt, hfound, htype, hfingerprint⟩ := h
    rw [show key = command.idempotencyKey from hkey] at hfound
    refine ⟨receipt, hfound, fun hother => ?_⟩
    cases command with
    | cancel key reason => cases hreceipt
    | retry key => cases hreceipt
    | finalize key' fingerprint' expectedVersion' =>
      have hcontent : receipt.requestFingerprint ≠ fingerprint' := by
        rintro rfl
        exact hother (by rw [identity, identity, show key = key' from hkey, hfingerprint])
      -- Same kind of command: only the fingerprint can tell them apart.
      rw [Command.lookup, show t.commandReceipt? key' = some receipt from hfound, Option.map_some,
        ensureSameReceipt_conflict (.inr hcontent)]
    | create specSchemaVersion c =>
      -- Another kind: the stored type already differs.
      have hkind : receipt.commandType ≠ "execution_operation_create" := by
        rw [htype]
        decide
      rw [Command.lookup, show t.commandReceipt? c.idempotencyKey = some receipt from hfound,
        Option.map_some, ensureSameReceipt_conflict (.inl hkind)]
  | create specSchemaVersion c =>
    obtain ⟨receipt, hfound, htype, hfingerprint, _⟩ := h
    rw [show c.idempotencyKey = command.idempotencyKey from hkey] at hfound
    refine ⟨receipt, hfound, fun hother => ?_⟩
    cases command with
    | cancel key reason => cases hreceipt
    | retry key => cases hreceipt
    | finalize key' fingerprint' expectedVersion' =>
      have hkind : receipt.commandType ≠ "execution_finalize" := by
        rw [htype]
        decide
      rw [Command.lookup, show t.commandReceipt? key' = some receipt from hfound, Option.map_some,
        ensureSameReceipt_conflict (.inl hkind)]
    | create specSchemaVersion' c' =>
      have hcontent : receipt.requestFingerprint ≠ c'.requestFingerprint := by
        intro hsame
        refine hother ?_
        rw [identity, identity, show c.idempotencyKey = c'.idempotencyKey from hkey, ← hfingerprint,
          hsame]
      rw [Command.lookup, show t.commandReceipt? c'.idempotencyKey = some receipt from hfound,
        Option.map_some, ensureSameReceipt_conflict (.inr hcontent)]

end Command

/-! ### Commits -/

theorem LockedResult.of_committed {operationId operationId' : Option UUID} {x : Txn Tables}
    {rows : Tables} (h : LockedResult.of operationId x = .committed rows operationId') :
    x = .ok rows := by
  rcases x with error | t
  · cases error <;> cases h
  · cases h
    rfl

/-- The only error is the conflict. -/
def Txn.OnlyConflicts {α : Type} (x : Txn α) : Prop :=
  ∀ error, x = .error error → error = .persistenceConflict

theorem Txn.OnlyConflicts.bind {α β : Type} {x : Txn α} {f : α → Txn β} (hx : x.OnlyConflicts)
    (hf : ∀ a, (f a).OnlyConflicts) : (x >>= f).OnlyConflicts := by
  intro error herror
  rcases x with e | a
  · cases herror
    exact hx error rfl
  · exact hf a error herror

theorem LockedResult.of_conflict {operationId : Option UUID} {x : Txn Tables}
    (hfails : ∀ rows, x ≠ .ok rows) (hconflicts : x.OnlyConflicts) :
    LockedResult.of operationId x = .conflict := by
  rcases hx : x with error | rows
  · rw [hconflicts error hx]
    rfl
  · exact absurd hx (hfails rows)

namespace Tables

variable {t t' : Tables}

theorem save_onlyConflicts (e : Execution) (steps : List ExecutionStep) (t : Tables) :
    (t.save e steps).OnlyConflicts := by
  intro error herror
  unfold save at herror
  split at herror <;> cases herror
  rfl

theorem requeueOperationForRetry_onlyConflicts (now : Time) (operationId : UUID) (t : Tables) :
    (t.requeueOperationForRetry now operationId).OnlyConflicts := by
  intro error herror
  unfold requeueOperationForRetry at herror
  split at herror <;> cases herror
  rfl

theorem addRetryReceipt_onlyConflicts (key : Key) (t : Tables) :
    (t.addRetryReceipt key).OnlyConflicts := by
  intro error herror
  unfold addRetryReceipt at herror
  split at herror <;> cases herror
  rfl

theorem addCommandReceipt_onlyConflicts (receipt : CommandReceipt) (t : Tables) :
    (t.addCommandReceipt receipt).OnlyConflicts := by
  intro error herror
  unfold addCommandReceipt at herror
  split at herror <;> cases herror
  rfl

theorem save_version {e : Execution} {steps : List ExecutionStep} (h : t.save e steps = .ok t') :
    t'.execution.version = t.execution.version + 1 := by
  unfold save at h
  split at h
  · cases h
  next hversion =>
    cases h
    exact (not_not.mp hversion).symm

theorem requeueOperationForRetry_ok {now : Time} {operationId : UUID}
    (h : t.requeueOperationForRetry now operationId = .ok t') :
    t'.execution = t.execution ∧ t'.retries = t.retries := by
  unfold requeueOperationForRetry at h
  split at h
  · cases h
  · cases h
    exact ⟨rfl, rfl⟩

theorem addCommandReceipt_ok {receipt : CommandReceipt}
    (h : t.addCommandReceipt receipt = .ok t') :
    t.commandReceipt? receipt.idempotencyKey = none ∧
      t' = { t with receipts := t.receipts ++ [receipt] } := by
  unfold addCommandReceipt at h
  split at h
  · cases h
  next hnone =>
    cases h
    exact ⟨Option.not_isSome_iff_eq_none.mp hnone, rfl⟩

theorem addRetryReceipt_ok {key : Key} (h : t.addRetryReceipt key = .ok t') :
    key ∉ t.retries ∧ t' = { t with retries := t.retries ++ [key] } := by
  unfold addRetryReceipt at h
  split at h
  · cases h
  next hnone =>
    cases h
    exact ⟨hnone, rfl⟩

/-- A cancelled Execution has its key for good. -/
def CancelledClosed (t : Tables) : Prop :=
  t.execution.cancelIdempotencyKey ≠ none → t.execution.isClosed = true

theorem CancelledClosed.key_eq_none (h : t.CancelledClosed)
    (hopen : t.execution.isClosed = false) : t.execution.cancelIdempotencyKey = none := by
  by_contra hkey
  exact Bool.false_ne_true (hopen.symm.trans (h hkey))

end Tables

namespace Command

variable {settings : Settings} {now : Time} {command : Command} {t t' : Tables}
  {operationId : Option UUID}

/-- A cancel that commits found the Execution open. -/
theorem locked_cancel_open {key : Key} {reason : Option String}
    (h : (Command.cancel key reason).locked settings now t = .committed t' operationId) :
    t.execution.isClosed = false := by
  simp only [locked] at h
  split at h
  · cases h
  next hstatus =>
    have h := LockedResult.of_committed h
    simp only [Txn.bind_ok] at h
    obtain ⟨e, he, _⟩ := h
    unfold Execution.requestCancel at he
    split at he
    · cases he
    next hterminal =>
      unfold ExecutionRow.isClosed
      rcases hcase : t.execution.status <;> simp_all [ExecutionStatus.isTerminal]

/-- A call that commits takes the step of its transaction. -/
theorem locked_transaction (hclosed : t.CancelledClosed)
    (h : command.locked settings now t = .committed t' operationId) (log : EventLog) :
    (command.transaction now).change settings ⟨t, log⟩ = .ok { tables := t' } ∧
      t'.execution.version = t.execution.version + 1 ∧ command.lookup t = none := by
  cases command with
  | cancel key reason =>
    -- The row is open under the lock, so no cancellation key is stored yet.
    have hopen := locked_cancel_open h
    have hkey : t.execution.cancelIdempotencyKey ≠ some key := by
      rw [hclosed.key_eq_none hopen]
      exact (Option.some_ne_none key).symm
    simp only [locked] at h
    split at h
    · cases h
    next hstatus =>
      have h := LockedResult.of_committed h
      refine ⟨?_, ?_, if_neg hkey⟩
      · refine Txn.quiet_ok.mpr ⟨t', ?_, rfl⟩
        rw [Tables.cancel, if_neg hkey, if_neg hstatus]
        exact h
      · simp only [Txn.bind_ok] at h
        obtain ⟨e, _, hsave⟩ := h
        exact Tables.save_version hsave
  | retry key =>
    simp only [locked] at h
    split at h
    · cases h
    next e he =>
      split at h
      next operationId fromSequence hoperation hfrom =>
        have h := LockedResult.of_committed h
        simp only [Txn.bind_ok] at h
        obtain ⟨saved, hsaved, requeued, hrequeued, hreceipt⟩ := h
        obtain ⟨hfresh, rfl⟩ := Tables.addRetryReceipt_ok hreceipt
        have hversion := Tables.save_version hsaved
        obtain ⟨hrow, hretries⟩ := Tables.requeueOperationForRetry_ok hrequeued
        -- The receipt could be added, so the key was not among the retries before.
        have hkey : key ∉ t.retries := by
          rw [hretries, Tables.save_ok hsaved] at hfresh
          exact hfresh
        refine ⟨Txn.quiet_ok.mpr ⟨_, ?_, rfl⟩, ?_, if_neg hkey⟩
        · rw [Tables.retry, if_neg hkey]
          refine Txn.bind_ok.mpr ⟨e, he, ?_⟩
          simp only [hoperation, hfrom]
          exact Txn.bind_ok.mpr ⟨saved, hsaved, Txn.bind_ok.mpr ⟨requeued, hrequeued, rfl⟩⟩
        · exact (congrArg (·.version) hrow).trans hversion
      · cases h
  | finalize key fingerprint expectedVersion =>
    have h := LockedResult.of_committed h
    simp only [Txn.bind_ok] at h
    obtain ⟨e, he, saved, hsaved, hreceipt⟩ := h
    obtain ⟨hfresh, rfl⟩ := Tables.addCommandReceipt_ok hreceipt
    have hversion := Tables.save_version hsaved
    -- As with the retry: a receipt that could be added was not there.
    have hkey : t.commandReceipt? key = none := by
      rw [Tables.save_ok hsaved] at hfresh
      exact hfresh
    refine ⟨Txn.quiet_ok.mpr ⟨_, ?_, rfl⟩, hversion, ?_⟩
    · simp only [Tables.finalizeCommand, hkey, Txn.bind_ok, Txn.pure_ok]
      exact ⟨e, he, saved, hsaved, rfl⟩
    · rw [lookup, hkey, Option.map_none]
  | create specSchemaVersion c =>
    simp only [locked] at h
    split at h
    · cases h
    next e he =>
      split at h
      next result hresult =>
        subst h
        simp only [createLocked, Txn.bind_ok] at hresult
        -- Peel the checks of the call off in the order in which the source makes them.
        obtain ⟨_, hlimits, _, htimeouts, _, hsteps, steps, hsnapshot, saved, hsaved, hresult⟩ :=
          hresult
        split at hresult
        · cases hresult
        simp only [Txn.bind_ok, Txn.pure_ok] at hresult
        obtain ⟨appended, happended, receipted, hreceipt, hcommitted⟩ := hresult
        obtain ⟨rfl, _⟩ := LockedResult.committed.inj hcommitted
        obtain ⟨hfresh, rfl⟩ := Tables.addCommandReceipt_ok hreceipt
        have hversion := Tables.save_version hsaved
        obtain ⟨_, happend⟩ := Tables.appendOperation_ok happended
        have hkey : t.commandReceipt? c.idempotencyKey = none := by
          rw [happend, Tables.save_ok hsaved] at hfresh
          exact hfresh
        refine ⟨Txn.quiet_ok.mpr ⟨_, ?_, rfl⟩, ?_, ?_⟩
        · simp only [Tables.createOperation, hkey, Txn.bind_ok, Txn.pure_ok]
          exact ⟨e, he, (), hlimits, (), htimeouts, (), hsteps, steps, hsnapshot, saved, hsaved,
            appended, happended, rfl⟩
        · rw [happend]
          exact hversion
        · rw [lookup, hkey, Option.map_none]
      · cases h
      · cases h

/-- What a command that commits does to the records. -/
structure Effect (command : Command) (t t' : Tables) : Prop where
  fresh : ¬ command.Recorded t
  recorded : command.Recorded t'
  keeps : t.KeepsRecords t'
  closed : t'.CancelledClosed
  active : t'.execution.activeOperationId ≠ none

theorem keepsRecords_of_keys (h : t'.keyColumns = t.keyColumns) : t.KeepsRecords t' := by
  simp only [Tables.keyColumns, KeyColumns.mk.injEq] at h
  obtain ⟨_, _, _, hcancel, hretries, hreceipts, _⟩ := h
  refine ⟨fun key hkey => by rw [hcancel]; exact hkey, fun key hkey => by rw [hretries]; exact hkey,
    fun key receipt hreceipt => ?_⟩
  rw [Tables.commandReceipt?, hreceipts]
  exact hreceipt

/-- A receipt that is appended hides none. -/
theorem commandReceipt_append (receipts : List CommandReceipt) (new : CommandReceipt)
    (hnew : receipts.find? (·.idempotencyKey == new.idempotencyKey) = none) :
    (receipts ++ [new]).find? (·.idempotencyKey == new.idempotencyKey) = some new ∧
    ∀ key receipt, receipts.find? (·.idempotencyKey == key) = some receipt →
      (receipts ++ [new]).find? (·.idempotencyKey == key) = some receipt := by
  refine ⟨?_, fun key receipt hreceipt => ?_⟩
  · rw [List.find?_append, hnew, Option.none_or, List.find?_singleton, beq_self_eq_true, if_pos rfl]
  · rw [List.find?_append, hreceipt, Option.some_or]

theorem locked_effect (hclosed : t.CancelledClosed)
    (hactive : t.execution.activeOperationId ≠ none)
    (h : command.locked settings now t = .committed t' operationId) : command.Effect t t' := by
  obtain ⟨hchange, hversion, hfresh⟩ := locked_transaction hclosed h {}
  have hnew : ¬ command.Recorded t := by
    intro hrecorded
    obtain ⟨_, hlookup⟩ := hrecorded.lookup hactive
    rw [hfresh] at hlookup
    cases hlookup
  -- The transaction changed the rows: the version moved on.
  have hmoved : t' ≠ t := by
    rintro rfl
    omega
  cases command with
  | cancel key reason =>
    obtain ⟨u, hu, hc⟩ := Txn.quiet_ok.mp hchange
    obtain rfl : u = t' := congrArg Change.tables hc
    have hopen := locked_cancel_open h
    obtain ⟨_, _, rfl⟩ := (Tables.cancel_ok hu).resolve_left hmoved
    refine ⟨hnew, rfl, ⟨fun other hother => ?_, fun _ hmem => hmem, fun _ _ hreceipt => hreceipt⟩,
      fun _ => rfl, hactive⟩
    -- No other cancellation key can be on an open row.
    rw [hclosed.key_eq_none hopen] at hother
    cases hother
  | retry key =>
    obtain ⟨u, hu, hc⟩ := Txn.quiet_ok.mp hchange
    obtain rfl : u = t' := congrArg Change.tables hc
    obtain ⟨operation, fromSequence, hretryable, _, rfl⟩ := (Tables.retry_ok hu).resolve_left hmoved
    have hcolumns : (Tables.retriedRow now t.execution).cancelIdempotencyKey =
        t.execution.cancelIdempotencyKey ∧ (Tables.retriedRow now t.execution).activeOperationId =
          t.execution.activeOperationId := by
      unfold Tables.retriedRow
      split <;> exact ⟨rfl, rfl⟩
    have hopen : t.execution.isClosed = false := by
      rw [ExecutionRow.isClosed, hretryable.failed]
      rcases hretryable.strategy with ⟨hstrategy, _⟩ | ⟨hstrategy, _⟩ <;> rw [hstrategy] <;> rfl
    -- A retry adds its own key and keeps every other record.
    refine ⟨hnew, List.mem_append_right _ (List.mem_singleton_self key),
      ⟨fun other hother => hcolumns.1.trans hother, fun _ hmem => List.mem_append_left _ hmem,
        fun _ _ hreceipt => hreceipt⟩, fun hcancelled => ?_, ?_⟩
    · exact absurd (hcolumns.1.trans (hclosed.key_eq_none hopen)) hcancelled
    · exact hcolumns.2 ▸ hactive
  | finalize key fingerprint expectedVersion =>
    obtain ⟨u, hu, hc⟩ := Txn.quiet_ok.mp hchange
    obtain rfl : u = t' := congrArg Change.tables hc
    obtain ⟨_, hwaiting, rfl⟩ := (Tables.finalizeCommand_ok hu).resolve_left hmoved
    have hopen := ExecutionRow.isClosed_of_status hwaiting (.inr (.inr (.inl rfl)))
    -- The receipt goes to the end of the list, where it hides no earlier one.
    -- The same for the receipt of the new Operation.
    obtain ⟨hfound, hkept⟩ := commandReceipt_append t.receipts
      ⟨key, "execution_finalize", fingerprint, none⟩ (Option.map_eq_none_iff.mp hfresh)
    refine ⟨hnew, ⟨_, hfound, rfl, rfl⟩, ⟨fun _ hother => hother, fun _ hmem => hmem, hkept⟩,
      fun hcancelled => ?_, hactive⟩
    exact absurd (hclosed.key_eq_none hopen) hcancelled
  | create specSchemaVersion c =>
    obtain ⟨u, hu, hc⟩ := Txn.quiet_ok.mp hchange
    obtain rfl : u = t' := congrArg Change.tables hc
    obtain ⟨_, hwaiting, _, _, _, _, _, _, _, rfl⟩ := (Tables.createOperation_ok hu).resolve_left
      hmoved
    have hopen := ExecutionRow.isClosed_of_status hwaiting (.inr (.inr (.inl rfl)))
    obtain ⟨hfound, hkept⟩ := commandReceipt_append t.receipts
      ⟨c.idempotencyKey, "execution_operation_create", c.requestFingerprint,
        some c.operationId⟩ (Option.map_eq_none_iff.mp hfresh)
    refine ⟨hnew, ⟨_, hfound, rfl, rfl, rfl⟩, ⟨fun _ hother => hother, fun _ hmem => hmem, hkept⟩,
      fun hcancelled => ?_, Option.some_ne_none _⟩
    exact absurd (hclosed.key_eq_none hopen) hcancelled

/-- Only a cancel that finds one pending leaves the rows and succeeds. -/
theorem locked_unchanged (h : command.locked settings now t = .unchanged) :
    ∃ key reason, command = .cancel key reason ∧ t.execution.status = .cancelRequested := by
  have hof : ∀ {x : Txn Tables} {operationId : Option UUID},
      LockedResult.of operationId x ≠ .unchanged := by
    intro x operationId
    rcases x with error | rows
    · cases error <;> exact nofun
    · exact nofun
  cases command with
  | cancel key reason =>
    simp only [locked] at h
    split at h
    next hstatus => exact ⟨key, reason, rfl, hstatus⟩
    · exact absurd h hof
  | retry key =>
    simp only [locked] at h
    split at h
    · cases h
    split at h
    · exact absurd h hof
    · cases h
  | finalize key fingerprint expectedVersion => exact absurd h hof
  | create specSchemaVersion c =>
    simp only [locked] at h
    split at h
    · cases h
    split at h
    next result hresult =>
      subst h
      simp only [createLocked, Txn.bind_ok] at hresult
      obtain ⟨_, _, _, _, _, _, steps, _, saved, _, hresult⟩ := hresult
      split at hresult
      · cases hresult
      simp only [Txn.bind_ok] at hresult
      obtain ⟨_, _, _, _, hresult⟩ := hresult
      cases hresult
    · cases h
    · cases h

/-- A recorded key makes the commit fail, if the command is accepted at all. -/
theorem locked_conflict (hundisturbed : command.Undisturbed now t)
    (hkey : (∃ key, command = .retry key ∧ key ∈ t.retries) ∨
      (command.hasReceipt = true ∧ (t.commandReceipt? command.idempotencyKey).isSome = true)) :
    command.locked settings now t = .conflict := by
  rcases hkey with ⟨key, rfl, hmem⟩ | ⟨hreceipt, hsome⟩
  · obtain ⟨e, he⟩ := hundisturbed hmem
    simp only [locked, he]
    split
    next operationId fromSequence _ _ =>
      refine LockedResult.of_conflict (fun rows hrows => ?_) ?_
      · simp only [Txn.bind_ok] at hrows
        obtain ⟨saved, hsaved, requeued, hrequeued, hadded⟩ := hrows
        obtain ⟨hfresh, _⟩ := Tables.addRetryReceipt_ok hadded
        rw [(Tables.requeueOperationForRetry_ok hrequeued).2, Tables.save_ok hsaved] at hfresh
        exact hfresh hmem
      · exact (Tables.save_onlyConflicts _ _ _).bind fun saved =>
          (Tables.requeueOperationForRetry_onlyConflicts _ _ _).bind fun requeued =>
            Tables.addRetryReceipt_onlyConflicts _ _
    · rfl
  cases command with
  | cancel key reason => cases hreceipt
  | retry key => cases hreceipt
  | create specSchemaVersion c =>
    rw [show t.commandReceipt? (Command.create specSchemaVersion c).idempotencyKey = none from
      hundisturbed] at hsome
    cases hsome
  | finalize key fingerprint expectedVersion =>
    obtain ⟨e, he⟩ := hundisturbed hsome
    refine LockedResult.of_conflict (fun rows hrows => ?_) ?_
    · simp only [Txn.bind_ok] at hrows
      obtain ⟨_, _, saved, hsaved, hadded⟩ := hrows
      obtain ⟨hfresh, _⟩ := Tables.addCommandReceipt_ok hadded
      rw [Tables.save_ok hsaved] at hfresh
      rw [show t.commandReceipt? (Command.finalize key fingerprint
        expectedVersion).idempotencyKey = none from hfresh] at hsome
      cases hsome
    · rw [he]
      exact (Tables.save_onlyConflicts _ _ _).bind fun saved =>
        Tables.addCommandReceipt_onlyConflicts _ _

end Command

/-! ### The invariant -/

/-- What holds of the rows and of the calls in every reachable state. -/
structure CommandService.Inv (s : CommandService) : Prop where
  closed : s.tables.CancelledClosed
  active : s.tables.execution.activeOperationId ≠ none
  /-- A call that succeeded left its record. -/
  recorded : ∀ call ∈ s.calls, call.Succeeded → call.command.Recorded s.tables
  applied : ∀ call ∈ s.calls, call.applied = true → call.Succeeded
  once : ∀ (i j : ℕ) (call call' : CommandCall), s.calls[i]? = some call →
    s.calls[j]? = some call' → call.applied = true → call'.applied = true →
    call.command.identity = call'.command.identity → i = j

namespace CommandService

variable {settings : Settings} {s : CommandService} {i : ℕ} {call : CommandCall} {now : Time}

/-- Other transactions keep the records. -/
theorem Inv.keep (h : s.Inv) {history : History}
    (hkeeps : s.tables.KeepsRecords history.rows.tables)
    (hclosed : history.rows.tables.CancelledClosed)
    (hactive : history.rows.tables.execution.activeOperationId ≠ none) :
    ({ s with history := history } : CommandService).Inv :=
  ⟨hclosed, hactive, fun call hcall hsucceeded => (h.recorded call hcall hsucceeded).keep hkeeps,
    h.applied, h.once⟩

/-- A call that moves on without a change to the Execution. -/
theorem Inv.setCall (h : s.Inv) {call' : CommandCall}
    (hrecorded : call'.Succeeded → call'.command.Recorded s.tables)
    (happlied : call'.applied = true → call'.Succeeded)
    (honce : call'.applied = true → ∀ (j : ℕ) (other : CommandCall), j ≠ i →
      s.calls[j]? = some other → other.applied = true →
      other.command.identity ≠ call'.command.identity) : (s.setCall i call').Inv := by
  refine ⟨h.closed, h.active, fun other hother hsucceeded => ?_, fun other hother hother' => ?_, ?_⟩
  · rcases List.mem_or_eq_of_mem_set hother with hold | rfl
    · exact h.recorded other hold hsucceeded
    · exact hrecorded hsucceeded
  · rcases List.mem_or_eq_of_mem_set hother with hold | rfl
    · exact h.applied other hold hother'
    · exact happlied hother'
  · intro j k callj callk hj hk happliedj happliedk hidentity
    rcases List.getElem?_set_cases hj with ⟨rfl, rfl⟩ | ⟨hne, hold⟩ <;>
      rcases List.getElem?_set_cases hk with ⟨rfl, rfl⟩ | ⟨hne', hold'⟩
    · rfl
    · exact absurd hidentity.symm (honce happliedj k callk hne' hold' happliedk)
    · exact absurd hidentity (honce happliedk j callj hne hold happliedj)
    · exact h.once j k callj callk hold hold' happliedj happliedk hidentity

/-- A call that has not returned has not changed the Execution. -/
theorem Inv.not_applied (h : s.Inv) (hi : s.calls[i]? = some call) (hreturned : ¬ call.Returned) :
    call.applied = false := by
  by_contra happlied
  obtain ⟨operationId, hdone⟩ := h.applied call (List.mem_of_getElem? hi)
    (Bool.eq_true_of_not_eq_false happlied)
  exact hreturned ⟨_, hdone⟩

/-- A call moves on without having changed the Execution. -/
theorem Inv.setPhase (h : s.Inv) (hi : s.calls[i]? = some call) (hreturned : ¬ call.Returned)
    {phase : CallPhase}
    (hrecorded : ∀ operationId, phase = .done (.ok operationId) → call.command.Recorded s.tables) :
    (s.setCall i { call with phase := phase }).Inv := by
  have hnot := h.not_applied hi hreturned
  refine h.setCall (fun ⟨operationId, hdone⟩ => hrecorded operationId hdone) (fun happlied => ?_)
    fun happlied => ?_
  · exact absurd (hnot.symm.trans happlied) Bool.false_ne_true
  · exact absurd (hnot.symm.trans happlied) Bool.false_ne_true

theorem Inv.commit (h : s.Inv) (i : ℕ) {rows : Tables}
    {operationId : Option UUID}
    (hlocked : call.command.locked settings now s.tables = .committed rows operationId) :
    ({ s with history := { s.history with rows := { s.history.rows with tables := rows } } }.setCall
      i { call with phase := .done (.ok operationId), applied := true }).Inv := by
  have heffect := Command.locked_effect h.closed h.active hlocked
  refine (h.keep heffect.keeps heffect.closed heffect.active).setCall (fun _ => heffect.recorded)
    (fun _ => ⟨operationId, rfl⟩) fun _ j other hji hj happlied hidentity => ?_
  -- An earlier call with the key and content would have left its record.
  have hmem := List.mem_of_getElem? hj
  have hrecorded := h.recorded other hmem (h.applied other hmem happlied)
  exact heffect.fresh (hrecorded.congr hidentity)

theorem Inv.advance (h : s.Inv) (hi : s.calls[i]? = some call)
    (hok : call.phase = .locking → call.command.Undisturbed now s.tables) :
    (s.advance settings i call now).Inv := by
  rcases hphase : call.phase with _ | _ | _ | result <;> simp only [CommandService.advance, hphase]
  · have hreturned : ¬ call.Returned := by
      rintro ⟨_, hdone⟩
      rw [hphase] at hdone
      cases hdone
    split
    · exact h.setPhase hi hreturned (fun _ hno => nomatch hno)
    next result hresult =>
      refine h.setPhase hi hreturned fun operationId hdone => ?_
      obtain rfl := CallPhase.done.inj hdone
      exact Command.recorded_of_lookup hresult
    · exact h.setPhase hi hreturned (fun _ hno => nomatch hno)
  · have hreturned : ¬ call.Returned := by
      rintro ⟨_, hdone⟩
      rw [hphase] at hdone
      cases hdone
    split
    next hlocked =>
      refine h.setPhase hi hreturned fun operationId _ => ?_
      obtain ⟨key, reason, hcancel, hstatus⟩ := Command.locked_unchanged hlocked
      have hundisturbed := hok hphase
      rw [hcancel] at hundisturbed ⊢
      exact hundisturbed.mp hstatus
    next rows operationId hlocked => exact h.commit i hlocked
    · exact h.setPhase hi hreturned (fun _ hno => nomatch hno)
    · exact h.setPhase hi hreturned (fun _ hno => nomatch hno)
  · have hreturned : ¬ call.Returned := by
      rintro ⟨_, hdone⟩
      rw [hphase] at hdone
      cases hdone
    split
    next result hresult =>
      refine h.setPhase hi hreturned fun operationId hdone => ?_
      obtain rfl := CallPhase.done.inj hdone
      exact Command.recorded_of_lookup hresult
    · exact h.setPhase hi hreturned (fun _ hno => nomatch hno)
  · exact h

theorem Inv.received (h : s.Inv) (command : Command) : (s.step settings (.call command)).Inv := by
  -- The new call has not succeeded.
  have hnew : ∀ operationId, entry command ≠ .done (.ok operationId) := by
    intro operationId hdone
    cases command with
    | create specSchemaVersion c =>
      simp only [entry] at hdone
      split at hdone <;> cases hdone
    | _ => cases hdone
  refine ⟨h.closed, h.active, fun call hcall hsucceeded => ?_, fun call hcall happlied => ?_, ?_⟩
  · rcases List.mem_append.mp hcall with hold | hlast
    · exact h.recorded call hold hsucceeded
    · rw [List.mem_singleton.mp hlast] at hsucceeded
      obtain ⟨operationId, hdone⟩ := hsucceeded
      exact absurd hdone (hnew operationId)
  · rcases List.mem_append.mp hcall with hold | hlast
    · exact h.applied call hold happlied
    · rw [List.mem_singleton.mp hlast] at happlied
      cases happlied
  · intro i j call call' hi hj happlied happlied' hidentity
    rcases List.getElem?_concat_cases hi with ⟨rfl, rfl⟩ | ⟨_, hold⟩
    · cases happlied
    rcases List.getElem?_concat_cases hj with ⟨rfl, rfl⟩ | ⟨_, hold'⟩
    · cases happlied'
    exact h.once i j call call' hold hold' happlied happlied' hidentity

/-- An active Operation stays one. -/
theorem active_of_move {announced : List EventSubject} {cancels : Bool} {c c' : OperationColumns}
    {events : List EventSubject} (h : OperationMove announced cancels c events c')
    (hactive : c.active ≠ none) : c'.active ≠ none := by
  cases h with
  | append => exact Option.some_ne_none _
  | _ => exact hactive

theorem Inv.transaction (h : s.Inv) (tx : Transaction) :
    (s.step settings (.transaction tx)).Inv := by
  cases tx with
  | log tx => exact h.keep (Command.keepsRecords_of_keys rfl) h.closed h.active
  | table eventTime tx =>
    simp only [CommandService.step]
    split
    · exact h
    next hcommand =>
      rcases s.history.step_table_or settings eventTime tx with hstep | ⟨change, log, hchange, hstep⟩
      · rw [hstep]
        exact h
      · have hkeys := Tables.keyStep_of_change hchange (Bool.eq_false_iff.mpr hcommand)
        rw [hstep]
        refine h.keep (Command.keepsRecords_of_keys hkeys.keys) (fun hcancelled => ?_)
          (active_of_move (operationMove_of_change hchange) h.active)
        have hkey : change.tables.execution.cancelIdempotencyKey =
            s.tables.execution.cancelIdempotencyKey :=
          congrArg KeyColumns.cancelIdempotencyKey hkeys.keys
        exact hkeys.closed (h.closed (hkey ▸ hcancelled))

theorem Inv.step (h : s.Inv) {action : CommandAction} (hok : Undisturbed s action) :
    (s.step settings action).Inv := by
  cases action with
  | call command => exact h.received command
  | transaction tx => exact h.transaction tx
  | advance i now =>
    simp only [CommandService.step]
    split
    next call hi => exact h.advance hi (hok call hi).1
    · exact h

/-! ### Returns -/

/-- A call with its record finds it and returns what it says. -/
theorem advance_lookup (hi : s.calls[i]? = some call)
    (hphase : call.phase = .looking ∨ call.phase = .resolving) {result result' : CommandResult}
    (hlookup : call.command.lookup s.tables = some result')
    (hresult : result' ≠ .error (.store .persistenceConflict)) {call' : CommandCall}
    (hi' : (s.step settings (.advance i now)).calls[i]? = some call')
    (hdone : call'.phase = .done result) : result = result' := by
  have hstep : s.step settings (.advance i now) = s.setCall i { call with phase := .done result' } := by
    rcases hphase with hphase | hphase
    · simp only [step, hi, advance, hphase, hlookup]
    · simp only [step, hi, advance, hphase, hlookup]
  rw [hstep] at hi'
  rcases List.getElem?_set_cases hi' with ⟨_, rfl⟩ | ⟨hne, _⟩
  · exact (CallPhase.done.inj hdone).symm
  · exact absurd rfl hne

/-- A call that meets a conflict does not return yet. -/
theorem advance_conflict (hi : s.calls[i]? = some call) (hphase : call.phase = .locking)
    (hlocked : call.command.locked settings now s.tables = .conflict) {call' : CommandCall}
    (hi' : (s.step settings (.advance i now)).calls[i]? = some call') {result : CommandResult} :
    call'.phase ≠ .done result := by
  simp only [step, hi, advance, hphase, hlocked, setCall] at hi'
  rcases List.getElem?_set_cases hi' with ⟨_, rfl⟩ | ⟨hne, _⟩
  · exact nofun
  · exact absurd rfl hne

/-- A call whose command is recorded succeeds. -/
theorem Inv.repeated (h : s.Inv) (hi : s.calls[i]? = some call) (hreturned : ¬ call.Returned)
    (hok : call.phase = .locking → call.command.Undisturbed now s.tables)
    (hrecorded : call.command.Recorded s.tables) {call' : CommandCall} {result : CommandResult}
    (hi' : (s.step settings (.advance i now)).calls[i]? = some call')
    (hdone : call'.phase = .done result) : ∃ operationId, result = .ok operationId := by
  obtain ⟨operationId, hlookup⟩ := hrecorded.lookup h.active
  rcases hphase : call.phase with _ | _ | _ | result'
  · exact ⟨operationId, advance_lookup hi (.inl hphase) hlookup nofun hi' hdone⟩
  · have hundisturbed := hok hphase
    rcases hcommand : call.command with ⟨key, reason⟩ | key | ⟨key, fingerprint, version⟩ |
      ⟨version, c⟩
    · -- The cancellation is still pending.
      rw [hcommand] at hundisturbed hrecorded
      have hlocked : call.command.locked settings now s.tables = .unchanged := by
        rw [hcommand]
        exact if_pos (hundisturbed.mpr hrecorded)
      simp only [CommandService.step, hi, CommandService.advance, hphase, hlocked] at hi'
      rcases List.getElem?_set_cases hi' with ⟨_, rfl⟩ | ⟨hne, _⟩
      · exact ⟨none, (CallPhase.done.inj hdone).symm⟩
      · exact absurd rfl hne
    · have hmem : key ∈ s.tables.retries := by
        rw [hcommand] at hrecorded
        exact hrecorded
      exact absurd hdone (advance_conflict hi hphase
        (Command.locked_conflict hundisturbed (.inl ⟨key, hcommand, hmem⟩)) hi')
    · have hsome : (s.tables.commandReceipt? call.command.idempotencyKey).isSome = true := by
        rw [hcommand] at hrecorded ⊢
        obtain ⟨receipt, hreceipt, _⟩ := hrecorded
        exact Option.isSome_of_eq_some hreceipt
      exact absurd hdone (advance_conflict hi hphase (Command.locked_conflict hundisturbed
        (.inr ⟨by rw [hcommand]; rfl, hsome⟩)) hi')
    · rw [hcommand] at hundisturbed hrecorded
      obtain ⟨receipt, hreceipt, _⟩ := hrecorded
      rw [show s.tables.commandReceipt? c.idempotencyKey = none from hundisturbed] at hreceipt
      cases hreceipt
  · exact ⟨operationId, advance_lookup hi (.inr hphase) hlookup nofun hi' hdone⟩
  · exact absurd ⟨result', hphase⟩ hreturned

/-- A create or finalize whose key is recorded for something else meets the conflict. -/
theorem Inv.refused (h : s.Inv) (hi : s.calls[i]? = some call) (hreturned : ¬ call.Returned)
    (hok : call.phase = .locking → call.command.Undisturbed now s.tables)
    (hreceipt : call.command.hasReceipt = true)
    (hown : s.tables.ReceiptKey call.command.idempotencyKey) {other : CommandCall}
    (hother : other ∈ s.calls) (hsucceeded : other.Succeeded)
    (hkey : other.command.idempotencyKey = call.command.idempotencyKey)
    (hidentity : other.command.identity ≠ call.command.identity) {call' : CommandCall}
    {result : CommandResult}
    (hi' : (s.step settings (.advance i now)).calls[i]? = some call')
    (hdone : call'.phase = .done result) : result = .error (.store .idempotencyConflict) := by
  obtain ⟨receipt, hfound, hlookup⟩ :=
    (h.recorded other hother hsucceeded).receipt hreceipt hkey hown
  have hconflict : Except.error (CommandError.store .idempotencyConflict) ≠
      (.error (.store .persistenceConflict) : CommandResult) := by
    decide
  rcases hphase : call.phase with _ | _ | _ | result'
  · exact advance_lookup hi (.inl hphase) (hlookup hidentity) hconflict hi' hdone
  · exact absurd hdone (advance_conflict hi hphase (Command.locked_conflict (hok hphase)
      (.inr ⟨hreceipt, Option.isSome_of_eq_some hfound⟩)) hi')
  · exact advance_lookup hi (.inr hphase) (hlookup hidentity) hconflict hi' hdone
  · exact absurd ⟨result', hphase⟩ hreturned

theorem Inv.idempotentStep (h : s.Inv) {action : CommandAction} (hok : Undisturbed s action) :
    IdempotentStep settings s action := by
  cases action with
  | call command => trivial
  | transaction tx => trivial
  | advance i now =>
    intro call call' result hi hreturned hi' hdone
    obtain ⟨hundisturbed, hown⟩ := hok call hi
    constructor
    · rintro ⟨other, hother, hsucceeded, hidentity⟩
      have hrecorded := (h.recorded other hother hsucceeded).congr hidentity
      exact h.repeated hi hreturned hundisturbed hrecorded hi' hdone
    · intro hreceipt hused
      rcases hused with hsubmit | ⟨other, hother, hsucceeded, hkey, hidentity⟩
      · exact absurd hsubmit (hown hreceipt hreturned).1
      · exact h.refused hi hreturned hundisturbed hreceipt (hown hreceipt hreturned) hother
          hsucceeded hkey hidentity hi' hdone

/-! ### Every call returns -/

/-- How many steps a call still makes at most. -/
def stepsLeft : CallPhase → ℕ
  | .looking => 3
  | .locking => 2
  | .resolving => 1
  | .done _ => 0

variable (settings) in
theorem advance_moves (hreturned : ¬ call.Returned) (s : CommandService) (i : ℕ) (now : Time) :
    ∃ call', (s.advance settings i call now).calls = s.calls.set i call' ∧
      call'.command = call.command ∧ stepsLeft call'.phase < stepsLeft call.phase := by
  rcases hphase : call.phase with _ | _ | _ | result <;> simp only [advance, hphase]
  · split
    · exact ⟨{ call with phase := .resolving }, rfl, rfl, (by decide : 1 < 3)⟩
    next result _ _ => exact ⟨{ call with phase := .done result }, rfl, rfl, Nat.zero_lt_succ 2⟩
    · exact ⟨{ call with phase := .locking }, rfl, rfl, (by decide : 2 < 3)⟩
  · split
    · exact ⟨{ call with phase := .done (.ok none) }, rfl, rfl, Nat.zero_lt_two⟩
    next operationId _ =>
      exact ⟨{ call with phase := .done (.ok operationId), applied := true }, rfl, rfl,
        Nat.zero_lt_two⟩
    · exact ⟨{ call with phase := .resolving }, rfl, rfl, Nat.one_lt_two⟩
    next error _ => exact ⟨{ call with phase := .done (.error error) }, rfl, rfl, Nat.zero_lt_two⟩
  · split
    next result _ => exact ⟨{ call with phase := .done result }, rfl, rfl, Nat.one_pos⟩
    · exact ⟨{ call with phase := .done (.error (.store .idempotencyConflict)) }, rfl, rfl,
        Nat.one_pos⟩
  · exact absurd ⟨result, hphase⟩ hreturned

variable (settings) in
theorem exists_returned (hi : s.calls[i]? = some call) :
    ∃ actions call', (Transition.run (step settings) s actions).calls[i]? = some call' ∧
      call'.command = call.command ∧ call'.Returned := by
  induction hn : stepsLeft call.phase using Nat.strong_induction_on generalizing s call with
  | _ n ih =>
    by_cases hreturned : call.Returned
    · exact ⟨[], call, hi, rfl, hreturned⟩
    obtain ⟨call', hcalls, hcommand, hless⟩ := advance_moves settings hreturned s i 0
    have hi' : (s.step settings (.advance i 0)).calls[i]? = some call' := by
      simp only [step, hi, hcalls]
      rw [List.getElem?_set_self', hi]
      rfl
    obtain ⟨actions, call'', hrun, hcommand', hreturned'⟩ := ih _ (hn ▸ hless) hi' rfl
    exact ⟨.advance i 0 :: actions, call'', hrun, hcommand'.trans hcommand, hreturned'⟩

end CommandService

/-- A submitted Execution that no command was sent to. -/
def Submission.commandService {settings : Settings} (s : Submission settings) : CommandService :=
  { history := s.history }

theorem Submission.commandService_inv {settings : Settings} (s : Submission settings) :
    s.commandService.Inv := by
  have hcall : ∀ call, call ∉ s.commandService.calls := fun call hno => nomatch hno
  have hrows : s.tables.execution.cancelIdempotencyKey = none ∧
      s.tables.execution.activeOperationId ≠ none := by
    have h := s.accepted
    simp only [submit, Txn.bind_ok] at h
    obtain ⟨_, _, _, _, _, _, steps, _, h⟩ := h
    split at h
    · cases h
    · rw [← Txn.pure_ok.mp h]
      exact ⟨rfl, Option.some_ne_none _⟩
  refine ⟨fun hcancelled => absurd hrows.1 hcancelled, hrows.2, fun call hno => absurd hno (hcall call),
    fun call hno => absurd hno (hcall call), fun i j call call' hi => ?_⟩
  exact absurd (List.mem_of_getElem? hi) (hcall call)

/-- In every run whose steps meet the condition, every call returns what it must, no
command takes effect twice, and every call returns. -/
theorem commands_idempotent {settings : Settings} (s : Submission settings)
    (actions : List CommandAction)
    (h : Transition.Along (CommandService.step settings) Undisturbed s.commandService actions) :
    Transition.Along (CommandService.step settings) (IdempotentStep settings) s.commandService
      actions ∧
    (∀ (i j : ℕ) (call call' : CommandCall),
      (Transition.run (CommandService.step settings) s.commandService actions).calls[i]? =
        some call →
      (Transition.run (CommandService.step settings) s.commandService actions).calls[j]? =
        some call' →
      call.applied = true → call'.applied = true →
      call.command.identity = call'.command.identity → i = j) ∧
    ∀ (i : ℕ) (call : CommandCall),
      (Transition.run (CommandService.step settings) s.commandService actions).calls[i]? =
        some call →
      ∃ actions' call', (Transition.run (CommandService.step settings) s.commandService
          (actions ++ actions')).calls[i]? = some call' ∧
        call'.command = call.command ∧ call'.Returned := by
  refine ⟨?_, ?_, fun i call hi => ?_⟩
  · exact Transition.along_of_invariant (fun s action hs hok => hs.step hok)
      (fun s action hs hok => hs.idempotentStep hok) s.commandService_inv h
  · exact (Transition.invariant (fun s action hs hok => hs.step hok) s.commandService_inv h).once
  · obtain ⟨actions', call', hcall', hcommand, hreturned⟩ :=
      CommandService.exists_returned settings hi
    rw [← Transition.run_append] at hcall'
    exact ⟨actions', call', hcall', hcommand, hreturned⟩

/-! ### Calls with one key -/

namespace Small

/-- A MULTI Execution whose Operation succeeded. -/
def waitingRun : List CommandAction :=
  [.transaction (.table 1 (.claim 1 7 20 view)),
    .transaction (.table 2 (.recordRuntimeSession (clock 2) (lease 20 1) 30 "workspace" "notebook")),
    .transaction (.table 3 (.markStarted (clock 3) (lease 20 1) 0 40 41 0)),
    .transaction (.table 4 (.markSubmitted (clock 4) (lease 20 1) 41)),
    .transaction (.table 5 (.markSucceeded (clock 5) (lease 20 1) 0 (stored 20 1))),
    .transaction (.table 6 (.recordProjection (clock 6) (lease 20 1) .succeeded 1 none)),
    .transaction (.table 7 (.completeOperation (clock 7) (lease 20 1) 10 .succeeded none none))]

/-- A finalization of the Execution's second version. -/
def finalizeCall : Command :=
  .finalize 300 301 2

/-- A call that returns, and its repeat. -/
def repeatedFinalizes : List CommandAction :=
  waitingRun ++ [.call finalizeCall, .advance 0 8, .advance 0 9, .call finalizeCall, .advance 1 10]

/-- Both calls look the key up; then the first one commits. -/
def overlappingFinalizes : List CommandAction :=
  waitingRun ++ [.call finalizeCall, .call finalizeCall, .advance 0 8, .advance 1 8, .advance 0 9]

/-- What a state shows of a call. -/
def shown (s : CommandService) (i : ℕ) : Option (CommandIdentity × CallPhase) :=
  s.calls[i]?.map fun call => (call.command.identity, call.phase)

theorem exists_shown {s : CommandService} {i : ℕ} {identity : CommandIdentity} {phase : CallPhase}
    (h : shown s i = some (identity, phase)) :
    ∃ call, s.calls[i]? = some call ∧ call.command.identity = identity ∧ call.phase = phase := by
  obtain ⟨call, hi, hcall⟩ := Option.map_eq_some_iff.mp h
  exact ⟨call, hi, congrArg Prod.fst hcall, congrArg Prod.snd hcall⟩

/-- A finalize moves on, with a key that nothing has used. -/
theorem undisturbed_of_shown {s : CommandService} {i : ℕ} (key fingerprint : Key)
    (phase : CallPhase) (h : shown s i = some (⟨.finalize, key, some fingerprint⟩, phase))
    (hkey : s.tables.ReceiptKey key)
    (hfresh : phase = .locking → (s.tables.commandReceipt? key).isSome = false) (now : Time) :
    Undisturbed s (.advance i now) := by
  obtain ⟨call, hi, hidentity, rfl⟩ := exists_shown h
  intro call' hi'
  obtain rfl := Option.some.inj (hi.symm.trans hi')
  rcases hcommand : call.command with _ | _ | ⟨key', fingerprint', expectedVersion⟩ | _ <;>
    rw [hcommand] at hidentity <;> cases hidentity
  refine ⟨fun hlocking hsome => ?_, fun _ _ => hkey⟩
  rw [hfresh hlocking] at hsome
  cases hsome

end Small

instance (t : Tables) (key : Key) : Decidable (t.ReceiptKey key) :=
  inferInstanceAs (Decidable (_ ∧ _ ∧ _))

theorem commands_idempotent_repeatedFinalizes :
    Small.shown (Transition.run (CommandService.step Small.settings)
      (Small.submission .multi).commandService Small.repeatedFinalizes) 1 =
        some (Small.finalizeCall.identity, .done (.ok none)) ∧
    Transition.Along (CommandService.step Small.settings) (IdempotentStep Small.settings)
      (Small.submission .multi).commandService Small.repeatedFinalizes := by
  refine ⟨by decide +kernel, (commands_idempotent _ _ ?_).1⟩
  refine ⟨trivial, trivial, trivial, trivial, trivial, trivial, trivial, trivial, ?_, ?_, trivial, ?_,
    trivial⟩
  · exact Small.undisturbed_of_shown 300 301 .looking
      (by decide +kernel) (by decide +kernel) nofun 8
  · exact Small.undisturbed_of_shown 300 301 .locking
      (by decide +kernel) (by decide +kernel) (fun _ => by decide +kernel) 9
  · exact Small.undisturbed_of_shown 300 301 .looking
      (by decide +kernel) (by decide +kernel) nofun 10

/-- The second of two overlapping calls ends in an error. -/
theorem overlapping_finalize_fails :
    ¬ ∀ (settings : Settings) (s : Submission settings) (actions : List CommandAction),
      Transition.Along (CommandService.step settings) (IdempotentStep settings) s.commandService
        actions := by
  intro h
  have halong := h Small.settings (Small.submission .multi)
    (Small.overlappingFinalizes ++ [.advance 1 10])
  obtain ⟨hstep, _⟩ := (Transition.along_append.mp halong).2
  -- The first call has committed; the second one is about to lock the Execution.
  have hfirst : Small.shown (Transition.run (CommandService.step Small.settings)
      (Small.submission .multi).commandService Small.overlappingFinalizes) 0 =
        some (Small.finalizeCall.identity, .done (.ok none)) := by decide +kernel
  have hsecond : Small.shown (Transition.run (CommandService.step Small.settings)
      (Small.submission .multi).commandService Small.overlappingFinalizes) 1 =
        some (Small.finalizeCall.identity, .locking) := by decide +kernel
  have hlast : Small.shown (CommandService.step Small.settings
      (Transition.run (CommandService.step Small.settings)
        (Small.submission .multi).commandService Small.overlappingFinalizes) (.advance 1 10)) 1 =
        some (Small.finalizeCall.identity,
          .done (.error (.store .invalidStateTransition))) := by decide +kernel
  obtain ⟨first, hi, hidentity, hdone⟩ := Small.exists_shown hfirst
  obtain ⟨second, hj, hidentity', hlocking⟩ := Small.exists_shown hsecond
  obtain ⟨last, hj', _, hfailed⟩ := Small.exists_shown hlast
  have hopen : ¬ second.Returned := by
    rintro ⟨result, hresult⟩
    rw [hlocking] at hresult
    cases hresult
  obtain ⟨operationId, hok⟩ := (hstep second last _ hj hopen hj' hfailed).1
    ⟨first, List.mem_of_getElem? hi, ⟨none, hdone⟩, hidentity.trans hidentity'.symm⟩
  cases hok

end ExecutorService
