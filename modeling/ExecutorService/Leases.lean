/-
Worker leases.

A lease is an owner and a fencing token (`infrastructure/execution_leases.py`).
Every write of a Worker starts with `require_active_lease` or
`require_active_cancellation_lease`, which pass only while the row holds exactly
that owner and token, unexpired.  Heartbeats (`lease_heartbeat.py`) extend the
expiry under the same conditions.

* `requireActiveLease_ok` — what a passed check says about the rows.
-/
import ExecutorService.Rows

namespace ExecutorService

/-- `ExecutionLease`. -/
structure ExecutionLease where
  executionId : UUID
  attemptId : UUID
  owner : WorkerId
  fencingToken : ℕ
  deriving DecidableEq, Repr

/-- `CancellationLease`. -/
structure CancellationLease where
  executionId : UUID
  owner : WorkerId
  fencingToken : ℕ
  deriving DecidableEq, Repr

/-- A lease a claim issued. -/
inductive Lease
  | execution (lease : ExecutionLease)
  | cancellation (lease : CancellationLease)
  deriving DecidableEq, Repr

/-- The fencing token of a lease. -/
def Lease.fencingToken : Lease → ℕ
  | .execution lease => lease.fencingToken
  | .cancellation lease => lease.fencingToken

/-- What a transaction commits: the tables, the events it wrote, in order, and
the lease it issued. -/
structure Change where
  tables : Tables
  events : List EventPayload := []
  lease : Option Lease := none

namespace AttemptRow

/-- The Attempt half of the lease check. -/
def heldBy (now : Time) (lease : ExecutionLease) (a : AttemptRow) : Bool :=
  a.id == lease.attemptId && a.status == .running && a.leaseOwner == some lease.owner &&
    a.fencingToken == lease.fencingToken && a.leaseExpiresAt.any (now < ·)

end AttemptRow

namespace ExecutionRow

/-- The Execution half of the lease check. -/
def heldBy (now : Time) (allowed : List ExecutionStatus) (lease : ExecutionLease)
    (e : ExecutionRow) : Bool :=
  e.id == lease.executionId && allowed.contains e.status && e.leaseOwner == some lease.owner &&
    e.fencingToken == lease.fencingToken && e.leaseExpiresAt.any (now < ·)

/-- The row is still cancelled under this lease. -/
def cancellationHeldBy (now : Time) (lease : CancellationLease) (e : ExecutionRow) : Bool :=
  e.id == lease.executionId && e.status == .cancelRequested &&
    e.cancellationLeaseOwner == some lease.owner && e.fencingToken == lease.fencingToken &&
    e.cancellationLeaseExpiresAt.any (now < ·)

end ExecutionRow

namespace Tables

/-- `require_active_lease`: the locked Attempt, or the lease is lost. -/
def requireActiveLease (now : Time) (lease : ExecutionLease) (t : Tables)
    (allowed : List ExecutionStatus := [.running]) : Txn AttemptRow :=
  if t.execution.heldBy now allowed lease then
    match t.attempts.find? (·.heldBy now lease) with
    | some attempt => .ok attempt
    | none => .error .leaseLost
  else .error .leaseLost

/-- The check of a cancellation's lease. -/
def requireActiveCancellationLease (now : Time) (lease : CancellationLease) (t : Tables) :
    Txn Unit :=
  if t.execution.cancellationHeldBy now lease then .ok () else .error .leaseLost

theorem requireActiveLease_ok {now : Time} {lease : ExecutionLease} {t : Tables}
    {allowed : List ExecutionStatus} {a : AttemptRow} :
    t.requireActiveLease now lease allowed = .ok a ↔
      t.execution.heldBy now allowed lease = true ∧
        t.attempts.find? (·.heldBy now lease) = some a := by
  unfold requireActiveLease
  by_cases h : t.execution.heldBy now allowed lease = true
  · cases t.attempts.find? (·.heldBy now lease) <;> simp [h]
  · simp [h]

/-- What a passed check says about the Execution row. -/
theorem requireActiveLease_row {now : Time} {lease : ExecutionLease} {t : Tables}
    {allowed : List ExecutionStatus} {a : AttemptRow}
    (h : t.requireActiveLease now lease allowed = .ok a) :
    t.execution.id = lease.executionId ∧ t.execution.status ∈ allowed ∧
      t.execution.leaseOwner = some lease.owner ∧
      t.execution.fencingToken = lease.fencingToken := by
  have hrow := (requireActiveLease_ok.mp h).1
  simp only [ExecutionRow.heldBy, Bool.and_eq_true, beq_iff_eq, List.contains_iff_mem] at hrow
  exact ⟨hrow.1.1.1.1, hrow.1.1.1.2, hrow.1.1.2, hrow.1.2⟩

/-- The default check passes only for a RUNNING Execution. -/
theorem requireActiveLease_running {now : Time} {lease : ExecutionLease} {t : Tables}
    {a : AttemptRow} (h : t.requireActiveLease now lease = .ok a) :
    t.execution.status = .running := by
  simpa using (requireActiveLease_row h).2.1

/-- What a passed check says about the Attempt. -/
theorem requireActiveLease_attempt {now : Time} {lease : ExecutionLease} {t : Tables}
    {allowed : List ExecutionStatus} {a : AttemptRow}
    (h : t.requireActiveLease now lease allowed = .ok a) :
    a ∈ t.attempts ∧ a.id = lease.attemptId ∧ a.status = .running ∧
      a.leaseOwner = some lease.owner ∧ a.fencingToken = lease.fencingToken := by
  have hfind := (requireActiveLease_ok.mp h).2
  have hheld := List.find?_some hfind
  simp only [AttemptRow.heldBy, Bool.and_eq_true, beq_iff_eq] at hheld
  exact ⟨List.mem_of_find?_eq_some hfind, hheld.1.1.1.1, hheld.1.1.1.2, hheld.1.1.2, hheld.1.2⟩

theorem requireActiveCancellationLease_row {now : Time} {lease : CancellationLease}
    {t : Tables} {u : Unit} (h : t.requireActiveCancellationLease now lease = .ok u) :
    t.execution.id = lease.executionId ∧ t.execution.status = .cancelRequested ∧
      t.execution.cancellationLeaseOwner = some lease.owner ∧
      t.execution.fencingToken = lease.fencingToken := by
  unfold requireActiveCancellationLease at h
  split at h
  · rename_i hrow
    simp only [ExecutionRow.cancellationHeldBy, Bool.and_eq_true, beq_iff_eq] at hrow
    exact ⟨hrow.1.1.1.1, hrow.1.1.1.2, hrow.1.1.2, hrow.1.2⟩
  · cases h

/-! ### Heartbeats -/

/-- `renew_execution`: both rows must still be held, or nothing is written. -/
def renewExecution (settings : Settings) (now : Time) (lease : ExecutionLease) (t : Tables) :
    Txn Tables :=
  let expires := now + settings.executionLeaseSeconds
  if ¬ t.execution.heldBy now [.running] lease then .error .leaseLost
  else if t.attempts.countP (·.heldBy now lease) ≠ 1 then .error .leaseLost
  else .ok { t with
    execution := { t.execution with
      heartbeatAt := some now
      leaseExpiresAt := some expires
      updatedAt := now }
    attempts := t.attempts.updateWhere (·.heldBy now lease) fun a =>
      { a with heartbeatAt := now, leaseExpiresAt := some expires } }

/-- `renew_cancellation`. -/
def renewCancellation (settings : Settings) (now : Time) (lease : CancellationLease)
    (t : Tables) : Txn Tables :=
  if ¬ t.execution.cancellationHeldBy now lease then .error .leaseLost
  else .ok { t with
    execution := { t.execution with
      cancellationLeaseExpiresAt := some (now + settings.executionLeaseSeconds)
      updatedAt := now } }

theorem renewExecution_ok {settings : Settings} {now : Time} {lease : ExecutionLease}
    {t t' : Tables} (h : t.renewExecution settings now lease = .ok t') :
    t.execution.heldBy now [.running] lease = true ∧
      t' = { t with
        execution := { t.execution with
          heartbeatAt := some now
          leaseExpiresAt := some (now + settings.executionLeaseSeconds)
          updatedAt := now }
        attempts := t.attempts.updateWhere (·.heldBy now lease) fun a =>
          { a with
            heartbeatAt := now
            leaseExpiresAt := some (now + settings.executionLeaseSeconds) } } := by
  simp only [renewExecution] at h
  split at h
  · cases h
  rename_i hheld
  split at h
  · cases h
  · cases h
    exact ⟨by simpa using hheld, rfl⟩

theorem renewCancellation_ok {settings : Settings} {now : Time} {lease : CancellationLease}
    {t t' : Tables} (h : t.renewCancellation settings now lease = .ok t') :
    t.execution.cancellationHeldBy now lease = true ∧
      t' = { t with
        execution := { t.execution with
          cancellationLeaseExpiresAt := some (now + settings.executionLeaseSeconds)
          updatedAt := now } } := by
  simp only [renewCancellation] at h
  split at h
  · cases h
  · rename_i hheld
    cases h
    exact ⟨by simpa using hheld, rfl⟩

end Tables

end ExecutorService
