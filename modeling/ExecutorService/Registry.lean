/-
The operator's side: Runtime Targets, maintenance and their commands
(`runtime_registry/`, `maintenance.py`, `maintenance_runs/commands.py`).

A command looks for a receipt of its key, locks its row, writes and leaves a receipt at
the commit; the registration of a Target that does not exist yet has no row to lock, and
inserts one later.  A health probe reads a Target, calls its Runtime and writes what it
saw if the Target is still the one it read.

* `OperatorRequest.lookup`, `lockRow`, `insertTarget` — the parts of a call;
* `Registry.probeStep` — the parts of a probe;
* `OperatorService.step` — a call or a probe moves on, a Worker defers a retained retry,
  an operator purges a Target, or the reconciler moves a Run.

A fingerprint is the hash of a command's content; it is modelled as that content.  A
Fernet token holds its credential and a nonce, so that no two encryptions agree.
-/
import ExecutorService.Claiming
import ExecutorService.Codec
import ExecutorService.Transition

namespace ExecutorService

/-! ### Rows -/

/-- What `normalize_connection_config` leaves; the endpoint is also the `connection_key`. -/
structure ConnectionConfig where
  endpoint : String
  deriving DecidableEq, Repr

/-- A Fernet token. -/
structure Ciphertext where
  credential : String
  nonce : ℕ
  deriving DecidableEq, Repr

/-- A `runtime_targets` row with its connection. -/
structure RegisteredTarget extends RuntimeTarget where
  connectionConfig : ConnectionConfig
  credentialCiphertext : Ciphertext

/-- Whether the Executor admits new sessions. -/
inductive ExecutorAdmissionState
  | active | draining
  deriving DecidableEq, Repr

/-- What a Maintenance Run does. -/
inductive MaintenanceRunAction
  | stopActiveExecutions
  deriving DecidableEq, Repr

/-- The status of a Maintenance Run. -/
inductive MaintenanceRunStatus
  | requested | running | succeeded | failed
  deriving DecidableEq, Repr

/-- `RUNNABLE_STATUSES` -/
def MaintenanceRunStatus.isRunnable : MaintenanceRunStatus → Bool
  | .requested | .running => true
  | _ => false

/-- The singleton row, which `initialize` leaves before the service takes calls. -/
structure ExecutorMaintenance where
  admissionState : ExecutorAdmissionState := .active
  version : ℕ := 0
  deriving DecidableEq, Repr

/-! ### Commands -/

/-- The content of a command: all that its fingerprint covers. -/
inductive OperatorContent
  | upsert (name : String) (runtimeType : RuntimeType) (connectionConfig : ConnectionConfig)
      (credential : Option String) (pool : RuntimePool) (maxConcurrentExecutions : Option ℕ)
      (actorClient actorId : Option String)
  | disable (targetId : UUID) (actorClient actorId : Option String)
  | setState (targetId : UUID) (desiredState : RuntimeTargetStatus)
      (actorClient actorId : Option String)
  | setAdmission (desiredState : ExecutorAdmissionState) (actorClient actorId : String)
  | createRun (action : MaintenanceRunAction) (actorClient actorId : String)
  deriving DecidableEq, Repr

/-- A command of an operator with its key. -/
structure OperatorRequest where
  idempotencyKey : Key
  content : OperatorContent
  deriving DecidableEq, Repr

/-- The kind of a command, as its receipt has it. -/
def OperatorContent.commandType : OperatorContent → String
  | .upsert .. => "runtime_target.upsert"
  | .disable .. => "runtime_target.disable"
  | .setState .. => "runtime_target.set_state"
  | .setAdmission .active .. => "executor_maintenance.active"
  | .setAdmission .draining .. => "executor_maintenance.draining"
  | .createRun .. => "maintenance_run.create"

/-- The commands whose record is the Run they create, not a receipt. -/
def OperatorContent.isRun : OperatorContent → Bool
  | .createRun .. => true
  | _ => false

/-- What a command was about: a Target, or the one maintenance row. -/
inductive ReceiptResult
  | target (targetId : UUID)
  | singletonKey
  deriving DecidableEq, Repr

/-- A `command_receipts` row of the global scope. -/
structure OperatorReceipt where
  idempotencyKey : Key
  commandType : String
  requestFingerprint : OperatorContent
  result : ReceiptResult
  deriving DecidableEq, Repr

/-- The row of a Maintenance Run. -/
structure MaintenanceRun where
  id : UUID
  idempotencyKey : Key
  requestFingerprint : OperatorContent
  status : MaintenanceRunStatus
  /-- The Executions selected for the Run, with their statuses. -/
  targets : List (UUID × ExecutionStatus)
  deriving DecidableEq, Repr

/-- The tables that operators write. -/
structure Registry where
  targets : List RegisteredTarget := []
  receipts : List OperatorReceipt := []
  /-- The tombstones of purged Targets. -/
  purged : List UUID := []
  maintenance : ExecutorMaintenance := {}
  runs : List MaintenanceRun := []

/-- The errors of these commands. -/
inductive RegistryError
  | idempotencyConflict (message : String)
  | endpointConflict (name : String) (id : UUID)
  | configuration (message : String)
  | persistenceConflict (message : String)
  | targetNotFound (id : UUID)
  | maintenanceRunConflict (runId : UUID)
  /-- The database driver's own error. -/
  | integrityError
  deriving DecidableEq, Repr

/-- What a command returns: a row as it is stored. -/
inductive OperatorView
  | target (target : RegisteredTarget)
  | maintenance (maintenance : ExecutorMaintenance)
  | run (run : MaintenanceRun)

/-- The answer to a command: a view, or an error. -/
abbrev OperatorResult := Except RegistryError OperatorView

namespace Registry

/-- The row of a Target. -/
def target? (r : Registry) (targetId : UUID) : Option RegisteredTarget :=
  r.targets.find? (·.id == targetId)

/-- The receipt of a key. -/
def receipt? (r : Registry) (key : Key) : Option OperatorReceipt :=
  r.receipts.find? (·.idempotencyKey == key)

/-- The Maintenance Run of a key. -/
def run? (r : Registry) (key : Key) : Option MaintenanceRun :=
  r.runs.find? (·.idempotencyKey == key)

/-- The row of a locked Target is written. -/
def setTarget (r : Registry) (targetId : UUID) (f : RegisteredTarget → RegisteredTarget) :
    Registry :=
  { r with targets := r.targets.updateWhere (·.id == targetId) f }

/-- The receipt reaches the database at the commit, where its key is unique. -/
def addReceipt (r : Registry) (request : OperatorRequest) (result : ReceiptResult) :
    Except RegistryError Registry :=
  if (r.receipt? request.idempotencyKey).isSome then .error .integrityError
  else .ok { r with receipts := r.receipts ++
    [⟨request.idempotencyKey, request.content.commandType, request.content, result⟩] }

/-- `required_target` and its view. -/
def targetView (r : Registry) (targetId : UUID) : OperatorResult :=
  match r.target? targetId with
  | some target => .ok (.target target)
  | none => .error (.targetNotFound targetId)

end Registry

/-! ### Probes -/

/-- What a probe uses of the settings and of `runtime_diagnostics`. -/
structure ProbeSettings where
  runtimeAllowedProfiles : List String
  runtimeDefaultMaxConcurrentExecutions : ℕ
  redactMessage : String → String

/-- What a check of a Target's resources found. -/
structure ResourceObservation where
  observedAt : Time
  cpuUtilization : Option ℚ
  memoryUtilization : Option ℚ

/-- What the Runtime answers; an `.error` is the message of an exception. -/
structure ProbeAnswer where
  /-- `active_session_count`, if it is an `int`. -/
  status : Except String (Option ℤ)
  supportedProfiles : Except String (List String)
  resourceStatus : Except String ResourceObservation

/-- `" ".join(message.split())` behind a code, cut at `_MAX_PERSISTED_ERROR_LENGTH`. -/
def boundedError (code message : String) : String :=
  let words := (message.toList.splitOnP Codec.isSpace).filter (· ≠ [])
  String.ofList ((code.toList ++ [':', ' '] ++ [' '].intercalate words).take 500)

/-- `_profile_list` -/
def profileList (settings : ProbeSettings) (profiles : List String) : String :=
  let values := (profiles.map fun p =>
    String.ofList ((settings.redactMessage p).toList.take 64)).mergeSort (fun a b => decide (a ≤ b))
  let visible := values.take 20
  let hidden := values.length - visible.length
  "[" ++ ",".intercalate (if 0 < hidden then visible ++ ["...+" ++ toString hidden] else visible) ++
    "]"

/-- The profiles and the session count of a healthy Runtime, or what is wrong with it. -/
def ProbeAnswer.health (settings : ProbeSettings) (answer : ProbeAnswer) :
    Except String (List String × ℕ) :=
  match answer.status with
  | .error message => .error (boundedError "RUNTIME_STATUS_UNAVAILABLE" message)
  | .ok count => match count.filter (0 ≤ ·) with
    | none => .error (boundedError "RUNTIME_STATUS_INVALID"
        "Runtime Target did not return a non-negative active_session_count.")
    | some count => match answer.supportedProfiles with
      | .error message => .error (boundedError "RUNTIME_PROFILES_UNAVAILABLE" message)
      | .ok reported =>
        let profiles := reported.filter (settings.runtimeAllowedProfiles.contains ·)
        if profiles = [] then
          .error (boundedError "RUNTIME_PROFILE_MISMATCH"
            ("Runtime Target supports none of the configured profiles; allowed=" ++
              profileList settings settings.runtimeAllowedProfiles.dedup ++ " reported=" ++
              profileList settings reported ++ "."))
        else .ok (profiles, count.toNat)

/-- The resource part, which an unhealthy Runtime is not asked for. -/
def ProbeAnswer.resource (settings : ProbeSettings) (answer : ProbeAnswer) :
    Except String ResourceObservation :=
  match answer.health settings with
  | .error _ => .error (boundedError "RUNTIME_RESOURCE_SKIPPED"
      "Resource probe skipped because health probe failed.")
  | .ok _ => match answer.resourceStatus with
    | .error message => .error (boundedError "RUNTIME_RESOURCE_UNAVAILABLE" message)
    | .ok resource => .ok resource

/-- What a probe remembers of the row it read. -/
structure ProbeObservation where
  targetId : UUID
  connectionConfig : ConnectionConfig
  credentialCiphertext : Ciphertext
  pool : RuntimePool
  deriving DecidableEq, Repr

/-- What a probe reads of a Target before it calls it. -/
def RegisteredTarget.observation (t : RegisteredTarget) : ProbeObservation :=
  ⟨t.id, t.connectionConfig, t.credentialCiphertext, t.pool⟩

/-- Where a probe is, between its sessions and the call of the Runtime. -/
inductive ProbePhase
  | reading
  | calling (observed : ProbeObservation)
  | writing (observed : ProbeObservation) (answer : ProbeAnswer)
  /-- The view of a disabled Target, in a session of its own. -/
  | viewing

/-- A probe goes on or returns. -/
inductive ProbeNext
  | goesOn (phase : ProbePhase)
  | returns (result : OperatorResult)

namespace RegisteredTarget

/-- The health part of a probe of an enabled Target. -/
def healthChecked (now : Time) (health : Except String (List String × ℕ)) (t : RegisteredTarget) :
    RegisteredTarget :=
  match health with
  | .ok (profiles, count) => { t with
      status := if t.status ≠ .draining then .active else t.status
      supportedProfiles := profiles
      lastHealthCheckAt := some now
      lastHealthError := none
      activeSessionCount := some count
      sessionCountObservedAt := some now }
  | .error error => { t with
      status := if t.status ≠ .draining then .offline else t.status
      lastHealthCheckAt := some now
      lastHealthError := some error }

/-- The resource part of a probe of an enabled Target. -/
def resourceChecked (resource : Except String ResourceObservation) (t : RegisteredTarget) :
    RegisteredTarget :=
  match resource with
  | .ok resource => { t with
      resourceLastError := none
      resourceObservedAt := some resource.observedAt
      cpuUtilization := resource.cpuUtilization
      memoryUtilization := resource.memoryUtilization }
  | .error error => { t with resourceLastError := some error }

/-- The row after a probe of an enabled Target. -/
def probed (settings : ProbeSettings) (now : Time) (answer : ProbeAnswer) (t : RegisteredTarget) :
    RegisteredTarget :=
  (t.healthChecked now (answer.health settings)).resourceChecked (answer.resource settings)

end RegisteredTarget

/-- What a call or a probe is given at a step: the time, a fresh UUID and nonce, what it
reads of the Executions, and the answer of the Runtime. -/
structure CallInput where
  now : Time
  newId : UUID
  nonce : ℕ
  /-- `count_runtime_reservations` of the locked Target is not zero. -/
  reserved : Bool
  /-- The active Executions and those with a session. -/
  selected : List (UUID × ExecutionStatus)
  answer : ProbeAnswer

/-- The parts of `probe`. -/
def Registry.probeStep (settings : ProbeSettings) (input : CallInput) (targetId : UUID)
    (r : Registry) : ProbePhase → Registry × ProbeNext
  | .reading => match r.target? targetId with
    | none => (r, .returns (.error (.targetNotFound targetId)))
    | some target =>
      if target.enabled then (r, .goesOn (.calling target.observation))
      else (r, .goesOn .viewing)
  | .calling observed => (r, .goesOn (.writing observed input.answer))
  | .writing observed answer => match r.target? targetId with
    | none => (r, .returns (.error (.targetNotFound targetId)))
    | some target =>
      -- A response from the previous endpoint or credential must not validate the new one.
      if target.observation ≠ observed then (r, .returns (.ok (.target target)))
      else if target.enabled then
        (r.setTarget targetId (·.probed settings input.now answer),
          .returns (.ok (.target (target.probed settings input.now answer))))
      else (r, .returns (.ok (.target target)))
  | .viewing => (r, .returns (r.targetView targetId))

/-! ### Calls -/

/-- Where a call is, between its sessions. -/
inductive OperatorPhase
  | looking
  | locking
  /-- A registration that found no row. -/
  | inserting
  /-- The probe that follows the commit, or the view of a drained Target. -/
  | probing (targetId : UUID) (phase : ProbePhase)
  | done (result : OperatorResult)

/-- What a call does once it has its lock. -/
inductive RowResult
  | committed (registry : Registry) (phase : OperatorPhase)
  | inserts
  | failed (error : RegistryError)

/-- The commit of a command and of its receipt. -/
def Registry.commit (r : Registry) (request : OperatorRequest) (result : ReceiptResult)
    (phase : OperatorPhase) : RowResult :=
  match r.addReceipt request result with
  | .ok r => .committed r phase
  | .error error => .failed error

namespace RegisteredTarget

/-- A registration that changes what the Target is. -/
def identityChanged (t : RegisteredTarget) (connectionConfig : ConnectionConfig)
    (pool : RuntimePool) : Bool :=
  t.connectionConfig ≠ connectionConfig || t.pool ≠ pool

/-- A changed endpoint or pool has to be probed again. -/
def forgetHealth (t : RegisteredTarget) : RegisteredTarget :=
  { t with
    supportedProfiles := []
    activeSessionCount := none
    sessionCountObservedAt := none
    resourceObservedAt := none
    lastHealthCheckAt := none
    lastHealthError := some "RUNTIME_CONFIGURATION_CHANGED: Health probe required."
    status := if t.status ≠ .draining then .offline else t.status }

/-- The row of a Target that `upsert` finds. -/
def upserted (nonce : ℕ) (connectionConfig : ConnectionConfig) (credential : Option String)
    (pool : RuntimePool) (maxConcurrentExecutions : Option ℕ) (t : RegisteredTarget) :
    RegisteredTarget :=
  let t := if t.identityChanged connectionConfig pool then t.forgetHealth else t
  { t with
    connectionConfig := connectionConfig
    pool := pool
    enabled := true
    maxConcurrentExecutions := maxConcurrentExecutions.getD t.maxConcurrentExecutions
    credentialCiphertext := match credential with
      | some credential => ⟨credential, nonce⟩
      | none => t.credentialCiphertext }

/-- `disable_runtime_target`, on the row. -/
def disabled (t : RegisteredTarget) : RegisteredTarget :=
  { t with enabled := false, status := .offline }

/-- A probe promotes a healthy OFFLINE Target to ACTIVE and preserves DRAINING. -/
def stateSet (desiredState : RuntimeTargetStatus) (t : RegisteredTarget) : RegisteredTarget :=
  { t with
    enabled := true
    status := if desiredState = .active then .offline else .draining }

/-- What the deferral of a retained retry writes to its Target. -/
def deferred (now : Time) (diagnostic : String) (t : RegisteredTarget) : RegisteredTarget :=
  { t with
    status := .offline
    lastHealthCheckAt := some now
    lastHealthError := some (String.ofList (diagnostic.toList.take 500)) }

end RegisteredTarget

namespace OperatorRequest

/-- What a call returns for the record it finds of its key. -/
def lookup (r : Registry) (request : OperatorRequest) : Option OperatorResult :=
  if request.content.isRun then (r.run? request.idempotencyKey).map fun run =>
    if run.requestFingerprint ≠ request.content then
      .error (.idempotencyConflict "idempotency_key was already used with a different command.")
    else .ok (.run run)
  else (r.receipt? request.idempotencyKey).map fun receipt =>
    if receipt.commandType ≠ request.content.commandType ∨
        receipt.requestFingerprint ≠ request.content then
      .error (.idempotencyConflict "idempotency_key was already used with a different command.")
    else match receipt.result, request.content with
      | .target targetId, .upsert .. => match r.target? targetId with
        | some target => .ok (.target target)
        | none => .error (.idempotencyConflict ("The original registration was purged. Use a " ++
            "new idempotency_key to register a new Runtime Target."))
      | .target targetId, _ => r.targetView targetId
      | .singletonKey, _ => .ok (.maintenance r.maintenance)

/-- What a call does from its lock on. -/
def lockRow (input : CallInput) (r : Registry) (request : OperatorRequest) : RowResult :=
  match request.content with
  | .upsert name runtimeType connectionConfig credential pool maxConcurrentExecutions _ _ =>
    match r.targets.find? fun t =>
        t.connectionConfig.endpoint == connectionConfig.endpoint && t.name != name with
    | some duplicate => .failed (.endpointConflict duplicate.name duplicate.id)
    | none => match r.targets.find? (·.name == name) with
      | none =>
        if credential.getD "" = "" then .failed (.configuration
          "credential is required when registering a new Runtime Target.")
        else .inserts
      | some target =>
        if target.runtimeType ≠ runtimeType then .failed (.configuration
          ("runtime_type is immutable for an existing Runtime Target. Register a new target " ++
            "name for a different Runtime Driver."))
        else if target.identityChanged connectionConfig pool && input.reserved then
          .failed (.configuration
            ("Cannot change endpoint or pool while the Runtime Target has active, retained, or " ++
              "cleanup reservations. Drain it and register a new Target for replacement."))
        else (r.setTarget target.id (·.upserted input.nonce connectionConfig credential pool
          maxConcurrentExecutions)).commit request (.target target.id) (.probing target.id .reading)
  | .disable targetId _ _ => match r.target? targetId with
    | none => .failed (.targetNotFound targetId)
    | some target => (r.setTarget targetId (·.disabled)).commit request (.target targetId)
        (.done (.ok (.target target.disabled)))
  | .setState targetId desiredState _ _ => match r.target? targetId with
    | none => .failed (.targetNotFound targetId)
    | some _ => (r.setTarget targetId (·.stateSet desiredState)).commit request (.target targetId)
        (.probing targetId (if desiredState = .active then .reading else .viewing))
  | .setAdmission desiredState _ _ =>
    let maintenance := if r.maintenance.admissionState ≠ desiredState then
      ⟨desiredState, r.maintenance.version + 1⟩ else r.maintenance
    { r with maintenance := maintenance }.commit request .singletonKey
      (.done (.ok (.maintenance maintenance)))
  | .createRun _ _ _ => match r.runs.find? (·.status.isRunnable) with
    | some active => .failed (.maintenanceRunConflict active.id)
    | none =>
      let maintenance := if r.maintenance.admissionState ≠ .draining then
        ⟨.draining, r.maintenance.version + 1⟩ else r.maintenance
      let run : MaintenanceRun := ⟨input.newId, request.idempotencyKey, request.content,
        if input.selected = [] then .succeeded else .requested, input.selected⟩
      -- The flush of the Run, whose id and key are unique.
      if r.runs.any fun other => other.id == run.id || other.idempotencyKey == run.idempotencyKey
      then .failed .integrityError
      else .committed { r with maintenance := maintenance, runs := r.runs ++ [run] }
        (.done (.ok (.run run)))

/-- The row of a new Target: its name, endpoint and id are unique. -/
def insertTarget (settings : ProbeSettings) (input : CallInput) (r : Registry)
    (request : OperatorRequest) : RowResult :=
  match request.content with
  | .upsert name runtimeType connectionConfig credential pool maxConcurrentExecutions _ _ =>
    if r.targets.any fun t => t.id == input.newId || t.name == name ||
        t.connectionConfig.endpoint == connectionConfig.endpoint
    then .failed (.persistenceConflict
      "A concurrent Runtime Target registration conflicted. Retry to see the conflicting Target.")
    else
      let target : RegisteredTarget :=
        { id := input.newId
          name := name
          runtimeType := runtimeType
          pool := pool
          enabled := true
          status := .offline
          supportedProfiles := []
          maxConcurrentExecutions := (maxConcurrentExecutions.filter (· ≠ 0)).getD
            settings.runtimeDefaultMaxConcurrentExecutions
          connectionConfig := connectionConfig
          credentialCiphertext := ⟨credential.getD "", input.nonce⟩ }
      { r with targets := r.targets ++ [target] }.commit request (.target input.newId)
        (.probing input.newId .reading)
  -- Only an `upsert` inserts.
  | _ => .failed .integrityError

/-- What a handler checks before anything else. -/
def entry (request : OperatorRequest) : OperatorPhase :=
  match request.content with
  | .setState _ .offline _ _ => .done (.error (.configuration
      "desired_state must be ACTIVE or DRAINING. Use disable for durable disablement."))
  | _ => .looking

end OperatorRequest

/-! ### The service -/

/-- A call.  `applied` says that its transaction committed. -/
structure OperatorCall where
  request : OperatorRequest
  phase : OperatorPhase
  applied : Bool := false

/-- A probe of the monitor or of an operator. -/
structure Probe where
  targetId : UUID
  phase : ProbePhase

/-- The registry, its calls and its probes.  `answers` are the observations that a healthy
Runtime answered for. -/
structure OperatorService where
  registry : Registry := {}
  calls : List OperatorCall := []
  probes : List (Option Probe) := []
  answers : List ProbeObservation := []

/-- What happens next: a call or a probe begins or goes on, or a Worker writes. -/
inductive OperatorAction
  | call (request : OperatorRequest)
  | advance (call : ℕ) (input : CallInput)
  | probe (targetId : UUID)
  | advanceProbe (probe : ℕ) (input : CallInput)
  /-- A Worker defers the retained retry of an Execution with these rows. -/
  | deferRetainedRetry (execution : Tables) (clock : Clock) (lease : ExecutionLease)
      (targetId : UUID) (diagnostic : String)
  /-- `reserved` and `unconfirmed` are what `purge_target` reads of the Executions. -/
  | purge (targetId : UUID) (reserved unconfirmed : Bool)
  /-- The reconciler moves a Run. -/
  | reconcile (runId : UUID) (status : MaintenanceRunStatus)

/-- The observation that a step of a probe sees answered. -/
def ProbePhase.answered (settings : ProbeSettings) (input : CallInput) :
    ProbePhase → List ProbeObservation
  | .calling observed => match input.answer.health settings with
    | .ok _ => [observed]
    | .error _ => []
  | _ => []

/-- The deferral of these rows writes to the Target. -/
def Tables.deferralWrites (clock : Clock) (lease : ExecutionLease) (t : Tables) : Bool :=
  t.execution.retryStrategy = .fromFailedStep && (t.deferRetainedRetry clock lease).toBool

namespace OperatorService

/-- One call goes on. -/
def setCall (s : OperatorService) (i : ℕ) (call : OperatorCall) : OperatorService :=
  { s with calls := s.calls.set i call }

/-- A call after its write: committed, about to insert, or failed. -/
def settle (s : OperatorService) (i : ℕ) (call : OperatorCall) : RowResult → OperatorService
  | .committed registry phase =>
    { s with registry := registry }.setCall i { call with phase := phase, applied := true }
  | .inserts => s.setCall i { call with phase := .inserting }
  | .failed error => s.setCall i { call with phase := .done (.error error) }

/-- One session of a call. -/
def advance (settings : ProbeSettings) (s : OperatorService) (i : ℕ) (call : OperatorCall)
    (input : CallInput) : OperatorService :=
  match call.phase with
  | .looking => match call.request.lookup s.registry with
    | some result => s.setCall i { call with phase := .done result }
    | none => s.setCall i { call with phase := .locking }
  | .locking => s.settle i call (call.request.lockRow input s.registry)
  | .inserting => s.settle i call (call.request.insertTarget settings input s.registry)
  | .probing targetId phase =>
    let next := s.registry.probeStep settings input targetId phase
    { s with
      registry := next.1
      answers := s.answers ++ phase.answered settings input }.setCall i
      { call with phase := match next.2 with
        | .goesOn phase => .probing targetId phase
        | .returns result => .done result }
  | .done _ => s

/-- One step of a probe, whose answer is recorded. -/
def advanceProbe (settings : ProbeSettings) (s : OperatorService) (i : ℕ) (probe : Probe)
    (input : CallInput) : OperatorService :=
  let next := s.registry.probeStep settings input probe.targetId probe.phase
  { s with
    registry := next.1
    answers := s.answers ++ probe.phase.answered settings input
    probes := s.probes.set i (match next.2 with
      | .goesOn phase => some { probe with phase := phase }
      | .returns _ => none) }

/-- One action. -/
def step (settings : ProbeSettings) (s : OperatorService) : OperatorAction → OperatorService
  | .call request => { s with calls := s.calls ++ [{ request := request, phase := request.entry }] }
  | .advance i input => match s.calls[i]? with
    | some call => s.advance settings i call input
    | none => s
  | .probe targetId => { s with probes := s.probes ++ [some ⟨targetId, .reading⟩] }
  | .advanceProbe i input => match s.probes[i]? with
    | some (some probe) => s.advanceProbe settings i probe input
    | _ => s
  | .deferRetainedRetry execution clock lease targetId diagnostic =>
    if execution.deferralWrites clock lease then
      { s with registry := s.registry.setTarget targetId (·.deferred clock.now diagnostic) }
    else s
  | .purge targetId reserved unconfirmed => match s.registry.target? targetId with
    | some target =>
      if target.enabled || target.status ≠ .offline || reserved || unconfirmed then s
      else { s with registry := { s.registry with
        targets := s.registry.targets.filter (·.id != targetId)
        purged := s.registry.purged ++ [targetId] } }
    | none => s
  | .reconcile runId status => { s with registry := { s.registry with
      runs := s.registry.runs.updateWhere (·.id == runId) fun run =>
        { run with status := status } } }

/-- A run of the service from empty tables. -/
def run (settings : ProbeSettings) (acts : List OperatorAction) : OperatorService :=
  Transition.run (step settings) {} acts

end OperatorService

end ExecutorService
