/-
The API: materialized Artifacts, handlers and transports
(`infrastructure/materialized_artifacts/`, `interfaces/http/executions/`,
`interfaces/mcp/server.py`).

A request runs on the rows as it finds them.  What it resolves outside the database (the
Step sources of a spec, the text of an Artifact) comes with the request, as the value or
the error of its resolution.  Ids that a request draws with `uuid4` are new.

* `Request.run` — a handler, after the authorisation of its transport;
* `authorizedCaller`, `authorizeTool` — the authorisation of REST and MCP;
* `handle` — a request over REST or MCP: the rows it leaves and the response.
-/
import ExecutorService.Api

namespace ExecutorService

/-! ### Materialized Artifacts -/

/-- `MaterializeArtifactCommand`, with its fingerprint and the text that
`ArtifactContentResolver.resolve` returns. -/
structure MaterializeCommand where
  executionId : UUID
  idempotencyKey : Key
  fingerprint : Key
  artifactType : ArtifactType
  content : Except ApiError String
  name : Option String := none
  description : Option String := none
  mediaType : Option String := none
  appendToNotebook : Bool := false

/-- The SHA-256 digests of `materialized_artifacts/policy.py`: the id from the
fingerprint, the identity from the Execution, the path and the checksum. -/
structure Digests where
  artifactId : Key → UUID
  identityHash : UUID → String → String → Key

/-- `ArtifactRegistrationError`. -/
def registrationError (message : String) : ApiError :=
  ⟨.artifactRegistrationError, message, [], none⟩

namespace MaterializeCommand

/-- `SAFE_NAME`. -/
def isSafeName (name : String) : Bool :=
  match name.toList with
  | [] => false
  | first :: rest => first.isAlphanum && rest.length ≤ 254 &&
      rest.all fun c => c.isAlphanum || c == '.' || c == '_' || c == '-'

/-- The file name of a materialized Artifact. -/
def artifactName (c : MaterializeCommand) : Except ApiError String :=
  let default := if c.artifactType = .report then "final-report.md" else "artifact.txt"
  let name := (c.name.filter (· ≠ "")).getD default
  if ¬ isSafeName name then .error (registrationError "Artifact name contains unsafe characters.")
  else if c.artifactType = .report ∧ ¬ name.toLower.endsWith ".md" then .ok (name ++ ".md")
  else .ok name

/-- The directory of an Artifact type. -/
def directory : ArtifactType → String
  | .dataset => "datasets"
  | .plot => "plots"
  | .model => "models"
  | .metric => "metrics"
  | .log => "logs"
  | _ => "other"

/-- Where a materialized Artifact is written. -/
def targetPath (workspace : String) (artifactType : ArtifactType) (name : String) : String :=
  if artifactType = .report then workspace ++ "/reports/" ++ name
  else workspace ++ "/artifacts/" ++ directory artifactType ++ "/" ++ name

/-- The media type of a materialized Artifact. -/
def mediaTypeOf (c : MaterializeCommand) (runtimeMediaType : Option String) : String :=
  match c.mediaType with
  | some mediaType => mediaType
  | none =>
    if c.artifactType = .report then "text/markdown"
    else (runtimeMediaType.filter (· ≠ "")).getD "text/plain"

end MaterializeCommand

namespace ExecutionRecord

/-- The kind of a materialization, as its receipt has it. -/
def materializeType : String := "execution_artifact_materialize"

/-- `_receipt` and `validate_receipt`: the Artifact of a completed receipt, `none` for a
pending one or without one. -/
def materializedAs (r : ExecutionRecord) (c : MaterializeCommand) :
    Except ApiError (Option UUID) :=
  match r.tables.commandReceipt? c.idempotencyKey with
  | none => .ok none
  | some receipt =>
    if receipt.commandType ≠ materializeType ∨ receipt.requestFingerprint ≠ c.fingerprint then
      .error Command.receiptConflict
    else .ok (r.materialized.lookup c.idempotencyKey)

/-- What a materialization writes: the text, the name and the workspace it goes to. -/
structure Ready where
  content : String
  name : String
  workspace : String

/-- The part of `materialize` before the reservation: what it returns early, or what it
writes. -/
def admission (r : ExecutionRecord) (c : MaterializeCommand) : Except ApiError UUID ⊕ Ready :=
  match r.materializedAs c with
  | .error error => .inl (.error error)
  | .ok (some artifactId) => .inl (.ok artifactId)
  | .ok none => match c.content with
    | .error error => .inl (.error error)
    | .ok content =>
      if r.tables.execution.status ≠ .succeeded then .inl (.error ⟨.invalidStateTransition,
        "Execution Artifacts authored after execution require SUCCEEDED state.", [], none⟩)
      else match r.tables.execution.workspacePath with
        | none => .inl (.error (registrationError "Execution workspace is not available."))
        | some workspace => match c.artifactName with
          | .error error => .inl (.error error)
          | .ok name => .inr ⟨content, name, workspace⟩

/-- `reserve`: a pending receipt, unless the key has one. -/
def reserve (c : MaterializeCommand) (r : ExecutionRecord) : ExecutionRecord :=
  match r.tables.commandReceipt? c.idempotencyKey with
  | some _ => r
  | none => { r with
      tables := { r.tables with
        receipts := r.tables.receipts ++
          [⟨c.idempotencyKey, materializeType, c.fingerprint, none⟩] } }

/-- The receipt of a key, completed with an Artifact. -/
def complete (key : Key) (artifactId : UUID) (r : ExecutionRecord) : ExecutionRecord :=
  { r with materialized := r.materialized ++ [(key, artifactId)] }

/-- A new Artifact row. -/
def addArtifact (a : ExecutionArtifact) (r : ExecutionRecord) : ExecutionRecord :=
  { r with
    artifacts := r.artifacts ++ [a]
    tables := { r.tables with
      artifacts := r.tables.artifacts ++
        [⟨a.identityHash, a.artifactType, a.status, a.relativePath.getD ""⟩] } }

end ExecutionRecord

/-- What the API reads beside the database. -/
structure Api where
  settings : Settings
  offerings : RuntimeType → Option RuntimeOffering
  storage : RuntimeStorage
  digests : Digests

/-- `append_notebook_markdown`. -/
def appendNotebookMarkdown (storage : RuntimeStorage) (e : ExecutionRow) (key : Key)
    (content : String) : Except ApiError Unit :=
  match e.notebookPath with
  | none => .error (registrationError "Execution notebook is not available.")
  | some path => match storage.readNotebook e.runtimeType e.runtimeTargetId path e.runtimePool with
    | none => .error .internal
    | some notebook => match notebook.cells with
      | none => .error .internal
      | some cells =>
        if cells.any (·.idempotencyKey == some key) then .ok ()
        else
          let appended := { notebook with cells := some (cells ++ [⟨content, some key⟩]) }
          if storage.writeNotebook e.runtimeType e.runtimeTargetId path appended e.runtimePool then
            .ok ()
          else .error .internal

namespace Database

/-- The row of a new Artifact. -/
def newArtifact (digests : Digests) (now : Time) (c : MaterializeCommand) (name : String)
    (identity : Key) (file : RuntimeFileMetadata) : ExecutionArtifact where
  id := digests.artifactId c.fingerprint
  artifactType := c.artifactType
  storageType := .pv
  status := .available
  name := name
  description := c.description
  relativePath := some file.path
  mediaType := some (c.mediaTypeOf file.mediaType)
  sizeBytes := some file.sizeBytes
  checksumSha256 := some file.checksumSha256
  identityHash := identity
  createdAt := now

/-- `persist`: the Artifact with the identity, or a new row. -/
def persistArtifact (digests : Digests) (now : Time) (c : MaterializeCommand)
    (destination name : String) (file : RuntimeFileMetadata) (d : Database) :
    Database × Except ApiError UUID :=
  let identity := digests.identityHash c.executionId destination file.checksumSha256
  match d.artifactByIdentity? identity with
  | some a => (d.update c.executionId (·.complete c.idempotencyKey a.id), .ok a.id)
  | none =>
    let a := newArtifact digests now c name identity file
    -- The primary key is taken.
    if (d.artifact? a.id).isSome then (d, .error .internal)
    else (d.update c.executionId fun r => (r.addArtifact a).complete c.idempotencyKey a.id, .ok a.id)

/-- The part of `materialize` after the reservation, under the lock of the Execution. -/
def writeArtifact (api : Api) (now : Time) (c : MaterializeCommand) (ready : ExecutionRecord.Ready)
    (e : ExecutionRow) (d : Database) : Database × Except ApiError UUID :=
  let destination := MaterializeCommand.targetPath ready.workspace c.artifactType ready.name
  match api.storage.writeText e.runtimeType e.runtimeTargetId destination ready.content
    e.runtimePool with
  | none => (d, .error .internal)
  | some file =>
    match if c.appendToNotebook then
        appendNotebookMarkdown api.storage e c.idempotencyKey ready.content else .ok () with
    | .error error => (d, .error error)
    | .ok () => d.persistArtifact api.digests now c destination ready.name file

/-- `materialize`: a failed write leaves the receipt pending. -/
def materialize (api : Api) (now : Time) (c : MaterializeCommand) (d : Database) :
    Database × Except ApiError UUID :=
  match d.record? c.executionId with
  | none => (d, .error (.executionNotFound c.executionId))
  | some r => match r.admission c with
    | .inl result => (d, result)
    | .inr ready => (d.update c.executionId (·.reserve c)).writeArtifact api now c ready
        r.tables.execution

end Database

/-! ### Handlers -/

/-- The Execution and Artifact requests. -/
inductive Request
  /-- The request with its spec resolved, which starts at Step 0. -/
  | submit (resolved : Except ApiError SubmitRequest)
  | cancel (executionId : UUID) (idempotencyKey : Key) (reason : Option String)
  | retry (executionId : UUID) (idempotencyKey : Key)
  | createOperation (executionId : UUID) (specSchemaVersion : String)
      (resolved : Except ApiError CreateOperationCommand)
  | finalize (executionId : UUID) (idempotencyKey requestFingerprint : Key) (expectedVersion : ℕ)
  | executions (filter : Database.ExecutionFilter) (cursor : Option Cursor) (limit : ℕ)
  | execution (executionId : UUID)
  | executionResult (executionId : UUID)
  | notebook (executionId : UUID) (full : Bool) (startIndex limit : ℕ)
  | notebookCell (executionId : UUID) (cellIndex : ℕ)
  | diagnostics (executionId : UUID) (attemptId operationId stepId : Option UUID)
      (cursor : Option Cursor) (limit : ℕ)
  | steps (executionId : UUID) (cursor : Option Cursor) (limit : ℕ)
  | step (executionId stepId : UUID)
  | operations (executionId : UUID) (cursor : Option Cursor) (limit : ℕ)
  | operation (executionId operationId : UUID)
  | operationResult (executionId operationId : UUID)
  | operationSteps (executionId operationId : UUID) (cursor : Option Cursor) (limit : ℕ)
  | attempts (executionId : UUID) (cursor : Option Cursor) (limit : ℕ)
  | attempt (executionId attemptId : UUID)
  | attemptSteps (executionId attemptId : UUID) (cursor : Option Cursor) (limit : ℕ)
  | events (executionId : UUID) (afterSequence : ℕ) (cursor : Option Cursor) (limit : ℕ)
  | artifacts (executionId : UUID) (cursor : Option Cursor) (limit : ℕ)
  | materialize (command : MaterializeCommand)
  | artifact (artifactId : UUID)
  | artifactContent (artifactId : UUID) (range : Option String)

/-- The bodies of the responses. -/
inductive ResponseBody
  | command (response : CommandResponse)
  | executions (page : Page ExecutionSummaryView)
  | execution (view : ExecutionDetailView)
  | executionResult (bundle : ExecutionResultBundle)
  | notebook (view : NotebookView)
  | notebookCell (cell : NotebookCell)
  | diagnostics (page : Page ExecutionDiagnostic)
  | steps (page : Page ExecutionStep)
  | step (step : ExecutionStep)
  | operations (page : Page ExecutionOperationView)
  | operation (view : ExecutionOperationView)
  | operationResult (bundle : OperationResultBundle)
  | attempts (page : Page ExecutionAttemptView)
  | attempt (view : ExecutionAttemptView)
  | attemptSteps (page : Page StepAttemptRow)
  | events (page : Page ExecutionEventView)
  | artifacts (page : Page ExecutionArtifactView)
  | artifact (view : ExecutionArtifactView)
  | artifactContent (content : ArtifactContent)

/-- What a submit returns for the Execution that has its key. -/
def ExecutionRecord.submitted (settings : Settings) (q : SubmitRequest) (r : ExecutionRecord) :
    Except ApiError ResponseBody :=
  match StoredExecution.answer ⟨r.tenantId, { rows := ⟨r.tables, r.log⟩ }⟩ q with
  | .error error => .error (q.failure settings error)
  | .ok (_, operationId) => .ok (.command (.fromDomain r.tables operationId))

namespace Database

/-- A lifecycle command on a stored Execution. -/
def command (settings : Settings) (now : Time) (executionId : UUID) (command : Command)
    (d : Database) : Database × Except ApiError ResponseBody :=
  match d.record? executionId with
  | none => (d, .error (.executionNotFound executionId))
  | some r =>
    let (rows, result) := command.call settings now r.tables
    (d.update executionId fun r => { r with tables := rows },
      result.map fun operationId => .command (.fromDomain rows operationId))

/-- `get_by_submit_key`. -/
def getBySubmitKey (tenantId : String) (key : Key) (d : Database) : Option ExecutionRecord :=
  d.records.find? fun r => r.tenantId == tenantId && r.tables.execution.idempotencyKey == key

/-- The `submit` of a validated request, which looks its key up first. -/
def submitCommand (settings : Settings) (now : Time) (q : SubmitRequest) (userId : String)
    (d : Database) : Database × Except ApiError ResponseBody :=
  match d.getBySubmitKey q.tenantId q.idempotencyKey with
  | some r => (d, r.submitted settings q)
  | none => match ExecutorService.submit settings now q.toSubmitExecutionCommand with
    | .error error => (d, .error (q.failure settings (.rejected error)))
    | .ok rows =>
      let r : ExecutionRecord := {
        tenantId := q.tenantId, userId := userId, projectId := q.projectId
        sessionId := q.sessionId, tables := rows }
      (⟨d.records ++ [r]⟩, .ok (.command (.fromDomain rows (some q.operationId))))

/-- `submit_execution`: the caller, never the body, names the tenant and the scope. -/
def submit (api : Api) (caller : Caller) (now : Time) (resolved : Except ApiError SubmitRequest)
    (d : Database) : Database × Except ApiError ResponseBody :=
  match resolved with
  | .error error => (d, .error error)
  | .ok q => match requireUser caller with
    | .error error => (d, .error error)
    | .ok userId => match requireTenant caller with
      | .error error => (d, .error error)
      | .ok tenantId =>
        let q : SubmitRequest := { q with
          tenantId := tenantId
          projectId := caller.projectId
          sessionId := caller.sessionId }
        match q.validate api.settings api.offerings with
        | .error error => (d, .error (q.failure api.settings error))
        | .ok () => d.submitCommand api.settings now q userId

end Database

namespace Request

/-- The Execution in the path, or in the arguments of the tool. -/
def executionId? : Request → Option UUID
  | .submit _ | .executions .. | .artifact _ | .artifactContent .. => none
  | .cancel id .. | .retry id _ | .createOperation id .. | .finalize id .. | .execution id
  | .executionResult id | .notebook id .. | .notebookCell id _ | .diagnostics id .. | .steps id ..
  | .step id _ | .operations id .. | .operation id _ | .operationResult id _
  | .operationSteps id .. | .attempts id .. | .attempt id _ | .attemptSteps id .. | .events id ..
  | .artifacts id .. => some id
  | .materialize c => some c.executionId

/-- The Artifact in the path. -/
def artifactId? : Request → Option UUID
  | .artifact id | .artifactContent id _ => some id
  | _ => none

/-- The method is not GET. -/
def isWrite : Request → Bool
  | .submit _ | .cancel .. | .retry .. | .createOperation .. | .finalize .. | .materialize _ => true
  | _ => false

/-- The request has a tool. -/
def hasTool : Request → Bool
  | .diagnostics .. | .step .. | .artifactContent .. => false
  | _ => true

/-- The handler of a request that its transport has authorised. -/
def run (api : Api) (caller : Caller) (now : Time) (d : Database) :
    Request → Database × Except ApiError ResponseBody
  | .submit resolved => d.submit api caller now resolved
  | .cancel id key reason => d.command api.settings now id (.cancel key reason)
  | .retry id key => d.command api.settings now id (.retry key)
  | .createOperation id version resolved => match resolved with
    | .error error => (d, .error error)
    | .ok c => d.command api.settings now id (.create version c)
  | .finalize id key fingerprint version =>
    d.command api.settings now id (.finalize key fingerprint version)
  | .executions filter cursor limit =>
    (d, .executions <$> d.executions filter caller.userId caller.tenantId cursor limit)
  | .execution id => (d, (.execution <| executionDetailView ·) <$> d.execution id)
  | .executionResult id => (d, .executionResult <$> d.executionResult id)
  | .notebook id full start limit =>
    (d, .notebook <$> readNotebook api.storage d id full start limit)
  | .notebookCell id index => (d, .notebookCell <$> readCell api.storage d id index)
  | .diagnostics id attemptId operationId stepId cursor limit =>
    (d, .diagnostics <$> d.diagnostics id attemptId operationId stepId cursor limit)
  | .steps id cursor limit => (d, .steps <$> d.steps id cursor limit)
  | .step id stepId => (d, .step <$> d.step id stepId)
  | .operations id cursor limit => (d, .operations <$> d.operations id cursor limit)
  | .operation id operationId => (d, .operation <$> d.operation id operationId)
  | .operationResult id operationId => (d, .operationResult <$> d.operationResult id operationId)
  | .operationSteps id operationId cursor limit =>
    (d, .steps <$> d.operationSteps id operationId cursor limit)
  | .attempts id cursor limit => (d, .attempts <$> d.attempts id cursor limit)
  | .attempt id attemptId => (d, .attempt <$> d.attempt id attemptId)
  | .attemptSteps id attemptId cursor limit =>
    (d, .attemptSteps <$> d.attemptSteps id attemptId cursor limit)
  | .events id after cursor limit => (d, .events <$> d.events id after cursor limit)
  | .artifacts id cursor limit => (d, .artifacts <$> d.artifacts id cursor limit)
  | .materialize c =>
    let (d, result) := d.materialize api now c
    (d, do
      let artifactId ← result
      .artifact <$> d.artifact artifactId)
  | .artifact id => (d, .artifact <$> d.artifact id)
  | .artifactContent id range => (d, .artifactContent <$> openArtifact api.storage d id range)

end Request

/-! ### Transports -/

/-- The two transports of the API. -/
inductive Transport
  | rest | mcp
  deriving DecidableEq, Repr

/-- The error of an Artifact whose Execution is hidden. -/
def artifactNotFound (artifactId : UUID) : ApiError :=
  ⟨.artifactNotFound, s!"Artifact {artifactId} was not found.", [], none⟩

/-- The rule for an Artifact: that of its Execution, with an error of its own. -/
def authorizeArtifact (d : Database) (caller : Caller) (artifactId : UUID) (write : Bool) :
    Except ApiError Unit := do
  let view ← d.artifact artifactId
  match authorizeExecution d caller view.executionId write with
  | .ok () => .ok ()
  | .error error =>
    .error (if error.code = .executionNotFound then artifactNotFound artifactId else error)

/-- `authorized_caller`, the dependency of every route. -/
def authorizedCaller (d : Database) (caller : Caller) (request : Request) : Except ApiError Unit :=
  match request.executionId?, request.artifactId? with
  | some executionId, _ => authorizeExecution d caller executionId request.isWrite
  | none, some artifactId => authorizeArtifact d caller artifactId request.isWrite
  | none, none => do
    let _ ← requireTenant caller
    if request.isWrite then
      let _ ← requireUser caller
    return ()

/-- What a tool checks before its handler. -/
def authorizeTool (d : Database) (caller : Caller) (request : Request) : Except ApiError Unit :=
  match request.executionId?, request.artifactId? with
  | some executionId, _ => authorizeExecution d caller executionId request.isWrite
  | none, some artifactId => authorizeArtifact d caller artifactId false
  | none, none => match request with
    | .executions .. => (fun _ => ()) <$> requireTenant caller
    -- `execution_submit` reads tenant and user when it builds the command.
    | _ => .ok ()

/-- A response over either transport. -/
inductive Response
  | ok (status : ℕ) (body : ResponseBody)
  | error (status : ℕ) (error : ApiError)
  | toolResult (body : ResponseBody)
  /-- `[code] message details=…`, with the details as a list. -/
  | toolError (text : String) (details : List ErrorIssue)
  | unknownTool

/-- The status of a successful response. -/
def successStatus (request : Request) (body : ResponseBody) : ℕ :=
  match request with
  | .submit _ | .cancel .. | .retry .. | .createOperation .. | .finalize .. => 202
  | .materialize _ => 201
  | _ => match body with
    | .artifactContent content => if content.content.isPartial then 206 else 200
    | _ => 200

/-- The response over HTTP. -/
def restResponse (request : Request) : Except ApiError ResponseBody → Response
  | .ok body => .ok (successStatus request body) body
  | .error error => .error error.code.httpStatus error

/-- `_public_tool_error`. -/
def toolResponse : Except ApiError ResponseBody → Response
  | .ok body => .toolResult body
  | .error error => .toolError ("[" ++ error.code.value ++ "] " ++ error.message) error.details

/-- The handler of a request, if it is authorised. -/
def Request.runAuthorized (api : Api) (caller : Caller) (now : Time) (request : Request)
    (d : Database) : Except ApiError Unit → Database × Except ApiError ResponseBody
  | .error error => (d, .error error)
  | .ok () => request.run api caller now d

/-- The authorisation of a transport. -/
def authorization (transport : Transport) (caller : Caller) (request : Request) (d : Database) :
    Except ApiError Unit :=
  match transport with
  | .rest => authorizedCaller d caller request
  | .mcp => authorizeTool d caller request

/-- The response of a transport. -/
def Transport.respond (request : Request) (result : Except ApiError ResponseBody) :
    Transport → Response
  | .rest => restResponse request result
  | .mcp => toolResponse result

/-- The transport offers the request. -/
def Transport.offers (request : Request) : Transport → Bool
  | .rest => true
  | .mcp => request.hasTool

/-- A request over REST or MCP: the rows it leaves, and its response. -/
def handle (api : Api) (transport : Transport) (caller : Caller) (now : Time) (request : Request)
    (d : Database) : Database × Response :=
  if transport.offers request then
    let (d', result) := request.runAuthorized api caller now d
      (authorization transport caller request d)
    (d', transport.respond request result)
  else (d, .unknownTool)

end ExecutorService
