/-
The store of Step results.

`FilesystemStepResultStore` (`result_storage/steps.py`) collects the outputs of a
Step in a `.partial` directory: their files, and one line of `outputs.jsonl` for
each batch.  The counters of an open result stay in memory.  `seal` writes the
manifest from both and renames the directory.

`FilesystemExecutionResultStore` (`result_storage/__init__.py`) runs each call in
a thread under an asyncio lock.  A caller that is cancelled releases the lock, and
its thread goes on.  So a call is a `Program` over file operations, each of which
may fail with or without having taken effect, and threads interleave between
operations.

The model is of one result directory: calls for different directories share
nothing but the process.  `.partial` and the final directory are named by the
fields of the identity other than its sequence.
-/
import ExecutorService.Codec
import ExecutorService.Enums
import ExecutorService.Program
import ExecutorService.Transition

namespace ExecutorService.ResultStore

open Codec (Text Python CodecError RuntimeOutputRecord RuntimeOutputRepresentation OutputKind
  OutputDescriptor OutputFile RepresentationDescriptor)

/-! ### Files -/

/-- What a request says of the Step result, as far as the store checks it. -/
structure StepResultIdentity where
  sequence : ℤ
  fencingToken : ℤ
  deriving DecidableEq

/-- The source file of an Execution. -/
structure ExecutionSourceReference where
  relativePath : Text
  checksumSha256 : Text
  sizeBytes : ℕ
  deriving DecidableEq

/-- The state of a Step result. -/
inductive ResultState
  | opened | finalized | failed | aborted
  deriving DecidableEq, Repr

/-- `.state.json`. -/
structure Header where
  state : ResultState
  identity : StepResultIdentity
  source : ExecutionSourceReference
  deriving DecidableEq

/-- A line of `outputs.jsonl`. -/
structure LogEntry (F : Type) where
  batchId : UUID
  requestSha256 : Text
  outputs : List (OutputDescriptor F)

/-- `outputs.jsonl`: its lines, and whether bytes without a newline follow them.
A line is `none` when an entry was appended to such bytes: JSON does not read it. -/
structure LogFile (F : Type) where
  lines : List (Option (LogEntry F)) := []
  torn : Bool := false

/-- What the header says of the outputs. -/
structure OutputSummary where
  outputCount : ℕ
  outputTypes : List (OutputKind × ℕ)
  streamNames : List Text
  mimeTypes : List Text
  imageCount : ℕ
  hasError : Bool

/-- `manifest.json`. -/
structure Manifest (F : Type) where
  header : Header
  state : ResultState
  complete : Bool
  outputs : List (OutputDescriptor F)
  outputCount : ℕ
  representationCount : ℕ
  totalSizeBytes : ℕ
  executionCount : Option ℤ
  errorMessage : Option Text
  outputSummary : OutputSummary

/-- The files of a result directory.  `temporaries` are the pids with a `.manifest.json.<pid>.tmp`
in it. -/
structure Directory (F : Type) where
  state : Option Header := none
  log : Option (LogFile F) := none
  files : List (OutputFile × List UInt8) := []
  manifest : Option (Manifest F) := none
  temporaries : List ℕ := []

section

variable {F : Type}

/-- The content of an output file; the latest write of it comes first. -/
def Directory.content (d : Directory F) (file : OutputFile) : Option (List UInt8) :=
  (d.files.find? (·.1 == file)).map (·.2)

/-- A line behind the others; behind a torn one it makes both unreadable. -/
def LogFile.append (f : LogFile F) (entry : LogEntry F) : LogFile F :=
  ⟨f.lines ++ [if f.torn then none else some entry], false⟩

/-- `json.loads` of every line. -/
def parseLines : List (Option (LogEntry F)) → Option (List (LogEntry F))
  | [] => some []
  | none :: _ => none
  | some entry :: lines => (parseLines lines).map (entry :: ·)

/-! ### The log in memory -/

/-- An acknowledged batch, as the log object remembers it. -/
structure Batch where
  requestSha256 : Text
  endOffset : ℕ
  outputCount : ℕ
  representationCount : ℕ
  totalSizeBytes : ℕ
  deriving DecidableEq

/-- `_OutputLog`; of two batches with one id the first counts. -/
structure OutputLog where
  header : Header
  outputCount : ℕ := 0
  representationCount : ℕ := 0
  totalSizeBytes : ℕ := 0
  batches : List (UUID × Batch) := []
  deriving DecidableEq

/-- The number of representations of the outputs. -/
def representationCount (outputs : List (OutputDescriptor F)) : ℕ :=
  (outputs.map (·.representations.length)).sum

/-- The size of all representations. -/
def totalSizeBytes (outputs : List (OutputDescriptor F)) : ℕ :=
  (outputs.map fun output => (output.representations.map (·.sizeBytes)).sum).sum

/-- The receipt of a batch that follows `offset` outputs. -/
def LogEntry.batch (entry : LogEntry F) (offset : ℕ) : Batch where
  requestSha256 := entry.requestSha256
  endOffset := offset + entry.outputs.length
  outputCount := entry.outputs.length
  representationCount := ResultStore.representationCount entry.outputs
  totalSizeBytes := ResultStore.totalSizeBytes entry.outputs

/-- The object after a batch. -/
def OutputLog.add (log : OutputLog) (entry : LogEntry F) : OutputLog :=
  let batch := entry.batch log.outputCount
  { log with
    outputCount := batch.endOffset
    representationCount := log.representationCount + batch.representationCount
    totalSizeBytes := log.totalSizeBytes + batch.totalSizeBytes
    batches := (entry.batchId, batch) :: log.batches }

/-- The batch with an id. -/
def OutputLog.find (log : OutputLog) (batchId : UUID) : Option Batch :=
  (log.batches.find? (·.1 == batchId)).map (·.2)

/-! ### Operations of a thread -/

/-- The result's directories, and what the process has in memory: its log
objects, the one `_logs` holds for the directory, and its pid. -/
structure Store (F : Type) where
  final : Option (Directory F) := none
  working : Option (Directory F) := none
  objects : List OutputLog := []
  current : Option ℕ := none
  pid : ℕ := 1

/-- How an operation fails: in the file system, or with an error of the store. -/
inductive Failure
  | io
  | codec (error : CodecError)
  deriving DecidableEq

/-- `ResultStorageError`. -/
def Failure.storage (message : String) : Failure :=
  .codec (.resultStorage message)

/-- What happens to one file operation: a failed one may have taken effect, and a
write to the log may have left part of its line. -/
inductive Io
  | done
  | failed (performed : Bool)
  | torn
  deriving DecidableEq

/-- The operations of the store on its files and its log objects. -/
inductive Op (F : Type) : Type → Type
  | finalExists : Op F Bool
  | workingExists : Op F Bool
  | loadTerminal : Op F (Manifest F)
  | loadState : Op F Header
  | makeWorking : Op F Unit
  | writeSource : Op F Unit
  | createLog : Op F Unit
  | writeState (header : Header) : Op F Unit
  | requireWorking : Op F Unit
  | currentLog : Op F (Option ℕ)
  | readLog (repair : Bool) : Op F (List (LogEntry F))
  | keepLog (log : OutputLog) : Op F ℕ
  | object (log : ℕ) : Op F OutputLog
  | writeOutput (file : OutputFile) (body : List UInt8) : Op F Unit
  | writeLine (entry : LogEntry F) : Op F Unit
  | syncLog : Op F Unit
  | addEntry (log : ℕ) (entry : LogEntry F) : Op F Batch
  | createTemporary : Op F Unit
  | replaceManifest (manifest : Manifest F) : Op F Unit
  | removeTemporary : Op F Unit
  | removeState : Op F Unit
  | removeLog : Op F Unit
  | forgetLog : Op F Unit
  | syncWorking : Op F Unit
  | publish : Op F Unit
  | syncFinal : Op F Unit

/-- The reply to an operation that would turn `s` into `s'` and return `value`. -/
def Io.reply {α : Type} (io : Io) (s s' : Store F) (value : α) : Store F × Except Failure α :=
  match io with
  | .done => (s', .ok value)
  | .failed true => (s', .error .io)
  | .failed false | .torn => (s, .error .io)

/-- A write below the working directory, which it creates if need be.  For the files of `begin`
and `append` it is a whole `atomic_write`: what is left of an earlier one makes it fail, as any
file operation may. -/
def Store.write (s : Store F) (f : Directory F → Directory F) : Store F :=
  { s with working := some (f (s.working.getD {})) }

/-- The temporary manifest of a process is there. -/
def Store.hasTemporary (s : Store F) (pid : ℕ) : Bool :=
  s.working.any (·.temporaries.contains pid)

/-- `_read_log`. -/
def Op.performReadLog (io : Io) (s : Store F) (repair : Bool) :
    Store F × Except Failure (List (LogEntry F)) :=
  match s.working with
  | none => (s, .error (.storage "Open Step result output log is unavailable."))
  | some d => match d.log with
    | none => (s, .error (.storage "Open Step result output log is unavailable."))
    | some f =>
      let s' := if repair then { s with working := some { d with log := some ⟨f.lines, false⟩ } }
        else s
      match io.reply s s' (), parseLines f.lines with
      | (s', .error x), _ => (s', .error x)
      | (s', .ok _), none =>
        (s', .error (.storage "Open Step result output log is invalid."))
      | (s', .ok _), some entries => (s', .ok entries)

/-- The line of a batch, appended to the log file. -/
def Op.performWriteLine (io : Io) (s : Store F) (entry : LogEntry F) :
    Store F × Except Failure Unit :=
  match s.working with
  | none => (s, .error .io)
  | some d =>
    let f := d.log.getD {}
    if io = .torn then
      ({ s with working := some { d with log := some ⟨f.lines, true⟩ } }, .error .io)
    else
      io.reply s { s with working := some { d with log := some (f.append entry) } } ()

/-- What a file operation does, and its reply. -/
def Op.perform (io : Io) (s : Store F) : {α : Type} → Op F α → Store F × Except Failure α
  | _, .finalExists => io.reply s s s.final.isSome
  | _, .workingExists => io.reply s s s.working.isSome
  | _, .loadTerminal => match s.final.bind (·.manifest) with
    | some manifest => io.reply s s manifest
    | none => (s, .error .io)
  | _, .loadState => match s.working.bind (·.state) with
    | some header => io.reply s s header
    | none => (s, .error (.storage "Open Step result state is unavailable."))
  | _, .makeWorking => match s.working with
    | some _ => (s, .error .io)
    | none => io.reply s { s with working := some {} } ()
  | _, .writeSource => io.reply s (s.write id) ()
  | _, .createLog => io.reply s (s.write fun d => { d with log := some {} }) ()
  | _, .writeState header => io.reply s (s.write fun d => { d with state := some header }) ()
  | _, .requireWorking => match s.working with
    | some _ => io.reply s s ()
    | none => (s, .error .io)
  | _, .currentLog => (s, .ok s.current)
  | _, .readLog repair => performReadLog io s repair
  | _, .keepLog log =>
    ({ s with objects := s.objects ++ [log], current := some s.objects.length },
      .ok s.objects.length)
  | _, .object log => match s.objects[log]? with
    | some found => (s, .ok found)
    | none => (s, .error .io)
  | _, .writeOutput file body =>
    io.reply s (s.write fun d => { d with files := (file, body) :: d.files }) ()
  | _, .writeLine entry => performWriteLine io s entry
  | _, .syncLog => io.reply s s ()
  | _, .addEntry log entry => match s.objects[log]? with
    | some found =>
      ({ s with objects := s.objects.set log (found.add entry) },
        .ok (entry.batch found.outputCount))
    | none => (s, .error .io)
  | _, .createTemporary =>
    -- Opened with mode `xb`, which takes no file that is there.
    if s.hasTemporary s.pid then (s, .error .io)
    else io.reply s (s.write fun d => { d with temporaries := s.pid :: d.temporaries }) ()
  | _, .replaceManifest manifest =>
    if s.hasTemporary s.pid then
      io.reply s (s.write fun d => { d with
        manifest := some manifest
        temporaries := d.temporaries.filter (· != s.pid) }) ()
    else (s, .error .io)
  | _, .removeTemporary =>
    io.reply s { s with working := s.working.map fun d => { d with
      temporaries := d.temporaries.filter (· != s.pid) } } ()
  | _, .removeState => match s.working with
    | some d =>
      if d.state.isSome then io.reply s { s with working := some { d with state := none } } ()
      else (s, .error .io)
    | none => (s, .error .io)
  | _, .removeLog => match s.working with
    | some d =>
      if d.log.isSome then io.reply s { s with working := some { d with log := none } } ()
      else (s, .error .io)
    | none => (s, .error .io)
  | _, .forgetLog => ({ s with current := none }, .ok ())
  | _, .syncWorking => match s.working with
    | some _ => io.reply s s ()
    | none => (s, .error .io)
  | _, .publish => match s.working, s.final with
    | some d, none => io.reply s { s with final := some d, working := none } ()
    | _, _ => (s, .error .io)
  | _, .syncFinal => io.reply s s ()

end

/-! ### Calls -/

/-- What a call runs in its thread. -/
abbrev Thread (F α : Type) := Program (Op F) Failure Failure α

section

variable {F : Type}

/-- A computation that may raise. -/
def lift {α : Type} : Except CodecError α → Thread F α
  | .ok a => .ret a
  | .error x => .raise (.codec x)

/-- The check of an identity, before it is written. -/
def identityJson (identity : StepResultIdentity) : Thread F StepResultIdentity :=
  if identity.sequence < 0 ∨ identity.fencingToken < 1 then
    .raise (.storage "Step result identity values are invalid.")
  else .ret identity

/-- The new files of `begin`; `.state.json` comes last. -/
def prepare (identity : StepResultIdentity) (source : ExecutionSourceReference) :
    Thread F Unit := do
  .await .writeSource
  let identity ← identityJson identity
  .await .createLog
  .await (.writeState ⟨.opened, identity, source⟩)

/-- `begin`. -/
def begin (identity : StepResultIdentity) (source : ExecutionSourceReference) :
    Thread F Unit := do
  if ← .await .finalExists then
    let manifest ← .await .loadTerminal
    if manifest.header.source ≠ source then
      .raise (.storage "Terminal Step result belongs to different source content.")
  else if ← .await .workingExists then
    let header ← .await .loadState
    let identity ← identityJson identity
    if header.identity ≠ identity then .raise (.storage "Step result identity conflicts.")
    else if header.source ≠ source then
      .raise (.storage "Open Step result belongs to different source content.")
  else
    .await .makeWorking
    prepare identity source

/-- The log in memory, read from disk once per process. -/
def findLog : Thread F ℕ := do
  match ← .await .currentLog with
  | some log => return log
  | none =>
    let header ← .await .loadState
    if header.state ≠ .opened then .raise (.storage "Step result is not OPEN.")
    else
      let entries ← .await (.readLog true)
      .await (.keepLog (entries.foldl OutputLog.add ⟨header, 0, 0, 0, []⟩))

/-- `_open_log`. -/
def openLog (identity : StepResultIdentity) : Thread F ℕ := do
  let log ← findLog
  let object ← .await (.object log)
  let identity ← identityJson identity
  if object.header.identity ≠ identity then .raise (.storage "Step result identity conflicts.")
  else return log

variable (py : Python F)

/-- The name of a kind in the manifest. -/
def kindName : OutputKind → Text
  | .stream => "STREAM".toList
  | .display => "DISPLAY".toList
  | .result => "RESULT".toList
  | .error => "ERROR".toList

/-- `record_json`. -/
def recordJson (record : RuntimeOutputRecord F) : Except CodecError (Json.Value F) := do
  let metadata ← Codec.jsonValue py (.obj record.metadata)
  return .obj [
    ("kind".toList, .str (kindName record.kind)),
    ("stream_name".toList, record.streamName.elim (.constant .null) .str),
    ("execution_count".toList, record.executionCount.elim (.constant .null) .int),
    ("representations".toList, .arr (record.representations.map fun item => .obj [
      ("media_type".toList, .str item.mediaType),
      ("encoding".toList, .str (match item.encoding with
        | .utf8 => "UTF8".toList
        | .base64 => "BASE64".toList)),
      ("content".toList, .str item.content),
      ("metadata".toList, .obj [])])),
    ("metadata".toList, metadata)]

/-- `records_digest`. -/
def recordsDigest (records : List (RuntimeOutputRecord F)) : Except CodecError Text := do
  let values ← records.mapM (recordJson py)
  return py.sha256 (Codec.utf8Encode (Json.dumps py.floats ⟨true, true, true⟩ (.arr values)))

/-- The representations of a record, each written to its file. -/
def persistRepresentations (ordinal : ℕ) (kind : OutputKind) :
    List (RuntimeOutputRepresentation × ℕ) → Thread F (List RepresentationDescriptor)
  | [] => return []
  | (r, index) :: rest => do
    let (descriptor, file, body) ← lift (Codec.persistRepresentation py ⟨ordinal, kind, index⟩ r)
    .await (.writeOutput file body)
    let descriptors ← persistRepresentations ordinal kind rest
    return descriptor :: descriptors

/-- `persist_record`, file by file. -/
def persistRecord (ordinal : ℕ) (record : RuntimeOutputRecord F) :
    Thread F (OutputDescriptor F) := do
  let representations ←
    persistRepresentations py ordinal record.kind record.representations.zipIdx
  let metadata ← lift (Codec.jsonValue py (.obj record.metadata))
  return {
    ordinal := ordinal
    kind := record.kind
    streamName := record.streamName
    executionCount := record.executionCount
    representations := representations
    metadata := metadata }

/-- The outputs of a batch, with their ordinals. -/
def persistRecords (ordinal : ℕ) : List (RuntimeOutputRecord F) →
    Thread F (List (OutputDescriptor F))
  | [] => return []
  | record :: records => do
    let output ← persistRecord py ordinal record
    let outputs ← persistRecords (ordinal + 1) records
    return output :: outputs

/-- The receipt of a batch. -/
structure StepResultAppend where
  committedOffset : ℕ
  outputCount : ℕ
  representationCount : ℕ
  totalSizeBytes : ℕ
  replayed : Bool
  deriving DecidableEq

/-- The receipt of a batch that is in the log. -/
def Batch.acknowledgement (batch : Batch) (replayed : Bool) : StepResultAppend :=
  ⟨batch.endOffset, batch.outputCount, batch.representationCount, batch.totalSizeBytes, replayed⟩

/-- `append`. -/
def append (identity : StepResultIdentity) (expectedOffset : ℕ) (batchId : UUID)
    (records : List (RuntimeOutputRecord F)) : Thread F StepResultAppend := do
  if records.isEmpty then .raise (.storage "Step output batch must not be empty.")
  else
    .await .requireWorking
    let log ← openLog identity
    let requestDigest ← lift (recordsDigest py records)
    let object ← .await (.object log)
    match object.find batchId with
    | some existing =>
      if existing.requestSha256 ≠ requestDigest then
        .raise (.storage "Step result batch ID conflicts with existing output.")
      else return existing.acknowledgement true
    | none =>
      if expectedOffset ≠ object.outputCount then
        .raise (.storage "Step result expected offset does not match committed output.")
      else
        let outputs ← persistRecords py expectedOffset records
        -- One line, then `fsync`; the log in memory learns of it last.
        .await (.writeLine ⟨batchId, requestDigest, outputs⟩)
        .await .syncLog
        let batch ← .await (.addEntry log ⟨batchId, requestDigest, outputs⟩)
        return batch.acknowledgement false

/-- `output_summary`. -/
def outputSummary (outputs : List (OutputDescriptor F)) : OutputSummary :=
  let sorted (texts : List Text) : List Text := texts.dedup.mergeSort fun a b => decide (a ≤ b)
  let mediaTypes := outputs.flatMap fun output => output.representations.map (·.mediaType)
  { outputCount := outputs.length
    -- In the order of `display_data`, `error`, `execute_result`, `stream`.
    outputTypes := [.display, .error, .result, .stream].filterMap fun kind =>
      match outputs.countP (·.kind == kind) with
      | 0 => none
      | n => some (kind, n)
    streamNames := sorted (outputs.filterMap fun output =>
      if output.kind = .stream then output.streamName else none)
    mimeTypes := sorted mediaTypes
    imageCount := mediaTypes.countP ("image/".toList.isPrefixOf ·)
    hasError := outputs.any (·.kind == .error) }

/-- The manifest of the outputs that the file lists and the counters in memory. -/
def OutputLog.manifest (log : OutputLog) (entries : List (LogEntry F)) (state : ResultState)
    (executionCount : Option ℤ) (errorMessage : Option Text) : Manifest F :=
  let outputs := entries.flatMap (·.outputs)
  { header := log.header
    state := state
    complete := state == .finalized || state == .failed
    outputs := outputs
    outputCount := log.outputCount
    representationCount := log.representationCount
    totalSizeBytes := log.totalSizeBytes
    executionCount := executionCount
    errorMessage := errorMessage.map (·.take 2000)
    outputSummary := outputSummary outputs }

/-- `atomic_write` of `manifest.json`, beside a temporary file that is gone at the end. -/
def writeManifest (manifest : Manifest F) : Thread F Unit :=
  .ensuring (do
    .await .createTemporary
    .await (.replaceManifest manifest)
    .await .syncWorking) (.await .removeTemporary)

/-- From the manifest to the final directory. -/
def publishManifest (manifest : Manifest F) : Thread F (Manifest F) := do
  writeManifest manifest
  .await .removeState
  .await .removeLog
  .await .forgetLog
  .await .syncWorking
  .await .publish
  .await .syncFinal
  .await .loadTerminal

/-- `seal`. -/
def sealResult (identity : StepResultIdentity) (state : ResultState)
    (executionCount : Option ℤ) (errorMessage : Option Text) : Thread F (Manifest F) := do
  if state = .opened then .raise (.storage "Unsupported terminal result state.")
  else if ← .await .finalExists then
    let manifest ← .await .loadTerminal
    if manifest.state ≠ state then
      .raise (.storage "Terminal Step result state conflicts with replay.")
    else return manifest
  else
    .await .requireWorking
    let log ← openLog identity
    let entries ← .await (.readLog false)
    let object ← .await (.object log)
    publishManifest (object.manifest entries state executionCount errorMessage)

/-! ### Callers and threads -/

/-- The requests of a Worker. -/
inductive Request (F : Type)
  | begin (identity : StepResultIdentity) (source : ExecutionSourceReference)
  | append (identity : StepResultIdentity) (expectedOffset : ℕ) (batchId : UUID)
      (records : List (RuntimeOutputRecord F))
  | finalize (identity : StepResultIdentity) (executionCount : Option ℤ)
      (errorMessage : Option Text)
  | abort (identity : StepResultIdentity) (reason : Text)

/-- What a request returns. -/
inductive Reply (F : Type)
  | begun
  | appended (receipt : StepResultAppend)
  | manifest (manifest : Manifest F)

/-- The thread of `begin_step_result`, `append_step_outputs`,
`finalize_step_result` or `abort_step_result`. -/
def Request.thread : Request F → Thread F (Reply F)
  | .begin identity source => do
    ResultStore.begin identity source
    return .begun
  | .append identity expectedOffset batchId records => do
    return .appended (← ResultStore.append py identity expectedOffset batchId records)
  | .finalize identity executionCount errorMessage => do
    let state := if (errorMessage.getD []).isEmpty then .finalized else .failed
    return .manifest (← sealResult identity state executionCount errorMessage)
  | .abort identity reason => do
    return .manifest (← sealResult identity .aborted none (some reason))

/-- A call whose thread was started; `waiting` while its caller is not cancelled
and holds the lock. -/
structure Call (F : Type) where
  request : Request F
  thread : Thread F (Reply F)
  waiting : Bool

/-- The call has not come to its end. -/
def Call.running (call : Call F) : Bool :=
  match call.thread with
  | .call .. => true
  | _ => false

/-- A batch is named by its id and the digest of its records. -/
abbrev BatchKey := UUID × Text

/-- The store, the calls, and the batches whose `append` has returned to its
caller, in the order of their first acknowledgement. -/
structure State (F : Type) where
  store : Store F := {}
  calls : List (Call F) := []
  acknowledged : List BatchKey := []

/-- The batch that a reply acknowledges. -/
def Request.acknowledges : Request F → Reply F → Option BatchKey
  | .append _ _ batchId records, .appended _ => match recordsDigest py records with
    | .ok digest => some (batchId, digest)
    | .error _ => none
  | _, _ => none

/-- A key among those that were acknowledged. -/
def acknowledge (acknowledged : List BatchKey) : Option BatchKey → List BatchKey
  | some key => if key ∈ acknowledged then acknowledged else acknowledged ++ [key]
  | none => acknowledged

/-- What happens next: a call, a step of one with what the file system does, a cancellation. -/
inductive Action (F : Type)
  | call (request : Request F)
  | step (call : ℕ) (io : Io)
  | cancel (call : ℕ)
  | resume (call : ℕ)
  | restart (pid : ℕ)

/-- The store in a process that has started again. -/
def Store.restarted (s : Store F) (pid : ℕ) : Store F :=
  { s with objects := [], current := none, pid := pid }

/-- A step of the process: a caller takes the lock and starts its thread, a thread
performs its next operation, a caller is cancelled or resumed, or the process
restarts. -/
def State.step (s : State F) : Action F → State F
  | .call request =>
    if s.calls.any (·.waiting) then s
    else { s with calls := s.calls ++ [⟨request, request.thread py, true⟩] }
  | .step i io => match s.calls[i]? with
    | some ⟨request, .call op k, waiting⟩ =>
      { s with
        store := (op.perform io s.store).1
        calls := s.calls.set i ⟨request, k (op.perform io s.store).2, waiting⟩ }
    | _ => s
  | .cancel i => match s.calls[i]? with
    | some call => { s with calls := s.calls.set i { call with waiting := false } }
    | none => s
  | .resume i => match s.calls[i]? with
    | some ⟨request, .ret reply, true⟩ =>
      { s with
        calls := s.calls.eraseIdx i
        acknowledged := acknowledge s.acknowledged (request.acknowledges py reply) }
    | some ⟨_, .raise _, true⟩ => { s with calls := s.calls.eraseIdx i }
    | _ => s
  | .restart pid => { s with store := s.store.restarted pid, calls := [] }

end

end ExecutorService.ResultStore
