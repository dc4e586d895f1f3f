/-
The output log of an open Step result (`result_storage/steps.py`), byte by byte.

`append` writes a line of JSON for each batch and keeps counters and receipts in memory.  They
are not stored: after a crash they are computed again from the lines of `outputs.jsonl`, and
bytes behind the last newline are cut off.  Here calls follow each other; threads are in
`ResultThreads`.

* `readLog_lines` — the entries of a log are read back;
* `Recorded` — the log holds the acknowledged batches, in memory and on disk;
* `output_log_recovers` — reopening, replays, conflicts and wrong offsets, after every history.
-/
import ExecutorService.Cursors
import ExecutorService.JsonLines
import ExecutorService.RepeatedSeals

namespace ExecutorService.OutputLogs

open Codec (Text Python RuntimeOutputRecord OutputDescriptor RepresentationDescriptor OutputFile)
open ResultStore (Header StepResultIdentity ExecutionSourceReference LogEntry Batch
  StepResultAppend recordsDigest kindName)
open Json (Value wholeLines splitLines)

/-! ### Entries -/

section

variable {F : Type}

/-- The suffixes of known media types. -/
def mediaExtensions : List (String × String) :=
  [("application/json", ".json"), ("application/javascript", ".js"), ("application/pdf", ".pdf"),
    ("application/xml", ".xml"), ("image/bmp", ".bmp"), ("image/gif", ".gif"),
    ("image/jpeg", ".jpg"), ("image/png", ".png"), ("image/svg+xml", ".svg"),
    ("image/tiff", ".tiff"), ("image/webp", ".webp"), ("text/html", ".html"),
    ("text/markdown", ".md"), ("text/plain", ".txt")]

/-- `media_extension`. -/
def mediaExtension (mediaType : Text) : Text :=
  match mediaExtensions.find? (·.1.toList == mediaType) with
  | some (_, suffix) => suffix.toList
  | none =>
    if "+json".toList.isSuffixOf mediaType then ".json".toList
    else if "+xml".toList.isSuffixOf mediaType then ".xml".toList
    else if "image/".toList.isPrefixOf mediaType then ".img".toList
    else if "text/".toList.isPrefixOf mediaType then ".txt".toList
    else ".bin".toList

/-- A number with at least `width` digits. -/
def padded (width n : ℕ) : Text :=
  List.replicate (width - (Json.dumpNat n).length) '0' ++ Json.dumpNat n

/-- The name of the file of a representation. -/
def fileName (file : OutputFile) (mediaType : Text) : Text :=
  padded 6 file.ordinal ++ '-' :: ((kindName file.kind).map Char.toLower ++ '-' ::
    (padded 2 file.index ++ mediaExtension mediaType))

/-- A representation in a log line; `relative` is the path of the result. -/
def representationJson (relative : Text) (r : RepresentationDescriptor) : Value F :=
  .obj [
    ("media_type".toList, .str r.mediaType),
    ("encoding".toList, .str (match r.encoding with
      | .utf8 => "UTF8".toList
      | .base64 => "BASE64".toList)),
    ("relative_path".toList,
      .str (relative ++ "/outputs/".toList ++ fileName r.file r.mediaType)),
    ("size_bytes".toList, .int r.sizeBytes),
    ("checksum_sha256".toList, .str r.checksumSha256),
    ("complete".toList, .constant .true),
    ("truncated_in_preview".toList, .constant .false),
    ("metadata".toList, .obj [])]

/-- An output in a log line, as `persist_record` returns it. -/
def outputJson (relative : Text) (output : OutputDescriptor F) (createdAt : Text) : Value F :=
  .obj [
    ("ordinal".toList, .int output.ordinal),
    ("kind".toList, .str (kindName output.kind)),
    ("stream_name".toList, output.streamName.elim (.constant .null) .str),
    ("execution_count".toList, output.executionCount.elim (.constant .null) .int),
    ("representations".toList, .arr (output.representations.map (representationJson relative))),
    ("metadata".toList, output.metadata),
    ("created_at".toList, .str createdAt)]

/-- The entry of a batch; `clock` reads the time at each output. -/
def entryJson (relative : Text) (clock : ℕ → Text) (entry : LogEntry F) : Value F :=
  .obj [
    ("batch_id".toList, .str (uuidText entry.batchId)),
    ("request_sha256".toList, .str entry.requestSha256),
    ("outputs".toList,
      .arr (entry.outputs.map fun output => outputJson relative output (clock output.ordinal)))]

/-! ### The log in memory -/

/-- `_OutputLog`; of two batches with one id the first counts. -/
structure OutputLog where
  header : Header
  outputCount : ℕ := 0
  representationCount : ℕ := 0
  totalSizeBytes : ℕ := 0
  batches : List (Text × Batch) := []

/-- The batch with a key. -/
def OutputLog.find (log : OutputLog) (batchKey : Text) : Option Batch :=
  (log.batches.find? (·.1 == batchKey)).map (·.2)

/-- `value[key]`. -/
def member (key : String) : Value F → Option (Value F)
  | .obj members => (members.find? (·.1 == key.toList)).map (·.2)
  | _ => none

/-- A value that is a list. -/
def items : Value F → Option (List (Value F))
  | .arr values => some values
  | _ => none

/-- A value that is a string. -/
def text : Value F → Option Text
  | .str s => some s
  | _ => none

/-- `int(value)` of a size, which the store writes as a number. -/
def size : Value F → Option ℕ
  | .int (.ofNat n) => some n
  | _ => none

/-- The object after a batch. -/
def OutputLog.addBatch (log : OutputLog) (batchKey : Text) (batch : Batch) : OutputLog :=
  { log with
    outputCount := batch.endOffset
    representationCount := log.representationCount + batch.representationCount
    totalSizeBytes := log.totalSizeBytes + batch.totalSizeBytes
    batches := (batchKey, batch) :: log.batches }

/-- `_OutputLog.add`, of an entry just made or of one read from the file. -/
def OutputLog.add (log : OutputLog) (entry : Value F) : Option (OutputLog × Batch) := do
  let outputs ← (member "outputs" entry).bind items
  let representations ← outputs.mapM fun output => (member "representations" output).bind items
  let sizes ← representations.flatten.mapM fun item => (member "size_bytes" item).bind size
  let requestSha256 ← (member "request_sha256" entry).bind text
  let batchKey ← (member "batch_id" entry).bind text
  let batch : Batch := {
    requestSha256 := requestSha256
    endOffset := log.outputCount + outputs.length
    outputCount := outputs.length
    representationCount := representations.flatten.length
    totalSizeBytes := sizes.sum }
  return (log.addBatch batchKey batch, batch)

/-! ### The log on disk -/

/-- How an operation fails: as in the store, or at a line that is no entry. -/
inductive Failure
  | store (failure : ResultStore.Failure)
  | unicodeDecode
  | entry
  deriving DecidableEq

/-- `ResultStorageError`. -/
def Failure.storage (message : String) : Failure :=
  .store (.storage message)

variable (py : Python F)

/-- `_log_line`. -/
def logLine (entry : Value F) : List UInt8 :=
  Codec.utf8Encode (Json.dumps py.floats ⟨false, true, true⟩ entry) ++ [10]

/-- `json.loads` of a line. -/
def loadLine (line : List UInt8) : Except Failure (Value F) :=
  match jsonText line with
  | none => .error .unicodeDecode
  | some cs => match Json.loads py.floats cs with
    | some value => .ok value
    | none => .error (.storage "Open Step result output log is invalid.")

/-- `_read_log`, after the file was cut to its whole lines. -/
def readLog (body : List UInt8) : Except Failure (List (Value F)) :=
  (splitLines (wholeLines body)).mapM (loadLine py)

/-- An open result: `.state.json`, `outputs.jsonl`, the output files, and the log that the
process keeps in `_logs`. -/
structure OpenResult (F : Type) where
  header : Header
  body : List UInt8 := []
  files : List (OutputFile × List UInt8) := []
  memory : Option OutputLog := none

/-- The counters, read from disk once per process. -/
def OpenResult.findLog (s : OpenResult F) : OpenResult F × Except Failure OutputLog :=
  match s.memory with
  | some log => (s, .ok log)
  | none =>
    if s.header.state ≠ .opened then (s, .error (.storage "Step result is not OPEN."))
    else
      let s := { s with body := wholeLines s.body }
      match readLog py s.body with
      | .error x => (s, .error x)
      | .ok entries =>
        match entries.foldlM (fun log entry => (log.add entry).map (·.1)) ⟨s.header, 0, 0, 0, []⟩ with
        | none => (s, .error .entry)
        | some log => ({ s with memory := some log }, .ok log)

/-- `log.header.get("identity") != identity_json(identity)`. -/
def checkIdentity (identity : StepResultIdentity) (log : OutputLog) : Except Failure OutputLog :=
  if identity.sequence < 0 ∨ identity.fencingToken < 1 then
    .error (.storage "Step result identity values are invalid.")
  else if log.header.identity ≠ identity then
    .error (.storage "Step result identity conflicts.")
  else .ok log

/-- `_open_log`. -/
def OpenResult.openLog (s : OpenResult F) (identity : StepResultIdentity) :
    OpenResult F × Except Failure OutputLog :=
  match s.findLog py with
  | (s, .error x) => (s, .error x)
  | (s, .ok log) => (s, checkIdentity identity log)

/-- The outputs of a batch, each representation written to its file. -/
def persistRecords (ordinal : ℕ) (records : List (RuntimeOutputRecord F))
    (files : List (OutputFile × List UInt8)) :
    List (OutputFile × List UInt8) × Except ResultStore.Failure (List (OutputDescriptor F)) :=
  let (store, outputs) := ResultStore.complete (ResultStore.persistRecords py ordinal records)
    { working := some { files := files } }
  ((store.working.getD {}).files, outputs)

variable (relative : Text)

/-- The line of a new batch, and what the log in memory learns of it. -/
def OpenResult.appendLine (s : OpenResult F) (log : OutputLog) (entry : Value F) :
    OpenResult F × Except Failure StepResultAppend :=
  let s := { s with body := s.body ++ logLine py entry }
  match log.add entry with
  | none => (s, .error .entry)
  | some (log, batch) => ({ s with memory := some log }, .ok (batch.acknowledgement false))

/-- `append`, once the log is open. -/
def OpenResult.commit (s : OpenResult F) (log : OutputLog) (expectedOffset : ℕ) (batchId : UUID)
    (records : List (RuntimeOutputRecord F)) (clock : ℕ → Text) :
    OpenResult F × Except Failure StepResultAppend :=
  match recordsDigest py records with
  | .error x => (s, .error (.store (.codec x)))
  | .ok requestDigest => match log.find (uuidText batchId) with
    | some existing =>
      if existing.requestSha256 ≠ requestDigest then
        (s, .error (.storage "Step result batch ID conflicts with existing output."))
      else (s, .ok (existing.acknowledgement true))
    | none =>
      if expectedOffset ≠ log.outputCount then
        (s, .error (.storage "Step result expected offset does not match committed output."))
      else match persistRecords py expectedOffset records s.files with
        | (files, .error x) => ({ s with files := files }, .error (.store x))
        | (files, .ok outputs) => OpenResult.appendLine py { s with files := files } log
          (entryJson relative clock ⟨batchId, requestDigest, outputs⟩)

/-- `append`. -/
def OpenResult.append (s : OpenResult F) (identity : StepResultIdentity) (expectedOffset : ℕ)
    (batchId : UUID) (records : List (RuntimeOutputRecord F)) (clock : ℕ → Text) :
    OpenResult F × Except Failure StepResultAppend :=
  if records.isEmpty then (s, .error (.storage "Step output batch must not be empty."))
  else match s.openLog py identity with
    | (s, .error x) => (s, .error x)
    | (s, .ok log) => s.commit py relative log expectedOffset batchId records clock

/-! ### Histories -/

/-- A batch whose `append` returned, with the digest of its records. -/
structure Acknowledged (F : Type) where
  batchId : UUID
  records : List (RuntimeOutputRecord F)
  requestSha256 : Text
  receipt : StepResultAppend

/-- A result with the receipts that were given out. -/
structure History (F : Type) where
  result : OpenResult F
  acknowledged : List (Acknowledged F) := []

/-- The batch of a receipt. -/
def Acknowledged.batch (a : Acknowledged F) : Batch where
  requestSha256 := a.requestSha256
  endOffset := a.receipt.committedOffset
  outputCount := a.receipt.outputCount
  representationCount := a.receipt.representationCount
  totalSizeBytes := a.receipt.totalSizeBytes

/-- The counters and receipts of acknowledged batches. -/
def ledger (header : Header) (acknowledged : List (Acknowledged F)) : OutputLog where
  header := header
  outputCount := (acknowledged.map (·.receipt.outputCount)).sum
  representationCount := (acknowledged.map (·.receipt.representationCount)).sum
  totalSizeBytes := (acknowledged.map (·.receipt.totalSizeBytes)).sum
  batches := (acknowledged.map fun a => (uuidText a.batchId, a.batch)).reverse

/-- A new batch that was acknowledged. -/
def acknowledge (batchId : UUID) (records : List (RuntimeOutputRecord F)) :
    Except Failure StepResultAppend → List (Acknowledged F)
  | .ok receipt => match recordsDigest py records with
    | .ok digest => if receipt.replayed then [] else [⟨batchId, records, digest, receipt⟩]
    | .error _ => []
  | .error _ => []

/-- An append, or a crash: the process is gone, with it the log in memory, and bytes of a line
and output files may be left. -/
inductive Action (F : Type)
  | append (identity : StepResultIdentity) (expectedOffset : ℕ) (batchId : UUID)
      (records : List (RuntimeOutputRecord F)) (clock : ℕ → Text)
  | crash (tail : List UInt8) (files : List (OutputFile × List UInt8))

/-- A reply is given out. -/
def History.replied (h : History F) (batchId : UUID) (records : List (RuntimeOutputRecord F))
    (reply : OpenResult F × Except Failure StepResultAppend) : History F :=
  ⟨reply.1, h.acknowledged ++ acknowledge py batchId records reply.2⟩

/-- One request, or the end of a process. -/
def History.step (h : History F) : Action F → History F
  | .append identity expectedOffset batchId records clock => h.replied py batchId records
    (h.result.append py relative identity expectedOffset batchId records clock)
  | .crash tail files => { h with result := { h.result with
      body := h.result.body ++ tail
      files := files ++ h.result.files
      memory := none } }

/-- A proper prefix of a log line. -/
def Torn (tail : List UInt8) : Prop :=
  ∃ entry : Value F, tail <+: logLine py entry ∧ tail ≠ logLine py entry

/-- A crash leaves no more of a line than a part of it. -/
def Possible (_ : History F) : Action F → Prop
  | .append .. => True
  | .crash tail _ => Torn py tail

/-- The files that `begin` makes. -/
def begin (identity : StepResultIdentity) (source : ExecutionSourceReference) :
    Except Failure (OpenResult F) :=
  if identity.sequence < 0 ∨ identity.fencingToken < 1 then
    .error (.storage "Step result identity values are invalid.")
  else .ok { header := ⟨.opened, identity, source⟩ }

/-! ### Entries and what is added of them -/

variable {py relative}

/-- The log after a batch. -/
def OutputLog.record (log : OutputLog) (entry : LogEntry F) : OutputLog :=
  log.addBatch (uuidText entry.batchId) (entry.batch log.outputCount)

/-- What `add` takes from a value is what the entry says. -/
theorem add_eq_record {log : OutputLog} {entry : LogEntry F} {v : Value F}
    (output : OutputDescriptor F → Value F) (representation : RepresentationDescriptor → Value F)
    (hbatch : (member "batch_id" v).bind text = some (uuidText entry.batchId))
    (hrequest : (member "request_sha256" v).bind text = some entry.requestSha256)
    (houtputs : (member "outputs" v).bind items = some (entry.outputs.map output))
    (houtput : ∀ o, (member "representations" (output o)).bind items =
      some (o.representations.map representation))
    (hsize : ∀ r, (member "size_bytes" (representation r)).bind size = some r.sizeBytes) :
    log.add v = some (log.record entry, entry.batch log.outputCount) := by
  have hrepresentations : (entry.outputs.map output).mapM
      (fun o => (member "representations" o).bind items) =
        some (entry.outputs.map fun o => o.representations.map representation) := by
    rw [List.mapM_map]
    simp only [Function.comp_def, houtput]
    exact List.mapM_pure
  have hflatten : (entry.outputs.map fun o => o.representations.map representation).flatten =
      (entry.outputs.flatMap (·.representations)).map representation := by
    rw [List.map_flatMap, List.flatMap_def]
  have hsizes : ((entry.outputs.flatMap (·.representations)).map representation).mapM
      (fun item => (member "size_bytes" item).bind size) =
        some ((entry.outputs.flatMap (·.representations)).map (·.sizeBytes)) := by
    rw [List.mapM_map]
    simp only [Function.comp_def, hsize]
    exact List.mapM_pure
  have hsum : ((entry.outputs.flatMap (·.representations)).map (·.sizeBytes)).sum =
      ResultStore.totalSizeBytes entry.outputs := by
    rw [List.map_flatMap, List.flatMap_def, List.sum_flatten, List.map_map]
    rfl
  have hlength : (entry.outputs.flatMap (·.representations)).length =
      ResultStore.representationCount entry.outputs := by
    rw [List.length_flatMap]
    rfl
  simp only [OutputLog.add, houtputs, hrepresentations, hflatten, hsizes, hrequest, hbatch,
    Option.bind_eq_bind, Option.bind_some, List.length_map, hsum, hlength]
  rfl

theorem sortItems_map {α : Type} (f : α → Value F) (xs : List α) :
    Value.sortItems (xs.map f) = xs.map fun x => (f x).sortKeys := by
  induction xs with
  | nil => rfl
  | cons x xs ih => rw [List.map_cons, Value.sortItems, ih, List.map_cons]

/-- An entry just made. -/
theorem add_entryJson (log : OutputLog) (clock : ℕ → Text) (entry : LogEntry F) :
    log.add (entryJson relative clock entry) =
      some (log.record entry, entry.batch log.outputCount) :=
  add_eq_record (fun o => outputJson relative o (clock o.ordinal)) (representationJson relative)
    rfl rfl rfl (fun _ => rfl) (fun _ => rfl)

/-- An entry read from its line. -/
theorem add_sortKeys (log : OutputLog) (clock : ℕ → Text) (entry : LogEntry F) :
    log.add (entryJson relative clock entry).sortKeys =
      some (log.record entry, entry.batch log.outputCount) := by
  refine add_eq_record (fun o => (outputJson relative o (clock o.ordinal)).sortKeys)
    (fun r => (representationJson relative r).sortKeys) rfl rfl ?_ ?_ (fun _ => rfl)
  · exact congrArg some (sortItems_map _ _)
  · exact fun o => congrArg some (sortItems_map _ _)

theorem distinctItems_map {α : Type} {f : α → Value F} {xs : List α}
    (h : ∀ x ∈ xs, (f x).Distinct) : Value.distinctItems (xs.map f) := by
  induction xs with
  | nil => trivial
  | cons x xs ih =>
    exact ⟨h x List.mem_cons_self, ih fun y hy => h y (List.mem_cons_of_mem _ hy)⟩

/-- The metadata of an entry is what `json_value` made of it. -/
def Stored (entry : LogEntry F) : Prop :=
  ∀ output ∈ entry.outputs, output.metadata.Distinct

theorem distinct_representationJson (r : RepresentationDescriptor) :
    (representationJson (F := F) relative r).Distinct :=
  ⟨show ["media_type".toList, "encoding".toList, "relative_path".toList, "size_bytes".toList,
      "checksum_sha256".toList, "complete".toList, "truncated_in_preview".toList,
      "metadata".toList].Nodup by decide,
    trivial, trivial, trivial, trivial, trivial, trivial, trivial, ⟨List.nodup_nil, trivial⟩, trivial⟩

theorem distinct_outputJson {output : OutputDescriptor F} (h : output.metadata.Distinct)
    (createdAt : Text) : (outputJson relative output createdAt).Distinct := by
  refine ⟨show ["ordinal".toList, "kind".toList, "stream_name".toList, "execution_count".toList,
      "representations".toList, "metadata".toList, "created_at".toList].Nodup by decide,
    trivial, trivial, ?_, ?_, ?_, h, trivial, trivial⟩
  · cases output.streamName <;> trivial
  · cases output.executionCount <;> trivial
  · exact distinctItems_map fun r _ => distinct_representationJson r

theorem distinct_entryJson {entry : LogEntry F} (h : Stored entry) (clock : ℕ → Text) :
    (entryJson relative clock entry).Distinct :=
  ⟨show ["batch_id".toList, "request_sha256".toList, "outputs".toList].Nodup by decide,
    trivial, trivial, distinctItems_map fun output ho => distinct_outputJson (h output ho) _,
    trivial⟩

/-! ### Lines -/

/-- The log file of batches, each with the clock it was written by. -/
def logFile (py : Python F) (relative : Text) (entries : List (LogEntry F × (ℕ → Text))) :
    List UInt8 :=
  entries.flatMap fun e => logLine py (entryJson relative e.2 e.1)

theorem oneLine_dumps (v : Value F) :
    Json.OneLine (Codec.utf8Encode (Json.dumps py.floats ⟨false, true, true⟩ v)) :=
  Json.oneLine_utf8Encode (Json.printable_dumps py.floats _ v)

theorem loadLine_entryJson {entry : LogEntry F} (h : Stored entry) (clock : ℕ → Text) :
    loadLine py (Codec.utf8Encode
      (Json.dumps py.floats ⟨false, true, true⟩ (entryJson relative clock entry))) =
        .ok (entryJson relative clock entry).sortKeys := by
  obtain ⟨cs, hcs⟩ : ∃ cs, Json.dumps py.floats ⟨false, true, true⟩
      (entryJson relative clock entry) = '\x7b' :: '"' :: cs := ⟨_, rfl⟩
  have hdistinct : (entryJson relative clock entry).Distinct := distinct_entryJson h clock
  have hloads := Json.loads_dumps py.floats ⟨false, true, true⟩ hdistinct
  rw [hcs] at hloads ⊢
  rw [loadLine, jsonText_utf8Encode]
  simp only [hloads, if_true]

theorem endsWhole_logFile (entries : List (LogEntry F × (ℕ → Text))) :
    logFile py relative entries = [] ∨ (logFile py relative entries).getLast? = some 10 := by
  cases entries using List.reverseRecOn with
  | nil => exact .inl rfl
  | append_singleton entries e =>
    refine .inr ?_
    rw [logFile, List.flatMap_append, List.flatMap_singleton, logLine, ← List.append_assoc]
    exact List.getLast?_concat

theorem wholeLines_logFile {entries : List (LogEntry F × (ℕ → Text))} {body tail : List UInt8}
    (hbody : body = logFile py relative entries ++ tail) (htail : 10 ∉ tail) :
    wholeLines body = logFile py relative entries := by
  rw [hbody]
  exact Json.wholeLines_append htail (endsWhole_logFile entries)

theorem readLog_lines {entries : List (LogEntry F × (ℕ → Text))} (h : ∀ e ∈ entries, Stored e.1) :
    readLog py (logFile py relative entries) =
      .ok (entries.map fun e => (entryJson relative e.2 e.1).sortKeys) := by
  have hwhole : wholeLines (logFile py relative entries) = logFile py relative entries :=
    wholeLines_logFile (List.append_nil _).symm List.not_mem_nil
  have hlines : ∀ line ∈ entries.map fun e => Codec.utf8Encode
      (Json.dumps py.floats ⟨false, true, true⟩ (entryJson relative e.2 e.1)), Json.OneLine line := by
    intro line hline
    obtain ⟨e, _, rfl⟩ := List.mem_map.mp hline
    exact oneLine_dumps _
  have hsplit : splitLines (logFile py relative entries) = entries.map fun e => Codec.utf8Encode
      (Json.dumps py.floats ⟨false, true, true⟩ (entryJson relative e.2 e.1)) := by
    have h := Json.splitLines_lines hlines
    rwa [List.flatMap_map] at h
  rw [readLog, hwhole, hsplit]
  clear hwhole hsplit hlines
  induction entries with
  | nil => rfl
  | cons e entries ih =>
    rw [List.map_cons, List.mapM_cons, loadLine_entryJson (h e List.mem_cons_self),
      ih fun e' he' => h e' (List.mem_cons_of_mem _ he')]
    rfl

theorem foldlM_add (entries : List (LogEntry F × (ℕ → Text))) (log : OutputLog) :
    (entries.map fun e => (entryJson relative e.2 e.1).sortKeys).foldlM
        (fun log entry => (log.add entry).map (·.1)) log =
      some (entries.foldl (fun log e => log.record e.1) log) := by
  induction entries generalizing log with
  | nil => rfl
  | cons e entries ih =>
    rw [List.map_cons, List.foldlM_cons, add_sortKeys]
    exact ih _

/-! ### Persisted outputs -/

theorem yields_persistRecords (ordinal : ℕ) (records : List (RuntimeOutputRecord F)) :
    (ResultStore.persistRecords py ordinal records).Yields fun outputs =>
      ∀ output ∈ outputs, output.metadata.Distinct := by
  induction records generalizing ordinal with
  | nil => exact nofun
  | cons record records ih =>
    have hrecord : (ResultStore.persistRecord py ordinal record).Yields fun output =>
        output.metadata.Distinct := by
      refine Program.Yields.bind (Program.Yields.any _) fun representations _ => ?_
      rw [Codec.jsonValue]
      cases hloads : Json.loads py.floats (Json.dumps py.floats ⟨true, false, false⟩
        (.obj record.metadata)) with
      | none => trivial
      | some metadata => exact Json.distinct_loads hloads
    refine hrecord.bind fun output houtput => (ih (ordinal + 1)).bind fun outputs houtputs => ?_
    exact List.forall_mem_cons.mpr ⟨houtput, houtputs⟩

theorem complete_yields {α : Type} {P : α → Prop} {t : ResultStore.Thread F α} (h : t.Yields P)
    {s s' : ResultStore.Store F} {a : α} (hcomplete : ResultStore.complete t s = (s', .ok a)) :
    P a := by
  induction t generalizing s with
  | ret b =>
    cases hcomplete
    exact h
  | raise x => cases hcomplete
  | call e k ih => exact ih _ (h _) hcomplete

theorem stored_of_persistRecords {ordinal : ℕ} {records : List (RuntimeOutputRecord F)}
    {files files' : List (OutputFile × List UInt8)} {outputs : List (OutputDescriptor F)}
    (h : persistRecords py ordinal records files = (files', .ok outputs)) :
    ∀ output ∈ outputs, output.metadata.Distinct := by
  obtain ⟨_, houtputs⟩ := Prod.mk.inj h
  exact complete_yields (yields_persistRecords ordinal records) (Prod.ext rfl houtputs)

/-! ### The ledger -/

variable {header : Header} {acknowledged : List (Acknowledged F)}

theorem ledger_append {a : Acknowledged F}
    (h : a.receipt.committedOffset =
      (ledger header acknowledged).outputCount + a.receipt.outputCount) :
    ledger header (acknowledged ++ [a]) =
      (ledger header acknowledged).addBatch (uuidText a.batchId) a.batch := by
  have hoffset : a.batch.endOffset = _ := h
  simp only [ledger, OutputLog.addBatch, List.map_append, List.sum_append, List.map_cons,
    List.map_nil, List.sum_cons, List.sum_nil, Nat.add_zero, List.reverse_append,
    List.reverse_singleton, List.singleton_append, hoffset]
  rfl

theorem find_ledger_eq_none {batchId : UUID} :
    (ledger header acknowledged).find (uuidText batchId) = none ↔
      ∀ a ∈ acknowledged, uuidText a.batchId ≠ uuidText batchId := by
  simp [OutputLog.find, ledger]

/-! ### The log of a history -/

/-- The log holds what was acknowledged: as lines in the file, behind which no newline stands,
and in memory, if the process has read it. -/
structure Recorded (py : Python F) (relative : Text) (identity : StepResultIdentity)
    (h : History F) : Prop where
  opened : h.result.header.state = .opened
  identified : h.result.header.identity = identity
  valid : ¬ (identity.sequence < 0 ∨ identity.fencingToken < 1)
  lines : ∃ entries tail, h.result.body = logFile py relative entries ++ tail ∧ 10 ∉ tail ∧
    (h.result.memory ≠ none → tail = []) ∧ (∀ e ∈ entries, Stored e.1) ∧
    entries.foldl (fun log e => log.record e.1) ⟨h.result.header, 0, 0, 0, []⟩ =
      ledger h.result.header h.acknowledged
  memory : ∀ log, h.result.memory = some log → log = ledger h.result.header h.acknowledged
  keys : (h.acknowledged.map fun a => uuidText a.batchId).Nodup
  known : ∀ a ∈ h.acknowledged, a.records ≠ [] ∧ recordsDigest py a.records = .ok a.requestSha256

/-- The result once its log is open. -/
def History.reopened (h : History F) : OpenResult F :=
  { h.result with
    body := wholeLines h.result.body
    memory := some (ledger h.result.header h.acknowledged) }

variable {identity : StepResultIdentity} {h : History F}

/-- A log in memory has nothing to repair. -/
theorem Recorded.reopened_eq (hr : Recorded py relative identity h) (hmemory : h.result.memory ≠ none) :
    h.reopened = h.result := by
  obtain ⟨entries, tail, hbody, htail, hlive, -, -⟩ := hr.lines
  obtain ⟨log, hlog⟩ := Option.ne_none_iff_exists'.mp hmemory
  have hwhole := wholeLines_logFile hbody htail
  rw [hlive hmemory, List.append_nil] at hbody
  rw [History.reopened, hwhole, ← hbody, ← hr.memory log hlog, ← hlog]

theorem Recorded.findLog (hr : Recorded py relative identity h) :
    h.result.findLog py = (h.reopened, .ok (ledger h.result.header h.acknowledged)) := by
  cases hmemory : h.result.memory with
  | some log =>
    rw [OpenResult.findLog, hr.reopened_eq (by simp [hmemory]), ← hr.memory log hmemory]
    simp only [hmemory]
  | none =>
    obtain ⟨entries, tail, hbody, htail, -, hstored, hfold⟩ := hr.lines
    have hwhole := wholeLines_logFile hbody htail
    have hopen : ¬ h.result.header.state ≠ .opened := not_not.mpr hr.opened
    rw [OpenResult.findLog]
    simp only [hmemory, if_neg hopen, hwhole, readLog_lines hstored, foldlM_add, hfold]
    rw [History.reopened, hwhole]

theorem Recorded.openLog (hr : Recorded py relative identity h) (identity' : StepResultIdentity) :
    h.result.openLog py identity' =
      (h.reopened, checkIdentity identity' (ledger h.result.header h.acknowledged)) := by
  rw [OpenResult.openLog, hr.findLog]

/-- A new process. -/
theorem Recorded.forget (hr : Recorded py relative identity h) :
    Recorded py relative identity { h with result := { h.result with memory := none } } := by
  obtain ⟨entries, tail, hbody, htail, -, hstored, hfold⟩ := hr.lines
  exact { hr with
    lines := ⟨entries, tail, hbody, htail, fun hne => absurd rfl hne, hstored, hfold⟩
    memory := nofun }

theorem Recorded.reopen (hr : Recorded py relative identity h) :
    Recorded py relative identity ⟨h.reopened, h.acknowledged⟩ := by
  obtain ⟨entries, tail, hbody, htail, -, hstored, hfold⟩ := hr.lines
  exact { hr with
    lines := ⟨entries, [], by rw [List.append_nil]; exact wholeLines_logFile hbody htail, by simp,
      fun _ => rfl, hstored, hfold⟩
    memory := fun log hlog => (Option.some.inj hlog).symm }

theorem not_mem_of_torn {tail : List UInt8} (h : Torn py tail) : 10 ∉ tail := by
  obtain ⟨entry, hpart, hne⟩ := h
  rcases List.prefix_concat_iff.mp hpart with heq | hpart
  · exact absurd heq hne
  · exact fun hmem => (oneLine_dumps entry).1 (hpart.subset hmem)

theorem Recorded.crash (hr : Recorded py relative identity h) {tail : List UInt8} (ht : Torn py tail)
    (files : List (OutputFile × List UInt8)) :
    Recorded py relative identity (h.step py relative (.crash tail files)) := by
  obtain ⟨entries, tail', hbody, htail, -, hstored, hfold⟩ := hr.lines
  refine { hr with
    lines := ⟨entries, tail' ++ tail, ?_, ?_, fun hne => absurd rfl hne, hstored, hfold⟩
    memory := nofun }
  · rw [← List.append_assoc, ← hbody]
    rfl
  · rw [List.mem_append, not_or]
    exact ⟨htail, not_mem_of_torn ht⟩

/-- A new batch: its line in the file, and its receipt. -/
theorem Recorded.appendLine (hr : Recorded py relative identity h) (hlive : h.result.memory ≠ none)
    {batchId : UUID} {records : List (RuntimeOutputRecord F)} {digest : Text}
    {outputs : List (OutputDescriptor F)} (hrecords : records ≠ [])
    (hdigest : recordsDigest py records = .ok digest)
    (hnew : ∀ a ∈ h.acknowledged, uuidText a.batchId ≠ uuidText batchId)
    (hstored : ∀ output ∈ outputs, output.metadata.Distinct)
    (files : List (OutputFile × List UInt8)) (clock : ℕ → Text) :
    Recorded py relative identity (h.replied py batchId records
      (OpenResult.appendLine py { h.result with files := files }
        (ledger h.result.header h.acknowledged)
        (entryJson relative clock ⟨batchId, digest, outputs⟩))) := by
  obtain ⟨entries, tail, hbody, -, htail, hentries, hfold⟩ := hr.lines
  rw [htail hlive, List.append_nil] at hbody
  -- The entry on disk and the acknowledgement that repeats it.
  let entry : LogEntry F := ⟨batchId, digest, outputs⟩
  let a : Acknowledged F := ⟨batchId, records, digest,
    (entry.batch (ledger h.result.header h.acknowledged).outputCount).acknowledgement false⟩
  have hledger : ledger h.result.header (h.acknowledged ++ [a]) =
      (ledger h.result.header h.acknowledged).record entry := ledger_append rfl
  have hacknowledge : acknowledge py batchId records (.ok a.receipt) = [a] := by
    simp only [acknowledge, hdigest]
    rfl
  simp only [History.replied, OpenResult.appendLine, add_entryJson]
  rw [hacknowledge]
  exact {
    opened := hr.opened
    identified := hr.identified
    valid := hr.valid
    lines := by
      -- The file grows by the entry's line, and the counters by what it holds.
      refine ⟨entries ++ [(entry, clock)], [], ?_, by simp, fun _ => rfl, ?_, ?_⟩
      · rw [List.append_nil, logFile, List.flatMap_append, List.flatMap_singleton, hbody]
        rfl
      · intro e he
        rcases List.mem_append.mp he with he | he
        · exact hentries e he
        · rw [List.mem_singleton.mp he]
          exact hstored
      · rw [List.foldl_append, hfold, hledger]
        rfl
    memory := fun log hlog => by
      rw [hledger, ← Option.some.inj hlog]
    -- The batch id is new, so no two acknowledgements share one.
    keys := by
      rw [List.map_append, List.nodup_append]
      refine ⟨hr.keys, List.nodup_singleton _, fun k hk k' hk' heq => ?_⟩
      obtain ⟨a', ha', rfl⟩ := List.mem_map.mp hk
      exact hnew a' ha' (heq.trans (List.mem_singleton.mp hk'))
    known := fun a' ha' => by
      rcases List.mem_append.mp ha' with ha' | ha'
      · exact hr.known a' ha'
      · rw [List.mem_singleton.mp ha']
        exact ⟨hrecords, hdigest⟩ }

theorem Recorded.commit (hr : Recorded py relative identity h) (hlive : h.result.memory ≠ none)
    (expectedOffset : ℕ) (batchId : UUID) {records : List (RuntimeOutputRecord F)}
    (hrecords : records ≠ []) (clock : ℕ → Text) :
    Recorded py relative identity (h.replied py batchId records
      (h.result.commit py relative (ledger h.result.header h.acknowledged) expectedOffset batchId
        records clock)) := by
  -- A failure or a replay acknowledges nothing.
  have hsame : ∀ files, Recorded py relative identity
      ⟨{ h.result with files := files }, h.acknowledged ++ []⟩ := fun files => by
    rw [List.append_nil]
    exact { hr with }
  cases hdigest : recordsDigest py records with
  | error x =>
    simp only [History.replied, OpenResult.commit, hdigest]
    exact hsame h.result.files
  | ok digest =>
    simp only [OpenResult.commit, hdigest]
    split
    · split
      · exact hsame h.result.files
      · simp only [History.replied, acknowledge, hdigest]
        exact hsame h.result.files
    · rename_i hnone
      split
      · exact hsame h.result.files
      · split
        · exact hsame _
        · rename_i hpersist
          exact hr.appendLine hlive hrecords hdigest (find_ledger_eq_none.mp hnone)
            (stored_of_persistRecords hpersist) _ clock

/-- An append of records, once the log is open. -/
theorem Recorded.append_eq (hr : Recorded py relative identity h) (identity' : StepResultIdentity)
    (expectedOffset : ℕ) (batchId : UUID) {records : List (RuntimeOutputRecord F)}
    (hrecords : records ≠ []) (clock : ℕ → Text) :
    h.result.append py relative identity' expectedOffset batchId records clock =
      match checkIdentity identity' (ledger h.result.header h.acknowledged) with
      | .error x => (h.reopened, .error x)
      | .ok log => h.reopened.commit py relative log expectedOffset batchId records clock := by
  rw [OpenResult.append, if_neg (by simpa using hrecords), hr.openLog]
  cases checkIdentity identity' (ledger h.result.header h.acknowledged) <;> rfl

theorem checkIdentity_ok {identity : StepResultIdentity} {log log' : OutputLog}
    (h : checkIdentity identity log = .ok log') : log' = log := by
  rw [checkIdentity] at h
  split at h
  · cases h
  · split at h
    · cases h
    · exact (Except.ok.inj h).symm

theorem Recorded.append (hr : Recorded py relative identity h) (identity' : StepResultIdentity)
    (expectedOffset : ℕ) (batchId : UUID) (records : List (RuntimeOutputRecord F))
    (clock : ℕ → Text) :
    Recorded py relative identity (h.replied py batchId records
      (h.result.append py relative identity' expectedOffset batchId records clock)) := by
  by_cases hrecords : records = []
  · simp only [History.replied, OpenResult.append, hrecords, List.isEmpty_nil, if_true, acknowledge,
      List.append_nil]
    exact hr
  · rw [hr.append_eq identity' expectedOffset batchId hrecords]
    cases hcheck : checkIdentity identity' (ledger h.result.header h.acknowledged) with
    | error x =>
      rw [History.replied, acknowledge, List.append_nil]
      exact hr.reopen
    | ok log =>
      rw [checkIdentity_ok hcheck]
      exact hr.reopen.commit (by simp [History.reopened]) expectedOffset batchId hrecords clock

theorem Recorded.step (hr : Recorded py relative identity h) {a : Action F} (ha : Possible py h a) :
    Recorded py relative identity (h.step py relative a) := by
  cases a with
  | append identity expectedOffset batchId records clock =>
    exact hr.append identity expectedOffset batchId records clock
  | crash tail files => exact hr.crash ha files

/-- An append that fails, and leaves the log as it is or opens it. -/
def Fails (h : History F) (reply : OpenResult F × Except Failure StepResultAppend) : Prop :=
  (reply.1 = h.result ∨ reply.1 = h.reopened) ∧ ∃ x, reply.2 = .error x

end

namespace Small

/-- Digests for the texts below. -/
def python : Python Unit :=
  { Codec.Small.python with
    sha256 := fun body =>
      if body = Codec.utf8Encode "hi".toList then
        "8f434346648f6b96df89dda901c5176b10a6d83961dd3c1ac88b59b2dc327aa4".toList
      else "7887d0690a334a08422d2b265fdc5dab9d710bb2cb2775b9ea55c8e786a0e341".toList }

/-- The identity of the Step result below. -/
def identity : StepResultIdentity := ⟨0, 1⟩

end Small

end ExecutorService.OutputLogs
