/-
Output messages of a kernel and their stored form.

`as_output_record` (`jupyter/protocol.py`) turns a kernel message into a record of
representations, `persist_record` (`result_storage/codec.py`) writes each of them
to a file beside a descriptor, and `notebook_output` reads the descriptor back.
The encoding of a representation is chosen from its media type and value when it
is written, and from the media type alone when it is read.

Python's text, `json` and `base64` are modelled; `Python` holds what the codec
uses besides them.
-/
import ExecutorService.Base64
import ExecutorService.JsonRoundTrip
import ExecutorService.Table

namespace ExecutorService.Codec

open Json (Value)

/-- Python text. -/
abbrev Text := List Char

/-- `str.isspace` of one character. -/
def isSpace (c : Char) : Bool :=
  [0x09, 0x0A, 0x0B, 0x0C, 0x0D, 0x1C, 0x1D, 0x1E, 0x1F, 0x20, 0x85, 0xA0, 0x1680, 0x2000,
    0x2001, 0x2002, 0x2003, 0x2004, 0x2005, 0x2006, 0x2007, 0x2008, 0x2009, 0x200A, 0x2028,
    0x2029, 0x202F, 0x205F, 0x3000].contains c.toNat

/-- `str.strip`. -/
def strip (s : Text) : Text :=
  ((s.dropWhile isSpace).reverse.dropWhile isSpace).reverse

/-- What the codec uses of Python: its floats, `str` of a JSON value, `str.lower`
and the hash of a file. -/
structure Python (F : Type) where
  floats : Json.FloatText F
  str : Value F → Text
  str_str : ∀ s, str (.str s) = s
  lower : Text → Text
  lower_ascii : ∀ s, (∀ c ∈ s, c.toNat < 128) → lower s = s.map Char.toLower
  lower_lower : ∀ s, lower (lower s) = lower s
  strip_lower : ∀ s, strip (lower (strip s)) = lower (strip s)
  sha256 : List UInt8 → Text

/-- The characters `str.splitlines` breaks at. -/
def isLineBoundary (c : Char) : Bool :=
  [0x0A, 0x0B, 0x0C, 0x0D, 0x1C, 0x1D, 0x1E, 0x85, 0x2028, 0x2029].contains c.toNat

/-- `str.splitlines`. -/
def splitlines : Text → List Text
  | [] => []
  | '\r' :: '\n' :: cs => [] :: splitlines cs
  | c :: cs =>
    if isLineBoundary c then [] :: splitlines cs
    else match splitlines cs with
      | [] => [[c]]
      | line :: lines => (c :: line) :: lines

/-- `"\n".join`. -/
def joinLines : List Text → Text
  | [] => []
  | [line] => line
  | line :: lines => line ++ '\n' :: joinLines lines

/-- The bytes of a text in UTF-8. -/
def utf8Encode (s : Text) : List UInt8 :=
  s.flatMap String.utf8EncodeChar

/-- The text of bytes in UTF-8, if they are one. -/
def utf8Decode (body : List UInt8) : Option Text :=
  body.toByteArray.utf8Decode?.map (·.toList)

/-- The errors of the two codecs. -/
inductive CodecError
  | runtimeDriver (message : String)
  | resultStorage (message : String)
  deriving DecidableEq, Repr

/-! ### Records -/

/-- How the content of a representation is stored. -/
inductive Encoding
  | utf8 | base64
  deriving DecidableEq, Repr

/-- The kinds of output records. -/
inductive OutputKind
  | stream | display | result | error
  deriving DecidableEq, Repr

/-- A representation of an output, with its content. -/
structure RuntimeOutputRepresentation where
  mediaType : Text
  encoding : Encoding
  content : Text

/-- An output of the Runtime. -/
structure RuntimeOutputRecord (F : Type) where
  kind : OutputKind
  representations : List RuntimeOutputRepresentation
  streamName : Option Text := none
  executionCount : Option ℤ := none
  metadata : List (Text × Value F) := []

/-- The types of kernel messages that are outputs. -/
inductive MessageType
  | stream | displayData | executeResult | error
  deriving DecidableEq, Repr

/-- A kernel message; the content is a `dict`. -/
structure Message (F : Type) where
  type : MessageType
  content : List (Text × Value F)
  distinct : (Value.obj content).Distinct

section

variable {F : Type}

/-- `content.get(key, default)`. -/
def get (members : List (Text × Value F)) (key : String) (default : Value F) : Value F :=
  ((members.find? (·.1 == key.toList)).map (·.2)).getD default

/-- A text as a value of a document. -/
def textValue (s : String) : Value F :=
  .str s.toList

/-- `separators=(",", ":")`, sorted, not escaped. -/
def contentFormat : Json.Format :=
  ⟨false, true, true⟩

/-- A media type whose value is base64. -/
def isBase64 (mediaType : Text) : Bool :=
  mediaType == "application/pdf".toList ||
    ("image/".toList.isPrefixOf mediaType && mediaType != "image/svg+xml".toList)

variable (py : Python F)

/-- One representation of a display, by its media type. -/
def outputRepresentation (mediaType : Text) (value : Value F) :
    Except CodecError RuntimeOutputRepresentation :=
  let normalized := py.lower (strip mediaType)
  if normalized = [] ∨ '/' ∉ normalized then
    .error (.runtimeDriver "Jupyter output media type is invalid.")
  else if isBase64 normalized then
    match value with
    | .str s => .ok ⟨normalized, .base64, s⟩
    | _ => .error (.runtimeDriver "Jupyter binary representation is invalid.")
  else
    match value with
    | .str s => .ok ⟨normalized, .utf8, s⟩
    | value => .ok ⟨normalized, .utf8, Json.dumps py.floats contentFormat value⟩

/-- `execution_count`: absent, null or an int. -/
def executionCountOf : Value F → Except CodecError (Option ℤ)
  | .constant .null => .ok none
  | .int n => .ok (some n)
  | _ => .error (.runtimeDriver "Jupyter execution_count is invalid.")

/-- `transient` goes into the metadata when it is a non-empty `dict`. -/
def withTransient (metadata : List (Text × Value F)) : Value F → List (Text × Value F)
  | .obj (m :: ms) => Json.insertMember metadata ("transient".toList, .obj (m :: ms))
  | _ => metadata

/-- The record of a display or of a result. -/
def asDisplayRecord (kind : OutputKind) (content : List (Text × Value F)) :
    Except CodecError (RuntimeOutputRecord F) :=
  match get content "data" (.obj []) with
  | .obj data => do
    let representations ← data.mapM fun m => outputRepresentation py m.1 m.2
    let representations := if representations = [] then
        [⟨"application/json".toList, .utf8, "\x7b\x7d".toList⟩]
      else representations
    match get content "metadata" (.obj []) with
    | .obj metadata => do
      let executionCount ← executionCountOf (get content "execution_count" (.constant .null))
      return {
        kind := kind
        executionCount := executionCount
        representations := representations
        metadata := withTransient metadata (get content "transient" (.constant .null)) }
    | _ => .error (.runtimeDriver "Jupyter output metadata is invalid.")
  | _ => .error (.runtimeDriver "Jupyter display data is invalid.")

/-- The text of an error: its traceback, or its name and value. -/
def errorText (name value : Text) (traceback : List (Value F)) : Text :=
  let text := joinLines (traceback.map py.str)
  if text = [] then name ++ ": ".toList ++ value else text

/-- `as_output_record`. -/
def asOutputRecord (m : Message F) : Except CodecError (RuntimeOutputRecord F) :=
  match m.type with
  | .stream => .ok {
      kind := .stream
      streamName := some (py.str (get m.content "name" (textValue "stdout")))
      representations := [⟨"text/plain".toList, .utf8,
        py.str (get m.content "text" (textValue ""))⟩] }
  | .displayData => asDisplayRecord py .display m.content
  | .executeResult => asDisplayRecord py .result m.content
  | .error =>
    let name := py.str (get m.content "ename" (textValue "Error"))
    let value := py.str (get m.content "evalue" (textValue ""))
    match get m.content "traceback" (.arr []) with
    | .arr traceback => .ok {
        kind := .error
        representations := [⟨"text/plain".toList, .utf8, errorText py name value traceback⟩]
        metadata := [("ename".toList, .str name), ("evalue".toList, .str value)] }
    | _ => .error (.runtimeDriver "Jupyter traceback is invalid.")

/-! ### Storage -/

/-- A file below `outputs/`; its name writes out these parts, and a suffix for
the media type. -/
structure OutputFile where
  ordinal : ℕ
  kind : OutputKind
  index : ℕ
  deriving DecidableEq

/-- A representation in the manifest, with the file of its content. -/
structure RepresentationDescriptor where
  mediaType : Text
  encoding : Encoding
  file : OutputFile
  sizeBytes : ℕ
  checksumSha256 : Text

/-- An output in the manifest. -/
structure OutputDescriptor (F : Type) where
  ordinal : ℕ
  kind : OutputKind
  streamName : Option Text
  executionCount : Option ℤ
  representations : List RepresentationDescriptor
  metadata : Value F

/-- The bytes that are stored for a content. -/
def representationBody (encoding : Encoding) (content : Text) :
    Except CodecError (List UInt8) :=
  match encoding with
  | .utf8 => .ok (utf8Encode content)
  | .base64 => match Base64.decode content with
    | some body => .ok body
    | none => .error (.resultStorage "Output content does not match its declared encoding.")

/-- `json_value`: a round trip through the default format. -/
def jsonValue (v : Value F) : Except CodecError (Value F) :=
  match Json.loads py.floats (Json.dumps py.floats ⟨true, false, false⟩ v) with
  | some v => .ok v
  | none => .error (.resultStorage "Result metadata must be JSON serializable.")

/-- A representation, with the file it is written to. -/
def persistRepresentation (file : OutputFile) (r : RuntimeOutputRepresentation) :
    Except CodecError (RepresentationDescriptor × OutputFile × List UInt8) := do
  let body ← representationBody r.encoding r.content
  return (⟨strip (py.lower r.mediaType), r.encoding, file, body.length, py.sha256 body⟩,
    file, body)

/-- `persist_record`: the descriptor and the files beside it. -/
def persistRecord (ordinal : ℕ) (record : RuntimeOutputRecord F) :
    Except CodecError (OutputDescriptor F × List (OutputFile × List UInt8)) := do
  let written ← record.representations.zipIdx.mapM fun (r, index) =>
    persistRepresentation py ⟨ordinal, record.kind, index⟩ r
  let metadata ← jsonValue py (.obj record.metadata)
  return ({
    ordinal := ordinal
    kind := record.kind
    streamName := record.streamName
    executionCount := record.executionCount
    representations := written.map (·.1)
    metadata := metadata }, written.map (·.2))

/-! ### Reading -/

/-- An output of a notebook cell. -/
inductive NotebookOutput (F : Type)
  | stream (name text : Text)
  | displayData (data : List (Text × Value F)) (metadata : List (Text × Value F))
  | executeResult (data : List (Text × Value F)) (metadata : List (Text × Value F))
      (executionCount : Option ℤ)
  | error (ename evalue : Text) (traceback : List Text)

/-- What a file's bytes mean for a media type. -/
def decodeBody (mediaType : Text) (body : List UInt8) : Except CodecError (Value F) :=
  if "image/".toList.isPrefixOf mediaType || mediaType == "application/pdf".toList then
    .ok (.str (Base64.encode body))
  else match utf8Decode body with
    | none => .error (.resultStorage "Text Step output is not UTF-8.")
    | some text =>
      if mediaType == "application/json".toList || "+json".toList.isSuffixOf mediaType then
        match Json.loads py.floats text with
        | some v => .ok v
        | none => .error (.resultStorage "JSON Step output is invalid.")
      else .ok (.str text)

/-- The value of a stored representation in the notebook. -/
def representationValue (files : List (OutputFile × List UInt8))
    (d : RepresentationDescriptor) : Except CodecError (Value F) :=
  match files.find? (·.1 == d.file) with
  | none => .error (.resultStorage "Step output path escapes its result.")
  | some (_, body) =>
    if body.length ≠ d.sizeBytes ∨ py.sha256 body ≠ d.checksumSha256 then
      .error (.resultStorage "Step output content checksum failed.")
    else decodeBody py d.mediaType body

/-- An output in the notebook. -/
def notebookOutput (files : List (OutputFile × List UInt8)) (d : OutputDescriptor F) :
    Except CodecError (NotebookOutput F) := do
  let values ← d.representations.mapM fun r => do
    let v ← representationValue py files r
    return (r.mediaType, v)
  let representations := values.foldl Json.insertMember []
  match d.metadata with
  | .obj metadata =>
    match d.kind with
    | .stream =>
      let name := d.streamName.getD []
      return .stream (if name = [] then "stdout".toList else name)
        (py.str (get representations "text/plain" (textValue "")))
    | .display => return .displayData representations metadata
    | .result => return .executeResult representations metadata d.executionCount
    | .error =>
      let traceback := py.str (get representations "text/plain" (textValue ""))
      return .error (py.str (get metadata "ename" (textValue "ExecutionError")))
        (py.str (get metadata "evalue" (textValue ""))) (splitlines traceback)
  | _ => .error (.resultStorage "Step output metadata is invalid.")

end

end ExecutorService.Codec
