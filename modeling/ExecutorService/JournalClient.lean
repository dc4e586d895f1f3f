/-
The Executor's side of a journal (`jupyter/execution.py`).

`follow` connects to the extension's stream, gives each frame to `_JournalState` and
connects again after the last applied entry when the connection breaks.  An output
message goes to the output handler; a terminal entry, a gap or a failure of the
handler ends the call.

* the handler is a function of the records it was given before and may fail with an
  error of its own; the catch-up handler returns;
* a connection is what the extension yields from the journal as its `readline`s find
  it (`seen`), as far as it was received;
* a pattern of disconnects is a list of connections.
-/
import ExecutorService.Codec
import ExecutorService.Journals

namespace ExecutorService.Journals

open Codec (Text Python RuntimeOutputRecord CodecError)
open Json (Value)

variable {F E : Type}

/-! ### Messages -/

/-- The content of a kernel message, a `dict`. -/
structure Content (F : Type) where
  members : List (Text × Value F)
  distinct : (Value.obj members).Distinct

/-- The type of an output message. -/
def messageType : String → Option Codec.MessageType
  | "stream" => some .stream
  | "display_data" => some .displayData
  | "execute_result" => some .executeResult
  | "error" => some .error
  | _ => none

/-- `as_output_record`: messages of other types are no outputs. -/
def asOutputRecord (py : Python F) (msgType : String) (content : Content F) :
    Except CodecError (Option (RuntimeOutputRecord F)) :=
  match messageType msgType with
  | none => .ok none
  | some type => (Codec.asOutputRecord py ⟨type, content.members, content.distinct⟩).map some

/-- `error_summary`. -/
def errorSummary (py : Python F) (content : Content F) : Text :=
  (py.str (Codec.get content.members "ename" (Codec.textValue "ExecutionError")) ++ ": ".toList ++
    py.str (Codec.get content.members "evalue" (Codec.textValue ""))).take 2000

/-! ### The state of a follow -/

/-- How `follow` fails. -/
inductive FollowError (E : Type)
  /-- `RuntimeDriverError`: the journal has a gap. -/
  | gap
  /-- `RuntimeDriverError` of `as_output_record`. -/
  | codec (error : CodecError)
  | sessionLost (message : String)
  /-- `RuntimeOutputLimitExceededError`, of the journal or of one message. -/
  | journalSize (message : String)
  | messageSize
  | execution (message : Text)
  /-- The output handler's own exception. -/
  | handler (error : E)

/-- The end of a follow: what the handler was given, and the result, the execution
count, or the error. -/
structure Ended (F E : Type) where
  delivered : List (RuntimeOutputRecord F)
  result : Except (FollowError E) (Value F)

/-- `_JournalState`, and what the handler was given. -/
structure JournalState (F : Type) where
  seq : ℕ := 0
  executionCount : Value F := .constant .null
  errorMessage : Option Text := none
  caughtUp : Bool := false
  delivered : List (RuntimeOutputRecord F) := []

/-- What a follow uses: Python, the output handler, and the size limit of a frame. -/
structure Client (F E : Type) where
  py : Python F
  outputHandler : List (RuntimeOutputRecord F) → RuntimeOutputRecord F → Option E
  tooBig : Entry (Content F) → Bool

/-- `_finish`. -/
def JournalState.finish (st : JournalState F) (state : TerminalState) (message : Option String) :
    Ended F E where
  delivered := st.delivered
  result := match state with
    | .lost => .error (.sessionLost
        ((message.getD "") ++ " The original execution cannot continue."))
    | .outputLimit => .error (.journalSize (message.getD ""))
    | .completed => match st.errorMessage with
      | some error => .error (.execution error)
      | none => .ok st.executionCount

/-- A message on the shell channel. -/
def JournalState.reply (py : Python F) (st : JournalState F) (msgType : String)
    (content : Content F) : JournalState F :=
  if msgType = "execute_reply" then { st with
    executionCount := Codec.get content.members "execution_count" (.constant .null)
    errorMessage := match Codec.get content.members "status" (.constant .null) with
      | .str status => if status = "error".toList then some (errorSummary py content)
        else st.errorMessage
      | _ => st.errorMessage }
  else st

/-- An output, given to the handler. -/
def JournalState.output (c : Client F E) (st : JournalState F) (msgType : String)
    (content : Content F) (record : RuntimeOutputRecord F) :
    Except (Ended F E) (JournalState F) :=
  let delivered := st.delivered ++ [record]
  match c.outputHandler st.delivered record with
  | some error => .error { delivered, result := .error (.handler error) }
  | none => .ok { st with
      errorMessage := if msgType = "error" then some (errorSummary c.py content)
        else st.errorMessage
      delivered }

/-- `apply`, for an entry. -/
def JournalState.applyEntry (c : Client F E) (st : JournalState F) (entry : Entry (Content F)) :
    Except (Ended F E) (JournalState F) :=
  if c.tooBig entry then
    .error { delivered := st.delivered, result := .error .messageSize }
  else if entry.seq ≠ st.seq + 1 then
    .error { delivered := st.delivered, result := .error .gap }
  else
    let st := { st with seq := st.seq + 1 }
    match entry with
    | .terminal _ state message => .error (st.finish state message)
    | .message _ .shell msgType content => .ok (st.reply c.py msgType content)
    | .message _ .iopub msgType content =>
      match asOutputRecord c.py msgType content with
      | .error error => .error { delivered := st.delivered, result := .error (.codec error) }
      | .ok none => .ok st
      | .ok (some record) => st.output c msgType content record

/-- `apply`. -/
def JournalState.apply (c : Client F E) (st : JournalState F) :
    Frame (Content F) → Except (Ended F E) (JournalState F)
  | .caughtUp _ _ => .ok { st with caughtUp := true }
  | .entry entry => st.applyEntry c entry

/-! ### Connections -/

/-- A follower that waited or decided at the end of the file reads on. -/
def Follower.resume (f : Follower) : Follower :=
  if f.phase = .deciding then { f with phase := .reading } else f

/-- What a connection yields, for the file as each `readline` finds it. -/
def Follower.serve (textSize : Line (Content F) → ℕ) (f : Follower) :
    List (File (Content F)) → List (Frame (Content F))
  | [] => []
  | file :: rest =>
    if f.phase = .reading then
      (f.read textSize file).2 ++ ((f.read textSize file).1.resume).serve textSize rest
    else []

/-- The follower after that. -/
def Follower.served (textSize : Line (Content F) → ℕ) (f : Follower) :
    List (File (Content F)) → Follower
  | [] => f
  | file :: rest =>
    if f.phase = .reading then ((f.read textSize file).1.resume).served textSize rest else f

/-- A connection: the file as its `readline`s find it, the first of them that of the
header, and how many frames were received before it broke, if it did. -/
structure Connection (F : Type) where
  seen : List (File (Content F))
  received : Option ℕ

/-- The extension's end of a connection, behind the header. -/
def Connection.follower (after : ℕ) : Follower :=
  { requestId := 0, inode := 0, after := after, recording := none }

/-- What the `readline`s behind the header find; without a header there are none, and
the connection is refused. -/
def Connection.body (k : Connection F) (textSize : Line (Content F) → ℕ) :
    List (File (Content F)) :=
  match k.seen with
  | [] => []
  | file :: rest => match readLine textSize file 0 with
    | some (some (.header ..)) => rest
    | _ => []

/-- The frames that the client receives. -/
def Connection.frames (k : Connection F) (textSize : Line (Content F) → ℕ) (after : ℕ) :
    List (Frame (Content F)) :=
  let frames := (Connection.follower after).serve textSize (k.body textSize)
  match k.received with
  | none => frames
  | some n => frames.take n

/-- `follow`: each connection resumes after the last applied entry. -/
def follow (c : Client F E) (textSize : Line (Content F) → ℕ) (st : JournalState F) :
    List (Connection F) → Except (Ended F E) (JournalState F)
  | [] => .ok st
  | k :: rest => do
    let st ← (k.frames textSize st.seq).foldlM (JournalState.apply c) st
    follow c textSize st rest

end ExecutorService.Journals
