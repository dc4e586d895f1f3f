/-
Execution journals of the Jupyter extension (`executions.py`).

The server process sends the code of a request once and records what the kernel
answers: a file per request with a header line, one numbered line per message and a
terminal line.  Followers read the lines and wait at the end of the file until the
recorder tells them of more; a follower that finds no recorder ends the journal
itself.

* a file is a list of whole lines and torn ones: the part of a line that reached the
  file before a write failed or the process was killed; what is written afterwards
  stands behind it on the same line;
* a step is what a task does between two awaits, so that an append, the handler of
  its exception and the closing of the file are one step;
* an `Attempt` says how one flush of a file handle goes;
* a follower is behind a WebSocket (`handlers.py`), which its first frame opens and
  which an exception of `follow` leaves open.

Files are named by their inode: a path can be removed and taken again while somebody
still reads the old file.
-/
import ExecutorService.Enums
import Mathlib

namespace ExecutorService.Journals

/-- The channel a message came on. -/
inductive Channel
  | shell | iopub
  deriving DecidableEq, Repr

/-- How a journal ends. -/
inductive TerminalState
  | completed | lost | outputLimit
  deriving DecidableEq, Repr

/-- A numbered line of a journal; `C` is the content of a kernel message. -/
inductive Entry (C : Type)
  | message (seq : ℕ) (channel : Channel) (msgType : String) (content : C)
  | terminal (seq : ℕ) (state : TerminalState) (message : Option String)
  deriving DecidableEq

/-- A line of a journal: the header or an entry. -/
inductive Line (C : Type)
  | header (requestId : UUID) (kernelId : UUID) (serverId : ℕ)
  | entry (entry : Entry C)
  deriving DecidableEq

/-- A line as far as it is in the file: with its newline, or the first bytes of its
text, at most all of them. -/
inductive Fragment (C : Type)
  | whole (line : Line C)
  | torn (line : Line C) (bytes : ℕ)
  deriving DecidableEq

/-- The contents of a file. -/
abbrev File (C : Type) := List (Fragment C)

section

variable {C : Type}

/-- The number of a line. -/
def Entry.seq : Entry C → ℕ
  | .message seq _ _ _ => seq
  | .terminal seq _ _ => seq

/-- The entry ends its journal. -/
def Entry.isTerminal : Entry C → Bool
  | .message .. => false
  | .terminal .. => true

/-- The line has its newline. -/
def Fragment.isWhole : Fragment C → Bool
  | .whole _ => true
  | .torn _ _ => false

/-- A whole line that ends its journal. -/
def Fragment.isTerminal : Fragment C → Bool
  | .whole (.entry e) => e.isTerminal
  | _ => false

/-! ### Writing -/

/-- How a flush or the closing of a handle goes.  When it raises or the process is
killed, some of the pending lines are in the file and `torn` bytes of the next; what
is not may stay in the handle's buffer. -/
inductive Attempt
  | ok
  | raised (lines torn : ℕ) (kept : Bool) (exc : String)
  | killed (lines torn : ℕ)
  deriving DecidableEq, Repr

/-- What the caller of a flush sees of it. -/
inductive Result
  | ok
  | raised (exc : String)
  | killed
  deriving DecidableEq, Repr

/-- An open file and the lines that its buffer has still to write; the last fragment
of the file is a part of the first of them if `tornHead`. -/
structure Handle (C : Type) where
  file : File C
  pending : List (Line C) := []
  tornHead : Bool := false

/-- `lines` of the pending lines reach the file, and `torn` bytes of the next. -/
def Handle.put (h : Handle C) (lines torn : ℕ) : Handle C :=
  match torn, h.pending.drop lines with
  | bytes + 1, line :: rest => {
      file := (if h.tornHead then h.file.dropLast else h.file) ++
        (h.pending.take lines).map .whole ++ [.torn line (bytes + 1)]
      pending := line :: rest
      tornHead := true }
  | _, rest =>
    -- A torn line stays as it is until more of it is written.
    if lines = 0 then h else {
      file := (if h.tornHead then h.file.dropLast else h.file) ++
        (h.pending.take lines).map .whole
      pending := rest }

/-- `flush`, or the closing of the handle. -/
def Handle.flush (h : Handle C) : Attempt → Handle C × Result
  | .ok => (h.put h.pending.length 0, .ok)
  | .raised lines torn kept exc =>
    (if kept then h.put lines torn else { file := (h.put lines torn).file }, .raised exc)
  | .killed lines torn => (h.put lines torn, .killed)

/-- `write` and a flush. -/
def Handle.write (h : Handle C) (line : Line C) (attempt : Attempt) : Handle C × Result :=
  Handle.flush { h with pending := h.pending ++ [line] } attempt

/-! ### Tasks -/

/-- What follows an `append` of `_record`: the loop, the end of the loop, or the end
of an exception handler. -/
inductive Next
  | goOn | finish | handled
  deriving DecidableEq, Repr

/-- What a recorder waits for: its start; kernel messages; the lock, to tell the
followers of an entry; the lock, to tell them of its end. -/
inductive RecorderPhase
  | opening
  | recording
  | notifying (next : Next)
  | lastNotifying
  | ended
  deriving DecidableEq, Repr

/-- A kernel message, with whether it answers this request and, for a status message,
whether it says that the kernel is idle. -/
structure KernelMessage (C : Type) where
  ours : Bool
  channel : Channel
  msgType : String
  idle : Bool
  content : C

/-- What a channel gave: a message, or an exception. -/
abbrev Received (C : Type) := Except String (KernelMessage C)

/-- A `_record` task, and its `_Recording`; `todo` is what the channels gave and the
loop has not looked at yet. -/
structure Recorder (C : Type) where
  requestId : UUID
  inode : ℕ
  seq : ℕ := 0
  size : ℕ
  replyReceived : Bool := false
  idleReceived : Bool := false
  todo : List (Received C) := []
  phase : RecorderPhase := .opening

/-- What ends a wait of the recorder: one channel or both, the liveness timeout with
the kernel as it is or replaced, and a cancellation. -/
inductive Wake (C : Type)
  | received (shell iopub : Option (Received C))
  | alive
  | replaced (exitReason : String)
  | cancelled

/-- Where a `follow` is: at a `readline`; at the end of the file; before the lock of the
recording; waiting for it to change; after a terminal entry; without its connection;
or left by an exception, which for `torn` is that of `json.loads`. -/
inductive FollowPhase
  | reading | deciding | locking | waiting | ended | closed | raised | torn
  deriving DecidableEq, Repr

/-- A request for the stream; `recording` is the recorder whose lock it uses, and
`opened` says whether a frame has opened the WebSocket. -/
structure Follower where
  requestId : UUID
  inode : ℕ
  after : ℕ
  position : ℕ := 1
  lastSeq : ℕ := 0
  caughtUp : Bool := false
  recording : Option ℕ
  opened : Bool := false
  phase : FollowPhase := .reading
  deriving DecidableEq

/-- What a follower is sent. -/
inductive Frame (C : Type)
  | entry (entry : Entry C)
  | caughtUp (seq : ℕ) (finished : Bool)
  deriving DecidableEq

/-- The client is there.  Before the WebSocket is open an exception of `follow` is an
HTTP error; afterwards `_send_entries` ends with it and closes nothing. -/
def Follower.connected (f : Follower) : Bool :=
  match f.phase with
  | .reading | .deciding | .locking | .waiting => true
  | .raised | .torn => f.opened
  | .ended | .closed => false

/-- `readline` and `json.loads`: nothing at the end of the file; no entry where a part
of a line is, unless it is the whole text and nothing stands behind it. -/
def readLine (textSize : Line C → ℕ) (file : File C) (position : ℕ) : Option (Option (Line C)) :=
  match file.drop position with
  | [] => none
  | .whole line :: _ => some (some line)
  | [.torn line bytes] => some (if textSize line ≤ bytes then some line else none)
  | .torn .. :: _ => some none

/-- One `readline` of `follow` and what it yields. -/
def Follower.read (f : Follower) (textSize : Line C → ℕ) (file : File C) :
    Follower × List (Frame C) :=
  match readLine textSize file f.position with
  | some (some (.entry e)) =>
    let frames := if f.after < e.seq then [.entry e] else []
    let f := { f with position := f.position + 1, lastSeq := e.seq }
    if e.isTerminal then
      ({ f with phase := .ended }, frames ++ if f.caughtUp then [] else [.caughtUp e.seq true])
    else (f, frames)
  -- It has no `seq`.
  | some (some (.header ..)) => ({ f with phase := .raised }, [])
  | some none => ({ f with phase := .torn }, [])
  | none => ({ f with caughtUp := true, phase := .deciding },
      if f.caughtUp then [] else [.caughtUp f.lastSeq false])

/-! ### The server -/

/-- The process and its directory.  `sent` is every `execute_request`, in order;
`removed` the requests whose journal was removed at some time. -/
structure Server (C : Type) where
  serverId : ℕ := 0
  files : List (File C) := []
  paths : UUID → Option ℕ := fun _ => none
  recordings : UUID → Option ℕ := fun _ => none
  recorders : List (Recorder C) := []
  followers : List Follower := []
  sent : List UUID := []
  removed : List UUID := []

/-- What happens next, with how its writes go. -/
inductive Action (C : Type)
  /-- The end of `start`, from the creation of the journal on. -/
  | start (requestId kernelId : UUID) (header : Attempt) (executed : Bool)
  /-- The recorder's task begins; opening the file may fail, or the task is cancelled
  before. -/
  | openJournal (recorder : ℕ) (opened : Bool)
  | record (recorder : ℕ) (wake : Wake C) (append terminal close : Attempt)
  | notify (recorder : ℕ) (close : Attempt)
  | cancelNotify (recorder : ℕ) (terminal close : Attempt)
  | connect (requestId kernelId : UUID) (after : ℕ)
  | read (follower : ℕ)
  | decide (follower : ℕ) (terminal : Attempt)
  | lock (follower : ℕ)
  | disconnect (follower : ℕ)
  /-- `delete`, or the removal of an expired journal by some `start`. -/
  | remove (requestId : UUID)
  | restart

/-- The contents behind an inode. -/
def Server.file (s : Server C) (inode : ℕ) : File C :=
  s.files.getD inode []

/-- A file is written. -/
def Server.setFile (s : Server C) (inode : ℕ) (file : File C) : Server C :=
  { s with files := s.files.set inode file }

/-- One recorder goes on. -/
def Server.setRecorder (s : Server C) (i : ℕ) (r : Recorder C) : Server C :=
  { s with recorders := s.recorders.set i r }

/-- One follower goes on. -/
def Server.setFollower (s : Server C) (i : ℕ) (f : Follower) : Server C :=
  { s with followers := s.followers.set i f }

/-- A new process: tasks and connections are gone, files stay. -/
def Server.restart (s : Server C) : Server C :=
  { s with
    serverId := s.serverId + 1
    recordings := fun _ => none
    recorders := s.recorders.map fun r => { r with phase := .ended }
    followers := s.followers.map fun f =>
      if f.connected then { f with phase := .closed } else f }

/-- `recording.changed.notify_all()`. -/
def Server.notifyAll (s : Server C) (i : ℕ) : Server C :=
  { s with followers := s.followers.map fun f =>
      if f.recording = some i ∧ f.phase = .waiting then { f with phase := .reading } else f }

/-- The journal is created, unless there is one, and the code is sent. -/
def Server.start (s : Server C) (textSize : Line C → ℕ) (requestId kernelId : UUID)
    (header : Attempt) (executed : Bool) : Server C :=
  if (s.paths requestId).isSome then s else
  let line := Line.header requestId kernelId s.serverId
  let (h, result) := Handle.write { file := [] } line header
  let inode := s.files.length
  let s := { s with
    files := s.files ++ [h.file]
    paths := Function.update s.paths requestId (some inode) }
  match result with
  | .killed => s.restart
  | .raised _ => s
  | .ok =>
    if ¬ executed then s else { s with
      sent := s.sent ++ [requestId]
      recordings := Function.update s.recordings requestId (some s.recorders.length)
      recorders := s.recorders ++ [{ requestId, inode, size := textSize line + 1 }] }

/-! ### Recorders -/

/-- The `finally` of `_record`: if the file does not close, the recording stays in
the table and nobody is told. -/
def Server.closeJournal (s : Server C) (i : ℕ) (r : Recorder C) (h : Handle C) (close : Attempt) :
    Server C :=
  let (h, result) := h.flush close
  let s := s.setFile r.inode h.file
  match result with
  | .killed => s.restart
  | .raised _ => s.setRecorder i { r with phase := .ended }
  | .ok =>
    { s with recordings := Function.update s.recordings r.requestId none }.setRecorder i
      { r with phase := .lastNotifying }

/-- An exception handler of `_record`: a last entry. -/
def Server.failRecording (s : Server C) (i : ℕ) (r : Recorder C) (h : Handle C) (message : String)
    (terminal close : Attempt) : Server C :=
  let r := { r with seq := r.seq + 1 }
  let (h, result) := h.write (.entry (.terminal r.seq .lost (some message))) terminal
  match result with
  | .killed => (s.setFile r.inode h.file).restart
  | .raised _ => s.closeJournal i r h close
  | .ok => (s.setFile r.inode h.file).setRecorder i { r with phase := .notifying .handled }

/-- `append`; its exceptions go to the handler. -/
def Server.appendEntry (s : Server C) (textSize : Line C → ℕ) (i : ℕ) (r : Recorder C)
    (entry : ℕ → Entry C) (append terminal close : Attempt) : Server C :=
  let r := { r with seq := r.seq + 1 }
  let line := Line.entry (entry r.seq)
  let (h, result) := Handle.write { file := s.file r.inode } line append
  match result with
  | .killed => (s.setFile r.inode h.file).restart
  | .raised exc =>
    s.failRecording i r h s!"Kernel execution recording failed: {exc}." terminal close
  | .ok => (s.setFile r.inode h.file).setRecorder i { r with
      size := r.size + textSize line + 1
      phase := .notifying (if (entry r.seq).isTerminal then .finish else .goOn) }

/-- The text of the journal's limit. -/
def outputLimitMessage (maxBytes : ℕ) : String :=
  s!"Execution output exceeded the {maxBytes}-byte journal limit."

/-- One message of the loop. -/
def Server.recordMessage (s : Server C) (textSize : Line C → ℕ) (maxBytes : ℕ) (i : ℕ)
    (r : Recorder C) (m : KernelMessage C) (append terminal close : Attempt) : Server C :=
  if ¬ m.ours then s.setRecorder i r
  else if m.msgType = "status" then s.setRecorder i { r with idleReceived := m.idle }
  else
    let r := if m.channel = .shell ∧ m.msgType = "execute_reply" then
      { r with replyReceived := true } else r
    if maxBytes < r.size then
      s.appendEntry textSize i r (fun seq =>
        .terminal seq .outputLimit (some (outputLimitMessage maxBytes))) append terminal close
    else
      s.appendEntry textSize i r (fun seq => .message seq m.channel m.msgType m.content)
        append terminal close

/-- A turn of `_record`: what is left to look at; the end, once the reply and the
idle status are there; or what a new wait gave. -/
def Server.record (s : Server C) (textSize : Line C → ℕ) (maxBytes : ℕ) (i : ℕ) (r : Recorder C)
    (wake : Wake C) (append terminal close : Attempt) : Server C :=
  match r.todo with
  | .ok m :: todo =>
    s.recordMessage textSize maxBytes i { r with todo } m append terminal close
  | .error exc :: todo =>
    s.failRecording i { r with todo } { file := s.file r.inode }
      s!"Kernel execution recording failed: {exc}." terminal close
  | [] =>
    if r.replyReceived ∧ r.idleReceived then
      s.appendEntry textSize i r (fun seq => .terminal seq .completed none) append terminal close
    else match wake with
      | .received shell iopub =>
        s.setRecorder i { r with todo := shell.toList ++ iopub.toList }
      | .alive => s
      | .replaced exitReason =>
        s.appendEntry textSize i r (fun seq => .terminal seq .lost (some
          ("The kernel process stopped or restarted during execution." ++ exitReason)))
          append terminal close
      | .cancelled =>
        s.failRecording i r { file := s.file r.inode } "Kernel execution recording stopped."
          terminal close

/-- The lock is there: the followers are told, and the recorder goes on. -/
def Server.notify (s : Server C) (i : ℕ) (r : Recorder C) (close : Attempt) : Server C :=
  match r.phase with
  | .notifying .goOn => (s.notifyAll i).setRecorder i { r with phase := .recording }
  | .notifying _ => (s.notifyAll i).closeJournal i r { file := s.file r.inode } close
  | .lastNotifying => (s.notifyAll i).setRecorder i { r with phase := .ended }
  | _ => s

/-- The recorder is cancelled while it waits for the lock. -/
def Server.cancelNotify (s : Server C) (i : ℕ) (r : Recorder C) (terminal close : Attempt) :
    Server C :=
  match r.phase with
  | .notifying .handled => s.closeJournal i r { file := s.file r.inode } close
  | .notifying _ =>
    s.failRecording i r { file := s.file r.inode } "Kernel execution recording stopped."
      terminal close
  | .lastNotifying => s.setRecorder i { r with phase := .ended }
  | _ => s

/-! ### Followers -/

/-- `follow` up to the header. -/
def Server.connect (s : Server C) (textSize : Line C → ℕ) (requestId kernelId : UUID)
    (after : ℕ) : Server C :=
  match s.paths requestId with
  | none => s
  | some inode => match readLine textSize (s.file inode) 0 with
    | some (some (.header _ kernel _)) =>
      if kernel ≠ kernelId then s else { s with
        followers := s.followers ++ [{
          requestId, inode, after, recording := s.recordings requestId }] }
    | some none => { s with
        followers := s.followers ++ [{
          requestId, inode, after, recording := s.recordings requestId, phase := .torn }] }
    | _ => s

/-- A turn of the loop; the first frame opens the WebSocket. -/
def Server.read (s : Server C) (textSize : Line C → ℕ) (i : ℕ) (f : Follower) : Server C :=
  let (f', frames) := f.read textSize (s.file f.inode)
  s.setFollower i { f' with opened := f.opened || !frames.isEmpty }

/-- `path.open("a")`: the file that has the path now, or a new one. -/
def Server.openOrphan (s : Server C) (requestId : UUID) : Server C × ℕ :=
  match s.paths requestId with
  | some inode => (s, inode)
  | none => ({ s with
      files := s.files ++ [[]]
      paths := Function.update s.paths requestId (some s.files.length) }, s.files.length)

/-- The text of an orphan's last entry, by the header that was read. -/
def Server.orphanMessage (s : Server C) (f : Follower) : String :=
  match (s.file f.inode).head? with
  | some (.whole (.header _ _ serverId)) | some (.torn (.header _ _ serverId) _) =>
    if serverId ≠ s.serverId then "The Jupyter server restarted during execution."
    else "Kernel execution recording stopped."
  | _ => ""

/-- `_finish_orphan`. -/
def Server.finishOrphan (s : Server C) (i : ℕ) (f : Follower) (attempt : Attempt) : Server C :=
  match s.recordings f.requestId with
  | some r => s.setFollower i { f with recording := some r, phase := .reading }
  | none =>
    let (s₁, inode) := s.openOrphan f.requestId
    let (h, result) := Handle.write { file := s₁.file inode }
      (.entry (.terminal (f.lastSeq + 1) .lost (some (s.orphanMessage f)))) attempt
    let s₂ := s₁.setFile inode h.file
    match result with
    | .killed => s₂.restart
    | .raised _ => s₂.setFollower i { f with phase := .raised }
    | .ok => s₂.setFollower i { f with phase := .reading }

/-- After the end of the file: no recorder, or one to wait for. -/
def Server.decide (s : Server C) (i : ℕ) (f : Follower) (attempt : Attempt) : Server C :=
  match f.recording with
  | none => s.finishOrphan i f attempt
  | some _ => s.setFollower i { f with phase := .locking }

/-- The size of a file; a line is its text and a newline. -/
def fileSize (textSize : Line C → ℕ) (file : File C) : ℕ :=
  (file.map fun
    | .whole line => textSize line + 1
    | .torn line bytes => min bytes (textSize line)).sum

/-- The lock is there: wait if the file that has the path is as long as what was read;
`stat` raises without one. -/
def Server.lock (s : Server C) (textSize : Line C → ℕ) (i : ℕ) (f : Follower) : Server C :=
  match s.paths f.requestId with
  | none => s.setFollower i { f with phase := .raised }
  | some inode =>
    if fileSize textSize ((s.file f.inode).take f.position) = fileSize textSize (s.file inode) then
      s.setFollower i { f with phase := .waiting }
    else s.setFollower i { f with phase := .reading }

/-! ### Steps -/

/-- A step of a recorder that is in one of these phases. -/
def Server.withRecorder (s : Server C) (i : ℕ) (phases : RecorderPhase → Bool)
    (f : Recorder C → Server C) : Server C :=
  match s.recorders[i]? with
  | some r => if phases r.phase then f r else s
  | none => s

/-- A step of a follower that is in this phase. -/
def Server.withFollower (s : Server C) (i : ℕ) (phase : FollowPhase)
    (f : Follower → Server C) : Server C :=
  match s.followers[i]? with
  | some follower => if follower.phase = phase then f follower else s
  | none => s

/-- One step. -/
def Server.step (textSize : Line C → ℕ) (maxBytes : ℕ) (s : Server C) : Action C → Server C
  | .start requestId kernelId header executed => s.start textSize requestId kernelId header executed
  | .openJournal i opened => s.withRecorder i (· == .opening) fun r =>
      s.setRecorder i { r with phase := if opened then .recording else .ended }
  | .record i wake append terminal close => s.withRecorder i (· == .recording) fun r =>
      s.record textSize maxBytes i r wake append terminal close
  | .notify i close => s.withRecorder i (fun _ => true) fun r => s.notify i r close
  | .cancelNotify i terminal close => s.withRecorder i (fun _ => true) fun r =>
      s.cancelNotify i r terminal close
  | .connect requestId kernelId after => s.connect textSize requestId kernelId after
  | .read i => s.withFollower i .reading fun f => s.read textSize i f
  | .decide i attempt => s.withFollower i .deciding fun f => s.decide i f attempt
  | .lock i => s.withFollower i .locking fun f => s.lock textSize i f
  | .disconnect i => match s.followers[i]? with
    | some f => if f.connected then s.setFollower i { f with phase := .closed } else s
    | none => s
  | .remove requestId =>
    -- A request in the table is busy.
    if (s.recordings requestId).isSome then s else { s with
      paths := Function.update s.paths requestId none
      removed := if (s.paths requestId).isSome then requestId :: s.removed else s.removed }
  | .restart => s.restart

end

end ExecutorService.Journals
