/-
Event sequences and the outbox publishers.

Writers append events inside their own transactions
(`event_writer/persistence.py`): the upsert of the sequence counter locks the
counter's row until the transaction ends, so the numbers of one Execution are
handed out in commit order.  Publishers (`outbox.py`) lock pending outbox rows with
SKIP LOCKED, first the heads and then the rows that follow them, append the events
to the Redis stream one by one and commit what they did.  Retention deletes
published rows.  The stream here is of every entry ever appended: Redis drops the oldest
ones, which changes nothing in their order.

Transactions interleave: a step here is one event written, one row locked, one
`XADD`, or the end of a transaction.  A query reads a snapshot of the committed
rows; a row is locked later, if no other publisher holds it and its current version
still matches.  Outbox rows are named by their unique Execution and sequence.
-/
import ExecutorService.Enums
import ExecutorService.Transition
import Mathlib

namespace ExecutorService.Outbox

/-- An Execution and the sequence of one of its events. -/
abbrev EventKey := UUID × ℕ

/-- A row of the outbox, as far as the publishers use it. -/
structure OutboxRow where
  aggregateId : UUID
  eventSequence : ℕ
  status : OutboxStatus := .pending
  attemptCount : ℕ := 0
  availableAt : Time
  createdAt : Time
  publishedAt : Option Time := none
  deriving DecidableEq

/-- The Execution and the number of an event. -/
def OutboxRow.key (row : OutboxRow) : EventKey :=
  (row.aggregateId, row.eventSequence)

/-- The committed rows: the sequence counters (0 without a row), the outbox, and
the keys of all events ever committed, in commit order. -/
structure Database where
  lastSequence : UUID → ℕ := fun _ => 0
  outbox : List OutboxRow := []
  committed : List EventKey := []

/-! ### Writers -/

/-- The events of an open transaction, in the order they were written. -/
abbrev Writer := List OutboxRow

/-- The transaction holds the counter row of this Execution. -/
def Writer.holds (writer : Writer) (executionId : UUID) : Bool :=
  writer.any (·.aggregateId == executionId)

/-- `next_execution_event_sequence`, with the transaction's own increments. -/
def nextExecutionEventSequence (db : Database) (writer : Writer) (executionId : UUID) : ℕ :=
  db.lastSequence executionId + writer.countP (·.aggregateId == executionId) + 1

/-- `persist_execution_event`: the outbox row of a new event. -/
def persistExecutionEvent (db : Database) (writer : Writer) (executionId : UUID) (now : Time) :
    Writer :=
  writer ++ [{
    aggregateId := executionId
    eventSequence := nextExecutionEventSequence db writer executionId
    availableAt := now
    createdAt := now }]

/-- The events of a writer, committed with their numbers. -/
def Database.commitEvents (db : Database) (writer : Writer) : Database where
  lastSequence executionId :=
    db.lastSequence executionId + writer.countP (·.aggregateId == executionId)
  outbox := db.outbox ++ writer
  committed := db.committed ++ writer.map (·.key)

/-! ### Publishers -/

/-- Where a publisher is. -/
inductive Phase
  | heads | followers | publishing | ended
  deriving DecidableEq, Repr

/-- A `publish_batch` in progress: the rows its current query has still to lock,
the rows it has locked, those it has still to publish, the new versions of those it
has handled, and the Executions a failure has blocked. -/
structure Publisher where
  now : Time := 0
  phase : Phase := .ended
  candidates : List OutboxRow := []
  events : List OutboxRow := []
  queue : List OutboxRow := []
  changes : List OutboxRow := []
  blocked : List UUID := []

/-- The row may be published now. -/
def OutboxRow.available (row : OutboxRow) (now : Time) : Bool :=
  row.status == .pending && decide (row.availableAt ≤ now)

/-- No earlier event of the Execution is pending. -/
def Database.isHead (db : Database) (row : OutboxRow) : Bool :=
  !db.outbox.any fun earlier => earlier.aggregateId == row.aggregateId &&
    decide (earlier.eventSequence < row.eventSequence) && earlier.status == .pending

/-- The first query of `publish_batch`. -/
def Database.headRows (db : Database) (now : Time) : List OutboxRow :=
  (db.outbox.filter fun row => row.available now && db.isHead row).mergeSort
    fun a b => decide (a.createdAt ≤ b.createdAt)

/-- No earlier pending event, other than a head, waits for a later time. -/
def Database.follows (db : Database) (now : Time) (heads : List EventKey) (row : OutboxRow) :
    Bool :=
  !db.outbox.any fun earlier => earlier.aggregateId == row.aggregateId &&
    earlier.status == .pending && decide (earlier.eventSequence < row.eventSequence) &&
    !heads.contains earlier.key && decide (now < earlier.availableAt)

/-- The query of `_append_contiguous_execution_events`. -/
def Database.followerRows (db : Database) (now : Time) (events : List OutboxRow) :
    List OutboxRow :=
  (db.outbox.filter fun row => row.available now &&
    (events.any fun head => head.aggregateId == row.aggregateId) &&
    !(events.map (·.key)).contains row.key && db.follows now (events.map (·.key)) row).mergeSort
      fun a b => decide (a.aggregateId < b.aggregateId ∨
        a.aggregateId = b.aggregateId ∧ a.eventSequence ≤ b.eventSequence)

/-- What became of one event: published; refused by an exception that concerns it alone; or the
deadline passed or Redis gave an error, which ends the batch.  Redis may have appended an
event although the caller sees an exception. -/
inductive Delivery
  | published
  | refused (appended : Bool)
  | failed (appended : Bool)
  deriving DecidableEq, Repr

/-- The stream has the event. -/
def Delivery.appends : Delivery → Bool
  | .published => true
  | .refused appended => appended
  | .failed appended => appended

/-- Seconds until a failed event is tried again. -/
def retryDelay (attemptCount : ℕ) : Time :=
  min (2 ^ min attemptCount 6 : ℕ) (60 : ℤ)

/-- The row after a delivery. -/
def OutboxRow.delivered (row : OutboxRow) (delivery : Delivery) (now : Time) : OutboxRow :=
  match delivery with
  | .published => { row with status := .published, publishedAt := some now }
  | _ => { row with
      attemptCount := row.attemptCount + 1
      availableAt := now + retryDelay (row.attemptCount + 1) }

/-- The next event of the loop; a blocked Execution's is passed over. -/
def Publisher.publishNext (p : Publisher) (delivery : Delivery) (now : Time) : Publisher :=
  match p.queue with
  | [] => p
  | event :: rest =>
    if p.blocked.contains event.aggregateId then { p with queue := rest }
    else { p with
      changes := p.changes ++ [event.delivered delivery now]
      blocked := if delivery = .published then p.blocked
        else p.blocked ++ [event.aggregateId]
      -- A call that failed ends the loop.
      queue := match delivery with
        | .failed _ => []
        | _ => rest }

/-- The event that the next round of the loop sends, if it sends one. -/
def Publisher.sends (p : Publisher) (delivery : Delivery) : Option EventKey :=
  match p.queue with
  | [] => none
  | event :: _ =>
    if p.phase = .publishing ∧ delivery.appends ∧ ¬ p.blocked.contains event.aggregateId then
      some event.key
    else none

/-- The flushed changes, on the committed rows. -/
def Database.commitChanges (db : Database) (changes : List OutboxRow) : Database :=
  { db with outbox := db.outbox.map fun row => (changes.find? (·.key == row.key)).getD row }

/-! ### Interleavings -/

/-- `stream` is every entry ever appended. -/
structure State where
  database : Database := {}
  writers : List Writer := []
  publishers : List Publisher := []
  stream : List EventKey := []

/-- What happens next: a step of a writer or of a publisher. -/
inductive Action
  | begin
  | write (writer : ℕ) (executionId : UUID) (now : Time)
  | commit (writer : ℕ)
  | rollback (writer : ℕ)
  | poll (now : Time)
  | lock (publisher : ℕ)
  | follow (publisher : ℕ)
  | publish (publisher : ℕ)
  | deliver (publisher : ℕ) (delivery : Delivery) (now : Time)
  | finish (publisher : ℕ)
  | crash (publisher : ℕ)
  | deletePublished (cutoff : Time) (limit : ℕ)

/-- Another publisher holds the row. -/
def State.locked (s : State) (publisher : ℕ) (key : EventKey) : Bool :=
  (s.publishers.eraseIdx publisher).any fun p => p.events.any (·.key == key)

/-- Another transaction holds the counter row. -/
def State.counterHeld (s : State) (writer : ℕ) (executionId : UUID) : Bool :=
  (s.writers.eraseIdx writer).any (·.holds executionId)

/-- One candidate of a `FOR UPDATE SKIP LOCKED` query: skipped when it is locked, and
when its current version no longer matches. -/
def State.lockNext (s : State) (batchSize : ℕ) (i : ℕ) (p : Publisher) : Publisher :=
  match p.candidates with
  | [] => p
  | row :: rest =>
    if batchSize ≤ p.events.length then { p with candidates := [] }
    else if s.locked i row.key then { p with candidates := rest }
    else match s.database.outbox.find? (·.key == row.key) with
      | none => { p with candidates := rest }
      | some current =>
        if current.available p.now then
          { p with candidates := rest, events := p.events ++ [current] }
        else { p with candidates := rest }

/-- The published rows that `_delete_published_outbox` selects. -/
def Database.expired (db : Database) (cutoff : Time) (limit : ℕ) : List EventKey :=
  (((db.outbox.filter fun row => row.status == .published &&
    row.publishedAt.any fun at_ => decide (at_ < cutoff)).mergeSort
      fun a b => decide (a.publishedAt.getD 0 ≤ b.publishedAt.getD 0)).take limit).map (·.key)

variable (batchSize : ℕ)

/-- One publisher goes on. -/
def State.updatePublisher (s : State) (i : ℕ) (f : Publisher → Publisher) : State :=
  { s with publishers := s.publishers.modify i f }

/-- One action. -/
def State.step (s : State) : Action → State
  | .begin => { s with writers := s.writers ++ [[]] }
  | .write i executionId now =>
    -- The upsert waits while another transaction holds the counter.
    if s.counterHeld i executionId then s
    else { s with writers := s.writers.modify i fun writer =>
      persistExecutionEvent s.database writer executionId now }
  | .commit i => match s.writers[i]? with
    | some writer => { s with
        database := s.database.commitEvents writer
        writers := s.writers.set i [] }
    | none => s
  | .rollback i => { s with writers := s.writers.modify i fun _ => [] }
  | .poll now => { s with publishers := s.publishers ++ [{
      now := now, phase := .heads, candidates := s.database.headRows now }] }
  | .lock i => s.updatePublisher i fun p =>
      if p.phase = .heads ∨ p.phase = .followers then s.lockNext batchSize i p else p
  | .follow i => s.updatePublisher i fun p =>
      if p.phase = .heads ∧ p.candidates = [] then { p with
        phase := .followers
        candidates := if batchSize ≤ p.events.length then []
          else s.database.followerRows p.now p.events }
      else p
  | .publish i => s.updatePublisher i fun p =>
      if p.phase = .followers ∧ p.candidates = [] then
        { p with phase := .publishing, queue := p.events }
      else p
  | .deliver i delivery now => match s.publishers[i]? with
    | some p =>
      if p.phase = .publishing then { s with
        stream := s.stream ++ (p.sends delivery).toList
        publishers := s.publishers.set i (p.publishNext delivery now) }
      else s
    | none => s
  | .finish i => match s.publishers[i]? with
    | some p =>
      if p.phase = .publishing ∧ p.queue = [] then { s with
        database := s.database.commitChanges p.changes
        publishers := s.publishers.set i {} }
      else s
    | none => s
  | .crash i => s.updatePublisher i fun _ => {}
  | .deletePublished cutoff limit => { s with database := { s.database with
      outbox := s.database.outbox.filter fun row =>
        !(s.database.expired cutoff limit).contains row.key } }

end ExecutorService.Outbox
