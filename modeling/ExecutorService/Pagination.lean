/-
Cursor pagination of the listings (`infrastructure/execution_queries/`).

A page is read with one row more than it shows; the position of the last row shown
becomes the cursor of the next page, and a query with a cursor takes the rows behind it.
For a listing by time of creation the comparison with both columns must be the order of
the rows, for the newest first the reverse one.

* `Listing` — the listings with their filters, `Listing.page` — their queries;
* `Listing.page_of_after` — a page is a page of the keyset;
* `pagination_complete` — following the cursors shows every matching row once, in order,
  and a row that stays in the listing is neither skipped nor repeated.
-/
import ExecutorService.Cursors
import ExecutorService.Keyset
import Mathlib.Data.Prod.Lex

namespace ExecutorService

open Codec (Text)
open Keyset (IsPage After Traversal)

/-! ### Listings -/

/-- The collections that cursors tell apart. -/
inductive Collection
  | executions | steps | operations | operationSteps | attempts | attemptSteps | events | artifacts
  deriving DecidableEq, Repr

/-- The kind that a cursor of the collection names. -/
def Collection.kind : Collection → String
  | executions => "executions"
  | steps => "execution_steps"
  | operations => "execution_operations"
  | operationSteps => "execution_operation_steps"
  | attempts => "execution_attempts"
  | attemptSteps => "execution_step_attempts"
  | events => "execution_events"
  | artifacts => "execution_artifacts"

/-- A collection with the filter of a request. -/
inductive Listing
  | executions (filter : Database.ExecutionFilter) (userId tenantId : Option String)
  | steps (executionId : UUID)
  | operations (executionId : UUID)
  | operationSteps (executionId operationId : UUID)
  | attempts (executionId : UUID)
  | attemptSteps (executionId attemptId : UUID)
  | events (executionId : UUID) (afterSequence : ℕ)
  | artifacts (executionId : UUID)

namespace Listing

/-- The collection of a listing. -/
def collection : Listing → Collection
  | executions .. => .executions
  | steps _ => .steps
  | operations _ => .operations
  | operationSteps .. => .operationSteps
  | attempts _ => .attempts
  | attemptSteps .. => .attemptSteps
  | events .. => .events
  | artifacts _ => .artifacts

/-- What a listing returns. -/
def View : Listing → Type
  | executions .. => ExecutionSummaryView
  | steps _ | operationSteps .. => ExecutionStep
  | operations _ => ExecutionOperationView
  | attempts _ => ExecutionAttemptView
  | attemptSteps .. => StepAttemptRow
  | events .. => ExecutionEventView
  | artifacts _ => ExecutionArtifactView

end Listing

/-- The order of a listing: one or two columns. -/
abbrev Position := ℤ ×ₗ ℤ

namespace Listing

/-- The columns that a listing is ordered by; those of the newest first are negated. -/
def key : (l : Listing) → l.View → Position
  | executions .. => fun (v : ExecutionSummaryView) => toLex (-v.createdAt, -(v.id : ℤ))
  | steps _ => fun (s : ExecutionStep) => toLex ((s.sequence : ℤ), 0)
  | operations _ => fun (o : ExecutionOperationView) => toLex ((o.operationNumber : ℤ), 0)
  | operationSteps .. => fun (s : ExecutionStep) => toLex ((s.sequence : ℤ), 0)
  | attempts _ => fun (a : ExecutionAttemptView) => toLex ((a.attemptNumber : ℤ), 0)
  | attemptSteps .. => fun (s : StepAttemptRow) => toLex ((s.sequence : ℤ), 0)
  | events .. => fun (v : ExecutionEventView) => toLex ((v.event.eventSequence : ℤ), 0)
  | artifacts _ => fun (a : ExecutionArtifactView) => toLex (a.createdAt, (a.id : ℤ))

/-- Where a listing starts: `after_sequence` of the events. -/
def start : Listing → Option Position
  | events _ afterSequence => some (toLex ((afterSequence : ℤ), 0))
  | _ => none

variable (d : Database)

/-- The rows of a listing. -/
def rows : (l : Listing) → List l.View
  | executions filter userId tenantId => (d.records.filter (filter.selects userId tenantId)).map
      fun r => executionSummaryView r r.tables.steps.length
  | steps executionId => (d.record? executionId).elim [] fun r => r.tables.steps
  | operations executionId => (d.record? executionId).elim [] fun r =>
      r.tables.operations.map (operationView executionId)
  | operationSteps executionId operationId => (d.record? executionId).elim [] fun r =>
      r.tables.steps.filter (·.operationId == operationId)
  | attempts executionId => (d.record? executionId).elim [] fun r =>
      r.tables.attempts.map fun a => attemptView executionId a (d.stepAttemptsOf a.id).length
  | attemptSteps _ attemptId => d.stepAttemptsOf attemptId
  | events executionId _ => (d.record? executionId).elim [] fun r => r.log.events.map fun event =>
      ⟨event, r.log.outbox.find? (·.eventSequence == event.eventSequence)⟩
  | artifacts executionId => (d.record? executionId).elim [] fun r =>
      r.artifacts.map (artifactView executionId)

/-- The rows that match the filter. -/
def matching (l : Listing) : List l.View :=
  (l.rows d).filter fun x => After l.start (l.key x)

/-- The Execution, and the Operation or the Attempt, that the request names exists. -/
def Found : Listing → Prop
  | executions .. => True
  | steps executionId | operations executionId | attempts executionId | events executionId _
  | artifacts executionId => ∃ r, d.record? executionId = some r
  | operationSteps executionId operationId => ∃ o, d.operation executionId operationId = .ok o
  | attemptSteps executionId attemptId => ∃ a, d.attempt executionId attemptId = .ok a

end Listing

/-! ### Pages -/

section

variable {F : Type} (py : Codec.Python F)

/-- A cursor as a listing of this kind reads it. -/
def Cursor.readTime (kind : String) (cursor : Text) : Cursor :=
  match decodeTimeCursor py cursor kind with
  | .ok (createdAt, id) => .time kind createdAt id
  | .error e => .invalid e.message

/-- A cursor by number, from its text. -/
def Cursor.readInteger (kind : String) (cursor : Text) : Cursor :=
  match decodeIntegerCursor py cursor kind with
  | .ok value => .integer kind value
  | .error e => .invalid e.message

/-- The text of a cursor. -/
def Cursor.text : Cursor → Text
  | .time kind createdAt id => encodeTimeCursor py kind createdAt id
  | .integer kind value => encodeIntegerCursor py kind value
  | .invalid _ => []

/-- The response of a listing: its items and the text of `next_cursor`. -/
def Page.response {α : Type} (p : Page α) : List α × Option Text :=
  (p.items, p.nextCursor.map (·.text py))

/-- The query of a listing. -/
def Listing.page (d : Database) (cursor : Option Text) (limit : ℕ) :
    (l : Listing) → Except ApiError (List l.View × Option Text)
  | executions filter userId tenantId => Page.response py <$>
      d.executions filter userId tenantId (cursor.map (.readTime py "executions")) limit
  | steps executionId => Page.response py <$>
      d.steps executionId (cursor.map (.readInteger py "execution_steps")) limit
  | operations executionId => Page.response py <$>
      d.operations executionId (cursor.map (.readInteger py "execution_operations")) limit
  | operationSteps executionId operationId => Page.response py <$>
      d.operationSteps executionId operationId
        (cursor.map (.readInteger py "execution_operation_steps")) limit
  | attempts executionId => Page.response py <$>
      d.attempts executionId (cursor.map (.readInteger py "execution_attempts")) limit
  | attemptSteps executionId attemptId => Page.response py <$>
      d.attemptSteps executionId attemptId
        (cursor.map (.readInteger py "execution_step_attempts")) limit
  | events executionId afterSequence => Page.response py <$>
      d.events executionId afterSequence (cursor.map (.readInteger py "execution_events")) limit
  | artifacts executionId => Page.response py <$>
      d.artifacts executionId (cursor.map (.readTime py "execution_artifacts")) limit

/-- The position that a listing reads from a cursor. -/
def Listing.decode (l : Listing) (cursor : Text) : Except ApiError Position :=
  match l with
  | executions .. => (decodeTimeCursor py cursor "executions").map fun p =>
      toLex (-p.1, -(p.2 : ℤ))
  | artifacts _ => (decodeTimeCursor py cursor "execution_artifacts").map fun p =>
      toLex (p.1, (p.2 : ℤ))
  | l => (decodeIntegerCursor py cursor l.collection.kind).map fun (value : ℕ) =>
      toLex ((value : ℤ), 0)

/-- The position that a page starts behind. -/
def Listing.after (l : Listing) : Option Text → Except ApiError (Option Position)
  | none => .ok l.start
  | some cursor => (l.decode py cursor).map some

/-- The cursor of a row. -/
def Listing.position : (l : Listing) → l.View → Cursor
  | executions .. => fun (v : ExecutionSummaryView) => .time "executions" v.createdAt v.id
  | artifacts _ => fun (a : ExecutionArtifactView) => .time "execution_artifacts" a.createdAt a.id
  | steps _ => fun (s : ExecutionStep) => .integer "execution_steps" s.sequence
  | operations _ => fun (o : ExecutionOperationView) =>
      .integer "execution_operations" o.operationNumber
  | operationSteps .. => fun (s : ExecutionStep) =>
      .integer "execution_operation_steps" s.sequence
  | attempts _ => fun (a : ExecutionAttemptView) => .integer "execution_attempts" a.attemptNumber
  | attemptSteps .. => fun (s : StepAttemptRow) => .integer "execution_step_attempts" s.sequence
  | events .. => fun (v : ExecutionEventView) => .integer "execution_events" v.event.eventSequence

/-- The pages that follow a cursor until `next_cursor` is null, each on the tables as they
are then. -/
inductive Listing.Pages (l : Listing) (limit : ℕ) :
    Option Text → List Database → List (List l.View) → Prop
  | last {cursor : Option Text} {d : Database} {items : List l.View}
      (page : l.page py d cursor limit = .ok (items, none)) : Pages l limit cursor [d] [items]
  | more {cursor : Option Text} {d : Database} {items : List l.View} {next : Text}
      {ds : List Database} {pages : List (List l.View)}
      (page : l.page py d cursor limit = .ok (items, some next))
      (rest : Pages l limit (some next) ds pages) :
      Pages l limit cursor (d :: ds) (items :: pages)

/-! ### A query answers with a page -/

/-- The result is a page of the rows behind a position, with the cursor of its last row; if
there is no position it is an error. -/
def PageAnswer {β : Type} (key : β → Position) (position : β → Cursor) (limit : ℕ) (rows : List β)
    (after : Except ApiError (Option Position))
    (result : Except ApiError (List β × Option Text)) : Prop :=
  match after with
  | .error _ => ∃ e, result = .error e
  | .ok after => ∃ (items : List β) (next : Option β), result = .ok (items, next.map fun x => (position x).text py) ∧
      IsPage key limit after rows items (next.map key) ∧ ∀ x ∈ next, items.getLast? = some x

variable {α β : Type} {view : α → β} {key : β → Position} {position : β → Cursor} {rows : List α}
  {after : Option Position} {limit : ℕ}

variable (position rows limit after) in
/-- Rows selected and sorted as the key says. -/
theorem Page.of_pageAnswer {r : α → α → Prop} [DecidableRel r] {p : α → Bool}
    (hr : ∀ a b, r a b ↔ key (view a) ≤ key (view b))
    (hp : ∀ a, p a = true ↔ After after (key (view a))) :
    PageAnswer py key position limit (rows.map view) (.ok after) (.ok (Page.response py
      (Page.of limit (fun a => position (view a)) view ((rows.filter p).insertionSort r)))) := by
  have : Std.Total r := ⟨fun a b => by rw [hr, hr]; exact le_total _ _⟩
  have : IsTrans α r := ⟨fun a b c hab hbc => by
    rw [hr] at hab hbc ⊢
    exact hab.trans hbc⟩
  generalize hsorted : (rows.filter p).insertionSort r = sorted
  have hperm : sorted.Perm (rows.filter p) := hsorted ▸ List.perm_insertionSort r _
  have hpairwise : sorted.Pairwise r := hsorted ▸ List.pairwise_insertionSort r _
  have htake : (sorted.take (limit + 1)).take limit = sorted.take limit := by
    rw [List.take_take, min_eq_left (Nat.le_succ limit)]
  have hlength : (sorted.take (limit + 1)).length > limit ↔ limit < sorted.length := by
    rw [List.length_take]
    omega
  refine ⟨(sorted.take limit).map view,
    if limit < sorted.length then ((sorted.take limit).map view).getLast? else none, ?_, ?_, ?_⟩
  · simp only [Page.response, Page.of, htake, hlength]
    by_cases hlt : limit < sorted.length
    · simp only [if_pos hlt, List.getLast?_map, Option.map_map]
      rfl
    · simp only [if_neg hlt, Option.map_none]
  · refine ⟨sorted.map view, ?_, ?_, List.map_take.symm ▸ rfl, ?_⟩
    · rw [List.filter_map]
      refine (hperm.map view).trans (List.Perm.of_eq (congrArg (List.map view) ?_))
      exact List.filter_congr fun a _ => Bool.eq_iff_iff.mpr (by simpa using hp a)
    · exact List.pairwise_map.mpr (hpairwise.imp fun h => (hr _ _).mp h)
    · rw [List.length_map]
      split <;> rfl
  · intro x hx
    split at hx
    · exact hx
    · nomatch hx

/-! ### The cursor that a query reads -/

theorem decodeCursor_error {cursor : Text} {kind : String} {e : ApiError}
    (h : decodeCursor py cursor kind = .error e) : e = Cursor.error e.message := by
  unfold decodeCursor at h
  split at h
  · obtain rfl := Except.error.inj h
    rfl
  · split at h
    · obtain rfl := Except.error.inj h
      rfl
    · split at h
      · cases h
      · obtain rfl := Except.error.inj h
        rfl
    · obtain rfl := Except.error.inj h
      rfl

theorem decodeInteger_readInteger (kind : String) (cursor : Text) :
    (Cursor.readInteger py kind cursor).decodeInteger kind = decodeIntegerCursor py cursor kind := by
  unfold Cursor.readInteger
  cases h : decodeIntegerCursor py cursor kind with
  | ok value => exact if_pos rfl
  | error e =>
    have herror : e = Cursor.error e.message := by
      unfold decodeIntegerCursor at h
      cases hdecode : decodeCursor py cursor kind with
      | error e' =>
        rw [hdecode] at h
        obtain rfl := Except.error.inj h
        exact decodeCursor_error py hdecode
      | ok payload =>
        rw [hdecode] at h
        simp only [bind, Except.bind] at h
        split at h
        · split at h
          · cases h
          · obtain rfl := Except.error.inj h
            rfl
        · obtain rfl := Except.error.inj h
          rfl
    exact congrArg Except.error herror.symm

theorem decodeTime_readTime (kind : String) (cursor : Text) :
    (Cursor.readTime py kind cursor).decodeTime kind = decodeTimeCursor py cursor kind := by
  unfold Cursor.readTime
  cases h : decodeTimeCursor py cursor kind with
  | ok p => exact if_pos rfl
  | error e =>
    have herror : e = Cursor.error e.message := by
      unfold decodeTimeCursor at h
      cases hdecode : decodeCursor py cursor kind with
      | error e' =>
        rw [hdecode] at h
        obtain rfl := Except.error.inj h
        exact decodeCursor_error py hdecode
      | ok payload =>
        rw [hdecode] at h
        simp only [bind, Except.bind] at h
        split at h
        · split at h
          · cases h
          · obtain rfl := Except.error.inj h
            rfl
          · obtain rfl := Except.error.inj h
            rfl
        · obtain rfl := Except.error.inj h
          rfl
    exact congrArg Except.error herror.symm

/-- The position that an integer cursor names. -/
def integerAfter (kind : String) (cursor : Option Text) : Except ApiError (Option Position) :=
  match cursor with
  | none => .ok none
  | some cursor => (decodeIntegerCursor py cursor kind).map fun (value : ℕ) =>
      some (toLex ((value : ℤ), 0))

theorem toLex_integer_lt {m n : ℕ} :
    toLex ((m : ℤ), (0 : ℤ)) < toLex ((n : ℤ), (0 : ℤ)) ↔ m < n := by
  rw [Prod.Lex.toLex_lt_toLex]
  simp

theorem toLex_integer_le {m n : ℕ} :
    toLex ((m : ℤ), (0 : ℤ)) ≤ toLex ((n : ℤ), (0 : ℤ)) ↔ m ≤ n := by
  rw [Prod.Lex.toLex_le_toLex]
  simp
  omega

theorem integerPage_answer {kind : String} {column : α → ℕ}
    (hkey : ∀ a, key (view a) = toLex ((column a : ℤ), 0))
    (hposition : ∀ a, position (view a) = .integer kind (column a)) {shown : List β}
    (hshown : shown = rows.map view) (cursor : Option Text) :
    PageAnswer py key position limit shown (integerAfter py kind cursor)
      (Page.response py <$>
        integerPage kind column view (cursor.map (.readInteger py kind)) limit rows) := by
  subst hshown
  have hof : (fun a => Cursor.integer kind (column a)) = fun a => position (view a) :=
    funext fun a => (hposition a).symm
  have hle : ∀ a b, column a ≤ column b ↔ key (view a) ≤ key (view b) := fun a b => by
    rw [hkey, hkey, toLex_integer_le]
  cases cursor with
  | none =>
    have hall : rows.filter (fun _ => true) = rows := List.filter_eq_self.mpr fun _ _ => rfl
    have hpage := Page.of_pageAnswer py position rows none limit hle
      fun a => iff_of_true rfl (Keyset.after_none _)
    rw [hall, ← hof] at hpage
    exact hpage
  | some cursor =>
    simp only [integerAfter, integerPage, Option.map_some, decodeInteger_readInteger]
    cases decodeIntegerCursor py cursor kind with
    | error e => exact ⟨e, rfl⟩
    | ok value =>
      have hpage := Page.of_pageAnswer py position rows (some (toLex ((value : ℤ), 0))) limit
        (p := fun a => value < column a) hle fun a => by
          rw [Keyset.after_some, hkey, toLex_integer_lt, decide_eq_true_eq]
      rw [← hof] at hpage
      exact hpage

/-- The position that a cursor of a time and an id names, in an order of these columns. -/
def timeAfter (kind : String) (order : Time → UUID → Position) (cursor : Option Text) :
    Except ApiError (Option Position) :=
  match cursor with
  | none => .ok none
  | some cursor => (decodeTimeCursor py cursor kind).map fun p => some (order p.1 p.2)

theorem timePage_answer {kind : String} {createdAt : α → Time} {id : α → UUID}
    (hkey : ∀ a, key (view a) = toLex (createdAt a, (id a : ℤ)))
    (hposition : ∀ a, position (view a) = .time kind (createdAt a) (id a)) {shown : List β}
    (hshown : shown = rows.map view) (cursor : Option Text) :
    PageAnswer py key position limit shown
      (timeAfter py kind (fun t id => toLex (t, (id : ℤ))) cursor)
      (Page.response py <$>
        timePage kind createdAt id view (cursor.map (.readTime py kind)) limit rows) := by
  subst hshown
  have hof : (fun a => Cursor.time kind (createdAt a) (id a)) = fun a => position (view a) :=
    funext fun a => (hposition a).symm
  have hle : ∀ a b, (createdAt a < createdAt b ∨ (createdAt a = createdAt b ∧ id a ≤ id b)) ↔
      key (view a) ≤ key (view b) := fun a b => by
    rw [hkey, hkey, Prod.Lex.toLex_le_toLex, Nat.cast_le]
  cases cursor with
  | none =>
    have hall : rows.filter (fun _ => true) = rows := List.filter_eq_self.mpr fun _ _ => rfl
    have hpage := Page.of_pageAnswer py position rows none limit hle
      fun a => iff_of_true rfl (Keyset.after_none _)
    rw [hall, ← hof] at hpage
    exact hpage
  | some cursor =>
    simp only [timeAfter, timePage, Option.map_some, decodeTime_readTime]
    rcases decodeTimeCursor py cursor kind with e | ⟨time, itemId⟩
    · exact ⟨e, rfl⟩
    · have hpage := Page.of_pageAnswer py position rows (some (toLex (time, (itemId : ℤ)))) limit
        (p := fun a => time < createdAt a || (createdAt a == time && itemId < id a)) hle fun a => by
          rw [Keyset.after_some, hkey, Prod.Lex.toLex_lt_toLex, Nat.cast_lt]
          simp [eq_comm (a := time)]
      rw [← hof] at hpage
      exact hpage

theorem map_some_integer (cursor : Text) (kind : String) :
    ((decodeIntegerCursor py cursor kind).map fun (value : ℕ) =>
      toLex ((value : ℤ), (0 : ℤ))).map some = integerAfter py kind (some cursor) := by
  simp only [integerAfter]
  cases decodeIntegerCursor py cursor kind <;> rfl

end

/-! ### Every query answers with a page of its rows -/

namespace Listing

variable {F : Type} (py : Codec.Python F) {l : Listing} {d : Database}

/-- The query of a listing answers with a page. -/
def Served (d : Database) (cursor : Option Text) (limit : ℕ) (l : Listing) : Prop :=
  PageAnswer py l.key l.position limit (l.rows d) (l.after py cursor) (l.page py d cursor limit)

theorem execution_eq {executionId : UUID} {r : ExecutionRecord}
    (h : d.record? executionId = some r) : d.execution executionId = .ok r := by
  rw [Database.execution, h]

theorem exists_record {executionId : UUID} {r : ExecutionRecord}
    (h : d.execution executionId = .ok r) : d.record? executionId = some r := by
  unfold Database.execution at h
  split at h
  · cases h
  · rename_i r' hr
    rw [hr, Except.ok.inj h]

/-- A listing by one column starts behind its cursor. -/
theorem after_eq_integerAfter (hstart : l.start = none) (hdecode : ∀ cursor, l.decode py cursor =
      (decodeIntegerCursor py cursor l.collection.kind).map fun (value : ℕ) =>
        toLex ((value : ℤ), (0 : ℤ))) (cursor : Option Text) :
    l.after py cursor = integerAfter py l.collection.kind cursor := by
  cases cursor with
  | none => rw [Listing.after, hstart]; rfl
  | some cursor => rw [Listing.after, hdecode, map_some_integer]

theorem steps_served {executionId : UUID} {r : ExecutionRecord}
    (hr : d.record? executionId = some r) (cursor : Option Text) (limit : ℕ) :
    Served py d cursor limit (.steps executionId) := by
  have hrows : rows d (.steps executionId) = r.tables.steps.map fun s => s := by
    rw [List.map_id', rows, hr]
    rfl
  have hpage : page py d cursor limit (.steps executionId) = Page.response py <$>
      integerPage "execution_steps" (·.sequence) (fun s => s)
        (cursor.map (.readInteger py "execution_steps")) limit r.tables.steps := by
    rw [page, Database.steps, execution_eq hr]
    rfl
  rw [Served, after_eq_integerAfter py rfl fun _ => rfl, hpage]
  exact integerPage_answer py (by intro; rfl) (by intro; rfl) hrows cursor

theorem operations_served {executionId : UUID} {r : ExecutionRecord}
    (hr : d.record? executionId = some r) (cursor : Option Text) (limit : ℕ) :
    Served py d cursor limit (.operations executionId) := by
  have hrows : rows d (.operations executionId) =
      r.tables.operations.map (operationView executionId) := by
    rw [rows, hr]
    rfl
  have hpage : page py d cursor limit (.operations executionId) = Page.response py <$>
      integerPage "execution_operations" (·.operationNumber) (operationView executionId)
        (cursor.map (.readInteger py "execution_operations")) limit r.tables.operations := by
    rw [page, Database.operations, execution_eq hr]
    rfl
  rw [Served, after_eq_integerAfter py rfl fun _ => rfl, hpage]
  exact integerPage_answer py (by intro; rfl) (by intro; rfl) hrows cursor

theorem operationSteps_served {executionId operationId : UUID} {r : ExecutionRecord}
    {o : ExecutionOperationView} (hr : d.record? executionId = some r)
    (ho : d.operation executionId operationId = .ok o) (cursor : Option Text) (limit : ℕ) :
    Served py d cursor limit (.operationSteps executionId operationId) := by
  have hrows : rows d (.operationSteps executionId operationId) =
      (r.tables.steps.filter (·.operationId == operationId)).map fun s => s := by
    rw [List.map_id', rows, hr]
    rfl
  have hpage : page py d cursor limit (.operationSteps executionId operationId) =
      Page.response py <$> integerPage "execution_operation_steps" (·.sequence) (fun s => s)
        (cursor.map (.readInteger py "execution_operation_steps")) limit
        (r.tables.steps.filter (·.operationId == operationId)) := by
    rw [page, Database.operationSteps, ho, execution_eq hr]
    rfl
  rw [Served, after_eq_integerAfter py rfl fun _ => rfl, hpage]
  exact integerPage_answer py (by intro; rfl) (by intro; rfl) hrows cursor

theorem attempts_served {executionId : UUID} {r : ExecutionRecord}
    (hr : d.record? executionId = some r) (cursor : Option Text) (limit : ℕ) :
    Served py d cursor limit (.attempts executionId) := by
  have hrows : rows d (.attempts executionId) = r.tables.attempts.map fun a =>
      attemptView executionId a (d.stepAttemptsOf a.id).length := by
    rw [rows, hr]
    rfl
  have hpage : page py d cursor limit (.attempts executionId) = Page.response py <$>
      integerPage "execution_attempts" (·.attemptNumber)
        (fun a => attemptView executionId a (d.stepAttemptsOf a.id).length)
        (cursor.map (.readInteger py "execution_attempts")) limit r.tables.attempts := by
    rw [page, Database.attempts, execution_eq hr]
    rfl
  rw [Served, after_eq_integerAfter py rfl fun _ => rfl, hpage]
  exact integerPage_answer py (by intro; rfl) (by intro; rfl) hrows cursor

theorem attemptSteps_served {executionId attemptId : UUID} {a : ExecutionAttemptView}
    (ha : d.attempt executionId attemptId = .ok a) (cursor : Option Text) (limit : ℕ) :
    Served py d cursor limit (.attemptSteps executionId attemptId) := by
  have hrows : rows d (.attemptSteps executionId attemptId) =
      (d.stepAttemptsOf attemptId).map fun s => s := by
    rw [List.map_id', rows]
  have hpage : page py d cursor limit (.attemptSteps executionId attemptId) =
      Page.response py <$> integerPage "execution_step_attempts" (·.sequence) (fun s => s)
        (cursor.map (.readInteger py "execution_step_attempts")) limit
        (d.stepAttemptsOf attemptId) := by
    rw [page, Database.attemptSteps, ha]
    rfl
  rw [Served, after_eq_integerAfter py rfl fun _ => rfl, hpage]
  exact integerPage_answer py (by intro; rfl) (by intro; rfl) hrows cursor

theorem artifacts_served {executionId : UUID} {r : ExecutionRecord}
    (hr : d.record? executionId = some r) (cursor : Option Text) (limit : ℕ) :
    Served py d cursor limit (.artifacts executionId) := by
  have hrows : rows d (.artifacts executionId) = r.artifacts.map (artifactView executionId) := by
    rw [rows, hr]
    rfl
  have hpage : page py d cursor limit (.artifacts executionId) = Page.response py <$>
      timePage "execution_artifacts" (·.createdAt) (·.id) (artifactView executionId)
        (cursor.map (.readTime py "execution_artifacts")) limit r.artifacts := by
    rw [page, Database.artifacts, execution_eq hr]
    rfl
  have hafter : after py (.artifacts executionId) cursor =
      timeAfter py "execution_artifacts" (fun t id => toLex (t, (id : ℤ))) cursor := by
    cases cursor with
    | none => rfl
    | some cursor =>
      rw [after, decode, timeAfter]
      cases decodeTimeCursor py cursor "execution_artifacts" <;> rfl
  rw [Served, hafter, hpage]
  exact timePage_answer py (by intro; rfl) (by intro; rfl) hrows cursor

theorem executions_served (filter : Database.ExecutionFilter) (userId tenantId : Option String)
    (cursor : Option Text) (limit : ℕ) :
    Served py d cursor limit (.executions filter userId tenantId) := by
  -- The rows are sorted against both columns, as the negated ones say.
  have hle : ∀ a b : ExecutionRecord, (b.tables.execution.createdAt < a.tables.execution.createdAt ∨
      (a.tables.execution.createdAt = b.tables.execution.createdAt ∧ b.id ≤ a.id)) ↔
      key (.executions filter userId tenantId) (executionSummaryView a a.tables.steps.length) ≤
        key (.executions filter userId tenantId) (executionSummaryView b b.tables.steps.length) := by
    intro a b
    refine Iff.trans ?_ Prod.Lex.toLex_le_toLex.symm
    refine or_congr neg_lt_neg_iff.symm (and_congr neg_inj.symm ?_)
    exact (neg_le_neg_iff.trans Nat.cast_le).symm
  cases cursor with
  | none =>
    have hall : (d.records.filter (filter.selects userId tenantId)).filter (fun _ => true) =
        d.records.filter (filter.selects userId tenantId) :=
      List.filter_eq_self.mpr fun _ _ => rfl
    have hpage := Page.of_pageAnswer py (position (.executions filter userId tenantId))
      (d.records.filter (filter.selects userId tenantId)) none limit hle
      fun a => iff_of_true rfl (Keyset.after_none _)
    rw [hall] at hpage
    exact hpage
  | some cursor =>
    unfold Served page Database.executions
    simp only [after, decode, Option.map_some, decodeTime_readTime]
    rcases decodeTimeCursor py cursor "executions" with e | ⟨time, itemId⟩
    · exact ⟨e, rfl⟩
    · refine Page.of_pageAnswer py (position (.executions filter userId tenantId))
        (d.records.filter (filter.selects userId tenantId))
        (some (toLex (-time, -(itemId : ℤ)))) limit
        (p := fun r => r.tables.execution.createdAt < time ||
          (r.tables.execution.createdAt == time && r.id < itemId)) hle fun a => ?_
      rw [Keyset.after_some]
      refine Iff.trans ?_ Prod.Lex.toLex_lt_toLex.symm
      simp only [Bool.or_eq_true, Bool.and_eq_true, decide_eq_true_eq, beq_iff_eq]
      refine or_congr neg_lt_neg_iff.symm (and_congr (eq_comm.trans neg_inj.symm) ?_)
      exact (neg_lt_neg_iff.trans Nat.cast_lt).symm

theorem events_served {executionId : UUID} {r : ExecutionRecord}
    (hr : d.record? executionId = some r) (afterSequence : ℕ) (cursor : Option Text) (limit : ℕ) :
    Served py d cursor limit (.events executionId afterSequence) := by
  have hrows : rows d (.events executionId afterSequence) = r.log.events.map fun event =>
      (⟨event, r.log.outbox.find? (·.eventSequence == event.eventSequence)⟩ :
        ExecutionEventView) := by
    rw [rows, hr]
    rfl
  have hpage : ∀ value : ℕ, PageAnswer py (key (.events executionId afterSequence))
      (position (.events executionId afterSequence)) limit
      (rows d (.events executionId afterSequence)) (.ok (some (toLex ((value : ℤ), 0))))
      (.ok (Page.response py (Page.of limit
        (fun event => .integer "execution_events" event.eventSequence)
        (fun event => (⟨event, r.log.outbox.find? (·.eventSequence == event.eventSequence)⟩ :
          ExecutionEventView))
        ((r.log.events.filter (value < ·.eventSequence)).insertionSort fun a b =>
          a.eventSequence ≤ b.eventSequence)))) := by
    intro value
    rw [hrows]
    refine Page.of_pageAnswer py _ _ _ _ (fun a b => toLex_integer_le.symm) fun a => ?_
    rw [Keyset.after_some, decide_eq_true_eq]
    exact toLex_integer_lt.symm
  rw [Served, page, Database.events, execution_eq hr]
  cases cursor with
  | none => exact hpage afterSequence
  | some cursor =>
    simp only [after, decode, collection, Collection.kind, Option.map_some]
    rw [map_some_integer, integerAfter]
    simp only [bind, Except.bind, decodeInteger_readInteger]
    cases decodeIntegerCursor py cursor "execution_events" with
    | error e => exact ⟨e, rfl⟩
    | ok value => exact hpage value

theorem exists_of_operation {executionId operationId : UUID} {o : ExecutionOperationView}
    (h : d.operation executionId operationId = .ok o) : ∃ r, d.record? executionId = some r := by
  unfold Database.operation at h
  cases hr : d.execution executionId with
  | error e =>
    rw [hr] at h
    cases h
  | ok r => exact ⟨r, exists_record hr⟩

theorem served (hfound : l.Found d) (cursor : Option Text) (limit : ℕ) :
    Served py d cursor limit l := by
  cases l with
  | executions filter userId tenantId => exact executions_served py filter userId tenantId cursor limit
  | steps => exact steps_served py hfound.choose_spec cursor limit
  | operations => exact operations_served py hfound.choose_spec cursor limit
  | operationSteps =>
    obtain ⟨o, ho⟩ := hfound
    obtain ⟨r, hr⟩ := exists_of_operation ho
    exact operationSteps_served py hr ho cursor limit
  | attempts => exact attempts_served py hfound.choose_spec cursor limit
  | attemptSteps => exact attemptSteps_served py hfound.choose_spec cursor limit
  | events _ afterSequence => exact events_served py hfound.choose_spec afterSequence cursor limit
  | artifacts => exact artifacts_served py hfound.choose_spec cursor limit

theorem bind_ok {α β : Type} {x : Except ApiError α} {f : α → Except ApiError β} {b : β}
    (h : x >>= f = .ok b) : ∃ a, x = .ok a ∧ f a = .ok b := by
  cases x with
  | error e => cases h
  | ok a => exact ⟨a, rfl, h⟩

theorem map_ok {α β : Type} {f : α → β} {x : Except ApiError α} {b : β}
    (h : f <$> x = .ok b) : ∃ a, x = .ok a := by
  cases x with
  | error e => cases h
  | ok a => exact ⟨a, rfl⟩

/-- A query that answers has found what it names. -/
theorem found_of_page {cursor : Option Text} {limit : ℕ} {response : List l.View × Option Text}
    (h : l.page py d cursor limit = .ok response) : l.Found d := by
  have hrecord : ∀ {executionId : UUID} {β : Type} {f : ExecutionRecord → Except ApiError β},
      (∃ b, d.execution executionId >>= f = .ok b) → ∃ r, d.record? executionId = some r := by
    rintro executionId β f ⟨b, hb⟩
    obtain ⟨r, hr, _⟩ := bind_ok hb
    exact ⟨r, exists_record hr⟩
  cases l with
  | executions => trivial
  | steps | operations | attempts | events | artifacts => exact hrecord (map_ok h)
  | operationSteps =>
    obtain ⟨b, hb⟩ := map_ok h
    obtain ⟨o, ho, _⟩ := bind_ok hb
    exact ⟨o, ho⟩
  | attemptSteps =>
    obtain ⟨b, hb⟩ := map_ok h
    obtain ⟨a, ha, _⟩ := bind_ok hb
    exact ⟨a, ha⟩

/-- What an answer shows, and the cursor it ends with. -/
theorem isPage_of_page {cursor next : Option Text} {limit : ℕ} {items : List l.View}
    (h : l.page py d cursor limit = .ok (items, next)) : ∃ after, ∃ row : Option l.View,
      l.after py cursor = .ok after ∧ next = row.map (fun x => (l.position x).text py) ∧
      IsPage l.key limit after (l.rows d) items (row.map l.key) ∧
      ∀ x ∈ row, items.getLast? = some x := by
  have hserved := served py (found_of_page py h) cursor limit
  unfold Served PageAnswer at hserved
  cases hafter : l.after py cursor with
  | error e =>
    rw [hafter] at hserved
    obtain ⟨e', he'⟩ := hserved
    rw [h] at he'
    cases he'
  | ok after =>
    rw [hafter] at hserved
    obtain ⟨items', row, hpage, hisPage, hlast⟩ := hserved
    rw [h, Except.ok.injEq, Prod.mk.injEq] at hpage
    obtain ⟨rfl, rfl⟩ := hpage
    exact ⟨after, row, rfl, rfl, hisPage, hlast⟩

end Listing

/-! ### Stored rows -/

/-- A database with the unique constraints of the schema, and columns within their
types. -/
structure ListedState extends Database where
  idsUnique : (records.map (·.id)).Nodup
  stepsUnique : ∀ r ∈ records, (r.tables.steps.map (·.sequence)).Nodup
  operationsUnique : ∀ r ∈ records, (r.tables.operations.map (·.operationNumber)).Nodup
  attemptsUnique : ∀ r ∈ records, (r.tables.attempts.map (·.attemptNumber)).Nodup
  stepAttemptsUnique : ∀ attemptId,
    ((toDatabase.stepAttemptsOf attemptId).map (·.sequence)).Nodup
  eventsUnique : ∀ r ∈ records, (r.log.events.map (·.eventSequence)).Nodup
  artifactsUnique : ∀ r ∈ records, (r.artifacts.map (·.id)).Nodup
  executionTyped : ∀ r ∈ records, IsTimePosition r.tables.execution.createdAt r.id
  artifactTyped : ∀ r ∈ records, ∀ a ∈ r.artifacts, IsTimePosition a.createdAt a.id
  stepTyped : ∀ r ∈ records, ∀ s ∈ r.tables.steps, s.sequence < 2 ^ 63
  operationTyped : ∀ r ∈ records, ∀ o ∈ r.tables.operations, o.operationNumber < 2 ^ 63
  attemptTyped : ∀ r ∈ records, ∀ a ∈ r.tables.attempts, a.attemptNumber < 2 ^ 63
  stepAttemptTyped : ∀ r ∈ records, ∀ s ∈ r.tables.stepAttempts, s.sequence < 2 ^ 63
  eventTyped : ∀ r ∈ records, ∀ e ∈ r.log.events, e.eventSequence < 2 ^ 63

namespace Listing

variable {F : Type} (py : Codec.Python F) {l : Listing} {d : ListedState}

theorem mem_records {executionId : UUID} {r : ExecutionRecord}
    (h : d.record? executionId = some r) : r ∈ d.records :=
  List.mem_of_find?_eq_some h

/-- The rows of one record that a listing shows. -/
theorem nodup_elim {α β : Type} {executionId : UUID} {f : ExecutionRecord → List α} {g : α → β}
    (h : ∀ r ∈ d.records, ((f r).map g).Nodup) :
    (((d.record? executionId).elim [] f).map g).Nodup := by
  cases hr : d.record? executionId with
  | none => exact List.nodup_nil
  | some r => exact h r (mem_records hr)

/-- A column of the position is unique, so the position is. -/
theorem nodup_of_column {α β γ : Type} {view : α → β} {key : β → Position} {column : α → γ}
    (proj : Position → γ) (hproj : ∀ a, proj (key (view a)) = column a) {rows : List α}
    (h : (rows.map column).Nodup) : ((rows.map view).map key).Nodup := by
  refine List.Nodup.of_map proj ?_
  rw [List.map_map, List.map_map]
  exact (List.map_congr_left fun a _ => hproj a) ▸ h

theorem nodup_of_column' {α γ : Type} {key : α → Position} {column : α → γ}
    (proj : Position → γ) (hproj : ∀ a, proj (key a) = column a) {rows : List α}
    (h : (rows.map column).Nodup) : (rows.map key).Nodup := by
  have hview := @nodup_of_column α α γ (fun a => a) key column proj hproj rows h
  rwa [List.map_id'] at hview

/-- No two rows of a listing have one position. -/
theorem rows_nodup (d : ListedState) (l : Listing) : ((l.rows d.toDatabase).map l.key).Nodup := by
  cases l with
  | executions filter userId tenantId =>
    refine nodup_of_column (fun p => (-(ofLex p).2).toNat) (fun r => ?_) (d.idsUnique.sublist
      ((List.filter_sublist (p := filter.selects userId tenantId)).map (·.id)))
    change (- -(r.id : ℤ)).toNat = r.id
    omega
  | steps => exact nodup_elim fun r hr =>
      nodup_of_column' (fun p => (ofLex p).1.toNat) (fun _ => rfl) (d.stepsUnique r hr)
  | operations => exact nodup_elim fun r hr =>
      nodup_of_column (fun p => (ofLex p).1.toNat) (fun _ => rfl) (d.operationsUnique r hr)
  | operationSteps =>
    exact nodup_elim fun r hr => nodup_of_column' (fun p => (ofLex p).1.toNat) (fun _ => rfl)
      ((d.stepsUnique r hr).sublist (List.filter_sublist.map _))
  | attempts => exact nodup_elim fun r hr =>
      nodup_of_column (fun p => (ofLex p).1.toNat) (fun _ => rfl) (d.attemptsUnique r hr)
  | attemptSteps executionId attemptId =>
    exact nodup_of_column' (fun p => (ofLex p).1.toNat) (fun _ => rfl)
      (d.stepAttemptsUnique attemptId)
  | events => exact nodup_elim fun r hr =>
      nodup_of_column (fun p => (ofLex p).1.toNat) (fun _ => rfl) (d.eventsUnique r hr)
  | artifacts => exact nodup_elim fun r hr =>
      nodup_of_column (fun p => (ofLex p).2.toNat) (fun _ => rfl) (d.artifactsUnique r hr)

/-! ### The cursor of a row -/

end Listing

/-- The columns that a cursor names are within their types. -/
def Cursor.Typed : Cursor → Prop
  | .time _ createdAt id => IsTimePosition createdAt id
  | .integer _ value => value < 2 ^ 63
  | .invalid _ => False

/-- The kind that a cursor names. -/
def Cursor.kind : Cursor → String
  | .time kind .. | .integer kind _ => kind
  | .invalid _ => ""

namespace Listing

variable {F : Type} (py : Codec.Python F) {l : Listing} {d : ListedState}

theorem position_kind (l : Listing) (x : l.View) : (l.position x).kind = l.collection.kind := by
  cases l <;> rfl

theorem mem_elim {α : Type} {executionId : UUID} {f : ExecutionRecord → List α} {x : α}
    (h : x ∈ (d.record? executionId).elim [] f) : ∃ r ∈ d.records, x ∈ f r := by
  cases hr : d.record? executionId with
  | none =>
    rw [hr] at h
    nomatch h
  | some r =>
    rw [hr] at h
    exact ⟨r, mem_records hr, h⟩

theorem position_typed {x : l.View} (h : x ∈ l.rows d.toDatabase) : (l.position x).Typed := by
  cases l with
  | executions filter userId tenantId =>
    obtain ⟨r, hr, rfl⟩ := List.mem_map.mp h
    exact d.executionTyped r (List.mem_of_mem_filter hr)
  | steps =>
    obtain ⟨r, hr, hx⟩ := mem_elim h
    exact d.stepTyped r hr x hx
  | operations =>
    obtain ⟨r, hr, hx⟩ := mem_elim h
    obtain ⟨o, ho, rfl⟩ := List.mem_map.mp hx
    exact d.operationTyped r hr o ho
  | operationSteps =>
    obtain ⟨r, hr, hx⟩ := mem_elim h
    exact d.stepTyped r hr x (List.mem_of_mem_filter hx)
  | attempts =>
    obtain ⟨r, hr, hx⟩ := mem_elim h
    obtain ⟨a, ha, rfl⟩ := List.mem_map.mp hx
    exact d.attemptTyped r hr a ha
  | attemptSteps executionId attemptId =>
    obtain ⟨r, hr, hx⟩ := List.mem_flatMap.mp h
    exact d.stepAttemptTyped r hr x (List.mem_of_mem_filter hx)
  | events =>
    obtain ⟨r, hr, hx⟩ := mem_elim h
    obtain ⟨e, he, rfl⟩ := List.mem_map.mp hx
    exact d.eventTyped r hr e he
  | artifacts =>
    obtain ⟨r, hr, hx⟩ := mem_elim h
    obtain ⟨a, ha, rfl⟩ := List.mem_map.mp hx
    exact d.artifactTyped r hr a ha

theorem kind_short (c : Collection) : c.kind.toList.length ≤ 32 := by
  cases c <;> decide

theorem kind_injective {c c' : Collection} (h : c.kind = c'.kind) : c = c' := by
  cases c <;> cases c' <;> first | rfl | exact absurd h (by decide)

/-- The cursor of a row is read as its position. -/
theorem decode_position {x : l.View} (h : (l.position x).Typed) :
    l.decode py ((l.position x).text py) = .ok (l.key x) := by
  have htime : ∀ (c : Collection) (order : Time × UUID → Position) {t : Time} {id : UUID},
      IsTimePosition t id → (decodeTimeCursor py (encodeTimeCursor py c.kind t id) c.kind).map order =
        .ok (order (t, id)) := fun c order t id ht => by
    rw [decodeTimeCursor_encode py (kind_short _) ht, if_pos rfl]
    rfl
  have hinteger : ∀ {l' : Listing} {value : ℕ}, (∀ cursor, l'.decode py cursor =
      (decodeIntegerCursor py cursor l'.collection.kind).map fun (value : ℕ) =>
        toLex ((value : ℤ), (0 : ℤ))) → value < 2 ^ 63 →
      l'.decode py (encodeIntegerCursor py l'.collection.kind value) =
        .ok (toLex ((value : ℤ), 0)) := fun hdecode hvalue => by
    rw [hdecode, decodeIntegerCursor_encode py (kind_short _) hvalue, if_pos rfl]
    rfl
  cases l with
  | executions =>
    rw [decode]
    exact htime .executions (fun p => toLex (-p.1, -(p.2 : ℤ))) h
  | artifacts =>
    rw [decode]
    exact htime .artifacts (fun p => toLex (p.1, (p.2 : ℤ))) h
  | _ => exact hinteger (fun _ => rfl) h

/-- A listing of another collection rejects it. -/
theorem decode_foreign {x : l.View} (h : (l.position x).Typed) {l' : Listing}
    (hne : l'.collection ≠ l.collection) :
    l'.decode py ((l.position x).text py) = .error Cursor.wrongKind := by
  have hkind : (l.position x).kind ≠ l'.collection.kind := fun heq =>
    hne (kind_injective (heq.symm.trans (position_kind l x)))
  have hshort : (l.position x).kind.toList.length ≤ 32 := position_kind l x ▸ kind_short _
  have hreject : decodeTimeCursor py ((l.position x).text py) l'.collection.kind =
      .error Cursor.wrongKind ∧ decodeIntegerCursor py ((l.position x).text py)
      l'.collection.kind = .error Cursor.wrongKind := by
    generalize l.position x = c at h hkind hshort
    cases c with
    | time kind t id =>
      exact ⟨(decodeTimeCursor_encode py hshort h).trans (if_neg hkind),
        decodeIntegerCursor_time py hshort hkind⟩
    | integer kind value =>
      exact ⟨decodeTimeCursor_integer py hshort h hkind,
        (decodeIntegerCursor_encode py hshort h).trans (if_neg hkind)⟩
    | invalid => exact h.elim
  cases l' with
  | executions | artifacts => exact congrArg (Except.map _) hreject.1
  | _ => exact congrArg (Except.map _) hreject.2

/-- A query with a cursor it cannot read fails. -/
theorem page_error {d : Database} {cursor : Text} {e : ApiError} (h : l.decode py cursor = .error e)
    (limit : ℕ) : ∃ e', l.page py d (some cursor) limit = .error e' := by
  cases hpage : l.page py d (some cursor) limit with
  | error e' => exact ⟨e', rfl⟩
  | ok response =>
    obtain ⟨_, _, hafter, _⟩ := isPage_of_page py hpage
    rw [after, h] at hafter
    cases hafter

/-! ### Following the cursors -/

/-- The cursor of a page leads to the position of its last row. -/
theorem after_next {cursor : Option Text} {limit : ℕ} {items : List l.View} {next : Text}
    (h : l.page py d.toDatabase cursor limit = .ok (items, some next)) : ∃ after, ∃ x : l.View,
      l.after py cursor = .ok after ∧ next = (l.position x).text py ∧ items.getLast? = some x ∧
      (l.position x).Typed ∧ l.after py (some next) = .ok (some (l.key x)) ∧
      IsPage l.key limit after (l.rows d.toDatabase) items (some (l.key x)) := by
  obtain ⟨start, row, hafter, hnext, hpage, hlast⟩ := isPage_of_page py h
  cases row with
  | none => cases hnext
  | some x =>
    rw [Option.map_some, Option.some.injEq] at hnext
    have hx := hlast x rfl
    have htyped := position_typed (hpage.mem (List.mem_of_getLast? hx)).1
    refine ⟨start, x, hafter, hnext, hx, htyped, ?_, hpage⟩
    rw [after, hnext, decode_position py htyped]
    rfl

/-- The pages of a listing are those of a traversal of its rows. -/
theorem Pages.traversal {limit : ℕ} {cursor : Option Text} {start : Option Position}
    {ds : List ListedState} {pages : List (List l.View)}
    (h : l.Pages py limit cursor (ds.map (·.toDatabase)) pages)
    (hstart : l.after py cursor = .ok start) :
    Traversal l.key limit start (ds.map fun d => l.rows d.toDatabase) pages.flatten := by
  generalize hds : ds.map (·.toDatabase) = databases at h
  induction h generalizing ds start with
  | last page =>
    obtain ⟨d, rfl, rfl⟩ := List.map_eq_singleton_iff.mp hds
    obtain ⟨after, row, hafter, hnext, hpage, _⟩ := isPage_of_page py page
    obtain rfl := Except.ok.inj (hafter.symm.trans hstart)
    rw [eq_comm, Option.map_eq_none_iff] at hnext
    subst hnext
    rw [List.flatten_singleton]
    exact .last hpage
  | more page rest ih =>
    obtain ⟨d, ds, rfl, rfl, rfl⟩ := List.map_eq_cons_iff.mp hds
    obtain ⟨after, x, hafter, _, _, _, hnext, hpage⟩ := after_next py page
    obtain rfl := Except.ok.inj (hafter.symm.trans hstart)
    rw [List.flatten_cons]
    exact .more hpage (ih hnext rfl)

/-- On a database that does not change the pages end. -/
theorem exists_pages (limit : ℕ) (hfound : l.Found d.toDatabase) {cursor : Option Text}
    {start : Option Position} (hstart : l.after py cursor = .ok start) :
    ∃ n pages, l.Pages py limit cursor ((List.replicate n d).map (·.toDatabase)) pages := by
  induction hleft : ((l.rows d.toDatabase).filter fun x => After start (l.key x)).length
    using Nat.strong_induction_on generalizing cursor start with
  | _ left ih =>
    have hserved := served py hfound cursor limit
    unfold Served PageAnswer at hserved
    rw [hstart] at hserved
    obtain ⟨items, row, hpage, hisPage, _⟩ := hserved
    cases row with
    | none => exact ⟨1, [items], .last hpage⟩
    | some x =>
      rw [Option.map_some] at hpage
      obtain ⟨start', y, hstart', _, _, _, hnext, hleads⟩ := after_next py hpage
      obtain rfl := Except.ok.inj (hstart'.symm.trans hstart)
      obtain ⟨n, pages, hpages⟩ := ih _ (hleft ▸ hleads.left_lt) hnext rfl
      refine ⟨n + 1, items :: pages, ?_⟩
      rw [List.replicate_succ, List.map_cons]
      exact .more hpage hpages

end Listing

/-- Following the cursors from the first page to the last shows every matching row once,
in the order of the listing.  On a database that does not change the pages end; on one
that changes between the pages no row is shown twice, and one that matches throughout is
shown.  A cursor is read as the position of the last row shown, and every other
collection rejects it. -/
theorem pagination_complete {F : Type} (py : Codec.Python F) (l : Listing) (limit : ℕ)
    (hlimit : 1 ≤ limit) :
    (∀ d : ListedState, l.Found d.toDatabase →
      (∃ n pages, l.Pages py limit none (List.replicate n d.toDatabase) pages) ∧
      ∀ n pages, l.Pages py limit none (List.replicate n d.toDatabase) pages →
        pages.flatten.Perm (l.matching d.toDatabase) ∧
          pages.flatten.Pairwise (l.key · < l.key ·)) ∧
    (∀ (ds : List ListedState) pages, l.Pages py limit none (ds.map (·.toDatabase)) pages →
      pages.flatten.Pairwise (l.key · < l.key ·) ∧
      (∀ x ∈ pages.flatten, ∃ d ∈ ds, x ∈ l.matching d.toDatabase) ∧
      ∀ k, (∀ d ∈ ds, ∃ x ∈ l.matching d.toDatabase, l.key x = k) →
        ∃ x ∈ pages.flatten, l.key x = k) ∧
    ∀ (d : ListedState) cursor items next,
      l.page py d.toDatabase cursor limit = .ok (items, some next) →
      (∃ x, items.getLast? = some x ∧ l.decode py next = .ok (l.key x)) ∧
      ∀ l' : Listing, l'.collection ≠ l.collection →
        l'.decode py next = .error Cursor.wrongKind ∧
        ∀ d' limit', ∃ e, l'.page py d' (some next) limit' = .error e := by
  have hmatching : ∀ (d : Database) x, x ∈ l.matching d ↔ x ∈ l.rows d ∧ After l.start (l.key x) :=
    fun d x => by rw [Listing.matching, List.mem_filter, decide_eq_true_eq]
  have hnodup : ∀ {ds : List ListedState}, ∀ rows ∈ ds.map fun d => l.rows d.toDatabase,
      (rows.map l.key).Nodup := by
    intro ds rows hrows
    obtain ⟨d, _, rfl⟩ := List.mem_map.mp hrows
    exact Listing.rows_nodup d l
  -- A fixed state, changing states, and what a cursor decodes to.
  refine ⟨fun d hfound => ⟨?_, fun n pages h => ?_⟩, fun ds pages h => ?_, ?_⟩
  · obtain ⟨n, pages, hpages⟩ := @Listing.exists_pages _ py l d limit hfound none _ rfl
    rw [List.map_replicate] at hpages
    exact ⟨n, pages, hpages⟩
  · -- A fixed state is the traversal of a constant list of states.
    have hmap : List.replicate n d.toDatabase = (List.replicate n d).map (·.toDatabase) :=
      List.map_replicate.symm
    rw [hmap] at h
    have htraversal := Listing.Pages.traversal py h rfl
    have hsorted := htraversal.sorted hnodup
    rw [List.map_replicate] at htraversal
    exact ⟨htraversal.perm_of_fixed hlimit (Listing.rows_nodup d l), hsorted⟩
  · -- In general each page holds what lies behind its cursor in the state it saw.
    have htraversal := Listing.Pages.traversal py h rfl
    refine ⟨htraversal.sorted hnodup, fun x hx => ?_, fun k hk => ?_⟩
    · obtain ⟨⟨rows, hrows, hmem⟩, hafter⟩ := htraversal.mem hx
      obtain ⟨d, hd, rfl⟩ := List.mem_map.mp hrows
      exact ⟨d, hd, (hmatching _ _).mpr ⟨hmem, hafter⟩⟩
    · refine htraversal.complete hlimit hnodup ?_ fun rows hrows => ?_
      · -- There is a first page, on a database that has the row.
        obtain ⟨d, hd⟩ : ∃ d, d ∈ ds := by
          cases ds with
          | nil => nomatch h
          | cons d ds => exact ⟨d, List.mem_cons_self⟩
        obtain ⟨x, hx, rfl⟩ := hk d hd
        exact ((hmatching _ _).mp hx).2
      · obtain ⟨d, hd, rfl⟩ := List.mem_map.mp hrows
        obtain ⟨x, hx, hkey⟩ := hk d hd
        exact ⟨x, ((hmatching _ _).mp hx).1, hkey⟩
  · -- The cursor is the position of the last item, and its kind is that of the listing.
    intro d cursor items next h
    obtain ⟨_, x, _, rfl, hlast, htyped, _, _⟩ := Listing.after_next py h
    refine ⟨⟨x, hlast, Listing.decode_position py htyped⟩, fun l' hne => ?_⟩
    have hforeign := Listing.decode_foreign py htyped hne
    exact ⟨hforeign, fun d' limit' => Listing.page_error py hforeign limit'⟩

/-! ### A small database -/

namespace Small

/-- A report of an Execution. -/
def artifact (id : UUID) : ExecutionArtifact where
  id := id
  artifactType := .report
  storageType := .pv
  status := .available
  name := "report.md"
  relativePath := some "w/report.md"
  mediaType := none
  sizeBytes := none
  checksumSha256 := none
  identityHash := id
  createdAt := 0

/-- Two Artifacts of one creation time. -/
def listedState : ListedState where
  records := [{
    tenantId := "tenant-a", userId := "user-a", tables := (submission .single).tables
    artifacts := [artifact 51, artifact 50] }]
  idsUnique := List.nodup_singleton _
  stepsUnique := by decide
  operationsUnique := by decide
  attemptsUnique := by decide
  stepAttemptsUnique _ := List.nodup_nil
  eventsUnique := by decide
  artifactsUnique := by decide
  executionTyped := by
    simp only [List.mem_singleton, forall_eq]
    exact ⟨by decide, by decide, by decide⟩
  artifactTyped := by
    simp only [forall_eq, List.mem_cons, List.not_mem_nil, or_false, forall_eq_or_imp]
    exact ⟨⟨by decide, by decide, by decide⟩, ⟨by decide, by decide, by decide⟩⟩
  stepTyped := by decide
  operationTyped := by decide
  attemptTyped := by decide
  stepAttemptTyped := by decide
  eventTyped := by decide

theorem pagination_complete_artifacts :
    1 ≤ 1 ∧ ((Listing.artifacts 1).matching listedState.toDatabase).length = 2 ∧
      ∀ n pages, (Listing.artifacts 1).Pages Codec.Small.python 1 none
          (List.replicate n listedState.toDatabase) pages →
        pages.flatten.Perm ((Listing.artifacts 1).matching listedState.toDatabase) ∧
          pages.flatten.Pairwise
            ((Listing.artifacts 1).key · < (Listing.artifacts 1).key ·) :=
  ⟨le_rfl, rfl, ((pagination_complete Codec.Small.python (.artifacts 1) 1 le_rfl).1 listedState
    ⟨_, rfl⟩).2⟩

end Small

end ExecutorService
