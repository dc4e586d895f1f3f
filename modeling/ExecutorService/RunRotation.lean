/-
The rotation of waiting runs (`execution_worker/work_admission.py`).

A pass takes the oldest waiting runs after a cursor, as many as it has free slots, and moves
the cursor to the last of them; a page that is not full resets it.  The slots and the
Executions change between two passes.  `created_at` is written with the row and never again.

* `nextRuns` — one call of `_next_runs`;
* `IsCycle` — the calls from one reset of the cursor to the next;
* `next_runs_rotate` — what a cycle takes, and that it ends.
-/
import ExecutorService.Keyset
import ExecutorService.Rows
import Mathlib.Data.Prod.Lex

namespace ExecutorService

/-! ### Waiting runs -/

/-- The `executions` table at some time. -/
structure ExecutionTable (createdAt : UUID → Time) where
  rows : List ExecutionRow
  unique : (rows.map (·.id)).Nodup
  created : ∀ r ∈ rows, r.createdAt = createdAt r.id

/-- The order of the rotation: by time, then by id. -/
abbrev RunPosition := Time ×ₗ UUID

/-- Where an Execution stands in the order. -/
def ExecutionRow.runPosition (r : ExecutionRow) : RunPosition :=
  toLex (r.createdAt, r.id)

/-- The Execution waits for a Worker. -/
def ExecutionRow.isWaitingRun (r : ExecutionRow) : Bool :=
  r.status == .queued || r.status == .finalizing

variable {createdAt : UUID → Time}

/-- The Executions that wait for a Worker. -/
def ExecutionTable.waiting (t : ExecutionTable createdAt) : List ExecutionRow :=
  t.rows.filter (·.isWaitingRun)

/-- `_next_runs`: the rows it takes, and the cursor it leaves. -/
def nextRows (limit : ℕ) (cursor : Option RunPosition) (t : ExecutionTable createdAt) :
    List ExecutionRow :=
  ((t.waiting.filter fun r => Keyset.After cursor r.runPosition).insertionSort
    fun r r' => r.runPosition ≤ r'.runPosition).take limit

/-- `_next_runs`. -/
def nextRuns (limit : ℤ) (cursor : Option RunPosition) (t : ExecutionTable createdAt) :
    List UUID × Option RunPosition :=
  if limit ≤ 0 then ([], cursor)
  else
    let rows := nextRows limit.toNat cursor t
    (rows.map (·.id),
      if rows.length = limit.toNat then rows.getLast?.map (·.runPosition) else none)

/-! ### Cycles -/

/-- A call with its limit and the table it reads. -/
abbrev RunCall (createdAt : UUID → Time) := ℤ × ExecutionTable createdAt

/-- The Executions that successive calls take. -/
def rotate : Option RunPosition → List (RunCall createdAt) → List UUID
  | _, [] => []
  | cursor, (limit, t) :: calls =>
    (nextRuns limit cursor t).1 ++ rotate (nextRuns limit cursor t).2 calls

/-- A call that had slots and reached the end. -/
def Resets (cursor : Option RunPosition) (call : RunCall createdAt) : Prop :=
  0 < call.1 ∧ (nextRuns call.1 cursor call.2).2 = none

instance (cursor : Option RunPosition) (call : RunCall createdAt) : Decidable (Resets cursor call) :=
  inferInstanceAs (Decidable (_ ∧ _))

/-- Calls of which the last one resets the cursor, and no other. -/
def IsCycle : Option RunPosition → List (RunCall createdAt) → Prop
  | _, [] => False
  | cursor, [call] => Resets cursor call
  | cursor, call :: calls => ¬ Resets cursor call ∧ IsCycle (nextRuns call.1 cursor call.2).2 calls

instance decidableIsCycle : ∀ (cursor : Option RunPosition) (calls : List (RunCall createdAt)),
    Decidable (IsCycle cursor calls)
  | _, [] => .isFalse id
  | cursor, [call] => inferInstanceAs (Decidable (Resets cursor call))
  | cursor, call :: call' :: calls =>
    have := decidableIsCycle (nextRuns call.1 cursor call.2).2 (call' :: calls)
    inferInstanceAs (Decidable (_ ∧ _))

/-- The Execution waits for a run. -/
def ExecutionTable.Waits (t : ExecutionTable createdAt) (executionId : UUID) : Prop :=
  ∃ r ∈ t.waiting, r.id = executionId

/-! ### One call -/

theorem isWindow_nextRows (limit : ℕ) (cursor : Option RunPosition) (t : ExecutionTable createdAt) :
    Keyset.IsWindow ExecutionRow.runPosition limit cursor t.waiting (nextRows limit cursor t) := by
  have htotal : Std.Total fun r r' : ExecutionRow => r.runPosition ≤ r'.runPosition :=
    ⟨fun r r' => le_total r.runPosition r'.runPosition⟩
  have htrans : IsTrans ExecutionRow fun r r' => r.runPosition ≤ r'.runPosition :=
    ⟨fun _ _ _ h h' => le_trans h h'⟩
  exact ⟨_, List.perm_insertionSort _ _, List.pairwise_insertionSort _ _, rfl⟩

theorem ExecutionTable.runPosition_eq (t : ExecutionTable createdAt) {r : ExecutionRow}
    (hr : r ∈ t.waiting) : r.runPosition = toLex (createdAt r.id, r.id) := by
  rw [ExecutionRow.runPosition, t.created r (List.mem_of_mem_filter hr)]

/-- No two rows of a table are at one position. -/
theorem ExecutionTable.nodup_positions (t : ExecutionTable createdAt) :
    (t.waiting.map ExecutionRow.runPosition).Nodup := by
  have hids : (t.waiting.map (·.id)).Nodup := t.unique.sublist (List.filter_sublist.map _)
  refine List.Nodup.of_map (fun p : RunPosition => (ofLex p).2) ?_
  rwa [List.map_map]

theorem nextRuns_of_nonpos {limit : ℤ} (h : limit ≤ 0) (cursor : Option RunPosition)
    (t : ExecutionTable createdAt) : nextRuns limit cursor t = ([], cursor) :=
  if_pos h

theorem nextRuns_of_pos {limit : ℤ} (h : 0 < limit) (cursor : Option RunPosition)
    (t : ExecutionTable createdAt) :
    nextRuns limit cursor t = ((nextRows limit.toNat cursor t).map (·.id),
      if (nextRows limit.toNat cursor t).length = limit.toNat then
        (nextRows limit.toNat cursor t).getLast?.map (·.runPosition) else none) :=
  if_neg (not_le.mpr h)

theorem length_nextRows (limit : ℕ) (cursor : Option RunPosition) (t : ExecutionTable createdAt) :
    (nextRows limit cursor t).length ≤ limit :=
  List.length_take_le _ _

/-- A call with slots resets the cursor exactly if its page is not full. -/
theorem resets_iff {cursor : Option RunPosition} {call : RunCall createdAt} (h : 0 < call.1) :
    Resets cursor call ↔ (nextRows call.1.toNat cursor call.2).length < call.1.toNat := by
  have hle := length_nextRows call.1.toNat cursor call.2
  rw [Resets, nextRuns_of_pos h]
  simp only [h, true_and]
  split
  · rename_i hfull
    rw [Option.map_eq_none_iff, List.getLast?_eq_none_iff, ← List.length_eq_zero_iff]
    omega
  · rename_i hshort
    exact iff_of_true rfl (by omega)

/-- A full page moves the cursor to its last row. -/
theorem exists_last_of_full {limit : ℤ} (h : 0 < limit) {cursor : Option RunPosition}
    {t : ExecutionTable createdAt} (hfull : ¬ (nextRows limit.toNat cursor t).length < limit.toNat) :
    ∃ y, (nextRows limit.toNat cursor t).getLast? = some y ∧
      (nextRuns limit cursor t).2 = some y.runPosition := by
  have hle := length_nextRows limit.toNat cursor t
  have hlength : (nextRows limit.toNat cursor t).length = limit.toNat := by omega
  have hne : nextRows limit.toNat cursor t ≠ [] := by
    rw [ne_eq, ← List.length_eq_zero_iff]
    omega
  refine ⟨_, List.getLast?_eq_some_getLast hne, ?_⟩
  rw [nextRuns_of_pos h, if_pos hlength, List.getLast?_eq_some_getLast hne]
  rfl

/-! ### Whole cycles -/

/-- The windows of the calls that had slots. -/
def windows (calls : List (RunCall createdAt)) : List (ℕ × List ExecutionRow) :=
  (calls.filter fun call => 0 < call.1).map fun call => (call.1.toNat, call.2.waiting)

theorem windows_cons_pos {call : RunCall createdAt} (h : 0 < call.1)
    (calls : List (RunCall createdAt)) :
    windows (call :: calls) = (call.1.toNat, call.2.waiting) :: windows calls := by
  rw [windows, List.filter_cons_of_pos (by simpa using h)]
  rfl

theorem windows_cons_nonpos {call : RunCall createdAt} (h : ¬ 0 < call.1)
    (calls : List (RunCall createdAt)) : windows (call :: calls) = windows calls := by
  rw [windows, List.filter_cons_of_neg (by simpa using h)]
  rfl

/-- A cycle is a rotation through the tables of its calls. -/
theorem IsCycle.rotation {cursor : Option RunPosition} {calls : List (RunCall createdAt)}
    (h : IsCycle cursor calls) : ∃ items,
      Keyset.Rotation ExecutionRow.runPosition cursor (windows calls) items ∧
        rotate cursor calls = items.map (·.id) := by
  induction calls generalizing cursor with
  | nil => cases h
  | cons call calls ih =>
    obtain ⟨limit, t⟩ := call
    by_cases hpos : 0 < limit
    · rw [windows_cons_pos hpos]
      by_cases hshort : (nextRows limit.toNat cursor t).length < limit.toNat
      · -- The cursor is reset, so this is the last call.
        have hresets : Resets cursor (limit, t) := (resets_iff hpos).mpr hshort
        have hnil : calls = [] := by
          cases calls with
          | nil => rfl
          | cons call' calls => exact absurd hresets h.1
        subst hnil
        refine ⟨_, .last (isWindow_nextRows _ cursor t) hshort, ?_⟩
        rw [rotate, rotate, List.append_nil, nextRuns_of_pos hpos]
      · obtain ⟨y, hy, hcursor⟩ := exists_last_of_full hpos hshort
        have hrest : IsCycle (nextRuns limit cursor t).2 calls := by
          cases calls with
          | nil => exact absurd ((resets_iff hpos).mp h) hshort
          | cons call' calls => exact h.2
        rw [hcursor] at hrest
        obtain ⟨items, hitems, hrotate⟩ := ih hrest
        refine ⟨_, .more (isWindow_nextRows _ cursor t) hy hitems, ?_⟩
        rw [rotate, hcursor, hrotate, nextRuns_of_pos hpos, List.map_append]
    · have hnext := nextRuns_of_nonpos (not_lt.mp hpos) cursor t
      have hrest : IsCycle cursor calls := by
        cases calls with
        | nil => exact absurd h.1 hpos
        | cons call' calls =>
          have hcalls := h.2
          rwa [hnext] at hcalls
      rw [windows_cons_nonpos hpos, rotate, hnext, List.nil_append]
      exact ih hrest

/-- The position of an Execution that waits does not depend on the table. -/
theorem ExecutionTable.Waits.exists_position {t : ExecutionTable createdAt} {executionId : UUID}
    (h : t.Waits executionId) :
    ∃ r ∈ t.waiting, r.runPosition = toLex (createdAt executionId, executionId) := by
  obtain ⟨r, hr, rfl⟩ := h
  exact ⟨r, hr, t.runPosition_eq hr⟩

/-- The calls from `i` on, over a set of waiting runs that does not change, reach a reset. -/
theorem exists_cycle {limits : ℕ → ℤ} {tables : ℕ → ExecutionTable createdAt}
    (hlimits : ∀ i, 0 < limits i)
    (htables : ∀ i executionId, (tables i).Waits executionId ↔ (tables 0).Waits executionId)
    (left : ℕ) {cursor : Option RunPosition} (i : ℕ)
    (hleft : ((tables 0).waiting.filter fun r => Keyset.After cursor r.runPosition).length ≤ left) :
    ∃ n, IsCycle cursor ((List.range' i n).map fun j => (limits j, tables j)) := by
  induction left generalizing cursor i with
  | zero =>
    refine ⟨1, (resets_iff (hlimits i)).mpr ?_⟩
    rcases Nat.lt_or_ge (nextRows (limits i).toNat cursor (tables i)).length (limits i).toNat
      with hlt | hge
    · exact hlt
    · obtain ⟨y, hy, _⟩ := exists_last_of_full (hlimits i) (not_lt.mpr hge)
      obtain ⟨hmem, hafter⟩ := (isWindow_nextRows _ _ _).mem (List.mem_of_getLast? hy)
      obtain ⟨r, hr, hposition⟩ := ((htables i y.id).mp ⟨y, hmem, rfl⟩).exists_position
      rw [(tables i).runPosition_eq hmem, ← hposition] at hafter
      have hfilter : r ∈ (tables 0).waiting.filter fun r => Keyset.After cursor r.runPosition :=
        List.mem_filter.mpr ⟨hr, decide_eq_true hafter⟩
      rw [List.length_eq_zero_iff.mp (Nat.le_zero.mp hleft)] at hfilter
      cases hfilter
  | succ left ih =>
    by_cases hshort : (nextRows (limits i).toNat cursor (tables i)).length < (limits i).toNat
    · exact ⟨1, (resets_iff (hlimits i)).mpr hshort⟩
    · obtain ⟨y, hy, hcursor⟩ := exists_last_of_full (hlimits i) hshort
      obtain ⟨hmem, hafter⟩ := (isWindow_nextRows _ _ _).mem (List.mem_of_getLast? hy)
      obtain ⟨r, hr, hposition⟩ := ((htables i y.id).mp ⟨y, hmem, rfl⟩).exists_position
      have hsame : y.runPosition = r.runPosition :=
        ((tables i).runPosition_eq hmem).trans hposition.symm
      rw [hsame] at hafter hcursor
      obtain ⟨n, hn⟩ := ih (i + 1)
        (Nat.le_of_lt_succ ((Keyset.length_after_lt hr hafter).trans_le hleft))
      refine ⟨n + 1, ?_⟩
      rw [List.range'_succ, List.map_cons]
      cases hcalls : (List.range' (i + 1) n).map fun j => (limits j, tables j) with
      | nil =>
        rw [hcalls] at hn
        cases hn
      | cons call calls =>
        rw [hcalls, ← hcursor] at hn
        exact ⟨fun hresets => hshort ((resets_iff (hlimits i)).mp hresets), hn⟩

/-- From one reset of the cursor to the next, the runs that are taken increase, so none is taken
twice, and every run that waits all the time is taken; and while the set of waiting runs does
not change, a reset follows. -/
theorem next_runs_rotate (createdAt : UUID → Time) :
    (∀ calls : List (RunCall createdAt), IsCycle none calls →
      (rotate none calls).Pairwise
        (fun a b => toLex (createdAt a, a) < toLex (createdAt b, b)) ∧
      (rotate none calls).Nodup ∧
      ∀ executionId, (∀ call ∈ calls, call.2.Waits executionId) →
        (rotate none calls).count executionId = 1) ∧
    ∀ (limits : ℕ → ℤ) (tables : ℕ → ExecutionTable createdAt), (∀ i, 0 < limits i) →
      (∀ i executionId, (tables i).Waits executionId ↔ (tables 0).Waits executionId) →
      ∃ n, IsCycle none ((List.range n).map fun i => (limits i, tables i)) := by
  constructor
  · intro calls hcycle
    obtain ⟨items, hrotation, hrotate⟩ := hcycle.rotation
    -- Each window is what one call found waiting.
    have htables : ∀ w ∈ windows calls, ∃ call ∈ calls, w.2 = call.2.waiting := by
      intro w hw
      obtain ⟨call, hcall, rfl⟩ := List.mem_map.mp hw
      exact ⟨call, List.mem_of_mem_filter hcall, rfl⟩
    have hnodup : ∀ w ∈ windows calls, (w.2.map ExecutionRow.runPosition).Nodup := by
      intro w hw
      obtain ⟨call, _, heq⟩ := htables w hw
      rw [heq]
      exact call.2.nodup_positions
    -- A row is placed by its creation time and its id, in every table the same.
    have hposition : ∀ r ∈ items, r.runPosition = toLex (createdAt r.id, r.id) := by
      intro r hr
      obtain ⟨⟨w, hw, hmem⟩, _⟩ := hrotation.mem hr
      obtain ⟨call, _, heq⟩ := htables w hw
      exact call.2.runPosition_eq (heq ▸ hmem)
    have hsorted : (rotate none calls).Pairwise
        (fun a b => toLex (createdAt a, a) < toLex (createdAt b, b)) := by
      rw [hrotate, List.pairwise_map]
      refine (hrotation.sorted hnodup).imp_of_mem fun ha hb hlt => ?_
      rwa [← hposition _ ha, ← hposition _ hb]
    have hids : (rotate none calls).Nodup := hsorted.imp fun hlt heq => by
      rw [heq] at hlt
      exact lt_irrefl _ hlt
    refine ⟨hsorted, hids, fun executionId hwaits => ?_⟩
    -- Once by the order, and at least once because the cycle reaches every position.
    refine List.count_eq_one_of_mem hids ?_
    obtain ⟨r, hr, hkey⟩ := hrotation.complete hnodup
      (k := toLex (createdAt executionId, executionId)) (Keyset.after_none _) fun w hw => by
        obtain ⟨call, hcall, heq⟩ := htables w hw
        rw [heq]
        exact (hwaits call hcall).exists_position
    rw [hposition r hr] at hkey
    rw [hrotate, List.mem_map]
    exact ⟨r, hr, congrArg (fun p : RunPosition => (ofLex p).2) hkey⟩
  · intro limits tables hlimits htables
    obtain ⟨n, hn⟩ := exists_cycle hlimits htables _ 0 le_rfl
    exact ⟨n, by rwa [List.range_eq_range']⟩

namespace Small

/-- An Execution that waits for a Worker. -/
def waitingRow (id : UUID) : ExecutionRow where
  id := id
  idempotencyKey := 0
  requestFingerprint := 0
  operationMode := .single
  operationWaitTimeoutSeconds := none
  runtimeType := .jupyter
  runtimePool := .batch
  runtimeProfile := "python"
  createdAt := 0
  updatedAt := 0

/-- Two waiting runs that were created at the same time. -/
def waitingTable : ExecutionTable fun _ => 0 where
  rows := [waitingRow 2, waitingRow 1]
  unique := by decide
  created := by
    intro r hr
    simp only [List.mem_cons, List.not_mem_nil, or_false] at hr
    rcases hr with rfl | rfl <;> rfl

/-- A full page, a pass without slots, and the page that resets the cursor. -/
def waitingCalls : List (RunCall fun _ => 0) :=
  [(2, waitingTable), (0, waitingTable), (1, waitingTable)]

theorem next_runs_rotate_two :
    (rotate none waitingCalls).count 1 = 1 := by
  refine ((next_runs_rotate fun _ => 0).1 waitingCalls ?_).2.2 1 ?_
  · decide +kernel
  · intro call hcall
    have htable : call.2 = waitingTable := by
      simp only [waitingCalls, List.mem_cons, List.not_mem_nil, or_false] at hcall
      rcases hcall with rfl | rfl | rfl <;> rfl
    rw [htable]
    exact ⟨waitingRow 1, List.mem_cons_of_mem _ (List.mem_singleton_self _), rfl⟩

end Small

end ExecutorService
