/-
Keyset pagination.

A reader of a table asks for the rows after a key, in the order of their keys, and one
more row than fits on a page: that row only says whether another page follows.  The next
page starts after the last key shown.  Other writers may change the table between two
pages, so a traversal is over a list of tables, one for each page.

* `Keyset.IsWindow` — the rows after a key, up to a number of them;
* `Keyset.IsPage` — what one page shows;
* `Keyset.Traversal` — the pages from a key to the last one;
* `IsPage.left_lt` — on a table that does not change a traversal ends;
* `Traversal.sorted`, `Traversal.complete` — no key is shown twice, and a key that stays
  in the table is shown;
* `Keyset.Rotation` — the same for a reader that goes on after each full window.
-/
import Mathlib.Data.List.Sort
import Mathlib.Order.Lattice

namespace Keyset

variable {α K : Type*} [LinearOrder K]

/-- The key lies after the position. -/
def After (after : Option K) (k : K) : Prop :=
  ∀ a ∈ after, a < k

instance (after : Option K) : DecidablePred (After after) :=
  fun k => inferInstanceAs (Decidable (∀ a ∈ after, a < k))

theorem after_none (k : K) : After none k :=
  fun _ h => nomatch h

@[simp] theorem after_some {a k : K} : After (some a) k ↔ a < k := by
  simp [After]

theorem After.trans {after : Option K} {k k' : K} (h : After after k) (hlt : k < k') :
    After after k' :=
  fun a ha => (h a ha).trans hlt

/-- The first `limit` rows after a position. -/
structure IsWindow (key : α → K) (limit : ℕ) (after : Option K) (rows items : List α) : Prop where
  exists_sorted : ∃ sorted : List α, sorted.Perm (rows.filter fun x => After after (key x)) ∧
    sorted.Pairwise (key · ≤ key ·) ∧ items = sorted.take limit

/-- The rows of a page and the position of the next one: `sorted` are the rows after the
position, of which the first `limit` are shown. -/
structure IsPage (key : α → K) (limit : ℕ) (after : Option K) (rows : List α) (items : List α)
    (next : Option K) : Prop where
  exists_sorted : ∃ sorted : List α, sorted.Perm (rows.filter fun x => After after (key x)) ∧
    sorted.Pairwise (key · ≤ key ·) ∧ items = sorted.take limit ∧
    next = if limit < sorted.length then items.getLast?.map key else none

/-- The pages from a position to the last one, each on the table as it is then. -/
inductive Traversal (key : α → K) (limit : ℕ) : Option K → List (List α) → List α → Prop
  | last {after : Option K} {rows items : List α} (page : IsPage key limit after rows items none) :
      Traversal key limit after [rows] items
  | more {after : Option K} {rows items rest : List α} {tables : List (List α)} {k : K}
      (page : IsPage key limit after rows items (some k))
      (next : Traversal key limit (some k) tables rest) :
      Traversal key limit after (rows :: tables) (items ++ rest)

section

variable {key : α → K} {limit : ℕ} {after next : Option K} {rows items : List α}
  {tables : List (List α)}

/-! ### One window -/

/-- Fewer rows are left after a row that was. -/
theorem length_after_lt {x : α} (hx : x ∈ rows) (hafter : After after (key x)) :
    (rows.filter fun y => After (some (key x)) (key y)).length <
      (rows.filter fun y => After after (key y)).length := by
  have hfilter : (rows.filter fun y => After (some (key x)) (key y)) =
      (rows.filter fun y => After after (key y)).filter fun y => key x < key y := by
    rw [List.filter_filter]
    refine List.filter_congr fun y _ => ?_
    simp only [after_some, ← Bool.decide_and, decide_eq_decide]
    exact ⟨fun hlt => ⟨hlt, hafter.trans hlt⟩, And.left⟩
  rw [hfilter]
  exact List.length_filter_lt_length_iff_exists.mpr
    ⟨x, List.mem_filter.mpr ⟨hx, by simpa using hafter⟩, by simp⟩

namespace IsWindow

theorem mem (h : IsWindow key limit after rows items) {x : α} (hx : x ∈ items) :
    x ∈ rows ∧ After after (key x) := by
  obtain ⟨sorted, hperm, _, rfl⟩ := h.exists_sorted
  simpa using hperm.mem_iff.mp (List.mem_of_mem_take hx)

/-- A window that is not full shows every row after its position. -/
theorem mem_of_short (h : IsWindow key limit after rows items) (hshort : items.length < limit)
    {x : α} (hx : x ∈ rows) (hafter : After after (key x)) : x ∈ items := by
  obtain ⟨sorted, hperm, _, rfl⟩ := h.exists_sorted
  rw [List.take_of_length_le (by rw [List.length_take] at hshort; omega)]
  exact hperm.mem_iff.mpr (List.mem_filter.mpr ⟨hx, by simpa using hafter⟩)

/-- A window shows the rows up to its last one. -/
theorem mem_of_le (h : IsWindow key limit after rows items) {y : α} (hy : items.getLast? = some y)
    (hnodup : (rows.map key).Nodup) {x : α} (hx : x ∈ rows) (hafter : After after (key x))
    (hle : key x ≤ key y) : x ∈ items := by
  obtain ⟨sorted, hperm, hsorted, rfl⟩ := h.exists_sorted
  have hmem : x ∈ sorted :=
    hperm.mem_iff.mpr (List.mem_filter.mpr ⟨hx, by simpa using hafter⟩)
  by_contra hnot
  -- The row would come after the last one shown, with a key that is not larger.
  have hdrop : x ∈ sorted.drop limit := by
    rw [← List.take_append_drop limit sorted, List.mem_append] at hmem
    exact hmem.resolve_left hnot
  have hytake := List.mem_of_getLast? hy
  have hge : key y ≤ key x := by
    rw [← List.take_append_drop limit sorted, List.pairwise_append] at hsorted
    exact hsorted.2.2 y hytake x hdrop
  have hyrows := (List.mem_filter.mp (hperm.mem_iff.mp (List.mem_of_mem_take hytake))).1
  have heq : y = x := List.inj_on_of_nodup_map hnodup hyrows hx (le_antisymm hge hle)
  exact hnot (heq ▸ hytake)

theorem le_last (h : IsWindow key limit after rows items) {x y : α}
    (hy : items.getLast? = some y) (hx : x ∈ items) : key x ≤ key y := by
  obtain ⟨sorted, _, hsorted, rfl⟩ := h.exists_sorted
  have hlast := hsorted.sublist (List.take_sublist limit sorted)
  obtain ⟨init, hinit⟩ := List.getLast?_eq_some_iff.mp hy
  rw [hinit, List.mem_append, List.mem_singleton] at hx
  rcases hx with hx | rfl
  · rw [hinit, List.pairwise_append] at hlast
    exact hlast.2.2 x hx y (List.mem_singleton_self y)
  · exact le_rfl

/-- A window that shows a row takes it off those that are left. -/
theorem left_lt (h : IsWindow key limit after rows items) {x : α} (hx : x ∈ items) :
    (rows.filter fun y => After (some (key x)) (key y)).length <
      (rows.filter fun y => After after (key y)).length :=
  length_after_lt (h.mem hx).1 (h.mem hx).2

theorem sorted (h : IsWindow key limit after rows items) (hnodup : (rows.map key).Nodup) :
    items.Pairwise (key · < key ·) := by
  obtain ⟨sorted, hperm, hsorted, rfl⟩ := h.exists_sorted
  have hkeys : (sorted.map key).Nodup :=
    (hperm.map key).nodup_iff.mpr (hnodup.sublist (List.filter_sublist.map key))
  have hne : sorted.Pairwise (key · ≠ key ·) := List.pairwise_map.mp hkeys
  exact ((hsorted.and hne).imp fun h => lt_of_le_of_ne h.1 h.2).sublist (List.take_sublist _ _)

end IsWindow

/-! ### One page -/

namespace IsPage

theorem isWindow (h : IsPage key limit after rows items next) :
    IsWindow key limit after rows items := by
  obtain ⟨sorted, hperm, hsorted, hitems, _⟩ := h.exists_sorted
  exact ⟨sorted, hperm, hsorted, hitems⟩

theorem mem (h : IsPage key limit after rows items next) {x : α} (hx : x ∈ items) :
    x ∈ rows ∧ After after (key x) :=
  h.isWindow.mem hx

/-- A page without a successor shows every row after its position. -/
theorem mem_of_last (hlimit : 1 ≤ limit) (h : IsPage key limit after rows items none) {x : α}
    (hx : x ∈ rows) (hafter : After after (key x)) : x ∈ items := by
  obtain ⟨sorted, hperm, _, rfl, hnext⟩ := h.exists_sorted
  have hlast : ¬ limit < sorted.length := by
    intro hlt
    rw [if_pos hlt, eq_comm, Option.map_eq_none_iff, List.getLast?_eq_none_iff,
      List.take_eq_nil_iff] at hnext
    rcases hnext with hzero | rfl
    · omega
    · exact absurd hlt (by simp)
  rw [List.take_of_length_le (not_lt.mp hlast)]
  exact hperm.mem_iff.mpr (List.mem_filter.mpr ⟨hx, by simpa using hafter⟩)

theorem exists_getLast (h : IsPage key limit after rows items next) {k : K} (hk : next = some k) :
    ∃ x, items.getLast? = some x ∧ key x = k ∧ limit < rows.length := by
  obtain ⟨sorted, hperm, _, rfl, rfl⟩ := h.exists_sorted
  by_cases hlt : limit < sorted.length
  · rw [if_pos hlt, Option.map_eq_some_iff] at hk
    obtain ⟨x, hx, hkey⟩ := hk
    refine ⟨x, hx, hkey, hlt.trans_le ?_⟩
    rw [hperm.length_eq]
    exact List.length_filter_le _ _
  · rw [if_neg hlt] at hk
    cases hk

/-- The next page starts behind the position of this one. -/
theorem after_next {k : K} (h : IsPage key limit after rows items (some k)) :
    After after k := by
  obtain ⟨x, hx, rfl, _⟩ := h.exists_getLast rfl
  exact (h.mem (List.mem_of_getLast? hx)).2

/-- Where another page follows, this one shows the rows up to the next position. -/
theorem mem_of_le {k : K} (h : IsPage key limit after rows items (some k))
    (hnodup : (rows.map key).Nodup) {x : α} (hx : x ∈ rows) (hafter : After after (key x))
    (hle : key x ≤ k) : x ∈ items := by
  obtain ⟨y, hy, rfl, _⟩ := h.exists_getLast rfl
  exact h.isWindow.mem_of_le hy hnodup hx hafter hle

/-- No key of a later page is one of this page. -/
theorem le_next {k : K} (h : IsPage key limit after rows items (some k)) {x : α}
    (hx : x ∈ items) : key x ≤ k := by
  obtain ⟨y, hy, rfl, _⟩ := h.exists_getLast rfl
  exact h.isWindow.le_last hy hx

/-- A page takes at least one row off those that are left. -/
theorem left_lt {k : K} (h : IsPage key limit after rows items (some k)) :
    (rows.filter fun x => After (some k) (key x)).length <
      (rows.filter fun x => After after (key x)).length := by
  obtain ⟨x, hx, rfl, _⟩ := h.exists_getLast rfl
  exact h.isWindow.left_lt (List.mem_of_getLast? hx)

theorem sorted (h : IsPage key limit after rows items next) (hnodup : (rows.map key).Nodup) :
    items.Pairwise (key · < key ·) :=
  h.isWindow.sorted hnodup

end IsPage

/-! ### Traversals -/

namespace Traversal

theorem mem (h : Traversal key limit after tables items) {x : α} (hx : x ∈ items) :
    (∃ rows ∈ tables, x ∈ rows) ∧ After after (key x) := by
  induction h with
  | last page => exact ⟨⟨_, List.mem_singleton_self _, (page.mem hx).1⟩, (page.mem hx).2⟩
  | more page next ih =>
    rcases List.mem_append.mp hx with hx | hx
    · exact ⟨⟨_, List.mem_cons_self, (page.mem hx).1⟩, (page.mem hx).2⟩
    · obtain ⟨⟨rows, hrows, hmem⟩, hafter⟩ := ih hx
      exact ⟨⟨rows, List.mem_cons_of_mem _ hrows, hmem⟩,
        page.after_next.trans (after_some.mp hafter)⟩

/-- The keys shown are increasing, whatever the tables are. -/
theorem sorted (h : Traversal key limit after tables items)
    (hnodup : ∀ rows ∈ tables, (rows.map key).Nodup) : items.Pairwise (key · < key ·) := by
  induction h with
  | last page => exact page.sorted (hnodup _ List.mem_cons_self)
  | more page next ih =>
    rw [List.pairwise_append]
    refine ⟨page.sorted (hnodup _ List.mem_cons_self),
      ih fun rows hrows => hnodup rows (List.mem_cons_of_mem _ hrows), fun x hx y hy => ?_⟩
    exact (page.le_next hx).trans_lt (after_some.mp (next.mem hy).2)

/-- A key that every table has is shown. -/
theorem complete (hlimit : 1 ≤ limit) (h : Traversal key limit after tables items)
    (hnodup : ∀ rows ∈ tables, (rows.map key).Nodup) {k : K} (hafter : After after k)
    (hk : ∀ rows ∈ tables, ∃ x ∈ rows, key x = k) : ∃ x ∈ items, key x = k := by
  induction h with
  | last page =>
    obtain ⟨x, hx, rfl⟩ := hk _ List.mem_cons_self
    exact ⟨x, page.mem_of_last hlimit hx hafter, rfl⟩
  | @more after rows items rest tables k' page next ih =>
    by_cases hle : k ≤ k'
    · obtain ⟨x, hx, rfl⟩ := hk _ List.mem_cons_self
      exact ⟨x, List.mem_append_left _
        (page.mem_of_le (hnodup _ List.mem_cons_self) hx hafter hle), rfl⟩
    · obtain ⟨x, hx, hkey⟩ := ih (fun rows hrows => hnodup rows (List.mem_cons_of_mem _ hrows))
        (after_some.mpr (not_le.mp hle)) fun rows hrows => hk rows (List.mem_cons_of_mem _ hrows)
      exact ⟨x, List.mem_append_right _ hx, hkey⟩

/-- On a table that does not change, every row after the position is shown. -/
theorem perm_of_fixed (hlimit : 1 ≤ limit) {n : ℕ}
    (h : Traversal key limit after (List.replicate n rows) items)
    (hnodup : (rows.map key).Nodup) :
    items.Perm (rows.filter fun x => After after (key x)) := by
  have hrows : ∀ r ∈ List.replicate n rows, (r.map key).Nodup := fun r hr => by
    rw [List.eq_of_mem_replicate hr]
    exact hnodup
  have hitems : items.Nodup := (h.sorted hrows).imp fun hlt heq => hlt.ne (congrArg key heq)
  rw [List.perm_ext_iff_of_nodup hitems (hnodup.of_map.filter _)]
  intro x
  rw [List.mem_filter, decide_eq_true_eq]
  constructor
  · intro hx
    obtain ⟨⟨r, hr, hmem⟩, hafter⟩ := h.mem hx
    exact ⟨List.eq_of_mem_replicate hr ▸ hmem, hafter⟩
  · rintro ⟨hx, hafter⟩
    obtain ⟨y, hy, hkey⟩ := h.complete hlimit hrows hafter fun r hr =>
      ⟨x, List.eq_of_mem_replicate hr ▸ hx, rfl⟩
    obtain ⟨⟨r, hr, hmem⟩, _⟩ := h.mem hy
    have heq : y = x :=
      List.inj_on_of_nodup_map hnodup (List.eq_of_mem_replicate hr ▸ hmem) hx hkey
    exact heq ▸ hy

end Traversal

/-! ### Rotations -/

/-- Windows one after the other: a full one is followed by the rows after its last one, a
short one is the last. -/
inductive Rotation (key : α → K) : Option K → List (ℕ × List α) → List α → Prop
  | last {limit : ℕ} {after : Option K} {rows items : List α}
      (window : IsWindow key limit after rows items) (short : items.length < limit) :
      Rotation key after [(limit, rows)] items
  | more {limit : ℕ} {after : Option K} {rows items rest : List α} {y : α}
      {windows : List (ℕ × List α)} (window : IsWindow key limit after rows items)
      (lastRow : items.getLast? = some y) (next : Rotation key (some (key y)) windows rest) :
      Rotation key after ((limit, rows) :: windows) (items ++ rest)

namespace Rotation

variable {windows : List (ℕ × List α)}

theorem mem (h : Rotation key after windows items) {x : α} (hx : x ∈ items) :
    (∃ w ∈ windows, x ∈ w.2) ∧ After after (key x) := by
  induction h with
  | last window => exact ⟨⟨_, List.mem_singleton_self _, (window.mem hx).1⟩, (window.mem hx).2⟩
  | more window lastRow next ih =>
    rcases List.mem_append.mp hx with hx | hx
    · exact ⟨⟨_, List.mem_cons_self, (window.mem hx).1⟩, (window.mem hx).2⟩
    · obtain ⟨⟨w, hw, hmem⟩, hafter⟩ := ih hx
      exact ⟨⟨w, List.mem_cons_of_mem _ hw, hmem⟩,
        (window.mem (List.mem_of_getLast? lastRow)).2.trans (after_some.mp hafter)⟩

/-- The keys shown are increasing, whatever the tables are. -/
theorem sorted (h : Rotation key after windows items)
    (hnodup : ∀ w ∈ windows, (w.2.map key).Nodup) : items.Pairwise (key · < key ·) := by
  induction h with
  | last window => exact window.sorted (hnodup _ List.mem_cons_self)
  | more window lastRow next ih =>
    rw [List.pairwise_append]
    refine ⟨window.sorted (hnodup _ List.mem_cons_self),
      ih fun w hw => hnodup w (List.mem_cons_of_mem _ hw), fun x hx y hy => ?_⟩
    exact (window.le_last lastRow hx).trans_lt (after_some.mp (next.mem hy).2)

/-- A key that every table has is shown. -/
theorem complete (h : Rotation key after windows items)
    (hnodup : ∀ w ∈ windows, (w.2.map key).Nodup) {k : K} (hafter : After after k)
    (hk : ∀ w ∈ windows, ∃ x ∈ w.2, key x = k) : ∃ x ∈ items, key x = k := by
  induction h with
  | last window short =>
    obtain ⟨x, hx, rfl⟩ := hk _ List.mem_cons_self
    exact ⟨x, window.mem_of_short short hx hafter, rfl⟩
  | @more limit after rows items rest y windows window lastRow next ih =>
    by_cases hle : k ≤ key y
    · obtain ⟨x, hx, rfl⟩ := hk _ List.mem_cons_self
      exact ⟨x, List.mem_append_left _
        (window.mem_of_le lastRow (hnodup _ List.mem_cons_self) hx hafter hle), rfl⟩
    · obtain ⟨x, hx, hkey⟩ := ih (fun w hw => hnodup w (List.mem_cons_of_mem _ hw))
        (after_some.mpr (not_le.mp hle)) fun w hw => hk w (List.mem_cons_of_mem _ hw)
      exact ⟨x, List.mem_append_right _ hx, hkey⟩

end Rotation

end

end Keyset
