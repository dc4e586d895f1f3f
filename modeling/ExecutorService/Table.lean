/-
Lists as database tables.

A table is the list of its rows, in insertion order.  `List.updateWhere p f` is
the statement `UPDATE … SET f WHERE p`; the lemmas say what membership and lookup
by a predicate become after such a statement:

* `List.mem_updateWhere` — a row of the new table is an updated row or an
  untouched one;
* `List.map_updateWhere` — columns the update does not assign keep their values;
* `List.map_updateWhere_comm` — an update seen through a projection of the rows;
* `List.updateWhere_eq_self` — an update that selects nothing is the identity;
* `List.filter_updateWhere`, `List.find?_filter_of_nodup` — a selection commutes with an
  update and, in a table with unique keys, with a lookup.
-/
import Mathlib.Data.List.Basic

namespace List

variable {α β : Type*}

/-- `UPDATE rows SET f WHERE p`. -/
def updateWhere (p : α → Bool) (f : α → α) (rows : List α) : List α :=
  rows.map fun x => if p x then f x else x

@[simp] theorem updateWhere_nil (p : α → Bool) (f : α → α) :
    updateWhere p f [] = [] := rfl

theorem updateWhere_cons (p : α → Bool) (f : α → α) (x : α) (rows : List α) :
    updateWhere p f (x :: rows) = (if p x then f x else x) :: updateWhere p f rows := rfl

@[simp] theorem length_updateWhere (p : α → Bool) (f : α → α) (rows : List α) :
    (updateWhere p f rows).length = rows.length := by
  simp [updateWhere]

theorem mem_updateWhere {p : α → Bool} {f : α → α} {rows : List α} {y : α} :
    y ∈ updateWhere p f rows ↔
      (∃ x ∈ rows, p x = true ∧ f x = y) ∨ (y ∈ rows ∧ p y = false) := by
  simp only [updateWhere, mem_map]
  constructor
  · rintro ⟨x, hx, rfl⟩
    by_cases hp : p x = true
    · exact .inl ⟨x, hx, hp, by simp [hp]⟩
    · exact .inr (by simpa [hp] using hx)
  · rintro (⟨x, hx, hp, rfl⟩ | ⟨hy, hp⟩)
    · exact ⟨x, hx, by simp [hp]⟩
    · exact ⟨y, hy, by simp [hp]⟩

/-- A property of every row survives an update that establishes it for the
rows it selects. -/
theorem forall_mem_updateWhere {p : α → Bool} {f : α → α} {rows : List α} {P : α → Prop}
    (hf : ∀ x ∈ rows, p x = true → P (f x)) (hr : ∀ x ∈ rows, p x = false → P x) :
    ∀ y ∈ updateWhere p f rows, P y := by
  intro y hy
  rcases mem_updateWhere.mp hy with ⟨x, hx, hp, rfl⟩ | ⟨hy, hp⟩
  · exact hf x hx hp
  · exact hr y hy hp

theorem map_updateWhere {p : α → Bool} {f : α → α} {g : α → β} (h : ∀ x, g (f x) = g x)
    (rows : List α) : (updateWhere p f rows).map g = rows.map g := by
  simp only [updateWhere, map_map]
  refine map_congr_left fun x _ => ?_
  by_cases hp : p x = true <;> simp [hp, h]

/-- An update of the rows is an update of their projections, when it selects and
assigns by projected columns. -/
theorem map_updateWhere_comm {p : α → Bool} {f : α → α} {g : α → β} {p' : β → Bool}
    {f' : β → β} (hp : ∀ x, p' (g x) = p x) (hf : ∀ x, f' (g x) = g (f x)) (rows : List α) :
    (updateWhere p f rows).map g = updateWhere p' f' (rows.map g) := by
  simp only [updateWhere, map_map]
  refine map_congr_left fun x _ => ?_
  by_cases h : p x = true <;> simp [h, hp, hf]

theorem updateWhere_eq_self {p : α → Bool} {f : α → α} {rows : List α}
    (h : ∀ x ∈ rows, p x = false) : updateWhere p f rows = rows := by
  rw [updateWhere]
  conv_rhs => rw [← map_id rows]
  refine map_congr_left fun x hx => ?_
  simp [h x hx]

/-- A lookup by columns the update does not assign finds the updated row. -/
theorem find?_updateWhere {p q : α → Bool} {f : α → α} (h : ∀ x, q (f x) = q x)
    (rows : List α) :
    (updateWhere p f rows).find? q = (rows.find? q).map fun x => if p x then f x else x := by
  induction rows with
  | nil => rfl
  | cons x rows ih =>
    rw [updateWhere_cons, find?_cons, find?_cons, ih]
    by_cases hp : p x = true <;> cases hq : q x <;> simp [hp, hq, h]

/-- In a table without duplicate keys a row is the one its key finds. -/
theorem find?_of_nodup [DecidableEq β] {key : α → β} {rows : List α}
    (h : (rows.map key).Nodup) {x : α} (hx : x ∈ rows) :
    rows.find? (key · == key x) = some x := by
  induction rows with
  | nil => cases hx
  | cons y rows ih =>
    rw [map_cons, nodup_cons] at h
    rcases mem_cons.mp hx with rfl | hx
    · simp
    · have hne : key y ≠ key x := fun heq => h.1 (heq ▸ mem_map_of_mem hx)
      rw [find?_cons_of_neg (by simpa using hne)]
      exact ih h.2 hx

/-- Selecting by columns the update does not assign. -/
theorem filter_updateWhere {p q : α → Bool} {f : α → α} (h : ∀ x, q (f x) = q x) (rows : List α) :
    (updateWhere p f rows).filter q = updateWhere p f (rows.filter q) := by
  induction rows with
  | nil => rfl
  | cons x rows ih =>
    rw [updateWhere_cons, filter_cons, filter_cons, ih]
    by_cases hp : p x = true <;> cases hq : q x <;> simp [hp, hq, h, updateWhere_cons]

/-- In a table without duplicate keys a selection commutes with a lookup by key. -/
theorem find?_filter_of_nodup [DecidableEq β] {key : α → β} {q : α → Bool} {rows : List α}
    (h : (rows.map key).Nodup) (k : β) :
    (rows.filter q).find? (key · == k) = (rows.find? (key · == k)).filter q := by
  induction rows with
  | nil => rfl
  | cons x rows ih =>
    rw [map_cons, nodup_cons] at h
    rw [find?_cons, filter_cons]
    by_cases hk : key x = k
    · subst hk
      -- No later row has the key of the first.
      have hnone : (rows.filter q).find? (key · == key x) = none := by
        refine find?_eq_none.mpr fun y hy => ?_
        simpa using fun heq : key y = key x => h.1 (heq ▸ mem_map_of_mem (mem_filter.mp hy).1)
      cases hq : q x <;> simp [hnone, Option.filter, hq]
    · have hk' : (key x == k) = false := by simpa using hk
      cases hq : q x <;> simp [hk', ih h.2]

/-- A search that finds nothing in the rows a selection leaves out. -/
theorem findSome?_filter_of_none {f : α → Option β} {q : α → Bool} {rows : List α}
    (h : ∀ x ∈ rows, q x = false → f x = none) : (rows.filter q).findSome? f = rows.findSome? f := by
  induction rows with
  | nil => rfl
  | cons x rows ih =>
    have ih := ih fun y hy => h y (mem_cons_of_mem _ hy)
    cases hq : q x with
    | true => simp [hq, findSome?_cons, ih]
    | false => simp [hq, ih, h x mem_cons_self hq]

/-- A row that alone contributes to a union. -/
theorem flatMap_eq_of_mem {f : α → List β} {rows : List α} (h : rows.Nodup) {x : α} (hx : x ∈ rows)
    (hf : ∀ y ∈ rows, y ≠ x → f y = []) : rows.flatMap f = f x := by
  induction rows with
  | nil => cases hx
  | cons y rows ih =>
    rw [nodup_cons] at h
    rw [flatMap_cons]
    rcases mem_cons.mp hx with rfl | hx
    · have hrest : rows.flatMap f = [] := flatMap_eq_nil_iff.mpr fun z hz =>
        hf z (mem_cons_of_mem _ hz) fun heq => h.1 (heq ▸ hz)
      rw [hrest, append_nil]
    · have hne : y ≠ x := fun heq => h.1 (heq ▸ hx)
      rw [hf y mem_cons_self hne, nil_append,
        ih h.2 hx fun z hz => hf z (mem_cons_of_mem _ hz)]

end List
