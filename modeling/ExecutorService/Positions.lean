/-
Positions in lists.

What stands at a position after one entry of the list was replaced, modified or
appended: the entry itself at its own position, what stood there before at every
other one.

* `List.getElem?_set_cases`, `List.getElem?_concat_cases`, `List.getElem?_modify_cases`;
* `List.mem_modify_cases`, `List.mem_modify_of_mem`, `List.countP_modify` — the entries of a
  list of which one was modified;
* `List.exists_split_of_getElem?` — the list around one entry;
* `List.sum_map_set` — a sum over the entries after one of them was replaced.
-/
import Mathlib

namespace List

variable {α : Type*} {l : List α} {i j : ℕ} {x y : α}

theorem getElem?_set_cases (h : (l.set i x)[j]? = some y) :
    j = i ∧ y = x ∨ j ≠ i ∧ l[j]? = some y := by
  by_cases hij : j = i
  · subst hij
    rw [getElem?_set_self'] at h
    obtain ⟨_, _, hy⟩ := Option.map_eq_some_iff.mp h
    exact .inl ⟨rfl, hy.symm⟩
  · rw [getElem?_set_ne (Ne.symm hij)] at h
    exact .inr ⟨hij, h⟩

theorem getElem?_concat_cases (h : (l ++ [x])[j]? = some y) :
    j = l.length ∧ y = x ∨ j ≠ l.length ∧ l[j]? = some y := by
  rcases Nat.lt_trichotomy j l.length with hlt | rfl | hgt
  · rw [getElem?_append_left hlt] at h
    exact .inr ⟨Nat.ne_of_lt hlt, h⟩
  · rw [getElem?_concat_length] at h
    exact .inl ⟨rfl, (Option.some.inj h).symm⟩
  · have hlen : (l ++ [x]).length ≤ j := by
      rw [length_append, length_singleton]
      omega
    rw [getElem?_eq_none hlen] at h
    exact absurd h (Option.some_ne_none y).symm

theorem getElem?_modify_cases {f : α → α} (hi : l[i]? = some x)
    (h : (l.modify i f)[j]? = some y) : j = i ∧ y = f x ∨ j ≠ i ∧ l[j]? = some y := by
  by_cases hij : j = i
  · subst hij
    rw [getElem?_modify_eq, hi] at h
    exact .inl ⟨rfl, (Option.some.inj h).symm⟩
  · rw [getElem?_modify_ne f l (Ne.symm hij)] at h
    exact .inr ⟨hij, h⟩

/-- The entries of a list of which one was modified. -/
theorem mem_modify_cases {f : α → α} (h : y ∈ l.modify i f) : ∃ x ∈ l, y = x ∨ y = f x := by
  obtain ⟨j, hj⟩ := mem_iff_getElem?.mp h
  rw [getElem?_modify, Option.map_eq_map, Option.map_eq_some_iff] at hj
  obtain ⟨x, hx, rfl⟩ := hj
  refine ⟨x, mem_of_getElem? hx, ?_⟩
  split
  · exact .inr rfl
  · exact .inl rfl

theorem mem_modify_of_mem (f : α → α) (i : ℕ) (h : x ∈ l) :
    x ∈ l.modify i f ∨ f x ∈ l.modify i f := by
  obtain ⟨j, hj⟩ := mem_iff_getElem?.mp h
  have hmem := getElem?_modify f i l j
  rw [hj, Option.map_eq_map, Option.map_some] at hmem
  split at hmem
  · exact .inr (mem_of_getElem? hmem)
  · exact .inl (mem_of_getElem? hmem)

theorem countP_modify {p : α → Bool} {f : α → α} (hf : ∀ x, p (f x) = p x) (l : List α) (i : ℕ) :
    (l.modify i f).countP p = l.countP p := by
  induction l generalizing i with
  | nil => simp
  | cons a l ih =>
    cases i with
    | zero => simp [countP_cons, hf]
    | succ i => simp [countP_cons, ih]

/-- What replacing or erasing one entry does to the list around it. -/
theorem exists_split_of_getElem? (h : l[i]? = some x) :
    ∃ pre post, l = pre ++ x :: post ∧ (∀ y, l.set i y = pre ++ y :: post) ∧
      l.eraseIdx i = pre ++ post := by
  induction l generalizing i with
  | nil => cases h
  | cons a l ih =>
    cases i with
    | zero =>
      obtain rfl := Option.some.inj h
      exact ⟨[], l, rfl, fun _ => rfl, rfl⟩
    | succ i =>
      obtain ⟨pre, post, hl, hset, herase⟩ := ih h
      refine ⟨a :: pre, post, ?_, fun y => ?_, ?_⟩
      · rw [hl]
        rfl
      · rw [set_cons_succ, hset]
        rfl
      · rw [eraseIdx_cons_succ, herase]
        rfl

/-- The new entry counts in place of the old one. -/
theorem sum_map_set (f : α → ℕ) (hi : l[i]? = some x) (y : α) :
    ((l.set i y).map f).sum + f x = (l.map f).sum + f y := by
  induction l generalizing i with
  | nil => cases hi
  | cons a l ih =>
    cases i with
    | zero =>
      obtain rfl := Option.some.inj hi
      rw [set_cons_zero, map_cons, map_cons, sum_cons, sum_cons]
      omega
    | succ i =>
      rw [getElem?_cons_succ] at hi
      rw [set_cons_succ, map_cons, map_cons, sum_cons, sum_cons]
      have := ih hi
      omega

end List
