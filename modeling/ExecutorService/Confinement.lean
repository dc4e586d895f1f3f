/-
Requests confined to the rows they may see.

A state has a list of rows, some of which a request may see.  `Confined` compares two
states with the same visible rows: the request answers both alike, leaves the same
visible rows and no other row of either state changes.

* `Confined.read`, `Confined.update`, `Confined.insert` — the requests that change
  nothing, the visible row of one key, or add a visible row;
* `Confined.map`, `Confined.seq` — an answer from the result, and two parts in sequence.
-/
import ExecutorService.Table

variable {σ α β γ : Type*}

/-- The states have the same visible rows. -/
def Agree (rows : σ → List α) (sees : α → Bool) (s s' : σ) : Prop :=
  (rows s).filter sees = (rows s').filter sees

/-- What a caller does is the same in two states that agree for it, and leaves the other rows
alone. -/
structure Confined (rows : σ → List α) (sees : α → Bool) (f : σ → σ × β) (s s' : σ) : Prop where
  result : (f s).2 = (f s').2
  visible : Agree rows sees (f s).1 (f s').1
  hidden : (rows (f s).1).filter (!sees ·) = (rows s).filter (!sees ·)
  hidden' : (rows (f s').1).filter (!sees ·) = (rows s').filter (!sees ·)

namespace Confined

variable {rows : σ → List α} {sees : α → Bool} {s s' : σ} {f : σ → σ × β}

/-- A request is judged by what it does to the two states. -/
theorem congr (h : Confined rows sees f s s') {g : σ → σ × β} (hs : g s = f s) (hs' : g s' = f s') :
    Confined rows sees g s s' where
  result := by rw [hs, hs', h.result]
  visible := by rw [Agree, hs, hs']; exact h.visible
  hidden := by rw [hs, h.hidden]
  hidden' := by rw [hs', h.hidden']

theorem read (hagree : Agree rows sees s s') {g : σ → β} (hg : g s = g s') :
    Confined rows sees (fun s => (s, g s)) s s' :=
  ⟨hg, hagree, rfl, rfl⟩

theorem map (h : Confined rows sees f s s') (k : β → γ) :
    Confined rows sees (fun s => ((f s).1, k (f s).2)) s s' :=
  ⟨by rw [h.result], h.visible, h.hidden, h.hidden'⟩

/-- The second part runs on the rows that the first one leaves. -/
theorem seq (h : Confined rows sees f s s') {g : σ → σ × γ}
    (hg : Confined rows sees g (f s).1 (f s').1) :
    Confined rows sees (fun s => g (f s).1) s s' where
  result := hg.result
  visible := hg.visible
  hidden := hg.hidden.trans h.hidden
  hidden' := hg.hidden'.trans h.hidden'

/-- An update of visible rows that stay visible. -/
theorem update (hagree : Agree rows sees s s') {p : α → Bool} {u : α → α}
    (hu : ∀ x, sees (u x) = sees x) (hp : ∀ x ∈ rows s, p x = true → sees x = true)
    (hp' : ∀ x ∈ rows s', p x = true → sees x = true) (put : σ → σ)
    (hput : ∀ s, rows (put s) = (rows s).updateWhere p u) (b : β) :
    Confined rows sees (fun s => (put s, b)) s s' := by
  have hnot : ∀ x, (!sees (u x)) = !sees x := fun x => by rw [hu]
  -- The update selects no hidden row.
  have hrest : ∀ t, (∀ x ∈ rows t, p x = true → sees x = true) →
      (rows (put t)).filter (!sees ·) = (rows t).filter (!sees ·) := by
    intro t ht
    rw [hput, List.filter_updateWhere hnot]
    refine List.updateWhere_eq_self fun x hx => ?_
    rw [List.mem_filter] at hx
    cases hpx : p x with
    | false => rfl
    | true => simp [ht x hx.1 hpx] at hx
  refine ⟨rfl, ?_, hrest s hp, hrest s' hp'⟩
  rw [Agree, hput, hput, List.filter_updateWhere hu, List.filter_updateWhere hu, hagree]

/-- A new visible row. -/
theorem insert (hagree : Agree rows sees s s') {x : α} (hx : sees x = true) (add : σ → σ)
    (hadd : ∀ s, rows (add s) = rows s ++ [x]) (b : β) :
    Confined rows sees (fun s => (add s, b)) s s' := by
  have hrest : ∀ t, (rows (add t)).filter (!sees ·) = (rows t).filter (!sees ·) := by
    intro t
    simp [hadd, hx]
  refine ⟨rfl, ?_, hrest s, hrest s'⟩
  rw [Agree, hadd, hadd, List.filter_append, List.filter_append, hagree]

end Confined
