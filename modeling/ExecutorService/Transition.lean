/-
Runs of a state machine.

A machine is a step function `σ → α → σ` on states and actions; a run folds it
over a list of actions.  `Along ok s acts` says that each action of the run from
`s` meets `ok` in the state it is taken from.

* `Transition.invariant` — a property of the start that each admitted step keeps
  holds at the end of every run;
* `Transition.along_of_invariant` — what such an invariant says of a step holds of every
  step of a run;
* `Transition.simulates` — a machine seen as a run of another one;
* `Transition.origin` — the step of a run that brought about what holds at its end;
* `Transition.balance` — a counter that advances by one at the steps of a kind,
  and at no other, has counted the steps of that kind.
-/
import Mathlib.Data.List.Basic

namespace Transition

variable {σ α : Type*}

/-- The state after a list of actions. -/
def run (step : σ → α → σ) (s : σ) (acts : List α) : σ :=
  acts.foldl step s

/-- Every action of the run meets `ok` where it is taken. -/
def Along (step : σ → α → σ) (ok : σ → α → Prop) : σ → List α → Prop
  | _, [] => True
  | s, a :: acts => ok s a ∧ Along step ok (step s a) acts

variable {step : σ → α → σ} {ok : σ → α → Prop}

instance decidableAlong [∀ s a, Decidable (ok s a)] : ∀ s acts, Decidable (Along step ok s acts)
  | _, [] => .isTrue trivial
  | s, a :: acts =>
    have := decidableAlong (step s a) acts
    inferInstanceAs (Decidable (_ ∧ _))

@[simp] theorem run_nil (s : σ) : run step s [] = s := rfl

@[simp] theorem run_cons (s : σ) (a : α) (acts : List α) :
    run step s (a :: acts) = run step (step s a) acts := rfl

theorem run_append (s : σ) (acts acts' : List α) :
    run step s (acts ++ acts') = run step (run step s acts) acts' := by
  simp [run, List.foldl_append]

theorem along_append {s : σ} {acts acts' : List α} :
    Along step ok s (acts ++ acts') ↔
      Along step ok s acts ∧ Along step ok (run step s acts) acts' := by
  induction acts generalizing s with
  | nil => simp [Along]
  | cons a acts ih => simp [Along, ih, and_assoc]

theorem along_true (s : σ) (acts : List α) : Along step (fun _ _ => True) s acts := by
  induction acts generalizing s with
  | nil => trivial
  | cons a acts ih => exact ⟨trivial, ih _⟩

theorem invariant {I : σ → Prop} (hstep : ∀ s a, I s → ok s a → I (step s a))
    {s : σ} {acts : List α} (h : I s) (hok : Along step ok s acts) : I (run step s acts) := by
  induction acts generalizing s with
  | nil => exact h
  | cons a acts ih => exact ih (hstep s a h hok.1) hok.2

/-- The rule for a machine whose every step keeps the invariant. -/
theorem invariant_of_step {I : σ → Prop} (hstep : ∀ s a, I s → I (step s a))
    {s : σ} (h : I s) (acts : List α) : I (run step s acts) :=
  invariant (fun s a hs _ => hstep s a hs) h (along_true s acts)

/-- A property of the steps that the invariant gives holds of every step of the run. -/
theorem along_of_invariant {I : σ → Prop} {ok' : σ → α → Prop}
    (hstep : ∀ s a, I s → ok s a → I (step s a)) (h : ∀ s a, I s → ok s a → ok' s a)
    {s : σ} {acts : List α} (hs : I s) (hok : Along step ok s acts) : Along step ok' s acts := by
  induction acts generalizing s with
  | nil => trivial
  | cons a acts ih => exact ⟨h s a hs hok.1, ih (hstep s a hs hok.1) hok.2⟩

/-- A view of a machine whose every step is a step of another one, or none, runs as that
machine does. -/
theorem simulates {τ β : Type*} {step' : τ → β → τ} {ok' : τ → β → Prop} {v : σ → τ}
    {I : σ → Prop} (hstep : ∀ s a, I s → I (step s a))
    (hview : ∀ s a, I s → v (step s a) = v s ∨
      ∃ b, ok' (v s) b ∧ v (step s a) = step' (v s) b)
    {s : σ} (h : I s) (acts : List α) :
    ∃ bs, v (run step s acts) = run step' (v s) bs ∧ Along step' ok' (v s) bs := by
  induction acts generalizing s with
  | nil => exact ⟨[], rfl, trivial⟩
  | cons a acts ih =>
    obtain ⟨bs, hrun, halong⟩ := ih (hstep s a h)
    rcases hview s a h with hsame | ⟨b, hok, hsame⟩
    · rw [hsame] at hrun halong
      exact ⟨bs, hrun, halong⟩
    · rw [hsame] at hrun halong
      exact ⟨b :: bs, hrun, hok, halong⟩

/-- What holds at the end held at the start, or a step of the run brought it about. -/
theorem origin {P : σ → Prop} {s : σ} {acts : List α} (h : P (run step s acts)) :
    P s ∨ ∃ before a after, acts = before ++ a :: after ∧ ¬ P (run step s before) ∧
      P (step (run step s before) a) := by
  induction acts generalizing s with
  | nil => exact .inl h
  | cons a acts ih =>
    rcases ih h with hfirst | ⟨before, b, after, rfl, hnot, hthen⟩
    · by_cases hs : P s
      · exact .inl hs
      · exact .inr ⟨[], a, acts, rfl, hs, hfirst⟩
    · exact .inr ⟨a :: before, b, after, rfl, hnot, hthen⟩

/-- How many steps of the run are of the kind `kind`, read off the states before
and after the step. -/
def count (step : σ → α → σ) (kind : σ → σ → Bool) : σ → List α → ℕ
  | _, [] => 0
  | s, a :: acts => (kind s (step s a)).toNat + count step kind (step s a) acts

theorem balance {I : σ → Prop} {kind : σ → σ → Bool} {counter : σ → ℕ}
    (hstep : ∀ s a, I s → ok s a → I (step s a))
    (hcount : ∀ s a, I s → ok s a → counter (step s a) = counter s + (kind s (step s a)).toNat)
    {s : σ} {acts : List α} (h : I s) (hok : Along step ok s acts) :
    counter (run step s acts) = counter s + count step kind s acts := by
  induction acts generalizing s with
  | nil => rfl
  | cons a acts ih =>
    rw [run_cons, ih (hstep s a h hok.1) hok.2, hcount s a h hok.1, count, Nat.add_assoc]

end Transition
