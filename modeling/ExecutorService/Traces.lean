/-
Traces whose every event is due.

A trace only grows at its end.  What may be appended depends on what is there: `ok before e`
says that the event `e` may follow the events `before`.  A trace is lawful when each of its
events was due when it was appended.

* `Trace.lawful_concat` — the rule for one more event;
* `Trace.since` — the events after the last one of a kind;
* `Trace.Lawful.at_most_one` — events that are due once between two events of a kind.
-/
import Mathlib.Data.List.DropRight

namespace Trace

variable {α : Type*} {ok : List α → α → Prop} {p q : α → Bool}

/-- Each event of the trace was due after those before it. -/
def Lawful (ok : List α → α → Prop) (trace : List α) : Prop :=
  ∀ before e after, trace = before ++ e :: after → ok before e

theorem lawful_nil : Lawful ok [] := by
  intro before e after h
  simp at h

theorem lawful_concat {trace : List α} {e : α} :
    Lawful ok (trace ++ [e]) ↔ Lawful ok trace ∧ ok trace e := by
  constructor
  · intro h
    refine ⟨fun before x after hx => h before x (after ++ [e]) ?_, h trace e [] rfl⟩
    rw [hx, List.append_assoc, List.cons_append]
  · rintro ⟨h, he⟩ before x after hx
    rcases List.eq_nil_or_concat after with rfl | ⟨after, y, rfl⟩
    · obtain ⟨rfl, hxe⟩ := List.append_inj' hx rfl
      cases hxe
      exact he
    · rw [List.concat_eq_append, ← List.cons_append, ← List.append_assoc] at hx
      exact h before x after (List.append_inj' hx rfl).1

/-- The events after the last one of the kind. -/
def since (p : α → Bool) (trace : List α) : List α :=
  trace.rtakeWhile fun e => !p e

@[simp] theorem since_nil : since p [] = [] := List.rtakeWhile_nil _

theorem since_concat (trace : List α) (e : α) :
    since p (trace ++ [e]) = if p e then [] else since p trace ++ [e] := by
  rw [since, List.rtakeWhile_concat]
  cases p e <;> rfl

theorem mem_of_since {trace : List α} {e : α} (h : e ∈ since p trace) : e ∈ trace :=
  (List.rtakeWhile_suffix _ _).subset h

/-- The end of a trace that has no event of the kind. -/
theorem suffix_since {before mid : List α} (h : ∀ e ∈ mid, p e = false) :
    mid <:+ since p (before ++ mid) := by
  induction mid using List.reverseRecOn with
  | nil => exact List.nil_suffix
  | append_singleton mid e ih =>
    have hmid := ih fun x hx => h x (List.mem_append_left _ hx)
    have he : p e = false := h e (List.mem_append_right _ (List.mem_singleton_self e))
    rw [← List.append_assoc, since_concat, he, if_neg Bool.false_ne_true]
    obtain ⟨rest, hrest⟩ := hmid
    exact ⟨rest, by rw [← List.append_assoc, hrest]⟩

/-- Where one of `q` is due only if there is none since the last of `p`, there is at most one
between any two of `p`. -/
theorem Lawful.at_most_one {trace mid : List α} (h : Lawful ok trace)
    (hdue : ∀ before e, ok before e → q e = true → ∀ x ∈ since p before, q x = false)
    (hmid : mid <:+: trace) (hp : ∀ e ∈ mid, p e = false) : mid.countP q ≤ 1 := by
  induction mid using List.reverseRecOn with
  | nil => exact Nat.zero_le _
  | append_singleton mid e ih =>
    have hp' : ∀ x ∈ mid, p x = false := fun x hx => hp x (List.mem_append_left _ hx)
    obtain ⟨before, after, htrace⟩ := hmid
    have hrest : before ++ mid ++ e :: after = trace := by
      rw [← htrace, List.append_assoc, List.append_assoc, List.append_assoc, List.singleton_append]
    rw [List.countP_append, List.countP_singleton]
    by_cases hq : q e = true
    · have hnone := hdue _ e (h (before ++ mid) e after hrest.symm) hq
      have hzero : mid.countP q = 0 := by
        refine List.countP_eq_zero.mpr fun x hx => ?_
        simp [hnone x ((suffix_since hp').subset hx)]
      rw [hzero, if_pos hq]
    · rw [if_neg hq]
      exact ih ⟨before, e :: after, hrest⟩ hp'

end Trace
