/-
Redaction of secret values (`execution_queries/mappers.py`, `artifacts/validation.py`).

`redact` replaces the value of every key that names a secret, at any depth.  Two objects
that differ only below such keys are redacted to the same object, and only those.

* `Similar` — the values differ only under secret keys;
* `redactMembers_eq_iff` — redaction tells exactly the other objects apart;
* `hasSecretKey` — a value without a secret key is similar to no other one, and a value
  with one is similar to `exchange`, which is another.
-/
import ExecutorService.Codec
import Mathlib.Data.List.Infix

namespace ExecutorService

open Json (Value)
open Codec (Text)

section

variable {F : Type} (py : Codec.Python F)

/-- `_is_secret_key`, and `is_secret_key` of the Artifacts. -/
def isSecretKey (key : Text) : Bool :=
  ["token", "secret", "password", "credential"].any fun marker =>
    decide (marker.toList <:+: py.lower key)

/-- What stands in the place of a secret. -/
def redacted : Value F :=
  Codec.textValue "[REDACTED]"

mutual

/-- The document with its secrets replaced. -/
def redact : Value F → Value F
  | .obj members => .obj (redactMembers members)
  | .arr items => .arr (redactItems items)
  | .constant c => .constant c
  | .int n => .int n
  | .float x => .float x
  | .str s => .str s

/-- Every item is redacted. -/
def redactItems : List (Value F) → List (Value F)
  | [] => []
  | v :: vs => redact v :: redactItems vs

/-- Every member is redacted. -/
def redactMembers : List (Text × Value F) → List (Text × Value F)
  | [] => []
  | m :: ms => redactMember m :: redactMembers ms

/-- A member is redacted, or replaced if its key names a secret. -/
def redactMember : Text × Value F → Text × Value F
  | (key, v) => (key, if isSecretKey py key then redacted else redact v)

end

/-! ### Similar values -/

mutual

/-- The values differ only under secret keys. -/
inductive Similar : Value F → Value F → Prop
  | constant (c : Json.Constant) : Similar (.constant c) (.constant c)
  | int (n : ℤ) : Similar (.int n) (.int n)
  | float (x : F) : Similar (.float x) (.float x)
  | str (s : Text) : Similar (.str s) (.str s)
  | arr {vs ws : List (Value F)} : SimilarItems vs ws → Similar (.arr vs) (.arr ws)
  | obj {ms ns : List (Text × Value F)} : SimilarMembers ms ns → Similar (.obj ms) (.obj ns)

/-- The items are similar. -/
inductive SimilarItems : List (Value F) → List (Value F) → Prop
  | nil : SimilarItems [] []
  | cons {v w : Value F} {vs ws : List (Value F)} : Similar v w → SimilarItems vs ws →
      SimilarItems (v :: vs) (w :: ws)

/-- The members have the same keys, and values that are similar or secret. -/
inductive SimilarMembers : List (Text × Value F) → List (Text × Value F) → Prop
  | nil : SimilarMembers [] []
  | secret {key : Text} {v w : Value F} {ms ns : List (Text × Value F)} :
      isSecretKey py key = true → SimilarMembers ms ns →
      SimilarMembers ((key, v) :: ms) ((key, w) :: ns)
  | cons {key : Text} {v w : Value F} {ms ns : List (Text × Value F)} : Similar v w →
      SimilarMembers ms ns → SimilarMembers ((key, v) :: ms) ((key, w) :: ns)

end

mutual

/-- A key that names a secret, at any depth. -/
def hasSecretKey : Value F → Bool
  | .obj members => hasSecretKeyMembers members
  | .arr items => hasSecretKeyItems items
  | .constant _ | .int _ | .float _ | .str _ => false

/-- An item has a secret key. -/
def hasSecretKeyItems : List (Value F) → Bool
  | [] => false
  | v :: vs => hasSecretKey v || hasSecretKeyItems vs

/-- A member has a secret key. -/
def hasSecretKeyMembers : List (Text × Value F) → Bool
  | [] => false
  | m :: ms => hasSecretKeyMember m || hasSecretKeyMembers ms

/-- The key names a secret, or the value has a secret key. -/
def hasSecretKeyMember : Text × Value F → Bool
  | (key, v) => isSecretKey py key || hasSecretKey v

end

mutual

/-- The value with other secrets. -/
def exchange : Value F → Value F
  | .obj members => .obj (exchangeMembers members)
  | .arr items => .arr (exchangeItems items)
  | .constant c => .constant c
  | .int n => .int n
  | .float x => .float x
  | .str s => .str s

/-- The secrets of every item exchanged. -/
def exchangeItems : List (Value F) → List (Value F)
  | [] => []
  | v :: vs => exchange v :: exchangeItems vs

/-- The secrets of every member exchanged. -/
def exchangeMembers : List (Text × Value F) → List (Text × Value F)
  | [] => []
  | m :: ms => exchangeMember m :: exchangeMembers ms

/-- The value exchanged if it is a secret, or else the secrets in it. -/
def exchangeMember : Text × Value F → Text × Value F
  | (key, v) => (key, if isSecretKey py key then .arr [v] else exchange v)

end

variable {py}

/-! ### What redaction hides -/

mutual

theorem Similar.redact_eq {v w : Value F} : Similar py v w → redact py v = redact py w
  | .constant _ | .int _ | .float _ | .str _ => rfl
  | .arr h => by rw [redact, redact, h.redactItems_eq]
  | .obj h => by rw [redact, redact, h.redactMembers_eq]

theorem SimilarItems.redactItems_eq {vs ws : List (Value F)} :
    SimilarItems py vs ws → redactItems py vs = redactItems py ws
  | .nil => rfl
  | .cons h hs => by rw [redactItems, redactItems, h.redact_eq, hs.redactItems_eq]

theorem SimilarMembers.redactMembers_eq {ms ns : List (Text × Value F)} :
    SimilarMembers py ms ns → redactMembers py ms = redactMembers py ns
  | .nil => rfl
  | .secret hkey hs => by
    rw [redactMembers, redactMembers, redactMember, redactMember, if_pos hkey, if_pos hkey,
      hs.redactMembers_eq]
  | .cons h hs => by
    rw [redactMembers, redactMembers, redactMember, redactMember, h.redact_eq,
      hs.redactMembers_eq]

end

mutual

theorem Similar.of_redact_eq : ∀ {v w : Value F}, redact py v = redact py w → Similar py v w
  | .constant c, w, h => by
    cases w <;> simp only [redact, Value.constant.injEq, reduceCtorEq] at h
    exact h ▸ .constant c
  | .int n, w, h => by
    cases w <;> simp only [redact, Value.int.injEq, reduceCtorEq] at h
    exact h ▸ .int n
  | .float x, w, h => by
    cases w <;> simp only [redact, Value.float.injEq, reduceCtorEq] at h
    exact h ▸ .float x
  | .str s, w, h => by
    cases w <;> simp only [redact, Value.str.injEq, reduceCtorEq] at h
    exact h ▸ .str s
  | .arr vs, w, h => by
    cases w <;> simp only [redact, Value.arr.injEq, reduceCtorEq] at h
    exact .arr (SimilarItems.of_redactItems_eq h)
  | .obj ms, w, h => by
    cases w <;> simp only [redact, Value.obj.injEq, reduceCtorEq] at h
    exact .obj (SimilarMembers.of_redactMembers_eq h)

theorem SimilarItems.of_redactItems_eq : ∀ {vs ws : List (Value F)},
    redactItems py vs = redactItems py ws → SimilarItems py vs ws
  | [], [], _ => .nil
  | [], w :: ws, h => by
    simp only [redactItems, reduceCtorEq] at h
  | v :: vs, [], h => by
    simp only [redactItems, reduceCtorEq] at h
  | v :: vs, w :: ws, h => by
    simp only [redactItems, List.cons.injEq] at h
    exact .cons (Similar.of_redact_eq h.1) (SimilarItems.of_redactItems_eq h.2)

theorem SimilarMembers.of_redactMembers_eq : ∀ {ms ns : List (Text × Value F)},
    redactMembers py ms = redactMembers py ns → SimilarMembers py ms ns
  | [], [], _ => .nil
  | [], w :: ws, h => by
    simp only [redactMembers, reduceCtorEq] at h
  | v :: vs, [], h => by
    simp only [redactMembers, reduceCtorEq] at h
  | (key, v) :: ms, (key', w) :: ns, h => by
    simp only [redactMembers, redactMember, List.cons.injEq, Prod.mk.injEq] at h
    obtain ⟨⟨rfl, hvalue⟩, hrest⟩ := h
    by_cases hkey : isSecretKey py key = true
    · exact .secret hkey (SimilarMembers.of_redactMembers_eq hrest)
    · rw [if_neg hkey, if_neg hkey] at hvalue
      exact .cons (Similar.of_redact_eq hvalue) (SimilarMembers.of_redactMembers_eq hrest)

end

theorem redactMembers_eq_iff {ms ns : List (Text × Value F)} :
    redactMembers py ms = redactMembers py ns ↔ SimilarMembers py ms ns :=
  ⟨SimilarMembers.of_redactMembers_eq, SimilarMembers.redactMembers_eq⟩

theorem SimilarMembers.refl (ms : List (Text × Value F)) : SimilarMembers py ms ms :=
  redactMembers_eq_iff.mp rfl

/-! ### Values without secrets -/

mutual

theorem Similar.eq {v w : Value F} : Similar py v w → hasSecretKey py v = false → v = w
  | .constant _, _ | .int _, _ | .float _, _ | .str _, _ => rfl
  | .arr h, hv => by rw [h.eq hv]
  | .obj h, hv => by rw [h.eq hv]

theorem SimilarItems.eq {vs ws : List (Value F)} :
    SimilarItems py vs ws → hasSecretKeyItems py vs = false → vs = ws
  | .nil, _ => rfl
  | .cons h hs, hv => by
    rw [hasSecretKeyItems, Bool.or_eq_false_iff] at hv
    rw [h.eq hv.1, hs.eq hv.2]

theorem SimilarMembers.eq {ms ns : List (Text × Value F)} :
    SimilarMembers py ms ns → hasSecretKeyMembers py ms = false → ms = ns
  | .nil, _ => rfl
  | .secret hkey _, hv => by
    rw [hasSecretKeyMembers, hasSecretKeyMember, hkey] at hv
    cases hv
  | .cons h hs, hv => by
    rw [hasSecretKeyMembers, hasSecretKeyMember, Bool.or_eq_false_iff, Bool.or_eq_false_iff] at hv
    rw [h.eq hv.1.2, hs.eq hv.2]

end

mutual

theorem similar_exchange : ∀ v : Value F, Similar py v (exchange py v)
  | .constant c => .constant c
  | .int n => .int n
  | .float x => .float x
  | .str s => .str s
  | .arr items => .arr (similarItems_exchange items)
  | .obj members => .obj (similarMembers_exchange members)

theorem similarItems_exchange : ∀ vs : List (Value F), SimilarItems py vs (exchangeItems py vs)
  | [] => .nil
  | v :: vs => .cons (similar_exchange v) (similarItems_exchange vs)

theorem similarMembers_exchange : ∀ ms : List (Text × Value F),
    SimilarMembers py ms (exchangeMembers py ms)
  | [] => .nil
  | (key, v) :: ms => by
    rw [exchangeMembers, exchangeMember]
    by_cases hkey : isSecretKey py key = true
    · exact .secret hkey (similarMembers_exchange ms)
    · rw [if_neg hkey]
      exact .cons (similar_exchange v) (similarMembers_exchange ms)

end

theorem arr_singleton_ne (v : Value F) : Value.arr [v] ≠ v := by
  intro h
  have hsize := congrArg sizeOf h
  simp only [Value.arr.sizeOf_spec, List.cons.sizeOf_spec, List.nil.sizeOf_spec] at hsize
  omega

mutual

/-- Other secrets make another value, if there are any. -/
theorem hasSecretKey_eq_false : ∀ {v : Value F}, exchange py v = v → hasSecretKey py v = false
  | .constant _, _ | .int _, _ | .float _, _ | .str _, _ => rfl
  | .arr items, h => by
    rw [exchange, Value.arr.injEq] at h
    exact hasSecretKeyItems_eq_false h
  | .obj members, h => by
    rw [exchange, Value.obj.injEq] at h
    exact hasSecretKeyMembers_eq_false h

theorem hasSecretKeyItems_eq_false : ∀ {vs : List (Value F)},
    exchangeItems py vs = vs → hasSecretKeyItems py vs = false
  | [], _ => rfl
  | v :: vs, h => by
    rw [exchangeItems, List.cons.injEq] at h
    rw [hasSecretKeyItems, hasSecretKey_eq_false h.1, hasSecretKeyItems_eq_false h.2]
    rfl

theorem hasSecretKeyMembers_eq_false : ∀ {ms : List (Text × Value F)},
    exchangeMembers py ms = ms → hasSecretKeyMembers py ms = false
  | [], _ => rfl
  | (key, v) :: ms, h => by
    rw [exchangeMembers, exchangeMember, List.cons.injEq, Prod.mk.injEq] at h
    obtain ⟨⟨_, hvalue⟩, hrest⟩ := h
    by_cases hkey : isSecretKey py key = true
    · rw [if_pos hkey] at hvalue
      exact absurd hvalue (arr_singleton_ne v)
    · rw [if_neg hkey] at hvalue
      rw [hasSecretKeyMembers, hasSecretKeyMember, hasSecretKey_eq_false hvalue,
        hasSecretKeyMembers_eq_false hrest, Bool.not_eq_true _ |>.mp hkey]
      rfl

end

end

end ExecutorService
