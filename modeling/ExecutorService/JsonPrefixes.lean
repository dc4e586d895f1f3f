/-
Reading a JSON text that goes on.

What the scanner reads from a text it also reads when more text follows, unless a number
stands at the end and the text continues it.  So a text that is an object has no shorter
one that reads as a value, and whitespace around a text does not matter.

* `Json.Extends` — a value is read in the same way from a longer text;
* `Json.loads_object_append` — what follows an object must be whitespace;
* `Json.loads_space_append` — whitespace in front of an object.
-/
import ExecutorService.JsonRoundTrip
import Mathlib

namespace Json

/-! ### Whitespace -/

theorem skipSpace_ne_nil {cs r : List Char} {c : Char} (h : skipSpace cs = c :: r) :
    skipSpace cs ≠ [] := by
  rw [h]
  exact List.cons_ne_nil _ _

theorem skipSpace_append {cs : List Char} (h : skipSpace cs ≠ []) (q : List Char) :
    skipSpace (cs ++ q) = skipSpace cs ++ q := by
  induction cs with
  | nil => exact absurd rfl h
  | cons c cs ih =>
    unfold skipSpace at h ih ⊢
    rw [List.cons_append, List.dropWhile_cons, List.dropWhile_cons] at *
    split
    · rename_i hc
      rw [if_pos hc] at h
      exact ih h
    · rfl

/-- What does not continue a number: a character after optional whitespace. -/
theorem ends_of_skipSpace {cs : List Char} {d : Char} {r : List Char} (h : skipSpace cs = d :: r)
    (hd : isDigit d = false ∧ d ≠ '.' ∧ d ≠ 'e' ∧ d ≠ 'E') : cs ≠ [] ∧ Ends cs := by
  cases cs with
  | nil => cases h
  | cons c cs =>
    refine ⟨List.cons_ne_nil _ _, ends_cons ?_ cs⟩
    unfold skipSpace at h
    rw [List.dropWhile_cons] at h
    split at h
    · rename_i hc
      simp only [isSpace, Bool.or_eq_true, beq_iff_eq] at hc
      rcases hc with ((rfl | rfl) | rfl) | rfl <;> decide
    · rw [(List.cons.inj h).1]
      exact hd

/-! ### Numbers -/

theorem digits_takeWhile (cs : List Char) : Digits (cs.takeWhile isDigit) :=
  fun _ hc => List.mem_takeWhile_imp hc

theorem scanInteger_sound {cs ds rest : List Char} (h : scanInteger cs = some (ds, rest)) :
    IsInteger ds ∧ cs = ds ++ rest := by
  cases cs with
  | nil => cases h
  | cons c cs =>
    rw [scanInteger] at h
    split at h
    · rename_i hc
      cases h
      exact ⟨.inl rfl, by rw [hc]; rfl⟩
    · rename_i hzero
      split at h
      · rename_i hdigit
        rw [List.span_eq_takeWhile_dropWhile, List.takeWhile_cons_of_pos hdigit,
          List.dropWhile_cons_of_pos hdigit] at h
        cases h
        exact ⟨.inr ⟨c, _, rfl, hdigit, hzero, digits_takeWhile cs⟩, by
          rw [List.cons_append, List.takeWhile_append_dropWhile]⟩
      · cases h

theorem scanFraction_sound (cs : List Char) :
    IsFraction (scanFraction cs).1 ∧ cs = (scanFraction cs).1 ++ (scanFraction cs).2 := by
  unfold scanFraction
  split
  · rename_i d cs
    split
    · rename_i hdigit
      rw [List.span_eq_takeWhile_dropWhile]
      refine ⟨.inr ⟨d, cs.takeWhile isDigit, ?_, ?_⟩, ?_⟩
      · rw [List.takeWhile_cons_of_pos hdigit]
      · rw [← List.takeWhile_cons_of_pos hdigit]
        exact digits_takeWhile _
      · rw [List.cons_append, List.takeWhile_append_dropWhile]
    · exact ⟨.inl rfl, rfl⟩
  · exact ⟨.inl rfl, rfl⟩

theorem scanSign_sound (cs : List Char) :
    ((scanSign cs).1 = [] ∨ (scanSign cs).1 = ['+'] ∨ (scanSign cs).1 = ['-']) ∧
      cs = (scanSign cs).1 ++ (scanSign cs).2 := by
  unfold scanSign
  split
  · exact ⟨.inr (.inl rfl), rfl⟩
  · exact ⟨.inr (.inr rfl), rfl⟩
  · exact ⟨.inl rfl, rfl⟩

theorem scanExponent_sound (cs : List Char) :
    IsExponent (scanExponent cs).1 ∧ cs = (scanExponent cs).1 ++ (scanExponent cs).2 := by
  unfold scanExponent
  split
  · rename_i e cs
    split
    · rename_i he
      obtain ⟨hsign, hsplit⟩ := scanSign_sound cs
      generalize (scanSign cs).1 = sign at hsign hsplit
      generalize (scanSign cs).2 = tail at hsplit
      subst hsplit
      unfold scanExponentDigits
      split
      · rename_i d cs
        split
        · rename_i hdigit
          rw [List.span_eq_takeWhile_dropWhile]
          refine ⟨.inr ⟨e, sign, d, cs.takeWhile isDigit, ?_, he, hsign, ?_⟩, ?_⟩
          · rw [List.takeWhile_cons_of_pos hdigit]
          · rw [← List.takeWhile_cons_of_pos hdigit]
            exact digits_takeWhile _
          · rw [List.cons_append, List.append_assoc, List.takeWhile_append_dropWhile]
        · exact ⟨.inl rfl, rfl⟩
      · exact ⟨.inl rfl, by simp⟩
    · exact ⟨.inl rfl, rfl⟩
  · exact ⟨.inl rfl, rfl⟩

/-- A literal that was read is one, in front of the rest. -/
theorem scanNumber_sound {cs rest : List Char} {l : Literal} (h : scanNumber cs = some (l, rest)) :
    l.Valid ∧ cs = l.text ++ rest := by
  have hparts : ∀ {negative : Bool} {cs integer tail : List Char},
      scanInteger cs = some (integer, tail) →
      l = ⟨negative, integer, (scanFraction tail).1, (scanExponent (scanFraction tail).2).1⟩ →
      rest = (scanExponent (scanFraction tail).2).2 →
      l.Valid ∧ (if negative then ['-'] else []) ++ cs = l.text ++ rest := by
    rintro negative cs integer tail hinteger rfl rfl
    obtain ⟨hvalid, hcs⟩ := scanInteger_sound hinteger
    obtain ⟨hfraction, htail⟩ := scanFraction_sound tail
    obtain ⟨hexponent, htail'⟩ := scanExponent_sound (scanFraction tail).2
    refine ⟨⟨hvalid, hfraction, hexponent⟩, ?_⟩
    rw [hcs]
    simp only [Literal.text, List.append_assoc]
    rw [← htail', ← htail]
  unfold scanNumber at h
  split at h
  rename_i negative cs' hsign
  simp only [Option.bind_eq_bind, Option.bind_eq_some_iff, Option.pure_def, Option.some.injEq,
    Prod.mk.injEq] at h
  obtain ⟨⟨integer, tail⟩, hinteger, hl, hrest⟩ := h
  obtain ⟨hvalid, htext⟩ := hparts hinteger hl.symm hrest.symm
  refine ⟨hvalid, ?_⟩
  rw [← htext]
  split at hsign
  · cases hsign
    rfl
  · cases hsign
    rfl

/-! ### Strings -/

theorem scanHex4_append {cs rest : List Char} {n : ℕ} (h : scanHex4 cs = some (n, rest))
    (q : List Char) : scanHex4 (cs ++ q) = some (n, rest ++ q) := by
  match cs, h with
  | a :: b :: c :: d :: tail, h =>
    simp only [scanHex4, Option.bind_eq_bind, Option.bind_eq_some_iff, Option.pure_def,
      Option.some.injEq, Prod.mk.injEq, List.cons_append] at h ⊢
    obtain ⟨a, ha, b, hb, c, hc, d, hd, hn, rfl⟩ := h
    exact ⟨a, ha, b, hb, c, hc, d, hd, hn, rfl⟩

theorem scanUnicode_append {cs rest : List Char} {c : Char} (h : scanUnicode cs = some (c, rest))
    (q : List Char) : scanUnicode (cs ++ q) = some (c, rest ++ q) := by
  simp only [scanUnicode, Option.bind_eq_bind, Option.bind_eq_some_iff] at h ⊢
  obtain ⟨⟨n, tail⟩, hn, h⟩ := h
  refine ⟨(n, tail ++ q), scanHex4_append hn q, ?_⟩
  simp only at h ⊢
  split at h
  · rename_i hhigh
    rw [if_pos hhigh]
    split at h
    · rename_i tail'
      simp only [Option.bind_eq_some_iff] at h
      obtain ⟨⟨m, tail''⟩, hm, h⟩ := h
      simp only [List.cons_append, scanHex4_append hm q, Option.bind_some]
      simp only at h
      split at h
      · rename_i hlow
        rw [if_pos hlow]
        simp only [Option.pure_def, Option.some.injEq, Prod.mk.injEq] at h ⊢
        exact ⟨h.1, by rw [h.2]⟩
      · cases h
    · cases h
  · rename_i hhigh
    rw [if_neg hhigh]
    split at h
    · cases h
    · rename_i hlow
      rw [if_neg hlow]
      cases h
      rfl

theorem scanEscape_append {cs rest : List Char} {c : Char} (h : scanEscape cs = some (c, rest))
    (q : List Char) : scanEscape (cs ++ q) = some (c, rest ++ q) := by
  unfold scanEscape at h
  split at h
  all_goals first
    | (cases h; rfl)
    | exact scanUnicode_append h q
    | cases h

theorem scanString_append {fuel fuel' : ℕ} (hfuel : fuel ≤ fuel') {cs s rest : List Char}
    (h : scanString fuel cs = some (s, rest)) (q : List Char) :
    scanString fuel' (cs ++ q) = some (s, rest ++ q) := by
  induction fuel generalizing fuel' cs s with
  | zero => cases h
  | succ fuel ih =>
    obtain ⟨fuel', rfl⟩ : ∃ m, fuel' = m + 1 := ⟨fuel' - 1, by omega⟩
    cases cs with
    | nil => cases h
    | cons c cs =>
      rw [scanString] at h
      rw [List.cons_append, scanString]
      split at h
      · rename_i hquote
        rw [if_pos hquote]
        cases h
        rfl
      · rename_i hquote
        rw [if_neg hquote]
        split at h
        · rename_i hback
          rw [if_pos hback]
          simp only [Option.bind_eq_bind, Option.bind_eq_some_iff] at h
          obtain ⟨⟨e, tail⟩, he, ⟨s', rest'⟩, hs, h⟩ := h
          cases h
          have hle : fuel ≤ fuel' := by omega
          simp only [scanEscape_append he q, ih hle hs, Option.bind_eq_bind, Option.bind_some,
            Option.pure_def]
        · rename_i hback
          rw [if_neg hback]
          split at h
          · cases h
          · rename_i hcontrol
            rw [if_neg hcontrol]
            simp only [Option.bind_eq_bind, Option.bind_eq_some_iff] at h
            obtain ⟨⟨s', rest'⟩, hs, h⟩ := h
            cases h
            have hle : fuel ≤ fuel' := by omega
            simp only [ih hle hs, Option.bind_eq_bind, Option.bind_some, Option.pure_def]

/-! ### Values -/

variable {F : Type} (t : FloatText F)

/-- The value is a number. -/
def Value.isNumber : Value F → Bool
  | .int _ | .float _ => true
  | _ => false

theorem scanConstant_sound {cs rest : List Char} {c : Constant}
    (h : scanConstant cs = some (c, rest)) : cs = c.text ++ rest := by
  unfold scanConstant at h
  obtain ⟨k, _, hk⟩ := List.exists_of_findSome?_eq_some h
  rw [Option.map_eq_some_iff] at hk
  obtain ⟨tail, htail, heq⟩ := hk
  cases heq
  obtain ⟨p, hcs, hp⟩ := List.dropPrefix?_eq_some_iff.mp htail
  rw [hcs, eq_of_beq hp]

/-- Reading with fuel `n` reads the same with more fuel and more text. -/
structure Extends (n : ℕ) : Prop where
  value : ∀ {cs rest : List Char} {v : Value F}, scan t n cs = some (v, rest) →
    (v.isNumber = true → rest ≠ [] ∧ Ends rest) → ∀ {m : ℕ}, n ≤ m → ∀ q,
      scan t m (cs ++ q) = some (v, rest ++ q)
  items : ∀ {cs rest : List Char} {vs : List (Value F)}, scanItems t n cs = some (vs, rest) →
    ∀ {m : ℕ}, n ≤ m → ∀ q, scanItems t m (cs ++ q) = some (vs, rest ++ q)
  members : ∀ {cs rest : List Char} {ms : List (List Char × Value F)},
    scanMembers t n cs = some (ms, rest) →
      ∀ {m : ℕ}, n ≤ m → ∀ q, scanMembers t m (cs ++ q) = some (ms, rest ++ q)

theorem ends_append {rest : List Char} (h : rest ≠ [] ∧ Ends rest) (q : List Char) :
    Ends (rest ++ q) := by
  obtain ⟨hne, hends⟩ := h
  cases rest with
  | nil => exact absurd rfl hne
  | cons c rest => exact ends_cons (hends c rfl) _

variable {t}

theorem scan_nil (n : ℕ) : scan t n [] = none := by
  cases n <;> rw [scan]

theorem scanItems_nil (n : ℕ) : scanItems t n [] = none := by
  cases n with
  | zero => rw [scanItems]
  | succ n => simp only [scanItems, scan_nil, Option.bind_eq_bind, Option.bind_none]

theorem scanMembers_nil (n : ℕ) : scanMembers t n [] = none := by
  cases n <;> simp [scanMembers]

theorem Extends.value_succ {n : ℕ} (ih : Extends t n) {cs rest : List Char} {v : Value F}
    (h : scan t (n + 1) cs = some (v, rest)) (hnumber : v.isNumber = true → rest ≠ [] ∧ Ends rest)
    {m : ℕ} (hle : n ≤ m) (q : List Char) : scan t (m + 1) (cs ++ q) = some (v, rest ++ q) := by
  cases cs with
  | nil => cases h
  | cons c cs =>
    -- A bracket that the first character after the whitespace is not.
    have hother : ∀ {d : Char}, skipSpace cs ≠ [] → (∀ r, skipSpace cs = d :: r → False) →
        ∀ r, skipSpace cs ++ q = d :: r → False := by
      intro d hne hnot r hr
      obtain ⟨e, s, hs⟩ := List.exists_cons_of_ne_nil hne
      rw [hs] at hr
      exact hnot s (by rw [hs, (List.cons.inj hr).1])
    -- The scanner's branches in their order, each of which only looks at what it has consumed.
    rw [scan] at h
    split at h
    · rename_i hquote
      rw [List.cons_append, scan, if_pos hquote]
      rw [Option.map_eq_some_iff] at h ⊢
      obtain ⟨⟨s, tail⟩, hs, heq⟩ := h
      cases heq
      refine ⟨(s, rest ++ q), scanString_append ?_ hs q, rfl⟩
      rw [List.length_append]
      omega
    rename_i hquote
    split at h
    · rename_i hbracket
      rw [List.cons_append, scan, if_neg hquote, if_pos hbracket]
      -- An array: empty, or its items by induction.
      split at h
      · rename_i r hclose
        cases h
        rw [skipSpace_append (skipSpace_ne_nil hclose), hclose]
        rfl
      · rename_i hopen
        rw [Option.map_eq_some_iff] at h
        obtain ⟨⟨vs, tail⟩, hvs, heq⟩ := h
        cases heq
        have hne : skipSpace cs ≠ [] := fun hnil => by
          rw [hnil, scanItems_nil] at hvs
          cases hvs
        rw [skipSpace_append hne]
        split
        · rename_i r hr
          exact (hother hne hopen r hr).elim
        · rw [ih.items hvs hle q]
          rfl
    rename_i hbracket
    split at h
    · rename_i hbrace
      rw [List.cons_append, scan, if_neg hquote, if_neg hbracket, if_pos hbrace]
      -- An object: empty, or its members by induction.
      split at h
      · rename_i r hclose
        cases h
        rw [skipSpace_append (skipSpace_ne_nil hclose), hclose]
        rfl
      · rename_i hopen
        rw [Option.map_eq_some_iff] at h
        obtain ⟨⟨ms, tail⟩, hms, heq⟩ := h
        cases heq
        have hne : skipSpace cs ≠ [] := fun hnil => by
          rw [hnil, scanMembers_nil] at hms
          cases hms
        rw [skipSpace_append hne]
        split
        · rename_i r hr
          exact (hother hne hopen r hr).elim
        · rw [ih.members hms hle q]
          rfl
    rename_i hbrace
    split at h
    · -- A literal, which nothing continues.
      rename_i l tail hl
      cases h
      obtain ⟨hvalid, htext⟩ := scanNumber_sound hl
      have hnum : (l.value t).isNumber = true := by
        unfold Literal.value
        split <;> rfl
      rw [htext, List.append_assoc]
      exact scan_literal t hvalid m (ends_append (hnumber hnum) q)
    · -- One of the constants that Python's parser also reads.
      rw [Option.map_eq_some_iff] at h
      obtain ⟨⟨k, tail⟩, hk, heq⟩ := h
      cases heq
      rw [scanConstant_sound hk, List.append_assoc]
      exact scan_constant t k m _

theorem Extends.items_succ {n : ℕ} (ih : Extends t n) {cs rest : List Char} {vs : List (Value F)}
    (h : scanItems t (n + 1) cs = some (vs, rest)) {m : ℕ} (hle : n ≤ m) (q : List Char) :
    scanItems t (m + 1) (cs ++ q) = some (vs, rest ++ q) := by
  simp only [scanItems, Option.bind_eq_bind, Option.bind_eq_some_iff] at h
  obtain ⟨⟨v, cs'⟩, hv, h⟩ := h
  simp only at h
  split at h
  · rename_i r hss
    cases h
    have hends := ends_of_skipSpace hss (by decide)
    simp only [scanItems, ih.value hv (fun _ => hends) hle q, Option.bind_eq_bind, Option.bind_some,
      skipSpace_append (skipSpace_ne_nil hss) q, hss]
    rfl
  · rename_i r hss
    obtain ⟨⟨vs', tail⟩, hvs, h⟩ := Option.bind_eq_some_iff.mp h
    cases h
    have hends := ends_of_skipSpace hss (by decide)
    have hne : skipSpace r ≠ [] := fun hnil => by
      rw [hnil, scanItems_nil] at hvs
      cases hvs
    simp only [scanItems, ih.value hv (fun _ => hends) hle q, Option.bind_eq_bind, Option.bind_some,
      skipSpace_append (skipSpace_ne_nil hss) q, hss,
      List.cons_append, skipSpace_append hne q, ih.items hvs hle q]
    rfl
  · cases h

theorem Extends.members_succ {n : ℕ} (ih : Extends t n) {cs rest : List Char}
    {ms : List (List Char × Value F)} (h : scanMembers t (n + 1) cs = some (ms, rest)) {m : ℕ}
    (hle : n ≤ m) (q : List Char) : scanMembers t (m + 1) (cs ++ q) = some (ms, rest ++ q) := by
  unfold scanMembers at h
  split at h
  · rename_i cs
    simp only [Option.bind_eq_bind, Option.bind_eq_some_iff] at h
    obtain ⟨⟨k, cs₁⟩, hk, h⟩ := h
    simp only at h
    split at h
    · rename_i cs₂ hcolon
      obtain ⟨⟨v, cs₃⟩, hv, h⟩ := Option.bind_eq_some_iff.mp h
      have hfuel : cs.length + 1 ≤ (cs ++ q).length + 1 := by
        rw [List.length_append]
        omega
      have hkey := scanString_append hfuel hk q
      have hne : skipSpace cs₂ ≠ [] := fun hnil => by
        rw [hnil, scan_nil] at hv
        cases hv
      have hstart : ∀ ends : cs₃ ≠ [] ∧ Ends cs₃, scan t m (skipSpace (cs₂ ++ q)) =
          some (v, cs₃ ++ q) := fun ends => by
        rw [skipSpace_append hne]
        exact ih.value hv (fun _ => ends) hle q
      simp only [List.cons_append, scanMembers, hkey, Option.bind_eq_bind, Option.bind_some,
        skipSpace_append (skipSpace_ne_nil hcolon) q, hcolon]
      simp only at h
      split at h
      · rename_i r hss
        cases h
        simp only [hstart (ends_of_skipSpace hss (by decide)), Option.bind_some,
          skipSpace_append (skipSpace_ne_nil hss) q, hss]
        rfl
      · rename_i r hss
        obtain ⟨⟨ms', tail⟩, hms, h⟩ := Option.bind_eq_some_iff.mp h
        cases h
        have hmore : skipSpace r ≠ [] := fun hnil => by
          rw [hnil, scanMembers_nil] at hms
          cases hms
        simp only [hstart (ends_of_skipSpace hss (by decide)), Option.bind_some,
          skipSpace_append (skipSpace_ne_nil hss) q, hss,
          List.cons_append, skipSpace_append hmore q, ih.members hms hle q]
        rfl
      · cases h
    · cases h
  · cases h

theorem extends_all (n : ℕ) : Extends t n := by
  induction n with
  | zero =>
    constructor
    · intro cs rest v h
      rw [scan] at h
      cases h
    · intro cs rest vs h
      rw [scanItems] at h
      cases h
    · intro cs rest ms h
      rw [scanMembers] at h
      cases h
  | succ n ih =>
    have hsucc : ∀ {m : ℕ}, n + 1 ≤ m → ∃ m', m = m' + 1 ∧ n ≤ m' := fun {m} h =>
      ⟨m - 1, by omega, by omega⟩
    constructor
    · intro cs rest v h hnumber m hle q
      obtain ⟨m, rfl, hle'⟩ := hsucc hle
      exact ih.value_succ h hnumber hle' q
    · intro cs rest vs h m hle q
      obtain ⟨m, rfl, hle'⟩ := hsucc hle
      exact ih.items_succ h hle' q
    · intro cs rest ms h m hle q
      obtain ⟨m, rfl, hle'⟩ := hsucc hle
      exact ih.members_succ h hle' q

/-! ### Objects -/

theorem skipSpace_of_nil {cs q : List Char} (h : skipSpace cs = []) :
    skipSpace (cs ++ q) = skipSpace q := by
  unfold skipSpace at h ⊢
  exact List.dropWhile_append_of_pos (by simpa using List.dropWhile_eq_nil_iff.mp h)

/-- What follows an object must be whitespace. -/
theorem loads_object_append {cs q : List Char} {ms : List (List Char × Value F)}
    (h : loads t cs = some (.obj ms)) :
    loads t (cs ++ q) = if skipSpace q = [] then some (.obj ms) else none := by
  simp only [loads, Option.bind_eq_bind, Option.bind_eq_some_iff] at h
  obtain ⟨⟨v, rest⟩, hscan, h⟩ := h
  simp only at h
  split at h
  · rename_i hrest
    cases h
    have hne : skipSpace cs ≠ [] := fun hnil => by
      rw [hnil, scan_nil] at hscan
      cases hscan
    have hlonger := (extends_all (2 * cs.length + 2)).value hscan (fun hnumber => by cases hnumber)
      (m := 2 * (cs ++ q).length + 2) (by rw [List.length_append]; omega) q
    simp only [loads, skipSpace_append hne, hlonger, Option.bind_eq_bind, Option.bind_some,
      skipSpace_of_nil hrest]
  · cases h

/-- Whitespace in front of an object. -/
theorem loads_space_append {ws cs : List Char} (hws : skipSpace ws = [])
    {ms : List (List Char × Value F)} (h : loads t cs = some (.obj ms)) :
    loads t (ws ++ cs) = some (.obj ms) := by
  simp only [loads, Option.bind_eq_bind, Option.bind_eq_some_iff] at h
  obtain ⟨⟨v, rest⟩, hscan, h⟩ := h
  simp only at h
  split at h
  · rename_i hrest
    cases h
    have hlonger := (extends_all (2 * cs.length + 2)).value hscan (fun hnumber => by cases hnumber)
      (m := 2 * (ws ++ cs).length + 2) (by rw [List.length_append]; omega) []
    rw [List.append_nil, List.append_nil] at hlonger
    simp only [loads, skipSpace_of_nil hws, hlonger, Option.bind_eq_bind, Option.bind_some, hrest,
      if_true]
  · cases h

end Json
