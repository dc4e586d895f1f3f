/-
The round trip of JSON texts.

A value is read by the function that reads its kind: characters and escapes, then
number literals, then values with the fuel `Value.cost` (`Reads`), by induction on
the fuel.

* `Json.loads_dumps` — reading what was written gives the value back, with its
  members sorted by key if they were written so;
* `Json.length_of_loads_str` — a text that reads as a string is longer than it.
-/
import ExecutorService.Json
import Mathlib.Data.Nat.Digits.Lemmas
import Mathlib.Tactic.Ring

namespace Json

/-! ### Characters -/

/-- What follows a literal does not continue it. -/
def Ends (rest : List Char) : Prop :=
  ∀ c ∈ rest.head?, isDigit c = false ∧ c ≠ '.' ∧ c ≠ 'e' ∧ c ≠ 'E'

theorem span_digits {ds rest : List Char} (hds : Digits ds)
    (hrest : ∀ c ∈ rest.head?, isDigit c = false) : (ds ++ rest).span isDigit = (ds, rest) := by
  rw [List.span_eq_takeWhile_dropWhile]
  have htake : (ds ++ rest).takeWhile isDigit = ds := by
    rw [List.takeWhile_append_of_pos hds]
    cases rest with
    | nil => simp
    | cons c rest => simp [hrest c rfl]
  have hdrop : (ds ++ rest).dropWhile isDigit = rest := by
    rw [List.dropWhile_append_of_pos hds]
    cases rest with
    | nil => rfl
    | cons c rest => simp [hrest c rfl]
  rw [htake, hdrop]

theorem hexValue_hexDigit : ∀ n < 16, hexValue (hexDigit n) = some n := by
  decide

theorem scanHex4_hex4 {n : ℕ} (h : n < 0x10000) (rest : List Char) :
    scanHex4 (hex4 n ++ rest) = some (n, rest) := by
  have digit : ∀ m, hexValue (hexDigit (m % 16)) = some (m % 16) :=
    fun m => hexValue_hexDigit _ (Nat.mod_lt m (by decide))
  show scanHex4 (_ :: _ :: _ :: _ :: rest) = _
  simp only [scanHex4, digit, Option.bind_eq_bind, Option.bind_some, Option.pure_def,
    Option.some.injEq, Prod.mk.injEq, and_true]
  omega

theorem not_surrogate (c : Char) : ¬ (0xD800 ≤ c.toNat ∧ c.toNat ≤ 0xDFFF) := by
  have h := c.valid
  rcases h with h | ⟨h, _⟩
  · have : c.toNat < 0xD800 := h
    omega
  · have : 0xDFFF < c.toNat := h
    omega

theorem toNat_lt (c : Char) : c.toNat < 0x110000 := by
  have h := c.valid
  rcases h with h | ⟨_, h⟩
  · have : c.toNat < 0xD800 := h
    omega
  · exact h

/-- A character of the basic plane after `\u`. -/
theorem scanUnicode_plane {n : ℕ} (h : n < 0x10000) (hs : ¬ (0xD800 ≤ n ∧ n ≤ 0xDFFF))
    (rest : List Char) : scanUnicode (hex4 n ++ rest) = some (Char.ofNat n, rest) := by
  have hhigh : ¬ (0xD800 ≤ n ∧ n ≤ 0xDBFF) := by omega
  have hlow : ¬ (0xDC00 ≤ n ∧ n ≤ 0xDFFF) := by omega
  simp only [scanUnicode, scanHex4_hex4 h, Option.bind_eq_bind, Option.bind_some, if_neg hhigh,
    if_neg hlow, Option.pure_def]

/-- The two halves of a surrogate pair after `\u`. -/
theorem scanUnicode_pair {high low : ℕ} (hhigh : 0xD800 ≤ high ∧ high ≤ 0xDBFF)
    (hlow : 0xDC00 ≤ low ∧ low ≤ 0xDFFF) (rest : List Char) :
    scanUnicode (hex4 high ++ '\\' :: 'u' :: (hex4 low ++ rest)) =
      some (Char.ofNat (0x10000 + ((high - 0xD800) * 0x400 + (low - 0xDC00))), rest) := by
  have h : high < 0x10000 := by omega
  have h' : low < 0x10000 := by omega
  simp only [scanUnicode, scanHex4_hex4 h, scanHex4_hex4 h', Option.bind_eq_bind,
    Option.bind_some, if_pos hhigh, if_pos hlow, Option.pure_def]

/-- Reading an escape gives its character. -/
theorem scanEscape_unicodeEscape (c : Char) (rest : List Char) :
    ∃ tail, unicodeEscape c.toNat ++ rest = '\\' :: tail ∧ scanEscape tail = some (c, rest) := by
  have hsurrogate := not_surrogate c
  have hlt := toNat_lt c
  unfold unicodeEscape
  split
  · rename_i hplane
    refine ⟨'u' :: (hex4 c.toNat ++ rest), rfl, ?_⟩
    rw [scanEscape, scanUnicode_plane hplane hsurrogate, Char.ofNat_toNat]
  · rename_i hplane
    refine ⟨'u' :: (hex4 (0xD800 + (c.toNat - 0x10000) / 0x400) ++
      '\\' :: 'u' :: (hex4 (0xDC00 + (c.toNat - 0x10000) % 0x400) ++ rest)), ?_, ?_⟩
    · rw [List.cons_append, List.cons_append, List.append_assoc, List.cons_append,
        List.cons_append]
    have hnat : 0x10000 + ((0xD800 + (c.toNat - 0x10000) / 0x400 - 0xD800) * 0x400 +
        (0xDC00 + (c.toNat - 0x10000) % 0x400 - 0xDC00)) = c.toNat := by omega
    rw [scanEscape, scanUnicode_pair (by omega) (by omega), hnat, Char.ofNat_toNat]

theorem scanString_escape (ensureAscii : Bool) (fuel : ℕ) (c : Char) (rest : List Char) :
    scanString (fuel + 1) (escape ensureAscii c ++ rest) =
      (scanString fuel rest).map fun p => (c :: p.1, p.2) := by
  -- Every escape starts with a backslash and reads as its character.
  have escaped : ∀ {tail : List Char}, scanEscape tail = some (c, rest) →
      scanString (fuel + 1) ('\\' :: tail) =
        (scanString fuel rest).map fun p => (c :: p.1, p.2) := by
    intro tail htail
    simp only [scanString, htail, Option.bind_eq_bind, Option.bind_some]
    cases scanString fuel rest <;> rfl
  have control : ∀ n : ℕ, c.toNat = n → n.isValidChar → c = Char.ofNat n := by
    intro n hn _
    rw [← hn, Char.ofNat_toNat]
  unfold escape
  -- The branches of `escape` in their order: the two-letter escapes, the others and the plain
  -- characters.
  split
  · rename_i h
    subst h
    exact escaped rfl
  split
  · rename_i h
    subst h
    exact escaped rfl
  split
  · rename_i h
    subst h
    exact escaped rfl
  split
  · rename_i h
    subst h
    exact escaped rfl
  split
  · rename_i h
    subst h
    exact escaped rfl
  split
  · rename_i h
    have hc := control 0x0C h (by decide)
    subst hc
    exact escaped rfl
  split
  · rename_i h
    have hc := control 0x08 h (by decide)
    subst hc
    exact escaped rfl
  split
  · -- A control character or one outside ASCII, as one or two escapes of four digits.
    obtain ⟨tail, htail, hscan⟩ := scanEscape_unicodeEscape c rest
    rw [htail]
    exact escaped hscan
  · -- A plain character ends no string and starts no escape.
    rename_i hquote hbackslash _ _ _ _ _ hplain
    have hprint : ¬ c.toNat < 0x20 := fun h => hplain (.inl h)
    show scanString (fuel + 1) (c :: rest) = _
    simp only [scanString, if_neg hquote, if_neg hbackslash, if_neg hprint, Option.bind_eq_bind]
    cases scanString fuel rest <;> rfl

theorem scanString_dump (ensureAscii : Bool) (s rest : List Char) {fuel : ℕ}
    (h : s.length < fuel) :
    scanString fuel (s.flatMap (escape ensureAscii) ++ '"' :: rest) = some (s, rest) := by
  induction s generalizing fuel with
  | nil =>
    obtain ⟨fuel, rfl⟩ := Nat.exists_eq_succ_of_ne_zero (Nat.pos_iff_ne_zero.mp h)
    rfl
  | cons c s ih =>
    obtain ⟨fuel, rfl⟩ := Nat.exists_eq_succ_of_ne_zero (Nat.pos_iff_ne_zero.mp (Nat.zero_lt_of_lt h))
    rw [List.flatMap_cons, List.append_assoc, scanString_escape, ih (Nat.lt_of_succ_lt_succ h)]
    rfl

/-! ### Numbers -/

theorem isDigit_ofNat : ∀ d < 10, isDigit (Char.ofNat ('0'.toNat + d)) = true := by
  decide

theorem toNat_ofNat : ∀ d < 10, (Char.ofNat ('0'.toNat + d)).toNat - '0'.toNat = d := by
  decide

theorem ofNat_ne_zero : ∀ d < 10, d ≠ 0 → Char.ofNat ('0'.toNat + d) ≠ '0' := by
  decide

theorem ofDigits_append (ds : List Char) (c : Char) :
    ofDigits (ds ++ [c]) = ofDigits ds * 10 + (c.toNat - '0'.toNat) := by
  simp [ofDigits]

theorem ofDigits_reverse {ds : List ℕ} (h : ∀ d ∈ ds, d < 10) :
    ofDigits (ds.reverse.map fun d => Char.ofNat ('0'.toNat + d)) = Nat.ofDigits 10 ds := by
  induction ds with
  | nil => rfl
  | cons d ds ih =>
    rw [List.reverse_cons, List.map_append, List.map_singleton, ofDigits_append,
      ih fun d' hd' => h d' (List.mem_cons_of_mem _ hd'), toNat_ofNat d (h d List.mem_cons_self),
      Nat.ofDigits_cons]
    ring

theorem ofDigits_dumpNat (n : ℕ) : ofDigits (dumpNat n) = n := by
  unfold dumpNat
  split
  · rename_i h
    rw [h]
    rfl
  · rw [ofDigits_reverse fun d hd => Nat.digits_lt_base (by decide) hd, Nat.ofDigits_digits]

theorem isInteger_dumpNat (n : ℕ) : IsInteger (dumpNat n) := by
  unfold dumpNat
  split
  · exact .inl rfl
  rename_i h
  have hlt : ∀ d ∈ Nat.digits 10 n, d < 10 := fun d hd => Nat.digits_lt_base (by decide) hd
  have hne : Nat.digits 10 n ≠ [] := Nat.digits_ne_nil_iff_ne_zero.mpr h
  have hlast := Nat.getLast_digit_ne_zero 10 h
  -- The first character is the last digit, which is not zero.
  obtain ⟨ds, d, hds⟩ := List.eq_nil_or_concat (Nat.digits 10 n) |>.resolve_left hne
  have hd : d ≠ 0 := by
    simpa [hds] using hlast
  have hmem : d ∈ Nat.digits 10 n := by simp [hds]
  refine .inr ⟨Char.ofNat ('0'.toNat + d), ds.reverse.map fun d => Char.ofNat ('0'.toNat + d),
    by simp [hds], isDigit_ofNat d (hlt d hmem), ofNat_ne_zero d (hlt d hmem) hd, ?_⟩
  intro c hc
  simp only [List.mem_map, List.mem_reverse] at hc
  obtain ⟨d', hd', rfl⟩ := hc
  exact isDigit_ofNat d' (hlt d' (by simp [hds, hd']))

/-- The literal of an integer. -/
def intLiteral (n : ℤ) : Literal where
  negative := decide (n < 0)
  integer := dumpNat n.natAbs
  fraction := []
  exponent := []

theorem intLiteral_text (n : ℤ) : (intLiteral n).text = dumpInt n := by
  cases n with
  | ofNat n => simp [intLiteral, Literal.text, dumpInt]
  | negSucc n =>
    have h : Int.negSucc n < 0 := Int.negSucc_lt_zero n
    simp [intLiteral, Literal.text, dumpInt, h, Int.natAbs_negSucc]

theorem intLiteral_valid (n : ℤ) : (intLiteral n).Valid :=
  ⟨isInteger_dumpNat _, .inl rfl, .inl rfl⟩

theorem intLiteral_value {F : Type} (t : FloatText F) (n : ℤ) :
    (intLiteral n).value t = .int n := by
  rw [Literal.value, if_pos ⟨rfl, rfl⟩]
  simp only [intLiteral, ofDigits_dumpNat, decide_eq_true_eq]
  split <;> congr 1 <;> omega

theorem scanInteger_append {ds rest : List Char} (h : IsInteger ds)
    (hrest : ∀ c ∈ rest.head?, isDigit c = false) :
    scanInteger (ds ++ rest) = some (ds, rest) := by
  rcases h with rfl | ⟨c, tail, rfl, hc, hzero, htail⟩
  · rfl
  · have hdigits : Digits (c :: tail) := by
      intro d hd
      rcases List.mem_cons.mp hd with rfl | hd
      · exact hc
      · exact htail d hd
    have hspan := span_digits hdigits hrest
    rw [List.cons_append] at hspan ⊢
    rw [scanInteger, if_neg hzero, if_pos hc, hspan]

theorem scanFraction_append {l rest : List Char} (h : IsFraction l)
    (hrest : ∀ c ∈ rest.head?, isDigit c = false ∧ c ≠ '.') :
    scanFraction (l ++ rest) = (l, rest) := by
  rcases h with rfl | ⟨d, ds, rfl, hds⟩
  · cases rest with
    | nil => rfl
    | cons c rest =>
      rw [List.nil_append, scanFraction]
      exact fun d cs hd => (hrest c rfl).2 (List.cons.inj hd).1
  · have hspan : (d :: ds ++ rest).span isDigit = (d :: ds, rest) :=
      span_digits hds fun c hc => (hrest c hc).1
    rw [List.cons_append] at hspan
    rw [List.cons_append, List.cons_append, scanFraction, if_pos (hds d List.mem_cons_self), hspan]

theorem scanExponent_append {l rest : List Char} (h : IsExponent l)
    (hrest : ∀ c ∈ rest.head?, isDigit c = false ∧ c ≠ 'e' ∧ c ≠ 'E') :
    scanExponent (l ++ rest) = (l, rest) := by
  rcases h with rfl | ⟨e, sign, d, ds, rfl, he, hsign, hds⟩
  · cases rest with
    | nil => rfl
    | cons c rest =>
      rw [List.nil_append, scanExponent, if_neg]
      exact fun h => h.elim (hrest c rfl).2.1 (hrest c rfl).2.2
  · have hspan : (d :: ds ++ rest).span isDigit = (d :: ds, rest) :=
      span_digits hds fun c hc => (hrest c hc).1
    rw [List.cons_append] at hspan
    have hd := hds d List.mem_cons_self
    have digits : ∀ whole, scanExponentDigits e sign whole (d :: (ds ++ rest)) =
        (e :: (sign ++ d :: ds), rest) := by
      intro whole
      rw [scanExponentDigits, if_pos hd, hspan]
    have hscan : scanSign (sign ++ d :: (ds ++ rest)) = (sign, d :: (ds ++ rest)) := by
      rcases hsign with rfl | rfl | rfl
      · -- Without a sign the first digit is neither sign.
        rw [List.nil_append, scanSign]
        · rintro cs h
          rw [(List.cons.inj h).1] at hd
          cases hd
        · rintro cs h
          rw [(List.cons.inj h).1] at hd
          cases hd
      · rfl
      · rfl
    rw [List.cons_append, List.append_assoc, List.cons_append, scanExponent, if_pos he, hscan]
    exact digits _

/-- Reading a literal gives its parts, if nothing continues it. -/
theorem scanNumber_text {l : Literal} (h : l.Valid) {rest : List Char} (hrest : Ends rest) :
    scanNumber (l.text ++ rest) = some (l, rest) := by
  obtain ⟨negative, integer, fraction, exponent⟩ := l
  obtain ⟨hinteger, hfraction, hexponent⟩ := h
  have hexp := scanExponent_append hexponent fun c hc => ⟨(hrest c hc).1, (hrest c hc).2.2⟩
  -- What follows the fraction and what follows the integer start no digit.
  have afterFraction : ∀ c ∈ (exponent ++ rest).head?, isDigit c = false ∧ c ≠ '.' := by
    rcases hexponent with rfl | ⟨e, sign, d, ds, rfl, he, _⟩
    · exact fun c hc => ⟨(hrest c hc).1, (hrest c hc).2.1⟩
    · intro c hc
      cases hc
      rcases he with rfl | rfl <;> decide
  have hfrac := scanFraction_append hfraction afterFraction
  have afterInteger : ∀ c ∈ (fraction ++ (exponent ++ rest)).head?, isDigit c = false := by
    rcases hfraction with rfl | ⟨d, ds, rfl, _⟩
    · exact fun c hc => (afterFraction c hc).1
    · intro c hc
      cases hc
      decide
  have hint := scanInteger_append hinteger afterInteger
  -- An integer never starts with a minus sign.
  have hsign : ∀ tail, integer ++ tail ≠ [] ∧ ∀ cs, integer ++ tail ≠ '-' :: cs := by
    intro tail
    rcases hinteger with rfl | ⟨c, ds, rfl, hc, _, _⟩
    · exact ⟨by simp, fun cs h => by cases h⟩
    · refine ⟨by simp, fun cs h => ?_⟩
      rw [List.cons_append] at h
      rw [(List.cons.inj h).1] at hc
      cases hc
  have htext : Literal.text ⟨negative, integer, fraction, exponent⟩ ++ rest =
      (if negative then ['-'] else []) ++ (integer ++ (fraction ++ (exponent ++ rest))) := by
    simp [Literal.text, List.append_assoc]
  rw [htext]
  cases negative with
  | true =>
    simp only [if_true, List.singleton_append, scanNumber, hint, hfrac, hexp, Option.bind_eq_bind,
      Option.bind_some, Option.pure_def]
  | false =>
    simp only [Bool.false_eq_true, if_false, List.nil_append, scanNumber]
    split
    · rename_i cs heq
      exact absurd heq ((hsign _).2 cs)
    · simp only [hint, hfrac, hexp, Option.bind_eq_bind, Option.bind_some, Option.pure_def]

/-! ### Round trip -/

section

variable {F : Type}

mutual

/-- The keys of every object are distinct, as those of a `dict` are. -/
def Value.Distinct : Value F → Prop
  | .arr items => distinctItems items
  | .obj members => (members.map (·.1)).Nodup ∧ distinctMembers members
  | .constant _ | .int _ | .float _ | .str _ => True

/-- No object in the items has a key twice. -/
def Value.distinctItems : List (Value F) → Prop
  | [] => True
  | v :: vs => v.Distinct ∧ distinctItems vs

/-- No object in the members has a key twice. -/
def Value.distinctMembers : List (List Char × Value F) → Prop
  | [] => True
  | m :: ms => distinctMember m ∧ distinctMembers ms

/-- No object in the value has a key twice. -/
def Value.distinctMember : List Char × Value F → Prop
  | (_, v) => v.Distinct

end

mutual

/-- Fuel enough to read a value. -/
def Value.cost : Value F → ℕ
  | .arr items => 1 + costItems items
  | .obj members => 1 + costMembers members
  | .constant _ | .int _ | .float _ | .str _ => 1

/-- Fuel enough to read items. -/
def Value.costItems : List (Value F) → ℕ
  | [] => 1
  | v :: vs => 1 + v.cost + costItems vs

/-- Fuel enough to read members. -/
def Value.costMembers : List (List Char × Value F) → ℕ
  | [] => 1
  | m :: ms => 1 + costMember m + costMembers ms

/-- Fuel enough to read a member. -/
def Value.costMember : List Char × Value F → ℕ
  | (_, v) => v.cost

end

variable (t : FloatText F) (f : Format)

/-- The texts a value can start. -/
def Starts (cs : List Char) : Prop :=
  ∃ c tail, cs = c :: tail ∧ isSpace c = false ∧ c ≠ ']'

theorem Starts.append {cs : List Char} (h : Starts cs) (rest : List Char) : Starts (cs ++ rest) := by
  obtain ⟨c, tail, rfl, hc⟩ := h
  exact ⟨c, tail ++ rest, rfl, hc⟩

theorem Starts.skipSpace {cs : List Char} (h : Starts cs) : skipSpace cs = cs := by
  obtain ⟨c, tail, rfl, hc, _⟩ := h
  rw [Json.skipSpace, List.dropWhile_cons, if_neg (by simp [hc])]

theorem skipSpace_space (cs : List Char) : skipSpace (f.space ++ cs) = skipSpace cs := by
  unfold Format.space
  split <;> rfl

/-- The first character of a literal. -/
theorem text_head {l : Literal} (h : l.Valid) :
    ∃ c tail, l.text = c :: tail ∧ (c = '-' ∨ isDigit c = true) := by
  obtain ⟨negative, integer, fraction, exponent⟩ := l
  cases negative with
  | true => exact ⟨'-', _, rfl, .inl rfl⟩
  | false =>
    rcases h.integer with heq | ⟨c, tail, heq, hc, _⟩
    · simp only at heq
      subst heq
      exact ⟨'0', _, rfl, .inr rfl⟩
    · simp only at heq
      subst heq
      exact ⟨c, _, rfl, .inr hc⟩

theorem ne_of_number_head {c : Char} (h : c = '-' ∨ isDigit c = true) :
    c ≠ '"' ∧ c ≠ '[' ∧ c ≠ '{' ∧ c ≠ ']' ∧ isSpace c = false := by
  rcases h with rfl | h
  · decide
  · refine ⟨?_, ?_, ?_, ?_, ?_⟩
    · rintro rfl
      cases h
    · rintro rfl
      cases h
    · rintro rfl
      cases h
    · rintro rfl
      cases h
    · by_contra hspace
      simp only [isSpace, Bool.not_eq_false, Bool.or_eq_true, beq_iff_eq] at hspace
      rcases hspace with ((rfl | rfl) | rfl) | rfl <;> cases h

theorem starts_text {l : Literal} (h : l.Valid) : Starts l.text := by
  obtain ⟨c, tail, heq, hc⟩ := text_head h
  obtain ⟨_, _, _, hbracket, hspace⟩ := ne_of_number_head hc
  exact ⟨c, tail, heq, hspace, hbracket⟩

theorem starts_dump (v : Value F) : Starts (dump t f v) := by
  cases v with
  | constant c =>
    cases c <;> exact ⟨_, _, rfl, by decide, by decide⟩
  | int n =>
    rw [dump, ← intLiteral_text]
    exact starts_text (intLiteral_valid n)
  | float x => exact starts_text (t.valid x)
  | str s => exact ⟨'"', _, rfl, by decide, by decide⟩
  | arr items => exact ⟨'[', _, rfl, by decide, by decide⟩
  | obj members => exact ⟨'{', _, rfl, by decide, by decide⟩

theorem scan_literal {l : Literal} (h : l.Valid) (fuel : ℕ) {rest : List Char} (hrest : Ends rest) :
    scan t (fuel + 1) (l.text ++ rest) = some (l.value t, rest) := by
  have hnumber := scanNumber_text h hrest
  obtain ⟨c, tail, heq, hc⟩ := text_head h
  obtain ⟨hquote, hbracket, hbrace, _, _⟩ := ne_of_number_head hc
  rw [heq, List.cons_append] at hnumber ⊢
  rw [scan, if_neg hquote, if_neg hbracket, if_neg hbrace, hnumber]

theorem scan_constant (c : Constant) (fuel : ℕ) (rest : List Char) :
    scan t (fuel + 1) (c.text ++ rest) = some (.constant c, rest) := by
  cases c <;> simp [scan, scanNumber, scanInteger, isDigit, scanConstant, Constant.text,
    List.dropPrefix?]

theorem one_le_length_escape (ensureAscii : Bool) (c : Char) :
    1 ≤ (escape ensureAscii c).length := by
  unfold escape
  repeat' split
  all_goals first
    | simp
    | (unfold unicodeEscape; split <;> simp)

theorem length_le_flatMap_escape (ensureAscii : Bool) (s : List Char) :
    s.length ≤ (s.flatMap (escape ensureAscii)).length := by
  induction s with
  | nil => exact Nat.le_refl _
  | cons c s ih =>
    have hc := one_le_length_escape ensureAscii c
    rw [List.flatMap_cons, List.length_append, List.length_cons]
    omega

/-- Reading a written string, after its opening quote. -/
theorem scanString_dumpString (s rest : List Char) :
    scanString ((s.flatMap (escape f.ensureAscii) ++ '"' :: rest).length + 1)
      (s.flatMap (escape f.ensureAscii) ++ '"' :: rest) = some (s, rest) := by
  refine scanString_dump _ _ _ ?_
  have h := length_le_flatMap_escape f.ensureAscii s
  rw [List.length_append]
  omega

theorem dumpString_append (s rest : List Char) :
    dumpString f s ++ rest = '"' :: (s.flatMap (escape f.ensureAscii) ++ '"' :: rest) := by
  simp [dumpString]

theorem ends_cons {c : Char} (h : isDigit c = false ∧ c ≠ '.' ∧ c ≠ 'e' ∧ c ≠ 'E')
    (rest : List Char) : Ends (c :: rest) := by
  intro d hd
  cases hd
  exact h

theorem ends_dumpMoreItems (vs : List (Value F)) (rest : List Char) :
    Ends (dumpMoreItems t f vs ++ rest) := by
  cases vs with
  | nil => exact ends_cons (by decide) _
  | cons v vs => exact ends_cons (by decide) _

theorem ends_dumpMoreMembers (ms : List (List Char × Value F)) (rest : List Char) :
    Ends (dumpMoreMembers t f ms ++ rest) := by
  cases ms with
  | nil => exact ends_cons (by decide) _
  | cons m ms => exact ends_cons (by decide) _

/-- Distinct keys insert themselves in order. -/
theorem foldl_insertMember (acc ms : List (List Char × Value F))
    (h : ((acc ++ ms).map (·.1)).Nodup) : ms.foldl insertMember acc = acc ++ ms := by
  induction ms generalizing acc with
  | nil => simp
  | cons m ms ih =>
    have hnew : acc.any (·.1 == m.1) = false := by
      rw [List.any_eq_false]
      intro m' hm' heq
      rw [List.map_append, List.nodup_append] at h
      refine h.2.2 m'.1 (List.mem_map_of_mem hm') m.1 (by simp) (by simpa using heq)
    have hinsert : insertMember acc m = acc ++ [m] := by simp [insertMember, hnew]
    rw [List.foldl_cons, hinsert, ih _ (by simpa using h), List.append_assoc,
      List.singleton_append]

/-- Reading with fuel `n` what was written gives it back and stops behind it. -/
structure Reads (n : ℕ) : Prop where
  value : ∀ v : Value F, v.Distinct → v.cost ≤ n → ∀ rest, Ends rest →
    scan t n (dump t f v ++ rest) = some (v, rest)
  items : ∀ (v : Value F) (vs : List (Value F)), v.Distinct → Value.distinctItems vs →
    Value.costItems (v :: vs) ≤ n → ∀ rest,
      scanItems t n (dump t f v ++ (dumpMoreItems t f vs ++ rest)) = some (v :: vs, rest)
  members : ∀ (m : List Char × Value F) (ms : List (List Char × Value F)),
    Value.distinctMember m → Value.distinctMembers ms → Value.costMembers (m :: ms) ≤ n →
      ∀ rest, scanMembers t n (dumpMember t f m ++ (dumpMoreMembers t f ms ++ rest)) =
        some (m :: ms, rest)

theorem dumpMember_append (k : List Char) (v : Value F) (rest : List Char) :
    dumpMember t f (k, v) ++ rest = '"' :: (k.flatMap (escape f.ensureAscii) ++
      '"' :: (':' :: (f.space ++ (dump t f v ++ rest)))) := by
  simp [dumpMember, dumpString]

theorem skipSpace_dumpMember (m : List Char × Value F) (rest : List Char) :
    skipSpace (dumpMember t f m ++ rest) = dumpMember t f m ++ rest := by
  obtain ⟨k, v⟩ := m
  rw [dumpMember_append]
  rfl

variable {t f}

theorem Reads.value_succ {n : ℕ} (ih : Reads t f n) (v : Value F) (h : v.Distinct)
    (hcost : v.cost ≤ n + 1) (rest : List Char) (hrest : Ends rest) :
    scan t (n + 1) (dump t f v ++ rest) = some (v, rest) := by
  -- Each constructor is written with a first character that the scanner tells it by.
  cases v with
  | constant c => exact scan_constant t c n rest
  | int i =>
    rw [dump, ← intLiteral_text, scan_literal t (intLiteral_valid i) n hrest, intLiteral_value]
  | float x =>
    have hvalue : (t.repr x).value t = .float x := by
      rw [Literal.value, if_neg, t.float_repr]
      rintro ⟨hfraction, hexponent⟩
      exact (t.isFloat x).elim (· hfraction) (· hexponent)
    rw [dump, scan_literal t (t.valid x) n hrest, hvalue]
  | str s =>
    rw [dump, dumpString_append, scan, if_pos rfl, scanString_dumpString]
    rfl
  | arr items =>
    cases items with
    | nil => rfl
    | cons v vs =>
      -- An item takes less fuel than the whole, so the hypothesis applies.
      rw [Value.Distinct, Value.distinctItems] at h
      rw [Value.cost] at hcost
      have hstarts := (starts_dump t f v).append (dumpMoreItems t f vs ++ rest)
      have hitems := ih.items v vs h.1 h.2 (by omega) rest
      have htext : dump t f (.arr (v :: vs)) ++ rest =
          '[' :: (dump t f v ++ (dumpMoreItems t f vs ++ rest)) := by
        simp [dump, dumpItems]
      rw [htext, scan, if_neg (by decide), if_pos rfl, hstarts.skipSpace]
      -- An item never starts with the closing bracket.
      split
      · rename_i tail heq
        obtain ⟨c, tail', hc, _, hbracket⟩ := hstarts
        rw [hc] at heq
        exact absurd (List.cons.inj heq).1 hbracket
      · rw [hitems]
        rfl
  | obj members =>
    cases members with
    | nil => rfl
    | cons m ms =>
      rw [Value.Distinct, Value.distinctMembers] at h
      rw [Value.cost] at hcost
      have hmembers := ih.members m ms h.2.1 h.2.2 (by omega) rest
      have htext : dump t f (.obj (m :: ms)) ++ rest =
          '{' :: (dumpMember t f m ++ (dumpMoreMembers t f ms ++ rest)) := by
        simp [dump, dumpMembers]
      -- The keys are distinct, so no member replaces another.
      have hinsert : (m :: ms).foldl insertMember [] = m :: ms :=
        foldl_insertMember [] (m :: ms) h.1
      rw [htext, scan, if_neg (by decide), if_neg (by decide), if_pos rfl, skipSpace_dumpMember]
      split
      · rename_i tail heq
        obtain ⟨k, v⟩ := m
        rw [dumpMember_append] at heq
        cases heq
      · rw [hmembers, Option.map_some]
        show some (Value.obj ((m :: ms).foldl insertMember []), rest) = _
        rw [hinsert]

theorem Reads.items_succ {n : ℕ} (ih : Reads t f n) (v : Value F) (vs : List (Value F))
    (h : v.Distinct) (hs : Value.distinctItems vs) (hcost : Value.costItems (v :: vs) ≤ n + 1)
    (rest : List Char) :
    scanItems t (n + 1) (dump t f v ++ (dumpMoreItems t f vs ++ rest)) =
      some (v :: vs, rest) := by
  rw [Value.costItems] at hcost
  have hv := ih.value v h (by omega) _ (ends_dumpMoreItems t f vs rest)
  rw [scanItems, hv]
  cases vs with
  | nil => rfl
  | cons w ws =>
    rw [Value.distinctItems] at hs
    have hws := ih.items w ws hs.1 hs.2 (by omega) rest
    have hstarts := (starts_dump t f w).append (dumpMoreItems t f ws ++ rest)
    have hmore : dumpMoreItems t f (w :: ws) ++ rest =
        ',' :: (f.space ++ (dump t f w ++ (dumpMoreItems t f ws ++ rest))) := by
      simp [dumpMoreItems]
    have hcomma : ∀ cs, skipSpace (',' :: cs) = ',' :: cs := fun cs => rfl
    simp only [Option.bind_eq_bind, Option.bind_some, hmore, hcomma, skipSpace_space,
      hstarts.skipSpace, hws, Option.pure_def]

theorem Reads.members_succ {n : ℕ} (ih : Reads t f n) (m : List Char × Value F)
    (ms : List (List Char × Value F)) (h : Value.distinctMember m)
    (hs : Value.distinctMembers ms) (hcost : Value.costMembers (m :: ms) ≤ n + 1)
    (rest : List Char) :
    scanMembers t (n + 1) (dumpMember t f m ++ (dumpMoreMembers t f ms ++ rest)) =
      some (m :: ms, rest) := by
  obtain ⟨k, v⟩ := m
  rw [Value.costMembers, Value.costMember] at hcost
  rw [Value.distinctMember] at h
  have hv := ih.value v h (by omega) _ (ends_dumpMoreMembers t f ms rest)
  have hstarts := (starts_dump t f v).append (dumpMoreMembers t f ms ++ rest)
  have hcolon : ∀ cs, skipSpace (':' :: cs) = ':' :: cs := fun cs => rfl
  have hcomma : ∀ cs, skipSpace (',' :: cs) = ',' :: cs := fun cs => rfl
  rw [dumpMember_append, scanMembers]
  simp only [scanString_dumpString, Option.bind_eq_bind, Option.bind_some, hcolon,
    skipSpace_space, hstarts.skipSpace, hv]
  cases ms with
  | nil => rfl
  | cons m' ms =>
    rw [Value.distinctMembers] at hs
    have hms := ih.members m' ms hs.1 hs.2 (by omega) rest
    have hmore : dumpMoreMembers t f (m' :: ms) ++ rest =
        ',' :: (f.space ++ (dumpMember t f m' ++ (dumpMoreMembers t f ms ++ rest))) := by
      simp [dumpMoreMembers]
    simp only [hmore, hcomma, skipSpace_space, skipSpace_dumpMember, hms, Option.bind_some,
      Option.pure_def]

variable (t f)

theorem reads (n : ℕ) : Reads t f n := by
  induction n with
  | zero =>
    refine ⟨fun v _ hcost => ?_, fun v vs _ _ hcost => ?_, fun m ms _ _ hcost => ?_⟩
    · cases v <;> simp only [Value.cost] at hcost <;> omega
    · rw [Value.costItems] at hcost
      omega
    · rw [Value.costMembers] at hcost
      omega
  | succ n ih => exact ⟨ih.value_succ, ih.items_succ, ih.members_succ⟩

theorem one_le_length_dump (v : Value F) : 1 ≤ (dump t f v).length := by
  obtain ⟨c, tail, h, _⟩ := starts_dump t f v
  rw [h, List.length_cons]
  omega

mutual

theorem cost_le : (v : Value F) → v.cost ≤ 2 * (dump t f v).length
  | .constant c => by
    have := one_le_length_dump t f (.constant c)
    simp only [Value.cost]
    omega
  | .int n => by
    have := one_le_length_dump t f (.int n)
    simp only [Value.cost]
    omega
  | .float x => by
    have := one_le_length_dump t f (.float x)
    simp only [Value.cost]
    omega
  | .str s => by
    have := one_le_length_dump t f (.str s)
    simp only [Value.cost]
    omega
  | .arr [] => by simp [Value.cost, Value.costItems, dump, dumpItems]
  | .arr (v :: vs) => by
    have hv := cost_le v
    have hvs := costItems_le vs
    simp only [Value.cost, Value.costItems, dump, dumpItems, List.length_cons, List.length_append]
    omega
  | .obj [] => by simp [Value.cost, Value.costMembers, dump, dumpMembers]
  | .obj (m :: ms) => by
    have hm := costMember_le m
    have hms := costMembers_le ms
    simp only [Value.cost, Value.costMembers, dump, dumpMembers, List.length_cons,
      List.length_append]
    omega

theorem costItems_le : (vs : List (Value F)) →
    Value.costItems vs ≤ 2 * (dumpMoreItems t f vs).length
  | [] => by simp [Value.costItems, dumpMoreItems]
  | v :: vs => by
    have hv := cost_le v
    have hvs := costItems_le vs
    simp only [Value.costItems, dumpMoreItems, List.length_cons, List.length_append]
    omega

theorem costMembers_le : (ms : List (List Char × Value F)) →
    Value.costMembers ms ≤ 2 * (dumpMoreMembers t f ms).length
  | [] => by simp [Value.costMembers, dumpMoreMembers]
  | m :: ms => by
    have hm := costMember_le m
    have hms := costMembers_le ms
    simp only [Value.costMembers, dumpMoreMembers, List.length_cons, List.length_append]
    omega

theorem costMember_le : (m : List Char × Value F) →
    Value.costMember m ≤ 2 * (dumpMember t f m).length
  | (k, v) => by
    have hv := cost_le v
    simp only [Value.costMember, dumpMember, List.length_cons, List.length_append]
    omega

end

/-! ### Sorted members -/

theorem distinctMembers_iff (ms : List (List Char × Value F)) :
    Value.distinctMembers ms ↔ ∀ m ∈ ms, Value.distinctMember m := by
  induction ms with
  | nil => simp [Value.distinctMembers]
  | cons m ms ih => simp [Value.distinctMembers, ih]

theorem keys_sortMembers (ms : List (List Char × Value F)) :
    (Value.sortMembers ms).map (·.1) = ms.map (·.1) := by
  induction ms with
  | nil => rfl
  | cons m ms ih =>
    obtain ⟨k, v⟩ := m
    rw [Value.sortMembers, Value.sortMember, List.map_cons, List.map_cons, ih]

mutual

theorem distinct_sortKeys : (v : Value F) → v.Distinct → v.sortKeys.Distinct
  | .constant _, _ | .int _, _ | .float _, _ | .str _, _ => trivial
  | .arr items, h => distinct_sortItems items h
  | .obj ms, h => by
    have hms := distinct_sortMembers ms h.2
    have hperm := List.perm_insertionSort KeyLE (Value.sortMembers ms)
    rw [Value.sortKeys, Value.Distinct, distinctMembers_iff]
    refine ⟨?_, fun m hm => (distinctMembers_iff _).mp hms m (hperm.mem_iff.mp hm)⟩
    rw [(hperm.map (·.1)).nodup_iff, keys_sortMembers]
    exact h.1

theorem distinct_sortItems : (vs : List (Value F)) → Value.distinctItems vs →
    Value.distinctItems (Value.sortItems vs)
  | [], _ => trivial
  | v :: vs, h => ⟨distinct_sortKeys v h.1, distinct_sortItems vs h.2⟩

theorem distinct_sortMembers : (ms : List (List Char × Value F)) → Value.distinctMembers ms →
    Value.distinctMembers (Value.sortMembers ms)
  | [], _ => trivial
  | m :: ms, h => ⟨distinct_sortMember m h.1, distinct_sortMembers ms h.2⟩

theorem distinct_sortMember : (m : List Char × Value F) → Value.distinctMember m →
    Value.distinctMember (Value.sortMember m)
  | (_, v), h => distinct_sortKeys v h

end

theorem sortMembers_of_fixed {ms : List (List Char × Value F)}
    (h : ∀ m ∈ ms, Value.sortMember m = m) : Value.sortMembers ms = ms := by
  induction ms with
  | nil => rfl
  | cons m ms ih =>
    rw [Value.sortMembers, h m List.mem_cons_self,
      ih fun m' hm' => h m' (List.mem_cons_of_mem _ hm')]

instance : Std.Total (@KeyLE F) :=
  ⟨fun m m' => le_total m.1 m'.1⟩

instance : IsTrans (List Char × Value F) KeyLE :=
  ⟨fun _ _ _ h h' => le_trans h h'⟩

mutual

/-- Sorting the members again changes nothing. -/
theorem sortKeys_sortKeys : (v : Value F) → v.sortKeys.sortKeys = v.sortKeys
  | .constant _ | .int _ | .float _ | .str _ => by simp only [Value.sortKeys]
  | .arr items => by rw [Value.sortKeys, Value.sortKeys, sortItems_sortItems items]
  | .obj ms => by
    have hperm := List.perm_insertionSort KeyLE (Value.sortMembers ms)
    have hfixed := sortMembers_of_fixed fun m hm =>
      sortMember_of_sorted ms m (hperm.mem_iff.mp hm)
    rw [Value.sortKeys, Value.sortKeys, hfixed]
    rw [(List.pairwise_insertionSort KeyLE (Value.sortMembers ms)).insertionSort_eq]

theorem sortItems_sortItems : (vs : List (Value F)) →
    Value.sortItems (Value.sortItems vs) = Value.sortItems vs
  | [] => rfl
  | v :: vs => by
    rw [Value.sortItems, Value.sortItems, sortKeys_sortKeys v, sortItems_sortItems vs]

theorem sortMember_of_sorted : (ms : List (List Char × Value F)) →
    ∀ m ∈ Value.sortMembers ms, Value.sortMember m = m
  | [] => fun m hm => by cases hm
  | m :: ms => by
    intro m' hm'
    rw [Value.sortMembers] at hm'
    rcases List.mem_cons.mp hm' with rfl | hm'
    · exact sortMember_sortMember m
    · exact sortMember_of_sorted ms m' hm'

theorem sortMember_sortMember : (m : List Char × Value F) →
    Value.sortMember (Value.sortMember m) = Value.sortMember m
  | (k, v) => by rw [Value.sortMember, Value.sortMember, sortKeys_sortKeys v]

end

/-- Sorting makes no other value a string. -/
theorem sortKeys_eq_str {v : Value F} {s : List Char} : v.sortKeys = .str s ↔ v = .str s := by
  cases v <;> simp [Value.sortKeys]

/-- Reading what `dumps` wrote gives the value back. -/
theorem loads_dumps {v : Value F} (h : v.Distinct) :
    loads t (dumps t f v) = some (if f.sortKeys then v.sortKeys else v) := by
  have read : ∀ w : Value F, w.Distinct → loads t (dump t f w) = some w := by
    intro w hw
    have hcost := cost_le t f w
    have hscan := (reads t f (2 * (dump t f w).length + 2)).value w hw (by omega) []
      (fun c hc => by cases hc)
    rw [List.append_nil] at hscan
    have hskip : skipSpace (dump t f w) = dump t f w := (starts_dump t f w).skipSpace
    simp only [loads, hskip, hscan, Option.bind_eq_bind, Option.bind_some]
    rfl
  unfold dumps
  split
  · exact read _ (distinct_sortKeys v h)
  · exact read _ h

/-! ### Strings -/

theorem length_of_scanHex4 {cs rest : List Char} {n : ℕ} (h : scanHex4 cs = some (n, rest)) :
    rest.length < cs.length := by
  match cs, h with
  | a :: b :: c :: d :: tail, h =>
    simp only [scanHex4, Option.bind_eq_bind, Option.bind_eq_some_iff, Option.pure_def,
      Option.some.injEq, Prod.mk.injEq] at h
    obtain ⟨_, _, _, _, _, _, _, _, _, rfl⟩ := h
    simp only [List.length_cons]
    omega

theorem length_of_scanUnicode {cs rest : List Char} {c : Char}
    (h : scanUnicode cs = some (c, rest)) : rest.length < cs.length := by
  simp only [scanUnicode, Option.bind_eq_bind, Option.bind_eq_some_iff] at h
  obtain ⟨⟨n, tail⟩, hn, h⟩ := h
  have hlt := length_of_scanHex4 hn
  simp only at h
  split at h
  · split at h
    · simp only [Option.bind_eq_some_iff] at h
      obtain ⟨⟨m, tail'⟩, hm, h⟩ := h
      have hlt' := length_of_scanHex4 hm
      simp only at h
      split at h
      · simp only [Option.pure_def, Option.some.injEq, Prod.mk.injEq] at h
        rw [← h.2]
        simp only [List.length_cons] at hlt
        omega
      · cases h
    · cases h
  · split at h
    · cases h
    · cases h
      exact hlt

theorem length_of_scanEscape {cs rest : List Char} {c : Char}
    (h : scanEscape cs = some (c, rest)) : rest.length < cs.length := by
  unfold scanEscape at h
  split at h
  all_goals first
    | (cases h; exact Nat.lt_succ_self _)
    | exact (length_of_scanUnicode h).trans (Nat.lt_succ_self _)
    | cases h

/-- A string and its closing quote take at least their own length. -/
theorem length_of_scanString {fuel : ℕ} {cs s rest : List Char}
    (h : scanString fuel cs = some (s, rest)) : s.length + rest.length < cs.length := by
  induction fuel generalizing cs s with
  | zero => cases h
  | succ fuel ih =>
    cases cs with
    | nil => cases h
    | cons c cs =>
      rw [scanString] at h
      split at h
      · cases h
        simp
      split at h
      · simp only [Option.bind_eq_bind, Option.bind_eq_some_iff] at h
        obtain ⟨⟨e, tail⟩, he, ⟨s', rest'⟩, hs, h⟩ := h
        cases h
        have hescape := length_of_scanEscape he
        have hstring := ih hs
        simp only [List.length_cons] at hstring ⊢
        omega
      split at h
      · cases h
      · simp only [Option.bind_eq_bind, Option.bind_eq_some_iff] at h
        obtain ⟨⟨s', rest'⟩, hs, h⟩ := h
        cases h
        have hstring := ih hs
        simp only [List.length_cons] at hstring ⊢
        omega

theorem length_of_scan_str {n : ℕ} {cs s rest : List Char}
    (h : scan t n cs = some (.str s, rest)) : s.length < cs.length := by
  match n, cs, h with
  | n + 1, c :: cs, h =>
    rw [scan] at h
    split at h
    · simp only [Option.map_eq_some_iff, Prod.mk.injEq] at h
      obtain ⟨⟨s', rest'⟩, hs, heq⟩ := h
      obtain ⟨hstr, _⟩ := heq
      cases hstr
      have := length_of_scanString hs
      simp only [List.length_cons]
      omega
    split at h
    · split at h
      · cases h
      · simp only [Option.map_eq_some_iff, Prod.mk.injEq, reduceCtorEq, false_and, and_false,
          exists_false] at h
    split at h
    · split at h
      · cases h
      · simp only [Option.map_eq_some_iff, Prod.mk.injEq, reduceCtorEq, false_and, and_false,
          exists_false] at h
    split at h
    · rename_i l tail _
      simp only [Option.some.injEq, Prod.mk.injEq] at h
      have hvalue := h.1
      unfold Literal.value at hvalue
      split at hvalue <;> cases hvalue
    · simp only [Option.map_eq_some_iff, Prod.mk.injEq, reduceCtorEq, false_and, and_false,
        exists_false] at h

/-- A text that reads as a string is longer than the string. -/
theorem length_of_loads_str {cs s : List Char} (h : loads t cs = some (.str s)) :
    s.length < cs.length := by
  simp only [loads, Option.bind_eq_bind, Option.bind_eq_some_iff] at h
  obtain ⟨⟨v, rest⟩, hscan, h⟩ := h
  simp only at h
  split at h
  · cases h
    have hlength := length_of_scan_str t hscan
    have hskip : (skipSpace cs).length ≤ cs.length :=
      (List.dropWhile_sublist isSpace).length_le
    omega
  · cases h

end

end Json
