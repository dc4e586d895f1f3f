/-
Base64 as Python's `base64` module writes and reads it.

`encode` is `b64encode`; `decode` is `b64decode` with `validate=True`: groups of
four characters of the alphabet, padding only at the end.  Bits that a padded
group leaves over are ignored, as they are there.

* `Base64.decode_encode` — reading what was written gives the bytes back;
* `Base64.length_lt_encode` — the text of some bytes is longer than they are;
* `Base64.urlsafeDecode_pad` — padding that was cut off can be put back.
-/
import Mathlib.Data.List.Basic
import Mathlib.Data.List.DropRight

namespace Base64

/-- The character of a value below 64. -/
def character (n : ℕ) : Char :=
  if n < 26 then Char.ofNat ('A'.toNat + n)
  else if n < 52 then Char.ofNat ('a'.toNat + (n - 26))
  else if n < 62 then Char.ofNat ('0'.toNat + (n - 52))
  else if n = 62 then '+'
  else '/'

/-- The value of a character. -/
def sextet (c : Char) : Option ℕ :=
  if 'A' ≤ c ∧ c ≤ 'Z' then some (c.toNat - 'A'.toNat)
  else if 'a' ≤ c ∧ c ≤ 'z' then some (c.toNat - 'a'.toNat + 26)
  else if '0' ≤ c ∧ c ≤ '9' then some (c.toNat - '0'.toNat + 52)
  else if c = '+' then some 62
  else if c = '/' then some 63
  else none

/-- `b64encode`. -/
def encode : List UInt8 → List Char
  | [] => []
  | [a] => [character (a.toNat / 4), character (a.toNat % 4 * 16), '=', '=']
  | [a, b] => [character (a.toNat / 4), character (a.toNat % 4 * 16 + b.toNat / 16),
      character (b.toNat % 16 * 4), '=']
  | a :: b :: c :: rest =>
    character (a.toNat / 4) :: character (a.toNat % 4 * 16 + b.toNat / 16) ::
      character (b.toNat % 16 * 4 + c.toNat / 64) :: character (c.toNat % 64) :: encode rest

/-- `b64decode`, of whole groups. -/
def decode : List Char → Option (List UInt8)
  | [] => some []
  | [w, x, '=', '='] => do
    let w ← sextet w
    let x ← sextet x
    return [UInt8.ofNat (w * 4 + x / 16)]
  | [w, x, y, '='] => do
    let w ← sextet w
    let x ← sextet x
    let y ← sextet y
    return [UInt8.ofNat (w * 4 + x / 16), UInt8.ofNat (x % 16 * 16 + y / 4)]
  | w :: x :: y :: z :: rest => do
    let w ← sextet w
    let x ← sextet x
    let y ← sextet y
    let z ← sextet z
    let bytes ← decode rest
    return UInt8.ofNat (w * 4 + x / 16) :: UInt8.ofNat (x % 16 * 16 + y / 4) ::
      UInt8.ofNat (y % 4 * 64 + z) :: bytes
  | _ => none

theorem sextet_character : ∀ n < 64, sextet (character n) = some n := by
  decide

theorem character_ne_pad : ∀ n < 64, character n ≠ '=' := by
  decide

theorem ofNat_eq {a : UInt8} {n : ℕ} (h : n = a.toNat) : UInt8.ofNat n = a := by
  rw [h, UInt8.ofNat_toNat]

theorem decode_encode (bytes : List UInt8) : decode (encode bytes) = some bytes := by
  have bound : ∀ a : UInt8, a.toNat < 256 := fun a => a.toNat_lt
  induction bytes using encode.induct with
  | case1 => rfl
  | case2 a =>
    have ha := bound a
    simp only [encode, decode, sextet_character (a.toNat / 4) (by omega),
      sextet_character (a.toNat % 4 * 16) (by omega), Option.bind_eq_bind, Option.bind_some,
      Option.pure_def]
    rw [ofNat_eq (a := a) (by omega)]
  | case3 a b =>
    have ha := bound a
    have hb := bound b
    have hpad := character_ne_pad (b.toNat % 16 * 4) (by omega)
    simp only [encode]
    rw [decode]
    · simp only [sextet_character (a.toNat / 4) (by omega),
        sextet_character (a.toNat % 4 * 16 + b.toNat / 16) (by omega),
        sextet_character (b.toNat % 16 * 4) (by omega), Option.bind_eq_bind, Option.bind_some,
        Option.pure_def]
      rw [ofNat_eq (a := a) (by omega), ofNat_eq (a := b) (by omega)]
    · exact hpad
  | case4 a b c rest ih =>
    have ha := bound a
    have hb := bound b
    have hc := bound c
    have hpad := character_ne_pad (c.toNat % 64) (by omega)
    simp only [encode]
    rw [decode]
    · simp only [sextet_character (a.toNat / 4) (by omega),
        sextet_character (a.toNat % 4 * 16 + b.toNat / 16) (by omega),
        sextet_character (b.toNat % 16 * 4 + c.toNat / 64) (by omega),
        sextet_character (c.toNat % 64) (by omega), ih, Option.bind_eq_bind, Option.bind_some,
        Option.pure_def]
      rw [ofNat_eq (a := a) (by omega), ofNat_eq (a := b) (by omega), ofNat_eq (a := c) (by omega)]
    · exact fun _ h _ => hpad h
    · exact fun h _ => hpad h

theorem length_lt_encode {bytes : List UInt8} (h : bytes ≠ []) :
    bytes.length < (encode bytes).length := by
  induction bytes using encode.induct with
  | case1 => exact absurd rfl h
  | case2 a => simp [encode]
  | case3 a b => simp [encode]
  | case4 a b c rest ih =>
    simp only [encode, List.length_cons]
    cases rest with
    | nil => simp
    | cons d rest =>
      have hrest := ih (by simp)
      omega

theorem length_encode (bytes : List UInt8) : (encode bytes).length = (bytes.length + 2) / 3 * 4 := by
  induction bytes using encode.induct with
  | case1 => rfl
  | case2 a => simp [encode]
  | case3 a b => simp [encode]
  | case4 a b c rest ih =>
    simp only [encode, List.length_cons, ih]
    omega

/-- The text of some bytes: characters of the alphabet and at most two of padding. -/
theorem encode_eq (bytes : List UInt8) : ∃ values : List ℕ, ∃ pads ≤ 2,
    (∀ n ∈ values, n < 64) ∧ (values.length + pads) % 4 = 0 ∧
      encode bytes = values.map character ++ List.replicate pads '=' := by
  have bound : ∀ a : UInt8, a.toNat < 256 := fun a => a.toNat_lt
  induction bytes using encode.induct with
  | case1 => exact ⟨[], 0, by omega, by simp, rfl, rfl⟩
  | case2 a =>
    have ha := bound a
    refine ⟨[a.toNat / 4, a.toNat % 4 * 16], 2, le_rfl, ?_, by simp, rfl⟩
    simp
    omega
  | case3 a b =>
    have ha := bound a
    have hb := bound b
    refine ⟨[a.toNat / 4, a.toNat % 4 * 16 + b.toNat / 16, b.toNat % 16 * 4], 1, by omega, ?_,
      by simp, rfl⟩
    simp
    omega
  | case4 a b c rest ih =>
    have ha := bound a
    have hb := bound b
    have hc := bound c
    obtain ⟨values, pads, hpads, hvalues, hlength, hrest⟩ := ih
    refine ⟨a.toNat / 4 :: (a.toNat % 4 * 16 + b.toNat / 16) ::
      (b.toNat % 16 * 4 + c.toNat / 64) :: (c.toNat % 64) :: values, pads, hpads, ?_, ?_, ?_⟩
    · simp only [List.mem_cons, forall_eq_or_imp]
      exact ⟨by omega, by omega, by omega, by omega, hvalues⟩
    · simp only [List.length_cons]
      omega
    · simp [encode, hrest]

/-! ### The URL-safe alphabet -/

/-- The alphabet of `urlsafe_b64encode`. -/
def urlsafe (c : Char) : Char :=
  if c = '+' then '-' else if c = '/' then '_' else c

/-- `altchars=b"-_"`; the characters that they replace are read as well. -/
def ofUrlsafe (c : Char) : Char :=
  if c = '-' then '+' else if c = '_' then '/' else c

/-- `urlsafe_b64encode`. -/
def urlsafeEncode (bytes : List UInt8) : List Char :=
  (encode bytes).map urlsafe

/-- `urlsafe_b64decode`. -/
def urlsafeDecode (cs : List Char) : Option (List UInt8) :=
  decode (cs.map ofUrlsafe)

theorem ofUrlsafe_urlsafe : ∀ n < 64, ofUrlsafe (urlsafe (character n)) = character n := by
  decide

theorem urlsafe_ne_pad : ∀ n < 64, urlsafe (character n) ≠ '=' := by
  decide

/-- The padding of a text of `length` characters. -/
def padding (length : ℕ) : List Char :=
  List.replicate ((4 - length % 4) % 4) '='

/-- Reading a text whose padding was cut off and put back. -/
theorem urlsafeDecode_pad (bytes : List UInt8) :
    let cs := (urlsafeEncode bytes).rdropWhile (· == '=')
    urlsafeDecode (cs ++ padding cs.length) = some bytes := by
  obtain ⟨values, pads, hpads, hvalues, hlength, hencode⟩ := encode_eq bytes
  have hurlsafe : urlsafeEncode bytes =
      (values.map fun n => urlsafe (character n)) ++ List.replicate pads '=' := by
    rw [urlsafeEncode, hencode, List.map_append, List.map_map, List.map_replicate]
    rfl
  -- Cutting leaves the characters of the alphabet.
  have hcut : (urlsafeEncode bytes).rdropWhile (· == '=') =
      values.map fun n => urlsafe (character n) := by
    rw [hurlsafe, List.rdropWhile, List.reverse_append, List.reverse_replicate,
      List.dropWhile_append_of_pos (by simp), List.dropWhile_eq_self_iff.mpr, List.reverse_reverse]
    intro h
    have hmem := List.getElem_mem h
    rw [List.mem_reverse, List.mem_map] at hmem
    obtain ⟨n, hn, heq⟩ := hmem
    rw [← heq]
    simpa using urlsafe_ne_pad n (hvalues n hn)
  have hback : (values.map fun n => urlsafe (character n)).map ofUrlsafe = values.map character := by
    rw [List.map_map]
    exact List.map_congr_left fun n hn => ofUrlsafe_urlsafe n (hvalues n hn)
  have hpad : (4 - values.length % 4) % 4 = pads := by omega
  simp only [hcut, urlsafeDecode, padding, List.length_map, hpad, List.map_append, hback,
    List.map_replicate]
  have hdecode := decode_encode bytes
  rw [hencode] at hdecode
  exact hdecode

end Base64
