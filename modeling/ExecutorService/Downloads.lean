/-
Range downloads of Runtime files (`executor_resource_extension/file_download.py`).

A download opens a file once, hashes it, and sends the selected range in chunks.  What the
open file answers is a parameter, `OpenFile`: at each moment a size, a modification time and,
for a read, some bytes, no more than were asked for.  A file that nobody changes answers with
its content in any pattern of chunks; a file that is changed in place answers anything.

* `parseRange_ok` — the headers that `parse_range` accepts, and what they select;
* `hashFrom_ok` — the range digest is that of the selected part of the hashed bytes;
* `range_download_exact` — the sent bytes are the selected bytes of an unchanged file, and
  the selected part of the hashed bytes of any file.
-/
import ExecutorService.CodecRoundTrip

namespace ExecutorService

open Codec (Text)

/-! ### Ranges -/

/-- `FileRangeError`: no byte of the range is in the file. -/
structure FileRangeError where
  size : ℕ
  deriving DecidableEq, Repr

/-- The bytes from `start` to `stop`, both included. -/
structure ByteRange where
  start : ℕ
  stop : ℤ
  isPartial : Bool
  deriving DecidableEq, Repr

/-- `str.partition`. -/
def partition (separator : Char) (s : Text) : Text × Bool × Text :=
  (s.takeWhile (· != separator), separator ∈ s, (s.dropWhile (· != separator)).drop 1)

/-- `int` of ASCII digits, at most 4300 of them. -/
def intOfDigits (s : Text) : Option ℕ :=
  if s = [] ∨ 4300 < s.length then none else some (Json.ofDigits s)

/-- The bounds that the two texts around the hyphen give. -/
def rangeBounds (startText endText : Text) (size : ℕ) : Option (ℕ × ℕ) :=
  if startText = [] then do
    let suffix ← intOfDigits endText
    if suffix ≤ 0 then none else some (max (size - suffix) 0, size - 1)
  else do
    let start ← intOfDigits startText
    let stop ← (if endText ≠ [] then intOfDigits endText else some (size - 1))
    return (start, stop)

/-- `parse_range`. -/
def parseRange (value : Option Text) (size : ℕ) : Except FileRangeError ByteRange :=
  match value with
  | none => .ok ⟨0, size - 1, false⟩
  | some value =>
    if size = 0 ∨ ¬ "bytes=".toList <+: value ∨ ',' ∈ value then .error ⟨size⟩
    else
      let (startText, separator, endText) := partition '-' (Codec.strip (value.drop 6))
      let areNumbers := [startText, endText].all fun text => text.isEmpty || text.all Json.isDigit
      if ¬ separator ∨ ¬ areNumbers then .error ⟨size⟩
      else match rangeBounds startText endText size with
        | none => .error ⟨size⟩
        | some (start, stop) =>
          if start ≥ size ∨ stop < start then .error ⟨size⟩
          else .ok ⟨start, min stop (size - 1 : ℕ), true⟩

/-! ### The open file -/

/-- What an open descriptor answers at each moment. -/
structure OpenFile where
  regular : Bool := true
  size : ℕ → ℕ
  modifiedNs : ℕ → ℤ
  cancelled : ℕ → Bool := fun _ => false
  read : (moment position count : ℕ) → {chunk : List UInt8 // chunk.length ≤ count}

/-- How a download fails. -/
inductive DownloadError
  | notRegular (message : String)
  | range (error : FileRangeError)
  | changed (message : String)
  deriving DecidableEq, Repr

/-- The bytes that are read at a time. -/
def chunkSize : ℕ := 1024 * 1024

section

variable {D : Type} [DecidableEq D] (f : OpenFile) (sha256 : List UInt8 → D)

/-- `_check_unchanged`. -/
def checkUnchanged (size : ℕ) (modifiedNs : ℤ) (moment : ℕ) : Except DownloadError Unit :=
  if f.cancelled moment then .error (.changed "Download was cancelled.")
  else if (f.size moment, f.modifiedNs moment) ≠ (size, modifiedNs) then
    let mtimeChanged := if f.modifiedNs moment = modifiedNs then "False" else "True"
    .error (.changed s!"File changed during download: opened_size={size}, current_size={f.size moment}, mtime_changed={mtimeChanged}.")
  else .ok ()

/-- What was hashed of the file and of the range, and the moment it was done. -/
structure Hashed where
  digest : List UInt8
  rangeDigest : List UInt8
  moment : ℕ

/-- The loop of `_hash_opened_file`.  A digest is the bytes it was updated with. -/
def hashFrom (size : ℕ) (modifiedNs : ℤ) (range : ByteRange) (offset : ℕ)
    (digest rangeDigest : List UInt8) (moment : ℕ) : Except DownloadError Hashed :=
  if offset < size then do
    checkUnchanged f size modifiedNs moment
    let chunk := (f.read (moment + 1) offset (min chunkSize (size - offset))).val
    if chunk.length = 0 then
      .error (.changed s!"File ended during download setup: opened_size={size}, read_bytes={offset}, current_size={f.size (moment + 2)}.")
    else
      let left := max ((range.start : ℤ) - offset) 0
      let right := min (range.stop + 1 - offset) chunk.length
      hashFrom size modifiedNs range (offset + chunk.length) (digest ++ chunk)
        (if left < right then rangeDigest ++ (chunk.take right.toNat).drop left.toNat
          else rangeDigest) (moment + 2)
  else do
    checkUnchanged f size modifiedNs moment
    return ⟨digest, rangeDigest, moment + 1⟩
termination_by size - offset
decreasing_by
  change size - (offset + chunk.length) < size - offset
  omega

/-- The state of an `OpenedFileDownload`. -/
structure OpenedFileDownload (D : Type) where
  size : ℕ
  modifiedNs : ℤ
  range : ByteRange
  length : ℕ
  remaining : ℕ
  sentDigest : List UInt8
  rangeDigest : List UInt8
  checksumSha256 : D
  position : ℕ

/-- `__init__`, with the moment it ends. -/
def openDownload (rangeHeader : Option Text) : Except DownloadError (OpenedFileDownload D × ℕ) :=
  if ¬ f.regular then .error (.notRegular "Download target is not a regular file.")
  else
    let size := f.size 0
    let modifiedNs := f.modifiedNs 0
    match parseRange rangeHeader size with
    | .error e => .error (.range e)
    | .ok range => do
      let hashed ← hashFrom f size modifiedNs range 0 [] [] 1
      let length := (max (range.stop - range.start + 1) 0).toNat
      return ({ size := size, modifiedNs := modifiedNs, range := range, length := length
                remaining := length, sentDigest := [], rangeDigest := hashed.rangeDigest
                checksumSha256 := sha256 hashed.digest, position := range.start }, hashed.moment)

/-- `read_chunk`. -/
def OpenedFileDownload.readChunk (d : OpenedFileDownload D) (moment : ℕ) :
    Except DownloadError (List UInt8 × OpenedFileDownload D × ℕ) :=
  if d.remaining = 0 then .ok ([], d, moment)
  else do
    checkUnchanged f d.size d.modifiedNs moment
    let chunk := (f.read (moment + 1) d.position (min chunkSize d.remaining)).val
    if chunk.length = 0 then .error (.changed "File ended during download.")
    else do
      checkUnchanged f d.size d.modifiedNs (moment + 2)
      let d := { d with
        sentDigest := d.sentDigest ++ chunk
        remaining := d.remaining - chunk.length
        position := d.position + chunk.length }
      if d.remaining = 0 ∧ sha256 d.sentDigest ≠ sha256 d.rangeDigest then
        .error (.changed "File content changed during download.")
      else return (chunk, d, moment + 3)

end

/-! ### Requests -/

/-- What a range header asks for. -/
inductive RangeSpec
  | fromTo (first last : ℕ)
  | fromOn (first : ℕ)
  | suffix (count : ℕ)

/-- A number in ASCII digits, at most 4300 of them. -/
structure IsNumber (digits : Text) (n : ℕ) : Prop where
  ne_nil : digits ≠ []
  length : digits.length ≤ 4300
  value : Json.ofDigits digits = n
  digits : ∀ c ∈ digits, Json.isDigit c = true

/-- The text of a range. -/
inductive RangeSpec.Written : RangeSpec → Text → Prop
  | fromTo {a b : Text} {first last : ℕ} (ha : IsNumber a first) (hb : IsNumber b last) :
      Written (.fromTo first last) (a ++ '-' :: b)
  | fromOn {a : Text} {first : ℕ} (ha : IsNumber a first) : Written (.fromOn first) (a ++ ['-'])
  | suffix {a : Text} {count : ℕ} (ha : IsNumber a count) : Written (.suffix count) ('-' :: a)

/-- A byte of the file is in the range. -/
def RangeSpec.Satisfiable (size : ℕ) : RangeSpec → Prop
  | .fromTo first last => first < size ∧ first ≤ last
  | .fromOn first => first < size
  | .suffix count => 0 < count ∧ 0 < size

/-- The bytes it selects. -/
def RangeSpec.range (size : ℕ) : RangeSpec → ByteRange
  | .fromTo first last => ⟨first, min last (size - 1 : ℕ), true⟩
  | .fromOn first => ⟨first, (size - 1 : ℕ), true⟩
  | .suffix count => ⟨size - count, (size - 1 : ℕ), true⟩

/-- Only whitespace of `str.strip`. -/
def Whitespace (s : Text) : Prop :=
  ∀ c ∈ s, Codec.isSpace c = true

/-- The header asks for the range; whitespace around it is ignored. -/
def RangeSpec.Requested (spec : RangeSpec) (header : Text) : Prop :=
  ∃ before text after, header = "bytes=".toList ++ (before ++ (text ++ after)) ∧
    Whitespace before ∧ Whitespace after ∧ spec.Written text

/-- The bytes of a range. -/
def ByteRange.select (r : ByteRange) (content : List UInt8) : List UInt8 :=
  (content.take (r.stop + 1).toNat).drop r.start

/-! ### Accepted headers -/

theorem isDigit_bounds {c : Char} (h : Json.isDigit c = true) : 48 ≤ c.toNat ∧ c.toNat ≤ 57 := by
  simp only [Json.isDigit, Bool.and_eq_true, decide_eq_true_eq, Char.le_def] at h
  exact ⟨h.1, h.2⟩

theorem isDigit_ne {c : Char} (h : Json.isDigit c = true) {d : Char}
    (hd : Json.isDigit d = false) : c ≠ d := by
  rintro rfl
  rw [h] at hd
  cases hd

theorem not_isSpace_digit {c : Char} (h : Json.isDigit c = true) : Codec.isSpace c = false := by
  obtain ⟨hlo, hhi⟩ := isDigit_bounds h
  simp only [Codec.isSpace, List.contains_eq_mem, List.mem_cons, List.not_mem_nil, or_false,
    decide_eq_false_iff_not]
  omega

theorem strip_split (s : Text) : ∃ before after, s = before ++ (Codec.strip s ++ after) ∧
    Whitespace before ∧ Whitespace after := by
  refine ⟨s.takeWhile Codec.isSpace, ((s.dropWhile Codec.isSpace).reverse.takeWhile
    Codec.isSpace).reverse, ?_, fun c hc => List.mem_takeWhile_imp hc, fun c hc => ?_⟩
  · rw [Codec.strip, ← List.reverse_append, List.takeWhile_append_dropWhile, List.reverse_reverse,
      List.takeWhile_append_dropWhile]
  · exact List.mem_takeWhile_imp (List.mem_reverse.mp hc)

theorem dropWhile_space {before text : Text} (hbefore : Whitespace before)
    (htext : ∀ c ∈ text.head?, Codec.isSpace c = false) :
    (before ++ text).dropWhile Codec.isSpace = text := by
  rw [List.dropWhile_append_of_pos hbefore]
  cases text with
  | nil => rfl
  | cons c cs => exact List.dropWhile_cons_of_neg (by simp [htext c rfl])

/-- Whitespace around a text is stripped. -/
theorem strip_padded {before text after : Text} (hbefore : Whitespace before)
    (hafter : Whitespace after) (hnil : text ≠ [])
    (hhead : ∀ c ∈ text.head?, Codec.isSpace c = false)
    (hlast : ∀ c ∈ text.getLast?, Codec.isSpace c = false) :
    Codec.strip (before ++ (text ++ after)) = text := by
  have hleft : (before ++ (text ++ after)).dropWhile Codec.isSpace = text ++ after := by
    refine dropWhile_space hbefore fun c hc => hhead c ?_
    rwa [List.head?_append_of_ne_nil _ hnil] at hc
  have hright : (text ++ after).reverse.dropWhile Codec.isSpace = text.reverse := by
    rw [List.reverse_append]
    refine dropWhile_space (fun c hc => hafter c (List.mem_reverse.mp hc)) fun c hc => ?_
    rw [List.head?_reverse] at hc
    exact hlast c hc
  rw [Codec.strip, hleft, hright, List.reverse_reverse]

theorem partition_append {separator : Char} {a : Text} (ha : separator ∉ a) (b : Text) :
    partition separator (a ++ separator :: b) = (a, true, b) := by
  have hne : ∀ c ∈ a, (c != separator) = true := fun c hc => by
    simpa using fun h : c = separator => ha (h ▸ hc)
  rw [partition, List.takeWhile_append_of_pos hne, List.dropWhile_append_of_pos hne]
  simp

theorem eq_of_partition {separator : Char} {s a b : Text}
    (h : partition separator s = (a, true, b)) : s = a ++ separator :: b := by
  simp only [partition, Prod.mk.injEq, decide_eq_true_eq] at h
  obtain ⟨rfl, hmem, rfl⟩ := h
  have hne : s.dropWhile (· != separator) ≠ [] := fun hnil => by
    simpa using List.dropWhile_eq_nil_iff.mp hnil separator hmem
  obtain ⟨c, cs, hdrop⟩ := List.exists_cons_of_ne_nil hne
  have hhead : c = separator := by
    have hnot := List.head_dropWhile_not (· != separator) (l := s)
      (by rw [hdrop]; exact List.cons_ne_nil _ _)
    simpa [hdrop] using hnot
  have hsplit := List.takeWhile_append_dropWhile (p := (· != separator)) (l := s)
  rw [hdrop, hhead] at hsplit ⊢
  exact hsplit.symm

theorem intOfDigits_eq_some {a : Text} {n : ℕ} (ha : ∀ c ∈ a, Json.isDigit c = true) :
    intOfDigits a = some n ↔ IsNumber a n := by
  rw [intOfDigits]
  constructor
  · intro h
    split at h
    · cases h
    · rename_i hlength
      rw [not_or, Nat.not_lt] at hlength
      exact ⟨hlength.1, hlength.2, Option.some.inj h, ha⟩
  · intro h
    rw [if_neg (not_or.mpr ⟨h.ne_nil, Nat.not_lt.mpr h.length⟩), h.value]

theorem not_mem_hyphen {a : Text} (ha : ∀ c ∈ a, Json.isDigit c = true) : '-' ∉ a :=
  fun h => isDigit_ne (ha _ h) (by decide) rfl

/-- What is written around a hyphen. -/
theorem written_iff {a b : Text} (ha : ∀ c ∈ a, Json.isDigit c = true) {spec : RangeSpec} :
    spec.Written (a ++ '-' :: b) ↔ match spec with
      | .fromTo first last => IsNumber a first ∧ IsNumber b last
      | .fromOn first => IsNumber a first ∧ b = []
      | .suffix count => a = [] ∧ IsNumber b count := by
  constructor
  · intro h
    have hparts := partition_append (not_mem_hyphen ha) b
    generalize htext : a ++ '-' :: b = text at h hparts
    cases h with
    | fromTo ha' hb' =>
      rw [partition_append (not_mem_hyphen ha'.digits)] at hparts
      obtain ⟨rfl, _, rfl⟩ := hparts
      exact ⟨ha', hb'⟩
    | fromOn ha' =>
      rw [partition_append (not_mem_hyphen ha'.digits)] at hparts
      obtain ⟨rfl, _, rfl⟩ := hparts
      exact ⟨ha', rfl⟩
    | suffix hb' =>
      rw [← List.nil_append ('-' :: _), partition_append List.not_mem_nil] at hparts
      obtain ⟨rfl, _, rfl⟩ := hparts
      exact ⟨rfl, hb'⟩
  · intro h
    cases spec with
    | fromTo first last => exact .fromTo h.1 h.2
    | fromOn first =>
      obtain ⟨ha', rfl⟩ := h
      exact .fromOn ha'
    | suffix count =>
      obtain ⟨rfl, hb'⟩ := h
      exact .suffix hb'

/-- The bounds of the two texts around a hyphen are those of a range that is written so. -/
theorem rangeBounds_iff {a b : Text} (ha : ∀ c ∈ a, Json.isDigit c = true)
    (hb : ∀ c ∈ b, Json.isDigit c = true) {size : ℕ} (hsize : 0 < size) (r : ByteRange) :
    (∃ start stop, rangeBounds a b size = some (start, stop) ∧ ¬ (start ≥ size ∨ stop < start) ∧
      r = ⟨start, min stop (size - 1 : ℕ), true⟩) ↔
    ∃ spec : RangeSpec, spec.Written (a ++ '-' :: b) ∧ spec.Satisfiable size ∧
      r = spec.range size := by
  constructor
  · rintro ⟨start, stop, hbounds, hrange, rfl⟩
    rw [not_or, ge_iff_le, Nat.not_le, Nat.not_lt] at hrange
    rw [rangeBounds] at hbounds
    split at hbounds
    · -- Nothing before the hyphen: the number counts bytes from the end.
      rename_i hnil
      obtain ⟨count, hcount, h⟩ := Option.bind_eq_some_iff.mp hbounds
      split at h
      · cases h
      · rename_i hpos
        cases h
        refine ⟨.suffix count, (written_iff ha).mpr ⟨hnil, (intOfDigits_eq_some hb).mp hcount⟩,
          ⟨Nat.not_le.mp hpos, hsize⟩, ?_⟩
        rw [RangeSpec.range, min_self, Nat.max_zero]
    · -- A first position, with or without a last one.
      obtain ⟨first, hfirst, h⟩ := Option.bind_eq_some_iff.mp hbounds
      obtain ⟨last, hlast, h⟩ := Option.bind_eq_some_iff.mp h
      cases h
      have hfirst := (intOfDigits_eq_some ha).mp hfirst
      split at hlast
      · exact ⟨.fromTo start stop,
          (written_iff ha).mpr ⟨hfirst, (intOfDigits_eq_some hb).mp hlast⟩, hrange, rfl⟩
      · rename_i hnil
        cases hlast
        refine ⟨.fromOn start, (written_iff ha).mpr ⟨hfirst, not_not.mp hnil⟩, hrange.1, ?_⟩
        rw [RangeSpec.range, min_self]
  · rintro ⟨spec, hwritten, hsat, rfl⟩
    rw [written_iff ha] at hwritten
    cases spec with
    -- From the grammar back to the numbers, one form after the other.
    | fromTo first last =>
      refine ⟨first, last, ?_, ?_, rfl⟩
      · rw [rangeBounds, if_neg hwritten.1.ne_nil, (intOfDigits_eq_some ha).mpr hwritten.1]
        simp [hwritten.2.ne_nil, (intOfDigits_eq_some hb).mpr hwritten.2]
      · exact fun h => h.elim (Nat.not_le.mpr hsat.1) (Nat.not_lt.mpr hsat.2)
    | fromOn first =>
      obtain ⟨hfirst, rfl⟩ := hwritten
      refine ⟨first, size - 1, ?_, ?_, by rw [RangeSpec.range, min_self]⟩
      · rw [rangeBounds, if_neg hfirst.ne_nil, (intOfDigits_eq_some ha).mpr hfirst]
        simp
      · have hlt : first < size := hsat
        omega
    | suffix count =>
      obtain ⟨rfl, hcount⟩ := hwritten
      obtain ⟨hpos, _⟩ := hsat
      refine ⟨size - count, size - 1, ?_, by omega, by rw [RangeSpec.range, min_self]⟩
      rw [rangeBounds, if_pos rfl, (intOfDigits_eq_some hb).mpr hcount]
      simp [Nat.pos_iff_ne_zero.mp hpos]

theorem RangeSpec.Written.eq_append {spec : RangeSpec} {text : Text} (h : spec.Written text) :
    ∃ a b, text = a ++ '-' :: b ∧ (∀ c ∈ a, Json.isDigit c = true) ∧
      ∀ c ∈ b, Json.isDigit c = true := by
  cases h with
  | fromTo ha hb => exact ⟨_, _, rfl, ha.digits, hb.digits⟩
  | fromOn ha => exact ⟨_, [], rfl, ha.digits, fun c hc => (nomatch hc)⟩
  | suffix hb => exact ⟨[], _, rfl, fun c hc => (nomatch hc), hb.digits⟩

/-- The characters of a written range: digits and a hyphen. -/
theorem mem_hyphenated {a b : Text} (ha : ∀ c ∈ a, Json.isDigit c = true)
    (hb : ∀ c ∈ b, Json.isDigit c = true) {c : Char} (hc : c ∈ a ++ '-' :: b) :
    Json.isDigit c = true ∨ c = '-' := by
  rw [List.mem_append, List.mem_cons] at hc
  rcases hc with hc | rfl | hc
  · exact .inl (ha c hc)
  · exact .inr rfl
  · exact .inl (hb c hc)

theorem strip_hyphenated {before a b after : Text} (hbefore : Whitespace before)
    (hafter : Whitespace after) (ha : ∀ c ∈ a, Json.isDigit c = true)
    (hb : ∀ c ∈ b, Json.isDigit c = true) :
    Codec.strip (before ++ ((a ++ '-' :: b) ++ after)) = a ++ '-' :: b := by
  have hspace : ∀ c ∈ a ++ '-' :: b, Codec.isSpace c = false := fun c hc => by
    rcases mem_hyphenated ha hb hc with h | rfl
    · exact not_isSpace_digit h
    · decide
  exact strip_padded hbefore hafter (by simp) (fun c hc => hspace c (List.mem_of_head? hc))
    fun c hc => hspace c (List.mem_of_getLast? hc)

/-- A header is accepted exactly if it asks for a range that the file has. -/
theorem parseRange_ok (header : Text) (size : ℕ) (r : ByteRange) :
    parseRange (some header) size = .ok r ↔
      ∃ spec : RangeSpec, spec.Requested header ∧ spec.Satisfiable size ∧ r = spec.range size := by
  simp only [parseRange]
  constructor
  · intro h
    -- The code drops the prefix, strips the rest and splits it at the first hyphen.
    split at h
    · cases h
    · rename_i hstart
      simp only [not_or, not_not] at hstart
      obtain ⟨hsize, ⟨rest, rfl⟩, _⟩ := hstart
      have hdrop : ("bytes=".toList ++ rest).drop 6 = rest := by
        rw [List.drop_append_of_le_length (by decide)]
        rfl
      rw [hdrop] at h
      rcases hparts : partition '-' (Codec.strip rest) with ⟨a, separator, b⟩
      rw [hparts] at h
      simp only at h
      split at h
      · cases h
      · rename_i hnumbers
        simp only [not_or, not_not, List.all_cons, List.all_nil, Bool.and_true, Bool.and_eq_true,
          Bool.or_eq_true, List.all_eq_true, List.isEmpty_iff] at hnumbers
        obtain ⟨rfl, ha, hb⟩ := hnumbers
        -- Both parts are digits, an empty one trivially.
        have hdigits : ∀ s : Text, s = [] ∨ (∀ c ∈ s, Json.isDigit c = true) →
            ∀ c ∈ s, Json.isDigit c = true := fun s hs c hc =>
          hs.elim (fun hnil => by rw [hnil] at hc; cases hc) fun h => h c hc
        have hstrip := eq_of_partition hparts
        obtain ⟨before, after, hrest, hbefore, hafter⟩ := strip_split rest
        rw [hstrip] at hrest
        split at h
        · cases h
        · rename_i start stop hbounds
          split at h
          · cases h
          · rename_i hrange
            cases h
            obtain ⟨spec, hwritten, hsat, hr⟩ := (rangeBounds_iff (hdigits a ha) (hdigits b hb)
              (Nat.pos_of_ne_zero hsize) _).mp ⟨start, stop, hbounds, hrange, rfl⟩
            exact ⟨spec, ⟨before, _, after, by rw [← hrest], hbefore, hafter, hwritten⟩, hsat, hr⟩
  · rintro ⟨spec, ⟨before, text, after, rfl, hbefore, hafter, hwritten⟩, hsat, rfl⟩
    obtain ⟨a, b, rfl, ha, hb⟩ := hwritten.eq_append
    have hsize : 0 < size := by
      cases spec with
      | fromTo first last => exact Nat.zero_lt_of_lt hsat.1
      | fromOn first => exact Nat.zero_lt_of_lt hsat
      | suffix count => exact hsat.2
    -- The grammar has no comma, so the header is not taken for a list of ranges.
    have hcomma : ',' ∉ "bytes=".toList ++ (before ++ ((a ++ '-' :: b) ++ after)) := by
      have hspace : ∀ s, Whitespace s → ',' ∉ s := fun s hs hc => absurd (hs _ hc) (by decide)
      have htext : ',' ∉ a ++ '-' :: b := fun hc =>
        (mem_hyphenated ha hb hc).elim (fun h => isDigit_ne h (by decide) rfl) (by decide)
      simp only [List.mem_append, not_or]
      exact ⟨by decide, hspace _ hbefore, by simpa using htext, hspace _ hafter⟩
    obtain ⟨start, stop, hbounds, hrange, hr⟩ := (rangeBounds_iff ha hb hsize _).mpr
      ⟨spec, hwritten, hsat, rfl⟩
    -- What is left after the prefix is the text that the grammar describes.
    have hdrop : ("bytes=".toList ++ (before ++ ((a ++ '-' :: b) ++ after))).drop 6 =
        before ++ ((a ++ '-' :: b) ++ after) := by
      rw [List.drop_append_of_le_length (by decide)]
      rfl
    have hnumbers : ([a, b].all fun text => text.isEmpty || text.all Json.isDigit) = true := by
      simp only [List.all_cons, List.all_nil, Bool.and_true, Bool.and_eq_true, Bool.or_eq_true,
        List.all_eq_true]
      exact ⟨.inr ha, .inr hb⟩
    rw [if_neg (not_or.mpr ⟨hsize.ne', not_or.mpr ⟨not_not.mpr ⟨_, rfl⟩, hcomma⟩⟩), hdrop,
      strip_hyphenated hbefore hafter ha hb, partition_append (not_mem_hyphen ha)]
    simp only [hnumbers, hbounds, if_neg hrange, hr]
    simp

/-! ### Hashing -/

/-- The part of the range that lies in the next chunk. -/
theorem ByteRange.select_append (r : ByteRange) (digest chunk : List UInt8) :
    r.select (digest ++ chunk) =
      if max ((r.start : ℤ) - digest.length) 0 < min (r.stop + 1 - digest.length) chunk.length then
        r.select digest ++ (chunk.take (min (r.stop + 1 - digest.length) chunk.length).toNat).drop
          (max ((r.start : ℤ) - digest.length) 0).toNat
      else r.select digest := by
  have htake : chunk.take ((r.stop + 1).toNat - digest.length) =
      chunk.take (min (r.stop + 1 - digest.length) chunk.length).toNat := by
    rw [List.take_eq_take_iff]
    omega
  have hdrop : (chunk.take ((r.stop + 1).toNat - digest.length)).drop
      (r.start - (digest.take (r.stop + 1).toNat).length) =
      (chunk.take ((r.stop + 1).toNat - digest.length)).drop
        (max ((r.start : ℤ) - digest.length) 0).toNat := by
    rw [List.length_take]
    by_cases hle : digest.length ≤ (r.stop + 1).toNat
    · rw [min_eq_right hle]
      congr 1
      omega
    · have hzero : (r.stop + 1).toNat - digest.length = 0 := by omega
      rw [hzero, List.take_zero, List.drop_nil, List.drop_nil]
  rw [select, select, List.take_append, List.drop_append, hdrop, htake]
  split
  · rfl
  · have hnil : (chunk.take (min (r.stop + 1 - digest.length) chunk.length).toNat).drop
        (max ((r.start : ℤ) - digest.length) 0).toNat = [] := by
      rw [List.drop_eq_nil_iff, List.length_take]
      omega
    rw [hnil, List.append_nil]

section

variable {D : Type} [DecidableEq D] {f : OpenFile} {sha256 : List UInt8 → D}

theorem checkUnchanged_ok {size : ℕ} {modifiedNs : ℤ} {t : ℕ} :
    checkUnchanged f size modifiedNs t = .ok () ↔
      f.cancelled t = false ∧ f.size t = size ∧ f.modifiedNs t = modifiedNs := by
  rw [checkUnchanged]
  cases f.cancelled t with
  | true => simp
  | false =>
    rw [if_neg Bool.false_ne_true]
    by_cases h : (f.size t, f.modifiedNs t) = (size, modifiedNs)
    · rw [if_neg (not_not.mpr h)]
      simpa using h
    · rw [if_pos h]
      simpa using h

/-- A read of the loop, or its end. -/
theorem hashFrom_cases {size : ℕ} {modifiedNs : ℤ} {range : ByteRange} {offset : ℕ}
    {digest rangeDigest : List UInt8} {t : ℕ} {hashed : Hashed}
    (h : hashFrom f size modifiedNs range offset digest rangeDigest t = .ok hashed) :
    (size ≤ offset ∧ hashed = ⟨digest, rangeDigest, t + 1⟩) ∨
    ∃ chunk : List UInt8, offset < size ∧ chunk.length ≠ 0 ∧ chunk.length ≤ size - offset ∧
      hashFrom f size modifiedNs range (offset + chunk.length) (digest ++ chunk)
        (if max ((range.start : ℤ) - offset) 0 < min (range.stop + 1 - offset) chunk.length then
            rangeDigest ++ (chunk.take (min (range.stop + 1 - offset) chunk.length).toNat).drop
              (max ((range.start : ℤ) - offset) 0).toNat
          else rangeDigest) (t + 2) = .ok hashed := by
  rw [hashFrom] at h
  split at h
  · rename_i hlt
    obtain ⟨_, _, h⟩ := Codec.bind_ok.mp h
    simp only at h
    split at h
    · cases h
    · rename_i hne
      have hread := (f.read (t + 1) offset (min chunkSize (size - offset))).2
      exact .inr ⟨_, hlt, hne, hread.trans (Nat.min_le_right _ _), h⟩
  · rename_i hle
    obtain ⟨_, _, h⟩ := Codec.bind_ok.mp h
    cases h
    exact .inl ⟨Nat.not_lt.mp hle, rfl⟩

/-- Hashing reads as many bytes as the file had; the range digest is that of the range. -/
theorem hashFrom_ok {size : ℕ} {modifiedNs : ℤ} {range : ByteRange} {offset : ℕ}
    {digest rangeDigest : List UInt8} {t : ℕ} {hashed : Hashed}
    (h : hashFrom f size modifiedNs range offset digest rangeDigest t = .ok hashed)
    (hoffset : digest.length = offset) (hle : offset ≤ size)
    (hrange : rangeDigest = range.select digest) :
    hashed.digest.length = size ∧ hashed.rangeDigest = range.select hashed.digest := by
  induction hleft : size - offset using Nat.strong_induction_on
    generalizing offset digest rangeDigest t with
  | _ left ih =>
    rcases hashFrom_cases h with ⟨hend, rfl⟩ | ⟨chunk, hlt, hne, hchunk, h⟩
    · exact ⟨hoffset.trans (hle.antisymm hend), hrange⟩
    · refine ih (size - (offset + chunk.length)) (by omega) h
        (by rw [List.length_append, hoffset]) (by omega) ?_ rfl
      rw [range.select_append, hoffset, hrange]

/-! ### Sending -/

/-- A chunk that is sent, or the end. -/
theorem readChunk_cases {d d' : OpenedFileDownload D} {chunk : List UInt8} {t t' : ℕ}
    (h : d.readChunk f sha256 t = .ok (chunk, d', t')) :
    (d.remaining = 0 ∧ chunk = []) ∨
    (d.remaining ≠ 0 ∧ chunk.length ≠ 0 ∧ chunk.length ≤ d.remaining ∧
      d' = { d with
        sentDigest := d.sentDigest ++ chunk
        remaining := d.remaining - chunk.length
        position := d.position + chunk.length } ∧
      (d'.remaining = 0 → sha256 d'.sentDigest = sha256 d'.rangeDigest)) := by
  rw [OpenedFileDownload.readChunk] at h
  split at h
  · rename_i hzero
    cases h
    exact .inl ⟨hzero, rfl⟩
  · rename_i hremaining
    obtain ⟨_, _, h⟩ := Codec.bind_ok.mp h
    have hread := (f.read (t + 1) d.position (min chunkSize d.remaining)).2
    simp only at h
    split at h
    · cases h
    · rename_i hne
      obtain ⟨_, _, h⟩ := Codec.bind_ok.mp h
      split at h
      · cases h
      · rename_i hsame
        cases h
        exact .inr ⟨hremaining, hne, hread.trans (Nat.min_le_right _ _), rfl,
          fun hzero => not_not.mp fun hdiffer => hsame ⟨hzero, hdiffer⟩⟩

variable (f sha256) in
/-- The chunks that `read_chunk` returns until an empty one, and the error it raises. -/
def OpenedFileDownload.readAll (d : OpenedFileDownload D) (t : ℕ) :
    List (List UInt8) × Option DownloadError :=
  match _h : d.readChunk f sha256 t with
  | .error e => ([], some e)
  | .ok (chunk, d', t') =>
    if _hchunk : chunk = [] then ([], none)
    else
      let (chunks, e) := d'.readAll t'
      (chunk :: chunks, e)
termination_by d.remaining
decreasing_by
  rcases readChunk_cases _h with ⟨_, hnil⟩ | ⟨_, hne, _, rfl, _⟩
  · exact absurd hnil _hchunk
  · show d.remaining - chunk.length < d.remaining
    omega

theorem readAll_error {d : OpenedFileDownload D} {t : ℕ} {e : DownloadError}
    (h : d.readChunk f sha256 t = .error e) : d.readAll f sha256 t = ([], some e) := by
  rw [OpenedFileDownload.readAll]
  split
  · rename_i h'
    rw [h] at h'
    cases h'
    rfl
  · rename_i h'
    rw [h] at h'
    cases h'

theorem readAll_end {d d' : OpenedFileDownload D} {t t' : ℕ}
    (h : d.readChunk f sha256 t = .ok ([], d', t')) : d.readAll f sha256 t = ([], none) := by
  rw [OpenedFileDownload.readAll]
  split
  · rename_i h'
    rw [h] at h'
    cases h'
  · rename_i h'
    rw [h] at h'
    cases h'
    rfl

theorem readAll_chunk {d d' : OpenedFileDownload D} {chunk : List UInt8} {t t' : ℕ}
    (h : d.readChunk f sha256 t = .ok (chunk, d', t')) (hne : chunk ≠ []) :
    d.readAll f sha256 t =
      (chunk :: (d'.readAll f sha256 t').1, (d'.readAll f sha256 t').2) := by
  rw [OpenedFileDownload.readAll]
  split
  · rename_i h'
    rw [h] at h'
    cases h'
  · rename_i h'
    rw [h] at h'
    cases h'
    exact dif_neg hne

variable (f sha256) in
/-- Without an error the announced bytes were sent and have the digest of the range; with
one they were not all sent. -/
theorem readAll_sent (d : OpenedFileDownload D) (t : ℕ) :
    ((d.readAll f sha256 t).2 = none → (d.readAll f sha256 t).1.flatten.length = d.remaining ∧
      (d.remaining ≠ 0 → sha256 (d.sentDigest ++ (d.readAll f sha256 t).1.flatten) =
        sha256 d.rangeDigest)) ∧
    ((d.readAll f sha256 t).2 ≠ none → (d.readAll f sha256 t).1.flatten.length < d.remaining) := by
  induction hleft : d.remaining using Nat.strong_induction_on generalizing d t with
  | _ left ih =>
    cases hread : d.readChunk f sha256 t with
    | error e =>
      rw [readAll_error hread]
      refine ⟨nofun, fun _ => ?_⟩
      -- An exhausted download raises nothing.
      have hpos : d.remaining ≠ 0 := fun hzero => by
        rw [OpenedFileDownload.readChunk, if_pos hzero] at hread
        cases hread
      exact Nat.pos_of_ne_zero (hleft ▸ hpos)
    | ok result =>
      obtain ⟨chunk, d', t'⟩ := result
      rcases readChunk_cases hread with ⟨hzero, rfl⟩ | ⟨hpos, hne, hle, hd', hlast⟩
      · rw [readAll_end hread]
        exact ⟨fun _ => ⟨hzero.symm.trans hleft, fun h => absurd (hleft.symm.trans hzero) h⟩,
          fun h => absurd rfl h⟩
      · have hnil : chunk ≠ [] := fun h => hne (by rw [h]; rfl)
        have hremaining : d'.remaining = d.remaining - chunk.length := by rw [hd']
        have hsent : d'.sentDigest = d.sentDigest ++ chunk := by rw [hd']
        have hrange : d'.rangeDigest = d.rangeDigest := by rw [hd']
        obtain ⟨hok, herror⟩ := ih d'.remaining (by omega) d' t' rfl
        rw [readAll_chunk hread hnil]
        simp only [List.flatten_cons, List.length_append]
        refine ⟨fun h => ?_, fun h => ?_⟩
        · obtain ⟨hlength, hdigest⟩ := hok h
          refine ⟨by omega, fun _ => ?_⟩
          by_cases hend : d'.remaining = 0
          · -- This chunk was the last one, and was compared before it was sent.
            have hrest : (d'.readAll f sha256 t').1.flatten = [] :=
              List.length_eq_zero_iff.mp (hlength.trans hend)
            rw [hrest, List.append_nil, ← hsent, hlast hend, hrange]
          · rw [← List.append_assoc, ← hsent, hdigest hend, hrange]
        · have := herror h
          omega

/-! ### An unchanged file -/

/-- Nobody changes the file: a read gives some of the bytes that follow. -/
structure OpenFile.Holds (f : OpenFile) (content : List UInt8) : Prop where
  regular : f.regular = true
  size : ∀ t, f.size t = content.length
  modifiedNs : ∀ t, f.modifiedNs t = f.modifiedNs 0
  cancelled : ∀ t, f.cancelled t = false
  read : ∀ t position count, position < content.length → 0 < count →
    ∃ k, 0 < k ∧ (f.read t position count).val = (content.drop position).take k

theorem OpenFile.Holds.checkUnchanged {content : List UInt8} (h : f.Holds content) (t : ℕ) :
    checkUnchanged f content.length (f.modifiedNs 0) t = .ok () :=
  checkUnchanged_ok.mpr ⟨h.cancelled t, h.size t, h.modifiedNs t⟩

/-- A read of an unchanged file that has bytes left. -/
theorem OpenFile.Holds.chunk {content : List UInt8} (h : f.Holds content) (t : ℕ)
    {position count : ℕ} (hposition : position < content.length) (hcount : 0 < count) :
    (f.read t position count).val.length ≠ 0 ∧
      (f.read t position count).val =
        (content.drop position).take (f.read t position count).val.length := by
  obtain ⟨k, hk, hread⟩ := h.read t position count hposition hcount
  rw [hread, List.length_take, List.length_drop]
  refine ⟨by omega, ?_⟩
  rw [List.take_eq_take_iff, List.length_drop]
  omega

theorem take_append_drop_take (content : List UInt8) (offset n : ℕ) :
    content.take offset ++ (content.drop offset).take n = content.take (offset + n) :=
  (List.take_add).symm

/-- An unchanged file is hashed as a whole. -/
theorem hashFrom_held {content : List UInt8} (h : f.Holds content) (range : ByteRange)
    (offset : ℕ) (rangeDigest : List UInt8) (t : ℕ) :
    ∃ hashed, hashFrom f content.length (f.modifiedNs 0) range offset (content.take offset)
      rangeDigest t = .ok hashed ∧ hashed.digest = content := by
  induction hleft : content.length - offset using Nat.strong_induction_on
    generalizing offset rangeDigest t with
  | _ left ih =>
    rw [hashFrom]
    by_cases hlt : offset < content.length
    · have hcount : 0 < min chunkSize (content.length - offset) := by
        rw [Nat.lt_min]
        exact ⟨by decide, by omega⟩
      obtain ⟨hne, hchunk⟩ := h.chunk (t + 1) hlt hcount
      rw [if_pos hlt, h.checkUnchanged]
      simp only [bind, Except.bind]
      rw [if_neg hne]
      generalize (f.read (t + 1) offset (min chunkSize (content.length - offset))).val = chunk
        at hne hchunk ⊢
      have hdigest : content.take offset ++ chunk = content.take (offset + chunk.length) := by
        conv_lhs => rw [hchunk]
        exact take_append_drop_take content offset chunk.length
      rw [hdigest]
      exact ih _ (by omega) _ _ _ rfl
    · rw [if_neg hlt, h.checkUnchanged]
      exact ⟨_, rfl, List.take_of_length_le (Nat.not_lt.mp hlt)⟩

/-- The next chunk of an unchanged file; the last one has the digest of the range. -/
theorem readChunk_held {content : List UInt8} (h : f.Holds content) {d : OpenedFileDownload D}
    (hsize : d.size = content.length) (hmodified : d.modifiedNs = f.modifiedNs 0)
    (hremaining : d.remaining ≠ 0) (hposition : d.position + d.remaining ≤ content.length)
    (hsent : d.sentDigest ++ (content.drop d.position).take d.remaining = d.rangeDigest) (t : ℕ) :
    ∃ chunk, chunk.length ≠ 0 ∧ chunk.length ≤ d.remaining ∧
      chunk = (content.drop d.position).take chunk.length ∧
      d.readChunk f sha256 t = .ok (chunk, { d with
        sentDigest := d.sentDigest ++ chunk
        remaining := d.remaining - chunk.length
        position := d.position + chunk.length }, t + 3) := by
  have hcount : 0 < min chunkSize d.remaining := by
    rw [Nat.lt_min]
    exact ⟨by decide, by omega⟩
  obtain ⟨hne, hchunk⟩ := h.chunk (t + 1) (show d.position < content.length by omega) hcount
  have hle := (f.read (t + 1) d.position (min chunkSize d.remaining)).2.trans (Nat.min_le_right _ _)
  refine ⟨_, hne, hle, hchunk, ?_⟩
  rw [OpenedFileDownload.readChunk, if_neg hremaining, hsize, hmodified, h.checkUnchanged,
    h.checkUnchanged]
  simp only [bind, Except.bind]
  rw [if_neg hne, if_neg, pure, Applicative.toPure]
  · rfl
  · rintro ⟨hzero, hdiffer⟩
    have hall : (f.read (t + 1) d.position (min chunkSize d.remaining)).val.length =
        d.remaining := by omega
    rw [hall] at hchunk
    rw [hchunk, hsent] at hdiffer
    exact hdiffer rfl

variable (sha256) in
/-- The bytes that are left of the range are sent. -/
theorem readAll_held {content : List UInt8} (h : f.Holds content) {d : OpenedFileDownload D}
    (hsize : d.size = content.length) (hmodified : d.modifiedNs = f.modifiedNs 0)
    (hposition : d.position + d.remaining ≤ content.length)
    (hsent : d.sentDigest ++ (content.drop d.position).take d.remaining = d.rangeDigest) (t : ℕ) :
    (d.readAll f sha256 t).2 = none ∧
      (d.readAll f sha256 t).1.flatten = (content.drop d.position).take d.remaining := by
  induction hleft : d.remaining using Nat.strong_induction_on generalizing d t with
  | _ left ih =>
    subst hleft
    by_cases hzero : d.remaining = 0
    · have hread : d.readChunk f sha256 t = .ok ([], d, t) := if_pos hzero
      rw [readAll_end hread, hzero]
      exact ⟨rfl, List.take_zero.symm⟩
    · obtain ⟨chunk, hne, hle, hchunk, hread⟩ :=
        readChunk_held h hsize hmodified hzero hposition hsent t
      -- What is left behind the chunk.
      have hsplit : (content.drop d.position).take d.remaining = chunk ++
          (content.drop (d.position + chunk.length)).take (d.remaining - chunk.length) := by
        have hrest := take_append_drop_take (content.drop d.position) chunk.length
          (d.remaining - chunk.length)
        rw [← hchunk, Nat.add_sub_cancel' hle, List.drop_drop] at hrest
        exact hrest.symm
      rw [readAll_chunk hread fun hnil => hne (by rw [hnil]; rfl)]
      obtain ⟨hnone, hrest⟩ := ih (d.remaining - chunk.length) (by omega) (d := { d with
        sentDigest := d.sentDigest ++ chunk
        remaining := d.remaining - chunk.length
        position := d.position + chunk.length }) hsize hmodified
        (show d.position + chunk.length + (d.remaining - chunk.length) ≤ _ by omega)
        (by rw [List.append_assoc, ← hsplit, hsent]) (t + 3) rfl
      refine ⟨hnone, ?_⟩
      rw [List.flatten_cons, hrest, hsplit]

/-! ### Downloads -/

/-- The selected range lies in the file. -/
theorem parseRange_bounds {header : Option Text} {size : ℕ} {r : ByteRange}
    (h : parseRange header size = .ok r) : r.stop + 1 ≤ size ∧ r.start ≤ r.stop + 1 := by
  cases header with
  | none =>
    cases h
    exact ⟨by simp, by simp⟩
  | some header =>
    obtain ⟨spec, _, hsat, rfl⟩ := (parseRange_ok header size r).mp h
    cases spec with
    | fromTo first last =>
      obtain ⟨_, _⟩ := hsat
      simp only [RangeSpec.range]
      omega
    | fromOn first =>
      have hlt : first < size := hsat
      simp only [RangeSpec.range]
      omega
    | suffix count =>
      obtain ⟨_, _⟩ := hsat
      simp only [RangeSpec.range]
      omega

theorem ByteRange.length_select {r : ByteRange} {content : List UInt8}
    (hstop : r.stop + 1 ≤ content.length) :
    (r.select content).length = (max (r.stop - r.start + 1) 0).toNat := by
  rw [select, List.length_drop, List.length_take]
  omega

theorem ByteRange.select_eq {r : ByteRange} {content : List UInt8}
    (hstart : r.start ≤ r.stop + 1) :
    r.select content = (content.drop r.start).take (max (r.stop - r.start + 1) 0).toNat := by
  rw [select, List.drop_take]
  congr 1
  omega

omit [DecidableEq D] in
/-- An opened download has hashed the file, and has the digest of the range. -/
theorem openDownload_ok {header : Option Text} {d : OpenedFileDownload D} {t : ℕ}
    (h : openDownload f sha256 header = .ok (d, t)) :
    ∃ hashed : Hashed, parseRange header d.size = .ok d.range ∧ hashed.digest.length = d.size ∧
      d = { size := f.size 0, modifiedNs := f.modifiedNs 0, range := d.range
            length := (max (d.range.stop - d.range.start + 1) 0).toNat
            remaining := (max (d.range.stop - d.range.start + 1) 0).toNat, sentDigest := []
            rangeDigest := d.range.select hashed.digest
            checksumSha256 := sha256 hashed.digest, position := d.range.start } := by
  rw [openDownload] at h
  split at h
  · cases h
  · simp only at h
    split at h
    · cases h
    · rename_i range hrange
      obtain ⟨hashed, hhashed, h⟩ := Codec.bind_ok.mp h
      cases h
      obtain ⟨hlength, hselect⟩ := hashFrom_ok hhashed rfl (Nat.zero_le _) (by simp [ByteRange.select])
      exact ⟨hashed, hrange, hlength, by rw [hselect]⟩

end

/-- Range downloads.  A header is accepted exactly if it is absent or asks for one range that
the file has.  Of a file that nobody changes, the selected bytes are sent; of any file,
either an error comes before the announced length is reached, or the sent bytes are the
selected part of the bytes that were hashed. -/
theorem range_download_exact {D : Type} [DecidableEq D] (sha256 : List UInt8 → D)
    (collisionFree : Function.Injective sha256) (size : ℕ) (header : Option Text) :
    (∀ r, parseRange header size = .ok r ↔ match header with
      | none => r = ⟨0, size - 1, false⟩
      | some text => ∃ spec : RangeSpec, spec.Requested text ∧ spec.Satisfiable size ∧
          r = spec.range size) ∧
    (∀ (f : OpenFile) (content : List UInt8) (r : ByteRange), f.Holds content →
      parseRange header content.length = .ok r →
      ∃ d t, openDownload f sha256 header = .ok (d, t) ∧ d.range = r ∧
        d.checksumSha256 = sha256 content ∧ (d.readAll f sha256 t).2 = none ∧
        (d.readAll f sha256 t).1.flatten = r.select content ∧
        (d.readAll f sha256 t).1.flatten.length = d.length) ∧
    ∀ (f : OpenFile) (d : OpenedFileDownload D) (t : ℕ),
      openDownload f sha256 header = .ok (d, t) →
      ∃ hashed : List UInt8, hashed.length = d.size ∧ d.checksumSha256 = sha256 hashed ∧
        ((d.readAll f sha256 t).2 = none →
          (d.readAll f sha256 t).1.flatten = d.range.select hashed) ∧
        ((d.readAll f sha256 t).2 ≠ none →
          (d.readAll f sha256 t).1.flatten.length < d.length) := by
  refine ⟨fun r => ?_, fun f content r hf hr => ?_, fun f d t h => ?_⟩
  · cases header with
    | none => exact ⟨fun h => (Except.ok.inj h).symm, fun h => h ▸ rfl⟩
    | some text => exact parseRange_ok text size r
  · -- The file keeps its content: both passes read the same bytes.
    obtain ⟨hstop, hstart⟩ := parseRange_bounds hr
    obtain ⟨hashed, hhashed, hdigest⟩ := hashFrom_held hf r 0 [] 1
    obtain ⟨_, hselect⟩ := hashFrom_ok hhashed rfl (Nat.zero_le _) (by simp [ByteRange.select])
    have hopen : openDownload f sha256 header = .ok ({
        size := content.length, modifiedNs := f.modifiedNs 0, range := r
        length := (max (r.stop - r.start + 1) 0).toNat
        remaining := (max (r.stop - r.start + 1) 0).toNat, sentDigest := []
        rangeDigest := hashed.rangeDigest, checksumSha256 := sha256 hashed.digest
        position := r.start }, hashed.moment) := by
      simp only [openDownload, hf.regular, hf.size, hr, not_true_eq_false, if_false]
      rw [List.take_zero] at hhashed
      rw [hhashed]
      rfl
    obtain ⟨hnone, hsent⟩ := readAll_held sha256 hf
      (d := {
        size := content.length, modifiedNs := f.modifiedNs 0, range := r
        length := (max (r.stop - r.start + 1) 0).toNat
        remaining := (max (r.stop - r.start + 1) 0).toNat, sentDigest := []
        rangeDigest := hashed.rangeDigest, checksumSha256 := sha256 hashed.digest
        position := r.start }) rfl rfl (by simp only; omega)
      (by rw [hselect, hdigest, ByteRange.select_eq hstart]; rfl) hashed.moment
    refine ⟨_, _, hopen, rfl, by rw [hdigest], hnone, ?_, ?_⟩
    · rw [hsent, ByteRange.select_eq hstart]
    · rw [hsent, ← ByteRange.select_eq hstart, ByteRange.length_select hstop]
  · -- The file may change: the digest is of what the first pass read.
    obtain ⟨hashed, hrange, hlength, hd⟩ := openDownload_ok h
    obtain ⟨hstop, _⟩ := parseRange_bounds hrange
    have hselect := ByteRange.length_select (hlength.symm ▸ hstop : _ ≤ (hashed.digest.length : ℤ))
    have hremaining : d.remaining = d.length := by rw [hd]
    have hdlength : d.length = (d.range.select hashed.digest).length := by rw [hselect, hd]
    obtain ⟨hok, herror⟩ := readAll_sent f sha256 d t
    refine ⟨hashed.digest, hlength, by rw [hd], fun hnone => ?_, fun he => hremaining ▸ herror he⟩
    obtain ⟨hsent, hdigest⟩ := hok hnone
    -- An empty range needs no second digest; otherwise the digests of both passes agree.
    by_cases hzero : d.remaining = 0
    · have hnil : d.range.select hashed.digest = [] :=
        List.length_eq_zero_iff.mp (by rw [← hdlength, ← hremaining, hzero])
      rw [hnil]
      exact List.length_eq_zero_iff.mp (hsent.trans hzero)
    · have hsame := collisionFree (hdigest hzero)
      have hnothing : d.sentDigest = [] := by rw [hd]
      have hrangeDigest : d.rangeDigest = d.range.select hashed.digest := by rw [hd]
      rw [hnothing, List.nil_append, hrangeDigest] at hsame
      exact hsame

namespace Small

/-- A file of three bytes that is read one byte at a time. -/
def file : OpenFile where
  size _ := 3
  modifiedNs _ := 0
  read _ position count := ⟨([1, 2, 3].drop position).take (min 1 count),
    (List.length_take_le _ _).trans (Nat.min_le_right _ _)⟩

theorem file_holds : file.Holds [1, 2, 3] where
  regular := rfl
  size _ := rfl
  modifiedNs _ := rfl
  cancelled _ := rfl
  read _ position _ _ hcount := ⟨1, Nat.one_pos,
    congrArg (List.take · ([1, 2, 3].drop position)) (Nat.min_eq_left hcount)⟩

/-- The last two bytes, for a digest that keeps its input. -/
theorem range_download_exact_suffix :
    ∃ d t, openDownload file id (some "bytes=-2".toList) = .ok (d, t) ∧
      (d.readAll file id t).1.flatten = [2, 3] := by
  have hrange : parseRange (some "bytes=-2".toList) 3 = .ok ⟨1, 2, true⟩ := by decide +kernel
  obtain ⟨d, t, hopen, _, _, _, hsent, _⟩ := (range_download_exact id Function.injective_id 3
    (some "bytes=-2".toList)).2.1 file [1, 2, 3] ⟨1, 2, true⟩ file_holds hrange
  exact ⟨d, t, hopen, hsent⟩

/-- Whitespace in front of a range is accepted. -/
theorem range_download_exact_whitespace :
    parseRange (some "bytes= 0-0".toList) 1 = .ok ⟨0, 0, true⟩ ∧
      ¬ ∃ (spec : RangeSpec) (text : Text), spec.Written text ∧
        "bytes= 0-0".toList = "bytes=".toList ++ text := by
  refine ⟨by decide +kernel, ?_⟩
  rintro ⟨spec, text, hwritten, htext⟩
  have hdrop : text = " 0-0".toList := by
    have h := congrArg (List.drop 6) htext
    rw [List.drop_append_of_le_length (by decide)] at h
    exact h.symm
  obtain ⟨a, b, rfl, ha, hb⟩ := hwritten.eq_append
  have hspace : ' ' ∈ a ++ '-' :: b := by
    rw [hdrop]
    decide
  rcases mem_hyphenated ha hb hspace with h | h
  · exact absurd h (by decide)
  · exact absurd h (by decide)

end Small

end ExecutorService
