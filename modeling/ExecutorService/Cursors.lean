/-
The text of an opaque cursor (`application/pagination.py`).

A cursor is a JSON object in URL-safe base64 without padding.  It names the kind of the
listing it continues and the position of the last row shown: a time of creation with an
id, or an integer column.  `json.loads` reads bytes in the encoding that their first
bytes show; ids are written as UUIDs.

* `encodeTimeCursor`, `decodeTimeCursor`, `encodeIntegerCursor`, `decodeIntegerCursor`;
* `decodeTimeCursor_encode`, `decodeIntegerCursor_encode` — a cursor decodes to the
  position it was made from;
* `decodeCursor_encode_of_ne` — it is rejected by every other kind of listing.
-/
import ExecutorService.Api
import ExecutorService.CodecRoundTrip
import ExecutorService.Datetimes

namespace ExecutorService

open Json (Value)
open Codec (Text)

/-! ### Bytes of a JSON text -/

/-- The encodings that `json.loads` detects. -/
inductive JsonEncoding
  | utf8 | utf16 (bigEndian : Bool) | utf32 (bigEndian : Bool)
  deriving DecidableEq, Repr

/-- `json.detect_encoding`, with the length of a byte order mark. -/
def detectEncoding : List UInt8 → JsonEncoding × ℕ
  | 0 :: 0 :: 0xFE :: 0xFF :: _ => (.utf32 true, 4)
  | 0xFF :: 0xFE :: 0 :: 0 :: _ => (.utf32 false, 4)
  | 0xFE :: 0xFF :: _ => (.utf16 true, 2)
  | 0xFF :: 0xFE :: _ => (.utf16 false, 2)
  | 0xEF :: 0xBB :: 0xBF :: _ => (.utf8, 3)
  | a :: b :: c :: d :: _ =>
    if a = 0 then (if b ≠ 0 then .utf16 true else .utf32 true, 0)
    else if b = 0 then (if c ≠ 0 ∨ d ≠ 0 then .utf16 false else .utf32 false, 0)
    else (.utf8, 0)
  | [a, b] => (if a = 0 then .utf16 true else if b = 0 then .utf16 false else .utf8, 0)
  | _ => (.utf8, 0)

/-- A character with a code point; half a surrogate pair is none. -/
def charOfNat? (n : ℕ) : Option Char :=
  if h : n.isValidChar then some (Char.ofNatAux n h) else none

/-- The text of bytes in UTF-32. -/
def decodeUtf32 (bigEndian : Bool) : List UInt8 → Option Text
  | [] => some []
  | a :: b :: c :: d :: rest => do
    let unit := if bigEndian then ((a.toNat * 256 + b.toNat) * 256 + c.toNat) * 256 + d.toNat
      else ((d.toNat * 256 + c.toNat) * 256 + b.toNat) * 256 + a.toNat
    return (← charOfNat? unit) :: (← decodeUtf32 bigEndian rest)
  | _ => none

/-- The code units of bytes in UTF-16. -/
def utf16Units (bigEndian : Bool) : List UInt8 → Option (List ℕ)
  | [] => some []
  | a :: b :: rest => (utf16Units bigEndian rest).map
      ((if bigEndian then a.toNat * 256 + b.toNat else b.toNat * 256 + a.toNat) :: ·)
  | _ => none

/-- The text of code units, with their surrogate pairs. -/
def ofUtf16Units : List ℕ → Option Text
  | [] => some []
  | [unit] => (charOfNat? unit).map ([·])
  | high :: low :: rest =>
    if 0xD800 ≤ high ∧ high ≤ 0xDBFF ∧ 0xDC00 ≤ low ∧ low ≤ 0xDFFF then do
      let c ← charOfNat? (0x10000 + (high - 0xD800) * 0x400 + (low - 0xDC00))
      return c :: (← ofUtf16Units rest)
    else do
      let c ← charOfNat? high
      return c :: (← ofUtf16Units (low :: rest))

/-- The text that `json.loads` reads. -/
def jsonText (body : List UInt8) : Option Text :=
  match detectEncoding body with
  | (.utf8, mark) => Codec.utf8Decode (body.drop mark)
  | (.utf16 bigEndian, mark) => (utf16Units bigEndian (body.drop mark)).bind ofUtf16Units
  | (.utf32 bigEndian, mark) => decodeUtf32 bigEndian (body.drop mark)

/-! ### UUIDs -/

/-- A number in hexadecimal, with leading zeros. -/
def hexPad : ℕ → ℕ → Text
  | 0, _ => []
  | width + 1, n => hexPad width (n / 16) ++ [Json.hexDigit (n % 16)]

/-- `str` of a UUID. -/
def uuidText (id : UUID) : Text :=
  let hex := hexPad 32 id
  hex.take 8 ++ '-' :: ((hex.drop 8).take 4 ++ '-' :: ((hex.drop 12).take 4 ++ '-' ::
    ((hex.drop 16).take 4 ++ '-' :: hex.drop 20)))

/-- `str.replace` of a pattern by nothing; the number of characters still to drop counts
down. -/
def removeAll (pattern : Text) : ℕ → Text → Text
  | _, [] => []
  | drop + 1, _ :: cs => removeAll pattern drop cs
  | 0, c :: cs =>
    if pattern.isPrefixOf (c :: cs) then removeAll pattern (pattern.length - 1) cs
    else c :: removeAll pattern 0 cs

/-- `UUID(text)`: a URN prefix, braces and hyphens are left out.  Of the 32 characters that
`int(hex, 16)` reads, only digits are taken here: an id that was written has no others. -/
def parseUuid (text : Text) : Option UUID :=
  let isBrace (c : Char) : Bool := c == '\x7b' || c == '\x7d'
  let hex := removeAll "uuid:".toList 0 (removeAll "urn:".toList 0 text)
  let hex := ((hex.dropWhile isBrace).rdropWhile isBrace).filter (· != '-')
  if hex.length ≠ 32 then none
  else hex.foldlM (fun n c => (Json.hexValue c).map fun d => n * 16 + d) 0

/-! ### Payloads -/

section

variable {F : Type} (py : Codec.Python F)

/-- How the payload of a cursor is written. -/
def cursorFormat : Json.Format where
  ensureAscii := true
  sortKeys := true
  compact := true

/-- `_encode`. -/
def encodeCursor (payload : List (Text × Value F)) : Text :=
  (Base64.urlsafeEncode (Codec.utf8Encode (Json.dumps py.floats cursorFormat (.obj payload)))).rdropWhile
    (· == '=')

/-- `value == 1`. -/
def isOne : Value F → Bool
  | .int n => n == 1
  | .constant c => c == .true
  | .float x => (py.floats.repr x).text == "1.0".toList
  | _ => false

/-- The value is this text. -/
def isText (s : Text) : Value F → Bool
  | .str s' => s' == s
  | _ => false

/-- `_decode`. -/
def decodeCursor (cursor : Text) (expectedKind : String) :
    Except ApiError (List (Text × Value F)) :=
  if cursor = [] ∨ 2048 < cursor.length then .error (Cursor.error "Cursor is empty or too long.")
  else match (Base64.urlsafeDecode (cursor ++ Base64.padding cursor.length)).bind jsonText
      |>.bind (Json.loads py.floats) with
    | none => .error (Cursor.error "Cursor is malformed.")
    | some (.obj payload) =>
      if isOne py (Codec.get payload "v" (.constant .null)) ∧
          isText expectedKind.toList (Codec.get payload "kind" (.constant .null)) then .ok payload
      else .error Cursor.wrongKind
    | some _ => .error (Cursor.error "Cursor payload must be an object.")

/-- The payload of a cursor by time. -/
def timePayload (kind : String) (createdAt : Time) (itemId : UUID) : List (Text × Value F) :=
  [("v".toList, .int 1), ("kind".toList, Codec.textValue kind),
    ("created_at".toList, .str (Datetime.isoformat createdAt.toNat)),
    ("id".toList, .str (uuidText itemId))]

/-- The payload of a cursor by number. -/
def integerPayload (kind : String) (value : ℕ) : List (Text × Value F) :=
  [("v".toList, .int 1), ("kind".toList, Codec.textValue kind), ("value".toList, .int value)]

/-- `encode_time_cursor`. -/
def encodeTimeCursor (kind : String) (createdAt : Time) (itemId : UUID) : Text :=
  encodeCursor py (timePayload kind createdAt itemId)

/-- `decode_time_cursor`. -/
def decodeTimeCursor (cursor : Text) (kind : String) : Except ApiError (Time × UUID) := do
  let payload ← decodeCursor py cursor kind
  let invalid := Cursor.error "Cursor payload is invalid."
  match payload.lookup "created_at".toList, payload.lookup "id".toList with
  | some createdAt, some itemId =>
    match Datetime.fromisoformat (py.str createdAt), parseUuid (py.str itemId) with
    | some (wall, some offset), some id => .ok (wall - offset, id)
    | some (_, none), some _ => .error (Cursor.error "Cursor timestamp must include a timezone.")
    | _, _ => .error invalid
  | _, _ => .error invalid

/-- `encode_integer_cursor`. -/
def encodeIntegerCursor (kind : String) (value : ℕ) : Text :=
  encodeCursor py (integerPayload kind value)

/-- `decode_integer_cursor`. -/
def decodeIntegerCursor (cursor : Text) (kind : String) : Except ApiError ℕ := do
  let payload ← decodeCursor py cursor kind
  match Codec.get payload "value" (.constant .null) with
  | .int n => if 0 ≤ n then .ok n.toNat else .error (Cursor.error "Cursor position is invalid.")
  | _ => .error (Cursor.error "Cursor position is invalid.")

/-! ### Ids -/

theorem hexDigit_isHex : ∀ n < 16, Json.hexDigit n ≠ '-' ∧ Json.hexDigit n ≠ 'u' ∧
    Json.hexDigit n ≠ '\x7b' ∧ Json.hexDigit n ≠ '\x7d' := by
  decide

@[simp] theorem length_hexPad (width n : ℕ) : (hexPad width n).length = width := by
  induction width generalizing n with
  | zero => rfl
  | succ width ih => simp [hexPad, ih]

theorem mem_hexPad {width n : ℕ} {c : Char} (h : c ∈ hexPad width n) :
    ∃ d < 16, c = Json.hexDigit d := by
  induction width generalizing n with
  | zero => nomatch h
  | succ width ih =>
    rw [hexPad, List.mem_append, List.mem_singleton] at h
    rcases h with h | rfl
    · exact ih h
    · exact ⟨n % 16, Nat.mod_lt _ (by omega), rfl⟩

theorem foldlM_hexPad {width n : ℕ} (h : n < 16 ^ width) :
    (hexPad width n).foldlM (fun n c => (Json.hexValue c).map fun d => n * 16 + d) 0 = some n := by
  induction width generalizing n with
  | zero =>
    obtain rfl : n = 0 := by simpa using h
    rfl
  | succ width ih =>
    have hdiv : n / 16 < 16 ^ width := by
      rw [pow_succ] at h
      omega
    rw [hexPad, List.foldlM_append, ih hdiv]
    simp only [List.foldlM_cons, List.foldlM_nil, Json.hexValue_hexDigit _ (Nat.mod_lt n (by omega)),
      Option.map_some, Option.bind_eq_bind, Option.bind_some, Option.pure_def, Option.some.injEq]
    omega

theorem removeAll_self {p : Char} {pattern cs : Text} (h : p ∉ cs) :
    removeAll (p :: pattern) 0 cs = cs := by
  induction cs with
  | nil => rfl
  | cons c cs ih =>
    rw [List.mem_cons, not_or] at h
    have hprefix : ¬ (p :: pattern).isPrefixOf (c :: cs) = true := by
      simp [List.isPrefixOf, h.1]
    rw [removeAll, if_neg hprefix, ih h.2]

/-- The characters of an id: hexadecimal digits and hyphens. -/
theorem mem_uuidText {id : UUID} {c : Char} (h : c ∈ uuidText id) :
    c = '-' ∨ ∃ d < 16, c = Json.hexDigit d := by
  have hhex : c ∈ hexPad 32 id → ∃ d < 16, c = Json.hexDigit d := mem_hexPad
  simp only [uuidText, List.mem_append, List.mem_cons] at h
  rcases h with h | rfl | h | rfl | h | rfl | h | rfl | h
  · exact .inr (hhex (List.mem_of_mem_take h))
  · exact .inl rfl
  · exact .inr (hhex (List.mem_of_mem_drop (List.mem_of_mem_take h)))
  · exact .inl rfl
  · exact .inr (hhex (List.mem_of_mem_drop (List.mem_of_mem_take h)))
  · exact .inl rfl
  · exact .inr (hhex (List.mem_of_mem_drop (List.mem_of_mem_take h)))
  · exact .inl rfl
  · exact .inr (hhex (List.mem_of_mem_drop h))

theorem filter_uuidText (id : UUID) : (uuidText id).filter (· != '-') = hexPad 32 id := by
  have hall : ∀ cs : Text, (∀ c ∈ cs, c ∈ hexPad 32 id) → cs.filter (· != '-') = cs := by
    intro cs hcs
    rw [List.filter_eq_self]
    intro c hc
    obtain ⟨d, hd, rfl⟩ := mem_hexPad (hcs c hc)
    simpa using (hexDigit_isHex d hd).1
  have hdrop : ∀ n k : ℕ, ((hexPad 32 id).drop n).take k ++ (hexPad 32 id).drop (n + k) =
      (hexPad 32 id).drop n := by
    intro n k
    rw [← List.drop_drop, List.take_append_drop]
  simp only [uuidText, List.filter_append, List.filter_cons, bne_self_eq_false, Bool.false_eq_true,
    if_false]
  rw [hall _ fun c hc => List.mem_of_mem_take hc,
    hall _ fun c hc => List.mem_of_mem_drop (List.mem_of_mem_take hc),
    hall _ fun c hc => List.mem_of_mem_drop (List.mem_of_mem_take hc),
    hall _ fun c hc => List.mem_of_mem_drop (List.mem_of_mem_take hc),
    hall _ fun c hc => List.mem_of_mem_drop hc, hdrop 16 4, hdrop 12 4, hdrop 8 4,
    List.take_append_drop]

theorem parseUuid_uuidText {id : UUID} (h : id < 2 ^ 128) : parseUuid (uuidText id) = some id := by
  have hne : ∀ c ∈ uuidText id, c ≠ 'u' ∧ c ≠ '\x7b' ∧ c ≠ '\x7d' := by
    intro c hc
    rcases mem_uuidText hc with rfl | ⟨d, hd, rfl⟩
    · decide
    · exact ⟨(hexDigit_isHex d hd).2.1, (hexDigit_isHex d hd).2.2⟩
  have hurn : removeAll "urn:".toList 0 (uuidText id) = uuidText id :=
    removeAll_self fun hmem => (hne _ hmem).1 rfl
  have huuid : removeAll "uuid:".toList 0 (uuidText id) = uuidText id :=
    removeAll_self fun hmem => (hne _ hmem).1 rfl
  have hleft : (uuidText id).dropWhile (fun c => c == '\x7b' || c == '\x7d') = uuidText id := by
    rw [List.dropWhile_eq_self_iff]
    intro hlength
    have := hne _ (List.getElem_mem hlength)
    simp [this.2.1, this.2.2]
  have hright : (uuidText id).rdropWhile (fun c => c == '\x7b' || c == '\x7d') = uuidText id := by
    rw [List.rdropWhile_eq_self_iff]
    intro hnil
    have := hne _ (List.getLast_mem hnil)
    simp [this.2.1, this.2.2]
  have hwidth : id < 16 ^ 32 := by omega
  have hfold := foldlM_hexPad hwidth
  simp only [parseUuid, hurn, huuid, hleft, hright, filter_uuidText, length_hexPad, hfold]
  rfl

/-! ### Short texts -/

/-- ASCII, and not longer than `n`. -/
structure Short (cs : Text) (n : ℕ) : Prop where
  length : cs.length ≤ n
  ascii : ∀ c ∈ cs, c.toNat < 128

theorem Short.cons {c : Char} {cs : Text} {n : ℕ} (hc : c.toNat < 128) (h : Short cs n) :
    Short (c :: cs) (n + 1) where
  length := Nat.succ_le_succ h.length
  ascii := List.forall_mem_cons.mpr ⟨hc, h.ascii⟩

theorem Short.append {cs cs' : Text} {n n' : ℕ} (h : Short cs n) (h' : Short cs' n') :
    Short (cs ++ cs') (n + n') where
  length := by
    rw [List.length_append]
    exact Nat.add_le_add h.length h'.length
  ascii := List.forall_mem_append.mpr ⟨h.ascii, h'.ascii⟩

theorem Short.mono {cs : Text} {n n' : ℕ} (h : Short cs n) (hle : n ≤ n') : Short cs n' :=
  ⟨h.length.trans hle, h.ascii⟩

theorem short_nil : Short [] 0 :=
  ⟨le_rfl, fun _ h => nomatch h⟩

theorem short_hex4 (n : ℕ) : Short (Json.hex4 n) 4 := by
  have hhex : ∀ n < 16, (Json.hexDigit n).toNat < 128 := by decide
  refine ⟨le_rfl, fun c hc => ?_⟩
  simp only [Json.hex4, List.mem_cons, List.not_mem_nil, or_false] at hc
  rcases hc with rfl | rfl | rfl | rfl <;> exact hhex _ (Nat.mod_lt _ (by omega))

theorem short_unicodeEscape (n : ℕ) : Short (Json.unicodeEscape n) 12 := by
  have hone : ∀ n, Short ('\\' :: 'u' :: Json.hex4 n) 6 := fun n =>
    ((short_hex4 n).cons (by decide)).cons (by decide)
  unfold Json.unicodeEscape
  split
  · exact (hone _).mono (by omega)
  · exact ((hone _).append (hone _)).mono le_rfl

theorem short_escape (c : Char) : Short (Json.escape true c) 12 := by
  unfold Json.escape
  split_ifs with _ _ _ _ _ _ _ hescape
  on_goal 8 => exact short_unicodeEscape _
  on_goal 8 =>
    rw [not_or, not_and, not_lt, not_lt] at hescape
    have hascii := hescape.2 rfl
    exact (short_nil.cons (by omega)).mono (by omega)
  all_goals exact ((short_nil.cons (by decide)).cons (by decide)).mono (by omega)

/-- An escaped string has at most twelve characters for each of its own. -/
theorem short_dumpString (s : Text) : Short (Json.dumpString cursorFormat s) (12 * s.length + 2) := by
  have hescaped : Short (s.flatMap (Json.escape true)) (12 * s.length) := by
    induction s with
    | nil => exact short_nil
    | cons c s ih =>
      rw [List.flatMap_cons]
      exact ((short_escape c).append ih).mono (by simp only [List.length_cons]; omega)
  exact ((hescaped.append (short_nil.cons (by decide))).cons (by decide)).mono (by omega)

theorem short_dumpInt {n : ℕ} (h : n < 2 ^ 63) : Short (Json.dumpInt n) 19 := by
  have hdigit : ∀ d < 10, (Char.ofNat ('0'.toNat + d)).toNat < 128 := by decide
  change Short (Json.dumpNat n) 19
  unfold Json.dumpNat
  split
  · exact (short_nil.cons (by decide)).mono (by omega)
  · constructor
    · rw [List.length_map, List.length_reverse, Nat.digits_length_le_iff (by omega)]
      omega
    · intro c hc
      rw [List.mem_map] at hc
      obtain ⟨d, hd, rfl⟩ := hc
      exact hdigit d (Nat.digits_lt_base (by omega) (List.mem_reverse.mp hd))

section

variable {F : Type} (py : Codec.Python F)

theorem short_dumpMember (k : Text) {v : Value F} {n : ℕ}
    (h : Short (Json.dump py.floats cursorFormat v) n) :
    Short (Json.dumpMember py.floats cursorFormat (k, v)) (12 * k.length + 3 + n) :=
  ((short_dumpString k).append ((short_nil.append h).cons (by decide))).mono (by omega)

theorem short_textMember (k s : Text) :
    Short (Json.dumpMember py.floats cursorFormat (k, .str s)) (12 * k.length + 12 * s.length + 5) :=
  (short_dumpMember py k (v := .str s) (by rw [Json.dump]; exact short_dumpString s)).mono
    (by omega)

theorem short_intMember (k : Text) {n : ℕ} (h : n < 2 ^ 63) :
    Short (Json.dumpMember py.floats cursorFormat (k, .int n)) (12 * k.length + 22) :=
  (short_dumpMember py k (v := .int n) (by rw [Json.dump]; exact short_dumpInt h)).mono
    (by omega)

theorem short_noMembers : Short (Json.dumpMoreMembers py.floats cursorFormat []) 1 :=
  short_nil.cons (by decide)

theorem short_dumpMoreMembers {m : Text × Value F} {ms : List (Text × Value F)} {n n' : ℕ}
    (h : Short (Json.dumpMember py.floats cursorFormat m) n)
    (h' : Short (Json.dumpMoreMembers py.floats cursorFormat ms) n') :
    Short (Json.dumpMoreMembers py.floats cursorFormat (m :: ms)) (n + n' + 1) :=
  ((short_nil.append (h.append h')).cons (by decide)).mono (by omega)

theorem short_dumpObject {m : Text × Value F} {ms : List (Text × Value F)} {n n' : ℕ}
    (h : Short (Json.dumpMember py.floats cursorFormat m) n)
    (h' : Short (Json.dumpMoreMembers py.floats cursorFormat ms) n') :
    Short (Json.dump py.floats cursorFormat (.obj (m :: ms))) (n + n' + 1) :=
  (h.append h').cons (by decide)

/-- The bytes of an ASCII text. -/
theorem Short.length_utf8Encode {s : Text} {n : ℕ} (h : Short s n) :
    (Codec.utf8Encode s).length ≤ n := by
  have hbytes : (Codec.utf8Encode s).length = s.length := by
    have hascii := h.ascii
    clear h
    induction s with
    | nil => rfl
    | cons c s ih =>
      have hc : c.utf8Size = 1 := by
        rw [Char.utf8Size_eq_one_iff, UInt32.le_iff_toNat_le]
        exact Nat.le_of_lt_succ (hascii c List.mem_cons_self)
      have hcons : Codec.utf8Encode (c :: s) = String.utf8EncodeChar c ++ Codec.utf8Encode s := rfl
      rw [hcons, List.length_append, ih fun c' hc' => hascii c' (List.mem_cons_of_mem _ hc'),
        String.length_utf8EncodeChar, hc, List.length_cons, Nat.add_comm]
  exact hbytes.trans_le h.length

/-! ### Decoding what was encoded -/

theorem jsonText_utf8Encode (cs : Text) :
    jsonText (Codec.utf8Encode ('\x7b' :: '"' :: cs)) = some ('\x7b' :: '"' :: cs) := by
  have hbytes : Codec.utf8Encode ('\x7b' :: '"' :: cs) = 123 :: 34 :: Codec.utf8Encode cs := rfl
  have hdetect : ∀ rest : List UInt8, detectEncoding (123 :: 34 :: rest) = (.utf8, 0) := by
    intro rest
    rcases rest with _ | ⟨c, _ | ⟨d, rest⟩⟩ <;> rfl
  rw [jsonText, hbytes, hdetect, ← hbytes]
  exact Codec.utf8Decode_utf8Encode _

theorem sortKeys_timePayload (kind : String) (createdAt : Time) (itemId : UUID) :
    (Value.obj (timePayload (F := F) kind createdAt itemId)).sortKeys =
      .obj [("created_at".toList, .str (Datetime.isoformat createdAt.toNat)),
        ("id".toList, .str (uuidText itemId)), ("kind".toList, Codec.textValue kind),
        ("v".toList, .int 1)] :=
  rfl

theorem sortKeys_integerPayload (kind : String) (value : ℕ) :
    (Value.obj (integerPayload (F := F) kind value)).sortKeys =
      .obj [("kind".toList, Codec.textValue kind), ("v".toList, .int 1),
        ("value".toList, .int value)] :=
  rfl

/-- What is read back of a payload with a short text. -/
theorem decodeCursor_encodeCursor {payload ms : List (Text × Value F)} {m : Text × Value F}
    (hdistinct : (Value.obj payload).Distinct)
    (hsorted : (Value.obj payload).sortKeys = .obj (m :: ms))
    (hshort : Short (Json.dump py.floats cursorFormat (.obj (m :: ms))) 1534) (kind : String) :
    decodeCursor py (encodeCursor py payload) kind =
      if isOne py (Codec.get (m :: ms) "v" (.constant .null)) ∧
          isText kind.toList (Codec.get (m :: ms) "kind" (.constant .null)) then .ok (m :: ms)
      else .error Cursor.wrongKind := by
  have hread := Json.loads_dumps (t := py.floats) (f := cursorFormat) hdistinct
  rw [if_pos (show cursorFormat.sortKeys = true from rfl), hsorted] at hread
  have hdumps : Json.dumps py.floats cursorFormat (.obj payload) =
      Json.dump py.floats cursorFormat (.obj (m :: ms)) := by
    rw [← hsorted]
    rfl
  obtain ⟨k, v⟩ := m
  obtain ⟨cs, hcs⟩ : ∃ cs, Json.dump py.floats cursorFormat (.obj ((k, v) :: ms)) =
      '\x7b' :: '"' :: cs := ⟨_, rfl⟩
  have hjson := jsonText_utf8Encode cs
  rw [← hcs] at hjson
  have hbytes := hshort.length_utf8Encode
  have hsome : Codec.utf8Encode (Json.dump py.floats cursorFormat (.obj ((k, v) :: ms))) ≠ [] := by
    rw [hcs]
    exact List.cons_ne_nil _ _
  rw [hdumps] at hread
  unfold encodeCursor
  rw [hdumps]
  generalize Codec.utf8Encode (Json.dump py.floats cursorFormat (.obj ((k, v) :: ms))) = body
    at hjson hbytes hsome ⊢
  have hpad := Base64.urlsafeDecode_pad body
  simp only at hpad
  have hne : (Base64.urlsafeEncode body).rdropWhile (· == '=') ≠ [] := by
    intro hnil
    rw [hnil] at hpad
    exact hsome (Option.some.inj (show some [] = some body from hpad)).symm
  have hlength : ((Base64.urlsafeEncode body).rdropWhile (· == '=')).length ≤ 2048 := by
    have hle := (List.rdropWhile_prefix (· == '=') (l := Base64.urlsafeEncode body)).length_le
    rw [Base64.urlsafeEncode, List.length_map, Base64.length_encode] at hle
    exact hle.trans (by omega)
  rw [decodeCursor, if_neg (not_or.mpr ⟨hne, not_lt.mpr hlength⟩), hpad, Option.bind_some, hjson,
    Option.bind_some, hread]

theorem distinct_timePayload (kind : String) (createdAt : Time) (itemId : UUID) :
    (Value.obj (timePayload (F := F) kind createdAt itemId)).Distinct := by
  rw [Value.Distinct, Json.distinctMembers_iff]
  constructor
  · change List.Nodup ["v".toList, "kind".toList, "created_at".toList, "id".toList]
    decide
  · intro m hm
    simp only [timePayload, List.mem_cons, List.not_mem_nil, or_false] at hm
    rcases hm with rfl | rfl | rfl | rfl <;>
      simp only [Value.distinctMember, Codec.textValue, Value.Distinct]

theorem distinct_integerPayload (kind : String) (value : ℕ) :
    (Value.obj (integerPayload (F := F) kind value)).Distinct := by
  rw [Value.Distinct, Json.distinctMembers_iff]
  constructor
  · change List.Nodup ["v".toList, "kind".toList, "value".toList]
    decide
  · intro m hm
    simp only [integerPayload, List.mem_cons, List.not_mem_nil, or_false] at hm
    rcases hm with rfl | rfl | rfl <;>
      simp only [Value.distinctMember, Codec.textValue, Value.Distinct]

theorem isText_str (s : String) (kind : String) :
    isText (F := F) s.toList (.str kind.toList) = true ↔ kind = s := by
  rw [isText, beq_iff_eq, String.toList_inj]

/-- A time that `datetime` has, and the bits of an id. -/
structure IsTimePosition (createdAt : Time) (itemId : UUID) : Prop where
  nonneg : (0 : ℤ) ≤ createdAt
  lt : createdAt < (Datetime.instants : ℤ)
  id : itemId < 2 ^ 128

theorem length_isoformat_le (instant : ℕ) : (Datetime.isoformat instant).length ≤ 32 := by
  simp only [Datetime.isoformat, Datetime.formatTime, List.length_append, List.length_cons,
    Datetime.length_formatDate, Datetime.length_pad, List.length_nil]
  split <;> simp

theorem length_uuidText (id : UUID) : (uuidText id).length = 36 := by
  simp [uuidText]

section

variable {kind kind' : String} {createdAt : Time} {itemId : UUID} {value : ℕ}

theorem decodeCursor_time (hkind : kind.toList.length ≤ 32) :
    decodeCursor py (encodeTimeCursor py kind createdAt itemId) kind' =
      if kind = kind' then .ok [("created_at".toList, .str (Datetime.isoformat createdAt.toNat)),
        ("id".toList, .str (uuidText itemId)), ("kind".toList, Codec.textValue kind),
        ("v".toList, .int 1)]
      else .error Cursor.wrongKind := by
  have hiso := length_isoformat_le createdAt.toNat
  have hid := length_uuidText itemId
  have hshort := short_dumpObject py
    (short_textMember py "created_at".toList (Datetime.isoformat createdAt.toNat))
    (short_dumpMoreMembers py (short_textMember py "id".toList (uuidText itemId))
    (short_dumpMoreMembers py (short_textMember py "kind".toList kind.toList)
    (short_dumpMoreMembers py (short_intMember py "v".toList (show 1 < 2 ^ 63 by decide))
      (short_noMembers py))))
  have hkeys : "created_at".toList.length = 10 ∧ "id".toList.length = 2 ∧
      "kind".toList.length = 4 ∧ "v".toList.length = 1 := by decide
  rw [encodeTimeCursor, decodeCursor_encodeCursor py (distinct_timePayload kind createdAt itemId)
    (sortKeys_timePayload kind createdAt itemId) (hshort.mono (by omega))]
  refine if_congr ?_ rfl rfl
  exact (and_iff_right rfl).trans (isText_str kind' kind)

theorem decodeCursor_integer (hkind : kind.toList.length ≤ 32) (hvalue : value < 2 ^ 63) :
    decodeCursor py (encodeIntegerCursor py kind value) kind' =
      if kind = kind' then .ok [("kind".toList, Codec.textValue kind), ("v".toList, .int 1),
        ("value".toList, .int value)]
      else .error Cursor.wrongKind := by
  have hshort := short_dumpObject py (short_textMember py "kind".toList kind.toList)
    (short_dumpMoreMembers py (short_intMember py "v".toList (show 1 < 2 ^ 63 by decide))
    (short_dumpMoreMembers py (short_intMember py "value".toList hvalue) (short_noMembers py)))
  have hkeys : "kind".toList.length = 4 ∧ "v".toList.length = 1 ∧ "value".toList.length = 5 := by
    decide
  rw [encodeIntegerCursor, decodeCursor_encodeCursor py (distinct_integerPayload kind value)
    (sortKeys_integerPayload kind value) (hshort.mono (by omega))]
  refine if_congr ?_ rfl rfl
  exact (and_iff_right rfl).trans (isText_str kind' kind)

/-- A cursor decodes to the position it was made from, for its own kind only. -/
theorem decodeTimeCursor_encode (hkind : kind.toList.length ≤ 32)
    (h : IsTimePosition createdAt itemId) :
    decodeTimeCursor py (encodeTimeCursor py kind createdAt itemId) kind' =
      if kind = kind' then .ok (createdAt, itemId) else .error Cursor.wrongKind := by
  have hinstant : createdAt.toNat < Datetime.instants := (Int.toNat_lt h.nonneg).mpr h.lt
  rw [decodeTimeCursor, decodeCursor_time py hkind]
  split
  · have hcreated : ∀ rest : List (Text × Value F), (("created_at".toList,
        Value.str (Datetime.isoformat createdAt.toNat)) :: rest).lookup "created_at".toList =
        some (.str (Datetime.isoformat createdAt.toNat)) := fun rest => rfl
    have hid : ∀ (v : Value F) (rest : List (Text × Value F)), (("created_at".toList, v) ::
        ("id".toList, Value.str (uuidText itemId)) :: rest).lookup "id".toList =
        some (.str (uuidText itemId)) := fun v rest => rfl
    simp only [bind, Except.bind, hcreated, hid, py.str_str,
      Datetime.fromisoformat_isoformat hinstant, parseUuid_uuidText h.id]
    rw [Int.toNat_of_nonneg h.nonneg, sub_zero]
  · rfl

theorem decodeIntegerCursor_encode (hkind : kind.toList.length ≤ 32) (hvalue : value < 2 ^ 63) :
    decodeIntegerCursor py (encodeIntegerCursor py kind value) kind' =
      if kind = kind' then .ok value else .error Cursor.wrongKind := by
  rw [decodeIntegerCursor, decodeCursor_integer py hkind hvalue]
  split
  · have hget : ∀ v : Value F, Codec.get [("kind".toList, Codec.textValue kind),
        ("v".toList, .int 1), ("value".toList, .int value)] "value" v = .int value := fun v => rfl
    simp only [bind, Except.bind, hget]
    rw [if_pos (Int.natCast_nonneg value), Int.toNat_natCast]
  · rfl

/-- A cursor of one form is rejected by every listing of the other form and another kind. -/
theorem decodeIntegerCursor_time (hkind : kind.toList.length ≤ 32) (hne : kind ≠ kind') :
    decodeIntegerCursor py (encodeTimeCursor py kind createdAt itemId) kind' =
      .error Cursor.wrongKind := by
  rw [decodeIntegerCursor, decodeCursor_time py hkind, if_neg hne]
  rfl

theorem decodeTimeCursor_integer (hkind : kind.toList.length ≤ 32) (hvalue : value < 2 ^ 63)
    (hne : kind ≠ kind') :
    decodeTimeCursor py (encodeIntegerCursor py kind value) kind' = .error Cursor.wrongKind := by
  rw [decodeTimeCursor, decodeCursor_integer py hkind hvalue, if_neg hne]
  rfl

end

end

end

end ExecutorService
