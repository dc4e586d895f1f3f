/-
The round trip of outputs.

What `notebook_output` gives back is the message's output exactly for the messages
that `Preserved` describes.  It is lost where the two sides of the codec read a
media type differently (SVG is written as text and read as binary, a JSON text is
written as it is and parsed when read), where a value is not the kind of its media
type, for an empty stream name, and for a traceback that `splitlines` breaks
differently than it was joined.

* `joinLines_splitlines_iff` — the texts that survive `splitlines`;
* `decodeBody_iff` — the representations that survive;
* `codec_round_trip` — the messages that survive;
* `svg_is_not_preserved` — one that does not.
-/
import Mathlib.Data.List.DropRight
import ExecutorService.Codec

namespace ExecutorService.Codec

open Json (Value)

/-! ### Lines -/

/-- A text that ends in no line break and has no other break than `\n`. -/
structure PlainLines (text : Text) : Prop where
  boundaries : ∀ c ∈ text, isLineBoundary c = true → c = '\n'
  last : text.getLast? ≠ some '\n'

theorem joinLines_cons_cons (c : Char) (line : Text) (lines : List Text) :
    joinLines ((c :: line) :: lines) = c :: joinLines (line :: lines) := by
  cases lines <;> rfl

/-- An empty first line is one line break, unless it is the only line. -/
theorem joinLines_nil_cons (lines : List Text) :
    joinLines ([] :: lines) = if lines = [] then [] else '\n' :: joinLines lines := by
  cases lines <;> rfl

theorem splitlines_eq_nil {cs : Text} : splitlines cs = [] ↔ cs = [] := by
  constructor
  · intro h
    induction cs using splitlines.induct with
    | case1 => rfl
    | case2 cs ih => simp [splitlines] at h
    | case3 c cs hne hb ih => simp [splitlines, hb] at h
    | case4 c cs hne hb hnil ih => simp [splitlines, hb, hnil] at h
    | case5 c cs hne hb line lines hcons ih => simp [splitlines, hb, hcons] at h
  · rintro rfl
    rfl

theorem PlainLines.cons_iff {c : Char} {cs : Text} (hc : isLineBoundary c = true → c = '\n')
    (hcs : cs ≠ [] ∨ c ≠ '\n') : PlainLines (c :: cs) ↔ PlainLines cs := by
  have hlast : (c :: cs).getLast? ≠ some '\n' ↔ cs.getLast? ≠ some '\n' := by
    cases cs with
    | nil =>
      rcases hcs with h | h
      · exact absurd rfl h
      · simp [h]
    | cons d cs => rw [List.getLast?_cons_cons]
  constructor
  · rintro ⟨hboundaries, h⟩
    exact ⟨fun d hd => hboundaries d (List.mem_cons_of_mem _ hd), hlast.mp h⟩
  · rintro ⟨hboundaries, h⟩
    refine ⟨fun d hd => ?_, hlast.mpr h⟩
    rcases List.mem_cons.mp hd with rfl | hd
    · exact hc
    · exact hboundaries d hd

/-- A break in front of a text: lost at its end, and read back as `\n`. -/
theorem joinLines_break_iff {c : Char} (hc : isLineBoundary c = true) {cs : Text}
    (ih : joinLines (splitlines cs) = cs ↔ PlainLines cs) :
    joinLines ([] :: splitlines cs) = c :: cs ↔ PlainLines (c :: cs) := by
  rw [joinLines_nil_cons]
  by_cases hbreak : c = '\n'
  · subst hbreak
    by_cases hcs : cs = []
    · subst hcs
      simp only [splitlines, if_true]
      exact ⟨fun h => (by cases h), fun h => absurd rfl h.last⟩
    · rw [if_neg (fun h => hcs (splitlines_eq_nil.mp h)), List.cons.injEq,
        PlainLines.cons_iff (fun _ => rfl) (.inl hcs)]
      exact ⟨fun h => ih.mp h.2, fun h => ⟨rfl, ih.mpr h⟩⟩
  · constructor
    · intro h
      split at h
      · cases h
      · exact absurd (List.cons.inj h).1.symm hbreak
    · intro h
      exact absurd (h.boundaries c List.mem_cons_self hc) hbreak

theorem joinLines_splitlines_iff (text : Text) :
    joinLines (splitlines text) = text ↔ PlainLines text := by
  induction text using splitlines.induct with
  | case1 => exact ⟨fun _ => ⟨by simp, by simp⟩, fun _ => rfl⟩
  | case2 cs ih =>
    -- The pair `\r\n` is one break and comes back as `\n`.
    rw [splitlines, joinLines_nil_cons]
    constructor
    · intro h
      split at h
      · cases h
      · cases (List.cons.inj h).1
    · intro h
      cases h.boundaries '\r' List.mem_cons_self rfl
  | case3 c cs hne hb ih =>
    rw [splitlines, if_pos hb]
    · exact joinLines_break_iff hb ih
    · exact hne
  | case4 c cs hne hb hnil ih =>
    have hcs := splitlines_eq_nil.mp hnil
    subst hcs
    have hc : c ≠ '\n' := fun h => hb (by rw [h]; rfl)
    rw [splitlines, if_neg hb]
    · simp only [splitlines]
      refine ⟨fun _ => ?_, fun _ => rfl⟩
      exact (PlainLines.cons_iff (fun h => absurd h hb) (.inr hc)).mpr ⟨by simp, by simp⟩
    · exact hne
  | case5 c cs hne hb line lines hcons ih =>
    have hc : c ≠ '\n' := fun h => hb (by rw [h]; rfl)
    rw [splitlines, if_neg hb, hcons]
    · simp only
      rw [joinLines_cons_cons, ← hcons, List.cons.injEq,
        PlainLines.cons_iff (fun h => absurd h hb) (.inr hc)]
      exact ⟨fun h => ih.mp h.2, fun h => ⟨rfl, ih.mpr h⟩⟩
    · exact hne

/-- Only line breaks are lost. -/
theorem mem_joinLines_splitlines {b : Char} (hb : isLineBoundary b = false) {cs : Text}
    (h : b ∈ cs) : b ∈ joinLines (splitlines cs) := by
  have hcons : ∀ lines : List Text, b ∈ joinLines lines → b ∈ joinLines ([] :: lines) := by
    intro lines hmem
    rw [joinLines_nil_cons]
    split
    · rename_i hnil
      rw [hnil] at hmem
      exact hmem
    · exact List.mem_cons_of_mem _ hmem
  induction cs using splitlines.induct with
  | case1 => exact absurd h List.not_mem_nil
  | case2 cs ih =>
    rw [splitlines]
    refine hcons _ (ih ?_)
    rcases List.mem_cons.mp h with rfl | h
    · cases hb
    rcases List.mem_cons.mp h with rfl | h
    · cases hb
    · exact h
  | case3 c cs hne hc ih =>
    rw [splitlines, if_pos hc]
    · refine hcons _ (ih ?_)
      rcases List.mem_cons.mp h with rfl | h
      · rw [hc] at hb
        cases hb
      · exact h
    · exact hne
  | case4 c cs hne hc hnil ih =>
    rw [splitlines_eq_nil.mp hnil] at h
    rw [splitlines, if_neg hc, hnil]
    · exact h
    · exact hne
  | case5 c cs hne hc line lines hlines ih =>
    rw [splitlines, if_neg hc, hlines]
    · simp only
      rw [joinLines_cons_cons, ← hlines]
      rcases List.mem_cons.mp h with rfl | h
      · exact List.mem_cons_self
      · exact List.mem_cons_of_mem _ (ih h)
    · exact hne

/-! ### Representations -/

theorem utf8Decode_utf8Encode (s : Text) : utf8Decode (utf8Encode s) = some s := by
  have hbytes : (utf8Encode s).toByteArray = s.utf8Encode := rfl
  rw [utf8Decode, hbytes, List.utf8Decode?_utf8Encode, Option.map_some]

theorem length_le_utf8Encode (s : Text) : s.length ≤ (utf8Encode s).length := by
  induction s with
  | nil => exact Nat.le_refl _
  | cons c s ih =>
    have hc := c.utf8Size_pos
    rw [utf8Encode, List.flatMap_cons, List.length_append, String.length_utf8EncodeChar,
      List.length_cons]
    rw [utf8Encode] at ih
    omega

section

variable {F : Type}

/-- The value is a text. -/
def isStr : Value F → Bool
  | .str _ => true
  | _ => false

/-- The value comes back: the bytes of a binary type, else the JSON value. -/
def SameValue (mediaType : Text) (v w : Value F) : Prop :=
  if isBase64 mediaType then
    ∃ s s' body, v = .str s ∧ w = .str s' ∧ Base64.decode s = some body ∧
      Base64.decode s' = some body
  else v.sortKeys = w.sortKeys

/-- A media type `notebook_output` parses. -/
def isJson (mediaType : Text) : Bool :=
  mediaType == "application/json".toList || "+json".toList.isSuffixOf mediaType

/-- The values that survive under a media type. -/
def PreservedValue (mediaType : Text) (v : Value F) : Prop :=
  if isBase64 mediaType then True
  else if mediaType = "image/svg+xml".toList then v = .str []
  else if isJson mediaType then isStr v = false
  else isStr v = true

/-- The text of a value that is not written as bytes. -/
def contentOf (py : Python F) : Value F → Text
  | .str s => s
  | v => Json.dumps py.floats contentFormat v

variable {py : Python F}

/-- What `output_representation` makes of a value. -/
theorem outputRepresentation_ok {mediaType : Text} {v : Value F} {r : RuntimeOutputRepresentation}
    (h : outputRepresentation py mediaType v = .ok r) :
    r.mediaType = py.lower (strip mediaType) ∧
      ((isBase64 r.mediaType = true ∧ r.encoding = .base64 ∧ v = .str r.content) ∨
        (isBase64 r.mediaType = false ∧ r.encoding = .utf8 ∧ r.content = contentOf py v)) := by
  unfold outputRepresentation at h
  dsimp only at h
  split at h
  · cases h
  split at h
  · rename_i hbase64
    split at h
    · cases h
      exact ⟨rfl, .inl ⟨hbase64, rfl, rfl⟩⟩
    · cases h
  · rename_i hbase64
    have htext : isBase64 (py.lower (strip mediaType)) = false := by simpa using hbase64
    split at h
    · cases h
      exact ⟨rfl, .inr ⟨htext, rfl, rfl⟩⟩
    · rename_i hstr
      cases h
      refine ⟨rfl, .inr ⟨htext, rfl, ?_⟩⟩
      cases v <;> first | rfl | exact absurd rfl (hstr _)

theorem image_of_isBase64_false {mediaType : Text} (h : isBase64 mediaType = false) :
    ("image/".toList.isPrefixOf mediaType || mediaType == "application/pdf".toList) =
      decide (mediaType = "image/svg+xml".toList) := by
  by_cases hsvg : mediaType = "image/svg+xml".toList
  · subst hsvg
    decide
  · simp only [isBase64, Bool.or_eq_false_iff, Bool.and_eq_false_iff, bne_eq_false_iff_eq] at h
    rw [h.1, h.2.resolve_right hsvg, Bool.or_false, decide_eq_false hsvg]

/-- A base64 text of some bytes is not their text. -/
theorem encode_utf8Encode_ne {s : Text} (h : Base64.encode (utf8Encode s) = s) : s = [] := by
  by_contra hs
  have hbytes : utf8Encode s ≠ [] := by
    intro hnil
    have hlength := length_le_utf8Encode s
    rw [hnil, List.length_nil, Nat.le_zero, List.length_eq_zero_iff] at hlength
    exact hs hlength
  have hlong := Base64.length_lt_encode hbytes
  rw [h] at hlong
  exact absurd (length_le_utf8Encode s) (Nat.not_le.mpr hlong)

/-- A representation is read back as it was exactly under `PreservedValue`. -/
theorem decodeBody_iff {mediaType : Text} {v : Value F} {r : RuntimeOutputRepresentation}
    {body : List UInt8} (hv : v.Distinct) (hr : outputRepresentation py mediaType v = .ok r)
    (hbody : representationBody r.encoding r.content = .ok body) :
    (∃ w, decodeBody py r.mediaType body = .ok w ∧ SameValue r.mediaType v w) ↔
      PreservedValue r.mediaType v := by
  obtain ⟨_, ⟨hbase64, hencoding, hcontent⟩ | ⟨hbase64, hencoding, hcontent⟩⟩ :=
    outputRepresentation_ok hr
  · -- Binary: the same bytes in the canonical text.
    have himage : ("image/".toList.isPrefixOf r.mediaType ||
        r.mediaType == "application/pdf".toList) = true := by
      simp only [isBase64, Bool.or_eq_true, Bool.and_eq_true] at hbase64
      rw [Bool.or_eq_true]
      exact hbase64.elim .inr fun h => .inl h.1
    have hdecode : Base64.decode r.content = some body := by
      rw [hencoding, representationBody] at hbody
      split at hbody
      · rename_i bytes hbytes
        cases hbody
        exact hbytes
      · cases hbody
    have hpreserved : PreservedValue r.mediaType v := by
      rw [PreservedValue, if_pos hbase64]
      trivial
    refine ⟨fun _ => hpreserved, fun _ => ⟨.str (Base64.encode body), ?_, ?_⟩⟩
    · rw [decodeBody, if_pos himage]
    · rw [SameValue, if_pos hbase64]
      exact ⟨r.content, _, body, hcontent, rfl, hdecode, Base64.decode_encode body⟩
  · -- Text: the body is the content itself, and what it decodes to depends on the media type.
    rw [hencoding, representationBody] at hbody
    cases hbody
    have hsame : ∀ w, SameValue r.mediaType v w ↔ v.sortKeys = w.sortKeys := by
      intro w
      rw [SameValue, if_neg (by simp [hbase64])]
    have hpreserved : PreservedValue r.mediaType v ↔
        if r.mediaType = "image/svg+xml".toList then v = .str []
        else if isJson r.mediaType then isStr v = false else isStr v = true := by
      rw [PreservedValue, if_neg (by simp [hbase64])]
    simp only [hsame, hpreserved, hcontent, decodeBody, image_of_isBase64_false hbase64,
      utf8Decode_utf8Encode, decide_eq_true_eq]
    split
    · -- SVG: the text is read back as base64.
      constructor
      · rintro ⟨w, hw, hkeys⟩
        cases hw
        obtain ⟨s, rfl⟩ : ∃ s, v = .str s := ⟨_, Json.sortKeys_eq_str.mp hkeys⟩
        have htext : Base64.encode (utf8Encode s) = s :=
          (Value.str.inj (Json.sortKeys_eq_str.mp hkeys)).symm
        rw [encode_utf8Encode_ne htext]
      · rintro rfl
        exact ⟨.str [], rfl, rfl⟩
    show (∃ w, (if isJson r.mediaType = true then _ else _) = _ ∧ _) ↔ _
    split
    · -- JSON: the text is parsed.
      cases hstr : isStr v with
      | false =>
        -- Any other value is stored in compact form, and parsing gives it back with sorted
        -- keys.
        have hdumps : contentOf py v = Json.dumps py.floats contentFormat v := by
          cases v <;> first | rfl | cases hstr
        have hloads : Json.loads py.floats (contentOf py v) = some v.sortKeys := by
          rw [hdumps, Json.loads_dumps _ _ hv]
          rfl
        refine ⟨fun _ => rfl, fun _ => ⟨v.sortKeys, ?_, (Json.sortKeys_sortKeys v).symm⟩⟩
        rw [hloads]
      | true =>
        -- A string is stored as it stands, so it would have to be the text of its own
        -- quotation, which is longer.
        obtain ⟨s, rfl⟩ : ∃ s, v = .str s := by
          cases v <;> first | exact ⟨_, rfl⟩ | cases hstr
        refine ⟨?_, fun h => by cases h⟩
        rintro ⟨w, hw, hkeys⟩
        have hloads : Json.loads py.floats s = some w := by
          split at hw
          · rename_i w' hw'
            cases hw
            exact hw'
          · cases hw
        have hw' : w = .str s := Json.sortKeys_eq_str.mp hkeys.symm
        rw [hw'] at hloads
        exact absurd (Json.length_of_loads_str _ hloads) (Nat.lt_irrefl _)
    · -- Text: a value that is not a string comes back as one.
      constructor
      · rintro ⟨w, hw, hkeys⟩
        cases hw
        rw [Json.sortKeys_eq_str.mp hkeys]
        rfl
      · intro hstr
        obtain ⟨s, rfl⟩ : ∃ s, v = .str s := by
          cases v <;> first | exact ⟨_, rfl⟩ | cases hstr
        exact ⟨_, rfl, rfl⟩

/-! ### Stored records -/

theorem bind_ok {ε α β : Type} {x : Except ε α} {f : α → Except ε β} {b : β} :
    (x >>= f) = .ok b ↔ ∃ a, x = .ok a ∧ f a = .ok b := by
  cases x with
  | error e => simp [bind, Except.bind]
  | ok a => simp [bind, Except.bind]

theorem pure_ok {ε α : Type} {a b : α} : (pure a : Except ε α) = .ok b ↔ a = b := by
  simp [pure, Except.pure]

theorem map_ok {ε α β : Type} {f : α → β} {x : Except ε α} {b : β} :
    x.map f = .ok b ↔ ∃ a, x = .ok a ∧ f a = b := by
  cases x with
  | error e => simp [Except.map]
  | ok a => simp [Except.map]

theorem mapM_ok {α β : Type} {f : α → Except CodecError β} {xs : List α} {ys : List β} :
    xs.mapM f = .ok ys ↔ List.Forall₂ (fun x y => f x = .ok y) xs ys := by
  induction xs generalizing ys with
  | nil =>
    rw [List.mapM_nil, pure_ok, List.forall₂_nil_left_iff]
    exact eq_comm
  | cons x xs ih =>
    rw [List.mapM_cons, bind_ok]
    constructor
    · rintro ⟨y, hy, h⟩
      obtain ⟨ys', hys, h⟩ := bind_ok.mp h
      rw [← pure_ok.mp h]
      exact .cons hy (ih.mp hys)
    · rintro (_ | ⟨hy, hys⟩)
      exact ⟨_, hy, bind_ok.mpr ⟨_, ih.mpr hys, rfl⟩⟩

/-- What is written for one representation. -/
abbrev Written := RepresentationDescriptor × OutputFile × List UInt8

/-- A descriptor that matches its file. -/
structure Written.Matches (py : Python F) (w : Written) : Prop where
  file : w.1.file = w.2.1
  size : w.1.sizeBytes = w.2.2.length
  checksum : w.1.checksumSha256 = py.sha256 w.2.2

/-- A representation and what was written for it. -/
structure IsWritten (py : Python F) (r : RuntimeOutputRepresentation) (w : Written) : Prop where
  body : representationBody r.encoding r.content = .ok w.2.2
  mediaType : w.1.mediaType = strip (py.lower r.mediaType)
  matched : w.Matches py

theorem matches_of_isWritten {reps : List RuntimeOutputRepresentation} {written : List Written}
    (h : List.Forall₂ (IsWritten py) reps written) : ∀ w ∈ written, w.Matches py := by
  induction h with
  | nil => exact fun w hw => absurd hw List.not_mem_nil
  | cons hw _ ih =>
    intro w hmem
    rcases List.mem_cons.mp hmem with rfl | hmem
    · exact hw.matched
    · exact ih w hmem

theorem jsonValue_ok {v : Value F} (h : v.Distinct) : jsonValue py v = .ok v := by
  rw [jsonValue, Json.loads_dumps _ _ h]
  rfl

theorem forall₂_zipIdx {α β : Type} {R : α × ℕ → β → Prop} {S : α → β → Prop}
    (h : ∀ x n y, R (x, n) y → S x y) {xs : List α} {n : ℕ} {ys : List β}
    (hR : List.Forall₂ R (xs.zipIdx n) ys) : List.Forall₂ S xs ys := by
  induction xs generalizing n ys with
  | nil =>
    cases hR
    exact .nil
  | cons x xs ih =>
    rw [List.zipIdx_cons] at hR
    cases hR with
    | cons hxy hrest => exact .cons (h _ _ _ hxy) (ih hrest)

/-- The descriptor and the files of a persisted record. -/
theorem persistRecord_ok {ordinal : ℕ} {record : RuntimeOutputRecord F} {d : OutputDescriptor F}
    {files : List (OutputFile × List UInt8)} (hmetadata : (Value.obj record.metadata).Distinct)
    (h : persistRecord py ordinal record = .ok (d, files)) :
    ∃ written : List Written, List.Forall₂ (IsWritten py) record.representations written ∧
      (files.map (·.1)).Nodup ∧ files = written.map (·.2) ∧
      d = {
        ordinal := ordinal
        kind := record.kind
        streamName := record.streamName
        executionCount := record.executionCount
        representations := written.map (·.1)
        metadata := .obj record.metadata } := by
  simp only [persistRecord, bind_ok, pure_ok, jsonValue_ok hmetadata] at h
  obtain ⟨written, hwritten, metadata, hmeta, h⟩ := h
  cases hmeta
  obtain ⟨rfl, rfl⟩ := Prod.mk.inj h
  rw [mapM_ok] at hwritten
  refine ⟨written, forall₂_zipIdx ?_ hwritten, ?_, rfl, rfl⟩
  · intro r n w hw
    simp only [persistRepresentation, bind_ok, pure_ok] at hw
    obtain ⟨body, hbody, rfl⟩ := hw
    exact ⟨hbody, rfl, ⟨rfl, rfl, rfl⟩⟩
  · -- The files are numbered in the order of the representations.
    have hfiles : ∀ {xs : List (RuntimeOutputRepresentation × ℕ)} {ws : List Written},
        List.Forall₂ (fun x w =>
          persistRepresentation py ⟨ordinal, record.kind, x.2⟩ x.1 = .ok w) xs ws →
        (ws.map (·.2)).map (·.1) = xs.map fun x => ⟨ordinal, record.kind, x.2⟩ := by
      intro xs ws hws
      induction hws with
      | nil => rfl
      | cons hw _ ih =>
        simp only [persistRepresentation, bind_ok, pure_ok] at hw
        obtain ⟨body, _, rfl⟩ := hw
        rw [List.map_cons, List.map_cons, List.map_cons, ih]
    rw [hfiles hwritten]
    have hindices : (record.representations.zipIdx.map (·.2)).Nodup := by
      rw [List.zipIdx_map_snd]
      exact List.nodup_range'
    have hinjective : Function.Injective fun n : ℕ => (⟨ordinal, record.kind, n⟩ : OutputFile) :=
      fun n n' h => (OutputFile.mk.inj h).2.2
    have hmap := hindices.map hinjective
    rwa [List.map_map] at hmap

/-- Reading back what was written for a representation. -/
theorem representationValue_written {written : List Written}
    (hfiles : ((written.map (·.2)).map (·.1)).Nodup) {w : Written} (hw : w ∈ written)
    (h : w.Matches py) :
    representationValue py (written.map (·.2)) w.1 = decodeBody py w.1.mediaType w.2.2 := by
  have hfind : (written.map (·.2)).find? (·.1 == w.1.file) = some w.2 := by
    rw [h.file]
    exact List.find?_of_nodup hfiles (List.mem_map_of_mem hw)
  have hchecked : ¬ (w.2.2.length ≠ w.1.sizeBytes ∨ py.sha256 w.2.2 ≠ w.1.checksumSha256) := by
    rintro (hne | hne)
    · exact hne h.size.symm
    · exact hne h.checksum.symm
  rw [representationValue, hfind]
  exact if_neg hchecked

theorem mapM_congr {α β : Type} {f g : α → Except CodecError β} {xs : List α}
    (h : ∀ x ∈ xs, f x = g x) : xs.mapM f = xs.mapM g := by
  induction xs with
  | nil => rfl
  | cons x xs ih =>
    rw [List.mapM_cons, List.mapM_cons, h x List.mem_cons_self,
      ih fun y hy => h y (List.mem_cons_of_mem _ hy)]

/-- One value that `notebook_output` reads. -/
def IsRead (py : Python F) (w : Written) (m : Text × Value F) : Prop :=
  m.1 = w.1.mediaType ∧ decodeBody py w.1.mediaType w.2.2 = .ok m.2

/-- The values `notebook_output` reads for a list of representations. -/
theorem notebookOutput_values {written : List Written}
    (hmatches : ∀ w ∈ written, w.Matches py)
    (hfiles : ((written.map (·.2)).map (·.1)).Nodup) {values : List (Text × Value F)} :
    (written.map (·.1)).mapM (fun r => do
        let v ← representationValue py (written.map fun w : Written => w.2) r
        return (r.mediaType, v)) = .ok values ↔
      List.Forall₂ (IsRead py) written values := by
  have hread : written.mapM (fun w : Written => do
        let v ← representationValue py (written.map fun w : Written => w.2) w.1
        return (w.1.mediaType, v)) = written.mapM fun w => do
        let v ← decodeBody py w.1.mediaType w.2.2
        return (w.1.mediaType, v) :=
    mapM_congr fun w hw => by rw [representationValue_written hfiles hw (hmatches w hw)]
  rw [List.mapM_map]
  show written.mapM (fun w : Written => do
        let v ← representationValue py (written.map fun w : Written => w.2) w.1
        return (w.1.mediaType, v)) = _ ↔ _
  rw [hread, mapM_ok]
  refine iff_of_eq (congrArg (fun R => List.Forall₂ R written values) ?_)
  funext w m
  rw [bind_ok]
  refine propext ⟨?_, ?_⟩
  · rintro ⟨v, hv, h⟩
    rw [← pure_ok.mp h]
    exact ⟨rfl, hv⟩
  · rintro ⟨hm, hv⟩
    exact ⟨m.2, hv, by rw [pure_ok, ← hm]⟩

/-! ### Messages -/

/-- The normal form of a media type. -/
def normalized (py : Python F) (mediaType : Text) : Text :=
  py.lower (strip mediaType)

/-- The `data` of a display message. -/
def Message.data (m : Message F) : List (Text × Value F) :=
  match get m.content "data" (.obj []) with
  | .obj data => data
  | _ => []

/-- The lines of a traceback, joined. -/
def Message.tracebackText (py : Python F) (m : Message F) : Text :=
  match get m.content "traceback" (.arr []) with
  | .arr traceback => joinLines (traceback.map py.str)
  | _ => []

/-- The execution count of a message. -/
def Message.executionCount (m : Message F) : Value F :=
  get m.content "execution_count" (.constant .null)

/-- The message has representations by media type. -/
def Message.isDisplay (m : Message F) : Bool :=
  m.type == .displayData || m.type == .executeResult

/-- Display data is not empty, has no transient part, and its media types stay
distinct. -/
structure Message.InScope (py : Python F) (m : Message F) : Prop where
  nonempty : m.data ≠ []
  transient : ∀ t ts, get m.content "transient" (.constant .null) ≠ .obj (t :: ts)
  distinct : (m.data.map fun p => normalized py p.1).Nodup

/-- The same media types with the same values. -/
def SameData (py : Python F) (data data' : List (Text × Value F)) : Prop :=
  List.Forall₂ (fun p q => q.1 = normalized py p.1 ∧ SameValue q.1 p.2 q.2) data data'

/-- The notebook output is the message's. -/
def SameOutput (py : Python F) (m : Message F) : NotebookOutput F → Prop
  | .stream name text => m.type = .stream ∧
      name = py.str (get m.content "name" (textValue "stdout")) ∧
      text = py.str (get m.content "text" (textValue ""))
  | .displayData data metadata => m.type = .displayData ∧ SameData py m.data data ∧
      get m.content "metadata" (.obj []) = .obj metadata ∧ m.executionCount = .constant .null
  | .executeResult data metadata executionCount => m.type = .executeResult ∧
      SameData py m.data data ∧ get m.content "metadata" (.obj []) = .obj metadata ∧
      executionCountOf m.executionCount = .ok executionCount
  | .error ename evalue traceback => m.type = .error ∧
      ename = py.str (get m.content "ename" (textValue "Error")) ∧
      evalue = py.str (get m.content "evalue" (textValue "")) ∧
      joinLines traceback = m.tracebackText py

/-- The messages that survive. -/
def Preserved (py : Python F) (m : Message F) : Prop :=
  match m.type with
  | .stream => py.str (get m.content "name" (textValue "stdout")) ≠ []
  | .displayData => (∀ p ∈ m.data, PreservedValue (normalized py p.1) p.2) ∧
      m.executionCount = .constant .null
  | .executeResult => ∀ p ∈ m.data, PreservedValue (normalized py p.1) p.2
  | .error => m.tracebackText py ≠ [] ∧ PlainLines (m.tracebackText py)

/-! ### The round trip -/

theorem distinct_get {members : List (Text × Value F)} (h : (Value.obj members).Distinct)
    (key : String) {default : Value F} (hdefault : default.Distinct) :
    (get members key default).Distinct := by
  rw [get]
  cases hfind : members.find? (·.1 == key.toList) with
  | none => exact hdefault
  | some m =>
    obtain ⟨k, v⟩ := m
    have hv := (Json.distinctMembers_iff members).mp h.2 (k, v) (List.mem_of_find?_eq_some hfind)
    rwa [Value.distinctMember] at hv

theorem distinct_empty : (Value.obj ([] : List (Text × Value F))).Distinct := by
  rw [Value.Distinct, Value.distinctMembers]
  exact ⟨List.nodup_nil, trivial⟩

/-- The media type a representation is stored under. -/
theorem IsWritten.mediaType_eq {mediaType : Text} {v : Value F} {r : RuntimeOutputRepresentation}
    {w : Written} (hr : outputRepresentation py mediaType v = .ok r) (hw : IsWritten py r w) :
    r.mediaType = normalized py mediaType ∧ w.1.mediaType = normalized py mediaType := by
  have hmedia : r.mediaType = py.lower (strip mediaType) := (outputRepresentation_ok hr).1
  refine ⟨hmedia, ?_⟩
  rw [hw.mediaType, hmedia, py.lower_lower, py.strip_lower, normalized]

/-- Display data is read back as it was exactly when each of its values is. -/
theorem sameData_iff {data : List (Text × Value F)} {reps : List RuntimeOutputRepresentation}
    {written : List Written} (hdistinct : ∀ p ∈ data, p.2.Distinct)
    (hreps : List.Forall₂ (fun p r => outputRepresentation py p.1 p.2 = .ok r) data reps)
    (hwritten : List.Forall₂ (IsWritten py) reps written) :
    (∃ values, List.Forall₂ (IsRead py) written values ∧ SameData py data values) ↔
      ∀ p ∈ data, PreservedValue (normalized py p.1) p.2 := by
  induction hreps generalizing written with
  | nil =>
    cases hwritten
    exact ⟨fun _ p hp => absurd hp List.not_mem_nil, fun _ => ⟨[], .nil, .nil⟩⟩
  | @cons p r data reps hr hreps ih =>
    cases hwritten with
    | @cons _ w _ written hw hrest =>
      obtain ⟨hrepresented, hstored⟩ := hw.mediaType_eq hr
      have hvalue := decodeBody_iff (hdistinct p List.mem_cons_self) hr hw.body
      rw [hrepresented] at hvalue
      have htail := ih (fun q hq => hdistinct q (List.mem_cons_of_mem _ hq)) hrest
      constructor
      · rintro ⟨values, hread, hsame⟩
        cases hread with
        | @cons _ m _ values hm hread =>
          cases hsame with
          | cons hp hsame =>
            rw [IsRead, hstored] at hm
            have hsaved : PreservedValue (normalized py p.1) p.2 :=
              hvalue.mp ⟨m.2, hm.2, by rw [← hm.1]; exact hp.2⟩
            intro q hq
            rcases List.mem_cons.mp hq with rfl | hq
            · exact hsaved
            · exact htail.mp ⟨values, hread, hsame⟩ q hq
      · intro h
        obtain ⟨v, hv, hsamev⟩ := hvalue.mpr (h p List.mem_cons_self)
        obtain ⟨values, hread, hsame⟩ := htail.mpr fun q hq => h q (List.mem_cons_of_mem _ hq)
        refine ⟨(normalized py p.1, v) :: values, .cons ?_ hread, .cons ⟨rfl, hsamev⟩ hsame⟩
        exact ⟨hstored.symm, by rw [hstored]; exact hv⟩

/-- Distinct media types are collected in order. -/
theorem foldl_sameData {data values : List (Text × Value F)} {reps : List RuntimeOutputRepresentation}
    {written : List Written} (hkeys : (data.map fun p => normalized py p.1).Nodup)
    (hreps : List.Forall₂ (fun p r => outputRepresentation py p.1 p.2 = .ok r) data reps)
    (hwritten : List.Forall₂ (IsWritten py) reps written)
    (hread : List.Forall₂ (IsRead py) written values) :
    values.foldl Json.insertMember [] = values := by
  have hsame : values.map (·.1) = data.map fun p => normalized py p.1 := by
    clear hkeys
    induction hreps generalizing written values with
    | nil =>
      cases hwritten
      cases hread
      rfl
    | cons hr hreps ih =>
      cases hwritten with
      | cons hw hrest =>
        cases hread with
        | cons hm hread =>
          rw [List.map_cons, List.map_cons, ih hrest hread, hm.1, (hw.mediaType_eq hr).2]
  rw [← hsame] at hkeys
  exact Json.foldl_insertMember [] values hkeys

/-- What `as_display_record` accepts. -/
theorem asDisplayRecord_ok {kind : OutputKind} {m : Message F} {record : RuntimeOutputRecord F}
    (hscope : m.InScope py) (h : asDisplayRecord py kind m.content = .ok record) :
    ∃ metadata executionCount,
      get m.content "metadata" (.obj []) = .obj metadata ∧
      executionCountOf m.executionCount = .ok executionCount ∧
      List.Forall₂ (fun p r => outputRepresentation py p.1 p.2 = .ok r) m.data
        record.representations ∧
      record.kind = kind ∧ record.executionCount = executionCount ∧ record.metadata = metadata := by
  unfold asDisplayRecord at h
  split at h
  · rename_i data hdata
    have hmdata : m.data = data := by
      unfold Message.data
      rw [hdata]
    obtain ⟨reps, hreps, h⟩ := bind_ok.mp h
    rw [mapM_ok] at hreps
    have hnonempty : reps ≠ [] := by
      rintro rfl
      cases hreps
      exact hscope.nonempty hmdata
    rw [if_neg hnonempty] at h
    split at h
    · rename_i metadata hmetadata
      obtain ⟨executionCount, hcount, h⟩ := bind_ok.mp h
      rw [pure_ok] at h
      have htransient : withTransient metadata (get m.content "transient" (.constant .null)) =
          metadata := by
        unfold withTransient
        split
        · rename_i t ts heq
          exact absurd heq (hscope.transient t ts)
        · rfl
      rw [htransient] at h
      subst h
      exact ⟨metadata, executionCount, hmetadata, hcount, hmdata ▸ hreps, rfl, rfl, rfl⟩
    · cases h
  · cases h

theorem Message.distinct_data (m : Message F) : ∀ p ∈ m.data, p.2.Distinct := by
  have hdata : (get m.content "data" (.obj [])).Distinct :=
    distinct_get m.distinct _ distinct_empty
  intro p hp
  unfold Message.data at hp
  split at hp
  · rename_i data heq
    rw [heq] at hdata
    obtain ⟨k, v⟩ := p
    have hv := (Json.distinctMembers_iff data).mp hdata.2 (k, v) hp
    rwa [Value.distinctMember] at hv
  · cases hp

/-- Display data and results. -/
theorem display_round_trip {kind : OutputKind} {m : Message F} {ordinal : ℕ}
    {record : RuntimeOutputRecord F} {d : OutputDescriptor F}
    {files : List (OutputFile × List UInt8)} (hscope : m.InScope py)
    (hrecord : asDisplayRecord py kind m.content = .ok record)
    (hpersist : persistRecord py ordinal record = .ok (d, files)) :
    ∃ metadata executionCount, get m.content "metadata" (.obj []) = .obj metadata ∧
      executionCountOf m.executionCount = .ok executionCount ∧
      d.kind = kind ∧ d.metadata = .obj metadata ∧ d.executionCount = executionCount ∧
      ((∃ values, d.representations.mapM (fun r => do
            let v ← representationValue py files r
            return (r.mediaType, v)) = .ok values ∧
          SameData py m.data (values.foldl Json.insertMember [])) ↔
        ∀ p ∈ m.data, PreservedValue (normalized py p.1) p.2) := by
  obtain ⟨metadata, executionCount, hmetadata, hcount, hreps, hkind, hcount', hmetadata'⟩ :=
    asDisplayRecord_ok hscope hrecord
  have hdistinct : (Value.obj record.metadata).Distinct := by
    rw [hmetadata', ← hmetadata]
    exact distinct_get m.distinct _ distinct_empty
  obtain ⟨written, hwritten, hfiles, rfl, rfl⟩ := persistRecord_ok hdistinct hpersist
  refine ⟨metadata, executionCount, hmetadata, hcount, hkind, congrArg _ hmetadata', hcount', ?_⟩
  have hmatches := matches_of_isWritten hwritten
  rw [← sameData_iff m.distinct_data hreps hwritten]
  simp only [notebookOutput_values hmatches hfiles]
  constructor
  · rintro ⟨values, hread, hsame⟩
    rw [foldl_sameData hscope.distinct hreps hwritten hread] at hsame
    exact ⟨values, hread, hsame⟩
  · rintro ⟨values, hread, hsame⟩
    rw [← foldl_sameData hscope.distinct hreps hwritten hread] at hsame
    exact ⟨values, hread, hsame⟩

/-- One text: what is read back of a record with a single `text/plain` part. -/
theorem text_round_trip {ordinal : ℕ} {record : RuntimeOutputRecord F} {d : OutputDescriptor F}
    {files : List (OutputFile × List UInt8)} {text : Text}
    (hreps : record.representations = [⟨"text/plain".toList, .utf8, text⟩])
    (hmetadata : (Value.obj record.metadata).Distinct)
    (hpersist : persistRecord py ordinal record = .ok (d, files)) :
    d.kind = record.kind ∧ d.streamName = record.streamName ∧
      d.metadata = .obj record.metadata ∧
      d.representations.mapM (fun r => do
        let v ← representationValue py files r
        return (r.mediaType, v)) = .ok [("text/plain".toList, .str text)] := by
  obtain ⟨written, hwritten, hfiles, rfl, rfl⟩ := persistRecord_ok hmetadata hpersist
  refine ⟨rfl, rfl, rfl, ?_⟩
  rw [hreps] at hwritten
  cases hwritten with
  | @cons _ w _ _ hw hrest =>
    cases hrest
    have hmedia : w.1.mediaType = "text/plain".toList := by
      rw [hw.mediaType]
      show strip (py.lower "text/plain".toList) = _
      have hascii : ("text/plain".toList.all fun c => decide (c.toNat < 128)) = true := by decide
      rw [py.lower_ascii _ fun c hc => of_decide_eq_true (List.all_eq_true.mp hascii c hc)]
      decide
    have hbody : w.2.2 = utf8Encode text := by
      have h := hw.body
      rw [representationBody] at h
      exact (Except.ok.inj h).symm
    rw [notebookOutput_values (matches_of_isWritten (.cons hw .nil)) hfiles]
    refine .cons ⟨hmedia.symm, ?_⟩ .nil
    rw [hmedia, hbody, decodeBody, utf8Decode_utf8Encode]
    rfl

/-- Reading a descriptor back, in its two parts. -/
theorem notebookOutput_ok {d : OutputDescriptor F} {files : List (OutputFile × List UInt8)}
    {metadata : List (Text × Value F)} (hmetadata : d.metadata = .obj metadata)
    {out : NotebookOutput F} :
    notebookOutput py files d = .ok out ↔ ∃ values, d.representations.mapM (fun r => do
        let v ← representationValue py files r
        return (r.mediaType, v)) = .ok values ∧
      out = match d.kind with
        | .stream =>
          .stream (if d.streamName.getD [] = [] then "stdout".toList else d.streamName.getD [])
            (py.str (get (values.foldl Json.insertMember []) "text/plain" (textValue "")))
        | .display => .displayData (values.foldl Json.insertMember []) metadata
        | .result =>
          .executeResult (values.foldl Json.insertMember []) metadata d.executionCount
        | .error => .error (py.str (get metadata "ename" (textValue "ExecutionError")))
            (py.str (get metadata "evalue" (textValue "")))
            (splitlines
              (py.str (get (values.foldl Json.insertMember []) "text/plain" (textValue "")))) := by
  rw [notebookOutput, bind_ok]
  refine exists_congr fun values => and_congr_right fun _ => ?_
  simp only [hmetadata]
  cases d.kind <;> exact pure_ok.trans eq_comm

theorem get_text (text : Text) : get ([("text/plain".toList, (.str text : Value F))].foldl
    Json.insertMember []) "text/plain" (textValue "") = .str text :=
  rfl

theorem stream_round_trip {m : Message F} (hm : m.type = .stream) {ordinal : ℕ}
    {record : RuntimeOutputRecord F} {d : OutputDescriptor F}
    {files : List (OutputFile × List UInt8)} (hrecord : asOutputRecord py m = .ok record)
    (hpersist : persistRecord py ordinal record = .ok (d, files)) :
    (∃ out, notebookOutput py files d = .ok out ∧ SameOutput py m out) ↔ Preserved py m := by
  rw [asOutputRecord, hm] at hrecord
  cases hrecord
  obtain ⟨hkind, hname, hmetadata, hvalues⟩ := text_round_trip rfl distinct_empty hpersist
  simp only [notebookOutput_ok hmetadata, hkind, hname, hvalues, Except.ok.injEq,
    exists_eq_left', exists_eq_left, SameOutput, Preserved, hm, Option.getD_some]
  rw [get_text, py.str_str]
  constructor
  · rintro ⟨_, hsame, _⟩ hempty
    rw [if_pos hempty, hempty] at hsame
    cases hsame
  · intro hne
    exact ⟨trivial, if_neg hne, rfl⟩

theorem distinct_error (name value : Text) :
    (Value.obj [("ename".toList, (.str name : Value F)), ("evalue".toList, .str value)]).Distinct := by
  simp only [Value.Distinct, Value.distinctMembers, Value.distinctMember]
  have hkeys : ["ename".toList, "evalue".toList].Nodup := by decide
  exact ⟨hkeys, trivial, trivial, trivial⟩

theorem error_round_trip {m : Message F} (hm : m.type = .error) {ordinal : ℕ}
    {record : RuntimeOutputRecord F} {d : OutputDescriptor F}
    {files : List (OutputFile × List UInt8)} (hrecord : asOutputRecord py m = .ok record)
    (hpersist : persistRecord py ordinal record = .ok (d, files)) :
    (∃ out, notebookOutput py files d = .ok out ∧ SameOutput py m out) ↔ Preserved py m := by
  rw [asOutputRecord, hm] at hrecord
  simp only at hrecord
  split at hrecord
  · rename_i traceback htraceback
    have htracebackText : m.tracebackText py = joinLines (traceback.map py.str) := by
      unfold Message.tracebackText
      rw [htraceback]
    cases hrecord
    obtain ⟨hkind, hname, hmetadata, hvalues⟩ :=
      text_round_trip rfl (distinct_error _ _) hpersist
    simp only [notebookOutput_ok hmetadata, hkind, hvalues, Except.ok.injEq,
      exists_eq_left', exists_eq_left, SameOutput, Preserved, hm]
    set name := py.str (get m.content "ename" (textValue "Error"))
    set value := py.str (get m.content "evalue" (textValue ""))
    have hname : get [("ename".toList, (.str name : Value F)), ("evalue".toList, .str value)]
        "ename" (textValue "ExecutionError") = .str name := rfl
    have hvalue : get [("ename".toList, (.str name : Value F)), ("evalue".toList, .str value)]
        "evalue" (textValue "") = .str value := rfl
    rw [hname, hvalue, get_text, py.str_str, py.str_str, py.str_str, errorText, ← htracebackText]
    by_cases hempty : m.tracebackText py = []
    · -- The name and the value stand for an empty traceback.
      rw [if_pos hempty, hempty]
      refine ⟨?_, fun h => absurd rfl h.1⟩
      rintro ⟨_, _, _, hjoin⟩
      have hcolon : ':' ∈ joinLines (splitlines (name ++ ": ".toList ++ value)) :=
        mem_joinLines_splitlines (by decide) (by simp)
      rw [hjoin] at hcolon
      exact absurd hcolon List.not_mem_nil
    · rw [if_neg hempty, joinLines_splitlines_iff]
      exact ⟨fun h => ⟨hempty, h.2.2.2⟩, fun h => ⟨trivial, rfl, rfl, h.2⟩⟩
  · cases hrecord

end

/-! ### Two messages -/

/-- `toLower` moves ASCII characters only. -/
theorem toLower_cases (c : Char) : c.toLower = c ∨ c.toNat < 128 := by
  unfold Char.toLower
  split
  · rename_i h
    have hle : c.toNat ≤ 'Z'.toNat := h.2
    exact .inr (lt_of_le_of_lt hle (by decide))
  · exact .inl rfl

theorem isSpace_toLower (c : Char) : isSpace c.toLower = isSpace c := by
  rcases toLower_cases c with h | h
  · rw [h]
  · have hascii : ∀ n < 128, isSpace (Char.ofNat n).toLower = isSpace (Char.ofNat n) := by decide
    have hc := hascii c.toNat h
    rwa [Char.ofNat_toNat] at hc

theorem toLower_toLower (c : Char) : c.toLower.toLower = c.toLower := by
  rcases toLower_cases c with h | h
  · rw [h, h]
  · have hascii : ∀ n < 128, (Char.ofNat n).toLower.toLower = (Char.ofNat n).toLower := by decide
    have hc := hascii c.toNat h
    rwa [Char.ofNat_toNat] at hc

theorem strip_map {f : Char → Char} (hf : ∀ c, isSpace (f c) = isSpace c) (s : Text) :
    strip (s.map f) = (strip s).map f := by
  have hspace : isSpace ∘ f = isSpace := funext hf
  rw [strip, strip, List.dropWhile_map, hspace, ← List.map_reverse, List.dropWhile_map, hspace,
    List.map_reverse]

theorem strip_strip (s : Text) : strip (strip s) = strip s := by
  have hstrip : ∀ t : Text, strip t = (t.dropWhile isSpace).rdropWhile isSpace := fun _ => rfl
  set t := s.dropWhile isSpace with ht
  have hs : strip s = t.rdropWhile isSpace := hstrip s
  -- What is left still starts with no space.
  have hhead : (t.rdropWhile isSpace).dropWhile isSpace = t.rdropWhile isSpace := by
    obtain ⟨rest, hrest⟩ := List.rdropWhile_prefix isSpace (l := t)
    cases hu : t.rdropWhile isSpace with
    | nil => rfl
    | cons c cs =>
      rw [hu] at hrest
      have hidem : t.dropWhile isSpace = t := List.dropWhile_idempotent ..
      rw [← hrest, List.cons_append] at hidem
      have hc : isSpace c = false := by
        by_contra hspace
        rw [List.dropWhile_cons_of_pos (by simpa using hspace)] at hidem
        have hlength := congrArg List.length hidem
        have hle := (List.dropWhile_suffix isSpace (l := cs ++ rest)).length_le
        rw [List.length_cons] at hlength
        omega
      exact List.dropWhile_cons_of_neg (by simp [hc])
  rw [hs, hstrip, hhead, List.rdropWhile_idempotent]

namespace Small

/-- `str` of texts; the messages below hold no other value. -/
def python : Python Unit where
  floats := {
    repr := fun _ => ⟨false, ['0'], ['.', '0'], []⟩
    float := fun _ => ()
    float_repr := fun _ => rfl
    valid := fun _ => ⟨.inl rfl, .inr ⟨'0', [], rfl, by simp [Json.Digits, Json.isDigit]⟩, .inl rfl⟩
    isFloat := fun _ => .inl (List.cons_ne_nil _ _) }
  str
    | .str s => s
    | _ => []
  str_str := fun _ => rfl
  lower := List.map Char.toLower
  lower_ascii := fun _ _ => rfl
  lower_lower := by
    intro s
    rw [List.map_map]
    exact List.map_congr_left fun c _ => toLower_toLower c
  strip_lower := by
    intro s
    rw [strip_map isSpace_toLower, strip_strip]
  sha256 := fun body =>
    if body = utf8Encode "<svg/>".toList then
      "d4dc56669143034f31aa309635d4113d9ad76a02b1739da22c965ed2049be9e6".toList
    else "8f434346648f6b96df89dda901c5176b10a6d83961dd3c1ac88b59b2dc327aa4".toList

/-- A `display_data` message with one representation. -/
def display (mediaType text : String) : Message Unit where
  type := .displayData
  content := [("data".toList, .obj [(mediaType.toList, .str text.toList)]),
    ("metadata".toList, .obj [])]
  distinct := by
    have hkeys : ["data".toList, "metadata".toList].Nodup := by decide
    simp only [Value.Distinct, Value.distinctMembers, Value.distinctMember]
    exact ⟨hkeys, ⟨List.nodup_singleton _, trivial, trivial⟩, ⟨List.nodup_nil, trivial⟩, trivial⟩

/-- What is stored for it, as output 0. -/
def stored (mediaType text checksum : String) : OutputDescriptor Unit where
  ordinal := 0
  kind := .display
  streamName := none
  executionCount := none
  representations := [⟨mediaType.toList, .utf8, ⟨0, .display, 0⟩, text.length, checksum.toList⟩]
  metadata := .obj []

/-- A display message with one representation is in scope. -/
theorem inScope_display (mediaType text : String) : (display mediaType text).InScope python where
  nonempty := List.cons_ne_nil _ _
  transient := fun _ _ h => by cases h
  distinct := List.nodup_singleton _

end Small

/-! ### The theorem -/

/-- A message that is accepted and stored comes back as it was exactly when it is
`Preserved`. -/
theorem codec_round_trip {F : Type} (py : Python F) (m : Message F) (hscope : m.isDisplay → m.InScope py)
    (ordinal : ℕ) (record : RuntimeOutputRecord F) (hrecord : asOutputRecord py m = .ok record)
    (d : OutputDescriptor F) (files : List (OutputFile × List UInt8))
    (hpersist : persistRecord py ordinal record = .ok (d, files)) :
    (∃ out, notebookOutput py files d = .ok out ∧ SameOutput py m out) ↔ Preserved py m := by
  cases hm : m.type with
  | stream => exact stream_round_trip hm hrecord hpersist
  | error => exact error_round_trip hm hrecord hpersist
  | displayData =>
    rw [asOutputRecord, hm] at hrecord
    obtain ⟨metadata, executionCount, hmetadata, hcount, hkind, hdmetadata, _, hdata⟩ :=
      display_round_trip (hscope (by rw [Message.isDisplay, hm]; rfl)) hrecord hpersist
    simp only [notebookOutput_ok hdmetadata, hkind, Preserved, hm, ← hdata]
    constructor
    · rintro ⟨_, ⟨values, hvalues, rfl⟩, _, hsame, _, hnull⟩
      exact ⟨⟨values, hvalues, hsame⟩, hnull⟩
    · rintro ⟨⟨values, hvalues, hsame⟩, hnull⟩
      exact ⟨_, ⟨values, hvalues, rfl⟩, hm, hsame, hmetadata, hnull⟩
  | executeResult =>
    rw [asOutputRecord, hm] at hrecord
    obtain ⟨metadata, executionCount, hmetadata, hcount, hkind, hdmetadata, hdcount, hdata⟩ :=
      display_round_trip (hscope (by rw [Message.isDisplay, hm]; rfl)) hrecord hpersist
    simp only [notebookOutput_ok hdmetadata, hkind, hdcount, Preserved, hm, ← hdata]
    constructor
    · rintro ⟨_, ⟨values, hvalues, rfl⟩, _, hsame, _⟩
      exact ⟨values, hvalues, hsame⟩
    · rintro ⟨values, hvalues, hsame⟩
      exact ⟨_, ⟨values, hvalues, rfl⟩, hm, hsame, hmetadata, hcount⟩

theorem codec_round_trip_text :
    ∃ out, notebookOutput Small.python [(⟨0, .display, 0⟩, utf8Encode "hi".toList)]
        (Small.stored "text/plain" "hi"
          "8f434346648f6b96df89dda901c5176b10a6d83961dd3c1ac88b59b2dc327aa4") = .ok out ∧
      SameOutput Small.python (Small.display "text/plain" "hi") out :=
  (codec_round_trip Small.python (Small.display "text/plain" "hi")
    (fun _ => Small.inScope_display _ _) 0 _ rfl _ _ rfl).mpr
    ⟨by
      intro p hp
      rw [List.mem_singleton.mp hp]
      rfl, rfl⟩

theorem svg_is_not_preserved :
    ∃ record d files,
      (Small.display "image/svg+xml" "<svg/>").InScope Small.python ∧
      asOutputRecord Small.python (Small.display "image/svg+xml" "<svg/>") = .ok record ∧
      persistRecord Small.python 0 record = .ok (d, files) ∧
      ¬ ∃ out, notebookOutput Small.python files d = .ok out ∧
        SameOutput Small.python (Small.display "image/svg+xml" "<svg/>") out := by
  refine ⟨_, _, _, Small.inScope_display _ _, rfl, rfl, ?_⟩
  rintro ⟨out, hout, hsame⟩
  -- The text comes back as the base64 of its bytes.
  have hread : out = .displayData [("image/svg+xml".toList, .str "PHN2Zy8+".toList)] [] :=
    Except.ok.inj (hout.symm.trans rfl)
  subst hread
  obtain ⟨_, hdata, _⟩ := hsame
  cases hdata with
  | cons hvalue _ =>
    have hsvg : isBase64 "image/svg+xml".toList = false := by decide
    have hkeys : SameValue "image/svg+xml".toList (.str "<svg/>".toList)
        (.str "PHN2Zy8+".toList) := hvalue.2
    rw [SameValue, hsvg] at hkeys
    have htext : "<svg/>".toList = "PHN2Zy8+".toList := Value.str.inj hkeys
    exact absurd htext (by decide)

end ExecutorService.Codec
