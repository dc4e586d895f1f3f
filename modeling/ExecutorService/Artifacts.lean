/-
Artifacts declared in the manifest of a workspace (`infrastructure/artifacts/`).

Tools append JSON Lines to `artifacts/manifest.jsonl`.  `_manifest_descriptors` reads the
appended text line by line and makes a descriptor of each entry; it takes the lines from
`str.splitlines`, which breaks a text not only at newlines but at every line boundary of
Unicode, some of which may stand in a JSON string as they are.

The validation of an entry's fields is pydantic's and a parameter, `validateFields`; so
are the Runtime's file metadata and the checks of `urlsplit` on unusual hosts.

* `Manifest.Line` — what may stand on a line: an entry with whitespace around, or nothing;
* `manifest_lines` — every entry has its descriptor exactly if no text of an entry
  contains a line boundary.
-/
import ExecutorService.Api
import ExecutorService.CodecRoundTrip
import ExecutorService.JsonPrefixes
import ExecutorService.Redaction

namespace ExecutorService

open Json (Value)
open Codec (Text)

/-! ### Models -/

/-- An entry of the manifest. -/
structure ArtifactManifestEntry (F : Type) where
  storageType : ArtifactStorageType
  artifactType : ArtifactType
  path : Option Text := none
  uri : Option Text := none
  name : Option Text := none
  description : Option Text := none
  mediaType : Option Text := none
  sizeBytes : Option ℕ := none
  checksumSha256 : Option Text := none
  parentArtifactId : Option UUID := none
  externalParentAssetId : Option Text := none
  metadata : List (Text × Value F) := []

/-- `validate_location`. -/
def ArtifactManifestEntry.validateLocation {F : Type} (entry : ArtifactManifestEntry F) : Bool :=
  match entry.storageType with
  | .pv => entry.path.isSome && entry.uri.isNone
  | .s3 => entry.uri.isSome && entry.path.isNone && entry.sizeBytes.isSome &&
      entry.checksumSha256.isSome

/-- An Artifact that is registered. -/
structure ArtifactDescriptor (F : Type) where
  artifactType : ArtifactType
  storageType : ArtifactStorageType
  status : ArtifactStatus
  name : Text
  description : Option Text
  uri : Text
  relativePath : Option Text
  mediaType : Option Text
  sizeBytes : Option ℕ
  checksumSha256 : Option Text
  parentArtifactId : Option UUID
  externalParentAssetId : Option Text
  metadata : List (Text × Value F)

/-- The metadata of a Runtime file. -/
structure ArtifactFile where
  path : Text
  name : Text
  sizeBytes : ℕ
  mediaType : Option Text
  checksumSha256 : Text

/-- The error of a registration. -/
structure ArtifactRegistrationError where
  message : String
  deriving DecidableEq, Repr

/-! ### Paths and URIs -/

/-- The parts of a `PurePosixPath`, without the root. -/
def pathParts (path : Text) : List Text :=
  (path.splitOn '/').filter fun part => part != [] && part != ['.']

/-- A character of the category `Cc`. -/
def isControl (c : Char) : Bool :=
  c.toNat < 0x20 || (0x7F ≤ c.toNat && c.toNat ≤ 0x9F)

/-- The Runtime's path of an entry. -/
def manifestRuntimePath (raw workspacePath : Text) : Except ArtifactRegistrationError Text :=
  if raw = [] ∨ '\\' ∈ raw ∨ "..".toList ∈ raw.splitOn '/' ∨ raw.any isControl then
    .error ⟨"PV manifest path contains an unsafe segment or character."⟩
  else if raw.head? = some '/' ∨ (pathParts raw).head? = some "tenants".toList then .ok raw
  else if pathParts raw = [] then .error ⟨"PV manifest path contains an unsafe segment."⟩
  else .ok (workspacePath ++ '/' :: List.intercalate ['/'] (pathParts raw))

/-- The parts of a URI, as `urlsplit` gives them. -/
structure SplitResult where
  scheme : Text
  netloc : Text
  path : Text
  query : Text
  fragment : Text

/-- A character of a scheme. -/
def isSchemeChar (c : Char) : Bool :=
  c.isAlphanum || c == '+' || c == '-' || c == '.'

/-- `urlsplit`; `checkNetloc` are its checks on brackets and compatibility characters. -/
def urlsplit (checkNetloc : Text → Bool) (url : Text) : Option SplitResult :=
  let url := (url.dropWhile fun c => c.toNat ≤ 0x20).filter fun c =>
    c != '\t' && c != '\r' && c != '\n'
  let before := url.takeWhile (· != ':')
  let (scheme, url) :=
    if before.length < url.length ∧ before.head?.any Char.isAlpha ∧ before.all isSchemeChar then
      (before.map Char.toLower, url.drop (before.length + 1))
    else ([], url)
  let isDelimiter (c : Char) : Bool := c == '/' || c == '?' || c == '#'
  let (netloc, url) :=
    if url.take 2 = ['/', '/'] then
      ((url.drop 2).takeWhile (!isDelimiter ·), (url.drop 2).dropWhile (!isDelimiter ·))
    else ([], url)
  let fragment := (url.dropWhile (· != '#')).drop 1
  let url := url.takeWhile (· != '#')
  let query := (url.dropWhile (· != '?')).drop 1
  if netloc = [] ∨ checkNetloc netloc then some ⟨scheme, netloc, url.takeWhile (· != '?'), query, fragment⟩
  else none

/-- `parsed.username or parsed.password`. -/
def SplitResult.hasUserInfo (r : SplitResult) : Bool :=
  let userInfo := (r.netloc.rdropWhile (· != '@')).dropLast
  userInfo != [] && userInfo != [':']

/-- `validate_s3_uri`. -/
def validateS3Uri (parsed : SplitResult) : Except ArtifactRegistrationError Unit :=
  if parsed.scheme ≠ "s3".toList ∨ parsed.netloc = [] ∨ parsed.path.dropWhile (· == '/') = [] then
    .error ⟨"S3 Artifact uri must be s3://bucket/key."⟩
  else if parsed.hasUserInfo ∨ parsed.query ≠ [] ∨ parsed.fragment ≠ [] then
    .error ⟨"S3 Artifact uri must not contain credentials or query."⟩
  else .ok ()

/-! ### Descriptors -/

section

variable {F : Type} (py : Codec.Python F) (checkNetloc : Text → Bool)
  (fileMetadata : Text → Except ArtifactRegistrationError ArtifactFile)
  (validateFields : List (Text × Value F) → Option (ArtifactManifestEntry F))

/-- A text that is there and not empty, or the next one. -/
def orText (s : Option Text) (other : Text) : Text :=
  (s.filter (· ≠ [])).getD other

/-- `{**metadata, "verification": verification}`, redacted. -/
def verifiedMetadata (metadata : List (Text × Value F)) (verification : String) :
    List (Text × Value F) :=
  redactMembers py (Json.insertMember metadata ("verification".toList,
    Codec.textValue verification))

/-- `runtime_file_descriptor` of a manifest entry; there is one type of Runtime. -/
def runtimeFileDescriptor (file : ArtifactFile) (entry : ArtifactManifestEntry F)
    (status : ArtifactStatus) : ArtifactDescriptor F where
  artifactType := entry.artifactType
  storageType := .pv
  status := status
  name := orText entry.name file.name
  description := entry.description
  uri := "jupyter-pv:///".toList ++ file.path
  relativePath := some file.path
  mediaType := (entry.mediaType.filter (· ≠ [])) <|> file.mediaType
  sizeBytes := some file.sizeBytes
  checksumSha256 := some file.checksumSha256
  parentArtifactId := entry.parentArtifactId
  externalParentAssetId := entry.externalParentAssetId
  metadata := verifiedMetadata py entry.metadata "runtime-computed"

/-- The Artifact of an entry. -/
def manifestDescriptor (workspacePath : Text) (entry : ArtifactManifestEntry F)
    (status : ArtifactStatus) : Except ArtifactRegistrationError (ArtifactDescriptor F) :=
  match entry.storageType with
  | .pv => match entry.path with
    | none => .error ⟨"PV manifest path is missing."⟩
    | some path => do
      let file ← fileMetadata (← manifestRuntimePath path workspacePath)
      return runtimeFileDescriptor py file entry status
  | .s3 => match entry.uri with
    | none => .error ⟨"S3 manifest uri is missing."⟩
    | some uri => match urlsplit checkNetloc uri with
      | none => .error ⟨"Invalid URL"⟩
      | some parsed => do
        validateS3Uri parsed
        return {
          artifactType := entry.artifactType, storageType := .s3, status := status
          name := orText entry.name (orText (pathParts parsed.path).getLast? "s3-artifact".toList)
          description := entry.description, uri := uri, relativePath := none
          mediaType := entry.mediaType, sizeBytes := entry.sizeBytes
          checksumSha256 := (entry.checksumSha256.filter (· ≠ [])).map py.lower
          parentArtifactId := entry.parentArtifactId
          externalParentAssetId := entry.externalParentAssetId
          metadata := verifiedMetadata py entry.metadata "manifest-declared" }

/-- `ArtifactManifestEntry.model_validate_json`: a JSON object whose fields are valid. -/
def modelValidateJson (raw : Text) : Option (ArtifactManifestEntry F) :=
  match Json.loads py.floats raw with
  | some (.obj members) => (validateFields members).filter (·.validateLocation)
  | _ => none

/-! ### The manifest -/

/-- The descriptor of one line, or `none` for an error. -/
def lineDescriptor (workspacePath : Text) (status : ArtifactStatus) (raw : Text) :
    Option (ArtifactDescriptor F) := do
  let entry ← modelValidateJson py validateFields raw
  (manifestDescriptor py checkNetloc fileMetadata workspacePath entry status).toOption

/-- The loop over the lines, from a line number on. -/
def descriptorsFrom (workspacePath : Text) (status : ArtifactStatus) :
    ℕ → List Text → Except ArtifactRegistrationError (List (ArtifactDescriptor F))
  | _, [] => .ok []
  | lineNumber, raw :: lines =>
    if Codec.strip raw = [] then descriptorsFrom workspacePath status (lineNumber + 1) lines
    else match lineDescriptor py checkNetloc fileMetadata validateFields workspacePath status raw with
      | none => .error ⟨s!"Invalid Artifact manifest entry near appended line {lineNumber}."⟩
      | some descriptor => do
        return descriptor :: (← descriptorsFrom workspacePath status (lineNumber + 1) lines)

/-- `_manifest_descriptors`. -/
def manifestDescriptors (workspacePath : Text) (content : List UInt8) (status : ArtifactStatus) :
    Except ArtifactRegistrationError (List (ArtifactDescriptor F)) :=
  match Codec.utf8Decode content with
  | none => .error ⟨"Artifact manifest must be UTF-8."⟩
  | some text => descriptorsFrom py checkNetloc fileMetadata validateFields workspacePath status 1
      (Codec.splitlines text)

end

/-! ### Lines of a text -/

namespace Manifest

/-- `raw.strip()` is empty. -/
def Blank (raw : Text) : Prop :=
  ∀ c ∈ raw, Codec.isSpace c = true

theorem strip_eq_nil_iff (raw : Text) : Codec.strip raw = [] ↔ Blank raw := by
  rw [Codec.strip, List.reverse_eq_nil_iff, List.dropWhile_eq_nil_iff]
  simp only [List.mem_reverse]
  constructor
  · intro h c hc
    rw [← List.takeWhile_append_dropWhile (p := Codec.isSpace) (l := raw), List.mem_append] at hc
    rcases hc with hc | hc
    · exact List.mem_takeWhile_imp hc
    · exact h c hc
  · exact fun h c hc => h c ((List.dropWhile_sublist _).subset hc)

/-- The lines that are not blank. -/
def pieces (text : Text) : List Text :=
  (Codec.splitlines text).filter fun raw => Codec.strip raw != []

/-- `str.splitlines` breaks the text nowhere. -/
def Unbroken (text : Text) : Prop :=
  ∀ c ∈ text, Codec.isLineBoundary c = false

theorem splitlines_cons {c : Char} (hc : Codec.isLineBoundary c = false) (cs : Text) :
    Codec.splitlines (c :: cs) = match Codec.splitlines cs with
      | [] => [[c]]
      | line :: lines => (c :: line) :: lines := by
  have hcrlf : ∀ tail, c = '\r' → cs = '\n' :: tail → False := by
    rintro tail rfl
    cases hc
  refine (Codec.splitlines.eq_3 c cs hcrlf).trans ((if_neg (by rw [hc]; decide)).trans ?_)
  cases Codec.splitlines cs <;> rfl

theorem splitlines_unbroken {p : Text} (hp : Unbroken p) :
    Codec.splitlines p = if p = [] then [] else [p] := by
  induction p with
  | nil => rfl
  | cons c p ih =>
    have hrest := ih fun d hd => hp d (List.mem_cons_of_mem _ hd)
    rw [splitlines_cons (hp c List.mem_cons_self), hrest, if_neg (List.cons_ne_nil _ _)]
    by_cases hnil : p = []
    · rw [if_pos hnil, hnil]
    · rw [if_neg hnil]

theorem pieces_boundary_cons {c : Char} (hc : Codec.isLineBoundary c = true) (cs : Text) :
    ∃ rest, Codec.splitlines (c :: cs) = [] :: rest ∧
      (rest.filter fun raw => Codec.strip raw != []) = pieces cs := by
  by_cases hcrlf : ∃ tail, c = '\r' ∧ cs = '\n' :: tail
  · obtain ⟨tail, rfl, rfl⟩ := hcrlf
    refine ⟨Codec.splitlines tail, by rw [Codec.splitlines], ?_⟩
    rw [pieces, Codec.splitlines, if_pos (by decide)]
    · rfl
    · intro tail h
      cases h
  · refine ⟨Codec.splitlines cs, ?_, rfl⟩
    rw [Codec.splitlines, if_pos hc]
    exact fun tail h hcs => hcrlf ⟨tail, h, hcs⟩

/-- The line up to a boundary, and the lines behind it. -/
theorem splitlines_boundary {p : Text} (hp : Unbroken p) {c : Char}
    (hc : Codec.isLineBoundary c = true) (cs : Text) :
    ∃ rest, Codec.splitlines (p ++ c :: cs) = p :: rest ∧
      (rest.filter fun raw => Codec.strip raw != []) = pieces cs := by
  induction p with
  | nil => exact pieces_boundary_cons hc cs
  | cons d p ih =>
    obtain ⟨rest, hsplit, hrest⟩ := ih fun e he => hp e (List.mem_cons_of_mem _ he)
    refine ⟨rest, ?_, hrest⟩
    rw [List.cons_append, splitlines_cons (hp d List.mem_cons_self), hsplit]

theorem pieces_unbroken {p : Text} (hp : Unbroken p) :
    pieces p = if Codec.strip p = [] then [] else [p] := by
  rw [pieces, splitlines_unbroken hp]
  by_cases hnil : p = []
  · subst hnil
    rfl
  · rw [if_neg hnil, List.filter_cons, List.filter_nil]
    by_cases hstrip : Codec.strip p = []
    · simp [hstrip]
    · simp [hstrip]

/-- A text without a boundary, or the first one in it. -/
theorem unbroken_or_split (text : Text) : Unbroken text ∨ ∃ p c cs, text = p ++ c :: cs ∧
    Unbroken p ∧ Codec.isLineBoundary c = true := by
  have hp : Unbroken (text.takeWhile (!Codec.isLineBoundary ·)) := fun c hc => by
    simpa using List.mem_takeWhile_imp hc
  cases hdrop : text.dropWhile (!Codec.isLineBoundary ·) with
  | nil =>
    have happend := List.takeWhile_append_dropWhile (p := (!Codec.isLineBoundary ·)) (l := text)
    rw [hdrop, List.append_nil] at happend
    exact .inl (happend ▸ hp)
  | cons c cs =>
    refine .inr ⟨_, c, cs, ?_, hp, ?_⟩
    · rw [← hdrop, List.takeWhile_append_dropWhile]
    · have hhead := List.head_dropWhile_not (!Codec.isLineBoundary ·)
        (l := text) (by rw [hdrop]; exact List.cons_ne_nil _ _)
      simpa [hdrop] using hhead

/-- Blank lines apart, a boundary separates the lines of what is around it. -/
theorem pieces_append_boundary (a : Text) {c : Char} (hc : Codec.isLineBoundary c = true)
    (b : Text) : pieces (a ++ c :: b) = pieces a ++ pieces b := by
  have hfirst : ∀ {p : Text}, Unbroken p → ∀ {d : Char}, Codec.isLineBoundary d = true → ∀ cs,
      pieces (p ++ d :: cs) = pieces p ++ pieces cs := by
    intro p hp d hd cs
    obtain ⟨rest, hsplit, hrest⟩ := splitlines_boundary hp hd cs
    rw [pieces_unbroken hp, pieces, hsplit, List.filter_cons, hrest]
    by_cases hstrip : Codec.strip p = []
    · simp [hstrip]
    · simp [hstrip]
  induction hlength : a.length using Nat.strong_induction_on generalizing a with
  | _ n ih =>
    rcases unbroken_or_split a with ha | ⟨p, d, a', rfl, hp, hd⟩
    · exact hfirst ha hc b
    · rw [List.append_assoc, List.cons_append, hfirst hp hd, hfirst hp hd,
        ih a'.length (by rw [← hlength, List.length_append, List.length_cons]; omega) a' rfl,
        List.append_assoc]

theorem pieces_blank {text : Text} (h : Blank text) : pieces text = [] := by
  induction hlength : text.length using Nat.strong_induction_on generalizing text with
  | _ n ih =>
    have hblank : ∀ p : Text, (∀ c ∈ p, c ∈ text) → Codec.strip p = [] := fun p hp =>
      (strip_eq_nil_iff p).mpr fun c hc => h c (hp c hc)
    rcases unbroken_or_split text with hu | ⟨p, d, cs, rfl, hp, hd⟩
    · rw [pieces_unbroken hu, if_pos (hblank text fun _ hc => hc)]
    · rw [pieces_append_boundary p hd, pieces_unbroken hp,
        if_pos (hblank p fun c hc => List.mem_append_left _ hc),
        ih cs.length (by rw [← hlength, List.length_append, List.length_cons]; omega)
          (fun c hc => h c (by simp [hc])) rfl]
      rfl

theorem pieces_joinLines (lines : List Text) :
    pieces (Codec.joinLines lines) = lines.flatMap pieces := by
  induction lines with
  | nil => rfl
  | cons line lines ih =>
    cases lines with
    | nil => rw [Codec.joinLines, List.flatMap_singleton]
    | cons line' lines =>
      have hjoin : Codec.joinLines (line :: line' :: lines) =
          line ++ '\n' :: Codec.joinLines (line' :: lines) := rfl
      rw [hjoin, pieces_append_boundary line (by decide), ih]
      exact List.flatMap_cons.symm

/-! ### Whitespace around an entry -/

/-- Whitespace of JSON. -/
def Space (ws : Text) : Prop :=
  ∀ c ∈ ws, Json.isSpace c = true

theorem Space.skip {ws : Text} (h : Space ws) : Json.skipSpace ws = [] :=
  List.dropWhile_eq_nil_iff.mpr fun c hc => h c hc

theorem Space.blank {ws : Text} (h : Space ws) : Blank ws := by
  intro c hc
  have hspace := h c hc
  simp only [Json.isSpace, Bool.or_eq_true, beq_iff_eq] at hspace
  rcases hspace with ((rfl | rfl) | rfl) | rfl <;> decide

theorem Space.of_append {a b : Text} (h : Space (a ++ b)) : Space a ∧ Space b :=
  ⟨fun c hc => h c (List.mem_append_left _ hc), fun c hc => h c (List.mem_append_right _ hc)⟩

/-- Of the whitespace before a text, what follows the last boundary stays on its line. -/
theorem pieces_before {ws : Text} (hws : Space ws) (text : Text) :
    ∃ ws', Space ws' ∧ Unbroken ws' ∧ pieces (ws ++ text) = pieces (ws' ++ text) := by
  induction hlength : ws.length using Nat.strong_induction_on generalizing ws with
  | _ n ih =>
    rcases unbroken_or_split ws with hu | ⟨p, c, cs, rfl, _, hc⟩
    · exact ⟨ws, hws, hu, rfl⟩
    · obtain ⟨hp, hccs⟩ := hws.of_append
      obtain ⟨ws', hspace, hu, hpieces⟩ := ih cs.length
        (by rw [← hlength, List.length_append, List.length_cons]; omega)
        (fun d hd => hccs d (List.mem_cons_of_mem _ hd)) rfl
      refine ⟨ws', hspace, hu, ?_⟩
      rw [List.append_assoc, List.cons_append, pieces_append_boundary p hc, pieces_blank hp.blank,
        hpieces]
      rfl

/-- Of the whitespace behind it, what precedes the first boundary. -/
theorem pieces_after {ws : Text} (hws : Space ws) (text : Text) :
    ∃ ws', Space ws' ∧ Unbroken ws' ∧ pieces (text ++ ws) = pieces (text ++ ws') := by
  rcases unbroken_or_split ws with hu | ⟨p, c, cs, rfl, hp, hc⟩
  · exact ⟨ws, hws, hu, rfl⟩
  · obtain ⟨hspace, hccs⟩ := hws.of_append
    refine ⟨p, hspace, hp, ?_⟩
    rw [← List.append_assoc, pieces_append_boundary _ hc,
      pieces_blank (Space.blank fun d hd => hccs d (List.mem_cons_of_mem _ hd)), List.append_nil]

theorem Unbroken.append {a b : Text} (ha : Unbroken a) (hb : Unbroken b) : Unbroken (a ++ b) :=
  fun c hc => (List.mem_append.mp hc).elim (ha c) (hb c)

/-- A text that starts with a brace is not blank. -/
theorem strip_ne_nil (ws cs : Text) : Codec.strip (ws ++ '\x7b' :: cs) ≠ [] := by
  rw [Ne, strip_eq_nil_iff]
  intro h
  exact absurd (h '\x7b' (by simp)) (by decide)

/-! ### Lines of a manifest -/

/-- What a line holds: a JSON object with whitespace around, or nothing. -/
inductive Line
  | blank (text : Text)
  | entry (before text after : Text)

/-- The text of a line. -/
def Line.text : Line → Text
  | .blank text => text
  | .entry before text after => before ++ (text ++ after)

section

variable {F : Type} (py : Codec.Python F) (checkNetloc : Text → Bool)
  (fileMetadata : Text → Except ArtifactRegistrationError ArtifactFile)
  (validateFields : List (Text × Value F) → Option (ArtifactManifestEntry F))
  (workspacePath : Text) (status : ArtifactStatus)

/-- The descriptor of the entry on a line. -/
def Line.descriptor : Line → Option (ArtifactDescriptor F)
  | .blank _ => none
  | .entry _ text _ =>
    lineDescriptor py checkNetloc fileMetadata validateFields workspacePath status text

/-- One line of a manifest, without its newline.  The text of an entry runs from its first
to its last brace; it is valid and its descriptor can be made. -/
structure Line.Written (l : Line) : Prop where
  oneLine : '\n' ∉ l.text
  blank : ∀ {text : Text}, l = .blank text → Blank text
  space : ∀ {before text after : Text}, l = .entry before text after → Space before ∧ Space after
  braces : ∀ {before text after : Text}, l = .entry before text after →
    ∃ cs, text = '\x7b' :: (cs ++ ['\x7d'])
  descriptor : ∀ {before text after : Text}, l = .entry before text after →
    ∃ entry descriptor, modelValidateJson py validateFields text = some entry ∧
      manifestDescriptor py checkNetloc fileMetadata workspacePath entry status = .ok descriptor

/-- No line boundary stands in the text of the entry. -/
def Line.Unbroken : Line → Prop
  | .blank _ => True
  | .entry _ text _ => Manifest.Unbroken text

/-- The content of a manifest. -/
def content (lines : List Line) : List UInt8 :=
  Codec.utf8Encode (Codec.joinLines (lines.map (·.text)))

variable {py checkNetloc fileMetadata validateFields workspacePath status}

/-- The loop makes the descriptors of the lines that are not blank. -/
theorem descriptorsFrom_toOption (lineNumber : ℕ) (lines : List Text) :
    (descriptorsFrom py checkNetloc fileMetadata validateFields workspacePath status lineNumber
      lines).toOption = (lines.filter fun raw => Codec.strip raw != []).mapM
        (lineDescriptor py checkNetloc fileMetadata validateFields workspacePath status) := by
  induction lines generalizing lineNumber with
  | nil => rfl
  | cons raw lines ih =>
    rw [descriptorsFrom]
    by_cases hblank : Codec.strip raw = []
    · rw [if_pos hblank, ih, List.filter_cons_of_neg (by simpa using hblank)]
    · rw [if_neg hblank, List.filter_cons_of_pos (by simpa using hblank), List.mapM_cons]
      cases lineDescriptor py checkNetloc fileMetadata validateFields workspacePath status raw with
      | none => rfl
      | some descriptor =>
        simp only [Option.bind_eq_bind, Option.bind_some, ← ih (lineNumber + 1)]
        cases descriptorsFrom py checkNetloc fileMetadata validateFields workspacePath status
          (lineNumber + 1) lines <;> rfl

variable (py checkNetloc fileMetadata validateFields workspacePath status) in
theorem manifestDescriptors_toOption (lines : List Line) :
    (manifestDescriptors py checkNetloc fileMetadata validateFields workspacePath (content lines)
      status).toOption = ((lines.map (·.text)).flatMap pieces).mapM
        (lineDescriptor py checkNetloc fileMetadata validateFields workspacePath status) := by
  rw [manifestDescriptors, content, Codec.utf8Decode_utf8Encode, ← pieces_joinLines]
  exact descriptorsFrom_toOption 1 _

/-- Whitespace on the line of an entry does not change it. -/
theorem modelValidateJson_space {text ws ws' : Text} {entry : ArtifactManifestEntry F}
    (h : modelValidateJson py validateFields text = some entry) (hws : Space ws)
    (hws' : Space ws') :
    modelValidateJson py validateFields (ws ++ (text ++ ws')) = some entry := by
  unfold modelValidateJson at h ⊢
  split at h
  · rename_i members hloads
    have hafter := Json.loads_object_append (q := ws') hloads
    rw [if_pos hws'.skip] at hafter
    rw [Json.loads_space_append hws.skip hafter]
    exact h
  · cases h

/-- What stands on the line before a boundary in the text of an entry is no entry. -/
theorem modelValidateJson_broken {p cs ws : Text} {c : Char} {entry : ArtifactManifestEntry F}
    (h : modelValidateJson py validateFields ('\x7b' :: p ++ c :: cs) = some entry)
    (hws : Space ws) (hcs : Json.skipSpace (c :: cs) ≠ []) :
    modelValidateJson py validateFields (ws ++ '\x7b' :: p) = none := by
  unfold modelValidateJson at h
  split at h
  · rename_i members hloads
    have hwhole := Json.loads_space_append hws.skip hloads
    rw [List.cons_append] at hwhole
    unfold modelValidateJson
    split
    · rename_i members' hloads'
      have hlonger := Json.loads_object_append (q := c :: cs) hloads'
      rw [if_neg hcs, List.append_assoc, List.cons_append, hwhole] at hlonger
      cases hlonger
    · rfl
  · cases h

variable {lines : List Line}

/-- The line of an entry without a boundary. -/
theorem Line.pieces_unbroken {before text after : Text}
    (h : Line.Written py checkNetloc fileMetadata validateFields workspacePath status
      (.entry before text after)) (hu : Manifest.Unbroken text) :
    ∃ raw, pieces (Line.text (.entry before text after)) = [raw] ∧
      lineDescriptor py checkNetloc fileMetadata validateFields workspacePath status raw =
        lineDescriptor py checkNetloc fileMetadata validateFields workspacePath status text := by
  obtain ⟨hbefore, hafter⟩ := h.space rfl
  obtain ⟨cs, rfl⟩ := h.braces rfl
  obtain ⟨entry, descriptor, hentry, _⟩ := h.descriptor rfl
  obtain ⟨ws, hws, hwsu, hpieces⟩ := pieces_before hbefore (('\x7b' :: (cs ++ ['\x7d'])) ++ after)
  obtain ⟨ws', hws', hwsu', hpieces'⟩ := pieces_after hafter (ws ++ '\x7b' :: (cs ++ ['\x7d']))
  refine ⟨ws ++ (('\x7b' :: (cs ++ ['\x7d'])) ++ ws'), ?_, ?_⟩
  · rw [Line.text, hpieces, ← List.append_assoc, hpieces', List.append_assoc,
      Manifest.pieces_unbroken (hwsu.append (hu.append hwsu'))]
    exact if_neg (strip_ne_nil ws _)
  · rw [lineDescriptor, lineDescriptor, modelValidateJson_space hentry hws hws', hentry]

/-- The line of an entry with a boundary: what comes first is no entry. -/
theorem Line.pieces_broken {before text after : Text}
    (h : Line.Written py checkNetloc fileMetadata validateFields workspacePath status
      (.entry before text after)) (hu : ¬ Manifest.Unbroken text) :
    ∃ raw ∈ pieces (Line.text (.entry before text after)),
      lineDescriptor py checkNetloc fileMetadata validateFields workspacePath status raw = none := by
  obtain ⟨hbefore, _⟩ := h.space rfl
  obtain ⟨tail, rfl⟩ := h.braces rfl
  obtain ⟨entry, descriptor, hentry, _⟩ := h.descriptor rfl
  obtain ⟨p, c, cs, htext, hp, hc⟩ := (unbroken_or_split _).resolve_left hu
  -- The boundary is not the brace that the text starts with.
  obtain ⟨p, rfl⟩ : ∃ p', p = '\x7b' :: p' := by
    cases p with
    | nil =>
      rw [List.nil_append, List.cons.injEq] at htext
      rw [← htext.1] at hc
      exact absurd hc (by decide)
    | cons d p =>
      rw [List.cons_append, List.cons.injEq] at htext
      exact ⟨p, by rw [htext.1]⟩
  -- The text goes on to its last brace.
  have hcs : Json.skipSpace (c :: cs) ≠ [] := by
    intro hnil
    have hlast : '\x7d' ∈ c :: cs := by
      have hget := congrArg List.getLast? htext
      rw [← List.cons_append, List.getLast?_append, List.getLast?_append] at hget
      have hsome : (c :: cs).getLast? = some '\x7d' := by
        simpa using hget.symm
      exact List.mem_of_getLast? hsome
    exact absurd (List.dropWhile_eq_nil_iff.mp hnil _ hlast) (by decide)
  obtain ⟨ws, hws, hwsu, hpieces⟩ := pieces_before hbefore
    ('\x7b' :: p ++ c :: (cs ++ after))
  refine ⟨ws ++ '\x7b' :: p, ?_, ?_⟩
  · have hassoc : '\x7b' :: p ++ c :: cs ++ after = '\x7b' :: p ++ c :: (cs ++ after) :=
      List.append_assoc _ _ _
    rw [Line.text, htext, hassoc, hpieces, ← List.append_assoc, pieces_append_boundary _ hc,
      Manifest.pieces_unbroken (hwsu.append hp), if_neg (strip_ne_nil _ _)]
    exact List.mem_cons_self
  · rw [htext] at hentry
    rw [lineDescriptor, modelValidateJson_broken hentry hws hcs]
    rfl

theorem mapM_eq_none {α β : Type} {f : α → Option β} {l : List α} {a : α} (ha : a ∈ l)
    (hf : f a = none) : l.mapM f = none := by
  induction l with
  | nil => nomatch ha
  | cons b l ih =>
    rw [List.mapM_cons]
    rcases List.mem_cons.mp ha with rfl | ha
    · rw [hf]
      rfl
    · rw [ih ha]
      cases f b <;> rfl

/-- Without boundaries in the texts every line gives its descriptor. -/
theorem mapM_pieces (hwritten : ∀ l ∈ lines, Line.Written py checkNetloc fileMetadata validateFields
      workspacePath status l) (hu : ∀ l ∈ lines, l.Unbroken) :
    ((lines.map (·.text)).flatMap pieces).mapM
        (lineDescriptor py checkNetloc fileMetadata validateFields workspacePath status) =
      some (lines.filterMap
        (Line.descriptor py checkNetloc fileMetadata validateFields workspacePath status)) := by
  induction lines with
  | nil => rfl
  | cons l lines ih =>
    have hrest := ih (fun l hl => hwritten l (List.mem_cons_of_mem _ hl))
      fun l hl => hu l (List.mem_cons_of_mem _ hl)
    have hl := hwritten l List.mem_cons_self
    have hlu := hu l List.mem_cons_self
    rw [List.map_cons, List.flatMap_cons, List.mapM_append, hrest]
    cases l with
    | blank text =>
      have hpieces : pieces (Line.text (.blank text)) = [] := pieces_blank (hl.blank rfl)
      rw [hpieces, List.filterMap_cons_none rfl]
      rfl
    | entry before text after =>
      obtain ⟨raw, hpieces, hraw⟩ := Line.pieces_unbroken hl hlu
      obtain ⟨entry, descriptor, hentry, hdescriptor⟩ := hl.descriptor rfl
      have hline : lineDescriptor py checkNetloc fileMetadata validateFields workspacePath status
          text = some descriptor := by
        rw [lineDescriptor, hentry]
        simp only [Option.bind_eq_bind, Option.bind_some, hdescriptor]
        rfl
      have hd : Line.descriptor py checkNetloc fileMetadata validateFields workspacePath status
          (.entry before text after) = some descriptor := hline
      rw [hpieces, List.mapM_cons, hraw, hline, List.filterMap_cons_some hd]
      rfl

end

end Manifest

/-- A manifest of valid entries, one on a line, yields one descriptor for each, in order,
exactly if no line boundary other than the newline stands in the text of an entry.  Blank
lines are ignored. -/
theorem manifest_lines {F : Type} (py : Codec.Python F) (checkNetloc : Text → Bool)
    (fileMetadata : Text → Except ArtifactRegistrationError ArtifactFile)
    (validateFields : List (Text × Value F) → Option (ArtifactManifestEntry F))
    (workspacePath : Text) (status : ArtifactStatus) (lines : List Manifest.Line)
    (hwritten : ∀ l ∈ lines, Manifest.Line.Written py checkNetloc fileMetadata validateFields
      workspacePath status l) :
    manifestDescriptors py checkNetloc fileMetadata validateFields workspacePath
        (Manifest.content lines) status =
      .ok (lines.filterMap (Manifest.Line.descriptor py checkNetloc fileMetadata validateFields
        workspacePath status)) ↔
    ∀ l ∈ lines, l.Unbroken := by
  have hresult := Manifest.manifestDescriptors_toOption py checkNetloc fileMetadata validateFields
    workspacePath status lines
  constructor
  · intro h l hl
    rw [h] at hresult
    by_contra hbroken
    cases l with
    | blank text => exact hbroken trivial
    | entry before text after =>
      obtain ⟨raw, hraw, hnone⟩ := Manifest.Line.pieces_broken (hwritten _ hl) hbroken
      rw [Manifest.mapM_eq_none (List.mem_flatMap.mpr ⟨_, List.mem_map_of_mem hl, hraw⟩) hnone]
        at hresult
      cases hresult
  · intro hu
    rw [Manifest.mapM_pieces hwritten hu] at hresult
    cases h : manifestDescriptors py checkNetloc fileMetadata validateFields workspacePath
        (Manifest.content lines) status with
    | error e =>
      rw [h] at hresult
      cases hresult
    | ok descriptors =>
      rw [h] at hresult
      rw [Option.some.inj hresult]

/-! ### A small manifest -/

namespace Small

/-- The validation of the entries below: a plot on the Runtime's storage, with a
description. -/
def validateFields (members : List (Text × Value Unit)) : Option (ArtifactManifestEntry Unit) :=
  match members with
  | [(storageType, .str storage), (artifactType, .str artifact), (path, .str p),
      (description, .str d)] =>
    if storageType = "storage_type".toList ∧ storage = "PV".toList ∧
        artifactType = "artifact_type".toList ∧ artifact = "PLOT".toList ∧
        path = "path".toList ∧ description = "description".toList ∧ d.length ≤ 4000 then
      some { storageType := .pv, artifactType := .plot, path := some p, description := some d }
    else none
  | _ => none

/-- A Runtime that has a file at every path. -/
def fileMetadata (path : Text) : Except ArtifactRegistrationError ArtifactFile :=
  .ok ⟨path, "a.png".toList, 3, some "image/png".toList, List.replicate 64 'c'⟩

/-- A line with the entry that has these members. -/
def plotLine (members : Text) : Manifest.Line :=
  .entry [] ('\x7b' :: (members ++ ['\x7d'])) [' ']

theorem plotLine_written {members : Text} (hline : '\n' ∉ members)
    (hsome : (Manifest.Line.descriptor Codec.Small.python (fun _ => true) fileMetadata
      validateFields "w".toList .available (plotLine members)).isSome = true) :
    Manifest.Line.Written Codec.Small.python (fun _ => true) fileMetadata validateFields
      "w".toList .available (plotLine members) where
  oneLine := by
    simp only [plotLine, Manifest.Line.text, List.nil_append, List.mem_append, List.mem_cons,
      hline]
    decide
  blank h := by cases h
  space h := by
    obtain ⟨rfl, rfl, rfl⟩ := Manifest.Line.entry.inj h
    exact ⟨fun c hc => absurd hc List.not_mem_nil, fun c hc => by rw [List.mem_singleton.mp hc]; rfl⟩
  braces h := by
    obtain ⟨rfl, rfl, rfl⟩ := Manifest.Line.entry.inj h
    exact ⟨members, rfl⟩
  descriptor h := by
    obtain ⟨rfl, rfl, rfl⟩ := Manifest.Line.entry.inj h
    obtain ⟨descriptor, hline⟩ := Option.isSome_iff_exists.mp hsome
    obtain ⟨entry, hentry, h⟩ := Option.bind_eq_some_iff.mp hline
    refine ⟨entry, descriptor, hentry, ?_⟩
    cases hd : manifestDescriptor Codec.Small.python (fun _ => true) fileMetadata "w".toList
        entry .available with
    | error e =>
      rw [hd] at h
      cases h
    | ok d =>
      rw [hd] at h
      rw [Option.some.inj h]

/-- A plot and what it shows. -/
def plot (path description : Text) : Text :=
  "\"storage_type\":\"PV\",\"artifact_type\":\"PLOT\",\"path\":\"".toList ++ path ++
    "\",\"description\":\"".toList ++ description ++ ['"']

/-- An entry whose description has two lines. -/
def twoLines : Text :=
  plot "a.png".toList "first\u2028second".toList

/-- Two plots with a blank line between them. -/
def plots : List Manifest.Line :=
  [plotLine (plot "a.png".toList "first".toList), .blank [],
    plotLine (plot "b.png".toList "second".toList)]

theorem blank_written : Manifest.Line.Written Codec.Small.python (fun _ => true) fileMetadata
    validateFields "w".toList .available (.blank []) where
  oneLine := List.not_mem_nil
  blank h := by
    obtain rfl := Manifest.Line.blank.inj h
    exact fun c hc => absurd hc List.not_mem_nil
  space h := by cases h
  braces h := by cases h
  descriptor h := by cases h

theorem plots_written : ∀ l ∈ plots, Manifest.Line.Written Codec.Small.python (fun _ => true)
    fileMetadata validateFields "w".toList .available l := by
  intro l hl
  simp only [plots, List.mem_cons, List.not_mem_nil, or_false] at hl
  rcases hl with rfl | rfl | rfl
  · exact plotLine_written (by decide +kernel) (by decide +kernel)
  · exact blank_written
  · exact plotLine_written (by decide +kernel) (by decide +kernel)

theorem plotLine_unbroken {members : Text}
    (h : (('\x7b' :: (members ++ ['\x7d'])).all fun c => !Codec.isLineBoundary c) = true) :
    (plotLine members).Unbroken := by
  intro c hc
  simpa using List.all_eq_true.mp h c hc

/-- A valid entry, and a manifest that is rejected for it. -/
theorem manifest_lines_separator :
    (∀ l ∈ [plotLine twoLines], Manifest.Line.Written Codec.Small.python (fun _ => true)
      fileMetadata validateFields "w".toList .available l) ∧
    manifestDescriptors Codec.Small.python (fun _ => true) fileMetadata validateFields "w".toList
        (Manifest.content [plotLine twoLines]) .available ≠
      .ok ([plotLine twoLines].filterMap (Manifest.Line.descriptor Codec.Small.python
        (fun _ => true) fileMetadata validateFields "w".toList .available)) := by
  refine ⟨fun l hl => ?_, fun h => ?_⟩
  · rw [List.mem_singleton.mp hl]
    exact plotLine_written (by decide +kernel) (by decide +kernel)
  · have hresult := Manifest.manifestDescriptors_toOption Codec.Small.python (fun _ => true)
      fileMetadata validateFields "w".toList .available [plotLine twoLines]
    have hnone : ((([plotLine twoLines].map (·.text)).flatMap Manifest.pieces).mapM
        (lineDescriptor Codec.Small.python (fun _ => true) fileMetadata validateFields "w".toList
          .available)).isNone = true := by
      decide +kernel
    rw [h, Option.isNone_iff_eq_none.mp hnone] at hresult
    cases hresult

theorem manifest_lines_description :
    manifestDescriptors Codec.Small.python (fun _ => true) fileMetadata validateFields "w".toList
        (Manifest.content plots) .available =
      .ok (plots.filterMap (Manifest.Line.descriptor Codec.Small.python (fun _ => true)
        fileMetadata validateFields "w".toList .available)) ∧
    (plots.filterMap (Manifest.Line.descriptor Codec.Small.python (fun _ => true) fileMetadata
      validateFields "w".toList .available)).length = 2 := by
  refine ⟨(manifest_lines Codec.Small.python (fun _ => true) fileMetadata validateFields
    "w".toList .available _ plots_written).mpr fun l hl => ?_, by decide +kernel⟩
  simp only [plots, List.mem_cons, List.not_mem_nil, or_false] at hl
  rcases hl with rfl | rfl | rfl
  · exact plotLine_unbroken (by decide +kernel)
  · trivial
  · exact plotLine_unbroken (by decide +kernel)

end Small

end ExecutorService
