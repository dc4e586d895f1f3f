/-
The Runtime storage of the Jupyter extension (`executor_resource_extension/storage.py`).

Users' code controls the tree below the root and may place links anywhere.  Each operation
gives, besides its reply and the tree it leaves, the locations it read, wrote or created,
with all links followed; asking what is at a path is no access.  A relative path in a reply is
a list of names.

* `Storage.Contained` — where the sub-paths that an operation appends without resolving them
  are made, written or read, they lead inside the root;
* `Storage.changedAt_run` — the tree changes only at these locations;
* `Storage.storage_confined_iff` — an operation that returns has stayed inside the root exactly if
  it was contained.
-/
import ExecutorService.Artifacts
import ExecutorService.FileTrees

namespace ExecutorService

open Json (Value)
open Codec (Text)
open FileTree (Tree Location Name Entry asPosix components)

/-! ### Storage -/

/-- A `RuntimeStorage` and the tree it works on.  The system follows at most `links` links in a
lookup; `realpath` follows `resolveLinks`, which only a loop exceeds. -/
structure Storage where
  tree : Tree
  root : Location
  links : ℕ
  resolveLinks : ℕ
  rooted : ∀ p, p <+: root → tree.entry p = some .directory

/-- How a request fails: an unsafe path, the file system, or a text that is no UTF-8. -/
inductive StorageError
  | path (message : String)
  | os
  | decode
  deriving DecidableEq, Repr

/-- What an operation that returns has done. -/
structure Outcome (α : Type) where
  reply : α
  tree : Tree
  accesses : List Location

namespace Storage

/-- A name in the source. -/
def nameOf (s : String) (h : FileTree.IsName s.toList := by decide +kernel) : Name :=
  ⟨s.toList, h⟩

/-- The directories of the Artifact types. -/
def artifactDirectories : List Name :=
  [nameOf "plots", nameOf "models", nameOf "metrics", nameOf "reports", nameOf "logs",
    nameOf "other"]

/-- The directories of a workspace. -/
def workspaceDirectories : List Location :=
  [nameOf "notebooks"] :: [nameOf "reports"] ::
    artifactDirectories.map fun name => [nameOf "artifacts", name]

/-- `notebooks/execution.ipynb`. -/
def notebookPath : Location := [nameOf "notebooks", nameOf "execution.ipynb"]

/-- `artifacts/manifest.jsonl`. -/
def manifestPath : Location := [nameOf "artifacts", nameOf "manifest.jsonl"]

variable (s : Storage)

/-! ### Paths -/

/-- `_ensure_within`. -/
def ensureWithin (path : Location) : Except StorageError Location :=
  if s.root <+: path then .ok path
  else .error (.path "Path escapes the Jupyter root directory.")

/-- `_resolve`. -/
def resolve (rawPath : Text) (mustExist : Bool) : Except StorageError Location :=
  if rawPath = [] then .error (.path "Path must not be empty.")
  else if '\\' ∈ rawPath then .error (.path "Path must use forward slash separators.")
  else if rawPath.any isControl then .error (.path "Path contains a control character.")
  else if (rawPath.splitOn '/').contains "..".toList then
    .error (.path "Path must not contain parent traversal.")
  else
    let start := if rawPath.head? = some '/' then [] else s.root.map .name
    let walker := if mustExist then .strict else .realpath
    match s.tree.follow walker s.resolveLinks [] (start ++ components rawPath) with
    | none => .error .os
    | some path => s.ensureWithin path

/-- The location at a path, if anything is there. -/
def at? (path : Location) : Option Location :=
  s.tree.lookup s.links path

/-- A directory, through links. -/
def isDirectory (path : Location) : Bool :=
  (s.at? path).any fun loc => s.tree.entry loc = some .directory

/-- The content and the modification time of a regular file. -/
def file? (path : Location) : Option (List UInt8 × ℤ) := do
  let loc ← s.at? path
  match s.tree.entry loc with
  | some (.file content modifiedNs) => some (content, modifiedNs)
  | _ => none

/-- `relative_to(self._root)`. -/
def relative (path : Location) : Location :=
  path.drop s.root.length

/-! ### Workspaces -/

/-- The reply to `prepare_workspace`. -/
structure WorkspaceReply where
  workspacePath : Location
  notebookPath : Location

/-- `mkdir(parents=True, exist_ok=True)` of one path after another. -/
def makeDirectories (links : ℕ) : Tree → List Location → Except StorageError (Tree × List Location)
  | tree, [] => .ok (tree, [])
  | tree, path :: paths => match tree.mkdirs links [] path with
    | none => .error .os
    | some (tree, made) =>
      if tree.lookup links path = none then .error .os
      else do
        let (tree, later) ← makeDirectories links tree paths
        return (tree, made ++ later)

/-- `prepare_workspace`. -/
def prepareWorkspace (workspacePath : Text) : Except StorageError (Outcome WorkspaceReply) := do
  let workspace ← s.resolve workspacePath false
  let (tree, made) ← makeDirectories s.links s.tree (workspaceDirectories.map (workspace ++ ·))
  return ⟨⟨s.relative workspace, s.relative (workspace ++ Storage.notebookPath)⟩, tree, made⟩

/-! ### Snapshots -/

/-- A file in a snapshot. -/
structure FileState where
  path : Location
  sizeBytes : ℕ
  modifiedNs : ℤ

/-- The reply to `snapshot`. -/
structure SnapshotReply where
  files : List FileState
  manifestSize : ℕ

/-- `sorted(path.rglob("*"))` of a directory: links are listed and not followed. -/
def rglob (directory : Location) : List Location :=
  (s.tree.locations.dedup.filter fun loc =>
    decide (directory <+: loc) && loc != directory && (s.tree.entry loc).isSome).insertionSort
      fun a b => a.map (·.val) ≤ b.map (·.val)

/-- The loop over the listed paths. -/
def listFiles (manifest : Location) :
    List Location → Except StorageError (List FileState × List Location)
  | [] => .ok ([], [])
  | path :: paths => do
    let _ ← s.resolve (asPosix path) true
    let (files, accesses) ← listFiles manifest paths
    let state := if path = manifest then none
      else (s.file? path).map fun (content, modifiedNs) =>
        ⟨s.relative path, content.length, modifiedNs⟩
    return (state.toList ++ files, (s.at? path).toList ++ accesses)

/-- `snapshot`. -/
def snapshot (workspacePath : Text) : Except StorageError (Outcome SnapshotReply) := do
  let workspace ← s.resolve workspacePath true
  let artifacts ← s.resolve (asPosix (workspace ++ [nameOf "artifacts"])) false
  let manifest := artifacts ++ [nameOf "manifest.jsonl"]
  let _ ← s.resolve (asPosix manifest) false
  let listed := if s.isDirectory artifacts then s.rglob artifacts else []
  let (files, accesses) ← s.listFiles manifest listed
  let directories := artifacts :: listed.filter fun loc => s.tree.entry loc = some .directory
  return ⟨⟨files, ((s.file? manifest).map fun (content, _) => content.length).getD 0⟩, s.tree,
    directories ++ accesses ++ (s.at? manifest).toList⟩

/-! ### Notebooks -/

section

variable {F : Type} (py : Codec.Python F)

/-- The sequence, Operation, Step and source of a cell. -/
def cellFields (item : Value F) : Except StorageError (ℤ × Text × Text × Text) :=
  match item with
  | .obj members =>
    match members.lookup "sequence".toList, members.lookup "operation_id".toList,
        members.lookup "step_id".toList, members.lookup "source".toList with
    | some (.int sequence), some (.str operationId), some (.str stepId), some (.str source) =>
      if sequence < 0 ∨ operationId = [] ∨ stepId = [] ∨ Codec.strip source = [] then
        .error (.path "Notebook cell contract is invalid.")
      else .ok (sequence, operationId, stepId, source)
    | _, _, _, _ => .error (.path "Notebook cell contract is invalid.")
  | _ => .error (.path "Notebook cell must be an object.")

/-- The cell of a Step. -/
def notebookCell (executionId : Text) : ℤ × Text × Text × Text → Value F
  | (sequence, operationId, stepId, source) => .obj [
    ("cell_type".toList, Codec.textValue "code"),
    ("execution_count".toList, .constant .null),
    ("id".toList, .str ((py.sha256 (Codec.utf8Encode (executionId ++ ':' :: stepId))).take 16)),
    ("metadata".toList, .obj [("executor".toList, .obj [
      ("operation_id".toList, .str operationId), ("sequence".toList, .int sequence),
      ("step_id".toList, .str stepId)])]),
    ("outputs".toList, .arr []),
    ("source".toList, .str source)]

/-- The notebook of the cells, in the order of their sequences. -/
def notebookDocument (executionId runtimeProfile : Text)
    (cells : List (ℤ × Text × Text × Text)) : Value F :=
  .obj [
    ("cells".toList, .arr ((cells.insertionSort fun a b => a.1 ≤ b.1).map
      (notebookCell py executionId))),
    ("metadata".toList, .obj [
      ("executor".toList, .obj [("execution_id".toList, .str executionId)]),
      ("kernelspec".toList, .obj [("display_name".toList, .str runtimeProfile),
        ("language".toList, Codec.textValue "python"), ("name".toList, .str runtimeProfile)]),
      ("language_info".toList, .obj [("name".toList, Codec.textValue "python")])]),
    ("nbformat".toList, .int 4),
    ("nbformat_minor".toList, .int 5)]

/-- `json.dumps(value, ensure_ascii=False, separators=(",", ":")).encode("utf-8")`. -/
def jsonBody (value : Value F) : List UInt8 :=
  Codec.utf8Encode (Json.dumps py.floats ⟨false, false, true⟩ value)

end

/-- `_atomic_json_write`: a new temporary file beside the path takes its place.  A link there is
replaced and not followed. -/
def atomicWrite (links : ℕ) (tree : Tree) (parent : Location) (name temporary : Name)
    (body : List UInt8) (now : ℤ) : Except StorageError (Tree × List Location) :=
  match tree.lookup links parent with
  | none => .error .os
  | some loc =>
    if hdir : tree.entry loc = some .directory then
      if tree.entry (loc ++ [temporary]) ≠ none then .error .os
      else if hleaf : tree.entry (loc ++ [name]) = some .directory then .error .os
      else .ok (tree.put loc name (.file body now) hdir hleaf,
        [loc ++ [temporary], loc ++ [name]])
    else .error .os

/-- The reply to `prepare_notebook`. -/
structure PreparedReply where
  notebookPath : Location
  preparedCellCount : ℕ
  totalCellCount : ℕ

/-- `prepare_notebook`. -/
def prepareNotebook {F : Type} (py : Codec.Python F) (workspacePath executionId runtimeProfile : Text)
    (cells : Value F) (temporary : Name) (now : ℤ) :
    Except StorageError (Outcome PreparedReply) := do
  let workspace ← s.resolve workspacePath false
  match cells with
  | .arr (item :: items) => do
    let cells ← (item :: items).mapM cellFields
    let notebook ← s.ensureWithin (workspace ++ Storage.notebookPath)
    let (tree, made) ← makeDirectories s.links s.tree [workspace ++ [nameOf "notebooks"]]
    let (tree, written) ← atomicWrite s.links tree (workspace ++ [nameOf "notebooks"])
      (nameOf "execution.ipynb") temporary
      (jsonBody py (notebookDocument py executionId runtimeProfile cells)) now
    return ⟨⟨s.relative notebook, cells.length, cells.length⟩, tree, made ++ written⟩
  | _ => .error (.path "Notebook cells must be a non-empty array.")

/-- The reply to `project_notebook`. -/
structure ProjectedReply where
  notebookPath : Location
  cellCount : ℕ
  checksumSha256 : Text

/-- The cells of a notebook document that keeps the contract. -/
def projectedCells {F : Type} [DecidableEq F] (py : Codec.Python F) (notebook : Value F) :
    Except StorageError (List (Value F)) :=
  match notebook with
  | .obj members =>
    let isFour : Bool := match members.lookup "nbformat".toList with
      | some (.int n) => n = 4
      | some (.float x) => x = py.floats.float ⟨false, ['4'], ['.', '0'], []⟩
      | _ => false
    match members.lookup "cells".toList, members.lookup "metadata".toList with
    | some (.arr cells), some (.obj _) =>
      if isFour then .ok cells
      else .error (.path "Notebook projection contract is invalid.")
    | _, _ => .error (.path "Notebook projection contract is invalid.")
  | _ => .error (.path "Notebook projection must be an object.")

/-- `project_notebook`. -/
def projectNotebook {F : Type} [DecidableEq F] (py : Codec.Python F) (rawPath : Text)
    (notebook : Value F) (temporary : Name) (now : ℤ) :
    Except StorageError (Outcome ProjectedReply) := do
  let path ← s.resolve rawPath false
  if path.getLast? ≠ some (nameOf "execution.ipynb") ∨
      path.dropLast.getLast? ≠ some (nameOf "notebooks") then
    .error (.path "Notebook projection path must target notebooks/execution.ipynb.")
  else do
    let cells ← projectedCells py notebook
    let body := jsonBody py notebook
    let (tree, written) ← atomicWrite s.links s.tree path.dropLast (nameOf "execution.ipynb")
      temporary body now
    return ⟨⟨s.relative path, cells.length, py.sha256 body⟩, tree,
      written ++ (tree.lookup s.links path).toList⟩

/-! ### Files -/

/-- The reply to `file_metadata`. -/
structure MetadataReply where
  path : Location
  name : Option Name
  sizeBytes : ℕ
  modifiedNs : ℤ
  mediaType : Option Text
  checksumSha256 : Text

/-- `file_metadata`; `guessType` is `mimetypes.guess_type`. -/
def fileMetadata (sha256 : List UInt8 → Text) (guessType : Option Name → Option Text)
    (rawPath : Text) : Except StorageError (Outcome MetadataReply) := do
  let path ← s.resolve rawPath true
  match s.file? path with
  | none => .error (.path "Path is not a file.")
  | some (content, modifiedNs) =>
    return ⟨⟨s.relative path, path.getLast?, content.length, modifiedNs,
      guessType path.getLast?, sha256 content⟩, s.tree, (s.at? path).toList⟩

/-- The file of a download. -/
def resolveFile (rawPath : Text) : Except StorageError (Outcome Location) := do
  let path ← s.resolve rawPath true
  match s.file? path with
  | none => .error (.path "Path is not a file.")
  | some _ => return ⟨path, s.tree, (s.at? path).toList⟩

/-- The reply to `read_manifest`. -/
structure ManifestReply where
  start : ℕ
  stop : ℕ
  content : Text

/-- `read_manifest`. -/
def readManifest (workspacePath : Text) (start : ℤ) :
    Except StorageError (Outcome ManifestReply) := do
  if start < 0 then .error (.path "Manifest offset must be non-negative.")
  else do
    let workspace ← s.resolve workspacePath true
    let manifest ← s.ensureWithin (workspace ++ Storage.manifestPath)
    match s.file? manifest with
    | none => return ⟨⟨0, 0, []⟩, s.tree, []⟩
    | some (content, _) =>
      let size := content.length
      let effectiveStart := if start ≤ size then start.toNat else 0
      match Codec.utf8Decode (content.drop effectiveStart) with
      | none => .error .decode
      | some text => return ⟨⟨effectiveStart, size, text⟩, s.tree, (s.at? manifest).toList⟩

/-! ### Operations -/

/-- A call with its arguments. -/
inductive Operation (F : Type)
  | prepareWorkspace (workspacePath : Text)
  | snapshot (workspacePath : Text)
  | prepareNotebook (workspacePath executionId runtimeProfile : Text) (cells : Value F)
      (temporary : Name) (now : ℤ)
  | projectNotebook (path : Text) (notebook : Value F) (temporary : Name) (now : ℤ)
  | fileMetadata (path : Text)
  | resolveFile (path : Text)
  | readManifest (workspacePath : Text) (start : ℤ)

/-- The tree that a call leaves and the locations it accessed, if it returns. -/
def run {F : Type} [DecidableEq F] (py : Codec.Python F) (guessType : Option Name → Option Text) :
    Operation F → Except StorageError (Tree × List Location)
  | .prepareWorkspace workspacePath =>
    (s.prepareWorkspace workspacePath).map fun o => (o.tree, o.accesses)
  | .snapshot workspacePath => (s.snapshot workspacePath).map fun o => (o.tree, o.accesses)
  | .prepareNotebook workspacePath executionId runtimeProfile cells temporary now =>
    (s.prepareNotebook py workspacePath executionId runtimeProfile cells temporary now).map
      fun o => (o.tree, o.accesses)
  | .projectNotebook path notebook temporary now =>
    (s.projectNotebook py path notebook temporary now).map fun o => (o.tree, o.accesses)
  | .fileMetadata path =>
    (s.fileMetadata py.sha256 guessType path).map fun o => (o.tree, o.accesses)
  | .resolveFile path => (s.resolveFile path).map fun o => (o.tree, o.accesses)
  | .readManifest workspacePath start =>
    (s.readManifest workspacePath start).map fun o => (o.tree, o.accesses)

/-- The sub-paths of the workspace that are used without being resolved: a directory that is made
there, the directory the notebook is written to and the manifest that is read lie inside the
root. -/
def Contained {F : Type} : Operation F → Prop
  | .prepareWorkspace workspacePath => ∀ workspace, s.resolve workspacePath false = .ok workspace →
      ∀ directory ∈ workspaceDirectories, ∀ loc,
        s.tree.Leads (workspace ++ directory) loc → s.tree.entry loc = none → s.root <+: loc
  | .prepareNotebook workspacePath .. => ∀ workspace,
      s.resolve workspacePath false = .ok workspace → ∀ loc,
        s.tree.Leads (workspace ++ [nameOf "notebooks"]) loc → s.root <+: loc
  | .readManifest workspacePath _ => ∀ workspace, s.resolve workspacePath true = .ok workspace →
      s.file? (workspace ++ manifestPath) ≠ none →
        ∀ loc, s.at? (workspace ++ manifestPath) = some loc → s.root <+: loc
  | .snapshot _ | .projectNotebook .. | .fileMetadata _ | .resolveFile _ => True

/-! ### Resolved paths -/

variable {s}

theorem ensureWithin_ok {path loc : Location} :
    s.ensureWithin path = .ok loc ↔ loc = path ∧ s.root <+: path := by
  rw [ensureWithin]
  split
  · rename_i h
    simp [h, eq_comm]
  · rename_i h
    simp [h]

/-- A resolved path has no links and lies inside the root. -/
theorem resolve_ok {rawPath : Text} {mustExist : Bool} {loc : Location}
    (h : s.resolve rawPath mustExist = .ok loc) :
    s.tree.Walks .realpath s.resolveLinks []
        ((if rawPath.head? = some '/' then [] else s.root.map .name) ++ components rawPath) loc ∧
      s.tree.Canonical loc ∧ s.root <+: loc := by
  simp only [resolve] at h
  repeat' split at h
  all_goals first | cases h | skip
  all_goals
    rename_i hfollow
    obtain ⟨rfl, hwithin⟩ := ensureWithin_ok.mp h
    have hwalks := Tree.follow_eq_some.mp hfollow
    have hcanonical := Tree.walks_canonical hwalks Tree.canonical_nil
    simp_all [Tree.walks_realpath hwalks]

/-- The path of a location, resolved again. -/
theorem resolve_asPosix {path loc : Location} {mustExist : Bool}
    (h : s.resolve (asPosix path) mustExist = .ok loc) : s.tree.Leads path loc ∧ s.root <+: loc := by
  obtain ⟨hwalks, _, hwithin⟩ := resolve_ok h
  refine ⟨⟨s.resolveLinks, ?_⟩, hwithin⟩
  generalize s.resolveLinks = links at hwalks ⊢
  rw [if_pos (show (asPosix path).head? = some '/' from rfl), List.nil_append,
    FileTree.components_asPosix] at hwalks
  obtain _ | ⟨_, rest⟩ := hwalks
  split at rest
  · rename_i hnil
    obtain _ | ⟨_, rest⟩ := rest
    rw [hnil]
    exact rest
  · exact rest

/-- What is found at a path that was resolved lies inside the root. -/
theorem at?_within {path loc loc' : Location} {mustExist : Bool}
    (h : s.resolve (asPosix path) mustExist = .ok loc) (hat : s.at? path = some loc') :
    s.root <+: loc' := by
  obtain ⟨hleads, hwithin⟩ := resolve_asPosix h
  rw [(Tree.leads_of_lookup hat).eq hleads]
  exact hwithin

theorem at?_canonical {path loc : Location} (h : s.tree.Canonical path)
    (hat : s.at? path = some loc) : loc = path :=
  Tree.lookup_canonical h hat

/-- What is missing on the way to a location inside the root lies inside it. -/
theorem within_of_missing {a out : Location} (hout : s.root <+: out) (ha : a <+: out)
    (hnone : s.tree.entry a = none) : s.root <+: a := by
  rcases List.prefix_or_prefix_of_prefix hout ha with h | h
  · exact h
  · rw [s.rooted a h] at hnone
    cases hnone

/-! ### Directories -/

theorem makeDirectories_ok {links : ℕ} {t t' : Tree} {paths made : List Location}
    (h : makeDirectories links t paths = .ok (t', made)) :
    t.Grown t' ∧ t.ChangedAt t' made ∧
      (∀ path ∈ paths, ∃ out, t.Leads path out ∧ t'.entry out = some .directory) ∧
      ∀ a ∈ made, t.entry a = none ∧ ∃ path ∈ paths, ∃ out, t.Leads path out ∧ a <+: out := by
  induction paths generalizing t t' made with
  | nil =>
    cases h
    exact ⟨.refl _, fun _ => .inl rfl, List.forall_mem_nil _, List.forall_mem_nil _⟩
  | cons path paths ih =>
    rw [makeDirectories] at h
    split at h
    · cases h
    · rename_i t₁ first hfirst
      split at h
      · cases h
      obtain ⟨⟨t₂, later⟩, hlater, heq⟩ := Codec.bind_ok.mp h
      cases heq
      obtain ⟨out, hleads, hgrown, hchanged, hdir, hall⟩ := Tree.mkdirs_ok hfirst
      obtain ⟨hgrown', hchanged', hpaths, hmade⟩ := ih hlater
      refine ⟨hgrown.trans hgrown', hchanged.trans hchanged', fun p hp => ?_, fun a ha => ?_⟩
      · rcases List.mem_cons.mp hp with rfl | hp
        · exact ⟨out, hleads, hgrown'.directory hdir⟩
        · obtain ⟨out', hleads', hdir'⟩ := hpaths p hp
          exact ⟨out', hgrown.leads_iff.mp hleads', hdir'⟩
      · rcases List.mem_append.mp ha with ha | ha
        · exact ⟨(hall a ha).2, path, List.mem_cons_self, out, hleads, (hall a ha).1⟩
        · obtain ⟨hnone, p, hp, out', hleads', hinitial⟩ := hmade a ha
          exact ⟨hgrown.missing hnone, p, List.mem_cons_of_mem _ hp, out',
            hgrown.leads_iff.mp hleads', hinitial⟩

/-- Directories are made inside the root exactly if the paths at whose ends nothing was lead
there. -/
theorem makeDirectories_within {t' : Tree} {paths made : List Location}
    (h : makeDirectories s.links s.tree paths = .ok (t', made)) :
    (∀ a ∈ made, s.root <+: a) ↔ ∀ path ∈ paths, ∀ loc,
      s.tree.Leads path loc → s.tree.entry loc = none → s.root <+: loc := by
  obtain ⟨_, hchanged, hpaths, hmade⟩ := makeDirectories_ok h
  constructor
  · intro hall path hpath loc hloc hnone
    obtain ⟨out, hleads, hdir⟩ := hpaths path hpath
    rw [hleads.eq hloc] at hdir
    rcases hchanged loc with heq | hmem
    · rw [heq, hnone] at hdir
      cases hdir
    · exact hall loc hmem
  · intro hall a ha
    obtain ⟨hnone, path, hpath, out, hleads, hinitial⟩ := hmade a ha
    exact within_of_missing (hall path hpath out hleads (Tree.entry_of_missing hnone hinitial))
      hinitial hnone

/-! ### Notebooks -/

/-- The two files that a write touches lie beside each other. -/
theorem atomicWrite_ok {links : ℕ} {t t' : Tree} {parent : Location} {name temporary : Name}
    {body : List UInt8} {now : ℤ} {accesses : List Location}
    (h : atomicWrite links t parent name temporary body now = .ok (t', accesses)) :
    ∃ loc, t.lookup links parent = some loc ∧ t.entry (loc ++ [name]) ≠ some .directory ∧
      accesses = [loc ++ [temporary], loc ++ [name]] ∧
      t.ChangedAt t' accesses ∧ (t.Canonical loc → t'.Canonical (loc ++ [name])) := by
  rw [atomicWrite] at h
  split at h
  · cases h
  · rename_i loc hloc
    split at h
    · rename_i hdir
      split at h
      · cases h
      split at h
      · cases h
      · rename_i hleaf
        cases h
        refine ⟨loc, hloc, hleaf, rfl, Tree.changedAt_put.mono (by simp), fun hcanonical => ?_⟩
        intro p m target hp
        rcases List.prefix_concat_iff.mp hp with heq | hp
        · rw [heq, Tree.put_self]
          simp
        · have hne : p ++ [m] ≠ loc ++ [name] := fun heq => by
            have hlength := hp.length_le
            rw [heq, List.length_append] at hlength
            simp at hlength
          rw [Tree.put_of_ne hne]
          exact hcanonical p m target hp
    · cases h

/-! ### Each operation -/

section

variable {F : Type} {py : Codec.Python F}

theorem prepareWorkspace_within {workspacePath : Text} {o : Outcome WorkspaceReply}
    (h : s.prepareWorkspace workspacePath = .ok o) :
    (∀ a ∈ o.accesses, s.root <+: a) ↔
      s.Contained (.prepareWorkspace workspacePath : Operation F) := by
  obtain ⟨workspace, hworkspace, h⟩ := Codec.bind_ok.mp h
  obtain ⟨⟨tree, accesses⟩, hmade, h⟩ := Codec.bind_ok.mp h
  cases Codec.pure_ok.mp h
  rw [makeDirectories_within hmade, List.forall_mem_map, Contained]
  constructor
  · intro hall _ heq
    cases hworkspace.symm.trans heq
    exact hall
  · intro hall
    exact hall workspace hworkspace

theorem prepareNotebook_within {workspacePath executionId runtimeProfile : Text} {cells : Value F}
    {temporary : Name} {now : ℤ} {o : Outcome PreparedReply}
    (h : s.prepareNotebook py workspacePath executionId runtimeProfile cells temporary now =
      .ok o) :
    (∀ a ∈ o.accesses, s.root <+: a) ↔
      s.Contained (.prepareNotebook workspacePath executionId runtimeProfile cells temporary
        now) := by
  obtain ⟨workspace, hworkspace, h⟩ := Codec.bind_ok.mp h
  split at h
  swap
  · cases h
  obtain ⟨_, _, h⟩ := Codec.bind_ok.mp h
  obtain ⟨_, _, h⟩ := Codec.bind_ok.mp h
  obtain ⟨⟨tree, made⟩, hmade, h⟩ := Codec.bind_ok.mp h
  obtain ⟨⟨tree', written⟩, hwritten, h⟩ := Codec.bind_ok.mp h
  cases Codec.pure_ok.mp h
  obtain ⟨hgrown, _, _, hall⟩ := makeDirectories_ok hmade
  obtain ⟨loc, hloc, hleaf, hwrittenEq, _⟩ := atomicWrite_ok hwritten
  -- The parent is found where the path led before it was made.
  have hleads : s.tree.Leads (workspace ++ [nameOf "notebooks"]) loc :=
    hgrown.leads_iff.mp (Tree.leads_of_lookup hloc)
  have hwithin : (∀ a ∈ made ++ written, s.root <+: a) ↔ s.root <+: loc := by
    constructor
    · intro hall
      have hfile : loc ++ [nameOf "execution.ipynb"] ∈ made ++ written := by
        rw [hwrittenEq]
        exact List.mem_append_right _ (List.mem_cons_of_mem _ (List.mem_singleton_self _))
      -- The notebook is no directory, so it is not the root.
      rcases List.prefix_concat_iff.mp (hall _ hfile) with heq | hinitial
      · exact absurd (hgrown.directory (s.rooted _ (heq ▸ List.prefix_rfl))) hleaf
      · exact hinitial
    · intro hroot a ha
      rcases List.mem_append.mp ha with ha | ha
      · obtain ⟨hnone, path, hpath, out, hout, hinitial⟩ := hall a ha
        rw [List.mem_singleton.mp hpath] at hout
        exact within_of_missing (hout.eq hleads ▸ hroot) hinitial hnone
      · rw [hwrittenEq] at ha
        obtain ⟨name, rfl⟩ : ∃ name, a = loc ++ [name] := by
          rcases List.mem_cons.mp ha with rfl | ha
          · exact ⟨_, rfl⟩
          · exact ⟨_, List.mem_singleton.mp ha⟩
        exact hroot.trans (List.prefix_append _ _)
  rw [hwithin, Contained]
  constructor
  · intro hroot _ heq loc' hloc'
    cases hworkspace.symm.trans heq
    exact hloc'.eq hleads ▸ hroot
  · intro hall
    exact hall workspace hworkspace loc hleads

/-- A notebook is written at its resolved path, which is not the root. -/
theorem projectNotebook_within [DecidableEq F] {rawPath : Text} {notebook : Value F}
    {temporary : Name} {now : ℤ} {o : Outcome ProjectedReply}
    (h : s.projectNotebook py rawPath notebook temporary now = .ok o) :
    ∀ a ∈ o.accesses, s.root <+: a := by
  obtain ⟨path, hpath, h⟩ := Codec.bind_ok.mp h
  obtain ⟨_, hcanonical, hwithin⟩ := resolve_ok hpath
  split at h
  · cases h
  rename_i hnames
  obtain ⟨_, _, h⟩ := Codec.bind_ok.mp h
  obtain ⟨⟨tree, written⟩, hwritten, h⟩ := Codec.bind_ok.mp h
  cases Codec.pure_ok.mp h
  have hlast : path.getLast? = some (nameOf "execution.ipynb") :=
    not_not.mp fun hne => hnames (.inl hne)
  have hsplit : path.dropLast ++ [nameOf "execution.ipynb"] = path :=
    List.dropLast_append_getLast? _ hlast
  obtain ⟨loc, hloc, hleaf, rfl, _, hcanonical'⟩ := atomicWrite_ok hwritten
  have hparent : s.tree.Canonical path.dropLast :=
    hcanonical.of_initial (List.dropLast_prefix _)
  obtain rfl := Tree.lookup_canonical hparent hloc
  have hroot : s.root <+: path.dropLast := by
    rw [← hsplit] at hwithin
    rcases List.prefix_concat_iff.mp hwithin with heq | hinitial
    · exact absurd (s.rooted _ (heq ▸ List.prefix_rfl)) hleaf
    · exact hinitial
  intro a ha
  rcases List.mem_append.mp ha with ha | ha
  · rcases List.mem_cons.mp ha with rfl | ha
    · exact hroot.trans (List.prefix_append _ _)
    · rw [List.mem_singleton.mp ha]
      exact hroot.trans (List.prefix_append _ _)
  · have hfound : tree.lookup s.links path = some a := Option.mem_toList.mp ha
    rw [Tree.lookup_canonical (hsplit ▸ hcanonical' hparent) hfound]
    exact hwithin

/-- Each listed path is resolved before it is looked at. -/
theorem listFiles_within {manifest : Location} {paths : List Location}
    {files : List FileState} {accesses : List Location}
    (h : s.listFiles manifest paths = .ok (files, accesses)) : ∀ a ∈ accesses, s.root <+: a := by
  induction paths generalizing files accesses with
  | nil =>
    cases h
    nofun
  | cons path paths ih =>
    obtain ⟨loc, hloc, h⟩ := Codec.bind_ok.mp h
    obtain ⟨⟨files', accesses'⟩, hrest, h⟩ := Codec.bind_ok.mp h
    cases Codec.pure_ok.mp h
    intro a ha
    rcases List.mem_append.mp ha with ha | ha
    · exact at?_within hloc (Option.mem_toList.mp ha)
    · exact ih hrest a ha

theorem rglob_below {directory loc : Location} (h : loc ∈ s.rglob directory) :
    directory <+: loc := by
  simp only [rglob, List.mem_insertionSort, List.mem_filter, Bool.and_eq_true,
    decide_eq_true_eq] at h
  exact h.2.1.1

theorem snapshot_within {workspacePath : Text} {o : Outcome SnapshotReply}
    (h : s.snapshot workspacePath = .ok o) : ∀ a ∈ o.accesses, s.root <+: a := by
  obtain ⟨workspace, _, h⟩ := Codec.bind_ok.mp h
  obtain ⟨artifacts, hartifacts, h⟩ := Codec.bind_ok.mp h
  obtain ⟨loc, hmanifest, h⟩ := Codec.bind_ok.mp h
  obtain ⟨⟨files, accesses⟩, hfiles, h⟩ := Codec.bind_ok.mp h
  cases Codec.pure_ok.mp h
  obtain ⟨_, _, hwithin⟩ := resolve_ok hartifacts
  intro a ha
  rcases List.mem_append.mp ha with ha | ha
  · rcases List.mem_append.mp ha with ha | ha
    · rcases List.mem_cons.mp ha with rfl | ha
      · exact hwithin
      · have hlisted := List.mem_of_mem_filter ha
        split at hlisted
        · exact hwithin.trans (rglob_below hlisted)
        · cases hlisted
    · exact listFiles_within hfiles a ha
  · exact at?_within hmanifest (Option.mem_toList.mp ha)

/-- A resolved path is found where it is. -/
theorem found_within {rawPath : Text} {mustExist : Bool} {path : Location}
    (h : s.resolve rawPath mustExist = .ok path) : ∀ a ∈ (s.at? path).toList, s.root <+: a := by
  intro a ha
  obtain ⟨_, hcanonical, hwithin⟩ := resolve_ok h
  rw [at?_canonical hcanonical (Option.mem_toList.mp ha)]
  exact hwithin

theorem fileMetadata_within {sha256 : List UInt8 → Text} {guessType : Option Name → Option Text}
    {rawPath : Text} {o : Outcome MetadataReply}
    (h : s.fileMetadata sha256 guessType rawPath = .ok o) : ∀ a ∈ o.accesses, s.root <+: a := by
  obtain ⟨path, hpath, h⟩ := Codec.bind_ok.mp h
  split at h
  · cases h
  · cases Codec.pure_ok.mp h
    exact found_within hpath

theorem resolveFile_within {rawPath : Text} {o : Outcome Location}
    (h : s.resolveFile rawPath = .ok o) : ∀ a ∈ o.accesses, s.root <+: a := by
  obtain ⟨path, hpath, h⟩ := Codec.bind_ok.mp h
  split at h
  · cases h
  · cases Codec.pure_ok.mp h
    exact found_within hpath

theorem readManifest_within {workspacePath : Text} {start : ℤ} {o : Outcome ManifestReply}
    (h : s.readManifest workspacePath start = .ok o) :
    (∀ a ∈ o.accesses, s.root <+: a) ↔
      s.Contained (.readManifest workspacePath start : Operation F) := by
  rw [readManifest] at h
  split at h
  · cases h
  obtain ⟨workspace, hworkspace, h⟩ := Codec.bind_ok.mp h
  obtain ⟨manifest, hmanifest, h⟩ := Codec.bind_ok.mp h
  obtain ⟨rfl, _⟩ := ensureWithin_ok.mp hmanifest
  split at h
  · rename_i hnone
    cases Codec.pure_ok.mp h
    refine iff_of_true (List.forall_mem_nil _) fun _ heq hsome => ?_
    cases hworkspace.symm.trans heq
    exact absurd hnone hsome
  · rename_i hsome
    dsimp only at h
    split at h
    · cases h
    cases Codec.pure_ok.mp h
    rw [Contained]
    constructor
    · intro hall _ heq _ loc hloc
      cases hworkspace.symm.trans heq
      exact hall loc (Option.mem_toList.mpr hloc)
    · intro hall a ha
      exact hall workspace hworkspace (by rw [hsome]; nofun) a (Option.mem_toList.mp ha)

end

/-- The tree changes only where it is accessed. -/
theorem changedAt_run {F : Type} [DecidableEq F] {py : Codec.Python F}
    {guessType : Option Name → Option Text} {op : Operation F} {tree : Tree}
    {accesses : List Location} (h : s.run py guessType op = .ok (tree, accesses)) :
    s.tree.ChangedAt tree accesses := by
  -- Either nothing is written, or the operation makes directories or replaces one file.
  cases op <;> obtain ⟨o, ho, heq⟩ := Codec.map_ok.mp h <;> cases heq
  case prepareWorkspace =>
    obtain ⟨_, _, ho⟩ := Codec.bind_ok.mp ho
    obtain ⟨⟨tree, accesses⟩, hmade, ho⟩ := Codec.bind_ok.mp ho
    cases Codec.pure_ok.mp ho
    exact (makeDirectories_ok hmade).2.1
  case snapshot =>
    obtain ⟨_, _, ho⟩ := Codec.bind_ok.mp ho
    obtain ⟨_, _, ho⟩ := Codec.bind_ok.mp ho
    obtain ⟨_, _, ho⟩ := Codec.bind_ok.mp ho
    obtain ⟨_, _, ho⟩ := Codec.bind_ok.mp ho
    cases Codec.pure_ok.mp ho
    exact fun _ => .inl rfl
  -- The directories first, then the file in them.
  case prepareNotebook =>
    obtain ⟨_, _, ho⟩ := Codec.bind_ok.mp ho
    split at ho
    swap
    · cases ho
    obtain ⟨_, _, ho⟩ := Codec.bind_ok.mp ho
    obtain ⟨_, _, ho⟩ := Codec.bind_ok.mp ho
    obtain ⟨⟨tree, made⟩, hmade, ho⟩ := Codec.bind_ok.mp ho
    obtain ⟨⟨tree', written⟩, hwritten, ho⟩ := Codec.bind_ok.mp ho
    cases Codec.pure_ok.mp ho
    obtain ⟨_, _, _, _, hchanged, _⟩ := atomicWrite_ok hwritten
    exact (makeDirectories_ok hmade).2.1.trans hchanged
  case projectNotebook =>
    obtain ⟨_, _, ho⟩ := Codec.bind_ok.mp ho
    split at ho
    · cases ho
    obtain ⟨_, _, ho⟩ := Codec.bind_ok.mp ho
    obtain ⟨⟨tree, written⟩, hwritten, ho⟩ := Codec.bind_ok.mp ho
    cases Codec.pure_ok.mp ho
    obtain ⟨_, _, _, _, hchanged, _⟩ := atomicWrite_ok hwritten
    exact hchanged.mono (List.subset_append_left _ _)
  -- Reading changes nothing.
  case fileMetadata | resolveFile =>
    obtain ⟨_, _, ho⟩ := Codec.bind_ok.mp ho
    split at ho
    · cases ho
    · cases Codec.pure_ok.mp ho
      exact fun _ => .inl rfl
  case readManifest =>
    rw [readManifest] at ho
    split at ho
    · cases ho
    obtain ⟨_, _, ho⟩ := Codec.bind_ok.mp ho
    obtain ⟨_, _, ho⟩ := Codec.bind_ok.mp ho
    split at ho
    · cases Codec.pure_ok.mp ho
      exact fun _ => .inl rfl
    · dsimp only at ho
      split at ho
      · cases ho
      · cases Codec.pure_ok.mp ho
        exact fun _ => .inl rfl

/-- An operation that returns has accessed only what lies inside the root exactly if the
sub-paths it used without resolving them lead there; what it changed is among the accesses. -/
theorem storage_confined_iff {F : Type} [DecidableEq F] (py : Codec.Python F)
    (guessType : Option Name → Option Text) (s : Storage) (op : Operation F) (tree : Tree)
    (accesses : List Location) (h : s.run py guessType op = .ok (tree, accesses)) :
    ((∀ a ∈ accesses, s.root <+: a) ↔ s.Contained op) ∧ s.tree.ChangedAt tree accesses := by
  refine ⟨?_, changedAt_run h⟩
  cases op <;> obtain ⟨o, ho, heq⟩ := Codec.map_ok.mp h <;> cases heq
  case prepareWorkspace => exact prepareWorkspace_within ho
  case snapshot => exact iff_of_true (snapshot_within ho) trivial
  case prepareNotebook => exact prepareNotebook_within ho
  case projectNotebook => exact iff_of_true (projectNotebook_within ho) trivial
  case fileMetadata => exact iff_of_true (fileMetadata_within ho) trivial
  case resolveFile => exact iff_of_true (resolveFile_within ho) trivial
  case readManifest => exact readManifest_within ho

end Storage

/-! ### A link beside the manifest -/

namespace Small

open Storage (nameOf)

/-- A tree with nothing in it but its root. -/
def emptyTree : Tree where
  entry loc := if loc = [] then some .directory else none
  locations := [[]]
  listed {loc} h := by
    by_cases hnil : loc = []
    · exact List.mem_singleton.mpr hnil
    · exact absurd (if_neg hnil) h
  parents h := absurd (if_neg (List.append_ne_nil_of_right_ne_nil _ (List.cons_ne_nil _ _))) h

/-- A workspace whose `artifacts` is a link to a directory beside the root. -/
def linkedTree : Tree :=
  ((((emptyTree.put [] (nameOf "private") .directory (by decide +kernel) (by decide +kernel)).put
    [nameOf "private"] (nameOf "manifest.jsonl") (.file [104, 105] 0) (by decide +kernel)
      (by decide +kernel)).put
    [] (nameOf "runtime") .directory (by decide +kernel) (by decide +kernel)).put
    [nameOf "runtime"] (nameOf "workspace") .directory (by decide +kernel) (by decide +kernel)).put
    [nameOf "runtime", nameOf "workspace"] (nameOf "artifacts") (.link "/private".toList)
      (by decide +kernel) (by decide +kernel)

/-- The storage over that tree. -/
def linkedStorage : Storage where
  tree := linkedTree
  root := [nameOf "runtime"]
  links := 40
  resolveLinks := 40
  rooted p hp := by
    rcases List.prefix_concat_iff.mp (show p <+: [] ++ [nameOf "runtime"] from hp) with rfl | hp
    · decide +kernel
    · rw [List.prefix_nil.mp hp]
      decide +kernel

/-- Where the manifest is read. -/
theorem linkedStorage_run :
    linkedStorage.run Codec.Small.python (fun _ => none) (.readManifest "workspace".toList 0) =
      .ok (linkedTree, [[nameOf "private", nameOf "manifest.jsonl"]]) := by
  have hresolve : linkedStorage.resolve "workspace".toList true =
      .ok [nameOf "runtime", nameOf "workspace"] := by decide +kernel
  have hfile : linkedStorage.file? ([nameOf "runtime", nameOf "workspace"] ++
      Storage.manifestPath) = some ([104, 105], 0) := by decide +kernel
  have hfound : linkedStorage.at? ([nameOf "runtime", nameOf "workspace"] ++
      Storage.manifestPath) = some [nameOf "private", nameOf "manifest.jsonl"] := by
    decide +kernel
  have hwithin : linkedStorage.ensureWithin ([nameOf "runtime", nameOf "workspace"] ++
      Storage.manifestPath) = .ok ([nameOf "runtime", nameOf "workspace"] ++
      Storage.manifestPath) := by decide +kernel
  rw [Storage.run, Storage.readManifest, if_neg (by decide), hresolve]
  dsimp only [bind, Except.bind]
  rw [hwithin]
  dsimp only
  rw [hfile, hfound]
  rfl

theorem storage_confined_manifest :
    ((∀ a ∈ [[nameOf "private", nameOf "manifest.jsonl"]], linkedStorage.root <+: a) ↔
      linkedStorage.Contained (.readManifest "workspace".toList 0 : Storage.Operation Unit)) ∧
      linkedTree.ChangedAt linkedTree [[nameOf "private", nameOf "manifest.jsonl"]] :=
  Storage.storage_confined_iff Codec.Small.python (fun _ => none) linkedStorage
    (.readManifest "workspace".toList 0) linkedTree _ linkedStorage_run

/-- The manifest that the link leads to is read outside the root. -/
theorem storage_confined_link :
    ¬ ∀ tree accesses,
      linkedStorage.run Codec.Small.python (fun _ => none) (.readManifest "workspace".toList 0) =
        .ok (tree, accesses) →
      ∀ a ∈ accesses, linkedStorage.root <+: a := by
  intro hall
  have hroot := hall _ _ linkedStorage_run _ (List.mem_singleton_self _)
  revert hroot
  decide +kernel

end Small

end ExecutorService
