/-
The threads that write a Step result.

The log of an open result is in two places, a file and the memory of the process;
`append` writes the file first.  What holds between the two, and what an append or
a seal that runs alone makes of it:

* `Manifest.Sound` — what a sealed manifest promises;
* `Recorded`, `Inv` — the lines of a log, its files and the counters in memory;
* `append_safe`, `sealResult_safe` — the two threads that change a log.
-/
import ExecutorService.CodecRoundTrip
import ExecutorService.ResultStore

namespace ExecutorService.ResultStore

open Codec (Text Python CodecError RuntimeOutputRecord RuntimeOutputRepresentation OutputKind
  OutputDescriptor OutputFile RepresentationDescriptor)

variable {F : Type}

/-! ### What a manifest promises -/

/-- What a receipt of the batch names. -/
def LogEntry.key (entry : LogEntry F) : BatchKey :=
  (entry.batchId, entry.requestSha256)

/-- The descriptors of `records`, numbered from `offset`. -/
def Persists (py : Python F) (offset : ℕ) (records : List (RuntimeOutputRecord F))
    (outputs : List (OutputDescriptor F)) : Prop :=
  List.Forall₂ (fun (p : RuntimeOutputRecord F × ℕ) output =>
    ∃ files, Codec.persistRecord py p.2 p.1 = .ok (output, files)) (records.zipIdx offset) outputs

/-- The entry of a batch that follows `offset` outputs. -/
def LogEntry.Describes (py : Python F) (entry : LogEntry F) (offset : ℕ) : Prop :=
  ∃ records, recordsDigest py records = .ok entry.requestSha256 ∧
    Persists py offset records entry.outputs

/-- The entries of batches that follow each other. -/
def Described (py : Python F) : ℕ → List (LogEntry F) → Prop
  | _, [] => True
  | offset, entry :: entries =>
    entry.Describes py offset ∧ Described py (offset + entry.outputs.length) entries

/-- The file of a representation has the size and checksum on record. -/
def Directory.Holds (py : Python F) (d : Directory F) (r : RepresentationDescriptor) : Prop :=
  ∃ body, d.content r.file = some body ∧ body.length = r.sizeBytes ∧
    py.sha256 body = r.checksumSha256

/-- What a sealed manifest says about the acknowledged batches. -/
structure Manifest.Sound (py : Python F) (acknowledged : List BatchKey) (d : Directory F)
    (m : Manifest F) : Prop where
  outputCount : m.outputCount = m.outputs.length
  ordinals : m.outputs.map (·.ordinal) = List.range m.outputs.length
  representationCount : m.representationCount = ResultStore.representationCount m.outputs
  totalSizeBytes : m.totalSizeBytes = ResultStore.totalSizeBytes m.outputs
  batches : ∃ entries : List (LogEntry F), m.outputs = entries.flatMap (·.outputs) ∧
    Described py 0 entries ∧ (entries.map (·.batchId)).Nodup ∧
    acknowledged.Sublist (entries.map (·.key))
  files : ∀ output ∈ m.outputs, ∀ r ∈ output.representations, d.Holds py r

/-! ### Descriptors -/

theorem described_append {py : Python F} {offset : ℕ} {entries : List (LogEntry F)}
    {entry : LogEntry F} :
    Described py offset (entries ++ [entry]) ↔ Described py offset entries ∧
      entry.Describes py (offset + (entries.flatMap (·.outputs)).length) := by
  induction entries generalizing offset with
  | nil => simp [Described]
  | cons e entries ih =>
    simp only [List.cons_append, Described, ih, List.flatMap_cons, List.length_append]
    rw [and_assoc, Nat.add_assoc]

/-- Outputs are numbered from where their batch begins. -/
theorem Persists.ordinals {py : Python F} {offset : ℕ} {records : List (RuntimeOutputRecord F)}
    {outputs : List (OutputDescriptor F)} (h : Persists py offset records outputs) :
    outputs.map (·.ordinal) = List.range' offset outputs.length := by
  induction records generalizing offset outputs with
  | nil =>
    cases h
    rfl
  | cons record records ih =>
    rw [Persists, List.zipIdx_cons] at h
    obtain ⟨output, rest, ⟨files, hfiles⟩, hrest, rfl⟩ := List.forall₂_cons_left_iff.mp h
    have hordinal : output.ordinal = offset := by
      simp only [Codec.persistRecord, Codec.bind_ok, Codec.pure_ok] at hfiles
      obtain ⟨written, _, metadata, _, hpair⟩ := hfiles
      rw [← (Prod.mk.inj hpair).1]
    rw [List.map_cons, List.length_cons, List.range'_succ, hordinal, ih hrest]

theorem Described.ordinals {py : Python F} {offset : ℕ} {entries : List (LogEntry F)}
    (h : Described py offset entries) :
    (entries.flatMap (·.outputs)).map (·.ordinal) =
      List.range' offset (entries.flatMap (·.outputs)).length := by
  induction entries generalizing offset with
  | nil => rfl
  | cons entry entries ih =>
    obtain ⟨⟨records, _, hpersists⟩, hrest⟩ := h
    rw [List.flatMap_cons, List.map_append, hpersists.ordinals, ih hrest, List.length_append,
      ← List.range'_append]
    simp

/-! ### The log in memory -/

/-- The object for the entries of a log. -/
def OutputLog.load (header : Header) (entries : List (LogEntry F)) : OutputLog :=
  entries.foldl OutputLog.add ⟨header, 0, 0, 0, []⟩

theorem load_append (header : Header) (entries : List (LogEntry F)) (entry : LogEntry F) :
    OutputLog.load header (entries ++ [entry]) = (OutputLog.load header entries).add entry := by
  rw [OutputLog.load, List.foldl_append]
  rfl

/-- The counters of a log that has read `entries`. -/
theorem load_counts (header : Header) (entries : List (LogEntry F)) :
    (OutputLog.load header entries).header = header ∧
    (OutputLog.load header entries).outputCount = (entries.flatMap (·.outputs)).length ∧
    (OutputLog.load header entries).representationCount =
      representationCount (entries.flatMap (·.outputs)) ∧
    (OutputLog.load header entries).totalSizeBytes =
      totalSizeBytes (entries.flatMap (·.outputs)) := by
  induction entries using List.reverseRecOn with
  | nil => exact ⟨rfl, rfl, rfl, rfl⟩
  | append_singleton entries entry ih =>
    obtain ⟨hheader, hcount, hrepresentations, hsize⟩ := ih
    rw [load_append, List.flatMap_append, List.flatMap_singleton]
    refine ⟨hheader, ?_, ?_, ?_⟩
    · show (OutputLog.load header entries).outputCount + entry.outputs.length = _
      rw [hcount, List.length_append]
    · show (OutputLog.load header entries).representationCount + _ = _
      rw [hrepresentations, representationCount, representationCount, List.map_append,
        List.sum_append]
      rfl
    · show (OutputLog.load header entries).totalSizeBytes + _ = _
      rw [hsize, totalSizeBytes, totalSizeBytes, List.map_append, List.sum_append]
      rfl

/-- A log knows the batches it has read, with their digests. -/
theorem find_load (header : Header) (entries : List (LogEntry F)) (batchId : UUID) :
    match (OutputLog.load header entries).find batchId with
    | some batch => (batchId, batch.requestSha256) ∈ entries.map (·.key)
    | none => batchId ∉ entries.map (·.batchId) := by
  induction entries using List.reverseRecOn with
  | nil => exact List.not_mem_nil
  | append_singleton entries entry ih =>
    rw [load_append]
    by_cases hid : entry.batchId = batchId
    · have hfind : ((OutputLog.load header entries).add entry).find batchId =
          some (entry.batch (OutputLog.load header entries).outputCount) := by
        simp [OutputLog.find, OutputLog.add, hid]
      rw [hfind]
      simp [LogEntry.key, LogEntry.batch, hid]
    · have hfind : ((OutputLog.load header entries).add entry).find batchId =
          (OutputLog.load header entries).find batchId := by
        simp [OutputLog.find, OutputLog.add, hid]
      rw [hfind]
      split at ih
      · exact List.mem_map.mpr (by
          obtain ⟨e, he, hkey⟩ := List.mem_map.mp ih
          exact ⟨e, List.mem_append_left _ he, hkey⟩)
      · rw [List.map_append, List.mem_append]
        rintro (hmem | hmem)
        · exact ih hmem
        · exact hid (List.mem_singleton.mp hmem).symm

theorem parseLines_eq_some {lines : List (Option (LogEntry F))} {entries : List (LogEntry F)} :
    parseLines lines = some entries ↔ lines = entries.map some := by
  induction lines generalizing entries with
  | nil => cases entries <;> simp [parseLines]
  | cons line lines ih =>
    cases line with
    | none => cases entries <;> simp [parseLines]
    | some entry =>
      cases entries with
      | nil => simp [parseLines]
      | cons e entries => simp [parseLines, ih, and_comm]

/-! ### The invariant -/

section

variable (py : Python F) (acknowledged : List BatchKey)

/-- A result that was begun or sealed: a late `begin` finds it. -/
def Store.Settled (s : Store F) : Prop :=
  s.final.isSome ∨ ∃ d, s.working = some d ∧ (d.state.isSome ∨ d.manifest.isSome)

/-- No line was written yet. -/
def Store.Blank (s : Store F) : Prop :=
  s.current = none ∧ ∀ d f, s.working = some d → d.log = some f → f.lines = []

/-- A directory that a `begin` is still preparing. -/
def Store.Fresh (s : Store F) : Prop :=
  s.final = none ∧ s.Blank ∧ ∃ d, s.working = some d ∧ d.state = none ∧ d.manifest = none

/-- The lines of an open log, its files, and the log in memory, which has read the
first of them. -/
structure Recorded (s : Store F) (d : Directory F) (header : Header)
    (entries : List (LogEntry F)) : Prop where
  described : Described py 0 entries
  files : ∀ output ∈ entries.flatMap (·.outputs), ∀ r ∈ output.representations,
    d.Holds py r ∧ r.file.ordinal < (entries.flatMap (·.outputs)).length
  distinct : (entries.map (·.batchId)).Nodup
  acked : acknowledged <+: entries.map (·.key)
  pending : entries.length ≤ acknowledged.length + 1
  memory : ∀ log object, s.current = some log → s.objects[log]? = some object →
    ∃ n, object = .load header (entries.take n)

/-- What holds of the store, whatever the threads on it do. -/
structure Inv (s : Store F) : Prop where
  sealed : ∀ d, s.final = some d → s.working = none ∧ s.current = none ∧
    ∃ m, d.manifest = some m ∧ m.Sound py acknowledged d
  loaded : ∀ log, s.current = some log → s.Settled ∧ s.objects[log]?.isSome
  silent : acknowledged ≠ [] → s.Settled
  opened : ∀ d header, s.working = some d → d.state = some header →
    ∃ f, d.log = some f ∧ ∀ entries, f.lines = entries.map some →
      Recorded py acknowledged s d header entries

/-- How an append or a seal runs: beside threads that only begin. -/
def writer : Program.Rules (Op F) Failure (Store F) where
  rely s s' := Inv py acknowledged s →
    Inv py acknowledged s' ∧ (s' = s ∨ ¬ s.Settled ∧ s'.Blank)
  refl _ h := ⟨h, .inl rfl⟩
  trans := by
    intro s s' s'' h h' hs
    obtain ⟨hs', hstep⟩ := h hs
    obtain ⟨hs'', hstep'⟩ := h' hs'
    refine ⟨hs'', ?_⟩
    rcases hstep with rfl | ⟨hsettled, hblank⟩
    · exact hstep'
    · rcases hstep' with rfl | ⟨_, hblank'⟩
      · exact .inr ⟨hsettled, hblank⟩
      · exact .inr ⟨hsettled, hblank'⟩
  step e s r s' := ∃ io, e.perform io s = (s', r)
  allowed e s := ∀ io, Inv py acknowledged (e.perform io s).1 ∧
    (s.Fresh → (e.perform io s).1 = s)

end

variable {py : Python F} {acknowledged : List BatchKey}

theorem Store.Fresh.not_settled {s : Store F} (h : s.Fresh) : ¬ s.Settled := by
  obtain ⟨hfinal, _, d, hd, hstate, hmanifest⟩ := h
  rintro (hsome | ⟨d', hd', hsome⟩)
  · simp [hfinal] at hsome
  · rw [hd] at hd'
    cases hd'
    simp [hstate, hmanifest] at hsome

/-- An operation that changes nothing. -/
def Op.reads {α : Type} : Op F α → Bool
  | .finalExists | .workingExists | .loadTerminal | .loadState | .requireWorking | .currentLog
  | .readLog false | .object _ | .syncLog | .syncWorking | .syncFinal => true
  | _ => false

theorem Io.reply_self {α : Type} (io : Io) (s : Store F) (value : α) :
    (io.reply s s value).1 = s := by
  rcases io with _ | (_ | _) | _ <;> rfl

/-- An operation that fails may have taken effect. -/
theorem Io.reply_cases {α : Type} {io : Io} {s s' t : Store F} {value : α}
    {r : Except Failure α} (h : io.reply s s' value = (t, r)) :
    (t = s ∨ t = s') ∧ ∀ a, r = .ok a → t = s' := by
  rcases io with _ | (_ | _) | _ <;> cases h
  · exact ⟨.inr rfl, fun _ _ => rfl⟩
  · exact ⟨.inl rfl, fun _ h => by cases h⟩
  · exact ⟨.inr rfl, fun _ h => by cases h⟩
  · exact ⟨.inl rfl, fun _ h => by cases h⟩

theorem Op.perform_reads {α : Type} {e : Op F α} (he : e.reads = true) (io : Io) (s : Store F) :
    (e.perform io s).1 = s := by
  cases e with
  | finalExists => exact io.reply_self s _
  | workingExists => exact io.reply_self s _
  | syncLog => exact io.reply_self s _
  | syncFinal => exact io.reply_self s _
  | currentLog => rfl
  -- The loads and the two guards answer without a change, whether they succeed or not.
  | loadTerminal =>
    simp only [Op.perform]
    split
    · exact io.reply_self s _
    · rfl
  | loadState =>
    simp only [Op.perform]
    split
    · exact io.reply_self s _
    · rfl
  | requireWorking =>
    simp only [Op.perform]
    split
    · exact io.reply_self s _
    · rfl
  | syncWorking =>
    simp only [Op.perform]
    split
    · exact io.reply_self s _
    · rfl
  | object log =>
    simp only [Op.perform]
    split
    · rfl
    · rfl
  | readLog repair =>
    cases repair with
    | true => cases he
    | false =>
      -- A read without repair leaves a torn line where it is.
      simp only [Op.perform, performReadLog]
      split
      · rfl
      split
      · rfl
      rcases io with _ | (_ | _) | _
      · simp only [Io.reply]
        split <;> simp_all
      · rfl
      · rfl
      · rfl
  | _ => cases he

/-! ### Threads that write -/

/-- How a writing thread ends: with `good`, or with the invariant. -/
def Ends {α : Type} (py : Python F) (acknowledged : List BatchKey) (good : α → Store F → Prop) :
    Except Failure α → Store F → Prop
  | .ok a, s => good a s
  | .error _, s => Inv py acknowledged s

section

variable {α β : Type} {good : β → Store F → Prop} {s : Store F}

theorem rely_of_settled (hinv : Inv py acknowledged s) (hs : s.Settled) {s' : Store F}
    (h : (writer py acknowledged).rely s s') : s' = s := by
  rcases (h hinv).2 with heq | ⟨hnot, _⟩
  · exact heq
  · exact absurd hs hnot

theorem safe_raise (hinv : Inv py acknowledged s) (x : Failure) :
    Program.Safe (writer py acknowledged) (Ends py acknowledged good) (.raise x) s :=
  fun _ h => (h hinv).1

theorem safe_ret (hinv : Inv py acknowledged s) (hs : s.Settled) {b : β} (h : good b s) :
    Program.Safe (writer py acknowledged) (Ends py acknowledged good) (.ret b) s := by
  intro s' hr
  rw [rely_of_settled hinv hs hr]
  exact h

/-- An operation on a settled store: nobody else moves it. -/
theorem safe_settled {e : Op F α} {f : α → Thread F β} (hinv : Inv py acknowledged s)
    (hs : s.Settled) (h : ∀ io s' r, e.perform io s = (s', r) → Inv py acknowledged s' ∧
      ∀ a, r = .ok a → Program.Safe (writer py acknowledged) (Ends py acknowledged good) (f a) s') :
    Program.Safe (writer py acknowledged) (Ends py acknowledged good) (Program.await e >>= f) s := by
  refine Program.Safe.await_bind (P := (· = s)) ?_ rfl ?_ ?_ ?_
  · rintro _ s' rfl hr
    exact rely_of_settled hinv hs hr
  · rintro _ rfl io
    exact ⟨(h io _ _ rfl).1, fun hfresh => absurd hs hfresh.not_settled⟩
  · rintro _ a s' rfl ⟨io, hio⟩
    exact (h io s' _ hio).2 a rfl
  · rintro _ x s' rfl ⟨io, hio⟩
    exact safe_raise (h io s' _ hio).1 x

/-- A read, from an assertion that the others keep. -/
theorem safe_read {e : Op F α} (he : e.reads = true) {f : α → Thread F β} {P : Store F → Prop}
    (hP : ∀ s s', P s → (writer py acknowledged).rely s s' → P s')
    (hinv : ∀ s, P s → Inv py acknowledged s) (h : P s)
    (hok : ∀ s a io, P s → e.perform io s = (s, .ok a) →
      Program.Safe (writer py acknowledged) (Ends py acknowledged good) (f a) s) :
    Program.Safe (writer py acknowledged) (Ends py acknowledged good) (Program.await e >>= f) s := by
  have hsame : ∀ {io : Io} {s s' : Store F} {r : Except Failure α},
      e.perform io s = (s', r) → s' = s := by
    intro io s s' r h
    rw [← Op.perform_reads he io s, h]
  refine Program.Safe.await_bind (P := P) hP h ?_ ?_ ?_
  · intro s hs io
    rw [Op.perform_reads he]
    exact ⟨hinv s hs, fun _ => rfl⟩
  · rintro s a s' hs ⟨io, hio⟩
    obtain rfl := hsame hio
    exact hok s' a io hs hio
  · rintro s x s' hs ⟨io, hio⟩
    obtain rfl := hsame hio
    exact safe_raise (hinv s' hs) x

/-- A read of a settled store. -/
theorem safe_settled_read {e : Op F α} (he : e.reads = true) {f : α → Thread F β}
    (hinv : Inv py acknowledged s) (hs : s.Settled)
    (h : ∀ io a, e.perform io s = (s, .ok a) →
      Program.Safe (writer py acknowledged) (Ends py acknowledged good) (f a) s) :
    Program.Safe (writer py acknowledged) (Ends py acknowledged good) (Program.await e >>= f) s := by
  refine safe_settled hinv hs fun io s' r hr => ?_
  obtain rfl : s' = s := by rw [← Op.perform_reads he io s, hr]
  refine ⟨hinv, ?_⟩
  rintro a rfl
  exact h io a hr

/-- The last operation of a thread. -/
theorem safe_settled_last {e : Op F β} (hinv : Inv py acknowledged s) (hs : s.Settled)
    (h : ∀ io s' r, e.perform io s = (s', r) → Inv py acknowledged s' ∧
      ∀ b, r = .ok b → s'.Settled ∧ good b s') :
    Program.Safe (writer py acknowledged) (Ends py acknowledged good) (Program.await e) s := by
  intro s' hr
  obtain rfl := rely_of_settled hinv hs hr
  refine ⟨fun io => ⟨(h io _ _ rfl).1, fun hfresh => absurd hs hfresh.not_settled⟩, ?_⟩
  rintro (x | b) s'' ⟨io, hio⟩
  · exact safe_raise (h io s'' _ hio).1 x
  · obtain ⟨hinv', hgood⟩ := h io s'' _ hio
    exact safe_ret hinv' (hgood b rfl).1 (hgood b rfl).2

theorem safe_lift {x : Except CodecError α} {f : α → Thread F β} (hinv : Inv py acknowledged s)
    (h : ∀ a, x = .ok a →
      Program.Safe (writer py acknowledged) (Ends py acknowledged good) (f a) s) :
    Program.Safe (writer py acknowledged) (Ends py acknowledged good) (lift x >>= f) s := by
  cases x with
  | error x => exact safe_raise hinv _
  | ok a => exact h a rfl

end

/-! ### Opening the log -/

/-- Every batch with a line in the file is known to the log in memory. -/
def Store.Remembers (s : Store F) : Prop :=
  ∀ d f log object entry, s.working = some d → d.log = some f → s.current = some log →
    s.objects[log]? = some object → some entry ∈ f.lines → (object.find entry.batchId).isSome

/-- The log in memory has read every line. -/
def Store.Agrees (s : Store F) (object : OutputLog) : Prop :=
  ∀ d header f entries, s.working = some d → d.state = some header → d.log = some f →
    f.lines = entries.map some → object = .load header entries

/-- What a writing thread starts from; `C` is what it knows about the lines. -/
structure Ready (py : Python F) (acknowledged : List BatchKey)
    (C : List (Option (LogEntry F)) → Prop) (s : Store F) : Prop where
  inv : Inv py acknowledged s
  remembers : s.Remembers
  lines : ∀ d f, s.working = some d → d.log = some f → C f.lines

/-- What it knows after `_open_log`. -/
structure Loaded (py : Python F) (acknowledged : List BatchKey)
    (C : List (Option (LogEntry F)) → Prop) (log : ℕ) (object : OutputLog) (s : Store F) :
    Prop where
  inv : Inv py acknowledged s
  current : s.current = some log
  held : s.objects[log]? = some object
  agrees : s.Agrees object
  lines : ∀ d f, s.working = some d → d.log = some f → C f.lines

section

variable {C : List (Option (LogEntry F)) → Prop} {s : Store F}

theorem Ready.stable (hC : C []) {s' : Store F} (h : Ready py acknowledged C s)
    (hr : (writer py acknowledged).rely s s') : Ready py acknowledged C s' := by
  obtain ⟨hinv, heq | ⟨_, hcurrent, hblank⟩⟩ := hr h.inv
  · rw [heq]
    exact h
  · refine ⟨hinv, ?_, ?_⟩
    · intro d f log object entry _ _ hlog
      rw [hcurrent] at hlog
      cases hlog
    · intro d f hd hf
      rw [hblank d f hd hf]
      exact hC

theorem Loaded.settled {log : ℕ} {object : OutputLog} (h : Loaded py acknowledged C log object s) :
    s.Settled :=
  (h.inv.loaded log h.current).1

/-- A log in memory that knows every batch of the file has read all of it. -/
theorem Ready.agrees {log : ℕ} {object : OutputLog} (h : Ready py acknowledged C s)
    (hlog : s.current = some log) (hobject : s.objects[log]? = some object) :
    s.Agrees object := by
  intro d header f entries hd hheader hf hlines
  obtain ⟨f', hf', hrecorded⟩ := h.inv.opened d header hd hheader
  rw [hf] at hf'
  cases hf'
  have hrec := hrecorded entries hlines
  obtain ⟨n, rfl⟩ := hrec.memory log object hlog hobject
  -- The first line it has not read would be of a batch that it does not know.
  by_cases hn : entries.length ≤ n
  · rw [List.take_of_length_le hn]
  · exfalso
    have hlt : n < entries.length := by omega
    have hmem : some entries[n] ∈ f.lines := by
      rw [hlines]
      exact List.mem_map_of_mem (List.getElem_mem hlt)
    have hfound := h.remembers d f log _ _ hd hf hlog hobject hmem
    have hfind := find_load header (entries.take n) entries[n].batchId
    rw [Option.isSome_iff_exists] at hfound
    obtain ⟨batch, hbatch⟩ := hfound
    rw [hbatch] at hfind
    obtain ⟨e, he, hkey⟩ := List.mem_map.mp hfind
    obtain ⟨i, hi, rfl⟩ := List.getElem_of_mem he
    rw [List.length_take] at hi
    have hid : entries[i].batchId = entries[n].batchId := by
      have := congrArg Prod.fst hkey
      simpa [LogEntry.key, List.getElem_take] using this
    have hinj := (List.nodup_iff_injective_get.mp hrec.distinct)
    have : (⟨i, by simp; omega⟩ : Fin (entries.map (·.batchId)).length) =
        ⟨n, by simpa using hlt⟩ := hinj (by simpa using hid)
    have := Fin.mk.inj_iff.mp this
    omega

/-- A change of the directory that is being written. -/
theorem Inv.setWorking (h : Inv py acknowledged s) {d d' : Directory F} (hd : s.working = some d)
    (hsettled : d.state.isSome ∨ d.manifest.isSome → d'.state.isSome ∨ d'.manifest.isSome)
    (hopened : ∀ header, d'.state = some header → ∃ f, d'.log = some f ∧
      ∀ entries, f.lines = entries.map some → Recorded py acknowledged s d' header entries) :
    Inv py acknowledged { s with working := some d' } := by
  have hs : s.Settled → Store.Settled { s with working := some d' } := by
    rintro (hfinal | ⟨d'', hd'', hsome⟩)
    · exact .inl hfinal
    · rw [hd] at hd''
      cases hd''
      exact .inr ⟨d', rfl, hsettled hsome⟩
  refine ⟨?_, ?_, fun hne => hs (h.silent hne), ?_⟩
  · intro d'' hd''
    have := (h.sealed d'' hd'').1
    rw [hd] at this
    cases this
  · intro log hlog
    exact ⟨hs (h.loaded log hlog).1, (h.loaded log hlog).2⟩
  · rintro _ header ⟨⟩ hheader
    obtain ⟨f, hf, hrecorded⟩ := hopened header hheader
    exact ⟨f, hf, fun entries hlines =>
      { hrecorded entries hlines with memory := (hrecorded entries hlines).memory }⟩

theorem Inv.setLog (h : Inv py acknowledged s) {d : Directory F} (hd : s.working = some d)
    (f : LogFile F) (hrecorded : ∀ header entries, d.state = some header →
      f.lines = entries.map some → Recorded py acknowledged s d header entries) :
    Inv py acknowledged { s with working := some { d with log := some f } } := by
  refine h.setWorking hd id fun header hheader => ⟨f, rfl, fun entries hlines => ?_⟩
  have hrec := hrecorded header entries hheader hlines
  exact { hrec with files := hrec.files }

/-- An incomplete last line, dropped or left behind, is no entry. -/
theorem Inv.setTorn (h : Inv py acknowledged s) {d : Directory F} {f : LogFile F}
    (hd : s.working = some d) (hf : d.state.isSome → d.log = some f) (torn : Bool) :
    Inv py acknowledged { s with working := some { d with log := some ⟨f.lines, torn⟩ } } := by
  refine h.setLog hd _ fun header entries hheader hlines => ?_
  obtain ⟨f', hf', hrecorded⟩ := h.opened d header hd hheader
  rw [hf (by rw [hheader]; rfl)] at hf'
  cases hf'
  exact hrecorded entries hlines

/-- What reading the log gives, and what it changes. -/
theorem performReadLog_cases {io : Io} {repair : Bool} {s' : Store F}
    {r : Except Failure (List (LogEntry F))}
    (h : (Op.readLog repair).perform io s = (s', r)) :
    (s' = s ∨ ∃ d f, s.working = some d ∧ d.log = some f ∧
      s' = { s with working := some { d with log := some ⟨f.lines, false⟩ } }) ∧
    ∀ entries, r = .ok entries → ∃ d f, s'.working = some d ∧ d.log = some f ∧
      f.lines = entries.map some := by
  simp only [Op.perform, Op.performReadLog] at h
  cases hd : s.working with
  | none =>
    simp only [hd] at h
    cases h
    exact ⟨.inl rfl, fun _ hr => by cases hr⟩
  | some d =>
    simp only [hd] at h
    cases hf : d.log with
    | none =>
      simp only [hf] at h
      cases h
      exact ⟨.inl rfl, fun _ hr => by cases hr⟩
    | some f =>
      simp only [hf] at h
      have hcases : s' = s ∨ s' = { s with working := some { d with log := some ⟨f.lines, false⟩ } } := by
        rcases io with _ | (_ | _) | _ <;> cases repair <;> cases hp : parseLines f.lines <;>
          simp only [hp, Io.reply, if_true, Bool.false_eq_true, if_false] at h <;> cases h <;>
          simp
      refine ⟨?_, ?_⟩
      · rcases hcases with rfl | rfl
        · exact .inl rfl
        · exact .inr ⟨d, f, rfl, hf, rfl⟩
      · rintro entries rfl
        have hlines : f.lines = entries.map some := by
          rcases io with _ | (_ | _) | _ <;> cases hp : parseLines f.lines <;>
            simp only [hp, Io.reply] at h <;> cases h
          exact parseLines_eq_some.mp hp
        rcases hcases with rfl | rfl
        · exact ⟨d, f, hd, hf, hlines⟩
        · exact ⟨_, _, rfl, rfl, hlines⟩

/-- A log that was just read from the file. -/
theorem Inv.keep (h : Inv py acknowledged s) {d : Directory F}
    {f : LogFile F} {header : Header} {entries : List (LogEntry F)} (hd : s.working = some d)
    (hheader : d.state = some header) (hf : d.log = some f) (hlines : f.lines = entries.map some)
    (hC : C f.lines) :
    Loaded py acknowledged C s.objects.length (.load header entries)
      { s with
        objects := s.objects ++ [.load header entries], current := some s.objects.length } := by
  have hheld : (s.objects ++ [OutputLog.load header entries])[s.objects.length]? =
      some (.load header entries) := by simp
  -- The directory that holds the log is in place, so the log may be kept in memory.
  have hsettled : s.Settled := .inr ⟨d, hd, .inl (by rw [hheader]; rfl)⟩
  refine ⟨⟨?_, ?_, fun _ => hsettled, ?_⟩, rfl, hheld, ?_, ?_⟩
  · intro d' hd'
    have := (h.sealed d' hd').1
    rw [hd] at this
    cases this
  · rintro log ⟨⟩
    exact ⟨hsettled, by rw [hheld]; rfl⟩
  · -- Memory now holds the entries that were read, all of them.
    intro d' header' hd' hheader'
    obtain ⟨f', hf', hrecorded⟩ := h.opened d' header' hd' hheader'
    refine ⟨f', hf', fun entries' hlines' => ?_⟩
    have hrec := hrecorded entries' hlines'
    refine { hrec with memory := ?_ }
    rintro log object ⟨⟩ hobject
    rw [hheld] at hobject
    cases hobject
    rw [hd] at hd'
    cases hd'
    rw [hheader] at hheader'
    cases hheader'
    rw [hf] at hf'
    cases hf'
    rw [hlines] at hlines'
    have := List.map_injective_iff.mpr (Option.some_injective _) hlines'
    subst this
    exact ⟨entries.length, by rw [List.take_length]⟩
  · intro d' header' f' entries' hd' hheader' hf' hlines'
    rw [show s.working = some d from hd] at hd'
    cases hd'
    rw [hheader] at hheader'
    cases hheader'
    rw [hf] at hf'
    cases hf'
    rw [hlines] at hlines'
    rw [List.map_injective_iff.mpr (Option.some_injective _) hlines']
  · intro d' f' hd' hf'
    rw [show s.working = some d from hd] at hd'
    cases hd'
    rw [hf] at hf'
    cases hf'
    exact hC

theorem findLog_safe (hC : C []) (h : Ready py acknowledged C s) :
    Program.Safe (writer py acknowledged)
      (Ends py acknowledged fun log s => ∃ object, Loaded py acknowledged C log object s)
      findLog s := by
  refine safe_read rfl (fun _ _ => Ready.stable hC) (fun _ h => h.inv) h ?_
  rintro s (_ | log) io hready hio
  · -- No log in memory: this call reads the one on disk.
    have hcurrent : s.current = none := by
      have := congrArg Prod.snd hio
      exact Except.ok.inj this
    refine safe_read (P := fun s => Ready py acknowledged C s ∧ s.current = none) rfl ?_
      (fun _ h => h.1.inv) ⟨hready, hcurrent⟩ ?_
    · rintro s s' ⟨h, hcurrent⟩ hr
      refine ⟨h.stable hC hr, ?_⟩
      rcases (hr h.inv).2 with rfl | ⟨_, hblank⟩
      · exact hcurrent
      · exact hblank.1
    rintro s header io ⟨hready, hcurrent⟩ hio
    -- The state that was loaded is the working directory's.
    obtain ⟨d, hd, hheader⟩ : ∃ d, s.working = some d ∧ d.state = some header := by
      simp only [Op.perform] at hio
      split at hio
      · rename_i header' hbind
        obtain ⟨d, hd, hstate⟩ := Option.bind_eq_some_iff.mp hbind
        refine ⟨d, hd, ?_⟩
        rcases io with _ | (_ | _) | _ <;> cases hio
        exact hstate
      · cases hio
    have hsettled : s.Settled := .inr ⟨d, hd, .inl (by rw [hheader]; rfl)⟩
    show Program.Safe _ _ (ite _ _ _) s
    split
    · exact safe_raise hready.inv _
    · refine safe_settled hready.inv hsettled fun io s' r hr => ?_
      obtain ⟨hs', hentries⟩ := performReadLog_cases hr
      -- Reading may have cut a torn line off and changes nothing else.
      have hinv' : Inv py acknowledged s' := by
        rcases hs' with rfl | ⟨d', f', hd', hf', rfl⟩
        · exact hready.inv
        · exact hready.inv.setTorn hd' (fun _ => hf') false
      refine ⟨hinv', ?_⟩
      rintro entries rfl
      obtain ⟨d', f', hd', hf', hlines⟩ := hentries entries rfl
      have hkept : s'.current = none ∧ d'.state = some header ∧ C f'.lines := by
        rcases hs' with rfl | ⟨d'', f'', hd'', hf'', rfl⟩
        · rw [hd] at hd'
          cases hd'
          exact ⟨hcurrent, hheader, hready.lines d f' hd hf'⟩
        · cases hd'
          cases hf'
          rw [hd] at hd''
          cases hd''
          exact ⟨hcurrent, hheader, hready.lines d f'' hd hf''⟩
      refine safe_settled_last hinv' (.inr ⟨d', hd', .inl (by rw [hkept.2.1]; rfl)⟩) ?_
      rintro io s'' r hr
      cases hr
      have hloaded := hinv'.keep hd' hkept.2.1 hf' hlines hkept.2.2
      refine ⟨hloaded.inv, ?_⟩
      rintro log ⟨⟩
      exact ⟨hloaded.settled, _, hloaded⟩
  · have hcurrent : s.current = some log := by
      have := congrArg Prod.snd hio
      exact Except.ok.inj this
    obtain ⟨hsettled, hsome⟩ := hready.inv.loaded log hcurrent
    obtain ⟨object, hobject⟩ := Option.isSome_iff_exists.mp hsome
    exact safe_ret hready.inv hsettled ⟨object, hready.inv, hcurrent, hobject,
      hready.agrees hcurrent hobject, hready.lines⟩

theorem openLog_safe (hC : C []) (h : Ready py acknowledged C s)
    (identity : StepResultIdentity) :
    Program.Safe (writer py acknowledged)
      (Ends py acknowledged fun log s => ∃ object, Loaded py acknowledged C log object s)
      (openLog identity) s := by
  refine Program.Safe.bind (findLog_safe hC h) ?_ ?_
  · rintro log s ⟨object, hloaded⟩
    refine safe_settled_read rfl hloaded.inv hloaded.settled fun io found hio => ?_
    show Program.Safe _ _ (identityJson identity >>= _) s
    rw [identityJson]
    split
    · exact safe_raise hloaded.inv _
    · show Program.Safe _ _ (ite _ _ _) s
      split
      · exact safe_raise hloaded.inv _
      · exact safe_ret hloaded.inv hloaded.settled ⟨object, hloaded⟩
  · intro x s hinv
    exact safe_raise hinv x

/-! ### Output files -/

/-- The file comes before the one with this ordinal and index. -/
def Before (n i : ℕ) (file : OutputFile) : Prop :=
  file.ordinal < n ∨ file.ordinal = n ∧ file.index < i

/-- The files of `reps` are written, all before the one with this ordinal and index. -/
def Kept (py : Python F) (reps : List RepresentationDescriptor) (n i : ℕ) (s : Store F) : Prop :=
  ∀ d, s.working = some d → ∀ r ∈ reps, d.Holds py r ∧ Before n i r.file

/-- A write to another file. -/
theorem Directory.Holds.write {d : Directory F} {r : RepresentationDescriptor}
    (h : d.Holds py r) {file : OutputFile} (hne : file ≠ r.file) (body : List UInt8) :
    Directory.Holds py { d with files := (file, body) :: d.files } r := by
  obtain ⟨body', hcontent, hsize, hchecksum⟩ := h
  refine ⟨body', ?_, hsize, hchecksum⟩
  rw [← hcontent]
  simp [Directory.content, hne]

variable {log : ℕ} {object : OutputLog}

/-- The result is still open: its directory was not renamed. -/
theorem Loaded.final_eq_none (h : Loaded py acknowledged C log object s) : s.final = none := by
  cases hfinal : s.final with
  | none => rfl
  | some d =>
    have := (h.inv.sealed d hfinal).2.1
    rw [h.current] at this
    cases this

theorem Loaded.exists_working (h : Loaded py acknowledged C log object s) :
    ∃ d, s.working = some d ∧ (d.state.isSome ∨ d.manifest.isSome) := by
  rcases h.settled with hfinal | hworking
  · simp [h.final_eq_none] at hfinal
  · exact hworking

/-- The counter in memory is the number of outputs on record. -/
theorem Loaded.outputCount_eq (h : Loaded py acknowledged C log object s) {d : Directory F}
    {header : Header} {f : LogFile F} {entries : List (LogEntry F)} (hd : s.working = some d)
    (hheader : d.state = some header) (hf : d.log = some f) (hlines : f.lines = entries.map some) :
    object.outputCount = (entries.flatMap (·.outputs)).length := by
  rw [h.agrees d header f entries hd hheader hf hlines]
  exact (load_counts header entries).2.1

/-- A write to a file that no entry on record names. -/
theorem Loaded.writeOutput (h : Loaded py acknowledged C log object s) (file : OutputFile)
    (hfile : object.outputCount ≤ file.ordinal) (body : List UInt8) :
    Loaded py acknowledged C log object
      (s.write fun d => { d with files := (file, body) :: d.files }) := by
  obtain ⟨d, hd, hsome⟩ := h.exists_working
  have hwrite : s.write (fun d => { d with files := (file, body) :: d.files }) =
      { s with working := some { d with files := (file, body) :: d.files } } := by
    rw [Store.write, hd]
    rfl
  rw [hwrite]
  refine ⟨h.inv.setWorking hd id fun header hheader => ?_, h.current, h.held, ?_, ?_⟩
  · obtain ⟨f, hf, hrecorded⟩ := h.inv.opened d header hd hheader
    refine ⟨f, hf, fun entries hlines => ?_⟩
    have hrec := hrecorded entries hlines
    have hcount := h.outputCount_eq hd hheader hf hlines
    refine { hrec with files := fun output houtput r hr => ?_ }
    obtain ⟨hholds, hlt⟩ := hrec.files output houtput r hr
    refine ⟨hholds.write ?_ body, hlt⟩
    rintro rfl
    omega
  · rintro _ header f entries ⟨⟩ hheader hf hlines
    exact h.agrees d header f entries hd hheader hf hlines
  · rintro _ f ⟨⟩ hf
    exact h.lines d f hd hf

/-- The file of the next representation. -/
theorem Kept.writeOutput {reps : List RepresentationDescriptor} {n i : ℕ} {kind : OutputKind}
    (h : Kept py reps n i s) (hs : s.working.isSome) {r : RuntimeOutputRepresentation}
    {w : Codec.Written} (hw : Codec.persistRepresentation py ⟨n, kind, i⟩ r = .ok w) :
    Kept py (reps ++ [w.1]) n (i + 1)
      (s.write fun d => { d with files := (w.2.1, w.2.2) :: d.files }) := by
  simp only [Codec.persistRepresentation, Codec.bind_ok, Codec.pure_ok] at hw
  obtain ⟨body, _, rfl⟩ := hw
  obtain ⟨d, hd⟩ := Option.isSome_iff_exists.mp hs
  simp only [Kept, Store.write, hd, Option.getD_some]
  rintro _ ⟨⟩ r' hr'
  rcases List.mem_append.mp hr' with hr' | hr'
  · obtain ⟨hholds, hbefore⟩ := h d hd r' hr'
    refine ⟨hholds.write ?_ body, ?_⟩
    · rintro hfile
      rw [← hfile] at hbefore
      rcases hbefore with hlt | ⟨_, hlt⟩
      · exact absurd hlt (lt_irrefl _)
      · exact absurd hlt (lt_irrefl _)
    · rcases hbefore with hlt | ⟨heq, hlt⟩
      · exact .inl hlt
      · exact .inr ⟨heq, by omega⟩
  · rw [List.mem_singleton.mp hr']
    exact ⟨⟨body, by simp [Directory.content], rfl, rfl⟩, .inr ⟨rfl, Nat.lt_succ_self i⟩⟩

theorem persistRepresentations_safe {n : ℕ} {kind : OutputKind} (hn : object.outputCount ≤ n)
    {rs : List RuntimeOutputRepresentation} {i : ℕ} {reps : List RepresentationDescriptor}
    (h : Loaded py acknowledged C log object s) (hkept : Kept py reps n i s) :
    Program.Safe (writer py acknowledged)
      (Ends py acknowledged fun descriptors s => Loaded py acknowledged C log object s ∧
        Kept py (reps ++ descriptors) n (i + rs.length) s ∧
        ∃ written, List.Forall₂ (fun (x : RuntimeOutputRepresentation × ℕ) w =>
          Codec.persistRepresentation py ⟨n, kind, x.2⟩ x.1 = .ok w) (rs.zipIdx i) written ∧
          descriptors = written.map (·.1))
      (persistRepresentations py n kind (rs.zipIdx i)) s := by
  induction rs generalizing i reps s with
  | nil =>
    refine safe_ret h.inv h.settled ⟨h, ?_, [], .nil, rfl⟩
    rw [List.append_nil]
    exact hkept
  | cons r rs ih =>
    rw [List.zipIdx_cons, persistRepresentations]
    refine safe_lift h.inv fun w hw => ?_
    have hfile : w.2.1 = ⟨n, kind, i⟩ := by
      simp only [Codec.persistRepresentation, Codec.bind_ok, Codec.pure_ok] at hw
      obtain ⟨body, _, rfl⟩ := hw
      rfl
    obtain ⟨d, hd, hsome⟩ := h.exists_working
    have hwritten := h.writeOutput w.2.1 (by rw [hfile]; exact hn) w.2.2
    have hnext : Kept py (reps ++ [w.1]) n (i + 1) _ := hkept.writeOutput (by rw [hd]; rfl) hw
    refine safe_settled h.inv h.settled fun io s' r' hr => ?_
    have hcases : s' = s ∨ s' = s.write fun d => { d with files := (w.2.1, w.2.2) :: d.files } := by
      rcases io with _ | (_ | _) | _ <;> cases hr <;> simp
    refine ⟨?_, ?_⟩
    · rcases hcases with rfl | rfl
      · exact h.inv
      · exact hwritten.inv
    rintro ⟨⟩ rfl
    have hs' : s' = s.write fun d => { d with files := (w.2.1, w.2.2) :: d.files } := by
      rcases io with _ | (_ | _) | _ <;> cases hr
      rfl
    subst hs'
    refine Program.Safe.bind (ih hwritten hnext) ?_ (fun x s hinv => safe_raise hinv x)
    rintro descriptors s ⟨hloaded, hkept, written, hforall, rfl⟩
    refine safe_ret hloaded.inv hloaded.settled ⟨hloaded, ?_, w :: written, .cons hw hforall, rfl⟩
    rw [List.append_assoc, List.singleton_append] at hkept
    rw [List.length_cons, Nat.add_comm rs.length 1, ← Nat.add_assoc]
    exact hkept

theorem persistRecord_safe {n : ℕ} (hn : object.outputCount ≤ n)
    {reps : List RepresentationDescriptor} (h : Loaded py acknowledged C log object s)
    (hkept : Kept py reps n 0 s) (record : RuntimeOutputRecord F) :
    Program.Safe (writer py acknowledged)
      (Ends py acknowledged fun output s => Loaded py acknowledged C log object s ∧
        Kept py (reps ++ output.representations) (n + 1) 0 s ∧
        ∃ files, Codec.persistRecord py n record = .ok (output, files))
      (persistRecord py n record) s := by
  refine Program.Safe.bind (persistRepresentations_safe hn h hkept) ?_
    (fun x s hinv => safe_raise hinv x)
  rintro descriptors s ⟨hloaded, hkept, written, hwritten, rfl⟩
  refine safe_lift hloaded.inv fun metadata hmetadata => ?_
  refine safe_ret hloaded.inv hloaded.settled ⟨hloaded, ?_, written.map (·.2), ?_⟩
  · intro d hd r hr
    obtain ⟨hholds, hbefore⟩ := hkept d hd r hr
    refine ⟨hholds, .inl ?_⟩
    rcases hbefore with hlt | ⟨heq, _⟩
    · omega
    · omega
  · simp only [Codec.persistRecord, Codec.bind_ok, Codec.pure_ok]
    exact ⟨written, Codec.mapM_ok.mpr hwritten, metadata, hmetadata, rfl⟩

theorem persistRecords_safe {n : ℕ} (hn : object.outputCount ≤ n)
    {records : List (RuntimeOutputRecord F)} (reps : List RepresentationDescriptor)
    (h : Loaded py acknowledged C log object s) (hkept : Kept py reps n 0 s) :
    Program.Safe (writer py acknowledged)
      (Ends py acknowledged fun outputs s => Loaded py acknowledged C log object s ∧
        Kept py (reps ++ outputs.flatMap (·.representations)) (n + outputs.length) 0 s ∧
        Persists py n records outputs)
      (persistRecords py n records) s := by
  induction records generalizing n reps s with
  | nil =>
    refine safe_ret h.inv h.settled ⟨h, ?_, .nil⟩
    rw [List.flatMap_nil, List.append_nil]
    exact hkept
  | cons record records ih =>
    refine Program.Safe.bind (persistRecord_safe hn h hkept record) ?_
      (fun x s hinv => safe_raise hinv x)
    rintro output s ⟨hloaded, hkept, hfiles⟩
    refine Program.Safe.bind (ih (by omega) _ hloaded hkept) ?_
      (fun x s hinv => safe_raise hinv x)
    rintro outputs s ⟨hloaded, hkept, hpersists⟩
    refine safe_ret hloaded.inv hloaded.settled ⟨hloaded, ?_, .cons hfiles hpersists⟩
    rw [List.flatMap_cons, ← List.append_assoc, List.length_cons, Nat.add_comm outputs.length,
      ← Nat.add_assoc]
    exact hkept

/-! ### Appending -/

/-- Every batch with a line is acknowledged, or is the one to append. -/
def Awaited (acknowledged : List BatchKey) (batchId : UUID)
    (lines : List (Option (LogEntry F))) : Prop :=
  ∀ entry, some entry ∈ lines → entry.batchId = batchId ∨ entry.key ∈ acknowledged

/-- The acknowledgement of a batch on record. -/
theorem Recorded.acknowledge {d : Directory F} {header : Header} {entries : List (LogEntry F)}
    (h : Recorded py acknowledged s d header entries) {key : BatchKey}
    (hkey : key ∈ entries.map (·.key)) :
    Recorded py (acknowledge acknowledged (some key)) s d header entries := by
  by_cases hmem : key ∈ acknowledged
  · rw [ResultStore.acknowledge, if_pos hmem]
    exact h
  · rw [ResultStore.acknowledge, if_neg hmem]
    -- At most the last batch on record is not acknowledged yet.
    obtain ⟨rest, hrest⟩ := h.acked
    have hlength := congrArg List.length hrest
    have hpending := h.pending
    rw [List.length_append, List.length_map] at hlength
    rw [← hrest, List.mem_append] at hkey
    rcases hkey with hkey | hkey
    · exact absurd hkey hmem
    · obtain ⟨k, rfl⟩ : ∃ k, rest = [k] := by
        match rest, hlength, hkey with
        | [k], _, _ => exact ⟨k, rfl⟩
        | _ :: _ :: _, hlength, _ =>
          simp only [List.length_cons] at hlength
          omega
      rw [List.mem_singleton.mp hkey]
      exact { h with
        acked := ⟨[], by rw [List.append_nil]; exact hrest⟩
        pending := by rw [List.length_append]; omega }

theorem Inv.acknowledge (h : Inv py acknowledged s) (hfinal : s.final = none) (hs : s.Settled)
    {key : BatchKey} (hkey : ∀ d header f (entries : List (LogEntry F)), s.working = some d →
      d.state = some header → d.log = some f → f.lines = entries.map some →
      key ∈ entries.map (·.key)) :
    Inv py (acknowledge acknowledged (some key)) s := by
  refine ⟨?_, h.loaded, fun _ => hs, ?_⟩
  · intro d hd
    rw [hfinal] at hd
    cases hd
  · intro d header hd hheader
    obtain ⟨f, hf, hrecorded⟩ := h.opened d header hd hheader
    exact ⟨f, hf, fun entries hlines =>
      (hrecorded entries hlines).acknowledge (hkey d header f entries hd hheader hf hlines)⟩

/-- The line of a batch is written, and not yet known to the log in memory. -/
structure Appended (py : Python F) (acknowledged : List BatchKey) (log : ℕ) (object : OutputLog)
    (entry : LogEntry F) (s : Store F) : Prop where
  inv : Inv py acknowledged s
  current : s.current = some log
  held : s.objects[log]? = some object
  last : ∀ d header f entries, s.working = some d → d.state = some header → d.log = some f →
    f.lines = entries.map some → ∃ old, entries = old ++ [entry] ∧ object = .load header old

/-- The lines of a log after another one. -/
theorem append_lines {f : LogFile F} {entry : LogEntry F} {entries : List (LogEntry F)}
    (h : (f.append entry).lines = entries.map some) :
    ∃ old, entries = old ++ [entry] ∧ f.lines = old.map some := by
  obtain ⟨old, last, rfl, hold, hlast⟩ := List.map_eq_append_iff.mp h.symm
  cases hf : f.torn with
  | true =>
    rw [hf] at hlast
    have hmem : (none : Option (LogEntry F)) ∈ last.map some := by
      rw [hlast]
      exact List.mem_singleton_self _
    simp at hmem
  | false =>
    rw [hf] at hlast
    obtain ⟨e, rfl, he⟩ := List.map_eq_singleton_iff.mp hlast
    cases he
    exact ⟨old, rfl, hold.symm⟩

/-- A new batch, when all the earlier ones are acknowledged. -/
theorem Recorded.append {d : Directory F} {header : Header} {entries : List (LogEntry F)}
    {entry : LogEntry F} (h : Recorded py acknowledged s d header entries)
    (hdescribes : entry.Describes py (entries.flatMap (·.outputs)).length)
    (hkept : ∀ r ∈ entry.outputs.flatMap (·.representations), d.Holds py r ∧
      r.file.ordinal < (entries.flatMap (·.outputs)).length + entry.outputs.length)
    (hnew : entry.batchId ∉ entries.map (·.batchId))
    (hacked : ∀ e ∈ entries, e.key ∈ acknowledged) :
    Recorded py acknowledged s d header (entries ++ [entry]) := by
  have hle : entries.length ≤ acknowledged.length := by
    have hnodup : (entries.map (·.key)).Nodup :=
      List.Nodup.of_map Prod.fst (by rw [List.map_map]; exact h.distinct)
    have hsubset : entries.map (·.key) ⊆ acknowledged := by
      intro key hkey
      obtain ⟨e, he, rfl⟩ := List.mem_map.mp hkey
      exact hacked e he
    have := (hnodup.subperm hsubset).length_le
    rwa [List.length_map] at this
  refine ⟨?_, ?_, ?_, ?_, ?_, ?_⟩
  · rw [described_append, Nat.zero_add]
    exact ⟨h.described, hdescribes⟩
  · rw [List.flatMap_append, List.flatMap_singleton, List.length_append]
    intro output houtput r hr
    rcases List.mem_append.mp houtput with houtput | houtput
    · obtain ⟨hholds, hlt⟩ := h.files output houtput r hr
      exact ⟨hholds, by omega⟩
    · exact hkept r (List.mem_flatMap.mpr ⟨output, houtput, hr⟩)
  · rw [List.map_append, List.nodup_append]
    refine ⟨h.distinct, List.nodup_singleton _, ?_⟩
    rintro id hid _ hid' rfl
    rw [List.map_singleton, List.mem_singleton] at hid'
    rw [hid'] at hid
    exact hnew hid
  · rw [List.map_append]
    exact h.acked.trans (List.prefix_append _ _)
  · rw [List.length_append, List.length_singleton]
    omega
  · intro log object hlog hobject
    obtain ⟨n, rfl⟩ := h.memory log object hlog hobject
    by_cases hn : n ≤ entries.length
    · exact ⟨n, by rw [List.take_append_of_le_length hn]⟩
    · refine ⟨entries.length, ?_⟩
      rw [List.take_append_of_le_length (le_refl _), List.take_of_length_le (by omega),
        List.take_length]

theorem Loaded.writeLine (entry : LogEntry F)
    (h : Loaded py acknowledged (Awaited acknowledged entry.batchId) log object s)
    (hdescribes : entry.Describes py object.outputCount)
    (hkept : Kept py (entry.outputs.flatMap (·.representations))
      (object.outputCount + entry.outputs.length) 0 s)
    (hnew : object.find entry.batchId = none) {io : Io} {s' : Store F}
    {r : Except Failure Unit} (hr : (Op.writeLine entry).perform io s = (s', r)) :
    Inv py acknowledged s' ∧
      (r = .ok () → Appended py acknowledged log object entry s') := by
  obtain ⟨d, hd, hsome⟩ := h.exists_working
  have hlog : d.state.isSome → d.log = some (d.log.getD {}) := by
    intro hstate
    obtain ⟨header, hheader⟩ := Option.isSome_iff_exists.mp hstate
    obtain ⟨f, hf, _⟩ := h.inv.opened d header hd hheader
    rw [hf]
    rfl
  -- The whole line: every entry before it is acknowledged.
  have happended : Appended py acknowledged log object entry
      { s with working := some { d with log := some ((d.log.getD {}).append entry) } } := by
    refine ⟨h.inv.setLog hd _ fun header entries hheader hlines => ?_, h.current, h.held, ?_⟩
    · obtain ⟨old, rfl, hold⟩ := append_lines hlines
      have hf := hlog (by rw [hheader]; rfl)
      obtain ⟨f, hf', hrecorded⟩ := h.inv.opened d header hd hheader
      rw [hf] at hf'
      cases hf'
      have hrec := hrecorded old hold
      have hload := h.agrees d header _ old hd hheader hf hold
      have hcount := h.outputCount_eq hd hheader hf hold
      have hfresh : entry.batchId ∉ old.map (·.batchId) := by
        have := find_load header old entry.batchId
        rw [← hload, hnew] at this
        exact this
      refine hrec.append (by rw [← hcount]; exact hdescribes) ?_ hfresh ?_
      · intro r hr
        obtain ⟨hholds, hbefore⟩ := hkept d hd r hr
        refine ⟨hholds, ?_⟩
        rcases hbefore with hlt | ⟨_, hlt⟩
        · rwa [← hcount]
        · exact absurd hlt (Nat.not_lt_zero _)
      · intro e he
        rcases h.lines d _ hd hf e (by rw [hold]; exact List.mem_map_of_mem he) with hid | hkey
        · exact absurd (hid ▸ List.mem_map_of_mem (f := (·.batchId)) he) hfresh
        · exact hkey
    · rintro _ header _ entries ⟨⟩ hheader ⟨⟩ hlines
      obtain ⟨old, rfl, hold⟩ := append_lines hlines
      exact ⟨old, rfl, h.agrees d header _ old hd hheader (hlog (by rw [hheader]; rfl)) hold⟩
  simp only [Op.perform, Op.performWriteLine, hd] at hr
  rcases io with _ | (_ | _) | _
  · cases hr
    exact ⟨happended.inv, fun _ => happended⟩
  · cases hr
    exact ⟨h.inv, fun h => by cases h⟩
  · cases hr
    exact ⟨happended.inv, fun h => by cases h⟩
  · cases hr
    exact ⟨h.inv.setTorn hd hlog true, fun h => by cases h⟩

/-- The log in memory learns of the batch. -/
theorem Appended.addEntry {entry : LogEntry F}
    (h : Appended py acknowledged log object entry s) :
    Inv py acknowledged { s with objects := s.objects.set log (object.add entry) } := by
  have hlt : log < s.objects.length := (List.getElem?_eq_some_iff.mp h.held).1
  have hheld : (s.objects.set log (object.add entry))[log]? = some (object.add entry) := by
    rw [List.getElem?_set_self hlt]
  refine ⟨h.inv.sealed, ?_, h.inv.silent, ?_⟩
  · intro log' hlog'
    obtain rfl : log' = log := Option.some.inj (Eq.trans (Eq.symm hlog') h.current)
    exact ⟨(h.inv.loaded log' h.current).1, by rw [hheld]; rfl⟩
  · intro d header hd hheader
    obtain ⟨f, hf, hrecorded⟩ := h.inv.opened d header hd hheader
    refine ⟨f, hf, fun entries hlines => ?_⟩
    refine { hrecorded entries hlines with memory := ?_ }
    intro log' object' hlog' hobject'
    obtain rfl : log' = log := Option.some.inj (Eq.trans (Eq.symm hlog') h.current)
    rw [hheld] at hobject'
    cases hobject'
    obtain ⟨old, rfl, rfl⟩ := h.last d header f entries hd hheader hf hlines
    exact ⟨(old ++ [entry]).length, by rw [List.take_length, load_append]⟩

/-- A batch on record may be acknowledged. -/
theorem Loaded.replay (h : Loaded py acknowledged C log object s) {batchId : UUID} {batch : Batch}
    (hfind : object.find batchId = some batch) :
    Inv py (acknowledge acknowledged (some (batchId, batch.requestSha256))) s := by
  refine h.inv.acknowledge h.final_eq_none h.settled ?_
  intro d header f entries hd hheader hf hlines
  have := find_load header entries batchId
  rwa [← h.agrees d header f entries hd hheader hf hlines, hfind] at this

theorem append_safe (identity : StepResultIdentity) (expectedOffset : ℕ) {batchId : UUID}
    (records : List (RuntimeOutputRecord F))
    (h : Ready py acknowledged (Awaited acknowledged batchId) s) :
    Program.Safe (writer py acknowledged)
      (Ends py acknowledged fun _ s => ∃ digest, recordsDigest py records = .ok digest ∧
        Inv py (acknowledge acknowledged (some (batchId, digest))) s)
      (append py identity expectedOffset batchId records) s := by
  have hC : Awaited acknowledged batchId ([] : List (Option (LogEntry F))) :=
    fun _ hmem => absurd hmem List.not_mem_nil
  rw [append]
  split
  · exact safe_raise h.inv _
  refine safe_read rfl (fun _ _ => Ready.stable hC) (fun _ h => h.inv) h fun s _ _ h _ => ?_
  refine Program.Safe.bind (openLog_safe hC h identity) ?_ (fun x s hinv => safe_raise hinv x)
  -- From here the log in memory is the one that the file describes.
  rintro log s ⟨object, h⟩
  refine safe_lift h.inv fun digest hdigest => ?_
  refine safe_settled_read rfl h.inv h.settled fun io found hio => ?_
  obtain rfl : found = object := by
    simp only [Op.perform, h.held] at hio
    exact (Except.ok.inj (Prod.mk.inj hio).2).symm
  split
  · -- The batch is there already: the same records are answered again.
    rename_i existing hfind
    split
    · exact safe_raise h.inv _
    · rename_i hsame
      refine safe_ret h.inv h.settled ⟨digest, hdigest, ?_⟩
      rw [← not_not.mp hsame]
      exact h.replay hfind
  · rename_i hfind
    split
    · exact safe_raise h.inv _
    rename_i hoffset
    rw [not_not] at hoffset
    subst hoffset
    -- Each record is on disk before the line that names it.
    refine Program.Safe.bind (persistRecords_safe (le_refl _) [] h
      (fun _ _ _ hr => absurd hr List.not_mem_nil)) ?_ (fun x s hinv => safe_raise hinv x)
    rintro outputs s ⟨h, hkept, hpersists⟩
    -- The line, `fsync`, and the log in memory.
    refine safe_settled h.inv h.settled fun io s' r hr => ?_
    obtain ⟨hinv, happended⟩ := h.writeLine ⟨batchId, digest, outputs⟩
      ⟨records, hdigest, hpersists⟩ hkept hfind hr
    refine ⟨hinv, ?_⟩
    rintro ⟨⟩ rfl
    have ha := happended rfl
    have hsettled := (ha.inv.loaded log ha.current).1
    refine safe_settled_read rfl ha.inv hsettled fun io _ hio => ?_
    refine safe_settled ha.inv hsettled fun io s'' r hr => ?_
    simp only [Op.perform, ha.held] at hr
    cases hr
    refine ⟨ha.addEntry, ?_⟩
    rintro batch ⟨⟩
    refine safe_ret ha.addEntry hsettled ⟨digest, hdigest, ?_⟩
    -- The call may now acknowledge: the line is in the file and the Step is not sealed.
    refine ha.addEntry.acknowledge ?_ hsettled ?_
    · cases hfinal : s'.final with
      | none => rfl
      | some d =>
        have := (ha.inv.sealed d hfinal).2.1
        rw [ha.current] at this
        cases this
    · intro d header f entries hd hheader hf hlines
      obtain ⟨old, rfl, _⟩ := ha.last d header f entries hd hheader hf hlines
      rw [List.map_append]
      exact List.mem_append_right _ (List.mem_singleton_self _)

/-! ### Sealing -/

/-- The manifest of an open log whose memory agrees with its file. -/
theorem Loaded.sound (h : Loaded py acknowledged C log object s) {d : Directory F}
    {header : Header} {f : LogFile F} {entries : List (LogEntry F)} (hd : s.working = some d)
    (hheader : d.state = some header) (hf : d.log = some f) (hlines : f.lines = entries.map some)
    (state : ResultState) (executionCount : Option ℤ) (errorMessage : Option Text) :
    (object.manifest entries state executionCount errorMessage).Sound py acknowledged d := by
  obtain ⟨f', hf', hrecorded⟩ := h.inv.opened d header hd hheader
  rw [hf] at hf'
  cases hf'
  have hrec := hrecorded entries hlines
  obtain rfl := h.agrees d header f entries hd hheader hf hlines
  obtain ⟨_, hcount, hrepresentations, hsize⟩ := load_counts header entries
  refine ⟨hcount, ?_, hrepresentations, hsize, ?_, ?_⟩
  · show (entries.flatMap (·.outputs)).map (·.ordinal) = _
    rw [hrec.described.ordinals]
    exact List.range_eq_range'.symm
  · exact ⟨entries, rfl, hrec.described, hrec.distinct, hrec.acked.sublist⟩
  · exact fun output houtput r hr => (hrec.files output houtput r hr).1

/-- The files that are left of the open result are those of the sealed one. -/
structure Closing (py : Python F) (acknowledged : List BatchKey) (m : Manifest F) (s : Store F) :
    Prop where
  inv : Inv py acknowledged s
  final : s.final = none
  working : ∃ d, s.working = some d ∧ d.state = none ∧ d.manifest = some m ∧
    m.Sound py acknowledged d

theorem Closing.settled {m : Manifest F} (h : Closing py acknowledged m s) : s.Settled := by
  obtain ⟨d, hd, _, hmanifest, _⟩ := h.working
  exact .inr ⟨d, hd, .inr (by rw [hmanifest]; rfl)⟩

theorem Directory.Holds.congr {r : RepresentationDescriptor} {d d' : Directory F}
    (h : d.Holds py r) (hfiles : d'.files = d.files) : d'.Holds py r := by
  obtain ⟨body, hcontent, hbody⟩ := h
  exact ⟨body, by rw [← hcontent, Directory.content, Directory.content, hfiles], hbody⟩

theorem Manifest.Sound.congr {m : Manifest F} {d d' : Directory F}
    (h : m.Sound py acknowledged d) (hfiles : d'.files = d.files) :
    m.Sound py acknowledged d' :=
  { h with files := fun output houtput r hr => (h.files output houtput r hr).congr hfiles }

/-- A directory to which the manifest is written, as long as `.state.json` is there. -/
structure Sealing (py : Python F) (acknowledged : List BatchKey) (m : Manifest F) (s : Store F) :
    Prop where
  inv : Inv py acknowledged s
  final : s.final = none
  settled : s.Settled
  working : ∃ d, s.working = some d ∧ ∀ header, d.state = some header → m.Sound py acknowledged d

/-- The manifest and its temporary file may change. -/
theorem Sealing.change {m : Manifest F} (h : Sealing py acknowledged m s) {d d' : Directory F}
    (hd : s.working = some d) (hstate : d'.state = d.state) (hlog : d'.log = d.log)
    (hfiles : d'.files = d.files) (hmanifest : d.manifest.isSome → d'.manifest.isSome) :
    Sealing py acknowledged m { s with working := some d' } := by
  obtain ⟨_, hd', hsound⟩ := h.working
  rw [hd] at hd'
  cases hd'
  have hsettled : d.state.isSome ∨ d.manifest.isSome → d'.state.isSome ∨ d'.manifest.isSome := by
    rw [hstate]
    exact Or.imp_right hmanifest
  refine ⟨h.inv.setWorking hd hsettled fun header hheader => ?_, h.final, ?_, d', rfl, ?_⟩
  · rw [hstate] at hheader
    obtain ⟨f, hf, hrecorded⟩ := h.inv.opened d header hd hheader
    refine ⟨f, hlog.trans hf, fun entries hlines => ?_⟩
    have hrec := hrecorded entries hlines
    refine { hrec with files := fun output houtput r hr => ?_ }
    obtain ⟨hholds, hlt⟩ := hrec.files output houtput r hr
    exact ⟨hholds.congr hfiles, hlt⟩
  · rcases h.settled with hfinal | ⟨_, hd', hsome⟩
    · exact .inl hfinal
    · rw [hd] at hd'
      cases hd'
      exact .inr ⟨d', rfl, hsettled hsome⟩
  · intro header hheader
    rw [hstate] at hheader
    exact (hsound header hheader).congr hfiles

/-- The manifest is written. -/
def Written (py : Python F) (acknowledged : List BatchKey) (m : Manifest F) (s : Store F) : Prop :=
  Sealing py acknowledged m s ∧ ∃ d, s.working = some d ∧ d.manifest = some m

/-- The working directory becomes the final one. -/
theorem Closing.publish {m : Manifest F} (h : Closing py acknowledged m s)
    (hcurrent : s.current = none) {d : Directory F} (hd : s.working = some d) :
    Inv py acknowledged { s with final := some d, working := none } := by
  obtain ⟨d', hd', _, hmanifest, hsound⟩ := h.working
  rw [hd] at hd'
  cases hd'
  refine ⟨?_, ?_, fun _ => .inl rfl, ?_⟩
  · rintro _ ⟨⟩
    exact ⟨rfl, hcurrent, m, hmanifest, hsound⟩
  · intro log hlog
    rw [show s.current = some log from hlog] at hcurrent
    cases hcurrent
  · intro d' header hd'
    cases hd'

/-- Removing a file of the open result, or forgetting its log. -/
theorem Closing.change {m : Manifest F} (h : Closing py acknowledged m s) {d d' : Directory F}
    (hd : s.working = some d) (hstate : d'.state = d.state) (hmanifest : d'.manifest = d.manifest)
    (hfiles : d'.files = d.files) : Closing py acknowledged m { s with working := some d' } := by
  obtain ⟨_, hd', hnone, hsome, hsound⟩ := h.working
  rw [hd] at hd'
  cases hd'
  refine ⟨h.inv.setWorking hd (fun _ => .inr ?_) fun header hheader => ?_, h.final,
    d', rfl, ?_, ?_, hsound.congr hfiles⟩
  · rw [hmanifest, hsome]
    rfl
  · rw [hstate, hnone] at hheader
    cases hheader
  · rw [hstate, hnone]
  · rw [hmanifest, hsome]

theorem Closing.forget {m : Manifest F} (h : Closing py acknowledged m s) :
    Closing py acknowledged m { s with current := none } := by
  obtain ⟨d, hd, hnone, hsome, hsound⟩ := h.working
  refine ⟨⟨?_, ?_, h.inv.silent, ?_⟩, h.final, d, hd, hnone, hsome, hsound⟩
  · intro d' hd'
    obtain ⟨hworking, _, hm⟩ := h.inv.sealed d' hd'
    exact ⟨hworking, rfl, hm⟩
  · intro log hlog
    cases hlog
  · intro d' header hd' hheader
    rw [show s.working = some d from hd] at hd'
    cases hd'
    rw [hnone] at hheader
    cases hheader

theorem published_safe {m : Manifest F} (h : Closing py acknowledged m s)
    (hcurrent : s.current = none) :
    Program.Safe (writer py acknowledged) (Ends py acknowledged fun _ s => Inv py acknowledged s)
      (do
        .await .publish
        .await .syncFinal
        .await .loadTerminal) s := by
  obtain ⟨d, hd, _⟩ := h.working
  have hpublished := h.publish hcurrent hd
  have hsettled : Store.Settled { s with final := some d, working := none } := .inl rfl
  refine safe_settled h.inv h.settled fun io s' r hr => ?_
  simp only [Op.perform, hd, h.final] at hr
  obtain ⟨hcases, hdone⟩ := Io.reply_cases hr
  refine ⟨?_, ?_⟩
  · rcases hcases with rfl | rfl
    · exact h.inv
    · exact hpublished
  · rintro ⟨⟩ hok
    obtain rfl := hdone _ hok
    refine safe_settled_read rfl hpublished hsettled fun io _ _ => ?_
    refine safe_settled_last hpublished hsettled fun io s'' r hr => ?_
    have hsame := Op.perform_reads (e := .loadTerminal) rfl io
      { s with final := some d, working := none }
    rw [hr] at hsame
    obtain rfl : s'' = _ := hsame
    exact ⟨hpublished, fun _ _ => ⟨hsettled, hpublished⟩⟩

/-- The files of a sealed result, once `.state.json` is gone. -/
theorem closing_safe {m : Manifest F} (h : Closing py acknowledged m s) :
    Program.Safe (writer py acknowledged) (Ends py acknowledged fun _ s => Inv py acknowledged s)
      (do
        .await .removeLog
        .await .forgetLog
        .await .syncWorking
        .await .publish
        .await .syncFinal
        .await .loadTerminal) s := by
  refine safe_settled h.inv h.settled fun io s₁ r hr => ?_
  have h₁ : Closing py acknowledged m s₁ := by
    obtain ⟨d, hd, _⟩ := h.working
    simp only [Op.perform, hd] at hr
    split at hr
    · rcases (Io.reply_cases hr).1 with rfl | rfl
      · exact h
      · exact h.change hd rfl rfl rfl
    · cases hr
      exact h
  refine ⟨h₁.inv, ?_⟩
  rintro ⟨⟩ _
  refine safe_settled h₁.inv h₁.settled fun io s₂ r hr => ?_
  cases hr
  refine ⟨h₁.forget.inv, ?_⟩
  rintro ⟨⟩ _
  exact safe_settled_read rfl h₁.forget.inv h₁.forget.settled fun io _ _ =>
    published_safe h₁.forget rfl

/-- The next operation of a thread on a settled store. -/
theorem safe_call {α β : Type} {e : Op F α} {k : Except Failure α → Thread F β}
    {post : Except Failure β → Store F → Prop} (hinv : Inv py acknowledged s) (hs : s.Settled)
    (h : ∀ io s' r, e.perform io s = (s', r) → Inv py acknowledged s' ∧
      Program.Safe (writer py acknowledged) post (k r) s') :
    Program.Safe (writer py acknowledged) post (.call e k) s := by
  intro s' hr
  obtain rfl := rely_of_settled hinv hs hr
  refine ⟨fun io => ⟨(h io _ _ rfl).1, fun hfresh => absurd hs hfresh.not_settled⟩, ?_⟩
  rintro r s'' ⟨io, hio⟩
  exact (h io s'' r hio).2

/-- The temporary file goes, whatever became of the manifest. -/
theorem removeTemporary_safe {m : Manifest F} (last : Thread F Unit)
    (h : Sealing py acknowledged m s)
    (hend : ∀ s', Sealing py acknowledged m s' → (Written py acknowledged m s →
        Written py acknowledged m s') →
      Program.Safe (writer py acknowledged) (Ends py acknowledged fun _ => Written py acknowledged m)
        last s') :
    Program.Safe (writer py acknowledged) (Ends py acknowledged fun _ => Written py acknowledged m)
      (Program.await .removeTemporary >>= fun _ => last) s := by
  obtain ⟨d, hd, _⟩ := h.working
  have hremoved : Sealing py acknowledged m { s with working := some { d with
      temporaries := d.temporaries.filter (· != s.pid) } } := h.change hd rfl rfl rfl id
  refine safe_settled h.inv h.settled fun io s' r hr => ?_
  simp only [Op.perform, hd, Option.map_some] at hr
  obtain ⟨rfl | rfl, hdone⟩ := Io.reply_cases hr
  · exact ⟨h.inv, fun _ _ => hend _ h id⟩
  · refine ⟨hremoved.inv, fun _ _ => hend _ hremoved ?_⟩
    rintro ⟨_, _, hd', hmanifest⟩
    rw [hd] at hd'
    cases hd'
    exact ⟨hremoved, _, rfl, hmanifest⟩

theorem writeManifest_safe {m : Manifest F} (h : Sealing py acknowledged m s) :
    Program.Safe (writer py acknowledged) (Ends py acknowledged fun _ => Written py acknowledged m)
      (writeManifest m) s := by
  have hfailed : ∀ x s', Sealing py acknowledged m s' →
      Program.Safe (writer py acknowledged)
        (Ends py acknowledged fun _ => Written py acknowledged m)
        (Program.await .removeTemporary >>= fun _ => .raise x) s' :=
    fun x s' h' => removeTemporary_safe (.raise x) h' fun _ h'' _ => safe_raise h''.inv x
  -- The temporary file is opened first, which fails if one of this process is left.
  refine safe_call h.inv h.settled fun io s₁ r hr => ?_
  obtain ⟨d, hd, _⟩ := h.working
  have h₁ : Sealing py acknowledged m s₁ := by
    simp only [Op.perform] at hr
    split at hr
    · cases hr
      exact h
    · rw [Store.write, hd] at hr
      rcases (Io.reply_cases hr).1 with rfl | rfl
      · exact h
      · exact h.change hd rfl rfl rfl id
  refine ⟨h₁.inv, ?_⟩
  cases r with
  | error x => exact hfailed x s₁ h₁
  | ok _ =>
    -- The temporary file takes the place of the manifest.
    refine safe_call h₁.inv h₁.settled fun io s₂ r hr => ?_
    obtain ⟨d₁, hd₁, _⟩ := h₁.working
    have h₂ : Sealing py acknowledged m s₂ ∧ ∀ a, r = .ok a → Written py acknowledged m s₂ := by
      simp only [Op.perform] at hr
      split at hr
      · rw [Store.write, hd₁] at hr
        have hwritten : Sealing py acknowledged m { s₁ with working := some { d₁ with
            manifest := some m
            temporaries := d₁.temporaries.filter (· != s₁.pid) } } :=
          h₁.change hd₁ rfl rfl rfl fun _ => rfl
        obtain ⟨hcases, hdone⟩ := Io.reply_cases hr
        refine ⟨?_, fun a ha => ?_⟩
        · rcases hcases with rfl | rfl
          · exact h₁
          · exact hwritten
        · obtain rfl := hdone a ha
          exact ⟨hwritten, _, rfl, rfl⟩
      · cases hr
        exact ⟨h₁, fun _ ha => by cases ha⟩
    refine ⟨h₂.1.inv, ?_⟩
    cases r with
    | error x => exact hfailed x s₂ h₂.1
    | ok a =>
      have hwritten := h₂.2 a rfl
      -- What is written stays written, whatever the last `fsync` says.
      refine safe_call h₂.1.inv h₂.1.settled fun io s₃ r hr => ?_
      obtain rfl : s₃ = s₂ := by rw [← Op.perform_reads (e := .syncWorking) rfl io s₂, hr]
      refine ⟨h₂.1.inv, ?_⟩
      cases r with
      | error x => exact hfailed x s₃ h₂.1
      | ok _ =>
        exact removeTemporary_safe (.ret ()) h₂.1 fun s' h' hw =>
          safe_ret h'.inv h'.settled (hw hwritten)

theorem publishManifest_safe {d : Directory F} {f : LogFile F}
    {entries : List (LogEntry F)} (h : Loaded py acknowledged C log object s)
    (hd : s.working = some d) (hf : d.log = some f) (hlines : f.lines = entries.map some)
    (state : ResultState) (executionCount : Option ℤ) (errorMessage : Option Text) :
    Program.Safe (writer py acknowledged) (Ends py acknowledged fun _ s => Inv py acknowledged s)
      (publishManifest (object.manifest entries state executionCount errorMessage)) s := by
  have hsealing : Sealing py acknowledged
      (object.manifest entries state executionCount errorMessage) s :=
    ⟨h.inv, h.final_eq_none, h.settled, d, hd, fun header hheader =>
      h.sound hd hheader hf hlines state executionCount errorMessage⟩
  generalize object.manifest entries state executionCount errorMessage = m at hsealing
  refine Program.Safe.bind (writeManifest_safe hsealing) ?_ (fun x s hinv => safe_raise hinv x)
  rintro _ s ⟨h, d, hd, hmanifest⟩
  refine safe_settled h.inv h.settled fun io s₂ r hr => ?_
  -- Without `.state.json` an earlier seal has failed, and so does this one.
  simp only [Op.perform, hd] at hr
  split at hr
  · rename_i hstate
    obtain ⟨header, hheader⟩ := Option.isSome_iff_exists.mp hstate
    have hsound : m.Sound py acknowledged d := by
      obtain ⟨_, hd', hsound⟩ := h.working
      rw [hd] at hd'
      cases hd'
      exact hsound header hheader
    have hclosing : Closing py acknowledged m
        { s with working := some { d with state := none } } := by
      refine ⟨h.inv.setWorking hd (fun _ => .inr ?_) (fun _ h => by cases h),
        h.final, _, rfl, rfl, hmanifest, hsound.congr rfl⟩
      rw [hmanifest]
      rfl
    obtain ⟨hcases, hdone⟩ := Io.reply_cases hr
    refine ⟨?_, ?_⟩
    · rcases hcases with rfl | rfl
      · exact h.inv
      · exact hclosing.inv
    · rintro ⟨⟩ hok
      obtain rfl := hdone _ hok
      exact closing_safe hclosing
  · cases hr
    exact ⟨h.inv, fun _ h => by cases h⟩

theorem sealResult_safe (identity : StepResultIdentity) (state : ResultState)
    (executionCount : Option ℤ) (errorMessage : Option Text)
    (h : Ready py acknowledged (fun _ => True) s) :
    Program.Safe (writer py acknowledged) (Ends py acknowledged fun _ s => Inv py acknowledged s)
      (sealResult identity state executionCount errorMessage) s := by
  rw [sealResult]
  split
  · exact safe_raise h.inv _
  refine safe_read rfl (fun _ _ => Ready.stable trivial) (fun _ h => h.inv) h
    fun s sealed io h hio => ?_
  cases sealed with
  | true =>
    have hsettled : s.Settled := by
      rcases io with _ | (_ | _) | _
      · exact .inl (Except.ok.inj (Prod.mk.inj hio).2)
      · cases (Prod.mk.inj hio).2
      · cases (Prod.mk.inj hio).2
      · cases (Prod.mk.inj hio).2
    refine safe_settled_read rfl h.inv hsettled fun io manifest _ => ?_
    show Program.Safe _ _ (ite _ _ _) s
    split
    · exact safe_raise h.inv _
    · exact safe_ret h.inv hsettled h.inv
  | false =>
    refine safe_read rfl (fun _ _ => Ready.stable trivial) (fun _ h => h.inv) h
      fun s _ _ h _ => ?_
    refine Program.Safe.bind (openLog_safe trivial h identity) ?_
      (fun x s hinv => safe_raise hinv x)
    rintro log s ⟨object, h⟩
    refine safe_settled_read rfl h.inv h.settled fun io entries hio => ?_
    obtain ⟨d, f, hd, hf, hlines⟩ := (performReadLog_cases hio).2 entries rfl
    refine safe_settled_read rfl h.inv h.settled fun io found hio => ?_
    obtain rfl : found = object := by
      simp only [Op.perform, h.held] at hio
      exact (Except.ok.inj (Prod.mk.inj hio).2).symm
    exact publishManifest_safe h hd hf hlines state executionCount errorMessage

end

end ExecutorService.ResultStore
