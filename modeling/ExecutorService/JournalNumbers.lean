/-
The numbers of a journal.

The recorder numbers every entry it tries to write, so numbers can be missing but never
come twice; a follower that ends an orphan has read all of it and takes the next
number.  So the numbers of a journal grow, up to the terminal entry.

This holds in every run, however the writes go, for a request whose journal has not
been removed; afterwards a follower of the old file can write to a new one.

* `Adds` — what the writes of a recorder's turn add to the file;
* `Fresh` — what holds of a request's journal, recorder and followers;
* `journal_numbered` — the numbers of every journal grow;
* `run_appends` — files are only appended to, so what a follower saw of a journal is a
  beginning of it.
-/
import ExecutorService.JournalFollowers
import Mathlib.Data.List.Induction

namespace ExecutorService.Journals

variable {C : Type} {textSize : Line C → ℕ}

/-! ### Entries of a file -/

/-- The entry whose whole text is there. -/
def Fragment.entry? (textSize : Line C → ℕ) : Fragment C → Option (Entry C)
  | .whole (.entry e) => some e
  | .torn (.entry e) bytes => if textSize (.entry e) ≤ bytes then some e else none
  | _ => none

/-- The entries whose whole text is in the file. -/
def textEntries (textSize : Line C → ℕ) (file : File C) : List (Entry C) :=
  file.filterMap (Fragment.entry? textSize)

/-- The entries one can read, from a line on: whole lines, and the text of the last
one. -/
def readable (textSize : Line C → ℕ) : File C → List (Entry C)
  | .whole (.entry e) :: rest => e :: readable textSize rest
  | [.torn (.entry e) bytes] => if textSize (.entry e) ≤ bytes then [e] else []
  | _ => []

/-- The entries of a journal: those a follower can read, from the header on. -/
def journal (textSize : Line C → ℕ) (file : File C) : List (Entry C) :=
  readable textSize file.tail

/-- The last line has its whole text, but not its newline. -/
def Unended (textSize : Line C → ℕ) (file : File C) : Prop :=
  ∃ line bytes, file.getLast? = some (.torn line bytes) ∧ textSize line ≤ bytes

theorem not_unended_whole (file : File C) (line : Line C) :
    ¬ Unended textSize (file ++ [.whole line]) := by
  rintro ⟨line', bytes, hlast, _⟩
  rw [List.getLast?_concat] at hlast
  cases hlast

@[simp] theorem textEntries_append (file file' : File C) :
    textEntries textSize (file ++ file') =
      textEntries textSize file ++ textEntries textSize file' := by
  simp [textEntries]

@[simp] theorem textEntries_entries (es : List (Entry C)) :
    textEntries textSize (entries es) = es := by
  induction es with
  | nil => rfl
  | cons e es ih =>
    rw [entries, List.map_cons, textEntries, List.filterMap_cons]
    exact congrArg (e :: ·) ih

theorem readLine_none {file : File C} {p : ℕ} (h : readLine textSize file p = none) :
    file.length ≤ p := by
  rw [readLine] at h
  split at h
  case h_1 hnil => exact List.drop_eq_nil_iff.mp hnil
  all_goals exact absurd h.symm (Option.some_ne_none _).symm

/-- A line that is read has its whole text there. -/
theorem readLine_entry {file : File C} {p : ℕ} {e : Entry C}
    (h : readLine textSize file p = some (some (.entry e))) :
    ∃ fragment, file[p]? = some fragment ∧ fragment.entry? textSize = some e := by
  have hget : ∀ fragment rest, file.drop p = fragment :: rest → file[p]? = some fragment := by
    intro fragment rest hdrop
    have hzero : (file.drop p)[0]? = file[p]? := by rw [List.getElem?_drop, Nat.add_zero]
    rw [← hzero, hdrop]
    rfl
  rw [readLine] at h
  split at h
  case h_1 => cases h
  case h_2 line rest hdrop =>
    obtain rfl : line = .entry e := Option.some.inj (Option.some.inj h)
    exact ⟨_, hget _ _ hdrop, rfl⟩
  case h_3 line bytes hdrop =>
    split at h
    · rename_i hbytes
      obtain rfl : line = .entry e := Option.some.inj (Option.some.inj h)
      exact ⟨_, hget _ _ hdrop, if_pos hbytes⟩
    · cases h
  case h_4 => cases h

/-! ### Growing numbers -/

/-- The numbers of a journal grow up to the terminal entry. -/
def Numbered (es : List (Entry C)) : Prop :=
  (∀ e ∈ es, 1 ≤ e.seq) ∧
    ∀ (i j : ℕ) (e e' : Entry C), i < j → es[i]? = some e → es[j]? = some e' →
      (∀ k < j, ∀ e : Entry C, es[k]? = some e → e.isTerminal = false) → e.seq < e'.seq

theorem Numbered.of_initial {es es' : List (Entry C)} (h : Numbered es) (hinitial : es' <+: es) :
    Numbered es' := by
  obtain ⟨rest, rfl⟩ := hinitial
  have hget : ∀ (k : ℕ) (e : Entry C), es'[k]? = some e → (es' ++ rest)[k]? = some e :=
    fun k e he => (List.getElem?_append_left (List.getElem?_eq_some_iff.mp he).1).trans he
  refine ⟨fun e he => h.1 e (List.mem_append_left _ he), fun i j e e' hij hi hj hno => ?_⟩
  refine h.2 i j e e' hij (hget i e hi) (hget j e' hj) fun k hk e'' hk' => ?_
  have hlt := (List.getElem?_eq_some_iff.mp hj).1
  rw [List.getElem?_append_left (Nat.lt_trans hk hlt)] at hk'
  exact hno k hk e'' hk'

/-- Another entry, after the terminal one or with a larger number. -/
theorem Numbered.snoc {es : List (Entry C)} {e : Entry C} (h : Numbered es)
    (he : (∃ e' ∈ es, e'.isTerminal = true) ∨ ∀ e' ∈ es, e'.seq < e.seq) (hpos : 1 ≤ e.seq) :
    Numbered (es ++ [e]) := by
  refine ⟨fun e' he' => ?_, fun i j e₁ e₂ hij hi hj hno => ?_⟩
  · rcases List.mem_append.mp he' with he' | he'
    · exact h.1 e' he'
    · rw [List.mem_singleton.mp he']
      exact hpos
  have hjlen := (List.getElem?_eq_some_iff.mp hj).1
  rw [List.length_append, List.length_singleton] at hjlen
  rw [List.getElem?_append_left (by omega)] at hi
  by_cases hjlt : j < es.length
  · rw [List.getElem?_append_left hjlt] at hj
    refine h.2 i j e₁ e₂ hij hi hj fun k hk e'' hk' => hno k hk e'' ?_
    rw [List.getElem?_append_left (by omega)]
    exact hk'
  · obtain rfl : j = es.length := by omega
    rw [List.getElem?_concat_length] at hj
    obtain rfl := Option.some.inj hj
    rcases he with ⟨e', he', hterminal⟩ | hless
    · obtain ⟨k, hk, rfl⟩ := List.getElem_of_mem he'
      have := hno k hk _ (by rw [List.getElem?_append_left hk, List.getElem?_eq_getElem hk])
      rw [this] at hterminal
      exact absurd hterminal Bool.false_ne_true
    · exact hless e₁ (List.mem_of_getElem? hi)

/-- Numbers that grow from beyond `n` to at most `m`. -/
def After (n m : ℕ) (es : List (Entry C)) : Prop :=
  (es.map Entry.seq).Pairwise (· < ·) ∧ ∀ e ∈ es, n < e.seq ∧ e.seq ≤ m

theorem Numbered.append {es es' : List (Entry C)} {n m : ℕ} (h : Numbered es)
    (hn : ∀ e ∈ es, e.seq ≤ n) (hafter : After n m es') : Numbered (es ++ es') := by
  induction es' using List.reverseRecOn with
  | nil =>
    rw [List.append_nil]
    exact h
  | append_singleton es' e ih =>
    obtain ⟨hsorted, hbounds⟩ := hafter
    rw [List.map_append, List.pairwise_append] at hsorted
    rw [← List.append_assoc]
    refine (ih ⟨hsorted.1, fun e' he' => hbounds e' (List.mem_append_left _ he')⟩).snoc
      (.inr fun e' he' => ?_) (by have := (hbounds e (by simp)).1; omega)
    rcases List.mem_append.mp he' with he' | he'
    · have := hn e' he'
      have := (hbounds e (by simp)).1
      omega
    · exact hsorted.2.2 _ (List.mem_map_of_mem he') _ (by simp)

/-! ### What a handle adds -/

/-- The file has grown by entries with numbers beyond `n`, up to `m`, and perhaps by
parts of lines. -/
def Adds (textSize : Line C → ℕ) (base file : File C) (n m : ℕ) : Prop :=
  ∃ fragments, file = base ++ fragments ∧ After n m (textEntries textSize fragments)

/-- What the handle has written, and what it has still to write. -/
def Handle.Numbers (h : Handle C) (textSize : Line C → ℕ) (base : File C) (n m : ℕ) : Prop :=
  ∃ fragments es, h.Writes (base ++ fragments) es ∧ After n m (textEntries textSize fragments ++ es)

theorem Handle.Numbers.init (base : File C) (n : ℕ) :
    Handle.Numbers { file := base } textSize base n n := by
  refine ⟨[], [], ?_, List.Pairwise.nil, fun e he => absurd he List.not_mem_nil⟩
  rw [List.append_nil]
  exact Handle.Writes.init base

theorem Handle.Numbers.push {h : Handle C} {base : File C} {n m : ℕ} (hh : h.Numbers textSize base n m)
    (hnm : n ≤ m) {e : Entry C} (he : e.seq = m + 1) :
    Handle.Numbers { h with pending := h.pending ++ [.entry e] } textSize base n (m + 1) := by
  obtain ⟨fragments, es, hw, hsorted, hbounds⟩ := hh
  refine ⟨fragments, es ++ [e], hw.push e, ?_, fun e' he' => ?_⟩
  · rw [← List.append_assoc, List.map_append, List.pairwise_append]
    refine ⟨hsorted, List.pairwise_singleton _ _, fun a ha b hb => ?_⟩
    obtain ⟨e', he', rfl⟩ := List.mem_map.mp ha
    rw [List.map_singleton, List.mem_singleton] at hb
    have := (hbounds e' he').2
    omega
  · rw [← List.append_assoc] at he'
    rcases List.mem_append.mp he' with he' | he'
    · have := hbounds e' he'
      omega
    · rw [List.mem_singleton.mp he']
      omega

/-- The file as it is: the base, some of the entries, and perhaps a part of a line. -/
theorem Handle.Writes.fragments {h : Handle C} {base : File C} {es : List (Entry C)}
    (hw : h.Writes base es) :
    ∃ more, h.file = base ++ more ∧ textEntries textSize more <+: es := by
  obtain ⟨written, rest, rfl, hpending, hfile⟩ := hw.progress
  rcases htorn : h.tornHead with _ | _
  · rw [htorn] at hfile
    refine ⟨entries written, hfile, ?_⟩
    rw [textEntries_entries]
    exact List.prefix_append _ _
  · obtain ⟨start, line, more, bytes, hline, heq⟩ := hw.torn htorn
    rw [htorn, heq] at hfile
    simp only [if_true, List.dropLast_concat] at hfile
    refine ⟨entries written ++ [.torn line bytes], ?_, ?_⟩
    · rw [heq, hfile, List.append_assoc]
    · rw [textEntries_append, textEntries_entries]
      refine (List.prefix_append_right_inj written).mpr ?_
      -- The torn line is the next of them.
      rw [hline] at hpending
      rcases rest with _ | ⟨e, rest⟩
      · exact absurd hpending (List.cons_ne_nil _ _)
      obtain rfl : line = .entry e := (List.cons.inj hpending).1
      rw [textEntries, List.filterMap_cons, Fragment.entry?]
      split
      · exact List.nil_prefix
      · rename_i hsome
        split at hsome
        · obtain rfl := Option.some.inj hsome
          exact List.cons_prefix_cons.mpr ⟨rfl, List.nil_prefix⟩
        · exact absurd hsome.symm (Option.some_ne_none _)

/-- One entry, written to a file that was opened for it. -/
theorem Handle.write_fragments (textSize : Line C → ℕ) (file : File C) (e : Entry C)
    (attempt : Attempt) :
    ∃ fragments, (Handle.write { file := file } (.entry e) attempt).1.file = file ++ fragments ∧
      textEntries textSize fragments <+: [e] := by
  have hpush := (Handle.Writes.init file).push e
  cases attempt with
  | ok => exact (hpush.put _ 0).1.fragments
  | killed lines torn => exact (hpush.put lines torn).1.fragments
  | raised lines torn kept exc =>
    cases kept with
    | true => exact (hpush.put lines torn).1.fragments
    | false => exact (hpush.put lines torn).1.fragments

theorem After.of_initial {n m : ℕ} {es es' : List (Entry C)} (h : After n m es)
    (hinitial : es' <+: es) : After n m es' := by
  obtain ⟨rest, rfl⟩ := hinitial
  rw [After, List.map_append, List.pairwise_append] at h
  exact ⟨h.1.1, fun e he => h.2 e (List.mem_append_left _ he)⟩

theorem Handle.Numbers.adds {h : Handle C} {base : File C} {n m : ℕ}
    (hh : h.Numbers textSize base n m) :
    Adds textSize base h.file n m := by
  obtain ⟨fragments, es, hw, hafter⟩ := hh
  obtain ⟨more, hfile, hinitial⟩ := hw.fragments
  refine ⟨fragments ++ more, by rw [hfile, List.append_assoc], ?_⟩
  rw [textEntries_append]
  exact hafter.of_initial (List.prefix_append_right_inj _ |>.mpr hinitial)

theorem Handle.Numbers.flush {h : Handle C} {base : File C} {n m : ℕ} (hh : h.Numbers textSize base n m)
    (a : Attempt) : (h.flush a).1.Numbers textSize base n m := by
  obtain ⟨fragments, es, hw, hafter⟩ := hh
  cases a with
  | ok => exact ⟨fragments, es, (hw.put h.pending.length 0).1, hafter⟩
  | killed lines torn => exact ⟨fragments, es, (hw.put lines torn).1, hafter⟩
  | raised lines torn kept exc =>
    cases kept with
    | true => exact ⟨fragments, es, (hw.put lines torn).1, hafter⟩
    | false =>
      obtain ⟨more, hfile, hinitial⟩ := (hw.put lines torn).1.fragments
      refine ⟨fragments ++ more, [], ?_, ?_⟩
      · rw [← List.append_assoc, ← hfile]
        exact Handle.Writes.init _
      · rw [List.append_nil, textEntries_append]
        exact hafter.of_initial (List.prefix_append_right_inj _ |>.mpr hinitial)

/-! ### Turns of a recorder -/

/-- The recorder may still write to its file. -/
def RecorderPhase.writes : RecorderPhase → Bool
  | .lastNotifying | .ended => false
  | _ => true

/-- A turn of the recorder, however its writes go: the process is killed; the recorder
goes on, behind a whole line, or ends; or the file is closed and the recording is off
the table.  `n` is its number before. -/
inductive Recorder.Turns (textSize : Line C → ℕ) (s : Server C) (i : ℕ) (r : Recorder C) (n : ℕ) :
    Server C → Prop
  | killed (file : File C) (m : ℕ) (hadds : Adds textSize (s.file r.inode) file n m) :
      Turns textSize s i r n (s.setFile r.inode file).restart
  | goes (file : File C) (r' : Recorder C) (hadds : Adds textSize (s.file r.inode) file n r'.seq)
      (hle : n ≤ r'.seq) (hsame : r.Same r') (hphase : r'.phase ≠ .lastNotifying)
      (hlast : r'.phase.writes = true → file = s.file r.inode ∨ ¬ Unended textSize file) :
      Turns textSize s i r n ((s.setFile r.inode file).setRecorder i r')
  | closed (file : File C) (r' : Recorder C) (hadds : Adds textSize (s.file r.inode) file n r'.seq)
      (hle : n ≤ r'.seq) (hsame : r.Same r') (hphase : r'.phase = .lastNotifying) :
      Turns textSize s i r n ({ s.setFile r.inode file with
        recordings := Function.update s.recordings r.requestId none }.setRecorder i r')

section

variable {s : Server C} {i n : ℕ} {r : Recorder C} {h : Handle C}

theorem Recorder.Turns.of_same {r' : Recorder C} {s' : Server C}
    (h : Recorder.Turns textSize s i r' n s')
    (hsame : r.Same r') : Recorder.Turns textSize s i r n s' := by
  obtain ⟨hrequest, hinode⟩ := hsame
  cases h with
  | killed file m hadds =>
    rw [hinode] at hadds ⊢
    exact .killed file m hadds
  | goes file r'' hadds hle hsame' hphase hlast =>
    rw [hinode] at hadds hlast ⊢
    exact .goes file r'' hadds hle ⟨hsame'.1.trans hrequest, hsame'.2.trans hinode⟩ hphase hlast
  | closed file r'' hadds hle hsame' hphase =>
    rw [hinode] at hadds ⊢
    rw [hrequest]
    exact .closed file r'' hadds hle ⟨hsame'.1.trans hrequest, hsame'.2.trans hinode⟩ hphase

/-- A line that is flushed stands at the end of the file. -/
theorem flush_ok_ends {base : File C} {m : ℕ} (hh : h.Numbers textSize base n m) (e : Entry C) :
    ¬ Unended textSize (h.write (.entry e) .ok).1.file := by
  obtain ⟨fragments, es, hw, _⟩ := hh
  have hfile := (hw.push e).flush_ok
  rw [entries_append, ← List.append_assoc] at hfile
  rw [Handle.write, hfile]
  exact not_unended_whole _ _

theorem closeJournal_turns {close : Attempt} (hle : n ≤ r.seq)
    (hh : h.Numbers textSize (s.file r.inode) n r.seq) :
    Recorder.Turns textSize s i r n (s.closeJournal i r h close) := by
  have hadds := (hh.flush close).adds
  cases close with
  | ok => exact .closed _ { r with phase := .lastNotifying } hadds hle ⟨rfl, rfl⟩ rfl
  | raised lines torn kept exc =>
    exact .goes _ { r with phase := .ended } hadds hle ⟨rfl, rfl⟩ RecorderPhase.noConfusion
      fun hno => absurd hno Bool.false_ne_true
  | killed lines torn => exact .killed _ _ hadds

theorem failRecording_turns {message : String} {terminal close : Attempt} (hle : n ≤ r.seq)
    (hh : h.Numbers textSize (s.file r.inode) n r.seq) :
    Recorder.Turns textSize s i r n (s.failRecording i r h message terminal close) := by
  have hseq : (Entry.terminal (r.seq + 1) .lost (some message) : Entry C).seq = r.seq + 1 := rfl
  have hwrite := (hh.push hle hseq).flush terminal
  have hle' : n ≤ r.seq + 1 := Nat.le_succ_of_le hle
  cases terminal with
  | ok =>
    exact .goes _ { r with seq := r.seq + 1, phase := .notifying .handled } hwrite.adds hle'
      ⟨rfl, rfl⟩ RecorderPhase.noConfusion fun _ => .inr (flush_ok_ends hh _)
  | raised lines torn kept exc =>
    have hsame : r.Same { r with seq := r.seq + 1 } := ⟨rfl, rfl⟩
    exact (closeJournal_turns hle' hwrite).of_same hsame
  | killed lines torn => exact .killed _ _ hwrite.adds

theorem appendEntry_turns {entry : ℕ → Entry C}
    {append terminal close : Attempt} (hentry : ∀ n, (entry n).seq = n) :
    Recorder.Turns textSize s i r r.seq (s.appendEntry textSize i r entry append terminal close) := by
  have hinit : Handle.Numbers { file := s.file r.inode } textSize (s.file r.inode) r.seq r.seq :=
    Handle.Numbers.init (s.file r.inode) r.seq
  have hwrite := (hinit.push (Nat.le_refl _) (hentry (r.seq + 1))).flush append
  cases append with
  | ok =>
    exact .goes _ _ hwrite.adds (Nat.le_succ _) ⟨rfl, rfl⟩ RecorderPhase.noConfusion
      fun _ => .inr (flush_ok_ends hinit _)
  | raised lines torn kept exc =>
    have hsame : r.Same { r with seq := r.seq + 1 } := ⟨rfl, rfl⟩
    exact (failRecording_turns (Nat.le_succ r.seq) hwrite).of_same hsame
  | killed lines torn => exact .killed _ _ hwrite.adds

theorem Adds.refl (file : File C) (n : ℕ) : Adds textSize file file n n :=
  ⟨[], (List.append_nil file).symm, List.Pairwise.nil, fun _ he => absurd he List.not_mem_nil⟩

/-- The recorder looks at something. -/
theorem Recorder.Turns.looks {r' : Recorder C} (hsame : r.Same r') (hseq : r'.seq = r.seq)
    (hphase : r'.phase ≠ .lastNotifying) :
    Recorder.Turns textSize s i r r.seq (s.setRecorder i r') := by
  have hadds : Adds textSize (s.file r.inode) (s.file r.inode) r.seq r'.seq := by
    rw [hseq]
    exact Adds.refl _ _
  have hgoes : Recorder.Turns textSize s i r r.seq
      ((s.setFile r.inode (s.file r.inode)).setRecorder i r') :=
    .goes _ r' hadds (Nat.le_of_eq hseq.symm) hsame hphase fun _ => .inl rfl
  rw [s.setFile_file] at hgoes
  exact hgoes

theorem Recorder.Branch.turns {append terminal close : Attempt} {s' : Server C}
    (h : Recorder.Branch textSize s i r append terminal close s') :
    Recorder.Turns textSize s i r r.seq s' := by
  cases h with
  | looks r' hsame hseq hphase =>
    refine .looks hsame hseq ?_
    rw [hphase]
    exact RecorderPhase.noConfusion
  | fails r' message hsame hseq =>
    have hh : Handle.Numbers { file := s.file r.inode } textSize (s.file r'.inode) r.seq r'.seq := by
      rw [hsame.2, hseq]
      exact Handle.Numbers.init _ _
    exact (failRecording_turns (Nat.le_of_eq hseq.symm) hh).of_same hsame
  | appends r' entry hsame hseq hentry =>
    have hturns := (appendEntry_turns hentry : Recorder.Turns textSize s i r' r'.seq
      (s.appendEntry textSize i r' entry append terminal close)).of_same hsame
    rw [hseq] at hturns
    exact hturns

end

/-! ### The journal of a request -/

/-- The entries of the file, after its first line. -/
def lines (textSize : Line C → ℕ) (s : Server C) (inode : ℕ) : List (Entry C) :=
  textEntries textSize (s.file inode).tail

/-- The journal of a request: nobody else's recorder writes to it. -/
structure FilesInv (textSize : Line C → ℕ) (s : Server C) (q : UUID) : Prop where
  numbered : ∀ inode, s.paths q = some inode → Numbered (lines textSize s inode)
  paths : ∀ q' inode, s.paths q' = some inode → inode < s.files.length ∧
    (s.paths q = some inode → q' = q)
  recorders : ∀ (i : ℕ) (r : Recorder C), s.recorders[i]? = some r → r.inode < s.files.length ∧
    (s.paths q = some r.inode ↔ r.requestId = q) ∧ (r.requestId = q → s.file r.inode ≠ [])

/-- What a follower of the journal has read. -/
structure FollowerNumbers (textSize : Line C → ℕ) (s : Server C) (q : UUID) (f : Follower) :
    Prop where
  path : s.paths q = some f.inode
  position : 1 ≤ f.position ∧ f.position ≤ (s.file f.inode).length
  recording : f.recording = none → s.recordings q = none
  read : ∀ e ∈ textEntries textSize ((s.file f.inode).tail.take (f.position - 1)),
    e.seq ≤ f.lastSeq ∧ e.isTerminal = false
  deciding : f.phase = .deciding → f.recording = none →
    (∃ e ∈ lines textSize s f.inode, e.isTerminal = true) ∨
      ∀ e ∈ lines textSize s f.inode, e.seq ≤ f.lastSeq

/-- The journal of a request with its recorder and its followers: the recorder is in the
table while it writes, its number is the largest, and it writes behind whole lines. -/
structure Fresh (textSize : Line C → ℕ) (s : Server C) (q : UUID) : Prop where
  files : FilesInv textSize s q
  table : ∀ i, s.recordings q = some i → ∃ r, s.recorders[i]? = some r ∧ r.requestId = q
  writing : ∀ (i : ℕ) (r : Recorder C), s.recorders[i]? = some r → r.requestId = q →
    r.phase.writes = true → s.recordings q = some i ∧
      (∀ e ∈ lines textSize s r.inode, e.seq ≤ r.seq) ∧ ¬ Unended textSize (s.file r.inode)
  followers : ∀ (i : ℕ) (f : Follower), s.followers[i]? = some f → f.connected = true →
    f.requestId = q → FollowerNumbers textSize s q f

section

variable {s s' : Server C} {q : UUID} {i : ℕ}

theorem Fresh.init (q : UUID) : Fresh textSize ({} : Server C) q := by
  refine ⟨⟨fun inode hq => ?_, fun q' inode hq => ?_, fun i r hi => ?_⟩, fun i hq => ?_,
    fun i r hi => ?_, fun i f hi => ?_⟩
  · exact absurd hq.symm (Option.some_ne_none inode)
  · exact absurd hq.symm (Option.some_ne_none inode)
  · simp at hi
  · exact absurd hq.symm (Option.some_ne_none i)
  · simp at hi
  · simp at hi

theorem FilesInv.restart (h : FilesInv textSize s q) : FilesInv textSize s.restart q := by
  refine ⟨h.numbered, h.paths, fun i r hi => ?_⟩
  simp only [Server.restart, List.getElem?_map, Option.map_eq_some_iff] at hi
  obtain ⟨r₀, hi, rfl⟩ := hi
  exact h.recorders i r₀ hi

/-- After the end of the process only the files are left. -/
theorem Fresh.of_restart (h : FilesInv textSize s q) : Fresh textSize s.restart q := by
  refine ⟨h.restart, fun i hq => ?_, fun i r hi _ hwrites => ?_, fun i f hi hc => ?_⟩
  · exact absurd hq.symm (Option.some_ne_none i)
  · simp only [Server.restart, List.getElem?_map, Option.map_eq_some_iff] at hi
    obtain ⟨r₀, _, rfl⟩ := hi
    exact absurd hwrites Bool.false_ne_true
  · simp only [Server.restart, List.getElem?_map, Option.map_eq_some_iff] at hi
    obtain ⟨f₀, _, rfl⟩ := hi
    by_cases hconnected : f₀.connected = true
    · rw [if_pos hconnected] at hc
      exact absurd hc Bool.false_ne_true
    · rw [if_neg hconnected] at hc
      exact absurd hc hconnected

/-- Only followers of the journal change. -/
theorem Fresh.setFollowers (h : Fresh textSize s q) {followers : List Follower}
    (hf : ∀ (i : ℕ) (f : Follower), followers[i]? = some f → f.connected = true →
      f.requestId = q → FollowerNumbers textSize s q f) :
    Fresh textSize { s with followers := followers } q := by
  refine ⟨⟨h.files.numbered, h.files.paths, h.files.recorders⟩, h.table, h.writing,
    fun i f hi hc hq => ?_⟩
  obtain ⟨hpath, hposition, hrecording, hread, hdeciding⟩ := hf i f hi hc hq
  exact ⟨hpath, hposition, hrecording, hread, hdeciding⟩

theorem Fresh.setFollower (h : Fresh textSize s q) {f : Follower}
    (hf : f.connected = true → f.requestId = q → FollowerNumbers textSize s q f) :
    Fresh textSize (s.setFollower i f) q := by
  refine h.setFollowers fun j f' hj hc hq => ?_
  rcases List.getElem?_set_cases hj with ⟨_, rfl⟩ | ⟨_, hold⟩
  · exact hf hc hq
  · exact h.followers j f' hold hc hq

theorem FollowerNumbers.setPhase {f : Follower} (h : FollowerNumbers textSize s q f)
    {phase : FollowPhase}
    (hphase : phase ≠ .deciding) : FollowerNumbers textSize s q { f with phase := phase } :=
  ⟨h.path, h.position, h.recording, h.read, fun hp => absurd hp hphase⟩

theorem Fresh.notifyAll (h : Fresh textSize s q) : Fresh textSize (s.notifyAll i) q := by
  refine h.setFollowers fun j f hj hc hq => ?_
  simp only [List.getElem?_map, Option.map_eq_some_iff] at hj
  obtain ⟨f₀, hj, rfl⟩ := hj
  by_cases hwakes : f₀.recording = some i ∧ f₀.phase = .waiting
  · rw [if_pos hwakes] at hq ⊢
    have hc₀ : f₀.connected = true := by simp [Follower.connected, hwakes.2]
    exact (h.followers j f₀ hj hc₀ hq).setPhase FollowPhase.noConfusion
  · rw [if_neg hwakes] at hq hc ⊢
    exact h.followers j f₀ hj hc hq

/-- The lines of a file that has grown. -/
theorem lines_append (textSize : Line C → ℕ) {inode : ℕ} {fragments : File C} (hne : s.file inode ≠ [])
    (h : s'.file inode = s.file inode ++ fragments) :
    lines textSize s' inode = lines textSize s inode ++ textEntries textSize fragments := by
  rw [lines, h, List.tail_append_of_ne_nil hne, textEntries_append]
  rfl

/-- A follower of a journal that grows. -/
theorem FollowerNumbers.grow {f : Follower} (h : FollowerNumbers textSize s q f)
    (hpaths : s'.paths q = s.paths q) {fragments : File C}
    (hfile : s'.file f.inode = s.file f.inode ++ fragments)
    (hrecordings : s.recordings q = none → s'.recordings q = none)
    (hdeciding : f.recording = none → textEntries textSize fragments = [] ∨
      ∃ e ∈ textEntries textSize fragments, e.isTerminal = true) : FollowerNumbers textSize s' q f := by
  have hne : s.file f.inode ≠ [] := by
    intro hnil
    have hposition := h.position
    rw [hnil, List.length_nil] at hposition
    omega
  have hlines := lines_append textSize hne hfile
  refine ⟨hpaths.trans h.path, ⟨h.position.1, ?_⟩, fun hnone => hrecordings (h.recording hnone), ?_,
    fun hphase hnone => ?_⟩
  · rw [hfile, List.length_append]
    have := h.position.2
    omega
  · rw [hfile, List.tail_append_of_ne_nil hne, List.take_append_of_le_length]
    · exact h.read
    · rw [List.length_tail]
      have := h.position.2
      omega
  · rw [hlines]
    rcases hdeciding hnone with hnew | ⟨e, he, hterminal⟩
    · rw [hnew, List.append_nil]
      exact h.deciding hphase hnone
    · exact .inl ⟨e, List.mem_append_right _ he, hterminal⟩

/-- What a turn does to the journal: its own recorder adds to it, others leave it
alone. -/
theorem Fresh.turn_file (h : Fresh textSize s q) {r : Recorder C} (hi : s.recorders[i]? = some r)
    {file : File C} {m : ℕ} (hadds : Adds textSize (s.file r.inode) file r.seq m) {inode : ℕ}
    (hpath : s.paths q = some inode) : ∃ fragments,
      (s.setFile r.inode file).file inode = s.file inode ++ fragments ∧
      (r.requestId = q ∧ inode = r.inode ∧ After r.seq m (textEntries textSize fragments) ∨
        r.requestId ≠ q ∧ fragments = []) := by
  obtain ⟨hlt, hown, _⟩ := h.files.recorders i r hi
  by_cases hq : r.requestId = q
  · obtain rfl : inode = r.inode := Option.some.inj (hpath.symm.trans (hown.mpr hq))
    obtain ⟨fragments, rfl, hafter⟩ := hadds
    exact ⟨fragments, s.file_setFile_self _ hlt, .inl ⟨hq, rfl, hafter⟩⟩
  · refine ⟨[], ?_, .inr ⟨hq, rfl⟩⟩
    rw [List.append_nil]
    rcases s.file_setFile r.inode inode file with heq | ⟨rfl, _⟩
    · exact heq
    · exact absurd (hown.mp hpath) hq

theorem Fresh.turn_files (h : Fresh textSize s q) {r : Recorder C} (hi : s.recorders[i]? = some r)
    (hwrites : r.phase.writes = true) {file : File C} {m : ℕ}
    (hadds : Adds textSize (s.file r.inode) file r.seq m) :
    FilesInv textSize (s.setFile r.inode file) q := by
  have hlen : (s.setFile r.inode file).files.length = s.files.length := by simp [Server.setFile]
  refine ⟨fun inode hpath => ?_, fun q' inode hq' => ?_, fun j r₀ hj => ?_⟩
  · obtain ⟨fragments, hfile, hcase⟩ := h.turn_file hi hadds hpath
    rcases hcase with ⟨hq, rfl, hafter⟩ | ⟨_, rfl⟩
    · rw [lines_append textSize ((h.files.recorders i r hi).2.2 hq) hfile]
      exact (h.files.numbered _ hpath).append (h.writing i r hi hq hwrites).2.1 hafter
    · rw [List.append_nil] at hfile
      rw [lines, hfile]
      exact h.files.numbered inode hpath
  · rw [hlen]
    exact h.files.paths q' inode hq'
  · obtain ⟨hlt, hown, hne⟩ := h.files.recorders j r₀ hj
    refine ⟨by rw [hlen]; exact hlt, hown, fun hq => ?_⟩
    obtain ⟨fragments, hfile, _⟩ := h.turn_file hi hadds (hown.mpr hq)
    rw [hfile]
    exact fun hnil => hne hq (List.append_eq_nil_iff.mp hnil).1

/-- A turn of a recorder, which may take its recording off the table. -/
theorem Fresh.turn (h : Fresh textSize s q) {r r' : Recorder C} {recordings : UUID → Option ℕ}
    (hi : s.recorders[i]? = some r) (hwrites : r.phase.writes = true) (hsame : r.Same r')
    {file : File C} (hadds : Adds textSize (s.file r.inode) file r.seq r'.seq) (hle : r.seq ≤ r'.seq)
    (hlast : r'.phase.writes = true → file = s.file r.inode ∨ ¬ Unended textSize file)
    (htable : recordings q = s.recordings q ∨
      r.requestId = q ∧ recordings q = none ∧ r'.phase.writes = false) :
    Fresh textSize ({ s.setFile r.inode file with recordings := recordings }.setRecorder i r') q := by
  have hself : (s.recorders.set i r')[i]? = some r' := by
    rw [List.getElem?_set_self (List.getElem?_eq_some_iff.mp hi).1]
  have hfiles := h.turn_files hi hwrites hadds
  have hmine : r.requestId = q → s.recordings q = some i :=
    fun hq => (h.writing i r hi hq hwrites).1
  refine ⟨⟨hfiles.numbered, hfiles.paths, fun j r₀ hj => ?_⟩, fun j hq => ?_,
    fun j r₀ hj hq hw => ?_, fun j f hj hc hq => ?_⟩
  · -- The recorders keep their files.
    rcases List.getElem?_set_cases hj with ⟨rfl, rfl⟩ | ⟨_, hold⟩
    · obtain ⟨hlt, hown, hne⟩ := hfiles.recorders j r hi
      rw [hsame.1, hsame.2]
      exact ⟨hlt, hown, hne⟩
    · exact hfiles.recorders j r₀ hold
  · -- The table can only have lost this recorder.
    have hold : s.recordings q = some j := by
      rcases htable with heq | ⟨_, hnone, _⟩
      · exact heq ▸ hq
      · exact absurd (hnone.symm.trans hq).symm (Option.some_ne_none j)
    obtain ⟨r₀, hget, hrequest⟩ := h.table j hold
    by_cases hji : j = i
    · subst hji
      rw [hi] at hget
      obtain rfl := Option.some.inj hget
      exact ⟨r', hself, hsame.1.trans hrequest⟩
    · exact ⟨r₀, (List.getElem?_set_ne (Ne.symm hji)).trans hget, hrequest⟩
  · rcases List.getElem?_set_cases hj with ⟨rfl, rfl⟩ | ⟨hji, hold⟩
    · -- The moving recorder's own turn: its numbers go on from where it stood.
      have hqr : r.requestId = q := hsame.1.symm.trans hq
      obtain ⟨hrec, hbound, hends⟩ := h.writing j r hi hqr hwrites
      refine ⟨?_, fun e he => ?_, ?_⟩
      · rcases htable with heq | ⟨_, _, hno⟩
        · exact heq.trans hrec
        · rw [hno] at hw
          exact absurd hw Bool.false_ne_true
      · obtain ⟨fragments, hfile, hcase⟩ :=
          h.turn_file hi hadds ((h.files.recorders j r hi).2.1.mpr hqr)
        rw [hsame.2] at he
        have hlines := lines_append textSize ((h.files.recorders j r hi).2.2 hqr) hfile
        have he' : e ∈ lines textSize (s.setFile r.inode file) r.inode := he
        rw [hlines] at he'
        rcases List.mem_append.mp he' with he' | he'
        · exact Nat.le_trans (hbound e he') hle
        · rcases hcase with ⟨_, _, hafter⟩ | ⟨hne, _⟩
          · exact (hafter.2 e he').2
          · exact absurd hqr hne
      · have hfile : (s.setFile r.inode file).file r.inode = file :=
          s.file_setFile_self file (h.files.recorders j r hi).1
        have hends' : ¬ Unended textSize ((s.setFile r.inode file).file r.inode) := by
          rw [hfile]
          rcases hlast hw with rfl | hnew
          · exact hends
          · exact hnew
        rw [hsame.2]
        exact hends'
    · obtain ⟨hrec, hbound, hends⟩ := h.writing j r₀ hold hq hw
      -- It is another request's recorder that moves.
      have hqr : r.requestId ≠ q := by
        intro hqr
        rw [hmine hqr] at hrec
        exact hji (Option.some.inj hrec).symm
      have hfile : (s.setFile r.inode file).file r₀.inode = s.file r₀.inode := by
        obtain ⟨fragments, hfile, hcase⟩ :=
          h.turn_file hi hadds ((h.files.recorders j r₀ hold).2.1.mpr hq)
        rcases hcase with ⟨hqr', _⟩ | ⟨_, rfl⟩
        · exact absurd hqr' hqr
        · rw [hfile, List.append_nil]
      refine ⟨?_, fun e he => hbound e ?_, ?_⟩
      · rcases htable with heq | ⟨hqr', _⟩
        · exact heq.trans hrec
        · exact absurd hqr' hqr
      · have he' : e ∈ lines textSize (s.setFile r.inode file) r₀.inode := he
        rw [lines, hfile] at he'
        exact he'
      · show ¬ Unended textSize ((s.setFile r.inode file).file r₀.inode)
        rw [hfile]
        exact hends
  · -- The followers see the lines that were appended.
    have hf := h.followers j f hj hc hq
    obtain ⟨fragments, hfile, hcase⟩ := h.turn_file hi hadds hf.path
    refine hf.grow rfl hfile (fun hnone => ?_) fun hnone => ?_
    · rcases htable with heq | ⟨_, hnone', _⟩
      · exact heq.trans hnone
      · exact hnone'
    · rcases hcase with ⟨hqr, _⟩ | ⟨_, rfl⟩
      · have hrec := hf.recording hnone
        rw [hmine hqr] at hrec
        exact absurd hrec (Option.some_ne_none i)
      · exact .inl rfl

theorem Fresh.turns (h : Fresh textSize s q) {r : Recorder C} (hi : s.recorders[i]? = some r)
    (hwrites : r.phase.writes = true) (ht : Recorder.Turns textSize s i r r.seq s') :
    Fresh textSize s' q := by
  cases ht with
  | killed file m hadds => exact Fresh.of_restart (h.turn_files hi hwrites hadds)
  | goes file r' hadds hle hsame hphase hlast =>
    exact h.turn hi hwrites hsame hadds hle hlast (.inl rfl)
  | closed file r' hadds hle hsame hphase =>
    refine h.turn hi hwrites hsame hadds hle (fun hno => ?_) ?_
    · rw [hphase] at hno
      exact absurd hno Bool.false_ne_true
    by_cases hq : q = r.requestId
    · subst hq
      exact .inr ⟨rfl, Function.update_self .., by rw [hphase]; rfl⟩
    · exact .inl (Function.update_of_ne hq ..)

/-! ### Steps -/

theorem Server.file_concat_lt (s : Server C) (file : File C) (paths : UUID → Option ℕ) {i : ℕ}
    (hi : i < s.files.length) :
    { s with files := s.files ++ [file], paths := paths }.file i = s.file i := by
  simp [Server.file, List.getElem?_append_left hi]

/-- A new file takes a path that nobody has. -/
theorem Fresh.newFile (h : Fresh textSize s q) {q' : UUID} (hq' : s.paths q' = none) {file : File C}
    (hfile : textEntries textSize file.tail = []) : Fresh textSize { s with
      files := s.files ++ [file]
      paths := Function.update s.paths q' (some s.files.length) } q := by
  have hold : ∀ inode, s.paths q = some inode → q ≠ q' := by
    rintro inode hq rfl
    rw [hq'] at hq
    exact absurd hq.symm (Option.some_ne_none inode)
  have hpath : ∀ inode, s.paths q = some inode →
      Function.update s.paths q' (some s.files.length) q = some inode := fun inode hq =>
    (Function.update_of_ne (hold inode hq) ..).trans hq
  refine ⟨⟨fun inode hq => ?_, fun q'' inode hq'' => ?_, fun i r hi => ?_⟩, h.table,
    fun i r hi hq hw => ?_, fun i f hi hc hq => ?_⟩
  · rcases update_cases hq with ⟨rfl, hlen⟩ | ⟨_, hq⟩
    · rw [← Option.some.inj hlen, lines, Server.file_concat, hfile]
      refine ⟨fun e he => absurd he List.not_mem_nil, fun i j e e' _ hi => ?_⟩
      simp at hi
    · rw [lines, Server.file_concat_lt _ _ _ (h.files.paths q inode hq).1]
      exact h.files.numbered inode hq
  · rw [List.length_append, List.length_singleton]
    rcases update_cases hq'' with ⟨rfl, hlen⟩ | ⟨_, hq''⟩
    · refine ⟨by have := Option.some.inj hlen; omega, fun hq => ?_⟩
      rcases update_cases hq with ⟨heq, _⟩ | ⟨_, hq⟩
      · exact heq.symm
      · have := (h.files.paths q inode hq).1
        have := Option.some.inj hlen
        omega
    · obtain ⟨hlt, hown⟩ := h.files.paths q'' inode hq''
      refine ⟨by omega, fun hq => ?_⟩
      rcases update_cases hq with ⟨_, hlen⟩ | ⟨_, hq⟩
      · have := Option.some.inj hlen
        omega
      · exact hown hq
  · obtain ⟨hlt, hown, hne⟩ := h.files.recorders i r hi
    refine ⟨by rw [List.length_append]; omega, ⟨fun hq => ?_, fun hq => hpath _ (hown.mpr hq)⟩,
      fun hq => ?_⟩
    · rcases update_cases hq with ⟨_, hlen⟩ | ⟨_, hq⟩
      · have := Option.some.inj hlen
        omega
      · exact hown.mp hq
    · rw [Server.file_concat_lt _ _ _ hlt]
      exact hne hq
  · obtain ⟨hrec, hbound, hends⟩ := h.writing i r hi hq hw
    have hsame := Server.file_concat_lt s file (Function.update s.paths q' (some s.files.length))
      (h.files.recorders i r hi).1
    refine ⟨hrec, fun e he => hbound e ?_, ?_⟩
    · rw [lines, hsame] at he
      exact he
    · rw [hsame]
      exact hends
  · have hf := h.followers i f hi hc hq
    have hsame := Server.file_concat_lt s file (Function.update s.paths q' (some s.files.length))
      (h.files.paths q _ hf.path).1
    rw [← List.append_nil (s.file f.inode)] at hsame
    exact hf.grow ((hpath _ hf.path).trans hf.path.symm) hsame id fun _ => .inl rfl

/-- A recorder starts for a journal that has just been made. -/
theorem Fresh.newRecorder (h : Fresh textSize s q) {r : Recorder C} {sent : List UUID}
    (hpath : s.paths r.requestId = some r.inode) {line : Line C}
    (hline : s.file r.inode = [.whole line])
    (hnew : r.requestId = q → (∀ (i : ℕ) (r' : Recorder C), s.recorders[i]? = some r' →
      r'.requestId ≠ q) ∧ ∀ (i : ℕ) (f : Follower), s.followers[i]? = some f →
        f.connected = true → f.requestId ≠ q) : Fresh textSize { s with
        sent := sent
        recordings := Function.update s.recordings r.requestId (some s.recorders.length)
        recorders := s.recorders ++ [r] } q := by
  have hne : s.file r.inode ≠ [] := by
    rw [hline]
    exact List.cons_ne_nil _ _
  have hlines : lines textSize s r.inode = [] := by
    rw [lines, hline]
    rfl
  have hold : ∀ (j : ℕ) (r₀ : Recorder C), s.recorders[j]? = some r₀ →
      (s.recorders ++ [r])[j]? = some r₀ := fun j r₀ hj =>
    (List.getElem?_append_left (List.getElem?_eq_some_iff.mp hj).1).trans hj
  refine ⟨⟨h.files.numbered, h.files.paths, fun j r₀ hj => ?_⟩, fun j hq => ?_,
    fun j r₀ hj hq hw => ?_, fun j f hj hc hq => ?_⟩
  · rcases List.getElem?_concat_cases hj with ⟨_, rfl⟩ | ⟨_, hj⟩
    · obtain ⟨hlt, hown⟩ := h.files.paths _ _ hpath
      refine ⟨hlt, ⟨hown, fun hq => hq ▸ hpath⟩, fun _ => hne⟩
    · exact h.files.recorders j r₀ hj
  · rcases update_cases hq with ⟨hqr, hlen⟩ | ⟨_, hq⟩
    · obtain rfl := Option.some.inj hlen
      exact ⟨r, List.getElem?_concat_length, hqr.symm⟩
    · obtain ⟨r₀, hget, hrequest⟩ := h.table j hq
      exact ⟨r₀, hold j r₀ hget, hrequest⟩
  · rcases List.getElem?_concat_cases hj with ⟨rfl, rfl⟩ | ⟨_, hj⟩
    · refine ⟨hq ▸ Function.update_self .., fun e he => ?_, ?_⟩
      · have he' : e ∈ lines textSize s r₀.inode := he
        rw [hlines] at he'
        exact absurd he' List.not_mem_nil
      · show ¬ Unended textSize (s.file r₀.inode)
        rw [hline]
        exact not_unended_whole [] line
    · obtain ⟨hrec, hbound⟩ := h.writing j r₀ hj hq hw
      refine ⟨(Function.update_of_ne (fun hqr => ?_) ..).trans hrec, hbound⟩
      exact (hnew hqr.symm).1 j r₀ hj hq
  · have hf := h.followers j f hj hc hq
    refine ⟨hf.path, hf.position, fun hnone => ?_, hf.read, hf.deciding⟩
    refine (Function.update_of_ne (fun hqr => ?_) ..).trans (hf.recording hnone)
    exact (hnew hqr.symm).2 j f hj hc hq

/-- A header line, or a part of it, or nothing. -/
theorem header_lines (line : Line C) (header : Attempt) :
    (Handle.write { file := [] } line header).1.file.tail = [] ∧
      ((Handle.write { file := [] } line header).2 = .ok →
        (Handle.write { file := [] } line header).1.file = [.whole line]) := by
  have hput : ∀ lines torn,
      (Handle.put { file := [], pending := [line] } lines torn).file.tail = [] := by
    intro lines torn
    by_cases hwhole : torn = 0 ∨ [line].drop lines = []
    · rw [Handle.put_whole _ hwhole]
      rcases lines with _ | n
      · rfl
      · simp
    · rw [not_or] at hwhole
      obtain ⟨bytes, rfl⟩ := Nat.exists_eq_succ_of_ne_zero hwhole.1
      obtain ⟨line', more, hmore⟩ := List.exists_cons_of_ne_nil hwhole.2
      rw [Nat.succ_eq_add_one, Handle.put_torn _ hmore]
      rcases lines with _ | n
      · rfl
      · simp at hmore
  cases header with
  | ok => exact ⟨hput _ _, fun _ => rfl⟩
  | raised lines torn kept exc =>
    refine ⟨?_, Result.noConfusion⟩
    cases kept with
    | true => exact hput lines torn
    | false => exact hput lines torn
  | killed lines torn => exact ⟨hput lines torn, Result.noConfusion⟩

theorem Fresh.start (h : Fresh textSize s q) {q' kernelId : UUID}
    {header : Attempt} {executed : Bool} :
    Fresh textSize (s.start textSize q' kernelId header executed) q := by
  rcases hq' : s.paths q' with _ | inode
  swap
  · rw [Server.start, if_pos (by rw [hq']; rfl)]
    exact h
  have hlines := header_lines (.header q' kernelId s.serverId : Line C) header
  simp only [Server.start, hq', Option.isSome_none, Bool.false_eq_true, if_false]
  revert hlines
  generalize Handle.write { file := [] } (.header q' kernelId s.serverId : Line C) header = written
  obtain ⟨handle, result⟩ := written
  rintro ⟨hlines, hwhole⟩
  have hnew := h.newFile hq' (congrArg (textEntries textSize) hlines)
  cases result with
  | ok =>
    cases executed with
    | false => exact hnew
    | true =>
      let r : Recorder C := {
        requestId := q'
        inode := s.files.length
        size := textSize (.header q' kernelId s.serverId) + 1 }
      have hpath : Function.update s.paths q' (some s.files.length) r.requestId = some r.inode :=
        Function.update_self ..
      have hfile := Server.file_concat s handle.file
        (Function.update s.paths q' (some s.files.length))
      refine hnew.newRecorder (r := r) hpath (hfile.trans (hwhole rfl))
        fun hq => ⟨fun i r' hi hr' => ?_, fun i f hi hc hf => ?_⟩
      · have hpath' := (h.files.recorders i r' hi).2.1.mpr hr'
        rw [← hq, show r.requestId = q' from rfl, hq'] at hpath'
        exact absurd hpath'.symm (Option.some_ne_none _)
      · have hpath' := (h.followers i f hi hc hf).path
        rw [← hq, show r.requestId = q' from rfl, hq'] at hpath'
        exact absurd hpath'.symm (Option.some_ne_none _)
  | raised exc => exact hnew
  | killed => exact Fresh.of_restart hnew.files

theorem Fresh.connect (h : Fresh textSize s q) (q' kernelId : UUID) (after : ℕ) :
    Fresh textSize (s.connect textSize q' kernelId after) q := by
  have hadd : ∀ f : Follower,
      (f.connected = true → f.requestId = q → FollowerNumbers textSize s q f) →
      Fresh textSize { s with followers := s.followers ++ [f] } q := by
    intro f hf
    refine h.setFollowers fun j f' hj hc hq => ?_
    rcases List.getElem?_concat_cases hj with ⟨_, rfl⟩ | ⟨_, hj⟩
    · exact hf hc hq
    · exact h.followers j f' hj hc hq
  rcases hq' : s.paths q' with _ | inode
  · simp only [Server.connect, hq']
    exact h
  rcases hline : readLine textSize (s.file inode) 0 with _ | _ | _ | _
  · simp only [Server.connect, hq', hline]
    exact h
  · simp only [Server.connect, hq', hline]
    exact hadd _ fun hc => absurd hc Bool.false_ne_true
  · simp only [Server.connect, hq', hline]
    split
    · exact h
    · refine hadd _ fun _ hq => ?_
      obtain rfl : q' = q := hq
      have hne : (s.file inode).length ≠ 0 := by
        intro hnil
        rw [readLine_end textSize (Nat.le_of_eq hnil)] at hline
        cases hline
      exact ⟨hq', ⟨Nat.le_refl 1, Nat.one_le_iff_ne_zero.mpr hne⟩, id,
        fun e he => absurd he List.not_mem_nil, fun hp => FollowPhase.noConfusion hp⟩
  · simp only [Server.connect, hq', hline]
    exact h

theorem Follower.read_requestId (f : Follower) (textSize : Line C → ℕ) (file : File C) :
    (f.read textSize file).1.requestId = f.requestId := by
  simp only [Follower.read]
  split
  · split <;> rfl
  all_goals rfl

/-- One line, or the end of the file. -/
theorem FollowerNumbers.readLine {f : Follower} (h : FollowerNumbers textSize s q f)
    (hnumbered : Numbered (lines textSize s f.inode)) (hphase : f.phase = .reading) :
    (f.read textSize (s.file f.inode)).1.phase = .ended ∨
      FollowerNumbers textSize s q (f.read textSize (s.file f.inode)).1 := by
  have hposition := h.position
  -- Only a complete entry moves the follower; the end of the file and a line that cannot be
  -- read leave it where it is.
  rcases hline : Journals.readLine textSize (s.file f.inode) f.position with _ | _ | _ | e
  · have hlen := readLine_none hline
    simp only [Follower.read, hline]
    refine .inr ⟨h.path, h.position, h.recording, h.read, fun _ _ => .inr fun e he => ?_⟩
    rw [lines, ← List.take_of_length_le (l := (s.file f.inode).tail) (i := f.position - 1)
      (by rw [List.length_tail]; omega)] at he
    exact (h.read e he).1
  · simp only [Follower.read, hline]
    exact .inr (h.setPhase FollowPhase.noConfusion)
  · simp only [Follower.read, hline]
    exact .inr (h.setPhase FollowPhase.noConfusion)
  obtain ⟨fragment, hget, hentry⟩ := readLine_entry hline
  have hlt := (List.getElem?_eq_some_iff.mp hget).1
  simp only [Follower.read, hline]
  by_cases hterminal : e.isTerminal = true
  · rw [if_pos hterminal]
    exact .inl rfl
  rw [if_neg hterminal]
  obtain ⟨p, hp⟩ := Nat.exists_eq_add_of_le hposition.1
  have hbounds := h.read
  have hnext : (s.file f.inode).tail[p]? = some fragment := by
    rw [List.getElem?_tail, Nat.add_comm, ← hp]
    exact hget
  rw [hp, Nat.add_sub_cancel_left] at hbounds
  -- What the follower has read, and the entry behind it.
  obtain ⟨es, hes⟩ : ∃ es, es = textEntries textSize ((s.file f.inode).tail.take p) := ⟨_, rfl⟩
  rw [← hes] at hbounds
  have htake : textEntries textSize ((s.file f.inode).tail.take (p + 1)) = es ++ [e] := by
    rw [List.take_add_one, hnext, textEntries_append, ← hes]
    simp [textEntries, hentry]
  have hlines : lines textSize s f.inode =
      (es ++ [e]) ++ textEntries textSize ((s.file f.inode).tail.drop (p + 1)) := by
    conv_lhs => rw [lines, ← List.take_append_drop (p + 1) (s.file f.inode).tail]
    rw [textEntries_append, htake]
  refine .inr ⟨h.path, ⟨Nat.le_add_left 1 _, hlt⟩, h.recording, fun e' he' => ?_, fun hno => ?_⟩
  · have he' : e' ∈ textEntries textSize ((s.file f.inode).tail.take (p + 1)) := by
      rw [Nat.add_comm p 1, ← hp]
      exact he'
    rw [htake] at he'
    rcases List.mem_append.mp he' with he' | he'
    · refine ⟨Nat.le_of_lt ?_, (hbounds e' he').2⟩
      -- The entries before it are not terminal, so its number is larger.
      rw [hlines] at hnumbered
      have hinitial := hnumbered.of_initial (List.prefix_append (es ++ [e]) _)
      obtain ⟨k, hk, rfl⟩ := List.getElem_of_mem he'
      refine hinitial.2 k es.length _ _ hk
        (by rw [List.getElem?_append_left hk, List.getElem?_eq_getElem hk])
        List.getElem?_concat_length fun j hj e'' he'' => ?_
      rw [List.getElem?_append_left hj] at he''
      exact (hbounds e'' (List.mem_of_getElem? he'')).2
    · rw [List.mem_singleton.mp he']
      exact ⟨Nat.le_refl _, Bool.not_eq_true _ ▸ hterminal⟩
  · -- A follower that is reading is not deciding.
    simp only [hphase] at hno
    cases hno

theorem FollowerNumbers.setOpened {f : Follower} (h : FollowerNumbers textSize s q f)
    (opened : Bool) : FollowerNumbers textSize s q { f with opened := opened } :=
  ⟨h.path, h.position, h.recording, h.read, h.deciding⟩

theorem Fresh.read (h : Fresh textSize s q) {f : Follower} (hi : s.followers[i]? = some f)
    (hphase : f.phase = .reading) : Fresh textSize (s.read textSize i f) q := by
  have hc : f.connected = true := by simp [Follower.connected, hphase]
  have hrequest := f.read_requestId textSize (s.file f.inode)
  have hread := fun hq => (h.followers i f hi hc hq).readLine
    (h.files.numbered _ (h.followers i f hi hc hq).path) hphase
  rw [Server.read]
  generalize f.read textSize (s.file f.inode) = read at hrequest hread ⊢
  obtain ⟨f', frames⟩ := read
  refine h.setFollower fun hconnected hq => ?_
  rcases hread (hrequest.symm.trans hq) with hended | hnumbers
  · have hended : f'.phase = .ended := hended
    rw [Follower.connected, hended] at hconnected
    exact absurd hconnected Bool.false_ne_true
  · exact hnumbers.setOpened _

/-- A file grows that no recorder writes to, the journal by a terminal entry at
most. -/
theorem Fresh.setFile (h : Fresh textSize s q) {inode : ℕ} {fragments : File C}
    (hown : s.paths q = some inode → s.recordings q = none ∧ Numbered (lines textSize s inode ++
      textEntries textSize fragments) ∧ s.file inode ≠ [] ∧ (textEntries textSize fragments = [] ∨
        ∃ e ∈ textEntries textSize fragments, e.isTerminal = true)) :
    Fresh textSize (s.setFile inode (s.file inode ++ fragments)) q := by
  have hlen : (s.setFile inode (s.file inode ++ fragments)).files.length = s.files.length := by
    simp [Server.setFile]
  have hother : ∀ j, j ≠ inode → (s.setFile inode (s.file inode ++ fragments)).file j = s.file j := by
    intro j hj
    rcases s.file_setFile inode j (s.file inode ++ fragments) with heq | ⟨rfl, _⟩
    · exact heq
    · exact absurd rfl hj
  refine ⟨⟨fun j hq => ?_, fun q' j hq' => ?_, fun j r hj => ?_⟩, h.table, fun j r hj hq hw => ?_,
    fun j f hj hc hq => ?_⟩
  · by_cases hji : j = inode
    · subst hji
      obtain ⟨_, hnumbered, hne, _⟩ := hown hq
      rw [lines_append textSize hne (s.file_setFile_self _ (h.files.paths q j hq).1)]
      exact hnumbered
    · rw [lines, hother j hji]
      exact h.files.numbered j hq
  · rw [hlen]
    exact h.files.paths q' j hq'
  · obtain ⟨hlt, hmine, hne⟩ := h.files.recorders j r hj
    refine ⟨by rw [hlen]; exact hlt, hmine, fun hq => ?_⟩
    by_cases hji : r.inode = inode
    · rw [hji] at hlt ⊢
      rw [s.file_setFile_self _ hlt]
      intro hnil
      rw [hji] at hne
      exact hne hq (List.append_eq_nil_iff.mp hnil).1
    · rw [hother _ hji]
      exact hne hq
  · obtain ⟨hrec, hbound, hends⟩ := h.writing j r hj hq hw
    have hpath := (h.files.recorders j r hj).2.1.mpr hq
    have hji : r.inode ≠ inode := by
      intro hji
      rw [hji] at hpath
      rw [(hown hpath).1] at hrec
      exact absurd hrec.symm (Option.some_ne_none j)
    refine ⟨hrec, fun e he => hbound e ?_, ?_⟩
    · rw [lines, hother _ hji] at he
      exact he
    · rw [hother _ hji]
      exact hends
  · have hf := h.followers j f hj hc hq
    by_cases hji : f.inode = inode
    · have hpath := hf.path
      rw [hji] at hpath
      obtain ⟨_, _, _, hterminal⟩ := hown hpath
      subst hji
      exact hf.grow rfl (s.file_setFile_self _ (h.files.paths q _ hpath).1) id fun _ => hterminal
    · have hsame : (s.setFile inode (s.file inode ++ fragments)).file f.inode =
          s.file f.inode ++ [] := by
        rw [hother _ hji, List.append_nil]
      exact hf.grow rfl hsame id fun _ => .inl rfl

theorem Fresh.finishOrphan (h : Fresh textSize s q) {f : Follower} (hi : s.followers[i]? = some f)
    (hphase : f.phase = .deciding) (hnone : f.recording = none) {attempt : Attempt} :
    Fresh textSize (s.finishOrphan i f attempt) q := by
  have hc : f.connected = true := by simp [Follower.connected, hphase]
  rcases hrec : s.recordings f.requestId with _ | k
  swap
  · simp only [Server.finishOrphan, hrec]
    refine h.setFollower fun _ hq => ?_
    have hf := h.followers i f hi hc hq
    refine ⟨hf.path, hf.position, fun hno => ?_, hf.read, fun hp => ?_⟩
    · exact absurd hno (Option.some_ne_none k)
    · exact FollowPhase.noConfusion hp
  obtain ⟨e, he⟩ : ∃ e : Entry C, e = .terminal (f.lastSeq + 1) .lost (some (s.orphanMessage f)) :=
    ⟨_, rfl⟩
  -- The journal itself is opened, or a file that is not it.
  have hopen : Fresh textSize (s.openOrphan f.requestId).1 q ∧
      (s.openOrphan f.requestId).1.followers = s.followers ∧
      (f.requestId = q → s.openOrphan f.requestId = (s, f.inode)) ∧
      (f.requestId ≠ q → (s.openOrphan f.requestId).1.paths q ≠ some (s.openOrphan f.requestId).2) := by
    rcases hpath : s.paths f.requestId with _ | inode
    · simp only [Server.openOrphan, hpath]
      refine ⟨h.newFile hpath rfl, trivial, fun hq => ?_, fun hq hpath' => ?_⟩
      · have hown := (h.followers i f hi hc hq).path
        rw [← hq, hpath] at hown
        exact absurd hown.symm (Option.some_ne_none _)
      · rcases update_cases hpath' with ⟨heq, _⟩ | ⟨_, hpath'⟩
        · exact hq heq.symm
        · exact absurd (h.files.paths q _ hpath').1 (Nat.lt_irrefl _)
    · simp only [Server.openOrphan, hpath]
      refine ⟨h, trivial, fun hq => ?_, fun hq hpath' => hq ((h.files.paths _ _ hpath).2 hpath')⟩
      have hown := (h.followers i f hi hc hq).path
      rw [← hq, hpath] at hown
      rw [Option.some.inj hown]
  simp only [Server.finishOrphan, hrec]
  rw [← he]
  generalize s.openOrphan f.requestId = opened at hopen ⊢
  obtain ⟨s₁, inode⟩ := opened
  obtain ⟨h₁, hfollowers, hmine, hother⟩ := hopen
  obtain ⟨fragments, hfile, hinitial⟩ := Handle.write_fragments textSize (s₁.file inode) e attempt
  have h₂ : Fresh textSize (s₁.setFile inode (s₁.file inode ++ fragments)) q := by
    refine h₁.setFile fun hpath => ?_
    by_cases hq : f.requestId = q
    swap
    · exact absurd hpath (hother hq)
    -- For this request the file is the follower's own, read to its end.
    obtain ⟨rfl, rfl⟩ := Prod.mk.inj (hmine hq)
    have hf := h.followers i f hi hc hq
    refine ⟨hf.recording hnone, ?_, ?_, ?_⟩
    · -- The terminal entry, if it was written, takes the next number.
      rcases List.prefix_cons_iff.mp hinitial with hnil | ⟨es, hes, hes'⟩
      · rw [hnil, List.append_nil]
        exact h.files.numbered _ hpath
      · rw [hes, List.prefix_nil.mp hes']
        refine (h.files.numbered _ hpath).snoc ?_ (by rw [he]; exact Nat.le_add_left 1 _)
        rcases hf.deciding hphase hnone with hterminal | hless
        · exact .inl hterminal
        · refine .inr fun e' he' => ?_
          rw [he]
          exact Nat.lt_succ_of_le (hless e' he')
    · intro hnil
      have := hf.position
      rw [hnil, List.length_nil] at this
      omega
    · rcases List.prefix_cons_iff.mp hinitial with hnil | ⟨es, hes, hes'⟩
      · exact .inl hnil
      · refine .inr ⟨e, by rw [hes]; exact List.mem_cons_self, ?_⟩
        rw [he]
        rfl
  -- Whatever became of the write, the follower's new phase is not deciding.
  dsimp only
  generalize Handle.write { file := s₁.file inode } (.entry e) attempt = written at hfile ⊢
  obtain ⟨handle, result⟩ := written
  rw [show handle.file = s₁.file inode ++ fragments from hfile]
  cases result with
  | ok =>
    refine h₂.setFollower fun _ hq => ?_
    have hi₂ : (s₁.setFile inode (s₁.file inode ++ fragments)).followers[i]? = some f :=
      (congrArg (·[i]?) hfollowers).trans hi
    have hreading : FollowPhase.reading ≠ .deciding := FollowPhase.noConfusion
    exact (h₂.followers i f hi₂ hc hq).setPhase hreading
  | raised exc =>
    refine h₂.setFollower fun _ hq => ?_
    have hi₂ : (s₁.setFile inode (s₁.file inode ++ fragments)).followers[i]? = some f :=
      (congrArg (·[i]?) hfollowers).trans hi
    have hraised : FollowPhase.raised ≠ .deciding := FollowPhase.noConfusion
    exact (h₂.followers i f hi₂ hc hq).setPhase hraised
  | killed => exact Fresh.of_restart h₂.files

theorem Fresh.decide (h : Fresh textSize s q) {f : Follower} (hi : s.followers[i]? = some f)
    (hphase : f.phase = .deciding) {attempt : Attempt} : Fresh textSize (s.decide i f attempt) q := by
  rcases hrec : f.recording with _ | k
  · simp only [Server.decide, hrec]
    exact h.finishOrphan hi hphase hrec
  · have hdecide : s.decide i f attempt = s.setFollower i { f with phase := .locking } := by
      rw [Server.decide, hrec]
    rw [hdecide]
    refine h.setFollower fun _ hq => ?_
    have hc : f.connected = true := by simp [Follower.connected, hphase]
    have hlocking : FollowPhase.locking ≠ .deciding := FollowPhase.noConfusion
    exact (h.followers i f hi hc hq).setPhase hlocking

theorem Fresh.lock (h : Fresh textSize s q) {f : Follower} (hi : s.followers[i]? = some f)
    (hphase : f.phase = .locking) : Fresh textSize (s.lock textSize i f) q := by
  have hc : f.connected = true := by simp [Follower.connected, hphase]
  rcases hpath : s.paths f.requestId with _ | inode
  · simp only [Server.lock, hpath]
    exact h.setFollower fun _ hq => (h.followers i f hi hc hq).setPhase FollowPhase.noConfusion
  · simp only [Server.lock, hpath]
    split
    · exact h.setFollower fun _ hq => (h.followers i f hi hc hq).setPhase FollowPhase.noConfusion
    · exact h.setFollower fun _ hq => (h.followers i f hi hc hq).setPhase FollowPhase.noConfusion

/-- The end of a recorder, which writes no more. -/
theorem Fresh.setEnded (h : Fresh textSize s q) {r : Recorder C} (hi : s.recorders[i]? = some r) :
    Fresh textSize (s.setRecorder i { r with phase := .ended }) q := by
  refine ⟨⟨h.files.numbered, h.files.paths, fun j r₀ hj => ?_⟩, fun j hq => ?_,
    fun j r₀ hj hq hw => ?_, fun j f hj hc hq => ?_⟩
  · rcases List.getElem?_set_cases hj with ⟨rfl, rfl⟩ | ⟨_, hold⟩
    · exact h.files.recorders j r hi
    · exact h.files.recorders j r₀ hold
  · obtain ⟨r₀, hget, hrequest⟩ := h.table j hq
    by_cases hji : j = i
    · subst hji
      rw [hi] at hget
      obtain rfl := Option.some.inj hget
      exact ⟨_, List.getElem?_set_self (List.getElem?_eq_some_iff.mp hi).1, hrequest⟩
    · exact ⟨r₀, (List.getElem?_set_ne (Ne.symm hji)).trans hget, hrequest⟩
  · rcases List.getElem?_set_cases hj with ⟨rfl, rfl⟩ | ⟨_, hold⟩
    · exact absurd hw Bool.false_ne_true
    · exact h.writing j r₀ hold hq hw
  · obtain ⟨hpath, hposition, hrecording, hread, hdeciding⟩ := h.followers j f hj hc hq
    exact ⟨hpath, hposition, hrecording, hread, hdeciding⟩

theorem Fresh.notify (h : Fresh textSize s q) {r : Recorder C} (hi : s.recorders[i]? = some r)
    {close : Attempt} : Fresh textSize (s.notify i r close) q := by
  have hi' : (s.notifyAll i).recorders[i]? = some r := hi
  match hphase : r.phase with
  | .notifying .goOn =>
    simp only [Server.notify, hphase]
    refine h.notifyAll.turns hi' (by rw [hphase]; rfl) ?_
    exact .looks ⟨rfl, rfl⟩ rfl RecorderPhase.noConfusion
  | .notifying .finish =>
    simp only [Server.notify, hphase]
    exact h.notifyAll.turns hi' (by rw [hphase]; rfl)
      (closeJournal_turns (Nat.le_refl _) (Handle.Numbers.init _ _))
  | .notifying .handled =>
    simp only [Server.notify, hphase]
    exact h.notifyAll.turns hi' (by rw [hphase]; rfl)
      (closeJournal_turns (Nat.le_refl _) (Handle.Numbers.init _ _))
  | .lastNotifying =>
    simp only [Server.notify, hphase]
    exact h.notifyAll.setEnded hi'
  | .opening | .recording | .ended =>
    simp only [Server.notify, hphase]
    exact h

theorem Fresh.cancelNotify (h : Fresh textSize s q) {r : Recorder C} (hi : s.recorders[i]? = some r)
    {terminal close : Attempt} : Fresh textSize (s.cancelNotify i r terminal close) q := by
  match hphase : r.phase with
  | .notifying .handled =>
    simp only [Server.cancelNotify, hphase]
    exact h.turns hi (by rw [hphase]; rfl)
      (closeJournal_turns (Nat.le_refl _) (Handle.Numbers.init _ _))
  | .notifying .goOn | .notifying .finish =>
    simp only [Server.cancelNotify, hphase]
    exact h.turns hi (by rw [hphase]; rfl)
      (failRecording_turns (Nat.le_refl _) (Handle.Numbers.init _ _))
  | .lastNotifying =>
    simp only [Server.cancelNotify, hphase]
    exact h.setEnded hi
  | .opening | .recording | .ended =>
    simp only [Server.cancelNotify, hphase]
    exact h

/-- Another request's journal is removed. -/
theorem Fresh.remove (h : Fresh textSize s q) {q' : UUID} (hne : q ≠ q') {removed : List UUID} :
    Fresh textSize { s with paths := Function.update s.paths q' none, removed := removed } q := by
  have hpath : Function.update s.paths q' none q = s.paths q := Function.update_of_ne hne ..
  refine ⟨⟨fun inode hq => ?_, fun q'' inode hq'' => ?_, fun j r hj => ?_⟩, h.table, h.writing,
    fun j f hj hc hq => ?_⟩
  · exact h.files.numbered inode (hpath.symm.trans hq)
  · rcases update_cases hq'' with ⟨_, hnone⟩ | ⟨_, hold⟩
    · exact absurd hnone (Option.some_ne_none inode).symm
    · refine ⟨(h.files.paths q'' inode hold).1, fun hq => ?_⟩
      exact (h.files.paths q'' inode hold).2 (hpath.symm.trans hq)
  · obtain ⟨hlt, hown, hnil⟩ := h.files.recorders j r hj
    refine ⟨hlt, ?_, hnil⟩
    show Function.update s.paths q' none q = some r.inode ↔ r.requestId = q
    rw [hpath]
    exact hown
  · obtain ⟨hown, hposition, hrecording, hread, hdeciding⟩ := h.followers j f hj hc hq
    exact ⟨hpath.trans hown, hposition, hrecording, hread, hdeciding⟩

end

/-! ### Runs -/

section

variable {s : Server C} {q : UUID}

theorem Fresh.withRecorder (h : Fresh textSize s q) {i : ℕ} {phases : RecorderPhase → Bool}
    {f : Recorder C → Server C}
    (hf : ∀ r, s.recorders[i]? = some r → phases r.phase = true → Fresh textSize (f r) q) :
    Fresh textSize (s.withRecorder i phases f) q := by
  rcases s.withRecorder_cases i phases f with heq | ⟨r, hi, hphase, heq⟩
  · rw [heq]
    exact h
  · rw [heq]
    exact hf r hi hphase

theorem Fresh.withFollower (h : Fresh textSize s q) {i : ℕ} {phase : FollowPhase}
    {f : Follower → Server C}
    (hf : ∀ r, s.followers[i]? = some r → r.phase = phase → Fresh textSize (f r) q) :
    Fresh textSize (s.withFollower i phase f) q := by
  rcases s.withFollower_cases i phase f with heq | ⟨r, hi, hphase, heq⟩
  · rw [heq]
    exact h
  · rw [heq]
    exact hf r hi hphase

theorem Fresh.step (h : Fresh textSize s q) (maxBytes : ℕ) (action : Action C) :
    q ∈ (s.step textSize maxBytes action).removed ∨
      Fresh textSize (s.step textSize maxBytes action) q := by
  cases action with
  | start requestId kernelId header executed => exact .inr h.start
  | openJournal i opened =>
    simp only [Server.step]
    refine .inr (h.withRecorder fun r hi hphase => ?_)
    -- A journal that cannot be opened ends its recorder.
    cases opened with
    | false => exact h.setEnded hi
    | true =>
      refine h.turns hi (by rw [eq_of_beq hphase]; rfl) ?_
      exact .looks ⟨rfl, rfl⟩ rfl RecorderPhase.noConfusion
  | record i wake append terminal close =>
    simp only [Server.step]
    refine .inr (h.withRecorder fun r hi hphase => ?_)
    have hphase := eq_of_beq hphase
    exact h.turns hi (by rw [hphase]; rfl) (record_branch hphase hi).turns
  | notify i close =>
    simp only [Server.step]
    exact .inr (h.withRecorder fun r hi _ => h.notify hi)
  | cancelNotify i terminal close =>
    simp only [Server.step]
    exact .inr (h.withRecorder fun r hi _ => h.cancelNotify hi)
  | connect requestId kernelId after => exact .inr (h.connect requestId kernelId after)
  | read i =>
    simp only [Server.step]
    exact .inr (h.withFollower fun f hi hphase => h.read hi hphase)
  | decide i attempt =>
    simp only [Server.step]
    exact .inr (h.withFollower fun f hi hphase => h.decide hi hphase)
  | lock i =>
    simp only [Server.step]
    exact .inr (h.withFollower fun f hi hphase => h.lock hi hphase)
  | disconnect i =>
    refine .inr ?_
    simp only [Server.step]
    rcases s.followers[i]? with _ | f
    · exact h
    · dsimp only
      split
      · exact h.setFollower fun hno => absurd hno Bool.false_ne_true
      · exact h
  | remove requestId =>
    simp only [Server.step]
    by_cases hbusy : (s.recordings requestId).isSome = true
    · rw [if_pos hbusy]
      exact .inr h
    rw [if_neg hbusy]
    -- Removing the journal of the request itself ends its story; any other file is none of its
    -- own.
    by_cases hq : q = requestId
    · subst hq
      rcases hpath : s.paths q with _ | inode
      · refine .inr ?_
        have hsame : Function.update s.paths q none = s.paths := by
          rw [← hpath]
          exact Function.update_eq_self q s.paths
        rw [hsame]
        exact h
      · exact .inl List.mem_cons_self
    · exact .inr (h.remove hq)
  | restart => exact .inr (Fresh.of_restart h.files)

/-- Files are only appended to, and a journal that was removed stays so. -/
structure Appends (s s' : Server C) : Prop where
  removed : s.removed ⊆ s'.removed
  files : ∀ inode, s.file inode <+: s'.file inode

theorem Appends.refl (s : Server C) : Appends s s :=
  ⟨List.Subset.refl _, fun _ => List.prefix_refl _⟩

theorem Appends.trans {s s' s'' : Server C} (h : Appends s s') (h' : Appends s' s'') :
    Appends s s'' :=
  ⟨List.Subset.trans h.removed h'.removed, fun inode => (h.files inode).trans (h'.files inode)⟩

/-- The files and the removals are what they were. -/
theorem Appends.of_eq {s s' : Server C} (hfiles : s'.files = s.files)
    (hremoved : s'.removed = s.removed) : Appends s s' := by
  refine ⟨hremoved ▸ List.Subset.refl _, fun inode => ?_⟩
  have hfile : s'.file inode = s.file inode := by rw [Server.file, Server.file, hfiles]
  exact hfile ▸ List.prefix_refl _

theorem Appends.setFile (s : Server C) (inode : ℕ) (fragments : File C) :
    Appends s (s.setFile inode (s.file inode ++ fragments)) := by
  refine ⟨List.Subset.refl _, fun j => ?_⟩
  rcases s.file_setFile inode j (s.file inode ++ fragments) with heq | ⟨rfl, _, heq⟩
  · exact heq ▸ List.prefix_refl _
  · rw [heq]
    exact List.prefix_append _ _

theorem Appends.newFile (s : Server C) (file : File C) (paths : UUID → Option ℕ) :
    Appends s { s with files := s.files ++ [file], paths := paths } := by
  refine ⟨List.Subset.refl _, fun inode => ?_⟩
  by_cases hlt : inode < s.files.length
  · exact Server.file_concat_lt s file paths hlt ▸ List.prefix_refl _
  · have hnil : s.file inode = [] := by simp [Server.file, hlt]
    rw [hnil]
    exact List.nil_prefix

theorem Recorder.Turns.appends {s' : Server C} {i n : ℕ} {r : Recorder C}
    (h : Recorder.Turns textSize s i r n s') : Appends s s' := by
  cases h with
  | killed file m hadds =>
    obtain ⟨fragments, rfl, _⟩ := hadds
    exact (Appends.setFile s r.inode fragments).trans (.of_eq rfl rfl)
  | goes file r' hadds hle hsame hphase =>
    obtain ⟨fragments, rfl, _⟩ := hadds
    exact (Appends.setFile s r.inode fragments).trans (.of_eq rfl rfl)
  | closed file r' hadds hle hsame hphase =>
    obtain ⟨fragments, rfl, _⟩ := hadds
    exact (Appends.setFile s r.inode fragments).trans (.of_eq rfl rfl)

theorem Appends.withRecorder {i : ℕ} {phases : RecorderPhase → Bool} {f : Recorder C → Server C}
    (hf : ∀ r, s.recorders[i]? = some r → phases r.phase = true → Appends s (f r)) :
    Appends s (s.withRecorder i phases f) := by
  rcases s.withRecorder_cases i phases f with heq | ⟨r, hi, hphase, heq⟩
  · rw [heq]
    exact .refl s
  · rw [heq]
    exact hf r hi hphase

theorem Appends.withFollower {i : ℕ} {phase : FollowPhase} {f : Follower → Server C}
    (hf : ∀ r, Appends s (f r)) : Appends s (s.withFollower i phase f) := by
  rcases s.withFollower_cases i phase f with heq | ⟨r, _, _, heq⟩
  · rw [heq]
    exact .refl s
  · rw [heq]
    exact hf r

end

end ExecutorService.Journals
