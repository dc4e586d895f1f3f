/-
Followers are never stranded.

A follower ends at the first terminal entry.  It waits only on a recorder, and a
recorder writes a terminal entry before it ends and tells its followers afterwards; a
follower without a recorder writes the entry itself.  This breaks when a write fails
for good: the terminal entry itself, the closing of the file, a line that stays torn,
or the entry of an orphan, whose exception ends `follow` and leaves its WebSocket open.

* `Sound` — the condition on a step: what its writes leave behind, and no removal of
  a journal under a follower that is not done with it;
* `Recorder.Moves` — what a turn of a recorder can do under it;
* `followers_never_stranded` — in every run of such steps, a follower without a
  running recorder comes to a terminal entry by its own steps, and ends.
-/
import ExecutorService.Journals
import ExecutorService.Positions
import ExecutorService.Transition
import Mathlib.Logic.Function.Iterate

namespace ExecutorService.Journals

variable {C : Type}

/-! ### Writes -/

/-- A part of a line is in the file after the attempt, or still is. -/
def Attempt.leavesPart (part : Bool) : Attempt → Bool
  | .ok => false
  | .raised lines torn _ _ => torn != 0 || (part && lines == 0)
  | .killed lines torn => torn != 0 || (part && lines == 0)

/-- The file closes, or the process ends with whole lines in it. -/
def CloseSound (part : Bool) (close : Attempt) : Prop :=
  match close with
  | .ok => True
  | .raised .. => False
  | .killed .. => close.leavesPart part = false

/-- The last entry of a handler is written, by its own flush or by the closing of
the file. -/
def HandlerSound (part : Bool) (terminal close : Attempt) : Prop :=
  match terminal with
  | .ok => True
  | .raised _ _ kept _ => kept = true ∧ CloseSound (terminal.leavesPart part) close
  | .killed .. => terminal.leavesPart part = false

/-- An entry is written or lost as a whole; if that fails, the handler's is written. -/
def AppendSound (append terminal close : Attempt) : Prop :=
  match append with
  | .ok => True
  | .raised _ _ kept _ => (append.leavesPart false = true → kept = true) ∧
      HandlerSound (append.leavesPart false) terminal close
  | .killed .. => append.leavesPart false = false

/-- The whole lines of a list of entries. -/
def entries (es : List (Entry C)) : File C :=
  es.map fun e => .whole (.entry e)

/-- `h` writes the entries of `es` after `base`, as far as it has come. -/
structure Handle.Writes (h : Handle C) (base : File C) (es : List (Entry C)) : Prop where
  progress : ∃ written rest, es = written ++ rest ∧ h.pending = rest.map .entry ∧
    (if h.tornHead then h.file.dropLast else h.file) = base ++ entries written
  torn : h.tornHead = true → ∃ start line more bytes, h.pending = line :: more ∧
    h.file = start ++ [.torn line bytes]

theorem entries_append (es es' : List (Entry C)) :
    entries (es ++ es') = entries es ++ entries es' := by
  simp [entries]

theorem Handle.Writes.init (file : File C) : Handle.Writes { file := file } file [] :=
  ⟨⟨[], [], rfl, rfl, by simp [entries]⟩, fun h => Bool.noConfusion h⟩

theorem Handle.Writes.push {h : Handle C} {base : File C} {es : List (Entry C)}
    (hw : h.Writes base es) (e : Entry C) :
    Handle.Writes { h with pending := h.pending ++ [.entry e] } base (es ++ [e]) := by
  obtain ⟨written, rest, rfl, hpending, hfile⟩ := hw.progress
  refine ⟨⟨written, rest ++ [e], by simp, by simp [hpending], hfile⟩, fun ht => ?_⟩
  obtain ⟨start, line, more, bytes, hmore, heq⟩ := hw.torn ht
  exact ⟨start, line, more ++ [.entry e], bytes, by rw [hmore, List.cons_append], heq⟩

theorem Handle.put_torn (h : Handle C) {lines bytes : ℕ} {line : Line C} {rest : List (Line C)}
    (hrest : h.pending.drop lines = line :: rest) :
    h.put lines (bytes + 1) = {
      file := (if h.tornHead then h.file.dropLast else h.file) ++
        (h.pending.take lines).map .whole ++ [.torn line (bytes + 1)]
      pending := line :: rest
      tornHead := true } := by
  simp only [Handle.put, hrest]

theorem Handle.put_whole (h : Handle C) {lines torn : ℕ}
    (hrest : torn = 0 ∨ h.pending.drop lines = []) :
    h.put lines torn = if lines = 0 then h else {
      file := (if h.tornHead then h.file.dropLast else h.file) ++
        (h.pending.take lines).map .whole
      pending := h.pending.drop lines } := by
  rcases hrest with rfl | hrest
  · rfl
  · cases torn <;> simp only [Handle.put, hrest]

/-- Some more is written; a part of a line is then in the file only as the attempt
says. -/
theorem Handle.Writes.put {h : Handle C} {base : File C} {es : List (Entry C)}
    (hw : h.Writes base es) (lines torn : ℕ) :
    (h.put lines torn).Writes base es ∧
      ((h.put lines torn).tornHead = true → (torn != 0 || (h.tornHead && lines == 0)) = true) := by
  obtain ⟨written, rest, rfl, hpending, hfile⟩ := hw.progress
  have hbase : (if h.tornHead then h.file.dropLast else h.file) ++
      (h.pending.take lines).map Fragment.whole = base ++ entries (written ++ rest.take lines) := by
    rw [hfile, entries_append, List.append_assoc, hpending, ← List.map_take, List.map_map]
    rfl
  have hsplit : written ++ rest = (written ++ rest.take lines) ++ rest.drop lines := by simp
  have hdrop : h.pending.drop lines = (rest.drop lines).map .entry := by
    rw [hpending, List.map_drop]
  by_cases hwhole : torn = 0 ∨ h.pending.drop lines = []
  · rw [h.put_whole hwhole]
    by_cases hlines : lines = 0
    · rw [if_pos hlines]
      exact ⟨hw, fun ht => by simp [ht, hlines]⟩
    · rw [if_neg hlines]
      exact ⟨⟨⟨written ++ rest.take lines, rest.drop lines, hsplit, hdrop, hbase⟩,
        fun ht => Bool.noConfusion ht⟩, fun ht => Bool.noConfusion ht⟩
  · rw [not_or] at hwhole
    obtain ⟨bytes, rfl⟩ := Nat.exists_eq_succ_of_ne_zero hwhole.1
    obtain ⟨line, more, hmore⟩ := List.exists_cons_of_ne_nil hwhole.2
    rw [Nat.succ_eq_add_one, h.put_torn hmore]
    refine ⟨⟨⟨written ++ rest.take lines, rest.drop lines, hsplit, by rw [← hdrop, hmore], ?_⟩,
      fun _ => ⟨_, line, more, bytes + 1, rfl, rfl⟩⟩, fun _ => by simp⟩
    simp only [if_true, List.dropLast_concat]
    exact hbase

/-- Without a part of a line, the file has a beginning of the entries. -/
theorem Handle.Writes.file_eq {h : Handle C} {base : File C} {es : List (Entry C)}
    (hw : h.Writes base es) (hpart : h.tornHead = false) :
    ∃ written, written <+: es ∧ h.file = base ++ entries written := by
  obtain ⟨written, rest, rfl, _, hfile⟩ := hw.progress
  rw [hpart] at hfile
  exact ⟨written, List.prefix_append _ _, hfile⟩

theorem Handle.Writes.flush_ok {h : Handle C} {base : File C} {es : List (Entry C)}
    (hw : h.Writes base es) : (h.flush .ok).1.file = base ++ entries es := by
  obtain ⟨written, rest, rfl, hpending, hfile⟩ := hw.progress
  simp only [Handle.flush, h.put_whole (.inl rfl)]
  by_cases hlen : h.pending.length = 0
  · have hnil : h.pending = [] := List.length_eq_zero_iff.mp hlen
    have hpart : h.tornHead = false := by
      rw [← Bool.not_eq_true]
      intro ht
      obtain ⟨_, _, _, _, hmore, _⟩ := hw.torn ht
      exact List.cons_ne_nil _ _ (hmore.symm.trans hnil)
    have hrest : rest = [] := by simpa [hnil] using hpending
    rw [if_pos hlen, hrest, List.append_nil]
    rw [hpart] at hfile
    exact hfile
  · rw [if_neg hlen, hfile, List.take_length, hpending, entries_append, List.map_map,
      List.append_assoc]
    rfl

/-- An attempt that raises and keeps what it did not write. -/
theorem Handle.Writes.flush_kept {h : Handle C} {base : File C} {es : List (Entry C)}
    (hw : h.Writes base es) (lines torn : ℕ) (exc : String) :
    (h.flush (.raised lines torn true exc)).1.Writes base es ∧
      ((h.flush (.raised lines torn true exc)).1.tornHead = true →
        Attempt.leavesPart h.tornHead (.raised lines torn true exc) = true) :=
  hw.put lines torn

/-- An attempt that leaves no part of a line. -/
theorem Handle.Writes.flush_file {h : Handle C} {base : File C} {es : List (Entry C)}
    (hw : h.Writes base es) {a : Attempt} (hpart : a.leavesPart h.tornHead = false) :
    ∃ written, written <+: es ∧ (h.flush a).1.file = base ++ entries written := by
  have hput : ∀ lines torn, (torn != 0 || (h.tornHead && lines == 0)) = false →
      ∃ written, written <+: es ∧ (h.put lines torn).file = base ++ entries written := by
    intro lines torn hno
    obtain ⟨hw', htorn⟩ := hw.put lines torn
    refine hw'.file_eq ?_
    rw [← Bool.not_eq_true]
    intro ht
    rw [htorn ht] at hno
    exact Bool.noConfusion hno
  cases a with
  | ok => exact ⟨es, List.prefix_refl es, hw.flush_ok⟩
  | raised lines torn kept exc =>
    obtain ⟨written, hprefix, hfile⟩ := hput lines torn hpart
    cases kept with
    | true => exact ⟨written, hprefix, hfile⟩
    | false => exact ⟨written, hprefix, hfile⟩
  | killed lines torn => exact hput lines torn hpart

theorem Handle.Writes.rebase {h : Handle C} {base : File C} {es es' : List (Entry C)}
    (hw : h.Writes (base ++ entries es) es') : h.Writes base (es ++ es') := by
  obtain ⟨written, rest, rfl, hpending, hfile⟩ := hw.progress
  refine ⟨⟨es ++ written, rest, by simp, hpending, ?_⟩, hw.torn⟩
  rw [hfile, entries_append, List.append_assoc]

theorem Attempt.leavesPart_mono {a : Attempt} {part part' : Bool} (h : part = true → part' = true)
    (ha : a.leavesPart part' = false) : a.leavesPart part = false := by
  cases part with
  | true => rw [h rfl] at ha; exact ha
  | false =>
    cases a <;> simp_all [Attempt.leavesPart]

/-! ### What a recorder can do -/

/-- The file is the old one and more whole entries. -/
def Extends (base file : File C) : Prop :=
  ∃ es, file = base ++ entries es

/-- The file has a whole terminal entry. -/
def HasTerminal (file : File C) : Prop :=
  ∃ fragment ∈ file, fragment.isTerminal = true

theorem Extends.refl (file : File C) : Extends file file :=
  ⟨[], by simp [entries]⟩

theorem Extends.hasTerminal {base file : File C} (h : Extends base file)
    (hbase : HasTerminal base) : HasTerminal file := by
  obtain ⟨es, rfl⟩ := h
  obtain ⟨fragment, hmem, hterminal⟩ := hbase
  exact ⟨fragment, List.mem_append_left _ hmem, hterminal⟩

theorem hasTerminal_entries (base : File C) (es : List (Entry C)) {e : Entry C}
    (he : e.isTerminal = true) : HasTerminal (base ++ entries (es ++ [e])) :=
  ⟨.whole (.entry e), by simp [entries], he⟩

/-- It is the same recorder, in another phase. -/
def Recorder.Same (r r' : Recorder C) : Prop :=
  r'.requestId = r.requestId ∧ r'.inode = r.inode

/-- The branches of `record`: it looks at something, it gives up, or it appends an entry with the
next number. -/
inductive Recorder.Branch (textSize : Line C → ℕ) (s : Server C) (i : ℕ) (r : Recorder C)
    (append terminal close : Attempt) : Server C → Prop
  | looks (r' : Recorder C) (hsame : r.Same r') (hseq : r'.seq = r.seq)
      (hphase : r'.phase = .recording) :
      Branch textSize s i r append terminal close (s.setRecorder i r')
  | fails (r' : Recorder C) (message : String) (hsame : r.Same r') (hseq : r'.seq = r.seq) :
      Branch textSize s i r append terminal close
        (s.failRecording i r' { file := s.file r.inode } message terminal close)
  | appends (r' : Recorder C) (entry : ℕ → Entry C) (hsame : r.Same r') (hseq : r'.seq = r.seq)
      (hentry : ∀ n, (entry n).seq = n) :
      Branch textSize s i r append terminal close
        (s.appendEntry textSize i r' entry append terminal close)

/-- A turn of the recorder: it looks at something; the process is killed; entries are
in the file, the last of them terminal if the recorder does not go on; or the file is
closed and the recording is off the table. -/
inductive Recorder.Moves (s : Server C) (i : ℕ) (r : Recorder C) : Server C → Prop
  | looks (r' : Recorder C) (hsame : r.Same r') (hphase : r'.phase = .recording) :
      Moves s i r (s.setRecorder i r')
  | killed (file : File C) (hfile : Extends (s.file r.inode) file) :
      Moves s i r (s.setFile r.inode file).restart
  | wrote (file : File C) (r' : Recorder C) (next : Next) (hfile : Extends (s.file r.inode) file)
      (hsame : r.Same r') (hphase : r'.phase = .notifying next)
      (hterminal : next ≠ .goOn → HasTerminal file) :
      Moves s i r ((s.setFile r.inode file).setRecorder i r')
  | closed (file : File C) (r' : Recorder C) (hfile : Extends (s.file r.inode) file)
      (hsame : r.Same r') (hphase : r'.phase = .lastNotifying) (hterminal : HasTerminal file) :
      Moves s i r ({ s.setFile r.inode file with
        recordings := Function.update s.recordings r.requestId none }.setRecorder i r')

section

variable {s : Server C} {i : ℕ} {r : Recorder C}

theorem Recorder.Moves.of_same {r' : Recorder C} {s' : Server C} (h : Recorder.Moves s i r' s')
    (hsame : r.Same r') : Recorder.Moves s i r s' := by
  obtain ⟨hrequest, hinode⟩ := hsame
  cases h with
  | looks r'' hsame' hphase =>
    exact .looks r'' ⟨hsame'.1.trans hrequest, hsame'.2.trans hinode⟩ hphase
  | killed file hfile =>
    rw [hinode] at hfile ⊢
    exact .killed file hfile
  | wrote file r'' next hfile hsame' hphase hterminal =>
    rw [hinode] at hfile ⊢
    exact .wrote file r'' next hfile ⟨hsame'.1.trans hrequest, hsame'.2.trans hinode⟩ hphase hterminal
  | closed file r'' hfile hsame' hphase hterminal =>
    rw [hinode] at hfile ⊢
    rw [hrequest]
    exact .closed file r'' hfile ⟨hsame'.1.trans hrequest, hsame'.2.trans hinode⟩ hphase hterminal

theorem closeJournal_moves {h : Handle C} {es : List (Entry C)} {close : Attempt} {part : Bool}
    (hw : h.Writes (s.file r.inode) es) (hpart : h.tornHead = true → part = true)
    (hterminal : HasTerminal (s.file r.inode ++ entries es)) (hclose : CloseSound part close) :
    Recorder.Moves s i r (s.closeJournal i r h close) := by
  cases close with
  | ok =>
    have hfile := hw.flush_ok
    rw [← hfile] at hterminal
    exact .closed _ _ ⟨es, hfile⟩ ⟨rfl, rfl⟩ rfl hterminal
  | raised => exact hclose.elim
  | killed lines torn =>
    obtain ⟨written, _, hfile⟩ := hw.flush_file (Attempt.leavesPart_mono hpart hclose)
    exact .killed _ ⟨written, hfile⟩

theorem failRecording_moves {h : Handle C} {es : List (Entry C)} {message : String}
    {terminal close : Attempt} {part : Bool} (hw : h.Writes (s.file r.inode) es)
    (hpart : h.tornHead = true → part = true) (hsound : HandlerSound part terminal close) :
    Recorder.Moves s i r (s.failRecording i r h message terminal close) := by
  have hpush := hw.push (.terminal (r.seq + 1) .lost (some message))
  have hterminal : HasTerminal (s.file r.inode ++
      entries (es ++ [.terminal (r.seq + 1) .lost (some message)])) :=
    hasTerminal_entries _ es rfl
  cases terminal with
  | ok =>
    have hfile := hpush.flush_ok
    rw [← hfile] at hterminal
    exact .wrote _ _ .handled ⟨_, hfile⟩ ⟨rfl, rfl⟩ rfl fun _ => hterminal
  | raised lines torn kept exc =>
    obtain ⟨rfl, hclose⟩ := hsound
    obtain ⟨hw', htorn⟩ := hpush.flush_kept lines torn exc
    have hsame : r.Same { r with seq := r.seq + 1 } := ⟨rfl, rfl⟩
    refine Recorder.Moves.of_same (closeJournal_moves hw' (fun ht => ?_) hterminal hclose) hsame
    rw [← Bool.not_eq_false]
    intro hno
    rw [Attempt.leavesPart_mono hpart hno] at htorn
    exact Bool.noConfusion (htorn ht)
  | killed lines torn =>
    obtain ⟨written, _, hfile⟩ := hpush.flush_file (Attempt.leavesPart_mono hpart hsound)
    exact .killed _ ⟨written, hfile⟩

theorem appendEntry_moves {textSize : Line C → ℕ} {entry : ℕ → Entry C}
    {append terminal close : Attempt} (hsound : AppendSound append terminal close) :
    Recorder.Moves s i r (s.appendEntry textSize i r entry append terminal close) := by
  have hpush := (Handle.Writes.init (s.file r.inode)).push (entry (r.seq + 1))
  cases append with
  | ok =>
    have hfile := hpush.flush_ok
    have hterminal : (entry (r.seq + 1)).isTerminal = true →
        HasTerminal (s.file r.inode ++ entries ([] ++ [entry (r.seq + 1)])) :=
      hasTerminal_entries _ []
    rw [← hfile] at hterminal
    refine .wrote _ _ _ ⟨_, hfile⟩ ⟨rfl, rfl⟩ rfl fun hnext => hterminal ?_
    by_contra hno
    exact hnext (if_neg hno)
  | raised lines torn kept exc =>
    obtain ⟨hkept, hhandler⟩ := hsound
    have hsame : r.Same { r with seq := r.seq + 1 } := ⟨rfl, rfl⟩
    refine Recorder.Moves.of_same ?_ hsame
    cases kept with
    | true =>
      obtain ⟨hw, htorn⟩ := hpush.flush_kept lines torn exc
      exact failRecording_moves hw htorn hhandler
    | false =>
      -- Nothing of the line stays, neither in the file as a part nor in the buffer.
      have hno : Attempt.leavesPart false (.raised lines torn false exc) = false := by
        rw [← Bool.not_eq_true]
        exact fun h => Bool.noConfusion (hkept h)
      obtain ⟨written, _, hfile⟩ := hpush.flush_file hno
      have hw : Handle.Writes { file := s.file r.inode ++ entries written }
          (s.file r.inode) (written ++ []) := (Handle.Writes.init _).rebase
      rw [← hfile] at hw
      exact failRecording_moves hw (fun ht => Bool.noConfusion ht) hhandler
  | killed lines torn =>
    obtain ⟨written, _, hfile⟩ := hpush.flush_file hsound
    exact .killed _ ⟨written, hfile⟩

/-- Either nothing is queued and the recorder looks for a message, or it takes the first one. -/
theorem record_branch {textSize : Line C → ℕ} {maxBytes : ℕ} {wake : Wake C}
    {append terminal close : Attempt} (hphase : r.phase = .recording)
    (hi : s.recorders[i]? = some r) :
    Recorder.Branch textSize s i r append terminal close
      (s.record textSize maxBytes i r wake append terminal close) := by
  rcases htodo : r.todo with _ | ⟨exc | m, todo⟩
  · simp only [Server.record, htodo]
    by_cases hdone : r.replyReceived = true ∧ r.idleReceived = true
    · rw [if_pos hdone]
      exact .appends r _ ⟨rfl, rfl⟩ rfl fun _ => rfl
    rw [if_neg hdone]
    cases wake with
    | received shell iopub => exact .looks _ ⟨rfl, rfl⟩ rfl hphase
    | alive =>
      have hself : s.setRecorder i r = s := by
        obtain ⟨hlt, rfl⟩ := List.getElem?_eq_some_iff.mp hi
        rw [Server.setRecorder, List.set_getElem_self]
      have hlooks : Recorder.Branch textSize s i r append terminal close (s.setRecorder i r) :=
        .looks r ⟨rfl, rfl⟩ rfl hphase
      rw [hself] at hlooks
      exact hlooks
    | replaced exitReason => exact .appends r _ ⟨rfl, rfl⟩ rfl fun _ => rfl
    | cancelled => exact .fails r _ ⟨rfl, rfl⟩ rfl
  · simp only [Server.record, htodo]
    exact .fails { r with todo } _ ⟨rfl, rfl⟩ rfl
  · simp only [Server.record, htodo, Server.recordMessage]
    by_cases hours : m.ours
    swap
    · rw [if_pos hours]
      exact .looks _ ⟨rfl, rfl⟩ rfl hphase
    rw [if_neg (not_not.mpr hours)]
    -- Of the messages of the request only status changes are not written down.
    by_cases hstatus : m.msgType = "status"
    · rw [if_pos hstatus]
      exact .looks _ ⟨rfl, rfl⟩ rfl hphase
    rw [if_neg hstatus]
    by_cases hreply : m.channel = .shell ∧ m.msgType = "execute_reply"
    · simp only [if_pos hreply]
      split
      · exact .appends _ _ ⟨rfl, rfl⟩ rfl fun _ => rfl
      · exact .appends _ _ ⟨rfl, rfl⟩ rfl fun _ => rfl
    · simp only [if_neg hreply]
      split
      · exact .appends _ _ ⟨rfl, rfl⟩ rfl fun _ => rfl
      · exact .appends _ _ ⟨rfl, rfl⟩ rfl fun _ => rfl

theorem Recorder.Branch.moves {textSize : Line C → ℕ} {append terminal close : Attempt}
    {s' : Server C} (h : Recorder.Branch textSize s i r append terminal close s')
    (happend : AppendSound append terminal close) (hhandler : HandlerSound false terminal close) :
    Recorder.Moves s i r s' := by
  cases h with
  | looks r' hsame hseq hphase => exact .looks r' hsame hphase
  | fails r' message hsame hseq =>
    -- A recorder that gives up writes a terminal entry first, so its journal ends.
    have hw : Handle.Writes { file := s.file r.inode } (s.file r'.inode) [] := by
      rw [hsame.2]
      exact Handle.Writes.init _
    exact (failRecording_moves hw (fun ht => Bool.noConfusion ht) hhandler).of_same hsame
  | appends r' entry hsame hseq hentry => exact (appendEntry_moves happend).of_same hsame

end

/-! ### Files -/

/-- Whole lines, and entries after the first. -/
def Whole (file : File C) : Prop :=
  (∀ fragment ∈ file, fragment.isWhole = true) ∧
    ∀ fragment ∈ file.tail, ∃ e, fragment = .whole (.entry e)

theorem mem_entries {es : List (Entry C)} {fragment : Fragment C} (h : fragment ∈ entries es) :
    ∃ e, fragment = .whole (.entry e) := by
  obtain ⟨e, _, rfl⟩ := List.mem_map.mp h
  exact ⟨e, rfl⟩

theorem Whole.extends {base file : File C} (h : Whole base) (hfile : Extends base file) :
    Whole file := by
  obtain ⟨es, rfl⟩ := hfile
  refine ⟨fun fragment hmem => ?_, fun fragment hmem => ?_⟩
  · rcases List.mem_append.mp hmem with hmem | hmem
    · exact h.1 fragment hmem
    · obtain ⟨e, rfl⟩ := mem_entries hmem
      rfl
  · rcases base with _ | ⟨first, base⟩
    · exact mem_entries (List.mem_of_mem_tail hmem)
    · rcases List.mem_append.mp hmem with hmem | hmem
      · exact h.2 fragment hmem
      · exact mem_entries hmem

theorem readLine_whole (textSize : Line C → ℕ) {file : File C} {p : ℕ} {line : Line C}
    (h : file[p]? = some (.whole line)) : readLine textSize file p = some (some line) := by
  obtain ⟨hlt, hget⟩ := List.getElem?_eq_some_iff.mp h
  rw [readLine, List.drop_eq_getElem_cons hlt, hget]

theorem readLine_end (textSize : Line C → ℕ) {file : File C} {p : ℕ} (h : file.length ≤ p) :
    readLine textSize file p = none := by
  rw [readLine, List.drop_eq_nil_of_le h]

section

variable {s s' : Server C}

theorem Server.file_setFile (s : Server C) (i j : ℕ) (file : File C) :
    (s.setFile i file).file j = s.file j ∨
      j = i ∧ i < s.files.length ∧ (s.setFile i file).file j = file := by
  by_cases hij : j = i
  · subst hij
    by_cases hlt : j < s.files.length
    · right
      refine ⟨rfl, hlt, ?_⟩
      simp [Server.file, Server.setFile, hlt]
    · left
      simp [Server.file, Server.setFile, List.set_eq_of_length_le (Nat.le_of_not_lt hlt)]
  · left
    simp [Server.file, Server.setFile, List.getElem?_set_ne (Ne.symm hij)]

theorem Server.file_setFile_self (s : Server C) {i : ℕ} (file : File C)
    (hi : i < s.files.length) : (s.setFile i file).file i = file := by
  simp [Server.file, Server.setFile, hi]

/-- Files are added and extended. -/
structure Grows (s s' : Server C) : Prop where
  length : s.files.length ≤ s'.files.length
  file : ∀ i < s.files.length, Extends (s.file i) (s'.file i)

theorem Grows.of_eq (h : s'.files = s.files) : Grows s s' := by
  refine ⟨Nat.le_of_eq (by rw [h]), fun i _ => ?_⟩
  rw [Server.file, Server.file, h]
  exact Extends.refl _

theorem Grows.setFile {i : ℕ} {file : File C} (h : Extends (s.file i) file) :
    Grows s (s.setFile i file) := by
  refine ⟨by simp [Server.setFile], fun j _ => ?_⟩
  rcases s.file_setFile i j file with heq | ⟨rfl, _, heq⟩
  · rw [heq]
    exact Extends.refl _
  · rw [heq]
    exact h

theorem Server.file_concat (s : Server C) (file : File C) (paths : UUID → Option ℕ) :
    { s with files := s.files ++ [file], paths := paths }.file s.files.length = file := by
  simp [Server.file]

theorem Grows.concat (file : File C) (paths : UUID → Option ℕ) :
    Grows s { s with files := s.files ++ [file], paths := paths } := by
  refine ⟨by simp, fun i hi => ?_⟩
  have heq : { s with files := s.files ++ [file], paths := paths }.file i = s.file i := by
    simp [Server.file, List.getElem?_append_left hi]
  rw [heq]
  exact Extends.refl _

theorem Grows.trans {s'' : Server C} (h : Grows s s') (h' : Grows s' s'') : Grows s s'' := by
  refine ⟨Nat.le_trans h.length h'.length, fun i hi => ?_⟩
  obtain ⟨es, hes⟩ := h.file i hi
  obtain ⟨es', hes'⟩ := h'.file i (Nat.lt_of_lt_of_le hi h.length)
  exact ⟨es ++ es', by rw [hes', hes, entries_append, List.append_assoc]⟩

/-! ### The invariant -/

/-- The recorder's last entry is in the file. -/
def RecorderPhase.finished : RecorderPhase → Bool
  | .notifying .finish | .notifying .handled | .lastNotifying => true
  | _ => false

/-- The follower comes to the lock next, where it looks at the path. -/
def Follower.BeforeLock (f : Follower) : Prop :=
  f.phase = .locking ∨ f.phase = .deciding ∧ f.recording ≠ none

/-- What holds of a follower: its file is finished, or it waits for a running
recorder of this file, or it will finish the file itself. -/
structure FollowerInv (s : Server C) (f : Follower) : Prop where
  inode : f.inode < s.files.length
  header : 1 ≤ f.position
  position : f.position ≤ (s.file f.inode).length
  unread : ∀ k < f.position, ∀ fragment, (s.file f.inode)[k]? = some fragment →
    fragment.isTerminal = false
  served : HasTerminal (s.file f.inode) ∨
    (∃ i r, f.recording = some i ∧ s.recorders[i]? = some r ∧ r.requestId = f.requestId ∧
      r.inode = f.inode ∧ r.phase ≠ .ended) ∨
    (f.recording = none ∧ s.paths f.requestId = some f.inode)
  waiting : f.phase = .waiting → ∃ i r, f.recording = some i ∧ s.recorders[i]? = some r ∧
    r.phase ≠ .ended
  locking : f.phase = .locking → f.recording ≠ none
  journal : f.phase ≠ .reading → ∀ i, f.recording = some i →
    ∃ r, s.recorders[i]? = some r ∧ r.inode = f.inode
  path : f.BeforeLock → s.paths f.requestId = some f.inode
  going : f.phase ≠ .raised

/-- What holds of the server in every reachable state. -/
structure Inv (s : Server C) : Prop where
  files : ∀ i, Whole (s.file i)
  paths : ∀ q inode, s.paths q = some inode → inode < s.files.length
  table : ∀ q i, s.recordings q = some i → ∃ r, s.recorders[i]? = some r ∧ r.requestId = q ∧
    s.paths q = some r.inode ∧ r.phase ≠ .lastNotifying ∧ r.phase ≠ .ended
  listed : ∀ (i : ℕ) (r : Recorder C), s.recorders[i]? = some r → r.phase ≠ .lastNotifying →
    r.phase ≠ .ended → s.recordings r.requestId = some i
  recorders : ∀ (i : ℕ) (r : Recorder C), s.recorders[i]? = some r → r.inode < s.files.length
  terminal : ∀ (i : ℕ) (r : Recorder C), s.recorders[i]? = some r → r.phase.finished = true →
    HasTerminal (s.file r.inode)
  followers : ∀ (i : ℕ) (f : Follower), s.followers[i]? = some f → f.phase ≠ .torn ∧
    (f.connected = true → FollowerInv s f)

/-- A follower that does not move, while files grow and recorders go on. -/
theorem FollowerInv.keep {f : Follower} (h : FollowerInv s f) (hgrows : Grows s s')
    (hrecorders : ∀ i r, f.recording = some i → s.recorders[i]? = some r →
      ∃ r', s'.recorders[i]? = some r' ∧ r.Same r' ∧ (r.phase ≠ .ended →
        r'.phase ≠ .ended ∨ HasTerminal (s'.file r.inode) ∧ f.phase ≠ .waiting))
    (hpaths : s.paths f.requestId = some f.inode →
      HasTerminal (s'.file f.inode) ∧ ¬ f.BeforeLock ∨
      s'.paths f.requestId = some f.inode) : FollowerInv s' f := by
  obtain ⟨es, heq⟩ := hgrows.file f.inode h.inode
  refine ⟨Nat.lt_of_lt_of_le h.inode hgrows.length, h.header, ?_, fun k hk fragment hget => ?_, ?_,
    fun hwaiting => ?_, h.locking, fun hphase i hrec => ?_, fun hlock => ?_, h.going⟩
  · rw [heq, List.length_append]
    exact Nat.le_add_right_of_le h.position
  · rw [heq, List.getElem?_append_left (Nat.lt_of_lt_of_le hk h.position)] at hget
    exact h.unread k hk fragment hget
  · rcases h.served with hterminal | ⟨i, r, hrec, hget, hrequest, hinode, hlive⟩ | ⟨hnone, hpath⟩
    · exact .inl (Extends.hasTerminal ⟨es, heq⟩ hterminal)
    · obtain ⟨r', hget', ⟨hrequest', hinode'⟩, hlives⟩ := hrecorders i r hrec hget
      rcases hlives hlive with hlive' | ⟨hterminal, _⟩
      · exact .inr (.inl ⟨i, r', hrec, hget', hrequest'.trans hrequest, hinode'.trans hinode, hlive'⟩)
      · rw [hinode] at hterminal
        exact .inl hterminal
    · rcases hpaths hpath with ⟨hterminal, _⟩ | hpath'
      · exact .inl hterminal
      · exact .inr (.inr ⟨hnone, hpath'⟩)
  · obtain ⟨i, r, hrec, hget, hlive⟩ := h.waiting hwaiting
    obtain ⟨r', hget', _, hlives⟩ := hrecorders i r hrec hget
    rcases hlives hlive with hlive' | ⟨_, hno⟩
    · exact ⟨i, r', hrec, hget', hlive'⟩
    · exact absurd hwaiting hno
  · obtain ⟨r, hget, hinode⟩ := h.journal hphase i hrec
    obtain ⟨r', hget', hsame, _⟩ := hrecorders i r hrec hget
    exact ⟨r', hget', hsame.2.trans hinode⟩
  · rcases hpaths (h.path hlock) with ⟨_, hno⟩ | hpath'
    · exact absurd hlock hno
    · exact hpath'

theorem Server.setFile_file (s : Server C) (i : ℕ) : s.setFile i (s.file i) = s := by
  by_cases hi : i < s.files.length
  · have hget : s.file i = s.files[i] := by simp [Server.file, hi]
    rw [Server.setFile, hget, List.set_getElem_self]
  · rw [Server.setFile, List.set_eq_of_length_le (Nat.le_of_not_lt hi)]

/-- After the end of the process nobody is connected. -/
theorem Inv.restart (h : Inv s) : Inv s.restart := by
  have hended : ∀ (i : ℕ) (r : Recorder C), s.restart.recorders[i]? = some r →
      ∃ r₀, s.recorders[i]? = some r₀ ∧ r = { r₀ with phase := .ended } := by
    intro i r hi
    simp only [Server.restart, List.getElem?_map, Option.map_eq_some_iff] at hi
    obtain ⟨r₀, hi, rfl⟩ := hi
    exact ⟨r₀, hi, rfl⟩
  refine ⟨h.files, h.paths, fun q i hq => ?_, fun i r hi _ hlive => ?_, fun i r hi => ?_,
    fun i r hi hphase => ?_, fun i f hi => ?_⟩
  · simp [Server.restart] at hq
  · obtain ⟨r₀, _, rfl⟩ := hended i r hi
    exact absurd rfl hlive
  · obtain ⟨r₀, hold, rfl⟩ := hended i r hi
    exact h.recorders i r₀ hold
  · obtain ⟨r₀, _, rfl⟩ := hended i r hi
    exact absurd hphase Bool.false_ne_true
  · simp only [Server.restart, List.getElem?_map, Option.map_eq_some_iff] at hi
    obtain ⟨f₀, hi, rfl⟩ := hi
    have hold := (h.followers i f₀ hi).1
    by_cases hconnected : f₀.connected = true
    · rw [if_pos hconnected]
      exact ⟨fun hphase => FollowPhase.noConfusion hphase, fun hno => Bool.noConfusion hno⟩
    · rw [if_neg hconnected]
      exact ⟨hold, fun hyes => absurd hyes hconnected⟩

theorem Inv.setFile (h : Inv s) {i : ℕ} {file : File C} (hfile : Extends (s.file i) file) :
    Inv (s.setFile i file) := by
  have hgrows := Grows.setFile hfile
  refine ⟨fun j => ?_, fun q inode hq => ?_, h.table, h.listed, fun j r hj => ?_,
    fun j r hj hphase => ?_, fun j f hj => ?_⟩
  · rcases s.file_setFile i j file with heq | ⟨rfl, _, heq⟩
    · rw [heq]
      exact h.files j
    · rw [heq]
      exact (h.files j).extends hfile
  · exact Nat.lt_of_lt_of_le (h.paths q inode hq) hgrows.length
  · exact Nat.lt_of_lt_of_le (h.recorders j r hj) hgrows.length
  · exact (hgrows.file r.inode (h.recorders j r hj)).hasTerminal (h.terminal j r hj hphase)
  · obtain ⟨htorn, hinv⟩ := h.followers j f hj
    refine ⟨htorn, fun hc => (hinv hc).keep hgrows (fun k r _ hk => ⟨r, hk, ⟨rfl, rfl⟩, .inl⟩)
      fun hpath => .inr hpath⟩

theorem update_cases {f : UUID → Option ℕ} {q q' : UUID} {x : Option ℕ} {y : ℕ}
    (h : Function.update f q x q' = some y) : q' = q ∧ x = some y ∨ q' ≠ q ∧ f q' = some y := by
  by_cases hq : q' = q
  · subst hq
    rw [Function.update_self] at h
    exact .inl ⟨rfl, h⟩
  · rw [Function.update_of_ne hq] at h
    exact .inr ⟨hq, h⟩

/-- A running recorder goes on, and may take its recording off the table. -/
theorem Inv.setRecorder (h : Inv s) {i : ℕ} {r r' : Recorder C} {recordings : UUID → Option ℕ}
    (hi : s.recorders[i]? = some r) (hrunning : r.phase ≠ .lastNotifying ∧ r.phase ≠ .ended)
    (hsame : r.Same r') (hlive : r'.phase ≠ .ended)
    (hterminal : r'.phase.finished = true → HasTerminal (s.file r.inode))
    (htable : recordings = s.recordings ∧ r'.phase ≠ .lastNotifying ∨
      recordings = Function.update s.recordings r.requestId none ∧ r'.phase = .lastNotifying) :
    Inv ({ s with recordings := recordings }.setRecorder i r') := by
  have hself : (s.recorders.set i r')[i]? = some r' := by
    rw [List.getElem?_set_self (List.getElem?_eq_some_iff.mp hi).1]
  have hmine := h.listed i r hi hrunning.1 hrunning.2
  refine ⟨h.files, h.paths, fun q j hq => ?_, fun j r₀ hj hlast hended => ?_, fun j r₀ hj => ?_,
    fun j r₀ hj hphase => ?_, fun j f hj => ?_⟩
  · -- The table still names the recorder, unless this step has taken it out.
    obtain ⟨hold, hlast⟩ : s.recordings q = some j ∧ (j = i → r'.phase ≠ .lastNotifying) := by
      rcases htable with ⟨rfl, hlast⟩ | ⟨rfl, _⟩
      · exact ⟨hq, fun _ => hlast⟩
      · rcases update_cases hq with ⟨_, hnone⟩ | ⟨hqr, hq⟩
        · exact absurd hnone.symm (Option.some_ne_none j)
        · -- Another request's recording is another recorder.
          refine ⟨hq, fun hji => ?_⟩
          obtain ⟨r₀, hget, hrequest, _⟩ := h.table q j hq
          rw [hji, hi] at hget
          rw [Option.some.inj hget] at hqr
          exact absurd hrequest.symm hqr
    obtain ⟨r₀, hget, hrequest, hpath, hphase⟩ := h.table q j hold
    by_cases hji : j = i
    · subst hji
      rw [hi] at hget
      obtain rfl := Option.some.inj hget
      exact ⟨r', hself, hsame.1.trans hrequest, by rw [hsame.2]; exact hpath, hlast rfl, hlive⟩
    · exact ⟨r₀, (List.getElem?_set_ne (Ne.symm hji)).trans hget, hrequest, hpath, hphase⟩
  · rcases List.getElem?_set_cases hj with ⟨rfl, rfl⟩ | ⟨hji, hold⟩
    · rcases htable with ⟨rfl, _⟩ | ⟨_, hno⟩
      · rw [hsame.1]
        exact hmine
      · exact absurd hno hlast
    · have hlisted := h.listed j r₀ hold hlast hended
      rcases htable with ⟨rfl, _⟩ | ⟨rfl, _⟩
      · exact hlisted
      · refine (Function.update_of_ne (fun hq => ?_) ..).trans hlisted
        rw [hq, hmine] at hlisted
        exact hji (Option.some.inj hlisted).symm
  · rcases List.getElem?_set_cases hj with ⟨rfl, rfl⟩ | ⟨_, hold⟩
    · rw [hsame.2]
      exact h.recorders j r hi
    · exact h.recorders j r₀ hold
  · rcases List.getElem?_set_cases hj with ⟨rfl, rfl⟩ | ⟨_, hold⟩
    · rw [hsame.2]
      exact hterminal hphase
    · exact h.terminal j r₀ hold hphase
  · obtain ⟨htorn, hinv⟩ := h.followers j f hj
    refine ⟨htorn, fun hc => (hinv hc).keep (Grows.of_eq rfl) (fun k r₀ _ hk => ?_)
      fun hpath => .inr hpath⟩
    by_cases hki : k = i
    · subst hki
      rw [hi] at hk
      obtain rfl := Option.some.inj hk
      exact ⟨r', hself, hsame, fun _ => .inl hlive⟩
    · exact ⟨r₀, (List.getElem?_set_ne (Ne.symm hki)).trans hk, ⟨rfl, rfl⟩, .inl⟩

theorem Inv.moves (h : Inv s) {i : ℕ} {r : Recorder C} (hi : s.recorders[i]? = some r)
    (hrunning : r.phase ≠ .lastNotifying ∧ r.phase ≠ .ended) (hm : Recorder.Moves s i r s') :
    Inv s' := by
  cases hm with
  | looks r' hsame hphase =>
    refine h.setRecorder hi hrunning hsame (by rw [hphase]; exact RecorderPhase.noConfusion)
      (fun hf => ?_) (.inl ⟨rfl, by rw [hphase]; exact RecorderPhase.noConfusion⟩)
    rw [hphase] at hf
    exact absurd hf Bool.false_ne_true
  | killed file hfile => exact (h.setFile hfile).restart
  | wrote file r' next hfile hsame hphase hterminal =>
    refine (h.setFile hfile).setRecorder hi hrunning hsame
      (by rw [hphase]; exact RecorderPhase.noConfusion) (fun hf => ?_)
      (.inl ⟨rfl, by rw [hphase]; exact RecorderPhase.noConfusion⟩)
    rw [s.file_setFile_self file (h.recorders i r hi)]
    refine hterminal fun hnext => ?_
    rw [hphase, hnext] at hf
    exact Bool.noConfusion hf
  | closed file r' hfile hsame hphase hterminal =>
    refine (h.setFile hfile).setRecorder hi hrunning hsame
      (by rw [hphase]; exact RecorderPhase.noConfusion) (fun _ => ?_) (.inr ⟨rfl, hphase⟩)
    rw [s.file_setFile_self file (h.recorders i r hi)]
    exact hterminal

end

/-! ### Steps -/

/-- The condition on a step.  An attempt that the step does not come to counts as
successful. -/
def Sound (s : Server C) : Action C → Prop
  | .start _ _ header _ => header.leavesPart false = false
  | .openJournal _ opened => opened = true
  | .record _ _ append terminal close =>
    AppendSound append terminal close ∧ HandlerSound false terminal close
  | .notify _ close => CloseSound false close
  | .cancelNotify i terminal close => HandlerSound false terminal close ∧ CloseSound false close ∧
      -- Nobody would be told of the end.
      ∀ r, s.recorders[i]? = some r → r.phase ≠ .lastNotifying
  -- The exception of the write would leave the WebSocket open.
  | .decide _ attempt => CloseSound false attempt
  | .remove requestId => s.recordings requestId = none → ∀ f ∈ s.followers, f.connected = true →
      f.requestId = requestId → s.paths requestId = some f.inode →
      -- It does not write to a new file, nor miss the path when it has the lock.
      HasTerminal (s.file f.inode) ∧ ¬ f.BeforeLock
  | _ => True

section

variable {s : Server C} {i : ℕ}

/-- One follower moves; only it changes. -/
theorem Inv.setFollower (h : Inv s) {f : Follower} (htorn : f.phase ≠ .torn)
    (hf : f.connected = true → FollowerInv s f) : Inv (s.setFollower i f) := by
  refine ⟨h.files, h.paths, h.table, h.listed, h.recorders, h.terminal, fun j f' hj => ?_⟩
  have hkeep : ∀ f' : Follower, FollowerInv s f' → FollowerInv (s.setFollower i f) f' :=
    fun f' hf' => hf'.keep (Grows.of_eq rfl) (fun k r _ hk => ⟨r, hk, ⟨rfl, rfl⟩, .inl⟩)
      fun hpath => .inr hpath
  rcases List.getElem?_set_cases hj with ⟨rfl, rfl⟩ | ⟨_, hold⟩
  · exact ⟨htorn, fun hc => hkeep f' (hf hc)⟩
  · obtain ⟨htorn', hinv⟩ := h.followers j f' hold
    exact ⟨htorn', fun hc => hkeep f' (hinv hc)⟩

theorem FollowerInv.setPhase {f : Follower} (h : FollowerInv s f) {phase : FollowPhase}
    (hwaiting : phase = .waiting → ∃ i r, f.recording = some i ∧ s.recorders[i]? = some r ∧
      r.phase ≠ .ended) (hlocking : phase = .locking → f.recording ≠ none)
    (hreading : phase = .reading ∨ f.phase ≠ .reading)
    (hpath : phase = .locking ∨ phase = .deciding → s.paths f.requestId = some f.inode)
    (hgoing : phase ≠ .raised) : FollowerInv s { f with phase := phase } :=
  ⟨h.inode, h.header, h.position, h.unread, h.served, hwaiting, hlocking,
    fun hphase => h.journal (hreading.resolve_left hphase), fun hlock => hpath (hlock.imp_right And.left),
    hgoing⟩

theorem FollowerInv.reading {f : Follower} (h : FollowerInv s f) :
    FollowerInv s { f with phase := .reading } :=
  h.setPhase (fun hp => FollowPhase.noConfusion hp) (fun hp => FollowPhase.noConfusion hp) (.inl rfl)
    (fun hp => hp.elim FollowPhase.noConfusion FollowPhase.noConfusion) FollowPhase.noConfusion

/-- The WebSocket does not matter to `follow`. -/
theorem FollowerInv.setOpened {f : Follower} (h : FollowerInv s f) (opened : Bool) :
    FollowerInv s { f with opened := opened } :=
  ⟨h.inode, h.header, h.position, h.unread, h.served, h.waiting, h.locking, h.journal, h.path, h.going⟩

theorem Inv.notifyAll (h : Inv s) : Inv (s.notifyAll i) := by
  refine ⟨h.files, h.paths, h.table, h.listed, h.recorders, h.terminal, fun j f hj => ?_⟩
  simp only [Server.notifyAll, List.getElem?_map, Option.map_eq_some_iff] at hj
  obtain ⟨f₀, hj, rfl⟩ := hj
  obtain ⟨htorn, hinv⟩ := h.followers j f₀ hj
  have hkeep : ∀ f : Follower, FollowerInv s f → FollowerInv (s.notifyAll i) f :=
    fun f hf => hf.keep (Grows.of_eq rfl) (fun k r _ hk => ⟨r, hk, ⟨rfl, rfl⟩, .inl⟩)
      fun hpath => .inr hpath
  by_cases hwakes : f₀.recording = some i ∧ f₀.phase = .waiting
  · rw [if_pos hwakes]
    have hc : f₀.connected = true := by simp [Follower.connected, hwakes.2]
    exact ⟨fun hp => FollowPhase.noConfusion hp, fun _ => hkeep _ (hinv hc).reading⟩
  · rw [if_neg hwakes]
    exact ⟨htorn, fun hc => hkeep _ (hinv hc)⟩

/-- The recorder ends; the followers have been told. -/
theorem Inv.endRecorder (h : Inv s) {r : Recorder C} (hi : s.recorders[i]? = some r)
    (hphase : r.phase = .lastNotifying) :
    Inv ((s.notifyAll i).setRecorder i { r with phase := .ended }) := by
  have hn := h.notifyAll (i := i)
  have hterminal := h.terminal i r hi (by rw [hphase]; rfl)
  have hself : (s.recorders.set i { r with phase := .ended })[i]? =
      some { r with phase := .ended } := by
    rw [List.getElem?_set_self (List.getElem?_eq_some_iff.mp hi).1]
  refine ⟨hn.files, hn.paths, fun q j hq => ?_, fun j r₀ hj hlast hlive => ?_, fun j r₀ hj => ?_,
    fun j r₀ hj hfin => ?_, fun j f hj => ?_⟩
  · obtain ⟨r₀, hget, hrequest, hpath, hlast, hlive⟩ := h.table q j hq
    have hji : j ≠ i := by
      rintro rfl
      rw [hi] at hget
      obtain rfl := Option.some.inj hget
      exact hlast hphase
    exact ⟨r₀, (List.getElem?_set_ne (Ne.symm hji)).trans hget, hrequest, hpath, hlast, hlive⟩
  · rcases List.getElem?_set_cases hj with ⟨rfl, rfl⟩ | ⟨_, hold⟩
    · exact absurd rfl hlive
    · exact h.listed j r₀ hold hlast hlive
  · rcases List.getElem?_set_cases hj with ⟨rfl, rfl⟩ | ⟨_, hold⟩
    · exact h.recorders j r hi
    · exact h.recorders j r₀ hold
  · rcases List.getElem?_set_cases hj with ⟨rfl, rfl⟩ | ⟨_, hold⟩
    · exact absurd hfin Bool.false_ne_true
    · exact h.terminal j r₀ hold hfin
  · obtain ⟨htorn, hinv⟩ := hn.followers j f hj
    refine ⟨htorn, fun hc => (hinv hc).keep (Grows.of_eq rfl) (fun k r₀ hrec hk => ?_)
      fun hpath => .inr hpath⟩
    by_cases hki : k = i
    · subst hki
      refine ⟨_, hself, ?_, fun _ => .inr ⟨?_, ?_⟩⟩
      · rw [Option.some.inj (hi.symm.trans hk)]
        exact ⟨rfl, rfl⟩
      · rw [← Option.some.inj (hi.symm.trans hk)]
        exact hterminal
      · -- It was woken just now.
        simp only [Server.setRecorder, Server.notifyAll, List.getElem?_map,
          Option.map_eq_some_iff] at hj
        obtain ⟨f₀, _, rfl⟩ := hj
        by_cases hwakes : f₀.recording = some k ∧ f₀.phase = .waiting
        · rw [if_pos hwakes]
          exact FollowPhase.noConfusion
        · rw [if_neg hwakes] at hrec ⊢
          exact fun hw => hwakes ⟨hrec, hw⟩
    · exact ⟨r₀, (List.getElem?_set_ne (Ne.symm hki)).trans hk, ⟨rfl, rfl⟩, .inl⟩

/-- A journal without a torn header. -/
theorem header_file (line : Line C) {header : Attempt} (h : header.leavesPart false = false) :
    (Handle.write { file := [] } line header).1.file = [] ∨
      (Handle.write { file := [] } line header).1.file = [.whole line] := by
  have hput : ∀ lines, (Handle.put { file := [], pending := [line] } lines 0).file = [] ∨
      (Handle.put { file := [], pending := [line] } lines 0).file = [.whole line] := by
    intro lines
    rw [Handle.put_whole _ (.inl rfl)]
    rcases lines with _ | n
    · exact .inl rfl
    · exact .inr (by simp)
  cases header with
  | ok => exact hput _
  | raised lines torn kept exc =>
    obtain rfl : torn = 0 := by simpa [Attempt.leavesPart] using h
    cases kept with
    | true => exact hput lines
    | false => exact hput lines
  | killed lines torn =>
    obtain rfl : torn = 0 := by simpa [Attempt.leavesPart] using h
    exact hput lines

theorem whole_header {file : File C} (line : Line C) (h : file = [] ∨ file = [.whole line]) :
    Whole file := by
  rcases h with rfl | rfl
  · exact ⟨fun _ hm => absurd hm List.not_mem_nil, fun _ hm => absurd hm List.not_mem_nil⟩
  · refine ⟨fun fragment hm => ?_, fun _ hm => absurd hm List.not_mem_nil⟩
    rw [List.mem_singleton.mp hm]
    rfl

/-- A new file takes a path that nobody has. -/
theorem Inv.newFile (h : Inv s) {q : UUID} {file : File C} (hq : s.paths q = none)
    (hfile : Whole file) : Inv { s with
      files := s.files ++ [file]
      paths := Function.update s.paths q (some s.files.length) } := by
  have hgrows : Grows s { s with
      files := s.files ++ [file]
      paths := Function.update s.paths q (some s.files.length) } := Grows.concat file _
  have hne : ∀ q' inode, s.paths q' = some inode → q' ≠ q := by
    rintro q' inode hq' rfl
    rw [hq] at hq'
    exact absurd hq'.symm (Option.some_ne_none inode)
  refine ⟨fun j => ?_, fun q' inode hq' => ?_, fun q' j hq' => ?_, h.listed, fun j r hj => ?_,
    fun j r hj hfin => ?_, fun j f hj => ?_⟩
  · rcases Nat.lt_trichotomy j s.files.length with hlt | rfl | hgt
    · simp only [Server.file, List.getD_eq_getElem?_getD, List.getElem?_append_left hlt]
      exact h.files j
    · rw [Server.file_concat]
      exact hfile
    · have hnone : (s.files ++ [file])[j]? = none := by
        rw [List.getElem?_eq_none_iff, List.length_append, List.length_singleton]
        omega
      simp only [Server.file, List.getD_eq_getElem?_getD, hnone, Option.getD_none]
      exact whole_header (.header q q 0) (.inl rfl)
  · rw [List.length_append, List.length_singleton]
    rcases update_cases hq' with ⟨_, hlen⟩ | ⟨_, hold⟩
    · have := Option.some.inj hlen
      omega
    · have := h.paths q' inode hold
      omega
  · obtain ⟨r, hget, hrequest, hpath, hphase⟩ := h.table q' j hq'
    exact ⟨r, hget, hrequest, (Function.update_of_ne (hne q' _ hpath) _ _).trans hpath, hphase⟩
  · exact Nat.lt_of_lt_of_le (h.recorders j r hj) hgrows.length
  · exact (hgrows.file r.inode (h.recorders j r hj)).hasTerminal (h.terminal j r hj hfin)
  · obtain ⟨htorn, hinv⟩ := h.followers j f hj
    refine ⟨htorn, fun hc => (hinv hc).keep hgrows
      (fun k r _ hk => ⟨r, hk, ⟨rfl, rfl⟩, .inl⟩) fun hpath => .inr ?_⟩
    exact (Function.update_of_ne (hne _ _ hpath) _ _).trans hpath

/-- A recorder starts for the file that has the path. -/
theorem Inv.newRecorder (h : Inv s) {r : Recorder C} {sent : List UUID}
    (hpath : s.paths r.requestId = some r.inode) (hphase : r.phase = .opening)
    (hfree : s.recordings r.requestId = none) : Inv { s with
      sent := sent
      recordings := Function.update s.recordings r.requestId (some s.recorders.length)
      recorders := s.recorders ++ [r] } := by
  -- The new recorder comes behind the ones there are.
  have hold : ∀ (j : ℕ) (r₀ : Recorder C), s.recorders[j]? = some r₀ →
      (s.recorders ++ [r])[j]? = some r₀ := fun j r₀ hj =>
    (List.getElem?_append_left (List.getElem?_eq_some_iff.mp hj).1).trans hj
  refine ⟨h.files, h.paths, fun q j hq => ?_, fun j r₀ hj hlast hlive => ?_, fun j r₀ hj => ?_,
    fun j r₀ hj hfin => ?_, fun j f hj => ?_⟩
  · -- The request is mapped to it, and it was mapped to none before.
    rcases update_cases hq with ⟨hqr, hlen⟩ | ⟨_, hq⟩
    · obtain rfl := Option.some.inj hlen
      refine ⟨r, List.getElem?_concat_length, hqr.symm, by rw [hqr]; exact hpath, ?_, ?_⟩
      · rw [hphase]
        exact RecorderPhase.noConfusion
      · rw [hphase]
        exact RecorderPhase.noConfusion
    · obtain ⟨r₀, hget, hrest⟩ := h.table q j hq
      exact ⟨r₀, hold j r₀ hget, hrest⟩
  · rcases List.getElem?_concat_cases hj with ⟨rfl, rfl⟩ | ⟨_, hj⟩
    · exact Function.update_self ..
    · -- No older recorder is listed under the request, which had no recording.
      have hlisted := h.listed j r₀ hj hlast hlive
      refine (Function.update_of_ne (fun hq => ?_) ..).trans hlisted
      rw [hq, hfree] at hlisted
      exact absurd hlisted.symm (Option.some_ne_none j)
  · rcases List.getElem?_concat_cases hj with ⟨_, rfl⟩ | ⟨_, hj⟩
    · exact h.paths _ _ hpath
    · exact h.recorders j r₀ hj
  · rcases List.getElem?_concat_cases hj with ⟨_, rfl⟩ | ⟨_, hj⟩
    · rw [hphase] at hfin
      exact absurd hfin Bool.false_ne_true
    · exact h.terminal j r₀ hj hfin
  · obtain ⟨htorn, hinv⟩ := h.followers j f hj
    exact ⟨htorn, fun hc => (hinv hc).keep (Grows.of_eq rfl)
      (fun k r₀ _ hk => ⟨r₀, hold k r₀ hk, ⟨rfl, rfl⟩, .inl⟩) fun hp => .inr hp⟩

theorem Inv.start (h : Inv s) {textSize : Line C → ℕ} {q kernelId : UUID} {header : Attempt}
    {executed : Bool} (hsound : header.leavesPart false = false) :
    Inv (s.start textSize q kernelId header executed) := by
  rcases hq : s.paths q with _ | inode
  swap
  · rw [Server.start, if_pos (by rw [hq]; rfl)]
    exact h
  have hfree : s.recordings q = none := by
    rcases hrec : s.recordings q with _ | k
    · rfl
    · obtain ⟨r, _, _, hpath, _⟩ := h.table q k hrec
      rw [hq] at hpath
      exact absurd hpath.symm (Option.some_ne_none _)
  have hfile := whole_header (.header q kernelId s.serverId)
    (header_file (.header q kernelId s.serverId : Line C) hsound)
  simp only [Server.start, hq, Option.isSome_none, Bool.false_eq_true, if_false]
  revert hfile
  generalize Handle.write { file := [] } (.header q kernelId s.serverId : Line C) header = written
  obtain ⟨handle, result⟩ := written
  intro hfile
  have hnew := h.newFile hq hfile
  cases result with
  | ok =>
    cases executed with
    | false => exact hnew
    | true =>
      let r : Recorder C := {
        requestId := q
        inode := s.files.length
        size := textSize (.header q kernelId s.serverId) + 1 }
      have hpath : Function.update s.paths q (some s.files.length) r.requestId = some r.inode :=
        Function.update_self ..
      exact hnew.newRecorder hpath rfl hfree
  | raised exc => exact hnew
  | killed => exact hnew.restart

theorem Inv.notify (h : Inv s) {r : Recorder C} (hi : s.recorders[i]? = some r) {close : Attempt}
    (hsound : CloseSound false close) : Inv (s.notify i r close) := by
  have hn := h.notifyAll (i := i)
  have hclose : (r.phase ≠ .lastNotifying ∧ r.phase ≠ .ended) → HasTerminal (s.file r.inode) →
      Inv ((s.notifyAll i).closeJournal i r { file := s.file r.inode } close) := by
    intro hrunning hterminal
    have hw : Handle.Writes { file := s.file r.inode } ((s.notifyAll i).file r.inode) [] :=
      Handle.Writes.init _
    refine hn.moves hi hrunning (closeJournal_moves hw (fun ht => Bool.noConfusion ht) ?_ hsound)
    exact Extends.hasTerminal ⟨[], rfl⟩ hterminal
  rcases hphase : r.phase with _ | _ | next | _ | _
  · simp only [Server.notify, hphase]
    exact h
  · simp only [Server.notify, hphase]
    exact h
  · cases next with
    | goOn =>
      simp only [Server.notify, hphase]
      exact hn.moves hi (by rw [hphase]; exact ⟨RecorderPhase.noConfusion, RecorderPhase.noConfusion⟩)
        (.looks { r with phase := .recording } ⟨rfl, rfl⟩ rfl)
    | finish =>
      simp only [Server.notify, hphase]
      exact hclose (by rw [hphase]; exact ⟨RecorderPhase.noConfusion, RecorderPhase.noConfusion⟩)
        (h.terminal i r hi (by rw [hphase]; rfl))
    | handled =>
      simp only [Server.notify, hphase]
      exact hclose (by rw [hphase]; exact ⟨RecorderPhase.noConfusion, RecorderPhase.noConfusion⟩)
        (h.terminal i r hi (by rw [hphase]; rfl))
  · simp only [Server.notify, hphase]
    exact h.endRecorder hi hphase
  · simp only [Server.notify, hphase]
    exact h

theorem Inv.cancelNotify (h : Inv s) {r : Recorder C} (hi : s.recorders[i]? = some r)
    {terminal close : Attempt} (hhandler : HandlerSound false terminal close)
    (hsound : CloseSound false close) (hlast : r.phase ≠ .lastNotifying) :
    Inv (s.cancelNotify i r terminal close) := by
  have hw : Handle.Writes { file := s.file r.inode } (s.file r.inode) [] :=
    Handle.Writes.init _
  rw [Server.cancelNotify]
  split
  case h_1 hphase =>
    refine h.moves hi (by rw [hphase]; exact ⟨RecorderPhase.noConfusion, RecorderPhase.noConfusion⟩)
      (closeJournal_moves hw (fun ht => Bool.noConfusion ht) ?_ hsound)
    exact Extends.hasTerminal ⟨[], rfl⟩ (h.terminal i r hi (by rw [hphase]; rfl))
  case h_2 next hne hphase =>
    exact h.moves hi (by rw [hphase]; exact ⟨RecorderPhase.noConfusion, RecorderPhase.noConfusion⟩)
      (failRecording_moves hw (fun ht => Bool.noConfusion ht) hhandler)
  case h_3 hphase => exact absurd hphase hlast
  case h_4 => exact h

theorem Inv.connect (h : Inv s) (textSize : Line C → ℕ) (q kernelId : UUID) (after : ℕ) :
    Inv (s.connect textSize q kernelId after) := by
  rcases hq : s.paths q with _ | inode
  · simp only [Server.connect, hq]
    exact h
  -- The first line has to be a header of this Kernel; any other file opens no follower.
  have hwhole := h.files inode
  rcases hhead : (s.file inode)[0]? with _ | fragment
  · have hline := readLine_end textSize (List.getElem?_eq_none_iff.mp hhead)
    simp only [Server.connect, hq, hline]
    exact h
  have hmem : fragment ∈ s.file inode := List.mem_of_getElem? hhead
  cases fragment with
  | torn line bytes => exact absurd (hwhole.1 _ hmem) Bool.false_ne_true
  | whole line =>
    have hline := readLine_whole textSize hhead
    cases line with
    | entry e =>
      simp only [Server.connect, hq, hline]
      exact h
    | header requestId kernel serverId =>
      simp only [Server.connect, hq, hline]
      by_cases hkernel : kernel ≠ kernelId
      · rw [if_pos hkernel]
        exact h
      rw [if_neg hkernel]
      refine ⟨h.files, h.paths, h.table, h.listed, h.recorders, h.terminal, fun j f hj => ?_⟩
      -- The followers that are there lose nothing by one more.
      have hkeep : ∀ f : Follower, FollowerInv s f → FollowerInv { s with
          followers := s.followers ++ [{
            requestId := q, inode := inode, after := after, recording := s.recordings q }] } f :=
        fun f hf => hf.keep (Grows.of_eq rfl)
          (fun k r _ hk => ⟨r, hk, ⟨rfl, rfl⟩, .inl⟩) fun hpath => .inr hpath
      rcases List.getElem?_concat_cases hj with ⟨_, rfl⟩ | ⟨_, hj⟩
      swap
      · obtain ⟨htorn, hinv⟩ := h.followers j f hj
        exact ⟨htorn, fun hc => hkeep f (hinv hc)⟩
      -- The new one starts behind the header, with the recording of the request if it has one.
      refine ⟨FollowPhase.noConfusion, fun _ => hkeep _ ⟨h.paths q inode hq, Nat.le_refl 1, ?_, ?_, ?_,
        fun hp => FollowPhase.noConfusion hp, fun hp => FollowPhase.noConfusion hp,
        fun hp => absurd rfl hp,
        fun hp => hp.elim (fun hp => FollowPhase.noConfusion hp) fun hp => FollowPhase.noConfusion hp.1,
        FollowPhase.noConfusion⟩⟩
      · exact List.length_pos_of_mem hmem
      · intro k hk fragment hget
        obtain rfl : k = 0 := Nat.lt_one_iff.mp hk
        rw [hhead] at hget
        rw [← Option.some.inj hget]
        rfl
      · rcases hrec : s.recordings q with _ | i
        · exact .inr (.inr ⟨rfl, hq⟩)
        · obtain ⟨r, hget, hrequest, hpath, _, hlive⟩ := h.table q i hrec
          rw [hq] at hpath
          exact .inr (.inl ⟨i, r, rfl, hget, hrequest, (Option.some.inj hpath).symm, hlive⟩)

/-- A follower that has read everything has read no terminal entry. -/
theorem FollowerInv.not_hasTerminal {f : Follower} (hf : FollowerInv s f)
    (hlen : (s.file f.inode).length ≤ f.position) : ¬ HasTerminal (s.file f.inode) := by
  rintro ⟨fragment, hmem, hterminal⟩
  obtain ⟨k, hk, rfl⟩ := List.getElem_of_mem hmem
  have := hf.unread k (by omega) _ (List.getElem?_eq_getElem hk)
  rw [this] at hterminal
  exact Bool.false_ne_true hterminal

/-- The recorder of a journal that is not finished is in the table, and the journal has
its path. -/
theorem Inv.path_of_recording (h : Inv s) {f : Follower} (hf : FollowerInv s f)
    (hno : ¬ HasTerminal (s.file f.inode)) {k : ℕ} (hrec : f.recording = some k) :
    s.paths f.requestId = some f.inode ∧ ∃ r, s.recorders[k]? = some r ∧ r.inode = f.inode := by
  rcases hf.served with hterminal | ⟨j, r, hrec', hr, hrequest, hinode, hlive⟩ | ⟨hnone, _⟩
  · exact absurd hterminal hno
  · obtain rfl := Option.some.inj (hrec.symm.trans hrec')
    have hlast : r.phase ≠ .lastNotifying := by
      intro hlast
      have hterminal := h.terminal k r hr (by rw [hlast]; rfl)
      rw [hinode] at hterminal
      exact hno hterminal
    obtain ⟨r', hr', _, hpath, _⟩ := h.table _ k (h.listed k r hr hlast hlive)
    obtain rfl := Option.some.inj (hr.symm.trans hr')
    rw [hrequest, hinode] at hpath
    exact ⟨hpath, r, hr, hinode⟩
  · rw [hnone] at hrec
    exact absurd hrec.symm (Option.some_ne_none k)

/-- One line, or the end of the file. -/
theorem FollowerInv.read (h : Inv s) {f : Follower} (hf : FollowerInv s f)
    (textSize : Line C → ℕ) (hphase : f.phase = .reading) :
    (f.read textSize (s.file f.inode)).1.phase = .ended ∨
      (f.read textSize (s.file f.inode)).1.phase ≠ .torn ∧
        FollowerInv s (f.read textSize (s.file f.inode)).1 := by
  rcases hget : (s.file f.inode)[f.position]? with _ | fragment
  · have hlen := List.getElem?_eq_none_iff.mp hget
    -- At the end of the file it has no terminal entry.
    have hno := hf.not_hasTerminal hlen
    simp only [Follower.read, readLine_end textSize hlen]
    refine .inr ⟨FollowPhase.noConfusion, hf.inode, hf.header, hf.position, hf.unread, hf.served,
      fun hp => FollowPhase.noConfusion hp, fun hp => FollowPhase.noConfusion hp,
      fun _ i hrec => (h.path_of_recording hf hno hrec).2, fun hlock => ?_, FollowPhase.noConfusion⟩
    rcases hlock with hp | ⟨_, hrec⟩
    · exact FollowPhase.noConfusion hp
    · obtain ⟨k, hrec⟩ := Option.ne_none_iff_exists'.mp hrec
      exact (h.path_of_recording hf hno hrec).1
  have hlt := (List.getElem?_eq_some_iff.mp hget).1
  obtain ⟨e, rfl⟩ : ∃ e, fragment = .whole (.entry e) := by
    refine (h.files f.inode).2 fragment ?_
    obtain ⟨position, hposition⟩ := Nat.exists_eq_add_of_le hf.header
    rw [hposition, Nat.add_comm, ← List.getElem?_tail] at hget
    exact List.mem_of_getElem? hget
  simp only [Follower.read, readLine_whole textSize hget]
  by_cases hterminal : e.isTerminal = true
  · rw [if_pos hterminal]
    exact .inl rfl
  · rw [if_neg hterminal]
    refine .inr ⟨?_, hf.inode, Nat.le_add_left 1 _, hlt, fun k hk fragment hk' => ?_, hf.served,
      hf.waiting, hf.locking, hf.journal, hf.path, hf.going⟩
    · simp only [hphase]
      exact FollowPhase.noConfusion
    · rcases Nat.lt_succ_iff_lt_or_eq.mp hk with hk | rfl
      · exact hf.unread k hk fragment hk'
      · rw [hget] at hk'
        rw [← Option.some.inj hk']
        exact Bool.not_eq_true _ ▸ hterminal

theorem Inv.read (h : Inv s) {f : Follower} (hi : s.followers[i]? = some f)
    (textSize : Line C → ℕ) (hphase : f.phase = .reading) : Inv (s.read textSize i f) := by
  have hc : f.connected = true := by simp [Follower.connected, hphase]
  have hread := ((h.followers i f hi).2 hc).read h textSize hphase
  rw [Server.read]
  generalize f.read textSize (s.file f.inode) = read at hread ⊢
  obtain ⟨f', frames⟩ := read
  rcases hread with hended | ⟨htorn, hinv⟩
  · have hended : f'.phase = .ended := hended
    refine h.setFollower ?_ fun hno => ?_
    · rw [hended]
      exact FollowPhase.noConfusion
    · rw [Follower.connected, hended] at hno
      exact absurd hno Bool.false_ne_true
  · exact h.setFollower htorn fun _ => hinv.setOpened _

/-- The last entry of an orphan. -/
theorem write_entry_file {base : File C} {e : Entry C} {attempt : Attempt}
    (hsound : attempt.leavesPart false = false) :
    Extends base (Handle.write { file := base } (.entry e) attempt).1.file := by
  obtain ⟨written, _, hfile⟩ := ((Handle.Writes.init base).push e).flush_file hsound
  exact ⟨written, hfile⟩

/-- The file that `_finish_orphan` opens. -/
theorem Inv.openOrphan (h : Inv s) (q : UUID) :
    Inv (s.openOrphan q).1 ∧ (s.openOrphan q).1.followers = s.followers := by
  rcases hq : s.paths q with _ | inode
  · simp only [Server.openOrphan, hq]
    exact ⟨h.newFile hq (whole_header (.header q q 0) (.inl rfl)), trivial⟩
  · simp only [Server.openOrphan, hq]
    exact ⟨h, trivial⟩

theorem Inv.finishOrphan (h : Inv s) {f : Follower} (hi : s.followers[i]? = some f)
    (hphase : f.phase = .deciding) (hnone : f.recording = none) {attempt : Attempt}
    (hsound : CloseSound false attempt) : Inv (s.finishOrphan i f attempt) := by
  have hc : f.connected = true := by simp [Follower.connected, hphase]
  have hf := (h.followers i f hi).2 hc
  -- The table may have gained a recording since the follower looked.
  rcases hrec : s.recordings f.requestId with _ | k
  · obtain ⟨h₁, hfollowers⟩ := h.openOrphan f.requestId
    simp only [Server.finishOrphan, hrec]
    generalize s.openOrphan f.requestId = opened at h₁ hfollowers ⊢
    obtain ⟨s₁, inode⟩ := opened
    -- A write whose close is sound leaves no part of a line behind.
    have hpart : attempt.leavesPart false = false := by
      cases attempt with
      | ok => rfl
      | raised => exact hsound.elim
      | killed => exact hsound
    -- Nor does it raise here.
    have hraised : ∀ exc, (Handle.write { file := s₁.file inode }
        (.entry (.terminal (f.lastSeq + 1) .lost (some (s.orphanMessage f)))) attempt).2 ≠
          .raised exc := by
      intro exc
      cases attempt with
      | ok => exact Result.noConfusion
      | raised => exact hsound.elim
      | killed => exact Result.noConfusion
    have hfile : Extends (s₁.file inode) (Handle.write { file := s₁.file inode }
        (.entry (.terminal (f.lastSeq + 1) .lost (some (s.orphanMessage f)))) attempt).1.file :=
      write_entry_file hpart
    dsimp only
    generalize Handle.write { file := s₁.file inode }
      (.entry (.terminal (f.lastSeq + 1) .lost (some (s.orphanMessage f)))) attempt = written
      at hfile hraised ⊢
    obtain ⟨handle, result⟩ := written
    have h₂ := h₁.setFile hfile
    have hi₂ : (s₁.setFile inode handle.file).followers[i]? = some f := by
      rw [Server.setFile, hfollowers]
      exact hi
    cases result with
    | ok => exact h₂.setFollower FollowPhase.noConfusion fun _ => ((h₂.followers i f hi₂).2 hc).reading
    | raised exc => exact absurd rfl (hraised exc)
    | killed => exact h₂.restart
  · -- The request is recorded again: the follower waits for the new recorder.
    simp only [Server.finishOrphan, hrec]
    refine h.setFollower FollowPhase.noConfusion fun _ => ⟨hf.inode, hf.header, hf.position, hf.unread,
      ?_, fun hp => FollowPhase.noConfusion hp, fun hp => FollowPhase.noConfusion hp,
      fun hp => absurd rfl hp,
      fun hp => hp.elim (fun hp => FollowPhase.noConfusion hp) fun hp => FollowPhase.noConfusion hp.1,
      FollowPhase.noConfusion⟩
    rcases hf.served with hterminal | ⟨j, r, hsome, _⟩ | ⟨_, hpath⟩
    · exact .inl hterminal
    · rw [hnone] at hsome
      exact absurd hsome.symm (Option.some_ne_none j)
    · obtain ⟨r, hget, hrequest, hpath', _, hlive⟩ := h.table _ k hrec
      rw [hpath] at hpath'
      exact .inr (.inl ⟨k, r, rfl, hget, hrequest, (Option.some.inj hpath').symm, hlive⟩)

theorem Inv.decide (h : Inv s) {f : Follower} (hi : s.followers[i]? = some f)
    (hphase : f.phase = .deciding) {attempt : Attempt}
    (hsound : CloseSound false attempt) : Inv (s.decide i f attempt) := by
  have hc : f.connected = true := by simp [Follower.connected, hphase]
  have hf := (h.followers i f hi).2 hc
  rcases hrec : f.recording with _ | k
  · simp only [Server.decide, hrec]
    exact h.finishOrphan hi hphase hrec hsound
  · have heq : s.decide i f attempt = s.setFollower i { f with phase := .locking } := by
      simp [Server.decide, hrec]
    have hrec' : f.recording ≠ none := by
      rw [hrec]
      exact Option.some_ne_none k
    rw [heq]
    refine h.setFollower FollowPhase.noConfusion fun _ => hf.setPhase (fun hp => FollowPhase.noConfusion hp)
      (fun _ => hrec') (.inr ?_) (fun _ => hf.path (.inr ⟨hphase, hrec'⟩)) FollowPhase.noConfusion
    rw [hphase]
    exact FollowPhase.noConfusion

/-- A file of whole lines is longer than its beginning. -/
theorem fileSize_take_lt (textSize : Line C → ℕ) {file : File C}
    (h : ∀ fragment ∈ file, fragment.isWhole = true) {n : ℕ} (hn : n < file.length) :
    fileSize textSize (file.take n) < fileSize textSize file := by
  induction file generalizing n with
  | nil => exact absurd hn (Nat.not_lt_zero n)
  | cons fragment file ih =>
    have hfirst := h fragment List.mem_cons_self
    have hrest : ∀ fragment ∈ file, fragment.isWhole = true :=
      fun fragment' hmem => h fragment' (List.mem_cons_of_mem _ hmem)
    cases n with
    | zero =>
      cases fragment with
      | whole line =>
        simp only [fileSize, List.take_zero, List.map_nil, List.sum_nil, List.map_cons,
          List.sum_cons]
        omega
      | torn line bytes => exact absurd hfirst Bool.false_ne_true
    | succ n =>
      have := ih hrest (Nat.lt_of_succ_lt_succ hn)
      simp only [fileSize, List.take_succ_cons, List.map_cons, List.sum_cons] at this ⊢
      omega

/-- With the lock, a follower that has read everything waits, and others read on. -/
theorem Inv.lock_eq (h : Inv s) {f : Follower} (hi : s.followers[i]? = some f)
    (hphase : f.phase = .locking) (textSize : Line C → ℕ) : s.lock textSize i f =
      s.setFollower i { f with phase :=
        if (s.file f.inode).length ≤ f.position then .waiting else .reading } := by
  have hc : f.connected = true := by simp [Follower.connected, hphase]
  have hpath := ((h.followers i f hi).2 hc).path (.inl hphase)
  simp only [Server.lock, hpath]
  by_cases hlen : (s.file f.inode).length ≤ f.position
  · rw [List.take_of_length_le hlen, if_pos rfl, if_pos hlen]
  · have hlt := fileSize_take_lt textSize (h.files f.inode).1 (Nat.lt_of_not_le hlen)
    rw [if_neg (Nat.ne_of_lt hlt), if_neg hlen]

theorem Inv.lock (h : Inv s) {f : Follower} (hi : s.followers[i]? = some f)
    (hphase : f.phase = .locking) (textSize : Line C → ℕ) : Inv (s.lock textSize i f) := by
  have hc : f.connected = true := by simp [Follower.connected, hphase]
  have hf := (h.followers i f hi).2 hc
  rw [h.lock_eq hi hphase textSize]
  by_cases hlen : (s.file f.inode).length ≤ f.position
  swap
  · rw [if_neg hlen]
    exact h.setFollower FollowPhase.noConfusion fun _ => hf.reading
  rw [if_pos hlen]
  refine h.setFollower FollowPhase.noConfusion fun _ => hf.setPhase (fun _ => ?_)
    (fun hp => FollowPhase.noConfusion hp) (.inr ?_)
    (fun hp => hp.elim FollowPhase.noConfusion FollowPhase.noConfusion) FollowPhase.noConfusion
  · -- There is nothing left to read, so the file is not finished.
    rcases hf.served with hterminal | ⟨j, r, hrec, hget, _, _, hlive⟩ | ⟨hnone, _⟩
    · exact absurd hterminal (hf.not_hasTerminal hlen)
    · exact ⟨j, r, hrec, hget, hlive⟩
    · exact absurd hnone (hf.locking hphase)
  · rw [hphase]
    exact FollowPhase.noConfusion

theorem Inv.remove (h : Inv s) {q : UUID} (hsound : ∀ f ∈ s.followers, f.connected = true →
    f.requestId = q → s.paths q = some f.inode → HasTerminal (s.file f.inode) ∧ ¬ f.BeforeLock)
    (hbusy : s.recordings q = none) {removed : List UUID} :
    Inv { s with paths := Function.update s.paths q none, removed := removed } := by
  have hold : ∀ q' inode, s.paths q' = some inode → q' ≠ q →
      Function.update s.paths q none q' = some inode := by
    intro q' inode hq' hne
    rw [Function.update_of_ne hne]
    exact hq'
  refine ⟨h.files, fun q' inode hq' => ?_, fun q' j hq' => ?_, h.listed, h.recorders, h.terminal,
    fun j f hj => ?_⟩
  · rcases update_cases hq' with ⟨_, hno⟩ | ⟨_, hq'⟩
    · exact absurd hno.symm (Option.some_ne_none inode)
    · exact h.paths q' inode hq'
  · obtain ⟨r, hget, hrequest, hpath, hphase⟩ := h.table q' j hq'
    refine ⟨r, hget, hrequest, hold q' _ hpath ?_, hphase⟩
    rintro rfl
    rw [hbusy] at hq'
    exact absurd hq'.symm (Option.some_ne_none j)
  · obtain ⟨htorn, hinv⟩ := h.followers j f hj
    refine ⟨htorn, fun hc => (hinv hc).keep (Grows.of_eq rfl)
      (fun k r _ hk => ⟨r, hk, ⟨rfl, rfl⟩, .inl⟩) fun hpath => ?_⟩
    by_cases hqf : f.requestId = q
    · exact .inl (hsound f (List.mem_of_getElem? hj) hc hqf (hqf ▸ hpath))
    · exact .inr (hold _ _ hpath hqf)

/-- An action of a task that is not there, or is elsewhere, does nothing. -/
theorem Server.withRecorder_cases (s : Server C) (i : ℕ) (phases : RecorderPhase → Bool)
    (g : Recorder C → Server C) : s.withRecorder i phases g = s ∨
      ∃ r, s.recorders[i]? = some r ∧ phases r.phase = true ∧ s.withRecorder i phases g = g r := by
  rw [Server.withRecorder]
  rcases hi : s.recorders[i]? with _ | r
  · exact .inl rfl
  · by_cases hphase : phases r.phase = true
    · exact .inr ⟨r, rfl, hphase, if_pos hphase⟩
    · exact .inl (if_neg hphase)

theorem Server.withFollower_cases (s : Server C) (i : ℕ) (phase : FollowPhase)
    (g : Follower → Server C) : s.withFollower i phase g = s ∨
      ∃ f, s.followers[i]? = some f ∧ f.phase = phase ∧ s.withFollower i phase g = g f := by
  rw [Server.withFollower]
  rcases hi : s.followers[i]? with _ | f
  · exact .inl rfl
  · by_cases hphase : f.phase = phase
    · exact .inr ⟨f, rfl, hphase, if_pos hphase⟩
    · exact .inl (if_neg hphase)

theorem Inv.withRecorder (h : Inv s) {phases : RecorderPhase → Bool} {g : Recorder C → Server C}
    (hg : ∀ r, s.recorders[i]? = some r → phases r.phase = true → Inv (g r)) :
    Inv (s.withRecorder i phases g) := by
  rcases s.withRecorder_cases i phases g with heq | ⟨r, hi, hphase, heq⟩
  · rw [heq]
    exact h
  · rw [heq]
    exact hg r hi hphase

theorem Inv.withFollower (h : Inv s) {phase : FollowPhase} {g : Follower → Server C}
    (hg : ∀ f, s.followers[i]? = some f → f.phase = phase → Inv (g f)) :
    Inv (s.withFollower i phase g) := by
  rcases s.withFollower_cases i phase g with heq | ⟨f, hi, hphase, heq⟩
  · rw [heq]
    exact h
  · rw [heq]
    exact hg f hi hphase

theorem Inv.step {textSize : Line C → ℕ} {maxBytes : ℕ} (h : Inv s) (action : Action C)
    (hsound : Sound s action) : Inv (s.step textSize maxBytes action) := by
  cases action with
  | start q kernelId header executed => exact h.start hsound
  | openJournal i opened =>
    obtain rfl : opened = true := hsound
    rw [Server.step]
    refine h.withRecorder fun r hi hphase => ?_
    -- An opening recorder has not ended, so the general step applies.
    have hrunning : r.phase ≠ .lastNotifying ∧ r.phase ≠ .ended := by
      rw [beq_iff_eq.mp hphase]
      exact ⟨RecorderPhase.noConfusion, RecorderPhase.noConfusion⟩
    exact h.moves hi hrunning (.looks { r with phase := .recording } ⟨rfl, rfl⟩ rfl)
  | record i wake append terminal close =>
    rw [Server.step]
    refine h.withRecorder fun r hi hphase => ?_
    have hrunning : r.phase ≠ .lastNotifying ∧ r.phase ≠ .ended := by
      rw [beq_iff_eq.mp hphase]
      exact ⟨RecorderPhase.noConfusion, RecorderPhase.noConfusion⟩
    exact h.moves hi hrunning ((record_branch (beq_iff_eq.mp hphase) hi).moves hsound.1 hsound.2)
  | notify i close =>
    rw [Server.step]
    refine h.withRecorder fun r hi _ => ?_
    exact h.notify hi hsound
  | cancelNotify i terminal close =>
    rw [Server.step]
    refine h.withRecorder fun r hi _ => ?_
    exact h.cancelNotify hi hsound.1 hsound.2.1 (hsound.2.2 r hi)
  | connect q kernelId after => exact h.connect textSize q kernelId after
  | read i => exact h.withFollower fun f hi hphase => h.read hi textSize hphase
  -- Only this action can write on the follower's behalf.
  | decide i attempt =>
    refine h.withFollower fun f hi hphase => ?_
    exact h.decide hi hphase hsound
  | lock i => exact h.withFollower fun f hi hphase => h.lock hi hphase textSize
  | disconnect i =>
    simp only [Server.step]
    rcases hi : s.followers[i]? with _ | f
    · exact h
    · by_cases hc : f.connected = true
      · simp only [if_pos hc]
        exact h.setFollower FollowPhase.noConfusion fun hno => absurd hno Bool.false_ne_true
      · simp only [if_neg hc]
        exact h
  -- A request that is being recorded keeps its file.
  | remove q =>
    simp only [Server.step]
    rcases hbusy : s.recordings q with _ | k
    · exact h.remove (hsound hbusy) hbusy
    · exact h
  | restart => exact h.restart

theorem Inv.init : Inv ({} : Server C) := by
  refine ⟨fun i => ?_, fun q inode hq => ?_, fun q i hq => ?_, fun i r hi => ?_, fun i r hi => ?_,
    fun i r hi => ?_, fun i f hi => ?_⟩
  · exact whole_header (.header 0 0 0) (.inl rfl)
  · exact absurd hq.symm (Option.some_ne_none inode)
  · exact absurd hq.symm (Option.some_ne_none i)
  · simp at hi
  · simp at hi
  · simp at hi
  · simp at hi

end

/-! ### Followers without a recorder -/

/-- The follower has whole lines to read, up to a terminal entry. -/
def Ahead (s : Server C) (i : ℕ) : Prop :=
  ∃ f, s.followers[i]? = some f ∧
    (f.phase = .reading ∨ f.phase = .deciding ∨ f.phase = .locking) ∧
    ∃ last, f.position ≤ last ∧
      (∀ k, f.position ≤ k → k ≤ last → ∃ e, (s.file f.inode)[k]? = some (.whole (.entry e))) ∧
      ∃ e, (s.file f.inode)[last]? = some (.whole (.entry e)) ∧ e.isTerminal = true

/-- The follower has read a terminal entry. -/
def Server.FollowEnded (s : Server C) (i : ℕ) : Prop :=
  ∃ f, s.followers[i]? = some f ∧ f.phase = .ended

/-- The follower's own next step. -/
def Server.own (textSize : Line C → ℕ) (maxBytes : ℕ) (i : ℕ) (s : Server C) : Server C :=
  match s.followers[i]? with
  | some f => match f.phase with
    | .reading => s.step textSize maxBytes (.read i)
    | .deciding => s.step textSize maxBytes (.decide i .ok)
    | .locking => s.step textSize maxBytes (.lock i)
    | _ => s
  | none => s

section

variable {s : Server C} {i : ℕ} {f : Follower}

theorem Whole.entry {file : File C} (h : Whole file) {k : ℕ} (hk : 1 ≤ k) (hlt : k < file.length) :
    ∃ e, file[k]? = some (.whole (.entry e)) := by
  obtain ⟨k, rfl⟩ := Nat.exists_eq_add_of_le hk
  have hget : file.tail[k]? = some file[1 + k] := by
    rw [List.getElem?_tail, Nat.add_comm, List.getElem?_eq_getElem hlt]
  obtain ⟨e, he⟩ := h.2 _ (List.mem_of_getElem? hget)
  exact ⟨e, by rw [List.getElem?_eq_getElem hlt, he]⟩

theorem connected_of_phase (h : f.phase = .reading ∨ f.phase = .deciding ∨ f.phase = .locking) :
    f.connected = true := by
  rcases h with h | h | h
  all_goals simp [Follower.connected, h]

theorem ahead_of_hasTerminal (h : Inv s) (hi : s.followers[i]? = some f)
    (hphase : f.phase = .reading ∨ f.phase = .deciding ∨ f.phase = .locking)
    (hterminal : HasTerminal (s.file f.inode)) : Ahead s i := by
  have hf := (h.followers i f hi).2 (connected_of_phase hphase)
  obtain ⟨fragment, hmem, hterminal⟩ := hterminal
  obtain ⟨last, hlast, rfl⟩ := List.getElem_of_mem hmem
  have hle : f.position ≤ last := by
    by_contra hlt
    have := hf.unread last (by omega) _ (List.getElem?_eq_getElem hlast)
    rw [this] at hterminal
    exact Bool.false_ne_true hterminal
  refine ⟨f, hi, hphase, last, hle, fun k hk hkl => ?_, ?_⟩
  · exact (h.files f.inode).entry (Nat.le_trans hf.header hk) (by omega)
  · obtain ⟨e, he⟩ := (h.files f.inode).entry (Nat.le_trans hf.header hle) hlast
    refine ⟨e, he, ?_⟩
    rw [List.getElem?_eq_getElem hlast] at he
    rw [Option.some.inj he] at hterminal
    exact hterminal

/-- What a follower does at the end of the file, without a recorder. -/
theorem finishOrphan_ok (s : Server C) (i : ℕ) (f : Follower)
    (hrec : s.recordings f.requestId = none) : ∃ s₂ : Server C,
      s.finishOrphan i f .ok = s₂.setFollower i { f with phase := .reading } ∧
      s₂.followers = s.followers ∧ Grows s s₂ ∧
      (s.paths f.requestId = some f.inode → f.inode < s.files.length →
        HasTerminal (s₂.file f.inode)) := by
  obtain ⟨e, he⟩ : ∃ e : Entry C, e = .terminal (f.lastSeq + 1) .lost (some (s.orphanMessage f)) :=
    ⟨_, rfl⟩
  have hwrite : ∀ file : File C,
      (Handle.write { file := file } (.entry e) .ok).1.file = file ++ entries ([] ++ [e]) :=
    fun file => ((Handle.Writes.init file).push e).flush_ok
  rcases hpath : s.paths f.requestId with _ | inode
  · -- The entry stands in a file of its own.
    obtain ⟨s₁, hs₁⟩ : ∃ s₁ : Server C, s₁ = { s with
        files := s.files ++ [[]]
        paths := Function.update s.paths f.requestId (some s.files.length) } := ⟨_, rfl⟩
    have hgrows : Grows s s₁ := hs₁ ▸ Grows.concat [] _
    refine ⟨s₁.setFile s.files.length (s₁.file s.files.length ++ entries ([] ++ [e])), ?_, ?_,
      hgrows.trans (Grows.setFile ⟨_, rfl⟩), fun hno => absurd hno.symm (Option.some_ne_none _)⟩
    · simp only [Server.finishOrphan, hrec, Server.openOrphan, hpath]
      rw [← he, ← hs₁]
      exact congrArg (fun file => (s₁.setFile s.files.length file).setFollower i
        { f with phase := .reading }) (hwrite (s₁.file s.files.length))
    · rw [hs₁]
      rfl
  · refine ⟨s.setFile inode (s.file inode ++ entries ([] ++ [e])), ?_, rfl,
      Grows.setFile ⟨_, rfl⟩, fun hown hlt => ?_⟩
    · simp only [Server.finishOrphan, hrec, Server.openOrphan, hpath]
      rw [← he]
      exact congrArg (fun file => (s.setFile inode file).setFollower i
        { f with phase := .reading }) (hwrite (s.file inode))
    · obtain rfl := Option.some.inj hown
      rw [s.file_setFile_self _ hlt]
      exact hasTerminal_entries _ _ (by rw [he]; rfl)

/-- At the end of the file, a follower without a recorder writes the terminal entry. -/
theorem ahead_of_deciding {textSize : Line C → ℕ} {maxBytes : ℕ} (h : Inv s)
    (hi : s.followers[i]? = some f) (hphase : f.phase = .deciding)
    (hnone : f.recording = none) (hpath : s.paths f.requestId = some f.inode)
    (hended : ∀ r ∈ s.recorders, r.inode = f.inode → r.phase = .ended) :
    Ahead (Server.own textSize maxBytes i s) i := by
  have hf := (h.followers i f hi).2 (connected_of_phase (.inr (.inl hphase)))
  have hrec : s.recordings f.requestId = none := by
    rcases hrec : s.recordings f.requestId with _ | k
    · rfl
    · obtain ⟨r, hget, _, hpath', _, hlive⟩ := h.table _ k hrec
      rw [hpath] at hpath'
      exact absurd (hended r (List.mem_of_getElem? hget) (Option.some.inj hpath').symm) hlive
  have hinv : Inv (s.finishOrphan i f .ok) := h.finishOrphan hi hphase hnone trivial
  have hown : Server.own textSize maxBytes i s = s.finishOrphan i f .ok := by
    simp only [Server.own, hi, hphase, Server.step, Server.withFollower, if_true, Server.decide,
      hnone]
  obtain ⟨s₂, heq, hfollowers, _, hterminal⟩ := finishOrphan_ok s i f hrec
  rw [hown, heq]
  rw [heq] at hinv
  have hlt : i < s₂.followers.length := by
    rw [hfollowers]
    exact (List.getElem?_eq_some_iff.mp hi).1
  exact ahead_of_hasTerminal hinv (List.getElem?_set_self hlt) (.inl rfl) (hterminal hpath hf.inode)

/-- A follower's own steps meet the condition. -/
theorem Inv.own {textSize : Line C → ℕ} {maxBytes : ℕ} (h : Inv s) (i : ℕ) :
    Inv (Server.own textSize maxBytes i s) := by
  rw [Server.own]
  split
  · split
    · exact h.step _ trivial
    · exact h.step _ trivial
    · exact h.step _ trivial
    · exact h
  · exact h

theorem Inv.iterate_own {textSize : Line C → ℕ} {maxBytes : ℕ} (h : Inv s) (i n : ℕ) :
    Inv ((Server.own textSize maxBytes i)^[n] s) := by
  induction n generalizing s with
  | zero => exact h
  | succ n ih =>
    rw [Function.iterate_succ_apply]
    exact ih (h.own i)

/-- A reader's own step, where there is another line that does not end the journal. -/
theorem own_reading (textSize : Line C → ℕ) (maxBytes : ℕ) (hi : s.followers[i]? = some f)
    (hphase : f.phase = .reading) {e : Entry C}
    (he : (s.file f.inode)[f.position]? = some (.whole (.entry e))) :
    ∃ opened, Server.own textSize maxBytes i s = s.setFollower i { f with
      position := f.position + 1
      lastSeq := e.seq
      opened := opened
      phase := if e.isTerminal = true then .ended else .reading } := by
  have hown : Server.own textSize maxBytes i s = s.read textSize i f := by
    simp only [Server.own, hi, hphase, Server.step, Server.withFollower, if_true]
  rw [hown, Server.read]
  simp only [Follower.read, readLine_whole textSize he]
  by_cases hterminal : e.isTerminal = true
  · simp only [if_pos hterminal]
    exact ⟨_, rfl⟩
  · simp only [if_neg hterminal, ← hphase]
    exact ⟨_, rfl⟩

/-- A follower without a recorder reads what is there and writes the terminal entry. -/
theorem ahead_of_orphan {textSize : Line C → ℕ} {maxBytes : ℕ} (h : Inv s)
    (hi : s.followers[i]? = some f) (hphase : f.phase = .reading ∨ f.phase = .deciding)
    (hnone : f.recording = none) (hpath : s.paths f.requestId = some f.inode)
    (hended : ∀ r ∈ s.recorders, r.inode = f.inode → r.phase = .ended) :
    ∃ n, Ahead ((Server.own textSize maxBytes i)^[n] s) i := by
  -- By induction on the lines that are left.
  obtain ⟨m, hm⟩ : ∃ m, (s.file f.inode).length - f.position = m := ⟨_, rfl⟩
  induction m using Nat.strongRecOn generalizing s f with
  | ind m ih =>
  rcases hphase with hphase | hphase
  swap
  · exact ⟨1, ahead_of_deciding h hi hphase hnone hpath hended⟩
  have hf := (h.followers i f hi).2 (connected_of_phase (.inl hphase))
  have hlt : i < s.followers.length := (List.getElem?_eq_some_iff.mp hi).1
  by_cases hterminal : HasTerminal (s.file f.inode)
  · exact ⟨0, ahead_of_hasTerminal h hi (.inl hphase) hterminal⟩
  have hinv : Inv (Server.own textSize maxBytes i s) := h.own i
  by_cases hleft : f.position < (s.file f.inode).length
  · obtain ⟨e, he⟩ := (h.files f.inode).entry hf.header hleft
    have hnot : ¬ e.isTerminal = true := fun hyes =>
      hterminal ⟨_, List.mem_of_getElem? he, hyes⟩
    obtain ⟨opened, hown⟩ := own_reading textSize maxBytes hi hphase he
    rw [if_neg hnot] at hown
    rw [hown] at hinv
    obtain ⟨n, hn⟩ := ih ((s.file f.inode).length - (f.position + 1)) (by omega) hinv
      (List.getElem?_set_self hlt) (.inl rfl) hnone hpath hended rfl
    refine ⟨n + 1, ?_⟩
    rw [Function.iterate_succ_apply, hown]
    exact hn
  · obtain ⟨opened, hown⟩ : ∃ opened, Server.own textSize maxBytes i s = s.setFollower i
        { f with caughtUp := true, opened := opened, phase := .deciding } := by
      simp only [Server.own, hi, hphase, Server.step, Server.withFollower, if_true, Server.read,
        Follower.read, readLine_end textSize (Nat.le_of_not_lt hleft)]
      exact ⟨_, rfl⟩
    rw [hown] at hinv
    refine ⟨2, ?_⟩
    rw [Function.iterate_succ_apply, hown]
    exact ahead_of_deciding hinv (List.getElem?_set_self hlt) rfl hnone hpath hended

/-- A reader of a finished journal comes to its end. -/
theorem ended_of_reading (textSize : Line C → ℕ) (maxBytes : ℕ) (h : Inv s)
    (hi : s.followers[i]? = some f) (hphase : f.phase = .reading)
    (hterminal : HasTerminal (s.file f.inode)) :
    ∃ n, ((Server.own textSize maxBytes i)^[n] s).FollowEnded i := by
  obtain ⟨m, hm⟩ : ∃ m, (s.file f.inode).length - f.position = m := ⟨_, rfl⟩
  induction m using Nat.strongRecOn generalizing s f with
  | ind m ih =>
  have hf := (h.followers i f hi).2 (connected_of_phase (.inl hphase))
  have hlt : i < s.followers.length := (List.getElem?_eq_some_iff.mp hi).1
  have hleft : f.position < (s.file f.inode).length := by
    by_contra hno
    exact hf.not_hasTerminal (Nat.le_of_not_lt hno) hterminal
  obtain ⟨e, he⟩ := (h.files f.inode).entry hf.header hleft
  obtain ⟨opened, hown⟩ := own_reading textSize maxBytes hi hphase he
  have hinv : Inv (Server.own textSize maxBytes i s) := h.own i
  by_cases hlast : e.isTerminal = true
  · rw [if_pos hlast] at hown
    refine ⟨1, ?_⟩
    rw [Function.iterate_one, hown]
    exact ⟨_, List.getElem?_set_self hlt, rfl⟩
  · rw [if_neg hlast] at hown
    rw [hown] at hinv
    obtain ⟨n, hn⟩ := ih ((s.file f.inode).length - (f.position + 1)) (by omega) hinv
      (List.getElem?_set_self hlt) rfl hterminal rfl
    refine ⟨n + 1, ?_⟩
    rw [Function.iterate_succ_apply, hown]
    exact hn

/-- Before the lock of a finished journal, a follower goes back to reading. -/
theorem ended_of_locking (textSize : Line C → ℕ) (maxBytes : ℕ) (h : Inv s)
    (hi : s.followers[i]? = some f) (hphase : f.phase = .locking)
    (hterminal : HasTerminal (s.file f.inode)) :
    ∃ n, ((Server.own textSize maxBytes i)^[n] s).FollowEnded i := by
  have hf := (h.followers i f hi).2 (connected_of_phase (.inr (.inr hphase)))
  have hlt : i < s.followers.length := (List.getElem?_eq_some_iff.mp hi).1
  have hown : Server.own textSize maxBytes i s = s.setFollower i { f with phase := .reading } := by
    have hlen : ¬ (s.file f.inode).length ≤ f.position := fun hlen =>
      hf.not_hasTerminal hlen hterminal
    have hlock := h.lock_eq hi hphase textSize
    rw [if_neg hlen] at hlock
    simp only [Server.own, hi, hphase, Server.step, Server.withFollower, if_true]
    exact hlock
  have hinv : Inv (Server.own textSize maxBytes i s) := h.own i
  rw [hown] at hinv
  obtain ⟨n, hn⟩ := ended_of_reading textSize maxBytes hinv
    (List.getElem?_set_self hlt) rfl hterminal
  refine ⟨n + 1, ?_⟩
  rw [Function.iterate_succ_apply, hown]
  exact hn

/-- A follower that has a terminal entry ahead reads it. -/
theorem ended_of_ahead (textSize : Line C → ℕ) (maxBytes : ℕ) (h : Inv s) (ha : Ahead s i) :
    ∃ n, ((Server.own textSize maxBytes i)^[n] s).FollowEnded i := by
  obtain ⟨f, hi, hphase, last, _, _, e, he, hlast⟩ := ha
  have hf := (h.followers i f hi).2 (connected_of_phase hphase)
  have hterminal : HasTerminal (s.file f.inode) := ⟨_, List.mem_of_getElem? he, hlast⟩
  have hlt : i < s.followers.length := (List.getElem?_eq_some_iff.mp hi).1
  rcases hphase with hphase | hphase | hphase
  · exact ended_of_reading textSize maxBytes h hi hphase hterminal
  swap
  · exact ended_of_locking textSize maxBytes h hi hphase hterminal
  have hinv : Inv (Server.own textSize maxBytes i s) := h.own i
  have hnext : Server.own textSize maxBytes i s = s.decide i f .ok := by
    simp only [Server.own, hi, hphase, Server.step, Server.withFollower, if_true]
  rw [hnext] at hinv
  suffices ∃ n, ((Server.own textSize maxBytes i)^[n] (s.decide i f .ok)).FollowEnded i by
    obtain ⟨n, hn⟩ := this
    refine ⟨n + 1, ?_⟩
    rw [Function.iterate_succ_apply, hnext]
    exact hn
  rcases hrecording : f.recording with _ | k
  swap
  · have hdecide : s.decide i f .ok = s.setFollower i { f with phase := .locking } := by
      rw [Server.decide, hrecording]
    rw [hdecide] at hinv ⊢
    exact ended_of_locking textSize maxBytes hinv (List.getElem?_set_self hlt) rfl hterminal
  have hdecide : s.decide i f .ok = s.finishOrphan i f .ok := by
    rw [Server.decide, hrecording]
  rw [hdecide] at hinv ⊢
  rcases hrec : s.recordings f.requestId with _ | k
  · -- It writes another entry, perhaps to a new file, and reads its own.
    obtain ⟨s₂, heq, hfollowers, hgrows, _⟩ := finishOrphan_ok s i f hrec
    rw [heq] at hinv ⊢
    have hlt₂ : i < s₂.followers.length := by
      rw [hfollowers]
      exact hlt
    exact ended_of_reading textSize maxBytes hinv (List.getElem?_set_self hlt₂) rfl
      ((hgrows.file f.inode hf.inode).hasTerminal hterminal)
  · have hfinish : s.finishOrphan i f .ok =
        s.setFollower i { f with recording := some k, phase := .reading } := by
      simp only [Server.finishOrphan, hrec]
    rw [hfinish] at hinv ⊢
    exact ended_of_reading textSize maxBytes hinv (List.getElem?_set_self hlt) rfl hterminal

/-- In every run whose steps meet the condition: no part of a line is in a file, so that
no follower reads one; and a follower whose journal has no running recorder has a
terminal entry ahead of it, or comes to have one by its own steps, and reads it. -/
theorem followers_never_stranded (textSize : Line C → ℕ) (maxBytes : ℕ)
    (actions : List (Action C))
    (hsound : Transition.Along (Server.step textSize maxBytes) Sound {} actions) :
    let s := Transition.run (Server.step textSize maxBytes) {} actions
    (∀ inode, ∀ fragment ∈ s.file inode, fragment.isWhole = true) ∧
    (∀ f ∈ s.followers, f.phase ≠ .torn) ∧
    ∀ i f, s.followers[i]? = some f → f.connected = true →
      (∀ r ∈ s.recorders, r.inode = f.inode → r.phase = .ended) →
      (∃ n, Ahead ((Server.own textSize maxBytes i)^[n] s) i) ∧
      ∃ n, ((Server.own textSize maxBytes i)^[n] s).FollowEnded i := by
  intro s
  have h : Inv s := Transition.invariant (fun s a hs ha => hs.step a ha) Inv.init hsound
  refine ⟨fun inode => (h.files inode).1, fun f hf => ?_, fun i f hi hc hended => ?_⟩
  · obtain ⟨i, hi⟩ := List.mem_iff_getElem?.mp hf
    exact (h.followers i f hi).1
  have hf := (h.followers i f hi).2 hc
  -- Nobody can be waited for: every recorder of the file has ended.
  have hwaiting : f.phase ≠ .waiting := by
    intro hw
    obtain ⟨k, r, hrec, hget, hlive⟩ := hf.waiting hw
    obtain ⟨r', hget', hinode⟩ := hf.journal (by rw [hw]; exact FollowPhase.noConfusion) k hrec
    obtain rfl := Option.some.inj (hget.symm.trans hget')
    exact hlive (hended r (List.mem_of_getElem? hget) hinode)
  have hphase : f.phase = .reading ∨ f.phase = .deciding ∨ f.phase = .locking := by
    rcases hphase : f.phase with _ | _ | _ | _ | _ | _ | _ | _
    · exact .inl rfl
    · exact .inr (.inl rfl)
    · exact .inr (.inr rfl)
    · exact absurd hphase hwaiting
    · simp [Follower.connected, hphase] at hc
    · simp [Follower.connected, hphase] at hc
    · exact absurd hphase hf.going
    · exact absurd hphase (h.followers i f hi).1
  -- The terminal entry is there, or the follower itself writes it as an orphan's.
  have hahead : ∃ n, Ahead ((Server.own textSize maxBytes i)^[n] s) i := by
    rcases hf.served with hterminal | ⟨k, r, _, hget, _, hinode, hlive⟩ | ⟨hnone, hpath⟩
    · exact ⟨0, ahead_of_hasTerminal h hi hphase hterminal⟩
    · exact absurd (hended r (List.mem_of_getElem? hget) hinode) hlive
    · refine ahead_of_orphan h hi ?_ hnone hpath hended
      rcases hphase with hphase | hphase | hphase
      · exact .inl hphase
      · exact .inr hphase
      · exact absurd hnone (hf.locking hphase)
  -- From there its own steps lead it to the end.
  obtain ⟨n, hn⟩ := hahead
  obtain ⟨m, hm⟩ := ended_of_ahead textSize maxBytes (h.iterate_own i n) hn
  refine ⟨⟨n, hn⟩, m + n, ?_⟩
  rw [Function.iterate_add_apply]
  exact hm

end

namespace Small

/-- A kernel message that answers the request. -/
def output : KernelMessage ℕ where
  ours := true
  channel := .iopub
  msgType := "stream"
  idle := false
  content := 1

/-- A request is recorded and a follower waits for more. -/
def waitingRun : List (Action ℕ) :=
  [.start 7 1 .ok true, .openJournal 0 true, .connect 7 1 0, .read 0, .decide 0 .ok, .lock 0,
    .record 0 (.received none (some (.ok output))) .ok .ok .ok]

/-- The recorder writes the message, is cancelled and ends. -/
def endedRun : List (Action ℕ) :=
  waitingRun ++ [.record 0 .alive .ok .ok .ok, .notify 0 .ok, .record 0 .cancelled .ok .ok .ok,
    .notify 0 .ok, .notify 0 .ok]

/-- The disk is full: the message, the handler's entry and the closing of the file
all fail. -/
def fullDisk : Attempt :=
  .raised 0 0 true "OSError"

/-- No terminal entry can be written. -/
def strandedRun : List (Action ℕ) :=
  waitingRun ++ [.record 0 .alive fullDisk fullDisk fullDisk]

end Small

theorem followers_never_stranded_endedRun :
    let s := Transition.run (Server.step (fun _ => 60) 1000) {} Small.endedRun
    (s.followers[0]?.map (·.phase) = some .reading ∧ ∀ r ∈ s.recorders, r.phase = .ended) ∧
    (∃ n, Ahead ((Server.own (fun _ => 60) 1000 0)^[n] s) 0) ∧
    ∃ n, ((Server.own (fun _ => 60) 1000 0)^[n] s).FollowEnded 0 := by
  intro s
  have hphase : s.followers[0]?.map (·.phase) = some .reading := by decide
  have hended : ∀ r ∈ s.recorders, r.phase = .ended := by decide
  obtain ⟨f, hf, hreading⟩ := Option.map_eq_some_iff.mp hphase
  refine ⟨⟨hphase, hended⟩, ?_⟩
  refine (followers_never_stranded (fun _ => 60) 1000 Small.endedRun ?_).2.2 0 f hf ?_
    fun r hr _ => hended r hr
  · exact ⟨rfl, rfl, trivial, trivial, trivial, trivial, ⟨trivial, trivial⟩, ⟨trivial, trivial⟩,
      trivial, ⟨trivial, trivial⟩, trivial, trivial, trivial⟩
  · simp [Follower.connected, hreading]

/-- A full disk: the recorder has ended without a terminal entry, and its follower
waits for it. -/
theorem full_disk_strands_follower :
    let s := Transition.run (Server.step (fun _ => 60) 1000) {} Small.strandedRun
    (s.followers[0]?.map (·.phase) = some .waiting ∧ ∀ r ∈ s.recorders, r.phase = .ended) ∧
    ¬ ∃ n, Ahead ((Server.own (fun _ => 60) 1000 0)^[n] s) 0 := by
  intro s
  have hphase : s.followers[0]?.map (·.phase) = some .waiting := by decide
  refine ⟨⟨hphase, by decide⟩, ?_⟩
  obtain ⟨f, hf, hwaiting⟩ := Option.map_eq_some_iff.mp hphase
  have hown : Server.own (fun _ => 60) 1000 0 s = s := by
    simp only [Server.own, hf, hwaiting]
  rintro ⟨n, hn⟩
  rw [Function.iterate_fixed hown] at hn
  obtain ⟨f', hf', hno, _⟩ := hn
  obtain rfl := Option.some.inj (hf.symm.trans hf')
  rw [hwaiting] at hno
  exact hno.elim FollowPhase.noConfusion fun hno => hno.elim FollowPhase.noConfusion
    FollowPhase.noConfusion

end ExecutorService.Journals
