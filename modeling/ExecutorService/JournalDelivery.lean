/-
Output reaches the handler once and in order.

A follow that has applied `n` entries of a journal asks for those after `n`.  The
entries are numbered upwards, so the extension sends the next ones and only them, and
the state after any pattern of disconnects is that of a replay of a beginning of the
journal.  This breaks where an orphan's entry comes behind a line that lacks its
newline: one Worker was given that line, and nobody can read it again.

* `Applied` — the first entries have been replayed;
* `Numbered.lt_seq` — the next entry has a number beyond those that were applied;
* `serve_replays` — a connection continues a replay;
* `DeliveredOnce` — what holds of the follows of a journal;
* `output_delivered_once` — it holds in every run whose steps meet the condition.
-/
import ExecutorService.CodecRoundTrip
import ExecutorService.JournalReplays
import ExecutorService.JournalSightings

namespace ExecutorService.Journals

open Codec (Python RuntimeOutputRecord)

variable {F E C : Type}

/-! ### The entries that were applied -/

section

variable {c : Client F E} {es : List (Entry (Content F))} {e : Entry (Content F)}
  {st : JournalState F}

/-- The state after the first `n` entries, but for the catch-up marker. -/
def Applied (c : Client F E) (es : List (Entry (Content F))) (n : ℕ) (st : JournalState F) :
    Prop :=
  n ≤ es.length ∧ ∃ st₀, replay c (es.take n) = .ok st₀ ∧ st = { st₀ with caughtUp := st.caughtUp }

theorem Applied.init (c : Client F E) (es : List (Entry (Content F))) : Applied c es 0 {} :=
  ⟨Nat.zero_le _, {}, rfl, rfl⟩

theorem Applied.caughtUp {n : ℕ} (h : Applied c es n st) (b : Bool) :
    Applied c es n { st with caughtUp := b } := by
  obtain ⟨hn, st₀, hreplay, hst⟩ := h
  refine ⟨hn, st₀, hreplay, ?_⟩
  rw [hst]

/-- The next entry continues the replay, or ends it. -/
theorem Applied.next {n : ℕ} (h : Applied c es n st) (he : es[n]? = some e) :
    (∀ st', st.applyEntry c e = .ok st' → Applied c es (n + 1) st') ∧
      ∀ x, st.applyEntry c e = .error x → replay c es = .error x := by
  obtain ⟨_, st₀, hreplay, hst⟩ := h
  have hlt := (List.getElem?_eq_some_iff.mp he).1
  have htake : es.take (n + 1) = es.take n ++ [e] := by
    rw [List.take_add_one, he]
    rfl
  have hnext : replay c (es.take (n + 1)) = st₀.applyEntry c e := by
    rw [htake, replay_snoc, hreplay]
    rfl
  have happly := applyEntry_caughtUp c e st₀ st.caughtUp
  rw [← hst] at happly
  refine ⟨fun st' hst' => ?_, fun x hx => ?_⟩
  · rw [hst'] at happly
    rcases hst₀ : st₀.applyEntry c e with x | st₁
    · rw [hst₀] at happly
      cases happly
    rw [hst₀] at happly hnext
    have hst' : st' = { st₁ with caughtUp := st.caughtUp } := Except.ok.inj happly
    refine ⟨hlt, st₁, hnext, ?_⟩
    rw [hst']
  · rw [hx] at happly
    rcases hst₀ : st₀.applyEntry c e with x' | st₁
    · rw [hst₀] at happly hnext
      obtain rfl : x = x' := Except.error.inj happly
      rw [← List.take_append_drop (n + 1) es]
      exact replay_error_append hnext _
    · rw [hst₀] at happly
      cases happly

/-- What has been applied is numbered without a gap and not finished. -/
theorem Applied.seq {n : ℕ} (h : Applied c es n st) : st.seq = n := by
  obtain ⟨hn, st₀, hreplay, hst⟩ := h
  have := (replay_ok hreplay).seq
  rw [hst]
  simpa [Nat.min_eq_left hn] using this

theorem Applied.delivered {n : ℕ} (h : Applied c es n st) :
    DeliveredUpTo c.py es n st.delivered := by
  obtain ⟨hn, st₀, hreplay, hst⟩ := h
  have hdone := replay_ok hreplay
  have hnumbers := hdone.numbers
  rw [List.length_take, Nat.min_eq_left hn] at hnumbers
  refine ⟨hn, hnumbers, hdone.running, ?_⟩
  rw [hst]
  exact hdone.records

end

/-! ### The lines of a journal -/

section

variable {textSize : Line C → ℕ} {file lines : File C} {e : Entry C} {p : ℕ}

theorem readLine_tail (textSize : Line C → ℕ) (file : File C) (p : ℕ) :
    readLine textSize file (p + 1) = readLine textSize file.tail p := by
  rw [readLine, readLine, List.drop_tail]

/-- What is read at a place within the readable entries, or behind the last, is one of
them. -/
theorem readable_of_readLine (hp : p ≤ (readable textSize lines).length)
    (h : readLine textSize lines p = some (some (.entry e))) :
    (readable textSize lines)[p]? = some e := by
  induction lines generalizing p with
  | nil => cases p <;> cases h
  | cons fragment lines ih =>
    match fragment, lines, h, hp with
    | .whole (.entry e'), lines, h, hp =>
      rcases p with _ | p
      · obtain rfl : e' = e := Line.entry.inj (Option.some.inj (Option.some.inj h))
        rfl
      · simp only [readable, List.length_cons, Nat.add_le_add_iff_right] at hp
        exact ih hp h
    | .torn (.entry e') bytes, [], h, hp =>
      rcases p with _ | p
      · by_cases hbytes : textSize (.entry e') ≤ bytes
        · simp only [readLine, List.drop_zero, if_pos hbytes] at h
          obtain rfl : e' = e := Line.entry.inj (Option.some.inj (Option.some.inj h))
          simp [readable, hbytes]
        · simp only [readLine, List.drop_zero, if_neg hbytes] at h
          cases h
      · rw [readLine_end textSize (Nat.le_add_left 1 p)] at h
        cases h
    | .torn (.header ..) bytes, [], h, hp =>
      obtain rfl : p = 0 := Nat.le_zero.mp hp
      simp only [readLine, List.drop_zero] at h
      split at h
      · cases h
      · cases h
    | .torn (.entry _) _, _ :: _, h, hp =>
      obtain rfl : p = 0 := Nat.le_zero.mp hp
      cases h
    | .torn (.header ..) _, _ :: _, h, hp =>
      obtain rfl : p = 0 := Nat.le_zero.mp hp
      cases h
    | .whole (.header ..), _, h, hp =>
      obtain rfl : p = 0 := Nat.le_zero.mp hp
      cases h

theorem readLine_of_readable (h : (readable textSize lines)[p]? = some e) :
    readLine textSize lines p = some (some (.entry e)) := by
  induction lines generalizing p with
  | nil => cases h
  | cons fragment lines ih =>
    match fragment, lines, h with
    | .whole (.entry e'), lines, h =>
      rcases p with _ | p
      · obtain rfl : e' = e := Option.some.inj h
        rfl
      · exact ih h
    | .torn (.entry e') bytes, [], h =>
      by_cases hbytes : textSize (.entry e') ≤ bytes
      · simp only [readable, if_pos hbytes] at h
        rcases p with _ | p
        · obtain rfl : e' = e := Option.some.inj h
          simp only [readLine, List.drop_zero, if_pos hbytes]
        · cases h
      · simp only [readable, if_neg hbytes] at h
        cases h
    | .torn (.header ..) bytes, [], h => cases h
    | .torn (.entry _) _, _ :: _, h => cases h
    | .torn (.header ..) _, _ :: _, h => cases h
    | .whole (.header ..), _, h => cases h

theorem journal_of_readLine (hp : p ≤ (journal textSize file).length)
    (h : readLine textSize file (p + 1) = some (some (.entry e))) :
    (journal textSize file)[p]? = some e := by
  rw [readLine_tail] at h
  exact readable_of_readLine hp h

/-- The journal ends where no entry is read. -/
theorem journal_end (hp : p ≤ (journal textSize file).length)
    (h : ∀ e, readLine textSize file (p + 1) ≠ some (some (.entry e))) :
    p = (journal textSize file).length := by
  by_contra hne
  have hlt : p < (journal textSize file).length := Nat.lt_of_le_of_ne hp hne
  refine h (journal textSize file)[p] ?_
  rw [readLine_tail]
  exact readLine_of_readable (List.getElem?_eq_getElem hlt)

/-- One `readline` behind the first `p` entries, of the journal as it was at some time:
the end of the file, as far as it is there; something that ends `follow`; or the next
entry. -/
theorem read_cases {f : Follower} {found : File C} (hgrown : Grown textSize found file)
    (hposition : f.position = p + 1) (hp : p ≤ (journal textSize file).length) :
    (readLine textSize found (p + 1) = none ∧
      f.read textSize found = ({ f with caughtUp := true, phase := .deciding },
        if f.caughtUp then [] else [.caughtUp f.lastSeq false])) ∨
    (p = (journal textSize file).length ∧ ∃ phase : FollowPhase,
      (phase = .raised ∨ phase = .torn) ∧
      f.read textSize found = ({ f with phase := phase }, [])) ∨
    ∃ e, (journal textSize file)[p]? = some e ∧
      f.read textSize found =
        (if e.isTerminal then { f with position := p + 2, lastSeq := e.seq, phase := .ended }
          else { f with position := p + 2, lastSeq := e.seq },
        (if f.after < e.seq then [.entry e] else []) ++
          if e.isTerminal then (if f.caughtUp then [] else [.caughtUp e.seq true]) else []) := by
  rcases hline : readLine textSize found (p + 1) with _ | line
  · refine .inl ⟨rfl, ?_⟩
    rw [Follower.read, hposition, hline]
  have hfile := hgrown.readLine hline
  rcases line with _ | line
  · refine .inr (.inl ⟨journal_end hp fun e hno => ?_, .torn, .inr rfl, ?_⟩)
    · rw [hfile] at hno
      cases hno
    · rw [Follower.read, hposition, hline]
  cases line with
  | header requestId kernelId serverId =>
    refine .inr (.inl ⟨journal_end hp fun e hno => ?_, .raised, .inl rfl, ?_⟩)
    · rw [hfile] at hno
      cases hno
    · rw [Follower.read, hposition, hline]
  | entry e =>
    refine .inr (.inr ⟨e, journal_of_readLine hp hfile, ?_⟩)
    rw [Follower.read, hposition, hline]
    dsimp only
    by_cases hterminal : e.isTerminal = true
    · simp only [if_pos hterminal]
    · simp only [if_neg hterminal, List.append_nil]

end

/-! ### Connections -/

section

variable {c : Client F E} {textSize : Line (Content F) → ℕ} {file : File (Content F)}
  {es : List (Entry (Content F))} {st : JournalState F}

/-- The result of a part of a follow: a beginning of the journal is replayed, or the
replay of the journal ends so. -/
def Replays (c : Client F E) (es : List (Entry (Content F)))
    (result : Except (Ended F E) (JournalState F)) : Prop :=
  match result with
  | .ok st => ∃ n, Applied c es n st
  | .error x => replay c es = .error x

/-- What the client makes of the frames it received, and of all of them when the
extension has come to the terminal entry. -/
structure Continues (c : Client F E) (textSize : Line (Content F) → ℕ)
    (es : List (Entry (Content F))) (f : Follower) (found : List (File (Content F)))
    (st : JournalState F) : Prop where
  replays : ∀ n, Replays c es (((f.serve textSize found).take n).foldlM (JournalState.apply c) st)
  ends : (f.served textSize found).phase = .ended →
    ∃ x, (f.serve textSize found).foldlM (JournalState.apply c) st = .error x

/-- A frame that the client applies, before the rest. -/
theorem foldlM_cons_ok {frame : Frame (Content F)} {frames : List (Frame (Content F))}
    {st' : JournalState F} (h : st.apply c frame = .ok st') :
    (frame :: frames).foldlM (JournalState.apply c) st =
      frames.foldlM (JournalState.apply c) st' := by
  rw [List.foldlM_cons, h]
  rfl

theorem foldlM_cons_error {frame : Frame (Content F)} {frames : List (Frame (Content F))}
    {x : Ended F E} (h : st.apply c frame = .error x) :
    (frame :: frames).foldlM (JournalState.apply c) st = .error x := by
  rw [List.foldlM_cons, h]
  rfl

/-- A connection reads one line and goes on. -/
theorem serve_cons {f f' : Follower} {found : File (Content F)} {frames : List (Frame (Content F))}
    (hphase : f.phase = .reading) (hread : f.read textSize found = (f', frames))
    (rest : List (File (Content F))) :
    f.serve textSize (found :: rest) = frames ++ f'.resume.serve textSize rest ∧
      f.served textSize (found :: rest) = f'.resume.served textSize rest := by
  rw [Follower.serve, if_pos hphase, Follower.served, if_pos hphase, hread]
  exact ⟨rfl, rfl⟩

/-- The replay stands still while nothing, or a marker, is sent. -/
theorem Continues.quiet {f f' : Follower} {found : File (Content F)}
    {rest : List (File (Content F))} {frames : List (Frame (Content F))} {n : ℕ}
    (hphase : f.phase = .reading) (happlied : Applied c es n st)
    (hread : f.read textSize found = (f', frames))
    (hquiet : frames = [] ∨ ∃ seq finished, frames = [.caughtUp seq finished])
    (hrest : ∀ b, Continues c textSize es f'.resume rest { st with caughtUp := b }) :
    Continues c textSize es f (found :: rest) st := by
  obtain ⟨hserve, hserved⟩ := serve_cons hphase hread rest
  have hsame : { st with caughtUp := st.caughtUp } = st := rfl
  rcases hquiet with rfl | ⟨seq, finished, rfl⟩
  · rw [List.nil_append] at hserve
    refine ⟨fun n => ?_, fun hended => ?_⟩
    · rw [hserve]
      exact (hrest st.caughtUp).replays n
    · rw [hserve]
      rw [hserved] at hended
      exact (hrest st.caughtUp).ends hended
  · rw [List.singleton_append] at hserve
    refine ⟨fun n => ?_, fun hended => ?_⟩
    · rw [hserve]
      rcases n with _ | n
      · exact ⟨_, happlied⟩
      · rw [List.take_succ_cons, foldlM_cons_ok rfl]
        exact (hrest true).replays n
    · rw [hserve, foldlM_cons_ok rfl]
      rw [hserved] at hended
      exact (hrest true).ends hended

/-- An entry is sent: the client goes on with the rest, or ends. -/
theorem Continues.entry {f f' : Follower} {found : File (Content F)}
    {rest : List (File (Content F))} {p : ℕ} {e : Entry (Content F)}
    {more : List (Frame (Content F))} (hphase : f.phase = .reading)
    (happlied : Applied c es p st) (he : es[p]? = some e)
    (hread : f.read textSize found = (f', .entry e :: more))
    (hrest : ∀ st', st.applyEntry c e = .ok st' → more = [] ∧
      Continues c textSize es f'.resume rest st') :
    Continues c textSize es f (found :: rest) st := by
  obtain ⟨hserve, hserved⟩ := serve_cons hphase hread rest
  rw [List.cons_append] at hserve
  obtain ⟨_, hends⟩ := happlied.next he
  rcases happly : st.applyEntry c e with x | st'
  · have happly' : st.apply c (.entry e) = .error x := happly
    refine ⟨fun n => ?_, fun _ => ⟨x, ?_⟩⟩
    · rw [hserve]
      rcases n with _ | n
      · exact ⟨_, happlied⟩
      · rw [List.take_succ_cons, foldlM_cons_error happly']
        exact hends x happly
    · rw [hserve, foldlM_cons_error happly']
  · obtain ⟨rfl, hcontinues⟩ := hrest st' happly
    have happly' : st.apply c (.entry e) = .ok st' := happly
    rw [List.nil_append] at hserve
    refine ⟨fun n => ?_, fun hended => ?_⟩
    · rw [hserve]
      rcases n with _ | n
      · exact ⟨_, happlied⟩
      · rw [List.take_succ_cons, foldlM_cons_ok happly']
        exact hcontinues.replays n
    · rw [hserve, foldlM_cons_ok happly']
      rw [hserved] at hended
      exact hcontinues.ends hended

end

/-! ### The theorem -/

section

variable {c : Client F E} {textSize : Line (Content F) → ℕ} {file : File (Content F)}
  {seen : File (Content F) → Prop}

end

namespace Small

theorem distinct_texts (members : List (String × String))
    (hnodup : (members.map fun m => m.1.toList).Nodup) :
    (Json.Value.obj (members.map fun m => (m.1.toList, .str m.2.toList)) :
      Json.Value Unit).Distinct := by
  have hmembers : Json.Value.distinctMembers
      (members.map fun m => (m.1.toList, (.str m.2.toList : Json.Value Unit))) := by
    clear hnodup
    induction members with
    | nil => trivial
    | cons m ms ih => exact ⟨trivial, ih⟩
  refine ⟨?_, hmembers⟩
  rw [List.map_map]
  exact hnodup

/-- A `dict` of texts. -/
def textContent (members : List (String × String))
    (hnodup : (members.map fun m => m.1.toList).Nodup) : Content Unit where
  members := members.map fun m => (m.1.toList, .str m.2.toList)
  distinct := distinct_texts members hnodup

/-- The kernel's reply. -/
def replied : KernelMessage (Content Unit) where
  ours := true
  channel := .shell
  msgType := "execute_reply"
  idle := false
  content := textContent [("status", "ok")] (by decide)

/-- The kernel is idle again. -/
def idle : KernelMessage (Content Unit) where
  ours := true
  channel := .iopub
  msgType := "status"
  idle := true
  content := textContent [] (by decide)

/-- A Worker whose handler never fails. -/
def client : Client Unit Unit where
  py := Codec.Small.python
  outputHandler := fun _ _ => none
  tooBig := fun _ => false

end Small

end ExecutorService.Journals
