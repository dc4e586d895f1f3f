/-
The order of published events.

A publisher that holds any row of an Execution holds its first pending row, and
with it every pending row before those it holds: heads have no pending predecessor,
and the rows that follow a head are locked in order without a gap, since nobody else
can hold or change a row of that Execution meanwhile.  So an event is sent only when
all earlier ones of its Execution are in the stream.

* `Closed` — a list of rows that contains, before each row, its pending predecessors;
* `PublisherInv` — what holds of a publisher in each phase;
* `Publishers.apart_aggregate` — two publishers never share an Execution;
* `events_in_order` — sequences, the outbox and the stream, in every run.
-/
import ExecutorService.Outbox
import ExecutorService.Positions
import Mathlib.Data.List.Nodup
import Mathlib.Data.List.Range

namespace ExecutorService.Outbox

/-! ### The stream -/

/-- Every event but the first comes after its predecessor. -/
def InOrder (stream : List EventKey) : Prop :=
  ∀ x k, (x, k + 2) ∈ stream → stream.idxOf (x, k + 1) < stream.idxOf (x, k + 2)

theorem InOrder.append {stream : List EventKey} (h : InOrder stream) {key : EventKey}
    (hkey : ∀ k, key.2 = k + 2 → (key.1, k + 1) ∈ stream) : InOrder (stream ++ [key]) := by
  intro x k hmem
  by_cases hold : (x, k + 2) ∈ stream
  · have hlt := h x k hold
    have hpred : (x, k + 1) ∈ stream := by
      rw [← List.idxOf_lt_length_iff]
      exact lt_trans hlt (List.idxOf_lt_length_of_mem hold)
    rw [List.idxOf_append_of_mem hpred, List.idxOf_append_of_mem hold]
    exact hlt
  · rw [List.mem_append, List.mem_singleton] at hmem
    obtain rfl : (x, k + 2) = key := by
      rcases hmem with hmem | hmem
      · exact absurd hmem hold
      · exact hmem
    have hpred := hkey k rfl
    rw [List.idxOf_append_of_mem hpred, List.idxOf_append_of_notMem hold]
    exact Nat.lt_add_right _ (List.idxOf_lt_length_of_mem hpred)

/-! ### The rows of a publisher -/

/-- Before each row of the list stand its pending predecessors. -/
def Closed (db : Database) (rows : List OutboxRow) : Prop :=
  ∀ a r b, rows = a ++ r :: b → ∀ r' ∈ db.outbox, r'.aggregateId = r.aggregateId →
    r'.eventSequence < r.eventSequence → r'.status = .pending → r' ∈ a

theorem Closed.of_append {db : Database} {rows rows' : List OutboxRow}
    (h : Closed db (rows ++ rows')) : Closed db rows := by
  rintro a r b rfl r' hr' hagg hlt hpending
  exact h a r (b ++ rows') (by simp) r' hr' hagg hlt hpending

theorem Closed.append {db : Database} {rows rows' : List OutboxRow} (h : Closed db rows)
    (hrows' : ∀ a r b, rows' = a ++ r :: b → ∀ r' ∈ db.outbox, r'.aggregateId = r.aggregateId →
      r'.eventSequence < r.eventSequence → r'.status = .pending → r' ∈ rows ++ a) :
    Closed db (rows ++ rows') := by
  intro a r b heq r' hr' hagg hlt hpending
  rcases List.append_eq_append_iff.mp heq with ⟨a', rfl, heq'⟩ | ⟨c, hrows, heq'⟩
  · exact hrows' a' r b heq' r' hr' hagg hlt hpending
  rcases c with _ | ⟨x, c⟩
  · have hmem := hrows' [] r b heq'.symm r' hr' hagg hlt hpending
    simpa [hrows] using hmem
  · obtain ⟨rfl, _⟩ := List.cons.inj heq'
    exact h a r c hrows r' hr' hagg hlt hpending

theorem Closed.snoc {db : Database} {rows : List OutboxRow} {row : OutboxRow}
    (h : Closed db rows) (hrow : ∀ r' ∈ db.outbox, r'.aggregateId = row.aggregateId →
      r'.eventSequence < row.eventSequence → r'.status = .pending → r' ∈ rows) :
    Closed db (rows ++ [row]) := by
  refine h.append fun a r b heq r' hr' hagg hlt hpending => ?_
  obtain ⟨rfl, rfl, rfl⟩ : a = [] ∧ r = row ∧ b = [] := by
    rcases a with _ | ⟨x, a⟩
    · obtain ⟨rfl, rfl⟩ := List.cons.inj heq
      exact ⟨rfl, rfl, rfl⟩
    · simp at heq
  rw [List.append_nil]
  exact hrow r' hr' hagg hlt hpending

/-- What holds of a publisher, in each phase of its transaction. -/
structure PublisherInv (db : Database) (stream : List EventKey) (p : Publisher) : Prop where
  held : ∀ r ∈ p.events, r ∈ db.outbox ∧ r.status = .pending
  closed : Closed db p.events
  heads : p.phase = .heads → ∀ c ∈ p.candidates, c.key ∈ db.committed ∧
    ∀ r ∈ db.outbox, r.aggregateId = c.aggregateId → r.eventSequence < c.eventSequence →
      r.status ≠ .pending
  followers : p.phase = .followers → Closed db (p.events ++ p.candidates) ∧
    ∀ c ∈ p.candidates, c ∈ db.outbox ∧ c.available p.now = true ∧
      ∃ head ∈ p.events, head.aggregateId = c.aggregateId
  publishing : p.phase = .publishing → p.queue = [] ∨ ∃ handled, p.events = handled ++ p.queue ∧
    ∀ r ∈ handled, r.aggregateId ∈ p.blocked ∨ r.key ∈ stream
  changes : ∀ c ∈ p.changes, (∃ r ∈ p.events, r.key = c.key) ∧
    (c.status = .published → c.key ∈ stream)

/-- What holds of the publishers: each alone, and no row is in two queues. -/
structure Publishers (db : Database) (stream : List EventKey) (ps : List Publisher) : Prop where
  each : ∀ (i : ℕ) (p : Publisher), ps[i]? = some p → PublisherInv db stream p
  apart : ∀ (i j : ℕ) (p q : Publisher), i ≠ j → ps[i]? = some p → ps[j]? = some q →
    ∀ r ∈ p.events, ∀ r' ∈ q.events, r.key ≠ r'.key

/-- Sequence counters, the outbox and the stream. -/
structure Tables (db : Database) (stream : List EventKey) : Prop where
  sequences : ∀ x, (db.committed.filter (·.1 == x)).map (·.2) =
    List.range' 1 (db.lastSequence x)
  distinct : (db.outbox.map (·.key)).Nodup
  recorded : ∀ r ∈ db.outbox, r.key ∈ db.committed
  accounted : ∀ key ∈ db.committed, key ∈ stream ∨
    ∃ r ∈ db.outbox, r.key = key ∧ r.status = .pending
  ordered : InOrder stream

section

variable {db : Database} {stream : List EventKey} {ps : List Publisher}

theorem Tables.mem_committed (h : Tables db stream) {x : UUID} {k : ℕ} :
    (x, k) ∈ db.committed ↔ 1 ≤ k ∧ k ≤ db.lastSequence x := by
  have hiff : (x, k) ∈ db.committed ↔ k ∈ (db.committed.filter (·.1 == x)).map (·.2) := by
    simp only [List.mem_map, List.mem_filter, beq_iff_eq]
    constructor
    · intro hmem
      exact ⟨(x, k), ⟨hmem, rfl⟩, rfl⟩
    · rintro ⟨⟨x', k'⟩, ⟨hmem, rfl⟩, rfl⟩
      exact hmem
  rw [hiff, h.sequences x, List.mem_range'_1]
  omega

theorem Tables.eq_of_key (h : Tables db stream) {r r' : OutboxRow} (hr : r ∈ db.outbox)
    (hr' : r' ∈ db.outbox) (hkey : r.key = r'.key) : r = r' :=
  List.inj_on_of_nodup_map h.distinct hr hr' hkey

/-- Two publishers never hold rows of one Execution: each would hold its first
pending row. -/
theorem Publishers.apart_aggregate (hps : Publishers db stream ps) {i j : ℕ} {p q : Publisher}
    (hij : i ≠ j) (hp : ps[i]? = some p) (hq : ps[j]? = some q)
    {r r' : OutboxRow} (hr : r ∈ p.events) (hr' : r' ∈ q.events) :
    r.aggregateId ≠ r'.aggregateId := by
  have hmem := (hps.each i p hp).held r hr
  have hmem' := (hps.each j q hq).held r' hr'
  intro hagg
  rcases Nat.lt_trichotomy r.eventSequence r'.eventSequence with hlt | heq | hlt
  · obtain ⟨a, b, hab⟩ := List.append_of_mem hr'
    have hmem := (hps.each j q hq).closed a r' b hab r hmem.1 hagg hlt hmem.2
    exact hps.apart i j p q hij hp hq r hr r (by rw [hab]; exact List.mem_append_left _ hmem) rfl
  · exact hps.apart i j p q hij hp hq r hr r' hr' (Prod.ext hagg heq)
  · obtain ⟨a, b, hab⟩ := List.append_of_mem hr
    have hmem := (hps.each i p hp).closed a r b hab r' hmem'.1 hagg.symm hlt hmem'.2
    exact hps.apart i j p q hij hp hq r' (by rw [hab]; exact List.mem_append_left _ hmem) r' hr' rfl

/-- What a change of the tables must leave alone for a publisher. -/
structure Keeps (db db' : Database) (p : Publisher) : Prop where
  held : ∀ r ∈ db.outbox, r.status = .pending → (∃ e ∈ p.events, e.aggregateId = r.aggregateId) →
    r ∈ db'.outbox
  pending : ∀ r' ∈ db'.outbox, r'.status = .pending →
    (∃ r ∈ db.outbox, r.key = r'.key ∧ r.status = .pending ∧
      ((∃ e ∈ p.events, e.aggregateId = r.aggregateId) → r' = r)) ∨
    db.lastSequence r'.aggregateId < r'.eventSequence
  committed : ∀ key ∈ db.committed, key ∈ db'.committed

theorem Closed.keep {db db' : Database} {p : Publisher} {rows : List OutboxRow}
    (h : Closed db rows) (hkeeps : Keeps db db' p)
    (hrows : ∀ r ∈ rows, r.eventSequence ≤ db.lastSequence r.aggregateId ∧
      ∃ e ∈ p.events, e.aggregateId = r.aggregateId) : Closed db' rows := by
  intro a r b hab r' hr' hagg hlt hpending
  obtain ⟨hle, e, he, heagg⟩ := hrows r (by rw [hab]; simp)
  rcases hkeeps.pending r' hr' hpending with ⟨r₀, hr₀, hkey, hpending₀, hsame⟩ | hnew
  · obtain ⟨hagg₀, hseq₀⟩ := Prod.mk.inj hkey
    obtain rfl := hsame ⟨e, he, by rw [heagg, hagg₀, hagg]⟩
    exact h a r b hab r' hr₀ hagg hlt hpending
  · rw [hagg] at hnew
    omega

theorem PublisherInv.keep {db' : Database} {stream' : List EventKey} {p : Publisher}
    (h : PublisherInv db stream p) (ht : Tables db stream) (hkeeps : Keeps db db' p)
    (hstream : ∀ key ∈ stream, key ∈ stream') : PublisherInv db' stream' p := by
  have hle : ∀ r ∈ db.outbox, r.eventSequence ≤ db.lastSequence r.aggregateId :=
    fun r hr => (ht.mem_committed.mp (ht.recorded r hr)).2
  refine ⟨?_, ?_, ?_, ?_, ?_, ?_⟩
  · intro r hr
    obtain ⟨hmem, hpending⟩ := h.held r hr
    exact ⟨hkeeps.held r hmem hpending ⟨r, hr, rfl⟩, hpending⟩
  · exact h.closed.keep hkeeps fun r hr => ⟨hle r (h.held r hr).1, r, hr, rfl⟩
  · intro hphase c hc
    obtain ⟨hcommitted, hnone⟩ := h.heads hphase c hc
    refine ⟨hkeeps.committed _ hcommitted, fun r hr hagg hlt hpending => ?_⟩
    rcases hkeeps.pending r hr hpending with ⟨r₀, hr₀, hkey, hpending₀, _⟩ | hnew
    · obtain ⟨hagg₀, hseq₀⟩ := Prod.mk.inj hkey
      exact hnone r₀ hr₀ (by rw [hagg₀, hagg]) (by rw [hseq₀]; exact hlt) hpending₀
    · have := (ht.mem_committed.mp hcommitted).2
      rw [hagg] at hnew
      omega
  · intro hphase
    obtain ⟨hclosed, hcandidates⟩ := h.followers hphase
    have hpending : ∀ c ∈ p.candidates, c.status = .pending := by
      intro c hc
      have := (hcandidates c hc).2.1
      simp only [OutboxRow.available, Bool.and_eq_true, beq_iff_eq] at this
      exact this.1
    refine ⟨hclosed.keep hkeeps fun r hr => ?_, fun c hc => ?_⟩
    · rcases List.mem_append.mp hr with hr | hr
      · exact ⟨hle r (h.held r hr).1, r, hr, rfl⟩
      · exact ⟨hle r (hcandidates r hr).1, (hcandidates r hr).2.2⟩
    · obtain ⟨hmem, havailable, head, hhead, hagg⟩ := hcandidates c hc
      exact ⟨hkeeps.held c hmem (hpending c hc) ⟨head, hhead, hagg⟩, havailable, head, hhead, hagg⟩
  · intro hphase
    rcases h.publishing hphase with hqueue | ⟨handled, heq, hhandled⟩
    · exact .inl hqueue
    · refine .inr ⟨handled, heq, fun r hr => ?_⟩
      rcases hhandled r hr with hblocked | hmem
      · exact .inl hblocked
      · exact .inr (hstream _ hmem)
  · intro c hc
    exact ⟨(h.changes c hc).1, fun hpub => hstream _ ((h.changes c hc).2 hpub)⟩

theorem Keeps.refl (db : Database) (p : Publisher) : Keeps db db p :=
  ⟨fun _ hr _ _ => hr, fun r hr hp => .inl ⟨r, hr, rfl, hp, fun _ => rfl⟩, fun _ h => h⟩

/-- One publisher moves; the tables may change where the others hold nothing. -/
theorem Publishers.replace {db' : Database} {stream' : List EventKey} {ps' : List Publisher}
    {i : ℕ} {p' : Publisher} (hps : Publishers db stream ps) (ht : Tables db stream)
    (hps' : ∀ (j : ℕ) (q : Publisher), ps'[j]? = some q →
      j = i ∧ q = p' ∨ j ≠ i ∧ ps[j]? = some q)
    (hp' : PublisherInv db' stream' p')
    (hkeeps : ∀ (j : ℕ) (q : Publisher), j ≠ i → ps[j]? = some q → Keeps db db' q)
    (hstream : ∀ key ∈ stream, key ∈ stream')
    (hapart : ∀ (j : ℕ) (q : Publisher), j ≠ i → ps[j]? = some q →
      ∀ r ∈ p'.events, ∀ r' ∈ q.events, r.key ≠ r'.key) :
    Publishers db' stream' ps' := by
  refine ⟨fun j q hj => ?_, fun j k q q' hjk hj hk r hr r' hr' => ?_⟩
  · rcases hps' j q hj with ⟨_, rfl⟩ | ⟨hne, hj⟩
    · exact hp'
    · exact (hps.each j q hj).keep ht (hkeeps j q hne hj) hstream
  · rcases hps' j q hj with ⟨rfl, rfl⟩ | ⟨hne, hj⟩
    · rcases hps' k q' hk with ⟨rfl, rfl⟩ | ⟨hne', hk⟩
      · exact absurd rfl hjk
      · exact hapart k q' hne' hk r hr r' hr'
    · rcases hps' k q' hk with ⟨rfl, rfl⟩ | ⟨hne', hk⟩
      · exact (hapart j q hne hj r' hr' r hr).symm
      · exact hps.apart j k q q' hjk hj hk r hr r' hr'

/-- The tables change where no publisher holds a row. -/
theorem Publishers.keep {db' : Database} (hps : Publishers db stream ps) (ht : Tables db stream)
    (hkeeps : ∀ (j : ℕ) (q : Publisher), ps[j]? = some q → Keeps db db' q) :
    Publishers db' stream ps :=
  ⟨fun j q hj => (hps.each j q hj).keep ht (hkeeps j q hj) (fun _ h => h), hps.apart⟩

end

/-! ### Writers -/

/-- What holds of the writers: their rows are pending and numbered from the counter on. -/
structure Writers (db : Database) (ws : List Writer) : Prop where
  pending : ∀ (i : ℕ) (w : Writer), ws[i]? = some w → ∀ r ∈ w, r.status = .pending
  sequences : ∀ (i : ℕ) (w : Writer), ws[i]? = some w → ∀ x,
    (w.filter (·.aggregateId == x)).map (·.eventSequence) =
      List.range' (db.lastSequence x + 1) (w.countP (·.aggregateId == x))
  apart : ∀ (i j : ℕ) (w w' : Writer), i ≠ j → ws[i]? = some w → ws[j]? = some w' →
    ∀ x, w.holds x = true → w'.holds x = false

theorem Writer.countP_eq_zero {w : Writer} {x : UUID} (h : w.holds x = false) :
    w.countP (·.aggregateId == x) = 0 := by
  rw [List.countP_eq_zero]
  intro r hr
  simpa using List.any_eq_false.mp h r hr

section

variable {db : Database} {stream : List EventKey} {ws : List Writer}

/-- The rows of a transaction are numbered past the committed ones. -/
theorem Writers.lt_eventSequence (hws : Writers db ws) {i : ℕ} {w : Writer}
    (hi : ws[i]? = some w) {r : OutboxRow} (hr : r ∈ w) :
    db.lastSequence r.aggregateId < r.eventSequence ∧
      r.eventSequence ≤ db.lastSequence r.aggregateId + w.countP (·.aggregateId == r.aggregateId) := by
  have hmem : r.eventSequence ∈ (w.filter (·.aggregateId == r.aggregateId)).map (·.eventSequence) :=
    List.mem_map_of_mem (List.mem_filter.mpr ⟨hr, by simp⟩)
  rw [hws.sequences i w hi, List.mem_range'_1] at hmem
  omega

theorem Writers.keys_nodup (hws : Writers db ws) {i : ℕ} {w : Writer} (hi : ws[i]? = some w) :
    (w.map (·.key)).Nodup := by
  have hx : ∀ x, ((w.filter (·.aggregateId == x)).map (·.eventSequence)).Nodup := by
    intro x
    rw [hws.sequences i w hi]
    exact List.nodup_range'
  -- Two rows with one key are two rows of one Execution with one sequence.
  have hpair : w.Pairwise fun r r' => r.key ≠ r'.key := by
    rw [List.pairwise_iff_getElem]
    intro a b ha hb hab hkey
    obtain ⟨hagg, hseq⟩ := Prod.mk.inj hkey
    have hfilter := List.pairwise_map.mp (hx w[b].aggregateId)
    rw [List.pairwise_filter, List.pairwise_iff_getElem] at hfilter
    exact hfilter a b ha hb hab (by simpa using hagg) (by simp) hseq
  rw [List.Nodup, List.pairwise_map]
  exact hpair

/-- An event written while no other transaction holds the counter. -/
theorem Writers.write (hws : Writers db ws) {i : ℕ} {x : UUID} {now : Time} {s : State}
    (hs : s.writers = ws) (hdb : s.database = db) (hheld : s.counterHeld i x = false) :
    Writers db (ws.modify i fun w => persistExecutionEvent db w x now) := by
  subst hs hdb
  rcases hi : s.writers[i]? with _ | w
  · rw [List.modify_eq_self (List.getElem?_eq_none_iff.mp hi)]
    exact hws
  -- No other Writer holds the counter of this Execution.
  have hother : ∀ (j : ℕ) (w' : Writer), j ≠ i → s.writers[j]? = some w' → w'.holds x = false := by
    intro j w' hj hw'
    rw [State.counterHeld, List.any_eq_false] at hheld
    simpa using hheld w' (List.mem_eraseIdx_iff_getElem?.mpr ⟨j, hj, hw'⟩)
  have hholds : ∀ y, (persistExecutionEvent s.database w x now).holds y = true →
      w.holds y = true ∨ y = x := by
    intro y hy
    simp only [Writer.holds, persistExecutionEvent, List.any_append, List.any_cons, List.any_nil,
      Bool.or_false, Bool.or_eq_true, beq_iff_eq] at hy
    exact hy.imp id Eq.symm
  refine ⟨fun j w' hj r hr => ?_, fun j w' hj y => ?_, fun j k w' w'' hjk hj hk y hy => ?_⟩
  · -- The row carries the status it is inserted with.
    rcases List.getElem?_modify_cases hi hj with ⟨rfl, rfl⟩ | ⟨_, hj⟩
    · rcases List.mem_append.mp hr with hr | hr
      · exact hws.pending j w hi r hr
      · rw [List.mem_singleton.mp hr]
    · exact hws.pending j w' hj r hr
  · -- The numbers of this Execution grow by one; all others are as before.
    rcases List.getElem?_modify_cases hi hj with ⟨rfl, rfl⟩ | ⟨_, hj⟩
    · have hold := hws.sequences j w hi y
      simp only [persistExecutionEvent, List.filter_append, List.map_append, hold,
        List.countP_append]
      by_cases hxy : x = y
      · subst hxy
        simp only [BEq.rfl, List.filter_cons_of_pos, List.filter_nil, List.map_cons, List.map_nil,
          List.countP_cons_of_pos, List.countP_nil, nextExecutionEventSequence]
        rw [List.range'_concat]
        congr 2
        omega
      · simp [hxy]
    · exact hws.sequences j w' hj y
  · -- No two Writers hold the same counter, for the one just taken was free.
    rcases List.getElem?_modify_cases hi hj with ⟨rfl, rfl⟩ | ⟨hne, hold⟩
    · rcases List.getElem?_modify_cases hi hk with ⟨rfl, rfl⟩ | ⟨hne', hold'⟩
      · exact absurd rfl hjk
      · rcases hholds y hy with hy | rfl
        · exact hws.apart j k w w'' hjk hi hold' y hy
        · exact hother k w'' hne' hold'
    · rcases List.getElem?_modify_cases hi hk with ⟨rfl, rfl⟩ | ⟨_, hold'⟩
      · rw [← Bool.not_eq_true]
        intro hy'
        rcases hholds y hy' with hy' | rfl
        · rw [hws.apart j k w' w hjk hold hi y hy] at hy'
          exact Bool.noConfusion hy'
        · rw [hother j w' hne hold] at hy
          exact Bool.noConfusion hy
      · exact hws.apart j k w' w'' hjk hold hold' y hy

/-- Transactions that have written nothing begin, or others end without a commit. -/
theorem Writers.clear (hws : Writers db ws) {ws' : List Writer}
    (hws' : ∀ (j : ℕ) (w : Writer), ws'[j]? = some w → w = [] ∨ ws[j]? = some w) :
    Writers db ws' := by
  refine ⟨fun j w hj r hr => ?_, fun j w hj x => ?_, fun j k w w' hjk hj hk x hx => ?_⟩
  · rcases hws' j w hj with rfl | hold
    · exact absurd hr List.not_mem_nil
    · exact hws.pending j w hold r hr
  · rcases hws' j w hj with rfl | hold
    · rfl
    · exact hws.sequences j w hold x
  · rcases hws' j w hj with rfl | hold
    · exact absurd hx Bool.false_ne_true
    · rcases hws' k w' hk with rfl | hold'
      · rfl
      · exact hws.apart j k w w' hjk hold hold' x hx

theorem Writers.congr {db' : Database} (hws : Writers db ws)
    (h : db'.lastSequence = db.lastSequence) : Writers db' ws :=
  ⟨hws.pending, fun i w hi x => h ▸ hws.sequences i w hi x, hws.apart⟩

/-- A commit moves the counters that only the committing transaction holds. -/
theorem Writers.commit (hws : Writers db ws) {i : ℕ} {w : Writer} (hi : ws[i]? = some w) :
    Writers (db.commitEvents w) (ws.set i []) := by
  have hclear : Writers db (ws.set i []) :=
    hws.clear fun j w' hj => (List.getElem?_set_cases hj).imp (·.2) (·.2)
  refine ⟨hclear.pending, fun j w' hj x => ?_, hclear.apart⟩
  rcases List.getElem?_set_cases hj with ⟨rfl, rfl⟩ | ⟨hne, hold⟩
  · rfl
  rcases hx : w'.holds x with _ | _
  · have hempty : w'.filter (·.aggregateId == x) = [] := by
      rw [← List.length_eq_zero_iff, ← List.countP_eq_length_filter, Writer.countP_eq_zero hx]
    rw [hempty, Writer.countP_eq_zero hx]
    rfl
  · have hzero := Writer.countP_eq_zero (hws.apart j i w' w hne hold hi x hx)
    rw [hclear.sequences j w' hj x]
    simp only [Database.commitEvents, hzero, Nat.add_zero]

theorem Tables.commit (ht : Tables db stream) (hws : Writers db ws) {i : ℕ} {w : Writer}
    (hi : ws[i]? = some w) : Tables (db.commitEvents w) stream := by
  refine ⟨fun x => ?_, ?_, fun r hr => ?_, fun key hkey => ?_, ht.ordered⟩
  · have hnew : ((w.map (·.key)).filter (·.1 == x)).map (·.2) =
        (w.filter (·.aggregateId == x)).map (·.eventSequence) := by
      rw [List.filter_map, List.map_map]
      rfl
    simp only [Database.commitEvents, List.filter_append, List.map_append, ht.sequences x, hnew,
      hws.sequences i w hi x]
    rw [Nat.add_comm (db.lastSequence x) 1]
    exact List.range'_append_1
  · simp only [Database.commitEvents, List.map_append]
    refine List.Nodup.append ht.distinct (hws.keys_nodup hi) fun key hold hnew => ?_
    obtain ⟨r, hr, rfl⟩ := List.mem_map.mp hold
    obtain ⟨r', hr', hkey⟩ := List.mem_map.mp hnew
    obtain ⟨hagg, hseq⟩ := Prod.mk.inj hkey
    have hle := (ht.mem_committed.mp (ht.recorded r hr)).2
    have hlt := (hws.lt_eventSequence hi hr').1
    rw [hagg, hseq] at hlt
    omega
  · rcases List.mem_append.mp hr with hr | hr
    · exact List.mem_append_left _ (ht.recorded r hr)
    · exact List.mem_append_right _ (List.mem_map_of_mem hr)
  · rcases List.mem_append.mp hkey with hkey | hkey
    · rcases ht.accounted key hkey with hmem | ⟨r, hr, hpending⟩
      · exact .inl hmem
      · exact .inr ⟨r, List.mem_append_left _ hr, hpending⟩
    · obtain ⟨r, hr, rfl⟩ := List.mem_map.mp hkey
      exact .inr ⟨r, List.mem_append_right _ hr, rfl, hws.pending i w hi r hr⟩

theorem Keeps.commit (hws : Writers db ws) {i : ℕ} {w : Writer} (hi : ws[i]? = some w)
    (p : Publisher) : Keeps db (db.commitEvents w) p := by
  refine ⟨fun r hr _ _ => List.mem_append_left _ hr, fun r hr hpending => ?_,
    fun key hkey => List.mem_append_left _ hkey⟩
  rcases List.mem_append.mp hr with hr | hr
  · exact .inl ⟨r, hr, rfl, hpending, fun _ => rfl⟩
  · exact .inr (hws.lt_eventSequence hi hr).1

end

/-! ### Publishers -/

section

variable {db : Database} {stream : List EventKey} {ps : List Publisher}

/-- A publisher that holds nothing and does nothing. -/
theorem PublisherInv.ended : PublisherInv db stream {} := by
  refine ⟨?_, ?_, ?_, ?_, ?_, ?_⟩
  · exact fun r hr => absurd hr List.not_mem_nil
  · intro a r b hab
    simp at hab
  · exact fun h => Phase.noConfusion h
  · exact fun h => Phase.noConfusion h
  · exact fun h => Phase.noConfusion h
  · exact fun r hr => absurd hr List.not_mem_nil

theorem PublisherInv.poll (ht : Tables db stream) (now : Time) :
    PublisherInv db stream { now := now, phase := .heads, candidates := db.headRows now } := by
  have hended : PublisherInv db stream {} := PublisherInv.ended
  refine ⟨hended.held, hended.closed, fun _ c hc => ?_,
    fun h => Phase.noConfusion h, fun h => Phase.noConfusion h, hended.changes⟩
  simp only [Database.headRows, List.mem_mergeSort, List.mem_filter, Bool.and_eq_true] at hc
  obtain ⟨hmem, _, hhead⟩ := hc
  refine ⟨ht.recorded c hmem, fun r hr hagg hlt hpending => ?_⟩
  simp only [Database.isHead, Bool.not_eq_true', List.any_eq_false] at hhead
  exact hhead r hr (by simp [hagg, hlt, hpending])

/-- Nobody else holds a row that follows one of ours. -/
theorem Publishers.locked_eq_false {s : State} (hps : Publishers s.database s.stream s.publishers)
    {i : ℕ} {p : Publisher} (hi : s.publishers[i]? = some p) {head c : OutboxRow}
    (hhead : head ∈ p.events) (hagg : head.aggregateId = c.aggregateId) :
    s.locked i c.key = false := by
  simp only [State.locked, List.any_eq_false, beq_iff_eq, List.any_eq_true, not_exists, not_and]
  intro q hq r hr hkey
  obtain ⟨j, hji, hj⟩ := List.mem_eraseIdx_iff_getElem?.mp hq
  have hne := hps.apart_aggregate (Ne.symm hji) hi hj hhead hr
  exact hne (hagg.trans (congrArg Prod.fst hkey).symm)

theorem Database.mem_of_find {key : EventKey} {current : OutboxRow}
    (h : db.outbox.find? (·.key == key) = some current) :
    current ∈ db.outbox ∧ current.key = key :=
  ⟨List.mem_of_find?_eq_some h, by simpa using List.find?_some h⟩

/-- A candidate is passed over, or locked with the row as it is now. -/
theorem State.lockNext_cases (s : State) (batchSize i : ℕ) (p : Publisher) :
    s.lockNext batchSize i p = p ∨ s.lockNext batchSize i p = { p with candidates := [] } ∨
    ∃ row rest, p.candidates = row :: rest ∧
      ((s.lockNext batchSize i p = { p with candidates := rest } ∧
        (s.locked i row.key = true ∨ ∀ current ∈ s.database.outbox, current.key = row.key →
          (s.database.outbox.map (·.key)).Nodup → current.available p.now = false)) ∨
      ∃ current ∈ s.database.outbox, current.key = row.key ∧ current.available p.now = true ∧
        s.locked i row.key = false ∧
        s.lockNext batchSize i p = { p with candidates := rest, events := p.events ++ [current] }) := by
  rw [State.lockNext]
  rcases hcandidates : p.candidates with _ | ⟨row, rest⟩
  · exact .inl rfl
  refine .inr ?_
  by_cases hfull : batchSize ≤ p.events.length
  · exact .inl (if_pos hfull)
  refine .inr ⟨row, rest, rfl, ?_⟩
  simp only [if_neg hfull]
  rcases hlocked : s.locked i row.key with _ | _
  swap
  · exact .inl ⟨rfl, .inl rfl⟩
  rcases hfind : s.database.outbox.find? (·.key == row.key) with _ | current
  · refine .inl ⟨by simp [hfind], .inr fun current hmem hkey _ => ?_⟩
    exact absurd hkey (by simpa using List.find?_eq_none.mp hfind current hmem)
  obtain ⟨hmem, hkey⟩ := Database.mem_of_find hfind
  rcases havailable : current.available p.now with _ | _
  · refine .inl ⟨by simp [hfind, havailable], .inr fun current' hmem' hkey' hnodup => ?_⟩
    obtain rfl := List.inj_on_of_nodup_map hnodup hmem hmem' (hkey.trans hkey'.symm)
    exact havailable
  · exact .inr ⟨current, hmem, hkey, havailable, rfl, by simp [hfind, havailable]⟩

theorem OutboxRow.pending_of_available {row : OutboxRow} {now : Time}
    (h : row.available now = true) : row.status = .pending := by
  simp only [OutboxRow.available, Bool.and_eq_true, beq_iff_eq] at h
  exact h.1

/-- Fewer candidates, as the query gives up or passes one over. -/
theorem PublisherInv.drop {p : Publisher} (h : PublisherInv db stream p) {rest : List OutboxRow}
    (hphase : p.phase = .heads ∨ rest = []) (hrest : ∀ c ∈ rest, c ∈ p.candidates) :
    PublisherInv db stream { p with candidates := rest } := by
  refine ⟨h.held, h.closed, fun hheads c hc => h.heads hheads c (hrest c hc), fun hfollowers => ?_,
    h.publishing, h.changes⟩
  obtain rfl : rest = [] := by
    rcases hphase with hphase | hphase
    · rw [show p.phase = .followers from hfollowers] at hphase
      exact Phase.noConfusion hphase
    · exact hphase
  refine ⟨?_, fun c hc => absurd hc List.not_mem_nil⟩
  rw [List.append_nil]
  exact h.closed

/-- A candidate is locked. -/
theorem PublisherInv.take {p : Publisher} (h : PublisherInv db stream p)
    {row current : OutboxRow} {rest : List OutboxRow} (hcandidates : p.candidates = row :: rest)
    (hphase : p.phase = .heads ∨ p.phase = .followers ∧ current = row)
    (hmem : current ∈ db.outbox) (hkey : current.key = row.key)
    (hpending : current.status = .pending) :
    PublisherInv db stream { p with candidates := rest, events := p.events ++ [current] } := by
  obtain ⟨hagg, hseq⟩ := Prod.mk.inj hkey
  have hheld : ∀ r ∈ p.events ++ [current], r ∈ db.outbox ∧ r.status = .pending := by
    intro r hr
    rcases List.mem_append.mp hr with hr | hr
    · exact h.held r hr
    · rw [List.mem_singleton.mp hr]
      exact ⟨hmem, hpending⟩
  have hchanges : ∀ c ∈ p.changes, (∃ r ∈ p.events ++ [current], r.key = c.key) ∧
      (c.status = .published → c.key ∈ stream) := by
    intro c hc
    obtain ⟨⟨r, hr, hrkey⟩, hpub⟩ := h.changes c hc
    exact ⟨⟨r, List.mem_append_left _ hr, hrkey⟩, hpub⟩
  rcases hphase with hphase | ⟨hphase, rfl⟩
  · refine ⟨hheld, ?_, fun _ c hc => ?_, fun hp => ?_, fun hp => ?_, hchanges⟩
    · refine h.closed.snoc fun r hr hragg hlt hrpending => ?_
      have hnone := (h.heads hphase row (by simp [hcandidates])).2
      exact absurd hrpending (hnone r hr (hragg.trans hagg) (hseq ▸ hlt))
    · exact h.heads hphase c (by rw [hcandidates]; exact List.mem_cons_of_mem _ hc)
    · rw [show p.phase = .followers from hp] at hphase
      exact Phase.noConfusion hphase
    · rw [show p.phase = .publishing from hp] at hphase
      exact Phase.noConfusion hphase
  · obtain ⟨hclosed, hcands⟩ := h.followers hphase
    rw [hcandidates] at hclosed hcands
    have hclosed' : Closed db ((p.events ++ [current]) ++ rest) := by
      rw [List.append_assoc, List.singleton_append]
      exact hclosed
    refine ⟨hheld, hclosed'.of_append, fun hp => ?_, fun _ => ⟨hclosed', fun c hc => ?_⟩,
      fun hp => ?_, hchanges⟩
    · rw [show p.phase = .heads from hp] at hphase
      exact Phase.noConfusion hphase
    · obtain ⟨hc, havailable, head, hhead, heq⟩ := hcands c (List.mem_cons_of_mem _ hc)
      exact ⟨hc, havailable, head, List.mem_append_left _ hhead, heq⟩
    · rw [show p.phase = .publishing from hp] at hphase
      exact Phase.noConfusion hphase

/-- One candidate of a query: the publisher stays sound, and any row it newly holds
was locked by nobody else. -/
theorem PublisherInv.lockNext {s : State} {batchSize i : ℕ} {p : Publisher}
    (ht : Tables s.database s.stream) (hps : Publishers s.database s.stream s.publishers)
    (hi : s.publishers[i]? = some p) (hphase : p.phase = .heads ∨ p.phase = .followers) :
    PublisherInv s.database s.stream (s.lockNext batchSize i p) ∧
      ∀ r ∈ (s.lockNext batchSize i p).events, r ∈ p.events ∨ s.locked i r.key = false := by
  have h := hps.each i p hi
  have hsame : ∀ r ∈ p.events, r ∈ p.events ∨ s.locked i r.key = false := fun _ hr => .inl hr
  rcases s.lockNext_cases batchSize i p with heq | heq | ⟨row, rest, hcandidates, hcase⟩
  · rw [heq]
    exact ⟨h, hsame⟩
  · rw [heq]
    exact ⟨h.drop (.inr rfl) fun c hc => absurd hc List.not_mem_nil, hsame⟩
  rcases hcase with ⟨heq, hskip⟩ | ⟨current, hmem, hkey, havailable, hlocked, heq⟩
  · rw [heq]
    refine ⟨h.drop ?_ fun c hc => by rw [hcandidates]; exact List.mem_cons_of_mem _ hc, hsame⟩
    rcases hphase with hphase | hphase
    · exact .inl hphase
    -- A row that follows a head of ours is never passed over.
    obtain ⟨hrow, havailable, head, hhead, hagg⟩ :=
      (h.followers hphase).2 row (by simp [hcandidates])
    rcases hskip with hlocked | hskip
    · rw [hps.locked_eq_false hi hhead hagg] at hlocked
      exact Bool.noConfusion hlocked
    · rw [hskip row hrow rfl ht.distinct] at havailable
      exact Bool.noConfusion havailable
  · rw [heq]
    refine ⟨h.take hcandidates ?_ hmem hkey (OutboxRow.pending_of_available havailable),
      fun r hr => ?_⟩
    · rcases hphase with hphase | hphase
      · exact .inl hphase
      · have hrow := ((h.followers hphase).2 row (by simp [hcandidates])).1
        exact .inr ⟨hphase, ht.eq_of_key hmem hrow hkey⟩
    · rcases List.mem_append.mp hr with hr | hr
      · exact .inl hr
      · rw [List.mem_singleton.mp hr, hkey]
        exact .inr hlocked

/-- The rows that follow a held one come in the order of their sequences. -/
theorem Database.followerRows_sorted (db : Database) (now : Time) (events : List OutboxRow) :
    (db.followerRows now events).Pairwise fun r r' =>
      r.aggregateId = r'.aggregateId → r.eventSequence ≤ r'.eventSequence := by
  have hsorted : (db.followerRows now events).Pairwise fun a b =>
      decide (a.aggregateId < b.aggregateId ∨
        a.aggregateId = b.aggregateId ∧ a.eventSequence ≤ b.eventSequence) = true := by
    refine List.pairwise_mergeSort (fun a b c hab hbc => ?_) (fun a b => ?_) _
    · simp only [decide_eq_true_eq] at hab hbc ⊢
      rcases hab with hab | ⟨hab, hseq⟩
      · rcases hbc with hbc | ⟨hbc, _⟩
        · exact .inl (lt_trans hab hbc)
        · exact .inl (hbc ▸ hab)
      · rcases hbc with hbc | ⟨hbc, hseq'⟩
        · exact .inl (hab ▸ hbc)
        · exact .inr ⟨hab.trans hbc, le_trans hseq hseq'⟩
    · simp only [Bool.or_eq_true, decide_eq_true_eq]
      rcases lt_trichotomy a.aggregateId b.aggregateId with h | h | h
      · exact .inl (.inl h)
      · rcases le_total a.eventSequence b.eventSequence with h' | h'
        · exact .inl (.inr ⟨h, h'⟩)
        · exact .inr (.inr ⟨h.symm, h'⟩)
      · exact .inr (.inl h)
  refine hsorted.imp fun {r r'} hle hagg => ?_
  rcases of_decide_eq_true hle with hlt | ⟨_, hle⟩
  · exact absurd hagg (ne_of_lt hlt)
  · exact hle

theorem Database.mem_followerRows {now : Time} {events : List OutboxRow} {row : OutboxRow} :
    row ∈ db.followerRows now events ↔ row ∈ db.outbox ∧ row.available now = true ∧
      (∃ head ∈ events, head.aggregateId = row.aggregateId) ∧
      (∀ r ∈ events, r.key ≠ row.key) ∧
      ∀ r ∈ db.outbox, r.aggregateId = row.aggregateId → r.status = .pending →
        r.eventSequence < row.eventSequence → (∃ e ∈ events, e.key = r.key) ∨ r.availableAt ≤ now := by
  have hfollows : db.follows now (events.map (·.key)) row = true ↔
      ∀ r ∈ db.outbox, r.aggregateId = row.aggregateId → r.status = .pending →
        r.eventSequence < row.eventSequence →
          (∃ e ∈ events, e.key = r.key) ∨ r.availableAt ≤ now := by
    simp only [Database.follows, Bool.not_eq_true', List.any_eq_false, Bool.and_eq_true,
      beq_iff_eq, decide_eq_true_eq, not_and, List.contains_eq_mem, decide_eq_false_iff_not, List.mem_map]
    constructor
    · intro h r hr hagg hpending hlt
      by_cases hheld : ∃ e ∈ events, e.key = r.key
      · exact .inl hheld
      · exact .inr (Int.not_lt.mp (h r hr ⟨⟨⟨hagg, hpending⟩, hlt⟩, hheld⟩))
    · rintro h r hr ⟨⟨⟨hagg, hpending⟩, hlt⟩, hheld⟩
      exact Int.not_lt.mpr ((h r hr hagg hpending hlt).resolve_left hheld)
  simp only [Database.followerRows, List.mem_mergeSort, List.mem_filter, Bool.and_eq_true,
    hfollows, List.any_eq_true, beq_iff_eq, Bool.not_eq_true', List.contains_eq_mem,
    decide_eq_false_iff_not, List.mem_map, not_exists, not_and]
  tauto

theorem PublisherInv.follow {p : Publisher} (h : PublisherInv db stream p) (ht : Tables db stream)
    (batchSize : ℕ) :
    PublisherInv db stream { p with
      phase := .followers
      candidates := if batchSize ≤ p.events.length then []
        else db.followerRows p.now p.events } := by
  refine ⟨h.held, h.closed, fun hp => Phase.noConfusion hp, fun _ => ?_,
    fun hp => Phase.noConfusion hp, h.changes⟩
  by_cases hfull : batchSize ≤ p.events.length
  · simp only [if_pos hfull, List.append_nil]
    exact ⟨h.closed, fun c hc => absurd hc List.not_mem_nil⟩
  simp only [if_neg hfull]
  refine ⟨h.closed.append fun a r b hab r' hr' hagg hlt hpending => ?_, fun c hc => ?_⟩
  · have hsorted := db.followerRows_sorted p.now p.events
    have hr : r ∈ db.followerRows p.now p.events := by
      rw [hab]
      simp
    obtain ⟨_, _, hhead, _, hbefore⟩ := Database.mem_followerRows.mp hr
    by_cases hheld : ∃ e ∈ p.events, e.key = r'.key
    · obtain ⟨e, he, hkey⟩ := hheld
      rw [← ht.eq_of_key (h.held e he).1 hr' hkey]
      exact List.mem_append_left _ he
    -- The predecessor follows the head too, so it stands before the row in the query.
    have havailable : r'.availableAt ≤ p.now :=
      (hbefore r' hr' hagg hpending hlt).resolve_left hheld
    have hr'mem : r' ∈ db.followerRows p.now p.events := by
      refine Database.mem_followerRows.mpr ⟨hr', ?_, hagg ▸ hhead, fun e he hkey => hheld ⟨e, he, hkey⟩,
        fun e he heagg hepending helt => ?_⟩
      · simp [OutboxRow.available, hpending, havailable]
      · exact hbefore e he (heagg.trans hagg) hepending (lt_trans helt hlt)
    rw [hab] at hr'mem hsorted
    refine List.mem_append_right _ ?_
    rcases List.mem_append.mp hr'mem with hmem | hmem
    · exact hmem
    rcases List.mem_cons.mp hmem with rfl | hmem
    · exact absurd hlt (lt_irrefl _)
    · have hle := (List.pairwise_cons.mp (List.pairwise_append.mp hsorted).2.1).1 r' hmem hagg.symm
      exact absurd hle (Nat.not_le.mpr hlt)
  · obtain ⟨hmem, havailable, hhead, _, _⟩ := Database.mem_followerRows.mp hc
    exact ⟨hmem, havailable, hhead⟩

theorem PublisherInv.publish {p : Publisher} (h : PublisherInv db stream p) :
    PublisherInv db stream { p with phase := .publishing, queue := p.events } :=
  ⟨h.held, h.closed, fun hp => Phase.noConfusion hp, fun hp => Phase.noConfusion hp,
    fun _ => .inr ⟨[], rfl, fun _ hr => absurd hr List.not_mem_nil⟩, h.changes⟩

/-! ### Sending -/

theorem OutboxRow.delivered_key (row : OutboxRow) (delivery : Delivery) (now : Time) :
    (row.delivered delivery now).key = row.key := by
  cases delivery <;> rfl

theorem Publisher.mem_sends {p : Publisher} {delivery : Delivery} {key : EventKey}
    (h : key ∈ (p.sends delivery).toList) : ∃ event rest, p.queue = event :: rest ∧
      event.key = key ∧ event.aggregateId ∉ p.blocked := by
  rw [Option.mem_toList, Publisher.sends] at h
  rcases hqueue : p.queue with _ | ⟨event, rest⟩
  · simp [hqueue] at h
  · simp only [hqueue, Option.ite_none_right_eq_some, List.contains_iff_mem, Option.some.injEq] at h
    exact ⟨event, rest, rfl, h.2, h.1.2.2⟩

theorem Publisher.sends_published {p : Publisher} {event : OutboxRow} {rest : List OutboxRow}
    (hphase : p.phase = .publishing) (hqueue : p.queue = event :: rest)
    (hblocked : event.aggregateId ∉ p.blocked) :
    event.key ∈ (p.sends .published).toList := by
  simp [Publisher.sends, hqueue, hphase, hblocked, Delivery.appends]

/-- An event is sent after its predecessor. -/
theorem PublisherInv.sends_inOrder {p : Publisher} (h : PublisherInv db stream p)
    (ht : Tables db stream) (hphase : p.phase = .publishing) (delivery : Delivery) :
    InOrder (stream ++ (p.sends delivery).toList) := by
  rcases hsends : p.sends delivery with _ | key
  · rw [Option.toList_none, List.append_nil]
    exact ht.ordered
  rw [Option.toList_some]
  refine ht.ordered.append fun k hk => ?_
  obtain ⟨event, rest, hqueue, rfl, hblocked⟩ :=
    Publisher.mem_sends (p := p) (show key ∈ (p.sends delivery).toList by simp [hsends])
  rcases h.publishing hphase with hempty | ⟨handled, hevents, hhandled⟩
  · rw [hqueue] at hempty
    exact absurd hempty (List.cons_ne_nil _ _)
  rw [hqueue] at hevents
  have hmem : event ∈ db.outbox := (h.held event (by simp [hevents])).1
  have hseq := (ht.mem_committed.mp (ht.recorded event hmem)).2
  have hcommitted : (event.aggregateId, k + 1) ∈ db.committed := by
    refine ht.mem_committed.mpr ⟨Nat.le_add_left 1 k, ?_⟩
    change event.eventSequence = k + 2 at hk
    omega
  rcases ht.accounted _ hcommitted with hin | ⟨r, hr, hkey, hpending⟩
  · exact hin
  -- A pending predecessor was handled before, and its Execution is not blocked.
  obtain ⟨hagg, hrseq⟩ := Prod.mk.inj hkey
  have hrhandled : r ∈ handled := by
    refine h.closed handled event rest hevents r hr hagg ?_ hpending
    change event.eventSequence = k + 2 at hk
    omega
  rcases hhandled r hrhandled with hb | hin
  · rw [hagg] at hb
    exact absurd hb hblocked
  · exact hkey ▸ hin

theorem PublisherInv.publishNext {p : Publisher} (h : PublisherInv db stream p)
    (hphase : p.phase = .publishing) (delivery : Delivery) (now : Time) :
    PublisherInv db (stream ++ (p.sends delivery).toList) (p.publishNext delivery now) := by
  have hold : ∀ key ∈ stream, key ∈ stream ++ (p.sends delivery).toList :=
    fun _ hkey => List.mem_append_left _ hkey
  have hne : ∀ {q : Phase}, q ≠ .publishing → p.phase = q → False :=
    fun hq heq => hq (heq.symm.trans hphase)
  rcases hqueue : p.queue with _ | ⟨event, rest⟩
  · -- Nothing is left to publish.
    have hsame : p.publishNext delivery now = p := by simp [Publisher.publishNext, hqueue]
    rw [hsame]
    exact ⟨h.held, h.closed, h.heads, h.followers, fun _ => .inl hqueue,
      fun c hc => ⟨(h.changes c hc).1, fun hpub => hold _ ((h.changes c hc).2 hpub)⟩⟩
  obtain ⟨handled, hevents, hhandled⟩ : ∃ handled, p.events = handled ++ p.queue ∧
      ∀ r ∈ handled, r.aggregateId ∈ p.blocked ∨ r.key ∈ stream :=
    (h.publishing hphase).resolve_left (by simp [hqueue])
  have hevents' : p.events = (handled ++ [event]) ++ rest := by simp [hevents, hqueue]
  -- An Execution with a refused row is passed over.
  by_cases hblocked : event.aggregateId ∈ p.blocked
  · have heq : p.publishNext delivery now = { p with queue := rest } := by
      simp [Publisher.publishNext, hqueue, hblocked]
    rw [heq]
    refine ⟨h.held, h.closed, h.heads, h.followers,
      fun _ => .inr ⟨handled ++ [event], hevents', fun r hr => ?_⟩,
      fun c hc => ⟨(h.changes c hc).1, fun hpub => hold _ ((h.changes c hc).2 hpub)⟩⟩
    rcases List.mem_append.mp hr with hr | hr
    · exact (hhandled r hr).imp id (hold _)
    · rw [List.mem_singleton.mp hr]
      exact .inl hblocked
  have hevent : event ∈ p.events := by simp [hevents']
  -- What is recorded as published stands in the stream.
  have hchanges : ∀ c ∈ p.changes ++ [event.delivered delivery now],
      (∃ r ∈ p.events, r.key = c.key) ∧
        (c.status = .published → c.key ∈ stream ++ (p.sends delivery).toList) := by
    intro c hc
    rcases List.mem_append.mp hc with hc | hc
    · exact ⟨(h.changes c hc).1, fun hpub => hold _ ((h.changes c hc).2 hpub)⟩
    · rw [List.mem_singleton.mp hc, OutboxRow.delivered_key]
      refine ⟨⟨event, hevent, rfl⟩, fun hpub => ?_⟩
      have hdelivery : delivery = .published := by
        have hpending := (h.held event hevent).2
        cases delivery <;> simp_all [OutboxRow.delivered]
      rw [hdelivery]
      exact List.mem_append_right _ (Publisher.sends_published hphase hqueue hblocked)
  simp only [Publisher.publishNext, hqueue, List.contains_iff_mem, if_neg hblocked]
  refine ⟨h.held, h.closed, fun hp => (hne (by decide) hp).elim, fun hp => (hne (by decide) hp).elim,
    fun _ => ?_, hchanges⟩
  -- A refused row blocks its Execution, and a failure ends the loop.
  cases delivery with
  | published =>
    refine .inr ⟨handled ++ [event], hevents', fun r hr => ?_⟩
    rcases List.mem_append.mp hr with hr | hr
    · exact (hhandled r hr).imp id (hold _)
    · rw [List.mem_singleton.mp hr]
      exact .inr (List.mem_append_right _ (Publisher.sends_published hphase hqueue hblocked))
  | refused appended =>
    refine .inr ⟨handled ++ [event], hevents', fun r hr => ?_⟩
    rcases List.mem_append.mp hr with hr | hr
    · exact (hhandled r hr).imp (List.mem_append_left _) (hold _)
    · rw [List.mem_singleton.mp hr]
      exact .inl (List.mem_append_right _ (List.mem_singleton_self _))
  | failed appended => exact .inl rfl

theorem Tables.append_stream (ht : Tables db stream) {keys : List EventKey}
    (hordered : InOrder (stream ++ keys)) : Tables db (stream ++ keys) :=
  ⟨ht.sequences, ht.distinct, ht.recorded,
    fun key hkey => (ht.accounted key hkey).imp (List.mem_append_left _) id, hordered⟩

/-! ### Commits of the publishers -/

/-- A row is rewritten by a change of its own key, or stays. -/
theorem Database.mem_commitChanges {changes : List OutboxRow} {row : OutboxRow}
    (h : row ∈ (db.commitChanges changes).outbox) : ∃ r ∈ db.outbox, r.key = row.key ∧
      (row ∈ changes ∨ row = r) := by
  obtain ⟨r, hr, heq⟩ := List.mem_map.mp h
  rcases hfind : changes.find? (·.key == r.key) with _ | c
  · obtain rfl : r = row := by rw [← heq, hfind, Option.getD_none]
    exact ⟨r, hr, rfl, .inr rfl⟩
  · obtain rfl : c = row := by rw [← heq, hfind, Option.getD_some]
    have hkey : c.key = r.key := by simpa using List.find?_some hfind
    exact ⟨r, hr, hkey.symm, .inl (List.mem_of_find?_eq_some hfind)⟩

theorem Database.commitChanges_of_mem (db : Database) (changes : List OutboxRow) {r : OutboxRow}
    (hr : r ∈ db.outbox) : r ∈ (db.commitChanges changes).outbox ∨
      ∃ c ∈ changes, c.key = r.key ∧ c ∈ (db.commitChanges changes).outbox := by
  have hmem : (changes.find? (·.key == r.key)).getD r ∈ (db.commitChanges changes).outbox :=
    List.mem_map_of_mem hr
  rcases hfind : changes.find? (·.key == r.key) with _ | c
  · rw [hfind] at hmem
    exact .inl hmem
  · rw [hfind] at hmem
    exact .inr ⟨c, List.mem_of_find?_eq_some hfind, by simpa using List.find?_some hfind, hmem⟩

theorem Database.commitChanges_keys (changes : List OutboxRow) :
    (db.commitChanges changes).outbox.map (·.key) = db.outbox.map (·.key) := by
  simp only [Database.commitChanges, List.map_map]
  refine List.map_congr_left fun r _ => ?_
  simp only [Function.comp]
  rcases hfind : changes.find? (·.key == r.key) with _ | c
  · rw [hfind, Option.getD_none]
  · rw [hfind, Option.getD_some]
    simpa using List.find?_some hfind

theorem Tables.finish {p : Publisher} (ht : Tables db stream) (h : PublisherInv db stream p) :
    Tables (db.commitChanges p.changes) stream := by
  refine ⟨ht.sequences, ?_, fun r hr => ?_, fun key hkey => ?_, ht.ordered⟩
  · rw [Database.commitChanges_keys]
    exact ht.distinct
  · obtain ⟨r₀, hr₀, hkey, _⟩ := Database.mem_commitChanges hr
    rw [← hkey]
    exact ht.recorded r₀ hr₀
  · rcases ht.accounted key hkey with hin | ⟨r, hr, rfl, hpending⟩
    · exact .inl hin
    rcases db.commitChanges_of_mem p.changes hr with hmem | ⟨c, hc, hckey, hmem⟩
    · exact .inr ⟨r, hmem, rfl, hpending⟩
    · rcases hstatus : c.status with _ | _
      · exact .inr ⟨c, hmem, hckey, hstatus⟩
      · exact .inl (hckey ▸ (h.changes c hc).2 hstatus)

/-- A publisher's commit rewrites no row of an Execution that another one holds. -/
theorem Keeps.finish (ht : Tables db stream) (hps : Publishers db stream ps) {i j : ℕ}
    {p q : Publisher} (hij : i ≠ j) (hi : ps[i]? = some p) (hj : ps[j]? = some q) :
    Keeps db (db.commitChanges p.changes) q := by
  have hp := hps.each i p hi
  have hapart : ∀ c ∈ p.changes, ∀ e ∈ q.events, e.aggregateId ≠ c.aggregateId := by
    intro c hc e he hagg
    obtain ⟨r, hr, hkey⟩ := (hp.changes c hc).1
    exact hps.apart_aggregate hij hi hj hr he ((congrArg Prod.fst hkey).trans hagg.symm)
  refine ⟨fun r hr hpending hheld => ?_, fun r' hr' hpending => .inl ?_, fun _ hkey => hkey⟩
  · obtain ⟨e, he, hagg⟩ := hheld
    rcases db.commitChanges_of_mem p.changes hr with hmem | ⟨c, hc, hckey, _⟩
    · exact hmem
    · exact absurd (hagg.trans (congrArg Prod.fst hckey).symm) (hapart c hc e he)
  · obtain ⟨r, hr, hkey, hcase⟩ := Database.mem_commitChanges hr'
    rcases hcase with hc | rfl
    · obtain ⟨⟨r₁, hr₁, hkey₁⟩, _⟩ := hp.changes r' hc
      obtain rfl := ht.eq_of_key (hp.held r₁ hr₁).1 hr (hkey₁.trans hkey.symm)
      refine ⟨r₁, hr, hkey, (hp.held r₁ hr₁).2, ?_⟩
      rintro ⟨e, he, hagg⟩
      exact absurd (hagg.trans (congrArg Prod.fst hkey)) (hapart r' hc e he)
    · exact ⟨r', hr, rfl, hpending, fun _ => rfl⟩

/-! ### Retention -/

/-- Only published rows are deleted. -/
theorem Tables.mem_deletePublished (ht : Tables db stream) {cutoff : Time} {limit : ℕ}
    {r : OutboxRow} (hr : r ∈ db.outbox) (hpending : r.status = .pending) :
    r ∈ db.outbox.filter fun row => !(db.expired cutoff limit).contains row.key := by
  refine List.mem_filter.mpr ⟨hr, ?_⟩
  simp only [Bool.not_eq_true', List.contains_eq_mem, decide_eq_false_iff_not]
  intro hmem
  obtain ⟨r', hr', hkey⟩ := List.mem_map.mp hmem
  have hr' := List.mem_filter.mp (List.mem_mergeSort.mp (List.mem_of_mem_take hr'))
  obtain rfl := ht.eq_of_key hr'.1 hr hkey
  simp [hpending] at hr'

theorem Tables.deletePublished (ht : Tables db stream) (cutoff : Time) (limit : ℕ) :
    Tables { db with outbox := db.outbox.filter fun row =>
      !(db.expired cutoff limit).contains row.key } stream := by
  refine ⟨ht.sequences, ?_, fun r hr => ?_, fun key hkey => ?_, ht.ordered⟩
  · exact ht.distinct.sublist (List.filter_sublist.map _)
  · exact ht.recorded r (List.mem_filter.mp hr).1
  · rcases ht.accounted key hkey with hin | ⟨r, hr, hrkey, hpending⟩
    · exact .inl hin
    · exact .inr ⟨r, ht.mem_deletePublished hr hpending, hrkey, hpending⟩

theorem Keeps.deletePublished (ht : Tables db stream) (cutoff : Time) (limit : ℕ)
    (p : Publisher) : Keeps db { db with outbox := db.outbox.filter fun row =>
      !(db.expired cutoff limit).contains row.key } p :=
  ⟨fun _ hr hpending _ => ht.mem_deletePublished hr hpending,
    fun r hr hpending => .inl ⟨r, (List.mem_filter.mp hr).1, rfl, hpending, fun _ => rfl⟩,
    fun _ hkey => hkey⟩

end

/-! ### Runs -/

/-- What holds of the tables, the publishers and the writers in every reachable state. -/
structure StateInv (s : State) : Prop where
  tables : Tables s.database s.stream
  publishers : Publishers s.database s.stream s.publishers
  writers : Writers s.database s.writers

theorem StateInv.init : StateInv {} where
  tables := ⟨fun _ => rfl, List.nodup_nil, fun _ hr => absurd hr List.not_mem_nil,
    fun _ hkey => absurd hkey List.not_mem_nil, fun _ _ hkey => absurd hkey List.not_mem_nil⟩
  publishers := ⟨fun _ _ hi => by simp at hi, fun _ _ _ _ _ hi => by simp at hi⟩
  writers := ⟨fun _ _ hi => by simp at hi, fun _ _ hi => by simp at hi,
    fun _ _ _ _ _ hi => by simp at hi⟩

section

variable {s : State} (batchSize : ℕ)

/-- One publisher moves and the tables stay. -/
theorem StateInv.updatePublisher (h : StateInv s) (i : ℕ) (f : Publisher → Publisher)
    (hf : ∀ p, s.publishers[i]? = some p → PublisherInv s.database s.stream (f p) ∧
      ∀ r ∈ (f p).events, r ∈ p.events ∨ s.locked i r.key = false) :
    StateInv (s.updatePublisher i f) := by
  rcases hi : s.publishers[i]? with _ | p
  · have hsame : s.updatePublisher i f = s := by
      rw [State.updatePublisher, List.modify_eq_self (List.getElem?_eq_none_iff.mp hi)]
    rw [hsame]
    exact h
  obtain ⟨hp, hevents⟩ := hf p hi
  refine ⟨h.tables, ?_, h.writers⟩
  refine h.publishers.replace h.tables (fun j q hj => List.getElem?_modify_cases hi hj) hp
    (fun j q _ _ => Keeps.refl _ q) (fun _ hkey => hkey) fun j q hji hj r hr r' hr' hkey => ?_
  rcases hevents r hr with hold | hlocked
  · exact h.publishers.apart i j p q (Ne.symm hji) hi hj r hold r' hr' hkey
  · simp only [State.locked, List.any_eq_false, List.any_eq_true, beq_iff_eq, not_exists,
      not_and] at hlocked
    exact hlocked q (List.mem_eraseIdx_iff_getElem?.mpr ⟨j, hji, hj⟩) r' hr' hkey.symm

theorem StateInv.write (h : StateInv s) (i : ℕ) (x : UUID) (now : Time) :
    StateInv (s.step batchSize (.write i x now)) := by
  rw [State.step]
  rcases hheld : s.counterHeld i x with _ | _
  · exact ⟨h.tables, h.publishers, h.writers.write rfl rfl hheld⟩
  · exact h

theorem StateInv.commit (h : StateInv s) (i : ℕ) : StateInv (s.step batchSize (.commit i)) := by
  rw [State.step]
  rcases hi : s.writers[i]? with _ | w
  · exact h
  · exact ⟨h.tables.commit h.writers hi,
      h.publishers.keep h.tables fun _ q _ => Keeps.commit h.writers hi q, h.writers.commit hi⟩

theorem StateInv.poll (h : StateInv s) (now : Time) :
    StateInv (s.step batchSize (.poll now)) := by
  refine ⟨h.tables, ?_, h.writers⟩
  exact h.publishers.replace h.tables (fun j q hj => List.getElem?_concat_cases hj)
    (PublisherInv.poll h.tables now) (fun _ q _ _ => Keeps.refl _ q) (fun _ hkey => hkey)
    fun _ _ _ _ r hr => absurd hr List.not_mem_nil

theorem StateInv.deliver (h : StateInv s) (i : ℕ) (delivery : Delivery) (now : Time) :
    StateInv (s.step batchSize (.deliver i delivery now)) := by
  rw [State.step]
  rcases hi : s.publishers[i]? with _ | p
  · exact h
  by_cases hphase : p.phase = .publishing
  swap
  · simp only [if_neg hphase]
    exact h
  simp only [if_pos hphase]
  have hp := h.publishers.each i p hi
  have hevents : (p.publishNext delivery now).events = p.events := by
    rw [Publisher.publishNext]
    split
    · rfl
    · split <;> rfl
  refine ⟨h.tables.append_stream (hp.sends_inOrder h.tables hphase delivery), ?_, h.writers⟩
  refine h.publishers.replace h.tables (fun j q hj => List.getElem?_set_cases hj)
    (hp.publishNext hphase delivery now) (fun _ q _ _ => Keeps.refl _ q)
    (fun _ hkey => List.mem_append_left _ hkey) fun j q hji hj r hr => ?_
  rw [hevents] at hr
  exact h.publishers.apart i j p q (Ne.symm hji) hi hj r hr

theorem StateInv.finish (h : StateInv s) (i : ℕ) : StateInv (s.step batchSize (.finish i)) := by
  rw [State.step]
  rcases hi : s.publishers[i]? with _ | p
  · exact h
  by_cases hdone : p.phase = .publishing ∧ p.queue = []
  swap
  · simp only [if_neg hdone]
    exact h
  simp only [if_pos hdone]
  have hp := h.publishers.each i p hi
  refine ⟨h.tables.finish hp, ?_, h.writers.congr rfl⟩
  exact h.publishers.replace h.tables (fun j q hj => List.getElem?_set_cases hj) PublisherInv.ended
    (fun j q hji hj => Keeps.finish h.tables h.publishers (Ne.symm hji) hi hj)
    (fun _ hkey => hkey) fun _ _ _ _ r hr => absurd hr List.not_mem_nil

theorem StateInv.step (h : StateInv s) (action : Action) : StateInv (s.step batchSize action) := by
  have hsame : ∀ p : Publisher, ∀ i, ∀ r ∈ p.events, r ∈ p.events ∨ s.locked i r.key = false :=
    fun _ _ _ hr => .inl hr
  -- Writers, publishers and retention each touch what is theirs.
  cases action with
  | begin =>
    refine ⟨h.tables, h.publishers, h.writers.clear fun j w hj => ?_⟩
    exact (List.getElem?_concat_cases hj).imp (·.2) (·.2)
  | write i x now => exact h.write batchSize i x now
  | commit i => exact h.commit batchSize i
  | rollback i =>
    refine ⟨h.tables, h.publishers, h.writers.clear fun j w hj => ?_⟩
    rcases hi : s.writers[i]? with _ | w'
    · exact .inr (List.modify_eq_self (List.getElem?_eq_none_iff.mp hi) ▸ hj)
    · exact (List.getElem?_modify_cases hi hj).imp (·.2) (·.2)
  | poll now => exact h.poll batchSize now
  | lock i =>
    refine h.updatePublisher i _ fun p hi => ?_
    -- A row is locked only while heads or followers are looked for.
    by_cases hphase : p.phase = .heads ∨ p.phase = .followers
    · rw [if_pos hphase]
      exact PublisherInv.lockNext h.tables h.publishers hi hphase
    · rw [if_neg hphase]
      exact ⟨h.publishers.each i p hi, hsame p i⟩
  | follow i =>
    refine h.updatePublisher i _ fun p hi => ?_
    by_cases hphase : p.phase = .heads ∧ p.candidates = []
    · rw [if_pos hphase]
      exact ⟨(h.publishers.each i p hi).follow h.tables batchSize, hsame p i⟩
    · rw [if_neg hphase]
      exact ⟨h.publishers.each i p hi, hsame p i⟩
  | publish i =>
    refine h.updatePublisher i _ fun p hi => ?_
    by_cases hphase : p.phase = .followers ∧ p.candidates = []
    · rw [if_pos hphase]
      exact ⟨(h.publishers.each i p hi).publish, hsame p i⟩
    · rw [if_neg hphase]
      exact ⟨h.publishers.each i p hi, hsame p i⟩
  | deliver i delivery now => exact h.deliver batchSize i delivery now
  | finish i => exact h.finish batchSize i
  | crash i =>
    exact h.updatePublisher i _ fun p _ =>
      ⟨PublisherInv.ended, fun r hr => absurd hr List.not_mem_nil⟩
  | deletePublished cutoff limit =>
    exact ⟨h.tables.deletePublished cutoff limit,
      h.publishers.keep h.tables fun _ q _ => Keeps.deletePublished h.tables cutoff limit q,
      h.writers.congr rfl⟩

theorem StateInv.run (actions : List Action) :
    StateInv (actions.foldl (State.step batchSize) {}) := by
  induction actions using List.reverseRecOn with
  | nil => exact StateInv.init
  | append_singleton actions action ih =>
    rw [List.foldl_concat]
    exact ih.step batchSize action

/-- In every run: the committed sequences of an Execution are 1, 2, 3, … in commit
order; a committed event is in the stream or still pending, so that a row that is no
longer pending has been sent; and a sequence comes first after its predecessor. -/
theorem events_in_order (actions : List Action) :
    let s := actions.foldl (State.step batchSize) {}
    (∀ x, (s.database.committed.filter (·.1 == x)).map (·.2) =
      List.range' 1 (s.database.committed.countP (·.1 == x))) ∧
    (∀ key ∈ s.database.committed, key ∈ s.stream ∨
      ∃ row ∈ s.database.outbox, row.key = key ∧ row.status = .pending) ∧
    (∀ row ∈ s.database.outbox, row.status ≠ .pending → row.key ∈ s.stream) ∧
    ∀ x k, 1 ≤ k → (x, k + 1) ∈ s.stream →
      (x, k) ∈ s.stream ∧ s.stream.idxOf (x, k) < s.stream.idxOf (x, k + 1) := by
  intro s
  have hs : StateInv s := StateInv.run batchSize actions
  refine ⟨fun x => ?_, hs.tables.accounted, fun row hrow hstatus => ?_, fun x k hk hmem => ?_⟩
  · have hseq := hs.tables.sequences x
    have hlen : s.database.committed.countP (·.1 == x) = s.database.lastSequence x := by
      rw [List.countP_eq_length_filter, ← List.length_map (f := Prod.snd), hseq,
        List.length_range']
    rw [hseq, hlen]
  · rcases hs.tables.accounted _ (hs.tables.recorded row hrow) with hin | ⟨row', hrow', hkey, hp⟩
    · exact hin
    · rw [hs.tables.eq_of_key hrow' hrow hkey] at hp
      exact absurd hp hstatus
  · obtain ⟨k, rfl⟩ : ∃ n, k = n + 1 := ⟨k - 1, by omega⟩
    have hlt := hs.tables.ordered x k hmem
    refine ⟨?_, hlt⟩
    rw [← List.idxOf_lt_length_iff]
    exact lt_trans hlt (List.idxOf_lt_length_of_mem hmem)

end

end ExecutorService.Outbox
