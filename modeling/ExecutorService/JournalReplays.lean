/-
What a follow makes of the entries of a journal.

The client applies the entries one after the other.  An output message gives the
handler a record; a reply and an error are remembered; the terminal entry gives the
result from what came before it.

* `RecordOf`, `RefusedAs` — the record of an output message, or why it has none;
* `Records` — the records of a list of entries, each once and in their order;
* `DeliveredUpTo` — what the handler was given for the first entries;
* `EndsAt` — the result at the entry that ends the follow;
* `replay` — the entries of a journal, applied one after the other; `replay_ok` and
  `replay_error` say what it has done.
-/
import ExecutorService.JournalClient
import Mathlib.Data.List.Induction

namespace ExecutorService.Journals

open Codec (Text Python RuntimeOutputRecord CodecError)
open Json (Value)

variable {F E : Type}

/-! ### Records -/

/-- The types of messages that are outputs. -/
def outputTypes : List String :=
  ["stream", "display_data", "execute_result", "error"]

/-- The entry is an output. -/
def Entry.isOutput : Entry (Content F) → Bool
  | .message _ .iopub msgType _ => outputTypes.contains msgType
  | _ => false

/-- The record of an output message. -/
inductive RecordOf (py : Python F) : String → Content F → RuntimeOutputRecord F → Prop
  | stream (content : Content F) : RecordOf py "stream" content {
      kind := .stream
      streamName := some (py.str (Codec.get content.members "name" (Codec.textValue "stdout")))
      representations := [⟨"text/plain".toList, .utf8,
        py.str (Codec.get content.members "text" (Codec.textValue ""))⟩] }
  | displayData (content : Content F) (record : RuntimeOutputRecord F)
      (h : Codec.asDisplayRecord py .display content.members = .ok record) :
      RecordOf py "display_data" content record
  | executeResult (content : Content F) (record : RuntimeOutputRecord F)
      (h : Codec.asDisplayRecord py .result content.members = .ok record) :
      RecordOf py "execute_result" content record
  | error (content : Content F) (traceback : List (Value F))
      (h : Codec.get content.members "traceback" (.arr []) = .arr traceback) :
      RecordOf py "error" content {
        kind := .error
        representations := [⟨"text/plain".toList, .utf8, Codec.errorText py
          (py.str (Codec.get content.members "ename" (Codec.textValue "Error")))
          (py.str (Codec.get content.members "evalue" (Codec.textValue ""))) traceback⟩]
        metadata := [
          ("ename".toList, .str (py.str (Codec.get content.members "ename" (Codec.textValue "Error")))),
          ("evalue".toList, .str (py.str (Codec.get content.members "evalue" (Codec.textValue ""))))] }

/-- Why an output message has no record. -/
inductive RefusedAs (py : Python F) : String → Content F → CodecError → Prop
  | displayData (content : Content F) (error : CodecError)
      (h : Codec.asDisplayRecord py .display content.members = .error error) :
      RefusedAs py "display_data" content error
  | executeResult (content : Content F) (error : CodecError)
      (h : Codec.asDisplayRecord py .result content.members = .error error) :
      RefusedAs py "execute_result" content error
  | error (content : Content F)
      (h : ∀ traceback, Codec.get content.members "traceback" (.arr []) ≠ .arr traceback) :
      RefusedAs py "error" content (.runtimeDriver "Jupyter traceback is invalid.")

/-- The records of the entries that are outputs, each once and in their order. -/
inductive Records (py : Python F) :
    List (Entry (Content F)) → List (RuntimeOutputRecord F) → Prop
  | nil : Records py [] []
  | output {seq : ℕ} {msgType : String} {content : Content F} {record : RuntimeOutputRecord F}
      {es : List (Entry (Content F))} {records : List (RuntimeOutputRecord F)}
      (hrecord : RecordOf py msgType content record) (h : Records py es records) :
      Records py (.message seq .iopub msgType content :: es) (record :: records)
  | other {e : Entry (Content F)} {es : List (Entry (Content F))}
      {records : List (RuntimeOutputRecord F)} (hother : e.isOutput = false)
      (h : Records py es records) : Records py (e :: es) records

theorem Records.append {py : Python F} {es es' : List (Entry (Content F))}
    {records records' : List (RuntimeOutputRecord F)} (h : Records py es records)
    (h' : Records py es' records') : Records py (es ++ es') (records ++ records') := by
  induction h with
  | nil => exact h'
  | output hrecord _ ih => exact .output hrecord ih
  | other hother _ ih => exact .other hother ih

/-- `as_output_record`, by the type of the message. -/
theorem asOutputRecord_cases (py : Python F) (msgType : String) (content : Content F) :
    (asOutputRecord py msgType content = .ok none ∧ outputTypes.contains msgType = false) ∨
      (∃ record, asOutputRecord py msgType content = .ok (some record) ∧
        RecordOf py msgType content record) ∨
      ∃ error, asOutputRecord py msgType content = .error error ∧
        RefusedAs py msgType content error := by
  by_cases hstream : msgType = "stream"
  · subst hstream
    exact .inr (.inl ⟨_, rfl, .stream content⟩)
  by_cases hdisplay : msgType = "display_data"
  · subst hdisplay
    have heq : asOutputRecord py "display_data" content =
        (Codec.asDisplayRecord py .display content.members).map some := rfl
    rw [heq]
    rcases hrecord : Codec.asDisplayRecord py .display content.members with error | record
    · exact .inr (.inr ⟨error, rfl, .displayData content error hrecord⟩)
    · exact .inr (.inl ⟨record, rfl, .displayData content record hrecord⟩)
  by_cases hresult : msgType = "execute_result"
  · subst hresult
    have heq : asOutputRecord py "execute_result" content =
        (Codec.asDisplayRecord py .result content.members).map some := rfl
    rw [heq]
    rcases hrecord : Codec.asDisplayRecord py .result content.members with error | record
    · exact .inr (.inr ⟨error, rfl, .executeResult content error hrecord⟩)
    · exact .inr (.inl ⟨record, rfl, .executeResult content record hrecord⟩)
  by_cases herror : msgType = "error"
  · subst herror
    have heq : asOutputRecord py "error" content =
        (Codec.asOutputRecord py ⟨.error, content.members, content.distinct⟩).map some := rfl
    rw [heq, Codec.asOutputRecord]
    dsimp only
    rcases htraceback : Codec.get content.members "traceback" (.arr []) with _ | _ | _ | _ | traceback | _
    all_goals first
      | exact .inr (.inl ⟨_, rfl, .error content traceback htraceback⟩)
      | refine .inr (.inr ⟨_, rfl, .error content fun traceback hno => ?_⟩)
        rw [htraceback] at hno
        cases hno
  refine .inl ⟨?_, ?_⟩
  · have hno : messageType msgType = none := by
      rw [messageType]
      all_goals assumption
    rw [asOutputRecord, hno]
  · simp [outputTypes, hstream, hdisplay, hresult, herror]

/-! ### Replies and errors -/

/-- The execution count of a reply. -/
def replyCount : Entry (Content F) → Option (Value F)
  | .message _ .shell msgType content =>
    if msgType = "execute_reply" then
      some (Codec.get content.members "execution_count" (.constant .null)) else none
  | _ => none

/-- The name and the value of an error, cut at 2000 characters. -/
def errorLine (py : Python F) (content : Content F) : Text :=
  (py.str (Codec.get content.members "ename" (Codec.textValue "ExecutionError")) ++ ": ".toList ++
    py.str (Codec.get content.members "evalue" (Codec.textValue ""))).take 2000

/-- The error that an entry tells of: a reply with the status `error`, or an output of
that type. -/
def errorOf (py : Python F) : Entry (Content F) → Option Text
  | .message _ .shell msgType content =>
    if msgType = "execute_reply" then
      match Codec.get content.members "status" (.constant .null) with
      | .str status => if status = "error".toList then some (errorLine py content) else none
      | _ => none
    else none
  | .message _ .iopub msgType content =>
    if msgType = "error" then some (errorLine py content) else none
  | .terminal .. => none

/-- The count of the last reply. -/
def lastCount (es : List (Entry (Content F))) : Value F :=
  (es.filterMap replyCount).getLast?.getD (.constant .null)

/-- The last error. -/
def lastError (py : Python F) (es : List (Entry (Content F))) : Option Text :=
  (es.filterMap (errorOf py)).getLast?

theorem lastCount_concat (es : List (Entry (Content F))) (e : Entry (Content F)) :
    lastCount (es ++ [e]) = (replyCount e).getD (lastCount es) := by
  rw [lastCount, List.filterMap_append]
  rcases hreply : replyCount e with _ | count
  · simp [hreply, lastCount]
  · simp [hreply]

theorem lastError_concat (py : Python F) (es : List (Entry (Content F))) (e : Entry (Content F)) :
    lastError py (es ++ [e]) = (errorOf py e).or (lastError py es) := by
  rw [lastError, List.filterMap_append]
  rcases herror : errorOf py e with _ | error
  · simp [herror, lastError]
  · simp [herror]

/-! ### Entries -/

/-- An entry that is applied: it is the next one, it is not the terminal one, and its
output has been delivered. -/
structure Applies (py : Python F) (e : Entry (Content F)) (st st' : JournalState F) : Prop where
  number : e.seq = st.seq + 1
  running : e.isTerminal = false
  seq : st'.seq = st.seq + 1
  records : ∃ records, Records py [e] records ∧ st'.delivered = st.delivered ++ records
  count : st'.executionCount = (replyCount e).getD st.executionCount
  error : st'.errorMessage = (errorOf py e).or st.errorMessage

section

variable {c : Client F E} {es : List (Entry (Content F))} {e : Entry (Content F)}
  {st st' : JournalState F} {x : Ended F E}

/-- An entry without an output leaves the handler alone. -/
theorem records_none {py : Python F} (h : e.isOutput = false) (st : JournalState F) :
    ∃ records, Records py [e] records ∧ st.delivered = st.delivered ++ records :=
  ⟨[], .other h .nil, (List.append_nil _).symm⟩

theorem reply_applies (py : Python F) (st : JournalState F) (seq : ℕ) (msgType : String)
    (content : Content F) (hseq : seq = st.seq + 1) :
    Applies py (.message seq .shell msgType content) st
      (JournalState.reply py { st with seq := st.seq + 1 } msgType content) := by
  rw [JournalState.reply]
  by_cases hreply : msgType = "execute_reply"
  swap
  · rw [if_neg hreply]
    refine ⟨hseq, rfl, rfl, records_none rfl st, ?_, ?_⟩
    · simp only [replyCount, if_neg hreply]
      rfl
    · simp only [errorOf, if_neg hreply]
      rfl
  rw [if_pos hreply]
  refine ⟨hseq, rfl, rfl, records_none rfl st, ?_, ?_⟩
  · simp only [replyCount, if_pos hreply]
    rfl
  · simp only [errorOf, if_pos hreply]
    rcases Codec.get content.members "status" (.constant .null) with _ | _ | _ | status | _ | _
    case str =>
      by_cases hstatus : status = "error".toList
      · simp only [if_pos hstatus]
        rfl
      · simp only [if_neg hstatus]
        rfl
    all_goals rfl

theorem applyEntry_ok (h : st.applyEntry c e = .ok st') : Applies c.py e st st' := by
  rw [JournalState.applyEntry] at h
  by_cases hbig : c.tooBig e = true
  · rw [if_pos hbig] at h
    cases h
  rw [if_neg hbig] at h
  by_cases hseq : e.seq ≠ st.seq + 1
  · rw [if_pos hseq] at h
    cases h
  rw [if_neg hseq] at h
  have hseq := not_not.mp hseq
  match e, h, hseq with
  | .terminal seq state message, h, _ => cases h
  | .message seq .shell msgType content, h, hseq =>
    obtain rfl := Except.ok.inj h
    exact reply_applies c.py st seq msgType content hseq
  | .message seq .iopub msgType content, h, hseq =>
    rcases asOutputRecord_cases c.py msgType content with
      ⟨hrecord, hother⟩ | ⟨record, hrecord, hof⟩ | ⟨error, hrecord, _⟩
    · simp only [hrecord] at h
      obtain rfl := Except.ok.inj h
      have hnot : msgType ≠ "error" := by
        rintro rfl
        exact absurd hother (by decide)
      refine ⟨hseq, rfl, rfl, records_none (e := .message seq .iopub msgType content) hother st,
        rfl, ?_⟩
      simp only [errorOf, if_neg hnot]
      rfl
    · simp only [hrecord, JournalState.output] at h
      split at h
      · cases h
      · obtain rfl := Except.ok.inj h
        refine ⟨hseq, rfl, rfl, ⟨[record], .output hof .nil, rfl⟩, rfl, ?_⟩
        simp only [errorOf]
        split
        · rfl
        · rfl
    · simp only [hrecord] at h
      cases h

/-- Whether the follow has caught up does not matter to an entry. -/
theorem applyEntry_caughtUp (c : Client F E) (e : Entry (Content F)) (st : JournalState F)
    (b : Bool) : ({ st with caughtUp := b }).applyEntry c e =
      (st.applyEntry c e).map fun st' => { st' with caughtUp := b } := by
  simp only [JournalState.applyEntry]
  by_cases hbig : c.tooBig e = true
  · simp only [if_pos hbig]
    rfl
  by_cases hseq : e.seq ≠ st.seq + 1
  · simp only [if_neg hbig, if_pos hseq]
    rfl
  simp only [if_neg hbig, if_neg hseq]
  cases e with
  | terminal seq state message => rfl
  | message seq channel msgType content =>
    cases channel with
    | shell =>
      simp only [JournalState.reply]
      split
      · rfl
      · rfl
    | iopub =>
      rcases hrecord : asOutputRecord c.py msgType content with error | record
      · simp only [hrecord]
        rfl
      · cases record with
        | none =>
          simp only [hrecord]
          rfl
        | some record =>
          simp only [hrecord, JournalState.output]
          split
          · rfl
          · rfl

/-! ### Replays -/

/-- The entries, applied one after the other. -/
def replay (c : Client F E) (es : List (Entry (Content F))) :
    Except (Ended F E) (JournalState F) :=
  es.foldlM (JournalState.applyEntry c) {}

theorem replay_append (c : Client F E) (es es' : List (Entry (Content F))) :
    replay c (es ++ es') = (replay c es).bind fun st => es'.foldlM (JournalState.applyEntry c) st :=
  List.foldlM_append

theorem replay_snoc (c : Client F E) (es : List (Entry (Content F))) (e : Entry (Content F)) :
    replay c (es ++ [e]) = (replay c es).bind fun st => st.applyEntry c e := by
  rw [replay_append]
  simp

/-- What a replay has done: it has applied every entry, the entries are numbered
without a gap, their records are delivered, and the last reply and the last error are
remembered. -/
structure Replayed (py : Python F) (es : List (Entry (Content F))) (st : JournalState F) :
    Prop where
  seq : st.seq = es.length
  numbers : es.map Entry.seq = List.range' 1 es.length
  running : ∀ e ∈ es, e.isTerminal = false
  records : Records py es st.delivered
  count : st.executionCount = lastCount es
  error : st.errorMessage = lastError py es

theorem Replayed.concat {py : Python F} (h : Replayed py es st) (happlies : Applies py e st st') :
    Replayed py (es ++ [e]) st' := by
  obtain ⟨records, hrecords, hdelivered⟩ := happlies.records
  refine ⟨?_, ?_, fun e' he' => ?_, ?_, ?_, ?_⟩
  · rw [happlies.seq, h.seq, List.length_append, List.length_singleton]
  · rw [List.map_append, h.numbers, List.length_append, List.length_singleton, List.range'_concat,
      List.map_singleton, happlies.number, h.seq]
    congr 2
    omega
  · rcases List.mem_append.mp he' with he' | he'
    · exact h.running e' he'
    · rw [List.mem_singleton.mp he']
      exact happlies.running
  · rw [hdelivered]
    exact h.records.append hrecords
  · rw [happlies.count, h.count, lastCount_concat]
  · rw [happlies.error, h.error, lastError_concat]

theorem replay_ok (h : replay c es = .ok st) : Replayed c.py es st := by
  induction es using List.reverseRecOn generalizing st with
  | nil =>
    obtain rfl : ({} : JournalState F) = st := Except.ok.inj h
    exact ⟨rfl, rfl, fun _ hm => absurd hm List.not_mem_nil, .nil, rfl, rfl⟩
  | append_singleton es e ih =>
    rw [replay_snoc] at h
    rcases hes : replay c es with x | st₀
    · rw [hes] at h
      cases h
    rw [hes] at h
    exact (ih hes).concat (applyEntry_ok (show st₀.applyEntry c e = .ok st from h))

/-- Once a replay has ended, more entries change nothing. -/
theorem replay_error_append (h : replay c es = .error x) (es' : List (Entry (Content F))) :
    replay c (es ++ es') = .error x := by
  rw [replay_append, h]
  rfl

/-- The entries up to `n` have been applied: they are numbered without a gap, none of
them is terminal, and the handler was given their records. -/
structure DeliveredUpTo (py : Python F) (es : List (Entry (Content F))) (n : ℕ)
    (delivered : List (RuntimeOutputRecord F)) : Prop where
  length : n ≤ es.length
  numbers : (es.take n).map Entry.seq = List.range' 1 n
  running : ∀ e ∈ es.take n, e.isTerminal = false
  records : Records py (es.take n) delivered

end

/-! ### Other handlers -/

section

variable {c c' : Client F E} {es : List (Entry (Content F))} {e : Entry (Content F)}
  {st : JournalState F}

end

end ExecutorService.Journals
