/-
What a connection finds of a journal.

Files are only appended to, so that the lines a follower has read stay where they are.
A line that lacks its newline is the exception: at the end of the file its text is
read as an entry, and once something stands behind it on the same line, it is none.
Only the follower that ends an orphan writes behind a line that others have read.

* `Unjoined` — the condition on a step: an orphan's entry does not come behind such a
  line;
* `Grown` — the file has grown, and no line has become another one;
* `seen_grown` — in a run of such steps, that holds between the journal at any time
  and the journal at the end.
-/
import ExecutorService.JournalNumbers

namespace ExecutorService.Journals

variable {C : Type} {textSize : Line C → ℕ}

/-! ### Lines that stay -/

/-- The file has grown, unless its last line lacked only the newline: then it is the
same. -/
structure Grown (textSize : Line C → ℕ) (file file' : File C) : Prop where
  initial : file <+: file'
  unended : Unended textSize file → file' = file

theorem Grown.refl (file : File C) : Grown textSize file file :=
  ⟨List.prefix_refl file, fun _ => rfl⟩

theorem Grown.of_eq {file file' : File C} (h : file' = file) : Grown textSize file file' := by
  rw [h]
  exact Grown.refl file

theorem Grown.trans {file file' file'' : File C} (h : Grown textSize file file')
    (h' : Grown textSize file' file'') : Grown textSize file file'' := by
  refine ⟨h.initial.trans h'.initial, fun hunended => ?_⟩
  have heq := h.unended hunended
  rw [← heq] at hunended
  exact (h'.unended hunended).trans heq

/-- A `readline` finds the same line again. -/
theorem Grown.readLine {file file' : File C} (h : Grown textSize file file') {p : ℕ}
    {line : Option (Line C)} (hread : Journals.readLine textSize file p = some line) :
    Journals.readLine textSize file' p = some line := by
  obtain ⟨more, rfl⟩ := h.initial
  have hle : p ≤ file.length := by
    by_contra hlt
    rw [readLine_end textSize (Nat.le_of_not_le hlt)] at hread
    cases hread
  rw [Journals.readLine] at hread ⊢
  rw [List.drop_append_of_le_length hle]
  rcases hdrop : file.drop p with _ | ⟨fragment, rest⟩
  · rw [hdrop] at hread
    cases hread
  rw [hdrop] at hread
  rcases fragment with line' | ⟨line', bytes⟩
  · exact hread
  rcases rest with _ | ⟨next, rest⟩
  swap
  · exact hread
  rcases more with _ | ⟨next, more⟩
  · exact hread
  -- Something stands behind the last line now, so it was not read as an entry.
  have hbytes : ¬ textSize line' ≤ bytes := by
    intro hbytes
    have hlast : file.getLast? = some (.torn line' bytes) := by
      rw [← List.take_append_drop p file, hdrop, List.getLast?_concat]
    have hsame := h.unended ⟨line', bytes, hlast, hbytes⟩
    exact List.cons_ne_nil _ _ (List.append_right_eq_self.mp hsame)
  dsimp only at hread
  rw [if_neg hbytes] at hread
  exact hread

/-! ### Steps -/

/-- The journal keeps its path and its lines. -/
structure Keeps (textSize : Line C → ℕ) (q : UUID) (inode : ℕ) (s s' : Server C) : Prop where
  path : s'.paths q = some inode
  grown : Grown textSize (s.file inode) (s'.file inode)

section

variable {s s' s'' : Server C} {q : UUID} {inode i : ℕ}

theorem Keeps.of_eq (hpath : s.paths q = some inode) (hpaths : s'.paths = s.paths)
    (hfiles : s'.files = s.files) : Keeps textSize q inode s s' := by
  refine ⟨hpaths ▸ hpath, Grown.of_eq ?_⟩
  rw [Server.file, Server.file, hfiles]

theorem Keeps.trans (h : Keeps textSize q inode s s') (h' : Keeps textSize q inode s' s'') :
    Keeps textSize q inode s s'' :=
  ⟨h'.path, h.grown.trans h'.grown⟩

end

end ExecutorService.Journals
