/-
Lines of JSON in a file.

A dumped value has no control characters: strings escape them.  So the bytes of a dump hold no
line break, and a file of dumps, each with a newline, is split into them again; bytes behind the
last newline are a line that was not finished.

* `printable_dumps` — no control characters;
* `distinct_loads` — what `loads` reads has distinct keys;
* `wholeLines_append`, `splitLines_lines` — the lines of a file.
-/
import ExecutorService.CodecRoundTrip

namespace Json

/-! ### Control characters -/

/-- No control character of ASCII but DEL. -/
def Printable (cs : List Char) : Prop :=
  ∀ c ∈ cs, 0x20 ≤ c.toNat

theorem printable_nil : Printable [] :=
  nofun

theorem Printable.cons {c : Char} {cs : List Char} (hc : 0x20 ≤ c.toNat) (h : Printable cs) :
    Printable (c :: cs) :=
  List.forall_mem_cons.mpr ⟨hc, h⟩

theorem Printable.append {cs ds : List Char} (h : Printable cs) (h' : Printable ds) :
    Printable (cs ++ ds) :=
  List.forall_mem_append.mpr ⟨h, h'⟩

theorem printable_hex4 (n : ℕ) : Printable (hex4 n) := by
  have hdigit : ∀ m < 16, 0x20 ≤ (hexDigit m).toNat := by decide
  simp only [Printable, hex4, List.forall_mem_cons, List.not_mem_nil, false_imp_iff, implies_true,
    and_true]
  exact ⟨hdigit _ (Nat.mod_lt _ (by omega)), hdigit _ (Nat.mod_lt _ (by omega)),
    hdigit _ (Nat.mod_lt _ (by omega)), hdigit _ (Nat.mod_lt _ (by omega))⟩

theorem printable_unicodeEscape (n : ℕ) : Printable (unicodeEscape n) := by
  have hplane : ∀ m, Printable ('\\' :: 'u' :: hex4 m) := fun m =>
    .cons (by decide) (.cons (by decide) (printable_hex4 m))
  unfold unicodeEscape
  split
  · exact hplane n
  · exact (hplane _).append (hplane _)

theorem printable_escape (ensureAscii : Bool) (c : Char) : Printable (escape ensureAscii c) := by
  have hpair : ∀ d : Char, 0x20 ≤ d.toNat → Printable ['\\', d] := fun d hd =>
    .cons (by decide) (.cons hd printable_nil)
  unfold escape
  split
  · exact hpair _ (by decide)
  split
  · exact hpair _ (by decide)
  split
  · exact hpair _ (by decide)
  split
  · exact hpair _ (by decide)
  split
  · exact hpair _ (by decide)
  split
  · exact hpair _ (by decide)
  split
  · exact hpair _ (by decide)
  split
  · exact printable_unicodeEscape _
  · rename_i hescape
    exact .cons (Nat.le_of_not_lt fun hlt => hescape (.inl hlt)) printable_nil

theorem printable_dumpString (f : Format) (s : List Char) : Printable (dumpString f s) := by
  refine .cons (by decide) (.append ?_ (.cons (by decide) printable_nil))
  intro c hc
  obtain ⟨d, _, hd⟩ := List.mem_flatMap.mp hc
  exact printable_escape f.ensureAscii d c hd

theorem printable_digits {ds : List Char} (h : Digits ds) : Printable ds := by
  intro c hc
  have hdigit := h c hc
  simp only [isDigit, Bool.and_eq_true, decide_eq_true_eq] at hdigit
  exact le_trans (by decide) hdigit.1

theorem printable_text {l : Literal} (h : l.Valid) : Printable l.text := by
  have hinteger : Printable l.integer := by
    rcases h.integer with h | ⟨c, rest, h, hc, _, hrest⟩
    · rw [h]
      exact printable_digits fun c hc => by rw [List.mem_singleton.mp hc]; decide
    · rw [h]
      exact printable_digits (List.forall_mem_cons.mpr ⟨hc, hrest⟩)
  have hfraction : Printable l.fraction := by
    rcases h.fraction with h | ⟨d, ds, h, hds⟩
    · rw [h]
      exact printable_nil
    · rw [h]
      exact .cons (by decide) (printable_digits hds)
  have hexponent : Printable l.exponent := by
    rcases h.exponent with h | ⟨e, sign, d, ds, h, he, hsign, hds⟩
    · rw [h]
      exact printable_nil
    · rw [h]
      refine .cons (by rcases he with rfl | rfl <;> decide) (.append ?_ (printable_digits hds))
      rcases hsign with rfl | rfl | rfl
      · exact printable_nil
      · exact .cons (by decide) printable_nil
      · exact .cons (by decide) printable_nil
  refine ((Printable.append ?_ hinteger).append hfraction).append hexponent
  split
  · exact .cons (by decide) printable_nil
  · exact printable_nil

theorem printable_constant (c : Constant) : Printable c.text := by
  cases c <;> simp [Printable, Constant.text]

section

variable {F : Type} (t : FloatText F) (f : Format)

theorem printable_space : Printable f.space := by
  rw [Format.space]
  split
  · exact printable_nil
  · exact .cons (by decide) printable_nil

mutual

theorem printable_dump : (v : Value F) → Printable (dump t f v)
  | .constant c => printable_constant c
  | .int n => by
    rw [dump, ← intLiteral_text]
    exact printable_text (intLiteral_valid n)
  | .float x => printable_text (t.valid x)
  | .str s => printable_dumpString f s
  | .arr items => .cons (by decide) (printable_dumpItems items)
  | .obj members => .cons (by decide) (printable_dumpMembers members)

theorem printable_dumpItems : (vs : List (Value F)) → Printable (dumpItems t f vs)
  | [] => .cons (by decide) printable_nil
  | v :: vs => (printable_dump v).append (printable_dumpMoreItems vs)

theorem printable_dumpMoreItems : (vs : List (Value F)) → Printable (dumpMoreItems t f vs)
  | [] => .cons (by decide) printable_nil
  | v :: vs => .cons (by decide)
      ((printable_space f).append ((printable_dump v).append (printable_dumpMoreItems vs)))

theorem printable_dumpMembers : (ms : List (List Char × Value F)) → Printable (dumpMembers t f ms)
  | [] => .cons (by decide) printable_nil
  | m :: ms => (printable_dumpMember m).append (printable_dumpMoreMembers ms)

theorem printable_dumpMoreMembers : (ms : List (List Char × Value F)) →
    Printable (dumpMoreMembers t f ms)
  | [] => .cons (by decide) printable_nil
  | m :: ms => .cons (by decide)
      ((printable_space f).append ((printable_dumpMember m).append (printable_dumpMoreMembers ms)))

theorem printable_dumpMember : (m : List Char × Value F) → Printable (dumpMember t f m)
  | (k, v) => (printable_dumpString f k).append
      (.cons (by decide) ((printable_space f).append (printable_dump v)))

end

theorem printable_dumps (v : Value F) : Printable (dumps t f v) :=
  printable_dump t f _

end

/-! ### Keys -/

section

variable {F : Type} {t : FloatText F}

theorem distinctMembers_insertMember {ms : List (List Char × Value F)} {m : List Char × Value F}
    (h : (ms.map (·.1)).Nodup ∧ Value.distinctMembers ms) (hm : Value.distinctMember m) :
    ((insertMember ms m).map (·.1)).Nodup ∧ Value.distinctMembers (insertMember ms m) := by
  unfold insertMember
  split
  · -- The keys stay.
    have hkeys : (ms.map fun m' => if m'.1 = m.1 then m else m').map (·.1) = ms.map (·.1) := by
      rw [List.map_map]
      refine List.map_congr_left fun m' _ => ?_
      by_cases heq : m'.1 = m.1 <;> simp [heq]
    refine ⟨hkeys ▸ h.1, (distinctMembers_iff _).mpr fun m' hm' => ?_⟩
    obtain ⟨m₀, hm₀, rfl⟩ := List.mem_map.mp hm'
    split
    · exact hm
    · exact (distinctMembers_iff _).mp h.2 m₀ hm₀
  · rename_i hany
    refine ⟨?_, (distinctMembers_iff _).mpr fun m' hm' => ?_⟩
    · rw [List.map_append, List.nodup_append]
      refine ⟨h.1, List.nodup_singleton _, fun k hk k' hk' heq => hany ?_⟩
      obtain ⟨m', hm', rfl⟩ := List.mem_map.mp hk
      exact List.any_eq_true.mpr ⟨m', hm', by simpa [heq] using hk'⟩
    · rcases List.mem_append.mp hm' with hm' | hm'
      · exact (distinctMembers_iff _).mp h.2 m' hm'
      · rw [List.mem_singleton.mp hm']
        exact hm

theorem distinct_foldl_insertMember {ms acc : List (List Char × Value F)}
    (h : (acc.map (·.1)).Nodup ∧ Value.distinctMembers acc) (hms : Value.distinctMembers ms) :
    (Value.obj (ms.foldl insertMember acc)).Distinct := by
  induction ms generalizing acc with
  | nil => exact h
  | cons m ms ih => exact ih (distinctMembers_insertMember h hms.1) hms.2

/-- What is read with fuel `n` has distinct keys. -/
structure ReadsDistinct (t : FloatText F) (n : ℕ) : Prop where
  value : ∀ {cs rest : List Char} {v : Value F}, scan t n cs = some (v, rest) → v.Distinct
  items : ∀ {cs rest : List Char} {vs : List (Value F)}, scanItems t n cs = some (vs, rest) →
    Value.distinctItems vs
  members : ∀ {cs rest : List Char} {ms : List (List Char × Value F)},
    scanMembers t n cs = some (ms, rest) → Value.distinctMembers ms

theorem ReadsDistinct.value_succ {n : ℕ} (ih : ReadsDistinct t n) {cs rest : List Char}
    {v : Value F} (h : scan t (n + 1) cs = some (v, rest)) : v.Distinct := by
  cases cs with
  | nil => cases h
  | cons c cs =>
    rw [scan] at h
    split at h
    · obtain ⟨p, _, heq⟩ := Option.map_eq_some_iff.mp h
      cases heq
      trivial
    split at h
    · split at h
      · cases h
        trivial
      · obtain ⟨p, hvs, heq⟩ := Option.map_eq_some_iff.mp h
        cases heq
        exact ih.items hvs
    split at h
    · split at h
      · cases h
        exact ⟨List.nodup_nil, trivial⟩
      · obtain ⟨p, hms, heq⟩ := Option.map_eq_some_iff.mp h
        cases heq
        exact distinct_foldl_insertMember ⟨List.nodup_nil, trivial⟩ (ih.members hms)
    split at h
    · cases h
      unfold Literal.value
      split <;> trivial
    · obtain ⟨p, _, heq⟩ := Option.map_eq_some_iff.mp h
      cases heq
      trivial

theorem ReadsDistinct.items_succ {n : ℕ} (ih : ReadsDistinct t n) {cs rest : List Char}
    {vs : List (Value F)} (h : scanItems t (n + 1) cs = some (vs, rest)) :
    Value.distinctItems vs := by
  simp only [scanItems, Option.bind_eq_bind, Option.bind_eq_some_iff] at h
  obtain ⟨⟨v, cs'⟩, hv, h⟩ := h
  simp only at h
  split at h
  · cases h
    exact ⟨ih.value hv, trivial⟩
  · obtain ⟨⟨vs', tail⟩, hvs, h⟩ := Option.bind_eq_some_iff.mp h
    cases h
    exact ⟨ih.value hv, ih.items hvs⟩
  · cases h

theorem ReadsDistinct.members_succ {n : ℕ} (ih : ReadsDistinct t n) {cs rest : List Char}
    {ms : List (List Char × Value F)} (h : scanMembers t (n + 1) cs = some (ms, rest)) :
    Value.distinctMembers ms := by
  unfold scanMembers at h
  split at h
  · simp only [Option.bind_eq_bind, Option.bind_eq_some_iff] at h
    obtain ⟨⟨k, cs₁⟩, _, h⟩ := h
    simp only at h
    split at h
    · obtain ⟨⟨v, cs₃⟩, hv, h⟩ := Option.bind_eq_some_iff.mp h
      simp only at h
      split at h
      · cases h
        exact ⟨ih.value hv, trivial⟩
      · obtain ⟨⟨ms', tail⟩, hms, h⟩ := Option.bind_eq_some_iff.mp h
        cases h
        exact ⟨ih.value hv, ih.members hms⟩
      · cases h
    · cases h
  · cases h

theorem readsDistinct (n : ℕ) : ReadsDistinct t n := by
  induction n with
  | zero => exact ⟨nofun, nofun, nofun⟩
  | succ n ih => exact ⟨ih.value_succ, ih.items_succ, ih.members_succ⟩

theorem distinct_loads {cs : List Char} {v : Value F} (h : loads t cs = some v) : v.Distinct := by
  obtain ⟨⟨v', rest⟩, hscan, h⟩ := Option.bind_eq_some_iff.mp h
  simp only at h
  split at h
  · cases h
    exact (readsDistinct _).value hscan
  · cases h

end

/-! ### Lines -/

/-- The bytes up to the last newline. -/
def wholeLines (body : List UInt8) : List UInt8 :=
  body.rdropWhile (· != 10)

/-- `bytes.splitlines`. -/
def splitLines : List UInt8 → List (List UInt8)
  | [] => []
  | 13 :: 10 :: bs => [] :: splitLines bs
  | b :: bs =>
    if b = 10 ∨ b = 13 then [] :: splitLines bs
    else match splitLines bs with
      | [] => [[b]]
      | line :: lines => (b :: line) :: lines

/-- No line break. -/
def OneLine (bs : List UInt8) : Prop :=
  10 ∉ bs ∧ 13 ∉ bs

theorem wholeLines_append {body tail : List UInt8} (htail : 10 ∉ tail)
    (hbody : body = [] ∨ body.getLast? = some 10) : wholeLines (body ++ tail) = body := by
  induction tail using List.reverseRecOn with
  | nil =>
    rw [List.append_nil, wholeLines, List.rdropWhile_eq_self_iff]
    intro hne
    rcases hbody with rfl | hlast
    · exact absurd rfl hne
    · rw [List.getLast?_eq_some_getLast hne] at hlast
      simp [Option.some.inj hlast]
  | append_singleton tail b ih =>
    rw [List.mem_append, not_or] at htail
    have hb : b ≠ 10 := fun heq => htail.2 (List.mem_singleton.mpr heq.symm)
    rw [wholeLines, ← List.append_assoc,
      List.rdropWhile_concat_pos (· != 10) _ _ (bne_iff_ne.mpr hb)]
    exact ih htail.1

theorem splitLines_cons {line : List UInt8} (h : OneLine line) (bs : List UInt8) :
    splitLines (line ++ 10 :: bs) = line :: splitLines bs := by
  induction line with
  | nil =>
    rw [List.nil_append, splitLines]
    · rfl
    · intro _ h13
      cases h13
  | cons b line ih =>
    have h10 : b ≠ 10 := fun hb => h.1 (hb ▸ List.mem_cons_self)
    have h13 : b ≠ 13 := fun hb => h.2 (hb ▸ List.mem_cons_self)
    rw [List.cons_append, splitLines, if_neg (not_or.mpr ⟨h10, h13⟩),
      ih ⟨fun hm => h.1 (List.mem_cons_of_mem _ hm), fun hm => h.2 (List.mem_cons_of_mem _ hm)⟩]
    exact fun _ hb => absurd hb h13

theorem splitLines_lines {lines : List (List UInt8)} (h : ∀ line ∈ lines, OneLine line) :
    splitLines (lines.flatMap (· ++ [10])) = lines := by
  induction lines with
  | nil => rfl
  | cons line lines ih =>
    rw [List.flatMap_cons, List.append_assoc, List.singleton_append,
      splitLines_cons (h line List.mem_cons_self),
      ih fun line' hline' => h line' (List.mem_cons_of_mem _ hline')]

theorem le_of_mem_utf8EncodeChar {c : Char} (hc : 0x20 ≤ c.toNat) {b : UInt8}
    (hb : b ∈ String.utf8EncodeChar c) : 0x20 ≤ b.toNat := by
  have hc' : 0x20 ≤ c.val.toNat := hc
  have hlt : c.val.toNat < 0x110000 := toNat_lt c
  unfold String.utf8EncodeChar at hb
  simp only at hb
  split at hb
  · rw [List.mem_singleton.mp hb, UInt8.toNat_ofNat']
    omega
  split at hb
  · rcases List.mem_pair.mp hb with rfl | rfl <;> rw [UInt8.toNat_ofNat'] <;> omega
  split at hb
  · simp only [List.mem_cons, List.not_mem_nil, or_false] at hb
    rcases hb with rfl | rfl | rfl <;> rw [UInt8.toNat_ofNat'] <;> omega
  · simp only [List.mem_cons, List.not_mem_nil, or_false] at hb
    rcases hb with rfl | rfl | rfl | rfl <;> rw [UInt8.toNat_ofNat'] <;> omega

theorem oneLine_utf8Encode {cs : List Char} (h : Printable cs) :
    OneLine (cs.flatMap String.utf8EncodeChar) := by
  have hle : ∀ b ∈ cs.flatMap String.utf8EncodeChar, 0x20 ≤ b.toNat := by
    intro b hb
    obtain ⟨c, hc, hbc⟩ := List.mem_flatMap.mp hb
    exact le_of_mem_utf8EncodeChar (h c hc) hbc
  exact ⟨fun hmem => absurd (hle _ hmem) (by decide), fun hmem => absurd (hle _ hmem) (by decide)⟩

end Json
