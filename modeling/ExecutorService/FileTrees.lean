/-
Trees of files with symbolic links.

A location is the list of names that leads from the root of the file system to an entry,
through directories only.  A path is a text; `follow` walks its components and goes on from
the target of each link it meets.  `realpath` does so too, and takes a missing entry for a
directory unless it is strict; the system alone asks for a directory before a dot and after a
slash.  A walk meets a bounded number of links, so a loop of links is an error.

* `Walks`, `follow_eq_some` — the walks that come to an end;
* `walks_canonical` — a walk ends at a location without links, which leads to itself;
* `Leads` — where a path leads, and `Grown` — new directories do not change it;
* `mkdirs_ok` — `mkdir -p`: the directories it makes are on the way to where it leads.
-/
import Mathlib.Data.List.Infix
import Mathlib.Logic.Function.Basic

namespace FileTree

/-! ### Paths -/

/-- A text, as a list of characters. -/
abbrev Text := List Char

/-- A name of a file; the dots are not names. -/
def IsName (t : Text) : Prop :=
  t ≠ [] ∧ t ≠ ['.'] ∧ t ≠ ['.', '.'] ∧ '/' ∉ t

instance (t : Text) : Decidable (IsName t) := by
  unfold IsName
  infer_instance

/-- The name of an entry in a directory. -/
abbrev Name := {t : Text // IsName t}

/-- Where an entry is, from the root of the tree. -/
abbrev Location := List Name

/-- What stands between two slashes of a path. -/
inductive Component
  | current
  | parent
  | name (n : Name)
  deriving DecidableEq

/-- Empty components and dots stay where they are. -/
def component (t : Text) : Component :=
  if t = ['.', '.'] then .parent else if h : IsName t then .name ⟨t, h⟩ else .current

/-- The components of a path. -/
def components (path : Text) : List Component :=
  (path.splitOn '/').map component

/-- The absolute path of a location. -/
def asPosix (loc : Location) : Text :=
  '/' :: List.intercalate ['/'] (loc.map (·.val))

theorem component_name (n : Name) : component n.val = .name n := by
  rw [component, if_neg n.property.2.2.1, dif_pos n.property]

/-- The components of the path of a location, which starts with an empty one. -/
theorem components_asPosix (loc : Location) :
    components (asPosix loc) = .current :: if loc = [] then [.current] else loc.map .name := by
  have hcurrent : component [] = .current := by decide
  have hsplit : (asPosix loc).splitOn '/' =
      [] :: (List.intercalate ['/'] (loc.map (·.val))).splitOn '/' := by
    rw [asPosix, List.splitOn_cons_eq_if_modifyHead, if_pos (beq_self_eq_true '/')]
  rw [components, hsplit, List.map_cons, hcurrent]
  congr 1
  cases loc with
  | nil => simp [hcurrent]
  | cons n loc =>
    rw [if_neg (List.cons_ne_nil _ _), List.splitOn_intercalate]
    · rw [List.map_map]
      exact List.map_congr_left fun n _ => component_name n
    · intro l hl
      obtain ⟨n, _, rfl⟩ := List.mem_map.mp hl
      exact n.property.2.2.2
    · exact List.cons_ne_nil _ _

/-! ### Trees -/

/-- What stands at a location. -/
inductive Entry
  | file (content : List UInt8) (modifiedNs : ℤ)
  | directory
  | link (target : Text)
  deriving DecidableEq

/-- A finite tree: every entry but the first lies in a directory. -/
structure Tree where
  entry : Location → Option Entry
  locations : List Location
  listed : ∀ {loc}, entry loc ≠ none → loc ∈ locations
  parents : ∀ {loc n}, entry (loc ++ [n]) ≠ none → entry loc = some .directory

namespace Tree

/-- A new entry in a directory, or another one in place of a file or a link. -/
def put (t : Tree) (loc : Location) (n : Name) (e : Entry) (hdir : t.entry loc = some .directory)
    (hleaf : t.entry (loc ++ [n]) ≠ some .directory) : Tree where
  entry := Function.update t.entry (loc ++ [n]) (some e)
  locations := (loc ++ [n]) :: t.locations
  listed {loc'} h := by
    by_cases heq : loc' = loc ++ [n]
    · exact List.mem_cons.mpr (.inl heq)
    · rw [Function.update_of_ne heq] at h
      exact List.mem_cons_of_mem _ (t.listed h)
  parents {x m} h := by
    by_cases hnew : x ++ [m] = loc ++ [n]
    · obtain rfl := (List.append_inj' hnew rfl).1
      rw [Function.update_of_ne (by simp)]
      exact hdir
    · rw [Function.update_of_ne hnew] at h
      have hx := t.parents h
      rwa [Function.update_of_ne fun heq : x = loc ++ [n] => hleaf (heq ▸ hx)]

@[simp]
theorem put_self {t : Tree} {loc : Location} {n : Name} {e : Entry}
    {hdir : t.entry loc = some .directory} {hleaf : t.entry (loc ++ [n]) ≠ some .directory} :
    (t.put loc n e hdir hleaf).entry (loc ++ [n]) = some e :=
  Function.update_self ..

theorem put_of_ne {t : Tree} {loc : Location} {n : Name} {e : Entry}
    {hdir : t.entry loc = some .directory} {hleaf : t.entry (loc ++ [n]) ≠ some .directory}
    {loc' : Location} (h : loc' ≠ loc ++ [n]) :
    (t.put loc n e hdir hleaf).entry loc' = t.entry loc' :=
  Function.update_of_ne h ..

/-- Below a missing entry there is none. -/
theorem entry_below {t : Tree} {loc : Location} (h : t.entry loc = none) (n : Name) :
    t.entry (loc ++ [n]) = none := by
  by_contra hne
  rw [t.parents hne] at h
  cases h

/-- Below a missing entry nothing is found. -/
theorem entry_of_missing {t : Tree} {a out : Location} (h : t.entry a = none) (ha : a <+: out) :
    t.entry out = none := by
  obtain ⟨names, rfl⟩ := ha
  induction names using List.reverseRecOn with
  | nil => rwa [List.append_nil]
  | append_singleton names n ih =>
    rw [← List.append_assoc]
    exact entry_below ih n

/-- Who walks: `realpath`, `realpath(strict=True)` or the system. -/
inductive Walker
  | realpath | strict | system
  deriving DecidableEq

/-- The system finds a dot in directories only. -/
def passes (t : Tree) (walker : Walker) (loc : Location) : Bool :=
  walker != .system || t.entry loc == some .directory

/-- The walk along the components of a path; `jump` goes on behind a link. -/
def walk (t : Tree) (walker : Walker) (jump : Location → List Component → Option Location) :
    Location → List Component → Option Location
  | loc, [] => some loc
  | loc, .current :: cs => if t.passes walker loc then t.walk walker jump loc cs else none
  | loc, .parent :: cs =>
    if t.passes walker loc then t.walk walker jump loc.dropLast cs else none
  | loc, .name n :: cs => match t.entry (loc ++ [n]) with
    | none => if walker = .realpath then t.walk walker jump (loc ++ [n]) cs else none
    | some (.link target) =>
      jump (if target.head? = some '/' then [] else loc) (components target ++ cs)
    | some _ => t.walk walker jump (loc ++ [n]) cs

/-- A walk that meets at most `links` links. -/
def follow (t : Tree) (walker : Walker) : ℕ → Location → List Component → Option Location
  | 0 => t.walk walker fun _ _ => none
  | links + 1 => t.walk walker (t.follow walker links)

/-- The entry that the system finds at the path of a location. -/
def lookup (t : Tree) (links : ℕ) (loc : Location) : Option Location :=
  t.follow .system links [] (loc.map .name)

/-- No link on the way to a location. -/
def Canonical (t : Tree) (loc : Location) : Prop :=
  ∀ p n target, p ++ [n] <+: loc → t.entry (p ++ [n]) ≠ some (.link target)

/-- A walk that comes to its end. -/
inductive Walks (t : Tree) (walker : Walker) :
    ℕ → Location → List Component → Location → Prop
  | done {links : ℕ} {loc : Location} : Walks t walker links loc [] loc
  | current {links : ℕ} {loc out : Location} {cs : List Component}
      (passes : t.passes walker loc = true) (rest : Walks t walker links loc cs out) :
      Walks t walker links loc (.current :: cs) out
  | parent {links : ℕ} {loc out : Location} {cs : List Component}
      (passes : t.passes walker loc = true) (rest : Walks t walker links loc.dropLast cs out) :
      Walks t walker links loc (.parent :: cs) out
  | missing {links : ℕ} {loc out : Location} {n : Name} {cs : List Component}
      (none : t.entry (loc ++ [n]) = none) (realpath : walker = .realpath)
      (rest : Walks t walker links (loc ++ [n]) cs out) :
      Walks t walker links loc (.name n :: cs) out
  | link {links : ℕ} {loc out : Location} {n : Name} {target : Text} {cs : List Component}
      (link : t.entry (loc ++ [n]) = some (.link target))
      (rest : Walks t walker links (if target.head? = some '/' then [] else loc)
        (components target ++ cs) out) :
      Walks t walker (links + 1) loc (.name n :: cs) out
  | found {links : ℕ} {loc out : Location} {n : Name} {e : Entry} {cs : List Component}
      (found : t.entry (loc ++ [n]) = some e) (plain : ∀ target, e ≠ .link target)
      (rest : Walks t walker links (loc ++ [n]) cs out) :
      Walks t walker links loc (.name n :: cs) out

variable {t t' : Tree} {walker : Walker} {links : ℕ} {loc out : Location} {cs : List Component}

/-- A walk whose jumps come to their ends with a link less. -/
theorem walks_of_walk {jump : Location → List Component → Option Location}
    (hjump : ∀ {loc cs}, jump loc cs = some out →
      ∃ k, links = k + 1 ∧ t.Walks walker k loc cs out)
    (h : t.walk walker jump loc cs = some out) : t.Walks walker links loc cs out := by
  induction cs generalizing loc with
  | nil =>
    cases h
    exact .done
  | cons c cs ih =>
    cases c with
    | current =>
      rw [walk, Option.ite_none_right_eq_some] at h
      exact .current h.1 (ih h.2)
    | parent =>
      rw [walk, Option.ite_none_right_eq_some] at h
      exact .parent h.1 (ih h.2)
    | name n =>
      rw [walk] at h
      split at h
      · rename_i hnone
        rw [Option.ite_none_right_eq_some] at h
        exact .missing hnone h.1 (ih h.2)
      · rename_i hlink
        obtain ⟨k, rfl, hwalks⟩ := hjump h
        exact .link hlink hwalks
      · rename_i e hlink hfound
        exact .found hfound (fun target heq => hlink target heq) (ih h)

theorem follow_eq_some :
    t.follow walker links loc cs = some out ↔ t.Walks walker links loc cs out := by
  constructor
  · induction links generalizing loc cs with
    | zero => exact walks_of_walk nofun
    | succ links ih => exact walks_of_walk fun h => ⟨links, rfl, ih h⟩
  · intro h
    induction h with
    | @done links loc => cases links <;> rfl
    | @current links loc out cs passes _ ih =>
      cases links <;> exact (if_pos passes).trans ih
    | @parent links loc out cs passes _ ih =>
      cases links <;> exact (if_pos passes).trans ih
    | @missing links loc out n cs none realpath _ ih =>
      cases links <;>
      · rw [follow, walk, none]
        exact (if_pos realpath).trans ih
    | link link _ ih =>
      rw [follow, walk, link]
      exact ih
    | @found links loc out n e cs found plain _ ih =>
      cases links <;>
      · rw [follow, walk, found]
        cases e with
        | link target => exact absurd rfl (plain target)
        | _ => exact ih

theorem walks_mono (h : t.Walks walker links loc cs out) {links' : ℕ} (hle : links ≤ links') :
    t.Walks walker links' loc cs out := by
  induction h generalizing links' with
  | done => exact .done
  | current passes _ ih => exact .current passes (ih hle)
  | parent passes _ ih => exact .parent passes (ih hle)
  | missing none realpath _ ih => exact .missing none realpath (ih hle)
  | link link _ ih =>
    obtain ⟨links', rfl⟩ : ∃ k, links' = k + 1 := ⟨links' - 1, by omega⟩
    exact .link link (ih (by omega))
  | found found plain _ ih => exact .found found plain (ih hle)

/-- What another walker finds is where the path leads. -/
theorem walks_realpath (h : t.Walks walker links loc cs out) :
    t.Walks .realpath links loc cs out := by
  induction h with
  | done => exact .done
  | current _ _ ih => exact .current rfl ih
  | parent _ _ ih => exact .parent rfl ih
  | missing none _ _ ih => exact .missing none rfl ih
  | link link _ ih => exact .link link ih
  | found found plain _ ih => exact .found found plain ih

theorem canonical_nil : t.Canonical [] := by
  intro p n target hp
  simp at hp

theorem Canonical.of_initial {p : Location} (h : t.Canonical loc) (hp : p <+: loc) :
    t.Canonical p :=
  fun q n target hq => h q n target (hq.trans hp)

theorem Canonical.snoc {n : Name} (h : t.Canonical loc)
    (hn : ∀ target, t.entry (loc ++ [n]) ≠ some (.link target)) : t.Canonical (loc ++ [n]) := by
  intro p m target hp
  rcases List.prefix_concat_iff.mp hp with heq | hp
  · rw [heq]
    exact hn target
  · exact h p m target hp

/-- A walk ends at a location without links. -/
theorem walks_canonical (h : t.Walks walker links loc cs out) (hloc : t.Canonical loc) :
    t.Canonical out := by
  induction h with
  | done => exact hloc
  | current _ _ ih => exact ih hloc
  | parent _ _ ih => exact ih (hloc.of_initial (List.dropLast_prefix _))
  | missing none _ _ ih =>
    exact ih (hloc.snoc fun target heq => by rw [none] at heq; cases heq)
  | link _ _ ih =>
    refine ih ?_
    split
    · exact canonical_nil
    · exact hloc
  | found found plain _ ih =>
    exact ih (hloc.snoc fun target heq => plain target (Option.some.inj (found.symm.trans heq)))

/-- Such a location leads to itself. -/
theorem walks_names {names : Location} (h : t.Canonical (loc ++ names))
    (hout : t.Walks walker links loc (names.map .name) out) : out = loc ++ names := by
  induction names generalizing loc links with
  | nil =>
    cases hout
    exact (List.append_nil _).symm
  | cons n names ih =>
    have hassoc : loc ++ n :: names = loc ++ [n] ++ names := by simp
    rw [hassoc] at h ⊢
    cases hout with
    | missing _ _ rest => exact ih h rest
    | @link _ _ _ _ target _ link _ =>
      exact absurd link (h loc n target (List.prefix_append _ _))
    | found _ _ rest => exact ih h rest

theorem lookup_canonical (h : t.Canonical loc) (hout : t.lookup links loc = some out) :
    out = loc :=
  walks_names h (follow_eq_some.mp hout)

/-- Two walks one after the other. -/
theorem walks_append {cs' : List Component} {mid : Location} {links' : ℕ}
    (h : t.Walks walker links loc cs mid) (h' : t.Walks walker links' mid cs' out) :
    t.Walks walker (links + links') loc (cs ++ cs') out := by
  induction h with
  | done => exact walks_mono h' (Nat.le_add_left _ _)
  | current passes _ ih => exact .current passes (ih h')
  | parent passes _ ih => exact .parent passes (ih h')
  | missing none realpath _ ih => exact .missing none realpath (ih h')
  | link link _ ih =>
    have hrest := ih h'
    rw [List.append_assoc] at hrest
    rw [Nat.succ_add]
    exact .link link hrest
  | found found plain _ ih => exact .found found plain (ih h')

/-! ### Where a path leads -/

/-- Where the path of a location leads, whether or not anything is there. -/
def Leads (t : Tree) (path loc : Location) : Prop :=
  ∃ links, t.Walks .realpath links [] (path.map .name) loc

theorem Leads.eq {path loc loc' : Location} (h : t.Leads path loc) (h' : t.Leads path loc') :
    loc = loc' := by
  obtain ⟨k, hk⟩ := h
  obtain ⟨k', hk'⟩ := h'
  have hmax := follow_eq_some.mpr (walks_mono hk (Nat.le_max_left k k'))
  rw [follow_eq_some.mpr (walks_mono hk' (Nat.le_max_right k k'))] at hmax
  exact (Option.some.inj hmax).symm

theorem leads_of_lookup {path : Location} (h : t.lookup links path = some loc) :
    t.Leads path loc :=
  ⟨links, walks_realpath (follow_eq_some.mp h)⟩

/-- Only directories were added. -/
def Grown (t t' : Tree) : Prop :=
  ∀ loc, t'.entry loc = t.entry loc ∨ (t.entry loc = none ∧ t'.entry loc = some .directory)

theorem Grown.refl (t : Tree) : t.Grown t :=
  fun _ => .inl rfl

theorem Grown.trans {t'' : Tree} (h : t.Grown t') (h' : t'.Grown t'') : t.Grown t'' := by
  intro loc
  rcases h loc with heq | ⟨hnone, hdir⟩
  · rw [← heq]
    exact h' loc
  · rcases h' loc with heq | ⟨hnone', _⟩
    · exact .inr ⟨hnone, heq.trans hdir⟩
    · rw [hdir] at hnone'
      cases hnone'

/-- New directories do not change where a path leads. -/
theorem Grown.walks (h : t.Grown t') (hw : t.Walks .realpath links loc cs out) :
    t'.Walks .realpath links loc cs out := by
  induction hw with
  | done => exact .done
  | current _ _ ih => exact .current rfl ih
  | parent _ _ ih => exact .parent rfl ih
  | @missing _ loc _ n _ none _ _ ih =>
    rcases h (loc ++ [n]) with heq | ⟨_, hdir⟩
    · exact .missing (heq.trans none) rfl ih
    · exact .found hdir (fun _ => by nofun) ih
  | @link _ loc _ n _ _ link _ ih =>
    rcases h (loc ++ [n]) with heq | ⟨hnone, _⟩
    · exact .link (heq.trans link) ih
    · rw [hnone] at link
      cases link
  | @found _ loc _ n _ _ found plain _ ih =>
    rcases h (loc ++ [n]) with heq | ⟨hnone, _⟩
    · exact .found (heq.trans found) plain ih
    · rw [hnone] at found
      cases found

/-- And a path led there before. -/
theorem Grown.walks_before (h : t.Grown t') (hw : t'.Walks .realpath links loc cs out) :
    t.Walks .realpath links loc cs out := by
  induction hw with
  | done => exact .done
  | current _ _ ih => exact .current rfl ih
  | parent _ _ ih => exact .parent rfl ih
  | @missing _ loc _ n _ none _ _ ih =>
    rcases h (loc ++ [n]) with heq | ⟨hnone, _⟩
    · exact .missing (heq ▸ none) rfl ih
    · exact .missing hnone rfl ih
  | @link _ loc _ n _ _ link _ ih =>
    rcases h (loc ++ [n]) with heq | ⟨_, hdir⟩
    · exact .link (heq ▸ link) ih
    · rw [hdir] at link
      cases link
  | @found _ loc _ n _ _ found plain _ ih =>
    rcases h (loc ++ [n]) with heq | ⟨hnone, _⟩
    · exact .found (heq ▸ found) plain ih
    · exact .missing hnone rfl ih

theorem Grown.leads_iff (h : t.Grown t') {path : Location} :
    t'.Leads path loc ↔ t.Leads path loc :=
  ⟨fun ⟨links, hw⟩ => ⟨links, h.walks_before hw⟩, fun ⟨links, hw⟩ => ⟨links, h.walks hw⟩⟩

theorem Grown.directory (h : t.Grown t') (hdir : t.entry loc = some .directory) :
    t'.entry loc = some .directory := by
  rcases h loc with heq | ⟨hnone, _⟩
  · rw [heq, hdir]
  · rw [hdir] at hnone
    cases hnone

theorem Grown.missing (h : t.Grown t') (hnone : t'.entry loc = none) : t.entry loc = none := by
  rcases h loc with heq | ⟨hnone', _⟩
  · rw [← heq, hnone]
  · exact hnone'

/-- Below a missing entry a path leads on without links. -/
theorem walks_missing {names : Location} (h : t.entry loc = none)
    (hout : t.Walks walker links loc (names.map .name) out) : out = loc ++ names := by
  induction names generalizing loc links with
  | nil =>
    cases hout
    exact (List.append_nil _).symm
  | cons n names ih =>
    have hbelow := entry_below h n
    have hassoc : loc ++ n :: names = loc ++ [n] ++ names := by simp
    rw [hassoc]
    cases hout with
    | missing _ _ rest => exact ih hbelow rest
    | link link _ =>
      rw [hbelow] at link
      cases link
    | found found _ _ =>
      rw [hbelow] at found
      cases found

/-! ### Directories -/

/-- `mkdir -p` from a location on: the tree with the missing directories, and the locations
where they were made.  `none` is an error. -/
def mkdirs (links : ℕ) (t : Tree) (loc : Location) : List Name → Option (Tree × List Location)
  | [] => if t.entry loc = some .directory then some (t, []) else none
  | n :: names =>
    if hdir : t.entry loc = some .directory then
      match hn : t.entry (loc ++ [n]) with
      | none =>
        (mkdirs links (t.put loc n .directory hdir (by rw [hn]; nofun)) (loc ++ [n]) names).map
          fun (t', made) => (t', (loc ++ [n]) :: made)
      | some .directory => mkdirs links t (loc ++ [n]) names
      | some (.link _) =>
        (t.follow .system links loc [.name n]).bind fun loc' => mkdirs links t loc' names
      | some (.file _ _) => none
    else none

theorem grown_put {n : Name} {hdir : t.entry loc = some .directory}
    {hleaf : t.entry (loc ++ [n]) ≠ some .directory} (hnone : t.entry (loc ++ [n]) = none) :
    t.Grown (t.put loc n .directory hdir hleaf) := by
  intro loc'
  by_cases heq : loc' = loc ++ [n]
  · rw [heq]
    exact .inr ⟨hnone, put_self⟩
  · exact .inl (put_of_ne heq)

/-- What differs between the trees is among the locations. -/
def ChangedAt (t t' : Tree) (locations : List Location) : Prop :=
  ∀ loc, t'.entry loc = t.entry loc ∨ loc ∈ locations

theorem ChangedAt.trans {t'' : Tree} {l l' : List Location} (h : t.ChangedAt t' l)
    (h' : t'.ChangedAt t'' l') : t.ChangedAt t'' (l ++ l') := by
  intro loc
  rcases h loc with heq | hmem
  · rcases h' loc with heq' | hmem
    · exact .inl (heq'.trans heq)
    · exact .inr (List.mem_append_right _ hmem)
  · exact .inr (List.mem_append_left _ hmem)

theorem ChangedAt.mono {l l' : List Location} (h : t.ChangedAt t' l) (hsub : l ⊆ l') :
    t.ChangedAt t' l' :=
  fun loc => (h loc).imp_right fun hmem => hsub hmem

theorem changedAt_put {n : Name} {e : Entry} {hdir : t.entry loc = some .directory}
    {hleaf : t.entry (loc ++ [n]) ≠ some .directory} :
    t.ChangedAt (t.put loc n e hdir hleaf) [loc ++ [n]] := by
  intro loc'
  by_cases heq : loc' = loc ++ [n]
  · exact .inr (List.mem_singleton.mpr heq)
  · exact .inl (put_of_ne heq)

/-- The directories that are made were missing on the way to the location the path leads to,
and that one is a directory then. -/
theorem mkdirs_ok {names : List Name} {made : List Location}
    (h : mkdirs links t loc names = some (t', made)) :
    ∃ out, (∃ k, t.Walks .realpath k loc (names.map .name) out) ∧ t.Grown t' ∧
      t.ChangedAt t' made ∧ t'.entry out = some .directory ∧
      ∀ a ∈ made, a <+: out ∧ t.entry a = none := by
  induction names generalizing t loc t' made with
  | nil =>
    rw [mkdirs] at h
    split at h
    · rename_i hdir
      cases h
      exact ⟨loc, ⟨0, .done⟩, .refl _, fun _ => .inl rfl, hdir, List.forall_mem_nil _⟩
    · cases h
  | cons n names ih =>
    rw [mkdirs] at h
    split at h
    · rename_i hdir
      split at h
      · rename_i hn
        obtain ⟨⟨t₁, made₁⟩, hrest, heq⟩ := Option.map_eq_some_iff.mp h
        cases heq
        obtain ⟨out, ⟨k, hk⟩, hgrown, hchanged, hout, hall⟩ := ih hrest
        have hput : t.Grown (t.put loc n .directory hdir (by rw [hn]; nofun)) := grown_put hn
        have hk := hput.walks_before hk
        have hloc : out = loc ++ [n] ++ names := walks_missing hn hk
        refine ⟨out, ⟨k, .missing hn rfl hk⟩, hput.trans hgrown, changedAt_put.trans hchanged, hout,
          fun a ha => ?_⟩
        rcases List.mem_cons.mp ha with rfl | ha
        · exact ⟨hloc ▸ List.prefix_append _ _, hn⟩
        · exact ⟨(hall a ha).1, hput.missing (hall a ha).2⟩
      · rename_i hn
        obtain ⟨out, ⟨k, hk⟩, hrest⟩ := ih h
        exact ⟨out, ⟨k, .found hn (fun _ => by nofun) hk⟩, hrest⟩
      · obtain ⟨mid, hmid, h⟩ := Option.bind_eq_some_iff.mp h
        obtain ⟨out, ⟨k, hk⟩, hrest⟩ := ih h
        exact ⟨out, ⟨_, walks_append (walks_realpath (follow_eq_some.mp hmid)) hk⟩, hrest⟩
      · cases h
    · cases h

end Tree

end FileTree
