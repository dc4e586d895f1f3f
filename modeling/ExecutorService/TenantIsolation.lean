/-
Tenant isolation of the API.

A caller sees the Executions of its tenant and, if it names a user, of that user; a
submit sees its whole tenant.  Two stored states that agree on what the caller sees must
be answered alike, and a request must leave the Executions it does not see.

Every route and tool passes `authorizeExecution` with the id it then reads, and answers a
hidden Execution as a missing one.  An Artifact is looked up by its id alone: the query
answers a missing Artifact with a text of its own, the authorisation a hidden one with
another.

* `StoredState` — the rows with the constraints of the schema and of the Workers' writes;
* `authorizeExecution_eq` — the rule, as a function of the visible rows;
* `run_confined` — an authorised handler on an Execution is confined to what it sees;
* `tenant_isolation` — a request is confined exactly if it does not read an Artifact that
  one of the two states holds in a hidden Execution and the other one does not hold there.
-/
import ExecutorService.ApiRequests
import ExecutorService.Confinement

namespace ExecutorService

/-! ### Stored states -/

/-- A database whose ids are unique and whose Step attempts and materialization receipts
refer to an Attempt and an Artifact of their own Execution. -/
structure StoredState extends Database where
  idsUnique : (records.map (·.id)).Nodup
  attemptsOwned : ∀ r ∈ records, ∀ a ∈ r.tables.attempts, ∀ r' ∈ records,
    ∀ a' ∈ r'.tables.attempts, a.id = a'.id → r.id = r'.id
  stepAttemptsOwned : ∀ r ∈ records, ∀ s ∈ r.tables.stepAttempts,
    ∃ a ∈ r.tables.attempts, a.id = s.executionAttemptId
  artifactsOwned : ∀ r ∈ records, ∀ a ∈ r.artifacts, ∀ r' ∈ records, ∀ a' ∈ r'.artifacts,
    a.id = a'.id → r.id = r'.id
  receiptsOwned : ∀ r ∈ records, ∀ entry ∈ r.materialized, ∃ a ∈ r.artifacts, a.id = entry.2

/-- The Executions that a request may show. -/
def Request.sees (caller : Caller) (request : Request) (r : ExecutionRecord) : Bool :=
  caller.tenantId == some r.tenantId && match request with
    | .submit _ => true
    | _ => caller.userId.all (r.userId == ·)

/-- The Artifact that a request looks up by its id. -/
def Request.readArtifact? (transport : Transport) (request : Request) : Option UUID :=
  if transport.offers request then request.artifactId? else none

/-- The state holds an Artifact in an Execution that is not seen. -/
def Database.Hides (d : Database) (sees : ExecutionRecord → Bool) (artifactId : UUID) : Prop :=
  ∃ r a, d.artifact? artifactId = some (r, a) ∧ sees r = false

/-- The digests of a command are those of no hidden Artifact. -/
def MaterializeCommand.Underived (api : Api) (sees : ExecutionRecord → Bool)
    (c : MaterializeCommand) (d : Database) : Prop :=
  ∀ r ∈ d.records, sees r = false → ∀ a ∈ r.artifacts,
    a.id ≠ api.digests.artifactId c.fingerprint ∧
      ∀ path checksum, a.identityHash ≠ api.digests.identityHash c.executionId path checksum

/-- The response is the same, the effect on visible rows is the same, and no hidden row
changes. -/
def Isolated (api : Api) (transport : Transport) (caller : Caller) (now : Time)
    (request : Request) (d d' : Database) : Prop :=
  Confined Database.records (request.sees caller) (handle api transport caller now request) d d'

/-! ### Lookups -/

section Lookups

variable {sees : ExecutionRecord → Bool} {d d' : StoredState} {r : ExecutionRecord}
  {executionId artifactId : UUID}

theorem Database.mem_of_record? {d : Database} (h : d.record? executionId = some r) :
    r ∈ d.records ∧ r.id = executionId :=
  ⟨List.mem_of_find?_eq_some h, by simpa using List.find?_some h⟩

theorem StoredState.record?_of_mem (d : StoredState) (h : r ∈ d.records) :
    d.record? r.id = some r :=
  List.find?_of_nodup d.idsUnique h

theorem StoredState.eq_of_id (d : StoredState) {r r' : ExecutionRecord} (h : r ∈ d.records)
    (h' : r' ∈ d.records) (hid : r.id = r'.id) : r = r' := by
  have hr := d.record?_of_mem h
  rw [hid, d.record?_of_mem h'] at hr
  exact (Option.some.inj hr).symm

theorem mem_of_agree (hagree : Agree Database.records sees d.toDatabase d'.toDatabase)
    (hr : r ∈ d.records) (hsees : sees r = true) : r ∈ d'.records := by
  have h : r ∈ d.records.filter sees := List.mem_filter.mpr ⟨hr, hsees⟩
  rw [hagree] at h
  exact (List.mem_filter.mp h).1

/-- The lookup of an Execution, as far as it is seen. -/
theorem record?_filter (hagree : Agree Database.records sees d.toDatabase d'.toDatabase)
    (executionId : UUID) :
    (d.record? executionId).filter sees = (d'.record? executionId).filter sees := by
  have h := congrArg (List.find? (·.id == executionId)) hagree
  rwa [List.find?_filter_of_nodup d.idsUnique, List.find?_filter_of_nodup d'.idsUnique] at h

/-- Whether an Execution is found and seen. -/
theorem record?_any (hagree : Agree Database.records sees d.toDatabase d'.toDatabase)
    (executionId : UUID) : (d.record? executionId).any sees = (d'.record? executionId).any sees := by
  have hany : ∀ o : Option ExecutionRecord, o.any sees = (o.filter sees).isSome := by
    intro o
    cases o with
    | none => rfl
    | some r => cases h : sees r <;> simp [Option.filter, h]
  rw [hany, hany, record?_filter hagree]

theorem record?_agree (hagree : Agree Database.records sees d.toDatabase d'.toDatabase)
    (hr : d.record? executionId = some r) (hsees : sees r = true) :
    d'.record? executionId = some r := by
  obtain ⟨hmem, rfl⟩ := Database.mem_of_record? hr
  exact d'.record?_of_mem (mem_of_agree hagree hmem hsees)

theorem Database.artifact?_eq_some {d : Database} {a : ExecutionArtifact}
    (h : d.artifact? artifactId = some (r, a)) :
    r ∈ d.records ∧ r.artifacts.find? (·.id == artifactId) = some a := by
  obtain ⟨r', hr', hfind⟩ := List.exists_of_findSome?_eq_some h
  obtain ⟨a', ha', heq⟩ := Option.map_eq_some_iff.mp hfind
  cases heq
  exact ⟨hr', ha'⟩

/-- An Artifact is found in the Execution that holds it. -/
theorem StoredState.artifact?_of_mem (d : StoredState) {a : ExecutionArtifact}
    (hr : r ∈ d.records) (ha : r.artifacts.find? (·.id == artifactId) = some a) :
    d.artifact? artifactId = some (r, a) := by
  have haid : a.id = artifactId := by simpa using List.find?_some ha
  cases hfind : d.artifact? artifactId with
  | none =>
    rw [Database.artifact?, List.findSome?_eq_none_iff] at hfind
    have hnone := hfind r hr
    rw [ha] at hnone
    cases hnone
  | some found =>
    obtain ⟨r', a'⟩ := found
    obtain ⟨hr', ha'⟩ := Database.artifact?_eq_some hfind
    have haid' : a'.id = artifactId := by simpa using List.find?_some ha'
    obtain rfl : r' = r := d.eq_of_id hr' hr (d.artifactsOwned r' hr' a'
      (List.mem_of_find?_eq_some ha') r hr a (List.mem_of_find?_eq_some ha) (haid'.trans haid.symm))
    rw [ha, Option.some.injEq] at ha'
    rw [ha']

theorem artifact?_agree (hagree : Agree Database.records sees d.toDatabase d'.toDatabase)
    {a : ExecutionArtifact} (h : d.artifact? artifactId = some (r, a)) (hsees : sees r = true) :
    d'.artifact? artifactId = some (r, a) := by
  obtain ⟨hr, ha⟩ := Database.artifact?_eq_some h
  exact d'.artifact?_of_mem (mem_of_agree hagree hr hsees) ha

/-- The Step attempts of an Attempt are those of its Execution. -/
theorem StoredState.stepAttemptsOf_eq (d : StoredState) (hr : r ∈ d.records) {a : AttemptRow}
    (ha : a ∈ r.tables.attempts) :
    d.stepAttemptsOf a.id = r.tables.stepAttempts.filter (·.executionAttemptId == a.id) := by
  refine List.flatMap_eq_of_mem (List.Nodup.of_map _ d.idsUnique) hr fun r' hr' hne => ?_
  refine List.filter_eq_nil_iff.mpr fun s hs hid => hne ?_
  obtain ⟨a', ha', hid'⟩ := d.stepAttemptsOwned r' hr' s hs
  exact d.eq_of_id hr' hr (d.attemptsOwned r' hr' a' ha' r hr a ha
    (hid'.trans (by simpa using hid)))

end Lookups

/-! ### The authorisation rule -/

section Authorisation

variable {caller : Caller} {tenantId : String}

/-- The Executions of a caller's tenant and, with a user, of that user. -/
def Caller.sees (caller : Caller) (r : ExecutionRecord) : Bool :=
  caller.tenantId == some r.tenantId && caller.userId.all (r.userId == ·)

theorem sees_eq_of_execution {request : Request} {executionId : UUID}
    (h : request.executionId? = some executionId) : request.sees caller = caller.sees := by
  cases request with
  | submit => cases h
  | _ => rfl

theorem hiddenFrom_iff (htenant : caller.tenantId = some tenantId) {r : ExecutionRecord} :
    r.tenantId ≠ tenantId ∨ caller.userId.any (r.userId != ·) ↔ caller.sees r = false := by
  have heq : (tenantId = r.tenantId) ↔ r.tenantId = tenantId := eq_comm
  cases huser : caller.userId with
  | none => simp [Caller.sees, htenant, huser, heq]
  | some userId =>
    simp only [Caller.sees, htenant, huser, Option.any_some, Option.all_some, bne_iff_ne,
      Bool.and_eq_false_iff, beq_eq_false_iff_ne, ne_eq, Option.some.injEq, heq]

/-- A hidden Execution is refused as a missing one. -/
theorem authorizeExecution_eq (htenant : caller.tenantId = some tenantId) (write : Bool)
    (huser : write = true → caller.userId ≠ none) (executionId : UUID) (d : Database) :
    authorizeExecution d caller executionId write =
      if (d.record? executionId).any caller.sees then .ok ()
      else .error (.executionNotFound executionId) := by
  have hchecked : authorizeExecution d caller executionId write = (do
      let r ← d.execution executionId
      if r.tenantId ≠ tenantId ∨ caller.userId.any (r.userId != ·) then
        .error (ApiError.executionNotFound executionId)
      else .ok () : Except ApiError Unit) := by
    cases write with
    | false =>
      simp [authorizeExecution, requireTenant, htenant, bind, Except.bind, pure, Except.pure]
    | true =>
      obtain ⟨userId, hcaller⟩ := Option.ne_none_iff_exists'.mp (huser rfl)
      simp [authorizeExecution, requireTenant, requireUser, htenant, hcaller, bind, Except.bind,
        Functor.map, Except.map]
  rw [hchecked, Database.execution]
  cases hr : d.record? executionId with
  | none => rfl
  | some r =>
    simp only [bind, Except.bind, hiddenFrom_iff htenant, Option.any_some]
    by_cases hsees : caller.sees r = true <;> simp [hsees]

/-- A write without a user is refused before any lookup. -/
theorem authorizeExecution_noUser (htenant : caller.tenantId = some tenantId)
    (huser : caller.userId = none) (executionId : UUID) (d : Database) :
    authorizeExecution d caller executionId true =
      .error ⟨.invalidIdentity, "X-User-Id is required.", [], none⟩ := by
  simp [authorizeExecution, requireTenant, requireUser, htenant, huser, bind, Except.bind,
    Functor.map, Except.map]

end Authorisation

/-! ### Queries of one Execution -/

theorem Page.of_congr {α β : Type} {limit : ℕ} {position : α → Cursor} {view view' : α → β}
    {rows : List α} (h : ∀ x ∈ rows, view x = view' x) :
    Page.of limit position view rows = Page.of limit position view' rows := by
  rw [Page.of, Page.of]
  congr 1
  exact List.map_congr_left fun x hx => h x (List.mem_of_mem_take (List.mem_of_mem_take hx))

theorem integerPage_congr {α β : Type} {kind : String} {column : α → ℕ} {view view' : α → β}
    {cursor : Option Cursor} {limit : ℕ} {rows : List α} (h : ∀ x ∈ rows, view x = view' x) :
    integerPage kind column view cursor limit rows =
      integerPage kind column view' cursor limit rows := by
  cases cursor with
  | none =>
    simp only [integerPage, pure_bind]
    rw [Page.of_congr fun x hx => h x ((List.mem_insertionSort _).mp hx)]
  | some cursor =>
    simp only [integerPage, pure_bind]
    congr 1
    funext value
    rw [Page.of_congr fun x hx => h x (List.mem_filter.mp ((List.mem_insertionSort _).mp hx)).1]

section Confinement

variable {sees : ExecutionRecord → Bool} {d d' : StoredState} {r : ExecutionRecord}
  {executionId : UUID}

/-- Who sees an Execution depends on its tenant and user. -/
def ReadsIdentity (sees : ExecutionRecord → Bool) : Prop :=
  ∀ r r' : ExecutionRecord, r'.tenantId = r.tenantId → r'.userId = r.userId → sees r' = sees r

/-- A visible Execution found in both states. -/
structure Found (sees : ExecutionRecord → Bool) (d d' : StoredState) (executionId : UUID)
    (r : ExecutionRecord) : Prop where
  agree : Agree Database.records sees d.toDatabase d'.toDatabase
  left : d.record? executionId = some r
  right : d'.record? executionId = some r
  sees : sees r = true

namespace Found

theorem execution (h : Found sees d d' executionId r) :
    d.execution executionId = .ok r ∧ d'.execution executionId = .ok r := by
  rw [Database.execution, Database.execution, h.left, h.right]
  exact ⟨rfl, rfl⟩

theorem stepAttemptsOf (h : Found sees d d' executionId r) {a : AttemptRow}
    (ha : a ∈ r.tables.attempts) : d.stepAttemptsOf a.id = d'.stepAttemptsOf a.id := by
  rw [d.stepAttemptsOf_eq (Database.mem_of_record? h.left).1 ha,
    d'.stepAttemptsOf_eq (Database.mem_of_record? h.right).1 ha]

theorem attempts (h : Found sees d d' executionId r) (cursor : Option Cursor) (limit : ℕ) :
    d.attempts executionId cursor limit = d'.attempts executionId cursor limit := by
  rw [Database.attempts, Database.attempts, h.execution.1, h.execution.2]
  exact integerPage_congr fun a ha => by rw [h.stepAttemptsOf ha]

theorem attempt (h : Found sees d d' executionId r) (attemptId : UUID) :
    d.attempt executionId attemptId = d'.attempt executionId attemptId := by
  rw [Database.attempt, Database.attempt, h.execution.1, h.execution.2]
  cases ha : r.tables.attempt? attemptId with
  | none => simp [bind, Except.bind, ha]
  | some a =>
    obtain rfl : a.id = attemptId := by simpa using List.find?_some ha
    simp [bind, Except.bind, ha, h.stepAttemptsOf (List.mem_of_find?_eq_some ha)]

theorem attemptSteps (h : Found sees d d' executionId r) (attemptId : UUID)
    (cursor : Option Cursor) (limit : ℕ) :
    d.attemptSteps executionId attemptId cursor limit =
      d'.attemptSteps executionId attemptId cursor limit := by
  rw [Database.attemptSteps, Database.attemptSteps, ← h.attempt attemptId, Database.attempt,
    h.execution.1]
  cases ha : r.tables.attempt? attemptId with
  | none => simp [bind, Except.bind, ha]
  | some a =>
    obtain rfl : a.id = attemptId := by simpa using List.find?_some ha
    simp [bind, Except.bind, ha, h.stepAttemptsOf (List.mem_of_find?_eq_some ha)]

/-- An update of the Execution's record. -/
theorem update (h : Found sees d d' executionId r) {u : ExecutionRecord → ExecutionRecord}
    (hu : ∀ r, sees (u r) = sees r) {β : Type} (b : β) :
    Confined Database.records sees (fun d : Database => (d.update executionId u, b))
      d.toDatabase d'.toDatabase := by
  have hseen : ∀ (d : StoredState), d.record? executionId = some r → ∀ x ∈ d.records,
      (x.id == executionId) = true → sees x = true := by
    intro d hr x hx hid
    obtain ⟨hmem, rfl⟩ := Database.mem_of_record? hr
    rw [d.eq_of_id hx hmem (by simpa using hid)]
    exact h.sees
  exact Confined.update h.agree hu (hseen d h.left) (hseen d' h.right) _ (fun _ => rfl) b

end Found

/-- A lifecycle command changes the rows of its Execution. -/
theorem command_confined (h : Found sees d d' executionId r) (hsees : ReadsIdentity sees)
    (settings : Settings) (now : Time) (command : Command) :
    Confined Database.records sees (Database.command settings now executionId command)
      d.toDatabase d'.toDatabase := by
  have hupdate := h.update (u := fun x =>
    { x with tables := (command.call settings now r.tables).1 }) (fun x => hsees x _ rfl rfl)
    ((command.call settings now r.tables).2.map fun operationId =>
      ResponseBody.command (.fromDomain (command.call settings now r.tables).1 operationId))
  refine hupdate.congr ?_ ?_
  · simp only [Database.command, h.left]
  · simp only [Database.command, h.right]

/-! ### Materialization -/

/-- No hidden Execution holds an Artifact with this id. -/
def Database.Unheld (sees : ExecutionRecord → Bool) (d : Database) (artifactId : UUID) : Prop :=
  ∀ r ∈ d.records, sees r = false → ∀ a ∈ r.artifacts, a.id ≠ artifactId

theorem Database.Unheld.of_hidden {d d' : Database} {artifactId : UUID}
    (h : d.Unheld sees artifactId)
    (hhidden : d'.records.filter (!sees ·) = d.records.filter (!sees ·)) :
    d'.Unheld sees artifactId := by
  intro r hr hsees
  have hmem : r ∈ d'.records.filter (!sees ·) := List.mem_filter.mpr ⟨hr, by simp [hsees]⟩
  rw [hhidden] at hmem
  exact h r (List.mem_filter.mp hmem).1 hsees

/-- What every hidden row leaves to the others is found among the visible ones. -/
theorem findSome?_agree {d d' : Database} (hagree : Agree Database.records sees d d') {β : Type}
    {find : ExecutionRecord → Option β} (h : ∀ r ∈ d.records, sees r = false → find r = none)
    (h' : ∀ r ∈ d'.records, sees r = false → find r = none) :
    d.records.findSome? find = d'.records.findSome? find := by
  rw [← List.findSome?_filter_of_none h, ← List.findSome?_filter_of_none h', hagree]

theorem artifact?_unheld {d d' : Database} (hagree : Agree Database.records sees d d')
    {artifactId : UUID} (h : d.Unheld sees artifactId) (h' : d'.Unheld sees artifactId) :
    d.artifact? artifactId = d'.artifact? artifactId := by
  have hnone : ∀ d : Database, d.Unheld sees artifactId → ∀ r ∈ d.records, sees r = false →
      (r.artifacts.find? (·.id == artifactId)).map (fun a => (r, a)) = none := by
    intro d h r hr hsees
    simpa using h r hr hsees
  exact findSome?_agree hagree (hnone d h) (hnone d' h')

section Materialize

variable {api : Api} {c : MaterializeCommand}

theorem MaterializeCommand.Underived.unheld {d : Database} (h : c.Underived api sees d) :
    d.Unheld sees (api.digests.artifactId c.fingerprint) :=
  fun r hr hsees a ha => (h r hr hsees a ha).1

theorem MaterializeCommand.Underived.of_hidden {d d' : Database} (h : c.Underived api sees d)
    (hhidden : d'.records.filter (!sees ·) = d.records.filter (!sees ·)) :
    c.Underived api sees d' := by
  intro r hr hsees
  have hmem : r ∈ d'.records.filter (!sees ·) := List.mem_filter.mpr ⟨hr, by simp [hsees]⟩
  rw [hhidden] at hmem
  exact h r (List.mem_filter.mp hmem).1 hsees

theorem artifactByIdentity?_agree {d d' : Database} (hagree : Agree Database.records sees d d')
    (h : c.Underived api sees d) (h' : c.Underived api sees d') (path checksum : String) :
    d.artifactByIdentity? (api.digests.identityHash c.executionId path checksum) =
      d'.artifactByIdentity? (api.digests.identityHash c.executionId path checksum) := by
  have hnone : ∀ d : Database, c.Underived api sees d → ∀ r ∈ d.records, sees r = false →
      r.artifacts.find? (·.identityHash ==
        api.digests.identityHash c.executionId path checksum) = none := by
    intro d h r hr hsees
    simpa using fun a ha => (h r hr hsees a ha).2 path checksum
  exact findSome?_agree hagree (hnone d h) (hnone d' h')

/-- Every row with the id of the Execution is seen. -/
def Database.OwnSeen (sees : ExecutionRecord → Bool) (executionId : UUID) (d : Database) : Prop :=
  ∀ r ∈ d.records, (r.id == executionId) = true → sees r = true

theorem persistArtifact_confined (hsees : ReadsIdentity sees) {d d' : Database}
    (hagree : Agree Database.records sees d d') (hown : d.OwnSeen sees c.executionId)
    (hown' : d'.OwnSeen sees c.executionId) (h : c.Underived api sees d)
    (h' : c.Underived api sees d') (now : Time) (destination name : String)
    (file : RuntimeFileMetadata) :
    Confined Database.records sees
      (Database.persistArtifact api.digests now c destination name file) d d' := by
  have hidentity := artifactByIdentity?_agree hagree h h' destination file.checksumSha256
  cases hfound : d.artifactByIdentity?
      (api.digests.identityHash c.executionId destination file.checksumSha256) with
  | some a =>
    rw [hfound] at hidentity
    refine (Confined.update hagree (fun x => hsees x (x.complete c.idempotencyKey a.id) rfl rfl)
      hown hown' (Database.update · c.executionId (·.complete c.idempotencyKey a.id))
      (fun _ => rfl) (.ok a.id)).congr ?_ ?_
    · simp only [Database.persistArtifact, hfound]
    · simp only [Database.persistArtifact, ← hidentity]
  | none =>
    rw [hfound] at hidentity
    let a := Database.newArtifact api.digests now c name
      (api.digests.identityHash c.executionId destination file.checksumSha256) file
    have hid : d.artifact? a.id = d'.artifact? a.id :=
      artifact?_unheld hagree h.unheld h'.unheld
    by_cases htaken : (d.artifact? a.id).isSome
    · refine (Confined.read hagree (g := fun _ => .error .internal) rfl).congr ?_ ?_
      · simp only [Database.persistArtifact, hfound]
        exact if_pos htaken
      · simp only [Database.persistArtifact, ← hidentity]
        exact if_pos (hid ▸ htaken)
    · have hadd : ∀ x : ExecutionRecord,
          sees ((x.addArtifact a).complete c.idempotencyKey a.id) = sees x :=
        fun x => hsees x _ rfl rfl
      refine (Confined.update hagree hadd hown hown' (Database.update · c.executionId fun r =>
        (r.addArtifact a).complete c.idempotencyKey a.id) (fun _ => rfl) (.ok a.id)).congr ?_ ?_
      · simp only [Database.persistArtifact, hfound]
        exact if_neg htaken
      · simp only [Database.persistArtifact, ← hidentity]
        exact if_neg (hid ▸ htaken)

theorem writeArtifact_confined (hsees : ReadsIdentity sees) {d d' : Database}
    (hagree : Agree Database.records sees d d') (hown : d.OwnSeen sees c.executionId)
    (hown' : d'.OwnSeen sees c.executionId) (h : c.Underived api sees d)
    (h' : c.Underived api sees d') (now : Time) (ready : ExecutionRecord.Ready)
    (e : ExecutionRow) :
    Confined Database.records sees (Database.writeArtifact api now c ready e) d d' := by
  cases hfile : api.storage.writeText e.runtimeType e.runtimeTargetId
      (MaterializeCommand.targetPath ready.workspace c.artifactType ready.name) ready.content
      e.runtimePool with
  | none =>
    refine (Confined.read hagree (g := fun _ => .error .internal) rfl).congr ?_ ?_ <;>
      simp only [Database.writeArtifact, hfile]
  | some file =>
    cases happend : (if c.appendToNotebook then
        appendNotebookMarkdown api.storage e c.idempotencyKey ready.content else .ok () :
        Except ApiError Unit) with
    | error error =>
      refine (Confined.read hagree (g := fun _ => .error error) rfl).congr ?_ ?_ <;>
        simp only [Database.writeArtifact, hfile, happend]
    | ok =>
      refine (persistArtifact_confined hsees hagree hown hown' h h' now
        (MaterializeCommand.targetPath ready.workspace c.artifactType ready.name) ready.name
        file).congr ?_ ?_ <;>
        simp only [Database.writeArtifact, hfile, happend]

theorem Found.ownSeen (h : Found sees d d' executionId r) : d.OwnSeen sees executionId := by
  intro x hx hid
  obtain ⟨hmem, rfl⟩ := Database.mem_of_record? h.left
  rw [d.eq_of_id hx hmem (by simpa using hid)]
  exact h.sees

theorem Found.symm (h : Found sees d d' executionId r) : Found sees d' d executionId r :=
  ⟨h.agree.symm, h.right, h.left, h.sees⟩

theorem ownSeen_update {d : Database} (hsees : ReadsIdentity sees)
    (h : d.OwnSeen sees c.executionId) {u : ExecutionRecord → ExecutionRecord}
    (hu : ∀ x, (u x).id = x.id ∧ (u x).tenantId = x.tenantId ∧ (u x).userId = x.userId) :
    (d.update c.executionId u).OwnSeen sees c.executionId := by
  refine List.forall_mem_updateWhere (fun x hx _ hid => ?_) fun x hx hid hid' => ?_
  · rw [(hu x).1] at hid
    rw [hsees x (u x) (hu x).2.1 (hu x).2.2]
    exact h x hx hid
  · rw [hid] at hid'
    cases hid'

theorem reserve_identity (x : ExecutionRecord) :
    (x.reserve c).id = x.id ∧ (x.reserve c).tenantId = x.tenantId ∧
      (x.reserve c).userId = x.userId := by
  rw [ExecutionRecord.reserve]
  split <;> exact ⟨rfl, rfl, rfl⟩

theorem materialize_confined (h : Found sees d d' c.executionId r) (hsees : ReadsIdentity sees)
    (hc : c.Underived api sees d.toDatabase) (hc' : c.Underived api sees d'.toDatabase)
    (now : Time) :
    Confined Database.records sees (Database.materialize api now c) d.toDatabase d'.toDatabase := by
  cases hadmission : r.admission c with
  | inl result =>
    refine (Confined.read h.agree (g := fun _ => result) rfl).congr ?_ ?_
    · simp only [Database.materialize, h.left, hadmission]
    · simp only [Database.materialize, h.right, hadmission]
  | inr ready =>
    -- The reservation, then the write under the lock.
    have hreserve := h.update (u := (·.reserve c))
      (fun x => hsees x _ (reserve_identity x).2.1 (reserve_identity x).2.2) ()
    have hwrite := writeArtifact_confined hsees hreserve.visible
      (ownSeen_update hsees h.ownSeen reserve_identity)
      (ownSeen_update hsees h.symm.ownSeen reserve_identity)
      (hc.of_hidden hreserve.hidden) (hc'.of_hidden hreserve.hidden') now ready r.tables.execution
    refine (hreserve.seq hwrite).congr ?_ ?_
    · simp only [Database.materialize, h.left, hadmission]
    · simp only [Database.materialize, h.right, hadmission]

/-- An Artifact of a visible Execution is held by no hidden one. -/
theorem StoredState.unheld_of_mem (d : StoredState) (hr : r ∈ d.records) (hseen : sees r = true)
    {a : ExecutionArtifact} (ha : a ∈ r.artifacts) : d.toDatabase.Unheld sees a.id := by
  intro r' hr' hsees a' ha' hid
  rw [d.eq_of_id hr' hr (d.artifactsOwned r' hr' a' ha' r hr a ha hid), hseen] at hsees
  cases hsees

/-- A completed receipt names an Artifact of its Execution. -/
theorem admission_inl {artifactId : UUID} (h : r.admission c = .inl (.ok artifactId)) :
    ∃ key, (key, artifactId) ∈ r.materialized := by
  rw [ExecutionRecord.admission] at h
  split at h
  · cases h
  · rename_i artifactId' hreceipt
    cases h
    rw [ExecutionRecord.materializedAs] at hreceipt
    split at hreceipt
    · cases hreceipt
    · split at hreceipt
      · cases hreceipt
      · obtain ⟨before, after, heq, -⟩ := List.lookup_eq_some_iff.mp (Except.ok.inj hreceipt)
        exact ⟨c.idempotencyKey, by simp [heq]⟩
  · repeat' split at h
    all_goals cases h

theorem reserve_artifacts (x : ExecutionRecord) : (x.reserve c).artifacts = x.artifacts := by
  rw [ExecutionRecord.reserve]
  split <;> rfl

/-- An Artifact found after a reservation was stored before it. -/
theorem artifactByIdentity?_reserve {d : Database} {hash : Key} {a : ExecutionArtifact}
    (h : (d.update c.executionId (·.reserve c)).artifactByIdentity? hash = some a) :
    ∃ r ∈ d.records, a ∈ r.artifacts ∧ a.identityHash = hash := by
  obtain ⟨r', hr', hfind⟩ := List.exists_of_findSome?_eq_some h
  have ha := List.mem_of_find?_eq_some hfind
  have hhash : a.identityHash = hash := by simpa using List.find?_some hfind
  rcases List.mem_updateWhere.mp hr' with ⟨r, hr, -, rfl⟩ | ⟨hr, -⟩
  · rw [reserve_artifacts] at ha
    exact ⟨r, hr, ha, hhash⟩
  · exact ⟨r', hr, ha, hhash⟩

theorem persistArtifact_unheld {d : StoredState} {d₁ : Database}
    (hrecords : ∀ hash a, d₁.artifactByIdentity? hash = some a →
      ∃ r ∈ d.records, a ∈ r.artifacts ∧ a.identityHash = hash)
    (hc : c.Underived api sees d.toDatabase) {now : Time} {destination name : String}
    {file : RuntimeFileMetadata} {artifactId : UUID}
    (h : (d₁.persistArtifact api.digests now c destination name file).2 = .ok artifactId) :
    d.toDatabase.Unheld sees artifactId := by
  rw [Database.persistArtifact] at h
  dsimp only at h
  split at h
  · rename_i a hfound
    cases h
    obtain ⟨r, hr, ha, hhash⟩ := hrecords _ a hfound
    cases hsees : sees r with
    | true => exact d.unheld_of_mem hr hsees ha
    | false => exact absurd hhash ((hc r hr hsees a ha).2 _ _)
  · split at h
    · cases h
    · cases h
      exact hc.unheld

/-- A materialization returns an Artifact that no hidden Execution holds. -/
theorem materialize_unheld (hr : d.record? c.executionId = some r) (hseen : sees r = true)
    (hc : c.Underived api sees d.toDatabase) {now : Time} {artifactId : UUID}
    (h : (d.materialize api now c).2 = .ok artifactId) : d.toDatabase.Unheld sees artifactId := by
  obtain ⟨hmem, -⟩ := Database.mem_of_record? hr
  rw [Database.materialize, hr] at h
  dsimp only at h
  split at h
  · rename_i hadmission
    subst h
    obtain ⟨key, hentry⟩ := admission_inl hadmission
    obtain ⟨a, ha, rfl⟩ := d.receiptsOwned r hmem (key, artifactId) hentry
    exact d.unheld_of_mem hmem hseen ha
  · rw [Database.writeArtifact] at h
    split at h
    · cases h
    · split at h
      · cases h
      · exact persistArtifact_unheld (fun hash a => artifactByIdentity?_reserve) hc h

/-- The response of a materialization shows the Artifact it returns. -/
theorem materializeRun_confined (h : Found sees d d' c.executionId r) (hsees : ReadsIdentity sees)
    (hc : c.Underived api sees d.toDatabase) (hc' : c.Underived api sees d'.toDatabase)
    (caller : Caller) (now : Time) :
    Confined Database.records sees (Request.run api caller now · (.materialize c))
      d.toDatabase d'.toDatabase := by
  have hrun := materialize_confined h hsees hc hc' now
  refine ⟨?_, hrun.visible, hrun.hidden, hrun.hidden'⟩
  simp only [Request.run]
  rw [← hrun.result]
  cases hresult : (d.materialize api now c).2 with
  | error error => rfl
  | ok artifactId =>
    have hfind := artifact?_unheld hrun.visible
      ((materialize_unheld h.left h.sees hc hresult).of_hidden hrun.hidden)
      ((materialize_unheld h.right h.sees hc' (hrun.result ▸ hresult)).of_hidden hrun.hidden')
    simp only [bind, Except.bind, Database.artifact, hfind]

end Materialize

/-! ### Handlers -/

/-- The handler of a request on an Execution that is seen. -/
theorem run_confined {api : Api} {caller : Caller} {request : Request}
    (h : Found sees d d' executionId r) (hsees : ReadsIdentity sees)
    (hrequest : request.executionId? = some executionId)
    (hc : ∀ c, request = .materialize c →
      c.Underived api sees d.toDatabase ∧ c.Underived api sees d'.toDatabase) (now : Time) :
    Confined Database.records sees (Request.run api caller now · request)
      d.toDatabase d'.toDatabase := by
  obtain ⟨hd, hd'⟩ := h.execution
  cases request with
  | submit | executions | artifact | artifactContent => cases hrequest
  | cancel id key reason =>
    cases hrequest
    exact command_confined h hsees api.settings now (.cancel key reason)
  | retry id key =>
    cases hrequest
    exact command_confined h hsees api.settings now (.retry key)
  | finalize id key fingerprint version =>
    cases hrequest
    exact command_confined h hsees api.settings now (.finalize key fingerprint version)
  | createOperation id version resolved =>
    cases hrequest
    cases resolved with
    | error error => exact Confined.read h.agree (g := fun _ => Except.error error) rfl
    | ok c => exact command_confined h hsees api.settings now (.create version c)
  | materialize c =>
    cases hrequest
    exact materializeRun_confined h hsees (hc c rfl).1 (hc c rfl).2 caller now
  | attempts id cursor limit =>
    cases hrequest
    exact Confined.read h.agree (congrArg (ResponseBody.attempts <$> ·) (h.attempts cursor limit))
  | attempt id attemptId =>
    cases hrequest
    exact Confined.read h.agree (congrArg (ResponseBody.attempt <$> ·) (h.attempt attemptId))
  | attemptSteps id attemptId cursor limit =>
    cases hrequest
    exact Confined.read h.agree
      (congrArg (ResponseBody.attemptSteps <$> ·) (h.attemptSteps attemptId cursor limit))
  | _ =>
    -- The other handlers read the record of the Execution and nothing else.
    cases hrequest
    refine Confined.read h.agree ?_
    simp only [Database.execution, Database.executionResult, readNotebook, readCell, loadNotebook,
      Database.diagnostics, Database.steps, Database.step, Database.operations, Database.operation,
      Database.operationResult, Database.operationSteps, Database.events, Database.artifacts,
      h.left, h.right]

/-- A request is authorised alike in both states, and confined if it is. -/
theorem runAuthorized_confined {api : Api} {caller : Caller} {request : Request} {now : Time}
    (hagree : Agree Database.records sees d.toDatabase d'.toDatabase)
    {auth : Database → Except ApiError Unit} (hauth : auth d.toDatabase = auth d'.toDatabase)
    (hrun : auth d.toDatabase = .ok () → Confined Database.records sees
      (Request.run api caller now · request) d.toDatabase d'.toDatabase) :
    Confined Database.records sees (fun d => request.runAuthorized api caller now d (auth d))
      d.toDatabase d'.toDatabase := by
  cases h : auth d.toDatabase with
  | error error =>
    refine (Confined.read hagree (g := fun _ => Except.error error) rfl).congr ?_ ?_
    · rw [h, Request.runAuthorized]
    · rw [← hauth, h, Request.runAuthorized]
  | ok =>
    refine (hrun h).congr ?_ ?_
    · rw [h, Request.runAuthorized]
    · rw [← hauth, h, Request.runAuthorized]

theorem isolated_of_confined {api : Api} {transport : Transport} {caller : Caller}
    {request : Request} {now : Time}
    (hagree : Agree Database.records (request.sees caller) d.toDatabase d'.toDatabase)
    (h : Confined Database.records (request.sees caller) (fun d =>
      request.runAuthorized api caller now d (authorization transport caller request d))
      d.toDatabase d'.toDatabase) :
    Isolated api transport caller now request d.toDatabase d'.toDatabase := by
  cases hoffers : transport.offers request with
  | true =>
    refine (h.map (transport.respond request)).congr ?_ ?_ <;> simp only [handle, hoffers, if_true]
  | false =>
    refine (Confined.read hagree (g := fun _ => Response.unknownTool) rfl).congr ?_ ?_ <;>
      simp only [handle, hoffers, Bool.false_eq_true, if_false]

end Confinement

theorem sees_readsIdentity (caller : Caller) (request : Request) :
    ReadsIdentity (request.sees caller) := by
  intro r r' htenant huser
  simp only [Request.sees, htenant, huser]

section Isolation

variable {api : Api} {transport : Transport} {caller : Caller} {tenantId : String}
  {now : Time} {request : Request} {d d' : StoredState} {executionId : UUID}

/-- A request on an Execution is isolated. -/
theorem isolated_execution (htenant : caller.tenantId = some tenantId)
    (hagree : Agree Database.records (request.sees caller) d.toDatabase d'.toDatabase)
    (hrequest : request.executionId? = some executionId)
    (hc : ∀ c, request = .materialize c → c.Underived api (request.sees caller) d.toDatabase ∧
      c.Underived api (request.sees caller) d'.toDatabase) :
    Isolated api transport caller now request d.toDatabase d'.toDatabase := by
  have hauth : ∀ d, authorization transport caller request d =
      authorizeExecution d caller executionId request.isWrite := by
    intro d
    cases transport with
    | rest => simp only [authorization, authorizedCaller, hrequest]
    | mcp => simp only [authorization, authorizeTool, hrequest]
  by_cases huser : request.isWrite = true → caller.userId ≠ none
  · refine isolated_of_confined hagree (runAuthorized_confined hagree ?_ fun hok => ?_)
    · rw [hauth, hauth, authorizeExecution_eq htenant _ huser, authorizeExecution_eq htenant _ huser,
        ← sees_eq_of_execution hrequest, record?_any hagree]
    · rw [hauth, authorizeExecution_eq htenant _ huser, ← sees_eq_of_execution hrequest] at hok
      split at hok
      · rename_i hany
        obtain ⟨r, hr, hsees⟩ := (Option.any_eq_true _ _).mp hany
        have hfound : Found (request.sees caller) d d' executionId r :=
          ⟨hagree, hr, record?_agree hagree hr hsees, hsees⟩
        exact run_confined hfound (sees_readsIdentity caller request) hrequest hc now
      · cases hok
  · obtain ⟨hwrite, hnone⟩ := Classical.not_imp.mp huser
    rw [hwrite] at hauth
    have hrefused := authorizeExecution_noUser htenant (not_not.mp hnone) executionId
    refine isolated_of_confined hagree (runAuthorized_confined hagree ?_ fun hok => ?_)
    · rw [hauth, hauth, hrefused, hrefused]
    · rw [hauth, hrefused] at hok
      cases hok

/-- A list shows the Executions of the caller's tenant and user. -/
theorem executions_agree (htenant : caller.tenantId = some tenantId)
    (hagree : Agree Database.records caller.sees d.toDatabase d'.toDatabase)
    (filter : Database.ExecutionFilter) (cursor : Option Cursor) (limit : ℕ) :
    d.executions filter caller.userId caller.tenantId cursor limit =
      d'.executions filter caller.userId caller.tenantId cursor limit := by
  have hselect : ∀ d : Database, d.records.filter (filter.selects caller.userId caller.tenantId) =
      (d.records.filter caller.sees).filter (filter.selects caller.userId caller.tenantId) := by
    intro d
    rw [List.filter_filter]
    refine List.filter_congr fun r _ => ?_
    cases hselects : filter.selects caller.userId caller.tenantId r with
    | false => rfl
    | true =>
      simp only [Database.ExecutionFilter.selects, htenant, Option.all_some, Bool.and_eq_true,
        beq_iff_eq] at hselects
      simp [Caller.sees, htenant, hselects]
  unfold Database.executions
  rw [hselect d.toDatabase, hselect d'.toDatabase, hagree]

theorem getBySubmitKey_agree {sees : ExecutionRecord → Bool} {tenantId : String}
    (hsees : ∀ r, r.tenantId = tenantId → sees r = true)
    (hagree : Agree Database.records sees d.toDatabase d'.toDatabase) (key : Key) :
    d.getBySubmitKey tenantId key = d'.getBySubmitKey tenantId key := by
  have hselect : ∀ d : Database, d.getBySubmitKey tenantId key = (d.records.filter sees).find?
      fun r => r.tenantId == tenantId && r.tables.execution.idempotencyKey == key := by
    intro d
    rw [List.find?_filter, Database.getBySubmitKey]
    congr 1
    funext r
    rw [Bool.eq_iff_iff]
    simp only [Bool.and_eq_true, beq_iff_eq, decide_eq_true_eq]
    exact ⟨fun h => ⟨hsees r h.1, h⟩, And.right⟩
  rw [hselect d.toDatabase, hselect d'.toDatabase, hagree]

theorem submitCommand_confined {sees : ExecutionRecord → Bool} {q : SubmitRequest}
    (hsees : ∀ r, r.tenantId = q.tenantId → sees r = true)
    (hagree : Agree Database.records sees d.toDatabase d'.toDatabase) (settings : Settings)
    (now : Time) (userId : String) :
    Confined Database.records sees (Database.submitCommand settings now q userId)
      d.toDatabase d'.toDatabase := by
  have hlookup := getBySubmitKey_agree hsees hagree q.idempotencyKey
  cases hfound : d.getBySubmitKey q.tenantId q.idempotencyKey with
  | some r =>
    refine (Confined.read hagree (g := fun _ => r.submitted settings q) rfl).congr ?_ ?_
    · simp only [Database.submitCommand, hfound]
    · simp only [Database.submitCommand, ← hlookup, hfound]
  | none => cases hsubmit : submit settings now q.toSubmitExecutionCommand with
    | error error =>
      refine (Confined.read hagree (g := fun _ => Except.error (q.failure settings
        (.rejected error))) rfl).congr ?_ ?_
      · simp only [Database.submitCommand, hfound, hsubmit]
      · simp only [Database.submitCommand, ← hlookup, hfound, hsubmit]
    | ok rows =>
      let r : ExecutionRecord := {
        tenantId := q.tenantId, userId := userId, projectId := q.projectId
        sessionId := q.sessionId, tables := rows }
      refine (Confined.insert hagree (hsees r rfl) (fun d => ⟨d.records ++ [r]⟩)
        (fun _ => rfl) (.ok (.command (.fromDomain rows (some q.operationId))))).congr ?_ ?_
      · simp only [Database.submitCommand, hfound, hsubmit, r]
      · simp only [Database.submitCommand, ← hlookup, hfound, hsubmit, r]

/-- A submit looks its key up in the caller's tenant and adds an Execution to it. -/
theorem submit_confined (resolved : Except ApiError SubmitRequest)
    (hagree : Agree Database.records ((Request.submit resolved).sees caller)
      d.toDatabase d'.toDatabase) :
    Confined Database.records ((Request.submit resolved).sees caller)
      (Request.run api caller now · (.submit resolved)) d.toDatabase d'.toDatabase := by
  have hrefused : ∀ error : ApiError, Confined Database.records
      ((Request.submit resolved).sees caller)
      (fun d : Database => (d, (.error error : Except ApiError ResponseBody)))
      d.toDatabase d'.toDatabase :=
    fun error => Confined.read hagree rfl
  cases resolved with
  | error error => exact hrefused error
  | ok q => cases huser : requireUser caller with
    | error error =>
      refine (hrefused error).congr ?_ ?_ <;> simp only [Request.run, Database.submit, huser]
    | ok userId => cases htenant : requireTenant caller with
      | error error =>
        refine (hrefused error).congr ?_ ?_ <;>
          simp only [Request.run, Database.submit, huser, htenant]
      | ok tenantId =>
        let q' : SubmitRequest := { q with
          tenantId := tenantId
          projectId := caller.projectId
          sessionId := caller.sessionId }
        cases hvalid : q'.validate api.settings api.offerings with
        | error error =>
          refine (hrefused (q'.failure api.settings error)).congr ?_ ?_ <;>
            simp only [Request.run, Database.submit, huser, htenant, q', hvalid]
        | ok =>
          have hseen : ∀ r, r.tenantId = q'.tenantId →
              (Request.submit (.ok q)).sees caller r = true := by
            intro r hr
            rw [requireTenant] at htenant
            split at htenant
            · cases htenant
            · rename_i hcaller
              cases htenant
              simp [Request.sees, hcaller, hr, q']
          refine (submitCommand_confined hseen hagree api.settings now userId).congr ?_ ?_ <;>
            simp only [Request.run, Database.submit, huser, htenant, q', hvalid]

/-- What the authorisation of an Artifact answers. -/
theorem authorizeArtifact_eq (htenant : caller.tenantId = some tenantId) (d : StoredState)
    (artifactId : UUID) :
    authorizeArtifact d.toDatabase caller artifactId false = match d.artifact? artifactId with
      | none => .error
          ⟨.artifactNotFound, s!"Execution Artifact {artifactId} was not found.", [], none⟩
      | some (r, _) => if caller.sees r then .ok () else .error (artifactNotFound artifactId) := by
  rw [authorizeArtifact, Database.artifact]
  cases hfind : d.artifact? artifactId with
  | none => rfl
  | some found =>
    obtain ⟨r, a⟩ := found
    have hr := d.record?_of_mem (Database.artifact?_eq_some hfind).1
    have hrule := authorizeExecution_eq htenant false (fun h => nomatch h) r.id
      d.toDatabase
    rw [hr, Option.any_some] at hrule
    simp only [bind, Except.bind, artifactView, hrule]
    cases hsees : caller.sees r with
    | true => rfl
    | false => rfl

/-- The error of an Artifact that does not exist. -/
def artifactMissing (artifactId : UUID) : ApiError :=
  ⟨.artifactNotFound, s!"Execution Artifact {artifactId} was not found.", [], none⟩

/-- The texts of a hidden and of a missing Artifact differ, in either transport. -/
theorem hidden_ne_missing (transport : Transport) (request : Request) (artifactId : UUID) :
    transport.respond request (.error (artifactNotFound artifactId)) ≠
      transport.respond request (.error (artifactMissing artifactId)) := by
  intro h
  have hprefix : (toString "Artifact ").length ≠ (toString "Execution Artifact ").length := by
    decide
  cases transport with
  | rest =>
    have htext := congrArg ApiError.message (Response.error.inj h).2
    have hlength := congrArg String.length htext
    simp only [artifactNotFound, artifactMissing, String.length_append] at hlength
    omega
  | mcp =>
    have hlength := congrArg String.length (Response.toolError.inj h).1
    simp only [artifactNotFound, artifactMissing, String.length_append] at hlength
    omega

section Artifacts

variable {artifactId : UUID}

theorem authorization_artifact (hrequest : request.artifactId? = some artifactId) (d : Database) :
    authorization transport caller request d = authorizeArtifact d caller artifactId false := by
  cases request with
  | artifact | artifactContent =>
    cases hrequest
    cases transport <;> rfl
  | _ => cases hrequest

theorem sees_eq_of_artifact (hrequest : request.artifactId? = some artifactId) :
    request.sees caller = caller.sees := by
  cases request with
  | submit => cases hrequest
  | _ => rfl

theorem artifactId?_of_readArtifact? (h : request.readArtifact? transport = some artifactId) :
    request.artifactId? = some artifactId ∧ transport.offers request = true := by
  rw [Request.readArtifact?] at h
  split at h
  · rename_i hoffers
    exact ⟨h, hoffers⟩
  · cases h

/-- The handlers of an Artifact that is seen. -/
theorem artifactRun_confined {r : ExecutionRecord} {a : ExecutionArtifact}
    (hrequest : request.artifactId? = some artifactId)
    (hagree : Agree Database.records caller.sees d.toDatabase d'.toDatabase)
    (hfind : d.artifact? artifactId = some (r, a)) (hsees : caller.sees r = true) :
    Confined Database.records caller.sees (Request.run api caller now · request)
      d.toDatabase d'.toDatabase := by
  have hfind' := artifact?_agree hagree hfind hsees
  have hr := d.record?_of_mem (Database.artifact?_eq_some hfind).1
  have hr' := record?_agree hagree hr hsees
  cases request with
  | artifact id =>
    cases hrequest
    refine Confined.read hagree ?_
    simp only [Database.artifact, hfind, hfind']
  | artifactContent id range =>
    cases hrequest
    refine Confined.read hagree ?_
    simp only [openArtifact, Database.artifact, Database.execution, hfind, hfind', artifactView,
      bind, Except.bind, hr, hr']
  | _ => cases hrequest

/-- States that both hide an Artifact, or both do not, are authorised alike. -/
theorem authorizeArtifact_agree (htenant : caller.tenantId = some tenantId)
    (hagree : Agree Database.records caller.sees d.toDatabase d'.toDatabase)
    (hhides : d.Hides caller.sees artifactId ↔ d'.Hides caller.sees artifactId) :
    authorizeArtifact d.toDatabase caller artifactId false =
      authorizeArtifact d'.toDatabase caller artifactId false := by
  rw [authorizeArtifact_eq htenant, authorizeArtifact_eq htenant]
  cases hfind : d.artifact? artifactId with
  | none =>
    cases hfind' : d'.artifact? artifactId with
    | none => rfl
    | some found =>
      obtain ⟨r, a⟩ := found
      cases hsees : caller.sees r with
      | true =>
        rw [artifact?_agree hagree.symm hfind' hsees] at hfind
        cases hfind
      | false =>
        obtain ⟨r', a', hfind'', -⟩ := hhides.mpr ⟨r, a, hfind', hsees⟩
        rw [hfind] at hfind''
        cases hfind''
  | some found =>
    obtain ⟨r, a⟩ := found
    cases hsees : caller.sees r with
    | true => rw [artifact?_agree hagree hfind hsees]
    | false =>
      obtain ⟨r', a', hfind', hsees'⟩ := hhides.mp ⟨r, a, hfind, hsees⟩
      simp only [hfind', hsees, hsees']

/-- The response to an Artifact request that is refused. -/
theorem handle_refused (hoffers : transport.offers request = true) {error : ApiError}
    (h : authorization transport caller request d.toDatabase = .error error) :
    (handle api transport caller now request d.toDatabase).2 =
      transport.respond request (.error error) := by
  simp only [handle, hoffers, if_true, h, Request.runAuthorized]

/-- An Artifact that one state hides and the other one does not is told from a missing
one. -/
theorem response_ne_of_hides (htenant : caller.tenantId = some tenantId)
    (hread : request.readArtifact? transport = some artifactId)
    (hagree : Agree Database.records caller.sees d.toDatabase d'.toDatabase)
    (h : d.Hides caller.sees artifactId) (h' : ¬ d'.Hides caller.sees artifactId) :
    (handle api transport caller now request d.toDatabase).2 ≠
      (handle api transport caller now request d'.toDatabase).2 := by
  obtain ⟨hrequest, hoffers⟩ := artifactId?_of_readArtifact? hread
  obtain ⟨r, a, hfind, hsees⟩ := h
  have hmissing : d'.artifact? artifactId = none := by
    cases hfind' : d'.artifact? artifactId with
    | none => rfl
    | some found =>
      obtain ⟨r', a'⟩ := found
      cases hsees' : caller.sees r' with
      | true =>
        rw [artifact?_agree hagree.symm hfind' hsees'] at hfind
        cases hfind
        rw [hsees'] at hsees
        cases hsees
      | false => exact absurd ⟨r', a', hfind', hsees'⟩ h'
  have hhidden : authorization transport caller request d.toDatabase =
      .error (artifactNotFound artifactId) := by
    rw [authorization_artifact hrequest, authorizeArtifact_eq htenant, hfind]
    simp [hsees]
  have habsent : authorization transport caller request d'.toDatabase =
      .error (artifactMissing artifactId) := by
    rw [authorization_artifact hrequest, authorizeArtifact_eq htenant, hmissing]
    rfl
  rw [handle_refused hoffers hhidden, handle_refused hoffers habsent]
  exact hidden_ne_missing transport request artifactId

/-- A request for an Artifact that both states hide, or neither does. -/
theorem artifact_isolated (htenant : caller.tenantId = some tenantId)
    (hrequest : request.artifactId? = some artifactId)
    (hagree : Agree Database.records (request.sees caller) d.toDatabase d'.toDatabase)
    (hhides : ∀ id, request.readArtifact? transport = some id →
      (d.Hides (request.sees caller) id ↔ d'.Hides (request.sees caller) id)) :
    Isolated api transport caller now request d.toDatabase d'.toDatabase := by
  cases hoffers : transport.offers request with
  | false =>
    refine (Confined.read hagree (g := fun _ => Response.unknownTool) rfl).congr ?_ ?_ <;>
      simp only [handle, hoffers, Bool.false_eq_true, if_false]
  | true =>
    have hiff := hhides artifactId (by rw [Request.readArtifact?, if_pos hoffers, hrequest])
    have hauth : ∀ d, authorization transport caller request d =
        authorizeArtifact d caller artifactId false := authorization_artifact hrequest
    refine isolated_of_confined hagree ?_
    rw [sees_eq_of_artifact hrequest] at hagree hiff ⊢
    refine runAuthorized_confined hagree ?_ fun hok => ?_
    · rw [hauth, hauth, authorizeArtifact_agree htenant hagree hiff]
    · rw [hauth, authorizeArtifact_eq htenant] at hok
      split at hok
      · cases hok
      · rename_i r a hfind
        split at hok
        · rename_i hsees
          exact artifactRun_confined hrequest hagree hfind hsees
        · cases hok

end Artifacts

/-- Tenant isolation of the API: a request of a caller with a tenant is answered alike in
two stored states that agree on what the caller sees, has the same effect on it and
changes nothing else, exactly if it does not read an Artifact that only one of the states
hides. -/
theorem tenant_isolation (api : Api) (transport : Transport) (caller : Caller) (tenantId : String)
    (htenant : caller.tenantId = some tenantId) (now : Time) (request : Request)
    (d d' : StoredState)
    (hagree : Agree Database.records (request.sees caller) d.toDatabase d'.toDatabase)
    (hunderived : ∀ c, request = .materialize c →
      c.Underived api (request.sees caller) d.toDatabase ∧
        c.Underived api (request.sees caller) d'.toDatabase) :
    Isolated api transport caller now request d.toDatabase d'.toDatabase ↔
      ∀ artifactId, request.readArtifact? transport = some artifactId →
        (d.Hides (request.sees caller) artifactId ↔ d'.Hides (request.sees caller) artifactId) := by
  constructor
  · intro hisolated artifactId hread
    obtain ⟨hrequest, -⟩ := artifactId?_of_readArtifact? hread
    rw [sees_eq_of_artifact hrequest] at hagree ⊢
    by_contra hne
    rcases Classical.em (d.Hides caller.sees artifactId) with h | h
    · exact response_ne_of_hides htenant hread hagree h (fun h' => hne ⟨fun _ => h', fun _ => h⟩)
        hisolated.result
    · have h' : d'.Hides caller.sees artifactId := by
        by_contra h'
        exact hne ⟨fun hd => absurd hd h, fun hd => absurd hd h'⟩
      exact response_ne_of_hides htenant hread hagree.symm h' h hisolated.result.symm
  · intro hhides
    cases hexecution : request.executionId? with
    | some executionId => exact isolated_execution htenant hagree hexecution hunderived
    | none => cases request with
      | submit resolved =>
        refine isolated_of_confined hagree (runAuthorized_confined hagree ?_ fun _ => ?_)
        · cases transport <;> rfl
        · exact submit_confined resolved hagree
      | executions filter cursor limit =>
        refine isolated_of_confined hagree (runAuthorized_confined hagree ?_ fun _ => ?_)
        · cases transport <;> rfl
        · exact Confined.read hagree (congrArg (ResponseBody.executions <$> ·)
            (executions_agree htenant hagree filter cursor limit))
      | artifact id => exact artifact_isolated htenant rfl hagree hhides
      | artifactContent id range => exact artifact_isolated htenant rfl hagree hhides
      | _ => cases hexecution

end Isolation

/-! ### A small database -/

namespace Small

/-- No Runtime answers. -/
def storage : RuntimeStorage where
  readNotebook _ _ _ _ := none
  writeNotebook _ _ _ _ _ := false
  writeText _ _ _ _ _ := none
  openFile _ _ _ _ _ := .error .other

/-- The API over a store of the two tenants. -/
def api : Api where
  settings := settings
  offerings := offerings
  storage := storage
  digests := ⟨fun fingerprint => fingerprint, fun executionId _ _ => executionId⟩

/-- The Execution of another tenant, with an Artifact. -/
def foreignRecord : ExecutionRecord where
  tenantId := "tenant-b"
  userId := "user-b"
  tables := (submission .single).tables
  artifacts := [{
    id := 50, artifactType := .report, storageType := .pv, status := .available
    name := "final-report.md", relativePath := some "w/reports/final-report.md"
    mediaType := none, sizeBytes := none, checksumSha256 := none, identityHash := 60
    createdAt := 0 }]

/-- A database without Executions. -/
def emptyState : StoredState where
  records := []
  idsUnique := List.nodup_nil
  attemptsOwned := by simp
  stepAttemptsOwned := by simp
  artifactsOwned := by simp
  receiptsOwned := by simp

/-- A database with an Execution of another tenant. -/
def foreignState : StoredState where
  records := [foreignRecord]
  idsUnique := List.nodup_singleton _
  attemptsOwned := by simp
  stepAttemptsOwned := by decide
  artifactsOwned := by simp
  receiptsOwned := by decide

/-- A caller of the first tenant. -/
def tenantCaller : Caller where
  client := "client-a"
  admin := false
  tenantId := some "tenant-a"
  userId := some "user-a"

/-- The foreign Execution is not told from a missing one. -/
theorem tenant_isolation_execution :
    Isolated api .rest tenantCaller 0 (.execution 1) foreignState.toDatabase
      emptyState.toDatabase :=
  (tenant_isolation api .rest tenantCaller "tenant-a" rfl 0 (.execution 1) foreignState emptyState
    rfl (fun _ h => nomatch h)).mpr fun _ h => nomatch h

/-- The foreign Artifact is told from a missing one by the text of its error. -/
theorem foreign_artifact_told_apart :
    Agree Database.records ((Request.artifact 50).sees tenantCaller) foreignState.toDatabase
        emptyState.toDatabase ∧
      (handle api .rest tenantCaller 0 (.artifact 50) foreignState.toDatabase).2 =
        .error 404 ⟨.artifactNotFound, "Artifact 50 was not found.", [], none⟩ ∧
      (handle api .rest tenantCaller 0 (.artifact 50) emptyState.toDatabase).2 =
        .error 404 ⟨.artifactNotFound, "Execution Artifact 50 was not found.", [], none⟩ ∧
      ¬ Isolated api .rest tenantCaller 0 (.artifact 50) foreignState.toDatabase
        emptyState.toDatabase := by
  have hhidden : (handle api .rest tenantCaller 0 (.artifact 50) foreignState.toDatabase).2 =
      .error 404 ⟨.artifactNotFound, "Artifact 50 was not found.", [], none⟩ := rfl
  have hmissing : (handle api .rest tenantCaller 0 (.artifact 50) emptyState.toDatabase).2 =
      .error 404 ⟨.artifactNotFound, "Execution Artifact 50 was not found.", [], none⟩ := rfl
  refine ⟨rfl, hhidden, hmissing, fun h => ?_⟩
  have hresult := h.result
  rw [hhidden, hmissing] at hresult
  have htext := congrArg ApiError.message (Response.error.inj hresult).2
  exact absurd htext (by decide)

end Small

end ExecutorService
