/-
Read models with the documents of callers (`execution_queries/mappers.py`,
`interfaces/contracts/`, `event_writer/completion.py`).

A caller hands in JSON: the metadata of an Execution and of its Operations, and the input
parameters of its Steps.  The rows of the model leave these columns out; `Documents` holds
them beside an `ExecutionRecord`, and the read models here are the views of the record
with the documents that the mappers copy or redact.  The builders of the other events
read `Tables` only, and no document is in them.

* `SameButSecrets` — two states that differ only in values under secret keys;
* `secrets_hidden_iff` — the read models of a state hide its secrets exactly if no
  Operation's metadata and no planned Step's input parameters name one.
-/
import ExecutorService.Api
import ExecutorService.CodecRoundTrip
import ExecutorService.Redaction

namespace ExecutorService

open Json (Value)
open Codec (Text)

/-- A JSON object in a column. -/
abbrev Document (F : Type) := List (Text × Value F)

/-- `ToolReference`: what a Step was generated from. -/
structure ToolReference (F : Type) where
  skillName : Option String
  toolName : Option String
  inputParameters : Document F

/-- The JSON columns of an Execution's rows, by the id of the row or the sequence of the
event. -/
structure Documents (F : Type) where
  executionMetadata : Document F
  operationMetadata : UUID → Document F
  stepLineage : UUID → ToolReference F
  stepAttemptLineage : UUID → ToolReference F
  artifactMetadata : UUID → Document F
  eventPayload : ℕ → Document F

/-! ### Views -/

/-- A view with the metadata of its row. -/
structure WithMetadata (V F : Type) where
  view : V
  metadata : Document F

/-- `ExecutionStepResponse`. -/
structure ExecutionStepResponse (F : Type) where
  executionId : UUID
  step : ExecutionStep
  lineage : ToolReference F

/-- `ExecutionStepSummaryResponse`. -/
structure ExecutionStepSummaryResponse (F : Type) where
  stepId : UUID
  executionId : UUID
  sequence : ℕ
  lineage : ToolReference F
  status : StepStatus
  outputSummary : OutputSummary
  errorMessage : Option String
  startedAt : Option Time
  finishedAt : Option Time
  createdAt : Time
  updatedAt : Time

/-- `ExecutionStepAttemptView`. -/
structure ExecutionStepAttemptView (F : Type) where
  executionId : UUID
  stepAttempt : StepAttemptRow
  lineage : ToolReference F

/-- `ExecutionEventView`: the payload is the redacted column. -/
structure EventPayloadView (F : Type) where
  eventSequence : ℕ
  subject : EventSubject
  payload : Document F
  outbox : Option OutboxRow
  createdAt : Time

/-- The payload of `execution.completed`; `event` is what it says without `execution`. -/
structure CompletedPayload (F : Type) where
  event : EventPayload
  triggerType : RuntimePool
  userId : String
  projectId : Option String
  sessionId : Option String
  metadata : Document F

namespace Documents

variable {F : Type} (docs : Documents F) (py : Codec.Python F)

/-- `execution_summary_view`, with the redacted metadata. -/
def executionSummaryView (r : ExecutionRecord) (stepCount : ℕ) :
    WithMetadata ExecutionSummaryView F where
  view := ExecutorService.executionSummaryView r stepCount
  metadata := redactMembers py docs.executionMetadata

/-- `execution_detail_view`, with the redacted metadata. -/
def executionDetailView (r : ExecutionRecord) : WithMetadata ExecutionDetailView F where
  view := ExecutorService.executionDetailView r
  metadata := redactMembers py docs.executionMetadata

/-- `operation_view`, which copies the metadata as it is. -/
def operationView (executionId : UUID) (o : OperationRow) :
    WithMetadata ExecutionOperationView F where
  view := ExecutorService.operationView executionId o
  metadata := docs.operationMetadata o.id

/-- `ExecutionStepResponse.from_domain`, which copies the input parameters as they are. -/
def stepResponse (executionId : UUID) (step : ExecutionStep) : ExecutionStepResponse F where
  executionId := executionId
  step := step
  lineage := docs.stepLineage step.id

/-- `ExecutionStepSummaryResponse.from_domain`, which does the same. -/
def stepSummaryResponse (executionId : UUID) (step : ExecutionStep) :
    ExecutionStepSummaryResponse F where
  stepId := step.id
  executionId := executionId
  sequence := step.sequence
  lineage := docs.stepLineage step.id
  status := step.status
  outputSummary := step.result.outputSummary
  errorMessage := step.errorMessage
  startedAt := step.startedAt
  finishedAt := step.finishedAt
  createdAt := step.createdAt
  updatedAt := step.updatedAt

/-- `step_attempt_view`.  The output summary holds no document of a caller; its redaction
is left out. -/
def stepAttemptView (executionId : UUID) (row : StepAttemptRow) : ExecutionStepAttemptView F where
  executionId := executionId
  stepAttempt := row
  lineage := { docs.stepAttemptLineage row.id with
    inputParameters := redactMembers py (docs.stepAttemptLineage row.id).inputParameters }

/-- `artifact_view`, with the redacted metadata. -/
def artifactView (executionId : UUID) (a : ExecutionArtifact) :
    WithMetadata ExecutionArtifactView F where
  view := ExecutorService.artifactView executionId a
  metadata := redactMembers py (docs.artifactMetadata a.id)

/-- An event with its row and the redacted payload. -/
def eventView (log : EventLog) (event : EventRow) : EventPayloadView F where
  eventSequence := event.eventSequence
  subject := event.payload.subject
  payload := redactMembers py (docs.eventPayload event.eventSequence)
  outbox := log.outbox.find? (·.eventSequence == event.eventSequence)
  createdAt := event.createdAt

/-- The payload that `add_execution_completed_event` builds. -/
def completedPayload (r : ExecutionRecord) : CompletedPayload F where
  event := r.tables.completedPayload
  triggerType := r.tables.execution.runtimePool
  userId := r.userId
  projectId := r.projectId
  sessionId := r.sessionId
  metadata := redactMembers py docs.executionMetadata

end Documents

/-- What callers may read of one Execution. -/
structure ReadModels (F : Type) where
  summary : WithMetadata ExecutionSummaryView F
  detail : WithMetadata ExecutionDetailView F
  operations : List (WithMetadata ExecutionOperationView F)
  steps : List (ExecutionStepResponse F)
  stepSummaries : List (ExecutionStepSummaryResponse F)
  stepAttempts : List (ExecutionStepAttemptView F)
  artifacts : List (WithMetadata ExecutionArtifactView F)
  events : List (EventPayloadView F)
  completed : CompletedPayload F

/-- Everything the API returns of an Execution. -/
def readModels {F : Type} (py : Codec.Python F) (r : ExecutionRecord) (docs : Documents F) :
    ReadModels F where
  summary := docs.executionSummaryView py r r.tables.steps.length
  detail := docs.executionDetailView py r
  operations := r.tables.operations.map (docs.operationView r.id)
  steps := r.tables.steps.map (docs.stepResponse r.id)
  stepSummaries := r.tables.steps.map (docs.stepSummaryResponse r.id)
  stepAttempts := r.tables.stepAttempts.map (docs.stepAttemptView py r.id)
  artifacts := r.artifacts.map (docs.artifactView py r.id)
  events := r.log.events.map (docs.eventView py r.log)
  completed := docs.completedPayload py r

/-! ### States that differ in secrets -/

section

variable {F : Type} (py : Codec.Python F)

/-- The lineage of one Step, up to secrets in the input parameters. -/
structure ToolReference.SameButSecrets (l l' : ToolReference F) : Prop where
  skillName : l.skillName = l'.skillName
  toolName : l.toolName = l'.toolName
  inputParameters : SimilarMembers py l.inputParameters l'.inputParameters

/-- The states differ only in values under secret keys of the documents a caller handed
in.  A Step attempt holds a copy of its Step's lineage. -/
structure Documents.SameButSecrets (docs docs' : Documents F) : Prop where
  executionMetadata : SimilarMembers py docs.executionMetadata docs'.executionMetadata
  operationMetadata : ∀ id, SimilarMembers py (docs.operationMetadata id)
    (docs'.operationMetadata id)
  stepLineage : ∀ id, (docs.stepLineage id).SameButSecrets py (docs'.stepLineage id)
  stepAttemptLineage : ∀ id, (docs.stepAttemptLineage id).SameButSecrets py
    (docs'.stepAttemptLineage id)
  artifactMetadata : docs.artifactMetadata = docs'.artifactMetadata
  eventPayload : docs.eventPayload = docs'.eventPayload

/-- A state with other secrets in the metadata of the Operations and in the input
parameters of the Steps. -/
def Documents.exchange (docs : Documents F) : Documents F :=
  { docs with
    operationMetadata := fun id => exchangeMembers py (docs.operationMetadata id)
    stepLineage := fun id => { docs.stepLineage id with
      inputParameters := exchangeMembers py (docs.stepLineage id).inputParameters } }

variable {py}

theorem ToolReference.SameButSecrets.refl (l : ToolReference F) : l.SameButSecrets py l :=
  ⟨rfl, rfl, .refl _⟩

theorem Documents.sameButSecrets_exchange (docs : Documents F) :
    docs.SameButSecrets py (docs.exchange py) where
  executionMetadata := .refl _
  operationMetadata _ := similarMembers_exchange _
  stepLineage _ := ⟨rfl, rfl, similarMembers_exchange _⟩
  stepAttemptLineage _ := .refl _
  artifactMetadata := rfl
  eventPayload := rfl

/-- Without secrets in the input parameters the lineages are the same. -/
theorem ToolReference.SameButSecrets.eq {l l' : ToolReference F} (h : l.SameButSecrets py l')
    (hsecret : hasSecretKeyMembers py l.inputParameters = false) : l = l' := by
  obtain ⟨skillName, toolName, inputParameters⟩ := l
  obtain ⟨hskill, htool, hinput⟩ := h
  rw [ToolReference.mk.injEq]
  exact ⟨hskill, htool, hinput.eq hsecret⟩

namespace Documents.SameButSecrets

variable {docs docs' : Documents F} (h : docs.SameButSecrets py docs')

include h

/-- The redacted documents are the same. -/
theorem executionMetadata_eq :
    redactMembers py docs.executionMetadata = redactMembers py docs'.executionMetadata :=
  h.executionMetadata.redactMembers_eq

theorem stepAttemptView_eq (executionId : UUID) (row : StepAttemptRow) :
    docs.stepAttemptView py executionId row = docs'.stepAttemptView py executionId row := by
  obtain ⟨hskill, htool, hinput⟩ := h.stepAttemptLineage row.id
  simp only [stepAttemptView, hskill, htool, hinput.redactMembers_eq]

theorem operationView_eq (executionId : UUID) (o : OperationRow)
    (hsecret : hasSecretKeyMembers py (docs.operationMetadata o.id) = false) :
    docs.operationView executionId o = docs'.operationView executionId o := by
  rw [operationView, operationView, (h.operationMetadata o.id).eq hsecret]

theorem stepLineage_eq (step : ExecutionStep)
    (hsecret : hasSecretKeyMembers py (docs.stepLineage step.id).inputParameters = false) :
    docs.stepLineage step.id = docs'.stepLineage step.id :=
  (h.stepLineage step.id).eq hsecret

/-- The read models of the two states are the same if no document that is copied as it is
has a secret. -/
theorem readModels_eq (r : ExecutionRecord)
    (hoperations : ∀ o ∈ r.tables.operations,
      hasSecretKeyMembers py (docs.operationMetadata o.id) = false)
    (hsteps : ∀ s ∈ r.tables.steps,
      hasSecretKeyMembers py (docs.stepLineage s.id).inputParameters = false) :
    readModels py r docs = readModels py r docs' := by
  have hoperations : r.tables.operations.map (docs.operationView r.id) =
      r.tables.operations.map (docs'.operationView r.id) :=
    List.map_congr_left fun o ho => h.operationView_eq r.id o (hoperations o ho)
  have hlineage : ∀ s ∈ r.tables.steps, docs.stepLineage s.id = docs'.stepLineage s.id :=
    fun s hs => h.stepLineage_eq s (hsteps s hs)
  have hsteps : r.tables.steps.map (docs.stepResponse r.id) =
      r.tables.steps.map (docs'.stepResponse r.id) :=
    List.map_congr_left fun s hs => by rw [stepResponse, stepResponse, hlineage s hs]
  have hsummaries : r.tables.steps.map (docs.stepSummaryResponse r.id) =
      r.tables.steps.map (docs'.stepSummaryResponse r.id) :=
    List.map_congr_left fun s hs => by
      rw [stepSummaryResponse, stepSummaryResponse, hlineage s hs]
  have hattempts : docs.stepAttemptView py r.id = docs'.stepAttemptView py r.id :=
    funext fun row => h.stepAttemptView_eq r.id row
  have hartifacts : docs.artifactView py r.id = docs'.artifactView py r.id :=
    funext fun a => by rw [artifactView, artifactView, h.artifactMetadata]
  have hevents : docs.eventView py r.log = docs'.eventView py r.log :=
    funext fun e => by rw [eventView, eventView, h.eventPayload]
  rw [readModels, readModels, hoperations, hsteps, hsummaries, hattempts, hartifacts, hevents,
    executionSummaryView, executionSummaryView, executionDetailView, executionDetailView,
    completedPayload, completedPayload, h.executionMetadata_eq]

end Documents.SameButSecrets

/-- The read models do not depend on the secrets of a state exactly if the documents that
the mappers copy as they are name none: the metadata of its Operations and the input
parameters of its Steps. -/
theorem secrets_hidden_iff (py : Codec.Python F) (r : ExecutionRecord) (docs : Documents F) :
    (∀ docs' : Documents F, docs.SameButSecrets py docs' →
      readModels py r docs = readModels py r docs') ↔
    (∀ o ∈ r.tables.operations, hasSecretKeyMembers py (docs.operationMetadata o.id) = false) ∧
      ∀ s ∈ r.tables.steps,
        hasSecretKeyMembers py (docs.stepLineage s.id).inputParameters = false := by
  constructor
  · intro h
    have hsame := h _ docs.sameButSecrets_exchange
    constructor
    · intro o ho
      have hviews := congrArg ReadModels.operations hsame
      have hview := List.map_inj_left.mp hviews o ho
      exact hasSecretKeyMembers_eq_false (congrArg WithMetadata.metadata hview).symm
    · intro s hs
      have hresponses := congrArg ReadModels.steps hsame
      have hresponse := List.map_inj_left.mp hresponses s hs
      have hlineage := congrArg ExecutionStepResponse.lineage hresponse
      exact hasSecretKeyMembers_eq_false (congrArg ToolReference.inputParameters hlineage).symm
  · rintro ⟨hoperations, hsteps⟩ docs' h
    exact h.readModels_eq r hoperations hsteps

namespace Small

/-- The documents of an Execution whose Operation has one member in its metadata. -/
def documents (key value : String) : Documents Unit where
  executionMetadata := []
  operationMetadata _ := [(key.toList, Codec.textValue value)]
  stepLineage _ := ⟨none, none, []⟩
  stepAttemptLineage _ := ⟨none, none, []⟩
  artifactMetadata _ := []
  eventPayload _ := []

/-- An Execution of a tenant. -/
def documentedRecord : ExecutionRecord where
  tenantId := "tenant-a"
  userId := "user-a"
  tables := (submission .single).tables

/-- Two values of a token in the metadata of an Operation: the view of the Operation shows
which one it is. -/
theorem secrets_hidden_operation :
    (documents "api_token" "a").SameButSecrets Codec.Small.python (documents "api_token" "b") ∧
    readModels Codec.Small.python documentedRecord (documents "api_token" "a") ≠
      readModels Codec.Small.python documentedRecord (documents "api_token" "b") := by
  constructor
  · exact {
      executionMetadata := .refl _
      operationMetadata := fun _ => .secret (by decide +kernel) .nil
      stepLineage := fun _ => .refl _
      stepAttemptLineage := fun _ => .refl _
      artifactMetadata := rfl
      eventPayload := rfl }
  · intro h
    obtain ⟨o, ho⟩ : ∃ o, o ∈ documentedRecord.tables.operations :=
      List.exists_mem_of_ne_nil _ (by decide)
    have hview := List.map_inj_left.mp (congrArg ReadModels.operations h) o ho
    have hmetadata := congrArg WithMetadata.metadata hview
    simp [Documents.operationView, documents, Codec.textValue] at hmetadata

end Small

end

end ExecutorService
