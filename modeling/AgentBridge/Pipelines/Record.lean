import AgentBridge.Queue.Row

/-!
# The record of a pipeline

What a bridge process keeps of a multi-agent pipeline and what its row holds. The
record is written as a whole: an update computes changes, puts them over the record it
has in memory and stores the result.

The encrypted columns are modelled by what they decrypt to, and texts by what
`sanitizePersistedValue` leaves of them.
-/

namespace AgentBridge.Pipelines

/-- What the modelled functions take from the host. -/
structure PipelineRuntime where
  /-- `normalizeFilesystemCase(path.resolve(path), cwd)`, the working directory first -/
  worktreeKey : String → String → String

inductive RecordStatus where
  | planned | running | awaitingIntegration | awaitingFinalization
  | finalizing | cleanupPending | cleanupFailed
  | completed | failed | cancelled
  deriving DecidableEq

namespace RecordStatus

/-- `PIPELINE_INTEGRATION_CLOSED_STATUSES` -/
def closed : RecordStatus → Bool
  | completed | failed | cancelled => true
  | _ => false

/-- What `refreshPipelineRecord` leaves alone. -/
def frozen : RecordStatus → Bool
  | completed | failed | cancelled | cleanupPending | cleanupFailed | finalizing => true
  | _ => false

theorem frozen_of_closed {status : RecordStatus} (h : status.closed = true) :
    status.frozen = true := by
  cases status <;> simp_all [closed, frozen]

end RecordStatus

inductive ItemStatus where
  | planned | pending | integrating | integrated | rejected | quarantined
  deriving DecidableEq

structure IntegrationItem where
  jobId : String
  agent : String
  worktreePath : String
  branch : String
  sourceBaseCommit : String
  patchSha256 : String
  sourceStateSha256 : String
  allowedEdits : List String
  changedFiles : List String
  status : ItemStatus
  operationId : String
  errorType : String
  noChanges : Bool
  cleanupRequested : Bool
  deriving DecidableEq

/-- The identity of a source worktree whose removal is authorized. -/
structure CleanupAuthorization where
  worktreePath : String
  branch : String
  sourceBaseCommit : String
  patchSha256 : String
  sourceStateSha256 : String
  deriving DecidableEq

inductive CleanupOutcome where
  | authorized | skippedDryRun | success | partly | retainedForReview | failed
  deriving DecidableEq

/-- An entry of `sourceCleanupResults` -/
structure CleanupResult where
  worktreePath : String
  branch : String
  cleanup : CleanupOutcome
  reason : String
  deriving DecidableEq

structure AuditEvent where
  type : String
  time : Nat
  operationId : String := ""
  jobId : String := ""
  status : String := ""
  errorType : String := ""
  targetStateSha256 : String := ""
  trackedTargetStateSha256 : String := ""
  worktrees : List CleanupAuthorization := []
  deriving DecidableEq

structure AuditError where
  type : String
  errorType : String
  jobId : String := ""
  deriving DecidableEq

/-- `finalValidationResult` -/
structure ValidationResult where
  status : String
  errorType : String
  deriving DecidableEq

/-- `reviewerResult` and `testerResult` -/
structure GateResult where
  gate : String
  passed : Bool
  errorType : String
  verdict : String
  checkedTargetStateSha256 : String
  deriving DecidableEq

structure PipelineRecord where
  pipelineId : String
  cwd : String
  status : RecordStatus
  revision : Nat
  ownerInstanceId : String
  ownerGeneration : String
  batchState : String
  cleanupState : String
  cleanupPending : Bool
  finishedAt : Stamp
  integrationQueue : List IntegrationItem
  events : List AuditEvent
  errors : List AuditError
  sourceCleanupResults : List CleanupResult
  /-- `policy.path` and `policy.sha256` -/
  policy : Option (String × String)
  finalValidationCommand : String
  finalValidationSource : String
  /-- `finalValidationSpec.commandSha256` -/
  finalValidationSpec : Option String
  sanitizedWorkspace : Bool
  /-- The agent of the gate. -/
  reviewerJob : Option String
  testerJob : Option String
  finalValidationResult : Option ValidationResult
  reviewerResult : Option GateResult
  testerResult : Option GateResult
  deriving DecidableEq

/-- What an update sets; `none` leaves the field as it is. -/
structure PipelineChanges where
  status : Option RecordStatus := none
  finishedAt : Option Stamp := none
  batchState : Option String := none
  cleanupState : Option String := none
  cleanupPending : Option Bool := none
  integrationQueue : Option (List IntegrationItem) := none
  events : Option (List AuditEvent) := none
  errors : Option (List AuditError) := none
  sourceCleanupResults : Option (List CleanupResult) := none
  finalValidationResult : Option (Option ValidationResult) := none
  reviewerResult : Option (Option GateResult) := none
  testerResult : Option (Option GateResult) := none

/-- `{ ...record, ...changes }` -/
def PipelineRecord.assign (record : PipelineRecord) (changes : PipelineChanges) :
    PipelineRecord :=
  { record with
    status := changes.status.getD record.status
    finishedAt := changes.finishedAt.getD record.finishedAt
    batchState := changes.batchState.getD record.batchState
    cleanupState := changes.cleanupState.getD record.cleanupState
    cleanupPending := changes.cleanupPending.getD record.cleanupPending
    integrationQueue := changes.integrationQueue.getD record.integrationQueue
    events := changes.events.getD record.events
    errors := changes.errors.getD record.errors
    sourceCleanupResults := changes.sourceCleanupResults.getD record.sourceCleanupResults
    finalValidationResult := changes.finalValidationResult.getD record.finalValidationResult
    reviewerResult := changes.reviewerResult.getD record.reviewerResult
    testerResult := changes.testerResult.getD record.testerResult }

/-- What a patch comes to when its write runs: the changes, `PIPELINE_PATCH_UNCHANGED`, or
an error it throws. -/
inductive PatchOutcome where
  | changes (changes : PipelineChanges)
  | unchanged
  | refused (errorType : String)

/-- A function patch, computed from the record as it stands when the write runs. -/
abbrev PipelinePatch := PipelineRecord → PatchOutcome

/-- A patch computed before the write waits. -/
def PipelineChanges.plain (changes : PipelineChanges) : PipelinePatch :=
  fun _ => .changes changes

structure PipelineLists where
  integrationQueue : List IntegrationItem
  events : List AuditEvent
  errors : List AuditError
  deriving DecidableEq

def PipelineRecord.lists (record : PipelineRecord) : PipelineLists :=
  ⟨record.integrationQueue, record.events, record.errors⟩

section

variable (record : PipelineRecord) (changes : PipelineChanges)

@[simp] theorem assign_pipelineId : (record.assign changes).pipelineId = record.pipelineId := rfl
@[simp] theorem assign_cwd : (record.assign changes).cwd = record.cwd := rfl
@[simp] theorem assign_revision : (record.assign changes).revision = record.revision := rfl
@[simp] theorem assign_ownerInstanceId :
    (record.assign changes).ownerInstanceId = record.ownerInstanceId := rfl
@[simp] theorem assign_ownerGeneration :
    (record.assign changes).ownerGeneration = record.ownerGeneration := rfl
@[simp] theorem assign_status :
    (record.assign changes).status = changes.status.getD record.status := rfl
@[simp] theorem assign_integrationQueue :
    (record.assign changes).integrationQueue
      = changes.integrationQueue.getD record.integrationQueue := rfl

end

end AgentBridge.Pipelines
