import AgentBridge.Paths
import AgentBridge.Pipelines.Record

/-!
# What integrations, the journal and refreshes make of a pipeline

The patches of `integrate_opencode_worktree`, of the reconciliation with the integration
journal and of `refreshPipelineRecord`. Each rewrites the item list of the record it is
given.
-/

namespace AgentBridge.Pipelines

open Paths

/-- The worktree or branch that a caller names. -/
structure IntegrationSource where
  worktreePath : String
  branch : String

def pipelineIntegrationItemMatches (runtime : PipelineRuntime) (record : PipelineRecord)
    (item : IntegrationItem) (source : IntegrationSource) : Bool :=
  let sameWorktree := source.worktreePath ≠ "" && item.worktreePath ≠ ""
    && runtime.worktreeKey record.cwd item.worktreePath
      = runtime.worktreeKey record.cwd source.worktreePath
  let sameBranch := source.branch ≠ "" && item.branch = source.branch
  sameWorktree || sameBranch

/-! ### An integration attempt -/

/-- What `integratePatchSerially` returns, as far as the pipeline looks at it. -/
structure IntegrationResult where
  ok : Bool
  status : String
  errorType : String
  operationId : String
  operationIds : List String
  sourceBaseCommit : String
  patchSha256 : String
  sourceStateSha256 : String
  /-- The result lists the files it applied. -/
  applied : Bool
  validationPassed : Bool

/-- `result.ok && ["applied", "no_changes"].includes(result.status)` -/
def IntegrationResult.integrated (result : IntegrationResult) : Bool :=
  result.ok && (result.status = "applied" || result.status = "no_changes")

def sourceScopeViolationTypes : List String :=
  ["forbidden_file_changed", "changed_file_validation_error", "shared_file_parallel_write",
    "serial_only_parallel_write"]

def pipelineIntegrationFailureIsDefinitive (result : IntegrationResult) : Bool :=
  ["pipeline_source_identity_changed", "integration_merge_conflict",
      "empty_allowed_edits"].contains result.errorType
    || (sourceScopeViolationTypes.contains result.errorType && !result.applied)

/-- `nextPipelineIntegrationItemStatus` -/
def nextPipelineIntegrationItemStatus (item : IntegrationItem) (result : IntegrationResult) :
    ItemStatus :=
  if result.integrated then .integrated
  else if result.ok then if item.status = .integrating then .pending else item.status
  else if result.errorType = "integration_recovery_quarantined" then
    if item.operationId ≠ ""
        && (result.operationId :: result.operationIds).contains item.operationId then
      .quarantined
    else .pending
  else if pipelineIntegrationFailureIsDefinitive result then .rejected
  else .pending

/-- The reservation of the matching item, once its journal operation is prepared. -/
def onIntegrationPrepared (runtime : PipelineRuntime) (source : IntegrationSource)
    (operationId jobId : String) (time : Nat) : PipelinePatch := fun current =>
  if current.status.closed then .refused "pipeline_terminal"
  else
    .changes
      { integrationQueue := some (current.integrationQueue.map fun item =>
          if pipelineIntegrationItemMatches runtime current item source then
            { item with status := .integrating, operationId := operationId }
          else item)
        events := some (current.events ++
          [{ type := "integration_prepared", time := time, operationId := operationId,
             jobId := jobId }]) }

/-- The matching item after an attempt that was not a dry run. -/
def attemptedItem (result : IntegrationResult) (cleanupAfterSuccess : Bool)
    (source : IntegrationSource) (item : IntegrationItem) : IntegrationItem :=
  { item with
    status := nextPipelineIntegrationItemStatus item result
    errorType := result.errorType
    operationId := orText result.operationId item.operationId
    noChanges := (result.ok && result.status = "no_changes") || item.noChanges
    cleanupRequested := result.ok && result.status = "applied" && result.validationPassed
      && cleanupAfterSuccess && source.worktreePath ≠ ""
    sourceBaseCommit := orText result.sourceBaseCommit item.sourceBaseCommit
    patchSha256 := orText result.patchSha256 item.patchSha256
    sourceStateSha256 := orText result.sourceStateSha256 item.sourceStateSha256 }

structure IntegrationAttempt where
  source : IntegrationSource
  result : IntegrationResult
  dryRun : Bool
  cleanupAfterSuccess : Bool
  /-- The operation of the item that the call holds. -/
  heldOperationId : String
  time : Nat

/-- The item list after the attempt. -/
def attemptedQueue (runtime : PipelineRuntime) (attempt : IntegrationAttempt)
    (current : PipelineRecord) : List IntegrationItem :=
  current.integrationQueue.map fun item =>
    if attempt.dryRun || !pipelineIntegrationItemMatches runtime current item attempt.source then
      item
    else attemptedItem attempt.result attempt.cleanupAfterSuccess attempt.source item

def allIntegrated (queue : List IntegrationItem) : Bool :=
  queue.all fun item => item.status = .integrated

/-- The update with the result of an attempt. -/
def integrationResultPatch (runtime : PipelineRuntime) (attempt : IntegrationAttempt) :
    PipelinePatch := fun current =>
  let queue := attemptedQueue runtime attempt current
  let reopen := !attempt.dryRun && attempt.result.integrated && !queue.isEmpty
    && allIntegrated queue && !current.status.closed
  .changes
    { status := some (if reopen then .awaitingFinalization else current.status)
      finishedAt := some (if reopen then none else current.finishedAt)
      integrationQueue := some queue
      events := some (current.events ++
        [{ type := "integration", time := attempt.time,
           status := orText attempt.result.status "rejected",
           errorType := attempt.result.errorType,
           operationId := orText attempt.result.operationId attempt.heldOperationId }])
      errors := some (if attempt.result.ok then current.errors
        else current.errors ++
          [⟨"integration", orText attempt.result.errorType "integration_rejected", ""⟩]) }

/-! ### The journal -/

/-- `readIntegrationOperationSummary` -/
structure OperationSummary where
  pipelineId : String
  pipelineJobId : String
  patchSha256 : String
  sourceStateSha256 : String
  status : String

/-- What the journal says an item is. -/
def journalStatus (record : PipelineRecord) (item : IntegrationItem) :
    Option OperationSummary → ItemStatus
  | none => .quarantined
  | some operation =>
    if operation.pipelineId = record.pipelineId && operation.pipelineJobId = item.jobId
        && (item.patchSha256 = "" || operation.patchSha256 = item.patchSha256)
        && (item.sourceStateSha256 = ""
          || operation.sourceStateSha256 = item.sourceStateSha256) then
      if operation.status = "committed" then .integrated
      else if ["rolled_back", "recovered_noop", "recovered_verified"].contains
          operation.status then .pending
      else if ["quarantined", "resolved_by_operator"].contains operation.status then
        .quarantined
      else item.status
    else .quarantined

/-- A change that the reconciliation makes to the items of an operation. -/
structure JournalChange where
  operationId : String
  was : ItemStatus
  now : ItemStatus

def JournalDecides (item : IntegrationItem) : Bool :=
  (item.status = .integrating || item.status = .quarantined) && item.operationId ≠ ""

/-- The changes the reconciliation finds, with what it reads in the journal. -/
def journalChanges (record : PipelineRecord) (journal : String → Option OperationSummary) :
    List JournalChange :=
  record.integrationQueue.filterMap fun item =>
    if JournalDecides item then
      let status := journalStatus record item (journal item.operationId)
      if status ≠ item.status then some ⟨item.operationId, item.status, status⟩ else none
    else none

/-- The last change for an operation is the one the map keeps. -/
def changeFor (changes : List JournalChange) (item : IntegrationItem) : Option JournalChange :=
  if item.operationId = "" then none
  else changes.reverse.find? fun change => change.operationId = item.operationId

def reconciledItem (changes : List JournalChange) (item : IntegrationItem) : IntegrationItem :=
  match changeFor changes item with
  | none => item
  | some change => if item.status = change.was then { item with status := change.now } else item

/-- The patch of `reconcilePipelineIntegrationOperationStates`; a refresh writes nothing
when it finds nothing to change. -/
def reconciliationPatch (changes : List JournalChange) (refreshing : Bool) (time : Nat) :
    PipelinePatch := fun current =>
  let queue := current.integrationQueue.map (reconciledItem changes)
  let changed := current.integrationQueue.filter fun item =>
    (changeFor changes item).any fun change => item.status = change.was
  if refreshing && changed.isEmpty then .unchanged
  else
    .changes
      { integrationQueue := some queue
        events := some (current.events ++ changed.map fun item =>
          { type := "integration_journal_reconciled", time := time,
            operationId := item.operationId, jobId := item.jobId })
        status := some (if !queue.isEmpty && allIntegrated queue
            && current.status = .awaitingIntegration then .awaitingFinalization
          else current.status) }

/-! ### Refreshes -/

structure JobSnapshot where
  jobId : String
  status : QueueStatus
  agent : String
  errorType : String
  worktreePath : String
  worktreeBranch : String
  worktreeBaseCommit : String
  worktreePatchSha256 : String
  worktreeSourceStateSha256 : String
  allowedEdits : List String
  changedFiles : List String
  noChanges : Bool

/-- A writer that left something to integrate. -/
def JobSnapshot.hasSource (job : JobSnapshot) : Bool :=
  job.worktreePath ≠ "" && !job.noChanges && !job.changedFiles.isEmpty

/-- The keys of both lists are equal: the same paths, in any order. -/
def sameEdits (left right : List String) : Bool :=
  (normalizeLockPathList (left.map String.toList)).isPerm
    (normalizeLockPathList (right.map String.toList))

/-- The first unused item that satisfies one of the three criteria, the strongest first. -/
def priorItem (existing : List IntegrationItem) (used : List Nat) (job : JobSnapshot) :
    Option Nat :=
  let unused (criterion : IntegrationItem → Bool) : Option Nat :=
    (List.range existing.length).find? fun index =>
      !used.contains index && (existing[index]?).any criterion
  (unused fun item => item.jobId ≠ "" && item.jobId = job.jobId).or
    ((unused fun item => (item.agent = "" || item.agent = job.agent)
        && sameEdits item.allowedEdits job.allowedEdits).or
      (unused fun item => item.jobId = "" || item.jobId = job.jobId))

/-- The status that a merged item keeps. -/
def keptStatus : ItemStatus → ItemStatus
  | .planned | .pending => .pending
  | status => status

/-- The item of a job, over the item it was before. -/
def mergedItem (job : JobSnapshot) : Option IntegrationItem → IntegrationItem
  | none =>
    { jobId := job.jobId
      agent := job.agent
      worktreePath := job.worktreePath
      branch := job.worktreeBranch
      sourceBaseCommit := job.worktreeBaseCommit
      patchSha256 := job.worktreePatchSha256
      sourceStateSha256 := job.worktreeSourceStateSha256
      allowedEdits := job.allowedEdits
      changedFiles := job.changedFiles
      status := .pending
      operationId := ""
      errorType := ""
      noChanges := false
      cleanupRequested := false }
  | some prior =>
    { prior with
      jobId := job.jobId
      agent := orText prior.agent job.agent
      worktreePath := job.worktreePath
      branch := orText job.worktreeBranch prior.branch
      sourceBaseCommit := orText job.worktreeBaseCommit prior.sourceBaseCommit
      patchSha256 := orText job.worktreePatchSha256 prior.patchSha256
      sourceStateSha256 := orText job.worktreeSourceStateSha256 prior.sourceStateSha256
      allowedEdits := job.allowedEdits
      changedFiles := job.changedFiles
      status := keptStatus prior.status }

/-- One turn of the merge: the items used so far and the merged ones. -/
def mergeStep (existing : List IntegrationItem) (state : List Nat × List IntegrationItem)
    (job : JobSnapshot) : List Nat × List IntegrationItem :=
  let index := priorItem existing state.1 job
  (state.1 ++ index.toList,
    state.2 ++ [mergedItem job (index.bind fun index => existing[index]?)])

def mergePipelineIntegrationQueue (existing : List IntegrationItem) (jobs : List JobSnapshot) :
    List IntegrationItem :=
  ((jobs.filter JobSnapshot.hasSource).foldl (mergeStep existing) ([], [])).2

/-- What a refresh derives from the children. -/
def refreshChanges (jobs : List JobSnapshot) (time : Nat) (current : PipelineRecord) :
    Option PipelineChanges :=
  if jobs.isEmpty then none else
  let failed := jobs.filter fun job => countsAsFailed job.status
  let cancelled := jobs.filter fun job => job.status = .cancelled
  if !failed.isEmpty || !cancelled.isEmpty then
    some
      { status := some (if !failed.isEmpty then .failed else .cancelled)
        finishedAt := some (current.finishedAt.or (some time))
        errors := some ((failed ++ cancelled).map fun job => ⟨"", job.errorType, job.jobId⟩) }
  else if jobs.all fun job => job.status = .completed then
    let queue := mergePipelineIntegrationQueue current.integrationQueue jobs
    some
      { status := some (if allIntegrated queue then .awaitingFinalization
          else .awaitingIntegration)
        finishedAt := some (current.finishedAt.or (some time))
        integrationQueue := some queue }
  else if jobs.any fun job => !job.status.terminal && job.status ≠ .held then
    some { status := some .running }
  else none
where
  countsAsFailed : QueueStatus → Bool
    | .failed | .interrupted | .notResumable => true
    | _ => false

/-- `applyPatch` of a refresh: nothing happens to a record that is frozen when the write
runs. -/
def guarded (patch : PipelinePatch) : PipelinePatch := fun current =>
  if current.status.frozen then .unchanged else patch current

/-- The patch of `refreshPipelineRecord`. It leaves the record alone when nothing but the
time would change; `observed` says that the last event of its kind lists the same jobs. -/
def refreshPatch (jobs : List JobSnapshot) (observed : Bool) (time : Nat) : PipelinePatch :=
  guarded fun current =>
    match refreshChanges jobs time current with
    | none => .unchanged
    | some changes =>
      let next := current.assign changes
      if observed && next.status = current.status && next.errors = current.errors
          && next.finishedAt = current.finishedAt
          && next.integrationQueue = current.integrationQueue then .unchanged
      else
        .changes
          { changes with
            events := some ((current.events.filter fun event =>
              event.type ≠ "queue_status") ++ [{ type := "queue_status", time := time }]) }

def brokenManifestPatch (time : Nat) : PipelinePatch :=
  guarded fun current =>
    .changes
      { status := some .failed
        finishedAt := some (current.finishedAt.or (some time))
        batchState := some "incomplete"
        errors := some (current.errors ++ [⟨"", "pipeline_child_record_missing", ""⟩])
        events := some (current.events ++
          [{ type := "pipeline_child_manifest_invalid", time := time }]) }

end AgentBridge.Pipelines
