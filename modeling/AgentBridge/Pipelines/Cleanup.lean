import AgentBridge.Pipelines.Lifecycle

/-!
# The cleanup of source worktrees

A finalization that has passed its gates looks at every source whose removal was asked for,
writes down which ones it may remove, looks at each again and removes it. A crash leaves the
authorization in the audit trail, and the recovery continues from there.

A procedure is the list of its durable effects: the records it writes and the sources it
removes. A crash carries out the effects before it.
-/

namespace AgentBridge.Pipelines

open Paths

/-! ### What git says of a source -/

structure CollectedPatch where
  patchSha256 : String
  sourceStateSha256 : String
  sourceBaseCommit : String
  sourceHead : String
  deriving DecidableEq

structure SourceView where
  pathExists : Bool
  /-- `git worktree list` succeeds and has the path, by its key. -/
  registered : Bool
  /-- `git show-ref` finds the branch of the item. -/
  branchRefExists : Bool
  patch : Option CollectedPatch
  /-- The trimmed output of `git branch --show-current`; empty when it fails. -/
  branch : String
  deriving DecidableEq

/-- What `cleanupWorktree` returns. -/
structure RemovalOutcome where
  cleanup : CleanupOutcome
  reason : String

/-- What one cleanup meets, by the position of the item among the ones it looks at. -/
structure CleanupOracle where
  /-- The source when the cleanup plans what to do with it. -/
  look : Nat → SourceView
  /-- The source when it is looked at again, after the authorization. -/
  check : Nat → SourceView
  /-- The source when it is removed. -/
  atRemoval : Nat → SourceView
  outcome : Nat → RemovalOutcome

/-! ### The plan -/

def cleanupAuthorizationMatchesItem (runtime : PipelineRuntime) (record : PipelineRecord)
    (authorization : CleanupAuthorization) (item : IntegrationItem) : Bool :=
  authorization.worktreePath ≠ "" && item.worktreePath ≠ ""
    && runtime.worktreeKey record.cwd authorization.worktreePath
      = runtime.worktreeKey record.cwd item.worktreePath
    && authorization.branch = item.branch
    && authorization.sourceBaseCommit = item.sourceBaseCommit
    && authorization.patchSha256 = item.patchSha256
    && authorization.sourceStateSha256 = item.sourceStateSha256

/-- An entry of `cleanupPlan`: a result that stands, or a source that may be removed. -/
inductive PlanEntry where
  | result (result : CleanupResult)
  | removal (item : IntegrationItem) (authorization : CleanupAuthorization)

def PlanEntry.authorization : PlanEntry → Option CleanupAuthorization
  | .result _ => none
  | .removal _ authorization => some authorization

/-- The result of an authorization that is not carried out yet. -/
def CleanupAuthorization.pending (authorization : CleanupAuthorization) : CleanupResult :=
  ⟨authorization.worktreePath, authorization.branch, .authorized, ""⟩

/-- `entry.authorization || entry.result` -/
def PlanEntry.written : PlanEntry → CleanupResult
  | .result given => given
  | .removal _ authorization => authorization.pending

/-- An item whose source is to be removed. -/
def cleanupRequested (item : IntegrationItem) : Bool :=
  item.cleanupRequested && item.worktreePath ≠ ""

/-- The entry of an item in the plan of `finalizePipelineSourceCleanup`. -/
def planEntry (runtime : PipelineRuntime) (record : PipelineRecord)
    (authorizedWorktrees : Option (List CleanupAuthorization)) (dryRun : Bool)
    (item : IntegrationItem) (view : SourceView) : PlanEntry :=
  let retained (branch reason : String) : PlanEntry :=
    .result ⟨item.worktreePath, branch, .retainedForReview, reason⟩
  let authorized := authorizedWorktrees.all fun authorizations =>
    (authorizations.filter fun authorization =>
      cleanupAuthorizationMatchesItem runtime record authorization item).length = 1
  if !authorized then retained item.branch "cleanup_identity_not_durably_authorized"
  else if dryRun then .result ⟨item.worktreePath, "", .skippedDryRun, ""⟩
  else if !view.pathExists then
    let branch := String.ofList (trim item.branch.toList)
    if !view.registered && !(branch ≠ "" && view.branchRefExists) then
      .result ⟨item.worktreePath, branch, .success, "recovered_already_removed"⟩
    else retained branch "cleanup_identity_ambiguous_after_restart"
  else
    match view.patch with
    | none => retained "" "integration_source_changed_after_review"
    | some patch =>
      if patch.patchSha256 ≠ item.patchSha256
          || patch.sourceStateSha256 ≠ item.sourceStateSha256 then
        retained "" "integration_source_changed_after_review"
      else if view.branch = "" then retained "" "source_branch_identity_unverified"
      else
        .removal item
          { worktreePath := item.worktreePath
            branch := view.branch
            sourceBaseCommit := patch.sourceBaseCommit
            patchSha256 := patch.patchSha256
            sourceStateSha256 := patch.sourceStateSha256 }

/-- The plan for the items of a record whose cleanup was requested. -/
def cleanupPlan (runtime : PipelineRuntime) (record : PipelineRecord)
    (authorizedWorktrees : Option (List CleanupAuthorization)) (look : Nat → SourceView) :
    List PlanEntry :=
  (record.integrationQueue.filter cleanupRequested).mapIdx fun index item =>
    planEntry runtime record authorizedWorktrees false item (look index)

/-! ### Carrying the plan out -/

inductive PipelineEffect where
  | write (candidate : PipelineRecord)
  | remove (item : IntegrationItem) (authorization : CleanupAuthorization) (source : SourceView)

/-- An update that nobody contends with: the record after it and what it writes. -/
def applyPatch (record : PipelineRecord) (patch : PipelinePatch) :
    PipelineRecord × List PipelineEffect :=
  match patch record with
  | .changes changes => (updateCandidate record changes, [.write (updateCandidate record changes)])
  | .unchanged => (record, [])
  | .refused _ => (record, [])

def stillAuthorized (authorization : CleanupAuthorization) (view : SourceView) : Bool :=
  view.patch.any (fun patch =>
      patch.patchSha256 = authorization.patchSha256
        && patch.sourceStateSha256 = authorization.sourceStateSha256)
    && view.branch = authorization.branch

def PlanEntry.carriedOut (oracle : CleanupOracle) (index : Nat) : PlanEntry → CleanupResult
  | .result given => given
  | .removal _ authorization =>
    if stillAuthorized authorization (oracle.check index) then
      ⟨authorization.worktreePath, authorization.branch, (oracle.outcome index).cleanup,
        (oracle.outcome index).reason⟩
    else
      ⟨authorization.worktreePath, authorization.branch, .retainedForReview,
        "integration_source_changed_after_cleanup_authorization"⟩

/-- What carrying an entry out does. -/
def PlanEntry.effects (oracle : CleanupOracle) (index : Nat) : PlanEntry → List PipelineEffect
  | .result _ => []
  | .removal item authorization =>
    if stillAuthorized authorization (oracle.check index) then
      [.remove item authorization (oracle.atRemoval index)]
    else []

/-- The results of `finalizePipelineSourceCleanup`. -/
def cleanupResults (oracle : CleanupOracle) (plan : List PlanEntry) : List CleanupResult :=
  plan.mapIdx fun index entry => entry.carriedOut oracle index

def cleanupRemovals (oracle : CleanupOracle) (plan : List PlanEntry) : List PipelineEffect :=
  (plan.mapIdx fun index entry => entry.effects oracle index).flatten

def hasFailures (results : List CleanupResult) : Bool :=
  results.any fun result => result.cleanup = .failed

def hasRetained (results : List CleanupResult) : Bool :=
  results.any fun result => result.cleanup = .retainedForReview || result.cleanup = .partly

/-- `cleanupState` at the end of a cleanup -/
def cleanupStateOf (results : List CleanupResult) : String :=
  if hasFailures results then "failed_retryable"
  else if hasRetained results then "completed_with_retained_sources"
  else "completed"

/-! ### The recovery -/

/-- The last event of `source_cleanup_authorized`. -/
def authorizationEvent (record : PipelineRecord) : Option AuditEvent :=
  record.events.reverse.find? fun event => event.type = "source_cleanup_authorized"

/-- Results that a recovery does not look at again. -/
def CleanupResult.terminal (result : CleanupResult) : Bool :=
  result.worktreePath ≠ "" && (result.cleanup = .success || result.cleanup = .partly
    || result.cleanup = .retainedForReview)

def terminalCleanupResults (record : PipelineRecord) : List CleanupResult :=
  record.sourceCleanupResults.filter CleanupResult.terminal

/-- The items whose path has no terminal result. -/
def itemsAwaitingCleanup (runtime : PipelineRuntime) (record : PipelineRecord) :
    List IntegrationItem :=
  let terminalCleanupKeys := (terminalCleanupResults record).map fun result =>
    runtime.worktreeKey record.cwd result.worktreePath
  (record.integrationQueue.filter cleanupRequested).filter fun item =>
    !terminalCleanupKeys.contains (runtime.worktreeKey record.cwd item.worktreePath)

/-- The authorizations that name exactly one item, which no other one names. -/
def recoveredAuthorizations (runtime : PipelineRuntime) (record : PipelineRecord)
    (worktrees : List CleanupAuthorization) (awaiting : List IntegrationItem) :
    List CleanupAuthorization :=
  worktrees.filter fun authorization =>
    match awaiting.filter (cleanupAuthorizationMatchesItem runtime record authorization) with
    | [item] => (worktrees.filter fun other =>
      cleanupAuthorizationMatchesItem runtime record other item).length = 1
    | _ => false

structure TargetState where
  targetHead : String
  targetTree : String
  statusSha256 : String
  workingPatchSha256 : String
  indexSha256 : String
  targetStateSha256 : String
  /-- The ordinary files, by their fingerprint -/
  ordinarySnapshot : List (String × String)

/-- `trackedTargetStateSha256`, of a capture that may have failed; `sha256` is the digest of
texts joined by null characters. -/
def trackedTargetStateSha256 (sha256 : List String → String) : Option TargetState → String
  | none => ""
  | some state => sha256 [state.targetHead, state.targetTree, state.statusSha256,
      state.workingPatchSha256, state.indexSha256]

/-- The target is what it was when the cleanup was authorized. -/
def targetStateMatches (sha256 : List String → String) (event : AuditEvent)
    (target : Option TargetState) : Bool :=
  if event.trackedTargetStateSha256 ≠ "" then
    target.isSome && trackedTargetStateSha256 sha256 target = event.trackedTargetStateSha256
  else target.any fun state => state.targetStateSha256 = event.targetStateSha256

structure RecoveryOracle where
  target : Option TargetState
  cleanup : CleanupOracle
  time : Nat

/-- The changes of a recovery that finds another target. -/
def targetChangedChanges (record : PipelineRecord) (time : Nat) : PipelineChanges where
  status := some .completed
  finishedAt := some (record.finishedAt.or (some time))
  cleanupPending := some false
  cleanupState := some "completed_with_retained_sources"
  errors := some (record.errors ++
    [⟨"source_cleanup", "pipeline_cleanup_target_state_changed", ""⟩])

def recoveredChanges (record : PipelineRecord) (results : List CleanupResult) (time : Nat) :
    PipelineChanges where
  status := some (if hasFailures results then .cleanupFailed else .completed)
  finishedAt := some (if hasFailures results then none else record.finishedAt.or (some time))
  sourceCleanupResults := some results
  cleanupPending := some (hasFailures results)
  cleanupState := some (cleanupStateOf results)
  events := some (record.events ++
    [{ type := if hasFailures results then "source_cleanup_recovery_failed"
         else "source_cleanup_recovered"
       time := time }])

/-- The plan of a recovery, for the items it has yet to look at. -/
def recoveryPlan (runtime : PipelineRuntime) (record : PipelineRecord)
    (oracle : CleanupOracle) : List PlanEntry :=
  let awaiting := itemsAwaitingCleanup runtime record
  let worktrees := (authorizationEvent record).elim [] AuditEvent.worktrees
  cleanupPlan runtime { record with integrationQueue := awaiting }
    (some (recoveredAuthorizations runtime record worktrees awaiting)) oracle.look

def resumeAuthorizedPipelineCleanup (runtime : PipelineRuntime) (sha256 : List String → String)
    (oracle : RecoveryOracle) (record : PipelineRecord) : List PipelineEffect :=
  let matching := (authorizationEvent record).any fun event =>
    event.targetStateSha256 ≠ "" && targetStateMatches sha256 event oracle.target
  if !matching then
    (applyPatch record (targetChangedChanges record oracle.time).plain).2
  else
    let plan := recoveryPlan runtime record oracle.cleanup
    let results := terminalCleanupResults record ++ cleanupResults oracle.cleanup plan
    cleanupRemovals oracle.cleanup plan
      ++ (applyPatch record (recoveredChanges record results oracle.time).plain).2

end AgentBridge.Pipelines
