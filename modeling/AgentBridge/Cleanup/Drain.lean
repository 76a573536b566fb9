import AgentBridge.Cleanup.Machine

/-!
# Enqueue and drain

`enqueueIntegrationCleanup` and `drain` of `lib/integration-cleanup.js`, with the two removals
that a drain chooses between, `cleanupIntegratedWorktreeWhileLocked` and
`cleanupCommittedSourceWhileLocked`, and `cleanupWorktree`, which both end in.
-/

namespace AgentBridge.Cleanup

open Systems Worktrees

abbrev CleanupAction (α : Type) : Type :=
  Procedure CleanupCommand CleanupReply Unit String α

def issue (command : CleanupCommand) : CleanupAction (CleanupReply command) :=
  Procedure.call command

variable (config : CleanupConfig)

/-! ## Removal of a worktree -/

structure CleanupWorktree where
  path : String
  branch : BranchName
  expectedBranchOid : Oid

/-- `updateRetainedWorktreeMeasurement` of a worktree that no job continues. -/
def updateRetainedWorktreeMeasurement (path : String) : CleanupAction Unit := do
  let present : Bool ← issue (.existsSync path)
  if present then
    Procedure.recover
      (do
        let bytes : Nat ← issue (.measureBytes path)
        issue (.markArtifact path .retained (some bytes)))
      fun _ => issue (.markArtifact path .cleanupFailed
        (some (config.worktrees.retainedWorktreeMaxBytes + 1)))

/-- What `cleanupWorktree` does when it could not remove the directory. -/
def cleanupFailed (path error : String) : CleanupAction CleanupOutcome := do
  updateRetainedWorktreeMeasurement config path
  issue (.markArtifact path .cleanupFailed none)
  pure (.failed error)

/-- Delete the branch of a removed worktree and mark the worktree. -/
def deleteSourceBranch (path : String) (branch : BranchName) (oid : Oid) :
    CleanupAction CleanupOutcome := do
  let deleted : Bool ← issue (.updateRefDelete branch oid)
  issue (.markArtifact path (if deleted then .cleaned else .cleanedBranchRetained) none)
  pure (if deleted then .success else .partly)

/-- `expectedBranchOid`; `HEAD` is no branch. -/
def readBranchOid (branch : BranchName) : CleanupAction (Option Oid) :=
  if branch = ["HEAD"] then pure none else issue (.showRef branch)

/-- `cleanupWorktree` of a worktree with its expected tip, in mode `always`. -/
def cleanupWorktree (worktree : CleanupWorktree) : CleanupAction CleanupOutcome := do
  let expectedBranch ← readBranchOid worktree.branch
  if expectedBranch ≠ some worktree.expectedBranchOid then
    pure (.retainedForReview "source_branch_identity_changed")
  else
    let detached ← Procedure.recover
      (do
        issue (.detachWorktreeLinks worktree.path)
        pure none)
      fun error => pure (some error)
    match detached with
    | some error => cleanupFailed config worktree.path error
    | none =>
      let removed : Bool ← issue (.worktreeRemove worktree.path)
      if removed then
        deleteSourceBranch worktree.path worktree.branch worktree.expectedBranchOid
      else cleanupFailed config worktree.path "git worktree remove failed."

/-! ## The two removals -/

/-- The capture is the integrated state: without the ignored files where that was recorded. -/
def CleanupPayload.matchesTarget (payload : CleanupPayload) (capture : TargetCapture) : Bool :=
  match payload.integratedTrackedStateSha256 with
  | some tracked => capture.trackedStateSha256 = tracked
  | none => payload.integratedTargetStateSha256 = some capture.targetStateSha256

def integrationCleanupTargetStateError (payload : CleanupPayload) :
    CleanupAction (Option String) :=
  if payload.integratedTargetStateSha256 = none then
    pure (some "The integrated target state was not attested; the recovery source was retained.")
  else do
    let current : Option TargetCapture ← issue (.captureTargetState true)
    match current with
    | none => pure (some
        "The target state could not be reverified immediately before source cleanup.")
    | some current =>
      if payload.matchesTarget current then pure none
      else
        -- The fast capture trusts the index; once more with a fresh one.
        let fresh : Option TargetCapture ← issue (.captureTargetState false)
        match fresh with
        | none => pure (some
            "The target state could not be reverified immediately before source cleanup.")
        | some fresh =>
          if payload.matchesTarget fresh then pure none
          else pure (some
            "The target changed after reviewed integration; the recovery source was retained.")

/-- `collectIntegrationPatch` of a worktree: not of one in use. -/
def collectIntegrationPatch (path : String) (base : Oid) : CleanupAction (Option SourceState) := do
  let present : Bool ← issue (.existsSync path)
  if present then
    let status : Option ArtifactStatus ← issue (.readArtifactStatus path)
    if status = some .inUse then pure none else issue (.createPatch path base)
  else pure none

/-- The last checks of the process itself before a removal. -/
def beforeRemoval : CleanupAction Unit := do
  let aborted : Bool ← issue .heartbeatAborted
  if aborted then Procedure.raise "Cleanup lease lost."
  else
    let foreground : Bool ← issue .foregroundIntegrationActive
    if foreground then
      Procedure.raise "Foreground auto-integration has priority; retry cleanup later."
    else issue .verifyOwnership

/-- `cleanupIntegratedWorktreeWhileLocked`. The branch is read while the target is checked, the
source last. -/
def cleanupIntegratedWorktreeWhileLocked (path : String) (payload : CleanupPayload) :
    CleanupAction CleanupOutcome := do
  let sourceBranch : Option BranchName ← issue (.showCurrentBranch path)
  let targetError ← integrationCleanupTargetStateError payload
  match targetError with
  | some _ => pure (.retainedForReview "integration_target_changed_before_cleanup")
  | none =>
    let current ← collectIntegrationPatch path payload.source.base
    if current ≠ some payload.source then
      pure (.retainedForReview "integration_source_changed_after_review")
    else
      match sourceBranch with
      | none => pure (.retainedForReview "source_branch_identity_unverified")
      | some branch => do
        beforeRemoval
        cleanupWorktree config ⟨path, branch, payload.source.head⟩

def cleanupCommittedSourceWhileLocked (row : CleanupRow) (committedCommit : Oid) :
    CleanupAction CleanupOutcome := do
  let source ← collectIntegrationPatch row.worktreePath row.payload.source.base
  if source ≠ some row.payload.source then
    pure (.retainedForReview "committed_cleanup_identity_changed")
  else
    let current : Bool ← issue (.mergeBaseIsAncestor committedCommit)
    if !current then pure (.retainedForReview "integration_commit_not_in_target")
    else
      beforeRemoval
      cleanupWorktree config ⟨row.worktreePath, row.branch, row.payload.source.head⟩

/-! ## Drain -/

/-- Whether the target still has what was integrated. -/
def targetIdentityMatches (payload : CleanupPayload) (committedInTarget : Bool) :
    CleanupAction Bool :=
  match payload.committedCommit with
  | some _ => pure committedInTarget
  | none => do
    let error ← integrationCleanupTargetStateError payload
    pure (error = none)

/-- A row whose directory is gone: only its branch can be left. -/
def cleanupMissingWorktree (row : CleanupRow) (committedInTarget : Bool) (tip : Option Oid) :
    CleanupAction CleanupOutcome := do
  let matching ← targetIdentityMatches row.payload committedInTarget
  if !matching then pure (.retainedForReview "cleanup_identity_changed")
  else if tip = some row.payload.source.head then
    issue .verifyOwnership
    let deleted : Bool ← issue (.updateRefDelete row.branch row.payload.source.head)
    pure (if deleted then .success else .failed "")
  else if tip = none then
    let absent : Option (List BranchName) ← issue (.forEachRef row.branch)
    issue .verifyOwnership
    pure (if absent = some [] then .success else .failed "")
  else pure (.retainedForReview "cleanup_identity_changed")

def committedInTarget (payload : CleanupPayload) : CleanupAction Bool :=
  match payload.committedCommit with
  | some commit => issue (.mergeBaseIsAncestor commit)
  | none => pure false

def cleanupRow (row : CleanupRow) : CleanupAction CleanupOutcome := do
  let inTarget ← committedInTarget row.payload
  let tip : Option Oid ← issue (.showRef row.branch)
  let present : Bool ← issue (.existsSync row.worktreePath)
  if !present then cleanupMissingWorktree row inTarget tip
  else if tip ≠ some row.payload.source.head then
    pure (.retainedForReview "source_branch_identity_changed")
  else
    match row.payload.committedCommit with
    | some commit =>
      if !inTarget then pure (.retainedForReview "committed_cleanup_identity_changed")
      else cleanupCommittedSourceWhileLocked config row commit
    | none => cleanupIntegratedWorktreeWhileLocked config row.worktreePath row.payload

inductive DrainReport where
  | outcome (outcome : CleanupOutcome)
  | pending (reason : String)

/-- The loop of a drain; it ends early when the lease signal is aborted. -/
def drainRows : List CleanupRow → CleanupAction (List (String × DrainReport))
  | [] => pure []
  | row :: rows => do
    let aborted : Bool ← issue .heartbeatAborted
    if aborted then pure []
    else
      let current : Option CleanupRow ← issue (.readRow row.worktreePath)
      let artifact : Option ArtifactStatus ← issue (.readArtifactStatus row.worktreePath)
      -- The row was settled or enqueued anew since it was selected.
      if !current.any fun current => current.status = .pending && current.payload = row.payload
      then drainRows rows
      else if artifact = some .inUse then
        let reports ← drainRows rows
        pure ((row.worktreePath, .pending "worktree_in_use") :: reports)
      else
        let outcome ← Procedure.recover (cleanupRow config row) fun error =>
          pure (.failed error)
        issue (.settleRow row outcome)
        let reports ← drainRows rows
        pure ((row.worktreePath, .outcome outcome) :: reports)

/-- The report of a drain that leaves every row as it is. -/
def leavePending (rows : List CleanupRow) (reason : String) : List (String × DrainReport) :=
  rows.map fun row => (row.worktreePath, .pending reason)

def drain : CleanupAction (List (String × DrainReport)) := do
  let rows : List CleanupRow ← issue .selectPending
  if rows = [] then pure []
  else
    let foreground : Bool ← issue .foregroundIntegrationActive
    if foreground then pure (leavePending rows "foreground_auto_integration_active")
    else
      let claimed : Bool ← issue .acquireHardLock
      if !claimed then pure (leavePending rows "integration_lock_conflict")
      else
        let reports ← Procedure.recover (drainRows config rows) fun error => do
          issue .releaseHardLock
          Procedure.raise error
        issue .releaseHardLock
        pure reports

/-! ## Enqueue -/

structure IntegrationResult where
  ok : Bool
  /-- `status === "applied"` -/
  applied : Bool
  /-- `validationGate.status === "passed"` -/
  passed : Bool
  source : SourceState
  changedFiles : List String
  integratedTargetStateSha256 : Option String
  integratedTrackedStateSha256 : Option String
  integratedFilesStateSha256 : String
  /-- `afterApply.commit`, an object id. -/
  commit : Option Oid
  operationId : String

inductive EnqueueReply where
  /-- `null` -/
  | nothing
  | pending
  | retainedForReview (reason : String)

/-- The identity of the target to clean up against, after the engine's commit where there is
one; an error is the reason to retain the source. -/
def enqueuedTarget (result : IntegrationResult) (committed : Bool) :
    CleanupAction (Except String (Option String × Option String)) :=
  let recorded := (result.integratedTargetStateSha256, result.integratedTrackedStateSha256)
  if !committed then pure (.ok recorded)
  else do
    let files : String ← issue (.exactFileSnapshot result.changedFiles)
    if files ≠ result.integratedFilesStateSha256 then
      pure (.error "integration_target_changed_before_cleanup")
    else if result.commit.isSome then pure (.ok recorded)
    else
      let current : Option TargetCapture ← issue (.captureTargetState true)
      match current with
      | none => pure (.error "integration_target_unreadable_before_cleanup")
      | some current =>
        pure (.ok (some current.targetStateSha256, some current.trackedStateSha256))

def enqueueIntegrationCleanup (cwd : Directory) (worktreePath : String)
    (result : IntegrationResult) (committed : Bool) : CleanupAction EnqueueReply :=
  if !(result.ok && result.applied && result.passed) || worktreePath = "" then pure .nothing
  else do
    let target ← enqueuedTarget result committed
    match target with
    | .error reason => pure (.retainedForReview reason)
    | .ok target =>
      let branch : Option BranchName ← issue (.showCurrentBranch worktreePath)
      match branch with
      | none => pure (.retainedForReview "source_branch_identity_unverified")
      | some branch => do
        let payload : CleanupPayload :=
          { source := result.source
            committedCommit := if committed then result.commit else none
            changedFiles := result.changedFiles
            integratedTargetStateSha256 := target.1
            integratedTrackedStateSha256 := target.2 }
        let inserted : Bool ← issue
          (.insertRow ⟨worktreePath, cwd, branch, payload, .pending⟩ result.operationId)
        pure (if inserted then .pending else .retainedForReview "worktree_in_use")

/-! ## Runs -/

variable (cwd : Directory)

inductive CleanupCall where
  | enqueue (worktreePath : String) (result : IntegrationResult) (committed : Bool)
  | drain

/-- Run a call of one process, up to its end or a crash. -/
def runCall (s : CleanupMachine) (call : CleanupCall × List (CleanupEnv cwd)) :
    CleanupMachine :=
  match call.1 with
  | .enqueue worktreePath result committed =>
    ((enqueueIntegrationCleanup cwd worktreePath result committed ()).run (execute config)
      s.next call.2).1
  | .drain => ((drain config ()).run (execute config) s.next call.2).1

/-- Calls of any processes, one after the other; what runs at the same time is among the
changes around their commands. -/
def runCalls (s : CleanupMachine) (calls : List (CleanupCall × List (CleanupEnv cwd))) :
    CleanupMachine :=
  calls.foldl (runCall config cwd) s

end AgentBridge.Cleanup
