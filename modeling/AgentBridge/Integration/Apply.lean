import AgentBridge.Journal.Recovery

/-!
# Serial integration of a reviewed patch

`integratePatchWithoutSerialLock` from the last checks before its journal
operation to its return: the journal operation, the apply, the validation, the
rollbacks of each exit, the `catch` and the `finally`.
-/

namespace AgentBridge.Integration

open Journal Systems

/-- What the call has read and decided before it prepares the operation. -/
structure IntegrationCall where
  settings : JournalSettings
  cwd : Directory
  operationId : String
  ownerGeneration : String
  recoveryGeneration : String
  integrationLock : Bool
  changedFiles : List String
  nodup : changedFiles.Nodup
  targetHead : Nat
  preApplyExactSnapshot : Snapshot
  expectedPostApplySnapshot : Snapshot
  preApplyIndexSnapshot : List (String × Nat)
  preApplyFullIndexSha : Nat
  rollbackBaseline : RollbackBaseline
  /-- What `checkout-index` writes at a path, with its line-ending conversion. -/
  checkoutLeaf : String → Leaf
  validationPolicyTrust : Bool

/-- The mutable variables of the call. -/
structure IntegrationLocals where
  integrationOperationId : Option String
  integrationOperationCommitted : Bool
  patchApplied : Bool
  ownedPostApplySnapshot : Option Snapshot

structure IntegrationResult where
  ok : Bool
  errorType : String
  rollback : Option RollbackResult
  deriving DecidableEq

def refused (errorType : String) (rollback : Option RollbackResult) : IntegrationResult :=
  ⟨false, errorType, rollback⟩

/-- An exit without rollback: ownership is ambiguous. -/
def notAttempted (call : IntegrationCall) : RollbackResult :=
  ⟨[], call.changedFiles, call.changedFiles⟩

def IntegrationCall.authority (call : IntegrationCall) : JournalAuthority :=
  ⟨call.integrationLock, call.ownerGeneration, false⟩

/-- A transition of the call under its own generation. -/
def moveOperation (call : IntegrationCall) (expected status : OperationStatus) (outcome : String) :
    Action IntegrationLocals Unit :=
  issue (.transition ⟨[expected], status, outcome, some call.authority⟩)

/-- `ownershipLostResult` when the signal is aborted, else the rest of the call. -/
def unlessAborted (next : Action IntegrationLocals IntegrationResult) :
    Action IntegrationLocals IntegrationResult := do
  let aborted : Bool ← issue .signalAborted
  if aborted then pure (refused "integration_lock_ownership_lost" none) else next

/-! ## `prepareIntegrationOperation` -/

/-- `captureIntegrationJournalEvidence`; the index entries follow. -/
def captureIntegrationJournalEvidence (settings : JournalSettings) (expectedPost : Snapshot) :
    Nat → List String → Action IntegrationLocals (List JournalFile)
  | _, [] => pure []
  | totalBytes, path :: paths => do
    let leaf : Leaf ← issue (.readLeaf path)
    if leaf = .directory ∨ settings.maxSnapshotFileBytes < leaf.fileBytes then
      Procedure.raise snapshotLimit
    else if settings.maxSnapshotTotalBytes < totalBytes + leaf.recordedBytes then
      Procedure.raise snapshotLimit
    else
      match expectedPost.lookup path with
      | none => Procedure.raise (.ofType "")
      | some post =>
        let rest ← captureIntegrationJournalEvidence settings expectedPost
          (totalBytes + leaf.recordedBytes) paths
        pure (⟨path, leaf, post, none⟩ :: rest)

def recordIndexEntries : List JournalFile → Action IntegrationLocals (List JournalFile)
  | [] => pure []
  | file :: files => do
    let entry : Nat ← issue (.readIndexEntry file.path)
    let rest ← recordIndexEntries files
    pure ({ file with preIndexEntry := some entry } :: rest)

/-- The row of a new operation; the instance that inserts it owns it. -/
def preparedRow (call : IntegrationCall) (instanceId : String) : IntegrationOperation :=
  ⟨call.operationId, call.cwd, instanceId, call.ownerGeneration, 0, .prepared, "", 0, none⟩

def prepareIntegrationOperation (call : IntegrationCall) (instanceId : String) :
    Action IntegrationLocals Unit := do
  if call.changedFiles = [] then
    Procedure.raise (.ofType "integration_journal_paths_missing")
  else
    let evidence ← captureIntegrationJournalEvidence call.settings
      call.expectedPostApplySnapshot 0 call.changedFiles
    let files ← recordIndexEntries evidence
    issue (.insertOperation
      ⟨preparedRow call instanceId, call.targetHead, call.preApplyFullIndexSha, files⟩
      call.integrationLock)

/-! ## `applyPatchFile` -/

/-- The result of `applyPatchFile`. `externalChanges` are the paths that no longer
held the reviewed bytes right before the first write. -/
structure AppliedPatch where
  succeeded : Bool
  externalChanges : List String
  isolatedEolRecords : Option (List String)

def failedWithEol : Action IntegrationLocals AppliedPatch := do
  let eol : List String ← issue .isolatedEol
  pure ⟨false, [], some eol⟩

/-- The deletions of the patch: whether all of them succeeded. -/
def removeDeleted : List String → Action IntegrationLocals Bool
  | [] => pure true
  | path :: paths => do
    let removed ← Procedure.recover (removeRollbackLeaf path)
      fun error => pure (error.errorType == "ENOENT")
    if removed then removeDeleted paths else pure false

/-- The checkout of the patched paths: whether it succeeded. -/
def checkoutPaths (call : IntegrationCall) : List String → Action IntegrationLocals Bool
  | [] => pure true
  | path :: paths => do
    let written ← Procedure.recover
      (do
        issue (.checkoutIndex path (call.checkoutLeaf path))
        pure true)
      fun _ => pure false
    if written then checkoutPaths call paths else pure false

def IntegrationCall.deleted (call : IntegrationCall) (path : String) : Bool :=
  call.expectedPostApplySnapshot.lookup path == some .missing

/-- The writes of the patch: the deletions first, then the checkout. -/
def writePatch (call : IntegrationCall) : Action IntegrationLocals AppliedPatch := do
  let removed ← removeDeleted (call.changedFiles.filter call.deleted)
  if !removed then failedWithEol
  else
    let written ← checkoutPaths call (call.changedFiles.filter fun path => !call.deleted path)
    if !written then failedWithEol
    else
      let eol : List String ← issue .isolatedEol
      pure ⟨true, [], some eol⟩

/-- The paths that changed since the reviewed bytes were read; all of them when
they cannot be read. -/
def changedSince (call : IntegrationCall) : Action IntegrationLocals (List String) :=
  Procedure.recover
    (do
      let current ← exactIntegrationFileSnapshot call.settings call.changedFiles
      pure (snapshotMismatches call.preApplyExactSnapshot current call.changedFiles))
    fun _ => pure call.changedFiles

def applyPatchFile (call : IntegrationCall) : Action IntegrationLocals AppliedPatch := do
  let staged : Bool ← issue .stagePatch
  if !staged then pure ⟨false, [], none⟩
  else
    let mismatches ← changedSince call
    if mismatches = [] then writePatch call else pure ⟨false, mismatches, none⟩

/-! ## Evidence and rollback of the call -/

/-- Whether the index entries of the paths are the recorded ones. -/
def indexEntriesKept (baseline : List (String × Nat)) :
    List String → Action IntegrationLocals Bool
  | [] => pure true
  | path :: paths => do
    let entry : Nat ← issue (.readIndexEntry path)
    let rest ← indexEntriesKept baseline paths
    pure (baseline.lookup path == some entry && rest)

def isolatedIndexPreservationEvidence (call : IntegrationCall) : Action IntegrationLocals Bool :=
  Procedure.recover (indexEntriesKept call.preApplyIndexSnapshot call.changedFiles)
    fun _ => pure false

/-- The rollback of an exit: the index evidence for its report, then the owned
paths. -/
def rollBackCall (call : IntegrationCall) (paths : List String)
    (ownedSnapshot : Option Snapshot) (eolRecords : Option (List String)) :
    Action IntegrationLocals RollbackResult := do
  let _ ← isolatedIndexPreservationEvidence call
  rollbackVerifiedOwnedChanges call.settings call.rollbackBaseline paths ownedSnapshot eolRecords

def rolledBackExit (call : IntegrationCall) (errorType : String) (ownedSnapshot : Option Snapshot)
    (eolRecords : Option (List String)) : Action IntegrationLocals IntegrationResult := do
  let rollback ← rollBackCall call call.changedFiles ownedSnapshot eolRecords
  pure (refused errorType (some rollback))

/-! ## From the validation to the commit -/

/-- The last two transitions. -/
def commitIntegration (call : IntegrationCall) : Action IntegrationLocals IntegrationResult := do
  moveOperation call .validating .validated "validation_passed"
  unlessAborted do
    moveOperation call .validated .committed "integration_committed"
    Procedure.assign fun locals => { locals with integrationOperationCommitted := true }
    pure ⟨true, "", none⟩

/-- The checks between an accepted validation and the commit. -/
def acceptIntegration (call : IntegrationCall) (owned : Snapshot) :
    Action IntegrationLocals IntegrationResult := do
  let indexKept ← isolatedIndexPreservationEvidence call
  if !indexKept then rolledBackExit call "integration_index_changed" (some owned) none
  else
    let head : Nat ← issue .readHead
    if head ≠ call.targetHead then
      pure (refused "integration_target_head_changed" (some (notAttempted call)))
    else
      let captured : Bool ← issue (.ask .targetStateCaptured)
      if !captured then Procedure.raise (.ofType "integration_target_state_failed")
      else
        let index : Nat ← issue .readIndex
        if index ≠ call.preApplyFullIndexSha then
          rolledBackExit call "integration_index_changed" (some owned) none
        else unlessAborted (commitIntegration call)

def validationIndexChanged (call : IntegrationCall) : Action IntegrationLocals Bool :=
  Procedure.recover
    (do
      let index : Nat ← issue .readIndex
      pure (index != call.preApplyFullIndexSha))
    fun _ => pure true

/-- The reviewed paths whose bytes are no longer the applied ones. -/
def postValidationMismatches (call : IntegrationCall) (owned : Snapshot) :
    Action IntegrationLocals (List String) :=
  Procedure.recover
    (do
      let current ← exactIntegrationFileSnapshot call.settings call.changedFiles
      pure (snapshotMismatches owned current call.changedFiles))
    fun _ => pure call.changedFiles

def validationErrorType (gate : ValidationGate) (indexChanged touchedNothing reviewedOnly : Bool)
    (mismatches : List String) : String :=
  if indexChanged then "integration_validation_mutated_unapproved_files"
  else if !touchedNothing || mismatches ≠ [] then
    if reviewedOnly then "integration_validation_mutated_reviewed_files"
    else "integration_validation_mutated_unapproved_files"
  else gate.errorType.getD ""

def checkValidation (call : IntegrationCall) (owned : Snapshot) (gate : ValidationGate) :
    Action IntegrationLocals IntegrationResult := do
  let touchedNothing : Bool ← issue (.ask .validationTouchedNothing)
  let indexChanged ← validationIndexChanged call
  let reviewedOnly : Bool ← issue (.ask .validationTouchedReviewedOnly)
  let mismatches ← postValidationMismatches call owned
  let head : Nat ← issue .readHead
  if head ≠ call.targetHead then
    pure (refused "integration_target_head_changed" (some (notAttempted call)))
  else if gate.errorType.isSome || indexChanged || !touchedNothing || mismatches ≠ [] then
    rolledBackExit call
      (validationErrorType gate indexChanged touchedNothing reviewedOnly mismatches)
      (some owned) none
  else acceptIntegration call owned

/-- The attempts to quarantine an operation whose validation may still run. -/
def quarantineUnconfirmed (call : IntegrationCall) : Nat → Action IntegrationLocals Bool
  | 0 => pure false
  | attempts + 1 => do
    let quarantined ← quarantineIntegrationOperation [.validating]
      "validation_process_unconfirmed" (some call.authority)
    if quarantined then pure true else quarantineUnconfirmed call attempts

def unconfirmedExit (call : IntegrationCall) : Action IntegrationLocals IntegrationResult := do
  let quarantined ← quarantineUnconfirmed call 4
  if !quarantined then issue .blockRoot
  Procedure.assign fun locals => { locals with integrationOperationCommitted := true }
  pure (refused "validation_process_tree_unconfirmed" none)

def validateIntegration (call : IntegrationCall) (owned : Snapshot) :
    Action IntegrationLocals IntegrationResult := do
  moveOperation call .appliedUnvalidated .validating "validation_started"
  let gate : ValidationGate ← issue .validate
  if gate.processTreeUnconfirmed then unconfirmedExit call
  else unlessAborted (checkValidation call owned gate)

/-- The policy check between the apply and the validation. -/
def checkPolicy (call : IntegrationCall) (owned : Snapshot) :
    Action IntegrationLocals IntegrationResult := do
  if call.validationPolicyTrust then
    let trusted : Bool ← issue (.ask .policyTrusted)
    if trusted then validateIntegration call owned
    else rolledBackExit call "policy_validation_command_untrusted" (some owned) none
  else validateIntegration call owned

/-- The path-set check after the apply. -/
def checkAppliedPaths (call : IntegrationCall) (owned : Snapshot) :
    Action IntegrationLocals IntegrationResult := do
  let exact : Bool ← issue (.ask .pathSetExact)
  if exact then checkPolicy call owned
  else rolledBackExit call "integration_post_apply_path_mismatch" (some owned) none

/-! ## The apply -/

/-- The checks right after the patch was written. -/
def verifyApplied (call : IntegrationCall) (eolRecords : Option (List String)) :
    Action IntegrationLocals IntegrationResult := do
  let head : Nat ← issue .readHead
  if head ≠ call.targetHead then
    pure (refused "integration_target_head_changed" (some (notAttempted call)))
  else
    let owned ← exactIntegrationFileSnapshot call.settings call.changedFiles
    Procedure.assign fun locals => { locals with ownedPostApplySnapshot := some owned }
    let contentMismatches ← integrationContentMismatches call.expectedPostApplySnapshot owned
      eolRecords call.changedFiles
    let indexKept ← indexEntriesKept call.preApplyIndexSnapshot call.changedFiles
    if contentMismatches ≠ [] ∨ !indexKept then
      rolledBackExit call
        (if contentMismatches ≠ [] then "integration_post_apply_content_mismatch"
          else "integration_post_apply_index_mismatch")
        (some call.expectedPostApplySnapshot) eolRecords
    else
      moveOperation call .applying .appliedUnvalidated "exact_post_state_verified"
      checkAppliedPaths call owned

/-- The exit of a failed apply: roll back what changed since the reviewed bytes. -/
def failedApply (call : IntegrationCall) (applied : AppliedPatch) :
    Action IntegrationLocals IntegrationResult := do
  if applied.externalChanges ≠ [] then
    moveOperation call .applying .recoveredNoop "target_changed_before_patch_write"
    Procedure.assign fun locals => { locals with integrationOperationCommitted := true }
    pure (refused "integration_preview_stale" none)
  else
    let _ ← isolatedIndexPreservationEvidence call
    let changed ← changedSince call
    let rollback ← rollbackVerifiedOwnedChanges call.settings call.rollbackBaseline changed
      (some call.expectedPostApplySnapshot) applied.isolatedEolRecords
    pure (refused "integration_apply_failed" (some rollback))

def applyReviewed (call : IntegrationCall) : Action IntegrationLocals IntegrationResult := do
  moveOperation call .prepared .applying "patch_apply_started"
  unlessAborted do
    let applied ← applyPatchFile call
    unlessAborted do
      if applied.succeeded then
        Procedure.assign fun locals => { locals with patchApplied := true }
        verifyApplied call applied.isolatedEolRecords
      else failedApply call applied

/-- The `try` block. -/
def integrateReviewed (call : IntegrationCall) (instanceId : String) :
    Action IntegrationLocals IntegrationResult := do
  let refusal : Option String ← issue .preflight
  match refusal with
  | some errorType => pure (refused errorType none)
  | none =>
    unlessAborted do
      prepareIntegrationOperation call instanceId
      Procedure.assign fun locals =>
        { locals with integrationOperationId := some call.operationId }
      issue .integrationPrepared
      unlessAborted (applyReviewed call)

/-- The `catch` clause. -/
def integrationFailed (call : IntegrationCall) (error : JournalError) :
    Action IntegrationLocals IntegrationResult := do
  let locals ← Procedure.locals
  if !locals.patchApplied ∧ error.errorType = "pipeline_terminal" then
    pure (refused "pipeline_terminal" none)
  else if locals.patchApplied then
    let rollback ← Procedure.recover
      (rollBackCall call call.changedFiles locals.ownedPostApplySnapshot none)
      fun _ => pure (notAttempted call)
    pure (refused "integration_transaction_failed" (some rollback))
  else pure (refused "integration_transaction_failed" none)

/-- The statuses from which the `finally` clause may quarantine. -/
def unresolvedStatuses : List OperationStatus :=
  [.prepared, .applying, .appliedUnvalidated, .validating, .validated, .rollingBack, .recovering]

/-- The `finally` clause: run recovery unless the operation is closed or the
lease was lost. -/
def settleIntegration (call : IntegrationCall) : Action IntegrationLocals Unit := do
  let locals ← Procedure.locals
  let aborted : Bool ← issue .signalAborted
  match locals.integrationOperationId with
  | none => pure ()
  | some operationId =>
    if locals.integrationOperationCommitted || aborted then pure ()
    else
      Procedure.recover
        (do
          let _ ← recoverIntegrationOperationsWhileLocked call.settings operationId
            call.integrationLock call.recoveryGeneration
          pure ())
        fun error => do
          if integrationRecoveryErrorIsTransient error then pure ()
          else
            let _ ← quarantineIntegrationOperation unresolvedStatuses
              "recovery_finalizer_failed" (some call.authority)
            pure ()

def integratePatchWithoutSerialLock (call : IntegrationCall) (instanceId : String) :
    Action IntegrationLocals IntegrationResult := do
  let result ← Procedure.recover (integrateReviewed call instanceId) (integrationFailed call)
  settleIntegration call
  pure result

end AgentBridge.Integration
