import AgentBridge.Journal.Files

/-!
# Recovery of a journal operation

`recoverIntegrationOperationsWhileLocked` for one operation. The result record of
a row is kept as the reason of a quarantine and as the outcome otherwise.
-/

namespace AgentBridge.Journal

open Systems

variable {Local : Type}

/-- `quarantineIntegrationOperation`: whether the quarantine was recorded. -/
def quarantineIntegrationOperation (expectedStatuses : List OperationStatus) (reason : String)
    (authority : Option JournalAuthority) : Action Local Bool :=
  Procedure.recover
    (do
      issue (.transition ⟨expectedStatuses, .quarantined, reason, authority⟩)
      pure true)
    fun _ => pure false

/-- What `integrationRecoveryBaseline` decides about HEAD and the index. -/
inductive Baseline where
  | unchanged
  | drifted
  | unavailable (errorType : String)
  deriving DecidableEq

/-- The affected paths whose index entries are not the recorded ones. -/
def indexMismatches : List JournalFile → Action Local (List String)
  | [] => pure []
  | file :: files => do
    let entry : Nat ← issue (.readIndexEntry file.path)
    let rest ← indexMismatches files
    pure (if file.preIndexEntry = some entry then rest else file.path :: rest)

/-- The rule for rows with index evidence for each path. -/
def affectedPathsBaseline (operation : JournalOperation) : Action Local Baseline := do
  let head : Nat ← issue .readHead
  let mismatches ← indexMismatches operation.files
  if head = operation.targetHead then
    pure (if mismatches = [] then .unchanged else .drifted)
  else
    Procedure.recover
      (do
        let committed : List String ← issue .committedChanges
        pure (if mismatches = [] ∧ committed = [] then .unchanged else .drifted))
      fun _ => do
        let recorded : Bool ← issue (.ask .recordedHeadExists)
        pure (if recorded then .unavailable "integration_target_state_failed" else .drifted)

/-- The rule for rows of older bridges. -/
def wholeIndexBaseline (operation : JournalOperation) : Action Local Baseline := do
  let head : Nat ← issue .readHead
  let index : Nat ← issue .readIndex
  pure (if head = operation.targetHead ∧ index = operation.preIndexSha then .unchanged
    else .drifted)

def integrationRecoveryBaseline (operation : JournalOperation) : Action Local Baseline :=
  Procedure.recover
    (if operation.files ≠ [] ∧ operation.files.all (·.preIndexEntry.isSome) then
      affectedPathsBaseline operation
    else wholeIndexBaseline operation)
    fun error => pure (.unavailable error.errorType)

inductive Classification where
  | pre | post | third
  deriving DecidableEq

/-- The class of one affected path in a snapshot. -/
def classifyFile (settings : JournalSettings) (current : Snapshot) (file : JournalFile) :
    Action Local Classification :=
  if current.lookup file.path = file.preFingerprint settings then pure .pre
  else do
    let matching ← integrationContentMatches [(file.path, file.post)] current none file.path
    pure (if matching then .post else .third)

def classifyFiles (settings : JournalSettings) (current : Snapshot) :
    List JournalFile → Action Local (List (JournalFile × Classification))
  | [] => pure []
  | file :: files => do
    let class' ← classifyFile settings current file
    let rest ← classifyFiles settings current files
    pure ((file, class') :: rest)

/-- The classes of the affected paths, or the error that hid one. -/
def classifyOperation (settings : JournalSettings) (operation : JournalOperation) :
    Action Local (Except JournalError (List (JournalFile × Classification))) :=
  Procedure.recover
    (do
      let current ← exactIntegrationFileSnapshot settings (operation.files.map (·.path))
      let classes ← classifyFiles settings current operation.files
      pure (.ok classes))
    fun error => pure (.error error)

def restoreIntegrationJournalFile (file : JournalFile) : Action Local Unit := do
  if file.pre = .missing then
    let removed ← removeRollbackLeaf file.path
    if removed then pure () else Procedure.raise (.ofType "")
  else
    let restored ← replaceRollbackLeaf file.path file.pre
    if restored then pure () else Procedure.raise (.ofType "")

/-- Restore the paths at their postimage, in order, up to the first failure. -/
def restoreFiles : List (JournalFile × Classification) → Action Local Unit
  | [] => pure ()
  | (file, class') :: rest => do
    if class' = .post then restoreIntegrationJournalFile file
    restoreFiles rest

/-- Whether every affected path is at its preimage. -/
def verifyRestored (settings : JournalSettings) (operation : JournalOperation) :
    Action Local (Except JournalError Bool) :=
  Procedure.recover
    (do
      let restored ← exactIntegrationFileSnapshot settings (operation.files.map (·.path))
      pure (.ok (operation.files.all fun file =>
        restored.lookup file.path == file.preFingerprint settings)))
    fun error => pure (.error error)

/-- How a recovery pass leaves an operation. -/
inductive RecoveryResult where
  | resolved (status : OperationStatus)
  | quarantined (reason : String)
  | retryable (status : OperationStatus) (errorType : String)

/-- The `quarantine` closure: a quarantine that could not be recorded is retried. -/
def recoveryQuarantine (currentStatus : OperationStatus) (reason : String)
    (authority : Option JournalAuthority) : Action Local RecoveryResult := do
  let persisted ← quarantineIntegrationOperation
    [currentStatus, .recovering, .rollingBack] reason authority
  pure (if persisted then .quarantined reason
    else .retryable currentStatus "integration_journal_persistence_failed")

def recoverableStatuses : List OperationStatus :=
  [.prepared, .applying, .appliedUnvalidated, .validating, .validated, .rollingBack, .recovering]

/-- A transition of the recovery; its error makes the pass retryable. -/
def recoveryTransition (expected status currentStatus : OperationStatus) (outcome : String)
    (authority : Option JournalAuthority) (next : Action Local RecoveryResult) :
    Action Local RecoveryResult := do
  let moved ← Procedure.recover
    (do
      issue (.transition ⟨[expected], status, outcome, authority⟩)
      pure none)
    fun error => pure (some error)
  match moved with
  | some error => pure (.retryable currentStatus error.errorType)
  | none => next

/-- The end of a pass that restored files: verify them and close the operation. -/
def finishRollback (settings : JournalSettings) (operation : JournalOperation)
    (authority : Option JournalAuthority) : Action Local RecoveryResult := do
  let verified ← verifyRestored settings operation
  match verified with
  | .error error =>
    if error.errorType = "snapshot_safety_limit_exceeded" then
      recoveryQuarantine .rollingBack "rollback_verification_failed" authority
    else pure (.retryable .rollingBack "integration_recovery_evidence_unavailable")
  | .ok false => recoveryQuarantine .rollingBack "rollback_verification_failed" authority
  | .ok true => do
    let baseline ← integrationRecoveryBaseline operation
    match baseline with
    | .drifted => recoveryQuarantine .rollingBack "target_head_or_index_drift" authority
    | .unavailable errorType => pure (.retryable .rollingBack errorType)
    | .unchanged =>
      recoveryTransition .rollingBack .rolledBack .rollingBack "exact_pre_state_restored"
        authority (pure (.resolved .rolledBack))

/-- Restore the files that are at their postimage. -/
def rollBackFiles (settings : JournalSettings) (operation : JournalOperation)
    (classes : List (JournalFile × Classification)) (authority : Option JournalAuthority) :
    Action Local RecoveryResult := do
  let failure ← Procedure.recover
    (do
      restoreFiles classes
      pure none)
    fun error => pure (some error)
  match failure with
  | some error =>
    if integrationRecoveryErrorIsTransient error then
      pure (.retryable .rollingBack "integration_recovery_restore_failed")
    else recoveryQuarantine .rollingBack "rollback_restore_failed" authority
  | none => finishRollback settings operation authority

/-- What follows the classification of the affected paths. -/
def recoverClassified (settings : JournalSettings) (operation : JournalOperation)
    (classes : List (JournalFile × Classification)) (authority : Option JournalAuthority) :
    Action Local RecoveryResult :=
  if classes.any (·.2 == .third) then
    recoveryQuarantine .recovering "affected_path_drift" authority
  else if classes.all (·.2 == .pre) then
    recoveryTransition .recovering .recoveredNoop .recovering "pre_state_verified" authority
      (pure (.resolved .recoveredNoop))
  else
    recoveryTransition .recovering .rollingBack .recovering "exact_preimage_rollback_started"
      authority (rollBackFiles settings operation classes authority)

/-- What follows the evidence of the row. -/
def recoverBaseline (settings : JournalSettings) (operation : JournalOperation)
    (authority : Option JournalAuthority) : Action Local RecoveryResult := do
  let baseline ← integrationRecoveryBaseline operation
  match baseline with
  | .drifted => recoveryQuarantine .recovering "target_head_or_index_drift" authority
  | .unavailable errorType => pure (.retryable .recovering errorType)
  | .unchanged => do
    let classified ← classifyOperation settings operation
    match classified with
    | .error error =>
      if error.errorType = "snapshot_safety_limit_exceeded" then
        recoveryQuarantine .recovering "affected_path_drift" authority
      else pure (.retryable .recovering "integration_recovery_evidence_unavailable")
    | .ok classes => recoverClassified settings operation classes authority

/-- `readIntegrationJournalFileEvidence` for each file, up to the first failure. -/
def readEvidence : List JournalFile → Action Local Unit
  | [] => pure ()
  | file :: files => do
    issue (.readEvidence file.path)
    readEvidence files

/-- A pass over an operation whose row is `recovering`. The paths of a model row
are those of its evidence. -/
def recoverEvidence (settings : JournalSettings) (operation : JournalOperation)
    (authority : Option JournalAuthority) : Action Local RecoveryResult := do
  let failure ← Procedure.recover
    (do
      readEvidence operation.files
      pure none)
    fun error => pure (some error)
  match failure with
  | some error =>
    if integrationRecoveryErrorIsTransient error then
      pure (.retryable .recovering "integration_journal_evidence_unavailable")
    else recoveryQuarantine .recovering "journal_evidence_unreadable" authority
  | none => recoverBaseline settings operation authority

def recoverSingleIntegrationOperationWhileLocked (settings : JournalSettings)
    (operation : JournalOperation) (authority : Option JournalAuthority) :
    Action Local RecoveryResult :=
  if operation.row.status ∉ recoverableStatuses then
    recoveryQuarantine operation.row.status "journal_status_unknown" authority
  else if operation.row.status = .recovering then recoverEvidence settings operation authority
  else
    recoveryTransition operation.row.status .recovering operation.row.status "recovery_started"
      authority (recoverEvidence settings operation authority)

def requalifiableIntegrationQuarantines : List String :=
  ["repository_state_drift", "target_head_or_index_drift"]

def requalifyStateDriftQuarantine (settings : JournalSettings) (operation : JournalOperation)
    (authority : Option JournalAuthority) : Action Local Bool :=
  if operation.row.resultJson ∉ requalifiableIntegrationQuarantines then pure false
  else
    Procedure.recover
      (do
        let baseline ← integrationRecoveryBaseline operation
        if baseline ≠ .unchanged then pure false
        else
          readEvidence operation.files
          let verified ← verifyRestored settings operation
          match verified with
          | .ok true => do
            issue (.transition ⟨[.quarantined], .recoveredNoop, "pre_state_verified", authority⟩)
            pure true
          | _ => pure false)
      fun _ => pure false

/-- `recoverIntegrationOperationsWhileLocked` for one operation id: `none` when no
unresolved operation has it. `recoveryGeneration` is the fresh generation of a
pass that holds the integration lock. -/
def recoverIntegrationOperationsWhileLocked (settings : JournalSettings) (operationId : String)
    (integrationLock : Bool) (recoveryGeneration : String) :
    Action Local (Option RecoveryResult) := do
  let authority : Option JournalAuthority :=
    if integrationLock then some ⟨true, recoveryGeneration, true⟩ else none
  let operation : Option JournalOperation ← issue (.loadOperation operationId)
  match operation with
  | none => pure none
  | some operation =>
    if operation.row.status = .quarantined then do
      let requalified ← requalifyStateDriftQuarantine settings operation authority
      pure (some (if requalified then .resolved .recoveredNoop
        else .quarantined operation.row.resultJson))
    else do
      let result ← recoverSingleIntegrationOperationWhileLocked settings operation authority
      pure (some result)

end AgentBridge.Journal
