import AgentBridge.Pipelines.Cleanup
import AgentBridge.Pipelines.Gates

/-!
# The finalization of a pipeline

`finalizePipelineRecordWhileLocked`: a long sequence of looks at the record, the checkout and
the gates, each of which may end the attempt with a write of its own. A stage is an
`Except`: an error is the patch that ends the attempt, if it writes one.
-/

namespace AgentBridge.Pipelines

/-! ### What an attempt meets -/

structure FinalizeRuntime where
  host : PipelineRuntime
  isManagedReadOnlyAgent : String → Bool
  /-- The digest of texts joined by null characters. -/
  sha256 : List String → String
  detailsFit : PipelineRecord → Bool

structure FinalizeOptions where
  skipReviewers : Bool
  dryRun : Bool

structure LoadedPolicy where
  sha256 : String
  finalValidationSpec : Option String

structure ValidationRun where
  status : String
  errorType : String
  processTreeUnconfirmed : Bool
  /-- `finalValidationProtectionError`, by its error type -/
  protectionError : Option String

/-- What `readPersistedPipelineChildren` returns; `observed` says that the last event of its
kind lists the same jobs. -/
inductive ChildrenReading where
  | brokenManifest
  | jobs (jobs : List JobSnapshot) (observed : Bool)

structure AttemptOracle where
  /-- The journal, when the finalizer reconciles. -/
  journal : String → Option OperationSummary
  /-- The journal, when the refresh reconciles. -/
  refreshJournal : String → Option OperationSummary
  children : ChildrenReading
  policy : Option LoadedPolicy
  /-- `verifySanitizedWorkspace` before the gates: the type of its error, if any. -/
  sanitizedBefore : String
  beforeState : Option TargetState
  validation : ValidationRun
  afterState : Option TargetState
  abortedAfterValidation : Option String
  /-- The run of a gate; nothing when its promise is rejected. -/
  reviewer : Option GateExecution
  tester : Option GateExecution
  sanitizedAfter : String
  beforeCleanupState : Option TargetState
  abortedBeforeCleanup : Option String
  cleanup : CleanupOracle
  time : Nat

/-! ### Up to the reservation -/

/-- `reconcilePipelineIntegrationOperationStates`, by the finalizer -/
def reconciled (oracle : AttemptOracle) (record : PipelineRecord) :
    PipelineRecord × List PipelineEffect :=
  let changes := journalChanges record oracle.journal
  if changes.isEmpty then (record, [])
  else applyPatch record (reconciliationPatch changes false oracle.time)

def refreshReconciled (oracle : AttemptOracle) (record : PipelineRecord) :
    PipelineRecord × List PipelineEffect :=
  let changes := journalChanges record oracle.refreshJournal
  if changes.isEmpty then (record, [])
  else applyPatch record (guarded (reconciliationPatch changes true oracle.time))

def childrenPatch (oracle : AttemptOracle) : PipelinePatch :=
  match oracle.children with
  | .brokenManifest => brokenManifestPatch oracle.time
  | .jobs jobs observed => refreshPatch jobs observed oracle.time

def refreshed (oracle : AttemptOracle) (record : PipelineRecord) :
    PipelineRecord × List PipelineEffect :=
  if record.status.frozen then (record, [])
  else
    let first := refreshReconciled oracle record
    let second := applyPatch first.1 (childrenPatch oracle)
    (second.1, first.2 ++ second.2)

def pipelineHasPendingIntegrations (record : PipelineRecord) : Bool :=
  record.integrationQueue.any fun item => item.status ≠ .integrated

/-- The policy of the record names a file. -/
def hasPolicyPath (record : PipelineRecord) : Bool :=
  record.policy.any fun policy => policy.1 ≠ ""

def finalValidationSourceOf (record : PipelineRecord) : String :=
  orText record.finalValidationSource
    (if hasPolicyPath record && record.finalValidationCommand ≠ "" then "legacy_unknown"
     else "none")

def finalValidationSourceValid (record : PipelineRecord) : Bool :=
  if record.finalValidationCommand ≠ "" then
    ["caller", "policy"].contains (finalValidationSourceOf record)
  else finalValidationSourceOf record = "none"

def samePolicy (policy : Option LoadedPolicy) (record : PipelineRecord) : Bool :=
  policy.any fun loaded => record.policy.any (fun policy => policy.2 = loaded.sha256)
    && loaded.finalValidationSpec = record.finalValidationSpec

inductive FinalizeStart where
  | stops (patch : Option PipelinePatch)
  | proceeds (events : List AuditEvent)

/-- The audit trail of an attempt. -/
def startedEvents (time : Nat) (record : PipelineRecord) : List AuditEvent :=
  record.events ++ [{ type := "finalization_started", time := time }]

/-- `recordRejection`, which a dry run does not write. -/
def rejectsStart (options : FinalizeOptions) (time : Nat) (record : PipelineRecord)
    (status : Option RecordStatus) (errorType : String) : FinalizeStart :=
  .stops (if options.dryRun then none
    else some (PipelineChanges.plain
      { status := status
        events := some (startedEvents time record)
        errors := some (record.errors ++ [⟨"finalization", errorType, ""⟩]) }))

/-- The status from which a finalization starts, or starts again. -/
def finalizable (record : PipelineRecord) : Bool :=
  record.status = .awaitingFinalization || record.status = .finalizing

/-- The rejections before anything is reserved. -/
def finalizeStart (options : FinalizeOptions) (policy : Option LoadedPolicy) (time : Nat)
    (record : PipelineRecord) : FinalizeStart :=
  if record.status = .completed then .stops none
  else if record.status = .cleanupPending || record.status = .cleanupFailed then .stops none
  else if record.status = .failed || record.status = .cancelled then
    rejectsStart options time record none "pipeline_not_finalizable"
  else if pipelineHasPendingIntegrations record then
    rejectsStart options time record
      (some (if finalizable record then .awaitingIntegration else record.status))
      "pipeline_pending_integrations"
  else if !finalizable record then
    rejectsStart options time record none "pipeline_jobs_incomplete"
  else if options.skipReviewers && (record.reviewerJob.isSome || record.testerJob.isSome) then
    rejectsStart options time record (some .awaitingFinalization)
      "pipeline_configured_gates_required"
  else if !finalValidationSourceValid record then
    rejectsStart options time record (some .awaitingFinalization)
      "policy_validation_command_untrusted"
  else if (finalValidationSourceOf record = "policy"
        || finalValidationSourceOf record = "legacy_unknown")
      && record.finalValidationCommand ≠ "" && record.finalValidationSpec.isNone then
    rejectsStart options time record (some .awaitingFinalization)
      "policy_validation_command_untrusted"
  else if finalValidationSourceOf record = "legacy_unknown"
      && record.finalValidationSpec.isSome then
    .stops none
  else if finalValidationSourceOf record = "policy" && hasPolicyPath record
      && record.finalValidationSpec.isSome && !samePolicy policy record then
    rejectsStart options time record (some .awaitingFinalization)
      "policy_validation_command_untrusted"
  else if options.dryRun then .stops none
  else .proceeds (startedEvents time record)

/-! ### The stages behind the reservation -/

abbrev Stage (α : Type) := Except (Option PipelinePatch) α

/-- `changedFilesBetween`, in the order of the files -/
def changedFilesBetween (before after : List (String × String)) : List String :=
  ((before ++ after).map Prod.fst).dedup.filter fun file =>
    before.lookup file ≠ after.lookup file

def terminalFinalValidationErrorTypes : List String :=
  ["validation_command_failed", "validation_command_untrusted",
    "validation_command_parse_error", "final_validation_required"]

def validationRun (oracle : AttemptOracle) (record : PipelineRecord) : ValidationRun :=
  if record.sanitizedWorkspace then ⟨"manifest_only", "", false, none⟩
  else if oracle.beforeState.isNone then
    ⟨"failed", "final_validation_snapshot_failed", false, none⟩
  else oracle.validation

/-- The result of the validation, once the state after it is compared with the one before. -/
def validatedState (runtime : FinalizeRuntime) (oracle : AttemptOracle) (run : ValidationRun)
    (before : TargetState) : ValidationResult :=
  match oracle.afterState with
  | none => ⟨"failed", "final_validation_snapshot_failed"⟩
  | some after =>
    if trackedTargetStateSha256 runtime.sha256 (some after)
          ≠ trackedTargetStateSha256 runtime.sha256 (some before)
        || !(changedFilesBetween before.ordinarySnapshot after.ordinarySnapshot).isEmpty then
      ⟨"failed", "final_validation_mutated_workspace"⟩
    else ⟨run.status, run.errorType⟩

/-- `finalValidationResult` before it is judged. -/
def finalValidationResultOf (runtime : FinalizeRuntime) (oracle : AttemptOracle)
    (record : PipelineRecord) : ValidationResult :=
  let run := validationRun oracle record
  match record.sanitizedWorkspace, oracle.beforeState with
  | false, some before => validatedState runtime oracle run before
  | _, _ => ⟨run.status, run.errorType⟩

def finalValidation (runtime : FinalizeRuntime) (oracle : AttemptOracle)
    (record : PipelineRecord) : Stage ValidationResult :=
  let run := validationRun oracle record
  let result := finalValidationResultOf runtime oracle record
  let required := !record.integrationQueue.isEmpty
  let errorType := orText result.errorType "final_validation_required"
  if run.processTreeUnconfirmed || run.errorType = "validation_process_tree_unconfirmed" then
    .error (some (deferPatch
      { finalValidationResult := some (some ⟨run.status, run.errorType⟩) } "final_validation"
      (orText run.errorType "validation_process_tree_unconfirmed") oracle.time))
  else if run.protectionError.isSome then
    .error (some (deferPatch
      { finalValidationResult := some (some ⟨run.status, run.errorType⟩) } "final_validation"
      (orText (run.protectionError.getD "") "final_validation_protection_failed") oracle.time))
  else if result.errorType ≠ "" || (required && result.status ≠ "passed") then
    if oracle.abortedAfterValidation.isSome
        || !terminalFinalValidationErrorTypes.contains errorType then
      .error (some (deferPatch { finalValidationResult := some (some result) }
        "final_validation" (oracle.abortedAfterValidation.getD errorType) oracle.time))
    else
      .error (some (PipelineChanges.plain
        { status := some .failed
          finishedAt := some (some oracle.time)
          finalValidationResult := some (some result)
          errors := some (record.errors ++ [⟨"final_validation", errorType, ""⟩])
          events := some (record.events ++
            [{ type := "finalization_failed", time := oracle.time, errorType := errorType }]) }))
  else .ok result

/-- The state of the target after the validation; a sanitized workspace has none. -/
def stateAfterValidation (oracle : AttemptOracle) (record : PipelineRecord) :
    Option TargetState :=
  if record.sanitizedWorkspace then none else oracle.afterState

structure GatesPassed where
  finalValidationResult : ValidationResult
  reviewerResult : Option GateResult
  testerResult : Option GateResult

/-- The results of an attempt, as a part of what it writes. -/
def GatesPassed.changes (passed : GatesPassed) : PipelineChanges where
  finalValidationResult := some (some passed.finalValidationResult)
  reviewerResult := some passed.reviewerResult
  testerResult := some passed.testerResult

/-- The outcome of one gate; nothing when its promise is rejected. -/
def gateOutcome (runtime : FinalizeRuntime) (gateName : String) (gateJob : Option String)
    (execution : Option GateExecution) (checkedTargetStateSha256 : String) :
    Option (Option GateResult) :=
  if gateJob.isNone then some none
  else execution.map fun execution =>
    runPipelineReadOnlyGate runtime.isManagedReadOnlyAgent gateName gateJob execution
      checkedTargetStateSha256

def failedGates (passed : GatesPassed) : List (String × GateResult) :=
  [("reviewer", passed.reviewerResult), ("tester", passed.testerResult)].filterMap
    fun gate => (gate.2.filter fun result => !result.passed).map fun result => (gate.1, result)

/-- A failed gate fails the pipeline, or defers the finalization when it gave no verdict. -/
def judgeGates (oracle : AttemptOracle) (record : PipelineRecord) (passed : GatesPassed) :
    Stage GatesPassed :=
  let terminal := (failedGates passed).find? fun gate =>
    terminalGateErrorTypes.contains gate.2.errorType
  match terminal, (failedGates passed).head? with
  | some (gateName, result), _ =>
    .error (some (PipelineChanges.plain
      { passed.changes with
        status := some .failed
        finishedAt := some (some oracle.time)
        errors := some (record.errors ++ [⟨gateName, result.errorType, ""⟩]) }))
  | none, some (gateName, result) =>
    .error (some (deferPatch passed.changes gateName
      (orText result.errorType (gateName ++ "_gate_failed")) oracle.time))
  | none, none => .ok passed

/-- Both gates, unless they are skipped. -/
def runGates (runtime : FinalizeRuntime) (options : FinalizeOptions) (oracle : AttemptOracle)
    (record : PipelineRecord) (validated : ValidationResult) : Stage GatesPassed :=
  let checked := (stateAfterValidation oracle record).elim "" TargetState.targetStateSha256
  if options.skipReviewers then judgeGates oracle record ⟨validated, none, none⟩
  else
    match gateOutcome runtime "reviewer" record.reviewerJob oracle.reviewer checked,
        gateOutcome runtime "tester" record.testerJob oracle.tester checked with
    | some reviewer, some tester => judgeGates oracle record ⟨validated, reviewer, tester⟩
    | _, _ => .error none

/-- The checks behind the gates. -/
def finalChecks (runtime : FinalizeRuntime) (oracle : AttemptOracle) (record : PipelineRecord)
    (passed : GatesPassed) : Stage GatesPassed :=
  let after := stateAfterValidation oracle record
  if record.sanitizedWorkspace && oracle.sanitizedAfter ≠ "" then
    .error (some (PipelineChanges.plain
      { passed.changes with
        status := some .failed
        finishedAt := some (some oracle.time)
        errors := some (record.errors ++ [⟨"sanitized_workspace", oracle.sanitizedAfter, ""⟩]) }))
  else if after.isSome && (oracle.beforeCleanupState.isNone
      || trackedTargetStateSha256 runtime.sha256 oracle.beforeCleanupState
        ≠ trackedTargetStateSha256 runtime.sha256 after) then
    .error (some (deferPatch passed.changes "finalization"
      "pipeline_target_changed_before_cleanup" oracle.time))
  else
    match oracle.abortedBeforeCleanup with
    | some errorType => .error (some (deferPatch passed.changes "finalization" errorType
        oracle.time))
    | none => .ok passed

/-- Everything between the reservation and the cleanup. -/
def finalizeGates (runtime : FinalizeRuntime) (options : FinalizeOptions)
    (oracle : AttemptOracle) (record : PipelineRecord) : Stage GatesPassed :=
  if record.sanitizedWorkspace && oracle.sanitizedBefore ≠ "" then
    .error (some (PipelineChanges.plain
      { status := some .failed
        finishedAt := some (some oracle.time)
        errors := some (record.errors ++
          [⟨"sanitized_workspace", oracle.sanitizedBefore, ""⟩]) }))
  else do
    let validated ← finalValidation runtime oracle record
    let passed ← runGates runtime options oracle record validated
    finalChecks runtime oracle record passed

/-! ### The cleanup -/

/-- The authorization in the audit trail. -/
def authorizedEvent (runtime : FinalizeRuntime) (oracle : AttemptOracle)
    (record : PipelineRecord) (plan : List PlanEntry) : AuditEvent where
  type := "source_cleanup_authorized"
  time := oracle.time
  targetStateSha256 :=
    (stateAfterValidation oracle record).elim "" TargetState.targetStateSha256
  trackedTargetStateSha256 :=
    trackedTargetStateSha256 runtime.sha256 (stateAfterValidation oracle record)
  worktrees := plan.filterMap PlanEntry.authorization

/-- The write of `authorizeCleanup`. -/
def authorizationChanges (runtime : FinalizeRuntime) (oracle : AttemptOracle)
    (record : PipelineRecord) (passed : GatesPassed) (plan : List PlanEntry) : PipelineChanges :=
  { passed.changes with
    status := some .cleanupPending
    finishedAt := some none
    sourceCleanupResults := some (plan.map PlanEntry.written)
    cleanupPending := some true
    cleanupState := some "authorized"
    events := some (record.events ++
      [{ type := "finalization_gates_passed", time := oracle.time },
       authorizedEvent runtime oracle record plan]) }

/-- The last write of an attempt. -/
def completionChanges (oracle : AttemptOracle) (record : PipelineRecord) (passed : GatesPassed)
    (results : List CleanupResult) : PipelineChanges :=
  { passed.changes with
    status := some (if hasFailures results then .cleanupFailed else .completed)
    finishedAt := some (if hasFailures results then none
      else record.finishedAt.or (some oracle.time))
    sourceCleanupResults := some results
    cleanupPending := some (hasFailures results)
    cleanupState := some (cleanupStateOf results)
    events := some (record.events
      ++ (if record.events.any fun event => event.type = "finalization_completed" then []
          else [{ type := "finalization_completed", time := oracle.time }])
      ++ [{ type := "source_cleanup_completed", time := oracle.time }]) }

/-- The record with the authorization, and its write; without one there is nothing to do. -/
def authorizedUpdate (runtime : FinalizeRuntime) (oracle : AttemptOracle)
    (record : PipelineRecord) (passed : GatesPassed) : PipelineRecord × List PipelineEffect :=
  let plan := cleanupPlan runtime.host record none oracle.cleanup.look
  if (plan.filterMap PlanEntry.authorization).isEmpty then (record, [])
  else applyPatch record (authorizationChanges runtime oracle record passed plan).plain

/-- The authorization, the removals and the last write. -/
def cleanupEffects (runtime : FinalizeRuntime) (oracle : AttemptOracle)
    (record : PipelineRecord) (passed : GatesPassed) : List PipelineEffect :=
  let plan := cleanupPlan runtime.host record none oracle.cleanup.look
  let authorized := authorizedUpdate runtime oracle record passed
  let results := cleanupResults oracle.cleanup plan
  authorized.2 ++ (cleanupRemovals oracle.cleanup plan
    ++ (applyPatch authorized.1
      (completionChanges oracle authorized.1 passed results).plain).2)

/-! ### An attempt -/

/-- What the reservation is followed by. -/
def gatedEffects (runtime : FinalizeRuntime) (options : FinalizeOptions)
    (oracle : AttemptOracle) (record : PipelineRecord) : List PipelineEffect :=
  match finalizeGates runtime options oracle record with
  | .error (some patch) => (applyPatch record patch).2
  | .error none => []
  | .ok passed => cleanupEffects runtime oracle record passed

def attemptRecord (oracle : AttemptOracle) (record : PipelineRecord) : PipelineRecord :=
  (refreshed oracle (reconciled oracle record).1).1

/-- `finalizePipelineRecordWhileLocked`. A dry run works on a copy and writes nothing. -/
def finalizePipelineRecordWhileLocked (runtime : FinalizeRuntime) (options : FinalizeOptions)
    (oracle : AttemptOracle) (record : PipelineRecord) : List PipelineEffect :=
  let refreshes := (reconciled oracle record).2 ++ (refreshed oracle (reconciled oracle record).1).2
  let current := attemptRecord oracle record
  match finalizeStart options oracle.policy oracle.time current with
  | .stops none => if options.dryRun then [] else refreshes
  | .stops (some patch) => refreshes ++ (applyPatch current patch).2
  | .proceeds events =>
    match finalizingPatch events current with
    | .changes changes =>
      let reserved := updateCandidate current changes
      refreshes ++ .write reserved :: gatedEffects runtime options oracle reserved
    | .unchanged => refreshes
    | .refused _ => refreshes

/-! ### Attempts, recoveries and crashes -/

/-- A source that was removed, and the row at that time. -/
structure Removal where
  item : IntegrationItem
  authorization : CleanupAuthorization
  source : SourceView
  row : PipelineRecord

structure FinalizationState where
  row : PipelineRecord
  removals : List Removal

/-- An attempt or a recovery carries out its first effects, all of them if it does not crash. -/
inductive FinalizationEvent where
  | attempt (options : FinalizeOptions) (oracle : AttemptOracle) (carried : Nat)
  | recover (oracle : RecoveryOracle) (carried : Nat)
  /-- Another operation of the bridge rewrites a pipeline whose gates have not passed. -/
  | update (record : PipelineRecord)

def RecordStatus.gatesPassed : RecordStatus → Bool
  | .completed | .cleanupPending | .cleanupFailed => true
  | _ => false

def FinalizeRuntime.store (runtime : FinalizeRuntime) : StoreRuntime PipelinePatch :=
  ⟨id, runtime.detailsFit⟩

def carryOutEffect (runtime : FinalizeRuntime) (s : FinalizationState) :
    PipelineEffect → FinalizationState
  | .write candidate => { s with row := storedRecord runtime.store candidate }
  | .remove item authorization source =>
    { s with removals := s.removals ++ [⟨item, authorization, source, s.row⟩] }

/-- The effects of an event, up to its crash. The recovery looks for pipelines whose cleanup
is pending or has failed. -/
def eventEffects (runtime : FinalizeRuntime) (row : PipelineRecord) :
    FinalizationEvent → List PipelineEffect
  | .attempt options oracle carried =>
    (finalizePipelineRecordWhileLocked runtime options oracle row).take carried
  | .recover oracle carried =>
    if row.status = .cleanupPending || row.status = .cleanupFailed then
      (resumeAuthorizedPipelineCleanup runtime.host runtime.sha256 oracle row).take carried
    else []
  | .update record =>
    if row.status.gatesPassed || record.status.gatesPassed then [] else [.write record]

def finalizationStep (runtime : FinalizeRuntime) (s : FinalizationState)
    (event : FinalizationEvent) : FinalizationState :=
  Systems.run (carryOutEffect runtime) s (eventEffects runtime s.row event)

end AgentBridge.Pipelines
