import AgentBridge.Integration.Overlaps
import AgentBridge.Queue.AutoIntegration
import AgentBridge.Redaction.Patterns
import AgentBridge.Systems.Chunks
import AgentBridge.Systems.Program

/-!
# The auto-integration of a group of jobs

`autoIntegrateQueueJobs` and `autoIntegrateBatch` as procedures over what they await: the
claims on the rows, the integration engine, the records of the outcomes and the integration of
one job alone. Every one of these may answer anything or throw.
-/

namespace AgentBridge.Queue.Batches

open Paths Redaction Systems
open Integration (isHexDigit isLowerHexDigit integrationBatchOverlaps)

/-! ## Jobs and their source identity -/

structure SourceRecord where
  worktreeBaseCommit : Text
  worktreePatchSha256 : Text
  worktreeSourceStateSha256 : Text

structure SourceIdentity where
  sourceBaseCommit : Text
  patchSha256 : Text
  sourceStateSha256 : Text

/-- `/^[a-f0-9]{64}$/i` -/
def isSha256 (value : Text) : Bool := value.length == 64 && value.all isHexDigit

/-- `/^(?:[a-f0-9]{40}|[a-f0-9]{64})$/i` -/
def isCommitId (value : Text) : Bool :=
  (value.length == 40 || value.length == 64) && value.all isHexDigit

def autoIntegrationSourceIdentity (record : Option SourceRecord) : Option SourceIdentity :=
  match record with
  | none => none
  | some record =>
    if isCommitId record.worktreeBaseCommit && isSha256 record.worktreePatchSha256
        && isSha256 record.worktreeSourceStateSha256 then
      some ⟨record.worktreeBaseCommit, record.worktreePatchSha256,
        record.worktreeSourceStateSha256⟩
    else none

structure ScheduledJob where
  cwd : PathText
  jobId : String
  agent : Text
  model : Text
  worktreePath : PathText
  allowedEdits : List PathText
  forbiddenEdits : List PathText
  sharedFiles : List PathText
  serialOnly : List PathText
  validationCommand : Text
  sourceRecord : Option SourceRecord
  changedFiles : List PathText
  laterAttempt : Nat

/-- A member of a batch: a claimed job with its place in the group. -/
structure Member where
  index : Nat
  job : ScheduledJob
  projectRoot : PathText
  identity : SourceIdentity

def indexes (members : List Member) : List Nat := members.map Member.index

/-! ## Answers -/

structure Thrown where
  errorType : String
  message : Text

structure Claim where
  patched : Bool
  reason : String
  current : String

structure CleanupResult where
  cleanup : Text
  reason : Text
  error : Text

structure PatchFile where
  path : PathText
  created : Bool
  deleted : Bool

structure BatchItem where
  changedFiles : List PathText
  sourceCleanup : Option CleanupResult

structure CommitResult where
  ok : Bool
  errorType : String
  error : Text
  commit : Text
  authorName : Text
  headRetries : Nat
  indexWarning : Text

structure EngineAnswer where
  ok : Bool
  errorType : String
  error : Text
  batchItemNumbers : List Int
  patchFiles : List PatchFile
  batchItems : List BatchItem
  previewReceipt : Text
  /-- `validationGate?.status === "passed"` -/
  validationPassed : Bool
  afterApply : Option CommitResult
  sourceCleanup : Option CleanupResult

structure OutcomeFields where
  status : AutoIntegrationStatus
  stage : String
  errorType : String
  error : Text
  worktreePath : PathText
  commit : Text
  files : List PathText
  author : Text
  worktreeCleanup : Text
  /-- The job ids of the batch. -/
  batch : List String
  worktreeSweepDone : Bool
  headRetries : Nat
  indexWarning : Text

inductive Outcome where
  | notClaimed (reason current : String)
  | recorded (fields : OutcomeFields)
  /-- The batch applied and the record could not be written. -/
  | unrecorded (status : AutoIntegrationStatus) (recordError : Text)
  /-- A job that waits for a lock outside the chain. -/
  | retryLater

/-! ## What the group awaits -/

structure BatchOptions where
  cwd : PathText
  items : List (PathText × List PathText × SourceIdentity)
  allowedEdits : List PathText
  forbiddenEdits : List PathText
  sharedFiles : List PathText
  serialOnly : List PathText
  validationCommand : Text

/-- The calls that the group awaits. A call for a batch or a job says which places of the group
it is for; the callee does not see these. -/
inductive Command where
  | resolveProjectStateRoot (cwd : PathText)
  | claimAutoIntegration (projectRoot : PathText) (jobId : String)
  | existsSync (path : PathText)
  | alreadyCommittedInTarget (projectRoot worktreePath : PathText) (changedFiles : List PathText)
  /-- The dry run of a batch. -/
  | previewBatch (members : List Nat) (options : BatchOptions)
  /-- The reviewed apply, with the hooks that commit it. -/
  | applyBatch (members : List Nat) (options : BatchOptions) (previewReceipt : Text)
      (jobIds : List String)
  | delayWithSignal (round : Nat)
  | removeIntegratedWorktree (projectRoot worktreePath : PathText) (commit : Text)
      (jobId : String) (identity : SourceIdentity)
  | recordAutoIntegrationOutcome (projectRoot : PathText) (jobId : String)
      (fields : OutcomeFields) (worktreePath : PathText)
  | autoIntegrateQueueJob (index : Nat) (job : ScheduledJob)

abbrev Reply : Command → Type
  | .resolveProjectStateRoot _ => PathText
  | .claimAutoIntegration _ _ => Claim
  | .existsSync _ => Bool
  | .alreadyCommittedInTarget _ _ _ => Bool
  | .previewBatch _ _ => EngineAnswer
  | .applyBatch _ _ _ _ => EngineAnswer
  | .delayWithSignal _ => Unit
  | .removeIntegratedWorktree _ _ _ _ _ => CleanupResult
  | .recordAutoIntegrationOutcome _ _ _ _ => OutcomeFields
  | .autoIntegrateQueueJob _ _ => Outcome

abbrev Action (α : Type) := Procedure Command Reply Unit Thrown α

def resolveProjectStateRoot (cwd : PathText) : Action PathText :=
  Procedure.call (Command.resolveProjectStateRoot cwd)

def claimAutoIntegration (projectRoot : PathText) (jobId : String) : Action Claim :=
  Procedure.call (Command.claimAutoIntegration projectRoot jobId)

def existsSync (path : PathText) : Action Bool := Procedure.call (Command.existsSync path)

def alreadyCommittedInTarget (projectRoot worktreePath : PathText)
    (changedFiles : List PathText) : Action Bool :=
  Procedure.call (Command.alreadyCommittedInTarget projectRoot worktreePath changedFiles)

def previewBatch (members : List Member) (options : BatchOptions) : Action EngineAnswer :=
  Procedure.call (Command.previewBatch (indexes members) options)

def applyBatch (members : List Member) (options : BatchOptions) (previewReceipt : Text) :
    Action EngineAnswer :=
  Procedure.call (Command.applyBatch (indexes members) options previewReceipt
    (members.map fun member => member.job.jobId))

def delayWithSignal (round : Nat) : Action Unit := Procedure.call (Command.delayWithSignal round)

def removeIntegratedWorktree (member : Member) (commit : Text) : Action CleanupResult :=
  Procedure.call (Command.removeIntegratedWorktree member.projectRoot member.job.worktreePath commit
    member.job.jobId member.identity)

def recordAutoIntegrationOutcome (member : Member) (fields : OutcomeFields)
    (worktreePath : PathText) : Action OutcomeFields :=
  Procedure.call (Command.recordAutoIntegrationOutcome member.projectRoot member.job.jobId fields
    worktreePath)

def autoIntegrateQueueJob (index : Nat) (job : ScheduledJob) : Action Outcome :=
  Procedure.call (Command.autoIntegrateQueueJob index job)

/-! ## Records of a batch that applied -/

def failureSummary (text : Text) : Text := (redactSensitiveText (text.take 16000)).take 400

def noFields (status : AutoIntegrationStatus) : OutcomeFields where
  status := status
  stage := ""
  errorType := ""
  error := []
  worktreePath := []
  commit := []
  files := []
  author := []
  worktreeCleanup := []
  batch := []
  worktreeSweepDone := false
  headRetries := 0
  indexWarning := []

/-- `recordAutoIntegrationFailure` at the apply or at the commit -/
def recordAutoIntegrationFailure (member : Member) (stage : String) (status : AutoIntegrationStatus)
    (errorType : String) (error : Text) : Action OutcomeFields :=
  recordAutoIntegrationOutcome member
    { noFields status with
      stage := stage
      errorType := if errorType = "" then "auto_integration_failed" else errorType
      error := (redactSensitiveText error).take 500
      worktreePath := if stage = "commit" then [] else member.job.worktreePath } []

/-- A cleanup with its reason in brackets. -/
def cleanupText (result : CleanupResult) : Text :=
  result.cleanup ++
    if result.reason = [] then [] else " (".toList ++ result.reason ++ ")".toList

def cleanupLabel (result : CleanupResult) : Text :=
  cleanupText result ++
    if result.error = [] then [] else ": ".toList ++ result.error.take 200

/-- The removal of a worktree for which the engine took no cleanup decision. -/
def cleanUpAfterCommit (member : Member) (item : Option BatchItem) (answer : EngineAnswer)
    (commit : Text) : Action Text := do
  let cleanup := ((item.bind BatchItem.sourceCleanup).map cleanupText).getD []
  let present ← existsSync member.job.worktreePath
  if present && (item.bind BatchItem.sourceCleanup).isNone && answer.sourceCleanup.isNone then do
    let removal ← (removeIntegratedWorktree member commit).recover fun error =>
      pure ⟨"failed".toList, [], error.message⟩
    pure ((if cleanup = [] then [] else cleanup ++ "; ".toList) ++ "after commit: ".toList ++
      cleanupLabel removal)
  else pure cleanup

/-- The record of a member whose batch was committed. -/
def recordCommitted (jobIds : List String) (answer : EngineAnswer) (committed : CommitResult)
    (position : Nat) (member : Member) : Action OutcomeFields := do
  let item := answer.batchItems[position]?
  let cleanup ← cleanUpAfterCommit member item answer committed.commit
  let itemFiles := (item.map BatchItem.changedFiles).getD []
  recordAutoIntegrationOutcome member
    { noFields .committed with
      commit := committed.commit
      files := if itemFiles = [] then member.job.changedFiles else itemFiles
      author := committed.authorName
      worktreeCleanup := cleanup
      batch := jobIds
      worktreeSweepDone :=
        (item.bind BatchItem.sourceCleanup).isSome || answer.sourceCleanup.isSome
      headRetries := committed.headRetries
      indexWarning := committed.indexWarning } member.job.worktreePath

/-- `settle`: a record that cannot be written is only noted in the outcome. -/
def settle (record : Nat → Member → Action OutcomeFields) (status : AutoIntegrationStatus) :
    Nat → List Member → Action (List (Nat × Outcome))
  | _, [] => pure []
  | position, member :: members => do
    let outcome ← (do
      let fields ← record position member
      pure (Outcome.recorded fields)).recover fun error =>
        pure (Outcome.unrecorded status (failureSummary error.message))
    let outcomes ← settle record status (position + 1) members
    pure ((member.index, outcome) :: outcomes)

/-- What a batch that applied comes to. -/
def settleApplied (current : List Member) (answer : EngineAnswer) :
    Action (List (Nat × Outcome)) :=
  if !answer.validationPassed then
    settle (fun _ member => recordAutoIntegrationFailure member "apply" .failed answer.errorType
      answer.error) .failed 0 current
  else
    match answer.afterApply with
    | none =>
      settle (fun _ member => recordAutoIntegrationFailure member "commit" .appliedNotCommitted
        "auto_integration_commit_missing" "The integration ran no commit step.".toList)
        .appliedNotCommitted 0 current
    | some committed =>
      if !committed.ok then
        settle (fun _ member => recordAutoIntegrationFailure member "commit" .appliedNotCommitted
          committed.errorType committed.error) .appliedNotCommitted 0 current
      else
        settle (recordCommitted (current.map fun member => member.job.jobId) answer committed)
          .committed 0 current

/-! ## A batch -/

def autoIntegrationBatchDryRuns : Nat := 4

def autoIntegrationRounds : Nat := 3

def autoIntegrationRetryableErrors : List String :=
  ["integration_lock_conflict", "integration_preview_stale", "integration_recovery_pending"]

/-- The outcomes of the jobs that were settled, in the order in which they were set, and the
indexes that are left for the one-by-one path. -/
structure BatchResult where
  landed : List (Nat × Outcome)
  rest : List Nat

def batchOptions (first : Member) (current : List Member) : BatchOptions where
  cwd := first.projectRoot
  items := current.map fun member =>
    (member.job.worktreePath, member.job.allowedEdits, member.identity)
  allowedEdits := current.flatMap fun member => member.job.allowedEdits
  forbiddenEdits := first.job.forbiddenEdits
  sharedFiles := first.job.sharedFiles
  serialOnly := first.job.serialOnly
  validationCommand := first.job.validationCommand

def namedItems (answer : EngineAnswer) (count : Nat) : List Nat :=
  ((answer.batchItemNumbers.map fun number : Int => number - 1).filter fun position : Int =>
    0 ≤ position && position < count).map Int.toNat

/-- The members whose position satisfies the test. -/
def membersAt (keep : Nat → Bool) (current : List Member) : List Member :=
  (current.zipIdx.filter fun entry => keep entry.2).map Prod.fst

/-- `createdByPath`: a path that is listed twice has its last entry. -/
def createdByPath (files : List PatchFile) (path : PathText) : Option Bool :=
  (files.reverse.find? fun file => file.path == path).map fun file => file.created && !file.deleted

/-- The files of the preview cannot be attributed to its items. -/
def unattributed (answer : EngineAnswer) (count : Nat) : Bool :=
  answer.batchItems.length != count
    || answer.patchFiles.any fun file =>
      !(answer.batchItems.flatMap BatchItem.changedFiles).contains file.path

/-- The item at the position has files, and all of them are new. -/
def allNew (answer : EngineAnswer) (position : Nat) : Bool :=
  let files := (answer.batchItems[position]?.map BatchItem.changedFiles).getD []
  !files.isEmpty && files.all fun file => createdByPath answer.patchFiles file == some true

/-- What one dry run and, where it allows one, the apply come to. -/
inductive Round where
  /-- A refusal that names no item: it may pass on a later try. -/
  | refused (errorType : String)
  | fallBack
  | dropped (positions : List Nat)
  | applied (answer : EngineAnswer)

def batchRound (first : Member) (current : List Member) : Action Round := do
  let preview ← previewBatch current (batchOptions first current)
  if !preview.ok then
    let named := namedItems preview current.length
    if named = [] then pure (.refused preview.errorType) else pure (.dropped named)
  else if unattributed preview current.length then pure .fallBack
  else
    let notNew := (List.range current.length).filter fun position => !allNew preview position
    if notNew ≠ [] then pure (.dropped notNew)
    else do
      let applied ← applyBatch current (batchOptions first current) preview.previewReceipt
      if !applied.ok then pure (.refused applied.errorType) else pure (.applied applied)

/-- The dry runs of a batch. -/
def batchLoop (first : Member) (dryRuns retries : Nat) (current : List Member)
    (landed : List (Nat × Outcome)) (rest : List Nat) : Action BatchResult :=
  if _ : dryRuns < autoIntegrationBatchDryRuns + retries ∧ 1 < current.length then do
    match ← batchRound first current with
    | .refused errorType =>
      if _ : errorType ∈ autoIntegrationRetryableErrors
          ∧ retries < autoIntegrationRounds - 1 then do
        delayWithSignal retries
        batchLoop first (dryRuns + 1) (retries + 1) current landed rest
      else pure ⟨landed, rest ++ indexes current⟩
    | .fallBack => pure ⟨landed, rest ++ indexes current⟩
    | .dropped positions =>
      batchLoop first (dryRuns + 1) retries
        (membersAt (fun position => !positions.contains position) current) landed
        (rest ++ indexes (membersAt positions.contains current))
    | .applied answer => do
      let outcomes ← settleApplied current answer
      pure ⟨landed ++ outcomes, rest⟩
  else pure ⟨landed, rest ++ indexes current⟩
termination_by (autoIntegrationRounds - 1 - retries) +
  (autoIntegrationBatchDryRuns + retries - dryRuns)
decreasing_by all_goals omega

def renewClaims : List Member → Action (List Member × List (Nat × Outcome))
  | [] => pure ([], [])
  | member :: members => do
    let claim ← claimAutoIntegration member.projectRoot member.job.jobId
    let (renewed, landed) ← renewClaims members
    if claim.patched then pure (member :: renewed, landed)
    else pure (renewed, (member.index, .notClaimed claim.reason claim.current) :: landed)

def autoIntegrateBatch (first : Member) (members : List Member) : Action BatchResult := do
  let (renewed, landed) ← renewClaims (first :: members)
  batchLoop first 0 0 renewed landed []

/-! ## A group -/

def integrationBatchMaxItems : Nat := 25

/-- What two members of one batch have in common: `autoIntegrationBatchKey`. -/
structure BatchKey where
  projectRoot : PathText
  forbiddenEdits : List PathText
  sharedFiles : List PathText
  serialOnly : List PathText
  validationCommand : Text
  deriving DecidableEq

def sortedPaths (paths : List PathText) : List PathText :=
  (normalizeLockPathList paths).insertionSort (· ≤ ·)

def autoIntegrationBatchKey (projectRoot : PathText) (job : ScheduledJob) : BatchKey where
  projectRoot := projectRoot
  forbiddenEdits := sortedPaths job.forbiddenEdits
  sharedFiles := sortedPaths job.sharedFiles
  serialOnly := sortedPaths job.serialOnly
  validationCommand := trim job.validationCommand

/-- Where a job of the group goes. -/
inductive Place where
  | notClaimed (reason current : String)
  | alone
  | batch (key : BatchKey) (member : Member)

/-- A claimed job goes alone when its record has no identity, its worktree is missing or its
files are in HEAD. -/
def place (index : Nat) (job : ScheduledJob) : Action Place := do
  let projectRoot ← resolveProjectStateRoot job.cwd
  let claim ← claimAutoIntegration projectRoot job.jobId
  if !claim.patched then pure (.notClaimed claim.reason claim.current)
  else
    match autoIntegrationSourceIdentity job.sourceRecord with
    | none => pure .alone
    | some identity =>
      if job.worktreePath = [] then pure .alone
      else do
        let present ← existsSync job.worktreePath
        if !present then pure .alone
        else do
          let already ← (alreadyCommittedInTarget projectRoot job.worktreePath
            job.changedFiles).recover fun _ => pure false
          if already then pure .alone
          else pure (.batch (autoIntegrationBatchKey projectRoot job)
            ⟨index, job, projectRoot, identity⟩)

/-- The group after its first pass. -/
structure Sorted where
  outcomes : List (Nat × Outcome)
  alone : List Nat
  partitions : List (BatchKey × List Member)

def addToPartition (key : BatchKey) (member : Member) :
    List (BatchKey × List Member) → List (BatchKey × List Member)
  | [] => [(key, [member])]
  | partition :: partitions =>
    if partition.1 = key then (key, partition.2 ++ [member]) :: partitions
    else partition :: addToPartition key member partitions

def Sorted.add (sorted : Sorted) (index : Nat) : Place → Sorted
  | .notClaimed reason current =>
    { sorted with outcomes := sorted.outcomes ++ [(index, .notClaimed reason current)] }
  | .alone => { sorted with alone := sorted.alone ++ [index] }
  | .batch key member =>
    { sorted with partitions := addToPartition key member sorted.partitions }

def sortJobs : Nat → List ScheduledJob → Sorted → Action Sorted
  | _, [], sorted => pure sorted
  | index, job :: jobs, sorted => do
    let found ← (place index job).recover fun _ => pure .alone
    sortJobs (index + 1) jobs (sorted.add index found)

/-- The members that write no path an earlier one writes, and the places of the others. -/
def apart (platform : Platform) : List PathText → List Member → List Member × List Nat
  | _, [] => ([], [])
  | taken, member :: members =>
    let files := normalizeLockPathList member.job.changedFiles
    if integrationBatchOverlaps platform [taken, files] ≠ [] then
      let (disjoint, overlapping) := apart platform taken members
      (disjoint, member.index :: overlapping)
    else
      let (disjoint, overlapping) := apart platform (taken ++ files) members
      (member :: disjoint, overlapping)

/-- A chunk of one member is no batch; a batch that throws leaves all of its members. -/
def landChunk : List Member → Action BatchResult
  | first :: second :: members =>
    (autoIntegrateBatch first (second :: members)).recover fun _ =>
      pure ⟨[], indexes (first :: second :: members)⟩
  | chunk => pure ⟨[], indexes chunk⟩

def landChunks : List (List Member) → Action BatchResult
  | [] => pure ⟨[], []⟩
  | chunk :: chunks => do
    let result ← landChunk chunk
    let results ← landChunks chunks
    pure ⟨result.landed ++ results.landed, result.rest ++ results.rest⟩

/-- The partitions one after the other, in slices of at most `INTEGRATION_BATCH_MAX_ITEMS`. -/
def landPartitions (platform : Platform) : List (BatchKey × List Member) → Action BatchResult
  | [] => pure ⟨[], []⟩
  | partition :: partitions => do
    let (disjoint, overlapping) := apart platform [] partition.2
    let result ← landChunks (chunks 0 integrationBatchMaxItems 0 (fun _ => 0) disjoint)
    let results ← landPartitions platform partitions
    pure ⟨result.landed ++ results.landed, overlapping ++ result.rest ++ results.rest⟩

/-- The one-by-one path; a job whose integration throws has no outcome. -/
def integrateAlone (jobs : List ScheduledJob) :
    List Nat → List (Option Outcome) → Action (List (Option Outcome))
  | [], outcomes => pure outcomes
  | index :: rest, outcomes =>
    match jobs[index]? with
    | none => integrateAlone jobs rest outcomes
    | some job => do
      let outcome ← (do
        let outcome ← autoIntegrateQueueJob index job
        pure (some outcome)).recover fun _ => pure none
      integrateAlone jobs rest (outcomes.set index outcome)

def setOutcomes (entries : List (Nat × Outcome)) (outcomes : List (Option Outcome)) :
    List (Option Outcome) :=
  entries.foldl (fun outcomes entry => outcomes.set entry.1 (some entry.2)) outcomes

def autoIntegrateQueueJobs (platform : Platform) (batchEnabled : Bool)
    (jobs : List ScheduledJob) : Action (List (Option Outcome)) :=
  let none := List.replicate jobs.length (none : Option Outcome)
  match jobs with
  | [job] => do
    let outcome ← autoIntegrateQueueJob 0 job
    pure [some outcome]
  | jobs =>
    if jobs.length < 2 || !batchEnabled then integrateAlone jobs (List.range jobs.length) none
    else do
      let sorted ← sortJobs 0 jobs ⟨[], [], []⟩
      let result ← landPartitions platform sorted.partitions
      let alone := (sorted.alone ++ result.rest).dedup.insertionSort (· ≤ ·)
      integrateAlone jobs alone (setOutcomes (sorted.outcomes ++ result.landed) none)

/-! ## Runs -/

/-- A call with its answer. -/
abbrev Event := (command : Command) × Except Thrown (Reply command)

abbrev History := List Event

/-- What the outside answers to each call. -/
abbrev Answers := (command : Command) → Except Thrown (Reply command)

/-- Every call is answered and noted. -/
def perform (answers : Answers) (history : History) (command : Command) :
    History × Except Thrown (Reply command) :=
  (history ++ [⟨command, answers command⟩], answers command)

end AgentBridge.Queue.Batches
