import AgentBridge.Pipelines.Record
import AgentBridge.Redaction.Persisted

/-!
# How a pipeline record is stored

A record as the object that the store writes and reads: the redacted summary, the private
details with their shorter form, the replay request, and the read that puts them together.
An encrypted column is what it decrypts to; the envelope bound of the decryption is kept.
-/

namespace AgentBridge.Pipelines.Storage

open Redaction Systems

structure StorageHost extends TextHost where
  /-- `Buffer.byteLength(JSON.stringify(value), "utf8")` -/
  jsonBytes : Json → Nat
  /-- `JSON.stringify(value)` -/
  stringify : Json → Text
  maxSnapshotFileBytes : Nat

/-! ## Reading an object -/

def emptyText : Json := .text []

def emptyArray : Json := .array []

def number (value : Nat) : Json := .number (toString value)

/-- `record[name] || other` -/
def fieldOr (record : Fields) (name : String) (other : Json) : Json :=
  Json.orElse (record.lookup name) other

/-- `Boolean(record[name])` -/
def flag (record : Fields) (name : String) : Json :=
  .bool ((record.lookup name).any Json.truthy)

/-- `Number(value || 0)` of a number -/
def numberOf : Option Json → Json
  | some (.number literal) => .number literal
  | _ => number 0

def fieldsOf : Json → Fields
  | .object fields => fields
  | _ => []

def itemsOf : Json → List Json
  | .array items => items
  | _ => []

section

variable (host : StorageHost)

/-- The length and the hash of `String(value || "")`, under the names that begin with
`name`. -/
def textFingerprint (name : String) (value : Option Json) : Fields :=
  let text := host.string (value.getD .null)
  [(name ++ "Chars", number text.length), (name ++ "Sha256", .text (host.sha256 text))]

def commandFingerprintFields (value : Option Json) : Fields :=
  textFingerprint host "validationCommand" value

def scopeContractDurableSummary (contract : Option Json) : Json :=
  match contract with
  | none => .null
  | some contract =>
    if !contract.truthy then .null
    else
      let fields := fieldsOf contract
      let alreadySummarized := !(fields.lookup "validationCommand").any Json.truthy
        && (fields.lookup "validationCommandSha256").isSome
        && (fields.lookup "validationCommandChars").isSome
      let fingerprint :=
        if alreadySummarized then
          [("validationCommandChars", fieldOr fields "validationCommandChars" .null),
            ("validationCommandSha256", fieldOr fields "validationCommandSha256" .null)]
        else commandFingerprintFields host (fields.lookup "validationCommand")
      sanitizePersistedValue host.toTextHost
        (.object ((fields.assign [("validationCommand", emptyText)]).assign fingerprint))

/-! ## The private details -/

def lastEvent (events : Json) (type : String) : Option Json :=
  (itemsOf events).reverse.find? fun event =>
    match event.field "type" with
    | some (.text value) => value == type.toList
    | _ => false

/-- The details before it is known whether they fit. -/
def fullDetails (record : Fields) : Fields :=
  sanitizeFields host.toTextHost
    [("policy", fieldOr record "policy" .null),
      ("jobs", fieldOr record "jobs" emptyArray),
      ("lockPlans", fieldOr record "lockPlans" emptyArray),
      ("integrationQueue", fieldOr record "integrationQueue" emptyArray),
      ("finalValidationCommand", fieldOr record "finalValidationCommand" emptyText),
      ("finalValidationSpec", fieldOr record "finalValidationSpec" .null),
      ("finalValidationResult", fieldOr record "finalValidationResult" .null),
      ("reviewerJob", fieldOr record "reviewerJob" .null),
      ("reviewerResult", fieldOr record "reviewerResult" .null),
      ("testerJob", fieldOr record "testerJob" .null),
      ("testerResult", fieldOr record "testerResult" .null),
      ("sourceCleanupResults", fieldOr record "sourceCleanupResults" emptyArray),
      ("events", fieldOr record "events" emptyArray),
      ("errors", fieldOr record "errors" emptyArray),
      ("sanitizedWorkspaceAttestation", fieldOr record "sanitizedWorkspaceAttestation" .null)]

/-- What is kept of details that do not fit. -/
def truncatedDetails (details : Fields) : Fields :=
  sanitizeFields host.toTextHost
    [("policy", fieldOr details "policy" .null),
      ("jobs", emptyArray),
      ("lockPlans", fieldOr details "lockPlans" emptyArray),
      ("integrationQueue", fieldOr details "integrationQueue" emptyArray),
      ("finalValidationCommand", fieldOr details "finalValidationCommand" emptyText),
      ("finalValidationSpec", fieldOr details "finalValidationSpec" .null),
      ("reviewerJob", .null),
      ("testerJob", .null),
      ("sourceCleanupResults", fieldOr details "sourceCleanupResults" emptyArray),
      ("events", .array
        (lastEvent (fieldOr details "events" emptyArray) "source_cleanup_authorized").toList),
      ("errors", emptyArray),
      ("truncated", .bool true),
      ("originalChars", number (host.stringify (.object details)).length),
      ("originalSha256", .text (host.sha256 (host.stringify (.object details))))]

/-- The full details are at most `maxSnapshotFileBytes` long. -/
def detailsFit (record : Fields) : Bool :=
  host.jsonBytes (.object (fullDetails host record)) ≤ host.maxSnapshotFileBytes

def pipelinePrivateDetails (record : Fields) : Fields :=
  if detailsFit host record then fullDetails host record
  else truncatedDetails host (fullDetails host record)

/-! ## The durable summary -/

/-- `finalValidationSource`, or what stands in for a missing one. -/
def finalValidationSourceOf (record : Fields) : Json :=
  Json.orElse (record.lookup "finalValidationSource")
    (if ((record.lookup "policy").bind (·.field "path")).any Json.truthy
        && (record.lookup "finalValidationCommand").any Json.truthy then
      .ofString "legacy_unknown"
    else .ofString "none")

def pipelineRecordSnapshot (record : Fields) : Fields :=
  sanitizeFields host.toTextHost
    [("pipelineId", (record.lookup "pipelineId").getD .null),
      ("revision", numberOf (record.lookup "revision")),
      ("ownerInstanceId", fieldOr record "ownerInstanceId" emptyText),
      ("ownerGeneration", fieldOr record "ownerGeneration" emptyText),
      ("ownerHeartbeatAt", fieldOr record "ownerHeartbeatAt" emptyText),
      ("ownerLeaseExpiresAt", fieldOr record "ownerLeaseExpiresAt" emptyText),
      ("name", fieldOr record "name" emptyText),
      ("cwd", fieldOr record "cwd" emptyText),
      ("status", (record.lookup "status").getD .null),
      ("createdAt", (record.lookup "createdAt").getD .null),
      ("updatedAt", (record.lookup "updatedAt").getD .null),
      ("startedAt", fieldOr record "startedAt" emptyText),
      ("finishedAt", fieldOr record "finishedAt" emptyText),
      ("strategy", fieldOr record "strategy" (.ofString "queue")),
      ("requiresWorktrees", flag record "requiresWorktrees"),
      ("policy", fieldOr record "policy" .null),
      ("jobs", fieldOr record "jobs" emptyArray),
      ("lockPlans", fieldOr record "lockPlans" emptyArray),
      ("queueJobIds", fieldOr record "queueJobIds" emptyArray),
      ("expectedChildCount", numberOf (record.lookup "expectedChildCount")),
      ("batchState", fieldOr record "batchState" (.ofString "unstarted")),
      ("cleanupState", fieldOr record "cleanupState" (.ofString "none")),
      ("queueMode", fieldOr record "queueMode" (.ofString "legacy")),
      ("integrationQueue", fieldOr record "integrationQueue" emptyArray),
      ("finalValidationCommand", fieldOr record "finalValidationCommand" emptyText),
      ("finalValidationSource", finalValidationSourceOf record),
      ("finalValidationSpec", fieldOr record "finalValidationSpec" .null),
      ("finalValidationResult", fieldOr record "finalValidationResult" .null),
      ("reviewerJob", fieldOr record "reviewerJob" .null),
      ("reviewerResult", fieldOr record "reviewerResult" .null),
      ("testerJob", fieldOr record "testerJob" .null),
      ("testerResult", fieldOr record "testerResult" .null),
      ("sourceCleanupResults", fieldOr record "sourceCleanupResults" emptyArray),
      ("cleanupPending", flag record "cleanupPending"),
      ("events", fieldOr record "events" emptyArray),
      ("errors", fieldOr record "errors" emptyArray),
      ("sanitizedWorkspace", fieldOr record "sanitizedWorkspace" .null),
      ("sanitizedWorkspaceAttestation", fieldOr record "sanitizedWorkspaceAttestation" .null)]

def policySummary (record : Fields) : Json :=
  match record.lookup "policy" with
  | some policy =>
    if policy.truthy then
      let fields := fieldsOf policy
      sanitizePersistedValue host.toTextHost (.object
        [("path", fieldOr fields "path" emptyText), ("sha256", fieldOr fields "sha256" emptyText),
          ("trustedForAuthority", flag fields "trustedForAuthority")])
    else .null
  | none => .null

def jobSummary (job : Json) : Json :=
  let fields := fieldsOf job
  sanitizePersistedValue host.toTextHost (.object
    ([("agent", fieldOr fields "agent" emptyText), ("role", fieldOr fields "role" emptyText),
        ("write", flag fields "write")] ++
      match fields.lookup "task" with
      | some task => textFingerprint host "task" (some task)
      | none =>
        [("taskChars", numberOf (fields.lookup "taskChars")),
          ("taskSha256", .text (host.string ((fields.lookup "taskSha256").getD .null)))]))

def lockPlanSummary (plan : Json) : Json :=
  let fields := fieldsOf plan
  sanitizePersistedValue host.toTextHost (.object
    ([("index", numberOf (fields.lookup "index")), ("agent", fieldOr fields "agent" emptyText),
        ("cwd", fieldOr fields "cwd" emptyText), ("lockMode", fieldOr fields "lockMode" emptyText),
        ("lockType", fieldOr fields "lockType" emptyText),
        ("orchestratorMode", fieldOr fields "orchestratorMode" emptyText),
        ("userAuthorizedOrchestrator", flag fields "userAuthorizedOrchestrator"),
        ("contractorAuthorizationVerified", flag fields "contractorAuthorizationVerified"),
        ("lockedPaths", fieldOr fields "lockedPaths" emptyArray),
        ("allowedEdits", fieldOr fields "allowedEdits" emptyArray),
        ("forbiddenEdits", fieldOr fields "forbiddenEdits" emptyArray),
        ("sharedFiles", fieldOr fields "sharedFiles" emptyArray),
        ("serialOnly", fieldOr fields "serialOnly" emptyArray),
        ("scopeContract", scopeContractDurableSummary host (fields.lookup "scopeContract")),
        ("timeoutMs", fieldOr fields "timeoutMs" .null)] ++
      textFingerprint host "task" (fields.lookup "task") ++
      commandFingerprintFields host (fields.lookup "validationCommand")))

def integrationItemSummary (item : Json) : Json :=
  let fields := fieldsOf item
  sanitizePersistedValue host.toTextHost (.object
    ([("agent", fieldOr fields "agent" emptyText), ("jobId", fieldOr fields "jobId" emptyText),
        ("worktreePath", fieldOr fields "worktreePath" emptyText),
        ("branch", fieldOr fields "branch" emptyText),
        ("sourceBaseCommit", fieldOr fields "sourceBaseCommit" emptyText),
        ("sourceBaseTree", fieldOr fields "sourceBaseTree" emptyText),
        ("patchSha256", fieldOr fields "patchSha256" emptyText),
        ("sourceStateSha256", fieldOr fields "sourceStateSha256" emptyText),
        ("allowedEdits", fieldOr fields "allowedEdits" emptyArray),
        ("lockedPaths", fieldOr fields "lockedPaths" emptyArray),
        ("forbiddenEdits", fieldOr fields "forbiddenEdits" emptyArray),
        ("sharedFiles", fieldOr fields "sharedFiles" emptyArray),
        ("serialOnly", fieldOr fields "serialOnly" emptyArray),
        ("changedFiles", fieldOr fields "changedFiles" emptyArray),
        ("status", fieldOr fields "status" emptyText),
        ("operationId", fieldOr fields "operationId" emptyText),
        ("validationSource", fieldOr fields "validationSource" emptyText)] ++
      commandFingerprintFields host (fields.lookup "validationCommand") ++
      [("validationSpecSha256",
        .text (host.sha256 (host.stringify (fieldOr fields "validationSpec" .null))))]))

/-- What the summary has in place of what the details hold. -/
def summaryOverrides (record : Fields) : Fields :=
  let details := host.stringify (.object (pipelinePrivateDetails host record))
  [("policy", policySummary host record),
    ("jobs", .array ((itemsOf (fieldOr record "jobs" emptyArray)).map (jobSummary host))),
    ("lockPlans",
      .array ((itemsOf (fieldOr record "lockPlans" emptyArray)).map (lockPlanSummary host))),
    ("integrationQueue", .array
      ((itemsOf (fieldOr record "integrationQueue" emptyArray)).map (integrationItemSummary host))),
    ("finalValidationCommand", emptyText), ("finalValidationSpec", .null),
    ("finalValidationResult", .null), ("reviewerJob", .null), ("reviewerResult", .null),
    ("testerJob", .null), ("testerResult", .null), ("sourceCleanupResults", emptyArray),
    ("events", emptyArray), ("errors", emptyArray), ("sanitizedWorkspaceAttestation", .null),
    ("privateDetailsChars", number details.length),
    ("privateDetailsSha256", .text (host.sha256 details)),
    ("eventCount", number (itemsOf (fieldOr record "events" emptyArray)).length),
    ("errorCount", number (itemsOf (fieldOr record "errors" emptyArray)).length)]

def pipelineRecordDurableSummary (record : Fields) : Fields :=
  sanitizeFields host.toTextHost
    ((pipelineRecordSnapshot host record).assign (summaryOverrides host record))

/-! ## The replay request -/

def withoutToken (fields : Fields) : Fields :=
  fields.filter fun entry => entry.1 != "contractorAuthorizationToken"

/-- The delegation of a job has a token of its own. -/
def replayField (entry : String × Json) : String × Json :=
  if entry.1 = "delegation" then
    (entry.1, match entry.2 with
      | .object delegation => .object (withoutToken delegation)
      | other => other)
  else entry

def pipelineReplayJob : Json → Json
  | .object fields => .object ((withoutToken fields).map replayField)
  | job => job

def pipelineReplayRequest (record : Fields) : Fields :=
  [("jobs",
      match record.lookup "jobs" with
      | some (.array jobs) => .array (jobs.map pipelineReplayJob)
      | jobs => Json.orElse jobs emptyArray),
    ("reviewerJob", pipelineReplayJob (fieldOr record "reviewerJob" .null)),
    ("testerJob", pipelineReplayJob (fieldOr record "testerJob" .null)),
    ("finalValidationCommand", fieldOr record "finalValidationCommand" emptyText)]

/-! ## The row -/

/-- A row of `opencode_pipelines`. The columns beside the texts are under the names that
`readPersistedPipelineRecord` gives them. -/
structure PipelineRow where
  columns : Fields
  recordJson : Fields
  requestEncrypted : Option Fields
  detailsEncrypted : Option Fields

structure WriteTime where
  commitAt : Text
  leaseExpiresAt : Text

def writePipelineRecordSnapshot (time : WriteTime) (summary : Fields)
    (requestEncrypted detailsEncrypted : Option Fields) : PipelineRow :=
  let committed := summary.assign
    [("updatedAt", .text time.commitAt), ("ownerHeartbeatAt", .text time.commitAt),
      ("ownerLeaseExpiresAt", .text time.leaseExpiresAt)]
  { columns :=
      [("status", (committed.lookup "status").getD .null),
        ("revision", numberOf (committed.lookup "revision")),
        ("ownerInstanceId", fieldOr committed "ownerInstanceId" emptyText),
        ("ownerGeneration", fieldOr committed "ownerGeneration" emptyText),
        ("ownerHeartbeatAt", fieldOr committed "ownerHeartbeatAt" emptyText),
        ("ownerLeaseExpiresAt", fieldOr committed "ownerLeaseExpiresAt" emptyText),
        ("expectedChildCount", numberOf (committed.lookup "expectedChildCount")),
        ("batchState", fieldOr committed "batchState" (.ofString "unstarted")),
        ("cleanupState", fieldOr committed "cleanupState" (.ofString "none")),
        ("queueMode", fieldOr committed "queueMode" (.ofString "sqlite"))]
    recordJson := sanitizeFields host.toTextHost committed
    requestEncrypted, detailsEncrypted }

/-- The row that `persistPipelineRecord` inserts for a record that has its owner and its
queue mode. -/
def persistPipelineRecord (time : WriteTime) (record : Fields) : PipelineRow :=
  writePipelineRecordSnapshot host time (pipelineRecordDurableSummary host record)
    (some (pipelineReplayRequest record)) (some (pipelinePrivateDetails host record))

/-- The row after an update of `updatePipelineRecord` to the candidate that was not
refused: the encrypted request stays. -/
def updatePipelineRecord (time : WriteTime) (candidate : Fields) (row : PipelineRow) :
    PipelineRow :=
  writePipelineRecordSnapshot host time (pipelineRecordDurableSummary host candidate)
    row.requestEncrypted (some (pipelinePrivateDetails host candidate))

/-- `decryptPipelinePrivateDetails`; the ciphertext is as long as the text. -/
def decryptPipelinePrivateDetails (details : Fields) : Option Fields :=
  if host.maxSnapshotFileBytes + 1024 < host.jsonBytes (.object details) then none
  else some details

/-- The summary of a row with the columns over it. -/
def storedSummary (row : PipelineRow) : Fields :=
  row.recordJson.assign
    [("status", (row.columns.lookup "status").getD .null),
      ("revision", numberOf (row.columns.lookup "revision")),
      ("ownerInstanceId", fieldOr row.columns "ownerInstanceId" emptyText),
      ("ownerGeneration", fieldOr row.columns "ownerGeneration" emptyText),
      ("ownerHeartbeatAt", fieldOr row.columns "ownerHeartbeatAt" emptyText),
      ("ownerLeaseExpiresAt", fieldOr row.columns "ownerLeaseExpiresAt" emptyText),
      ("expectedChildCount", numberOf (row.columns.lookup "expectedChildCount")),
      ("batchState", fieldOr row.columns "batchState" (.ofString "unstarted")),
      ("cleanupState", fieldOr row.columns "cleanupState" (.ofString "none")),
      ("queueMode", fieldOr row.columns "queueMode" (.ofString "legacy"))]

/-- `readPersistedPipelineRecord` on a row; `none` when the decryption throws. -/
def readPersistedPipelineRecord (row : PipelineRow) : Option Fields :=
  let withDetails := match row.detailsEncrypted with
    | none => some (storedSummary row)
    | some details => (decryptPipelinePrivateDetails host details).map fun details =>
      ((storedSummary row).assign details).assign [("privateDetailsAvailable", .bool true)]
  withDetails.map fun record =>
    match row.requestEncrypted with
    | none => record
    | some replay => (record.assign replay).assign [("replayRequestAvailable", .bool true)]

end

end AgentBridge.Pipelines.Storage
