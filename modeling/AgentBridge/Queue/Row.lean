import AgentBridge.Systems.Table

/-!
# Rows of the job queue

The table `opencode_jobs` of one project database, the tables its writers consult,
and the record a bridge process keeps of a job in memory.

Times are milliseconds; `none` is the empty text that stands for "not set". The
encrypted columns are modelled by what they decrypt to. `record_json` is always the
serialization of a record, so the row holds that record.
-/

namespace AgentBridge

inductive QueueStatus where
  | held | pending | planned | blocked
  | running | validating | reviewing | testing
  | completed | failed | cancelled | interrupted | notResumable
  deriving DecidableEq

namespace QueueStatus

/-- `preExecutionStatuses` -/
def preExecution : QueueStatus → Bool
  | held | pending | planned | blocked => true
  | _ => false

/-- `QUEUE_ACTIVE_STATUSES` -/
def active : QueueStatus → Bool
  | running | validating | reviewing | testing => true
  | _ => false

/-- `QUEUE_TERMINAL_STATUSES` -/
def terminal : QueueStatus → Bool
  | completed | failed | cancelled | interrupted | notResumable => true
  | _ => false

/-- `["pending", "planned", "blocked"]`, what a claim may start from -/
def claimable : QueueStatus → Bool
  | pending | planned | blocked => true
  | _ => false

theorem terminal_eq_false_of_preExecution {status : QueueStatus} (h : status.preExecution = true) :
    status.terminal = false := by
  cases status <;> simp_all [preExecution, terminal]

theorem terminal_eq_false_of_active {status : QueueStatus} (h : status.active = true) :
    status.terminal = false := by
  cases status <;> simp_all [active, terminal]

theorem preExecution_of_claimable {status : QueueStatus} (h : status.claimable = true) :
    status.preExecution = true := by
  cases status <;> simp_all [claimable, preExecution]

theorem preExecution_or_active {status : QueueStatus} (h : status.terminal = false) :
    status.preExecution = true ∨ status.active = true := by
  cases status <;> simp_all [preExecution, active, terminal]

end QueueStatus

/-- A time column; `none` is the empty text. -/
abbrev Stamp := Option Nat

/-- `stamp > now` on time texts; the empty text is before every time. -/
def Stamp.after (stamp : Stamp) (now : Nat) : Bool :=
  match stamp with
  | some time => now < time
  | none => false

/-- `text || fallback` -/
def orText (text fallback : String) : String :=
  if text = "" then fallback else text

/-- What `result_encrypted` decrypts to. -/
structure PrivateDetails where
  resultText : String
  resultDetailText : String
  errorReason : String
  deriving DecidableEq

/-- The fields of a record that the retry policy reads and passes on. -/
structure RetrySummary where
  agent : String
  configuredProvider : String
  configuredModel : String
  /-- `scopeContract.modelRequirement`, provider and model -/
  scopeModel : Option (String × String)
  attemptHistory : List String
  startAfter : Stamp
  startAfterReason : String
  slotWaitRequeues : Nat
  pauseWaitRequeues : Nat
  infraRetryRequeues : Nat
  requeuedFrom : String
  requeueSequence : Nat
  requeuedAt : Stamp
  retryDecisionAt : Stamp
  providerRefusedUntil : Stamp
  /-- `usage.outputCount` -/
  outputCount : Nat
  assistantFinalResponseDetected : Bool
  deriving DecidableEq

/-- A job as a bridge process holds it. -/
structure QueueRecord where
  jobId : String
  parentJobId : String
  mode : String
  status : QueueStatus
  createdAt : Stamp
  startedAt : Stamp
  finishedAt : Stamp
  ownerInstanceId : String
  ownerProcessId : Nat
  ownerGeneration : String
  heartbeatAt : Stamp
  leaseExpiresAt : Stamp
  cancellationRequested : Bool
  cancellationRequestedAt : Stamp
  cancellationReason : String
  childProcessId : Nat
  childProcessStartedAt : Stamp
  revision : Nat
  idempotencyKey : String
  requestFingerprint : String
  requestEncrypted : String
  /-- `request.models || request.maxAttempts` -/
  requestHasRetryPolicy : Bool
  maxAttempts : Nat
  retryAttempt : Nat
  retryDeferredAt : Stamp
  retryDecisionPendingAt : Stamp
  retryDecisionOutcome : String
  requeuedAs : String
  errorType : String
  errorReason : String
  resultText : String
  resultDetailText : String
  resultReportTruncated : Bool
  resultTextTruncated : Bool
  completionOutcome : String
  changedFiles : List String
  noChanges : Bool
  worktreePatchSha256 : String
  lockId : String
  /-- The provider wait in progress as JSON text, or empty. -/
  providerWaitInfo : String
  queuePublishedWaitInfo : String
  resultEncrypted : Option PrivateDetails
  cancellationResultEncrypted : Option PrivateDetails
  retry : RetrySummary
  deriving DecidableEq

structure QueueRow where
  jobId : String
  status : QueueStatus
  createdAt : Stamp
  startedAt : Stamp
  finishedAt : Stamp
  recordJson : QueueRecord
  ownerInstanceId : String
  ownerProcessId : Nat
  ownerGeneration : String
  heartbeatAt : Stamp
  leaseExpiresAt : Stamp
  cancellationRequestedAt : Stamp
  childProcessId : Nat
  childProcessStartedAt : Stamp
  revision : Nat
  idempotencyKey : String
  requestEncrypted : String
  resultEncrypted : Option PrivateDetails
  deriving DecidableEq

structure BridgeInstance where
  instanceId : String
  leaseExpiresAt : Nat
  deriving DecidableEq

inductive PipelineStatus where
  | planned | running | completed | failed | cancelled
  | other (text : String)
  deriving DecidableEq

def PipelineStatus.text : PipelineStatus → String
  | planned => "planned"
  | running => "running"
  | completed => "completed"
  | failed => "failed"
  | cancelled => "cancelled"
  | other text => text

inductive BatchState where
  | unstarted | legacy | released | incomplete
  deriving DecidableEq

structure PipelineRow where
  pipelineId : String
  status : PipelineStatus
  batchState : BatchState
  deriving DecidableEq

structure PipelineChild where
  pipelineId : String
  jobId : String
  deriving DecidableEq

structure QueueDb where
  jobs : List QueueRow
  instances : List BridgeInstance
  pipelines : List PipelineRow
  children : List PipelineChild
  deriving DecidableEq

namespace QueueDb

def empty : QueueDb := ⟨[], [], [], []⟩

/-- `EXISTS (SELECT 1 FROM bridge_instances WHERE instance_id = ? AND lease_expires_at > ?)` -/
def instanceLive (db : QueueDb) (instanceId : String) (now : Nat) : Bool :=
  db.instances.any fun row => row.instanceId = instanceId && now < row.leaseExpiresAt

/-- `WHERE job_id = ?` -/
def job (db : QueueDb) (jobId : String) : Option QueueRow :=
  Systems.lookup QueueRow.jobId jobId db.jobs

/-- The pipeline a job is a child of. -/
def parent (db : QueueDb) (jobId : String) : Option PipelineRow :=
  (db.children.find? fun relation => relation.jobId = jobId).bind fun relation =>
    db.pipelines.find? fun pipeline => pipeline.pipelineId = relation.pipelineId

end QueueDb

/-- The configuration and the text functions every process shares. None of the text
functions makes a text out of nothing. -/
structure QueueRuntime where
  redactSensitiveText : String → String
  truncateResultText : String → Nat → String
  truncateText : String → Nat → String
  queueResultMaxChars : Nat
  queueStaleAfterMs : Nat
  redact_empty : redactSensitiveText "" = ""
  truncateResult_empty : ∀ limit, truncateResultText "" limit = ""
  truncate_empty : ∀ limit, truncateText "" limit = ""

end AgentBridge
