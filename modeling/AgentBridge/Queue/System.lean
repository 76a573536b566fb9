import AgentBridge.Queue.Leases
import AgentBridge.Systems.Run

/-!
# The queue as a system

Any number of bridge processes work on one database. Each event is one transaction
of one process together with everything it takes from outside: the process's own
record of the job (of whatever age), the clock, fresh generations. The other tables
belong to other components and change freely between transactions.

`QueueWrite` says once what a transaction can do to a row. Everything proved about
all interleavings is a case analysis on it.
-/

namespace AgentBridge.Queue

open Systems

inductive QueueEvent where
  | environment (instances : List BridgeInstance) (pipelines : List PipelineRow)
      (children : List PipelineChild)
  | persist (bridgeInstanceId : String) (record : QueueRecord) (capacityAvailable : Bool)
      (now : Nat)
  | persistWithEnvelope (bridgeInstanceId : String) (record : QueueRecord) (now : Nat)
  | cancel (jobId : String) (unstartedOnly : Bool) (reason : String) (now : Nat)
  | reconcile (bridgeInstanceId : String) (tracked : List String) (now : Nat)
  | renew (bridgeInstanceId : String) (record : QueueRecord) (heartbeatAt leaseExpiresAt : Nat)
  | reacquire (bridgeInstanceId : String) (record : QueueRecord)
      (heartbeatAt leaseExpiresAt : Nat)
  | claim (bridgeInstanceId : String) (processId : Nat) (freshGeneration : String)
      (record : QueueRecord) (heartbeatAt leaseExpiresAt : Nat)
  | startupClaim (bridgeInstanceId : String) (processId : Nat) (freshGeneration : String)
      (jobId : String) (expectedRevision : Nat) (requestHasRetryPolicy : Bool)
      (now leaseExpiresAt : Nat)
  | startupFailure (observed : QueueRow) (encrypted : Bool) (failedAt : Nat)
  | patchSummary (jobId : String) (fields : QueueRecord → Option QueueRecord)

variable (runtime : QueueRuntime)

def queueStep (db : QueueDb) : QueueEvent → QueueDb
  | .environment instances pipelines children =>
    { db with instances := instances, pipelines := pipelines, children := children }
  | .persist bridgeInstanceId record capacityAvailable now =>
    (persistQueueRecord runtime db bridgeInstanceId record capacityAvailable now).2.2
  | .persistWithEnvelope bridgeInstanceId record now =>
    (persistQueueRecordWithEnvelope runtime db bridgeInstanceId record now).2.2
  | .cancel jobId unstartedOnly reason now =>
    (cancelPersistedQueueJob runtime db jobId unstartedOnly reason now).2
  | .reconcile bridgeInstanceId tracked now =>
    (reconcileStaleQueueRecords runtime db bridgeInstanceId tracked now).2
  | .renew bridgeInstanceId record heartbeatAt leaseExpiresAt =>
    (renewPersistedQueueRecordLease db bridgeInstanceId record heartbeatAt leaseExpiresAt).2.2
  | .reacquire bridgeInstanceId record heartbeatAt leaseExpiresAt =>
    (reacquirePersistedQueueRecordLease db bridgeInstanceId record heartbeatAt
      leaseExpiresAt).2.2
  | .claim bridgeInstanceId processId freshGeneration record heartbeatAt leaseExpiresAt =>
    (claimQueueRecord runtime db bridgeInstanceId processId freshGeneration record heartbeatAt
      leaseExpiresAt).2.2
  | .startupClaim bridgeInstanceId processId freshGeneration jobId expectedRevision
      requestHasRetryPolicy now leaseExpiresAt =>
      (claimPersistedQueueRecordForStartup runtime db bridgeInstanceId processId freshGeneration
        jobId expectedRevision requestHasRetryPolicy now leaseExpiresAt).2
  | .startupFailure observed encrypted failedAt =>
    (failPersistedQueueStartupRecovery runtime db observed encrypted failedAt).2
  | .patchSummary jobId fields => (patchTerminalQueueSummary db jobId fields).2

/-- The job a transaction is about; a reconciliation is about every job. -/
def QueueEvent.subject : QueueEvent → Option String
  | environment .. | reconcile .. => none
  | persist _ record _ _ | persistWithEnvelope _ record _ => some record.jobId
  | renew _ record _ _ | reacquire _ record _ _ | claim _ _ _ record _ _ => some record.jobId
  | cancel jobId .. | startupClaim _ _ _ jobId .. | patchSummary jobId _ => some jobId
  | startupFailure observed .. => some observed.jobId

/-- Text functions that leave short plain texts alone. -/
def plainRuntime : QueueRuntime where
  redactSensitiveText := id
  truncateResultText text _ := text
  truncateText text _ := text
  queueResultMaxChars := 24000
  queueStaleAfterMs := 7200000
  redact_empty := rfl
  truncateResult_empty _ := rfl
  truncate_empty _ := rfl

/-- The record `enqueue_opencode_job` builds for a read job. -/
def enqueuedRecord (jobId bridgeInstanceId ownerGeneration : String) (now leaseExpiresAt : Nat) :
    QueueRecord where
  jobId := jobId
  parentJobId := ""
  mode := "read"
  status := .pending
  createdAt := some now
  startedAt := none
  finishedAt := none
  ownerInstanceId := bridgeInstanceId
  ownerProcessId := 1
  ownerGeneration := ownerGeneration
  heartbeatAt := some now
  leaseExpiresAt := some leaseExpiresAt
  cancellationRequested := false
  cancellationRequestedAt := none
  cancellationReason := ""
  childProcessId := 0
  childProcessStartedAt := none
  revision := 0
  idempotencyKey := ""
  requestFingerprint := ""
  requestEncrypted := "request"
  requestHasRetryPolicy := false
  maxAttempts := 0
  retryAttempt := 0
  retryDeferredAt := none
  retryDecisionPendingAt := none
  retryDecisionOutcome := ""
  requeuedAs := ""
  errorType := ""
  errorReason := ""
  resultText := ""
  resultDetailText := ""
  resultReportTruncated := false
  resultTextTruncated := false
  completionOutcome := ""
  changedFiles := []
  noChanges := false
  worktreePatchSha256 := ""
  lockId := ""
  providerWaitInfo := ""
  queuePublishedWaitInfo := ""
  resultEncrypted := none
  cancellationResultEncrypted := none
  retry :=
    { agent := "reader"
      configuredProvider := ""
      configuredModel := ""
      scopeModel := none
      attemptHistory := []
      startAfter := none
      startAfterReason := ""
      slotWaitRequeues := 0
      pauseWaitRequeues := 0
      infraRetryRequeues := 0
      requeuedFrom := ""
      requeueSequence := 0
      requeuedAt := none
      retryDecisionAt := none
      providerRefusedUntil := none
      outputCount := 0
      assistantFinalResponseDetected := false }

/-! ### What a transaction can do to a row -/

/-- The owner and the record of a persist, as it reaches the terminal commit. -/
def QueueEvent.commits : QueueEvent → Option (String × QueueRecord)
  | persist bridgeInstanceId record _ _ =>
    if ownerTerminal (preparedRecord runtime record).status then
      some (bridgeInstanceId, preparedRecord runtime record)
    else none
  | persistWithEnvelope bridgeInstanceId record _ =>
    some (bridgeInstanceId, envelopedRecord runtime record)
  | _ => none

/-- The row is the record's job under the record's owner and generation. -/
structure OwnedBy (bridgeInstanceId : String) (record : QueueRecord) (row : QueueRow) : Prop where
  job : row.jobId = record.jobId
  owner : row.ownerInstanceId = bridgeInstanceId
  generation : row.ownerGeneration = record.ownerGeneration

/-- A single write of a transaction: the conditions under which it happens and the
row it leaves. -/
inductive QueueWrite (db : QueueDb) : QueueEvent → QueueRow → QueueRow → Prop where
  | siblingCancelled {event row} (time : Nat) (other : event.subject ≠ some row.jobId)
      (status : row.status.preExecution = true) :
      QueueWrite db event row (cancelledByPipeline row time)
  | siblingMarked {event row} (time : Nat) (other : event.subject ≠ some row.jobId)
      (status : row.status.active = true) :
      QueueWrite db event row (markedByPipeline row time)
  | unstartedCancelled {row unstartedOnly reason now} (requestedAt : Stamp) (next : QueueRecord)
      (status : row.status.preExecution = true)
      (requested : requestedAt = row.cancellationRequestedAt.or (some now))
      (patch : next = cancellationPatch row reason requestedAt) :
      QueueWrite db (.cancel row.jobId unstartedOnly reason now) row
        ((cancelUnstarted runtime row requestedAt next).set row)
  | cancellationMarked {row unstartedOnly reason now} (requestedAt : Stamp) (next : QueueRecord)
      (status : row.status.active = true)
      (requested : requestedAt = row.cancellationRequestedAt.or (some now)) :
      QueueWrite db (.cancel row.jobId unstartedOnly reason now) row
        ((markCancellation runtime row requestedAt next).set row)
  | unstartedEnded {event bridgeInstanceId record row} (revision : Nat) (terminal : QueueRecord)
      (details : Option PrivateDetails)
      (commits : event.commits runtime = some (bridgeInstanceId, record))
      (owned : OwnedBy bridgeInstanceId record row)
      (status : row.status.preExecution = true)
      (ends : terminal.status = .failed ∨ terminal.status = .cancelled)
      (marked : row.cancellationRequestedAt.isSome = true → terminal.status = .cancelled)
      (envelope : terminal.status = .cancelled →
        details = record.cancellationResultEncrypted ∧ details.isSome = true) :
      QueueWrite db event row
        ((endUnstarted runtime bridgeInstanceId row.status record.ownerGeneration revision terminal
          details).set row)
  | activeEnded {event bridgeInstanceId record row} (revision now : Nat) (terminal : QueueRecord)
      (commits : event.commits runtime = some (bridgeInstanceId, record))
      (owned : OwnedBy bridgeInstanceId record row)
      (status : row.status.active = true)
      (unmarked : row.cancellationRequestedAt = none)
      (live : db.instanceLive bridgeInstanceId now = true)
      (ends : terminal.status = record.status ∨ terminal.status = .cancelled)
      (details : terminal.resultEncrypted = record.resultEncrypted) :
      QueueWrite db event row
        ((endActive runtime db bridgeInstanceId record.ownerGeneration revision terminal now).set
          row)
  | activeCancelled {event bridgeInstanceId record row} (revision : Nat) (cancelled : QueueRecord)
      (commits : event.commits runtime = some (bridgeInstanceId, record))
      (owned : OwnedBy bridgeInstanceId record row)
      (status : row.status.active = true)
      (marked : row.cancellationRequestedAt.isSome = true)
      (envelope : cancelled.cancellationResultEncrypted = record.cancellationResultEncrypted ∧
        record.cancellationResultEncrypted.isSome = true) :
      QueueWrite db event row
        ((endCancelled runtime bridgeInstanceId record.ownerGeneration revision cancelled).set row)
  | rewritten {bridgeInstanceId record capacityAvailable now row} (next : QueueRecord)
      (owned : OwnedBy bridgeInstanceId (preparedRecord runtime record) row)
      (patch : next = nextRecord row
        (rebasedRecord bridgeInstanceId row (preparedRecord runtime record)))
      (notTerminal : ownerTerminal (preparedRecord runtime record).status = false)
      (status : row.status.terminal = false)
      (unmarked : row.cancellationRequestedAt = none)
      (leased : row.leaseExpiresAt.after now = true)
      (live : db.instanceLive bridgeInstanceId now = true) :
      QueueWrite db (.persist bridgeInstanceId record capacityAvailable now) row
        ((rewriteOwned runtime db bridgeInstanceId row record.ownerGeneration next now).set row)
  | abandoned {bridgeInstanceId tracked now row}
      (status : row.status.terminal = false)
      (lapsed : leaseLapsed row now = true)
      (owner : row.ownerInstanceId = bridgeInstanceId ∨
        db.instanceLive row.ownerInstanceId now = false) :
      QueueWrite db (.reconcile bridgeInstanceId tracked now) row
        ((endAbandoned db bridgeInstanceId row now).set row)
  | renewed {bridgeInstanceId record heartbeatAt leaseExpiresAt row} (waitInfo : String)
      (owned : OwnedBy bridgeInstanceId record row)
      (status : row.status.terminal = false)
      (unmarked : row.cancellationRequestedAt = none)
      (leased : row.leaseExpiresAt.after heartbeatAt = true) :
      QueueWrite db (.renew bridgeInstanceId record heartbeatAt leaseExpiresAt) row
        ((renewLease db bridgeInstanceId record waitInfo heartbeatAt leaseExpiresAt).set row)
  | retaken {bridgeInstanceId record heartbeatAt leaseExpiresAt row}
      (owned : OwnedBy bridgeInstanceId record row)
      (revision : row.revision = record.revision)
      (status : row.status.terminal = false)
      (unmarked : row.cancellationRequestedAt = none) :
      QueueWrite db (.reacquire bridgeInstanceId record heartbeatAt leaseExpiresAt) row
        ((retakeLease bridgeInstanceId record heartbeatAt leaseExpiresAt).set row)
  | orphanCancelled {bridgeInstanceId processId freshGeneration record heartbeatAt leaseExpiresAt
      row} (parent : PipelineRow)
      (job : row.jobId = record.jobId)
      (closed : closedParent (db.parent row.jobId) row = some parent) :
      QueueWrite db
        (.claim bridgeInstanceId processId freshGeneration record heartbeatAt leaseExpiresAt) row
        (cancelledByPipeline row heartbeatAt)
  | claimed {bridgeInstanceId processId freshGeneration record heartbeatAt leaseExpiresAt row}
      (running : QueueRecord)
      (owned : OwnedBy bridgeInstanceId record row)
      (allowed : parentAllowsClaim (db.parent row.jobId) = true)
      (status : row.status.claimable = true)
      (unmarked : row.cancellationRequestedAt = none) :
      QueueWrite db
        (.claim bridgeInstanceId processId freshGeneration record heartbeatAt leaseExpiresAt) row
        ((startClaimed runtime db bridgeInstanceId row.status record running heartbeatAt).set row)
  | takenOver {bridgeInstanceId processId freshGeneration expectedRevision requestHasRetryPolicy
      now leaseExpiresAt row} (resumed : QueueRecord)
      (patch : resumed = resumedRecord bridgeInstanceId processId freshGeneration
        requestHasRetryPolicy row now leaseExpiresAt)
      (recoverable : recoverable db row now row = true) :
      QueueWrite db
        (.startupClaim bridgeInstanceId processId freshGeneration row.jobId expectedRevision
          requestHasRetryPolicy now leaseExpiresAt) row
        ((takeOver runtime db row resumed now).set row)
  | startupFailed {observed encrypted failedAt row} (failed : QueueRecord)
      (details : Option PrivateDetails)
      (member : row ∈ db.jobs)
      (recoverable : recoverable db observed failedAt row = true) :
      QueueWrite db (.startupFailure observed encrypted failedAt) row
        ((failUnreadable runtime db observed failed details failedAt).set row)
  | summaryRewritten {fields row} (summary : QueueRecord)
      (status : row.status.terminal = true) :
      QueueWrite db (.patchSummary row.jobId fields) row ((rewriteSummary row summary).set row)

/-- Any number of writes of one transaction. -/
def QueueWrites (db : QueueDb) (event : QueueEvent) : QueueRow → QueueRow → Prop :=
  Relation.ReflTransGen (QueueWrite runtime db event)

end AgentBridge.Queue
