import AgentBridge.Queue.Store

/-!
# Leases, reconciliation and claims

The writers of `opencode_jobs` outside the store: the reconciliation of rows whose
owner is gone, the renewal and the re-taking of a lease (`lib/queue/leases.js`), the
claim of a job before it runs, the takeover or failure of a job at startup
(`server.js`), and the update of a finished job's summary (`lib/queue/retry.js`).
-/

namespace AgentBridge.Queue

open Systems

variable (runtime : QueueRuntime)

/-- `lease_expires_at IS NULL OR lease_expires_at = '' OR lease_expires_at <= ?` -/
def leaseLapsed (row : QueueRow) (now : Nat) : Bool :=
  !row.leaseExpiresAt.after now

/-! ### Reconciliation -/

def activityAt (row : QueueRow) : Stamp :=
  row.heartbeatAt.or <| row.leaseExpiresAt.or <| row.startedAt.or <|
    row.recordJson.startedAt.or <| row.createdAt.or row.recordJson.createdAt

/-- `now - activityAt < CONFIG.queueStaleAfterMs` -/
def recentlyActive (row : QueueRow) (now : Nat) : Bool :=
  (activityAt row).any fun time => now < time + runtime.queueStaleAfterMs

def hasOwner (row : QueueRow) : Bool :=
  row.ownerInstanceId ≠ "" || row.ownerProcessId ≠ 0 || row.ownerGeneration ≠ ""

/-- The rows the reconciliation passes over: tracked by this process, resumable, or
covered by a lease, recent activity or another live instance. -/
def passedOver (db : QueueDb) (bridgeInstanceId : String) (tracked : List String) (now : Nat)
    (row : QueueRow) : Bool :=
  let leaseExpiresAt : Stamp := row.leaseExpiresAt.or row.recordJson.leaseExpiresAt
  tracked.contains row.jobId
    || row.status.preExecution && row.requestEncrypted ≠ ""
    || if hasOwner row then
        leaseExpiresAt.after now
          || leaseExpiresAt.isNone && recentlyActive runtime row now
          || row.ownerInstanceId ≠ "" && db.instanceLive row.ownerInstanceId now
            && row.ownerInstanceId ≠ bridgeInstanceId
      else recentlyActive runtime row now

/-- `terminalStatus` of an abandoned row -/
def abandonedStatus (row : QueueRow) : QueueStatus :=
  if row.cancellationRequestedAt.isSome || row.recordJson.cancellationRequestedAt.isSome then
    .cancelled
  else if row.status.active then .interrupted
  else .notResumable

/-- The snapshot of an abandoned row. -/
def abandonedSummary (row : QueueRow) (now : Nat) : QueueRecord :=
  let summary :=
    { row.recordJson with
      status := abandonedStatus row
      finishedAt := some now
      heartbeatAt := none
      leaseExpiresAt := none
      revision := row.revision + 1
      errorType :=
        match abandonedStatus row with
        | .cancelled => "agent_cancelled"
        | .interrupted => "queue_job_interrupted"
        | _ => "queue_job_not_resumable" }
  { summary with
    retryDecisionPendingAt :=
      if queueRetryDecisionPending summary (row.requestEncrypted ≠ "") then
        summary.retryDecisionPendingAt.or (some now)
      else none }

def endAbandoned (db : QueueDb) (bridgeInstanceId : String) (observed : QueueRow) (now : Nat) :
    RowUpdate QueueRow where
  guard row :=
    row.jobId = observed.jobId && row.status = observed.status
      && row.revision = observed.revision && row.ownerGeneration = observed.ownerGeneration
      && leaseLapsed row now
      && (row.ownerInstanceId = bridgeInstanceId || !db.instanceLive row.ownerInstanceId now)
  set row :=
    { row with
      status := abandonedStatus observed
      finishedAt := some now
      heartbeatAt := none
      leaseExpiresAt := none
      recordJson := abandonedSummary observed now
      revision := row.revision + 1 }

/-- One row of the loop of `reconcileStaleQueueRecords`. -/
def reconcileRow (bridgeInstanceId : String) (tracked : List String) (now : Nat)
    (state : List String × QueueDb) (row : QueueRow) : List String × QueueDb :=
  let (reconciled, db) := state
  if passedOver runtime db bridgeInstanceId tracked now row then state
  else
    let update := endAbandoned db bridgeInstanceId row now
    let db' := { db with jobs := update.exec db.jobs }
    if 0 < update.changes db.jobs then
      (reconciled ++ [row.jobId],
        (propagatePipelineTerminalInTransaction db' row.jobId (abandonedStatus row) now).2)
    else (reconciled, db')

/-- `reconcileStaleQueueRecords`: the rows are selected once, and each is handled on
the table as the rows before it left it. -/
def reconcileStaleQueueRecords (db : QueueDb) (bridgeInstanceId : String) (tracked : List String)
    (now : Nat) : List String × QueueDb :=
  (db.jobs.filter fun row => !row.status.terminal).foldl
    (reconcileRow runtime bridgeInstanceId tracked now) ([], db)

/-! ### Leases -/

def renewLease (db : QueueDb) (bridgeInstanceId : String) (record : QueueRecord)
    (waitInfo : String) (heartbeatAt leaseExpiresAt : Nat) : RowUpdate QueueRow where
  guard row :=
    row.jobId = record.jobId && row.ownerInstanceId = bridgeInstanceId
      && row.ownerGeneration = record.ownerGeneration && row.leaseExpiresAt.after heartbeatAt
      && !row.status.terminal && row.cancellationRequestedAt.isNone
      && db.instanceLive row.ownerInstanceId heartbeatAt
  set row :=
    { row with
      heartbeatAt := some heartbeatAt
      leaseExpiresAt := some leaseExpiresAt
      recordJson :=
        if waitInfo = "" then row.recordJson
        else { row.recordJson with providerWaitInfo := waitInfo }
      revision := row.revision + 1 }

/-- The caller's record after its lease was written; `RETURNING revision`. -/
def leasedRecord (db : QueueDb) (record : QueueRecord) (heartbeatAt leaseExpiresAt : Nat) :
    QueueRecord :=
  { record with
    heartbeatAt := some heartbeatAt
    leaseExpiresAt := some leaseExpiresAt
    revision := (db.job record.jobId).elim record.revision QueueRow.revision }

def renewPersistedQueueRecordLease (db : QueueDb) (bridgeInstanceId : String)
    (record : QueueRecord) (heartbeatAt leaseExpiresAt : Nat) : Bool × QueueRecord × QueueDb :=
  let waitInfo :=
    if record.providerWaitInfo = record.queuePublishedWaitInfo then ""
    else record.providerWaitInfo
  let update := renewLease db bridgeInstanceId record waitInfo heartbeatAt leaseExpiresAt
  let db' := { db with jobs := update.exec db.jobs }
  if 0 < update.changes db.jobs then
    (true,
      { leasedRecord db' record heartbeatAt leaseExpiresAt with
        queuePublishedWaitInfo := record.providerWaitInfo },
      db')
  else (false, record, db')

def retakeLease (bridgeInstanceId : String) (record : QueueRecord)
    (heartbeatAt leaseExpiresAt : Nat) : RowUpdate QueueRow where
  guard row :=
    ownedAt bridgeInstanceId record.jobId record.ownerGeneration record.revision row
      && !row.status.terminal && row.cancellationRequestedAt.isNone
  set row :=
    { row with
      heartbeatAt := some heartbeatAt
      leaseExpiresAt := some leaseExpiresAt
      revision := row.revision + 1 }

def reacquirePersistedQueueRecordLease (db : QueueDb) (bridgeInstanceId : String)
    (record : QueueRecord) (heartbeatAt leaseExpiresAt : Nat) : Bool × QueueRecord × QueueDb :=
  if record.ownerGeneration = "" then (false, record, db)
  else
    let update := retakeLease bridgeInstanceId record heartbeatAt leaseExpiresAt
    let db' := { db with jobs := update.exec db.jobs }
    if 0 < update.changes db.jobs then
      (true, leasedRecord db' record heartbeatAt leaseExpiresAt, db')
    else (false, record, db')

/-! ### The claim before a run -/

/-- The child of a closed pipeline is cancelled instead of being run. -/
def cancelOrphanedChild (observed : QueueRow) (time : Nat) : RowUpdate QueueRow where
  guard row := isObserved observed row
  set row := cancelledByPipeline row time

/-- `runningState`, merged into the record -/
def runningRecord (bridgeInstanceId : String) (processId : Nat) (freshGeneration : String)
    (record : QueueRecord) (heartbeatAt leaseExpiresAt : Nat) : QueueRecord :=
  { record with
    status := .running
    startedAt := record.startedAt.or (some heartbeatAt)
    ownerInstanceId := bridgeInstanceId
    ownerProcessId := processId
    ownerGeneration := orText record.ownerGeneration freshGeneration
    heartbeatAt := some heartbeatAt
    leaseExpiresAt := some leaseExpiresAt
    errorType := ""
    errorReason := ""
    revision := record.revision + 1 }

def startClaimed (db : QueueDb) (bridgeInstanceId : String) (observed : QueueStatus)
    (record running : QueueRecord) (heartbeatAt : Nat) : RowUpdate QueueRow where
  guard row :=
    row.jobId = record.jobId && row.status = observed && row.revision = record.revision
      && row.ownerInstanceId = bridgeInstanceId && row.ownerGeneration = record.ownerGeneration
      && row.leaseExpiresAt.after heartbeatAt && row.cancellationRequestedAt.isNone
      && db.instanceLive row.ownerInstanceId heartbeatAt
  set row :=
    { row with
      status := .running
      startedAt := running.startedAt
      heartbeatAt := running.heartbeatAt
      leaseExpiresAt := running.leaseExpiresAt
      ownerProcessId := running.ownerProcessId
      recordJson := queueRecordDurableSummary runtime running
      revision := row.revision + 1 }

inductive ClaimOutcome where
  | claimed
  | parentClosed (status : PipelineStatus)
  | claimLost
  | refused (status : Option QueueStatus)
  deriving DecidableEq

def parentAllowsClaim : Option PipelineRow → Bool
  | none => true
  | some parent => parent.status = .running && parent.batchState = .released

/-- The released, no longer running parent of a job that has not started. -/
def closedParent (parent : Option PipelineRow) (row : QueueRow) : Option PipelineRow :=
  parent.filter fun parent =>
    parent.batchState = .released && parent.status ≠ .running && row.status.claimable

theorem closedParent_spec {parent : Option PipelineRow} {row : QueueRow} {closed : PipelineRow}
    (h : closedParent parent row = some closed) :
    parent = some closed ∧ closed.batchState = .released ∧ closed.status ≠ .running ∧
      row.status.claimable = true := by
  obtain ⟨hparent, hclosed⟩ := Option.filter_eq_some_iff.mp h
  simp only [Bool.and_eq_true, decide_eq_true_eq] at hclosed
  exact ⟨hparent, hclosed.1.1, hclosed.1.2, hclosed.2⟩

/-- The caller's record once its job has turned out to be cancelled. -/
def claimCancelledRecord (record : QueueRecord) (requestedAt : Stamp) (now : Nat) : QueueRecord :=
  { record with
    status := .cancelled
    cancellationRequested := true
    cancellationRequestedAt := (requestedAt.or record.cancellationRequestedAt).or (some now)
    finishedAt := record.finishedAt.or (some now)
    errorType := "agent_cancelled"
    errorReason := "Cancellation won the durable claim race before execution." }

def orphanedRecord (record : QueueRecord) (parent : PipelineRow) (revision time : Nat) :
    QueueRecord :=
  { record with
    status := .cancelled
    finishedAt := some time
    cancellationRequested := true
    cancellationRequestedAt := some time
    errorType := "agent_cancelled"
    errorReason :=
      "Parent pipeline " ++ parent.pipelineId ++ " is already " ++ parent.status.text ++ "."
    heartbeatAt := none
    leaseExpiresAt := none
    revision := revision }

/-- What the claim checks of the row before its update. -/
def rowClaimable (bridgeInstanceId : String) (record : QueueRecord) (row : QueueRow) (now : Nat) :
    Bool :=
  row.status.claimable && row.ownerInstanceId = bridgeInstanceId
    && row.ownerGeneration = record.ownerGeneration && row.revision = record.revision
    && row.leaseExpiresAt.after now && row.cancellationRequestedAt.isNone

def claimQueueRecord (db : QueueDb) (bridgeInstanceId : String) (processId : Nat)
    (freshGeneration : String) (record : QueueRecord) (heartbeatAt leaseExpiresAt : Nat) :
    ClaimOutcome × QueueRecord × QueueDb :=
  match db.job record.jobId with
  | none => (.refused none, record, db)
  | some row =>
    let parent := db.parent record.jobId
    match closedParent parent row with
    | some closed =>
      let update := cancelOrphanedChild row heartbeatAt
      if update.changes db.jobs = 1 then
        (.parentClosed closed.status,
          orphanedRecord record closed (row.revision + 1) heartbeatAt,
          { db with jobs := update.exec db.jobs })
      else (.claimLost, record, db)
    | none =>
      if parentAllowsClaim parent && rowClaimable bridgeInstanceId record row heartbeatAt then
        let running := runningRecord bridgeInstanceId processId freshGeneration record
          heartbeatAt leaseExpiresAt
        let update := startClaimed runtime db bridgeInstanceId row.status record running
          heartbeatAt
        if update.changes db.jobs = 1 then
          (.claimed, running, { db with jobs := update.exec db.jobs })
        else (.claimLost, record, db)
      else if row.status = .cancelled || row.cancellationRequestedAt.isSome then
        (.refused (some row.status),
          claimCancelledRecord record row.cancellationRequestedAt heartbeatAt, db)
      else (.refused (some row.status), record, db)

/-! ### Startup recovery -/

/-- The conditions both startup updates put on the row: it has not started, it is as
it was read, its lease has lapsed and its owner is not live. -/
def recoverable (db : QueueDb) (observed : QueueRow) (now : Nat) (row : QueueRow) : Bool :=
  row.jobId = observed.jobId && row.revision = observed.revision && row.status.preExecution
    && row.ownerInstanceId = observed.ownerInstanceId
    && row.ownerGeneration = observed.ownerGeneration && leaseLapsed row now
    && !db.instanceLive row.ownerInstanceId now

theorem recoverable_spec {db : QueueDb} {observed row : QueueRow} {now : Nat}
    (h : recoverable db observed now row = true) :
    row.jobId = observed.jobId ∧ row.status.preExecution = true ∧
      row.leaseExpiresAt.after now = false ∧
      db.instanceLive row.ownerInstanceId now = false := by
  simp only [recoverable, leaseLapsed, Bool.and_eq_true, decide_eq_true_eq,
    Bool.not_eq_true'] at h
  exact ⟨h.1.1.1.1.1.1, h.1.1.1.1.2, h.1.2, h.2⟩

def takeOver (db : QueueDb) (observed : QueueRow) (resumed : QueueRecord) (now : Nat) :
    RowUpdate QueueRow where
  guard row := recoverable db observed now row
  set row :=
    { row with
      status := resumed.status
      ownerInstanceId := resumed.ownerInstanceId
      ownerProcessId := resumed.ownerProcessId
      ownerGeneration := resumed.ownerGeneration
      heartbeatAt := resumed.heartbeatAt
      leaseExpiresAt := resumed.leaseExpiresAt
      recordJson :=
        queueRecordDurableSummary runtime { resumed with revision := resumed.revision + 1 }
      revision := row.revision + 1 }

def resumedRecord (bridgeInstanceId : String) (processId : Nat) (freshGeneration : String)
    (requestHasRetryPolicy : Bool) (row : QueueRow) (now leaseExpiresAt : Nat) : QueueRecord :=
  { persistedQueueRecordFromRow row with
    jobId := row.jobId
    requestHasRetryPolicy := requestHasRetryPolicy
    status := if row.status = .held then .held else .pending
    ownerInstanceId := bridgeInstanceId
    ownerProcessId := processId
    ownerGeneration := freshGeneration
    heartbeatAt := some now
    leaseExpiresAt := some leaseExpiresAt
    revision := row.revision }

def claimPersistedQueueRecordForStartup (db : QueueDb) (bridgeInstanceId : String)
    (processId : Nat) (freshGeneration : String) (jobId : String) (expectedRevision : Nat)
    (requestHasRetryPolicy : Bool) (now leaseExpiresAt : Nat) : Option QueueRecord × QueueDb :=
  match db.job jobId with
  | none => (none, db)
  | some row =>
    if row.revision = expectedRevision && row.status.preExecution then
      let resumed := resumedRecord bridgeInstanceId processId freshGeneration
        requestHasRetryPolicy row now leaseExpiresAt
      let update := takeOver runtime db row resumed now
      let db' := { db with jobs := update.exec db.jobs }
      if update.changes db.jobs = 1 then
        (some { resumed with revision := resumed.revision + 1 }, db')
      else (none, db')
    else (none, db)

/-- The record of a job whose request cannot be decrypted. -/
def startupFailedRecord (observed : QueueRow) (failedAt : Nat) : QueueRecord :=
  { observed.recordJson with
    jobId := observed.jobId
    status := .failed
    finishedAt := some failedAt
    heartbeatAt := none
    leaseExpiresAt := none
    errorType := "queue_request_recovery_failed"
    errorReason :=
      "The encrypted queue request could not be recovered. "
        ++ "Restore the matching queue-request.key backup before retrying." }

def failUnreadable (db : QueueDb) (observed : QueueRow) (failed : QueueRecord)
    (details : Option PrivateDetails) (failedAt : Nat) : RowUpdate QueueRow where
  guard row := recoverable db observed failedAt row
  set row :=
    { row with
      status := .failed
      finishedAt := some failedAt
      heartbeatAt := none
      leaseExpiresAt := none
      childProcessId := 0
      childProcessStartedAt := none
      recordJson := queueRecordDurableSummary runtime failed
      resultEncrypted := details
      revision := row.revision + 1 }

/-- `encryptedDetails` -/
def startupFailedDetails (failed : QueueRecord) (encrypted : Bool) : Option PrivateDetails :=
  if encrypted then some (queuePrivateDetails runtime failed) else none

/-- `failPersistedQueueStartupRecovery` with the record its caller builds; `encrypted`
is false when the details could not be encrypted either. -/
def failPersistedQueueStartupRecovery (db : QueueDb) (observed : QueueRow) (encrypted : Bool)
    (failedAt : Nat) : Bool × QueueDb :=
  let failed := startupFailedRecord observed failedAt
  let update := failUnreadable runtime db observed failed
    (startupFailedDetails runtime failed encrypted) failedAt
  let db' := { db with jobs := update.exec db.jobs }
  if update.changes db.jobs = 1 then
    (true, (propagatePipelineTerminalInTransaction db' observed.jobId .failed failedAt).2)
  else (false, db')

/-! ### The summary of a finished job -/

def rewriteSummary (observed : QueueRow) (summary : QueueRecord) : RowUpdate QueueRow where
  guard row :=
    row.jobId = observed.jobId && row.revision = observed.revision && row.status = observed.status
  set row := { row with recordJson := summary, revision := row.revision + 1 }

/-- One attempt of `patchTerminalQueueSummary`, which `markQueueJobRequeued` makes with
the fields of a requeue: a terminal row's summary is replaced, nothing else. -/
def patchTerminalQueueSummary (db : QueueDb) (jobId : String)
    (fields : QueueRecord → Option QueueRecord) : Bool × QueueDb :=
  match db.job jobId with
  | none => (false, db)
  | some row =>
    if row.status.terminal then
      match fields row.recordJson with
      | none => (false, db)
      | some summary =>
        let update := rewriteSummary row { summary with revision := row.revision + 1 }
        (update.changes db.jobs = 1, { db with jobs := update.exec db.jobs })
    else (false, db)

end AgentBridge.Queue
