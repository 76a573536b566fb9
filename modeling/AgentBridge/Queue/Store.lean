import AgentBridge.Paths
import AgentBridge.Queue.Pipeline

/-!
# The queue store

The persistence transactions of `lib/queue/store.js`: the cancellation of a stored
job, the terminal commit and the ordinary persist of an owner's record. Every
function takes the database as the transaction finds it and returns what the caller
learns, the caller's record and the next database. Each `UPDATE` is a `RowUpdate`
of its own, with the condition of its `WHERE` clause.
-/

namespace AgentBridge.Queue

open Systems

variable (runtime : QueueRuntime)

/-! ### Records -/

/-- `queuePrivateDetails`, what `encryptQueuePrivateDetails` encrypts -/
def queuePrivateDetails (record : QueueRecord) : PrivateDetails where
  resultText :=
    runtime.truncateResultText (runtime.redactSensitiveText record.resultText)
      runtime.queueResultMaxChars
  resultDetailText :=
    runtime.truncateText (runtime.redactSensitiveText record.resultDetailText)
      runtime.queueResultMaxChars
  errorReason := runtime.truncateText record.errorReason 12000

/-- `resultCut` of `queueRecordSnapshot` -/
def resultCut (record : QueueRecord) : Bool :=
  record.resultReportTruncated || record.resultTextTruncated
    || runtime.queueResultMaxChars < (runtime.redactSensitiveText record.resultText).length

/-- `queueRecordDurableSummary`: the record without its private texts and without what
only the process needs. -/
def queueRecordDurableSummary (record : QueueRecord) : QueueRecord :=
  { record with
    resultText := ""
    resultDetailText := ""
    errorReason := ""
    cancellationReason := ""
    requestEncrypted := ""
    requestHasRetryPolicy := false
    queuePublishedWaitInfo := ""
    resultReportTruncated := false
    resultTextTruncated := resultCut runtime record
    completionOutcome :=
      if record.completionOutcome = "" ∧ record.status = .completed
          ∧ resultCut runtime record then
        "completed_with_truncated_output"
      else record.completionOutcome
    resultEncrypted := none
    cancellationResultEncrypted := none }

def completedWithoutFinal (record : QueueRecord) : Bool :=
  record.status = .completed
    && (runtime.redactSensitiveText record.resultText).toList.all Paths.isWhitespace

def completedWriteWithoutEvidence (record : QueueRecord) : Bool :=
  record.status = .completed && record.mode = "write" && !record.noChanges
    && record.changedFiles.isEmpty && record.worktreePatchSha256 = ""

def enforceQueueResultEvidence (record : QueueRecord) : QueueRecord :=
  if completedWithoutFinal runtime record || completedWriteWithoutEvidence record then
    { record with
      status := .failed
      errorType :=
        if completedWithoutFinal runtime record then "completion_evidence_missing"
        else "write_completion_evidence_missing"
      errorReason :=
        if completedWithoutFinal runtime record then
          "A completed job must include a non-empty verified final response."
        else "A completed write job must include changed-file or patch evidence." }
  else if record.status = .completed ∧ (record.resultReportTruncated ∨
      runtime.queueResultMaxChars < (runtime.redactSensitiveText record.resultText).length) then
    { record with completionOutcome := "completed_with_truncated_output" }
  else if record.status = .completed ∧ record.mode = "write" ∧ record.noChanges
      ∧ record.completionOutcome = "" then
    { record with completionOutcome := "completed_no_changes" }
  else if record.status = .failed ∧ record.mode = "write" ∧ record.completionOutcome = ""
      ∧ (record.errorType = "agent_timeout" ∨ record.errorType = "agent_idle_timeout")
      ∧ ¬ record.changedFiles.isEmpty then
    { record with completionOutcome := "timed_out_with_changes" }
  else record

def queueRetryDecisionPending (record : QueueRecord) (hasRequest : Bool) : Bool :=
  hasRequest && (record.status = .failed || record.status = .interrupted)
    && record.parentJobId = "" && !record.cancellationRequested
    && record.cancellationRequestedAt.isNone && record.requeuedAs = ""
    && record.completionOutcome ≠ "gave_up" && record.retryDecisionOutcome = ""
    && (record.requestHasRetryPolicy || 0 < record.maxAttempts || 0 < record.retryAttempt
      || record.retryDeferredAt.isSome)

def persistedQueueRecordFromRow (row : QueueRow) : QueueRecord :=
  { row.recordJson with
    status := row.status
    startedAt := row.startedAt
    finishedAt := row.finishedAt
    ownerInstanceId := row.ownerInstanceId
    ownerProcessId := row.ownerProcessId
    ownerGeneration := row.ownerGeneration
    heartbeatAt := row.heartbeatAt
    leaseExpiresAt := row.leaseExpiresAt
    cancellationRequested := row.cancellationRequestedAt.isSome
    cancellationRequestedAt := row.cancellationRequestedAt
    childProcessId := row.childProcessId
    childProcessStartedAt := row.childProcessStartedAt
    revision := row.revision
    idempotencyKey := orText row.idempotencyKey row.recordJson.idempotencyKey }

/-- `loadPersistedQueueRecord`: a summary has no private texts, so the record keeps
its own. -/
def loadPersistedQueueRecord (record : QueueRecord) (row : Option QueueRow) : QueueRecord :=
  match row with
  | none => record
  | some row =>
    { persistedQueueRecordFromRow row with
      cancellationReason := record.cancellationReason
      requestEncrypted := record.requestEncrypted
      requestHasRetryPolicy := record.requestHasRetryPolicy
      queuePublishedWaitInfo := record.queuePublishedWaitInfo
      errorReason := record.errorReason
      resultText := record.resultText
      resultDetailText := record.resultDetailText
      resultReportTruncated := record.resultReportTruncated
      resultEncrypted := record.resultEncrypted
      cancellationResultEncrypted := record.cancellationResultEncrypted }

def applyDurableCancellationOutcome (record : QueueRecord) (requestedAt : Stamp) : QueueRecord :=
  { record with
    status := .cancelled
    retryDecisionPendingAt := none
    cancellationRequested := true
    cancellationRequestedAt := requestedAt.or record.cancellationRequestedAt
    errorType := "agent_cancelled"
    errorReason :=
      orText record.cancellationReason "Cancellation won the durable terminal-write race."
    resultText := ""
    resultDetailText := ""
    resultReportTruncated := false
    resultTextTruncated := false }

/-! ### Cancellation -/

/-- `WHERE job_id = ? AND status = ? AND revision = ?` and the row's own owner and
generation, all as read in the same transaction. -/
def isObserved (observed row : QueueRow) : Bool :=
  row.jobId = observed.jobId && row.status = observed.status && row.revision = observed.revision
    && row.ownerInstanceId = observed.ownerInstanceId
    && row.ownerGeneration = observed.ownerGeneration

inductive CancelOutcome where
  | missing
  | alreadyTerminal (status : QueueStatus)
  | alreadyStarted (status : QueueStatus)
  | cancelled (requestedAt : Stamp) (revision : Nat) (propagation : Option PipelinePropagation)
  | cancellationRequested (status : QueueStatus) (requestedAt : Stamp) (revision : Nat)
  | contention (status : QueueStatus)

/-- `makeCancellationPatch(row).nextRecord` -/
def cancellationPatch (row : QueueRow) (reason : String) (requestedAt : Stamp) : QueueRecord :=
  let current := persistedQueueRecordFromRow row
  let current :=
    { current with
      jobId := row.jobId
      cancellationReason := orText reason current.cancellationReason }
  if row.status.preExecution then
    { applyDurableCancellationOutcome current requestedAt with
      finishedAt := requestedAt
      heartbeatAt := none
      leaseExpiresAt := none
      childProcessId := 0
      childProcessStartedAt := none
      revision := row.revision + 1 }
  else
    { current with
      cancellationRequested := true
      cancellationRequestedAt := requestedAt
      revision := row.revision + 1 }

/-- A job that has not started is cancelled at once. -/
def cancelUnstarted (observed : QueueRow) (requestedAt : Stamp) (next : QueueRecord) :
    RowUpdate QueueRow where
  guard row := isObserved observed row
  set row :=
    { row with
      status := .cancelled
      finishedAt := requestedAt
      cancellationRequestedAt := requestedAt
      heartbeatAt := none
      leaseExpiresAt := none
      childProcessId := 0
      childProcessStartedAt := none
      recordJson := queueRecordDurableSummary runtime next
      resultEncrypted := some (queuePrivateDetails runtime next)
      revision := row.revision + 1 }

/-- A running job is marked; its owner ends it. -/
def markCancellation (observed : QueueRow) (requestedAt : Stamp) (next : QueueRecord) :
    RowUpdate QueueRow where
  guard row := isObserved observed row
  set row :=
    { row with
      cancellationRequestedAt := row.cancellationRequestedAt.or requestedAt
      recordJson := queueRecordDurableSummary runtime next
      revision := row.revision + 1 }

/-- One attempt of `cancelPersistedQueueJob`; the row is read again inside the
transaction, so an earlier observation decides nothing. -/
def cancelPersistedQueueJob (db : QueueDb) (jobId : String) (unstartedOnly : Bool)
    (reason : String) (now : Nat) : CancelOutcome × QueueDb :=
  match db.job jobId with
  | none => (.missing, db)
  | some row =>
    let requestedAt := row.cancellationRequestedAt.or (some now)
    let next := cancellationPatch row reason requestedAt
    if row.status.terminal then (.alreadyTerminal row.status, db)
    else if unstartedOnly && !row.status.preExecution then (.alreadyStarted row.status, db)
    else if row.status.preExecution then
      let update := cancelUnstarted runtime row requestedAt next
      let db' := { db with jobs := update.exec db.jobs }
      if update.changes db.jobs = 1 then
        let (propagation, db'') :=
          propagatePipelineTerminalInTransaction db' jobId .cancelled (requestedAt.getD now)
        (.cancelled requestedAt (row.revision + 1) propagation, db'')
      else (.contention row.status, db')
    else
      let update := markCancellation runtime row requestedAt next
      let db' := { db with jobs := update.exec db.jobs }
      if update.changes db.jobs = 1 then
        (.cancellationRequested row.status requestedAt (row.revision + 1), db')
      else (.contention row.status, db')

/-! ### The terminal commit -/

/-- What a persistence attempt reports; `status = none` is a missing row. -/
structure TerminalPersistence where
  persisted : Bool
  status : Option QueueStatus
  cancellationWon : Bool
  ownershipLost : Bool
  needsCancellationEnvelope : Bool
  propagation : Option PipelinePropagation

/-- `needsCancellationEnvelope: true`: nothing was written. -/
def TerminalPersistence.deferred : TerminalPersistence :=
  ⟨false, none, false, false, true, none⟩

/-- `heartbeatOnlyQueueAdvance`: since the attempted revision only lease renewals
have changed the row, which leave the revision in the summary behind. -/
def heartbeatOnlyQueueAdvance (bridgeInstanceId : String) (current : QueueRow)
    (record : QueueRecord) : Bool :=
  current.ownerInstanceId = bridgeInstanceId && record.ownerGeneration ≠ ""
    && current.ownerGeneration = record.ownerGeneration
    && record.revision < current.revision
    && current.recordJson.revision ≤ record.revision
    && current.recordJson.status = current.status

def attemptedRevision (bridgeInstanceId : String) (current : Option QueueRow)
    (record : QueueRecord) : Nat :=
  match current with
  | some row =>
    if heartbeatOnlyQueueAdvance bridgeInstanceId row record then row.revision
    else record.revision
  | none => record.revision

/-- `noteRetryIntent` -/
def noteRetryIntent (record : QueueRecord) (current : Option QueueRow) (now : Nat) : QueueRecord :=
  { record with
    retryDecisionPendingAt :=
      if queueRetryDecisionPending record
          (current.any fun row => row.requestEncrypted ≠ "") then
        record.retryDecisionPendingAt.or (some now)
      else none }

/-- `terminalRecord` as it is first built -/
def terminalRecord (bridgeInstanceId : String) (current : Option QueueRow) (record : QueueRecord) :
    QueueRecord :=
  { record with
    ownerInstanceId := orText (current.elim "" QueueRow.ownerInstanceId) record.ownerInstanceId
    ownerProcessId :=
      match current.elim 0 QueueRow.ownerProcessId with
      | 0 => record.ownerProcessId
      | pid => pid
    ownerGeneration := orText (current.elim "" QueueRow.ownerGeneration) record.ownerGeneration
    revision := attemptedRevision bridgeInstanceId current record + 1 }

/-- `WHERE job_id = ? AND owner_instance_id = ? AND owner_generation = ? AND
owner_generation <> '' AND revision = ?` -/
def ownedAt (bridgeInstanceId jobId ownerGeneration : String) (revision : Nat) (row : QueueRow) :
    Bool :=
  row.jobId = jobId && row.ownerInstanceId = bridgeInstanceId
    && row.ownerGeneration = ownerGeneration && row.ownerGeneration ≠ ""
    && row.revision = revision

/-- The owner ends a job that has not started. -/
def endUnstarted (bridgeInstanceId : String) (observed : QueueStatus) (ownerGeneration : String)
    (revision : Nat) (terminal : QueueRecord) (details : Option PrivateDetails) :
    RowUpdate QueueRow where
  guard row :=
    ownedAt bridgeInstanceId terminal.jobId ownerGeneration revision row && row.status = observed
  set row :=
    { row with
      status := terminal.status
      startedAt := terminal.startedAt
      finishedAt := terminal.finishedAt
      heartbeatAt := none
      leaseExpiresAt := none
      childProcessId := 0
      childProcessStartedAt := none
      recordJson := queueRecordDurableSummary runtime terminal
      resultEncrypted := details
      revision := row.revision + 1 }

/-- The owner ends a running job that nobody asked to cancel. -/
def endActive (db : QueueDb) (bridgeInstanceId ownerGeneration : String) (revision : Nat)
    (terminal : QueueRecord) (now : Nat) : RowUpdate QueueRow where
  guard row :=
    ownedAt bridgeInstanceId terminal.jobId ownerGeneration revision row && row.status.active
      && row.cancellationRequestedAt.isNone && db.instanceLive row.ownerInstanceId now
  set row :=
    { row with
      status := terminal.status
      startedAt := terminal.startedAt
      finishedAt := terminal.finishedAt
      heartbeatAt := terminal.heartbeatAt
      leaseExpiresAt := terminal.leaseExpiresAt
      childProcessId := terminal.childProcessId
      childProcessStartedAt := terminal.childProcessStartedAt
      recordJson := queueRecordDurableSummary runtime terminal
      resultEncrypted := terminal.resultEncrypted
      revision := row.revision + 1 }

/-- The owner ends a running job whose cancellation was asked for. -/
def endCancelled (bridgeInstanceId ownerGeneration : String) (revision : Nat)
    (cancelled : QueueRecord) : RowUpdate QueueRow where
  guard row :=
    ownedAt bridgeInstanceId cancelled.jobId ownerGeneration revision row && row.status.active
      && row.cancellationRequestedAt.isSome
  set row :=
    { row with
      status := .cancelled
      startedAt := cancelled.startedAt
      finishedAt := cancelled.finishedAt
      heartbeatAt := none
      leaseExpiresAt := none
      childProcessId := 0
      childProcessStartedAt := none
      recordJson := queueRecordDurableSummary runtime cancelled
      resultEncrypted := cancelled.cancellationResultEncrypted
      revision := row.revision + 1 }

/-- The outcome of one of the three updates a terminal commit tries in order. -/
inductive TerminalAttempt where
  | done (report : TerminalPersistence) (record : QueueRecord) (db : QueueDb)
  | missed (terminal : QueueRecord) (db : QueueDb)

def TerminalAttempt.db : TerminalAttempt → QueueDb
  | done _ _ db => db
  | missed _ db => db

/-- The propagation and the report after an update that took effect. -/
def terminalCommitted (db : QueueDb) (terminal : QueueRecord) (cancellationWon : Bool) (now : Nat) :
    TerminalAttempt :=
  let (propagation, db') :=
    propagatePipelineTerminalInTransaction db terminal.jobId terminal.status
      (terminal.finishedAt.getD now)
  .done ⟨true, some terminal.status, cancellationWon, false, false, propagation⟩ terminal db'

/-- Run one of the updates and, if it took effect, finish the commit. -/
def tryCommit (db : QueueDb) (update : RowUpdate QueueRow) (terminal : QueueRecord)
    (cancellationWon : Bool) (now : Nat) : TerminalAttempt :=
  let db' := { db with jobs := update.exec db.jobs }
  if update.changes db.jobs = 1 then terminalCommitted db' terminal cancellationWon now
  else .missed terminal db'

/-- `terminalRecord` of a job that has not started -/
def unstartedTerminalRecord (terminal : QueueRecord) (current : QueueRow) (now : Nat) :
    QueueRecord :=
  let terminal :=
    { terminal with
      finishedAt := terminal.finishedAt.or (some now)
      heartbeatAt := none
      leaseExpiresAt := none
      childProcessId := 0
      childProcessStartedAt := none }
  if current.cancellationRequestedAt.isSome then
    applyDurableCancellationOutcome terminal current.cancellationRequestedAt
  else terminal

/-- The first update: the owner's job is held, pending, planned or blocked. -/
def commitUnstarted (db : QueueDb) (bridgeInstanceId : String) (record : QueueRecord)
    (deferCancellationEnvelope : Bool) (now : Nat) : TerminalAttempt :=
  let current := db.job record.jobId
  let terminal := terminalRecord bridgeInstanceId current record
  match current with
  | none => .missed terminal db
  | some row =>
    if row.status.preExecution && row.ownerInstanceId = bridgeInstanceId
        && row.ownerGeneration = record.ownerGeneration
        && (record.status = .failed || record.status = .cancelled) then
      let terminal := unstartedTerminalRecord terminal row now
      if deferCancellationEnvelope && terminal.status = .cancelled
          && record.cancellationResultEncrypted.isNone then
        .done .deferred record db
      else
        let terminal := noteRetryIntent terminal current now
        let details :=
          if terminal.status = .cancelled then record.cancellationResultEncrypted
          else record.resultEncrypted
        let update := endUnstarted runtime bridgeInstanceId row.status record.ownerGeneration
          (attemptedRevision bridgeInstanceId current record) terminal details
        tryCommit db update terminal (terminal.status = .cancelled) now
    else .missed terminal db

/-- The second update: the owner's job is running and not marked. There is no lease
predicate on the row; generation and revision fence a stale owner. -/
def commitActive (db : QueueDb) (bridgeInstanceId : String) (record terminal : QueueRecord)
    (attempted now : Nat) : TerminalAttempt :=
  let terminal := noteRetryIntent terminal (db.job record.jobId) now
  tryCommit db
    (endActive runtime db bridgeInstanceId record.ownerGeneration attempted terminal now) terminal
    false now

def cancelledRecord (record : QueueRecord) (row : QueueRow) (now : Nat) : QueueRecord :=
  { applyDurableCancellationOutcome record row.cancellationRequestedAt with
    finishedAt := record.finishedAt.or (some now)
    heartbeatAt := none
    leaseExpiresAt := none
    ownerInstanceId := row.ownerInstanceId
    ownerProcessId := row.ownerProcessId
    ownerGeneration := row.ownerGeneration
    childProcessId := 0
    childProcessStartedAt := none
    revision := row.revision + 1 }

/-- The third update: the owner's job is running and marked, so the cancellation wins
whatever the record says. -/
def commitCancelled (db : QueueDb) (bridgeInstanceId : String) (record terminal : QueueRecord)
    (deferCancellationEnvelope : Bool) (now : Nat) : TerminalAttempt :=
  match db.job record.jobId with
  | none => .missed terminal db
  | some row =>
    if row.ownerInstanceId = bridgeInstanceId && row.ownerGeneration = record.ownerGeneration
        && row.status.active && row.cancellationRequestedAt.isSome then
      if deferCancellationEnvelope && record.cancellationResultEncrypted.isNone then
        .done .deferred record db
      else
        let cancelled := cancelledRecord record row now
        let update := endCancelled runtime bridgeInstanceId record.ownerGeneration row.revision
          cancelled
        match tryCommit db update cancelled true now with
        | .missed _ db' => .missed terminal db'
        | done => done
    else .missed terminal db

/-- The report of a commit none of whose updates took effect. -/
def terminalRefused (db : QueueDb) (bridgeInstanceId : String) (record : QueueRecord)
    (attempted : Nat) : TerminalPersistence where
  persisted := false
  status := (db.job record.jobId).map QueueRow.status
  cancellationWon := (db.job record.jobId).any fun row => row.cancellationRequestedAt.isSome
  ownershipLost := (db.job record.jobId).any fun row =>
    row.ownerInstanceId ≠ bridgeInstanceId || row.ownerGeneration ≠ record.ownerGeneration
      || row.revision ≠ attempted
  needsCancellationEnvelope := false
  propagation := none

def persistTerminalQueueRecord (db : QueueDb) (bridgeInstanceId : String) (record : QueueRecord)
    (deferCancellationEnvelope : Bool) (now : Nat) : TerminalPersistence × QueueRecord × QueueDb :=
  let attempted := attemptedRevision bridgeInstanceId (db.job record.jobId) record
  match commitUnstarted runtime db bridgeInstanceId record deferCancellationEnvelope now with
  | .done report record' db' => (report, record', db')
  | .missed terminal db' =>
    match commitActive runtime db' bridgeInstanceId record terminal attempted now with
    | .done report record' db' => (report, record', db')
    | .missed terminal db' =>
      match commitCancelled runtime db' bridgeInstanceId record terminal
          deferCancellationEnvelope now with
      | .done report record' db' => (report, record', db')
      | .missed _ db' =>
        (terminalRefused db' bridgeInstanceId record attempted,
          loadPersistedQueueRecord record (db'.job record.jobId), db')

/-! ### The ordinary persist -/

inductive QueuePersistence where
  | terminal (report : TerminalPersistence)
  | inserted (status : QueueStatus) (revision : Nat)
  | deduplicated (jobId : String)
  | idempotencyConflict (jobId : String)
  | capacityRefused
  | updated (status : QueueStatus) (revision : Nat)
  | refused (status : Option QueueStatus) (revision : Nat)

def insertedRow (record : QueueRecord) : QueueRow where
  jobId := record.jobId
  status := record.status
  createdAt := record.createdAt
  startedAt := record.startedAt
  finishedAt := record.finishedAt
  recordJson := queueRecordDurableSummary runtime record
  ownerInstanceId := record.ownerInstanceId
  ownerProcessId := record.ownerProcessId
  ownerGeneration := record.ownerGeneration
  heartbeatAt := record.heartbeatAt
  leaseExpiresAt := record.leaseExpiresAt
  cancellationRequestedAt := record.cancellationRequestedAt
  childProcessId := record.childProcessId
  childProcessStartedAt := record.childProcessStartedAt
  revision := record.revision
  idempotencyKey := record.idempotencyKey
  requestEncrypted := record.requestEncrypted
  resultEncrypted := record.resultEncrypted

/-- `WHERE idempotency_key = ?`, asked only for a record that has a key -/
def idempotentJob (db : QueueDb) (record : QueueRecord) : Option QueueRow :=
  if record.idempotencyKey = "" then none
  else db.jobs.find? fun row => row.idempotencyKey = record.idempotencyKey

/-- The part of `persistQueueRecord` for a job that has no row yet. -/
def insertQueueRecord (db : QueueDb) (record : QueueRecord) (capacityAvailable : Bool) :
    QueuePersistence × QueueRecord × QueueDb :=
  match idempotentJob db record with
  | some existing =>
    if existing.recordJson.requestFingerprint = ""
        || existing.recordJson.requestFingerprint ≠ record.requestFingerprint then
      (.idempotencyConflict existing.jobId, record, db)
    else (.deduplicated existing.jobId, record, db)
  | none =>
    if capacityAvailable then
      (.inserted record.status record.revision, record,
        { db with jobs := db.jobs ++ [insertedRow runtime record] })
    else (.capacityRefused, record, db)

/-- The owner's ordinary update: every column from the record, but the mark of a
cancellation only if the row has none. -/
def rewriteOwned (db : QueueDb) (bridgeInstanceId : String) (observed : QueueRow)
    (ownerGeneration : String) (next : QueueRecord) (now : Nat) : RowUpdate QueueRow where
  guard row :=
    ownedAt bridgeInstanceId next.jobId ownerGeneration observed.revision row
      && row.status = observed.status && row.leaseExpiresAt.after now
      && row.cancellationRequestedAt.isNone && db.instanceLive row.ownerInstanceId now
  set row :=
    { row with
      status := next.status
      startedAt := next.startedAt
      finishedAt := next.finishedAt
      recordJson := queueRecordDurableSummary runtime next
      ownerInstanceId := next.ownerInstanceId
      ownerProcessId := next.ownerProcessId
      ownerGeneration := next.ownerGeneration
      heartbeatAt := next.heartbeatAt
      leaseExpiresAt := next.leaseExpiresAt
      cancellationRequestedAt := row.cancellationRequestedAt.or next.cancellationRequestedAt
      childProcessId := next.childProcessId
      childProcessStartedAt := next.childProcessStartedAt
      resultEncrypted := next.resultEncrypted
      revision := row.revision + 1 }

/-- The record after a heartbeat-only advance has been taken over. -/
def rebasedRecord (bridgeInstanceId : String) (current : QueueRow) (record : QueueRecord) :
    QueueRecord :=
  if heartbeatOnlyQueueAdvance bridgeInstanceId current record then
    { record with
      revision := current.revision
      heartbeatAt := current.heartbeatAt.or record.heartbeatAt
      leaseExpiresAt := current.leaseExpiresAt.or record.leaseExpiresAt }
  else record

/-- `nextRecord` -/
def nextRecord (current : QueueRow) (record : QueueRecord) : QueueRecord :=
  { record with
    cancellationRequested :=
      current.cancellationRequestedAt.isSome || record.cancellationRequested
    cancellationRequestedAt := current.cancellationRequestedAt.or record.cancellationRequestedAt
    revision := current.revision + 1 }

/-- The part of `persistQueueRecord` for a job that has a row. -/
def updateQueueRecord (db : QueueDb) (bridgeInstanceId : String) (current : QueueRow)
    (record : QueueRecord) (now : Nat) : QueuePersistence × QueueRecord × QueueDb :=
  let sameOwner := current.ownerInstanceId = bridgeInstanceId
    && current.ownerGeneration = record.ownerGeneration && record.ownerGeneration ≠ ""
  let rebased := rebasedRecord bridgeInstanceId current record
  if current.status.terminal || !sameOwner || current.revision ≠ rebased.revision then
    (.refused (some current.status) current.revision,
      loadPersistedQueueRecord rebased (some current), db)
  else
    let next := nextRecord current rebased
    let update := rewriteOwned runtime db bridgeInstanceId current record.ownerGeneration next now
    let db' := { db with jobs := update.exec db.jobs }
    if update.changes db.jobs = 1 then (.updated next.status next.revision, next, db')
    else
      (.refused ((db'.job record.jobId).map QueueRow.status)
          ((db'.job record.jobId).elim 0 QueueRow.revision),
        loadPersistedQueueRecord rebased (db'.job record.jobId), db')

/-- `["completed", "failed", "cancelled"].includes(record.status)` -/
def ownerTerminal : QueueStatus → Bool
  | .completed | .failed | .cancelled => true
  | _ => false

/-- The record with its evidence enforced and its details encrypted. -/
def preparedRecord (record : QueueRecord) : QueueRecord :=
  let record := enforceQueueResultEvidence runtime record
  { record with
    resultEncrypted := some (queuePrivateDetails runtime record)
    cancellationResultEncrypted := none }

def envelopedRecord (record : QueueRecord) : QueueRecord :=
  { record with
    cancellationResultEncrypted :=
      some (queuePrivateDetails runtime (applyDurableCancellationOutcome record none)) }

/-- `persistQueueRecord`, up to the await of a cancellation envelope -/
def persistQueueRecord (db : QueueDb) (bridgeInstanceId : String) (record : QueueRecord)
    (capacityAvailable : Bool) (now : Nat) : QueuePersistence × QueueRecord × QueueDb :=
  let record := preparedRecord runtime record
  if ownerTerminal record.status then
    let (report, record', db') :=
      persistTerminalQueueRecord runtime db bridgeInstanceId record true now
    (.terminal report, record', db')
  else
    match db.job record.jobId with
    | none => insertQueueRecord runtime db record capacityAvailable
    | some current => updateQueueRecord runtime db bridgeInstanceId current record now

/-- `persistQueueRecord` after the await: the envelope of the cancelled record is at
hand and the commit is tried again on the row as it is now. -/
def persistQueueRecordWithEnvelope (db : QueueDb) (bridgeInstanceId : String)
    (record : QueueRecord) (now : Nat) : QueuePersistence × QueueRecord × QueueDb :=
  let (report, record', db') :=
    persistTerminalQueueRecord runtime db bridgeInstanceId (envelopedRecord runtime record) true now
  (.terminal report, record', db')

end AgentBridge.Queue
