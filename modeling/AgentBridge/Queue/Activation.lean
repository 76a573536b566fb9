import AgentBridge.Queue.Children
import AgentBridge.Systems.Statement

/-!
# Batch activation

`activatePipelineBatch` of `server.js`, statement by statement: the jobs of all children
are inserted as held and released, their relations and the pipeline written, in one
transaction, and only after its commit does the process take the children and the pipeline
into memory. Any statement may fail, and so may the commit, with or without its rows
durable.
-/

namespace AgentBridge.Queue

open Systems List

structure ActivatedEvent where
  type : String
  time : Nat
  queueJobIds : List String
  expectedChildCount : Nat

structure PipelineObject where
  pipelineId : String
  status : PipelineStatus
  revision : Nat
  ownerGeneration : String
  startedAt : Stamp
  finishedAt : Stamp
  updatedAt : Stamp
  ownerHeartbeatAt : Stamp
  ownerLeaseExpiresAt : Stamp
  queueJobIds : List String
  expectedChildCount : Nat
  batchState : BatchState
  cleanupState : String
  events : List ActivatedEvent

/-- A row of `opencode_pipelines` with the columns of an activation. `record` is what
`record_json` and `details_encrypted` keep. -/
structure PipelineColumns where
  pipelineId : String
  status : PipelineStatus
  revision : Nat
  ownerInstanceId : String
  ownerGeneration : String
  ownerHeartbeatAt : Stamp
  ownerLeaseExpiresAt : Stamp
  expectedChildCount : Nat
  batchState : BatchState
  cleanupState : String
  record : PipelineObject

structure BatchChild where
  pipelineId : String
  ordinal : Nat
  jobId : String

/-- The tables an activation reads and writes. -/
structure BatchDb where
  jobs : List QueueRow
  children : List BatchChild
  pipelines : List PipelineColumns
  instances : List BridgeInstance

/-- What the process holds: the pipeline and the children of the call, `QUEUE_JOBS` and
`PIPELINE_RUNS`. -/
structure BatchMemory where
  record : PipelineObject
  preparedRecords : List QueueRecord
  queueJobs : List (String × QueueRecord)
  pipelineRuns : List (String × PipelineObject)

/-- The places at which an activation can fail for a reason of its surroundings. -/
inductive ActivationPoint where
  | encryptResults | encryptDetails | openDatabase | begin | readCapacity | readPipeline
  | countChildren
  | insertJob (ordinal : Nat)
  | insertChild (ordinal : Nat)
  | releaseJob (ordinal : Nat)
  | activatePipeline

/-- What `COMMIT` does: it commits, it fails and leaves nothing, or it reports an error
after its rows are durable. -/
inductive CommitOutcome where
  | committed | failed | unreported

structure ActivationCall where
  /-- `effectiveQueueMode() === "sqlite"` -/
  sqliteQueue : Bool
  bridgeInstanceId : String
  capacityAvailable : Bool
  activatedAt : Nat
  commitAt : Nat
  commitLeaseExpiresAt : Nat
  throws : ActivationPoint → Bool
  commit : CommitOutcome

inductive ActivationError where
  | pipelineRequiresSqliteQueue
  | pipelineBatchInvalid
  | stateCapacityExceeded
  | pipelineConcurrentUpdate
  | pipelineBatchIdempotencyConflict
  | pipelineBatchPersistenceFailed
  deriving DecidableEq

inductive ActivationAnswer where
  | ok (queueJobIds : List String)
  | refused (errorType : ActivationError)
  /-- The call throws. -/
  | rejected
  deriving DecidableEq

variable (runtime : QueueRuntime) (call : ActivationCall)

/-- A statement that may throw. -/
def attempt (point : ActivationPoint) : Except ActivationError Unit :=
  if call.throws point then .error .pipelineBatchPersistenceFailed else .ok ()

/-- A check that refuses the batch. -/
def refuseIf (condition : Bool) (errorType : ActivationError) : Except ActivationError Unit :=
  if condition then .error errorType else .ok ()

/-- `child.resultEncrypted || await encryptQueuePrivateDetails(child)` -/
def sealChild (child : QueueRecord) : QueueRecord :=
  { child with
    resultEncrypted := child.resultEncrypted.orElse fun _ =>
      some (queuePrivateDetails runtime child) }

/-- The child with the times of the transaction. -/
def stampChild (child : QueueRecord) : QueueRecord :=
  { child with
    heartbeatAt := some call.commitAt
    leaseExpiresAt := some call.commitLeaseExpiresAt }

def activationCandidate (record : PipelineObject) (queueJobIds : List String) : PipelineObject :=
  { record with
    status := .running
    startedAt := record.startedAt.orElse fun _ => some call.activatedAt
    finishedAt := none
    queueJobIds := queueJobIds
    expectedChildCount := queueJobIds.length
    batchState := .released
    revision := record.revision + 1
    updatedAt := some call.commitAt
    ownerHeartbeatAt := some call.commitAt
    ownerLeaseExpiresAt := some call.commitLeaseExpiresAt
    events := record.events
      ++ [⟨"queue_batch_activated", call.activatedAt, queueJobIds, queueJobIds.length⟩] }

/-! ### The transaction -/

def activationClaimMatches (record : PipelineObject) (db : BatchDb)
    (authoritative : PipelineColumns) : Bool :=
  authoritative.status = .planned && authoritative.revision = record.revision
    && authoritative.ownerInstanceId = call.bridgeInstanceId
    && authoritative.ownerGeneration = record.ownerGeneration
    && db.children.all (fun child => child.pipelineId ≠ record.pipelineId)
    && authoritative.expectedChildCount = 0
    && (authoritative.batchState = .unstarted || authoritative.batchState = .legacy)

/-- The row that `insertJob` writes. -/
def heldChild (child : QueueRecord) : QueueRow :=
  { releasedChild runtime child call.commitAt call.commitLeaseExpiresAt with
    status := .held
    recordJson := queueRecordDurableSummary runtime { child with status := .held, revision := 0 }
    revision := 0 }

/-- `insertJob` and `insertChild`, with the unique indexes of their tables. -/
def insertHeld (pipelineId : String) (db : BatchDb) (entry : QueueRecord × Nat) :
    Except ActivationError BatchDb := do
  let (child, ordinal) := entry
  attempt call (.insertJob ordinal)
  refuseIf (db.jobs.any fun row => row.jobId = child.jobId
    || (child.idempotencyKey ≠ "" && row.idempotencyKey = child.idempotencyKey))
    .pipelineBatchIdempotencyConflict
  attempt call (.insertChild ordinal)
  refuseIf (db.children.any fun relation => (relation.pipelineId = pipelineId
    && relation.ordinal = ordinal) || relation.jobId = child.jobId)
    .pipelineBatchIdempotencyConflict
  return { db with
    jobs := db.jobs ++ [heldChild runtime call child]
    children := db.children ++ [⟨pipelineId, ordinal, child.jobId⟩] }

/-- The update of `releaseJob`. -/
def releaseHeld (child : QueueRecord) : RowUpdate QueueRow where
  guard row := row.jobId = child.jobId && row.status = .held && row.revision = 0
    && row.ownerInstanceId = call.bridgeInstanceId && row.ownerGeneration = child.ownerGeneration
  set row := { row with
    status := .pending
    recordJson := queueRecordDurableSummary runtime { child with status := .pending, revision := 1 }
    revision := row.revision + 1 }

def releaseJob (db : BatchDb) (entry : QueueRecord × Nat) : Except ActivationError BatchDb := do
  let (child, ordinal) := entry
  attempt call (.releaseJob ordinal)
  refuseIf ((releaseHeld runtime call child).changes db.jobs ≠ 1) .pipelineBatchPersistenceFailed
  return { db with jobs := (releaseHeld runtime call child).exec db.jobs }

/-- The update of the pipeline. -/
def activateColumns (record candidate : PipelineObject) (instances : List BridgeInstance) :
    RowUpdate PipelineColumns where
  guard row := row.pipelineId = record.pipelineId && row.revision = record.revision
    && row.status = .planned && row.ownerInstanceId = call.bridgeInstanceId
    && row.ownerGeneration = record.ownerGeneration
    && row.ownerLeaseExpiresAt.after call.commitAt
    && instances.any (fun owner => owner.instanceId = row.ownerInstanceId
      && call.commitAt < owner.leaseExpiresAt)
  set row := { row with
    status := .running
    revision := candidate.revision
    ownerHeartbeatAt := candidate.ownerHeartbeatAt
    ownerLeaseExpiresAt := candidate.ownerLeaseExpiresAt
    expectedChildCount := candidate.expectedChildCount
    batchState := .released
    cleanupState := orText candidate.cleanupState "none"
    record := candidate }

/-- The statements from `BEGIN IMMEDIATE` to `COMMIT`. -/
def activationTransaction (db : BatchDb) (record : PipelineObject)
    (preparedRecords : List QueueRecord) : Except ActivationError BatchDb := do
  attempt call .begin
  attempt call .readCapacity
  refuseIf (!call.capacityAvailable) .stateCapacityExceeded
  attempt call .readPipeline
  attempt call .countChildren
  let authoritative := db.pipelines.find? fun row => row.pipelineId = record.pipelineId
  refuseIf (!authoritative.any (activationClaimMatches call record db)) .pipelineConcurrentUpdate
  let inserted ← preparedRecords.zipIdx.foldlM (insertHeld runtime call record.pipelineId) db
  let released ← preparedRecords.zipIdx.foldlM (releaseJob runtime call) inserted
  attempt call .activatePipeline
  let candidate := activationCandidate call record (preparedRecords.map QueueRecord.jobId)
  let update := activateColumns call record candidate released.instances
  refuseIf (update.changes released.pipelines ≠ 1) .pipelineBatchPersistenceFailed
  return { released with pipelines := update.exec released.pipelines }

/-! ### The call -/

def mapSet {Value : Type} (entries : List (String × Value)) (key : String) (value : Value) :
    List (String × Value) :=
  entries.filter (fun entry => entry.1 ≠ key) ++ [(key, value)]

/-- What the process takes into memory after the commit. -/
def activatedMemory (memory : BatchMemory) (preparedRecords : List QueueRecord) : BatchMemory :=
  let pending := preparedRecords.map fun child =>
    { child with status := .pending, revision := 1 }
  let record := activationCandidate call memory.record (preparedRecords.map QueueRecord.jobId)
  { record := record
    preparedRecords := pending
    queueJobs := pending.foldl (fun entries child => mapSet entries child.jobId child)
      memory.queueJobs
    pipelineRuns := mapSet memory.pipelineRuns record.pipelineId record }

/-- `activatePipelineBatch`: the answer, the tables and the memory. The transaction that has
not been committed is rolled back or dropped with its connection. -/
def activateBatch (db : BatchDb) (memory : BatchMemory) :
    ActivationAnswer × BatchDb × BatchMemory :=
  let jobIds := memory.preparedRecords.map QueueRecord.jobId
  if !call.sqliteQueue then (.refused .pipelineRequiresSqliteQueue, db, memory)
  else if memory.preparedRecords.isEmpty
      || memory.preparedRecords.any (fun child => child.requestEncrypted = "")
      || !decide jobIds.Nodup then
    (.refused .pipelineBatchInvalid, db, memory)
  else if call.throws .encryptResults then (.rejected, db, memory)
  else
    let sealed := { memory with
      preparedRecords := memory.preparedRecords.map (sealChild runtime) }
    if call.throws .encryptDetails || call.throws .openDatabase then (.rejected, db, sealed)
    else if call.throws .begin then (.refused .pipelineBatchPersistenceFailed, db, sealed)
    else
      let stamped := { sealed with
        preparedRecords := sealed.preparedRecords.map (stampChild call) }
      match activationTransaction runtime call db memory.record stamped.preparedRecords with
      | .error errorType => (.refused errorType, db, stamped)
      | .ok after =>
        match call.commit with
        | .committed => (.ok jobIds, after, activatedMemory call memory stamped.preparedRecords)
        | .failed => (.refused .pipelineBatchPersistenceFailed, db, stamped)
        | .unreported => (.refused .pipelineBatchPersistenceFailed, after, stamped)

/-! ### When the transaction goes through -/

variable {runtime} {call} {db after : BatchDb} {record : PipelineObject}

theorem bind_eq_ok {α β : Type} {first : Except ActivationError α}
    {next : α → Except ActivationError β} {result : β} :
    (first >>= next) = .ok result ↔ ∃ value, first = .ok value ∧ next value = .ok result := by
  cases first <;> simp [bind, Except.bind]

theorem attempt_eq_ok {point : ActivationPoint} {done : Unit} :
    attempt call point = .ok done ↔ call.throws point = false := by
  rw [attempt]
  split <;> simp_all

theorem refuseIf_eq_ok {condition : Bool} {errorType : ActivationError} {done : Unit} :
    refuseIf condition errorType = .ok done ↔ condition = false := by
  rw [refuseIf]
  split <;> simp_all

/-- The entry can be inserted: neither statement throws, and the unique indexes have neither its
job, nor its key, nor its relation. -/
structure Insertable (call : ActivationCall) (pipelineId : String) (db : BatchDb)
    (entry : QueueRecord × Nat) : Prop where
  insertJob : call.throws (.insertJob entry.2) = false
  insertChild : call.throws (.insertChild entry.2) = false
  job : ∀ row ∈ db.jobs, row.jobId ≠ entry.1.jobId ∧
    (entry.1.idempotencyKey = "" ∨ row.idempotencyKey ≠ entry.1.idempotencyKey)
  relation : ∀ relation ∈ db.children,
    (relation.pipelineId = pipelineId → relation.ordinal ≠ entry.2) ∧
    relation.jobId ≠ entry.1.jobId

/-- The tables with the entries inserted. -/
def withHeld (runtime : QueueRuntime) (call : ActivationCall) (pipelineId : String) (db : BatchDb)
    (entries : List (QueueRecord × Nat)) : BatchDb :=
  { db with
    jobs := db.jobs ++ entries.map fun entry => heldChild runtime call entry.1
    children := db.children ++ entries.map fun entry => ⟨pipelineId, entry.2, entry.1.jobId⟩ }

theorem insertHeld_eq_ok {pipelineId : String} {entry : QueueRecord × Nat} :
    insertHeld runtime call pipelineId db entry = .ok after ↔
      Insertable call pipelineId db entry ∧
        after = withHeld runtime call pipelineId db [entry] := by
  simp only [insertHeld, bind_eq_ok, attempt_eq_ok, refuseIf_eq_ok, exists_and_left, exists_const,
    any_eq_false]
  constructor
  · rintro ⟨hinsertJob, hjob, hinsertChild, hrelation, hafter⟩
    refine ⟨⟨hinsertJob, hinsertChild, ?_, ?_⟩, ?_⟩
    · intro row hrow
      have hrow := hjob row hrow
      simp only [Bool.or_eq_true, Bool.and_eq_true, decide_eq_true_eq] at hrow
      tauto
    · intro relation hmem
      have hmem := hrelation relation hmem
      simp only [Bool.or_eq_true, Bool.and_eq_true, decide_eq_true_eq] at hmem
      tauto
    · exact (Except.ok.inj hafter).symm
  · rintro ⟨⟨hinsertJob, hinsertChild, hjob, hrelation⟩, rfl⟩
    refine ⟨hinsertJob, ?_, hinsertChild, ?_, rfl⟩
    · intro row hrow
      have hrow := hjob row hrow
      simp only [Bool.or_eq_true, Bool.and_eq_true, decide_eq_true_eq]
      tauto
    · intro relation hmem
      have hmem := hrelation relation hmem
      simp only [Bool.or_eq_true, Bool.and_eq_true, decide_eq_true_eq]
      tauto

/-- After one entry another is insertable if it was and differs from it. -/
theorem insertable_withHeld {pipelineId : String} {first second : QueueRecord × Nat}
    (hjob : first.1.jobId ≠ second.1.jobId) (hordinal : first.2 ≠ second.2) :
    Insertable call pipelineId (withHeld runtime call pipelineId db [first]) second ↔
      Insertable call pipelineId db second ∧
        (second.1.idempotencyKey = "" ∨ first.1.idempotencyKey ≠ second.1.idempotencyKey) := by
  constructor
  · rintro ⟨hinsertJob, hinsertChild, hjobs, hrelations⟩
    refine ⟨⟨hinsertJob, hinsertChild, ?_, ?_⟩, ?_⟩
    · exact fun row hrow => hjobs row (mem_append_left _ hrow)
    · exact fun relation hmem => hrelations relation (mem_append_left _ hmem)
    · exact (hjobs (heldChild runtime call first.1) (by simp [withHeld])).2
  · rintro ⟨⟨hinsertJob, hinsertChild, hjobs, hrelations⟩, hkey⟩
    refine ⟨hinsertJob, hinsertChild, ?_, ?_⟩
    · intro row hrow
      rcases mem_append.mp hrow with hold | hnew
      · exact hjobs row hold
      · obtain rfl := mem_singleton.mp hnew
        exact ⟨hjob, hkey⟩
    · intro relation hmem
      rcases mem_append.mp hmem with hold | hnew
      · exact hrelations relation hold
      · obtain rfl := mem_singleton.mp hnew
        exact ⟨fun _ => hordinal, hjob⟩

theorem foldlM_insertHeld_eq_ok {pipelineId : String} {entries : List (QueueRecord × Nat)}
    (hjobs : (entries.map fun entry => entry.1.jobId).Nodup)
    (hordinals : (entries.map Prod.snd).Nodup) :
    entries.foldlM (insertHeld runtime call pipelineId) db = .ok after ↔
      (∀ entry ∈ entries, Insertable call pipelineId db entry) ∧
      entries.Pairwise (fun first second => second.1.idempotencyKey = "" ∨
        first.1.idempotencyKey ≠ second.1.idempotencyKey) ∧
      after = withHeld runtime call pipelineId db entries := by
  induction entries generalizing db with
  | nil =>
    simp only [foldlM_nil, pure, Except.pure, Except.ok.injEq, withHeld, map_nil,
      append_nil, not_mem_nil, false_implies, implies_true, List.Pairwise.nil, true_and]
    exact eq_comm
  | cons first rest ih =>
    rw [map_cons, nodup_cons] at hjobs hordinals
    have hstep : ∀ second ∈ rest,
        (Insertable call pipelineId (withHeld runtime call pipelineId db [first]) second ↔
          Insertable call pipelineId db second ∧ (second.1.idempotencyKey = "" ∨
            first.1.idempotencyKey ≠ second.1.idempotencyKey)) := by
      intro second hsecond
      refine insertable_withHeld ?_ ?_
      · intro heq
        exact hjobs.1 (heq ▸ mem_map_of_mem hsecond)
      · intro heq
        exact hordinals.1 (heq ▸ mem_map_of_mem hsecond)
    have happend : withHeld runtime call pipelineId
        (withHeld runtime call pipelineId db [first]) rest
          = withHeld runtime call pipelineId db (first :: rest) := by
      simp [withHeld]
    simp only [foldlM_cons, bind_eq_ok, insertHeld_eq_ok, ih hjobs.2 hordinals.2,
      pairwise_cons, forall_mem_cons]
    constructor
    · rintro ⟨_, ⟨hfirst, rfl⟩, hrest, hpairwise, rfl⟩
      exact ⟨⟨hfirst, fun second hsecond => ((hstep second hsecond).mp (hrest second hsecond)).1⟩,
        ⟨fun second hsecond => ((hstep second hsecond).mp (hrest second hsecond)).2, hpairwise⟩,
        happend⟩
    · rintro ⟨⟨hfirst, hrest⟩, ⟨hkeys, hpairwise⟩, rfl⟩
      exact ⟨_, ⟨hfirst, rfl⟩,
        fun second hsecond =>
          (hstep second hsecond).mpr ⟨hrest second hsecond, hkeys second hsecond⟩,
        hpairwise, happend.symm⟩

/-- The released row of a child. -/
def pendingChild (runtime : QueueRuntime) (call : ActivationCall) (child : QueueRecord) :
    QueueRow :=
  (releaseHeld runtime call child).set (heldChild runtime call child)

section

variable {child : QueueRecord} {before later : List QueueRow}

theorem guard_releaseHeld_heldChild :
    (releaseHeld runtime call child).guard (heldChild runtime call child)
      = decide (child.ownerInstanceId = call.bridgeInstanceId) := by
  simp [releaseHeld, heldChild, releasedChild]

theorem guard_releaseHeld_before
    (hbefore : ∀ row ∈ before, row.jobId = child.jobId → row.status ≠ .held) :
    ∀ row ∈ before, (releaseHeld runtime call child).guard row = false := by
  intro row hrow
  by_contra hguard
  simp only [Bool.not_eq_false, releaseHeld, Bool.and_eq_true, decide_eq_true_eq] at hguard
  exact hbefore row hrow hguard.1.1.1.1 hguard.1.1.1.2

theorem guard_releaseHeld_later (hlater : ∀ row ∈ later, row.jobId ≠ child.jobId) :
    ∀ row ∈ later, (releaseHeld runtime call child).guard row = false := by
  intro row hrow
  simp [releaseHeld, hlater row hrow]

section

variable (hbefore : ∀ row ∈ before, row.jobId = child.jobId → row.status ≠ .held)

include hbefore

/-- Among rows of other jobs, the release meets the one row of its child. -/
theorem changes_releaseHeld (hlater : ∀ row ∈ later, row.jobId ≠ child.jobId) :
    (releaseHeld runtime call child).changes
        (before ++ heldChild runtime call child :: later) = 1 ↔
      child.ownerInstanceId = call.bridgeInstanceId := by
  have hnone : before.countP (releaseHeld runtime call child).guard = 0 :=
    countP_eq_zero.mpr fun row hrow => by simp [guard_releaseHeld_before hbefore row hrow]
  have hrest : later.countP (releaseHeld runtime call child).guard = 0 :=
    countP_eq_zero.mpr fun row hrow => by simp [guard_releaseHeld_later hlater row hrow]
  rw [RowUpdate.changes, countP_append, countP_cons, hnone, hrest,
    guard_releaseHeld_heldChild]
  by_cases howner : child.ownerInstanceId = call.bridgeInstanceId <;> simp [howner]

theorem exec_releaseHeld (hlater : ∀ row ∈ later, row.jobId ≠ child.jobId)
    (howner : child.ownerInstanceId = call.bridgeInstanceId) :
    (releaseHeld runtime call child).exec (before ++ heldChild runtime call child :: later)
      = before ++ pendingChild runtime call child :: later := by
  have hfirst : (releaseHeld runtime call child).exec before = before :=
    RowUpdate.exec_eq_self (guard_releaseHeld_before hbefore)
  have hsecond : (releaseHeld runtime call child).exec later = later :=
    RowUpdate.exec_eq_self (guard_releaseHeld_later hlater)
  calc
    _ = (releaseHeld runtime call child).exec before
          ++ (releaseHeld runtime call child).exec (heldChild runtime call child :: later) :=
        map_append
    _ = before ++ pendingChild runtime call child :: later := by
        rw [hfirst]
        show before ++ (if (releaseHeld runtime call child).guard (heldChild runtime call child)
          then pendingChild runtime call child else heldChild runtime call child)
            :: (releaseHeld runtime call child).exec later = _
        rw [guard_releaseHeld_heldChild, if_pos (by simp [howner]), hsecond]

theorem releaseJob_eq_ok {ordinal : Nat} (hlater : ∀ row ∈ later, row.jobId ≠ child.jobId)
    (hdb : db.jobs = before ++ heldChild runtime call child :: later) :
    releaseJob runtime call db (child, ordinal) = .ok after ↔
      (call.throws (.releaseJob ordinal) = false ∧
        child.ownerInstanceId = call.bridgeInstanceId) ∧
      after = { db with jobs := (before ++ [pendingChild runtime call child]) ++ later } := by
  simp only [releaseJob, bind_eq_ok, attempt_eq_ok, refuseIf_eq_ok, exists_and_left,
    exists_const, decide_eq_false_iff_not, not_not, pure, Except.pure, Except.ok.injEq, hdb,
    changes_releaseHeld hbefore hlater, append_assoc, singleton_append]
  constructor
  · rintro ⟨hthrows, howner, rfl⟩
    exact ⟨⟨hthrows, howner⟩, by rw [exec_releaseHeld hbefore hlater howner]⟩
  · rintro ⟨⟨hthrows, howner⟩, rfl⟩
    exact ⟨hthrows, howner, by rw [exec_releaseHeld hbefore hlater howner]⟩

end

end

theorem foldlM_releaseJob_eq_ok {before : List QueueRow} {entries : List (QueueRecord × Nat)}
    (hjobs : (entries.map fun entry => entry.1.jobId).Nodup)
    (hbefore : ∀ row ∈ before, ∀ entry ∈ entries, row.jobId = entry.1.jobId → row.status ≠ .held)
    (hdb : db.jobs = before ++ entries.map fun entry => heldChild runtime call entry.1) :
    entries.foldlM (releaseJob runtime call) db = .ok after ↔
      (∀ entry ∈ entries, call.throws (.releaseJob entry.2) = false ∧
        entry.1.ownerInstanceId = call.bridgeInstanceId) ∧
      after = { db with
        jobs := before ++ entries.map fun entry => pendingChild runtime call entry.1 } := by
  induction entries generalizing before db with
  | nil =>
    have hsame : { db with jobs := before ++ [] } = db := by
      exact congrArg (fun jobs => { db with jobs := jobs }) hdb.symm
    simp only [foldlM_nil, pure, Except.pure, Except.ok.injEq, map_nil, hsame,
      not_mem_nil, false_implies, implies_true, true_and]
    exact eq_comm
  | cons first rest ih =>
    rw [map_cons, nodup_cons] at hjobs
    have hlater : ∀ row ∈ rest.map fun entry => heldChild runtime call entry.1,
        row.jobId ≠ first.1.jobId := by
      intro row hrow heq
      obtain ⟨entry, hentry, rfl⟩ := mem_map.mp hrow
      exact hjobs.1 (mem_map.mpr ⟨entry, hentry, heq⟩)
    have hfirst : ∀ row ∈ before, row.jobId = first.1.jobId → row.status ≠ .held :=
      fun row hrow => hbefore row hrow first mem_cons_self
    have hnext : ∀ row ∈ before ++ [pendingChild runtime call first.1], ∀ entry ∈ rest,
        row.jobId = entry.1.jobId → row.status ≠ .held := by
      intro row hrow entry hentry hjob
      rcases mem_append.mp hrow with hold | hnew
      · exact hbefore row hold entry (mem_cons_of_mem _ hentry) hjob
      · obtain rfl := mem_singleton.mp hnew
        exact fun hheld => QueueStatus.noConfusion hheld
    simp only [foldlM_cons, bind_eq_ok, releaseJob_eq_ok hfirst hlater hdb,
      forall_mem_cons]
    constructor
    · rintro ⟨_, ⟨hfirst, rfl⟩, hrest⟩
      obtain ⟨hall, rfl⟩ := (ih hjobs.2 hnext rfl).mp hrest
      exact ⟨⟨hfirst, hall⟩, by simp⟩
    · rintro ⟨⟨hfirst, hrest⟩, rfl⟩
      exact ⟨_, ⟨hfirst, rfl⟩, (ih hjobs.2 hnext rfl).mpr ⟨hrest, by simp⟩⟩

/-! ### The whole transaction -/

/-- Everything the statements of an activation need: none throws, the database has room, the
pipeline is the planned one of this process, without children and under a live lease, and no
unique index has a job, a key or a relation of the batch. -/
structure Committable (call : ActivationCall) (db : BatchDb) (record : PipelineObject)
    (preparedRecords : List QueueRecord) : Prop where
  statements : call.throws .begin = false ∧ call.throws .readCapacity = false ∧
    call.throws .readPipeline = false ∧ call.throws .countChildren = false ∧
    call.throws .activatePipeline = false
  capacity : call.capacityAvailable = true
  claim : (db.pipelines.find? fun row => row.pipelineId = record.pipelineId).any
    (activationClaimMatches call record db) = true
  inserts : ∀ entry ∈ preparedRecords.zipIdx, Insertable call record.pipelineId db entry
  keys : preparedRecords.Pairwise fun first second =>
    second.idempotencyKey = "" ∨ first.idempotencyKey ≠ second.idempotencyKey
  releases : ∀ entry ∈ preparedRecords.zipIdx, call.throws (.releaseJob entry.2) = false ∧
    entry.1.ownerInstanceId = call.bridgeInstanceId
  pipeline : (activateColumns call record (activationCandidate call record
    (preparedRecords.map QueueRecord.jobId)) db.instances).changes db.pipelines = 1

/-- The tables that a committed activation leaves. -/
def activatedDb (runtime : QueueRuntime) (call : ActivationCall) (db : BatchDb)
    (record : PipelineObject) (preparedRecords : List QueueRecord) : BatchDb where
  jobs := db.jobs ++ preparedRecords.map (pendingChild runtime call)
  children := db.children ++ preparedRecords.zipIdx.map fun entry =>
    ⟨record.pipelineId, entry.2, entry.1.jobId⟩
  pipelines := (activateColumns call record (activationCandidate call record
    (preparedRecords.map QueueRecord.jobId)) db.instances).exec db.pipelines
  instances := db.instances

theorem map_zipIdx_fst {α β : Type} (items : List α) (f : α → β) :
    items.zipIdx.map (fun entry => f entry.1) = items.map f := by
  have hmap : (items.zipIdx.map Prod.fst).map f = items.map f := by rw [zipIdx_map_fst]
  rwa [map_map] at hmap

theorem activationTransaction_eq_ok {preparedRecords : List QueueRecord}
    (hjobs : (preparedRecords.map QueueRecord.jobId).Nodup) :
    activationTransaction runtime call db record preparedRecords = .ok after ↔
      Committable call db record preparedRecords ∧
        after = activatedDb runtime call db record preparedRecords := by
  have hentries : (preparedRecords.zipIdx.map fun entry => entry.1.jobId).Nodup := by
    rw [map_zipIdx_fst preparedRecords QueueRecord.jobId]
    exact hjobs
  have hordinals : (preparedRecords.zipIdx.map Prod.snd).Nodup := by
    rw [zipIdx_map_snd]
    exact nodup_range'
  have hkeys : preparedRecords.zipIdx.Pairwise (fun first second => second.1.idempotencyKey = "" ∨
        first.1.idempotencyKey ≠ second.1.idempotencyKey) ↔
      preparedRecords.Pairwise fun first second =>
        second.idempotencyKey = "" ∨ first.idempotencyKey ≠ second.idempotencyKey := by
    have hmap := pairwise_map (f := Prod.fst) (l := preparedRecords.zipIdx)
      (R := fun first second : QueueRecord =>
        second.idempotencyKey = "" ∨ first.idempotencyKey ≠ second.idempotencyKey)
    rw [zipIdx_map_fst] at hmap
    exact hmap.symm
  have hreleases : (∀ entry ∈ preparedRecords.zipIdx, Insertable call record.pipelineId db entry) →
      ∀ released, preparedRecords.zipIdx.foldlM (releaseJob runtime call)
        (withHeld runtime call record.pipelineId db preparedRecords.zipIdx) = .ok released ↔
      (∀ entry ∈ preparedRecords.zipIdx, call.throws (.releaseJob entry.2) = false ∧
        entry.1.ownerInstanceId = call.bridgeInstanceId) ∧
      released = { withHeld runtime call record.pipelineId db preparedRecords.zipIdx with
        jobs := db.jobs ++ preparedRecords.map (pendingChild runtime call) } := by
    intro hinsertable released
    rw [← map_zipIdx_fst preparedRecords (pendingChild runtime call)]
    refine foldlM_releaseJob_eq_ok hentries ?_ rfl
    intro row hrow entry hentry hjob
    exact absurd hjob ((hinsertable entry hentry).job row hrow).1
  simp only [activationTransaction, bind_eq_ok, attempt_eq_ok, refuseIf_eq_ok, exists_and_left,
    exists_const, Bool.not_eq_false', foldlM_insertHeld_eq_ok hentries hordinals, hkeys,
    decide_eq_false_iff_not, not_not, pure, Except.pure, Except.ok.injEq]
  constructor
  · rintro ⟨hbegin, hreadCapacity, hcapacity, hreadPipeline, hcountChildren, hclaim, _,
      ⟨hinserts, hkeys, rfl⟩, released, hreleased, hactivate, hpipeline, rfl⟩
    obtain ⟨hreleases, rfl⟩ := (hreleases hinserts released).mp hreleased
    exact ⟨⟨⟨hbegin, hreadCapacity, hreadPipeline, hcountChildren, hactivate⟩, hcapacity, hclaim,
      hinserts, hkeys, hreleases, hpipeline⟩, rfl⟩
  · rintro ⟨⟨⟨hbegin, hreadCapacity, hreadPipeline, hcountChildren, hactivate⟩, hcapacity, hclaim,
      hinserts, hkeys, hreleased, hpipeline⟩, rfl⟩
    exact ⟨hbegin, hreadCapacity, hcapacity, hreadPipeline, hcountChildren, hclaim, _,
      ⟨hinserts, hkeys, rfl⟩, _, (hreleases hinserts _).mpr ⟨hreleased, rfl⟩, hactivate, hpipeline,
      rfl⟩

theorem Committable.map_iff {preparedRecords : List QueueRecord} {f : QueueRecord → QueueRecord}
    (hjob : ∀ child, (f child).jobId = child.jobId)
    (hkey : ∀ child, (f child).idempotencyKey = child.idempotencyKey)
    (howner : ∀ child, (f child).ownerInstanceId = child.ownerInstanceId) :
    Committable call db record (preparedRecords.map f) ↔
      Committable call db record preparedRecords := by
  have hjobs : (preparedRecords.map f).map QueueRecord.jobId
      = preparedRecords.map QueueRecord.jobId := by
    rw [map_map]
    exact map_congr_left fun child _ => hjob child
  have hinserts : (∀ entry ∈ (preparedRecords.map f).zipIdx,
        Insertable call record.pipelineId db entry) ↔
      ∀ entry ∈ preparedRecords.zipIdx, Insertable call record.pipelineId db entry := by
    rw [zipIdx_map, forall_mem_map]
    refine forall₂_congr fun entry _ => ?_
    constructor
    · rintro ⟨hinsertJob, hinsertChild, hfree, hrelation⟩
      exact ⟨hinsertJob, hinsertChild, by simpa [hjob, hkey] using hfree,
        by simpa [hjob] using hrelation⟩
    · rintro ⟨hinsertJob, hinsertChild, hfree, hrelation⟩
      exact ⟨hinsertJob, hinsertChild, by simpa [hjob, hkey] using hfree,
        by simpa [hjob] using hrelation⟩
  have hkeys : ((preparedRecords.map f).Pairwise fun first second =>
        second.idempotencyKey = "" ∨ first.idempotencyKey ≠ second.idempotencyKey) ↔
      preparedRecords.Pairwise fun first second =>
        second.idempotencyKey = "" ∨ first.idempotencyKey ≠ second.idempotencyKey := by
    simp only [pairwise_map, hkey]
  have hreleases : (∀ entry ∈ (preparedRecords.map f).zipIdx,
        call.throws (.releaseJob entry.2) = false ∧
          entry.1.ownerInstanceId = call.bridgeInstanceId) ↔
      ∀ entry ∈ preparedRecords.zipIdx, call.throws (.releaseJob entry.2) = false ∧
        entry.1.ownerInstanceId = call.bridgeInstanceId := by
    rw [zipIdx_map, forall_mem_map]
    simp only [Prod.map_fst, Prod.map_snd, id_eq, howner]
  constructor
  · rintro ⟨hstatements, hcapacity, hclaim, hall, hpairwise, hreleased, hpipeline⟩
    rw [hjobs] at hpipeline
    exact ⟨hstatements, hcapacity, hclaim, hinserts.mp hall, hkeys.mp hpairwise,
      hreleases.mp hreleased, hpipeline⟩
  · rintro ⟨hstatements, hcapacity, hclaim, hall, hpairwise, hreleased, hpipeline⟩
    rw [← hjobs] at hpipeline
    exact ⟨hstatements, hcapacity, hclaim, hinserts.mpr hall, hkeys.mpr hpairwise,
      hreleases.mpr hreleased, hpipeline⟩

/-! ### All or nothing -/

variable {memory : BatchMemory} {after : BatchDb} {memoryAfter : BatchMemory}

/-- All children and the pipeline are in the tables and in memory, and the parent is
released. -/
structure Activated (db : BatchDb) (memory : BatchMemory) (after : BatchDb)
    (memoryAfter : BatchMemory) : Prop where
  jobs : ∃ rows, after.jobs = db.jobs ++ rows ∧
    rows.map QueueRow.jobId = memory.preparedRecords.map QueueRecord.jobId ∧
    ∀ row ∈ rows, row.status = .pending ∧ row.revision = 1
  children : after.children = db.children ++ memory.preparedRecords.zipIdx.map fun entry =>
    ⟨memory.record.pipelineId, entry.2, entry.1.jobId⟩
  pipeline : ∃ row ∈ after.pipelines, row.pipelineId = memory.record.pipelineId ∧
    row.status = .running ∧ row.batchState = .released ∧
    row.revision = memory.record.revision + 1 ∧
    row.expectedChildCount = memory.preparedRecords.length
  record : memoryAfter.record.pipelineId = memory.record.pipelineId ∧
    memoryAfter.record.status = .running ∧ memoryAfter.record.batchState = .released ∧
    memoryAfter.record.revision = memory.record.revision + 1 ∧
    memoryAfter.record.queueJobIds = memory.preparedRecords.map QueueRecord.jobId
  queueJobs : ∀ child ∈ memory.preparedRecords, ∃ held : QueueRecord,
    (child.jobId, held) ∈ memoryAfter.queueJobs ∧ held.jobId = child.jobId ∧
      held.status = .pending ∧ held.revision = 1
  pipelineRuns : (memory.record.pipelineId, memoryAfter.record) ∈ memoryAfter.pipelineRuns

/-- Neither the tables nor the memory have anything of the batch. -/
structure NotActivated (db : BatchDb) (memory : BatchMemory) (after : BatchDb)
    (memoryAfter : BatchMemory) : Prop where
  tables : after = db
  record : memoryAfter.record = memory.record
  queueJobs : memoryAfter.queueJobs = memory.queueJobs
  pipelineRuns : memoryAfter.pipelineRuns = memory.pipelineRuns

def AllOrNothing (db : BatchDb) (memory : BatchMemory)
    (outcome : ActivationAnswer × BatchDb × BatchMemory) : Prop :=
  (outcome.1 = .ok (memory.preparedRecords.map QueueRecord.jobId) ∧
      Activated db memory outcome.2.1 outcome.2.2) ∨
    ((∀ queueJobIds, outcome.1 ≠ .ok queueJobIds) ∧
      NotActivated db memory outcome.2.1 outcome.2.2)

structure ReachesCommit (call : ActivationCall) (db : BatchDb) (memory : BatchMemory) : Prop where
  mode : call.sqliteQueue = true
  nonempty : memory.preparedRecords ≠ []
  requests : ∀ child ∈ memory.preparedRecords, child.requestEncrypted ≠ ""
  distinct : (memory.preparedRecords.map QueueRecord.jobId).Nodup
  encrypted : call.throws .encryptResults = false ∧ call.throws .encryptDetails = false
  opened : call.throws .openDatabase = false
  committable : Committable call db memory.record memory.preparedRecords

theorem mem_mapSet {Value : Type} (entries : List (String × Value)) (key : String)
    (value : Value) : (key, value) ∈ mapSet entries key value := by
  simp [mapSet]

theorem mem_mapSet_of_ne {Value : Type} {entries : List (String × Value)} {key other : String}
    {value held : Value} (hne : other ≠ key) (h : (other, held) ∈ entries) :
    (other, held) ∈ mapSet entries key value := by
  simp [mapSet, h, hne]

/-- After `QUEUE_JOBS.set` of every child, each child's job has one of the children. -/
theorem exists_mem_foldl_mapSet {children : List QueueRecord}
    {entries : List (String × QueueRecord)} {child : QueueRecord} (hchild : child ∈ children) :
    ∃ held ∈ children, held.jobId = child.jobId ∧
      (child.jobId, held) ∈
        children.foldl (fun entries child => mapSet entries child.jobId child) entries := by
  induction children using List.reverseRecOn with
  | nil => cases hchild
  | append_singleton children last ih =>
    rw [foldl_append, foldl_cons, foldl_nil]
    by_cases hjob : child.jobId = last.jobId
    · refine ⟨last, by simp, hjob.symm, ?_⟩
      rw [hjob]
      exact mem_mapSet _ _ _
    · have hold : child ∈ children := by
        rcases mem_append.mp hchild with hold | hlast
        · exact hold
        · exact absurd (congrArg QueueRecord.jobId (mem_singleton.mp hlast)) hjob
      obtain ⟨held, hheld, hsame, hmem⟩ := ih hold
      exact ⟨held, mem_append_left _ hheld, hsame, mem_mapSet_of_ne hjob hmem⟩

/-- The children as the transaction has them. -/
def stampedChildren (runtime : QueueRuntime) (call : ActivationCall) (memory : BatchMemory) :
    List QueueRecord :=
  (memory.preparedRecords.map (sealChild runtime)).map (stampChild call)

@[simp] theorem map_jobId_stampedChildren :
    (stampedChildren runtime call memory).map QueueRecord.jobId
      = memory.preparedRecords.map QueueRecord.jobId := by
  simp [stampedChildren, sealChild, stampChild]

theorem committable_stampedChildren :
    Committable call db record (stampedChildren runtime call memory) ↔
      Committable call db record memory.preparedRecords := by
  rw [stampedChildren, Committable.map_iff, Committable.map_iff]
  all_goals exact fun _ => rfl

theorem notActivated_of_not_reachesCommit (h : ¬ ReachesCommit call db memory) :
    (∀ queueJobIds, (activateBatch runtime call db memory).1 ≠ .ok queueJobIds) ∧
      NotActivated db memory (activateBatch runtime call db memory).2.1
        (activateBatch runtime call db memory).2.2 := by
  rw [activateBatch]
  split
  · exact ⟨fun _ => ActivationAnswer.noConfusion, ⟨rfl, rfl, rfl, rfl⟩⟩
  next hmode =>
  split
  · exact ⟨fun _ => ActivationAnswer.noConfusion, ⟨rfl, rfl, rfl, rfl⟩⟩
  next hvalid =>
  split
  · exact ⟨fun _ => ActivationAnswer.noConfusion, ⟨rfl, rfl, rfl, rfl⟩⟩
  next hresults =>
  split
  · exact ⟨fun _ => ActivationAnswer.noConfusion, ⟨rfl, rfl, rfl, rfl⟩⟩
  next hdetails =>
  split
  · exact ⟨fun _ => ActivationAnswer.noConfusion, ⟨rfl, rfl, rfl, rfl⟩⟩
  next hbegin =>
  dsimp only
  split
  · exact ⟨fun _ => ActivationAnswer.noConfusion, ⟨rfl, rfl, rfl, rfl⟩⟩
  next after hcommitted =>
    -- every check went through, so the call did reach its commit
    simp only [Bool.not_eq_true', Bool.not_eq_false, Bool.or_eq_true, not_or,
      List.isEmpty_iff, List.any_eq_true, decide_eq_true_eq, not_exists, not_and,
      decide_eq_false_iff_not, not_not] at hmode hvalid hresults hdetails
    have hstamped : (stampedChildren runtime call memory).map QueueRecord.jobId
        = memory.preparedRecords.map QueueRecord.jobId := map_jobId_stampedChildren
    have hdistinct : ((stampedChildren runtime call memory).map QueueRecord.jobId).Nodup := by
      rw [hstamped]
      exact hvalid.2
    have hcommittable := ((activationTransaction_eq_ok hdistinct).mp hcommitted).1
    exact absurd
      { mode := hmode
        nonempty := hvalid.1.1
        requests := hvalid.1.2
        distinct := hvalid.2
        encrypted := ⟨by simpa using hresults, by simpa using hdetails.1⟩
        opened := by simpa using hdetails.2
        committable := committable_stampedChildren.mp hcommittable } h

theorem activateBatch_of_reachesCommit (h : ReachesCommit call db memory) :
    activateBatch runtime call db memory =
      let children := stampedChildren runtime call memory
      let stamped := { memory with preparedRecords := children }
      let after := activatedDb runtime call db memory.record children
      match call.commit with
      | .committed => (.ok (memory.preparedRecords.map QueueRecord.jobId), after,
          activatedMemory call memory children)
      | .failed => (.refused .pipelineBatchPersistenceFailed, db, stamped)
      | .unreported => (.refused .pipelineBatchPersistenceFailed, after, stamped) := by
  have hvalid : (memory.preparedRecords.isEmpty
      || memory.preparedRecords.any (fun child => child.requestEncrypted = "")
      || !decide (memory.preparedRecords.map QueueRecord.jobId).Nodup) = false := by
    simp only [Bool.or_eq_false_iff, isEmpty_eq_false_iff, any_eq_false,
      decide_eq_true_eq, Bool.not_eq_false', h.distinct, and_true]
    exact ⟨h.nonempty, h.requests⟩
  have htransaction : activationTransaction runtime call db memory.record
      (stampedChildren runtime call memory)
        = .ok (activatedDb runtime call db memory.record
            (stampedChildren runtime call memory)) := by
    refine (activationTransaction_eq_ok ?_).mpr ⟨committable_stampedChildren.mpr h.committable, rfl⟩
    rw [map_jobId_stampedChildren]
    exact h.distinct
  rw [stampedChildren] at htransaction
  simp only [activateBatch, h.mode, hvalid, h.encrypted.1, h.encrypted.2, h.opened,
    h.committable.statements.1, htransaction, Bool.not_true, Bool.or_self, Bool.false_eq_true,
    if_false, stampedChildren]

theorem activated_of_committable
    (h : Committable call db memory.record memory.preparedRecords) :
    Activated db memory
      (activatedDb runtime call db memory.record (stampedChildren runtime call memory))
      (activatedMemory call memory (stampedChildren runtime call memory)) where
  jobs := by
    refine ⟨(stampedChildren runtime call memory).map (pendingChild runtime call), rfl, ?_, ?_⟩
    · rw [map_map, ← map_jobId_stampedChildren]
      rfl
    · intro row hrow
      obtain ⟨child, -, rfl⟩ := mem_map.mp hrow
      exact ⟨rfl, rfl⟩
  children := by
    show db.children ++ (stampedChildren runtime call memory).zipIdx.map _ = _
    rw [stampedChildren, zipIdx_map, zipIdx_map, map_map, map_map]
    rfl
  pipeline := by
    have hstamped : Committable call db memory.record (stampedChildren runtime call memory) :=
      committable_stampedChildren.mpr h
    have hchanges := hstamped.pipeline
    refine Statement.exists_exec_of_changes (by rw [hchanges]; decide) ?_
    intro row _ hguard
    simp only [activateColumns, Bool.and_eq_true, decide_eq_true_eq] at hguard
    exact ⟨hguard.1.1.1.1.1.1, rfl, rfl, rfl, by simp [activateColumns, activationCandidate,
      stampedChildren]⟩
  record := ⟨rfl, rfl, rfl, rfl, map_jobId_stampedChildren⟩
  queueJobs := by
    intro child hchild
    have hmem : { stampChild call (sealChild runtime child) with status := .pending, revision := 1 }
        ∈ (stampedChildren runtime call memory).map fun child : QueueRecord =>
          { child with status := .pending, revision := 1 } := by
      rw [stampedChildren, map_map, map_map]
      exact mem_map_of_mem hchild
    obtain ⟨held, hheld, hjob, hentry⟩ := @exists_mem_foldl_mapSet _ memory.queueJobs _ hmem
    obtain ⟨source, -, rfl⟩ := mem_map.mp hheld
    exact ⟨_, hentry, hjob, rfl, rfl⟩
  pipelineRuns := mem_mapSet _ _ _

/-- An activation is all or nothing exactly unless it reaches a `COMMIT` that reports an error
after its rows are durable: the answer then tells of a failure and the memory has nothing, while
the children and the released pipeline are in the tables. -/
theorem activation_all_or_nothing (runtime : QueueRuntime) (call : ActivationCall) (db : BatchDb)
    (memory : BatchMemory) :
    AllOrNothing db memory (activateBatch runtime call db memory) ↔
      (call.commit = .unreported → ¬ ReachesCommit call db memory) := by
  by_cases hreaches : ReachesCommit call db memory
  · have hactivated : Activated db memory
        (activatedDb runtime call db memory.record (stampedChildren runtime call memory))
        (activatedMemory call memory (stampedChildren runtime call memory)) :=
      activated_of_committable hreaches.committable
    rw [activateBatch_of_reachesCommit hreaches]
    cases hcommit : call.commit with
    | committed =>
      exact ⟨fun _ h => CommitOutcome.noConfusion h, fun _ => .inl ⟨rfl, hactivated⟩⟩
    | failed =>
      refine ⟨fun _ h => CommitOutcome.noConfusion h, fun _ => .inr ?_⟩
      exact ⟨fun _ => ActivationAnswer.noConfusion, ⟨rfl, rfl, rfl, rfl⟩⟩
    | unreported =>
      constructor
      · intro h
        cases h with
        | inl h => exact ActivationAnswer.noConfusion h.1
        | inr h =>
          -- the table of jobs has grown by the children
          have hjobs : db.jobs ++ (stampedChildren runtime call memory).map
              (pendingChild runtime call) = db.jobs := congrArg BatchDb.jobs h.2.tables
          have hnone : memory.preparedRecords = [] := by
            simpa [stampedChildren] using hjobs
          exact absurd hnone hreaches.nonempty
      · intro h
        exact absurd hreaches (h rfl)
  · exact ⟨fun _ _ => hreaches, fun _ => .inr (notActivated_of_not_reachesCommit hreaches)⟩

def plannedPipeline : PipelineObject where
  pipelineId := "pipeline-1"
  status := .planned
  revision := 1
  ownerGeneration := "gen-1"
  startedAt := none
  finishedAt := none
  updatedAt := some 1
  ownerHeartbeatAt := some 1
  ownerLeaseExpiresAt := some 50
  queueJobIds := []
  expectedChildCount := 0
  batchState := .unstarted
  cleanupState := "none"
  events := []

def plannedDb : BatchDb where
  jobs := []
  children := []
  pipelines := [⟨"pipeline-1", .planned, 1, "bridge-1", "gen-1", some 1, some 50, 0, .unstarted,
    "none", plannedPipeline⟩]
  instances := [⟨"bridge-1", 50⟩]

def plannedBatch : BatchMemory where
  record := plannedPipeline
  preparedRecords := [enqueuedRecord "job-1" "bridge-1" "gen-1" 1 50]
  queueJobs := []
  pipelineRuns := [("pipeline-1", plannedPipeline)]

/-- Every statement goes through; the commit reports an error after its rows are durable. -/
def unreportedCommit : ActivationCall where
  sqliteQueue := true
  bridgeInstanceId := "bridge-1"
  capacityAvailable := true
  activatedAt := 10
  commitAt := 10
  commitLeaseExpiresAt := 60
  throws _ := false
  commit := .unreported

/-- The batch of one child is in the tables, and the caller has an error. -/
theorem unreported_commit_splits_activation :
    ¬ AllOrNothing plannedDb plannedBatch
      (activateBatch plainRuntime unreportedCommit plannedDb plannedBatch) := by
  intro h
  cases h with
  | inl h =>
    have hanswer : (activateBatch plainRuntime unreportedCommit plannedDb plannedBatch).1
        = .refused .pipelineBatchPersistenceFailed := by decide
    rw [hanswer] at h
    exact ActivationAnswer.noConfusion h.1
  | inr h =>
    have hjobs : (activateBatch plainRuntime unreportedCommit plannedDb
        plannedBatch).2.1.jobs.length = 1 := by decide
    rw [h.2.tables] at hjobs
    exact absurd hjobs (by decide)

end AgentBridge.Queue
