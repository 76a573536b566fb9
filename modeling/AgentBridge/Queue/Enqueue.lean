import AgentBridge.Queue.Children
import AgentBridge.Queue.RetryOnce

/-!
# Idempotent enqueue

`enqueueQueueJob` of `server.js` with a durable queue. A caller's key is looked up
inside the transaction that inserts the row, so of all the enqueues with one key, in
any number of processes and between any other writes, one inserts a row and the others
are answered from it. The partial unique index on the key is never reached by an insert
that the lookup let through.
-/

namespace AgentBridge.Queue

open Systems

variable (host : RetryHost)

/-! ### The enqueue -/

/-- `queueRequestFingerprint`: what is minted for each enqueue is not part of it. -/
def queueRequestFingerprint (request : QueueRequest) : String :=
  host.queueRequestFingerprint { request with contractorProof := false }

structure EnqueueCall where
  job : QueueRequest
  idempotencyKey : String
  /-- `initialStatus === "held"` -/
  held : Bool
  unowned : Bool
  /-- The end of the first pause, when `chooseRetryModel` finds every model paused. -/
  firstPauseEnd : Stamp
  world : RetryWorld

namespace EnqueueCall

/-- `String(job.idempotencyKey || "").trim()` -/
def key (call : EnqueueCall) : String :=
  String.ofList (Paths.trim call.idempotencyKey.toList)

end EnqueueCall

def safeRequest (job : QueueRequest) : QueueRequest :=
  { job with contractorProof := job.contractorProof || job.orchestratorMode = "contractor" }

/-- `record`, with the start that waits for a pause and without an owner where none is
to be noted. -/
def enqueueRecord (call : EnqueueCall) (policy : Option RetryPolicy) (job : QueueRequest) :
    QueueRecord :=
  let world := call.world
  let startAfter :=
    if policy.any fun policy => !policy.models.isEmpty then call.firstPauseEnd else none
  let enqueued := enqueuedRecord world.freshJobId world.bridgeInstanceId world.freshGeneration
    world.now (world.now + host.queueLeaseMs)
  let record :=
    { enqueued with
      mode := if host.lockPlanMode job = "read" then "read" else "write"
      status := if call.held then .held else .pending
      ownerProcessId := world.processId
      idempotencyKey := call.key
      requestFingerprint := queueRequestFingerprint host (safeRequest job)
      requestEncrypted := host.encryptQueueRequest (safeRequest job) world.freshJobId
      requestHasRetryPolicy := job.models.isSome || job.maxAttempts.isSome
      retryAttempt := if policy.isSome then 1 else 0
      maxAttempts := policy.elim 0 RetryPolicy.maxAttempts
      retry :=
        { enqueued.retry with
          agent := job.agent
          scopeModel := job.modelRequirement.map fun model => (model.provider, model.model)
          startAfter := startAfter
          startAfterReason := if startAfter.isSome then "provider_pause" else "" } }
  if call.unowned then
    { record with
      ownerInstanceId := ""
      ownerProcessId := 0
      ownerGeneration := ""
      heartbeatAt := none
      leaseExpiresAt := none }
  else record

/-- The refusal of a key that belongs to another request. -/
def idempotencyRefusal (existing : String) : Refusal :=
  ⟨"queue_idempotency_conflict",
    "Idempotency key already belongs to job " ++ existing ++ " with different request content."⟩

/-- `enqueueQueueJob`; `tracked` are the jobs in this process's `QUEUE_JOBS`. -/
def enqueueQueueJob (db : QueueDb) (tracked : List String) (call : EnqueueCall) :
    Except Refusal Admission × List String × QueueDb :=
  match checkedJob host call.job with
  | .error refusal => (.error refusal, tracked, db)
  | .ok (policy, job) =>
    let record := enqueueRecord host call policy job
    match persistQueueRecord host.runtime db call.world.bridgeInstanceId record
        call.world.capacityAvailable call.world.now with
    | (.idempotencyConflict existing, _, db') =>
      (.error (idempotencyRefusal existing), tracked, db')
    | (.deduplicated existing, _, db') => (.ok ⟨existing, true⟩, tracked, db')
    | (.inserted .., _, db') | (.updated .., _, db') =>
      (.ok ⟨record.jobId, false⟩,
        if call.unowned then tracked else tracked ++ [record.jobId], db')
    | (.capacityRefused, _, db') =>
      (.error ⟨"state_capacity_exceeded", "The queue request was not durably accepted."⟩,
        tracked, db')
    | (_, _, db') =>
      (.error ⟨"queue_persistence_failed", "The queue request was not durably accepted."⟩,
        tracked, db')

/-! ### The system -/

/-- Enqueues, batches of children, and every other writer of the queue; the retention,
which deletes finished rows, is not one of them. -/
inductive EnqueueEvent where
  | enqueue (tracked : List String) (call : EnqueueCall)
  | activate (batch : PipelineActivation)
  | queue (event : QueueEvent)

/-- The database, and every row ever inserted as it was then. -/
structure EnqueueState where
  db : QueueDb
  created : List QueueRow

namespace EnqueueState

def initial : EnqueueState := ⟨.empty, []⟩

/-- The rows that were not there before are noted as created. -/
def advance (s : EnqueueState) (db : QueueDb) : EnqueueState :=
  ⟨db, s.created ++ db.jobs.filter fun row => (s.db.job row.jobId).isNone⟩

end EnqueueState

def enqueueDb (db : QueueDb) : EnqueueEvent → QueueDb
  | .enqueue tracked call => (enqueueQueueJob host db tracked call).2.2
  | .activate batch => (activatePipelineBatch host.runtime db batch).2
  | .queue event => queueStep host.runtime db event

def enqueueStep (s : EnqueueState) (event : EnqueueEvent) : EnqueueState :=
  s.advance (enqueueDb host s.db event)

/-! ### Keys -/

/-- The unique index on `idempotency_key`. -/
def UniqueKeys (db : QueueDb) : Prop :=
  ∀ row ∈ db.jobs, ∀ row' ∈ db.jobs, row.idempotencyKey ≠ "" →
    row.idempotencyKey = row'.idempotencyKey → row.jobId = row'.jobId

/-- A row that keeps its id and its key. -/
def SameKey (row row' : QueueRow) : Prop :=
  row'.jobId = row.jobId ∧ row'.idempotencyKey = row.idempotencyKey

/-- What every transaction does to ids and keys: rows keep theirs, and a new row has an
id and a key that no other row has. -/
structure KeepsKeys (db db' : QueueDb) : Prop where
  unique : UniqueJobs db'
  kept : ∀ row ∈ db.jobs, ∃ row' ∈ db'.jobs, SameKey row row'
  origin : ∀ row' ∈ db'.jobs, (∃ row ∈ db.jobs, SameKey row row') ∨
    db.job row'.jobId = none ∧
      (row'.idempotencyKey ≠ "" → ∀ row ∈ db.jobs, row.idempotencyKey ≠ row'.idempotencyKey)
  added : ∀ row ∈ db'.jobs, ∀ row' ∈ db'.jobs, db.job row.jobId = none →
    db.job row'.jobId = none → row.idempotencyKey ≠ "" →
    row.idempotencyKey = row'.idempotencyKey → row.jobId = row'.jobId

variable {host} {db db' : QueueDb}

theorem KeepsKeys.refl (unique : UniqueJobs db) : KeepsKeys db db where
  unique := unique
  kept row hrow := ⟨row, hrow, rfl, rfl⟩
  origin row hrow := .inl ⟨row, hrow, rfl, rfl⟩
  added row hrow _ _ hfresh _ _ _ := by
    rw [unique.job_eq hrow] at hfresh
    cases hfresh

theorem UniqueJobs.fresh_iff (unique : UniqueJobs db) {jobId : String} :
    db.job jobId = none ↔ ∀ row ∈ db.jobs, row.jobId ≠ jobId := by
  constructor
  · rintro hfresh row hrow rfl
    rw [unique.job_eq hrow] at hfresh
    cases hfresh
  · intro h
    simpa [QueueDb.job, lookup] using h

theorem KeepsKeys.uniqueKeys (h : KeepsKeys db db') (keys : UniqueKeys db) :
    UniqueKeys db' := by
  intro row hrow row' hrow' hkey hsame
  cases h.origin row hrow with
  | inl hold =>
    obtain ⟨first, hfirst, hid, hfirstKey⟩ := hold
    cases h.origin row' hrow' with
    | inl hold' =>
      obtain ⟨second, hsecond, hid', hsecondKey⟩ := hold'
      rw [hid, hid']
      exact keys first hfirst second hsecond (hfirstKey ▸ hkey)
        (hfirstKey.symm.trans (hsame.trans hsecondKey))
    | inr hnew' =>
      exact absurd (hfirstKey.symm.trans hsame) (hnew'.2 (hsame ▸ hkey) first hfirst)
  | inr hnew =>
    cases h.origin row' hrow' with
    | inl hold' =>
      obtain ⟨second, hsecond, hid', hsecondKey⟩ := hold'
      exact absurd (hsecondKey.symm.trans hsame.symm) (hnew.2 hkey second hsecond)
    | inr hnew' => exact h.added row hrow row' hrow' hnew.1 hnew'.1 hkey hsame

/-! ### Every event keeps keys -/

variable {row : QueueRow} {runtime : QueueRuntime}

theorem QueueWrite.idempotencyKey {event : QueueEvent} {row' : QueueRow}
    (h : QueueWrite runtime db event row row') : row'.idempotencyKey = row.idempotencyKey := by
  cases h <;> rfl

theorem QueueWrites.sameKey {event : QueueEvent} {row' : QueueRow}
    (h : QueueWrites runtime db event row row') : SameKey row row' := by
  refine ⟨h.jobId, ?_⟩
  induction h with
  | refl => rfl
  | tail _ hwrite ih => exact hwrite.idempotencyKey.trans ih

/-- A persist inserts a row only under a key that the lookup has not found. -/
theorem idempotentJob_of_inserted {bridgeInstanceId : String} {record : QueueRecord}
    {capacityAvailable : Bool} {now : Nat} (unique : UniqueJobs db)
    (notTerminal : ownerTerminal (preparedRecord runtime record).status = false)
    (fresh : db.job (preparedRecord runtime record).jobId = none)
    (inserted : insertedRow runtime (preparedRecord runtime record) ∈
      (queueStep runtime db (.persist bridgeInstanceId record capacityAvailable now)).jobs) :
    idempotentJob db (preparedRecord runtime record) = none := by
  simp only [queueStep, persistQueueRecord, notTerminal, Bool.false_eq_true, if_false, fresh,
    insertQueueRecord] at inserted
  cases hfound : idempotentJob db (preparedRecord runtime record) with
  | none => rfl
  | some existing =>
    have hmem : insertedRow runtime (preparedRecord runtime record) ∈ db.jobs := by
      rw [hfound] at inserted
      dsimp only at inserted
      split at inserted <;> exact inserted
    exact absurd rfl (unique.fresh_iff.mp fresh _ hmem)

theorem keepsKeys_queueStep (runtime : QueueRuntime) (unique : UniqueJobs db)
    (event : QueueEvent) : KeepsKeys db (queueStep runtime db event) where
  unique := uniqueJobs_step db event unique
  kept row hrow := by
    obtain ⟨row', hfound, hwrites⟩ := queueStep_job runtime unique event (unique.job_eq hrow)
    exact ⟨row', (lookup_some hfound).1, hwrites.sameKey⟩
  origin row' hrow' := by
    cases hfound : db.job row'.jobId with
    | some row =>
      obtain ⟨hrow, hid⟩ := lookup_some hfound
      obtain ⟨later, hlater, hwrites⟩ := queueStep_job runtime unique event hfound
      have heq : later = row' :=
        (uniqueJobs_step db event unique).eq_of_job hlater hrow' rfl |>.symm
      exact .inl ⟨row, hrow, heq ▸ hwrites.sameKey⟩
    | none =>
      obtain ⟨_, record, _, _, rfl, hterminal, rfl⟩ := queueStep_new unique hrow' hfound
      refine .inr ⟨rfl, fun hkey row hrow hsame => ?_⟩
      have hnone := idempotentJob_of_inserted unique hterminal hfound hrow'
      have hkeyed : (preparedRecord runtime record).idempotencyKey ≠ "" := hkey
      rw [idempotentJob, if_neg hkeyed] at hnone
      have hother := List.find?_eq_none.mp hnone row hrow
      simp only [decide_eq_true_eq] at hother
      exact hother hsame
  added row hrow row' hrow' hfresh hfresh' _ _ := by
    obtain ⟨_, record, _, _, rfl, _, rfl⟩ := queueStep_new unique hrow hfresh
    obtain ⟨_, _, _, _, heq, _, rfl⟩ := queueStep_new unique hrow' hfresh'
    cases heq
    rfl

theorem childrenInsertable_of_activated {batch : PipelineActivation}
    (changed : (activatePipelineBatch runtime db batch).2 ≠ db) :
    childrenInsertable db batch = true := by
  revert changed
  simp only [activatePipelineBatch]
  split
  · exact fun changed => absurd rfl changed
  · split
    · exact fun changed => absurd rfl changed
    · split
      next hguard =>
        simp only [Bool.and_eq_true] at hguard
        exact fun _ => hguard.2
      · exact fun changed => absurd rfl changed

theorem keepsKeys_activate (runtime : QueueRuntime) (unique : UniqueJobs db)
    (batch : PipelineActivation) :
    KeepsKeys db (activatePipelineBatch runtime db batch).2 := by
  by_cases hchanged : (activatePipelineBatch runtime db batch).2 = db
  · rw [hchanged]
    exact .refl unique
  · have hactivates := (activatePipelineBatch_cases runtime db batch).resolve_left hchanged
    have hinsertable := childrenInsertable_of_activated hchanged
    simp only [childrenInsertable, Bool.and_eq_true, Bool.or_eq_true, List.all_eq_true,
      decide_eq_true_eq] at hinsertable
    obtain ⟨hchildren, hkeys⟩ := hinsertable
    have hnew : ∀ row' ∈ (activatePipelineBatch runtime db batch).2.jobs,
        row' ∈ db.jobs ∨ ∃ child ∈ batch.preparedRecords,
          row' = releasedChild runtime child batch.commitAt batch.commitLeaseExpiresAt := by
      intro row' hrow'
      rw [hactivates.jobs, List.mem_append] at hrow'
      refine hrow'.imp_right fun hmem => ?_
      obtain ⟨child, hchild, heq⟩ := List.mem_map.mp hmem
      exact ⟨child, hchild, heq.symm⟩
    refine ⟨hactivates.unique unique, ?_, ?_, ?_⟩
    · intro row hrow
      refine ⟨row, ?_, rfl, rfl⟩
      rw [hactivates.jobs]
      exact List.mem_append_left _ hrow
    · intro row' hrow'
      cases hnew row' hrow' with
      | inl hold => exact .inl ⟨row', hold, rfl, rfl⟩
      | inr hchild =>
        obtain ⟨child, hchild, rfl⟩ := hchild
        refine .inr ⟨hactivates.fresh child hchild, fun hkey row hrow => ?_⟩
        exact ((hchildren child hchild).2.resolve_left hkey) row hrow
    · intro row hrow row' hrow' hfresh hfresh' hkey hsame
      have hadded : ∀ row ∈ (activatePipelineBatch runtime db batch).2.jobs,
          db.job row.jobId = none → ∃ child ∈ batch.preparedRecords,
            row = releasedChild runtime child batch.commitAt batch.commitLeaseExpiresAt := by
        intro row hrow hfresh
        refine (hnew row hrow).resolve_left fun hold => ?_
        exact unique.fresh_iff.mp hfresh row hold rfl
      obtain ⟨first, hfirst, rfl⟩ := hadded row hrow hfresh
      obtain ⟨second, hsecond, rfl⟩ := hadded row' hrow' hfresh'
      have hinj := List.inj_on_of_nodup_map (f := QueueRecord.idempotencyKey)
        (l := batch.preparedRecords.filter fun child => child.idempotencyKey ≠ "")
      have hnodup : ((batch.preparedRecords.filter fun child =>
          child.idempotencyKey ≠ "").map QueueRecord.idempotencyKey).Nodup := by
        rw [List.filter_map] at hkeys
        exact hkeys
      have heq : first = second := hinj hnodup
        (by simpa using ⟨hfirst, hkey⟩)
        (by
          have hkey' : second.idempotencyKey ≠ "" := fun hempty => hkey (hsame.trans hempty)
          simpa using ⟨hsecond, hkey'⟩) hsame
      rw [heq]

/-! ### One enqueue -/

section

variable {call : EnqueueCall} {policy : Option RetryPolicy} {job : QueueRequest}

theorem enqueueRecord_jobId :
    (enqueueRecord host call policy job).jobId = call.world.freshJobId := by
  simp only [enqueueRecord]
  split <;> rfl

theorem enqueueRecord_idempotencyKey :
    (enqueueRecord host call policy job).idempotencyKey = call.key := by
  simp only [enqueueRecord]
  split <;> rfl

theorem enqueueRecord_requestFingerprint :
    (enqueueRecord host call policy job).requestFingerprint
      = queueRequestFingerprint host (safeRequest job) := by
  simp only [enqueueRecord]
  split <;> rfl

theorem enqueueRecord_status :
    (enqueueRecord host call policy job).status = .held ∨
      (enqueueRecord host call policy job).status = .pending := by
  simp only [enqueueRecord]
  cases call.held <;> split <;> simp

theorem preparedRecord_enqueueRecord :
    preparedRecord host.runtime (enqueueRecord host call policy job) =
      { enqueueRecord host call policy job with
        resultEncrypted :=
          some (queuePrivateDetails host.runtime (enqueueRecord host call policy job))
        cancellationResultEncrypted := none } := by
  have hsame : enforceQueueResultEvidence host.runtime (enqueueRecord host call policy job)
      = enqueueRecord host call policy job := by
    cases @enqueueRecord_status host call policy job with
    | inl hheld =>
      simp [enforceQueueResultEvidence, completedWithoutFinal, completedWriteWithoutEvidence,
        hheld]
    | inr hpending =>
      simp [enforceQueueResultEvidence, completedWithoutFinal, completedWriteWithoutEvidence,
        hpending]
  rw [preparedRecord, hsame]

/-- An enqueue with a job id that no row has is an insert, or is answered by the row that
has its key. -/
theorem persist_enqueueRecord (fresh : db.job call.world.freshJobId = none) :
    persistQueueRecord host.runtime db call.world.bridgeInstanceId
        (enqueueRecord host call policy job) call.world.capacityAvailable call.world.now
      = insertQueueRecord host.runtime db
          (preparedRecord host.runtime (enqueueRecord host call policy job))
          call.world.capacityAvailable := by
  have hjob : (preparedRecord host.runtime (enqueueRecord host call policy job)).jobId
      = call.world.freshJobId := by
    rw [preparedRecord_jobId, enqueueRecord_jobId]
  have hstatus : ownerTerminal
      (preparedRecord host.runtime (enqueueRecord host call policy job)).status = false := by
    rw [preparedRecord_enqueueRecord]
    cases @enqueueRecord_status host call policy job with
    | inl hheld => simp [hheld, ownerTerminal]
    | inr hpending => simp [hpending, ownerTerminal]
  simp only [persistQueueRecord, hstatus, Bool.false_eq_true, if_false, hjob, fresh]

theorem enqueueQueueJob_of_keyed {tracked : List String}
    (checked : checkedJob host call.job = .ok (policy, job))
    (fresh : db.job call.world.freshJobId = none) (unique : UniqueJobs db) (keys : UniqueKeys db)
    (hrow : row ∈ db.jobs) (keyed : call.key ≠ "") (same : row.idempotencyKey = call.key) :
    enqueueQueueJob host db tracked call =
      (if row.recordJson.requestFingerprint = queueRequestFingerprint host (safeRequest job) then
        (.ok ⟨row.jobId, true⟩, tracked, db)
      else (.error (idempotencyRefusal row.jobId), tracked, db)) := by
  have hprepared := @preparedRecord_enqueueRecord host call policy job
  have hkey : (preparedRecord host.runtime (enqueueRecord host call policy job)).idempotencyKey
      = call.key := by
    rw [hprepared]
    exact enqueueRecord_idempotencyKey
  have hfingerprint :
      (preparedRecord host.runtime (enqueueRecord host call policy job)).requestFingerprint
        = queueRequestFingerprint host (safeRequest job) := by
    rw [hprepared]
    exact enqueueRecord_requestFingerprint
  have hne : queueRequestFingerprint host (safeRequest job) ≠ "" := host.fingerprint_ne _
  have hfound : idempotentJob db
      (preparedRecord host.runtime (enqueueRecord host call policy job)) = some row := by
    rw [idempotentJob, hkey, if_neg keyed]
    cases hfind : db.jobs.find? fun row => row.idempotencyKey = call.key with
    | none =>
      have hother := List.find?_eq_none.mp hfind row hrow
      simp [same] at hother
    | some found =>
      have hmem := List.mem_of_find?_eq_some hfind
      have hfoundKey : found.idempotencyKey = call.key := by
        simpa using List.find?_some hfind
      have hid : found.jobId = row.jobId :=
        keys found hmem row hrow (hfoundKey ▸ keyed) (hfoundKey.trans same.symm)
      exact congrArg some (unique.eq_of_job (unique.job_eq hmem) hrow hid.symm).symm
  simp only [enqueueQueueJob, checked, persist_enqueueRecord fresh, insertQueueRecord, hfound,
    hfingerprint]
  by_cases hsame : row.recordJson.requestFingerprint
      = queueRequestFingerprint host (safeRequest job)
  · simp [hsame, hne]
  · simp [hsame]

theorem enqueueQueueJob_db (host : RetryHost) (db : QueueDb) (tracked : List String)
    (call : EnqueueCall) :
    (enqueueQueueJob host db tracked call).2.2 = db ∨
      ∃ record, (enqueueQueueJob host db tracked call).2.2
        = queueStep host.runtime db (.persist call.world.bridgeInstanceId record
            call.world.capacityAvailable call.world.now) := by
  simp only [enqueueQueueJob]
  split
  · exact .inl rfl
  next policy job _ =>
    refine .inr ⟨enqueueRecord host call policy job, ?_⟩
    simp only [queueStep]
    split <;> simp_all

end

/-! ### Every run -/

theorem keepsKeys_enqueueDb (host : RetryHost) (unique : UniqueJobs db) (event : EnqueueEvent) :
    KeepsKeys db (enqueueDb host db event) := by
  cases event with
  | enqueue tracked call =>
    cases enqueueQueueJob_db host db tracked call with
    | inl hsame =>
      simp only [enqueueDb, hsame]
      exact .refl unique
    | inr hpersist =>
      obtain ⟨record, hstep⟩ := hpersist
      simp only [enqueueDb, hstep]
      exact keepsKeys_queueStep host.runtime unique _
  | activate batch => exact keepsKeys_activate host.runtime unique batch
  | queue event => exact keepsKeys_queueStep host.runtime unique event

/-- The rows ever created are, by id and key, the rows there are. -/
structure EnqueueInvariant (s : EnqueueState) : Prop where
  unique : UniqueJobs s.db
  keys : UniqueKeys s.db
  created : (s.created.map QueueRow.jobId).Nodup
  stored : ∀ row ∈ s.created, ∃ row' ∈ s.db.jobs, SameKey row row'
  noted : ∀ row ∈ s.db.jobs, ∃ row' ∈ s.created, SameKey row row'

theorem enqueueInvariant_initial : EnqueueInvariant .initial where
  unique := uniqueJobs_empty
  keys := by simp [UniqueKeys, EnqueueState.initial, QueueDb.empty]
  created := List.nodup_nil
  stored := by simp [EnqueueState.initial]
  noted := by simp [EnqueueState.initial, QueueDb.empty]

variable {s : EnqueueState}

theorem EnqueueInvariant.advance (h : EnqueueInvariant s) (keeps : KeepsKeys s.db db') :
    EnqueueInvariant (s.advance db') where
  unique := keeps.unique
  keys := keeps.uniqueKeys h.keys
  created := by
    rw [EnqueueState.advance, List.map_append, List.nodup_append]
    refine ⟨h.created, (keeps.unique.sublist (List.filter_sublist.map _)), ?_⟩
    intro first hfirst second hsecond heq
    obtain ⟨row, hrow, rfl⟩ := List.mem_map.mp hfirst
    obtain ⟨new, hnew, rfl⟩ := List.mem_map.mp hsecond
    obtain ⟨stored, hstored, hid, -⟩ := h.stored row hrow
    have hfresh := (List.mem_filter.mp hnew).2
    rw [Option.isNone_iff_eq_none] at hfresh
    exact h.unique.fresh_iff.mp hfresh stored hstored (hid.trans heq)
  stored := by
    intro row hrow
    cases List.mem_append.mp hrow with
    | inl hold =>
      obtain ⟨stored, hstored, hid, hkey⟩ := h.stored row hold
      obtain ⟨later, hlater, hid', hkey'⟩ := keeps.kept stored hstored
      exact ⟨later, hlater, hid'.trans hid, hkey'.trans hkey⟩
    | inr hnew => exact ⟨row, (List.mem_filter.mp hnew).1, rfl, rfl⟩
  noted := by
    intro row' hrow'
    cases hfound : s.db.job row'.jobId with
    | some row =>
      cases keeps.origin row' hrow' with
      | inl hold =>
        obtain ⟨row, hrow, hid, hkey⟩ := hold
        obtain ⟨noted, hnoted, hid', hkey'⟩ := h.noted row hrow
        exact ⟨noted, List.mem_append_left _ hnoted, hid'.trans hid.symm,
          hkey'.trans hkey.symm⟩
      | inr hnew =>
        rw [hnew.1] at hfound
        cases hfound
    | none =>
      refine ⟨row', List.mem_append_right _ (List.mem_filter.mpr ⟨hrow', ?_⟩), rfl, rfl⟩
      rw [hfound]
      rfl

theorem enqueueInvariant_step (host : RetryHost) (s : EnqueueState) (event : EnqueueEvent)
    (h : EnqueueInvariant s) : EnqueueInvariant (enqueueStep host s event) :=
  h.advance (keepsKeys_enqueueDb host h.unique event)

theorem enqueueInvariant_run (host : RetryHost) (events : List EnqueueEvent) :
    EnqueueInvariant (run (enqueueStep host) .initial events) :=
  run_preserves (enqueueInvariant_step host) enqueueInvariant_initial events

theorem EnqueueInvariant.created_once (h : EnqueueInvariant s) {key : String} (keyed : key ≠ "") :
    (s.created.filter fun row => row.idempotencyKey = key).length ≤ 1 := by
  have hnodup : ((s.created.filter fun row => row.idempotencyKey = key).map
      QueueRow.jobId).Nodup := h.created.sublist (List.filter_sublist.map _)
  have hsame : ∀ first ∈ s.created.filter (fun row => row.idempotencyKey = key),
      ∀ second ∈ s.created.filter (fun row => row.idempotencyKey = key),
      first.jobId = second.jobId := by
    intro first hfirst second hsecond
    simp only [List.mem_filter, decide_eq_true_eq] at hfirst hsecond
    obtain ⟨row, hrow, hid, hkey⟩ := h.stored first hfirst.1
    obtain ⟨row', hrow', hid', hkey'⟩ := h.stored second hsecond.1
    rw [← hid, ← hid']
    refine h.keys row hrow row' hrow' ?_ ?_
    · rw [hkey, hfirst.2]
      exact keyed
    · rw [hkey, hkey', hfirst.2, hsecond.2]
  generalize s.created.filter (fun row => row.idempotencyKey = key) = rows at hnodup hsame
  match rows with
  | [] => simp
  | [_] => simp
  | first :: second :: rest =>
    have heq := hsame first (by simp) second (by simp)
    simp [heq] at hnodup

theorem EnqueueInvariant.accepted (h : EnqueueInvariant s) {call : EnqueueCall}
    {tracked : List String} {admission : Admission} (keyed : call.key ≠ "")
    (fresh : s.db.job call.world.freshJobId = none)
    (accepted : (enqueueQueueJob host s.db tracked call).1 = .ok admission) :
    ∃ row ∈ (enqueueStep host s (.enqueue tracked call)).created,
      row.idempotencyKey = call.key ∧ row.jobId = admission.jobId := by
  have hnext := enqueueInvariant_step host s (.enqueue tracked call) h
  have hstored : ∃ row ∈ (enqueueStep host s (.enqueue tracked call)).db.jobs,
      row.idempotencyKey = call.key ∧ row.jobId = admission.jobId := by
    simp only [enqueueStep, EnqueueState.advance, enqueueDb]
    cases hchecked : checkedJob host call.job with
    | error refusal => simp [enqueueQueueJob, hchecked] at accepted
    | ok checked =>
      obtain ⟨policy, job⟩ := checked
      by_cases hexisting : ∃ row ∈ s.db.jobs, row.idempotencyKey = call.key
      · obtain ⟨row, hrow, hkey⟩ := hexisting
        rw [enqueueQueueJob_of_keyed hchecked fresh h.unique h.keys hrow keyed hkey]
          at accepted ⊢
        split at accepted
        · rw [Except.ok.injEq] at accepted
          subst accepted
          simp only [*, if_true]
          exact ⟨row, hrow, hkey, rfl⟩
        · cases accepted
      · have hnone : idempotentJob s.db
            (preparedRecord host.runtime (enqueueRecord host call policy job)) = none := by
          rw [idempotentJob, preparedRecord_enqueueRecord]
          split
          · rfl
          · rw [List.find?_eq_none]
            intro row hrow hsame
            refine hexisting ⟨row, hrow, ?_⟩
            rw [decide_eq_true_eq] at hsame
            exact hsame.trans enqueueRecord_idempotencyKey
        simp only [enqueueQueueJob, hchecked, persist_enqueueRecord fresh, insertQueueRecord,
          hnone] at accepted ⊢
        cases hcapacity : call.world.capacityAvailable with
        | false => simp [hcapacity] at accepted
        | true =>
          simp only [hcapacity, if_true, Except.ok.injEq] at accepted ⊢
          subst accepted
          refine ⟨_, List.mem_append_right _ (List.mem_singleton.mpr rfl), ?_, ?_⟩
          · rw [preparedRecord_enqueueRecord]
            exact enqueueRecord_idempotencyKey
          · rw [preparedRecord_enqueueRecord]
            rfl
  obtain ⟨row, hrow, hkey, hid⟩ := hstored
  obtain ⟨noted, hnoted, hnotedId, hnotedKey⟩ := hnext.noted row hrow
  exact ⟨noted, hnoted, hnotedKey.trans hkey, hnotedId.trans hid⟩

/-- In every run of any number of processes, a key gets one row at most; an enqueue with
the fingerprint of the row that has its key is answered by it, one with another
fingerprint is refused, both without a write; and whatever is accepted under a key names
the row that was created under it. -/
theorem idempotent_enqueue (host : RetryHost) (events : List EnqueueEvent) :
    let s := run (enqueueStep host) .initial events
    (∀ key, key ≠ "" → (s.created.filter fun row => row.idempotencyKey = key).length ≤ 1) ∧
    (∀ (tracked : List String) (call : EnqueueCall) (policy : Option RetryPolicy)
        (job : QueueRequest), checkedJob host call.job = .ok (policy, job) → call.key ≠ "" →
      s.db.job call.world.freshJobId = none →
      ∀ row ∈ s.db.jobs, row.idempotencyKey = call.key →
        enqueueQueueJob host s.db tracked call =
          (if row.recordJson.requestFingerprint = queueRequestFingerprint host (safeRequest job)
          then (.ok ⟨row.jobId, true⟩, tracked, s.db)
          else (.error (idempotencyRefusal row.jobId), tracked, s.db))) ∧
    ∀ (tracked : List String) (call : EnqueueCall) (admission : Admission), call.key ≠ "" →
      s.db.job call.world.freshJobId = none →
      (enqueueQueueJob host s.db tracked call).1 = .ok admission →
      ∃ row ∈ (enqueueStep host s (.enqueue tracked call)).created,
        row.idempotencyKey = call.key ∧ row.jobId = admission.jobId := by
  intro s
  have hinvariant : EnqueueInvariant s := enqueueInvariant_run host events
  refine ⟨fun key keyed => hinvariant.created_once keyed, ?_, ?_⟩
  · intro tracked call policy job checked keyed fresh row hrow same
    exact enqueueQueueJob_of_keyed checked fresh hinvariant.unique hinvariant.keys hrow keyed same
  · intro tracked call admission keyed fresh accepted
    exact hinvariant.accepted keyed fresh accepted

/-- An enqueue without a retry policy, by a process that draws this job id. -/
def nightlyCall (jobId : String) : EnqueueCall where
  job := { twoModels with models := none }
  idempotencyKey := " nightly "
  held := false
  unowned := false
  firstPauseEnd := none
  world := { unpausedWorld with freshJobId := jobId }

/-- The row that the first of two such enqueues inserts. -/
def nightlyRow : QueueRow :=
  insertedRow plainRuntime (preparedRecord plainRuntime
    (enqueueRecord plainHost (nightlyCall "job-1") none { twoModels with models := none }))

theorem idempotent_enqueue_of_two_processes :
    let s := run (enqueueStep plainHost) .initial [.enqueue [] (nightlyCall "job-1")]
    enqueueQueueJob plainHost s.db [] (nightlyCall "job-2")
      = (.ok ⟨"job-1", true⟩, [], s.db) := by
  intro s
  have hanswer := (idempotent_enqueue plainHost [.enqueue [] (nightlyCall "job-1")]).2.1 []
    (nightlyCall "job-2") none { twoModels with models := none } rfl (by decide)
    (by decide) nightlyRow (by decide) (by decide)
  rw [if_pos (by decide)] at hanswer
  exact hanswer

end AgentBridge.Queue
