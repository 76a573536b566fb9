import AgentBridge.Queue.RetryChoice
import AgentBridge.Queue.Writes

/-!
# One successor for each attempt

A run of the retry policy inserts the successor and then marks the original. When the
process dies between the two, the next run finds the original unmarked, builds the
successor again and inserts it under the same key. The insert answers with the
existing job exactly when it carries the same request, and the request carries the
model that the pauses of the moment allow.
-/

namespace AgentBridge.Queue

open Providers Systems

variable {host : RetryHost}

/-! ### The key and the record of a successor -/

theorem requeueIdempotencyKey_ne (idempotencyKey jobId : String) (sequence : Nat) :
    requeueIdempotencyKey host idempotencyKey jobId sequence ≠ "" := by
  intro h
  have hempty := congrArg String.toList h
  unfold requeueIdempotencyKey at hempty
  extract_lets stripped base suffix digest at hempty
  have hsuffix : suffix ≠ [] := by simp [suffix]
  split_ifs at hempty
  · simp [hsuffix] at hempty
  · simp at hempty

theorem preparedRecord_of_pending (runtime : QueueRuntime) {record : QueueRecord}
    (h : record.status = .pending) :
    preparedRecord runtime record =
      { record with
        resultEncrypted := some (queuePrivateDetails runtime record)
        cancellationResultEncrypted := none } := by
  have hsame : enforceQueueResultEvidence runtime record = record := by
    simp [enforceQueueResultEvidence, completedWithoutFinal, completedWriteWithoutEvidence, h]
  rw [preparedRecord, hsame]

theorem persistQueueRecord_of_new (runtime : QueueRuntime) {db : QueueDb} {record : QueueRecord}
    (pending : record.status = .pending) (fresh : db.job record.jobId = none)
    (bridgeInstanceId : String) (capacityAvailable : Bool) (now : Nat) :
    persistQueueRecord runtime db bridgeInstanceId record capacityAvailable now
      = insertQueueRecord runtime db (preparedRecord runtime record) capacityAvailable := by
  rw [preparedRecord_of_pending runtime pending]
  simp [persistQueueRecord, preparedRecord_of_pending runtime pending, ownerTerminal, pending,
    fresh]

/-- The row a retry inserts. -/
def successorRow (host : RetryHost) (row : QueueRow) (plan : RetryPlan) (choice : RetryChoice)
    (job : QueueRequest) (world : RetryWorld) : QueueRow :=
  insertedRow host.runtime
    (preparedRecord host.runtime (successorRecord host row plan choice job world))

section

variable {row : QueueRow} {plan : RetryPlan} {choice : RetryChoice} {job : QueueRequest}
  {world : RetryWorld}

theorem successorRow_jobId :
    (successorRow host row plan choice job world).jobId = world.freshJobId := by
  rfl

theorem successorRow_idempotencyKey :
    (successorRow host row plan choice job world).idempotencyKey = successorKey host row := by
  rfl

theorem successorRow_fingerprint :
    (successorRow host row plan choice job world).recordJson.requestFingerprint
      = host.queueRequestFingerprint job := by
  rw [successorRow, preparedRecord_of_pending _ rfl]
  rfl

end

/-- The rows under the key of a row's successor. -/
def successors (host : RetryHost) (row : QueueRow) (db : QueueDb) : List QueueRow :=
  db.jobs.filter fun other => other.idempotencyKey = successorKey host row

/-- The insert of a successor looks at the first row under its key. -/
theorem persist_successor (host : RetryHost) {db : QueueDb} (row : QueueRow) (plan : RetryPlan)
    (choice : RetryChoice) (job : QueueRequest) {world : RetryWorld}
    (fresh : db.job world.freshJobId = none) :
    let record := preparedRecord host.runtime (successorRecord host row plan choice job world)
    persistQueueRecord host.runtime db world.bridgeInstanceId
        (successorRecord host row plan choice job world) world.capacityAvailable world.now
      = match (successors host row db).head? with
        | some existing =>
          if existing.recordJson.requestFingerprint = host.queueRequestFingerprint job then
            (.deduplicated existing.jobId, record, db)
          else (.idempotencyConflict existing.jobId, record, db)
        | none =>
          if world.capacityAvailable then
            (.inserted .pending 0, record,
              { db with jobs := db.jobs ++ [successorRow host row plan choice job world] })
          else (.capacityRefused, record, db) := by
  intro record
  have hrecord : record = _ := preparedRecord_of_pending host.runtime rfl
  have hkey : record.idempotencyKey = successorKey host row := by rw [hrecord]; rfl
  have hfingerprint : record.requestFingerprint = host.queueRequestFingerprint job := by
    rw [hrecord]; rfl
  have hexisting : idempotentJob db record = (successors host row db).head? := by
    have hne : successorKey host row ≠ "" := requeueIdempotencyKey_ne _ _ _
    rw [idempotentJob, hkey, if_neg hne, successors, List.head?_filter]
  rw [persistQueueRecord_of_new host.runtime rfl fresh, insertQueueRecord, hexisting]
  cases (successors host row db).head? with
  | none => cases world.capacityAvailable <;> rfl
  | some existing =>
    have hne := host.fingerprint_ne job
    by_cases hsame : existing.recordJson.requestFingerprint = host.queueRequestFingerprint job
    · simp [hsame, hfingerprint, hne, record]
    · simp [hsame, hfingerprint, record]

/-! ### The job of a successor -/

/-- The job that a requeue with this model would insert, if it passes every check. -/
def successorJob (host : RetryHost) (row : QueueRow) (spec : String) : Option QueueRequest :=
  match requeueRequest host row spec with
  | .error _ => none
  | .ok request =>
    match checkedJob host request with
    | .error _ => none
    | .ok (_, job) => some job

section

variable (db : QueueDb) {row : QueueRow} (plan : RetryPlan) {choice : RetryChoice}
  {world : RetryWorld}

theorem admitRequeue_of_refused (h : successorJob host row choice.spec = none) :
    ∃ refusal, admitRequeue host db row plan choice world = (.error refusal, db) := by
  rw [successorJob] at h
  rw [admitRequeue]
  cases hrequest : requeueRequest host row choice.spec with
  | error refusal => exact ⟨refusal, rfl⟩
  | ok request =>
    simp only [hrequest] at h ⊢
    cases hjob : checkedJob host request with
    | error refusal => exact ⟨requeueRejected refusal, rfl⟩
    | ok checked =>
      rw [hjob] at h
      cases h

theorem checked_of_successorJob {spec : String} {job : QueueRequest}
    (h : successorJob host row spec = some job) :
    ∃ request policy, requeueRequest host row spec = .ok request ∧
      checkedJob host request = .ok (policy, job) := by
  unfold successorJob at h
  split at h
  next refusal hrequest => cases h
  next request hrequest =>
    split at h
    next refusal hjob => cases h
    next policy checked hjob =>
      cases h
      exact ⟨request, policy, hrequest, hjob⟩

theorem admitRequeue_of_same {job : QueueRequest} {existing : QueueRow}
    (h : successorJob host row choice.spec = some job) (fresh : db.job world.freshJobId = none)
    (head : (successors host row db).head? = some existing)
    (same : existing.recordJson.requestFingerprint = host.queueRequestFingerprint job) :
    admitRequeue host db row plan choice world = (.ok ⟨existing.jobId, true⟩, db) := by
  obtain ⟨request, policy, hrequest, hjob⟩ := checked_of_successorJob h
  have hpersist := persist_successor host row plan choice job fresh
  rw [head] at hpersist
  simp only [admitRequeue, hrequest, hjob, hpersist, same, if_true]

/-- … another one is a conflict … -/
theorem admitRequeue_of_other {job : QueueRequest} {existing : QueueRow}
    (h : successorJob host row choice.spec = some job) (fresh : db.job world.freshJobId = none)
    (head : (successors host row db).head? = some existing)
    (other : existing.recordJson.requestFingerprint ≠ host.queueRequestFingerprint job) :
    ∃ refusal, admitRequeue host db row plan choice world = (.error refusal, db) := by
  obtain ⟨request, policy, hrequest, hjob⟩ := checked_of_successorJob h
  have hpersist := persist_successor host row plan choice job fresh
  rw [head] at hpersist
  simp only [admitRequeue, hrequest, hjob, hpersist, other, if_false]
  exact ⟨_, rfl⟩

/-- … and no row at all lets the successor in, if there is room. -/
theorem admitRequeue_of_none {job : QueueRequest}
    (h : successorJob host row choice.spec = some job) (fresh : db.job world.freshJobId = none)
    (head : (successors host row db).head? = none) :
    admitRequeue host db row plan choice world
        = (.ok ⟨world.freshJobId, false⟩,
            { db with jobs := db.jobs ++ [successorRow host row plan choice job world] }) ∨
      ∃ refusal, admitRequeue host db row plan choice world = (.error refusal, db) := by
  obtain ⟨request, policy, hrequest, hjob⟩ := checked_of_successorJob h
  have hpersist := persist_successor host row plan choice job fresh
  rw [head] at hpersist
  cases hcapacity : world.capacityAvailable with
  | true =>
    left
    simp only [hcapacity, if_true] at hpersist
    simp only [admitRequeue, hrequest, hjob, hcapacity, hpersist]
    rw [preparedRecord_of_pending host.runtime rfl]
    rfl
  | false =>
    right
    simp only [hcapacity] at hpersist
    simp only [admitRequeue, hrequest, hjob, hcapacity, hpersist]
    exact ⟨_, rfl⟩

/-- A refused admission writes nothing; one that is let in finds the successor or inserts it. -/
inductive Admitted (host : RetryHost) (db : QueueDb) (row : QueueRow) (plan : RetryPlan)
    (choice : RetryChoice) (world : RetryWorld) : Except Refusal Admission → QueueDb → Prop where
  | refused (refusal : Refusal) : Admitted host db row plan choice world (.error refusal) db
  | found {existing : QueueRow} (head : (successors host row db).head? = some existing) :
      Admitted host db row plan choice world (.ok ⟨existing.jobId, true⟩) db
  | inserted {job : QueueRequest} (checked : successorJob host row choice.spec = some job)
      (head : (successors host row db).head? = none) :
      Admitted host db row plan choice world (.ok ⟨world.freshJobId, false⟩)
        { db with jobs := db.jobs ++ [successorRow host row plan choice job world] }

theorem admitted_of_admitRequeue {result : Except Refusal Admission} {db' : QueueDb}
    (fresh : db.job world.freshJobId = none)
    (h : admitRequeue host db row plan choice world = (result, db')) :
    Admitted host db row plan choice world result db' := by
  cases hjob : successorJob host row choice.spec with
  | none =>
    obtain ⟨refusal, hrefused⟩ := admitRequeue_of_refused db plan hjob
    cases h.symm.trans hrefused
    exact .refused refusal
  | some job =>
    cases hhead : (successors host row db).head? with
    | some existing =>
      by_cases hsame : existing.recordJson.requestFingerprint = host.queueRequestFingerprint job
      · cases h.symm.trans (admitRequeue_of_same db plan hjob fresh hhead hsame)
        exact .found hhead
      · obtain ⟨refusal, hrefused⟩ := admitRequeue_of_other db plan hjob fresh hhead hsame
        cases h.symm.trans hrefused
        exact .refused refusal
    | none =>
      rcases admitRequeue_of_none db plan hjob fresh hhead with hinserted | ⟨refusal, hrefused⟩
      · cases h.symm.trans hinserted
        exact .inserted hjob hhead
      · cases h.symm.trans hrefused
        exact .refused refusal

end

/-! ### The crashed run -/

/-- The row, the plan and the job of a run that inserted its successor. -/
structure Crashed (host : RetryHost) (db : QueueDb) (jobId : String) (world : RetryWorld)
    (db' : QueueDb) (row : QueueRow) (plan : RetryPlan) (job : QueueRequest) : Prop where
  original : db.job jobId = some row
  verdict : retryVerdict host row = .retry plan
  checked :
    successorJob host row (retryChoice host plan row.recordJson.retry world).spec = some job
  first : successors host row db = []
  inserted : db' = { db with
    jobs := db.jobs ++ [successorRow host row plan
      (retryChoice host plan row.recordJson.retry world) job world] }

theorem crashedRetry_spec {db db' : QueueDb} {jobId successor : String} {world : RetryWorld}
    (crashed : crashedRetry host db jobId world = some (successor, db'))
    (fresh : db.job world.freshJobId = none) :
    successor = world.freshJobId ∧
      ∃ row plan job, Crashed host db jobId world db' row plan job := by
  unfold crashedRetry at crashed
  split at crashed
  next => cases crashed
  next row hrow =>
    split at crashed
    next plan hverdict =>
      split at crashed
      next admitted _ hadmission =>
        cases crashed
        cases admitted_of_admitRequeue db plan fresh hadmission with
        | inserted hjob hhead =>
          have hfirst := List.head?_eq_none_iff.mp hhead
          exact ⟨rfl, row, plan, _, hrow, hverdict, hjob, hfirst, rfl⟩
      next => cases crashed
    next => cases crashed

/-! ### What is written on the original -/

theorem patchTerminalQueueSummary_job {db : QueueDb} {jobId : String} {row : QueueRow}
    (fields : QueueRecord → Option QueueRecord) (original : db.job jobId = some row) :
    (patchTerminalQueueSummary db jobId fields).2.job jobId = some row ∨
      ∃ summary, fields row.recordJson = some summary ∧
        (patchTerminalQueueSummary db jobId fields).2.job jobId
          = some { row with
              recordJson := { summary with revision := row.revision + 1 }
              revision := row.revision + 1 } := by
  unfold patchTerminalQueueSummary
  rw [original]
  by_cases hterminal : row.status.terminal = true
  · simp only [hterminal, if_true]
    cases hfields : fields row.recordJson with
    | none => exact .inl original
    | some summary =>
      right
      refine ⟨summary, rfl, ?_⟩
      show Systems.lookup QueueRow.jobId jobId (RowUpdate.exec _ db.jobs) = _
      rw [lookup_exec (fun _ => rfl), show Systems.lookup QueueRow.jobId jobId db.jobs = some row
        from original]
      simp [rewriteSummary]
  · simp only [hterminal]
    exact .inl original

/-- The decision on a job is not that it was requeued. -/
def NotRequeued (jobId : String) (db : QueueDb) : Prop :=
  ∃ row, db.job jobId = some row ∧ row.recordJson.retryDecisionOutcome ≠ "requeued"

theorem NotRequeued.patch {db : QueueDb} {jobId : String}
    {fields : QueueRecord → Option QueueRecord} {row : QueueRow}
    (original : db.job jobId = some row)
    (undecided : row.recordJson.retryDecisionOutcome ≠ "requeued")
    (kept : ∀ summary, fields row.recordJson = some summary →
      summary.retryDecisionOutcome ≠ "requeued") :
    NotRequeued jobId (patchTerminalQueueSummary db jobId fields).2 := by
  rcases patchTerminalQueueSummary_job fields original with
    hsame | ⟨summary, hfields, hpatched⟩
  · exact ⟨row, hsame, undecided⟩
  · exact ⟨_, hpatched, kept summary hfields⟩

theorem requeueRefused_notRequeued {db : QueueDb} {row : QueueRow} (plan : RetryPlan)
    (refusal : Refusal) (now : Nat) (original : db.job row.jobId = some row)
    (undecided : row.recordJson.retryDecisionOutcome ≠ "requeued") :
    NotRequeued row.jobId (requeueRefused db row plan refusal now).2 := by
  have hsame : NotRequeued row.jobId db := ⟨row, original, undecided⟩
  unfold requeueRefused
  split_ifs
  · apply NotRequeued.patch original undecided
    intro summary hfields
    split_ifs at hfields
    cases hfields
    exact undecided
  · split
    · split_ifs
      · exact hsame
      · exact hsame
    · exact hsame
  · exact hsame
  · unfold giveUp settleRetry
    rw [original]
    have hpatch : NotRequeued row.jobId (patchTerminalQueueSummary db row.jobId fun summary =>
        if retryableStatus row.status && retryUndecided summary then
          some { summary with
            completionOutcome := "gave_up"
            retryDecisionPendingAt := Option.none
            retryDeferredAt := Option.none
            retryDecisionOutcome := "gave_up"
            retry := { summary.retry with
              attemptHistory := plan.history
              retryDecisionAt := some now } }
        else Option.none).2 := by
      apply NotRequeued.patch original undecided
      intro summary hfields
      split_ifs at hfields
      cases hfields
      show "gave_up" ≠ "requeued"
      decide
    simp only
    split_ifs
    all_goals exact hpatch

/-! ### The model that a successor's request carries -/

section

variable {row : QueueRow} {spec : String} {job : QueueRequest}

theorem ok_of_check {α : Type} {refused : Prop} [Decidable refused] {refusal : Refusal}
    {result : Except Refusal α} {value : α}
    (h : (if refused then .error refusal else result) = .ok value) : result = .ok value := by
  by_cases hrefused : refused
  · rw [if_pos hrefused] at h
    cases h
  · rwa [if_neg hrefused] at h

theorem requeueRequest_pinned {requirement : ModelRequirement}
    (h : requeueRequest host row spec = .ok job) (pinned : pinnedModel spec = some requirement) :
    ∃ evidence, job.modelRequirement
      = some { requirement with requireRuntimeEvidence := evidence } := by
  unfold requeueRequest at h
  extract_lets summary at h
  iterate 7 replace h := ok_of_check h
  split at h
  next => cases h
  next stored hstored =>
    iterate 3 replace h := ok_of_check h
    split at h
    next hnone =>
      rw [pinned] at hnone
      cases hnone
    next pinned' hpinned =>
      rw [pinned] at hpinned
      cases hpinned
      split at h
      next =>
        cases h
        exact ⟨_, rfl⟩
      next => cases h

theorem applyRetryPolicyToJob_pinned {request : QueueRequest} {policy : Option RetryPolicy}
    (h : applyRetryPolicyToJob host request = .ok (policy, job))
    (pinned : request.modelRequirement ≠ none) : job = request := by
  unfold applyRetryPolicyToJob at h
  split at h
  next => cases h
  next =>
    cases h
    rfl
  next applied happlied =>
    iterate 2
      split at h
      next => cases h
    split at h
    next =>
      cases h
      rfl
    next =>
      split at h
      next =>
        cases h
        rfl
      next => cases h
    next hnone => exact absurd hnone pinned

theorem checkedJob_pinned {request : QueueRequest} {policy : Option RetryPolicy}
    (h : checkedJob host request = .ok (policy, job)) (pinned : request.modelRequirement ≠ none) :
    job.modelRequirement = request.modelRequirement := by
  unfold checkedJob at h
  split at h
  next => cases h
  next applied policy happlied =>
    extract_lets normalized at h
    split at h
    next => cases h
    next =>
      have hjob : normalized = job := congrArg Prod.snd (Except.ok.inj h)
      rw [← hjob, ← applyRetryPolicyToJob_pinned happlied pinned]
      show (normalizeJobCwd host _).modelRequirement = _
      unfold normalizeJobCwd
      split <;> rfl

theorem successorJob_pinned {requirement : ModelRequirement}
    (h : successorJob host row spec = some job) (pinned : pinnedModel spec = some requirement) :
    ∃ evidence, job.modelRequirement
      = some { requirement with requireRuntimeEvidence := evidence } := by
  obtain ⟨request, policy, hrequest, hjob⟩ := checked_of_successorJob h
  obtain ⟨evidence, hrequirement⟩ := requeueRequest_pinned hrequest pinned
  refine ⟨evidence, ?_⟩
  rw [checkedJob_pinned hjob (by simp [hrequirement]), hrequirement]

theorem entry_eq_of_successorJob {entry other : ModelEntry} (wellFormed : entry.WellFormed)
    (wellFormed' : other.WellFormed) (h : successorJob host row entry.spec = some job)
    (h' : successorJob host row other.spec = some job) : entry = other := by
  obtain ⟨evidence, hjob⟩ := successorJob_pinned h (pinnedModel_spec wellFormed)
  obtain ⟨evidence', hjob'⟩ := successorJob_pinned h' (pinnedModel_spec wellFormed')
  apply requirement_injective
  rw [hjob, Option.some.injEq, ModelRequirement.mk.injEq] at hjob'
  obtain ⟨hprovider, hmodel, hvariant, -⟩ := hjob'
  rw [ModelRequirement.mk.injEq]
  exact ⟨hprovider, hmodel, hvariant, rfl⟩

end

/-! ### The models of the two runs -/

theorem retryCandidates_ne_nil (policy : RetryPolicy) (chooseFrom : Nat) (failed : RetrySummary) :
    retryCandidates policy chooseFrom failed ≠ [] := by
  unfold retryCandidates
  split_ifs with hmodels
  · simp
  · simpa [List.isEmpty_iff, List.rotate_eq_nil_iff] using hmodels

theorem RunsNext.mem {keys : KeyConfig} {world : RetryWorld} {candidates : List RetryCandidate}
    {spec : String} (h : RunsNext keys world candidates spec) :
    ∃ candidate ∈ candidates, candidate.spec = spec := by
  cases h
  · exact ⟨_, by simp, rfl⟩
  · exact ⟨_, by simp, rfl⟩
  · exact ⟨_, by simp, rfl⟩

/-- Both runs pin the same entry: the failure is one of the bridge itself, which keeps
the request's model, or one entry runs next under both pauses and both clocks. -/
def SameModelNext (host : RetryHost) (row : QueueRow) (plan : RetryPlan)
    (crash rerun : RetryWorld) : Prop :=
  plan.infraRetry = true ∨
    ∃ spec,
      RunsNext host.keys crash
        (retryCandidates plan.policy plan.chooseFrom row.recordJson.retry) spec ∧
      RunsNext host.keys rerun
        (retryCandidates plan.policy plan.chooseFrom row.recordJson.retry) spec

theorem retryChoice_spec_eq_iff (host : RetryHost) (row : QueueRow) (plan : RetryPlan)
    (crash rerun : RetryWorld) :
    (retryChoice host plan row.recordJson.retry rerun).spec
        = (retryChoice host plan row.recordJson.retry crash).spec ↔
      SameModelNext host row plan crash rerun := by
  unfold retryChoice SameModelNext
  cases plan.infraRetry with
  | true => simp
  | false =>
    have hne := retryCandidates_ne_nil plan.policy plan.chooseFrom row.recordJson.retry
    simp only [Bool.false_eq_true, if_false, false_or]
    constructor
    · intro hsame
      exact ⟨_, (chooseRetryModel_spec host _ _ _ crash _ hne).mp rfl,
        (chooseRetryModel_spec host _ _ _ rerun _ hne).mp hsame⟩
    · rintro ⟨spec, hcrash, hrerun⟩
      rw [(chooseRetryModel_spec host _ _ _ crash _ hne).mpr hcrash,
        (chooseRetryModel_spec host _ _ _ rerun _ hne).mpr hrerun]

theorem successorJob_ne {row : QueueRow} {plan : RetryPlan} {crash rerun : RetryWorld}
    {job job' : QueueRequest} (verdict : retryVerdict host row = .retry plan)
    (other : ¬ SameModelNext host row plan crash rerun)
    (h : successorJob host row (retryChoice host plan row.recordJson.retry crash).spec = some job)
    (h' : successorJob host row (retryChoice host plan row.recordJson.retry rerun).spec
      = some job') : job ≠ job' := by
  rintro rfl
  have hspec := mt (retryChoice_spec_eq_iff host row plan crash rerun).mp other
  have hinfra : plan.infraRetry = false := by
    simpa using fun hinfra : plan.infraRetry = true => other (.inl hinfra)
  have hchoice (world : RetryWorld) :
      ∃ candidate ∈ retryCandidates plan.policy plan.chooseFrom row.recordJson.retry,
        candidate.spec = (retryChoice host plan row.recordJson.retry world).spec := by
    rw [retryChoice, hinfra]
    exact ((chooseRetryModel_spec host _ _ _ world _ (retryCandidates_ne_nil _ _ _)).mp rfl).mem
  obtain ⟨first, hfirst, hfirstSpec⟩ := hchoice crash
  obtain ⟨second, hsecond, hsecondSpec⟩ := hchoice rerun
  obtain ⟨-, -, request, hpolicy⟩ := retryVerdict_retry verdict
  have hwellFormed := jobRetryPolicy_wellFormed hpolicy
  unfold retryCandidates at hfirst hsecond
  split_ifs at hfirst hsecond
  · obtain rfl := List.mem_singleton.mp hfirst
    obtain rfl := List.mem_singleton.mp hsecond
    exact hspec (hsecondSpec.symm.trans hfirstSpec)
  · obtain ⟨entry, hentry, rfl⟩ := List.mem_map.mp hfirst
    obtain ⟨entry', hentry', rfl⟩ := List.mem_map.mp hsecond
    rw [← hfirstSpec] at h
    rw [← hsecondSpec] at h'
    obtain rfl := entry_eq_of_successorJob (hwellFormed entry (List.mem_rotate.mp hentry))
      (hwellFormed entry' (List.mem_rotate.mp hentry')) h h'
    exact hspec (hsecondSpec.symm.trans hfirstSpec)

/-! ### One successor -/

/-- What may happen to the queue between the crash and the re-run: anything that leaves
the original and the request of its successor alone. -/
structure MovedOn (host : RetryHost) (jobId : String) (db db' : QueueDb) : Prop where
  unique : UniqueJobs db'
  original : db'.job jobId = db.job jobId
  requests : ∀ row, db.job jobId = some row →
    (successors host row db').map (fun other => (other.jobId, other.recordJson.requestFingerprint))
      = (successors host row db).map fun other =>
          (other.jobId, other.recordJson.requestFingerprint)

/-- One successor, and the original says so. -/
def RetriedOnce (host : RetryHost) (db : QueueDb) (jobId successor : String) : Prop :=
  ∃ original kept, db.job jobId = some original ∧ successors host original db = [kept] ∧
    kept.jobId = successor ∧ original.recordJson.requeuedAs = successor ∧
    original.recordJson.retryDecisionOutcome = "requeued" ∧
    original.recordJson.completionOutcome ≠ "gave_up"

theorem not_retriedOnce_of_notRequeued {db : QueueDb} {jobId successor : String}
    (h : NotRequeued jobId db) : ¬ RetriedOnce host db jobId successor := by
  obtain ⟨row, hrow, hdecision⟩ := h
  rintro ⟨original, kept, horiginal, -, -, -, hrequeued, -⟩
  rw [hrow, Option.some.injEq] at horiginal
  exact hdecision (horiginal ▸ hrequeued)

theorem retryUndecided_spec {summary : QueueRecord} (h : retryUndecided summary = true) :
    summary.requeuedAs = "" ∧ summary.completionOutcome ≠ "gave_up" ∧
      summary.retryDecisionOutcome ≠ "requeued" := by
  simp only [retryUndecided, Bool.and_eq_true, beq_iff_eq, bne_iff_ne, Bool.not_eq_true'] at h
  obtain ⟨⟨⟨⟨⟨hrequeued, hgaveUp⟩, hfinal⟩, -⟩, -⟩, -⟩ := h
  refine ⟨hrequeued, hgaveUp, ?_⟩
  intro houtcome
  rw [houtcome] at hfinal
  exact absurd hfinal (by decide)

/-- The record that the mark leaves on an original. -/
def requeuedRow (row : QueueRow) (newJobId : String) (now : Nat) : QueueRow :=
  { row with
    recordJson := { row.recordJson with
      requeuedAs := newJobId
      retryDecisionPendingAt := none
      retryDeferredAt := none
      retryDecisionOutcome := "requeued"
      retry := { row.recordJson.retry with
        requeuedAt := some now
        retryDecisionAt := some now }
      revision := row.revision + 1 }
    revision := row.revision + 1 }

theorem markQueueJobRequeued_of_undecided {db : QueueDb} {jobId : String} {row : QueueRow}
    (newJobId : String) (now : Nat) (original : db.job jobId = some row)
    (terminal : row.status.terminal = true)
    (undecided : retryUndecided row.recordJson = true) :
    ∃ update : RowUpdate QueueRow,
      (markQueueJobRequeued db jobId newJobId now).2 = { db with jobs := update.exec db.jobs } ∧
      update.guard row = true ∧ update.set row = requeuedRow row newJobId now ∧
      (∀ other, (update.set other).jobId = other.jobId) ∧
      ∀ other, (update.set other).idempotencyKey = other.idempotencyKey := by
  obtain ⟨hrequeued, -, houtcome⟩ := retryUndecided_spec undecided
  have hpatch : (markQueueJobRequeued db jobId newJobId now).2
      = { db with
          jobs := (rewriteSummary row (requeuedRow row newJobId now).recordJson).exec db.jobs } := by
    simp only [markQueueJobRequeued, original, terminal, hrequeued, houtcome, ne_eq,
      not_true_eq_false, false_and, and_false, if_false, Bool.true_eq_false,
      patchTerminalQueueSummary, if_true]
    rfl
  exact ⟨_, hpatch, by simp [rewriteSummary], rfl, fun _ => rfl, fun _ => rfl⟩

/-- A row found under an id is found there after rows were appended. -/
theorem job_append {db : QueueDb} {jobId : String} {row : QueueRow}
    (h : db.job jobId = some row) (rows : List QueueRow) :
    QueueDb.job { db with jobs := db.jobs ++ rows } jobId = some row := by
  show lookup QueueRow.jobId jobId (db.jobs ++ rows) = some row
  rw [lookup, List.find?_append, show db.jobs.find? _ = some row from h]
  rfl

theorem successors_append (row added : QueueRow) (db : QueueDb) :
    successors host row { db with jobs := db.jobs ++ [added] }
      = successors host row db
        ++ if added.idempotencyKey = successorKey host row then [added] else [] := by
  rw [successors, List.filter_append, List.filter_singleton]
  by_cases hkey : added.idempotencyKey = successorKey host row
  · simp only [successors, hkey, decide_true, cond_true, if_true]
  · simp only [successors, hkey, decide_false, cond_false, if_false]

theorem successors_exec {update : RowUpdate QueueRow}
    (key : ∀ other, (update.set other).idempotencyKey = other.idempotencyKey) (row : QueueRow)
    (db : QueueDb) :
    successors host row { db with jobs := update.exec db.jobs }
      = (successors host row db).map fun other =>
          if update.guard other then update.set other else other := by
  have hkey (other : QueueRow) :
      (if update.guard other then update.set other else other).idempotencyKey
        = other.idempotencyKey := by
    split_ifs
    · exact key other
    · rfl
  simp only [successors, RowUpdate.exec, List.filter_map, Function.comp_def, hkey]

/-- The mark on an undecided original with one row under its successor's key. -/
theorem markQueueJobRequeued_retriedOnce {db : QueueDb} {row existing : QueueRow} (now : Nat)
    (original : db.job row.jobId = some row) (retryable : retryableStatus row.status = true)
    (undecided : retryUndecided row.recordJson = true)
    (one : successors host row db = [existing]) :
    RetriedOnce host (markQueueJobRequeued db row.jobId existing.jobId now).2 row.jobId
      existing.jobId := by
  have hterminal : row.status.terminal = true := by
    cases hstatus : row.status <;> simp_all [retryableStatus, QueueStatus.terminal]
  obtain ⟨update, hmarked, hguard, hset, hjobId, hkey⟩ :=
    markQueueJobRequeued_of_undecided existing.jobId now original hterminal undecided
  rw [hmarked]
  refine ⟨requeuedRow row existing.jobId now,
    if update.guard existing then update.set existing else existing, ?_, ?_, ?_, rfl, rfl, ?_⟩
  · show lookup QueueRow.jobId row.jobId (update.exec db.jobs) = _
    rw [lookup_exec hjobId, show lookup QueueRow.jobId row.jobId db.jobs = some row from original]
    simp [hguard, hset]
  · show successors host row { db with jobs := update.exec db.jobs } = _
    rw [successors_exec hkey, one]
    rfl
  · split_ifs
    · exact hjobId existing
    · rfl
  · exact (retryUndecided_spec undecided).2.1

/-- After a crash between the two transactions, another run of the policy leaves one
successor and the original requeued as it exactly when both runs pin the same model. -/
theorem retry_decided_once (host : RetryHost) {db db₁ db₂ : QueueDb} {jobId successor : String}
    {crash rerun : RetryWorld} (fresh : db.job crash.freshJobId = none)
    (crashed : crashedRetry host db jobId crash = some (successor, db₁))
    (moved : MovedOn host jobId db₁ db₂) (freshAgain : db₂.job rerun.freshJobId = none)
    (distinct : ∀ row plan job job', db.job jobId = some row →
      retryVerdict host row = .retry plan →
      successorJob host row (retryChoice host plan row.recordJson.retry crash).spec = some job →
      successorJob host row (retryChoice host plan row.recordJson.retry rerun).spec = some job' →
      host.queueRequestFingerprint job = host.queueRequestFingerprint job' → job = job') :
    RetriedOnce host (applyQueueRetryPolicy host db₂ jobId rerun).2 jobId successor ↔
      ∃ row plan, db.job jobId = some row ∧ retryVerdict host row = .retry plan ∧
        SameModelNext host row plan crash rerun := by
  obtain ⟨rfl, row, plan, job, hcrashed⟩ := crashedRetry_spec crashed fresh
  obtain ⟨hrow, hverdict, hjob, hnone, rfl⟩ := hcrashed
  obtain ⟨hmem, rfl⟩ := lookup_some hrow
  obtain ⟨hretryable, hundecided, -⟩ := retryVerdict_retry hverdict
  -- the crash leaves the original as it was, with one row under its successor's key
  have hrow₂ : db₂.job row.jobId = some row := moved.original.trans (job_append hrow _)
  obtain ⟨existing, hone, hexisting⟩ : ∃ existing, successors host row db₂ = [existing] ∧
      (existing.jobId, existing.recordJson.requestFingerprint)
        = (crash.freshJobId, host.queueRequestFingerprint job) := by
    have hrequests := moved.requests row (job_append hrow _)
    rw [successors_append, hnone, List.nil_append,
      if_pos successorRow_idempotencyKey, List.map_singleton,
      successorRow_jobId, successorRow_fingerprint, List.map_eq_singleton_iff] at hrequests
    exact hrequests
  obtain ⟨hjobId, hfingerprint⟩ := Prod.mk.inj hexisting
  have hhead : (successors host row db₂).head? = some existing := by rw [hone]; rfl
  have hrefusedRun {refusal db'} (hadmission : admitRequeue host db₂ row plan
      (retryChoice host plan row.recordJson.retry rerun) rerun = (.error refusal, db')) :
      (applyQueueRetryPolicy host db₂ row.jobId rerun).2
        = (requeueRefused db' row plan refusal rerun.now).2 := by
    simp only [applyQueueRetryPolicy, hrow₂, hverdict, hadmission]
  have hadmittedRun {admission db'} (hadmission : admitRequeue host db₂ row plan
      (retryChoice host plan row.recordJson.retry rerun) rerun = (.ok admission, db')) :
      (applyQueueRetryPolicy host db₂ row.jobId rerun).2
        = (markQueueJobRequeued db' row.jobId admission.jobId rerun.now).2 := by
    simp only [applyQueueRetryPolicy, hrow₂, hverdict, hadmission]
  constructor
  · intro honce
    refine ⟨row, plan, hrow, hverdict, ?_⟩
    by_contra hother
    -- another model is another request, and its refusal is not a successor
    have hrefused : ∃ refusal, admitRequeue host db₂ row plan
        (retryChoice host plan row.recordJson.retry rerun) rerun = (.error refusal, db₂) := by
      cases hjob' : successorJob host row
          (retryChoice host plan row.recordJson.retry rerun).spec with
      | none => exact admitRequeue_of_refused db₂ plan hjob'
      | some job' =>
        apply admitRequeue_of_other db₂ plan hjob' freshAgain hhead
        intro hsame
        exact successorJob_ne hverdict hother hjob hjob'
          (distinct row plan job job' hrow hverdict hjob hjob' (hfingerprint.symm.trans hsame))
    obtain ⟨refusal, hadmission⟩ := hrefused
    rw [hrefusedRun hadmission] at honce
    exact not_retriedOnce_of_notRequeued (requeueRefused_notRequeued plan refusal rerun.now hrow₂
      (retryUndecided_spec hundecided).2.2) honce
  · rintro ⟨row', plan', hrow', hverdict', hsame⟩
    cases hrow.symm.trans hrow'
    cases hverdict.symm.trans hverdict'
    have hspec := (retryChoice_spec_eq_iff host row plan crash rerun).mpr hsame
    have hjob' : successorJob host row
        (retryChoice host plan row.recordJson.retry rerun).spec = some job := by
      rw [hspec]
      exact hjob
    rw [hadmittedRun (admitRequeue_of_same db₂ plan hjob' freshAgain hhead hfingerprint), ← hjobId]
    exact markQueueJobRequeued_retriedOnce rerun.now hrow₂ hretryable hundecided hone

def twoModels : QueueRequest where
  cwd := "/repo"
  agent := "reader"
  models := some ["acme/small", "other/large"]
  maxAttempts := none
  modelRequirement := none
  sanitizedRoot := none
  orchestratorMode := ""
  contractorProof := false
  content := "{}"

/-- A process that allows both models and stores that request. -/
def plainHost : RetryHost where
  runtime := plainRuntime
  keys := ⟨"provider", false, []⟩
  modelOverrideAllowlist := ["acme/small", "other/large"]
  autoResumeInterrupted := true
  queueBlockedPollMs := 1000
  queueLeaseMs := 50
  decryptQueueRequest _ _ := some twoModels
  encryptQueueRequest _ _ := "request"
  queueRequestFingerprint request :=
    "sha:" ++ (request.modelRequirement.map ModelRequirement.model).getD ""
  sha256Prefix _ := "0123456789abcdef"
  requestProblems _ := []
  resolveProjectStateRoot cwd := cwd
  recordMatchesProject _ := true
  orphanChildAlive _ := false
  enqueueRefusal _ := none
  lockPlanMode _ := "read"
  fingerprint_ne request := by simp

/-- A first attempt that timed out on the first model. -/
def failedDb : QueueDb :=
  { QueueDb.empty with
    jobs := [insertedRow plainRuntime
      { enqueuedRecord "job-1" "bridge-1" "gen-1" 1 50 with
        status := .failed
        errorType := "agent_timeout"
        requestHasRetryPolicy := true
        retryAttempt := 1 }] }

/-- Nothing is paused while the successor is inserted. -/
def unpausedWorld : RetryWorld := ⟨10, some [], "bridge-1", 1, "job-2", "gen-2", true⟩

/-- A later run finds the provider of the second model paused. -/
def pausedWorld : RetryWorld :=
  ⟨20, some [("provider:other", 500)], "bridge-1", 1, "job-3", "gen-3", true⟩

/-- What the crash after the insert leaves. -/
def crashedDb : QueueDb :=
  ((crashedRetry plainHost failedDb "job-1" unpausedWorld).map Prod.snd).getD .empty

theorem retry_decided_once_of_same_pauses :
    RetriedOnce plainHost
        (applyQueueRetryPolicy plainHost crashedDb "job-1"
          { unpausedWorld with freshJobId := "job-3" }).2 "job-1" "job-2" ↔
      ∃ row plan, failedDb.job "job-1" = some row ∧ retryVerdict plainHost row = .retry plan ∧
        SameModelNext plainHost row plan unpausedWorld
          { unpausedWorld with freshJobId := "job-3" } := by
  refine @retry_decided_once plainHost failedDb crashedDb crashedDb _ _ unpausedWorld
    { unpausedWorld with freshJobId := "job-3" } (by decide) (by decide +kernel)
    ⟨by unfold UniqueJobs; decide +kernel, rfl, fun _ _ => rfl⟩ (by decide +kernel) ?_
  intro row plan job job' _ _ hjob hjob' _
  exact Option.some.inj (hjob.symm.trans hjob')

/-- The model of the successor is paused when the policy runs again: it builds another
request, finds the key taken and gives up. -/
theorem retry_decided_once_fails :
    crashedRetry plainHost failedDb "job-1" unpausedWorld = some ("job-2", crashedDb) ∧
      ((applyQueueRetryPolicy plainHost crashedDb "job-1" pausedWorld).2.job "job-1").map
          (fun row => (row.recordJson.requeuedAs, row.recordJson.completionOutcome))
        = some ("", "gave_up") ∧
      ¬ RetriedOnce plainHost (applyQueueRetryPolicy plainHost crashedDb "job-1" pausedWorld).2
        "job-1" "job-2" := by
  have hgaveUp : ((applyQueueRetryPolicy plainHost crashedDb "job-1" pausedWorld).2.job
      "job-1").map (fun row => (row.recordJson.requeuedAs, row.recordJson.completionOutcome))
        = some ("", "gave_up") := by decide +kernel
  have hfirst : (crashedRetry plainHost failedDb "job-1" unpausedWorld).map Prod.fst =
      some "job-2" := by decide +kernel
  have hcrashed : crashedRetry plainHost failedDb "job-1" unpausedWorld =
      some ("job-2", crashedDb) := by
    unfold crashedDb
    obtain ⟨⟨jobId, db⟩, hrun, rfl⟩ := Option.map_eq_some_iff.mp hfirst
    rw [hrun, Option.map_some, Option.getD_some]
  refine ⟨hcrashed, hgaveUp, ?_⟩
  rintro ⟨original, kept, horiginal, -, -, -, -, hkept⟩
  rw [horiginal, Option.map_some, Option.some.injEq, Prod.mk.injEq] at hgaveUp
  exact hkept hgaveUp.2

end AgentBridge.Queue
