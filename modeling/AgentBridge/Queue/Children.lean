import AgentBridge.Queue.Fencing
import AgentBridge.Queue.Propagation

/-!
# Children of a pipeline

A pipeline's jobs are inserted and released in the transaction that starts it. From
then on they are jobs like any other, except that a claim also looks at the pipeline
and that the end of one of them can close it.

The system below adds to the fenced queue the activation of a pipeline, the writes of
the other parts of the bridge to `opencode_pipelines`, and every version of a row that
there has been: a process gets a record of a running job only from such a version.
Pipelines of earlier versions of the bridge (`batch_state = 'legacy'`), which are
attached to existing jobs at startup, are not part of it.
-/

namespace AgentBridge.Queue

open Systems Option

variable {runtime : QueueRuntime}

/-! ### Activation -/

/-- What `activatePipelineBatch` is called with, and what its transaction finds in the
columns of the pipeline that are not modelled: its revision, its owner and its lease. -/
structure PipelineActivation where
  pipelineId : String
  bridgeInstanceId : String
  preparedRecords : List QueueRecord
  claimMatches : Bool
  capacityAvailable : Bool
  commitAt : Nat
  commitLeaseExpiresAt : Nat

/-- The row of a child: inserted as held and released in the same transaction. -/
def releasedChild (runtime : QueueRuntime) (child : QueueRecord)
    (commitAt commitLeaseExpiresAt : Nat) : QueueRow where
  jobId := child.jobId
  status := .pending
  createdAt := child.createdAt
  startedAt := none
  finishedAt := none
  recordJson := queueRecordDurableSummary runtime
    { child with
      status := .pending
      revision := 1
      heartbeatAt := some commitAt
      leaseExpiresAt := some commitLeaseExpiresAt }
  ownerInstanceId := child.ownerInstanceId
  ownerProcessId := child.ownerProcessId
  ownerGeneration := child.ownerGeneration
  heartbeatAt := some commitAt
  leaseExpiresAt := some commitLeaseExpiresAt
  cancellationRequestedAt := none
  childProcessId := 0
  childProcessStartedAt := none
  revision := 1
  idempotencyKey := child.idempotencyKey
  requestEncrypted := child.requestEncrypted
  resultEncrypted := child.resultEncrypted

/-- `preparedRecords` has a request for every child and no child twice. -/
def batchValid (batch : PipelineActivation) : Bool :=
  !batch.preparedRecords.isEmpty
    && batch.preparedRecords.all (fun child => child.requestEncrypted ≠ "")
    && decide (batch.preparedRecords.map QueueRecord.jobId).Nodup

/-- The unique indexes on the jobs, and the owner that the release asks for. -/
def childrenInsertable (db : QueueDb) (batch : PipelineActivation) : Bool :=
  batch.preparedRecords.all (fun child =>
      (db.job child.jobId).isNone && child.ownerInstanceId = batch.bridgeInstanceId
        && (child.idempotencyKey = ""
          || db.jobs.all fun row => row.idempotencyKey ≠ child.idempotencyKey))
    && decide ((batch.preparedRecords.map QueueRecord.idempotencyKey).filter (· ≠ "")).Nodup

def activatePipelineBatch (runtime : QueueRuntime) (db : QueueDb) (batch : PipelineActivation) :
    Bool × QueueDb :=
  if !batchValid batch || !batch.capacityAvailable then (false, db)
  else
    match db.pipelines.find? fun pipeline => pipeline.pipelineId = batch.pipelineId with
    | none => (false, db)
    | some authoritative =>
      if authoritative.status = .planned && batch.claimMatches
          && (authoritative.batchState = .unstarted || authoritative.batchState = .legacy)
          && db.children.all (fun relation => relation.pipelineId ≠ batch.pipelineId)
          && childrenInsertable db batch then
        (true,
          { db with
            jobs := db.jobs ++ batch.preparedRecords.map fun child =>
              releasedChild runtime child batch.commitAt batch.commitLeaseExpiresAt
            children := db.children ++ batch.preparedRecords.map fun child =>
              ⟨batch.pipelineId, child.jobId⟩
            pipelines := db.pipelines.map fun pipeline =>
              if pipeline.pipelineId = batch.pipelineId then
                { pipeline with status := .running, batchState := .released }
              else pipeline })
      else (false, db)

/-! ### The system -/

structure PipelineState where
  fenced : FencedState
  /-- Every version of a row so far. -/
  versions : List QueueRow

inductive PipelineEvent where
  | draw (bridgeInstanceId generation : String)
  | queue (event : QueueEvent)
  | instances (instances : List BridgeInstance)
  | pipelines (pipelines : List PipelineRow)
  | activate (batch : PipelineActivation)

namespace PipelineState

def initial : PipelineState := ⟨.initial, []⟩

def db (s : PipelineState) : QueueDb := s.fenced.db

/-- A record says that its job is running only if its process has read or written such a
version of the row. Everything else a process may set in a record on its own. -/
def couldHold (s : PipelineState) (record : QueueRecord) : Bool :=
  !record.status.active || s.versions.any fun version =>
    version.jobId = record.jobId && version.ownerGeneration = record.ownerGeneration
      && version.status = record.status && record.revision ≤ version.revision

/-- The events that the processes can bring about. -/
def possible (s : PipelineState) (event : QueueEvent) : Bool :=
  event.ordinary && match event with
    | .persist _ record .. => s.couldHold record
    | _ => true

/-- `FOREIGN KEY (pipeline_id)` -/
def keepsParents (s : PipelineState) (pipelines : List PipelineRow) : Bool :=
  s.db.children.all fun relation =>
    pipelines.any fun pipeline => pipeline.pipelineId = relation.pipelineId

/-- The children carry an owner and a generation that were drawn together. -/
def childrenKnown (s : PipelineState) (batch : PipelineActivation) : Bool :=
  batch.preparedRecords.all fun child =>
    s.fenced.known child.ownerInstanceId child.ownerGeneration

/-- The queue as the step leaves it, with its rows among the versions. -/
def record (s : PipelineState) (fenced : FencedState) : PipelineState :=
  ⟨fenced, s.versions ++ fenced.db.jobs⟩

end PipelineState

def pipelineStep (runtime : QueueRuntime) (s : PipelineState) : PipelineEvent → PipelineState
  | .draw bridgeInstanceId generation =>
    s.record (fencedStep runtime s.fenced (.draw bridgeInstanceId generation))
  | .queue event =>
    if s.possible event then s.record (fencedStep runtime s.fenced (.queue event)) else s
  | .instances instances =>
    s.record (fencedStep runtime s.fenced
      (.queue (.environment instances s.db.pipelines s.db.children)))
  | .pipelines pipelines =>
    if s.keepsParents pipelines then
      s.record (fencedStep runtime s.fenced
        (.queue (.environment s.db.instances pipelines s.db.children)))
    else s
  | .activate batch =>
    if s.childrenKnown batch then
      s.record { s.fenced with db := (activatePipelineBatch runtime s.db batch).2 }
    else s

/-! ### What a write does to the status and to the summary -/

section

variable {db : QueueDb} {event : QueueEvent} {row row' : QueueRow}

theorem commits_ownerTerminal (ordinary : event.ordinary = true) {bridgeInstanceId : String}
    {record : QueueRecord} (commits : event.commits runtime = some (bridgeInstanceId, record)) :
    ownerTerminal record.status = true := by
  cases event <;> simp only [QueueEvent.commits] at commits <;> try cases commits
  case persist =>
    split_ifs at commits with hterminal
    cases commits
    exact hterminal
  case persistWithEnvelope => exact ordinary

theorem QueueWrite.summaryRevision (h : QueueWrite runtime db event row row')
    (ordinary : event.ordinary = true) (unstarted : row'.status.preExecution = true) :
    (row.status.preExecution = true ∧ row'.recordJson.revision = row.recordJson.revision) ∨
      row'.recordJson.revision = row.revision + 1 := by
  have hended (hterminal : row'.status.terminal = true) : False := by
    rw [QueueStatus.terminal_eq_false_of_preExecution unstarted] at hterminal
    cases hterminal
  have hactive (hrunning : row'.status.active = true) : False := by
    cases hstatus : row'.status <;>
      simp_all [QueueStatus.active, QueueStatus.preExecution]
  cases h with
  | siblingCancelled => exact (hended rfl).elim
  | siblingMarked time other status => exact (hactive status).elim
  | unstartedCancelled => exact (hended rfl).elim
  | cancellationMarked requestedAt next status => exact (hactive status).elim
  | unstartedEnded revision terminal details commits owned status ends =>
    refine (hended ?_).elim
    show terminal.status.terminal = true
    rcases ends with hends | hends <;> rw [hends] <;> rfl
  | activeEnded revision now terminal commits owned status unmarked live ends =>
    refine (hended ?_).elim
    show terminal.status.terminal = true
    rcases ends with hends | hends
    · rw [hends]
      exact ownerTerminal_terminal (commits_ownerTerminal ordinary commits)
    · rw [hends]
      rfl
  | activeCancelled => exact (hended rfl).elim
  | rewritten next owned patch =>
    right
    rw [patch]
    rfl
  | abandoned => exact (hended (abandonedStatus_terminal row)).elim
  | renewed waitInfo =>
    left
    refine ⟨unstarted, ?_⟩
    show (if waitInfo = "" then row.recordJson else _).revision = _
    split_ifs <;> rfl
  | retaken => exact .inl ⟨unstarted, rfl⟩
  | orphanCancelled => exact (hended rfl).elim
  | claimed => exact (hactive rfl).elim
  | takenOver resumed patch =>
    right
    rw [patch]
    rfl
  | startupFailed => exact (hended rfl).elim
  | summaryRewritten summary status => exact (hended status).elim

/-- A job is started by a claim that its pipeline allows, or by a persist of a record that
says so. -/
theorem QueueWrite.starts (h : QueueWrite runtime db event row row')
    (ordinary : event.ordinary = true) (running : row'.status.active = true) :
    row'.status = row.status ∨
      (row'.status = .running ∧ parentAllowsClaim (db.parent row.jobId) = true) ∨
      ∃ bridgeInstanceId record capacityAvailable now,
        event = .persist bridgeInstanceId record capacityAvailable now ∧
          ownerTerminal (preparedRecord runtime record).status = false := by
  have hended (hterminal : row'.status.terminal = true) : False := by
    rw [QueueStatus.terminal_eq_false_of_active running] at hterminal
    cases hterminal
  cases h with
  | siblingCancelled => exact (hended rfl).elim
  | siblingMarked => exact .inl rfl
  | unstartedCancelled => exact (hended rfl).elim
  | cancellationMarked => exact .inl rfl
  | unstartedEnded revision terminal details commits owned status ends =>
    refine (hended ?_).elim
    show terminal.status.terminal = true
    rcases ends with hends | hends <;> rw [hends] <;> rfl
  | activeEnded revision now terminal commits owned status unmarked live ends =>
    refine (hended ?_).elim
    show terminal.status.terminal = true
    rcases ends with hends | hends
    · rw [hends]
      exact ownerTerminal_terminal (commits_ownerTerminal ordinary commits)
    · rw [hends]
      rfl
  | activeCancelled => exact (hended rfl).elim
  | rewritten next owned patch notTerminal =>
    exact .inr (.inr ⟨_, _, _, _, rfl, notTerminal⟩)
  | abandoned => exact (hended (abandonedStatus_terminal row)).elim
  | renewed => exact .inl rfl
  | retaken => exact .inl rfl
  | orphanCancelled => exact (hended rfl).elim
  | claimed running owned allowed => exact .inr (.inl ⟨rfl, allowed⟩)
  | takenOver resumed patch recoverable =>
    have hpending : resumed.status.active = false := by
      rw [patch]
      show (if row.status = .held then QueueStatus.held else .pending).active = false
      split_ifs <;> rfl
    change resumed.status.active = true at running
    rw [hpending] at running
    cases running
  | startupFailed => exact (hended rfl).elim
  | summaryRewritten => exact .inl rfl

end

/-! ### What a persist does to the status -/

section

variable {db : QueueDb} {bridgeInstanceId : String} {record : QueueRecord}
  {capacityAvailable : Bool} {now : Nat} {row row' : QueueRow}

theorem preparedRecord_status_of_notTerminal
    (h : ownerTerminal (preparedRecord runtime record).status = false) :
    (preparedRecord runtime record).status = record.status := by
  revert h
  simp only [preparedRecord, enforceQueueResultEvidence]
  split_ifs <;> simp [ownerTerminal]

theorem preparedRecord_revision :
    (preparedRecord runtime record).revision = record.revision := by
  simp only [preparedRecord, enforceQueueResultEvidence]
  split_ifs <;> rfl

theorem persist_status
    (notTerminal : ownerTerminal (preparedRecord runtime record).status = false)
    (found : db.job row.jobId = some row)
    (found' : (queueStep runtime db
      (.persist bridgeInstanceId record capacityAvailable now)).job row.jobId = some row')
    (changed : row'.status ≠ row.status) :
    row'.status = record.status ∧ row.jobId = record.jobId ∧
      row.ownerGeneration = record.ownerGeneration ∧ row.status.terminal = false ∧
      (row.revision = record.revision ∨ row.recordJson.revision ≤ record.revision) := by
  have hsame (h : db.job row.jobId = some row') : False := by
    rw [found, Option.some.injEq] at h
    exact changed (congrArg QueueRow.status h.symm)
  simp only [queueStep, persistQueueRecord, notTerminal, Bool.false_eq_true, if_false] at found'
  split at found'
  next hnone =>
    simp only [insertQueueRecord] at found'
    split at found'
    · split at found' <;> exact (hsame found').elim
    · split at found'
      · have hkept : (lookup QueueRow.jobId row.jobId (db.jobs ++
            [insertedRow runtime (preparedRecord runtime record)])) = some row := by
          rw [lookup, List.find?_append, show db.jobs.find? _ = some row from found]
          rfl
        exact (hsame (found.trans (hkept.symm.trans found'))).elim
      · exact (hsame found').elim
  next current hcurrent =>
    simp only [updateQueueRecord] at found'
    split at found'
    · exact (hsame found').elim
    next hrefused =>
      simp only [Bool.or_eq_true, Bool.not_eq_true', decide_eq_true_eq, not_or] at hrefused
      obtain ⟨⟨hstatus, hsameOwner⟩, hrevision⟩ := hrefused
      have hexec : lookup QueueRow.jobId row.jobId ((rewriteOwned runtime db bridgeInstanceId
          current (preparedRecord runtime record).ownerGeneration (nextRecord current
            (rebasedRecord bridgeInstanceId current (preparedRecord runtime record)))
          now).exec db.jobs) = some row' := by
        split at found' <;> exact found'
      rw [lookup_exec (fun _ => rfl), show lookup QueueRow.jobId row.jobId db.jobs = some row
        from found, map_some, Option.some.injEq] at hexec
      split_ifs at hexec with hguard
      · simp only [rewriteOwned, ownedAt, Bool.and_eq_true, decide_eq_true_eq] at hguard
        have hjob : row.jobId = record.jobId := by
          rw [hguard.1.1.1.1.1.1.1.1]
          simp only [nextRecord, rebasedRecord]
          split_ifs <;> exact preparedRecord_jobId
        have hcurrent' : current = row := by
          rw [preparedRecord_jobId, ← hjob, found] at hcurrent
          exact (Option.some.inj hcurrent).symm
        subst hcurrent'
        refine ⟨?_, hjob, ?_, by simpa using hstatus, ?_⟩
        · rw [← hexec, ← preparedRecord_status_of_notTerminal notTerminal]
          simp only [nextRecord, rebasedRecord]
          split_ifs <;> rfl
        · simpa using hguard.1.1.1.1.1.1.2
        · simp only [rebasedRecord] at hrevision
          split_ifs at hrevision with hadvance
          · simp only [heartbeatOnlyQueueAdvance, Bool.and_eq_true, decide_eq_true_eq,
              preparedRecord_revision] at hadvance
            exact .inr hadvance.1.2
          · rw [preparedRecord_revision] at hrevision
            exact .inl (by omega)
      · exact (changed (congrArg QueueRow.status hexec.symm)).elim

theorem queueStep_new {event : QueueEvent} (unique : UniqueJobs db)
    (hrow' : row' ∈ (queueStep runtime db event).jobs) (fresh : db.job row'.jobId = none) :
    ∃ bridgeInstanceId record capacityAvailable now,
      event = .persist bridgeInstanceId record capacityAvailable now ∧
      ownerTerminal (preparedRecord runtime record).status = false ∧
      row' = insertedRow runtime (preparedRecord runtime record) := by
  have hold {row : QueueRow} (hrow : row ∈ db.jobs) (hid : row.jobId = row'.jobId) : False := by
    rw [← hid, unique.job_eq hrow] at fresh
    cases fresh
  rcases Evolves.origin (queueStep_writtenBy runtime unique event) hrow' with
    ⟨row, hrow, hwrites⟩ | ⟨new, hnew, hwrites⟩
  · exact (hold hrow hwrites.jobId.symm).elim
  · cases hnew with
    | inserted notTerminal =>
      refine ⟨_, _, _, _, rfl, notTerminal, ?_⟩
      have hsame : row' ∉ db.jobs := fun hmem => hold hmem rfl
      simp only [queueStep, persistQueueRecord, notTerminal, Bool.false_eq_true, if_false]
        at hrow'
      split at hrow'
      · simp only [insertQueueRecord] at hrow'
        split at hrow'
        · split at hrow' <;> exact (hsame hrow').elim
        · split at hrow'
          · rcases List.mem_append.mp hrow' with hmem | hmem
            · exact (hsame hmem).elim
            · exact List.mem_singleton.mp hmem
          · exact (hsame hrow').elim
      next current hcurrent =>
        simp only [updateQueueRecord] at hrow'
        split at hrow'
        · exact (hsame hrow').elim
        · split at hrow'
          all_goals
            obtain ⟨row, hrow, hset⟩ := List.mem_map.mp hrow'
            refine (hold hrow ?_).elim
            rw [← hset]
            split_ifs <;> rfl

end

/-! ### Versions -/

section

variable {db : QueueDb} {event : QueueEvent} {version row row' : QueueRow}

/-- The row is past a version of it that ran under the same generation. -/
structure MovedPast (version row : QueueRow) : Prop where
  revision : version.revision ≤ row.revision
  summary : row.status.preExecution = true → version.revision < row.recordJson.revision

/-- The summary of a job that has not started is not ahead of its row. -/
def SummaryBehind (row : QueueRow) : Prop :=
  row.status.preExecution = true → row.recordJson.revision ≤ row.revision

theorem MovedPast.self (active : row.status.active = true) : MovedPast row row := by
  refine ⟨le_rfl, fun hunstarted => ?_⟩
  cases hstatus : row.status <;> simp_all [QueueStatus.active, QueueStatus.preExecution]

theorem QueueWrites.movedPast (h : QueueWrites runtime db event row row')
    (ordinary : event.ordinary = true) (moved : MovedPast version row) :
    MovedPast version row' := by
  induction h with
  | refl => exact moved
  | tail _ hwrite ih =>
    have hrevision := hwrite.revision
    have hbefore := ih.revision
    refine ⟨by omega, fun hunstarted => ?_⟩
    rcases hwrite.summaryRevision ordinary hunstarted with ⟨hpre, hsame⟩ | hnext
    · rw [hsame]
      exact ih.summary hpre
    · omega

theorem QueueWrites.summaryBehind (h : QueueWrites runtime db event row row')
    (ordinary : event.ordinary = true) (behind : SummaryBehind row) : SummaryBehind row' := by
  induction h with
  | refl => exact behind
  | tail _ hwrite ih =>
    intro hunstarted
    have hrevision := hwrite.revision
    rcases hwrite.summaryRevision ordinary hunstarted with ⟨hpre, hsame⟩ | hnext
    · have hbehind := ih hpre
      omega
    · omega

/-- Outside a persist, a job starts only by a claim that its pipeline allows. -/
theorem QueueWrites.starts (h : QueueWrites runtime db event row row')
    (ordinary : event.ordinary = true)
    (other : ∀ bridgeInstanceId record capacityAvailable now,
      event = .persist bridgeInstanceId record capacityAvailable now →
        ownerTerminal (preparedRecord runtime record).status = true)
    (running : row'.status.active = true) :
    row'.status = row.status ∨
      (row'.status = .running ∧ parentAllowsClaim (db.parent row.jobId) = true) := by
  induction h with
  | refl => exact .inl rfl
  | @tail middle last hwrites hwrite ih =>
    rcases hwrite.starts ordinary running with hsame | hclaimed |
      ⟨_, _, _, _, hevent, hpersist⟩
    · rw [hsame] at running ⊢
      exact ih running
    · rw [QueueWrites.jobId hwrites] at hclaimed
      exact .inr hclaimed
    · rw [other _ _ _ _ hevent] at hpersist
      cases hpersist

end

/-! ### The invariant -/

structure PipelineInvariant (s : PipelineState) : Prop where
  fence : FenceInvariant s.fenced
  linked : ChildrenLinked s.db
  parents : s.keepsParents s.db.pipelines = true
  behind : ∀ row ∈ s.db.jobs, SummaryBehind row
  running : ∀ row ∈ s.db.jobs, row.status.active = true → row.status = .running
  /-- A version that ran under the generation the row still has is behind the row. -/
  versions : ∀ version ∈ s.versions, version.status.active = true →
    version.status = .running ∧ s.fenced.past version.ownerGeneration ∧
      ∃ row, s.db.job version.jobId = some row ∧
        (row.ownerGeneration = version.ownerGeneration → MovedPast version row)

theorem pipelineInvariant_initial : PipelineInvariant .initial where
  fence := fenceInvariant_initial
  linked := by simp [ChildrenLinked, PipelineState.db, PipelineState.initial,
    FencedState.initial, QueueDb.empty]
  parents := rfl
  behind := by simp [PipelineState.db, PipelineState.initial, FencedState.initial, QueueDb.empty]
  running := by simp [PipelineState.db, PipelineState.initial, FencedState.initial, QueueDb.empty]
  versions := by simp [PipelineState.initial]

/-- What a later state of the queue has to do for the invariant to hold of it. -/
structure Advances (s : PipelineState) (fenced : FencedState) : Prop where
  fence : FenceInvariant fenced
  linked : ChildrenLinked fenced.db
  parents : (s.record fenced).keepsParents fenced.db.pipelines = true
  past : ∀ generation, s.fenced.past generation → fenced.past generation
  rows : ∀ row ∈ fenced.db.jobs,
    SummaryBehind row ∧ (row.status.active = true → row.status = .running)
  kept : ∀ jobId row, s.db.job jobId = some row →
    ∃ row', fenced.db.job jobId = some row' ∧
      (∀ version, MovedPast version row → MovedPast version row') ∧
      ∀ generation, s.fenced.past generation → row.ownerGeneration ≠ generation →
        row'.ownerGeneration ≠ generation

variable {s : PipelineState}

theorem PipelineInvariant.advance {fenced : FencedState} (h : PipelineInvariant s)
    (advances : Advances s fenced) : PipelineInvariant (s.record fenced) := by
  refine ⟨advances.fence, advances.linked, advances.parents,
    fun row hrow => (advances.rows row hrow).1, fun row hrow => (advances.rows row hrow).2, ?_⟩
  intro version hversion hactive
  rcases List.mem_append.mp hversion with hold | hnew
  · obtain ⟨hrunning, hpast, row, hrow, hmoved⟩ := h.versions version hold hactive
    obtain ⟨row', hrow', hkept, haway⟩ := advances.kept _ row hrow
    refine ⟨hrunning, advances.past _ hpast, row', hrow', fun hsame => hkept version ?_⟩
    apply hmoved
    by_contra hne
    exact haway _ hpast hne hsame
  · refine ⟨(advances.rows version hnew).2 hactive,
      FencedState.past_of_known (advances.fence.rows version hnew), version,
      advances.fence.unique.job_eq hnew, fun _ => .self hactive⟩

theorem PipelineInvariant.advance_of_jobs {fenced : FencedState} (h : PipelineInvariant s)
    (fence : FenceInvariant fenced)
    (past : ∀ generation, s.fenced.past generation → fenced.past generation)
    (jobs : fenced.db.jobs = s.db.jobs) (children : fenced.db.children = s.db.children)
    (parents : s.keepsParents fenced.db.pipelines = true) :
    PipelineInvariant (s.record fenced) := by
  have hjob (jobId : String) : fenced.db.job jobId = s.db.job jobId := by
    rw [QueueDb.job, QueueDb.job, jobs]
  refine h.advance ⟨fence, ?_, ?_, past, ?_, ?_⟩
  · intro relation hrelation
    rw [hjob]
    exact h.linked relation (children ▸ hrelation)
  · rw [← parents]
    show (fenced.db.children.all _) = (s.db.children.all _)
    rw [children]
  · intro row hrow
    rw [jobs] at hrow
    exact ⟨h.behind row hrow, h.running row hrow⟩
  · intro jobId row hrow
    refine ⟨row, ?_, fun _ hmoved => hmoved, fun _ _ hne => hne⟩
    rw [hjob]
    exact hrow

theorem couldHold_spec {record : QueueRecord} (holds : s.couldHold record = true)
    (active : record.status.active = true) :
    ∃ version ∈ s.versions, version.jobId = record.jobId ∧
      version.ownerGeneration = record.ownerGeneration ∧ version.status = record.status ∧
      record.revision ≤ version.revision := by
  simp only [PipelineState.couldHold, active, Bool.not_true, Bool.false_or, List.any_eq_true,
    Bool.and_eq_true, decide_eq_true_eq] at holds
  obtain ⟨version, hversion, ⟨⟨hjob, hgeneration⟩, hstatus⟩, hrevision⟩ := holds
  exact ⟨version, hversion, hjob, hgeneration, hstatus, hrevision⟩

theorem PipelineInvariant.starts (h : PipelineInvariant s) {event : QueueEvent}
    (possible : s.possible event = true) {jobId : String} {row row' : QueueRow}
    (found : s.db.job jobId = some row)
    (found' : (queueStep runtime s.db event).job jobId = some row')
    (active : row'.status.active = true) :
    row'.status = row.status ∨
      (row'.status = .running ∧ parentAllowsClaim (s.db.parent jobId) = true) := by
  obtain ⟨hmem, rfl⟩ := lookup_some found
  unfold PipelineState.possible at possible
  rw [Bool.and_eq_true] at possible
  obtain ⟨hordinary, hholds⟩ := possible
  by_cases hpersist : ∃ bridgeInstanceId record capacityAvailable now,
      event = .persist bridgeInstanceId record capacityAvailable now ∧
        ownerTerminal (preparedRecord runtime record).status = false
  · obtain ⟨bridgeInstanceId, record, capacityAvailable, now, rfl, hnotTerminal⟩ := hpersist
    by_cases hchanged : row'.status = row.status
    · exact .inl hchanged
    · exfalso
      obtain ⟨hstatus, hjob, hgeneration, hopen, hrevision⟩ :=
        persist_status hnotTerminal found found' hchanged
      rw [hstatus] at active hchanged
      obtain ⟨version, hversion, hjob', hgeneration', hsame, hbehind⟩ :=
        couldHold_spec hholds active
      obtain ⟨hrunning, -, current, hcurrent, hmoved⟩ :=
        h.versions version hversion (hsame ▸ active)
      rw [hjob', ← hjob, found, Option.some.injEq] at hcurrent
      subst hcurrent
      have hpast := hmoved (hgeneration.trans hgeneration'.symm)
      rcases QueueStatus.preExecution_or_active hopen with hunstarted | hactive
      · have hsummary := hpast.summary hunstarted
        have hrow := h.behind row hmem hunstarted
        omega
      · have hrow := h.running row hmem hactive
        rw [← hsame, hrunning, hrow] at hchanged
        exact hchanged rfl
  · obtain ⟨later, hlater, hwrites⟩ := queueStep_job runtime h.fence.unique event found
    obtain rfl : later = row' := Option.some.inj (hlater.symm.trans found')
    refine hwrites.starts hordinary ?_ active
    intro bridgeInstanceId record capacityAvailable now hevent
    by_contra hnotTerminal
    exact hpersist ⟨_, _, _, _, hevent, by simpa using hnotTerminal⟩

/-! ### The steps -/

theorem parents_of_ids {db db' : QueueDb} (children : db'.children = db.children)
    (pipelines : db'.pipelines.map PipelineRow.pipelineId
      = db.pipelines.map PipelineRow.pipelineId)
    (parents : ∀ relation ∈ db.children, relation.pipelineId ∈
      db.pipelines.map PipelineRow.pipelineId) :
    ∀ relation ∈ db'.children, relation.pipelineId ∈
      db'.pipelines.map PipelineRow.pipelineId := by
  intro relation hrelation
  rw [pipelines]
  exact parents relation (children ▸ hrelation)

theorem keepsParents_iff {pipelines : List PipelineRow} :
    s.keepsParents pipelines = true ↔ ∀ relation ∈ s.db.children,
      relation.pipelineId ∈ pipelines.map PipelineRow.pipelineId := by
  simp [PipelineState.keepsParents]

theorem PipelineInvariant.queue (h : PipelineInvariant s) {event : QueueEvent}
    (possible : s.possible event = true) :
    PipelineInvariant (s.record (fencedStep runtime s.fenced (.queue event))) := by
  have hordinary : event.ordinary = true := by
    exact (Bool.and_eq_true _ _ ▸ possible).1
  have hfence := fenceInvariant_step runtime s.fenced (.queue event) h.fence
  have hunique : UniqueJobs s.db := h.fence.unique
  by_cases hallowed : s.fenced.possible event = true
  · have hstep : (fencedStep runtime s.fenced (.queue event)).db
        = queueStep runtime s.db event := by
      simp only [fencedStep, hallowed, if_true]
      rfl
    have hpropagates : PropagationStep s.db (queueStep runtime s.db event) :=
      queueStep_propagates h.fence.unique h.linked hordinary
    refine h.advance ⟨hfence, ?linked, ?parents, fun generation hpast =>
      FencedState.past_step runtime hpast _, ?rows, ?kept⟩
    case linked =>
      rw [hstep]
      intro relation hrelation
      rw [hpropagates.children] at hrelation
      obtain ⟨row, hrow⟩ := isSome_iff_exists.mp (h.linked relation hrelation)
      obtain ⟨row', hrow', -⟩ := queueStep_job runtime hunique event hrow
      rw [hrow']
      rfl
    case parents =>
      apply keepsParents_iff.mpr
      show ∀ relation ∈ (fencedStep runtime s.fenced (.queue event)).db.children, _
      rw [hstep]
      exact parents_of_ids hpropagates.children hpropagates.pipelines
        (keepsParents_iff.mp h.parents)
    case rows =>
      rw [hstep]
      intro row' hrow'
      rcases hlater : s.db.job row'.jobId with _ | row
      · obtain ⟨_, record, _, _, rfl, hnotTerminal, hinserted⟩ :=
          queueStep_new hunique hrow' hlater
        subst hinserted
        refine ⟨fun _ => le_rfl, fun hactive => ?_⟩
        change (preparedRecord runtime record).status.active = true at hactive
        rw [preparedRecord_status_of_notTerminal hnotTerminal] at hactive
        unfold PipelineState.possible at possible
        rw [Bool.and_eq_true] at possible
        obtain ⟨version, hversion, hjob, -, hstatus, -⟩ := couldHold_spec possible.2 hactive
        obtain ⟨-, -, row, hrow, -⟩ := h.versions version hversion (hstatus ▸ hactive)
        have hfresh : s.db.job record.jobId = none := by
          rw [← hlater]
          exact congrArg s.db.job preparedRecord_jobId.symm
        rw [hjob, hfresh] at hrow
        cases hrow
      · obtain ⟨hmem, -⟩ := lookup_some hlater
        have hfound := (uniqueJobs_step s.db event hunique).job_eq hrow'
        refine ⟨?_, fun hactive => ?_⟩
        · obtain ⟨later, hfound', hwrites⟩ :=
            queueStep_job runtime hunique event hlater
          obtain rfl : later = row' := Option.some.inj (hfound'.symm.trans hfound)
          exact hwrites.summaryBehind hordinary (h.behind row hmem)
        · rcases h.starts possible hlater hfound hactive with hsame | hclaimed
          · rw [hsame] at hactive ⊢
            exact h.running row hmem hactive
          · exact hclaimed.1
    case kept =>
      rw [hstep]
      intro jobId row hrow
      obtain ⟨row', hrow', hwrites⟩ := queueStep_job runtime hunique event hrow
      exact ⟨row', hrow', fun version hmoved => hwrites.movedPast hordinary hmoved,
        fun generation hpast hne => hwrites.generation_ne hallowed hpast hne⟩
  · have hstep : fencedStep runtime s.fenced (.queue event) = s.fenced := if_neg hallowed
    rw [hstep]
    exact h.advance_of_jobs h.fence (fun _ hpast => hpast) rfl rfl h.parents

/-- What an activation that goes through does: new jobs, none of them running, and their
relations to a pipeline that had none. -/
structure Activates (runtime : QueueRuntime) (db db' : QueueDb) (batch : PipelineActivation) :
    Prop where
  jobs : db'.jobs = db.jobs ++ batch.preparedRecords.map fun child =>
    releasedChild runtime child batch.commitAt batch.commitLeaseExpiresAt
  children : db'.children = db.children ++ batch.preparedRecords.map fun child =>
    ⟨batch.pipelineId, child.jobId⟩
  pipelines : db'.pipelines.map PipelineRow.pipelineId = db.pipelines.map PipelineRow.pipelineId
  planned : batch.pipelineId ∈ db.pipelines.map PipelineRow.pipelineId
  fresh : ∀ child ∈ batch.preparedRecords, db.job child.jobId = none
  distinct : (batch.preparedRecords.map QueueRecord.jobId).Nodup
  unrelated : ∀ relation ∈ db.children, relation.pipelineId ≠ batch.pipelineId

theorem activatePipelineBatch_cases (runtime : QueueRuntime) (db : QueueDb)
    (batch : PipelineActivation) :
    (activatePipelineBatch runtime db batch).2 = db ∨
      Activates runtime db (activatePipelineBatch runtime db batch).2 batch := by
  simp only [activatePipelineBatch]
  split
  · exact .inl rfl
  next hvalid =>
    split
    · exact .inl rfl
    next authoritative hfound =>
      split
      next hguard =>
        right
        simp only [Bool.or_eq_true, Bool.not_eq_true', not_or, Bool.not_eq_false, batchValid,
          Bool.and_eq_true, decide_eq_true_eq] at hvalid
        simp only [Bool.and_eq_true, childrenInsertable, List.all_eq_true, decide_eq_true_eq]
          at hguard
        refine ⟨rfl, rfl, ?_, ?_, ?_, hvalid.1.2, hguard.1.2⟩
        · rw [List.map_map]
          apply List.map_congr_left
          intro pipeline _
          show (if _ then _ else pipeline).pipelineId = pipeline.pipelineId
          split_ifs <;> rfl
        · have hid := List.find?_some hfound
          rw [decide_eq_true_eq] at hid
          exact hid ▸ List.mem_map_of_mem (List.mem_of_find?_eq_some hfound)
        · intro child hchild
          have hnone := (hguard.2.1 child hchild).1.1
          exact isNone_iff_eq_none.mp hnone
      · exact .inl rfl

variable {pipelineId : String}

section

variable {db db' : QueueDb} {batch : PipelineActivation}

/-- The rows of before are found as before. -/
theorem Activates.job (h : Activates runtime db db' batch) {jobId : String}
    {row : QueueRow} (found : db.job jobId = some row) : db'.job jobId = some row := by
  have hfind : db.jobs.find? (fun row => row.jobId = jobId) = some row := found
  rw [QueueDb.job, lookup, h.jobs, List.find?_append, hfind]
  rfl

theorem Activates.unique (h : Activates runtime db db' batch)
    (unique : UniqueJobs db) : UniqueJobs db' := by
  rw [UniqueJobs, h.jobs, List.map_append, List.nodup_append]
  have hids : (batch.preparedRecords.map fun child => releasedChild runtime child batch.commitAt
      batch.commitLeaseExpiresAt).map QueueRow.jobId
        = batch.preparedRecords.map QueueRecord.jobId := by
    rw [List.map_map]
    rfl
  rw [hids]
  refine ⟨unique, h.distinct, ?_⟩
  intro first hfirst second hsecond heq
  obtain ⟨row, hrow, rfl⟩ := List.mem_map.mp hfirst
  obtain ⟨child, hchild, rfl⟩ := List.mem_map.mp hsecond
  have hnone := h.fresh child hchild
  rw [← heq, unique.job_eq hrow] at hnone
  cases hnone

/-- Every new relation has its job. -/
theorem Activates.linked (h : Activates runtime db db' batch)
    (unique : UniqueJobs db) (linked : ChildrenLinked db) : ChildrenLinked db' := by
  intro relation hrelation
  rw [h.children] at hrelation
  rcases List.mem_append.mp hrelation with hold | hnew
  · obtain ⟨row, hrow⟩ := isSome_iff_exists.mp (linked relation hold)
    rw [h.job hrow]
    rfl
  · obtain ⟨child, hchild, rfl⟩ := List.mem_map.mp hnew
    have hmem : releasedChild runtime child batch.commitAt batch.commitLeaseExpiresAt
        ∈ db'.jobs := by
      rw [h.jobs]
      exact List.mem_append_right _ (List.mem_map_of_mem hchild)
    have hfound := (h.unique unique).job_eq hmem
    rw [show db'.job child.jobId = some _ from hfound]
    rfl

theorem Activates.childrenEnded (h : Activates runtime db db' batch) (linked : ChildrenLinked db)
    (closed : ClosedByChild db pipelineId) : ClosedByChild db' pipelineId := by
  obtain ⟨hended, relation, hrelation, hid⟩ := closed
  refine ⟨?_, relation, ?_, hid⟩
  · intro row hrow hchild
    have hother : batch.pipelineId ≠ pipelineId := fun heq =>
      h.unrelated relation hrelation (hid.trans heq.symm)
    have hchild' : isChildOf db pipelineId row.jobId = true := by
      simpa [isChildOf, h.children, hother] using hchild
    rw [h.jobs] at hrow
    rcases List.mem_append.mp hrow with hold | hnew
    · exact hended row hold hchild'
    · obtain ⟨child, hmem, rfl⟩ := List.mem_map.mp hnew
      obtain ⟨other, hother', hjob⟩ := List.any_eq_true.mp hchild'
      rw [Bool.and_eq_true, decide_eq_true_eq, decide_eq_true_eq] at hjob
      have hlinked := linked other hother'
      rw [hjob.2] at hlinked
      have hnone := h.fresh child hmem
      rw [show db.job (releasedChild runtime child batch.commitAt
        batch.commitLeaseExpiresAt).jobId = none from hnone] at hlinked
      cases hlinked
  · rw [h.children]
    exact List.mem_append_left _ hrelation

end

theorem PipelineInvariant.activate (h : PipelineInvariant s) {batch : PipelineActivation}
    (known : s.childrenKnown batch = true) :
    PipelineInvariant
      (s.record { s.fenced with db := (activatePipelineBatch runtime s.db batch).2 }) := by
  have hunique : UniqueJobs s.db := h.fence.unique
  rcases activatePipelineBatch_cases runtime s.db batch with hsame | hactivates
  · rw [hsame]
    exact h.advance_of_jobs h.fence (fun _ hpast => hpast) rfl rfl h.parents
  · have hrows : ∀ row ∈ (activatePipelineBatch runtime s.db batch).2.jobs,
        row ∈ s.db.jobs ∨ ∃ child ∈ batch.preparedRecords,
          row = releasedChild runtime child batch.commitAt batch.commitLeaseExpiresAt := by
      intro row hrow
      rw [hactivates.jobs] at hrow
      rcases List.mem_append.mp hrow with hold | hnew
      · exact .inl hold
      · obtain ⟨child, hchild, rfl⟩ := List.mem_map.mp hnew
        exact .inr ⟨child, hchild, rfl⟩
    refine h.advance ⟨⟨hactivates.unique hunique, h.fence.bound, h.fence.drawn, ?owned,
      h.fence.claims⟩, hactivates.linked hunique h.linked, ?parents, fun _ hpast => hpast,
      ?rows, ?kept⟩
    case owned =>
      intro row hrow
      rcases hrows row hrow with hold | ⟨child, hchild, rfl⟩
      · exact h.fence.rows row hold
      · exact List.all_eq_true.mp known child hchild
    case parents =>
      apply keepsParents_iff.mpr
      intro relation hrelation
      rw [show (activatePipelineBatch runtime s.db batch).2.pipelines.map
        PipelineRow.pipelineId = _ from hactivates.pipelines]
      have hmem : relation ∈ (activatePipelineBatch runtime s.db batch).2.children := hrelation
      rw [hactivates.children] at hmem
      rcases List.mem_append.mp hmem with hold | hnew
      · exact keepsParents_iff.mp h.parents relation hold
      · obtain ⟨child, -, rfl⟩ := List.mem_map.mp hnew
        exact hactivates.planned
    case rows =>
      intro row hrow
      rcases hrows row hrow with hold | ⟨child, hchild, rfl⟩
      · exact ⟨h.behind row hold, h.running row hold⟩
      · exact ⟨fun _ => le_rfl, fun hactive => by cases hactive⟩
    case kept =>
      intro jobId row hrow
      exact ⟨row, hactivates.job hrow, fun _ hmoved => hmoved, fun _ _ hne => hne⟩

theorem pipelineInvariant_step (runtime : QueueRuntime) (s : PipelineState)
    (event : PipelineEvent) (h : PipelineInvariant s) :
    PipelineInvariant (pipelineStep runtime s event) := by
  have henvironment (instances : List BridgeInstance) (pipelines : List PipelineRow)
      (parents : s.keepsParents pipelines = true) :
      PipelineInvariant (s.record (fencedStep runtime s.fenced
        (.queue (.environment instances pipelines s.db.children)))) :=
    h.advance_of_jobs (fenceInvariant_step runtime s.fenced _ h.fence)
      (fun _ hpast => FencedState.past_step runtime hpast _) rfl rfl parents
  cases event with
  | draw bridgeInstanceId generation =>
    have hdb : (fencedStep runtime s.fenced (.draw bridgeInstanceId generation)).db = s.db := by
      simp only [fencedStep]
      split <;> rfl
    refine h.advance_of_jobs (fenceInvariant_step runtime s.fenced _ h.fence)
      (fun _ hpast => FencedState.past_step runtime hpast _) ?_ ?_ ?_
    · rw [hdb]
    · rw [hdb]
    · rw [hdb]
      exact h.parents
  | queue event =>
    simp only [pipelineStep]
    split
    next hpossible => exact h.queue hpossible
    · exact h
  | instances instances => exact henvironment instances s.db.pipelines h.parents
  | pipelines pipelines =>
    simp only [pipelineStep]
    split
    next hparents => exact henvironment s.db.instances pipelines hparents
    · exact h
  | activate batch =>
    simp only [pipelineStep]
    split
    next hknown => exact h.activate hknown
    · exact h

theorem pipelineInvariant_run (runtime : QueueRuntime) (events : List PipelineEvent) :
    PipelineInvariant (run (pipelineStep runtime) .initial events) :=
  run_preserves (pipelineInvariant_step runtime) pipelineInvariant_initial events

/-! ### The claims of children -/

theorem PipelineInvariant.child_starts (h : PipelineInvariant s) {event : PipelineEvent}
    {relation : PipelineChild} {row row' : QueueRow} (child : relation ∈ s.db.children)
    (found : s.db.job relation.jobId = some row)
    (found' : (pipelineStep runtime s event).db.job relation.jobId = some row')
    (before : row.status ≠ .running) (after : row'.status = .running) :
    ∃ parent, s.db.parent relation.jobId = some parent ∧ parent.status = .running ∧
      parent.batchState = .released := by
  have hsame (kept : s.db.job relation.jobId = some row') : False := by
    rw [found, Option.some.injEq] at kept
    exact before (kept ▸ after)
  have hallowed (allowed : parentAllowsClaim (s.db.parent relation.jobId) = true) :
      ∃ parent, s.db.parent relation.jobId = some parent ∧ parent.status = .running ∧
        parent.batchState = .released := by
    obtain ⟨first, hfirst⟩ : ∃ first, s.db.children.find?
        (fun other => other.jobId = relation.jobId) = some first := by
      apply isSome_iff_exists.mp
      rw [List.find?_isSome]
      exact ⟨relation, child, by simp⟩
    have hparent := keepsParents_iff.mp h.parents first (List.mem_of_find?_eq_some hfirst)
    obtain ⟨pipeline, hpipeline, hid⟩ := List.mem_map.mp hparent
    obtain ⟨parent, hfound⟩ : ∃ parent, s.db.parent relation.jobId = some parent := by
      apply isSome_iff_exists.mp
      rw [QueueDb.parent, hfirst, bind_some, List.find?_isSome]
      exact ⟨pipeline, hpipeline, by simp [hid]⟩
    rw [hfound, parentAllowsClaim, Bool.and_eq_true, decide_eq_true_eq, decide_eq_true_eq]
      at allowed
    exact ⟨parent, hfound, allowed⟩
  cases event with
  | draw bridgeInstanceId generation =>
    refine (hsame ?_).elim
    simp only [pipelineStep, fencedStep] at found'
    split at found' <;> exact found'
  | queue event =>
    simp only [pipelineStep] at found'
    split at found'
    next hpossible =>
      by_cases hfenced : s.fenced.possible event = true
      · simp only [PipelineState.record, PipelineState.db, fencedStep, hfenced, if_true]
          at found'
        rcases h.starts hpossible found found' (after ▸ rfl) with hstatus | ⟨-, hallows⟩
        · exact (before (hstatus ▸ after)).elim
        · exact hallowed hallows
      · simp only [PipelineState.record, PipelineState.db, fencedStep, if_neg hfenced]
          at found'
        exact (hsame found').elim
    · exact (hsame found').elim
  | instances => exact (hsame found').elim
  | pipelines =>
    simp only [pipelineStep] at found'
    split at found' <;> exact (hsame found').elim
  | activate batch =>
    refine (hsame ?_).elim
    simp only [pipelineStep] at found'
    split at found'
    · rcases activatePipelineBatch_cases runtime s.db batch with hdb | hactivates
      · change (activatePipelineBatch runtime s.db batch).2.job _ = _ at found'
        rwa [hdb] at found'
      · have hkept := hactivates.job found
        change (activatePipelineBatch runtime s.db batch).2.job _ = _ at found'
        rw [found', Option.some.injEq] at hkept
        rw [found, hkept]
    · exact found'

theorem PipelineInvariant.closedByChild_step (runtime : QueueRuntime) (h : PipelineInvariant s)
    (closed : ClosedByChild s.db pipelineId) (event : PipelineEvent) :
    ClosedByChild (pipelineStep runtime s event).db pipelineId := by
  cases event with
  | draw bridgeInstanceId generation =>
    simp only [pipelineStep, fencedStep]
    split <;> exact closed
  | queue event =>
    simp only [pipelineStep]
    split
    next hpossible =>
      unfold PipelineState.possible at hpossible
      rw [Bool.and_eq_true] at hpossible
      have hpropagates : PropagationStep s.db (queueStep runtime s.db event) :=
        queueStep_propagates h.fence.unique h.linked hpossible.1
      simp only [fencedStep]
      split
      · refine ⟨hpropagates.ended pipelineId closed.ended, ?_⟩
        obtain ⟨relation, hrelation, hid⟩ := closed.child
        exact ⟨relation, hpropagates.children ▸ hrelation, hid⟩
      · exact closed
    · exact closed
  | instances => exact ⟨closed.ended, closed.child⟩
  | pipelines =>
    simp only [pipelineStep]
    split
    · exact ⟨closed.ended, closed.child⟩
    · exact closed
  | activate batch =>
    simp only [pipelineStep]
    split
    · rcases activatePipelineBatch_cases runtime s.db batch with hdb | hactivates
      · show ClosedByChild (activatePipelineBatch runtime s.db batch).2 pipelineId
        rw [hdb]
        exact closed
      · exact hactivates.childrenEnded h.linked closed
    · exact closed

theorem PipelineInvariant.closedByChild_of_queue (h : PipelineInvariant s) {event : QueueEvent}
    (changed : pipelineStatus (pipelineStep runtime s (.queue event)).db pipelineId
      ≠ pipelineStatus s.db pipelineId) :
    ClosedByChild (pipelineStep runtime s (.queue event)).db pipelineId := by
  simp only [pipelineStep] at changed ⊢
  split at changed
  next hpossible =>
    rw [if_pos hpossible]
    unfold PipelineState.possible at hpossible
    rw [Bool.and_eq_true] at hpossible
    have hpropagates : PropagationStep s.db (queueStep runtime s.db event) :=
      queueStep_propagates h.fence.unique h.linked hpossible.1
    simp only [fencedStep] at changed ⊢
    split at changed
    next hfenced =>
      rw [if_pos hfenced]
      exact hpropagates.closed pipelineId changed
    · exact absurd rfl changed
  · exact absurd rfl changed

/-- In every run a child is started only by a step that finds its pipeline running and
released, and once a step of the queue, which is how the end of a child propagates, has
given a pipeline another status, every child of it has ended or been asked to, in that
state and in every later one. -/
theorem pipeline_child_claim_safety (runtime : QueueRuntime) :
    (∀ (events : List PipelineEvent) (event : PipelineEvent) (relation : PipelineChild)
        (row row' : QueueRow),
      relation ∈ (run (pipelineStep runtime) .initial events).db.children →
      (run (pipelineStep runtime) .initial events).db.job relation.jobId = some row →
      (run (pipelineStep runtime) .initial (events ++ [event])).db.job relation.jobId
        = some row' →
      row.status ≠ .running → row'.status = .running →
      ∃ parent, (run (pipelineStep runtime) .initial events).db.parent relation.jobId
        = some parent ∧ parent.status = .running ∧ parent.batchState = .released) ∧
    ∀ (before after : List PipelineEvent) (event : QueueEvent) (pipelineId : String),
      pipelineStatus (run (pipelineStep runtime) .initial (before ++ [.queue event])).db pipelineId
        ≠ pipelineStatus (run (pipelineStep runtime) .initial before).db pipelineId →
      ChildrenEnded (run (pipelineStep runtime) .initial (before ++ [.queue event] ++ after)).db
        pipelineId := by
  refine ⟨?starts, ?closed⟩
  case starts =>
    intro events event relation row row' hchild hfound hfound' hbefore hafter
    rw [run_append, run_cons, run_nil] at hfound'
    exact (pipelineInvariant_run runtime events).child_starts hchild hfound hfound' hbefore hafter
  case closed =>
    intro before after event pipelineId hchanged
    rw [run_append, run_cons, run_nil] at hchanged
    have hinvariant := pipelineInvariant_run runtime before
    have hclosed := hinvariant.closedByChild_of_queue hchanged
    have hkept : ∀ (s : PipelineState) (next : PipelineEvent),
        PipelineInvariant s ∧ ClosedByChild s.db pipelineId →
        PipelineInvariant (pipelineStep runtime s next) ∧
          ClosedByChild (pipelineStep runtime s next).db pipelineId := fun s next h =>
      ⟨pipelineInvariant_step runtime s next h.1, h.1.closedByChild_step runtime h.2 next⟩
    rw [run_append, run_append, run_cons, run_nil]
    have hstep := pipelineInvariant_step runtime _ (.queue event) hinvariant
    exact (run_preserves hkept ⟨hstep, hclosed⟩ after).2.ended

/-- A pipeline with two children starts and its first child is claimed. -/
def startedPipeline : List PipelineEvent :=
  [.draw "bridge-1" "gen-1",
    .instances [⟨"bridge-1", 1000⟩],
    .pipelines [⟨"pipeline-1", .planned, .unstarted⟩],
    .activate ⟨"pipeline-1", "bridge-1",
      [enqueuedRecord "job-1" "bridge-1" "gen-1" 1 50,
        enqueuedRecord "job-2" "bridge-1" "gen-1" 1 50], true, true, 10, 60⟩]

def childClaim : QueueEvent :=
  .claim "bridge-1" 1 "gen-2"
    { enqueuedRecord "job-1" "bridge-1" "gen-1" 1 50 with revision := 1 } 20 70

def childFails : QueueEvent :=
  .persist "bridge-1"
    { enqueuedRecord "job-1" "bridge-1" "gen-1" 1 50 with
      revision := 2
      status := .failed
      resultEncrypted := some ⟨"", "", "failed"⟩ } true 30

def jobAfter (jobId : String) (events : List PipelineEvent) : Option QueueRow :=
  (run (pipelineStep plainRuntime) .initial events).db.job jobId

theorem pipeline_child_claim_safety_of_two_children :
    (∃ parent, (run (pipelineStep plainRuntime) .initial startedPipeline).db.parent "job-1"
      = some parent ∧ parent.status = .running ∧ parent.batchState = .released) ∧
    ChildrenEnded (run (pipelineStep plainRuntime) .initial
      (startedPipeline ++ [.queue childClaim] ++ [.queue childFails] ++
        [.instances [⟨"bridge-1", 2000⟩]])).db "pipeline-1" := by
  refine ⟨?starts, ?closed⟩
  case starts =>
    exact (pipeline_child_claim_safety plainRuntime).1 startedPipeline (.queue childClaim)
      ⟨"pipeline-1", "job-1"⟩ ((jobAfter "job-1" startedPipeline).get (by decide))
      ((jobAfter "job-1" (startedPipeline ++ [.queue childClaim])).get (by decide))
      (by decide) (by decide) (by decide) (by decide)
      (by decide)
  case closed =>
    have hchanged : pipelineStatus (run (pipelineStep plainRuntime) .initial
        (startedPipeline ++ [.queue childClaim] ++ [.queue childFails])).db "pipeline-1" ≠
        pipelineStatus (run (pipelineStep plainRuntime) .initial
          (startedPipeline ++ [.queue childClaim])).db "pipeline-1" := by decide
    exact (pipeline_child_claim_safety plainRuntime).2 _ _ _ _ hchanged

end AgentBridge.Queue
