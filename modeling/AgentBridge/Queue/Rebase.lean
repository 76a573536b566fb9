import AgentBridge.Queue.Enqueue

/-!
# The heartbeat-only rebase

An owner's write that was built on an older revision is replayed on the row as it is
now when the summary in the row is not newer than the record. Every writer that puts
the row's revision into the summary is thereby noticed. What is not noticed are the
renewals of a lease and the few writes that leave the summary's revision alone: the
marks and the ends that a pipeline causes, and the failure of a startup recovery. After
those the row is ended or marked, and the owner's write is refused or ends the job as
cancelled.
-/

namespace AgentBridge.Queue

open Systems Relation Bool

/-! ### Writes and the summary's revision -/

abbrev RowWrites : QueueRow → QueueRow → Prop := ReflTransGen RowWrite

variable {row row' base current : QueueRow}

theorem SilentWrite.spec (h : SilentWrite row row') :
    row'.revision = row.revision + 1 ∧ row'.recordJson.revision = row.recordJson.revision := by
  cases h with
  | renewed => exact ⟨rfl, rfl⟩
  | marked => exact ⟨rfl, rfl⟩
  | cancelled => exact ⟨rfl, rfl⟩
  | recoveryFailed _ _ revision summary => exact ⟨revision, summary⟩

theorem RowWrite.revision (h : RowWrite row row') : row'.revision = row.revision + 1 := by
  cases h with
  | inl silent => exact silent.spec.1
  | inr noted => exact noted.revision

/-- Either no write since `base` was noted in the summary, or the summary is past it. -/
theorem RowWrites.silent_or_noted (h : RowWrites base current) :
    base.revision ≤ current.revision ∧
      (ReflTransGen SilentWrite base current ∧
          current.recordJson.revision = base.recordJson.revision ∨
        base.revision < current.recordJson.revision) := by
  induction h with
  | refl => exact ⟨le_rfl, .inl ⟨.refl, rfl⟩⟩
  | tail _ hwrite ih =>
    obtain ⟨hle, hsummary⟩ := ih
    have hrevision := hwrite.revision
    refine ⟨by omega, ?_⟩
    cases hwrite with
    | inr noted =>
      have hnoted := noted.summary
      exact .inr (by omega)
    | inl silent =>
      have hsame := silent.spec.2
      cases hsummary with
      | inl hsilent => exact .inl ⟨hsilent.1.tail silent, hsame.trans hsilent.2⟩
      | inr hnoted => exact .inr (by omega)

/-- What the test accepts has only been written silently since the record's revision. -/
theorem silent_of_heartbeatOnly (h : RowWrites base current) {bridgeInstanceId : String}
    {record : QueueRecord} (same : record.revision = base.revision)
    (accepted : heartbeatOnlyQueueAdvance bridgeInstanceId current record = true) :
    ReflTransGen SilentWrite base current := by
  simp only [heartbeatOnlyQueueAdvance, and_eq_true, decide_eq_true_eq] at accepted
  cases h.silent_or_noted.2 with
  | inl hsilent => exact hsilent.1
  | inr hnoted => omega

/-- The rows differ in nothing but the lease, the heartbeat and the provider wait. -/
def OnlyLease (base current : QueueRow) : Prop :=
  ∃ heartbeatAt leaseExpiresAt waitInfo revision, current =
    { base with
      heartbeatAt := heartbeatAt
      leaseExpiresAt := leaseExpiresAt
      recordJson := { base.recordJson with providerWaitInfo := waitInfo }
      revision := revision }

theorem OnlyLease.refl (row : QueueRow) : OnlyLease row row :=
  ⟨row.heartbeatAt, row.leaseExpiresAt, row.recordJson.providerWaitInfo, row.revision, rfl⟩

/-- A row that is neither ended nor marked. -/
def Untouched (row : QueueRow) : Prop :=
  row.status.terminal = false ∧ row.cancellationRequestedAt = none

/-- Silent writes other than renewals end the row or mark it, and renewals keep that. -/
theorem onlyLease_of_silent (h : ReflTransGen SilentWrite base current)
    (untouched : Untouched current) : OnlyLease base current := by
  induction h with
  | refl => exact .refl base
  | @tail middle last _ hwrite ih =>
    cases hwrite with
    | renewed heartbeatAt leaseExpiresAt waitInfo =>
      obtain ⟨_, _, _, _, rfl⟩ := ih untouched
      exact ⟨heartbeatAt, leaseExpiresAt, waitInfo, _, rfl⟩
    | marked time =>
      have hmark : middle.cancellationRequestedAt.or (some time) = none := untouched.2
      simp at hmark
    | cancelled time =>
      have hended : QueueStatus.cancelled.terminal = false := untouched.1
      cases hended
    | recoveryFailed _ ended =>
      have hended := untouched.1
      rw [ended] at hended
      cases hended

/-! ### Runs -/

/-- A row that a failed startup recovery ends has been read from the table. -/
def ReadsRow (db : QueueDb) : EnqueueEvent → Prop
  | .queue (.startupFailure observed _ _) =>
    ∀ row ∈ db.jobs, row.jobId = observed.jobId → row.revision = observed.revision →
      row = observed
  | _ => True

section

variable {host : RetryHost} {db : QueueDb}

theorem queueStep_rowWrites (host : RetryHost) (unique : UniqueJobs db) (event : QueueEvent)
    (read : ReadsRow db (.queue event)) {jobId : String} (found : db.job jobId = some row) :
    ∃ row', (queueStep host.runtime db event).job jobId = some row' ∧ RowWrites row row' := by
  have hread : ReadsObserved db event := by
    cases event <;> exact read
  obtain ⟨row', hrow', hwrites⟩ := queueStep_tracked host.runtime unique event found
  exact ⟨row', hrow', ReflTransGen.mono (fun _ _ h => h.2 hread) _ _ hwrites⟩

/-- A row stays under its job id, rewritten by row writes. -/
theorem enqueueDb_job (unique : UniqueJobs db) (event : EnqueueEvent) (read : ReadsRow db event)
    {jobId : String} (found : db.job jobId = some row) :
    ∃ row', (enqueueDb host db event).job jobId = some row' ∧ RowWrites row row' := by
  cases event with
  | queue event => exact queueStep_rowWrites host unique event read found
  | enqueue tracked call =>
    cases enqueueQueueJob_db host db tracked call with
    | inl hsame => exact ⟨row, by simpa only [enqueueDb, hsame] using found, .refl⟩
    | inr hpersist =>
      obtain ⟨record, hstep⟩ := hpersist
      simp only [enqueueDb, hstep]
      exact queueStep_rowWrites host unique (.persist _ record _ _) trivial found
  | activate batch =>
    refine ⟨row, ?_, .refl⟩
    simp only [enqueueDb]
    cases activatePipelineBatch_cases host.runtime db batch with
    | inl hsame => rwa [hsame]
    | inr hactivates => exact hactivates.job found

theorem uniqueJobs_enqueue (db : QueueDb) (event : EnqueueEvent) (unique : UniqueJobs db) :
    UniqueJobs (enqueueDb host db event) :=
  (keepsKeys_enqueueDb host unique event).unique

theorem run_job (unique : UniqueJobs db) (events : List EnqueueEvent)
    (read : Along (enqueueDb host) ReadsRow db events) {jobId : String}
    (found : db.job jobId = some row) :
    ∃ row', (run (enqueueDb host) db events).job jobId = some row' ∧ RowWrites row row' := by
  induction events generalizing db row with
  | nil => exact ⟨row, found, .refl⟩
  | cons event events ih =>
    obtain ⟨middle, hmiddle, hfirst⟩ := enqueueDb_job unique event read.1 found
    obtain ⟨last, hlast, hrest⟩ := ih (uniqueJobs_enqueue db event unique) read.2 hmiddle
    exact ⟨last, hlast, hfirst.trans hrest⟩

/-! ### Revisions -/

/-- What a later reader finds of a row: the same job under the same key, and a higher
revision unless it is the very same row. -/
structure Later (row row' : QueueRow) : Prop where
  key : SameKey row row'
  changed : row' = row ∨ row.revision < row'.revision

theorem Later.refl (row : QueueRow) : Later row row := ⟨⟨rfl, rfl⟩, .inl rfl⟩

theorem Later.trans {row'' : QueueRow} (first : Later row row') (second : Later row' row'') :
    Later row row'' where
  key := ⟨second.key.1.trans first.key.1, second.key.2.trans first.key.2⟩
  changed := by
    have hfirst := first.changed
    rcases second.changed with rfl | hsecond
    · exact hfirst
    · exact .inr (hfirst.elim (fun hsame => hsame ▸ hsecond) fun hlt => hlt.trans hsecond)

theorem queueStep_later (host : RetryHost) (unique : UniqueJobs db) (event : QueueEvent)
    {jobId : String} (found : db.job jobId = some row) :
    ∃ row', (queueStep host.runtime db event).job jobId = some row' ∧ Later row row' := by
  obtain ⟨row', hrow', hwrites⟩ := queueStep_job host.runtime unique event found
  exact ⟨row', hrow', hwrites.sameKey, hwrites.eq_or_revision_lt⟩

theorem enqueueDb_later (unique : UniqueJobs db) (event : EnqueueEvent) {jobId : String}
    (found : db.job jobId = some row) :
    ∃ row', (enqueueDb host db event).job jobId = some row' ∧ Later row row' := by
  cases event with
  | queue event => exact queueStep_later host unique event found
  | enqueue tracked call =>
    cases enqueueQueueJob_db host db tracked call with
    | inl hsame => exact ⟨row, by simpa only [enqueueDb, hsame] using found, .refl row⟩
    | inr hpersist =>
      obtain ⟨record, hstep⟩ := hpersist
      simp only [enqueueDb, hstep]
      exact queueStep_later host unique (.persist _ record _ _) found
  | activate batch =>
    refine ⟨row, ?_, .refl row⟩
    simp only [enqueueDb]
    cases activatePipelineBatch_cases host.runtime db batch with
    | inl hsame => rwa [hsame]
    | inr hactivates => exact hactivates.job found

/-- A reader who finds the revision it knew finds the row it knew: no order of enqueues,
activations and queue writes brings a revision back with another content. -/
theorem revision_identifies_row (host : RetryHost) (before after : List EnqueueEvent) :
    let db := run (enqueueDb host) .empty before
    ∀ (jobId : String) (row : QueueRow), db.job jobId = some row →
      ∃ row', (run (enqueueDb host) db after).job jobId = some row' ∧ Later row row' := by
  intro db jobId row hrow
  have hunique : UniqueJobs db := run_preserves uniqueJobs_enqueue uniqueJobs_empty before
  clear_value db
  induction after generalizing db row with
  | nil => exact ⟨row, hrow, .refl row⟩
  | cons event events ih =>
    obtain ⟨middle, hmiddle, hfirst⟩ := enqueueDb_later hunique event hrow
    obtain ⟨last, hlast, hrest⟩ := ih _ _ hmiddle (uniqueJobs_enqueue db event hunique)
    exact ⟨last, hlast, hfirst.trans hrest⟩

/-! ### The owner's write on an ended or marked row -/

/-- The two persists of an owner's record. -/
inductive Persists (bridgeInstanceId : String) (record : QueueRecord) : QueueEvent → Prop where
  | ordinary (capacityAvailable : Bool) (now : Nat) :
      Persists bridgeInstanceId record (.persist bridgeInstanceId record capacityAvailable now)
  | withEnvelope (now : Nat) :
      Persists bridgeInstanceId record (.persistWithEnvelope bridgeInstanceId record now)

variable {runtime : QueueRuntime} {event : QueueEvent} {bridgeInstanceId : String}
  {record : QueueRecord}

/-- On a row that has not ended but is marked, a persist can only end the job as
cancelled; on a row that has ended it can do nothing. -/
theorem Persists.write (persists : Persists bridgeInstanceId record event)
    (job : row.jobId = record.jobId) (touched : ¬ Untouched row)
    (h : QueueWrite runtime db event row row') :
    row'.status = .cancelled ∧ row'.cancellationRequestedAt = row.cancellationRequestedAt ∧
      row.status.terminal = false := by
  have hsubject : event.subject = some row.jobId := by
    cases persists <;> simp [QueueEvent.subject, job]
  cases h with
  | siblingCancelled _ other => exact absurd hsubject other
  | siblingMarked _ other => exact absurd hsubject other
  | unstartedEnded revision terminal details commits owned status ends marked =>
    have hopen := QueueStatus.terminal_eq_false_of_preExecution status
    have hmark : row.cancellationRequestedAt.isSome = true := by
      rw [Option.isSome_iff_ne_none]
      exact fun hnone => touched ⟨hopen, hnone⟩
    exact ⟨marked hmark, rfl, hopen⟩
  | activeEnded _ _ _ _ _ status unmarked =>
    exact absurd ⟨QueueStatus.terminal_eq_false_of_active status, unmarked⟩ touched
  | activeCancelled _ _ _ _ status =>
    exact ⟨rfl, rfl, QueueStatus.terminal_eq_false_of_active status⟩
  | rewritten _ _ _ _ status unmarked => exact absurd ⟨status, unmarked⟩ touched
  | _ => cases persists

theorem Persists.writes (persists : Persists bridgeInstanceId record event)
    (job : row.jobId = record.jobId) (touched : ¬ Untouched row)
    (h : QueueWrites runtime db event row row') :
    row' = row ∨ row'.status = .cancelled ∧
      row'.cancellationRequestedAt = row.cancellationRequestedAt := by
  induction h with
  | refl => exact .inl rfl
  | @tail middle last hbefore hwrite ih =>
    cases ih with
    | inl hsame =>
      subst hsame
      obtain ⟨hstatus, hmark, -⟩ := persists.write job touched hwrite
      exact .inr ⟨hstatus, hmark⟩
    | inr hcancelled =>
      have hended : ¬ Untouched middle := by
        intro huntouched
        have hopen := huntouched.1
        rw [hcancelled.1] at hopen
        cases hopen
      have hopen := (persists.write ((QueueWrites.jobId hbefore).trans job) hended hwrite).2.2
      rw [hcancelled.1] at hopen
      cases hopen

end

/-- Between a version of a row and a later one that the heartbeat-only test accepts for
the earlier revision, there were only silent writes. If the later one is neither ended
nor marked, nothing but the lease, the heartbeat and the provider wait differs; else the
owner's write leaves the row as it is or ends the job as cancelled under its mark. -/
theorem rebase_loses_no_update (host : RetryHost) (before after : List EnqueueEvent)
    (read : Along (enqueueDb host) ReadsRow (run (enqueueDb host) .empty before) after) :
    let db := run (enqueueDb host) .empty before
    let db' := run (enqueueDb host) db after
    ∀ (jobId : String) (base current : QueueRow), db.job jobId = some base →
      db'.job jobId = some current →
    ∀ (bridgeInstanceId : String) (record : QueueRecord), record.jobId = jobId →
      record.revision = base.revision →
      heartbeatOnlyQueueAdvance bridgeInstanceId current record = true →
      ReflTransGen SilentWrite base current ∧
      (Untouched current → OnlyLease base current) ∧
      (¬ Untouched current → ∀ event, Persists bridgeInstanceId record event →
        ∃ next, (queueStep host.runtime db' event).job jobId = some next ∧
          (next = current ∨ next.status = .cancelled ∧
            next.cancellationRequestedAt = current.cancellationRequestedAt)) := by
  intro db db' jobId base current hbase hcurrent bridgeInstanceId record hjob hrevision haccepted
  have hbefore : UniqueJobs db := run_preserves uniqueJobs_enqueue uniqueJobs_empty before
  obtain ⟨found, hfound, hwrites⟩ := run_job hbefore after read hbase
  have hsame : found = current := Option.some.inj (hfound.symm.trans hcurrent)
  subst hsame
  have hsilent := silent_of_heartbeatOnly hwrites hrevision haccepted
  refine ⟨hsilent, onlyLease_of_silent hsilent, ?_⟩
  intro htouched event hpersists
  have hunique : UniqueJobs db' := run_preserves uniqueJobs_enqueue hbefore after
  obtain ⟨next, hnext, hpersisted⟩ := queueStep_job host.runtime hunique event hcurrent
  have hid : found.jobId = jobId := (lookup_some hcurrent).2
  exact ⟨next, hnext, hpersists.writes (hid.trans hjob.symm) htouched hpersisted⟩

/-- The owner's record of the second child of a started pipeline. -/
def secondChild : QueueRecord :=
  { enqueuedRecord "job-2" "bridge-1" "gen-1" 1 50 with
    status := .running
    revision := 2 }

/-- Both children of a pipeline run on one bridge. -/
def runningBatch : List EnqueueEvent :=
  [.queue (.environment [⟨"bridge-1", 1000⟩] [⟨"pipeline-1", .planned, .unstarted⟩] []),
    .activate ⟨"pipeline-1", "bridge-1",
      [enqueuedRecord "job-1" "bridge-1" "gen-1" 1 50,
        enqueuedRecord "job-2" "bridge-1" "gen-1" 1 50], true, true, 10, 60⟩,
    .queue childClaim,
    .queue (.claim "bridge-1" 1 "gen-2"
      { enqueuedRecord "job-2" "bridge-1" "gen-1" 1 50 with revision := 1 } 20 70)]

/-- The row of the second child after these events. -/
def secondRow (events : List EnqueueEvent) : Option QueueRow :=
  (run (enqueueDb plainHost) .empty (runningBatch ++ events)).job "job-2"

theorem revision_identifies_row_of_renewal :
    ∃ row row', secondRow [] = some row ∧
      secondRow [.queue (.renew "bridge-1" secondChild 30 80)] = some row' ∧ Later row row' := by
  obtain ⟨row', hrow', hlater⟩ := revision_identifies_row plainHost runningBatch
    [.queue (.renew "bridge-1" secondChild 30 80)] "job-2" ((secondRow []).get (by decide))
    (by decide)
  exact ⟨_, row', by decide, by rwa [secondRow, run_append], hlater⟩

theorem rebase_loses_no_update_of_renewal :
    ∃ base current, secondRow [] = some base ∧
      secondRow [.queue (.renew "bridge-1" secondChild 30 80)] = some current ∧
      heartbeatOnlyQueueAdvance "bridge-1" current secondChild = true ∧
      OnlyLease base current := by
  refine ⟨(secondRow []).get (by decide),
    (secondRow [.queue (.renew "bridge-1" secondChild 30 80)]).get (by decide),
    by decide, by decide, by decide, ?_⟩
  refine (rebase_loses_no_update plainHost runningBatch
    [.queue (.renew "bridge-1" secondChild 30 80)] ⟨trivial, trivial⟩ "job-2" _ _
    (by decide) (by decide) "bridge-1" secondChild rfl (by decide)
    (by decide)).2.1 ?_
  exact ⟨by decide, by decide⟩

/-- The other child fails: the mark on the second one passes for a heartbeat. -/
theorem mark_passes_for_heartbeat :
    ¬ ∀ (before after : List EnqueueEvent) (base current : QueueRow) (record : QueueRecord),
      Along (enqueueDb plainHost) ReadsRow (run (enqueueDb plainHost) .empty before) after →
      (run (enqueueDb plainHost) .empty before).job record.jobId = some base →
      (run (enqueueDb plainHost) .empty (before ++ after)).job record.jobId = some current →
      record.revision = base.revision →
      heartbeatOnlyQueueAdvance "bridge-1" current record = true → OnlyLease base current := by
  intro h
  have hlease := h runningBatch [.queue childFails] ((secondRow []).get (by decide))
    ((secondRow [.queue childFails]).get (by decide)) secondChild ⟨trivial, trivial⟩
    (by decide) (by decide) (by decide) (by decide)
  obtain ⟨_, _, _, _, hsame⟩ := hlease
  have hmark : ((secondRow [.queue childFails]).get (by decide)).cancellationRequestedAt
      = ((secondRow []).get (by decide)).cancellationRequestedAt := by rw [hsame]
  exact absurd hmark (by decide)

end AgentBridge.Queue
