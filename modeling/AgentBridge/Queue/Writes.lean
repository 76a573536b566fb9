import AgentBridge.Queue.System

/-!
# Every transaction is a sequence of queue writes

For each transaction, the jobs table after it is the table before it with every row
rewritten by writes of that transaction, plus at most one new row. Job ids stay
unique, and every write raises the revision, so an unchanged revision is an
unchanged row.
-/

namespace AgentBridge.Queue

open Systems Relation Option

variable {runtime : QueueRuntime} {db db' : QueueDb} {event : QueueEvent}

/-- `job_id TEXT PRIMARY KEY` -/
def UniqueJobs (db : QueueDb) : Prop := (db.jobs.map QueueRow.jobId).Nodup

inductive NewRow (runtime : QueueRuntime) : QueueEvent → QueueRow → Prop where
  | inserted {bridgeInstanceId record capacityAvailable now}
      (notTerminal : ownerTerminal (preparedRecord runtime record).status = false) :
      NewRow runtime (.persist bridgeInstanceId record capacityAvailable now)
        (insertedRow runtime (preparedRecord runtime record))

/-! ### Writes and the summary's revision -/

/-- A write that leaves the revision in the summary behind. -/
inductive SilentWrite : QueueRow → QueueRow → Prop where
  | renewed {row : QueueRow} (heartbeatAt leaseExpiresAt : Stamp) (waitInfo : String) :
      SilentWrite row
        { row with
          heartbeatAt := heartbeatAt
          leaseExpiresAt := leaseExpiresAt
          recordJson := { row.recordJson with providerWaitInfo := waitInfo }
          revision := row.revision + 1 }
  | marked {row : QueueRow} (time : Nat) (status : row.status.active = true) :
      SilentWrite row (markedByPipeline row time)
  | cancelled {row : QueueRow} (time : Nat) (status : row.status.preExecution = true) :
      SilentWrite row (cancelledByPipeline row time)
  | recoveryFailed {row row' : QueueRow} (status : row.status.preExecution = true)
      (ended : row'.status = .failed) (revision : row'.revision = row.revision + 1)
      (summary : row'.recordJson.revision = row.recordJson.revision) : SilentWrite row row'

structure NotedWrite (row row' : QueueRow) : Prop where
  revision : row'.revision = row.revision + 1
  summary : row'.recordJson.revision = row.revision + 1

def RowWrite (row row' : QueueRow) : Prop := SilentWrite row row' ∨ NotedWrite row row'

/-- A row that a failed startup recovery ends has been read from the table. -/
def ReadsObserved (db : QueueDb) : QueueEvent → Prop
  | .startupFailure observed _ _ =>
    ∀ row ∈ db.jobs, row.jobId = observed.jobId → row.revision = observed.revision →
      row = observed
  | _ => True

/-- A write of the transaction, with what it leaves of the summary's revision. -/
def TrackedWrite (runtime : QueueRuntime) (db : QueueDb) (event : QueueEvent)
    (row row' : QueueRow) : Prop :=
  QueueWrite runtime db event row row' ∧ (ReadsObserved db event → RowWrite row row')

/-- The jobs table evolves by writes of the event, judged in the database `db`. -/
def WrittenBy (runtime : QueueRuntime) (db : QueueDb) (event : QueueEvent)
    (jobs jobs' : List QueueRow) : Prop :=
  Evolves QueueRow.jobId (QueueWrites runtime db event) (NewRow runtime event) jobs jobs'

def TrackedBy (runtime : QueueRuntime) (db : QueueDb) (event : QueueEvent)
    (jobs jobs' : List QueueRow) : Prop :=
  Evolves QueueRow.jobId (ReflTransGen (TrackedWrite runtime db event)) (NewRow runtime event) jobs
    jobs'

variable {row : QueueRow}

theorem UniqueJobs.job_eq (h : UniqueJobs db) (hrow : row ∈ db.jobs) :
    db.job row.jobId = some row :=
  lookup_of_mem h hrow

theorem UniqueJobs.eq_of_job (h : UniqueJobs db) {jobId : String} {observed : QueueRow}
    (hobserved : db.job jobId = some observed) (hrow : row ∈ db.jobs) (hjob : row.jobId = jobId) :
    row = observed := by
  have hfound := h.job_eq hrow
  rw [hjob, hobserved] at hfound
  exact (Option.some.inj hfound).symm

namespace QueueWrite

theorem jobId {row row' : QueueRow} (h : QueueWrite runtime db event row row') :
    row'.jobId = row.jobId := by
  cases h <;> rfl

theorem revision {row row' : QueueRow} (h : QueueWrite runtime db event row row') :
    row'.revision = row.revision + 1 := by
  cases h <;> rfl

end QueueWrite

theorem TrackedWrite.silent {row row' : QueueRow} (h : QueueWrite runtime db event row row')
    (silent : SilentWrite row row') : TrackedWrite runtime db event row row' :=
  ⟨h, fun _ => .inl silent⟩

theorem TrackedWrite.noted {row row' : QueueRow} (h : QueueWrite runtime db event row row')
    (summary : row'.recordJson.revision = row.revision + 1) :
    TrackedWrite runtime db event row row' :=
  ⟨h, fun _ => .inr ⟨h.revision, summary⟩⟩

namespace QueueWrites

variable {row row' : QueueRow}

theorem jobId (h : QueueWrites runtime db event row row') : row'.jobId = row.jobId := by
  induction h with
  | refl => rfl
  | tail _ hwrite ih => exact hwrite.jobId.trans ih

theorem eq_or_revision_lt (h : QueueWrites runtime db event row row') :
    row' = row ∨ row.revision < row'.revision := by
  induction h with
  | refl => exact .inl rfl
  | tail _ hwrite ih =>
    have hrevision := hwrite.revision
    rcases ih with rfl | hlt <;> exact .inr (by omega)

end QueueWrites

namespace TrackedBy

variable {jobs jobs' jobs'' : List QueueRow}

theorem writtenBy (h : TrackedBy runtime db event jobs jobs') :
    WrittenBy runtime db event jobs jobs' :=
  Evolves.mono h (ReflTransGen.mono fun _ _ hwrite => hwrite.1)

theorem refl : TrackedBy runtime db event jobs jobs := Evolves.refl fun _ => .refl

theorem trans (first : TrackedBy runtime db event jobs jobs')
    (second : TrackedBy runtime db event jobs' jobs'') :
    TrackedBy runtime db event jobs jobs'' :=
  Evolves.trans first (fun _ _ _ first second => first.trans second) second

/-- An update is a write of the transaction when it is one on every row it fits. -/
theorem exec {update : RowUpdate QueueRow}
    (hkey : ∀ row, (update.set row).jobId = row.jobId)
    (h : ∀ row ∈ jobs, update.guard row = true →
      TrackedWrite runtime db event row (update.set row)) :
    TrackedBy runtime db event jobs (update.exec jobs) :=
  Evolves.exec (fun _ => .refl) hkey fun row hrow hguard => .single (h row hrow hguard)

theorem propagate {childJobId : String} (terminalStatus : QueueStatus) (time : Nat)
    (hsubject : ∀ jobId, event.subject = some jobId → jobId = childJobId) :
    TrackedBy runtime db event db'.jobs
      (propagatePipelineTerminalInTransaction db' childJobId terminalStatus time).2.jobs := by
  have hother : ∀ row : QueueRow, row.jobId ≠ childJobId → event.subject ≠ some row.jobId := by
    intro row hne heq
    exact hne (hsubject _ heq)
  exact propagate_evolves (fun _ => .refl) (fun _ _ _ first second => first.trans second)
    (fun row hne hstatus => .single
      (.silent (.siblingCancelled time (hother row hne) hstatus) (.cancelled time hstatus)))
    (fun row hne hstatus => .single
      (.silent (.siblingMarked time (hother row hne) hstatus) (.marked time hstatus)))
    terminalStatus

end TrackedBy

/-! ### The terminal commit -/

section

variable {bridgeInstanceId : String} {record terminal : QueueRecord} {now : Nat}

theorem ownedAt_ownedBy {jobId : String} {revision : Nat} {row : QueueRow}
    (h : ownedAt bridgeInstanceId jobId record.ownerGeneration revision row = true)
    (hjob : jobId = record.jobId) : OwnedBy bridgeInstanceId record row := by
  simp only [ownedAt, Bool.and_eq_true, decide_eq_true_eq] at h
  exact ⟨h.1.1.1.1.trans hjob, h.1.1.1.2, h.1.1.2⟩

theorem ownedAt_revision {jobId generation : String} {revision : Nat}
    (h : ownedAt bridgeInstanceId jobId generation revision row = true) :
    row.revision = revision := by
  simp only [ownedAt, Bool.and_eq_true, decide_eq_true_eq] at h
  exact h.2

theorem unstartedTerminalRecord_revision (observed : QueueRow) :
    (unstartedTerminalRecord terminal observed now).revision = terminal.revision := by
  simp only [unstartedTerminalRecord]
  split <;> rfl

@[simp] theorem preparedRecord_jobId : (preparedRecord runtime record).jobId = record.jobId := by
  simp only [preparedRecord, enforceQueueResultEvidence]
  split_ifs <;> rfl

@[simp] theorem preparedRecord_ownerGeneration :
    (preparedRecord runtime record).ownerGeneration = record.ownerGeneration := by
  simp only [preparedRecord, enforceQueueResultEvidence]
  split_ifs <;> rfl

@[simp] theorem preparedRecord_ownerInstanceId :
    (preparedRecord runtime record).ownerInstanceId = record.ownerInstanceId := by
  simp only [preparedRecord, enforceQueueResultEvidence]
  split_ifs <;> rfl

theorem QueueEvent.subject_of_commits
    (h : event.commits runtime = some (bridgeInstanceId, record)) :
    event.subject = some record.jobId := by
  cases event with
  | persist owner raw capacityAvailable now =>
    simp only [QueueEvent.commits, ite_none_right_eq_some, Option.some.injEq,
      Prod.mk.injEq] at h
    simp [QueueEvent.subject, ← h.2.2]
  | persistWithEnvelope owner raw now =>
    simp only [QueueEvent.commits, Option.some.injEq, Prod.mk.injEq] at h
    simp [QueueEvent.subject, ← h.2, envelopedRecord]
  | _ => simp [QueueEvent.commits] at h

variable {won : Bool}

theorem TrackedBy.terminalCommitted
    (commits : event.commits runtime = some (bridgeInstanceId, record))
    (hjob : terminal.jobId = record.jobId) :
    TrackedBy runtime db event db'.jobs (terminalCommitted db' terminal won now).db.jobs := by
  refine .propagate terminal.status (terminal.finishedAt.getD now) ?_
  intro jobId hsubject
  rw [QueueEvent.subject_of_commits commits] at hsubject
  exact (Option.some.inj hsubject).symm.trans hjob.symm

theorem TrackedBy.tryCommit {update : RowUpdate QueueRow}
    (commits : event.commits runtime = some (bridgeInstanceId, record))
    (hjob : terminal.jobId = record.jobId)
    (hexec : TrackedBy runtime db event db'.jobs (update.exec db'.jobs)) :
    TrackedBy runtime db event db'.jobs (tryCommit db' update terminal won now).db.jobs := by
  simp only [Queue.tryCommit]
  split
  · exact hexec.trans (.terminalCommitted commits hjob)
  · exact hexec

variable (current : Option QueueRow)

@[simp] theorem terminalRecord_jobId :
    (terminalRecord bridgeInstanceId current record).jobId = record.jobId := rfl

@[simp] theorem terminalRecord_status :
    (terminalRecord bridgeInstanceId current record).status = record.status := rfl

@[simp] theorem noteRetryIntent_jobId :
    (noteRetryIntent terminal current now).jobId = terminal.jobId := rfl

@[simp] theorem noteRetryIntent_status :
    (noteRetryIntent terminal current now).status = terminal.status := rfl

@[simp] theorem unstartedTerminalRecord_jobId (row : QueueRow) :
    (unstartedTerminalRecord terminal row now).jobId = terminal.jobId := by
  simp only [unstartedTerminalRecord]
  split <;> rfl

theorem unstartedTerminalRecord_status (row : QueueRow) :
    (unstartedTerminalRecord terminal row now).status =
      if row.cancellationRequestedAt.isSome then .cancelled else terminal.status := by
  simp only [unstartedTerminalRecord]
  split <;> rfl

theorem TrackedBy.commitUnstarted (now : Nat) (hunique : UniqueJobs db)
    (commits : event.commits runtime = some (bridgeInstanceId, record)) :
    TrackedBy runtime db event db.jobs
      (commitUnstarted runtime db bridgeInstanceId record true now).db.jobs := by
  simp only [Queue.commitUnstarted]
  split
  · exact .refl
  next observed hobserved =>
    split
    · rename_i howned
      simp only [Bool.and_eq_true, Bool.or_eq_true, decide_eq_true_eq] at howned
      obtain ⟨⟨⟨hstatus, -⟩, -⟩, hends⟩ := howned
      split
      · exact .refl
      · rename_i hdeferred
        refine .tryCommit commits (by simp) (.exec (fun _ => rfl) fun row hrow hguard => ?_)
        have howned : OwnedBy bridgeInstanceId record row := by
          simp only [endUnstarted, Bool.and_eq_true] at hguard
          exact ownedAt_ownedBy hguard.1 (by simp)
        obtain rfl := hunique.eq_of_job hobserved hrow howned.job
        refine .noted (.unstartedEnded _ _ _ commits howned hstatus ?_ ?_ ?_) ?_
        · rw [noteRetryIntent_status, unstartedTerminalRecord_status]
          split
          · exact .inr rfl
          · exact hends
        · intro hmarked
          rw [noteRetryIntent_status, unstartedTerminalRecord_status, if_pos hmarked]
        · intro hcancelled
          rw [noteRetryIntent_status] at hcancelled
          simp only [hcancelled, noteRetryIntent_status, if_pos]
          simpa [hcancelled, isSome_iff_ne_none] using hdeferred
        · simp only [endUnstarted, Bool.and_eq_true] at hguard
          rw [ownedAt_revision hguard.1]
          exact unstartedTerminalRecord_revision _
    · exact .refl

theorem TrackedBy.commitActive (attempted now : Nat)
    (commits : event.commits runtime = some (bridgeInstanceId, record))
    (hinstances : db'.instances = db.instances) (hjob : terminal.jobId = record.jobId)
    (hends : terminal.status = record.status ∨ terminal.status = .cancelled)
    (hdetails : terminal.resultEncrypted = record.resultEncrypted)
    (hrevision : terminal.revision = attempted + 1) :
    TrackedBy runtime db event db'.jobs
      (commitActive runtime db' bridgeInstanceId record terminal attempted now).db.jobs := by
  refine .tryCommit commits hjob (.exec (fun _ => rfl) fun row _ hguard => ?_)
  simp only [endActive, Bool.and_eq_true, isNone_iff_eq_none] at hguard
  obtain ⟨⟨⟨hfits, hstatus⟩, hmark⟩, hlive⟩ := hguard
  have howned := ownedAt_ownedBy hfits hjob
  refine .noted (.activeEnded attempted now _ commits howned hstatus hmark ?_ hends
    hdetails) ?_
  · simpa [QueueDb.instanceLive, hinstances, howned.owner] using hlive
  · rw [ownedAt_revision hfits]
    exact hrevision

/-- A cancelled commit changes nothing or ends the row that it observed. -/
theorem commitCancelled_db {motive : QueueDb → Prop} (same : motive db')
    (written : ∀ observed : QueueRow, record.cancellationResultEncrypted.isNone ≠ true →
      motive (Queue.tryCommit db' (endCancelled runtime bridgeInstanceId record.ownerGeneration
        observed.revision (cancelledRecord record observed now))
        (cancelledRecord record observed now) true now).db) :
    motive (commitCancelled runtime db' bridgeInstanceId record terminal true now).db := by
  simp only [commitCancelled]
  split
  · exact same
  next observed _ =>
    split
    · split
      · exact same
      next hdeferred =>
        have hwritten := written observed hdeferred
        generalize Queue.tryCommit db' _ _ true now = attempt at hwritten ⊢
        cases attempt with
        | done => exact hwritten
        | missed => exact hwritten
    · exact same

theorem TrackedBy.commitCancelled (db db' : QueueDb) (terminal : QueueRecord) (now : Nat)
    (commits : event.commits runtime = some (bridgeInstanceId, record)) :
    TrackedBy runtime db event db'.jobs
      (commitCancelled runtime db' bridgeInstanceId record terminal true now).db.jobs := by
  refine commitCancelled_db (motive := fun after => TrackedBy runtime db event db'.jobs after.jobs)
    .refl fun observed hdeferred => ?_
  refine .tryCommit commits rfl (.exec (fun _ => rfl) fun row _ hguard => ?_)
  simp only [endCancelled, Bool.and_eq_true] at hguard
  refine .noted (.activeCancelled _ _ commits (ownedAt_ownedBy hguard.1.1 rfl) hguard.1.2
    hguard.2 ⟨rfl, ?_⟩) ?_
  · simpa [isSome_iff_ne_none] using hdeferred
  · rw [ownedAt_revision hguard.1.1]
    rfl

theorem tryCommit_missed {update : RowUpdate QueueRow} {attempted : QueueRecord} {db'' : QueueDb}
    (h : Queue.tryCommit db update attempted won now = .missed terminal db'') :
    db''.instances = db.instances ∧ terminal = attempted := by
  simp only [Queue.tryCommit, Queue.terminalCommitted] at h
  split at h
  · contradiction
  · obtain ⟨rfl, rfl⟩ := TerminalAttempt.missed.inj h
    exact ⟨rfl, rfl⟩

/-- A missed first update leaves the instances alone, and of the record at most makes a
cancelled one. -/
theorem commitUnstarted_missed {db'' : QueueDb}
    (h : Queue.commitUnstarted runtime db bridgeInstanceId record true now
      = .missed terminal db'') :
    db''.instances = db.instances ∧ terminal.jobId = record.jobId ∧
      (terminal.status = record.status ∨ terminal.status = .cancelled) ∧
      terminal.resultEncrypted = record.resultEncrypted ∧
      terminal.revision = attemptedRevision bridgeInstanceId (db.job record.jobId) record + 1 := by
  simp only [Queue.commitUnstarted] at h
  split at h
  · obtain ⟨rfl, rfl⟩ := TerminalAttempt.missed.inj h
    exact ⟨rfl, rfl, .inl rfl, rfl, rfl⟩
  next observed _ =>
    split at h
    · split at h
      · contradiction
      · obtain ⟨hinstances, rfl⟩ := tryCommit_missed h
        refine ⟨hinstances, by simp, ?_, ?_, unstartedTerminalRecord_revision _⟩
        · rw [noteRetryIntent_status, unstartedTerminalRecord_status]
          split
          · exact .inr rfl
          · exact .inl rfl
        · simp only [noteRetryIntent, unstartedTerminalRecord]
          split <;> rfl
    · obtain ⟨rfl, rfl⟩ := TerminalAttempt.missed.inj h
      exact ⟨rfl, rfl, .inl rfl, rfl, rfl⟩

/-- What the three updates of a terminal commit keep, each from where the one before missed,
the whole commit keeps. -/
theorem persistTerminalQueueRecord_db {motive : QueueDb → Prop}
    (first : motive (Queue.commitUnstarted runtime db bridgeInstanceId record true now).db)
    (second : ∀ terminal db₁, Queue.commitUnstarted runtime db bridgeInstanceId record true now
      = .missed terminal db₁ → motive db₁ →
        motive (Queue.commitActive runtime db₁ bridgeInstanceId record terminal
          (attemptedRevision bridgeInstanceId (db.job record.jobId) record) now).db)
    (third : ∀ terminal db₂, motive db₂ →
      motive (Queue.commitCancelled runtime db₂ bridgeInstanceId record terminal true now).db) :
    motive (persistTerminalQueueRecord runtime db bridgeInstanceId record true now).2.2 := by
  simp only [persistTerminalQueueRecord]
  split
  next hdone =>
    rw [hdone] at first
    exact first
  next terminal₁ db₁ hmissed₁ =>
    rw [hmissed₁] at first
    have hsecond := second terminal₁ db₁ hmissed₁ first
    split
    next hdone =>
      rw [hdone] at hsecond
      exact hsecond
    next terminal₂ db₂ hmissed₂ =>
      rw [hmissed₂] at hsecond
      have hthird := third terminal₂ db₂ hsecond
      split
      next hdone =>
        rw [hdone] at hthird
        exact hthird
      next hmissed₃ =>
        rw [hmissed₃] at hthird
        exact hthird

theorem TrackedBy.persistTerminal (hunique : UniqueJobs db)
    (commits : event.commits runtime = some (bridgeInstanceId, record)) :
    TrackedBy runtime db event db.jobs
      (persistTerminalQueueRecord runtime db bridgeInstanceId record true now).2.2.jobs := by
  refine persistTerminalQueueRecord_db
    (motive := fun after => TrackedBy runtime db event db.jobs after.jobs)
    (.commitUnstarted now hunique commits) ?_ ?_
  · intro terminal db₁ hmissed hfirst
    obtain ⟨hinstances, hjob, hends, hdetails, hrevision⟩ := commitUnstarted_missed hmissed
    exact hfirst.trans (.commitActive _ now commits hinstances hjob hends hdetails hrevision)
  · intro terminal db₂ hsecond
    exact hsecond.trans (.commitCancelled db db₂ terminal now commits)

end

/-! ### The other transactions -/

theorem isObserved_jobId {observed : QueueRow} (h : isObserved observed row = true) :
    row.jobId = observed.jobId := by
  simp only [isObserved, Bool.and_eq_true, decide_eq_true_eq] at h
  exact h.1.1.1.1

theorem TrackedBy.cancel (hunique : UniqueJobs db) (jobId : String) (unstartedOnly : Bool)
    (reason : String) (now : Nat) :
    TrackedBy runtime db (.cancel jobId unstartedOnly reason now) db.jobs
      (cancelPersistedQueueJob runtime db jobId unstartedOnly reason now).2.jobs := by
  simp only [cancelPersistedQueueJob]
  split
  · exact .refl
  next observed hobserved =>
    obtain ⟨-, rfl⟩ := lookup_some hobserved
    have hpatch : ∀ requestedAt,
        (cancellationPatch observed reason requestedAt).revision = observed.revision + 1 := by
      intro requestedAt
      simp only [cancellationPatch]
      split <;> rfl
    split
    · exact .refl
    · rename_i hterminal
      split
      · exact .refl
      · split
        · rename_i hstatus
          have hexec : TrackedBy runtime db (.cancel observed.jobId unstartedOnly reason now)
              db.jobs ((cancelUnstarted runtime observed
                (observed.cancellationRequestedAt.or (some now))
                (cancellationPatch observed reason
                  (observed.cancellationRequestedAt.or (some now)))).exec db.jobs) := by
            refine .exec (fun _ => rfl) fun row hrow hguard => ?_
            obtain rfl := hunique.eq_of_job hobserved hrow (isObserved_jobId hguard)
            exact .noted (.unstartedCancelled _ _ hstatus rfl rfl) (hpatch _)
          split
          · refine hexec.trans (.propagate _ _ fun jobId hsubject => ?_)
            exact (Option.some.inj hsubject).symm
          · exact hexec
        · rename_i hstatus
          have hactive : observed.status.active = true :=
            (QueueStatus.preExecution_or_active (by simpa using hterminal)).resolve_left hstatus
          have hexec : TrackedBy runtime db (.cancel observed.jobId unstartedOnly reason now)
              db.jobs ((markCancellation runtime observed
                (observed.cancellationRequestedAt.or (some now))
                (cancellationPatch observed reason
                  (observed.cancellationRequestedAt.or (some now)))).exec db.jobs) := by
            refine .exec (fun _ => rfl) fun row hrow hguard => ?_
            obtain rfl := hunique.eq_of_job hobserved hrow (isObserved_jobId hguard)
            exact .noted (.cancellationMarked _ _ hactive rfl) (hpatch _)
          split <;> exact hexec

theorem TrackedBy.insert {bridgeInstanceId : String} {record : QueueRecord}
    (capacityAvailable : Bool) (now : Nat)
    (hnone : db.job (preparedRecord runtime record).jobId = none)
    (hterminal : ownerTerminal (preparedRecord runtime record).status = false) :
    TrackedBy runtime db (.persist bridgeInstanceId record capacityAvailable now) db.jobs
      (insertQueueRecord runtime db (preparedRecord runtime record)
        capacityAvailable).2.2.jobs := by
  simp only [insertQueueRecord]
  split
  · split <;> exact .refl
  · split
    · refine Evolves.insert (fun _ => .refl) (.inserted hterminal) fun row hrow heq => ?_
      have hfound := List.find?_eq_none.mp hnone row hrow
      simp only [decide_eq_true_eq] at hfound
      exact hfound heq
    · exact .refl

theorem TrackedBy.update (hunique : UniqueJobs db) {bridgeInstanceId : String}
    {record : QueueRecord} {current : QueueRow} (capacityAvailable : Bool) (now : Nat)
    (hcurrent : db.job (preparedRecord runtime record).jobId = some current)
    (hterminal : ownerTerminal (preparedRecord runtime record).status = false) :
    TrackedBy runtime db (.persist bridgeInstanceId record capacityAvailable now) db.jobs
      (updateQueueRecord runtime db bridgeInstanceId current (preparedRecord runtime record)
        now).2.2.jobs := by
  simp only [updateQueueRecord]
  split
  · exact .refl
  · rename_i hrefused
    simp only [Bool.or_eq_true, not_or, Bool.not_eq_true] at hrefused
    have hexec : TrackedBy runtime db (.persist bridgeInstanceId record capacityAvailable now)
        db.jobs ((rewriteOwned runtime db bridgeInstanceId current
          (preparedRecord runtime record).ownerGeneration
          (nextRecord current (rebasedRecord bridgeInstanceId current
            (preparedRecord runtime record))) now).exec db.jobs) := by
      refine .exec (fun _ => rfl) fun row hrow hguard => ?_
      simp only [rewriteOwned, Bool.and_eq_true, isNone_iff_eq_none] at hguard
      obtain ⟨⟨⟨⟨hfits, -⟩, hleased⟩, hmark⟩, hlive⟩ := hguard
      have howned : OwnedBy bridgeInstanceId (preparedRecord runtime record) row := by
        refine ownedAt_ownedBy hfits ?_
        simp only [nextRecord, rebasedRecord]
        split <;> rfl
      obtain rfl := hunique.eq_of_job hcurrent hrow howned.job
      rw [preparedRecord_ownerGeneration]
      exact .noted (.rewritten _ howned rfl hterminal hrefused.1.1 hmark hleased
        (howned.owner ▸ hlive)) rfl
    split <;> exact hexec

theorem TrackedBy.persist (hunique : UniqueJobs db) (bridgeInstanceId : String)
    (record : QueueRecord) (capacityAvailable : Bool) (now : Nat) :
    TrackedBy runtime db (.persist bridgeInstanceId record capacityAvailable now) db.jobs
      (persistQueueRecord runtime db bridgeInstanceId record capacityAvailable
        now).2.2.jobs := by
  simp only [persistQueueRecord]
  split
  · rename_i hterminal
    exact .persistTerminal hunique (if_pos hterminal)
  · rename_i hterminal
    split
    · rename_i hnone
      exact .insert capacityAvailable now hnone (by simpa using hterminal)
    · rename_i hcurrent
      exact .update hunique capacityAvailable now hcurrent (by simpa using hterminal)

/-- A row found under the job id of an earlier row at the same revision is that row. -/
theorem TrackedBy.eq_of_revision {jobs jobs' : List QueueRow}
    (h : TrackedBy runtime db event jobs jobs') (hunique : (jobs.map QueueRow.jobId).Nodup)
    {row' : QueueRow} (hrow : row ∈ jobs) (hrow' : row' ∈ jobs') (hjob : row'.jobId = row.jobId)
    (hrevision : row'.revision = row.revision) : row' = row := by
  obtain ⟨later, hlater, hwrites⟩ := Evolves.lookup h.writtenBy (lookup_of_mem hunique hrow)
  have hfound := lookup_of_mem (h.2 hunique) hrow'
  rw [hjob, hlater] at hfound
  obtain rfl := Option.some.inj hfound
  rcases hwrites.eq_or_revision_lt with heq | hlt
  · exact heq
  · omega

theorem propagate_instances (childJobId : String) (terminalStatus : QueueStatus) (time : Nat) :
    (propagatePipelineTerminalInTransaction db childJobId terminalStatus time).2.instances
      = db.instances := by
  simp only [propagatePipelineTerminalInTransaction]
  split
  · rfl
  · split
    · rfl
    · split
      · split <;> rfl
      · rfl

theorem TrackedBy.reconcileRow (hunique : UniqueJobs db) {bridgeInstanceId : String}
    {tracked : List String} {now : Nat} {state : List String × QueueDb} (hrow : row ∈ db.jobs)
    (hstatus : row.status.terminal = false)
    (hwritten : TrackedBy runtime db (.reconcile bridgeInstanceId tracked now) db.jobs
      state.2.jobs) (hinstances : state.2.instances = db.instances) :
    TrackedBy runtime db (.reconcile bridgeInstanceId tracked now) db.jobs
        (reconcileRow runtime bridgeInstanceId tracked now state row).2.jobs ∧
      (reconcileRow runtime bridgeInstanceId tracked now state row).2.instances = db.instances := by
  obtain ⟨reconciled, current⟩ := state
  change current.instances = db.instances at hinstances
  simp only [Queue.reconcileRow]
  split
  · exact ⟨hwritten, hinstances⟩
  · have hexec : TrackedBy runtime db (.reconcile bridgeInstanceId tracked now) current.jobs
        ((endAbandoned current bridgeInstanceId row now).exec current.jobs) := by
      refine .exec (fun _ => rfl) fun row' hrow' hguard => ?_
      simp only [endAbandoned, Bool.and_eq_true, Bool.or_eq_true, decide_eq_true_eq] at hguard
      obtain ⟨⟨⟨⟨⟨hjob, -⟩, hrevision⟩, -⟩, hlapsed⟩, howner⟩ := hguard
      obtain rfl := hwritten.eq_of_revision hunique hrow hrow' hjob hrevision
      refine .noted (.abandoned hstatus hlapsed ?_) rfl
      simpa [QueueDb.instanceLive, hinstances] using howner
    split
    · refine ⟨hwritten.trans (hexec.trans (.propagate _ _ ?_)), ?_⟩
      · intro jobId hsubject
        simp [QueueEvent.subject] at hsubject
      · exact (propagate_instances _ _ _).trans hinstances
    · exact ⟨hwritten.trans hexec, hinstances⟩

theorem TrackedBy.reconcile (hunique : UniqueJobs db) (bridgeInstanceId : String)
    (tracked : List String) (now : Nat) :
    TrackedBy runtime db (.reconcile bridgeInstanceId tracked now) db.jobs
      (reconcileStaleQueueRecords runtime db bridgeInstanceId tracked now).2.jobs := by
  -- Induction on the rows still to be handled; the state carries the writes so far.
  have hloop : ∀ (rows : List QueueRow) (state : List String × QueueDb),
      (∀ row ∈ rows, row ∈ db.jobs ∧ row.status.terminal = false) →
      TrackedBy runtime db (.reconcile bridgeInstanceId tracked now) db.jobs state.2.jobs →
      state.2.instances = db.instances →
      TrackedBy runtime db (.reconcile bridgeInstanceId tracked now) db.jobs
        (rows.foldl (Queue.reconcileRow runtime bridgeInstanceId tracked now) state).2.jobs := by
    intro rows
    induction rows with
    | nil => exact fun _ _ hwritten _ => hwritten
    | cons row rows ih =>
      intro state hrows hwritten hinstances
      obtain ⟨hmem, hstatus⟩ := hrows row (by simp)
      have hstep := TrackedBy.reconcileRow hunique hmem hstatus hwritten hinstances
      exact ih _ (fun r hr => hrows r (by simp [hr])) hstep.1 hstep.2
  refine hloop _ _ (fun row hrow => ?_) .refl rfl
  simpa using List.mem_filter.mp hrow

theorem TrackedBy.renew (bridgeInstanceId : String) (record : QueueRecord)
    (heartbeatAt leaseExpiresAt : Nat) :
    TrackedBy runtime db (.renew bridgeInstanceId record heartbeatAt leaseExpiresAt) db.jobs
      (renewPersistedQueueRecordLease db bridgeInstanceId record heartbeatAt
        leaseExpiresAt).2.2.jobs := by
  have hexec : ∀ waitInfo,
      TrackedBy runtime db (.renew bridgeInstanceId record heartbeatAt leaseExpiresAt) db.jobs
        ((renewLease db bridgeInstanceId record waitInfo heartbeatAt leaseExpiresAt).exec
          db.jobs) := by
    refine fun waitInfo => .exec (fun _ => rfl) fun row _ hguard => ?_
    simp only [renewLease, Bool.and_eq_true, Bool.not_eq_true', isNone_iff_eq_none,
      decide_eq_true_eq] at hguard
    obtain ⟨⟨⟨⟨⟨⟨hjob, howner⟩, hgeneration⟩, hleased⟩, hstatus⟩, hmark⟩, -⟩ := hguard
    refine .silent (.renewed _ ⟨hjob, howner, hgeneration⟩ hstatus hmark hleased) ?_
    have hwrite := @SilentWrite.renewed row (some heartbeatAt) (some leaseExpiresAt)
      (if waitInfo = "" then row.recordJson.providerWaitInfo else waitInfo)
    by_cases hwait : waitInfo = ""
    · simpa [renewLease, hwait] using hwrite
    · simpa [renewLease, hwait] using hwrite
  simp only [renewPersistedQueueRecordLease]
  split_ifs <;> exact hexec _

theorem TrackedBy.reacquire (bridgeInstanceId : String) (record : QueueRecord)
    (heartbeatAt leaseExpiresAt : Nat) :
    TrackedBy runtime db (.reacquire bridgeInstanceId record heartbeatAt leaseExpiresAt) db.jobs
      (reacquirePersistedQueueRecordLease db bridgeInstanceId record heartbeatAt
        leaseExpiresAt).2.2.jobs := by
  have hexec :
      TrackedBy runtime db (.reacquire bridgeInstanceId record heartbeatAt leaseExpiresAt) db.jobs
        ((retakeLease bridgeInstanceId record heartbeatAt leaseExpiresAt).exec db.jobs) := by
    refine .exec (fun _ => rfl) fun row _ hguard => ?_
    simp only [retakeLease, Bool.and_eq_true, Bool.not_eq_true', isNone_iff_eq_none]
      at hguard
    obtain ⟨⟨howned, hstatus⟩, hmark⟩ := hguard
    have hrevision := ownedAt_revision howned
    exact .silent (.retaken (ownedAt_ownedBy howned rfl) hrevision hstatus hmark)
      (.renewed (some heartbeatAt) (some leaseExpiresAt) row.recordJson.providerWaitInfo)
  simp only [reacquirePersistedQueueRecordLease]
  split
  · exact .refl
  · split <;> exact hexec

theorem TrackedBy.claim (hunique : UniqueJobs db) (bridgeInstanceId : String) (processId : Nat)
    (freshGeneration : String) (record : QueueRecord) (heartbeatAt leaseExpiresAt : Nat) :
    TrackedBy runtime db
      (.claim bridgeInstanceId processId freshGeneration record heartbeatAt leaseExpiresAt) db.jobs
      (claimQueueRecord runtime db bridgeInstanceId processId freshGeneration record heartbeatAt
        leaseExpiresAt).2.2.jobs := by
  simp only [claimQueueRecord]
  split
  · exact .refl
  next observed hobserved =>
    obtain ⟨-, hjob⟩ := lookup_some hobserved
    split
    next parent hclosed =>
      split
      · refine .exec (fun _ => rfl) fun row hrow hguard => ?_
        obtain rfl :=
          hunique.eq_of_job hobserved hrow ((isObserved_jobId hguard).trans hjob)
        exact .silent (.orphanCancelled parent hjob (hjob ▸ hclosed))
          (.cancelled heartbeatAt
            (QueueStatus.preExecution_of_claimable (closedParent_spec hclosed).2.2.2))
      · exact .refl
    · split
      · rename_i hallowed
        rw [Bool.and_eq_true] at hallowed
        obtain ⟨hparent, hclaimable⟩ := hallowed
        split
        · refine .exec (fun _ => rfl) fun row hrow hguard => ?_
          simp only [startClaimed, Bool.and_eq_true, decide_eq_true_eq,
            isNone_iff_eq_none] at hguard
          obtain ⟨⟨⟨⟨⟨⟨⟨hjob', -⟩, hrevision⟩, howner⟩, hgeneration⟩, -⟩, hmark⟩, -⟩ := hguard
          obtain rfl := hunique.eq_of_job hobserved hrow hjob'
          simp only [rowClaimable, Bool.and_eq_true] at hclaimable
          exact .noted (.claimed _ ⟨hjob', howner, hgeneration⟩ (hjob' ▸ hparent)
            hclaimable.1.1.1.1.1 hmark) (congrArg (· + 1) hrevision.symm)
        · exact .refl
      · split <;> exact .refl

theorem TrackedBy.startupClaim (hunique : UniqueJobs db) (bridgeInstanceId : String)
    (processId : Nat) (freshGeneration jobId : String) (expectedRevision : Nat)
    (requestHasRetryPolicy : Bool) (now leaseExpiresAt : Nat) :
    TrackedBy runtime db
      (.startupClaim bridgeInstanceId processId freshGeneration jobId expectedRevision
        requestHasRetryPolicy now leaseExpiresAt) db.jobs
      (claimPersistedQueueRecordForStartup runtime db bridgeInstanceId processId freshGeneration
        jobId expectedRevision requestHasRetryPolicy now leaseExpiresAt).2.jobs := by
  simp only [claimPersistedQueueRecordForStartup]
  split
  · exact .refl
  next observed hobserved =>
    obtain ⟨-, rfl⟩ := lookup_some hobserved
    split
    · have hexec : TrackedBy runtime db
          (.startupClaim bridgeInstanceId processId freshGeneration observed.jobId
            expectedRevision requestHasRetryPolicy now leaseExpiresAt) db.jobs
          ((takeOver runtime db observed (resumedRecord bridgeInstanceId processId
            freshGeneration requestHasRetryPolicy observed now leaseExpiresAt) now).exec
            db.jobs) := by
        refine .exec (fun _ => rfl) fun row hrow hguard => ?_
        obtain rfl := hunique.eq_of_job hobserved hrow (recoverable_spec hguard).1
        exact .noted (.takenOver _ rfl hguard) rfl
      split <;> exact hexec
    · exact .refl

theorem TrackedBy.startupFailure (observed : QueueRow) (encrypted : Bool) (failedAt : Nat) :
    TrackedBy runtime db (.startupFailure observed encrypted failedAt) db.jobs
      (failPersistedQueueStartupRecovery runtime db observed encrypted failedAt).2.jobs := by
  have hexec : ∀ details, TrackedBy runtime db (.startupFailure observed encrypted failedAt)
      db.jobs ((failUnreadable runtime db observed (startupFailedRecord observed failedAt) details
        failedAt).exec db.jobs) := by
    refine fun details => .exec (fun _ => rfl) fun row hrow hguard =>
      ⟨.startupFailed _ _ hrow hguard, fun read => .inl ?_⟩
    simp only [failUnreadable, recoverable, Bool.and_eq_true, decide_eq_true_eq] at hguard
    obtain ⟨⟨⟨⟨⟨⟨hjob, hrevision⟩, hstatus⟩, -⟩, -⟩, -⟩, -⟩ := hguard
    obtain rfl := read row hrow hjob hrevision
    exact .recoveryFailed hstatus rfl rfl rfl
  simp only [failPersistedQueueStartupRecovery]
  split
  · refine (hexec _).trans (.propagate _ _ fun jobId hsubject => ?_)
    exact (Option.some.inj hsubject).symm
  · exact hexec _

theorem TrackedBy.patchSummary (hunique : UniqueJobs db) (jobId : String)
    (fields : QueueRecord → Option QueueRecord) :
    TrackedBy runtime db (.patchSummary jobId fields) db.jobs
      (patchTerminalQueueSummary db jobId fields).2.jobs := by
  simp only [patchTerminalQueueSummary]
  split
  · exact .refl
  next observed hobserved =>
    obtain ⟨-, rfl⟩ := lookup_some hobserved
    split
    · rename_i hstatus
      split
      · exact .refl
      · refine .exec (fun _ => rfl) fun row hrow hguard => ?_
        simp only [rewriteSummary, Bool.and_eq_true, decide_eq_true_eq] at hguard
        obtain rfl := hunique.eq_of_job hobserved hrow hguard.1.1
        exact .noted (.summaryRewritten _ hstatus) rfl
    · exact .refl

/-! ### The step -/

theorem queueStep_trackedBy (runtime : QueueRuntime) (hunique : UniqueJobs db)
    (event : QueueEvent) :
    TrackedBy runtime db event db.jobs (queueStep runtime db event).jobs := by
  cases event with
  | environment => exact .refl
  | persist => exact .persist hunique ..
  | persistWithEnvelope => exact .persistTerminal hunique rfl
  | cancel => exact .cancel hunique ..
  | reconcile => exact .reconcile hunique ..
  | renew => exact .renew ..
  | reacquire => exact .reacquire ..
  | claim => exact .claim hunique ..
  | startupClaim => exact .startupClaim hunique ..
  | startupFailure => exact .startupFailure ..
  | patchSummary => exact .patchSummary hunique ..

theorem queueStep_writtenBy (runtime : QueueRuntime) (hunique : UniqueJobs db)
    (event : QueueEvent) :
    WrittenBy runtime db event db.jobs (queueStep runtime db event).jobs :=
  (queueStep_trackedBy runtime hunique event).writtenBy

theorem uniqueJobs_step (db : QueueDb) (event : QueueEvent) (hunique : UniqueJobs db) :
    UniqueJobs (queueStep runtime db event) :=
  (queueStep_writtenBy runtime hunique event).2 hunique

theorem uniqueJobs_empty : UniqueJobs QueueDb.empty := List.nodup_nil

theorem queueStep_tracked (runtime : QueueRuntime) (hunique : UniqueJobs db) (event : QueueEvent)
    {jobId : String} (hrow : db.job jobId = some row) :
    ∃ row', (queueStep runtime db event).job jobId = some row' ∧
      ReflTransGen (TrackedWrite runtime db event) row row' :=
  Evolves.lookup (queueStep_trackedBy runtime hunique event) hrow

theorem queueStep_job (runtime : QueueRuntime) (hunique : UniqueJobs db) (event : QueueEvent)
    {jobId : String} (hrow : db.job jobId = some row) :
    ∃ row', (queueStep runtime db event).job jobId = some row' ∧
      QueueWrites runtime db event row row' :=
  Evolves.lookup (queueStep_writtenBy runtime hunique event) hrow

end AgentBridge.Queue
