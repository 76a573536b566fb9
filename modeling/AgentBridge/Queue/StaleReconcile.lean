import AgentBridge.Queue.Cancellation
import AgentBridge.Locks.Store

/-!
# Reconciliation of stale leases, with the locks it releases

`reconcileStaleQueueRecords` ends the rows whose owner is gone and, in the same
transaction, gives back the hard locks of those that were running. A row is ended
only on its own evidence: its lease has lapsed, and its owner is not live or is this
process without tracking the job. The one other change is the one every terminal
child causes: the siblings of an ended row are cancelled or marked, live or not.
-/

namespace AgentBridge.Queue

open Systems Locks Bool

/-- The tables the reconciliation works on: the queue and, next to it, the locks. -/
structure ReconcileDb where
  queue : QueueDb
  locks : LockDb

/-- `lockIds`: the lock the record names and the locks noted for the job and its
owner's generation. -/
def abandonedLockIds (locks : LockDb) (row : QueueRow) : List String :=
  let noted := locks.queueJobLocks.filter fun lock =>
    lock.jobId = row.jobId && lock.ownerGeneration = row.ownerGeneration
  ((if row.recordJson.lockId = "" then [] else [row.recordJson.lockId])
    ++ noted.map QueueJobLock.lockId).eraseDups

def releaseAbandonedLocks (locks : LockDb) (row : QueueRow) (now : Nat) : LockDb :=
  (abandonedLockIds locks row).foldl (fun locks lockId => releaseQueueJobLocks locks lockId now)
    locks

variable (runtime : QueueRuntime)

/-- One row of the loop of `reconcileStaleQueueRecords`, locks included. -/
def reconcileRowAndLocks (bridgeInstanceId : String) (tracked : List String) (now : Nat)
    (state : List String × ReconcileDb) (row : QueueRow) : List String × ReconcileDb :=
  let (reconciled, db) := state
  if passedOver runtime db.queue bridgeInstanceId tracked now row then state
  else
    let update := endAbandoned db.queue bridgeInstanceId row now
    let queue := { db.queue with jobs := update.exec db.queue.jobs }
    if 0 < update.changes db.queue.jobs then
      (reconciled ++ [row.jobId],
        { queue :=
            (propagatePipelineTerminalInTransaction queue row.jobId (abandonedStatus row) now).2
          locks :=
            if row.status.active then releaseAbandonedLocks db.locks row now else db.locks })
    else (reconciled, { db with queue := queue })

/-- `reconcileStaleQueueRecords`, locks included. -/
def reconcileStaleQueueRecordsAndLocks (db : ReconcileDb) (bridgeInstanceId : String)
    (tracked : List String) (now : Nat) : List String × ReconcileDb :=
  (db.queue.jobs.filter fun row => !row.status.terminal).foldl
    (reconcileRowAndLocks runtime bridgeInstanceId tracked now) ([], db)

variable {runtime} {db : ReconcileDb} {bridgeInstanceId : String} {tracked : List String}
variable {now : Nat}

/-! ### The queue half is the reconciliation of the queue -/

theorem reconcileRowAndLocks_queue (state : List String × ReconcileDb) (row : QueueRow) :
    let next := reconcileRowAndLocks runtime bridgeInstanceId tracked now state row
    (next.1, next.2.queue)
      = reconcileRow runtime bridgeInstanceId tracked now (state.1, state.2.queue) row := by
  obtain ⟨reconciled, db⟩ := state
  simp only [reconcileRowAndLocks, reconcileRow]
  split
  · rfl
  · split <;> rfl

theorem reconcileStaleQueueRecordsAndLocks_queue :
    (reconcileStaleQueueRecordsAndLocks runtime db bridgeInstanceId tracked now).2.queue
      = (reconcileStaleQueueRecords runtime db.queue bridgeInstanceId tracked now).2 := by
  have hloop : ∀ (rows : List QueueRow) (state : List String × ReconcileDb),
      let next := rows.foldl (reconcileRowAndLocks runtime bridgeInstanceId tracked now) state
      (next.1, next.2.queue) = rows.foldl (reconcileRow runtime bridgeInstanceId tracked now)
        (state.1, state.2.queue) := by
    intro rows
    induction rows with
    | nil => exact fun _ => rfl
    | cons row rows ih =>
      intro state
      have hrow : _ = reconcileRow runtime bridgeInstanceId tracked now
        (state.1, state.2.queue) row := reconcileRowAndLocks_queue state row
      simp only [List.foldl_cons]
      rw [← hrow]
      exact ih _
  exact congrArg Prod.snd (hloop _ ([], db))

/-! ### Quarantined locks -/

theorem quarantined_mem_releaseQueueJobLocks {locks : LockDb} {lock : LockRow}
    (hlock : lock ∈ locks.locks) (hquarantined : lock.expiresAt = maxSafeInteger)
    (lockId : String) : lock ∈ (releaseQueueJobLocks locks lockId now).locks := by
  simp [releaseQueueJobLocks, hlock, hquarantined]

theorem quarantined_mem_releaseAbandonedLocks {locks : LockDb} {lock : LockRow}
    (hlock : lock ∈ locks.locks) (hquarantined : lock.expiresAt = maxSafeInteger)
    (row : QueueRow) : lock ∈ (releaseAbandonedLocks locks row now).locks := by
  have hloop : ∀ (lockIds : List String) (locks : LockDb), lock ∈ locks.locks →
      lock ∈ (lockIds.foldl (fun locks lockId => releaseQueueJobLocks locks lockId now)
        locks).locks := by
    intro lockIds
    induction lockIds with
    | nil => exact fun _ h => h
    | cons lockId lockIds ih =>
      exact fun locks h => ih _ (quarantined_mem_releaseQueueJobLocks h hquarantined lockId)
  exact hloop _ _ hlock

theorem quarantined_mem_reconcile {lock : LockRow} (hlock : lock ∈ db.locks.locks)
    (hquarantined : lock.expiresAt = maxSafeInteger) :
    lock ∈ (reconcileStaleQueueRecordsAndLocks runtime db bridgeInstanceId tracked
      now).2.locks.locks := by
  refine List.foldlRecOn _ _
    (motive := fun (state : List String × ReconcileDb) => lock ∈ state.2.locks.locks) hlock ?_
  intro state hstate row _
  simp only [reconcileRowAndLocks]
  split
  · exact hstate
  · split
    · dsimp only
      split
      · exact quarantined_mem_releaseAbandonedLocks hstate hquarantined row
      · exact hstate
    · exact hstate

/-! ### What happens to a row -/

/-- The row's own evidence: its lease has lapsed, this process does not track the job,
and its owner is not live, unless that owner is this process itself. -/
structure Abandoned (db : QueueDb) (bridgeInstanceId : String) (tracked : List String) (now : Nat)
    (row : QueueRow) : Prop where
  status : row.status.terminal = false
  lapsed : leaseLapsed row now = true
  untracked : tracked.contains row.jobId = false
  owner : row.ownerInstanceId = bridgeInstanceId ∨
    db.instanceLive row.ownerInstanceId now = false

/-- Two different jobs of one pipeline. -/
def Siblings (db : QueueDb) (childJobId jobId : String) : Prop :=
  ∃ pipelineId, isChildOf db pipelineId childJobId = true ∧
    isSibling db pipelineId childJobId jobId = true

/-- What one pass can make of a row. -/
inductive Reconciled (db : QueueDb) (bridgeInstanceId : String) (tracked : List String)
    (now : Nat) : QueueRow → QueueRow → Prop where
  | untouched (row : QueueRow) : Reconciled db bridgeInstanceId tracked now row row
  | ended {row : QueueRow} (abandoned : Abandoned db bridgeInstanceId tracked now row) :
      Reconciled db bridgeInstanceId tracked now row
        ((endAbandoned db bridgeInstanceId row now).set row)
  | siblingCancelled {row child : QueueRow} (mem : child ∈ db.jobs)
      (abandoned : Abandoned db bridgeInstanceId tracked now child)
      (siblings : Siblings db child.jobId row.jobId)
      (status : row.status.preExecution = true) :
      Reconciled db bridgeInstanceId tracked now row (cancelledByPipeline row now)
  | siblingMarked {row child : QueueRow} (marks : Nat) (mem : child ∈ db.jobs)
      (abandoned : Abandoned db bridgeInstanceId tracked now child)
      (siblings : Siblings db child.jobId row.jobId)
      (status : row.status.active = true) :
      Reconciled db bridgeInstanceId tracked now row
        ((fun row => markedByPipeline row now)^[marks + 1] row)

theorem marked_iterate (now marks : Nat) (row : QueueRow) :
    let marked := (fun row => markedByPipeline row now)^[marks] row
    marked.jobId = row.jobId ∧ marked.status = row.status ∧
      marked.revision = row.revision + marks := by
  induction marks with
  | zero => simp
  | succ marks ih =>
    obtain ⟨hjob, hstatus, hrevision⟩ := ih
    simp only [Function.iterate_succ_apply']
    refine ⟨hjob, hstatus, ?_⟩
    calc
      _ = ((fun row => markedByPipeline row now)^[marks] row).revision + 1 := rfl
      _ = row.revision + (marks + 1) := by omega

namespace Reconciled

variable {queue : QueueDb} {row row' : QueueRow}

section

variable (h : Reconciled queue bridgeInstanceId tracked now row row')

include h

theorem jobId : row'.jobId = row.jobId := by
  cases h with
  | untouched => rfl
  | ended => rfl
  | siblingCancelled => rfl
  | siblingMarked marks => exact (marked_iterate _ _ _).1

/-- A row the pass wrote is terminal or at a later revision. -/
theorem untouched_or : row' = row ∨ row'.status.terminal = true ∨ row.revision < row'.revision := by
  cases h with
  | untouched => exact .inl rfl
  | ended => exact .inr (.inl (abandonedStatus_terminal row))
  | siblingCancelled => exact .inr (.inl rfl)
  | siblingMarked marks =>
    have hrevision := (marked_iterate now (marks + 1) row).2.2
    exact .inr (.inr (by omega))

/-- A row that is still to be started is the one the pass read. -/
theorem eq_of_preExecution (hstatus : row'.status.preExecution = true) : row' = row := by
  cases h with
  | untouched => rfl
  | ended =>
    have hended := abandonedStatus_terminal row
    have hopen := QueueStatus.terminal_eq_false_of_preExecution hstatus
    exact absurd (hended.symm.trans hopen) (by decide)
  | siblingCancelled => simp [cancelledByPipeline, QueueStatus.preExecution] at hstatus
  | siblingMarked marks _ _ _ hactive =>
    have hsame := (marked_iterate now (marks + 1) row).2.1
    cases hrow : row.status <;> simp_all [QueueStatus.preExecution, QueueStatus.active]

theorem marks_of_active (hstatus : row'.status.active = true) :
    row.status.active = true ∧
      ∃ marks, row' = (fun row => markedByPipeline row now)^[marks] row := by
  cases h with
  | untouched => exact ⟨hstatus, 0, rfl⟩
  | ended =>
    have hended := abandonedStatus_terminal row
    have hopen := QueueStatus.terminal_eq_false_of_active hstatus
    exact absurd (hended.symm.trans hopen) (by decide)
  | siblingCancelled => simp [cancelledByPipeline, QueueStatus.active] at hstatus
  | siblingMarked marks _ _ _ hactive => exact ⟨hactive, marks + 1, rfl⟩

end

end Reconciled

/-! ### One row of the pass -/

/-- The queue after some rows of the pass over `db`. -/
structure Reconciling (db : QueueDb) (bridgeInstanceId : String) (tracked : List String)
    (now : Nat) (current : QueueDb) : Prop where
  instances : current.instances = db.instances
  children : current.children = db.children
  rows : Evolves QueueRow.jobId (Reconciled db bridgeInstanceId tracked now) (fun _ => False)
    db.jobs current.jobs

theorem propagate_children (queue : QueueDb) (childJobId : String)
    (terminalStatus : QueueStatus) (time : Nat) :
    (propagatePipelineTerminalInTransaction queue childJobId terminalStatus time).2.children
      = queue.children := by
  simp only [propagatePipelineTerminalInTransaction]
  split
  · rfl
  · split
    · rfl
    · split
      · split <;> rfl
      · rfl

section Pass

variable {queue current : QueueDb} {row : QueueRow}

section

variable (h : Reconciling queue bridgeInstanceId tracked now current)

include h

theorem Reconciling.read_row (hunique : UniqueJobs queue) (hrow : row ∈ queue.jobs)
    (hstatus : row.status.terminal = false) {origin row' : QueueRow} (horigin : origin ∈ queue.jobs)
    (hreconciled : Reconciled queue bridgeInstanceId tracked now origin row')
    (hguard : (endAbandoned current bridgeInstanceId row now).guard row' = true)
    (huntracked : tracked.contains row.jobId = false) :
    origin = row ∧ row' = row ∧ Abandoned queue bridgeInstanceId tracked now row := by
  simp only [endAbandoned, and_eq_true, or_eq_true, not_eq_true',
    decide_eq_true_eq] at hguard
  obtain ⟨⟨⟨⟨⟨hjob, hsame⟩, hrevision⟩, -⟩, hlapsed⟩, howner⟩ := hguard
  have hids : origin.jobId = row.jobId := hreconciled.jobId.symm.trans hjob
  have heq : origin = row := (hunique.eq_of_job (hunique.job_eq horigin) hrow hids.symm).symm
  subst heq
  cases hreconciled.untouched_or with
  | inl huntouched =>
    subst huntouched
    refine ⟨rfl, rfl, hstatus, hlapsed, huntracked, ?_⟩
    simpa only [QueueDb.instanceLive, h.instances] using howner
  | inr hwritten =>
    cases hwritten with
    | inl hterminal =>
      rw [hsame, hstatus] at hterminal
      cases hterminal
    | inr hlater => omega

theorem Reconciling.endRow (hunique : UniqueJobs queue) (hrow : row ∈ queue.jobs)
    (hstatus : row.status.terminal = false) (huntracked : tracked.contains row.jobId = false) :
    Reconciling queue bridgeInstanceId tracked now
      { current with
        jobs := (endAbandoned current bridgeInstanceId row now).exec current.jobs } where
  instances := h.instances
  children := h.children
  rows := by
    refine h.rows.exec_after (fun _ => rfl) ?_
    intro origin row' horigin _ hreconciled hguard
    have hmem : origin ∈ queue.jobs := horigin.resolve_right id
    obtain ⟨rfl, rfl, habandoned⟩ :=
      h.read_row hunique hrow hstatus hmem hreconciled hguard huntracked
    exact .ended habandoned

theorem Reconciling.propagate (hrow : row ∈ queue.jobs)
    (habandoned : Abandoned queue bridgeInstanceId tracked now row) (terminalStatus : QueueStatus) :
    Reconciling queue bridgeInstanceId tracked now
      (propagatePipelineTerminalInTransaction current row.jobId terminalStatus now).2 where
  instances := (propagate_instances _ _ _).trans h.instances
  children := (propagate_children _ _ _ _).trans h.children
  rows := by
    have hsiblings : ∀ relation, current.children.find? (fun relation =>
          relation.jobId = row.jobId) = some relation → ∀ jobId,
        isSibling current relation.pipelineId row.jobId jobId = true →
        Siblings queue row.jobId jobId := by
      intro relation hfind jobId hsibling
      have hmem := List.mem_of_find?_eq_some hfind
      have hjob : relation.jobId = row.jobId := by simpa using List.find?_some hfind
      refine ⟨relation.pipelineId, ?_, ?_⟩
      · simp only [isChildOf, ← h.children, List.any_eq_true]
        exact ⟨relation, hmem, by simp [hjob]⟩
      · simpa only [isSibling, isChildOf, h.children] using hsibling
    have hend : ∀ relation, current.children.find? (fun relation =>
          relation.jobId = row.jobId) = some relation →
        Evolves QueueRow.jobId (Reconciled queue bridgeInstanceId tracked now) (fun _ => False)
          queue.jobs (endSiblings current relation.pipelineId row.jobId now) := by
      intro relation hfind
      have hcancel : Evolves QueueRow.jobId (Reconciled queue bridgeInstanceId tracked now)
          (fun _ => False) queue.jobs
          ((cancelSiblings current relation.pipelineId row.jobId now).exec current.jobs) := by
        refine h.rows.exec_after (fun _ => rfl) ?_
        intro origin row' _ _ hreconciled hguard
        simp only [cancelSiblings, and_eq_true] at hguard
        obtain rfl := hreconciled.eq_of_preExecution hguard.2
        exact .siblingCancelled hrow habandoned (hsiblings relation hfind _ hguard.1) hguard.2
      refine hcancel.exec_after (fun _ => rfl) ?_
      intro origin row' _ _ hreconciled hguard
      simp only [markSiblings, and_eq_true] at hguard
      have hids := hreconciled.jobId
      obtain ⟨hactive, marks, rfl⟩ := hreconciled.marks_of_active hguard.2
      rw [hids] at hguard
      have hmarked := Reconciled.siblingMarked marks hrow habandoned
        (hsiblings relation hfind _ hguard.1) hactive
      rwa [Function.iterate_succ_apply'] at hmarked
    simp only [propagatePipelineTerminalInTransaction]
    split
    · exact h.rows
    · rename_i relation hfind
      split
      · exact h.rows
      · split
        · split
          · exact h.rows
          · exact hend relation hfind
        · exact h.rows

theorem Reconciling.reconcileRow (hunique : UniqueJobs queue) (hrow : row ∈ queue.jobs)
    (hstatus : row.status.terminal = false) (reconciled : List String) :
    Reconciling queue bridgeInstanceId tracked now
      (reconcileRow runtime bridgeInstanceId tracked now (reconciled, current) row).2 := by
  simp only [Queue.reconcileRow]
  split
  · exact h
  · rename_i hpassed
    have huntracked : tracked.contains row.jobId = false := by
      simp only [passedOver, not_eq_true, or_eq_false_iff] at hpassed
      exact hpassed.1.1
    have hended := h.endRow hunique hrow hstatus huntracked
    split
    · rename_i hchanged
      refine hended.propagate hrow ?_ _
      obtain ⟨row', hrow', hguard⟩ := List.countP_pos_iff.mp hchanged
      cases h.rows.origin hrow' with
      | inl horigin =>
        obtain ⟨origin, horigin, hreconciled⟩ := horigin
        exact (h.read_row hunique hrow hstatus horigin hreconciled hguard huntracked).2.2
      | inr hnew =>
        obtain ⟨_, hfalse, _⟩ := hnew
        exact hfalse.elim
    · exact hended

end

theorem reconciling_pass (hunique : UniqueJobs queue) :
    Reconciling queue bridgeInstanceId tracked now
      (reconcileStaleQueueRecords runtime queue bridgeInstanceId tracked now).2 := by
  have hloop : ∀ (rows : List QueueRow) (state : List String × QueueDb),
      (∀ row ∈ rows, row ∈ queue.jobs ∧ row.status.terminal = false) →
      Reconciling queue bridgeInstanceId tracked now state.2 →
      Reconciling queue bridgeInstanceId tracked now
        (rows.foldl (Queue.reconcileRow runtime bridgeInstanceId tracked now) state).2 := by
    intro rows
    induction rows with
    | nil => exact fun _ _ h => h
    | cons row rows ih =>
      intro state hrows h
      obtain ⟨hmem, hstatus⟩ := hrows row (by simp)
      exact ih _ (fun r hr => hrows r (by simp [hr]))
        (h.reconcileRow hunique hmem hstatus state.1)
  refine hloop _ _ ?_ ⟨rfl, rfl, .refl .untouched⟩
  intro row hrow
  simpa using List.mem_filter.mp hrow

end Pass

/-- A reconciliation of stale leases changes a row only on the row's own evidence that
it was abandoned, or as the sibling of a row it ended on such evidence; and every
quarantined lock row stays. -/
theorem stale_reconciliation_safe (db : ReconcileDb) (hunique : UniqueJobs db.queue)
    (bridgeInstanceId : String) (tracked : List String) (now : Nat) :
    let after := (reconcileStaleQueueRecordsAndLocks runtime db bridgeInstanceId tracked now).2
    (∀ row ∈ db.queue.jobs, ∃ row', after.queue.job row.jobId = some row' ∧
      Reconciled db.queue bridgeInstanceId tracked now row row') ∧
    ∀ lock ∈ db.locks.locks, lock.expiresAt = maxSafeInteger → lock ∈ after.locks.locks := by
  intro after
  refine ⟨?_, fun lock hlock hquarantined => quarantined_mem_reconcile hlock hquarantined⟩
  intro row hrow
  have hpass : Reconciling db.queue bridgeInstanceId tracked now after.queue := by
    have hqueue : after.queue = _ := reconcileStaleQueueRecordsAndLocks_queue
    rw [hqueue]
    exact reconciling_pass hunique
  exact hpass.rows.lookup (lookup_of_mem hunique hrow)

/-! ### A live sibling -/

/-- A batch of two: `first` ran on a bridge that is gone, `second` waits on a live one
under a lease it keeps renewing. -/
def haltedBatch : ReconcileDb where
  queue :=
    { jobs :=
        [{ insertedRow plainRuntime (enqueuedRecord "first" "gone" "generation-1" 0 10) with
            status := .running },
          insertedRow plainRuntime (enqueuedRecord "second" "live" "generation-2" 0 100)]
      instances := [⟨"gone", 10⟩, ⟨"live", 100⟩]
      pipelines := [⟨"pipeline", .running, .released⟩]
      children := [⟨"pipeline", "first"⟩, ⟨"pipeline", "second"⟩] }
  locks :=
    { locks :=
        [{ normalizedPath := "lib".toList
           ownerAgent := "writer"
           acquisitionOrigin := .internal
           runId := "lock"
           token := "token"
           lockMode := .write
           expiresAt := maxSafeInteger
           createdAt := 0
           cwd := ["checkout".toList]
           task := "task"
           editsCheckout := some true }]
      runs := []
      queueJobLocks := [⟨"lock", "first", "generation-1"⟩]
      activeOwners := []
      operations := [] }

theorem stale_reconciliation_safe_haltedBatch :
    let after :=
      (reconcileStaleQueueRecordsAndLocks plainRuntime haltedBatch "sweeper" [] 50).2
    (∀ row ∈ haltedBatch.queue.jobs, ∃ row', after.queue.job row.jobId = some row' ∧
      Reconciled haltedBatch.queue "sweeper" [] 50 row row') ∧
    ∀ lock ∈ haltedBatch.locks.locks, lock.expiresAt = maxSafeInteger →
      lock ∈ after.locks.locks :=
  stale_reconciliation_safe haltedBatch (by unfold UniqueJobs; decide) "sweeper" [] 50

/-- The live sibling of an abandoned job is cancelled with it, under its own unexpired
lease and its live owner. -/
theorem live_sibling_cancelled :
    ¬ ∀ (db : ReconcileDb) (bridgeInstanceId : String) (tracked : List String) (now : Nat),
      UniqueJobs db.queue → ∀ row ∈ db.queue.jobs,
        (reconcileStaleQueueRecordsAndLocks plainRuntime db bridgeInstanceId tracked
          now).2.queue.job row.jobId = some row ∨
        Abandoned db.queue bridgeInstanceId tracked now row := by
  intro h
  have hsecond := h haltedBatch "sweeper" [] 50 (by unfold UniqueJobs; decide)
    (insertedRow plainRuntime (enqueuedRecord "second" "live" "generation-2" 0 100))
    (by simp [haltedBatch])
  cases hsecond with
  | inl huntouched => exact absurd huntouched (by decide)
  | inr habandoned => exact absurd habandoned.lapsed (by decide)

end AgentBridge.Queue
