import AgentBridge.Locks.Quarantine

/-!
# Bookkeeping of the lock tables

`locks`, `runs` and `queue_job_locks` are kept in step by the transactions of
`lib/locks.js`, of the queue's reconciliation and of the quarantine reclaim. Two
procedures change them outside a transaction, one committed statement after the
other: the listing `listLocks` expires locks on a plain connection, and a failed
acquisition removes what its `COMMIT` may have made durable. Any other process
may run between two such statements, and the rest may never run.

A process acts on a lock only under the run id and token that an acquisition
gave it, on a protection only with a receipt it was given, and reclaims a
quarantine only after it read the record it found over.
-/

namespace AgentBridge

/-- A run that should still hold something. -/
def RunStatus.holding : RunStatus → Bool
  | .running | .quarantined => true
  | .released | .expired | .quarantineReleased => false

/-- A run that should hold nothing any more. -/
def RunStatus.ended : RunStatus → Bool
  | .released | .expired => true
  | .running | .quarantined | .quarantineReleased => false

namespace Locks

open Paths Systems

/-! ### Consistency -/

def HasRow (locks : List LockRow) (runId : String) : Prop :=
  ∃ row ∈ locks, row.runId = runId

instance (locks : List LockRow) (runId : String) : Decidable (HasRow locks runId) :=
  inferInstanceAs (Decidable (∃ row ∈ locks, row.runId = runId))

/-- The three tables tell the same story. -/
structure Consistent (db : LockDb) : Prop where
  associated : ∀ association ∈ db.queueJobLocks, HasRow db.locks association.lockId
  held : ∀ run ∈ db.runs, run.status.holding → HasRow db.locks run.runId
  rowless : ∀ run ∈ db.runs, run.status.ended → ¬ HasRow db.locks run.runId

instance (db : LockDb) : Decidable (Consistent db) :=
  decidable_of_iff
    ((∀ association ∈ db.queueJobLocks, HasRow db.locks association.lockId) ∧
      (∀ run ∈ db.runs, run.status.holding → HasRow db.locks run.runId) ∧
      ∀ run ∈ db.runs, run.status.ended → ¬ HasRow db.locks run.runId)
    ⟨fun h => ⟨h.1, h.2.1, h.2.2⟩, fun h => ⟨h.associated, h.held, h.rowless⟩⟩

/-! ### Statements outside a transaction -/

/-- What is left of a procedure that commits each of its statements by itself. -/
inductive Autocommit where
  /-- `expireLocksFromDb` after its `SELECT`. -/
  | expireRows (now : Timestamp) (expiredRunIds : List String)
  | sweepAssociations (now : Timestamp) (left expiredRunIds : List String)
  | markExpired (now : Timestamp) (left : List String)
  /-- The cleanup of a failed acquisition. -/
  | discardRows (runId token : String) (queued : Bool) (now : Timestamp)
  | markReleased (runId : String) (queued : Bool) (now : Timestamp)
  | dropAssociation (runId : String)

/-- `SELECT DISTINCT run_id FROM locks WHERE expires_at <= ?` -/
def lapsedRunIds (db : LockDb) (now : Nat) : List String :=
  ((db.locks.filter (·.expiresAt ≤ now)).map (·.runId)).eraseDups

variable (runtime : LockRuntime)

/-- The rows that the next statement deletes from `locks`. -/
def Autocommit.removes : Autocommit → LockRow → Bool
  | .expireRows now _, row => row.expiresAt ≤ now
  | .discardRows runId token _ _, row =>
    row.runId = runId ∧ row.token = tokenSha256 runtime token
  | _, _ => false

/-- The rows that the next statement leaves. -/
def Autocommit.kept (statements : Autocommit) (db : LockDb) : List LockRow :=
  db.locks.filter fun row => !statements.removes runtime row

/-- `DELETE FROM queue_job_locks WHERE lock_id = ? AND NOT EXISTS (…)` -/
def sweepAssociation (db : LockDb) (runId : String) : LockDb :=
  { db with
    queueJobLocks := db.queueJobLocks.filter fun association =>
      ¬ (association.lockId = runId ∧ hasLockRow db.locks association.lockId = false) }

/-- `UPDATE runs SET status = 'expired' … AND NOT EXISTS (…)` -/
def markRunExpired (db : LockDb) (runId : String) (now : Nat) : LockDb :=
  { db with
    runs := db.runs.map fun run =>
      if run.runId = runId ∧ run.status = .running ∧ hasLockRow db.locks run.runId = false then
        { run with status := .expired, finishedAt := some (run.finishedAt.getD now) }
      else run }

/-- `UPDATE runs SET status = 'released' … AND status = 'running'` -/
def markRunReleased (db : LockDb) (runId : String) (now : Nat) : LockDb :=
  { db with
    runs := db.runs.map fun run =>
      if run.runId = runId ∧ run.status = .running then
        { run with status := .released, finishedAt := some now }
      else run }

/-- Execute the next statement. -/
def Autocommit.advance (db : LockDb) : Autocommit → LockDb × Option Autocommit
  | .expireRows now expiredRunIds =>
    ({ db with locks := (Autocommit.expireRows now expiredRunIds).kept runtime db },
      some (.sweepAssociations now expiredRunIds expiredRunIds))
  | .sweepAssociations now [] expiredRunIds => (db, some (.markExpired now expiredRunIds))
  | .sweepAssociations now (runId :: left) expiredRunIds =>
    (sweepAssociation db runId, some (.sweepAssociations now left expiredRunIds))
  | .markExpired _ [] => (db, none)
  | .markExpired now (runId :: left) => (markRunExpired db runId now, some (.markExpired now left))
  | .discardRows runId token queued now =>
    ({ db with locks := (Autocommit.discardRows runId token queued now).kept runtime db },
      some (.markReleased runId queued now))
  | .markReleased runId queued now =>
    (markRunReleased db runId now, if queued then some (.dropAssociation runId) else none)
  | .dropAssociation runId =>
    ({ db with queueJobLocks := db.queueJobLocks.filter (·.lockId ≠ runId) }, none)

/-! ### Processes -/

/-- The lock tables, what processes hold in memory, and their open procedures. -/
structure Bookkeeping where
  db : LockDb
  /-- Run id and token of every acquisition that tried to commit. -/
  issued : List (String × String)
  receipts : List FinalizerReceipt
  /-- Run id and containment text of the quarantines that reclaims have read. -/
  observed : List (String × String)
  unfinished : List Autocommit

inductive BookkeepingEvent where
  | transaction (event : ContainmentEvent)
  /-- An acquisition whose `COMMIT` reports an error. -/
  | acquireUnconfirmed (args : AcquireArgs) (input : AcquireInput) (durable : Bool)
      (now : Timestamp)
  | selectQuarantines
  | selectLapsed (now : Timestamp)
  | statement (index : Nat)

/-- Only a record marked complete is ever found over; a missing text does not parse. -/
def completeContainment (containment : String) : Bool :=
  containment ≠ "" ∧ (runtime.parseContainment containment).any (·.complete)

def Bookkeeping.Issued (s : Bookkeeping) (lock : HeldLock) : Prop :=
  (lock.id, lock.token) ∈ s.issued

instance (s : Bookkeeping) (lock : HeldLock) : Decidable (s.Issued lock) :=
  inferInstanceAs (Decidable (_ ∈ _))

/-- Run ids are fresh. -/
def Bookkeeping.Fresh (s : Bookkeeping) (runId : String) : Prop :=
  runId ∉ s.issued.map (·.1)

instance (s : Bookkeeping) (runId : String) : Decidable (s.Fresh runId) :=
  inferInstanceAs (Decidable (_ ∉ _))

/-- The transactions some process has what it needs for. -/
def Bookkeeping.Authorized (s : Bookkeeping) : ContainmentEvent → Prop
  | .lock (.acquire _ input) => s.Fresh input.runId
  | .lock (.discardFailedAcquire ..) => False
  | .lock (.heartbeat lock _ _) | .lock (.beginProtection lock ..) => s.Issued lock
  | .lock (.restoreReadLease lock receipt _ _) => s.Issued lock ∧ receipt ∈ s.receipts
  | .lock (.reclaim runId _) =>
    ∃ read ∈ s.observed, read.1 = runId ∧ completeContainment runtime read.2
  | .lock (.release ..) | .lock (.expire _) | .lock (.releaseQueueJob ..)
  | .lock (.pruneRuns _) | .lock (.external ..) => True
  | .quarantine lock _ _ expectedProtection _ =>
    s.Issued lock ∧ ∀ receipt ∈ expectedProtection, receipt ∈ s.receipts

instance (s : Bookkeeping) :
    (event : ContainmentEvent) → Decidable (s.Authorized runtime event)
  | .lock (.acquire _ input) => inferInstanceAs (Decidable (s.Fresh input.runId))
  | .lock (.discardFailedAcquire ..) => isFalse id
  | .lock (.heartbeat lock _ _) => inferInstanceAs (Decidable (s.Issued lock))
  | .lock (.beginProtection lock ..) => inferInstanceAs (Decidable (s.Issued lock))
  | .lock (.restoreReadLease ..) => inferInstanceAs (Decidable (_ ∧ _))
  | .lock (.reclaim runId _) =>
    inferInstanceAs (Decidable (∃ read ∈ s.observed, read.1 = runId ∧
      completeContainment runtime read.2))
  | .lock (.release ..) | .lock (.expire _) | .lock (.releaseQueueJob ..)
  | .lock (.pruneRuns _) | .lock (.external ..) => isTrue trivial
  | .quarantine lock _ _ expectedProtection _ =>
    inferInstanceAs (Decidable (s.Issued lock ∧ ∀ receipt ∈ expectedProtection,
      receipt ∈ s.receipts))

/-- What a transaction leaves in the memory of its process. -/
def Bookkeeping.remember (s : Bookkeeping) : ContainmentEvent → Bookkeeping
  | .lock (.acquire args input) =>
    match (acquireHardLock runtime s.db args input).1 with
    | .ok lock => { s with issued := (lock.id, lock.token) :: s.issued }
    | .error _ => s
  | .lock (.beginProtection lock containment now worktreesOff recoveryBlocked) =>
    match (beginFinalizerValidationProtection runtime s.db lock containment now worktreesOff
      recoveryBlocked).1 with
    | .ok receipt => { s with receipts := receipt :: s.receipts }
    | .error _ => s
  | _ => s

/-- The quarantines a reclaim reads, joined with the texts of their runs. -/
def quarantineReads (db : LockDb) : List (String × String) :=
  (db.locks.filter (·.expiresAt = maxSafeInteger)).map fun row =>
    (row.runId, ((db.runs.find? (·.runId = row.runId)).map (·.containment)).getD "")

def bookkeepingStep (s : Bookkeeping) : BookkeepingEvent → Bookkeeping
  | .transaction event =>
    if s.Authorized runtime event then
      { s.remember runtime event with db := containmentStep runtime s.db event }
    else s
  | .acquireUnconfirmed args input durable now =>
    if s.Fresh input.runId then
      match acquireHardLock runtime s.db args input with
      | (.ok lock, db) =>
        { s with
          db := if durable then db else s.db
          issued := (lock.id, lock.token) :: s.issued
          unfinished := s.unfinished ++
            [.discardRows lock.id lock.token args.queueOwner.isSome now] }
      | (.error _, _) => s
    else s
  | .selectQuarantines => { s with observed := s.observed ++ quarantineReads s.db }
  | .selectLapsed now =>
    { s with unfinished := s.unfinished ++ [.expireRows now (lapsedRunIds s.db now)] }
  | .statement index =>
    match s.unfinished[index]? with
    | none => s
    | some statements =>
      { s with
        db := (statements.advance runtime s.db).1
        unfinished := s.unfinished.eraseIdx index ++
          (statements.advance runtime s.db).2.toList }

def emptyBookkeeping : Bookkeeping := ⟨emptyLockDb, [], [], [], []⟩

/-- No run that holds something and no association depends on the run. -/
def Unclaimed (db : LockDb) (runId : String) : Prop :=
  (∀ run ∈ db.runs, run.runId = runId → run.status.holding = false) ∧
    ∀ association ∈ db.queueJobLocks, association.lockId ≠ runId

instance (db : LockDb) (runId : String) : Decidable (Unclaimed db runId) :=
  inferInstanceAs (Decidable ((∀ run ∈ db.runs, run.runId = runId → run.status.holding = false) ∧
    ∀ association ∈ db.queueJobLocks, association.lockId ≠ runId))

/-- The next statement does not delete the last row of a run that is running or
quarantined, or that an association names. -/
def KeepsLastRows (db : LockDb) (statements : Autocommit) : Prop :=
  ∀ row ∈ db.locks, statements.removes runtime row →
    HasRow (statements.kept runtime db) row.runId ∨ Unclaimed db row.runId

instance (db : LockDb) (statements : Autocommit) :
    Decidable (KeepsLastRows runtime db statements) :=
  inferInstanceAs (Decidable (∀ row ∈ db.locks, statements.removes runtime row →
    HasRow (statements.kept runtime db) row.runId ∨ Unclaimed db row.runId))

/-- Only a statement outside a transaction has something to keep. -/
def LastRowsKept (s : Bookkeeping) : BookkeepingEvent → Prop
  | .statement index => ∀ statements ∈ s.unfinished[index]?, KeepsLastRows runtime s.db statements
  | .transaction _ | .acquireUnconfirmed .. | .selectQuarantines | .selectLapsed _ => True

instance (s : Bookkeeping) : (event : BookkeepingEvent) → Decidable (LastRowsKept runtime s event)
  | .statement index =>
    inferInstanceAs (Decidable (∀ statements ∈ s.unfinished[index]?,
      KeepsLastRows runtime s.db statements))
  | .transaction _ | .acquireUnconfirmed .. | .selectQuarantines | .selectLapsed _ => isTrue trivial

end Locks

end AgentBridge
