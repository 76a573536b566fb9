import AgentBridge.Locks.Bookkeeping
import AgentBridge.Systems.Transaction

/-!
# Acquisitions that fail

The transaction of `acquireHardLock`, statement by statement: the database may throw at any of
them, and its `COMMIT` may report an error although the rows are durable. Then the call removes
what it inserted, by its run id and fresh token, with statements that commit one by one and can
fail as well.

Without faults the statements do what the transaction of the lock store does.
-/

namespace AgentBridge.Locks

open Paths Systems List

inductive AcquireStatement where
  | selectUnresolved
  | listLocks
  | insertRun
  | insertLock (path : PathText)
  | selectJob (owner : QueueOwner)
  | insertJobLock (owner : QueueOwner)
  /-- The listing that the caller is given, inside the transaction. -/
  | listAgain

variable (runtime : LockRuntime) (args : AcquireArgs) (input : AcquireInput)

section

variable (lockType : LockType)

def uniqueConstraintFailed : Refusal :=
  ⟨"lock_database_failed", "Write lock rejected: UNIQUE constraint failed"⟩

def AcquireStatement.exec : AcquireStatement → LockDb → Except Refusal LockDb
  | .selectUnresolved, db =>
    if lockType ≠ .read ∧ args.recoveryAuthority = false ∧
        (unresolvedOperation db args.cwd).isSome then
      .error ⟨"integration_recovery_pending", "Repository mutation is blocked by an unresolved durable integration operation."⟩
    else .ok db
  | .listLocks, db =>
    match findConflict runtime db args input lockType with
    | some conflict => .error (conflictRefusal conflict)
    | none => .ok (expireLocksFromDb db input.now)
  | .insertRun, db =>
    if db.runs.any (·.runId = input.runId) then .error uniqueConstraintFailed
    else .ok { db with runs := db.runs ++ [acquiredRun args input lockType] }
  | .insertLock path, db =>
    if db.locks.any fun row => row.runId = input.runId ∧ row.normalizedPath = path then
      .error uniqueConstraintFailed
    else .ok { db with locks := db.locks ++ [acquiredRow runtime args input lockType path] }
  | .selectJob owner, db =>
    if owner ∉ db.activeOwners ∨ args.manual then
      .error ⟨"queue_ownership_lost", "The queue job no longer owns its durable generation."⟩
    else .ok db
  | .insertJobLock owner, db =>
    if db.queueJobLocks.any (·.lockId = input.runId) then .error uniqueConstraintFailed
    else .ok { db with
      queueJobLocks := db.queueJobLocks ++ [⟨input.runId, owner.jobId, owner.ownerGeneration⟩] }
  | .listAgain, db => .ok (expireLocksFromDb db input.now)

/-- What a queue job adds to the transaction. -/
def queueStatements : Option QueueOwner → List AcquireStatement
  | none => []
  | some owner => [.selectJob owner, .insertJobLock owner]

def insertStatements : List AcquireStatement :=
  .insertRun :: ((lockPathsRequested runtime args input.view).map AcquireStatement.insertLock ++
    (queueStatements args.queueOwner ++ [.listAgain]))

def acquireStatements : List AcquireStatement :=
  .selectUnresolved :: .listLocks :: insertStatements runtime args input

end

/-- What goes wrong during one acquisition: errors of its transaction, and the cleanup statement
that throws. -/
structure AcquireFaults where
  transaction : TransactionFaults Refusal
  cleanup : Option Nat

def AcquireFaults.none : AcquireFaults := ⟨TransactionFaults.none, Option.none⟩

/-- The statements that remove what a `COMMIT` may have made durable. -/
def cleanupStatements (now : Nat) : List (LockDb → LockDb) :=
  [fun db => { db with
      locks := db.locks.filter fun row =>
        ¬ (row.runId = input.runId ∧ row.token = tokenSha256 runtime input.token) },
    fun db => markRunReleased db input.runId now] ++
  if args.queueOwner.isSome then
    [fun db => { db with queueJobLocks := db.queueJobLocks.filter (·.lockId ≠ input.runId) }]
  else []

/-- The cleanup stops at the statement that throws. -/
def cleanupAcquire (now : Nat) (throwsAt : Option Nat) (db : LockDb) : LockDb :=
  let executed : List (LockDb → LockDb) :=
    match throwsAt with
    | none => cleanupStatements runtime args input now
    | some n => (cleanupStatements runtime args input now).take n
  executed.foldl (fun db statement => statement db) db

/-- `acquireHardLock` under faults; the clock is read once more for the cleanup. -/
def acquireAttempt (faults : AcquireFaults) (cleanupNow : Nat) (db : LockDb) :
    Except Refusal HeldLock × LockDb :=
  match admitLockRequest runtime args input with
  | .error refusal => (.error refusal, db)
  | .ok lockType =>
    match transact (AcquireStatement.exec runtime args input lockType) faults.transaction
      (acquireStatements runtime args input) db with
    | .rolledBack refusal => (.error refusal, db)
    | .unconfirmed refusal db' =>
      (.error refusal, cleanupAcquire runtime args input cleanupNow faults.cleanup db')
    | .committed db' => (.ok (acquiredLock runtime args input lockType), db')

/-! ### What a failed call may leave -/

/-- The rows of the other runs. -/
def othersOf (runId : String) (db : LockDb) : LockDb :=
  { db with
    locks := db.locks.filter (·.runId ≠ runId)
    runs := db.runs.filter (·.runId ≠ runId)
    queueJobLocks := db.queueJobLocks.filter (·.lockId ≠ runId) }

/-- No row of the request is there that was not there before. -/
structure NothingLeft (runId : String) (db after : LockDb) : Prop where
  locks : ∀ row ∈ after.locks, row.runId = runId → row ∈ db.locks
  runs : ∀ run ∈ after.runs, run.runId = runId → run.status = .running → run ∈ db.runs
  queueJobLocks : ∀ association ∈ after.queueJobLocks, association.lockId = runId →
    association ∈ db.queueJobLocks

/-- The commit reported an error although its rows are durable. -/
def CommitDurable (faults : AcquireFaults) : Prop :=
  ∃ error, faults.transaction.atCommit = .failed error true

section

variable {runtime} {args} {input} {lockType : LockType} {db kept working : LockDb}

/-! ### What the statements add -/

/-- Where no row has lapsed, a listing changes nothing. -/
theorem expireLocksFromDb_eq_self {now : Nat} (h : ∀ row ∈ db.locks, now < row.expiresAt) :
    expireLocksFromDb db now = db := by
  have hlapsed : db.locks.filter (·.expiresAt ≤ now) = [] := by
    rw [filter_eq_nil_iff]
    intro row hrow
    have hlater := h row hrow
    simpa using hlater
  have hkept : (db.locks.filter fun row => ¬ row.expiresAt ≤ now) = db.locks := by
    rw [filter_eq_self]
    intro row hrow
    have hlater := h row hrow
    simpa using hlater
  unfold expireLocksFromDb
  rw [hlapsed, hkept]
  simp

structure AddedRows (runtime : LockRuntime) (args : AcquireArgs) (input : AcquireInput)
    (kept working : LockDb) : Prop where
  locks : ∃ added, working.locks = kept.locks ++ added ∧ ∀ row ∈ added,
    row.runId = input.runId ∧ row.token = tokenSha256 runtime input.token ∧
      input.now < row.expiresAt
  runs : ∃ added, working.runs = kept.runs ++ added ∧ ∀ run ∈ added, run.runId = input.runId
  queueJobLocks : ∃ added, working.queueJobLocks = kept.queueJobLocks ++ added ∧
    (∀ association ∈ added, association.lockId = input.runId) ∧
      (args.queueOwner = none → added = [])
  activeOwners : working.activeOwners = kept.activeOwners
  operations : working.operations = kept.operations

theorem AddedRows.refl (kept : LockDb) : AddedRows runtime args input kept kept where
  locks := ⟨[], (append_nil _).symm, by simp⟩
  runs := ⟨[], (append_nil _).symm, by simp⟩
  queueJobLocks := ⟨[], (append_nil _).symm, by simp, fun _ => rfl⟩
  activeOwners := rfl
  operations := rfl

theorem now_lt_acquiredRow (path : PathText) :
    input.now.1 < (acquiredRow runtime args input lockType path).expiresAt := by
  have hmax : maxLockTtlMs = 86400000 := rfl
  have httl : 1000 ≤ lockTtl args.ttlMs := by
    unfold lockTtl
    omega
  show input.now.1 < input.now.1 + lockTtl args.ttlMs
  omega

/-- Nothing lapses between the two listings. -/
theorem AddedRows.expire (h : AddedRows runtime args input kept working)
    (hkept : ∀ row ∈ kept.locks, input.now < row.expiresAt) :
    expireLocksFromDb working input.now = working := by
  obtain ⟨added, hlocks, hnew⟩ := h.locks
  apply expireLocksFromDb_eq_self
  intro row hrow
  rw [hlocks] at hrow
  cases mem_append.mp hrow with
  | inl hold => exact hkept row hold
  | inr hadded => exact (hnew row hadded).2.2

theorem queueOwner_of_insertJobLock {owner : QueueOwner}
    (h : AcquireStatement.insertJobLock owner ∈ insertStatements runtime args input) :
    args.queueOwner = some owner := by
  unfold insertStatements queueStatements at h
  cases howner : args.queueOwner with
  | none => simp [howner] at h
  | some other => simpa [howner, eq_comm] using h

theorem AddedRows.exec (hkept : ∀ row ∈ kept.locks, input.now < row.expiresAt)
    {statement : AcquireStatement} (hmem : statement ∈ insertStatements runtime args input)
    (h : AddedRows runtime args input kept working) {working' : LockDb}
    (hstep : statement.exec runtime args input lockType working = .ok working') :
    AddedRows runtime args input kept working' := by
  cases statement with
  | selectUnresolved =>
    simp only [AcquireStatement.exec] at hstep
    split_ifs at hstep
    cases hstep
    exact h
  | listLocks =>
    simp only [AcquireStatement.exec] at hstep
    split at hstep
    · cases hstep
    · cases hstep
      rw [h.expire hkept]
      exact h
  | insertRun =>
    simp only [AcquireStatement.exec] at hstep
    split_ifs at hstep
    cases hstep
    obtain ⟨added, hruns, hnew⟩ := h.runs
    refine ⟨h.locks, ⟨added ++ [acquiredRun args input lockType], ?_, ?_⟩, h.queueJobLocks,
      h.activeOwners, h.operations⟩
    · show working.runs ++ _ = _
      rw [hruns, append_assoc]
    · intro run hrun
      cases mem_append.mp hrun with
      | inl hold => exact hnew run hold
      | inr hlast => exact congrArg RunRow.runId (mem_singleton.mp hlast)
  | insertLock path =>
    simp only [AcquireStatement.exec] at hstep
    split_ifs at hstep
    cases hstep
    obtain ⟨added, hlocks, hnew⟩ := h.locks
    refine ⟨⟨added ++ [acquiredRow runtime args input lockType path], ?_, ?_⟩, h.runs,
      h.queueJobLocks, h.activeOwners, h.operations⟩
    · show working.locks ++ _ = _
      rw [hlocks, append_assoc]
    · intro row hrow
      cases mem_append.mp hrow with
      | inl hold => exact hnew row hold
      | inr hlast =>
        rw [mem_singleton.mp hlast]
        exact ⟨rfl, rfl, now_lt_acquiredRow path⟩
  | selectJob owner =>
    simp only [AcquireStatement.exec] at hstep
    split_ifs at hstep
    cases hstep
    exact h
  | insertJobLock owner =>
    simp only [AcquireStatement.exec] at hstep
    split_ifs at hstep
    cases hstep
    obtain ⟨added, hassociations, hnew, -⟩ := h.queueJobLocks
    refine ⟨h.locks, h.runs, ⟨added ++ [⟨input.runId, owner.jobId, owner.ownerGeneration⟩],
      ?_, ?_, ?_⟩, h.activeOwners, h.operations⟩
    · show working.queueJobLocks ++ _ = _
      rw [hassociations, append_assoc]
    · intro association hassociation
      cases mem_append.mp hassociation with
      | inl hold => exact hnew association hold
      | inr hlast => exact congrArg QueueJobLock.lockId (mem_singleton.mp hlast)
    · intro hnone
      rw [queueOwner_of_insertJobLock hmem] at hnone
      cases hnone
  | listAgain =>
    cases hstep
    rw [h.expire hkept]
    exact h

theorem addedRows_of_execute {throws : Nat → Option Refusal}
    (h : execute (AcquireStatement.exec runtime args input lockType) throws 0
      (acquireStatements runtime args input) db = .ok working) :
    AddedRows runtime args input (expireLocksFromDb db input.now) working := by
  obtain ⟨first, hfirst, h⟩ := execute_cons h
  obtain ⟨listed, hlisted, h⟩ := execute_cons h
  have hsame : first = db := by
    simp only [AcquireStatement.exec] at hfirst
    split_ifs at hfirst
    cases hfirst
    rfl
  have hkept : listed = expireLocksFromDb db input.now := by
    simp only [AcquireStatement.exec] at hlisted
    split at hlisted
    · cases hlisted
    · cases hlisted
      rw [hsame]
  subst hkept
  have hunexpired : ∀ row ∈ (expireLocksFromDb db input.now).locks, input.now < row.expiresAt :=
    fun row hrow => (expireLocksFromDb_mem.mp hrow).2
  exact execute_preserves (fun statement hmem _ _ hadded hstep =>
    hadded.exec hunexpired hmem hstep) (.refl _) h

/-! ### What the cleanup removes -/

theorem cleanupAcquire_eq_discard (now : Nat) (db : LockDb) :
    cleanupAcquire runtime args input now none db =
      discardFailedAcquire runtime db input.runId input.token args.queueOwner.isSome now := by
  cases howner : args.queueOwner <;> simp [cleanupAcquire, cleanupStatements, howner,
    discardFailedAcquire, markRunReleased]

theorem filter_map_of_selected {α : Type} {p : α → Bool} {f : α → α} (rows : List α)
    (hkept : ∀ row, p (f row) = p row) (hsame : ∀ row, p row = true → f row = row) :
    (rows.map f).filter p = rows.filter p := by
  induction rows with
  | nil => rfl
  | cons row rows ih =>
    rw [map_cons, filter_cons, filter_cons, hkept, ih]
    split_ifs with hrow
    · rw [hsame row hrow]
    · rfl

theorem filter_append_of_rejected {α : Type} {p : α → Bool} (rows : List α) {added : List α}
    (hadded : ∀ row ∈ added, p row = false) : (rows ++ added).filter p = rows.filter p := by
  have hnone : added.filter p = [] := by
    rw [filter_eq_nil_iff]
    intro row hrow
    rw [hadded row hrow]
    exact Bool.false_ne_true
  rw [filter_append, hnone, append_nil]

/-- Removing the request's rows does not touch the other runs. -/
theorem othersOf_discardFailedAcquire (queued : Bool) (now : Nat) (db : LockDb) :
    othersOf input.runId (discardFailedAcquire runtime db input.runId input.token queued now) =
      othersOf input.runId db := by
  have hlocks : (db.locks.filter fun row =>
      ¬ (row.runId = input.runId ∧ row.token = tokenSha256 runtime input.token)).filter
        (·.runId ≠ input.runId) = db.locks.filter (·.runId ≠ input.runId) := by
    rw [filter_filter]
    apply filter_congr
    intro row _
    by_cases hid : row.runId = input.runId <;> simp [hid]
  have hruns : (db.runs.map fun run =>
      if run.runId = input.runId ∧ run.status = .running then
        { run with status := .released, finishedAt := some now }
      else run).filter (·.runId ≠ input.runId) = db.runs.filter (·.runId ≠ input.runId) := by
    apply filter_map_of_selected
    · intro run
      split_ifs <;> rfl
    · intro run hother
      have hid : run.runId ≠ input.runId := by simpa using hother
      exact if_neg fun h => hid h.1
  have hassociations : (if queued then db.queueJobLocks.filter (·.lockId ≠ input.runId)
      else db.queueJobLocks).filter (·.lockId ≠ input.runId) =
        db.queueJobLocks.filter (·.lockId ≠ input.runId) := by
    split_ifs
    · rw [filter_filter]
      simp
    · rfl
  unfold othersOf discardFailedAcquire
  rw [hlocks, hruns, hassociations]

theorem AddedRows.othersOf_eq (h : AddedRows runtime args input kept working) :
    othersOf input.runId working = othersOf input.runId kept := by
  obtain ⟨locks, hlocks, hnewLocks⟩ := h.locks
  obtain ⟨runs, hruns, hnewRuns⟩ := h.runs
  obtain ⟨associations, hassociations, hnewAssociations, -⟩ := h.queueJobLocks
  unfold othersOf
  rw [hlocks, hruns, hassociations, h.activeOwners, h.operations,
    filter_append_of_rejected kept.locks fun row hrow => by simp [(hnewLocks row hrow).1],
    filter_append_of_rejected kept.runs fun run hrun => by simp [hnewRuns run hrun],
    filter_append_of_rejected kept.queueJobLocks fun association hassociation => by
      simp [hnewAssociations association hassociation]]

/-- After the cleanup, the request has only rows that the listing had kept. -/
theorem AddedRows.nothingLeft (h : AddedRows runtime args input kept working) (now : Nat) :
    NothingLeft input.runId kept (discardFailedAcquire runtime working input.runId input.token
      args.queueOwner.isSome now) where
  locks := by
    intro row hrow hid
    obtain ⟨added, hlocks, hnew⟩ := h.locks
    simp only [discardFailedAcquire, mem_filter, hlocks, mem_append,
      decide_eq_true_eq] at hrow
    obtain ⟨hold | hadded, hother⟩ := hrow
    · exact hold
    · exact absurd ⟨hid, (hnew row hadded).2.1⟩ hother
  runs := by
    intro run hrun hid hrunning
    obtain ⟨old, -, hrun'⟩ := mem_map.mp hrun
    split_ifs at hrun' with hown
    · rw [← hrun'] at hrunning
      cases hrunning
    · rw [← hrun'] at hid hrunning
      exact absurd ⟨hid, hrunning⟩ hown
  queueJobLocks := by
    intro association hassociation hid
    obtain ⟨added, hassociations, hnew, hnone⟩ := h.queueJobLocks
    simp only [discardFailedAcquire] at hassociation
    split_ifs at hassociation with hqueued
    · simp [hid] at hassociation
    · have howner : args.queueOwner = none := by simpa using hqueued
      rwa [hassociations, hnone howner, append_nil] at hassociation

/-- The listing adds no row, and the rows that it rewrites no longer run. -/
theorem NothingLeft.of_expired {runId : String} {now : Nat} {after : LockDb}
    (h : NothingLeft runId (expireLocksFromDb db now) after) : NothingLeft runId db after where
  locks row hrow hid := (expireLocksFromDb_mem.mp (h.locks row hrow hid)).1
  runs := by
    intro run hrun hid hrunning
    obtain ⟨old, hold, hrun'⟩ := mem_map.mp (h.runs run hrun hid hrunning)
    split_ifs at hrun' with hexpired
    · rw [← hrun'] at hrunning
      cases hrunning
    · rwa [← hrun']
  queueJobLocks association hassociation hid :=
    (mem_filter.mp (h.queueJobLocks association hassociation hid)).1

theorem NothingLeft.refl (runId : String) (db : LockDb) : NothingLeft runId db db :=
  ⟨fun _ h _ => h, fun _ h _ _ => h, fun _ h _ => h⟩

/-- Where the transaction is not durable, the cleanup finds nothing of its own to remove. -/
theorem nothingLeft_discard (queued : Bool) (now : Nat) :
    NothingLeft input.runId db
      (discardFailedAcquire runtime db input.runId input.token queued now) where
  locks row hrow _ := (mem_filter.mp hrow).1
  runs := by
    intro run hrun hid hrunning
    obtain ⟨old, hold, hrun'⟩ := mem_map.mp hrun
    split_ifs at hrun' with hown
    · rw [← hrun'] at hrunning
      cases hrunning
    · rwa [← hrun']
  queueJobLocks := by
    intro association hassociation _
    simp only [discardFailedAcquire] at hassociation
    split_ifs at hassociation
    · exact (mem_filter.mp hassociation).1
    · exact hassociation

end

/-- When `acquireHardLock` reports a failure and its cleanup can run, no row of the request is left,
and the other runs are as they were. Only where a commit that reported an error is durable, the rows
that had lapsed are gone as after any listing. -/
theorem failed_acquire_leaves_nothing {faults : AcquireFaults} {cleanupNow : Nat}
    {db after : LockDb} {refusal : Refusal} (hcleanup : faults.cleanup = none)
    (h : acquireAttempt runtime args input faults cleanupNow db = (.error refusal, after)) :
    NothingLeft input.runId db after ∧
      (othersOf input.runId after = othersOf input.runId db ∨
        CommitDurable faults ∧
          othersOf input.runId after = othersOf input.runId (expireLocksFromDb db input.now)) := by
  unfold acquireAttempt at h
  split at h
  · cases h
    exact ⟨.refl _ _, .inl rfl⟩
  next lockType _ =>
    split at h
    next => cases h; exact ⟨.refl _ _, .inl rfl⟩
    next error db' htransact =>
      obtain ⟨working, durable, hworking, hcommit, rfl⟩ := transact_unconfirmed htransact
      have hadded := addedRows_of_execute hworking
      rw [hcleanup, cleanupAcquire_eq_discard] at h
      cases h
      cases durable with
      | true =>
        refine ⟨(hadded.nothingLeft cleanupNow).of_expired, .inr ⟨⟨_, hcommit⟩, ?_⟩⟩
        exact (othersOf_discardFailedAcquire _ _ _).trans hadded.othersOf_eq
      | false => exact ⟨nothingLeft_discard _ _, .inl (othersOf_discardFailedAcquire _ _ _)⟩
    next => cases h

/-- The commit of a call reports an error after its rows became durable. -/
def lostCommit : AcquireFaults where
  transaction := { TransactionFaults.none with
    atCommit := .failed ⟨"lock_database_failed", "Write lock rejected: disk I/O error"⟩ true }
  cleanup := none

/-- A lock on `docs` that nobody has released. -/
def abandonedLock : LockDb :=
  run (lockStep posixRuntime) emptyLockDb [acquireWrite "docs" ⟨1, one_le_maxTime⟩ "run-1"]

/-- A request for `src` after that lock has lapsed. -/
def laterInput : AcquireInput := acquireInputAt ⟨1800002, by decide⟩ "run-2"

theorem failed_acquire_leaves_nothing_of_lost_commit :
    NothingLeft "run-2" abandonedLock
        (acquireAttempt posixRuntime (writeRequest "src") laterInput lostCommit 1800003
          abandonedLock).2 ∧
      (othersOf "run-2" (acquireAttempt posixRuntime (writeRequest "src") laterInput lostCommit
          1800003 abandonedLock).2 = othersOf "run-2" abandonedLock ∨
        CommitDurable lostCommit ∧
          othersOf "run-2" (acquireAttempt posixRuntime (writeRequest "src") laterInput lostCommit
            1800003 abandonedLock).2 =
          othersOf "run-2" (expireLocksFromDb abandonedLock laterInput.now)) :=
  @failed_acquire_leaves_nothing posixRuntime (writeRequest "src") laterInput lostCommit 1800003
    abandonedLock _ ⟨"lock_database_failed", "Write lock rejected: disk I/O error"⟩ rfl
    (Prod.ext (by decide) rfl)

/-- The failed call takes the lapsed lock of the other run with it; and if its cleanup fails as
well, its own row stays. -/
theorem failed_acquire_prunes_other_run :
    (acquireAttempt posixRuntime (writeRequest "src") laterInput lostCommit 1800003
        abandonedLock).1.toOption = none ∧
      othersOf "run-2" (acquireAttempt posixRuntime (writeRequest "src") laterInput lostCommit
        1800003 abandonedLock).2 ≠ othersOf "run-2" abandonedLock ∧
      ¬ NothingLeft "run-2" abandonedLock (acquireAttempt posixRuntime (writeRequest "src")
        laterInput { lostCommit with cleanup := some 0 } 1800003 abandonedLock).2 := by
  refine ⟨by decide, by decide, ?_⟩
  intro h
  have hrow := h.locks (acquiredRow posixRuntime (writeRequest "src") laterInput .write
    "src".toList) (by decide) rfl
  revert hrow
  decide

end AgentBridge.Locks
