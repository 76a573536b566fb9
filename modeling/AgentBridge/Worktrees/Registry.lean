import AgentBridge.Locks.Store
import AgentBridge.Queue.Row
import AgentBridge.Systems.Statement

/-!
# The registry of worktrees

The table `worktree_artifacts` and every transaction on it: the reservations and claims of
`lib/worktrees.js`, its reconciliation with the directories on disk, the marks that
measurement and cleanup leave, and what deferred cleanup, retention and the garbage
collector write. A transaction is the list of its statements.

The directories, the clock, the tables that tell whether a job is alive and the lock table
are read, never written, and are arguments.
-/

namespace AgentBridge

inductive ArtifactStatus where
  | creating | retained | cleanupFailed | inUse | cleanupPending
  | cleaned | cleanedBranchRetained
  deriving DecidableEq

namespace ArtifactStatus

/-- `RETAINED_WORKTREE_STATUSES` -/
def active : ArtifactStatus → Bool
  | creating | retained | cleanupFailed | inUse | cleanupPending => true
  | cleaned | cleanedBranchRetained => false

end ArtifactStatus

structure ArtifactRow where
  worktreePath : String
  cwd : Directory
  branch : String
  jobId : String
  status : ArtifactStatus
  measuredBytes : Nat
  cleanedAt : Stamp

structure DirectRun where
  jobId : String
  ownerInstanceId : String
  ownerProcessId : Nat
  /-- `status = 'started'` -/
  started : Bool

structure BridgeProcess where
  instanceId : String
  processId : Nat
  leaseExpiresAt : Nat

/-- What is at a path: a directory with the size of what it holds, `none` when it cannot be
measured, a symbolic link that leads somewhere or not, or a file. -/
inductive DiskKind where
  | directory (bytes : Option Nat)
  | link (resolves : Bool)
  | file

structure DiskEntry where
  path : String
  /-- `path.basename` -/
  name : String
  /-- The directory that holds it. -/
  parent : String
  kind : DiskKind

/-- What the functions of the registry read besides it. -/
structure WorktreeHost where
  /-- `opencode_jobs`; `none` when there is no such table. -/
  opencodeJobs : Option (List (String × QueueStatus))
  directRuns : Option (List DirectRun)
  bridgeInstances : Option (List BridgeProcess)
  locks : Option (List LockRow)
  liveProcesses : List Nat
  disk : List DiskEntry
  now : Nat

structure WorktreeConfig where
  retainedWorktreeMaxCount : Nat
  retainedWorktreeMaxBytes : Nat
  /-- The directory of the generated worktrees of a repository. -/
  generatedWorktreeRootForCwd : Directory → String

namespace Worktrees

open Systems

/-- `existsSync` follows links. -/
def DiskEntry.exists (entry : DiskEntry) : Bool :=
  match entry.kind with
  | .directory _ => true
  | .link resolves => resolves
  | .file => true

def existsSync (disk : List DiskEntry) (path : String) : Bool :=
  disk.any fun entry => entry.path = path && DiskEntry.exists entry

abbrev ArtifactStatement := Statement ArtifactRow

/-- Execute the statements of a transaction. -/
def execute (statements : List ArtifactStatement) (rows : List ArtifactRow) : List ArtifactRow :=
  Statement.execAll ArtifactRow.worktreePath statements rows

/-! ### Whether the owner of a worktree is alive -/

/-- The statuses of `opencode_jobs` that keep a claim: `blocked` and `pending` included, `held`
not. -/
def keepsClaim (status : QueueStatus) : Bool :=
  status.claimable || status.active

/-- The processes that own a started direct run of the job under an unexpired lease. -/
def directRunOwners (runs : List DirectRun) (processes : List BridgeProcess) (jobId : String)
    (now : Nat) : List Nat :=
  runs.flatMap fun run =>
    (processes.filter fun process => process.instanceId = run.ownerInstanceId
      && run.jobId = jobId && run.started && now < process.leaseExpiresAt
      && run.ownerProcessId = process.processId).map BridgeProcess.processId

def worktreeClaimOwnerAlive (host : WorktreeHost) (jobId : String) : Bool :=
  let queued := match host.opencodeJobs with
    | none => false
    | some jobs => jobs.any fun job => job.1 = jobId && keepsClaim job.2
  queued ||
    match host.directRuns, host.bridgeInstances with
    | some runs, some processes =>
      match (directRunOwners runs processes jobId host.now).head? with
      | some processId => host.liveProcesses.contains processId
      | none => false
    | _, _ => false

/-! ### Claims -/

/-- `SET status = 'retained' WHERE … status = 'in_use' AND job_id = ?`, the release of a claim
and the recovery of a dead owner's. -/
def releaseClaim (cwd : Directory) (worktreePath jobId : String) : RowUpdate ArtifactRow where
  guard row := row.worktreePath = worktreePath && row.cwd = cwd && row.status = .inUse
    && row.jobId = jobId
  set row := { row with status := .retained }

def recoverStaleWorktreeClaims (host : WorktreeHost) (rows : List ArtifactRow) :
    List ArtifactStatement :=
  let stale := rows.filter fun row =>
    row.status = .inUse && !worktreeClaimOwnerAlive host row.jobId
  stale.map fun row => .update (releaseClaim row.cwd row.worktreePath row.jobId)

/-- The recovery of the one dead owner whose worktree is claimed. -/
def recoverOwner (stale : Bool) (cwd : Directory) (worktreePath jobId : String)
    (rows : List ArtifactRow) : List ArtifactRow :=
  if stale then (releaseClaim cwd worktreePath jobId).exec rows else rows

/-- `SET status = 'in_use', job_id = ? WHERE … status = 'retained'` -/
def takeRetained (cwd : Directory) (worktreePath jobId : String) : RowUpdate ArtifactRow where
  guard row := row.worktreePath = worktreePath && row.cwd = cwd && row.status = .retained
  set row := { row with status := .inUse, jobId := jobId }

inductive ClaimAnswer where
  | claimed (row : ArtifactRow)
  | worktreeInUse
  | worktreeNotRetained

def claimRefusal (ownerAlive : Bool) : ClaimAnswer :=
  if ownerAlive then .worktreeInUse else .worktreeNotRetained

theorem claimRefusal_ne_claimed (ownerAlive : Bool) (row : ArtifactRow) :
    claimRefusal ownerAlive ≠ .claimed row := by
  cases ownerAlive <;> simp [claimRefusal]

/-- Whether an integration or a containment quarantine holds the repository's worktrees. -/
def integrationHolds (host : WorktreeHost) (cwd : Directory) : Bool :=
  match host.locks with
  | none => false
  | some locks => locks.any fun lock => lock.cwd = cwd
      && ((lock.lockMode = .serialIntegration && host.now < lock.expiresAt)
        || lock.expiresAt = maxSafeInteger)

/-- `claimRetainedWorktree`: the answer and the rows. -/
def claimRetainedWorktree (host : WorktreeHost) (rows : List ArtifactRow) (cwd : Directory)
    (worktreePath jobId : String) (dryRun : Bool) : ClaimAnswer × List ArtifactRow :=
  if integrationHolds host cwd then (.worktreeInUse, rows)
  else
    match rows.find? fun row => row.worktreePath = worktreePath && row.cwd = cwd with
    | none => (.worktreeNotRetained, rows)
    | some row =>
      let ownerAlive := (row.status = .retained || row.status = .inUse)
        && worktreeClaimOwnerAlive host row.jobId
      let stale := row.status = .inUse && !ownerAlive
      let usable := !ownerAlive && (row.status = .retained || stale)
        && existsSync host.disk worktreePath
      if !usable then (claimRefusal ownerAlive, rows)
      else if dryRun then (.claimed row, rows)
      else
        let recovered := recoverOwner stale cwd worktreePath row.jobId rows
        let take := takeRetained cwd worktreePath jobId
        (if take.changes recovered = 1 then .claimed row else claimRefusal ownerAlive,
          take.exec recovered)

/-! ### Reconciliation with the directories on disk -/

/-- What the walk over the generated root reports of a directory it did not know. -/
structure Discovered where
  path : String
  name : String
  status : ArtifactStatus
  measuredBytes : Nat
  deriving DecidableEq

/-- The paths the walk leaves out, whichever checkout registered them. -/
def knownPaths (rows : List ArtifactRow) : List String :=
  (rows.filter fun row => row.status.active).map ArtifactRow.worktreePath

variable (config : WorktreeConfig)

/-- The walk over one entry: nothing for a file or what is gone, a full cleanup failure for a
link or what cannot be measured. -/
def inspectEntry (disk : List DiskEntry) (path : String) : Option Discovered :=
  match disk.find? fun entry => entry.path = path with
  | none => none
  | some entry =>
    match entry.kind with
    | .directory (some bytes) => some ⟨path, entry.name, .retained, bytes⟩
    | .directory none =>
      some ⟨path, entry.name, .cleanupFailed, config.retainedWorktreeMaxBytes + 1⟩
    | .link _ =>
      some ⟨path, entry.name, .cleanupFailed, config.retainedWorktreeMaxBytes + 1⟩
    | .file => none

/-- `readdir` of the generated root. -/
def readRoot (disk : List DiskEntry) (cwd : Directory) : List String :=
  let root := config.generatedWorktreeRootForCwd cwd
  (disk.filter fun entry => entry.parent = root).map DiskEntry.path

/-- The insert of a discovered directory; it replaces only a retired row. -/
def insertDiscovered (cwd : Directory) (item : Discovered) : ArtifactStatement :=
  .upsert ⟨item.path, cwd, "", item.name, item.status, item.measuredBytes, none⟩
    { guard row := !row.status.active
      set row := { row with
        cwd := cwd, jobId := item.name, status := item.status
        measuredBytes := item.measuredBytes, cleanedAt := none } }

/-- `markMissing` -/
def markMissing (cwd : Directory) (now : Nat) (worktreePath : String) : RowUpdate ArtifactRow where
  guard row := row.worktreePath = worktreePath && row.cwd = cwd && row.status ≠ .cleanupPending
  set row := { row with status := .cleaned, cleanedAt := some now }

/-- The active rows of the repository whose directory is missing. -/
def missingPaths (disk : List DiskEntry) (cwd : Directory) (rows : List ArtifactRow) :
    List String :=
  (rows.filter fun row => row.cwd = cwd && row.status.active
    && !existsSync disk row.worktreePath).map ArtifactRow.worktreePath

/-- The final transaction of `reconcileWorktreeArtifactRegistry`. -/
def reconcileWorktreeArtifactRegistry (host : WorktreeHost) (cwd : Directory)
    (discovered : List Discovered) (rows : List ArtifactRow) : List ArtifactStatement :=
  let inserts := discovered.map (insertDiscovered cwd)
  let missing := missingPaths host.disk cwd (execute inserts rows)
  inserts ++ missing.map fun path => .update (markMissing cwd host.now path)

/-! ### Reservations and marks -/

inductive ReserveAnswer where
  | ok
  | stateCapacityExceeded
  | worktreeCapacityExceeded
  | worktreeIdentityConflict
  deriving DecidableEq

/-- The rows that count against the capacity of a repository. -/
def capacityRows (cwd : Directory) (rows : List ArtifactRow) : List ArtifactRow :=
  rows.filter fun row => row.cwd = cwd && row.status.active

/-- The insert of a reservation; it replaces only a retired row. -/
def insertReservation (cwd : Directory) (worktreePath branch jobId : String) : ArtifactStatement :=
  .upsert ⟨worktreePath, cwd, branch, jobId, .creating, 0, none⟩
    { guard row := !row.status.active
      set row := { row with
        cwd := cwd, branch := branch, jobId := jobId, status := .creating
        measuredBytes := 0, cleanedAt := none } }

/-- The transaction of `reserveWorktreeArtifact`, after the reconciliation it begins with.
`stateFull`: `stateCapacityError` reports that the database is full. -/
def reserveWorktreeArtifact (rows : List ArtifactRow) (cwd : Directory)
    (worktreePath branch jobId : String) (stateFull : Bool) : ReserveAnswer × List ArtifactRow :=
  let counted := capacityRows cwd rows
  let insert := insertReservation cwd worktreePath branch jobId
  if stateFull then (.stateCapacityExceeded, rows)
  else if config.retainedWorktreeMaxCount ≤ counted.length
      || config.retainedWorktreeMaxBytes ≤ (counted.map ArtifactRow.measuredBytes).sum then
    (.worktreeCapacityExceeded, rows)
  else if insert.changes ArtifactRow.worktreePath rows ≠ 1 then (.worktreeIdentityConflict, rows)
  else (.ok, execute [insert] rows)

/-- `markWorktreeArtifactState`: by path alone, whatever the row says. -/
def markWorktreeArtifactState (cwd : Directory) (now : Nat) (worktreePath : String)
    (status : ArtifactStatus) (measuredBytes : Option Nat) : RowUpdate ArtifactRow where
  guard row := row.worktreePath = worktreePath && row.cwd = cwd
  set row := { row with
    status := status, measuredBytes := measuredBytes.getD row.measuredBytes
    cleanedAt := if status.active then row.cleanedAt else some now }

/-- The delete of `releaseFailedWorktreeReservation`, for a directory that does not exist. -/
def deleteReservation (cwd : Directory) (worktreePath : String) : ArtifactStatement :=
  .delete fun row => row.worktreePath = worktreePath && row.cwd = cwd && row.status = .creating

/-- `updateRetainedWorktreeMeasurement` of a continued worktree. -/
def measureContinued (cwd : Directory) (worktreePath jobId : String) (bytes : Nat) :
    RowUpdate ArtifactRow where
  guard row := row.worktreePath = worktreePath && row.cwd = cwd && row.status = .inUse
    && row.jobId = jobId
  set row := { row with measuredBytes := bytes }

/-- `updateRetainedWorktreeMeasurement` of any other worktree, measured or not. -/
def measureRetained (cwd : Directory) (now : Nat) (worktreePath : String) (bytes : Option Nat) :
    RowUpdate ArtifactRow :=
  match bytes with
  | some bytes => markWorktreeArtifactState cwd now worktreePath .retained (some bytes)
  | none => markWorktreeArtifactState cwd now worktreePath .cleanupFailed
      (some (config.retainedWorktreeMaxBytes + 1))

/-! ### Deferred cleanup, retention and the garbage collector -/

/-- What `enqueueIntegrationCleanup` writes here; nothing over a worktree in use. -/
def enqueueIntegrationCleanup (rows : List ArtifactRow) (cwd : Directory)
    (worktreePath branch operationId : String) : List ArtifactStatement :=
  if rows.any fun row => row.worktreePath = worktreePath && row.status = .inUse then []
  else [.upsert ⟨worktreePath, cwd, branch, operationId, .cleanupPending, 0, none⟩
    { guard row := row.status = .retained || row.status = .cleanupFailed
        || row.status = .cleanupPending
      set row := { row with status := .cleanupPending } }]

/-- The delete of a drained cleanup that succeeded. -/
def drainRemoved (worktreePath : String) : ArtifactStatement :=
  .delete fun row => row.worktreePath = worktreePath
    && (row.status = .cleanupPending || row.status = .cleaned
      || row.status = .cleanedBranchRetained || row.status = .cleanupFailed)

/-- The mark of a drained cleanup that did not. -/
def drainKept (worktreePath : String) (retained : Bool) : RowUpdate ArtifactRow where
  guard row := row.worktreePath = worktreePath && row.status ≠ .inUse
  set row := { row with status := if retained then .retained else .cleanupPending }

/-- The retention of `prunePersistedState`. -/
def pruneArtifacts (cutoff : Nat) : ArtifactStatement :=
  .delete fun row => !row.status.active && match row.cleanedAt with
    | none => false
    | some cleanedAt => cleanedAt < cutoff

/-- `markRegistryCleaned` of the garbage collector. -/
def markRegistryCleaned (now : Nat) (worktreePath : String) : RowUpdate ArtifactRow where
  guard row := row.worktreePath = worktreePath && (row.status = .creating
    || row.status = .retained || row.status = .cleanupFailed || row.status = .inUse)
  set row := { row with status := .cleaned, cleanedAt := some now }

end Worktrees

end AgentBridge
