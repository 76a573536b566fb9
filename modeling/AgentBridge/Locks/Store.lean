import AgentBridge.Journal.Operation

/-!
# The lock store

The lock tables of one project database and every transaction of `lib/locks.js`
on them. Each `BEGIN IMMEDIATE` transaction is one function from the database to
a result and the next database; a refusal returns the database unchanged.

Whatever a transaction takes from outside (the clock, a fresh run id and token,
the process-local set of blocked roots, the answer of the file system) is an
argument. Two parts of the database belong to other components and are only
read here: the integration operations, and the owners whose queue job is active
and not cancelled.
-/

namespace AgentBridge

inductive LockType where
  | read | write | serialIntegration
  deriving DecidableEq

inductive LockOrigin where
  | internal | manual | legacy
  deriving DecidableEq

inductive RunStatus where
  | running | released | expired | quarantined | quarantineReleased
  deriving DecidableEq

structure LockRow where
  normalizedPath : PathText
  ownerAgent : String
  acquisitionOrigin : LockOrigin
  runId : String
  token : String
  lockMode : LockType
  expiresAt : Nat
  createdAt : Nat
  cwd : Directory
  task : String
  editsCheckout : Option Bool
  deriving DecidableEq

structure RunRow where
  runId : String
  agent : String
  status : RunStatus
  lockMode : LockType
  startedAt : Nat
  finishedAt : Option Nat
  containment : String
  deriving DecidableEq

structure QueueJobLock where
  lockId : String
  jobId : String
  ownerGeneration : String
  deriving DecidableEq

/-- The identity under which a queue job is executed. -/
structure QueueOwner where
  jobId : String
  ownerInstanceId : String
  ownerGeneration : String
  deriving DecidableEq

structure LockDb where
  locks : List LockRow
  runs : List RunRow
  queueJobLocks : List QueueJobLock
  /-- Owners of `opencode_jobs` rows that are active and not cancelled. -/
  activeOwners : List QueueOwner
  operations : List IntegrationOperation
  deriving DecidableEq

/-- `Number.MAX_SAFE_INTEGER`, the expiry of a containment quarantine. -/
def maxSafeInteger : Nat := 2 ^ 53 - 1

/-- A value of `Date.now()`; ECMAScript time values end 100,000,000 days after
the epoch, below `maxSafeInteger`. -/
abbrev Timestamp := {ms : Nat // ms ≤ 8640000000000000}

theorem one_le_maxTime : 1 ≤ 8640000000000000 := by decide

theorem Timestamp.lt_maxSafeInteger (now : Timestamp) : now.1 < maxSafeInteger := by
  have hbound : (8640000000000000 : Nat) < maxSafeInteger := by decide
  exact Nat.lt_of_le_of_lt now.2 hbound

/-- What a `containment` text says once parsed. -/
structure ContainmentInfo where
  complete : Bool
  pids : List Nat
  recordedAt : Int

/-- The platform and the library functions every process shares. -/
structure LockRuntime where
  platform : Platform
  sha256 : String → String
  parseContainment : String → Option ContainmentInfo

namespace Locks

open Paths

def defaultLockTtlMs : Nat := 1000 * 60 * 30

def maxLockTtlMs : Nat := 1000 * 60 * 60 * 24

variable (runtime : LockRuntime)

/-! ### Conflicts -/

/-- The part of a request or of an active lock that conflicts depend on. -/
structure LockClaim where
  lockType : LockType
  paths : List PathText
  origin : LockOrigin
  editsCheckout : Option Bool

structure ActiveLock extends LockClaim where
  id : String
  agent : String
  cwd : Directory
  createdAt : Nat
  expiresAt : Nat

structure LockConflict where
  lockId : String
  agent : String
  origin : LockOrigin
  lockType : LockType
  paths : List PathText
  overlap : Option PathText × Option PathText
  expiresAt : Nat

def lockPaths (lock : LockClaim) : List PathText :=
  normalizeLockPathList lock.paths

/-- The recorded flag decides; without it, only an internal lock seen by a
process that runs writers in worktrees leaves the checkout alone. -/
def editsCheckout (worktreesOff : Bool) (lock : LockClaim) : Bool :=
  lock.editsCheckout.getD (!(!worktreesOff && lock.origin == .internal))

def worktreeJobWriter (worktreesOff : Bool) (lock : LockClaim) : Bool :=
  lock.lockType == .write && !editsCheckout worktreesOff lock

def requiresRepositorySerialization (worktreesOff : Bool) (request active : LockClaim) : Bool :=
  (request.lockType == .serialIntegration || active.lockType == .serialIntegration) &&
    !(worktreeJobWriter worktreesOff request || worktreeJobWriter worktreesOff active)

/-- The overlapping pair that makes two claims conflict. -/
def conflictOverlap (platform : Platform) (worktreesOff : Bool) (request active : LockClaim) :
    Option (Option PathText × Option PathText) :=
  if request.lockType = .read ∧ active.lockType = .read then none
  else
    let requestPaths := lockPaths request
    let activePaths := lockPaths active
    let overlap := (overlaps platform requestPaths activePaths).map fun (a, b) => (some a, some b)
    if requiresRepositorySerialization worktreesOff request active then
      overlap.or (some (requestPaths.head?, activePaths.head?))
    else overlap

def conflictsWithActiveLock (platform : Platform) (worktreesOff : Bool) (request : LockClaim)
    (active : ActiveLock) : Option LockConflict :=
  (conflictOverlap platform worktreesOff request active.toLockClaim).map fun overlap =>
    { lockId := active.id
      agent := active.agent
      origin := active.origin
      lockType := active.lockType
      paths := lockPaths active.toLockClaim
      overlap := overlap
      expiresAt := active.expiresAt }

/-! ### Listing and expiry -/

def lockOfRows (rows : List LockRow) : Option ActiveLock :=
  rows.head?.map fun first =>
    { id := first.runId
      agent := first.ownerAgent
      origin := first.acquisitionOrigin
      lockType := first.lockMode
      paths := normalizeLockPathList (rows.map (·.normalizedPath))
      cwd := first.cwd
      createdAt := first.createdAt
      expiresAt := first.expiresAt
      editsCheckout := some (first.editsCheckout.getD true) }

def rowsToLocks (rows : List LockRow) : List ActiveLock :=
  (rows.map (·.runId)).eraseDups.filterMap fun runId =>
    lockOfRows (rows.filter (·.runId = runId))

/-- `ORDER BY created_at, run_id, normalized_path` -/
def listedBefore (a b : LockRow) : Prop :=
  a.createdAt < b.createdAt ∨
    (a.createdAt = b.createdAt ∧
      (a.runId < b.runId ∨ (a.runId = b.runId ∧ a.normalizedPath ≤ b.normalizedPath)))

instance (a b : LockRow) : Decidable (listedBefore a b) :=
  inferInstanceAs (Decidable (_ ∨ (_ ∧ (_ ∨ (_ ∧ _)))))

def hasLockRow (locks : List LockRow) (runId : String) : Bool :=
  locks.any (·.runId = runId)

/-- Delete lapsed rows, the associations of runs left without a row, and mark
those runs expired. -/
def expireLocksFromDb (db : LockDb) (now : Nat) : LockDb :=
  let expiredRunIds := ((db.locks.filter (·.expiresAt ≤ now)).map (·.runId)).eraseDups
  let locks := db.locks.filter fun row => ¬ row.expiresAt ≤ now
  { db with
    locks := locks
    queueJobLocks := db.queueJobLocks.filter fun association =>
      ¬ (association.lockId ∈ expiredRunIds ∧ hasLockRow locks association.lockId = false)
    runs := db.runs.map fun run =>
      if run.runId ∈ expiredRunIds ∧ run.status = .running ∧ hasLockRow locks run.runId = false then
        { run with status := .expired, finishedAt := some (run.finishedAt.getD now) }
      else run }

def listLocksFromDb (db : LockDb) (now : Nat) : List ActiveLock :=
  rowsToLocks (((expireLocksFromDb db now).locks.filter (now < ·.expiresAt)).insertionSort
    listedBefore)

/-! ### Acquisition -/

structure Refusal where
  errorType : String
  error : String
  deriving DecidableEq

/-- The arguments of `acquireHardLock`; `cwd` is the resolved project state root. -/
structure AcquireArgs where
  owner : String
  agent : String
  manual : Bool
  task : String
  cwd : Directory
  lockType : PathText
  paths : List PathText
  repositoryScope : Bool
  ttlMs : Int
  editsCheckout : Option Bool
  integrationRecoveryAuthority : Bool
  queueOwner : Option QueueOwner

/-- What one acquisition takes from its process: the file system's answers, the
clock before the transaction, the fresh run id and token, the worktree mode, and
whether the root is in `INTEGRATION_RECOVERY_BLOCKED_ROOTS`. -/
structure AcquireInput where
  view : HostView
  now : Timestamp
  runId : String
  token : String
  worktreesOff : Bool
  recoveryBlocked : Bool

/-- `.replace(/[-\s]+/g, "_")` -/
def replaceBlankRuns : PathText → PathText
  | [] => []
  | c :: rest =>
    if c == '-' || isWhitespace c then
      if rest.head?.any (fun d => d == '-' || isWhitespace d) then replaceBlankRuns rest
      else '_' :: replaceBlankRuns rest
    else c :: replaceBlankRuns rest

/-- `normalizedLockType`, when it is one of `PARALLEL_LOCK_TYPES`. -/
def parseLockType (text : PathText) : Option LockType :=
  let normalized :=
    replaceBlankRuns ((trim (if text = [] then "write".toList else text)).map Char.toLower)
  if normalized = "read".toList then some .read
  else if normalized = "write".toList then some .write
  else if normalized = "serial_integration".toList then some .serialIntegration
  else none

/-- The lock object a holder keeps in memory. -/
structure HeldLock where
  id : String
  runId : String
  token : String
  owner : String
  agent : String
  origin : LockOrigin
  taskSha256 : String
  cwd : Directory
  lockType : LockType
  paths : List PathText
  createdAt : Nat
  expiresAt : Nat
  editsCheckout : Bool
  deriving DecidableEq

def AcquireArgs.origin (args : AcquireArgs) : LockOrigin :=
  if args.manual then .manual else .internal

def AcquireArgs.recoveryAuthority (args : AcquireArgs) : Bool :=
  args.integrationRecoveryAuthority && !args.manual

def AcquireArgs.lockEditsCheckout (args : AcquireArgs) (worktreesOff : Bool) : Bool :=
  args.editsCheckout.getD
    (!(!args.manual && parseLockType args.lockType == some .write && !worktreesOff))

def tokenSha256 (token : String) : String := "sha256:" ++ runtime.sha256 token

/-- `Math.min(MAX_LOCK_TTL_MS, Math.max(1000, Number(ttlMs) || DEFAULT_LOCK_TTL_MS))` -/
def lockTtl (ttlMs : Int) : Nat :=
  min maxLockTtlMs (max 1000 (if ttlMs = 0 then defaultLockTtlMs else ttlMs.toNat))

def AcquireArgs.requestedPaths (args : AcquireArgs) : List PathText :=
  if args.repositoryScope then [repositoryScopeLockPath] else args.paths

/-- The paths an accepted request writes to its rows. -/
def lockPathsRequested (args : AcquireArgs) (view : HostView) : List PathText :=
  normalizeLockPathListForCwd ⟨runtime.platform, view⟩ args.requestedPaths args.cwd

/-- The checks made before the transaction. -/
def admitLockRequest (args : AcquireArgs) (input : AcquireInput) : Except Refusal LockType :=
  let host : Host := ⟨runtime.platform, input.view⟩
  let paths := lockPathsRequested runtime args input.view
  let unsafeReason :=
    if args.repositoryScope then "" else unsafePathReason host args.requestedPaths args.cwd
  if input.recoveryBlocked ∧ parseLockType args.lockType ≠ some .read ∧
      args.recoveryAuthority = false then
    .error ⟨"integration_recovery_pending", "Repository mutation is blocked until the durable integration journal is recovered or explicitly quarantined."⟩
  else match parseLockType args.lockType with
    | none =>
      .error ⟨"lock_request_rejected", "Invalid lockType \"" ++ String.ofList args.lockType ++ "\". Use read, write, or serial_integration."⟩
    | some lockType =>
      if args.repositoryScope ∧ (args.manual ∨ lockType = .write) then
        .error ⟨"lock_request_rejected", "Repository-wide scope is reserved for internal read or serial-integration consistency leases."⟩
      else if paths = [] then
        .error ⟨"lock_request_rejected", "Write lock rejected: paths are required."⟩
      else if unsafeReason ≠ "" then
        .error ⟨"lock_path_unsafe", "Write lock rejected: " ++ unsafeReason⟩
      else if hasAmbiguousPathPattern host paths args.cwd then
        .error ⟨"lock_path_ambiguous", "Write lock rejected: wildcard or ambiguous paths are not allowed."⟩
      else .ok lockType

def unresolvedOperation (db : LockDb) (cwd : Directory) : Option IntegrationOperation :=
  db.operations.find? fun operation => operation.cwd = cwd ∧ operation.status.resolved = false

def acquireClaim (args : AcquireArgs) (input : AcquireInput) (lockType : LockType) : LockClaim :=
  { lockType := lockType
    paths := lockPathsRequested runtime args input.view
    origin := args.origin
    editsCheckout := some (args.lockEditsCheckout input.worktreesOff) }

def acquiredRow (args : AcquireArgs) (input : AcquireInput) (lockType : LockType)
    (path : PathText) : LockRow :=
  { normalizedPath := path
    ownerAgent := if args.agent = "" then args.owner else args.agent
    acquisitionOrigin := args.origin
    runId := input.runId
    token := tokenSha256 runtime input.token
    lockMode := lockType
    expiresAt := input.now + lockTtl args.ttlMs
    createdAt := input.now
    cwd := args.cwd
    task := "sha256:" ++ runtime.sha256 args.task
    editsCheckout := some (args.lockEditsCheckout input.worktreesOff) }

def acquiredRun (args : AcquireArgs) (input : AcquireInput) (lockType : LockType) : RunRow :=
  { runId := input.runId
    agent := args.agent
    status := .running
    lockMode := lockType
    startedAt := input.now
    finishedAt := none
    containment := "" }

def acquiredLock (args : AcquireArgs) (input : AcquireInput) (lockType : LockType) : HeldLock :=
  { id := input.runId
    runId := input.runId
    token := input.token
    owner := args.owner
    agent := args.agent
    origin := args.origin
    taskSha256 := runtime.sha256 args.task
    cwd := args.cwd
    lockType := lockType
    paths := lockPathsRequested runtime args input.view
    createdAt := input.now
    expiresAt := input.now + lockTtl args.ttlMs
    editsCheckout := args.lockEditsCheckout input.worktreesOff }

/-- The primary keys of `runs`, `locks` and `queue_job_locks` refuse the insert. -/
def insertRefused (db : LockDb) (paths : List PathText) (runId : String) (queued : Bool) : Bool :=
  db.runs.any (·.runId = runId) ||
    db.locks.any (fun row => row.runId = runId ∧ row.normalizedPath ∈ paths) ||
    (queued && db.queueJobLocks.any (·.lockId = runId))

def conflictPath (conflict : LockConflict) : PathText :=
  normalizeLockPath ((conflict.overlap.1.or (conflict.overlap.2.or conflict.paths.head?)).getD [])

def conflictRefusal (conflict : LockConflict) : Refusal :=
  let path := conflictPath conflict
  ⟨"", "Write lock conflict on: " ++ (if path = [] then "unknown" else String.ofList path)⟩

/-- The first kept lock that refuses the request. -/
def findConflict (db : LockDb) (args : AcquireArgs) (input : AcquireInput) (lockType : LockType) :
    Option LockConflict :=
  (listLocksFromDb db input.now).findSome?
    (conflictsWithActiveLock runtime.platform input.worktreesOff
      (acquireClaim runtime args input lockType))

def acquireTransaction (db : LockDb) (args : AcquireArgs) (input : AcquireInput)
    (lockType : LockType) : Except Refusal HeldLock × LockDb :=
  let paths := lockPathsRequested runtime args input.view
  let kept := expireLocksFromDb db input.now
  if lockType ≠ .read ∧ args.recoveryAuthority = false ∧
      (unresolvedOperation db args.cwd).isSome then
    (.error ⟨"integration_recovery_pending", "Repository mutation is blocked by an unresolved durable integration operation."⟩, db)
  else match findConflict runtime db args input lockType with
    | some conflict => (.error (conflictRefusal conflict), db)
    | none =>
      if insertRefused kept paths input.runId args.queueOwner.isSome then
        (.error ⟨"lock_database_failed", "Write lock rejected: UNIQUE constraint failed"⟩, db)
      else if args.queueOwner.any fun owner => owner ∉ kept.activeOwners ∨ args.manual then
        (.error ⟨"queue_ownership_lost", "The queue job no longer owns its durable generation."⟩, db)
      else
        (.ok (acquiredLock runtime args input lockType),
          { kept with
            locks := kept.locks ++ paths.map (acquiredRow runtime args input lockType)
            runs := kept.runs ++ [acquiredRun args input lockType]
            queueJobLocks := kept.queueJobLocks ++
              (args.queueOwner.toList.map fun owner =>
                ⟨input.runId, owner.jobId, owner.ownerGeneration⟩) })

def acquireHardLock (db : LockDb) (args : AcquireArgs) (input : AcquireInput) :
    Except Refusal HeldLock × LockDb :=
  match admitLockRequest runtime args input with
  | .error refusal => (.error refusal, db)
  | .ok lockType => acquireTransaction runtime db args input lockType

/-- The cleanup after a failed `COMMIT` of an acquisition: what it may have
inserted is removed by run id and fresh token. -/
def discardFailedAcquire (db : LockDb) (runId token : String) (queued : Bool) (now : Nat) : LockDb :=
  { db with
    locks := db.locks.filter fun row => ¬ (row.runId = runId ∧ row.token = tokenSha256 runtime token)
    runs := db.runs.map fun run =>
      if run.runId = runId ∧ run.status = .running then
        { run with status := .released, finishedAt := some now }
      else run
    queueJobLocks :=
      if queued then db.queueJobLocks.filter (·.lockId ≠ runId) else db.queueJobLocks }

/-! ### Release and renewal -/

def releaseHardLock (db : LockDb) (lockId token : String) (paths : List PathText) (now : Nat) :
    Bool × LockDb :=
  let requestedPaths := normalizeLockPathList paths
  let released (row : LockRow) : Bool :=
    row.runId = lockId ∧ row.token = tokenSha256 runtime token ∧
      (requestedPaths = [] ∨ row.normalizedPath ∈ requestedPaths)
  if lockId = "" ∨ token = "" ∨ db.locks.any released = false then (false, db)
  else
    let locks := db.locks.filter fun row => !released row
    let db' := { db with locks := locks }
    let db'' :=
      if hasLockRow locks lockId then db'
      else
        { db' with
          runs := db'.runs.map fun run =>
            if run.runId = lockId then
              { run with status := .released, finishedAt := some now }
            else run
          queueJobLocks := db'.queueJobLocks.filter (·.lockId ≠ lockId) }
    (true, expireLocksFromDb db'' now)

/-- The renewal of one heartbeat pulse. The clock is read before the database is
opened, and a quarantined row is never renewed. -/
def heartbeatPulse (db : LockDb) (lock : HeldLock) (ttlMs : Int) (now : Nat) : LockDb :=
  let effectiveTtlMs := max 250 (if ttlMs = 0 then defaultLockTtlMs else ttlMs.toNat)
  { db with
    locks := db.locks.map fun row =>
      if row.runId = lock.id ∧ row.token = tokenSha256 runtime lock.token ∧
          now < row.expiresAt ∧ row.expiresAt ≠ maxSafeInteger then
        { row with expiresAt := now + effectiveTtlMs }
      else row }

/-- `releaseQueueJobLocks` of the queue's stale-lease reconciliation. -/
def releaseQueueJobLocks (db : LockDb) (lockId : String) (now : Nat) : LockDb :=
  let removed (row : LockRow) : Bool := row.runId = lockId ∧ row.expiresAt ≠ maxSafeInteger
  let locks := db.locks.filter fun row => !removed row
  let gone := hasLockRow locks lockId = false
  { db with
    locks := locks
    runs := db.runs.map fun run =>
      if db.locks.any removed ∧ gone ∧ run.runId = lockId ∧ run.status = .running then
        { run with status := .expired, finishedAt := some now }
      else run
    queueJobLocks :=
      if gone then db.queueJobLocks.filter (·.lockId ≠ lockId) else db.queueJobLocks }

/-- One run of `reclaimProvenGoneLockQuarantines`, once its containment is known
to be over. -/
def reclaimLockQuarantine (db : LockDb) (runId : String) (now : Nat) : LockDb :=
  let locks := db.locks.filter fun row => ¬ (row.runId = runId ∧ row.expiresAt = maxSafeInteger)
  { db with
    locks := locks
    runs := db.runs.map fun run =>
      if run.runId = runId ∧ run.status = .quarantined then
        { run with status := .quarantineReleased, finishedAt := some (run.finishedAt.getD now) }
      else run
    queueJobLocks :=
      if hasLockRow locks runId then db.queueJobLocks
      else db.queueJobLocks.filter (·.lockId ≠ runId) }

/-! ### Finalizer protection -/

/-- The exact rows and the containment text that `beginFinalizerValidationProtection`
saw; restoring needs them. -/
structure FinalizerReceipt where
  row : LockRow
  run : RunRow
  containment : String
  deriving DecidableEq

def pipelineFinalizerAgent : String := "pipeline_finalizer"

def isFinalizerRepositoryLock (lock : HeldLock) : Bool :=
  lock.id ≠ "" ∧ lock.runId = lock.id ∧ lock.token ≠ "" ∧ lock.agent = pipelineFinalizerAgent ∧
    lock.origin = .internal ∧ lock.paths = [repositoryScopeLockPath]

/-- The single lock row and the open run of the finalizer's own lock. -/
def finalizerRows (db : LockDb) (lock : HeldLock) : Option (LockRow × RunRow) :=
  match db.locks.filter (·.runId = lock.id), db.runs.find? (·.runId = lock.id) with
  | [row], some run =>
    if isFinalizerRepositoryLock lock ∧ row.token = tokenSha256 runtime lock.token ∧
        row.normalizedPath = repositoryScopeLockPath ∧ row.ownerAgent = lock.agent ∧
        row.acquisitionOrigin = .internal ∧ row.cwd = lock.cwd ∧
        row.createdAt = lock.createdAt ∧ row.task = "sha256:" ++ lock.taskSha256 ∧
        run.agent = lock.agent ∧ run.startedAt = lock.createdAt ∧ run.finishedAt = none then
      some (row, run)
    else none
  | _, _ => none

/-- The guard of restoration and of the finalizer's own quarantine. -/
def matchesFinalizerProtection (db : LockDb) (lock : HeldLock) (receipt : FinalizerReceipt) : Bool :=
  match finalizerRows runtime db lock with
  | none => false
  | some (row, run) =>
    receipt.row.runId = lock.id ∧ row.token = receipt.row.token ∧ row.cwd = receipt.row.cwd ∧
      row.createdAt = receipt.row.createdAt ∧ row.task = receipt.row.task ∧
      row.ownerAgent = receipt.row.ownerAgent ∧
      row.acquisitionOrigin = receipt.row.acquisitionOrigin ∧
      row.normalizedPath = receipt.row.normalizedPath ∧
      row.lockMode = .serialIntegration ∧ row.expiresAt = maxSafeInteger ∧
      row.editsCheckout = some true ∧ run.lockMode = .serialIntegration ∧
      run.status = .running ∧ run.containment = receipt.containment

def finalizerProtectionClaim : LockClaim :=
  { lockType := .serialIntegration
    paths := [repositoryScopeLockPath]
    origin := .internal
    editsCheckout := some true }

/-- Rewrite the rows of a run that carry its token. -/
def updateOwnRows (locks : List LockRow) (runId token : String) (f : LockRow → LockRow) :
    List LockRow :=
  locks.map fun row => if row.runId = runId ∧ row.token = token then f row else row

/-- The first lock of another run that excludes checkout validation. -/
def finalizerConflict (db : LockDb) (lock : HeldLock) (now : Nat) (worktreesOff : Bool) :
    Option LockConflict :=
  ((listLocksFromDb db now).filter (·.id ≠ lock.id)).findSome?
    (conflictsWithActiveLock runtime.platform worktreesOff finalizerProtectionClaim)

/-- Upgrade the finalizer's repository reader to an unexpiring serial lock,
provided nothing else is held. -/
def beginFinalizerValidationProtection (db : LockDb) (lock : HeldLock) (containment : String)
    (now : Nat) (worktreesOff recoveryBlocked : Bool) : Except Refusal FinalizerReceipt × LockDb :=
  if isFinalizerRepositoryLock lock = false ∨ lock.lockType ≠ .read then
    (.error ⟨"read_lock_ownership_lost", "The finalizer repository reader is not owned."⟩, db)
  else if ¬ ((runtime.parseContainment containment).any fun info =>
      info.complete = false ∧ info.pids = [] ∧ 0 < info.recordedAt) then
    (.error ⟨"final_validation_protection_failed", "Provisional containment evidence must be conservative and incomplete."⟩, db)
  else match finalizerRows runtime db lock with
    | none => (.error ⟨"read_lock_ownership_lost", "The exact unexpired finalizer reader is no longer owned."⟩, db)
    | some (row, run) =>
      if row.lockMode ≠ .read ∨ row.expiresAt ≤ now ∨ maxSafeInteger ≤ row.expiresAt ∨
          run.status ≠ .running ∨ run.lockMode ≠ .read ∨
          row.editsCheckout ≠ some lock.editsCheckout then
        (.error ⟨"read_lock_ownership_lost", "The exact unexpired finalizer reader is no longer owned."⟩, db)
      else if recoveryBlocked ∨ (unresolvedOperation db lock.cwd).isSome then
        (.error ⟨"integration_recovery_pending", "Checkout validation requires exclusive repository protection; retry after conflicting readers or recovery finish."⟩, db)
      else if (finalizerConflict runtime db lock now worktreesOff).isSome then
        (.error ⟨"pipeline_finalization_lock_conflict", "Checkout validation requires exclusive repository protection; retry after conflicting readers or recovery finish."⟩, db)
      else
        let kept := expireLocksFromDb db now
        (.ok ⟨row, run, containment⟩,
          { kept with
            locks := updateOwnRows kept.locks lock.id row.token fun held =>
              { held with
                lockMode := .serialIntegration
                editsCheckout := some true
                expiresAt := maxSafeInteger }
            runs := kept.runs.map fun r =>
              if r.runId = lock.id ∧ r.status = .running then
                { r with lockMode := .serialIntegration, containment := containment }
              else r })

/-- Give the exact protection back as the read lease it was made from. -/
def restoreFinalizerReadLease (db : LockDb) (lock : HeldLock) (receipt : FinalizerReceipt)
    (ttlMs : Int) (now : Nat) : Bool × LockDb :=
  if matchesFinalizerProtection runtime db lock receipt = false then (false, db)
  else
    (true,
      { db with
        locks := updateOwnRows db.locks lock.id receipt.row.token fun held =>
          { held with
            lockMode := .read
            editsCheckout := receipt.row.editsCheckout
            expiresAt := now + lockTtl ttlMs }
        runs := db.runs.map fun r =>
          if r.runId = lock.id then
            { r with
              status := receipt.run.status
              lockMode := receipt.run.lockMode
              containment := receipt.run.containment
              finishedAt := receipt.run.finishedAt }
          else r })

/-! ### Containment quarantine -/

def quarantineMode (lock : HeldLock) (exclusive : Bool) : LockType :=
  if exclusive then .serialIntegration else lock.lockType

/-- The held rows as a quarantine rewrites them. -/
def quarantineRow (exclusive : Bool) (row : LockRow) : LockRow :=
  if exclusive then
    { row with
      expiresAt := maxSafeInteger, lockMode := .serialIntegration, editsCheckout := some true }
  else { row with expiresAt := maxSafeInteger }

/-- A row inserted for a path of the lock that is no longer held. -/
def reinsertedRow (lock : HeldLock) (exclusive : Bool) (now : Nat) (path : PathText) : LockRow :=
  { normalizedPath := path
    ownerAgent := if lock.agent ≠ "" then lock.agent else if lock.owner ≠ "" then lock.owner else "opencode"
    acquisitionOrigin := lock.origin
    runId := lock.id
    token := tokenSha256 runtime lock.token
    lockMode := quarantineMode lock exclusive
    expiresAt := maxSafeInteger
    createdAt := if lock.createdAt = 0 then now else lock.createdAt
    cwd := lock.cwd
    task := "sha256:" ++ lock.taskSha256
    editsCheckout := some (exclusive || lock.editsCheckout) }

def quarantineRun (runs : List RunRow) (lock : HeldLock) (exclusive : Bool) (containment : String)
    (now : Nat) : List RunRow :=
  if runs.any (·.runId = lock.id) then
    runs.map fun run =>
      if run.runId = lock.id then
        { run with
          status := .quarantined
          finishedAt := none
          containment := containment
          lockMode := if exclusive then .serialIntegration else run.lockMode }
      else run
  else
    runs ++ [{ runId := lock.id
               agent := if lock.agent ≠ "" then lock.agent else if lock.owner ≠ "" then lock.owner else "opencode"
               status := .quarantined
               lockMode := quarantineMode lock exclusive
               startedAt := if lock.createdAt = 0 then now else lock.createdAt
               finishedAt := none
               containment := containment }]

/-- The lock table after the default quarantine: held rows stop expiring and the
missing paths of the lock are inserted again. `none` when a primary key refuses
an insert or there is nothing to hold. -/
def quarantinedLocks (locks : List LockRow) (lock : HeldLock) (exclusive : Bool) (now : Nat) :
    Option (List LockRow) :=
  let token := tokenSha256 runtime lock.token
  let held := updateOwnRows locks lock.id token (quarantineRow exclusive)
  let heldPaths := (held.filter fun row =>
    row.runId = lock.id ∧ row.token = token ∧ row.expiresAt = maxSafeInteger).map (·.normalizedPath)
  let missing := lock.paths.filter (· ∉ heldPaths)
  if heldPaths = [] ∧ lock.paths = [] then none
  else if ¬ missing.Nodup ∨
      held.any (fun row => row.runId = lock.id ∧ row.normalizedPath ∈ missing) then none
  else some (held ++ missing.map (reinsertedRow runtime lock exclusive now))

def quarantineHardLock (db : LockDb) (lock : HeldLock) (containment : String) (exclusive : Bool)
    (expectedProtection : Option FinalizerReceipt) (now : Nat) : Bool × LockDb :=
  if lock.id = "" ∨ lock.token = "" then (false, db)
  else if exclusive ∧ (lock.agent ≠ pipelineFinalizerAgent ∨ lock.origin ≠ .internal ∨
      lock.lockType = .write ∨ lock.paths ≠ [repositoryScopeLockPath]) then (false, db)
  else match expectedProtection with
    | some receipt =>
      if exclusive = false ∨ matchesFinalizerProtection runtime db lock receipt = false then
        (false, db)
      else
        (true,
          { db with
            runs := db.runs.map fun run =>
              if run.runId = lock.id then
                { run with status := .quarantined, containment := containment }
              else run })
    | none =>
      match quarantinedLocks runtime db.locks lock exclusive now with
      | none => (false, db)
      | some locks =>
        (true,
          { db with
            locks := locks
            runs := quarantineRun db.runs lock exclusive containment now })

end Locks

end AgentBridge
