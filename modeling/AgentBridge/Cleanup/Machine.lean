import AgentBridge.Systems.Program
import AgentBridge.Worktrees.Writes

/-!
# The deferred cleanup of integrated worktrees

The table of source worktrees to remove, the registry of worktrees, the worktrees and branches
of the repository and the target checkout, with the commands through which `enqueue` and
`drain` reach them. Before each command other processes may change any of these, and a command
may fail.

A hash stands for what it is taken of: `sourceStateSha256` is the list of its five inputs.
-/

namespace AgentBridge.Cleanup

open Systems Worktrees

abbrev Oid := String

abbrev BranchName := List String

structure SourceState where
  /-- `sourceBaseCommit` -/
  base : Oid
  /-- `sourceHead` -/
  head : Oid
  status : String
  patchSha256 : String
  indexSha256 : String
  deriving DecidableEq

/-- A worktree of the repository as Git reads it. -/
structure SourceTree where
  /-- `git branch --show-current`; `none` for a detached HEAD. -/
  branch : Option BranchName
  head : Oid
  status : String
  indexSha256 : String
  /-- The patch since a commit; `none` when the source cannot be represented. -/
  patchSha256 : Oid → Option String

def SourceTree.createPatch (tree : SourceTree) (base : Oid) : Option SourceState :=
  (tree.patchSha256 base).map fun patch => ⟨base, tree.head, tree.status, patch, tree.indexSha256⟩

structure TargetCapture where
  targetStateSha256 : String
  trackedStateSha256 : String

/-- The checkout that a patch was integrated into. -/
structure Target where
  /-- `captureIntegrationTargetState` with its `trustIndexStat`. -/
  capture : Bool → Option TargetCapture
  /-- `git merge-base --is-ancestor <commit> HEAD` -/
  inHistory : Oid → Bool
  /-- The identity of an exact snapshot of the paths. -/
  files : List String → String

/-- `payload_json`. Its `ok`, `status` and `validationGate` are the constants of an applied and
validated integration; a hash is `none` where the text is none. -/
structure CleanupPayload where
  source : SourceState
  committedCommit : Option Oid
  changedFiles : List String
  integratedTargetStateSha256 : Option String
  integratedTrackedStateSha256 : Option String
  deriving DecidableEq

inductive CleanupStatus where
  | pending | retained
  deriving DecidableEq

structure CleanupRow where
  worktreePath : String
  cwd : Directory
  branch : BranchName
  payload : CleanupPayload
  status : CleanupStatus
  deriving DecidableEq

/-- What deferred cleanup reads and writes. The rows are in the order of their `updated_at`:
a write of a row moves it to the end. -/
structure CleanupState where
  rows : List CleanupRow
  artifacts : List ArtifactRow
  sources : String → Option SourceTree
  branches : List (BranchName × Oid)
  target : Target

namespace CleanupState

variable (state : CleanupState)

def row (worktreePath : String) : Option CleanupRow :=
  state.rows.find? fun row => row.worktreePath = worktreePath

def artifactStatus (worktreePath : String) : Option ArtifactStatus :=
  (state.artifacts.find? fun row => row.worktreePath = worktreePath).map ArtifactRow.status

/-- `git show-ref --hash --verify refs/heads/<branch>` -/
def tip (branch : BranchName) : Option Oid :=
  (state.branches.find? fun entry => entry.1 = branch).map Prod.snd

/-- `git for-each-ref refs/heads/<branch>`: the branch and those below it. -/
def refsUnder (branch : BranchName) : List BranchName :=
  (state.branches.filter fun entry => branch.isPrefixOf entry.1).map Prod.fst

def setSource (worktreePath : String) (tree : Option SourceTree) : CleanupState :=
  { state with sources := fun path => if path = worktreePath then tree else state.sources path }

def deleteBranch (branch : BranchName) : CleanupState :=
  { state with branches := state.branches.filter fun entry => entry.1 ≠ branch }

/-- `INSERT … ON CONFLICT(worktree_path) DO UPDATE` -/
def upsertRow (row : CleanupRow) : CleanupState :=
  { state with rows := state.rows.filter (·.worktreePath ≠ row.worktreePath) ++ [row] }

/-- The rows that a drained row still stands for. -/
def selects (row : CleanupRow) (other : CleanupRow) : Bool :=
  other.worktreePath = row.worktreePath && other.payload = row.payload

def deleteRow (row : CleanupRow) : CleanupState :=
  { state with rows := state.rows.filter fun other => !selects row other }

/-- `UPDATE … SET status = ?, updated_at = ? WHERE worktree_path = ? AND payload_json = ?` -/
def updateRow (row : CleanupRow) (status : CleanupStatus) : CleanupState :=
  { state with
    rows := (state.rows.filter fun other => !selects row other)
      ++ (state.rows.filter (selects row)).map fun other => { other with status := status } }

end CleanupState

/-- The registry is read by its primary key. -/
theorem CleanupState.artifactStatus_eq {state : CleanupState}
    (hunique : UniquePaths state.artifacts) {artifact : ArtifactRow}
    (hartifact : artifact ∈ state.artifacts) :
    state.artifactStatus artifact.worktreePath = some artifact.status := by
  unfold CleanupState.artifactStatus
  cases hfind : state.artifacts.find? fun row => row.worktreePath = artifact.worktreePath with
  | none =>
    have hnone := List.find?_eq_none.mp hfind artifact hartifact
    simp at hnone
  | some first =>
    have hfirst := List.find?_some hfind
    rw [List.inj_on_of_nodup_map hunique (List.mem_of_find?_eq_some hfind) hartifact
      (by simpa using hfirst), Option.map_some]

structure CleanupConfig where
  worktrees : WorktreeConfig
  gitHeavyTimeoutMs : Nat

/-- The lease of a drain. -/
def CleanupConfig.ttlMs (config : CleanupConfig) : Nat :=
  max 600000 (config.gitHeavyTimeoutMs * 4)

/-! ## What happens around a command -/

/-- The transaction is about the repository at `cwd`, the only one of its database, and only
`claimRetainedWorktree` sets a worktree in use. -/
def registryWriteOf (cwd : Directory) (write : RegistryWrite) : Bool :=
  write.under cwd && match write with
    | .mark _ _ status _ => status ≠ .inUse
    | .reconcile _ discovered => discovered.all fun item => item.status ≠ .inUse
    | _ => true

inductive CleanupChange (cwd : Directory) where
  | source (worktreePath : String) (tree : Option SourceTree)
  | branch (branch : BranchName) (tip : Option Oid)
  | target (target : Target)
  /-- Another call enqueues or drains. -/
  | rows (rows : List CleanupRow)
  | registry (host : WorktreeHost) (write : RegistryWrite)
      (allowed : registryWriteOf cwd write = true)
  | locks (locks : List LockRow)
  | clock (now : Nat)

structure CleanupEnv (cwd : Directory) where
  changes : List (CleanupChange cwd) := []
  /-- The command throws. -/
  fault : Option String := none
  /-- Git answers with an error. -/
  gitFails : Bool := false
  /-- The lock that `acquireHardLock` grants. -/
  grants : Option (String × String) := none
  foreground : Bool := false
  aborted : Bool := false
  /-- `measureRetainedWorktreeBytes`, which may throw. -/
  measures : Except String Nat := .ok 0

/-- How one row of a drain ends. -/
inductive CleanupOutcome where
  | success
  /-- The worktree is gone, its branch is not. -/
  | partly
  | failed (error : String)
  | retainedForReview (reason : String)

inductive CleanupCommand where
  | selectPending
  | foregroundIntegrationActive
  | acquireHardLock
  | heartbeatAborted
  | readRow (worktreePath : String)
  | readArtifactStatus (worktreePath : String)
  | mergeBaseIsAncestor (commit : Oid)
  | showRef (branch : BranchName)
  | existsSync (worktreePath : String)
  | forEachRef (branch : BranchName)
  | captureTargetState (trustIndexStat : Bool)
  | exactFileSnapshot (files : List String)
  | verifyOwnership
  | showCurrentBranch (worktreePath : String)
  | createPatch (worktreePath : String) (base : Oid)
  | detachWorktreeLinks (worktreePath : String)
  | worktreeRemove (worktreePath : String)
  | updateRefDelete (branch : BranchName) (oid : Oid)
  | measureBytes (worktreePath : String)
  | markArtifact (worktreePath : String) (status : ArtifactStatus) (bytes : Option Nat)
  | settleRow (row : CleanupRow) (outcome : CleanupOutcome)
  | insertRow (row : CleanupRow) (operationId : String)
  | releaseHardLock

def CleanupReply : CleanupCommand → Type
  | .selectPending => List CleanupRow
  | .readRow _ => Option CleanupRow
  | .readArtifactStatus _ => Option ArtifactStatus
  | .showRef _ => Option Oid
  | .forEachRef _ => Option (List BranchName)
  | .captureTargetState _ => Option TargetCapture
  | .exactFileSnapshot _ => String
  | .showCurrentBranch _ => Option BranchName
  | .createPatch .. => Option SourceState
  | .measureBytes _ => Nat
  | .foregroundIntegrationActive | .acquireHardLock | .heartbeatAborted
  | .mergeBaseIsAncestor _ | .existsSync _ | .worktreeRemove _ | .updateRefDelete ..
  | .insertRow .. => Bool
  | .verifyOwnership | .detachWorktreeLinks _ | .markArtifact .. | .settleRow ..
  | .releaseHardLock => Unit

/-! ## What a process has read -/

/-- What a process read last under its lock about the row it is at. -/
structure Checks where
  locked : Bool := false
  row : Option CleanupRow := none
  source : Option (String × SourceState) := none
  tip : Option (BranchName × Oid) := none
  target : Option TargetCapture := none
  ancestor : Option Oid := none
  /-- Since the source and the target were read the lock was verified. -/
  verified : Bool := false

/-- What the answer of a command adds. -/
def Checks.note (checks : Checks) : (command : CleanupCommand) → CleanupReply command → Checks
  | .acquireHardLock, true => { locked := true }
  | .readRow _, row => { locked := checks.locked, row := row }
  | .mergeBaseIsAncestor commit, true => { checks with ancestor := some commit, verified := false }
  | .mergeBaseIsAncestor _, false => { checks with ancestor := none, verified := false }
  | .showRef branch, tip => { checks with tip := Option.map (branch, ·) tip }
  | .captureTargetState _, capture => { checks with target := capture, verified := false }
  | .createPatch worktreePath _, source =>
    { checks with source := Option.map (worktreePath, ·) source, verified := false }
  | .verifyOwnership, _ => { checks with verified := true }
  | _, _ => checks

structure Removal where
  worktreePath : String
  checks : Checks
  /-- The registry has the worktree in use. -/
  inUse : Bool
  /-- The lock was never gone or past its expiry since it was acquired. -/
  lockKept : Bool

structure Deletion where
  branch : BranchName
  tip : Oid
  checks : Checks

/-- The repository and one process on it, with a record of what it removed and deleted. -/
structure CleanupMachine where
  state : CleanupState
  locks : List LockRow
  now : Nat
  /-- The lock of the process. -/
  lock : Option LockRow
  lockKept : Bool
  checks : Checks
  removals : List Removal
  deletions : List Deletion

namespace CleanupMachine

/-- A process that has done nothing yet. -/
def start (state : CleanupState) (locks : List LockRow) (now : Nat) : CleanupMachine :=
  { state, locks, now, lock := none, lockKept := false, checks := {}, removals := []
    deletions := [] }

/-- The next process, after the one before has ended or crashed. -/
def next (s : CleanupMachine) : CleanupMachine :=
  { s with lock := none, lockKept := false, checks := {} }

/-- `assertIntegrationLockOwned`: the row of the lock is there and has not expired. -/
def owns (cwd : Directory) (lock : LockRow) (locks : List LockRow) (now : Nat) : Bool :=
  locks.any fun row => row.runId = lock.runId && row.token = lock.token && row.cwd = cwd
    && row.lockMode = .serialIntegration && now < row.expiresAt

def lockOwned (cwd : Directory) (s : CleanupMachine) : Bool :=
  s.lock.any fun lock => owns cwd lock s.locks s.now

variable (config : CleanupConfig) {cwd : Directory}

/-- The registry as its transactions read the rest. -/
def host (s : CleanupMachine) : WorktreeHost :=
  ⟨none, none, none, some s.locks, [], [], s.now⟩

def writeRegistry (s : CleanupMachine) (host : WorktreeHost) (write : RegistryWrite) :
    CleanupMachine :=
  let host := { host with locks := some s.locks, now := s.now }
  { s with
    state := { s.state with
      artifacts := write.exec config.worktrees host s.state.artifacts } }

def change (s : CleanupMachine) : CleanupChange cwd → CleanupMachine
  | .source worktreePath tree => { s with state := s.state.setSource worktreePath tree }
  | .branch branch tip =>
    let state := s.state.deleteBranch branch
    { s with
      state := { state with branches := (tip.map (branch, ·)).toList ++ state.branches } }
  | .target target => { s with state := { s.state with target := target } }
  | .rows rows => { s with state := { s.state with rows := rows } }
  | .registry host write _ => s.writeRegistry config host write
  | .locks locks => { s with locks := locks }
  | .clock now => { s with now := now }

/-- One change, and whether the process still has its lock. -/
def interfere (s : CleanupMachine) (change : CleanupChange cwd) : CleanupMachine :=
  let s' := s.change config change
  { s' with lockKept := s.lockKept && lockOwned cwd s' }

end CleanupMachine

/-! ## One command -/

section

variable (config : CleanupConfig) {cwd : Directory}

open CleanupMachine

/-- The row of the lock that is granted. -/
def serialLock (cwd : Directory) (config : CleanupConfig) (granted : String × String) (now : Nat) :
    LockRow where
  normalizedPath := []
  ownerAgent := "codex"
  acquisitionOrigin := .internal
  runId := granted.1
  token := granted.2
  lockMode := .serialIntegration
  expiresAt := now + config.ttlMs
  createdAt := now
  cwd := cwd
  task := "Deferred reviewed worktree cleanup"
  editsCheckout := none

/-- The final transaction of a row. -/
def settle (s : CleanupMachine) (row : CleanupRow) : CleanupOutcome → CleanupMachine
  | .success =>
    { s with state := s.state.deleteRow row }.writeRegistry config s.host
      (.drainRemoved row.worktreePath)
  | .retainedForReview _ =>
    { s with state := s.state.updateRow row .retained }.writeRegistry config s.host
      (.drainKept row.worktreePath true)
  | .partly | .failed _ =>
    { s with state := s.state.updateRow row .pending }.writeRegistry config s.host
      (.drainKept row.worktreePath false)

/-- Carry out a command that does not throw. -/
def perform (env : CleanupEnv cwd) (s : CleanupMachine) :
    (command : CleanupCommand) → CleanupMachine × Except String (CleanupReply command)
  | .selectPending =>
    (s, .ok (s.state.rows.filter fun row => row.cwd = cwd && row.status = .pending))
  | .foregroundIntegrationActive => (s, .ok env.foreground)
  | .acquireHardLock =>
    match env.grants with
    | none => (s, .ok false)
    | some granted =>
      let lock := serialLock cwd config granted s.now
      ({ s with locks := s.locks ++ [lock], lock := some lock, lockKept := true }, .ok true)
  | .heartbeatAborted => (s, .ok env.aborted)
  | .readRow worktreePath => (s, .ok (s.state.row worktreePath))
  | .readArtifactStatus worktreePath => (s, .ok (s.state.artifactStatus worktreePath))
  | .mergeBaseIsAncestor commit => (s, .ok (!env.gitFails && s.state.target.inHistory commit))
  | .showRef branch => (s, .ok (if env.gitFails then none else s.state.tip branch))
  | .existsSync worktreePath => (s, .ok (s.state.sources worktreePath).isSome)
  | .forEachRef branch =>
    (s, .ok (if env.gitFails then none else some (s.state.refsUnder branch)))
  | .captureTargetState trustIndexStat =>
    (s, .ok (if env.gitFails then none else s.state.target.capture trustIndexStat))
  | .exactFileSnapshot files => (s, .ok (s.state.target.files files))
  | .verifyOwnership =>
    if lockOwned cwd s then (s, .ok ())
    else (s, .error "The durable serial integration lock is no longer owned.")
  | .showCurrentBranch worktreePath =>
    (s, .ok (if env.gitFails then none
      else (s.state.sources worktreePath).bind SourceTree.branch))
  | .createPatch worktreePath base =>
    (s, .ok (if env.gitFails then none
      else (s.state.sources worktreePath).bind (·.createPatch base)))
  | .detachWorktreeLinks _ => (s, .ok ())
  | .worktreeRemove worktreePath =>
    let removal := ⟨worktreePath, s.checks,
      s.state.artifacts.any fun row => row.worktreePath = worktreePath && row.status = .inUse,
      s.lockKept⟩
    ({ s with
        state := if env.gitFails then s.state else s.state.setSource worktreePath none
        removals := removal :: s.removals }, .ok (!env.gitFails))
  | .updateRefDelete branch oid =>
    -- Git compares the old value under its own lock of the reference.
    if !env.gitFails && s.state.tip branch = some oid then
      ({ s with
          state := s.state.deleteBranch branch
          deletions := ⟨branch, oid, s.checks⟩ :: s.deletions }, .ok true)
    else (s, .ok false)
  | .measureBytes _ => (s, env.measures)
  | .markArtifact worktreePath status bytes =>
    (s.writeRegistry config s.host (.mark cwd worktreePath status bytes), .ok ())
  | .settleRow row outcome =>
    if lockOwned cwd s then (settle config s row outcome, .ok ())
    else (s, .error "The durable serial integration lock is no longer owned.")
  | .insertRow row operationId =>
    if s.state.artifactStatus row.worktreePath = some .inUse then (s, .ok false)
    else
      ({ s with state := s.state.upsertRow row }.writeRegistry config s.host
        (.enqueueCleanup cwd row.worktreePath ("/".intercalate row.branch) operationId),
        .ok true)
  | .releaseHardLock =>
    ({ s with
        locks := s.locks.filter fun row => !s.lock.any fun lock =>
          row.runId = lock.runId && row.token = lock.token
        lock := none, lockKept := false }, .ok ())

/-- Execute a command after what other processes did. -/
def execute (env : CleanupEnv cwd) (s : CleanupMachine) (command : CleanupCommand) :
    CleanupMachine × Except String (CleanupReply command) :=
  let s := env.changes.foldl (interfere config) s
  match env.fault with
  | some error => (s, .error error)
  | none =>
    match perform config env s command with
    | (s, .ok reply) => ({ s with checks := s.checks.note command reply }, .ok reply)
    | (s, .error error) => (s, .error error)

end

end AgentBridge.Cleanup
