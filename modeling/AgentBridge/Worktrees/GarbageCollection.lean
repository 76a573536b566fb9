import AgentBridge.Pipelines.Record
import AgentBridge.Systems.Run
import AgentBridge.Worktrees.Registry

/-!
# The garbage collector

`bin/bridge-gc.js` beside live bridges. The inventory inspects the project databases,
then classifies the worktree directories and lists the registry rows whose directory is
missing; `applyReport` checks each removable worktree again, removes it and marks its
row, and then marks the listed rows. A bridge may do anything between two of these steps.

Reasons and details are texts for the operator and are left out, apart from the active
reasons that decide. So is the pruning of databases, which removes no worktree and marks
no row.
-/

namespace AgentBridge.Worktrees

open Systems Pipelines

/-! ### Uncommitted work -/

/-- An entry of `git status --porcelain=v1 -z`: a rename or a copy has a source. -/
structure StatusEntry where
  index : Char
  worktree : Char
  path : List Char
  source : Option (List Char)
  renamed : source.isSome = (index == 'R' || index == 'C' || worktree == 'R' || worktree == 'C')

/-- Untracked or ignored. -/
def StatusEntry.loose (entry : StatusEntry) : Bool :=
  (entry.index == '?' && entry.worktree == '?') || (entry.index == '!' && entry.worktree == '!')

/-- The records of the entry between two `NUL` characters. -/
def StatusEntry.records (entry : StatusEntry) : List (List Char) :=
  (entry.index :: entry.worktree :: ' ' :: entry.path) :: entry.source.toList

/-- `.replace(/\/$/, "")` -/
def withoutLastSlash (path : List Char) : List Char :=
  if path.getLast? = some '/' then path.dropLast else path

/-- The loop of `uncommittedWorktreeEntries` over the records. -/
def countRecords (isSymbolicLink : List Char → Bool) : List (List Char) → Nat
  | [] => 0
  | [] :: rest => countRecords isSymbolicLink rest
  | record :: rest =>
    let code := record.take 2
    let counted := if (code = ['?', '?'] ∨ code = ['!', '!']) ∧
        isSymbolicLink (withoutLastSlash (record.drop 3)) then 0 else 1
    if code.any fun c => c == 'R' || c == 'C' then
      match rest with
      | [] => counted
      | _ :: rest => counted + countRecords isSymbolicLink rest
    else counted + countRecords isSymbolicLink rest

/-- A worktree directory: what `git status` lists, `none` where git cannot say, and which
paths are links. -/
structure WorktreeTree where
  entries : Option (List StatusEntry)
  isSymbolicLink : List Char → Bool

/-- `none` stands for `-1`. -/
def uncommittedWorktreeEntries (tree : WorktreeTree) : Option Nat :=
  tree.entries.map fun entries =>
    countRecords tree.isSymbolicLink (entries.flatMap (·.records) ++ [[]])

/-! ### Project databases -/

def activeQueueStatus : QueueStatus → Bool
  | .held | .pending | .planned | .blocked | .running | .validating | .reviewing | .testing => true
  | .completed | .failed | .cancelled | .interrupted | .notResumable => false

/-- `ACTIVE_PIPELINE_STATUSES`; it also has `integrating`, which no pipeline is given. -/
def activePipelineStatus : RecordStatus → Bool
  | .running | .cleanupPending | .cleanupFailed | .awaitingIntegration => true
  | .planned | .awaitingFinalization | .finalizing | .completed | .failed | .cancelled => false

/-- The rows of a project database that the collector reads. -/
structure ProjectTables where
  jobs : List QueueStatus
  pipelines : List RecordStatus
  locks : List LockRow
  processes : List BridgeProcess
  operations : List IntegrationOperation
  /-- Of `integration_worktree_cleanup`: whether the row is pending. -/
  cleanups : List Bool
  artifacts : List ArtifactRow

def countReason (count : Nat) (text : String) : List String :=
  if 0 < count then [toString count ++ text] else []

/-- `activeReasons` of `inspectProjectDatabase`. -/
def activeReasons (tables : ProjectTables) (now : Nat) : List String :=
  countReason (tables.jobs.countP activeQueueStatus) " active queue job(s)" ++
    countReason (tables.pipelines.countP activePipelineStatus) " active pipeline(s)" ++
    countReason (tables.locks.countP (now < ·.expiresAt)) " unexpired lock(s)" ++
    countReason (tables.processes.countP (now < ·.leaseExpiresAt))
      " live bridge instance lease(s)" ++
    countReason (tables.operations.countP (!·.status.resolved))
      " unresolved integration operation(s)" ++
    countReason (tables.cleanups.countP id) " deferred cleanup task(s)"

/-- A database file; a bridge process may hold a row of the registry for the job it runs. -/
structure DatabaseFile where
  tables : ProjectTables
  /-- It opens, and is not locked for longer than the busy timeout. -/
  readable : Bool
  holder : String → Option String

/-- What the inventory keeps of a database. -/
structure Inspection where
  activeReasons : List String
  registry : List ArtifactRow

def inspectProjectDatabase (file : DatabaseFile) (now : Nat) : Inspection :=
  if file.readable then ⟨activeReasons file.tables now, file.tables.artifacts⟩
  else ⟨["unreadable"], []⟩

/-! ### Classification -/

structure GcOptions where
  includeRetained : Bool
  forceDirty : Bool
  olderThanDays : Nat

inductive GitLinkKind where
  | repository | unreadable | linked | missingGitLink
  deriving DecidableEq

inductive SourceState where
  | present | missing | unknown
  deriving DecidableEq

/-- What the file system says about an entry under the worktree root. -/
structure EntryView where
  isDirectory : Bool
  linkKind : GitLinkKind
  linkSource : Option String
  sourceState : SourceState
  ageDays : Nat

inductive Classification where
  | foreignEntry | inUse | cleanupPending | projectActive | sourceUnreachable
  | orphanSourceMissing | nestedRepository | unknownSource | staleCleanedDirectory
  | retainedForReview | retainedUncommittedWork

inductive GcAction where
  | keep | removeDirectory | removeWorktree
  deriving DecidableEq

/-- The decision chain of `inventory`, before the look at uncommitted work. -/
def classifyEntry (options : GcOptions) (projectActive : Bool) (row : Option ArtifactRow)
    (view : EntryView) : Classification × GcAction :=
  let status := row.map (·.status)
  let hasSource := view.linkSource.isSome || row.isSome
  if view.isDirectory = false then (.foreignEntry, .keep)
  else if status = some .cleanupPending then (.cleanupPending, .keep)
  else if status = some .inUse ∧ projectActive = false then (.inUse, .keep)
  else if projectActive then (.projectActive, .keep)
  else if hasSource ∧ view.sourceState = .unknown then (.sourceUnreachable, .keep)
  else if hasSource ∧ view.sourceState = .missing then
    (.orphanSourceMissing,
      if options.forceDirty ∧ options.olderThanDays ≤ view.ageDays then .removeDirectory else .keep)
  else if view.linkKind = .repository then (.nestedRepository, .keep)
  else if hasSource = false then (.unknownSource, .keep)
  else if status.any (!·.active) then (.staleCleanedDirectory, .removeWorktree)
  else if options.includeRetained ∧ options.olderThanDays ≤ view.ageDays then
    (.retainedForReview, .removeWorktree)
  else (.retainedForReview, .keep)

def classifyWorktree (options : GcOptions) (projectActive : Bool) (row : Option ArtifactRow)
    (view : EntryView) (tree : WorktreeTree) : Classification × GcAction :=
  let decided := classifyEntry options projectActive row view
  if decided.2 = .removeWorktree ∧ uncommittedWorktreeEntries tree ≠ some 0 ∧
      options.forceDirty = false then
    (.retainedUncommittedWork, .keep)
  else decided

/-- `LIVE_REGISTRY_STATUSES` without `cleanup_pending` and `in_use`. -/
def staleStatus (status : ArtifactStatus) : Bool :=
  status.active && status != .cleanupPending && status != .inUse

/-! ### The collector beside live bridges -/

structure GcWorld where
  clock : Nat
  /-- By project hash. -/
  database : String → Option DatabaseFile
  /-- By worktree path. -/
  tree : String → Option WorktreeTree

/-- How far `applyReport` is with a worktree. -/
inductive GcProgress where
  | listed | quiet | cleared | gone | marked | kept
  deriving DecidableEq

/-- A worktree of the report, with what the checks right before its removal saw. -/
structure GcItem where
  projectHash : String
  path : String
  classification : Classification
  action : GcAction
  progress : GcProgress
  checkedAt : Nat
  checkedTables : Option ProjectTables
  checkedTree : Option WorktreeTree

structure GcState where
  world : GcWorld
  inspections : List (String × Inspection)
  items : List GcItem
  /-- `staleRegistryRows`, each with the project hash of its database. -/
  stale : List (String × String)

inductive GcEvent where
  /-- Any step of a bridge, or of anybody else. -/
  | live (world : GcWorld)
  | inspect (projectHash : String)
  | examine (projectHash path : String) (view : EntryView)
  | listStale (projectHash : String)
  | recheckProject (item : Nat)
  | recheckTree (item : Nat)
  | remove (item : Nat) (succeeds : Bool)
  | markRemoved (item : Nat)
  | markStale (row : Nat)

def GcWorld.dropTree (world : GcWorld) (path : String) : GcWorld :=
  { world with tree := fun other => if other = path then none else world.tree other }

/-- `markRegistryCleaned` on a database that can be written. -/
def GcWorld.markCleaned (world : GcWorld) (projectHash path : String) : GcWorld :=
  { world with
    database := fun other =>
      if other = projectHash then
        (world.database projectHash).map fun file =>
          if file.readable then
            { file with
              tables :=
                { file.tables with
                  artifacts := (markRegistryCleaned world.clock path).exec file.tables.artifacts } }
          else file
      else world.database other }

def inspectionOf (s : GcState) (projectHash : String) : Option Inspection :=
  (s.inspections.find? (·.1 = projectHash)).map (·.2)

def newItem (options : GcOptions) (s : GcState) (projectHash path : String) (view : EntryView)
    (tree : WorktreeTree) : GcItem :=
  let info := inspectionOf s projectHash
  let row := info.bind fun info => info.registry.find? (·.worktreePath = path)
  let active := info.any fun info => info.activeReasons ≠ []
  let decided := classifyWorktree options active row view tree
  { projectHash := projectHash
    path := path
    classification := decided.1
    action := decided.2
    progress := .listed
    checkedAt := 0
    checkedTables := none
    checkedTree := none }

/-- The rows of an inspected database whose directory is missing now. -/
def staleRows (s : GcState) (projectHash : String) : List (String × String) :=
  match inspectionOf s projectHash with
  | none => []
  | some info =>
    (info.registry.filter fun row =>
      staleStatus row.status && (s.world.tree row.worktreePath).isNone).map fun row =>
        (projectHash, row.worktreePath)

/-- The first half of `removalBlocker`. -/
def recheckProject (world : GcWorld) (item : GcItem) : GcItem :=
  if item.progress ≠ .listed ∨ item.action = .keep then item
  else match world.database item.projectHash with
    | none => { item with progress := .quiet, checkedAt := world.clock, checkedTables := none }
    | some file =>
      if file.readable = false ∨ activeReasons file.tables world.clock ≠ [] then
        { item with progress := .kept }
      else
        { item with
          progress := .quiet
          checkedAt := world.clock
          checkedTables := some file.tables }

/-- The second half of `removalBlocker`. -/
def recheckTree (options : GcOptions) (world : GcWorld) (item : GcItem) : GcItem :=
  if item.progress ≠ .quiet then item
  else if item.action = .removeWorktree ∧ options.forceDirty = false then
    match world.tree item.path with
    | none => { item with progress := .kept }
    | some tree =>
      if uncommittedWorktreeEntries tree = some 0 then
        { item with progress := .cleared, checkedTree := some tree }
      else { item with progress := .kept }
  else { item with progress := .cleared, checkedTree := world.tree item.path }

def GcState.setItem (s : GcState) (index : Nat) (item : GcItem) : GcState :=
  { s with items := s.items.set index item }

def gcStep (options : GcOptions) (s : GcState) : GcEvent → GcState
  | .live world => { s with world := world }
  | .inspect projectHash =>
    match s.world.database projectHash with
    | none => s
    | some file =>
      { s with
        inspections :=
          (projectHash, inspectProjectDatabase file s.world.clock) :: s.inspections }
  | .examine projectHash path view =>
    match s.world.tree path with
    | none => s
    | some tree => { s with items := s.items ++ [newItem options s projectHash path view tree] }
  | .listStale projectHash => { s with stale := s.stale ++ staleRows s projectHash }
  | .recheckProject index =>
    match s.items[index]? with
    | none => s
    | some item => s.setItem index (recheckProject s.world item)
  | .recheckTree index =>
    match s.items[index]? with
    | none => s
    | some item => s.setItem index (recheckTree options s.world item)
  | .remove index succeeds =>
    match s.items[index]? with
    | none => s
    | some item =>
      if item.progress ≠ .cleared then s
      else if succeeds then
        { s with world := s.world.dropTree item.path }.setItem index
          { item with progress := .gone }
      else if (s.world.tree item.path).isNone then
        s.setItem index { item with progress := .gone }
      else s.setItem index { item with progress := .kept }
  | .markRemoved index =>
    match s.items[index]? with
    | none => s
    | some item =>
      if item.progress ≠ .gone then s
      else
        { s with world := s.world.markCleaned item.projectHash item.path }.setItem index
          { item with progress := .marked }
  | .markStale index =>
    match s.stale[index]? with
    | none => s
    | some (projectHash, path) => { s with world := s.world.markCleaned projectHash path }

def GcState.initial (world : GcWorld) : GcState := ⟨world, [], [], []⟩

end AgentBridge.Worktrees
