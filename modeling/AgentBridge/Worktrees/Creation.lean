import AgentBridge.Systems.Run
import AgentBridge.Worktrees.Writes

/-!
# The creation of worktrees

`createWorktreeForJob` of any number of jobs against one repository, interleaved step by
step: the paths that are known, the walk over the generated root entry by entry, the final
transaction of the reconciliation, the reservation, `git worktree add`, and the mark or the
withdrawal that ends it. Between them others use, measure, clean up and collect worktrees.
-/

namespace AgentBridge.Worktrees

open Systems

/-- How far the creation of a worktree has come. -/
inductive CreationPhase where
  | unused
  | starting
  | known (paths : List String)
  | walking (known remaining : List String) (discovered : List Discovered)
  | reconciled
  | reserved
  | added
  /-- It failed, and its directory exists. -/
  | failing
  /-- It failed, and there is no directory. -/
  | withdrawing
  /-- The new worktree has been removed again, because HEAD moved. -/
  | cleared
  | finished
  deriving DecidableEq

structure CapacityState where
  rows : List ArtifactRow
  host : WorktreeHost
  /-- The creation of each generated path; a path belongs to one job. -/
  phase : String → CreationPhase
  /-- The paths of the creations that have begun. -/
  begun : List String
  /-- The paths whose removal may not have been written yet. -/
  removed : List String
  /-- Every reservation granted so far. -/
  grants : List String

inductive CapacityEvent where
  | begin (path : String)
  | readKnown (path : String)
  | readRoot (path : String)
  | inspect (path : String)
  | reconcile (path : String)
  | reserve (path branch jobId : String) (stateFull : Bool)
  | makeDirectory (path name : String) (bytes : Option Nat)
  /-- `git worktree add` takes back what it made. -/
  | unmakeDirectory (path : String)
  | addSucceeded (path : String)
  | addFailed (path : String)
  | keepFailed (path : String) (bytes : Option Nat)
  | withdraw (path : String)
  | retain (path : String)
  | clear (path : String)
  | cleared (path : String) (status : ArtifactStatus) (again : Bool)
  /-- A cleanup of a finished worktree removes its directory. -/
  | removeDirectory (path : String)
  | resize (path : String) (bytes : Option Nat)
  | write (write : RegistryWrite)
  /-- Jobs, leases, locks and the clock change. -/
  | host (host : WorktreeHost)

variable (config : WorktreeConfig) (cwd : Directory)

/-- A worktree directory is at the path, under the generated root. -/
def present (disk : List DiskEntry) (path : String) : Bool :=
  match disk.find? fun entry => entry.path = path with
  | none => false
  | some entry => entry.parent = config.generatedWorktreeRootForCwd cwd
      && match entry.kind with
        | .directory _ => true
        | _ => false

/-- What other parties write: a path is marked cleaned or deleted only once its directory has
been removed. -/
def permitted (removed : List String) : RegistryWrite → Bool
  | .mark _ path status _ => status.active || removed.contains path
  | .enqueueCleanup cwd' _ _ _ => cwd' = cwd
  | .drainRemoved path => removed.contains path
  | .markRegistryCleaned path => removed.contains path
  | .reconcile .. => false
  | .reserve .. => false
  | .deleteReservation .. => false
  | _ => true

namespace CapacityState

def setPhase (s : CapacityState) (path : String) (phase : CreationPhase) : CapacityState :=
  { s with phase := fun other => if other = path then phase else s.phase other }

def setDisk (s : CapacityState) (disk : List DiskEntry) : CapacityState :=
  { s with host := { s.host with disk := disk } }

def exec (s : CapacityState) (write : RegistryWrite) : CapacityState :=
  { s with rows := write.exec config s.host s.rows }

/-- A directory can be removed by others before or after the creation of its path. -/
def idle (s : CapacityState) (path : String) : Bool :=
  s.phase path = .unused || s.phase path = .finished

end CapacityState

open CapacityState

def dropPath (path : String) (disk : List DiskEntry) : List DiskEntry :=
  disk.filter fun entry => entry.path ≠ path

def resizeEntry (path : String) (bytes : Option Nat) (entry : DiskEntry) : DiskEntry :=
  match entry.kind with
  | .directory _ => if entry.path = path then { entry with kind := .directory bytes } else entry
  | _ => entry

@[simp] theorem resizeEntry_path (path : String) (bytes : Option Nat) (entry : DiskEntry) :
    (resizeEntry path bytes entry).path = entry.path := by
  rw [resizeEntry]
  split
  · split <;> rfl
  · rfl

def resizePath (path : String) (bytes : Option Nat) (disk : List DiskEntry) : List DiskEntry :=
  disk.map (resizeEntry path bytes)

def capacityStep (s : CapacityState) : CapacityEvent → CapacityState
  | .begin path =>
    if s.phase path = .unused && !s.removed.contains path
        && !(s.host.disk.map DiskEntry.path).contains path then
      { s.setPhase path .starting with begun := path :: s.begun }
    else s
  | .readKnown path =>
    if s.phase path = .starting then s.setPhase path (.known (knownPaths s.rows)) else s
  | .readRoot path =>
    match s.phase path with
    | .known paths => s.setPhase path (.walking paths (readRoot config s.host.disk cwd) [])
    | _ => s
  | .inspect path =>
    match s.phase path with
    | .walking known (entry :: remaining) discovered =>
      s.setPhase path (.walking known remaining (if known.contains entry then discovered
        else discovered ++ (inspectEntry config s.host.disk entry).toList))
    | _ => s
  | .reconcile path =>
    match s.phase path with
    | .walking _ [] discovered =>
      (s.exec config (.reconcile cwd discovered)).setPhase path .reconciled
    | _ => s
  | .reserve path branch jobId stateFull =>
    if s.phase path = .reconciled then
      let (answer, rows) := reserveWorktreeArtifact config s.rows cwd path branch jobId stateFull
      if answer = .ok then
        { s.setPhase path .reserved with rows := rows, grants := path :: s.grants }
      else s.setPhase path .finished
    else s
  | .makeDirectory path name bytes =>
    if s.phase path = .reserved && !(s.host.disk.map DiskEntry.path).contains path then
      s.setDisk (s.host.disk
        ++ [⟨path, name, config.generatedWorktreeRootForCwd cwd, .directory bytes⟩])
    else s
  | .unmakeDirectory path =>
    if s.phase path = .reserved then s.setDisk (dropPath path s.host.disk) else s
  | .addSucceeded path =>
    if s.phase path = .reserved && present config cwd s.host.disk path then
      s.setPhase path .added
    else s
  | .addFailed path =>
    if s.phase path = .reserved || s.phase path = .added then
      s.setPhase path (if existsSync s.host.disk path then .failing else .withdrawing)
    else s
  | .keepFailed path bytes =>
    if s.phase path = .failing then
      { s.setPhase path .finished with
        rows := (measureRetained config cwd s.host.now path bytes).exec s.rows }
    else s
  | .withdraw path =>
    if s.phase path = .withdrawing then
      (s.exec config (.deleteReservation cwd path)).setPhase path .finished
    else s
  | .retain path =>
    if s.phase path = .added then
      (s.exec config (.mark cwd path .retained (some 0))).setPhase path .finished
    else s
  | .clear path =>
    if s.phase path = .added then
      (s.setDisk (dropPath path s.host.disk)).setPhase path .cleared
    else s
  | .cleared path status again =>
    if s.phase path = .cleared then
      (s.exec config (.mark cwd path status none)).setPhase path
        (if again then .starting else .finished)
    else s
  | .removeDirectory path =>
    if s.idle path then
      { s.setDisk (dropPath path s.host.disk) with removed := path :: s.removed }
    else s
  | .resize path bytes => s.setDisk (resizePath path bytes s.host.disk)
  | .write write =>
    if permitted cwd s.removed write then s.exec config write else s
  | .host host => { s with host := { host with disk := s.host.disk } }

/-- A new project database; what is on disk may be older. -/
def CapacityState.initial (host : WorktreeHost) : CapacityState where
  rows := []
  host := host
  phase := fun _ => .unused
  begun := []
  removed := []
  grants := []

/-- The worktrees of the repository that are reserved, being created or present. -/
def occupied (s : CapacityState) : List String :=
  ((capacityRows cwd s.rows).map ArtifactRow.worktreePath
    ++ (s.begun.filter fun path => s.phase path = .reserved)
    ++ ((s.host.disk.map DiskEntry.path).filter fun path =>
      present config cwd s.host.disk path)).dedup

/-- The granted worktrees that are still to be made or present. -/
def grantedNow (s : CapacityState) : List String :=
  s.grants.dedup.filter fun path =>
    s.phase path = .reserved || present config cwd s.host.disk path

/-- The event is a reservation that is granted. -/
def grants (s : CapacityState) : CapacityEvent → Bool
  | .reserve path branch jobId stateFull => s.phase path = .reconciled
      && (reserveWorktreeArtifact config s.rows cwd path branch jobId stateFull).1 = .ok
  | _ => false

def GrantedBelowCapacity (s : CapacityState) (event : CapacityEvent) : Prop :=
  grants config cwd s event = true →
    (occupied config cwd s).length < config.retainedWorktreeMaxCount

/-- The final transaction of a reconciliation meets no reservation in flight whose directory
does not exist yet. -/
def SparesReservations (s : CapacityState) : CapacityEvent → Prop
  | .reconcile _ => ∀ path ∈ s.begun, s.phase path = .reserved →
      existsSync s.host.disk path = true
  | _ => True

instance (s : CapacityState) (event : CapacityEvent) :
    Decidable (GrantedBelowCapacity config cwd s event) :=
  inferInstanceAs (Decidable (_ → _))

instance (s : CapacityState) : ∀ event, Decidable (SparesReservations s event)
  | .reconcile _ => inferInstanceAs (Decidable (∀ path ∈ s.begun, s.phase path = .reserved →
      existsSync s.host.disk path = true))
  | .begin _ | .readKnown _ | .readRoot _ | .inspect _ | .reserve .. | .makeDirectory ..
  | .unmakeDirectory _ | .addSucceeded _ | .addFailed _ | .keepFailed .. | .withdraw _
  | .retain _ | .clear _ | .cleared .. | .removeDirectory _ | .resize .. | .write _
  | .host _ => isTrue trivial

variable {config} {cwd} {s : CapacityState}

/-! ### What is present -/

variable {disk : List DiskEntry} {path : String}

section

variable (h : present config cwd disk path = true)

include h

theorem existsSync_of_present : existsSync disk path = true := by
  rw [present] at h
  split at h
  · cases h
  · next entry hfind =>
    have hpath : entry.path = path := by simpa using List.find?_some hfind
    refine List.any_eq_true.mpr ⟨entry, List.mem_of_find?_eq_some hfind, ?_⟩
    cases hkind : entry.kind <;> simp_all [DiskEntry.exists]

theorem mem_disk_of_present : path ∈ disk.map DiskEntry.path := by
  rw [present] at h
  split at h
  · cases h
  · next entry hfind =>
    have hpath : entry.path = path := by simpa using List.find?_some hfind
    exact List.mem_map.mpr ⟨entry, List.mem_of_find?_eq_some hfind, hpath⟩

/-- The walk finds every worktree directory. -/
theorem mem_readRoot_of_present : path ∈ readRoot config disk cwd := by
  rw [present] at h
  split at h
  · cases h
  · next entry hfind =>
    have hpath : entry.path = path := by simpa using List.find?_some hfind
    rw [Bool.and_eq_true] at h
    exact List.mem_map.mpr
      ⟨entry, List.mem_filter.mpr ⟨List.mem_of_find?_eq_some hfind, h.1⟩, hpath⟩

theorem inspectEntry_of_present :
    ∃ item, inspectEntry config disk path = some item ∧ item.path = path := by
  rw [present] at h
  rw [inspectEntry]
  cases hfind : disk.find? fun entry => entry.path = path with
  | none =>
    rw [hfind] at h
    cases h
  | some entry =>
    simp only [hfind, Bool.and_eq_true] at h
    cases hkind : entry.kind with
    | directory bytes => cases bytes <;> simp [hkind]
    | link resolves => simp [hkind] at h
    | file => simp [hkind] at h

end

theorem active_of_inspectEntry {item : Discovered} (h : inspectEntry config disk path = some item) :
    item.status.active = true := by
  rw [inspectEntry] at h
  split at h
  · cases h
  · split at h <;> cases h <;> rfl

theorem present_dropPath (disk : List DiskEntry) (path other : String) :
    present config cwd (dropPath path disk) other
      = (decide (other ≠ path) && present config cwd disk other) := by
  by_cases hother : other = path
  · have hnone : (dropPath path disk).find? (fun entry => entry.path = other) = none := by
      rw [List.find?_eq_none]
      intro entry hentry
      simpa [hother, dropPath] using (List.mem_filter.mp hentry).2
    rw [present, hnone]
    simp [hother]
  · have hsame : (dropPath path disk).find? (fun entry => entry.path = other)
        = disk.find? fun entry => entry.path = other := by
      rw [dropPath, List.find?_filter]
      congr 1
      funext entry
      by_cases hentry : entry.path = other <;> simp [hentry, hother]
    rw [present, hsame, present]
    simp [hother]

theorem present_append {new : DiskEntry} {other : String} (hother : other ≠ new.path) :
    present config cwd (disk ++ [new]) other = present config cwd disk other := by
  have hnew : [new].find? (fun entry => entry.path = other) = none := by
    simp [Ne.symm hother]
  rw [present, present, List.find?_append, hnew, Option.or_none]

theorem present_resizePath (disk : List DiskEntry) (path other : String) (bytes : Option Nat) :
    present config cwd (resizePath path bytes disk) other = present config cwd disk other := by
  rw [present, present, resizePath, List.find?_map]
  have hpath : (fun entry : DiskEntry => decide (entry.path = other)) ∘ resizeEntry path bytes
      = fun entry => decide (entry.path = other) := by
    funext entry
    simp [resizeEntry_path]
  rw [hpath]
  cases disk.find? fun entry => entry.path = other with
  | none => rfl
  | some entry =>
    simp only [Option.map_some, resizeEntry]
    cases hkind : entry.kind with
    | directory _ => by_cases hentry : entry.path = path <;> simp [hentry, hkind]
    | link _ => simp [hkind]
    | file => simp [hkind]

end AgentBridge.Worktrees
