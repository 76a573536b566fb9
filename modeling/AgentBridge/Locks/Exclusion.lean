import AgentBridge.Locks.Conflict
import AgentBridge.Systems.Exclusion
import AgentBridge.Systems.Run

/-!
# Mutual exclusion of the lock store

`LockEvent` lists the transactions that any process may execute on the lock
tables, with everything they take from outside. `LockInvariant` is what they
all preserve: the rows of different runs exclude one another, whether or not they
have lapsed, the rows of one run agree on what conflicts read, every row has its
run, and every stored path is stable.

Stability is where the code falls short of exclusion for all runs. A request is
compared after two normalizations of its stored paths and a held row after three,
so a path that the third pass still changes is compared under two different
names. `mutualExclusion_fails` is a run in which that lets two writers hold the
same path.
-/

namespace AgentBridge.Locks

open Paths Systems List

/-- One transaction on the lock tables; `external` is any transaction of another
component on the parts of the database that locks only read. -/
inductive LockEvent where
  | acquire (args : AcquireArgs) (input : AcquireInput)
  | discardFailedAcquire (runId token : String) (queued : Bool) (now : Timestamp)
  | release (lockId token : String) (paths : List PathText) (now : Timestamp)
  | expire (now : Timestamp)
  | heartbeat (lock : HeldLock) (ttlMs : Int) (now : Timestamp)
  | beginProtection (lock : HeldLock) (containment : String) (now : Timestamp)
      (worktreesOff recoveryBlocked : Bool)
  | restoreReadLease (lock : HeldLock) (receipt : FinalizerReceipt) (ttlMs : Int) (now : Timestamp)
  | releaseQueueJob (lockId : String) (now : Timestamp)
  | reclaim (runId : String) (now : Timestamp)
  | pruneRuns (auditCutoff : Nat)
  | external (activeOwners : List QueueOwner) (operations : List IntegrationOperation)

/-- The retention delete on `runs`. -/
def pruneRuns (db : LockDb) (auditCutoff : Nat) : LockDb :=
  { db with
    runs := db.runs.filter fun run =>
      ¬ ((run.status = .released ∨ run.status = .expired ∨ run.status = .quarantineReleased) ∧
        run.finishedAt.any (· < auditCutoff) ∧ hasLockRow db.locks run.runId = false) }

variable (runtime : LockRuntime)

def lockStep (db : LockDb) : LockEvent → LockDb
  | .acquire args input => (acquireHardLock runtime db args input).2
  | .discardFailedAcquire runId token queued now => discardFailedAcquire runtime db runId token queued now
  | .release lockId token paths now => (releaseHardLock runtime db lockId token paths now).2
  | .expire now => expireLocksFromDb db now
  | .heartbeat lock ttlMs now => heartbeatPulse runtime db lock ttlMs now
  | .beginProtection lock containment now worktreesOff recoveryBlocked =>
    (beginFinalizerValidationProtection runtime db lock containment now worktreesOff
      recoveryBlocked).2
  | .restoreReadLease lock receipt ttlMs now =>
    (restoreFinalizerReadLease runtime db lock receipt ttlMs now).2
  | .releaseQueueJob lockId now => releaseQueueJobLocks db lockId now
  | .reclaim runId now => reclaimLockQuarantine db runId now
  | .pruneRuns auditCutoff => pruneRuns db auditCutoff
  | .external activeOwners operations =>
    { db with activeOwners := activeOwners, operations := operations }

/-- Two rows conflict as the locks they are listed as, for some worktree mode of
the process that compares them. -/
def RowsConflict (platform : Platform) (row row' : LockRow) : Prop :=
  ∃ worktreesOff,
    (conflictsWithActiveLock platform worktreesOff (rowLock row).toLockClaim (rowLock row')).isSome

instance (platform : Platform) (row row' : LockRow) : Decidable (RowsConflict platform row row') :=
  inferInstanceAs (Decidable (∃ _ : Bool, _))

/-- No two live rows of different runs conflict, in either argument order. -/
def MutualExclusion (platform : Platform) (db : LockDb) : Prop :=
  ∀ now, ∀ row ∈ db.locks, ∀ row' ∈ db.locks, now < row.expiresAt → now < row'.expiresAt →
    row.runId ≠ row'.runId → ¬ RowsConflict platform row row'

structure LockInvariant (platform : Platform) (db : LockDb) : Prop where
  exclusive : Exclusive (·.runId) (RowsConflict platform) db.locks
  uniform : ∀ row ∈ db.locks, ∀ row' ∈ db.locks, row.runId = row'.runId →
    row.lockMode = row'.lockMode ∧ row.editsCheckout.getD true = row'.editsCheckout.getD true
  named : ∀ row ∈ db.locks, ∃ run ∈ db.runs, run.runId = row.runId
  stable : ∀ row ∈ db.locks, row.normalizedPath ≠ [] ∧ Stable row.normalizedPath

/-- Every path the acquisition would store survives another normalization. -/
def StableAcquire (_ : LockDb) : LockEvent → Prop
  | .acquire args input => ∀ path ∈ lockPathsRequested runtime args input.view, Stable path
  | _ => True

instance (db : LockDb) : (event : LockEvent) → Decidable (StableAcquire runtime db event)
  | .acquire args input =>
    inferInstanceAs
      (Decidable (∀ path ∈ lockPathsRequested runtime args input.view, Stable path))
  | .discardFailedAcquire .. | .release .. | .expire .. | .heartbeat .. | .beginProtection ..
  | .restoreReadLease .. | .releaseQueueJob .. | .reclaim .. | .pruneRuns .. | .external .. =>
    isTrue trivial

variable {runtime} {platform : Platform} {db : LockDb}

/-! ### Conflicts between rows -/

variable {row : LockRow}

theorem rowsConflict_iff {row' : LockRow} :
    RowsConflict platform row row' ↔
      ∃ worktreesOff, Conflicts platform worktreesOff (rowLock row).toLockClaim
        (rowLock row').toLockClaim := by
  simp [RowsConflict, conflictsWithActiveLock_isSome]

theorem rowsConflict_comm {row' : LockRow} :
    RowsConflict platform row row' ↔ RowsConflict platform row' row := by
  rw [rowsConflict_iff, rowsConflict_iff]
  exact exists_congr fun _ => conflicts_comm

variable {path : PathText}

theorem mem_lockPaths_of_stable {claim : LockClaim}
    (h : ∀ path ∈ claim.paths, path ≠ [] ∧ Stable path) :
    path ∈ lockPaths claim ↔ path ∈ claim.paths :=
  mem_normalizeLockPathList_of_stable h

theorem mem_rowLock_lockPaths (h : row.normalizedPath ≠ [] ∧ Stable row.normalizedPath) :
    path ∈ lockPaths (rowLock row).toLockClaim ↔ path = row.normalizedPath := by
  have hsingle : ∀ q ∈ [row.normalizedPath], q ≠ [] ∧ Stable q := by
    intro q hq
    rw [mem_singleton.mp hq]
    exact h
  have hpaths : ∀ q, q ∈ (rowLock row).paths ↔ q ∈ [row.normalizedPath] := fun q =>
    mem_normalizeLockPathList_of_stable hsingle
  rw [mem_lockPaths_of_stable]
  · rw [hpaths, mem_singleton]
  · intro q hq
    exact hsingle q ((hpaths q).mp hq)

theorem LockInvariant.listed_conflict (inv : LockInvariant platform db) {now : Nat}
    (hrow : row ∈ db.locks) (hlive : now < row.expiresAt) {mode : Bool} (mode' : Bool)
    {claim : LockClaim} {flag : Bool} (hflag : claim.editsCheckout = some flag)
    (h : Conflicts platform mode claim (rowLock row).toLockClaim) :
    ∃ lock ∈ listLocksFromDb db now, lock.id = row.runId ∧
      (conflictsWithActiveLock platform mode' claim lock).isSome := by
  obtain ⟨lock, hlock, first, hfirst, hrun, rfl⟩ := exists_lock_of_mem (mem_listed.mpr ⟨hrow, hlive⟩)
  refine ⟨_, hlock, hrun, ?_⟩
  rw [conflictsWithActiveLock_isSome]
  have hkind := inv.uniform row hrow first (mem_listed.mp hfirst).1 hrun.symm
  refine h.mono ⟨rfl, flag, hflag, hflag⟩ ⟨hkind.1, _, rfl, by simp [hkind.2]⟩ (fun _ hp => hp) ?_
  intro path hpath
  rw [mem_rowLock_lockPaths (inv.stable row hrow)] at hpath
  subst hpath
  -- The listed lock normalizes its rows' paths once, and the comparison once more.
  have hone : row.normalizedPath ∈ normalizeLockPathList
      (((((expireLocksFromDb db now).locks.filter (now < ·.expiresAt)).insertionSort
        listedBefore).filter (·.runId = row.runId)).map (·.normalizedPath)) := by
    rw [mem_normalizeLockPathList]
    refine ⟨(inv.stable row hrow).1, row.normalizedPath, ?_, (inv.stable row hrow).2⟩
    exact mem_map.mpr
      ⟨row, mem_filter.mpr ⟨mem_listed.mpr ⟨hrow, hlive⟩, by simp⟩, rfl⟩
  rw [lockPaths, mem_normalizeLockPathList]
  exact ⟨(inv.stable row hrow).1, row.normalizedPath, hone, (inv.stable row hrow).2⟩

/-! ### Steps that lose rows or leave conflicts alone -/

theorem LockInvariant.filterLocks (inv : LockInvariant platform db) {db' : LockDb}
    (hlocks : ∀ row ∈ db'.locks, row ∈ db.locks)
    (hruns : ∀ row ∈ db'.locks, ∀ run ∈ db.runs, run.runId = row.runId →
      ∃ run' ∈ db'.runs, run'.runId = run.runId) :
    LockInvariant platform db' := by
  refine ⟨inv.exclusive.of_subset hlocks, ?_, ?_, ?_⟩
  · intro row hrow row' hrow' hsame
    exact inv.uniform row (hlocks row hrow) row' (hlocks row' hrow') hsame
  · intro row hrow
    obtain ⟨run, hrun, hname⟩ := inv.named row (hlocks row hrow)
    obtain ⟨run', hrun', hname'⟩ := hruns row hrow run hrun hname
    exact ⟨run', hrun', hname'.trans hname⟩
  · intro row hrow
    exact inv.stable row (hlocks row hrow)

theorem exists_run_map {runs : List RunRow} {f : RunRow → RunRow}
    (h : ∀ run, (f run).runId = run.runId) {run : RunRow} (hrun : run ∈ runs) :
    ∃ run' ∈ runs.map f, run'.runId = run.runId :=
  ⟨f run, mem_map.mpr ⟨run, hrun, rfl⟩, h run⟩

section

variable (inv : LockInvariant platform db)

include inv

theorem LockInvariant.expireLocksFromDb (now : Nat) :
    LockInvariant platform (expireLocksFromDb db now) := by
  apply inv.filterLocks
  · intro row hrow
    exact (expireLocksFromDb_mem.mp hrow).1
  · intro _ _ run hrun _
    exact exists_run_map (fun run => by split <;> rfl) hrun

theorem LockInvariant.discardFailedAcquire (runId token : String) (queued : Bool) (now : Nat) :
    LockInvariant platform (discardFailedAcquire runtime db runId token queued now) := by
  apply inv.filterLocks
  · intro row hrow
    exact (mem_filter.mp hrow).1
  · intro _ _ run hrun _
    exact exists_run_map (fun run => by split <;> rfl) hrun

theorem LockInvariant.releaseHardLock (lockId token : String) (paths : List PathText) (now : Nat) :
    LockInvariant platform (releaseHardLock runtime db lockId token paths now).2 := by
  unfold Locks.releaseHardLock
  dsimp only
  split
  · exact inv
  · apply LockInvariant.expireLocksFromDb
    apply inv.filterLocks
    · intro row hrow
      split at hrow <;> exact (mem_filter.mp hrow).1
    · intro _ _ run hrun _
      split
      · exact ⟨run, hrun, rfl⟩
      · exact exists_run_map (fun run => by split <;> rfl) hrun

theorem LockInvariant.releaseQueueJobLocks (lockId : String) (now : Nat) :
    LockInvariant platform (releaseQueueJobLocks db lockId now) := by
  apply inv.filterLocks
  · intro row hrow
    exact (mem_filter.mp hrow).1
  · intro _ _ run hrun _
    exact exists_run_map (fun run => by split <;> rfl) hrun

theorem LockInvariant.reclaimLockQuarantine (runId : String) (now : Nat) :
    LockInvariant platform (reclaimLockQuarantine db runId now) := by
  apply inv.filterLocks
  · intro row hrow
    exact (mem_filter.mp hrow).1
  · intro _ _ run hrun _
    exact exists_run_map (fun run => by split <;> rfl) hrun

theorem LockInvariant.pruneRuns (auditCutoff : Nat) :
    LockInvariant platform (pruneRuns db auditCutoff) := by
  apply inv.filterLocks
  · intro row hrow
    exact hrow
  · intro row hrow run hrun hname
    refine ⟨run, ?_, rfl⟩
    have hheld : hasLockRow db.locks run.runId = true := by
      rw [hname]
      exact any_eq_true.mpr ⟨row, hrow, by simp⟩
    simp [Locks.pruneRuns, hrun, hheld]

/-- Rewriting rows keeps the invariant when run, mode, flag and path stay. -/
theorem LockInvariant.mapLocks {f : LockRow → LockRow} (runId : ∀ row, (f row).runId = row.runId)
    (lockMode : ∀ row, (f row).lockMode = row.lockMode)
    (flag : ∀ row, (f row).editsCheckout = row.editsCheckout)
    (path : ∀ row, (f row).normalizedPath = row.normalizedPath) :
    LockInvariant platform { db with locks := db.locks.map f } := by
  have hkind : ∀ row, SameKind (rowLock (f row)).toLockClaim (rowLock row).toLockClaim := by
    intro row
    exact ⟨lockMode row, _, rfl, by simp [flag row]⟩
  have hpaths : ∀ row, lockPaths (rowLock (f row)).toLockClaim = lockPaths (rowLock row).toLockClaim := by
    intro row
    simp [lockPaths, rowLock, path row]
  refine ⟨inv.exclusive.map (fun row _ => runId row) ?_, ?_, ?_, ?_⟩
  · intro row _ row' _ _ hc
    rw [rowsConflict_iff] at hc ⊢
    obtain ⟨mode, hc⟩ := hc
    exact ⟨mode, hc.mono (hkind row) (hkind row') (fun p hp => hpaths row ▸ hp)
      (fun p hp => hpaths row' ▸ hp)⟩
  · intro row hrow row' hrow' hsame
    obtain ⟨a, ha, rfl⟩ := mem_map.mp hrow
    obtain ⟨b, hb, rfl⟩ := mem_map.mp hrow'
    rw [runId, runId] at hsame
    rw [lockMode, lockMode, flag, flag]
    exact inv.uniform a ha b hb hsame
  · intro row hrow
    obtain ⟨a, ha, rfl⟩ := mem_map.mp hrow
    rw [runId]
    exact inv.named a ha
  · intro row hrow
    obtain ⟨a, ha, rfl⟩ := mem_map.mp hrow
    rw [path]
    exact inv.stable a ha

theorem LockInvariant.heartbeatPulse (lock : HeldLock) (ttlMs : Int) (now : Nat) :
    LockInvariant platform (heartbeatPulse runtime db lock ttlMs now) := by
  apply inv.mapLocks <;>
    · intro row
      split <;> rfl

/-! ### Acquisition -/

end

section Acquire

variable {args : AcquireArgs} {input : AcquireInput} {lockType : LockType}

theorem acquiredRow_sameKind (path : PathText) :
    SameKind (rowLock (acquiredRow runtime args input lockType path)).toLockClaim
      (acquireClaim runtime args input lockType) :=
  ⟨rfl, _, rfl, rfl⟩

theorem LockInvariant.acquiredRow_not_conflict (inv : LockInvariant runtime.platform db)
    (hstable : ∀ path ∈ lockPathsRequested runtime args input.view, Stable path)
    (hfree : findConflict runtime db args input lockType = none)
    (hrow : row ∈ (Locks.expireLocksFromDb db input.now).locks)
    (hpath : path ∈ lockPathsRequested runtime args input.view) :
    ¬ RowsConflict runtime.platform (acquiredRow runtime args input lockType path) row := by
  intro hconflict
  rw [rowsConflict_iff] at hconflict
  obtain ⟨mode, hconflict⟩ := hconflict
  obtain ⟨hmem, hlive⟩ := expireLocksFromDb_mem.mp hrow
  have hrequested : ∀ p ∈ (acquireClaim runtime args input lockType).paths, p ≠ [] ∧ Stable p := by
    intro p hp
    exact ⟨ne_nil_of_mem_normalizeLockPathListForCwd hp, hstable p hp⟩
  have hclaim : Conflicts runtime.platform mode (acquireClaim runtime args input lockType)
      (rowLock row).toLockClaim := by
    refine hconflict.mono (acquiredRow_sameKind path) ⟨rfl, _, rfl, rfl⟩ ?_ (fun _ hp => hp)
    intro p hp
    rw [mem_rowLock_lockPaths (hrequested path hpath)] at hp
    rw [mem_lockPaths_of_stable hrequested, hp]
    exact hpath
  obtain ⟨lock, hlock, _, hsome⟩ :=
    inv.listed_conflict hmem hlive input.worktreesOff rfl hclaim
  rw [findConflict, List.findSome?_eq_none_iff] at hfree
  rw [hfree lock hlock] at hsome
  simp at hsome

theorem LockInvariant.acquireTransaction (inv : LockInvariant runtime.platform db)
    (hstable : ∀ path ∈ lockPathsRequested runtime args input.view, Stable path) :
    LockInvariant runtime.platform (acquireTransaction runtime db args input lockType).2 := by
  unfold Locks.acquireTransaction
  dsimp only
  split
  · exact inv
  split
  · exact inv
  rename_i hfree
  split
  · exact inv
  rename_i hinsert
  split
  · exact inv
  have kept := inv.expireLocksFromDb input.now
  have hfresh : ∀ row ∈ (Locks.expireLocksFromDb db input.now).locks, row.runId ≠ input.runId := by
    intro row hrow hsame
    obtain ⟨run, hrun, hname⟩ := kept.named row hrow
    apply hinsert
    rw [insertRefused, Bool.or_eq_true, Bool.or_eq_true]
    exact Or.inl (Or.inl (any_eq_true.mpr ⟨run, hrun, by simp [hname, hsame]⟩))
  refine ⟨?_, ?_, ?_, ?_⟩
  · refine kept.exclusive.append (o := input.runId) ?_ ?_
    · intro row hrow
      obtain ⟨path, _, rfl⟩ := mem_map.mp hrow
      rfl
    · intro row hrow _ row' hrow'
      obtain ⟨path, hpath, rfl⟩ := mem_map.mp hrow'
      have hnew := inv.acquiredRow_not_conflict hstable hfree hrow hpath
      exact ⟨fun h => hnew (rowsConflict_comm.mp h), hnew⟩
  · intro row hrow row' hrow' hsame
    rcases mem_append.mp hrow with hrow | hrow <;>
      rcases mem_append.mp hrow' with hrow' | hrow'
    · exact kept.uniform row hrow row' hrow' hsame
    · obtain ⟨path, _, rfl⟩ := mem_map.mp hrow'
      exact absurd hsame (hfresh row hrow)
    · obtain ⟨path, _, rfl⟩ := mem_map.mp hrow
      exact absurd hsame.symm (hfresh row' hrow')
    · obtain ⟨path, _, rfl⟩ := mem_map.mp hrow
      obtain ⟨path', _, rfl⟩ := mem_map.mp hrow'
      exact ⟨rfl, rfl⟩
  · intro row hrow
    rcases mem_append.mp hrow with hrow | hrow
    · obtain ⟨run, hrun, hname⟩ := kept.named row hrow
      exact ⟨run, mem_append_left _ hrun, hname⟩
    · obtain ⟨path, _, rfl⟩ := mem_map.mp hrow
      exact ⟨acquiredRun args input lockType, by simp, rfl⟩
  · intro row hrow
    rcases mem_append.mp hrow with hrow | hrow
    · exact kept.stable row hrow
    · obtain ⟨path, hpath, rfl⟩ := mem_map.mp hrow
      exact ⟨ne_nil_of_mem_normalizeLockPathListForCwd hpath, hstable path hpath⟩

theorem LockInvariant.acquireHardLock (inv : LockInvariant runtime.platform db)
    (hstable : ∀ path ∈ lockPathsRequested runtime args input.view, Stable path) :
    LockInvariant runtime.platform (acquireHardLock runtime db args input).2 := by
  unfold Locks.acquireHardLock
  split
  · exact inv
  · exact inv.acquireTransaction hstable

end Acquire

/-! ### Finalizer protection -/

/-- What `finalizerRows` guarantees: the lock is the finalizer's repository lock,
its run is found and has exactly this row. -/
structure FinalizerHolds (runtime : LockRuntime) (db : LockDb) (lock : HeldLock) (row : LockRow)
    (run : RunRow) : Prop where
  single : db.locks.filter (·.runId = lock.id) = [row]
  found : db.runs.find? (·.runId = lock.id) = some run
  token : row.token = tokenSha256 runtime lock.token
  path : row.normalizedPath = repositoryScopeLockPath
  scope : lock.paths = [repositoryScopeLockPath]

theorem finalizerRows_spec {lock : HeldLock} {run : RunRow}
    (h : finalizerRows runtime db lock = some (row, run)) :
    FinalizerHolds runtime db lock row run := by
  unfold finalizerRows at h
  split at h
  · split at h
    · rename_i hrows hrun hguard
      obtain ⟨rfl, rfl⟩ := h
      obtain ⟨hlock, htoken, hpath, _⟩ := hguard
      simp only [isFinalizerRepositoryLock, decide_eq_true_eq] at hlock
      exact ⟨hrows, hrun, htoken, hpath, hlock.2.2.2.2.2⟩
    · simp at h
  · simp at h

theorem FinalizerHolds.mem {lock : HeldLock} {run : RunRow}
    (h : FinalizerHolds runtime db lock row run) : row ∈ db.locks ∧ row.runId = lock.id := by
  have hmem : row ∈ db.locks.filter (·.runId = lock.id) := by simp [h.single]
  simpa using hmem

theorem FinalizerHolds.eq_of_runId {lock : HeldLock} {run : RunRow}
    (h : FinalizerHolds runtime db lock row run) {r : LockRow} (hr : r ∈ db.locks)
    (hid : r.runId = lock.id) : r = row := by
  have hmem : r ∈ db.locks.filter (·.runId = lock.id) := by simp [hr, hid]
  rw [h.single] at hmem
  exact mem_singleton.mp hmem

theorem LockInvariant.rewriteRun (inv : LockInvariant platform db) {token : String}
    {f : LockRow → LockRow} (honly : ∀ r ∈ db.locks, r.runId = row.runId → r = row)
    (runId : ∀ r, (f r).runId = r.runId) (path : ∀ r, (f r).normalizedPath = r.normalizedPath)
    (hchecked : ∀ r ∈ db.locks, r.runId ≠ row.runId → ¬ RowsConflict platform (f row) r)
    {db' : LockDb} (hlocks : db'.locks = updateOwnRows db.locks row.runId token f)
    (hruns : ∀ run ∈ db.runs, ∃ run' ∈ db'.runs, run'.runId = run.runId) :
    LockInvariant platform db' := by
  let g : LockRow → LockRow := fun r => if r.runId = row.runId ∧ r.token = token then f r else r
  have hg : ∀ r, (g r).runId = r.runId ∧ (g r).normalizedPath = r.normalizedPath := by
    intro r
    by_cases hr : r.runId = row.runId ∧ r.token = token
    · simp only [g, if_pos hr]
      exact ⟨runId r, path r⟩
    · simp only [g, if_neg hr, and_self]
  have hother : ∀ r, r.runId ≠ row.runId → g r = r := by
    intro r hr
    simp [g, hr]
  refine ⟨?_, ?_, ?_, ?_⟩
  · rw [hlocks]
    refine inv.exclusive.rewriteOwner (o := row.runId) (fun r _ => (hg r).1)
      (fun r _ hr => hother r hr) ?_
    intro r hr hrun r' hr' hne
    have hsingle : r = row := honly r hr hrun
    subst hsingle
    have hfree : ¬ RowsConflict platform (g r) r' := by
      by_cases htoken : r.token = token
      · simp only [g, htoken, and_self, if_true]
        exact hchecked r' hr' hne
      · simp only [g, htoken, and_false, if_false]
        exact inv.exclusive r hr r' hr' hne.symm
    exact ⟨hfree, fun h => hfree (rowsConflict_comm.mp h)⟩
  · rw [hlocks]
    intro r hr r' hr' hsame
    obtain ⟨a, ha, rfl⟩ := mem_map.mp hr
    obtain ⟨b, hb, rfl⟩ := mem_map.mp hr'
    have hab : a.runId = b.runId := (hg a).1.symm.trans (hsame.trans (hg b).1)
    by_cases hrun : a.runId = row.runId
    · have heq : a = b := (honly a ha hrun).trans (honly b hb (hab ▸ hrun)).symm
      subst heq
      exact ⟨rfl, rfl⟩
    · have hrun' : b.runId ≠ row.runId := hab ▸ hrun
      have := inv.uniform a ha b hb hab
      simpa [hrun, hrun'] using this
  · rw [hlocks]
    intro r hr
    obtain ⟨a, ha, rfl⟩ := mem_map.mp hr
    obtain ⟨run, hrun, hname⟩ := inv.named a ha
    obtain ⟨run', hrun', hname'⟩ := hruns run hrun
    exact ⟨run', hrun', hname'.trans (hname.trans (hg a).1.symm)⟩
  · rw [hlocks]
    intro r hr
    obtain ⟨a, ha, rfl⟩ := mem_map.mp hr
    have hpath : (g a).normalizedPath = a.normalizedPath := (hg a).2
    have hstable := inv.stable a ha
    rw [← hpath] at hstable
    exact hstable

section Finalizer

variable {lock : HeldLock} {receipt : FinalizerReceipt} {containment : String} {now : Nat}

theorem LockInvariant.beginFinalizerValidationProtection
    (inv : LockInvariant runtime.platform db) {worktreesOff recoveryBlocked : Bool} :
    LockInvariant runtime.platform
      (beginFinalizerValidationProtection runtime db lock containment now worktreesOff
        recoveryBlocked).2 := by
  unfold Locks.beginFinalizerValidationProtection
  split
  · exact inv
  split
  · exact inv
  split
  · exact inv
  rename_i row run hrows
  split
  · exact inv
  split
  · exact inv
  split
  · exact inv
  rename_i hfree
  have kept := inv.expireLocksFromDb now
  have holds := finalizerRows_spec hrows
  have hrow := holds.mem
  have honly : ∀ r ∈ (Locks.expireLocksFromDb db now).locks, r.runId = row.runId → r = row := by
    intro r hr hid
    exact holds.eq_of_runId (expireLocksFromDb_mem.mp hr).1 (hid.trans hrow.2)
  refine kept.rewriteRun honly
    (f := fun held =>
      { held with
        lockMode := .serialIntegration, editsCheckout := some true, expiresAt := maxSafeInteger })
    (fun _ => rfl) (fun _ => rfl) ?_ (by rw [hrow.2]) ?_
  · intro r hr hne hconflict
    rw [rowsConflict_iff] at hconflict
    obtain ⟨mode, hconflict⟩ := hconflict
    obtain ⟨hmem, hlive⟩ := expireLocksFromDb_mem.mp hr
    have hclaim : Conflicts runtime.platform mode finalizerProtectionClaim
        (rowLock r).toLockClaim := by
      refine hconflict.mono ⟨rfl, true, rfl, rfl⟩ ⟨rfl, _, rfl, rfl⟩ ?_ (fun _ hp => hp)
      intro p hp
      have hpath : p = row.normalizedPath := (mem_rowLock_lockPaths (inv.stable row hrow.1)).mp hp
      rw [lockPaths, mem_normalizeLockPathList, hpath]
      exact ⟨(inv.stable row hrow.1).1, row.normalizedPath,
        by simp [finalizerProtectionClaim, holds.path],
        (inv.stable row hrow.1).2⟩
    obtain ⟨active, hactive, hid, hsome⟩ :=
      inv.listed_conflict hmem hlive worktreesOff rfl hclaim
    apply hfree
    rw [finalizerConflict, List.findSome?_isSome_iff]
    refine ⟨active, mem_filter.mpr ⟨hactive, ?_⟩, hsome⟩
    rw [hid, ← hrow.2]
    simpa using hne
  · intro r hr
    exact exists_run_map (fun r => by split <;> rfl) hr

/-- The shape of a protection: an unexpiring serial row that edits the checkout,
of a running run. -/
structure ProtectionShape (row : LockRow) (run : RunRow) : Prop where
  serial : row.lockMode = .serialIntegration
  unexpiring : row.expiresAt = maxSafeInteger
  edits : row.editsCheckout = some true
  running : run.status = .running

theorem matchesFinalizerProtection_spec
    (h : matchesFinalizerProtection runtime db lock receipt = true) :
    ∃ row run, finalizerRows runtime db lock = some (row, run) ∧ ProtectionShape row run := by
  unfold matchesFinalizerProtection at h
  split at h
  · simp at h
  · rename_i row run hrows
    rw [decide_eq_true_eq] at h
    obtain ⟨_, _, _, _, _, _, _, _, hserial, hexpiry, hedits, _, hrunning, _⟩ := h
    exact ⟨row, run, hrows, hserial, hexpiry, hedits, hrunning⟩

theorem LockInvariant.restoreFinalizerReadLease (inv : LockInvariant platform db) {ttlMs : Int} :
    LockInvariant platform (restoreFinalizerReadLease runtime db lock receipt ttlMs now).2 := by
  unfold Locks.restoreFinalizerReadLease
  split
  · exact inv
  rename_i hmatch
  obtain ⟨row, run, hrows, hshape⟩ :=
    matchesFinalizerProtection_spec (Bool.not_eq_false _ ▸ hmatch)
  have holds := finalizerRows_spec hrows
  have hrow := holds.mem
  have honly : ∀ r ∈ db.locks, r.runId = row.runId → r = row := by
    intro r hr hid
    exact holds.eq_of_runId hr (hid.trans hrow.2)
  refine inv.rewriteRun honly
    (f := fun held =>
      { held with
        lockMode := .read
        editsCheckout := receipt.row.editsCheckout
        expiresAt := now + lockTtl ttlMs })
    (fun _ => rfl) (fun _ => rfl) ?_ (by rw [hrow.2]) ?_
  · intro r hr hne hconflict
    rw [rowsConflict_iff] at hconflict
    obtain ⟨mode, hconflict⟩ := hconflict
    -- The reader conflicts with no more than the serial row it replaces.
    refine inv.exclusive row hrow.1 r hr hne.symm (rowsConflict_iff.mpr ⟨mode, ?_⟩)
    exact hconflict.serial hshape.serial rfl
  · intro r hr
    exact exists_run_map (fun r => by split <;> rfl) hr

end Finalizer

/-! ### Runs -/

theorem lockInvariant_step (db : LockDb) (event : LockEvent)
    (inv : LockInvariant runtime.platform db) (hstable : StableAcquire runtime db event) :
    LockInvariant runtime.platform (lockStep runtime db event) := by
  cases event with
  | acquire args input => exact inv.acquireHardLock hstable
  | discardFailedAcquire runId token queued now => exact inv.discardFailedAcquire runId token queued now
  | release lockId token paths now => exact inv.releaseHardLock lockId token paths now
  | expire now => exact inv.expireLocksFromDb now
  | heartbeat lock ttlMs now => exact inv.heartbeatPulse lock ttlMs now
  | beginProtection lock containment now worktreesOff recoveryBlocked =>
    exact inv.beginFinalizerValidationProtection
  | restoreReadLease lock receipt ttlMs now => exact inv.restoreFinalizerReadLease
  | releaseQueueJob lockId now => exact inv.releaseQueueJobLocks lockId now
  | reclaim runId now => exact inv.reclaimLockQuarantine runId now
  | pruneRuns auditCutoff => exact inv.pruneRuns auditCutoff
  | external activeOwners operations => exact ⟨inv.exclusive, inv.uniform, inv.named, inv.stable⟩

def emptyLockDb : LockDb := ⟨[], [], [], [], []⟩

theorem lockInvariant_empty : LockInvariant platform emptyLockDb := by
  refine ⟨.nil, ?_, ?_, ?_⟩ <;>
    · intro row hrow
      simp [emptyLockDb] at hrow

theorem LockInvariant.mutualExclusion (inv : LockInvariant platform db) :
    MutualExclusion platform db := by
  intro _ row hrow row' hrow' _ _ hne
  exact inv.exclusive row hrow row' hrow' hne

/-- In every run whose acquisitions store stable paths, live locks of different
runs never conflict. -/
theorem mutualExclusion_of_stable_paths (runtime : LockRuntime) (events : List LockEvent)
    (hstable : Along (lockStep runtime) (StableAcquire runtime) emptyLockDb events) :
    MutualExclusion runtime.platform (run (lockStep runtime) emptyLockDb events) :=
  (run_invariant lockInvariant_step lockInvariant_empty events hstable).mutualExclusion

/-! ### Concrete runs -/

def posixRuntime : LockRuntime :=
  { platform := { windows := false, toLowerCase := id }
    sha256 := fun text => "digest of " ++ text
    parseContainment := fun _ => none }

/-- A case-sensitive repository in `/repo` that holds no file yet. -/
def emptyRepositoryView : HostView :=
  { processCwd := ["repo".toList]
    caseSensitive := fun _ => true
    pathExists := fun _ => false
    realPathBoundaryReason := fun _ _ => "" }

/-- A manual write request for one path of `/repo`. -/
def writeRequest (path : String) : AcquireArgs :=
  { owner := "codex"
    agent := "opencode"
    manual := true
    task := ""
    cwd := ["repo".toList]
    lockType := "write".toList
    paths := [path.toList]
    repositoryScope := false
    ttlMs := 0
    editsCheckout := none
    integrationRecoveryAuthority := false
    queueOwner := none }

def acquireInputAt (now : Timestamp) (runId : String) : AcquireInput :=
  { view := emptyRepositoryView
    now := now
    runId := runId
    token := runId
    worktreesOff := false
    recoveryBlocked := false }

def acquireWrite (path : String) (now : Timestamp) (runId : String) : LockEvent :=
  .acquire (writeRequest path) (acquireInputAt now runId)

theorem mutualExclusion_of_two_writers :
    MutualExclusion posixRuntime.platform
      (run (lockStep posixRuntime) emptyLockDb
        [acquireWrite "src/lib" ⟨1, by decide⟩ "run-1", acquireWrite "docs" ⟨2, by decide⟩ "run-2",
          acquireWrite "src" ⟨3, by decide⟩ "run-3", .expire ⟨1800001, by decide⟩]) :=
  mutualExclusion_of_stable_paths posixRuntime _ (by decide)

def unstableWriters : List LockEvent :=
  [acquireWrite "a" ⟨1, one_le_maxTime⟩ "run-1", acquireWrite "a / / / /**" ⟨2, by decide⟩ "run-2"]

/-- The second request is stored as `a / / `. Its comparison key as a request is
`a` followed by a blank, as a held row it is `a`. -/
theorem mutualExclusion_fails :
    ¬ MutualExclusion posixRuntime.platform
      (run (lockStep posixRuntime) emptyLockDb unstableWriters) := by
  intro h
  refine h 2
    (acquiredRow posixRuntime (writeRequest "a") (acquireInputAt ⟨1, by decide⟩ "run-1") .write
      "a".toList)
    (by decide +kernel)
    (acquiredRow posixRuntime (writeRequest "a / / / /**") (acquireInputAt ⟨2, by decide⟩ "run-2") .write
      "a / / ".toList)
    (by decide +kernel) (by decide +kernel) (by decide +kernel) (by decide +kernel)
    ⟨false, by decide +kernel⟩

end AgentBridge.Locks
