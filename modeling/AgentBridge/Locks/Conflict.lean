import AgentBridge.Locks.Store

/-!
# The conflict relation

`conflictsWithActiveLock` looks at the types, the checkout flags and the paths
of two claims. Between claims that record whether they edit the checkout it does
not depend on the worktree mode of the process that asks, it is symmetric, and
it grows with the paths. No claim conflicts with more than the serial lock on the
same paths.

The last section relates a lock listed for a run to the single rows of that run.
-/

namespace AgentBridge.Locks

open Paths

variable {platform : Platform} {worktreesOff : Bool}

/-- Two claims conflict under the rules of `conflictsWithActiveLock`. -/
def Conflicts (platform : Platform) (worktreesOff : Bool) (request active : LockClaim) : Prop :=
  (conflictOverlap platform worktreesOff request active).isSome

instance (request active : LockClaim) : Decidable (Conflicts platform worktreesOff request active) :=
  inferInstanceAs (Decidable (_ = true))

theorem conflictsWithActiveLock_isSome {request : LockClaim} {active : ActiveLock} :
    (conflictsWithActiveLock platform worktreesOff request active).isSome ↔
      Conflicts platform worktreesOff request active.toLockClaim := by
  simp [conflictsWithActiveLock, Conflicts]

theorem conflicts_iff {request active : LockClaim} :
    Conflicts platform worktreesOff request active ↔
      ¬ (request.lockType = .read ∧ active.lockType = .read) ∧
        (requiresRepositorySerialization worktreesOff request active ∨
          (overlaps platform (lockPaths request) (lockPaths active)).isSome) := by
  unfold Conflicts conflictOverlap
  by_cases hread : request.lockType = .read ∧ active.lockType = .read
  · simp [hread]
  · by_cases hserial : requiresRepositorySerialization worktreesOff request active = true
    · simp [hread, hserial]
    · simp [hread, hserial]

theorem requiresRepositorySerialization_comm (request active : LockClaim) :
    requiresRepositorySerialization worktreesOff request active =
      requiresRepositorySerialization worktreesOff active request := by
  simp only [requiresRepositorySerialization]
  rw [Bool.or_comm (request.lockType == .serialIntegration),
    Bool.or_comm (worktreeJobWriter worktreesOff request)]

theorem conflicts_comm {request active : LockClaim} :
    Conflicts platform worktreesOff request active ↔
      Conflicts platform worktreesOff active request := by
  rw [conflicts_iff, conflicts_iff, requiresRepositorySerialization_comm, overlaps_isSome_comm,
    and_comm (a := request.lockType = .read)]

/-- Two claims that conflicts treat alike apart from their paths. -/
structure SameKind (a b : LockClaim) : Prop where
  lockType : a.lockType = b.lockType
  editsCheckout : ∃ flag, a.editsCheckout = some flag ∧ b.editsCheckout = some flag

theorem SameKind.worktreeJobWriter {a b : LockClaim} (h : SameKind a b) {mode mode' : Bool} :
    worktreeJobWriter mode a = worktreeJobWriter mode' b := by
  obtain ⟨flag, ha, hb⟩ := h.editsCheckout
  simp [Locks.worktreeJobWriter, Locks.editsCheckout, h.lockType, ha, hb]

/-- A conflict persists when the claims cover more paths. The asking process's
worktree mode is irrelevant between claims with a recorded flag. -/
theorem Conflicts.mono {mode mode' : Bool} {a a' b b' : LockClaim}
    (h : Conflicts platform mode a b) (ha : SameKind a a') (hb : SameKind b b')
    (pathsA : ∀ p ∈ lockPaths a, p ∈ lockPaths a') (pathsB : ∀ p ∈ lockPaths b, p ∈ lockPaths b') :
    Conflicts platform mode' a' b' := by
  rw [conflicts_iff] at h ⊢
  obtain ⟨hread, hcase⟩ := h
  refine ⟨by rw [← ha.lockType, ← hb.lockType]; exact hread, ?_⟩
  rcases hcase with hserial | hoverlap
  · left
    have hwriterA : Locks.worktreeJobWriter mode' a' = Locks.worktreeJobWriter mode a :=
      ha.worktreeJobWriter.symm
    have hwriterB : Locks.worktreeJobWriter mode' b' = Locks.worktreeJobWriter mode b :=
      hb.worktreeJobWriter.symm
    rw [requiresRepositorySerialization, ← ha.lockType, ← hb.lockType, hwriterA, hwriterB]
    exact hserial
  · right
    rw [overlaps_isSome] at hoverlap ⊢
    obtain ⟨p, hp, q, hq, hpq⟩ := hoverlap
    exact ⟨p, pathsA p hp, q, pathsB q hq, hpq⟩

theorem Conflicts.serial {claim serial other : LockClaim}
    (h : Conflicts platform worktreesOff claim other)
    (hserial : serial.lockType = .serialIntegration) (hpaths : lockPaths serial = lockPaths claim) :
    Conflicts platform worktreesOff serial other := by
  rw [conflicts_iff] at h ⊢
  obtain ⟨_, hcase⟩ := h
  refine ⟨by simp [hserial], ?_⟩
  rcases hcase with hrequires | hoverlap
  · left
    have hwriters : Locks.worktreeJobWriter worktreesOff other = false := by
      simp only [requiresRepositorySerialization, Bool.and_eq_true, Bool.not_eq_true',
        Bool.or_eq_false_iff] at hrequires
      exact hrequires.2.2
    have hself : Locks.worktreeJobWriter worktreesOff serial = false := by
      simp [Locks.worktreeJobWriter, hserial]
    simp [requiresRepositorySerialization, hserial, hwriters, hself]
  · right
    rw [hpaths]
    exact hoverlap

/-! ### Locks and their rows -/

/-- The lock that `rowsToLocks` lists for one row alone. -/
def rowLock (row : LockRow) : ActiveLock :=
  { id := row.runId
    agent := row.ownerAgent
    origin := row.acquisitionOrigin
    lockType := row.lockMode
    paths := normalizeLockPathList [row.normalizedPath]
    cwd := row.cwd
    createdAt := row.createdAt
    expiresAt := row.expiresAt
    editsCheckout := some (row.editsCheckout.getD true) }

@[simp] theorem rowLock_lockType (row : LockRow) : (rowLock row).lockType = row.lockMode := rfl

@[simp] theorem rowLock_editsCheckout (row : LockRow) :
    (rowLock row).editsCheckout = some (row.editsCheckout.getD true) := rfl

/-- Every row is listed under a lock built from the rows of its run. -/
theorem exists_lock_of_mem {rows : List LockRow} {row : LockRow} (h : row ∈ rows) :
    ∃ lock ∈ rowsToLocks rows, ∃ first ∈ rows, first.runId = row.runId ∧
      lock = { rowLock first with
        paths := normalizeLockPathList
          ((rows.filter (·.runId = row.runId)).map (·.normalizedPath)) } := by
  have hmem : row ∈ rows.filter (·.runId = row.runId) := by simp [h]
  cases hrows : rows.filter (·.runId = row.runId) with
  | nil => simp [hrows] at hmem
  | cons first rest =>
    have hfirst : first ∈ rows.filter (·.runId = row.runId) := by simp [hrows]
    rw [List.mem_filter, decide_eq_true_eq] at hfirst
    refine ⟨_, ?_, first, hfirst.1, hfirst.2, rfl⟩
    rw [rowsToLocks, List.mem_filterMap]
    refine ⟨row.runId, ?_, ?_⟩
    · exact List.mem_eraseDups.mpr (List.mem_map.mpr ⟨row, h, rfl⟩)
    · simp [hrows, lockOfRows, rowLock]

theorem expireLocksFromDb_mem {db : LockDb} {now : Nat} {row : LockRow} :
    row ∈ (expireLocksFromDb db now).locks ↔ row ∈ db.locks ∧ now < row.expiresAt := by
  simp [expireLocksFromDb]

/-- The rows a listing groups into locks are exactly the unexpired ones. -/
theorem mem_listed {db : LockDb} {now : Nat} {row : LockRow} :
    row ∈ (((expireLocksFromDb db now).locks.filter (now < ·.expiresAt)).insertionSort
        listedBefore) ↔ row ∈ db.locks ∧ now < row.expiresAt := by
  rw [List.mem_insertionSort, List.mem_filter, expireLocksFromDb_mem, decide_eq_true_eq]
  constructor
  · intro h
    exact h.1
  · intro h
    exact ⟨h, h.2⟩

end AgentBridge.Locks
