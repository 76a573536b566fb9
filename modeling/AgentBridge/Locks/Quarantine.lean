import AgentBridge.Locks.Exclusion

/-!
# Containment quarantine

A quarantine holds every path of a lock without an expiry until containment of
its processes is resolved, also when the lock's rows had lapsed and were pruned.
From then on only a release by the holder, the cleanup of a failed acquisition
or a resolved containment can end the hold; expiry passes, heartbeats, the
finalizer's renewals, other acquisitions and other quarantines do not.

Unlike an acquisition and unlike the finalizer's upgrade, a quarantine compares
nothing with the locks of other runs. It nevertheless excludes them exactly when
no live row of another run conflicts with the rows the lock still has, as the
quarantine rewrites them, nor with what has lapsed.
-/

namespace AgentBridge.Locks

open Paths Systems List

/-- Lock transactions together with quarantines. -/
inductive ContainmentEvent where
  | lock (event : LockEvent)
  | quarantine (lock : HeldLock) (containment : String) (exclusive : Bool)
      (expectedProtection : Option FinalizerReceipt) (now : Timestamp)

variable (runtime : LockRuntime)

def containmentStep (db : LockDb) : ContainmentEvent → LockDb
  | .lock event => lockStep runtime db event
  | .quarantine lock containment exclusive expectedProtection now =>
    (quarantineHardLock runtime db lock containment exclusive expectedProtection now).2

/-- Events that give up a lock: a release, the removal of a failed acquisition,
and the reclaim of a quarantine whose processes are gone. -/
def ContainmentEvent.givesUp : ContainmentEvent → Bool
  | .lock (.release ..) | .lock (.discardFailedAcquire ..) | .lock (.reclaim ..) => true
  | _ => false

def OwnRow (lock : HeldLock) (row : LockRow) : Prop :=
  row.runId = lock.id ∧ row.token = tokenSha256 runtime lock.token

instance (lock : HeldLock) (row : LockRow) : Decidable (OwnRow runtime lock row) :=
  inferInstanceAs (Decidable (_ ∧ _))

/-- A path of a run is held without expiry, and the run is quarantined. -/
structure HeldForContainment (runId : String) (path : PathText) (db : LockDb) : Prop where
  row : ∃ row ∈ db.locks, row.runId = runId ∧ row.normalizedPath = path ∧
    row.expiresAt = maxSafeInteger
  run : ∃ run, db.runs.find? (·.runId = runId) = some run ∧ run.status = .quarantined

/-- No live row of another run than the lock's conflicts with the row. -/
def FreeOfOthers (db : LockDb) (lock : HeldLock) (now : Timestamp) (row : LockRow) : Prop :=
  ∀ other ∈ db.locks, now.1 < other.expiresAt → other.runId ≠ lock.id →
    ¬ RowsConflict runtime.platform row other

instance (db : LockDb) (lock : HeldLock) (now : Timestamp) (row : LockRow) :
    Decidable (FreeOfOthers runtime db lock now row) :=
  inferInstanceAs (Decidable (∀ other ∈ db.locks, now.1 < other.expiresAt →
    other.runId ≠ lock.id → ¬ RowsConflict runtime.platform row other))

/-- What a successful quarantine of `lock` at time `now` should leave: every path
of the lock held without expiry, whatever later runs do short of giving the lock
up, and no live row of another run in conflict with the held rows. -/
structure KeepsExclusion (lock : HeldLock) (now : Timestamp) (db : LockDb) : Prop where
  held : ∀ later : List ContainmentEvent, (∀ event ∈ later, event.givesUp = false) →
    ∀ path ∈ lock.paths, ∃ row ∈ (run (containmentStep runtime) db later).locks,
      row.runId = lock.id ∧ row.normalizedPath = path ∧ row.expiresAt = maxSafeInteger
  exclusive : ∀ row ∈ db.locks, OwnRow runtime lock row → row.normalizedPath ∈ lock.paths →
    FreeOfOthers runtime db lock now row

/-- Before the quarantine, no live row of another run conflicts with the lock:
not with the rows it still has, in the mode they get, and not with the paths that
have lapsed, in the mode of the lock object. -/
structure NotReacquired (db : LockDb) (lock : HeldLock) (exclusive : Bool) (now : Timestamp) :
    Prop where
  present : ∀ row ∈ db.locks, OwnRow runtime lock row → row.normalizedPath ∈ lock.paths →
    FreeOfOthers runtime db lock now (quarantineRow exclusive row)
  lapsed : ∀ path ∈ lock.paths,
    (∀ row ∈ db.locks, OwnRow runtime lock row → row.normalizedPath ≠ path) →
    FreeOfOthers runtime db lock now (reinsertedRow runtime lock exclusive now path)

instance (db : LockDb) (lock : HeldLock) (exclusive : Bool) (now : Timestamp) :
    Decidable (NotReacquired runtime db lock exclusive now) :=
  decidable_of_iff
    ((∀ row ∈ db.locks, OwnRow runtime lock row → row.normalizedPath ∈ lock.paths →
        FreeOfOthers runtime db lock now (quarantineRow exclusive row)) ∧
      ∀ path ∈ lock.paths,
        (∀ row ∈ db.locks, OwnRow runtime lock row → row.normalizedPath ≠ path) →
        FreeOfOthers runtime db lock now (reinsertedRow runtime lock exclusive now path))
    ⟨fun h => ⟨h.1, h.2⟩, fun h => ⟨h.present, h.lapsed⟩⟩

variable {runtime} {db db' : LockDb} {lock : HeldLock} {runId : String} {path : PathText}

/-! ### Rows without expiry -/

@[simp] theorem quarantineRow_runId (exclusive : Bool) (row : LockRow) :
    (quarantineRow exclusive row).runId = row.runId := by
  cases exclusive <;> rfl

@[simp] theorem quarantineRow_token (exclusive : Bool) (row : LockRow) :
    (quarantineRow exclusive row).token = row.token := by
  cases exclusive <;> rfl

@[simp] theorem quarantineRow_normalizedPath (exclusive : Bool) (row : LockRow) :
    (quarantineRow exclusive row).normalizedPath = row.normalizedPath := by
  cases exclusive <;> rfl

@[simp] theorem quarantineRow_expiresAt (exclusive : Bool) (row : LockRow) :
    (quarantineRow exclusive row).expiresAt = maxSafeInteger := by
  cases exclusive <;> rfl

/-- A hold survives when its row is kept or rewritten in place without shortening
it, and its run stays quarantined. -/
theorem HeldForContainment.transfer (h : HeldForContainment runId path db)
    (rows : ∀ row ∈ db.locks, row.runId = runId → row.expiresAt = maxSafeInteger →
      ∃ row' ∈ db'.locks, row'.runId = row.runId ∧ row'.normalizedPath = row.normalizedPath ∧
        row'.expiresAt = maxSafeInteger)
    (runs : ∀ run, db.runs.find? (·.runId = runId) = some run → run.status = .quarantined →
      ∃ run', db'.runs.find? (·.runId = runId) = some run' ∧ run'.status = .quarantined) :
    HeldForContainment runId path db' := by
  obtain ⟨row, hrow, hid, hpath, hexpiry⟩ := h.row
  obtain ⟨run, hrun, hstatus⟩ := h.run
  obtain ⟨row', hrow', hid', hpath', hexpiry'⟩ := rows row hrow hid hexpiry
  exact ⟨⟨row', hrow', hid'.trans hid, hpath'.trans hpath, hexpiry'⟩, runs run hrun hstatus⟩

variable {runs : List RunRow}

theorem find_run_map {f : RunRow → RunRow} (name : ∀ run, (f run).runId = run.runId)
    (runId : String) :
    (runs.map f).find? (·.runId = runId) = (runs.find? (·.runId = runId)).map f := by
  rw [List.find?_map]
  congr 2
  funext run
  simp [name run]

theorem quarantined_find_map {f : RunRow → RunRow} (name : ∀ run, (f run).runId = run.runId)
    (status : ∀ run, run.status = .quarantined → (f run).status = .quarantined) {run : RunRow}
    (hrun : runs.find? (·.runId = runId) = some run) (hstatus : run.status = .quarantined) :
    ∃ run', (runs.map f).find? (·.runId = runId) = some run' ∧ run'.status = .quarantined :=
  ⟨f run, by rw [find_run_map name, hrun]; rfl, status run hstatus⟩

section

variable (h : HeldForContainment runId path db)

include h

theorem HeldForContainment.expireLocksFromDb (now : Timestamp) :
    HeldForContainment runId path (expireLocksFromDb db now) := by
  apply h.transfer
  · intro row hrow _ hexpiry
    refine ⟨row, expireLocksFromDb_mem.mpr ⟨hrow, ?_⟩, rfl, rfl, hexpiry⟩
    rw [hexpiry]
    exact now.lt_maxSafeInteger
  · intro run hrun hstatus
    refine quarantined_find_map (fun r => by split <;> rfl) ?_ hrun hstatus
    intro r hr
    simp [hr]

theorem HeldForContainment.acquireHardLock (args : AcquireArgs) (input : AcquireInput) :
    HeldForContainment runId path (acquireHardLock runtime db args input).2 := by
  unfold Locks.acquireHardLock
  split
  · exact h
  unfold acquireTransaction
  dsimp only
  split
  · exact h
  split
  · exact h
  split
  · exact h
  split
  · exact h
  apply (h.expireLocksFromDb input.now).transfer
  · intro row hrow _ hexpiry
    exact ⟨row, mem_append_left _ hrow, rfl, rfl, hexpiry⟩
  · intro run hrun hstatus
    exact ⟨run, by rw [List.find?_append, hrun]; rfl, hstatus⟩

theorem HeldForContainment.heartbeatPulse (held : HeldLock) (ttlMs : Int) (now : Timestamp) :
    HeldForContainment runId path (heartbeatPulse runtime db held ttlMs now) := by
  apply h.transfer
  · intro row hrow _ hexpiry
    refine ⟨row, mem_map.mpr ⟨row, hrow, ?_⟩, rfl, rfl, hexpiry⟩
    simp [hexpiry]
  · intro run hrun hstatus
    exact ⟨run, hrun, hstatus⟩

/-- The finalizer's operations act on a running run, never on a quarantined one. -/
theorem HeldForContainment.ne_of_running {held : HeldLock} {row : LockRow} {run : RunRow}
    (hrows : finalizerRows runtime db held = some (row, run)) (hrunning : run.status = .running) :
    held.id ≠ runId := by
  intro hid
  obtain ⟨run', hrun', hstatus⟩ := h.run
  have hfind := (finalizerRows_spec hrows).found
  rw [hid, hrun', Option.some.injEq] at hfind
  rw [hfind, hrunning] at hstatus
  simp at hstatus

/-- Rewriting the own rows of a different run leaves a hold alone. -/
theorem HeldForContainment.updateOther {other token : String} (hne : other ≠ runId)
    {f : LockRow → LockRow} {g : RunRow → RunRow} (name : ∀ run, (g run).runId = run.runId)
    (status : ∀ run, run.runId ≠ other → (g run).status = run.status) :
    HeldForContainment runId path
      { db with locks := updateOwnRows db.locks other token f, runs := db.runs.map g } := by
  apply h.transfer
  · intro row hrow hid hexpiry
    refine ⟨row, mem_map.mpr ⟨row, hrow, ?_⟩, rfl, rfl, hexpiry⟩
    simp [hid, hne.symm]
  · intro run hrun hstatus
    have hid : run.runId = runId := by simpa using List.find?_some hrun
    refine ⟨g run, ?_, ?_⟩
    · rw [find_run_map name, hrun]
      rfl
    · rw [status run (by rw [hid]; exact hne.symm)]
      exact hstatus

end

theorem HeldForContainment.beginFinalizerValidationProtection
    (h : HeldForContainment runId path db) (held : HeldLock) (containment : String)
    (now : Timestamp) (worktreesOff recoveryBlocked : Bool) :
    HeldForContainment runId path
      (beginFinalizerValidationProtection runtime db held containment now worktreesOff
        recoveryBlocked).2 := by
  unfold Locks.beginFinalizerValidationProtection
  split
  · exact h
  split
  · exact h
  split
  · exact h
  rename_i row run hrows
  split
  · exact h
  rename_i hguard
  split
  · exact h
  split
  · exact h
  have hrunning : run.status = .running := by
    by_contra hstatus
    exact hguard (Or.inr (Or.inr (Or.inr (Or.inl hstatus))))
  refine (h.expireLocksFromDb now).updateOther (h.ne_of_running hrows hrunning)
    (fun r => by split <;> rfl) ?_
  intro r hr
  simp [hr]

theorem HeldForContainment.restoreFinalizerReadLease (h : HeldForContainment runId path db)
    (held : HeldLock) (receipt : FinalizerReceipt) (ttlMs : Int) (now : Timestamp) :
    HeldForContainment runId path
      (restoreFinalizerReadLease runtime db held receipt ttlMs now).2 := by
  unfold Locks.restoreFinalizerReadLease
  split
  · exact h
  rename_i hmatch
  obtain ⟨row, run, hrows, hguard⟩ :=
    matchesFinalizerProtection_spec (Bool.not_eq_false _ ▸ hmatch)
  refine h.updateOther (h.ne_of_running hrows hguard.running) (fun r => by split <;> rfl) ?_
  intro r hr
  simp [hr]

theorem HeldForContainment.releaseQueueJobLocks (h : HeldForContainment runId path db)
    (lockId : String) (now : Nat) :
    HeldForContainment runId path (releaseQueueJobLocks db lockId now) := by
  apply h.transfer
  · intro row hrow _ hexpiry
    exact ⟨row, mem_filter.mpr ⟨hrow, by simp [hexpiry]⟩, rfl, rfl, hexpiry⟩
  · intro run hrun hstatus
    refine quarantined_find_map (fun r => by split <;> rfl) ?_ hrun hstatus
    intro r hr
    simp [hr]

theorem HeldForContainment.pruneRuns (h : HeldForContainment runId path db) (auditCutoff : Nat) :
    HeldForContainment runId path (pruneRuns db auditCutoff) := by
  apply h.transfer
  · intro row hrow _ hexpiry
    exact ⟨row, hrow, rfl, rfl, hexpiry⟩
  · intro run hrun hstatus
    refine ⟨run, ?_, hstatus⟩
    rw [Locks.pruneRuns, List.find?_filter]
    rw [List.find?_eq_some_iff_append] at hrun ⊢
    obtain ⟨hid, before, after, hruns, hbefore⟩ := hrun
    refine ⟨by simpa [hstatus] using hid, before, after, hruns, ?_⟩
    intro r hr
    have := hbefore r hr
    simp only [Bool.not_eq_true', decide_eq_false_iff_not] at this
    simp [this]

/-! ### Quarantines -/

theorem mem_heldPaths {exclusive : Bool} {locks : List LockRow} {p : PathText} :
    p ∈ ((updateOwnRows locks lock.id (tokenSha256 runtime lock.token)
        (quarantineRow exclusive)).filter fun row =>
          row.runId = lock.id ∧ row.token = tokenSha256 runtime lock.token ∧
            row.expiresAt = maxSafeInteger).map (·.normalizedPath) ↔
      ∃ row ∈ locks, OwnRow runtime lock row ∧ row.normalizedPath = p := by
  simp only [mem_map, mem_filter, updateOwnRows, decide_eq_true_eq]
  constructor
  · rintro ⟨_, ⟨⟨row, hrow, rfl⟩, hid, htoken, _⟩, rfl⟩
    by_cases hown : row.runId = lock.id ∧ row.token = tokenSha256 runtime lock.token
    · exact ⟨row, hrow, hown, by simp [hown]⟩
    · simp only [if_neg hown] at hid htoken
      exact absurd ⟨hid, htoken⟩ hown
  · rintro ⟨row, hrow, hown, rfl⟩
    refine ⟨quarantineRow exclusive row, ⟨⟨row, hrow, if_pos hown⟩, ?_⟩, by simp⟩
    simpa [OwnRow] using hown

/-- The rows after a default quarantine: the own rows, rewritten; all other rows,
unchanged; and one inserted row for every path without an own row. -/
theorem mem_quarantinedLocks {exclusive : Bool} {now : Nat} {locks locks' : List LockRow}
    (h : quarantinedLocks runtime locks lock exclusive now = some locks') {row : LockRow} :
    row ∈ locks' ↔
      (∃ held ∈ locks, OwnRow runtime lock held ∧ quarantineRow exclusive held = row) ∨
      (row ∈ locks ∧ ¬ OwnRow runtime lock row) ∨
      (∃ missing ∈ lock.paths,
        (∀ held ∈ locks, OwnRow runtime lock held → held.normalizedPath ≠ missing) ∧
        reinsertedRow runtime lock exclusive now missing = row) := by
  unfold quarantinedLocks at h
  dsimp only at h
  split at h
  · simp at h
  split at h
  · simp at h
  rw [Option.some.injEq] at h
  rw [← h, mem_append, ← or_assoc]
  refine or_congr ?_ ?_
  · simp only [updateOwnRows, mem_map]
    constructor
    · rintro ⟨held, hheld, rfl⟩
      by_cases hown : OwnRow runtime lock held
      · exact Or.inl ⟨held, hheld, hown, (if_pos hown).symm⟩
      · right
        simp only [if_neg (show ¬ (held.runId = lock.id ∧ _) from hown)]
        exact ⟨hheld, hown⟩
    · rintro (⟨held, hheld, hown, rfl⟩ | ⟨hrow, hown⟩)
      · exact ⟨held, hheld, if_pos hown⟩
      · exact ⟨row, hrow, if_neg hown⟩
  · rw [mem_map]
    refine exists_congr fun missing => ?_
    rw [mem_filter, decide_eq_true_eq, mem_heldPaths, and_assoc]
    refine and_congr_right fun _ => and_congr_left fun _ => ?_
    push Not
    rfl

variable {containment : String}

theorem quarantineRun_find {exclusive : Bool} {now : Nat} :
    ∃ run, (quarantineRun runs lock exclusive containment now).find? (·.runId = lock.id) = some run ∧
      run.status = .quarantined := by
  unfold quarantineRun
  split
  · rename_i hany
    obtain ⟨run, hrun, hid⟩ := any_eq_true.mp hany
    obtain ⟨found, hfound⟩ := Option.isSome_iff_exists.mp
      (List.find?_isSome (p := fun r : RunRow => decide (r.runId = lock.id)).mpr ⟨run, hrun, hid⟩)
    have hname : found.runId = lock.id := by simpa using List.find?_some hfound
    rw [find_run_map (fun r => by split <;> rfl), hfound]
    exact ⟨_, rfl, by simp [hname]⟩
  · rename_i hany
    have hnone : runs.find? (·.runId = lock.id) = none := by
      rw [List.find?_eq_none]
      intro run hrun hid
      exact hany (any_eq_true.mpr ⟨run, hrun, hid⟩)
    rw [List.find?_append, hnone]
    simp

theorem quarantined_find_quarantineRun {exclusive : Bool} {now : Nat} {run : RunRow}
    (hrun : runs.find? (·.runId = runId) = some run) (hstatus : run.status = .quarantined) :
    ∃ run', (quarantineRun runs lock exclusive containment now).find? (·.runId = runId) =
      some run' ∧ run'.status = .quarantined := by
  unfold quarantineRun
  split
  · refine quarantined_find_map (fun r => by split <;> rfl) ?_ hrun hstatus
    intro r hr
    split
    · rfl
    · exact hr
  · exact ⟨run, by rw [List.find?_append, hrun]; rfl, hstatus⟩

theorem HeldForContainment.quarantineHardLock (h : HeldForContainment runId path db)
    (held : HeldLock) (containment : String) (exclusive : Bool)
    (expectedProtection : Option FinalizerReceipt) (now : Nat) :
    HeldForContainment runId path
      (quarantineHardLock runtime db held containment exclusive expectedProtection now).2 := by
  unfold Locks.quarantineHardLock
  split
  · exact h
  split
  · exact h
  split
  · split
    · exact h
    · apply h.transfer
      · intro row hrow _ hexpiry
        exact ⟨row, hrow, rfl, rfl, hexpiry⟩
      · intro run hrun hstatus
        refine quarantined_find_map (fun r => by split <;> rfl) ?_ hrun hstatus
        intro r hr
        split
        · rfl
        · exact hr
  · split
    · exact h
    rename_i locks hlocks
    apply h.transfer
    · intro row hrow _ hexpiry
      by_cases hown : OwnRow runtime held row
      · exact ⟨quarantineRow exclusive row,
          (mem_quarantinedLocks hlocks).mpr (Or.inl ⟨row, hrow, hown, rfl⟩), by simp⟩
      · exact ⟨row, (mem_quarantinedLocks hlocks).mpr (Or.inr (Or.inl ⟨hrow, hown⟩)),
          rfl, rfl, hexpiry⟩
    · intro run hrun hstatus
      exact quarantined_find_quarantineRun hrun hstatus

/-! ### Runs after a quarantine -/

theorem HeldForContainment.step (h : HeldForContainment runId path db) {event : ContainmentEvent}
    (hkeeps : event.givesUp = false) :
    HeldForContainment runId path (containmentStep runtime db event) := by
  cases event with
  | quarantine held containment exclusive expectedProtection now =>
    exact h.quarantineHardLock held containment exclusive expectedProtection now
  | lock event =>
    cases event with
    | acquire args input => exact h.acquireHardLock args input
    | discardFailedAcquire => simp [ContainmentEvent.givesUp] at hkeeps
    | release => simp [ContainmentEvent.givesUp] at hkeeps
    | reclaim => simp [ContainmentEvent.givesUp] at hkeeps
    | expire now => exact h.expireLocksFromDb now
    | heartbeat held ttlMs now => exact h.heartbeatPulse held ttlMs now
    | beginProtection held containment now worktreesOff recoveryBlocked =>
      exact h.beginFinalizerValidationProtection held containment now worktreesOff
        recoveryBlocked
    | restoreReadLease held receipt ttlMs now =>
      exact h.restoreFinalizerReadLease held receipt ttlMs now
    | releaseQueueJob lockId now => exact h.releaseQueueJobLocks lockId now
    | pruneRuns auditCutoff => exact h.pruneRuns auditCutoff
    | external activeOwners operations => exact ⟨h.row, h.run⟩

theorem HeldForContainment.later (h : HeldForContainment runId path db)
    {later : List ContainmentEvent} (hkeeps : ∀ event ∈ later, event.givesUp = false) :
    HeldForContainment runId path (Systems.run (containmentStep runtime) db later) := by
  induction later generalizing db with
  | nil => exact h
  | cons event events ih =>
    exact ih (h.step (hkeeps event (by simp))) (fun e he => hkeeps e (by simp [he]))

/-! ### The exact condition -/

/-- What a successful quarantine does, whichever branch it took. -/
structure QuarantineOutcome (runtime : LockRuntime) (db db' : LockDb) (lock : HeldLock)
    (exclusive : Bool) (now : Nat) : Prop where
  mem : ∀ row, row ∈ db'.locks ↔
    (∃ held ∈ db.locks, OwnRow runtime lock held ∧ quarantineRow exclusive held = row) ∨
    (row ∈ db.locks ∧ ¬ OwnRow runtime lock row) ∨
    (∃ missing ∈ lock.paths,
      (∀ held ∈ db.locks, OwnRow runtime lock held → held.normalizedPath ≠ missing) ∧
      reinsertedRow runtime lock exclusive now missing = row)
  run : ∃ run, db'.runs.find? (·.runId = lock.id) = some run ∧ run.status = .quarantined

/-- The finalizer's own quarantine only changes the run: the protection it found
is already the row the quarantine would make. -/
theorem protection_outcome {receipt : FinalizerReceipt} {now : Nat}
    (hmatch : matchesFinalizerProtection runtime db lock receipt = true) :
    QuarantineOutcome runtime db { db with runs := db.runs.map fun run =>
          if run.runId = lock.id then
            { run with status := .quarantined, containment := containment }
          else run }
      lock true now := by
  obtain ⟨row, run, hrows, hshape⟩ := matchesFinalizerProtection_spec hmatch
  have holds := finalizerRows_spec hrows
  have hown : OwnRow runtime lock row := ⟨holds.mem.2, holds.token⟩
  have hsame : quarantineRow true row = row := by
    simp only [quarantineRow, if_true, ← hshape.serial, ← hshape.unexpiring, ← hshape.edits]
  refine ⟨?_, ?_⟩
  · intro other
    constructor
    · intro hother
      by_cases hownOther : OwnRow runtime lock other
      · have heq := holds.eq_of_runId hother hownOther.1
        exact Or.inl ⟨other, hother, hownOther, by rw [heq]; exact hsame⟩
      · exact Or.inr (Or.inl ⟨hother, hownOther⟩)
    · rintro (⟨held, hheld, hownHeld, rfl⟩ | ⟨hother, _⟩ | ⟨missing, hmissing, hlapsed, _⟩)
      · rw [holds.eq_of_runId hheld hownHeld.1, hsame]
        exact holds.mem.1
      · exact hother
      · rw [holds.scope, mem_singleton] at hmissing
        exact absurd (holds.path.trans hmissing.symm) (hlapsed row holds.mem.1 hown)
  · refine ⟨_, by rw [find_run_map (fun r => by split <;> rfl), holds.found]; rfl, ?_⟩
    have hname : run.runId = lock.id := by simpa using List.find?_some holds.found
    simp [hname]

theorem quarantineHardLock_outcome {exclusive : Bool} {expectedProtection : Option FinalizerReceipt}
    {now : Nat}
    (h : (quarantineHardLock runtime db lock containment exclusive expectedProtection now).1 =
      true) :
    QuarantineOutcome runtime db
      (quarantineHardLock runtime db lock containment exclusive expectedProtection now).2
      lock exclusive now := by
  unfold quarantineHardLock at h ⊢
  split at h
  · simp at h
  split at h
  · simp at h
  rename_i hid hexclusive
  rw [if_neg hid, if_neg hexclusive]
  cases expectedProtection with
  | some receipt =>
    dsimp only at h ⊢
    split at h
    · simp at h
    rename_i hguard
    rw [if_neg hguard]
    rw [not_or, Bool.not_eq_false, Bool.not_eq_false] at hguard
    rw [hguard.1]
    exact protection_outcome hguard.2
  | none =>
    dsimp only at h ⊢
    cases hlocks : quarantinedLocks runtime db.locks lock exclusive now with
    | none => simp [hlocks] at h
    | some locks => exact ⟨fun row => mem_quarantinedLocks hlocks, quarantineRun_find⟩

namespace QuarantineOutcome

variable {exclusive : Bool} {now : Timestamp}

/-- Every path of the lock has an unexpiring row of the lock. -/
theorem held (h : QuarantineOutcome runtime db db' lock exclusive now) {path : PathText}
    (hpath : path ∈ lock.paths) : HeldForContainment lock.id path db' := by
  refine ⟨?_, h.run⟩
  by_cases hpresent : ∃ row ∈ db.locks, OwnRow runtime lock row ∧ row.normalizedPath = path
  · obtain ⟨row, hrow, hown, hsame⟩ := hpresent
    exact ⟨quarantineRow exclusive row, (h.mem _).mpr (Or.inl ⟨row, hrow, hown, rfl⟩),
      by simpa using hown.1, by simpa using hsame, by simp⟩
  · refine ⟨reinsertedRow runtime lock exclusive now path,
      (h.mem _).mpr (Or.inr (Or.inr ⟨path, hpath, ?_, rfl⟩)), rfl, rfl, rfl⟩
    intro row hrow hown hsame
    exact hpresent ⟨row, hrow, hown, hsame⟩

theorem mem_other (h : QuarantineOutcome runtime db db' lock exclusive now) {other : LockRow}
    (hne : other.runId ≠ lock.id) : other ∈ db'.locks ↔ other ∈ db.locks := by
  rw [h.mem]
  constructor
  · rintro (⟨held, _, hown, rfl⟩ | ⟨hother, _⟩ | ⟨missing, _, _, rfl⟩)
    · exact absurd (by simpa using hown.1) hne
    · exact hother
    · exact absurd rfl hne
  · intro hother
    exact Or.inr (Or.inl ⟨hother, fun hown => hne hown.1⟩)

theorem exclusive_iff (h : QuarantineOutcome runtime db db' lock exclusive now) :
    (∀ row ∈ db'.locks, OwnRow runtime lock row → row.normalizedPath ∈ lock.paths →
      FreeOfOthers runtime db' lock now row) ↔
      NotReacquired runtime db lock exclusive now := by
  constructor
  · intro hexclusive
    refine ⟨?_, ?_⟩
    · intro row hrow hown hpath other hother hlive hne
      exact hexclusive (quarantineRow exclusive row)
        ((h.mem _).mpr (Or.inl ⟨row, hrow, hown, rfl⟩)) (by simpa [OwnRow] using hown)
        (by simpa using hpath) other ((h.mem_other hne).mpr hother) hlive hne
    · intro path hpath hlapsed other hother hlive hne
      exact hexclusive (reinsertedRow runtime lock exclusive now path)
        ((h.mem _).mpr (Or.inr (Or.inr ⟨path, hpath, hlapsed, rfl⟩))) ⟨rfl, rfl⟩ hpath
        other ((h.mem_other hne).mpr hother) hlive hne
  · intro hfree row hrow hownRow hpathRow other hother hlive hne
    have hotherBefore := (h.mem_other hne).mp hother
    rcases (h.mem row).mp hrow with ⟨held, hheld, hown, rfl⟩ | ⟨_, hforeign⟩ | ⟨p, hp, hlapsed, rfl⟩
    · exact hfree.present held hheld hown (by simpa using hpathRow) other hotherBefore hlive hne
    · exact absurd hownRow hforeign
    · exact hfree.lapsed p hp hlapsed other hotherBefore hlive hne

end QuarantineOutcome

/-- In every reachable state, a successful quarantine holds every path of its lock
for good; it excludes the live locks of other runs exactly when none of them
conflicted with the lock before, as held or as lapsed. -/
theorem keepsExclusion_iff_notReacquired (runtime : LockRuntime) (earlier : List ContainmentEvent)
    (lock : HeldLock) (containment : String) (exclusive : Bool)
    (expectedProtection : Option FinalizerReceipt) (now : Timestamp)
    (success : (quarantineHardLock runtime (run (containmentStep runtime) emptyLockDb earlier)
      lock containment exclusive expectedProtection now).1 = true) :
    KeepsExclusion runtime lock now
        (quarantineHardLock runtime (run (containmentStep runtime) emptyLockDb earlier)
          lock containment exclusive expectedProtection now).2 ↔
      NotReacquired runtime (run (containmentStep runtime) emptyLockDb earlier) lock exclusive
        now := by
  have outcome := quarantineHardLock_outcome success
  rw [← outcome.exclusive_iff]
  constructor
  · intro h
    exact h.exclusive
  · intro h
    refine ⟨?_, h⟩
    intro later hkeeps path hpath
    exact ((outcome.held hpath).later hkeeps).row

/-! ### Concrete runs -/

/-- The lock object of `acquireWrite path now runId`. -/
def writeLock (path : String) (now : Timestamp) (runId : String) : HeldLock :=
  acquiredLock posixRuntime (writeRequest path) (acquireInputAt now runId) .write

/-- A lapsed lock that nobody took over is quarantined next to a disjoint writer. -/
theorem keepsExclusion_of_lapsed_lock :
    KeepsExclusion posixRuntime (writeLock "src" ⟨1, by decide⟩ "run-1") ⟨1800002, by decide⟩
      (quarantineHardLock posixRuntime
        (run (containmentStep posixRuntime) emptyLockDb
          [.lock (acquireWrite "src" ⟨1, by decide⟩ "run-1"),
            .lock (acquireWrite "docs" ⟨1800001, by decide⟩ "run-2")])
        (writeLock "src" ⟨1, by decide⟩ "run-1") "" false none
        (⟨1800002, by decide⟩ : Timestamp)).2 :=
  (keepsExclusion_iff_notReacquired posixRuntime
    [.lock (acquireWrite "src" ⟨1, by decide⟩ "run-1"),
      .lock (acquireWrite "docs" ⟨1800001, by decide⟩ "run-2")]
    (writeLock "src" ⟨1, by decide⟩ "run-1") "" false none ⟨1800002, by decide⟩
    (by decide)).mpr (by decide)

/-- The lock of `run-1` lapses, `run-2` takes the same path, and the quarantine of
`run-1` still succeeds. -/
theorem quarantine_of_reacquired_lock_fails :
    (quarantineHardLock posixRuntime
      (run (containmentStep posixRuntime) emptyLockDb
        [.lock (acquireWrite "src" ⟨1, by decide⟩ "run-1"),
          .lock (acquireWrite "src" ⟨1800001, by decide⟩ "run-2")])
      (writeLock "src" ⟨1, by decide⟩ "run-1") "" false none
      (⟨1800002, by decide⟩ : Timestamp)).1 = true ∧
    ¬ KeepsExclusion posixRuntime (writeLock "src" ⟨1, by decide⟩ "run-1") ⟨1800002, by decide⟩
      (quarantineHardLock posixRuntime
        (run (containmentStep posixRuntime) emptyLockDb
          [.lock (acquireWrite "src" ⟨1, by decide⟩ "run-1"),
            .lock (acquireWrite "src" ⟨1800001, by decide⟩ "run-2")])
        (writeLock "src" ⟨1, by decide⟩ "run-1") "" false none
        (⟨1800002, by decide⟩ : Timestamp)).2 := by
  refine ⟨by decide, ?_⟩
  intro h
  refine h.exclusive
    (reinsertedRow posixRuntime (writeLock "src" ⟨1, by decide⟩ "run-1") false 1800002 "src".toList)
    (by decide) ⟨rfl, rfl⟩ (by decide)
    (acquiredRow posixRuntime (writeRequest "src") (acquireInputAt ⟨1800001, by decide⟩ "run-2")
      .write "src".toList)
    (by decide) (by decide) (by decide) (by decide)

end AgentBridge.Locks
