import AgentBridge.Locks.Bookkeeping

/-!
# Consistency of the lock tables

Which transaction could leave a run without its rows, or rows without their run?
`Tables` is what each of them keeps: besides the three statements of `Consistent`,
that the rows of a quarantined run do not expire and that the evidence of a running
run is never complete. The first keeps expiry and reconciliation away from
quarantines, the second keeps the reclaim away from a protected finalizer, whose
rows look like a quarantine while its run is still running.

Two processes outside a transaction rely on what they read earlier: a reclaim on
the record it found over, a failed acquisition on having deleted its rows. Both are
safe because a run that stopped running never runs again.
-/

namespace AgentBridge.Locks

open Paths Systems List

variable {runtime : LockRuntime} {db db' : LockDb} {issued : List (String × String)}

/-! ### Rows of a run -/

variable {locks : List LockRow} {runId : String}

theorem hasLockRow_iff : hasLockRow locks runId = true ↔ HasRow locks runId := by
  simp [hasLockRow, HasRow]

theorem hasLockRow_eq_false_iff : hasLockRow locks runId = false ↔ ¬ HasRow locks runId := by
  rw [← hasLockRow_iff, Bool.not_eq_true]

theorem HasRow.mono {locks' : List LockRow} (h : HasRow locks runId)
    (sub : ∀ row ∈ locks, row.runId = runId → row ∈ locks') : HasRow locks' runId := by
  obtain ⟨row, hrow, hid⟩ := h
  exact ⟨row, sub row hrow hid, hid⟩

theorem HasRow.filter {p : LockRow → Bool} (h : HasRow locks runId)
    (kept : ∀ row ∈ locks, row.runId = runId → p row = true) : HasRow (locks.filter p) runId :=
  h.mono fun row hrow hname => mem_filter.mpr ⟨hrow, kept row hrow hname⟩

theorem hasRow_map {f : LockRow → LockRow} (name : ∀ row, (f row).runId = row.runId) :
    HasRow (locks.map f) runId ↔ HasRow locks runId := by
  simp [HasRow, name]

@[simp] theorem not_completeContainment_empty : completeContainment runtime "" = false := by
  simp [completeContainment]

/-! ### The invariant of the tables -/

structure Tables (runtime : LockRuntime) (issued : List (String × String)) (db : LockDb) :
    Prop where
  consistent : Consistent db
  distinct : (issued.map (·.1)).Nodup
  unique : (db.runs.map (·.runId)).Nodup
  named : ∀ row ∈ db.locks, row.runId ∈ issued.map (·.1)
  tokens : ∀ pair ∈ issued, ∀ row ∈ db.locks, row.runId = pair.1 →
    row.token = tokenSha256 runtime pair.2
  unexpiring : ∀ run ∈ db.runs, run.status = .quarantined → ∀ row ∈ db.locks,
    row.runId = run.runId → row.expiresAt = maxSafeInteger
  incomplete : ∀ run ∈ db.runs, run.status = .running →
    completeContainment runtime run.containment = false

/-- A known run does not run. -/
structure Stopped (issued : List (String × String)) (db : LockDb) (runId : String) : Prop where
  known : runId ∈ issued.map (·.1)
  halted : ∀ run ∈ db.runs, run.runId = runId → run.status ≠ .running

/-- No known run starts running again. -/
def NoRestart (issued : List (String × String)) (db db' : LockDb) : Prop :=
  ∀ run' ∈ db'.runs, run'.status = .running → run'.runId ∈ issued.map (·.1) →
    ∃ run ∈ db.runs, run.runId = run'.runId ∧ run.status = .running

theorem NoRestart.refl : NoRestart issued db db :=
  fun run hrun hstatus _ => ⟨run, hrun, rfl, hstatus⟩

theorem NoRestart.trans {db'' : LockDb} (first : NoRestart issued db db')
    (second : NoRestart issued db' db'') : NoRestart issued db db'' := by
  intro run'' hrun'' hstatus hknown
  obtain ⟨run', hrun', hid', hstatus'⟩ := second run'' hrun'' hstatus hknown
  obtain ⟨run, hrun, hid, hstatus⟩ := first run' hrun' hstatus' (hid' ▸ hknown)
  exact ⟨run, hrun, hid.trans hid', hstatus⟩

theorem Stopped.later (h : Stopped issued db runId) (later : NoRestart issued db db') :
    Stopped issued db' runId := by
  refine ⟨h.known, ?_⟩
  intro run' hrun' hid hstatus
  obtain ⟨run, hrun, hsame, hrunning⟩ := later run' hrun' hstatus (hid ▸ h.known)
  exact h.halted run hrun (hsame.trans hid) hrunning

structure Keeps (runtime : LockRuntime) (issued : List (String × String)) (db db' : LockDb) :
    Prop where
  tables : Tables runtime issued db'
  noRestart : NoRestart issued db db'

theorem Tables.keeps (t : Tables runtime issued db) : Keeps runtime issued db db :=
  ⟨t, .refl⟩

theorem Keeps.trans {db'' : LockDb} (first : Keeps runtime issued db db')
    (second : Keeps runtime issued db' db'') : Keeps runtime issued db db'' :=
  ⟨second.tables, first.noRestart.trans second.noRestart⟩

variable {run : RunRow}

theorem Tables.eq_of_runId (t : Tables runtime issued db) {run' : RunRow} (hrun : run ∈ db.runs)
    (hrun' : run' ∈ db.runs) (hid : run.runId = run'.runId) : run = run' :=
  inj_on_of_nodup_map t.unique hrun hrun' hid

variable {f : RunRow → RunRow} {runs : List RunRow}

theorem map_runId (name : ∀ run, (f run).runId = run.runId) :
    (runs.map f).map (·.runId) = runs.map (·.runId) := by
  simp [name]

/-! ### Deletions -/

/-- What a statement may do to a run when it deletes rows: leave it, or end it. -/
structure Ends (f : RunRow → RunRow) (run : RunRow) : Prop where
  name : (f run).runId = run.runId
  status : f run = run ∨ (f run).status.holding = false

/-- Deleting rows and associations and ending runs keeps the tables if it keeps
them consistent. -/
theorem Tables.shrink (t : Tables runtime issued db) {associations : List QueueJobLock}
    (rows : ∀ row ∈ locks, row ∈ db.locks) (ends : ∀ run, Ends f run) (consistent : Consistent
      { db with locks := locks, runs := db.runs.map f, queueJobLocks := associations }) :
    Keeps runtime issued db
      { db with locks := locks, runs := db.runs.map f, queueJobLocks := associations } := by
  have same : ∀ run, (f run).status.holding = true → f run = run := by
    intro run hholding
    cases (ends run).status with
    | inl heq => exact heq
    | inr hended => rw [hended] at hholding; cases hholding
  refine ⟨⟨consistent, t.distinct, ?_, ?_, ?_, ?_, ?_⟩, ?_⟩
  · rw [map_runId fun run => (ends run).name]
    exact t.unique
  · intro row hrow
    exact t.named row (rows row hrow)
  · intro pair hpair row hrow
    exact t.tokens pair hpair row (rows row hrow)
  · intro run' hrun' hstatus row hrow hid
    obtain ⟨run, hrun, rfl⟩ := mem_map.mp hrun'
    have heq := same run (by rw [hstatus]; rfl)
    rw [heq] at hstatus hid
    exact t.unexpiring run hrun hstatus row (rows row hrow) hid
  · intro run' hrun' hstatus
    obtain ⟨run, hrun, rfl⟩ := mem_map.mp hrun'
    have heq := same run (by rw [hstatus]; rfl)
    rw [heq] at hstatus ⊢
    exact t.incomplete run hrun hstatus
  · intro run' hrun' hstatus _
    obtain ⟨run, hrun, rfl⟩ := mem_map.mp hrun'
    have heq := same run (by rw [hstatus]; rfl)
    exact ⟨run, hrun, (ends run).name.symm, by rw [← heq]; exact hstatus⟩

/-- The consistency of a deletion, run by run: what still holds has a row left, and
what newly ended has none. -/
theorem Consistent.shrink (c : Consistent db) {associations : List QueueJobLock}
    (rows : ∀ row ∈ locks, row ∈ db.locks) (name : ∀ run, (f run).runId = run.runId)
    (associated : ∀ association ∈ associations, HasRow locks association.lockId)
    (held : ∀ run ∈ db.runs, (f run).status.holding → HasRow locks run.runId)
    (rowless : ∀ run ∈ db.runs, (f run).status.ended → f run = run ∨ ¬ HasRow locks run.runId) :
    Consistent { db with locks := locks, runs := db.runs.map f, queueJobLocks := associations } := by
  refine ⟨associated, ?_, ?_⟩
  · intro run' hrun' hholding
    obtain ⟨run, hrun, rfl⟩ := mem_map.mp hrun'
    rw [name]
    exact held run hrun hholding
  · intro run' hrun' hended
    obtain ⟨run, hrun, rfl⟩ := mem_map.mp hrun'
    rw [name]
    cases rowless run hrun hended with
    | inl heq =>
      rw [heq] at hended
      intro hrow
      exact c.rowless run hrun hended (hrow.mono fun row hrow _ => rows row hrow)
    | inr hnone => exact hnone

theorem holding_iff {status : RunStatus} :
    status.holding = true ↔ status = .running ∨ status = .quarantined := by
  cases status <;> simp [RunStatus.holding]

section

variable (t : Tables runtime issued db)

include t

theorem Tables.quarantined_live (hrun : run ∈ db.runs) (hstatus : run.status = .quarantined)
    {row : LockRow} (hrow : row ∈ db.locks) (hid : row.runId = run.runId) (now : Timestamp) :
    ¬ row.expiresAt ≤ now.1 := by
  rw [t.unexpiring run hrun hstatus row hrow hid]
  exact Nat.not_le.mpr now.lt_maxSafeInteger

theorem Tables.expireLocksFromDb (now : Timestamp) :
    Keeps runtime issued db (expireLocksFromDb db now) := by
  have rows : ∀ row ∈ db.locks.filter (fun row => ¬ row.expiresAt ≤ now.1), row ∈ db.locks :=
    fun row hrow => (mem_filter.mp hrow).1
  have live : ∀ {runId}, runId ∉ ((db.locks.filter (·.expiresAt ≤ now.1)).map (·.runId)).eraseDups →
      HasRow db.locks runId → HasRow (db.locks.filter fun row => ¬ row.expiresAt ≤ now.1) runId := by
    intro runId hid hheld
    refine hheld.filter fun row hrow hname => ?_
    rw [decide_eq_true_eq]
    intro hlapsed
    apply hid
    rw [mem_eraseDups, mem_map]
    exact ⟨row, mem_filter.mpr ⟨hrow, by simpa using hlapsed⟩, hname⟩
  refine t.shrink rows (fun run => ⟨by split <;> rfl, by split <;> simp [RunStatus.holding]⟩) ?_
  refine t.consistent.shrink rows (fun run => by split <;> rfl) ?_ ?_ ?_
  · intro association hassociation
    obtain ⟨hmem, hkept⟩ := mem_filter.mp hassociation
    rw [decide_eq_true_eq, hasLockRow_eq_false_iff] at hkept
    by_contra hnone
    have hlapsed := Classical.not_not.mp fun h => hnone (live h (t.consistent.associated _ hmem))
    exact hkept ⟨hlapsed, hnone⟩
  · intro run hrun hholding
    by_contra hnone
    have hheld := t.consistent.held run hrun
    split at hholding
    · cases hholding
    · rename_i hkept
      cases holding_iff.mp hholding with
      | inl hrunning =>
        have hlapsed := Classical.not_not.mp fun h => hnone (live h (hheld hholding))
        exact hkept ⟨hlapsed, hrunning, hasLockRow_eq_false_iff.mpr hnone⟩
      | inr hquarantined =>
        refine hnone ((hheld hholding).filter fun row hrow hname => ?_)
        simpa using t.quarantined_live hrun hquarantined hrow hname now
  · intro run hrun _
    split
    · rename_i hlapsed
      exact Or.inr (hasLockRow_eq_false_iff.mp hlapsed.2.2)
    · exact Or.inl rfl

theorem Tables.releaseHardLock (lockId token : String) (paths : List PathText) (now : Timestamp) :
    Keeps runtime issued db (releaseHardLock runtime db lockId token paths now).2 := by
  unfold Locks.releaseHardLock
  dsimp only
  split
  · exact t.keeps
  set released : LockRow → Bool := fun row => decide (row.runId = lockId ∧
    row.token = tokenSha256 runtime token ∧
      (normalizeLockPathList paths = [] ∨ row.normalizedPath ∈ normalizeLockPathList paths))
  have rows : ∀ row ∈ db.locks.filter (fun row => !released row), row ∈ db.locks :=
    fun row hrow => (mem_filter.mp hrow).1
  have other : ∀ {runId}, runId ≠ lockId → HasRow db.locks runId →
      HasRow (db.locks.filter fun row => !released row) runId := by
    intro runId hne hheld
    refine hheld.filter fun row _ hname => ?_
    simp [released, hname, hne]
  have deleted : Keeps runtime issued db
      (if hasLockRow (db.locks.filter fun row => !released row) lockId then
        { db with locks := db.locks.filter fun row => !released row }
      else
        { db with
          locks := db.locks.filter fun row => !released row
          runs := db.runs.map fun run =>
            if run.runId = lockId then { run with status := .released, finishedAt := some now.1 }
            else run
          queueJobLocks := db.queueJobLocks.filter (·.lockId ≠ lockId) }) := by
    split
    · rename_i hleft
      have left : ∀ {runId}, HasRow db.locks runId →
          HasRow (db.locks.filter fun row => !released row) runId := by
        intro runId hheld
        by_cases hid : runId = lockId
        · rw [hid]
          exact hasLockRow_iff.mp hleft
        · exact other hid hheld
      have deleted : Keeps runtime issued db
          { db with
            locks := db.locks.filter fun row => !released row
            runs := db.runs.map id
            queueJobLocks := db.queueJobLocks } :=
        t.shrink rows (fun run => ⟨rfl, Or.inl rfl⟩) (t.consistent.shrink rows (fun _ => rfl)
          (fun association h => left (t.consistent.associated association h))
          (fun run hrun hholding => left (t.consistent.held run hrun hholding))
          (fun run _ _ => Or.inl rfl))
      rwa [map_id] at deleted
    · rename_i hgone
      refine t.shrink rows
        (fun run => ⟨by split <;> rfl, by split <;> simp [RunStatus.holding]⟩) ?_
      refine t.consistent.shrink rows (fun run => by split <;> rfl) ?_ ?_ ?_
      · intro association hassociation
        obtain ⟨hmem, hne⟩ := mem_filter.mp hassociation
        exact other (by simpa using hne) (t.consistent.associated association hmem)
      · intro run hrun hholding
        split at hholding
        · cases hholding
        · rename_i hne
          exact other hne (t.consistent.held run hrun hholding)
      · intro run _ _
        split
        · rename_i hid
          rw [hid]
          exact Or.inr fun h => hgone (hasLockRow_iff.mpr h)
        · exact Or.inl rfl
  exact deleted.trans (deleted.tables.expireLocksFromDb now)

theorem Tables.releaseQueueJobLocks (lockId : String) (now : Nat) :
    Keeps runtime issued db (releaseQueueJobLocks db lockId now) := by
  unfold Locks.releaseQueueJobLocks
  dsimp only
  set removed : LockRow → Bool := fun row =>
    decide (row.runId = lockId ∧ row.expiresAt ≠ maxSafeInteger)
  have rows : ∀ row ∈ db.locks.filter (fun row => !removed row), row ∈ db.locks :=
    fun row hrow => (mem_filter.mp hrow).1
  have other : ∀ {runId}, runId ≠ lockId → HasRow db.locks runId →
      HasRow (db.locks.filter fun row => !removed row) runId := by
    intro runId hne hheld
    refine hheld.filter fun row _ hname => ?_
    simp [removed, hname, hne]
  refine t.shrink rows (fun run => ⟨by split <;> rfl, by split <;> simp [RunStatus.holding]⟩) ?_
  refine t.consistent.shrink rows (fun run => by split <;> rfl) ?_ ?_ ?_
  · intro association hassociation
    by_cases hid : association.lockId = lockId
    · by_contra hnone
      rw [hid] at hnone
      rw [if_pos (hasLockRow_eq_false_iff.mpr hnone)] at hassociation
      exact absurd hid (by simpa using (mem_filter.mp hassociation).2)
    · refine other hid (t.consistent.associated association ?_)
      split at hassociation
      · exact (mem_filter.mp hassociation).1
      · exact hassociation
  · intro run hrun hholding
    by_contra hnone
    split at hholding
    · cases hholding
    · rename_i hkept
      have hheld := t.consistent.held run hrun hholding
      have hid : run.runId = lockId := by
        by_contra hne
        exact hnone (other hne hheld)
      obtain ⟨row, hrow, hname⟩ := hheld
      have hremoved : removed row = true := by
        by_contra hstays
        refine hnone ⟨row, mem_filter.mpr ⟨hrow, ?_⟩, hname⟩
        show (!removed row) = true
        rw [eq_false_of_ne_true hstays]
        rfl
      cases holding_iff.mp hholding with
      | inl hrunning =>
        rw [hid] at hnone
        exact hkept ⟨any_eq_true.mpr ⟨row, hrow, hremoved⟩,
          hasLockRow_eq_false_iff.mpr hnone, hid, hrunning⟩
      | inr hquarantined =>
        simp only [removed, decide_eq_true_eq] at hremoved
        exact hremoved.2 (t.unexpiring run hrun hquarantined row hrow hname)
  · intro run _ _
    split
    · rename_i hgone
      rw [hgone.2.2.1]
      exact Or.inr (hasLockRow_eq_false_iff.mp hgone.2.1)
    · exact Or.inl rfl

/-- A reclaim ends a quarantine; the run it read can no longer be a protected
finalizer's, which would be left running without rows. -/
theorem Tables.reclaimLockQuarantine (stopped : Stopped issued db runId) (now : Nat) :
    Keeps runtime issued db (reclaimLockQuarantine db runId now) := by
  unfold Locks.reclaimLockQuarantine
  dsimp only
  have rows : ∀ row ∈ db.locks.filter
      (fun row => ¬ (row.runId = runId ∧ row.expiresAt = maxSafeInteger)), row ∈ db.locks :=
    fun row hrow => (mem_filter.mp hrow).1
  have other : ∀ {name}, name ≠ runId → HasRow db.locks name →
      HasRow (db.locks.filter
        fun row => ¬ (row.runId = runId ∧ row.expiresAt = maxSafeInteger)) name := by
    intro name hne hheld
    refine hheld.filter fun row _ hname => ?_
    simp [hname, hne]
  refine t.shrink rows (fun run => ⟨by split <;> rfl, by split <;> simp [RunStatus.holding]⟩) ?_
  refine t.consistent.shrink rows (fun run => by split <;> rfl) ?_ ?_ ?_
  · intro association hassociation
    split at hassociation
    · rename_i hleft
      by_cases hid : association.lockId = runId
      · rw [hid]
        exact hasLockRow_iff.mp hleft
      · exact other hid (t.consistent.associated association hassociation)
    · obtain ⟨hmem, hne⟩ := mem_filter.mp hassociation
      exact other (by simpa using hne) (t.consistent.associated association hmem)
  · intro run hrun hholding
    split at hholding
    · cases hholding
    · rename_i hkept
      refine other ?_ (t.consistent.held run hrun hholding)
      intro hid
      cases holding_iff.mp hholding with
      | inl hrunning => exact stopped.halted run hrun hid hrunning
      | inr hquarantined => exact hkept ⟨hid, hquarantined⟩
  · intro run _ hended
    split
    · rename_i hreclaimed
      rw [if_pos hreclaimed] at hended
      cases hended
    · exact Or.inl rfl

theorem Tables.pruneRuns (auditCutoff : Nat) :
    Keeps runtime issued db (pruneRuns db auditCutoff) := by
  have sub : ∀ run ∈ (Locks.pruneRuns db auditCutoff).runs, run ∈ db.runs :=
    fun run hrun => (mem_filter.mp hrun).1
  refine ⟨⟨⟨t.consistent.associated, ?_, ?_⟩, t.distinct, ?_, t.named, t.tokens, ?_, ?_⟩, ?_⟩
  · exact fun run hrun => t.consistent.held run (sub run hrun)
  · exact fun run hrun => t.consistent.rowless run (sub run hrun)
  · exact t.unique.sublist (filter_sublist.map _)
  · exact fun run hrun => t.unexpiring run (sub run hrun)
  · exact fun run hrun => t.incomplete run (sub run hrun)
  · exact fun run hrun hstatus _ => ⟨run, sub run hrun, rfl, hstatus⟩

/-! ### Rewriting in place -/

/-- Rewriting rows and runs in place keeps the tables if no run starts or ends by it,
quarantines included, whose rows must not expire. -/
theorem Tables.rewrite {f : LockRow → LockRow} {g : RunRow → RunRow}
    (rowName : ∀ row, (f row).runId = row.runId) (rowToken : ∀ row, (f row).token = row.token)
    (name : ∀ run, (g run).runId = run.runId)
    (status : ∀ run ∈ db.runs, (g run).status = run.status ∨
      ((g run).status = .quarantined ∧ HasRow db.locks run.runId))
    (unexpiring : ∀ run ∈ db.runs, (g run).status = .quarantined → ∀ row ∈ db.locks,
      row.runId = run.runId → (f row).expiresAt = maxSafeInteger)
    (incomplete : ∀ run ∈ db.runs, (g run).status = .running →
      completeContainment runtime (g run).containment = false) :
    Keeps runtime issued db { db with locks := db.locks.map f, runs := db.runs.map g } := by
  have running : ∀ run ∈ db.runs, (g run).status = .running → run.status = .running := by
    intro run hrun hstatus
    cases status run hrun with
    | inl hsame => rw [← hsame]; exact hstatus
    | inr hquarantined => rw [hquarantined.1] at hstatus; cases hstatus
  refine ⟨⟨⟨?_, ?_, ?_⟩, t.distinct, ?_, ?_, ?_, ?_, ?_⟩, ?_⟩
  · intro association hassociation
    exact (hasRow_map rowName).mpr (t.consistent.associated association hassociation)
  · intro run' hrun' hholding
    obtain ⟨run, hrun, rfl⟩ := mem_map.mp hrun'
    rw [name]
    apply (hasRow_map rowName).mpr
    cases status run hrun with
    | inl hsame => exact t.consistent.held run hrun (hsame ▸ hholding)
    | inr hquarantined => exact hquarantined.2
  · intro run' hrun' hended
    obtain ⟨run, hrun, rfl⟩ := mem_map.mp hrun'
    rw [name]
    cases status run hrun with
    | inl hsame =>
      exact fun h => t.consistent.rowless run hrun (hsame ▸ hended) ((hasRow_map rowName).mp h)
    | inr hquarantined => rw [hquarantined.1] at hended; cases hended
  · rw [map_runId name]
    exact t.unique
  · intro row' hrow'
    obtain ⟨row, hrow, rfl⟩ := mem_map.mp hrow'
    rw [rowName]
    exact t.named row hrow
  · intro pair hpair row' hrow' hid
    obtain ⟨row, hrow, rfl⟩ := mem_map.mp hrow'
    rw [rowName] at hid
    rw [rowToken]
    exact t.tokens pair hpair row hrow hid
  · intro run' hrun' hstatus row' hrow' hid
    obtain ⟨run, hrun, rfl⟩ := mem_map.mp hrun'
    obtain ⟨row, hrow, rfl⟩ := mem_map.mp hrow'
    rw [rowName, name] at hid
    exact unexpiring run hrun hstatus row hrow hid
  · intro run' hrun' hstatus
    obtain ⟨run, hrun, rfl⟩ := mem_map.mp hrun'
    exact incomplete run hrun hstatus
  · intro run' hrun' hstatus _
    obtain ⟨run, hrun, rfl⟩ := mem_map.mp hrun'
    exact ⟨run, hrun, (name run).symm, running run hrun hstatus⟩

theorem Tables.heartbeatPulse (lock : HeldLock) (ttlMs : Int) (now : Nat) :
    Keeps runtime issued db (heartbeatPulse runtime db lock ttlMs now) := by
  have := t.rewrite (g := id)
    (f := fun row =>
      if row.runId = lock.id ∧ row.token = tokenSha256 runtime lock.token ∧
          now < row.expiresAt ∧ row.expiresAt ≠ maxSafeInteger then
        { row with expiresAt := now + max 250 (if ttlMs = 0 then defaultLockTtlMs else ttlMs.toNat) }
      else row)
    (fun row => by split <;> rfl) (fun row => by split <;> rfl) (fun _ => rfl)
    (fun run _ => Or.inl rfl)
    (by
      intro run hrun hstatus row hrow hid
      have hexpiry := t.unexpiring run hrun hstatus row hrow hid
      simp [hexpiry])
    t.incomplete
  rwa [map_id] at this

theorem Tables.finalizer_run {lock : HeldLock} {row : LockRow}
    (holds : FinalizerHolds runtime db lock row run) {other : RunRow} (hother : other ∈ db.runs)
    (hid : other.runId = lock.id) : other = run := by
  have hrun : run ∈ db.runs := mem_of_find?_eq_some holds.found
  have hname : run.runId = lock.id := by simpa using List.find?_some holds.found
  exact t.eq_of_runId hother hrun (hid.trans hname.symm)

end

variable {containment : String} {now : Nat}

section Finalizer

variable {lock : HeldLock} {receipt : FinalizerReceipt}

theorem Tables.restoreFinalizerReadLease (t : Tables runtime issued db)
    (running : receipt.run.status = .running)
    (evidence : completeContainment runtime receipt.run.containment = false) (ttlMs : Int)
    (now : Nat) :
    Keeps runtime issued db (restoreFinalizerReadLease runtime db lock receipt ttlMs now).2 := by
  unfold Locks.restoreFinalizerReadLease
  split
  · exact t.keeps
  rename_i hmatch
  obtain ⟨row, run, hrows, hshape⟩ :=
    matchesFinalizerProtection_spec (Bool.not_eq_false _ ▸ hmatch)
  have holds := finalizerRows_spec hrows
  refine t.rewrite (fun r => by dsimp only; split <;> rfl) (fun r => by dsimp only; split <;> rfl)
    (fun r => by split <;> rfl) ?_ ?_ ?_
  · intro r hr
    left
    split
    · rename_i hid
      rw [t.finalizer_run holds hr hid, hshape.running]
      exact running
    · rfl
  · intro r hr hstatus held hheld hid
    split at hstatus
    · rw [running] at hstatus
      cases hstatus
    · rename_i hne
      rw [if_neg fun hown => hne (hid.symm.trans hown.1)]
      exact t.unexpiring r hr hstatus held hheld hid
  · intro r hr hstatus
    split
    · exact evidence
    · rename_i hne
      rw [if_neg hne] at hstatus
      exact t.incomplete r hr hstatus

theorem Tables.protectedQuarantine (t : Tables runtime issued db)
    (hmatch : matchesFinalizerProtection runtime db lock receipt = true) :
    Keeps runtime issued db { db with runs := db.runs.map fun run =>
          if run.runId = lock.id then
            { run with status := .quarantined, containment := containment }
          else run } := by
  obtain ⟨row, run, hrows, hshape⟩ := matchesFinalizerProtection_spec hmatch
  have holds := finalizerRows_spec hrows
  have := t.rewrite (f := id)
    (g := fun run =>
      if run.runId = lock.id then
        { run with status := .quarantined, containment := containment }
      else run)
    (fun _ => rfl) (fun _ => rfl) (fun r => by split <;> rfl) ?_ ?_ ?_
  · rwa [map_id] at this
  · intro r hr
    split
    · rename_i hid
      exact Or.inr ⟨rfl, row, holds.mem.1, holds.mem.2.trans hid.symm⟩
    · exact Or.inl rfl
  · intro r hr hstatus held hheld hid
    split at hstatus
    · rename_i hname
      show held.expiresAt = maxSafeInteger
      rw [holds.eq_of_runId hheld (hid.trans hname)]
      exact hshape.unexpiring
    · exact t.unexpiring r hr hstatus held hheld hid
  · intro r hr hstatus
    split at hstatus
    · cases hstatus
    · rename_i hne
      rw [if_neg hne]
      exact t.incomplete r hr hstatus

theorem provisional_incomplete (h : (runtime.parseContainment containment).any (fun info =>
      info.complete = false ∧ info.pids = [] ∧ 0 < info.recordedAt) = true) :
    completeContainment runtime containment = false := by
  cases hparse : runtime.parseContainment containment with
  | none => simp [hparse] at h
  | some info =>
    simp only [hparse, Option.any_some, decide_eq_true_eq] at h
    simp [completeContainment, hparse, h.1]

theorem Tables.beginFinalizerValidationProtection (t : Tables runtime issued db)
    (containment : String) (now : Timestamp) (worktreesOff recoveryBlocked : Bool) :
    Keeps runtime issued db
      (beginFinalizerValidationProtection runtime db lock containment now worktreesOff
        recoveryBlocked).2 := by
  unfold Locks.beginFinalizerValidationProtection
  split
  · exact t.keeps
  split
  · exact t.keeps
  rename_i hprovisional
  split
  · exact t.keeps
  split
  · exact t.keeps
  split
  · exact t.keeps
  split
  · exact t.keeps
  have evidence := provisional_incomplete (Classical.not_not.mp hprovisional)
  have expired := t.expireLocksFromDb now
  refine expired.trans (expired.tables.rewrite (fun r => by dsimp only; split <;> rfl)
    (fun r => by dsimp only; split <;> rfl) (fun r => by split <;> rfl) ?_ ?_ ?_)
  · intro r hr
    left
    split <;> rfl
  · intro r hr hstatus held hheld hid
    split
    · rfl
    · refine expired.tables.unexpiring r hr ?_ held hheld hid
      split at hstatus
      · exact hstatus
      · exact hstatus
  · intro r hr hstatus
    split
    · exact evidence
    · rename_i hne
      rw [if_neg hne] at hstatus
      exact expired.tables.incomplete r hr hstatus

/-- What the finalizer is given to restore from: a run that was running. -/
structure GenuineReceipt (runtime : LockRuntime) (receipt : FinalizerReceipt) : Prop where
  running : receipt.run.status = .running
  evidence : completeContainment runtime receipt.run.containment = false

theorem Tables.genuineReceipt (t : Tables runtime issued db) {worktreesOff recoveryBlocked : Bool}
    (h : (Locks.beginFinalizerValidationProtection runtime db lock containment now worktreesOff
      recoveryBlocked).1 = .ok receipt) : GenuineReceipt runtime receipt := by
  unfold Locks.beginFinalizerValidationProtection at h
  split at h
  · cases h
  split at h
  · cases h
  split at h
  · cases h
  rename_i row run hrows
  split at h
  · cases h
  rename_i hguard
  split at h
  · cases h
  split at h
  · cases h
  have hrunning : run.status = .running := by
    by_contra hstatus
    exact hguard (Or.inr (Or.inr (Or.inr (Or.inl hstatus))))
  have hrun : run ∈ db.runs := mem_of_find?_eq_some (finalizerRows_spec hrows).found
  cases h
  exact ⟨hrunning, t.incomplete run hrun hrunning⟩

end Finalizer

/-! ### Quarantine -/

section Quarantine

variable {lock : HeldLock} {exclusive : Bool}

theorem quarantinedLocks_hasRow {locks' : List LockRow}
    (h : quarantinedLocks runtime locks lock exclusive now = some locks') :
    HasRow locks' lock.id := by
  have hmem := fun row => @mem_quarantinedLocks runtime lock exclusive now locks locks' h row
  by_cases hown : ∃ held ∈ locks, OwnRow runtime lock held
  · obtain ⟨held, hheld, hown⟩ := hown
    exact ⟨quarantineRow exclusive held, (hmem _).mpr (Or.inl ⟨held, hheld, hown, rfl⟩),
      by simpa using hown.1⟩
  · push Not at hown
    cases hpaths : lock.paths with
    | nil =>
      unfold quarantinedLocks at h
      dsimp only at h
      split at h
      · cases h
      · rename_i hsome
        refine absurd ⟨?_, hpaths⟩ hsome
        rw [eq_nil_iff_forall_not_mem]
        intro path hpath
        obtain ⟨held, hheld, hownHeld, _⟩ := mem_heldPaths.mp hpath
        exact hown held hheld hownHeld
    | cons path paths =>
      refine ⟨reinsertedRow runtime lock exclusive now path, (hmem _).mpr ?_, rfl⟩
      refine Or.inr (Or.inr ⟨path, by simp [hpaths], ?_, rfl⟩)
      intro held hheld hownHeld
      exact absurd hownHeld (hown held hheld)

theorem mem_quarantineRun (h : run ∈ quarantineRun runs lock exclusive containment now) :
    (run.runId = lock.id ∧ run.status = .quarantined) ∨ (run ∈ runs ∧ run.runId ≠ lock.id) := by
  unfold quarantineRun at h
  split at h
  · obtain ⟨r, hr, rfl⟩ := mem_map.mp h
    split
    · rename_i hid
      exact Or.inl ⟨hid, rfl⟩
    · rename_i hne
      exact Or.inr ⟨hr, hne⟩
  · rename_i hnone
    cases mem_append.mp h with
    | inl hold =>
      refine Or.inr ⟨hold, ?_⟩
      intro hid
      exact hnone (any_eq_true.mpr ⟨run, hold, by simpa using hid⟩)
    | inr hnew =>
      rw [mem_singleton.mp hnew]
      exact Or.inl ⟨rfl, rfl⟩

theorem nodup_quarantineRun (h : (runs.map (·.runId)).Nodup) :
    ((quarantineRun runs lock exclusive containment now).map (·.runId)).Nodup := by
  unfold quarantineRun
  split
  · rw [map_runId fun run => by split <;> rfl]
    exact h
  · rename_i hnone
    rw [map_append, nodup_append]
    refine ⟨h, by simp, ?_⟩
    intro name hname other hother heq
    obtain ⟨run, hrun, rfl⟩ := mem_map.mp hname
    rw [map_cons, map_nil, mem_singleton] at hother
    exact hnone (any_eq_true.mpr ⟨run, hrun, by simp [heq, hother]⟩)

theorem Tables.quarantineHardLock (t : Tables runtime issued db)
    (hissued : (lock.id, lock.token) ∈ issued) (containment : String)
    (expectedProtection : Option FinalizerReceipt) (now : Nat) :
    Keeps runtime issued db
      (quarantineHardLock runtime db lock containment exclusive expectedProtection now).2 := by
  unfold Locks.quarantineHardLock
  split
  · exact t.keeps
  split
  · exact t.keeps
  cases expectedProtection with
  | some receipt =>
    dsimp only
    split
    · exact t.keeps
    rename_i hguard
    rw [not_or, Bool.not_eq_false, Bool.not_eq_false] at hguard
    exact t.protectedQuarantine hguard.2
  | none =>
    dsimp only
    cases hlocks : quarantinedLocks runtime db.locks lock exclusive now with
    | none => exact t.keeps
    | some locks =>
      have hmem :=
        fun row => @mem_quarantinedLocks runtime lock exclusive now db.locks locks hlocks row
      have hrow := quarantinedLocks_hasRow hlocks
      -- Rows of other runs stay, and every row of this run is now its own and unexpiring.
      have hother : ∀ row, row.runId ≠ lock.id → (row ∈ locks ↔ row ∈ db.locks) := by
        intro row hne
        rw [hmem]
        constructor
        · rintro (⟨held, _, hown, rfl⟩ | ⟨hold, _⟩ | ⟨path, _, _, rfl⟩)
          · exact absurd (by simpa using hown.1) hne
          · exact hold
          · exact absurd rfl hne
        · exact fun hold => Or.inr (Or.inl ⟨hold, fun hown => hne hown.1⟩)
      have hown : ∀ row ∈ locks, row.runId = lock.id →
          row.token = tokenSha256 runtime lock.token ∧ row.expiresAt = maxSafeInteger := by
        intro row hin hid
        obtain ⟨held, _, hheld, rfl⟩ | ⟨hold, hforeign⟩ | ⟨path, _, _, rfl⟩ := (hmem row).mp hin
        · exact ⟨by simpa using hheld.2, by simp⟩
        · exact absurd ⟨hid, t.tokens _ hissued row hold hid⟩ hforeign
        · exact ⟨rfl, rfl⟩
      have keep : ∀ {runId}, runId ≠ lock.id → (HasRow locks runId ↔ HasRow db.locks runId) :=
        fun hne => ⟨fun h => h.mono fun row hin hid => (hother row (hid ▸ hne)).mp hin,
          fun h => h.mono fun row hin hid => (hother row (hid ▸ hne)).mpr hin⟩
      refine ⟨⟨⟨?_, ?_, ?_⟩, t.distinct, nodup_quarantineRun t.unique, ?_, ?_, ?_, ?_⟩, ?_⟩
      · intro association hassociation
        by_cases hid : association.lockId = lock.id
        · exact hid ▸ hrow
        · exact (keep hid).mpr (t.consistent.associated association hassociation)
      · intro run hrun hholding
        cases mem_quarantineRun hrun with
        | inl hsame => exact hsame.1 ▸ hrow
        | inr hold => exact (keep hold.2).mpr (t.consistent.held run hold.1 hholding)
      · intro run hrun hended
        cases mem_quarantineRun hrun with
        | inl hsame => rw [hsame.2] at hended; cases hended
        | inr hold => exact fun h => t.consistent.rowless run hold.1 hended ((keep hold.2).mp h)
      · intro row hin
        by_cases hid : row.runId = lock.id
        · exact hid ▸ mem_map.mpr ⟨_, hissued, rfl⟩
        · exact t.named row ((hother row hid).mp hin)
      · intro pair hpair row hin hname
        by_cases hid : row.runId = lock.id
        · have heq := inj_on_of_nodup_map t.distinct hpair hissued (hname.symm.trans hid)
          rw [(hown row hin hid).1, heq]
        · exact t.tokens pair hpair row ((hother row hid).mp hin) hname
      · intro run hrun hstatus row hin hname
        by_cases hid : row.runId = lock.id
        · exact (hown row hin hid).2
        · cases mem_quarantineRun hrun with
          | inl hsame => exact absurd (hname.trans hsame.1) hid
          | inr hold =>
            exact t.unexpiring run hold.1 hstatus row ((hother row hid).mp hin) hname
      · intro run hrun hstatus
        cases mem_quarantineRun hrun with
        | inl hsame => rw [hsame.2] at hstatus; cases hstatus
        | inr hold => exact t.incomplete run hold.1 hstatus
      · intro run hrun hstatus _
        cases mem_quarantineRun hrun with
        | inl hsame => rw [hsame.2] at hstatus; cases hstatus
        | inr hold => exact ⟨run, hold.1, rfl, hstatus⟩

end Quarantine

/-! ### Acquisition -/

section Acquire

variable {args : AcquireArgs} {input : AcquireInput}

/-- The database after an acquisition that was not refused. -/
def acquiredDb (runtime : LockRuntime) (db : LockDb) (args : AcquireArgs) (input : AcquireInput)
    (lockType : LockType) : LockDb :=
  { expireLocksFromDb db input.now with
    locks := (expireLocksFromDb db input.now).locks ++
      (lockPathsRequested runtime args input.view).map (acquiredRow runtime args input lockType)
    runs := (expireLocksFromDb db input.now).runs ++ [acquiredRun args input lockType]
    queueJobLocks := (expireLocksFromDb db input.now).queueJobLocks ++
      (args.queueOwner.toList.map fun owner => ⟨input.runId, owner.jobId, owner.ownerGeneration⟩) }

/-- An acquisition is refused and changes nothing, or inserts at least one row
under a run id that no run has. -/
theorem acquireHardLock_cases (runtime : LockRuntime) (db : LockDb) (args : AcquireArgs)
    (input : AcquireInput) :
    (∃ refusal, acquireHardLock runtime db args input = (.error refusal, db)) ∨
      ∃ lockType, lockPathsRequested runtime args input.view ≠ [] ∧
        (∀ run ∈ (expireLocksFromDb db input.now).runs, run.runId ≠ input.runId) ∧
        acquireHardLock runtime db args input =
          (.ok (acquiredLock runtime args input lockType),
            acquiredDb runtime db args input lockType) := by
  unfold acquireHardLock
  cases hadmit : admitLockRequest runtime args input with
  | error refusal => exact Or.inl ⟨refusal, rfl⟩
  | ok lockType =>
    have hpaths : lockPathsRequested runtime args input.view ≠ [] := by
      intro hempty
      unfold admitLockRequest at hadmit
      dsimp only at hadmit
      split at hadmit
      · cases hadmit
      split at hadmit
      · cases hadmit
      split at hadmit <;> cases hadmit
    unfold acquireTransaction
    dsimp only
    split
    · exact Or.inl ⟨_, rfl⟩
    split
    · exact Or.inl ⟨_, rfl⟩
    split
    · exact Or.inl ⟨_, rfl⟩
    rename_i hinsert
    split
    · exact Or.inl ⟨_, rfl⟩
    refine Or.inr ⟨lockType, hpaths, ?_, rfl⟩
    intro run hrun hid
    apply hinsert
    rw [insertRefused, Bool.or_eq_true, Bool.or_eq_true]
    exact Or.inl (Or.inl (any_eq_true.mpr ⟨run, hrun, by simpa using hid⟩))

/-- Knowing one more fresh run id changes nothing in the tables. -/
theorem Tables.issue (t : Tables runtime issued db) {token : String}
    (fresh : runId ∉ issued.map (·.1)) : Tables runtime ((runId, token) :: issued) db := by
  refine ⟨t.consistent, nodup_cons.mpr ⟨fresh, t.distinct⟩, t.unique, ?_, ?_, t.unexpiring,
    t.incomplete⟩
  · intro row hrow
    exact mem_cons_of_mem _ (t.named row hrow)
  · intro pair hpair row hrow hid
    cases mem_cons.mp hpair with
    | inl heq =>
      rw [heq] at hid
      have hknown := t.named row hrow
      rw [hid] at hknown
      exact absurd hknown fresh
    | inr hold => exact t.tokens pair hold row hrow hid

theorem Tables.acquiredDb (t : Tables runtime issued db) (lockType : LockType)
    (fresh : input.runId ∉ issued.map (·.1))
    (paths : lockPathsRequested runtime args input.view ≠ [])
    (newRun : ∀ run ∈ (Locks.expireLocksFromDb db input.now).runs, run.runId ≠ input.runId) :
    Tables runtime ((input.runId, input.token) :: issued)
        (Locks.acquiredDb runtime db args input lockType) ∧
      NoRestart issued db (Locks.acquiredDb runtime db args input lockType) := by
  have expired := t.expireLocksFromDb input.now
  have kept := expired.tables
  have newRow : ∀ row ∈ (lockPathsRequested runtime args input.view).map
      (acquiredRow runtime args input lockType),
      row.runId = input.runId ∧ row.token = tokenSha256 runtime input.token := by
    intro row hrow
    obtain ⟨path, _, rfl⟩ := mem_map.mp hrow
    exact ⟨rfl, rfl⟩
  have oldRow : ∀ row ∈ (Locks.expireLocksFromDb db input.now).locks, row.runId ≠ input.runId := by
    intro row hrow hid
    exact fresh (hid ▸ kept.named row hrow)
  have hheld : HasRow (Locks.acquiredDb runtime db args input lockType).locks input.runId := by
    obtain ⟨path, hpath⟩ := exists_mem_of_ne_nil _ paths
    exact ⟨acquiredRow runtime args input lockType path,
      mem_append_right _ (mem_map.mpr ⟨path, hpath, rfl⟩), rfl⟩
  have grow : ∀ {runId}, HasRow (Locks.expireLocksFromDb db input.now).locks runId →
      HasRow (Locks.acquiredDb runtime db args input lockType).locks runId :=
    fun h => h.mono fun row hrow _ => mem_append_left _ hrow
  have hrun : ∀ run ∈ (Locks.acquiredDb runtime db args input lockType).runs,
      run ∈ (Locks.expireLocksFromDb db input.now).runs ∨ run = acquiredRun args input lockType := by
    intro run hrun
    exact (mem_append.mp hrun).imp id mem_singleton.mp
  refine ⟨⟨⟨?_, ?_, ?_⟩, nodup_cons.mpr ⟨fresh, t.distinct⟩, ?_, ?_, ?_, ?_, ?_⟩, ?_⟩
  · intro association hassociation
    cases mem_append.mp hassociation with
    | inl hold => exact grow (kept.consistent.associated association hold)
    | inr hnew =>
      obtain ⟨owner, _, rfl⟩ := mem_map.mp hnew
      exact hheld
  · intro run hmem hholding
    cases hrun run hmem with
    | inl hold => exact grow (kept.consistent.held run hold hholding)
    | inr hnew =>
      rw [hnew]
      exact hheld
  · intro run hmem hended
    cases hrun run hmem with
    | inl hold =>
      intro ⟨row, hrow, hid⟩
      cases mem_append.mp hrow with
      | inl holdRow => exact kept.consistent.rowless run hold hended ⟨row, holdRow, hid⟩
      | inr hnewRow => exact newRun run hold (hid.symm.trans (newRow row hnewRow).1)
    | inr hnew =>
      rw [hnew] at hended
      cases hended
  · show (((Locks.expireLocksFromDb db input.now).runs ++ [acquiredRun args input lockType]).map
      (·.runId)).Nodup
    rw [map_append, nodup_append]
    refine ⟨kept.unique, by simp, ?_⟩
    intro name hname other hother heq
    obtain ⟨run, hmem, rfl⟩ := mem_map.mp hname
    rw [map_cons, map_nil, mem_singleton] at hother
    exact newRun run hmem (heq.trans hother)
  · intro row hrow
    cases mem_append.mp hrow with
    | inl hold => exact mem_cons_of_mem _ (kept.named row hold)
    | inr hnew => simp [(newRow row hnew).1]
  · intro pair hpair row hrow hid
    cases mem_append.mp hrow with
    | inl hold =>
      cases mem_cons.mp hpair with
      | inl heq =>
        rw [heq] at hid
        exact absurd hid (oldRow row hold)
      | inr holdPair => exact kept.tokens pair holdPair row hold hid
    | inr hnew =>
      cases mem_cons.mp hpair with
      | inl heq =>
        rw [heq]
        exact (newRow row hnew).2
      | inr holdPair =>
        refine absurd (mem_map.mpr ⟨pair, holdPair, ?_⟩) fresh
        exact hid.symm.trans (newRow row hnew).1
  · intro run hmem hstatus row hrow hid
    cases hrun run hmem with
    | inl hold =>
      cases mem_append.mp hrow with
      | inl holdRow => exact kept.unexpiring run hold hstatus row holdRow hid
      | inr hnewRow => exact absurd (hid.symm.trans (newRow row hnewRow).1) (newRun run hold)
    | inr hnew =>
      rw [hnew] at hstatus
      cases hstatus
  · intro run hmem hstatus
    cases hrun run hmem with
    | inl hold => exact kept.incomplete run hold hstatus
    | inr hnew =>
      rw [hnew]
      exact not_completeContainment_empty
  · refine expired.noRestart.trans ?_
    intro run hmem hstatus hknown
    cases hrun run hmem with
    | inl hold => exact ⟨run, hold, rfl, hstatus⟩
    | inr hnew =>
      rw [hnew] at hknown
      exact absurd hknown fresh

end Acquire

end AgentBridge.Locks
