import AgentBridge.Worktrees.Registry

/-!
# What one transaction can do to a row of the registry

Every transaction of the registry, as one type, and what it leaves of a row. An active row
stays active under its path unless the transaction retires it: a mark of a finished cleanup,
the pass over missing directories, the collector, or a delete. A claim changes the job of a
row only when that job is not alive.
-/

namespace AgentBridge.Worktrees

open Systems List

/-- The transactions on `worktree_artifacts`, each with what its caller gives it. -/
inductive RegistryWrite where
  | reconcile (cwd : Directory) (discovered : List Discovered)
  | reserve (cwd : Directory) (worktreePath branch jobId : String) (stateFull : Bool)
  | mark (cwd : Directory) (worktreePath : String) (status : ArtifactStatus) (bytes : Option Nat)
  | deleteReservation (cwd : Directory) (worktreePath : String)
  | measureContinued (cwd : Directory) (worktreePath jobId : String) (bytes : Nat)
  | claim (cwd : Directory) (worktreePath jobId : String) (dryRun : Bool)
  | release (cwd : Directory) (worktreePath jobId : String)
  | recoverStale
  | enqueueCleanup (cwd : Directory) (worktreePath branch operationId : String)
  | drainRemoved (worktreePath : String)
  | drainKept (worktreePath : String) (retained : Bool)
  | prune (cutoff : Nat)
  | markRegistryCleaned (worktreePath : String)
  deriving DecidableEq

namespace RegistryWrite

variable (config : WorktreeConfig) (host : WorktreeHost)

/-- The rows a transaction leaves. -/
def exec (rows : List ArtifactRow) : RegistryWrite → List ArtifactRow
  | reconcile cwd discovered =>
    execute (reconcileWorktreeArtifactRegistry host cwd discovered rows) rows
  | reserve cwd worktreePath branch jobId stateFull =>
    (reserveWorktreeArtifact config rows cwd worktreePath branch jobId stateFull).2
  | mark cwd worktreePath status bytes =>
    (markWorktreeArtifactState cwd host.now worktreePath status bytes).exec rows
  | .deleteReservation cwd worktreePath =>
    execute [Worktrees.deleteReservation cwd worktreePath] rows
  | .measureContinued cwd worktreePath jobId bytes =>
    (Worktrees.measureContinued cwd worktreePath jobId bytes).exec rows
  | claim cwd worktreePath jobId dryRun =>
    (claimRetainedWorktree host rows cwd worktreePath jobId dryRun).2
  | release cwd worktreePath jobId => (releaseClaim cwd worktreePath jobId).exec rows
  | recoverStale => execute (recoverStaleWorktreeClaims host rows) rows
  | enqueueCleanup cwd worktreePath branch operationId =>
    execute (enqueueIntegrationCleanup rows cwd worktreePath branch operationId) rows
  | .drainRemoved worktreePath => execute [Worktrees.drainRemoved worktreePath] rows
  | .drainKept worktreePath retained => (Worktrees.drainKept worktreePath retained).exec rows
  | prune cutoff => execute [pruneArtifacts cutoff] rows
  | .markRegistryCleaned worktreePath =>
    (Worktrees.markRegistryCleaned host.now worktreePath).exec rows

/-- The transaction takes the row, when it is active, out of the active ones. -/
def retires (row : ArtifactRow) : RegistryWrite → Bool
  | reconcile cwd _ => row.cwd = cwd && !existsSync host.disk row.worktreePath
      && row.status ≠ .cleanupPending
  | mark cwd worktreePath status _ => row.worktreePath = worktreePath && row.cwd = cwd
      && !status.active
  | .deleteReservation cwd worktreePath => row.worktreePath = worktreePath && row.cwd = cwd
      && row.status = .creating
  | .drainRemoved worktreePath => row.worktreePath = worktreePath
      && (row.status = .cleanupPending || row.status = .cleanupFailed)
  | .markRegistryCleaned worktreePath => row.worktreePath = worktreePath
      && row.status ≠ .cleanupPending
  | _ => false

/-- Without asking whose it is, the transaction takes the claim of a worktree in use away. -/
def overridesClaim (row : ArtifactRow) : RegistryWrite → Bool
  | reconcile cwd _ => row.cwd = cwd && !existsSync host.disk row.worktreePath
  | mark cwd worktreePath status _ => row.worktreePath = worktreePath && row.cwd = cwd
      && status ≠ .inUse
  | .markRegistryCleaned worktreePath => row.worktreePath = worktreePath
  | _ => false

end RegistryWrite

variable {config : WorktreeConfig} {host : WorktreeHost} {rows : List ArtifactRow}

/-- The primary key of `worktree_artifacts`. -/
def UniquePaths (rows : List ArtifactRow) : Prop :=
  (rows.map ArtifactRow.worktreePath).Nodup

/-! ### The two transactions that answer -/

theorem reserveWorktreeArtifact_rows (cwd : Directory) (worktreePath branch jobId : String)
    (stateFull : Bool) :
    (reserveWorktreeArtifact config rows cwd worktreePath branch jobId stateFull).2 = rows ∨
    (reserveWorktreeArtifact config rows cwd worktreePath branch jobId stateFull).2
      = execute [insertReservation cwd worktreePath branch jobId] rows := by
  rw [reserveWorktreeArtifact]
  split
  · exact .inl rfl
  · split
    · exact .inl rfl
    · split
      · exact .inl rfl
      · exact .inr rfl

theorem claimRetainedWorktree_rows (cwd : Directory) (worktreePath jobId : String)
    (dryRun : Bool) :
    (claimRetainedWorktree host rows cwd worktreePath jobId dryRun).2 = rows ∨
    ∃ row ∈ rows, row.worktreePath = worktreePath ∧ row.cwd = cwd ∧ dryRun = false ∧
      worktreeClaimOwnerAlive host row.jobId = false ∧
      (claimRetainedWorktree host rows cwd worktreePath jobId dryRun).2
        = (takeRetained cwd worktreePath jobId).exec
            (recoverOwner (row.status = .inUse) cwd worktreePath row.jobId rows) := by
  rw [claimRetainedWorktree]
  split
  · exact .inl rfl
  · split
    · exact .inl rfl
    · next row hfind =>
      have hmem : row ∈ rows := mem_of_find?_eq_some hfind
      have hkey := List.find?_some hfind
      simp only [Bool.and_eq_true, decide_eq_true_eq] at hkey
      dsimp only
      split
      · exact .inl rfl
      · next husable =>
        split
        · exact .inl rfl
        · next hdry =>
          refine .inr ⟨row, hmem, hkey.1, hkey.2, by simpa using hdry, ?_, ?_⟩
          · cases hstatus : row.status <;> simp_all
          · cases hstatus : row.status <;> simp_all

/-- Every row stays or is put under the repository, unless the transaction is about another. -/
def RegistryWrite.under (cwd : Directory) : RegistryWrite → Bool
  | .reconcile cwd' _ => cwd' = cwd
  | .reserve cwd' _ _ _ _ => cwd' = cwd
  | .enqueueCleanup cwd' _ _ _ => cwd' = cwd
  | _ => true

/-- The transaction may set a worktree in use. -/
def RegistryWrite.occupies : RegistryWrite → Bool
  | .reconcile _ discovered => discovered.any (·.status = .inUse)
  | .mark _ _ status _ => status = .inUse
  | .claim .. => true
  | _ => false

variable (write : RegistryWrite)

/-- What a statement of the transaction leaves of the rows. -/
structure RegistryWrite.Stays (statement : ArtifactStatement) : Prop where
  key : Statement.KeepsKey ArtifactRow.worktreePath statement
  root : ∀ cwd, write.under cwd = true → Statement.Respects (·.cwd = cwd) statement
  free : ∀ cwd path, write.under cwd = true → write.occupies = false →
    Statement.Respects
      (fun row => row.cwd = cwd ∧ (row.worktreePath = path → row.status ≠ .inUse)) statement

variable {write} in
theorem RegistryWrite.Stays.update {change : RowUpdate ArtifactRow}
    (h : ∀ row, (change.set row).worktreePath = row.worktreePath ∧
      (change.set row).cwd = row.cwd ∧ (write.occupies = false →
        (change.set row).status = row.status ∨ (change.set row).status ≠ .inUse)) :
    ∀ statement ∈ [Statement.update change], write.Stays statement := by
  refine forall_mem_singleton.mpr ⟨fun row => (h row).1, fun _ _ row hrow => ?_, ?_⟩
  · exact (h row).2.1.trans hrow
  · intro cwd path _ hfree row hrow
    obtain ⟨hpath, hcwd, hstatus⟩ := h row
    refine ⟨hcwd.trans hrow.1, fun hkey => ?_⟩
    cases hstatus hfree with
    | inl hsame => exact hsame ▸ hrow.2 (hpath.symm.trans hkey)
    | inr hnot => exact hnot

/-- The statements that a transaction consists of. -/
theorem RegistryWrite.exec_eq_execute :
    ∃ statements, write.exec config host rows = execute statements rows ∧
      ∀ statement ∈ statements, write.Stays statement := by
  cases write with
  | reconcile cwd discovered =>
    refine ⟨_, rfl, fun statement hstatement => ?_⟩
    rcases mem_append.mp hstatement with hinsert | hmissing
    · obtain ⟨item, hitem, rfl⟩ := mem_map.mp hinsert
      have hcwd : ∀ cwd', (RegistryWrite.reconcile cwd discovered).under cwd' = true →
          cwd = cwd' := by simp [RegistryWrite.under]
      refine ⟨fun _ => rfl, fun cwd' hunder => ⟨hcwd cwd' hunder, fun _ _ => hcwd cwd' hunder⟩,
        fun cwd' path hunder hfree => ?_⟩
      have hstatus : item.status ≠ .inUse := by
        simpa using any_eq_false.mp hfree item hitem
      exact ⟨⟨hcwd cwd' hunder, fun _ => hstatus⟩,
        fun _ _ => ⟨hcwd cwd' hunder, fun _ => hstatus⟩⟩
    · obtain ⟨path, -, rfl⟩ := mem_map.mp hmissing
      refine .update ?_ _ mem_cons_self
      exact fun _ => ⟨rfl, rfl, fun _ => .inr nofun⟩
  | reserve cwd worktreePath branch jobId stateFull =>
    rcases @reserveWorktreeArtifact_rows config rows cwd worktreePath branch jobId stateFull with
      hsame | hnew
    · exact ⟨[], hsame, nofun⟩
    · refine ⟨_, hnew, forall_mem_singleton.mpr ⟨fun _ => rfl, fun cwd' hunder => ?_,
        fun cwd' path hunder _ => ?_⟩⟩ <;>
        have hcwd : cwd = cwd' := by simpa [RegistryWrite.under] using hunder
      · exact ⟨hcwd, fun _ _ => hcwd⟩
      · exact ⟨⟨hcwd, fun _ => nofun⟩, fun _ _ => ⟨hcwd, fun _ => nofun⟩⟩
  | claim cwd worktreePath jobId dryRun =>
    have hupdate : ∀ change : RowUpdate ArtifactRow, (∀ row,
        (change.set row).worktreePath = row.worktreePath ∧ (change.set row).cwd = row.cwd) →
        ∀ statement ∈ [Statement.update change],
          (RegistryWrite.claim cwd worktreePath jobId dryRun).Stays statement :=
      fun change hset => .update fun row => ⟨(hset row).1, (hset row).2, nofun⟩
    rcases @claimRetainedWorktree_rows host rows cwd worktreePath jobId dryRun with
      hsame | ⟨row, -, -, -, -, -, hrows⟩
    · exact ⟨[], hsame, nofun⟩
    · rw [recoverOwner] at hrows
      split at hrows
      · refine ⟨[.update _, .update _], hrows, forall_mem_cons.mpr ⟨?_, ?_⟩⟩
        · exact hupdate _ (fun _ => ⟨rfl, rfl⟩) _ mem_cons_self
        · exact hupdate _ fun _ => ⟨rfl, rfl⟩
      · exact ⟨[.update _], hrows, hupdate _ fun _ => ⟨rfl, rfl⟩⟩
  | recoverStale =>
    refine ⟨_, rfl, fun statement hstatement => ?_⟩
    obtain ⟨row, -, rfl⟩ := mem_map.mp hstatement
    refine .update ?_ _ mem_cons_self
    exact fun _ => ⟨rfl, rfl, fun _ => .inr nofun⟩
  | enqueueCleanup cwd worktreePath branch operationId =>
    refine ⟨_, rfl, fun statement hstatement => ?_⟩
    rw [enqueueIntegrationCleanup] at hstatement
    split at hstatement
    · exact absurd hstatement not_mem_nil
    · obtain rfl := mem_singleton.mp hstatement
      refine ⟨fun _ => rfl, fun cwd' hunder => ?_, fun cwd' path hunder _ => ?_⟩ <;>
        have hcwd : cwd = cwd' := by simpa [RegistryWrite.under] using hunder
      · exact ⟨hcwd, fun _ hrow => hrow⟩
      · exact ⟨⟨hcwd, fun _ => nofun⟩, fun row hrow => ⟨hrow.1, fun _ => nofun⟩⟩
  | deleteReservation | drainRemoved | prune =>
    exact ⟨[_], rfl, forall_mem_singleton.mpr
      ⟨trivial, fun _ _ => trivial, fun _ _ _ _ => trivial⟩⟩
  | measureContinued =>
    exact ⟨[.update _], rfl, .update fun _ => ⟨rfl, rfl, fun _ => .inl rfl⟩⟩
  | mark cwd worktreePath status bytes =>
    exact ⟨[.update _], rfl, .update fun _ => ⟨rfl, rfl, fun hfree =>
      .inr (of_decide_eq_false hfree)⟩⟩
  | drainKept worktreePath retained =>
    exact ⟨[.update _], rfl, .update fun _ => ⟨rfl, rfl, fun _ =>
      .inr (by cases retained <;> nofun)⟩⟩
  | release | markRegistryCleaned =>
    exact ⟨[.update _], rfl, .update fun _ => ⟨rfl, rfl, fun _ => .inr nofun⟩⟩

/-- Every transaction respects the primary key. -/
theorem RegistryWrite.uniquePaths (h : UniquePaths rows) :
    UniquePaths (write.exec config host rows) := by
  obtain ⟨statements, hexec, hstays⟩ := @exec_eq_execute config host rows write
  rw [hexec]
  exact Statement.nodup_execAll (fun statement hmem => (hstays statement hmem).key) h

variable {cwd : Directory}

theorem RegistryWrite.forall_cwd (hunder : write.under cwd = true)
    (h : ∀ row ∈ rows, row.cwd = cwd) : ∀ row ∈ write.exec config host rows, row.cwd = cwd := by
  obtain ⟨statements, hexec, hstays⟩ := @exec_eq_execute config host rows write
  rw [hexec]
  exact Statement.forall_execAll (fun statement hmem => (hstays statement hmem).root cwd hunder) h

/-! ### What stays of a row -/

/-- The row is active under the path, for one of the jobs. -/
def Registered (worktreePath : String) (cwd : Directory) (jobs : String → Prop)
    (row : ArtifactRow) : Prop :=
  row.worktreePath = worktreePath ∧ row.cwd = cwd ∧ jobs row.jobId ∧ row.status.active = true

theorem exists_of_mem_missingPaths {disk : List DiskEntry} {path : String}
    (h : path ∈ missingPaths disk cwd rows) : existsSync disk path = false := by
  obtain ⟨row, hrow, rfl⟩ := mem_map.mp h
  simp only [mem_filter, Bool.and_eq_true, Bool.not_eq_true'] at hrow
  exact hrow.2.2

/-- The pass over the registry keeps a property of active rows that no mark of a missing
directory takes away. -/
theorem exists_reconcile {discovered : List Discovered} {Q : ArtifactRow → Prop}
    (hactive : ∀ row, Q row → row.status.active = true)
    (hmark : ∀ path, existsSync host.disk path = false → ∀ row, Q row →
      (markMissing cwd host.now path).guard row = true →
      Q ((markMissing cwd host.now path).set row)) (h : ∃ row ∈ rows, Q row) :
    ∃ row ∈ execute (reconcileWorktreeArtifactRegistry host cwd discovered rows) rows, Q row := by
  refine Statement.exists_execAll ?_ h
  intro statement hstatement
  rcases mem_append.mp hstatement with hinsert | hmissing
  · obtain ⟨item, -, rfl⟩ := mem_map.mp hinsert
    intro row hQ _ hguard
    simp [hactive row hQ] at hguard
  · obtain ⟨path, hpath, rfl⟩ := mem_map.mp hmissing
    exact hmark path (exists_of_mem_missingPaths hpath)

variable {jobId worktreePath : String} {row : ArtifactRow}

/-- A reservation takes no active row's place. -/
theorem exists_reserve {branch : String} {stateFull : Bool} {Q : ArtifactRow → Prop}
    (hactive : ∀ row, Q row → row.status.active = true) (h : ∃ row ∈ rows, Q row) :
    ∃ row ∈ (reserveWorktreeArtifact config rows cwd worktreePath branch jobId stateFull).2,
      Q row := by
  rcases reserveWorktreeArtifact_rows cwd worktreePath branch jobId stateFull with hsame | hnew
  · rw [hsame]
    exact h
  · rw [hnew]
    refine Statement.exists_execAll (forall_mem_singleton.mpr ?_) h
    intro row hQ _ hguard
    simp [hactive row hQ] at hguard

theorem exists_enqueueCleanup {branch operationId : String} {Q : ArtifactRow → Prop}
    (hset : ∀ row, Q row → row.status ≠ .inUse → Q { row with status := .cleanupPending })
    (h : ∃ row ∈ rows, Q row) :
    ∃ row ∈ execute (enqueueIntegrationCleanup rows cwd worktreePath branch operationId) rows,
      Q row := by
  refine Statement.exists_execAll ?_ h
  intro statement hstatement
  rw [enqueueIntegrationCleanup] at hstatement
  split at hstatement
  · exact absurd hstatement not_mem_nil
  · obtain rfl := mem_singleton.mp hstatement
    intro row hQ _ hguard
    refine hset row hQ ?_
    intro hstatus
    simp [hstatus] at hguard

theorem exists_claim {dryRun : Bool} {Q : ArtifactRow → Prop} (unique : UniquePaths rows)
    (hrow : row ∈ rows) (hQ : Q row)
    (hclaim : row.worktreePath = worktreePath → row.cwd = cwd → dryRun = false →
      worktreeClaimOwnerAlive host row.jobId = false →
      Q { row with status := .inUse, jobId := jobId }) :
    ∃ row ∈ (claimRetainedWorktree host rows cwd worktreePath jobId dryRun).2, Q row := by
  rcases claimRetainedWorktree_rows cwd worktreePath jobId dryRun with hsame | hclaimed
  · rw [hsame]
    exact ⟨row, hrow, hQ⟩
  · obtain ⟨found, hfound, hpath, hcwd, hdry, hdead, hrows⟩ := hclaimed
    rw [hrows]
    by_cases hkey : row.worktreePath = worktreePath
    · obtain rfl : row = found :=
        inj_on_of_nodup_map unique hrow hfound (hkey.trans hpath.symm)
      have hset := hclaim hpath hcwd hdry hdead
      rw [recoverOwner]
      split
      · have hrecovered : { row with status := ArtifactStatus.retained }
            ∈ (releaseClaim cwd worktreePath row.jobId).exec rows := by
          refine mem_map.mpr ⟨row, hrow, ?_⟩
          simp_all [releaseClaim]
        refine Statement.exists_exec_of_mem hrecovered (fun _ => hset) ?_
        intro hguard
        simp [takeRetained, hpath, hcwd] at hguard
      · exact Statement.exists_exec_of_mem hrow (fun _ => hset) (fun _ => hQ)
    · have hrecovered : row ∈ recoverOwner (found.status = .inUse) cwd worktreePath found.jobId
          rows := by
        rw [recoverOwner]
        split
        · exact mem_map.mpr ⟨row, hrow, by simp [releaseClaim, hkey]⟩
        · exact hrow
      refine Statement.exists_exec_of_mem hrecovered ?_ (fun _ => hQ)
      intro hguard
      simp [takeRetained, hkey] at hguard

theorem exists_registered_of_reserve {rows : List ArtifactRow} {branch : String} {stateFull : Bool}
    (h : (reserveWorktreeArtifact config rows cwd worktreePath branch jobId stateFull).1 = .ok) :
    ∃ row ∈ (reserveWorktreeArtifact config rows cwd worktreePath branch jobId stateFull).2,
      Registered worktreePath cwd (· = jobId) row ∧ row.status = .creating := by
  rw [reserveWorktreeArtifact] at h ⊢
  split at h
  · cases h
  · split at h
    · cases h
    · split at h
      · cases h
      · next hfull hcapacity hchanges =>
        rw [if_neg hfull, if_neg hcapacity, if_neg hchanges]
        rw [not_not] at hchanges
        refine Statement.exists_exec_upsert_of_changes ?_ ⟨⟨rfl, rfl, rfl, rfl⟩, rfl⟩ ?_
        · exact ne_of_eq_of_ne hchanges Nat.one_ne_zero
        · exact fun row _ hkey => ⟨⟨hkey, rfl, rfl, rfl⟩, rfl⟩

/-- An active row outlives a transaction that does not retire it, and its job changes only by a
claim, when the job is not alive. -/
theorem RegistryWrite.exists_registered (unique : UniquePaths rows) {jobs : String → Prop}
    (hrow : row ∈ rows) (registered : Registered worktreePath cwd jobs row)
    (hretires : write.retires host row = false)
    (hclaim : ∀ jobId, write = .claim cwd worktreePath jobId false →
      worktreeClaimOwnerAlive host row.jobId = false → jobs jobId) :
    ∃ row ∈ write.exec config host rows, Registered worktreePath cwd jobs row := by
  obtain ⟨hpath, hcwd, hjobs, hactive⟩ := registered
  have registered : Registered worktreePath cwd jobs row := ⟨hpath, hcwd, hjobs, hactive⟩
  cases write with
  | reconcile cwd' discovered =>
    by_cases hpending : row.status = .cleanupPending
    · have hkept : ∃ row ∈ execute (reconcileWorktreeArtifactRegistry host cwd' discovered rows)
          rows, Registered worktreePath cwd jobs row ∧ row.status = .cleanupPending := by
        refine exists_reconcile (fun _ h => h.1.2.2.2) ?_ ⟨row, hrow, registered, hpending⟩
        intro path _ row h hguard
        simp [markMissing, h.2] at hguard
      obtain ⟨row', hrow', hQ⟩ := hkept
      exact ⟨row', hrow', hQ.1⟩
    · refine exists_reconcile (fun _ h => h.2.2.2) ?_ ⟨row, hrow, registered⟩
      intro path hmissing row' h hguard
      simp only [markMissing, Bool.and_eq_true, decide_eq_true_eq] at hguard
      simp [RegistryWrite.retires, hpending, hcwd, hpath, ← h.1, ← h.2.1, hguard.1.1,
        hguard.1.2, hmissing] at hretires
  | reserve cwd' worktreePath' branch jobId stateFull =>
    exact exists_reserve (fun _ h => h.2.2.2) ⟨row, hrow, registered⟩
  | mark cwd' worktreePath' status bytes =>
    refine Statement.exists_exec_of_mem hrow ?_ (fun _ => registered)
    intro hguard
    simp only [markWorktreeArtifactState, Bool.and_eq_true, decide_eq_true_eq] at hguard
    refine ⟨hpath, hcwd, hjobs, ?_⟩
    show status.active = true
    simpa [RegistryWrite.retires, hguard.1, hguard.2] using hretires
  | deleteReservation cwd' worktreePath' =>
    refine ⟨row, mem_filter.mpr ⟨hrow, ?_⟩, registered⟩
    exact congrArg not hretires
  | measureContinued =>
    exact Statement.exists_exec_of_mem hrow (fun _ => registered) (fun _ => registered)
  | claim cwd' worktreePath' jobId dryRun =>
    refine exists_claim unique hrow registered ?_
    rintro rfl rfl rfl hdead
    exact ⟨hpath, hcwd, hclaim jobId (by rw [hpath, hcwd]) hdead, rfl⟩
  | release =>
    exact Statement.exists_exec_of_mem hrow (fun _ => ⟨hpath, hcwd, hjobs, rfl⟩)
      (fun _ => registered)
  | recoverStale =>
    refine Statement.exists_execAll ?_ ⟨row, hrow, registered⟩
    intro statement hstatement
    obtain ⟨stale, -, rfl⟩ := mem_map.mp hstatement
    exact fun row registered _ => ⟨registered.1, registered.2.1, registered.2.2.1, rfl⟩
  | enqueueCleanup cwd' worktreePath' branch operationId =>
    refine exists_enqueueCleanup ?_ ⟨row, hrow, registered⟩
    exact fun row registered _ => ⟨registered.1, registered.2.1, registered.2.2.1, rfl⟩
  | drainRemoved worktreePath' =>
    refine ⟨row, mem_filter.mpr ⟨hrow, ?_⟩, registered⟩
    cases hstatus : row.status <;>
      simp_all [RegistryWrite.retires, ArtifactStatus.active]
  | drainKept worktreePath' retained =>
    refine Statement.exists_exec_of_mem hrow (fun _ => ⟨hpath, hcwd, hjobs, ?_⟩)
      (fun _ => registered)
    cases retained <;> rfl
  | prune cutoff =>
    refine ⟨row, mem_filter.mpr ⟨hrow, ?_⟩, registered⟩
    simp [hactive]
  | markRegistryCleaned worktreePath' =>
    refine Statement.exists_exec_of_mem hrow ?_ (fun _ => registered)
    cases hstatus : row.status <;>
      simp_all [RegistryWrite.retires, Worktrees.markRegistryCleaned]

/-! ### What stays of a claim -/

/-- The row says that the job has the worktree in use. -/
def HeldBy (worktreePath : String) (cwd : Directory) (jobId : String) (row : ArtifactRow) : Prop :=
  row.worktreePath = worktreePath ∧ row.cwd = cwd ∧ row.status = .inUse ∧ row.jobId = jobId

instance (worktreePath : String) (cwd : Directory) (jobId : String) (row : ArtifactRow) :
    Decidable (HeldBy worktreePath cwd jobId row) :=
  inferInstanceAs (Decidable (_ ∧ _ ∧ _ ∧ _))

/-- The claim of a live job outlives every transaction but its own release and those that do
not ask whose the worktree is. -/
theorem RegistryWrite.exists_heldBy (unique : UniquePaths rows) (hrow : row ∈ rows)
    (held : HeldBy worktreePath cwd jobId row) (halive : worktreeClaimOwnerAlive host jobId = true)
    (hoverrides : write.overridesClaim host row = false)
    (hrelease : write ≠ .release cwd worktreePath jobId) :
    ∃ row ∈ write.exec config host rows, HeldBy worktreePath cwd jobId row := by
  obtain ⟨hpath, hcwd, hstatus, hjob⟩ := held
  have held : HeldBy worktreePath cwd jobId row := ⟨hpath, hcwd, hstatus, hjob⟩
  cases write with
  | reconcile cwd' discovered =>
    refine exists_reconcile (fun _ h => by rw [h.2.2.1]; rfl) ?_ ⟨row, hrow, held⟩
    intro path hmissing row' h hguard
    simp only [markMissing, Bool.and_eq_true, decide_eq_true_eq] at hguard
    simp [RegistryWrite.overridesClaim, hcwd, hpath, ← h.1, ← h.2.1, hguard.1.1, hguard.1.2,
      hmissing] at hoverrides
  | reserve cwd' worktreePath' branch jobId' stateFull =>
    refine exists_reserve (fun row h => ?_) ⟨row, hrow, held⟩
    rw [h.2.2.1]
    rfl
  | mark cwd' worktreePath' status bytes =>
    refine Statement.exists_exec_of_mem hrow ?_ (fun _ => held)
    intro hguard
    simp only [markWorktreeArtifactState, Bool.and_eq_true, decide_eq_true_eq] at hguard
    refine ⟨hpath, hcwd, ?_, hjob⟩
    show status = .inUse
    simpa [RegistryWrite.overridesClaim, hguard.1, hguard.2] using hoverrides
  | deleteReservation cwd' worktreePath' =>
    exact ⟨row, mem_filter.mpr ⟨hrow, by simp [hstatus]⟩, held⟩
  | measureContinued => exact Statement.exists_exec_of_mem hrow (fun _ => held) (fun _ => held)
  | claim cwd' worktreePath' jobId' dryRun =>
    refine exists_claim unique hrow held ?_
    intro _ _ _ hdead
    rw [hjob, halive] at hdead
    cases hdead
  | release cwd' worktreePath' jobId' =>
    refine Statement.exists_exec_of_mem hrow ?_ (fun _ => held)
    intro hguard
    simp only [releaseClaim, Bool.and_eq_true, decide_eq_true_eq] at hguard
    obtain ⟨⟨⟨hpath', hcwd'⟩, -⟩, hjob'⟩ := hguard
    refine absurd ?_ hrelease
    rw [← hpath', ← hcwd', ← hjob', hpath, hcwd, hjob]
  | recoverStale =>
    refine Statement.exists_execAll ?_ ⟨row, hrow, held⟩
    intro statement hstatement
    obtain ⟨stale, hstale, rfl⟩ := mem_map.mp hstatement
    intro row held hguard
    simp only [releaseClaim, Bool.and_eq_true, decide_eq_true_eq] at hguard
    have hdead : stale.status = .inUse ∧ worktreeClaimOwnerAlive host stale.jobId = false := by
      simpa using (mem_filter.mp hstale).2
    have hdead := hdead.2
    rw [← hguard.2, held.2.2.2, halive] at hdead
    cases hdead
  | enqueueCleanup cwd' worktreePath' branch operationId =>
    refine exists_enqueueCleanup ?_ ⟨row, hrow, held⟩
    exact fun row held hfree => absurd held.2.2.1 hfree
  | drainRemoved worktreePath' =>
    exact ⟨row, mem_filter.mpr ⟨hrow, by simp [hstatus]⟩, held⟩
  | drainKept worktreePath' retained =>
    refine Statement.exists_exec_of_mem hrow ?_ (fun _ => held)
    intro hguard
    simp [Worktrees.drainKept, hstatus] at hguard
  | prune cutoff =>
    exact ⟨row, mem_filter.mpr ⟨hrow, by simp [hstatus, ArtifactStatus.active]⟩, held⟩
  | markRegistryCleaned worktreePath' =>
    refine Statement.exists_exec_of_mem hrow ?_ (fun _ => held)
    intro hguard
    simp only [Worktrees.markRegistryCleaned, Bool.and_eq_true, decide_eq_true_eq] at hguard
    simp [RegistryWrite.overridesClaim, hguard.1] at hoverrides

theorem exists_cleaned_of_missing {now : Nat} {paths : List String} (hmem : worktreePath ∈ paths)
    (h : ∃ row ∈ rows, row.worktreePath = worktreePath ∧ row.cwd = cwd ∧
      row.status ≠ .cleanupPending) :
    ∃ row ∈ execute (paths.map fun path => .update (markMissing cwd now path)) rows,
      row.worktreePath = worktreePath ∧ row.status = .cleaned := by
  induction paths generalizing rows with
  | nil => cases hmem
  | cons path paths ih =>
    obtain ⟨row, hrow, hpath, hcwd, hstatus⟩ := h
    show ∃ row ∈ execute (paths.map fun path => .update (markMissing cwd now path))
      ((markMissing cwd now path).exec rows),
        row.worktreePath = worktreePath ∧ row.status = .cleaned
    by_cases hhead : path = worktreePath
    · subst hhead
      refine Statement.exists_execAll ?_ ?_
      · intro statement hstatement
        obtain ⟨other, -, rfl⟩ := mem_map.mp hstatement
        exact fun row hQ _ => ⟨hQ.1, rfl⟩
      · refine Statement.exists_exec_of_mem hrow (fun _ => ⟨hpath, rfl⟩) ?_
        intro hguard
        simp [markMissing, hpath, hcwd, hstatus] at hguard
    · have htail : worktreePath ∈ paths := (mem_cons.mp hmem).resolve_left (Ne.symm hhead)
      refine ih htail ?_
      refine Statement.exists_exec_of_mem hrow ?_ (fun _ => ⟨hpath, hcwd, hstatus⟩)
      intro hguard
      exact absurd (hpath.symm.trans (by simp_all [markMissing])) (Ne.symm hhead)

theorem RegistryWrite.exists_overridden (hrow : row ∈ rows) (hstatus : row.status = .inUse)
    (hoverrides : write.overridesClaim host row = true) :
    ∃ after ∈ write.exec config host rows,
      after.worktreePath = row.worktreePath ∧ after.status ≠ .inUse := by
  cases write with
  | reconcile cwd discovered =>
    simp only [RegistryWrite.overridesClaim, Bool.and_eq_true, decide_eq_true_eq,
      Bool.not_eq_true'] at hoverrides
    have hinserted : ∃ after ∈ execute (discovered.map (insertDiscovered cwd)) rows,
        HeldBy row.worktreePath cwd row.jobId after := by
      refine Statement.exists_execAll ?_ ⟨row, hrow, rfl, hoverrides.1, hstatus, rfl⟩
      intro statement hstatement
      obtain ⟨item, -, rfl⟩ := mem_map.mp hstatement
      intro after held _ hguard
      simp [held.2.2.1, ArtifactStatus.active] at hguard
    obtain ⟨after, hafter, hpath, hcwd, hinUse, -⟩ := hinserted
    have hmissing : row.worktreePath ∈ missingPaths host.disk cwd
        (execute (discovered.map (insertDiscovered cwd)) rows) := by
      refine mem_map.mpr ⟨after, mem_filter.mpr ⟨hafter, ?_⟩, hpath⟩
      simp [hcwd, hinUse, hpath, hoverrides.2, ArtifactStatus.active]
    show ∃ after ∈ execute (_ ++ _) rows,
      after.worktreePath = row.worktreePath ∧ after.status ≠ .inUse
    rw [execute, Statement.execAll_append]
    obtain ⟨cleaned, hmem, hsame, hcleaned⟩ :=
      exists_cleaned_of_missing hmissing ⟨after, hafter, hpath, hcwd, by simp [hinUse]⟩
    exact ⟨cleaned, hmem, hsame, by simp [hcleaned]⟩
  | mark cwd worktreePath status bytes =>
    simp only [RegistryWrite.overridesClaim, Bool.and_eq_true, decide_eq_true_eq] at hoverrides
    refine Statement.exists_exec_of_mem hrow (fun _ => ⟨rfl, hoverrides.2⟩) ?_
    intro hguard
    simp [markWorktreeArtifactState, hoverrides.1.1, hoverrides.1.2] at hguard
  | markRegistryCleaned worktreePath =>
    simp only [RegistryWrite.overridesClaim, decide_eq_true_eq] at hoverrides
    refine Statement.exists_exec_of_mem hrow
      (fun _ => ⟨rfl, by simp [Worktrees.markRegistryCleaned]⟩) ?_
    intro hguard
    simp [Worktrees.markRegistryCleaned, hoverrides, hstatus] at hguard
  | _ => cases hoverrides

end AgentBridge.Worktrees
