import AgentBridge.Cleanup.Drain

/-!
# What a drain removes

`Sound` holds in every state of every run: each removal followed checks that all matched the
row it was for, under a lock that was verified after them, and each deleted branch pointed at
the reviewed tip. While the lock is kept the registry grants no worktree to a job, so a
worktree that was free under the lock is free when it is removed.

The procedures of a row are described by triples over what the process has read.
-/

namespace AgentBridge.Cleanup

open Systems Worktrees Bool

/-! ## The registry under a serial lock -/

section Registry

variable {config : WorktreeConfig} {host : WorktreeHost} {artifacts : List ArtifactRow}
  {cwd : Directory} {path : String} {write : RegistryWrite}

/-- A row of the repository that does not have the worktree at the path in use. -/
def FreeRow (cwd : Directory) (path : String) (row : ArtifactRow) : Prop :=
  row.cwd = cwd ∧ (row.worktreePath = path → row.status ≠ .inUse)

theorem under_of_registryWriteOf (h : registryWriteOf cwd write = true) :
    write.under cwd = true := by
  simp only [registryWriteOf, and_eq_true] at h
  exact h.1

theorem occupies_of_registryWriteOf (h : registryWriteOf cwd write = true)
    (hclaim : ∀ cwd' path jobId dryRun, write ≠ .claim cwd' path jobId dryRun) :
    write.occupies = false := by
  cases write with
  | claim cwd' path jobId dryRun => exact absurd rfl (hclaim cwd' path jobId dryRun)
  | reconcile | mark => simp_all [registryWriteOf, RegistryWrite.occupies]
  | _ => rfl

/-- While an integration holds the repository no transaction sets a worktree in use. -/
theorem RegistryWrite.forall_freeRow (hwrite : registryWriteOf cwd write = true)
    (hholds : integrationHolds host cwd = true) (hfree : ∀ row ∈ artifacts, FreeRow cwd path row) :
    ∀ row ∈ write.exec config host artifacts, FreeRow cwd path row := by
  by_cases hclaim : ∃ cwd' path jobId dryRun, write = .claim cwd' path jobId dryRun
  · obtain ⟨cwd', worktreePath, jobId, dryRun, rfl⟩ := hclaim
    show ∀ row ∈ (claimRetainedWorktree host artifacts cwd' worktreePath jobId dryRun).2,
      FreeRow cwd path row
    rcases claimRetainedWorktree_rows cwd' worktreePath jobId dryRun with hsame | hclaimed
    · rw [hsame]
      exact hfree
    · obtain ⟨row, hrow, -, hcwd, -⟩ := hclaimed
      -- A claim of a row of this repository is refused.
      have hrefused : (claimRetainedWorktree host artifacts cwd' worktreePath jobId dryRun).2
          = artifacts := by
        rw [claimRetainedWorktree, ← hcwd, (hfree row hrow).1, if_pos hholds]
      rw [hrefused]
      exact hfree
  · obtain ⟨statements, hexec, hstays⟩ :=
      @Worktrees.RegistryWrite.exec_eq_execute config host artifacts write
    rw [hexec]
    have hoccupies := occupies_of_registryWriteOf hwrite fun cwd' path jobId dryRun heq =>
      hclaim ⟨cwd', path, jobId, dryRun, heq⟩
    exact Statement.forall_execAll (fun statement hmem =>
      (hstays statement hmem).free cwd path (under_of_registryWriteOf hwrite) hoccupies) hfree

end Registry

/-! ## Removals and deletions -/

/-- The target is at the integrated state, or the engine's commit is in its history. -/
def Checks.Integrated (checks : Checks) (payload : CleanupPayload) : Prop :=
  match payload.committedCommit with
  | some commit => checks.ancestor = some commit
  | none => ∃ capture, checks.target = some capture ∧ payload.matchesTarget capture = true

/-- The process is at a pending row with the path and the payload, which it read under its
lock. -/
def Checks.At (checks : Checks) (path : String) (payload : CleanupPayload) : Prop :=
  checks.locked = true ∧ ∃ row, checks.row = some row ∧ row.worktreePath = path ∧
    row.status = .pending ∧ row.payload = payload

/-- The last reading of the patch and source state, of the branch tip and of the target under
the lock matched the enqueued identity, and the lock was verified after the source and the
target were read. -/
def Removal.Reviewed (removal : Removal) : Prop :=
  ∃ payload, removal.checks.At removal.worktreePath payload ∧
    removal.checks.source = some (removal.worktreePath, payload.source) ∧
    (∃ branch, removal.checks.tip = some (branch, payload.source.head)) ∧
    removal.checks.Integrated payload ∧ removal.checks.verified = true

/-- The branch pointed at the reviewed tip of the row. -/
def Deletion.Reviewed (deletion : Deletion) : Prop :=
  ∃ path payload, deletion.checks.At path payload ∧ deletion.tip = payload.source.head

variable {config : CleanupConfig} {cwd : Directory} {s : CleanupMachine} {path : String}
  {payload : CleanupPayload} {env : CleanupEnv cwd} {command : CleanupCommand}

structure Sound (cwd : Directory) (s : CleanupMachine) : Prop where
  unique : UniquePaths s.state.artifacts
  root : ∀ row ∈ s.state.artifacts, row.cwd = cwd
  kept : s.lockKept = true → s.lockOwned cwd = true
  removals : ∀ removal ∈ s.removals,
    removal.Reviewed ∧ (removal.lockKept = true → removal.inUse = false)
  deletions : ∀ deletion ∈ s.deletions, deletion.Reviewed

/-- As long as the lock is kept, no row has the worktree in use. -/
def Free (path : String) (s : CleanupMachine) : Prop :=
  s.lockKept = true → ∀ row ∈ s.state.artifacts, row.worktreePath = path → row.status ≠ .inUse

/-! ## What other processes do -/

open CleanupMachine

theorem integrationHolds_of_lockOwned (host : WorktreeHost) (h : s.lockOwned cwd = true) :
    integrationHolds { host with locks := some s.locks, now := s.now } cwd = true := by
  obtain ⟨lock, -, hany⟩ := Option.any_eq_true _ _ |>.mp h
  obtain ⟨row, hrow, hlock⟩ := List.any_eq_true.mp hany
  simp only [and_eq_true, decide_eq_true_eq] at hlock
  refine List.any_eq_true.mpr ⟨row, hrow, ?_⟩
  simp [hlock.1.1.2, hlock.1.2, hlock.2]

theorem Sound.writeRegistry (h : Sound cwd s) (config : CleanupConfig) (host : WorktreeHost)
    {write : RegistryWrite} (hwrite : registryWriteOf cwd write = true) :
    Sound cwd (s.writeRegistry config host write) where
  unique := write.uniquePaths h.unique
  root := write.forall_cwd (under_of_registryWriteOf hwrite) h.root
  kept := h.kept
  removals := h.removals
  deletions := h.deletions

theorem Free.writeRegistry (hfree : Free path s) (h : Sound cwd s) (config : CleanupConfig)
    (host : WorktreeHost) {write : RegistryWrite} (hwrite : registryWriteOf cwd write = true) :
    Free path (s.writeRegistry config host write) := by
  intro hkept row hrow
  have hrows : ∀ row ∈ s.state.artifacts, FreeRow cwd path row :=
    fun row hrow => ⟨h.root row hrow, hfree hkept row hrow⟩
  exact (RegistryWrite.forall_freeRow hwrite
    (integrationHolds_of_lockOwned host (h.kept hkept)) hrows row hrow).2

/-- The fields of a machine that `Sound` and `Free` read, other than the lock. -/
theorem Sound.of_eq {s' : CleanupMachine} (h : Sound cwd s)
    (hartifacts : s'.state.artifacts = s.state.artifacts)
    (hkept : s'.lockKept = true → s'.lockOwned cwd = true)
    (hremovals : s'.removals = s.removals) (hdeletions : s'.deletions = s.deletions) :
    Sound cwd s' where
  unique := hartifacts ▸ h.unique
  root := hartifacts ▸ h.root
  kept := hkept
  removals := hremovals ▸ h.removals
  deletions := hdeletions ▸ h.deletions

theorem Free.of_eq {s' : CleanupMachine} (h : Free path s)
    (hartifacts : s'.state.artifacts = s.state.artifacts)
    (hkept : s'.lockKept = true → s.lockKept = true) : Free path s' :=
  fun hlock => hartifacts ▸ h (hkept hlock)

theorem change_kept (config : CleanupConfig) (s : CleanupMachine) (change : CleanupChange cwd) :
    (s.change config change).lockKept = s.lockKept ∧
      (s.change config change).checks = s.checks ∧
      (s.change config change).removals = s.removals ∧
      (s.change config change).deletions = s.deletions := by
  cases change <;> exact ⟨rfl, rfl, rfl, rfl⟩

theorem change_artifacts (config : CleanupConfig) (s : CleanupMachine)
    (change : CleanupChange cwd) :
    (s.change config change).state.artifacts = s.state.artifacts ∨
      ∃ host write, registryWriteOf cwd write = true ∧
        s.change config change = s.writeRegistry config host write := by
  cases change with
  | registry host write allowed => exact .inr ⟨host, write, allowed, rfl⟩
  | _ => exact .inl rfl

theorem Sound.interfere (h : Sound cwd s) (change : CleanupChange cwd) :
    Sound cwd (s.interfere config change) := by
  have ⟨_, _, hremovals, hdeletions⟩ := change_kept config s change
  have hkept : (s.interfere config change).lockKept = true →
      (s.interfere config change).lockOwned cwd = true := by
    intro hlock
    exact (and_eq_true_iff.mp hlock).2
  cases change_artifacts config s change with
  | inl hsame => exact h.of_eq hsame hkept hremovals hdeletions
  | inr hwrite =>
    obtain ⟨host, write, hallowed, heq⟩ := hwrite
    have hwritten := h.writeRegistry config host hallowed
    refine hwritten.of_eq ?_ hkept hremovals hdeletions
    rw [← heq]
    rfl

theorem Free.interfere (hfree : Free path s) (h : Sound cwd s) (change : CleanupChange cwd) :
    Free path (s.interfere config change) := by
  have hlock : (s.interfere config change).lockKept = true → s.lockKept = true :=
    fun hlock => (and_eq_true_iff.mp hlock).1
  cases change_artifacts config s change with
  | inl hsame => exact hfree.of_eq hsame hlock
  | inr hwrite =>
    obtain ⟨host, write, hallowed, heq⟩ := hwrite
    refine (hfree.writeRegistry h config host hallowed).of_eq ?_ hlock
    rw [← heq]
    rfl

/-- What every change keeps, all of them keep. -/
theorem interfere_all (P : CleanupMachine → Prop)
    (hstep : ∀ s (change : CleanupChange cwd), P s → P (interfere config s change))
    (changes : List (CleanupChange cwd)) (h : P s) :
    P (changes.foldl (CleanupMachine.interfere config) s) := by
  induction changes generalizing s with
  | nil => exact h
  | cons change changes ih => exact ih (hstep s change h)

/-! ## What a command does -/

/-- The command takes nothing of the repository away for good and claims no worktree. -/
def CleanupCommand.routine : CleanupCommand → Bool
  | .worktreeRemove _ | .updateRefDelete .. => false
  | .markArtifact _ status _ => status ≠ .inUse
  | _ => true

theorem Sound.settle (h : Sound cwd s) (row : CleanupRow) (outcome : CleanupOutcome) :
    Sound cwd (settle config s row outcome) := by
  have hstate : ∀ state : CleanupState, state.artifacts = s.state.artifacts →
      Sound cwd { s with state := state } :=
    fun state hartifacts => h.of_eq hartifacts h.kept rfl rfl
  cases outcome with
  | success => exact (hstate (s.state.deleteRow row) rfl).writeRegistry _ _ rfl
  | retainedForReview => exact (hstate (s.state.updateRow row .retained) rfl).writeRegistry _ _ rfl
  | partly | failed => exact (hstate (s.state.updateRow row .pending) rfl).writeRegistry _ _ rfl

theorem Free.settle (hfree : Free path s) (h : Sound cwd s) (row : CleanupRow)
    (outcome : CleanupOutcome) : Free path (settle config s row outcome) := by
  have hstate : ∀ state : CleanupState, state.artifacts = s.state.artifacts →
      Sound cwd { s with state := state } ∧ Free path { s with state := state } :=
    fun state hartifacts => ⟨h.of_eq hartifacts h.kept rfl rfl, hfree.of_eq hartifacts id⟩
  cases outcome with
  | success =>
    have ⟨hsound, hfree⟩ := hstate (s.state.deleteRow row) rfl
    exact hfree.writeRegistry hsound _ _ rfl
  | retainedForReview =>
    have ⟨hsound, hfree⟩ := hstate (s.state.updateRow row .retained) rfl
    exact hfree.writeRegistry hsound _ _ rfl
  | partly | failed =>
    have ⟨hsound, hfree⟩ := hstate (s.state.updateRow row .pending) rfl
    exact hfree.writeRegistry hsound _ _ rfl

theorem owns_serialLock (locks : List LockRow) (granted : String × String) (now : Nat) :
    owns cwd (serialLock cwd config granted now)
      (locks ++ [serialLock cwd config granted now]) now = true := by
  have hexpires : now < now + config.ttlMs := by
    unfold CleanupConfig.ttlMs
    omega
  refine List.any_eq_true.mpr ⟨serialLock cwd config granted now, by simp, ?_⟩
  simp [serialLock, hexpires]

theorem registryWriteOf_mark {status : ArtifactStatus} {bytes : Option Nat}
    (h : CleanupCommand.routine (.markArtifact path status bytes) = true) :
    registryWriteOf cwd (.mark cwd path status bytes) = true := by
  simpa [CleanupCommand.routine, registryWriteOf, RegistryWrite.under] using h

theorem registryWriteOf_enqueueCleanup (branch operationId : String) :
    registryWriteOf cwd (.enqueueCleanup cwd path branch operationId) = true := by
  simp [registryWriteOf, RegistryWrite.under]

theorem Sound.perform (h : Sound cwd s) (config : CleanupConfig) (env : CleanupEnv cwd)
    (hroutine : command.routine = true) :
    Sound cwd (perform config env s command).1 := by
  cases command with
  | acquireHardLock =>
    cases hgrants : env.grants with
    | none => simpa [Cleanup.perform, hgrants] using h
    | some granted =>
      simp only [Cleanup.perform, hgrants]
      exact h.of_eq rfl (fun _ => owns_serialLock _ _ _) rfl rfl
  | verifyOwnership =>
    simp only [Cleanup.perform]
    split <;> exact h
  | settleRow row outcome =>
    simp only [Cleanup.perform]
    split
    · exact h.settle row outcome
    · exact h
  | insertRow row operationId =>
    simp only [Cleanup.perform]
    split
    · exact h
    · have hinserted : Sound cwd { s with state := s.state.upsertRow row } :=
        h.of_eq rfl h.kept rfl rfl
      exact hinserted.writeRegistry _ _ (registryWriteOf_enqueueCleanup _ _)
  | markArtifact path status bytes => exact h.writeRegistry _ _ (registryWriteOf_mark hroutine)
  | releaseHardLock => exact h.of_eq rfl nofun rfl rfl
  | worktreeRemove | updateRefDelete => cases hroutine
  | _ => exact h

/-- Only a new lock can end what is known under the one before. -/
theorem Free.perform (hfree : Free path s) (h : Sound cwd s) (hroutine : command.routine = true)
    (hlock : command ≠ .acquireHardLock) : Free path (perform config env s command).1 := by
  cases command with
  | acquireHardLock => exact absurd rfl hlock
  | verifyOwnership =>
    simp only [Cleanup.perform]
    split <;> exact hfree
  | settleRow row outcome =>
    simp only [Cleanup.perform]
    split
    · exact hfree.settle h row outcome
    · exact hfree
  | insertRow row operationId =>
    simp only [Cleanup.perform]
    split
    · exact hfree
    · have hinserted : Sound cwd { s with state := s.state.upsertRow row } :=
        h.of_eq rfl h.kept rfl rfl
      have hstill : Free path { s with state := s.state.upsertRow row } := hfree.of_eq rfl id
      exact hstill.writeRegistry hinserted _ _ (registryWriteOf_enqueueCleanup _ _)
  | markArtifact path status bytes =>
    exact hfree.writeRegistry h _ _ (registryWriteOf_mark hroutine)
  | releaseHardLock => exact hfree.of_eq rfl nofun
  | worktreeRemove | updateRefDelete => cases hroutine
  | _ => exact hfree

/-- What the process has read is left to the answer. -/
theorem perform_checks (s : CleanupMachine) :
    (perform config env s command).1.checks = s.checks := by
  cases command with
  | acquireHardLock =>
    cases hgrants : env.grants <;> simp [perform, hgrants]
  | settleRow row outcome =>
    simp only [perform]
    split
    · cases outcome <;> rfl
    · rfl
  | verifyOwnership | updateRefDelete | insertRow =>
    simp only [perform]
    split <;> rfl
  | _ => rfl

/-- The machine a command finds. -/
def found (config : CleanupConfig) (env : CleanupEnv cwd) (s : CleanupMachine) : CleanupMachine :=
  env.changes.foldl (interfere config) s

theorem Sound.found (h : Sound cwd s) (config : CleanupConfig) (env : CleanupEnv cwd) :
    Sound cwd (found config env s) :=
  interfere_all (Sound cwd) (fun _ change h => h.interfere change) env.changes h

theorem Free.found (hfree : Free path s) (h : Sound cwd s) (config : CleanupConfig)
    (env : CleanupEnv cwd) :
    Free path (found config env s) := by
  have hboth : Sound cwd (Cleanup.found config env s) ∧ Free path (Cleanup.found config env s) :=
    interfere_all (fun s => Sound cwd s ∧ Free path s)
      (fun _ change h => ⟨h.1.interfere change, h.2.interfere h.1 change⟩) env.changes ⟨h, hfree⟩
  exact hboth.2

theorem found_checks (config : CleanupConfig) (env : CleanupEnv cwd) (s : CleanupMachine) :
    (found config env s).checks = s.checks := by
  refine interfere_all (fun t => t.checks = s.checks) ?_ env.changes rfl
  intro t change h
  exact (change_kept config t change).2.1.trans h

theorem execute_eq (s : CleanupMachine) :
    execute config env s command =
      match env.fault with
      | some error => (found config env s, .error error)
      | none =>
        match perform config env (found config env s) command with
        | (s, .ok reply) => ({ s with checks := s.checks.note command reply }, .ok reply)
        | (s, .error error) => (s, .error error) := rfl

/-- A command does nothing but what it carries out and notes. -/
theorem execute_cases (config : CleanupConfig) (env : CleanupEnv cwd) (s : CleanupMachine)
    (command : CleanupCommand) :
    (∃ error, execute config env s command = (found config env s, .error error)) ∨
    (∃ error, (perform config env (found config env s) command).2 = .error error ∧
      execute config env s command
        = ((perform config env (found config env s) command).1, .error error)) ∨
    (∃ reply, (perform config env (found config env s) command).2 = .ok reply ∧
      execute config env s command
        = ({ (perform config env (found config env s) command).1 with
              checks := s.checks.note command reply }, .ok reply)) := by
  rw [execute_eq]
  cases env.fault with
  | some error => exact .inl ⟨error, rfl⟩
  | none =>
    -- Others do not change what the process has read, nor does the command itself.
    have hchecks : (perform config env (found config env s) command).1.checks = s.checks :=
      (perform_checks _).trans (found_checks config env s)
    refine .inr ?_
    cases hperform : perform config env (found config env s) command with
    | mk t reply =>
      rw [hperform] at hchecks
      cases reply with
      | error error => exact .inl ⟨error, rfl, rfl⟩
      | ok reply => exact .inr ⟨reply, rfl, by rw [← hchecks]⟩

/-! ## Triples of the procedures of a row -/

structure AtRow (cwd : Directory) (path : String) (payload : CleanupPayload)
    (s : CleanupMachine) : Prop where
  sound : Sound cwd s
  free : Free path s
  current : s.checks.At path payload

def CleanupCommand.staysAtRow (command : CleanupCommand) : Bool :=
  command.routine && match command with
    | .acquireHardLock | .readRow _ => false
    | _ => true

theorem note_at {checks : Checks} (hstays : command.staysAtRow = true)
    (reply : CleanupReply command) (h : checks.At path payload) :
    (checks.note command reply).At path payload := by
  cases command with
  | acquireHardLock | readRow => cases hstays
  | mergeBaseIsAncestor =>
    cases reply <;> exact h
  | _ => exact h

theorem AtRow.execute (h : AtRow cwd path payload s) (hstays : command.staysAtRow = true)
    (config : CleanupConfig) (env : CleanupEnv cwd) :
    AtRow cwd path payload (execute config env s command).1 := by
  have hroutine : command.routine = true := (and_eq_true_iff.mp hstays).1
  have hlock : command ≠ .acquireHardLock := by
    rintro rfl
    cases hstays
  have hsound := h.sound.found config env
  have hfree := h.free.found h.sound config env
  have hfound : (found config env s).checks.At path payload := by
    rw [found_checks]
    exact h.current
  rcases execute_cases config env s command with
    ⟨_, hfault⟩ | ⟨_, _, herror⟩ | ⟨reply, _, hok⟩
  · rw [hfault]
    exact ⟨hsound, hfree, hfound⟩
  · rw [herror]
    refine ⟨hsound.perform config env hroutine, hfree.perform hsound hroutine hlock, ?_⟩
    rw [perform_checks]
    exact hfound
  · rw [hok]
    have hperformed := hsound.perform config env hroutine
    exact ⟨hperformed.of_eq rfl hperformed.kept rfl rfl,
      (hfree.perform hsound hroutine hlock).of_eq rfl id, note_at hstays reply h.current⟩

/-- Whatever happens around it, the procedure stays at the row, and takes what is known of the
process's reading from `pre` to `post`. -/
def Ensures (config : CleanupConfig) (cwd : Directory) (path : String) (payload : CleanupPayload)
    {α : Type} (pre : Checks → Prop) (m : CleanupAction α) (post : α → Checks → Prop) : Prop :=
  ∀ s, AtRow cwd path payload s → pre s.checks →
    m.wp (@execute config cwd) (Sound cwd)
      (fun value _ s => AtRow cwd path payload s ∧ post value s.checks)
      (fun _ _ s => AtRow cwd path payload s) () s

namespace Ensures

variable {α β : Type} {pre : Checks → Prop} {post : α → Checks → Prop} {m : CleanupAction α}

theorem pure {value : α} (h : ∀ checks, pre checks → post value checks) :
    Ensures config cwd path payload pre (Pure.pure value) post :=
  fun s hrow hpre => ⟨hrow, h s.checks hpre⟩

theorem raise (error : String) :
    Ensures config cwd path payload pre (Procedure.raise error) post :=
  fun _ hrow _ => hrow

theorem issue (hstays : command.staysAtRow = true) {post : CleanupReply command → Checks → Prop}
    (h : ∀ checks reply, pre checks → post reply (checks.note command reply)) :
    Ensures config cwd path payload pre (Cleanup.issue command) post := by
  intro s hrow hpre
  refine (Procedure.wp_call command).mpr ⟨hrow.sound, fun env => ?_⟩
  have hafter := hrow.execute hstays config env
  rcases execute_cases config env s command with
    ⟨_, hfault⟩ | ⟨_, _, herror⟩ | ⟨reply, _, hok⟩
  · rw [hfault] at hafter ⊢
    exact hafter
  · rw [herror] at hafter ⊢
    exact hafter
  · rw [hok] at hafter ⊢
    exact ⟨hafter, h s.checks reply hpre⟩

theorem bind {mid : α → Checks → Prop} {f : α → CleanupAction β} {post : β → Checks → Prop}
    (hm : Ensures config cwd path payload pre m mid)
    (hf : ∀ value, Ensures config cwd path payload (mid value) (f value) post) :
    Ensures config cwd path payload pre (m >>= f) post := by
  intro s hrow hpre
  refine .bind (.mono (hm s hrow hpre) ?_ (fun _ _ _ h => h))
  rintro value ⟨⟩ s' ⟨hrow', hmid⟩
  exact hf value s' hrow' hmid

theorem recover {handler : String → CleanupAction α}
    (hm : Ensures config cwd path payload pre m post)
    (hhandler : ∀ error, Ensures config cwd path payload (fun _ => True) (handler error) post) :
    Ensures config cwd path payload pre (m.recover handler) post := by
  intro s hrow hpre
  refine .recover (.mono (hm s hrow hpre) (fun _ _ _ h => h) ?_)
  rintro error ⟨⟩ s' hrow'
  exact hhandler error s' hrow' trivial

theorem ite {condition : Prop} [Decidable condition] {m' : CleanupAction α}
    (hthen : condition → Ensures config cwd path payload pre m post)
    (helse : ¬condition → Ensures config cwd path payload pre m' post) :
    Ensures config cwd path payload pre (if condition then m else m') post :=
  fun s hrow hpre =>
    .ite (fun h => hthen h s hrow hpre) (fun h => helse h s hrow hpre)

theorem mono {pre' : Checks → Prop} {post' : α → Checks → Prop}
    (h : Ensures config cwd path payload pre m post) (hpre : ∀ checks, pre' checks → pre checks)
    (hpost : ∀ value checks, post value checks → post' value checks) :
    Ensures config cwd path payload pre' m post' :=
  fun s hrow hchecks => .mono (h s hrow (hpre s.checks hchecks))
    (fun value _ s' h => ⟨h.1, hpost value s'.checks h.2⟩) (fun _ _ _ h => h)

end Ensures

/-! ## The two destructive commands -/

/-- What a process must have read before it removes the worktree of its row. -/
structure Cleared (path : String) (payload : CleanupPayload) (checks : Checks) : Prop where
  source : checks.source = some (path, payload.source)
  tip : ∃ branch, checks.tip = some (branch, payload.source.head)
  integrated : checks.Integrated payload
  verified : checks.verified = true

theorem AtRow.removed (h : AtRow cwd path payload s) (hcleared : Cleared path payload s.checks)
    (env : CleanupEnv cwd) :
    AtRow cwd path payload (perform config env s (.worktreeRemove path)).1 := by
  have hartifacts : (perform config env s (.worktreeRemove path)).1.state.artifacts
      = s.state.artifacts := by
    simp only [perform]
    split <;> rfl
  refine ⟨⟨hartifacts ▸ h.sound.unique, hartifacts ▸ h.sound.root, h.sound.kept, ?_,
    h.sound.deletions⟩, h.free.of_eq hartifacts id, h.current⟩
  intro removal hremoval
  cases List.mem_cons.mp hremoval with
  | inr hbefore => exact h.sound.removals removal hbefore
  | inl hnew =>
    subst hnew
    refine ⟨⟨payload, h.current, hcleared.source, hcleared.tip, hcleared.integrated,
      hcleared.verified⟩, fun hkept => ?_⟩
    rw [List.any_eq_false]
    intro row hrow hin
    simp only [and_eq_true, decide_eq_true_eq] at hin
    exact h.free hkept row hrow hin.1 hin.2

theorem AtRow.deleted (h : AtRow cwd path payload s) (branch : BranchName)
    (env : CleanupEnv cwd) :
    AtRow cwd path payload
      (perform config env s (.updateRefDelete branch payload.source.head)).1 := by
  simp only [perform]
  split
  · refine ⟨⟨h.sound.unique, h.sound.root, h.sound.kept, h.sound.removals, ?_⟩,
      h.free.of_eq rfl id, h.current⟩
    intro deletion hdeletion
    cases List.mem_cons.mp hdeletion with
    | inr hbefore => exact h.sound.deletions deletion hbefore
    | inl hnew =>
      subst hnew
      exact ⟨path, payload, h.current, rfl⟩
  · exact h

theorem AtRow.found (h : AtRow cwd path payload s) (config : CleanupConfig)
    (env : CleanupEnv cwd) :
    AtRow cwd path payload (found config env s) :=
  ⟨h.sound.found config env, h.free.found h.sound config env,
    (found_checks config env s).symm ▸ h.current⟩

/-- A command outside the routine ones that leaves the process at its row. -/
theorem Ensures.of_perform {pre : Checks → Prop}
    (hperform : ∀ (env : CleanupEnv cwd) s, AtRow cwd path payload s → pre s.checks →
      AtRow cwd path payload (perform config env s command).1)
    (hnote : ∀ (checks : Checks) reply, checks.note command reply = checks) :
    Ensures config cwd path payload pre (Cleanup.issue command) fun _ _ => True := by
  intro s hrow hpre
  refine (Procedure.wp_call command).mpr ⟨hrow.sound, fun env => ?_⟩
  have hfound := hrow.found config env
  have hafter := hperform env _ hfound (by rwa [found_checks])
  rcases execute_cases config env s command with
    ⟨_, hfault⟩ | ⟨_, _, herror⟩ | ⟨reply, _, hok⟩
  · rw [hfault]
    exact hfound
  · rw [herror]
    exact hafter
  · rw [hok]
    have hchecks : s.checks.note command reply
        = (perform config env (Cleanup.found config env s) command).1.checks := by
      rw [hnote, perform_checks, found_checks]
    rw [hchecks]
    exact ⟨hafter, trivial⟩

theorem ensures_worktreeRemove :
    Ensures config cwd path payload (Cleared path payload) (issue (.worktreeRemove path))
      fun _ _ => True :=
  .of_perform (fun env _ hrow hcleared => hrow.removed hcleared env) fun _ _ => rfl

theorem ensures_updateRefDelete (branch : BranchName) :
    Ensures config cwd path payload (fun _ => True)
      (issue (.updateRefDelete branch payload.source.head)) fun _ _ => True :=
  .of_perform (fun env _ hrow _ => hrow.deleted branch env) fun _ _ => rfl

/-! ## The procedures of a row -/

section

variable {pre : Checks → Prop}

/-- A command whose answer is of no concern. -/
theorem Ensures.silent (hstays : command.staysAtRow = true)
    (hnote : ∀ (checks : Checks) reply, checks.note command reply = checks) :
    Ensures config cwd path payload pre (Cleanup.issue command) fun _ => pre :=
  .issue hstays fun checks reply h => (hnote checks reply).symm ▸ h

theorem ensures_updateRetainedWorktreeMeasurement :
    Ensures config cwd path payload (fun _ => True)
      (updateRetainedWorktreeMeasurement config path) fun _ _ => True := by
  refine .bind (.silent rfl fun _ _ => rfl) fun present => ?_
  cases (present : Bool) with
  | false => exact .pure fun _ _ => trivial
  | true =>
    refine .recover (.bind (.silent rfl fun _ _ => rfl) fun bytes => ?_) fun _ => ?_
    · exact .silent rfl fun _ _ => rfl
    · exact .silent rfl fun _ _ => rfl

theorem ensures_cleanupFailed (error : String) :
    Ensures config cwd path payload (fun _ => True) (cleanupFailed config path error)
      fun _ _ => True :=
  .bind ensures_updateRetainedWorktreeMeasurement fun _ =>
    .bind (.silent rfl fun _ _ => rfl) fun _ => .pure fun _ _ => trivial

theorem ensures_deleteSourceBranch (branch : BranchName) :
    Ensures config cwd path payload (fun _ => True)
      (deleteSourceBranch path branch payload.source.head) fun _ _ => True := by
  refine .bind (ensures_updateRefDelete branch) fun deleted => ?_
  refine .bind (.silent ?_ fun _ _ => rfl) fun _ => .pure fun _ _ => trivial
  cases (deleted : Bool) <;> rfl

/-- What a process must have read when it starts the removal of the worktree of its row. -/
structure Ready (path : String) (payload : CleanupPayload) (checks : Checks) : Prop where
  source : checks.source = some (path, payload.source)
  integrated : checks.Integrated payload
  verified : checks.verified = true

theorem ensures_cleanupWorktree (branch : BranchName) :
    Ensures config cwd path payload (Ready path payload)
      (cleanupWorktree config ⟨path, branch, payload.source.head⟩) fun _ _ => True := by
  have htip : Ensures config cwd path payload (Ready path payload)
      (readBranchOid branch) fun tip checks => Ready path payload checks ∧
        ∀ oid, tip = some oid → checks.tip = some (branch, oid) := by
    refine .ite (fun _ => .pure fun _ h => ⟨h, nofun⟩) fun _ => .issue rfl ?_
    rintro checks tip h
    refine ⟨⟨h.source, h.integrated, h.verified⟩, fun oid hoid => ?_⟩
    subst hoid
    rfl
  refine .bind htip fun tip => .ite (fun _ => .pure fun _ _ => trivial) fun hsame => ?_
  have hsame : tip = some payload.source.head := Decidable.not_not.mp hsame
  have hdetach : Ensures config cwd path payload
      (fun checks => Ready path payload checks ∧
        ∀ oid, tip = some oid → checks.tip = some (branch, oid))
      (.recover
        (do
          issue (.detachWorktreeLinks path)
          pure none)
        fun error => pure (some error))
      fun (detached : Option String) checks => detached = none → Cleared path payload checks := by
    refine .recover (.bind (.silent rfl fun _ _ => rfl) fun _ => .pure ?_) fun error =>
      .pure fun _ _ => nofun
    rintro checks ⟨h, htip⟩ -
    exact ⟨h.source, ⟨branch, htip _ hsame⟩, h.integrated, h.verified⟩
  refine .bind hdetach fun detached => ?_
  cases detached with
  | some error => exact (ensures_cleanupFailed error).mono (fun _ _ => trivial) fun _ _ h => h
  | none =>
    refine .bind (ensures_worktreeRemove.mono (fun _ h => h rfl) fun _ _ h => h) fun removed => ?_
    refine .ite (fun _ => ?_) fun _ => ?_
    · exact ensures_deleteSourceBranch branch
    · exact ensures_cleanupFailed _

theorem ensures_integrationCleanupTargetStateError :
    Ensures config cwd path payload (fun _ => True) (integrationCleanupTargetStateError payload)
      fun error checks => error = none →
        ∃ capture, checks.target = some capture ∧ payload.matchesTarget capture = true := by
  have hcapture : ∀ trust, Ensures config cwd path payload (fun _ => True)
      (issue (.captureTargetState trust))
      fun (capture : Option TargetCapture) checks => checks.target = capture :=
    fun trust => .issue rfl fun _ _ _ => rfl
  refine .ite (fun _ => .pure fun _ _ => nofun) fun _ => .bind (hcapture true) fun current => ?_
  cases (current : Option TargetCapture) with
  | none => exact .pure fun _ _ => nofun
  | some current =>
    refine .ite (fun hmatches => .pure fun _ h _ => ⟨current, h, hmatches⟩) fun _ => ?_
    refine .bind ((hcapture false).mono (fun _ _ => trivial) fun _ _ h => h) fun fresh => ?_
    cases (fresh : Option TargetCapture) with
    | none => exact .pure fun _ _ => nofun
    | some fresh =>
      refine .ite (fun hmatches => .pure fun _ h _ => ⟨fresh, h, hmatches⟩) fun _ => ?_
      exact .pure fun _ _ => nofun

/-- A collected source is what was read last; the target is not read again. -/
theorem ensures_collectIntegrationPatch (base : Oid)
    (hstable : ∀ checks source, pre checks →
      pre { checks with source := source, verified := false }) :
    Ensures config cwd path payload pre (collectIntegrationPatch path base)
      fun source checks => pre checks ∧
        ∀ state, source = some state → checks.source = some (path, state) := by
  refine .bind (.silent rfl fun _ _ => rfl) fun present => .ite (fun _ => ?_) fun _ =>
    .pure fun _ h => ⟨h, nofun⟩
  refine .bind (.silent rfl fun _ _ => rfl) fun status => .ite (fun _ => ?_) fun _ => ?_
  · exact .pure fun _ h => ⟨h, nofun⟩
  · refine .issue rfl fun checks source h => ⟨hstable checks _ h, fun state hstate => ?_⟩
    subst hstate
    rfl

theorem ensures_beforeRemoval :
    Ensures config cwd path payload
      (fun checks => checks.source = some (path, payload.source) ∧ checks.Integrated payload)
      beforeRemoval fun _ => Ready path payload := by
  refine .bind (.silent rfl fun _ _ => rfl) fun aborted => .ite (fun _ => .raise _) fun _ => ?_
  refine .bind (.silent rfl fun _ _ => rfl) fun foreground => .ite (fun _ => .raise _) fun _ => ?_
  exact .issue rfl fun checks _ h => ⟨h.1, h.2, rfl⟩

theorem ensures_cleanupIntegratedWorktreeWhileLocked (hplain : payload.committedCommit = none) :
    Ensures config cwd path payload (fun _ => True)
      (cleanupIntegratedWorktreeWhileLocked config path payload) fun _ _ => True := by
  have hintegrated : ∀ checks : Checks, checks.Integrated payload ↔
      ∃ capture, checks.target = some capture ∧ payload.matchesTarget capture = true := by
    intro checks
    rw [Checks.Integrated, hplain]
  refine .bind (.silent rfl fun _ _ => rfl) fun sourceBranch => ?_
  refine .bind ensures_integrationCleanupTargetStateError fun error => ?_
  cases error with
  | some _ => exact .pure fun _ _ => trivial
  | none =>
    have hcollect : Ensures config cwd path payload (fun checks => checks.Integrated payload)
        (collectIntegrationPatch path payload.source.base) fun source checks =>
          checks.Integrated payload ∧
            ∀ state, source = some state → checks.source = some (path, state) :=
      ensures_collectIntegrationPatch _ fun checks _ h =>
        (hintegrated _).mpr ((hintegrated checks).mp h)
    refine .bind (hcollect.mono (fun checks h => (hintegrated checks).mpr (h rfl))
      fun _ _ h => h) fun current => .ite (fun _ => .pure fun _ _ => trivial) fun hsame => ?_
    have hsame : current = some payload.source := Decidable.not_not.mp hsame
    cases (sourceBranch : Option BranchName) with
    | none => exact .pure fun _ _ => trivial
    | some branch =>
      refine .bind (ensures_beforeRemoval.mono
        (fun checks h => ⟨h.2 _ hsame, h.1⟩) fun _ _ h => h) fun _ => ?_
      exact ensures_cleanupWorktree branch

theorem ensures_cleanupCommittedSourceWhileLocked {row : CleanupRow} {commit : Oid}
    (hcommitted : row.payload.committedCommit = some commit) :
    Ensures config cwd row.worktreePath row.payload (fun _ => True)
      (cleanupCommittedSourceWhileLocked config row commit) fun _ _ => True := by
  refine .bind (ensures_collectIntegrationPatch _ fun _ _ _ => trivial) fun source =>
    .ite (fun _ => .pure fun _ _ => trivial) fun hsame => ?_
  have hsame : source = some row.payload.source := Decidable.not_not.mp hsame
  have hancestor : Ensures config cwd row.worktreePath row.payload
      (fun checks => checks.source = some (row.worktreePath, row.payload.source))
      (issue (.mergeBaseIsAncestor commit))
      fun (current : Bool) checks => current = true →
        checks.source = some (row.worktreePath, row.payload.source) ∧
          checks.Integrated row.payload := by
    refine .issue rfl fun checks current h hcurrent => ?_
    subst hcurrent
    refine ⟨h, ?_⟩
    rw [Checks.Integrated, hcommitted]
    rfl
  refine .bind (hancestor.mono (fun checks h => h.2 _ hsame) fun _ _ h => h) fun current => ?_
  refine .ite (fun _ => .pure fun _ _ => trivial) fun hcurrent => ?_
  have hcurrent : current = true := by simpa using hcurrent
  refine .bind (ensures_beforeRemoval.mono (fun checks h => h hcurrent) fun _ _ h => h) fun _ => ?_
  exact ensures_cleanupWorktree row.branch

theorem ensures_targetIdentityMatches (inTarget : Bool) :
    Ensures config cwd path payload (fun _ => True) (targetIdentityMatches payload inTarget)
      fun _ _ => True := by
  unfold targetIdentityMatches
  split
  · exact .pure fun _ _ => trivial
  · exact .bind ensures_integrationCleanupTargetStateError fun _ => .pure fun _ _ => trivial

theorem ensures_cleanupMissingWorktree (row : CleanupRow) (inTarget : Bool) (tip : Option Oid) :
    Ensures config cwd path row.payload (fun _ => True) (cleanupMissingWorktree row inTarget tip)
      fun _ _ => True := by
  have hverify : ∀ (pre : Checks → Prop), Ensures config cwd path row.payload pre
      (issue .verifyOwnership) fun _ _ => True :=
    fun _ => .issue rfl fun _ _ _ => trivial
  refine .bind (ensures_targetIdentityMatches inTarget) fun matching => ?_
  refine .ite (fun _ => .pure fun _ _ => trivial) fun _ => .ite (fun _ => ?_) fun _ => ?_
  · refine .bind (hverify _) fun _ => .bind (ensures_updateRefDelete row.branch) fun deleted => ?_
    exact .pure fun _ _ => trivial
  · refine .ite (fun _ => ?_) fun _ => .pure fun _ _ => trivial
    refine .bind (.silent rfl fun _ _ => rfl) fun absent => .bind (hverify _) fun _ => ?_
    exact .pure fun _ _ => trivial

theorem ensures_cleanupRow (row : CleanupRow) :
    Ensures config cwd row.worktreePath row.payload (fun _ => True) (cleanupRow config row)
      fun _ _ => True := by
  have hcommitted : Ensures config cwd row.worktreePath row.payload (fun _ => True)
      (committedInTarget row.payload) fun _ _ => True := by
    unfold committedInTarget
    split
    · exact .issue rfl fun _ _ _ => trivial
    · exact .pure fun _ _ => trivial
  have htip : Ensures config cwd row.worktreePath row.payload (fun _ => True)
      (issue (.showRef row.branch)) fun _ _ => True := .issue rfl fun _ _ _ => trivial
  refine .bind hcommitted fun inTarget => .bind htip fun tip => ?_
  refine .bind (.silent rfl fun _ _ => rfl) fun present => ?_
  refine .ite (fun _ => ensures_cleanupMissingWorktree row _ _) fun _ => ?_
  refine .ite (fun _ => .pure fun _ _ => trivial) fun _ => ?_
  split
  · next commit hcommit =>
    refine .ite (fun _ => .pure fun _ _ => trivial) fun _ => ?_
    exact ensures_cleanupCommittedSourceWhileLocked hcommit
  · next hplain => exact ensures_cleanupIntegratedWorktreeWhileLocked hplain

end

/-! ## Drain -/

/-- A process under its lock, between two rows. -/
structure Underway (cwd : Directory) (s : CleanupMachine) : Prop where
  sound : Sound cwd s
  locked : s.checks.locked = true

theorem AtRow.underway (h : AtRow cwd path payload s) : Underway cwd s :=
  ⟨h.sound, h.current.1⟩

theorem note_locked {checks : Checks} (command : CleanupCommand) (reply : CleanupReply command)
    (h : checks.locked = true) : (checks.note command reply).locked = true := by
  cases command with
  | acquireHardLock | mergeBaseIsAncestor => cases reply <;> first | exact h | rfl
  | _ => exact h

section

variable {returned : CleanupReply command → Unit → CleanupMachine → Prop}
  {failed : String → Unit → CleanupMachine → Prop}

/-- The machine that an answer leaves. -/
def answered (config : CleanupConfig) (env : CleanupEnv cwd) (s : CleanupMachine)
    (command : CleanupCommand) (reply : CleanupReply command) : CleanupMachine :=
  { (perform config env (found config env s) command).1 with
    checks := s.checks.note command reply }

/-- The rule of a routine command. -/
theorem wp_issue (hroutine : command.routine = true) (h : Sound cwd s)
    (hreturned : ∀ (env : CleanupEnv cwd) reply,
      (perform config env (found config env s) command).2 = .ok reply →
      Sound cwd (answered config env s command reply) →
      returned reply () (answered config env s command reply))
    (hfailed : ∀ error t, Sound cwd t → t.checks = s.checks → failed error () t) :
    (issue command).wp (@execute config cwd) (Sound cwd) returned failed () s := by
  refine (Procedure.wp_call command).mpr ⟨h, fun env => ?_⟩
  have hfound := h.found config env
  have hperformed := hfound.perform config env hroutine
  rcases execute_cases config env s command with
    ⟨_, hfault⟩ | ⟨_, _, herror⟩ | ⟨reply, hreply, hok⟩
  · rw [hfault]
    exact hfailed _ _ hfound (found_checks config env s)
  · rw [herror]
    exact hfailed _ _ hperformed ((perform_checks _).trans (found_checks config env s))
  · rw [hok]
    exact hreturned env reply hreply (hperformed.of_eq rfl hperformed.kept rfl rfl)

/-- The rule of a routine command between two rows. -/
theorem wp_issue_underway (hroutine : command.routine = true) (h : Underway cwd s)
    (hreturned : ∀ (env : CleanupEnv cwd) reply,
      (perform config env (found config env s) command).2 = .ok reply →
      Underway cwd (answered config env s command reply) →
      returned reply () (answered config env s command reply))
    (hfailed : ∀ error t, Sound cwd t → failed error () t) :
    (issue command).wp (@execute config cwd) (Sound cwd) returned failed () s :=
  wp_issue hroutine h.sound
    (fun env reply hreply hsound =>
      hreturned env reply hreply ⟨hsound, note_locked command reply h.locked⟩)
    fun error t hsound _ => hfailed error t hsound

end

/-- A row that is found pending under the path, with a worktree that the registry does not have
in use, is one the process is at. -/
theorem AtRow.of_read (h : Underway cwd s) {row current : CleanupRow}
    (hcurrent : s.checks.row = some current) (hpath : current.worktreePath = row.worktreePath)
    (hpending : current.status = .pending ∧ current.payload = row.payload)
    (hfree : s.state.artifactStatus row.worktreePath ≠ some .inUse) :
    AtRow cwd row.worktreePath row.payload s := by
  refine ⟨h.sound, fun _ artifact hartifact hkey hstatus => hfree ?_,
    h.locked, current, hcurrent, hpath, hpending.1, hpending.2⟩
  rw [← hkey, CleanupState.artifactStatus_eq h.sound.unique hartifact, hstatus]

theorem wp_drainRows (rows : List CleanupRow) (h : Underway cwd s) :
    (drainRows config rows).wp (@execute config cwd) (Sound cwd)
      (fun _ _ s => Sound cwd s) (fun _ _ s => Sound cwd s) () s := by
  induction rows generalizing s with
  | nil => exact h.sound
  | cons row rows ih =>
    have hrest : ∀ (f : List (String × DrainReport) → List (String × DrainReport)) {s},
        Underway cwd s → (drainRows config rows >>= fun reports => pure (f reports)).wp
          (@execute config cwd) (Sound cwd) (fun _ _ s => Sound cwd s)
          (fun _ _ s => Sound cwd s) () s := by
      intro f s h
      refine .bind (.mono (ih h) ?_ fun _ _ _ h => h)
      exact fun _ _ _ h => h
    refine .bind (wp_issue_underway rfl h (fun env (aborted : Bool) _ h => ?_) fun _ _ h => h)
    refine .ite (fun _ => h.sound) fun _ => ?_
    refine .bind (wp_issue_underway rfl h (fun env (current : Option CleanupRow) hcurrent h => ?_)
        fun _ _ h => h)
    refine .bind
      (wp_issue_underway rfl h (fun env' (artifact : Option ArtifactStatus) hartifact h => ?_)
        fun _ _ h => h)
    refine .ite (fun _ => ih h) fun hpending => ?_
    refine .ite (fun _ => hrest _ h) fun hfree => ?_
    cases current with
    | none => simp at hpending
    | some current =>
      have hpath : current.worktreePath = row.worktreePath := by
        have hfind := List.find?_some (Except.ok.inj hcurrent)
        simpa using hfind
      have hpending : current.status = .pending ∧ current.payload = row.payload := by
        simpa using hpending
      have hat : AtRow cwd row.worktreePath row.payload _ :=
        AtRow.of_read h rfl hpath hpending
          (fun hinUse => hfree ((Except.ok.inj hartifact).symm.trans hinUse))
      refine .bind ?_
      have houtcome : Ensures config cwd row.worktreePath row.payload (fun _ => True)
          (.recover (cleanupRow config row) fun error => pure (.failed error))
          fun _ _ => True :=
        .recover (ensures_cleanupRow row) fun _ => .pure fun _ _ => trivial
      refine .mono (houtcome _ hat trivial) ?_ fun _ _ _ h => h.sound
      rintro outcome ⟨⟩ s' ⟨hat', -⟩
      refine .bind (wp_issue_underway rfl hat'.underway (fun _ _ _ h => ?_) fun _ _ h => h)
      exact hrest _ h

theorem wp_drain (h : Sound cwd s) :
    (drain config).wp (@execute config cwd) (Sound cwd)
      (fun _ _ s => Sound cwd s) (fun _ _ s => Sound cwd s) () s := by
  refine .bind (wp_issue rfl h (fun _ (rows : List CleanupRow) _ h => ?_) fun _ _ h _ => h)
  refine .ite (fun _ => h) fun _ => ?_
  refine .bind (wp_issue rfl h (fun _ (foreground : Bool) _ h => ?_) fun _ _ h _ => h)
  refine .ite (fun _ => h) fun _ => ?_
  refine .bind (wp_issue rfl h (fun env (claimed : Bool) _ h => ?_) fun _ _ h _ => h)
  refine .ite (fun _ => h) fun hclaimed => ?_
  have hclaimed : claimed = true := by simpa using hclaimed
  subst hclaimed
  refine .bind (.recover ?_)
  refine .mono (wp_drainRows rows ⟨h, rfl⟩) ?_ ?_
  · intro reports _ s h
    refine .bind (wp_issue rfl h (fun _ _ _ h => h) fun _ _ h _ => h)
  · intro error _ s h
    refine .bind (wp_issue rfl h (fun _ _ _ h => h) fun _ _ h _ => h)

/-! ## Enqueue -/

theorem wp_enqueueIntegrationCleanup (worktreePath : String) (result : IntegrationResult)
    (committed : Bool) (h : Sound cwd s) :
    (enqueueIntegrationCleanup cwd worktreePath result committed).wp
      (@execute config cwd) (Sound cwd) (fun _ _ s => Sound cwd s)
      (fun _ _ s => Sound cwd s) () s := by
  have htarget : (enqueuedTarget result committed).wp (@execute config cwd) (Sound cwd)
      (fun _ _ s => Sound cwd s) (fun _ _ s => Sound cwd s) () s := by
    unfold enqueuedTarget
    refine .ite (fun _ => h) fun _ => ?_
    refine .bind (wp_issue rfl h (fun _ (files : String) _ h => ?_) fun _ _ h _ => h)
    refine .ite (fun _ => h) fun _ => .ite (fun _ => h) fun _ => ?_
    refine .bind
      (wp_issue rfl h (fun _ (current : Option TargetCapture) _ h => ?_) fun _ _ h _ => h)
    cases current <;> exact h
  unfold enqueueIntegrationCleanup
  refine .ite (fun _ => h) fun _ => ?_
  refine .bind (.mono htarget ?_ fun _ _ _ h => h)
  intro target _ s h
  cases target with
  | error reason => exact h
  | ok target =>
    refine .bind (wp_issue rfl h (fun _ (branch : Option BranchName) _ h => ?_) fun _ _ h _ => h)
    cases branch with
    | none => exact h
    | some branch =>
      refine .bind (wp_issue rfl h (fun _ (inserted : Bool) _ h => ?_) fun _ _ h _ => h)
      exact h

/-! ## Runs -/

theorem Sound.next (h : Sound cwd s) : Sound cwd s.next :=
  h.of_eq rfl nofun rfl rfl

theorem Sound.run {α : Type} {m : CleanupAction α} (h : m.wp (@execute config cwd)
      (Sound cwd) (fun _ _ s => Sound cwd s) (fun _ _ s => Sound cwd s) () s)
    (envs : List (CleanupEnv cwd)) : Sound cwd ((m ()).run (execute config) s envs).1 := by
  cases hrun : (m ()).run (execute config) s envs with
  | mk s' value =>
    cases value with
    | none => exact Program.wp_interrupted _ h hrun
    | some value =>
      have hvalue := Program.wp_returned _ h hrun
      match value with
      | (.ok value, _) => exact hvalue
      | (.error error, _) => exact hvalue

theorem Sound.runCall (h : Sound cwd s) (config : CleanupConfig)
    (call : CleanupCall × List (CleanupEnv cwd)) :
    Sound cwd (runCall config cwd s call) := by
  obtain ⟨call, envs⟩ := call
  cases call with
  | enqueue worktreePath result committed =>
    exact .run (wp_enqueueIntegrationCleanup worktreePath result committed h.next) envs
  | drain => exact .run (wp_drain h.next) envs

theorem Sound.runCalls (h : Sound cwd s) (config : CleanupConfig)
    (calls : List (CleanupCall × List (CleanupEnv cwd))) :
    Sound cwd (runCalls config cwd s calls) := by
  induction calls generalizing s with
  | nil => exact h
  | cons call calls ih => exact ih (h.runCall config call)

theorem Sound.start {state : CleanupState} (hunique : UniquePaths state.artifacts)
    (hroot : ∀ row ∈ state.artifacts, row.cwd = cwd) (locks : List LockRow) (now : Nat) :
    Sound cwd (CleanupMachine.start state locks now) :=
  ⟨hunique, hroot, Bool.noConfusion, fun _ hmem => absurd hmem List.not_mem_nil,
    fun _ hmem => absurd hmem List.not_mem_nil⟩

end AgentBridge.Cleanup
