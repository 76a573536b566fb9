import AgentBridge.Systems.Run
import AgentBridge.Worktrees.Writes

/-!
# Who owns a worktree

Any processes write the registry in any order, while jobs, leases, processes, locks and
directories change around it. Next to the rows the state keeps a ghost: who was granted a
worktree, by a reservation or a claim, has not given it up and was alive all the time since.

A claim outlives every transaction except its own release and the three that go by the path
alone: a mark of the state (of a measurement or a cleanup, however late), the pass over
missing directories and the collector. Where those meet no worktree of a live job, each
worktree has one owner.
-/

namespace AgentBridge.Worktrees

open Systems List

structure WorktreeOwner where
  worktreePath : String
  cwd : Directory
  jobId : String

structure OwnershipState where
  rows : List ArtifactRow
  host : WorktreeHost
  owners : List WorktreeOwner

inductive OwnershipEvent where
  /-- Anything outside the registry changes. -/
  | host (host : WorktreeHost)
  /-- A transaction, on behalf of a job or of none. -/
  | write (actor : String) (write : RegistryWrite)

variable (config : WorktreeConfig)

/-- The owner that a transaction makes. -/
def granted (host : WorktreeHost) (rows : List ArtifactRow) : RegistryWrite → List WorktreeOwner
  | .reserve cwd worktreePath branch jobId stateFull =>
    if (reserveWorktreeArtifact config rows cwd worktreePath branch jobId stateFull).1 = .ok then
      [⟨worktreePath, cwd, jobId⟩]
    else []
  | .claim cwd worktreePath jobId false =>
    match (claimRetainedWorktree host rows cwd worktreePath jobId false).1 with
    | .claimed _ => [⟨worktreePath, cwd, jobId⟩]
    | _ => []
  | _ => []

/-- What a job does to its own worktree: it releases its claim, marks the worktree or withdraws
its reservation. -/
def ownStep (actor : String) (worktreePath : String) (jobId : String) : RegistryWrite → Bool
  | .mark _ path _ _ => actor = jobId && path = worktreePath
  | .deleteReservation _ path => actor = jobId && path = worktreePath
  | .release _ path releasing => releasing = jobId && path = worktreePath
  | _ => false

def ownershipStep (s : OwnershipState) : OwnershipEvent → OwnershipState
  | .host host =>
    { s with
      host := host
      owners := s.owners.filter fun owner => worktreeClaimOwnerAlive host owner.jobId }
  | .write actor write =>
    let kept := s.owners.filter fun owner =>
      !ownStep actor owner.worktreePath owner.jobId write
    let new := (granted config s.host s.rows write).filter fun owner =>
      worktreeClaimOwnerAlive s.host owner.jobId
    { s with rows := write.exec config s.host s.rows, owners := kept ++ new }

/-- A project database before its first worktree. -/
def OwnershipState.initial (host : WorktreeHost) : OwnershipState :=
  { rows := [], host := host, owners := [] }

/-- The step leaves every worktree that a live job has in use to that job, unless it is the
job's own release. -/
def ClaimsKept (s : OwnershipState) : OwnershipEvent → Prop
  | .host _ => True
  | .write _ write => ∀ row ∈ s.rows, row.status = .inUse →
      worktreeClaimOwnerAlive s.host row.jobId = true →
      write ≠ .release row.cwd row.worktreePath row.jobId →
      ∃ after ∈ write.exec config s.host s.rows,
        HeldBy row.worktreePath row.cwd row.jobId after

/-- The step is no transaction by path alone on a worktree that a live job has in use. -/
def ClaimsRespected (s : OwnershipState) : OwnershipEvent → Prop
  | .host _ => True
  | .write _ write => ∀ row ∈ s.rows, row.status = .inUse →
      worktreeClaimOwnerAlive s.host row.jobId = true → write.overridesClaim s.host row = false

/-- Nor does it retire, other than for the job itself, a worktree of a live job. -/
def OwnersRespected (s : OwnershipState) : OwnershipEvent → Prop
  | .host _ => True
  | .write actor write => ∀ row ∈ s.rows, row.status.active = true →
      worktreeClaimOwnerAlive s.host row.jobId = true →
      ownStep actor row.worktreePath row.jobId write = false → write.retires s.host row = false

/-- No worktree has two owners. -/
def OneOwner (s : OwnershipState) : Prop :=
  ∀ owner ∈ s.owners, ∀ other ∈ s.owners,
    owner.worktreePath = other.worktreePath → owner.jobId = other.jobId

instance (s : OwnershipState) : ∀ event, Decidable (ClaimsKept config s event)
  | .host _ => isTrue trivial
  | .write _ write => inferInstanceAs (Decidable (∀ row ∈ s.rows, row.status = .inUse →
      worktreeClaimOwnerAlive s.host row.jobId = true →
      write ≠ .release row.cwd row.worktreePath row.jobId →
      ∃ after ∈ write.exec config s.host s.rows,
        HeldBy row.worktreePath row.cwd row.jobId after))

instance (s : OwnershipState) : ∀ event, Decidable (ClaimsRespected s event)
  | .host _ => isTrue trivial
  | .write _ write => inferInstanceAs (Decidable (∀ row ∈ s.rows, row.status = .inUse →
      worktreeClaimOwnerAlive s.host row.jobId = true → write.overridesClaim s.host row = false))

instance (s : OwnershipState) : ∀ event, Decidable (OwnersRespected s event)
  | .host _ => isTrue trivial
  | .write actor write => inferInstanceAs (Decidable (∀ row ∈ s.rows, row.status.active = true →
      worktreeClaimOwnerAlive s.host row.jobId = true →
      ownStep actor row.worktreePath row.jobId write = false → write.retires s.host row = false))

variable {config} {s : OwnershipState}

/-! ### Claims -/

theorem uniquePaths_step (event : OwnershipEvent) (h : UniquePaths s.rows) :
    UniquePaths (ownershipStep config s event).rows := by
  cases event with
  | host => exact h
  | write actor write => exact write.uniquePaths h

/-- A step keeps the claims of live jobs exactly when it respects them. -/
theorem claimsKept_iff (unique : UniquePaths s.rows) (event : OwnershipEvent) :
    ClaimsKept config s event ↔ ClaimsRespected s event := by
  cases event with
  | host => exact Iff.rfl
  | write actor write =>
    constructor
    · intro kept row hrow hstatus halive
      by_contra hoverrides
      rw [Bool.not_eq_false] at hoverrides
      have hrelease : write ≠ .release row.cwd row.worktreePath row.jobId := by
        rintro rfl
        cases hoverrides
      obtain ⟨after, hafter, held⟩ := kept row hrow hstatus halive hrelease
      obtain ⟨other, hother, hpath, hnot⟩ :=
        write.exists_overridden hrow hstatus hoverrides
      have hsame : after = other := by
        have hunique : UniquePaths (write.exec config s.host s.rows) := write.uniquePaths unique
        exact inj_on_of_nodup_map hunique hafter hother (held.1.trans hpath.symm)
      exact hnot (hsame ▸ held.2.2.1)
    · intro respected row hrow hstatus halive hrelease
      exact write.exists_heldBy unique hrow ⟨rfl, rfl, hstatus, rfl⟩ halive
        (respected row hrow hstatus halive) hrelease

theorem along_claimsKept_iff (unique : UniquePaths s.rows) (events : List OwnershipEvent) :
    Along (ownershipStep config) (ClaimsKept config) s events ↔
      Along (ownershipStep config) ClaimsRespected s events := by
  induction events generalizing s with
  | nil => exact Iff.rfl
  | cons event events ih =>
    rw [along_cons, along_cons, claimsKept_iff unique, ih (uniquePaths_step event unique)]

/-! ### Owners -/

/-- Each owner is alive and the active row of its worktree is its own. -/
structure OwnersRegistered (s : OwnershipState) : Prop where
  unique : UniquePaths s.rows
  alive : ∀ owner ∈ s.owners, worktreeClaimOwnerAlive s.host owner.jobId = true
  row : ∀ owner ∈ s.owners,
    ∃ row ∈ s.rows, Registered owner.worktreePath owner.cwd (· = owner.jobId) row

theorem OwnersRegistered.oneOwner (h : OwnersRegistered s) : OneOwner s := by
  intro owner howner other hother hpath
  obtain ⟨row, hrow, registered⟩ := h.row owner howner
  obtain ⟨row', hrow', registered'⟩ := h.row other hother
  have hsame : row = row' := inj_on_of_nodup_map h.unique hrow hrow'
    (registered.1.trans (hpath.trans registered'.1.symm))
  subst hsame
  exact registered.2.2.1.symm.trans registered'.2.2.1

theorem exists_heldBy_of_claim {host : WorktreeHost} {rows : List ArtifactRow}
    {cwd : Directory} {worktreePath jobId : String} {found : ArtifactRow}
    (h : (claimRetainedWorktree host rows cwd worktreePath jobId false).1 = .claimed found) :
    ∃ row ∈ (claimRetainedWorktree host rows cwd worktreePath jobId false).2,
      HeldBy worktreePath cwd jobId row := by
  rw [claimRetainedWorktree] at h ⊢
  split at h
  · cases h
  · next hholds =>
    rw [if_neg hholds]
    split at h
    · cases h
    · next row hfind =>
      dsimp only at h ⊢
      split at h
      · exact absurd h (claimRefusal_ne_claimed _ found)
      · next husable =>
        rw [if_neg husable]
        rw [if_neg Bool.false_ne_true] at h ⊢
        dsimp only at h ⊢
        split at h
        · next hchanges =>
          refine Statement.exists_exec_of_changes (ne_of_eq_of_ne hchanges Nat.one_ne_zero) ?_
          intro row' _ hguard
          simp only [takeRetained, Bool.and_eq_true, decide_eq_true_eq] at hguard
          exact ⟨hguard.1.1, hguard.1.2, rfl, rfl⟩
        · exact absurd h (claimRefusal_ne_claimed _ found)

theorem exists_registered_of_granted {host : WorktreeHost} {rows : List ArtifactRow}
    {write : RegistryWrite} {owner : WorktreeOwner} (h : owner ∈ granted config host rows write) :
    ∃ row ∈ write.exec config host rows,
      Registered owner.worktreePath owner.cwd (· = owner.jobId) row := by
  cases write with
  | reserve cwd worktreePath branch jobId stateFull =>
    rw [granted] at h
    split at h
    · next hok =>
      obtain rfl := mem_singleton.mp h
      obtain ⟨row, hrow, registered, -⟩ := exists_registered_of_reserve hok
      exact ⟨row, hrow, registered⟩
    · cases h
  | claim cwd worktreePath jobId dryRun =>
    cases dryRun with
    | true => cases h
    | false =>
      rw [granted] at h
      split at h
      · next hclaimed =>
        obtain rfl := mem_singleton.mp h
        obtain ⟨row, hrow, held⟩ := exists_heldBy_of_claim hclaimed
        exact ⟨row, hrow, held.1, held.2.1, held.2.2.2, by rw [held.2.2.1]; rfl⟩
      · cases h
  | _ => cases h

theorem OwnersRegistered.step (h : OwnersRegistered s) (event : OwnershipEvent)
    (respected : OwnersRespected s event) : OwnersRegistered (ownershipStep config s event) := by
  refine ⟨uniquePaths_step event h.unique, ?_, ?_⟩
  · intro owner howner
    cases event with
    | host host => exact (mem_filter.mp howner).2
    | write actor write =>
      rcases mem_append.mp howner with hkept | hnew
      · exact h.alive owner (mem_filter.mp hkept).1
      · exact (mem_filter.mp hnew).2
  · intro owner howner
    cases event with
    | host host => exact h.row owner (mem_filter.mp howner).1
    | write actor write =>
      rcases mem_append.mp howner with hkept | hnew
      · obtain ⟨howner, hown⟩ := mem_filter.mp hkept
        obtain ⟨row, hrow, registered⟩ := h.row owner howner
        have halive : worktreeClaimOwnerAlive s.host row.jobId = true := by
          rw [registered.2.2.1]
          exact h.alive owner howner
        have hown : ownStep actor row.worktreePath row.jobId write = false := by
          rw [registered.1, registered.2.2.1]
          simpa using hown
        have hretires := respected row hrow registered.2.2.2 halive hown
        refine write.exists_registered h.unique hrow registered hretires ?_
        intro jobId _ hdead
        rw [halive] at hdead
        cases hdead
      · exact exists_registered_of_granted (mem_filter.mp hnew).1

/-- Over every run, claims are kept exactly as long as no transaction by path alone meets one;
and as long as none retires a live job's worktree either, each worktree has one owner. -/
theorem worktree_ownership_exclusive (host : WorktreeHost) (events : List OwnershipEvent) :
    (Along (ownershipStep config) (ClaimsKept config) (.initial host) events ↔
      Along (ownershipStep config) ClaimsRespected (.initial host) events) ∧
    (Along (ownershipStep config) OwnersRespected (.initial host) events →
      OneOwner (run (ownershipStep config) (.initial host) events)) := by
  have hunique : UniquePaths (OwnershipState.initial host).rows := nodup_nil
  constructor
  · exact along_claimsKept_iff hunique events
  · intro respected
    have hinitial : OwnersRegistered (.initial host) :=
      ⟨hunique, by simp [OwnershipState.initial], by simp [OwnershipState.initial]⟩
    have hrun : OwnersRegistered (run (ownershipStep config) (.initial host) events) :=
      run_invariant (fun _ event h => h.step event) hinitial events respected
    exact hrun.oneOwner

section Continuation

/-- One queue job per pair, and the worktree `worktrees/a` once it is on disk. -/
def continuationHost (jobs : List (String × QueueStatus)) (present : Bool) : WorktreeHost where
  opencodeJobs := some jobs
  directRuns := none
  bridgeInstances := none
  locks := none
  liveProcesses := []
  disk := if present then [⟨"worktrees/a", "a", "worktrees", .directory (some 7)⟩] else []
  now := 0

def continuationConfig : WorktreeConfig := ⟨10, 1000, fun _ => "worktrees"⟩

/-- Job `A` makes a worktree and its lease lapses, and job `B` continues the worktree. -/
def continuation : List OwnershipEvent :=
  [.write "A" (.reserve [] "worktrees/a" "agent/a" "A" false),
    .host (continuationHost [("A", .running)] true),
    .write "A" (.mark [] "worktrees/a" .retained (some 0)),
    .host (continuationHost [("A", .interrupted), ("B", .running)] true),
    .write "B" (.claim [] "worktrees/a" "B" false)]

theorem worktree_ownership_exclusive_of_continuation :
    Along (ownershipStep continuationConfig) (ClaimsKept continuationConfig)
        (.initial (continuationHost [("A", .running)] false)) continuation ∧
      OneOwner (run (ownershipStep continuationConfig)
        (.initial (continuationHost [("A", .running)] false)) continuation) :=
  ⟨(worktree_ownership_exclusive _ continuation).1.mpr (by decide),
    (worktree_ownership_exclusive _ continuation).2 (by decide)⟩

/-- The measurement with which `A` ends marks the worktree retained while `B` has it in use. -/
theorem late_measurement_reopens_claim :
    ¬ Along (ownershipStep continuationConfig) (ClaimsKept continuationConfig)
      (.initial (continuationHost [("A", .running)] false))
      (continuation ++ [.write "A" (.mark [] "worktrees/a" .retained (some 7))]) := by
  decide

end Continuation

end AgentBridge.Worktrees
