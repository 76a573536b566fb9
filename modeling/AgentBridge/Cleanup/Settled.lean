import AgentBridge.Cleanup.Drain

/-!
# How a drain settles the rows

What a drain makes of the tables and the repository when nothing else happens: row by row, a
function of what is there. A row whose removal is half done settles as it would have from the
beginning, so the whole drain does.
-/

namespace AgentBridge.Cleanup

open Systems Worktrees List Bool

namespace CleanupState

variable (state : CleanupState)

/-! ## One row -/

/-- The target still has what was integrated. -/
def integrated (payload : CleanupPayload) : Bool :=
  match payload.committedCommit with
  | some commit => state.target.inHistory commit
  | none => payload.integratedTargetStateSha256.isSome &&
      match state.target.capture true with
      | none => false
      | some current => payload.matchesTarget current ||
          (state.target.capture false).any payload.matchesTarget

/-- The worktree is what was reviewed, on a branch. -/
def reviewed (row : CleanupRow) (tree : SourceTree) : Bool :=
  row.branch ≠ ["HEAD"] && tree.createPatch row.payload.source.base = some row.payload.source
    && (row.payload.committedCommit.isSome || tree.branch.isSome)

/-- The row is cleaned up, and not retained. -/
def cleans (row : CleanupRow) : Bool :=
  state.integrated row.payload &&
    match state.sources row.worktreePath with
    | none => state.tip row.branch = some row.payload.source.head || state.tip row.branch = none
    | some tree => state.tip row.branch = some row.payload.source.head && reviewed row tree

/-- The rows that a cleaned up row leaves. -/
def removeRow (row : CleanupRow) : CleanupState :=
  { state.deleteRow row with
    artifacts := Worktrees.execute [drainRemoved row.worktreePath] state.artifacts }

def retainRow (row : CleanupRow) : CleanupState :=
  { state.updateRow row .retained with
    artifacts := (drainKept row.worktreePath true).exec state.artifacts }

def settleRow (row : CleanupRow) : CleanupState :=
  if state.cleans row then
    ((state.setSource row.worktreePath none).deleteBranch row.branch).removeRow row
  else state.retainRow row

/-- The registry has the worktree in use. -/
def inUse (worktreePath : String) : Bool :=
  state.artifactStatus worktreePath = some .inUse

/-- A worktree in use is left for a later drain. -/
def visitRow (row : CleanupRow) : CleanupState :=
  if state.inUse row.worktreePath then state else state.settleRow row

def pending (cwd : Directory) : List CleanupRow :=
  state.rows.filter fun row => row.cwd = cwd && row.status = .pending

/-- What a drain that nothing disturbs leaves. -/
def drained (cwd : Directory) : CleanupState :=
  (state.pending cwd).foldl visitRow state

end CleanupState

open CleanupState

/-! ## Where nothing but the drain moves -/

/-- The statuses of the registry that a drain leaves or settles. -/
def cleanable : ArtifactStatus → Bool
  | .cleanupPending | .cleaned | .cleanedBranchRetained | .cleanupFailed | .inUse => true
  | .creating | .retained => false

/-- The registry has the worktree in a state of cleanup or in use, the worktree is still on the
branch it was enqueued with, and no branch is nested under that one. -/
structure Orderly (state : CleanupState) (row : CleanupRow) : Prop where
  artifact : ∀ artifact ∈ state.artifacts, artifact.worktreePath = row.worktreePath →
    cleanable artifact.status = true
  branch : ∀ tree, state.sources row.worktreePath = some tree →
    ∀ branch, tree.branch = some branch → branch = row.branch
  nested : ∀ entry ∈ state.branches, row.branch.isPrefixOf entry.1 = true → entry.1 = row.branch

/-- Both tables have their primary keys, and every pending row is orderly. -/
structure Steady (cwd : Directory) (state : CleanupState) : Prop where
  keys : (state.rows.map CleanupRow.worktreePath).Nodup
  unique : UniquePaths state.artifacts
  orderly : ∀ row ∈ state.pending cwd, Orderly state row

variable {cwd : Directory} {state state' : CleanupState} {row other : CleanupRow}

/-! ### The rows -/

theorem mem_pending : row ∈ state.pending cwd ↔
    row ∈ state.rows ∧ row.cwd = cwd ∧ row.status = .pending := by
  simp [CleanupState.pending]

theorem Steady.eq_of_path (h : Steady cwd state) (hrow : row ∈ state.rows)
    (hother : other ∈ state.rows) (hpath : other.worktreePath = row.worktreePath) : other = row :=
  inj_on_of_nodup_map h.keys hother hrow hpath

theorem Steady.row_eq (h : Steady cwd state) (hrow : row ∈ state.rows) :
    state.row row.worktreePath = some row := by
  cases hfind : state.row row.worktreePath with
  | none =>
    have hnone := List.find?_eq_none.mp hfind row hrow
    simp at hnone
  | some found =>
    have hpath := List.find?_some hfind
    rw [h.eq_of_path hrow (mem_of_find?_eq_some hfind) (by simpa using hpath)]

/-! ### The registry -/

theorem status_ne_inUse (hunique : UniquePaths state.artifacts) {path : String}
    (hfree : state.inUse path = false) {artifact : ArtifactRow}
    (hartifact : artifact ∈ state.artifacts) (hpath : artifact.worktreePath = path) :
    artifact.status ≠ .inUse := by
  intro hstatus
  rw [CleanupState.inUse, ← hpath, CleanupState.artifactStatus_eq hunique hartifact,
    hstatus] at hfree
  simp at hfree

/-- Without a row in use the delete of a drain takes every row of the path. -/
theorem drainRemoved_eq_filter (h : Orderly state row) (hunique : UniquePaths state.artifacts)
    (hfree : state.inUse row.worktreePath = false) :
    Worktrees.execute [drainRemoved row.worktreePath] state.artifacts
      = state.artifacts.filter fun artifact => artifact.worktreePath ≠ row.worktreePath := by
  show state.artifacts.filter _ = _
  refine filter_congr fun artifact hartifact => ?_
  by_cases hpath : artifact.worktreePath = row.worktreePath
  · have hcleanable := h.artifact artifact hartifact hpath
    have hstatus := status_ne_inUse hunique hfree hartifact hpath
    cases hcase : artifact.status <;> simp_all [cleanable]
  · simp [hpath]

/-- The status under a path after a change of the rows that keeps their paths. -/
theorem artifactStatus_map {change : ArtifactRow → ArtifactRow}
    (hartifacts : state'.artifacts = state.artifacts.map change)
    (hkey : ∀ artifact, (change artifact).worktreePath = artifact.worktreePath) (path : String) :
    state'.artifactStatus path = (state.artifacts.find? fun artifact =>
      artifact.worktreePath = path).map fun artifact => (change artifact).status := by
  have hfind : ((fun artifact : ArtifactRow => decide (artifact.worktreePath = path)) ∘ change)
      = fun artifact => decide (artifact.worktreePath = path) := by
    funext artifact
    simp [hkey]
  rw [CleanupState.artifactStatus, hartifacts, List.find?_map, hfind, Option.map_map]
  rfl

/-- A change of the rows of one path leaves the status under every other. -/
theorem artifactStatus_map_of_ne {change : ArtifactRow → ArtifactRow} {path : String}
    (hartifacts : state'.artifacts = state.artifacts.map change)
    (hkey : ∀ artifact, (change artifact).worktreePath = artifact.worktreePath)
    (hsame : ∀ artifact, artifact.worktreePath = path → change artifact = artifact) :
    state'.artifactStatus path = state.artifactStatus path := by
  rw [artifactStatus_map hartifacts hkey, CleanupState.artifactStatus]
  cases hfound : state.artifacts.find? fun artifact => artifact.worktreePath = path with
  | none => rfl
  | some artifact =>
    have hpath := List.find?_some hfound
    rw [Option.map_some, Option.map_some, hsame artifact (by simpa using hpath)]

theorem artifactStatus_filter {path other : String} (hne : other ≠ path) :
    ({ state with artifacts := state.artifacts.filter (·.worktreePath ≠ path) } :
      CleanupState).artifactStatus other = state.artifactStatus other := by
  unfold CleanupState.artifactStatus
  rw [List.find?_filter]
  have hkey : (fun artifact : ArtifactRow => decide (decide (artifact.worktreePath ≠ path) = true ∧
      decide (artifact.worktreePath = other) = true))
      = fun artifact => decide (artifact.worktreePath = other) := by
    funext artifact
    by_cases hpath : artifact.worktreePath = other
    · simp [hpath, hne]
    · simp [hpath]
  rw [hkey]

/-! ### The branches -/

theorem tip_deleteBranch (branch : BranchName) : (state.deleteBranch branch).tip branch = none := by
  simp [CleanupState.tip, CleanupState.deleteBranch]

theorem deleteBranch_of_tip_none {branch : BranchName} (h : state.tip branch = none) :
    state.deleteBranch branch = state := by
  have hnone : ∀ entry ∈ state.branches, entry.1 ≠ branch := by
    simpa [CleanupState.tip] using h
  unfold CleanupState.deleteBranch
  rw [filter_eq_self.mpr fun entry hentry => by simpa using hnone entry hentry]

/-- Where no branch is nested and the branch is absent, Git lists none. -/
theorem refsUnder_eq_nil (h : Orderly state row) (habsent : state.tip row.branch = none) :
    state.refsUnder row.branch = [] := by
  have hnone : ∀ entry ∈ state.branches, entry.1 ≠ row.branch := by
    simpa [CleanupState.tip] using habsent
  unfold CleanupState.refsUnder
  rw [filter_eq_nil_iff.mpr, map_nil]
  exact fun entry hentry hprefix => hnone entry hentry (h.nested entry hentry hprefix)

/-! ## A removal that is half done -/

/-- Between the removal of the directory of a row and the end of its transaction: the directory
is gone, the branch may be, and the registry may have the worktree marked. -/
structure HalfDone (row : CleanupRow) (state state' : CleanupState) : Prop where
  rows : state'.rows = state.rows
  target : state'.target = state.target
  sources : state'.sources = (state.setSource row.worktreePath none).sources
  branches : state'.branches = state.branches ∨
    state'.branches = (state.deleteBranch row.branch).branches
  artifacts : ∃ change, state'.artifacts = state.artifacts.map change ∧
    ∀ artifact, change artifact = artifact ∨ artifact.worktreePath = row.worktreePath ∧
      (change artifact).worktreePath = row.worktreePath ∧ (change artifact).status = .cleaned

namespace HalfDone

variable (h : HalfDone row state state')
include h

theorem exists_change : ∃ change : ArtifactRow → ArtifactRow,
    state'.artifacts = state.artifacts.map change ∧
    (∀ artifact, (change artifact).worktreePath = artifact.worktreePath) ∧
    (∀ artifact, artifact.worktreePath ≠ row.worktreePath → change artifact = artifact) ∧
    ∀ artifact, change artifact = artifact ∨ (change artifact).status = .cleaned := by
  obtain ⟨change, hartifacts, hchange⟩ := h.artifacts
  refine ⟨change, hartifacts, ?_, ?_, ?_⟩
  all_goals intro artifact
  all_goals obtain hsame | ⟨hpath, hpath', hstatus⟩ := hchange artifact
  · rw [hsame]
  · rw [hpath, hpath']
  · exact fun _ => hsame
  · exact fun hne => absurd hpath hne
  · exact .inl hsame
  · exact .inr hstatus

theorem unique (hunique : UniquePaths state.artifacts) : UniquePaths state'.artifacts := by
  obtain ⟨change, hartifacts, hkey, -⟩ := h.exists_change
  have hkeys : state'.artifacts.map ArtifactRow.worktreePath
      = state.artifacts.map ArtifactRow.worktreePath := by
    rw [hartifacts, map_map]
    exact map_congr_left fun artifact _ => hkey artifact
  rw [UniquePaths, hkeys]
  exact hunique

theorem inUse_eq (hunique : UniquePaths state.artifacts)
    (hfree : state.inUse row.worktreePath = false) (path : String) :
    state'.inUse path = state.inUse path := by
  obtain ⟨change, hartifacts, hkey, hother, hchange⟩ := h.exists_change
  by_cases hpath : path = row.worktreePath
  · subst hpath
    rw [hfree, CleanupState.inUse, artifactStatus_map hartifacts hkey]
    cases hfound : state.artifacts.find? fun artifact =>
        artifact.worktreePath = row.worktreePath with
    | none => rfl
    | some artifact =>
      have hkept := status_ne_inUse hunique hfree (mem_of_find?_eq_some hfound)
        (by simpa using List.find?_some hfound)
      cases hchange artifact with
      | inl hsame => simpa [hsame] using hkept
      | inr hcleaned => simp [hcleaned]
  · have hsame : ∀ artifact : ArtifactRow, artifact.worktreePath = path →
        change artifact = artifact :=
      fun artifact hkeyed => hother artifact (hkeyed ▸ hpath)
    rw [CleanupState.inUse, CleanupState.inUse, artifactStatus_map_of_ne hartifacts hkey hsame]

theorem pending_eq : state'.pending cwd = state.pending cwd := by
  rw [CleanupState.pending, h.rows]
  rfl

theorem mem_branches {entry : BranchName × Oid} (hentry : entry ∈ state'.branches) :
    entry ∈ state.branches := by
  cases h.branches with
  | inl hsame => exact hsame ▸ hentry
  | inr hdeleted =>
    rw [hdeleted] at hentry
    exact (mem_filter.mp hentry).1

theorem source_of_some {path : String} {tree : SourceTree}
    (htree : state'.sources path = some tree) :
    state.sources path = some tree := by
  rw [h.sources] at htree
  simp only [CleanupState.setSource] at htree
  split at htree
  · cases htree
  · exact htree

theorem orderly (horderly : Orderly state other) : Orderly state' other := by
  obtain ⟨change, hartifacts, hkey, -, hchange⟩ := h.exists_change
  refine ⟨?_, fun tree htree => horderly.branch tree (h.source_of_some htree),
    fun entry hentry => horderly.nested entry (h.mem_branches hentry)⟩
  intro artifact hartifact hpath
  rw [hartifacts] at hartifact
  obtain ⟨before, hbefore, rfl⟩ := mem_map.mp hartifact
  cases hchange before with
  | inl hsame =>
    rw [hsame] at hpath ⊢
    exact horderly.artifact before hbefore hpath
  | inr hcleaned =>
    rw [hcleaned]
    rfl

theorem steady (hsteady : Steady cwd state) : Steady cwd state' where
  keys := h.rows ▸ hsteady.keys
  unique := h.unique hsteady.unique
  orderly other hother := h.orderly (hsteady.orderly other (h.pending_eq ▸ hother))

theorem setSource_deleteBranch :
    ((state'.setSource row.worktreePath none).deleteBranch row.branch).sources
        = ((state.setSource row.worktreePath none).deleteBranch row.branch).sources ∧
      ((state'.setSource row.worktreePath none).deleteBranch row.branch).branches
        = ((state.setSource row.worktreePath none).deleteBranch row.branch).branches := by
  constructor
  · funext path
    simp only [CleanupState.deleteBranch, CleanupState.setSource, h.sources]
    split <;> rfl
  · show state'.branches.filter _ = state.branches.filter _
    cases h.branches with
    | inl hsame => rw [hsame]
    | inr hdeleted =>
      rw [hdeleted, CleanupState.deleteBranch, filter_filter]
      simp

theorem filter_artifacts :
    (state'.artifacts.filter fun artifact => artifact.worktreePath ≠ row.worktreePath)
      = state.artifacts.filter fun artifact => artifact.worktreePath ≠ row.worktreePath := by
  obtain ⟨change, hartifacts, hkey, hother, -⟩ := h.exists_change
  rw [hartifacts, filter_map]
  have hkeys : ((fun artifact : ArtifactRow => decide (artifact.worktreePath ≠ row.worktreePath))
      ∘ change) = fun artifact => decide (artifact.worktreePath ≠ row.worktreePath) := by
    funext artifact
    simp [hkey]
  rw [hkeys]
  refine (map_congr_left fun artifact hartifact => ?_).trans (map_id _)
  exact hother artifact (by simpa using (mem_filter.mp hartifact).2)

theorem cleans (hintegrated : state.integrated row.payload = true)
    (htip : state.tip row.branch = some row.payload.source.head ∨ state.tip row.branch = none) :
    state'.cleans row = true := by
  have hgone : state'.sources row.worktreePath = none := by
    rw [h.sources]
    simp [CleanupState.setSource]
  have hkept : state'.integrated row.payload = true := by
    unfold CleanupState.integrated at hintegrated ⊢
    rw [h.target]
    exact hintegrated
  have htip' : state'.tip row.branch = some row.payload.source.head ∨
      state'.tip row.branch = none := by
    cases h.branches with
    | inl hsame =>
      rw [CleanupState.tip, hsame]
      exact htip
    | inr hdeleted =>
      rw [CleanupState.tip, hdeleted]
      exact .inr (tip_deleteBranch _)
  simpa [CleanupState.cleans, hkept, hgone] using htip'

theorem settleRow_eq (horderly : Orderly state row) (hunique : UniquePaths state.artifacts)
    (hfree : state.inUse row.worktreePath = false) (hcleans : state.cleans row = true) :
    state'.settleRow row = state.settleRow row := by
  have hintegrated : state.integrated row.payload = true := by
    simp only [CleanupState.cleans, and_eq_true] at hcleans
    exact hcleans.1
  have htip : state.tip row.branch = some row.payload.source.head ∨
      state.tip row.branch = none := by
    simp only [CleanupState.cleans, and_eq_true] at hcleans
    cases hsource : state.sources row.worktreePath with
    | none => simpa [hsource] using hcleans.2
    | some tree =>
      simp only [hsource, and_eq_true, decide_eq_true_eq] at hcleans
      exact .inl hcleans.2.1
  have hfree' : state'.inUse row.worktreePath = false := by
    rw [h.inUse_eq hunique hfree, hfree]
  rw [CleanupState.settleRow, CleanupState.settleRow, if_pos (h.cleans hintegrated htip),
    if_pos hcleans]
  have ⟨hsources, hbranches⟩ := h.setSource_deleteBranch
  have hartifacts := drainRemoved_eq_filter horderly hunique hfree
  have hartifacts' := drainRemoved_eq_filter (h.orderly horderly) (h.unique hunique) hfree'
  rw [h.filter_artifacts, ← hartifacts] at hartifacts'
  unfold CleanupState.removeRow
  simp only [CleanupState.mk.injEq]
  refine ⟨?_, hartifacts', hsources, hbranches, h.target⟩
  show state'.rows.filter _ = state.rows.filter _
  rw [h.rows]

theorem marked (hartifacts : state'.artifacts = state.artifacts) (now : Nat) :
    HalfDone row state { state' with
      artifacts := (markWorktreeArtifactState cwd now row.worktreePath .cleaned none).exec
        state'.artifacts } := by
  refine ⟨h.rows, h.target, h.sources, h.branches,
    fun artifact => if (markWorktreeArtifactState cwd now row.worktreePath .cleaned none).guard
            artifact
      then (markWorktreeArtifactState cwd now row.worktreePath .cleaned none).set artifact
      else artifact, ?_, fun artifact => ?_⟩
  · rw [hartifacts]
    rfl
  · dsimp only
    split
    · next hguard =>
      simp only [markWorktreeArtifactState, and_eq_true, decide_eq_true_eq] at hguard
      exact .inr ⟨hguard.1, hguard.1, rfl⟩
    · exact .inl rfl

theorem source_gone : state'.sources row.worktreePath = none := by
  rw [h.sources]
  simp [CleanupState.setSource]

/-- Once the branch is gone too, only the transaction is missing. -/
theorem removeRow_eq (horderly : Orderly state row) (hunique : UniquePaths state.artifacts)
    (hfree : state.inUse row.worktreePath = false) (hcleans : state.cleans row = true)
    (htip : state'.tip row.branch = none) : state'.removeRow row = state.settleRow row := by
  have hsettle := h.settleRow_eq horderly hunique hfree hcleans
  have hgone : state'.setSource row.worktreePath none = state' := by
    unfold CleanupState.setSource
    have hsources : (fun path => if path = row.worktreePath then none else state'.sources path)
        = state'.sources := by
      funext path
      split
      · next hpath => rw [hpath, h.source_gone]
      · rfl
    rw [hsources]
  have hcleans' : state'.cleans row = true := by
    have hintegrated : state.integrated row.payload = true := by
      simp only [CleanupState.cleans, and_eq_true] at hcleans
      exact hcleans.1
    have hkept : state'.integrated row.payload = true := by
      unfold CleanupState.integrated at hintegrated ⊢
      rw [h.target]
      exact hintegrated
    simp [CleanupState.cleans, hkept, h.source_gone, htip]
  rw [← hsettle, CleanupState.settleRow, if_pos hcleans', hgone, deleteBranch_of_tip_none htip]

end HalfDone

/-! ## Row by row -/

/-- A drain at the row before `rows`: what is pending are those and rows in use. -/
structure Visiting (cwd : Directory) (skipped rows : List CleanupRow) (state : CleanupState) :
    Prop where
  steady : Steady cwd state
  pending : state.pending cwd = skipped ++ rows
  inUse : ∀ row ∈ skipped, state.inUse row.worktreePath = true

namespace Visiting

variable {skipped rows : List CleanupRow}

theorem start (h : Steady cwd state) : Visiting cwd [] (state.pending cwd) state :=
  ⟨h, rfl, nofun⟩

theorem skip (h : Visiting cwd skipped (row :: rows) state)
    (hinUse : state.inUse row.worktreePath = true) :
    Visiting cwd (skipped ++ [row]) rows state where
  steady := h.steady
  pending := by rw [h.pending, append_assoc, singleton_append]
  inUse other hother := by
    cases mem_append.mp hother with
    | inl hskipped => exact h.inUse other hskipped
    | inr hrow =>
      obtain rfl := mem_singleton.mp hrow
      exact hinUse

theorem mem_rows (h : Visiting cwd skipped (row :: rows) state) : row ∈ state.pending cwd := by
  rw [h.pending]
  simp

theorem orderly (h : Visiting cwd skipped (row :: rows) state) : Orderly state row :=
  h.steady.orderly row h.mem_rows

/-- Rows in use stay as they are, so the drain starts at the row. -/
theorem drained_eq (h : Visiting cwd skipped rows state) :
    state.drained cwd = rows.foldl visitRow state := by
  have hskipped : ∀ skipped : List CleanupRow,
      (∀ row ∈ skipped, state.inUse row.worktreePath = true) →
      skipped.foldl visitRow state = state := by
    intro skipped hinUse
    induction skipped with
    | nil => rfl
    | cons row skipped ih =>
      rw [foldl_cons, CleanupState.visitRow, if_pos (hinUse row mem_cons_self)]
      exact ih fun other hother => hinUse other (mem_cons_of_mem _ hother)
  rw [CleanupState.drained, h.pending, foldl_append, hskipped skipped h.inUse]

section

variable (h : Visiting cwd skipped (row :: rows) state)

include h

theorem halfDone (hhalf : HalfDone row state state') (hfree : state.inUse row.worktreePath = false) :
    Visiting cwd skipped (row :: rows) state' where
  steady := hhalf.steady h.steady
  pending := hhalf.pending_eq.trans h.pending
  inUse other hother := (hhalf.inUse_eq h.steady.unique hfree _).trans (h.inUse other hother)

theorem others : ∀ other ∈ skipped ++ rows, other.worktreePath ≠ row.worktreePath := by
  have hsublist : (state.pending cwd).Sublist state.rows := filter_sublist
  have hkeys : ((skipped ++ row :: rows).map CleanupRow.worktreePath).Nodup := by
    rw [← h.pending]
    exact h.steady.keys.sublist (hsublist.map _)
  intro other hother hpath
  rw [map_append, map_cons, nodup_middle, ← map_append] at hkeys
  exact (nodup_cons.mp hkeys).1 (hpath ▸ mem_map_of_mem hother)

theorem pending_filter :
    ((state.rows.filter fun other => !selects row other).filter fun other =>
      other.cwd = cwd && other.status = .pending) = skipped ++ rows := by
  have hsplit : (state.pending cwd).filter (fun other => !selects row other) = skipped ++ rows := by
    have hkept : ∀ other ∈ skipped ++ rows, (!selects row other) = true := by
      intro other hother
      simp [selects, h.others other hother]
    rw [forall_mem_append] at hkept
    rw [h.pending, filter_append, filter_eq_self.mpr hkept.1,
      filter_cons_of_neg (by simp [selects]), filter_eq_self.mpr hkept.2]
  rw [← hsplit, CleanupState.pending, filter_filter, filter_filter]
  exact filter_congr fun other _ => and_comm _ _

theorem mem_pending (hother : other ∈ skipped ++ rows) : other ∈ state.pending cwd := by
  rw [h.pending]
  simp only [mem_append, mem_cons] at hother ⊢
  tauto

theorem removeRow (hfree : state.inUse row.worktreePath = false) :
    Visiting cwd skipped rows
      (((state.setSource row.worktreePath none).deleteBranch row.branch).removeRow row) := by
  have hkeys : ((state.rows.filter fun other => !selects row other).map
      CleanupRow.worktreePath).Nodup :=
    h.steady.keys.sublist (filter_sublist.map _)
  have hartifacts := drainRemoved_eq_filter h.orderly h.steady.unique hfree
  have hstatus : ∀ other ∈ skipped ++ rows,
      (((state.setSource row.worktreePath none).deleteBranch row.branch).removeRow
        row).inUse other.worktreePath = state.inUse other.worktreePath := by
    intro other hother
    have hsame : ({ state with artifacts := state.artifacts.filter fun artifact =>
        artifact.worktreePath ≠ row.worktreePath } : CleanupState).artifactStatus
          other.worktreePath = state.artifactStatus other.worktreePath :=
      artifactStatus_filter (h.others other hother)
    rw [← hartifacts] at hsame
    exact congrArg (fun status => decide (status = some ArtifactStatus.inUse)) hsame
  refine ⟨⟨hkeys, ?_, ?_⟩, h.pending_filter, ?_⟩
  · show UniquePaths (Worktrees.execute _ state.artifacts)
    rw [hartifacts]
    exact List.Nodup.sublist (filter_sublist.map _) h.steady.unique
  · intro other hother
    have hother : other ∈ skipped ++ rows := h.pending_filter ▸ hother
    have horderly := h.steady.orderly other (h.mem_pending hother)
    refine ⟨?_, ?_, ?_⟩
    · intro artifact hartifact hpath
      have hbefore : artifact ∈ state.artifacts := by
        have hkept : artifact ∈ Worktrees.execute [drainRemoved row.worktreePath]
          state.artifacts := hartifact
        rw [hartifacts] at hkept
        exact (mem_filter.mp hkept).1
      exact horderly.artifact artifact hbefore hpath
    · intro tree htree
      refine horderly.branch tree ?_
      have hsource : (state.setSource row.worktreePath none).sources other.worktreePath
          = some tree := htree
      simpa [CleanupState.setSource, h.others other hother] using hsource
    · exact fun entry hentry => horderly.nested entry (mem_filter.mp hentry).1
  · intro other hother
    rw [hstatus other (mem_append_left _ hother)]
    exact h.inUse other hother

theorem retainRow : Visiting cwd skipped rows (state.retainRow row) := by
  have hkept : (state.retainRow row).artifacts = state.artifacts.map fun artifact =>
      if (drainKept row.worktreePath true).guard artifact then
        (drainKept row.worktreePath true).set artifact
      else artifact := rfl
  have hother : ∀ other ∈ skipped ++ rows, ∀ artifact : ArtifactRow,
      artifact.worktreePath = other.worktreePath →
      (if (drainKept row.worktreePath true).guard artifact then
        (drainKept row.worktreePath true).set artifact else artifact) = artifact := by
    intro other hother artifact hpath
    have hne := h.others other hother
    simp [drainKept, hpath, hne]
  have hkey : ∀ artifact : ArtifactRow,
      (if (drainKept row.worktreePath true).guard artifact then
        (drainKept row.worktreePath true).set artifact else artifact).worktreePath
        = artifact.worktreePath := by
    intro artifact
    split <;> rfl
  have hpending : (state.retainRow row).pending cwd = skipped ++ rows := by
    show ((state.rows.filter _) ++ (state.rows.filter _).map _).filter _ = _
    rw [filter_append, h.pending_filter, filter_eq_nil_iff.mpr, append_nil]
    intro retained hretained
    obtain ⟨other, -, rfl⟩ := mem_map.mp hretained
    simp
  refine ⟨⟨?_, ?_, ?_⟩, hpending, ?_⟩
  · have hperm : ((state.retainRow row).rows.map CleanupRow.worktreePath).Perm
        (state.rows.map CleanupRow.worktreePath) := by
      show (((state.rows.filter _) ++ (state.rows.filter _).map _).map _).Perm _
      rw [map_append, map_map]
      have hsplit := ((perm_append_comm.trans
        (filter_append_perm (selects row) state.rows)).map CleanupRow.worktreePath)
      rwa [map_append] at hsplit
    exact hperm.nodup_iff.mpr h.steady.keys
  · have hpaths : (state.retainRow row).artifacts.map ArtifactRow.worktreePath
        = state.artifacts.map ArtifactRow.worktreePath := by
      rw [hkept, map_map]
      exact map_congr_left fun artifact _ => hkey artifact
    rw [UniquePaths, hpaths]
    exact h.steady.unique
  · intro other hin
    have hin : other ∈ skipped ++ rows := hpending ▸ hin
    have horderly := h.steady.orderly other (h.mem_pending hin)
    refine ⟨?_, horderly.branch, horderly.nested⟩
    intro artifact hartifact hpath
    obtain ⟨before, hbefore, rfl⟩ := mem_map.mp hartifact
    rw [hkey] at hpath
    rw [hother other hin before hpath]
    exact horderly.artifact before hbefore hpath
  · intro other hskipped
    have hin : other ∈ skipped ++ rows := mem_append_left _ hskipped
    rw [CleanupState.inUse, artifactStatus_map_of_ne hkept hkey (hother other hin)]
    exact h.inUse other hskipped

theorem settle (hfree : state.inUse row.worktreePath = false) :
    Visiting cwd skipped rows (state.settleRow row) := by
  unfold CleanupState.settleRow
  split
  · exact h.removeRow hfree
  · exact h.retainRow

end

end Visiting

end AgentBridge.Cleanup
