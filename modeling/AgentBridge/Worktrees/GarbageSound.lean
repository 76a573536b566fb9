import AgentBridge.Worktrees.GarbageCollection

/-!
# What the garbage collector touches

The second look of `applyReport` establishes what a removal needs, up to what it does not
read: the statuses that `ACTIVE_PIPELINE_STATUSES` lacks and the registry row itself. What
it establishes must then last until the row is marked, and a row whose directory the
inventory missed is marked with no second look at all.
-/

namespace AgentBridge.Worktrees

open Systems Pipelines List

variable {options : GcOptions} {world world' : GcWorld} {s : GcState} {item : GcItem}
  {projectHash path : String}

/-! ### Uncommitted work -/

def StatusEntry.isLink (entry : StatusEntry) (isSymbolicLink : List Char → Bool) : Bool :=
  entry.loose && isSymbolicLink (withoutLastSlash entry.path)

/-- Nothing uncommitted, untracked or ignored other than a link. -/
def WorktreeTree.Clean (tree : WorktreeTree) : Prop :=
  ∃ entries, tree.entries = some entries ∧
    ∀ entry ∈ entries, entry.isLink tree.isSymbolicLink = true

theorem countRecords_entry (isSymbolicLink : List Char → Bool) (entry : StatusEntry)
    (rest : List (List Char)) :
    countRecords isSymbolicLink (entry.records ++ rest) =
      (if entry.isLink isSymbolicLink then 0 else 1) + countRecords isSymbolicLink rest := by
  obtain ⟨index, worktree, path, source, renamed⟩ := entry
  cases source with
  | none =>
    have hplain : ([index, worktree].any fun c => c == 'R' || c == 'C') = false := by
      simpa [or_assoc, and_assoc] using renamed
    show countRecords isSymbolicLink ((index :: worktree :: ' ' :: path) :: rest) = _
    rw [countRecords.eq_def]
    simp [StatusEntry.isLink, StatusEntry.loose, hplain]
  | some source =>
    have hrenamed : ([index, worktree].any fun c => c == 'R' || c == 'C') = true := by
      simpa [or_assoc] using renamed
    show countRecords isSymbolicLink ((index :: worktree :: ' ' :: path) :: source :: rest) = _
    rw [countRecords.eq_def]
    simp [StatusEntry.isLink, StatusEntry.loose, hrenamed]

theorem countRecords_entries (isSymbolicLink : List Char → Bool) (entries : List StatusEntry) :
    countRecords isSymbolicLink (entries.flatMap (·.records) ++ [[]]) =
      entries.countP fun entry => !entry.isLink isSymbolicLink := by
  induction entries with
  | nil => rfl
  | cons entry entries ih =>
    rw [flatMap_cons, append_assoc, countRecords_entry, ih, countP_cons]
    cases entry.isLink isSymbolicLink with
    | false => simp; omega
    | true => simp

theorem clean_iff (tree : WorktreeTree) :
    tree.Clean ↔ uncommittedWorktreeEntries tree = some 0 := by
  rw [WorktreeTree.Clean, uncommittedWorktreeEntries]
  cases tree.entries with
  | none => simp
  | some entries => simp [countRecords_entries, countP_eq_zero]

/-! ### What the claims of a bridge rest on -/

def DatabaseFile.HeldAt (file : DatabaseFile) (path : String) (now : Nat) : Prop :=
  (∃ row ∈ file.tables.artifacts, row.worktreePath = path ∧
    (row.status = .creating ∨ row.status = .inUse)) ∧
  ∃ process ∈ file.tables.processes,
    file.holder path = some process.instanceId ∧ now < process.leaseExpiresAt

/-- A bridge whose lease has not run out holds the row of the path as `creating` or
`in_use`. -/
def HeldAt (world : GcWorld) (projectHash path : String) : Prop :=
  ∃ file, world.database projectHash = some file ∧ file.HeldAt path world.clock

/-- Nothing in the project uses the worktree. -/
structure Idle (tables : ProjectTables) (path : String) (now : Nat) : Prop where
  jobs : ∀ status ∈ tables.jobs, status.terminal = true
  pipelines : ∀ status ∈ tables.pipelines, status.closed = true
  locks : ∀ lock ∈ tables.locks, lock.expiresAt ≤ now
  leases : ∀ process ∈ tables.processes, process.leaseExpiresAt ≤ now
  operations : ∀ operation ∈ tables.operations, operation.status.resolved = true
  cleanups : ∀ pending ∈ tables.cleanups, pending = false
  row : ∀ row ∈ tables.artifacts, row.worktreePath = path →
    row.status ≠ .inUse ∧ row.status ≠ .cleanupPending

/-- What the active reasons do not tell: every pipeline that is not closed is on the list of
active statuses, and the row is in nobody's use. -/
structure Told (tables : ProjectTables) (path : String) : Prop where
  pipelines : ∀ status ∈ tables.pipelines, status.closed = true ∨ activePipelineStatus status = true
  row : ∀ row ∈ tables.artifacts, row.worktreePath = path →
    row.status ≠ .inUse ∧ row.status ≠ .cleanupPending

theorem countReason_eq_nil {count : Nat} {text : String} :
    countReason count text = [] ↔ count = 0 := by
  rw [countReason]
  split <;> simp <;> omega

theorem terminal_of_not_active {status : QueueStatus} (h : activeQueueStatus status = false) :
    status.terminal = true := by
  cases status <;> first | rfl | cases h

theorem idle_of_no_reason {tables : ProjectTables} {now : Nat}
    (h : activeReasons tables now = []) (told : Told tables path) : Idle tables path now := by
  simp only [activeReasons, append_eq_nil_iff, countReason_eq_nil,
    countP_eq_zero] at h
  obtain ⟨⟨⟨⟨⟨hjobs, hpipelines⟩, hlocks⟩, hleases⟩, hoperations⟩, hcleanups⟩ := h
  constructor
  case jobs =>
    intro status hstatus
    exact terminal_of_not_active (by simpa using hjobs status hstatus)
  case pipelines =>
    intro status hstatus
    exact (told.pipelines status hstatus).resolve_right (hpipelines status hstatus)
  case locks => exact fun lock hlock => by simpa using hlocks lock hlock
  case leases => exact fun process hprocess => by simpa using hleases process hprocess
  case operations =>
    intro operation hoperation
    simpa using hoperations operation hoperation
  case cleanups => exact fun pending hpending => by simpa using hcleanups pending hpending
  case row => exact told.row

theorem not_heldAt_of_no_reason {file : DatabaseFile} {now : Nat}
    (h : activeReasons file.tables now = []) : ¬ file.HeldAt path now := by
  rintro ⟨_, process, hprocess, _, hlease⟩
  simp only [activeReasons, append_eq_nil_iff, countReason_eq_nil,
    countP_eq_zero] at h
  have hexpired := h.1.1.2 process hprocess
  simp at hexpired
  omega

/-! ### What the collector writes -/

theorem dropTree_tree_self (world : GcWorld) (path : String) :
    (world.dropTree path).tree path = none := if_pos rfl

theorem dropTree_tree_none {other : String} (h : world.tree other = none) :
    (world.dropTree path).tree other = none := by
  rw [GcWorld.dropTree]
  dsimp only
  split
  · rfl
  · exact h

/-- Marking rows takes no row up: a row that is `creating` or `in_use` afterwards was so
before. -/
theorem heldAt_of_markCleaned {otherHash otherPath : String}
    (h : HeldAt (world.markCleaned projectHash path) otherHash otherPath) :
    HeldAt world otherHash otherPath := by
  obtain ⟨file', hfile', ⟨row', hrow', hpath, hstatus⟩, hholder⟩ := h
  rw [GcWorld.markCleaned] at hfile'
  dsimp only at hfile'
  split at hfile'
  · next hhash =>
    subst hhash
    obtain ⟨file, hfile, rfl⟩ := Option.map_eq_some_iff.mp hfile'
    refine ⟨file, hfile, ?_⟩
    split at hrow'
    · next hreadable =>
      rw [if_pos hreadable] at hholder
      refine ⟨?_, hholder⟩
      obtain ⟨row, hrow, rfl⟩ := mem_map.mp hrow'
      split at hpath
      · next hguard =>
        rw [if_pos hguard] at hstatus
        rcases hstatus with hstatus | hstatus <;> cases hstatus
      · next hguard =>
        rw [if_neg hguard] at hstatus
        exact ⟨row, hrow, hpath, hstatus⟩
    · next hreadable =>
      rw [if_neg hreadable] at hholder
      exact ⟨⟨row', hrow', hpath, hstatus⟩, hholder⟩
  · exact ⟨file', hfile', ⟨row', hrow', hpath, hstatus⟩, hholder⟩

/-- Whether `markRegistryCleaned` would change a row. -/
def marks (world : GcWorld) (projectHash path : String) : Bool :=
  (world.database projectHash).any fun file =>
    file.readable && file.tables.artifacts.any (markRegistryCleaned world.clock path).guard

/-! ### Soundness -/

/-- Nobody who lives has taken the path up, and its directory is missing. -/
def Abandoned (world : GcWorld) (projectHash path : String) : Prop :=
  world.tree path = none ∧ ¬ HeldAt world projectHash path

/-- A removal follows a check that found the project idle and, unless forced, the worktree
clean; a row is marked when its directory is missing and nobody holds it. -/
def SoundGc (options : GcOptions) (s : GcState) : GcEvent → Prop
  | .remove index _ => ∀ item, s.items[index]? = some item → item.progress = .cleared →
      (∀ tables, item.checkedTables = some tables → Idle tables item.path item.checkedAt) ∧
      (options.forceDirty = false → ∃ tree, item.checkedTree = some tree ∧ tree.Clean)
  | .markRemoved index => ∀ item, s.items[index]? = some item → item.progress = .gone →
      marks s.world item.projectHash item.path = true →
      Abandoned s.world item.projectHash item.path
  | .markStale index => ∀ entry, s.stale[index]? = some entry →
      marks s.world entry.1 entry.2 = true → Abandoned s.world entry.1 entry.2
  | _ => True

/-- The project has been looked at again, and the row is still to be marked. -/
def GcProgress.checked : GcProgress → Bool
  | .quiet | .cleared | .gone => true
  | .listed | .marked | .kept => false

/-- What the collector does not look at does not matter in this step: the active reasons tell
all there is; a row whose directory the inventory misses is held by nobody; and what is
checked or listed stays as it is until its row is marked. -/
def Undisturbed (s : GcState) : GcEvent → Prop
  | .recheckProject index => ∀ item, s.items[index]? = some item →
      ∀ file, s.world.database item.projectHash = some file → Told file.tables item.path
  | .listStale projectHash => ∀ entry ∈ staleRows s projectHash, ¬ HeldAt s.world entry.1 entry.2
  | .live world =>
    (∀ entry ∈ s.stale, Abandoned s.world entry.1 entry.2 → Abandoned world entry.1 entry.2) ∧
    ∀ item ∈ s.items, item.progress.checked = true →
      (¬ HeldAt s.world item.projectHash item.path → ¬ HeldAt world item.projectHash item.path) ∧
      (item.progress = .gone → s.world.tree item.path = none → world.tree item.path = none)
  | _ => True

structure ItemOk (options : GcOptions) (world : GcWorld) (item : GcItem) : Prop where
  direct : item.action = .removeDirectory → options.forceDirty = true
  removable : item.progress.checked = true → item.action ≠ .keep
  idle : item.progress.checked = true → ∀ tables, item.checkedTables = some tables →
    Idle tables item.path item.checkedAt
  unheld : item.progress.checked = true → ¬ HeldAt world item.projectHash item.path
  clean : item.progress = .cleared → options.forceDirty = false →
    ∃ tree, item.checkedTree = some tree ∧ tree.Clean
  absent : item.progress = .gone → world.tree item.path = none

structure Collecting (options : GcOptions) (s : GcState) : Prop where
  items : ∀ item ∈ s.items, ItemOk options s.world item
  stale : ∀ entry ∈ s.stale, Abandoned s.world entry.1 entry.2

theorem ItemOk.withWorld (h : ItemOk options world item)
    (unheld : item.progress.checked = true → ¬ HeldAt world item.projectHash item.path →
      ¬ HeldAt world' item.projectHash item.path)
    (absent : item.progress = .gone → world.tree item.path = none → world'.tree item.path = none) :
    ItemOk options world' item where
  direct := h.direct
  removable := h.removable
  idle := h.idle
  unheld hchecked := unheld hchecked (h.unheld hchecked)
  clean := h.clean
  absent hgone := absent hgone (h.absent hgone)

theorem ItemOk.settled (h : ItemOk options world item) {progress : GcProgress}
    (hprogress : progress.checked = false) :
    ItemOk options world { item with progress := progress } where
  direct := h.direct
  removable hchecked := by rw [hprogress] at hchecked; cases hchecked
  idle hchecked := by rw [hprogress] at hchecked; cases hchecked
  unheld hchecked := by rw [hprogress] at hchecked; cases hchecked
  clean hcleared := by subst hcleared; cases hprogress
  absent hgone := by subst hgone; cases hprogress

theorem Collecting.setItem (h : Collecting options s) {index : Nat} {item : GcItem}
    (hitem : ItemOk options s.world item) : Collecting options (s.setItem index item) := by
  refine ⟨?_, h.stale⟩
  intro other hother
  rcases mem_or_eq_of_mem_set hother with hother | rfl
  · exact h.items other hother
  · exact hitem

/-- The collector's own writes take nothing up and bring nothing back. -/
theorem Collecting.withWorld (h : Collecting options s)
    (unheld : ∀ projectHash path, HeldAt world' projectHash path → HeldAt s.world projectHash path)
    (absent : ∀ path, s.world.tree path = none → world'.tree path = none) :
    Collecting options { s with world := world' } := by
  constructor
  · intro item hitem
    exact (h.items item hitem).withWorld (fun _ hfree hheld => hfree (unheld _ _ hheld))
      (fun _ => absent item.path)
  · intro entry hentry
    obtain ⟨hnone, hfree⟩ := h.stale entry hentry
    exact ⟨absent _ hnone, fun hheld => hfree (unheld _ _ hheld)⟩

theorem collecting_dropTree (h : Collecting options s) (path : String) :
    Collecting options { s with world := s.world.dropTree path } := by
  apply h.withWorld
  · exact fun _ _ hheld => hheld
  · exact fun _ hnone => dropTree_tree_none hnone

theorem collecting_markCleaned (h : Collecting options s) (projectHash path : String) :
    Collecting options { s with world := s.world.markCleaned projectHash path } := by
  apply h.withWorld
  · exact fun _ _ hheld => heldAt_of_markCleaned hheld
  · exact fun _ hnone => hnone

theorem classifyWorktree_direct {projectActive : Bool} {row : Option ArtifactRow}
    {view : EntryView} {tree : WorktreeTree}
    (h : (classifyWorktree options projectActive row view tree).2 = .removeDirectory) :
    options.forceDirty = true := by
  rw [classifyWorktree] at h
  split at h
  · cases h
  · -- Of the ten branches only the one for a missing source removes past git.
    rw [classifyEntry] at h
    split_ifs at h with _ _ _ _ _ _ hforced
    exact hforced.1

theorem newItem_ok (options : GcOptions) (s : GcState) (projectHash path : String)
    (view : EntryView) (tree : WorktreeTree) :
    ItemOk options s.world (newItem options s projectHash path view tree) where
  direct h := classifyWorktree_direct h
  removable h := by cases h
  idle h := by cases h
  unheld h := by cases h
  clean h := by cases h
  absent h := by cases h

theorem staleRows_absent {entry : String × String} (h : entry ∈ staleRows s projectHash) :
    s.world.tree entry.2 = none := by
  rw [staleRows] at h
  split at h
  · cases h
  · obtain ⟨row, hrow, rfl⟩ := mem_map.mp h
    have hmissing := (mem_filter.mp hrow).2
    simp only [Bool.and_eq_true, Option.isNone_iff_eq_none] at hmissing
    exact hmissing.2

/-- The first half of the second look. -/
theorem recheckProject_ok (h : ItemOk options world item)
    (told : ∀ file, world.database item.projectHash = some file → Told file.tables item.path) :
    ItemOk options world (recheckProject world item) := by
  rw [recheckProject]
  split
  · exact h
  · next hlisted =>
    have hkeep : item.action ≠ .keep := fun hkeep => hlisted (Or.inr hkeep)
    split
    · next hnone =>
      constructor
      case direct => exact h.direct
      case removable => exact fun _ => hkeep
      case idle => intro _ tables htables; cases htables
      case unheld =>
        rintro _ ⟨file, hfile, _⟩
        rw [show world.database item.projectHash = some file from hfile] at hnone
        cases hnone
      case clean => intro hcleared; cases hcleared
      case absent => intro hgone; cases hgone
    · next file hfile =>
      split
      · exact h.settled rfl
      · next hquiet =>
        have hreason : activeReasons file.tables world.clock = [] := by
          by_contra hreason
          exact hquiet (Or.inr hreason)
        constructor
        case direct => exact h.direct
        case removable => exact fun _ => hkeep
        case idle =>
          rintro _ tables htables
          cases htables
          exact idle_of_no_reason hreason (told file hfile)
        case unheld =>
          rintro _ ⟨other, hother, hheld⟩
          rw [show world.database item.projectHash = some other from hother] at hfile
          cases hfile
          exact not_heldAt_of_no_reason hreason hheld
        case clean => intro hcleared; cases hcleared
        case absent => intro hgone; cases hgone

/-- The second half: unless forced, git lists nothing but loose links. -/
theorem recheckTree_ok (h : ItemOk options world item) :
    ItemOk options world (recheckTree options world item) := by
  rw [recheckTree]
  split
  · exact h
  · next hprogress =>
    have hquiet : item.progress.checked = true := by
      rw [not_not.mp hprogress]
      rfl
    split
    · split
      · exact h.settled rfl
      · next tree htree =>
        split
        · next hnone =>
          exact ⟨h.direct, fun _ => h.removable hquiet, fun _ => h.idle hquiet,
            fun _ => h.unheld hquiet, fun _ _ => ⟨tree, rfl, (clean_iff tree).mpr hnone⟩,
            fun hgone => by cases hgone⟩
        · exact h.settled rfl
    · next hforced =>
      refine ⟨h.direct, fun _ => h.removable hquiet, fun _ => h.idle hquiet,
        fun _ => h.unheld hquiet, ?_, fun hgone => by cases hgone⟩
      intro _ hforce
      cases haction : item.action with
      | keep => exact absurd haction (h.removable hquiet)
      | removeDirectory =>
        rw [h.direct haction] at hforce
        cases hforce
      | removeWorktree => exact absurd ⟨haction, hforce⟩ hforced

theorem ItemOk.gone (h : ItemOk options world item) (hcleared : item.progress = .cleared)
    (hnone : world.tree item.path = none) :
    ItemOk options world { item with progress := .gone } := by
  have hchecked : item.progress.checked = true := by rw [hcleared]; rfl
  exact ⟨h.direct, fun _ => h.removable hchecked, fun _ => h.idle hchecked,
    fun _ => h.unheld hchecked, fun hmarked => (by cases hmarked), fun _ => hnone⟩

theorem gcStep_remove (h : Collecting options s) (index : Nat) (succeeds : Bool) :
    Collecting options (gcStep options s (.remove index succeeds)) := by
  rw [gcStep]
  split
  · exact h
  · next item hitem =>
    have hok := h.items item (mem_of_getElem? hitem)
    split
    · exact h
    · next hprogress =>
      have hcleared : item.progress = .cleared := not_not.mp hprogress
      split
      · have hdropped := collecting_dropTree h item.path
        refine hdropped.setItem ?_
        exact (hdropped.items item (mem_of_getElem? hitem)).gone hcleared
          (dropTree_tree_self s.world item.path)
      · split
        · next hmissing =>
          exact h.setItem (hok.gone hcleared (Option.isNone_iff_eq_none.mp hmissing))
        · exact h.setItem (hok.settled rfl)

theorem collecting_gcStep (h : Collecting options s) (event : GcEvent)
    (undisturbed : Undisturbed s event) : Collecting options (gcStep options s event) := by
  cases event with
  | live world =>
    constructor
    · intro item hitem
      refine (h.items item hitem).withWorld ?_ ?_
      · exact fun hchecked => (undisturbed.2 item hitem hchecked).1
      · intro hgone
        have hchecked : item.progress.checked = true := by rw [hgone]; rfl
        exact (undisturbed.2 item hitem hchecked).2 hgone
    · exact fun entry hentry => undisturbed.1 entry hentry (h.stale entry hentry)
  | inspect projectHash =>
    rw [gcStep]
    split
    · exact h
    · exact ⟨h.items, h.stale⟩
  | examine projectHash path view =>
    rw [gcStep]
    split
    · exact h
    · next tree htree =>
      refine ⟨?_, h.stale⟩
      intro item hitem
      rcases mem_append.mp hitem with hitem | hitem
      · exact h.items item hitem
      · rw [mem_singleton.mp hitem]
        exact newItem_ok options s projectHash path view tree
  | listStale projectHash =>
    refine ⟨h.items, ?_⟩
    intro entry hentry
    rcases mem_append.mp hentry with hentry | hentry
    · exact h.stale entry hentry
    · exact ⟨staleRows_absent hentry, undisturbed entry hentry⟩
  | recheckProject index =>
    rw [gcStep]
    split
    · exact h
    · next item hitem =>
      have hok := h.items item (mem_of_getElem? hitem)
      exact h.setItem (recheckProject_ok hok (undisturbed item hitem))
  | recheckTree index =>
    rw [gcStep]
    split
    · exact h
    · next item hitem =>
      exact h.setItem (recheckTree_ok (h.items item (mem_of_getElem? hitem)))
  | remove index succeeds => exact gcStep_remove h index succeeds
  | markRemoved index =>
    rw [gcStep]
    split
    · exact h
    · next item hitem =>
      split
      · exact h
      · have hmarked := collecting_markCleaned h item.projectHash item.path
        refine hmarked.setItem ?_
        exact (hmarked.items item (mem_of_getElem? hitem)).settled rfl
  | markStale index =>
    rw [gcStep]
    split
    · exact h
    · exact collecting_markCleaned h _ _

theorem soundGc_of_collecting (h : Collecting options s) (event : GcEvent) :
    SoundGc options s event := by
  cases event with
  | remove index succeeds =>
    intro item hitem hcleared
    have hok := h.items item (mem_of_getElem? hitem)
    exact ⟨hok.idle (by rw [hcleared]; rfl), hok.clean hcleared⟩
  | markRemoved index =>
    intro item hitem hgone _
    have hok := h.items item (mem_of_getElem? hitem)
    exact ⟨hok.absent hgone, hok.unheld (by rw [hgone]; rfl)⟩
  | markStale index =>
    intro entry hentry _
    exact h.stale entry (mem_of_getElem? hentry)
  | live | inspect | examine | listStale | recheckProject | recheckTree => trivial

/-- In a run that nothing the collector does not look at disturbs, every removal and every
mark is sound. -/
theorem gc_touches_nothing_in_use (options : GcOptions) (world : GcWorld)
    (events : List GcEvent)
    (undisturbed : Along (gcStep options) Undisturbed (.initial world) events) :
    Along (gcStep options) (SoundGc options) (.initial world) events := by
  have initial : Collecting options (.initial world) := by
    constructor
    · intro item hitem
      cases hitem
    · intro entry hentry
      cases hentry
  have preserved : ∀ s event, Collecting options s → Undisturbed s event →
      Collecting options (gcStep options s event) :=
    fun _ event h hevent => collecting_gcStep h event hevent
  exact Along.of_invariant preserved (fun _ event h _ => soundGc_of_collecting h event) initial
    undisturbed

/-- A project with one worktree, `/w`. -/
def oneWorktree (pipelines : List RecordStatus) (processes : List BridgeProcess)
    (status : ArtifactStatus) (tree : Option WorktreeTree) : GcWorld where
  clock := 10
  database _ := some
    { tables :=
        { jobs := []
          pipelines := pipelines
          locks := []
          processes := processes
          operations := []
          cleanups := []
          artifacts := [⟨"/w", [], "b", "j", status, 0, none⟩] }
      readable := true
      holder := fun _ => some "i" }
  tree path := if path = "/w" then tree else none

def lastWeek : EntryView := ⟨true, .linked, some "/p", .present, 8⟩

/-- A finished project: its retained worktree holds an untracked link only. -/
theorem gc_touches_nothing_in_use_of_finished :
    Along (gcStep ⟨true, false, 7⟩) (SoundGc ⟨true, false, 7⟩)
      (.initial (oneWorktree [.completed] [⟨"i", 1, 9⟩] .retained
        (some ⟨some [⟨'?', '?', ['l'], none, rfl⟩], fun _ => true⟩)))
      [.inspect "h", .examine "h" "/w" lastWeek, .recheckProject 0, .recheckTree 0,
        .remove 0 true, .markRemoved 0] := by
  refine gc_touches_nothing_in_use _ _ _ ⟨trivial, trivial, ?_, trivial, trivial, trivial, trivial⟩
  rintro item hitem file hfile
  cases hitem
  cases hfile
  constructor
  · decide
  · decide

/-- The row of a worktree that a live bridge is about to create is marked; a worktree goes
while its pipeline waits for finalization, and while its row is `in_use`. -/
theorem gc_touches_what_is_in_use :
    ¬ Along (gcStep ⟨true, false, 7⟩) (SoundGc ⟨true, false, 7⟩)
        (.initial (oneWorktree [] [⟨"i", 1, 99⟩] .creating none))
        [.inspect "h", .listStale "h", .markStale 0] ∧
    ¬ Along (gcStep ⟨true, false, 7⟩) (SoundGc ⟨true, false, 7⟩)
        (.initial
          (oneWorktree [.awaitingFinalization] [] .retained (some ⟨some [], fun _ => false⟩)))
        [.inspect "h", .examine "h" "/w" lastWeek, .recheckProject 0, .recheckTree 0,
          .remove 0 true] ∧
    ¬ Along (gcStep ⟨true, false, 7⟩) (SoundGc ⟨true, false, 7⟩)
        (.initial (oneWorktree [] [] .retained (some ⟨some [], fun _ => false⟩)))
        [.inspect "h", .examine "h" "/w" lastWeek,
          .live (oneWorktree [] [⟨"i", 1, 9⟩] .inUse (some ⟨some [], fun _ => false⟩)),
          .recheckProject 0, .recheckTree 0, .remove 0 true] := by
  refine ⟨?_, ?_, ?_⟩
  · rintro ⟨_, _, hmark, _⟩
    refine (hmark ("h", "/w") rfl rfl).2 ⟨_, rfl, ?_, ?_⟩
    · exact ⟨_, mem_singleton_self _, rfl, Or.inl rfl⟩
    · exact ⟨_, mem_singleton_self _, rfl, by decide⟩
  · rintro ⟨_, _, _, _, hremove, _⟩
    have hidle := (hremove _ rfl rfl).1 _ rfl
    exact absurd (hidle.pipelines _ (mem_singleton_self _)) (by decide)
  · rintro ⟨_, _, _, _, _, hremove, _⟩
    have hidle := (hremove _ rfl rfl).1 _ rfl
    exact absurd rfl (hidle.row _ (mem_singleton_self _) rfl).1

end AgentBridge.Worktrees
