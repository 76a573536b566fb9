import AgentBridge.Queue.AutoIntegration

/-!
# One process integrates a job

A process holds the claim of a job from the moment its claim is written until it has
recorded an outcome, given up, or ended. The invariant says that the row names every
holder, so there is one at most, and that a claim which was read as free is still free
when its write succeeds. Both rest on one thing: nobody takes a claim from a process that
runs. The liveness test gives that; the age of a claim does not.
-/

namespace AgentBridge.Queue

open Systems List Bool

/-! ### What a run guarantees -/

/-- The process runs, was granted the claim, and has not settled the job. -/
def IntegrationState.holds (s : IntegrationState) (id : BridgeInstanceId) : Bool :=
  s.host.live.contains id && (s.task id).claimed

/-- The patch that an event writes to the row. -/
def writtenPatch (s : IntegrationState) : IntegrationEvent → Option (BridgeInstanceId × PatchKind)
  | .write id =>
    match s.task id with
    | .patching _ patch =>
      match patch.row with
      | some read => if s.row.revision = read.revision then some (id, patch.kind) else none
      | none => none
    | _ => none
  | _ => none

/-- The same result under the same name; the cleanup notes may differ. -/
def SameOutcome (current found : AutoIntegration) : Prop :=
  current.status = found.status ∧ current.claimedBy = found.claimedBy

structure ExclusiveStep (s : IntegrationState) (event : IntegrationEvent) : Prop where
  /-- At most one live process holds the claim. -/
  holder : ∀ p q, (integrationStep s event).holds p = true →
    (integrationStep s event).holds q = true → p = q
  /-- A claim of a live process is not taken over. -/
  notTaken : ∀ id, writtenPatch s event = some (id, .claim) →
    ∀ current q, s.row.value.autoIntegration = some current → current.claimedBy = some q →
      q ∈ s.host.live → q = id
  /-- An outcome is recorded by the holder, whom the row names. -/
  recorded : ∀ id, writtenPatch s event = some (id, .outcome) →
    s.holds id = true ∧
      ∃ current, s.row.value.autoIntegration = some current ∧ current.claimedBy = some id
  /-- A final outcome stays. -/
  final : ∀ current, s.row.value.autoIntegration = some current → current.status.final = true →
    ∃ kept, (integrationStep s event).row.value.autoIntegration = some kept ∧
      SameOutcome kept current

/-- Before any bridge process runs: what earlier processes left in the row. -/
structure BeforeBridges (s : IntegrationState) : Prop where
  live : s.host.live = []
  tasks : ∀ id, s.task id = .idle
  sweeps : s.sweeps = []
  claimer : ∀ current q, s.row.value.autoIntegration = some current →
    current.claimedBy = some q → q ∈ s.started

/-- No attempt to claim the job reads an open claim of another live process that is older
than the limit: every process settles the job, or renews its claim, in time. -/
def withinStaleLimit (s : IntegrationState) : IntegrationEvent → Bool
  | .read id now =>
    match s.task id, s.row.value.autoIntegration with
    | .patching _ patch, some current =>
      patch.kind != .claim || current.status.final
        || !(s.host.live.any fun other => other != id && current.claimedBy == some other)
        || claimAge now current ≤ autoIntegrationClaimStaleMs
    | _, _ => true
  | _ => true

/-! ### The invariant -/

variable {row' value : IntegratedJob}

section Invariant

variable {live started : List BridgeInstanceId} {id : BridgeInstanceId}
  {row : Versioned IntegratedJob} {task : IntegrationTask}

/-- The row names the process and is still open. -/
def NamesHolder (row : IntegratedJob) (id : BridgeInstanceId) : Prop :=
  ∃ current, row.autoIntegration = some current ∧ current.claimedBy = some id ∧
    current.status.final = false

/-- The process may claim: the row is open, and whoever it names is the process itself or
has ended. -/
def FreeFor (live started : List BridgeInstanceId) (id : BridgeInstanceId)
    (row : IntegratedJob) : Prop :=
  ∀ current, row.autoIntegration = some current → current.status.final = false ∧
    ∀ q, current.claimedBy = some q → q ∈ started ∧ (q ∈ live → q = id)

structure OwnFields (id : BridgeInstanceId) (claimed : Bool) (patch : Patch) : Prop where
  claimedBy : patch.fields.claimedBy = some id
  claim : patch.kind = .claim → patch.fields.status.final = false
  outcome : patch.kind = .outcome → claimed = true

structure TaskSound (live started : List BridgeInstanceId) (row : Versioned IntegratedJob)
    (id : BridgeInstanceId) (task : IntegrationTask) : Prop where
  running : task ≠ .idle → id ∈ live
  holds : task.claimed = true → NamesHolder row.value id
  fields : ∀ claimed patch, task = .patching claimed patch → OwnFields id claimed patch
  read : ∀ claimed patch read, task = .patching claimed patch → patch.row = some read →
    row.ReadFrom read ∧ (patch.kind = .claim → FreeFor live started id read.value)

/-- A sweep found a final outcome, which the row still holds. -/
structure SweepSound (row : IntegratedJob) (sweep : Sweep) : Prop where
  final : sweep.found.status.final = true
  kept : ∃ current, row.autoIntegration = some current ∧ SameOutcome current sweep.found

structure ClaimInvariant (s : IntegrationState) : Prop where
  started : ∀ id ∈ s.host.live, id ∈ s.started
  claimer : ∀ current q, s.row.value.autoIntegration = some current →
    current.claimedBy = some q → q ∈ s.started
  tasks : ∀ id, TaskSound s.host.live s.started s.row id (s.task id)
  sweeps : ∀ sweep ∈ s.sweeps, SweepSound s.row.value sweep

theorem NamesHolder.unique {row : IntegratedJob} {p q : BridgeInstanceId}
    (hp : NamesHolder row p) (hq : NamesHolder row q) : p = q := by
  obtain ⟨current, hcurrent, hclaimer, -⟩ := hp
  obtain ⟨current', hcurrent', hclaimer', -⟩ := hq
  rw [hcurrent] at hcurrent'
  cases hcurrent'
  rw [hclaimer] at hclaimer'
  exact Option.some.inj hclaimer'

theorem TaskSound.idle : TaskSound live started row id .idle where
  running := fun h => absurd rfl h
  holds := fun h => by cases h
  fields := fun _ _ h => by cases h
  read := fun _ _ _ h => by cases h

/-- A process that does not hold the claim does not care who writes. -/
theorem TaskSound.next_of_unclaimed (h : TaskSound live started row id task)
    (unclaimed : task.claimed = false) (value : IntegratedJob) :
    TaskSound live started (row.next value) id task where
  running := h.running
  holds := fun hclaimed => by rw [unclaimed] at hclaimed; cases hclaimed
  fields := h.fields
  read := by
    intro claimed patch read htask hread
    obtain ⟨hfrom, hfree⟩ := h.read claimed patch read htask hread
    exact ⟨hfrom.next value, hfree⟩

def KeepsOutcome (row row' : IntegratedJob) : Prop :=
  (row.autoIntegration = none ∧ row'.autoIntegration = none) ∨
    ∃ current kept, row.autoIntegration = some current ∧ row'.autoIntegration = some kept ∧
      SameOutcome kept current

theorem KeepsOutcome.some {row : IntegratedJob} (h : KeepsOutcome row row')
    {current : AutoIntegration} (hcurrent : row.autoIntegration = some current) :
    ∃ kept, row'.autoIntegration = some kept ∧ SameOutcome kept current := by
  cases h with
  | inl hnone =>
    rw [hnone.1] at hcurrent
    cases hcurrent
  | inr hsome =>
    obtain ⟨found, kept, hfound, hkept, hsame⟩ := hsome
    rw [hfound] at hcurrent
    cases hcurrent
    exact ⟨kept, hkept, hsame⟩

theorem KeepsOutcome.of_some {row : IntegratedJob} (h : KeepsOutcome row row')
    {kept : AutoIntegration} (hkept : row'.autoIntegration = .some kept) :
    ∃ current, row.autoIntegration = .some current ∧ SameOutcome kept current := by
  cases h with
  | inl hnone =>
    rw [hnone.2] at hkept
    cases hkept
  | inr hsome =>
    obtain ⟨current, kept', hcurrent, hkept', hsame⟩ := hsome
    rw [hkept] at hkept'
    cases hkept'
    exact ⟨current, hcurrent, hsame⟩

theorem TaskSound.next_of_kept (h : TaskSound live started row id task)
    (hkeeps : KeepsOutcome row.value value) : TaskSound live started (row.next value) id task where
  running := h.running
  holds := by
    intro hclaimed
    obtain ⟨current, hcurrent, hclaimer, hopen⟩ := h.holds hclaimed
    obtain ⟨kept, hkept, hstatus, hname⟩ := hkeeps.some hcurrent
    exact ⟨kept, hkept, hname.trans hclaimer, hstatus ▸ hopen⟩
  fields := h.fields
  read := by
    intro claimed patch read htask hread
    obtain ⟨hfrom, hfree⟩ := h.read claimed patch read htask hread
    exact ⟨hfrom.next value, hfree⟩

end Invariant

section Steps

variable {s : IntegrationState}

@[simp] theorem setTask_self (s : IntegrationState) (id : BridgeInstanceId)
    (task : IntegrationTask) : (s.setTask id task).task id = task := by
  simp [IntegrationState.setTask]

theorem setTask_other {id other : BridgeInstanceId} (hne : other ≠ id) (task : IntegrationTask) :
    (s.setTask id task).task other = s.task other := by
  simp [IntegrationState.setTask, hne]

theorem ClaimInvariant.setTask (h : ClaimInvariant s) {id : BridgeInstanceId}
    {task : IntegrationTask} (sound : TaskSound s.host.live s.started s.row id task) :
    ClaimInvariant (s.setTask id task) where
  started := h.started
  claimer := h.claimer
  sweeps := h.sweeps
  tasks := by
    intro other
    by_cases heq : other = id
    · rw [heq, setTask_self]
      exact sound
    · rw [setTask_other heq]
      exact h.tasks other

theorem ClaimInvariant.keepOutcome (h : ClaimInvariant s)
    (hkeeps : KeepsOutcome s.row.value value) :
    ClaimInvariant { s with row := s.row.next value } where
  started := h.started
  claimer := by
    intro kept q hkept hq
    obtain ⟨current, hcurrent, -, hname⟩ := hkeeps.of_some hkept
    exact h.claimer current q hcurrent (hname ▸ hq)
  tasks := fun id => (h.tasks id).next_of_kept hkeeps
  sweeps := by
    intro sweep hsweep
    obtain ⟨hfinal, current, hcurrent, hstatus, hname⟩ := h.sweeps sweep hsweep
    obtain ⟨kept, hkept, hstatus', hname'⟩ := hkeeps.some hcurrent
    exact ⟨hfinal, kept, hkept, hstatus'.trans hstatus, hname'.trans hname⟩

theorem ClaimInvariant.writeKept (h : ClaimInvariant s) (expected : Nat)
    (hkeeps : s.row.revision = expected → KeepsOutcome s.row.value value) :
    ClaimInvariant { s with row := (s.row.writeAt expected value).2 } := by
  unfold Versioned.writeAt
  split
  · next hsame => exact h.keepOutcome (hkeeps hsame)
  · exact h

/-! ### The events of the host -/

/-- Instances may start under new ids and stop, but not the one that runs the task. -/
theorem TaskSound.world {live started live' started' : List BridgeInstanceId}
    {row : Versioned IntegratedJob} {id : BridgeInstanceId} {task : IntegrationTask}
    (h : TaskSound live started row id task) (own : id ∈ live → id ∈ live')
    (known : ∀ q ∈ started, q ∈ started') (alive : ∀ q ∈ started, q ∈ live' → q ∈ live) :
    TaskSound live' started' row id task where
  running := fun hbusy => own (h.running hbusy)
  holds := h.holds
  fields := h.fields
  read := by
    intro claimed patch read htask hread
    obtain ⟨hfrom, hfree⟩ := h.read claimed patch read htask hread
    refine ⟨hfrom, fun hkind current hcurrent => ⟨(hfree hkind current hcurrent).1, ?_⟩⟩
    intro q hq
    obtain ⟨hstarted, hself⟩ := (hfree hkind current hcurrent).2 q hq
    exact ⟨known q hstarted, fun hlive => hself (alive q hstarted hlive)⟩

theorem ClaimInvariant.start (h : ClaimInvariant s) {new : BridgeInstanceId}
    (fresh : new ∉ s.started) :
    ClaimInvariant { s with
      host := { s.host with live := new :: s.host.live }
      started := new :: s.started } where
  started := by
    intro id hid
    cases mem_cons.mp hid with
    | inl heq => exact mem_cons.mpr (.inl heq)
    | inr hold => exact mem_cons_of_mem _ (h.started id hold)
  claimer := fun current q hcurrent hq =>
    mem_cons_of_mem _ (h.claimer current q hcurrent hq)
  tasks := by
    refine fun id => (h.tasks id).world (mem_cons_of_mem _) (fun _ => mem_cons_of_mem _) ?_
    intro q hstarted hlive
    exact (mem_cons.mp hlive).resolve_left fun heq => fresh (heq ▸ hstarted)
  sweeps := h.sweeps

theorem ClaimInvariant.stop (h : ClaimInvariant s) (gone : BridgeInstanceId) :
    ClaimInvariant (integrationStep s (.stop gone)) where
  started := fun id hid => h.started id (mem_filter.mp hid).1
  claimer := h.claimer
  tasks := by
    intro id
    by_cases heq : id = gone
    · have hidle : (integrationStep s (.stop gone)).task id = .idle := by
        simp [integrationStep, IntegrationState.setTask, heq]
      rw [hidle]
      exact .idle
    · have hother : (integrationStep s (.stop gone)).task id = s.task id := by
        simp [integrationStep, IntegrationState.setTask, heq]
      rw [hother]
      exact (h.tasks id).world (fun hlive => mem_filter.mpr ⟨hlive, by simpa using heq⟩)
        (fun _ h => h) (fun _ _ hlive => (mem_filter.mp hlive).1)
  sweeps := fun sweep hsweep => h.sweeps sweep (mem_filter.mp hsweep).1

/-! ### The attempts of a patch -/

variable {now : Nat}

/-- The claimer is gone only if it does not run: its own process id is alive while it does. -/
theorem not_live_of_gone {host : BridgeHost} {q : BridgeInstanceId}
    (h : autoIntegrationClaimerGone host now (some q) = true) : q ∉ host.live := by
  intro hlive
  have halive : processIsAlive host q.processId = true := by
    have hmem : (host.live.map BridgeInstanceId.processId).contains q.processId = true :=
      elem_eq_true_of_mem (mem_map_of_mem hlive)
    simp only [processIsAlive, hmem, Bool.true_or, Bool.and_true, decide_eq_true_eq]
    exact q.processId_pos
  simp [autoIntegrationClaimerGone, halive] at h

variable {claimed : Bool} {patch : Patch}

theorem freeFor_of_allowed (h : ClaimInvariant s) {id : BridgeInstanceId}
    (htask : s.task id = .patching claimed patch) (hkind : patch.kind = .claim)
    (within : withinStaleLimit s (.read id now) = true)
    (hallowed : claimAllowed s.host id now s.row.value = true) :
    FreeFor s.host.live s.started id s.row.value := by
  intro current hcurrent
  simp only [claimAllowed, hcurrent] at hallowed
  split at hallowed
  · cases hallowed
  split at hallowed
  · cases hallowed
  next hopen =>
    rw [not_eq_true] at hopen
    refine ⟨hopen, fun q hq => ⟨h.claimer current q hcurrent hq, fun hlive => ?_⟩⟩
    simp only [or_eq_true, beq_iff_eq, decide_eq_true_eq] at hallowed
    rcases hallowed with (hself | hgone) | hold
    · rw [hq] at hself
      exact Option.some.inj hself
    · rw [hq] at hgone
      exact absurd hlive (not_live_of_gone hgone)
    · by_contra hne
      have hother : (s.host.live.any fun other =>
          other != id && current.claimedBy == some other) = true := by
        rw [any_eq_true]
        exact ⟨q, hlive, by simp [hne, hq]⟩
      simp only [withinStaleLimit, htask, hcurrent, hkind, hopen, hother, bne_self_eq_false,
        Bool.not_true, Bool.or_false, Bool.false_or, decide_eq_true_eq] at within
      omega

theorem ClaimInvariant.readPatch (h : ClaimInvariant s) {id : BridgeInstanceId}
    (htask : s.task id = .patching claimed patch)
    (within : withinStaleLimit s (.read id now) = true) :
    ClaimInvariant (readPatch s id now claimed patch) := by
  have hsound := h.tasks id
  simp only [Queue.readPatch]
  split
  · next hpassed =>
    apply h.setTask
    constructor
    · exact fun _ => hsound.running (by rw [htask]; exact IntegrationTask.noConfusion)
    · intro hclaimed
      exact hsound.holds (by rw [htask]; exact hclaimed)
    · intro claimed' patch' heq
      cases heq
      obtain ⟨hname, hclaim, houtcome⟩ := hsound.fields claimed patch htask
      exact ⟨hname, hclaim, houtcome⟩
    · intro claimed' patch' read heq hread
      cases heq
      cases hread
      refine ⟨.refl s.row, fun hkind => ?_⟩
      have hkind' : patch.kind = .claim := hkind
      rw [hkind', and_eq_true] at hpassed
      exact freeFor_of_allowed h htask hkind' within hpassed.2
  · exact h.setTask .idle

theorem ClaimInvariant.unclaimed (h : ClaimInvariant s) {id other : BridgeInstanceId}
    (hfree : FreeFor s.host.live s.started id s.row.value) (hne : other ≠ id) :
    (s.task other).claimed = false := by
  rw [← not_eq_true]
  intro hclaimed
  obtain ⟨current, hcurrent, hclaimer, -⟩ := (h.tasks other).holds hclaimed
  have hbusy : s.task other ≠ .idle := by
    intro hidle
    rw [hidle] at hclaimed
    cases hclaimed
  have hlive : other ∈ s.host.live := (h.tasks other).running hbusy
  exact hne (((hfree current hcurrent).2 other hclaimer).2 hlive)

/-- A process that holds the claim is the only one that may change the row's outcome. -/
theorem FreeFor.of_names {live started : List BridgeInstanceId} {row : IntegratedJob}
    {id : BridgeInstanceId} (h : NamesHolder row id) (hstarted : id ∈ started) :
    FreeFor live started id row := by
  intro current hcurrent
  obtain ⟨named, hnamed, hclaimer, hopen⟩ := h
  rw [hcurrent] at hnamed
  cases hnamed
  refine ⟨hopen, fun q hq => ?_⟩
  rw [hclaimer] at hq
  cases hq
  exact ⟨hstarted, fun _ => rfl⟩

theorem ClaimInvariant.free_of_write (h : ClaimInvariant s) {id : BridgeInstanceId}
    {read : Versioned IntegratedJob} (htask : s.task id = .patching claimed patch)
    (hread : patch.row = some read) (hsame : s.row.revision = read.revision) :
    FreeFor s.host.live s.started id s.row.value := by
  have hsound := h.tasks id
  cases hkind : patch.kind with
  | claim =>
    obtain ⟨hfrom, hfree⟩ := hsound.read claimed patch read htask hread
    rw [← hfrom.same hsame.symm]
    exact hfree hkind
  | outcome =>
    have hclaimed : claimed = true := (hsound.fields claimed patch htask).outcome hkind
    have hholds : NamesHolder s.row.value id :=
      hsound.holds (by rw [htask]; exact hclaimed)
    have hlive : id ∈ s.host.live :=
      hsound.running (by rw [htask]; exact IntegrationTask.noConfusion)
    exact .of_names hholds (h.started id hlive)

theorem ClaimInvariant.patched (h : ClaimInvariant s) {id : BridgeInstanceId}
    (htask : s.task id = .patching claimed patch)
    (hfree : FreeFor s.host.live s.started id s.row.value)
    (hvalue : value.autoIntegration = some patch.fields) :
    ClaimInvariant ({ s with row := s.row.next value }.setTask id
      (match patch.kind with | .claim => .integrating | .outcome => .idle)) := by
  have hsound := h.tasks id
  obtain ⟨hname, hclaim, -⟩ := hsound.fields claimed patch htask
  have hlive : id ∈ s.host.live :=
    hsound.running (by rw [htask]; exact IntegrationTask.noConfusion)
  constructor
  · exact h.started
  · intro current q hcurrent hq
    have hwritten : value.autoIntegration = some current := hcurrent
    rw [hvalue] at hwritten
    cases hwritten
    rw [hname] at hq
    cases hq
    exact h.started id hlive
  · intro other
    by_cases heq : other = id
    · rw [heq, setTask_self]
      cases hkind : patch.kind with
      | claim =>
        constructor
        · exact fun _ => hlive
        · exact fun _ => ⟨patch.fields, hvalue, hname, hclaim hkind⟩
        · intro claimed' patch' hpatching
          cases hpatching
        · intro claimed' patch' read hpatching
          cases hpatching
      | outcome => exact .idle
    · rw [setTask_other heq]
      exact (h.tasks other).next_of_unclaimed (h.unclaimed hfree heq) value
  · intro sweep hsweep
    obtain ⟨hfinal, current, hcurrent, hstatus, -⟩ := h.sweeps sweep hsweep
    have hopen := (hfree current hcurrent).1
    rw [hstatus, hfinal] at hopen
    cases hopen

theorem ClaimInvariant.writePatch (h : ClaimInvariant s) {id : BridgeInstanceId}
    {read : Versioned IntegratedJob} (htask : s.task id = .patching claimed patch)
    (hread : patch.row = some read) : ClaimInvariant (writePatch s id claimed patch read) := by
  have hsound := h.tasks id
  simp only [Queue.writePatch]
  split
  · next hwritten =>
    obtain ⟨hfrom, -⟩ := hsound.read claimed patch read htask hread
    have hsame : s.row.revision = read.revision := by
      by_contra hne
      simp [Versioned.writeAt, hne] at hwritten
    rw [(hfrom.of_writeAt hwritten).2]
    exact h.patched htask (h.free_of_write htask hread hsame) rfl
  split
  · apply h.setTask
    constructor
    · exact fun _ => hsound.running (by rw [htask]; exact IntegrationTask.noConfusion)
    · exact fun hclaimed => hsound.holds (by rw [htask]; exact hclaimed)
    · intro claimed' patch' heq
      cases heq
      obtain ⟨hname, hclaim, houtcome⟩ := hsound.fields claimed patch htask
      exact ⟨hname, hclaim, houtcome⟩
    · intro claimed' patch' read' heq hrow
      cases heq
      cases hrow
  · exact h.setTask .idle

/-! ### One step -/

theorem keepsOutcome_refl (row : IntegratedJob) : KeepsOutcome row row := by
  cases hcurrent : row.autoIntegration with
  | none => exact .inl ⟨hcurrent, hcurrent⟩
  | some current => exact .inr ⟨current, current, hcurrent, hcurrent, rfl, rfl⟩

theorem keepsOutcome_markSwept (row : IntegratedJob) : KeepsOutcome row (markSwept row) := by
  cases hcurrent : row.autoIntegration with
  | none => exact .inl ⟨hcurrent, by simp [markSwept, hcurrent]⟩
  | some current =>
    exact .inr ⟨current, { current with worktreeSweepDone := true }, hcurrent,
      by simp [markSwept, hcurrent], rfl, rfl⟩

theorem SweepSound.keepsOutcome {row : IntegratedJob} {sweep : Sweep} (h : SweepSound row sweep)
    {fields : AutoIntegration} (hsame : SameOutcome fields sweep.found)
    (hrow : row'.autoIntegration = some fields) : KeepsOutcome row row' := by
  obtain ⟨-, current, hcurrent, hstatus, hname⟩ := h
  exact .inr ⟨current, fields, hcurrent, hrow, hsame.1.trans hstatus.symm,
    hsame.2.trans hname.symm⟩

theorem sweepable_some {row : IntegratedJob} {found : AutoIntegration}
    (h : sweepable row = some found) :
    row.autoIntegration = some found ∧ found.status.final = true := by
  unfold sweepable at h
  split at h
  · cases h
  split at h
  · next current hcurrent hsettled =>
    cases h
    refine ⟨hcurrent, ?_⟩
    simp only [and_eq_true, or_eq_true, beq_iff_eq] at hsettled
    rcases hsettled.1.2 with hstatus | hstatus <;> rw [hstatus] <;> rfl
  · cases h

theorem claimInvariant_step (event : IntegrationEvent) (h : ClaimInvariant s)
    (within : withinStaleLimit s event = true) : ClaimInvariant (integrationStep s event) := by
  cases event with
  | start id =>
    simp only [integrationStep]
    split
    · exact h
    · next hfresh => exact h.start (by simpa using hfresh)
  | stop id => exact h.stop id
  | environment otherProcesses bridgeInstances =>
    exact ⟨h.started, h.claimer, h.tasks, h.sweeps⟩
  | claim id claimedAt =>
    simp only [integrationStep]
    split
    · next hlive =>
      split
      · exact h
      · apply h.setTask
        constructor
        · exact fun _ => contains_iff_mem.mp hlive
        · exact fun hclaimed => (h.tasks id).holds hclaimed
        · intro claimed patch heq
          cases heq
          exact ⟨rfl, fun _ => rfl, fun hkind => by cases hkind⟩
        · intro claimed patch read heq hread
          cases heq
          cases hread
    · exact h
  | record id recordedAt worktreeIsMissing fields =>
    simp only [integrationStep]
    split
    · next htask =>
      have hsound := h.tasks id
      apply h.setTask
      constructor
      · exact fun _ => hsound.running (by rw [htask]; exact IntegrationTask.noConfusion)
      · exact fun _ => hsound.holds (by rw [htask]; rfl)
      · intro claimed patch heq
        cases heq
        exact ⟨rfl, fun hkind => (by cases hkind), fun _ => rfl⟩
      · intro claimed patch read heq hread
        cases heq
        cases hread
    · exact h
  | read id now =>
    simp only [integrationStep]
    split
    · next htask =>
      split
      · exact h.readPatch htask within
      · exact h
    · exact h
  | write id =>
    simp only [integrationStep]
    split
    · next htask =>
      split
      · exact h
      · next hread => exact h.writePatch htask hread
    · exact h
  | throw id => exact h.setTask .idle
  | sweepFind id =>
    simp only [integrationStep]
    split
    · split
      · exact h
      · next found hfound =>
        obtain ⟨hcurrent, hfinal⟩ := sweepable_some hfound
        refine ⟨h.started, h.claimer, h.tasks, fun sweep hsweep => ?_⟩
        cases mem_append.mp hsweep with
        | inl hold => exact h.sweeps sweep hold
        | inr hnew =>
          rw [mem_singleton.mp hnew]
          exact ⟨hfinal, found, hcurrent, rfl, rfl⟩
    · exact h
  | sweepMark index =>
    simp only [integrationStep]
    split
    · exact h
    · next sweep hsweep =>
      have hkept := h.writeKept sweep.row.revision fun _ => keepsOutcome_markSwept s.row.value
      refine ⟨hkept.started, hkept.claimer, hkept.tasks, fun other hother => ?_⟩
      exact hkept.sweeps other (mem_of_mem_eraseIdx hother)
  | sweepRead index =>
    refine ⟨h.started, h.claimer, h.tasks, fun sweep hsweep => ?_⟩
    cases mem_of_mem_modify hsweep with
    | inl hold => exact h.sweeps sweep hold
    | inr hread =>
      obtain ⟨found, hfound, rfl⟩ := hread
      have hsound := h.sweeps found (mem_of_getElem? hfound)
      split
      · exact ⟨hsound.final, hsound.kept⟩
      · exact hsound
  | sweepWrite index worktreeIsMissing worktreeCleanup =>
    simp only [integrationStep]
    split
    · exact h
    · next sweep hsweep =>
      split
      · exact h
      · next read hread =>
        have hsound := h.sweeps sweep (mem_of_getElem? hsweep)
        have hsame : SameOutcome
            (sweepFields sweep.found worktreeIsMissing worktreeCleanup) sweep.found :=
          ⟨rfl, rfl⟩
        exact h.writeKept read.revision fun _ => hsound.keepsOutcome hsame rfl
  | other status cancellationRequested => exact h.keepOutcome (keepsOutcome_refl s.row.value)

theorem ClaimInvariant.of_initial (h : BeforeBridges s) : ClaimInvariant s where
  started := by
    intro id hid
    rw [h.live] at hid
    cases hid
  claimer := h.claimer
  tasks := by
    intro id
    rw [h.tasks id]
    exact .idle
  sweeps := by
    intro sweep hsweep
    rw [h.sweeps] at hsweep
    cases hsweep

/-! ### What the invariant gives at every step -/

theorem ClaimInvariant.names_of_holds (h : ClaimInvariant s) {id : BridgeInstanceId}
    (hholds : s.holds id = true) : NamesHolder s.row.value id := by
  simp only [IntegrationState.holds, and_eq_true] at hholds
  exact (h.tasks id).holds hholds.2

theorem writtenPatch_some {event : IntegrationEvent} {id : BridgeInstanceId} {kind : PatchKind}
    (h : writtenPatch s event = some (id, kind)) :
    ∃ claimed patch read, s.task id = .patching claimed patch ∧ patch.row = some read ∧
      s.row.revision = read.revision ∧ patch.kind = kind := by
  cases event with
  | write other =>
    simp only [writtenPatch] at h
    split at h
    · next claimed patch htask =>
      split at h
      · next read hread =>
        split at h
        · next hsame =>
          cases h
          exact ⟨claimed, patch, read, htask, hread, hsame, rfl⟩
        · cases h
      · cases h
    · cases h
  | _ => cases h

theorem ClaimInvariant.final_kept (h : ClaimInvariant s) (event : IntegrationEvent)
    {current : AutoIntegration} (hcurrent : s.row.value.autoIntegration = some current)
    (hfinal : current.status.final = true) :
    ∃ kept, (integrationStep s event).row.value.autoIntegration = some kept ∧
      SameOutcome kept current := by
  have hunchanged : ∃ kept, s.row.value.autoIntegration = some kept ∧ SameOutcome kept current :=
    ⟨current, hcurrent, rfl, rfl⟩
  have hguarded (expected : Nat) {value : IntegratedJob}
      (hkeeps : KeepsOutcome s.row.value value) :
      ∃ kept, (s.row.writeAt expected value).2.value.autoIntegration = some kept ∧
        SameOutcome kept current := by
    unfold Versioned.writeAt
    split
    · exact hkeeps.some hcurrent
    · exact hunchanged
  cases event with
  | start id =>
    simp only [integrationStep]
    split <;> exact hunchanged
  | stop id => exact hunchanged
  | environment otherProcesses bridgeInstances => exact hunchanged
  | claim id claimedAt =>
    simp only [integrationStep]
    split
    · split <;> exact hunchanged
    · exact hunchanged
  | record id recordedAt worktreeIsMissing fields =>
    simp only [integrationStep]
    split <;> exact hunchanged
  | read id now =>
    simp only [integrationStep]
    split
    · split
      · simp only [Queue.readPatch]
        split <;> exact hunchanged
      · exact hunchanged
    · exact hunchanged
  | write id =>
    simp only [integrationStep]
    split
    · next claimed patch htask =>
      split
      · exact hunchanged
      · next read hread =>
        have hmissed : s.row.revision ≠ read.revision := by
          intro hsame
          have hopen := (h.free_of_write htask hread hsame current hcurrent).1
          rw [hfinal] at hopen
          cases hopen
        simp only [Queue.writePatch, Versioned.writeAt, if_neg hmissed]
        simp only [false_eq_true, if_false]
        split <;> exact hunchanged
    · exact hunchanged
  | throw id => exact hunchanged
  | sweepFind id =>
    simp only [integrationStep]
    split
    · split <;> exact hunchanged
    · exact hunchanged
  | sweepMark index =>
    simp only [integrationStep]
    split
    · exact hunchanged
    · exact hguarded _ (keepsOutcome_markSwept s.row.value)
  | sweepRead index => exact hunchanged
  | sweepWrite index worktreeIsMissing worktreeCleanup =>
    simp only [integrationStep]
    split
    · exact hunchanged
    · next sweep hsweep =>
      split
      · exact hunchanged
      · have hsound := h.sweeps sweep (mem_of_getElem? hsweep)
        have hsame : SameOutcome
            (sweepFields sweep.found worktreeIsMissing worktreeCleanup) sweep.found :=
          ⟨rfl, rfl⟩
        exact hguarded _ (hsound.keepsOutcome hsame rfl)
  | other status cancellationRequested => exact hunchanged

theorem exclusiveStep_of_invariant (event : IntegrationEvent) (h : ClaimInvariant s)
    (within : withinStaleLimit s event = true) : ExclusiveStep s event := by
  have hnext := claimInvariant_step event h within
  constructor
  · intro p q hp hq
    exact (hnext.names_of_holds hp).unique (hnext.names_of_holds hq)
  · intro id hwritten current q hcurrent hq hlive
    obtain ⟨claimed, patch, read, htask, hread, hsame, -⟩ := writtenPatch_some hwritten
    exact ((h.free_of_write htask hread hsame current hcurrent).2 q hq).2 hlive
  · intro id hwritten
    obtain ⟨claimed, patch, read, htask, hread, hsame, hkind⟩ := writtenPatch_some hwritten
    have hsound := h.tasks id
    have hclaimed : claimed = true := (hsound.fields claimed patch htask).outcome hkind
    have hlive : id ∈ s.host.live :=
      hsound.running (by rw [htask]; exact IntegrationTask.noConfusion)
    have hholds : s.holds id = true := by
      simp [IntegrationState.holds, hlive, htask, IntegrationTask.claimed, hclaimed]
    obtain ⟨current, hcurrent, hclaimer, -⟩ := h.names_of_holds hholds
    exact ⟨hholds, current, hcurrent, hclaimer⟩
  · intro current hcurrent hfinal
    exact h.final_kept event hcurrent hfinal

end Steps

/-! ### Every run -/

/-- As long as no attempt reads a live process's open claim beyond the age limit, the claim
of a job is exclusive in every run: one live holder, no takeover of a live process, outcomes
of the holder only, and final outcomes that stay. -/
theorem claim_exclusive_within_limit (s : IntegrationState) (before : BeforeBridges s)
    (events : List IntegrationEvent)
    (within : Along integrationStep (fun s event => withinStaleLimit s event = true) s events) :
    Along integrationStep ExclusiveStep s events :=
  within.of_invariant (fun _ event h hwithin => claimInvariant_step event h hwithin)
    (fun _ event h hwithin => exclusiveStep_of_invariant event h hwithin)
    (.of_initial before)

/-! ### A claim that outlasts the limit -/

def firstBridge : BridgeInstanceId := ⟨100, 1, "a", by decide⟩

def secondBridge : BridgeInstanceId := ⟨200, 2, "b", by decide⟩

/-- A completed job that nobody has claimed. -/
def unclaimedJob : IntegrationState where
  host := ⟨[], [], none⟩
  started := []
  row := ⟨7, ⟨.completed, false, none⟩⟩
  task := fun _ => .idle
  sweeps := []

/-- The first process claims the job and integrates; the second one claims it at `now`. -/
def overlappingClaims (now : Nat) : List IntegrationEvent :=
  [.start firstBridge, .start secondBridge, .environment [] (some [(firstBridge, now + 60000)]),
    .claim firstBridge 1000, .read firstBridge 1000, .write firstBridge,
    .claim secondBridge now, .read secondBridge now, .write secondBridge]

theorem unclaimedJob_beforeBridges : BeforeBridges unclaimedJob where
  live := rfl
  tasks := fun _ => rfl
  sweeps := rfl
  claimer := fun _ _ h => by cases h

theorem claim_exclusive_of_timely_run :
    Along integrationStep ExclusiveStep unclaimedJob (overlappingClaims 1801000) :=
  claim_exclusive_within_limit unclaimedJob unclaimedJob_beforeBridges _ (by decide)

/-- Half an hour after the claim of a process that is still integrating, with a live lease,
a second process takes the claim over: both hold it. -/
theorem claim_exclusive_fails :
    ¬ ∀ s : IntegrationState, BeforeBridges s → ∀ events,
      Along integrationStep ExclusiveStep s events := by
  intro h
  have hrun := h unclaimedJob unclaimedJob_beforeBridges (overlappingClaims 1801001)
  rw [show overlappingClaims 1801001 = (overlappingClaims 1801001).take 8 ++
    [.write secondBridge] from rfl, along_append] at hrun
  have hheld := hrun.2.1.holder firstBridge secondBridge (by decide) (by decide)
  revert hheld
  decide

end AgentBridge.Queue
