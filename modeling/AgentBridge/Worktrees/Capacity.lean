import AgentBridge.Worktrees.Creation

/-!
# The capacity of retained worktrees

A reservation counts the active rows. The count covers everything reserved or present as
long as each reservation in flight keeps its row, and the one step that takes it away is
another creation's reconciliation, which retires a row whose directory is not there yet.
-/

namespace AgentBridge.Worktrees

open Systems CapacityState List

variable {config : WorktreeConfig} {cwd : Directory} {s : CapacityState}

/-! ### Which paths count -/

/-- The path has an active row of the repository. -/
def IsRegistered (cwd : Directory) (rows : List ArtifactRow) (path : String) : Prop :=
  ∃ row ∈ rows, Registered path cwd (fun _ => True) row

variable {path : String} {rows : List ArtifactRow}

theorem length_capacityRows_of_reserve {branch jobId : String} {stateFull : Bool}
    (h : (reserveWorktreeArtifact config rows cwd path branch jobId stateFull).1 = .ok) :
    (capacityRows cwd rows).length < config.retainedWorktreeMaxCount := by
  rw [reserveWorktreeArtifact] at h
  split at h
  · cases h
  · split at h
    · cases h
    · next hroom =>
      simp only [Bool.or_eq_true, decide_eq_true_eq, not_or, Nat.not_le] at hroom
      exact hroom.1

/-- What is present at the path is registered. -/
def Covered (config : WorktreeConfig) (cwd : Directory) (s : CapacityState) (path : String) :
    Prop :=
  present config cwd s.host.disk path = true → IsRegistered cwd s.rows path

theorem isRegistered_iff :
    IsRegistered cwd rows path ↔ path ∈ (capacityRows cwd rows).map ArtifactRow.worktreePath := by
  constructor
  · rintro ⟨row, hrow, rfl, hcwd, -, hactive⟩
    exact mem_map_of_mem (mem_filter.mpr ⟨hrow, by simp [hcwd, hactive]⟩)
  · intro h
    obtain ⟨row, hrow, rfl⟩ := mem_map.mp h
    obtain ⟨hrow, hcounts⟩ := mem_filter.mp hrow
    simp only [Bool.and_eq_true, decide_eq_true_eq] at hcounts
    exact ⟨row, hrow, rfl, hcounts.1, trivial, hcounts.2⟩

/-- A transaction that does not retire the row of a path keeps the path registered. -/
theorem isRegistered_exec {host : WorktreeHost} (write : RegistryWrite) (unique : UniquePaths rows)
    (h : IsRegistered cwd rows path)
    (hretires : ∀ row ∈ rows, row.worktreePath = path → write.retires host row = false) :
    IsRegistered cwd (write.exec config host rows) path := by
  obtain ⟨row, hrow, registered⟩ := h
  exact write.exists_registered unique hrow registered (hretires row hrow registered.1)
    (fun _ _ _ => trivial)

/-- What the phase of a creation promises about its path and about what counts. -/
def PhaseFacts (config : WorktreeConfig) (cwd : Directory) (s : CapacityState) (path : String) :
    CreationPhase → Prop
  | .known paths => ∀ other ∈ paths, Covered config cwd s other
  | .walking known remaining discovered =>
    (∀ other ∈ known, Covered config cwd s other) ∧
    (∀ item ∈ discovered, item.status.active = true) ∧
    ∀ other, other ∈ remaining ∨ other ∈ discovered.map Discovered.path ∨
      Covered config cwd s other
  | .reconciled => ∀ other, Covered config cwd s other
  | .reserved => IsRegistered cwd s.rows path
  | .withdrawing => present config cwd s.host.disk path = false
  | .cleared => present config cwd s.host.disk path = false
  | _ => True

variable {phase : CreationPhase}

/-- A step that keeps what counts and makes nothing appear without need keeps the promises. -/
theorem PhaseFacts.mono {s s' : CapacityState} (h : PhaseFacts config cwd s path phase)
    (hcovered : ∀ other, Covered config cwd s other → Covered config cwd s' other)
    (hreserved : phase = .reserved → IsRegistered cwd s.rows path → IsRegistered cwd s'.rows path)
    (habsent : phase ≠ .reserved → present config cwd s.host.disk path = false →
      present config cwd s'.host.disk path = false) : PhaseFacts config cwd s' path phase := by
  cases phase with
  | known paths => exact fun other hother => hcovered other (h other hother)
  | walking known remaining discovered =>
    obtain ⟨hknown, hactive, hall⟩ := h
    refine ⟨fun other hother => hcovered other (hknown other hother), hactive, ?_⟩
    exact fun other => (hall other).imp_right (Or.imp_right (hcovered other))
  | reconciled => exact fun other => hcovered other (h other)
  | reserved => exact hreserved rfl h
  | withdrawing => exact habsent CreationPhase.noConfusion h
  | cleared => exact habsent CreationPhase.noConfusion h
  | _ => trivial

/-- What holds at every point of a run that spares reservations. -/
structure CapacityInvariant (config : WorktreeConfig) (cwd : Directory) (s : CapacityState) :
    Prop where
  unique : UniquePaths s.rows
  here : ∀ row ∈ s.rows, row.cwd = cwd
  phases : ∀ path, PhaseFacts config cwd s path (s.phase path)
  removed : ∀ path ∈ s.removed, present config cwd s.host.disk path = false ∧ s.idle path = true
  begun : ∀ path, s.phase path ≠ .unused → path ∈ s.begun

namespace CapacityInvariant

theorem not_removed (h : CapacityInvariant config cwd s) (hidle : s.idle path = false) :
    path ∉ s.removed := by
  intro hremoved
  rw [(h.removed path hremoved).2] at hidle
  cases hidle

/-- The path is in another phase, and may have begun just now. -/
theorem setPhase_begun (h : CapacityInvariant config cwd s) {begun : List String}
    (hbegun : path ∈ begun) (hkept : ∀ other ∈ s.begun, other ∈ begun)
    (hremoved : path ∉ s.removed) (facts : PhaseFacts config cwd s path phase) :
    CapacityInvariant config cwd { s.setPhase path phase with begun := begun } := by
  refine ⟨h.unique, h.here, ?_, ?_, ?_⟩
  · intro other
    by_cases hother : other = path
    · subst hother
      have hphase : (s.setPhase other phase).phase other = phase := by
        simp [CapacityState.setPhase]
      rw [hphase]
      exact facts.mono (fun _ => id) (fun _ => id) (fun _ => id)
    · have hphase : (s.setPhase path phase).phase other = s.phase other := by
        simp [CapacityState.setPhase, hother]
      rw [hphase]
      exact (h.phases other).mono (fun _ => id) (fun _ => id) (fun _ => id)
  · intro other hother
    have hne : other ≠ path := fun heq => hremoved (heq ▸ hother)
    simpa [CapacityState.setPhase, CapacityState.idle, hne] using h.removed other hother
  · intro other hother
    by_cases hne : other = path
    · exact hne ▸ hbegun
    · exact hkept other (h.begun other (by simpa [CapacityState.setPhase, hne] using hother))

theorem setPhase (h : CapacityInvariant config cwd s) (hbegun : s.phase path ≠ .unused)
    (hremoved : path ∉ s.removed) (facts : PhaseFacts config cwd s path phase) :
    CapacityInvariant config cwd (s.setPhase path phase) :=
  h.setPhase_begun (h.begun path hbegun) (fun _ => id) hremoved facts

/-- A creation under way is not idle, so nothing of its path is on the list of removals. -/
theorem advance (h : CapacityInvariant config cwd s) {old : CreationPhase}
    (hold : s.phase path = old) (hunused : old ≠ .unused) (hfinished : old ≠ .finished)
    (facts : PhaseFacts config cwd s path phase) :
    CapacityInvariant config cwd (s.setPhase path phase) := by
  subst hold
  exact h.setPhase hunused (h.not_removed (by simp [CapacityState.idle, hunused, hfinished])) facts

/-- A transaction under the repository that retires nothing present or reserved. -/
theorem exec (h : CapacityInvariant config cwd s) (write : RegistryWrite)
    (hunder : write.under cwd = true)
    (hretires : ∀ path, present config cwd s.host.disk path = true ∨ s.phase path = .reserved →
      ∀ row ∈ s.rows, row.worktreePath = path → write.retires s.host row = false) :
    CapacityInvariant config cwd (s.exec config write) := by
  refine ⟨write.uniquePaths h.unique, write.forall_cwd hunder h.here, ?_, h.removed, h.begun⟩
  intro path
  refine (h.phases path).mono ?_ ?_ (fun _ => id)
  · intro other hcovered hpresent
    exact isRegistered_exec write h.unique (hcovered hpresent) (hretires other (.inl hpresent))
  · intro hreserved registered
    exact isRegistered_exec write h.unique registered (hretires path (.inr hreserved))

/-- A change on disk after which nothing is present but what was or is reserved. -/
theorem setDisk (h : CapacityInvariant config cwd s) {disk : List DiskEntry}
    (hpresent : ∀ path, present config cwd disk path = true →
      present config cwd s.host.disk path = true ∨ s.phase path = .reserved) :
    CapacityInvariant config cwd (s.setDisk disk) := by
  have habsent : ∀ path, s.phase path ≠ .reserved →
      present config cwd s.host.disk path = false → present config cwd disk path = false := by
    intro path hphase hbefore
    by_contra hnow
    rcases hpresent path (by simpa using hnow) with hthen | hreserved
    · rw [hbefore] at hthen
      cases hthen
    · exact hphase hreserved
  refine ⟨h.unique, h.here, ?_, ?_, h.begun⟩
  · intro path
    refine (h.phases path).mono ?_ (fun _ => id) (habsent path)
    intro other hcovered hnow
    rcases hpresent other hnow with hthen | hreserved
    · exact hcovered hthen
    · have hfacts := h.phases other
      rw [hreserved] at hfacts
      exact hfacts
  · intro path hpath
    obtain ⟨hbefore, hidle⟩ := h.removed path hpath
    refine ⟨habsent path ?_ hbefore, hidle⟩
    intro hreserved
    simp [CapacityState.idle, hreserved] at hidle

theorem setDisk_dropPath (h : CapacityInvariant config cwd s) (path : String) :
    CapacityInvariant config cwd (s.setDisk (dropPath path s.host.disk)) := by
  refine h.setDisk ?_
  intro other hnow
  rw [present_dropPath, Bool.and_eq_true] at hnow
  exact .inl hnow.2

end CapacityInvariant

/-! ### One creation -/

theorem isRegistered_insertDiscovered {discovered : List Discovered}
    (here : ∀ row ∈ rows, row.cwd = cwd) (hactive : ∀ item ∈ discovered, item.status.active = true)
    (hpath : path ∈ discovered.map Discovered.path) :
    IsRegistered cwd (execute (discovered.map (insertDiscovered cwd)) rows) path := by
  induction discovered generalizing rows with
  | nil => cases hpath
  | cons item discovered ih =>
    have hitem : item.status.active = true := hactive item mem_cons_self
    have hrest : ∀ later ∈ discovered, later.status.active = true :=
      fun later hlater => hactive later (mem_cons_of_mem _ hlater)
    have hhere : ∀ row ∈ execute [insertDiscovered cwd item] rows, row.cwd = cwd :=
      Statement.forall_execAll (forall_mem_singleton.mpr ⟨rfl, fun _ _ => rfl⟩) here
    by_cases hhead : item.path = path
    · show IsRegistered cwd (execute (discovered.map (insertDiscovered cwd))
        (execute [insertDiscovered cwd item] rows)) path
      refine Statement.exists_execAll ?_ ?_
      · intro statement hstatement
        obtain ⟨later, -, rfl⟩ := mem_map.mp hstatement
        intro row registered _ hguard
        simp [registered.2.2.2] at hguard
      · refine Statement.exists_exec_upsert ⟨hhead, rfl, trivial, hitem⟩ ?_ ?_
        · exact fun row _ hkey _ => ⟨hkey.trans hhead, rfl, trivial, hitem⟩
        · intro row hrow hkey hguard
          exact ⟨hkey.trans hhead, here row hrow, trivial, by simpa using hguard⟩
    · have htail : path ∈ discovered.map Discovered.path := by
        rw [map_cons, mem_cons] at hpath
        exact hpath.resolve_left (Ne.symm hhead)
      exact ih hhere hrest htail

namespace CapacityInvariant

section

variable (h : CapacityInvariant config cwd s)

include h

/-- After the final transaction of a reconciliation everything present is registered. -/
theorem covered_reconcile {known : List String} {discovered : List Discovered}
    (hphase : s.phase path = .walking known [] discovered) (other : String) :
    Covered config cwd (s.exec config (.reconcile cwd discovered)) other := by
  intro hpresent
  have hexists : existsSync s.host.disk other = true := existsSync_of_present hpresent
  have hfacts := h.phases path
  rw [hphase] at hfacts
  obtain ⟨-, hactive, hall⟩ := hfacts
  rcases hall other with hrest | hfound | hcovered
  · cases hrest
  · have hinserted : IsRegistered cwd
        (execute (discovered.map (insertDiscovered cwd)) s.rows) other :=
      isRegistered_insertDiscovered h.here hactive hfound
    show IsRegistered cwd (execute (_ ++ _) s.rows) other
    rw [execute, Statement.execAll_append]
    refine Statement.exists_execAll ?_ hinserted
    intro statement hstatement
    obtain ⟨missing, hmissing, rfl⟩ := mem_map.mp hstatement
    intro row registered hguard
    have hgone := exists_of_mem_missingPaths hmissing
    simp only [markMissing, Bool.and_eq_true, decide_eq_true_eq] at hguard
    rw [← hguard.1.1, registered.1, hexists] at hgone
    cases hgone
  · show IsRegistered cwd
      (RegistryWrite.exec config s.host s.rows (.reconcile cwd discovered)) other
    refine isRegistered_exec _ h.unique (hcovered hpresent) ?_
    rintro row - rfl
    simp [RegistryWrite.retires, hexists]

theorem setGrants (grants : List String) :
    CapacityInvariant config cwd { s with grants := grants } := by
  refine ⟨h.unique, h.here, ?_, h.removed, h.begun⟩
  exact fun path => (h.phases path).mono (fun _ => id) (fun _ => id) (fun _ => id)

theorem begin_step (hremoved : path ∉ s.removed) :
    CapacityInvariant config cwd { s.setPhase path .starting with begun := path :: s.begun } :=
  h.setPhase_begun mem_cons_self (fun _ => mem_cons_of_mem _) hremoved (by simp [PhaseFacts])

/-- The marks and the withdrawal that end a creation meet only its own path. -/
theorem exec_own (write : RegistryWrite) (hunder : write.under cwd = true)
    (hown : ∀ row : ArtifactRow, row.worktreePath ≠ path → write.retires s.host row = false)
    (hpath : present config cwd s.host.disk path = false) (hphase : s.phase path ≠ .reserved) :
    CapacityInvariant config cwd (s.exec config write) := by
  refine h.exec write hunder ?_
  rintro other hother row - rfl
  refine hown row ?_
  rintro rfl
  rcases hother with hpresent | hreserved
  · rw [hpath] at hpresent
    cases hpresent
  · exact hphase hreserved

/-- What others may write retires only what has been removed. -/
theorem exec_permitted (write : RegistryWrite) (hpermitted : permitted cwd s.removed write = true) :
    CapacityInvariant config cwd (s.exec config write) := by
  have hgone : ∀ path ∈ s.removed, present config cwd s.host.disk path = false ∧
      s.phase path ≠ .reserved := by
    intro path hpath
    obtain ⟨habsent, hidle⟩ := h.removed path hpath
    refine ⟨habsent, ?_⟩
    intro hreserved
    simp [CapacityState.idle, hreserved] at hidle
  cases write with
  | mark cwd' path status bytes =>
    simp only [permitted, Bool.or_eq_true, contains_iff_mem] at hpermitted
    cases hactive : status.active with
    | true => exact h.exec _ rfl fun _ _ _ _ _ => by simp [RegistryWrite.retires, hactive]
    | false =>
      have hpath : path ∈ s.removed := by simpa [hactive] using hpermitted
      refine h.exec_own _ rfl ?_ (hgone path hpath).1 (hgone path hpath).2
      intro row hrow
      simp [RegistryWrite.retires, hrow]
  | drainRemoved path =>
    have hpath : path ∈ s.removed := by simpa [permitted] using hpermitted
    refine h.exec_own _ rfl ?_ (hgone path hpath).1 (hgone path hpath).2
    intro row hrow
    simp [RegistryWrite.retires, hrow]
  | markRegistryCleaned path =>
    have hpath : path ∈ s.removed := by simpa [permitted] using hpermitted
    refine h.exec_own _ rfl ?_ (hgone path hpath).1 (hgone path hpath).2
    intro row hrow
    simp [RegistryWrite.retires, hrow]
  | enqueueCleanup cwd' path branch operationId =>
    exact h.exec _ (by simpa [permitted, RegistryWrite.under] using hpermitted)
      fun _ _ _ _ _ => rfl
  | reconcile => cases hpermitted
  | reserve => cases hpermitted
  | deleteReservation => cases hpermitted
  | _ => exact h.exec _ rfl fun _ _ _ _ _ => rfl

theorem readKnown_step (path : String) :
    CapacityInvariant config cwd (capacityStep config cwd s (.readKnown path)) := by
  rw [capacityStep]
  split
  · next hphase =>
    refine h.advance hphase (by simp) (by simp) ?_
    intro other hother _
    obtain ⟨row, hrow, rfl⟩ := mem_map.mp hother
    obtain ⟨hrow, hactive⟩ := mem_filter.mp hrow
    exact ⟨row, hrow, rfl, h.here row hrow, trivial, hactive⟩
  · exact h

/-- Every worktree directory is on the list that is walked. -/
theorem readRoot_step (path : String) :
    CapacityInvariant config cwd (capacityStep config cwd s (.readRoot path)) := by
  rw [capacityStep]
  split
  · next paths hphase =>
    have hfacts := h.phases path
    rw [hphase] at hfacts
    refine h.advance hphase (by simp) (by simp) ⟨hfacts, ?_, ?_⟩
    · exact fun item hitem => absurd hitem not_mem_nil
    · intro other
      by_cases hpresent : present config cwd s.host.disk other = true
      · exact .inl (mem_readRoot_of_present hpresent)
      · exact .inr (.inr fun hnow => absurd hnow hpresent)
  · exact h

/-- An entry of the walk was known, is reported or is gone. -/
theorem inspect_step (path : String) :
    CapacityInvariant config cwd (capacityStep config cwd s (.inspect path)) := by
  rw [capacityStep]
  split
  · next known entry remaining discovered hphase =>
    have hfacts := h.phases path
    rw [hphase] at hfacts
    obtain ⟨hknown, hactive, hall⟩ := hfacts
    refine h.advance hphase (by simp) (by simp) ⟨hknown, ?_, ?_⟩
    · split
      · exact hactive
      · intro item hitem
        rcases mem_append.mp hitem with hitem | hitem
        · exact hactive item hitem
        · exact active_of_inspectEntry (Option.mem_toList.mp hitem)
    · intro other
      rcases hall other with hrest | hfound | hcovered
      · rcases mem_cons.mp hrest with rfl | hrest
        · split
          · next hmem => exact .inr (.inr (hknown other (by simpa using hmem)))
          · by_cases hpresent : present config cwd s.host.disk other = true
            · obtain ⟨item, hitem, hpath⟩ := inspectEntry_of_present hpresent
              refine .inr (.inl (mem_map.mpr ⟨item, ?_, hpath⟩))
              exact mem_append_right _ (Option.mem_toList.mpr hitem)
            · exact .inr (.inr fun hnow => absurd hnow hpresent)
        · exact .inl hrest
      · refine .inr (.inl ?_)
        split
        · exact hfound
        · rw [map_append]
          exact mem_append_left _ hfound
      · exact .inr (.inr hcovered)
  · exact h

theorem reconcile_step (path : String) (spares : SparesReservations s (.reconcile path)) :
    CapacityInvariant config cwd (capacityStep config cwd s (.reconcile path)) := by
  rw [capacityStep]
  split
  · next known discovered hphase =>
    have hexec : CapacityInvariant config cwd
        (s.exec config (.reconcile cwd discovered)) := by
      refine h.exec _ (by simp [RegistryWrite.under]) ?_
      rintro other hother row - rfl
      have hexists : existsSync s.host.disk row.worktreePath = true := by
        rcases hother with hpresent | hreserved
        · exact existsSync_of_present hpresent
        · exact spares _ (h.begun _ (by simp [hreserved])) hreserved
      simp [RegistryWrite.retires, hexists]
    exact hexec.advance hphase (by simp) (by simp) (h.covered_reconcile hphase)
  · exact h

theorem reserve_step (path branch jobId : String) (stateFull : Bool) : CapacityInvariant config cwd
      (capacityStep config cwd s (.reserve path branch jobId stateFull)) := by
  rw [capacityStep]
  split
  · next hphase =>
    dsimp only
    split
    · next hok =>
      have hexec : CapacityInvariant config cwd
          (s.exec config (.reserve cwd path branch jobId stateFull)) :=
        h.exec _ (by simp [RegistryWrite.under]) fun _ _ _ _ _ => rfl
      obtain ⟨row, hrow, registered, -⟩ := exists_registered_of_reserve hok
      refine (hexec.advance hphase (by simp) (by simp) ?_).setGrants _
      exact ⟨row, hrow, registered.1, registered.2.1, trivial, registered.2.2.2⟩
    · exact h.advance hphase (by simp) (by simp) trivial
  · exact h

/-- Only a reserved path becomes present. -/
theorem makeDirectory_step (path name : String) (bytes : Option Nat) :
    CapacityInvariant config cwd (capacityStep config cwd s (.makeDirectory path name bytes)) := by
  rw [capacityStep]
  split
  · next hguard =>
    simp only [Bool.and_eq_true, decide_eq_true_eq] at hguard
    refine h.setDisk ?_
    intro other hnow
    by_cases hother : other = path
    · exact .inr (hother ▸ hguard.1)
    · exact .inl (by rwa [present_append hother] at hnow)
  · exact h

theorem addFailed_step (path : String) :
    CapacityInvariant config cwd (capacityStep config cwd s (.addFailed path)) := by
  rw [capacityStep]
  split
  · next hguard =>
    simp only [Bool.or_eq_true, decide_eq_true_eq] at hguard
    have hunused : s.phase path ≠ .unused := by
      rcases hguard with hphase | hphase <;> simp [hphase]
    have hfinished : s.phase path ≠ .finished := by
      rcases hguard with hphase | hphase <;> simp [hphase]
    refine h.advance rfl hunused hfinished ?_
    split
    · trivial
    · next habsent =>
      show present config cwd s.host.disk path = false
      by_contra hpresent
      exact habsent (existsSync_of_present (by simpa using hpresent))
  · exact h

theorem keepFailed_step (path : String) (bytes : Option Nat) :
    CapacityInvariant config cwd (capacityStep config cwd s (.keepFailed path bytes)) := by
  rw [capacityStep]
  split
  · next hphase =>
    have hexec : CapacityInvariant config cwd
        { s with rows := (measureRetained config cwd s.host.now path bytes).exec s.rows } := by
      cases bytes with
      | none =>
        exact h.exec (.mark cwd path .cleanupFailed
          (some (config.retainedWorktreeMaxBytes + 1))) rfl
          fun _ _ _ _ _ => by simp [RegistryWrite.retires, ArtifactStatus.active]
      | some bytes =>
        exact h.exec (.mark cwd path .retained (some bytes)) rfl
          fun _ _ _ _ _ => by simp [RegistryWrite.retires, ArtifactStatus.active]
    exact hexec.advance hphase (by simp) (by simp) trivial
  · exact h

theorem withdraw_step (path : String) :
    CapacityInvariant config cwd (capacityStep config cwd s (.withdraw path)) := by
  rw [capacityStep]
  split
  · next hphase =>
    have hfacts := h.phases path
    rw [hphase] at hfacts
    have hexec : CapacityInvariant config cwd (s.exec config (.deleteReservation cwd path)) := by
      refine h.exec_own _ rfl ?_ hfacts (by simp [hphase])
      intro row hrow
      simp [RegistryWrite.retires, hrow]
    exact hexec.advance hphase (by simp) (by simp) trivial
  · exact h

theorem cleared_step (path : String) (status : ArtifactStatus) (again : Bool) :
    CapacityInvariant config cwd (capacityStep config cwd s (.cleared path status again)) := by
  rw [capacityStep]
  split
  · next hphase =>
    have hfacts := h.phases path
    rw [hphase] at hfacts
    have hexec : CapacityInvariant config cwd (s.exec config (.mark cwd path status none)) := by
      refine h.exec_own _ rfl ?_ hfacts (by simp [hphase])
      intro row hrow
      simp [RegistryWrite.retires, hrow]
    refine hexec.advance hphase (by simp) (by simp) ?_
    cases again <;> trivial
  · exact h

theorem removeDirectory_step (path : String) :
    CapacityInvariant config cwd (capacityStep config cwd s (.removeDirectory path)) := by
  rw [capacityStep]
  split
  · next hidle =>
    have hdisk := h.setDisk_dropPath path
    refine ⟨hdisk.unique, hdisk.here, ?_, ?_, hdisk.begun⟩
    · exact fun other =>
        (hdisk.phases other).mono (fun _ => id) (fun _ => id) (fun _ => id)
    · intro other hother
      rcases mem_cons.mp hother with rfl | hother
      · exact ⟨by simp [CapacityState.setDisk, present_dropPath], hidle⟩
      · exact hdisk.removed other hother
  · exact h

theorem step (event : CapacityEvent) (spares : SparesReservations s event) :
    CapacityInvariant config cwd (capacityStep config cwd s event) := by
  cases event with
  | begin path =>
    rw [capacityStep]
    split
    · next hfresh =>
      simp only [Bool.and_eq_true, Bool.not_eq_true', contains_eq_mem,
        decide_eq_false_iff_not] at hfresh
      exact h.begin_step hfresh.1.2
    · exact h
  | readKnown path => exact h.readKnown_step path
  | readRoot path => exact h.readRoot_step path
  | inspect path => exact h.inspect_step path
  | reconcile path => exact h.reconcile_step path spares
  | reserve path branch jobId stateFull => exact h.reserve_step path branch jobId stateFull
  | makeDirectory path name bytes => exact h.makeDirectory_step path name bytes
  | unmakeDirectory path =>
    rw [capacityStep]
    split
    · exact h.setDisk_dropPath path
    · exact h
  | addSucceeded path =>
    rw [capacityStep]
    split
    · next hguard =>
      simp only [Bool.and_eq_true, decide_eq_true_eq] at hguard
      exact h.advance hguard.1 (by simp) (by simp) trivial
    · exact h
  | addFailed path => exact h.addFailed_step path
  | keepFailed path bytes => exact h.keepFailed_step path bytes
  | withdraw path => exact h.withdraw_step path
  | retain path =>
    rw [capacityStep]
    split
    · next hphase =>
      have hexec : CapacityInvariant config cwd
          (s.exec config (.mark cwd path .retained (some 0))) :=
        h.exec _ rfl fun _ _ _ _ _ => by simp [RegistryWrite.retires, ArtifactStatus.active]
      exact hexec.advance hphase (by simp) (by simp) trivial
    · exact h
  | clear path =>
    rw [capacityStep]
    split
    · next hphase =>
      refine (h.setDisk_dropPath path).advance hphase (by simp) (by simp) ?_
      simp [PhaseFacts, CapacityState.setDisk, present_dropPath]
    · exact h
  | cleared path status again => exact h.cleared_step path status again
  | removeDirectory path => exact h.removeDirectory_step path
  | resize path bytes =>
    refine h.setDisk ?_
    intro other hnow
    rw [present_resizePath] at hnow
    exact .inl hnow
  | write write =>
    rw [capacityStep]
    split
    · next hpermitted => exact h.exec_permitted write hpermitted
    · exact h
  | host host =>
    refine ⟨h.unique, h.here, ?_, h.removed, h.begun⟩
    exact fun path => (h.phases path).mono (fun _ => id) (fun _ => id) (fun _ => id)

/-! ### What a reservation counts -/

/-- Once a creation has reconciled, its count of active rows covers what is occupied. -/
theorem occupied_subset (hcovered : ∀ path, Covered config cwd s path) :
    occupied config cwd s ⊆ (capacityRows cwd s.rows).map ArtifactRow.worktreePath := by
  intro path hpath
  rw [occupied, mem_dedup, mem_append, mem_append] at hpath
  rcases hpath with (hactive | hreserved) | hpresent
  · exact hactive
  · have hphase : s.phase path = .reserved := by simpa using (mem_filter.mp hreserved).2
    have hfacts := h.phases path
    rw [hphase] at hfacts
    exact isRegistered_iff.mp hfacts
  · have hpresent : present config cwd s.host.disk path = true := by
      simpa using (mem_filter.mp hpresent).2
    exact isRegistered_iff.mp (hcovered path hpresent)

theorem grantedBelowCapacity (event : CapacityEvent) : GrantedBelowCapacity config cwd s event := by
  intro hgrants
  cases event with
  | reserve path branch jobId stateFull =>
    simp only [Worktrees.grants, Bool.and_eq_true, decide_eq_true_eq] at hgrants
    have hfacts := h.phases path
    rw [hgrants.1] at hfacts
    have hcount : (occupied config cwd s).length ≤ (capacityRows cwd s.rows).length := by
      have hsubperm : (occupied config cwd s).Subperm
          ((capacityRows cwd s.rows).map ArtifactRow.worktreePath) :=
        subperm_of_subset (nodup_dedup _) (h.occupied_subset hfacts)
      simpa using hsubperm.length_le
    have hroom : (capacityRows cwd s.rows).length < config.retainedWorktreeMaxCount :=
      length_capacityRows_of_reserve hgrants.2
    omega
  | _ => cases hgrants

end

end CapacityInvariant

/-! ### The granted worktrees -/

/-- The path is of a worktree still to be made or present. -/
def Standing (config : WorktreeConfig) (cwd : Directory) (s : CapacityState) (path : String) :
    Prop :=
  s.phase path = .reserved ∨ present config cwd s.host.disk path = true

theorem mem_grantedNow :
    path ∈ grantedNow config cwd s ↔ path ∈ s.grants ∧ Standing config cwd s path := by
  simp [grantedNow, Standing]

theorem Standing.of_setPhase {other : String} (hphase : phase ≠ .reserved)
    (h : Standing config cwd (s.setPhase path phase) other) : Standing config cwd s other := by
  refine h.imp_left ?_
  intro hreserved
  by_cases hother : other = path
  · exact absurd (by simpa [CapacityState.setPhase, hother] using hreserved) hphase
  · simpa [CapacityState.setPhase, hother] using hreserved

theorem Standing.of_dropPath {other : String}
    (h : Standing config cwd (s.setDisk (dropPath path s.host.disk)) other) :
    Standing config cwd s other := by
  refine h.imp_right ?_
  intro hpresent
  have hpresent : present config cwd (dropPath path s.host.disk) other = true := hpresent
  rw [present_dropPath, Bool.and_eq_true] at hpresent
  exact hpresent.2

theorem Standing.of_step {event : CapacityEvent} (hgrants : grants config cwd s event = false)
    (h : Standing config cwd (capacityStep config cwd s event) path) :
    Standing config cwd s path := by
  cases event with
  | begin | readKnown | readRoot | inspect | reconcile | addSucceeded | keepFailed | withdraw
  | retain =>
    rw [capacityStep] at h
    split at h
    · exact .of_setPhase CreationPhase.noConfusion h
    · exact h
  | reserve other branch jobId stateFull =>
    rw [capacityStep] at h
    split at h
    · next hphase =>
      dsimp only at h
      split at h
      · next hok => simp [grants, hphase, hok] at hgrants
      · exact .of_setPhase CreationPhase.noConfusion h
    · exact h
  | makeDirectory other name bytes =>
    rw [capacityStep] at h
    split at h
    · next hguard =>
      simp only [Bool.and_eq_true, decide_eq_true_eq] at hguard
      by_cases hother : path = other
      · exact .inl (hother ▸ hguard.1)
      · refine h.imp_right ?_
        intro hpresent
        exact (present_append hother).symm.trans hpresent
    · exact h
  | addFailed | cleared =>
    rw [capacityStep] at h
    split at h
    · refine .of_setPhase ?_ h
      split <;> exact CreationPhase.noConfusion
    · exact h
  | clear =>
    rw [capacityStep] at h
    split at h
    · exact (Standing.of_setPhase CreationPhase.noConfusion h).of_dropPath
    · exact h
  | unmakeDirectory | removeDirectory =>
    rw [capacityStep] at h
    split at h
    · exact h.of_dropPath
    · exact h
  | resize other bytes =>
    refine h.imp_right ?_
    intro hpresent
    exact (present_resizePath _ other path bytes).symm.trans hpresent
  | write =>
    rw [capacityStep] at h
    split at h <;> exact h
  | host => exact h

theorem grants_step (event : CapacityEvent) (hgrants : grants config cwd s event = false) :
    (capacityStep config cwd s event).grants = s.grants := by
  cases event with
  | reserve path branch jobId stateFull =>
    rw [capacityStep]
    split
    · next hphase =>
      dsimp only
      split
      · next hok => simp [grants, hphase, hok] at hgrants
      · rfl
    · rfl
  | resize => rfl
  | host => rfl
  | _ =>
    rw [capacityStep]
    split <;> rfl

theorem grantedNow_step_subset {event : CapacityEvent}
    (hgrants : grants config cwd s event = false) :
    grantedNow config cwd (capacityStep config cwd s event) ⊆ grantedNow config cwd s := by
  intro path hpath
  obtain ⟨hgranted, hstanding⟩ := mem_grantedNow.mp hpath
  rw [grants_step event hgrants] at hgranted
  exact mem_grantedNow.mpr ⟨hgranted, hstanding.of_step hgrants⟩

theorem grantedNow_reserve_subset (path branch jobId : String) (stateFull : Bool) :
    grantedNow config cwd (capacityStep config cwd s (.reserve path branch jobId stateFull))
      ⊆ path :: grantedNow config cwd s := by
  cases hgrants : grants config cwd s (.reserve path branch jobId stateFull) with
  | false => exact List.Subset.trans (grantedNow_step_subset hgrants) (subset_cons_self _ _)
  | true =>
    intro other hother
    by_cases hpath : other = path
    · exact hpath ▸ mem_cons_self
    · refine mem_cons_of_mem _ ?_
      simp only [grants, Bool.and_eq_true, decide_eq_true_eq] at hgrants
      rw [mem_grantedNow, capacityStep, if_pos hgrants.1] at hother
      dsimp only at hother
      rw [if_pos hgrants.2] at hother
      obtain ⟨hgranted, hstanding⟩ := hother
      refine mem_grantedNow.mpr ⟨(mem_cons.mp hgranted).resolve_left hpath, ?_⟩
      refine hstanding.imp_left ?_
      intro hphase
      simpa [CapacityState.setPhase, hpath] using hphase

theorem grantedNow_subset (h : CapacityInvariant config cwd s) :
    grantedNow config cwd s ⊆ occupied config cwd s := by
  intro path hpath
  rw [occupied, mem_dedup, mem_append, mem_append]
  rcases (mem_grantedNow.mp hpath).2 with hreserved | hpresent
  · have hbegun : path ∈ s.begun := h.begun path (by simp [hreserved])
    exact .inl (.inr (mem_filter.mpr ⟨hbegun, by simp [hreserved]⟩))
  · exact .inr (mem_filter.mpr ⟨mem_disk_of_present hpresent, hpresent⟩)

theorem nodup_grantedNow (s : CapacityState) : (grantedNow config cwd s).Nodup :=
  (nodup_dedup _).filter _

theorem length_grantedNow_step (h : CapacityInvariant config cwd s) (event : CapacityEvent)
    (hlength : (grantedNow config cwd s).length ≤ config.retainedWorktreeMaxCount) :
    (grantedNow config cwd (capacityStep config cwd s event)).length
      ≤ config.retainedWorktreeMaxCount := by
  cases hgrants : grants config cwd s event with
  | false =>
    have hsubset := grantedNow_step_subset hgrants
    have hle := (subperm_of_subset (nodup_grantedNow _) hsubset).length_le
    omega
  | true =>
    have hbelow := h.grantedBelowCapacity event hgrants
    have hle := (subperm_of_subset (nodup_grantedNow s) (grantedNow_subset h)).length_le
    cases event with
    | reserve path branch jobId stateFull =>
      have hsubset : _ ⊆ path :: grantedNow config cwd s :=
        grantedNow_reserve_subset path branch jobId stateFull
      have hnext := (subperm_of_subset (nodup_grantedNow _) hsubset).length_le
      rw [length_cons] at hnext
      omega
    | _ => cases hgrants

structure WithinCapacity (config : WorktreeConfig) (cwd : Directory) (s : CapacityState) :
    Prop where
  invariant : CapacityInvariant config cwd s
  length : (grantedNow config cwd s).length ≤ config.retainedWorktreeMaxCount

theorem WithinCapacity.step (h : WithinCapacity config cwd s) (event : CapacityEvent)
    (spares : SparesReservations s event) :
    WithinCapacity config cwd (capacityStep config cwd s event) :=
  ⟨h.invariant.step event spares, length_grantedNow_step h.invariant event h.length⟩

/-- In every run whose reconciliations spare the reservations in flight, a reservation is
granted only while fewer worktrees than the maximum are reserved, being created or present,
and the granted ones never exceed it. -/
theorem retained_capacity (host : WorktreeHost) (events : List CapacityEvent)
    (spares : Along (capacityStep config cwd) SparesReservations (.initial host) events) :
    Along (capacityStep config cwd) (GrantedBelowCapacity config cwd) (.initial host) events ∧
      (grantedNow config cwd (run (capacityStep config cwd) (.initial host) events)).length
        ≤ config.retainedWorktreeMaxCount := by
  have hinitial : CapacityInvariant config cwd (.initial host) := by
    refine ⟨nodup_nil, ?_, fun _ => trivial, ?_, ?_⟩
    · exact fun row hrow => absurd hrow not_mem_nil
    · exact fun path hpath => absurd hpath not_mem_nil
    · exact fun path hpath => absurd rfl hpath
  refine ⟨.of_invariant (fun _ event h hspares => h.step event hspares)
    (fun _ event h _ => h.grantedBelowCapacity event) hinitial spares, ?_⟩
  have hrun : WithinCapacity config cwd (run (capacityStep config cwd) (.initial host) events) :=
    run_invariant (fun _ event h hspares => h.step event hspares)
      ⟨hinitial, Nat.zero_le _⟩ events spares
  exact hrun.length

section TwoCreations

def oneWorktreeLimit : WorktreeConfig := ⟨1, 1000, fun _ => "worktrees"⟩

def emptyDisk : WorktreeHost := ⟨none, none, none, none, [], [], 0⟩

/-- The creation of a worktree up to its reservation, over an empty root. -/
def creationUntilReserved (path jobId : String) : List CapacityEvent :=
  [.begin path, .readKnown path, .readRoot path, .reconcile path,
    .reserve path ("agent/" ++ jobId) jobId false]

/-- One worktree is made, and the reservation of a second is refused. -/
theorem retained_capacity_of_one_worktree :
    (grantedNow oneWorktreeLimit [] (run (capacityStep oneWorktreeLimit []) (.initial emptyDisk)
      (creationUntilReserved "worktrees/a" "A"
        ++ [.makeDirectory "worktrees/a" "a" (some 0), .addSucceeded "worktrees/a",
          .retain "worktrees/a", .begin "worktrees/b", .readKnown "worktrees/b",
          .readRoot "worktrees/b", .inspect "worktrees/b", .reconcile "worktrees/b",
          .reserve "worktrees/b" "agent/B" "B" false]))).length ≤ 1 :=
  (retained_capacity emptyDisk _ (by decide)).2

/-- Between the reservation of `a` and its directory, the creation of `b` reconciles: the row
of `a` is retired, `b` is granted too, and two worktrees stand where one may. -/
theorem reservation_in_flight_retired :
    ¬ Along (capacityStep oneWorktreeLimit []) (GrantedBelowCapacity oneWorktreeLimit [])
        (.initial emptyDisk)
        (creationUntilReserved "worktrees/a" "A" ++ creationUntilReserved "worktrees/b" "B") ∧
      (grantedNow oneWorktreeLimit [] (run (capacityStep oneWorktreeLimit []) (.initial emptyDisk)
        (creationUntilReserved "worktrees/a" "A" ++ creationUntilReserved "worktrees/b" "B"
          ++ [.makeDirectory "worktrees/a" "a" (some 0),
            .makeDirectory "worktrees/b" "b" (some 0)]))).length = 2 := by
  decide

end TwoCreations

end AgentBridge.Worktrees
