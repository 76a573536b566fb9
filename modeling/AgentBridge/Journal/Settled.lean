import AgentBridge.Journal.Frame

/-!
# Recovery leaves files and journal in agreement

Whatever fails and whatever else writes the checkout, a recovery pass ends with
the operation unresolved, or with every affected path at its preimage when the
pass last read it.
-/

namespace AgentBridge.Journal

open Systems List

variable {Local : Type} {instanceId : String} {settings : JournalSettings} {s s' : Machine}
variable {files : List JournalFile} {locals : Local}

/-- No external write reached the path since the call last read its bytes. -/
def untouched (path : String) : List JournalEvent → Bool
  | [] => true
  | .external p :: trace => p != path && untouched path trace
  | .read p :: trace => p == path || untouched path trace
  | .wrote _ _ :: trace => untouched path trace
  | .commitLost _ :: trace => untouched path trace

/-- The path holds what the call last read there, unless it was touched since. -/
def Seen (settings : JournalSettings) (path : String) (value : Fingerprint) (s : Machine) : Prop :=
  untouched path s.trace → (s.files path).fingerprint settings.execBit = some value

/-- No write of the bridge happened under a committed operation, and no commit
took effect whose transition threw. -/
def Clean (s : Machine) : Prop :=
  ∀ event ∈ s.trace, event ≠ .commitLost .committed ∧
    ∀ path, event ≠ .wrote path (some .committed)

/-- The machine holds an operation with the evidence `files`, and the bridge
wrote no other path. -/
structure Sound (files : List JournalFile) (s : Machine) : Prop where
  operation : ∃ operation, s.operation = some operation ∧ operation.files = files
  clean : Clean s
  known : ∀ path status, .wrote path status ∈ s.trace → path ∈ files.map (·.path)

/-- The operation is unresolved or quarantined: writers stay blocked. -/
structure Unresolved (files : List JournalFile) (s : Machine) : Prop extends Sound files s where
  unresolved : ∃ status, s.status = some status ∧ status.resolved = false

/-- Every affected path is at its preimage, as far as the call can tell. -/
def AtPreimages (settings : JournalSettings) (files : List JournalFile) (s : Machine) : Prop :=
  ∀ file ∈ files, ∃ value, file.preFingerprint settings = some value ∧
    Seen settings file.path value s

/-- Files and journal agree about a call that did not integrate. -/
structure Settled (settings : JournalSettings) (files : List JournalFile) (s : Machine) : Prop
    extends Sound files s where
  notCommitted : s.status ≠ some .committed
  agreed : (∃ status, s.status = some status ∧ status.resolved = false) ∨
    (∀ path status, .wrote path status ∉ s.trace) ∨ AtPreimages settings files s

/-! ## Frames -/

variable {path : String}

theorem untouched_of_external {trace : List JournalEvent} :
    ∀ {events : List JournalEvent}, (∀ event ∈ events, ∃ p, event = .external p) →
      untouched path (events ++ trace) →
      .external path ∉ events ∧ untouched path trace := by
  intro events
  induction events with
  | nil => exact fun _ h => ⟨by simp, h⟩
  | cons event events ih =>
    intro hexternal h
    have ⟨p, hp⟩ := hexternal event (by simp)
    rw [hp] at h ⊢
    simp only [cons_append, untouched, Bool.and_eq_true, bne_iff_ne] at h
    have ⟨hmem, htrace⟩ := ih (fun e he => hexternal e (by simp [he])) h.2
    refine ⟨?_, htrace⟩
    simp only [mem_cons, JournalEvent.external.injEq, not_or]
    exact ⟨fun heq => h.1 heq.symm, hmem⟩

theorem Seen.interfered {value : Fingerprint} (h : Seen settings path value s)
    (hinterfered : Interfered s s') : Seen settings path value s' := by
  intro huntouched
  have ⟨events, htrace, hexternal, hfiles⟩ := hinterfered.trace
  rw [htrace] at huntouched
  have ⟨hmem, hold⟩ := untouched_of_external hexternal huntouched
  rw [hfiles path hmem]
  exact h hold

variable {paths : List String}

theorem Clean.writes (h : Clean s) (hwrites : Writes paths s s')
    (hstatus : s.status ≠ some .committed) : Clean s' := by
  have ⟨events, htrace, hwithin, _⟩ := hwrites.trace
  intro event hevent
  rw [htrace] at hevent
  cases mem_append.mp hevent with
  | inr hold => exact h event hold
  | inl hnew =>
    have hw := hwithin event hnew
    cases event with
    | external path => simp
    | read path => simp
    | commitLost status => cases hw
    | wrote path status =>
      refine ⟨by simp, fun other heq => hstatus ?_⟩
      rw [← hw.2]
      exact (JournalEvent.wrote.inj heq).2

theorem Clean.interfered (h : Clean s) (hinterfered : Interfered s s') : Clean s' := by
  have ⟨events, htrace, hexternal, _⟩ := hinterfered.trace
  intro event hevent
  rw [htrace] at hevent
  cases mem_append.mp hevent with
  | inr hold => exact h event hold
  | inl hnew =>
    have ⟨path, hpath⟩ := hexternal event hnew
    simp [hpath]

theorem Clean.record {event : JournalEvent} (h : Clean s)
    (hlost : event ≠ .commitLost .committed)
    (hwrote : ∀ path, event ≠ .wrote path (some .committed)) : Clean (s.record event) := by
  intro other hother
  cases mem_cons.mp hother with
  | inl heq => exact heq ▸ ⟨hlost, hwrote⟩
  | inr hold => exact h other hold

theorem Sound.writes (h : Sound files s) (hwrites : Writes paths s s')
    (hstatus : s.status ≠ some .committed) (hpaths : ∀ path ∈ paths, path ∈ files.map (·.path)) :
    Sound files s' := by
  refine ⟨hwrites.operation ▸ h.operation, h.clean.writes hwrites hstatus, ?_⟩
  intro path status hmem
  have ⟨events, htrace, hwithin, _⟩ := hwrites.trace
  rw [htrace] at hmem
  cases mem_append.mp hmem with
  | inr hold => exact h.known path status hold
  | inl hnew => exact hpaths path (hwithin _ hnew).1

theorem Sound.interfered (h : Sound files s) (hinterfered : Interfered s s') : Sound files s' := by
  refine ⟨hinterfered.operation ▸ h.operation, h.clean.interfered hinterfered, ?_⟩
  intro path status hmem
  have ⟨events, htrace, hexternal, _⟩ := hinterfered.trace
  rw [htrace] at hmem
  cases mem_append.mp hmem with
  | inr hold => exact h.known path status hold
  | inl hnew =>
    have ⟨p, hp⟩ := hexternal _ hnew
    cases hp

variable {status : OperationStatus}

theorem Sound.record (h : Sound files s) (hne : status ≠ .committed) :
    Sound files (s.record (.commitLost status)) := by
  refine ⟨h.operation, h.clean.record (by simpa using hne) (by simp), ?_⟩
  intro path under hmem
  cases mem_cons.mp hmem with
  | inl heq => cases heq
  | inr hold => exact h.known path under hold

theorem Sound.moved {operation : JournalOperation} (h : Sound files s)
    (hoperation : s.operation = some operation) (row : IntegrationOperation) :
    Sound files (movedBy s operation row) := by
  have ⟨current, hcurrent, hfiles⟩ := h.operation
  have heq : operation = current := Option.some.inj (hoperation.symm.trans hcurrent)
  exact ⟨⟨_, rfl, heq ▸ hfiles⟩, h.clean, h.known⟩

theorem movedBy_status (s : Machine) (operation : JournalOperation) (row : IntegrationOperation) :
    (movedBy s operation row).status = some row.status := rfl

section

variable (h : Unresolved files s)

include h

theorem Unresolved.ne_committed : s.status ≠ some .committed := by
  have ⟨status, hstatus, hresolved⟩ := h.unresolved
  rw [hstatus]
  rintro ⟨⟩
  cases hresolved

theorem Unresolved.settled : Settled settings files s :=
  ⟨h.toSound, h.ne_committed, .inl h.unresolved⟩

theorem Unresolved.writes (hwrites : Writes paths s s')
    (hpaths : ∀ path ∈ paths, path ∈ files.map (·.path)) : Unresolved files s' :=
  ⟨h.toSound.writes hwrites h.ne_committed hpaths, hwrites.status ▸ h.unresolved⟩

theorem Unresolved.interfered (hinterfered : Interfered s s') : Unresolved files s' :=
  ⟨h.toSound.interfered hinterfered, hinterfered.status ▸ h.unresolved⟩

theorem Unresolved.moved {operation : JournalOperation} {row : IntegrationOperation}
    (hoperation : s.operation = some operation) (hresolved : row.status.resolved = false) :
    Unresolved files (movedBy s operation row) :=
  ⟨h.toSound.moved hoperation row, row.status, rfl, hresolved⟩

theorem Unresolved.record (hne : status ≠ .committed) :
    Unresolved files (s.record (.commitLost status)) :=
  ⟨h.toSound.record hne, h.unresolved⟩

end

theorem AtPreimages.interfered (h : AtPreimages settings files s)
    (hinterfered : Interfered s s') : AtPreimages settings files s' := by
  intro file hfile
  have ⟨value, hvalue, hseen⟩ := h file hfile
  exact ⟨value, hvalue, hseen.interfered hinterfered⟩

theorem Settled.interfered (h : Settled settings files s) (hinterfered : Interfered s s') :
    Settled settings files s' := by
  refine ⟨h.toSound.interfered hinterfered, hinterfered.status ▸ h.notCommitted, ?_⟩
  rcases h.agreed with hunresolved | hnothing | hpre
  · exact .inl (hinterfered.status ▸ hunresolved)
  · refine .inr (.inl fun path status hmem => ?_)
    have ⟨events, htrace, hexternal, _⟩ := hinterfered.trace
    rw [htrace] at hmem
    cases mem_append.mp hmem with
    | inr hold => exact hnothing path status hold
    | inl hnew =>
      have ⟨p, hp⟩ := hexternal _ hnew
      cases hp
  · exact .inr (.inr (hpre.interfered hinterfered))

/-! ## Snapshots -/

theorem snapshotLeaf_fingerprint {totalBytes : Nat} {leaf : Leaf} {value : Fingerprint × Nat}
    (h : snapshotLeaf settings totalBytes leaf = .ok value) :
    leaf.fingerprint settings.execBit = some value.1 := by
  cases leaf with
  | missing =>
    cases h
    rfl
  | link target =>
    cases h
    rfl
  | directory => cases h
  | file mode content =>
    simp only [snapshotLeaf] at h
    split at h
    · cases h
    · split at h <;> cases h
      rfl

variable {failed : JournalError → Local → Machine → Prop}

theorem wp_readLeaf {returned : Leaf → Local → Machine → Prop}
    (hread : ∀ s', Interfered s s' → returned (s'.files path) locals (s'.record (.read path)))
    (hfailed : ∀ error s', Interfered s s' → failed error locals s') :
    Procedure.wp (execute instanceId) (fun _ => True)
      (issue (.readLeaf path)) returned failed locals s := by
  refine (Procedure.wp_call (JournalCommand.readLeaf path)).mpr ⟨trivial, fun env => ?_⟩
  have hinterfered := interfered_interfere s env
  have hexec : execute instanceId env s (.readLeaf path) =
      reading (s.interfere env) env path := rfl
  rw [hexec]
  unfold reading
  cases env.fault with
  | none => exact hread _ hinterfered
  | _ => exact hfailed _ _ hinterfered

theorem Seen.read_other {other : String} {value : Fingerprint} (h : Seen settings path value s)
    (hne : other ≠ path) : Seen settings path value (s.record (.read other)) := by
  intro huntouched
  simp only [Machine.record, untouched, Bool.or_eq_true, beq_iff_eq] at huntouched
  cases huntouched with
  | inl heq => exact absurd heq hne
  | inr hold => exact h hold

theorem exactIntegrationFileSnapshotFrom_spec (paths : List String) (hnodup : paths.Nodup)
    (totalBytes : Nat) (s : Machine) :
    (exactIntegrationFileSnapshotFrom settings totalBytes paths).wp (execute instanceId)
      (fun _ => True)
      (fun snapshot locals' s' => locals' = locals ∧ Writes [] s s' ∧
        (∀ path ∈ paths, ∃ value, snapshot.lookup path = some value ∧
          Seen settings path value s') ∧
        ∀ path value, path ∉ paths → Seen settings path value s → Seen settings path value s')
      (fun _ locals' s' => locals' = locals ∧ Writes [] s s') locals s := by
  induction paths generalizing s totalBytes with
  | nil => exact ⟨rfl, .refl _ s, by simp, fun _ _ _ h => h⟩
  | cons path paths ih =>
    have hcons := nodup_cons.mp hnodup
    unfold exactIntegrationFileSnapshotFrom
    refine .bind ?_
    refine wp_readLeaf (fun s₁ h₁ => ?_) fun error s₁ h₁ => ⟨rfl, h₁.writes _⟩
    have hread : Writes [] s (s₁.record (.read path)) :=
      (h₁.writes _).trans (writes_record_read s₁ path)
    cases hleaf : snapshotLeaf settings totalBytes (s₁.files path) with
    | error error => exact ⟨rfl, hread⟩
    | ok value =>
      obtain ⟨fingerprint, counted⟩ := value
      have hseen : Seen settings path fingerprint (s₁.record (.read path)) :=
        fun _ => snapshotLeaf_fingerprint hleaf
      show Procedure.wp _ _
        (exactIntegrationFileSnapshotFrom settings counted paths >>= _) _ _ _ _
      refine .bind ?_
      refine .mono (ih hcons.2 counted _) ?_ ?_
      · rintro rest _ s₂ ⟨rfl, h₂, hpaths, hothers⟩
        refine ⟨rfl, hread.trans h₂, ?_, ?_⟩
        · intro other hother
          by_cases heq : other = path
          · subst heq
            exact ⟨fingerprint, by simp [List.lookup], hothers _ _ hcons.1 hseen⟩
          · have hmem : other ∈ paths := (mem_cons.mp hother).resolve_left heq
            have ⟨found, hlookup, hfound⟩ := hpaths other hmem
            have hbeq : (other == path) = false := by simpa using heq
            exact ⟨found, by simp [List.lookup, hbeq, hlookup], hfound⟩
        · intro other found hother hseen'
          simp only [mem_cons, not_or] at hother
          exact hothers other found hother.2
            ((hseen'.interfered h₁).read_other fun h => hother.1 h.symm)
      · rintro _ _ s₂ ⟨rfl, h₂⟩
        exact ⟨rfl, hread.trans h₂⟩

theorem exactIntegrationFileSnapshot_spec (paths : List String) (hnodup : paths.Nodup)
    (s : Machine) :
    (exactIntegrationFileSnapshot settings paths).wp (execute instanceId) (fun _ => True)
      (fun snapshot locals' s' => locals' = locals ∧ Writes [] s s' ∧
        ∀ path ∈ paths, ∃ value, snapshot.lookup path = some value ∧ Seen settings path value s')
      (fun _ locals' s' => locals' = locals ∧ Writes [] s s') locals s :=
  .mono (exactIntegrationFileSnapshotFrom_spec paths hnodup 0 s)
    (fun _ _ _ h => ⟨h.1, h.2.1, h.2.2.1⟩) fun _ _ _ h => h

/-! ## Parts of a recovery pass -/

section

variable {α β : Type}

/-- The procedure leaves an unresolved operation unresolved. -/
def KeepsUnresolved (instanceId : String) (files : List JournalFile) (m : Action Local α) : Prop :=
  Procedure.Within (execute instanceId)
    (fun s s' => Unresolved files s → Unresolved files s') m

/-- From an unresolved operation the procedure ends with files and journal in
agreement. -/
def Settles (instanceId : String) (settings : JournalSettings) (files : List JournalFile)
    (m : Action Local α) : Prop :=
  ∀ locals s, Unresolved files s →
    m.wp (execute instanceId) (fun _ => True) (fun _ _ s' => Settled settings files s')
      (fun _ _ s' => Settled settings files s') locals s

variable {m : Action Local α}

theorem KeepsUnresolved.settles (h : KeepsUnresolved instanceId files m) :
    Settles instanceId settings files m := fun locals s hs =>
  .mono (h locals s) (fun _ _ _ h => (h.2 hs).settled)
    fun _ _ _ h => (h.2 hs).settled

theorem Settles.pure (value : α) :
    Settles instanceId settings files (Pure.pure value : Action Local α) :=
  fun _ _ hs => hs.settled

theorem Settles.ite {condition : Prop} [Decidable condition] {m' : Action Local α}
    (hm : Settles instanceId settings files m) (hm' : Settles instanceId settings files m') :
    Settles instanceId settings files (if condition then m else m') :=
  fun locals s hs => .ite (fun _ => hm locals s hs) fun _ => hm' locals s hs

variable {f : α → Action Local β}

theorem Settles.observe (hm : Quiet m) (hf : ∀ value, Settles instanceId settings files (f value)) :
    Settles instanceId settings files (m >>= f) := fun _ _ hs =>
  hm.then (fun value s' h => hf value _ s' (hs.interfered h)) fun _ _ h =>
    (hs.interfered h).settled

theorem Settles.keep (hm : Confined paths m) (hpaths : ∀ path ∈ paths, path ∈ files.map (·.path))
    (hf : ∀ value, Settles instanceId settings files (f value)) :
    Settles instanceId settings files (m >>= f) := fun _ _ hs =>
  hm.then (fun value s' h => hf value _ s' (hs.writes h hpaths)) fun _ _ h =>
    (hs.writes h hpaths).settled

theorem KeepsUnresolved.bind (hm : KeepsUnresolved instanceId files m)
    (hf : ∀ value, KeepsUnresolved instanceId files (f value)) :
    KeepsUnresolved instanceId files (m >>= f) :=
  Procedure.Within.bind (fun h h' hs => h' (h hs)) hm hf

theorem KeepsUnresolved.ite {condition : Prop} [Decidable condition] {m' : Action Local α}
    (hm : KeepsUnresolved instanceId files m) (hm' : KeepsUnresolved instanceId files m') :
    KeepsUnresolved instanceId files (if condition then m else m') :=
  Procedure.Within.ite hm hm'

theorem KeepsUnresolved.pure (value : α) :
    KeepsUnresolved instanceId files (Pure.pure value : Action Local α) :=
  Procedure.Within.pure (fun _ => id) value

end

theorem keepsUnresolved_quarantine (expectedStatuses : List OperationStatus) (reason : String)
    (authority : Option JournalAuthority) :
    KeepsUnresolved instanceId files
      (quarantineIntegrationOperation expectedStatuses reason authority : Action Local Bool) := by
  refine .recover (fun h h' hs => h' (h hs)) ?_ fun _ =>
    KeepsUnresolved.pure false
  refine KeepsUnresolved.bind ?_ fun _ => KeepsUnresolved.pure true
  intro locals s
  refine wp_transition ?_ ?_ fun error s' h => ⟨rfl, fun hs => hs.interfered h⟩
  · intro s' operation row h hoperation hstatus _
    exact ⟨rfl, fun hs => (hs.interfered h).moved hoperation (by rw [hstatus]; rfl)⟩
  · intro error s' operation row h hoperation hstatus _
    exact ⟨rfl, fun hs =>
      ((hs.interfered h).moved hoperation (by rw [hstatus]; rfl)).record (by simp)⟩

theorem keepsUnresolved_recoveryQuarantine (currentStatus : OperationStatus) (reason : String)
    (authority : Option JournalAuthority) :
    KeepsUnresolved instanceId files
      (recoveryQuarantine currentStatus reason authority : Action Local RecoveryResult) :=
  KeepsUnresolved.bind (keepsUnresolved_quarantine _ reason authority) fun _ =>
    KeepsUnresolved.pure _

variable {currentStatus expected : OperationStatus} {outcome : String}

theorem wp_recoveryTransition {authority : Option JournalAuthority}
    {next : Action Local RecoveryResult} {returned : RecoveryResult → Local → Machine → Prop}
    (hmoved : ∀ s' operation row, Interfered s s' → s'.operation = some operation →
      row.status = status →
      next.wp (execute instanceId) (fun _ => True) returned failed locals
        (movedBy s' operation row))
    (hlost : ∀ (error : JournalError) s' operation row, Interfered s s' →
      s'.operation = some operation → row.status = status →
      returned (.retryable currentStatus error.errorType) locals
        ((movedBy s' operation row).record (.commitLost status)))
    (hrejected : ∀ (error : JournalError) s', Interfered s s' →
      returned (.retryable currentStatus error.errorType) locals s') :
    (recoveryTransition expected status currentStatus outcome authority next).wp
      (execute instanceId) (fun _ => True) returned failed locals s := by
  refine .bind (.recover (.bind (wp_transition ?_ ?_ ?_)))
  · exact fun s' operation row h hoperation hstatus _ =>
      hmoved s' operation row h hoperation hstatus
  · exact fun error s' operation row h hoperation hstatus _ =>
      hlost error s' operation row h hoperation hstatus
  · exact hrejected

theorem settles_recoveryTransition {authority : Option JournalAuthority}
    {next : Action Local RecoveryResult} (hresolved : status.resolved = false)
    (hnext : Settles instanceId settings files next) :
    Settles instanceId settings files
      (recoveryTransition expected status currentStatus outcome authority next) := by
  intro locals s hs
  refine wp_recoveryTransition ?_ ?_ fun error s' h => (hs.interfered h).settled
  · intro s' operation row h hoperation hstatus
    exact hnext locals _ ((hs.interfered h).moved hoperation (hstatus ▸ hresolved))
  · intro error s' operation row h hoperation hstatus
    have hne : status ≠ .committed := by
      rintro rfl
      cases hresolved
    exact (((hs.interfered h).moved hoperation (hstatus ▸ hresolved)).record hne).settled

/-- The closing transition, once every affected path was read at its preimage. -/
theorem wp_closeTransition {authority : Option JournalAuthority} (hs : Unresolved files s)
    (hpre : AtPreimages settings files s) (hne : status ≠ .committed) :
    (recoveryTransition expected status currentStatus outcome authority
      (pure (.resolved status))).wp (execute instanceId) (fun _ => True)
      (fun _ _ s' => Settled settings files s') (fun _ _ s' => Settled settings files s')
      locals s := by
  refine wp_recoveryTransition ?_ ?_ fun error s' h => (hs.interfered h).settled
  · intro s' operation row h hoperation hstatus
    have hpre' := hpre.interfered h
    refine ⟨(hs.interfered h).toSound.moved hoperation row, ?_, .inr (.inr hpre')⟩
    rw [movedBy_status, hstatus]
    simpa using hne
  · intro error s' operation row h hoperation hstatus
    have hpre' := hpre.interfered h
    refine ⟨((hs.interfered h).toSound.moved hoperation row).record hne, ?_,
      .inr (.inr hpre')⟩
    show (movedBy s' operation row).status ≠ _
    rw [movedBy_status, hstatus]
    simpa using hne

/-! ## The pass -/

variable {operation : JournalOperation} (authority : Option JournalAuthority)

/-- `verifyRestored` says yes only when every affected path was read at its
preimage. -/
theorem verifyRestored_spec (hnodup : (operation.files.map (·.path)).Nodup) (s : Machine) :
    (verifyRestored settings operation).wp (execute instanceId) (fun _ => True)
      (fun verified locals' s' => locals' = locals ∧ Writes [] s s' ∧
        (verified = .ok true → AtPreimages settings operation.files s'))
      (fun _ locals' s' => locals' = locals ∧ Writes [] s s') locals s := by
  refine .recover (.bind (.mono (exactIntegrationFileSnapshot_spec _ hnodup s) ?_ ?_))
  · rintro snapshot _ s' ⟨rfl, hwrites, hseen⟩
    refine ⟨rfl, hwrites, fun hverified file hfile => ?_⟩
    have ⟨value, hlookup, hvalue⟩ := hseen file.path (mem_map_of_mem hfile)
    have hall := all_eq_true.mp (Except.ok.inj hverified) file hfile
    rw [hlookup, beq_iff_eq] at hall
    exact ⟨value, hall.symm, hvalue⟩
  · rintro error _ s' ⟨rfl, hwrites⟩
    exact ⟨rfl, hwrites, fun h => by cases h⟩

theorem settles_finishRollback (hnodup : (operation.files.map (·.path)).Nodup) :
    Settles instanceId settings operation.files
      (finishRollback settings operation authority : Action Local RecoveryResult) := by
  intro locals s hs
  refine .bind (.mono (verifyRestored_spec hnodup s) ?_ ?_)
  · rintro verified _ s₁ ⟨rfl, h₁, hverified⟩
    have hs₁ := hs.writes h₁ (by simp)
    match verified with
    | .error error =>
      exact Settles.ite (keepsUnresolved_recoveryQuarantine _ _ authority).settles
        (Settles.pure _) _ s₁ hs₁
    | .ok false =>
      exact (keepsUnresolved_recoveryQuarantine _ _ authority).settles _ s₁ hs₁
    | .ok true =>
      have hpre := hverified rfl
      refine Quiet.then (integrationRecoveryBaseline_quiet operation)
        (fun baseline s₂ h₂ => ?_) fun _ _ h₂ => (hs₁.interfered h₂).settled
      match baseline with
      | .drifted =>
        exact (keepsUnresolved_recoveryQuarantine _ _ authority).settles _ s₂
          (hs₁.interfered h₂)
      | .unavailable errorType => exact (hs₁.interfered h₂).settled
      | .unchanged =>
        exact wp_closeTransition (hs₁.interfered h₂) (hpre.interfered h₂) (by simp)
  · rintro error _ s₁ ⟨rfl, h₁⟩
    exact (hs.writes h₁ (by simp)).settled

theorem settles_rollBackFiles (hnodup : (operation.files.map (·.path)).Nodup)
    {classes : List (JournalFile × Classification)}
    (hclasses : ∀ entry ∈ classes, entry.1 ∈ operation.files) :
    Settles instanceId settings operation.files
      (rollBackFiles settings operation classes authority : Action Local RecoveryResult) := by
  have hrestore : Confined (classes.map (·.1.path))
      (.recover
        (do
          restoreFiles classes
          pure none)
        fun error => pure (some error) : Action Local (Option JournalError)) :=
    .recover (.bind (restoreFiles_confined classes) fun _ => .pure _) fun _ => .pure _
  refine .keep hrestore ?_ fun failure => ?_
  · intro path hpath
    have ⟨entry, hentry, heq⟩ := mem_map.mp hpath
    exact heq ▸ mem_map_of_mem (hclasses entry hentry)
  · cases failure with
    | none => exact settles_finishRollback authority hnodup
    | some error =>
      exact .ite (.pure _) (keepsUnresolved_recoveryQuarantine _ _ authority).settles

theorem classifyFiles_spec (current : Snapshot) (entries : List JournalFile) (s : Machine) :
    (classifyFiles settings current entries).wp (execute instanceId) (fun _ => True)
      (fun classes locals' s' => locals' = locals ∧ Writes [] s s' ∧
        (∀ entry ∈ classes, entry.1 ∈ entries) ∧
        (classes.all (·.2 == .pre) → s' = s ∧ ∀ file ∈ entries,
          current.lookup file.path = file.preFingerprint settings))
      (fun _ locals' s' => locals' = locals ∧ Writes [] s s') locals s := by
  induction entries generalizing s with
  | nil => exact ⟨rfl, Writes.refl _ s, by simp, fun _ => ⟨rfl, by simp⟩⟩
  | cons file entries ih =>
    have hstep : ∀ class' s₁, Writes [] s s₁ →
        (class' = .pre → s₁ = s ∧
          current.lookup file.path = file.preFingerprint settings) →
        (do
          let rest ← classifyFiles settings current entries
          pure ((file, class') :: rest) : Action Local _).wp (execute instanceId)
          (fun _ => True)
          (fun classes locals' s' => locals' = locals ∧ Writes [] s s' ∧
            (∀ entry ∈ classes, entry.1 ∈ file :: entries) ∧
            (classes.all (·.2 == .pre) → s' = s ∧ ∀ file' ∈ file :: entries,
              current.lookup file'.path = file'.preFingerprint settings))
          (fun _ locals' s' => locals' = locals ∧ Writes [] s s') locals s₁ := by
      intro class' s₁ h₁ hclass
      refine .bind (.mono (ih s₁) ?_ ?_)
      · rintro rest _ s₂ ⟨rfl, h₂, hmem, hall⟩
        refine ⟨rfl, h₁.trans h₂, ?_, ?_⟩
        · intro entry hentry
          cases mem_cons.mp hentry with
          | inl heq => exact heq ▸ mem_cons_self
          | inr hrest => exact mem_cons_of_mem _ (hmem entry hrest)
        · intro hpre
          simp only [all_cons, Bool.and_eq_true, beq_iff_eq] at hpre
          have ⟨hsame, hlookup⟩ := hclass hpre.1
          have ⟨hsame', hlookups⟩ := hall hpre.2
          refine ⟨hsame'.trans hsame, fun other hother => ?_⟩
          cases mem_cons.mp hother with
          | inl heq => exact heq ▸ hlookup
          | inr hrest => exact hlookups other hrest
      · rintro error _ s₂ ⟨rfl, h₂⟩
        exact ⟨rfl, h₁.trans h₂⟩
    refine .bind (.ite (fun hpre => ?_) fun _ => ?_)
    · exact hstep .pre s (Writes.refl _ s) fun _ => ⟨rfl, hpre⟩
    · refine Confined.then (integrationContentMatches_confined _ _ _ _)
        (fun matching s₁ h₁ => ?_) fun _ _ h₁ => ⟨rfl, h₁⟩
      refine hstep (if matching then .post else .third) s₁ h₁ fun h => ?_
      cases matching <;> cases h

section

variable (hnodup : (operation.files.map (·.path)).Nodup)

include hnodup

theorem classifyOperation_spec (s : Machine) :
    (classifyOperation settings operation).wp (execute instanceId) (fun _ => True)
      (fun classified locals' s' => locals' = locals ∧ Writes [] s s' ∧
        ∀ classes, classified = .ok classes →
          (∀ entry ∈ classes, entry.1 ∈ operation.files) ∧
          (classes.all (·.2 == .pre) → AtPreimages settings operation.files s'))
      (fun _ locals' s' => locals' = locals ∧ Writes [] s s') locals s := by
  refine .recover (.bind (.mono (exactIntegrationFileSnapshot_spec _ hnodup s) ?_ ?_))
  · rintro current _ s₁ ⟨rfl, h₁, hseen⟩
    refine .bind (.mono (classifyFiles_spec current operation.files s₁) ?_ ?_)
    · rintro classes _ s₂ ⟨rfl, h₂, hmem, hall⟩
      refine ⟨rfl, h₁.trans h₂, fun classes' heq => ?_⟩
      cases heq
      refine ⟨hmem, fun hpre file hfile => ?_⟩
      have ⟨hsame, hlookups⟩ := hall hpre
      have ⟨value, hlookup, hvalue⟩ := hseen file.path (mem_map_of_mem hfile)
      exact ⟨value, (hlookups file hfile).symm.trans hlookup, hsame ▸ hvalue⟩
    · rintro error _ s₂ ⟨rfl, h₂⟩
      exact ⟨rfl, h₁.trans h₂, fun _ h => by cases h⟩
  · rintro error _ s₁ ⟨rfl, h₁⟩
    exact ⟨rfl, h₁, fun _ h => by cases h⟩

theorem wp_recoverClassified {classes : List (JournalFile × Classification)}
    (hclasses : ∀ entry ∈ classes, entry.1 ∈ operation.files)
    (hpre : classes.all (·.2 == .pre) → AtPreimages settings operation.files s)
    (hs : Unresolved operation.files s) :
    (recoverClassified settings operation classes authority).wp (execute instanceId)
      (fun _ => True) (fun _ _ s' => Settled settings operation.files s')
      (fun _ _ s' => Settled settings operation.files s') locals s := by
  refine .ite (fun _ => ?_) fun _ => .ite (fun hall => ?_) fun _ => ?_
  · exact (keepsUnresolved_recoveryQuarantine _ _ authority).settles locals s hs
  · exact wp_closeTransition hs (hpre hall) (by simp)
  · exact settles_recoveryTransition rfl (settles_rollBackFiles authority hnodup hclasses)
      locals s hs

theorem settles_recoverEvidence :
    Settles instanceId settings operation.files
      (recoverEvidence settings operation authority : Action Local RecoveryResult) := by
  have hevidence : Quiet
      (.recover
        (do
          readEvidence operation.files
          pure none)
        fun error => pure (some error) : Action Local (Option JournalError)) :=
    .recover (.bind (readEvidence_quiet _) fun _ => .pure _) fun _ => .pure _
  refine .observe hevidence fun failure => ?_
  cases failure with
  | some error =>
    exact .ite (.pure _) (keepsUnresolved_recoveryQuarantine _ _ authority).settles
  | none =>
    refine .observe (integrationRecoveryBaseline_quiet operation) fun baseline => ?_
    cases baseline with
    | drifted => exact (keepsUnresolved_recoveryQuarantine _ _ authority).settles
    | unavailable errorType => exact .pure _
    | unchanged =>
      intro locals s hs
      refine .bind (.mono (classifyOperation_spec hnodup s) ?_ ?_)
      · rintro classified _ s₁ ⟨rfl, h₁, hclassified⟩
        have hs₁ := hs.writes h₁ (by simp)
        cases classified with
        | error error =>
          exact Settles.ite (keepsUnresolved_recoveryQuarantine _ _ authority).settles
            (Settles.pure _) _ s₁ hs₁
        | ok classes =>
          have ⟨hclasses, hpre⟩ := hclassified classes rfl
          exact wp_recoverClassified authority hnodup hclasses hpre hs₁
      · rintro error _ s₁ ⟨rfl, h₁⟩
        exact (hs.writes h₁ (by simp)).settled

theorem settles_recoverSingle :
    Settles instanceId settings operation.files
      (recoverSingleIntegrationOperationWhileLocked settings operation authority :
        Action Local RecoveryResult) :=
  .ite (keepsUnresolved_recoveryQuarantine _ _ authority).settles
    (.ite (settles_recoverEvidence authority hnodup)
      (settles_recoveryTransition rfl (settles_recoverEvidence authority hnodup)))

theorem settles_requalify :
    Settles instanceId settings operation.files
      (requalifyStateDriftQuarantine settings operation authority : Action Local Bool) := by
  refine .ite (.pure _) fun locals s hs => .recover ?_
  refine Quiet.then (integrationRecoveryBaseline_quiet operation)
    (fun baseline s₁ h₁ => .ite (fun _ => (hs.interfered h₁).settled) fun _ => ?_)
    fun _ _ h₁ => (hs.interfered h₁).settled
  refine Quiet.then (readEvidence_quiet _) (fun _ s₂ h₂ => ?_)
    fun _ _ h₂ => ((hs.interfered h₁).interfered h₂).settled
  have hs₂ := (hs.interfered h₁).interfered h₂
  refine .bind (.mono (verifyRestored_spec hnodup s₂) ?_ ?_)
  · rintro verified _ s₃ ⟨rfl, h₃, hverified⟩
    have hs₃ := hs₂.writes h₃ (by simp)
    match verified with
    | .error error => exact hs₃.settled
    | .ok false => exact hs₃.settled
    | .ok true =>
      have hpre := hverified rfl
      refine .bind (wp_transition ?_ ?_ fun _ _ h =>
        (hs₃.interfered h).settled)
      · intro s' operation row h hoperation hstatus _
        have hpre' := hpre.interfered h
        exact ⟨(hs₃.interfered h).toSound.moved hoperation row,
          by rw [movedBy_status, hstatus]; simp, .inr (.inr hpre')⟩
      · intro error s' operation row h hoperation hstatus _
        have hpre' := hpre.interfered h
        refine ⟨((hs₃.interfered h).toSound.moved hoperation row).record (by simp), ?_,
          .inr (.inr hpre')⟩
        show (movedBy s' operation row).status ≠ _
        rw [movedBy_status, hstatus]
        simp
  · rintro error _ s₃ ⟨rfl, h₃⟩
    exact (hs₂.writes h₃ (by simp)).settled

end

theorem wp_loadOperation {operationId : String}
    {returned : Option JournalOperation → Local → Machine → Prop}
    (hfound : ∀ s' operation, Interfered s s' → s'.operation = some operation →
      operation.row.status.resolved = false → returned (some operation) locals s')
    (hmissing : ∀ s', Interfered s s' → returned none locals s')
    (hfailed : ∀ error s', Interfered s s' → failed error locals s') :
    Procedure.wp (execute instanceId) (fun _ => True)
      (issue (.loadOperation operationId)) returned failed locals s := by
  refine (Procedure.wp_call (JournalCommand.loadOperation operationId)).mpr
    ⟨trivial, fun env => ?_⟩
  have hinterfered := interfered_interfere s env
  have hexec : execute instanceId env s (.loadOperation operationId) =
      answering (s.interfere env) env ((s.interfere env).operation.filter fun operation =>
        operation.row.operationId == operationId && !operation.row.status.resolved) := rfl
  rw [hexec]
  unfold answering
  cases env.fault with
  | none =>
    show returned ((s.interfere env).operation.filter _) locals (s.interfere env)
    cases hreply : (s.interfere env).operation.filter fun operation =>
        operation.row.operationId == operationId && !operation.row.status.resolved with
    | none => exact hmissing _ hinterfered
    | some operation =>
      have ⟨hoperation, hmatch⟩ := Option.filter_eq_some_iff.mp hreply
      simp only [Bool.and_eq_true, beq_iff_eq, Bool.not_eq_true'] at hmatch
      exact hfound _ operation hinterfered hoperation hmatch.2
  | _ => exact hfailed _ _ hinterfered

theorem wp_recoverIntegrationOperations (hnodup : (files.map (·.path)).Nodup)
    (operationId : String) (integrationLock : Bool) (recoveryGeneration : String)
    (hs : Settled settings files s) :
    (recoverIntegrationOperationsWhileLocked settings operationId integrationLock
      recoveryGeneration).wp (execute instanceId) (fun _ => True)
      (fun _ _ s' => Settled settings files s') (fun _ _ s' => Settled settings files s')
      locals s := by
  refine .bind (wp_loadOperation (fun s₁ operation h₁ hoperation hopen => ?_)
    (fun s₁ h₁ => hs.interfered h₁) fun _ s₁ h₁ => hs.interfered h₁)
  have hsound := hs.toSound.interfered h₁
  have hfiles : operation.files = files := by
    have ⟨current, hcurrent, heq⟩ := hsound.operation
    rw [Option.some.inj (hoperation.symm.trans hcurrent)]
    exact heq
  subst hfiles
  have hs₁ : Unresolved operation.files s₁ :=
    ⟨hsound, operation.row.status, by simp [Machine.status, hoperation], hopen⟩
  refine .ite (fun _ => ?_) fun _ => ?_
  · exact .bind (.mono
      (settles_requalify _ hnodup locals s₁ hs₁) (fun _ _ _ h => h) fun _ _ _ h => h)
  · exact .bind (.mono
      (settles_recoverSingle _ hnodup locals s₁ hs₁) (fun _ _ _ h => h) fun _ _ _ h => h)

end AgentBridge.Journal
