import AgentBridge.Integration.Apply
import AgentBridge.Journal.Settled

/-!
# Every exit leaves files and journal in agreement

Each exit of the call ends with the operation unresolved, or with nothing
written; the `finally` clause then settles it. Only the exit of the last
transition reports success.
-/

namespace AgentBridge.Integration

open Journal Systems List

variable {instanceId : String} {call : IntegrationCall} {s s' : Machine}
variable {files : List JournalFile} {locals : IntegrationLocals}

/-- The reviewed content of a path, up to the CRLF conversion of its checkout. -/
def Reviewed (expected current : Fingerprint) : Prop :=
  current = expected ∨ ∃ mode content converted, current = .file mode content ∧
    crlfToLfBytes content = some converted ∧ expected = .file mode converted

/-- A snapshot in which every affected path has its reviewed content. -/
def SnapshotReviewed (call : IntegrationCall) (snapshot : Snapshot) : Prop :=
  ∀ path ∈ call.changedFiles, ∃ expected current,
    call.expectedPostApplySnapshot.lookup path = some expected ∧
      snapshot.lookup path = some current ∧ Reviewed expected current

/-- Every affected path was last read with its reviewed content. -/
def HoldsReviewed (call : IntegrationCall) (s : Machine) : Prop :=
  ∀ path ∈ call.changedFiles, ∃ expected current,
    call.expectedPostApplySnapshot.lookup path = some expected ∧ Reviewed expected current ∧
      Seen call.settings path current s

/-- A commit took effect whose transition threw. -/
def CommitLost (s : Machine) : Prop :=
  .commitLost .committed ∈ s.trace

/-- The bridge has not written any path. -/
def Unwritten (s : Machine) : Prop :=
  ∀ path status, .wrote path status ∉ s.trace

/-- The call has neither journaled nor written anything. -/
structure Unstarted (s : Machine) : Prop where
  operation : s.operation = none
  clean : Clean s
  unwritten : Unwritten s

/-- Files and journal agree about a call that did not integrate. -/
def Agreed (call : IntegrationCall) (s : Machine) : Prop :=
  Unstarted s ∨ ∃ files, files.map (·.path) = call.changedFiles ∧ Settled call.settings files s

/-- How the `try` block returns. -/
def Exited (call : IntegrationCall) (result : IntegrationResult) (locals : IntegrationLocals)
    (s : Machine) : Prop :=
  CommitLost s ∨
    if result.ok then
      locals.integrationOperationCommitted = true ∧ s.status = some .committed ∧ Clean s ∧
        HoldsReviewed call s
    else Agreed call s

/-- How the `try` block throws. Once the patch was applied the operation is open,
so that the rollback of the `catch` clause is followed by recovery. -/
def Threw (call : IntegrationCall) (locals : IntegrationLocals) (s : Machine) : Prop :=
  CommitLost s ∨ (locals.patchApplied = false ∧ Agreed call s) ∨
    ∃ files, files.map (·.path) = call.changedFiles ∧ Unresolved files s

/-! ## Frames -/

theorem HoldsReviewed.interfered (h : HoldsReviewed call s) (hinterfered : Interfered s s') :
    HoldsReviewed call s' := by
  intro path hpath
  have ⟨expected, current, hexpected, hreviewed, hseen⟩ := h path hpath
  exact ⟨expected, current, hexpected, hreviewed, hseen.interfered hinterfered⟩

theorem Unwritten.writes (h : Unwritten s) (hwrites : Writes [] s s') : Unwritten s' := by
  intro path status hmem
  have ⟨events, htrace, hwithin, _⟩ := hwrites.trace
  rw [htrace] at hmem
  cases mem_append.mp hmem with
  | inr hold => exact h path status hold
  | inl hnew => cases (hwithin _ hnew).1

theorem Unwritten.interfered (h : Unwritten s) (hinterfered : Interfered s s') : Unwritten s' :=
  h.writes (hinterfered.writes [])

theorem Unstarted.writes (h : Unstarted s) (hwrites : Writes [] s s') : Unstarted s' := by
  have hstatus : s.status ≠ some .committed := by
    rw [Machine.status, h.operation]
    simp
  exact ⟨hwrites.operation.trans h.operation, h.clean.writes hwrites hstatus,
    h.unwritten.writes hwrites⟩

theorem Unstarted.interfered (h : Unstarted s) (hinterfered : Interfered s s') : Unstarted s' :=
  h.writes (hinterfered.writes [])

theorem Agreed.interfered (h : Agreed call s) (hinterfered : Interfered s s') :
    Agreed call s' := by
  cases h with
  | inl hunstarted => exact .inl (hunstarted.interfered hinterfered)
  | inr hsettled =>
    have ⟨files, hpaths, hs⟩ := hsettled
    exact .inr ⟨files, hpaths, hs.interfered hinterfered⟩

/-! ## Exits with an open operation -/

section

variable {α : Type}

/-- From an open operation the rest of the `try` block ends in agreement. -/
def Exits (instanceId : String) (call : IntegrationCall)
    (m : Action IntegrationLocals IntegrationResult) : Prop :=
  ∀ locals s files, files.map (·.path) = call.changedFiles → Unresolved files s →
    m.wp (execute instanceId) (fun _ => True) (Exited call) (fun _ => Threw call) locals s

/-- The same, given that the affected paths hold the reviewed content. -/
def Accepts (instanceId : String) (call : IntegrationCall)
    (m : Action IntegrationLocals IntegrationResult) : Prop :=
  ∀ locals s files, files.map (·.path) = call.changedFiles → Unresolved files s →
    HoldsReviewed call s →
    m.wp (execute instanceId) (fun _ => True) (Exited call) (fun _ => Threw call) locals s

theorem threw_of_unresolved (hpaths : files.map (·.path) = call.changedFiles)
    (hs : Unresolved files s) : Threw call locals s :=
  .inr (.inr ⟨files, hpaths, hs⟩)

theorem exited_of_unresolved {errorType : String} {rollback : Option RollbackResult}
    (hpaths : files.map (·.path) = call.changedFiles) (hs : Unresolved files s) :
    Exited call (refused errorType rollback) locals s :=
  .inr (.inr ⟨files, hpaths, hs.settled⟩)

theorem Exits.refuse (errorType : String) (rollback : Option RollbackResult) :
    Exits instanceId call (pure (refused errorType rollback)) :=
  fun _ _ _ hpaths hs => exited_of_unresolved hpaths hs

theorem Exits.raise (error : JournalError) :
    Exits instanceId call (Procedure.raise error) :=
  fun _ _ _ hpaths hs => threw_of_unresolved hpaths hs

variable {m : Action IntegrationLocals IntegrationResult}

theorem Exits.ite {condition : Prop} [Decidable condition]
    {m' : Action IntegrationLocals IntegrationResult} (hm : Exits instanceId call m)
    (hm' : Exits instanceId call m') : Exits instanceId call (if condition then m else m') :=
  fun locals s files hpaths hs =>
    .ite (fun _ => hm locals s files hpaths hs) fun _ => hm' locals s files hpaths hs

variable {f : α → Action IntegrationLocals IntegrationResult}

theorem Exits.keep {paths : List String} {m : Action IntegrationLocals α} (hm : Confined paths m)
    (hsub : ∀ path ∈ paths, path ∈ call.changedFiles)
    (hf : ∀ value, Exits instanceId call (f value)) : Exits instanceId call (m >>= f) := by
  intro locals s files hpaths hs
  have hmem : ∀ path ∈ paths, path ∈ files.map (·.path) := hpaths ▸ hsub
  exact hm.then (fun value s' h => hf value _ s' files hpaths (hs.writes h hmem))
    fun _ _ h => threw_of_unresolved hpaths (hs.writes h hmem)

theorem Exits.observe {m : Action IntegrationLocals α} (hm : Quiet m)
    (hf : ∀ value, Exits instanceId call (f value)) : Exits instanceId call (m >>= f) :=
  Exits.keep (hm.confined : Confined [] m) (by simp) hf

theorem Exits.assign {f : IntegrationLocals → IntegrationLocals}
    {m : Unit → Action IntegrationLocals IntegrationResult} (hm : Exits instanceId call (m ())) :
    Exits instanceId call (Procedure.assign f >>= m) :=
  fun locals s files hpaths hs =>
    .bind (hm (f locals) s files hpaths hs)

theorem wp_unlessAborted {returned : IntegrationResult → IntegrationLocals → Machine → Prop}
    {failed : JournalError → IntegrationLocals → Machine → Prop} (hlost : ∀ s', Interfered s s' →
      returned (refused "integration_lock_ownership_lost" none) locals s')
    (hnext : ∀ s', Interfered s s' →
      m.wp (execute instanceId) (fun _ => True) returned failed locals s') :
    (unlessAborted m).wp (execute instanceId) (fun _ => True) returned failed locals s :=
  .bind (wp_signalAborted fun s' h =>
    .ite (fun _ => hlost s' h) fun _ => hnext s' h)

theorem Exits.unlessAborted (hm : Exits instanceId call m) :
    Exits instanceId call (unlessAborted m) :=
  fun locals _ files hpaths hs => wp_unlessAborted
    (fun _ h => exited_of_unresolved hpaths (hs.interfered h))
    fun s' h => hm locals s' files hpaths (hs.interfered h)

/-- A transition to an unresolved status keeps the operation open. -/
theorem Exits.move {expected status : OperationStatus} {outcome : String}
    {m : Unit → Action IntegrationLocals IntegrationResult} (hresolved : status.resolved = false)
    (hm : Exits instanceId call (m ())) :
    Exits instanceId call (moveOperation call expected status outcome >>= m) := by
  intro locals s files hpaths hs
  refine .bind (wp_transition ?_ ?_ fun error s' h =>
    threw_of_unresolved hpaths (hs.interfered h))
  · intro s' operation row h hoperation hstatus _
    exact hm locals _ files hpaths ((hs.interfered h).moved hoperation (hstatus ▸ hresolved))
  · intro error s' operation row h hoperation hstatus _
    have hne : status ≠ .committed := by
      rintro rfl
      cases hresolved
    exact threw_of_unresolved hpaths
      (((hs.interfered h).moved hoperation (hstatus ▸ hresolved)).record hne)

theorem Accepts.of_exits (h : Exits instanceId call m) : Accepts instanceId call m :=
  fun locals s files hpaths hs _ => h locals s files hpaths hs

theorem Accepts.ite {condition : Prop} [Decidable condition]
    {m' : Action IntegrationLocals IntegrationResult} (hm : Accepts instanceId call m)
    (hm' : Accepts instanceId call m') : Accepts instanceId call (if condition then m else m') :=
  fun locals s files hpaths hs hholds =>
    .ite (fun _ => hm locals s files hpaths hs hholds)
      fun _ => hm' locals s files hpaths hs hholds

theorem Accepts.observe {m : Action IntegrationLocals α} (hm : Quiet m)
    (hf : ∀ value, Accepts instanceId call (f value)) : Accepts instanceId call (m >>= f) := by
  intro locals s files hpaths hs hholds
  exact hm.then
    (fun value s' h => hf value _ s' files hpaths (hs.interfered h) (hholds.interfered h))
    fun _ _ h => threw_of_unresolved hpaths (hs.interfered h)

theorem Accepts.unlessAborted (hm : Accepts instanceId call m) :
    Accepts instanceId call (unlessAborted m) :=
  fun locals _ files hpaths hs hholds => wp_unlessAborted
    (fun _ h => exited_of_unresolved hpaths (hs.interfered h))
    fun s' h => hm locals s' files hpaths (hs.interfered h) (hholds.interfered h)

theorem Accepts.move {expected status : OperationStatus} {outcome : String}
    {m : Unit → Action IntegrationLocals IntegrationResult} (hresolved : status.resolved = false)
    (hm : Accepts instanceId call (m ())) :
    Accepts instanceId call (moveOperation call expected status outcome >>= m) := by
  intro locals s files hpaths hs hholds
  refine .bind (wp_transition ?_ ?_ fun error s' h =>
    threw_of_unresolved hpaths (hs.interfered h))
  · intro s' operation row h hoperation hstatus _
    have hholds' := hholds.interfered h
    exact hm locals _ files hpaths ((hs.interfered h).moved hoperation (hstatus ▸ hresolved))
      hholds'
  · intro error s' operation row h hoperation hstatus _
    have hne : status ≠ .committed := by
      rintro rfl
      cases hresolved
    exact threw_of_unresolved hpaths
      (((hs.interfered h).moved hoperation (hstatus ▸ hresolved)).record hne)

end

/-! ## Evidence and rollback -/

theorem indexEntriesKept_quiet (baseline : List (String × Nat)) (paths : List String) :
    Quiet (indexEntriesKept baseline paths) := by
  induction paths with
  | nil => exact .pure _
  | cons path paths ih => exact .bind (.issue rfl) fun entry => .bind ih fun rest => .pure _

theorem isolatedIndex_quiet (call : IntegrationCall) :
    Quiet (isolatedIndexPreservationEvidence call) :=
  .recover (indexEntriesKept_quiet _ _) fun _ => .pure _

theorem rollBackCall_confined (paths : List String) (ownedSnapshot : Option Snapshot)
    (eolRecords : Option (List String)) :
    Confined paths (rollBackCall call paths ownedSnapshot eolRecords) :=
  .bind (isolatedIndex_quiet call).confined fun _ =>
    rollbackVerifiedOwnedChanges_confined _ _ _ _ _

theorem exits_rolledBackExit (errorType : String) (ownedSnapshot : Option Snapshot)
    (eolRecords : Option (List String)) :
    Exits instanceId call (rolledBackExit call errorType ownedSnapshot eolRecords) :=
  .keep (rollBackCall_confined _ _ _) (fun _ h => h) fun _ => .refuse _ _

theorem changedSince_confined (call : IntegrationCall) :
    Confined [] (changedSince call) :=
  .recover (.bind (exactIntegrationFileSnapshot_confined _ _) fun _ => .pure _) fun _ => .pure _

theorem changedSince_spec (call : IntegrationCall) (locals : IntegrationLocals) (s : Machine) :
    (changedSince call).wp (execute instanceId) (fun _ => True)
      (fun changed locals' s' => locals' = locals ∧ Writes [] s s' ∧
        ∀ path ∈ changed, path ∈ call.changedFiles)
      (fun _ locals' s' => locals' = locals ∧ Writes [] s s') locals s := by
  refine .recover (.bind
    (.mono ((exactIntegrationFileSnapshot_confined _ _).keepsJournal locals s) ?_ ?_))
  · rintro current _ s' ⟨rfl, hwrites⟩
    exact ⟨rfl, hwrites, fun path hpath => (mem_filter.mp hpath).1⟩
  · rintro error _ s' ⟨rfl, hwrites⟩
    exact ⟨rfl, hwrites, fun _ h => h⟩

/-! ## From the validation to the commit -/

theorem accepts_commitIntegration : Accepts instanceId call (commitIntegration call) := by
  refine .move rfl (.unlessAborted fun locals s files hpaths hs hholds => ?_)
  refine .bind (wp_transition ?_ ?_ fun error s' h =>
    threw_of_unresolved hpaths (hs.interfered h))
  · intro s' operation row h hoperation hstatus _
    have hholds' := hholds.interfered h
    have hclean := (hs.interfered h).clean
    exact .inr ⟨rfl, by rw [movedBy_status, hstatus], hclean, hholds'⟩
  · exact fun error s' operation row h hoperation hstatus _ => .inl mem_cons_self

theorem accepts_acceptIntegration (owned : Snapshot) :
    Accepts instanceId call (acceptIntegration call owned) := by
  refine .observe (isolatedIndex_quiet call) fun _ =>
    .ite (.of_exits (exits_rolledBackExit _ _ _)) (.observe (.issue rfl) fun _ =>
      .ite (.of_exits (.refuse _ _)) (.observe (.issue rfl) fun _ =>
        .ite (.of_exits (.raise _)) (.observe (.issue rfl) fun _ => ?_)))
  exact .ite (.of_exits (exits_rolledBackExit _ _ _)) (.unlessAborted accepts_commitIntegration)

theorem validationIndexChanged_quiet (call : IntegrationCall) :
    Quiet (validationIndexChanged call) :=
  .recover (.bind (.issue rfl) fun _ => .pure _) fun _ => .pure _

variable {owned : Snapshot}

theorem postValidationMismatches_spec (howned : SnapshotReviewed call owned) (s : Machine) :
    (postValidationMismatches call owned).wp (execute instanceId) (fun _ => True)
      (fun mismatches locals' s' => locals' = locals ∧ Writes [] s s' ∧
        (mismatches = [] → HoldsReviewed call s'))
      (fun _ locals' s' => locals' = locals ∧ Writes [] s s') locals s := by
  refine .recover (.bind (.mono (exactIntegrationFileSnapshot_spec _ call.nodup s) ?_ ?_))
  · rintro current _ s' ⟨rfl, hwrites, hseen⟩
    refine ⟨rfl, hwrites, fun hnone path hpath => ?_⟩
    have ⟨expected, value, hexpected, hlookup, hreviewed⟩ := howned path hpath
    have ⟨found, hfound, hvalue⟩ := hseen path hpath
    have hsame : owned.lookup path = current.lookup path := by
      have hkept := filter_eq_nil_iff.mp hnone path hpath
      simpa using hkept
    have heq : value = found := by
      rw [hlookup, hfound] at hsame
      exact Option.some.inj hsame
    exact ⟨expected, value, hexpected, hreviewed, heq ▸ hvalue⟩
  · rintro error _ s' ⟨rfl, hwrites⟩
    refine ⟨rfl, hwrites, fun hnone path hpath => ?_⟩
    rw [show call.changedFiles = [] from hnone] at hpath
    cases hpath

theorem exits_checkValidation (howned : SnapshotReviewed call owned) (gate : ValidationGate) :
    Exits instanceId call (checkValidation call owned gate) := by
  refine .observe (.issue rfl) fun touchedNothing => .observe (validationIndexChanged_quiet call)
    fun indexChanged => .observe (.issue rfl) fun reviewedOnly => ?_
  intro locals s files hpaths hs
  refine .bind (.mono (postValidationMismatches_spec howned s) ?_ ?_)
  · rintro mismatches _ s₁ ⟨rfl, h₁, hholds⟩
    have hs₁ := hs.writes h₁ (by simp)
    refine Quiet.then (.issue rfl) (fun head s₂ h₂ => ?_) fun _ _ h₂ =>
      threw_of_unresolved hpaths (hs₁.interfered h₂)
    have hs₂ := hs₁.interfered h₂
    refine .ite (fun _ => exited_of_unresolved hpaths hs₂) fun _ =>
      .ite (fun _ => exits_rolledBackExit _ _ _ _ s₂ files hpaths hs₂) fun hnone => ?_
    have hempty : mismatches = [] := by
      simp only [Bool.or_eq_true, decide_eq_true_eq, not_or, Decidable.not_not] at hnone
      exact hnone.2
    exact accepts_acceptIntegration owned _ s₂ files hpaths hs₂ ((hholds hempty).interfered h₂)
  · rintro error _ s₁ ⟨rfl, h₁⟩
    exact threw_of_unresolved hpaths (hs.writes h₁ (by simp))

theorem keepsUnresolved_quarantineUnconfirmed (attempts : Nat) :
    KeepsUnresolved instanceId files (quarantineUnconfirmed call attempts) := by
  induction attempts with
  | zero => exact .pure _
  | succ attempts ih =>
    exact .bind (keepsUnresolved_quarantine _ _ _) fun quarantined =>
      KeepsUnresolved.ite (.pure _) ih

theorem exits_unconfirmedExit : Exits instanceId call (unconfirmedExit call) := by
  intro locals s files hpaths hs
  refine Procedure.Within.then (keepsUnresolved_quarantineUnconfirmed 4) (fun quarantined s₁ h₁ => ?_)
    fun _ _ h₁ => threw_of_unresolved hpaths (h₁ hs)
  have hrest : Exits instanceId call (do
      Procedure.assign fun locals => { locals with integrationOperationCommitted := true }
      pure (refused "validation_process_tree_unconfirmed" none)) :=
    .assign (.refuse _ _)
  exact Exits.ite (.observe (.issue rfl) fun _ => hrest) hrest locals s₁ files hpaths (h₁ hs)

theorem exits_validateIntegration (howned : SnapshotReviewed call owned) :
    Exits instanceId call (validateIntegration call owned) :=
  .move rfl (.observe (.issue rfl) fun gate =>
    .ite exits_unconfirmedExit (.unlessAborted (exits_checkValidation howned gate)))

theorem exits_checkPolicy (howned : SnapshotReviewed call owned) :
    Exits instanceId call (checkPolicy call owned) :=
  .ite (.observe (.issue rfl) fun _ =>
    .ite (exits_validateIntegration howned) (exits_rolledBackExit _ _ _))
    (exits_validateIntegration howned)

theorem exits_checkAppliedPaths (howned : SnapshotReviewed call owned) :
    Exits instanceId call (checkAppliedPaths call owned) :=
  .observe (.issue rfl) fun _ =>
    .ite (exits_checkPolicy howned) (exits_rolledBackExit _ _ _)

/-! ## The apply -/

theorem regularFilePair_reviewed {expected actual : Option Fingerprint}
    {contents : List UInt8 × List UInt8} (h : regularFilePair expected actual = some contents)
    (hconverted : crlfToLfBytes contents.2 = some contents.1) :
    ∃ e a, expected = some e ∧ actual = some a ∧ Reviewed e a := by
  unfold regularFilePair at h
  split at h
  · rename_i mode content mode' content'
    split at h
    · rename_i hmode
      cases h
      exact ⟨_, _, rfl, rfl, .inr ⟨mode, content', content, by rw [hmode], hconverted, rfl⟩⟩
    · cases h
  · cases h

/-- A path that matches has the expected value up to the CRLF conversion. -/
theorem integrationContentMatches_spec (expected actual : Snapshot)
    (eolRecords : Option (List String)) (path : String) (value : Fingerprint)
    (hvalue : actual.lookup path = some value) (s : Machine) :
    (integrationContentMatches expected actual eolRecords path).wp (execute instanceId)
      (fun _ => True)
      (fun matching locals' s' => locals' = locals ∧ Writes [] s s' ∧
        (matching = true → ∃ e, expected.lookup path = some e ∧ Reviewed e value))
      (fun _ locals' s' => locals' = locals ∧ Writes [] s s') locals s := by
  refine .ite (fun heq => ?_) fun _ => ?_
  · exact ⟨rfl, Writes.refl _ s, fun _ => ⟨value, heq.trans hvalue, .inl rfl⟩⟩
  · cases hpair : regularFilePair (expected.lookup path) (actual.lookup path) with
    | none => exact ⟨rfl, Writes.refl _ s, fun h => by cases h⟩
    | some contents =>
      have hmatching : ∀ content, (content == contents.2 &&
          crlfToLfBytes content == some contents.1) = true →
          ∃ e, expected.lookup path = some e ∧ Reviewed e value := by
        intro content h
        simp only [Bool.and_eq_true, beq_iff_eq] at h
        have ⟨e, a, he, ha, hreviewed⟩ := regularFilePair_reviewed hpair (h.1 ▸ h.2)
        have hvalueEq : a = value := Option.some.inj (ha.symm.trans hvalue)
        exact ⟨e, he, hvalueEq ▸ hreviewed⟩
      have heol : Confined [] (eolAllowed eolRecords path :
          Action IntegrationLocals Bool) := by
        cases eolRecords with
        | some records => exact .pure _
        | none => exact .issue rfl (by simp [JournalCommand.target])
      refine Confined.then heol (fun allowed s₁ h₁ => ?_) fun _ _ h₁ => ⟨rfl, h₁⟩
      refine .ite (fun _ => ⟨rfl, h₁, fun h => by cases h⟩) fun _ => ?_
      refine .recover (.bind (wp_readLeaf (fun s₂ h₂ => ?_) fun error s₂ h₂ => ?_))
      · have hwrites : Writes [] s (s₂.record (.read path)) :=
          h₁.trans ((h₂.writes _).trans (writes_record_read s₂ path))
        cases s₂.files path with
        | file mode content => exact ⟨rfl, hwrites, hmatching content⟩
        | _ => exact ⟨rfl, hwrites, fun h => by cases h⟩
      · exact ⟨rfl, h₁.trans (h₂.writes _), fun h => by cases h⟩

theorem integrationContentMismatches_spec (expected actual : Snapshot)
    (eolRecords : Option (List String)) (paths : List String)
    (hvalues : ∀ path ∈ paths, ∃ value, actual.lookup path = some value) (s : Machine) :
    (integrationContentMismatches expected actual eolRecords paths).wp (execute instanceId)
      (fun _ => True)
      (fun mismatches locals' s' => locals' = locals ∧ Writes [] s s' ∧
        (mismatches = [] → ∀ path ∈ paths, ∃ e value, expected.lookup path = some e ∧
          actual.lookup path = some value ∧ Reviewed e value))
      (fun _ locals' s' => locals' = locals ∧ Writes [] s s') locals s := by
  induction paths generalizing s with
  | nil => exact ⟨rfl, .refl _ s, by simp⟩
  | cons path paths ih =>
    have ⟨value, hvalue⟩ := hvalues path (by simp)
    refine .bind (.mono
      (integrationContentMatches_spec expected actual eolRecords path value hvalue s) ?_
      fun _ _ _ h => h)
    rintro matching _ s₁ ⟨rfl, h₁, hmatching⟩
    refine .bind (.mono (ih (fun other hother => hvalues other (by simp [hother])) s₁) ?_ ?_)
    · rintro rest _ s₂ ⟨rfl, h₂, hrest⟩
      refine ⟨rfl, h₁.trans h₂, fun hnone other hother => ?_⟩
      cases matching with
      | false => cases hnone
      | true =>
        cases mem_cons.mp hother with
        | inl heq =>
          have ⟨e, he, hreviewed⟩ := hmatching rfl
          exact heq ▸ ⟨e, value, he, hvalue, hreviewed⟩
        | inr hmem => exact hrest hnone other hmem
    · rintro error _ s₂ ⟨rfl, h₂⟩
      exact ⟨rfl, h₁.trans h₂⟩

theorem exits_verifyApplied (eolRecords : Option (List String)) :
    Exits instanceId call (verifyApplied call eolRecords) := by
  refine .observe (.issue rfl) fun head => .ite (.refuse _ _) ?_
  intro locals s files hpaths hs
  refine .bind (.mono (exactIntegrationFileSnapshot_spec _ call.nodup s) ?_ ?_)
  · rintro owned _ s₁ ⟨rfl, h₁, hseen⟩
    have hs₁ := hs.writes h₁ (by simp)
    have hvalues : ∀ path ∈ call.changedFiles, ∃ value, owned.lookup path = some value := by
      intro path hpath
      have ⟨value, hlookup, _⟩ := hseen path hpath
      exact ⟨value, hlookup⟩
    refine .bind (.bind (.mono
      (integrationContentMismatches_spec _ owned eolRecords call.changedFiles hvalues s₁) ?_ ?_))
    · rintro mismatches _ s₂ ⟨rfl, h₂, hreviewed⟩
      have hs₂ := hs₁.writes h₂ (by simp)
      refine Quiet.then (indexEntriesKept_quiet _ _) (fun indexKept s₃ h₃ => ?_)
        fun _ _ h₃ => threw_of_unresolved hpaths (hs₂.interfered h₃)
      have hs₃ := hs₂.interfered h₃
      refine .ite (fun _ => exits_rolledBackExit _ _ _ _ s₃ files hpaths hs₃)
        fun hmatch => ?_
      have hnone : mismatches = [] := Decidable.not_not.mp fun h => hmatch (.inl h)
      have howned : SnapshotReviewed call owned := hreviewed hnone
      exact Exits.move rfl (exits_checkAppliedPaths howned) _ s₃ files hpaths hs₃
    · rintro error _ s₂ ⟨rfl, h₂⟩
      exact threw_of_unresolved hpaths (hs₁.writes h₂ (by simp))
  · rintro error _ s₁ ⟨rfl, h₁⟩
    exact threw_of_unresolved hpaths (hs.writes h₁ (by simp))

/-- The exit before the first write closes the operation without changes. -/
theorem wp_failedApply_external {applied : AppliedPatch} (hchanges : applied.externalChanges ≠ [])
    (hpaths : files.map (·.path) = call.changedFiles) (hs : Unresolved files s)
    (hunwritten : Unwritten s) (hlocals : locals.patchApplied = false) :
    (failedApply call applied).wp (execute instanceId) (fun _ => True) (Exited call)
      (fun _ => Threw call) locals s := by
  refine .ite (fun _ => ?_) fun h => absurd hchanges h
  refine .bind (wp_transition ?_ ?_ fun error s' h =>
    threw_of_unresolved hpaths (hs.interfered h))
  · intro s' operation row h hoperation hstatus _
    have hunwritten' := hunwritten.interfered h
    refine .inr (.inr ⟨files, hpaths, (hs.interfered h).toSound.moved hoperation row, ?_,
      .inr (.inl hunwritten')⟩)
    rw [movedBy_status, hstatus]
    simp
  · intro error s' operation row h hoperation hstatus _
    have hunwritten' := hunwritten.interfered h
    refine .inr (.inl ⟨hlocals, .inr ⟨files, hpaths,
      ((hs.interfered h).toSound.moved hoperation row).record (by simp), ?_,
      .inr (.inl fun path status hmem => ?_)⟩⟩)
    · show (movedBy s' operation row).status ≠ _
      rw [movedBy_status, hstatus]
      simp
    · cases mem_cons.mp hmem with
      | inl heq => cases heq
      | inr hold => exact hunwritten' path status hold

theorem exits_failedApply {applied : AppliedPatch} (hchanges : applied.externalChanges = []) :
    Exits instanceId call (failedApply call applied) := by
  intro locals s files hpaths hs
  refine .ite (fun h => absurd hchanges h) fun _ => ?_
  refine Quiet.then (isolatedIndex_quiet call) (fun _ s₁ h₁ => ?_) fun _ _ h₁ =>
    threw_of_unresolved hpaths (hs.interfered h₁)
  have hs₁ := hs.interfered h₁
  refine .bind (.mono (changedSince_spec call locals s₁) ?_ ?_)
  · rintro changed _ s₂ ⟨rfl, h₂, hsub⟩
    have hs₂ := hs₁.writes h₂ (by simp)
    exact Exits.keep (rollbackVerifiedOwnedChanges_confined _ _ changed _ _) hsub
      (fun _ => .refuse _ _) _ s₂ files hpaths hs₂
  · rintro error _ s₂ ⟨rfl, h₂⟩
    exact threw_of_unresolved hpaths (hs₁.writes h₂ (by simp))

theorem removeDeleted_confined (paths : List String) :
    Confined paths (removeDeleted paths) := by
  induction paths with
  | nil => exact .pure _
  | cons path paths ih =>
    have hhead : Confined (path :: paths)
        (removeRollbackLeaf path : Action IntegrationLocals Bool) :=
      (removeRollbackLeaf_confined path).mono (by simp)
    exact .bind (.recover hhead fun _ => .pure _) fun _ =>
      .ite (ih.mono fun other h => mem_cons_of_mem _ h) (.pure _)

theorem checkoutPaths_confined (paths : List String) :
    Confined paths (checkoutPaths call paths) := by
  induction paths with
  | nil => exact .pure _
  | cons path paths ih =>
    exact .bind (.recover (.bind (.issue rfl (by simp [JournalCommand.target])) fun _ =>
      .pure _) fun _ => .pure _) fun _ =>
        .ite (ih.mono fun other h => mem_cons_of_mem _ h) (.pure _)

/-- Once the writes began, no external change is reported. -/
theorem writePatch_spec (s : Machine) :
    (writePatch call).wp (execute instanceId) (fun _ => True)
      (fun applied locals' s' => locals' = locals ∧ Writes call.changedFiles s s' ∧
        applied.externalChanges = [])
      (fun _ locals' s' => locals' = locals ∧ Writes call.changedFiles s s') locals s := by
  have hfiltered : ∀ keep : String → Bool, ∀ path ∈ call.changedFiles.filter keep,
      path ∈ call.changedFiles := fun keep path h => (mem_filter.mp h).1
  have heol : ∀ succeeded s₁, Writes call.changedFiles s s₁ →
      (do
        let eol : List String ← issue .isolatedEol
        pure ⟨succeeded, [], some eol⟩ : Action IntegrationLocals AppliedPatch).wp
        (execute instanceId) (fun _ => True)
        (fun applied locals' s' => locals' = locals ∧ Writes call.changedFiles s s' ∧
          applied.externalChanges = [])
        (fun _ locals' s' => locals' = locals ∧ Writes call.changedFiles s s') locals s₁ := by
    intro succeeded s₁ h₁
    exact Quiet.then (.issue rfl) (fun _ s₂ h₂ => ⟨rfl, h₁.trans (h₂.writes _), rfl⟩)
      fun _ s₂ h₂ => ⟨rfl, h₁.trans (h₂.writes _)⟩
  refine Confined.then ((removeDeleted_confined _).mono (hfiltered _)) (fun removed s₁ h₁ => ?_)
    fun _ _ h₁ => ⟨rfl, h₁⟩
  refine .ite (fun _ => heol false s₁ h₁) fun _ => ?_
  refine Confined.then ((checkoutPaths_confined _).mono (hfiltered _)) (fun written s₂ h₂ => ?_)
    fun _ _ h₂ => ⟨rfl, h₁.trans h₂⟩
  exact .ite (fun _ => heol false s₂ (h₁.trans h₂)) fun _ => heol true s₂ (h₁.trans h₂)

/-- The patch reports an external change only if it wrote nothing. -/
theorem applyPatchFile_spec (s : Machine) :
    (applyPatchFile call).wp (execute instanceId) (fun _ => True)
      (fun applied locals' s' => locals' = locals ∧ Writes call.changedFiles s s' ∧
        (applied.externalChanges ≠ [] → Writes [] s s'))
      (fun _ locals' s' => locals' = locals ∧ Writes call.changedFiles s s') locals s := by
  refine Quiet.then (.issue rfl) (fun staged s₁ h₁ => ?_) fun _ s₁ h₁ => ⟨rfl, h₁.writes _⟩
  refine .ite (fun _ => ⟨rfl, h₁.writes _, fun _ => h₁.writes _⟩) fun _ => ?_
  refine Confined.then (changedSince_confined call) (fun mismatches s₂ h₂ => ?_)
    fun _ s₂ h₂ => ⟨rfl, (h₁.writes _).trans (h₂.mono (by simp))⟩
  have hread : Writes [] s s₂ := (h₁.writes _).trans h₂
  refine .ite (fun _ => ?_) fun _ => ⟨rfl, hread.mono (by simp), fun _ => hread⟩
  refine .mono (writePatch_spec s₂) ?_ ?_
  · rintro applied _ s₃ ⟨rfl, h₃, hnone⟩
    exact ⟨rfl, (hread.mono (by simp)).trans h₃, fun h => absurd hnone h⟩
  · rintro error _ s₃ ⟨rfl, h₃⟩
    exact ⟨rfl, (hread.mono (by simp)).trans h₃⟩

theorem wp_applyReviewed (hpaths : files.map (·.path) = call.changedFiles)
    (hs : Unresolved files s) (hunwritten : Unwritten s) (hlocals : locals.patchApplied = false) :
    (applyReviewed call).wp (execute instanceId) (fun _ => True) (Exited call)
      (fun _ => Threw call) locals s := by
  have happly : ∀ s₁, Unresolved files s₁ → Unwritten s₁ →
      (do
        let applied ← applyPatchFile call
        unlessAborted do
          if applied.succeeded then
            Procedure.assign fun locals => { locals with patchApplied := true }
            verifyApplied call applied.isolatedEolRecords
          else failedApply call applied).wp (execute instanceId) (fun _ => True) (Exited call)
        (fun _ => Threw call) locals s₁ := by
    intro s₁ hs₁ hunwritten₁
    have hmem : ∀ path ∈ call.changedFiles, path ∈ files.map (·.path) := by
      rw [hpaths]
      exact fun _ h => h
    refine .bind (.mono (applyPatchFile_spec s₁) ?_ ?_)
    · rintro applied _ s₂ ⟨rfl, h₂, hexternal⟩
      have hs₂ := hs₁.writes h₂ hmem
      refine wp_unlessAborted
        (fun _ h₃ => exited_of_unresolved hpaths (hs₂.interfered h₃)) fun s₃ h₃ => ?_
      have hs₃ := hs₂.interfered h₃
      refine .ite (fun _ => ?_) fun _ => ?_
      · exact Exits.assign (exits_verifyApplied _) _ s₃ files hpaths hs₃
      · by_cases hchanges : applied.externalChanges = []
        · exact exits_failedApply hchanges _ s₃ files hpaths hs₃
        · exact wp_failedApply_external hchanges hpaths hs₃
            ((hunwritten₁.writes (hexternal hchanges)).interfered h₃) hlocals
    · rintro error _ s₂ ⟨rfl, h₂⟩
      exact threw_of_unresolved hpaths (hs₁.writes h₂ hmem)
  refine .bind (wp_transition ?_ ?_ fun error s' h =>
    threw_of_unresolved hpaths (hs.interfered h))
  · intro s' operation row h hoperation hstatus _
    have hs' : Unresolved files (movedBy s' operation row) :=
      (hs.interfered h).moved hoperation (by rw [hstatus]; rfl)
    have hinterfered := hunwritten.interfered h
    have hunwritten' : Unwritten (movedBy s' operation row) := hinterfered
    exact wp_unlessAborted (fun _ h₁ => exited_of_unresolved hpaths (hs'.interfered h₁))
      fun s₁ h₁ => happly s₁ (hs'.interfered h₁) (hunwritten'.interfered h₁)
  · intro error s' operation row h hoperation hstatus _
    exact threw_of_unresolved hpaths
      (((hs.interfered h).moved hoperation (by rw [hstatus]; rfl)).record (by simp))

/-! ## The preparation -/

theorem captureEvidence_spec (settings : JournalSettings) (expectedPost : Snapshot)
    (paths : List String) (totalBytes : Nat) (s : Machine) :
    (captureIntegrationJournalEvidence settings expectedPost totalBytes paths).wp
      (execute instanceId) (fun _ => True)
      (fun evidence locals' s' => locals' = locals ∧ Writes [] s s' ∧
        evidence.map (·.path) = paths)
      (fun _ locals' s' => locals' = locals ∧ Writes [] s s') locals s := by
  induction paths generalizing s totalBytes with
  | nil => exact ⟨rfl, Writes.refl _ s, rfl⟩
  | cons path paths ih =>
    refine Confined.then (.issue rfl (by simp [JournalCommand.target]))
      (fun leaf s₁ h₁ => ?_) fun _ _ h₁ => ⟨rfl, h₁⟩
    refine .ite (fun _ => ⟨rfl, h₁⟩) fun _ =>
      .ite (fun _ => ⟨rfl, h₁⟩) fun _ => ?_
    cases expectedPost.lookup path with
    | none => exact ⟨rfl, h₁⟩
    | some post =>
      refine .bind (.mono (ih _ s₁) ?_ ?_)
      · rintro rest _ s₂ ⟨rfl, h₂, hrest⟩
        exact ⟨rfl, h₁.trans h₂, by simp [hrest]⟩
      · rintro error _ s₂ ⟨rfl, h₂⟩
        exact ⟨rfl, h₁.trans h₂⟩

theorem recordIndexEntries_spec (entries : List JournalFile) (s : Machine) :
    (recordIndexEntries entries).wp (execute instanceId) (fun _ => True)
      (fun evidence locals' s' => locals' = locals ∧ Writes [] s s' ∧
        evidence.map (·.path) = entries.map (·.path))
      (fun _ locals' s' => locals' = locals ∧ Writes [] s s') locals s := by
  induction entries generalizing s with
  | nil => exact ⟨rfl, Writes.refl _ s, rfl⟩
  | cons file entries ih =>
    refine Confined.then (.issue rfl (by simp [JournalCommand.target]))
      (fun entry s₁ h₁ => ?_) fun _ _ h₁ => ⟨rfl, h₁⟩
    refine .bind (.mono (ih s₁) ?_ ?_)
    · rintro rest _ s₂ ⟨rfl, h₂, hrest⟩
      exact ⟨rfl, h₁.trans h₂, by simp [hrest]⟩
    · rintro error _ s₂ ⟨rfl, h₂⟩
      exact ⟨rfl, h₁.trans h₂⟩

theorem Unstarted.inserted (h : Unstarted s) (operation : JournalOperation)
    (hresolved : operation.row.status.resolved = false) :
    Unresolved operation.files (s.setOperation operation) :=
  ⟨⟨⟨operation, rfl, rfl⟩, h.clean, fun path status hmem => absurd hmem (h.unwritten path status)⟩,
    operation.row.status, rfl, hresolved⟩

theorem wp_prepareIntegrationOperation (hs : Unstarted s)
    (hlocals : locals.patchApplied = false) :
    (prepareIntegrationOperation call instanceId).wp (execute instanceId) (fun _ => True)
      (fun _ locals' s' => locals' = locals ∧ Unwritten s' ∧
        ∃ files, files.map (·.path) = call.changedFiles ∧ Unresolved files s')
      (fun _ => Threw call) locals s := by
  have hthrew : ∀ s₁, Unstarted s₁ → Threw call locals s₁ :=
    fun s₁ h => .inr (.inl ⟨hlocals, .inl h⟩)
  refine .ite (fun _ => hthrew s hs) fun _ => ?_
  refine .bind (.mono (captureEvidence_spec call.settings _ _ 0 s) ?_ ?_)
  · rintro evidence _ s₁ ⟨rfl, h₁, hevidence⟩
    refine .bind (.mono (recordIndexEntries_spec evidence s₁) ?_ ?_)
    · rintro recorded _ s₂ ⟨rfl, h₂, hrecorded⟩
      have hs₂ := (hs.writes h₁).writes h₂
      have hpaths := hrecorded.trans hevidence
      have hopen : ∀ s₃, Unstarted s₃ → Unresolved recorded (s₃.setOperation
          ⟨preparedRow call instanceId, call.targetHead, call.preApplyFullIndexSha, recorded⟩) :=
        fun s₃ h => h.inserted ⟨_, _, _, recorded⟩ rfl
      refine wp_insertOperation (fun s₃ h₃ => ?_) (fun error s₃ h₃ => ?_)
        fun error s₃ h₃ => hthrew s₃ (hs₂.interfered h₃)
      · have hs₃ := hs₂.interfered h₃
        exact ⟨rfl, hs₃.unwritten, recorded, hpaths, hopen s₃ hs₃⟩
      · have hlost : OperationStatus.prepared ≠ .committed := by simp
        exact threw_of_unresolved hpaths ((hopen s₃ (hs₂.interfered h₃)).record hlost)
    · rintro error _ s₂ ⟨rfl, h₂⟩
      exact hthrew s₂ ((hs.writes h₁).writes h₂)
  · rintro error _ s₁ ⟨rfl, h₁⟩
    exact hthrew s₁ (hs.writes h₁)

/-! ## The call -/

theorem wp_integrateReviewed (hs : Unstarted s) (hlocals : locals.patchApplied = false) :
    (integrateReviewed call instanceId).wp (execute instanceId) (fun _ => True) (Exited call)
      (fun _ => Threw call) locals s := by
  have hthrew : ∀ s₁, Unstarted s₁ → Threw call locals s₁ :=
    fun s₁ h => .inr (.inl ⟨hlocals, .inl h⟩)
  refine Quiet.then (.issue rfl) (fun refusal s₁ h₁ => ?_) fun _ s₁ h₁ =>
    hthrew s₁ (hs.interfered h₁)
  have hs₁ := hs.interfered h₁
  cases refusal with
  | some errorType => exact .inr (.inl hs₁)
  | none =>
    refine wp_unlessAborted (fun _ h₂ => .inr (.inl (hs₁.interfered h₂))) fun s₂ h₂ => ?_
    have hs₂ := hs₁.interfered h₂
    refine .bind (.mono (wp_prepareIntegrationOperation hs₂ hlocals) ?_ fun _ _ _ h => h)
    rintro _ _ s₃ ⟨rfl, hunwritten, files, hpaths, hs₃⟩
    refine .bind (Quiet.then (.issue rfl) (fun _ s₄ h₄ => ?_)
      fun _ _ h₄ => threw_of_unresolved hpaths (hs₃.interfered h₄))
    have hs₄ := hs₃.interfered h₄
    exact wp_unlessAborted (fun _ h₅ => exited_of_unresolved hpaths (hs₄.interfered h₅))
      fun s₅ h₅ => wp_applyReviewed hpaths (hs₄.interfered h₅)
        ((hunwritten.interfered h₄).interfered h₅) hlocals

theorem wp_commitLost {α : Type} (m : Action IntegrationLocals α) (h : CommitLost s) :
    m.wp (execute instanceId) (fun _ => True) (fun _ _ s' => CommitLost s')
      (fun _ _ s' => CommitLost s') locals s :=
  Procedure.wp_consequence
    (Procedure.wp_invariant (fun env s command hs => mem_trace_execute env s command hs) m h)
    (fun _ _ => trivial) (fun _ _ _ h => h) fun _ _ _ h => h

/-- The `catch` clause returns in agreement. -/
theorem wp_integrationFailed (error : JournalError) (hs : Threw call locals s) :
    (integrationFailed call error).wp (execute instanceId) (fun _ => True) (Exited call)
      (fun _ _ s' => CommitLost s') locals s := by
  rcases hs with hlost | ⟨hlocals, hagreed⟩ | ⟨files, hpaths, hs⟩
  · exact .mono (wp_commitLost _ hlost) (fun _ _ _ h => .inl h) fun _ _ _ h => h
  · refine .ite (fun _ => .inr hagreed) fun _ => .ite (fun h => ?_)
      fun _ => .inr hagreed
    rw [hlocals] at h
    cases h
  · refine .ite (fun _ => exited_of_unresolved hpaths hs) fun _ =>
      .ite (fun _ => ?_) fun _ => exited_of_unresolved hpaths hs
    have hmem : ∀ path ∈ call.changedFiles, path ∈ files.map (·.path) := by
      rw [hpaths]
      exact fun _ h => h
    refine .bind (.recover (.mono ((rollBackCall_confined _ _ _).keepsJournal locals s) ?_ ?_))
    · rintro _ _ s₁ ⟨rfl, h₁⟩
      exact exited_of_unresolved hpaths (hs.writes h₁ hmem)
    · rintro _ _ s₁ ⟨rfl, h₁⟩
      exact exited_of_unresolved hpaths (hs.writes h₁ hmem)

theorem wp_recover_agreed (operationId : String) (hs : Agreed call s) :
    (recoverIntegrationOperationsWhileLocked call.settings operationId call.integrationLock
      call.recoveryGeneration).wp (execute instanceId) (fun _ => True)
      (fun _ _ s' => Agreed call s') (fun _ _ s' => Agreed call s') locals s := by
  rcases hs with hunstarted | ⟨files, hpaths, hsettled⟩
  · refine .bind (wp_loadOperation (fun s₁ operation h₁ hoperation _ => ?_)
      (fun s₁ h₁ => .inl (hunstarted.interfered h₁)) fun _ s₁ h₁ =>
        .inl (hunstarted.interfered h₁))
    rw [(hunstarted.interfered h₁).operation] at hoperation
    cases hoperation
  · exact .mono (wp_recoverIntegrationOperations (hpaths ▸ call.nodup) operationId
      call.integrationLock call.recoveryGeneration hsettled)
      (fun _ _ _ h => .inr ⟨files, hpaths, h⟩) fun _ _ _ h => .inr ⟨files, hpaths, h⟩

theorem wp_finalizerQuarantine (reason : String) (hs : Agreed call s) :
    (quarantineIntegrationOperation unresolvedStatuses reason (some call.authority)).wp
      (execute instanceId) (fun _ => True) (fun _ _ s' => Agreed call s')
      (fun _ _ s' => Agreed call s') locals s := by
  refine .recover (.bind (wp_transition ?_ ?_ fun error s' h => hs.interfered h))
  all_goals
    intros
    rename_i s' operation row h hoperation hstatus hold
    have hopen : operation.row.status.resolved = false := by
      cases hold with
      | inl hsame => rw [hsame]; rfl
      | inr hmem =>
        simp only [unresolvedStatuses, mem_cons, not_mem_nil, or_false] at hmem
        rcases hmem with h | h | h | h | h | h | h <;> rw [h] <;> rfl
    rcases hs.interfered h with hunstarted | ⟨files, hpaths, hsettled⟩
    · rw [hunstarted.operation] at hoperation
      cases hoperation
    · have hunresolved : Unresolved files s' :=
        ⟨hsettled.toSound, operation.row.status, by simp [Machine.status, hoperation], hopen⟩
      have hmoved : Unresolved files (movedBy s' operation row) :=
        hunresolved.moved hoperation (by rw [hstatus]; rfl)
      first
      | exact .inr ⟨files, hpaths, hmoved.settled⟩
      | exact .inr ⟨files, hpaths, (hmoved.record (by simp)).settled⟩

theorem wp_settleIntegration_agreed (hs : Agreed call s) :
    (settleIntegration call).wp (execute instanceId) (fun _ => True)
      (fun _ _ s' => Agreed call s') (fun _ _ s' => Agreed call s') locals s := by
  refine .bind (Procedure.wp_locals.mpr (.bind (wp_signalAborted fun s₁ h₁ => ?_)))
  have hs₁ := hs.interfered h₁
  cases locals.integrationOperationId with
  | none => exact hs₁
  | some operationId =>
    refine .ite (fun _ => hs₁) fun _ => .recover (.bind (.mono (wp_recover_agreed operationId hs₁)
        (fun _ _ _ h => h) fun error locals' s₂ h₂ => ?_))
    exact .ite (fun _ => h₂) fun _ => .bind
      (.mono (wp_finalizerQuarantine _ h₂) (fun _ _ _ h => h) fun _ _ _ h => h)

/-- What holds when the call returns `result`. -/
def Returned (call : IntegrationCall) (result : IntegrationResult) (s : Machine) : Prop :=
  CommitLost s ∨
    if result.ok then s.status = some .committed ∧ Clean s ∧ HoldsReviewed call s
    else Agreed call s

theorem wp_settleIntegration {result : IntegrationResult} (hs : Exited call result locals s) :
    (settleIntegration call).wp (execute instanceId) (fun _ => True)
      (fun _ _ s' => Returned call result s') (fun _ _ s' => Returned call result s')
      locals s := by
  cases hs with
  | inl hlost =>
    exact .mono (wp_commitLost _ hlost) (fun _ _ _ h => .inl h)
      fun _ _ _ h => .inl h
  | inr hs =>
    cases hok : result.ok with
    | false =>
      rw [hok] at hs
      refine .mono (wp_settleIntegration_agreed hs) ?_ ?_
      · exact fun _ _ s' h => .inr (by rw [hok]; exact h)
      · exact fun _ _ s' h => .inr (by rw [hok]; exact h)
    | true =>
      rw [hok] at hs
      obtain ⟨hcommitted, hstatus, hclean, hholds⟩ := hs
      have hreturned : ∀ s₁, Interfered s s₁ → Returned call result s₁ := by
        intro s₁ h₁
        refine .inr ?_
        rw [hok]
        exact ⟨h₁.status.trans hstatus, hclean.interfered h₁, hholds.interfered h₁⟩
      refine .bind (Procedure.wp_locals.mpr
        (.bind (wp_signalAborted fun s₁ h₁ => ?_)))
      cases locals.integrationOperationId with
      | none => exact hreturned s₁ h₁
      | some operationId =>
        refine .ite (fun _ => hreturned s₁ h₁) fun h => absurd ?_ h
        rw [hcommitted]
        rfl

theorem wp_integratePatch (hs : Unstarted s) (hlocals : locals.patchApplied = false) :
    (integratePatchWithoutSerialLock call instanceId).wp (execute instanceId) (fun _ => True)
      (fun result _ s' => Returned call result s') (fun _ _ _ => True) locals s := by
  refine .bind (.recover (.mono (wp_integrateReviewed hs hlocals) ?_ ?_))
  · intro result locals' s₁ h₁
    exact .bind (.mono (wp_settleIntegration h₁)
      (fun _ _ _ h => h) fun _ _ _ _ => trivial)
  · intro error locals' s₁ h₁
    refine .mono (wp_integrationFailed error h₁) ?_ fun _ _ _ _ => trivial
    intro result locals'' s₂ h₂
    exact .bind (.mono (wp_settleIntegration h₂)
      (fun _ _ _ h => h) fun _ _ _ _ => trivial)

/-! ## What the caller sees -/

def initialLocals : IntegrationLocals :=
  ⟨none, false, false, none⟩

/-- The checkout in which a call starts: its operation does not exist yet. -/
def Machine.atStart (s : Machine) : Machine :=
  { s with operation := none, trace := [] }

/-- Run the call; there is no result when it was interrupted or threw. -/
def integrate (call : IntegrationCall) (instanceId : String) (s : Machine)
    (envs : List JournalEnv) : Machine × Option IntegrationResult :=
  match (integratePatchWithoutSerialLock call instanceId initialLocals).run (execute instanceId)
      (Machine.atStart s) envs with
  | (s', some (.ok result, _)) => (s', some result)
  | (s', _) => (s', none)

/-- The path has its reviewed content. -/
def ReviewedAt (call : IntegrationCall) (s : Machine) (path : String) : Prop :=
  ∃ expected current, call.expectedPostApplySnapshot.lookup path = some expected ∧
    (s.files path).fingerprint call.settings.execBit = some current ∧ Reviewed expected current

/-- The path is at the preimage that the journal recorded. -/
def AtPreimage (call : IntegrationCall) (s : Machine) (path : String) : Prop :=
  ∃ operation file, s.operation = some operation ∧ file ∈ operation.files ∧ file.path = path ∧
    (s.files path).fingerprint call.settings.execBit = file.preFingerprint call.settings

/-- Files and journal agree about a returned call, as far as the paths that
satisfy `counted` go. -/
structure ExitAgrees (call : IntegrationCall) (result : IntegrationResult)
    (counted : String → Prop) (s : Machine) : Prop where
  accepted : result.ok = true → s.status = some .committed ∧
    ∀ path ∈ call.changedFiles, counted path → ReviewedAt call s path
  rejected : result.ok = false →
    (∃ status, s.status = some status ∧ status.resolved = false) ∨
      ∀ path status, .wrote path status ∈ s.trace → counted path → AtPreimage call s path
  kept : ∀ path, .wrote path (some .committed) ∉ s.trace

theorem Returned.exitAgrees {result : IntegrationResult} (h : Returned call result s)
    (hlost : .commitLost .committed ∉ s.trace) :
    ExitAgrees call result (fun path => untouched path s.trace) s := by
  have hreturned := h.resolve_left hlost
  cases hok : result.ok with
  | true =>
    rw [hok] at hreturned
    obtain ⟨hstatus, hclean, hholds⟩ := hreturned
    refine ⟨fun _ => ⟨hstatus, fun path hpath huntouched => ?_⟩, fun h => ?_,
      fun path hmem => (hclean _ hmem).2 path rfl⟩
    · have ⟨expected, current, hexpected, hreviewed, hseen⟩ := hholds path hpath
      exact ⟨expected, current, hexpected, hseen huntouched, hreviewed⟩
    · rw [hok] at h
      cases h
  | false =>
    rw [hok] at hreturned
    rcases hreturned with hunstarted | ⟨files, hpaths, hsettled⟩
    · refine ⟨fun h => ?_, fun _ => .inr fun path status hmem =>
        absurd hmem (hunstarted.unwritten path status),
        fun path hmem => hunstarted.unwritten path _ hmem⟩
      rw [hok] at h
      cases h
    · refine ⟨fun h => ?_, fun _ => ?_, fun path hmem => (hsettled.clean _ hmem).2 path rfl⟩
      · rw [hok] at h
        cases h
      · rcases hsettled.agreed with hopen | hunwritten | hpre
        · exact .inl hopen
        · exact .inr fun path status hmem => absurd hmem (hunwritten path status)
        · refine .inr fun path status hmem huntouched => ?_
          have ⟨operation, hoperation, hfiles⟩ := hsettled.operation
          have ⟨file, hfile, heq⟩ := mem_map.mp (hsettled.known path status hmem)
          have ⟨value, hvalue, hseen⟩ := hpre file hfile
          subst heq
          exact ⟨operation, file, hoperation, hfiles ▸ hfile, rfl,
            (hseen huntouched).trans hvalue.symm⟩

/-- Whatever fails, throws or is lost, and whatever else writes the checkout, a call
that returns leaves files and journal in agreement about every path that no external
write reached after the call last read it, unless the last transition threw after
its commit took effect. -/
theorem integration_exit_agrees (call : IntegrationCall) (instanceId : String) (s : Machine)
    (envs : List JournalEnv) (result : IntegrationResult)
    (hresult : (integrate call instanceId s envs).2 = some result)
    (hlost : .commitLost .committed ∉ (integrate call instanceId s envs).1.trace) :
    ExitAgrees call result
      (fun path => untouched path (integrate call instanceId s envs).1.trace)
      (integrate call instanceId s envs).1 := by
  have hstart : Unstarted (Machine.atStart s) :=
    ⟨rfl, fun _ h => absurd h not_mem_nil, fun _ _ => not_mem_nil⟩
  have hwp := @wp_integratePatch instanceId call (Machine.atStart s) initialLocals hstart rfl
  unfold integrate at hresult hlost ⊢
  split at hresult
  · rename_i s' final locals' hrun
    cases hresult
    rw [hrun] at hlost
    exact (Program.wp_returned _ hwp hrun).exitAgrees hlost
  · cases hresult

/-! ## One patch of one file -/

/-- A reviewed patch that changes the content of one file. -/
def reviewedIntegration : IntegrationCall where
  settings := ⟨100, 1000, true⟩
  cwd := []
  operationId := "integration-1"
  ownerGeneration := "apply"
  recoveryGeneration := "recovery"
  integrationLock := true
  changedFiles := ["a.txt"]
  nodup := by decide
  targetHead := 1
  preApplyExactSnapshot := [("a.txt", .file false [1])]
  expectedPostApplySnapshot := [("a.txt", .file false [2])]
  preApplyIndexSnapshot := [("a.txt", 7)]
  preApplyFullIndexSha := 9
  rollbackBaseline := [("a.txt", .present 0o644 [1])]
  checkoutLeaf := fun _ => .file 0o644 [2]
  validationPolicyTrust := false

def reviewedCheckout : Machine where
  files := fun _ => .file 0o644 [1]
  head := 1
  index := ⟨9, fun _ => 7, fun _ _ => false⟩
  operation := none
  lockOwned := true
  aborted := false
  blocked := false
  trace := []

/-- A call undisturbed up to its last transition, which is its command 34, and
after the command that follows it. -/
def disturbedAtCommit (commit settled : JournalEnv) : List JournalEnv :=
  List.replicate 34 ({} : JournalEnv) ++ commit :: settled :: List.replicate 20 {}

theorem integration_exit_agrees_committed :
    ExitAgrees reviewedIntegration ⟨true, "", none⟩
      (fun path => untouched path
        (integrate reviewedIntegration "bridge" reviewedCheckout (disturbedAtCommit {} {})).1.trace)
      (integrate reviewedIntegration "bridge" reviewedCheckout (disturbedAtCommit {} {})).1 :=
  integration_exit_agrees reviewedIntegration "bridge" reviewedCheckout (disturbedAtCommit {} {})
    ⟨true, "", none⟩ (by decide) (by decide)

/-- An editor writes the file after the call last read it. -/
def lateWrite : List JournalEnv :=
  disturbedAtCommit {} { writes := [("a.txt", .file 0o644 [3])] }

/-- The database throws after the last transition was committed. -/
def lostCommit : List JournalEnv :=
  disturbedAtCommit { fault := .after (.ofType "") } {}

/-- Without its two conditions the agreement fails: a write after the last read
goes unnoticed, and a commit that throws is rolled back on disk. -/
theorem integration_exit_agrees_fails :
    (∃ result, (integrate reviewedIntegration "bridge" reviewedCheckout lateWrite).2 = some result ∧
      ¬ExitAgrees reviewedIntegration result (fun _ => True)
        (integrate reviewedIntegration "bridge" reviewedCheckout lateWrite).1) ∧
    ∃ result, (integrate reviewedIntegration "bridge" reviewedCheckout lostCommit).2 = some result ∧
      ¬ExitAgrees reviewedIntegration result (fun _ => True)
        (integrate reviewedIntegration "bridge" reviewedCheckout lostCommit).1 := by
  constructor
  · refine ⟨⟨true, "", none⟩, by decide, fun h => ?_⟩
    have ⟨expected, current, hexpected, hcurrent, hreviewed⟩ :=
      (h.accepted rfl).2 "a.txt" (by decide) trivial
    have hfile : ((integrate reviewedIntegration "bridge" reviewedCheckout lateWrite).1.files
        "a.txt").fingerprint true = some (.file false [3]) := by decide
    have hexpected' : expected = .file false [2] := by
      cases hexpected
      rfl
    have hcurrent' : current = .file false [3] := by
      rw [show reviewedIntegration.settings.execBit = true from rfl, hfile] at hcurrent
      exact (Option.some.inj hcurrent).symm
    rw [hexpected', hcurrent'] at hreviewed
    cases hreviewed with
    | inl heq => cases heq
    | inr hconverted =>
      have ⟨mode, content, converted, hcontent, hbytes, _⟩ := hconverted
      cases hcontent
      cases hbytes
  · refine ⟨⟨false, "integration_transaction_failed", some ⟨["a.txt"], [], []⟩⟩,
      by decide, fun h => h.kept "a.txt" (by decide)⟩

end AgentBridge.Integration
