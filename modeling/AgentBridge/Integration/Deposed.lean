import AgentBridge.Integration.Authority

/-!
# A deposed call stops writing

Every part of the call either does not check its authority, and then a call that is unaware
of any loss stays so, or it checks it, and then the call goes on only when the check passes.
The exception is the `catch` clause: a transition refused after the patch was written is
thrown like any other error, and the clause rolls the files back.
-/

namespace AgentBridge.Integration

open Journal Systems

variable {call : IntegrationCall} {instanceId : String} {s s' : Watched}
  {locals : IntegrationLocals}

/-! ## Parts that do not check the authority -/

section

variable {Local : Type} (settings : JournalSettings)

theorem verifyRestored_confined (operation : JournalOperation) :
    Confined [] (verifyRestored settings operation : Action Local _) :=
  .recover (.bind (exactIntegrationFileSnapshot_confined settings _) fun _ => .pure _)
    fun _ => .pure _

theorem classifyFiles_confined (current : Snapshot) (files : List JournalFile) :
    Confined [] (classifyFiles settings current files : Action Local _) := by
  induction files with
  | nil => exact .pure _
  | cons file files ih =>
    exact .bind (classifyFile_confined settings current file) fun _ =>
      .bind ih fun _ => .pure _

theorem classifyOperation_confined (operation : JournalOperation) :
    Confined [] (classifyOperation settings operation : Action Local _) :=
  .recover (.bind (exactIntegrationFileSnapshot_confined settings _) fun _ =>
    .bind (classifyFiles_confined settings _ _) fun _ => .pure _) fun _ => .pure _

theorem captureIntegrationJournalEvidence_confined (expectedPost : Snapshot)
    (paths : List String) (totalBytes : Nat) :
    Confined [] (captureIntegrationJournalEvidence settings expectedPost totalBytes paths) := by
  induction paths generalizing totalBytes with
  | nil => exact .pure _
  | cons path paths ih =>
    refine .bind (.issue rfl (by simp [JournalCommand.target])) fun leaf =>
      .ite (.raise _) (.ite (.raise _) ?_)
    split
    · exact .raise _
    · exact .bind (ih _) fun _ => .pure _

theorem recordIndexEntries_confined (entries : List JournalFile) :
    Confined [] (recordIndexEntries entries) := by
  induction entries with
  | nil => exact .pure _
  | cons file entries ih =>
    exact .bind (.issue rfl (by simp [JournalCommand.target])) fun _ => .bind ih fun _ => .pure _

end

variable (owned : Snapshot)

theorem postValidationMismatches_confined : Confined [] (postValidationMismatches call owned) :=
  .recover (.bind (exactIntegrationFileSnapshot_confined _ _) fun _ => .pure _) fun _ => .pure _

theorem writePatch_confined : Confined call.changedFiles (writePatch call) := by
  have hfiltered : ∀ keep : String → Bool, ∀ path ∈ call.changedFiles.filter keep,
      path ∈ call.changedFiles := fun keep path h => (List.mem_filter.mp h).1
  have heol : Confined call.changedFiles failedWithEol :=
    .bind (.issue rfl (by simp [JournalCommand.target])) fun _ => .pure _
  refine .bind ((removeDeleted_confined _).mono (hfiltered _)) fun _ => .ite heol ?_
  refine .bind ((checkoutPaths_confined _).mono (hfiltered _)) fun _ => .ite heol ?_
  exact .bind (.issue rfl (by simp [JournalCommand.target])) fun _ => .pure _

theorem applyPatchFile_confined : Confined call.changedFiles (applyPatchFile call) :=
  .bind (.issue rfl (by simp [JournalCommand.target])) fun _ =>
    .ite (.pure _) (.bind ((changedSince_confined call).mono (by simp)) fun _ =>
      .ite writePatch_confined (.pure _))

variable {paths : List String}

/-- A part that does not check the authority leaves an unaware call unaware. -/
theorem active_of_confined {Local α : Type} {m : Action Local α} (h : Confined paths m) :
    Procedure.Within (executeShared instanceId)
      (fun s s' => Active call instanceId s → Active call instanceId s') m := by
  have honly : Procedure.Only (JournalCommand.confined paths) (fun _ => True) m := h
  refine .of_only (fun _ h => h) (fun h h' hs => h' (h hs)) ?_ honly
  exact fun env s command hcommand hs =>
    hs.executeShared hcommand.1 (JournalCommand.transaction_of_confined hcommand)

/-! ## How the parts of the `try` block end -/

/-- The call will not write anything more. -/
def Ended (locals : IntegrationLocals) (s : Watched) : Prop :=
  Harmless s ∧ (s.machine.lockOwned = false ∨ s.machine.aborted = true ∨
    locals.integrationOperationCommitted = true)

/-- How the `try` block and the `catch` clause return. -/
def Left (call : IntegrationCall) (instanceId : String) (locals : IntegrationLocals)
    (s : Watched) : Prop :=
  Active call instanceId s ∨ Ended locals s

/-- How the `try` block throws. -/
def Thrown (call : IntegrationCall) (instanceId : String) (locals : IntegrationLocals)
    (s : Watched) : Prop :=
  Active call instanceId s ∨ (locals.patchApplied = false ∧ Deposed s)

/-- From an unaware call the part goes on only while the authority holds. -/
def Proceeds (call : IntegrationCall) (instanceId : String)
    (m : Action IntegrationLocals IntegrationResult) : Prop :=
  ∀ locals s, Active call instanceId s →
    m.wp (executeShared instanceId) (fun _ => True) (fun _ => Left call instanceId)
      (fun _ _ s' => Active call instanceId s') locals s

theorem Proceeds.pure (result : IntegrationResult) :
    Proceeds call instanceId (Pure.pure result) :=
  fun _ _ hs => .inl hs

theorem Proceeds.raise (error : JournalError) :
    Proceeds call instanceId (Procedure.raise error) :=
  fun _ _ hs => hs

theorem Proceeds.ite {condition : Prop} [Decidable condition]
    {m m' : Action IntegrationLocals IntegrationResult} (hm : Proceeds call instanceId m)
    (hm' : Proceeds call instanceId m') :
    Proceeds call instanceId (if condition then m else m') :=
  fun locals s hs => .ite (fun _ => hm locals s hs) fun _ => hm' locals s hs

theorem Proceeds.bind {α : Type} {m : Action IntegrationLocals α}
    {f : α → Action IntegrationLocals IntegrationResult} (hm : Confined paths m)
    (hf : ∀ value, Proceeds call instanceId (f value)) : Proceeds call instanceId (m >>= f) :=
  fun _ _ hs => (active_of_confined hm).then (fun value s' h => hf value _ s' (h hs))
    fun _ _ h => h hs

theorem Proceeds.observe {α : Type} {m : Action IntegrationLocals α}
    {f : α → Action IntegrationLocals IntegrationResult} (hm : Quiet m)
    (hf : ∀ value, Proceeds call instanceId (f value)) :
    Proceeds call instanceId (m >>= f) :=
  Proceeds.bind (hm.confined : Confined [] m) hf

theorem Proceeds.assign {f : IntegrationLocals → IntegrationLocals}
    {m : Unit → Action IntegrationLocals IntegrationResult}
    (hm : Proceeds call instanceId (m ())) :
    Proceeds call instanceId (Procedure.assign f >>= m) :=
  fun locals s hs => .bind (hm (f locals) s hs)

/-- The rule of a look at the signal: the call learns of an abort, or it goes on unaware of
any loss. -/
theorem wp_look {Local : Type} {returned : Bool → Local → Watched → Prop}
    {failed : JournalError → Local → Watched → Prop} {locals : Local}
    (hs : Active call instanceId s)
    (hlost : ∀ s', Harmless s' → s'.machine.aborted = true → returned true locals s')
    (hclear : ∀ s', Active call instanceId s' → returned false locals s') :
    Procedure.wp (executeShared instanceId) (fun _ => True) (issue .signalAborted) returned
      failed locals s := by
  refine (Procedure.wp_call JournalCommand.signalAborted).mpr ⟨trivial, fun env => ?_⟩
  rw [executeShared_signalAborted]
  cases haborted : (executeShared instanceId env s .signalAborted).1.machine.aborted with
  | true => exact hlost _ (hs.authorized.harmless.executeShared rfl) haborted
  | false => exact hclear _ ⟨hs.authorized.polled haborted, hs.ours.executeShared rfl⟩

theorem Proceeds.unlessAborted {m : Action IntegrationLocals IntegrationResult}
    (hm : Proceeds call instanceId m) : Proceeds call instanceId (unlessAborted m) := by
  intro locals s hs
  refine .bind (wp_look hs ?_ fun s' hs' => hm locals s' hs')
  exact fun s' hharmless haborted => .inr ⟨hharmless, .inr (.inl haborted)⟩

/-- The rule of a transition of the call. -/
theorem wp_move {transition : JournalTransition}
    {returned : Unit → IntegrationLocals → Watched → Prop}
    {failed : JournalError → IntegrationLocals → Watched → Prop} (hs : Active call instanceId s)
    (hauthority : transition.authority = some call.authority)
    (hmoved : ∀ s', Active call instanceId s' → returned () locals s')
    (hrejected : ∀ error s', Active call instanceId s' → failed error locals s')
    (hrefused : ∀ error s', followsPatch transition.status = false → Deposed s' →
      failed error locals s') :
    Procedure.wp (executeShared instanceId) (fun _ => True) (issue (.transition transition))
      returned failed locals s := by
  refine (Procedure.wp_call (JournalCommand.transition transition)).mpr ⟨trivial, fun env => ?_⟩
  have hend : Active call instanceId
        (executeShared instanceId env s (.transition transition)).1 ∨ _ := hs.moved hauthority
  revert hend
  cases (executeShared instanceId env s (.transition transition)).2 with
  | ok value =>
    rintro (hactive | ⟨_, _, hnot⟩)
    · exact hmoved _ hactive
    · exact absurd rfl hnot
  | error error =>
    rintro (hactive | ⟨hfollows, hdeposed, _⟩)
    · exact hrejected error _ hactive
    · exact hrefused error _ hfollows hdeposed

variable {expected status : OperationStatus} {outcome : String}

/-- A transition that follows the patch. -/
theorem Proceeds.move {m : Unit → Action IntegrationLocals IntegrationResult}
    (hfollows : followsPatch status = true) (hm : Proceeds call instanceId (m ())) :
    Proceeds call instanceId (moveOperation call expected status outcome >>= m) := by
  intro locals s hs
  refine .bind (wp_move hs rfl (fun s' hs' => hm locals s' hs')
    (fun _ _ hs' => hs') fun error s' hnot _ => ?_)
  rw [hfollows] at hnot
  cases hnot

/-! ## From the validation to the commit -/

theorem proceeds_rolledBackExit (errorType : String) (ownedSnapshot : Option Snapshot)
    (eolRecords : Option (List String)) :
    Proceeds call instanceId (rolledBackExit call errorType ownedSnapshot eolRecords) :=
  .bind (rollBackCall_confined _ _ _) fun _ => .pure _

theorem proceeds_commitIntegration : Proceeds call instanceId (commitIntegration call) :=
  .move rfl (.unlessAborted (.move rfl (.assign (.pure _))))

theorem proceeds_acceptIntegration : Proceeds call instanceId (acceptIntegration call owned) := by
  refine .observe (isolatedIndex_quiet call) fun _ => .ite (proceeds_rolledBackExit _ _ _) ?_
  refine .observe (.issue rfl) fun _ => .ite (.pure _) (.observe (.issue rfl) fun _ =>
    .ite (.raise _) (.observe (.issue rfl) fun _ => ?_))
  exact .ite (proceeds_rolledBackExit _ _ _) (.unlessAborted proceeds_commitIntegration)

theorem proceeds_checkValidation (gate : ValidationGate) :
    Proceeds call instanceId (checkValidation call owned gate) := by
  refine .observe (.issue rfl) fun _ => .observe (validationIndexChanged_quiet call) fun _ =>
    .observe (.issue rfl) fun _ => .bind (postValidationMismatches_confined owned) fun _ =>
      .observe (.issue rfl) fun _ => .ite (.pure _) ?_
  exact .ite (proceeds_rolledBackExit _ _ _) (proceeds_acceptIntegration owned)

theorem wp_quarantine {Local : Type} {locals : Local} (expectedStatuses : List OperationStatus)
    (reason : String) (authority : Option JournalAuthority) (hs : Harmless s) :
    (quarantineIntegrationOperation expectedStatuses reason authority).wp
      (executeShared instanceId) (fun _ => True)
      (fun _ locals' s' => locals' = locals ∧ Harmless s') (fun _ _ _ => False) locals s := by
  refine .recover (.bind ((Procedure.wp_call
    (JournalCommand.transition ⟨expectedStatuses, .quarantined, reason, authority⟩)).mpr
      ⟨trivial, fun env => ?_⟩))
  have hafter : Harmless (executeShared instanceId env s (.transition
      ⟨expectedStatuses, .quarantined, reason, authority⟩)).1 := hs.executeShared rfl
  split
  · exact ⟨rfl, hafter⟩
  · exact ⟨rfl, hafter⟩

theorem wp_quarantineUnconfirmed (attempts : Nat) (hs : Harmless s) :
    (quarantineUnconfirmed call attempts).wp (executeShared instanceId) (fun _ => True)
      (fun _ locals' s' => locals' = locals ∧ Harmless s') (fun _ _ _ => False) locals s := by
  induction attempts generalizing s with
  | zero => exact ⟨rfl, hs⟩
  | succ attempts ih =>
    refine .bind (.mono (wp_quarantine _ _ _ hs) ?_
      fun _ _ _ h => h)
    rintro quarantined _ s' ⟨rfl, hs'⟩
    exact .ite (fun _ => ⟨rfl, hs'⟩) fun _ => ih hs'

/-- The exit that leaves the files to a validation that may still run. -/
theorem proceeds_unconfirmedExit : Proceeds call instanceId (unconfirmedExit call) := by
  intro locals s hs
  have hclose : ∀ s', Harmless s' → Left call instanceId
      { locals with integrationOperationCommitted := true } s' :=
    fun s' hs' => .inr ⟨hs', .inr (.inr rfl)⟩
  refine .bind (.mono (wp_quarantineUnconfirmed 4 hs.authorized.harmless) ?_ fun _ _ _ h => h.elim)
  rintro quarantined _ s₁ ⟨rfl, h₁⟩
  cases quarantined with
  | true => exact hclose s₁ h₁
  | false =>
    refine .bind ((Procedure.wp_call JournalCommand.blockRoot).mpr
      ⟨trivial, fun env => ?_⟩)
    exact hclose _ (h₁.executeShared rfl)

theorem proceeds_validateIntegration : Proceeds call instanceId (validateIntegration call owned) :=
  .move rfl (.observe (.issue rfl) fun gate => .ite proceeds_unconfirmedExit
    (.unlessAborted (proceeds_checkValidation owned gate)))

theorem proceeds_checkPolicy : Proceeds call instanceId (checkPolicy call owned) :=
  .ite (.observe (.issue rfl) fun _ => .ite (proceeds_validateIntegration owned)
    (proceeds_rolledBackExit _ _ _)) (proceeds_validateIntegration owned)

theorem proceeds_checkAppliedPaths : Proceeds call instanceId (checkAppliedPaths call owned) :=
  .observe (.issue rfl) fun _ => .ite (proceeds_checkPolicy owned) (proceeds_rolledBackExit _ _ _)

/-! ## The apply -/

theorem proceeds_verifyApplied (eolRecords : Option (List String)) :
    Proceeds call instanceId (verifyApplied call eolRecords) := by
  refine .observe (.issue rfl) fun head => .ite (.pure _)
    (.bind (exactIntegrationFileSnapshot_confined _ _) fun owned => .assign ?_)
  refine .bind (integrationContentMismatches_confined _ _ _ _) fun mismatches =>
    .observe (indexEntriesKept_quiet _ _) fun indexKept =>
      .ite (proceeds_rolledBackExit _ _ _) ?_
  exact .move rfl (proceeds_checkAppliedPaths owned)

theorem wp_failedApply (applied : AppliedPatch) (hs : Active call instanceId s)
    (hlocals : locals.patchApplied = false) :
    (failedApply call applied).wp (executeShared instanceId) (fun _ => True)
      (fun _ => Left call instanceId) (fun _ => Thrown call instanceId) locals s := by
  refine .ite (fun _ => ?_) fun _ => ?_
  · refine .bind (wp_move hs rfl (fun s' hs' => .inl hs')
      (fun _ _ hs' => .inl hs') fun _ _ _ hdeposed => .inr ⟨hlocals, hdeposed⟩)
  · have hrest : Proceeds call instanceId (do
        let _ ← isolatedIndexPreservationEvidence call
        let changed ← changedSince call
        let rollback ← rollbackVerifiedOwnedChanges call.settings call.rollbackBaseline changed
          (some call.expectedPostApplySnapshot) applied.isolatedEolRecords
        pure (refused "integration_apply_failed" (some rollback))) :=
      .observe (isolatedIndex_quiet call) fun _ => .bind (changedSince_confined call) fun _ =>
        .bind (rollbackVerifiedOwnedChanges_confined _ _ _ _ _) fun _ => .pure _
    exact .mono (hrest locals s hs) (fun _ _ _ h => h) fun _ _ _ h => .inl h

theorem wp_applyReviewed_shared (hs : Active call instanceId s)
    (hlocals : locals.patchApplied = false) :
    (applyReviewed call).wp (executeShared instanceId) (fun _ => True)
      (fun _ => Left call instanceId) (fun _ => Thrown call instanceId) locals s := by
  have hlook : ∀ {m : Action IntegrationLocals IntegrationResult} {s₁}, Active call instanceId s₁ →
      (∀ s₂, Active call instanceId s₂ → m.wp (executeShared instanceId) (fun _ => True)
        (fun _ => Left call instanceId) (fun _ => Thrown call instanceId) locals s₂) →
      (unlessAborted m).wp (executeShared instanceId) (fun _ => True)
        (fun _ => Left call instanceId) (fun _ => Thrown call instanceId) locals s₁ :=
    fun hs₁ hnext => .bind (wp_look hs₁
      (fun _ hharmless haborted => .inr ⟨hharmless, .inr (.inl haborted)⟩) hnext)
  refine .bind (wp_move hs rfl (fun s₁ hs₁ => hlook hs₁ fun s₂ hs₂ => ?_)
    (fun _ _ hs' => .inl hs') fun _ _ _ hdeposed => .inr ⟨hlocals, hdeposed⟩)
  refine (active_of_confined applyPatchFile_confined).then (fun applied s₃ h₃ => ?_)
    fun _ _ h₃ => .inl (h₃ hs₂)
  refine hlook (h₃ hs₂) fun s₄ hs₄ => .ite (fun _ => ?_) fun _ =>
    wp_failedApply applied hs₄ hlocals
  exact .mono (Proceeds.assign (proceeds_verifyApplied _) locals s₄ hs₄)
    (fun _ _ _ h => h) fun _ _ _ h => .inl h

/-! ## The preparation -/

theorem insertIntegrationOperation_eq {context : JournalContext} {holds lock : Bool}
    {operation next : JournalOperation}
    (h : insertIntegrationOperation context holds lock operation = .ok next) :
    next = operation := by
  unfold insertIntegrationOperation at h
  simp only [bind, Except.bind, throw, throwThe, MonadExceptOf.throw, pure, Except.pure] at h
  split at h
  · cases h
  · split at h
    · cases h
    · cases h
      rfl

/-- The insert leaves the call with a row of its own, or with the row it had. -/
theorem active_inserted {env : SharedEnv} {operation : JournalOperation} {lock : Bool}
    (hs : Active call instanceId s)
    (howner : operation.row.ownerInstanceId = instanceId)
    (hgeneration : operation.row.ownerGeneration = call.ownerGeneration) :
    Active call instanceId
      (executeShared instanceId env s (.insertOperation operation lock)).1 := by
  refine ⟨hs.authorized.executeShared_of_nil rfl, fun howned current hcurrent => ?_⟩
  rw [executeShared_lockOwned] at howned
  have hexec : (executeShared instanceId env s (.insertOperation operation lock)).1.machine =
      (committing ((takenOver s.machine env).interfere env.own) env.own
        (insertIntegrationOperation (env.journalContext instanceId s.machine) env.own.holds lock
          operation)).1 := rfl
  rw [hexec] at hcurrent
  rcases committing_cases ((takenOver s.machine env).interfere env.own) env.own
      (insertIntegrationOperation (env.journalContext instanceId s.machine) env.own.holds lock
        operation) with ⟨next, hnext, h⟩ | ⟨next, error, hnext, h⟩ | ⟨error, h⟩
  · rw [h] at hcurrent
    cases hcurrent
    rw [insertIntegrationOperation_eq hnext]
    exact ⟨howner, hgeneration⟩
  · rw [h] at hcurrent
    cases hcurrent
    rw [insertIntegrationOperation_eq hnext]
    exact ⟨howner, hgeneration⟩
  · rw [h] at hcurrent
    exact hs.ours.takenOver howned current hcurrent

theorem prepareIntegrationOperation_active :
    Procedure.Within (executeShared instanceId)
      (fun s s' => Active call instanceId s → Active call instanceId s')
      (prepareIntegrationOperation call instanceId) := by
  refine .ite (.raise (fun _ h => h) _) ?_
  refine .bind (fun h h' hs => h' (h hs))
    (active_of_confined (captureIntegrationJournalEvidence_confined _ _ _ _)) fun evidence => ?_
  refine .bind (fun h h' hs => h' (h hs)) (active_of_confined (recordIndexEntries_confined _))
    fun files => ?_
  exact .call fun env s hs => active_inserted hs rfl rfl

/-! ## The call -/

theorem wp_integrateReviewed_shared (hs : Active call instanceId s)
    (hlocals : locals.patchApplied = false) :
    (integrateReviewed call instanceId).wp (executeShared instanceId) (fun _ => True)
      (fun _ => Left call instanceId) (fun _ => Thrown call instanceId) locals s := by
  have hquiet : Quiet (issue .preflight : Action IntegrationLocals _) := .issue rfl
  have hprepared : Quiet (issue .integrationPrepared : Action IntegrationLocals _) := .issue rfl
  refine (active_of_confined (hquiet.confined : Confined [] _)).then (fun refusal s₁ h₁ => ?_)
    fun _ _ h₁ => .inl (h₁ hs)
  cases refusal with
  | some errorType => exact .inl (h₁ hs)
  | none =>
    refine .bind (wp_look (h₁ hs)
      (fun _ hharmless haborted => .inr ⟨hharmless, .inr (.inl haborted)⟩) fun s₂ hs₂ => ?_)
    refine prepareIntegrationOperation_active.then (fun _ s₃ h₃ => ?_)
      fun _ _ h₃ => .inl (h₃ hs₂)
    refine .bind ?_
    refine (active_of_confined (hprepared.confined : Confined [] _)).then (fun _ s₄ h₄ => ?_)
      fun _ _ h₄ => .inl (h₄ (h₃ hs₂))
    refine .bind (wp_look (h₄ (h₃ hs₂))
      (fun _ hharmless haborted => .inr ⟨hharmless, .inr (.inl haborted)⟩) fun s₅ hs₅ => ?_)
    exact wp_applyReviewed_shared hs₅ hlocals

/-- The `catch` clause of a call that was deposed before the patch was written does nothing. -/
theorem wp_integrationFailed_shared (error : JournalError)
    (hs : Thrown call instanceId locals s) :
    (integrationFailed call error).wp (executeShared instanceId) (fun _ => True)
      (fun _ => Left call instanceId) (fun _ _ s' => Harmless s') locals s := by
  have hleft : locals.patchApplied = false → Left call instanceId locals s := by
    intro _
    cases hs with
    | inl hactive => exact .inl hactive
    | inr hdeposed => exact .inr ⟨hdeposed.2.harmless, .inl hdeposed.2.unlocked⟩
  refine .bind (Procedure.wp_locals.mpr (.ite (fun h => ?_)
    fun _ => .ite (fun happlied => ?_) fun h => ?_))
  · exact hleft (by simpa using h.1)
  · have hactive : Active call instanceId s := hs.resolve_right fun h => by
      rw [happlied] at h
      cases h.1
    have hrollback : Confined call.changedFiles (Procedure.recover
        (rollBackCall call call.changedFiles locals.ownedPostApplySnapshot none)
        fun _ => pure (notAttempted call)) :=
      .recover (rollBackCall_confined _ _ _) fun _ => .pure _
    exact (active_of_confined hrollback).then (fun _ _ h => .inl (h hactive))
      fun _ _ h => (h hactive).authorized.harmless
  · exact hleft (by simpa using h)

/-! ## The recovery at the end of a call -/

section

variable {Local : Type} {α β : Type} {settings : JournalSettings} {generation : String}

/-- The call does not know of any loss, or it has lost its lock. -/
structure Restrained (s : Watched) : Prop where
  harmless : Harmless s
  held : Authorized s ∨ s.machine.lockOwned = false

theorem Authorized.restrained (h : Authorized s) : Restrained s := ⟨h.harmless, .inl h⟩

/-- A part that looks and writes nothing changes nothing about the authority. -/
theorem restrained_of_confined {m : Action Local α} (h : Confined [] m) :
    Procedure.Within (executeShared instanceId) (fun s s' => Restrained s → Restrained s') m := by
  have honly : Procedure.Only (JournalCommand.confined []) (fun _ => True) m := h
  refine .of_only (fun _ h => h) (fun h h' hs => h' (h hs)) ?_ honly
  intro env s command hcommand hs
  have htarget : command.target = [] :=
    List.eq_nil_iff_forall_not_mem.mpr fun path hpath => by simpa using hcommand.2 path hpath
  refine ⟨hs.harmless.executeShared htarget, ?_⟩
  cases hs.held with
  | inl hauthorized => exact .inl (hauthorized.executeShared hcommand.1)
  | inr hunlocked => exact .inr (executeShared_unlocked env command hunlocked)

theorem authorized_of_confined {m : Action Local α} (h : Confined paths m) :
    Procedure.Within (executeShared instanceId) (fun s s' => Authorized s → Authorized s') m := by
  have honly : Procedure.Only (JournalCommand.confined paths) (fun _ => True) m := h
  refine .of_only (fun _ h => h) (fun h h' hs => h' (h hs)) ?_ honly
  exact fun env s command hcommand hs => hs.executeShared hcommand.1

/-- However the part ends, it writes nothing after a loss. -/
def Concludes (instanceId : String) (m : Action Local α) : Prop :=
  ∀ locals s, Restrained s → m.wp (executeShared instanceId) (fun _ => True)
    (fun _ _ s' => Harmless s') (fun _ _ s' => Harmless s') locals s

theorem Concludes.pure (value : α) : Concludes instanceId (Pure.pure value : Action Local α) :=
  fun _ _ hs => hs.harmless

theorem Concludes.ite {condition : Prop} [Decidable condition] {m m' : Action Local α}
    (hm : Concludes instanceId m) (hm' : Concludes instanceId m') :
    Concludes instanceId (if condition then m else m') :=
  fun locals s hs => .ite (fun _ => hm locals s hs) fun _ => hm' locals s hs

theorem Concludes.bind {m : Action Local α} {f : α → Action Local β} (hm : Confined [] m)
    (hf : ∀ value, Concludes instanceId (f value)) : Concludes instanceId (m >>= f) :=
  fun _ _ hs => (restrained_of_confined hm).then (fun value s' h => hf value _ s' (h hs))
    fun _ _ h => (h hs).harmless

theorem Concludes.observe {m : Action Local α} {f : α → Action Local β} (hm : Quiet m)
    (hf : ∀ value, Concludes instanceId (f value)) : Concludes instanceId (m >>= f) :=
  Concludes.bind hm.confined hf

theorem concludes_recoveryQuarantine (currentStatus : OperationStatus) (reason : String)
    (authority : Option JournalAuthority) :
    Concludes instanceId
      (recoveryQuarantine currentStatus reason authority : Action Local RecoveryResult) :=
  fun _ _ hs => .bind (.mono (wp_quarantine _ _ _ hs.harmless)
    (fun _ _ _ h => h.2) fun _ _ _ h => h.elim)

theorem concludes_recoveryTransition {currentStatus : OperationStatus}
    {next : Action Local RecoveryResult}
    (hnext : ∀ locals s, Authorized s → next.wp (executeShared instanceId) (fun _ => True)
      (fun _ _ s' => Harmless s') (fun _ _ s' => Harmless s') locals s) :
    Concludes instanceId (recoveryTransition expected status currentStatus outcome
      (some ⟨true, generation, true⟩) next) := by
  intro locals s hs
  refine .bind (.recover (.bind ((Procedure.wp_call (JournalCommand.transition
      ⟨[expected], status, outcome, some ⟨true, generation, true⟩⟩)).mpr ⟨trivial, fun env => ?_⟩)))
  have hharmless : Harmless (executeShared instanceId env s (.transition
      ⟨[expected], status, outcome, some ⟨true, generation, true⟩⟩)).1 :=
    hs.harmless.executeShared rfl
  split
  · next value hvalue =>
    cases hs.held with
    | inl hauthorized => exact hnext locals _ (hauthorized.committed hvalue)
    | inr hunlocked =>
      have hlocked := lockOwned_of_ok rfl hvalue
      rw [hunlocked] at hlocked
      cases hlocked
  · exact hharmless

theorem concludes_closeTransition {currentStatus : OperationStatus} {result : RecoveryResult} :
    Concludes instanceId (recoveryTransition expected status currentStatus outcome
      (some ⟨true, generation, true⟩) (pure result) : Action Local RecoveryResult) :=
  concludes_recoveryTransition fun _ _ hs => hs.harmless

section

variable (operation : JournalOperation)

include operation

theorem concludes_finishRollback :
    Concludes instanceId (finishRollback settings operation (some ⟨true, generation, true⟩) :
      Action Local RecoveryResult) := by
  refine .bind (verifyRestored_confined settings operation) fun verified => ?_
  split
  · exact .ite (concludes_recoveryQuarantine _ _ _) (.pure _)
  · exact concludes_recoveryQuarantine _ _ _
  · refine .observe (integrationRecoveryBaseline_quiet operation) fun baseline => ?_
    cases baseline with
    | drifted => exact concludes_recoveryQuarantine _ _ _
    | unavailable errorType => exact .pure _
    | unchanged => exact concludes_closeTransition

/-- The restores run right after a transition that found the lock. -/
theorem wp_rollBackFiles (classes : List (JournalFile × Classification)) {locals : Local}
    (hs : Authorized s) :
    (rollBackFiles settings operation classes (some ⟨true, generation, true⟩)).wp
      (executeShared instanceId) (fun _ => True) (fun _ _ s' => Harmless s')
      (fun _ _ s' => Harmless s') locals s := by
  have hrestore : Confined (classes.map (·.1.path))
      (.recover
        (do
          restoreFiles classes
          pure none)
        fun error => pure (some error) : Action Local (Option JournalError)) :=
    .recover (.bind (restoreFiles_confined classes) fun _ => .pure _) fun _ => .pure _
  refine (authorized_of_confined hrestore).then (fun failure s' h => ?_) fun _ _ h =>
    (h hs).harmless
  have hs' := (h hs).restrained
  cases failure with
  | none => exact concludes_finishRollback operation locals s' hs'
  | some error =>
    exact Concludes.ite (.pure _) (concludes_recoveryQuarantine _ _ _) locals s' hs'

theorem concludes_recoverClassified (classes : List (JournalFile × Classification)) :
    Concludes instanceId (recoverClassified settings operation classes
      (some ⟨true, generation, true⟩) : Action Local RecoveryResult) :=
  .ite (concludes_recoveryQuarantine _ _ _) (.ite concludes_closeTransition
    (concludes_recoveryTransition fun _ _ hs => wp_rollBackFiles operation classes hs))

theorem concludes_recoverEvidence :
    Concludes instanceId (recoverEvidence settings operation (some ⟨true, generation, true⟩) :
      Action Local RecoveryResult) := by
  have hevidence : Quiet
      (.recover
        (do
          readEvidence operation.files
          pure none)
        fun error => pure (some error) : Action Local (Option JournalError)) :=
    .recover (.bind (readEvidence_quiet _) fun _ => .pure _) fun _ => .pure _
  refine .observe hevidence fun failure => ?_
  cases failure with
  | some error => exact .ite (.pure _) (concludes_recoveryQuarantine _ _ _)
  | none =>
    refine .observe (integrationRecoveryBaseline_quiet operation) fun baseline => ?_
    cases baseline with
    | drifted => exact concludes_recoveryQuarantine _ _ _
    | unavailable errorType => exact .pure _
    | unchanged =>
      refine .bind (classifyOperation_confined settings operation) fun classified => ?_
      cases classified with
      | error error => exact .ite (concludes_recoveryQuarantine _ _ _) (.pure _)
      | ok classes => exact concludes_recoverClassified operation classes

theorem concludes_recoverSingle :
    Concludes instanceId (recoverSingleIntegrationOperationWhileLocked settings operation
      (some ⟨true, generation, true⟩) : Action Local RecoveryResult) :=
  .ite (concludes_recoveryQuarantine _ _ _) (.ite (concludes_recoverEvidence operation)
    (concludes_recoveryTransition fun locals s hs =>
      concludes_recoverEvidence operation locals s hs.restrained))

theorem concludes_requalify (authority : Option JournalAuthority) :
    Concludes instanceId (requalifyStateDriftQuarantine settings operation authority :
      Action Local Bool) := by
  have htransition : Concludes instanceId (do
      issue (.transition ⟨[.quarantined], .recoveredNoop, "pre_state_verified", authority⟩)
      pure true : Action Local Bool) := by
    intro locals s hs
    refine .bind ((Procedure.wp_call (JournalCommand.transition
      ⟨[.quarantined], .recoveredNoop, "pre_state_verified", authority⟩)).mpr
        ⟨trivial, fun env => ?_⟩)
    have hharmless : Harmless (executeShared instanceId env s (.transition
        ⟨[.quarantined], .recoveredNoop, "pre_state_verified", authority⟩)).1 :=
      hs.harmless.executeShared rfl
    split
    · exact hharmless
    · exact hharmless
  refine .ite (.pure _) fun locals s hs => .recover
    (.mono (Concludes.observe (integrationRecoveryBaseline_quiet operation) (fun baseline =>
      .ite (.pure _) (.observe (readEvidence_quiet _) fun _ =>
        .bind (verifyRestored_confined settings operation) fun verified => ?_)) locals s hs)
      (fun _ _ _ h => h) fun _ _ _ h => h)
  split
  · exact htransition
  · exact .pure _

end

theorem concludes_recoverIntegrationOperations (operationId : String) :
    Concludes instanceId (recoverIntegrationOperationsWhileLocked settings operationId true
      generation : Action Local (Option RecoveryResult)) := by
  have hload : Quiet (issue (.loadOperation operationId) : Action Local _) := .issue rfl
  refine .observe hload fun operation => ?_
  cases operation with
  | none => exact .pure _
  | some operation =>
    refine .ite ?_ ?_
    · exact fun locals s hs => .bind (.mono
        (concludes_requalify operation _ locals s hs) (fun _ _ _ h => h) fun _ _ _ h => h)
    · exact fun locals s hs => .bind (.mono
        (concludes_recoverSingle operation locals s hs) (fun _ _ _ h => h) fun _ _ _ h => h)

end

/-- The `finally` clause looks at the signal and at the journal before it restores anything. -/
theorem wp_settleIntegration_shared (hlock : call.integrationLock = true)
    (hs : Left call instanceId locals s) :
    (settleIntegration call).wp (executeShared instanceId) (fun _ => True)
      (fun _ _ s' => Harmless s') (fun _ _ s' => Harmless s') locals s := by
  have hharmless : Harmless s := by
    cases hs with
    | inl hactive => exact hactive.authorized.harmless
    | inr hended => exact hended.1
  refine .bind (Procedure.wp_locals.mpr (.bind
    ((Procedure.wp_call JournalCommand.signalAborted).mpr ⟨trivial, fun env => ?_⟩)))
  rw [executeShared_signalAborted]
  have hlooked : Harmless (executeShared instanceId env s .signalAborted).1 :=
    hharmless.executeShared rfl
  cases locals.integrationOperationId with
  | none => exact hlooked
  | some operationId =>
    refine .ite (fun _ => hlooked) fun hopen => ?_
    simp only [Bool.or_eq_true, not_or, Bool.not_eq_true] at hopen
    have hrestrained : Restrained (executeShared instanceId env s .signalAborted).1 := by
      refine ⟨hlooked, ?_⟩
      cases hs with
      | inl hactive => exact .inl (hactive.authorized.polled hopen.2)
      | inr hended =>
        rcases hended.2 with hunlocked | haborted | hcommitted
        · exact .inr (executeShared_unlocked env _ hunlocked)
        · have hstill := hopen.2
          rw [executeShared_aborted, haborted] at hstill
          cases hstill
        · rw [hopen.1] at hcommitted
          cases hcommitted
    rw [hlock]
    refine .recover (.bind (.mono
      (concludes_recoverIntegrationOperations operationId locals _ hrestrained)
      (fun _ _ _ h => h) fun error locals' s' h => ?_))
    exact .ite (fun _ => h) fun _ => .bind
      (.mono (wp_quarantine _ _ _ h) (fun _ _ _ h => h.2) fun _ _ _ h => h.elim)

/-! ## Whole runs -/

theorem Watched.start_active (s : Machine) : Active call instanceId (Watched.start s) := by
  refine ⟨fun _ => ?_, nofun⟩
  unfold Watched.start
  cases haborted : s.aborted with
  | true =>
    exact ⟨by simp [Machine.atStart, haborted],
      ⟨by simp, fun _ => rfl, List.pairwise_singleton _ _⟩⟩
  | false => exact ⟨by simp [Machine.atStart, haborted], ⟨by simp, by simp, List.Pairwise.nil⟩⟩

theorem wp_integratePatch_shared (hlock : call.integrationLock = true) (s : Machine) :
    (integratePatchWithoutSerialLock call instanceId).wp (executeShared instanceId)
      (fun _ => True) (fun _ _ s' => Harmless s') (fun _ _ s' => Harmless s') initialLocals
      (Watched.start s) := by
  refine .bind (.recover (.mono (wp_integrateReviewed_shared (Watched.start_active s) rfl) ?_ ?_))
  · intro result locals' s₁ h₁
    exact .bind (.mono (wp_settleIntegration_shared hlock h₁)
      (fun _ _ _ h => h) fun _ _ _ h => h)
  · intro error locals' s₁ h₁
    refine .mono (wp_integrationFailed_shared error h₁) ?_ fun _ _ _ h => h
    intro result locals'' s₂ h₂
    exact .bind (.mono (wp_settleIntegration_shared hlock h₂)
      (fun _ _ _ h => h) fun _ _ _ h => h)

/-- A run that ended has written nothing after a loss. -/
theorem harmless_of_returned (hlock : call.integrationLock = true) (s : Machine)
    {envs : List SharedEnv} {result : Except JournalError IntegrationResult × IntegrationLocals}
    (hrun : (integratePatchWithoutSerialLock call instanceId initialLocals).run
      (executeShared instanceId) (Watched.start s) envs = (s', some result)) : Harmless s' := by
  have hend := Program.wp_returned _ (wp_integratePatch_shared hlock s) hrun
  match result with
  | (.ok value, locals) => exact hend
  | (.error error, locals) => exact hend

/-- Nothing happens around the command, and it fails before its effect. -/
def failing : SharedEnv :=
  { own := { fault := .before (.ofType "") } }

/-- The history has grown by looks at the signal only. -/
def PolledSince (history : List AuthorityEvent) (s : Watched) : Prop :=
  ∃ later, s.history = later ++ history ∧ ∀ event ∈ later, event = .polled

theorem PolledSince.failing {history : List AuthorityEvent} (h : PolledSince history s)
    (command : JournalCommand) :
    PolledSince history (executeShared instanceId Integration.failing s command).1 := by
  obtain ⟨later, hlater, hpolled⟩ := h
  have hevents : ∀ event ∈ authorityEvents instanceId Integration.failing.own
      (takenOver s.machine Integration.failing) command, event = .polled := by
    cases command <;> simp [authorityEvents, Integration.failing, Fault.reaches]
  refine ⟨authorityEvents instanceId Integration.failing.own
    (takenOver s.machine Integration.failing) command ++ later, ?_, ?_⟩
  · rw [executeShared_history, hlater, List.append_assoc]
    rfl
  · intro event hevent
    cases List.mem_append.mp hevent with
    | inl hnew => exact hevents event hnew
    | inr hold => exact hpolled event hold

theorem InTime.polled {history later : List AuthorityEvent} (h : InTime history)
    (hpolled : ∀ event ∈ later, event = .polled) : InTime (later ++ history) := by
  induction later with
  | nil => exact h
  | cons event later ih =>
    have hrest := ih fun event' hevent' => hpolled event' (List.mem_cons_of_mem _ hevent')
    rw [hpolled event List.mem_cons_self]
    exact hrest

/-- In every run, whatever fails, throws or is interrupted in it and whatever other processes
do meanwhile: if each transition that follows the patch finds the lock and the generation of
the call, and the signal is never aborted between a look at it and the next write, then after
a refused transition or an abort of the signal the call writes no file. -/
theorem no_write_after_lost_authority (call : IntegrationCall)
    (hlock : call.integrationLock = true) (instanceId : String) (s : Machine)
    (envs : List SharedEnv) (hinTime : InTime (integrateShared call instanceId s envs).history) :
    NoWriteAfterLoss (integrateShared call instanceId s envs).history := by
  unfold integrateShared at hinTime ⊢
  cases hrun : (integratePatchWithoutSerialLock call instanceId initialLocals).run
      (executeShared instanceId) (.start s) envs with
  | mk s' value =>
    rw [hrun] at hinTime
    cases value with
    | some result => exact harmless_of_returned hlock s hrun hinTime
    | none =>
      -- an interrupted run is the beginning of one whose last commands all fail
      obtain ⟨rest, hrest⟩ := Program.exists_rest_of_interrupted _ hrun
      have hreturns : ∃ n s'' result, rest.run (executeShared instanceId) s'
          ((List.range n).map fun _ => failing) = (s'', some result) :=
        rest.exists_run_returned (fun _ => failing) s'
      obtain ⟨n, s'', result, hend⟩ := hreturns
      have hpolls : PolledSince s'.history (rest.run (executeShared instanceId) s'
          ((List.range n).map fun _ => failing)).1 := by
        refine rest.run_invariant (fun env henv s₁ command h₁ => ?_) ⟨[], rfl, nofun⟩
        obtain ⟨_, _, rfl⟩ := List.mem_map.mp henv
        exact h₁.failing command
      rw [hend] at hpolls
      obtain ⟨later, hhistory, hpolled⟩ := hpolls
      have hharmless := harmless_of_returned hlock s ((hrest _).trans hend)
      have hall := hharmless (hhistory ▸ InTime.polled hinTime hpolled)
      rw [hhistory] at hall
      exact (List.pairwise_append.mp hall).2.1

/-! ## Two deposed calls -/

/-- Another process takes the lock of the call over right before the command `position`,
recovers its operation, and integrates and commits the same content for itself. -/
def deposedAt (position : Nat) : List SharedEnv :=
  List.replicate position ({} : SharedEnv) ++
    [{ own := { losesLock := true }
       leaves := some (some ⟨⟨"integration-1", [], "other", "recovery-2", 3, .rolledBack,
         "exact_pre_state_restored", 0, some 0⟩, 1, 9, []⟩) }] ++
    List.replicate 40 ({} : SharedEnv)

/-- Deposed before its first transition, the call writes nothing. -/
theorem no_write_after_lost_authority_early :
    NoWriteAfterLoss
      (integrateShared reviewedIntegration "bridge" reviewedCheckout (deposedAt 6)).history :=
  no_write_after_lost_authority reviewedIntegration rfl "bridge" reviewedCheckout (deposedAt 6)
    (by decide)

/-- Deposed after the patch, the call learns of it from the refused transition, and its `catch`
clause puts the preimage over the content that the other process has committed. -/
theorem refused_transition_rolls_back :
    ¬NoWriteAfterLoss
        (integrateShared reviewedIntegration "bridge" reviewedCheckout (deposedAt 17)).history ∧
      (integrateShared reviewedIntegration "bridge" reviewedCheckout (deposedAt 17)).history.take 3
        = [.polled, .wrote "a.txt", .refused .appliedUnvalidated] ∧
      (integrateShared reviewedIntegration "bridge" reviewedCheckout (deposedAt 17)).machine.files
        "a.txt" = .file 0o644 [1] := by
  decide

end AgentBridge.Integration
