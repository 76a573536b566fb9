import AgentBridge.Pipelines.Finalize

/-!
# What a completed pipeline has been through

A pipeline gets behind its gates only by the last writes of an attempt. Everything an attempt
writes before leaves it in front of them, and the last writes need every stage to pass.
-/

namespace AgentBridge.Pipelines

open Systems List Option

/-! ### What an attempt that passes has seen -/

/-- A configured gate that passed: its run had no error and its report says so. -/
def gateSaysPass (gateJob : Option String) (execution : Option GateExecution) : Prop :=
  gateJob.isSome = true → ∃ run, execution = some run ∧ run.errorType = "" ∧
    parsePipelineGateVerdict run.stdout = .pass

/-- The tracked state of the target was the same before the validation, after it and before
the cleanup. -/
def SameTarget (runtime : FinalizeRuntime) (oracle : AttemptOracle) : Prop :=
  ∃ before after cleanup, oracle.beforeState = some before ∧ oracle.afterState = some after ∧
    oracle.beforeCleanupState = some cleanup ∧
    trackedTargetStateSha256 runtime.sha256 (some after)
      = trackedTargetStateSha256 runtime.sha256 (some before) ∧
    trackedTargetStateSha256 runtime.sha256 (some cleanup)
      = trackedTargetStateSha256 runtime.sha256 (some after)

/-- What the stages between the reservation and the cleanup have seen. -/
structure StagesSound (runtime : FinalizeRuntime) (oracle : AttemptOracle)
    (record : PipelineRecord) : Prop where
  validated : record.sanitizedWorkspace = false → record.integrationQueue ≠ [] →
    oracle.validation.status = "passed" ∧ oracle.validation.errorType = ""
  reviewer : gateSaysPass record.reviewerJob oracle.reviewer
  tester : gateSaysPass record.testerJob oracle.tester
  target : record.sanitizedWorkspace = false → SameTarget runtime oracle
  manifest : record.sanitizedWorkspace = true →
    record.integrationQueue = [] ∧ oracle.sanitizedBefore = "" ∧ oracle.sanitizedAfter = ""

section

variable {runtime : FinalizeRuntime} {options : FinalizeOptions} {oracle : AttemptOracle}
  {record : PipelineRecord} {passed : GatesPassed} {validated : ValidationResult}

/-- The result that a validation stage lets through. -/
structure Validated (runtime : FinalizeRuntime) (oracle : AttemptOracle)
    (record : PipelineRecord) : Prop where
  noError : (finalValidationResultOf runtime oracle record).errorType = ""
  status : record.integrationQueue ≠ [] →
    (finalValidationResultOf runtime oracle record).status = "passed"

theorem finalValidation_ok (h : finalValidation runtime oracle record = .ok validated) :
    Validated runtime oracle record := by
  simp only [finalValidation] at h
  split_ifs at h with _ _ hjudged
  simp only [Bool.or_eq_true, Bool.and_eq_true, decide_eq_true_eq, not_or, not_and, ne_eq,
    not_not, Bool.not_eq_true', isEmpty_eq_false_iff] at hjudged
  exact ⟨hjudged.1, fun hitems => hjudged.2 hitems⟩

theorem Validated.sanitized (h : Validated runtime oracle record)
    (sanitized : record.sanitizedWorkspace = true) : record.integrationQueue = [] := by
  by_contra hitems
  have hstatus := h.status hitems
  simp [finalValidationResultOf, validationRun, sanitized] at hstatus

theorem Validated.ordinary (h : Validated runtime oracle record)
    (ordinary : record.sanitizedWorkspace = false) :
    ∃ before after, oracle.beforeState = some before ∧ oracle.afterState = some after ∧
      trackedTargetStateSha256 runtime.sha256 (some after)
        = trackedTargetStateSha256 runtime.sha256 (some before) ∧
      finalValidationResultOf runtime oracle record
        = ⟨oracle.validation.status, oracle.validation.errorType⟩ := by
  have hresult := h.noError
  cases hbefore : oracle.beforeState with
  | none => simp [finalValidationResultOf, validationRun, ordinary, hbefore] at hresult
  | some before =>
    have hrun : validationRun oracle record = oracle.validation := by
      simp [validationRun, ordinary, hbefore]
    have hcompared : finalValidationResultOf runtime oracle record
        = validatedState runtime oracle oracle.validation before := by
      simp [finalValidationResultOf, hrun, ordinary, hbefore]
    rw [hcompared] at hresult ⊢
    cases hafter : oracle.afterState with
    | none => simp [validatedState, hafter] at hresult
    | some after =>
      simp only [validatedState, hafter] at hresult ⊢
      split at hresult
      · simp at hresult
      next hsame =>
        simp only [Bool.or_eq_true, decide_eq_true_eq, not_or, ne_eq, not_not] at hsame
        refine ⟨before, after, rfl, rfl, hsame.1, ?_⟩
        rw [if_neg]
        simp only [Bool.or_eq_true, decide_eq_true_eq, not_or, ne_eq, not_not]
        exact hsame

theorem judgeGates_ok {judged : GatesPassed}
    (h : judgeGates oracle record passed = .ok judged) :
    judged = passed ∧ failedGates passed = [] := by
  simp only [judgeGates] at h
  split at h
  · cases h
  · cases h
  next hhead =>
    cases h
    exact ⟨rfl, List.head?_eq_none_iff.mp hhead⟩

theorem gateOutcome_pass {gateName : String} {gateJob : Option String}
    {execution : Option GateExecution} {checked : String} {result : Option GateResult}
    (outcome : gateOutcome runtime gateName gateJob execution checked = some result)
    (notFailed : result.filter (fun result => !result.passed) = none) :
    gateSaysPass gateJob execution := by
  intro hconfigured
  rw [gateOutcome, if_neg (by simp [isNone_iff_eq_none, isSome_iff_ne_none.mp
    hconfigured])] at outcome
  obtain ⟨run, hrun, hresult⟩ := map_eq_some_iff.mp outcome
  cases hgate : result with
  | none =>
    rw [hgate] at hresult
    simp only [runPipelineReadOnlyGate, map_eq_none_iff] at hresult
    rw [hresult] at hconfigured
    cases hconfigured
  | some gate =>
    rw [hgate] at hresult notFailed
    have hpassed : gate.passed = true := by
      simpa [filter_eq_none_iff] using notFailed
    obtain ⟨-, herror, hverdict⟩ := runPipelineReadOnlyGate_passed hresult hpassed
    exact ⟨run, hrun, herror, hverdict⟩

theorem failedGates_nil (h : failedGates passed = []) :
    passed.reviewerResult.filter (fun result => !result.passed) = none ∧
      passed.testerResult.filter (fun result => !result.passed) = none := by
  simp only [failedGates] at h
  constructor
  · cases hresult : passed.reviewerResult.filter fun result => !result.passed with
    | none => rfl
    | some result => simp [hresult] at h
  · cases hresult : passed.testerResult.filter fun result => !result.passed with
    | none => rfl
    | some result =>
      cases hreviewer : passed.reviewerResult.filter fun result => !result.passed with
      | none => simp [hresult, hreviewer] at h
      | some reviewer => simp [hresult, hreviewer] at h

theorem runGates_ok (skips : options.skipReviewers = true →
      record.reviewerJob = none ∧ record.testerJob = none)
    (h : runGates runtime options oracle record validated = .ok passed) :
    gateSaysPass record.reviewerJob oracle.reviewer ∧
      gateSaysPass record.testerJob oracle.tester := by
  simp only [runGates] at h
  split at h
  next hskips =>
    obtain ⟨hreviewer, htester⟩ := skips hskips
    constructor
    · intro hconfigured
      rw [hreviewer] at hconfigured
      cases hconfigured
    · intro hconfigured
      rw [htester] at hconfigured
      cases hconfigured
  · split at h
    next reviewer tester hreviewer htester =>
      obtain ⟨rfl, hnone⟩ := judgeGates_ok h
      obtain ⟨hr, ht⟩ := failedGates_nil hnone
      exact ⟨gateOutcome_pass hreviewer hr, gateOutcome_pass htester ht⟩
    · cases h

theorem finalChecks_ok {checked : GatesPassed}
    (h : finalChecks runtime oracle record passed = .ok checked) :
    (record.sanitizedWorkspace = true → oracle.sanitizedAfter = "") ∧
      ∀ after, stateAfterValidation oracle record = some after →
        ∃ cleanup, oracle.beforeCleanupState = some cleanup ∧
          trackedTargetStateSha256 runtime.sha256 (some cleanup)
            = trackedTargetStateSha256 runtime.sha256 (some after) := by
  simp only [finalChecks] at h
  split_ifs at h with hmanifest htarget
  constructor
  · intro hsanitized
    by_contra hbroken
    exact hmanifest (by simp [hsanitized, hbroken])
  · intro after hafter
    simp only [hafter, isSome_some, Bool.true_and, Bool.or_eq_true, decide_eq_true_eq,
      not_or, ne_eq, not_not] at htarget
    obtain ⟨hsome, hsame⟩ := htarget
    cases hcleanup : oracle.beforeCleanupState with
    | none => simp [hcleanup] at hsome
    | some cleanup => exact ⟨cleanup, rfl, hcleanup ▸ hsame⟩

/-- Every stage has passed. -/
theorem finalizeGates_ok (skips : options.skipReviewers = true →
      record.reviewerJob = none ∧ record.testerJob = none)
    (h : finalizeGates runtime options oracle record = .ok passed) :
    StagesSound runtime oracle record := by
  simp only [finalizeGates] at h
  split_ifs at h with hbroken
  cases hvalidation : finalValidation runtime oracle record with
  | error => simp [hvalidation, bind, Except.bind] at h
  | ok validated =>
    cases hgates : runGates runtime options oracle record validated with
    | error => simp [hvalidation, hgates, bind, Except.bind] at h
    | ok gates =>
      simp only [hvalidation, hgates, bind, Except.bind] at h
      have hvalidated := finalValidation_ok hvalidation
      obtain ⟨hreviewer, htester⟩ := runGates_ok skips hgates
      obtain ⟨hmanifest, htarget⟩ := finalChecks_ok h
      refine ⟨fun hordinary hitems => ?_, hreviewer, htester, fun hordinary => ?_,
        fun hsanitized => ?_⟩
      · obtain ⟨-, -, -, -, -, hresult⟩ := hvalidated.ordinary hordinary
        have hstatus := hvalidated.status hitems
        have herror := hvalidated.noError
        rw [hresult] at hstatus herror
        exact ⟨hstatus, herror⟩
      · obtain ⟨before, after, hbefore, hafter, hsame, -⟩ := hvalidated.ordinary hordinary
        have hstate : stateAfterValidation oracle record = some after := by
          simp [stateAfterValidation, hordinary, hafter]
        obtain ⟨cleanup, hcleanup, hunmoved⟩ := htarget after hstate
        exact ⟨before, after, cleanup, hbefore, hafter, hcleanup, hsame, hunmoved⟩
      · refine ⟨hvalidated.sanitized hsanitized, ?_, hmanifest hsanitized⟩
        by_contra hne
        exact hbroken (by simp [hsanitized, hne])

/-! ### What an attempt writes -/

/-- None of the effects puts the pipeline behind its gates. -/
def StaysBefore (effects : List PipelineEffect) : Prop :=
  ∀ candidate, PipelineEffect.write candidate ∈ effects → candidate.status.gatesPassed = false

theorem StaysBefore.append {first second : List PipelineEffect} (h : StaysBefore first)
    (h' : StaysBefore second) : StaysBefore (first ++ second) := by
  intro candidate hcandidate
  rcases mem_append.mp hcandidate with hfirst | hsecond
  · exact h candidate hfirst
  · exact h' candidate hsecond

/-- The patch does not put a record behind the gates. -/
def KeepsBefore (patch : PipelinePatch) : Prop :=
  ∀ record changes, record.status.gatesPassed = false → patch record = .changes changes →
    (changes.status.getD record.status).gatesPassed = false

variable {patch : PipelinePatch}

theorem applyPatch_before (keeps : KeepsBefore patch) (before : record.status.gatesPassed = false) :
    (applyPatch record patch).1.status.gatesPassed = false ∧
      StaysBefore (applyPatch record patch).2 := by
  simp only [applyPatch]
  split
  next changes hpatch =>
    have hnext := keeps record changes before hpatch
    refine ⟨hnext, fun candidate hcandidate => ?_⟩
    simp only [mem_singleton, PipelineEffect.write.injEq] at hcandidate
    rw [hcandidate]
    exact hnext
  · exact ⟨before, fun candidate hcandidate => nomatch hcandidate⟩
  · exact ⟨before, fun candidate hcandidate => nomatch hcandidate⟩

theorem reconciliationPatch_before (changes : List JournalChange) (refreshing : Bool)
    (time : Nat) : KeepsBefore (reconciliationPatch changes refreshing time) := by
  intro record given before patch
  simp only [reconciliationPatch] at patch
  split at patch
  · cases patch
  · cases patch
    split
    · rfl
    · exact before

theorem guarded_before (keeps : KeepsBefore patch) : KeepsBefore (guarded patch) := by
  intro record changes before hpatch
  simp only [guarded] at hpatch
  split at hpatch
  · cases hpatch
  · exact keeps record changes before hpatch

variable {changes : PipelineChanges} {time : Nat}

theorem refreshChanges_before {jobs : List JobSnapshot}
    (derived : refreshChanges jobs time record = some changes) :
    ∃ status, changes.status = some status ∧ status.gatesPassed = false := by
  simp only [refreshChanges] at derived
  split_ifs at derived <;> cases derived <;> exact ⟨_, rfl, rfl⟩

theorem refreshPatch_before (jobs : List JobSnapshot) (observed : Bool) (time : Nat) :
    KeepsBefore (refreshPatch jobs observed time) := by
  refine guarded_before fun record changes before patch => ?_
  simp only at patch
  split at patch
  · cases patch
  next derived hderived =>
    obtain ⟨status, hstatus, hbefore⟩ := refreshChanges_before hderived
    split at patch
    · cases patch
    · cases patch
      rw [hstatus]
      exact hbefore

theorem brokenManifestPatch_before (time : Nat) : KeepsBefore (brokenManifestPatch time) := by
  refine guarded_before fun record changes before patch => ?_
  cases patch
  rfl

theorem deferPatch_before (changes : PipelineChanges) (type errorType : String) (time : Nat) :
    KeepsBefore (deferPatch changes type errorType time) := by
  intro record given before patch
  simp only [deferPatch] at patch
  split at patch
  · cases patch
    exact before
  · cases patch
    rfl

theorem plain_before {status : RecordStatus} (sets : changes.status = some status)
    (before : status.gatesPassed = false) : KeepsBefore changes.plain := by
  intro record given _ patch
  cases patch
  rw [sets]
  exact before

theorem reconciled_before (before : record.status.gatesPassed = false) :
    (reconciled oracle record).1.status.gatesPassed = false ∧
      StaysBefore (reconciled oracle record).2 := by
  simp only [reconciled]
  split
  · exact ⟨before, fun candidate hcandidate => nomatch hcandidate⟩
  · exact applyPatch_before (reconciliationPatch_before _ _ _) before

theorem refreshReconciled_before (before : record.status.gatesPassed = false) :
    (refreshReconciled oracle record).1.status.gatesPassed = false ∧
      StaysBefore (refreshReconciled oracle record).2 := by
  simp only [refreshReconciled]
  split
  · exact ⟨before, fun candidate hcandidate => nomatch hcandidate⟩
  · exact applyPatch_before (guarded_before (reconciliationPatch_before _ _ _)) before

theorem childrenPatch_before : KeepsBefore (childrenPatch oracle) := by
  simp only [childrenPatch]
  split
  · exact brokenManifestPatch_before _
  · exact refreshPatch_before _ _ _

theorem refreshed_before (before : record.status.gatesPassed = false) :
    (refreshed oracle record).1.status.gatesPassed = false ∧
      StaysBefore (refreshed oracle record).2 := by
  simp only [refreshed]
  split
  · exact ⟨before, fun candidate hcandidate => nomatch hcandidate⟩
  · obtain ⟨hfirst, hwrites⟩ := refreshReconciled_before before
    obtain ⟨hsecond, hlater⟩ := applyPatch_before childrenPatch_before hfirst
    exact ⟨hsecond, hwrites.append hlater⟩

/-- A record that may be finalized. -/
structure Startable (options : FinalizeOptions) (record : PipelineRecord) : Prop where
  integrated : ∀ item ∈ record.integrationQueue, item.status = .integrated
  skips : options.skipReviewers = true → record.reviewerJob = none ∧ record.testerJob = none

/-- A patch that sets a status in front of the gates, or none. -/
def SetsBefore (record : PipelineRecord) (patch : PipelinePatch) : Prop :=
  ∃ changes, patch = PipelineChanges.plain changes ∧
    (changes.status.getD record.status).gatesPassed = false

theorem SetsBefore.applied (h : SetsBefore record patch) :
    StaysBefore (applyPatch record patch).2 := by
  obtain ⟨changes, rfl, hstatus⟩ := h
  intro candidate hcandidate
  simp only [applyPatch, PipelineChanges.plain, mem_singleton,
    PipelineEffect.write.injEq] at hcandidate
  rw [hcandidate]
  exact hstatus

theorem rejectsStart_before {status : Option RecordStatus} {errorType : String}
    (before : (status.getD record.status).gatesPassed = false)
    (h : rejectsStart options time record status errorType = .stops (some patch)) :
    SetsBefore record patch := by
  simp only [rejectsStart, FinalizeStart.stops.injEq] at h
  split at h
  · cases h
  · cases h
    exact ⟨_, rfl, before⟩

variable {policy : Option LoadedPolicy}

theorem finalizeStart_stops (before : record.status.gatesPassed = false)
    (h : finalizeStart options policy time record = .stops (some patch)) :
    SetsBefore record patch := by
  have hpending : (if finalizable record then RecordStatus.awaitingIntegration
      else record.status).gatesPassed = false := by
    split
    · rfl
    · exact before
  unfold finalizeStart at h
  split at h
  · cases h
  split at h
  · cases h
  split at h
  · refine rejectsStart_before ?_ h
    exact before
  split at h
  · refine rejectsStart_before ?_ h
    exact hpending
  split at h
  · refine rejectsStart_before ?_ h
    exact before
  split at h
  · refine rejectsStart_before ?_ h
    exact rfl
  split at h
  · refine rejectsStart_before ?_ h
    exact rfl
  split at h
  · refine rejectsStart_before ?_ h
    exact rfl
  split at h
  · cases h
  split at h
  · refine rejectsStart_before ?_ h
    exact rfl
  split at h <;> cases h

variable {events : List AuditEvent}

theorem rejectsStart_stops {status : Option RecordStatus} {errorType : String} :
    rejectsStart options time record status errorType ≠ .proceeds events := nofun

theorem finalizeStart_proceeds (h : finalizeStart options policy time record = .proceeds events) :
    Startable options record := by
  unfold finalizeStart at h
  split at h
  · cases h
  split at h
  · cases h
  split at h
  · exact absurd h rejectsStart_stops
  split at h
  · exact absurd h rejectsStart_stops
  next hpending =>
    split at h
    · exact absurd h rejectsStart_stops
    split at h
    · exact absurd h rejectsStart_stops
    next hskips =>
      refine ⟨fun item hitem => ?_, fun hskip => ?_⟩
      · by_contra hne
        exact hpending (any_eq_true.mpr ⟨item, hitem, by simp [hne]⟩)
      · simpa [hskip] using hskips

theorem finalValidation_error (h : finalValidation runtime oracle record = .error (some patch)) :
    KeepsBefore patch := by
  simp only [finalValidation] at h
  split at h
  · cases h
    exact deferPatch_before _ _ _ _
  split at h
  · cases h
    exact deferPatch_before _ _ _ _
  split at h
  · split at h
    · cases h
      exact deferPatch_before _ _ _ _
    · cases h
      exact plain_before rfl rfl
  · cases h

theorem judgeGates_error (h : judgeGates oracle record passed = .error (some patch)) :
    KeepsBefore patch := by
  simp only [judgeGates] at h
  split at h
  · cases h
    exact plain_before rfl rfl
  · cases h
    exact deferPatch_before _ _ _ _
  · cases h

theorem runGates_error
    (h : runGates runtime options oracle record validated = .error (some patch)) :
    KeepsBefore patch := by
  simp only [runGates] at h
  split at h
  · exact judgeGates_error h
  · split at h
    · exact judgeGates_error h
    · cases h

theorem finalChecks_error (h : finalChecks runtime oracle record passed = .error (some patch)) :
    KeepsBefore patch := by
  simp only [finalChecks] at h
  split at h
  · cases h
    exact plain_before rfl rfl
  split at h
  · cases h
    exact deferPatch_before _ _ _ _
  · split at h
    · cases h
      exact deferPatch_before _ _ _ _
    · cases h

/-- A stage that ends the attempt leaves the pipeline in front of its gates. -/
theorem finalizeGates_error
    (h : finalizeGates runtime options oracle record = .error (some patch)) :
    KeepsBefore patch := by
  simp only [finalizeGates] at h
  split at h
  · cases h
    exact plain_before rfl rfl
  · cases hvalidation : finalValidation runtime oracle record with
    | error error =>
      simp only [hvalidation, bind, Except.bind, Except.error.injEq] at h
      exact finalValidation_error (h ▸ hvalidation)
    | ok validated =>
      cases hgates : runGates runtime options oracle record validated with
      | error error =>
        simp only [hvalidation, hgates, bind, Except.bind, Except.error.injEq] at h
        exact runGates_error (h ▸ hgates)
      | ok gates =>
        simp only [hvalidation, hgates, bind, Except.bind] at h
        exact finalChecks_error h

/-- What an attempt that gets behind the gates has seen of the record it decided on. -/
structure SoundAttempt (runtime : FinalizeRuntime) (oracle : AttemptOracle)
    (record : PipelineRecord) : Prop where
  integrated : ∀ item ∈ record.integrationQueue, item.status = .integrated
  stages : StagesSound runtime oracle record

theorem StagesSound.reserved (queue : changes.integrationQueue = none)
    (h : StagesSound runtime oracle (updateCandidate record changes)) :
    StagesSound runtime oracle record := by
  have hqueue : (updateCandidate record changes).integrationQueue = record.integrationQueue := by
    show changes.integrationQueue.getD record.integrationQueue = record.integrationQueue
    rw [queue]
    rfl
  obtain ⟨hvalidated, hreviewer, htester, htarget, hmanifest⟩ := h
  rw [hqueue] at hvalidated hmanifest
  exact ⟨hvalidated, hreviewer, htester, htarget, hmanifest⟩

variable {candidate : PipelineRecord}

/-- A record that an attempt writes is in front of the gates, or every stage has passed. -/
theorem gatedEffects_sound (before : record.status.gatesPassed = false)
    (skips : options.skipReviewers = true → record.reviewerJob = none ∧ record.testerJob = none)
    (written : .write candidate ∈ gatedEffects runtime options oracle record)
    (behind : candidate.status.gatesPassed = true) : StagesSound runtime oracle record := by
  simp only [gatedEffects] at written
  split at written
  next patch hstages =>
    have hbefore := (applyPatch_before (finalizeGates_error hstages) before).2 candidate written
    rw [behind] at hbefore
    cases hbefore
  · cases written
  next passed hstages => exact finalizeGates_ok skips hstages

theorem finalizingPatch_changes (h : finalizingPatch events record = .changes changes) :
    changes = { status := some .finalizing, events := some events } := by
  simp only [finalizingPatch] at h
  split at h <;> cases h
  rfl

theorem reserved_sound (start : finalizeStart options policy time record = .proceeds events)
    (reserves : finalizingPatch events record = .changes changes)
    (written : .write candidate ∈ .write (updateCandidate record changes)
      :: gatedEffects runtime options oracle (updateCandidate record changes))
    (behind : candidate.status.gatesPassed = true) : SoundAttempt runtime oracle record := by
  have hstartable := finalizeStart_proceeds start
  obtain rfl := finalizingPatch_changes reserves
  rcases mem_cons.mp written with hreserved | hgated
  · rw [PipelineEffect.write.injEq] at hreserved
    rw [hreserved] at behind
    cases behind
  · have hstages := gatedEffects_sound rfl ?_ hgated behind
    · exact ⟨hstartable.integrated, hstages.reserved rfl⟩
    · exact hstartable.skips

theorem attempt_sound (before : record.status.gatesPassed = false)
    (written : .write candidate ∈ finalizePipelineRecordWhileLocked runtime options oracle record)
    (behind : candidate.status.gatesPassed = true) :
    SoundAttempt runtime oracle (attemptRecord oracle record) := by
  obtain ⟨hreconciled, hfirst⟩ := reconciled_before before
  obtain ⟨hcurrent, hsecond⟩ := refreshed_before hreconciled
  have hnot : ∀ effects, StaysBefore effects → .write candidate ∉ effects := by
    intro effects hbefore hmem
    have hcandidate := hbefore candidate hmem
    rw [behind] at hcandidate
    cases hcandidate
  have hrefreshes := hnot _ (hfirst.append hsecond)
  simp only [finalizePipelineRecordWhileLocked] at written
  split at written
  · split at written
    · cases written
    · exact absurd written hrefreshes
  next patch hstart =>
    rcases mem_append.mp written with hrefresh | hrejection
    · exact absurd hrefresh hrefreshes
    · exact absurd hrejection (hnot _ (finalizeStart_stops hcurrent hstart).applied)
  next events hstart =>
    split at written
    next changes hpatch =>
      rcases mem_append.mp written with hrefresh | hlater
      · exact absurd hrefresh hrefreshes
      · exact reserved_sound hstart hpatch hlater behind
    · exact absurd written hrefreshes
    · exact absurd written hrefreshes

/-! ### Runs -/

theorem run_carryOutEffect_behind {s : FinalizationState} {effects : List PipelineEffect}
    (behind : (run (carryOutEffect runtime) s effects).row.status.gatesPassed = true) :
    s.row.status.gatesPassed = true ∨
      ∃ candidate, .write candidate ∈ effects ∧ candidate.status.gatesPassed = true := by
  induction effects generalizing s with
  | nil => exact .inl behind
  | cons effect effects ih =>
    rcases ih behind with hnext | ⟨candidate, hmem, hcandidate⟩
    · cases effect with
      | write candidate =>
        have hstatus : candidate.status.gatesPassed = true := by
          simp only [carryOutEffect, storedRecord] at hnext
          split at hnext <;> exact hnext
        exact .inr ⟨candidate, by simp, hstatus⟩
      | remove item authorization source => exact .inl hnext
    · exact .inr ⟨candidate, by simp [hmem], hcandidate⟩

def IsSoundAttempt (runtime : FinalizeRuntime) (row : PipelineRecord)
    (event : FinalizationEvent) : Prop :=
  ∃ options oracle carried, event = .attempt options oracle carried ∧
    SoundAttempt runtime oracle (attemptRecord oracle row)

theorem finalizationStep_behind {s : FinalizationState} {event : FinalizationEvent}
    (before : s.row.status.gatesPassed = false)
    (behind : (finalizationStep runtime s event).row.status.gatesPassed = true) :
    IsSoundAttempt runtime s.row event := by
  rcases run_carryOutEffect_behind behind with hrow | ⟨candidate, hmem, hcandidate⟩
  · rw [before] at hrow
    cases hrow
  · cases event with
    | attempt options oracle carried =>
      have hwritten := mem_of_mem_take hmem
      exact ⟨options, oracle, carried, rfl, attempt_sound before hwritten hcandidate⟩
    | recover oracle carried =>
      have hnot : ¬(s.row.status = .cleanupPending ∨ s.row.status = .cleanupFailed) := by
        rintro (hstatus | hstatus) <;> rw [hstatus] at before <;> cases before
      simp [eventEffects, hnot] at hmem
    | update record =>
      simp only [eventEffects, before, Bool.false_or] at hmem
      split at hmem
      · cases hmem
      next hrecord =>
        simp only [mem_singleton, PipelineEffect.write.injEq] at hmem
        rw [hmem] at hcandidate
        exact absurd hcandidate hrecord

end

/-- A pipeline gets behind its gates only by an attempt that found every item integrated and
its validation and gates passed, on a target that did not move, or in a sanitized workspace
whose manifest was verified before and after. -/
theorem pipeline_completion_sound (runtime : FinalizeRuntime) (record : PipelineRecord)
    (before : record.status.gatesPassed = false) (events : List FinalizationEvent)
    (behind : (run (finalizationStep runtime) ⟨record, []⟩ events).row.status.gatesPassed = true) :
    ∃ earlier event later, events = earlier ++ event :: later ∧
      IsSoundAttempt runtime (run (finalizationStep runtime) ⟨record, []⟩ earlier).row event := by
  suffices hrun : ∀ s : FinalizationState, s.row.status.gatesPassed = false →
      (run (finalizationStep runtime) s events).row.status.gatesPassed = true →
      ∃ earlier event later, events = earlier ++ event :: later ∧
        IsSoundAttempt runtime (run (finalizationStep runtime) s earlier).row event from
    hrun ⟨record, []⟩ before behind
  clear behind
  induction events with
  | nil =>
    intro s hbefore hbehind
    rw [run_nil, hbefore] at hbehind
    cases hbehind
  | cons event events ih =>
    intro s hbefore hbehind
    cases hnext : (finalizationStep runtime s event).row.status.gatesPassed with
    | true => exact ⟨[], event, events, rfl, finalizationStep_behind hbefore hnext⟩
    | false =>
      obtain ⟨earlier, sound, later, hevents, hsound⟩ := ih _ hnext hbehind
      exact ⟨event :: earlier, sound, later, by rw [hevents]; rfl, hsound⟩

/-! ### A finalization -/

/-- Agents named like gates are managed and read-only, and a digest is its text. -/
def plainFinalizer : FinalizeRuntime where
  host := plainHost
  isManagedReadOnlyAgent := fun agent => ["reviewer", "tester"].contains agent
  sha256 := String.join
  detailsFit := fun _ => true

def targetAt (head : String) : TargetState where
  targetHead := head
  targetTree := "tree"
  statusSha256 := "status"
  workingPatchSha256 := "working"
  indexSha256 := "index"
  targetStateSha256 := head ++ "-state"
  ordinarySnapshot := [("src/a.js", "fingerprint")]

def plainSource : SourceView where
  pathExists := true
  registered := true
  branchRefExists := true
  patch := some ⟨"patch", "state", "base", "head"⟩
  branch := "writer-1"

def passingGate : GateExecution where
  errorType := ""
  changedFilesErrorType := none
  stdout := "GATE_VERDICT: pass".toList

/-- An attempt on a target that stays at the given heads. -/
def attemptOn (before after : String) : AttemptOracle where
  journal := fun _ => none
  refreshJournal := fun _ => none
  children := .jobs oneWriter.jobs false
  policy := none
  sanitizedBefore := ""
  beforeState := some (targetAt before)
  validation := ⟨"passed", "", false, none⟩
  afterState := some (targetAt after)
  abortedAfterValidation := none
  reviewer := some passingGate
  tester := none
  sanitizedAfter := ""
  beforeCleanupState := some (targetAt after)
  abortedBeforeCleanup := none
  cleanup :=
    { look := fun _ => plainSource
      check := fun _ => plainSource
      atRemoval := fun _ => plainSource
      outcome := fun _ => ⟨.success, ""⟩ }
  time := 50

def removablePipeline : PipelineRecord :=
  { finalizablePipeline with
    finalValidationCommand := "npm test"
    finalValidationSource := "caller"
    integrationQueue :=
      [{ pendingItem "job-1" "writer-1" with
         status := .integrated
         worktreePath := "/worktrees/job-1"
         sourceBaseCommit := "base"
         patchSha256 := "patch"
         sourceStateSha256 := "state"
         cleanupRequested := true }] }

/-- A pipeline of a sanitized workspace, which has nothing to integrate. -/
def sanitizedPipeline : PipelineRecord :=
  { finalizablePipeline with
    sanitizedWorkspace := true
    reviewerJob := none
    integrationQueue := [] }

/-- An attempt at it whose target moves while it runs. -/
def movedTarget : AttemptOracle :=
  { attemptOn "head" "other" with children := .jobs [] false }

theorem pipeline_completion_sound_of_gates :
    ∃ earlier event later,
      [FinalizationEvent.attempt ⟨false, false⟩ (attemptOn "head" "head") 5]
        = earlier ++ event :: later ∧
      IsSoundAttempt plainFinalizer
        (run (finalizationStep plainFinalizer) ⟨removablePipeline, []⟩ earlier).row event :=
  pipeline_completion_sound plainFinalizer removablePipeline (by decide)
    [.attempt ⟨false, false⟩ (attemptOn "head" "head") 5] (by decide +kernel)

/-- The state of the target is not captured for a sanitized workspace: its pipeline is
completed on a target that has moved. -/
theorem pipeline_completion_sound_fails :
    (run (finalizationStep plainFinalizer) ⟨sanitizedPipeline, []⟩
        [.attempt ⟨false, false⟩ movedTarget 5]).row.status = .completed ∧
      ¬SameTarget plainFinalizer movedTarget := by
  constructor
  · decide +kernel
  · rintro ⟨before, after, cleanup, hbefore, hafter, -, hsame, -⟩
    cases hbefore
    cases hafter
    exact absurd hsame (by decide +kernel)

end AgentBridge.Pipelines
