import AgentBridge.Pipelines.Completion

/-!
# The removal of authorized sources

A source that is removed was named by one durable authorization, which names no other item,
and was still what the authorization says. The results of a cleanup and of its recoveries
name each requested item once, and a result that is final stays.
-/

namespace AgentBridge.Pipelines

open Systems List

/-! ### The promise -/

/-- The items of a record whose sources are to be removed. -/
def requestedItems (record : PipelineRecord) : List IntegrationItem :=
  record.integrationQueue.filter cleanupRequested

/-- Exactly one authorization of the row matches the item, and no other requested item; the
source was what it says. -/
def RemovalAuthorized (runtime : PipelineRuntime) (removal : Removal) : Prop :=
  ∃ event authorization, authorizationEvent removal.row = some event ∧
    (event.worktrees.filter fun other =>
      cleanupAuthorizationMatchesItem runtime removal.row other removal.item) = [authorization] ∧
    (requestedItems removal.row).filter
      (cleanupAuthorizationMatchesItem runtime removal.row authorization) = [removal.item] ∧
    stillAuthorized authorization removal.source = true

/-- One result for each requested item. -/
def ResultsComplete (record : PipelineRecord) : Prop :=
  (record.sourceCleanupResults.map CleanupResult.worktreePath).Perm
    ((requestedItems record).map IntegrationItem.worktreePath)

/-! ### The condition -/

/-- A source that still has the patch and the state of its item is on its branch and has its
base. -/
def sourceUnmoved (item : IntegrationItem) (view : SourceView) : Bool :=
  view.patch.all fun patch =>
    patch.patchSha256 ≠ item.patchSha256 || patch.sourceStateSha256 ≠ item.sourceStateSha256
      || (view.branch = item.branch && patch.sourceBaseCommit = item.sourceBaseCommit)

/-- The paths of the requested items are distinct. -/
def distinctSources (runtime : PipelineRuntime) (record : PipelineRecord) : Bool :=
  decide ((requestedItems record).map fun item =>
    runtime.worktreeKey record.cwd item.worktreePath).Nodup

/-- The sources of the items are unmoved when the cleanup plans, and do not change between
its last look at them and their removal. -/
def sourcesUnmoved (items : List IntegrationItem) (oracle : CleanupOracle) : Bool :=
  (items.mapIdx fun index item => sourceUnmoved item (oracle.look index)
    && oracle.atRemoval index = oracle.check index).all id

def getsToCleanup (runtime : FinalizeRuntime) (options : FinalizeOptions)
    (oracle : AttemptOracle) (record : PipelineRecord) : Bool :=
  match finalizeStart options oracle.policy oracle.time record with
  | .proceeds events =>
    match finalizingPatch events record with
    | .changes changes =>
      (finalizeGates runtime options oracle (updateCandidate record changes)).toOption.isSome
    | _ => false
  | _ => false

def cleanupAllowed (runtime : FinalizeRuntime) (s : FinalizationState) :
    FinalizationEvent → Bool
  | .attempt options oracle _ =>
    let record := attemptRecord oracle s.row
    !getsToCleanup runtime options oracle record
      || (distinctSources runtime.host record
        && sourcesUnmoved (requestedItems record) oracle.cleanup)
  | .recover oracle _ =>
    distinctSources runtime.host s.row
      && sourcesUnmoved (itemsAwaitingCleanup runtime.host s.row) oracle.cleanup
  | .update _ => true

/-! ### The entries of a plan -/

variable {effect : PipelineEffect} {look : Nat → SourceView}

section

variable {runtime : PipelineRuntime} {record : PipelineRecord}
  {authorizedWorktrees : Option (List CleanupAuthorization)} {item : IntegrationItem}
  {view : SourceView} {oracle : CleanupOracle}

structure PlannedRemoval (runtime : PipelineRuntime) (record : PipelineRecord)
    (authorizedWorktrees : Option (List CleanupAuthorization)) (item : IntegrationItem)
    (view : SourceView) (authorization : CleanupAuthorization) : Prop where
  authorized : ∀ authorizations, authorizedWorktrees = some authorizations →
    (authorizations.filter fun other =>
      cleanupAuthorizationMatchesItem runtime record other item).length = 1
  path : authorization.worktreePath = item.worktreePath
  patch : ∃ patch, view.patch = some patch ∧ patch.patchSha256 = item.patchSha256 ∧
    patch.sourceStateSha256 = item.sourceStateSha256 ∧
    authorization.sourceBaseCommit = patch.sourceBaseCommit
  patchSha256 : authorization.patchSha256 = item.patchSha256
  sourceStateSha256 : authorization.sourceStateSha256 = item.sourceStateSha256
  branch : authorization.branch = view.branch

variable {authorization : CleanupAuthorization}

theorem planEntry_removal {other : IntegrationItem}
    (h : planEntry runtime record authorizedWorktrees false item view
      = .removal other authorization) :
    other = item ∧ PlannedRemoval runtime record authorizedWorktrees item view authorization := by
  simp only [planEntry, Bool.false_eq_true, if_false] at h
  split at h
  · cases h
  next hauthorized =>
    split at h
    · split at h <;> cases h
    · split at h
      · cases h
      next patch hpatch =>
        split at h
        · cases h
        next hsame =>
          split at h
          · cases h
          · simp only [Bool.or_eq_true, decide_eq_true_eq, not_or, ne_eq, not_not] at hsame
            obtain ⟨rfl, rfl⟩ := h
            refine ⟨rfl, ⟨fun authorizations hsome => ?_, rfl, ⟨patch, hpatch, hsame.1, hsame.2,
              rfl⟩, hsame.1, hsame.2, rfl⟩⟩
            simpa [hsome] using hauthorized

theorem planEntry_written :
    (planEntry runtime record authorizedWorktrees false item view).written.worktreePath
      = item.worktreePath := by
  simp only [planEntry, Bool.false_eq_true, if_false]
  split
  · rfl
  · split
    · split <;> rfl
    · split
      · rfl
      · split
        · rfl
        · split <;> rfl

theorem PlanEntry.carriedOut_path (index : Nat) (entry : PlanEntry) :
    (entry.carriedOut oracle index).worktreePath = entry.written.worktreePath := by
  cases entry with
  | result given => rfl
  | removal item authorization =>
    simp only [PlanEntry.carriedOut]
    split <;> rfl

theorem cleanupPlan_written (look : Nat → SourceView) :
    ((cleanupPlan runtime record authorizedWorktrees look).map PlanEntry.written).map
        CleanupResult.worktreePath
      = (requestedItems record).map IntegrationItem.worktreePath := by
  apply ext_getElem?
  intro index
  simp only [cleanupPlan, List.getElem?_map, List.getElem?_mapIdx, Option.map_map,
    requestedItems]
  cases (record.integrationQueue.filter cleanupRequested)[index]? with
  | none => rfl
  | some item => exact congrArg some planEntry_written

theorem cleanupResults_path (oracle : CleanupOracle) (plan : List PlanEntry) :
    (cleanupResults oracle plan).map CleanupResult.worktreePath
      = (plan.map PlanEntry.written).map CleanupResult.worktreePath := by
  apply ext_getElem?
  intro index
  simp only [cleanupResults, List.getElem?_map, List.getElem?_mapIdx, Option.map_map]
  cases plan[index]? with
  | none => rfl
  | some entry => exact congrArg some (entry.carriedOut_path index)

/-- A removal that is carried out is of an item of the plan, and its source was still
authorized when it was looked at. -/
theorem mem_cleanupRemovals
    (h : effect ∈ cleanupRemovals oracle (cleanupPlan runtime record authorizedWorktrees look)) :
    ∃ index item authorization, (requestedItems record)[index]? = some item ∧
      PlannedRemoval runtime record authorizedWorktrees item (look index) authorization ∧
      authorization ∈ (cleanupPlan runtime record authorizedWorktrees look).filterMap
        PlanEntry.authorization ∧
      stillAuthorized authorization (oracle.check index) = true ∧
      effect = .remove item authorization (oracle.atRemoval index) := by
  obtain ⟨effects, heffects, heffect⟩ := mem_flatten.mp h
  obtain ⟨index, hindex, rfl⟩ := mem_mapIdx.mp heffects
  have hentry : (cleanupPlan runtime record authorizedWorktrees look)[index]?
      = some (cleanupPlan runtime record authorizedWorktrees look)[index] :=
    List.getElem?_eq_getElem hindex
  have hmem := getElem_mem hindex
  generalize (cleanupPlan runtime record authorizedWorktrees look)[index] = entry at *
  rw [cleanupPlan, List.getElem?_mapIdx] at hentry
  obtain ⟨item, hitem, hplanned⟩ := Option.map_eq_some_iff.mp hentry
  cases entry with
  | result given => cases heffect
  | removal other authorization =>
    obtain ⟨rfl, hremoval⟩ := planEntry_removal hplanned
    simp only [PlanEntry.effects] at heffect
    split at heffect
    next hstill =>
      refine ⟨index, _, authorization, hitem, hremoval, ?_, hstill,
        mem_singleton.mp heffect⟩
      exact mem_filterMap.mpr ⟨_, hmem, rfl⟩
    · cases heffect

theorem cleanupAuthorizationMatchesItem_key
    (h : cleanupAuthorizationMatchesItem runtime record authorization item = true) :
    runtime.worktreeKey record.cwd authorization.worktreePath
      = runtime.worktreeKey record.cwd item.worktreePath := by
  simp only [cleanupAuthorizationMatchesItem, Bool.and_eq_true, decide_eq_true_eq] at h
  exact h.1.1.1.1.2

/-- An unmoved source is authorized as what its item says. -/
theorem PlannedRemoval.matches
    (h : PlannedRemoval runtime record authorizedWorktrees item view authorization)
    (requested : cleanupRequested item = true) (unmoved : sourceUnmoved item view = true) :
    cleanupAuthorizationMatchesItem runtime record authorization item = true := by
  obtain ⟨patch, hpatch, hpatchSha, hstate, hbase⟩ := h.patch
  simp only [sourceUnmoved, hpatch, Option.all_some, hpatchSha, hstate, ne_eq, not_true_eq_false,
    decide_false, Bool.false_or, Bool.and_eq_true, decide_eq_true_eq] at unmoved
  simp only [cleanupRequested, Bool.and_eq_true, decide_eq_true_eq] at requested
  simp [cleanupAuthorizationMatchesItem, h.path, requested.2, h.branch, unmoved.1, hbase,
    unmoved.2, h.patchSha256, h.sourceStateSha256]

theorem sourcesUnmoved_spec {items : List IntegrationItem} {index : Nat}
    (h : sourcesUnmoved items oracle = true) (found : items[index]? = some item) :
    sourceUnmoved item (oracle.look index) = true ∧
      oracle.atRemoval index = oracle.check index := by
  have hindex : (items.mapIdx fun index item => sourceUnmoved item (oracle.look index)
      && oracle.atRemoval index = oracle.check index)[index]?
        = some (sourceUnmoved item (oracle.look index)
          && oracle.atRemoval index = oracle.check index) := by
    rw [List.getElem?_mapIdx, found]
    rfl
  have hholds := all_eq_true.mp h _ (mem_of_getElem? hindex)
  simpa using hholds

/-- The planned removals name the paths of some of the items, in their order. -/
theorem planned_sublist (items : List IntegrationItem) (look : Nat → SourceView) :
    (((items.mapIdx fun index item =>
        planEntry runtime record authorizedWorktrees false item (look index)).filterMap
          PlanEntry.authorization).map CleanupAuthorization.worktreePath).Sublist
      (items.map IntegrationItem.worktreePath) := by
  induction items generalizing look with
  | nil => exact List.Sublist.slnil
  | cons item items ih =>
    have hrest := ih fun index => look (index + 1)
    rw [mapIdx_cons, map_cons]
    cases hentry : planEntry runtime record authorizedWorktrees false item (look 0) with
    | result given => exact hrest.cons _
    | removal other authorization =>
      have hpath := (planEntry_removal hentry).2.path
      simp only [filterMap_cons, PlanEntry.authorization, map_cons, hpath]
      exact hrest.cons_cons _

theorem cleanupPlan_sublist (runtime : PipelineRuntime) (record : PipelineRecord)
    (authorizedWorktrees : Option (List CleanupAuthorization)) (look : Nat → SourceView) :
    (((cleanupPlan runtime record authorizedWorktrees look).filterMap
        PlanEntry.authorization).map CleanupAuthorization.worktreePath).Sublist
      ((requestedItems record).map IntegrationItem.worktreePath) :=
  planned_sublist (requestedItems record) look

theorem stillAuthorized_congr {first second : CleanupAuthorization}
    (named : cleanupAuthorizationMatchesItem runtime record first item = true)
    (named' : cleanupAuthorizationMatchesItem runtime record second item = true) :
    stillAuthorized first view = stillAuthorized second view := by
  simp only [cleanupAuthorizationMatchesItem, Bool.and_eq_true, decide_eq_true_eq]
    at named named'
  obtain ⟨⟨⟨⟨-, hbranch⟩, -⟩, hpatch⟩, hstate⟩ := named
  obtain ⟨⟨⟨⟨-, hbranch'⟩, -⟩, hpatch'⟩, hstate'⟩ := named'
  simp [stillAuthorized, hbranch, hbranch', hpatch, hpatch', hstate, hstate']

/-- Among requested items with distinct paths, an authorization names at most one. -/
theorem requested_exact (distinct : distinctSources runtime record = true)
    (mem : item ∈ requestedItems record)
    (named : cleanupAuthorizationMatchesItem runtime record authorization item = true) :
    (requestedItems record).filter (cleanupAuthorizationMatchesItem runtime record authorization)
      = [item] := by
  refine filter_eq_singleton (of_decide_eq_true distinct) mem named fun other _ hother => ?_
  rw [← cleanupAuthorizationMatchesItem_key hother, cleanupAuthorizationMatchesItem_key named]

/-- Among the authorizations of a plan, at most one names an item. -/
theorem planned_exact (distinct : distinctSources runtime record = true) (mem : authorization ∈
      (cleanupPlan runtime record authorizedWorktrees look).filterMap PlanEntry.authorization)
    (named : cleanupAuthorizationMatchesItem runtime record authorization item = true) :
    ((cleanupPlan runtime record authorizedWorktrees look).filterMap
        PlanEntry.authorization).filter
      (fun other => cleanupAuthorizationMatchesItem runtime record other item)
      = [authorization] := by
  have hpaths : (((cleanupPlan runtime record authorizedWorktrees look).filterMap
      PlanEntry.authorization).map fun other =>
        runtime.worktreeKey record.cwd other.worktreePath).Sublist
      ((requestedItems record).map fun item =>
        runtime.worktreeKey record.cwd item.worktreePath) := by
    have hplanned := (cleanupPlan_sublist runtime record authorizedWorktrees look).map
      (runtime.worktreeKey record.cwd)
    rwa [map_map, map_map] at hplanned
  have hdistinct : ((requestedItems record).map fun item =>
      runtime.worktreeKey record.cwd item.worktreePath).Nodup := of_decide_eq_true distinct
  refine filter_eq_singleton (hpaths.nodup hdistinct) mem named fun other _ hother => ?_
  have hkey := cleanupAuthorizationMatchesItem_key hother
  rw [← cleanupAuthorizationMatchesItem_key named] at hkey
  exact hkey

theorem recovered_mem {worktrees : List CleanupAuthorization} {awaiting : List IntegrationItem}
    (mem : item ∈ awaiting)
    (recovered : authorization ∈ recoveredAuthorizations runtime record worktrees awaiting)
    (named : cleanupAuthorizationMatchesItem runtime record authorization item = true) :
    authorization ∈ worktrees ∧ (worktrees.filter fun other =>
      cleanupAuthorizationMatchesItem runtime record other item).length = 1 := by
  obtain ⟨hmem, hexact⟩ := mem_filter.mp recovered
  refine ⟨hmem, ?_⟩
  have hitem : item ∈ awaiting.filter
      (cleanupAuthorizationMatchesItem runtime record authorization) :=
    mem_filter.mpr ⟨mem, named⟩
  split at hexact
  next only honly =>
    rw [honly, mem_singleton] at hitem
    rw [hitem]
    simpa using hexact
  · cases hexact

theorem awaiting_requested (mem : item ∈ itemsAwaitingCleanup runtime record) :
    item ∈ requestedItems record :=
  (mem_filter.mp mem).1

end

theorem recovery_authorized {runtime : PipelineRuntime} {record : PipelineRecord}
    {oracle : CleanupOracle} (distinct : distinctSources runtime record = true)
    (unmoved : sourcesUnmoved (itemsAwaitingCleanup runtime record) oracle = true)
    (removes : effect ∈ cleanupRemovals oracle (recoveryPlan runtime record oracle)) :
    ∃ item authorization source, effect = .remove item authorization source ∧
      RemovalAuthorized runtime ⟨item, authorization, source, record⟩ := by
  obtain ⟨index, item, authorization, hitem, hplanned, -, hstill, rfl⟩ :=
    mem_cleanupRemovals removes
  have hawaiting : requestedItems { record with
      integrationQueue := itemsAwaitingCleanup runtime record }
        = itemsAwaitingCleanup runtime record := by
    refine filter_eq_self.mpr fun item hitem => ?_
    exact (mem_filter.mp (awaiting_requested hitem)).2
  rw [hawaiting] at hitem
  have hmem := mem_of_getElem? hitem
  have hrequested := awaiting_requested hmem
  obtain ⟨hsource, hunchanged⟩ := sourcesUnmoved_spec unmoved hitem
  obtain ⟨durable, hdurable⟩ := length_eq_one_iff.mp (hplanned.authorized _ rfl)
  have hrecovered := mem_filter.mp (hdurable ▸ mem_singleton.mpr rfl :
    durable ∈ List.filter (fun other => cleanupAuthorizationMatchesItem runtime record other item)
      (recoveredAuthorizations runtime record
        ((authorizationEvent record).elim [] AuditEvent.worktrees)
        (itemsAwaitingCleanup runtime record)))
  obtain ⟨hworktree, hlength⟩ := recovered_mem hmem hrecovered.1 hrecovered.2
  refine ⟨item, authorization, _, rfl, ?_⟩
  cases hevent : authorizationEvent record with
  | none =>
    rw [hevent] at hworktree
    cases hworktree
  | some event =>
    rw [hevent] at hworktree hlength
    obtain ⟨only, honly⟩ := length_eq_one_iff.mp hlength
    have hdurableOnly : durable = only := by
      have hfiltered : durable ∈ event.worktrees.filter fun other =>
          cleanupAuthorizationMatchesItem runtime record other item :=
        mem_filter.mpr ⟨hworktree, hrecovered.2⟩
      rw [show (event.worktrees.filter fun other =>
        cleanupAuthorizationMatchesItem runtime record other item) = [only] from honly] at hfiltered
      exact mem_singleton.mp hfiltered
    refine ⟨event, durable, hevent, hdurableOnly ▸ honly,
      requested_exact distinct hrequested hrecovered.2, ?_⟩
    have hnamed := hplanned.matches (mem_filter.mp hrequested).2 hsource
    rw [hunchanged, ← hstill]
    exact stillAuthorized_congr hrecovered.2 hnamed

/-! ### What is stored of the authorization -/

section

variable {runtime : FinalizeRuntime} {record : PipelineRecord}

theorem storedRecord_kept (runtime : FinalizeRuntime) (record : PipelineRecord) :
    (storedRecord runtime.store record).cwd = record.cwd ∧
      (storedRecord runtime.store record).integrationQueue = record.integrationQueue ∧
      (storedRecord runtime.store record).sourceCleanupResults = record.sourceCleanupResults ∧
      (storedRecord runtime.store record).status = record.status := by
  simp only [storedRecord]
  split <;> exact ⟨rfl, rfl, rfl, rfl⟩

theorem authorizationEvent_stored (record : PipelineRecord) :
    authorizationEvent (storedRecord runtime.store record) = authorizationEvent record := by
  simp only [storedRecord]
  split
  · rfl
  · simp only [authorizationEvent]
    cases hevent : record.events.reverse.find? fun event =>
        event.type = "source_cleanup_authorized" with
    | none => rfl
    | some event =>
      have htype := List.find?_some hevent
      simp [Option.toList, htype]

variable {first second : PipelineRecord}

theorem matches_cwd {host : PipelineRuntime} (cwd : first.cwd = second.cwd) :
    cleanupAuthorizationMatchesItem host first = cleanupAuthorizationMatchesItem host second := by
  funext authorization item
  simp only [cleanupAuthorizationMatchesItem, cwd]

theorem requestedItems_queue (queue : first.integrationQueue = second.integrationQueue) :
    requestedItems first = requestedItems second := by
  simp only [requestedItems, queue]

def authorizedRow (runtime : FinalizeRuntime) (oracle : AttemptOracle) (record : PipelineRecord)
    (passed : GatesPassed) : PipelineRecord :=
  storedRecord runtime.store (updateCandidate record (authorizationChanges runtime oracle record
    passed (cleanupPlan runtime.host record none oracle.cleanup.look)))

theorem authorizedRow_kept (runtime : FinalizeRuntime) (oracle : AttemptOracle)
    (record : PipelineRecord) (passed : GatesPassed) :
    (authorizedRow runtime oracle record passed).cwd = record.cwd ∧
      requestedItems (authorizedRow runtime oracle record passed) = requestedItems record := by
  obtain ⟨hcwd, hqueue, -, -⟩ := storedRecord_kept runtime
    (updateCandidate record (authorizationChanges runtime oracle record passed
      (cleanupPlan runtime.host record none oracle.cleanup.look)))
  exact ⟨hcwd, requestedItems_queue hqueue⟩

theorem authorizedRow_event (runtime : FinalizeRuntime) (oracle : AttemptOracle)
    (record : PipelineRecord) (passed : GatesPassed) :
    authorizationEvent (authorizedRow runtime oracle record passed)
      = some (authorizedEvent runtime oracle record
        (cleanupPlan runtime.host record none oracle.cleanup.look)) := by
  rw [authorizedRow, authorizationEvent_stored]
  simp only [authorizationEvent, updateCandidate, PipelineRecord.assign, authorizationChanges,
    Option.getD_some, reverse_append, reverse_cons, reverse_nil, nil_append,
    cons_append]
  exact List.find?_cons_of_pos (decide_eq_true rfl)

variable {passed : GatesPassed}

theorem attempt_authorized {oracle : AttemptOracle}
    (distinct : distinctSources runtime.host record = true)
    (unmoved : sourcesUnmoved (requestedItems record) oracle.cleanup = true)
    (removes : effect ∈ cleanupRemovals oracle.cleanup
      (cleanupPlan runtime.host record none oracle.cleanup.look)) :
    ∃ item authorization source, effect = .remove item authorization source ∧
      RemovalAuthorized runtime.host
        ⟨item, authorization, source, authorizedRow runtime oracle record passed⟩ := by
  obtain ⟨index, item, authorization, hitem, hplanned, hmem, hstill, rfl⟩ :=
    mem_cleanupRemovals removes
  have hrequested := mem_of_getElem? hitem
  obtain ⟨hsource, hunchanged⟩ := sourcesUnmoved_spec unmoved hitem
  have hnamed := hplanned.matches (mem_filter.mp hrequested).2 hsource
  obtain ⟨hcwd, hitems⟩ := authorizedRow_kept runtime oracle record passed
  refine ⟨item, authorization, _, rfl, _, authorization,
    authorizedRow_event runtime oracle record passed, ?_, ?_, ?_⟩
  · rw [matches_cwd hcwd]
    exact planned_exact distinct hmem hnamed
  · rw [hitems, matches_cwd hcwd]
    exact requested_exact distinct hrequested hnamed
  · rw [hunchanged]
    exact hstill

/-! ### The results -/

theorem ResultsComplete.congr (h : ResultsComplete first)
    (results : second.sourceCleanupResults = first.sourceCleanupResults)
    (items : (requestedItems second).map IntegrationItem.worktreePath
      = (requestedItems first).map IntegrationItem.worktreePath) : ResultsComplete second := by
  rw [ResultsComplete, results, items]
  exact h

variable {candidate : PipelineRecord}

theorem ResultsComplete.stored (h : ResultsComplete candidate) :
    ResultsComplete (storedRecord runtime.store candidate) := by
  obtain ⟨-, hqueue, hresults, -⟩ := storedRecord_kept runtime candidate
  exact h.congr hresults (by rw [requestedItems_queue hqueue])

theorem resultsComplete_of_plan {authorizedWorktrees : Option (List CleanupAuthorization)}
    (results : candidate.sourceCleanupResults.map CleanupResult.worktreePath
      = ((cleanupPlan runtime.host record authorizedWorktrees look).map PlanEntry.written).map
        CleanupResult.worktreePath) (items : requestedItems candidate = requestedItems record) :
    ResultsComplete candidate := by
  rw [ResultsComplete, results, cleanupPlan_written, items]

theorem resultsComplete_recovered (oracle : CleanupOracle) (time : Nat)
    (distinct : distinctSources runtime.host record = true) (complete : ResultsComplete record) :
    ResultsComplete (updateCandidate record (recoveredChanges record
      (terminalCleanupResults record
        ++ cleanupResults oracle (recoveryPlan runtime.host record oracle)) time)) := by
  have hawaiting : requestedItems { record with
      integrationQueue := itemsAwaitingCleanup runtime.host record }
        = itemsAwaitingCleanup runtime.host record := by
    refine filter_eq_self.mpr fun item hitem => ?_
    exact (mem_filter.mp (awaiting_requested hitem)).2
  have hpaths : ((itemsAwaitingCleanup runtime.host record).map IntegrationItem.worktreePath)
      = ((requestedItems record).map IntegrationItem.worktreePath).filter fun path =>
        !(((terminalCleanupResults record).map CleanupResult.worktreePath).map
          (runtime.host.worktreeKey record.cwd)).contains
            (runtime.host.worktreeKey record.cwd path) := by
    rw [filter_map, map_map]
    rfl
  have hfinished : ((terminalCleanupResults record).map CleanupResult.worktreePath).Subperm
      ((requestedItems record).map IntegrationItem.worktreePath) := by
    have hsublist : ((terminalCleanupResults record).map CleanupResult.worktreePath).Sublist
        (record.sourceCleanupResults.map CleanupResult.worktreePath) :=
      filter_sublist.map _
    exact hsublist.subperm.trans complete.subperm
  have hdistinct : (((requestedItems record).map IntegrationItem.worktreePath).map
      (runtime.host.worktreeKey record.cwd)).Nodup := by
    rw [map_map]
    exact of_decide_eq_true distinct
  show ((terminalCleanupResults record
      ++ cleanupResults oracle (recoveryPlan runtime.host record oracle)).map
        CleanupResult.worktreePath).Perm
    ((requestedItems record).map IntegrationItem.worktreePath)
  rw [map_append, cleanupResults_path, recoveryPlan, cleanupPlan_written, hawaiting, hpaths]
  exact perm_append_remaining hdistinct hfinished

/-! ### Effects -/

def OnlyWrites (effects : List PipelineEffect) : Prop :=
  ∀ effect ∈ effects, ∃ candidate, effect = .write candidate

theorem OnlyWrites.append {first second : List PipelineEffect} (h : OnlyWrites first)
    (h' : OnlyWrites second) : OnlyWrites (first ++ second) := by
  intro effect heffect
  rcases mem_append.mp heffect with hfirst | hsecond
  · exact h effect hfirst
  · exact h' effect hsecond

variable {effects : List PipelineEffect}

theorem OnlyWrites.cons (h : OnlyWrites effects) : OnlyWrites (.write candidate :: effects) := by
  intro effect heffect
  rcases mem_cons.mp heffect with rfl | hrest
  · exact ⟨candidate, rfl⟩
  · exact h effect hrest

theorem onlyWrites_nil : OnlyWrites [] := fun _ heffect => nomatch heffect

theorem onlyWrites_applyPatch (patch : PipelinePatch) :
    OnlyWrites (applyPatch record patch).2 := by
  simp only [applyPatch]
  split
  · exact onlyWrites_nil.cons
  · exact onlyWrites_nil
  · exact onlyWrites_nil

theorem onlyWrites_reconciled (oracle : AttemptOracle) :
    OnlyWrites (reconciled oracle record).2 := by
  simp only [reconciled]
  split
  · exact onlyWrites_nil
  · exact onlyWrites_applyPatch _

theorem onlyWrites_refreshed (oracle : AttemptOracle) :
    OnlyWrites (refreshed oracle record).2 := by
  simp only [refreshed]
  split
  · exact onlyWrites_nil
  · refine .append ?_ (onlyWrites_applyPatch _)
    simp only [refreshReconciled]
    split
    · exact onlyWrites_nil
    · exact onlyWrites_applyPatch _

variable {s : FinalizationState}

theorem run_onlyWrites (only : OnlyWrites effects) :
    (run (carryOutEffect runtime) s effects).removals = s.removals := by
  induction effects generalizing s with
  | nil => rfl
  | cons effect effects ih =>
    obtain ⟨candidate, rfl⟩ := only effect mem_cons_self
    rw [run_cons, ih fun other hother => only other (mem_cons_of_mem _ hother)]
    rfl

theorem run_row (effects : List PipelineEffect) :
    (run (carryOutEffect runtime) s effects).row = s.row ∨
      ∃ candidate, .write candidate ∈ effects ∧
        (run (carryOutEffect runtime) s effects).row = storedRecord runtime.store candidate := by
  induction effects generalizing s with
  | nil => exact .inl rfl
  | cons effect effects ih =>
    rcases ih (s := carryOutEffect runtime s effect) with hsame | ⟨candidate, hmem, hrow⟩
    · cases effect with
      | write candidate => exact .inr ⟨candidate, mem_cons_self, hsame⟩
      | remove item authorization source => exact .inl hsame
    · exact .inr ⟨candidate, mem_cons_of_mem _ hmem, hrow⟩

/-- Removals that the row authorizes. -/
def OnlyAuthorized (runtime : FinalizeRuntime) (row : PipelineRecord)
    (effects : List PipelineEffect) : Prop :=
  ∀ effect ∈ effects, ∃ item authorization source,
    effect = .remove item authorization source ∧
      RemovalAuthorized runtime.host ⟨item, authorization, source, row⟩

/-- All the removals so far were authorized. -/
def RemovalsAuthorized (runtime : FinalizeRuntime) (s : FinalizationState) : Prop :=
  ∀ removal ∈ s.removals, RemovalAuthorized runtime.host removal

theorem run_onlyAuthorized (h : RemovalsAuthorized runtime s)
    (only : OnlyAuthorized runtime s.row effects) :
    RemovalsAuthorized runtime (run (carryOutEffect runtime) s effects) := by
  induction effects generalizing s with
  | nil => exact h
  | cons effect effects ih =>
    obtain ⟨item, authorization, source, rfl, hauthorized⟩ := only effect mem_cons_self
    refine ih (fun removal hremoval => ?_) fun other hother =>
      only other (mem_cons_of_mem _ hother)
    rcases mem_append.mp hremoval with hold | hnew
    · exact h removal hold
    · rw [mem_singleton.mp hnew]
      exact hauthorized

/-- A procedure writes, removes what its last write authorizes, and writes again. Wherever it
crashes, only authorized sources have been removed. -/
theorem run_procedure {first removals last : List PipelineEffect} (h : RemovalsAuthorized runtime s)
    (writes : OnlyWrites first)
    (only : OnlyAuthorized runtime (run (carryOutEffect runtime) s first).row removals)
    (writes' : OnlyWrites last) (carried : Nat) :
    RemovalsAuthorized runtime
      (run (carryOutEffect runtime) s ((first ++ (removals ++ last)).take carried)) := by
  have hsub {effects : List PipelineEffect} (hwrites : OnlyWrites effects) (count : Nat) :
      OnlyWrites (effects.take count) := fun effect heffect =>
    hwrites effect (mem_of_mem_take heffect)
  have hfirst : RemovalsAuthorized runtime (run (carryOutEffect runtime) s first) := by
    rw [RemovalsAuthorized, run_onlyWrites writes]
    exact h
  by_cases hcrash : carried ≤ first.length
  · rw [take_append_of_le_length hcrash, RemovalsAuthorized, run_onlyWrites (hsub writes _)]
    exact h
  · have hlength : first.length ≤ carried := by omega
    rw [take_append, take_of_length_le hlength, run_append, take_append, run_append,
      RemovalsAuthorized, run_onlyWrites (hsub writes' _)]
    exact run_onlyAuthorized hfirst fun effect heffect => only effect (mem_of_mem_take heffect)

/-! ### An attempt -/

theorem authorizedUpdate_requested (oracle : AttemptOracle) (passed : GatesPassed) :
    requestedItems (authorizedUpdate runtime oracle record passed).1 = requestedItems record := by
  simp only [authorizedUpdate]
  split <;> rfl

theorem onlyWrites_authorizedUpdate (oracle : AttemptOracle) (passed : GatesPassed) :
    OnlyWrites (authorizedUpdate runtime oracle record passed).2 := by
  simp only [authorizedUpdate]
  split
  · exact onlyWrites_nil
  · exact onlyWrites_applyPatch _

theorem authorizedUpdate_row {oracle : AttemptOracle} {first : List PipelineEffect}
    (removes : effect ∈ cleanupRemovals oracle.cleanup
      (cleanupPlan runtime.host record none oracle.cleanup.look)) :
    (run (carryOutEffect runtime) s
        (first ++ (authorizedUpdate runtime oracle record passed).2)).row
      = authorizedRow runtime oracle record passed := by
  obtain ⟨_, _, authorization, _, _, hmem, _, _⟩ := mem_cleanupRemovals removes
  have hsome : ((cleanupPlan runtime.host record none oracle.cleanup.look).filterMap
      PlanEntry.authorization).isEmpty = false := by
    rw [isEmpty_eq_false_iff]
    exact ne_nil_of_mem hmem
  simp only [authorizedUpdate, hsome, Bool.false_eq_true, if_false, run_append]
  rfl

theorem cleanupEffects_complete {oracle : AttemptOracle}
    (written : .write candidate ∈ cleanupEffects runtime oracle record passed) :
    ResultsComplete candidate := by
  rcases mem_append.mp written with hauthorized | hlater
  · simp only [authorizedUpdate] at hauthorized
    split at hauthorized
    · cases hauthorized
    · obtain rfl := PipelineEffect.write.inj (mem_singleton.mp hauthorized)
      exact resultsComplete_of_plan rfl rfl
  · rcases mem_append.mp hlater with hremoval | hlast
    · obtain ⟨_, _, _, _, _, _, _, heffect⟩ := mem_cleanupRemovals hremoval
      cases heffect
    · obtain rfl := PipelineEffect.write.inj (mem_singleton.mp hlast)
      have hresults := cleanupResults_path oracle.cleanup
        (cleanupPlan runtime.host record none oracle.cleanup.look)
      exact resultsComplete_of_plan hresults (authorizedUpdate_requested oracle passed)

/-- What an attempt does that does not get to its cleanup, or the writes before the cleanup. -/
theorem attempt_shape (options : FinalizeOptions) (oracle : AttemptOracle) :
    OnlyWrites (finalizePipelineRecordWhileLocked runtime options oracle record) ∧
        (record.status.gatesPassed = false → StaysBefore
          (finalizePipelineRecordWhileLocked runtime options oracle record)) ∨
      ∃ first reserved passed,
        getsToCleanup runtime options oracle (attemptRecord oracle record) = true ∧
        requestedItems reserved = requestedItems (attemptRecord oracle record) ∧
        reserved.cwd = (attemptRecord oracle record).cwd ∧ OnlyWrites first ∧
        (record.status.gatesPassed = false → StaysBefore first) ∧
        finalizePipelineRecordWhileLocked runtime options oracle record
          = first ++ cleanupEffects runtime oracle reserved passed := by
  have hrefreshes : OnlyWrites ((reconciled oracle record).2
      ++ (refreshed oracle (reconciled oracle record).1).2) :=
    (onlyWrites_reconciled oracle).append (onlyWrites_refreshed oracle)
  have hbefore (before : record.status.gatesPassed = false) :
      (attemptRecord oracle record).status.gatesPassed = false ∧
      StaysBefore ((reconciled oracle record).2
        ++ (refreshed oracle (reconciled oracle record).1).2) := by
    obtain ⟨hreconciled, hfirst⟩ := reconciled_before before
    obtain ⟨hcurrent, hsecond⟩ := refreshed_before hreconciled
    exact ⟨hcurrent, hfirst.append hsecond⟩
  simp only [finalizePipelineRecordWhileLocked]
  split
  · left
    split
    · exact ⟨onlyWrites_nil, fun _ candidate hcandidate => absurd hcandidate not_mem_nil⟩
    · exact ⟨hrefreshes, fun before => (hbefore before).2⟩
  next patch hstart =>
    left
    refine ⟨hrefreshes.append (onlyWrites_applyPatch _), fun before => ?_⟩
    exact (hbefore before).2.append (finalizeStart_stops (hbefore before).1 hstart).applied
  next events hstart =>
    split
    next changes hpatch =>
      have hchanges := finalizingPatch_changes hpatch
      have hitems : requestedItems (updateCandidate (attemptRecord oracle record) changes)
          = requestedItems (attemptRecord oracle record) := by
        rw [hchanges]
        rfl
      have hcwd : (updateCandidate (attemptRecord oracle record) changes).cwd
          = (attemptRecord oracle record).cwd := rfl
      have hopen : (updateCandidate (attemptRecord oracle record) changes).status.gatesPassed
          = false := by
        rw [hchanges]
        rfl
      have hgets (passed : GatesPassed) (hstages : finalizeGates runtime options oracle
          (updateCandidate (attemptRecord oracle record) changes) = .ok passed) :
          getsToCleanup runtime options oracle (attemptRecord oracle record) = true := by
        simp only [getsToCleanup, hstart, hpatch, hstages]
        rfl
      generalize updateCandidate (attemptRecord oracle record) changes = reserved at *
      have hreserved : OnlyWrites [.write reserved] := onlyWrites_nil.cons
      have hstays : StaysBefore [.write reserved] := by
        intro candidate hcandidate
        rw [PipelineEffect.write.inj (mem_singleton.mp hcandidate)]
        exact hopen
      rw [← singleton_append, ← append_assoc]
      simp only [gatedEffects]
      split
      next patch hstages =>
        left
        refine ⟨(hrefreshes.append hreserved).append (onlyWrites_applyPatch _), fun before => ?_⟩
        have hended := (applyPatch_before (finalizeGates_error hstages) hopen).2
        exact ((hbefore before).2.append hstays).append hended
      · left
        rw [append_nil]
        exact ⟨hrefreshes.append hreserved, fun before => (hbefore before).2.append hstays⟩
      next passed hstages =>
        exact .inr ⟨_, reserved, passed, hgets passed hstages, hitems, hcwd,
          hrefreshes.append hreserved, fun before => (hbefore before).2.append hstays, rfl⟩
    · exact .inl ⟨hrefreshes, fun before => (hbefore before).2⟩
    · exact .inl ⟨hrefreshes, fun before => (hbefore before).2⟩

/-! ### Steps -/

/-- Removals were authorized, and behind the gates the results are complete. -/
structure CleanupInvariant (runtime : FinalizeRuntime) (s : FinalizationState) : Prop where
  removals : RemovalsAuthorized runtime s
  results : s.row.status.gatesPassed = true → ResultsComplete s.row

/-- What a step leaves of a pipeline behind its gates. -/
structure KeepsFinished (row row' : PipelineRecord) : Prop where
  behind : row'.status.gatesPassed = true
  kept : ∀ result ∈ terminalCleanupResults row, result ∈ row'.sourceCleanupResults

theorem KeepsFinished.refl (behind : record.status.gatesPassed = true) :
    KeepsFinished record record :=
  ⟨behind, fun _ hresult => (mem_filter.mp hresult).1⟩

theorem KeepsFinished.stored (h : KeepsFinished record candidate) :
    KeepsFinished record (storedRecord runtime.store candidate) := by
  obtain ⟨-, -, hresults, hstatus⟩ := storedRecord_kept runtime candidate
  refine ⟨hstatus ▸ h.behind, ?_⟩
  rw [hresults]
  exact h.kept

theorem finalizationStep_row (s : FinalizationState) (event : FinalizationEvent) :
    (finalizationStep runtime s event).row = s.row ∨
      ∃ candidate, .write candidate ∈ eventEffects runtime s.row event ∧
        (finalizationStep runtime s event).row = storedRecord runtime.store candidate :=
  run_row (eventEffects runtime s.row event)

variable {event : FinalizationEvent}

/-- In front of the gates it is enough to know what gets behind them. -/
theorem results_of_writes (before : s.row.status.gatesPassed = false)
    (written : ∀ candidate, .write candidate ∈ eventEffects runtime s.row event →
      candidate.status.gatesPassed = true → ResultsComplete candidate)
    (behind : (finalizationStep runtime s event).row.status.gatesPassed = true) :
    ResultsComplete (finalizationStep runtime s event).row := by
  rcases finalizationStep_row s event with hsame | ⟨candidate, hmem, hstored⟩
  · rw [hsame, before] at behind
    cases behind
  · rw [hstored] at behind ⊢
    rw [(storedRecord_kept runtime candidate).2.2.2] at behind
    exact (written candidate hmem behind).stored

variable {options : FinalizeOptions}

theorem attempt_invariant {oracle : AttemptOracle} {carried : Nat} (h : CleanupInvariant runtime s)
    (before : s.row.status.gatesPassed = false)
    (allowed : cleanupAllowed runtime s (.attempt options oracle carried) = true) :
    CleanupInvariant runtime (finalizationStep runtime s (.attempt options oracle carried)) := by
  rcases @attempt_shape runtime s.row options oracle with
    ⟨hwrites, hstays⟩ | ⟨first, reserved, passed, hgets, hitems, hcwd, hwrites, hstays, heffects⟩
  · constructor
    · rw [RemovalsAuthorized, finalizationStep, eventEffects, run_onlyWrites fun effect heffect =>
        hwrites effect (mem_of_mem_take heffect)]
      exact h.removals
    · refine results_of_writes before fun candidate hmem hbehind => ?_
      rw [hstays before candidate (mem_of_mem_take hmem)] at hbehind
      cases hbehind
  · simp only [cleanupAllowed, hgets, Bool.not_true, Bool.false_or, Bool.and_eq_true] at allowed
    obtain ⟨hdistinct, hunmoved⟩ := allowed
    have hdistinct' : distinctSources runtime.host reserved = true := by
      rw [distinctSources, hitems, hcwd]
      exact hdistinct
    rw [← hitems] at hunmoved
    constructor
    · rw [finalizationStep, eventEffects, heffects, cleanupEffects, ← append_assoc]
      refine run_procedure h.removals (hwrites.append (onlyWrites_authorizedUpdate oracle passed))
        (fun effect heffect => ?_) (onlyWrites_applyPatch _) carried
      rw [authorizedUpdate_row heffect]
      exact attempt_authorized hdistinct' hunmoved heffect
    · refine results_of_writes before fun candidate hmem hbehind => ?_
      have hwritten := mem_of_mem_take hmem
      rw [heffects] at hwritten
      rcases mem_append.mp hwritten with hfirst | hcleanup
      · rw [hstays before candidate hfirst] at hbehind
        cases hbehind
      · exact cleanupEffects_complete hcleanup

/-- The journal does not change what is to be removed. -/
theorem reconciledItem_requested (changes : List JournalChange) (item : IntegrationItem) :
    cleanupRequested (reconciledItem changes item) = cleanupRequested item ∧
      (reconciledItem changes item).worktreePath = item.worktreePath := by
  simp only [reconciledItem]
  split
  · exact ⟨rfl, rfl⟩
  · split <;> exact ⟨rfl, rfl⟩

theorem map_reconciledItem_requested (changes : List JournalChange)
    (queue : List IntegrationItem) :
    ((queue.map (reconciledItem changes)).filter cleanupRequested).map
        IntegrationItem.worktreePath
      = (queue.filter cleanupRequested).map IntegrationItem.worktreePath := by
  have hrequested : (cleanupRequested ∘ reconciledItem changes) = cleanupRequested :=
    funext fun item => (reconciledItem_requested changes item).1
  have hpath : (IntegrationItem.worktreePath ∘ reconciledItem changes)
      = IntegrationItem.worktreePath :=
    funext fun item => (reconciledItem_requested changes item).2
  rw [filter_map, map_map, hrequested, hpath]

/-- The records that differ from another at most by what the journal says of its items. -/
structure SameCleanup (record candidate : PipelineRecord) : Prop where
  status : candidate.status = record.status
  results : candidate.sourceCleanupResults = record.sourceCleanupResults
  items : (requestedItems candidate).map IntegrationItem.worktreePath
    = (requestedItems record).map IntegrationItem.worktreePath

theorem reconciled_same (oracle : AttemptOracle) (behind : record.status.gatesPassed = true) :
    (reconciled oracle record).1.status = record.status ∧
      ∀ effect ∈ (reconciled oracle record).2, ∃ candidate, effect = .write candidate ∧
        SameCleanup record candidate := by
  have hstatus : ¬record.status = .awaitingIntegration := by
    intro hawaiting
    rw [hawaiting] at behind
    cases behind
  simp only [reconciled]
  split
  · exact ⟨rfl, fun _ heffect => absurd heffect not_mem_nil⟩
  · simp only [applyPatch, reconciliationPatch, Bool.false_and, Bool.false_eq_true, if_false,
      hstatus, decide_false, Bool.and_false]
    refine ⟨rfl, fun effect heffect => ⟨_, mem_singleton.mp heffect, rfl, rfl, ?_⟩⟩
    exact map_reconciledItem_requested _ _

theorem frozen_of_gatesPassed {status : RecordStatus} (behind : status.gatesPassed = true) :
    status.frozen = true := by
  cases status <;> simp_all [RecordStatus.gatesPassed, RecordStatus.frozen]

theorem finalizeStart_behind {policy : Option LoadedPolicy} {time : Nat}
    (behind : record.status.gatesPassed = true) :
    finalizeStart options policy time record = .stops none := by
  have hstatus : record.status = .completed ∨ record.status = .cleanupPending
      ∨ record.status = .cleanupFailed := by
    cases hstatus : record.status <;> simp_all [RecordStatus.gatesPassed]
  unfold finalizeStart
  rcases hstatus with hcompleted | hpending | hfailed
  · rw [if_pos hcompleted]
  · rw [if_neg (by simp [hpending]), if_pos (by simp [hpending])]
  · rw [if_neg (by simp [hfailed]), if_pos (by simp [hfailed])]

theorem attempt_behind {oracle : AttemptOracle} (behind : record.status.gatesPassed = true)
    (h : effect ∈ finalizePipelineRecordWhileLocked runtime options oracle record) :
    ∃ candidate, effect = .write candidate ∧ SameCleanup record candidate := by
  obtain ⟨hstatus, hwrites⟩ := reconciled_same oracle behind
  have hbehind : (reconciled oracle record).1.status.gatesPassed = true := hstatus ▸ behind
  have hrefreshed : refreshed oracle (reconciled oracle record).1
      = ((reconciled oracle record).1, []) := by
    rw [refreshed, if_pos (frozen_of_gatesPassed hbehind)]
  have hstart : finalizeStart options oracle.policy oracle.time (attemptRecord oracle record)
      = .stops none := by
    rw [attemptRecord, hrefreshed]
    exact finalizeStart_behind hbehind
  simp only [finalizePipelineRecordWhileLocked, hstart, hrefreshed, append_nil] at h
  split at h
  · cases h
  · exact hwrites effect h

theorem ResultsComplete.same (h : ResultsComplete record) (same : SameCleanup record candidate) :
    ResultsComplete candidate :=
  h.congr same.results same.items

theorem SameCleanup.keeps (same : SameCleanup record candidate)
    (behind : record.status.gatesPassed = true) : KeepsFinished record candidate := by
  refine ⟨same.status ▸ behind, ?_⟩
  rw [same.results]
  exact (KeepsFinished.refl behind).kept

theorem recovery_shape (oracle : RecoveryOracle)
    (distinct : distinctSources runtime.host record = true)
    (unmoved : sourcesUnmoved (itemsAwaitingCleanup runtime.host record) oracle.cleanup = true)
    (complete : ResultsComplete record) :
    ∃ removals candidate,
      resumeAuthorizedPipelineCleanup runtime.host runtime.sha256 oracle record
        = removals ++ [.write candidate] ∧
      OnlyAuthorized runtime record removals ∧ ResultsComplete candidate ∧
      KeepsFinished record candidate := by
  simp only [resumeAuthorizedPipelineCleanup]
  split
  · have hnone : OnlyAuthorized runtime record [] := fun _ heffect => nomatch heffect
    refine ⟨[], _, rfl, hnone, complete.congr rfl rfl, rfl, ?_⟩
    exact fun _ hresult => (mem_filter.mp hresult).1
  · refine ⟨_, _, rfl, fun effect heffect => ?_,
      resultsComplete_recovered oracle.cleanup oracle.time distinct complete, ?_, ?_⟩
    · exact recovery_authorized distinct unmoved heffect
    · show (if _ then RecordStatus.cleanupFailed else RecordStatus.completed).gatesPassed = true
      split <;> rfl
    · exact fun _ hresult => mem_append_left _ hresult

structure CleanupStep (runtime : FinalizeRuntime) (s s' : FinalizationState) : Prop where
  invariant : CleanupInvariant runtime s'
  finished : s.row.status.gatesPassed = true → KeepsFinished s.row s'.row

theorem cleanupStep_of_writes (h : CleanupInvariant runtime s)
    (behind : s.row.status.gatesPassed = true)
    (removals : RemovalsAuthorized runtime (finalizationStep runtime s event))
    (written : ∀ candidate, .write candidate ∈ eventEffects runtime s.row event →
      ResultsComplete candidate ∧ KeepsFinished s.row candidate) :
    CleanupStep runtime s (finalizationStep runtime s event) := by
  rcases finalizationStep_row s event with hsame | ⟨candidate, hmem, hstored⟩
  · refine ⟨⟨removals, ?_⟩, fun _ => ?_⟩
    · rw [hsame]
      exact h.results
    · rw [hsame]
      exact .refl behind
  · obtain ⟨hcomplete, hkeeps⟩ := written candidate hmem
    refine ⟨⟨removals, fun _ => ?_⟩, fun _ => ?_⟩
    · rw [hstored]
      exact hcomplete.stored
    · rw [hstored]
      exact hkeeps.stored

theorem onlyWrites_update {row : PipelineRecord} (record : PipelineRecord) :
    OnlyWrites (eventEffects runtime row (.update record)) := by
  simp only [eventEffects]
  split
  · exact onlyWrites_nil
  · exact onlyWrites_nil.cons

theorem update_behind {row : PipelineRecord}
    (written : .write candidate ∈ eventEffects runtime row (.update record)) :
    candidate.status.gatesPassed = false := by
  simp only [eventEffects] at written
  split at written
  · cases written
  next hbefore =>
    rw [PipelineEffect.write.inj (mem_singleton.mp written)]
    simp only [Bool.or_eq_true, not_or, Bool.not_eq_true] at hbefore
    exact hbefore.2

theorem finalizationStep_cleanup (h : CleanupInvariant runtime s)
    (allowed : cleanupAllowed runtime s event = true) :
    CleanupStep runtime s (finalizationStep runtime s event) := by
  cases hbehind : s.row.status.gatesPassed with
  | false =>
    have hnone : s.row.status.gatesPassed = true →
        KeepsFinished s.row (finalizationStep runtime s event).row := by
      intro hpassed
      rw [hbehind] at hpassed
      cases hpassed
    cases event with
    | attempt options oracle carried => exact ⟨attempt_invariant h hbehind allowed, hnone⟩
    | recover oracle carried =>
      have hidle : eventEffects runtime s.row (.recover oracle carried) = [] := by
        rw [eventEffects, if_neg]
        simp only [Bool.or_eq_true, decide_eq_true_eq]
        rintro (hstatus | hstatus) <;> rw [hstatus] at hbehind <;> cases hbehind
      rw [finalizationStep, hidle]
      exact ⟨h, fun hpassed => .refl hpassed⟩
    | update record =>
      refine ⟨⟨?_, results_of_writes hbehind fun candidate hmem hcandidate => ?_⟩, hnone⟩
      · rw [RemovalsAuthorized, finalizationStep, run_onlyWrites (onlyWrites_update record)]
        exact h.removals
      · rw [update_behind hmem] at hcandidate
        cases hcandidate
  | true =>
    cases event with
    | attempt options oracle carried =>
      have heffects (effect : PipelineEffect)
          (heffect : effect ∈ eventEffects runtime s.row (.attempt options oracle carried)) :=
        attempt_behind hbehind (mem_of_mem_take heffect)
      refine cleanupStep_of_writes h hbehind ?_ fun candidate hmem => ?_
      · rw [RemovalsAuthorized, finalizationStep, run_onlyWrites fun effect heffect =>
          (heffects effect heffect).imp fun _ hcandidate => hcandidate.1]
        exact h.removals
      · obtain ⟨same, hwrite, hsame⟩ := heffects _ hmem
        rw [PipelineEffect.write.inj hwrite]
        exact ⟨(h.results hbehind).same hsame, hsame.keeps hbehind⟩
    | recover oracle carried =>
      simp only [cleanupAllowed, Bool.and_eq_true] at allowed
      obtain ⟨removals, last, heffects, hremovals, hcomplete, hkeeps⟩ :=
        recovery_shape oracle allowed.1 allowed.2 (h.results hbehind)
      refine cleanupStep_of_writes h hbehind ?_ fun candidate hmem => ?_
      · simp only [finalizationStep, eventEffects]
        split
        · rw [heffects]
          exact run_procedure h.removals onlyWrites_nil hremovals onlyWrites_nil.cons carried
        · exact h.removals
      · simp only [eventEffects] at hmem
        split at hmem
        · have hwritten := mem_of_mem_take hmem
          rw [heffects] at hwritten
          rcases mem_append.mp hwritten with hremoval | hlast
          · obtain ⟨_, _, _, heffect, -⟩ := hremovals _ hremoval
            cases heffect
          · rw [PipelineEffect.write.inj (mem_singleton.mp hlast)]
            exact ⟨hcomplete, hkeeps⟩
        · cases hmem
    | update record =>
      have hidle : eventEffects runtime s.row (.update record) = [] := by
        simp [eventEffects, hbehind]
      rw [finalizationStep, hidle]
      exact ⟨h, fun hpassed => .refl hpassed⟩

/-! ### Runs -/

/-- Every event of the run meets the condition in the state that it is executed in. -/
def CleanupsAllowed (runtime : FinalizeRuntime) (s : FinalizationState)
    (events : List FinalizationEvent) : Prop :=
  Along (finalizationStep runtime) (fun s event => cleanupAllowed runtime s event = true) s events

instance (runtime : FinalizeRuntime) (s : FinalizationState) (events : List FinalizationEvent) :
    Decidable (CleanupsAllowed runtime s events) :=
  inferInstanceAs (Decidable (Along _ _ _ _))

/-- A result that is final is in the row ever after. -/
theorem finished_run (h : CleanupInvariant runtime s) {result : CleanupResult}
    (terminal : result.terminal = true) (behind : s.row.status.gatesPassed = true)
    (mem : result ∈ s.row.sourceCleanupResults) (events : List FinalizationEvent)
    (along : CleanupsAllowed runtime s events) :
    result ∈ (run (finalizationStep runtime) s events).row.sourceCleanupResults := by
  induction events generalizing s with
  | nil => exact mem
  | cons event events ih =>
    have hstep := finalizationStep_cleanup h along.1
    have hkept := hstep.finished behind
    exact ih hstep.invariant hkept.behind
      (hkept.kept result (mem_filter.mpr ⟨mem, terminal⟩)) along.2

end

/-- In every run that meets the condition a source is removed only if one durable authorization
names it, and no other item, and it was still what the authorization says; behind the gates
the results name each requested item once, and one that is final stays. -/
theorem source_cleanup_exact (runtime : FinalizeRuntime) (record : PipelineRecord)
    (before : record.status.gatesPassed = false) (events later : List FinalizationEvent)
    (along : CleanupsAllowed runtime ⟨record, []⟩ (events ++ later)) :
    let s := run (finalizationStep runtime) ⟨record, []⟩ events
    let s' := run (finalizationStep runtime) ⟨record, []⟩ (events ++ later)
    (∀ removal ∈ s'.removals, RemovalAuthorized runtime.host removal) ∧
      (s'.row.status.gatesPassed = true → ResultsComplete s'.row) ∧
      (s.row.status.gatesPassed = true → ∀ result ∈ terminalCleanupResults s.row,
        result ∈ s'.row.sourceCleanupResults) := by
  intro s s'
  have hcreated : CleanupInvariant runtime ⟨record, []⟩ := by
    refine ⟨fun _ hremoval => (nomatch hremoval), fun hbehind => ?_⟩
    change record.status.gatesPassed = true at hbehind
    rw [before] at hbehind
    cases hbehind
  have hstep : ∀ s event, CleanupInvariant runtime s → cleanupAllowed runtime s event = true →
      CleanupInvariant runtime (finalizationStep runtime s event) :=
    fun s event h allowed => (finalizationStep_cleanup h allowed).invariant
  obtain ⟨hevents, hlater⟩ := (along_append _ _ _).mp along
  have hs : CleanupInvariant runtime s := run_invariant hstep hcreated events hevents
  have hs' : CleanupInvariant runtime s' :=
    run_invariant hstep hcreated (events ++ later) along
  refine ⟨hs'.removals, hs'.results, fun hbehind result hresult => ?_⟩
  obtain ⟨hmem, hterminal⟩ := mem_filter.mp hresult
  have hrest : s' = run (finalizationStep runtime) s later := run_append _ _ _
  rw [hrest]
  exact finished_run hs hterminal hbehind hmem later hlater

def authorizedAndCrashed : List FinalizationEvent :=
  [.attempt ⟨false, false⟩ (attemptOn "head" "head") 3]

/-- A recovery that finds its source on the branch. -/
def recoveryOn (branch : String) : RecoveryOracle where
  target := some (targetAt "head")
  cleanup :=
    { look := fun _ => { plainSource with branch := branch }
      check := fun _ => { plainSource with branch := branch }
      atRemoval := fun _ => { plainSource with branch := branch }
      outcome := fun _ => ⟨.success, ""⟩ }
  time := 60

def recoveredOn (branch : String) : FinalizationState :=
  run (finalizationStep plainFinalizer) ⟨removablePipeline, []⟩
    (authorizedAndCrashed ++ [.recover (recoveryOn branch) 2])

theorem source_cleanup_exact_of_recovery :
    (∀ removal ∈ (recoveredOn "writer-1").removals,
        RemovalAuthorized plainFinalizer.host removal) ∧
      (recoveredOn "writer-1").removals.map (fun removal => removal.item.jobId) = ["job-1"] ∧
      ResultsComplete (recoveredOn "writer-1").row := by
  have hresult := source_cleanup_exact plainFinalizer removablePipeline (by decide)
    authorizedAndCrashed [.recover (recoveryOn "writer-1") 2] (by decide +kernel)
  refine ⟨hresult.1, ?_, hresult.2.1 ?_⟩ <;> decide +kernel

/-- After the crash the worktree is switched to another branch at the same commit: the
recovery removes it, and that branch. -/
theorem source_cleanup_exact_fails :
    ¬∀ removal ∈ (recoveredOn "hotfix").removals,
      RemovalAuthorized plainFinalizer.host removal := by
  have hunauthorized : (recoveredOn "hotfix").removals.any (fun removal =>
      (authorizationEvent removal.row).all fun event =>
        event.worktrees.all fun authorization =>
          !stillAuthorized authorization removal.source) = true := by
    decide +kernel
  intro hall
  obtain ⟨removal, hmem, hnone⟩ := any_eq_true.mp hunauthorized
  obtain ⟨event, authorization, hevent, honly, -, hstill⟩ := hall removal hmem
  have hauthorization : authorization ∈ event.worktrees := by
    have hfiltered := honly ▸ mem_singleton.mpr rfl
    exact (mem_filter.mp hfiltered).1
  rw [hevent, Option.all_some] at hnone
  have hnot := all_eq_true.mp hnone authorization hauthorization
  rw [hstill] at hnot
  cases hnot

end AgentBridge.Pipelines
