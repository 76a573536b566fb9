import AgentBridge.Cleanup.Safety
import AgentBridge.Cleanup.Settled

/-!
# A drain after a crash

Where nothing but the drain moves, an undisturbed drain leaves `drained` of what it finds, and
at every command on its way the state is one from which a drain leaves the same. So a drain
after any number of crashes ends in the rows of a drain that did not crash.
-/

namespace AgentBridge.Cleanup

open Systems Worktrees CleanupMachine CleanupState

/-- Nothing happens around the commands, and the lock is granted. -/
def calm (cwd : Directory) (granted : String × String) : CleanupEnv cwd :=
  { grants := some granted }

/-- A drain that nothing disturbs, in a new process. -/
def drainAlone (config : CleanupConfig) (cwd : Directory) (granted : String × String)
    (s : CleanupMachine) : CleanupMachine :=
  ((drain config ()).finish (execute config) (calm cwd granted) s.next).1

/-- A drain that crashes, and what the next process finds of locks and of the clock. -/
structure Crash where
  granted : String × String
  /-- The number of commands before the crash. -/
  commands : Nat
  locks : List LockRow
  now : Nat

/-- What a crashed drain leaves. -/
def crashed (config : CleanupConfig) (cwd : Directory) (s : CleanupMachine) (crash : Crash) :
    CleanupMachine :=
  let run := (drain config ()).run (execute config) s.next
    (List.replicate crash.commands (calm cwd crash.granted))
  { run.1 with locks := crash.locks, now := crash.now }

variable {config : CleanupConfig} {cwd : Directory} {granted : String × String}
  {s : CleanupMachine} {state state' : CleanupState} {row : CleanupRow}
  {skipped rows : List CleanupRow}

/-- The states from which a drain leaves the same. -/
def Converges (cwd : Directory) (result state : CleanupState) : Prop :=
  Steady cwd state ∧ state.drained cwd = result

/-! ## Undisturbed runs -/

/-- The rule of an undisturbed command. -/
theorem wp_issue_calm (command : CleanupCommand) (reply : CleanupReply command)
    (s' : CleanupMachine) {interrupted : CleanupMachine → Prop}
    {returned : CleanupReply command → Unit → CleanupMachine → Prop}
    {failed : String → Unit → CleanupMachine → Prop} (hinterrupted : interrupted s)
    (hperform : perform config (calm cwd granted) s command = (s', .ok reply))
    (hreturned : returned reply () { s' with checks := s'.checks.note command reply }) :
    (issue command).wp (fun (_ : Unit) => execute config (calm cwd granted)) interrupted returned
      failed () s := by
  refine (Procedure.wp_call command).mpr ⟨hinterrupted, fun _ => ?_⟩
  have hexecute : execute config (calm cwd granted) s command
      = ({ s' with checks := s'.checks.note command reply }, .ok reply) := by
    have hfound : found config (calm cwd granted) s = s := rfl
    have hfault : (calm cwd granted).fault = none := rfl
    simp only [execute_eq, hfault, hfound, hperform]
  rw [hexecute]
  exact hreturned

/-- From the state, under the lock and undisturbed, the procedure passes through states from
which a drain leaves `result`, and returns with what `post` says. -/
def Leads (config : CleanupConfig) (cwd : Directory) (granted : String × String)
    (result : CleanupState) {α : Type} (m : CleanupAction α) (state : CleanupState)
    (post : α → CleanupState → Prop) : Prop :=
  ∀ s : CleanupMachine, s.state = state → s.lockOwned cwd = true →
    m.wp (fun (_ : Unit) => execute config (calm cwd granted))
      (fun s => Converges cwd result s.state)
      (fun value _ s => s.lockOwned cwd = true ∧ post value s.state) (fun _ _ _ => False) () s

namespace Leads

variable {result : CleanupState} {α β : Type} {m : CleanupAction α}
  {post : α → CleanupState → Prop} {command : CleanupCommand}

theorem pure {value : α} (h : post value state) :
    Leads config cwd granted result (Pure.pure value) state post :=
  fun _ hstate hlock => ⟨hlock, hstate ▸ h⟩

theorem bind {mid : α → CleanupState → Prop} {f : α → CleanupAction β}
    {post : β → CleanupState → Prop} (hm : Leads config cwd granted result m state mid)
    (hf : ∀ value state, mid value state → Leads config cwd granted result (f value) state post) :
    Leads config cwd granted result (m >>= f) state post := by
  intro s hstate hlock
  refine .bind (.mono (hm s hstate hlock) ?_ fun _ _ _ h => h)
  rintro value ⟨⟩ s' ⟨hlock', hmid⟩
  exact hf value s'.state hmid s' rfl hlock'

/-- Sequence after a procedure that only reads. -/
theorem andThen {reads : α → Prop} {f : α → CleanupAction β} {post : β → CleanupState → Prop}
    (hm : Leads config cwd granted result m state fun value state' =>
      state' = state ∧ reads value)
    (hf : ∀ value, reads value → Leads config cwd granted result (f value) state post) :
    Leads config cwd granted result (m >>= f) state post := by
  refine bind hm ?_
  rintro value _ ⟨rfl, hreads⟩
  exact hf value hreads

theorem recover {handler : String → CleanupAction α}
    (hm : Leads config cwd granted result m state post) :
    Leads config cwd granted result (m.recover handler) state post := by
  intro s hstate hlock
  refine .recover (.mono (hm s hstate hlock) (fun _ _ _ h => h) fun _ _ _ h => h.elim)

theorem ite {condition : Prop} [Decidable condition] {m' : CleanupAction α}
    (hthen : condition → Leads config cwd granted result m state post)
    (helse : ¬condition → Leads config cwd granted result m' state post) :
    Leads config cwd granted result (if condition then m else m') state post :=
  fun s hstate hlock =>
    .ite (fun h => hthen h s hstate hlock) fun h => helse h s hstate hlock

theorem mono {post' : α → CleanupState → Prop}
    (h : Leads config cwd granted result m state post)
    (hpost : ∀ value state, post value state → post' value state) :
    Leads config cwd granted result m state post' :=
  fun s hstate hlock => .mono (h s hstate hlock)
    (fun value _ s' h => ⟨h.1, hpost value s'.state h.2⟩) fun _ _ _ h => h

/-- The rule of a command that keeps the lock. -/
theorem issue {post : CleanupReply command → CleanupState → Prop}
    (hconverges : Converges cwd result state)
    (hperform : ∀ s : CleanupMachine, s.state = state → s.lockOwned cwd = true →
      ∃ s' reply, perform config (calm cwd granted) s command = (s', .ok reply) ∧
        s'.lockOwned cwd = true ∧ post reply s'.state) :
    Leads config cwd granted result (Cleanup.issue command) state post := by
  intro s hstate hlock
  obtain ⟨s', reply, heq, hlock', hpost⟩ := hperform s hstate hlock
  exact wp_issue_calm command reply s' (hstate ▸ hconverges) heq ⟨hlock', hpost⟩

theorem read (command : CleanupCommand) (reply : CleanupReply command)
    (hconverges : Converges cwd result state)
    (hperform : ∀ s : CleanupMachine, s.state = state → s.lockOwned cwd = true →
      perform config (calm cwd granted) s command = (s, .ok reply)) :
    Leads config cwd granted result (Cleanup.issue command) state fun value state' =>
      state' = state ∧ value = reply :=
  issue hconverges fun s hstate hlock =>
    ⟨s, reply, hperform s hstate hlock, hlock, hstate, rfl⟩

end Leads

/-! ## Reading the target and the source -/

section

variable {result : CleanupState} (hconverges : Converges cwd result state)
  {payload : CleanupPayload}
include hconverges

theorem leads_integrationCleanupTargetStateError (hplain : payload.committedCommit = none) :
    Leads config cwd granted result (integrationCleanupTargetStateError payload) state
      fun error state' => state' = state ∧ (error = none ↔ state.integrated payload = true) := by
  have hintegrated : state.integrated payload = true ↔
      payload.integratedTargetStateSha256.isSome = true ∧
      ∃ current, state.target.capture true = some current ∧
        (payload.matchesTarget current = true ∨
          ∃ fresh, state.target.capture false = some fresh ∧
            payload.matchesTarget fresh = true) := by
    unfold CleanupState.integrated
    rw [hplain]
    cases state.target.capture true <;> simp [Option.any_eq_true]
  have hcapture : ∀ trust, Leads config cwd granted result (issue (.captureTargetState trust))
      state fun (capture : Option TargetCapture) state' =>
        state' = state ∧ capture = state.target.capture trust := by
    refine fun trust => .read (.captureTargetState trust) _ hconverges fun s hstate _ => ?_
    subst hstate
    rfl
  unfold integrationCleanupTargetStateError
  refine .ite (fun hnone => .pure ⟨rfl, ?_⟩) fun hsome => (hcapture true).andThen ?_
  · simp [hintegrated, hnone]
  · have hsome : payload.integratedTargetStateSha256.isSome = true :=
      Option.isSome_iff_ne_none.mpr hsome
    rintro _ rfl
    cases hcurrent : state.target.capture true with
    | none => exact .pure ⟨rfl, by simp [hintegrated, hcurrent]⟩
    | some current =>
      refine .ite (fun hmatches => .pure ⟨rfl, ?_⟩) fun hnot => (hcapture false).andThen ?_
      · simp [hintegrated, hcurrent, hsome, hmatches]
      · rintro _ rfl
        cases hfresh : state.target.capture false with
        | none => exact .pure ⟨rfl, by simp [hintegrated, hcurrent, hnot, hfresh]⟩
        | some fresh =>
          refine .ite (fun hmatches => .pure ⟨rfl, ?_⟩) fun hneither => .pure ⟨rfl, ?_⟩
          · simp [hintegrated, hcurrent, hsome, hfresh, hmatches]
          · simp [hintegrated, hcurrent, hnot, hfresh, hneither]

theorem leads_collectIntegrationPatch {path : String} {tree : SourceTree}
    (hsource : state.sources path = some tree) (hfree : state.inUse path = false) (base : Oid) :
    Leads config cwd granted result (collectIntegrationPatch path base) state
      fun source state' => state' = state ∧ source = tree.createPatch base := by
  have hpresent : Leads config cwd granted result (issue (.existsSync path)) state
      fun (present : Bool) state' => state' = state ∧ present = true := by
    refine .read (.existsSync path) true hconverges fun s hstate _ => ?_
    subst hstate
    simp [perform, hsource]
  have hstatus : Leads config cwd granted result (issue (.readArtifactStatus path)) state
      fun (status : Option ArtifactStatus) state' => state' = state ∧
        status = state.artifactStatus path := by
    refine .read (.readArtifactStatus path) _ hconverges fun s hstate _ => ?_
    subst hstate
    rfl
  have hpatch : Leads config cwd granted result (issue (.createPatch path base)) state
      fun (source : Option SourceState) state' => state' = state ∧
        source = tree.createPatch base := by
    refine .read (.createPatch path base) _ hconverges fun s hstate _ => ?_
    subst hstate
    simp [perform, calm, hsource]
  refine hpresent.andThen ?_
  rintro _ rfl
  refine .ite (fun _ => hstatus.andThen ?_) fun hnot => absurd rfl hnot
  rintro _ rfl
  refine .ite (fun hin => ?_) fun _ => hpatch
  simp [CleanupState.inUse, hin] at hfree

theorem leads_beforeRemoval :
    Leads config cwd granted result beforeRemoval state fun _ state' => state' = state := by
  have haborted : Leads config cwd granted result (issue .heartbeatAborted) state
      fun (aborted : Bool) state' => state' = state ∧ aborted = false :=
    .read .heartbeatAborted false hconverges fun _ _ _ => rfl
  have hforeground : Leads config cwd granted result (issue .foregroundIntegrationActive) state
      fun (foreground : Bool) state' => state' = state ∧ foreground = false :=
    .read .foregroundIntegrationActive false hconverges fun _ _ _ => rfl
  have hverify : Leads config cwd granted result (issue .verifyOwnership) state
      fun (_ : Unit) state' => state' = state ∧ () = () := by
    refine .read .verifyOwnership () hconverges fun s _ hlock => ?_
    simp [perform, hlock]
  refine haborted.andThen ?_
  rintro _ rfl
  refine .ite (absurd · Bool.false_ne_true) fun _ => hforeground.andThen ?_
  rintro _ rfl
  exact .ite (absurd · Bool.false_ne_true) fun _ => hverify.mono fun _ _ h => h.1

end

/-! ## One row -/

section

variable {result : CleanupState} (hvisiting : Visiting cwd skipped (row :: rows) state)
  (hfree : state.inUse row.worktreePath = false) (hresult : state.drained cwd = result)
include hvisiting hfree hresult

omit hfree in
theorem converges_of_visiting : Converges cwd result state :=
  ⟨hvisiting.steady, hresult⟩

theorem converges_of_halfDone (hcleans : state.cleans row = true)
    (hhalf : HalfDone row state state') : Converges cwd result state' := by
  refine ⟨hhalf.steady hvisiting.steady, ?_⟩
  have hfree' : state'.inUse row.worktreePath = false :=
    (hhalf.inUse_eq hvisiting.steady.unique hfree _).trans hfree
  have hvisit : state'.visitRow row = state.visitRow row := by
    rw [CleanupState.visitRow, CleanupState.visitRow, hfree, hfree', if_neg Bool.false_ne_true,
      if_neg Bool.false_ne_true,
      hhalf.settleRow_eq hvisiting.orderly hvisiting.steady.unique hfree hcleans]
  rw [← hresult, (hvisiting.halfDone hhalf hfree).drained_eq, hvisiting.drained_eq,
    List.foldl_cons, List.foldl_cons, hvisit]

/-- How a row ends: cleaned up but for its transaction, or retained as it was found. -/
def Ended (row : CleanupRow) (state : CleanupState) (outcome : CleanupOutcome)
    (state' : CleanupState) : Prop :=
  if state.cleans row then
    outcome = .success ∧ HalfDone row state state' ∧ state'.tip row.branch = none
  else (∃ reason, outcome = .retainedForReview reason) ∧ state' = state

omit hvisiting hfree hresult in
theorem Ended.retained (hcleans : state.cleans row = false) (reason : String) :
    Ended row state (.retainedForReview reason) state := by
  rw [Ended, if_neg (by simp [hcleans])]
  exact ⟨⟨reason, rfl⟩, rfl⟩

omit hvisiting hfree hresult in
theorem Ended.cleaned (hcleans : state.cleans row = true) (hhalf : HalfDone row state state')
    (htip : state'.tip row.branch = none) : Ended row state .success state' := by
  rw [Ended, if_pos hcleans]
  exact ⟨rfl, hhalf, htip⟩

theorem leads_cleanupWorktree (hcleans : state.cleans row = true)
    (htip : state.tip row.branch = some row.payload.source.head) (hbranch : row.branch ≠ ["HEAD"]) :
    Leads config cwd granted result
      (cleanupWorktree config ⟨row.worktreePath, row.branch, row.payload.source.head⟩) state
      (Ended row state) := by
  have hconverges := converges_of_visiting hvisiting hresult
  have hread : Leads config cwd granted result (readBranchOid row.branch) state
      fun oid state' => state' = state ∧ oid = some row.payload.source.head := by
    refine .ite (fun hhead => absurd hhead hbranch) fun _ => ?_
    refine .read (.showRef row.branch) _ hconverges fun s hstate _ => ?_
    subst hstate
    simp [perform, calm, htip]
  have hdetach : Leads config cwd granted result
      (.recover
        (do
          issue (.detachWorktreeLinks row.worktreePath)
          Pure.pure none)
        fun error => Pure.pure (some error)) state
      fun (detached : Option String) state' => state' = state ∧ detached = none := by
    refine .recover ?_
    have hlinks : Leads config cwd granted result (issue (.detachWorktreeLinks row.worktreePath))
        state fun (_ : Unit) state' => state' = state ∧ () = () :=
      .read (.detachWorktreeLinks row.worktreePath) () hconverges fun _ _ _ => rfl
    exact hlinks.andThen fun _ _ => .pure ⟨rfl, rfl⟩
  -- The directory is gone.
  let gone := state.setSource row.worktreePath none
  have hgone : HalfDone row state gone :=
    ⟨rfl, rfl, rfl, .inl rfl, id, (List.map_id _).symm, fun _ => .inl rfl⟩
  have hremove : Leads config cwd granted result (issue (.worktreeRemove row.worktreePath)) state
      fun (removed : Bool) state' => removed = true ∧ state' = gone := by
    refine .issue hconverges fun s hstate hlock => ?_
    subst hstate
    exact ⟨_, true, rfl, hlock, rfl, rfl⟩
  -- And so is the branch.
  let deleted := gone.deleteBranch row.branch
  have hdeleted : HalfDone row state deleted :=
    ⟨rfl, rfl, rfl, .inr rfl, id, (List.map_id _).symm, fun _ => .inl rfl⟩
  have hdelete : Leads config cwd granted result
      (issue (.updateRefDelete row.branch row.payload.source.head)) gone
      fun (done : Bool) state' => done = true ∧ state' = deleted := by
    refine .issue (converges_of_halfDone hvisiting hfree hresult hcleans hgone)
      fun s hstate hlock => ?_
    have htip' : s.state.tip row.branch = some row.payload.source.head := by
      rw [hstate]
      exact htip
    refine ⟨{ s with
        state := s.state.deleteBranch row.branch
        deletions := ⟨row.branch, row.payload.source.head, s.checks⟩ :: s.deletions },
      true, ?_, hlock, rfl, congrArg (·.deleteBranch row.branch) hstate⟩
    exact if_pos (by simp [htip', calm])
  have hmark : Leads config cwd granted result
      (issue (.markArtifact row.worktreePath .cleaned none)) deleted
      fun (_ : Unit) state' => HalfDone row state state' ∧ state'.tip row.branch = none := by
    refine .issue (converges_of_halfDone hvisiting hfree hresult hcleans hdeleted)
      fun s hstate hlock => ⟨_, (), rfl, hlock, ?_⟩
    have hmarked : (s.writeRegistry config s.host
        (.mark cwd row.worktreePath .cleaned none)).state
        = { deleted with
            artifacts := (markWorktreeArtifactState cwd s.now row.worktreePath .cleaned none).exec
              deleted.artifacts } := by
      rw [← hstate]
      rfl
    rw [hmarked]
    exact ⟨hdeleted.marked rfl s.now, tip_deleteBranch row.branch⟩
  refine hread.andThen ?_
  rintro _ rfl
  refine .ite (fun hne => absurd rfl hne) fun _ => hdetach.andThen ?_
  rintro _ rfl
  refine hremove.bind ?_
  rintro _ _ ⟨rfl, rfl⟩
  refine .ite (fun _ => hdelete.bind ?_) fun hnot => absurd rfl hnot
  rintro _ _ ⟨rfl, rfl⟩
  refine hmark.bind ?_
  rintro _ state' ⟨hhalf, htip'⟩
  exact .pure (.cleaned hcleans hhalf htip')

/-- Once everything else matched, only the name `HEAD` keeps a worktree from its removal. -/
theorem leads_cleanupReviewed (hcleans : state.cleans row = decide (row.branch ≠ ["HEAD"]))
    (htip : state.tip row.branch = some row.payload.source.head) :
    Leads config cwd granted result
      (cleanupWorktree config ⟨row.worktreePath, row.branch, row.payload.source.head⟩) state
      (Ended row state) := by
  by_cases hhead : row.branch = ["HEAD"]
  · have hread : Leads config cwd granted result (readBranchOid row.branch) state
        fun oid state' => state' = state ∧ oid = none :=
      .ite (fun _ => .pure ⟨rfl, rfl⟩) fun hnot => absurd hhead hnot
    refine hread.andThen ?_
    rintro _ rfl
    refine .ite (fun _ => .pure (.retained ?_ _)) fun hsame => absurd nofun hsame
    simp [hcleans, hhead]
  · exact leads_cleanupWorktree hvisiting hfree hresult (by simp [hcleans, hhead]) htip hhead

theorem leads_showRef : Leads config cwd granted result (issue (.showRef row.branch)) state
    fun (tip : Option Oid) state' => state' = state ∧ tip = state.tip row.branch := by
  refine .read (.showRef row.branch) _ (converges_of_visiting hvisiting hresult)
    fun s hstate _ => ?_
  subst hstate
  simp [perform, calm]

theorem leads_mergeBaseIsAncestor (commit : Oid) :
    Leads config cwd granted result (issue (.mergeBaseIsAncestor commit)) state
      fun (holds : Bool) state' => state' = state ∧ holds = state.target.inHistory commit := by
  refine .read (.mergeBaseIsAncestor commit) _ (converges_of_visiting hvisiting hresult)
    fun s hstate _ => ?_
  subst hstate
  simp [perform, calm]

/-- What `committedInTarget` answers. -/
def inTarget (state : CleanupState) (payload : CleanupPayload) : Bool :=
  match payload.committedCommit with
  | some commit => state.target.inHistory commit
  | none => false

theorem leads_committedInTarget :
    Leads config cwd granted result (committedInTarget row.payload) state
      fun value state' => state' = state ∧ value = inTarget state row.payload := by
  unfold committedInTarget inTarget
  cases row.payload.committedCommit with
  | some commit => exact leads_mergeBaseIsAncestor hvisiting hfree hresult commit
  | none => exact .pure ⟨rfl, rfl⟩

omit hfree in
theorem leads_targetIdentityMatches :
    Leads config cwd granted result
      (targetIdentityMatches row.payload (inTarget state row.payload)) state
      fun value state' => state' = state ∧ value = state.integrated row.payload := by
  unfold targetIdentityMatches
  split
  · next commit hcommit =>
    refine .pure ⟨rfl, ?_⟩
    simp [inTarget, CleanupState.integrated, hcommit]
  · next hplain =>
    refine (leads_integrationCleanupTargetStateError (converges_of_visiting hvisiting hresult)
      hplain).andThen fun error herror => .pure ⟨rfl, ?_⟩
    rw [Bool.eq_iff_iff, ← herror, decide_eq_true_iff]

theorem leads_cleanupMissingWorktree (hsource : state.sources row.worktreePath = none) :
    Leads config cwd granted result
      (cleanupMissingWorktree row (inTarget state row.payload) (state.tip row.branch)) state
      (Ended row state) := by
  have hconverges := converges_of_visiting hvisiting hresult
  have hself : HalfDone row state state := by
    refine ⟨rfl, rfl, ?_, .inl rfl, id, (List.map_id _).symm, fun _ => .inl rfl⟩
    funext path
    simp only [CleanupState.setSource]
    split
    · next hpath => rw [hpath, hsource]
    · rfl
  have hverify : Leads config cwd granted result (issue .verifyOwnership) state
      fun (_ : Unit) state' => state' = state ∧ () = () := by
    refine .read .verifyOwnership () hconverges fun s _ hlock => ?_
    simp [perform, hlock]
  refine (leads_targetIdentityMatches hvisiting hresult).andThen ?_
  rintro _ rfl
  refine .ite (fun hnot => .pure (.retained ?_ _)) fun hintegrated => ?_
  · simp_all [CleanupState.cleans]
  · have hintegrated : state.integrated row.payload = true := by simpa using hintegrated
    refine .ite (fun htip => hverify.andThen fun _ _ => ?_) fun hmoved => ?_
    · have hcleans : state.cleans row = true := by
        simp [CleanupState.cleans, hintegrated, hsource, htip]
      have hdeleted : HalfDone row state (state.deleteBranch row.branch) :=
        ⟨rfl, rfl, hself.sources, .inr rfl, id, (List.map_id _).symm, fun _ => .inl rfl⟩
      have hdelete : Leads config cwd granted result
          (issue (.updateRefDelete row.branch row.payload.source.head)) state
          fun (done : Bool) state' => done = true ∧ state' = state.deleteBranch row.branch := by
        refine .issue hconverges fun s hstate hlock => ?_
        subst hstate
        refine ⟨{ s with
            state := s.state.deleteBranch row.branch
            deletions := ⟨row.branch, row.payload.source.head, s.checks⟩ :: s.deletions },
          true, ?_, hlock, rfl, rfl⟩
        exact if_pos (by simp [htip, calm])
      refine hdelete.bind ?_
      rintro _ _ ⟨rfl, rfl⟩
      exact .pure (.cleaned hcleans hdeleted (tip_deleteBranch _))
    · refine .ite (fun habsent => ?_) fun hpresent => .pure (.retained ?_ _)
      · have hcleans : state.cleans row = true := by
          simp [CleanupState.cleans, hintegrated, hsource, habsent]
        have hlisted : Leads config cwd granted result (issue (.forEachRef row.branch)) state
            fun (absent : Option (List BranchName)) state' =>
              state' = state ∧ absent = some [] := by
          refine .read (.forEachRef row.branch) _ hconverges fun s hstate _ => ?_
          subst hstate
          simp [perform, calm, refsUnder_eq_nil hvisiting.orderly habsent]
        refine hlisted.andThen ?_
        rintro _ rfl
        exact hverify.andThen fun _ _ =>
          .pure (.cleaned hcleans hself habsent)
      · simp [CleanupState.cleans, hsource, hmoved, hpresent]

section

variable {tree : SourceTree} (hsource : state.sources row.worktreePath = some tree)
  (htip : state.tip row.branch = some row.payload.source.head)
include hsource htip

theorem leads_cleanupCommittedSourceWhileLocked {commit : Oid}
    (hcommit : row.payload.committedCommit = some commit)
    (hhistory : state.target.inHistory commit = true) :
    Leads config cwd granted result (cleanupCommittedSourceWhileLocked config row commit) state
      (Ended row state) := by
  have hconverges := converges_of_visiting hvisiting hresult
  have hcleans : state.cleans row = (decide (row.branch ≠ ["HEAD"]) &&
      decide (tree.createPatch row.payload.source.base = some row.payload.source)) := by
    simp [CleanupState.cleans, CleanupState.integrated, CleanupState.reviewed, hsource, htip,
      hcommit, hhistory]
  refine (leads_collectIntegrationPatch hconverges hsource hfree _).andThen ?_
  rintro _ rfl
  refine .ite (fun hchanged => .pure (.retained ?_ _)) fun hsame => ?_
  · simp [hcleans, hchanged]
  · refine (leads_mergeBaseIsAncestor hvisiting hfree hresult commit).andThen ?_
    rintro _ rfl
    refine .ite (fun hnot => ?_) fun _ => (leads_beforeRemoval hconverges).bind ?_
    · simp [hhistory] at hnot
    · rintro _ _ rfl
      have hsame : tree.createPatch row.payload.source.base = some row.payload.source :=
        Decidable.not_not.mp hsame
      exact leads_cleanupReviewed hvisiting hfree hresult (by simp [hcleans, hsame]) htip

theorem leads_cleanupIntegratedWorktreeWhileLocked
    (hplain : row.payload.committedCommit = none) :
    Leads config cwd granted result
      (cleanupIntegratedWorktreeWhileLocked config row.worktreePath row.payload) state
      (Ended row state) := by
  have hconverges := converges_of_visiting hvisiting hresult
  have hcleans : state.cleans row = (state.integrated row.payload &&
      (decide (row.branch ≠ ["HEAD"]) &&
        decide (tree.createPatch row.payload.source.base = some row.payload.source) &&
        tree.branch.isSome)) := by
    simp [CleanupState.cleans, CleanupState.reviewed, hsource, htip, hplain]
  have hbranch : Leads config cwd granted result (issue (.showCurrentBranch row.worktreePath))
      state fun (branch : Option BranchName) state' => state' = state ∧ branch = tree.branch := by
    refine .read (.showCurrentBranch row.worktreePath) _ hconverges fun s hstate _ => ?_
    subst hstate
    simp [perform, calm, hsource]
  refine hbranch.andThen ?_
  rintro _ rfl
  refine (leads_integrationCleanupTargetStateError hconverges hplain).andThen fun error herror => ?_
  cases error with
  | some error =>
    have hnot : state.integrated row.payload = false := by simpa using herror
    exact .pure (.retained (by simp [hcleans, hnot]) _)
  | none =>
    have hintegrated : state.integrated row.payload = true := herror.mp rfl
    refine (leads_collectIntegrationPatch hconverges hsource hfree _).andThen ?_
    rintro _ rfl
    refine .ite (fun hchanged => .pure (.retained ?_ _)) fun hsame => ?_
    · simp [hcleans, hchanged]
    · have hsame : tree.createPatch row.payload.source.base = some row.payload.source :=
        Decidable.not_not.mp hsame
      cases hattached : tree.branch with
      | none => exact .pure (.retained (by simp [hcleans, hattached]) _)
      | some branch =>
        obtain rfl := hvisiting.orderly.branch tree hsource branch hattached
        refine (leads_beforeRemoval hconverges).bind ?_
        rintro _ _ rfl
        exact leads_cleanupReviewed hvisiting hfree hresult
          (by simp [hcleans, hintegrated, hsame, hattached]) htip

end

theorem leads_cleanupRow :
    Leads config cwd granted result (cleanupRow config row) state (Ended row state) := by
  have hpresent : Leads config cwd granted result (issue (.existsSync row.worktreePath)) state
      fun (present : Bool) state' =>
        state' = state ∧ present = (state.sources row.worktreePath).isSome := by
    refine .read (.existsSync row.worktreePath) _ (converges_of_visiting hvisiting hresult)
      fun s hstate _ => ?_
    subst hstate
    rfl
  refine (leads_committedInTarget hvisiting hfree hresult).andThen ?_
  rintro _ rfl
  refine (leads_showRef hvisiting hfree hresult).andThen ?_
  rintro _ rfl
  refine hpresent.andThen ?_
  rintro _ rfl
  cases hsource : state.sources row.worktreePath with
  | none =>
    exact leads_cleanupMissingWorktree hvisiting hfree hresult hsource
  | some tree =>
    refine .ite nofun fun _ => .ite (fun hmoved => .pure (.retained ?_ _)) fun htip => ?_
    · simp [CleanupState.cleans, hsource, hmoved]
    · have htip : state.tip row.branch = some row.payload.source.head :=
        Decidable.not_not.mp htip
      split
      · next commit hcommit =>
        refine .ite (fun hnot => .pure (.retained ?_ _)) fun hhistory => ?_
        · have hnot : state.target.inHistory commit = false := by
            simpa [inTarget, hcommit] using hnot
          simp [CleanupState.cleans, CleanupState.integrated, hcommit, hnot]
        · have hhistory : state.target.inHistory commit = true := by
            simpa [inTarget, hcommit] using hhistory
          exact leads_cleanupCommittedSourceWhileLocked hvisiting hfree hresult hsource htip
            hcommit hhistory
      · next hplain =>
        exact leads_cleanupIntegratedWorktreeWhileLocked hvisiting hfree hresult hsource htip
          hplain

theorem leads_settleRow {outcome : CleanupOutcome} (hended : Ended row state outcome state') :
    Leads config cwd granted result (issue (.settleRow row outcome)) state'
      fun (_ : Unit) settled => settled = state.settleRow row := by
  unfold Ended at hended
  split at hended
  · next hcleans =>
    obtain ⟨rfl, hhalf, htip⟩ := hended
    refine .issue (converges_of_halfDone hvisiting hfree hresult hcleans hhalf)
      fun s hstate hlock => ⟨settle config s row .success, (), ?_, hlock, ?_⟩
    · exact if_pos hlock
    · rw [← hhalf.removeRow_eq hvisiting.orderly hvisiting.steady.unique hfree hcleans htip,
        ← hstate]
      rfl
  · next hnot =>
    obtain ⟨⟨reason, rfl⟩, rfl⟩ := hended
    refine .issue (converges_of_visiting hvisiting hresult)
      fun s hstate hlock => ⟨settle config s row (.retainedForReview reason), (), ?_, hlock, ?_⟩
    · exact if_pos hlock
    · rw [CleanupState.settleRow, if_neg hnot, ← hstate]
      rfl

end

/-! ## The whole drain -/

theorem leads_drainRows (hvisiting : Visiting cwd skipped rows state) :
    Leads config cwd granted (state.drained cwd) (drainRows config rows) state
      fun _ state' => Converges cwd (state.drained cwd) state' ∧ state' = state.drained cwd := by
  induction rows generalizing skipped state with
  | nil =>
    refine .pure ⟨⟨hvisiting.steady, rfl⟩, ?_⟩
    rw [hvisiting.drained_eq]
    rfl
  | cons row rows ih =>
    have hconverges : Converges cwd (state.drained cwd) state := ⟨hvisiting.steady, rfl⟩
    have hmem := mem_pending.mp hvisiting.mem_rows
    have haborted : Leads config cwd granted (state.drained cwd) (issue .heartbeatAborted) state
        fun (aborted : Bool) state' => state' = state ∧ aborted = false :=
      .read .heartbeatAborted false hconverges fun _ _ _ => rfl
    have hread : Leads config cwd granted (state.drained cwd)
        (issue (.readRow row.worktreePath)) state
        fun (current : Option CleanupRow) state' => state' = state ∧ current = some row := by
      refine .read (.readRow row.worktreePath) (some row) hconverges fun s hstate _ => ?_
      subst hstate
      simp only [perform, hvisiting.steady.row_eq hmem.1]
    have hstatus : Leads config cwd granted (state.drained cwd)
        (issue (.readArtifactStatus row.worktreePath)) state
        fun (status : Option ArtifactStatus) state' =>
          state' = state ∧ status = state.artifactStatus row.worktreePath := by
      refine .read (.readArtifactStatus row.worktreePath) _ hconverges fun s hstate _ => ?_
      subst hstate
      rfl
    refine haborted.andThen ?_
    rintro _ rfl
    refine .ite (absurd · Bool.false_ne_true) fun _ => hread.andThen ?_
    rintro _ rfl
    refine hstatus.andThen ?_
    rintro _ rfl
    refine .ite (fun hother => ?_) fun _ => .ite (fun hinUse => ?_) fun hnot => ?_
    · simp [hmem.2.2] at hother
    · have hskipped := hvisiting.skip (by simp [CleanupState.inUse, hinUse])
      exact (ih hskipped).bind fun reports _ hstate => .pure hstate
    · have hfree : state.inUse row.worktreePath = false := by
        simp [CleanupState.inUse, hnot]
      have hrest : (state.settleRow row).drained cwd = state.drained cwd := by
        rw [(hvisiting.settle hfree).drained_eq, hvisiting.drained_eq, List.foldl_cons,
          CleanupState.visitRow, hfree, if_neg Bool.false_ne_true]
      refine (leads_cleanupRow hvisiting hfree rfl).recover.bind fun outcome state' hended => ?_
      refine (leads_settleRow hvisiting hfree rfl hended).bind ?_
      rintro _ _ rfl
      rw [← hrest]
      exact (ih (hvisiting.settle hfree)).bind fun reports _ hstate => .pure hstate

theorem wp_drain_calm (config : CleanupConfig) (granted : String × String)
    (hsteady : Steady cwd s.state) :
    (drain config).wp (fun (_ : Unit) => execute config (calm cwd granted))
      (fun s' => Converges cwd (s.state.drained cwd) s'.state)
      (fun _ _ s' => Converges cwd (s.state.drained cwd) s'.state ∧
        s'.state = s.state.drained cwd) (fun _ _ _ => False) () s := by
  have hconverges : Converges cwd (s.state.drained cwd) s.state := ⟨hsteady, rfl⟩
  refine .bind (wp_issue_calm .selectPending (s.state.pending cwd) s hconverges rfl ?_)
  refine .ite (fun hnone => ?_) fun _ => ?_
  · have hempty : s.state.pending cwd = [] := hnone
    refine ⟨hconverges, ?_⟩
    rw [CleanupState.drained, hempty]
    rfl
  · refine .bind (wp_issue_calm .foregroundIntegrationActive false s hconverges rfl ?_)
    refine .ite (absurd · Bool.false_ne_true) fun _ => ?_
    let lock := serialLock cwd config granted s.now
    refine .bind (wp_issue_calm .acquireHardLock true
      { s with locks := s.locks ++ [lock], lock := some lock, lockKept := true }
      hconverges rfl ?_)
    refine .ite (absurd · Bool.false_ne_true) fun _ => ?_
    refine .bind (.recover ?_)
    have hrows : Leads config cwd granted (s.state.drained cwd)
        (drainRows config (s.state.pending cwd)) s.state fun _ state' =>
          Converges cwd (s.state.drained cwd) state' ∧ state' = s.state.drained cwd :=
      leads_drainRows (.start hsteady)
    refine .mono (hrows _ rfl (owns_serialLock _ _ _)) ?_ fun _ _ _ h => h.elim
    rintro reports ⟨⟩ s' ⟨-, hconverges', hstate⟩
    exact .bind (wp_issue_calm .releaseHardLock () _ hconverges' rfl ⟨hconverges', hstate⟩)

theorem drainAlone_state (hsteady : Steady cwd s.state) :
    (drainAlone config cwd granted s).state = s.state.drained cwd := by
  have hwp := @wp_drain_calm cwd s.next config granted hsteady
  have hend := Program.wp_finish (drain config ()) hwp
  unfold drainAlone
  revert hend
  cases (drain config ()).finish (execute config) (calm cwd granted) s.next with
  | mk s' value =>
    intro hend
    match value with
    | (.ok value, _) => exact hend.2
    | (.error error, _) => exact hend.elim

theorem converges_crashed (config : CleanupConfig) (hsteady : Steady cwd s.state) (crash : Crash) :
    Converges cwd (s.state.drained cwd) (crashed config cwd s crash).state := by
  have hwp := @wp_drain_calm cwd s.next config crash.granted hsteady
  cases Program.wp_replicate (drain config ()) crash.commands hwp with
  | inl hinterrupted => exact hinterrupted
  | inr hreturned =>
    obtain ⟨value, hend⟩ := hreturned
    match value, hend with
    | (.ok value, _), hend => exact hend.1
    | (.error error, _), hend => exact hend.elim

theorem converges_crashes (config : CleanupConfig) (hsteady : Steady cwd s.state)
    (crashes : List Crash) :
    Converges cwd (s.state.drained cwd) (crashes.foldl (crashed config cwd) s).state := by
  induction crashes generalizing s with
  | nil => exact ⟨hsteady, rfl⟩
  | cons crash crashes ih =>
    have hcrash := converges_crashed config hsteady crash
    rw [← hcrash.2]
    exact ih hcrash.1

/-- Over every sequence of enqueues and drains, among any changes by other processes and with
any crashes: each worktree is removed after checks under the lock that matched the enqueued
identity, and not while in use as long as the lock was kept; each branch is deleted at its
reviewed tip. And where only drains move, a drain after crashes ends as one without. -/
theorem deferred_cleanup_safe_and_convergent (config : CleanupConfig) (cwd : Directory) :
    (∀ (state : CleanupState) (locks : List LockRow) (now : Nat)
        (calls : List (CleanupCall × List (CleanupEnv cwd))),
      UniquePaths state.artifacts → (∀ row ∈ state.artifacts, row.cwd = cwd) →
      let s := runCalls config cwd (.start state locks now) calls
      (∀ removal ∈ s.removals,
        removal.Reviewed ∧ (removal.lockKept = true → removal.inUse = false)) ∧
      ∀ deletion ∈ s.deletions, deletion.Reviewed) ∧
    ∀ (s : CleanupMachine) (crashes : List Crash) (granted granted' : String × String),
      Steady cwd s.state →
      (drainAlone config cwd granted (crashes.foldl (crashed config cwd) s)).state
        = (drainAlone config cwd granted' s).state := by
  constructor
  · intro state locks now calls hunique hroot
    have hsound := (Sound.start hunique hroot locks now).runCalls config calls
    exact ⟨hsound.removals, hsound.deletions⟩
  · intro s crashes granted granted' hsteady
    have hcrashes := converges_crashes config hsteady crashes
    rw [drainAlone_state hcrashes.1, drainAlone_state hsteady, hcrashes.2]

section Integrated

/-- One integrated worktree, `wt/a` on `agent/a`, to be cleaned up. -/
def integratedPayload : CleanupPayload where
  source := ⟨"base", "head", "", "patch", "index"⟩
  committedCommit := none
  changedFiles := ["src/a"]
  integratedTargetStateSha256 := some "target"
  integratedTrackedStateSha256 := some "tracked"

def integratedTarget (tracked : String) : Target :=
  ⟨fun _ => some ⟨"target", tracked⟩, fun _ => false, fun _ => ""⟩

def integratedState (status : ArtifactStatus) : CleanupState where
  rows := [⟨"wt/a", [], ["agent", "a"], integratedPayload, .pending⟩]
  artifacts := [⟨"wt/a", [], "agent/a", "A", status, 0, none⟩]
  sources path := if path = "wt/a" then
      some ⟨some ["agent", "a"], "head", "", "index", fun _ => some "patch"⟩
    else none
  branches := [(["agent", "a"], "head")]
  target := integratedTarget "tracked"

def cleanupConfig : CleanupConfig := ⟨⟨10, 1000, fun _ => "wt"⟩, 0⟩

/-- A drain up to its removal of the worktree, the nineteenth command. -/
def untilRemoval (last : CleanupEnv []) : List (CleanupEnv []) :=
  List.replicate 18 (calm [] ("1", "token")) ++ [last]

/-- When the lock has expired, a job claims the worktree that a measurement marked retained. -/
def claimedLate : CleanupEnv [] :=
  { changes := [.clock 700000, .registry
      ⟨none, none, none, none, [], [⟨"wt/a", "a", "wt", .directory (some 0)⟩], 0⟩
      (.claim [] "wt/a" "B" false) rfl] }

theorem steady_integratedState : Steady [] (integratedState .cleanupPending) where
  keys := by decide
  unique := by
    show (_ : List String).Nodup
    decide
  orderly row hrow := by
    obtain rfl : row = ⟨"wt/a", [], ["agent", "a"], integratedPayload, .pending⟩ :=
      List.mem_singleton.mp (mem_pending.mp hrow).1
    refine ⟨by decide, fun tree htree branch hbranch => ?_, by decide⟩
    obtain rfl := Option.some.inj htree
    exact (Option.some.inj hbranch).symm

def crashAfterRemoval : Crash := ⟨("1", "token"), 19, [], 700000⟩

theorem deferred_cleanup_safe_and_convergent_of_crash :
    (∀ removal ∈ (runCalls cleanupConfig [] (.start (integratedState .cleanupPending) [] 0)
        [(.drain, untilRemoval (calm [] ("1", "token")))]).removals, removal.Reviewed) ∧
      (drainAlone cleanupConfig [] ("2", "token") (crashed cleanupConfig []
          (.start (integratedState .cleanupPending) [] 0) crashAfterRemoval)).state
        = (drainAlone cleanupConfig [] ("1", "token")
          (.start (integratedState .cleanupPending) [] 0)).state :=
  ⟨fun removal hremoval =>
      (((deferred_cleanup_safe_and_convergent cleanupConfig []).1 _ _ _ _
        steady_integratedState.unique (by decide)).1 removal hremoval).1,
    (deferred_cleanup_safe_and_convergent cleanupConfig []).2 _ [crashAfterRemoval] _ _
      steady_integratedState⟩

/-- A worktree is removed in use when a job claimed it after the lock had expired. When the
target changes between a crash and the next drain, that drain retains the row that a drain
without the crash had cleaned up. -/
theorem removed_in_use_and_retained_after_crash :
    (∃ removal ∈ (runCalls cleanupConfig [] (.start (integratedState .retained) [] 0)
        [(.drain, untilRemoval claimedLate)]).removals, removal.inUse = true) ∧
      (runCalls cleanupConfig [] (.start (integratedState .cleanupPending) [] 0)
        [(.drain, untilRemoval (calm [] ("1", "token"))),
          (.drain, { changes := [.locks [], .target (integratedTarget "moved")] }
            :: List.replicate 20 (calm [] ("2", "token")))]).state.rows
        = [⟨"wt/a", [], ["agent", "a"], integratedPayload, .retained⟩] ∧
      (drainAlone cleanupConfig [] ("1", "token")
        (.start (integratedState .cleanupPending) [] 0)).state.rows = [] := by
  decide

end Integrated

end AgentBridge.Cleanup
