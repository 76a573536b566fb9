import AgentBridge.Queue.BatchIntegration

/-!
# What a group of jobs comes to

The history of a run has every call with its answer. A batch settles some of its members and
leaves the others, whatever the answers; a group gives every job one outcome, and none of its
jobs is integrated twice.
-/

namespace AgentBridge.Queue.Batches

open Paths Systems List

/-! ## Histories -/

/-- The places that an event integrated as a batch. -/
def appliedOf : Event → List Nat
  | ⟨.applyBatch members _ _ _, .ok answer⟩ => if answer.ok then members else []
  | _ => []

/-- The place that an event integrates alone. -/
def aloneOf : Event → List Nat
  | ⟨.autoIntegrateQueueJob index _, _⟩ => [index]
  | _ => []

def applied (history : History) : List Nat := history.flatMap appliedOf

def integratedAlone (history : History) : List Nat := history.flatMap aloneOf

/-- Between two moments nothing was integrated. -/
structure Quiet (before after : History) : Prop where
  grows : before <+: after
  applied : applied after = applied before
  alone : integratedAlone after = integratedAlone before

theorem Quiet.refl (history : History) : Quiet history history := ⟨List.prefix_rfl, rfl, rfl⟩

theorem Quiet.trans {first second third : History} (h : Quiet first second)
    (h' : Quiet second third) : Quiet first third :=
  ⟨h.grows.trans h'.grows, h'.applied.trans h.applied, h'.alone.trans h.alone⟩

/-- A call that integrates nothing. -/
def Silent : Command → Prop
  | .applyBatch _ _ _ _ | .autoIntegrateQueueJob _ _ => False
  | _ => True

theorem perform_grows (answers : Answers) (history : History) (command : Command) :
    history <+: (perform answers history command).1 :=
  List.prefix_append _ _

theorem mem_perform (answers : Answers) (history : History) (command : Command) :
    (⟨command, answers command⟩ : Event) ∈ (perform answers history command).1 :=
  mem_append_right _ mem_cons_self

theorem applied_perform (answers : Answers) (history : History) (command : Command) :
    applied (perform answers history command).1 =
      applied history ++ appliedOf ⟨command, answers command⟩ := by
  simp [applied, perform]

theorem integratedAlone_perform (answers : Answers) (history : History) (command : Command) :
    integratedAlone (perform answers history command).1 =
      integratedAlone history ++ aloneOf ⟨command, answers command⟩ := by
  simp [integratedAlone, perform]

variable {command : Command}

theorem Silent.quiet (h : Silent command) (answers : Answers) (history : History) :
    Quiet history (perform answers history command).1 := by
  refine ⟨perform_grows _ _ _, ?_, ?_⟩
  · rw [applied_perform]
    cases command <;> first | exact h.elim | exact append_nil _
  · rw [integratedAlone_perform]
    cases command <;> first | exact h.elim | exact append_nil _

/-! ## Where an outcome comes from -/

/-- The record of a member, or the note that it could not be written. -/
def RecordOf (history : History) (job : ScheduledJob) (outcome : Outcome) : Prop :=
  (∃ projectRoot sent worktreePath fields,
    (⟨.recordAutoIntegrationOutcome projectRoot job.jobId sent worktreePath, .ok fields⟩ : Event) ∈
      history ∧ outcome = .recorded fields) ∨
  ∃ status error, outcome = .unrecorded status error

/-- The outcome at a place is what came of the job of that place. -/
inductive OutcomeOf (history : History) (index : Nat) (job : ScheduledJob) :
    Option Outcome → Prop where
  | notClaimed {projectRoot : PathText} {claim : Claim}
      (claimed : (⟨.claimAutoIntegration projectRoot job.jobId, .ok claim⟩ : Event) ∈ history)
      (refused : claim.patched = false) :
      OutcomeOf history index job (some (.notClaimed claim.reason claim.current))
  | landed {members : List Nat} {options : BatchOptions} {receipt : Redaction.Text}
      {jobIds : List String} {answer : EngineAnswer} {outcome : Outcome}
      (integrated : (⟨.applyBatch members options receipt jobIds, .ok answer⟩ : Event) ∈ history)
      (ok : answer.ok = true) (member : index ∈ members)
      (record : RecordOf history job outcome) : OutcomeOf history index job (some outcome)
  | alone {answer : Except Thrown Outcome}
      (integrated : (⟨.autoIntegrateQueueJob index job, answer⟩ : Event) ∈ history) :
      OutcomeOf history index job answer.toOption

variable {after : History}

theorem RecordOf.mono {before : History} {job : ScheduledJob} {outcome : Outcome}
    (h : RecordOf before job outcome) (grows : before <+: after) : RecordOf after job outcome := by
  refine h.imp_left ?_
  intro ⟨projectRoot, sent, worktreePath, fields, hmem, heq⟩
  exact ⟨projectRoot, sent, worktreePath, fields, grows.subset hmem, heq⟩

theorem OutcomeOf.mono {before : History} {index : Nat} {job : ScheduledJob}
    {outcome : Option Outcome} (h : OutcomeOf before index job outcome) (grows : before <+: after) :
    OutcomeOf after index job outcome := by
  cases h with
  | notClaimed claimed refused => exact .notClaimed (grows.subset claimed) refused
  | landed integrated ok member record =>
    exact .landed (grows.subset integrated) ok member (record.mono grows)
  | alone integrated => exact .alone (grows.subset integrated)

/-! ## Procedures that integrate nothing -/

variable {before : History}

theorem only_call (h : Silent command) :
    Procedure.Only Silent (fun _ => True)
      (Procedure.call command : Procedure Command Reply Unit Thrown _) :=
  Procedure.Only.call h

theorem wp_quiet {α : Type} {m : Action α} {returns : α → Prop}
    (h : Procedure.Only Silent returns m) :
    m.wp perform (fun _ => True) (fun value _ after => returns value ∧ Quiet before after)
      (fun _ _ after => Quiet before after) () before := by
  refine Procedure.wp_consequence (Procedure.wp_throughout_of_only Quiet.refl Quiet.trans
    (fun answers history command silent => silent.quiet answers history) h () before)
    (fun _ _ => trivial) (fun _ _ _ h => ⟨h.1, h.2.2⟩) fun _ _ _ h => h.2

theorem wp_silent_call (h : Silent command) :
    (Procedure.call command : Procedure Command Reply Unit Thrown _).wp perform (fun _ => True)
      (fun reply _ after => Quiet before after ∧ (⟨command, .ok reply⟩ : Event) ∈ after)
      (fun _ _ after => Quiet before after) () before := by
  rw [Procedure.wp_call]
  refine ⟨trivial, fun answers => ?_⟩
  have hquiet := h.quiet answers before
  have hmem := mem_perform answers before command
  have hanswer : (perform answers before command).2 = answers command := rfl
  rw [hanswer]
  cases hreply : answers command with
  | ok reply =>
    rw [hreply] at hmem
    exact ⟨hquiet, hmem⟩
  | error error => exact hquiet

theorem only_cleanUpAfterCommit (member : Member) (item : Option BatchItem)
    (answer : EngineAnswer) (commit : Redaction.Text) :
    Procedure.Only Silent (fun _ => True) (cleanUpAfterCommit member item answer commit) := by
  refine .bind (@only_call (.existsSync _) trivial) fun present _ => ?_
  refine .ite ?_ (.pure trivial)
  refine .bind (?_ : Procedure.Only Silent (fun _ => True) _) fun _ _ =>
    Procedure.Only.pure trivial
  exact (@only_call (.removeIntegratedWorktree _ _ _ _ _) trivial).recover fun _ =>
    Procedure.Only.pure trivial

/-! ## Records of a batch that applied -/

/-- What writing the record of a member comes to. -/
def Records (record : Nat → Member → Action OutcomeFields) : Prop :=
  ∀ position member before, (record position member).wp perform (fun _ => True)
    (fun fields _ after => Quiet before after ∧
      RecordOf after member.job (.recorded fields))
    (fun _ _ after => Quiet before after) () before

theorem wp_recordAutoIntegrationOutcome (member : Member) (sent : OutcomeFields)
    (worktreePath : PathText) :
    (recordAutoIntegrationOutcome member sent worktreePath).wp perform (fun _ => True)
      (fun fields _ after => Quiet before after ∧ RecordOf after member.job (.recorded fields))
      (fun _ _ after => Quiet before after) () before := by
  refine .mono (wp_silent_call trivial) ?_ fun _ _ _ h => h
  intro fields _ after h
  exact ⟨h.1, .inl ⟨_, _, _, _, h.2, rfl⟩⟩

theorem records_failure (stage : String) (status : AutoIntegrationStatus) (errorType : String)
    (error : Redaction.Text) :
    Records fun _ member => recordAutoIntegrationFailure member stage status errorType error :=
  fun _ member _ => wp_recordAutoIntegrationOutcome member _ _

theorem records_committed (jobIds : List String) (answer : EngineAnswer)
    (committed : CommitResult) : Records (recordCommitted jobIds answer committed) := by
  intro position member before
  unfold recordCommitted
  rw [Procedure.wp_bind]
  refine .mono (wp_quiet (only_cleanUpAfterCommit member _ answer committed.commit))
    ?_ fun _ _ _ h => h
  intro cleanup _ middle hmiddle
  refine .mono (wp_recordAutoIntegrationOutcome member _ _) ?_ ?_
  · intro fields _ after h
    exact ⟨hmiddle.2.trans h.1, h.2⟩
  · intro _ _ after h
    exact hmiddle.2.trans h

/-- The outcomes of a batch that applied, one for every member in order. -/
structure Settled (before after : History) (members : List Member)
    (outcomes : List (Nat × Outcome)) : Prop where
  quiet : Quiet before after
  places : outcomes.map Prod.fst = indexes members
  records : ∀ entry ∈ outcomes, ∃ member ∈ members, member.index = entry.1 ∧
    RecordOf after member.job entry.2

variable {members : List Member} {middle : History}

theorem Settled.cons {member : Member} {outcome : Outcome} {outcomes : List (Nat × Outcome)}
    (hquiet : Quiet before middle) (hrecord : RecordOf middle member.job outcome)
    (h : Settled middle after members outcomes) :
    Settled before after (member :: members) ((member.index, outcome) :: outcomes) := by
  refine ⟨hquiet.trans h.quiet, ?_, ?_⟩
  · rw [map_cons, h.places]
    rfl
  · intro entry hentry
    cases mem_cons.mp hentry with
    | inl heq =>
      rw [heq]
      exact ⟨member, mem_cons_self, rfl, hrecord.mono h.quiet.grows⟩
    | inr hrest =>
      obtain ⟨other, hother, hindex, hrecord⟩ := h.records entry hrest
      exact ⟨other, mem_cons_of_mem _ hother, hindex, hrecord⟩

theorem settle_spec {record : Nat → Member → Action OutcomeFields} (hrecord : Records record)
    (status : AutoIntegrationStatus) (members : List Member) : ∀ (position : Nat) {before},
    (settle record status position members).wp perform (fun _ => True)
      (fun outcomes _ after => Settled before after members outcomes)
      (fun _ _ _ => False) () before := by
  induction members with
  | nil => exact fun _ {before} => ⟨.refl before, rfl, nofun⟩
  | cons member members ih =>
    intro position before
    unfold settle
    rw [Procedure.wp_bind, Procedure.wp_recover, Procedure.wp_bind]
    -- either way the member has an outcome, and the others follow
    have hnext : ∀ outcome middle, Quiet before middle → RecordOf middle member.job outcome →
        (settle record status (position + 1) members >>= fun outcomes =>
          (pure ((member.index, outcome) :: outcomes) : Action _)).wp perform (fun _ => True)
          (fun outcomes _ after => Settled before after (member :: members) outcomes)
          (fun _ _ _ => False) () middle := by
      intro outcome middle hquiet hrecord
      rw [Procedure.wp_bind]
      refine .mono (ih (position + 1)) ?_ fun _ _ _ h => h
      intro outcomes _ after h
      exact .cons hquiet hrecord h
    refine .mono (hrecord position member before) ?_ ?_
    · intro fields _ middle h
      exact hnext _ middle h.1 h.2
    · intro error _ middle h
      exact hnext _ middle h (.inr ⟨_, _, rfl⟩)

theorem settleApplied_spec (current : List Member) (answer : EngineAnswer) :
    (settleApplied current answer).wp perform (fun _ => True)
      (fun outcomes _ after => Settled before after current outcomes)
      (fun _ _ _ => False) () before := by
  unfold settleApplied
  refine .ite (fun _ => settle_spec (records_failure _ _ _ _) _ current 0) fun _ => ?_
  cases answer.afterApply with
  | none => exact settle_spec (records_failure _ _ _ _) _ current 0
  | some committed =>
    exact .ite (fun _ => settle_spec (records_failure _ _ _ _) _ current 0)
      fun _ => settle_spec (records_committed _ _ _) _ current 0

/-! ## One round of a batch -/

/-- What a round leaves behind: only an apply that answered ok integrated its members. -/
def RoundLeaves (before after : History) (current : List Member) : Round → Prop
  | .applied answer => answer.ok = true ∧ before <+: after ∧
      applied after = applied before ++ indexes current ∧
      integratedAlone after = integratedAlone before ∧
      ∃ options receipt jobIds,
        (⟨.applyBatch (indexes current) options receipt jobIds, .ok answer⟩ : Event) ∈ after
  | _ => Quiet before after

theorem Quiet.roundLeaves {current : List Member} {round : Round} (hquiet : Quiet before middle)
    (h : RoundLeaves middle after current round) : RoundLeaves before after current round := by
  cases round with
  | applied answer =>
    obtain ⟨hok, hgrows, happlied, halone, hevent⟩ := h
    exact ⟨hok, hquiet.grows.trans hgrows, by rw [happlied, hquiet.applied],
      halone.trans hquiet.alone, hevent⟩
  | refused | fallBack | dropped => exact hquiet.trans h

theorem applyBatch_spec (current : List Member) (options : BatchOptions)
    (receipt : Redaction.Text) :
    (do
      let applied ← applyBatch current options receipt
      if !applied.ok then pure (Round.refused applied.errorType)
      else pure (.applied applied) : Action Round).wp perform (fun _ => True)
      (fun round _ after => RoundLeaves before after current round)
      (fun _ _ after => Quiet before after) () before := by
  rw [Procedure.wp_bind, applyBatch, Procedure.wp_call]
  refine ⟨trivial, fun answers => ?_⟩
  set command := Command.applyBatch (indexes current) options receipt
    (current.map fun member => member.job.jobId) with hcommand
  have hgrows := perform_grows answers before command
  have hmem := mem_perform answers before command
  have happlied := applied_perform answers before command
  have halone := (integratedAlone_perform answers before command).trans (append_nil _)
  have hreply : (perform answers before command).2 = answers command := rfl
  rw [hreply]
  cases hanswer : answers command with
  | error error =>
    rw [hanswer] at happlied
    exact ⟨hgrows, happlied.trans (append_nil _), halone⟩
  | ok answer =>
    rw [hanswer] at happlied hmem
    refine .ite (fun hnot => ?_) fun hok => ?_
    · have hnothing : appliedOf ⟨command, .ok answer⟩ = [] := if_neg (by simpa using hnot)
      rw [hnothing, append_nil] at happlied
      exact ⟨hgrows, happlied, halone⟩
    · have hall : appliedOf ⟨command, .ok answer⟩ = indexes current :=
        if_pos (by simpa using hok)
      rw [hall] at happlied
      exact ⟨by simpa using hok, hgrows, happlied, halone, _, _, _, hmem⟩

theorem batchRound_spec (first : Member) (current : List Member) :
    (batchRound first current).wp perform (fun _ => True)
      (fun round _ after => RoundLeaves before after current round)
      (fun _ _ after => Quiet before after) () before := by
  unfold batchRound
  rw [Procedure.wp_bind]
  refine .mono (wp_silent_call trivial) ?_ fun _ _ _ h => h
  intro preview _ middle hpreview
  have hquiet := hpreview.1
  refine .ite (fun _ => ?_) fun _ => .ite (fun _ => hquiet) fun _ =>
    .ite (fun _ => hquiet) fun _ => ?_
  · exact .ite (fun _ => hquiet) fun _ => hquiet
  · refine .mono (applyBatch_spec current _ _) ?_ ?_
    · exact fun _ _ _ h => hquiet.roundLeaves h
    · exact fun _ _ _ h => hquiet.trans h

/-! ## A whole batch -/

/-- What a batch that returned came to: it settled some of its members and left the others,
integrated none but settled ones, and integrated nobody alone. -/
structure BatchLanded (before after : History) (members : List Member) (result : BatchResult) :
    Prop where
  grows : before <+: after
  alone : integratedAlone after = integratedAlone before
  integrated : ∃ done, applied after = applied before ++ done ∧
    done.Sublist (result.landed.map Prod.fst)
  cover : (result.landed.map Prod.fst ++ result.rest).Perm (indexes members)
  outcomes : ∀ entry ∈ result.landed, ∃ member ∈ members, member.index = entry.1 ∧
    OutcomeOf after entry.1 member.job (some entry.2)

/-- Nothing was settled and all members are left. -/
theorem Quiet.leaves (h : Quiet before after) (members : List Member) :
    BatchLanded before after members ⟨[], indexes members⟩ :=
  ⟨h.grows, h.alone, ⟨[], by rw [h.applied, append_nil], List.Sublist.refl _⟩, .refl _, nofun⟩

variable {result : BatchResult}

theorem Quiet.landed (hquiet : Quiet before middle) (h : BatchLanded middle after members result) :
    BatchLanded before after members result := by
  obtain ⟨done, hdone, hsub⟩ := h.integrated
  exact ⟨hquiet.grows.trans h.grows, h.alone.trans hquiet.alone,
    ⟨done, by rw [hdone, hquiet.applied], hsub⟩, h.cover, h.outcomes⟩

/-- The result of some of the members, with the places of the others left. -/
theorem BatchLanded.widen {all : List Member} (h : BatchLanded before after members result)
    {others : List Nat} (hcover : (others ++ indexes members).Perm (indexes all))
    (hmembers : ∀ member ∈ members, member ∈ all) :
    BatchLanded before after all ⟨result.landed, others ++ result.rest⟩ := by
  refine ⟨h.grows, h.alone, h.integrated, ?_, ?_⟩
  · refine List.Perm.trans ?_ (.trans (h.cover.append_left others) hcover)
    rw [← append_assoc, ← append_assoc]
    exact perm_append_comm.append_right _
  · intro entry hentry
    obtain ⟨member, hmember, hindex, houtcome⟩ := h.outcomes entry hentry
    exact ⟨member, hmembers member hmember, hindex, houtcome⟩

theorem BatchLanded.append {members' : List Member} {result' : BatchResult}
    (h : BatchLanded before middle members result)
    (h' : BatchLanded middle after members' result') :
    BatchLanded before after (members ++ members')
      ⟨result.landed ++ result'.landed, result.rest ++ result'.rest⟩ := by
  obtain ⟨done, hdone, hsub⟩ := h.integrated
  obtain ⟨done', hdone', hsub'⟩ := h'.integrated
  refine ⟨h.grows.trans h'.grows, h'.alone.trans h.alone, ⟨done ++ done', ?_, ?_⟩, ?_, ?_⟩
  · rw [hdone', hdone, append_assoc]
  · rw [map_append]
    exact hsub.append hsub'
  · have hboth := h.cover.append h'.cover
    have hindexes : indexes (members ++ members') = indexes members ++ indexes members' :=
      map_append
    rw [hindexes]
    refine List.Perm.trans ?_ hboth
    rw [map_append, append_assoc, append_assoc]
    refine List.Perm.append_left _ ?_
    rw [← append_assoc, ← append_assoc]
    exact perm_append_comm.append_right _
  · intro entry hentry
    cases mem_append.mp hentry with
    | inl hfirst =>
      obtain ⟨member, hmember, hindex, houtcome⟩ := h.outcomes entry hfirst
      exact ⟨member, mem_append_left _ hmember, hindex, houtcome.mono h'.grows⟩
    | inr hsecond =>
      obtain ⟨member, hmember, hindex, houtcome⟩ := h'.outcomes entry hsecond
      exact ⟨member, mem_append_right _ hmember, hindex, houtcome⟩

theorem membersAt_perm (keep : Nat → Bool) (current : List Member) :
    (membersAt keep current ++ membersAt (fun position => !keep position) current).Perm
      current := by
  have hsplit := filter_append_perm (fun entry : Member × Nat => keep entry.2) current.zipIdx
  have hmap := hsplit.map Prod.fst
  rw [map_append, zipIdx_map_fst] at hmap
  exact hmap

theorem Settled.landed {current : List Member} {answer : EngineAnswer}
    {outcomes : List (Nat × Outcome)} (hround : RoundLeaves before middle current (.applied answer))
    (h : Settled middle after current outcomes) :
    BatchLanded before after current ⟨outcomes, []⟩ := by
  obtain ⟨hok, hgrows, happlied, halone, options, receipt, jobIds, hevent⟩ := hround
  refine ⟨hgrows.trans h.quiet.grows, h.quiet.alone.trans halone, ⟨indexes current, ?_, ?_⟩, ?_, ?_⟩
  · rw [h.quiet.applied, happlied]
  · rw [h.places]
  · rw [h.places, append_nil]
  · intro entry hentry
    obtain ⟨member, hmember, hindex, hrecord⟩ := h.records entry hentry
    refine ⟨member, hmember, hindex, ?_⟩
    exact .landed (h.quiet.grows.subset hevent) hok (hindex ▸ mem_map_of_mem hmember) hrecord

/-- What the dry runs of a batch add to what was settled and left before. -/
theorem batchLoop_spec (first : Member) (dryRuns retries : Nat) (current : List Member)
    (landed : List (Nat × Outcome)) (rest : List Nat) {before : History} :
    (batchLoop first dryRuns retries current landed rest).wp perform (fun _ => True)
      (fun result _ after => ∃ outcomes left, result = ⟨landed ++ outcomes, rest ++ left⟩ ∧
        BatchLanded before after current ⟨outcomes, left⟩)
      (fun _ _ after => Quiet before after) () before := by
  -- The members that a round leaves are settled or left by the later ones.
  have hleave : ∀ {middle}, Quiet before middle → ∃ outcomes left,
      (⟨landed, rest ++ indexes current⟩ : BatchResult) = ⟨landed ++ outcomes, rest ++ left⟩ ∧
        BatchLanded before middle current ⟨outcomes, left⟩ :=
    fun hquiet => ⟨[], indexes current, by rw [append_nil], hquiet.leaves current⟩
  rw [batchLoop]
  split
  · next hmore =>
    rw [Procedure.wp_bind]
    refine .mono (batchRound_spec first current) ?_ fun _ _ _ h => h
    intro round _ middle hround
    cases round with
    | fallBack => exact hleave hround
    | refused errorType =>
      dsimp only
      split
      · next hretry =>
        rw [Procedure.wp_bind]
        refine .mono (wp_silent_call trivial) ?_ fun _ _ _ h => hround.trans h
        intro _ _ later hdelay
        have hquiet : Quiet before later := hround.trans hdelay.1
        refine .mono (batchLoop_spec first (dryRuns + 1) (retries + 1) current landed
          rest) ?_ fun _ _ _ h => hquiet.trans h
        intro result _ after h
        obtain ⟨outcomes, left, hresult, hlanded⟩ := h
        exact ⟨outcomes, left, hresult, hquiet.landed hlanded⟩
      · exact hleave hround
    | dropped positions =>
      refine .mono (batchLoop_spec first (dryRuns + 1) retries _ landed _) ?_
        fun _ _ _ h => .trans hround h
      intro result _ after h
      obtain ⟨outcomes, left, hresult, hlanded⟩ := h
      refine ⟨outcomes, indexes (membersAt positions.contains current) ++ left,
        by rw [hresult, append_assoc], ?_⟩
      have hperm := membersAt_perm positions.contains current
      refine BatchLanded.widen (Quiet.landed hround hlanded) ?_ ?_
      · have hindexes := hperm.map Member.index
        rw [map_append] at hindexes
        exact hindexes
      · exact fun member hmember => hperm.subset (mem_append_right _ hmember)
    | applied answer =>
      rw [Procedure.wp_bind]
      refine .mono (settleApplied_spec current answer) ?_ nofun
      intro outcomes _ after hsettled
      exact ⟨outcomes, [], by rw [append_nil], hsettled.landed hround⟩
  · exact hleave (.refl before)
termination_by (autoIntegrationRounds - 1 - retries) +
  (autoIntegrationBatchDryRuns + retries - dryRuns)
decreasing_by all_goals omega

theorem renewClaims_spec (members : List Member) : ∀ {before},
    (renewClaims members).wp perform (fun _ => True)
      (fun result _ after => Quiet before after ∧
        (result.2.map Prod.fst ++ indexes result.1).Perm (indexes members) ∧
        (∀ member ∈ result.1, member ∈ members) ∧
        ∀ entry ∈ result.2, ∃ member ∈ members, member.index = entry.1 ∧
          OutcomeOf after entry.1 member.job (some entry.2))
      (fun _ _ after => Quiet before after) () before := by
  induction members with
  | nil => exact fun {before} => ⟨.refl before, .refl _, nofun, nofun⟩
  | cons member members ih =>
    intro before
    unfold renewClaims
    rw [Procedure.wp_bind]
    refine .mono (wp_silent_call trivial) ?_ fun _ _ _ h => h
    intro claim _ middle hclaim
    rw [Procedure.wp_bind]
    refine .mono ih ?_ fun _ _ _ h => hclaim.1.trans h
    intro ⟨renewed, landed⟩ _ after ⟨hquiet, hperm, hmembers, houtcomes⟩
    have hothers : ∀ entry ∈ landed, ∃ other ∈ member :: members, other.index = entry.1 ∧
        OutcomeOf after entry.1 other.job (some entry.2) := by
      intro entry hentry
      obtain ⟨other, hother, hfound⟩ := houtcomes entry hentry
      exact ⟨other, mem_cons_of_mem _ hother, hfound⟩
    refine .ite (fun _ => ?_) fun hrefused => ?_
    · refine ⟨hclaim.1.trans hquiet, ?_, ?_, hothers⟩
      · exact perm_middle.trans (hperm.cons member.index)
      · intro other hother
        cases mem_cons.mp hother with
        | inl heq => exact heq ▸ mem_cons_self
        | inr hrest => exact mem_cons_of_mem _ (hmembers other hrest)
    · refine ⟨hclaim.1.trans hquiet, hperm.cons member.index, ?_, ?_⟩
      · exact fun other hother => mem_cons_of_mem _ (hmembers other hother)
      · intro entry hentry
        cases mem_cons.mp hentry with
        | inl heq =>
          rw [heq]
          refine ⟨member, mem_cons_self, rfl, ?_⟩
          exact .notClaimed (hquiet.grows.subset hclaim.2) (by simpa using hrefused)
        | inr hrest => exact hothers entry hrest

theorem autoIntegrateBatch_spec (first : Member) (members : List Member) :
    (autoIntegrateBatch first members).wp perform (fun _ => True)
      (fun result _ after => BatchLanded before after (first :: members) result)
      (fun _ _ after => Quiet before after) () before := by
  unfold autoIntegrateBatch
  rw [Procedure.wp_bind]
  refine .mono (renewClaims_spec (first :: members)) ?_ fun _ _ _ h => h
  intro ⟨renewed, landed⟩ _ middle ⟨hquiet, hperm, hmembers, houtcomes⟩
  refine .mono (batchLoop_spec first 0 0 renewed landed []) ?_
    fun _ _ _ h => hquiet.trans h
  intro result _ after ⟨outcomes, left, hresult, hlanded⟩
  obtain ⟨done, hdone, hsub⟩ := hlanded.integrated
  rw [hresult, nil_append]
  refine ⟨hquiet.grows.trans hlanded.grows, hlanded.alone.trans hquiet.alone,
    ⟨done, ?_, ?_⟩, ?_, ?_⟩
  · rw [hdone, hquiet.applied]
  · rw [map_append]
    exact hsub.trans (sublist_append_right _ _)
  · rw [map_append, append_assoc]
    exact (hlanded.cover.append_left _).trans hperm
  · intro entry hentry
    cases mem_append.mp hentry with
    | inl hrefused =>
      obtain ⟨member, hmember, hindex, houtcome⟩ := houtcomes entry hrefused
      exact ⟨member, hmember, hindex, houtcome.mono hlanded.grows⟩
    | inr hsettled =>
      obtain ⟨member, hmember, hindex, houtcome⟩ := hlanded.outcomes entry hsettled
      exact ⟨member, hmembers member hmember, hindex, houtcome⟩

end AgentBridge.Queue.Batches
