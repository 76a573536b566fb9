import AgentBridge.Queue.BatchSettled

/-!
# Every job of a group once

The first pass of a group gives every job a place, the batches settle or leave their members,
and the one-by-one path takes the jobs that are left.
-/

namespace AgentBridge.Queue.Batches

open Paths Systems List

variable {before : History}

/-! ## The first pass -/

/-- What a place says of the job it is found for. -/
def PlaceOf (history : History) (index : Nat) (job : ScheduledJob) : Place → Prop
  | .notClaimed reason current =>
    OutcomeOf history index job (some (.notClaimed reason current))
  | .alone => True
  | .batch _ member => member.index = index ∧ member.job = job

theorem place_spec (index : Nat) (job : ScheduledJob) :
    (place index job).wp perform (fun _ => True)
      (fun found _ after => Quiet before after ∧ PlaceOf after index job found)
      (fun _ _ after => Quiet before after) () before := by
  unfold place
  rw [Procedure.wp_bind]
  refine .mono (wp_silent_call trivial) ?_ fun _ _ _ h => h
  intro projectRoot _ rooted hroot
  rw [Procedure.wp_bind]
  refine .mono (wp_silent_call trivial) ?_ fun _ _ _ h => hroot.1.trans h
  intro claim _ claimed hclaim
  have hquiet : Quiet before claimed := hroot.1.trans hclaim.1
  refine .ite (fun hrefused => ?_) fun _ => ?_
  · exact ⟨hquiet, .notClaimed hclaim.2 (by simpa using hrefused)⟩
  · cases autoIntegrationSourceIdentity job.sourceRecord with
    | none => exact ⟨hquiet, trivial⟩
    | some identity =>
      refine .ite (fun _ => ⟨hquiet, trivial⟩) fun _ => ?_
      rw [Procedure.wp_bind]
      refine .mono (wp_silent_call trivial) ?_ fun _ _ _ h => hquiet.trans h
      intro present _ looked hlooked
      have hquiet : Quiet before looked := hquiet.trans hlooked.1
      refine .ite (fun _ => ⟨hquiet, trivial⟩) fun _ => ?_
      rw [Procedure.wp_bind, Procedure.wp_recover]
      have hlast : ∀ already after, Quiet before after →
          (if already = true then pure Place.alone
            else pure (.batch (autoIntegrationBatchKey projectRoot job)
              ⟨index, job, projectRoot, identity⟩) : Action Place).wp perform (fun _ => True)
            (fun found _ after => Quiet before after ∧ PlaceOf after index job found)
            (fun _ _ after => Quiet before after) () after :=
        fun already after h =>
          .ite (fun _ => ⟨h, trivial⟩) fun _ => ⟨h, rfl, rfl⟩
      refine .mono (wp_silent_call trivial) ?_ ?_
      · exact fun already _ after h => hlast already after (hquiet.trans h.1)
      · exact fun _ _ after h => hlast false after (hquiet.trans h)

def Sorted.members (sorted : Sorted) : List Member := sorted.partitions.flatMap Prod.snd

theorem members_addToPartition (key : BatchKey) (member : Member)
    (partitions : List (BatchKey × List Member)) :
    ((addToPartition key member partitions).flatMap Prod.snd).Perm
      (partitions.flatMap Prod.snd ++ [member]) := by
  induction partitions with
  | nil => exact .refl _
  | cons partition partitions ih =>
    unfold addToPartition
    split
    · simp only [flatMap_cons, append_assoc]
      exact perm_append_comm.append_left _
    · simp only [flatMap_cons, append_assoc]
      exact ih.append_left _

/-- The places of a group up to some job. -/
structure SortedUpTo (jobs : List ScheduledJob) (history : History) (done : List Nat)
    (sorted : Sorted) : Prop where
  cover : (sorted.outcomes.map Prod.fst ++ sorted.alone ++ indexes sorted.members).Perm done
  outcomes : ∀ entry ∈ sorted.outcomes, ∃ job, jobs[entry.1]? = some job ∧
    OutcomeOf history entry.1 job (some entry.2)
  members : ∀ member ∈ sorted.members, jobs[member.index]? = some member.job

theorem SortedUpTo.grow {jobs : List ScheduledJob} {history later : History} {done : List Nat}
    {sorted : Sorted} (h : SortedUpTo jobs history done sorted) (grows : history <+: later) :
    SortedUpTo jobs later done sorted := by
  refine ⟨h.cover, fun entry hentry => ?_, h.members⟩
  obtain ⟨job, hjob, houtcome⟩ := h.outcomes entry hentry
  exact ⟨job, hjob, houtcome.mono grows⟩

theorem SortedUpTo.add {jobs : List ScheduledJob} {history : History} {done : List Nat}
    {sorted : Sorted} (h : SortedUpTo jobs history done sorted) {index : Nat} {job : ScheduledJob}
    (hjob : jobs[index]? = some job) {found : Place} (hfound : PlaceOf history index job found) :
    SortedUpTo jobs history (done ++ [index]) (sorted.add index found) := by
  -- The new place goes to one of the three parts.
  have hcover : ∀ {first second third done : List Nat}, (first ++ second ++ third).Perm done →
      (first ++ [index] ++ second ++ third).Perm (done ++ [index]) ∧
        (first ++ (second ++ [index]) ++ third).Perm (done ++ [index]) ∧
        (first ++ second ++ (third ++ [index])).Perm (done ++ [index]) := by
    intro first second third done hperm
    have hlast := hperm.append_right [index]
    refine ⟨.trans ?_ hlast, .trans ?_ hlast, .trans ?_ hlast⟩
    · simp only [append_assoc]
      refine List.Perm.append_left _ (.trans ?_ (.of_eq (append_assoc _ _ _)))
      exact perm_append_comm
    · simp only [append_assoc]
      exact (perm_append_comm.append_left _).append_left _
    · rw [append_assoc _ third]
  cases found with
  | notClaimed reason current =>
    refine ⟨?_, ?_, h.members⟩
    · simp only [Sorted.add, Sorted.members, map_append, map_cons, map_nil]
      exact (hcover h.cover).1
    · intro entry hentry
      cases mem_append.mp hentry with
      | inl hold => exact h.outcomes entry hold
      | inr hnew =>
        rw [mem_singleton.mp hnew]
        exact ⟨job, hjob, hfound⟩
  | alone => exact ⟨(hcover h.cover).2.1, h.outcomes, h.members⟩
  | batch key member =>
    have hmembers := members_addToPartition key member sorted.partitions
    refine ⟨?_, h.outcomes, ?_⟩
    · refine .trans ?_ (hcover h.cover).2.2
      refine List.Perm.append_left _ (.trans (hmembers.map Member.index) ?_)
      rw [map_append, map_cons, hfound.1]
      rfl
    · intro other hother
      cases mem_append.mp (hmembers.subset hother) with
      | inl hold => exact h.members other hold
      | inr hnew =>
        rw [mem_singleton.mp hnew, hfound.1, hfound.2]
        exact hjob

theorem sortJobs_spec (jobs : List ScheduledJob) (rest : List ScheduledJob) :
    ∀ (index : Nat) (sorted : Sorted) {before : History},
      jobs.drop index = rest → SortedUpTo jobs before (List.range index) sorted →
      (sortJobs index rest sorted).wp perform (fun _ => True)
        (fun sorted _ after => Quiet before after ∧
          SortedUpTo jobs after (List.range (index + rest.length)) sorted)
        (fun _ _ _ => False) () before := by
  induction rest with
  | nil => exact fun index sorted {before} _ h => ⟨.refl before, h⟩
  | cons job rest ih =>
    intro index sorted before hdrop h
    have hjob : jobs[index]? = some job := by
      have hhead := congrArg List.head? hdrop
      rwa [List.head?_drop] at hhead
    have hrest : jobs.drop (index + 1) = rest := by
      rw [← tail_drop, hdrop, tail_cons]
    unfold sortJobs
    rw [Procedure.wp_bind, Procedure.wp_recover]
    have hnext : ∀ found middle, Quiet before middle → PlaceOf middle index job found →
        (sortJobs (index + 1) rest (sorted.add index found)).wp perform (fun _ => True)
          (fun sorted _ after => Quiet before after ∧
            SortedUpTo jobs after (List.range (index + (rest.length + 1))) sorted)
          (fun _ _ _ => False) () middle := by
      intro found middle hquiet hfound
      have hadded := (h.grow hquiet.grows).add hjob hfound
      rw [← range_succ] at hadded
      refine .mono (ih (index + 1) _ hrest hadded) ?_ fun _ _ _ h => h
      intro sorted _ after hafter
      rw [Nat.add_right_comm, Nat.add_assoc] at hafter
      exact ⟨hquiet.trans hafter.1, hafter.2⟩
    refine .mono (place_spec index job) ?_ ?_
    · exact fun found _ middle hmiddle => hnext found middle hmiddle.1 hmiddle.2
    · exact fun _ _ middle hmiddle => hnext .alone middle hmiddle trivial

/-! ## The batches -/

variable (platform : Platform) (entries : List (Nat × Outcome))

/-- The members of a batch and the places that overlap are all of the members. -/
theorem apart_perm (members : List Member) : ∀ taken,
    ((apart platform taken members).2 ++ indexes (apart platform taken members).1).Perm
      (indexes members) := by
  induction members with
  | nil => exact fun _ => .refl _
  | cons member members ih =>
    intro taken
    unfold apart
    dsimp only
    split
    · exact (ih taken).cons member.index
    · exact perm_middle.trans ((ih _).cons member.index)

theorem mem_apart (members : List Member) :
    ∀ taken, ∀ member ∈ (apart platform taken members).1, member ∈ members := by
  induction members with
  | nil => exact fun _ => nofun
  | cons member members ih =>
    intro taken other hother
    unfold apart at hother
    dsimp only at hother
    split at hother
    · exact mem_cons_of_mem _ (ih taken other hother)
    · cases mem_cons.mp hother with
      | inl heq => exact heq ▸ mem_cons_self
      | inr hrest => exact mem_cons_of_mem _ (ih _ other hrest)

theorem landChunk_spec (chunk : List Member) :
    (landChunk chunk).wp perform (fun _ => True)
      (fun result _ after => BatchLanded before after chunk result)
      (fun _ _ _ => False) () before := by
  unfold landChunk
  split
  · next first second members =>
    rw [Procedure.wp_recover]
    refine .mono (autoIntegrateBatch_spec first (second :: members)) ?_ ?_
    · exact fun _ _ _ h => h
    · exact fun _ _ _ h => h.leaves _
  · exact (Quiet.refl before).leaves chunk

theorem landChunks_spec (chunks : List (List Member)) : ∀ {before},
    (landChunks chunks).wp perform (fun _ => True)
      (fun result _ after => BatchLanded before after chunks.flatten result)
      (fun _ _ _ => False) () before := by
  induction chunks with
  | nil => exact fun {before} => (Quiet.refl before).leaves []
  | cons chunk chunks ih =>
    intro before
    unfold landChunks
    rw [Procedure.wp_bind]
    refine .mono (landChunk_spec chunk) ?_ fun _ _ _ h => h
    intro result _ middle hresult
    rw [Procedure.wp_bind]
    refine .mono ih ?_ fun _ _ _ h => h
    exact fun results _ after hresults => hresult.append hresults

theorem landPartitions_spec (partitions : List (BatchKey × List Member)) :
    ∀ {before}, (landPartitions platform partitions).wp perform (fun _ => True)
      (fun result _ after => BatchLanded before after (partitions.flatMap Prod.snd) result)
      (fun _ _ _ => False) () before := by
  induction partitions with
  | nil => exact fun {before} => (Quiet.refl before).leaves []
  | cons partition partitions ih =>
    intro before
    unfold landPartitions
    dsimp only
    rw [Procedure.wp_bind]
    refine .mono (landChunks_spec _) ?_ fun _ _ _ h => h
    intro result _ middle hresult
    rw [chunks_flatten] at hresult
    rw [Procedure.wp_bind]
    refine .mono ih ?_ fun _ _ _ h => h
    intro results _ after hresults
    have hpartition : BatchLanded before middle partition.2 _ :=
      hresult.widen (apart_perm platform partition.2 []) (mem_apart platform partition.2 [])
    exact hpartition.append hresults

/-! ## The one-by-one path -/

/-- The outcomes after some of the jobs were integrated alone. -/
structure AloneSettled (jobs : List ScheduledJob) (before after : History) (taken : List Nat)
    (outcomes settled : List (Option Outcome)) : Prop where
  grows : before <+: after
  applied : applied after = applied before
  alone : integratedAlone after = integratedAlone before ++ taken
  length : settled.length = outcomes.length
  kept : ∀ index, index ∉ taken → settled[index]? = outcomes[index]?
  taken : ∀ index ∈ taken, ∀ job, jobs[index]? = some job →
    ∃ outcome, settled[index]? = some outcome ∧ OutcomeOf after index job outcome

theorem integrateOne_spec (index : Nat) (job : ScheduledJob) :
    (Procedure.recover (do
      let outcome ← autoIntegrateQueueJob index job
      pure (some outcome)) fun _ => pure none : Action (Option Outcome)).wp perform (fun _ => True)
      (fun outcome _ after => before <+: after ∧ applied after = applied before ∧
        integratedAlone after = integratedAlone before ++ [index] ∧
        OutcomeOf after index job outcome)
      (fun _ _ _ => False) () before := by
  rw [Procedure.wp_recover, Procedure.wp_bind, autoIntegrateQueueJob, Procedure.wp_call]
  refine ⟨trivial, fun answers => ?_⟩
  set command := Command.autoIntegrateQueueJob index job with hcommand
  have hgrows := perform_grows answers before command
  have happlied := (applied_perform answers before command).trans (append_nil _)
  have halone := integratedAlone_perform answers before command
  have hmem := mem_perform answers before command
  have houtcome := OutcomeOf.alone hmem
  have hreply : (perform answers before command).2 = answers command := rfl
  rw [hreply]
  cases hanswer : answers command with
  | ok outcome =>
    rw [hanswer] at houtcome
    exact ⟨hgrows, happlied, halone, houtcome⟩
  | error error =>
    rw [hanswer] at houtcome
    exact ⟨hgrows, happlied, halone, houtcome⟩

theorem integrateAlone_spec (jobs : List ScheduledJob) (taken : List Nat) :
    ∀ (outcomes : List (Option Outcome)) {before : History}, taken.Nodup →
      (∀ index ∈ taken, index < jobs.length) → outcomes.length = jobs.length →
      (integrateAlone jobs taken outcomes).wp perform (fun _ => True)
        (fun settled _ after => AloneSettled jobs before after taken outcomes settled)
        (fun _ _ _ => False) () before := by
  induction taken with
  | nil =>
    intro outcomes before _ _ _
    exact ⟨List.prefix_rfl, rfl, (append_nil _).symm, rfl, fun _ _ => rfl, nofun⟩
  | cons index taken ih =>
    intro outcomes before hnodup hbound hlength
    have hindex : index < jobs.length := hbound index mem_cons_self
    obtain ⟨hfresh, hnodup⟩ := nodup_cons.mp hnodup
    unfold integrateAlone
    rw [List.getElem?_eq_getElem hindex]
    dsimp only
    rw [Procedure.wp_bind]
    refine .mono (integrateOne_spec index _) ?_ fun _ _ _ h => h
    intro outcome _ middle ⟨hgrows, happlied, halone, houtcome⟩
    have hset : (outcomes.set index outcome).length = jobs.length := by
      rw [length_set, hlength]
    refine .mono (ih (outcomes.set index outcome) hnodup
      (fun other hother => hbound other (mem_cons_of_mem _ hother)) hset) ?_
      fun _ _ _ h => h
    intro settled _ after h
    refine ⟨hgrows.trans h.grows, h.applied.trans happlied, ?_, ?_, ?_, ?_⟩
    · rw [h.alone, halone, append_assoc, singleton_append]
    · rw [h.length, length_set]
    · intro other hother
      rw [mem_cons, not_or] at hother
      rw [h.kept other hother.2, List.getElem?_set_ne (Ne.symm hother.1)]
    · intro other hother job hjob
      cases mem_cons.mp hother with
      | inl heq =>
        rw [heq] at hjob ⊢
        rw [List.getElem?_eq_getElem hindex, Option.some.injEq] at hjob
        refine ⟨outcome, ?_, hjob ▸ houtcome.mono h.grows⟩
        rw [h.kept index hfresh, List.getElem?_set_self (by omega)]
      | inr hrest => exact h.taken other hrest job hjob

/-! ## A whole group -/

theorem setOutcomes_length : ∀ outcomes : List (Option Outcome),
    (setOutcomes entries outcomes).length = outcomes.length := by
  induction entries with
  | nil => exact fun _ => rfl
  | cons entry entries ih =>
    intro outcomes
    exact (ih _).trans length_set

theorem getElem?_setOutcomes_of_notMem {index : Nat} :
    ∀ outcomes : List (Option Outcome), index ∉ entries.map Prod.fst →
      (setOutcomes entries outcomes)[index]? = outcomes[index]? := by
  induction entries with
  | nil => exact fun _ _ => rfl
  | cons entry entries ih =>
    intro outcomes hfresh
    rw [map_cons, mem_cons, not_or] at hfresh
    refine (ih _ hfresh.2).trans ?_
    rw [List.getElem?_set_ne (Ne.symm hfresh.1)]

theorem getElem?_setOutcomes_of_mem :
    ∀ outcomes : List (Option Outcome), (entries.map Prod.fst).Nodup →
      ∀ entry ∈ entries, entry.1 < outcomes.length →
        (setOutcomes entries outcomes)[entry.1]? = some (some entry.2) := by
  induction entries with
  | nil => exact fun _ _ => nofun
  | cons first entries ih =>
    intro outcomes hnodup entry hentry hbound
    rw [map_cons, nodup_cons] at hnodup
    cases mem_cons.mp hentry with
    | inl heq =>
      rw [heq] at hbound ⊢
      refine (getElem?_setOutcomes_of_notMem entries _ hnodup.1).trans ?_
      rw [List.getElem?_set_self hbound]
    | inr hrest =>
      refine ih _ hnodup.2 entry hrest ?_
      rw [length_set]
      exact hbound

/-- One outcome for every job, at its place; nobody was integrated twice. -/
structure GroupSettled (jobs : List ScheduledJob) (after : History)
    (outcomes : List (Option Outcome)) : Prop where
  length : outcomes.length = jobs.length
  own : ∀ index job, jobs[index]? = some job →
    ∃ outcome, outcomes[index]? = some outcome ∧ OutcomeOf after index job outcome
  once : (applied after ++ integratedAlone after).Nodup

theorem AloneSettled.group {jobs : List ScheduledJob} {after : History}
    {settled : List (Option Outcome)}
    (h : AloneSettled jobs [] after (List.range jobs.length) (List.replicate jobs.length none)
      settled) : GroupSettled jobs after settled := by
  refine ⟨?_, ?_, ?_⟩
  · rw [h.length, length_replicate]
  · intro index job hjob
    have hindex : index < jobs.length := (List.getElem?_eq_some_iff.mp hjob).1
    exact h.taken index (mem_range.mpr hindex) job hjob
  · rw [h.applied, h.alone]
    exact nodup_range

section

variable {jobs : List ScheduledJob} {first second after : History} {sorted : Sorted}
  {result : BatchResult}

/-- The places that the first pass and the batches settle, and those that they leave. -/
theorem settled_left_perm (hsorted : SortedUpTo jobs first (List.range jobs.length) sorted)
    (hlanded : BatchLanded first second sorted.members result) :
    ((sorted.outcomes ++ result.landed).map Prod.fst ++ (sorted.alone ++ result.rest)).Perm
      (List.range jobs.length) := by
  refine List.Perm.trans ?_ (.trans (hlanded.cover.append_left _) hsorted.cover)
  rw [map_append]
  simp only [append_assoc]
  refine List.Perm.append_left _ ?_
  rw [← append_assoc, ← append_assoc]
  exact perm_append_comm.append_right _

/-- The order in which the one-by-one path takes the places that are left. -/
theorem perm_taken (left : List Nat) (h : left.Nodup) :
    (left.dedup.insertionSort (· ≤ ·)).Perm left := by
  rw [dedup_eq_self.mpr h]
  exact perm_insertionSort _ _

theorem BatchLanded.group (hsorted : SortedUpTo jobs first (List.range jobs.length) sorted)
    (hlanded : BatchLanded first second sorted.members result) (hfirst : Quiet [] first)
    {settled : List (Option Outcome)}
    (h : AloneSettled jobs second after
      ((sorted.alone ++ result.rest).dedup.insertionSort (· ≤ ·))
      (setOutcomes (sorted.outcomes ++ result.landed) (List.replicate jobs.length none)) settled) :
    GroupSettled jobs after settled := by
  have hperm := settled_left_perm hsorted hlanded
  have hall : ((sorted.outcomes ++ result.landed).map Prod.fst ++
      (sorted.alone ++ result.rest)).Nodup := hperm.nodup_iff.mpr nodup_range
  obtain ⟨hkeys, hleft, hapart⟩ := nodup_append.mp hall
  have htaken := perm_taken _ hleft
  refine ⟨?_, ?_, ?_⟩
  · rw [h.length, setOutcomes_length, length_replicate]
  · intro index job hjob
    have hindex : index < jobs.length := (List.getElem?_eq_some_iff.mp hjob).1
    have hplace := hperm.symm.subset (mem_range.mpr hindex)
    by_cases hmem : index ∈ sorted.alone ++ result.rest
    · exact h.taken index (htaken.symm.subset hmem) job hjob
    · have hkey := (mem_append.mp hplace).resolve_right hmem
      obtain ⟨entry, hentry, rfl⟩ := mem_map.mp hkey
      refine ⟨some entry.2, ?_, ?_⟩
      · rw [h.kept entry.1 fun hin => hmem (htaken.subset hin)]
        refine getElem?_setOutcomes_of_mem _ _ hkeys entry hentry ?_
        rw [length_replicate]
        exact hindex
      · cases mem_append.mp hentry with
        | inl hrefused =>
          obtain ⟨other, hother, houtcome⟩ := hsorted.outcomes entry hrefused
          rw [hjob, Option.some.injEq] at hother
          exact hother ▸ houtcome.mono (hlanded.grows.trans h.grows)
        | inr hbatch =>
          obtain ⟨member, hmember, hplace, houtcome⟩ := hlanded.outcomes entry hbatch
          have hother := hsorted.members member hmember
          rw [hplace, hjob, Option.some.injEq] at hother
          exact hother ▸ houtcome.mono h.grows
  · obtain ⟨done, hdone, hsub⟩ := hlanded.integrated
    have happlied : applied after = done := by
      rw [h.applied, hdone, hfirst.applied]
      rfl
    have halone : integratedAlone after =
        (sorted.alone ++ result.rest).dedup.insertionSort (· ≤ ·) := by
      rw [h.alone, hlanded.alone, hfirst.alone]
      rfl
    rw [happlied, halone]
    refine ((htaken.append_left done).nodup_iff).mpr ?_
    refine hall.sublist (List.Sublist.append_right ?_ _)
    rw [map_append]
    exact hsub.trans (sublist_append_right _ _)

end

/-- What a group comes to that throws: it has one job, whose integration threw. -/
def GroupThrew (jobs : List ScheduledJob) (after : History) (error : Thrown) : Prop :=
  ∃ job, jobs = [job] ∧ applied after = [] ∧
    after = [⟨.autoIntegrateQueueJob 0 job, .error error⟩]

theorem autoIntegrateQueueJobs_spec (batchEnabled : Bool) (jobs : List ScheduledJob) :
    (autoIntegrateQueueJobs platform batchEnabled jobs).wp perform (fun _ => True)
      (fun outcomes _ after => GroupSettled jobs after outcomes)
      (fun error _ after => GroupThrew jobs after error) () [] := by
  unfold autoIntegrateQueueJobs
  dsimp only
  split
  · next job =>
    rw [Procedure.wp_bind, autoIntegrateQueueJob, Procedure.wp_call]
    refine ⟨trivial, fun answers => ?_⟩
    have hmem := mem_perform answers [] (.autoIntegrateQueueJob 0 job)
    have hreply : (perform answers [] (.autoIntegrateQueueJob 0 job)).2 =
        answers (.autoIntegrateQueueJob 0 job) := rfl
    rw [hreply]
    cases hanswer : answers (.autoIntegrateQueueJob 0 job) with
    | ok outcome =>
      rw [hanswer] at hmem
      refine ⟨rfl, ?_, ?_⟩
      · intro index other hother
        cases index with
        | zero =>
          rw [List.getElem?_cons_zero, Option.some.injEq] at hother
          exact ⟨some outcome, rfl, hother ▸ .alone hmem⟩
        | succ index => simp at hother
      · simp [applied, integratedAlone, perform, appliedOf, aloneOf]
    | error error =>
      refine ⟨job, rfl, ?_, ?_⟩
      · simp [applied, perform, appliedOf]
      · simp only [perform, nil_append, hanswer]
  · have hreplicate : (List.replicate jobs.length (none : Option Outcome)).length = jobs.length :=
      length_replicate
    refine .ite (fun _ => ?_) fun _ => ?_
    · refine .mono (integrateAlone_spec jobs _ _ nodup_range
        (fun index hindex => mem_range.mp hindex) hreplicate) ?_ fun _ _ _ hfailed => hfailed.elim
      exact fun _ _ _ h => h.group
    · rw [Procedure.wp_bind]
      have hstart : SortedUpTo jobs [] (List.range 0) ⟨[], [], []⟩ :=
        ⟨.refl _, fun _ h => absurd h not_mem_nil, fun _ h => absurd h not_mem_nil⟩
      refine .mono (sortJobs_spec jobs jobs 0 _ drop_zero hstart) ?_ fun _ _ _ hfailed => hfailed.elim
      rintro sorted _ first ⟨hfirst, hsorted⟩
      rw [Nat.zero_add] at hsorted
      rw [Procedure.wp_bind]
      refine .mono (landPartitions_spec platform sorted.partitions) ?_ fun _ _ _ hfailed => hfailed.elim
      intro result _ second hlanded
      have hleft : (sorted.alone ++ result.rest).Nodup :=
        ((nodup_append.mp ((settled_left_perm hsorted hlanded).nodup_iff.mpr
          nodup_range)).2).1
      refine .mono (integrateAlone_spec jobs _ _
        ((perm_taken _ hleft).nodup_iff.mpr hleft) ?_ ?_) ?_ fun _ _ _ hfailed => hfailed.elim
      · intro index hindex
        have hmem := (perm_taken _ hleft).subset hindex
        exact mem_range.mp
          ((settled_left_perm hsorted hlanded).subset (mem_append_right _ hmem))
      · rw [setOutcomes_length, hreplicate]
      · exact fun _ _ _ h => BatchLanded.group hsorted hlanded hfirst h

end AgentBridge.Queue.Batches
