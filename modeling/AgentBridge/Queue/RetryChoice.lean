import AgentBridge.Queue.Retry

/-!
# The model of the next attempt

The loop of `chooseRetryModel` stops at the first entry whose pause is over and falls
back to the entry whose pause ends first. `RunsNext` says the same of the list of
entries, the pauses and the clock alone. Entries with different texts make different
requests, whatever else the requests carry.
-/

namespace AgentBridge.Queue

open Providers List

/-- When the pauses over a candidate end. -/
def pauseEnd (keys : KeyConfig) (pauses : List (String × Nat)) (candidate : RetryCandidate) :
    Nat :=
  if candidate.provider = "" then 0 else pausedUntil keys pauses candidate.provider candidate.model

/-- The entry that an attempt runs on: the first one that is not paused, or, while every
one is paused, the one whose pause ends first; the first entry when the pauses cannot
be read. -/
inductive RunsNext (keys : KeyConfig) (world : RetryWorld) : List RetryCandidate → String → Prop
  | unread {candidate rest} (unread : world.pauses = none) :
      RunsNext keys world (candidate :: rest) candidate.spec
  | free {pauses before candidate after} (read : world.pauses = some pauses)
      (free : pauseEnd keys pauses candidate ≤ world.now)
      (paused : ∀ other ∈ before, world.now < pauseEnd keys pauses other) :
      RunsNext keys world (before ++ candidate :: after) candidate.spec
  | paused {pauses before candidate after} (read : world.pauses = some pauses)
      (paused : ∀ other ∈ before ++ candidate :: after, world.now < pauseEnd keys pauses other)
      (sooner : ∀ other ∈ before, pauseEnd keys pauses candidate < pauseEnd keys pauses other)
      (first : ∀ other ∈ after, pauseEnd keys pauses candidate ≤ pauseEnd keys pauses other) :
      RunsNext keys world (before ++ candidate :: after) candidate.spec

section

variable {keys : KeyConfig} {pauses : List (String × Nat)} {now : Nat}

variable {candidate : RetryCandidate} {rest : List RetryCandidate}

variable (best : Option (String × Nat))

theorem chooseCandidate_free (free : pauseEnd keys pauses candidate ≤ now) :
    chooseCandidate keys pauses now (candidate :: rest) best = ⟨candidate.spec, none⟩ := by
  have hstop : pauseEnd keys pauses candidate = 0 ∨ pauseEnd keys pauses candidate ≤ now :=
    .inr free
  exact if_pos hstop

theorem chooseCandidate_paused (paused : now < pauseEnd keys pauses candidate) :
    chooseCandidate keys pauses now (candidate :: rest) best
      = chooseCandidate keys pauses now rest
          (if best.all fun earlier => decide (pauseEnd keys pauses candidate < earlier.2) then
            some (candidate.spec, pauseEnd keys pauses candidate)
          else best) := by
  have hgo : ¬ (pauseEnd keys pauses candidate = 0 ∨ pauseEnd keys pauses candidate ≤ now) := by
    omega
  refine (if_neg hgo).trans ?_
  by_cases hbest :
      best.all (fun earlier => decide (pauseEnd keys pauses candidate < earlier.2)) = true
  · rw [if_pos hbest]
    exact if_pos hbest
  · rw [if_neg hbest]
    exact if_neg hbest

/-- An entry that is not paused is chosen after paused ones. -/
theorem chooseCandidate_of_free {before after : List RetryCandidate}
    (free : pauseEnd keys pauses candidate ≤ now)
    (paused : ∀ other ∈ before, now < pauseEnd keys pauses other) :
    chooseCandidate keys pauses now (before ++ candidate :: after) best
      = ⟨candidate.spec, none⟩ := by
  induction before generalizing best with
  | nil => exact chooseCandidate_free best free
  | cons head tail ih =>
    rw [cons_append, chooseCandidate_paused best (paused head (by simp))]
    exact ih _ fun other hother => paused other (by simp [hother])

/-- The best entry so far stays when no later pause ends before its own. -/
theorem chooseCandidate_of_best {spec : String} {ends : Nat}
    (paused : ∀ other ∈ rest, now < pauseEnd keys pauses other)
    (first : ∀ other ∈ rest, ends ≤ pauseEnd keys pauses other) :
    chooseCandidate keys pauses now rest (some (spec, ends)) = ⟨spec, some ends⟩ := by
  induction rest with
  | nil => rfl
  | cons head tail ih =>
    have hlater : ¬ pauseEnd keys pauses head < ends := by
      have := first head (by simp)
      omega
    rw [chooseCandidate_paused _ (paused head (by simp))]
    simp only [Option.all_some, hlater, decide_false]
    exact ih (fun other hother => paused other (by simp [hother]))
      fun other hother => first other (by simp [hother])

/-- While all are paused, the entry whose pause ends first is chosen. -/
theorem chooseCandidate_of_paused {before after : List RetryCandidate}
    (paused : ∀ other ∈ before ++ candidate :: after, now < pauseEnd keys pauses other)
    (sooner : ∀ other ∈ before, pauseEnd keys pauses candidate < pauseEnd keys pauses other)
    (first : ∀ other ∈ after, pauseEnd keys pauses candidate ≤ pauseEnd keys pauses other)
    (beats : ∀ earlier, best = some earlier → pauseEnd keys pauses candidate < earlier.2) :
    (chooseCandidate keys pauses now (before ++ candidate :: after) best).spec
      = candidate.spec := by
  induction before generalizing best with
  | nil =>
    have hbest : best.all (fun earlier => decide (pauseEnd keys pauses candidate < earlier.2))
        = true := by
      cases best with
      | none => rfl
      | some earlier => simpa using beats earlier rfl
    rw [nil_append, chooseCandidate_paused best (paused candidate (by simp)), if_pos hbest,
      chooseCandidate_of_best (fun other hother => paused other (by simp [hother])) first]
  | cons head tail ih =>
    rw [cons_append, chooseCandidate_paused best (paused head (by simp))]
    apply ih
    · intro other hother
      exact paused other (by simpa using .inr (by simpa using hother))
    · intro other hother
      exact sooner other (by simp [hother])
    · intro earlier hearlier
      split_ifs at hearlier
      · cases hearlier
        exact sooner head (by simp)
      · exact beats earlier hearlier

theorem first_free_or_first_pause (keys : KeyConfig) (pauses : List (String × Nat)) (now : Nat)
    {candidates : List RetryCandidate} (nonempty : candidates ≠ []) :
    ∃ before candidate after, candidates = before ++ candidate :: after ∧
      ((pauseEnd keys pauses candidate ≤ now ∧
          ∀ other ∈ before, now < pauseEnd keys pauses other) ∨
        ((∀ other ∈ candidates, now < pauseEnd keys pauses other) ∧
          (∀ other ∈ before, pauseEnd keys pauses candidate < pauseEnd keys pauses other) ∧
          ∀ other ∈ after, pauseEnd keys pauses candidate ≤ pauseEnd keys pauses other)) := by
  induction candidates with
  | nil => exact absurd rfl nonempty
  | cons head tail ih =>
    by_cases hfree : pauseEnd keys pauses head ≤ now
    · exact ⟨[], head, tail, rfl, .inl ⟨hfree, by simp⟩⟩
    · by_cases htail : tail = []
      · subst htail
        exact ⟨[], head, [], rfl, .inr ⟨by simpa using hfree, by simp, by simp⟩⟩
      · obtain ⟨before, candidate, after, rfl, hfound⟩ := ih htail
        rcases hfound with ⟨hcandidate, hpaused⟩ | ⟨hpaused, hsooner, hfirst⟩
        · refine ⟨head :: before, candidate, after, rfl, .inl ⟨hcandidate, ?_⟩⟩
          intro other hother
          rcases mem_cons.mp hother with rfl | hother
          · omega
          · exact hpaused other hother
        · have hall : ∀ other ∈ head :: (before ++ candidate :: after),
              now < pauseEnd keys pauses other := by
            intro other hother
            rcases mem_cons.mp hother with rfl | hother
            · omega
            · exact hpaused other hother
          by_cases hhead : pauseEnd keys pauses candidate < pauseEnd keys pauses head
          · refine ⟨head :: before, candidate, after, rfl, .inr ⟨hall, ?_, hfirst⟩⟩
            intro other hother
            rcases mem_cons.mp hother with rfl | hother
            · exact hhead
            · exact hsooner other hother
          · refine ⟨[], head, before ++ candidate :: after, rfl, .inr ⟨hall, by simp, ?_⟩⟩
            intro other hother
            have hle : pauseEnd keys pauses candidate ≤ pauseEnd keys pauses other := by
              rcases mem_append.mp hother with hother | hother
              · exact Nat.le_of_lt (hsooner other hother)
              · rcases mem_cons.mp hother with rfl | hother
                · exact Nat.le_refl _
                · exact hfirst other hother
            omega

end

theorem chooseRetryModel_spec (host : RetryHost) (policy : RetryPolicy) (chooseFrom : Nat)
    (failed : RetrySummary) (world : RetryWorld) (spec : String)
    (nonempty : retryCandidates policy chooseFrom failed ≠ []) :
    (chooseRetryModel host policy chooseFrom failed world).spec = spec ↔
      RunsNext host.keys world (retryCandidates policy chooseFrom failed) spec := by
  have hchosen : ∀ spec, RunsNext host.keys world (retryCandidates policy chooseFrom failed) spec →
      (chooseRetryModel host policy chooseFrom failed world).spec = spec := by
    intro spec hruns
    unfold chooseRetryModel
    generalize retryCandidates policy chooseFrom failed = candidates at hruns
    cases hruns with
    | unread hunread => rw [hunread]; rfl
    | free hread hfree hpaused =>
      rw [hread]
      simp only
      rw [chooseCandidate_of_free _ hfree hpaused]
    | paused hread hpaused hsooner hfirst =>
      rw [hread]
      exact chooseCandidate_of_paused _ hpaused hsooner hfirst (by simp)
  constructor
  · rintro rfl
    have hexists :
        ∃ spec, RunsNext host.keys world (retryCandidates policy chooseFrom failed) spec := by
      cases hread : world.pauses with
      | none =>
        obtain ⟨candidate, rest, hcandidates⟩ := exists_cons_of_ne_nil nonempty
        exact ⟨candidate.spec, hcandidates ▸ .unread hread⟩
      | some pauses =>
        obtain ⟨before, candidate, after, hcandidates, hfree | hpaused⟩ :=
          first_free_or_first_pause host.keys pauses world.now nonempty
        · exact ⟨candidate.spec, hcandidates ▸ .free hread hfree.1 hfree.2⟩
        · rw [hcandidates] at hpaused ⊢
          exact ⟨candidate.spec, .paused hread hpaused.1 hpaused.2.1 hpaused.2.2⟩
    obtain ⟨spec, hruns⟩ := hexists
    rw [hchosen spec hruns]
    exact hruns
  · exact hchosen spec

/-! ### The entries of a policy -/

variable {host : RetryHost}

/-- What a run that retries has found on the row. -/
theorem retryVerdict_retry {row : QueueRow} {plan : RetryPlan}
    (h : retryVerdict host row = .retry plan) :
    retryableStatus row.status = true ∧ retryUndecided row.recordJson = true ∧
      ∃ request, jobRetryPolicy host request = .ok (some plan.policy) := by
  unfold retryVerdict at h
  extract_lets summary retry at h
  split at h
  next => cases h
  next hstatus =>
    split at h
    next => cases h
    next hundecided =>
      split at h
      next => cases h
      next =>
        split at h
        next => cases h
        next request hrequest =>
          split at h
          next => cases h
          next => cases h
          next policy hpolicy =>
            iterate 3
              split at h
              next => cases h
            cases h
            refine ⟨by simpa using hstatus, ?_, request, hpolicy⟩
            simp only [Bool.or_eq_true, Bool.not_eq_true', not_or, Bool.not_eq_false]
              at hundecided
            exact hundecided.1

variable {entry : ModelEntry}

theorem policyModel_wellFormed {agent text : String} (h : policyModel host agent text = .ok entry) :
    entry.WellFormed := by
  unfold policyModel at h
  split at h
  next => cases h
  next parsed hparsed =>
    split_ifs at h
    cases h
    exact wellFormed_of_parsed hparsed

theorem policyModels_wellFormed {agent : String} {texts : List String} {models : List ModelEntry}
    (h : texts.mapM (policyModel host agent) = .ok models) :
    ∀ entry ∈ models, entry.WellFormed := by
  induction texts generalizing models with
  | nil =>
    cases h
    simp
  | cons text texts ih =>
    rw [mapM_cons] at h
    cases hfirst : policyModel host agent text with
    | error refusal => rw [hfirst] at h; cases h
    | ok entry =>
      cases hrest : texts.mapM (policyModel host agent) with
      | error refusal => rw [hfirst, hrest] at h; cases h
      | ok rest =>
        rw [hfirst, hrest] at h
        cases h
        intro other hother
        rcases mem_cons.mp hother with rfl | hother
        · exact policyModel_wellFormed hfirst
        · exact ih hrest other hother

theorem jobRetryPolicy_wellFormed {request : QueueRequest} {policy : RetryPolicy}
    (h : jobRetryPolicy host request = .ok (some policy)) :
    ∀ entry ∈ policy.models, entry.WellFormed := by
  unfold jobRetryPolicy at h
  split_ifs at h
  · cases h
  · split at h
    next => cases h
    next models hmodels =>
      cases h
      exact policyModels_wellFormed hmodels

/-- The text of an entry pins the entry. -/
theorem pinnedModel_spec (h : entry.WellFormed) :
    pinnedModel entry.spec = some entry.requirement := by
  have hne : entry.spec ≠ "" := by
    intro hempty
    have hlist := congrArg String.toList hempty
    simp [ModelEntry.spec] at hlist
  rw [pinnedModel, if_neg hne, parseModelAllowlistEntry_spec h, Option.map_some]

theorem requirement_injective {other : ModelEntry} (h : entry.requirement = other.requirement) :
    entry = other := by
  obtain ⟨provider, model, variant⟩ := entry
  obtain ⟨provider', model', variant'⟩ := other
  simp only [ModelEntry.requirement, ModelRequirement.mk.injEq] at h
  obtain ⟨rfl, rfl, hvariant, -⟩ := h
  split_ifs at hvariant with hempty hempty' hempty'
  · rw [hempty, hempty']
  · rw [Option.some.inj hvariant]

end AgentBridge.Queue
