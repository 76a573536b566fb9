import AgentBridge.Queue.Scheduler

/-!
# Wake-ups of the queue scheduler

A pass that ends with capacity and queued records arms the timer, and a call of `scheduleQueue`
between passes moves it forward. What makes a record startable or frees capacity outside a pass
comes with such a call, so the timer is armed whenever there is something to start.
-/

namespace AgentBridge.Queue.Scheduler

open List Bool Nat

/-! ## The claim -/

section

variable (settings : Settings)

def ArmedBy (s : Bridge) (time : Nat) : Prop := ∃ wakeAt, s.wakeAt = some wakeAt ∧ wakeAt ≤ time

/-- A pass runs, or code that changed the queue has still to ask for one. -/
def PassPending (s : Bridge) : Prop := s.queueSchedulerRunning = true ∨ s.callers ≠ []

/-- From when on a record may start; a record that something holds has no such time. -/
def startTime (s : Bridge) (record : JobRecord) : Option Nat :=
  if settings.queueOff || s.draining || s.memoryBlocked
      || (record.mode == .write && rootBlocked settings s record) then none
  else if startable record.status then some (record.startAfter.getD 0)
  else if record.status != .blocked then none
  else if record.queueBlockedOnJobId = "" then some record.queueBlockedRetryAt
  else if (s.get record.queueBlockedOnJobId).any (fun blocker => blocker.status.active &&
      blocker.ownerGeneration == record.queueBlockedOnGeneration) then none
  else some 0

/-- Whatever may start, now or later, has a timer that is armed for that time. -/
def WakesInTime (s : Bridge) : Prop :=
  hasCapacity s = true → ∀ record ∈ s.values, ∀ time, startTime settings s record = some time →
    PassPending s ∨ ArmedBy s (max s.now time)

/-- When the timer goes off for a record after a pass at the latest: at once if another pass was
asked for meanwhile, else after a poll interval; a blocked record has its next check to wait for. -/
def wakeAfter (record : JobRecord) (endedAt : Nat) (again : Bool) : Nat :=
  if startable record.status then
    if again then endedAt else endedAt + settings.queueBlockedPollMs
  else max (endedAt + settings.queueBlockedPollMs) record.queueBlockedRetryAt

/-- At once after a call of `scheduleQueue`, else what the last pass left. -/
def wakeBy (s : Bridge) (record : JobRecord) : Nat :=
  match s.endedAt with
  | none => s.now
  | some endedAt => if s.asked then s.now else wakeAfter settings record endedAt s.rerun

def StaysAwake (s : Bridge) : Prop :=
  settings.queueOff = false → hasCapacity s = true →
    ∀ record ∈ schedulable settings s, record.status.claimable = true →
      PassPending s ∨ ArmedBy s (max s.now (wakeBy settings s record))

end

/-! ## The delay after a pass -/

variable {settings : Settings}

theorem startable_or_blocked {status : QueueStatus} (h : status.claimable = true) :
    startable status = true ∨ status = .blocked := by
  cases status <;> simp_all [QueueStatus.claimable, startable]

theorem nextQueueScheduleDelay_spec {records : List JobRecord} {record : JobRecord}
    {progressed : Bool} {now : Nat} (hrecord : record ∈ records)
    (hclaimable : record.status.claimable = true) :
    ∃ delay, nextQueueScheduleDelay settings records true progressed now = some delay ∧
      now + delay ≤ wakeAfter settings record now progressed := by
  unfold nextQueueScheduleDelay
  rw [if_neg (by simp)]
  by_cases hany : records.any (startable ·.status) = true
  · rw [if_pos hany]
    refine ⟨_, rfl, ?_⟩
    unfold wakeAfter
    cases progressed with
    | true => split_ifs <;> omega
    | false => split_ifs <;> omega
  · rw [if_neg hany]
    have hnot : startable record.status = false := by
      rw [any_eq_true] at hany
      exact eq_false_iff.mpr fun h => hany ⟨record, hrecord, h⟩
    have hblocked : record.status = .blocked := by
      cases startable_or_blocked hclaimable with
      | inl h => exact absurd h (by simp [hnot])
      | inr h => exact h
    have hmem : record.queueBlockedRetryAt - now ∈
        (records.filter (·.status == .blocked)).map fun record =>
          record.queueBlockedRetryAt - now :=
      mem_map_of_mem (mem_filter.mpr ⟨hrecord, by simp [hblocked]⟩)
    obtain ⟨least, hleast⟩ := Option.isSome_iff_exists.mp
      (isSome_min?_of_mem hmem)
    have hle : least ≤ record.queueBlockedRetryAt - now :=
      (List.min?_eq_some_iff.mp hleast).2 _ hmem
    refine ⟨max settings.queueBlockedPollMs least, ?_, ?_⟩
    · simp only [hleast, Option.map_some]
    · unfold wakeAfter
      rw [if_neg (by simp [hnot])]
      omega

theorem wakeAfter_anti (record : JobRecord) (endedAt : Nat) (again progressed : Bool) :
    wakeAfter settings record endedAt (progressed || again) ≤
      wakeAfter settings record endedAt again := by
  cases again with
  | true => rw [Bool.or_true]
  | false =>
    rw [Bool.or_false]
    unfold wakeAfter
    simp only [Bool.false_eq_true, if_false]
    split_ifs <;> omega

/-! ## The invariant -/

structure TimerFlags (s : Bridge) : Prop where
  running : s.queueSchedulerRunning = true ↔ s.phase ≠ .idle
  active : s.queueSchedulerActive = true ↔ s.phase ≠ .idle ∨ s.wakeAt.isSome = true
  passing : s.phase ≠ .idle → s.wakeAt = none

/-- Between passes the timer is armed for what is queued, unless code that changed the queue has
still to call. -/
structure TimerInvariant (settings : Settings) (s : Bridge) : Prop extends TimerFlags s where
  asked : settings.queueOff = false → s.phase = .idle → s.asked = true → ArmedBy s s.now
  rested : settings.queueOff = false → s.phase = .idle → s.asked = false → s.callers = [] →
    hasCapacity s = true → ∀ record ∈ schedulable settings s, record.status.claimable = true →
      ArmedBy s (max s.now (wakeBy settings s record))

variable {s : Bridge}

theorem TimerInvariant.staysAwake (h : TimerInvariant settings s) : StaysAwake settings s := by
  intro hon hcapacity record hrecord hclaimable
  by_cases hidle : s.phase = .idle
  · by_cases hcallers : s.callers = []
    · right
      cases hasked : s.asked with
      | true =>
        obtain ⟨wakeAt, hwake, hle⟩ := h.asked hon hidle hasked
        exact ⟨wakeAt, hwake, hle.trans (le_max_left _ _)⟩
      | false => exact h.rested hon hidle hasked hcallers hcapacity record hrecord hclaimable
    · exact .inl (.inr hcallers)
  · exact .inl (.inl (h.running.mpr hidle))

/-! ## A pass -/

/-- A pass has no timer of its own. -/
structure Passing (s : Bridge) : Prop where
  running : s.queueSchedulerRunning = true
  active : s.queueSchedulerActive = true
  wakeAt : s.wakeAt = none

theorem Passing.invariant (h : Passing s) (hphase : s.phase ≠ .idle) :
    TimerInvariant settings s where
  running := iff_of_true h.running hphase
  active := iff_of_true h.active (.inl hphase)
  passing _ := h.wakeAt
  asked _ hidle := absurd hidle hphase
  rested _ hidle := absurd hidle hphase

theorem Passing.waits (h : Passing s) {phase : Phase} (hphase : phase ≠ .idle) :
    TimerInvariant settings { s with phase := phase } :=
  Passing.invariant ⟨h.running, h.active, h.wakeAt⟩ hphase

theorem TimerInvariant.toPassing (h : TimerInvariant settings s) (hphase : s.phase ≠ .idle) :
    Passing s :=
  ⟨h.running.mpr hphase, h.active.mpr (.inl hphase), h.passing hphase⟩

theorem scheduleQueue_of_inactive (hon : settings.queueOff = false)
    (hrunning : s.queueSchedulerRunning = false) (hactive : s.queueSchedulerActive = false)
    (delay : Nat) : scheduleQueue settings s delay =
      { s with queueSchedulerActive := true, wakeAt := some (s.now + delay) } := by
  unfold scheduleQueue
  simp [hon, hrunning, hactive]

theorem endPass_invariant (h : Passing s)
    (hnone : settings.queueOff = false → hasCapacity s = true →
      ∀ record ∈ schedulable settings s, record.status.claimable = false) :
    TimerInvariant settings (endPass s) where
  running := by simp [endPass]
  active := by simp [endPass, h.wakeAt]
  passing hphase := absurd rfl hphase
  asked _ _ hasked := absurd hasked (by simp [endPass])
  rested hon _ _ _ hcapacity record hrecord hclaimable := by
    have hnot := hnone hon hcapacity record hrecord
    rw [hclaimable] at hnot
    cases hnot

/-- The end of a pass arms the timer for what it leaves queued. -/
theorem finish_invariant (h : Passing s) (progressed : Bool) :
    TimerInvariant settings (finish settings s progressed) := by
  by_cases hon : settings.queueOff = false
  swap
  · have hfinish : finish settings s progressed = endPass s := by
      unfold finish scheduleQueue
      rw [not_eq_false] at hon
      split
      · rw [if_pos hon]
      · rfl
    rw [hfinish]
    exact endPass_invariant h fun hon' => absurd hon' hon
  · unfold finish
    cases hdelay : nextQueueScheduleDelay settings (schedulable settings s) (hasCapacity s)
        (progressed || s.queueScheduleRequested) s.now with
    | none =>
      refine endPass_invariant h fun _ hcapacity record hrecord => ?_
      rw [hcapacity] at hdelay
      by_contra hclaimable
      rw [not_eq_false] at hclaimable
      obtain ⟨delay, hsome, -⟩ := nextQueueScheduleDelay_spec hrecord hclaimable
      exact absurd (hdelay.symm.trans hsome) nofun
    | some delay =>
      dsimp only
      rw [scheduleQueue_of_inactive hon rfl rfl]
      refine ⟨⟨by simp [endPass], by simp [endPass], fun hphase => absurd rfl hphase⟩,
        fun _ _ hasked => absurd hasked (by simp [endPass]), ?_⟩
      intro _ _ _ _ hcapacity record hrecord hclaimable
      have hcap : hasCapacity s = true := hcapacity
      rw [hcap] at hdelay
      obtain ⟨delay', hsome, hle⟩ := nextQueueScheduleDelay_spec hrecord hclaimable
      have hsame : delay' = delay := Option.some.inj (hsome.symm.trans hdelay)
      refine ⟨s.now + delay, rfl, le_trans ?_ (le_max_right _ _)⟩
      exact (hsame ▸ hle).trans (wakeAfter_anti record s.now _ progressed)

variable {s' : Bridge}

/-- What a pass does with records is no concern of the timer. -/
theorem Passing.of_eq (h : Passing s)
    (hrunning : s'.queueSchedulerRunning = s.queueSchedulerRunning)
    (hactive : s'.queueSchedulerActive = s.queueSchedulerActive) (hwake : s'.wakeAt = s.wakeAt) :
    Passing s' :=
  ⟨hrunning.trans h.running, hactive.trans h.active, hwake.trans h.wakeAt⟩

theorem Passing.setObject (h : Passing s) (job : Nat) (record : JobRecord) :
    Passing (s.setObject job record) :=
  h.of_eq rfl rfl rfl

theorem Passing.delete (h : Passing s) (job : Nat) : Passing (s.delete job) :=
  h.of_eq rfl rfl rfl

theorem Passing.visit (h : Passing s) (pass : Pass) (job : Nat) :
    Passing (visit settings s pass job).1 := by
  unfold Scheduler.visit visitBlocked
  dsimp only
  split_ifs <;> first | exact h | exact h.setObject _ _

theorem visitEntries_invariant (rest : List (Option Nat)) : ∀ {s : Bridge} {pass : Pass},
    Passing s → TimerInvariant settings (visitEntries settings rest s pass) := by
  induction rest with
  | nil => exact fun h => finish_invariant h _
  | cons entry rest ih =>
    intro s pass h
    cases entry with
    | none => exact ih h
    | some job =>
      unfold visitEntries
      by_cases hcapacity : pass.capacity = 0
      · rw [if_pos hcapacity]
        exact finish_invariant h _
      rw [if_neg hcapacity]
      by_cases hskip : (!(s.object job).status.claimable) = true
      · rw [if_pos hskip]
        exact ih h
      rw [if_neg hskip]
      have hvisit := @Passing.visit settings s h { pass with cursor := pass.cursor + 1 } job
      split
      · next s' await heq =>
        rw [heq] at hvisit
        exact hvisit.waits (by simp)
      · next s' heq =>
        rw [heq] at hvisit
        exact ih hvisit

theorem Passing.releasePauseWaits (pauses : Pauses) (now : Nat) (force : Bool)
    (waiting : List Nat) : ∀ {s : Bridge}, Passing s →
      Passing (releasePauseWaits settings pauses now force waiting s).1 := by
  induction waiting with
  | nil => exact fun h => h
  | cons job waiting ih =>
    intro s h
    unfold Scheduler.releasePauseWaits
    dsimp only
    split
    · exact ih h
    · exact ih (h.setObject _ _)

theorem Passing.afterUpdate (h : Passing s) (job : Nat) (persisted : Bool) (after : AfterUpdate) :
    Passing (afterUpdate settings s job persisted after).1 := by
  cases after with
  | proceed => exact h
  | blockedOn conflict => exact h.setObject _ _
  | planned held ownerGeneration =>
    unfold Scheduler.afterUpdate
    dsimp only
    split_ifs <;> first | exact h | exact h.delete _

theorem Passing.resume {pass pass' : Pass} {job : Nat} {await : Await} {answer : Answer}
    {outcome : Outcome} (h : Passing s)
    (hresume : resume settings s pass job await answer = some (s', pass', outcome)) :
    Passing s' := by
  have hcome : ∀ {s₁ : Bridge} {pass₁ : Pass} {outcome₁ : Outcome}, Passing s₁ →
      some (s₁, pass₁, outcome₁) = some (s', pass', outcome) → Passing s' := by
    intro s₁ pass₁ outcome₁ hpassing heq
    cases heq
    exact hpassing
  cases await with
  | update candidate after =>
    cases answer <;> first
      | exact hcome ((h.setObject _ _).afterUpdate _ _ _) hresume
      | exact hcome h hresume
      | exact absurd hresume nofun
  | standing =>
    cases answer with
    | probed conflict =>
      unfold Scheduler.resume at hresume
      dsimp only at hresume
      split at hresume
      · exact hcome (h.setObject _ _) hresume
      · exact hcome h hresume
    | threw => exact hcome h hresume
    | _ => exact absurd hresume nofun
  | pauses =>
    cases answer with
    | pauses read =>
      unfold Scheduler.resume at hresume
      dsimp only at hresume
      split at hresume
      · exact hcome h hresume
      · exact hcome h hresume
    | _ => exact absurd hresume nofun
  | conflict =>
    cases answer with
    | probed conflict =>
      cases conflict with
      | none => exact hcome h hresume
      | some conflict => exact hcome h hresume
    | threw => exact hcome h hresume
    | _ => exact absurd hresume nofun
  | start =>
    cases answer with
    | started ownerGeneration => exact hcome (h.setObject _ _) hresume
    | notStarted row => exact hcome (h.setObject _ _) hresume
    | threw => exact hcome h hresume
    | _ => exact absurd hresume nofun

theorem beginVisits_invariant (h : Passing s) (capacity : Nat) (snapshot : Option (Option Pauses)) :
    TimerInvariant settings (beginVisits settings s capacity snapshot) :=
  visitEntries_invariant _ h

theorem afterRefresh_invariant (h : Passing s) :
    TimerInvariant settings (afterRefresh settings s) := by
  unfold afterRefresh
  dsimp only
  split
  · exact finish_invariant h false
  · split
    · exact beginVisits_invariant h _ _
    · have hchecked : Passing { s with pauseWaitCheckedAt := s.now } := h.of_eq rfl rfl rfl
      exact hchecked.waits (by simp)

theorem answerPass_invariant (h : TimerInvariant settings s) (answer : Answer) :
    TimerInvariant settings (answerPass settings s answer) := by
  unfold answerPass
  cases hphase : s.phase with
  | idle => exact h
  | refreshing =>
    have hpassing := h.toPassing (by simp [hphase])
    cases answer with
    | limit found => exact afterRefresh_invariant (hpassing.of_eq rfl rfl rfl)
    | _ => exact h
  | releasing capacity waiting now =>
    have hpassing := h.toPassing (by simp [hphase])
    cases answer with
    | pauses read =>
      cases read with
      | none => exact beginVisits_invariant hpassing _ _
      | some pauses =>
        exact beginVisits_invariant (hpassing.releasePauseWaits _ _ _ _) _ _
    | _ => exact h
  | visiting pass job statusBefore await =>
    have hpassing := h.toPassing (by simp [hphase])
    dsimp only
    cases hresume : resume settings s pass job await answer with
    | none => exact h
    | some result =>
      obtain ⟨s', pass', outcome⟩ := result
      have hnext := hpassing.resume hresume
      cases outcome with
      | await next => exact hnext.waits (by simp)
      | proceed => exact visitEntries_invariant _ hnext
      | started => exact visitEntries_invariant _ hnext
      | threw => exact finish_invariant hnext _

/-! ## Calls of `scheduleQueue` -/

/-- Between passes a call arms the timer, or moves it forward. -/
theorem scheduleQueue_idle (h : TimerFlags s) (hon : settings.queueOff = false)
    (hidle : s.phase = .idle) (delay : Nat) :
    ∃ wakeAt, scheduleQueue settings s delay =
        { s with queueSchedulerActive := true, wakeAt := some wakeAt } ∧
      wakeAt ≤ s.now + delay ∧ ∀ time, ArmedBy s time → wakeAt ≤ time := by
  have hrunning : s.queueSchedulerRunning = false := by
    rw [eq_false_iff]
    exact fun hrun => h.running.mp hrun hidle
  unfold scheduleQueue
  rw [if_neg (by simp [hon]), if_neg (by simp [hrunning])]
  cases hwake : s.wakeAt with
  | none =>
    have hactive : s.queueSchedulerActive = false := by
      rw [eq_false_iff]
      intro hact
      cases h.active.mp hact with
      | inl hphase => exact hphase hidle
      | inr hsome => simp [hwake] at hsome
    rw [if_neg (by simp [hactive])]
    refine ⟨_, rfl, le_refl _, ?_⟩
    intro time ⟨wakeAt, hsome, _⟩
    rw [hwake] at hsome
    cases hsome
  | some wakeAt =>
    have hactive : s.queueSchedulerActive = true := h.active.mpr (.inr (by simp [hwake]))
    by_cases hsooner : wakeAt ≤ s.now + delay
    · rw [if_pos (by simp [hactive, hsooner])]
      refine ⟨wakeAt, ?_, hsooner, ?_⟩
      · rw [← hactive, ← hwake]
      · intro time ⟨armed, hsome, hle⟩
        rw [hwake] at hsome
        cases hsome
        exact hle
    · rw [if_neg (by simp [hsooner])]
      refine ⟨_, rfl, le_refl _, ?_⟩
      intro time ⟨armed, hsome, hle⟩
      rw [hwake] at hsome
      cases hsome
      omega

theorem callScheduleQueue_invariant (h : TimerFlags s) (delay : Nat)
    (hasked : settings.queueOff = false → s.phase = .idle → s.asked = true → ArmedBy s s.now)
    (hrested : delay ≠ 0 → TimerInvariant settings s) :
    TimerInvariant settings (callScheduleQueue settings s delay) := by
  unfold callScheduleQueue
  by_cases hon : settings.queueOff = false
  swap
  · have hsame : scheduleQueue settings s delay = s := by
      exact if_pos (by simpa using hon)
    rw [hsame]
    exact ⟨⟨h.running, h.active, h.passing⟩, fun hon' => absurd hon' hon,
      fun hon' => absurd hon' hon⟩
  by_cases hidle : s.phase = .idle
  swap
  · -- a pass takes note of the call and goes on
    have hrunning := h.running.mpr hidle
    have hsame : scheduleQueue settings s delay = s ∨
        scheduleQueue settings s delay = { s with queueScheduleRequested := true } := by
      unfold scheduleQueue
      rw [if_neg (by simp [hon]), if_pos hrunning]
      split
      · exact .inr rfl
      · exact .inl rfl
    cases hsame with
    | inl heq =>
      rw [heq]
      exact ⟨⟨h.running, h.active, h.passing⟩, fun _ hphase => absurd hphase hidle,
        fun _ hphase => absurd hphase hidle⟩
    | inr heq =>
      rw [heq]
      exact ⟨⟨h.running, h.active, h.passing⟩, fun _ hphase => absurd hphase hidle,
        fun _ hphase => absurd hphase hidle⟩
  obtain ⟨wakeAt, heq, hle, hsooner⟩ := scheduleQueue_idle h hon hidle delay
  have hrunning : s.queueSchedulerRunning = false := by
    rw [eq_false_iff]
    exact fun hrun => h.running.mp hrun hidle
  rw [heq, hrunning]
  refine ⟨⟨?_, by simp, fun hphase => absurd hidle hphase⟩, ?_, ?_⟩
  · simp [hidle]
  · intro _ _ hcalled
    refine ⟨wakeAt, rfl, ?_⟩
    simp only [Bool.not_false, Bool.true_and, Bool.or_eq_true, beq_iff_eq] at hcalled
    cases hcalled with
    | inl hbefore => exact hsooner _ (hasked hon hidle hbefore)
    | inr hzero => rw [hzero] at hle; exact hle
  · intro _ _ hcalled hcallers hcapacity record hrecord hclaimable
    simp only [Bool.not_false, Bool.true_and, Bool.or_eq_false_iff, beq_eq_false_iff_ne] at hcalled
    have hbefore := (hrested hcalled.2).rested hon hidle hcalled.1 hcallers hcapacity record
      hrecord hclaimable
    refine ⟨wakeAt, rfl, (hsooner _ hbefore).trans ?_⟩
    unfold wakeBy
    simp [hcalled]

/-! ## Steps that leave less to start -/

/-- No capacity was freed, and every record that is queued was queued for the same time. -/
structure NoMore (settings : Settings) (s s' : Bridge) : Prop where
  capacity : hasCapacity s' = true → hasCapacity s = true
  records : ∀ record' ∈ schedulable settings s', record'.status.claimable = true →
    ∃ record ∈ schedulable settings s, record.status = record'.status ∧
      record.queueBlockedRetryAt = record'.queueBlockedRetryAt

/-- The timer is as it was, and time may have passed. -/
structure SameTimer (s s' : Bridge) : Prop where
  now : s.now ≤ s'.now
  running : s'.queueSchedulerRunning = s.queueSchedulerRunning
  active : s'.queueSchedulerActive = s.queueSchedulerActive
  wakeAt : s'.wakeAt = s.wakeAt
  phase : s'.phase = s.phase
  endedAt : s'.endedAt = s.endedAt
  rerun : s'.rerun = s.rerun
  asked : s'.asked = s.asked

theorem SameTimer.flags (h : SameTimer s s') (hflags : TimerFlags s) : TimerFlags s' := by
  refine ⟨?_, ?_, ?_⟩
  · rw [h.running, h.phase]
    exact hflags.running
  · rw [h.active, h.phase, h.wakeAt]
    exact hflags.active
  · rw [h.phase, h.wakeAt]
    exact hflags.passing

theorem SameTimer.armedBy (h : SameTimer s s') {time time' : Nat} (harmed : ArmedBy s time)
    (hle : time ≤ time') : ArmedBy s' time' := by
  obtain ⟨wakeAt, hwake, hbefore⟩ := harmed
  exact ⟨wakeAt, h.wakeAt.trans hwake, hbefore.trans hle⟩

theorem SameTimer.asked_armed (h : SameTimer s s') (hinv : TimerInvariant settings s) :
    settings.queueOff = false → s'.phase = .idle → s'.asked = true → ArmedBy s' s'.now := by
  intro hon hidle hasked
  exact h.armedBy (hinv.asked hon (h.phase ▸ hidle) (h.asked ▸ hasked)) h.now

/-- What leaves no more to start needs no call. -/
theorem SameTimer.invariant (h : SameTimer s s') (hmore : NoMore settings s s')
    (hcallers : s'.callers = [] → s.callers = []) (hinv : TimerInvariant settings s) :
    TimerInvariant settings s' := by
  refine ⟨h.flags hinv.toTimerFlags, h.asked_armed hinv, ?_⟩
  intro hon hidle hasked hnone hcapacity record' hrecord' hclaimable
  obtain ⟨record, hrecord, hstatus, hretry⟩ := hmore.records record' hrecord' hclaimable
  refine h.armedBy (hinv.rested hon (h.phase ▸ hidle) (h.asked ▸ hasked) (hcallers hnone)
    (hmore.capacity hcapacity) record hrecord (hstatus ▸ hclaimable)) ?_
  have hwake : wakeBy settings s record ≤ max s'.now (wakeBy settings s' record') := by
    unfold wakeBy wakeAfter
    rw [h.endedAt, h.asked, h.rerun, hstatus, hretry]
    have hnow := h.now
    cases s.endedAt with
    | none => dsimp only; omega
    | some endedAt => dsimp only; split_ifs <;> omega
  have hnow := h.now
  omega

theorem SameTimer.owe (h : SameTimer s s') (hinv : TimerInvariant settings s) (caller : Nat) :
    TimerInvariant settings (s'.owe caller) := by
  have howed : (s'.owe caller).callers ≠ [] := by
    unfold Bridge.owe
    split
    · next hmem => exact fun hnil => by simp [hnil] at hmem
    · simp
  have hsame : SameTimer s (s'.owe caller) := by
    unfold Bridge.owe
    split
    · exact h
    · exact ⟨h.now, h.running, h.active, h.wakeAt, h.phase, h.endedAt, h.rerun, h.asked⟩
  exact ⟨hsame.flags hinv.toTimerFlags, hsame.asked_armed hinv,
    fun _ _ _ hnone => absurd hnone howed⟩

theorem SameTimer.call (h : SameTimer s s') (hinv : TimerInvariant settings s) :
    TimerInvariant settings (callScheduleQueue settings s' 0) :=
  callScheduleQueue_invariant (h.flags hinv.toTimerFlags) 0 (h.asked_armed hinv)
    fun hzero => absurd rfl hzero

theorem mem_values {record : JobRecord} :
    record ∈ s.values ↔ ∃ job, some job ∈ s.entries ∧ s.object job = record := by
  unfold Bridge.values
  rw [mem_filterMap]
  constructor
  · rintro ⟨entry, hentry, hmap⟩
    cases entry with
    | none => cases hmap
    | some job => exact ⟨job, hentry, Option.some.inj hmap⟩
  · rintro ⟨job, hjob, heq⟩
    exact ⟨some job, hjob, congrArg some heq⟩

theorem runningCount_eq (s : Bridge) : runningCount s =
    s.entries.countP fun entry => entry.any fun job => (s.object job).status.active := by
  unfold runningCount Bridge.values
  rw [countP_filterMap]
  refine countP_congr fun entry _ => ?_
  cases entry <;> simp

/-- A step that changes no record's status, mode, directory or next check. -/
theorem noMore_of_alike (hentries : s'.entries = s.entries)
    (hlimit : s'.queueParallelLimit = s.queueParallelLimit)
    (hroots : ∀ root, root ∈ s.blockedRoots → root ∈ s'.blockedRoots)
    (halike : ∀ job, (s'.object job).status = (s.object job).status ∧
      (s'.object job).queueBlockedRetryAt = (s.object job).queueBlockedRetryAt ∧
      (s'.object job).mode = (s.object job).mode ∧ (s'.object job).cwd = (s.object job).cwd) :
    NoMore settings s s' := by
  constructor
  · intro hcapacity
    have hcount : runningCount s' = runningCount s := by
      rw [runningCount_eq, runningCount_eq, hentries]
      simp only [(halike _).1]
    unfold hasCapacity at hcapacity ⊢
    rwa [hcount, hlimit] at hcapacity
  · intro record' hrecord' _
    obtain ⟨hmem, hfree⟩ := mem_filter.mp hrecord'
    obtain ⟨job, hjob, rfl⟩ := mem_values.mp hmem
    obtain ⟨hstatus, hretry, hmode, hcwd⟩ := halike job
    refine ⟨s.object job, mem_filter.mpr ⟨mem_values.mpr ⟨job, hentries ▸ hjob, rfl⟩, ?_⟩,
      hstatus.symm, hretry.symm⟩
    rw [hmode] at hfree
    simp only [or_eq_true, not_eq_true'] at hfree ⊢
    refine hfree.imp_right fun hnot => ?_
    unfold rootBlocked at hnot ⊢
    rw [hcwd, eq_false_iff, Ne, contains_iff_mem] at hnot
    rw [eq_false_iff, Ne, contains_iff_mem]
    exact fun hblocked => hnot (hroots _ hblocked)

theorem noMore_delete {job : Nat} (h : (s.object job).status.active = false) :
    NoMore settings s (s.delete job) := by
  constructor
  · intro hcapacity
    have hcount : runningCount (s.delete job) = runningCount s := by
      rw [runningCount_eq, runningCount_eq]
      unfold Bridge.delete
      rw [countP_map]
      refine countP_congr fun entry _ => ?_
      by_cases heq : entry = some job
      · simp [heq, h]
      · simp [heq]
    unfold hasCapacity at hcapacity ⊢
    rwa [hcount] at hcapacity
  · intro record hrecord _
    obtain ⟨hmem, hfree⟩ := mem_filter.mp hrecord
    obtain ⟨other, hother, rfl⟩ := mem_values.mp hmem
    refine ⟨_, mem_filter.mpr ⟨mem_values.mpr ⟨other, ?_, rfl⟩, hfree⟩, rfl, rfl⟩
    obtain ⟨entry, hentry, heq⟩ := mem_map.mp hother
    split at heq
    · cases heq
    · rwa [heq] at hentry

/-! ## Runs -/

theorem SameTimer.refl (s : Bridge) : SameTimer s s :=
  ⟨le_refl _, rfl, rfl, rfl, rfl, rfl, rfl, rfl⟩

theorem sameTimer_releasePauseWaits (pauses : Pauses) (now : Nat) (force : Bool)
    (waiting : List Nat) : ∀ s : Bridge,
      SameTimer s (releasePauseWaits settings pauses now force waiting s).1 := by
  induction waiting with
  | nil => exact fun s => .refl s
  | cons job waiting ih =>
    intro s
    unfold releasePauseWaits
    split
    · exact ih s
    · have hrest := ih (s.setObject job
        { s.object job with startAfter := none, startAfterReason := "" })
      exact ⟨hrest.now, hrest.running, hrest.active, hrest.wakeAt, hrest.phase, hrest.endedAt,
        hrest.rerun, hrest.asked⟩

theorem releasePauseWaits_none {pauses : Pauses} {now : Nat} {force : Bool} {waiting : List Nat} :
    ∀ {s : Bridge}, (releasePauseWaits settings pauses now force waiting s).2 = 0 →
      (releasePauseWaits settings pauses now force waiting s).1 = s := by
  induction waiting with
  | nil => exact fun _ => rfl
  | cons job waiting ih =>
    intro s hnone
    unfold releasePauseWaits at hnone ⊢
    split at hnone
    · next hpaused =>
      rw [if_pos hpaused]
      exact ih hnone
    · exact absurd hnone (succ_ne_zero _)

theorem step_invariant (s : Bridge) (event : Event) (h : TimerInvariant settings s) :
    TimerInvariant settings (step settings s event) := by
  have halike : ∀ job, (s.object job).status = (s.object job).status ∧
      (s.object job).queueBlockedRetryAt = (s.object job).queueBlockedRetryAt ∧
      (s.object job).mode = (s.object job).mode ∧ (s.object job).cwd = (s.object job).cwd :=
    fun _ => ⟨rfl, rfl, rfl, rfl⟩
  cases event with
  | tick ms =>
    refine @SameTimer.invariant settings s _ ?_ ?_ (fun hnone => hnone) h
    · exact ⟨le_add_right _ _, rfl, rfl, rfl, rfl, rfl, rfl, rfl⟩
    · exact noMore_of_alike rfl rfl (fun _ hroot => hroot) halike
  | timer =>
    simp only [step]
    split
    · next hdue =>
      have hactive : s.queueSchedulerActive = true := by
        refine h.active.mpr (.inr ?_)
        cases hwake : s.wakeAt with
        | none => simp [hwake] at hdue
        | some wakeAt => rfl
      exact Passing.invariant ⟨rfl, hactive, rfl⟩ (by simp)
    · exact h
  | answer answer => exact answerPass_invariant h answer
  | scheduleQueue delay =>
    exact callScheduleQueue_invariant h.toTimerFlags delay h.asked fun _ => h
  | enqueue record caller =>
    have hsame : SameTimer s (s.put record) :=
      ⟨le_refl _, rfl, rfl, rfl, rfl, rfl, rfl, rfl⟩
    cases caller with
    | none => exact hsame.call h
    | some caller => exact hsame.owe h caller
  | change caller job record =>
    refine SameTimer.owe ?_ h caller
    exact ⟨le_refl _, rfl, rfl, rfl, rfl, rfl, rfl, rfl⟩
  | abandon caller job =>
    refine SameTimer.owe ?_ h caller
    exact ⟨le_refl _, rfl, rfl, rfl, rfl, rfl, rfl, rfl⟩
  | recoverRoot caller root =>
    refine SameTimer.owe ?_ h caller
    exact ⟨le_refl _, rfl, rfl, rfl, rfl, rfl, rfl, rfl⟩
  | called caller =>
    refine SameTimer.call ?_ h
    exact ⟨le_refl _, rfl, rfl, rfl, rfl, rfl, rfl, rfl⟩
  | resumeProvider waiting pauses now =>
    simp only [step]
    split
    · next hnone =>
      rw [releasePauseWaits_none hnone]
      exact h
    · exact (sameTimer_releasePauseWaits _ _ _ _ s).call h
  | setRuntimeConcurrency limit =>
    refine SameTimer.call ?_ h
    exact ⟨le_refl _, rfl, rfl, rfl, rfl, rfl, rfl, rfl⟩
  | releaseQueueStarts =>
    refine SameTimer.call ?_ h
    exact ⟨le_refl _, rfl, rfl, rfl, rfl, rfl, rfl, rfl⟩
  | blockRoot root =>
    refine @SameTimer.invariant settings s _ ?_ ?_ (fun hnone => hnone) h
    · exact ⟨le_refl _, rfl, rfl, rfl, rfl, rfl, rfl, rfl⟩
    · exact noMore_of_alike rfl rfl (fun _ hroot => mem_append_left _ hroot) halike
  | memory blocked =>
    refine @SameTimer.invariant settings s _ ?_ ?_ (fun hnone => hnone) h
    · exact ⟨le_refl _, rfl, rfl, rfl, rfl, rfl, rfl, rfl⟩
    · exact noMore_of_alike rfl rfl (fun _ hroot => hroot) halike
  | drain =>
    refine @SameTimer.invariant settings s _ ?_ ?_ (fun hnone => hnone) h
    · exact ⟨le_refl _, rfl, rfl, rfl, rfl, rfl, rfl, rfl⟩
    · exact noMore_of_alike rfl rfl (fun _ hroot => hroot) halike
  | requestCancellation job =>
    refine @SameTimer.invariant settings s _ ?_ ?_ (fun hnone => hnone) h
    · exact ⟨le_refl _, rfl, rfl, rfl, rfl, rfl, rfl, rfl⟩
    · refine noMore_of_alike rfl rfl (fun _ hroot => hroot) fun other => ?_
      simp only [step, Bridge.setObject]
      by_cases hsame : other = job
      · rw [hsame, Function.update_self]
        exact ⟨rfl, rfl, rfl, rfl⟩
      · rw [Function.update_of_ne hsame]
        exact ⟨rfl, rfl, rfl, rfl⟩
  | forget job =>
    simp only [step]
    split
    · exact h
    · next hactive =>
      refine @SameTimer.invariant settings s _ ?_ ?_ (fun hnone => hnone) h
      · exact ⟨le_refl _, rfl, rfl, rfl, rfl, rfl, rfl, rfl⟩
      · exact noMore_delete (by simpa using hactive)

theorem start_invariant (object : Nat → JobRecord) (limit now : Nat) :
    TimerInvariant settings (start object limit now) where
  running := by simp [start]
  active := by simp [start]
  passing hphase := absurd rfl hphase
  asked _ _ hasked := absurd hasked (by simp [start])
  rested _ _ _ _ _ record hrecord := by
    cases (mem_filter.mp hrecord).1

/-- In every state of every run: with the queue on, capacity and a queued record, a pass runs, or
code that changed the queue has still to ask for one, or the timer is armed. It goes off at once
after a call of `scheduleQueue`, and no later than a poll interval after the last pass, or at the
next check of a blocked record if that is later. -/
theorem queue_stays_awake (settings : Settings) (object : Nat → JobRecord) (limit now : Nat)
    (events : List Event) :
    StaysAwake settings (Systems.run (step settings) (start object limit now) events) :=
  (Systems.run_preserves step_invariant (start_invariant object limit now) events).staysAwake

/-! ## A start time before the next poll -/

section

def pollSettings : Settings where
  queueOff := false
  rejectConflicts := false
  instanceId := "bridge"
  processCwd := "/repo"
  queueBlockedPollMs := 2000
  keys := ⟨"opencode", false, []⟩
  allowlist := []

/-- A retry that waits for half a second. -/
def retryRecord : JobRecord where
  jobId := "retry"
  status := .pending
  mode := .read
  cwd := "/repo"
  agent := "reader"
  request := ⟨[], none, false, false, "reader"⟩
  modelRequirement := none
  cancellationRequested := false
  errorType := ""
  errorReason := ""
  startAfter := some 500
  startAfterReason := ""
  queueBlockedCount := 0
  queueBlockedRetryAt := 0
  queueBlockedOnJobId := ""
  queueBlockedOnGeneration := ""
  ownerInstanceId := "bridge"
  ownerGeneration := "generation"

/-- The record is enqueued and the pass for it finds that it has to wait. -/
def pollRun : Bridge :=
  Systems.run (step pollSettings) (start (fun _ => retryRecord) 1 0)
    [.enqueue retryRecord none, .timer, .answer (.limit none)]

/-- The timer is armed for the next poll, a second and a half after the record may start. -/
theorem start_time_before_poll :
    pollRun.wakeAt = some 2000 ∧ startTime pollSettings pollRun retryRecord = some 500 ∧
      ¬WakesInTime pollSettings pollRun := by
  refine ⟨rfl, rfl, fun hwakes => ?_⟩
  have hrecord : retryRecord ∈ pollRun.values := mem_cons_self
  cases hwakes rfl retryRecord hrecord 500 rfl with
  | inl hpending =>
    cases hpending with
    | inl hrunning => cases hrunning
    | inr hcallers => exact hcallers rfl
  | inr harmed =>
    obtain ⟨wakeAt, hwake, hle⟩ := harmed
    cases hwake
    exact absurd hle (by decide)

end

end AgentBridge.Queue.Scheduler
