import AgentBridge.Queue.WakeUps

/-!
# How far a pass gets

A pass goes through the entries of `QUEUE_JOBS` in their order. The calls it waits for have one
handler around the whole loop: where one of them throws, the pass is over. `Exhausted` says of the
variables of the loop, when it ended, that the pass was through.
-/

namespace AgentBridge.Queue.Scheduler

variable (settings : Settings)

/-! ## The end of the loop -/

/-- Where the loop over what is left of the entries ends, unless it has to wait first. -/
def loopEnd : List (Option Nat) → Bridge → Pass → Option (Bridge × Pass)
  | [], s, pass => some (s, pass)
  | none :: rest, s, pass => loopEnd rest s { pass with cursor := pass.cursor + 1 }
  | some job :: rest, s, pass =>
    if pass.capacity = 0 then some (s, pass)
    else
      let next := { pass with cursor := pass.cursor + 1 }
      if !(s.object job).status.claimable then loopEnd rest s next
      else
        match visit settings s next job with
        | (_, some _) => none
        | (s', none) => loopEnd rest s' (next.note s' job (s.object job).status)

/-- `beginVisits`: the loop from its start. -/
def beginEnd (s : Bridge) (capacity : Nat) (snapshot : Option (Option Pauses)) :
    Option (Bridge × Pass) :=
  loopEnd settings s.entries s
    { capacity := capacity
      holdStarts := s.memoryBlocked && s.values.any (·.status.claimable)
      progressed := false
      pauseSnapshot := snapshot
      cursor := 0 }

/-- `afterRefresh`, without the pass that has no free capacity -/
def refreshEnd (s : Bridge) : Option (Bridge × Pass) :=
  let capacity := s.queueParallelLimit - runningCount s
  if capacity = 0 then none
  else if pauseWaiting s = [] ∨
      s.now - s.pauseWaitCheckedAt < max 250 settings.queueBlockedPollMs then
    beginEnd settings s capacity none
  else none

/-- The loop that goes on after this answer, if it ends with it. -/
def passEnd (s : Bridge) (answer : Answer) : Option (Bridge × Pass) :=
  match s.phase, answer with
  | .refreshing, .limit found =>
    refreshEnd settings { s with queueParallelLimit := found.getD s.queueParallelLimit }
  | .releasing capacity waiting now, .pauses read =>
    let released := match read with
      | some pauses => (releasePauseWaits settings pauses now false waiting s).1
      | none => s
    beginEnd settings released capacity (some read)
  | .visiting pass job statusBefore await, answer =>
    match resume settings s pass job await answer with
    | some (s', pass', .proceed) =>
      let noted := pass'.note s' job statusBefore
      loopEnd settings (s'.entries.drop noted.cursor) s' noted
    | some (s', pass', .started) =>
      let noted := { pass'.note s' job statusBefore with capacity := pass'.capacity - 1 }
      loopEnd settings (s'.entries.drop noted.cursor) s' noted
    | some (s', pass', .threw) => some (s', pass'.note s' job statusBefore)
    | _ => none
  | _, _ => none

/-- Every entry that the loop did not come to is empty or of a job that is not queued, or the
capacity is used up. The loop has examined the entries before its cursor. -/
def Exhausted (s : Bridge) (pass : Pass) : Prop :=
  pass.capacity = 0 ∨ ∀ job, some job ∈ s.entries.drop pass.cursor →
    (s.object job).status.claimable = false

/-- The pass that ends with this event has examined every queued record. -/
def ExaminesAll (s : Bridge) (event : Event) : Prop :=
  ∀ answer, event = .answer answer → ∀ s' pass, passEnd settings s answer = some (s', pass) →
    Exhausted s' pass

/-- A call that throws belongs to a record with no queued record after it. -/
def ThrowsLast (s : Bridge) (event : Event) : Prop :=
  event = .answer .threw → ∀ pass job statusBefore await,
    s.phase = .visiting pass job statusBefore await → await ≠ .pauses →
    ∀ later, some later ∈ s.entries.drop pass.cursor → (s.object later).status.claimable = false

variable {settings}

variable {pass pass' : Pass} {s s' : Bridge}

theorem visitEntries_of_loopEnd {rest : List (Option Nat)}
    (h : loopEnd settings rest s pass = some (s', pass')) :
    visitEntries settings rest s pass = finish settings s' pass'.progressed := by
  induction rest generalizing s pass with
  | nil =>
    cases h
    rfl
  | cons entry rest ih =>
    cases entry with
    | none => exact ih h
    | some job =>
      rw [loopEnd] at h
      rw [visitEntries]
      by_cases hcapacity : pass.capacity = 0
      · rw [if_pos hcapacity] at h ⊢
        cases h
        rfl
      rw [if_neg hcapacity] at h ⊢
      by_cases hskip : (!(s.object job).status.claimable) = true
      · rw [if_pos hskip] at h ⊢
        exact ih h
      rw [if_neg hskip] at h ⊢
      split at h
      · cases h
      · next s₁ heq =>
        have hrest := ih h
        simpa only [heq] using hrest

theorem answerPass_of_passEnd {answer : Answer} (h : passEnd settings s answer = some (s', pass)) :
    answerPass settings s answer = finish settings s' pass.progressed := by
  unfold passEnd at h
  split at h
  · next found hphase =>
    simp only [answerPass, hphase] at h ⊢
    unfold refreshEnd at h
    unfold afterRefresh
    dsimp only at h ⊢
    split at h
    · cases h
    · next hcapacity =>
      rw [if_neg hcapacity]
      split at h
      · next hbegin =>
        rw [if_pos hbegin]
        exact visitEntries_of_loopEnd h
      · cases h
  · next capacity waiting now read hphase =>
    simp only [answerPass, hphase]
    exact visitEntries_of_loopEnd h
  · next pass₀ job statusBefore await hphase =>
    simp only [answerPass, hphase]
    split at h
    · next heq =>
      simp only [heq]
      exact visitEntries_of_loopEnd h
    · next heq =>
      simp only [heq]
      exact visitEntries_of_loopEnd h
    · next heq =>
      cases h
      simp only [heq]
    · cases h
  · cases h

theorem visit_entries (s : Bridge) (pass : Pass) (job : Nat) :
    (visit settings s pass job).1.entries = s.entries := by
  unfold Scheduler.visit visitBlocked
  dsimp only
  split_ifs <;> rfl

theorem exhausted_of_loopEnd {rest : List (Option Nat)} (hrest : rest = s.entries.drop pass.cursor)
    (h : loopEnd settings rest s pass = some (s', pass')) : Exhausted s' pass' := by
  induction rest generalizing s pass with
  | nil =>
    cases h
    rw [Exhausted, ← hrest]
    exact .inr fun job hjob => absurd hjob List.not_mem_nil
  | cons entry rest ih =>
    have hnext : rest = s.entries.drop (pass.cursor + 1) := by
      rw [← List.tail_drop, ← hrest, List.tail_cons]
    cases entry with
    | none => exact ih hnext h
    | some job =>
      rw [loopEnd] at h
      by_cases hcapacity : pass.capacity = 0
      · rw [if_pos hcapacity] at h
        cases h
        exact .inl hcapacity
      rw [if_neg hcapacity] at h
      by_cases hskip : (!(s.object job).status.claimable) = true
      · rw [if_pos hskip] at h
        exact ih hnext h
      rw [if_neg hskip] at h
      split at h
      · cases h
      · next s₁ heq =>
        have hentries := @visit_entries settings s
          { pass with cursor := pass.cursor + 1 } job
        rw [heq] at hentries
        exact ih (hnext.trans (congrArg (List.drop _) hentries.symm)) h

theorem exhausted_of_beginEnd {capacity : Nat} {snapshot : Option (Option Pauses)}
    (h : beginEnd settings s capacity snapshot = some (s', pass)) : Exhausted s' pass := by
  refine exhausted_of_loopEnd ?_ h
  exact List.drop_zero.symm

/-! ## Runs -/

/-- A pass visits records only while it has capacity. -/
def HasCapacity (s : Bridge) : Prop :=
  ∀ pass job statusBefore await, s.phase = .visiting pass job statusBefore await →
    pass.capacity ≠ 0

theorem finish_phase (s : Bridge) (progressed : Bool) :
    (finish settings s progressed).phase = .idle := by
  unfold finish scheduleQueue
  split
  · split_ifs <;> rfl
  · rfl

theorem HasCapacity.of_idle (h : s.phase = .idle) : HasCapacity s := by
  intro pass job statusBefore await hphase
  rw [h] at hphase
  cases hphase

theorem afterUpdate_ne_threw (s : Bridge) (job : Nat) (persisted : Bool) (after : AfterUpdate) :
    (afterUpdate settings s job persisted after).2 ≠ .threw := by
  cases after with
  | proceed | blockedOn => nofun
  | planned held ownerGeneration =>
    unfold afterUpdate
    dsimp only
    split_ifs <;> nofun

/-- What an answer leaves of the variables of the loop, and what it is if the call threw. -/
theorem resume_spec {job : Nat} {await : Await} {answer : Answer} {outcome : Outcome}
    (h : resume settings s pass job await answer = some (s', pass', outcome)) :
    pass'.capacity = pass.capacity ∧ (outcome = .threw →
      answer = .threw ∧ await ≠ .pauses ∧ s' = s ∧ pass' = pass) := by
  have hgoes : ∀ {s₁ : Bridge} {pass₁ : Pass} {outcome₁ : Outcome},
      some (s₁, pass₁, outcome₁) = some (s', pass', outcome) → outcome₁ ≠ .threw →
      pass₁.capacity = pass.capacity → pass'.capacity = pass.capacity ∧ (outcome = .threw →
        answer = .threw ∧ await ≠ .pauses ∧ s' = s ∧ pass' = pass) := by
    intro s₁ pass₁ outcome₁ heq hne hsame
    cases heq
    exact ⟨hsame, fun hthrew => absurd hthrew hne⟩
  cases await with
  | update candidate after =>
    cases answer with
    | persisted | refused => exact hgoes h (afterUpdate_ne_threw _ _ _ _) rfl
    | threw =>
      cases h
      exact ⟨rfl, fun _ => ⟨rfl, nofun, rfl, rfl⟩⟩
    | _ => exact absurd h nofun
  | standing =>
    cases answer with
    | probed conflict =>
      unfold resume at h
      dsimp only at h
      split at h
      · exact hgoes h nofun rfl
      · exact hgoes h nofun rfl
    | threw =>
      cases h
      exact ⟨rfl, fun _ => ⟨rfl, nofun, rfl, rfl⟩⟩
    | _ => exact absurd h nofun
  | pauses =>
    cases answer with
    | pauses read =>
      unfold resume at h
      dsimp only at h
      split at h
      · exact hgoes h nofun rfl
      · exact hgoes h nofun rfl
    | _ => exact absurd h nofun
  | conflict =>
    cases answer with
    | probed conflict =>
      cases conflict with
      | none => exact hgoes h (by split <;> nofun) rfl
      | some conflict => exact hgoes h nofun rfl
    | threw =>
      cases h
      exact ⟨rfl, fun _ => ⟨rfl, nofun, rfl, rfl⟩⟩
    | _ => exact absurd h nofun
  | start =>
    cases answer with
    | started | notStarted => exact hgoes h nofun rfl
    | threw =>
      cases h
      exact ⟨rfl, fun _ => ⟨rfl, nofun, rfl, rfl⟩⟩
    | _ => exact absurd h nofun

theorem hasCapacity_visitEntries (rest : List (Option Nat)) (s : Bridge) (pass : Pass) :
    HasCapacity (visitEntries settings rest s pass) := by
  induction rest generalizing s pass with
  | nil => exact .of_idle (finish_phase _ _)
  | cons entry rest ih =>
    cases entry with
    | none => exact ih _ _
    | some job =>
      rw [visitEntries]
      split
      · exact .of_idle (finish_phase _ _)
      · next hcapacity =>
        dsimp only
        split
        · exact ih _ _
        · split
          · intro pass' job' statusBefore await hphase
            cases hphase
            exact hcapacity
          · exact ih _ _

theorem hasCapacity_beginVisits (s : Bridge) (capacity : Nat)
    (snapshot : Option (Option Pauses)) :
    HasCapacity (beginVisits settings s capacity snapshot) := by
  exact hasCapacity_visitEntries _ _ _

theorem hasCapacity_afterRefresh (s : Bridge) : HasCapacity (afterRefresh settings s) := by
  unfold afterRefresh
  dsimp only
  split
  · exact .of_idle (finish_phase _ _)
  · split
    · exact hasCapacity_beginVisits _ _ _
    · intro pass job statusBefore await hphase
      cases hphase

theorem hasCapacity_answerPass (h : HasCapacity s) (answer : Answer) :
    HasCapacity (answerPass settings s answer) := by
  unfold answerPass
  split
  · exact hasCapacity_afterRefresh _
  · exact hasCapacity_beginVisits _ _ _
  · next pass job statusBefore await hphase =>
    split
    · next heq =>
      intro pass' job' statusBefore' await' hphase'
      cases hphase'
      rw [(resume_spec heq).1]
      exact h _ _ _ _ hphase
    · exact hasCapacity_visitEntries _ _ _
    · exact hasCapacity_visitEntries _ _ _
    · exact .of_idle (finish_phase _ _)
    · exact h
  · exact h

theorem HasCapacity.of_phase (h : HasCapacity s) (hphase : s'.phase = s.phase) :
    HasCapacity s' := by
  unfold HasCapacity
  rwa [hphase]

theorem callScheduleQueue_phase (s : Bridge) (delay : Nat) :
    (callScheduleQueue settings s delay).phase = s.phase := by
  unfold callScheduleQueue scheduleQueue
  split_ifs <;> rfl

theorem owe_phase (s : Bridge) (caller : Nat) : (s.owe caller).phase = s.phase := by
  unfold Bridge.owe
  split_ifs <;> rfl

theorem hasCapacity_step (event : Event) (h : HasCapacity s) :
    HasCapacity (step settings s event) := by
  cases event with
  | timer =>
    rw [step]
    split
    · intro pass job statusBefore await hphase
      cases hphase
    · exact h
  | answer answer => exact hasCapacity_answerPass h answer
  | enqueue record caller =>
    cases caller with
    | none => exact h.of_phase (callScheduleQueue_phase _ _)
    | some caller => exact h.of_phase (owe_phase _ _)
  | resumeProvider waiting pauses now =>
    have hreleased := (@sameTimer_releasePauseWaits settings pauses now true waiting s).phase
    simp only [step]
    split
    · exact h.of_phase hreleased
    · exact h.of_phase ((callScheduleQueue_phase _ _).trans hreleased)
  | change | abandon | recoverRoot => exact h.of_phase (owe_phase _ _)
  | scheduleQueue | called | setRuntimeConcurrency | releaseQueueStarts =>
    exact h.of_phase (callScheduleQueue_phase _ _)
  | forget job =>
    rw [step]
    split
    · exact h
    · exact h
  | tick | blockRoot | memory | drain | requestCancellation => exact h

theorem examinesAll_iff_throwsLast (h : HasCapacity s) (event : Event) :
    ExaminesAll settings s event ↔ ThrowsLast s event := by
  constructor
  · intro hall hevent pass job statusBefore await hphase hpauses
    have hthrew : resume settings s pass job await .threw = some (s, pass, .threw) := by
      cases await with
      | pauses => exact absurd rfl hpauses
      | update | standing | conflict | start => rfl
    have hend : passEnd settings s .threw = some (s, pass.note s job statusBefore) := by
      simp only [passEnd, hphase, hthrew]
    exact (hall .threw hevent s _ hend).resolve_left (h pass _ _ _ hphase)
  · rintro hlast answer rfl s' pass hend
    unfold passEnd at hend
    split at hend
    · unfold refreshEnd at hend
      dsimp only at hend
      split_ifs at hend
      exact exhausted_of_beginEnd hend
    · exact exhausted_of_beginEnd hend
    · next pass₀ job statusBefore await hphase =>
      split at hend
      · exact exhausted_of_loopEnd rfl hend
      · exact exhausted_of_loopEnd rfl hend
      · next s₁ pass' heq =>
        obtain ⟨rfl, hpauses, rfl, rfl⟩ := (resume_spec heq).2 rfl
        cases hend
        exact .inr (hlast rfl pass' job statusBefore await hphase hpauses)
      · cases hend
    · cases hend

/-- One bad record does not stop the queue exactly as long as it is the last one queued: in
every run, each pass examines all queued records or uses up its capacity if and only if only
records without a queued one after them throw. -/
theorem passes_examine_all_iff (settings : Settings) (object : Nat → JobRecord) (limit now : Nat)
    (events : List Event) :
    Systems.Along (step settings) (ExaminesAll settings) (start object limit now) events ↔
      Systems.Along (step settings) ThrowsLast (start object limit now) events :=
  Systems.along_congr_of_invariant (fun _ event h => hasCapacity_step event h)
    (fun _ event h => examinesAll_iff_throwsLast h event) (HasCapacity.of_idle rfl) events

/-! ## A cancellation that is never made -/

/-- A job whose cancellation is to be written. -/
def cancelledRecord (job : Nat) : JobRecord :=
  { retryRecord with
    jobId := if job = 0 then "lost" else "later"
    startAfter := none
    cancellationRequested := true }

/-- Two such jobs are queued and the timer is due. -/
def cancelledAt (endedAt : Option Nat) (asked : Bool) (now : Nat) : Bridge :=
  { start cancelledRecord 1 now with
    fresh := 2
    entries := [some 0, some 1]
    queueSchedulerActive := true
    wakeAt := some now
    endedAt := endedAt
    asked := asked }

/-- A pass in which the update of the first job throws, and the wait for the next pass. -/
def failedPass : List Event := [.timer, .answer (.limit none), .answer .threw, .tick 2000]

theorem put_own {record : JobRecord} (hown : s.object s.fresh = record)
    (hnew : (s.entries.any fun entry => entry.any fun job =>
      (s.object job).jobId == record.jobId) = false) :
    s.put record = { s with fresh := s.fresh + 1, entries := s.entries ++ [some s.fresh] } := by
  subst hown
  simp only [Bridge.put, Bridge.setObject, Function.update_eq_self, hnew, Bool.false_eq_true,
    if_false]

theorem run_enqueue : Systems.run (step pollSettings) (start cancelledRecord 1 0)
    [.enqueue (cancelledRecord 0) none, .enqueue (cancelledRecord 1) none] =
      cancelledAt none true 0 := by
  have hfirst : step pollSettings (start cancelledRecord 1 0) (.enqueue (cancelledRecord 0) none) =
      { cancelledAt none true 0 with fresh := 1, entries := [some 0] } :=
    congrArg (callScheduleQueue pollSettings · 0) (put_own rfl rfl)
  rw [Systems.run_cons, hfirst]
  exact congrArg (callScheduleQueue pollSettings · 0) (put_own rfl rfl)

theorem run_failedPass (endedAt : Option Nat) (asked : Bool) (now : Nat) :
    Systems.run (step pollSettings) (cancelledAt endedAt asked now) failedPass =
      cancelledAt (some now) false (now + 2000) := by
  have htimer : step pollSettings (cancelledAt endedAt asked now) .timer =
      { cancelledAt endedAt asked now with
        wakeAt := none
        queueSchedulerRunning := true
        phase := .refreshing } :=
    if_pos (by simp [cancelledAt, start])
  rw [failedPass, Systems.run_cons, htimer]
  rfl

theorem run_failedPasses (passes : Nat) : ∃ endedAt asked now,
    Systems.run (step pollSettings) (cancelledAt none true 0)
      (List.replicate passes failedPass).flatten = cancelledAt endedAt asked now := by
  induction passes with
  | zero => exact ⟨_, _, _, rfl⟩
  | succ passes ih =>
    obtain ⟨endedAt, asked, now, heq⟩ := ih
    rw [List.replicate_succ', List.flatten_append, Systems.run_append, heq,
      List.flatten_singleton]
    exact ⟨_, _, _, run_failedPass endedAt asked now⟩

/-- The first job keeps a pass from the second one, and so does each pass after it: the second
job is never cancelled. -/
theorem lost_row_starves_later :
    ¬ Systems.Along (step pollSettings) (ExaminesAll pollSettings) (start cancelledRecord 1 0)
        ([.enqueue (cancelledRecord 0) none, .enqueue (cancelledRecord 1) none] ++ failedPass) ∧
      ¬ ∃ passes, ((Systems.run (step pollSettings) (start cancelledRecord 1 0)
        ([.enqueue (cancelledRecord 0) none, .enqueue (cancelledRecord 1) none] ++
          (List.replicate passes failedPass).flatten)).object 1).status ≠ .pending := by
  constructor
  · rw [Systems.along_append, run_enqueue]
    rintro ⟨-, -, -, hexamines, -⟩
    cases hexamines .threw rfl _ _ rfl with
    | inl hcapacity => exact absurd hcapacity (by decide)
    | inr hnone => exact absurd (hnone 1 List.mem_cons_self) (by decide)
  · rintro ⟨passes, hleft⟩
    obtain ⟨endedAt, asked, now, heq⟩ := run_failedPasses passes
    rw [Systems.run_append, run_enqueue, heq] at hleft
    exact hleft rfl

end AgentBridge.Queue.Scheduler
