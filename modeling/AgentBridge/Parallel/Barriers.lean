import AgentBridge.Parallel.Group
import AgentBridge.Systems.Barriers

/-!
# The barriers of a parallel group never deadlock

A job that ends with an outcome has met all five barriers. A job that throws or
returns early skips barriers, but it stops the group, and that opens the first
four. So nobody stands at a later barrier without having met the earlier ones that
are still closed, and the jobs at the barriers never wait only for each other. The
last barrier opens by arrival alone, and whoever passes it first starts the
verification of the group.
-/

namespace AgentBridge.Parallel

open Systems Function Nat

/-- The place of a barrier in the lifecycle. -/
def Stage.rank : Stage → Nat
  | .locked => 0
  | .ready => 1
  | .agents => 2
  | .validated => 3
  | .finished => 4

theorem Stage.rank_injective : Function.Injective Stage.rank := by
  intro a b h
  cases a <;> cases b <;> first | rfl | exact absurd h (by decide)

instance : LinearOrder Stage := LinearOrder.lift' Stage.rank Stage.rank_injective

theorem Stage.lt_iff_rank {a b : Stage} : a < b ↔ a.rank < b.rank := Iff.rfl

theorem Stage.eq_or_lt_finished (stage : Stage) : stage = .finished ∨ stage < .finished := by
  cases stage <;> decide

instance : WellFoundedLT Stage := ⟨InvImage.wf Stage.rank Nat.lt_wfRel.wf⟩

/-- The barrier a job waits at. -/
def Phase.barrier : Phase → Option Stage
  | .atLocked => some .locked
  | .atReady => some .ready
  | .atAgents => some .agents
  | .atValidatedEarly | .atValidated => some .validated
  | .atFinished => some .finished
  | _ => none

/-- How many barriers the lifecycle has met on the way to this phase; none where it
may have been left early. -/
def Phase.met : Phase → Nat
  | .starting | .leaving | .atFinished | .verifying | .ended => 0
  | .atLocked | .settingUp => 1
  | .atReady | .running => 2
  | .atAgents | .evaluating | .capturing | .checking => 3
  | .atValidatedEarly | .atValidated | .reevaluating | .reporting | .judged => 4

/-- Behind the call of `finalize`. -/
def Phase.finalized : Phase → Bool
  | .atFinished | .verifying | .ended => true
  | _ => false

/-- What the arrivals of one job obey: the barriers on its way are met, `finalize` is
met at the end, and earlier barriers are skipped only in a stopped group. -/
structure Member.Attends (m : Member) (stopped : Bool) : Prop where
  met : ∀ stage, stage.rank < m.phase.met → m.arrived stage = true
  finalized : m.phase.finalized = true → m.arrived .finished = true
  ordered : ∀ earlier later, earlier < later → m.arrived later = true →
    m.arrived earlier = true ∨ stopped = true

variable {Cwd : Type} {n : Nat}

/-! ### What one move keeps -/

variable {stage : Stage}

section

variable {job : Job Cwd} {g : Group n} {m m' : Member} {action : Action} {stopped : Bool}

theorem Member.arrive_of_arrived {other : Stage} (h : m.arrived other = true) :
    (m.arrive stage).arrived other = true := by
  by_cases hsame : other = stage
  · rw [hsame]; exact update_self ..
  · exact (update_of_ne hsame ..).trans h

@[simp] theorem Member.arrive_self (m : Member) (stage : Stage) :
    (m.arrive stage).arrived stage = true :=
  update_self ..

@[simp] theorem Member.arrive_of_ne {other : Stage} (h : other ≠ stage) :
    (m.arrive stage).arrived other = m.arrived other :=
  update_of_ne h ..

theorem Member.Attends.ordered_arrive (h : m.Attends stopped)
    (hbefore : ∀ earlier, earlier < stage → m.arrived earlier = true ∨ stopped = true) :
    ∀ earlier later, earlier < later → (m.arrive stage).arrived later = true →
      (m.arrive stage).arrived earlier = true ∨ stopped = true := by
  intro earlier later hlt harrived
  have hearlier : m.arrived earlier = true ∨ stopped = true := by
    by_cases hlater : later = stage
    · exact hbefore earlier (hlater ▸ hlt)
    · rw [Member.arrive_of_ne hlater] at harrived
      exact h.ordered earlier later hlt harrived
  exact hearlier.imp_left Member.arrive_of_arrived

/-- Moving on without meeting a barrier. -/
theorem Member.Attends.proceed (h : m.Attends stopped) (harrived : m'.arrived = m.arrived)
    (hmet : m'.phase.met ≤ m.phase.met)
    (hfinalized : m'.phase.finalized = true → m.phase.finalized = true) : m'.Attends stopped where
  met := by
    intro stage hstage
    rw [harrived]
    exact h.met stage (by omega)
  finalized := by
    intro hdone
    rw [harrived]
    exact h.finalized (hfinalized hdone)
  ordered := by
    rw [harrived]
    exact h.ordered

theorem Member.Attends.meet (h : m.Attends stopped)
    (harrived : m'.arrived = (m.arrive stage).arrived) (hnext : stage.rank = m.phase.met)
    (hmet : m'.phase.met ≤ m.phase.met + 1)
    (hfinalized : m'.phase.finalized = true → stage = .finished) : m'.Attends stopped where
  met := by
    intro other hother
    rw [harrived]
    by_cases hsame : other = stage
    · rw [hsame, m.arrive_self]
    · have hrank : other.rank ≠ stage.rank := fun heq => hsame (Stage.rank_injective heq)
      exact Member.arrive_of_arrived (h.met other (by omega))
  finalized := by
    intro hdone
    rw [harrived, hfinalized hdone, m.arrive_self]
  ordered := by
    rw [harrived]
    refine h.ordered_arrive ?_
    intro earlier hlt
    rw [Stage.lt_iff_rank] at hlt
    exact .inl (h.met earlier (by omega))

/-- A job that left early meets the last barrier in a stopped group. -/
theorem Member.attends_leave (m : Member) :
    Member.Attends { m.arrive .finished with phase := .atFinished } true where
  met := fun _ hstage => absurd hstage (not_lt_zero _)
  finalized := fun _ => m.arrive_self .finished
  ordered := fun _ _ _ _ => .inr rfl

/-- Each move keeps the order of the arrivals. -/
theorem Moves.attends (hmove : Moves job g m action m') (h : m.Attends stopped) :
    m'.Attends (stopped || decide (m.phase = .leaving ∧ action = .finalizes)) := by
  by_cases hleaves : m.phase = .leaving ∧ action = .finalizes
  · obtain ⟨hphase, rfl⟩ := hleaves
    cases hmove with
    | concludes hjudged => rw [hphase] at hjudged; cases hjudged
    | leaves => simpa [hphase] using m.attends_leave
  · rw [decide_eq_false hleaves, Bool.or_false]
    cases hmove with
    | acquires hphase => exact h.meet rfl (by rw [hphase]; rfl) (by rw [hphase]; rfl) nofun
    | prepares hphase => exact h.meet rfl (by rw [hphase]; rfl) (by rw [hphase]; rfl) nofun
    | returns hphase => exact h.meet rfl (by rw [hphase]; rfl) (by rw [hphase]; rfl) nofun
    | skipsGates hphase => exact h.meet rfl (by rw [hphase]; rfl) (by rw [hphase]; rfl) nofun
    | validates hphase => exact h.meet rfl (by rw [hphase]; rfl) (by rw [hphase]; rfl) nofun
    | concludes hphase =>
      exact h.meet rfl (by rw [hphase]; rfl) (zero_le _) fun _ => rfl
    | leaves hphase => exact absurd ⟨hphase, rfl⟩ hleaves
    | setsUp hphase => exact h.proceed rfl (by simp [Phase.met, hphase]) nofun
    | runs hphase => exact h.proceed rfl (by simp [Phase.met, hphase]) nofun
    | aborts hphase => exact h.proceed rfl (zero_le _) nofun
    | spawnsAgent => exact h.proceed rfl le_rfl id
    | spawnsGate => exact h.proceed rfl le_rfl id
    | exits => exact h.proceed rfl le_rfl id
    | evaluates hphase => exact h.proceed rfl (by simp [Phase.met, hphase]) nofun
    | evaluatesLate hphase => exact h.proceed rfl (by simp [Phase.met, hphase]) nofun
    | captures hphase => exact h.proceed rfl (by simp [Phase.met, hphase]) nofun
    | captured hphase => exact h.proceed rfl (by simp [Phase.met, hphase]) nofun
    | keepsCapture hphase => exact h.proceed rfl (by simp [Phase.met, hphase]) nofun
    | reevaluates hphase => exact h.proceed rfl (by simp [Phase.met, hphase]) nofun
    | recaptures hphase => exact h.proceed rfl (by simp [Phase.met, hphase]) nofun
    | handsIn hphase => exact h.proceed rfl (by simp [Phase.met, hphase]) nofun
    | fixes hphase => exact h.proceed rfl (by simp [Phase.met, hphase]) nofun
    | throws => exact h.proceed rfl (zero_le _) nofun
    | verifies hphase => exact h.proceed rfl (zero_le _) fun _ => by rw [hphase]; rfl
    | ends hphase => exact h.proceed rfl (zero_le _) fun _ => by rw [hphase]; rfl

end

/-! ### What one event of the group keeps -/

/-- The arrivals of all jobs, and what the verification has to do with them. -/
structure Group.Orderly (g : Group n) : Prop where
  attends : ∀ i, (g.member i).Attends g.stopped
  counted : g.starts = g.verification.toNat
  gathered : g.verification = true → ∀ i, (g.member i).arrived .finished = true
  begun : ∀ i, (g.member i).phase = .verifying ∨ (g.member i).phase = .ended →
    g.verification = true

theorem Group.orderly_start : (Group.start n).Orderly where
  attends := fun _ =>
    { met := fun _ hstage => absurd hstage (not_lt_zero _)
      finalized := fun h => nomatch h
      ordered := fun _ _ _ h => nomatch h }
  counted := rfl
  gathered := fun h => nomatch h
  begun := fun _ h => h.elim nofun nofun

section

variable {job : Job Cwd} {g : Group n} {m m' : Member} {action : Action}

theorem Member.Attends.mono {stopped : Bool} (h : m.Attends stopped) (more : Bool) :
    m.Attends (stopped || more) where
  met := h.met
  finalized := h.finalized
  ordered := by
    intro earlier later hlt harrived
    rcases h.ordered earlier later hlt harrived with hearlier | hstopped
    · exact .inl hearlier
    · exact .inr (by rw [hstopped, Bool.true_or])

theorem Moves.arrived_mono (hmove : Moves job g m action m') (h : m.arrived stage = true) :
    m'.arrived stage = true := by
  cases hmove <;> first | exact h | exact Member.arrive_of_arrived h

/-- A job comes to verify the group by finding the last barrier open. -/
theorem Moves.verifying_cases (hmove : Moves job g m action m')
    (h : m'.phase = .verifying ∨ m'.phase = .ended) :
    (action = .resumes ∧ m'.phase = .verifying ∧ g.opened .finished) ∨
      m.phase = .verifying ∨ m.phase = .ended := by
  cases hmove with
  | verifies _ hopened => exact .inl ⟨rfl, rfl, hopened⟩
  | ends hphase => exact .inr (.inl hphase)
  | exits => exact .inr h
  | spawnsAgent => exact .inr h
  | spawnsGate => exact .inr h
  | _ => exact h.elim nofun nofun

theorem Moves.opened_of_verifies (hmove : Moves job g m action m')
    (hresumes : action = .resumes) (h : m'.phase = .verifying) : g.opened .finished := by
  cases hmove with
  | verifies _ hopened => exact hopened
  | _ => first | cases h | cases hresumes

end

theorem Group.opened_finished {g : Group n} :
    g.opened .finished ↔ ∀ i, (g.member i).arrived .finished = true := by
  simp [Group.opened]

theorem Group.Orderly.act {g : Group n} (h : g.Orderly) (jobs : Fin n → Job Cwd) (i : Fin n)
    (action : Action) : (g.act jobs i action).Orderly := by
  obtain heq | ⟨m, hmove, heq⟩ := act_cases jobs g i action
  · rw [heq]; exact h
  rw [heq]
  have hopens : (action = .resumes ∧ m.phase = .verifying) →
      ∀ j, (g.member j).arrived .finished = true :=
    fun hbegins => Group.opened_finished.mp (hmove.opened_of_verifies hbegins.1 hbegins.2)
  have harrived : ∀ j, (g.member j).arrived .finished = true →
      (Function.update g.member i m j).arrived .finished = true := by
    intro j hj
    by_cases hsame : j = i
    · subst hsame
      rw [update_self]
      exact hmove.arrived_mono hj
    · rw [update_of_ne hsame]
      exact hj
  refine ⟨?_, ?_, ?_, ?_⟩
  · intro j
    by_cases hsame : j = i
    · subst hsame
      dsimp only
      rw [update_self]
      exact hmove.attends (h.attends j)
    · dsimp only
      rw [update_of_ne hsame]
      exact (h.attends j).mono _
  · by_cases hbegins : action = .resumes ∧ m.phase = .verifying
    · cases hverification : g.verification <;>
        simp [hbegins, hverification, h.counted]
    · simp [hbegins, h.counted]
  · intro hverification j
    rw [Bool.or_eq_true, decide_eq_true_eq] at hverification
    exact harrived j (hverification.elim (fun hv => h.gathered hv j) fun hb => hopens hb j)
  · intro j hj
    rw [Bool.or_eq_true, decide_eq_true_eq]
    dsimp only at hj
    by_cases hsame : j = i
    · subst hsame
      rw [update_self] at hj
      obtain ⟨hresumes, hverifying, -⟩ | hbefore := hmove.verifying_cases hj
      · exact .inr ⟨hresumes, hverifying⟩
      · exact .inl (h.begun j hbefore)
    · rw [update_of_ne hsame] at hj
      exact .inl (h.begun j hj)

theorem Group.Orderly.step {g : Group n} (h : g.Orderly) (jobs : Fin n → Job Cwd)
    (event : Event n) : (step jobs g event).Orderly := by
  cases event with
  | stops =>
    refine ⟨fun i => ?_, h.counted, h.gathered, h.begun⟩
    have hattends := (h.attends i).mono true
    rw [Bool.or_true] at hattends
    exact hattends
  | settles => exact ⟨h.attends, h.counted, h.gathered, h.begun⟩
  | acts i action =>
    have hact := h.act jobs i action
    exact ⟨hact.attends, hact.counted, hact.gathered, hact.begun⟩

theorem Group.orderly_run (jobs : Fin n → Job Cwd) (events : List (Event n)) :
    (run (AgentBridge.Parallel.step jobs) (Group.start n) events).Orderly :=
  run_preserves (fun _ event h => h.step jobs event) Group.orderly_start events

/-! ### The barriers of the group -/

def Group.barriers (g : Group n) : Barriers (Fin n) Stage where
  arrived := fun stage i => (g.member i).arrived stage = true
  opened := g.opened
  waiting := fun i stage => (g.member i).phase.barrier = some stage

/-- A job waits at a barrier it has met. -/
theorem Member.Attends.present {m : Member} {stopped : Bool} (h : m.Attends stopped)
    (hwaiting : m.phase.barrier = some stage) : m.arrived stage = true := by
  cases hphase : m.phase with
  | atFinished =>
    rw [hphase] at hwaiting
    cases hwaiting
    exact h.finalized (by rw [hphase]; rfl)
  | atLocked | atReady | atAgents | atValidatedEarly | atValidated =>
    rw [hphase] at hwaiting
    cases hwaiting
    exact h.met _ (by rw [hphase]; decide)
  | _ =>
    rw [hphase] at hwaiting
    cases hwaiting

theorem Group.Orderly.barriers {g : Group n} (h : g.Orderly) : g.barriers.Orderly where
  full := fun _ => .inl
  present := fun i _ hwaiting => (h.attends i).present hwaiting
  ordered := by
    intro earlier later i hlt hclosed harrived
    -- only the last barrier stays closed in a stopped group, and nothing follows it
    have hfinished : earlier ≠ .finished := by
      rintro rfl
      cases later <;> exact absurd hlt (by decide)
    refine ((h.attends i).ordered earlier later hlt harrived).resolve_right ?_
    intro hstopped
    exact hclosed (.inr ⟨hfinished, hstopped⟩)

variable {i : Fin n}

/-- A job has ended only after everybody met the last barrier. -/
theorem Group.Orderly.arrived_of_ended {g : Group n} (h : g.Orderly)
    (hended : (g.member i).phase = .ended) (j : Fin n) : (g.member j).arrived .finished = true :=
  h.gathered (h.begun i (.inr hended)) j

/-- In front of an unopened barrier where a job waits, somebody is missing who has not
ended and is not blocked. -/
theorem Group.Orderly.exists_unblocked {g : Group n} (h : g.Orderly)
    (hwaiting : (g.member i).phase.barrier = some stage) (hclosed : ¬ g.opened stage) :
    ∃ j, (g.member j).arrived stage = false ∧ (g.member j).phase ≠ .ended ∧
      ∀ other, (g.member j).phase.barrier = some other → g.opened other := by
  obtain ⟨j, hmissing, hfree⟩ := h.barriers.exists_unblocked hwaiting hclosed
  refine ⟨j, eq_false_of_ne_true hmissing, ?_, ?_⟩
  · intro hended
    have hdone : (g.member j).arrived .finished = true := h.arrived_of_ended hended j
    obtain rfl | hbefore := stage.eq_or_lt_finished
    · exact hmissing hdone
    · exact hmissing (h.barriers.ordered stage .finished j hbefore hclosed hdone)
  · intro other hother
    exact by_contra fun hshut => hfree ⟨other, hother, hshut⟩

/-- In every run of a group, in front of an unopened barrier where a job waits there is
a job that has not arrived, has not ended and is not blocked itself; and the group
verification starts once, when everybody has arrived at the last barrier. -/
theorem group_never_deadlocks (jobs : Fin n → Job Cwd) (events : List (Event n)) :
    let g := run (step jobs) (Group.start n) events
    (∀ i stage, (g.member i).phase.barrier = some stage → ¬ g.opened stage →
      ∃ j, (g.member j).arrived stage = false ∧ (g.member j).phase ≠ .ended ∧
        ∀ other, (g.member j).phase.barrier = some other → g.opened other) ∧
    g.starts ≤ 1 ∧
    (g.starts = 1 → ∀ j, (g.member j).arrived .finished = true) ∧
    (∀ i, (g.member i).phase = .ended → g.starts = 1) := by
  intro g
  have h : g.Orderly := Group.orderly_run jobs events
  refine ⟨?_, ?_, ?_, ?_⟩
  · intro i stage hwaiting hclosed
    exact h.exists_unblocked hwaiting hclosed
  · rw [h.counted]
    exact Bool.toNat_le _
  · intro hstarts
    refine h.gathered ?_
    rw [h.counted] at hstarts
    simpa using hstarts
  · intro i hended
    rw [h.counted, h.begun i (.inr hended)]
    rfl

end AgentBridge.Parallel
