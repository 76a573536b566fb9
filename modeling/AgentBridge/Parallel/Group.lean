import AgentBridge.Systems.Run

/-!
# The jobs of a parallel group and their coordinator

A parallel group runs the ordinary lifecycle of a job several times at once. The
coordinator makes the jobs meet at five barriers: after the lock, before the first
agent, after the agents, after the validation commands and at the end. It keeps
what the jobs hand in, and verifies the group when everybody arrived at the end.

`lifecycle` is the lifecycle of one job, as far as it touches the coordinator, its
own processes and the captures of its directory; it may fail wherever the source
may throw or return early. `step` is one event of the group. Which job moves next,
how long captures take, when processes end and when the group is stopped is part
of the events.
-/

namespace AgentBridge.Parallel

open Option

/-- The barriers, in the order a job meets them. -/
inductive Stage where
  | locked
  | ready
  | agents
  | validated
  | finished
  deriving DecidableEq

/-- Where a job stands in its lifecycle. The phases that start with `at` wait at a
barrier; `leaving` has thrown or returned early and is on its way to `finalize`. -/
inductive Phase where
  | starting
  | atLocked
  | settingUp
  | atReady
  | running
  | atAgents
  | atValidatedEarly
  | evaluating
  | capturing
  | checking
  | atValidated
  | reevaluating
  | reporting
  | judged
  | leaving
  | atFinished
  | verifying
  | ended
  deriving DecidableEq

/-- What the lifecycle reads of a job: the directory it executes in, and whether it
has a validation command or self-checks. -/
structure Job (Cwd : Type) where
  cwd : Cwd
  dryRun : Bool
  sanitizedWorkspace : Bool
  gated : Bool

/-- The bridge does not read the directory of the job: its snapshots are empty maps. -/
def Job.unread {Cwd : Type} (job : Job Cwd) : Bool := job.dryRun || job.sanitizedWorkspace

/-- A snapshot as it was handed in: when its capture began, if there was one, and the
time of the hand-in. -/
structure Snapshot where
  began : Option Nat
  handedIn : Nat
  deriving DecidableEq

/-- The state of one job. `alive` counts its agent and gate processes, `lastExit` is
the time the last one ended, and `held` the capture of the current evaluation. -/
structure Member where
  phase : Phase
  arrived : Stage → Bool
  workspace : Option Nat
  alive : Nat
  lastExit : Option Nat
  held : Option Nat
  validationCommandsRan : Bool
  snapshot : Option Snapshot

def Member.start : Member where
  phase := .starting
  arrived := fun _ => false
  workspace := none
  alive := 0
  lastExit := none
  held := none
  validationCommandsRan := false
  snapshot := none

/-- Arriving at a barrier again changes nothing. -/
def Member.arrive (m : Member) (stage : Stage) : Member :=
  { m with arrived := Function.update m.arrived stage true }

/-- The state of the group. `starts` counts the calls of `verifyGroup`; `verification`
is the promise of the first one and `verified` says that it settled. -/
structure Group (n : Nat) where
  now : Nat
  member : Fin n → Member
  stopped : Bool
  verification : Bool
  starts : Nat
  verified : Bool

def Group.start (n : Nat) : Group n where
  now := 0
  member := fun _ => .start
  stopped := false
  verification := false
  starts := 0
  verified := false

/-- A barrier is released by full arrival; `stopSetup` releases the first four. -/
def Group.opened {n : Nat} (g : Group n) (stage : Stage) : Prop :=
  (∀ i, (g.member i).arrived stage = true) ∨ (stage ≠ .finished ∧ g.stopped = true)

instance {n : Nat} (g : Group n) (stage : Stage) : Decidable (g.opened stage) :=
  inferInstanceAs (Decidable (_ ∨ _))

/-- What a job can do next. -/
inductive Action where
  | acquires
  | resumes
  | prepares
  | spawns
  | exits
  | returns
  | captures
  | captured
  | validates
  | handsIn
  | fixes
  | throws
  | finalizes
  | ends
  deriving DecidableEq

/-- Where the source may throw, or return without an outcome: everywhere but at the
barriers and behind `finalize`. -/
def Phase.fallible : Phase → Bool
  | .starting | .settingUp | .running | .evaluating | .capturing | .checking | .reevaluating
  | .reporting | .judged => true
  | _ => false

variable {Cwd : Type} {n : Nat}

/-- The lifecycle of one job in the group `g`: its next state, or `none` where it
cannot do this now. -/
def lifecycle (job : Job Cwd) (g : Group n) (m : Member) (action : Action) : Option Member :=
  match action, m.phase with
  | .acquires, .starting => some { m.arrive .locked with phase := .atLocked }
  | .prepares, .settingUp =>
    some { m.arrive .ready with phase := .atReady, workspace := some g.now }
  | .returns, .running => some { m.arrive .agents with phase := .atAgents }
  | .resumes, .atLocked =>
    -- `throwIfAborted` follows the first two barriers
    if g.opened .locked then
      some { m with phase := if g.stopped then .leaving else .settingUp }
    else none
  | .resumes, .atReady =>
    if g.opened .ready then
      some { m with phase := if g.stopped then .leaving else .running }
    else none
  | .resumes, .atAgents =>
    -- a job without a gate also waits for the gates of the others
    if g.opened .agents then
      if job.gated then some { m with phase := .evaluating }
      else some { m.arrive .validated with phase := .atValidatedEarly }
    else none
  | .resumes, .atValidatedEarly =>
    if g.opened .validated then some { m with phase := .evaluating } else none
  | .resumes, .atValidated =>
    if g.opened .validated then
      some { m with phase := if m.validationCommandsRan then .reevaluating else .reporting }
    else none
  | .resumes, .atFinished =>
    if g.opened .finished then some { m with phase := .verifying } else none
  | .spawns, .running => if job.dryRun then none else some { m with alive := m.alive + 1 }
  | .spawns, .checking =>
    if job.gated && !job.unread then
      some { m with alive := m.alive + 1, validationCommandsRan := true }
    else none
  | .exits, _ =>
    if m.alive = 0 then none else some { m with alive := m.alive - 1, lastExit := some g.now }
  | .captures, .evaluating =>
    some { m with
      phase := .capturing
      held := if job.unread then none else some g.now
      validationCommandsRan := false }
  | .captures, .reevaluating => some { m with phase := .reporting, held := some g.now }
  | .captured, .capturing => some { m with phase := .checking }
  | .validates, .checking => some { m.arrive .validated with phase := .atValidated }
  | .handsIn, .reporting => some { m with phase := .judged, snapshot := some ⟨m.held, g.now⟩ }
  | .fixes, .judged =>
    -- only a command that ran to a result is worth another run, and only before an abort
    if m.validationCommandsRan && !g.stopped then some { m with phase := .running } else none
  | .throws, phase => if phase.fallible then some { m with phase := .leaving } else none
  | .finalizes, .judged => some { m.arrive .finished with phase := .atFinished }
  | .finalizes, .leaving => some { m.arrive .finished with phase := .atFinished }
  | .ends, .verifying => if g.verified then some { m with phase := .ended } else none
  | _, _ => none

inductive Moves (job : Job Cwd) (g : Group n) (m : Member) : Action → Member → Prop where
  | acquires : m.phase = .starting →
      Moves job g m .acquires { m.arrive .locked with phase := .atLocked }
  | setsUp : m.phase = .atLocked → g.opened .locked → g.stopped = false →
      Moves job g m .resumes { m with phase := .settingUp }
  | prepares : m.phase = .settingUp →
      Moves job g m .prepares
        { m.arrive .ready with phase := .atReady, workspace := some g.now }
  | runs : m.phase = .atReady → g.opened .ready → g.stopped = false →
      Moves job g m .resumes { m with phase := .running }
  | aborts : m.phase = .atLocked ∨ m.phase = .atReady → g.stopped = true →
      Moves job g m .resumes { m with phase := .leaving }
  | spawnsAgent : m.phase = .running → job.dryRun = false →
      Moves job g m .spawns { m with alive := m.alive + 1 }
  | exits : m.alive ≠ 0 →
      Moves job g m .exits { m with alive := m.alive - 1, lastExit := some g.now }
  | returns : m.phase = .running →
      Moves job g m .returns { m.arrive .agents with phase := .atAgents }
  | evaluates : m.phase = .atAgents → g.opened .agents → job.gated = true →
      Moves job g m .resumes { m with phase := .evaluating }
  | skipsGates : m.phase = .atAgents → g.opened .agents → job.gated = false →
      Moves job g m .resumes { m.arrive .validated with phase := .atValidatedEarly }
  | evaluatesLate : m.phase = .atValidatedEarly → g.opened .validated →
      Moves job g m .resumes { m with phase := .evaluating }
  | captures : m.phase = .evaluating →
      Moves job g m .captures
        { m with
          phase := .capturing
          held := if job.unread then none else some g.now
          validationCommandsRan := false }
  | captured : m.phase = .capturing → Moves job g m .captured { m with phase := .checking }
  | spawnsGate : m.phase = .checking → job.gated = true → job.unread = false →
      Moves job g m .spawns { m with alive := m.alive + 1, validationCommandsRan := true }
  | validates : m.phase = .checking →
      Moves job g m .validates { m.arrive .validated with phase := .atValidated }
  | keepsCapture : m.phase = .atValidated → g.opened .validated →
      m.validationCommandsRan = false → Moves job g m .resumes { m with phase := .reporting }
  | reevaluates : m.phase = .atValidated → g.opened .validated →
      m.validationCommandsRan = true → Moves job g m .resumes { m with phase := .reevaluating }
  | recaptures : m.phase = .reevaluating →
      Moves job g m .captures { m with phase := .reporting, held := some g.now }
  | handsIn : m.phase = .reporting →
      Moves job g m .handsIn { m with phase := .judged, snapshot := some ⟨m.held, g.now⟩ }
  | fixes : m.phase = .judged → m.validationCommandsRan = true → g.stopped = false →
      Moves job g m .fixes { m with phase := .running }
  | throws : m.phase.fallible = true → Moves job g m .throws { m with phase := .leaving }
  | concludes : m.phase = .judged →
      Moves job g m .finalizes { m.arrive .finished with phase := .atFinished }
  | leaves : m.phase = .leaving →
      Moves job g m .finalizes { m.arrive .finished with phase := .atFinished }
  | verifies : m.phase = .atFinished → g.opened .finished →
      Moves job g m .resumes { m with phase := .verifying }
  | ends : m.phase = .verifying → g.verified = true →
      Moves job g m .ends { m with phase := .ended }

theorem moves_of_lifecycle {job : Job Cwd} {g : Group n} {m m' : Member} {action : Action}
    (h : lifecycle job g m action = some m') : Moves job g m action m' := by
  unfold lifecycle at h
  split at h
  case h_1 hphase => cases h; exact .acquires hphase
  case h_2 hphase => cases h; exact .prepares hphase
  case h_3 hphase => cases h; exact .returns hphase
  case h_4 hphase =>
    obtain ⟨hopened, h⟩ := ite_none_right_eq_some.mp h
    cases hstopped : g.stopped with
    | true => simp only [hstopped] at h; cases h; exact .aborts (.inl hphase) hstopped
    | false => simp only [hstopped] at h; cases h; exact .setsUp hphase hopened hstopped
  case h_5 hphase =>
    obtain ⟨hopened, h⟩ := ite_none_right_eq_some.mp h
    cases hstopped : g.stopped with
    | true => simp only [hstopped] at h; cases h; exact .aborts (.inr hphase) hstopped
    | false => simp only [hstopped] at h; cases h; exact .runs hphase hopened hstopped
  case h_6 hphase =>
    obtain ⟨hopened, h⟩ := ite_none_right_eq_some.mp h
    cases hgated : job.gated with
    | true => simp only [hgated] at h; cases h; exact .evaluates hphase hopened hgated
    | false => simp only [hgated] at h; cases h; exact .skipsGates hphase hopened hgated
  case h_7 hphase =>
    obtain ⟨hopened, h⟩ := ite_none_right_eq_some.mp h
    cases h; exact .evaluatesLate hphase hopened
  case h_8 hphase =>
    obtain ⟨hopened, h⟩ := ite_none_right_eq_some.mp h
    by_cases hran : m.validationCommandsRan = true
    · rw [if_pos hran] at h
      cases h; exact .reevaluates hphase hopened hran
    · rw [if_neg hran] at h
      cases h; exact .keepsCapture hphase hopened (by simpa using hran)
  case h_9 hphase =>
    obtain ⟨hopened, h⟩ := ite_none_right_eq_some.mp h
    cases h; exact .verifies hphase hopened
  case h_10 hphase =>
    obtain ⟨hreal, h⟩ := ite_none_left_eq_some.mp h
    cases h; exact .spawnsAgent hphase (by simpa using hreal)
  case h_11 hphase =>
    obtain ⟨hgate, h⟩ := ite_none_right_eq_some.mp h
    rw [Bool.and_eq_true, Bool.not_eq_true'] at hgate
    cases h; exact .spawnsGate hphase hgate.1 hgate.2
  case h_12 =>
    obtain ⟨halive, h⟩ := ite_none_left_eq_some.mp h
    cases h; exact .exits halive
  case h_13 hphase => cases h; exact .captures hphase
  case h_14 hphase => cases h; exact .recaptures hphase
  case h_15 hphase => cases h; exact .captured hphase
  case h_16 hphase => cases h; exact .validates hphase
  case h_17 hphase => cases h; exact .handsIn hphase
  case h_18 hphase =>
    obtain ⟨hran, h⟩ := ite_none_right_eq_some.mp h
    rw [Bool.and_eq_true, Bool.not_eq_true'] at hran
    cases h; exact .fixes hphase hran.1 hran.2
  case h_19 =>
    obtain ⟨hfallible, h⟩ := ite_none_right_eq_some.mp h
    cases h; exact .throws hfallible
  case h_20 hphase => cases h; exact .concludes hphase
  case h_21 hphase => cases h; exact .leaves hphase
  case h_22 hphase =>
    obtain ⟨hverified, h⟩ := ite_none_right_eq_some.mp h
    cases h; exact .ends hphase hverified
  case h_23 => cases h

/-- An event of the group: the client aborts, a lock is lost or the deadline expires
(`stops`), the verification settles, or a job acts. -/
inductive Event (n : Nat) where
  | stops
  | settles
  | acts (i : Fin n) (action : Action)

/-- A job acts. `finalize` without an outcome stops the group, and whoever finds the
last barrier open starts the verification unless somebody did. -/
def Group.act (jobs : Fin n → Job Cwd) (g : Group n) (i : Fin n) (action : Action) : Group n :=
  match lifecycle (jobs i) g (g.member i) action with
  | none => g
  | some m =>
    { g with
      member := Function.update g.member i m
      stopped := g.stopped || decide ((g.member i).phase = .leaving ∧ action = .finalizes)
      verification := g.verification || decide (action = .resumes ∧ m.phase = .verifying)
      starts := if (action = .resumes ∧ m.phase = .verifying) ∧ g.verification = false then
        g.starts + 1 else g.starts }

/-- A job that acts either cannot, and nothing changes, or makes one of the moves. -/
theorem act_cases (jobs : Fin n → Job Cwd) (g : Group n) (i : Fin n) (action : Action) :
    g.act jobs i action = g ∨
      ∃ m, Moves (jobs i) g (g.member i) action m ∧
        g.act jobs i action =
          { g with
            member := Function.update g.member i m
            stopped := g.stopped || decide ((g.member i).phase = .leaving ∧ action = .finalizes)
            verification := g.verification || decide (action = .resumes ∧ m.phase = .verifying)
            starts := if (action = .resumes ∧ m.phase = .verifying) ∧ g.verification = false then
              g.starts + 1 else g.starts } := by
  cases h : lifecycle (jobs i) g (g.member i) action with
  | none => exact .inl (by simp only [Group.act, h])
  | some m => exact .inr ⟨m, moves_of_lifecycle h, by simp only [Group.act, h]⟩

/-- One event takes one unit of time. -/
def step (jobs : Fin n → Job Cwd) (g : Group n) : Event n → Group n
  | .stops => { g with now := g.now + 1, stopped := true }
  | .settles => { g with now := g.now + 1, verified := g.verification }
  | .acts i action => { g.act jobs i action with now := g.now + 1 }

end AgentBridge.Parallel
