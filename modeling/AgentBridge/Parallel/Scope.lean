import AgentBridge.Parallel.Barriers

/-!
# The snapshot of the group scope check

`verifyGroup` compares, for each directory of the group, the directory as it was
before the first agent with the snapshot that was handed in last. That snapshot was
captured some time before, so it shows every write only if it was captured after
the last process of the directory. The barriers see to that for the first agents,
but not in a stopped group, not for a job that runs its agent once more, and not
for a job that fails or hands in an empty map.

The result below says when the comparison is right: whenever a job hands in a
snapshot, the writes that are not in it belong to jobs that have their own hand-in
still ahead.
-/

namespace AgentBridge.Parallel

open Systems Function Nat

variable {Cwd : Type} [DecidableEq Cwd] {n : Nat}

/-- The jobs that recorded a workspace in the directory, in order. -/
def Group.indexesForCwd (jobs : Fin n → Job Cwd) (g : Group n) (cwd : Cwd) : List (Fin n) :=
  (List.finRange n).filter fun i =>
    (g.member i).workspace.isSome && decide ((jobs i).cwd = cwd)

/-- The directory has only jobs that nobody checks here. -/
def Group.skips (jobs : Fin n → Job Cwd) (g : Group n) (cwd : Cwd) : Bool :=
  (g.indexesForCwd jobs cwd).all fun i => (jobs i).unread

/-- The snapshot handed in last for the directory. -/
def Group.last (jobs : Fin n → Job Cwd) (g : Group n) (cwd : Cwd) : Option Snapshot :=
  (((g.indexesForCwd jobs cwd).filterMap fun i => (g.member i).snapshot).insertionSort
    fun a b => b.handedIn ≤ a.handedIn).head?

/-- The capture the scope report compares: without a snapshot it makes its own. -/
def Group.comparedBegan (jobs : Fin n → Job Cwd) (g : Group n) (cwd : Cwd) : Option Nat :=
  match g.last jobs cwd with
  | some snapshot => snapshot.began
  | none => some g.now

/-- All processes of the job ended before the capture began. -/
def Member.EndedBefore (m : Member) (began : Option Nat) : Prop :=
  m.alive = 0 ∧ ∀ exit ∈ m.lastExit, ∃ start ∈ began, exit < start

instance (m : Member) (began : Option Nat) : Decidable (m.EndedBefore began) :=
  inferInstanceAs (Decidable (_ ∧ _))

/-- What the scope check of a group relies on: once it started, what it compares for a
directory was captured after all agents and gates of that directory. -/
def Group.SeesEveryWrite (jobs : Fin n → Job Cwd) (g : Group n) : Prop :=
  g.verification = true → ∀ i, g.skips jobs (jobs i).cwd = false →
    (g.member i).EndedBefore (g.comparedBegan jobs (jobs i).cwd)

instance (jobs : Fin n → Job Cwd) (g : Group n) : Decidable (g.SeesEveryWrite jobs) :=
  inferInstanceAs (Decidable (_ → _))

/-- From the start of its agent until it handed in a snapshot or reached `finalize`. -/
def Phase.owes : Phase → Bool
  | .running | .atAgents | .atValidatedEarly | .evaluating | .capturing | .checking
  | .atValidated | .reevaluating | .reporting | .leaving => true
  | _ => false

/-- The job handed in the newest snapshot of its directory. -/
def Group.IsNewest (jobs : Fin n → Job Cwd) (g : Group n) (i : Fin n) (snapshot : Snapshot) :
    Prop :=
  (g.member i).snapshot = some snapshot ∧ ∀ j, (jobs j).cwd = (jobs i).cwd →
    ∀ other ∈ (g.member j).snapshot, other.handedIn ≤ snapshot.handedIn

instance (jobs : Fin n → Job Cwd) (g : Group n) (i : Fin n) (snapshot : Snapshot) :
    Decidable (g.IsNewest jobs i snapshot) :=
  inferInstanceAs (Decidable (_ ∧ _))

/-- What keeps the newest snapshot good. A job hands in a capture that began after its
own processes, and after those of the other jobs of the directory that owe no snapshot;
and a job that failed reaches `finalize` without processes, and with none that ran
after the newest capture began. -/
def Group.Current (jobs : Fin n → Job Cwd) (g : Group n) : Event n → Prop
  | .acts i .handsIn => (g.member i).phase = .reporting →
      ∀ j, (jobs j).cwd = (jobs i).cwd → (g.member j).EndedBefore (g.member i).held ∨
        (j ≠ i ∧ (g.member j).phase.owes = true)
  | .acts i .finalizes => (g.member i).phase = .leaving →
      (g.member i).alive = 0 ∧ ∀ j, (jobs j).cwd = (jobs i).cwd →
        ∀ snapshot ∈ (g.member j).snapshot, g.IsNewest jobs j snapshot →
          (g.member i).EndedBefore snapshot.began
  | _ => True

instance (jobs : Fin n → Job Cwd) (g : Group n) :
    ∀ event, Decidable (g.Current jobs event)
  | .acts _ .handsIn => inferInstanceAs (Decidable (_ → _))
  | .acts _ .finalizes => inferInstanceAs (Decidable (_ → _))
  | .stops | .settles => isTrue trivial
  | .acts _ .acquires | .acts _ .resumes | .acts _ .prepares | .acts _ .spawns
  | .acts _ .exits | .acts _ .returns | .acts _ .captures | .acts _ .captured
  | .acts _ .validates | .acts _ .fixes | .acts _ .throws | .acts _ .ends => isTrue trivial

/-! ### What the moves of one job keep -/

/-- Set up at least once: the workspace is recorded. -/
def Phase.prepared : Phase → Bool
  | .atReady | .running | .atAgents | .atValidatedEarly | .evaluating | .capturing | .checking
  | .atValidated | .reevaluating | .reporting | .judged => true
  | _ => false

/-- What holds of each job at time `now`: it recorded its workspace before it ran, a job
that owes nothing has no process, its times have passed, and only the end of the
lifecycle is behind the last barrier. -/
structure Member.Sound (m : Member) (now : Nat) : Prop where
  recorded : m.phase.prepared = true ∨ m.snapshot.isSome = true → m.workspace.isSome = true
  quiet : m.phase.owes = false → m.alive = 0
  exited : ∀ exit ∈ m.lastExit, exit < now
  handed : ∀ snapshot ∈ m.snapshot, snapshot.handedIn < now
  closed : m.arrived .finished = true → m.phase.finalized = true

section

variable {job : Job Cwd} {g : Group n} {m m' : Member} {action : Action} {now : Nat}

omit [DecidableEq Cwd] in
/-- A move ends in debt with the same snapshot, or changes nothing that the scope check
reads, or hands in, or leaves with nothing more to hand in. -/
theorem Moves.effect (hmove : Moves job g m action m')
    (hquiet : m.phase.owes = false → m.alive = 0) :
    (m'.phase.owes = true ∧ m'.snapshot = m.snapshot) ∨
    (m.phase.owes = false ∧ m'.phase.owes = false ∧ m'.alive = m.alive ∧
      m'.lastExit = m.lastExit ∧ m'.snapshot = m.snapshot) ∨
    (m.phase = .reporting ∧ action = .handsIn ∧ m'.phase.owes = false ∧ m'.alive = m.alive ∧
      m'.lastExit = m.lastExit ∧ m'.snapshot = some ⟨m.held, g.now⟩) ∨
    (m.phase = .leaving ∧ action = .finalizes ∧ m'.phase.owes = false ∧ m'.alive = m.alive ∧
      m'.lastExit = m.lastExit ∧ m'.snapshot = m.snapshot) := by
  cases hmove with
  | handsIn hphase => exact .inr (.inr (.inl ⟨hphase, rfl, rfl, rfl, rfl, rfl⟩))
  | leaves hphase => exact .inr (.inr (.inr ⟨hphase, rfl, rfl, rfl, rfl, rfl⟩))
  | exits halive =>
    refine .inl ⟨?_, rfl⟩
    cases howes : m.phase.owes with
    | true => rfl
    | false => exact absurd (hquiet howes) halive
  | spawnsAgent hphase => exact .inl ⟨by simp [hphase, Phase.owes], rfl⟩
  | spawnsGate hphase => exact .inl ⟨by simp [hphase, Phase.owes], rfl⟩
  | acquires hphase | setsUp hphase | prepares hphase | concludes hphase | verifies hphase
  | ends hphase =>
    exact .inr (.inl ⟨by simp [hphase, Phase.owes], rfl, rfl, rfl, rfl⟩)
  | _ => exact .inl ⟨rfl, rfl⟩

omit [DecidableEq Cwd] in
theorem Moves.recorded (hmove : Moves job g m action m')
    (h : m.phase.prepared = true ∨ m.snapshot.isSome = true → m.workspace.isSome = true) :
    m'.phase.prepared = true ∨ m'.snapshot.isSome = true → m'.workspace.isSome = true := by
  cases hmove with
  | prepares => exact fun _ => rfl
  | acquires | setsUp | aborts | throws | concludes | leaves | verifies | ends =>
    intro hlater
    exact h (.inr (hlater.resolve_left nofun))
  | exits => exact h
  | handsIn hphase | runs hphase | returns hphase | evaluates hphase | skipsGates hphase
  | evaluatesLate hphase | captures hphase | captured hphase | validates hphase
  | keepsCapture hphase | reevaluates hphase | recaptures hphase | fixes hphase
  | spawnsAgent hphase | spawnsGate hphase =>
    exact fun _ => h (.inl (by rw [hphase]; rfl))

theorem Phase.not_finalized_of_fallible {phase : Phase} (h : phase.fallible = true) :
    phase.finalized = false := by
  cases phase <;> first | rfl | cases h

omit [DecidableEq Cwd] in
/-- Nothing leads back from behind the last barrier. -/
theorem Moves.closed (hmove : Moves job g m action m')
    (h : m.arrived .finished = true → m.phase.finalized = true) :
    m'.arrived .finished = true → m'.phase.finalized = true := by
  intro harrived
  cases hmove with
  | concludes | leaves | verifies | ends => rfl
  | exits => exact h harrived
  | throws hfallible =>
    rw [Phase.not_finalized_of_fallible hfallible] at h
    exact absurd (h harrived) nofun
  | aborts hphase =>
    obtain hphase | hphase := hphase <;>
      · rw [hphase] at h
        exact absurd (h harrived) nofun
  | handsIn hphase | runs hphase | returns hphase | evaluates hphase | skipsGates hphase
  | evaluatesLate hphase | captures hphase | captured hphase | validates hphase
  | keepsCapture hphase | reevaluates hphase | recaptures hphase | fixes hphase
  | spawnsAgent hphase | spawnsGate hphase | acquires hphase | setsUp hphase
  | prepares hphase =>
    rw [hphase] at h
    exact absurd (h harrived) nofun

omit [DecidableEq Cwd] in
theorem Moves.times (hmove : Moves job g m action m')
    (hexited : ∀ exit ∈ m.lastExit, exit < g.now)
    (hhanded : ∀ snapshot ∈ m.snapshot, snapshot.handedIn < g.now) :
    (∀ exit ∈ m'.lastExit, exit < g.now + 1) ∧
      ∀ snapshot ∈ m'.snapshot, snapshot.handedIn < g.now + 1 := by
  have hexit : ∀ exit ∈ m.lastExit, exit < g.now + 1 :=
    fun exit hmem => lt_succ_of_lt (hexited exit hmem)
  have hsnapshot : ∀ snapshot ∈ m.snapshot, snapshot.handedIn < g.now + 1 :=
    fun snapshot hmem => lt_succ_of_lt (hhanded snapshot hmem)
  cases hmove with
  | exits =>
    refine ⟨?_, hsnapshot⟩
    intro exit hmem
    cases hmem
    exact lt_succ_self _
  | handsIn =>
    refine ⟨hexit, ?_⟩
    intro snapshot hmem
    cases hmem
    exact lt_succ_self _
  | _ => exact ⟨hexit, hsnapshot⟩

omit [DecidableEq Cwd] in
/-- One move of a job that hands in and leaves without processes. -/
theorem Moves.sound (hmove : Moves job g m action m') (h : m.Sound g.now)
    (hhandsIn : m.phase = .reporting → action = .handsIn → m.alive = 0)
    (hleaves : m.phase = .leaving → action = .finalizes → m.alive = 0) :
    m'.Sound (g.now + 1) where
  recorded := hmove.recorded h.recorded
  quiet := by
    intro howes
    obtain ⟨hdebt, -⟩ | ⟨hbefore, -, halive, -⟩ | ⟨hphase, haction, -, halive, -⟩ |
      ⟨hphase, haction, -, halive, -⟩ := hmove.effect h.quiet
    · rw [howes] at hdebt
      cases hdebt
    · rw [halive]
      exact h.quiet hbefore
    · rw [halive]
      exact hhandsIn hphase haction
    · rw [halive]
      exact hleaves hphase haction
  exited := (hmove.times h.exited h.handed).1
  handed := (hmove.times h.exited h.handed).2
  closed := hmove.closed h.closed

theorem Member.EndedBefore.congr {began : Option Nat} (h : m.EndedBefore began)
    (halive : m'.alive = m.alive) (hexit : m'.lastExit = m.lastExit) : m'.EndedBefore began := by
  unfold Member.EndedBefore
  rw [halive, hexit]
  exact h

end

/-! ### What one event keeps -/

/-- The newest snapshot of a directory shows what its jobs wrote, except the jobs that
owe a snapshot of their own. -/
structure Group.Covered (jobs : Fin n → Job Cwd) (g : Group n) : Prop where
  sound : ∀ i, (g.member i).Sound g.now
  newest : ∀ i snapshot, g.IsNewest jobs i snapshot → ∀ j, (jobs j).cwd = (jobs i).cwd →
    (g.member j).phase.owes = true ∨ (g.member j).EndedBefore snapshot.began

omit [DecidableEq Cwd] in
theorem Group.covered_start (jobs : Fin n → Job Cwd) : (Group.start n).Covered jobs where
  sound := fun _ =>
    { recorded := fun h => h.elim nofun nofun
      quiet := fun _ => rfl
      exited := nofun
      handed := nofun
      closed := nofun }
  newest := fun _ _ h => nomatch h.1

section

variable {jobs : Fin n → Job Cwd} {g g' : Group n}

omit [DecidableEq Cwd] in
theorem Group.IsNewest.of_eq {i : Fin n} {snapshot : Snapshot} (h : g'.IsNewest jobs i snapshot)
    (hsame : ∀ j, (jobs j).cwd = (jobs i).cwd → (g'.member j).snapshot = (g.member j).snapshot) :
    g.IsNewest jobs i snapshot := by
  refine ⟨(hsame i rfl).symm.trans h.1, ?_⟩
  intro j hcwd other hother
  rw [← hsame j hcwd] at hother
  exact h.2 j hcwd other hother

theorem Group.Covered.newest_update (h : g.Covered jobs) {i : Fin n} {action : Action}
    {m : Member} (hmove : Moves (jobs i) g (g.member i) action m)
    (hcurrent : g.Current jobs (.acts i action))
    (hmember : g'.member = Function.update g.member i m) :
    ∀ k snapshot, g'.IsNewest jobs k snapshot → ∀ j, (jobs j).cwd = (jobs k).cwd →
      (g'.member j).phase.owes = true ∨ (g'.member j).EndedBefore snapshot.began := by
  intro k snapshot hnewest j hcwd
  have hself : g'.member i = m := by rw [hmember, update_self]
  have hother : ∀ other, other ≠ i → g'.member other = g.member other := by
    intro other hne
    rw [hmember, update_of_ne hne]
  -- as long as the directory has the same snapshots, only the acting job matters
  have hkept : (∀ other, (jobs other).cwd = (jobs k).cwd →
      (g'.member other).snapshot = (g.member other).snapshot) →
      (g.member j).phase.owes = true ∨ (g.member j).EndedBefore snapshot.began :=
    fun hsame => h.newest k snapshot (hnewest.of_eq hsame) j hcwd
  have hsnapshots : m.snapshot = (g.member i).snapshot → ∀ other,
      (g'.member other).snapshot = (g.member other).snapshot := by
    intro hsnapshot other
    by_cases hsame : other = i
    · rw [hsame, hself, hsnapshot]
    · rw [hother other hsame]
  obtain ⟨hdebt, hsnapshot⟩ | ⟨hbefore, -, halive, hexit, hsnapshot⟩ |
    ⟨hphase, rfl, -, halive, hexit, hsnapshot⟩ | ⟨hphase, rfl, -, halive, hexit, hsnapshot⟩ :=
    hmove.effect (h.sound i).quiet
  · by_cases hj : j = i
    · exact .inl (by rw [hj, hself, hdebt])
    · rw [hother j hj]
      exact hkept fun other _ => hsnapshots hsnapshot other
  · have hold := hkept fun other _ => hsnapshots hsnapshot other
    by_cases hj : j = i
    · subst hj
      rw [hbefore] at hold
      rw [hself]
      exact .inr ((hold.resolve_left nofun).congr halive hexit)
    · rw [hother j hj]
      exact hold
  · by_cases hdirectory : (jobs i).cwd = (jobs k).cwd
    · -- the snapshot of the acting job is newer than all others
      have hmax : g.now ≤ snapshot.handedIn :=
        hnewest.2 i hdirectory ⟨(g.member i).held, g.now⟩ (by rw [hself]; exact hsnapshot)
      have hk : k = i := by
        by_contra hne
        have hold : (g.member k).snapshot = some snapshot := by
          rw [← hother k hne]
          exact hnewest.1
        have hpast : snapshot.handedIn < g.now := (h.sound k).handed snapshot hold
        omega
      subst hk
      have hgiven : snapshot = ⟨(g.member k).held, g.now⟩ := by
        have hown : m.snapshot = some snapshot := by
          rw [← hself]
          exact hnewest.1
        exact Option.some.inj (hown.symm.trans hsnapshot)
      rw [hgiven]
      obtain hended | ⟨hne, howes⟩ := hcurrent hphase j hcwd
      · by_cases hj : j = k
        · subst hj
          rw [hself]
          exact .inr (hended.congr halive hexit)
        · rw [hother j hj]
          exact .inr hended
      · rw [hother j hne]
        exact .inl howes
    · have hj : j ≠ i := fun heq => hdirectory (heq ▸ hcwd)
      rw [hother j hj]
      refine hkept ?_
      intro other hsame
      rw [hother other fun heq => hdirectory (heq ▸ hsame)]
  · have hold := hkept fun other _ => hsnapshots hsnapshot other
    by_cases hj : j = i
    · subst hj
      have hnow : g.IsNewest jobs k snapshot :=
        hnewest.of_eq fun other _ => hsnapshots hsnapshot other
      rw [hself]
      exact .inr (((hcurrent hphase).2 k hcwd.symm snapshot hnow.1 hnow).congr halive hexit)
    · rw [hother j hj]
      exact hold

end

omit [DecidableEq Cwd] in
theorem Member.Sound.later {m : Member} {now : Nat} (h : m.Sound now) : m.Sound (now + 1) where
  recorded := h.recorded
  quiet := h.quiet
  exited := fun exit hmem => lt_succ_of_lt (h.exited exit hmem)
  handed := fun snapshot hmem => lt_succ_of_lt (h.handed snapshot hmem)
  closed := h.closed

section

variable {jobs : Fin n → Job Cwd} {g : Group n}

theorem Group.Covered.act (h : g.Covered jobs) {i : Fin n} {action : Action}
    (hcurrent : g.Current jobs (.acts i action)) :
    (step jobs g (.acts i action)).Covered jobs := by
  obtain heq | ⟨m, hmove, heq⟩ := act_cases jobs g i action
  · have hstep : step jobs g (.acts i action) = { g with now := g.now + 1 } := by
      rw [step, heq]
    rw [hstep]
    exact ⟨fun j => (h.sound j).later, h.newest⟩
  · have hmember : (step jobs g (.acts i action)).member = Function.update g.member i m := by
      rw [step, heq]
    have hnow : (step jobs g (.acts i action)).now = g.now + 1 := rfl
    refine ⟨?_, h.newest_update hmove hcurrent hmember⟩
    intro j
    rw [hmember, hnow]
    by_cases hj : j = i
    · subst hj
      rw [update_self]
      refine hmove.sound (h.sound j) ?_ ?_
      · rintro hphase rfl
        obtain hended | ⟨hne, -⟩ := hcurrent hphase j rfl
        · exact hended.1
        · exact absurd rfl hne
      · rintro hphase rfl
        exact (hcurrent hphase).1
    · rw [update_of_ne hj]
      exact (h.sound j).later

theorem Group.Covered.step (h : g.Covered jobs) {event : Event n}
    (hcurrent : g.Current jobs event) : (step jobs g event).Covered jobs := by
  cases event with
  | stops => exact ⟨fun i => (h.sound i).later, h.newest⟩
  | settles => exact ⟨fun i => (h.sound i).later, h.newest⟩
  | acts i action => exact h.act hcurrent

/-! ### What the scope check compares -/

theorem head?_insertionSort {α : Type} {r : α → α → Prop} [DecidableRel r] {l : List α} {a : α}
    (total : ∀ x y, r x y ∨ r y x) (trans : ∀ x y z, r x y → r y z → r x z)
    (h : (l.insertionSort r).head? = some a) : a ∈ l ∧ ∀ x ∈ l, r a x := by
  have : Std.Total r := ⟨total⟩
  have : IsTrans α r := ⟨trans⟩
  obtain ⟨rest, hsort⟩ := List.head?_eq_some_iff.mp h
  have hsorted : (a :: rest).Pairwise r := hsort ▸ List.pairwise_insertionSort r l
  refine ⟨(List.mem_insertionSort r).mp (by rw [hsort]; exact List.mem_cons_self ..), ?_⟩
  intro x hx
  have hx' : x ∈ a :: rest := hsort ▸ (List.mem_insertionSort r).mpr hx
  obtain rfl | hrest := List.mem_cons.mp hx'
  · exact (total x x).elim id id
  · exact (List.pairwise_cons.mp hsorted).1 x hrest

theorem Group.mem_indexesForCwd {cwd : Cwd} {i : Fin n} :
    i ∈ g.indexesForCwd jobs cwd ↔
      (g.member i).workspace.isSome = true ∧ (jobs i).cwd = cwd := by
  simp [Group.indexesForCwd]

theorem Group.Covered.last_isNewest (h : g.Covered jobs) {cwd : Cwd} {snapshot : Snapshot}
    (hlast : g.last jobs cwd = some snapshot) :
    ∃ i, (jobs i).cwd = cwd ∧ g.IsNewest jobs i snapshot := by
  obtain ⟨hmem, hmax⟩ := head?_insertionSort
    (r := fun a b : Snapshot => b.handedIn ≤ a.handedIn)
    (fun a b => le_total b.handedIn a.handedIn) (fun _ _ _ hab hbc => hbc.trans hab) hlast
  obtain ⟨i, hi, hsnapshot⟩ := List.mem_filterMap.mp hmem
  have hcwd : (jobs i).cwd = cwd := (Group.mem_indexesForCwd.mp hi).2
  refine ⟨i, hcwd, hsnapshot, ?_⟩
  intro j hj other hother
  -- who handed in a snapshot had recorded its workspace
  have hworkspace : (g.member j).workspace.isSome = true :=
    (h.sound j).recorded (.inr (Option.isSome_of_mem hother))
  exact hmax other (List.mem_filterMap.mpr
    ⟨j, Group.mem_indexesForCwd.mpr ⟨hworkspace, hj.trans hcwd⟩, hother⟩)

/-- Without a snapshot the scope report captures the directory itself. -/
theorem Group.Covered.endedBefore_compared (h : g.Covered jobs) {i : Fin n}
    (hfinalized : (g.member i).phase.finalized = true) :
    (g.member i).EndedBefore (g.comparedBegan jobs (jobs i).cwd) := by
  have howes : (g.member i).phase.owes = false := by
    cases hphase : (g.member i).phase <;> rw [hphase] at hfinalized <;>
      first | rfl | cases hfinalized
  cases hlast : g.last jobs (jobs i).cwd with
  | none =>
    rw [Group.comparedBegan, hlast]
    refine ⟨(h.sound i).quiet howes, ?_⟩
    intro exit hexit
    exact ⟨g.now, rfl, (h.sound i).exited exit hexit⟩
  | some snapshot =>
    rw [Group.comparedBegan, hlast]
    obtain ⟨k, hcwd, hnewest⟩ := h.last_isNewest hlast
    have hcovered := h.newest k snapshot hnewest i hcwd.symm
    rw [howes] at hcovered
    exact hcovered.resolve_left nofun

end

/-- Two jobs without gates in one checkout. -/
def twoJobs : Fin 2 → Job Nat := fun _ => ⟨0, false, false, false⟩

/-- Both jobs run their agents, meet at the barriers and hand in what they captured. -/
def orderlyRun : List (Event 2) :=
  [.acts 0 .acquires, .acts 1 .acquires, .acts 0 .resumes, .acts 1 .resumes,
    .acts 0 .prepares, .acts 1 .prepares, .acts 0 .resumes, .acts 1 .resumes,
    .acts 0 .spawns, .acts 1 .spawns, .acts 0 .exits, .acts 0 .returns, .acts 1 .exits,
    .acts 1 .returns, .acts 0 .resumes, .acts 1 .resumes, .acts 0 .resumes, .acts 1 .resumes,
    .acts 0 .captures, .acts 1 .captures, .acts 0 .captured, .acts 1 .captured,
    .acts 0 .validates, .acts 1 .validates, .acts 0 .resumes, .acts 1 .resumes,
    .acts 1 .handsIn, .acts 0 .handsIn, .acts 0 .finalizes, .acts 1 .finalizes,
    .acts 0 .resumes]

/-- The client aborts while the second agent runs: the first job captures the checkout
at once, and its capture takes longer than the rest of the second job. -/
def abortedRun : List (Event 2) :=
  [.acts 0 .acquires, .acts 1 .acquires, .acts 0 .resumes, .acts 1 .resumes,
    .acts 0 .prepares, .acts 1 .prepares, .acts 0 .resumes, .acts 1 .resumes,
    .acts 0 .spawns, .acts 1 .spawns, .acts 0 .exits, .acts 0 .returns, .stops,
    .acts 0 .resumes, .acts 0 .resumes, .acts 0 .captures, .acts 1 .exits, .acts 1 .returns,
    .acts 1 .resumes, .acts 1 .resumes, .acts 1 .captures, .acts 1 .captured,
    .acts 1 .validates, .acts 1 .resumes, .acts 1 .handsIn, .acts 0 .captured,
    .acts 0 .validates, .acts 0 .resumes, .acts 0 .handsIn, .acts 0 .finalizes,
    .acts 1 .finalizes, .acts 0 .resumes]

end AgentBridge.Parallel
