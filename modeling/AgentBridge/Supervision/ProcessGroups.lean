import Mathlib

/-!
# Process groups

An operating system as far as process groups and an inherited output go. Processes are told
apart by a serial number; a pid is free when no process and no group has it. A group is told
apart by the process that made it, so a group that reuses an id is another group.

One process may be marked: it leads a session, so it never leaves the group it made, and only
its parent reaps it.
-/

namespace AgentBridge.Supervision

open List

structure Group where
  id : Nat
  maker : Nat
  deriving DecidableEq

structure OsProcess where
  serial : Nat
  pid : Nat
  group : Group
  /-- It descends from the marked process. -/
  own : Bool
  /-- It holds the output of the marked process open. -/
  holds : Bool
  zombie : Bool

structure Os where
  processes : List OsProcess
  /-- How many processes have started. -/
  starts : Nat
  /-- The serial number of the marked process. -/
  marked : Option Nat

inductive OsEvent where
  | fork (parent pid : Nat)
  /-- A process that does not descend from the marked one, in a group of its own. -/
  | startOther (pid : Nat)
  /-- `setpgid(0, 0)` or `setsid` -/
  | makeGroup (serial : Nat)
  | joinGroup (serial : Nat) (group : Group)
  | closeOutput (serial : Nat)
  | exits (serial : Nat)
  | reap (serial : Nat)

namespace Os

def free (os : Os) (pid : Nat) : Bool :=
  0 < pid && os.processes.all fun process => process.pid != pid && process.group.id != pid

def find (os : Os) (serial : Nat) : Option OsProcess :=
  os.processes.find? (·.serial = serial)

def add (process : OsProcess) (os : Os) : Os :=
  { os with processes := os.processes ++ [process], starts := os.starts + 1 }

/-- Change one process. -/
def modify (serial : Nat) (f : OsProcess → OsProcess) (os : Os) : Os :=
  { os with
    processes := os.processes.map fun process =>
      if process.serial = serial then f process else process }

/-- A process that leads no session moves to another group. -/
def move (serial : Nat) (group : OsProcess → Group) (os : Os) : Os :=
  if os.marked = some serial then os
  else os.modify serial fun process => { process with group := group process }

def remove (serial : Nat) (os : Os) : Os :=
  { os with processes := os.processes.filter (·.serial ≠ serial) }

def step (os : Os) : OsEvent → Os
  | .fork parent pid =>
    match os.find parent with
    | none => os
    | some process =>
      if process.zombie ∨ os.free pid = false then os
      else os.add { process with serial := os.starts, pid := pid }
  | .startOther pid =>
    if os.free pid then os.add ⟨os.starts, pid, ⟨pid, os.starts⟩, false, false, false⟩ else os
  | .makeGroup serial => os.move serial fun process => ⟨process.pid, process.serial⟩
  | .joinGroup serial group =>
    if os.processes.any (·.group = group) then os.move serial fun _ => group else os
  | .closeOutput serial => os.modify serial fun process => { process with holds := false }
  | .exits serial =>
    os.modify serial fun process => { process with zombie := true, holds := false }
  | .reap serial =>
    if os.marked = some serial then os
    else match os.find serial with
      | none => os
      | some process => if process.zombie then os.remove serial else os

/-- Start the marked process under a free pid, as the leader of a session. -/
def startMarked (pid : Nat) (os : Os) : Os :=
  { os.add ⟨os.starts, pid, ⟨pid, os.starts⟩, true, true, false⟩ with marked := some os.starts }

def hasGroup (os : Os) (id : Nat) : Bool := os.processes.any (·.group.id = id)

/-- Nobody is left in the group that the marked process made. -/
def Deserted (os : Os) : Prop := ∀ process ∈ os.processes, os.marked ≠ some process.group.maker

/-- Nobody holds the output of the marked process. -/
def Silent (os : Os) : Prop := ∀ process ∈ os.processes, process.holds = false

/-- The id is carried by no group but that of the marked process. -/
def Unshared (os : Os) (id : Nat) : Prop :=
  ∀ process ∈ os.processes, process.group.id = id → os.marked = some process.group.maker

/-- The invariant: serial numbers are past, and the group of the marked process has its id. -/
structure Ok (os : Os) (pid : Nat) : Prop where
  serials : ∀ process ∈ os.processes,
    process.serial < os.starts ∧ process.group.maker < os.starts
  marked : ∀ serial, os.marked = some serial → serial < os.starts
  id : ∀ process ∈ os.processes, os.marked = some process.group.maker → process.group.id = pid

variable {os : Os} {pid serial : Nat}

theorem mem_add {process other : OsProcess} :
    other ∈ (os.add process).processes ↔ other ∈ os.processes ∨ other = process := by
  simp [add]

theorem forall_modify {P : OsProcess → Prop} {f : OsProcess → OsProcess}
    (h : ∀ process ∈ os.processes, P process)
    (hf : ∀ process ∈ os.processes, process.serial = serial → P (f process)) :
    ∀ process ∈ (os.modify serial f).processes, P process := by
  intro process' hprocess'
  obtain ⟨process, hprocess, rfl⟩ := mem_map.mp hprocess'
  split
  · next hserial => exact hf process hprocess hserial
  · exact h process hprocess

theorem mem_of_find {process : OsProcess} (h : os.find serial = some process) :
    process ∈ os.processes := mem_of_find?_eq_some h

/-! ### What a step keeps -/

theorem step_marked (os : Os) (event : OsEvent) : (os.step event).marked = os.marked := by
  cases event with
  | fork parent pid =>
    rw [step]
    split
    · rfl
    · split <;> rfl
  | startOther pid => rw [step]; split <;> rfl
  | makeGroup serial => rw [step, move]; split <;> rfl
  | joinGroup serial group =>
    rw [step]
    split
    · rw [move]; split <;> rfl
    · rfl
  | closeOutput serial => rfl
  | exits serial => rfl
  | reap serial =>
    rw [step]
    split
    · rfl
    · split
      · rfl
      · split <;> rfl

/-- A property of a process that a process keeps when it ends or lets go of the output, that
its children have, and that a move keeps, holds of every process after a step if the other
new processes have it. -/
theorem forall_step {P : OsProcess → Prop} (os : Os) (event : OsEvent)
    (h : ∀ process ∈ os.processes, P process)
    (child : (os.step event).starts = os.starts + 1 → ∀ process ∈ os.processes, ∀ pid,
      P process → P { process with serial := os.starts, pid := pid })
    (other : (os.step event).starts = os.starts + 1 → ∀ pid,
      P ⟨os.starts, pid, ⟨pid, os.starts⟩, false, false, false⟩)
    (own : ∀ process ∈ os.processes, os.marked ≠ some process.serial → P process →
      P { process with group := ⟨process.pid, process.serial⟩ })
    (join : ∀ process ∈ os.processes, ∀ member ∈ os.processes, P process → P member →
      P { process with group := member.group })
    (ended : ∀ process zombie, P process → P { process with zombie := zombie, holds := false }) :
    ∀ process ∈ (os.step event).processes, P process := by
  cases event with
  | fork parent pid =>
    rw [step] at child ⊢
    cases hfind : os.find parent with
    | none => exact h
    | some process =>
      simp only [hfind] at child ⊢
      split
      · exact h
      · next hrefused =>
        intro new hnew
        rcases mem_add.mp hnew with hnew | rfl
        · exact h new hnew
        · rw [if_neg hrefused] at child
          exact child rfl process (mem_of_find hfind) pid (h process (mem_of_find hfind))
  | startOther pid =>
    rw [step] at other ⊢
    split
    · next hfree =>
      intro new hnew
      rcases mem_add.mp hnew with hnew | rfl
      · exact h new hnew
      · rw [if_pos hfree] at other
        exact other rfl pid
    · exact h
  | makeGroup serial =>
    rw [step, move]
    split
    · exact h
    · next hmarked =>
      refine forall_modify h ?_
      intro process hprocess hserial
      exact own process hprocess (hserial ▸ hmarked) (h process hprocess)
  | joinGroup serial group =>
    rw [step]
    split
    · next hany =>
      obtain ⟨member, hmember, hgroup⟩ := any_eq_true.mp hany
      have hgroup : member.group = group := by simpa using hgroup
      rw [move]
      split
      · exact h
      · refine forall_modify h ?_
        intro process hprocess _
        rw [← hgroup]
        exact join process hprocess member hmember (h process hprocess) (h member hmember)
    · exact h
  | closeOutput serial =>
    refine forall_modify h ?_
    exact fun process hprocess _ => ended process process.zombie (h process hprocess)
  | exits serial =>
    refine forall_modify h ?_
    exact fun process hprocess _ => ended process true (h process hprocess)
  | reap serial =>
    rw [step]
    split
    · exact h
    · split
      · exact h
      · split
        · exact fun process hprocess => h process (mem_of_mem_filter hprocess)
        · exact h

theorem starts_le_step (os : Os) (event : OsEvent) : os.starts ≤ (os.step event).starts := by
  cases event with
  | fork parent pid =>
    rw [step]
    split
    · exact Nat.le_refl _
    · split
      · exact Nat.le_refl _
      · exact Nat.le_succ _
  | startOther pid =>
    rw [step]
    split
    · exact Nat.le_succ _
    · exact Nat.le_refl _
  | makeGroup serial => rw [step, move]; split <;> exact Nat.le_refl _
  | joinGroup serial group =>
    rw [step]
    split
    · rw [move]; split <;> exact Nat.le_refl _
    · exact Nat.le_refl _
  | closeOutput serial => exact Nat.le_refl _
  | exits serial => exact Nat.le_refl _
  | reap serial =>
    rw [step]
    split
    · exact Nat.le_refl _
    · split
      · exact Nat.le_refl _
      · split <;> exact Nat.le_refl _

theorem Ok.step (h : os.Ok pid) (event : OsEvent) : (os.step event).Ok pid := by
  have hmarked := step_marked os event
  have hstarts := starts_le_step os event
  constructor
  case serials =>
    refine forall_step os event ?_ ?_ ?_ ?_ ?_ ?_
    · intro process hprocess
      have hold := h.serials process hprocess
      omega
    · intro hnext process _ _ hold
      exact ⟨by show os.starts < _; omega, hold.2⟩
    · intro hnext _
      constructor <;> show os.starts < _ <;> omega
    · intro process hprocess _ hold
      exact ⟨hold.1, hold.1⟩
    · intro process _ member _ hold hmember
      exact ⟨hold.1, hmember.2⟩
    · exact fun _ _ hold => hold
  case marked =>
    intro serial hserial
    rw [hmarked] at hserial
    have := h.marked serial hserial
    omega
  case id =>
    rw [hmarked]
    refine forall_step os event h.id ?_ ?_ ?_ ?_ ?_
    · exact fun _ _ _ _ hold => hold
    · intro _ _ hself
      exact absurd (h.marked _ hself) (Nat.lt_irrefl os.starts)
    · intro process _ hne _ hself
      exact absurd hself hne
    · exact fun _ _ _ _ _ hmember => hmember
    · exact fun _ _ hold => hold

theorem Deserted.step (h : os.Deserted) (hok : os.Ok pid) (event : OsEvent) :
    (os.step event).Deserted := by
  unfold Deserted
  rw [step_marked]
  refine forall_step os event h ?_ ?_ ?_ ?_ ?_
  · exact fun _ _ _ _ hold => hold
  · intro _ _ hself
    exact absurd (hok.marked _ hself) (Nat.lt_irrefl os.starts)
  · exact fun _ _ hne _ => hne
  · exact fun _ _ _ _ _ hmember => hmember
  · exact fun _ _ hold => hold

theorem Silent.step (h : os.Silent) (event : OsEvent) : (os.step event).Silent := by
  refine forall_step os event h ?_ ?_ ?_ ?_ ?_
  · exact fun _ _ _ _ hold => hold
  · exact fun _ _ => rfl
  · exact fun _ _ _ hold => hold
  · exact fun _ _ _ _ hold _ => hold
  · exact fun _ _ _ => rfl

theorem exists_modify {P : OsProcess → Prop} {f : OsProcess → OsProcess}
    (hf : ∀ process, P process → P (f process)) (h : ∃ process ∈ os.processes, P process) :
    ∃ process ∈ (os.modify serial f).processes, P process := by
  obtain ⟨process, hprocess, hP⟩ := h
  refine ⟨_, mem_map_of_mem hprocess, ?_⟩
  split
  · exact hf process hP
  · exact hP

theorem exists_marked_step (event : OsEvent)
    (h : ∃ process ∈ os.processes, os.marked = some process.serial) :
    ∃ process ∈ (os.step event).processes, (os.step event).marked = some process.serial := by
  rw [step_marked]
  have added : ∀ new, ∃ process ∈ (os.add new).processes, os.marked = some process.serial := by
    intro new
    obtain ⟨process, hprocess, hmarked⟩ := h
    exact ⟨process, mem_add.mpr (Or.inl hprocess), hmarked⟩
  have moved : ∀ serial group,
      ∃ process ∈ (os.move serial group).processes, os.marked = some process.serial := by
    intro serial group
    rw [move]
    split
    · exact h
    · exact exists_modify (fun _ hmarked => hmarked) h
  cases event with
  | fork parent pid =>
    rw [step]
    split
    · exact h
    · split
      · exact h
      · exact added _
  | startOther pid =>
    rw [step]
    split
    · exact added _
    · exact h
  | makeGroup serial => exact moved _ _
  | joinGroup serial group =>
    rw [step]
    split
    · exact moved _ _
    · exact h
  | closeOutput serial => exact exists_modify (fun _ hmarked => hmarked) h
  | exits serial => exact exists_modify (fun _ hmarked => hmarked) h
  | reap serial =>
    rw [step]
    split
    · exact h
    · next hne =>
      split
      · exact h
      · split
        · obtain ⟨process, hprocess, hmarked⟩ := h
          refine ⟨process, mem_filter.mpr ⟨hprocess, ?_⟩, hmarked⟩
          rw [hmarked] at hne
          simpa using fun heq => hne (congrArg some heq)
        · exact h

theorem Ok.startMarked {new : Nat} (h : os.Ok pid) : (os.startMarked new).Ok new where
  serials process hprocess := by
    rcases mem_add.mp hprocess with hprocess | rfl
    · have := h.serials process hprocess
      show process.serial < os.starts + 1 ∧ process.group.maker < os.starts + 1
      omega
    · exact ⟨Nat.lt_succ_self _, Nat.lt_succ_self _⟩
  marked serial hserial := by
    obtain rfl := Option.some.inj hserial
    exact Nat.lt_succ_self _
  id process hprocess hself := by
    rcases mem_add.mp hprocess with hprocess | rfl
    · have := h.serials process hprocess
      have hself : os.starts = process.group.maker := Option.some.inj hself
      omega
    · rfl

theorem exists_marked_startMarked (os : Os) (new : Nat) :
    ∃ process ∈ (os.startMarked new).processes,
      (os.startMarked new).marked = some process.serial :=
  ⟨_, mem_add.mpr (Or.inr rfl), rfl⟩

theorem Ok.remove (h : os.Ok pid) : (os.remove serial).Ok pid where
  serials process hprocess := h.serials process (mem_of_mem_filter hprocess)
  marked := h.marked
  id process hprocess := h.id process (mem_of_mem_filter hprocess)

theorem Deserted.remove (h : os.Deserted) : (os.remove serial).Deserted :=
  fun process hprocess => h process (mem_of_mem_filter hprocess)

theorem Silent.remove (h : os.Silent) : (os.remove serial).Silent :=
  fun process hprocess => h process (mem_of_mem_filter hprocess)

/-- Without a group of its id the group of the marked process is deserted. -/
theorem Ok.deserted (h : os.Ok pid) (hnone : os.hasGroup pid = false) : os.Deserted := by
  intro process hprocess hself
  rw [hasGroup, any_eq_false] at hnone
  exact hnone process hprocess (by simpa using h.id process hprocess hself)

end Os

end AgentBridge.Supervision
