import Mathlib

/-!
# Descendants of a payload that has exited

`windowsDescendantsAfterExit`. The payload's pid may belong to another process by now, so its
descendants are looked for in a process snapshot by parent pid and creation time. The history
of the machine says who created whom; a snapshot has the processes that live at its time.

A snapshot keeps creation times in ticks of 100 ns, the search compares them in milliseconds.
-/

namespace AgentBridge.Supervision

open List

/-! ### The search -/

structure WindowsProcess where
  pid : Nat
  parentPid : Nat
  creationFileTime : Nat
  deriving DecidableEq

/-- Milliseconds since 1970 of a time in ticks since 1601. -/
def windowsFileTimeToMs (fileTime : Nat) : Int := (fileTime / 10000 : Nat) - 11644473600000

def WindowsProcess.createdMs (item : WindowsProcess) : Int :=
  windowsFileTimeToMs item.creationFileTime

/-- Of the lines of a snapshot, those with a usable creation time. -/
def parseWindowsProcessSnapshot (lines : List WindowsProcess) : List WindowsProcess :=
  lines.filter fun item => 0 < item.createdMs

def DESCENDANT_CREATION_TOLERANCE_MS : Int := 1000

/-- The group of `pid` in the map `byParent`. -/
def byParent (candidates : List WindowsProcess) (pid : Nat) : List WindowsProcess :=
  candidates.filter fun item => item.parentPid = pid

/-- The loop over `queue`; `none` when `fuel` runs out. -/
def selectFrom (candidates : List WindowsProcess) :
    Nat → List Nat → List WindowsProcess → Option (List WindowsProcess)
  | _, _, [] => some []
  | 0, _, _ :: _ => none
  | fuel + 1, seen, item :: queue =>
    if item.pid ∈ seen then selectFrom candidates fuel seen queue
    else
      let children := (byParent candidates item.pid).filter fun child =>
        item.createdMs ≤ child.createdMs ∧ child.pid ∉ item.pid :: seen
      (selectFrom candidates fuel (item.pid :: seen) (queue ++ children)).map (item :: ·)

def candidatesOf (processes : List WindowsProcess) (rootPid : Nat) : List WindowsProcess :=
  processes.filter fun item => item.pid ≠ rootPid ∧ 4 < item.pid

def firstLevel (candidates : List WindowsProcess) (rootPid : Nat)
    (rootStartedAtMs exitObservedAtMs : Int) : List WindowsProcess :=
  (byParent candidates rootPid).filter fun item =>
    rootStartedAtMs - DESCENDANT_CREATION_TOLERANCE_MS ≤ item.createdMs ∧
      item.createdMs ≤ exitObservedAtMs

def windowsDescendantsAfterExit (processes : List WindowsProcess) (rootPid : Nat)
    (rootStartedAtMs exitObservedAtMs : Int) : Option (List WindowsProcess) :=
  if rootPid = 0 ∨ rootStartedAtMs = 0 ∨ exitObservedAtMs = 0 then some []
  else
    let candidates := candidatesOf processes rootPid
    selectFrom candidates (2 * processes.length) []
      (firstLevel candidates rootPid rootStartedAtMs exitObservedAtMs)

section Search

variable {candidates queue selected : List WindowsProcess} {item child : WindowsProcess}
variable {seen : List Nat} {fuel : Nat}

/-- The search goes from a process to the ones below it. -/
def Linked (candidates : List WindowsProcess) (item child : WindowsProcess) : Prop :=
  child ∈ candidates ∧ child.parentPid = item.pid ∧ item.createdMs ≤ child.createdMs

theorem mem_byParent {pid : Nat} :
    child ∈ byParent candidates pid ↔ child ∈ candidates ∧ child.parentPid = pid := by
  simp [byParent]

/-- The processes that can still be put in the queue. -/
def waiting (candidates : List WindowsProcess) (seen : List Nat) : Nat :=
  (candidates.filter fun item => item.parentPid ∉ seen).length

theorem waiting_cons {pid : Nat} (h : pid ∉ seen) :
    (byParent candidates pid).length + waiting candidates (pid :: seen) =
      waiting candidates seen := by
  simp only [byParent, waiting, ← countP_eq_length_filter]
  induction candidates with
  | nil => rfl
  | cons item candidates ih =>
    simp only [countP_cons]
    by_cases hitem : item.parentPid = pid
    · subst hitem
      simp only [h, mem_cons, true_or, not_true, not_false_iff, decide_true, decide_false] at ih ⊢
      simp only [if_true, Bool.false_eq_true, if_false]
      omega
    · simp only [hitem, mem_cons, false_or, decide_false, Bool.false_eq_true, if_false] at ih ⊢
      omega

/-- Each turn takes a process from the queue, and a process is put there once. -/
theorem selectFrom_total (h : queue.length + waiting candidates seen ≤ fuel) :
    ∃ selected, selectFrom candidates fuel seen queue = some selected := by
  fun_induction selectFrom candidates fuel seen queue with
  | case1 => exact ⟨[], rfl⟩
  | case2 seen item queue => exact absurd h (by simp)
  | case3 fuel seen item queue hseen ih =>
    apply ih
    rw [length_cons] at h
    omega
  | case4 fuel seen item queue hnew children ih =>
    have hchildren : children.length ≤ (byParent candidates item.pid).length :=
      length_filter_le _ _
    have hwaiting := @waiting_cons candidates _ _ hnew
    obtain ⟨selected, hselected⟩ := ih (by simp only [length_append, length_cons] at h ⊢; omega)
    exact ⟨item :: selected, by rw [hselected]; rfl⟩

/-- What the loop returns: linked to the queue, no pid twice, and closed under links. -/
structure Selects (candidates : List WindowsProcess) (seen : List Nat)
    (queue selected : List WindowsProcess) : Prop where
  linked : ∀ child ∈ selected, ∃ item ∈ queue, Relation.ReflTransGen (Linked candidates) item child
  nodup : (selected.map WindowsProcess.pid).Nodup
  unseen : ∀ child ∈ selected, child.pid ∉ seen
  closed : ∀ child, (child ∈ queue ∨ ∃ item ∈ selected, Linked candidates item child) →
    child.pid ∈ seen ∨ ∃ other ∈ selected, other.pid = child.pid

theorem selects_of_selectFrom (h : selectFrom candidates fuel seen queue = some selected) :
    Selects candidates seen queue selected := by
  revert selected
  fun_induction selectFrom candidates fuel seen queue with
  | case1 =>
    intro selected h
    obtain rfl := Option.some.inj h
    exact ⟨by simp, nodup_nil, by simp, by simp⟩
  | case2 =>
    intro selected h
    cases h
  | case3 fuel seen item queue hseen ih =>
    intro selected h
    obtain ⟨hlinked, hnodup, hunseen, hclosed⟩ := ih h
    refine ⟨fun child hchild => ?_, hnodup, hunseen, fun child hchild => ?_⟩
    · obtain ⟨start, hstart, hpath⟩ := hlinked child hchild
      exact ⟨start, mem_cons_of_mem _ hstart, hpath⟩
    · rw [mem_cons, or_assoc] at hchild
      cases hchild with
      | inl heq => exact .inl (heq ▸ hseen)
      | inr hchild => exact hclosed child hchild
  | case4 fuel seen item queue hnew =>
    rename_i children ih
    intro selected h
    obtain ⟨rest, hrest, rfl⟩ := Option.map_eq_some_iff.mp h
    obtain ⟨hlinked, hnodup, hunseen, hclosed⟩ := ih hrest
    refine ⟨fun child hchild => ?_, ?_, fun child hchild => ?_, fun child hchild => ?_⟩
    · cases mem_cons.mp hchild with
      | inl heq => exact ⟨item, mem_cons_self, heq ▸ .refl⟩
      | inr hchild =>
        obtain ⟨start, hstart, hpath⟩ := hlinked child hchild
        cases mem_append.mp hstart with
        | inl hqueue => exact ⟨start, mem_cons_of_mem _ hqueue, hpath⟩
        | inr hbelow =>
          obtain ⟨hmem, htest⟩ := mem_filter.mp hbelow
          have hlink : Linked candidates item start :=
            ⟨(mem_byParent.mp hmem).1, (mem_byParent.mp hmem).2, (of_decide_eq_true htest).1⟩
          exact ⟨item, mem_cons_self, hpath.head hlink⟩
    · rw [map_cons, nodup_cons]
      refine ⟨fun hmem => ?_, hnodup⟩
      obtain ⟨child, hchild, hpid⟩ := mem_map.mp hmem
      exact hunseen child hchild (hpid ▸ mem_cons_self)
    · cases mem_cons.mp hchild with
      | inl heq => exact heq ▸ hnew
      | inr hchild => exact fun hseen => hunseen child hchild (mem_cons_of_mem _ hseen)
    · have hfound : child.pid ∈ item.pid :: seen ∨ ∃ other ∈ rest, other.pid = child.pid := by
        by_cases hpid : child.pid ∈ item.pid :: seen
        · exact .inl hpid
        apply hclosed
        rcases hchild with hqueue | ⟨parent, hparent, hlink⟩
        · cases mem_cons.mp hqueue with
          | inl heq => exact absurd (heq ▸ mem_cons_self) hpid
          | inr hqueue => exact .inl (mem_append_left _ hqueue)
        · cases mem_cons.mp hparent with
          | inl heq =>
            subst heq
            refine .inl (mem_append_right _ (mem_filter.mpr ⟨?_, ?_⟩))
            · exact mem_byParent.mpr ⟨hlink.1, hlink.2.1⟩
            · exact decide_eq_true ⟨hlink.2.2, hpid⟩
          | inr hparent => exact .inr ⟨parent, hparent, hlink⟩
      rcases hfound with hpid | ⟨other, hother, hpid⟩
      · cases mem_cons.mp hpid with
        | inl heq => exact .inr ⟨item, mem_cons_self, heq.symm⟩
        | inr hseen => exact .inl hseen
      · exact .inr ⟨other, mem_cons_of_mem _ hother, hpid⟩

end Search

/-! ### Histories and snapshots -/

/-- The processes of a machine; two of one pid live one after the other. -/
structure History where
  processes : List WindowsProcess
  exited : WindowsProcess → Option Nat
  epoch : ∀ item ∈ processes, 0 < item.createdMs
  ends : ∀ item ∈ processes, ∀ time ∈ exited item, item.creationFileTime ≤ time
  reused : ∀ item ∈ processes, ∀ other ∈ processes, item.pid = other.pid → item = other ∨
    (∃ time ∈ exited item, time ≤ other.creationFileTime) ∨
      ∃ time ∈ exited other, time ≤ item.creationFileTime
  /-- The pids up to 4 are those of the system, which is there before the others. -/
  system : ∀ item ∈ processes, item.pid ≤ 4 → ∀ other ∈ processes, 4 < other.pid →
    item.creationFileTime < other.creationFileTime

/-- The holder of the recorded parent pid at the creation is the one that created. -/
def History.Creates (h : History) (parent child : WindowsProcess) : Prop :=
  parent ∈ h.processes ∧ child ∈ h.processes ∧ child.parentPid = parent.pid ∧
    parent.creationFileTime < child.creationFileTime ∧
      ∀ time ∈ h.exited parent, child.creationFileTime ≤ time

/-- A payload whose exit was observed, and a snapshot that is taken then. The start is
recorded when the call that creates the payload has returned. -/
structure AfterExit (h : History) where
  payload : WindowsProcess
  exitedAt : Nat
  rootStartedAtMs : Int
  exitObservedAtMs : Int
  snapshotAt : Nat
  snapshot : List WindowsProcess
  known : payload ∈ h.processes
  user : 4 < payload.pid
  exited : h.exited payload = some exitedAt
  recorded : payload.createdMs ≤ rootStartedAtMs
  observed : windowsFileTimeToMs exitedAt ≤ exitObservedAtMs
  later : exitObservedAtMs ≤ windowsFileTimeToMs snapshotAt
  nodup : snapshot.Nodup
  listed : ∀ item, item ∈ snapshot ↔ item ∈ h.processes ∧ item.creationFileTime ≤ snapshotAt ∧
    ∀ time ∈ h.exited item, snapshotAt < time

variable {h : History}

namespace AfterExit

def search (x : AfterExit h) : Option (List WindowsProcess) :=
  windowsDescendantsAfterExit (parseWindowsProcessSnapshot x.snapshot) x.payload.pid
    x.rootStartedAtMs x.exitObservedAtMs

def Descendant (x : AfterExit h) (item : WindowsProcess) : Prop :=
  Relation.TransGen h.Creates x.payload item

/-- Created by another holder of the payload's pid, within the tolerance before the recorded
start or between the exit and its observation. -/
def Stranger (x : AfterExit h) (item : WindowsProcess) : Prop :=
  item ∈ h.processes ∧ item.parentPid = x.payload.pid ∧
    (item.creationFileTime ≤ x.payload.creationFileTime ∧
        x.rootStartedAtMs - DESCENDANT_CREATION_TOLERANCE_MS ≤ item.createdMs ∨
      x.exitedAt < item.creationFileTime ∧ item.createdMs ≤ x.exitObservedAtMs)

def Exempt (x : AfterExit h) (item : WindowsProcess) : Prop :=
  ∃ stranger, x.Stranger stranger ∧ Relation.ReflTransGen h.Creates stranger item

/-- A living descendant below living ones, none of which has the payload's pid. -/
inductive Connected (x : AfterExit h) : WindowsProcess → Prop
  | child {item} (creates : h.Creates x.payload item) (alive : item ∈ x.snapshot)
      (other : item.pid ≠ x.payload.pid) : Connected x item
  | under {parent item} (above : Connected x parent) (creates : h.Creates parent item)
      (alive : item ∈ x.snapshot) (other : item.pid ≠ x.payload.pid) : Connected x item

structure Correct (x : AfterExit h) (selected : List WindowsProcess) : Prop where
  once : selected.Nodup
  noStranger : ∀ item ∈ selected, x.Descendant item ∨ x.Exempt item
  complete : ∀ item, x.Connected item → item ∈ selected

def candidates (x : AfterExit h) : List WindowsProcess :=
  candidatesOf (parseWindowsProcessSnapshot x.snapshot) x.payload.pid

def firstLevel (x : AfterExit h) : List WindowsProcess :=
  Supervision.firstLevel x.candidates x.payload.pid x.rootStartedAtMs x.exitObservedAtMs

/-- Parent pids and creation times of the snapshot lead from the payload to the process. -/
def Reached (x : AfterExit h) (item : WindowsProcess) : Prop :=
  ∃ child ∈ x.firstLevel, Relation.ReflTransGen (Linked x.candidates) child item

/-- What the recorded times leave undecided does not come up: no unrelated process was created
by an earlier holder of a reached pid in the millisecond in which the present holder was, and
no living child of the payload more than the tolerance before the recorded start. -/
structure Unmistakable (x : AfterExit h) : Prop where
  reuse : ∀ item child, x.Reached item → child ∈ x.candidates → child.parentPid = item.pid →
    child.creationFileTime ≤ item.creationFileTime → child.createdMs = item.createdMs →
      x.Descendant child ∨ x.Exempt child
  start : ∀ child ∈ x.snapshot, h.Creates x.payload child → child.pid ≠ x.payload.pid →
    x.rootStartedAtMs - DESCENDANT_CREATION_TOLERANCE_MS ≤ child.createdMs

variable {x : AfterExit h} {item child other : WindowsProcess}

theorem fileTime_mono {time later : Nat} (hle : time ≤ later) :
    windowsFileTimeToMs time ≤ windowsFileTimeToMs later := by
  have hdiv : time / 10000 ≤ later / 10000 := Nat.div_le_div_right hle
  simp only [windowsFileTimeToMs]
  omega

theorem pid_unique (hitem : item ∈ x.snapshot) (hother : other ∈ x.snapshot)
    (hpid : item.pid = other.pid) : item = other := by
  obtain ⟨hknown, hcreated, halive⟩ := (x.listed item).mp hitem
  obtain ⟨hknown', hcreated', halive'⟩ := (x.listed other).mp hother
  rcases h.reused item hknown other hknown' hpid with heq | ⟨time, hexit, hle⟩ | ⟨time, hexit, hle⟩
  · exact heq
  · have hlater := halive time hexit
    omega
  · have hlater := halive' time hexit
    omega

theorem mem_candidates :
    item ∈ x.candidates ↔ item ∈ x.snapshot ∧ item.pid ≠ x.payload.pid ∧ 4 < item.pid := by
  simp only [candidates, candidatesOf, parseWindowsProcessSnapshot, mem_filter,
    decide_eq_true_eq]
  constructor
  · exact fun ⟨⟨hitem, _⟩, hpid⟩ => ⟨hitem, hpid⟩
  · exact fun ⟨hitem, hpid⟩ => ⟨⟨hitem, h.epoch item ((x.listed item).mp hitem).1⟩, hpid⟩

theorem mem_firstLevel : item ∈ x.firstLevel ↔
    item ∈ x.candidates ∧ item.parentPid = x.payload.pid ∧
      x.rootStartedAtMs - DESCENDANT_CREATION_TOLERANCE_MS ≤ item.createdMs ∧
        item.createdMs ≤ x.exitObservedAtMs := by
  rw [firstLevel, Supervision.firstLevel, mem_filter, mem_byParent, decide_eq_true_eq, and_assoc]

theorem Reached.mem (hreached : x.Reached item) : item ∈ x.candidates := by
  obtain ⟨first, hfirst, hpath⟩ := hreached
  cases hpath with
  | refl => exact (mem_firstLevel.mp hfirst).1
  | tail _ hlink => exact hlink.1

theorem Reached.tail (hreached : x.Reached item) (hlink : Linked x.candidates item child) :
    x.Reached child := by
  obtain ⟨first, hfirst, hpath⟩ := hreached
  exact ⟨first, hfirst, hpath.tail hlink⟩

/-- The search ends, and returns what is reached. -/
theorem search_reached (x : AfterExit h) : ∃ selected, x.search = some selected ∧
    selected.Nodup ∧ ∀ item, item ∈ selected ↔ x.Reached item := by
  have hcreated := h.epoch x.payload x.known
  have hends := fileTime_mono (h.ends x.payload x.known _ x.exited)
  have hguard : ¬ (x.payload.pid = 0 ∨ x.rootStartedAtMs = 0 ∨ x.exitObservedAtMs = 0) := by
    have huser := x.user
    have hrecorded := x.recorded
    have hobserved := x.observed
    rw [WindowsProcess.createdMs] at hcreated hrecorded
    omega
  have hqueue : x.firstLevel.length ≤ x.candidates.length :=
    Nat.le_trans (length_filter_le _ _) (length_filter_le _ _)
  have hwaiting : waiting x.candidates [] ≤ x.candidates.length := length_filter_le _ _
  have hall : x.candidates.length ≤ (parseWindowsProcessSnapshot x.snapshot).length :=
    length_filter_le _ _
  have hfuel : x.firstLevel.length + waiting x.candidates [] ≤
      2 * (parseWindowsProcessSnapshot x.snapshot).length := by
    omega
  obtain ⟨selected, hselected⟩ := selectFrom_total hfuel
  obtain ⟨hlinked, hnodup, _, hclosed⟩ := selects_of_selectFrom hselected
  refine ⟨selected, (if_neg hguard).trans hselected, .of_map _ hnodup, fun item => ⟨hlinked item, ?_⟩⟩
  -- a pid that is found belongs to one process of the snapshot
  have hfound (child) (hchild : child ∈ x.candidates) (hnext : child ∈ x.firstLevel ∨
      ∃ item ∈ selected, Linked x.candidates item child) : child ∈ selected := by
    obtain ⟨other, hother, hpid⟩ := (hclosed child hnext).resolve_left not_mem_nil
    have hmem := (mem_candidates.mp (Reached.mem (hlinked other hother))).1
    exact pid_unique hmem (mem_candidates.mp hchild).1 hpid ▸ hother
  rintro ⟨first, hfirst, hpath⟩
  induction hpath with
  | refl => exact hfound first (mem_firstLevel.mp hfirst).1 (.inl hfirst)
  | tail _ hlink ih => exact hfound _ hlink.1 (.inr ⟨_, ih, hlink⟩)

theorem Reached.related (hreached : x.Reached item) (hclear : x.Unmistakable) :
    x.Descendant item ∨ x.Exempt item := by
  have hknown {item} (hitem : item ∈ x.candidates) :=
    (x.listed item).mp (mem_candidates.mp hitem).1
  obtain ⟨first, hfirst, hpath⟩ := hreached
  induction hpath with
  | refl =>
    obtain ⟨hcandidate, hparent, htolerance, hobserved⟩ := mem_firstLevel.mp hfirst
    have hmem := (hknown hcandidate).1
    by_cases hbefore : first.creationFileTime ≤ x.payload.creationFileTime
    · exact .inr ⟨first, ⟨hmem, hparent, .inl ⟨hbefore, htolerance⟩⟩, .refl⟩
    by_cases hafter : x.exitedAt < first.creationFileTime
    · exact .inr ⟨first, ⟨hmem, hparent, .inr ⟨hafter, hobserved⟩⟩, .refl⟩
    refine .inl (.single ⟨x.known, hmem, hparent, Nat.not_le.mp hbefore, fun time htime => ?_⟩)
    obtain rfl := Option.some.inj (x.exited.symm.trans htime)
    exact Nat.not_lt.mp hafter
  | @tail parent child hpath hlink ih =>
    have hparent : x.Reached parent := ⟨first, hfirst, hpath⟩
    obtain ⟨hmem, hpid, hle⟩ := hlink
    by_cases hlater : parent.creationFileTime < child.creationFileTime
    · -- the present holder of the pid was there already, and still is
      have hcreates : h.Creates parent child := by
        obtain ⟨hparentKnown, _, halive⟩ := hknown hparent.mem
        obtain ⟨hchildKnown, hcreated, _⟩ := hknown hmem
        refine ⟨hparentKnown, hchildKnown, hpid, hlater, fun time htime => ?_⟩
        have hexit := halive time htime
        omega
      exact ih.imp (fun hpath => hpath.tail hcreates)
        fun ⟨stranger, hstranger, hpath⟩ => ⟨stranger, hstranger, hpath.tail hcreates⟩
    · have hearlier := Nat.not_lt.mp hlater
      have hsame := Int.le_antisymm (fileTime_mono hearlier) hle
      exact hclear.reuse parent child hparent hmem hpid hearlier hsame

theorem Connected.reached (hconnected : x.Connected item) (hclear : x.Unmistakable) :
    x.Reached item := by
  have huser {parent child} (hcreates : h.Creates parent child) (hparent : 4 < parent.pid) :
      4 < child.pid := by
    obtain ⟨hknown, hchild, _, hlater, _⟩ := hcreates
    by_contra hsystem
    have hfirst := h.system child hchild (Nat.not_lt.mp hsystem) parent hknown hparent
    omega
  induction hconnected with
  | @child item creates alive other =>
    have hobserved : item.createdMs ≤ x.exitObservedAtMs :=
      Int.le_trans (fileTime_mono (creates.2.2.2.2 _ x.exited)) x.observed
    refine ⟨item, mem_firstLevel.mpr ⟨?_, creates.2.2.1, ?_, hobserved⟩, .refl⟩
    · exact mem_candidates.mpr ⟨alive, other, huser creates x.user⟩
    · exact hclear.start item alive creates other
  | @under parent item _ creates alive other ih =>
    apply ih.tail
    have hlater := fileTime_mono (Nat.le_of_lt creates.2.2.2.1)
    refine ⟨mem_candidates.mpr ⟨alive, other, ?_⟩, creates.2.2.1, hlater⟩
    exact huser creates (mem_candidates.mp ih.mem).2.2

theorem Descendant.later (hpath : x.Descendant item) :
    x.payload.creationFileTime < item.creationFileTime := by
  induction hpath with
  | single hcreates => exact hcreates.2.2.2.1
  | tail _ hcreates ih => exact Nat.lt_trans ih hcreates.2.2.2.1

end AfterExit

theorem windowsDescendantsAfterExit_correct_iff (x : AfterExit h) :
    (∃ selected, x.search = some selected ∧ x.Correct selected) ↔ x.Unmistakable := by
  obtain ⟨selected, hsearch, honce, hreached⟩ := x.search_reached
  constructor
  · rintro ⟨found, hfound, hcorrect⟩
    obtain rfl := Option.some.inj (hsearch.symm.trans hfound)
    constructor
    · intro item child hitem hmem hpid hearlier hsame
      apply hcorrect.noStranger child
      exact (hreached child).mpr (hitem.tail ⟨hmem, hpid, Int.le_of_eq hsame.symm⟩)
    · intro child halive hcreates hother
      have hchild := (hreached child).mp (hcorrect.complete child (.child hcreates halive hother))
      obtain ⟨first, hfirst, hpath⟩ := hchild
      cases hpath with
      | refl => exact (AfterExit.mem_firstLevel.mp hfirst).2.2.1
      | @tail parent _ hpath hlink =>
        -- the group of the payload's pid is not looked at again
        have hparent : x.Reached parent := ⟨first, hfirst, hpath⟩
        have hpid : parent.pid = x.payload.pid := hlink.2.1.symm.trans hcreates.2.2.1
        exact absurd hpid (AfterExit.mem_candidates.mp hparent.mem).2.1
  · intro hclear
    refine ⟨selected, hsearch, honce, fun item hitem => ?_, fun item hitem => ?_⟩
    · exact ((hreached item).mp hitem).related hclear
    · exact (hreached item).mpr (hitem.reached hclear)

/-- In one millisecond a holder of pid 200 creates process 300 and exits, the payload is created,
and its child gets pid 200. -/
def reusedPid : History where
  processes := [⟨200, 8, 133500000000000000⟩, ⟨300, 200, 133500000000000001⟩,
    ⟨100, 8, 133500000000000002⟩, ⟨200, 100, 133500000000000003⟩]
  exited item :=
    if item.parentPid ≠ 8 then none
    else some (item.creationFileTime + if item.pid = 100 then 20000 else 2)
  epoch := by decide
  ends := by decide
  reused := by decide
  system := by decide

def reusedPidExit : AfterExit reusedPid where
  payload := ⟨100, 8, 133500000000000002⟩
  exitedAt := 133500000000020002
  rootStartedAtMs := windowsFileTimeToMs 133500000000000000
  exitObservedAtMs := windowsFileTimeToMs 133500000000030000
  snapshotAt := 133500000000040000
  snapshot := [⟨200, 100, 133500000000000003⟩, ⟨300, 200, 133500000000000001⟩]
  known := by decide
  user := by decide
  exited := by decide
  recorded := by decide
  observed := by decide
  later := by decide
  nodup := by decide
  listed item := by
    have hlive : ∀ item ∈ reusedPid.processes, (item.creationFileTime ≤ 133500000000040000 ∧
        ∀ time ∈ reusedPid.exited item, 133500000000040000 < time) →
        item = ⟨200, 100, 133500000000000003⟩ ∨ item = ⟨300, 200, 133500000000000001⟩ := by
      decide
    rw [mem_cons, mem_singleton]
    constructor
    · rintro (rfl | rfl) <;> decide
    · exact fun ⟨hknown, halive⟩ => hlive item hknown halive

theorem windowsDescendantsAfterExit_selects_stranger :
    ¬ ∀ (h : History) (x : AfterExit h),
      ∃ selected, x.search = some selected ∧ x.Correct selected := by
  intro hall
  obtain ⟨selected, hsearch, hcorrect⟩ := hall reusedPid reusedPidExit
  have hfound : reusedPidExit.search = some reusedPidExit.snapshot := by decide
  obtain rfl := Option.some.inj (hfound.symm.trans hsearch)
  rcases hcorrect.noStranger ⟨300, 200, 133500000000000001⟩ (by decide) with
    hdescendant | ⟨stranger, ⟨hknown, hparent, htimes⟩, _⟩
  · exact absurd hdescendant.later (by decide)
  · have hnone : ∀ item ∈ reusedPid.processes, item.parentPid = 100 →
        133500000000000002 < item.creationFileTime ∧ item.creationFileTime ≤ 133500000000020002 := by
      decide
    have htime := hnone stranger hknown hparent
    rcases htimes with ⟨hle, _⟩ | ⟨hlt, _⟩
    · exact Nat.not_lt.mpr hle htime.1
    · exact Nat.not_lt.mpr htime.2 hlt

end AgentBridge.Supervision
