import AgentBridge.Locks.Store
import AgentBridge.Systems.Reach

/-!
# Containment records

`lib/process-table.js`: the process table, the walk that collects the descendants of
a payload, the record that is stored with a quarantine, and the tests a later pass
makes on it.

A record is complete when the payload had a pid and the listing succeeded. The walk
stops at 4096 found processes, and nothing of that reaches the record:
`containmentRecord_covers_iff` says that a complete record covers the tree exactly
when the walk was not cut short.
-/

namespace AgentBridge.Containment

open Paths Systems List

structure ProcessRow where
  pid : Nat
  ppid : Nat
  createdAt : String

/-- The result of `processTable`, stamped when the listing has ended. -/
structure ProcessTable where
  ok : Bool
  stamp : Nat
  rows : List ProcessRow

/-- The `children` map of a parent, without processes that are their own parent. -/
def childPids (table : ProcessTable) (parent : Nat) : List Nat :=
  (table.rows.filter fun row => row.ppid = parent ∧ row.pid ≠ row.ppid).map (·.pid)

/-- The `createdAt` map: the last row of a pid counts. -/
def createdAtOf (table : ProcessTable) (pid : Nat) : String :=
  ((table.rows.reverse.find? (·.pid = pid)).map (·.createdAt)).getD ""

/-- `found.size < 4096` -/
def descendantLimit : Nat := 4096

/-- The walk of `processDescendants`. -/
def descendantWalk (table : ProcessTable) (rootPids : List Nat) : Walk Nat :=
  Walk.expand rootPids (childPids table) descendantLimit (rootPids.length + table.rows.length)
    ⟨[], rootPids⟩

structure Descendants where
  ok : Bool
  pids : List Nat
  processes : List (Nat × String)

def processDescendants (table : ProcessTable) (rootPids : List Nat) : Descendants :=
  if table.ok = false then ⟨false, [], []⟩
  else
    let pids := (descendantWalk table rootPids).found
    { ok := true
      pids := pids
      processes := (rootPids ++ pids).map fun pid => (pid, createdAtOf table pid) }

/-- A stored containment record, as `JSON.parse` gives it back. -/
structure Record where
  pids : List Nat
  processes : List (Nat × String)
  pidOnly : Bool
  complete : Bool
  recordedAt : Nat
  deriving DecidableEq

/-- The usable ones of the two process ids of a run. -/
def containmentRoots (supervisorPid payloadPid : Nat) : List Nat :=
  [supervisorPid, payloadPid].filter fun pid => 0 < pid ∧ pid ≤ maxSafeInteger

def containmentRecord (table : ProcessTable) (supervisorPid payloadPid now : Nat) : Record :=
  let roots := containmentRoots supervisorPid payloadPid
  let descendants := if roots = [] then ⟨false, [], []⟩ else processDescendants table roots
  let processes := descendants.processes.filter (·.2 ≠ "")
  let pids := roots ++ descendants.pids
  { pids := pids
    processes := processes
    pidOnly := decide (processes.length < pids.length)
    complete := decide (0 < payloadPid) && descendants.ok
    recordedAt := now }

/-! ### The tests of `containmentStillPossible` -/

/-- The record is well formed and claims to be complete; anything else leaves
containment possible. -/
def admissible (info : Record) : Bool :=
  info.complete ∧ info.pids ≠ [] ∧ (∀ pid ∈ info.pids, 0 < pid ∧ pid ≤ maxSafeInteger) ∧
    0 < info.recordedAt ∧ info.recordedAt ≤ maxSafeInteger ∧
    ∀ item ∈ info.processes, item.1 ∈ info.pids ∧ item.2.toList.all isWhitespace = false ∧
      ∀ other ∈ info.processes, other.1 = item.1 → other.2 = item.2

def createdAtByPid (info : Record) (pid : Nat) : String :=
  ((info.processes.find? (·.1 = pid)).map (·.2)).getD ""

/-- The part of `recordedProcessStillRuns` that asks a listing about a pid in use. -/
def listedStillRuns (table : ProcessTable) (pid : Nat) (createdAt : String) (recordedAt : Nat) :
    Bool :=
  if table.ok = false ∨ table.stamp < recordedAt then true
  else (table.rows.find? (·.pid = pid)).any (·.createdAt = createdAt)

/-! ### What a record covers -/

section

variable {table : ProcessTable} {supervisorPid payloadPid now : Nat}

theorem childPids_listed {parent child : Nat} (h : child ∈ childPids table parent) :
    child ∈ table.rows.map (·.pid) := by
  obtain ⟨row, hrow, rfl⟩ := mem_map.mp h
  exact mem_map.mpr ⟨row, (mem_filter.mp hrow).1, rfl⟩

theorem descendantWalk_sound (table : ProcessTable) (rootPids : List Nat) :
    Walk.Sound rootPids (childPids table) (descendantWalk table rootPids) :=
  Walk.sound_start.expand _

theorem descendantWalk_stops (table : ProcessTable) (rootPids : List Nat) :
    (descendantWalk table rootPids).queue = [] ∨
      descendantLimit ≤ (descendantWalk table rootPids).found.length := by
  apply Walk.expand_stops (fun _ _ h => childPids_listed h) _ nodup_nil
  · simp
  · simp

/-- The record holds the roots and all that the listing connects them to. -/
def Covers (table : ProcessTable) (roots : List Nat) (info : Record) : Prop :=
  (∀ root ∈ roots, root ∈ info.pids) ∧
    ∀ pid, Walk.Reachable roots (childPids table) pid → pid ∈ info.pids

/-- The walk stopped at its limit with a process in its queue that has a child
not found yet. -/
def WalkCutShort (table : ProcessTable) (rootPids : List Nat) : Prop :=
  Walk.CutShort rootPids (childPids table) (descendantWalk table rootPids)

instance (table : ProcessTable) (rootPids : List Nat) : Decidable (WalkCutShort table rootPids) :=
  inferInstanceAs (Decidable (Walk.CutShort _ _ _))

theorem limit_reached_of_cutShort {rootPids : List Nat} (h : WalkCutShort table rootPids) :
    descendantLimit ≤ (descendantWalk table rootPids).found.length := by
  obtain ⟨parent, hparent, _⟩ := h
  refine (descendantWalk_stops table rootPids).resolve_left ?_
  intro hempty
  rw [hempty] at hparent
  exact not_mem_nil hparent

theorem containmentRecord_pids
    (h : (containmentRecord table supervisorPid payloadPid now).complete = true) :
    (containmentRecord table supervisorPid payloadPid now).pids =
      containmentRoots supervisorPid payloadPid ++
        (descendantWalk table (containmentRoots supervisorPid payloadPid)).found := by
  unfold containmentRecord at h ⊢
  dsimp only at h ⊢
  split at h
  · simp at h
  · rename_i hroots
    rw [if_neg hroots]
    unfold processDescendants at h ⊢
    split at h
    · simp at h
    · rename_i hok
      rw [if_neg hok]

theorem containmentRecord_covers_iff
    (h : (containmentRecord table supervisorPid payloadPid now).complete = true) :
    Covers table (containmentRoots supervisorPid payloadPid)
        (containmentRecord table supervisorPid payloadPid now) ↔
      ¬ WalkCutShort table (containmentRoots supervisorPid payloadPid) := by
  unfold Covers
  rw [containmentRecord_pids h, WalkCutShort, ← (descendantWalk_sound _ _).complete_iff]
  constructor
  · intro hcovers pid hreach
    exact (mem_append.mp (hcovers.2 pid hreach)).symm
  · intro hall
    refine ⟨fun root hroot => mem_append_left _ hroot, ?_⟩
    intro pid hreach
    exact mem_append.mpr (hall pid hreach).symm

/-- A complete record with fewer descendants than the limit holds the roots, what the
listing connects them to, and nothing else. -/
theorem containmentRecord_exact
    (complete : (containmentRecord table supervisorPid payloadPid now).complete = true)
    (below : (containmentRecord table supervisorPid payloadPid now).pids.length <
      (containmentRoots supervisorPid payloadPid).length + descendantLimit) (pid : Nat) :
    pid ∈ (containmentRecord table supervisorPid payloadPid now).pids ↔
      Walk.Reachable (containmentRoots supervisorPid payloadPid) (childPids table) pid := by
  constructor
  · intro hpid
    rw [containmentRecord_pids complete] at hpid
    cases mem_append.mp hpid with
    | inl hroot => exact ⟨pid, hroot, .refl⟩
    | inr hfound => exact (descendantWalk_sound _ _).reachable pid hfound
  · refine ((containmentRecord_covers_iff complete).mpr fun hcut => ?_).2 pid
    have hlimit := limit_reached_of_cutShort hcut
    rw [containmentRecord_pids complete, length_append] at below
    omega

end

/-- A payload with `n` children, the first of which has a child too. -/
def wideTree (n : Nat) : ProcessTable :=
  { ok := true
    stamp := 1
    rows := (List.range n).map (fun i => ⟨i + 2, 1, "Mon Jan  5 10:00:00 2026"⟩) ++
      [⟨n + 2, 2, "Mon Jan  5 10:00:01 2026"⟩] }

theorem containmentRecord_exact_of_wide_tree :
    7 ∈ (containmentRecord (wideTree 5) 0 1 9).pids :=
  (containmentRecord_exact (by decide) (by decide) 7).mpr
    ⟨1, by decide, .tail (.tail .refl (by decide : 2 ∈ childPids (wideTree 5) 1)) (by decide)⟩

theorem childPids_wideTree_payload (n : Nat) :
    childPids (wideTree n) 1 = (List.range n).map (· + 2) := by
  unfold childPids wideTree
  rw [filter_append, filter_eq_self.mpr]
  · simp
  · intro row hrow
    obtain ⟨i, _, rfl⟩ := mem_map.mp hrow
    simp

/-- The payload's children fill a limit of `n`, so none of them is expanded. -/
theorem wideTree_expand {n : Nat} (positive : 0 < n) (fuel : Nat) :
    Walk.expand [1] (childPids (wideTree n)) n (fuel + 1) ⟨[], [1]⟩ =
      ⟨(List.range n).map (· + 2), (List.range n).map (· + 2)⟩ := by
  have hnodup : ((List.range n).map (· + 2)).Nodup :=
    nodup_range.map fun _ _ h => Nat.add_right_cancel h
  have hnew : ∀ node ∈ (List.range n).map (· + 2), node ∉ ([] : List Nat) ∧ node ∉ [1] := by
    intro node hnode
    obtain ⟨i, _, rfl⟩ := mem_map.mp hnode
    simp
  have hfirst : ([] : List Nat).length < n := positive
  unfold Walk.expand
  dsimp only
  rw [if_pos hfirst, childPids_wideTree_payload, Walk.visit_all_new hnodup hnew]
  exact Walk.expand_full (by simp) fuel

theorem wideTree_cutShort : WalkCutShort (wideTree descendantLimit) (containmentRoots 0 1) := by
  have hroots : containmentRoots 0 1 = [1] := by decide
  have hpositive : 0 < descendantLimit := by decide
  have hwalk : descendantWalk (wideTree descendantLimit) [1] =
      ⟨(List.range descendantLimit).map (· + 2), (List.range descendantLimit).map (· + 2)⟩ := by
    unfold descendantWalk
    rw [length_singleton, Nat.add_comm 1]
    exact wideTree_expand hpositive _
  rw [hroots]
  unfold WalkCutShort
  rw [hwalk]
  generalize descendantLimit = n at hpositive
  refine ⟨2, ?_, n + 2, ?_, ?_, by simp⟩
  · exact mem_map.mpr ⟨0, mem_range.mpr hpositive, rfl⟩
  · refine mem_map.mpr ⟨⟨n + 2, 2, "Mon Jan  5 10:00:01 2026"⟩, ?_, rfl⟩
    exact mem_filter.mpr ⟨mem_append_right _ mem_cons_self,
      by simp [hpositive.ne']⟩
  · simp

end AgentBridge.Containment
