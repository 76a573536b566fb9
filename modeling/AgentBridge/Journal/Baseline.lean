import AgentBridge.Journal.Files

/-!
# The rollback baseline

What the record that `captureRollbackBaseline` makes before an apply, with the base
commit, tells of the content of a path.
-/

namespace AgentBridge.Journal

open Paths

/-- `normalizeLockPathList` -/
def lockPaths (files : List String) : List String :=
  (normalizeLockPathList (files.map String.toList)).map String.ofList

/-- What the base commit has at a path: nothing, what a checkout would write, or
something that no leaf is written from. -/
inductive CommitEntry where
  | absent
  | leaf (found : Leaf)
  | unrestorable
  deriving DecidableEq

def CommitEntry.leaf? : CommitEntry → Option Leaf
  | .leaf found => some found
  | _ => none

/-- What a path held when the baseline was captured, where the baseline tells. A
path without an entry was clean: it is as in the commit. -/
def baselineLeaf (commit : String → CommitEntry) (baseline : RollbackBaseline)
    (path : String) : Option Leaf :=
  match baseline.lookup path with
  | some .unrestorable => none
  | some (.present mode content) => some (.file mode content)
  | some .absent => some .missing
  | none =>
    match commit path with
    | .absent => some .missing
    | .leaf found => some found
    | .unrestorable => none

end AgentBridge.Journal
