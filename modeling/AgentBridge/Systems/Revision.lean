import Mathlib

/-!
# Optimistic writes on a revision

A cell counts its writes. A writer reads the cell, decides, and writes only if the
count is still the one it read: nothing is locked in between, and what it decided on
is what it overwrites.
-/

namespace AgentBridge.Systems

universe u

/-- A value with the number of its last write. -/
structure Versioned (α : Type u) where
  revision : Nat
  value : α

namespace Versioned

variable {α : Type u} {cell read : Versioned α}

/-- Every write counts. -/
def next (cell : Versioned α) (value : α) : Versioned α :=
  ⟨cell.revision + 1, value⟩

/-- Write if nothing was written since the revision `expected`. -/
def writeAt (cell : Versioned α) (expected : Nat) (value : α) : Bool × Versioned α :=
  if cell.revision = expected then (true, cell.next value) else (false, cell)

/-- `read` was read from the cell: either it was written since, or it still holds this. -/
structure ReadFrom (cell read : Versioned α) : Prop where
  le : read.revision ≤ cell.revision
  same : read.revision = cell.revision → read.value = cell.value

namespace ReadFrom

theorem refl (cell : Versioned α) : ReadFrom cell cell where
  le := Nat.le_refl _
  same := fun _ => rfl

theorem next (h : ReadFrom cell read) (value : α) : ReadFrom (cell.next value) read := by
  constructor
  · have hle := h.le
    show read.revision ≤ cell.revision + 1
    omega
  · intro hsame
    have hle := h.le
    change read.revision = cell.revision + 1 at hsame
    omega

/-- A write on the revision that was read replaces what was read. -/
theorem of_writeAt (h : ReadFrom cell read) {value : α}
    (hwrite : (cell.writeAt read.revision value).1 = true) :
    cell.value = read.value ∧ (cell.writeAt read.revision value).2 = cell.next value := by
  unfold Versioned.writeAt at hwrite ⊢
  split at hwrite
  · next hsame =>
    rw [if_pos hsame]
    exact ⟨(h.same hsame.symm).symm, rfl⟩
  · cases hwrite

end ReadFrom

end Versioned

end AgentBridge.Systems
