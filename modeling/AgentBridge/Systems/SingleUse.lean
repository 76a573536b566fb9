import Mathlib

/-!
# Single-use keys with expiring records

A ledger accepts a key when it has no row for it and then inserts one. Rows carry an
expiry and are pruned, scope by scope, once a clock has reached it. What has been
accepted and which prunes have run is history: no operation reads it.

A key is accepted at most once as long as it always comes with one expiry and is never
consumed after a prune that had reached that expiry: up to then its row is still there.
-/

namespace AgentBridge.Systems

open List

universe u v

/-- Rows with their expiry, and the history of accepted keys and of prunes. -/
structure Ledger (Key : Type u) (Scope : Type v) where
  rows : List (Key × Nat)
  accepted : List (Key × Nat)
  prunes : List (Scope × Nat)

namespace Ledger

variable {Key : Type u} {Scope : Type v}

def empty : Ledger Key Scope := ⟨[], [], []⟩

/-- Every accepted key still has its row or was pruned past its expiry, and no key was
accepted twice. -/
structure Sound (scopeOf : Key → Scope) (ledger : Ledger Key Scope) : Prop where
  kept : ∀ entry ∈ ledger.accepted, entry ∈ ledger.rows ∨
    ∃ pruned ∈ ledger.prunes, pruned.1 = scopeOf entry.1 ∧ entry.2 ≤ pruned.2
  once : (ledger.accepted.map Prod.fst).Nodup

variable {scopeOf : Key → Scope} {ledger : Ledger Key Scope}

theorem sound_empty : Sound scopeOf (empty : Ledger Key Scope) :=
  ⟨by simp [empty], by simp [empty]⟩

section

variable [DecidableEq Scope]

/-- Delete the rows of a scope whose expiry a clock has reached. -/
def prune (scopeOf : Key → Scope) (ledger : Ledger Key Scope) (scope : Scope) (now : Nat) :
    Ledger Key Scope :=
  { ledger with
    rows := ledger.rows.filter fun row => !(scopeOf row.1 = scope && row.2 ≤ now)
    prunes := ledger.prunes ++ [(scope, now)] }

theorem Sound.prune (sound : Sound scopeOf ledger) (scope : Scope) (now : Nat) :
    Sound scopeOf (ledger.prune scopeOf scope now) := by
  refine ⟨?_, sound.once⟩
  intro entry hentry
  rcases sound.kept entry hentry with hrow | ⟨pruned, hpruned, hreached⟩
  · by_cases hgone : scopeOf entry.1 = scope ∧ entry.2 ≤ now
    · right
      exact ⟨(scope, now), by simp [Ledger.prune], hgone.1.symm, hgone.2⟩
    · left
      simp only [Ledger.prune, mem_filter]
      refine ⟨hrow, ?_⟩
      simpa [-not_and, not_and_or] using hgone
  · right
    exact ⟨pruned, by simp [Ledger.prune, hpruned], hreached⟩

end

section

variable [DecidableEq Key]

/-- Insert a key unless it has a row. -/
def consume (ledger : Ledger Key Scope) (key : Key) (expiry : Nat) : Ledger Key Scope :=
  if ledger.rows.any fun row => row.1 = key then ledger
  else
    { ledger with
      rows := ledger.rows ++ [(key, expiry)]
      accepted := ledger.accepted ++ [(key, expiry)] }

theorem Sound.consume (sound : Sound scopeOf ledger) {key : Key} {expiry : Nat}
    (agrees : ∀ entry ∈ ledger.accepted, entry.1 = key → entry.2 = expiry)
    (timely : ∀ pruned ∈ ledger.prunes, pruned.1 = scopeOf key → pruned.2 < expiry) :
    Sound scopeOf (ledger.consume key expiry) := by
  by_cases hrow : ledger.rows.any fun row => row.1 = key
  · simpa only [Ledger.consume, hrow, if_true] using sound
  have hfresh : key ∉ ledger.accepted.map Prod.fst := by
    intro hmem
    obtain ⟨entry, hentry, rfl⟩ := mem_map.mp hmem
    have hexpiry := agrees entry hentry rfl
    rcases sound.kept entry hentry with hkept | ⟨pruned, hpruned, hscope, hreached⟩
    · apply hrow
      rw [any_eq_true]
      exact ⟨entry, hkept, by simp⟩
    · have hlt := timely pruned hpruned hscope
      omega
  simp only [Ledger.consume, hrow]
  constructor
  · intro entry hentry
    rcases mem_append.mp hentry with hold | hnew
    · rcases sound.kept entry hold with hkept | hpruned
      · exact .inl (mem_append_left _ hkept)
      · exact .inr hpruned
    · exact .inl (mem_append_right _ hnew)
  · simp only [Bool.false_eq_true, if_false, map_append, nodup_append]
    refine ⟨sound.once, by simp, ?_⟩
    intro old hold new hnew heq
    apply hfresh
    simp only [map_cons, map_nil, mem_singleton] at hnew
    rw [← hnew, ← heq]
    exact hold

end

end Ledger

end AgentBridge.Systems
