import Mathlib

/-!
# Stores whose rows exclude one another

Rows belong to owners. A store is exclusive when no row conflicts with a row of
a different owner. The conflict relation need not be symmetric: both argument
orders are covered because the quantifiers range over ordered pairs.

The rules say which changes of a store keep exclusion: losing rows, rewriting
rows so that they conflict with no more than before, and adding rows of one
owner that were compared with everything kept.
-/

namespace AgentBridge.Systems

universe u v

variable {Row : Type u} {Owner : Type v}

/-- No row conflicts with a row of a different owner. -/
def Exclusive (owner : Row → Owner) (conflict : Row → Row → Prop) (rows : List Row) : Prop :=
  ∀ r ∈ rows, ∀ r' ∈ rows, owner r ≠ owner r' → ¬ conflict r r'

namespace Exclusive

variable {owner : Row → Owner} {conflict : Row → Row → Prop} {rows rows' : List Row}

theorem nil : Exclusive owner conflict [] := by
  intro r hr
  simp at hr

theorem of_subset (h : Exclusive owner conflict rows) (hsub : ∀ r ∈ rows', r ∈ rows) :
    Exclusive owner conflict rows' := by
  intro r hr r' hr' hne
  exact h r (hsub r hr) r' (hsub r' hr') hne

/-- Rewriting rows keeps exclusion when owners stay and a conflict between two
rewritten rows was already a conflict between the originals. -/
theorem map (h : Exclusive owner conflict rows) {f : Row → Row}
    (sameOwner : ∀ r ∈ rows, owner (f r) = owner r)
    (noMore : ∀ r ∈ rows, ∀ r' ∈ rows, owner r ≠ owner r' →
      conflict (f r) (f r') → conflict r r') :
    Exclusive owner conflict (rows.map f) := by
  intro r hr r' hr' hne hc
  obtain ⟨a, ha, rfl⟩ := List.mem_map.mp hr
  obtain ⟨b, hb, rfl⟩ := List.mem_map.mp hr'
  rw [sameOwner a ha, sameOwner b hb] at hne
  exact h a ha b hb hne (noMore a ha b hb hne hc)

theorem rewriteOwner (h : Exclusive owner conflict rows) {o : Owner} {f : Row → Row}
    (sameOwner : ∀ r ∈ rows, owner (f r) = owner r)
    (others : ∀ r ∈ rows, owner r ≠ o → f r = r)
    (checked : ∀ r ∈ rows, owner r = o → ∀ r' ∈ rows, owner r' ≠ o →
      ¬ conflict (f r) r' ∧ ¬ conflict r' (f r)) :
    Exclusive owner conflict (rows.map f) := by
  refine h.map sameOwner ?_
  intro a ha b hb hne hc
  by_cases hao : owner a = o
  · have hbo : owner b ≠ o := by
      intro hb'
      exact hne (hao.trans hb'.symm)
    rw [others b hb hbo] at hc
    exact absurd hc (checked a ha hao b hb hbo).1
  · rw [others a ha hao] at hc
    by_cases hbo : owner b = o
    · exact absurd hc (checked b hb hbo a ha hao).2
    · rwa [others b hb hbo] at hc

/-- Adding rows of one owner keeps exclusion when no kept row of another owner
conflicts with them in either order. -/
theorem append (h : Exclusive owner conflict rows) {o : Owner}
    (owned : ∀ r ∈ rows', owner r = o)
    (checked : ∀ r ∈ rows, owner r ≠ o → ∀ r' ∈ rows', ¬ conflict r r' ∧ ¬ conflict r' r) :
    Exclusive owner conflict (rows ++ rows') := by
  intro a ha b hb hne
  rcases List.mem_append.mp ha with ha | ha <;> rcases List.mem_append.mp hb with hb | hb
  · exact h a ha b hb hne
  · rw [owned b hb] at hne
    exact (checked a ha hne b hb).1
  · rw [owned a ha] at hne
    exact (checked b hb (Ne.symm hne) a ha).2
  · exact absurd ((owned a ha).trans (owned b hb).symm) hne

end Exclusive

end AgentBridge.Systems
