import Mathlib

/-!
# Parties meeting at ordered barriers

Parties meet at a row of barriers. A barrier opens when everybody arrived, and
may open earlier for other reasons; who waits at a barrier that is not open is
blocked. If nobody arrives at a barrier without having arrived at the unopened
ones before it, the blocked parties never block each other: in front of each
unopened barrier with a waiting party there is somebody who can still move.
-/

namespace AgentBridge.Systems

universe u v

structure Barriers (Party : Type u) (Stage : Type v) where
  arrived : Stage → Party → Prop
  opened : Stage → Prop
  waiting : Party → Stage → Prop

namespace Barriers

variable {Party : Type u} {Stage : Type v} {b : Barriers Party Stage}

/-- The party waits at a barrier that is not open. -/
def Blocked (b : Barriers Party Stage) (p : Party) : Prop :=
  ∃ stage, b.waiting p stage ∧ ¬ b.opened stage

/-- What the parties and barriers obey: full arrival opens, who waits has
arrived, and unopened barriers are met in order. -/
structure Orderly [LT Stage] (b : Barriers Party Stage) : Prop where
  full : ∀ stage, (∀ p, b.arrived stage p) → b.opened stage
  present : ∀ p stage, b.waiting p stage → b.arrived stage p
  ordered : ∀ earlier later p, earlier < later → ¬ b.opened earlier →
    b.arrived later p → b.arrived earlier p

/-- Somebody who has not arrived at an unopened barrier is not blocked, if a party
waits there. The induction is on the barrier: a missing party that is itself blocked
waits at an earlier one, and whoever is missing there is missing here too. -/
theorem Orderly.exists_unblocked [LinearOrder Stage] [WellFoundedLT Stage] (h : b.Orderly)
    {p : Party} {stage : Stage} (hwaiting : b.waiting p stage) (hclosed : ¬ b.opened stage) :
    ∃ q, ¬ b.arrived stage q ∧ ¬ b.Blocked q := by
  induction stage using WellFoundedLT.induction generalizing p with
  | ind stage ih =>
    obtain ⟨q, hmissing⟩ : ∃ q, ¬ b.arrived stage q := by
      by_contra hall
      exact hclosed (h.full stage fun q => by_contra fun hq => hall ⟨q, hq⟩)
    by_cases hq : b.Blocked q
    · obtain ⟨other, hother, hshut⟩ := hq
      have hpresent : b.arrived other q := h.present q other hother
      have hearlier : other < stage := by
        rcases lt_trichotomy other stage with hlt | heq | hgt
        · exact hlt
        · exact absurd (heq ▸ hpresent) hmissing
        · exact absurd (h.ordered stage other q hgt hclosed hpresent) hmissing
      obtain ⟨r, hr, hfree⟩ := ih other hearlier hother hshut
      exact ⟨r, fun hhere => hr (h.ordered other stage r hearlier hshut hhere), hfree⟩
    · exact ⟨q, hmissing, hq⟩

end Barriers

end AgentBridge.Systems
