import AgentBridge.Systems.Run

/-!
# What held earlier in a run

`Past P events` says that `P` held of some beginning of the run `events`. What was once so
stays so, whatever the run goes on to do, and one `Past` inside another orders two moments.
-/

namespace AgentBridge.Systems

universe u

variable {Event : Type u} {P Q : List Event → Prop} {events later : List Event}

def Past (P : List Event → Prop) (events : List Event) : Prop :=
  ∃ earlier, earlier <+: events ∧ P earlier

theorem Past.now (h : P events) : Past P events := ⟨events, List.prefix_rfl, h⟩

theorem Past.append (h : Past P events) (later : List Event) : Past P (events ++ later) := by
  obtain ⟨earlier, hprefix, hP⟩ := h
  exact ⟨earlier, hprefix.trans (List.prefix_append events later), hP⟩

theorem Past.one_later (h : P events) (event : Event) : Past P (events ++ [event]) :=
  (Past.now h).append [event]

end AgentBridge.Systems
