import Mathlib

/-!
# Runs of a deterministic step function

A component is a state together with a step function; everything the outside
world chooses (the scheduler, the clock, fresh identifiers, the answers of the
operating system) is part of the event. A run is then a list of events, and a
statement about every interleaving is a statement about every list.

`Along` restricts a run: it says that each event is allowed in the state it
actually meets. The rules below turn what one step preserves into what every
run preserves.
-/

namespace AgentBridge.Systems

universe u v

variable {State : Type u} {Event : Type v}

/-- Execute the events from left to right. -/
def run (step : State → Event → State) (s : State) (events : List Event) : State :=
  events.foldl step s

/-- Each event of the run satisfies `allowed` in the state it is executed in. -/
def Along (step : State → Event → State) (allowed : State → Event → Prop) :
    State → List Event → Prop
  | _, [] => True
  | s, event :: events => allowed s event ∧ Along step allowed (step s event) events

section

variable {step : State → Event → State} {allowed : State → Event → Prop}

@[simp] theorem run_nil (s : State) : run step s [] = s := rfl

@[simp] theorem run_cons (s : State) (event : Event) (events : List Event) :
    run step s (event :: events) = run step (step s event) events := rfl

@[simp] theorem run_append (s : State) (first second : List Event) :
    run step s (first ++ second) = run step (run step s first) second :=
  List.foldl_append

@[simp] theorem along_nil (s : State) : Along step allowed s [] := trivial

@[simp] theorem along_cons (s : State) (event : Event) (events : List Event) :
    Along step allowed s (event :: events) ↔
      allowed s event ∧ Along step allowed (step s event) events := Iff.rfl

/-- Restrictions of concrete runs can be evaluated. -/
instance decidableAlong [∀ s event, Decidable (allowed s event)] :
    ∀ (events : List Event) (s : State), Decidable (Along step allowed s events)
  | [], _ => isTrue trivial
  | event :: events, s =>
    have := decidableAlong events (step s event)
    inferInstanceAs (Decidable (allowed s event ∧ Along step allowed (step s event) events))

/-- A restricted run splits at any point. -/
theorem along_append (s : State) (first second : List Event) :
    Along step allowed s (first ++ second) ↔
      Along step allowed s first ∧ Along step allowed (run step s first) second := by
  induction first generalizing s with
  | nil => simp
  | cons event events ih => simp [ih, and_assoc]

variable {s : State}

/-- What every event of the list satisfies can be added to the restriction. -/
theorem Along.and {P : Event → Prop} {events : List Event} (h : Along step allowed s events)
    (hP : ∀ event ∈ events, P event) :
    Along step (fun s event => allowed s event ∧ P event) s events := by
  induction events generalizing s with
  | nil => trivial
  | cons event events ih =>
    have htail : ∀ later ∈ events, P later := fun later hlater => hP later (by simp [hlater])
    exact ⟨⟨h.1, hP event (by simp)⟩, ih h.2 htail⟩

variable {Inv : State → Prop}

theorem run_invariant (preserved : ∀ s event, Inv s → allowed s event → Inv (step s event))
    (initial : Inv s) : ∀ events, Along step allowed s events → Inv (run step s events) := by
  intro events
  induction events generalizing s with
  | nil => intro _; exact initial
  | cons event events ih =>
    intro h
    exact ih (preserved s event initial h.1) h.2

/-- What a step guarantees from the invariant holds at every step of a restricted run. -/
theorem Along.of_invariant {guaranteed : State → Event → Prop}
    (preserved : ∀ s event, Inv s → allowed s event → Inv (step s event))
    (guarantee : ∀ s event, Inv s → allowed s event → guaranteed s event) {events : List Event}
    (initial : Inv s) (h : Along step allowed s events) : Along step guaranteed s events := by
  induction events generalizing s with
  | nil => trivial
  | cons event events ih =>
    have hnext : Inv (step s event) := preserved s event initial h.1
    exact ⟨guarantee s event initial h.1, ih hnext h.2⟩

/-- Where an invariant makes two restrictions the same, they restrict runs alike. -/
theorem along_congr_of_invariant {allowed' : State → Event → Prop}
    (preserved : ∀ s event, Inv s → Inv (step s event))
    (same : ∀ s event, Inv s → (allowed s event ↔ allowed' s event)) (initial : Inv s)
    (events : List Event) : Along step allowed s events ↔ Along step allowed' s events := by
  induction events generalizing s with
  | nil => exact Iff.rfl
  | cons event events ih =>
    exact and_congr (same s event initial) (ih (preserved s event initial))

theorem run_preserves (preserved : ∀ s event, Inv s → Inv (step s event)) (initial : Inv s)
    (events : List Event) : Inv (run step s events) := by
  induction events generalizing s with
  | nil => exact initial
  | cons event events ih => exact ih (preserved s event initial)

end

end AgentBridge.Systems
