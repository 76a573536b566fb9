import AgentBridge.Supervision.Supervisor
import AgentBridge.Systems.Run

/-!
# One payload, one exit event

What holds of the supervisor whatever it is sent. A payload is spawned for the first
message only and before its deadline, and the exit event comes once. Nothing follows it
but for one case: a signal to the supervisor starts a termination of a payload that has
closed already, and this termination is harmless when the group of the payload is absent.
-/

namespace AgentBridge.Supervision

open Systems List

def Effect.isSpawn : Effect → Bool
  | .spawn _ _ => true
  | _ => false

def Effect.isExit : Effect → Bool
  | .emit event => event.type == "exit"
  | _ => false

/-- Where a termination can be that was requested after the payload had closed. -/
def Termination.late : Termination → Bool
  | .none => true
  | .probing => true
  | .closing _ => true
  | .lateClose _ => true
  | _ => false

/-- The invariant, over the fields it reads. -/
structure Orderly (js : Conversions) (effects : List Effect)
    (first completed payload exited closed : Bool) (pid : Nat) (termination : Termination) :
    Prop where
  once : effects.countP Effect.isSpawn ≤ 1
  fresh : first = false → effects.countP Effect.isSpawn = 0 ∧ payload = false
  timely : ∀ message now, Effect.spawn message now ∈ effects →
    launchAuthorityExpired ((launchDeadlineAt js message).getD 0) now = false
  running : completed = false → ∀ effect ∈ effects, effect.isExit = false
  last : ∀ effect ∈ effects.dropLast, effect.isExit = false
  late : completed = true → pid ≠ 0 → termination ≠ .settled →
    exited = true ∧ closed = true ∧ termination.late = true
  reaped : closed = true → exited = true
  empty : payload = false → pid = 0
  flying : termination.inFlight = true → pid ≠ 0

namespace Supervisor

def Ok (cfg : SupervisorConfig) (s : Supervisor) : Prop :=
  Orderly cfg.js s.effects s.firstMessageSeen s.completed s.payload s.payloadExited
    s.directChildClosed s.payloadPid s.termination

variable {cfg : SupervisorConfig} {s : Supervisor} {a : Answers}

/-- Effects that are neither exits nor spawns, before the exit. -/
theorem Ok.act (h : Ok cfg s) (running : s.completed = false) {effect : Effect}
    (hspawn : effect.isSpawn = false) (hexit : effect.isExit = false) :
    Ok cfg (s.act effect) := by
  have hcount : (s.effects ++ [effect]).countP Effect.isSpawn =
      s.effects.countP Effect.isSpawn := by simp [countP_append, hspawn]
  have hall : ∀ other ∈ s.effects ++ [effect], other.isExit = false := by
    intro other hother
    rcases mem_append.mp hother with hother | hother
    · exact h.running running other hother
    · exact mem_singleton.mp hother ▸ hexit
  constructor
  case once => exact hcount.symm ▸ h.once
  case fresh => exact fun hfirst => ⟨hcount.trans (h.fresh hfirst).1, (h.fresh hfirst).2⟩
  case timely =>
    intro message now hspawned
    rcases mem_append.mp hspawned with hspawned | hspawned
    · exact h.timely message now hspawned
    · rw [← mem_singleton.mp hspawned] at hspawn
      cases hspawn
  case running => exact fun _ => hall
  case last => exact fun other hother => hall other (dropLast_subset _ hother)
  case late => exact h.late
  case reaped => exact h.reaped
  case empty => exact h.empty
  case flying => exact h.flying

theorem Ok.emit (h : Ok cfg s) (running : s.completed = false) {event : ControlEvent}
    (hexit : event.type ≠ "exit") : Ok cfg (s.emit event) := by
  rw [Supervisor.emit]
  split
  · exact h.act running rfl (by simpa [Effect.isExit] using hexit)
  · exact h

/-- Where the termination procedure is does not matter before the exit. -/
theorem Ok.moved (h : Ok cfg s) (running : s.completed = false) {termination : Termination}
    (flying : termination.inFlight = true → s.payloadPid ≠ 0) :
    Ok cfg { s with termination := termination } where
  once := h.once
  fresh := h.fresh
  timely := h.timely
  running := h.running
  last := h.last
  late hcompleted := by
    rw [running] at hcompleted
    cases hcompleted
  reaped := h.reaped
  empty := h.empty
  flying := flying

/-- A termination that is under way may go anywhere. -/
theorem Ok.onward (h : Ok cfg s) (running : s.completed = false)
    (hflying : s.termination.inFlight = true) (termination : Termination) :
    Ok cfg { s with termination := termination } :=
  h.moved running fun _ => h.flying hflying

/-- The exit event, where the payload is known to be gone or the procedure settles. -/
theorem Ok.complete (h : Ok cfg s) (c : Completion)
    (gone : s.completed = false → s.payloadPid ≠ 0 → s.termination ≠ .settled →
      s.payloadExited = true ∧ s.directChildClosed = true ∧ s.termination.late = true) :
    Ok cfg (s.complete cfg c) := by
  rw [Supervisor.complete]
  split
  · exact h
  · next hrunning =>
    have hrunning : s.completed = false := by simpa using hrunning
    have hcompleted : Ok cfg ({ s with completed := true }.clearRuntimeTimers) :=
      ⟨h.once, h.fresh, h.timely, fun hfalse => (by cases hfalse), h.last,
        fun _ => gone hrunning, h.reaped, h.empty, h.flying⟩
    rw [Supervisor.emit]
    split
    · have hcount : (s.effects ++ [Effect.emit (exitEvent cfg c
          ({ s with completed := true }.clearRuntimeTimers))]).countP Effect.isSpawn =
          s.effects.countP Effect.isSpawn := by simp [countP_append, Effect.isSpawn]
      constructor
      case once => exact hcount.symm ▸ h.once
      case fresh => exact fun hfirst => ⟨hcount.trans (h.fresh hfirst).1, (h.fresh hfirst).2⟩
      case timely =>
        intro message now hspawned
        rcases mem_append.mp hspawned with hspawned | hspawned
        · exact h.timely message now hspawned
        · cases mem_singleton.mp hspawned
      case running => intro hfalse; cases hfalse
      case last =>
        intro other hother
        have hother : other ∈ s.effects := by
          simpa [Supervisor.act, clearRuntimeTimers] using hother
        exact h.running hrunning other hother
      case late => exact fun _ => gone hrunning
      case reaped => exact h.reaped
      case empty => exact h.empty
      case flying => exact h.flying
    · exact hcompleted

/-- A completion that ends the termination procedure. -/
theorem Ok.settle (h : Ok cfg s) (c : Completion) :
    Ok cfg { s.complete cfg c with termination := .settled } := by
  have hsettled : Ok cfg { s with termination := .settled } :=
    ⟨h.once, h.fresh, h.timely, h.running, h.last, fun _ _ hne => absurd rfl hne, h.reaped,
      h.empty, fun hflying => by cases hflying⟩
  have hdone := hsettled.complete c (fun _ _ hne => absurd rfl hne)
  have hsame : { s.complete cfg c with termination := .settled } =
      Supervisor.complete cfg c { s with termination := .settled } := by
    cases hcompleted : s.completed <;> cases havailable : s.controlAvailable <;>
      simp [Supervisor.complete, Supervisor.emit, Supervisor.act, clearRuntimeTimers, exitEvent,
        hcompleted, havailable]
  rw [hsame]
  exact hdone

theorem Ok.unconfirmed (h : Ok cfg s) (running : s.completed = false) (guarantee : String) :
    Ok cfg (s.unconfirmed cfg guarantee) :=
  (h.emit running (show "termination_unconfirmed" ≠ "exit" by decide)).settle _

theorem Ok.contained (h : Ok cfg s) (confirmed : Bool) (guarantee : String) :
    Ok cfg (s.contained cfg confirmed guarantee) :=
  h.settle _

theorem Ok.killPayload (h : Ok cfg s) (running : s.completed = false) (signal : Signal) :
    Ok cfg (s.killPayload signal) := by
  rw [Supervisor.killPayload]
  split
  · exact h
  · exact h.act running rfl rfl

theorem Ok.signalProcessGroup (h : Ok cfg s) (running : s.completed = false) (signal : Signal) :
    Ok cfg (s.signalProcessGroup a signal) := by
  rw [Supervisor.signalProcessGroup]
  split
  · exact h.killPayload running signal
  · exact h.act running rfl rfl

@[simp] theorem act_completed (effect : Effect) (s : Supervisor) :
    (s.act effect).completed = s.completed := rfl

@[simp] theorem act_payloadPid (effect : Effect) (s : Supervisor) :
    (s.act effect).payloadPid = s.payloadPid := rfl

@[simp] theorem killPayload_completed (signal : Signal) (s : Supervisor) :
    (s.killPayload signal).completed = s.completed := by
  rw [Supervisor.killPayload]; split <;> rfl

@[simp] theorem killPayload_payloadPid (signal : Signal) (s : Supervisor) :
    (s.killPayload signal).payloadPid = s.payloadPid := by
  rw [Supervisor.killPayload]; split <;> rfl

@[simp] theorem signalProcessGroup_completed (signal : Signal) (s : Supervisor) :
    (s.signalProcessGroup a signal).completed = s.completed := by
  rw [Supervisor.signalProcessGroup]; split <;> simp

@[simp] theorem signalProcessGroup_payloadPid (signal : Signal) (s : Supervisor) :
    (s.signalProcessGroup a signal).payloadPid = s.payloadPid := by
  rw [Supervisor.signalProcessGroup]; split <;> simp

/-! ### Termination -/

/-- Requested before the exit or after it, a termination alone makes no effect but the exit
event and, of a payload that is alive, the `taskkill`. -/
theorem Ok.beginTermination (h : Ok cfg s) (hnone : s.termination = .none) :
    Ok cfg (s.beginTermination cfg a) := by
  rw [Supervisor.beginTermination]
  split
  · exact h.settle _
  · next hpayload =>
    have hpid : s.payloadPid ≠ 0 := fun hzero => hpayload (Or.inr hzero)
    have hgone : s.completed = true → s.payloadExited = true ∧ s.directChildClosed = true := by
      intro hcompleted
      have hlate := h.late hcompleted hpid (by rw [hnone]; decide)
      exact ⟨hlate.1, hlate.2.1⟩
    split
    · exact ⟨h.once, h.fresh, h.timely, h.running, h.last,
        fun hcompleted _ _ => ⟨(hgone hcompleted).1, (hgone hcompleted).2, rfl⟩, h.reaped,
        h.empty, fun _ => hpid⟩
    · split
      · exact ⟨h.once, h.fresh, h.timely, h.running, h.last,
          fun hcompleted _ _ => ⟨(hgone hcompleted).1, (hgone hcompleted).2, rfl⟩, h.reaped,
          h.empty, fun _ => hpid⟩
      · next hexited =>
        have hrunning : s.completed = false := by
          cases hcompleted : s.completed with
          | false => rfl
          | true => exact absurd (hgone hcompleted).1 hexited
        exact (h.act hrunning rfl rfl).moved hrunning (fun _ => hpid)

theorem Ok.requestTermination (h : Ok cfg s) (reason : String) :
    Ok cfg (s.requestTermination cfg a reason) := by
  rw [Supervisor.requestTermination]
  split
  · exact h
  · next hnone =>
    have hcleared : Ok cfg
        ({ s with terminationReason := safeReason reason "terminate" }.clearRuntimeTimers) := h
    exact hcleared.beginTermination (not_not.mp hnone)

/-- A termination that was requested after the exit finds the group absent. -/
def FindsNothing (s : Supervisor) (a : Answers) : Prop :=
  s.completed = true → s.termination = .probing → a.group = .absent

section

variable (h : Ok cfg s)

include h

theorem Ok.terminatePosix (nothing : s.FindsNothing a) : Ok cfg (s.terminatePosix cfg a) := by
  cases hcompleted : s.completed with
  | false =>
    unfold Supervisor.terminatePosix
    split
    · next hphase => split <;> exact h.onward hcompleted (by rw [hphase]; rfl) _
    · next hphase =>
      refine (h.signalProcessGroup hcompleted .sigterm).moved (by simpa using hcompleted) ?_
      intro _
      rw [signalProcessGroup_payloadPid]
      exact h.flying (by rw [hphase]; rfl)
    · next hphase =>
      split
      · exact h.onward hcompleted (by rw [hphase]; rfl) _
      · split
        · exact h.onward hcompleted (by rw [hphase]; rfl) _
        · exact h
    · next hphase =>
      refine (h.signalProcessGroup hcompleted .sigkill).moved (by simpa using hcompleted) ?_
      intro _
      rw [signalProcessGroup_payloadPid]
      exact h.flying (by rw [hphase]; rfl)
    · next hphase =>
      split
      · exact h.onward hcompleted (by rw [hphase]; rfl) _
      · split
        · exact h.unconfirmed hcompleted _
        · exact h
    · split
      · exact h.contained _ _
      · split
        · exact h.unconfirmed hcompleted _
        · exact h
    · exact h
  | true =>
    -- Of the procedure only the look at the group and the wait for the close are left.
    cases hphase : s.termination with
    | probing =>
      have hpid : s.payloadPid ≠ 0 := h.flying (by rw [hphase]; rfl)
      obtain ⟨hexited, hclosed, _⟩ := h.late hcompleted hpid (by rw [hphase]; decide)
      rw [Supervisor.terminatePosix]
      simp only [hphase, if_pos (nothing hcompleted hphase)]
      exact ⟨h.once, h.fresh, h.timely, h.running, h.last, fun _ _ _ => ⟨hexited, hclosed, rfl⟩,
        h.reaped, h.empty, fun _ => hpid⟩
    | closing since =>
      have hpid : s.payloadPid ≠ 0 := h.flying (by rw [hphase]; rfl)
      have hclosed := (h.late hcompleted hpid (by rw [hphase]; simp)).2.1
      rw [Supervisor.terminatePosix]
      simp only [hphase, if_pos hclosed]
      exact h.contained _ _
    | terminating | termGrace | killing | killConfirm =>
      have hpid : s.payloadPid ≠ 0 := h.flying (by rw [hphase]; rfl)
      have hlate := (h.late hcompleted hpid (by rw [hphase]; simp)).2.2
      rw [hphase] at hlate
      cases hlate
    | none | taskkill | exitWait | pause | stdioWait | lateClose | snapshot | descendants
    | lastClose | settled =>
      rw [Supervisor.terminatePosix]
      simp only [hphase]
      exact h

theorem Ok.windowsVerdict (running : s.completed = false) (result : Taskkill) (gone : Bool) :
    Ok cfg (s.windowsVerdict cfg result gone) := by
  rw [Supervisor.windowsVerdict]
  split
  · exact h.contained _ _
  · exact h.unconfirmed running _

theorem Ok.terminateWindows : Ok cfg (s.terminateWindows cfg a) := by
  cases hcompleted : s.completed with
  | false =>
    unfold Supervisor.terminateWindows
    split
    · next hphase =>
      split
      · exact h
      · have hpid : s.payloadPid ≠ 0 := h.flying (by rw [hphase]; rfl)
        dsimp only
        split
        · exact h.onward hcompleted (by rw [hphase]; rfl) _
        · refine (h.killPayload hcompleted .sigterm).moved (by simpa using hcompleted) ?_
          intro _
          rw [killPayload_payloadPid]
          exact hpid
    · next hphase =>
      split
      · exact h.onward hcompleted (by rw [hphase]; rfl) _
      · split
        · exact h
        · split
          · exact h.onward hcompleted (by rw [hphase]; rfl) _
          · exact h.windowsVerdict hcompleted _ _
    · next hphase =>
      split
      · exact h
      · split
        · exact h.onward hcompleted (by rw [hphase]; rfl) _
        · exact (h.act hcompleted rfl rfl).moved hcompleted
            (fun _ => h.flying (by rw [hphase]; rfl))
    · split
      · exact h.windowsVerdict hcompleted _ _
      · exact h
    · next hphase =>
      split
      · exact h.contained _ _
      · split
        · exact h.onward hcompleted (by rw [hphase]; rfl) _
        · exact h
    · next hphase =>
      split
      · exact h
      · exact h.onward hcompleted (by rw [hphase]; rfl) _
      · exact h.onward hcompleted (by rw [hphase]; rfl) _
      · exact (h.act hcompleted rfl rfl).moved hcompleted
          (fun _ => h.flying (by rw [hphase]; rfl))
    · next hphase =>
      split
      · exact h
      · exact h.onward hcompleted (by rw [hphase]; rfl) _
    · split
      · split
        · exact h.contained _ _
        · exact h.unconfirmed hcompleted _
      · exact h
    · exact h
  | true =>
    cases hphase : s.termination with
    | lateClose since =>
      have hpid : s.payloadPid ≠ 0 := h.flying (by rw [hphase]; rfl)
      have hclosed := (h.late hcompleted hpid (by rw [hphase]; simp)).2.1
      rw [Supervisor.terminateWindows]
      simp only [hphase, if_pos hclosed]
      exact h.contained _ _
    | taskkill | exitWait | pause | stdioWait | snapshot | descendants | lastClose =>
      have hpid : s.payloadPid ≠ 0 := h.flying (by rw [hphase]; rfl)
      have hlate := (h.late hcompleted hpid (by rw [hphase]; simp)).2.2
      rw [hphase] at hlate
      cases hlate
    | none | probing | terminating | termGrace | killing | killConfirm | closing | settled =>
      rw [Supervisor.terminateWindows]
      simp only [hphase]
      exact h

/-! ### The other callbacks -/

theorem Ok.scheduleWatchdog : Ok cfg s.scheduleWatchdog := by
  rw [Supervisor.scheduleWatchdog]
  split <;> exact h

theorem Ok.watchdogFires : Ok cfg (s.watchdogFires cfg a) := by
  have hfired : Ok cfg { s with watchdogTimer := false } := h
  rw [Supervisor.watchdogFires]
  split
  · exact hfired.scheduleWatchdog
  · exact hfired.requestTermination _

theorem Ok.scheduleExitCloseCheck : Ok cfg s.scheduleExitCloseCheck := by
  rw [Supervisor.scheduleExitCloseCheck]
  split <;> exact h

theorem Ok.exitCloseFires : Ok cfg (s.exitCloseFires cfg a) := by
  have hfired : Ok cfg { s with exitCloseTimer := false } := h
  have hpressed : Ok cfg { s with exitCloseTimer := false, lastPayloadOutputAt := a.clock } := h
  rw [Supervisor.exitCloseFires]
  dsimp only
  split
  · exact hfired
  · split
    · split
      · exact hpressed.requestTermination _
      · exact hpressed.scheduleExitCloseCheck
    · split
      · exact hfired.requestTermination _
      · exact hfired.scheduleExitCloseCheck

theorem Ok.recordPayloadExit (code : Option Int) (signal : String) :
    Ok cfg (s.recordPayloadExit a code signal) := by
  rw [Supervisor.recordPayloadExit]
  split
  · exact h
  · exact ⟨h.once, h.fresh, h.timely, h.running, h.last,
      fun hcompleted hpid hne => ⟨rfl, (h.late hcompleted hpid hne).2⟩, fun _ => rfl, h.empty,
      h.flying⟩

theorem Ok.spawnFailed (unlaunched : s.payloadPid = 0) (code : String) :
    Ok cfg (s.spawnFailed cfg code) := by
  refine .complete (s := { s with spawnErrorCode := code }) h _ ?_
  exact fun _ hne => absurd unlaunched hne

theorem Ok.onPayloadError (code : String) : Ok cfg (s.onPayloadError cfg code) := by
  rw [Supervisor.onPayloadError]
  split
  · next hpid => exact h.spawnFailed hpid code
  · exact h

theorem Ok.closed (code : Option Int) (signal : String) :
    Ok cfg ({ s with directChildClosed := true }.recordPayloadExit a code signal) := by
  rw [Supervisor.recordPayloadExit]
  split
  · next hexited =>
    exact ⟨h.once, h.fresh, h.timely, h.running, h.last,
      fun hcompleted hpid hne => ⟨hexited, rfl, (h.late hcompleted hpid hne).2.2⟩,
      fun _ => hexited, h.empty, h.flying⟩
  · exact ⟨h.once, h.fresh, h.timely, h.running, h.last,
      fun hcompleted hpid hne => ⟨rfl, rfl, (h.late hcompleted hpid hne).2.2⟩, fun _ => rfl,
      h.empty, h.flying⟩

end

theorem recordPayloadExit_closed (code : Option Int) (signal : String) (s : Supervisor) :
    ({ s with directChildClosed := true }.recordPayloadExit a code signal).directChildClosed =
      true := by
  rw [Supervisor.recordPayloadExit]; split <;> rfl

theorem Ok.onPayloadClose (h : Ok cfg s) (code : Option Int) (signal : String) :
    Ok cfg (s.onPayloadClose cfg a code signal) := by
  have hclosed := h.closed (a := a) code signal
  have hdirect := recordPayloadExit_closed (a := a) code signal s
  rw [Supervisor.onPayloadClose]
  dsimp only
  generalize { s with directChildClosed := true }.recordPayloadExit a code signal = t at *
  split
  · exact hclosed
  · next hrunning =>
    have hnone : t.termination = .none := by
      by_contra hne
      exact hrunning (Or.inr hne)
    have hgone : ∀ c, Ok cfg (t.clearRuntimeTimers.complete cfg c) := by
      intro c
      refine .complete (s := t.clearRuntimeTimers) hclosed c ?_
      intro _ _ _
      exact ⟨hclosed.reaped hdirect, hdirect, (by show t.termination.late = true; rw [hnone]; rfl)⟩
    split
    · exact hgone _
    · split
      · exact hgone _
      · exact .requestTermination (s := t.clearRuntimeTimers) hclosed _

theorem Ok.spawns (h : Ok cfg s) (running : s.completed = false)
    (first : s.firstMessageSeen = true) (fresh : s.effects.countP Effect.isSpawn = 0)
    {message : Json} {now : Nat}
    (timely : launchAuthorityExpired ((launchDeadlineAt cfg.js message).getD 0) now = false) :
    Ok cfg (s.spawns message now) := by
  have hall : ∀ other ∈ s.effects ++ [Effect.spawn message now], other.isExit = false := by
    intro other hother
    rcases mem_append.mp hother with hother | hother
    · exact h.running running other hother
    · exact mem_singleton.mp hother ▸ rfl
  constructor
  case once => simp [Supervisor.spawns, Supervisor.act, countP_append, fresh, Effect.isSpawn]
  case fresh =>
    intro hfirst
    have hfirst : s.firstMessageSeen = false := hfirst
    rw [first] at hfirst
    cases hfirst
  case timely =>
    intro other moment hspawned
    rcases mem_append.mp hspawned with hspawned | hspawned
    · exact h.timely other moment hspawned
    · cases mem_singleton.mp hspawned
      exact timely
  case running => exact fun _ => hall
  case last => exact fun other hother => hall other (dropLast_subset _ hother)
  case late =>
    intro hcompleted
    have hcompleted : s.completed = true := hcompleted
    rw [running] at hcompleted
    cases hcompleted
  case reaped => exact h.reaped
  case empty => exact h.empty
  case flying => exact h.flying

/-- The child that `spawn` returned, before the exit. -/
theorem Ok.withPayload (h : Ok cfg s) (running : s.completed = false)
    (unlaunched : s.payload = false) (first : s.firstMessageSeen = true) (pid now : Nat) :
    Ok cfg (s.withPayload pid now) := by
  constructor
  case once => exact h.once
  case fresh =>
    intro hfirst
    have hfirst : s.firstMessageSeen = false := hfirst
    rw [first] at hfirst
    cases hfirst
  case timely => exact h.timely
  case running => exact h.running
  case last => exact h.last
  case late =>
    intro hcompleted
    have hcompleted : s.completed = true := hcompleted
    rw [running] at hcompleted
    cases hcompleted
  case reaped => exact h.reaped
  case empty => intro hpayload; cases hpayload
  case flying => exact fun hflying => absurd (h.empty unlaunched) (h.flying hflying)

theorem Ok.startTimers (h : Ok cfg s) (timeoutMs clock : Nat) :
    Ok cfg (s.startTimers timeoutMs clock) := by
  rw [Supervisor.startTimers]
  split
  · exact .scheduleWatchdog
      (s := { s with timeoutTimer := 0 < timeoutMs, lastHeartbeatAt := clock }) h
  · exact h

theorem Ok.launchPayload (h : Ok cfg s) (running : s.completed = false)
    (first : s.firstMessageSeen = true) (fresh : s.effects.countP Effect.isSpawn = 0)
    (unlaunched : s.payload = false) (message : Json) : Ok cfg (s.launchPayload cfg a message) := by
  have hpid : s.payloadPid = 0 := h.empty unlaunched
  have hread : Ok cfg (s.readLaunch cfg message) := h
  rw [Supervisor.launchPayload]
  split
  · exact hread.complete _ (fun _ hne => absurd hpid hne)
  · next htimely =>
    have hspawned := hread.spawns running first fresh (by simpa using htimely)
    split
    · exact hspawned.spawnFailed hpid _
    · next pid _ =>
      have hstarted := hspawned.withPayload running unlaunched first pid a.now
      refine .startTimers ?_ _ _
      rw [announceLaunch]
      split
      · have htype : (launchedEvent cfg pid a.now).type ≠ "exit" :=
          show "launched" ≠ "exit" by decide
        exact hstarted.emit running htype
      · exact hstarted

/-! ### Messages -/

theorem Ok.protocolFailure (h : Ok cfg s) : Ok cfg (s.protocolFailure cfg a) := by
  rw [Supervisor.protocolFailure]
  split
  · exact h
  · next hrunning =>
    have htype : (ControlEvent.plain "protocol_error" cfg.supervisorIdentity).type ≠ "exit" :=
      show "protocol_error" ≠ "exit" by decide
    have hemitted := h.emit (by simpa using hrunning) htype
    dsimp only
    split
    · exact hemitted.requestTermination _
    · next hpid =>
      exact hemitted.complete _ (fun _ hne => absurd (not_not.mp hpid) hne)

theorem Ok.awaited (h : Ok cfg s) : Ok cfg s.awaited := h

theorem Ok.onHeartbeat (h : Ok cfg s) (message : Json) : Ok cfg (s.onHeartbeat cfg a message) := by
  rw [Supervisor.onHeartbeat]
  split
  · exact h
  · split
    · exact h.protocolFailure.awaited
    · split
      · exact h
      · dsimp only
        split
        · exact (h.requestTermination _).awaited
        · exact .scheduleWatchdog
            (s := { s with lastHeartbeatAt := a.clock, watchdogDeadlineAt := _ }) h

theorem Ok.firstMessage (h : Ok cfg s) : Ok cfg { s with firstMessageSeen := true } :=
  ⟨h.once, fun hfirst => (by cases hfirst), h.timely, h.running, h.last, h.late, h.reaped, h.empty,
    h.flying⟩

theorem Ok.handleMessage (h : Ok cfg s) (line : Line) : Ok cfg (s.handleMessage cfg a line) := by
  unfold Supervisor.handleMessage
  split
  · exact h
  · next hrunning =>
    have hrunning : s.completed = false := by simpa using hrunning
    split
    · exact h
    · exact h.protocolFailure.awaited
    · split
      · exact h.protocolFailure.awaited
      · split
        · next hfirst =>
          split
          · obtain ⟨hspawns, hpayload⟩ := h.fresh hfirst
            exact h.firstMessage.launchPayload hrunning rfl hspawns hpayload _
          · exact h.firstMessage.protocolFailure.awaited
        · split
          · exact h.onHeartbeat _
          · split
            · exact (h.requestTermination _).awaited
            · exact h.protocolFailure.awaited

theorem Ok.handleNext (h : Ok cfg s) : Ok cfg (s.handleNext cfg a) := by
  rw [Supervisor.handleNext]
  split
  · exact h
  · split
    · exact h
    · next item rest _ =>
      have hnext : Ok cfg { s with messageChain := rest, chainWaits := false } := h
      dsimp only
      split
      · exact hnext.handleMessage _
      · split
        · exact hnext
        · split
          · next hpid => exact hnext.complete _ (fun _ hne => absurd hpid hne)
          · exact (hnext.requestTermination _).awaited

end Supervisor

open Supervisor

variable {cfg : SupervisorConfig} {s : Supervisor} {a : Answers}

/-- What the system has to answer in a step, so that nothing follows the exit event. -/
def Harmless (cfg : SupervisorConfig) (s : Supervisor) (a : Answers) : SupervisorEvent → Prop
  | .resume => cfg.platform = .posix → s.FindsNothing a
  | _ => True

theorem ok_supervisorStep (h : s.Ok cfg) {event : SupervisorEvent}
    (harmless : Harmless cfg s a event) : (supervisorStep cfg s a event).Ok cfg := by
  cases event with
  | line line => rw [supervisorStep]; split <;> exact h
  | lineTooLarge => exact h.protocolFailure
  | stdinEnd rest => rw [supervisorStep]; split <;> exact h
  | stdinError =>
    rw [supervisorStep]
    split
    · exact h
    · exact h.requestTermination _
  | handleNext => exact h.handleNext
  | signal => exact h.requestTermination _
  | timeoutFires =>
    rw [supervisorStep]
    split
    · exact .requestTermination (s := { s with timeoutTimer := false }) h _
    · exact h
  | watchdogFires =>
    rw [supervisorStep]
    split
    · exact h.watchdogFires
    · exact h
  | exitCloseFires =>
    rw [supervisorStep]
    split
    · exact h.exitCloseFires
    · exact h
  | payloadOutput => exact h
  | channelError channel =>
    rw [supervisorStep]
    split
    · exact h
    · exact h.requestTermination _
  | payloadError code =>
    rw [supervisorStep]
    split
    · exact h.onPayloadError _
    · exact h
  | payloadExit code signal =>
    rw [supervisorStep]
    split
    · exact (h.recordPayloadExit _ _).scheduleExitCloseCheck
    · exact h
  | payloadClose code signal =>
    rw [supervisorStep]
    split
    · exact h.onPayloadClose _ _
    · exact h
  | controlCloses => exact h
  | resume =>
    rw [supervisorStep]
    split
    · next hplatform => exact h.terminatePosix (harmless hplatform)
    · exact h.terminateWindows

theorem ok_started (cfg : SupervisorConfig) : (Supervisor.started cfg).Ok cfg := by
  unfold Supervisor.started
  have hnew : ∀ s : Supervisor, s.effects = [] → s.completed = false → s.payload = false →
      s.payloadPid = 0 → s.directChildClosed = false → s.termination = .none → s.Ok cfg := by
    intro s heffects hcompleted hpayload hpid hclosed htermination
    unfold Supervisor.Ok
    rw [heffects, hcompleted, hpayload, hpid, hclosed, htermination]
    constructor <;> simp [Termination.inFlight]
  split
  · refine .emit (hnew _ rfl rfl rfl rfl rfl rfl) rfl ?_
    exact show "ready" ≠ "exit" by decide
  · refine .complete (.emit (hnew _ rfl rfl rfl rfl rfl rfl) rfl ?_) _ ?_
    · exact show "protocol_error" ≠ "exit" by decide
    · intro _ hne
      exact absurd rfl hne

end AgentBridge.Supervision
