import AgentBridge.Supervision.Bridge
import AgentBridge.Supervision.Supervisor

/-!
# Verdicts

What an exit event of the supervisor and a result of the bridge say about the payload. The
supervisor's side is stated for two propositions about the system, that the payload's group
is deserted and that nobody holds its output, which the callbacks learn from the probe of
the group and from the close of the pipes.

`Framed` collects what most callbacks leave alone; only a launch and the payload's own exit
and close are not framed, and only the POSIX procedure signals.
-/

namespace AgentBridge.Supervision

def Effect.isSignal : Effect → Bool
  | .killGroup _ _ => true
  | .killPayload _ => true
  | .taskkill _ => true
  | .terminate _ => true
  | _ => false

/-- The invariant, over the fields it reads. -/
structure Verified (deserted silent : Prop) (effects : List Effect)
    (first completed payload closed : Bool) (pid : Nat) (termination : Termination) : Prop where
  exits : ∀ event, Effect.emit event ∈ effects → event.type = "exit" → completed = true ∧
    (event.errorType ≠ "termination_unconfirmed" → pid = 0 ∨ deserted ∧ silent)
  closing : ∀ since, termination = .closing since → deserted
  quiet : closed = true → pid ≠ 0 → silent
  fresh : first = false → payload = false
  empty : payload = false → pid = 0 ∧ closed = false
  flying : termination.inFlight = true → pid ≠ 0

namespace Supervisor

def signals (s : Supervisor) : List Effect := s.effects.filter Effect.isSignal

/-- What a callback leaves alone. -/
structure Framed (s t : Supervisor) : Prop where
  payloadPid : t.payloadPid = s.payloadPid
  payload : t.payload = s.payload
  payloadExited : t.payloadExited = s.payloadExited
  firstMessageSeen : t.firstMessageSeen = s.firstMessageSeen
  messageChain : t.messageChain = s.messageChain
  signals : t.signals = s.signals
  grown : s.effects <+: t.effects

variable {cfg : SupervisorConfig} {a : Answers} {s t u : Supervisor}

theorem Framed.refl (s : Supervisor) : Framed s s :=
  ⟨rfl, rfl, rfl, rfl, rfl, rfl, List.prefix_rfl⟩

theorem Framed.trans (h : Framed s t) (h' : Framed t u) : Framed s u where
  payloadPid := h'.payloadPid.trans h.payloadPid
  payload := h'.payload.trans h.payload
  payloadExited := h'.payloadExited.trans h.payloadExited
  firstMessageSeen := h'.firstMessageSeen.trans h.firstMessageSeen
  messageChain := h'.messageChain.trans h.messageChain
  signals := h'.signals.trans h.signals
  grown := h.grown.trans h'.grown

theorem Framed.flags (payloadPid : t.payloadPid = s.payloadPid) (payload : t.payload = s.payload)
    (payloadExited : t.payloadExited = s.payloadExited)
    (firstMessageSeen : t.firstMessageSeen = s.firstMessageSeen)
    (messageChain : t.messageChain = s.messageChain) (effects : t.effects = s.effects) :
    Framed s t :=
  ⟨payloadPid, payload, payloadExited, firstMessageSeen, messageChain,
    congrArg (List.filter Effect.isSignal) effects, effects ▸ List.prefix_rfl⟩

theorem framed_emit (s : Supervisor) (event : ControlEvent) : Framed s (s.emit event) := by
  rw [Supervisor.emit]
  split
  · refine ⟨rfl, rfl, rfl, rfl, rfl, ?_, List.prefix_append _ _⟩
    simp [signals, act, Effect.isSignal]
  · exact .refl s

theorem framed_complete (s : Supervisor) (c : Completion) : Framed s (s.complete cfg c) := by
  rw [Supervisor.complete]
  split
  · exact .refl s
  · have hcompleted : Framed s ({ s with completed := true }.clearRuntimeTimers) :=
      Framed.flags rfl rfl rfl rfl rfl rfl
    exact hcompleted.trans (framed_emit _ _)

theorem framed_settle (s : Supervisor) (c : Completion) :
    Framed s { s.complete cfg c with termination := .settled } :=
  (framed_complete s c).trans (.flags rfl rfl rfl rfl rfl rfl)

theorem framed_unconfirmed (s : Supervisor) (guarantee : String) :
    Framed s (s.unconfirmed cfg guarantee) :=
  (framed_emit s _).trans (framed_settle _ _)

theorem framed_contained (s : Supervisor) (confirmed : Bool) (guarantee : String) :
    Framed s (s.contained cfg confirmed guarantee) :=
  framed_settle s _

theorem framed_requestTermination (posix : cfg.platform = .posix) (s : Supervisor)
    (reason : String) : Framed s (s.requestTermination cfg a reason) := by
  rw [Supervisor.requestTermination]
  split
  · exact .refl s
  · dsimp only
    rw [Supervisor.beginTermination, posix]
    split
    · refine (Framed.flags ?_ ?_ ?_ ?_ ?_ ?_).trans (framed_settle _ _) <;> rfl
    · exact .flags rfl rfl rfl rfl rfl rfl

theorem framed_scheduleWatchdog (s : Supervisor) : Framed s s.scheduleWatchdog := by
  rw [Supervisor.scheduleWatchdog]
  split <;> exact .flags rfl rfl rfl rfl rfl rfl

theorem framed_watchdogFires (posix : cfg.platform = .posix) (s : Supervisor) :
    Framed s (s.watchdogFires cfg a) := by
  have hfired : Framed s { s with watchdogTimer := false } :=
    Framed.flags rfl rfl rfl rfl rfl rfl
  rw [Supervisor.watchdogFires]
  dsimp only
  split
  · exact hfired.trans (framed_scheduleWatchdog _)
  · exact hfired.trans (framed_requestTermination posix _ _)

theorem framed_scheduleExitCloseCheck (s : Supervisor) : Framed s s.scheduleExitCloseCheck := by
  rw [Supervisor.scheduleExitCloseCheck]
  split <;> exact .flags rfl rfl rfl rfl rfl rfl

theorem framed_exitCloseFires (posix : cfg.platform = .posix) (s : Supervisor) :
    Framed s (s.exitCloseFires cfg a) := by
  have hfired : Framed s { s with exitCloseTimer := false } :=
    Framed.flags rfl rfl rfl rfl rfl rfl
  have hpressed : Framed s { s with exitCloseTimer := false, lastPayloadOutputAt := a.clock } :=
    Framed.flags rfl rfl rfl rfl rfl rfl
  rw [Supervisor.exitCloseFires]
  dsimp only
  split
  · exact hfired
  · split
    · split
      · exact hpressed.trans (framed_requestTermination posix _ _)
      · exact hpressed.trans (framed_scheduleExitCloseCheck _)
    · split
      · exact hfired.trans (framed_requestTermination posix _ _)
      · exact hfired.trans (framed_scheduleExitCloseCheck _)

theorem framed_onPayloadError (s : Supervisor) (code : String) :
    Framed s (s.onPayloadError cfg code) := by
  rw [Supervisor.onPayloadError]
  split
  · have hnoted : Framed s { s with spawnErrorCode := code } :=
      Framed.flags rfl rfl rfl rfl rfl rfl
    exact hnoted.trans (framed_complete _ _)
  · exact .flags rfl rfl rfl rfl rfl rfl

theorem framed_protocolFailure (posix : cfg.platform = .posix) (s : Supervisor) :
    Framed s (s.protocolFailure cfg a) := by
  rw [Supervisor.protocolFailure]
  split
  · exact .refl s
  · dsimp only
    split
    · exact (framed_emit s _).trans (framed_requestTermination posix _ _)
    · exact (framed_emit s _).trans (framed_complete _ _)

theorem framed_awaited (s : Supervisor) : Framed s s.awaited :=
  Framed.flags rfl rfl rfl rfl rfl rfl

theorem framed_onHeartbeat (posix : cfg.platform = .posix) (s : Supervisor) (message : Json) :
    Framed s (s.onHeartbeat cfg a message) := by
  rw [Supervisor.onHeartbeat]
  split
  · exact .refl s
  · split
    · exact (framed_protocolFailure posix s).trans (framed_awaited _)
    · split
      · exact .refl s
      · dsimp only
        split
        · exact (framed_requestTermination posix s _).trans (framed_awaited _)
        · refine .trans ?_ (framed_scheduleWatchdog _)
          exact .flags rfl rfl rfl rfl rfl rfl

/-! ### Exit events -/

variable {deserted silent : Prop}

def Sound (deserted silent : Prop) (s : Supervisor) : Prop :=
  Verified deserted silent s.effects s.firstMessageSeen s.completed s.payload s.directChildClosed
    s.payloadPid s.termination

section

variable (h : s.Sound deserted silent)

include h

theorem Sound.act {effect : Effect} (hexit : ∀ event, effect = .emit event → event.type ≠ "exit") :
    (s.act effect).Sound deserted silent where
  exits event hevent htype := by
    rcases List.mem_append.mp hevent with hevent | hevent
    · exact h.exits event hevent htype
    · exact absurd htype (hexit event (List.mem_singleton.mp hevent).symm)
  closing := h.closing
  quiet := h.quiet
  fresh := h.fresh
  empty := h.empty
  flying := h.flying

theorem Sound.emit {event : ControlEvent} (hexit : event.type ≠ "exit") :
    (s.emit event).Sound deserted silent := by
  rw [Supervisor.emit]
  split
  · refine h.act ?_
    intro other hother
    rwa [← Effect.emit.inj hother]
  · exact h

theorem Sound.moved {termination : Termination}
    (flying : termination.inFlight = true → s.payloadPid ≠ 0)
    (closing : ∀ since, termination = .closing since → deserted) :
    ({ s with termination := termination }).Sound deserted silent where
  exits := h.exits
  closing := closing
  quiet := h.quiet
  fresh := h.fresh
  empty := h.empty
  flying := flying

/-- An exit event that does not report the payload as possibly alive has to be true. -/
theorem Sound.complete (c : Completion)
    (honest : c.errorType ≠ "termination_unconfirmed" → s.payloadPid = 0 ∨ deserted ∧ silent) :
    (s.complete cfg c).Sound deserted silent := by
  rw [Supervisor.complete]
  split
  · exact h
  · next hrunning =>
    have hnone : ∀ event, Effect.emit event ∈ s.effects → event.type ≠ "exit" := by
      intro event hevent htype
      exact hrunning (h.exits event hevent htype).1
    have hcompleted :
        ({ s with completed := true }.clearRuntimeTimers).Sound deserted silent :=
      ⟨fun event hevent htype => absurd htype (hnone event hevent), h.closing, h.quiet, h.fresh,
        h.empty, h.flying⟩
    rw [Supervisor.emit]
    split
    · refine ⟨?_, h.closing, h.quiet, h.fresh, h.empty, h.flying⟩
      intro event hevent htype
      rcases List.mem_append.mp hevent with hevent | hevent
      · exact absurd htype (hnone event hevent)
      · obtain rfl := Effect.emit.inj (List.mem_singleton.mp hevent)
        exact ⟨rfl, honest⟩
    · exact hcompleted

theorem Sound.settle (c : Completion)
    (honest : c.errorType ≠ "termination_unconfirmed" → s.payloadPid = 0 ∨ deserted ∧ silent) :
    ({ s.complete cfg c with termination := .settled }).Sound deserted silent := by
  refine (h.complete c honest).moved ?_ ?_
  · intro hflying
    cases hflying
  · intro since hclosing
    cases hclosing

theorem Sound.unconfirmed (guarantee : String) :
    (s.unconfirmed cfg guarantee).Sound deserted silent :=
  (h.emit (show "termination_unconfirmed" ≠ "exit" by decide)).settle _
    (fun hne => absurd rfl hne)

theorem Sound.killPayload (signal : Signal) : (s.killPayload signal).Sound deserted silent := by
  rw [Supervisor.killPayload]
  split
  · exact h
  · exact h.act (fun _ heffect => by cases heffect)

theorem Sound.signalProcessGroup (signal : Signal) :
    (s.signalProcessGroup a signal).Sound deserted silent := by
  rw [Supervisor.signalProcessGroup]
  split
  · exact h.killPayload signal
  · exact h.act (fun _ heffect => by cases heffect)

theorem Sound.requestTermination (posix : cfg.platform = .posix) (reason : String) :
    (s.requestTermination cfg a reason).Sound deserted silent := by
  rw [Supervisor.requestTermination]
  split
  · exact h
  · dsimp only
    rw [Supervisor.beginTermination, posix]
    split
    · next hnone =>
      have hpid : s.payloadPid = 0 := by
        rcases hnone with hpayload | hpid
        · exact (h.empty hpayload).1
        · exact hpid
      exact .settle
        (s := { s with terminationReason := safeReason reason "terminate" }.clearRuntimeTimers) h _
        (fun _ => Or.inl hpid)
    · next hpayload =>
      refine .moved
        (s := { s with terminationReason := safeReason reason "terminate" }.clearRuntimeTimers) h
        ?_ ?_
      · exact fun _ hzero => hpayload (Or.inr hzero)
      · intro since hclosing
        cases hclosing

end

theorem signalProcessGroup_pid (signal : Signal) (s : Supervisor) :
    (s.signalProcessGroup a signal).payloadPid = s.payloadPid := by
  rw [Supervisor.signalProcessGroup, Supervisor.killPayload]
  split
  · split <;> rfl
  · rfl

section

variable (h : s.Sound deserted silent)

include h

/-- The POSIX procedure confirms what it has seen: the group absent, then the close. -/
theorem Sound.terminatePosix (probe : a.group = .absent → s.payloadPid ≠ 0 → deserted) :
    (s.terminatePosix cfg a).Sound deserted silent := by
  have closing : a.group = .absent → s.termination.inFlight = true →
      ({ s with termination := .closing a.clock }).Sound deserted silent := by
    intro habsent hflying
    have hpid := h.flying hflying
    exact h.moved (fun _ => hpid) (fun _ _ => probe habsent hpid)
  have moved : ∀ termination, (∀ since, termination ≠ .closing since) →
      s.termination.inFlight = true →
      ({ s with termination := termination }).Sound deserted silent := by
    intro termination hnot hflying
    exact h.moved (fun _ => h.flying hflying) (fun since hclosing => absurd hclosing (hnot since))
  unfold Supervisor.terminatePosix
  split
  · next hphase =>
    split
    · next habsent => exact closing habsent (by rw [hphase]; rfl)
    · exact moved _ nofun (by rw [hphase]; rfl)
  · next hphase =>
    refine (h.signalProcessGroup .sigterm).moved ?_ nofun
    intro _
    rw [signalProcessGroup_pid]
    exact h.flying (by rw [hphase]; rfl)
  · next hphase =>
    split
    · next habsent => exact closing habsent (by rw [hphase]; rfl)
    · split
      · exact moved _ nofun (by rw [hphase]; rfl)
      · exact h
  · next hphase =>
    refine (h.signalProcessGroup .sigkill).moved ?_ nofun
    intro _
    rw [signalProcessGroup_pid]
    exact h.flying (by rw [hphase]; rfl)
  · next hphase =>
    split
    · next habsent => exact closing habsent (by rw [hphase]; rfl)
    · split
      · exact h.unconfirmed _
      · exact h
  · next since hphase =>
    split
    · next hclosed =>
      have hpid : s.payloadPid ≠ 0 := h.flying (by rw [hphase]; rfl)
      exact h.settle _ (fun _ => Or.inr ⟨h.closing since hphase, h.quiet hclosed hpid⟩)
    · split
      · exact h.unconfirmed _
      · exact h
  · exact h

theorem Sound.scheduleWatchdog : s.scheduleWatchdog.Sound deserted silent := by
  rw [Supervisor.scheduleWatchdog]
  split <;> exact h

theorem Sound.watchdogFires (posix : cfg.platform = .posix) :
    (s.watchdogFires cfg a).Sound deserted silent := by
  have hfired : ({ s with watchdogTimer := false }).Sound deserted silent := h
  rw [Supervisor.watchdogFires]
  dsimp only
  split
  · exact hfired.scheduleWatchdog
  · exact hfired.requestTermination posix _

theorem Sound.scheduleExitCloseCheck : s.scheduleExitCloseCheck.Sound deserted silent := by
  rw [Supervisor.scheduleExitCloseCheck]
  split <;> exact h

theorem Sound.exitCloseFires (posix : cfg.platform = .posix) :
    (s.exitCloseFires cfg a).Sound deserted silent := by
  have hfired : ({ s with exitCloseTimer := false }).Sound deserted silent := h
  have hpressed : ({ s with exitCloseTimer := false, lastPayloadOutputAt := a.clock }).Sound
      deserted silent := h
  rw [Supervisor.exitCloseFires]
  dsimp only
  split
  · exact hfired
  · split
    · split
      · exact hpressed.requestTermination posix _
      · exact hpressed.scheduleExitCloseCheck
    · split
      · exact hfired.requestTermination posix _
      · exact hfired.scheduleExitCloseCheck

theorem Sound.recordPayloadExit (code : Option Int) (signal : String) :
    (s.recordPayloadExit a code signal).Sound deserted silent := by
  rw [Supervisor.recordPayloadExit]
  split <;> exact h

theorem Sound.spawnFailed (unlaunched : s.payloadPid = 0) (code : String) :
    (s.spawnFailed cfg code).Sound deserted silent :=
  Sound.complete (s := { s with spawnErrorCode := code }) h _ (fun _ => Or.inl unlaunched)

theorem Sound.onPayloadError (code : String) :
    (s.onPayloadError cfg code).Sound deserted silent := by
  rw [Supervisor.onPayloadError]
  split
  · next hpid => exact h.spawnFailed hpid code
  · exact h

theorem Sound.onPayloadClose (posix : cfg.platform = .posix) (payload : s.payload = true)
    (probe : a.group = .absent → s.payloadPid ≠ 0 → deserted) (close : s.payloadPid ≠ 0 → silent)
    (code : Option Int) (signal : String) :
    (s.onPayloadClose cfg a code signal).Sound deserted silent := by
  have hmarked : ({ s with directChildClosed := true }).Sound deserted silent := by
    refine ⟨h.exits, h.closing, fun _ => close, h.fresh, ?_, h.flying⟩
    intro hpayload
    have hpayload : s.payload = false := hpayload
    rw [payload] at hpayload
    cases hpayload
  have hclosed := hmarked.recordPayloadExit (a := a) code signal
  have hpid : ({ s with directChildClosed := true }.recordPayloadExit a code signal).payloadPid =
      s.payloadPid := by rw [Supervisor.recordPayloadExit]; split <;> rfl
  rw [Supervisor.onPayloadClose]
  dsimp only
  generalize { s with directChildClosed := true }.recordPayloadExit a code signal = t at *
  split
  · exact hclosed
  · rw [posix]
    dsimp only
    split
    · next habsent =>
      have hne : s.payloadPid ≠ 0 := by
        have hpositive : 0 < t.payloadPid := habsent.1
        omega
      exact .complete (s := t.clearRuntimeTimers) hclosed _
        (fun _ => Or.inr ⟨probe habsent.2 hne, close hne⟩)
    · exact .requestTermination (s := t.clearRuntimeTimers) hclosed posix _

theorem Sound.protocolFailure (posix : cfg.platform = .posix) :
    (s.protocolFailure cfg a).Sound deserted silent := by
  have hemitted : (s.emit (.plain "protocol_error" cfg.supervisorIdentity)).Sound
      deserted silent := h.emit (show "protocol_error" ≠ "exit" by decide)
  rw [Supervisor.protocolFailure]
  split
  · exact h
  · dsimp only
    split
    · exact hemitted.requestTermination posix _
    · next hpid => exact hemitted.complete _ (fun _ => Or.inl (not_not.mp hpid))

theorem Sound.onHeartbeat (posix : cfg.platform = .posix) (message : Json) :
    (s.onHeartbeat cfg a message).Sound deserted silent := by
  rw [Supervisor.onHeartbeat]
  split
  · exact h
  · split
    · exact h.protocolFailure posix
    · split
      · exact h
      · dsimp only
        split
        · exact h.requestTermination posix _
        · exact .scheduleWatchdog
            (s := { s with lastHeartbeatAt := a.clock, watchdogDeadlineAt := _ }) h

end

end Supervisor

end AgentBridge.Supervision
