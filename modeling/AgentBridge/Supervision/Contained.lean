import AgentBridge.Supervision.LaunchGate
import AgentBridge.Supervision.ProcessGroups
import AgentBridge.Supervision.Verdicts

/-!
# Containment on POSIX

The bridge and the supervisor over an operating system with process groups. The supervisor
probes and signals groups as they are at that moment, and between any two of its looks and
signals processes may start, move, end and take a free pid again.

That the verdicts are true holds in every run. That no signal goes astray holds exactly in
the runs in which no other group carries the payload's id at the moment of a signal.
-/

namespace AgentBridge.Supervision

open Systems List

/-! ### Results of the bridge -/

/-- The exit event that the bridge keeps is known, and its result rests on a known exit event
or on the launch never having been sent, unless it reports the payload as possibly alive. -/
structure Judgement (known : ControlEvent → Prop) (exitEvent : Option ControlEvent)
    (result : Option RunResult) (settled launchSent : Bool) : Prop where
  event : ∀ event, exitEvent = some event → known event ∧ event.type = "exit"
  settled : ∀ r, result = some r → settled = true
  honest : ∀ r, result = some r → r.processTreeUnconfirmed = false → launchSent = false ∨
    ∃ event, known event ∧ event.type = "exit" ∧ event.errorType ≠ "termination_unconfirmed"

namespace Bridge

variable {cfg : CommandConfig} {b : Bridge} {known : ControlEvent → Prop} {now : Nat}

def Judged (known : ControlEvent → Prop) (b : Bridge) : Prop :=
  Judgement known b.controlExitEvent b.result b.settled b.launchSent

section

variable (h : b.Judged known)

include h

theorem Judged.mono {known' : ControlEvent → Prop} (hknown : ∀ event, known event → known' event) :
    b.Judged known' where
  event event hevent := ⟨hknown event (h.event event hevent).1, (h.event event hevent).2⟩
  settled := h.settled
  honest r hr hconfirmed := by
    refine (h.honest r hr hconfirmed).imp id ?_
    rintro ⟨event, hevent, hexit⟩
    exact ⟨event, hknown event hevent, hexit⟩

theorem Judged.finish {result : RunResult}
    (honest : result.processTreeUnconfirmed = false → b.launchSent = false ∨
      ∃ event, known event ∧ event.type = "exit" ∧ event.errorType ≠ "termination_unconfirmed") :
    (b.finish result).Judged known := by
  rw [Bridge.finish]
  split
  · exact h
  · refine ⟨h.event, fun _ _ => rfl, ?_⟩
    intro r hr
    obtain rfl := Option.some.inj hr
    exact honest

theorem Judged.finishInfrastructureFailure (errorType : String) :
    (b.finishInfrastructureFailure errorType).Judged known :=
  h.finish Or.inl

theorem Judged.finishFromSupervisor : b.finishFromSupervisor.Judged known := by
  unfold Bridge.finishFromSupervisor
  split
  · next event hevent =>
    obtain ⟨hknown, hexit⟩ := h.event event hevent
    rw [finishFromControlExit]
    split
    · exact h.finishInfrastructureFailure _
    · refine h.finish ?_
      intro hconfirmed
      refine Or.inr ⟨event, hknown, hexit, ?_⟩
      intro herror
      simp [controlExitResult, terminationUnconfirmed, herror] at hconfirmed
  · exact h.finishInfrastructureFailure _

theorem Judged.sendControl (message : BridgeMessage) (now : Nat) :
    (b.sendControl message now).Judged known := by
  rw [Bridge.sendControl]
  split <;> exact h

theorem Judged.requestTermination (reason : String) :
    (b.requestTermination reason now).Judged known := by
  rw [Bridge.requestTermination]
  split
  · exact h
  · split
    · exact h
    · exact .sendControl (b := b.noteReason reason) h _ _

theorem Judged.failGate (failureType reason : String) :
    (b.failGate failureType reason now).Judged known :=
  Judged.requestTermination (b := { b with gateFailureType := failureType }) h reason

theorem Judged.armIdleTimer : (b.armIdleTimer cfg).Judged known := by
  rw [Bridge.armIdleTimer]
  split <;> exact h

theorem Judged.maybeLaunch : (b.maybeLaunch cfg now).Judged known := by
  rw [Bridge.maybeLaunch]
  split
  · exact h
  · next hgate =>
    split
    · exact h.failGate _ _
    · split
      · exact h.finishInfrastructureFailure _
      · have hopen : b.settled = false := by
          simp only [gateOpen, Bool.not_eq_false, Bool.and_eq_true, Bool.not_eq_true'] at hgate
          exact hgate.1.1.1.1.1
        have hnone : ∀ r, b.result ≠ some r := by
          intro r hr
          have := h.settled r hr
          rw [hopen] at this
          cases this
        have hsent := h.sendControl (.launch (b.launchDeadline cfg now)) now
        have hresult : (b.sendControl (.launch (b.launchDeadline cfg now)) now).result =
            b.result := by rw [Bridge.sendControl]; split <;> rfl
        refine .armIdleTimer (b := { b.sendControl _ now with
          launchSent := true, startupTimer := false, lastActivityMs := now
          heartbeatTimer := true }) ⟨hsent.event, hsent.settled, ?_⟩
        intro r hr
        exact absurd (hresult ▸ hr) (hnone r)

theorem Judged.observePid (event : ControlEvent) : (b.observePid event).Judged known := by
  rw [Bridge.observePid]
  split <;> exact h

theorem Judged.handleControlEvent {event : ControlEvent} (hknown : known event) :
    (b.handleControlEvent cfg event now).Judged known := by
  have hobserved := h.observePid event
  rw [Bridge.handleControlEvent]
  split
  · exact h
  · split
    · exact h.failGate _ _
    · split
      · split
        · exact .maybeLaunch (b := { b.observePid event with supervisorReady := true })
            hobserved
        · exact hobserved.failGate _ _
      · split
        · exact hobserved
        · split
          · split
            · exact hobserved
            · exact hobserved
          · split
            · next hexit =>
              refine ⟨?_, hobserved.settled, hobserved.honest⟩
              intro other hother
              obtain rfl := Option.some.inj hother
              exact ⟨hknown, hexit⟩
            · exact hobserved

theorem Judged.sendHeartbeat (deadline : Option Nat) :
    (b.sendHeartbeat deadline now).Judged known := by
  cases deadline with
  | none => exact h.requestTermination _
  | some deadlineAt =>
    rw [Bridge.sendHeartbeat]
    split
    · exact h.requestTermination _
    · split
      · exact h.requestTermination _
      · exact h.sendControl _ _

theorem Judged.step (now : Nat) {event : BridgeEvent}
    (hknown : ∀ control, event = .controlLine (.event control) → known control) :
    (bridgeStep cfg b now event).Judged known := by
  cases event with
  | onSpawnAnswered authority =>
    rw [bridgeStep]
    split
    · cases authority with
      | accepted deadlineAt =>
        exact .maybeLaunch (b := { b with
          spawnAnswered := true, launchAuthorityDeadlineAt := _, identityPersisted := true }) h
      | refused => exact .failGate (b := { b with spawnAnswered := true }) h _ _
      | threw => exact .failGate (b := { b with spawnAnswered := true }) h _ _
    · exact h
  | controlLine line =>
    rw [bridgeStep]
    unfold Bridge.controlLine
    split
    · exact h
    · cases line with
      | invalid => exact h.failGate _ _
      | notObject => exact h
      | event control => exact h.handleControlEvent (hknown control rfl)
  | controlTooLarge =>
    rw [bridgeStep]
    split
    · exact h
    · exact .failGate (b := { b with controlProtocolCompromised := true }) h _ _
  | abort errorType =>
    rw [bridgeStep, Bridge.abort]
    split
    · exact h
    · exact .requestTermination (b := { b with
        cancelled := true, cancellationErrorType := errorType }) h _
  | output => rw [bridgeStep]; split <;> exact h
  | watcherStops reason => exact h.requestTermination _
  | startupFires =>
    rw [bridgeStep]
    split
    · exact h
    · exact h.failGate _ _
  | idleFires =>
    have hfired : ({ b with idleTimer := false }).Judged known := h
    rw [bridgeStep]
    split
    · rw [Bridge.idleFires]
      split
      · exact hfired
      · split
        · exact hfired.requestTermination _
        · exact hfired.armIdleTimer
    · exact h
  | heartbeatFires => rw [bridgeStep]; split <;> exact h
  | heartbeatProof proof =>
    rw [bridgeStep]
    split
    · exact .sendHeartbeat (b := { b with heartbeatInFlight := false }) h _
    · exact h
  | fallbackFires =>
    rw [bridgeStep]
    split
    · exact .finishInfrastructureFailure (b := { b with supervisorKilled := true }) h _
    · exact h
  | exitCloseFallbackFires =>
    rw [bridgeStep]
    split
    · exact h.finishFromSupervisor
    · exact h
  | supervisorError => exact h.finishInfrastructureFailure _
  | supervisorExit => rw [bridgeStep]; split <;> exact h
  | supervisorClose =>
    rw [bridgeStep]
    split
    · exact h
    · exact h.finishFromSupervisor
  | stdinError =>
    rw [bridgeStep]
    split
    · exact h
    · exact h.requestTermination _
  | stdinBreaks => exact h

end

end Bridge

/-! ### The system -/

def Effect.event? : Effect → Option ControlEvent
  | .emit event => some event
  | _ => none

structure Supervised where
  bridge : Bridge
  supervisor : Supervisor
  os : Os
  /-- How many control events the bridge has read. -/
  read : Nat
  /-- How many messages have reached the supervisor. -/
  written : Nat

inductive SystemEvent where
  | os (event : OsEvent)
  /-- A callback of the bridge other than the one for the control channel. -/
  | bridge (now : Nat) (event : BridgeEvent)
  | readControl (now : Nat)
  | deliver (answers : Answers)
  /-- A callback of the supervisor other than the one for a line. -/
  | supervisor (answers : Answers) (event : SupervisorEvent)

/-- What the system answers: a probe may fail, and a taken pid starts nothing. -/
def Supervised.answers (s : Supervised) (a : Answers) : Answers :=
  { a with
    group :=
      if a.group = .unknown then .unknown
      else if s.os.hasGroup s.supervisor.payloadPid then .present else .absent
    spawned :=
      match a.spawned with
      | .threw code => .threw code
      | .spawned pid => if s.os.free pid then .spawned pid else .spawned 0 }

def Supervised.payloadEnded (s : Supervised) : Bool :=
  s.os.processes.any fun process => s.os.marked = some process.serial ∧ process.zombie = true

def Supervised.reapPayload (s : Supervised) : Os :=
  match s.os.marked with
  | none => s.os
  | some serial => s.os.remove serial

def Supervised.supervise (cfg : LinkConfig) (s : Supervised) (a : Answers)
    (event : SupervisorEvent) : Supervised :=
  { s with supervisor := supervisorStep cfg.supervisor s.supervisor (s.answers a) event }

/-- A message handler may start the payload. -/
def Supervised.handle (cfg : LinkConfig) (s : Supervised) (a : Answers) : Supervised :=
  let next := s.supervise cfg a .handleNext
  if s.supervisor.payloadPid = 0 ∧ next.supervisor.payloadPid ≠ 0 then
    { next with os := s.os.startMarked next.supervisor.payloadPid }
  else next

def systemStep (cfg : LinkConfig) (s : Supervised) : SystemEvent → Supervised
  | .os event => { s with os := s.os.step event }
  | .bridge now event =>
    match event with
    | .controlLine _ => s
    | event => { s with bridge := bridgeStep cfg.bridge s.bridge now event }
  | .readControl now =>
    match (s.supervisor.effects.filterMap Effect.event?)[s.read]? with
    | none => s
    | some event =>
      { s with
        bridge := bridgeStep cfg.bridge s.bridge now (.controlLine (.event event))
        read := s.read + 1 }
  | .deliver a =>
    match s.bridge.sent[s.written]? with
    | none => s
    | some (message, _) =>
      { s.supervise cfg a (.line (.json (message.json cfg.bridge))) with
        written := s.written + 1 }
  | .supervisor a event =>
    match event with
    | .line _ => s
    | .stdinEnd _ => s.supervise cfg a (.stdinEnd .blank)
    | .handleNext => s.handle cfg a
    | .payloadExit code signal =>
      if s.payloadEnded then
        { s.supervise cfg a (.payloadExit code signal) with os := s.reapPayload }
      else s
    | .payloadClose code signal =>
      if (s.supervisor.payloadPid = 0 ∨ s.supervisor.payloadExited = true) ∧
          s.os.processes.all (fun process => !process.holds) then
        s.supervise cfg a (.payloadClose code signal)
      else s
    | event => s.supervise cfg a event

def Supervised.started (cfg : LinkConfig) : Supervised :=
  ⟨.started cfg.bridge, .started cfg.supervisor, ⟨[], 0, none⟩, 0, 0⟩

/-! ### The supervisor's callbacks -/

/-- The procedure is about to signal the group. -/
def Termination.signals : Termination → Bool
  | .terminating => true
  | .killing => true
  | _ => false

variable {t : Supervisor}

namespace Supervisor

variable {cfg : SupervisorConfig} {a : Answers} {s : Supervisor} {deserted silent : Prop}

theorem framed_act_spawn (s : Supervisor) (message : Json) (now : Nat) :
    (s.spawns message now).signals = s.signals ∧
      s.effects <+: (s.spawns message now).effects := by
  refine ⟨?_, List.prefix_append _ _⟩
  simp [signals, spawns, act, Effect.isSignal]

theorem Sound.withPayload (h : s.Sound deserted silent) (running : s.completed = false)
    (first : s.firstMessageSeen = true) (unlaunched : s.payload = false) (pid now : Nat)
    (deserted' silent' : Prop) : (s.withPayload pid now).Sound deserted' silent' := by
  obtain ⟨hpid, hopen⟩ := h.empty unlaunched
  constructor
  case exits =>
    intro event hevent htype
    have hcompleted := (h.exits event hevent htype).1
    rw [running] at hcompleted
    cases hcompleted
  case closing =>
    intro since hclosing
    have hclosing : s.termination = .closing since := hclosing
    exact absurd hpid (h.flying (by rw [hclosing]; rfl))
  case quiet =>
    intro hclosed
    have hclosed : s.directChildClosed = true := hclosed
    rw [hopen] at hclosed
    cases hclosed
  case fresh =>
    intro hfirst
    have hfirst : s.firstMessageSeen = false := hfirst
    rw [first] at hfirst
    cases hfirst
  case empty => intro hpayload; cases hpayload
  case flying => exact fun hflying => absurd hpid (h.flying hflying)

/-- Without a payload the system does not matter. -/
theorem Sound.unlaunched (h : s.Sound deserted silent) (hpid : s.payloadPid = 0)
    (deserted' silent' : Prop) : s.Sound deserted' silent' := by
  refine ⟨?_, ?_, ?_, h.fresh, h.empty, h.flying⟩
  · intro event hevent htype
    exact ⟨(h.exits event hevent htype).1, fun _ => Or.inl hpid⟩
  · intro since hclosing
    exact absurd hpid (h.flying (by rw [hclosing]; rfl))
  · exact fun _ hne => absurd hpid hne

theorem Sound.startTimers (h : s.Sound deserted silent) (timeoutMs clock : Nat) :
    (s.startTimers timeoutMs clock).Sound deserted silent := by
  rw [Supervisor.startTimers]
  split
  · exact .scheduleWatchdog
      (s := { s with timeoutTimer := 0 < timeoutMs, lastHeartbeatAt := clock }) h
  · exact h

/-- A launch leaves nothing to be known about the system before it. -/
theorem Sound.launchPayload (h : s.Sound deserted silent) (running : s.completed = false)
    (first : s.firstMessageSeen = true) (unlaunched : s.payload = false) (message : Json)
    (deserted' silent' : Prop) : (s.launchPayload cfg a message).Sound deserted' silent' := by
  have hpid := (h.empty unlaunched).1
  have hread : (s.readLaunch cfg message).Sound deserted' silent' :=
    h.unlaunched hpid deserted' silent'
  have hspawns : ((s.readLaunch cfg message).spawns message a.now).Sound deserted' silent' :=
    Sound.act (s := { s.readLaunch cfg message with launchAttempted := true }) hread
      (fun _ heffect => by cases heffect)
  rw [Supervisor.launchPayload]
  split
  · exact hread.complete _ (fun _ => Or.inl hpid)
  · split
    · exact hspawns.spawnFailed hpid _
    · next pid _ =>
      have hstarted :=
        hspawns.withPayload running first unlaunched pid a.now deserted' silent'
      have hannounced : ((((s.readLaunch cfg message).spawns message a.now).withPayload pid
          a.now).announceLaunch cfg pid a.now).Sound deserted' silent' := by
        have htype : (launchedEvent cfg pid a.now).type ≠ "exit" :=
          show "launched" ≠ "exit" by decide
        rw [announceLaunch]
        split
        · exact hstarted.emit htype
        · exact hstarted
      exact hannounced.startTimers _ _

structure Launched (s t : Supervisor) : Prop where
  payloadExited : t.payloadExited = s.payloadExited
  signals : t.signals = s.signals
  grown : s.effects <+: t.effects

theorem Framed.launched (h : Framed s t) : Launched s t :=
  ⟨h.payloadExited, h.signals, h.grown⟩

theorem Launched.trans {u : Supervisor} (h : Launched s t) (h' : Launched t u) : Launched s u :=
  ⟨h'.payloadExited.trans h.payloadExited, h'.signals.trans h.signals, h.grown.trans h'.grown⟩

theorem launched_spawnFailed (s : Supervisor) (code : String) :
    Launched s (s.spawnFailed cfg code) :=
  Launched.trans (t := { s with spawnErrorCode := code }) ⟨rfl, rfl, List.prefix_rfl⟩
    (framed_complete _ _).launched

theorem launched_startTimers (s : Supervisor) (timeoutMs clock : Nat) :
    Launched s (s.startTimers timeoutMs clock) := by
  rw [startTimers]
  split
  · exact .trans (t := { s with timeoutTimer := 0 < timeoutMs, lastHeartbeatAt := clock })
      ⟨rfl, rfl, List.prefix_rfl⟩ (framed_scheduleWatchdog _).launched
  · exact ⟨rfl, rfl, List.prefix_rfl⟩

theorem launched_launchPayload (s : Supervisor) (message : Json) :
    Launched s (s.launchPayload cfg a message) := by
  have hread : Launched s (s.readLaunch cfg message) := ⟨rfl, rfl, List.prefix_rfl⟩
  have hspawns : Launched s ((s.readLaunch cfg message).spawns message a.now) := by
    obtain ⟨hsignals, hgrown⟩ := framed_act_spawn (s.readLaunch cfg message) message a.now
    exact ⟨rfl, hsignals, hgrown⟩
  rw [Supervisor.launchPayload]
  split
  · exact hread.trans (framed_complete _ _).launched
  · split
    · exact hspawns.trans (launched_spawnFailed _ _)
    · next pid _ =>
      have hstarted : Launched s
          (((s.readLaunch cfg message).spawns message a.now).withPayload pid a.now) :=
        ⟨hspawns.payloadExited, hspawns.signals, hspawns.grown⟩
      have hannounced : Launched s
          ((((s.readLaunch cfg message).spawns message a.now).withPayload pid
            a.now).announceLaunch cfg pid a.now) := by
        rw [announceLaunch]
        split
        · exact hstarted.trans (framed_emit _ _).launched
        · exact hstarted
      exact hannounced.trans (launched_startTimers _ _ _)

/-- What is left of a message: nothing was launched, or nothing has to be known any more. -/
structure Handled (deserted silent : Prop) (s t : Supervisor) : Prop where
  launched : Launched s t
  sound : t.payloadPid = s.payloadPid ∧ t.Sound deserted silent ∨
    s.payloadPid = 0 ∧ ∀ deserted' silent' : Prop, t.Sound deserted' silent'

theorem Framed.handled (h : Framed s t) (ht : t.Sound deserted silent) :
    Handled deserted silent s t :=
  ⟨h.launched, Or.inl ⟨h.payloadPid, ht⟩⟩

theorem handled_handleMessage (h : s.Sound deserted silent) (posix : cfg.platform = .posix)
    (line : Line) : Handled deserted silent s (s.handleMessage cfg a line) := by
  have failed : ∀ t : Supervisor, Framed s t → t.Sound deserted silent →
      Handled deserted silent s (t.protocolFailure cfg a).awaited :=
    fun t hframed ht => ((hframed.trans (framed_protocolFailure posix t)).trans
      (framed_awaited _)).handled (ht.protocolFailure posix)
  unfold Supervisor.handleMessage
  split
  · exact (Framed.refl s).handled h
  · next hrunning =>
    have hrunning : s.completed = false := by simpa using hrunning
    split
    · exact (Framed.refl s).handled h
    · exact failed s (.refl s) h
    · next message =>
      split
      · exact failed s (.refl s) h
      · split
        · next hfirst =>
          have hseen : ({ s with firstMessageSeen := true }).Sound deserted silent :=
            ⟨h.exits, h.closing, h.quiet, fun hfalse => (by cases hfalse), h.empty, h.flying⟩
          have hpid := (h.empty (h.fresh hfirst)).1
          split
          · refine ⟨?_, Or.inr ⟨hpid, ?_⟩⟩
            · exact .trans (t := { s with firstMessageSeen := true })
                ⟨rfl, rfl, List.prefix_rfl⟩ (launched_launchPayload _ message)
            · exact hseen.launchPayload hrunning rfl (h.fresh hfirst) message
          · have hfailed :=
              framed_protocolFailure (a := a) posix { s with firstMessageSeen := true }
            refine ⟨⟨?_, ?_, ?_⟩, Or.inl ⟨?_, hseen.protocolFailure posix⟩⟩
            · exact hfailed.payloadExited
            · exact hfailed.signals
            · exact hfailed.grown
            · exact hfailed.payloadPid
        · split
          · exact (framed_onHeartbeat posix s message).handled (h.onHeartbeat posix message)
          · split
            · exact ((framed_requestTermination posix s _).trans (framed_awaited _)).handled
                (h.requestTermination posix _)
            · exact failed s (.refl s) h

/-- Nothing has reached the supervisor but blank lines and the end of its input. -/
def Untold (s : Supervisor) : Prop :=
  s.firstMessageSeen = false ∧ ∀ line, ChainItem.line line ∈ s.messageChain → line = .blank

theorem handled_handleNext (h : s.Sound deserted silent) (posix : cfg.platform = .posix) :
    Handled deserted silent s (s.handleNext cfg a) := by
  rw [Supervisor.handleNext]
  split
  · exact (Framed.refl s).handled h
  · split
    · exact (Framed.refl s).handled h
    · next item rest _ =>
      have hnext : ({ s with messageChain := rest, chainWaits := false }).Sound deserted silent := h
      have hpopped : ∀ t : Supervisor,
          Handled deserted silent { s with messageChain := rest, chainWaits := false } t →
          Handled deserted silent s t :=
        fun t ht => ⟨⟨ht.launched.payloadExited, ht.launched.signals, ht.launched.grown⟩, ht.sound⟩
      dsimp only
      split
      · exact hpopped _ (handled_handleMessage hnext posix _)
      · refine hpopped _ ?_
        split
        · exact (Framed.refl _).handled hnext
        · split
          · next hpid =>
            exact (framed_complete _ _).handled (hnext.complete _ (fun _ => Or.inl hpid))
          · exact ((framed_requestTermination posix _ _).trans (framed_awaited _)).handled
              (hnext.requestTermination posix _)

theorem Untold.handleNext (h : s.Untold) (posix : cfg.platform = .posix) :
    (s.handleNext cfg a).Untold := by
  have framed : ∀ t u : Supervisor, Framed t u → t.Untold → u.Untold := by
    intro t u hframed ht
    rw [Untold, hframed.firstMessageSeen, hframed.messageChain]
    exact ht
  rw [Supervisor.handleNext]
  split
  · exact h
  · split
    · exact h
    · next item rest hchain =>
      have hrest : ({ s with messageChain := rest, chainWaits := false }).Untold := by
        refine ⟨h.1, ?_⟩
        intro line hline
        exact h.2 line (hchain ▸ mem_cons_of_mem item hline)
      dsimp only
      split
      · next line =>
        obtain rfl := h.2 line (hchain ▸ mem_cons_self)
        unfold Supervisor.handleMessage
        split <;> exact hrest
      · split
        · exact hrest
        · split
          · exact framed _ _ (framed_complete _ _) hrest
          · exact framed _ _ ((framed_requestTermination posix _ _).trans (framed_awaited _)) hrest

/-- What every step of the procedure leaves alone. -/
structure Kept (s t : Supervisor) : Prop where
  payloadPid : t.payloadPid = s.payloadPid
  payloadExited : t.payloadExited = s.payloadExited
  firstMessageSeen : t.firstMessageSeen = s.firstMessageSeen
  messageChain : t.messageChain = s.messageChain
  grown : s.effects <+: t.effects

theorem Framed.kept (h : Framed s t) : Kept s t :=
  ⟨h.payloadPid, h.payloadExited, h.firstMessageSeen, h.messageChain, h.grown⟩

theorem kept_signalProcessGroup (s : Supervisor) (signal : Signal) (termination : Termination) :
    Kept s { s.signalProcessGroup a signal with termination := termination } := by
  rw [signalProcessGroup]
  split
  · rw [killPayload]
    split
    · exact ⟨rfl, rfl, rfl, rfl, List.prefix_rfl⟩
    · exact ⟨rfl, rfl, rfl, rfl, List.prefix_append _ _⟩
  · exact ⟨rfl, rfl, rfl, rfl, List.prefix_append _ _⟩

theorem framed_terminatePosix (h : s.termination.signals = false) :
    Framed s (s.terminatePosix cfg a) := by
  have moved : ∀ termination, Framed s { s with termination := termination } :=
    fun _ => .flags rfl rfl rfl rfl rfl rfl
  unfold terminatePosix
  split
  · split <;> exact moved _
  · next hphase =>
    rw [hphase] at h
    cases h
  · split
    · exact moved _
    · split
      · exact moved _
      · exact .refl s
  · next hphase =>
    rw [hphase] at h
    cases h
  · split
    · exact moved _
    · split
      · exact framed_unconfirmed s _
      · exact .refl s
  · split
    · exact framed_contained s _ _
    · split
      · exact framed_unconfirmed s _
      · exact .refl s
  · exact .refl s

theorem kept_terminatePosix (cfg : SupervisorConfig) (a : Answers) (s : Supervisor) :
    Kept s (s.terminatePosix cfg a) := by
  cases hphase : s.termination.signals with
  | false => exact (framed_terminatePosix hphase).kept
  | true =>
    cases htermination : s.termination with
    | terminating =>
      rw [terminatePosix]
      simp only [htermination]
      exact kept_signalProcessGroup s _ _
    | killing =>
      rw [terminatePosix]
      simp only [htermination]
      exact kept_signalProcessGroup s _ _
    | none | probing | termGrace | killConfirm | closing | taskkill | exitWait | pause
    | stdioWait | lateClose | snapshot | descendants | lastClose | settled =>
      rw [htermination] at hphase
      cases hphase

theorem signals_signalProcessGroup (s : Supervisor) (signal : Signal) (termination : Termination) :
    ({ s.signalProcessGroup a signal with termination := termination }).signals =
      s.signals ++
        if a.killRefused then (if s.payloadExited then [] else [.killPayload signal])
        else [.killGroup s.payloadPid signal] := by
  rw [signalProcessGroup, killPayload]
  split
  · split <;> simp [Supervisor.signals, act, Effect.isSignal]
  · simp [Supervisor.signals, act, Effect.isSignal]

theorem signals_terminatePosix (h : s.termination.signals = true) : ∃ signal,
    (s.terminatePosix cfg a).signals =
      s.signals ++
        if a.killRefused then (if s.payloadExited then [] else [.killPayload signal])
        else [.killGroup s.payloadPid signal] := by
  cases htermination : s.termination with
  | terminating =>
    rw [terminatePosix]
    simp only [htermination]
    exact ⟨.sigterm, signals_signalProcessGroup s _ _⟩
  | killing =>
    rw [terminatePosix]
    simp only [htermination]
    exact ⟨.sigkill, signals_signalProcessGroup s _ _⟩
  | none | probing | termGrace | killConfirm | closing | taskkill | exitWait | pause
  | stdioWait | lateClose | snapshot | descendants | lastClose | settled =>
    rw [htermination] at h
    cases h

/-- What the report of an exit or a close leaves alone. -/
structure Reported (s t : Supervisor) : Prop where
  payloadPid : t.payloadPid = s.payloadPid
  payloadExited : t.payloadExited = true
  firstMessageSeen : t.firstMessageSeen = s.firstMessageSeen
  messageChain : t.messageChain = s.messageChain
  signals : t.signals = s.signals
  grown : s.effects <+: t.effects

theorem reported_recordPayloadExit (s : Supervisor) (code : Option Int) (signal : String) :
    Reported s (s.recordPayloadExit a code signal) := by
  rw [recordPayloadExit]
  split
  · next hdone => exact ⟨rfl, hdone, rfl, rfl, rfl, List.prefix_rfl⟩
  · exact ⟨rfl, rfl, rfl, rfl, rfl, List.prefix_rfl⟩

theorem Reported.framed {u : Supervisor} (h : Reported s t) (h' : Framed t u) : Reported s u where
  payloadPid := h'.payloadPid.trans h.payloadPid
  payloadExited := h'.payloadExited.trans h.payloadExited
  firstMessageSeen := h'.firstMessageSeen.trans h.firstMessageSeen
  messageChain := h'.messageChain.trans h.messageChain
  signals := h'.signals.trans h.signals
  grown := h.grown.trans h'.grown

theorem reported_onPayloadExit (s : Supervisor) (code : Option Int) (signal : String) :
    Reported s (s.onPayloadExit a code signal) :=
  (reported_recordPayloadExit s code signal).framed (framed_scheduleExitCloseCheck _)

theorem reported_onPayloadClose (posix : cfg.platform = .posix) (s : Supervisor)
    (code : Option Int) (signal : String) :
    Reported s (s.onPayloadClose cfg a code signal) := by
  have hrecorded : Reported s
      ({ s with directChildClosed := true }.recordPayloadExit a code signal) := by
    obtain ⟨hpid, hexited, hfirst, hchain, hsignals, hgrown⟩ :=
      reported_recordPayloadExit (a := a) { s with directChildClosed := true } code signal
    exact ⟨hpid, hexited, hfirst, hchain, hsignals, hgrown⟩
  refine hrecorded.framed ?_
  rw [onPayloadClose]
  generalize { s with directChildClosed := true }.recordPayloadExit a code signal = t
  have hcleared : Framed t t.clearRuntimeTimers := .flags rfl rfl rfl rfl rfl rfl
  split
  · exact .refl t
  · rw [posix]
    dsimp only
    split
    · exact hcleared.trans (framed_complete _ _)
    · exact hcleared.trans (framed_requestTermination posix _ _)

end Supervisor

/-! ### The claims of the verdicts and of the signals -/

/-- A result that reports the payload as gone is true. -/
def TrueVerdict (s : Supervised) : Prop :=
  ∀ r, s.bridge.result = some r → r.processTreeUnconfirmed = false →
    s.os.marked = none ∨ s.os.Deserted ∧ s.os.Silent

/-- Whom a signal reaches: the group that the payload made, or the payload. -/
def OwnTarget (os : Os) : Effect → Prop
  | .killGroup pid _ => os.Unshared pid
  | .killPayload _ => ∃ process ∈ os.processes, os.marked = some process.serial
  | .taskkill _ => False
  | .terminate _ => False
  | .emit _ => True
  | .spawn _ _ => True

/-- After the step a verdict is true, and the signals that the step sends reach nobody else. -/
structure HonestStep (cfg : LinkConfig) (s : Supervised) (event : SystemEvent) : Prop where
  verdict : TrueVerdict (systemStep cfg s event)
  signals : ∀ sent, (systemStep cfg s event).supervisor.signals = s.supervisor.signals ++ sent →
    ∀ effect ∈ sent, OwnTarget s.os effect

/-- No other group carries the payload's id when its group is signalled. -/
def NotReused (s : Supervised) : SystemEvent → Prop
  | .supervisor a .resume => s.supervisor.termination.signals = true → a.killRefused = false →
      s.os.Unshared s.supervisor.payloadPid
  | _ => True

/-! ### The invariant -/

structure SystemOk (cfg : LinkConfig) (s : Supervised) : Prop where
  informed : ∃ seen, Bridge.Informed cfg.bridge seen s.bridge
  judged : s.bridge.Judged fun event => Effect.emit event ∈ s.supervisor.effects
  sound : s.supervisor.Sound s.os.Deserted s.os.Silent
  os : s.os.Ok s.supervisor.payloadPid
  marked : s.os.marked = none ↔ s.supervisor.payloadPid = 0
  present : s.supervisor.payloadPid ≠ 0 → s.supervisor.payloadExited = false →
    ∃ process ∈ s.os.processes, s.os.marked = some process.serial
  untold : s.written = 0 → s.supervisor.Untold
  written : s.written ≤ s.bridge.sent.length

variable {cfg : LinkConfig} {s : Supervised}

/-- Nothing was launched, or a known exit event tells the truth. -/
theorem SystemOk.verdict (h : SystemOk cfg s) : TrueVerdict s := by
  intro r hr hconfirmed
  rcases h.judged.honest r hr hconfirmed with hunsent | ⟨event, hevent, hexit, herror⟩
  · obtain ⟨seen, hinformed⟩ := h.informed
    have hempty : s.bridge.sent = [] := hinformed.unsent hunsent
    have hnone : s.written = 0 := by
      have := h.written
      rw [hempty, length_nil] at this
      omega
    have hpid := (h.sound.empty (h.sound.fresh (h.untold hnone).1)).1
    exact Or.inl (h.marked.mpr hpid)
  · exact ((h.sound.exits event hevent hexit).2 herror).imp h.marked.mpr id

theorem SystemOk.withSupervisor (h : SystemOk cfg s)
    (payloadPid : t.payloadPid = s.supervisor.payloadPid)
    (exited : t.payloadExited = false → s.supervisor.payloadExited = false)
    (untold : s.supervisor.Untold → t.Untold) (grown : s.supervisor.effects <+: t.effects)
    (sound : t.Sound s.os.Deserted s.os.Silent) : SystemOk cfg { s with supervisor := t } where
  informed := h.informed
  judged := h.judged.mono fun _ hevent => grown.subset hevent
  sound := sound
  os := by rw [payloadPid]; exact h.os
  marked := by rw [payloadPid]; exact h.marked
  present hpid hexited := h.present (payloadPid ▸ hpid) (exited hexited)
  untold hnone := untold (h.untold hnone)
  written := h.written

theorem SystemOk.framed (h : SystemOk cfg s) (hframed : Supervisor.Framed s.supervisor t)
    (sound : t.Sound s.os.Deserted s.os.Silent) : SystemOk cfg { s with supervisor := t } := by
  refine h.withSupervisor hframed.payloadPid ?_ ?_ hframed.grown sound
  · exact fun hexited => hframed.payloadExited ▸ hexited
  · intro huntold
    rw [Supervisor.Untold, hframed.firstMessageSeen, hframed.messageChain]
    exact huntold

theorem SystemOk.withBridge (h : SystemOk cfg s) (now : Nat) {event : BridgeEvent}
    (known : ∀ control, event = .controlLine (.event control) →
      Effect.emit control ∈ s.supervisor.effects) (read : Nat) :
    SystemOk cfg { s with bridge := bridgeStep cfg.bridge s.bridge now event, read := read } := by
  obtain ⟨seen, hinformed⟩ := h.informed
  refine ⟨⟨_, hinformed.step now event⟩, h.judged.step now known, h.sound, h.os, h.marked,
    h.present, h.untold, ?_⟩
  have hgrown : s.bridge.sent.length ≤ (bridgeStep cfg.bridge s.bridge now event).sent.length := by
    obtain ⟨c, hprepared, hmild | hlaunches⟩ :=
      Bridge.bridgeStep_spec cfg.bridge now event hinformed.beats
    · rw [← hprepared.sent]
      rcases hmild.sent with hsent | ⟨_, message, _, hsent, _⟩
      · rw [hsent]
      · rw [hsent, length_append]
        omega
    · rw [hlaunches.sent, hprepared.sent, length_append]
      omega
  exact Nat.le_trans h.written hgrown

theorem SystemOk.probe (h : SystemOk cfg s) {a : Answers}
    (habsent : (s.answers a).group = .absent) : s.os.Deserted := by
  apply h.os.deserted
  simp only [Supervised.answers] at habsent
  split at habsent
  · cases habsent
  · split at habsent
    · cases habsent
    · next hgroup => simpa using hgroup

theorem mem_emit {effects : List Effect} {index : Nat} {event : ControlEvent}
    (h : (effects.filterMap Effect.event?)[index]? = some event) : Effect.emit event ∈ effects := by
  obtain ⟨effect, heffect, hevent⟩ := mem_filterMap.mp (mem_of_getElem? h)
  cases effect with
  | emit other => exact Option.some.inj hevent ▸ heffect
  | spawn | killGroup | killPayload | taskkill | terminate => cases hevent

theorem SystemOk.os_step (h : SystemOk cfg s) (event : OsEvent) :
    SystemOk cfg { s with os := s.os.step event } := by
  have hmarked := s.os.step_marked event
  refine ⟨h.informed, h.judged, ?_, h.os.step event, ?_, ?_, h.untold, h.written⟩
  · refine ⟨?_, ?_, ?_, h.sound.fresh, h.sound.empty, h.sound.flying⟩
    · intro control hcontrol htype
      obtain ⟨hcompleted, htrue⟩ := h.sound.exits control hcontrol htype
      refine ⟨hcompleted, fun herror => (htrue herror).imp id ?_⟩
      exact fun hgone => ⟨hgone.1.step h.os event, hgone.2.step event⟩
    · exact fun since hclosing => (h.sound.closing since hclosing).step h.os event
    · exact fun hclosed hpid => (h.sound.quiet hclosed hpid).step event
  · show (s.os.step event).marked = none ↔ _
    rw [hmarked]
    exact h.marked
  · exact fun hpid hexited => Os.exists_marked_step event (h.present hpid hexited)

theorem SystemOk.reported (h : SystemOk cfg s) (hreported : Supervisor.Reported s.supervisor t)
    (sound : t.Sound s.os.Deserted s.os.Silent) : SystemOk cfg { s with supervisor := t } := by
  refine h.withSupervisor hreported.payloadPid ?_ ?_ hreported.grown sound
  · intro hexited
    rw [hreported.payloadExited] at hexited
    cases hexited
  · intro huntold
    rw [Supervisor.Untold, hreported.firstMessageSeen, hreported.messageChain]
    exact huntold

/-- After its exit has been reported the payload may be reaped. -/
theorem SystemOk.reap (h : SystemOk cfg s) (exited : s.supervisor.payloadExited = true)
    (serial : Nat) : SystemOk cfg { s with os := s.os.remove serial } := by
  refine ⟨h.informed, h.judged, ?_, h.os.remove, h.marked, ?_, h.untold, h.written⟩
  · refine ⟨?_, ?_, ?_, h.sound.fresh, h.sound.empty, h.sound.flying⟩
    · intro control hcontrol htype
      obtain ⟨hcompleted, htrue⟩ := h.sound.exits control hcontrol htype
      exact ⟨hcompleted, fun herror =>
        (htrue herror).imp id fun hgone => ⟨hgone.1.remove, hgone.2.remove⟩⟩
    · exact fun since hclosing => (h.sound.closing since hclosing).remove
    · exact fun hclosed hne => (h.sound.quiet hclosed hne).remove
  · intro _ hrunning
    rw [exited] at hrunning
    cases hrunning

theorem SystemOk.payloadExit (h : SystemOk cfg s) {a : Answers} (ended : s.payloadEnded = true)
    (code : Option Int) (signal : String) :
    SystemOk cfg
      { s.supervise cfg a (.payloadExit code signal) with os := s.reapPayload } := by
  obtain ⟨process, _, hended⟩ := any_eq_true.mp ended
  have hmarked : s.os.marked = some process.serial := (of_decide_eq_true hended).1
  have hpid : s.supervisor.payloadPid ≠ 0 := by
    intro hzero
    rw [h.marked.mpr hzero] at hmarked
    cases hmarked
  have hpayload : s.supervisor.payload = true := by
    cases hpayload : s.supervisor.payload with
    | true => rfl
    | false => exact absurd (h.sound.empty hpayload).1 hpid
  have hreap : s.reapPayload = s.os.remove process.serial := by
    rw [Supervised.reapPayload, hmarked]
  rw [hreap]
  have hreported : SystemOk cfg (s.supervise cfg a (.payloadExit code signal)) ∧
      (s.supervise cfg a (.payloadExit code signal)).supervisor.payloadExited = true := by
    rw [Supervised.supervise, supervisorStep]
    split
    · have hexit := Supervisor.reported_onPayloadExit (a := s.answers a) s.supervisor code signal
      have hsound := (h.sound.recordPayloadExit (a := s.answers a) code
        signal).scheduleExitCloseCheck
      exact ⟨h.reported hexit hsound, hexit.payloadExited⟩
    · next hdone =>
      refine ⟨h, ?_⟩
      by_contra hrunning
      exact hdone ⟨hpayload, hpid, by simpa using hrunning⟩
  exact hreported.1.reap hreported.2 process.serial

theorem SystemOk.payloadClose (h : SystemOk cfg s) (posix : cfg.supervisor.platform = .posix)
    {a : Answers} (silent : s.os.Silent) (code : Option Int) (signal : String) :
    SystemOk cfg (s.supervise cfg a (.payloadClose code signal)) := by
  rw [Supervised.supervise, supervisorStep]
  split
  · next hopen =>
    exact h.reported (Supervisor.reported_onPayloadClose posix s.supervisor code signal)
      (h.sound.onPayloadClose posix hopen.1 (fun habsent _ => h.probe habsent) (fun _ => silent)
        code signal)
  · exact h

/-- A message handler starts a payload under a free pid, or nothing. -/
theorem SystemOk.handle (h : SystemOk cfg s) (posix : cfg.supervisor.platform = .posix)
    (a : Answers) : SystemOk cfg (s.handle cfg a) := by
  have hhandled := Supervisor.handled_handleNext (a := s.answers a) h.sound posix
  have huntold : s.written = 0 → (s.supervisor.handleNext cfg.supervisor (s.answers a)).Untold :=
    fun hnone => (h.untold hnone).handleNext posix
  have hjudged := h.judged.mono fun _ hevent => hhandled.launched.grown.subset hevent
  rw [Supervised.handle]
  split
  · next hstarted =>
    rcases hhandled.sound with ⟨hsame, _⟩ | ⟨_, hsound⟩
    · exact absurd (hsame.trans hstarted.1) hstarted.2
    · refine ⟨h.informed, hjudged, hsound _ _, h.os.startMarked, ?_, ?_, huntold, h.written⟩
      · exact ⟨fun hnone => (by cases hnone), fun hzero => absurd hzero hstarted.2⟩
      · exact fun _ _ => s.os.exists_marked_startMarked _
  · next hsame =>
    have hpid : (s.supervisor.handleNext cfg.supervisor (s.answers a)).payloadPid =
        s.supervisor.payloadPid := by
      rcases hhandled.sound with ⟨hpid, _⟩ | ⟨hzero, _⟩
      · exact hpid
      · by_contra hne
        exact hsame ⟨hzero, fun hnext => hne (hnext.trans hzero.symm)⟩
    have hsound : (s.supervisor.handleNext cfg.supervisor (s.answers a)).Sound s.os.Deserted
        s.os.Silent := by
      rcases hhandled.sound with ⟨_, hsound⟩ | ⟨_, hsound⟩
      · exact hsound
      · exact hsound _ _
    refine ⟨h.informed, hjudged, hsound, ?_, ?_, ?_, huntold, h.written⟩
    · exact hpid ▸ h.os
    · exact hpid ▸ h.marked
    · intro hne hexited
      exact h.present (hpid ▸ hne) (hhandled.launched.payloadExited ▸ hexited)

def SupervisorEvent.framed : SupervisorEvent → Bool
  | .line _ => false
  | .stdinEnd _ => false
  | .handleNext => false
  | .payloadExit _ _ => false
  | .payloadClose _ _ => false
  | .resume => false
  | _ => true

theorem framed_supervisorStep (h : SystemOk cfg s) (posix : cfg.supervisor.platform = .posix)
    (a : Answers) (event : SupervisorEvent) (hframed : event.framed = true) :
    Supervisor.Framed s.supervisor (supervisorStep cfg.supervisor s.supervisor a event) ∧
      (supervisorStep cfg.supervisor s.supervisor a event).Sound s.os.Deserted s.os.Silent := by
  have unchanged := Supervisor.Framed.refl s.supervisor
  have requested : ∀ reason,
      Supervisor.Framed s.supervisor (s.supervisor.requestTermination cfg.supervisor a reason) ∧
      (s.supervisor.requestTermination cfg.supervisor a reason).Sound s.os.Deserted s.os.Silent :=
    fun reason => ⟨Supervisor.framed_requestTermination posix _ _,
      h.sound.requestTermination posix reason⟩
  cases event with
  | line | stdinEnd | handleNext | payloadExit | payloadClose | resume => cases hframed
  | lineTooLarge =>
    exact ⟨Supervisor.framed_protocolFailure posix _, h.sound.protocolFailure posix⟩
  | stdinError =>
    rw [supervisorStep]
    split
    · exact ⟨unchanged, h.sound⟩
    · exact requested _
  | signal => exact requested _
  | timeoutFires =>
    rw [supervisorStep]
    split
    · have hfired : Supervisor.Framed s.supervisor
          { s.supervisor with timeoutTimer := false } :=
        Supervisor.Framed.flags rfl rfl rfl rfl rfl rfl
      exact ⟨hfired.trans (Supervisor.framed_requestTermination posix _ _),
        Supervisor.Sound.requestTermination
          (s := { s.supervisor with timeoutTimer := false }) h.sound posix _⟩
    · exact ⟨unchanged, h.sound⟩
  | watchdogFires =>
    rw [supervisorStep]
    split
    · exact ⟨Supervisor.framed_watchdogFires posix _, h.sound.watchdogFires posix⟩
    · exact ⟨unchanged, h.sound⟩
  | exitCloseFires =>
    rw [supervisorStep]
    split
    · exact ⟨Supervisor.framed_exitCloseFires posix _, h.sound.exitCloseFires posix⟩
    · exact ⟨unchanged, h.sound⟩
  | payloadOutput => exact ⟨Supervisor.Framed.flags rfl rfl rfl rfl rfl rfl, h.sound⟩
  | channelError channel =>
    rw [supervisorStep]
    split
    · exact ⟨unchanged, h.sound⟩
    · exact requested _
  | payloadError code =>
    rw [supervisorStep]
    split
    · exact ⟨Supervisor.framed_onPayloadError _ _, h.sound.onPayloadError code⟩
    · exact ⟨unchanged, h.sound⟩
  | controlCloses => exact ⟨Supervisor.Framed.flags rfl rfl rfl rfl rfl rfl, h.sound⟩

theorem silent_of_all {os : Os} (h : os.processes.all (fun process => !process.holds) = true) :
    os.Silent := by
  intro process hprocess
  simpa using all_eq_true.mp h process hprocess

theorem SystemOk.resume (h : SystemOk cfg s) (posix : cfg.supervisor.platform = .posix)
    (a : Answers) : SystemOk cfg (s.supervise cfg a .resume) := by
  rw [Supervised.supervise, supervisorStep]
  simp only [posix]
  have hkept := Supervisor.kept_terminatePosix cfg.supervisor (s.answers a) s.supervisor
  refine h.withSupervisor hkept.payloadPid (fun hexited => hkept.payloadExited ▸ hexited) ?_
    hkept.grown (h.sound.terminatePosix fun habsent _ => h.probe habsent)
  intro huntold
  rw [Supervisor.Untold, hkept.firstMessageSeen, hkept.messageChain]
  exact huntold

theorem SystemOk.stdinEnd (h : SystemOk cfg s) (a : Answers) :
    SystemOk cfg (s.supervise cfg a (.stdinEnd .blank)) := by
  rw [Supervised.supervise, supervisorStep]
  split
  · exact h
  · refine h.withSupervisor rfl id ?_ List.prefix_rfl h.sound
    rintro ⟨hfirst, hchain⟩
    refine ⟨hfirst, ?_⟩
    intro line hline
    rcases mem_append.mp hline with hline | hline
    · exact hchain line hline
    · simpa using hline

theorem SystemOk.deliver (h : SystemOk cfg s) (a : Answers) (message : BridgeMessage)
    (written : s.written < s.bridge.sent.length) :
    SystemOk cfg
      { s.supervise cfg a (.line (.json (message.json cfg.bridge))) with
        written := s.written + 1 } := by
  rw [Supervised.supervise, supervisorStep]
  split
  · exact ⟨h.informed, h.judged, h.sound, h.os, h.marked, h.present,
      fun hnone => absurd hnone (Nat.succ_ne_zero _), written⟩
  · exact ⟨h.informed, h.judged, h.sound, h.os, h.marked, h.present,
      fun hnone => absurd hnone (Nat.succ_ne_zero _), written⟩

section

variable (posix : cfg.supervisor.platform = .posix)

include posix

theorem systemOk_step (h : SystemOk cfg s) (event : SystemEvent) :
    SystemOk cfg (systemStep cfg s event) := by
  cases event with
  | os event => exact h.os_step event
  | bridge now event =>
    cases event with
    | controlLine line => exact h
    | onSpawnAnswered | controlTooLarge | abort | output | watcherStops | startupFires
    | idleFires | heartbeatFires | heartbeatProof | fallbackFires | exitCloseFallbackFires
    | supervisorError | supervisorExit | supervisorClose | stdinError | stdinBreaks =>
      refine h.withBridge now ?_ s.read
      intro control hcontrol
      cases hcontrol
  | readControl now =>
    rw [systemStep]
    split
    · exact h
    · next event hevent =>
      refine h.withBridge now ?_ (s.read + 1)
      intro control hcontrol
      obtain rfl := ControlLine.event.inj (BridgeEvent.controlLine.inj hcontrol)
      exact mem_emit hevent
  | deliver a =>
    rw [systemStep]
    split
    · exact h
    · next message moment hsent =>
      exact h.deliver a message (List.getElem?_eq_some_iff.mp hsent).1
  | supervisor a event =>
    cases event with
    | line line => exact h
    | stdinEnd rest => exact h.stdinEnd a
    | handleNext => exact h.handle posix a
    | resume => exact h.resume posix a
    | payloadExit code signal =>
      rw [systemStep]
      split
      · next hended => exact h.payloadExit hended code signal
      · exact h
    | payloadClose code signal =>
      rw [systemStep]
      split
      · next hsilent => exact h.payloadClose posix (silent_of_all hsilent.2) code signal
      · exact h
    | lineTooLarge | stdinError | signal | timeoutFires | watchdogFires | exitCloseFires
    | payloadOutput | channelError | payloadError | controlCloses =>
      exact h.framed (framed_supervisorStep h posix (s.answers a) _ (by rfl)).1
        (framed_supervisorStep h posix (s.answers a) _ (by rfl)).2

theorem signals_systemStep (h : SystemOk cfg s) {event : SystemEvent}
    (hresume : ∀ a, event ≠ .supervisor a .resume) :
    (systemStep cfg s event).supervisor.signals = s.supervisor.signals := by
  cases event with
  | os event => rfl
  | bridge now event => cases event <;> rfl
  | readControl now => rw [systemStep]; split <;> rfl
  | deliver a =>
    rw [systemStep]
    split
    · rfl
    · rw [Supervised.supervise, supervisorStep]
      split <;> rfl
  | supervisor a event =>
    cases event with
    | line line => rfl
    | stdinEnd rest =>
      rw [systemStep, Supervised.supervise, supervisorStep]
      split <;> rfl
    | handleNext =>
      have hhandled := Supervisor.handled_handleNext (a := s.answers a) h.sound posix
      rw [systemStep, Supervised.handle]
      split <;> exact hhandled.launched.signals
    | resume => exact absurd rfl (hresume a)
    | payloadExit code signal =>
      rw [systemStep]
      split
      · rw [Supervised.supervise, supervisorStep]
        split
        · exact (Supervisor.reported_onPayloadExit s.supervisor code signal).signals
        · rfl
      · rfl
    | payloadClose code signal =>
      rw [systemStep]
      split
      · rw [Supervised.supervise, supervisorStep]
        split
        · exact (Supervisor.reported_onPayloadClose posix s.supervisor code signal).signals
        · rfl
      · rfl
    | lineTooLarge | stdinError | signal | timeoutFires | watchdogFires | exitCloseFires
    | payloadOutput | channelError | payloadError | controlCloses =>
      exact (framed_supervisorStep h posix (s.answers a) _ (by rfl)).1.signals

/-- The signals of the procedure reach the payload's group unless its id is reused. -/
theorem resume_signals_iff (h : SystemOk cfg s) (a : Answers) :
    (∀ sent, (systemStep cfg s (.supervisor a .resume)).supervisor.signals =
        s.supervisor.signals ++ sent → ∀ effect ∈ sent, OwnTarget s.os effect) ↔
      NotReused s (.supervisor a .resume) := by
  have hstep : (systemStep cfg s (.supervisor a .resume)).supervisor =
      s.supervisor.terminatePosix cfg.supervisor (s.answers a) := by
    simp only [systemStep, Supervised.supervise, supervisorStep, posix]
  rw [hstep]
  cases hphase : s.supervisor.termination.signals with
  | false =>
    have hsignals :=
      (@Supervisor.framed_terminatePosix cfg.supervisor (s.answers a) _ hphase).signals
    constructor
    · intro _ hsignalling
      rw [hphase] at hsignalling
      cases hsignalling
    · intro _ sent hsent effect heffect
      rw [hsignals, self_eq_append_right] at hsent
      rw [hsent] at heffect
      cases heffect
  | true =>
    obtain ⟨signal, hsignals⟩ := @Supervisor.signals_terminatePosix cfg.supervisor
      (s.answers a) _ hphase
    have hpid : s.supervisor.payloadPid ≠ 0 := by
      refine h.sound.flying ?_
      cases hterm : s.supervisor.termination <;> simp_all [Termination.signals,
        Termination.inFlight]
    constructor
    · intro honest _ hallowed
      have hgroup := honest _ hsignals (.killGroup s.supervisor.payloadPid signal) (by
        simp [Supervised.answers, hallowed])
      exact hgroup
    · intro unshared sent hsent effect heffect
      rw [hsignals, append_cancel_left_eq] at hsent
      rw [← hsent] at heffect
      cases hrefused : a.killRefused with
      | false =>
        simp only [Supervised.answers, hrefused, Bool.false_eq_true, if_false,
          mem_singleton] at heffect
        rw [heffect]
        exact unshared hphase hrefused
      | true =>
        simp only [Supervised.answers, hrefused, if_true] at heffect
        split at heffect
        · cases heffect
        · next hrunning =>
          rw [mem_singleton.mp heffect]
          exact h.present hpid (by simpa using hrunning)

theorem honestStep_iff (h : SystemOk cfg s) (event : SystemEvent) :
    HonestStep cfg s event ↔ NotReused s event := by
  have hverdict : TrueVerdict (systemStep cfg s event) := (systemOk_step posix h event).verdict
  by_cases hresume : ∃ a, event = .supervisor a .resume
  · obtain ⟨a, rfl⟩ := hresume
    rw [← resume_signals_iff posix h a]
    exact ⟨fun honest => honest.signals, fun signals => ⟨hverdict, signals⟩⟩
  · have hother : ∀ a, event ≠ .supervisor a .resume := fun a heq => hresume ⟨a, heq⟩
    have hnot : NotReused s event := by
      cases event with
      | supervisor a event =>
        cases event with
        | resume => exact absurd rfl (hother a)
        | line | lineTooLarge | stdinEnd | stdinError | handleNext | signal | timeoutFires
        | watchdogFires | exitCloseFires | payloadOutput | channelError | payloadError
        | payloadExit | payloadClose | controlCloses => trivial
      | os | bridge | readControl | deliver => trivial
    refine ⟨fun _ => hnot, fun _ => ⟨hverdict, ?_⟩⟩
    intro sent hsent effect heffect
    rw [signals_systemStep posix h hother, self_eq_append_right] at hsent
    rw [hsent] at heffect
    cases heffect

end

theorem started_untouched (cfg : SupervisorConfig) :
    (Supervisor.started cfg).payloadPid = 0 ∧ (Supervisor.started cfg).Untold := by
  have hnew : ∀ s t : Supervisor, Supervisor.Framed s t → s.payloadPid = 0 → s.Untold →
      t.payloadPid = 0 ∧ t.Untold := by
    intro s t hframed hpid huntold
    refine ⟨hframed.payloadPid.trans hpid, ?_⟩
    rw [Supervisor.Untold, hframed.firstMessageSeen, hframed.messageChain]
    exact huntold
  rw [Supervisor.started]
  split
  · exact hnew _ _ (Supervisor.framed_emit _ _) rfl ⟨rfl, nofun⟩
  · exact hnew _ _ ((Supervisor.framed_emit _ _).trans (Supervisor.framed_complete _ _)) rfl
      ⟨rfl, nofun⟩

theorem sound_started (cfg : SupervisorConfig) (deserted silent : Prop) :
    (Supervisor.started cfg).Sound deserted silent := by
  have hnew : ∀ s : Supervisor, s.effects = [] → s.payload = false → s.payloadPid = 0 →
      s.directChildClosed = false → s.termination = .none → s.Sound deserted silent := by
    intro s heffects hpayload hpid hclosed htermination
    unfold Supervisor.Sound
    rw [heffects, hpayload, hpid, hclosed, htermination]
    constructor <;> simp [Termination.inFlight]
  rw [Supervisor.started]
  split
  · exact (hnew _ rfl rfl rfl rfl rfl).emit (show "ready" ≠ "exit" by decide)
  · refine .complete ((hnew _ rfl rfl rfl rfl rfl).emit
      (show "protocol_error" ≠ "exit" by decide)) _ ?_
    exact fun _ => Or.inl ((Supervisor.framed_emit _ _).payloadPid.trans rfl)

theorem judged_started (cfg : CommandConfig) (known : ControlEvent → Prop) :
    (Bridge.started cfg).Judged known where
  event _ hevent := by cases hevent
  settled _ hr := by cases hr
  honest _ _ _ := Or.inl rfl

theorem systemOk_started (cfg : LinkConfig) : SystemOk cfg (.started cfg) := by
  obtain ⟨hpid, huntold⟩ := started_untouched cfg.supervisor
  have hos : (⟨[], 0, none⟩ : Os).Ok (Supervisor.started cfg.supervisor).payloadPid := by
    constructor <;> simp
  exact
    { informed := ⟨[], Bridge.informed_started cfg.bridge⟩
      judged := judged_started cfg.bridge _
      sound := sound_started cfg.supervisor _ _
      os := hos
      marked := ⟨fun _ => hpid, fun _ => rfl⟩
      present := fun hne => absurd hpid hne
      untold := fun _ => huntold
      written := Nat.zero_le _ }

theorem systemOk_run (cfg : LinkConfig) (posix : cfg.supervisor.platform = .posix)
    (events : List SystemEvent) : SystemOk cfg (run (systemStep cfg) (.started cfg) events) := by
  have initial : SystemOk cfg (.started cfg) := systemOk_started cfg
  have preserved : ∀ s event, SystemOk cfg s → SystemOk cfg (systemStep cfg s event) :=
    fun _ event h => systemOk_step posix h event
  exact run_preserves preserved initial events

/-- On POSIX the verdicts are true and no signal goes astray, exactly in the runs in which the
id of the payload's group is not carried by another group when the group is signalled. -/
theorem containment_is_honest_iff (cfg : LinkConfig) (posix : cfg.supervisor.platform = .posix)
    (events : List SystemEvent) :
    Along (systemStep cfg) (HonestStep cfg) (.started cfg) events ↔
      Along (systemStep cfg) NotReused (.started cfg) events := by
  have initial : SystemOk cfg (.started cfg) := systemOk_started cfg
  have preserved : ∀ s event, SystemOk cfg s → SystemOk cfg (systemStep cfg s event) :=
    fun _ event h => systemOk_step posix h event
  have agree : ∀ s event, SystemOk cfg s → (HonestStep cfg s event ↔ NotReused s event) :=
    fun _ event h => honestStep_iff posix h event
  exact along_congr_of_invariant preserved agree initial events

/-! ### Concrete runs -/

/-- The payload, with pid 7, starts another process and exits. -/
def launchedRun : List SystemEvent :=
  [.bridge 10 (.onSpawnAnswered (.accepted (some 90))),
    .readControl 11,
    .deliver (answersAt 12 .present),
    .supervisor (answersAt 13 .present) .handleNext,
    .os (.fork 0 8),
    .os (.exits 0),
    .supervisor (answersAt 14 .present) (.payloadExit (some 0) "")]

/-- The other process keeps the output open from the payload's group. -/
def lingeringRun : List SystemEvent :=
  launchedRun ++
    [.supervisor (answersAt 3000 .present) .exitCloseFires,
      .supervisor (answersAt 3001 .present) .resume,
      .supervisor (answersAt 3002 .present) .resume]

theorem containment_is_honest_iff_of_lingering :
    (Along (systemStep plainLink) (HonestStep plainLink) (.started plainLink) lingeringRun ↔
      Along (systemStep plainLink) NotReused (.started plainLink) lingeringRun) ∧
      (run (systemStep plainLink) (.started plainLink)
        lingeringRun).supervisor.signals.length = 1 :=
  ⟨containment_is_honest_iff plainLink rfl lingeringRun, by decide +kernel⟩

/-- The other process leaves the group, and pid 7 is given to a process that has nothing to do
with the payload. -/
def reusedRun : List SystemEvent :=
  launchedRun ++
    [.os (.makeGroup 1),
      .os (.startOther 7),
      .supervisor (answersAt 3000 .present) .exitCloseFires,
      .supervisor (answersAt 3001 .present) .resume]

theorem reused_group_is_signalled :
    ¬ Along (systemStep plainLink) (HonestStep plainLink) (.started plainLink)
      (reusedRun ++ [.supervisor (answersAt 3002 .present) .resume]) := by
  intro h
  have hok : SystemOk plainLink (run (systemStep plainLink) (.started plainLink) reusedRun) :=
    systemOk_run plainLink rfl reusedRun
  have honest := ((along_append _ reusedRun _).mp h).2.1
  have hown := (honestStep_iff rfl hok _).mp honest (by decide +kernel) rfl
  have hshared : (run (systemStep plainLink) (.started plainLink) reusedRun).os.processes.any
      (fun process => process.group.id =
          (run (systemStep plainLink) (.started plainLink) reusedRun).supervisor.payloadPid ∧
        (run (systemStep plainLink) (.started plainLink) reusedRun).os.marked ≠
          some process.group.maker) = true := by decide +kernel
  obtain ⟨process, hprocess, hgroup⟩ := any_eq_true.mp hshared
  rw [decide_eq_true_iff] at hgroup
  exact hgroup.2 (hown process hprocess hgroup.1)

end AgentBridge.Supervision
