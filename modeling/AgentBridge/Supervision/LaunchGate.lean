import AgentBridge.Supervision.Bridge
import AgentBridge.Supervision.SupervisorSafety

/-!
# The launch gate

The bridge and its supervisor, joined by the control channels. Either side may be given
any line at any moment, so a run covers every order of delivery, and lines that the other
side never wrote.

A step of the bridge prepares, and then does nothing about the launch or sends it:
`bridgeStep_spec` says this once, and the history of the gate rests on it.
-/

namespace AgentBridge.Supervision

open Systems

/-! ### What a step of the bridge does -/

/-- The event is a `ready` with the right identity and pid. -/
def BridgeEvent.IsReady (cfg : CommandConfig) (event : BridgeEvent) : Prop :=
  ∃ ready, event = .controlLine (.event ready) ∧ ready.type = "ready" ∧
    ready.supervisorIdentity.toLower = cfg.supervisorIdentity ∧
    Bridge.readyMatches cfg ready = true

/-- `onSpawn` has persisted the identity. -/
def BridgeEvent.IsAccepted (event : BridgeEvent) : Prop :=
  ∃ deadlineAt, event = .onSpawnAnswered (.accepted deadlineAt)

namespace Bridge

variable {cfg : CommandConfig} {b c d : Bridge} {now : Nat} {event : BridgeEvent}

/-- A heartbeat may be sent. -/
def Beats (b : Bridge) : Prop := b.heartbeatTimer = true ∨ b.heartbeatInFlight = true

/-- Flags that the launch does not depend on, but what the event reports. -/
structure Prepared (cfg : CommandConfig) (event : BridgeEvent) (b c : Bridge) : Prop where
  sent : c.sent = b.sent
  launchSent : c.launchSent = b.launchSent
  terminationRequested : c.terminationRequested = b.terminationRequested
  beats : c.Beats → b.Beats
  ready : c.supervisorReady = true → b.supervisorReady = true ∨ event.IsReady cfg
  persisted : c.identityPersisted = true → b.identityPersisted = true ∨ event.IsAccepted

/-- Nothing about the launch; after it, a message may be sent. -/
structure Mild (b c : Bridge) : Prop where
  ready : c.supervisorReady = b.supervisorReady
  persisted : c.identityPersisted = b.identityPersisted
  launchSent : c.launchSent = b.launchSent
  beats : c.Beats → b.Beats
  sent : c.sent = b.sent ∨ b.launchSent = true ∧
    ∃ message now, c.sent = b.sent ++ [(message, now)] ∧ message.isLaunch = false

/-- The launch, through an open gate and before its deadline. -/
structure Launches (cfg : CommandConfig) (now : Nat) (b c : Bridge) : Prop where
  gate : b.gateOpen = true
  timely : now < b.launchDeadline cfg now
  sent : c.sent = b.sent ++ [(.launch (b.launchDeadline cfg now), now)]
  launchSent : c.launchSent = true
  ready : c.supervisorReady = b.supervisorReady
  persisted : c.identityPersisted = b.identityPersisted

theorem Prepared.refl (cfg : CommandConfig) (event : BridgeEvent) (b : Bridge) :
    Prepared cfg event b b :=
  ⟨rfl, rfl, rfl, id, Or.inl, Or.inl⟩

theorem Mild.refl (b : Bridge) : Mild b b := ⟨rfl, rfl, rfl, id, Or.inl rfl⟩

/-- Other flags may change before. -/
theorem Mild.after (h : Mild c d) (ready : c.supervisorReady = b.supervisorReady)
    (persisted : c.identityPersisted = b.identityPersisted)
    (launchSent : c.launchSent = b.launchSent) (beats : c.Beats → b.Beats)
    (sent : c.sent = b.sent) : Mild b d where
  ready := h.ready.trans ready
  persisted := h.persisted.trans persisted
  launchSent := h.launchSent.trans launchSent
  beats := fun hbeats => beats (h.beats hbeats)
  sent := launchSent ▸ sent ▸ h.sent

theorem mild_finish (b : Bridge) (result : RunResult) : Mild b (b.finish result) := by
  have stopped : ∀ c : Bridge, c.heartbeatTimer = false →
      c.heartbeatInFlight = b.heartbeatInFlight → c.Beats → b.Beats := by
    intro c htimer hflight hbeats
    rw [Beats, htimer, hflight] at hbeats
    exact Or.inr (hbeats.resolve_left (by decide))
  rw [finish]
  split
  · exact .refl b
  · exact ⟨rfl, rfl, rfl, stopped _ rfl rfl, Or.inl rfl⟩

theorem mild_sendControl (launched : b.launchSent = true) {message : BridgeMessage}
    (hmessage : message.isLaunch = false) (now : Nat) : Mild b (b.sendControl message now) := by
  rw [sendControl]
  split
  · exact ⟨rfl, rfl, rfl, id, Or.inr ⟨launched, message, now, rfl, hmessage⟩⟩
  · exact .refl b

theorem mild_requestTermination (b : Bridge) (reason : String) (now : Nat) :
    Mild b (b.requestTermination reason now) := by
  rw [requestTermination]
  split
  · exact .refl b
  · split
    · exact ⟨rfl, rfl, rfl, id, Or.inl rfl⟩
    · next hlaunched =>
      have hlaunched : (b.noteReason reason).launchSent = true := by
        by_contra hnot
        exact hlaunched (Or.inl (by simpa [noteReason] using hnot))
      have hmessage : (BridgeMessage.terminate reason).isLaunch = false := rfl
      exact (mild_sendControl hlaunched hmessage now).after rfl rfl rfl id rfl

theorem mild_failGate (b : Bridge) (failureType reason : String) (now : Nat) :
    Mild b (b.failGate failureType reason now) :=
  (mild_requestTermination { b with gateFailureType := failureType } reason now).after rfl rfl rfl
    id rfl

theorem mild_armIdleTimer (b : Bridge) : Mild b (b.armIdleTimer cfg) := by
  rw [armIdleTimer]
  split <;> exact ⟨rfl, rfl, rfl, id, Or.inl rfl⟩

theorem mild_finishFromSupervisor (b : Bridge) : Mild b b.finishFromSupervisor := by
  unfold finishFromSupervisor
  split
  · rw [finishFromControlExit]
    split <;> exact mild_finish b _
  · exact mild_finish b _

theorem maybeLaunch_spec (cfg : CommandConfig) (now : Nat) (b : Bridge) :
    Mild b (b.maybeLaunch cfg now) ∨ Launches cfg now b (b.maybeLaunch cfg now) := by
  rw [maybeLaunch]
  split
  · exact Or.inl (.refl b)
  · next hgate =>
    split
    · exact Or.inl (mild_failGate b _ _ now)
    · next htimely =>
      split
      · exact Or.inl (mild_finish b _)
      · next hsend =>
        refine Or.inr ⟨by simpa using hgate, by omega, ?_, ?_, ?_, ?_⟩
        · rw [launch, armIdleTimer]
          split <;> simp [sendControl, hsend]
        all_goals rw [launch, armIdleTimer]; split <;> simp [sendControl, hsend]

def StepSpec (cfg : CommandConfig) (now : Nat) (event : BridgeEvent) (b d : Bridge) : Prop :=
  ∃ c, Prepared cfg event b c ∧ (Mild c d ∨ Launches cfg now c d)

theorem StepSpec.mild (h : Mild b d) : StepSpec cfg now event b d :=
  ⟨b, .refl cfg event b, Or.inl h⟩

theorem mild_observePid (control : ControlEvent) (b : Bridge) : Mild b (b.observePid control) := by
  rw [observePid]
  split <;> exact ⟨rfl, rfl, rfl, id, Or.inl rfl⟩

theorem mild_onExitEvent (control : ControlEvent) (b : Bridge) :
    Mild b ((b.observePid control).onExitEvent control) := by
  have stopped : ∀ c : Bridge, c.heartbeatTimer = false →
      c.heartbeatInFlight = b.heartbeatInFlight → c.Beats → b.Beats := by
    intro c htimer hflight hbeats
    rw [Beats, htimer, hflight] at hbeats
    exact Or.inr (hbeats.resolve_left (by decide))
  rw [observePid, onExitEvent]
  split <;> exact ⟨rfl, rfl, rfl, stopped _ rfl rfl, Or.inl rfl⟩

theorem handleControlEvent_spec (cfg : CommandConfig) (control : ControlEvent) (now : Nat)
    (b : Bridge) :
    StepSpec cfg now (.controlLine (.event control)) b (b.handleControlEvent cfg control now) := by
  have observed := mild_observePid control b
  have prepared : Prepared cfg (.controlLine (.event control)) b (b.observePid control) := by
    rw [observePid]
    split <;> exact ⟨rfl, rfl, rfl, id, Or.inl, Or.inl⟩
  rw [handleControlEvent]
  split
  · exact .mild (.refl b)
  · split
    · exact .mild (mild_failGate b _ _ now)
    · next hidentity =>
      split
      · next hready =>
        split
        · next hmatches =>
          have hisReady : BridgeEvent.IsReady cfg (.controlLine (.event control)) :=
            ⟨control, rfl, hready, not_not.mp hidentity, hmatches⟩
          refine ⟨_, ?_, maybeLaunch_spec cfg now _⟩
          rw [observePid]
          split <;> exact ⟨rfl, rfl, rfl, id, fun _ => Or.inr hisReady, Or.inl⟩
        · exact ⟨_, prepared, Or.inl (mild_failGate _ _ _ now)⟩
      · split
        · exact ⟨_, prepared, Or.inl ⟨rfl, rfl, rfl, id, Or.inl rfl⟩⟩
        · split
          · split
            · exact ⟨_, prepared, Or.inl ⟨rfl, rfl, rfl, id, Or.inl rfl⟩⟩
            · exact .mild observed
          · split
            · exact .mild (mild_onExitEvent control b)
            · exact .mild observed

theorem mild_sendHeartbeat (launched : b.launchSent = true) (deadline : Option Nat) (now : Nat) :
    Mild b (b.sendHeartbeat deadline now) := by
  cases deadline with
  | none => exact mild_requestTermination b _ now
  | some deadlineAt =>
    rw [sendHeartbeat]
    split
    · exact mild_requestTermination b _ now
    · split
      · exact mild_requestTermination b _ now
      · have hmessage : (BridgeMessage.heartbeat deadlineAt).isLaunch = false := rfl
        exact mild_sendControl launched hmessage now

theorem heartbeatProof_spec (cfg : CommandConfig) (proof : HeartbeatProof) (now : Nat)
    (launched : b.launchSent = true) :
    StepSpec cfg now event b (b.heartbeatProof cfg proof now) := by
  have hprepared : Prepared cfg event b { b with heartbeatInFlight := false } :=
    ⟨rfl, rfl, rfl, fun hbeats => Or.inl (hbeats.resolve_right (by simp)), Or.inl, Or.inl⟩
  have hlaunched : { b with heartbeatInFlight := false }.launchSent = true := launched
  exact ⟨_, hprepared, Or.inl (mild_sendHeartbeat hlaunched _ now)⟩

theorem bridgeStep_spec (cfg : CommandConfig) {b : Bridge} (now : Nat) (event : BridgeEvent)
    (beating : b.Beats → b.launchSent = true) :
    StepSpec cfg now event b (bridgeStep cfg b now event) := by
  cases event with
  | onSpawnAnswered authority =>
    rw [bridgeStep]
    split
    · cases authority with
      | accepted deadlineAt =>
        refine ⟨_, ?_, maybeLaunch_spec cfg now _⟩
        exact ⟨rfl, rfl, rfl, id, Or.inl, fun _ => Or.inr ⟨deadlineAt, rfl⟩⟩
      | refused => exact .mild ((mild_failGate _ _ _ now).after rfl rfl rfl id rfl)
      | threw => exact .mild ((mild_failGate _ _ _ now).after rfl rfl rfl id rfl)
    · exact .mild (.refl b)
  | controlLine line =>
    rw [bridgeStep]
    unfold Bridge.controlLine
    split
    · exact .mild (.refl b)
    · cases line with
      | invalid => exact .mild (mild_failGate b _ _ now)
      | notObject => exact .mild (.refl b)
      | event control => exact handleControlEvent_spec cfg control now b
  | controlTooLarge =>
    rw [bridgeStep]
    split
    · exact .mild (.refl b)
    · exact .mild ((mild_failGate _ _ _ now).after rfl rfl rfl id rfl)
  | abort errorType =>
    rw [bridgeStep, abort]
    split
    · exact .mild (.refl b)
    · exact .mild ((mild_requestTermination _ _ now).after rfl rfl rfl id rfl)
  | output =>
    rw [bridgeStep]
    split <;> exact .mild ⟨rfl, rfl, rfl, id, Or.inl rfl⟩
  | watcherStops reason => exact .mild (mild_requestTermination b reason now)
  | startupFires =>
    rw [bridgeStep]
    split
    · exact .mild (.refl b)
    · exact .mild (mild_failGate b _ _ now)
  | idleFires =>
    rw [bridgeStep]
    split
    · rw [Bridge.idleFires]
      split
      · exact .mild ⟨rfl, rfl, rfl, id, Or.inl rfl⟩
      · split
        · exact .mild ((mild_requestTermination _ _ now).after rfl rfl rfl id rfl)
        · exact .mild ((mild_armIdleTimer _).after rfl rfl rfl id rfl)
    · exact .mild (.refl b)
  | heartbeatFires =>
    rw [bridgeStep]
    split
    · exact .mild (.refl b)
    · next htimer =>
      have htimer : b.heartbeatTimer = true := by
        by_contra hoff
        exact htimer (Or.inl (by simpa using hoff))
      exact .mild ⟨rfl, rfl, rfl, fun _ => Or.inl htimer, Or.inl rfl⟩
  | heartbeatProof proof =>
    rw [bridgeStep]
    split
    · next hflight => exact heartbeatProof_spec cfg proof now (beating (Or.inr hflight))
    · exact .mild (.refl b)
  | fallbackFires =>
    rw [bridgeStep]
    split
    · exact .mild ((mild_finish _ _).after rfl rfl rfl id rfl)
    · exact .mild (.refl b)
  | exitCloseFallbackFires =>
    rw [bridgeStep]
    split
    · exact .mild (mild_finishFromSupervisor b)
    · exact .mild (.refl b)
  | supervisorError => exact .mild (mild_finish b _)
  | supervisorExit =>
    rw [bridgeStep]
    split <;> exact .mild ⟨rfl, rfl, rfl, id, Or.inl rfl⟩
  | supervisorClose =>
    rw [bridgeStep]
    split
    · exact .mild (.refl b)
    · exact .mild (mild_finishFromSupervisor b)
  | stdinError =>
    rw [bridgeStep]
    split
    · exact .mild (.refl b)
    · exact .mild (mild_requestTermination b _ now)
  | stdinBreaks => exact .mild ⟨rfl, rfl, rfl, id, Or.inl rfl⟩

/-! ### The history of the gate -/

/-- What the flags of the gate say about the events so far. -/
structure Informed (cfg : CommandConfig) (seen : List BridgeEvent) (b : Bridge) : Prop where
  ready : b.supervisorReady = true → ∃ event ∈ seen, event.IsReady cfg
  persisted : b.identityPersisted = true → cfg.onSpawn = true → ∃ event ∈ seen, event.IsAccepted
  unsent : b.launchSent = false → b.sent = []
  once : b.sent.countP (·.1.isLaunch) ≤ 1
  beats : b.Beats → b.launchSent = true

theorem informed_started (cfg : CommandConfig) : Informed cfg [] (Bridge.started cfg) where
  ready h := by cases h
  persisted h hspawn := by
    have h : (!cfg.onSpawn) = true := h
    rw [hspawn] at h
    cases h
  unsent _ := rfl
  once := Nat.zero_le 1
  beats h := by rcases h with h | h <;> cases h

variable {seen : List BridgeEvent}

theorem exists_append {P : BridgeEvent → Prop} (h : (∃ other ∈ seen, P other) ∨ P event) :
    ∃ other ∈ seen ++ [event], P other := by
  rcases h with ⟨other, hother, hP⟩ | hP
  · exact ⟨other, List.mem_append_left _ hother, hP⟩
  · exact ⟨event, by simp, hP⟩

theorem Informed.prepared (h : Informed cfg seen b) (hprepared : Prepared cfg event b c) :
    Informed cfg (seen ++ [event]) c where
  ready hready := exists_append ((hprepared.ready hready).imp_left h.ready)
  persisted hpersisted hspawn :=
    exists_append ((hprepared.persisted hpersisted).imp_left fun hb => h.persisted hb hspawn)
  unsent hunsent := hprepared.sent ▸ h.unsent (hprepared.launchSent ▸ hunsent)
  once := hprepared.sent ▸ h.once
  beats hbeats := hprepared.launchSent ▸ h.beats (hprepared.beats hbeats)

theorem Informed.mild (h : Informed cfg seen c) (hmild : Mild c d) : Informed cfg seen d where
  ready hready := h.ready (hmild.ready ▸ hready)
  persisted hpersisted := h.persisted (hmild.persisted ▸ hpersisted)
  unsent hunsent := by
    rw [hmild.launchSent] at hunsent
    rcases hmild.sent with hsent | ⟨hlaunched, _⟩
    · exact hsent ▸ h.unsent hunsent
    · rw [hunsent] at hlaunched
      cases hlaunched
  once := by
    rcases hmild.sent with hsent | ⟨_, message, now, hsent, hmessage⟩
    · exact hsent ▸ h.once
    · rw [hsent, List.countP_append]
      simpa [hmessage] using h.once
  beats hbeats := hmild.launchSent ▸ h.beats (hmild.beats hbeats)

theorem Launches.unlaunched (h : Launches cfg now c d) : c.launchSent = false := by
  have hgate := h.gate
  simp only [gateOpen, Bool.and_eq_true, Bool.not_eq_true'] at hgate
  exact hgate.1.1.1.1.2

theorem Informed.launches (h : Informed cfg seen c) (hlaunches : Launches cfg now c d) :
    Informed cfg seen d where
  ready hready := h.ready (hlaunches.ready ▸ hready)
  persisted hpersisted := h.persisted (hlaunches.persisted ▸ hpersisted)
  unsent hunsent := by
    rw [hlaunches.launchSent] at hunsent
    cases hunsent
  once := by
    rw [hlaunches.sent, h.unsent hlaunches.unlaunched]
    simp [BridgeMessage.isLaunch]
  beats _ := hlaunches.launchSent

theorem Informed.step (h : Informed cfg seen b) (now : Nat) (event : BridgeEvent) :
    Informed cfg (seen ++ [event]) (bridgeStep cfg b now event) := by
  obtain ⟨c, hprepared, hmild | hlaunches⟩ := bridgeStep_spec cfg now event h.beats
  · exact (h.prepared hprepared).mild hmild
  · exact (h.prepared hprepared).launches hlaunches

theorem Informed.launch_step (h : Informed cfg seen b) {moment : Nat} {deadline : Nat}
    (hsent : (bridgeStep cfg b now event).sent = b.sent ++ [(.launch deadline, moment)]) :
    (∃ other ∈ seen ++ [event], other.IsReady cfg) ∧
      (cfg.onSpawn = true → ∃ other ∈ seen ++ [event], other.IsAccepted) ∧
      moment = now ∧ now < deadline ∧ b.terminationRequested = false := by
  obtain ⟨c, hprepared, hmild | hlaunches⟩ := bridgeStep_spec cfg now event h.beats
  · rcases hmild.sent with hsame | ⟨_, message, _, hother, hmessage⟩
    · rw [hsame, hprepared.sent] at hsent
      simp at hsent
    · rw [hother, hprepared.sent] at hsent
      have hlast := List.append_cancel_left hsent
      simp only [List.cons.injEq, Prod.mk.injEq, and_true] at hlast
      rw [hlast.1] at hmessage
      cases hmessage
  · have hinformed := h.prepared hprepared
    have hgate := hlaunches.gate
    simp only [gateOpen, Bool.and_eq_true, Bool.not_eq_true'] at hgate
    obtain ⟨⟨⟨⟨_, hrequested⟩, _⟩, hready⟩, hpersisted⟩ := hgate
    rw [hlaunches.sent, hprepared.sent] at hsent
    have hlast := List.append_cancel_left hsent
    simp only [List.cons.injEq, Prod.mk.injEq, BridgeMessage.launch.injEq, and_true] at hlast
    refine ⟨hinformed.ready hready, hinformed.persisted hpersisted, hlast.2.symm, ?_, ?_⟩
    · exact hlast.1 ▸ hlaunches.timely
    · exact hprepared.terminationRequested ▸ hrequested

end Bridge

/-! ### Both sides -/

structure LinkConfig where
  bridge : CommandConfig
  supervisor : SupervisorConfig

/-- The two sides, with the events of the bridge so far. -/
structure Link where
  bridge : Bridge
  supervisor : Supervisor
  seen : List BridgeEvent

inductive LinkEvent where
  | bridge (now : Nat) (event : BridgeEvent)
  | supervisor (answers : Answers) (event : SupervisorEvent)

def linkStep (cfg : LinkConfig) (s : Link) : LinkEvent → Link
  | .bridge now event =>
    { s with bridge := bridgeStep cfg.bridge s.bridge now event, seen := s.seen ++ [event] }
  | .supervisor a event =>
    { s with supervisor := supervisorStep cfg.supervisor s.supervisor a event }

def Link.started (cfg : LinkConfig) : Link :=
  ⟨.started cfg.bridge, .started cfg.supervisor, []⟩

/-- The launch message goes out at its time, after a `ready` with the right identity and pid
and a persisted identity, before its deadline and before a request to terminate. -/
def LaunchAllowed (cfg : LinkConfig) (s : Link) (deadline moment : Nat) (event : LinkEvent) :
    Prop :=
  ∃ own, event = .bridge moment own ∧ (∃ other ∈ s.seen ++ [own], other.IsReady cfg.bridge) ∧
    (cfg.bridge.onSpawn = true → ∃ other ∈ s.seen ++ [own], other.IsAccepted) ∧
    moment < deadline ∧ s.bridge.terminationRequested = false

structure Gated (cfg : LinkConfig) (s : Link) (event : LinkEvent) : Prop where
  launch : ∀ deadline moment,
    (linkStep cfg s event).bridge.sent = s.bridge.sent ++ [(.launch deadline, moment)] →
      LaunchAllowed cfg s deadline moment event
  launchOnce : (linkStep cfg s event).bridge.sent.countP (·.1.isLaunch) ≤ 1
  spawnOnce : (linkStep cfg s event).supervisor.effects.countP Effect.isSpawn ≤ 1
  spawnInTime : ∀ message now,
    Effect.spawn message now ∈ (linkStep cfg s event).supervisor.effects →
      let deadline := (launchDeadlineAt cfg.supervisor.js message).getD 0
      deadline = 0 ∨ now < deadline
  /-- An exit event is the last effect. -/
  exitLast : ∀ effect ∈ (linkStep cfg s event).supervisor.effects.dropLast, effect.isExit = false

/-- A termination that is requested after the exit event finds the group absent. -/
def HarmlessLink (cfg : LinkConfig) (s : Link) : LinkEvent → Prop
  | .bridge _ _ => True
  | .supervisor a event => Harmless cfg.supervisor s.supervisor a event

structure LinkOk (cfg : LinkConfig) (s : Link) : Prop where
  bridge : Bridge.Informed cfg.bridge s.seen s.bridge
  supervisor : s.supervisor.Ok cfg.supervisor

theorem linkOk_step {cfg : LinkConfig} {s : Link} (h : LinkOk cfg s) {event : LinkEvent}
    (harmless : HarmlessLink cfg s event) : LinkOk cfg (linkStep cfg s event) := by
  cases event with
  | bridge now event => exact ⟨h.bridge.step now event, h.supervisor⟩
  | supervisor a event => exact ⟨h.bridge, ok_supervisorStep h.supervisor harmless⟩

theorem gated_step {cfg : LinkConfig} {s : Link} (h : LinkOk cfg s) {event : LinkEvent}
    (harmless : HarmlessLink cfg s event) : Gated cfg s event := by
  have hnext := linkOk_step h harmless
  constructor
  case launch =>
    intro deadline moment hsent
    cases event with
    | bridge now event =>
      obtain ⟨hready, hpersisted, rfl, htimely, hrequested⟩ := h.bridge.launch_step hsent
      exact ⟨event, rfl, hready, hpersisted, htimely, hrequested⟩
    | supervisor a event => simp [linkStep] at hsent
  case launchOnce => exact hnext.bridge.once
  case spawnOnce => exact hnext.supervisor.once
  case spawnInTime =>
    intro message now hspawned
    have htimely := hnext.supervisor.timely message now hspawned
    simp only [launchAuthorityExpired, Bool.and_eq_false_iff, decide_eq_false_iff_not] at htimely
    omega
  case exitLast => exact hnext.supervisor.last

/-- The launch gate, in every run in which what is left of a payload that has closed by
itself cannot be found again. -/
theorem launch_is_gated (cfg : LinkConfig) (events : List LinkEvent)
    (harmless : Along (linkStep cfg) (HarmlessLink cfg) (.started cfg) events) :
    Along (linkStep cfg) (Gated cfg) (.started cfg) events := by
  have initial : LinkOk cfg (.started cfg) :=
    ⟨Bridge.informed_started cfg.bridge, ok_started cfg.supervisor⟩
  have preserved : ∀ s event, LinkOk cfg s → HarmlessLink cfg s event →
      LinkOk cfg (linkStep cfg s event) := fun _ _ h hevent => linkOk_step h hevent
  exact .of_invariant preserved (fun _ _ h hevent => gated_step h hevent) initial harmless

/-! ### Concrete runs -/

/-! ### After the end -/

namespace Bridge

variable {cfg : CommandConfig} {b : Bridge} {now : Nat}

theorem requestTermination_of_settled (h : b.settled = true) (reason : String) :
    b.requestTermination reason now = b :=
  if_pos (.inl h)

theorem sendHeartbeat_of_settled (h : b.settled = true) (deadline : Option Nat) :
    b.sendHeartbeat deadline now = b := by
  cases deadline <;> simp [sendHeartbeat, canSend, requestTermination_of_settled, h]

theorem maybeLaunch_of_settled (h : b.settled = true) : b.maybeLaunch cfg now = b :=
  if_pos (by rw [gateOpen, h]; rfl)

theorem finishFromSupervisor_of_settled (h : b.settled = true) : b.finishFromSupervisor = b := by
  cases hevent : b.controlExitEvent <;>
    simp [finishFromSupervisor, finishFromControlExit, finishInfrastructureFailure, finish, h,
      hevent]

/-- Nothing but flags has changed since the run settled. -/
structure Ended (b c : Bridge) : Prop where
  settled : c.settled = true
  result : c.result = b.result
  sent : c.sent = b.sent

/-- Every callback asks `settled` before it ends the run, sends or launches. -/
theorem ended_step (h : b.settled = true) (now : Nat) (event : BridgeEvent) :
    Ended b (bridgeStep cfg b now event) := by
  have same : Ended b b := ⟨h, rfl, rfl⟩
  cases event with
  | onSpawnAnswered authority =>
    rw [bridgeStep]
    split
    · cases authority <;>
        simp only [onSpawnAnswered, failGate, h, maybeLaunch_of_settled,
          requestTermination_of_settled] <;>
        exact ⟨rfl, rfl, rfl⟩
    · exact same
  | heartbeatProof proof =>
    rw [bridgeStep]
    split
    · simp only [Bridge.heartbeatProof, h, sendHeartbeat_of_settled]
      exact ⟨rfl, rfl, rfl⟩
    · exact same
  | idleFires =>
    rw [bridgeStep, Bridge.idleFires]
    split
    · simp only [h, true_or, if_true]
      exact ⟨rfl, rfl, rfl⟩
    · exact same
  | fallbackFires =>
    rw [bridgeStep]
    split
    · simp only [finishInfrastructureFailure, finish, h, if_true]
      exact ⟨rfl, rfl, rfl⟩
    · exact same
  | stdinBreaks => exact ⟨h, rfl, rfl⟩
  | _ =>
    simpa only [bridgeStep, controlLine, Bridge.abort, h, true_or, or_true, if_true, ite_self,
      requestTermination_of_settled, finishInfrastructureFailure, finish,
      finishFromSupervisor_of_settled] using same

end Bridge

/-- A run has one result: whatever comes later leaves it alone and writes nothing to the
supervisor. -/
theorem result_is_final (cfg : CommandConfig) {b : Bridge} (settled : b.settled = true)
    (later : List (Nat × BridgeEvent)) :
    b.Ended (run (fun b moment => bridgeStep cfg b moment.1 moment.2) b later) := by
  refine run_preserves (fun c moment hc => ?_) ⟨settled, rfl, rfl⟩ later
  have hnext : c.Ended (bridgeStep cfg c moment.1 moment.2) := Bridge.ended_step hc.settled _ _
  exact ⟨hnext.settled, hnext.result.trans hc.result, hnext.sent.trans hc.sent⟩

/-- Decimal numerals and strings. -/
def plainConversions : Conversions where
  number
    | .number literal =>
      some (literal.toList.foldl (fun value c => 10 * value + (c.toNat - 48)) 0 : Nat)
    | _ => none
  text
    | .string value => value
    | _ => ""

def plainLink : LinkConfig where
  bridge :=
    { command := "run"
      args := []
      cwd := "/"
      env := []
      timeoutMs := 0
      idleTimeoutMs := 0
      onSpawn := true
      supervisorIdentity := "a5"
      supervisorPid := 4
      supervisorWatchdogMs := 100 }
  supervisor :=
    { platform := .posix
      supervisorIdentity := "a5"
      identityValid := true
      processId := 4
      js := plainConversions }

/-- What the system answers at a time, a child with pid 7 and a state of its group. -/
def answersAt (now : Nat) (group : GroupState) : Answers where
  now := now
  clock := now
  spawned := .spawned 7
  group := group
  killRefused := false
  backpressured := false
  taskkill := none
  snapshot := none
  descendantsKilled := none

/-- The supervisor cannot be spawned; it closes and the caller aborts afterwards. -/
theorem result_is_final_of_spawn_error :
    let b := bridgeStep plainLink.bridge (.started plainLink.bridge) 5 .supervisorError
    b.Ended (run (fun b moment => bridgeStep plainLink.bridge b moment.1 moment.2) b
      [(6, .supervisorClose), (7, .abort "aborted")]) := by
  intro b
  have hsettled : b.settled = true := by decide
  exact result_is_final plainLink.bridge hsettled _

/-- A payload that closes by itself. -/
def plainRun : List LinkEvent :=
  [.bridge 10 (.onSpawnAnswered (.accepted (some 90))),
    .bridge 11 (.controlLine (.event
      { ControlEvent.plain "ready" "a5" with protocolVersion := some 1, supervisorPid := some 4 })),
    .supervisor (answersAt 12 .present)
      (.line (.json (BridgeMessage.json plainLink.bridge (.launch 90)))),
    .supervisor (answersAt 13 .present) .handleNext,
    .supervisor (answersAt 14 .present) (.payloadExit (some 0) ""),
    .supervisor (answersAt 15 .absent) (.payloadClose (some 0) "")]

theorem launch_is_gated_of_plain :
    Along (linkStep plainLink) (Gated plainLink) (.started plainLink) plainRun :=
  launch_is_gated plainLink plainRun ⟨trivial, trivial, trivial, trivial, trivial, trivial, trivial⟩

/-- A signal reaches the supervisor after the exit event, and another group has the id of the
payload's by now. -/
theorem late_signal_is_passed_on :
    ¬ Along (linkStep plainLink) (Gated plainLink) (.started plainLink)
      (plainRun ++
        [.supervisor (answersAt 16 .present) .signal, .supervisor (answersAt 17 .present) .resume,
          .supervisor (answersAt 18 .present) .resume]) := by
  intro h
  have hlast := ((along_append _ plainRun _).mp h).2.2.2.1.exitLast
  have hexit : ((run (linkStep plainLink) (.started plainLink)
      (plainRun ++
        [.supervisor (answersAt 16 .present) .signal, .supervisor (answersAt 17 .present) .resume,
          .supervisor (answersAt 18 .present) .resume])).supervisor.effects.dropLast.any
        Effect.isExit) = true := by decide
  rw [List.any_eq_true] at hexit
  obtain ⟨effect, heffect, hisExit⟩ := hexit
  have hnot := hlast effect (by simpa using heffect)
  rw [hisExit] at hnot
  cases hnot

end AgentBridge.Supervision
