import AgentBridge.Systems.Run
import AgentBridge.Workers.Files

/-!
# One owner of a queue

The invariant of the presence protocol: the text of a file names the generation it was
created for, a claim that is not retired remembers an inode of its own generation, and
what a process read inside its transition still holds when it acts on it. A step of a
process outside the transition changes only texts and what that process knows, so
nobody else has to look again.
-/

namespace AgentBridge.Workers

open Systems

/-! ### What the protocol promises -/

/-- The process still has the claim of the generation. -/
def Claimed (s : WorkersState) (p : Worker) (generation : String) : Prop :=
  ∃ claim, s.identity p = some claim ∧ claim.generation = generation

/-- The target is the generation that the process claimed. -/
def TargetOf (p : Worker) (generation : String) (target : StopTarget) : Prop :=
  target.generation = some generation ∧ target.instanceId = p.instanceId ∧ target.pid = p.pid

/-- The step from `s` to `s'` may have the effect. -/
def EffectSound (s s' : WorkersState) : WorkerEffect → Prop
  | .refreshed p generation =>
    Claimed s' p generation ∧ ∃ ino, s'.presence = some ino ∧
      (s'.files ino).createdFor = some generation ∧
      (s'.files ino).takeoversBefore = s'.takeovers generation
  | .wrote p generation ino =>
    Claimed s' p generation ∧ (s'.files ino).createdFor = some generation ∨
      (s.worker p).pc = .claim (.write ino generation) ∧
        (s'.files ino).createdFor = some generation
  | .removed p generation ino =>
    s.presence = some ino ∧ (s.files ino).createdFor = some generation ∧
      (Claimed s p generation ∨ (s.worker p).pc = .claim (.undo ino generation))
  | .obeyed p generation stop =>
    Claimed s' p generation ∧
      (∀ target, stop.address = .to target → TargetOf p generation target) ∧
      stop.address ≠ .malformed ∧
      ∀ bound, legacyStop stop = true → (s.worker p).legacyStop = some bound →
        bound.stop = stop → TargetOf p generation bound.target
  | .requested previous kept stop =>
    previous ≠ some none ∧
      (∀ request, previous = some (some request) → legacyStop request = true ∨
        ∃ target, request.address = .to target ∧ stop.address = .to target) ∧
      (kept = true → ∃ request, previous = some (some request))
  | .retired p stop own =>
    (∃ generation, Claimed s' p generation ∧ own.ownerGeneration = some generation) ∧
      ∀ request target, stop = some (some request) → request.address = .to target →
        stopTarget s.projectKey (some own) = some target
  | .retiredAtStartup stop takenOver =>
    ∀ request target, stop = some (some request) → request.address = .to target →
      stopTarget s.projectKey (takenOver.bind PresenceText.parsed) = some target ∧
        ∀ generation, target.generation = some generation → 0 < s.takeovers generation

/-- Every effect of a step is sound. -/
def OwnershipStep (s : WorkersState) (event : WorkerEvent) : Prop :=
  ∀ effect ∈ (workersStep s event).effects, EffectSound s (workersStep s event) effect

def remembersInode (s : WorkersState) (ino : Nat) (p : Worker) : Bool :=
  match s.identity p with
  | some claim => !claim.retired && claim.ino == ino
  | none => false

/-- A new presence file does not get the inode number that a claim which is not retired
remembers; a worker that creates its own file again may get its old one. -/
def freshInode (s : WorkersState) : WorkerEvent → Bool
  | .step p w =>
    match (s.worker p).pc with
    | .claim (.create _ _) => !s.started.any (remembersInode s w.ino)
    | .refresh (.create _) => !s.started.any fun q => q != p && remembersInode s w.ino q
    | _ => true
  | _ => true

/-! ### The invariant -/

def Pc.inTransition : Pc → Bool
  | .claim .lock => false
  | .claim _ => true
  | .refresh (.look _) | .refresh (.create _) | .refresh (.publish _ _) | .refresh (.undo _) => true
  | .release .lock => false
  | .release _ => true
  | .writeStop (.lock _) => false
  | .writeStop _ => true
  | _ => false

/-- What only a process inside a transition changes. -/
structure Names where
  projectKey : String
  presence : Option Nat
  stop : Option StopText
  createdFor : Nat → Option String
  takeoversBefore : Nat → Nat
  takeovers : String → Nat

def WorkersState.names (s : WorkersState) : Names where
  projectKey := s.projectKey
  presence := s.presence
  stop := s.stop
  createdFor := fun ino => (s.files ino).createdFor
  takeoversBefore := fun ino => (s.files ino).takeoversBefore
  takeovers := s.takeovers

section Names

variable (n : Names) (identity : Option ClaimIdentity)

/-- The process has a claim and the inode was created for its generation. -/
def OwnInode (ino : Nat) : Prop :=
  ∃ claim, identity = some claim ∧ n.createdFor ino = some claim.generation

/-- The process has a claim that is not retired. -/
def Unretired : Prop := ∃ claim, identity = some claim ∧ claim.retired = false

def OwnRecord (current : Presence) : Prop :=
  ∃ claim, identity = some claim ∧ current.ownerGeneration = some claim.generation

/-- The file at the path is one of the process. -/
def AtPath : Prop := ∃ ino, n.presence = some ino ∧ OwnInode n identity ino

/-- The text was on a file that was taken over. -/
def TakenOver (text : Option PresenceText) : Prop :=
  ∀ presence generation, text = some (.record presence) →
    presence.ownerGeneration = some generation → 0 < n.takeovers generation

/-- No takeover of its generation since the file was created. -/
def Current (ino : Nat) : Prop :=
  ∀ generation, n.createdFor ino = some generation →
    n.takeoversBefore ino = n.takeovers generation

/-- What a process relies on before its next call. -/
def PcSound : Pc → Prop
  | .claim (.create _ takenOver) | .claim (.judge _ takenOver) => TakenOver n takenOver
  | .claim (.startupStop ino generation takenOver) =>
    n.createdFor ino = some generation ∧ TakenOver n takenOver
  | .claim (.unlinkStop ino generation takenOver stop) =>
    n.createdFor ino = some generation ∧ TakenOver n takenOver ∧ n.stop = some (some stop) ∧
      retiresAtStartup n.projectKey takenOver stop = true
  | .claim (.write ino generation) | .claim (.undo ino generation) =>
    n.createdFor ino = some generation
  | .claim (.moveAside _ _) => n.presence.isSome = true
  | .claim (.compare _ _ aside) | .claim (.linkBack aside) =>
    n.presence = none ∧ Current n aside
  | .refresh (.stat _) | .refresh (.open _ _) | .refresh (.read _ _ _) => Unretired identity
  | .refresh (.write _ descriptor) => OwnInode n identity descriptor
  | .refresh (.publish _ ino) => n.presence = some ino ∧ OwnInode n identity ino
  | .refresh (.undo ino) => OwnInode n identity ino
  | .release .lock | .release .read => Unretired identity
  | .release (.readStop current) => AtPath n identity ∧ OwnRecord identity current
  | .release (.unlinkStop current stop) =>
    AtPath n identity ∧ OwnRecord identity current ∧ n.stop = some (some stop) ∧
      (legacyStop stop = true ∨
        sameStopTarget stop.address (stopTarget n.projectKey (some current)) = true)
  | .release .unlink => AtPath n identity
  | .writeStop (.write _ kept target previous) =>
    mayReplaceStop n.stop target previous = true ∧
      (∀ request, previous = some request → n.stop = some (some request)) ∧
      (kept = true → previous.isSome = true)
  | _ => True

end Names

structure FilesSound (s : WorkersState) : Prop where
  text : ∀ ino presence, (s.files ino).text = .record presence →
    presence.ownerGeneration = (s.files ino).createdFor
  drawn : ∀ ino generation, (s.files ino).createdFor = some generation → generation ∈ s.drawn
  current : ∀ ino, s.presence = some ino → Current s.names ino

/-- A claim that is not retired remembers an inode of its generation. -/
structure IdentitySound (s : WorkersState) (identity : Option ClaimIdentity) : Prop where
  drawn : ∀ claim, identity = some claim → claim.generation ∈ s.drawn
  ino : ∀ claim, identity = some claim → claim.retired = false →
    (s.files claim.ino).createdFor = some claim.generation

structure ProcessSound (s : WorkersState) (p : Worker) : Prop where
  identity : IdentitySound s (s.identity p)
  started : (s.worker p).pc ≠ .idle ∨ s.identity p ≠ none → p ∈ s.started
  pc : PcSound s.names (s.identity p) (s.worker p).pc
  transition : (s.worker p).pc.inTransition = true → s.holder = some p

structure OwnershipInvariant (s : WorkersState) : Prop where
  files : FilesSound s
  processes : ∀ p, ProcessSound s p

/-- Before any worker runs: what earlier ones left, each file naming the generation it was
created for. -/
structure BeforeWorkers (s : WorkersState) : Prop where
  files : FilesSound s
  workers : ∀ p, s.worker p = .initial

/-! ### Steps of one process -/

/-- The invariant while `p` is inside a step: everything but what `p` does next. -/
structure Acting (s : WorkersState) (p : Worker) : Prop where
  files : FilesSound s
  others : ∀ q, q ≠ p → ProcessSound s q
  identity : IdentitySound s (s.identity p)
  started : p ∈ s.started

section Acting

variable {s : WorkersState} {p : Worker}

@[simp] theorem setWorker_self (process : WorkerProcess) :
    (s.setWorker p process).worker p = process := by
  simp [WorkersState.setWorker]

theorem setWorker_other {q : Worker} (hne : q ≠ p) (process : WorkerProcess) :
    (s.setWorker p process).worker q = s.worker q := by
  simp [WorkersState.setWorker, hne]

@[simp] theorem setPc_pc (pc : Pc) : ((s.setPc p pc).worker p).pc = pc := by
  simp [WorkersState.setPc]

@[simp] theorem setPc_identity (pc : Pc) : (s.setPc p pc).identity p = s.identity p := by
  simp [WorkersState.setPc, WorkersState.identity]

@[simp] theorem setLegacyStop_identity (bound : Option LegacyStop) :
    (s.setLegacyStop p bound).identity p = s.identity p := by
  simp [WorkersState.setLegacyStop, WorkersState.identity]

theorem OwnershipInvariant.acting (h : OwnershipInvariant s) (busy : (s.worker p).pc ≠ .idle) :
    Acting s p where
  files := h.files
  others := fun q _ => h.processes q
  identity := (h.processes p).identity
  started := (h.processes p).started (.inl busy)

/-- The step ends: what `p` does next is sound, and a transition is still its own. -/
theorem Acting.close (h : Acting s p) (hpc : PcSound s.names (s.identity p) (s.worker p).pc)
    (htransition : (s.worker p).pc.inTransition = true → s.holder = some p) :
    OwnershipInvariant s where
  files := h.files
  processes := by
    intro q
    by_cases heq : q = p
    · rw [heq]
      exact ⟨h.identity, fun _ => h.started, hpc, htransition⟩
    · exact h.others q heq

/-- What a process knows about itself is its own business. -/
theorem Acting.setWorker (h : Acting s p) {process : WorkerProcess}
    (hidentity : IdentitySound s process.identity) : Acting (s.setWorker p process) p where
  files := ⟨h.files.text, h.files.drawn, h.files.current⟩
  others := by
    intro q hne
    obtain ⟨hid, hstarted, hpc, htransition⟩ := h.others q hne
    have hsame : (s.setWorker p process).worker q = s.worker q := setWorker_other hne process
    have hidSame : (s.setWorker p process).identity q = s.identity q := by
      simp [WorkersState.identity, hsame]
    constructor
    · rw [hidSame]
      exact ⟨hid.drawn, hid.ino⟩
    · rw [hsame, hidSame]
      exact hstarted
    · rw [hsame, hidSame]
      exact hpc
    · rw [hsame]
      exact htransition
  identity := by
    have hnew : (s.setWorker p process).identity p = process.identity := by
      simp [WorkersState.identity]
    rw [hnew]
    exact ⟨hidentity.drawn, hidentity.ino⟩
  started := h.started

theorem Acting.setPc (h : Acting s p) (pc : Pc) : Acting (s.setPc p pc) p :=
  h.setWorker h.identity

theorem Acting.setLegacyStop (h : Acting s p) (bound : Option LegacyStop) :
    Acting (s.setLegacyStop p bound) p :=
  h.setWorker h.identity

theorem IdentitySound.retire {identity : Option ClaimIdentity} (h : IdentitySound s identity) :
    IdentitySound s (identity.map fun claim => { claim with retired := true }) where
  drawn := by
    intro claim hclaim
    obtain ⟨old, hold, rfl⟩ := Option.map_eq_some_iff.mp hclaim
    exact h.drawn old hold
  ino := by
    intro claim hclaim hunretired
    obtain ⟨old, -, rfl⟩ := Option.map_eq_some_iff.mp hclaim
    cases hunretired

theorem Acting.retire (h : Acting s p) : Acting (s.retire p) p :=
  h.setWorker h.identity.retire

theorem Acting.emit (h : Acting s p) (effect : WorkerEffect) : Acting (s.emit effect) p :=
  ⟨⟨h.files.text, h.files.drawn, h.files.current⟩,
    fun q hne =>
      have hq := h.others q hne
      ⟨⟨hq.identity.drawn, hq.identity.ino⟩, hq.started, hq.pc, hq.transition⟩,
    ⟨h.identity.drawn, h.identity.ino⟩, h.started⟩

/-! Nobody else is inside a transition, so nobody else relies on the names. -/

theorem Acting.alone_of_holder (h : Acting s p) (hholder : s.holder = some p) :
    ∀ q, q ≠ p → (s.worker q).pc.inTransition = false := by
  intro q hne
  rw [← Bool.not_eq_true]
  intro hin
  have hq := (h.others q hne).transition hin
  rw [hholder] at hq
  exact hne (Option.some.inj hq).symm

theorem Acting.alone_of_free (h : Acting s p) (hholder : s.holder = none) :
    ∀ q, q ≠ p → (s.worker q).pc.inTransition = false := by
  intro q hne
  rw [← Bool.not_eq_true]
  intro hin
  have hq := (h.others q hne).transition hin
  rw [hholder] at hq
  cases hq

theorem Acting.setHolder (h : Acting s p)
    (alone : ∀ q, q ≠ p → (s.worker q).pc.inTransition = false) (holder : Option Worker) :
    Acting { s with holder } p where
  files := ⟨h.files.text, h.files.drawn, h.files.current⟩
  others := by
    intro q hne
    have hq := h.others q hne
    refine ⟨⟨hq.identity.drawn, hq.identity.ino⟩, hq.started, hq.pc, fun hin => ?_⟩
    have hout := alone q hne
    rw [show (s.worker q).pc.inTransition = true from hin] at hout
    cases hout
  identity := ⟨h.identity.drawn, h.identity.ino⟩
  started := h.started

/-- A process outside a transition relies on the inode it holds and on its claim. -/
theorem PcSound.rename {n n' : Names} {identity : Option ClaimIdentity} {pc : Pc}
    (h : PcSound n identity pc) (outside : pc.inTransition = false)
    (held : ∀ ino, pc.ino = some ino → n'.createdFor ino = n.createdFor ino) :
    PcSound n' identity pc := by
  cases pc with
  | idle => trivial
  | claim pc =>
    cases pc with
    | lock => trivial
    | _ => cases outside
  | refresh pc =>
    cases pc with
    | stat fields => exact h
    | «open» fields entry => exact h
    | read fields entry descriptor => exact h
    | write fields descriptor =>
      obtain ⟨claim, hclaim, hcreated⟩ := h
      exact ⟨claim, hclaim, (held descriptor rfl).trans hcreated⟩
    | confirm => trivial
    | lock fields => trivial
    | _ => cases outside
  | release pc =>
    cases pc with
    | lock => exact h
    | _ => cases outside
  | writeStop pc =>
    cases pc with
    | lock now => trivial
    | _ => cases outside
  | readStop pc => trivial

/-- A process inside a transition changes the names: the others only need their inodes. -/
theorem Acting.rename (h : Acting s p)
    (alone : ∀ q, q ≠ p → (s.worker q).pc.inTransition = false) {s' : WorkersState}
    (hworker : s'.worker = s.worker) (hstarted : s'.started = s.started)
    (hdrawn : ∀ generation ∈ s.drawn, generation ∈ s'.drawn) (hfiles : FilesSound s')
    (held : ∀ q, q ≠ p → ∀ ino, (s.worker q).pc.ino = some ino →
      (s'.files ino).createdFor = (s.files ino).createdFor)
    (remembered : ∀ q, q ≠ p → ∀ claim, s.identity q = some claim → claim.retired = false →
      (s'.files claim.ino).createdFor = (s.files claim.ino).createdFor)
    (hidentity : IdentitySound s' (s.identity p)) : Acting s' p where
  files := hfiles
  others := by
    intro q hne
    obtain ⟨hid, hbusy, hpc, -⟩ := h.others q hne
    have hsame : s'.identity q = s.identity q := by simp [WorkersState.identity, hworker]
    constructor
    · rw [hsame]
      refine ⟨fun claim hclaim => hdrawn _ (hid.drawn claim hclaim), ?_⟩
      intro claim hclaim hunretired
      exact (remembered q hne claim hclaim hunretired).trans (hid.ino claim hclaim hunretired)
    · rw [hsame, hworker, hstarted]
      exact hbusy
    · rw [hsame, hworker]
      exact hpc.rename (alone q hne) (held q hne)
    · rw [hworker, alone q hne]
      intro hin
      cases hin
  identity := by
    have hsame : s'.identity p = s.identity p := by simp [WorkersState.identity, hworker]
    rw [hsame]
    exact hidentity
  started := hstarted ▸ h.started

/-- The same when no inode changes hands. -/
theorem Acting.relink (h : Acting s p)
    (alone : ∀ q, q ≠ p → (s.worker q).pc.inTransition = false) {s' : WorkersState}
    (hworker : s'.worker = s.worker) (hstarted : s'.started = s.started)
    (hdrawn : s'.drawn = s.drawn) (hsame : s'.files = s.files)
    (hcurrent : ∀ ino, s'.presence = some ino → Current s'.names ino) : Acting s' p := by
  refine h.rename alone hworker hstarted (fun _ hmem => hdrawn ▸ hmem) ?_
    (fun _ _ _ _ => by rw [hsame]) (fun _ _ _ _ _ => by rw [hsame]) ?_
  · constructor
    · rw [hsame]
      exact h.files.text
    · rw [hsame, hdrawn]
      exact h.files.drawn
    · exact hcurrent
  · constructor
    · rw [hdrawn]
      exact h.identity.drawn
    · rw [hsame]
      exact h.identity.ino

theorem names_writeText (ino : Nat) (text : PresenceText) :
    (s.writeText ino text).names = s.names := by
  simp only [WorkersState.names, WorkersState.writeText, Names.mk.injEq, true_and, and_true]
  constructor <;> funext other <;> split
  · next heq => rw [heq]
  · rfl
  · next heq => rw [heq]
  · rfl

theorem createdFor_writeText (ino other : Nat) (text : PresenceText) :
    ((s.writeText ino text).files other).createdFor = (s.files other).createdFor :=
  congrFun (congrArg Names.createdFor (names_writeText ino text)) other

theorem Acting.writeText (h : Acting s p) {ino : Nat} {text : PresenceText}
    (htext : ∀ presence, text = .record presence →
      presence.ownerGeneration = (s.files ino).createdFor) : Acting (s.writeText ino text) p where
  files := by
    constructor
    · intro other presence hrecord
      rw [createdFor_writeText]
      by_cases heq : other = ino
      · rw [heq]
        apply htext
        simpa [WorkersState.writeText, heq] using hrecord
      · apply h.files.text
        simpa [WorkersState.writeText, heq] using hrecord
    · intro other generation hcreated
      rw [createdFor_writeText] at hcreated
      exact h.files.drawn other generation hcreated
    · rw [names_writeText]
      exact h.files.current
  others := by
    intro q hne
    obtain ⟨hid, hstarted, hpc, htransition⟩ := h.others q hne
    refine ⟨⟨hid.drawn, ?_⟩, hstarted, ?_, htransition⟩
    · intro claim hclaim hunretired
      rw [createdFor_writeText]
      exact hid.ino claim hclaim hunretired
    · rw [names_writeText]
      exact hpc
  identity := by
    refine ⟨h.identity.drawn, ?_⟩
    intro claim hclaim hunretired
    rw [createdFor_writeText]
    exact h.identity.ino claim hclaim hunretired
  started := h.started

/-- The file of a generation is created at an empty path on an inode that nobody holds or
remembers. -/
theorem Acting.create (h : Acting s p)
    (alone : ∀ q, q ≠ p → (s.worker q).pc.inTransition = false) {ino : Nat} {generation : String}
    {drawn : List String} (hdrawn : ∀ old ∈ s.drawn, old ∈ drawn) (hgeneration : generation ∈ drawn)
    (hfree : s.inUse ino = false)
    (hfresh : ∀ q, q ≠ p → q ∈ s.started → remembersInode s ino q = false)
    (hown : ∀ claim, s.identity p = some claim → claim.retired = false → claim.ino = ino →
      claim.generation = generation) :
    Acting { s.createPresence ino generation with drawn } p := by
  have hother (other : Nat) (hne : other ≠ ino) :
      (s.createPresence ino generation).files other = s.files other := by
    simp [WorkersState.createPresence, hne]
  have hself : (s.createPresence ino generation).files ino
      = ⟨.unreadable "", some generation, s.takeovers generation⟩ := by
    simp [WorkersState.createPresence]
  refine h.rename alone rfl rfl hdrawn ?_ ?_ ?_ ?_
  · constructor
    · intro other presence hrecord
      by_cases heq : other = ino
      · rw [heq] at hrecord
        rw [hself] at hrecord
        cases hrecord
      · change ((s.createPresence ino generation).files other).text = _ at hrecord
        rw [hother other heq] at hrecord
        rw [hother other heq]
        exact h.files.text other presence hrecord
    · intro other found hcreated
      by_cases heq : other = ino
      · rw [heq, hself] at hcreated
        exact Option.some.inj hcreated ▸ hgeneration
      · rw [hother other heq] at hcreated
        exact hdrawn found (h.files.drawn other found hcreated)
    · intro found hfound other hcreated
      cases hfound
      change ((s.createPresence ino generation).files ino).createdFor = _ at hcreated
      show ((s.createPresence ino generation).files ino).takeoversBefore = _
      rw [hself] at hcreated ⊢
      exact congrArg s.takeovers (Option.some.inj hcreated)
  · intro q hne held hheld
    show ((s.createPresence ino generation).files held).createdFor = _
    rw [hother]
    intro heq
    have hbusy : (s.worker q).pc ≠ .idle := by
      intro hidle
      rw [hidle] at hheld
      cases hheld
    have hmem : q ∈ s.started := (h.others q hne).started (.inl hbusy)
    simp only [WorkersState.inUse, Bool.or_eq_false_iff, List.any_eq_false] at hfree
    exact hfree.2 q hmem (by rw [hheld, heq]; exact beq_self_eq_true _)
  · intro q hne claim hclaim hunretired
    rw [hother]
    intro heq
    have hmem : q ∈ s.started := (h.others q hne).started (.inr (by rw [hclaim]; exact nofun))
    have hforgotten := hfresh q hne hmem
    simp [remembersInode, hclaim, hunretired, heq] at hforgotten
  · constructor
    · exact fun claim hclaim => hdrawn _ (h.identity.drawn claim hclaim)
    · intro claim hclaim hunretired
      by_cases heq : claim.ino = ino
      · rw [heq, hself, hown claim hclaim hunretired heq]
      · rw [hother claim.ino heq]
        exact h.identity.ino claim hclaim hunretired

end Acting

end AgentBridge.Workers
