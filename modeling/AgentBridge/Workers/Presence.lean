import AgentBridge.Workers.Ownership

/-!
# Every call keeps one owner

One lemma for each operation: whatever its next call finds, the invariant holds again and
what the call did is sound. From these the promise holds at every step of every run.
-/

namespace AgentBridge.Workers

open Systems WorkersState

structure StepSound (s s' : WorkersState) : Prop where
  invariant : OwnershipInvariant s'
  effects : ∀ effect ∈ s'.effects, EffectSound s s' effect

section Steps

variable {s : WorkersState} {p : Worker} {w : StepWorld}

variable {s' : WorkersState}

theorem StepSound.quiet (h : OwnershipInvariant s') (hquiet : s'.effects = []) :
    StepSound s s' := by
  refine ⟨h, fun effect heffect => ?_⟩
  rw [hquiet] at heffect
  cases heffect

theorem StepSound.single {effect : WorkerEffect} (h : OwnershipInvariant s')
    (heffects : s'.effects = [effect]) (hsound : EffectSound s s' effect) : StepSound s s' := by
  refine ⟨h, fun found hfound => ?_⟩
  rw [heffects, List.mem_singleton] at hfound
  rw [hfound]
  exact hsound

theorem OwnershipInvariant.withEffects (h : OwnershipInvariant s) (effects : List WorkerEffect) :
    OwnershipInvariant { s with effects } where
  files := ⟨h.files.text, h.files.drawn, h.files.current⟩
  processes := by
    intro q
    have hq := h.processes q
    exact ⟨⟨hq.identity.drawn, hq.identity.ino⟩, hq.started, hq.pc, hq.transition⟩

theorem OwnershipInvariant.emit (h : OwnershipInvariant s) (effect : WorkerEffect) :
    OwnershipInvariant (s.emit effect) :=
  h.withEffects [effect]

variable {pc : Pc}

theorem Acting.goto (h : Acting s p) (hpc : PcSound s.names (s.identity p) pc)
    (htransition : pc.inTransition = true → s.holder = some p) :
    OwnershipInvariant (s.setPc p pc) := by
  apply (h.setPc pc).close
  · rw [setPc_pc, setPc_identity]
    exact hpc
  · rw [setPc_pc]
    exact htransition

theorem Acting.finish (h : Acting s p) : OwnershipInvariant (s.finish p) :=
  h.goto trivial (fun hin => by cases hin)

theorem Acting.leave (h : Acting s p) (hholder : s.holder = some p) :
    OwnershipInvariant (s.leave p) := by
  have hout : Acting (s.leave p) p := by
    refine (h.setPc .idle).setHolder (fun q hne => ?_) none
    rw [WorkersState.setPc, setWorker_other hne]
    exact h.alone_of_holder hholder q hne
  apply hout.close
  · show PcSound _ _ ((s.setPc p .idle).worker p).pc
    rw [setPc_pc]
    trivial
  · show ((s.setPc p .idle).worker p).pc.inTransition = true → _
    rw [setPc_pc]
    intro hin
    cases hin

theorem Acting.enter (h : Acting s p) (hfree : s.holder = none)
    (hpc : PcSound s.names (s.identity p) pc) :
    OwnershipInvariant ({ s with holder := some p }.setPc p pc) :=
  (h.setHolder (h.alone_of_free hfree) (some p)).goto hpc fun _ => rfl

/-! ### Stop requests -/

theorem lock_sound (h : Acting s p) (hquiet : s.effects = [])
    (hpc : PcSound s.names (s.identity p) pc) :
    StepSound s (if s.holder = none && !w.fails then { s with holder := some p }.setPc p pc
      else s.finish p) := by
  split
  · next hfree =>
    simp only [Bool.and_eq_true, decide_eq_true_eq] at hfree
    exact .quiet (h.enter hfree.1 hpc) hquiet
  · exact .quiet h.finish hquiet

theorem mayReplaceStop_some {stop : Option StopText} {target : Option StopTarget}
    {request : StopRequest} (h : mayReplaceStop stop target (some request) = true) :
    legacyStop request = true ∨ ∃ t, request.address = .to t ∧ target = some t := by
  simp only [mayReplaceStop, Bool.or_eq_true] at h
  cases h with
  | inl hlegacy => exact .inl hlegacy
  | inr hsame =>
    right
    unfold sameStopTarget at hsame
    split at hsame
    · next left right hleft =>
      exact ⟨left, hleft, congrArg some (eq_of_beq hsame).symm⟩
    · cases hsame

variable {stop : StopRequest}

theorem readStop_some (h : s.readStop w = some stop) : s.stop = some (some stop) := by
  unfold WorkersState.readStop at h
  split at h
  · cases h
  split at h
  · cases h
  · next text htext => rw [htext, h]

theorem writeStopStep_sound (h : Acting s p) (hquiet : s.effects = []) {pc : StopPc}
    (hpc : PcSound s.names (s.identity p) (.writeStop pc))
    (htransition : (Pc.writeStop pc).inTransition = true → s.holder = some p) :
    StepSound s (writeStopStep s p w pc) := by
  cases pc with
  | lock now => exact lock_sound h hquiet trivial
  | readPresence now => exact .quiet (h.goto trivial htransition) hquiet
  | readPrevious now target =>
    simp only [writeStopStep]
    split
    · next hmay =>
      refine .quiet ((h.setLegacyStop _).goto ⟨hmay, ?_, ?_⟩ htransition) hquiet
      · exact fun request hrequest => readStop_some hrequest
      · intro hkept
        cases hprevious : s.readStop w with
        | none => simp [hprevious] at hkept
        | some previous => rfl
    · exact .quiet (h.leave (htransition rfl)) hquiet
  | write now kept target previous =>
    have hholder := htransition rfl
    obtain ⟨hmay, hread, hkept⟩ := hpc
    simp only [writeStopStep]
    split
    · exact .quiet (h.leave hholder) hquiet
    · have hnext : Acting { s with stop := some (some (newStop p w (now || kept) target)) } p :=
        h.relink (h.alone_of_holder hholder) rfl rfl rfl rfl h.files.current
      refine .single ((hnext.leave hholder).emit _) rfl ?_
      cases previous with
      | none =>
        have hnone : s.stop = none := Option.isNone_iff_eq_none.mp hmay
        refine ⟨by rw [hnone]; exact nofun, fun request hrequest => ?_, fun h => ?_⟩
        · rw [hnone] at hrequest
          cases hrequest
        · cases hkept h
      | some previous =>
        have hstop : s.stop = some (some previous) := hread previous rfl
        refine ⟨by rw [hstop]; exact nofun, fun request hrequest => ?_, fun _ =>
          ⟨previous, hstop⟩⟩
        rw [hstop] at hrequest
        cases hrequest
        cases mayReplaceStop_some hmay with
        | inl hlegacy => exact .inl hlegacy
        | inr hsame =>
          obtain ⟨t, haddress, rfl⟩ := hsame
          exact .inr ⟨t, haddress, rfl⟩

variable {claim : ClaimIdentity} {presence : Presence}

theorem owns_claim (howns : s.owns p presence = true) (hclaim : s.identity p = some claim) :
    claim.retired = false ∧ presence.ownerGeneration = some claim.generation ∧
      presence.instanceId = p.instanceId ∧ presence.pid = p.pid := by
  simp only [WorkersState.owns, ownedPresence, hclaim, Bool.and_eq_true, beq_iff_eq,
    Bool.not_eq_true'] at howns
  obtain ⟨⟨⟨⟨hretired, hinstance⟩, hpid⟩, -⟩, hgeneration⟩ := howns
  exact ⟨hretired, hgeneration, hinstance, hpid⟩

variable {generation projectKey : String} {target : StopTarget}

theorem targetOf_stopTarget (hgeneration : presence.ownerGeneration = some generation)
    (hinstance : presence.instanceId = p.instanceId) (hpid : presence.pid = p.pid)
    (h : stopTarget projectKey (some presence) = some target) : TargetOf p generation target := by
  simp only [stopTarget] at h
  split at h
  · cases h
  · cases h
    exact ⟨hgeneration, hinstance, hpid⟩

theorem associateLegacyStop_bound {bound : LegacyStop} {target : Option StopTarget}
    (h : (associateLegacyStop (some bound) stop target).1 = true) (hsame : bound.stop = stop) :
    target = some bound.target := by
  simp only [associateLegacyStop, hsame, if_true, beq_iff_eq] at h
  exact h.symm

theorem sameStopTarget_to {right : Option StopTarget}
    (h : sameStopTarget (.to target) right = true) :
    right = some target := by
  unfold sameStopTarget at h
  split at h
  · next left right hleft =>
    cases hleft
    exact congrArg some (eq_of_beq h).symm
  · cases h

theorem readStopStep_sound (h : Acting s p) (hquiet : s.effects = []) (pc : ReadStopPc) :
    StepSound s (readStopStep s p w pc) := by
  cases pc with
  | readStop =>
    simp only [readStopStep]
    split
    · exact .quiet h.finish hquiet
    · exact .quiet (h.goto trivial fun hin => by cases hin) hquiet
  | readPresence stop =>
    simp only [readStopStep]
    split
    · next presence claim hread hclaim =>
      split
      · next howns =>
        obtain ⟨hretired, hgeneration, hinstance, hpid⟩ := owns_claim howns hclaim
        have htarget {target : StopTarget}
            (heq : stopTarget s.projectKey (some presence) = some target) :
            TargetOf p claim.generation target :=
          targetOf_stopTarget hgeneration hinstance hpid heq
        split
        · next hlegacy =>
          have haddress : stop.address = .absent := by
            simp only [legacyStop, Bool.and_eq_true, beq_iff_eq] at hlegacy
            exact hlegacy.1
          split
          · next hassociated =>
            refine .single ((h.setLegacyStop _).finish.emit _) rfl ⟨⟨claim, ?_, rfl⟩,
              ?_, ?_, ?_⟩
            · simpa [WorkersState.finish, WorkersState.identity, WorkersState.emit,
                WorkersState.setPc, WorkersState.setLegacyStop] using hclaim
            · intro target hto
              rw [haddress] at hto
              cases hto
            · rw [haddress]
              intro hnone
              cases hnone
            · intro bound _ hbound hsame
              rw [hbound] at hassociated
              exact htarget (associateLegacyStop_bound hassociated hsame)
          · exact .quiet (h.setLegacyStop _).finish hquiet
        · next hnew =>
          split
          · exact .quiet h.finish hquiet
          · next hbelongs =>
            refine .single (h.finish.emit _) rfl ⟨⟨claim, ?_, rfl⟩, ?_, ?_, ?_⟩
            · simpa [WorkersState.finish, WorkersState.identity, WorkersState.emit,
                WorkersState.setPc] using hclaim
            · intro target hto
              rw [hto] at hbelongs
              exact htarget (sameStopTarget_to (by simpa using hbelongs))
            · intro hmalformed
              simp [hmalformed, sameStopTarget] at hbelongs
            · intro bound hlegacy
              exact absurd hlegacy hnew
      · exact .quiet h.retire.finish hquiet
    · exact .quiet h.retire.finish hquiet

/-! ### Release -/

theorem readPresence_some (h : s.readPresence w = some presence) :
    ∃ ino, s.presence = some ino ∧ (s.files ino).text = .record presence := by
  simp only [WorkersState.readPresence, WorkersState.readText] at h
  split at h
  · cases h
  · next text htext =>
    split at htext
    · cases htext
    · obtain ⟨ino, hino, rfl⟩ := Option.map_eq_some_iff.mp htext
      refine ⟨ino, hino, ?_⟩
      cases hrecord : (s.files ino).text with
      | unreadable content =>
        rw [hrecord] at h
        cases h
      | record found =>
        rw [hrecord] at h
        cases h
        rfl

theorem atPath_of_owns (h : FilesSound s) (hread : s.readPresence w = some presence)
    (howns : s.owns p presence = true) (hclaim : s.identity p = some claim) :
    ∃ ino, s.presence = some ino ∧ (s.files ino).createdFor = some claim.generation := by
  obtain ⟨ino, hino, htext⟩ := readPresence_some hread
  have hgeneration := h.text ino presence htext
  rw [(owns_claim howns hclaim).2.1] at hgeneration
  exact ⟨ino, hino, hgeneration.symm⟩

theorem legacyStop_absent (h : legacyStop stop = true) : stop.address = .absent := by
  simp only [legacyStop, Bool.and_eq_true, beq_iff_eq] at h
  exact h.1

theorem stopBelongsTo_some {bound : Option LegacyStop} {target : Option StopTarget}
    (h : (stopBelongsTo bound stop target).1 = true) :
    legacyStop stop = true ∨ sameStopTarget stop.address target = true := by
  unfold stopBelongsTo at h
  split at h
  · next hlegacy => exact .inl hlegacy
  · exact .inr h

theorem releaseStep_sound (h : Acting s p) (hquiet : s.effects = []) {pc : ReleasePc}
    (hpc : PcSound s.names (s.identity p) (.release pc))
    (htransition : (Pc.release pc).inTransition = true → s.holder = some p) :
    StepSound s (releaseStep s p w pc) := by
  cases pc with
  | lock => exact lock_sound h hquiet hpc
  | read =>
    have hholder := htransition rfl
    obtain ⟨claim, hclaim, -⟩ := hpc
    simp only [releaseStep]
    split
    · next current hread =>
      split
      · next howns =>
        obtain ⟨ino, hino, hcreated⟩ := atPath_of_owns h.files hread howns hclaim
        have hrecord := (owns_claim howns hclaim).2.1
        exact .quiet (h.goto ⟨⟨ino, hino, claim, hclaim, hcreated⟩, claim, hclaim, hrecord⟩
          htransition) hquiet
      · exact .quiet (h.retire.leave hholder) hquiet
    · exact .quiet (h.retire.leave hholder) hquiet
  | readStop current =>
    obtain ⟨hpath, hrecord⟩ := hpc
    simp only [releaseStep]
    split
    · next stop hread =>
      refine .quiet ((h.setLegacyStop _).goto ?_ fun _ => htransition rfl) hquiet
      rw [setLegacyStop_identity]
      split
      · next hbelongs =>
        exact ⟨hpath, hrecord, readStop_some hread, stopBelongsTo_some hbelongs⟩
      · exact hpath
    · exact .quiet (h.goto hpath htransition) hquiet
  | unlinkStop current stop =>
    have hholder := htransition rfl
    obtain ⟨hpath, hrecord, hstop, hbelongs⟩ := hpc
    simp only [releaseStep]
    split
    · exact .quiet (h.leave hholder) hquiet
    · have hnext : Acting { s with stop := none } p :=
        h.relink (h.alone_of_holder hholder) rfl rfl rfl rfl h.files.current
      refine .single (((hnext.setLegacyStop none).goto ?_ fun _ => hholder).emit _) rfl ⟨?_, ?_⟩
      · rw [setLegacyStop_identity]
        exact hpath
      · obtain ⟨claim, hclaim, hgeneration⟩ := hrecord
        refine ⟨claim.generation, ⟨claim, ?_, rfl⟩, hgeneration⟩
        simpa [WorkersState.identity, WorkersState.emit, WorkersState.setPc,
          WorkersState.setLegacyStop] using hclaim
      · intro request target hrequest haddress
        have hsame : s.stop = some (some stop) := hstop
        rw [hsame] at hrequest
        cases hrequest
        cases hbelongs with
        | inl hlegacy =>
          rw [legacyStop_absent hlegacy] at haddress
          cases haddress
        | inr hmatch =>
          rw [haddress] at hmatch
          exact sameStopTarget_to hmatch
  | unlink =>
    have hholder := htransition rfl
    obtain ⟨ino, hino, claim, hclaim, hcreated⟩ := hpc
    have hpresence : s.presence = some ino := hino
    simp only [releaseStep, hpresence, hclaim]
    split
    · exact .quiet (h.leave hholder) hquiet
    · have hnext : Acting { s with presence := none } p :=
        h.relink (h.alone_of_holder hholder) rfl rfl rfl rfl fun _ hnone => by cases hnone
      exact .single ((hnext.retire.leave hholder).emit _) rfl
        ⟨hpresence, hcreated, .inl ⟨claim, hclaim, rfl⟩⟩

/-! ### Refresh -/

variable {ino : Nat}

theorem writeRecord_acting (h : Acting s p) (fields : String)
    (hcreated : (s.files ino).createdFor = some generation) :
    Acting (writeRecord s p ino generation fields w) p := by
  apply Acting.emit
  apply h.writeText
  intro presence hpresence
  split at hpresence
  · cases hpresence
    exact hcreated.symm
  split at hpresence
  · cases hpresence
  · exact h.files.text ino presence hpresence

theorem names_writeRecord (ino : Nat) (generation fields : String) :
    (writeRecord s p ino generation fields w).names = s.names := by
  exact names_writeText (s := s) ino _

theorem createdFor_writeRecord (ino other : Nat) (generation fields : String) :
    ((writeRecord s p ino generation fields w).files other).createdFor
      = (s.files other).createdFor := by
  simp only [writeRecord]
  exact createdFor_writeText (s := s) ino other _

@[simp] theorem writeRecord_identity (ino : Nat) (generation fields : String) (q : Worker) :
    (writeRecord s p ino generation fields w).identity q = s.identity q := rfl

theorem ownInode_of_mayRefresh (h : Acting s p) (hclaim : s.identity p = some claim)
    (hunretired : claim.retired = false) {entry descriptor : Nat}
    (hmay : mayRefresh s p w entry descriptor = true) :
    (s.files descriptor).createdFor = some claim.generation := by
  simp only [mayRefresh] at hmay
  split at hmay
  · cases hmay
  split at hmay
  · next current hread =>
    have htext : (s.files descriptor).text = .record current := by
      split at hread
      · cases hread
      · cases hrecord : (s.files descriptor).text with
        | unreadable content =>
          rw [hrecord] at hread
          cases hread
        | record found =>
          rw [hrecord] at hread
          cases hread
          rfl
    rw [← h.files.text descriptor current htext]
    exact (owns_claim hmay hclaim).2.1
  · rw [hclaim] at hmay
    have hino : claim.ino = descriptor := eq_of_beq hmay
    rw [← hino]
    exact h.identity.ino claim hclaim hunretired

theorem refreshed_sound (hidentity : s'.identity p = some claim) (hnames : s'.names = s.names)
    (h : FilesSound s) (hino : s.presence = some ino)
    (hcreated : (s.files ino).createdFor = some claim.generation) :
    EffectSound s s' (.refreshed p claim.generation) := by
  have hpresence : s'.presence = s.presence := congrArg Names.presence hnames
  have hfor : (s'.files ino).createdFor = (s.files ino).createdFor :=
    congrFun (congrArg Names.createdFor hnames) ino
  have hbefore : (s'.files ino).takeoversBefore = (s.files ino).takeoversBefore :=
    congrFun (congrArg Names.takeoversBefore hnames) ino
  have htakeovers : s'.takeovers = s.takeovers := congrArg Names.takeovers hnames
  refine ⟨⟨claim, hidentity, rfl⟩, ino, hpresence.trans hino, hfor.trans hcreated, ?_⟩
  rw [hbefore, htakeovers]
  exact h.current ino hino claim.generation hcreated

theorem removeCreated_sound (h : Acting s p) (hquiet : s.effects = []) (hholder : s.holder = some p)
    (hcreated : (s.files ino).createdFor = some generation)
    (hcause : Claimed s p generation ∨ (s.worker p).pc = .claim (.undo ino generation)) :
    StepSound s ((removeCreated s p ino generation w).leave p) := by
  simp only [removeCreated]
  split
  · exact .quiet (h.leave hholder) hquiet
  · next hthere =>
    simp only [Bool.or_eq_true, bne_iff_ne, not_or, not_not] at hthere
    have hnext : Acting { s with presence := none } p :=
      h.relink (h.alone_of_holder hholder) rfl rfl rfl rfl fun _ hnone => by cases hnone
    exact .single ((hnext.emit _).leave hholder) rfl ⟨hthere.2, hcreated, hcause⟩

theorem refreshStep_sound (h : Acting s p) (hquiet : s.effects = []) {pc : RefreshPc}
    (hpc : PcSound s.names (s.identity p) (.refresh pc))
    (htransition : (Pc.refresh pc).inTransition = true → s.holder = some p)
    (hfresh : ∀ fields, pc = .create fields → ∀ q, q ≠ p → q ∈ s.started →
      remembersInode s w.ino q = false) :
    StepSound s (refreshStep s p w pc) := by
  cases pc with
  | stat fields =>
    simp only [refreshStep]
    split
    · exact .quiet h.finish hquiet
    split
    · exact .quiet (h.goto hpc htransition) hquiet
    · exact .quiet (h.goto trivial htransition) hquiet
  | «open» fields entry =>
    simp only [refreshStep]
    split
    · exact .quiet h.finish hquiet
    split
    · exact .quiet (h.goto hpc htransition) hquiet
    · exact .quiet (h.goto trivial htransition) hquiet
  | read fields entry descriptor =>
    obtain ⟨claim, hclaim, hunretired⟩ := hpc
    simp only [refreshStep]
    split
    · exact .quiet h.finish hquiet
    split
    · next hmay =>
      exact .quiet (h.goto ⟨claim, hclaim, ownInode_of_mayRefresh h hclaim hunretired hmay⟩
        htransition) hquiet
    · exact .quiet h.retire.finish hquiet
  | write fields descriptor =>
    obtain ⟨claim, hclaim, hcreated⟩ := hpc
    have hwritten := writeRecord_acting (w := w) h fields hcreated
    have hfor : ((writeRecord s p descriptor claim.generation fields w).files
        descriptor).createdFor = some claim.generation :=
      (createdFor_writeRecord descriptor descriptor claim.generation fields).trans hcreated
    simp only [refreshStep, hclaim]
    split
    · refine .single hwritten.finish rfl (.inl ⟨⟨claim, ?_, rfl⟩, hfor⟩)
      simpa [WorkersState.finish] using hclaim
    · refine .single (hwritten.goto trivial htransition) rfl (.inl ⟨⟨claim, ?_, rfl⟩, hfor⟩)
      simpa using hclaim
  | confirm =>
    simp only [refreshStep]
    split
    · next owner claim hread hclaim =>
      split
      · next howns =>
        obtain ⟨ino, hino, hcreated⟩ := atPath_of_owns h.files hread howns hclaim
        refine .single (h.finish.emit _) rfl
          (refreshed_sound ?_ rfl h.files hino hcreated)
        simpa [WorkersState.finish, WorkersState.identity, WorkersState.emit,
          WorkersState.setPc] using hclaim
      · exact .quiet h.retire.finish hquiet
    · exact .quiet h.retire.finish hquiet
  | lock fields => exact lock_sound h hquiet trivial
  | look fields =>
    have hholder := htransition rfl
    simp only [refreshStep]
    split
    · next owner claim hread hclaim =>
      split
      · next howns =>
        obtain ⟨ino, hino, hcreated⟩ := atPath_of_owns h.files hread howns hclaim
        refine .single ((h.leave hholder).emit _) rfl
          (refreshed_sound ?_ rfl h.files hino hcreated)
        simpa [WorkersState.leave, WorkersState.finish, WorkersState.identity,
          WorkersState.emit, WorkersState.setPc] using hclaim
      · exact .quiet (h.retire.leave hholder) hquiet
    · exact .quiet (h.leave hholder) hquiet
    · exact .quiet (h.goto trivial htransition) hquiet
  | create fields =>
    have hholder := htransition rfl
    simp only [refreshStep]
    split
    · next claim hempty hclaim =>
      split
      · exact .quiet (h.leave hholder) hquiet
      · next hpossible =>
        simp only [Bool.or_eq_true, not_or, Bool.not_eq_true] at hpossible
        have hnext : Acting { s.createPresence w.ino claim.generation with
            drawn := s.drawn } p := by
          refine h.create (h.alone_of_holder hholder) (fun _ hold => hold)
            (h.identity.drawn claim hclaim) hpossible.2 (hfresh fields rfl) ?_
          intro other hother _ _
          rw [hclaim] at hother
          cases hother
          rfl
        refine .quiet (hnext.goto ⟨rfl, claim, hclaim, ?_⟩ htransition) hquiet
        simp [WorkersState.names, WorkersState.createPresence]
    · exact .quiet (h.leave hholder) hquiet
  | publish fields ino =>
    have hholder := htransition rfl
    obtain ⟨hino, claim, hclaim, hcreated⟩ := hpc
    have hwritten := writeRecord_acting (w := w) h fields hcreated
    have hfor : ((writeRecord s p ino claim.generation fields w).files ino).createdFor
        = some claim.generation :=
      (createdFor_writeRecord ino ino claim.generation fields).trans hcreated
    simp only [refreshStep, hclaim]
    split
    · refine .single (hwritten.goto ⟨claim, hclaim, hfor⟩ fun _ => hholder) rfl
        (.inl ⟨⟨claim, ?_, rfl⟩, hfor⟩)
      simpa using hclaim
    · have hidentity : IdentitySound (writeRecord s p ino claim.generation fields w)
          (some { claim with ino }) := by
        constructor
        · intro found hfound
          cases hfound
          exact h.identity.drawn claim hclaim
        · intro found hfound _
          cases hfound
          exact hfor
      have hnext : Acting ((writeRecord s p ino claim.generation fields w).setIdentity p
          (some { claim with ino })) p := hwritten.setWorker hidentity
      have hnow : ((((writeRecord s p ino claim.generation fields w).setIdentity p
          (some { claim with ino })).leave p).identity p) = some { claim with ino } := by
        simp [WorkersState.leave, WorkersState.finish, WorkersState.setIdentity,
          WorkersState.identity, WorkersState.setPc]
      refine ⟨(hnext.leave hholder).withEffects _, fun effect heffect => ?_⟩
      rcases List.mem_cons.mp heffect with rfl | hlast
      · exact .inl ⟨⟨_, hnow, rfl⟩, hfor⟩
      · rw [List.mem_singleton.mp hlast]
        refine ⟨⟨_, hnow, rfl⟩, ino, hino, hfor, ?_⟩
        have hbefore := congrFun (congrArg Names.takeoversBefore
          (names_writeRecord (s := s) (p := p) (w := w) ino claim.generation fields)) ino
        exact hbefore.trans (h.files.current ino hino claim.generation hcreated)
  | undo ino =>
    obtain ⟨claim, hclaim, hcreated⟩ := hpc
    simp only [refreshStep, hclaim]
    exact removeCreated_sound h hquiet (htransition rfl) hcreated (.inl ⟨claim, hclaim, rfl⟩)

/-! ### Claim -/

theorem readText_some {text : PresenceText} (h : s.readText w = some text) :
    ∃ ino, s.presence = some ino ∧ (s.files ino).text = text := by
  simp only [WorkersState.readText] at h
  split at h
  · cases h
  · exact Option.map_eq_some_iff.mp h

theorem nextAttempt_invariant (h : Acting s p) (hholder : s.holder = some p) (attempt : Nat)
    {takenOver : Option PresenceText} (htaken : TakenOver s.names takenOver) :
    OwnershipInvariant (nextAttempt s p attempt takenOver) := by
  unfold nextAttempt
  split
  · exact h.goto htaken fun _ => hholder
  · exact h.leave hholder

theorem nextAttempt_effects (attempt : Nat) (takenOver : Option PresenceText) :
    (nextAttempt s p attempt takenOver).effects = s.effects := by
  unfold nextAttempt
  split <;> rfl

theorem stopTarget_generation (h : stopTarget projectKey (some presence) = some target) :
    target.generation = presence.ownerGeneration := by
  simp only [stopTarget] at h
  split at h
  · cases h
  · cases h
    rfl

/-- The target of a text that was taken over is a generation that was taken over. -/
theorem takeovers_of_target {takenOver : Option PresenceText} (h : TakenOver s.names takenOver)
    (htarget : stopTarget projectKey (takenOver.bind PresenceText.parsed) = some target)
    (hgeneration : target.generation = some generation) : 0 < s.takeovers generation := by
  cases takenOver with
  | none => cases htarget
  | some text =>
    cases text with
    | unreadable content => cases htarget
    | record presence =>
      have howner : presence.ownerGeneration = some generation :=
        (stopTarget_generation htarget).symm.trans hgeneration
      exact h presence generation rfl howner

/-- The path is empty and the file that was there is being looked at. -/
theorem Acting.moveAside (h : Acting s p) (hholder : s.holder = some p) :
    Acting { s with presence := none } p :=
  h.relink (h.alone_of_holder hholder) rfl rfl rfl rfl fun _ hnone => by cases hnone

/-- One more takeover of the generation of a file that is not at the path. -/
def countTakeover (s : WorkersState) (aside : Nat) : WorkersState :=
  { s with
    takeovers := fun generation =>
      if (s.files aside).createdFor = some generation then s.takeovers generation + 1
      else s.takeovers generation }

theorem takenOver_count (h : FilesSound s) {aside : Nat} {staleText : PresenceText}
    (htext : (s.files aside).text = staleText) :
    TakenOver (countTakeover s aside).names (some staleText) := by
  intro presence generation hrecord hgeneration
  cases hrecord
  have hcreated := h.text aside presence htext
  rw [hgeneration] at hcreated
  show 0 < (countTakeover s aside).takeovers generation
  simp [countTakeover, ← hcreated]

theorem claimStep_sound (h : Acting s p) (hquiet : s.effects = []) {pc : ClaimPc}
    (hpc : PcSound s.names (s.identity p) (.claim pc)) (hat : (s.worker p).pc = .claim pc)
    (htransition : (Pc.claim pc).inTransition = true → s.holder = some p)
    (hfresh : ∀ attempt takenOver, pc = .create attempt takenOver → ∀ q ∈ s.started,
      remembersInode s w.ino q = false) :
    StepSound s (claimStep s p w pc) := by
  cases pc with
  | lock => exact lock_sound h hquiet (fun _ _ hnone => by cases hnone)
  | create attempt takenOver =>
    have hholder := htransition rfl
    simp only [claimStep]
    split
    · exact .quiet (h.goto hpc htransition) hquiet
    split
    · exact .quiet (h.leave hholder) hquiet
    · next hpossible =>
      simp only [Bool.or_eq_true, not_or, Bool.not_eq_true] at hpossible
      have hnext : Acting { s.createPresence w.ino w.generation with
          drawn := w.generation :: s.drawn } p := by
        refine h.create (h.alone_of_holder hholder) (fun _ hold => List.mem_cons_of_mem _ hold)
          List.mem_cons_self hpossible.1.2
          (fun q _ hq => hfresh attempt takenOver rfl q hq) ?_
        intro claim hclaim hunretired hino
        have hforgotten := hfresh attempt takenOver rfl p h.started
        simp [remembersInode, hclaim, hunretired, hino] at hforgotten
      refine .quiet (hnext.goto ⟨?_, hpc⟩ htransition) hquiet
      simp [WorkersState.names, WorkersState.createPresence]
  | startupStop ino generation takenOver =>
    obtain ⟨hcreated, htaken⟩ := hpc
    simp only [claimStep]
    split
    · next stop hread =>
      split
      · next hretires =>
        exact .quiet (h.goto ⟨hcreated, htaken, readStop_some hread, hretires⟩ htransition)
          hquiet
      · exact .quiet (h.goto hcreated htransition) hquiet
    · exact .quiet (h.goto hcreated htransition) hquiet
  | unlinkStop ino generation takenOver stop =>
    have hholder := htransition rfl
    obtain ⟨hcreated, htaken, hstop, hretires⟩ := hpc
    simp only [claimStep]
    split
    · exact .quiet (h.goto hcreated htransition) hquiet
    · have hnext : Acting { s with stop := none } p :=
        h.relink (h.alone_of_holder hholder) rfl rfl rfl rfl h.files.current
      have hpc' : PcSound (({ s with stop := none }.setLegacyStop p none).names)
          (({ s with stop := none }.setLegacyStop p none).identity p)
          (.claim (.write ino generation)) := hcreated
      refine .single (((hnext.setLegacyStop none).goto hpc' fun _ => hholder).emit _) rfl ?_
      intro request target hrequest haddress
      have hsame : s.stop = some (some stop) := hstop
      rw [hsame] at hrequest
      cases hrequest
      simp only [retiresAtStartup, Bool.or_eq_true] at hretires
      cases hretires with
      | inl hlegacy =>
        rw [legacyStop_absent hlegacy] at haddress
        cases haddress
      | inr hmatch =>
        rw [haddress] at hmatch
        have htarget := sameStopTarget_to hmatch
        exact ⟨htarget, fun _ hgeneration => takeovers_of_target htaken htarget hgeneration⟩
  | write ino generation =>
    have hholder := htransition rfl
    have hwritten := writeRecord_acting (w := w) h "" hpc
    have hfor : ((writeRecord s p ino generation "" w).files ino).createdFor = some generation :=
      (createdFor_writeRecord ino ino generation "").trans hpc
    simp only [claimStep]
    split
    · exact .single (hwritten.goto hfor fun _ => hholder) rfl (.inr ⟨hat, hfor⟩)
    · have hnext : Acting (rememberClaim (writeRecord s p ino generation "" w) p generation ino)
          p := by
        apply hwritten.setWorker
        constructor
        · intro claim hclaim
          cases hclaim
          exact h.files.drawn ino generation hpc
        · intro claim hclaim _
          cases hclaim
          exact hfor
      exact .single (hnext.leave hholder) rfl (.inr ⟨hat, hfor⟩)
  | undo ino generation =>
    exact removeCreated_sound h hquiet (htransition rfl) hpc (.inr hat)
  | judge attempt takenOver =>
    have hholder := htransition rfl
    simp only [claimStep]
    split
    · exact .quiet (nextAttempt_invariant h hholder attempt hpc)
        ((nextAttempt_effects attempt takenOver).trans hquiet)
    · next existing hread =>
      split
      · exact .quiet (h.leave hholder) hquiet
      · obtain ⟨ino, hino, -⟩ := readText_some hread
        refine .quiet (h.goto ?_ htransition) hquiet
        show s.presence.isSome = true
        rw [hino]
        rfl
  | moveAside attempt staleText =>
    have hholder := htransition rfl
    simp only [claimStep]
    split
    · next hnone =>
      have hthere : s.presence.isSome = true := hpc
      rw [hnone] at hthere
      cases hthere
    · next ino hino =>
      split
      · exact .quiet (h.leave hholder) hquiet
      · exact .quiet ((h.moveAside hholder).goto ⟨rfl, h.files.current ino hino⟩ htransition)
          hquiet
  | compare attempt staleText aside =>
    have hholder := htransition rfl
    obtain ⟨hnone, hcurrent⟩ := hpc
    simp only [claimStep]
    split
    · next hstale =>
      have htext : (s.files aside).text = staleText := by
        simp only [Bool.and_eq_true, decide_eq_true_eq] at hstale
        exact hstale.2
      have hempty : s.presence = none := hnone
      have hnext : Acting (countTakeover s aside) p := by
        refine h.relink (h.alone_of_holder hholder) rfl rfl rfl rfl fun ino hino => ?_
        rw [show (countTakeover s aside).presence = none from hempty] at hino
        cases hino
      exact .quiet (nextAttempt_invariant hnext hholder attempt (takenOver_count h.files htext))
        ((nextAttempt_effects attempt (some staleText)).trans hquiet)
    · exact .quiet (h.goto ⟨hnone, hcurrent⟩ htransition) hquiet
  | linkBack aside =>
    have hholder := htransition rfl
    obtain ⟨hnone, hcurrent⟩ := hpc
    simp only [claimStep]
    split
    · exact .quiet (h.leave hholder) hquiet
    · have hnext : Acting { s with presence := some aside } p := by
        refine h.relink (h.alone_of_holder hholder) rfl rfl rfl rfl fun ino hino => ?_
        cases hino
        exact hcurrent
      exact .quiet (hnext.leave hholder) hquiet

/-! ### The system -/

theorem startOperation_sound (process : WorkerProcess) (operation : Operation) (n : Names) :
    PcSound n process.identity (startOperation process operation) ∧
      (startOperation process operation).inTransition = false := by
  cases operation with
  | claim => exact ⟨trivial, rfl⟩
  | writeStop now => exact ⟨trivial, rfl⟩
  | readStop =>
    simp only [startOperation]
    split <;> exact ⟨trivial, rfl⟩
  | refresh fields =>
    simp only [startOperation]
    split
    · next claim hclaim =>
      split
      · exact ⟨trivial, rfl⟩
      · next hunretired => exact ⟨⟨claim, hclaim, Bool.eq_false_iff.mpr hunretired⟩, rfl⟩
    · exact ⟨trivial, rfl⟩
  | release =>
    simp only [startOperation]
    split
    · next claim hclaim =>
      split
      · exact ⟨trivial, rfl⟩
      · next hunretired => exact ⟨⟨claim, hclaim, Bool.eq_false_iff.mpr hunretired⟩, rfl⟩
    · exact ⟨trivial, rfl⟩

theorem call_invariant (h : OwnershipInvariant s) (operation : Operation) :
    OwnershipInvariant ({ s with started := p :: s.started }.setPc p
      (startOperation (s.worker p) operation)) := by
  obtain ⟨hpc, hout⟩ := startOperation_sound (s.worker p) operation s.names
  have hnext : Acting { s with started := p :: s.started } p := by
    refine ⟨⟨h.files.text, h.files.drawn, h.files.current⟩, fun q _ => ?_,
      ⟨(h.processes p).identity.drawn, (h.processes p).identity.ino⟩, List.mem_cons_self⟩
    have hq := h.processes q
    exact ⟨⟨hq.identity.drawn, hq.identity.ino⟩,
      fun hbusy => List.mem_cons_of_mem _ (hq.started hbusy), hq.pc, hq.transition⟩
  refine hnext.goto hpc fun hin => ?_
  rw [hout] at hin
  cases hin

/-- A process that dies leaves its files behind and drops its lock. -/
theorem crash_invariant (h : OwnershipInvariant s) :
    OwnershipInvariant ({ s with
      holder := if s.holder = some p then none else s.holder }.setWorker p .initial) where
  files := ⟨h.files.text, h.files.drawn, h.files.current⟩
  processes := by
    intro q
    by_cases heq : q = p
    · have hgone : ({ s with
          holder := if s.holder = some p then none else s.holder }.setWorker p .initial).worker q
          = .initial := by rw [heq, setWorker_self]
      constructor
      · rw [WorkersState.identity, hgone]
        constructor <;> (intro _ hnone; cases hnone)
      · rw [WorkersState.identity, hgone]
        rintro (hbusy | hclaim)
        · exact absurd rfl hbusy
        · exact absurd rfl hclaim
      · rw [hgone]
        trivial
      · rw [hgone]
        intro hin
        cases hin
    · have hq := h.processes q
      have hsame : ({ s with
          holder := if s.holder = some p then none else s.holder }.setWorker p .initial).worker q
          = s.worker q := setWorker_other heq _
      constructor
      · rw [WorkersState.identity, hsame]
        exact ⟨hq.identity.drawn, hq.identity.ino⟩
      · rw [WorkersState.identity, hsame]
        exact hq.started
      · rw [WorkersState.identity, hsame]
        exact hq.pc
      · rw [hsame]
        intro hin
        have hholder := hq.transition hin
        rw [if_neg]
        · exact hholder
        · rw [hholder]
          intro hsome
          exact heq (Option.some.inj hsome)

theorem StepSound.of_quiet (h : StepSound { s with effects := [] } s') : StepSound s s' := by
  refine ⟨h.invariant, fun effect heffect => ?_⟩
  have hsound := h.effects effect heffect
  cases effect <;> exact hsound

theorem workersStep_sound (event : WorkerEvent) (h : OwnershipInvariant s)
    (hfresh : freshInode s event = true) : StepSound s (workersStep s event) := by
  have hquiet : OwnershipInvariant { s with effects := [] } := h.withEffects []
  cases event with
  | call p operation =>
    simp only [workersStep]
    split
    · exact .quiet (call_invariant hquiet operation) rfl
    · exact .quiet hquiet rfl
  | crash p => exact .quiet (crash_invariant hquiet) rfl
  | step p w =>
    have hp := h.processes p
    have hpc := hp.pc
    have htransition := hp.transition
    simp only [workersStep]
    cases hat : (s.worker p).pc with
    | idle => exact .quiet hquiet rfl
    | claim pc =>
      rw [hat] at hpc htransition
      have hbusy : (s.worker p).pc ≠ .idle := by
        rw [hat]
        exact nofun
      refine (claimStep_sound (w := w) (hquiet.acting hbusy) rfl hpc hat htransition ?_).of_quiet
      rintro attempt takenOver rfl q hq
      simp only [freshInode, hat, Bool.not_eq_true', List.any_eq_false] at hfresh
      exact Bool.eq_false_iff.mpr (hfresh q hq)
    | refresh pc =>
      rw [hat] at hpc htransition
      have hbusy : (s.worker p).pc ≠ .idle := by
        rw [hat]
        exact nofun
      refine (refreshStep_sound (w := w) (hquiet.acting hbusy) rfl hpc htransition ?_).of_quiet
      rintro fields rfl q hne hq
      simp only [freshInode, hat, Bool.not_eq_true', List.any_eq_false] at hfresh
      have hforgotten : remembersInode s w.ino q = false := by
        simpa [hne] using hfresh q hq
      exact hforgotten
    | release pc =>
      rw [hat] at hpc htransition
      have hbusy : (s.worker p).pc ≠ .idle := by
        rw [hat]
        exact nofun
      exact (releaseStep_sound (w := w) (hquiet.acting hbusy) rfl hpc htransition).of_quiet
    | writeStop pc =>
      rw [hat] at hpc htransition
      have hbusy : (s.worker p).pc ≠ .idle := by
        rw [hat]
        exact nofun
      exact (writeStopStep_sound (w := w) (hquiet.acting hbusy) rfl hpc htransition).of_quiet
    | readStop pc =>
      have hbusy : (s.worker p).pc ≠ .idle := by
        rw [hat]
        exact nofun
      exact (readStopStep_sound (w := w) (hquiet.acting hbusy) rfl pc).of_quiet

end Steps

theorem OwnershipInvariant.of_initial {s : WorkersState} (h : BeforeWorkers s) :
    OwnershipInvariant s where
  files := h.files
  processes := by
    intro p
    have hinitial := h.workers p
    constructor
    · rw [WorkersState.identity, hinitial]
      constructor <;> (intro _ hnone; cases hnone)
    · rw [WorkersState.identity, hinitial]
      rintro (hbusy | hclaim)
      · exact absurd rfl hbusy
      · exact absurd rfl hclaim
    · rw [hinitial]
      trivial
    · rw [hinitial]
      intro hin
      cases hin

/-! ### Every run -/

/-- In every run where a new presence file does not get an inode number that a standing
claim remembers: a refresh succeeds only on a file of its own generation that was created
after the last takeover of that generation; a worker writes and removes only files of its
own generation; and a stop request for one generation is obeyed, replaced and deleted only
for that generation. -/
theorem presence_single_owner (s : WorkersState) (before : BeforeWorkers s)
    (events : List WorkerEvent)
    (fresh : Along workersStep (fun s event => freshInode s event = true) s events) :
    Along workersStep OwnershipStep s events :=
  fresh.of_invariant (fun _ event h hfresh => (workersStep_sound event h hfresh).invariant)
    (fun _ event h hfresh => (workersStep_sound event h hfresh).effects) (.of_initial before)

/-! ### A worker that comes back -/

/-- What would have to hold if a generation that was taken over never had its presence
again. -/
def EffectPromised (s s' : WorkersState) : WorkerEffect → Prop
  | .refreshed _ generation => s'.takeovers generation = 0
  | effect => EffectSound s s' effect

def PromisedStep (s : WorkersState) (event : WorkerEvent) : Prop :=
  ∀ effect ∈ (workersStep s event).effects, EffectPromised s (workersStep s event) effect

def noWorkers : WorkersState where
  projectKey := "project"
  holder := none
  presence := none
  stop := none
  files := fun _ => ⟨.unreadable "", none, 0⟩
  worker := fun _ => .initial
  started := []
  drawn := []
  takeovers := fun _ => 0
  effects := []

theorem noWorkers_beforeWorkers : BeforeWorkers noWorkers where
  files := ⟨fun _ _ hrecord => (by cases hrecord), fun _ _ hcreated => (by cases hcreated),
    fun _ hpresence => (by cases hpresence)⟩
  workers := fun _ => rfl

def stalledWorker : Worker := ⟨100, "first"⟩
def nextWorker : Worker := ⟨200, "second"⟩

/-- Calls that succeed at a time, with the inode and the generation of a file they create. -/
def callAt (now ino : Nat) (generation : String) : StepWorld where
  fails := false
  unreadable := false
  now := now
  modifiedMs := 0
  pidAlive := true
  ino := ino
  generation := generation
  startedAt := ""
  requestedAt := ""

/-- `count` calls of a worker. -/
def calls (worker : Worker) (w : StepWorld) (count : Nat) : List WorkerEvent :=
  List.replicate count (.step worker w)

/-- The first worker claims and stalls; eleven minutes later the second one takes its file
over and has created its own, on the inode `ino`. -/
def takeover (ino : Nat) : List WorkerEvent :=
  [.call stalledWorker .claim] ++ calls stalledWorker (callAt 0 1 "generation-1") 4
    ++ [.call nextWorker .claim] ++ calls nextWorker (callAt 660000 ino "generation-2") 6

/-- The second worker finishes and releases; the first one refreshes. -/
def returnAfterRelease : List WorkerEvent :=
  takeover 2 ++ calls nextWorker (callAt 660000 2 "") 2
    ++ [.call nextWorker .release] ++ calls nextWorker (callAt 670000 2 "") 4
    ++ [.call stalledWorker (.refresh "")] ++ calls stalledWorker (callAt 680000 3 "") 4

/-- The first worker refreshes before the second one has written its record, which is on the
inode that the first one remembers. -/
def returnOnReusedInode : List WorkerEvent :=
  takeover 1 ++ [.call stalledWorker (.refresh "")] ++ calls stalledWorker (callAt 660000 3 "") 3

theorem presence_single_owner_of_return :
    Along workersStep OwnershipStep noWorkers (returnAfterRelease ++
      calls stalledWorker (callAt 680000 3 "") 1) :=
  presence_single_owner noWorkers noWorkers_beforeWorkers _ (by decide)

/-- A worker whose file was taken over creates it again once the new owner has released
its own, and its refresh succeeds; and on a reused inode it overwrites the new owner's file,
so the inodes matter as well. -/
theorem presence_single_owner_fails :
    (¬ ∀ s, BeforeWorkers s → ∀ events, Along workersStep PromisedStep s events) ∧
      ¬ ∀ s, BeforeWorkers s → ∀ events, Along workersStep OwnershipStep s events := by
  constructor
  · intro h
    have hrun := h noWorkers noWorkers_beforeWorkers (returnAfterRelease ++
      calls stalledWorker (callAt 680000 3 "") 1)
    rw [along_append] at hrun
    have hnever : (workersStep (run workersStep noWorkers returnAfterRelease)
        (.step stalledWorker (callAt 680000 3 ""))).takeovers "generation-1" = 0 :=
      hrun.2.1 (.refreshed stalledWorker "generation-1") (by decide)
    revert hnever
    decide
  · intro h
    have hrun := h noWorkers noWorkers_beforeWorkers (returnOnReusedInode ++
      calls stalledWorker (callAt 660000 3 "") 1)
    rw [along_append] at hrun
    have hlast := hrun.2.1 (.wrote stalledWorker "generation-1" 1) (by decide)
    rcases hlast with ⟨-, hcreated⟩ | ⟨hpc, -⟩
    · revert hcreated
      decide
    · revert hpc
      decide

end AgentBridge.Workers
