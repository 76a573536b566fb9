import AgentBridge.Systems.Program

/-!
# Replacing the Claude Code entry

`claude mcp add-json` refuses a name that exists, so an update of the entry is a remove and an
add, with the previous entry in a recovery file meanwhile. A CLI call takes full effect or none
and reports any exit status; a run may be cut off before any of its commands.
-/

namespace AgentBridge.Release

open Systems

structure CodexEntry where
  command : String
  args : List String
  env : List (String × String)

structure ClaudeEntry where
  type : Option String
  command : Option String
  args : Option (List String)
  env : Option (List (String × String))
  kept : List (String × String)

def claudeEntryFor (codexEntry : CodexEntry) (current : ClaudeEntry) : ClaudeEntry :=
  { current with
    type := some "stdio"
    command := some codexEntry.command
    args := some codexEntry.args
    env := some codexEntry.env }

/-- `left?.type || "stdio"` -/
def ClaudeEntry.transport (entry : ClaudeEntry) : String :=
  (entry.type.filter (· ≠ "")).getD "stdio"

def sameClaudeEntry (left right : ClaudeEntry) : Bool :=
  left.transport = right.transport && left.command = right.command &&
    left.args.getD [] = right.args.getD [] &&
    (left.env.getD []).isPerm (right.env.getD [])

/-! ## The commands -/

/-- What the CLI was asked to do, what it reported, and whether the config has an entry since. -/
inductive CliCall where
  | started
  | added (entry : ClaudeEntry) (reported present : Bool)
  | removed (reported : Bool)

structure ClaudeState where
  /-- The entry of the user config. -/
  entry : Option ClaudeEntry
  /-- The entry in the recovery file. -/
  saved : Option ClaudeEntry
  codexEntry : CodexEntry
  /-- The CLI calls of all runs, the latest first. -/
  calls : List CliCall

/-- How one command ends: whether a CLI call takes effect, and whether the command succeeds. -/
structure SyncEnv where
  effect : Bool
  succeeds : Bool

inductive SyncCommand where
  | readClaudeUserEntry
  | readSavedClaudeEntry
  | addJson (entry : ClaudeEntry)
  | remove
  | loadMcpEntry
  /-- The staged write of the recovery file and its rename. -/
  | writeRecovery (entry : ClaudeEntry)
  | rmRecovery

def SyncReply : SyncCommand → Type
  | .readClaudeUserEntry => Option (Option ClaudeEntry)
  | .readSavedClaudeEntry => Option ClaudeEntry
  | .addJson _ | .remove | .writeRecovery _ => Bool
  | .loadMcpEntry => CodexEntry
  | .rmRecovery => Unit

/-- A config that cannot be read answers `none`. -/
def perform (env : SyncEnv) (s : ClaudeState) :
    (command : SyncCommand) → ClaudeState × Except Unit (SyncReply command)
  | .readClaudeUserEntry => (s, .ok (if env.succeeds then some s.entry else none))
  | .readSavedClaudeEntry => (s, .ok (if env.succeeds then s.saved else none))
  | .addJson entry =>
    let current := if env.effect then s.entry.or (some entry) else s.entry
    ({ s with
        entry := current
        calls := .added entry env.succeeds current.isSome :: s.calls }, .ok env.succeeds)
  | .remove =>
    ({ s with
        entry := if env.effect then none else s.entry
        calls := .removed env.succeeds :: s.calls }, .ok env.succeeds)
  | .loadMcpEntry => (s, if env.succeeds then .ok s.codexEntry else .error ())
  | .writeRecovery entry =>
    ({ s with saved := if env.succeeds || env.effect then some entry else s.saved },
      .ok env.succeeds)
  | .rmRecovery =>
    ({ s with saved := if env.succeeds || env.effect then none else s.saved },
      if env.succeeds then .ok () else .error ())

abbrev SyncAction : Type → Type := Procedure SyncCommand SyncReply Unit Unit

def issue (command : SyncCommand) : SyncAction (SyncReply command) :=
  Procedure.call command

/-! ## The update -/

inductive SyncMessage where
  | executableNotFound
  | configUnreadable
  | noEntry
  | readdingSavedFailed
  | savedNotRestored
  | alreadyMatches
  | recoveryNotSaved
  | removeFailed (missing : Bool)
  | addFailed (previousRestored : Bool)
  | newEntryNotHeld
  | updated

structure SyncResult where
  ok : Bool
  updated : Bool
  message : SyncMessage

def fail (message : SyncMessage) : SyncAction SyncResult :=
  pure ⟨false, false, message⟩

/-- `syncClaudeCodeEntry` from its last reading of the config on. -/
def confirmEntry (desired : ClaudeEntry) : SyncAction SyncResult := do
  let after ← issue .readClaudeUserEntry
  let result : SyncResult :=
    if after.join.any (sameClaudeEntry · desired) then ⟨true, true, .updated⟩
    else ⟨false, false, .newEntryNotHeld⟩
  if after.join.isSome then do
    issue .rmRecovery
    pure result
  else
    pure result

/-- `syncClaudeCodeEntry` from the deletion of the recovery file on. -/
def replaceEntry (current : ClaudeEntry) : SyncAction SyncResult := do
  issue .rmRecovery
  let codexEntry ← issue .loadMcpEntry
  let desired := claudeEntryFor codexEntry current
  if sameClaudeEntry current desired then
    pure ⟨true, false, .alreadyMatches⟩
  else do
    let written : Bool ← issue (.writeRecovery current)
    if !written then
      fail .recoveryNotSaved
    else do
      let removed : Bool ← issue .remove
      if !removed then do
        let left ← issue .readClaudeUserEntry
        if left.join.isSome then do
          issue .rmRecovery
          fail (.removeFailed false)
        else
          fail (.removeFailed true)
      else do
        let added : Bool ← issue (.addJson desired)
        if !added then do
          let restored : Bool ← issue (.addJson current)
          if restored then do
            issue .rmRecovery
            fail (.addFailed true)
          else
            fail (.addFailed false)
        else
          confirmEntry desired

/-- The mode of `syncClaudeCodeEntry` that uses the CLI; `claude` is whether it was found. -/
def syncClaudeCodeEntry (claude : Bool) : SyncAction SyncResult :=
  if claude then do
    let current ← issue .readClaudeUserEntry
    match current with
    | none => fail .configUnreadable
    | some (some entry) => replaceEntry entry
    | some none => do
      let saved ← issue .readSavedClaudeEntry
      match saved with
      | none => fail .noEntry
      | some saved => do
        let restored : Bool ← issue (.addJson saved)
        if !restored then
          fail .readdingSavedFailed
        else do
          let current ← issue .readClaudeUserEntry
          match current.join with
          | some entry =>
            if sameClaudeEntry entry saved then replaceEntry entry
            else fail .savedNotRestored
          | none => fail .savedNotRestored
  else
    fail .executableNotFound

/-! ## One run -/

structure SyncRun where
  claude : Bool
  codexEntry : CodexEntry
  /-- How its commands end; a run with fewer of them is cut off. -/
  envs : List SyncEnv

def SyncRun.begin (r : SyncRun) (s : ClaudeState) : ClaudeState :=
  { s with codexEntry := r.codexEntry, calls := .started :: s.calls }

def SyncRun.run (r : SyncRun) (s : ClaudeState) : ClaudeState × Option (Except Unit SyncResult) :=
  let outcome := (syncClaudeCodeEntry r.claude ()).run perform (r.begin s) r.envs
  (outcome.1, outcome.2.map (·.1))

def CliCall.failedAdd : CliCall → Bool
  | .added _ false _ => true
  | _ => false

/-- A success is reported, but the config has no entry. -/
def CliCall.emptyAdd : CliCall → Bool
  | .added _ true false => true
  | _ => false

/-- An `add-json` right after one that failed reports no success that leaves the config without
an entry. -/
def Truthful (calls : List CliCall) : Prop :=
  calls.IsChain fun later earlier => ¬(later.emptyAdd ∧ earlier.failedAdd)

instance (calls : List CliCall) : Decidable (Truthful calls) :=
  inferInstanceAs (Decidable (calls.IsChain _))

/-- The entry that a run starts from. -/
def ClaudeState.previous (s : ClaudeState) : Option ClaudeEntry :=
  s.entry.or s.saved

def Holds (entry : ClaudeEntry) (s : ClaudeState) : Prop :=
  s.entry = some entry ∨ s.saved = some entry

variable {s : ClaudeState} {previous desired saved : ClaudeEntry} {r : SyncRun}

/-- The previous or the desired entry is in the config or in the recovery file. -/
def Kept (codexEntry : CodexEntry) (previous : ClaudeEntry) (s : ClaudeState) : Prop :=
  Holds previous s ∨ Holds (claudeEntryFor codexEntry previous) s

/-- Where the calls were truthful so far, nothing is lost. -/
def Safe (codexEntry : CodexEntry) (previous : ClaudeEntry) (s : ClaudeState) : Prop :=
  s.codexEntry = codexEntry ∧ (Truthful s.calls → Kept codexEntry previous s)

variable {codexEntry : CodexEntry}

theorem Safe.of_entry (hcodex : s.codexEntry = codexEntry) (h : s.entry = some previous) :
    Safe codexEntry previous s :=
  ⟨hcodex, fun _ => .inl (.inl h)⟩

theorem Safe.of_saved (hcodex : s.codexEntry = codexEntry) (h : s.saved = some previous) :
    Safe codexEntry previous s :=
  ⟨hcodex, fun _ => .inl (.inr h)⟩

section

variable {before : ClaudeState → Prop} {failed : Unit → Unit → ClaudeState → Prop}

theorem wp_readClaudeUserEntry
    {returned : Option (Option ClaudeEntry) → Unit → ClaudeState → Prop} (h : before s)
    (hunread : returned none () s) (hread : returned (some s.entry) () s) :
    (issue .readClaudeUserEntry).wp perform before returned failed () s := by
  refine (Procedure.wp_call _).mpr ⟨h, fun env => ?_⟩
  cases hsucceeds : env.succeeds <;> simpa [perform, hsucceeds]

theorem wp_readSavedClaudeEntry
    {returned : Option ClaudeEntry → Unit → ClaudeState → Prop} (h : before s)
    (hunread : returned none () s) (hread : returned s.saved () s) :
    (issue .readSavedClaudeEntry).wp perform before returned failed () s := by
  refine (Procedure.wp_call _).mpr ⟨h, fun env => ?_⟩
  cases hsucceeds : env.succeeds <;> simpa [perform, hsucceeds]

theorem wp_addJson {entry : ClaudeEntry} {returned : Bool → Unit → ClaudeState → Prop}
    (h : before s)
    (hreturned : ∀ current reported, current = s.entry ∨ current = s.entry.or (some entry) →
      returned reported () { s with
        entry := current
        calls := .added entry reported current.isSome :: s.calls }) :
    (issue (.addJson entry)).wp perform before returned failed () s := by
  refine (Procedure.wp_call _).mpr ⟨h, fun env => hreturned _ _ ?_⟩
  cases env.effect
  · exact .inl rfl
  · exact .inr rfl

theorem wp_remove {returned : Bool → Unit → ClaudeState → Prop} (h : before s)
    (hreturned : ∀ current reported, current = s.entry ∨ current = none →
      returned reported () { s with
        entry := current
        calls := .removed reported :: s.calls }) :
    (issue .remove).wp perform before returned failed () s := by
  refine (Procedure.wp_call _).mpr ⟨h, fun env => hreturned _ _ ?_⟩
  cases env.effect
  · exact .inl rfl
  · exact .inr rfl

theorem wp_writeRecovery {entry : ClaudeEntry} {returned : Bool → Unit → ClaudeState → Prop}
    (h : before s) (hwritten : returned true () { s with saved := some entry })
    (hfailed : ∀ saved, returned false () { s with saved := saved }) :
    (issue (.writeRecovery entry)).wp perform before returned failed () s := by
  refine (Procedure.wp_call _).mpr ⟨h, fun env => ?_⟩
  cases hsucceeds : env.succeeds
  · simpa [perform, hsucceeds] using hfailed _
  · simpa [perform, hsucceeds] using hwritten

theorem wp_rmRecovery {returned : Unit → Unit → ClaudeState → Prop} (h : before s)
    (hremoved : ∀ saved, returned () () { s with saved := saved })
    (hfailed : ∀ saved, failed () () { s with saved := saved }) :
    (issue .rmRecovery).wp perform before returned failed () s := by
  refine (Procedure.wp_call _).mpr ⟨h, fun env => ?_⟩
  cases hsucceeds : env.succeeds
  · simpa [perform, hsucceeds] using hfailed _
  · simpa [perform, hsucceeds] using hremoved _

theorem wp_loadMcpEntry {returned : CodexEntry → Unit → ClaudeState → Prop} (h : before s)
    (hloaded : returned s.codexEntry () s) (hfailed : failed () () s) :
    (issue .loadMcpEntry).wp perform before returned failed () s := by
  refine (Procedure.wp_call _).mpr ⟨h, fun env => ?_⟩
  cases hsucceeds : env.succeeds
  · simpa [perform, hsucceeds] using hfailed
  · simpa [perform, hsucceeds] using hloaded

end

/-- Wherever the procedure ends nothing is lost, and an update is reported of the desired entry
only. -/
def Updates (codexEntry : CodexEntry) (previous : ClaudeEntry) (m : SyncAction SyncResult)
    (s : ClaudeState) : Prop :=
  m.wp perform (Safe codexEntry previous)
    (fun result _ s => Safe codexEntry previous s ∧
      (result.updated = true → s.entry = some (claudeEntryFor codexEntry previous)))
    (fun _ _ s => Safe codexEntry previous s) () s

theorem updates_fail (h : Safe codexEntry previous s) (message : SyncMessage) :
    Updates codexEntry previous (fail message) s :=
  ⟨h, nofun⟩

/-- After a failed `add-json` the restored entry is there when its success is reported. -/
theorem Truthful.present {entry entry' : ClaudeEntry} {present present' : Bool}
    {calls : List CliCall}
    (h : Truthful (.added entry true present :: .added entry' false present' :: calls)) :
    present = true := by
  have hpair := (List.isChain_cons_cons.mp h).1
  cases present with
  | true => rfl
  | false => exact absurd ⟨rfl, rfl⟩ hpair

/-- The `add-json` of the desired entry failed. -/
theorem updates_restore {present : Bool} {calls : List CliCall}
    (hcodex : s.codexEntry = codexEntry) (hsaved : s.saved = some previous)
    (hcalls : s.calls = .added (claudeEntryFor codexEntry previous) false present :: calls)
    (hentry : s.entry = none ∨ s.entry = some previous ∨
      s.entry = some (claudeEntryFor codexEntry previous)) :
    Updates codexEntry previous (do
      let restored : Bool ← issue (.addJson previous)
      if restored then do
        issue .rmRecovery
        fail (.addFailed true)
      else
        fail (.addFailed false)) s := by
  have hkept : ∀ entry calls, Safe codexEntry previous { s with
      entry := entry
      calls := calls } := fun _ _ => .of_saved hcodex hsaved
  refine .bind (wp_addJson (hkept _ _) fun current reported hcurrent => ?_)
  refine .ite (fun hreported => ?_) fun _ => updates_fail (hkept _ _) _
  have hsafe : ∀ saved, Safe codexEntry previous { s with
      entry := current
      saved := saved
      calls := .added previous reported current.isSome :: s.calls } := by
    refine fun saved => ⟨hcodex, fun htruthful => ?_⟩
    rw [hreported, hcalls] at htruthful
    -- The entry is there, so it is one of the two.
    have hpresent := htruthful.present
    rcases hentry with hentry | hentry | hentry <;> rw [hentry] at hcurrent <;>
      rcases hcurrent with rfl | rfl
    · cases hpresent
    · exact .inl (.inl rfl)
    · exact .inl (.inl rfl)
    · exact .inl (.inl rfl)
    · exact .inr (.inl rfl)
    · exact .inr (.inl rfl)
  exact .bind (wp_rmRecovery (hkept _ _) (fun saved => updates_fail (hsafe saved) _)
    hsafe)

/-- The `add-json` of the desired entry was reported as successful. -/
theorem updates_confirmEntry (hcodex : s.codexEntry = codexEntry)
    (hsaved : s.saved = some previous)
    (hdiffers : ¬sameClaudeEntry previous (claudeEntryFor codexEntry previous) = true)
    (hentry : s.entry = none ∨ s.entry = some previous ∨
      s.entry = some (claudeEntryFor codexEntry previous)) :
    Updates codexEntry previous (confirmEntry (claudeEntryFor codexEntry previous)) s := by
  have hkept : Safe codexEntry previous s := .of_saved hcodex hsaved
  refine .bind (wp_readClaudeUserEntry hkept ⟨hkept, nofun⟩ ?_)
  rcases hentry with hentry | hentry | hentry <;> rw [hentry]
  · exact ⟨hkept, nofun⟩
  · have hstill : ∀ saved, Safe codexEntry previous { s with saved := saved } :=
      fun _ => .of_entry hcodex hentry
    refine .bind (wp_rmRecovery hkept (fun saved => ⟨hstill saved, ?_⟩) hstill)
    simp [hdiffers]
  · have hstill : ∀ saved, Safe codexEntry previous { s with saved := saved } :=
      fun _ => ⟨hcodex, fun _ => .inr (.inl hentry)⟩
    exact .bind (wp_rmRecovery hkept (fun saved => ⟨hstill saved, fun _ => hentry⟩) hstill)

theorem updates_replaceEntry (hcodex : s.codexEntry = codexEntry)
    (hentry : s.entry = some previous) :
    Updates codexEntry previous (replaceEntry previous) s := by
  have hkept : ∀ saved, Safe codexEntry previous { s with saved := saved } :=
    fun _ => .of_entry hcodex hentry
  refine .bind (wp_rmRecovery (hkept _) (fun saved => ?_) hkept)
  refine .bind (wp_loadMcpEntry (hkept _) ?_ (hkept _))
  refine .ite (fun _ => ⟨hkept _, nofun⟩) fun hdiffers => ?_
  refine .bind (wp_writeRecovery (hkept _) ?_ fun _ => updates_fail (hkept _) _)
  refine .bind (wp_remove (hkept _) fun current removed hcurrent => ?_)
  have hsafe : ∀ current calls, Safe codexEntry previous { s with
      entry := current
      saved := some previous
      calls := calls } := fun _ _ => .of_saved hcodex rfl
  have hcurrent : current = none ∨ current = some previous :=
    hcurrent.symm.imp_right fun h => h.trans hentry
  cases removed with
  | false =>
    refine .bind (wp_readClaudeUserEntry (hsafe _ _) (updates_fail (hsafe _ _) _) ?_)
    refine .ite (fun hleft => ?_) fun _ => updates_fail (hsafe _ _) _
    have hleft : current = some previous := by
      rcases hcurrent with rfl | rfl
      · cases hleft
      · rfl
    have hthere : ∀ saved calls, Safe codexEntry previous { s with
        entry := current
        saved := saved
        calls := calls } := fun _ _ => .of_entry hcodex hleft
    exact .bind (wp_rmRecovery (hsafe _ _) (fun _ => updates_fail (hthere _ _) _)
      fun _ => hthere _ _)
  | true =>
    refine .bind (wp_addJson (hsafe _ _) fun current' added hadded => ?_)
    have hentry' : current' = none ∨ current' = some previous ∨
        current' = some (claudeEntryFor codexEntry previous) := by
      subst hcodex
      rcases hcurrent with rfl | rfl <;> rcases hadded with rfl | rfl
      · exact .inl rfl
      · exact .inr (.inr rfl)
      · exact .inr (.inl rfl)
      · exact .inr (.inl rfl)
    cases added with
    | false =>
      subst hcodex
      exact updates_restore rfl rfl rfl hentry'
    | true =>
      subst hcodex
      exact updates_confirmEntry rfl rfl hdiffers hentry'

theorem updates_syncClaudeCodeEntry (claude : Bool) (hcodex : s.codexEntry = codexEntry)
    (hprevious : s.previous = some previous) :
    Updates codexEntry previous (syncClaudeCodeEntry claude) s := by
  rw [ClaudeState.previous] at hprevious
  cases hentry : s.entry with
  | some entry =>
    rw [hentry] at hprevious
    cases hprevious
    have hsafe : Safe codexEntry previous s := .of_entry hcodex hentry
    refine .ite (fun _ => ?_) fun _ => updates_fail hsafe _
    refine .bind (wp_readClaudeUserEntry hsafe (updates_fail hsafe _) ?_)
    rw [hentry]
    exact updates_replaceEntry hcodex hentry
  | none =>
    rw [hentry] at hprevious
    have hkept : ∀ entry calls, Safe codexEntry previous { s with
        entry := entry
        calls := calls } := fun _ _ => .of_saved hcodex hprevious
    refine .ite (fun _ => ?_) fun _ => updates_fail (hkept _ _) _
    refine .bind (wp_readClaudeUserEntry (hkept _ _) (updates_fail (hkept _ _) _) ?_)
    rw [hentry]
    refine .bind (wp_readSavedClaudeEntry (hkept _ _) (updates_fail (hkept _ _) _) ?_)
    rw [show s.saved = some previous from hprevious]
    refine .bind (wp_addJson (hkept _ _) fun current restored hcurrent => ?_)
    refine .ite (fun _ => updates_fail (hkept _ _) _) fun _ => ?_
    refine .bind (wp_readClaudeUserEntry (hkept _ _) (updates_fail (hkept _ _) _) ?_)
    rw [hentry] at hcurrent
    -- What is read back is the saved entry or none.
    rcases hcurrent with rfl | rfl
    · exact updates_fail (hkept _ _) _
    · exact .ite (fun _ => updates_replaceEntry hcodex rfl) fun _ => updates_fail (hkept _ _) _

/-! ## Many runs -/

/-- From an entry that is missing next to a recovery file, the first CLI call of a run adds the
saved entry again, and nothing has changed before it. -/
def RestoresFirst (before : ClaudeState) (saved : ClaudeEntry) (now : ClaudeState) : Prop :=
  (now.entry = none ∧ now.saved = some saved ∧ now.calls = .started :: before.calls) ∨
    ∃ later reported present,
      now.calls = later ++ .added saved reported present :: .started :: before.calls

theorem calls_perform (env : SyncEnv) (s : ClaudeState) (command : SyncCommand) :
    ∃ later, (perform env s command).1.calls = later ++ s.calls := by
  cases command with
  | addJson | remove => exact ⟨[_], rfl⟩
  | _ => exact ⟨[], rfl⟩

variable {before : ClaudeState}

/-- The calls of a run stay as they were. -/
theorem wp_readded {reported present : Bool} (m : SyncAction SyncResult)
    (hcalls : s.calls = .added saved reported present :: .started :: before.calls) :
    m.wp perform (RestoresFirst before saved) (fun _ _ => RestoresFirst before saved)
      (fun _ _ => RestoresFirst before saved) () s := by
  have hstep : ∀ env s command,
      (∃ later, s.calls = later ++ .added saved reported present :: .started :: before.calls) →
      ∃ later, (perform env s command).1.calls =
        later ++ .added saved reported present :: .started :: before.calls := by
    rintro env s command ⟨later, hlater⟩
    obtain ⟨more, hmore⟩ := calls_perform env s command
    exact ⟨more ++ later, by rw [hmore, hlater, List.append_assoc]⟩
  refine Procedure.wp_consequence (Procedure.wp_invariant hstep m ⟨[], hcalls⟩) ?_ ?_ ?_
  · exact fun _ ⟨later, h⟩ => .inr ⟨later, reported, present, h⟩
  · exact fun _ _ _ ⟨later, h⟩ => .inr ⟨later, reported, present, h⟩
  · exact fun _ _ _ ⟨later, h⟩ => .inr ⟨later, reported, present, h⟩

theorem wp_restoresFirst (claude : Bool) (hentry : s.entry = none)
    (hsaved : s.saved = some saved) (hcalls : s.calls = .started :: before.calls) :
    (syncClaudeCodeEntry claude).wp perform (RestoresFirst before saved)
      (fun _ _ => RestoresFirst before saved) (fun _ _ => RestoresFirst before saved) () s := by
  have hquiet : RestoresFirst before saved s := .inl ⟨hentry, hsaved, hcalls⟩
  refine .ite (fun _ => ?_) fun _ => hquiet
  refine .bind (wp_readClaudeUserEntry hquiet hquiet ?_)
  rw [hentry]
  refine .bind (wp_readSavedClaudeEntry hquiet hquiet ?_)
  rw [hsaved]
  exact .bind (wp_addJson hquiet fun _ _ _ => wp_readded _ (by rw [hcalls]))

theorem of_run {returned : SyncResult → ClaudeState → Prop} {always : ClaudeState → Prop}
    (h : (syncClaudeCodeEntry r.claude).wp perform always
      (fun result _ s => always s ∧ returned result s) (fun _ _ => always) () (r.begin s)) :
    always (r.run s).1 ∧
      ∀ result, (r.run s).2 = some (.ok result) → returned result (r.run s).1 := by
  unfold SyncRun.run
  cases hrun : (syncClaudeCodeEntry r.claude ()).run perform (r.begin s) r.envs with
  | mk s' outcome =>
    cases outcome with
    | none => exact ⟨Program.wp_interrupted _ h hrun, nofun⟩
    | some outcome =>
      have hended := Program.wp_returned _ h hrun
      obtain ⟨outcome, ⟨⟩⟩ := outcome
      cases outcome with
      | error error => exact ⟨hended, nofun⟩
      | ok result =>
        refine ⟨hended.1, fun result' hresult => ?_⟩
        cases hresult
        exact hended.2

/-- Without an entry and a recovery file nothing is updated. -/
theorem wp_missing (claude : Bool) (hentry : s.entry = none) (hsaved : s.saved = none) :
    (syncClaudeCodeEntry claude).wp perform (fun _ => True)
      (fun result _ _ => True ∧ result.updated = false) (fun _ _ _ => True) () s := by
  refine .ite (fun _ => ?_) fun _ => ⟨trivial, rfl⟩
  refine .bind (wp_readClaudeUserEntry trivial ⟨trivial, rfl⟩ ?_)
  rw [hentry]
  refine .bind (wp_readSavedClaudeEntry trivial ⟨trivial, rfl⟩ ?_)
  rw [hsaved]
  exact ⟨trivial, rfl⟩

def afterRuns (start : ClaudeState) (history : List SyncRun) : ClaudeState :=
  history.foldl (fun s r => (r.run s).1) start

/-- What the recovery file is for, at any moment of the last of several runs. -/
structure CrashSafe (start : ClaudeState) (history : List SyncRun) (last : SyncRun) : Prop where
  kept : start.previous ≠ none → ∃ previous, (afterRuns start history).previous = some previous ∧
    Kept last.codexEntry previous (last.run (afterRuns start history)).1
  restored : ∀ saved, (afterRuns start history).entry = none →
    (afterRuns start history).saved = some saved →
    RestoresFirst (afterRuns start history) saved (last.run (afterRuns start history)).1
  updated : ∀ result, (last.run (afterRuns start history)).2 = some (.ok result) →
    result.ok = true → result.updated = true →
    ∃ previous, (afterRuns start history).previous = some previous ∧
      (last.run (afterRuns start history)).1.entry =
        some (claudeEntryFor last.codexEntry previous)

theorem calls_run (r : SyncRun) (s : ClaudeState) :
    ∃ later, (r.run s).1.calls = later ++ s.calls := by
  have hstep : ∀ env s' command, (∃ later, s'.calls = later ++ s.calls) →
      ∃ later, (perform env s' command).1.calls = later ++ s.calls := by
    rintro env s' command ⟨later, hlater⟩
    obtain ⟨more, hmore⟩ := calls_perform env s' command
    exact ⟨more ++ later, by rw [hmore, hlater, List.append_assoc]⟩
  exact Program.run_invariant _ (fun env _ => hstep env) ⟨[.started], rfl⟩

theorem SyncRun.kept (hprevious : s.previous = some previous)
    (htruthful : Truthful (r.run s).1.calls) : Kept r.codexEntry previous (r.run s).1 :=
  (of_run (updates_syncClaudeCodeEntry r.claude rfl hprevious)).1.2 htruthful

theorem Kept.previous_ne_none (h : Kept codexEntry previous s) : s.previous ≠ none := by
  rw [ClaudeState.previous, ne_eq, Option.or_eq_none_iff]
  rcases h with (h | h) | (h | h) <;> simp_all

theorem SyncRun.truthful_before (h : Truthful (r.run s).1.calls) : Truthful s.calls := by
  obtain ⟨later, hlater⟩ := calls_run r s
  rw [hlater] at h
  exact List.IsChain.right_of_append h

theorem previous_afterRuns (history : List SyncRun) (hstart : s.previous ≠ none)
    (htruthful : Truthful (afterRuns s history).calls) : (afterRuns s history).previous ≠ none := by
  induction history using List.reverseRecOn with
  | nil => exact hstart
  | append_singleton history r ih =>
    rw [afterRuns, List.foldl_append] at htruthful ⊢
    have hbefore := ih (SyncRun.truthful_before htruthful)
    obtain ⟨previous, hprevious⟩ := Option.ne_none_iff_exists'.mp hbefore
    exact (SyncRun.kept hprevious htruthful).previous_ne_none

/-- While every `add-json` right after a failed one reports success only with an entry in the
config, replacing the entry is safe wherever its runs are cut off. -/
theorem replacement_crash_safe (start : ClaudeState) (history : List SyncRun) (last : SyncRun)
    (htruthful : Truthful (last.run (afterRuns start history)).1.calls) :
    CrashSafe start history last where
  kept := by
    intro hstart
    have hbefore := previous_afterRuns history hstart (SyncRun.truthful_before htruthful)
    obtain ⟨previous, hprevious⟩ := Option.ne_none_iff_exists'.mp hbefore
    exact ⟨previous, hprevious, SyncRun.kept hprevious htruthful⟩
  restored := by
    intro saved hentry hsaved
    have hwp := wp_restoresFirst last.claude (s := last.begin (afterRuns start history))
      hentry hsaved rfl
    exact (of_run (.mono hwp (fun _ _ _ h => ⟨h, trivial⟩) fun _ _ _ h => h)).1
  updated := by
    intro result hresult _ hupdated
    cases hprevious : (afterRuns start history).previous with
    | none =>
      obtain ⟨hentry, hsaved⟩ := Option.or_eq_none_iff.mp hprevious
      have hmissing := (of_run (wp_missing last.claude hentry hsaved)).2 result hresult
      rw [hmissing] at hupdated
      cases hupdated
    | some previous =>
      have hrun := of_run (updates_syncClaudeCodeEntry last.claude rfl hprevious)
      exact ⟨previous, rfl, hrun.2 result hresult hupdated⟩

/-! ## A lost entry -/

def registered (command : String) : ClaudeEntry :=
  ⟨some "stdio", some command, none, none, []⟩

/-- The remove takes effect, the `add-json` of the new entry fails, and that of the previous one
reports a success that it does not have. -/
def lostUpdate : SyncRun where
  claude := true
  codexEntry := ⟨"new", [], []⟩
  envs := [⟨false, true⟩, ⟨true, true⟩, ⟨true, true⟩, ⟨true, true⟩, ⟨true, true⟩,
    ⟨false, false⟩, ⟨false, true⟩, ⟨true, true⟩]

theorem replacement_loses_entry : ¬∀ start history last, CrashSafe start history last := by
  intro h
  obtain ⟨previous, hprevious, hkept⟩ :=
    (h ⟨some (registered "old"), none, ⟨"old", [], []⟩, []⟩ [] lostUpdate).kept (by decide)
  have hend : (lostUpdate.run ⟨some (registered "old"), none, ⟨"old", [], []⟩, []⟩).1.previous =
      none := by decide
  exact hkept.previous_ne_none hend

/-- Without the false report the previous entry is in the config again. -/
theorem replacement_crash_safe_restored :
    CrashSafe ⟨some (registered "old"), none, ⟨"old", [], []⟩, []⟩ []
      { lostUpdate with envs := lostUpdate.envs.set 6 ⟨true, true⟩ } :=
  replacement_crash_safe _ _ _ (by decide)

end AgentBridge.Release
