import AgentBridge.Journal.Recovery

/-!
# What the commands of a call leave alone

Only the journal transactions change the row of an operation. Every other
procedure keeps it, and changes a file only where the trace shows a write.
-/

namespace AgentBridge.Journal

open Systems List

variable {Local : Type} {instanceId : String} {s s' s'' : Machine}

/-- The events of procedures that write at most `paths`, under the row status
`status`. -/
def JournalEvent.within (paths : List String) (status : Option OperationStatus) :
    JournalEvent → Prop
  | .external _ => True
  | .read _ => True
  | .wrote path under => path ∈ paths ∧ under = status
  | .commitLost _ => False

/-- The event changes what is at the path. -/
def JournalEvent.writes (path : String) : JournalEvent → Prop
  | .external p => p = path
  | .wrote p _ => p = path
  | _ => False

/-- Only files changed, only where an event of the trace says so, and the bridge
wrote at most `paths`. -/
structure Writes (paths : List String) (s s' : Machine) : Prop where
  operation : s'.operation = s.operation
  trace : ∃ events, s'.trace = events ++ s.trace ∧
    (∀ event ∈ events, event.within paths s.status) ∧
    ∀ path, (∀ event ∈ events, ¬event.writes path) → s'.files path = s.files path

/-- Only the environment did something. -/
structure Interfered (s s' : Machine) : Prop where
  operation : s'.operation = s.operation
  trace : ∃ events, s'.trace = events ++ s.trace ∧
    (∀ event ∈ events, ∃ path, event = .external path) ∧
    ∀ path, .external path ∉ events → s'.files path = s.files path

theorem Writes.refl (paths : List String) (s : Machine) : Writes paths s s :=
  ⟨rfl, [], rfl, by simp, fun _ _ => rfl⟩

theorem Interfered.refl (s : Machine) : Interfered s s :=
  ⟨rfl, [], rfl, by simp, fun _ _ => rfl⟩

theorem Writes.status {paths : List String} (h : Writes paths s s') : s'.status = s.status := by
  simp [Machine.status, h.operation]

theorem Interfered.status (h : Interfered s s') : s'.status = s.status := by
  simp [Machine.status, h.operation]

theorem Writes.trans {paths : List String} (h : Writes paths s s') (h' : Writes paths s' s'') :
    Writes paths s s'' := by
  have ⟨events, htrace, hwithin, hfiles⟩ := h.trace
  have ⟨events', htrace', hwithin', hfiles'⟩ := h'.trace
  refine ⟨h'.operation.trans h.operation, events' ++ events, ?_, ?_, ?_⟩
  · rw [htrace', htrace, append_assoc]
  · intro event hevent
    cases mem_append.mp hevent with
    | inl hnew => exact h.status ▸ hwithin' event hnew
    | inr hold => exact hwithin event hold
  · intro path hpath
    have hnew := hfiles' path fun event hevent => hpath event (mem_append_left _ hevent)
    have hold := hfiles path fun event hevent => hpath event (mem_append_right _ hevent)
    exact hnew.trans hold

theorem Interfered.trans (h : Interfered s s') (h' : Interfered s' s'') : Interfered s s'' := by
  have ⟨events, htrace, hexternal, hfiles⟩ := h.trace
  have ⟨events', htrace', hexternal', hfiles'⟩ := h'.trace
  refine ⟨h'.operation.trans h.operation, events' ++ events, ?_, ?_, ?_⟩
  · rw [htrace', htrace, append_assoc]
  · intro event hevent
    cases mem_append.mp hevent with
    | inl hnew => exact hexternal' event hnew
    | inr hold => exact hexternal event hold
  · intro path hpath
    have hnew := hfiles' path fun h => hpath (mem_append_left _ h)
    have hold := hfiles path fun h => hpath (mem_append_right _ h)
    exact hnew.trans hold

theorem Interfered.writes (paths : List String) (h : Interfered s s') : Writes paths s s' := by
  have ⟨events, htrace, hexternal, hfiles⟩ := h.trace
  refine ⟨h.operation, events, htrace, ?_, ?_⟩
  · intro event hevent
    have ⟨path, hpath⟩ := hexternal event hevent
    rw [hpath]
    trivial
  · exact fun path hpath => hfiles path fun hmem => hpath _ hmem rfl

theorem Writes.mono {paths paths' : List String} (h : Writes paths s s')
    (hsub : ∀ path ∈ paths, path ∈ paths') : Writes paths' s s' := by
  have ⟨events, htrace, hwithin, hfiles⟩ := h.trace
  refine ⟨h.operation, events, htrace, ?_, hfiles⟩
  intro event hevent
  have hw := hwithin event hevent
  cases event with
  | wrote path under => exact ⟨hsub path hw.1, hw.2⟩
  | _ => exact hw

/-! ## One command -/

theorem foldl_update_of_notMem (writes : List (String × Leaf)) (files : String → Leaf)
    {path : String} (h : path ∉ writes.map Prod.fst) :
    writes.foldl (fun files write => Function.update files write.1 write.2) files path =
      files path := by
  induction writes generalizing files with
  | nil => rfl
  | cons write writes ih =>
    simp only [map_cons, mem_cons, not_or] at h
    rw [foldl_cons, ih _ h.2, Function.update_of_ne h.1]

theorem interfered_interfere (s : Machine) (env : JournalEnv) : Interfered s (s.interfere env) := by
  refine ⟨rfl, (env.writes.map (fun write => .external write.1)).reverse, rfl, ?_, ?_⟩
  · intro event hevent
    have ⟨write, _, hwrite⟩ := mem_map.mp (mem_reverse.mp hevent)
    exact ⟨write.1, hwrite.symm⟩
  · intro path hpath
    refine foldl_update_of_notMem env.writes s.files fun hmem => hpath ?_
    have ⟨write, hwrite, heq⟩ := mem_map.mp hmem
    exact mem_reverse.mpr (mem_map.mpr ⟨write, hwrite, by rw [heq]⟩)

theorem writes_record_read (s : Machine) (path : String) :
    Writes [] s (s.record (.read path)) :=
  ⟨rfl, [.read path], rfl, by simp [JournalEvent.within], fun _ _ => rfl⟩

theorem writes_write (s : Machine) (path : String) (leaf : Leaf) :
    Writes [path] s (s.write path leaf) := by
  refine ⟨rfl, [.wrote path s.status], rfl, by simp [JournalEvent.within], fun other h => ?_⟩
  have hne : other ≠ path := fun heq => h (.wrote path s.status) (by simp) heq.symm
  exact Function.update_of_ne hne leaf s.files

/-- The command asks, looks or waits: nothing but the environment changes the
checkout, the journal or the trace. -/
def JournalCommand.quiet : JournalCommand → Bool
  | .readLeaf _ | .insertOperation .. | .transition _ => false
  | .removeLeaf _ | .renameInto .. | .checkoutIndex .. => false
  | _ => true

theorem Interfered.answering {α : Type} (env : JournalEnv) (reply : α) (h : Interfered s s') :
    Interfered s (answering s' env reply).1 := by
  unfold Journal.answering
  cases env.fault <;> exact h

variable {command : JournalCommand}

theorem Interfered.execute (env : JournalEnv) (s : Machine) (h : command.quiet) :
    Interfered s (execute instanceId env s command).1 := by
  have hinterfere := interfered_interfere s env
  cases command with
  | blockRoot => exact ⟨hinterfere.operation, hinterfere.trace⟩
  | signalAborted => exact hinterfere
  | readLeaf | insertOperation | transition | removeLeaf | renameInto | checkoutIndex => cases h
  | _ => exact hinterfere.answering env _

/-- The paths that a command may write. -/
def JournalCommand.target : JournalCommand → List String
  | .removeLeaf path | .renameInto path _ | .checkoutIndex path _ => [path]
  | _ => []

def JournalCommand.transaction : JournalCommand → Bool
  | .insertOperation .. | .transition _ => true
  | _ => false

theorem writes_writing (s : Machine) (env : JournalEnv) (path : String) (leaf : Leaf) :
    Writes [path] s (writing s env path leaf).1 := by
  unfold writing
  cases env.fault with
  | none => exact writes_write s path leaf
  | before error => exact .refl _ s
  | after error => exact writes_write s path leaf
  | torn error leaf => exact writes_write s path leaf

theorem writes_reading (s : Machine) (env : JournalEnv) (path : String) :
    Writes [] s (reading s env path).1 := by
  unfold reading
  cases env.fault with
  | none => exact writes_record_read s path
  | _ => exact .refl _ s

theorem Writes.execute (env : JournalEnv) (s : Machine) (h : command.transaction = false) :
    Writes command.target s (execute instanceId env s command).1 := by
  have hinterfere := interfered_interfere s env
  cases command with
  | readLeaf path => exact (hinterfere.writes _).trans (writes_reading _ env path)
  | removeLeaf path => exact (hinterfere.writes _).trans (writes_writing _ env path _)
  | renameInto path leaf => exact (hinterfere.writes _).trans (writes_writing _ env path _)
  | checkoutIndex path leaf => exact (hinterfere.writes _).trans (writes_writing _ env path _)
  | insertOperation | transition => cases h
  | _ => exact (Interfered.execute env s rfl).writes _

/-! ## Journal transactions -/

theorem mem_trace_execute {event : JournalEvent} (env : JournalEnv) (s : Machine)
    (command : JournalCommand) (h : event ∈ s.trace) :
    event ∈ (execute instanceId env s command).1.trace := by
  have hinterfere : event ∈ (s.interfere env).trace := mem_append_right _ h
  have hcommit : ∀ next, event ∈ (committing (s.interfere env) env next).1.trace := by
    intro next
    unfold committing
    cases env.fault with
    | none => cases next <;> exact hinterfere
    | before error => exact hinterfere
    | torn error leaf => exact hinterfere
    | after error =>
      cases next with
      | error error' => exact hinterfere
      | ok operation => exact mem_cons_of_mem _ hinterfere
  cases hcommand : command.transaction with
  | false =>
    have hwrites : Writes command.target s (execute instanceId env s command).1 :=
      Writes.execute env s hcommand
    have ⟨events, htrace, _⟩ := hwrites.trace
    rw [htrace]
    exact mem_append_right _ h
  | true =>
    cases command with
    | insertOperation operation lock => exact hcommit _
    | transition transition => exact hcommit _
    | _ => cases hcommand

/-- What a transition does to the machine after the interference before it. -/
def movedBy (s : Machine) (operation : JournalOperation) (row : IntegrationOperation) : Machine :=
  s.setOperation { operation with row }

theorem transitionOperation_cases {context : JournalContext} {transition : JournalTransition}
    {operation : Option JournalOperation} {next : JournalOperation}
    (h : transitionOperation context transition operation = .ok next) :
    ∃ current, operation = some current ∧ ∃ row, next = { current with row } ∧
      row.status = transition.status ∧
      (current.row.status = transition.status ∨
        current.row.status ∈ transition.expectedStatuses) := by
  unfold transitionOperation at h
  cases hrow : transitionIntegrationOperation context transition (operation.map (·.row)) with
  | error error =>
    rw [hrow] at h
    cases h
  | ok row =>
    rw [hrow] at h
    have ⟨current, hcurrent, hstatus, hold, _⟩ := transitionIntegrationOperation_cases hrow
    cases operation with
    | none => cases hcurrent
    | some operation =>
      cases h
      cases hcurrent
      exact ⟨operation, rfl, row, rfl, hstatus, hold⟩

theorem committing_cases (s : Machine) (env : JournalEnv)
    (next : Except JournalError JournalOperation) :
    (∃ operation, next = .ok operation ∧
      committing s env next = (s.setOperation operation, .ok ())) ∨
    (∃ operation error, next = .ok operation ∧ committing s env next =
      ((s.setOperation operation).record (.commitLost operation.row.status), .error error)) ∨
    ∃ error, committing s env next = (s, .error error) := by
  unfold committing
  cases next with
  | error error => cases env.fault <;> exact .inr (.inr ⟨_, rfl⟩)
  | ok operation =>
    cases env.fault with
    | none => exact .inl ⟨operation, rfl, rfl⟩
    | before error => exact .inr (.inr ⟨error, rfl⟩)
    | torn error leaf => exact .inr (.inr ⟨error, rfl⟩)
    | after error => exact .inr (.inl ⟨operation, error, rfl, rfl⟩)

variable {failed : JournalError → Local → Machine → Prop} {locals : Local}

theorem wp_transition {transition : JournalTransition} {returned : Unit → Local → Machine → Prop}
    (hmoved : ∀ s' operation row, Interfered s s' → s'.operation = some operation →
      row.status = transition.status →
      (operation.row.status = transition.status ∨
        operation.row.status ∈ transition.expectedStatuses) →
      returned () locals (movedBy s' operation row))
    (hlost : ∀ error s' operation row, Interfered s s' → s'.operation = some operation →
      row.status = transition.status →
      (operation.row.status = transition.status ∨
        operation.row.status ∈ transition.expectedStatuses) →
      failed error locals ((movedBy s' operation row).record (.commitLost transition.status)))
    (hrejected : ∀ error s', Interfered s s' → failed error locals s') :
    Procedure.wp (execute instanceId) (fun _ => True)
      (issue (.transition transition)) returned failed locals s := by
  refine (Procedure.wp_call (JournalCommand.transition transition)).mpr
    ⟨trivial, fun env => ?_⟩
  have hinterfered := interfered_interfere s env
  have hexec : execute instanceId env s (.transition transition) =
      committing (s.interfere env) env (transitionOperation
        ⟨instanceId, (s.interfere env).lockOwned, env.now⟩ transition
        (s.interfere env).operation) := rfl
  rcases committing_cases (s.interfere env) env (transitionOperation
      ⟨instanceId, (s.interfere env).lockOwned, env.now⟩ transition
      (s.interfere env).operation) with ⟨next, hnext, h⟩ | ⟨next, error, hnext, h⟩ | ⟨error, h⟩
  · have ⟨operation, hoperation, row, heq, hstatus, hold⟩ := transitionOperation_cases hnext
    rw [hexec.trans h, heq]
    exact hmoved _ operation row hinterfered hoperation hstatus hold
  · have ⟨operation, hoperation, row, heq, hstatus, hold⟩ := transitionOperation_cases hnext
    rw [hexec.trans h, heq]
    have hlast := hlost error _ operation row hinterfered hoperation hstatus hold
    rw [← hstatus] at hlast
    exact hlast
  · rw [hexec.trans h]
    exact hrejected error _ hinterfered

theorem wp_insertOperation {operation : JournalOperation} {lock : Bool}
    {returned : Unit → Local → Machine → Prop}
    (hinserted : ∀ s', Interfered s s' → returned () locals (s'.setOperation operation))
    (hlost : ∀ error s', Interfered s s' → failed error locals
      ((s'.setOperation operation).record (.commitLost operation.row.status)))
    (hrejected : ∀ error s', Interfered s s' → failed error locals s') :
    Procedure.wp (execute instanceId) (fun _ => True)
      (issue (.insertOperation operation lock)) returned failed locals s := by
  refine (Procedure.wp_call (JournalCommand.insertOperation operation lock)).mpr
    ⟨trivial, fun env => ?_⟩
  have hinterfered := interfered_interfere s env
  have hexec : execute instanceId env s (.insertOperation operation lock) =
      committing (s.interfere env) env (insertIntegrationOperation
        ⟨instanceId, (s.interfere env).lockOwned, env.now⟩ env.holds lock operation) := rfl
  have hsame : ∀ next, insertIntegrationOperation
      ⟨instanceId, (s.interfere env).lockOwned, env.now⟩ env.holds lock operation = .ok next →
      next = operation := by
    intro next hnext
    unfold insertIntegrationOperation at hnext
    simp only [bind, Except.bind, throw, throwThe, MonadExceptOf.throw, pure,
      Except.pure] at hnext
    split at hnext
    · cases hnext
    · split at hnext <;> cases hnext
      rfl
  rcases committing_cases (s.interfere env) env (insertIntegrationOperation
      ⟨instanceId, (s.interfere env).lockOwned, env.now⟩ env.holds lock operation)
    with ⟨next, hnext, h⟩ | ⟨next, error, hnext, h⟩ | ⟨error, h⟩
  · rw [hexec.trans h, hsame next hnext]
    exact hinserted _ hinterfered
  · rw [hexec.trans h, hsame next hnext]
    exact hlost error _ hinterfered
  · rw [hexec.trans h]
    exact hrejected error _ hinterfered

/-! ## Procedures -/

/-- The procedure keeps the journal and writes at most `paths`. -/
def KeepsJournal (instanceId : String) (paths : List String) {α : Type}
    (m : Action Local α) : Prop :=
  Procedure.Within (execute instanceId) (Writes paths) m

/-- The procedure does nothing to the checkout, the journal or the trace. -/
def Observes (instanceId : String) {α : Type} (m : Action Local α) : Prop :=
  Procedure.Within (execute instanceId) Interfered m

variable {α β : Type} {paths : List String}

/-- The command can tell the call that it has lost its authority: a journal transaction, or
a look at its signal. -/
def JournalCommand.checksAuthority : JournalCommand → Bool
  | .insertOperation .. | .transition _ | .signalAborted => true
  | _ => false

/-- The command does not check the authority and writes at most `paths`. -/
def JournalCommand.confined (paths : List String) (command : JournalCommand) : Prop :=
  command.checksAuthority = false ∧ ∀ path ∈ command.target, path ∈ paths

/-- The procedure checks the authority nowhere and writes at most `paths`. -/
def Confined (paths : List String) (m : Action Local α) : Prop :=
  Procedure.Only (JournalCommand.confined paths) (fun _ => True) m

/-- The command does nothing to the checkout, the journal or the trace, and does not check
the authority. -/
def JournalCommand.observing (command : JournalCommand) : Bool :=
  command.quiet && !command.checksAuthority

/-- The procedure issues observing commands only. -/
def Quiet (m : Action Local α) : Prop :=
  Procedure.Only (fun command => command.observing = true) (fun _ => True) m

theorem Quiet.issue (h : command.observing) : Quiet (issue command : Action Local _) :=
  Procedure.Only.call h

theorem Quiet.pure (value : α) : Quiet (Pure.pure value : Action Local α) :=
  Procedure.Only.pure trivial

variable {f : α → Action Local β} {m : Action Local α}

theorem Quiet.bind (hm : Quiet m) (hf : ∀ value, Quiet (f value)) : Quiet (m >>= f) :=
  Procedure.Only.bind hm fun value _ => hf value

theorem Quiet.recover {handler : JournalError → Action Local α} (hm : Quiet m)
    (hhandler : ∀ error, Quiet (handler error)) : Quiet (m.recover handler) :=
  Procedure.Only.recover hm hhandler

theorem Quiet.ite {condition : Prop} [Decidable condition] {m' : Action Local α} (hm : Quiet m)
    (hm' : Quiet m') : Quiet (if condition then m else m') :=
  Procedure.Only.ite hm hm'

theorem Confined.issue (h : command.checksAuthority = false)
    (htarget : ∀ path ∈ command.target, path ∈ paths) :
    Confined paths (issue command : Action Local _) :=
  Procedure.Only.call ⟨h, htarget⟩

theorem Confined.pure (value : α) : Confined paths (Pure.pure value : Action Local α) :=
  Procedure.Only.pure trivial

theorem Confined.raise (error : JournalError) :
    Confined paths (Procedure.raise error : Action Local α) :=
  Procedure.Only.raise error

theorem Confined.bind (hm : Confined paths m) (hf : ∀ value, Confined paths (f value)) :
    Confined paths (m >>= f) :=
  Procedure.Only.bind hm fun value _ => hf value

theorem Confined.recover {handler : JournalError → Action Local α} (hm : Confined paths m)
    (hhandler : ∀ error, Confined paths (handler error)) : Confined paths (m.recover handler) :=
  Procedure.Only.recover hm hhandler

theorem Confined.ite {condition : Prop} [Decidable condition] {m' : Action Local α}
    (hm : Confined paths m) (hm' : Confined paths m') :
    Confined paths (if condition then m else m') :=
  Procedure.Only.ite hm hm'

theorem Confined.mono {paths' : List String} (h : Confined paths m)
    (hsub : ∀ path ∈ paths, path ∈ paths') : Confined paths' m :=
  Procedure.Only.mono h (fun _ hcommand => ⟨hcommand.1, fun path hpath =>
    hsub path (hcommand.2 path hpath)⟩) fun _ h => h

theorem JournalCommand.confined_of_observing (h : command.observing = true) :
    command.confined paths := by
  cases command with
  | readLeaf | insertOperation | transition | removeLeaf | renameInto | checkoutIndex => cases h
  | signalAborted => cases h
  | _ => exact ⟨rfl, by simp [JournalCommand.target]⟩

theorem JournalCommand.transaction_of_confined (h : command.confined paths) :
    command.transaction = false := by
  cases command with
  | insertOperation | transition => cases h.1
  | _ => rfl

theorem Quiet.confined (h : Quiet m) : Confined paths m :=
  Procedure.Only.mono h (fun _ => JournalCommand.confined_of_observing) fun _ h => h

theorem Confined.keepsJournal (h : Confined paths m) : KeepsJournal instanceId paths m := by
  have honly : Procedure.Only (JournalCommand.confined paths) (fun _ => True) m := h
  refine Procedure.Within.of_only (Writes.refl paths) (fun h h' => h.trans h') ?_ honly
  intro env s command hcommand
  have htransaction := JournalCommand.transaction_of_confined hcommand
  exact (Writes.execute env s htransaction).mono hcommand.2

theorem Quiet.observes (h : Quiet m) : Observes instanceId m := by
  have honly : Procedure.Only (fun command => command.observing = true) (fun _ => True) m := h
  refine .of_only Interfered.refl (fun h h' => h.trans h') ?_ honly
  intro env s command hobserving
  simp only [JournalCommand.observing, Bool.and_eq_true] at hobserving
  exact .execute env s hobserving.1

theorem Confined.then {returned : β → Local → Machine → Prop} (hm : Confined paths m)
    (hnext : ∀ value s', Writes paths s s' →
      (f value).wp (execute instanceId) (fun _ => True) returned failed locals s')
    (hfailed : ∀ error s', Writes paths s s' → failed error locals s') :
    (m >>= f).wp (execute instanceId) (fun _ => True) returned failed locals s :=
  Procedure.Within.then hm.keepsJournal hnext hfailed

theorem Quiet.then {returned : β → Local → Machine → Prop} (hm : Quiet m)
    (hnext : ∀ value s', Interfered s s' →
      (f value).wp (execute instanceId) (fun _ => True) returned failed locals s')
    (hfailed : ∀ error s', Interfered s s' → failed error locals s') :
    (m >>= f).wp (execute instanceId) (fun _ => True) returned failed locals s :=
  Procedure.Within.then hm.observes hnext hfailed

theorem wp_signalAborted {returned : Bool → Local → Machine → Prop}
    (h : ∀ s', Interfered s s' → returned s'.aborted locals s') :
    Procedure.wp (execute instanceId) (fun _ => True) (issue .signalAborted) returned failed
      locals s := by
  refine (Procedure.wp_call JournalCommand.signalAborted).mpr ⟨trivial, fun env => ?_⟩
  exact h _ (interfered_interfere s env)

/-! ## Snapshots and leaves -/

variable (settings : JournalSettings)

variable (baseline : RollbackBaseline) (files : List String) (path : String)

theorem exactIntegrationFileSnapshotFrom_confined (totalBytes : Nat) :
    Confined []
      (exactIntegrationFileSnapshotFrom settings totalBytes files : Action Local Snapshot) := by
  induction files generalizing totalBytes with
  | nil => exact .pure _
  | cons path files ih =>
    refine .bind (.issue rfl (by simp [JournalCommand.target])) fun leaf => ?_
    split
    · exact .raise _
    · exact .bind (ih _) fun rest => .pure _

theorem exactIntegrationFileSnapshot_confined :
    Confined [] (exactIntegrationFileSnapshot settings files : Action Local Snapshot) :=
  exactIntegrationFileSnapshotFrom_confined settings files 0

theorem integrationContentMatches_confined (expected actual : Snapshot)
    (eolRecords : Option (List String)) (path : String) :
    Confined []
      (integrationContentMatches expected actual eolRecords path : Action Local Bool) := by
  unfold integrationContentMatches
  refine .ite (.pure _) ?_
  split
  · exact .pure _
  · refine .bind ?_ fun allowed => .ite (.pure _) (.recover (.bind
      (.issue rfl (by simp [JournalCommand.target])) fun leaf => ?_) fun _ => .pure _)
    · cases eolRecords with
      | some records => exact .pure _
      | none => exact .issue rfl (by simp [JournalCommand.target])
    · cases leaf <;> exact .pure _

theorem integrationContentMismatches_confined (expected actual : Snapshot)
    (eolRecords : Option (List String)) (files : List String) :
    Confined []
      (integrationContentMismatches expected actual eolRecords files : Action Local (List String)) := by
  induction files with
  | nil => exact .pure _
  | cons path files ih =>
    exact .bind (integrationContentMatches_confined expected actual eolRecords path)
      fun same => .bind ih fun rest => .pure _

theorem removeRollbackLeaf_confined :
    Confined [path] (removeRollbackLeaf path : Action Local Bool) := by
  refine .bind (.issue rfl (by simp [JournalCommand.target])) fun details => ?_
  have hremove : Confined [path]
      (issue (.removeLeaf path) >>= fun _ => Pure.pure true : Action Local _) :=
    .bind (.issue rfl (by simp [JournalCommand.target])) fun _ => .pure _
  cases details with
  | missing | directory => exact .pure _
  | link | file => exact hremove

theorem replaceRollbackLeaf_confined (leaf : Leaf) :
    Confined [path] (replaceRollbackLeaf path leaf : Action Local Bool) := by
  refine .bind (.issue rfl (by simp [JournalCommand.target])) fun existing => .ite (.pure _) ?_
  refine .recover (.bind (.issue rfl (by simp [JournalCommand.target])) fun _ => ?_)
    fun _ => .pure _
  have hrename : Confined [path]
      (issue (.renameInto path leaf) >>= fun _ => Pure.pure true : Action Local _) :=
    .bind (.issue rfl (by simp [JournalCommand.target])) fun _ => .pure _
  exact .ite (.bind (.issue rfl (by simp [JournalCommand.target])) fun _ => hrename) hrename

/-! ## The rollback of owned changes -/

theorem restoreFromGitHead_confined :
    Confined [path] (restoreFromGitHead settings path : Action Local Bool) := by
  refine .recover (.bind (.issue rfl (by simp [JournalCommand.target])) fun committed => ?_)
    fun _ => .pure _
  cases committed with
  | none => exact .pure _
  | some leaf =>
    refine .bind (replaceRollbackLeaf_confined path leaf) fun restored => .ite (.pure _) ?_
    exact .bind ((exactIntegrationFileSnapshot_confined settings [path]).mono (by simp))
      fun actual => .pure _

theorem rollbackUnsafeChange_confined :
    Confined [path] (rollbackUnsafeChange settings baseline path : Action Local Bool) := by
  refine .recover ?_ fun _ => .pure _
  split
  · exact .pure _
  · exact replaceRollbackLeaf_confined path _
  · exact removeRollbackLeaf_confined path
  · exact .bind (.issue rfl (by simp [JournalCommand.target])) fun tracked =>
      .ite (restoreFromGitHead_confined settings path) (removeRollbackLeaf_confined path)

theorem rollbackUnsafeChanges_confined :
    Confined files (rollbackUnsafeChanges settings baseline files : Action Local _) := by
  induction files with
  | nil => exact .pure _
  | cons path files ih =>
    refine .bind ((rollbackUnsafeChange_confined settings baseline path).mono (by simp))
      fun restored => .bind (ih.mono ?_) fun rest => .pure _
    exact fun other hother => mem_cons_of_mem _ hother

theorem verifiedOwned_confined (ownedSnapshot : Snapshot) (eolRecords : Option (List String))
    (path : String) :
    Confined []
      (verifiedOwned settings ownedSnapshot eolRecords path : Action Local Bool) := by
  refine .recover (.bind (exactIntegrationFileSnapshot_confined settings [path]) fun current =>
    .ite (.pure _) ?_) fun _ => .pure _
  cases eolRecords with
  | none => exact .pure _
  | some records => exact integrationContentMatches_confined ownedSnapshot current _ path

theorem partitionOwned_confined (ownedSnapshot : Snapshot) (eolRecords : Option (List String))
    (files : List String) :
    Procedure.Only (JournalCommand.confined paths) (fun owned => ∀ path ∈ owned.1, path ∈ files)
      (partitionOwned settings ownedSnapshot eolRecords files : Action Local _) := by
  induction files with
  | nil => exact .pure (by simp)
  | cons path files ih =>
    have hhead : Confined paths
        (verifiedOwned settings ownedSnapshot eolRecords path : Action Local Bool) :=
      (verifiedOwned_confined settings ownedSnapshot eolRecords path).mono (by simp)
    refine .bind hhead fun owned _ => ?_
    refine .bind ih fun rest hrest => .pure fun other hother => ?_
    cases owned with
    | false => exact mem_cons_of_mem _ (hrest other hother)
    | true =>
      cases mem_cons.mp hother with
      | inl heq => exact heq ▸ mem_cons_self
      | inr hmem => exact mem_cons_of_mem _ (hrest other hmem)

theorem rollbackVerifiedOwnedChanges_confined (ownedSnapshot : Option Snapshot)
    (eolRecords : Option (List String)) :
    Confined files
      (rollbackVerifiedOwnedChanges settings baseline files ownedSnapshot eolRecords :
        Action Local RollbackResult) := by
  cases ownedSnapshot with
  | none => exact .pure _
  | some ownedSnapshot =>
    refine Procedure.Only.bind (partitionOwned_confined settings ownedSnapshot eolRecords files)
      fun owned howned => ?_
    exact Confined.bind ((rollbackUnsafeChanges_confined settings baseline owned.1).mono howned)
      fun result => .pure _

/-! ## Recovery -/

theorem indexMismatches_quiet (files : List JournalFile) :
    Quiet (indexMismatches files : Action Local _) := by
  induction files with
  | nil => exact .pure _
  | cons file files ih => exact .bind (.issue rfl) fun entry => .bind ih fun rest => .pure _

theorem integrationRecoveryBaseline_quiet (operation : JournalOperation) :
    Quiet (integrationRecoveryBaseline operation : Action Local _) := by
  refine .recover (.ite ?_ ?_) fun _ => .pure _
  · refine .bind (.issue rfl) fun head => .bind (indexMismatches_quiet _) fun mismatches =>
      .ite (.pure _) ?_
    exact .recover (.bind (.issue rfl) fun committed => .pure _)
      fun _ => .bind (.issue rfl) fun recorded => .pure _
  · exact .bind (.issue rfl) fun head => .bind (.issue rfl) fun index => .pure _

theorem readEvidence_quiet (files : List JournalFile) :
    Quiet (readEvidence files : Action Local _) := by
  induction files with
  | nil => exact .pure _
  | cons file files ih => exact .bind (.issue rfl) fun _ => ih

theorem classifyFile_confined (current : Snapshot) (file : JournalFile) :
    Confined [] (classifyFile settings current file : Action Local _) :=
  .ite (.pure _) (.bind (integrationContentMatches_confined _ _ _ _) fun _ => .pure _)

theorem restoreIntegrationJournalFile_confined (file : JournalFile) :
    Confined [file.path] (restoreIntegrationJournalFile file : Action Local _) :=
  .ite (.bind (removeRollbackLeaf_confined _) fun _ => .ite (.pure _) (.raise _))
    (.bind (replaceRollbackLeaf_confined _ _) fun _ => .ite (.pure _) (.raise _))

theorem restoreFiles_confined (classes : List (JournalFile × Classification)) :
    Confined (classes.map (·.1.path)) (restoreFiles classes : Action Local _) := by
  induction classes with
  | nil => exact .pure _
  | cons entry classes ih =>
    obtain ⟨file, class'⟩ := entry
    have hrest : Confined (file.path :: classes.map (·.1.path))
        (restoreFiles classes : Action Local _) :=
      ih.mono fun path hpath => mem_cons_of_mem _ hpath
    have hrestore : Confined (file.path :: classes.map (·.1.path))
        (restoreIntegrationJournalFile file : Action Local _) :=
      (restoreIntegrationJournalFile_confined file).mono (by simp)
    exact .ite (.bind hrestore fun _ => hrest) hrest

end AgentBridge.Journal
