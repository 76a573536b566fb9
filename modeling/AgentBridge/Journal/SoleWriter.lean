import AgentBridge.Journal.Baseline
import AgentBridge.Journal.Frame

/-!
# The bridge as the only writer of a checkout

The commands of the journal machine when nobody else writes the checkout and git
answers what its commit has. They still fail before or after their effect, and a
call may be cut off between any two of them.
-/

namespace AgentBridge.Journal

open Systems

variable {Local : Type}

/-- The environment of one command when nobody else writes the checkout and git
answers what the commit has. -/
def JournalEnv.alone (commit : String → CommitEntry) (env : JournalEnv) :
    JournalCommand → JournalEnv
  | .ask (.presentInCommit path) =>
    { env with writes := [], holds := decide (commit path ≠ .absent) }
  | .commitLeaf path => { env with writes := [], leaf := (commit path).leaf? }
  | _ => { env with writes := [] }

/-- One command of the bridge in such an environment. -/
def executeAlone (instanceId : String) (commit : String → CommitEntry) (env : JournalEnv)
    (s : Machine) (command : JournalCommand) :
    Machine × Except JournalError (JournalReply command) :=
  execute instanceId (env.alone commit command) s command

/-- From the first state to the second only allowed paths were written, by the
bridge. -/
structure WroteOnly (allowed : String → Prop) (s s' : Machine) : Prop where
  trace : ∃ events, s'.trace = events ++ s.trace ∧
    ∀ event ∈ events, ∀ path, event.writes path → allowed path
  files : ∀ path, ¬allowed path → s'.files path = s.files path

variable {allowed allowed' : String → Prop} {s s' s'' : Machine}

theorem WroteOnly.refl (allowed : String → Prop) (s : Machine) : WroteOnly allowed s s :=
  ⟨⟨[], rfl, by simp⟩, fun _ _ => rfl⟩

theorem WroteOnly.trans (h : WroteOnly allowed s s') (h' : WroteOnly allowed s' s'') :
    WroteOnly allowed s s'' := by
  have ⟨events, htrace, hwrites⟩ := h.trace
  have ⟨events', htrace', hwrites'⟩ := h'.trace
  refine ⟨⟨events' ++ events, ?_, ?_⟩, ?_⟩
  · rw [htrace', htrace, List.append_assoc]
  · intro event hevent
    cases List.mem_append.mp hevent with
    | inl hnew => exact hwrites' event hnew
    | inr hold => exact hwrites event hold
  · intro path hpath
    exact (h'.files path hpath).trans (h.files path hpath)

theorem WroteOnly.mono (h : WroteOnly allowed s s')
    (hsub : ∀ path, allowed path → allowed' path) : WroteOnly allowed' s s' := by
  have ⟨events, htrace, hwrites⟩ := h.trace
  refine ⟨⟨events, htrace, fun event hevent path hpath => ?_⟩, fun path hpath => ?_⟩
  · exact hsub path (hwrites event hevent path hpath)
  · exact h.files path fun hallowed => hpath (hsub path hallowed)

/-- Nothing was written. -/
theorem WroteOnly.files_eq (h : WroteOnly (fun _ => False) s s') : s'.files = s.files :=
  funext fun path => h.files path id

theorem wroteOnly_write (s : Machine) (path : String) (leaf : Leaf) :
    WroteOnly (· ∈ [path]) s (s.write path leaf) := by
  refine ⟨⟨[.wrote path s.status], rfl, ?_⟩, fun other hother => ?_⟩
  · intro event hevent other hwrites
    rw [List.mem_singleton] at hevent
    subst hevent
    exact List.mem_singleton.mpr hwrites.symm
  · exact Function.update_of_ne (fun heq => hother (List.mem_singleton.mpr heq)) leaf s.files

theorem wroteOnly_writing (s : Machine) (env : JournalEnv) (path : String) (leaf : Leaf) :
    WroteOnly (· ∈ [path]) s (writing s env path leaf).1 := by
  unfold writing
  cases env.fault with
  | none => exact wroteOnly_write s path leaf
  | before error => exact .refl _ s
  | after error => exact wroteOnly_write s path leaf
  | torn error leaf => exact wroteOnly_write s path leaf

theorem wroteOnly_reading (s : Machine) (env : JournalEnv) (path : String) :
    WroteOnly allowed s (reading s env path).1 := by
  unfold reading
  cases env.fault with
  | none => exact ⟨⟨[.read path], rfl, by simp [JournalEvent.writes]⟩, fun _ _ => rfl⟩
  | _ => exact .refl _ s

theorem wroteOnly_answering {α : Type} (s : Machine) (env : JournalEnv) (reply : α) :
    WroteOnly allowed s (answering s env reply).1 := by
  unfold answering
  cases env.fault <;> exact .refl _ s

variable {env : JournalEnv}

/-- Without other writers the interference before a command leaves files and trace. -/
theorem interfere_alone (h : env.writes = []) (s : Machine) :
    (s.interfere env).files = s.files ∧ (s.interfere env).trace = s.trace := by
  simp [Machine.interfere, h]

theorem writes_alone (commit : String → CommitEntry) (env : JournalEnv)
    (command : JournalCommand) : (env.alone commit command).writes = [] := by
  unfold JournalEnv.alone
  split <;> rfl

theorem WroteOnly.interfere (h : env.writes = [])
    (hafter : WroteOnly allowed (s.interfere env) s') :
    WroteOnly allowed s s' := by
  have ⟨hfiles, htrace⟩ := interfere_alone h s
  exact ⟨htrace ▸ hafter.trace, hfiles ▸ hafter.files⟩

section

variable {instanceId : String} {commit : String → CommitEntry} {paths : List String}

variable {command : JournalCommand}

theorem WroteOnly.executeAlone (env : JournalEnv) (s : Machine) (h : command.confined paths) :
    WroteOnly (· ∈ paths) s (executeAlone instanceId commit env s command).1 := by
  refine .interfere (writes_alone commit env command) ?_
  have htarget := h.2
  cases command with
  | insertOperation | transition | signalAborted => cases h.1
  | readLeaf path => exact wroteOnly_reading _ _ path
  | removeLeaf path | renameInto path | checkoutIndex path =>
    refine (wroteOnly_writing _ _ path _).mono fun other hother => ?_
    exact htarget other hother
  | blockRoot => exact ⟨⟨[], rfl, by simp⟩, fun _ _ => rfl⟩
  | _ => exact wroteOnly_answering _ _ _

variable {α β : Type} {locals : Local}

/-- A confined procedure writes allowed paths only, wherever it is cut off. -/
theorem Confined.wroteOnly {m : Action Local α} (h : Confined paths m) (locals : Local)
    (s : Machine) :
    m.wp (Journal.executeAlone instanceId commit) (WroteOnly (· ∈ paths) s)
      (fun _ locals' s' => locals' = locals ∧ WroteOnly (· ∈ paths) s s')
      (fun _ locals' s' => locals' = locals ∧ WroteOnly (· ∈ paths) s s') locals s := by
  have honly : Procedure.Only (JournalCommand.confined paths) (fun _ => True) m := h
  refine .mono (Procedure.wp_throughout_of_only (WroteOnly.refl _)
    (fun h h' => h.trans h') (fun env s command => WroteOnly.executeAlone env s) honly locals s)
    ?_ fun _ _ _ h => h
  exact fun _ _ _ h => h.2

/-! ## The commands of a rollback -/

variable {returned : Leaf → Local → Machine → Prop}
  {failed : JournalError → Local → Machine → Prop}

variable {path : String}

theorem wp_readLeaf_alone (hread : ∀ s', s'.files = s.files → returned (s.files path) locals s')
    (hfailed : ∀ error s', s'.files = s.files → failed error locals s') :
    Procedure.wp (executeAlone instanceId commit) (fun _ => True) (issue (.readLeaf path))
      returned failed locals s := by
  refine (Procedure.wp_call (JournalCommand.readLeaf path)).mpr ⟨trivial, fun env => ?_⟩
  have ⟨hfiles, _⟩ := interfere_alone (writes_alone commit env (.readLeaf path)) s
  have hexec : executeAlone instanceId commit env s (.readLeaf path) =
      reading (s.interfere (env.alone commit (.readLeaf path)))
        (env.alone commit (.readLeaf path)) path := rfl
  rw [hexec]
  unfold reading
  cases (env.alone commit (.readLeaf path)).fault with
  | none =>
    have hvalue := hread ((s.interfere (env.alone commit (.readLeaf path))).record (.read path))
      hfiles
    rw [← hfiles] at hvalue
    exact hvalue
  | _ => exact hfailed _ _ hfiles

theorem wp_answering_alone {reply : JournalReply command}
    {returned : JournalReply command → Local → Machine → Prop}
    (hexec : ∀ env, executeAlone instanceId commit env s command =
      answering (s.interfere (env.alone commit command)) (env.alone commit command) reply)
    (hread : ∀ s', s'.files = s.files → returned reply locals s')
    (hfailed : ∀ error s', s'.files = s.files → failed error locals s') :
    Procedure.wp (executeAlone instanceId commit) (fun _ => True) (issue command)
      returned failed locals s := by
  refine (Procedure.wp_call command).mpr ⟨trivial, fun env => ?_⟩
  have ⟨hfiles, _⟩ := interfere_alone (writes_alone commit env command) s
  rw [hexec]
  unfold answering
  cases (env.alone commit command).fault with
  | none => exact hread _ hfiles
  | _ => exact hfailed _ _ hfiles

theorem wp_lstat_alone (hread : ∀ s', s'.files = s.files → returned (s.files path) locals s')
    (hfailed : ∀ error s', s'.files = s.files → failed error locals s') :
    Procedure.wp (executeAlone instanceId commit) (fun _ => True) (issue (.lstat path))
      returned failed locals s := by
  refine wp_answering_alone (fun env => ?_) hread hfailed
  have ⟨hfiles, _⟩ := interfere_alone (writes_alone commit env (.lstat path)) s
  rw [← hfiles]
  rfl

theorem writing_alone_cases (h : env.writes = []) (s : Machine) (path : String) (leaf : Leaf) :
    (∃ s', writing (s.interfere env) env path leaf = (s', .ok ()) ∧
      s'.files = Function.update s.files path leaf) ∨
    ∃ s' error, writing (s.interfere env) env path leaf = (s', .error error) := by
  have ⟨hfiles, _⟩ := interfere_alone h s
  unfold writing
  cases env.fault with
  | none =>
    refine .inl ⟨_, rfl, ?_⟩
    rw [← hfiles]
    rfl
  | _ => exact .inr ⟨_, _, rfl⟩

/-- A command that either returns with new contents or fails. -/
theorem wp_writing_alone {reply : JournalReply command} {files : String → Leaf}
    {returned : JournalReply command → Local → Machine → Prop} (hexec : ∀ env,
      (∃ s', executeAlone instanceId commit env s command = (s', .ok reply) ∧ s'.files = files) ∨
      ∃ s' error, executeAlone instanceId commit env s command = (s', .error error))
    (hwritten : ∀ s', s'.files = files → returned reply locals s')
    (hfailed : ∀ error s', failed error locals s') :
    Procedure.wp (executeAlone instanceId commit) (fun _ => True) (issue command)
      returned failed locals s := by
  refine (Procedure.wp_call command).mpr ⟨trivial, fun env => ?_⟩
  cases hexec env with
  | inl h =>
    obtain ⟨s', h, hfiles⟩ := h
    rw [h]
    exact hwritten s' hfiles
  | inr h =>
    obtain ⟨s', error, h⟩ := h
    rw [h]
    exact hfailed error s'

theorem wp_removeLeaf_alone {returned : Unit → Local → Machine → Prop}
    (hwritten : ∀ s', s'.files = Function.update s.files path .missing → returned () locals s')
    (hfailed : ∀ error s', failed error locals s') :
    Procedure.wp (executeAlone instanceId commit) (fun _ => True) (issue (.removeLeaf path))
      returned failed locals s :=
  wp_writing_alone (fun env => writing_alone_cases (writes_alone commit env (.removeLeaf path))
    s path .missing) hwritten hfailed

theorem wp_renameInto_alone {leaf : Leaf} {returned : Unit → Local → Machine → Prop}
    (hwritten : ∀ s', s'.files = Function.update s.files path leaf → returned () locals s')
    (hfailed : ∀ error s', failed error locals s') :
    Procedure.wp (executeAlone instanceId commit) (fun _ => True) (issue (.renameInto path leaf))
      returned failed locals s :=
  wp_writing_alone (fun env => writing_alone_cases
    (writes_alone commit env (.renameInto path leaf)) s path leaf) hwritten hfailed

/-- Whatever an action did, its continuation is run in some state. -/
theorem wp_bind_any {m : Action Local α} {f : α → Action Local β}
    {returned : β → Local → Machine → Prop}
    (hnext : ∀ value locals s, (f value).wp (executeAlone instanceId commit) (fun _ => True)
      returned failed locals s)
    (hfailed : ∀ error locals s, failed error locals s) :
    (m >>= f).wp (executeAlone instanceId commit) (fun _ => True) returned failed locals s := by
  rw [Procedure.wp_bind]
  have hany : m.wp (executeAlone instanceId commit) (fun _ => True) (fun _ _ _ => True)
      (fun _ _ _ => True) locals s :=
    Procedure.wp_invariant (fun _ _ _ h => h) m trivial
  exact .mono hany (fun value locals s _ => hnext value locals s)
    fun error locals s _ => hfailed error locals s

theorem wp_commitLeaf_alone {returned : Option Leaf → Local → Machine → Prop}
    (hread : ∀ s', s'.files = s.files → returned (commit path).leaf? locals s')
    (hfailed : ∀ error s', failed error locals s') :
    Procedure.wp (executeAlone instanceId commit) (fun _ => True) (issue (.commitLeaf path))
      returned failed locals s :=
  wp_answering_alone (fun _ => rfl) hread fun error s' _ => hfailed error s'

theorem wp_presentInCommit_alone {returned : Bool → Local → Machine → Prop}
    (hread : ∀ s', s'.files = s.files → returned (decide (commit path ≠ .absent)) locals s')
    (hfailed : ∀ error s', failed error locals s') :
    Procedure.wp (executeAlone instanceId commit) (fun _ => True)
      (issue (.ask (.presentInCommit path))) returned failed locals s :=
  wp_answering_alone (fun _ => rfl) hread fun error s' _ => hfailed error s'

end

end AgentBridge.Journal
