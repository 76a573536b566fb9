import AgentBridge.State.KeyRuns

/-!
# One key for a state directory

Over all runs in all processes: the key file keeps its content, and every call that returns a
key returns that content.
-/

namespace AgentBridge.State

open Systems Function

/-! ## All runs -/

/-- The key file stays, with its content. -/
def KeyKept (s s' : KeyDirectory) : Prop :=
  ∀ number file, s.key = some number → s.files[number]? = some file →
    s'.key = some number ∧ ∃ file', s'.files[number]? = some file' ∧ file'.content = file.content

theorem Undisturbed.keyKept {id : Nat} {s s' : KeyDirectory} (h : Undisturbed id s s') :
    KeyKept s s' := by
  intro number file hkey hfile
  obtain ⟨hkey', file', hfile', hsame⟩ := h.key number file hkey hfile
  exact ⟨hkey', file', hfile', hsame.1⟩

theorem KeyIs.kept {key : Key} {s s' : KeyDirectory} (h : KeyIs key s) (hkept : KeyKept s s') :
    KeyIs key s' := by
  obtain ⟨number, file, hkey, hfile, rfl⟩ := h
  obtain ⟨hkey', file', hfile', hcontent⟩ := hkept number file hkey hfile
  exact ⟨number, file', hkey', hfile', hcontent⟩

theorem KeyKept.trans {s s' s'' : KeyDirectory} (h : KeyKept s s') (h' : KeyKept s' s'') :
    KeyKept s s'' := by
  intro number file hkey hfile
  obtain ⟨hkey', file', hfile', hcontent⟩ := h number file hkey hfile
  obtain ⟨hkey'', file'', hfile'', hcontent'⟩ := h' number file' hkey' hfile'
  exact ⟨hkey'', file'', hfile'', hcontent'.trans hcontent⟩

/-- What is left of a run goes on to keep to what it owes and to end as claimed. -/
def RunSecured (id : Nat) (hindered : Prop) (p : KeyProgram) (s : KeyDirectory) : Prop :=
  p.Secures (execute id) (fun env s command => hindered ∨ Clear env s command) (Undisturbed id)
    (Considerate id)
    (Procedure.ending (fun key _ s' => KeyIs key s' ∧ key.length = 32) fun _ _ _ => hindered) s

/-- `started` says that the directory started without an incomplete key. -/
structure KeyInvariant (started : Prop) (s : KeyState) : Prop where
  wellFormed : s.directory.WellFormed
  complete : started → s.directory.Complete
  live : ∀ id p, s.live id = some p → (∃ command next, p = .call command next) ∧
    ∀ hindered, (s.troubled id ∨ ¬started → hindered) → RunSecured id hindered p s.directory
  returned : ∀ id key, s.ended id = some (.ok key) → KeyIs key s.directory ∧ key.length = 32
  failed : ∀ id error, s.ended id = some (.error error) → s.troubled id ∨ ¬started
  cached : ∀ process id, s.cached process = some id → s.process id = process ∧ id < s.runs ∧
    ((s.live id).isSome ∨ ∃ key, s.ended id = some (.ok key))

theorem wellFormed_start (key : Option KeyFile) (leftovers : List (String × KeyFile)) :
    (KeyDirectory.start key leftovers).WellFormed := by
  constructor
  · intro number hnumber
    cases key with
    | none => cases hnumber
    | some file =>
      cases hnumber
      simp [KeyDirectory.start]
  · intro name number hnumber
    obtain ⟨index, hindex, rfl⟩ := Option.map_eq_some_iff.mp hnumber
    have hlt := (List.findIdx?_eq_some_iff_getElem.mp hindex).1
    simp only [List.length_map] at hlt
    simp only [KeyDirectory.start, List.length_append, List.length_map]
    omega

def StartsComplete (key : Option KeyFile) : Prop :=
  ∀ file, key = some file → file.kind = .regular ∧ file.content.length = 32

theorem complete_start {key : Option KeyFile} (leftovers : List (String × KeyFile))
    (h : StartsComplete key) : (KeyDirectory.start key leftovers).Complete := by
  intro number hnumber
  cases key with
  | none => cases hnumber
  | some file =>
    cases hnumber
    exact ⟨file, rfl, h file rfl⟩

theorem keyInvariant_start (key : Option KeyFile) (leftovers : List (String × KeyFile)) :
    KeyInvariant (StartsComplete key) (.start (.start key leftovers)) where
  wellFormed := wellFormed_start key leftovers
  complete h := complete_start leftovers h
  live _ _ h := by cases h
  returned _ _ h := by cases h
  failed _ _ h := by cases h
  cached _ _ h := by cases h

section

variable {started : Prop} {s : KeyState}

variable (windows : Bool)

theorem KeyInvariant.call (h : KeyInvariant started s) (process : Nat) :
    KeyInvariant started (keyStep windows s (.call process)) := by
  cases hcached : s.cached process with
  | some id =>
    simp only [keyStep, hcached]
    exact ⟨h.wellFormed, h.complete, h.live, h.returned, h.failed, h.cached⟩
  | none =>
    simp only [keyStep, hcached]
    refine ⟨h.wellFormed, h.complete, fun id p hp => ?_, h.returned, h.failed,
      fun process' id hid => ?_⟩
    · dsimp only at hp
      by_cases heq : id = s.runs
      · rw [heq, update_self] at hp
        cases hp
        refine ⟨⟨_, _, rfl⟩, fun hindered hhindered => ?_⟩
        refine secured_queueRequestKey windows ⟨h.wellFormed, fun hne => ?_⟩ rfl
        exact h.complete (not_not.mp fun hincomplete => hne (hhindered (.inr hincomplete)))
      · rw [update_of_ne heq] at hp
        exact h.live id p hp
    · dsimp only at hid ⊢
      by_cases hprocess : process' = process
      · rw [hprocess, update_self] at hid
        cases hid
        rw [update_self, update_self]
        exact ⟨hprocess.symm, by omega, .inl rfl⟩
      · rw [update_of_ne hprocess] at hid
        obtain ⟨howner, hlt, hstate⟩ := h.cached process' id hid
        have heq : id ≠ s.runs := by omega
        rw [update_of_ne heq, update_of_ne heq]
        exact ⟨howner, by omega, hstate⟩

theorem KeyInvariant.die (h : KeyInvariant started s) (process : Nat) :
    KeyInvariant started (keyStep windows s (.die process)) := by
  refine ⟨h.wellFormed, h.complete, fun id p hp => ?_, h.returned, h.failed,
    fun process' id hid => ?_⟩
  · simp only [keyStep] at hp
    split at hp
    · cases hp
    · exact h.live id p hp
  · simp only [keyStep] at hid ⊢
    by_cases hprocess : process' = process
    · rw [hprocess, update_self] at hid
      cases hid
    · rw [update_of_ne hprocess] at hid
      obtain ⟨howner, hlt, hstate⟩ := h.cached process' id hid
      rw [if_neg fun heq => hprocess (howner.symm.trans heq)]
      exact ⟨howner, hlt, hstate⟩

/-- An operation of a run, before the run goes on with what is left of it. -/
theorem KeyInvariant.operate (h : KeyInvariant started s) {id : Nat} {env : KeyEnv}
    {command : KeyCommand}
    {next : Except KeyError (KeyReply command) → KeyProgram}
    (hlive : s.live id = some (.call command next)) :
    Considerate id s.directory (execute id env s.directory command).1 ∧
      ∀ hindered, ((s.troubled id ∨ ¬Clear env s.directory command) ∨ ¬started → hindered) →
        RunSecured id hindered (next (execute id env s.directory command).2)
          (execute id env s.directory command).1 := by
  have hsecured := (h.live id _ hlive).2
  have hstep : ∀ hindered, ((s.troubled id ∨ ¬Clear env s.directory command) ∨ ¬started →
      hindered) → Considerate id s.directory (execute id env s.directory command).1 ∧
        RunSecured id hindered (next (execute id env s.directory command).2)
          (execute id env s.directory command).1 := by
    intro hindered hhindered
    have hrun := hsecured hindered fun hcase => hhindered (hcase.imp_left .inl)
    refine Program.Secures.step (Undisturbed.refl id) hrun ?_
    by_cases hclear : Clear env s.directory command
    · exact .inr hclear
    · exact .inl (hhindered (.inl (.inr hclear)))
  exact ⟨(hstep True fun _ => trivial).1, fun hindered hhindered => (hstep hindered hhindered).2⟩

/-- The state after an operation, before the run goes on. -/
def KeyState.operated (s : KeyState) (id : Nat) (env : KeyEnv) (command : KeyCommand) : KeyState :=
  { s with
    directory := (execute id env s.directory command).1
    troubled := Function.update s.troubled id
      (s.troubled id ∨ ¬Clear env s.directory command) }

/-- The run goes on from a state in which all others are as they should. -/
theorem keyInvariant_settle {id : Nat} {p : KeyProgram} (hwellFormed : s.directory.WellFormed)
    (hcomplete : started → s.directory.Complete)
    (hlive : ∀ other q, other ≠ id → s.live other = some q →
      (∃ command next, q = .call command next) ∧
        ∀ hindered, (s.troubled other ∨ ¬started → hindered) →
          RunSecured other hindered q s.directory)
    (hreturned : ∀ other key, s.ended other = some (.ok key) →
      KeyIs key s.directory ∧ key.length = 32)
    (hfailed : ∀ other error, s.ended other = some (.error error) → s.troubled other ∨ ¬started)
    (hcached : ∀ process other, s.cached process = some other → s.process other = process ∧
      other < s.runs ∧ ((s.live other).isSome ∨ ∃ key, s.ended other = some (.ok key)))
    (hrun : ∀ hindered, (s.troubled id ∨ ¬started → hindered) →
      RunSecured id hindered p s.directory) :
    KeyInvariant started (s.settle id p) := by
  have hdone : ∀ other q, Function.update s.live id none other = some q →
      (∃ command next, q = .call command next) ∧
        ∀ hindered, (s.troubled other ∨ ¬started → hindered) →
          RunSecured other hindered q s.directory := by
    intro other q hq
    by_cases heq : other = id
    · rw [heq, update_self] at hq
      cases hq
    · rw [update_of_ne heq] at hq
      exact hlive other q heq hq
  match p with
  | .done (.ok key, locals) =>
    have hkey := Program.Secures.returned (Undisturbed.refl id) (hrun True fun _ => trivial)
    refine ⟨hwellFormed, hcomplete, hdone, fun other value hvalue => ?_,
      fun other error herror => ?_, fun process other hother => ?_⟩
    · by_cases heq : other = id
      · simp only [KeyState.settle, heq, update_self] at hvalue
        cases hvalue
        exact hkey
      · simp only [KeyState.settle, update_of_ne heq] at hvalue
        exact hreturned other value hvalue
    · by_cases heq : other = id
      · simp only [KeyState.settle, heq, update_self] at herror
        cases herror
      · simp only [KeyState.settle, update_of_ne heq] at herror
        exact hfailed other error herror
    · obtain ⟨howner, hlt, hstate⟩ := hcached process other hother
      refine ⟨howner, hlt, ?_⟩
      by_cases heq : other = id
      · exact .inr ⟨key, by simp only [KeyState.settle, heq, update_self]⟩
      · simp only [KeyState.settle, update_of_ne heq]
        exact hstate
  | .done (.error error, locals) =>
    have hhindered : s.troubled id ∨ ¬started :=
      Program.Secures.returned (Undisturbed.refl id) (hrun _ fun h => h)
    refine ⟨hwellFormed, hcomplete, hdone, fun other value hvalue => ?_,
      fun other error herror => ?_, fun process other hother => ?_⟩
    · by_cases heq : other = id
      · simp only [KeyState.settle, heq, update_self] at hvalue
        cases hvalue
      · simp only [KeyState.settle, update_of_ne heq] at hvalue
        exact hreturned other value hvalue
    · by_cases heq : other = id
      · rw [heq]
        exact hhindered
      · simp only [KeyState.settle, update_of_ne heq] at herror
        exact hfailed other error herror
    · simp only [KeyState.settle] at hother ⊢
      by_cases hprocess : process = s.process id
      · rw [hprocess, update_self] at hother
        cases hother
      · rw [update_of_ne hprocess] at hother
        obtain ⟨howner, hlt, hstate⟩ := hcached process other hother
        have heq : other ≠ id := fun heq => hprocess (by rw [← howner, heq])
        rw [update_of_ne heq, update_of_ne heq]
        exact ⟨howner, hlt, hstate⟩
  | .call command next =>
    refine ⟨hwellFormed, hcomplete, fun other q hq => ?_, hreturned, hfailed,
      fun process other hother => ?_⟩
    · by_cases heq : other = id
      · simp only [KeyState.settle, heq, update_self] at hq
        cases hq
        rw [heq]
        exact ⟨⟨command, next, rfl⟩, hrun⟩
      · simp only [KeyState.settle, update_of_ne heq] at hq
        exact hlive other q heq hq
    · obtain ⟨howner, hlt, hstate⟩ := hcached process other hother
      refine ⟨howner, hlt, hstate.imp_left fun hsome => ?_⟩
      by_cases heq : other = id
      · simp only [KeyState.settle, heq, update_self]
        rfl
      · simp only [KeyState.settle, update_of_ne heq]
        exact hsome

@[simp] theorem directory_settle (id : Nat) (p : KeyProgram) :
    (s.settle id p).directory = s.directory := by
  match p with
  | .done (.ok key, locals) => rfl
  | .done (.error error, locals) => rfl
  | .call command next => rfl

theorem KeyInvariant.advance (h : KeyInvariant started s) (id : Nat) (env : KeyEnv) :
    KeyInvariant started (keyStep windows s (.advance id env)) ∧
      Undisturbed (id + 1) s.directory (keyStep windows s (.advance id env)).directory := by
  cases hlive : s.live id with
  | none =>
    simp only [keyStep, hlive]
    exact ⟨h, .refl (id + 1) _⟩
  | some p =>
    obtain ⟨command, next, rfl⟩ := (h.live id p hlive).1
    have ⟨hconsiderate, hrun⟩ := @KeyInvariant.operate started s h id env command next hlive
    have hshared := hconsiderate.shared
    have hstep : keyStep windows s (.advance id env) = (s.operated id env command).settle id
        (next (execute id env s.directory command).2) := by
      simp only [keyStep, hlive]
      rfl
    have htroubled : ∀ other, s.troubled other → (s.operated id env command).troubled other := by
      intro other hother
      by_cases heq : other = id
      · subst heq
        simp only [KeyState.operated, update_self]
        exact .inl hother
      · simp only [KeyState.operated, update_of_ne heq]
        exact hother
    rw [hstep, directory_settle]
    refine ⟨?_, hshared⟩
    refine keyInvariant_settle (hshared.wellFormed h.wellFormed)
      (fun hstarted => hshared.complete (h.complete hstarted)) (fun other q heq hq => ?_)
      (fun other key hkey => ?_) (fun other error herror => ?_) h.cached ?_
    · obtain ⟨hcall, hothers⟩ := h.live other q hq
      refine ⟨hcall, fun hindered hhindered => ?_⟩
      refine .stable (.trans other)
        (hothers hindered fun hcase => hhindered ?_) (hconsiderate other heq)
      exact hcase.imp_left (htroubled other)
    · exact ⟨(h.returned other key hkey).1.undisturbed hshared, (h.returned other key hkey).2⟩
    · exact (h.failed other error herror).imp_left (htroubled other)
    · intro hindered hhindered
      refine hrun hindered fun hcase => hhindered (hcase.imp_left fun htrouble => ?_)
      simp only [KeyState.operated, update_self]
      exact htrouble

theorem KeyInvariant.step (h : KeyInvariant started s) (event : KeyEvent) :
    KeyInvariant started (keyStep windows s event) ∧
      KeyKept s.directory (keyStep windows s event).directory := by
  cases event with
  | call process =>
    refine ⟨h.call windows process, ?_⟩
    have hsame : (keyStep windows s (.call process)).directory = s.directory := by
      simp only [keyStep]
      split <;> rfl
    rw [hsame]
    exact (Undisturbed.refl 0 s.directory).keyKept
  | die process => exact ⟨h.die windows process, (Undisturbed.refl 0 s.directory).keyKept⟩
  | advance id env => exact ⟨(h.advance windows id env).1, (h.advance windows id env).2.keyKept⟩

theorem KeyInvariant.run (h : KeyInvariant started s) (events : List KeyEvent) :
    KeyInvariant started (Systems.run (keyStep windows) s events) ∧
      KeyKept s.directory (Systems.run (keyStep windows) s events).directory := by
  induction events generalizing s with
  | nil => exact ⟨h, (Undisturbed.refl 0 s.directory).keyKept⟩
  | cons event events ih =>
    have ⟨hstep, hkept⟩ := h.step windows event
    have ⟨hrun, hkept'⟩ := ih hstep
    exact ⟨hrun, hkept.trans hkept'⟩

theorem exists_ended_of_live {id : Nat} (p : KeyProgram) :
    ∀ {s : KeyState} (stream : Nat → KeyEnv), s.live id = some p →
      (∃ command next, p = .call command next) →
      ∃ n result, (Systems.run (keyStep windows) s
        ((List.range n).map fun i => .advance id (stream i))).ended id = some result := by
  induction p with
  | done value => exact fun stream _ ⟨_, _, h⟩ => by cases h
  | call command next ih =>
    intro s stream hlive _
    have hstep : keyStep windows s (.advance id (stream 0)) =
        (s.operated id (stream 0) command).settle id
          (next (execute id (stream 0) s.directory command).2) := by
      simp only [keyStep, hlive]
      rfl
    cases hnext : next (execute id (stream 0) s.directory command).2 with
    | done ended =>
      refine ⟨1, ended.1, ?_⟩
      simp only [List.range_one, List.map_cons, List.map_nil, run_cons, run_nil, hstep, hnext]
      match ended with
      | (.ok key, locals) => simp only [KeyState.settle, update_self]
      | (.error error, locals) => simp only [KeyState.settle, update_self]
    | call command' next' =>
      have hlive' : (keyStep windows s (.advance id (stream 0))).live id =
          some (next (execute id (stream 0) s.directory command).2) := by
        rw [hstep, hnext]
        simp only [KeyState.settle, update_self]
      have ⟨n, result, hended⟩ := ih _ (fun i => stream (i + 1)) hlive'
        ⟨command', next', hnext⟩
      refine ⟨n + 1, result, ?_⟩
      rw [List.range_succ_eq_map, List.map_cons, List.map_map, run_cons]
      exact hended

theorem KeyInvariant.exists_ended_of_call (h : KeyInvariant started s) (process : Nat)
    (stream : Nat → KeyEnv) : ∃ id n result,
      (keyStep windows s (.call process)).calls.getLast? = some id ∧
        (Systems.run (keyStep windows) (keyStep windows s (.call process))
          ((List.range n).map fun i => .advance id (stream i))).ended id = some result := by
  have hcall := h.call windows process
  obtain ⟨id, hlast, hcached⟩ : ∃ id,
      (keyStep windows s (.call process)).calls.getLast? = some id ∧
        (keyStep windows s (.call process)).cached process = some id := by
    cases hcached : s.cached process with
    | some id => exact ⟨id, by simp [keyStep, hcached], by simp [keyStep, hcached]⟩
    | none => exact ⟨s.runs, by simp [keyStep, hcached], by simp [keyStep, hcached]⟩
  obtain hlive | ⟨value, hended⟩ := (hcall.cached process id hcached).2.2
  · obtain ⟨p, hp⟩ := Option.isSome_iff_exists.mp hlive
    have ⟨n, result, hended⟩ := exists_ended_of_live windows p stream hp (hcall.live id p hp).1
    exact ⟨id, n, result, hlast, hended⟩
  · exact ⟨id, 0, .ok value, hlast, hended⟩

end

/-- In every run of any number of processes, whatever fails and whoever dies: all calls that
return a key return the one of the key file, which holds a complete key and never changes; and
from every state a call ends, with that key unless the environment got in its way. -/
theorem queueRequestKey_unique (windows : Bool) (key : Option KeyFile)
    (leftovers : List (String × KeyFile)) (events : List KeyEvent) :
    let s := Systems.run (keyStep windows) (.start (.start key leftovers)) events
    (∀ id value, s.ended id = some (.ok value) → KeyIs value s.directory ∧ value.length = 32) ∧
      (∀ id id' value value', s.ended id = some (.ok value) → s.ended id' = some (.ok value') →
        value = value') ∧
      (StartsComplete key → s.directory.Complete) ∧
      (∀ earlier later, events = earlier ++ later →
        KeyKept (Systems.run (keyStep windows) (.start (.start key leftovers)) earlier).directory
          s.directory) ∧
      ∀ (process : Nat) (stream : Nat → KeyEnv), ∃ id n result,
        let called := keyStep windows s (.call process)
        let after := Systems.run (keyStep windows) called
          ((List.range n).map fun i => .advance id (stream i))
        called.calls.getLast? = some id ∧ after.ended id = some result ∧
          (StartsComplete key → ¬after.troubled id →
            ∃ value, result = .ok value ∧ ∀ value', KeyIs value' s.directory → value' = value) := by
  have h := ((keyInvariant_start key leftovers).run windows events).1
  refine ⟨h.returned, fun id id' value value' hvalue hvalue' => ?_, h.complete,
    fun earlier later hevents => ?_, fun process stream => ?_⟩
  · exact (h.returned id value hvalue).1.unique (h.returned id' value' hvalue').1
  · have hearlier := ((keyInvariant_start key leftovers).run windows earlier).1
    rw [hevents, run_append]
    exact (hearlier.run windows later).2
  · generalize Systems.run (keyStep windows) (.start (.start key leftovers)) events = s at h
    have ⟨id, n, result, hlast, hended⟩ := h.exists_ended_of_call windows process stream
    refine ⟨id, n, result, hlast, hended, fun hstarted htrouble => ?_⟩
    have ⟨hafter, hkept⟩ := (h.call windows process).run windows
      ((List.range n).map fun i => .advance id (stream i))
    cases result with
    | error error =>
      exact absurd ((hafter.failed id error hended).resolve_right (not_not.mpr hstarted)) htrouble
    | ok value =>
      refine ⟨value, rfl, fun value' hvalue' => ?_⟩
      have hcalled : KeyIs value' (keyStep windows s (.call process)).directory :=
        hvalue'.kept (h.step windows (.call process)).2
      exact (hcalled.kept hkept).unique (hafter.returned id value hended).1

end AgentBridge.State
