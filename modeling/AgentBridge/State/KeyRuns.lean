import AgentBridge.State.KeySteps

/-!
# What a run of `queueRequestKey` ends with

Each part of a run beside the others, from the operations to the whole: it returns what the key
file holds, and fails only when its environment gets in its way.
-/

namespace AgentBridge.State

open Systems

/-! ## The parts of a run -/

/-- The names belong to files and, unless the run is hindered, the key file holds a complete
key. -/
def Sane (hindered : Prop) (s : KeyDirectory) : Prop :=
  s.WellFormed ∧ (¬hindered → s.Complete)

/-- The run keeps to what it owes the others and ends as claimed. -/
abbrev Secured (id : Nat) (hindered : Prop) {α : Type} (m : KeyAction α)
    (returned : α → KeyLocals → KeyDirectory → Prop)
    (failed : KeyError → KeyLocals → KeyDirectory → Prop) (locals : KeyLocals)
    (s : KeyDirectory) : Prop :=
  Procedure.Secures (execute id) (fun env s command => hindered ∨ Clear env s command)
    (Undisturbed id) (Considerate id) m returned failed locals s

section

variable {id : Nat} {hindered : Prop} {locals : KeyLocals} {s : KeyDirectory}

variable {other : Nat} {s' : KeyDirectory}

theorem Sane.undisturbed (h : Sane hindered s) (hstep : Undisturbed other s s') :
    Sane hindered s' :=
  ⟨hstep.wellFormed h.1, fun hne => hstep.complete (h.2 hne)⟩

theorem Considerate.shared (h : Considerate id s s') : Undisturbed (id + 1) s s' :=
  h (id + 1) (by omega)

variable {command : KeyCommand}

theorem quiet_tornCommand (h : Quiet command) (written : Nat) :
    Quiet (tornCommand written command) := by
  cases command with
  | writeFile handle content => cases h
  | _ => exact h

/-- What an operation may leave, whether it fails or not. -/
def Leaves (id : Nat) (env : KeyEnv) (s : KeyDirectory) (command : KeyCommand)
    (s' : KeyDirectory) : Prop :=
  s' = s ∨ s' = (perform id env s command).1 ∨
    ∃ written, s' = (perform id env s (tornCommand written command)).1

variable {failed : KeyError → KeyLocals → KeyDirectory → Prop}

/-- The rule of an operation: what it may leave, its reply, and a failure that only the
environment of a hindered run brings about. -/
theorem secured_issue {returned : KeyReply command → KeyLocals → KeyDirectory → Prop}
    (hleaves : ∀ s₁ env s₂, Undisturbed id s s₁ → Leaves id env s₁ command s₂ →
      Considerate id s₁ s₂)
    (hreply : ∀ s₁ env, Undisturbed id s s₁ → hindered ∨ Clear env s₁ command → ∀ s',
      Undisturbed id (perform id env s₁ command).1 s' →
      match (perform id env s₁ command).2 with
      | .ok reply => returned reply locals s'
      | .error error => failed error locals s')
    (hfault : hindered → ∀ s₁ env s₂ error s', Undisturbed id s s₁ →
      Leaves id env s₁ command s₂ → Undisturbed id s₂ s' → failed error locals s') :
    Secured id hindered (issue command) returned failed locals s := by
  refine .call fun s₁ h₁ env henv => ?_
  have hfailing : env.fault ≠ .none → hindered := fun hne =>
    henv.resolve_right fun hclear => hne hclear.1
  unfold execute
  cases hfaulty : env.fault with
  | none =>
    refine ⟨hleaves s₁ env _ h₁ (.inr (.inl rfl)), fun s' h' => ?_⟩
    have hanswer := hreply s₁ env h₁ henv s' h'
    revert hanswer
    cases (perform id env s₁ command).2 <;> exact fun h => h
  | before error =>
    have hhindered := hfailing (by simp [hfaulty])
    exact ⟨hleaves s₁ env _ h₁ (.inl rfl), fun s' =>
      hfault hhindered s₁ env s₁ error s' h₁ (.inl rfl)⟩
  | after error =>
    have hhindered := hfailing (by simp [hfaulty])
    exact ⟨hleaves s₁ env _ h₁ (.inr (.inl rfl)), fun s' =>
      hfault hhindered s₁ env _ error s' h₁ (.inr (.inl rfl))⟩
  | torn written error =>
    have hhindered := hfailing (by simp [hfaulty])
    exact ⟨hleaves s₁ env _ h₁ (.inr (.inr ⟨written, rfl⟩)), fun s' =>
      hfault hhindered s₁ env _ error s' h₁ (.inr (.inr ⟨written, rfl⟩))⟩

theorem Leaves.undisturbed {env : KeyEnv} (hquiet : Quiet command) (h : Leaves id env s command s')
    (other : Nat) : Undisturbed other s s' := by
  obtain rfl | rfl | ⟨written, rfl⟩ := h
  · exact .refl other s'
  · exact undisturbed_perform_of_quiet other id env s hquiet
  · exact undisturbed_perform_of_quiet other id env s (quiet_tornCommand hquiet written)

theorem secured_quiet (hquiet : Quiet command) :
    Secured id hindered (issue command)
      (fun reply locals' s' => locals' = locals ∧ Undisturbed id s s' ∧ ∃ s₁ env,
        Undisturbed id s s₁ ∧ Undisturbed id s₁ s' ∧ (perform id env s₁ command).2 = .ok reply)
      (fun error locals' s' => locals' = locals ∧ Undisturbed id s s' ∧
        (hindered ∨ ∃ s₁ env, Undisturbed id s s₁ ∧ (perform id env s₁ command).2 = .error error))
      locals s := by
  refine secured_issue ?_ ?_ ?_
  · exact fun s₁ env s₂ _ hleft other _ => hleft.undisturbed hquiet other
  · intro s₁ env h₁ _ s' h'
    have hquietly := undisturbed_perform_of_quiet id id env s₁ hquiet
    have hs' : Undisturbed id s₁ s' := hquietly.trans _ _ _ _ h'
    cases hreply : (perform id env s₁ command).2 with
    | ok reply => exact ⟨rfl, h₁.trans _ _ _ _ hs', s₁, env, h₁, hs', hreply⟩
    | error error => exact ⟨rfl, h₁.trans _ _ _ _ hs', .inr ⟨s₁, env, h₁, hreply⟩⟩
  · intro hhindered s₁ env s₂ error s' h₁ hleft h'
    exact ⟨rfl, h₁.trans _ _ _ _ ((hleft.undisturbed hquiet id).trans _ _ _ _ h'), .inl hhindered⟩

theorem secured_refuseUnless {condition : Bool} {message : String}
    {returned : Unit → KeyLocals → KeyDirectory → Prop}
    (hok : condition = true → ∀ s', Undisturbed id s s' → returned () locals s')
    (hrefused : condition = false → ∀ s', Undisturbed id s s' → failed (.other message) locals s') :
    Secured id hindered (refuseUnless condition message) returned failed locals s :=
  Procedure.Secures.ite (fun h => .pure (hok h))
    fun h => .raise (hrefused (by simpa using h))

variable {α : Type}

theorem secured_bind {β : Type} {m : KeyAction α} {f : α → KeyAction β}
    {returned : β → KeyLocals → KeyDirectory → Prop} (h : Secured id hindered m
      (fun value locals s => Secured id hindered (f value) returned failed locals s) failed
      locals s) : Secured id hindered (m >>= f) returned failed locals s :=
  Procedure.Secures.bind (.refl id) (.trans id) h

/-- What `existingKey` fails with: without a hindrance only because there is no key file. -/
def KeyMissing (hindered : Prop) (s : KeyDirectory) (error : KeyError) : Prop :=
  hindered ∨ error = .notFound ∧ s.key = none

theorem ask_eq_ok {entry : KeyEntry} {answer : KeyFile → α} {reply : α}
    (h : s.ask entry answer = .ok reply) :
    ∃ file, s.file entry = some file ∧ answer file = reply := by
  unfold KeyDirectory.ask at h
  split at h
  · rename_i file hfile
    cases h
    exact ⟨file, hfile, rfl⟩
  · cases h

theorem ask_eq_error {entry : KeyEntry} {answer : KeyFile → α} {error : KeyError}
    (h : s.ask entry answer = .error error) : s.file entry = none ∧ error = .notFound := by
  unfold KeyDirectory.ask at h
  split at h
  · cases h
  · rename_i hfile
    cases h
    exact ⟨hfile, rfl⟩

theorem file_key_eq_some {file : KeyFile} (h : s.file .key = some file) :
    ∃ number, s.key = some number ∧ s.files[number]? = some file :=
  Option.bind_eq_some_iff.mp h

theorem key_eq_none_of_file (hs : s.WellFormed) (h : s.file .key = none) : s.key = none := by
  cases hkey : s.key with
  | none => rfl
  | some number =>
    have hlt := hs.1 number hkey
    simp [KeyDirectory.file, KeyDirectory.entry, hkey, List.getElem?_eq_getElem hlt] at h

theorem key_eq_none_of_undisturbed (hs : s.WellFormed) (hstep : Undisturbed other s s')
    (h : s'.key = none) : s.key = none := by
  cases hkey : s.key with
  | none => rfl
  | some number =>
    have hkey' := (hstep.key number _ hkey (List.getElem?_eq_getElem (hs.1 number hkey))).1
    rw [h] at hkey'
    cases hkey'

theorem Sane.complete_file (hsane : Sane hindered s) {file : KeyFile}
    (hfile : s.file .key = some file) :
    hindered ∨ file.kind = .regular ∧ file.content.length = 32 := by
  by_cases hhindered : hindered
  · exact .inl hhindered
  · right
    obtain ⟨number, hkey, hget⟩ := file_key_eq_some hfile
    obtain ⟨file', hget', hcomplete⟩ := hsane.2 hhindered number hkey
    rw [hget] at hget'
    cases hget'
    exact hcomplete

theorem keyMissing_of_file {s₁ : KeyDirectory} {error : KeyError} (hsane : Sane hindered s)
    (h₁ : Undisturbed id s s₁) (h : s₁.file .key = none ∧ error = .notFound) :
    KeyMissing hindered s error :=
  .inr ⟨h.2, key_eq_none_of_undisturbed hsane.1 h₁
    (key_eq_none_of_file (h₁.wellFormed hsane.1) h.1)⟩

theorem secured_askKey {answer : KeyFile → KeyReply command} (hquiet : Quiet command)
    (hask : ∀ env s, (perform id env s command).2 = s.ask .key answer) (hsane : Sane hindered s) :
    Secured id hindered (issue command)
      (fun reply locals' s' => locals' = locals ∧ Undisturbed id s s' ∧ ∃ s₁ file,
        Undisturbed id s s₁ ∧ Undisturbed id s₁ s' ∧ s₁.file .key = some file ∧
          answer file = reply)
      (fun error locals' s' => locals' = locals ∧ Undisturbed id s s' ∧
        KeyMissing hindered s error) locals s := by
  refine .mono (secured_quiet hquiet) ?_ ?_
  · rintro reply _ s' ⟨rfl, h', s₁, env, h₁, h₁', hreply⟩
    rw [hask] at hreply
    obtain ⟨file, hfile, hanswer⟩ := ask_eq_ok hreply
    exact ⟨rfl, h', s₁, file, h₁, h₁', hfile, hanswer⟩
  · rintro error _ s' ⟨rfl, h', hfailed⟩
    refine ⟨rfl, h', ?_⟩
    obtain hhindered | ⟨s₁, env, h₁, herror⟩ := hfailed
    · exact .inl hhindered
    · rw [hask] at herror
      exact keyMissing_of_file hsane h₁ (ask_eq_error herror)

/-- Only the owner has rights to the key file. -/
def KeyClosed (s : KeyDirectory) : Prop :=
  ∃ number file, s.key = some number ∧ s.files[number]? = some file ∧ exposed file.mode = false

theorem KeyClosed.undisturbed (h : KeyClosed s) (hstep : Undisturbed other s s') :
    KeyClosed s' := by
  obtain ⟨number, file, hkey, hfile, hmode⟩ := h
  obtain ⟨hkey', file', hfile', hsame⟩ := hstep.key number file hkey hfile
  exact ⟨number, file', hkey', hfile', hsame.2.2.2 hmode⟩

theorem secured_chmodKey (hsane : Sane hindered s) :
    Secured id hindered (issue (.chmod .key))
      (fun _ locals' s' => locals' = locals ∧ Undisturbed id s s' ∧ KeyClosed s')
      (fun error locals' s' => locals' = locals ∧ Undisturbed id s s' ∧
        KeyMissing hindered s error) locals s := by
  have hquiet : Quiet (.chmod .key) := trivial
  refine secured_issue (fun s₁ env s₂ _ hleft other _ => hleft.undisturbed hquiet other) ?_ ?_
  · intro s₁ env h₁ _ s' h'
    have hs' := h₁.trans _ _ _ _
      ((undisturbed_perform_of_quiet id id env s₁ hquiet).trans _ _ _ _ h')
    cases hkey : s₁.key with
    | none =>
      simp only [perform, KeyDirectory.entry, hkey]
      exact ⟨trivial, hs', .inr ⟨rfl, key_eq_none_of_undisturbed hsane.1 h₁ hkey⟩⟩
    | some number =>
      have hlt := (h₁.wellFormed hsane.1).1 number hkey
      have hclosed : KeyClosed (perform id env s₁ (.chmod .key)).1 := by
        refine ⟨number, { s₁.files[number] with mode := 0o600 }, ?_, ?_,
          (by decide : exposed 0o600 = false)⟩
        · simp only [perform, KeyDirectory.entry, hkey, KeyDirectory.update]
        · simp [perform, KeyDirectory.entry, hkey, KeyDirectory.update, hlt]
      have hclosed' := hclosed.undisturbed h'
      simp only [perform, KeyDirectory.entry, hkey]
      exact ⟨trivial, hs', hclosed'⟩
  · intro hhindered s₁ env s₂ error s' h₁ hleft h'
    exact ⟨rfl, h₁.trans _ _ _ _ ((hleft.undisturbed hquiet id).trans _ _ _ _ h'), .inl hhindered⟩

variable (windows : Bool)

theorem secured_tightenPermissions (details : KeyFile) (hsane : Sane hindered s) :
    Secured id hindered (tightenPermissions windows details)
      (fun _ locals' s' => locals' = locals ∧ Undisturbed id s s')
      (fun error locals' s' => locals' = locals ∧ Undisturbed id s s' ∧
        KeyMissing hindered s error) locals s := by
  refine .ite (fun _ => ?_) fun _ => .pure fun _ h => ⟨rfl, h⟩
  refine secured_bind (.mono (secured_chmodKey hsane) ?_ fun _ _ _ h => h)
  rintro _ _ s₁ ⟨rfl, h₁, hclosed⟩
  refine secured_bind (.mono
    (secured_askKey trivial (fun _ _ => rfl) (hsane.undisturbed h₁)) ?_ ?_)
  · rintro tightened _ s₂ ⟨rfl, h₂, s₃, file, h₃, _, hfile, rfl⟩
    refine secured_refuseUnless (fun _ s₄ h₄ => ⟨rfl, h₁.trans _ _ _ _ (h₂.trans _ _ _ _ h₄)⟩) ?_
    intro hrefused
    -- The permissions that were set are those that are read.
    obtain ⟨number, file', hkey, hget, hmode⟩ := hclosed.undisturbed h₃
    obtain ⟨number', hkey', hget'⟩ := file_key_eq_some hfile
    rw [hkey] at hkey'
    cases hkey'
    rw [hget] at hget'
    cases hget'
    simp [hmode] at hrefused
  · rintro error _ s₂ ⟨rfl, h₂, hfailed⟩
    exact ⟨rfl, h₁.trans _ _ _ _ h₂, hfailed.imp_right fun h =>
      ⟨h.1, key_eq_none_of_undisturbed hsane.1 h₁ h.2⟩⟩

theorem secured_existingKey (hsane : Sane hindered s) :
    Secured id hindered (existingKey windows)
      (fun key locals' s' => locals' = locals ∧ Undisturbed id s s' ∧ KeyIs key s' ∧
        key.length = 32)
      (fun error locals' s' => locals' = locals ∧ Undisturbed id s s' ∧
        KeyMissing hindered s error) locals s := by
  have hlater : ∀ {s₁ error}, Undisturbed id s s₁ → KeyMissing hindered s₁ error →
      KeyMissing hindered s error := fun h₁ h => h.imp_right fun h =>
    ⟨h.1, key_eq_none_of_undisturbed hsane.1 h₁ h.2⟩
  unfold existingKey
  refine secured_bind (.mono (secured_askKey trivial (fun _ _ => rfl) hsane) ?_
    fun _ _ _ h => h)
  rintro details _ s₂ ⟨rfl, h₂, s₁, file, h₁, _, hfile, rfl⟩
  have hregular := (hsane.undisturbed h₁).complete_file hfile
  refine secured_bind (secured_refuseUnless (fun _ s₃ h₃ => ?_) fun hkind s₃ h₃ => ?_)
  · have h₃ := h₂.trans _ _ _ _ h₃
    refine secured_bind (.mono
      (secured_askKey trivial (fun _ _ => rfl) (hsane.undisturbed h₃)) ?_ ?_)
    · rintro existing _ s₅ ⟨rfl, h₅, s₄, read, h₄, h₄₅, hread, rfl⟩
      have hcomplete := ((hsane.undisturbed h₃).undisturbed h₄).complete_file hread
      have hkey : KeyIs read.content s₄ := by
        obtain ⟨number, hkey, hget⟩ := file_key_eq_some hread
        exact ⟨number, read, hkey, hget, rfl⟩
      have h₅ := h₃.trans _ _ _ _ h₅
      refine secured_bind (secured_refuseUnless (fun hlength s₆ h₆ => ?_) fun hlength s₆ h₆ => ?_)
      · have hs₆ := h₅.trans _ _ _ _ h₆
        refine secured_bind (.mono
          (secured_tightenPermissions windows file (hsane.undisturbed hs₆)) ?_ ?_)
        · rintro _ _ s₇ ⟨rfl, h₇⟩
          refine .pure fun s₈ h₈ => ⟨rfl, hs₆.trans _ _ _ _ (h₇.trans _ _ _ _ h₈), ?_,
            by simpa using hlength⟩
          exact (((hkey.undisturbed h₄₅).undisturbed h₆).undisturbed h₇).undisturbed h₈
        · rintro error _ s₇ ⟨rfl, h₇, hfailed⟩
          exact ⟨rfl, hs₆.trans _ _ _ _ h₇, hlater hs₆ hfailed⟩
      · refine ⟨rfl, h₅.trans _ _ _ _ h₆, .inl (hcomplete.resolve_right fun h => ?_)⟩
        simp [h.2] at hlength
    · rintro error _ s₅ ⟨rfl, h₅, hfailed⟩
      exact ⟨rfl, h₃.trans _ _ _ _ h₅, hlater h₃ hfailed⟩
  · refine ⟨rfl, h₂.trans _ _ _ _ h₃, .inl (hregular.resolve_right fun h => ?_)⟩
    simp [h.1] at hkind

/-! ## The temporary file of a run -/

/-- The run has its temporary file, under its name only. -/
structure Prepared (id : Nat) (hindered : Prop) (name : String) (handle : Nat) (content : Key)
    (s : KeyDirectory) : Prop where
  sane : Sane hindered s
  holding : Holding id name handle content s
  unlinked : s.key ≠ some handle

variable {content : Key} {handle : Nat} {name : String}

theorem Prepared.undisturbed (h : Prepared id hindered name handle content s)
    (hstep : Undisturbed id s s') : Prepared id hindered name handle content s' :=
  ⟨h.sane.undisturbed hstep, h.holding.undisturbed hstep, h.holding.unlinked hstep h.unlinked⟩

/-- What the `finally` block may have to remove is the run's own. -/
def OwnsTemporary (id : Nat) (name : String) (locals : KeyLocals) (s : KeyDirectory) : Prop :=
  locals.temporaryOwned = true → ∃ handle content, Holding id name handle content s

theorem OwnsTemporary.undisturbed (h : OwnsTemporary id name locals s)
    (hstep : Undisturbed id s s') :
    OwnsTemporary id name locals s' := by
  intro howned
  obtain ⟨handle, content, hholding⟩ := h howned
  exact ⟨handle, content, hholding.undisturbed hstep⟩

theorem secured_openNew (hsane : Sane hindered s) :
    Secured id hindered (issue (.openNew name))
      (fun handle locals' s' => locals' = locals ∧ Prepared id hindered name handle [] s')
      (fun _ locals' s' => locals' = locals ∧ Sane hindered s' ∧ hindered) locals s := by
  have hleaves : ∀ s₁ env s₂, Undisturbed id s s₁ → Leaves id env s₁ (.openNew name) s₂ →
      Considerate id s₁ s₂ := by
    intro s₁ env s₂ h₁ hleft
    have hperform : Considerate id s₁ (perform id env s₁ (.openNew name)).1 := by
      rw [perform]
      cases hname : s₁.temporary name with
      | some number => exact fun other _ => .refl other s₁
      | none => exact considerate_withTemporary (h₁.wellFormed hsane.1) hname
    obtain rfl | rfl | ⟨written, rfl⟩ := hleft
    · exact fun other _ => .refl other s₂
    · exact hperform
    · exact hperform
  refine secured_issue hleaves ?_ ?_
  · intro s₁ env h₁ henv s' h'
    have hsane₁ := hsane.undisturbed h₁
    cases hname : s₁.temporary name with
    | some number =>
      have hhindered : hindered := henv.resolve_right fun hclear => by
        simp [hclear.2 name rfl] at hname
      simp only [perform, hname] at h' ⊢
      exact ⟨trivial, hsane₁.undisturbed h', hhindered⟩
    | none =>
      simp only [perform, hname] at h' ⊢
      have hconsiderate := @considerate_withTemporary id _ _ hsane₁.1 hname
      refine ⟨trivial, .undisturbed ⟨hsane₁.undisturbed hconsiderate.shared,
        holding_withTemporary, fun hkey => ?_⟩ h'⟩
      have hlt := hsane₁.1.1 _ hkey
      omega
  · intro hhindered s₁ env s₂ error s' h₁ hleft h'
    have hsane₂ := (hsane.undisturbed h₁).undisturbed (hleaves s₁ env s₂ h₁ hleft).shared
    exact ⟨rfl, hsane₂.undisturbed h', hhindered⟩

/-- A quiet operation that succeeds on the run's own file. -/
theorem secured_own {command : KeyCommand} {good : KeyReply command → Prop} {name : String}
    {handle : Nat} {content : Key} (hquiet : Quiet command)
    (hok : ∀ env s, Holding id name handle content s →
      ∃ reply, (perform id env s command).2 = .ok reply ∧ good reply)
    (hprepared : Prepared id hindered name handle content s) :
    Secured id hindered (issue command)
      (fun reply locals' s' => locals' = locals ∧ Prepared id hindered name handle content s' ∧
        good reply)
      (fun _ locals' s' => locals' = locals ∧ Prepared id hindered name handle content s' ∧
        hindered) locals s := by
  refine .mono (secured_quiet hquiet) ?_ ?_
  · rintro reply _ s' ⟨rfl, h', s₁, env, h₁, _, hreply⟩
    obtain ⟨reply', hreply', hgood⟩ := hok env s₁ (hprepared.holding.undisturbed h₁)
    rw [hreply] at hreply'
    cases hreply'
    exact ⟨rfl, hprepared.undisturbed h', hgood⟩
  · rintro error _ s' ⟨rfl, h', hfailed⟩
    refine ⟨rfl, hprepared.undisturbed h', ?_⟩
    obtain hhindered | ⟨s₁, env, h₁, herror⟩ := hfailed
    · exact hhindered
    · obtain ⟨reply, hreply, _⟩ := hok env s₁ (hprepared.holding.undisturbed h₁)
      rw [hreply] at herror
      cases herror

theorem secured_writeFile (key : Key) (hprepared : Prepared id hindered name handle content s) :
    Secured id hindered (issue (.writeFile handle key))
      (fun _ locals' s' => locals' = locals ∧ Prepared id hindered name handle key s')
      (fun _ locals' s' => locals' = locals ∧ hindered ∧
        ∃ written, Prepared id hindered name handle written s') locals s := by
  have hwritten : ∀ s₁ written, Undisturbed id s s₁ →
      Considerate id s₁ (s₁.update handle fun file => { file with content := written }) ∧
        Prepared id hindered name handle written
          (s₁.update handle fun file => { file with content := written }) := by
    intro s₁ written h₁
    have h := hprepared.undisturbed h₁
    have hconsiderate := considerate_write h.holding h.unlinked written
    exact ⟨hconsiderate, h.sane.undisturbed hconsiderate.shared, holding_write h.holding written,
      h.unlinked⟩
  have hleft : ∀ s₁ env s₂, Undisturbed id s s₁ → Leaves id env s₁ (.writeFile handle key) s₂ →
      Considerate id s₁ s₂ ∧ ∃ written, Prepared id hindered name handle written s₂ := by
    intro s₁ env s₂ h₁ hleft
    obtain rfl | rfl | ⟨count, rfl⟩ := hleft
    · exact ⟨fun other _ => .refl other s₂, content, hprepared.undisturbed h₁⟩
    · exact ⟨(hwritten s₁ key h₁).1, key, (hwritten s₁ key h₁).2⟩
    · exact ⟨(hwritten s₁ (key.take count) h₁).1, _, (hwritten s₁ (key.take count) h₁).2⟩
  refine secured_issue (fun s₁ env s₂ h₁ h => (hleft s₁ env s₂ h₁ h).1) ?_ ?_
  · exact fun s₁ env h₁ _ s' h' => ⟨rfl, (hwritten s₁ key h₁).2.undisturbed h'⟩
  · intro hhindered s₁ env s₂ error s' h₁ h h'
    obtain ⟨written, hprepared'⟩ := (hleft s₁ env s₂ h₁ h).2
    exact ⟨rfl, hhindered, written, hprepared'.undisturbed h'⟩

variable {key : Key}

/-- The link: the complete file becomes the key file, or there is one. -/
theorem secured_link (hlength : key.length = 32)
    (hprepared : Prepared id hindered name handle key s) :
    Secured id hindered (issue (.link name))
      (fun _ locals' s' => locals' = locals ∧ Sane hindered s' ∧ Holding id name handle key s' ∧
        KeyIs key s')
      (fun error locals' s' => locals' = locals ∧ Sane hindered s' ∧
        Holding id name handle key s' ∧ (hindered ∨ error = .exists ∧ s'.key ≠ none)) locals s := by
  have hlinked : ∀ s₁, Undisturbed id s s₁ → s₁.key = none →
      Considerate id s₁ { s₁ with key := some handle } := fun s₁ h₁ hkey =>
    considerate_link (hprepared.undisturbed h₁).holding hlength hkey
  have hleft : ∀ s₁ env s₂, Undisturbed id s s₁ → Leaves id env s₁ (.link name) s₂ →
      Considerate id s₁ s₂ ∧ Holding id name handle key s₂ := by
    intro s₁ env s₂ h₁ hleft
    have hholding := (hprepared.undisturbed h₁).holding
    have hperform : Considerate id s₁ (perform id env s₁ (.link name)).1 ∧
        Holding id name handle key (perform id env s₁ (.link name)).1 := by
      cases hkey : s₁.key with
      | some number =>
        simp only [perform, hkey]
        exact ⟨fun other _ => .refl other s₁, hholding⟩
      | none =>
        simp only [perform, hkey, hholding.1]
        exact ⟨hlinked s₁ h₁ hkey, hholding⟩
    obtain rfl | rfl | ⟨written, rfl⟩ := hleft
    · exact ⟨fun other _ => .refl other s₂, hholding⟩
    · exact hperform
    · exact hperform
  refine secured_issue (fun s₁ env s₂ h₁ h => (hleft s₁ env s₂ h₁ h).1) ?_ ?_
  · intro s₁ env h₁ _ s' h'
    have h := hprepared.undisturbed h₁
    cases hkey : s₁.key with
    | some number =>
      simp only [perform, hkey] at h' ⊢
      refine ⟨trivial, h.sane.undisturbed h', h.holding.undisturbed h', .inr ⟨trivial, ?_⟩⟩
      intro hnone
      have hkey' := key_eq_none_of_undisturbed h.sane.1 h' hnone
      rw [hkey] at hkey'
      cases hkey'
    | none =>
      simp only [perform, hkey, h.holding.1] at h' ⊢
      have hkeyIs : KeyIs key { s₁ with key := some handle } := by
        obtain ⟨_, file, hfile, _, _, _, hcontent⟩ := h.holding
        exact ⟨handle, file, rfl, hfile, hcontent⟩
      have hsane := h.sane.undisturbed (hlinked s₁ h₁ hkey).shared
      have hholding : Holding id name handle key { s₁ with key := some handle } := h.holding
      exact ⟨trivial, hsane.undisturbed h', hholding.undisturbed h', hkeyIs.undisturbed h'⟩
  · intro hhindered s₁ env s₂ error s' h₁ h h'
    obtain ⟨hconsiderate, hholding⟩ := hleft s₁ env s₂ h₁ h
    have hsane := (hprepared.sane.undisturbed h₁).undisturbed hconsiderate.shared
    exact ⟨rfl, hsane.undisturbed h', hholding.undisturbed h', .inl hhindered⟩

/-- How `publishKey` leaves the directory to the `finally` block. -/
def Published (id : Nat) (hindered : Prop) (name : String) (key : Key) (locals : KeyLocals)
    (s : KeyDirectory) : Prop :=
  Sane hindered s ∧ OwnsTemporary id name locals s ∧ KeyIs key s ∧ key.length = 32

def Unpublished (id : Nat) (hindered : Prop) (name : String) (locals : KeyLocals)
    (s : KeyDirectory) : Prop :=
  Sane hindered s ∧ OwnsTemporary id name locals s ∧ hindered

theorem Prepared.unpublished (h : Prepared id hindered name handle content s)
    (hhindered : hindered) :
    Unpublished id hindered name locals s :=
  ⟨h.sane, fun _ => ⟨handle, content, h.holding⟩, hhindered⟩

theorem secured_linkKey (hlength : key.length = 32)
    (hprepared : Prepared id hindered name handle key s) :
    Secured id hindered (linkKey windows key name) (Published id hindered name)
      (fun _ => Unpublished id hindered name) locals s := by
  refine .recover (.refl id) (.trans id) ?_
  refine secured_bind (.mono (secured_link hlength hprepared) ?_ ?_)
  · rintro _ locals' s₁ ⟨rfl, hsane, hholding, hkey⟩
    refine .pure fun s₂ h₂ => ⟨hsane.undisturbed h₂, fun _ => ?_, hkey.undisturbed h₂, hlength⟩
    exact ⟨handle, key, hholding.undisturbed h₂⟩
  · rintro error locals' s₁ ⟨rfl, hsane, hholding, hfailed⟩
    have howns : ∀ {s₂}, Undisturbed id s₁ s₂ → OwnsTemporary id name locals' s₂ :=
      fun h₂ _ => ⟨handle, key, hholding.undisturbed h₂⟩
    refine .ite (fun _ => ?_) fun hother => ?_
    · -- A run that is not hindered has met the key file, which stays.
      have hmissing : ∀ {s₂ error}, Undisturbed id s₁ s₂ → KeyMissing hindered s₂ error →
          hindered := by
        rintro s₂ error h₂ (hhindered | ⟨_, hnone⟩)
        · exact hhindered
        · refine hfailed.resolve_right fun h => h.2 ?_
          exact key_eq_none_of_undisturbed hsane.1 h₂ hnone
      refine secured_bind (.mono (secured_quiet trivial) ?_ ?_)
      · rintro _ locals₂ s₂ ⟨rfl, h₂, _⟩
        refine .mono (secured_existingKey windows (hsane.undisturbed h₂)) ?_ ?_
        · rintro existing locals₃ s₃ ⟨rfl, h₃, hkey, hlength⟩
          have h₃ := h₂.trans _ _ _ _ h₃
          exact ⟨hsane.undisturbed h₃, howns h₃, hkey, hlength⟩
        · rintro error locals₃ s₃ ⟨rfl, h₃, hfailed⟩
          have hs₃ := h₂.trans _ _ _ _ h₃
          exact ⟨hsane.undisturbed hs₃, howns hs₃, hmissing h₂ hfailed⟩
      · rintro error locals₂ s₂ ⟨rfl, h₂, hrefused⟩
        refine ⟨hsane.undisturbed h₂, howns h₂, ?_⟩
        obtain hhindered | ⟨s₃, env, h₃, herror⟩ := hrefused
        · exact hhindered
        · -- The key file is there and no link.
          have hsane₃ := hsane.undisturbed h₃
          cases hfile : s₃.file .key with
          | none => exact hmissing h₃ (.inr ⟨rfl, key_eq_none_of_file hsane₃.1 hfile⟩)
          | some file =>
            refine (hsane₃.complete_file hfile).resolve_right fun hcomplete => ?_
            simp [perform, hfile, hcomplete.1] at herror
    · refine .raise fun s₂ h₂ => ⟨hsane.undisturbed h₂, howns h₂, ?_⟩
      exact hfailed.resolve_right fun h => hother h.1

/-- The rule of a quiet operation of `publishKey` on the run's own file. -/
theorem secured_then (good : KeyReply command → Prop) {f : KeyReply command → KeyAction α}
    {returned : α → KeyLocals → KeyDirectory → Prop} (hquiet : Quiet command)
    (hok : ∀ env s, Holding id name handle content s →
      ∃ reply, (perform id env s command).2 = .ok reply ∧ good reply)
    (hprepared : Prepared id hindered name handle content s)
    (hnext : ∀ reply s', good reply → Prepared id hindered name handle content s' →
      Secured id hindered (f reply) returned (fun _ => Unpublished id hindered name) locals s') :
    Secured id hindered (issue command >>= f) returned
      (fun _ => Unpublished id hindered name) locals s := by
  refine secured_bind (.mono (secured_own hquiet hok hprepared) ?_ ?_)
  · rintro reply _ s' ⟨rfl, hprepared', hgood⟩
    exact hnext reply s' hgood hprepared'
  · rintro error _ s' ⟨rfl, hprepared', hhindered⟩
    exact hprepared'.unpublished hhindered

theorem secured_check {condition : Bool} {message : String}
    {returned : Unit → KeyLocals → KeyDirectory → Prop} (hcondition : condition = true)
    (hprepared : Prepared id hindered name handle content s)
    (hnext : ∀ s', Prepared id hindered name handle content s' → returned () locals s') :
    Secured id hindered (refuseUnless condition message) returned
      (fun _ => Unpublished id hindered name) locals s := by
  refine secured_refuseUnless (fun _ s' h' => hnext s' (hprepared.undisturbed h')) fun hfalse => ?_
  rw [hcondition] at hfalse
  cases hfalse

theorem Holding.file_temporary (h : Holding id name handle content s) :
    ∃ file, s.file (.temporary name) = some file ∧ file.kind = .regular ∧
      exposed file.mode = false ∧ file.content = content := by
  obtain ⟨hname, file, hget, _, hkind, hmode, hcontent⟩ := h
  refine ⟨file, ?_, hkind, hmode, hcontent⟩
  rw [KeyDirectory.file, KeyDirectory.entry, hname]
  exact hget

theorem secured_verifyTemporary (hlength : key.length = 32)
    (hprepared : Prepared id hindered name handle key s) :
    Secured id hindered (verifyTemporary windows name)
      (fun _ _ s' => Prepared id hindered name handle key s')
      (fun _ => Unpublished id hindered name) locals s := by
  unfold verifyTemporary
  refine secured_then (fun _ => True) trivial ?_ hprepared fun _ s₁ _ h₁ => ?_
  · intro env s hholding
    obtain ⟨file, hget, hkind, _⟩ := hholding.file_temporary
    exact ⟨(), by simp [perform, hget, hkind], trivial⟩
  refine secured_then (fun file : KeyFile => file.kind = .regular ∧ exposed file.mode = false ∧
    file.content = key) trivial ?_ h₁ fun file s₂ hfile h₂ => ?_
  · intro env s hholding
    obtain ⟨file, hget, hgood⟩ := hholding.file_temporary
    exact ⟨file, by simp [perform, KeyDirectory.ask, hget], hgood⟩
  refine secured_bind (secured_check (by simpa using hfile.1) h₂ fun s₃ h₃ => ?_)
  refine secured_bind (secured_check (by simp [hfile.2.2, hlength]) h₃ fun s₄ h₄ => ?_)
  exact secured_check (by simp [hfile.2.1]) h₄ fun s₅ h₅ => h₅

theorem secured_closeToOthers (hprepared : Prepared id hindered name handle content s) :
    Secured id hindered (closeToOthers windows handle)
      (fun _ _ s' => Prepared id hindered name handle content s')
      (fun _ => Unpublished id hindered name) locals s := by
  refine .ite (fun _ => ?_) fun _ => .pure fun s' h' => hprepared.undisturbed h'
  refine .mono (@secured_own id hindered _ _ _ (fun _ => True) _ _ _ trivial
    (fun _ _ _ => ⟨(), rfl, trivial⟩) hprepared) ?_ ?_
  · exact fun _ _ _ h => h.2.1
  · exact fun _ _ _ h => h.2.1.unpublished h.2.2

theorem secured_publishKey (hlength : key.length = 32) (hsane : Sane hindered s)
    (hlocals : locals.temporaryOwned = false) :
    Secured id hindered (publishKey windows key name) (Published id hindered name)
      (fun _ => Unpublished id hindered name) locals s := by
  unfold publishKey
  refine secured_bind (.mono (secured_openNew hsane) ?_ ?_)
  · rintro handle _ s₁ ⟨rfl, h₁⟩
    refine secured_bind (.assign fun s₂ h₂ => ?_)
    refine secured_then (fun file : KeyFile => file.kind = .regular) trivial ?_
      (h₁.undisturbed h₂) fun file s₃ hkind h₃ => ?_
    · rintro env s ⟨_, file, hget, _, hkind, _⟩
      exact ⟨file, by simp [perform, hget], hkind⟩
    refine secured_bind (secured_check (by simpa using hkind) h₃ fun s₄ h₄ => ?_)
    refine secured_bind (.mono (secured_writeFile key h₄) ?_ ?_)
    · rintro _ _ s₅ ⟨rfl, h₅⟩
      refine secured_bind (.mono (secured_closeToOthers windows h₅) ?_
        fun _ _ _ h => h)
      intro _ locals₆ s₆ h₆
      refine secured_then (fun _ => True) trivial (fun _ _ _ => ⟨(), rfl, trivial⟩) h₆
        fun _ s₇ _ h₇ => ?_
      refine secured_then (fun _ => True) trivial (fun _ _ _ => ⟨(), rfl, trivial⟩) h₇
        fun _ s₈ _ h₈ => ?_
      refine secured_bind (.assign fun s₉ h₉ => ?_)
      refine secured_bind (.mono
        (secured_verifyTemporary windows hlength (h₈.undisturbed h₉)) ?_ fun _ _ _ h => h)
      exact fun _ _ s₁₀ h₁₀ => secured_linkKey windows hlength h₁₀
    · rintro error _ s₅ ⟨rfl, hhindered, written, h₅⟩
      exact h₅.unpublished hhindered
  · rintro error _ s₁ ⟨rfl, hsane₁, hhindered⟩
    exact ⟨hsane₁, fun howned => by simp [hlocals] at howned, hhindered⟩

/-! ## The whole run -/

/-- The removal of the temporary file: a key file stays. -/
theorem secured_unlink (hsane : Sane hindered s) (hholding : Holding id name handle content s) :
    Secured id hindered (issue (.unlink name))
      (fun _ _ s' => Sane hindered s' ∧ ∀ key, KeyIs key s → KeyIs key s')
      (fun _ _ s' => (Sane hindered s' ∧ ∀ key, KeyIs key s → KeyIs key s') ∧ hindered)
      locals s := by
  have hleft : ∀ s₁ env s₂, Undisturbed id s s₁ → Leaves id env s₁ (.unlink name) s₂ →
      Considerate id s₁ s₂ := by
    intro s₁ env s₂ h₁ hleft
    have hperform : Considerate id s₁ (perform id env s₁ (.unlink name)).1 := by
      have h := hholding.undisturbed h₁
      simp only [perform, h.1]
      exact considerate_unlink h
    obtain rfl | rfl | ⟨written, rfl⟩ := hleft
    · exact fun other _ => .refl other s₂
    · exact hperform
    · exact hperform
  have hkept : ∀ s₁ env s₂ s', Undisturbed id s s₁ → Leaves id env s₁ (.unlink name) s₂ →
      Undisturbed id s₂ s' → Sane hindered s' ∧ ∀ key, KeyIs key s → KeyIs key s' := by
    intro s₁ env s₂ s' h₁ h h'
    have hshared := (hleft s₁ env s₂ h₁ h).shared
    exact ⟨((hsane.undisturbed h₁).undisturbed hshared).undisturbed h',
      fun key hkey => ((hkey.undisturbed h₁).undisturbed hshared).undisturbed h'⟩
  refine secured_issue hleft ?_ ?_
  · intro s₁ env h₁ _ s' h'
    have hname := (hholding.undisturbed h₁).1
    have hfinal := hkept s₁ env _ s' h₁ (.inr (.inl rfl)) h'
    simp only [perform, hname]
    exact hfinal
  · exact fun hhindered s₁ env s₂ error s' h₁ h h' => ⟨hkept s₁ env s₂ s' h₁ h h', hhindered⟩

theorem secured_cleanUpTemporary (hsane : Sane hindered s)
    (howns : OwnsTemporary id name locals s) :
    Secured id hindered (cleanUpTemporary name)
      (fun _ _ s' => Sane hindered s' ∧ ∀ key, KeyIs key s → KeyIs key s')
      (fun _ _ _ => hindered) locals s := by
  have hremoval : ∀ s₁, Undisturbed id s s₁ →
      Secured id hindered (do
        let locals ← Procedure.locals
        if locals.temporaryOwned then
          Procedure.recover (issue (.unlink name)) fun error =>
            if error = .notFound then pure () else Procedure.raise error
        else pure ())
        (fun _ _ s' => Sane hindered s' ∧ ∀ key, KeyIs key s → KeyIs key s')
        (fun _ _ _ => hindered) locals s₁ := by
    intro s₁ h₁
    refine secured_bind (.read fun s₂ h₂ => ?_)
    have h₂ := h₁.trans _ _ _ _ h₂
    have hsane₂ := hsane.undisturbed h₂
    refine .ite (fun howned => ?_) fun _ => ?_
    · obtain ⟨handle, content, hholding⟩ := howns.undisturbed h₂ howned
      refine .recover (.refl id) (.trans id)
        (.mono (secured_unlink hsane₂ hholding) ?_ ?_)
      · exact fun _ _ _ h => ⟨h.1, fun key hkey => h.2 key (hkey.undisturbed h₂)⟩
      · rintro error _ s₃ ⟨⟨hsane₃, hkept⟩, hhindered⟩
        refine .ite (fun _ => ?_) fun _ => .raise fun _ _ => hhindered
        exact .pure fun s₄ h₄ => ⟨hsane₃.undisturbed h₄, fun key hkey =>
          (hkept key (hkey.undisturbed h₂)).undisturbed h₄⟩
    · exact .pure fun s₃ h₃ => ⟨hsane₂.undisturbed h₃, fun key hkey =>
        (hkey.undisturbed h₂).undisturbed h₃⟩
  unfold cleanUpTemporary
  refine .lastly (.refl id) (.trans id) ?_
  refine secured_bind (.read fun s₁ h₁ => ?_)
  cases hhandle : locals.temporaryHandle with
  | none => exact .pure fun s₂ h₂ => hremoval s₂ (h₁.trans _ _ _ _ h₂)
  | some handle =>
    refine .mono (secured_quiet trivial) ?_ ?_
    · rintro _ _ s₂ ⟨rfl, h₂, _⟩
      exact hremoval s₂ (h₁.trans _ _ _ _ h₂)
    · rintro error _ s₂ ⟨rfl, h₂, hfailed⟩
      refine .mono (hremoval s₂ (h₁.trans _ _ _ _ h₂)) (fun _ _ _ _ => ?_)
        fun _ _ _ h => h
      refine hfailed.resolve_right fun ⟨s₃, env, h₃, herror⟩ => ?_
      cases herror

theorem secured_createKey (hsane : Sane hindered s) (hlocals : locals.temporaryOwned = false) :
    Secured id hindered (createKey windows)
      (fun key _ s' => KeyIs key s' ∧ key.length = 32) (fun _ _ _ => hindered) locals s := by
  unfold createKey
  refine secured_bind (.mono (secured_quiet trivial) ?_ ?_)
  · rintro key _ s₁ ⟨rfl, h₁, _⟩
    refine secured_bind (.mono (secured_quiet trivial) ?_ ?_)
    · rintro name _ s₂ ⟨rfl, h₂, _⟩
      have hsane₂ := (hsane.undisturbed h₁).undisturbed h₂
      refine .lastly (.refl id) (.trans id)
        (.mono (secured_publishKey windows key.2 hsane₂ hlocals) ?_ ?_)
      · rintro published _ s₃ ⟨hsane₃, howns, hkey, hlength⟩
        exact .mono (secured_cleanUpTemporary hsane₃ howns)
          (fun _ _ _ h => ⟨h.2 published hkey, hlength⟩) fun _ _ _ h => h
      · rintro error _ s₃ ⟨hsane₃, howns, hhindered⟩
        exact .mono (secured_cleanUpTemporary hsane₃ howns)
          (fun _ _ _ _ => hhindered) fun _ _ _ h => h
    · rintro error _ s₂ ⟨_, _, hfailed⟩
      refine hfailed.resolve_right fun ⟨s₃, env, _, herror⟩ => ?_
      cases herror
  · rintro error _ s₁ ⟨_, _, hfailed⟩
    refine hfailed.resolve_right fun ⟨s₂, env, _, herror⟩ => ?_
    cases herror

theorem secured_queueRequestKey (hsane : Sane hindered s) (hlocals : locals.temporaryOwned = false) :
    Secured id hindered (queueRequestKey windows)
      (fun key _ s' => KeyIs key s' ∧ key.length = 32) (fun _ _ _ => hindered) locals s := by
  have hquietly : ∀ {command : KeyCommand} {error : KeyError} {s : KeyDirectory},
      (∀ env s, ∃ reply, (perform id env s command).2 = .ok reply) →
      (hindered ∨ ∃ s₁ env, Undisturbed id s s₁ ∧ (perform id env s₁ command).2 = .error error) →
      hindered := by
    intro command error s hok hfailed
    refine hfailed.resolve_right fun ⟨s₁, env, _, herror⟩ => ?_
    obtain ⟨reply, hreply⟩ := hok env s₁
    rw [hreply] at herror
    cases herror
  unfold queueRequestKey
  refine secured_bind (.mono (secured_quiet trivial) ?_ ?_)
  · rintro _ _ s₁ ⟨rfl, h₁, _⟩
    refine secured_bind (.mono (secured_quiet trivial) ?_ ?_)
    · rintro _ _ s₂ ⟨rfl, h₂, _⟩
      have hsane₂ := (hsane.undisturbed h₁).undisturbed h₂
      refine secured_bind (.recover (.refl id) (.trans id)
        (secured_bind (.mono (secured_existingKey windows hsane₂) ?_ ?_)))
      · rintro key _ s₃ ⟨rfl, h₃, hkey, hlength⟩
        exact .pure fun s₄ h₄ => .pure fun s₅ h₅ =>
          ⟨(hkey.undisturbed h₄).undisturbed h₅, hlength⟩
      · rintro error _ s₃ ⟨rfl, h₃, hmissing⟩
        refine .ite (fun _ => ?_) fun hother => ?_
        · exact .pure fun s₄ h₄ => secured_createKey windows
            ((hsane₂.undisturbed h₃).undisturbed h₄) hlocals
        · exact .raise fun _ _ => hmissing.resolve_right fun h => hother h.1
    · rintro error _ s₂ ⟨_, _, hfailed⟩
      exact hquietly (fun _ _ => ⟨(), rfl⟩) hfailed
  · rintro error _ s₁ ⟨_, _, hfailed⟩
    exact hquietly (fun _ _ => ⟨(), rfl⟩) hfailed

end

end AgentBridge.State
