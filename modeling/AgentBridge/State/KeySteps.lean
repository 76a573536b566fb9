import AgentBridge.State.RequestKey

/-!
# What the runs of `queueRequestKey` leave alone

A run owes every other run the key file, once there is one, and the files that the other has
created. Each operation keeps to it where the run has its own temporary file.
-/

namespace AgentBridge.State

open Systems Function

/-! ## What runs leave alone -/

/-- Every name belongs to a file. -/
def KeyDirectory.WellFormed (s : KeyDirectory) : Prop :=
  (∀ number, s.key = some number → number < s.files.length) ∧
    ∀ name number, s.temporary name = some number → number < s.files.length

def KeyDirectory.Complete (s : KeyDirectory) : Prop :=
  ∀ number, s.key = some number → ∃ file, s.files[number]? = some file ∧
    file.kind = .regular ∧ file.content.length = 32

/-- The key file holds these bytes. -/
def KeyIs (key : Key) (s : KeyDirectory) : Prop :=
  ∃ number file, s.key = some number ∧ s.files[number]? = some file ∧ file.content = key

/-- A file keeps its content. -/
def SameContent (file file' : KeyFile) : Prop :=
  file'.content = file.content ∧ file'.kind = file.kind ∧ file'.creator = file.creator ∧
    (exposed file.mode = false → exposed file'.mode = false)

/-- What the steps of other runs leave to a run: the key file, and what the run itself has
created. -/
structure Undisturbed (id : Nat) (s s' : KeyDirectory) : Prop where
  wellFormed : s.WellFormed → s'.WellFormed
  complete : s.Complete → s'.Complete
  key : ∀ number file, s.key = some number → s.files[number]? = some file →
    s'.key = some number ∧ ∃ file', s'.files[number]? = some file' ∧ SameContent file file'
  own : ∀ number file, s.files[number]? = some file → file.creator = some id →
    (s.key ≠ some number → s'.key ≠ some number) ∧
      ∃ file', s'.files[number]? = some file' ∧ SameContent file file'
  name : ∀ name number file, s.temporary name = some number → s.files[number]? = some file →
    file.creator = some id → s'.temporary name = some number

theorem SameContent.refl (file : KeyFile) : SameContent file file :=
  ⟨rfl, rfl, rfl, fun h => h⟩

theorem SameContent.trans {file file' file'' : KeyFile} (h : SameContent file file')
    (h' : SameContent file' file'') : SameContent file file'' :=
  ⟨h'.1.trans h.1, h'.2.1.trans h.2.1, h'.2.2.1.trans h.2.2.1,
    fun hmode => h'.2.2.2 (h.2.2.2 hmode)⟩

theorem Undisturbed.refl (id : Nat) (s : KeyDirectory) : Undisturbed id s s where
  wellFormed h := h
  complete h := h
  key _ file hkey hfile := ⟨hkey, file, hfile, .refl file⟩
  own _ file hfile _ := ⟨fun h => h, file, hfile, .refl file⟩
  name _ _ _ h _ _ := h

theorem Undisturbed.trans (id : Nat) (s s' s'' : KeyDirectory) (h : Undisturbed id s s')
    (h' : Undisturbed id s' s'') : Undisturbed id s s'' where
  wellFormed hs := h'.wellFormed (h.wellFormed hs)
  complete hs := h'.complete (h.complete hs)
  key number file hkey hfile := by
    obtain ⟨hkey', file', hfile', hsame⟩ := h.key number file hkey hfile
    obtain ⟨hkey'', file'', hfile'', hsame'⟩ := h'.key number file' hkey' hfile'
    exact ⟨hkey'', file'', hfile'', hsame.trans hsame'⟩
  own number file hfile hcreator := by
    obtain ⟨hkey, file', hfile', hsame⟩ := h.own number file hfile hcreator
    obtain ⟨hkey', file'', hfile'', hsame'⟩ :=
      h'.own number file' hfile' (hsame.2.2.1.trans hcreator)
    exact ⟨fun hne => hkey' (hkey hne), file'', hfile'', hsame.trans hsame'⟩
  name name number file hname hfile hcreator := by
    obtain ⟨_, file', hfile', hsame⟩ := h.own number file hfile hcreator
    exact h'.name name number file' (h.name name number file hname hfile hcreator) hfile'
      (hsame.2.2.1.trans hcreator)

/-- What the steps of a run leave to every other. -/
def Considerate (id : Nat) (s s' : KeyDirectory) : Prop :=
  ∀ other, other ≠ id → Undisturbed other s s'

theorem KeyIs.undisturbed {key : Key} {id : Nat} {s s' : KeyDirectory} (h : KeyIs key s)
    (hstep : Undisturbed id s s') : KeyIs key s' := by
  obtain ⟨number, file, hkey, hfile, hcontent⟩ := h
  obtain ⟨hkey', file', hfile', hsame⟩ := hstep.key number file hkey hfile
  exact ⟨number, file', hkey', hfile', hsame.1.trans hcontent⟩

theorem KeyIs.unique {key key' : Key} {s : KeyDirectory} (h : KeyIs key s) (h' : KeyIs key' s) :
    key = key' := by
  obtain ⟨number, file, hkey, hfile, rfl⟩ := h
  obtain ⟨number', file', hkey', hfile', rfl⟩ := h'
  rw [hkey] at hkey'
  cases hkey'
  rw [hfile] at hfile'
  cases hfile'
  rfl

/-! ## Operations that disturb nobody -/

/-- A change of permissions to those of the owner. -/
theorem undisturbed_update (id : Nat) (s : KeyDirectory) (number : Nat) :
    Undisturbed id s (s.update number fun file => { file with mode := 0o600 }) := by
  have hfile : ∀ (n : Nat) file, s.files[n]? = some file → ∃ file',
      (s.update number fun file => { file with mode := 0o600 }).files[n]? = some file' ∧
        SameContent file file' := by
    intro n file h
    unfold KeyDirectory.update
    rw [List.getElem?_modify, h]
    by_cases heq : number = n
    · exact ⟨{ file with mode := 0o600 }, by simp [heq], rfl, rfl, rfl,
        fun _ => (by decide : exposed 0o600 = false)⟩
    · exact ⟨file, by simp [heq], .refl file⟩
  constructor
  · intro h
    refine ⟨fun n hn => ?_, fun name n hn => ?_⟩
    · rw [KeyDirectory.update, List.length_modify]
      exact h.1 n hn
    · rw [KeyDirectory.update, List.length_modify]
      exact h.2 name n hn
  · intro h n hn
    obtain ⟨file, hget, hkind, hlength⟩ := h n hn
    obtain ⟨file', hget', hsame⟩ := hfile n file hget
    exact ⟨file', hget', hsame.2.1.trans hkind, by rw [hsame.1, hlength]⟩
  · exact fun n file hkey hget => ⟨hkey, hfile n file hget⟩
  · exact fun n file hget _ => ⟨fun h => h, hfile n file hget⟩
  · exact fun _ _ _ h _ _ => h

/-- An operation that creates, writes, links and removes nothing. -/
def Quiet : KeyCommand → Prop
  | .openNew _ | .writeFile _ _ | .link _ | .unlink _ => False
  | _ => True

theorem undisturbed_perform_of_quiet (other id : Nat) (env : KeyEnv) (s : KeyDirectory)
    {command : KeyCommand} (h : Quiet command) :
    Undisturbed other s (perform id env s command).1 := by
  cases command with
  | openNew name => cases h
  | writeFile handle content => cases h
  | link name => cases h
  | unlink name => cases h
  | chmod entry =>
    rw [perform]
    cases s.entry entry with
    | some number => exact undisturbed_update other s number
    | none => exact .refl other s
  | chmodHandle handle => exact undisturbed_update other s handle
  | _ => exact .refl other s

/-! ## Operations on the temporary file -/

/-- The run has a file of its own under its temporary name. -/
def Holding (id : Nat) (name : String) (handle : Nat) (content : Key) (s : KeyDirectory) : Prop :=
  s.temporary name = some handle ∧ ∃ file, s.files[handle]? = some file ∧
    file.creator = some id ∧ file.kind = .regular ∧ exposed file.mode = false ∧
    file.content = content

theorem Holding.undisturbed {id : Nat} {name : String} {handle : Nat} {content : Key}
    {s s' : KeyDirectory} (h : Holding id name handle content s) (hstep : Undisturbed id s s') :
    Holding id name handle content s' := by
  obtain ⟨hname, file, hfile, hcreator, hkind, hmode, hcontent⟩ := h
  obtain ⟨_, file', hfile', hsame⟩ := hstep.own handle file hfile hcreator
  exact ⟨hstep.name name handle file hname hfile hcreator, file', hfile',
    hsame.2.2.1.trans hcreator, hsame.2.1.trans hkind, hsame.2.2.2 hmode,
    hsame.1.trans hcontent⟩

theorem Holding.unlinked {id : Nat} {name : String} {handle : Nat} {content : Key}
    {s s' : KeyDirectory} (h : Holding id name handle content s) (hstep : Undisturbed id s s')
    (hkey : s.key ≠ some handle) : s'.key ≠ some handle := by
  obtain ⟨_, file, hfile, hcreator, _⟩ := h
  exact (hstep.own handle file hfile hcreator).1 hkey

section

variable {id : Nat} {env : KeyEnv} {s : KeyDirectory} {name : String} {handle : Nat}
  {content : Key}

/-- The directory after a new temporary file. -/
def withTemporary (id : Nat) (s : KeyDirectory) (name : String) : KeyDirectory :=
  { s with
    files := s.files ++ [⟨.regular, 0o600, [], some id⟩]
    temporary := Function.update s.temporary name (some s.files.length) }

theorem considerate_withTemporary (h : s.WellFormed) (hname : s.temporary name = none) :
    Considerate id s (withTemporary id s name) := by
  have hfile : ∀ (n : Nat) file, s.files[n]? = some file →
      (withTemporary id s name).files[n]? = some file := by
    intro n file hget
    rw [withTemporary, List.getElem?_append_left (List.getElem?_eq_some_iff.mp hget).1]
    exact hget
  refine fun other _ => ⟨fun _ => ⟨fun n hn => ?_, fun name' n hn => ?_⟩, fun hcomplete n hn => ?_,
    fun n file hkey hget => ⟨hkey, file, hfile n file hget, .refl file⟩,
    fun n file hget _ => ⟨fun hne => hne, file, hfile n file hget, .refl file⟩,
    fun name' n file hn _ _ => ?_⟩
  · have hlt := h.1 n hn
    simp only [withTemporary, List.length_append, List.length_singleton]
    omega
  · simp only [withTemporary, List.length_append, List.length_singleton] at hn ⊢
    by_cases heq : name' = name
    · rw [heq, update_self] at hn
      cases hn
      omega
    · rw [update_of_ne heq] at hn
      have hlt := h.2 name' n hn
      omega
  · obtain ⟨file, hget, hcontent⟩ := hcomplete n hn
    exact ⟨file, hfile n file hget, hcontent⟩
  · have hne : name' ≠ name := by
      rintro rfl
      rw [hname] at hn
      cases hn
    simp only [withTemporary, update_of_ne hne]
    exact hn

theorem holding_withTemporary :
    Holding id name s.files.length [] (withTemporary id s name) := by
  refine ⟨update_self _ _ _, ⟨.regular, 0o600, [], some id⟩, ?_, rfl, rfl,
    (by decide : exposed 0o600 = false), rfl⟩
  simp [withTemporary]

/-- A write to the file of the run, which no other run has and no name but its own. -/
theorem considerate_write (h : Holding id name handle content s) (hkey : s.key ≠ some handle)
    (written : Key) :
    Considerate id s (s.update handle fun file => { file with content := written }) := by
  obtain ⟨_, file, hfile, hcreator, _⟩ := h
  have hother : ∀ (n : Nat), n ≠ handle →
      (s.update handle fun file => { file with content := written }).files[n]? = s.files[n]? := by
    intro n hn
    rw [KeyDirectory.update, List.getElem?_modify]
    simp [hn.symm]
  refine fun other hne => ⟨fun hs => ⟨fun n hn => ?_, fun name' n hn => ?_⟩,
    fun hcomplete n hn => ?_, fun n file' hn hget => ⟨hn, file', ?_, .refl file'⟩,
    fun n file' hget hcreator' => ⟨fun hn => hn, file', ?_, .refl file'⟩, fun _ _ _ hn _ _ => hn⟩
  · rw [KeyDirectory.update, List.length_modify]
    exact hs.1 n hn
  · rw [KeyDirectory.update, List.length_modify]
    exact hs.2 name' n hn
  · have hn' : n ≠ handle := fun heq => hkey (heq ▸ hn)
    rw [hother n hn']
    exact hcomplete n hn
  · rw [hother n fun heq => hkey (heq ▸ hn)]
    exact hget
  · rw [hother n fun heq => ?_]
    · exact hget
    · rw [heq, hfile] at hget
      cases hget
      exact hne (Option.some.inj (hcreator'.symm.trans hcreator))

theorem holding_write (h : Holding id name handle content s) (written : Key) :
    Holding id name handle written
      (s.update handle fun file => { file with content := written }) := by
  obtain ⟨hname, file, hfile, hcreator, hkind, hmode, _⟩ := h
  refine ⟨hname, { file with content := written }, ?_, hcreator, hkind, hmode, rfl⟩
  rw [KeyDirectory.update, List.getElem?_modify, hfile]
  simp

theorem considerate_link (h : Holding id name handle content s) (hlength : content.length = 32)
    (hkey : s.key = none) : Considerate id s { s with key := some handle } := by
  obtain ⟨hname, file, hfile, hcreator, hkind, _, hcontent⟩ := h
  refine fun other hne => ⟨fun hs => ⟨fun n hn => ?_, hs.2⟩, fun _ n hn => ?_,
    fun n file' hn _ => ?_, fun n file' hget hcreator' => ⟨fun _ heq => ?_, file', hget,
      .refl file'⟩, fun _ _ _ hn _ _ => hn⟩
  · cases hn
    exact (List.getElem?_eq_some_iff.mp hfile).1
  · cases hn
    exact ⟨file, hfile, hkind, by rw [hcontent, hlength]⟩
  · rw [hkey] at hn
    cases hn
  · cases heq
    rw [hfile] at hget
    cases hget
    exact hne (Option.some.inj (hcreator'.symm.trans hcreator))

theorem considerate_unlink (h : Holding id name handle content s) :
    Considerate id s { s with temporary := Function.update s.temporary name none } := by
  obtain ⟨hname, file, hfile, hcreator, _⟩ := h
  refine fun other hne => ⟨fun hs => ⟨hs.1, fun name' n hn => ?_⟩, fun hs => hs,
    fun n file' hn hget => ⟨hn, file', hget, .refl file'⟩,
    fun n file' hget _ => ⟨fun hn => hn, file', hget, .refl file'⟩,
    fun name' n file' hn hget hcreator' => ?_⟩
  · by_cases heq : name' = name
    · subst heq
      simp at hn
    · simp only [update_of_ne heq] at hn
      exact hs.2 name' n hn
  · have hname' : name' ≠ name := by
      rintro rfl
      rw [hname] at hn
      cases hn
      rw [hfile] at hget
      cases hget
      exact hne (Option.some.inj (hcreator'.symm.trans hcreator))
    simp only [update_of_ne hname']
    exact hn

end

end AgentBridge.State
