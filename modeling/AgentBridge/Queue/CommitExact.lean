import AgentBridge.Queue.CommitHooks

/-!
# What a commit of an auto-integration adds

The tree that the loop builds on a commit is that commit's tree with the prepared files in it.
HEAD is moved by the last swap only, and the paths were checked on every commit but the one
that was read first.
-/

namespace AgentBridge.Queue.Commits

open Paths Systems List
open Integration (directoriesAbove)

/-! ## Trees -/

namespace Tree

theorem lookup_set (tree : Tree) (path other : PathText) (entry : TreeEntry) :
    (tree.set path entry).lookup other =
      if other = path then some entry else tree.lookup other := by
  unfold set
  rw [lookup_append]
  induction tree with
  | nil =>
    by_cases h : other = path
    · simp [h]
    · have hne : (other == path) = false := by simpa using h
      simp [h, lookup_cons, hne]
  | cons first tree ih =>
    obtain ⟨key, value⟩ := first
    by_cases hkey : key = path
    · rw [filter_cons_of_neg (by simp [hkey]), ih]
      by_cases h : other = path
      · simp [h]
      · have hne : (other == key) = false := by simpa [hkey] using h
        rw [lookup_cons, hne]
    · rw [filter_cons_of_pos (by simpa using hkey)]
      by_cases h : other = key
      · have hother : other ≠ path := fun heq => hkey (h.symm.trans heq)
        rw [if_neg hother, h, lookup_cons_self, lookup_cons_self, Option.some_or]
      · have hne : (other == key) = false := by simpa using h
        have hskip : ∀ rest, List.lookup other ((key, value) :: rest) = List.lookup other rest :=
          fun rest => by rw [lookup_cons, hne]
        rw [hskip, hskip]
        exact ih

variable {path : PathText} {tree : Tree}

theorem lookup_eq_none_of_notMem (h : path ∉ tree.map Prod.fst) : tree.lookup path = none := by
  refine lookup_eq_none_iff.mpr fun entry hentry => ?_
  have hne : path ≠ entry.1 := fun heq => h (heq ▸ mem_map_of_mem hentry)
  simpa using hne

theorem mem_paths_set {other : PathText} {entry : TreeEntry} (h : other ∈ tree.map Prod.fst) :
    other ∈ (tree.set path entry).map Prod.fst := by
  unfold set
  rw [map_append, mem_append]
  by_cases heq : other = path
  · right
    rw [heq]
    exact mem_cons_self
  · left
    obtain ⟨found, hfound, rfl⟩ := mem_map.mp h
    exact mem_map_of_mem (mem_filter.mpr ⟨hfound, by simpa using heq⟩)

theorem clashes_eq (tree : Tree) (path : PathText) :
    tree.clashes path = (tree.map Prod.fst).any fun other =>
      (directoriesAbove path).contains other || (directoriesAbove other).contains path := by
  rw [any_map]
  rfl

theorem clashes_set {other : PathText} {entry : TreeEntry}
    (h : (tree.set path entry).clashes other = false) : tree.clashes other = false := by
  rw [clashes_eq, any_eq_false] at h ⊢
  exact fun found hfound => h found (mem_paths_set hfound)

def addFiles (files : List PreparedFile) (tree : Tree) : Tree :=
  files.foldl (fun tree file => tree.set file.path file.entry) tree

theorem lookup_addFiles (files : List PreparedFile) : ∀ (tree : Tree) (path : PathText),
    (files.map PreparedFile.path).Nodup →
    (tree.addFiles files).lookup path =
      ((files.find? fun file => file.path = path).map PreparedFile.entry).or
        (tree.lookup path) := by
  induction files with
  | nil => exact fun _ _ _ => rfl
  | cons file files ih =>
    intro tree path hnodup
    rw [map_cons, nodup_cons] at hnodup
    have hrest := ih (tree.set file.path file.entry) path hnodup.2
    rw [lookup_set] at hrest
    refine hrest.trans ?_
    by_cases h : file.path = path
    · -- no later file has the path again
      have hnone : files.find? (fun other => decide (other.path = path)) = none := by
        refine List.find?_eq_none.mpr fun other hother => ?_
        have hne : other.path ≠ path := fun heq =>
          hnodup.1 (h ▸ heq ▸ mem_map_of_mem hother)
        simpa using hne
      rw [hnone, List.find?_cons_of_pos (by simpa using h), if_pos h.symm]
      rfl
    · rw [List.find?_cons_of_neg (by simpa using h), if_neg (Ne.symm h)]

end Tree

/-! ## What others do -/

/-- Between two moments the bridge moved nothing: HEAD is what the other processes left, and
the objects are still there. -/
structure Apart (s s' : Repository) : Prop where
  objects : ∀ id object, s.objectAt id = some object → s'.objectAt id = some object
  moves : ∃ later, s'.moves = s.moves ++ later ∧ (∀ move ∈ later, move.mover = .others) ∧
    s'.head = (later.getLast?.map HeadMove.after).getD s.head

/-- The bridge neither read nor moved HEAD. -/
structure Still (s s' : Repository) : Prop where
  apart : Apart s s'
  reads : s'.reads = s.reads
  swaps : s'.swaps = s.swaps

theorem Apart.refl (s : Repository) : Apart s s :=
  ⟨fun _ _ h => h, [], (append_nil _).symm, nofun, rfl⟩

variable {s' s'' : Repository}

theorem Apart.trans {s : Repository} (h : Apart s s') (h' : Apart s' s'') : Apart s s'' := by
  obtain ⟨later, hlater, hothers, hhead⟩ := h.moves
  obtain ⟨later', hlater', hothers', hhead'⟩ := h'.moves
  refine ⟨fun id object hobject => h'.objects id object (h.objects id object hobject),
    later ++ later', by rw [hlater', hlater, append_assoc], ?_, ?_⟩
  · intro move hmove
    cases mem_append.mp hmove with
    | inl hfirst => exact hothers move hfirst
    | inr hsecond => exact hothers' move hsecond
  · rw [hhead', hhead, List.getLast?_append]
    cases later'.getLast? with
    | none => rfl
    | some last => rfl

theorem Still.refl (s : Repository) : Still s s := ⟨.refl s, rfl, rfl⟩

theorem Still.trans {s : Repository} (h : Still s s') (h' : Still s' s'') : Still s s'' :=
  ⟨h.apart.trans h'.apart, h'.reads.trans h.reads, h'.swaps.trans h.swaps⟩

variable {object : CommitObject}

theorem objectAt_writeObject {s : Repository} {id other : CommitId} {found : CommitObject}
    (h : s.objectAt other = some found) :
    (s.writeObject id object).objectAt other = some found := by
  unfold Repository.writeObject
  split
  · exact h
  · unfold Repository.objectAt at h ⊢
    rw [lookup_append, h, Option.some_or]

theorem still_writeObject (s : Repository) (id : CommitId) (object : CommitObject) :
    Still s (s.writeObject id object) := by
  refine ⟨⟨fun other found h => objectAt_writeObject h, [], ?_, nofun, ?_⟩, ?_, ?_⟩
  all_goals
    unfold Repository.writeObject
    split
  all_goals simp

theorem still_interfere (s : Repository) (step : OtherStep) : Still s (s.interfere step) := by
  cases step with
  | writeObject id object => exact still_writeObject s id object
  | moveHead after =>
    refine ⟨⟨fun _ _ h => h, [⟨.others, s.head, after⟩], rfl, ?_, rfl⟩, rfl, rfl⟩
    intro move hmove
    rw [mem_singleton.mp hmove]

theorem scratch_interfere (s : Repository) (step : OtherStep) :
    (s.interfere step).scratch = s.scratch := by
  cases step with
  | writeObject id object =>
    simp only [Repository.interfere, Repository.writeObject]
    split
    · rfl
    · rfl
  | moveHead after => rfl

theorem still_others (steps : List OtherStep) : ∀ s : Repository,
    Still s (steps.foldl Repository.interfere s) ∧
      (steps.foldl Repository.interfere s).scratch = s.scratch := by
  induction steps with
  | nil => exact fun s => ⟨.refl s, rfl⟩
  | cons step steps ih =>
    intro s
    obtain ⟨hstill, hscratch⟩ := ih (s.interfere step)
    exact ⟨(still_interfere s step).trans hstill, hscratch.trans (scratch_interfere s step)⟩

/-! ## Commands -/

variable {s : Repository}

variable {command : Command} {failed : Stop → Unit → Repository → Prop}

theorem wp_command {returned : Reply command → Unit → Repository → Prop}
    (h : ∀ around s', Still s s' → s'.scratch = s.scratch →
      match (execute around s' command).2 with
      | .ok reply => returned reply () (execute around s' command).1
      | .error stop => failed stop () (execute around s' command).1) :
    (Procedure.call command : Procedure Command Reply Unit Stop _).wp perform (fun _ => True)
      returned failed () s := by
  rw [Procedure.wp_call]
  refine ⟨trivial, fun around => ?_⟩
  obtain ⟨hstill, hscratch⟩ := still_others around.others s
  have hreply := h around _ hstill hscratch
  simp only [perform]
  revert hreply
  cases (execute around (around.others.foldl Repository.interfere s) command).2 <;> exact id

/-- A command that neither reads nor moves HEAD. -/
def Calm : Command → Prop
  | .readHead | .updateRef _ _ => False
  | _ => True

theorem Calm.still (h : Calm command) (around : Around) (s : Repository) :
    Still s (execute around s command).1 := by
  cases command with
  | readHead | updateRef => exact h.elim
  | hashObject | config | lastAuthor | updateOwnerIndex | mkdtemp | writeTree | delayWithSignal
    | lsTree | removeScratch => exact .refl s
  | readTree commit =>
    simp only [execute]
    split
    · split
      · exact ⟨⟨fun _ _ h => h, [], (append_nil _).symm, nofun, rfl⟩, rfl, rfl⟩
      · exact .refl s
    · exact .refl s
  | updateIndex file =>
    simp only [execute]
    split
    · exact ⟨⟨fun _ _ h => h, [], (append_nil _).symm, nofun, rfl⟩, rfl, rfl⟩
    · exact .refl s
  | commitTree object =>
    simp only [execute]
    split
    · exact still_writeObject s around.newId object
    · exact .refl s

theorem perform_still (h : Calm command) (around : Around) (s : Repository) :
    Still s (perform around s command).1 :=
  (still_others around.others s).1.trans (h.still around _)

theorem wp_still {α : Type} {m : Action α} {returns : α → Prop}
    (h : Procedure.Only Calm returns m) :
    m.wp perform (fun _ => True) (fun value _ s' => returns value ∧ Still s s')
      (fun _ _ s' => Still s s') () s := by
  refine Procedure.wp_consequence (Procedure.wp_throughout_of_only Still.refl Still.trans
    (fun around s command calm => perform_still calm around s) h () s)
    (fun _ _ => trivial) (fun _ _ _ h => ⟨h.1, h.2.2⟩) fun _ _ _ h => h.2

theorem only_command {command : Command} (h : Calm command) :
    Procedure.Only Calm (fun _ => True)
      (Procedure.call command : Procedure Command Reply Unit Stop _) :=
  Procedure.Only.call h

theorem only_checkBlobs (files : List PreparedFile) :
    Procedure.Only Calm (fun _ => True) (checkBlobs files) := by
  induction files with
  | nil => exact .pure trivial
  | cons file files ih =>
    refine .bind (@only_command (.hashObject file.path) trivial) fun written _ => ?_
    exact .ite (.raise _)
      (.ite (.raise _) ih)

theorem only_configured (key : String) : Procedure.Only Calm (fun _ => True) (configured key) :=
  Procedure.Only.bind (@only_command (.config key) trivial) fun _ _ => .pure trivial

theorem only_authorIdentity : Procedure.Only Calm (fun _ => True) authorIdentity := by
  refine .bind (only_configured _) fun name _ => ?_
  refine .bind (only_configured _) fun email _ => ?_
  refine .bind (?_ : Procedure.Only Calm (fun _ => True) _) fun identity _ => ?_
  · refine .ite ?_ (.pure trivial)
    exact .bind (@only_command .lastAuthor trivial) fun _ _ =>
      Procedure.Only.pure trivial
  · exact .ite (.raise _) (.pure trivial)

theorem updateOwnerIndex_spec (files : List PreparedFile) (left : Nat) : ∀ {s},
    (updateOwnerIndex files left).wp perform (fun _ => True)
      (fun _ _ s' => Still s s') (fun _ _ _ => False) () s := by
  induction left with
  | zero => exact fun {s} => wp_command fun around s' hstill _ => hstill
  | succ left ih =>
    intro s
    unfold updateOwnerIndex
    rw [Procedure.wp_bind]
    refine wp_command fun around s' hstill _ => ?_
    refine .ite (fun _ => hstill) fun _ => ?_
    rw [Procedure.wp_bind]
    refine wp_command fun around' s'' hstill' _ => ?_
    exact .mono ih (fun _ _ _ h => (hstill.trans hstill').trans h) nofun

/-! ## The tree of the commit -/

theorem indexStep_spec {step : Action GitResult} {returned : Unit → Unit → Repository → Prop}
    (h : step.wp perform (fun _ => True) (fun result _ s' =>
      (result.ok = true → returned () () s') ∧ ∀ refusal, failed (.refused refusal) () s')
      failed () s) : (indexStep step).wp perform (fun _ => True) returned failed () s := by
  unfold indexStep
  rw [Procedure.wp_bind]
  refine .mono h (fun result _ s' hresult => ?_) fun _ _ _ h => h
  exact .ite hresult.1 fun _ => hresult.2 _

theorem updateIndex_spec (files : List PreparedFile) : ∀ {s},
    (updateIndex files).wp perform (fun _ => True)
      (fun _ _ s' => Still s s' ∧ s'.scratch = s.scratch.addFiles files ∧
        ∀ file ∈ files, s.scratch.clashes file.path = false)
      (fun _ _ s' => Still s s') () s := by
  induction files with
  | nil => exact fun {s} => ⟨.refl s, rfl, nofun⟩
  | cons file files ih =>
    intro s
    unfold updateIndex
    rw [Procedure.wp_bind]
    refine indexStep_spec (wp_command fun around s' hstill hscratch => ?_)
    have hafter := hstill.trans ((show Calm (.updateIndex file) from trivial).still around s')
    simp only [execute] at hafter ⊢
    by_cases hadded : (around.succeeds && !s'.scratch.clashes file.path) = true
    · rw [if_pos hadded] at hafter ⊢
      rw [Bool.and_eq_true, Bool.not_eq_true'] at hadded
      refine ⟨fun _ => ?_, fun _ => hafter⟩
      refine .mono ih ?_ fun _ _ _ h => hafter.trans h
      intro _ _ s'' ⟨hrest, hadd, hclash⟩
      refine ⟨hafter.trans hrest, ?_, ?_⟩
      · rw [hadd, hscratch]
        rfl
      · intro other hother
        rw [← hscratch]
        cases mem_cons.mp hother with
        | inl heq =>
          rw [heq]
          exact hadded.2
        | inr hlater => exact Tree.clashes_set (hclash other hlater)
    · rw [if_neg hadded] at hafter ⊢
      refine ⟨fun hok => ?_, fun _ => hafter⟩
      simp [Around.result] at hok

/-- The new commit: on the old one, with its tree and the files. -/
structure Adds (files : List PreparedFile) (oldHead : CommitId) (old new : CommitObject) :
    Prop where
  parents : new.parents = [oldHead]
  tree : new.tree = old.tree.addFiles files
  clear : ∀ file ∈ files, old.tree.clashes file.path = false

variable {old : CommitObject} {oldHead : CommitId}

theorem buildCommit_spec (files : List PreparedFile) (info : CommitInfo)
    (hold : s.objectAt oldHead = some old) :
    (buildCommit files info oldHead).wp perform (fun _ => True)
      (fun commit _ s' => Still s s' ∧ ∃ new, s'.objectAt commit = some new ∧
        Adds files oldHead old new)
      (fun _ _ s' => Still s s') () s := by
  unfold buildCommit
  rw [Procedure.wp_bind]
  refine indexStep_spec (wp_command fun around s₁ hstill₁ _ => ?_)
  have hread := hstill₁.trans ((show Calm (.readTree oldHead) from trivial).still around s₁)
  have hold₁ := hstill₁.apart.objects oldHead old hold
  simp only [execute, hold₁] at hread ⊢
  by_cases hsucceeds : around.succeeds = true
  swap
  · simp only [hsucceeds] at hread ⊢
    refine ⟨fun hok => ?_, fun _ => hread⟩
    simp [Around.result] at hok
  simp only [hsucceeds, if_true] at hread ⊢
  refine ⟨fun _ => ?_, fun _ => hread⟩
  rw [Procedure.wp_bind]
  refine .mono (updateIndex_spec files) ?_ fun _ _ _ h => hread.trans h
  intro _ _ s₂ ⟨hstill₂, hscratch, hclear⟩
  have hindexed : Still s s₂ := hread.trans hstill₂
  rw [Procedure.wp_bind]
  refine wp_command fun around₃ s₃ hstill₃ hscratch₃ => ?_
  have hwritten : Still s s₃ := hindexed.trans hstill₃
  simp only [execute]
  by_cases hprints : around₃.succeeds = true
  swap
  · rw [if_neg hprints]
    exact hwritten
  rw [if_pos hprints]
  dsimp only
  rw [Procedure.wp_bind]
  refine wp_command fun around₄ s₄ hstill₄ _ => ?_
  have hcommitted := (hwritten.trans hstill₄).trans
    ((show Calm (.commitTree ⟨s₃.scratch, [oldHead], info.authorName, info.authorEmail,
      info.message⟩) from trivial).still around₄ s₄)
  simp only [execute] at hcommitted ⊢
  by_cases hcreated : (around₄.succeeds && (s₄.writeObject around₄.newId ⟨s₃.scratch, [oldHead],
      info.authorName, info.authorEmail, info.message⟩).objectAt around₄.newId ==
      some ⟨s₃.scratch, [oldHead], info.authorName, info.authorEmail, info.message⟩) = true
  · rw [if_pos hcreated] at hcommitted ⊢
    rw [Bool.and_eq_true, beq_iff_eq] at hcreated
    refine ⟨hcommitted, _, hcreated.2, rfl, ?_, hclear⟩
    rw [hscratch₃, hscratch]
  · rw [if_neg hcreated] at hcommitted ⊢
    exact hcommitted

/-! ## New paths -/

/-- Where the tree has the path of a file, it has the file. -/
def HeldAlike (tree : Tree) (file : PreparedFile) : Prop :=
  ∀ entry, tree.lookup file.path = some entry → entry = file.entry

variable {files : List PreparedFile}

theorem heldAlike_of_listed {tree : Tree} (h : tree.listed (files.map PreparedFile.path) = []) :
    ∀ file ∈ files, HeldAlike tree file := by
  intro file hfile entry hentry
  have hpath : file.path ∉ tree.map Prod.fst := by
    intro hmem
    have hlisted : file.path ∈ tree.listed (files.map PreparedFile.path) := by
      refine mem_filter.mpr ⟨hmem, any_eq_true.mpr ⟨file.path, ?_, by simp⟩⟩
      exact mem_map_of_mem hfile
    rw [h] at hlisted
    cases hlisted
  rw [Tree.lookup_eq_none_of_notMem hpath] at hentry
  cases hentry

theorem requireNew_spec (files : List PreparedFile) {newHead : CommitId}
    (hobject : s.objectAt newHead = some object) :
    (requireNew files newHead).wp perform (fun _ => True)
      (fun _ _ s' => Still s s' ∧ ∀ file ∈ files, HeldAlike object.tree file)
      (fun _ _ s' => Still s s') () s := by
  unfold requireNew
  rw [Procedure.wp_bind]
  refine wp_command fun around s' hstill _ => ?_
  have hobject' := hstill.apart.objects newHead object hobject
  simp only [execute, hobject']
  by_cases hsucceeds : around.succeeds = true
  swap
  · rw [if_neg hsucceeds]
    exact hstill
  rw [if_pos hsucceeds]
  dsimp only
  refine .ite (fun _ => hstill) fun htaken => ⟨hstill, ?_⟩
  exact heldAlike_of_listed (not_not.mp htaken)

theorem readHead_spec (error : Redaction.Text) :
    (readHead error).wp perform (fun _ => True)
      (fun id _ s' => Apart s s' ∧ s'.swaps = s.swaps ∧ s'.reads = s.reads ++ [some id] ∧
        ∃ object, s'.objectAt id = some object)
      (fun _ _ s' => Apart s s' ∧ s'.swaps = s.swaps ∧ s.reads <+: s'.reads) () s := by
  unfold readHead
  rw [Procedure.wp_bind]
  refine wp_command fun around s' hstill _ => ?_
  have hobjects : ∀ reads, Apart s { s' with reads := reads } :=
    fun reads => ⟨hstill.apart.objects, hstill.apart.moves⟩
  simp only [execute]
  cases hfound : s'.head.filter fun id => around.succeeds && (s'.objectAt id).isSome with
  | none => exact ⟨hobjects _, hstill.swaps, hstill.reads ▸ List.prefix_append _ _⟩
  | some id =>
    obtain ⟨-, hkept⟩ := Option.filter_eq_some_iff.mp hfound
    rw [Bool.and_eq_true, Option.isSome_iff_exists] at hkept
    exact ⟨hobjects _, hstill.swaps, by rw [hstill.reads], hkept.2⟩

/-! ## The rounds -/

/-- The bridge moved HEAD once, from the parent to a commit on it that has the parent's tree and
the files, none of which lies above or below a file of that tree. -/
structure LandedOn (files : List PreparedFile) (s s' : Repository) (commit parent : CommitId) :
    Prop where
  moved : ∃ earlier later, s'.moves = s.moves ++ earlier ++ ⟨.bridge, some parent, some commit⟩ ::
    later ∧ (∀ move ∈ earlier, move.mover = .others) ∧ ∀ move ∈ later, move.mover = .others
  commits : ∃ old new, s'.objectAt parent = some old ∧ s'.objectAt commit = some new ∧
    Adds files parent old new

variable {parent : CommitId}

theorem Apart.landed {s : Repository} {commit : CommitId} (h : Apart s s')
    (hlanded : LandedOn files s' s'' commit parent) : LandedOn files s s'' commit parent := by
  obtain ⟨before, hbefore, hothers, -⟩ := h.moves
  obtain ⟨earlier, later, hmoves, hearlier, hlater⟩ := hlanded.moved
  refine ⟨⟨before ++ earlier, later, ?_, ?_, hlater⟩, hlanded.commits⟩
  · rw [hmoves, hbefore]
    simp only [append_assoc]
  · intro move hmove
    cases mem_append.mp hmove with
    | inl hfirst => exact hothers move hfirst
    | inr hsecond => exact hearlier move hsecond

theorem LandedOn.apart {s : Repository} {commit : CommitId}
    (hlanded : LandedOn files s s' commit parent) (h : Apart s' s'') :
    LandedOn files s s'' commit parent := by
  obtain ⟨after, hafter, hothers, -⟩ := h.moves
  obtain ⟨earlier, later, hmoves, hearlier, hlater⟩ := hlanded.moved
  obtain ⟨old, new, hold, hnew, hadds⟩ := hlanded.commits
  refine ⟨⟨earlier, later ++ after, ?_, hearlier, ?_⟩,
    ⟨old, new, h.objects _ _ hold, h.objects _ _ hnew, hadds⟩⟩
  · rw [hafter, hmoves]
    simp only [append_assoc, cons_append]
  · intro move hmove
    cases mem_append.mp hmove with
    | inl hfirst => exact hlater move hfirst
    | inr hsecond => exact hothers move hsecond

/-- The bridge tried to move HEAD and did not. -/
structure Tried (s s' : Repository) : Prop where
  apart : Apart s s'
  reads : s.reads <+: s'.reads
  swaps : ∃ failed, s'.swaps = s.swaps ++ failed ∧ true ∉ failed

theorem Still.tried {s : Repository} (h : Still s s') : Tried s s' :=
  ⟨h.apart, h.reads ▸ List.prefix_rfl, [], by rw [h.swaps, append_nil], nofun⟩

theorem tried_of_read {s : Repository} (h : Apart s s') (hswaps : s'.swaps = s.swaps)
    (hreads : s.reads <+: s'.reads) : Tried s s' :=
  ⟨h, hreads, [], by rw [hswaps, append_nil], nofun⟩

theorem Tried.trans {s : Repository} (h : Tried s s') (h' : Tried s' s'') : Tried s s'' := by
  obtain ⟨failed, hfailed, hnone⟩ := h.swaps
  obtain ⟨failed', hfailed', hnone'⟩ := h'.swaps
  refine ⟨h.apart.trans h'.apart, h.reads.trans h'.reads, failed ++ failed', ?_, ?_⟩
  · rw [hfailed', hfailed, append_assoc]
  · rw [mem_append, not_or]
    exact ⟨hnone, hnone'⟩

/-- What the rounds come to that land: the first of them on the commit they began with, every
later one on a commit that has none of the files with other content. -/
structure RoundsLanded (files : List PreparedFile) (oldHead : CommitId) (s s' : Repository)
    (landed : Landed) : Prop where
  landedOn : LandedOn files s s' landed.commit landed.parent
  objects : ∀ id object, s.objectAt id = some object → s'.objectAt id = some object
  reads : s.reads <+: s'.reads
  swaps : ∃ failed, s'.swaps = s.swaps ++ failed ++ [true] ∧ true ∉ failed ∧
    (failed = [] → landed.parent = oldHead) ∧
    (failed ≠ [] → ∀ old, s'.objectAt landed.parent = some old → ∀ file ∈ files,
      HeldAlike old.tree file)

theorem RoundsLanded.after {s : Repository} {landed : Landed} (h : Apart s s')
    (hswaps : s'.swaps = s.swaps) (hreads : s.reads <+: s'.reads)
    (hlanded : RoundsLanded files oldHead s' s'' landed) :
    RoundsLanded files oldHead s s'' landed :=
  ⟨h.landed hlanded.landedOn,
    fun id object hobject => hlanded.objects id object (h.objects id object hobject),
    hreads.trans hlanded.reads, hswaps ▸ hlanded.swaps⟩

theorem RoundsLanded.still {s : Repository} {landed : Landed}
    (hlanded : RoundsLanded files oldHead s s' landed) (h : Still s' s'') :
    RoundsLanded files oldHead s s'' landed := by
  obtain ⟨failed, hfailed, hnone, hfirst, hrest⟩ := hlanded.swaps
  refine ⟨hlanded.landedOn.apart h.apart,
    fun id object hobject => h.apart.objects id object (hlanded.objects id object hobject),
    h.reads ▸ hlanded.reads, failed, h.swaps.trans hfailed, hnone, hfirst, ?_⟩
  intro hsome old hold
  -- the parent is the commit it was when HEAD left it
  obtain ⟨_, _, hparent, -⟩ := hlanded.landedOn.commits
  rw [h.apart.objects _ _ hparent] at hold
  cases hold
  exact hrest hsome _ hparent

/-- The swap: HEAD moves from the commit that it is compared with, or it does not move. -/
theorem updateRef_spec (commit oldHead : CommitId) :
    (Procedure.call (Command.updateRef commit oldHead) : Action GitResult).wp perform
      (fun _ => True)
      (fun result _ s' => (result.ok = true → s.reads <+: s'.reads ∧
          s'.swaps = s.swaps ++ [true] ∧
          (∀ id object, s.objectAt id = some object → s'.objectAt id = some object) ∧
          ∃ earlier, s'.moves = s.moves ++ earlier ++ [⟨.bridge, some oldHead, some commit⟩] ∧
            ∀ move ∈ earlier, move.mover = .others) ∧
        (result.ok = false → Tried s s' ∧ s'.swaps ≠ s.swaps))
      (fun _ _ _ => False) () s := by
  refine wp_command fun around s' hstill _ => ?_
  obtain ⟨earlier, hmoves, hothers, hhead⟩ := hstill.apart.moves
  simp only [execute]
  by_cases hswap : (around.succeeds && s'.head == some oldHead) = true
  · rw [if_pos hswap]
    rw [Bool.and_eq_true, beq_iff_eq] at hswap
    refine ⟨fun _ => ⟨hstill.reads ▸ List.prefix_rfl, ?_, hstill.apart.objects, earlier, ?_,
      hothers⟩, fun hnot => ?_⟩
    · simp only [hstill.swaps]
    · simp only [Repository.moveHead, hmoves, hswap.2]
    · simp [Around.result, hswap.1] at hnot
  · rw [if_neg hswap]
    refine ⟨fun hok => ?_, fun _ => ⟨⟨⟨hstill.apart.objects, hstill.apart.moves⟩, ?_, ?_⟩, ?_⟩⟩
    · simp [Around.result] at hok
    · exact hstill.reads ▸ List.prefix_rfl
    · exact ⟨[false], by simp only [hstill.swaps], by simp⟩
    · simp [hstill.swaps]

/-- A later round lands on a commit that was checked, if not on a later one still. -/
theorem Tried.landed {newHead : CommitId} {s : Repository} {landed : Landed} (h : Tried s s')
    (hagain : s'.swaps ≠ s.swaps) (hobject : s'.objectAt newHead = some object)
    (hchecked : ∀ file ∈ files, HeldAlike object.tree file)
    (hlanded : RoundsLanded files newHead s' s'' landed) :
    RoundsLanded files oldHead s s'' landed := by
  obtain ⟨failed, hfailed, hnone⟩ := h.swaps
  obtain ⟨later, hlater, hnolater, hfirst, hrest⟩ := hlanded.swaps
  have hsome : failed ≠ [] := by
    intro hnil
    apply hagain
    rw [hfailed, hnil, append_nil]
  refine ⟨h.apart.landed hlanded.landedOn,
    fun id object hobject => hlanded.objects id object (h.apart.objects id object hobject),
    h.reads.trans hlanded.reads, failed ++ later, ?_, ?_, ?_, ?_⟩
  · rw [hlater, hfailed]
    simp only [append_assoc]
  · rw [mem_append, not_or]
    exact ⟨hnone, hnolater⟩
  · intro hnil
    exact absurd (append_eq_nil_iff.mp hnil).1 hsome
  · intro _ old hold
    by_cases hnow : later = []
    · -- the round that landed began with the commit that was checked
      rw [hfirst hnow, hlanded.objects newHead object hobject] at hold
      cases hold
      exact hchecked
    · exact hrest hnow old hold

/-- A round lands where its swap moves HEAD, and goes on to the rest where it does not. -/
theorem commitRound_spec {info : CommitInfo} {s : Repository} {headRetries : Nat}
    {rest : GitResult → Action Landed} (hold : s.objectAt oldHead = some old)
    (hrest : ∀ moved s', Tried s s' → s'.swaps ≠ s.swaps → (rest moved).wp perform (fun _ => True)
      (fun landed _ s'' => RoundsLanded files oldHead s s'' landed)
      (fun _ _ s'' => Tried s s'') () s') :
    (commitRound files info headRetries rest oldHead).wp perform (fun _ => True)
      (fun landed _ s' => RoundsLanded files oldHead s s' landed)
      (fun _ _ s' => Tried s s') () s := by
  unfold commitRound
  rw [Procedure.wp_bind]
  refine .mono (buildCommit_spec files info hold) ?_ fun _ _ _ h => h.tried
  intro commit _ s₁ ⟨hbuilt, new, hnew, hadds⟩
  rw [Procedure.wp_bind]
  refine .mono (updateRef_spec commit oldHead) ?_ nofun
  intro moved _ s₂ ⟨hmoved, hfailed⟩
  refine .ite (fun hok => ?_) fun hnot => ?_
  · obtain ⟨hreads, hswaps, hobjects, earlier, hmoves, hothers⟩ := hmoved hok
    have hparent := hobjects _ _ (hbuilt.apart.objects oldHead old hold)
    refine .after hbuilt.apart hbuilt.swaps (hbuilt.reads ▸ List.prefix_rfl) ⟨⟨⟨earlier, [], hmoves,
      hothers, nofun⟩, old, new, hparent, hobjects _ _ hnew, hadds⟩, hobjects, hreads, [], ?_,
      nofun, fun _ => rfl, fun h => (h rfl).elim⟩
    rw [append_nil, hswaps]
  · obtain ⟨htried, hagain⟩ := hfailed (by simpa using hnot)
    exact hrest moved s₂ (hbuilt.tried.trans htried) (hbuilt.swaps ▸ hagain)

theorem commitRounds_spec (files : List PreparedFile) (info : CommitInfo) (left : Nat) :
    ∀ {s : Repository} {oldHead : CommitId} {old : CommitObject}, s.objectAt oldHead = some old →
      (commitRounds files info left oldHead).wp perform (fun _ => True)
        (fun landed _ s' => RoundsLanded files oldHead s s' landed)
        (fun _ _ s' => Tried s s') () s := by
  induction left with
  | zero =>
    intro s oldHead old hold
    refine commitRound_spec hold ?_
    intro moved s' htried _
    exact htried
  | succ left ih =>
    intro s oldHead old hold
    refine commitRound_spec hold ?_
    intro moved s₁ htried hagain
    rw [Procedure.wp_bind]
    refine wp_command fun _ s₂ hdelay _ => ?_
    rw [Procedure.wp_bind]
    have hwaited : Tried s s₂ := htried.trans hdelay.tried
    refine .mono (readHead_spec _) ?_ fun _ _ s₃ hread =>
      hwaited.trans (tried_of_read hread.1 hread.2.1 hread.2.2)
    intro newHead _ s₃ ⟨hapart, hswaps, hreads, object, hobject⟩
    have hread : Tried s s₃ :=
      hwaited.trans (tried_of_read hapart hswaps (hreads ▸ List.prefix_append _ _))
    rw [Procedure.wp_bind]
    refine .mono (requireNew_spec files hobject) ?_ fun _ _ _ hstill =>
      hread.trans hstill.tried
    intro _ _ s₄ ⟨hstill, hchecked⟩
    have hobject₄ := hstill.apart.objects newHead object hobject
    have hround : Tried s s₄ := hread.trans hstill.tried
    refine .mono (ih hobject₄) ?_ fun _ _ _ h => hround.trans h
    intro landed _ s'' hlanded
    refine hround.landed ?_ hobject₄ hchecked hlanded
    have hsame : s₄.swaps = s₁.swaps := hstill.swaps.trans (hswaps.trans hdelay.swaps)
    rw [hsame]
    exact hagain

/-! ## The commit -/

/-- What the rounds landed, the result names. -/
def Committed.landed (committed : Committed) : Landed :=
  ⟨committed.commit, committed.parent, committed.headRetries⟩

theorem commitOnHead_spec (files : List PreparedFile) (info : CommitInfo)
    (hold : s.objectAt oldHead = some old) :
    (commitOnHead files info oldHead).wp perform (fun _ => True)
      (fun committed _ s' => RoundsLanded files oldHead s s' committed.landed)
      (fun _ _ s' => Tried s s') () s := by
  unfold commitOnHead
  rw [Procedure.wp_bind]
  refine .mono (commitRounds_spec files info _ hold) ?_ fun _ _ _ h => h
  intro landed _ s₁ hlanded
  rw [Procedure.wp_bind]
  refine .mono (updateOwnerIndex_spec files _) ?_ nofun
  intro _ _ s₂ hstill
  exact hlanded.still hstill

/-- The directory is made before the body and removed after it; neither touches HEAD. -/
theorem withScratch_spec {α : Type} {body : Action α} {returned : α → Unit → Repository → Prop}
    (hbody : ∀ s', Still s s' → body.wp perform (fun _ => True) returned failed () s')
    (hstopped : ∀ stop s', Still s s' → failed stop () s')
    (hreturned : ∀ value s' s'', returned value () s' → Still s' s'' → returned value () s'')
    (hfailed : ∀ stop s' s'', failed stop () s' → Still s' s'' → failed stop () s'') :
    (withScratch body).wp perform (fun _ => True) returned failed () s := by
  unfold withScratch
  rw [Procedure.wp_bind]
  refine wp_command fun around s₁ hstill _ => ?_
  by_cases hmade : around.succeeds = true
  swap
  · simp only [execute, if_neg hmade]
    exact hstopped _ s₁ hstill
  simp only [execute, if_pos hmade]
  rw [Procedure.wp_bind, Procedure.wp_recover]
  refine .mono (hbody s₁ hstill) ?_ ?_
  · intro value _ s₂ hvalue
    rw [Procedure.wp_bind]
    exact wp_command fun _ s₃ hremoved _ => hreturned value s₂ s₃ hvalue hremoved
  · intro stop _ s₂ hstop
    rw [Procedure.wp_bind]
    exact wp_command fun _ s₃ hremoved _ => hfailed stop s₂ s₃ hstop hremoved

theorem commitPrepared_spec (label : CommitLabel) (files : List PreparedFile) :
    (commitPrepared label files).wp perform (fun _ => True)
      (fun committed _ s' => ∃ oldHead, s.reads ++ [some oldHead] <+: s'.reads ∧
        RoundsLanded files oldHead s s' committed.landed)
      (fun _ _ s' => Tried s s') () s := by
  unfold commitPrepared
  rw [Procedure.wp_bind]
  refine .mono (wp_still (only_checkBlobs files)) ?_ fun _ _ _ h => h.tried
  intro _ _ s₁ ⟨_, hchecked⟩
  rw [Procedure.wp_bind]
  refine .mono (wp_still only_authorIdentity) ?_ fun _ _ _ h =>
    (hchecked.trans h).tried
  intro author _ s₂ ⟨_, hauthor⟩
  have hstill : Still s s₂ := hchecked.trans hauthor
  rw [Procedure.wp_bind]
  refine .mono (readHead_spec _) ?_ fun _ _ _ h =>
    hstill.tried.trans (tried_of_read h.1 h.2.1 h.2.2)
  intro oldHead _ s₃ ⟨hapart, hswaps, hreads, old, hold⟩
  have hread : Tried s s₃ :=
    hstill.tried.trans (tried_of_read hapart hswaps (hreads ▸ List.prefix_append _ _))
  have hreads₃ : s₃.reads = s.reads ++ [some oldHead] := hreads.trans (by rw [hstill.reads])
  refine withScratch_spec (fun s₄ hscratch => ?_) (fun _ s₄ h => hread.trans h.tried) ?_
    fun _ _ _ hstop h => hstop.trans h.tried
  · refine .mono (commitOnHead_spec files _ (hscratch.apart.objects _ _ hold)) ?_
      fun _ _ _ h => (hread.trans hscratch.tried).trans h
    intro committed _ s' hlanded
    have hreads₄ : s₄.reads = s.reads ++ [some oldHead] := hscratch.reads.trans hreads₃
    have hbefore : Tried s s₄ := hread.trans hscratch.tried
    refine ⟨oldHead, hreads₄ ▸ hlanded.reads, .after hbefore.apart ?_ hbefore.reads hlanded⟩
    exact hscratch.swaps.trans (hswaps.trans hstill.swaps)
  · intro committed s' s'' ⟨head, hhead, hlanded⟩ h
    exact ⟨head, h.reads ▸ hhead, hlanded.still h⟩

/-- The files that a call is given; a call without any refuses. -/
def preparedFiles : Option (Except Refusal Prepared) → List PreparedFile
  | some (.ok prepared) => prepared.files
  | _ => []

/-- What a call comes to: a refusal moves HEAD no more than an error does. -/
theorem commit_spec (label : CommitLabel) (prepared : Option (Except Refusal Prepared)) :
    (commit label prepared).wp perform (fun _ => True)
      (fun
        | .ok committed, _, s' => ∃ oldHead, s.reads ++ [some oldHead] <+: s'.reads ∧
            RoundsLanded (preparedFiles prepared) oldHead s s' committed.landed
        | .error _, _, s' => Tried s s')
      (fun _ _ s' => Tried s s') () s := by
  match prepared with
  | none => exact (Still.refl s).tried
  | some (.error refusal) => exact (Still.refl s).tried
  | some (.ok prepared) =>
    unfold commit
    rw [Procedure.wp_recover, Procedure.wp_bind]
    refine .mono (commitPrepared_spec label prepared.files) (fun _ _ _ h => h) ?_
    intro stop _ s' htried
    cases stop with
    | refused refusal => exact htried
    | thrown message => exact htried

/-! ## Exactly the files -/

def Repository.start (objects : List (CommitId × CommitObject)) (head : Option CommitId) :
    Repository :=
  ⟨objects, head, [], [], [], []⟩

/-- HEAD was moved once by the bridge, from the parent to a commit on it whose tree is the
parent's with the files; the parent had none of them with other content, nor a file in the way
of one. -/
structure AddedExactly (files : List PreparedFile) (s s' : Repository)
    (commit parent : CommitId) : Prop where
  moved : ∃ earlier later, s'.moves = s.moves ++ earlier ++ ⟨.bridge, some parent, some commit⟩ ::
    later ∧ (∀ move ∈ earlier, move.mover = .others) ∧ ∀ move ∈ later, move.mover = .others
  commits : ∃ old new, s'.objectAt parent = some old ∧ s'.objectAt commit = some new ∧
    new.parents = [parent] ∧
    (∀ path, new.tree.lookup path =
      ((files.find? fun file => file.path = path).map PreparedFile.entry).or
        (old.tree.lookup path)) ∧
    ∀ file ∈ files, HeldAlike old.tree file ∧ old.tree.clashes file.path = false

/-- What a call promises: it adds exactly the files, or HEAD is what the others left. -/
def AddsExactly (files : List PreparedFile) (s s' : Repository) :
    Except Stop (Except Refusal Committed) → Prop
  | .ok (.ok committed) => AddedExactly files s s' committed.commit committed.parent
  | _ => Apart s s'

/-- Unless its first swap fails, the commit that the call read first as HEAD has none of the
files with other content. -/
def FirstReadAlike (files : List PreparedFile) (s' : Repository) : Prop :=
  s'.swaps.head? = some true → ∀ head, s'.reads.head? = some (some head) →
    ∀ object, s'.objectAt head = some object → ∀ file ∈ files, HeldAlike object.tree file

theorem LandedOn.addedExactly {s : Repository} {commit : CommitId}
    (hnodup : (files.map PreparedFile.path).Nodup) (h : LandedOn files s s' commit parent)
    (halike : ∀ old, s'.objectAt parent = some old → ∀ file ∈ files, HeldAlike old.tree file) :
    AddedExactly files s s' commit parent := by
  obtain ⟨old, new, hold, hnew, hadds⟩ := h.commits
  refine ⟨h.moved, old, new, hold, hnew, hadds.parents, ?_, ?_⟩
  · intro path
    rw [hadds.tree]
    exact Tree.lookup_addFiles files old.tree path hnodup
  · exact fun file hfile => ⟨halike old hold file hfile, hadds.clear file hfile⟩

theorem preparedFiles_nodup (prepared : Option (Except Refusal Prepared)) :
    ((preparedFiles prepared).map PreparedFile.path).Nodup := by
  match prepared with
  | none => exact nodup_nil
  | some (.error refusal) => exact nodup_nil
  | some (.ok prepared) => exact prepared.distinct

theorem RoundsLanded.addedExactly_iff {s : Repository} {landed : Landed}
    (hnodup : (files.map PreparedFile.path).Nodup) (hswaps : s.swaps = [])
    (hread : s'.reads.head? = some (some oldHead)) (h : RoundsLanded files oldHead s s' landed) :
    AddedExactly files s s' landed.commit landed.parent ↔ FirstReadAlike files s' := by
  obtain ⟨failed, hfailed, hnone, hfirst, hrest⟩ := h.swaps
  rw [hswaps, nil_append] at hfailed
  constructor
  · intro hadded hnow head hhead object hobject
    cases failed with
    | cons answer failed =>
      -- a swap that failed stands first
      rw [hfailed] at hnow
      cases hnow
      exact absurd mem_cons_self hnone
    | nil =>
      obtain ⟨old, _, hold, -, -, -, hfiles⟩ := hadded.commits
      have hhead' : head = oldHead := by
        rw [hread] at hhead
        cases hhead
        rfl
      rw [hfirst rfl, ← hhead', hobject] at hold
      cases hold
      exact fun file hfile => (hfiles file hfile).1
  · intro halike
    refine h.landedOn.addedExactly hnodup fun old hold => ?_
    by_cases hnow : failed = []
    · rw [hfirst hnow] at hold
      refine halike ?_ oldHead hread old hold
      rw [hfailed, hnow]
      rfl
    · exact hrest hnow old hold

/-- Every call ends, whatever others do around its commands. It adds exactly the files and
leaves HEAD alone otherwise just if the first commit it reads as HEAD has none of the files with
other content, or its first swap fails. -/
theorem commit_adds_exactly_iff (label : CommitLabel)
    (prepared : Option (Except Refusal Prepared)) (objects : List (CommitId × CommitObject))
    (head : Option CommitId) (stream : Nat → Around) :
    ∃ n s' result, (commit label prepared ()).run perform (.start objects head)
        ((List.range n).map stream) = (s', some (result, ())) ∧
      (AddsExactly (preparedFiles prepared) (.start objects head) s' result ↔
        FirstReadAlike (preparedFiles prepared) s') := by
  obtain ⟨n, s', result, _, hrun, hended⟩ := Procedure.exists_run_ended
    (@commit_spec (.start objects head) label prepared) stream
  refine ⟨n, s', result, hrun, ?_⟩
  have hapart : Tried (.start objects head) s' →
      (Apart (.start objects head) s' ↔ FirstReadAlike (preparedFiles prepared) s') := by
    intro htried
    obtain ⟨failed, hfailed, hnone⟩ := htried.swaps
    refine iff_of_true htried.apart fun hnow => ?_
    rw [hfailed] at hnow
    exact absurd (mem_of_mem_head? hnow) hnone
  match result with
  | .error stop => exact hapart hended
  | .ok (.error refusal) => exact hapart hended
  | .ok (.ok committed) =>
    obtain ⟨oldHead, hreads, hlanded⟩ := hended
    have hread : s'.reads.head? = some (some oldHead) := by
      obtain ⟨later, hlater⟩ := hreads
      rw [← hlater]
      rfl
    exact hlanded.addedExactly_iff (preparedFiles_nodup prepared) rfl hread

/-! ## A file that another process committed first -/

section

def noteFile : PreparedFile := ⟨"notes/a.txt".toList, "100644", "blob-reviewed".toList⟩

def notePrepared : Prepared := ⟨[noteFile], List.nodup_singleton _⟩

def foreignCommit : CommitObject :=
  ⟨[(noteFile.path, ⟨"100644", "blob-foreign".toList⟩)], ["base"], [], [], []⟩

def noteObjects : List (CommitId × CommitObject) :=
  [("base", ⟨[], [], [], [], []⟩), ("foreign", foreignCommit)]

/-- The checkout has the reviewed file; another process moves HEAD before it is read first. -/
def foreignFirst (n : Nat) : Around :=
  match n with
  | 0 => ⟨[], true, noteFile.entry.blob, [], "bridge"⟩
  | 3 => ⟨[.moveHead (some "foreign")], true, [], [], "bridge"⟩
  | _ => ⟨[], true, "owner".toList, [], "bridge"⟩

def foreignRun : Repository × Option (Except Stop (Except Refusal Committed) × Unit) :=
  (commit ⟨"job".toList, [], []⟩ (some (.ok notePrepared)) ()).run perform
    (.start noteObjects (some "base")) ((List.range 12).map foreignFirst)

/-- The call returns ok and replaced the file that the other process had committed. -/
theorem foreign_file_overwritten :
    foreignRun.2 = some (.ok (.ok ⟨"bridge", "foreign", [noteFile.path], "owner".toList, 0, true,
      []⟩), ()) ∧
    ∀ result, foreignRun.2 = some (result, ()) →
      ¬AddsExactly [noteFile] (.start noteObjects (some "base")) foreignRun.1 result := by
  have hreturned : foreignRun.2 = some (.ok (.ok ⟨"bridge", "foreign", [noteFile.path],
      "owner".toList, 0, true, []⟩), ()) := rfl
  refine ⟨hreturned, fun result hresult hadds => ?_⟩
  rw [hreturned] at hresult
  cases hresult
  obtain ⟨old, _, hold, -, -, -, hfiles⟩ := hadds.commits
  have hforeign : foreignRun.1.objectAt "foreign" = some foreignCommit := rfl
  rw [hforeign] at hold
  cases hold
  have halike := (hfiles noteFile mem_cons_self).1 ⟨"100644", "blob-foreign".toList⟩ rfl
  exact absurd halike (by decide)

end

end AgentBridge.Queue.Commits
