import AgentBridge.Integration.MovedTarget

/-!
# Overlapping items of a batch

`integrationBatchOverlaps`. The first pass over the files of the items gives every key, the
case-folded path, to the first item that has it and records the later ones; the second looks for
the owners of the directories above each key. An item that is not the owner of its key was
recorded by the first pass already, so the second one need only ask for the owners.
-/

namespace AgentBridge.Integration

open Paths List Function

structure BatchConflict where
  path : PathText
  items : Nat × Nat
  deriving DecidableEq

structure BatchOwners where
  owner : PathText → Option Nat
  conflicts : List BatchConflict

/-- A conflict that was recorded is not recorded again. -/
def record (file : PathText) (other current : Nat) (conflicts : List BatchConflict) :
    List BatchConflict :=
  let conflict : BatchConflict := ⟨file, (other + 1, current + 1)⟩
  if conflict ∈ conflicts then conflicts else conflicts ++ [conflict]

/-- The files of the items, in order, each with the number of its item. -/
def batchFiles (itemFiles : List (List PathText)) : List (Nat × PathText) :=
  itemFiles.zipIdx.flatMap fun (files, index) =>
    (normalizeLockPathList files).map fun file => (index, file)

def claimFile (platform : Platform) (s : BatchOwners) (entry : Nat × PathText) : BatchOwners :=
  let key := platform.toLowerCase entry.2
  match s.owner key with
  | some other =>
    if other ≠ entry.1 then { s with conflicts := record entry.2 other entry.1 s.conflicts }
    else { s with owner := Function.update s.owner key (some entry.1) }
  | none => { s with owner := Function.update s.owner key (some entry.1) }

def checkDirectory (owner : PathText → Option Nat) (entry : Nat × PathText)
    (conflicts : List BatchConflict) (directory : PathText) : List BatchConflict :=
  match owner directory with
  | some other => if other ≠ entry.1 then record entry.2 other entry.1 conflicts else conflicts
  | none => conflicts

/-- The directories above the key of a file, the deepest first. -/
def checkFile (platform : Platform) (owner : PathText → Option Nat)
    (conflicts : List BatchConflict) (entry : Nat × PathText) : List BatchConflict :=
  (directoriesAbove (platform.toLowerCase entry.2)).reverse.foldl (checkDirectory owner entry)
    conflicts

def integrationBatchOverlaps (platform : Platform) (itemFiles : List (List PathText)) :
    List BatchConflict :=
  let claimed := (batchFiles itemFiles).foldl (claimFile platform) ⟨fun _ => none, []⟩
  (batchFiles itemFiles).foldl (checkFile platform claimed.owner) claimed.conflicts

/-! ### The relation between items -/

/-- Two case-folded paths are the same, or one lies below the other. -/
def KeysOverlap (first second : PathText) : Prop :=
  first = second ∨ Above first second ∨ Above second first

/-- Some paths of the two lists overlap, as lock paths and case-folded. -/
def FilesOverlap (platform : Platform) (first second : List PathText) : Prop :=
  ∃ p ∈ normalizeLockPathList first, ∃ q ∈ normalizeLockPathList second,
    KeysOverlap (platform.toLowerCase p) (platform.toLowerCase q)

/-- The conflict names two items of which some paths overlap, and one of these paths. -/
def NamesOverlap (platform : Platform) (itemFiles : List (List PathText))
    (conflict : BatchConflict) : Prop :=
  ∃ (i j : Nat) (first second : List PathText), i ≠ j ∧ itemFiles[i]? = some first ∧
    itemFiles[j]? = some second ∧ conflict.items = (i + 1, j + 1) ∧
    conflict.path ∈ normalizeLockPathList second ∧ ∃ p ∈ normalizeLockPathList first,
      KeysOverlap (platform.toLowerCase p) (platform.toLowerCase conflict.path)

theorem mem_batchFiles {itemFiles : List (List PathText)} {i : Nat} {file : PathText} :
    (i, file) ∈ batchFiles itemFiles ↔
      ∃ files, itemFiles[i]? = some files ∧ file ∈ normalizeLockPathList files := by
  simp only [batchFiles, mem_flatMap, mem_map, Prod.exists, mem_zipIdx_iff_getElem?,
    Prod.mk.injEq]
  constructor
  · rintro ⟨files, index, hfiles, found, hfound, rfl, rfl⟩
    exact ⟨files, hfiles, hfound⟩
  · rintro ⟨files, hfiles, hfile⟩
    exact ⟨files, i, hfiles, file, hfile, rfl, rfl⟩

/-! ### Recorded conflicts -/

variable {platform : Platform}

theorem mem_record {file : PathText} {other current : Nat} {conflicts : List BatchConflict}
    {conflict : BatchConflict} :
    conflict ∈ record file other current conflicts ↔
      conflict ∈ conflicts ∨ conflict = ⟨file, (other + 1, current + 1)⟩ := by
  rw [record]
  split
  · next hmem =>
    refine ⟨Or.inl, ?_⟩
    rintro (hconflict | rfl)
    · exact hconflict
    · exact hmem
  · rw [mem_append, mem_singleton]

/-- What is recorded for an entry is an overlap of it with an entry of another item. -/
structure Recorded (platform : Platform) (entries : List (Nat × PathText))
    (conflict : BatchConflict) (i j : Nat) (p q : PathText) : Prop where
  first : (i, p) ∈ entries
  second : (j, q) ∈ entries
  distinct : i ≠ j
  overlap : KeysOverlap (platform.toLowerCase p) (platform.toLowerCase q)
  conflict : conflict = ⟨q, (i + 1, j + 1)⟩

def Sound (platform : Platform) (entries : List (Nat × PathText))
    (conflicts : List BatchConflict) : Prop :=
  ∀ conflict ∈ conflicts, ∃ i j p q, Recorded platform entries conflict i j p q

theorem Sound.record {entries : List (Nat × PathText)} {conflicts : List BatchConflict}
    {i j : Nat} {p q : PathText} (h : Sound platform entries conflicts)
    (first : (i, p) ∈ entries) (second : (j, q) ∈ entries) (distinct : i ≠ j)
    (overlap : KeysOverlap (platform.toLowerCase p) (platform.toLowerCase q)) :
    Sound platform entries (record q i j conflicts) := by
  intro conflict hconflict
  cases mem_record.mp hconflict with
  | inl hold => exact h conflict hold
  | inr hnew => exact ⟨i, j, p, q, first, second, distinct, overlap, hnew⟩

/-! ### The first pass -/

/-- The owners after the entries `done`: every key of them has an owner that has it, and an entry
whose key another item owns was recorded. -/
structure Claimed (platform : Platform) (entries done : List (Nat × PathText))
    (s : BatchOwners) : Prop where
  owned : ∀ key i, s.owner key = some i → ∃ file, (i, file) ∈ entries ∧
    platform.toLowerCase file = key
  covered : ∀ entry ∈ done, ∃ i, s.owner (platform.toLowerCase entry.2) = some i
  sound : Sound platform entries s.conflicts
  complete : ∀ entry ∈ done, s.owner (platform.toLowerCase entry.2) ≠ some entry.1 →
    s.conflicts ≠ []

/-- The entry becomes the owner of its key, or stays it. -/
theorem Claimed.own {entries done : List (Nat × PathText)} {s : BatchOwners}
    (h : Claimed platform entries done s) {entry : Nat × PathText} (hentry : entry ∈ entries)
    (hfree : s.owner (platform.toLowerCase entry.2) = none ∨
      s.owner (platform.toLowerCase entry.2) = some entry.1) :
    Claimed platform entries (done ++ [entry])
      { s with owner :=
          Function.update s.owner (platform.toLowerCase entry.2) (some entry.1) } where
  owned key i howner := by
    dsimp only at howner
    by_cases hkey : key = platform.toLowerCase entry.2
    · rw [hkey, update_self, Option.some.injEq] at howner
      rw [← howner, hkey]
      exact ⟨entry.2, hentry, rfl⟩
    · rw [update_of_ne hkey] at howner
      exact h.owned key i howner
  covered other hother := by
    by_cases hkey : platform.toLowerCase other.2 = platform.toLowerCase entry.2
    · exact ⟨entry.1, by rw [hkey]; exact update_self _ _ _⟩
    · cases mem_append.mp hother with
      | inl hdone =>
        obtain ⟨i, hi⟩ := h.covered other hdone
        exact ⟨i, (update_of_ne hkey _ _).trans hi⟩
      | inr hlast => exact absurd (by rw [mem_singleton.mp hlast]) hkey
  sound := h.sound
  complete other hother howner := by
    dsimp only at howner
    by_cases hkey : platform.toLowerCase other.2 = platform.toLowerCase entry.2
    · rw [hkey, update_self] at howner
      cases mem_append.mp hother with
      | inl hdone =>
        refine h.complete other hdone ?_
        rw [hkey]
        intro hsame
        cases hfree with
        | inl hnone => rw [hnone] at hsame; cases hsame
        | inr hsome => exact howner (hsome.symm.trans hsame)
      | inr hlast => exact absurd (by rw [mem_singleton.mp hlast]) howner
    · rw [update_of_ne hkey] at howner
      cases mem_append.mp hother with
      | inl hdone => exact h.complete other hdone howner
      | inr hlast => exact absurd (by rw [mem_singleton.mp hlast]) hkey

theorem Claimed.claimFile {entries done : List (Nat × PathText)} {s : BatchOwners}
    (h : Claimed platform entries done s) {entry : Nat × PathText} (hentry : entry ∈ entries) :
    Claimed platform entries (done ++ [entry]) (claimFile platform s entry) := by
  rw [Integration.claimFile]
  split
  · next other hother =>
    split
    · next hne =>
      obtain ⟨file, hfile, hkey⟩ := h.owned _ _ hother
      constructor
      · exact h.owned
      · intro later hlater
        cases mem_append.mp hlater with
        | inl hdone => exact h.covered later hdone
        | inr hlast => exact ⟨other, by rw [mem_singleton.mp hlast]; exact hother⟩
      · exact h.sound.record hfile hentry hne (Or.inl hkey)
      · intro _ _ _
        exact ne_nil_of_mem (mem_record.mpr (Or.inr rfl))
    · next heq =>
      rw [not_not] at heq
      exact h.own hentry (Or.inr (heq ▸ hother))
  · next hnone => exact h.own hentry (Or.inl hnone)

theorem claimed_foldl {entries : List (Nat × PathText)} :
    ∀ (rest done : List (Nat × PathText)) (s : BatchOwners),
      Claimed platform entries done s → (∀ entry ∈ rest, entry ∈ entries) →
      Claimed platform entries (done ++ rest) (rest.foldl (claimFile platform) s) := by
  intro rest
  induction rest with
  | nil => intro done s h _; rw [append_nil]; exact h
  | cons entry rest ih =>
    intro done s h hrest
    have hnext := ih (done ++ [entry]) _ (h.claimFile (hrest entry mem_cons_self))
      fun later hlater => hrest later (mem_cons_of_mem _ hlater)
    rwa [append_assoc, singleton_append] at hnext

theorem claimed_batch (platform : Platform) (itemFiles : List (List PathText)) :
    Claimed platform (batchFiles itemFiles) (batchFiles itemFiles)
      ((batchFiles itemFiles).foldl (claimFile platform) ⟨fun _ => none, []⟩) := by
  have initial : Claimed platform (batchFiles itemFiles) [] ⟨fun _ => none, []⟩ :=
    ⟨fun _ _ h => (by cases h), fun _ h => (by cases h), fun _ h => (by cases h),
      fun _ h => (by cases h)⟩
  exact claimed_foldl _ [] _ initial fun _ h => h

/-! ### The second pass -/

variable {owner : PathText → Option Nat} {entries : List (Nat × PathText)}

theorem mem_foldl_of_step {α : Type} {f : List BatchConflict → α → List BatchConflict}
    (grows : ∀ conflicts a, ∀ conflict ∈ conflicts, conflict ∈ f conflicts a) :
    ∀ (steps : List α) (conflicts : List BatchConflict),
      (∀ conflict ∈ conflicts, conflict ∈ steps.foldl f conflicts) ∧
      ∀ a ∈ steps, (∀ conflicts, f conflicts a ≠ []) → steps.foldl f conflicts ≠ [] := by
  intro steps
  induction steps with
  | nil => intro conflicts; exact ⟨fun _ h => h, fun _ h => by cases h⟩
  | cons a rest ih =>
    intro conflicts
    obtain ⟨hkept, hrecorded⟩ := ih (f conflicts a)
    refine ⟨fun conflict h => hkept conflict (grows conflicts a conflict h), ?_⟩
    intro b hb hstep
    cases hb with
    | head =>
      obtain ⟨conflict, hconflict⟩ := exists_mem_of_ne_nil _ (hstep conflicts)
      exact ne_nil_of_mem (hkept conflict hconflict)
    | tail _ hrest => exact hrecorded b hrest hstep

theorem checkDirectory_grows (entry : Nat × PathText) (conflicts : List BatchConflict)
    (directory : PathText) :
    ∀ conflict ∈ conflicts, conflict ∈ checkDirectory owner entry conflicts directory := by
  intro conflict hconflict
  rw [checkDirectory]
  split
  · split
    · exact mem_record.mpr (Or.inl hconflict)
    · exact hconflict
  · exact hconflict

theorem checkFile_grows (conflicts : List BatchConflict) (entry : Nat × PathText) :
    ∀ conflict ∈ conflicts, conflict ∈ checkFile platform owner conflicts entry :=
  (mem_foldl_of_step (checkDirectory_grows entry) _ conflicts).1

/-- A directory above the file that another item owns is recorded. -/
theorem checkFile_ne_nil {entry : Nat × PathText} {directory : PathText} {other : Nat}
    (habove : Above directory (platform.toLowerCase entry.2))
    (howner : owner directory = some other) (hne : other ≠ entry.1)
    (conflicts : List BatchConflict) : checkFile platform owner conflicts entry ≠ [] := by
  refine (mem_foldl_of_step (checkDirectory_grows entry) _ conflicts).2 directory
    (mem_reverse.mpr (mem_directoriesAbove.mpr habove)) ?_
  intro earlier
  rw [checkDirectory, howner]
  dsimp only
  rw [if_pos hne]
  exact ne_nil_of_mem (mem_record.mpr (Or.inr rfl))

theorem Sound.checkFile {s : BatchOwners} {done : List (Nat × PathText)}
    (hclaimed : Claimed platform entries done s) {entry : Nat × PathText}
    (hentry : entry ∈ entries) {conflicts : List BatchConflict}
    (h : Sound platform entries conflicts) :
    Sound platform entries (checkFile platform s.owner conflicts entry) := by
  have hsteps : ∀ (directories : List PathText),
      (∀ directory ∈ directories, Above directory (platform.toLowerCase entry.2)) →
      ∀ conflicts, Sound platform entries conflicts →
        Sound platform entries (directories.foldl (checkDirectory s.owner entry) conflicts) := by
    intro directories
    induction directories with
    | nil => intro _ conflicts h; exact h
    | cons directory rest ih =>
      intro habove conflicts h
      refine ih (fun later hlater => habove later (mem_cons_of_mem _ hlater)) _ ?_
      rw [checkDirectory]
      split
      · next other hother =>
        split
        · next hne =>
          obtain ⟨file, hfile, hkey⟩ := hclaimed.owned _ _ hother
          refine h.record hfile hentry hne (Or.inr (Or.inl ?_))
          rw [hkey]
          exact habove directory mem_cons_self
        · exact h
      · exact h
  refine hsteps _ (fun directory hdirectory => ?_) conflicts h
  exact mem_directoriesAbove.mp (mem_reverse.mp hdirectory)

/-! ### The check -/

theorem sound_integrationBatchOverlaps (platform : Platform) (itemFiles : List (List PathText)) :
    Sound platform (batchFiles itemFiles) (integrationBatchOverlaps platform itemFiles) := by
  have hclaimed := claimed_batch platform itemFiles
  have hsteps : ∀ rest : List (Nat × PathText), (∀ entry ∈ rest, entry ∈ batchFiles itemFiles) →
      ∀ conflicts, Sound platform (batchFiles itemFiles) conflicts →
        Sound platform (batchFiles itemFiles) (rest.foldl (checkFile platform
          ((batchFiles itemFiles).foldl (claimFile platform) ⟨fun _ => none, []⟩).owner)
            conflicts) := by
    intro rest
    induction rest with
    | nil => intro _ conflicts h; exact h
    | cons entry rest ih =>
      intro hrest conflicts h
      exact ih (fun later hlater => hrest later (mem_cons_of_mem _ hlater)) _
        (Sound.checkFile hclaimed (hrest entry mem_cons_self) h)
  exact hsteps _ (fun _ h => h) _ hclaimed.sound

/-- Two overlapping entries of different items are noticed, by the first pass where one of them
does not own its key and by the second otherwise. -/
theorem overlaps_ne_nil {itemFiles : List (List PathText)} {i j : Nat} {p q : PathText}
    (hp : (i, p) ∈ batchFiles itemFiles) (hq : (j, q) ∈ batchFiles itemFiles) (hne : i ≠ j)
    (h : KeysOverlap (platform.toLowerCase p) (platform.toLowerCase q)) :
    integrationBatchOverlaps platform itemFiles ≠ [] := by
  have hclaimed := claimed_batch platform itemFiles
  rw [integrationBatchOverlaps]
  generalize (batchFiles itemFiles).foldl (claimFile platform) ⟨fun _ => none, []⟩ = s at hclaimed
  have hpass := mem_foldl_of_step (@checkFile_grows platform s.owner)
    (batchFiles itemFiles) s.conflicts
  have hfirst : ∀ entry ∈ batchFiles itemFiles,
      s.owner (platform.toLowerCase entry.2) ≠ some entry.1 →
        (batchFiles itemFiles).foldl (checkFile platform s.owner) s.conflicts ≠ [] := by
    intro entry hentry howner
    obtain ⟨conflict, hconflict⟩ :=
      exists_mem_of_ne_nil _ (hclaimed.complete entry hentry howner)
    exact ne_nil_of_mem (hpass.1 conflict hconflict)
  by_cases hpOwner : s.owner (platform.toLowerCase p) = some i
  · by_cases hqOwner : s.owner (platform.toLowerCase q) = some j
    · obtain hequal | habove | hbelow := h
      · rw [hequal, hqOwner, Option.some.injEq] at hpOwner
        exact absurd hpOwner.symm hne
      · exact hpass.2 (j, q) hq (checkFile_ne_nil habove hpOwner hne)
      · exact hpass.2 (i, p) hp (checkFile_ne_nil hbelow hqOwner (Ne.symm hne))
    · exact hfirst (j, q) hq hqOwner
  · exact hfirst (i, p) hp hpOwner

/-- No overlap is returned exactly when no two items overlap, and the returned ones are overlaps
of the items that they name. -/
theorem integrationBatchOverlaps_exact (platform : Platform) (itemFiles : List (List PathText)) :
    (integrationBatchOverlaps platform itemFiles = [] ↔
      ∀ (i j : Nat) (first second : List PathText), i ≠ j → itemFiles[i]? = some first →
        itemFiles[j]? = some second → ¬ FilesOverlap platform first second) ∧
      ∀ conflict ∈ integrationBatchOverlaps platform itemFiles,
        NamesOverlap platform itemFiles conflict := by
  have hnames : ∀ conflict ∈ integrationBatchOverlaps platform itemFiles,
      NamesOverlap platform itemFiles conflict := by
    intro conflict hconflict
    obtain ⟨i, j, p, q, hrecorded⟩ :=
      sound_integrationBatchOverlaps platform itemFiles conflict hconflict
    obtain ⟨first, hfirst, hp⟩ := mem_batchFiles.mp hrecorded.first
    obtain ⟨second, hsecond, hq⟩ := mem_batchFiles.mp hrecorded.second
    rw [hrecorded.conflict]
    exact ⟨i, j, first, second, hrecorded.distinct, hfirst, hsecond, rfl, hq, p, hp,
      hrecorded.overlap⟩
  refine ⟨⟨?_, ?_⟩, hnames⟩
  · intro hnone i j first second hne hfirst hsecond ⟨p, hp, q, hq, hoverlap⟩
    exact overlaps_ne_nil (mem_batchFiles.mpr ⟨first, hfirst, hp⟩)
      (mem_batchFiles.mpr ⟨second, hsecond, hq⟩) hne hoverlap hnone
  · intro hdisjoint
    refine eq_nil_iff_forall_not_mem.mpr fun conflict hconflict => ?_
    obtain ⟨i, j, first, second, hne, hfirst, hsecond, -, hq, p, hp, hoverlap⟩ :=
      hnames conflict hconflict
    exact hdisjoint i j first second hne hfirst hsecond ⟨p, hp, conflict.path, hq, hoverlap⟩

/-- A file whose name ends in a blank and a file in the directory of that name: the lock path of
the first has lost the blank. -/
def blankItems : List (List PathText) := [["d ".toList], ["d /x".toList]]

theorem blank_directory_is_missed :
    ¬ (integrationBatchOverlaps asciiPlatform blankItems = [] ↔
      ∀ (i j : Nat) (first second : List PathText), i ≠ j → blankItems[i]? = some first →
        blankItems[j]? = some second → ¬ ∃ p ∈ first, ∃ q ∈ second,
          KeysOverlap (asciiPlatform.toLowerCase p) (asciiPlatform.toLowerCase q)) := by
  intro h
  have hnone : integrationBatchOverlaps asciiPlatform blankItems = [] := by decide
  refine h.mp hnone 0 1 _ _ (by decide) rfl rfl ⟨"d ".toList, ?_, "d /x".toList, ?_, ?_⟩
  · exact mem_singleton_self _
  · exact mem_singleton_self _
  · exact Or.inr (Or.inl ⟨by decide, "x".toList, by decide⟩)

end AgentBridge.Integration
