import AgentBridge.Integration.Preview
import AgentBridge.Paths

/-!
# Receipts over a moved target

A receipt of a dry run may still be used after the HEAD of the target has moved, when the
commits since then changed nothing that decides how the patch lands:
`integrationPathsTouching`, `patchedPathsStateSha256Of` and
`integrationTargetMovementEvidence`. A commit is the map from its paths to their entries,
and a patch reads the entries of its own paths and of the attribute files that reach them.
-/

namespace AgentBridge.Integration

open Paths List

/-! ### Touched paths -/

def gitattributes : PathText := ".gitattributes".toList

/-- `key.slice(0, slash)` for every slash of the key but a leading one. -/
def directoriesAbove (key : PathText) : List PathText :=
  ((List.range key.length).filter fun slash => 0 < slash && key[slash]? = some '/').map
    fun slash => key.take slash

/-- The key is an attribute file whose rules reach a patched path. -/
def attributesReach (key : PathText) (patchedKeys : List PathText) : Bool :=
  if key = gitattributes || ('/' :: gitattributes).isSuffixOf key then
    let directory := key.take (key.length - gitattributes.length)
    directory.isEmpty || patchedKeys.any fun candidate => directory.isPrefixOf candidate
  else false

def integrationPathsTouching (platform : Platform) (changedPaths patchedFiles : List PathText) :
    List PathText :=
  let patched := (normalizeLockPathList patchedFiles).map platform.toLowerCase
  let patchedDirectories := patched.flatMap directoriesAbove
  (normalizeLockPathList changedPaths).filter fun changed =>
    let key := platform.toLowerCase changed
    patched.contains key || patchedDirectories.contains key
      || (directoriesAbove key).any patched.contains
      || attributesReach key patched

/-- The path lies below the directory. -/
def Above (directory path : PathText) : Prop :=
  directory ≠ [] ∧ ∃ rest, path = directory ++ '/' :: rest

/-- The path lies in the directory of the attribute file, or below it. -/
def AttributesOf (file path : PathText) : Prop :=
  file = gitattributes ∨
    ∃ directory rest, file = directory ++ '/' :: gitattributes ∧ path = directory ++ '/' :: rest

/-- A change of the first path can affect how a patch of the second lands. -/
def Touches (changed patched : PathText) : Prop :=
  changed = patched ∨ Above changed patched ∨ Above patched changed ∨ AttributesOf changed patched

theorem mem_directoriesAbove {directory key : PathText} :
    directory ∈ directoriesAbove key ↔ Above directory key := by
  simp only [directoriesAbove, mem_map, mem_filter, mem_range, Bool.and_eq_true,
    decide_eq_true_eq]
  constructor
  · rintro ⟨slash, ⟨hlt, hpos, hslash⟩, rfl⟩
    refine ⟨?_, key.drop (slash + 1), ?_⟩
    · intro hnil
      have hlength := congrArg List.length hnil
      rw [length_take, length_nil] at hlength
      omega
    · have hdrop : key.drop slash = '/' :: key.drop (slash + 1) := by
        obtain ⟨hlt, hget⟩ := List.getElem?_eq_some_iff.mp hslash
        rw [drop_eq_getElem_cons hlt, hget]
      rw [← hdrop, take_append_drop]
  · rintro ⟨hne, rest, rfl⟩
    refine ⟨directory.length, ⟨?_, length_pos_iff.mpr hne, ?_⟩, take_left⟩
    · rw [length_append, length_cons]
      omega
    · rw [List.getElem?_append_right (Nat.le_refl _), Nat.sub_self]
      rfl

theorem attributesReach_iff {key : PathText} {patchedKeys : List PathText}
    (hkeys : patchedKeys ≠ []) :
    attributesReach key patchedKeys = true ↔
      ∃ candidate ∈ patchedKeys, AttributesOf key candidate := by
  have hlength : ∀ directory : PathText,
      (directory ++ '/' :: gitattributes).take
        ((directory ++ '/' :: gitattributes).length - gitattributes.length)
          = directory ++ ['/'] := by
    intro directory
    have hsplit : directory ++ '/' :: gitattributes = (directory ++ ['/']) ++ gitattributes := by
      simp
    rw [hsplit, length_append, Nat.add_sub_cancel, take_left]
  rw [attributesReach]
  constructor
  · intro h
    split at h
    next hattributes =>
      rw [Bool.or_eq_true, decide_eq_true_eq] at hattributes
      cases hattributes with
      | inl hroot =>
        obtain ⟨candidate, hcandidate⟩ := exists_mem_of_ne_nil _ hkeys
        exact ⟨candidate, hcandidate, .inl hroot⟩
      | inr hsuffix =>
        obtain ⟨directory, hkey⟩ := isSuffixOf_iff_suffix.mp hsuffix
        subst hkey
        rw [hlength, Bool.or_eq_true] at h
        cases h with
        | inl hempty => simp at hempty
        | inr hany =>
          obtain ⟨candidate, hcandidate, hprefix⟩ := any_eq_true.mp hany
          obtain ⟨rest, hrest⟩ := isPrefixOf_iff_prefix.mp hprefix
          exact ⟨candidate, hcandidate, .inr ⟨directory, rest, rfl, by simp [← hrest]⟩⟩
    · cases h
  · rintro ⟨candidate, hcandidate, hroot | ⟨directory, rest, hkey, hpath⟩⟩
    · subst hroot
      simp
    · subst hkey
      have hsuffix : ('/' :: gitattributes).isSuffixOf (directory ++ '/' :: gitattributes) = true :=
        isSuffixOf_iff_suffix.mpr (suffix_append _ _)
      rw [if_pos (by rw [hsuffix, Bool.or_true]), hlength, Bool.or_eq_true]
      refine .inr (any_eq_true.mpr ⟨candidate, hcandidate, ?_⟩)
      refine isPrefixOf_iff_prefix.mpr ⟨rest, ?_⟩
      rw [hpath, append_assoc]
      rfl

theorem mem_integrationPathsTouching {platform : Platform}
    {changedPaths patchedFiles : List PathText} {path : PathText}
    (hfiles : normalizeLockPathList patchedFiles ≠ []) :
    path ∈ integrationPathsTouching platform changedPaths patchedFiles ↔
      path ∈ normalizeLockPathList changedPaths ∧
        ∃ file ∈ normalizeLockPathList patchedFiles,
          Touches (platform.toLowerCase path) (platform.toLowerCase file) := by
  have hkeys : (normalizeLockPathList patchedFiles).map platform.toLowerCase ≠ [] := by
    intro hnil
    exact hfiles (map_eq_nil_iff.mp hnil)
  simp only [integrationPathsTouching, mem_filter, Bool.or_eq_true, contains_iff_mem,
    any_eq_true, mem_flatMap, mem_directoriesAbove, attributesReach_iff hkeys,
    mem_map, exists_exists_and_eq_and]
  refine and_congr_right fun _ => ?_
  constructor
  · rintro (((⟨file, hfile, heq⟩ | ⟨file, hfile, habove⟩) | ⟨_, hbelow, file, hfile, rfl⟩) |
      ⟨file, hfile, hattributes⟩)
    · exact ⟨file, hfile, .inl heq.symm⟩
    · exact ⟨file, hfile, .inr (.inl habove)⟩
    · exact ⟨file, hfile, .inr (.inr (.inl hbelow))⟩
    · exact ⟨file, hfile, .inr (.inr (.inr hattributes))⟩
  · rintro ⟨file, hfile, heq | habove | hbelow | hattributes⟩
    · exact .inl (.inl (.inl ⟨file, hfile, heq.symm⟩))
    · exact .inl (.inl (.inr ⟨file, hfile, habove⟩))
    · exact .inl (.inr ⟨_, hbelow, file, hfile, rfl⟩)
    · exact .inr ⟨file, hfile, hattributes⟩

/-! ### The state of the patched paths -/

/-- `headEntries`, `indexSnapshot` and `workingSnapshot`, by normalized path. -/
structure PatchedPathsState where
  headEntries : PathText → Option String
  indexSnapshot : PathText → Option String
  workingSnapshot : PathText → Option String

/-- What `patchedPathsStateSha256Of` hashes; the hash is kept as this content. -/
abbrev PathsStateSha256 := List (PathText × String × String × String)

def patchedPathsStateSha256Of (files : List PathText) (state : PatchedPathsState) :
    PathsStateSha256 :=
  ((normalizeLockPathList files).insertionSort (· ≤ ·)).map fun file =>
    (file, (state.headEntries file).getD "", (state.indexSnapshot file).getD "",
      (state.workingSnapshot file).getD "")

theorem agree_of_sha256_eq {files : List PathText} {first second : PatchedPathsState}
    (h : patchedPathsStateSha256Of files first = patchedPathsStateSha256Of files second) :
    ∀ file ∈ normalizeLockPathList files,
      (first.headEntries file).getD "" = (second.headEntries file).getD "" ∧
      (first.indexSnapshot file).getD "" = (second.indexSnapshot file).getD "" ∧
      (first.workingSnapshot file).getD "" = (second.workingSnapshot file).getD "" := by
  intro file hfile
  have hmem : file ∈ (normalizeLockPathList files).insertionSort (· ≤ ·) :=
    (mem_insertionSort _).mpr hfile
  have hentry := map_inj_left.mp h file hmem
  simp only [Prod.mk.injEq, true_and] at hentry
  exact hentry

/-! ### Commits -/

/-- What `git ls-tree -r` lists of a commit: each path and its entry. -/
abbrev CommitTree := List (PathText × String)

def entryAt (tree : CommitTree) (path : PathText) : Option String :=
  (tree.find? fun entry => entry.1 = path).map Prod.snd

/-- `git diff --name-only --no-renames` -/
def changedPathsBetween (first second : CommitTree) : List PathText :=
  ((first ++ second).map Prod.fst).eraseDups.filter fun path =>
    entryAt first path ≠ entryAt second path

theorem mem_changedPathsBetween {first second : CommitTree} {path : PathText} :
    path ∈ changedPathsBetween first second ↔ entryAt first path ≠ entryAt second path := by
  rw [changedPathsBetween, mem_filter, decide_eq_true_eq, mem_eraseDups]
  refine and_iff_right_of_imp fun hdiffers => ?_
  by_contra hnone
  have hmissing : ∀ tree : CommitTree, (∀ entry ∈ tree, entry ∈ first ++ second) →
      entryAt tree path = none := by
    intro tree hsub
    rw [entryAt, Option.map_eq_none_iff, List.find?_eq_none]
    intro entry hentry
    rw [decide_eq_true_eq]
    rintro rfl
    exact hnone (mem_map_of_mem (hsub entry hentry))
  have hfirst := hmissing first fun entry hentry => mem_append_left _ hentry
  have hsecond := hmissing second fun entry hentry => mem_append_right _ hentry
  exact hdiffers (hfirst.trans hsecond.symm)

/-! ### The evidence of a move -/

structure MovementGit where
  tree : String → CommitTree
  /-- Exit code and error output of `merge-base --is-ancestor`. -/
  isAncestor : String → String → Nat × PathText
  diffExit : String → String → Nat × PathText
  /-- The parsed count of `rev-list --count`. -/
  commitCount : String → String → Option Nat
  /-- `capturePatchedPathsState` -/
  patchedPathsState : String → List PathText → Except String PatchedPathsState

structure MovementEvidence where
  commits : Nat
  previewHead : String
  currentHead : String
  headEntries : PathText → Option String

/-- `GIT_OBJECT_ID_PATTERN` -/
def isObjectId (text : String) : Bool := hexText 40 text || hexText 64 text

/-- `(stderr || "").trim().slice(0, 200) || "exit <code>"` -/
def failureDetail (answer : Nat × PathText) : String :=
  let text := (trim answer.2).take 200
  if text = [] then "exit " ++ toString answer.1 else String.ofList text

def touchedReason (touched : List PathText) : String :=
  "commits since the preview changed "
    ++ ", ".intercalate ((touched.take 5).map String.ofList)
    ++ (if touched.length > 5 then " and " ++ toString (touched.length - 5) ++ " more" else "")
    ++ ", which the patch touches or depends on"

/-- `integrationTargetMovementEvidence`; an error is the reason of a rejection. -/
def integrationTargetMovementEvidence (platform : Platform) (git : MovementGit)
    (previewHead currentHead : String) (files : List PathText)
    (previewPathsStateSha256 : Option PathsStateSha256) : Except String MovementEvidence :=
  if !isObjectId previewHead || !isObjectId currentHead then
    .error "a HEAD in the comparison is not a commit object id"
  else
    match previewPathsStateSha256 with
    | none => .error "the receipt records no patched-path state to compare"
    | some reviewed =>
      let ancestor := git.isAncestor previewHead currentHead
      let diff := git.diffExit previewHead currentHead
      let touched := integrationPathsTouching platform
        (changedPathsBetween (git.tree previewHead) (git.tree currentHead)) files
      if normalizeLockPathList files = [] then
        .error "the patch has no known paths to compare"
      else if ancestor.1 = 1 then
        .error ("the reviewed HEAD is not an ancestor of the current HEAD (history was "
          ++ "rewritten or another branch was checked out)")
      else if ancestor.1 ≠ 0 then
        .error ("git could not relate the two HEADs (" ++ failureDetail ancestor ++ ")")
      else if diff.1 ≠ 0 then
        .error ("git could not list the paths changed since the preview ("
          ++ failureDetail diff ++ ")")
      else if touched ≠ [] then .error (touchedReason touched)
      else
        match git.commitCount previewHead currentHead with
        | none | some 0 => .error "git could not count the commits since the preview"
        | some (commits + 1) =>
          match git.patchedPathsState currentHead files with
          | .error error => .error ("the patched paths could not be read (" ++ error ++ ")")
          | .ok state =>
            if patchedPathsStateSha256Of files state ≠ reviewed then
              .error ("the HEAD, index or working-tree state of the patched paths is no longer "
                ++ "the reviewed one")
            else
              .ok
                { commits := commits + 1
                  previewHead := previewHead
                  currentHead := currentHead
                  headEntries := state.headEntries }

/-- `baselinePathsState` of the apply, compared with the receipt: the snapshots that the apply
protects, with the entries of HEAD that the evidence read. -/
def baselineAccepted (files : List PathText) (moved : MovementEvidence)
    (preApplyIndexSnapshot preApplyExactSnapshot : PathText → Option String)
    (previewPathsStateSha256 : Option PathsStateSha256) : Bool :=
  some (patchedPathsStateSha256Of files
    { headEntries := moved.headEntries
      indexSnapshot := preApplyIndexSnapshot
      workingSnapshot := preApplyExactSnapshot }) = previewPathsStateSha256

/-- What an accepted move has shown. -/
theorem movementEvidence_eq_ok {platform : Platform} {git : MovementGit}
    {previewHead currentHead : String} {files : List PathText}
    {reviewed : Option PathsStateSha256} {moved : MovementEvidence}
    (h : integrationTargetMovementEvidence platform git previewHead currentHead files reviewed
      = .ok moved) :
    normalizeLockPathList files ≠ [] ∧
    integrationPathsTouching platform
      (changedPathsBetween (git.tree previewHead) (git.tree currentHead)) files = [] ∧
    ∃ state, git.patchedPathsState currentHead files = .ok state ∧
      some (patchedPathsStateSha256Of files state) = reviewed ∧
      moved.headEntries = state.headEntries := by
  unfold integrationTargetMovementEvidence at h
  split at h
  · cases h
  split at h
  · cases h
  next reviewed =>
  dsimp only at h
  split at h
  · cases h
  next hfiles =>
  split at h
  · cases h
  split at h
  · cases h
  split at h
  · cases h
  split at h
  · cases h
  next htouched =>
  split at h
  · cases h
  · cases h
  split at h
  · cases h
  next state hstate =>
  split at h
  · cases h
  next hsame =>
    cases h
    exact ⟨hfiles, not_not.mp htouched, state, hstate, congrArg some (not_not.mp hsame), rfl⟩

/-! ### How a patch lands -/

/-- The entry of every path, in a commit or in what a patch makes of it. -/
abbrev Entries := PathText → Option String

/-- A patch of the files: what it makes of its paths, from the entries of these paths and of the
attribute files that reach them. -/
structure Patch (files : List PathText) where
  outcome : Entries → Entries
  reads : ∀ first second : Entries, (∀ file ∈ files, first file = second file) →
    (∀ file ∈ files, ∀ path, AttributesOf path file → first path = second path) →
    ∀ file ∈ files, outcome first file = outcome second file

variable {files : List PathText}

/-- A path of the patch needs a directory where the path is, or the other way round. -/
def inTheWay (patch : Patch files) (head : Entries) (path : PathText) : Bool :=
  files.any fun file => (patch.outcome head file).isSome
    && ((directoriesAbove file).contains path || (directoriesAbove path).contains file)

/-- The patch applied at a commit: its own paths are written, and a file in their way gives way. -/
def land (patch : Patch files) (head : Entries) (path : PathText) : Option String :=
  if path ∈ files then patch.outcome head path
  else if inTheWay patch head path then none
  else head path

theorem inTheWay_iff {patch : Patch files} {head : Entries} {path : PathText} :
    inTheWay patch head path = true ↔
      ∃ file ∈ files, (patch.outcome head file).isSome = true ∧
        (Above path file ∨ Above file path) := by
  simp only [inTheWay, any_eq_true, Bool.and_eq_true, Bool.or_eq_true, contains_iff_mem,
    mem_directoriesAbove]

/-- `String.prototype.toLowerCase`: it works on each segment of a path by itself, makes no text
empty, and leaves lower case alone. -/
structure LowerCase (toLowerCase : PathText → PathText) : Prop where
  slash : ∀ front back, toLowerCase (front ++ '/' :: back)
    = toLowerCase front ++ '/' :: toLowerCase back
  nonempty : ∀ text, text ≠ [] → toLowerCase text ≠ []
  gitattributes : toLowerCase gitattributes = gitattributes

section

variable {toLowerCase : PathText → PathText} (lower : LowerCase toLowerCase)
  {changed patched : PathText}

include lower

theorem Above.folded (h : Above changed patched) :
    Above (toLowerCase changed) (toLowerCase patched) := by
  obtain ⟨hne, rest, rfl⟩ := h
  exact ⟨lower.nonempty changed hne, toLowerCase rest, lower.slash changed rest⟩

theorem AttributesOf.folded (h : AttributesOf changed patched) :
    AttributesOf (toLowerCase changed) (toLowerCase patched) := by
  cases h with
  | inl hroot =>
    rw [hroot, lower.gitattributes]
    exact .inl rfl
  | inr hbelow =>
    obtain ⟨directory, rest, rfl, rfl⟩ := hbelow
    refine .inr ⟨toLowerCase directory, toLowerCase rest, ?_, lower.slash directory rest⟩
    rw [lower.slash, lower.gitattributes]

/-- Folding the case of two paths loses no relation between them. -/
theorem Touches.folded (h : Touches changed patched) :
    Touches (toLowerCase changed) (toLowerCase patched) := by
  rcases h with rfl | habove | hbelow | hattributes
  · exact .inl rfl
  · exact .inr (.inl (habove.folded lower))
  · exact .inr (.inr (.inl (hbelow.folded lower)))
  · exact .inr (.inr (.inr (hattributes.folded lower)))

end

section

variable {platform : Platform} {preview current : CommitTree}
  (lower : LowerCase platform.toLowerCase)
  (hfiles : ∀ file ∈ files, file ≠ [] ∧ Stable file)
  (hchanged : ∀ path ∈ changedPathsBetween preview current, path ≠ [] ∧ Stable path)
  (htouched : integrationPathsTouching platform (changedPathsBetween preview current) files = [])

include lower hfiles hchanged htouched

theorem entryAt_eq_of_touches {path file : PathText} (hfile : file ∈ files)
    (htouches : Touches path file) : entryAt preview path = entryAt current path := by
  by_contra hdiffers
  have hpath : path ∈ changedPathsBetween preview current := mem_changedPathsBetween.mpr hdiffers
  have hpatched : file ∈ normalizeLockPathList files :=
    (mem_normalizeLockPathList_of_stable hfiles).mpr hfile
  have hreported : path ∈ integrationPathsTouching platform
      (changedPathsBetween preview current) files :=
    (mem_integrationPathsTouching (ne_nil_of_mem hpatched)).mpr
      ⟨(mem_normalizeLockPathList_of_stable hchanged).mpr hpath, file, hpatched,
        htouches.folded lower⟩
  rw [htouched] at hreported
  cases hreported

/-- The patch makes the same of its paths at both commits. -/
theorem outcome_eq_of_untouched (patch : Patch files) {file : PathText} (hfile : file ∈ files) :
    patch.outcome (entryAt preview) file = patch.outcome (entryAt current) file := by
  refine patch.reads _ _ ?_ ?_ file hfile
  · intro own hown
    exact entryAt_eq_of_touches lower hfiles hchanged htouched hown (.inl rfl)
  · intro own hown path hattributes
    exact entryAt_eq_of_touches lower hfiles hchanged htouched hown
      (.inr (.inr (.inr hattributes)))

/-- At the later commit nothing is in the way of the patch that was not so at the preview. -/
theorem land_eq_of_untouched (patch : Patch files)
    (hreviewed : ∀ path ∉ files, land patch (entryAt preview) path = entryAt preview path)
    {path : PathText} (hpath : path ∉ files) :
    land patch (entryAt current) path = entryAt current path := by
  rw [land, if_neg hpath]
  split
  next hway =>
    obtain ⟨file, hfile, hwritten, hrelated⟩ := inTheWay_iff.mp hway
    have htouches : Touches path file := hrelated.elim (fun h => .inr (.inl h))
      fun h => .inr (.inr (.inl h))
    have hsame := entryAt_eq_of_touches lower hfiles hchanged htouched hfile htouches
    have hpreview : inTheWay patch (entryAt preview) path = true := by
      refine inTheWay_iff.mpr ⟨file, hfile, ?_, hrelated⟩
      rw [outcome_eq_of_untouched lower hfiles hchanged htouched patch hfile]
      exact hwritten
    have hgone := hreviewed path hpath
    rw [land, if_neg hpath, if_pos hpreview] at hgone
    exact hgone.trans hsame
  · rfl

end

/-- A receipt that survives a moved HEAD is sound, for paths that normalization leaves alone: the
patch gives its paths the reviewed contents and changes no other path, and the index and the
files of its paths are the reviewed ones. The reported paths are the normalized changed ones that
touch a patched path. -/
theorem moved_receipt_sound (platform : Platform) (lower : LowerCase platform.toLowerCase) :
    (∀ changedPaths patchedFiles, normalizeLockPathList patchedFiles ≠ [] → ∀ path,
      path ∈ integrationPathsTouching platform changedPaths patchedFiles ↔
        path ∈ normalizeLockPathList changedPaths ∧
          ∃ file ∈ normalizeLockPathList patchedFiles,
            Touches (platform.toLowerCase path) (platform.toLowerCase file)) ∧
    (∀ git previewHead currentHead files reviewed moved indexSnapshot exactSnapshot,
      integrationTargetMovementEvidence platform git previewHead currentHead files
        (some (patchedPathsStateSha256Of files reviewed)) = .ok moved →
      baselineAccepted files moved indexSnapshot exactSnapshot
        (some (patchedPathsStateSha256Of files reviewed)) = true →
      (∀ file ∈ files, file ≠ [] ∧ Stable file) →
      (∀ path ∈ changedPathsBetween (git.tree previewHead) (git.tree currentHead),
        path ≠ [] ∧ Stable path) →
      ∀ patch : Patch files,
      (∀ path ∉ files, land patch (entryAt (git.tree previewHead)) path
        = entryAt (git.tree previewHead) path) →
      (∀ file ∈ files, land patch (entryAt (git.tree currentHead)) file
        = land patch (entryAt (git.tree previewHead)) file) ∧
      (∀ path ∉ files, land patch (entryAt (git.tree currentHead)) path
        = entryAt (git.tree currentHead) path) ∧
      ∀ file ∈ files, (indexSnapshot file).getD "" = (reviewed.indexSnapshot file).getD "" ∧
        (exactSnapshot file).getD "" = (reviewed.workingSnapshot file).getD "") := by
  constructor
  · intro changedPaths patchedFiles hfiles path
    exact mem_integrationPathsTouching hfiles
  · intro git previewHead currentHead files reviewed moved indexSnapshot exactSnapshot hmoved
      hbaseline hfiles hchanged patch hreviewed
    obtain ⟨-, htouched, -⟩ := movementEvidence_eq_ok hmoved
    refine ⟨?contents, ?others, ?snapshots⟩
    case contents =>
      intro file hfile
      rw [land, land, if_pos hfile, if_pos hfile]
      exact (outcome_eq_of_untouched lower hfiles hchanged htouched patch hfile).symm
    case others =>
      intro path hpath
      exact land_eq_of_untouched lower hfiles hchanged htouched patch hreviewed hpath
    case snapshots =>
      intro file hfile
      have hsame := Option.some.inj (of_decide_eq_true hbaseline)
      exact (agree_of_sha256_eq hsame file
        ((mem_normalizeLockPathList_of_stable hfiles).mpr hfile)).2

/-! ### Concrete repositories -/

def asciiPlatform : Platform where
  windows := false
  toLowerCase := List.map Char.toLower

theorem asciiPlatform_lowerCase : LowerCase asciiPlatform.toLowerCase where
  slash front back := map_append
  nonempty text hne hnil := hne (map_eq_nil_iff.mp hnil)
  gitattributes := by decide

/-- The two commits of a target, and nothing at the paths of the patch. -/
def movedGit (preview current : CommitTree) : MovementGit where
  tree head := if head = "1111111111111111111111111111111111111111" then preview else current
  isAncestor _ _ := (0, [])
  diffExit _ _ := (0, [])
  commitCount _ _ := some 1
  patchedPathsState _ _ := .ok ⟨fun _ => none, fun _ => none, fun _ => some "missing"⟩

/-- A patch that creates one file. -/
def creation (file : PathText) : Patch [file] where
  outcome _ _ := some "100644 blob new"
  reads _ _ _ _ _ _ := rfl

/-- What the dry run recorded of a file that does not exist. -/
def missingState : PatchedPathsState := ⟨fun _ => none, fun _ => none, fun _ => some "missing"⟩

def acceptedMove (preview current : CommitTree) (file : PathText) : Except String MovementEvidence :=
  integrationTargetMovementEvidence asciiPlatform (movedGit preview current)
    "1111111111111111111111111111111111111111" "2222222222222222222222222222222222222222" [file]
    (some (patchedPathsStateSha256Of [file] missingState))

/-- The evidence of an accepted move by one commit. -/
def oneCommit : MovementEvidence :=
  ⟨1, "1111111111111111111111111111111111111111", "2222222222222222222222222222222222222222",
    fun _ => none⟩

theorem moved_receipt_sound_of_creation :
    land (creation "src/a.js".toList) (entryAt [("docs/b.md".toList, "b")]) "docs/b.md".toList
      = some "b" := by
  have hmoved : acceptedMove [] [("docs/b.md".toList, "b")] "src/a.js".toList = .ok oneCommit := by
    rfl
  have hpreview : ∀ path ∉ ["src/a.js".toList],
      land (creation "src/a.js".toList) (entryAt []) path = entryAt [] path := by
    intro path hpath
    rw [land, if_neg hpath]
    exact ite_self none
  exact ((moved_receipt_sound asciiPlatform asciiPlatform_lowerCase).2
    (movedGit [] [("docs/b.md".toList, "b")]) "1111111111111111111111111111111111111111"
    "2222222222222222222222222222222222222222" ["src/a.js".toList] missingState oneCommit
    (fun _ => none) (fun _ => some "missing") hmoved (by decide) (by decide) (by decide)
    (creation "src/a.js".toList) hpreview).2.1 "docs/b.md".toList (by decide)

/-- A file whose name ends in a blank is above a path of the patch and is not reported; the receipt
survives the commit that adds it, and the patch removes it. Without a patched path the attribute
file of the root is reported. -/
theorem blank_path_unreported :
    (Above "a ".toList "a /b".toList ∧
      integrationPathsTouching asciiPlatform ["a ".toList] ["a /b".toList] = []) ∧
    (acceptedMove [] [("a ".toList, "file")] "a /b".toList = .ok oneCommit ∧
      baselineAccepted ["a /b".toList] oneCommit (fun _ => none) (fun _ => some "missing")
        (some (patchedPathsStateSha256Of ["a /b".toList] missingState)) = true ∧
      entryAt [("a ".toList, "file")] "a ".toList = some "file" ∧
      land (creation "a /b".toList) (entryAt [("a ".toList, "file")]) "a ".toList = none) ∧
    integrationPathsTouching asciiPlatform [gitattributes] [] = [gitattributes] := by
  refine ⟨⟨⟨by decide, "b".toList, by decide⟩, by decide⟩, ⟨rfl, by decide, by decide, by decide⟩,
    by decide⟩

end AgentBridge.Integration
