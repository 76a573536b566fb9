import Mathlib

/-!
# Lock paths

The path functions of `lib/paths.js` that the lock store uses. Paths are lists
of characters; a directory is the list of its segments below the filesystem
root, and `path.resolve` and `path.relative` are Node's POSIX functions.

Nothing here assumes that normalization is idempotent: trimming a path whose
last segment ends in blanks can expose a slash that the next normalization
strips. `Stable` names the paths for which another pass changes nothing, and
the lemmas about lists of paths are stated for those.
-/

namespace AgentBridge

open List

/-- The characters of a path as the bridge receives it. -/
abbrev PathText := List Char

instance : LawfulBEq PathText := inferInstance

/-- The segments of an absolute directory. -/
abbrev Directory := List PathText

/-- The platform and the case table, the same for every process of a machine. -/
structure Platform where
  windows : Bool
  toLowerCase : PathText → PathText

/-- What one call reads from its process and from the file system. -/
structure HostView where
  processCwd : Directory
  /-- `filesystemCaseModeForRoot` answered `"sensitive"`. -/
  caseSensitive : Directory → Bool
  pathExists : Directory → Bool
  realPathBoundaryReason : PathText → Directory → String

structure Host where
  platform : Platform
  view : HostView

namespace Paths

def repositoryScopeLockPath : PathText := ['.']

/-- The whitespace that `String.prototype.trim` removes. -/
def isWhitespace (c : Char) : Bool :=
  c.val == 0x20 || (0x09 ≤ c.val && c.val ≤ 0x0D) || c.val == 0xA0 || c.val == 0x1680 ||
    (0x2000 ≤ c.val && c.val ≤ 0x200A) || c.val == 0x2028 || c.val == 0x2029 ||
    c.val == 0x202F || c.val == 0x205F || c.val == 0x3000 || c.val == 0xFEFF

def trim (value : PathText) : PathText :=
  (value.rdropWhile isWhitespace).dropWhile isWhitespace

/-- The characters of the class `[*?[\]{}!]`. -/
def isPatternCharacter (c : Char) : Bool :=
  c == '*' || c == '?' || c == '[' || c == ']' || c == '{' || c == '}' || c == '!'

/-- `.replace(/\/+/g, "/")` -/
def collapseSlashes : PathText → PathText
  | [] => []
  | c :: rest =>
    if c == '/' && rest.head? == some '/' then collapseSlashes rest
    else c :: collapseSlashes rest

/-- `.replace(/^(?:\.\/)+/, "")` -/
def stripLeadingDots : PathText → PathText
  | '.' :: '/' :: rest => stripLeadingDots rest
  | value => value

/-- `.replace(/\/\.(?=\/|$)/g, "")`; the flag skips the dot of a match. -/
def dropDotSegments : Bool → PathText → PathText
  | _, [] => []
  | true, _ :: rest => dropDotSegments false rest
  | false, c :: rest =>
    if c == '/' && (rest == ['.'] || (rest.take 2) == ['.', '/']) then dropDotSegments true rest
    else c :: dropDotSegments false rest

/-- `.replace(/\/+$/, "")` -/
def stripTrailingSlashes (value : PathText) : PathText :=
  value.rdropWhile (· == '/')

def toForwardSlashes (value : PathText) : PathText :=
  value.map fun c => if c == '\\' then '/' else c

def normalizeLockPath (value : PathText) : PathText :=
  let raw := trim value
  if raw = [] then []
  else
    let slashNormalized :=
      collapseSlashes (dropDotSegments false (stripLeadingDots
        (collapseSlashes (toForwardSlashes raw))))
    let stripped := stripTrailingSlashes slashNormalized
    -- Only a literal directory followed by "/**" loses the suffix.
    let normalized :=
      if ['/', '*', '*'] <:+ stripped ∧ ¬ (stripped.rdrop 3).any isPatternCharacter then
        stripTrailingSlashes (stripped.rdrop 3)
      else stripped
    if normalized ≠ [] then normalized
    else if ['/'] <+: slashNormalized then ['/'] else []

/-- `normalizeList` of an array: empty strings are falsy. -/
def normalizeList (values : List PathText) : List PathText :=
  values.filter (· ≠ [])

def uniqueList (values : List PathText) : List PathText :=
  (((normalizeList values).map trim).filter (· ≠ [])).eraseDups

def normalizeLockPathList (values : List PathText) : List PathText :=
  (((uniqueList values).map normalizeLockPath).filter (· ≠ [])).eraseDups

def hasParentTraversalSegment (value : PathText) : Bool :=
  ((toForwardSlashes value).splitOn '/').any (· == ['.', '.'])

def isAsciiLetter (c : Char) : Bool :=
  ('a' ≤ c && c ≤ 'z') || ('A' ≤ c && c ≤ 'Z')

def isAbsolutePathLike : PathText → Bool
  | '/' :: _ => true
  | '\\' :: '\\' :: _ => true
  | c :: ':' :: s :: _ => isAsciiLetter c && (s == '\\' || s == '/')
  | _ => false

/-- `path.resolve(base, value)` -/
def resolve (base : Directory) (value : PathText) : Directory :=
  (value.splitOn '/').foldl
    (fun directory segment =>
      if segment = [] ∨ segment = ['.'] then directory
      else if segment = ['.', '.'] then directory.dropLast
      else directory ++ [segment])
    (if ['/'] <+: value then [] else base)

def joinSegments (segments : List PathText) : PathText :=
  ['/'].intercalate segments

/-- `path.relative(source, target)` -/
def relative : Directory → Directory → PathText
  | s :: source, t :: target =>
    if s = t then relative source target
    else joinSegments ((s :: source).map (fun _ => ['.', '.']) ++ t :: target)
  | source, target => joinSegments (source.map (fun _ => ['.', '.']) ++ target)

/-- `normalizeFilesystemCase(value)` without a directory. -/
def foldCase (platform : Platform) (value : PathText) : PathText :=
  if platform.windows then platform.toLowerCase value else value

/-- `normalizeFilesystemCase(value, cwd)` -/
def foldCaseForRoot (host : Host) (value : PathText) (root : Directory) : PathText :=
  if host.view.caseSensitive root then value else host.platform.toLowerCase value

def normalizeLockPathForCwd (host : Host) (value : PathText) (root : Directory) : PathText :=
  let raw := trim value
  let normalized := normalizeLockPath value
  if normalized = [] then normalized
  else if hasParentTraversalSegment raw then normalized
  else
    let resolved :=
      if isAbsolutePathLike raw then resolve host.view.processCwd raw else resolve root normalized
    let relativePath := relative root resolved
    foldCaseForRoot host
      (normalizeLockPath (if relativePath = [] then repositoryScopeLockPath else relativePath)) root

def normalizeLockPathListForCwd (host : Host) (values : List PathText) (root : Directory) :
    List PathText :=
  (((uniqueList values).map fun value => normalizeLockPathForCwd host value root).filter
    (· ≠ [])).eraseDups

def hasAmbiguousPathPattern (host : Host) (paths : List PathText) (root : Directory) : Bool :=
  (normalizeList paths).any fun candidate =>
    candidate.any isPatternCharacter &&
      !(!candidate.any (fun c => c == '*' || c == '?') && host.view.pathExists (resolve root candidate))

/-- A `:` that is not part of a leading drive. -/
def windowsStreamSyntax (host : Host) (normalized : PathText) : Bool :=
  host.platform.windows && ((match normalized with
    | c :: ':' :: '/' :: rest => if isAsciiLetter c then rest else normalized
    | [c, ':'] => if isAsciiLetter c then [] else normalized
    | _ => normalized).any (· == ':'))

def isDriveRoot : PathText → Bool
  | [c, ':'] => isAsciiLetter c
  | [c, ':', '/'] => isAsciiLetter c
  | _ => false

def escapesRoot (relativePath : PathText) : Bool :=
  relativePath == ['.', '.'] || ['.', '.', '/'].isPrefixOf relativePath

/-- `JSON.stringify` of a string. -/
def jsonQuote (value : PathText) : String :=
  let escape (c : Char) : List Char :=
    if c == '"' then ['\\', '"'] else if c == '\\' then ['\\', '\\']
    else if c.val == 8 then ['\\', 'b'] else if c == '\t' then ['\\', 't']
    else if c == '\n' then ['\\', 'n'] else if c.val == 12 then ['\\', 'f']
    else if c == '\r' then ['\\', 'r']
    else if c.val < 32 then
      ['\\', 'u', '0', '0'] ++ (if c.val < 16 then ['0'] else []) ++ Nat.toDigits 16 c.toNat
    else [c]
  String.ofList ('"' :: value.flatMap escape ++ ['"'])

def directoryText (directory : Directory) : String :=
  String.ofList ('/' :: joinSegments directory)

/-- The checks of `unsafePathReason` on one path; the empty text means safe. -/
def unsafeReasonOfPath (host : Host) (root : Directory) (raw : PathText) : String :=
  let normalized := normalizeLockPath raw
  let label := jsonQuote raw
  if normalized = [] then "Unsafe path " ++ label ++ " is empty."
  else if raw.any (fun c => c.val == 0 || c == '\r' || c == '\n') then
    "Unsafe path " ++ label ++ " contains control characters."
  else if windowsStreamSyntax host normalized then
    "Unsafe path " ++ label ++ " contains ':' inside a path segment. On Windows that names an NTFS alternate data stream (file.txt:stream, file::$DATA), whose bytes Git never reports, or a drive-relative path (C:file). Use a plain file or directory path."
  else if normalized = ['~'] ∨ ['~', '/'] <+: normalized then
    "Unsafe path " ++ label ++ " uses a home-directory shortcut. Use an explicit path."
  else if normalized = ['.'] ∨ normalized = ['/'] ∨ isDriveRoot normalized then
    "Unsafe path " ++ label ++ " targets a filesystem root. Use a bounded file or directory."
  else if hasParentTraversalSegment raw ∨ normalized = ['.', '.'] ∨ ['.', '.', '/'] <+: normalized ∨
      ['/', '.', '.', '/'] <:+: normalized then
    "Unsafe path " ++ label ++ " includes parent traversal."
  else if isAbsolutePathLike normalized &&
      (relative root (resolve host.view.processCwd normalized) == [] ||
        escapesRoot (relative root (resolve host.view.processCwd normalized))) then
    "Unsafe path " ++ label ++ " resolves outside the allowed root " ++ directoryText root ++ "."
  else host.view.realPathBoundaryReason normalized root

def unsafePathReason (host : Host) (paths : List PathText) (root : Directory) : String :=
  (((normalizeList paths).map (unsafeReasonOfPath host root)).find? (· ≠ "")).getD ""

def normalizePathForCompare (platform : Platform) (value : PathText) : PathText :=
  foldCase platform (normalizeLockPath value)

/-- The comparison inside `overlaps`: equal, one inside the other, or the
repository scope. -/
def pathsOverlap (left right : PathText) : Bool :=
  left == repositoryScopeLockPath || right == repositoryScopeLockPath || left == right ||
    (right ++ ['/']).isPrefixOf left || (left ++ ['/']).isPrefixOf right

def overlaps (platform : Platform) (pathsA pathsB : List PathText) : Option (PathText × PathText) :=
  pathsA.findSome? fun a => pathsB.findSome? fun b =>
    if pathsOverlap (normalizePathForCompare platform a) (normalizePathForCompare platform b) then
      some (a, b)
    else none

/-! ### Trimming and stability -/

private theorem rdropWhile_dropWhile (p : Char → Bool) {value : PathText}
    (h : value.rdropWhile p = value) :
    (value.dropWhile p).rdropWhile p = value.dropWhile p := by
  rw [rdropWhile_eq_self_iff] at h ⊢
  intro hne
  have hsuffix : value.dropWhile p <:+ value := dropWhile_suffix p
  have hvalue : value ≠ [] := by
    intro hnil
    rw [hnil] at hne
    exact hne rfl
  rw [hsuffix.getLast hne]
  exact h hvalue

@[simp] theorem trim_trim (value : PathText) : trim (trim value) = trim value := by
  have hright : (value.rdropWhile isWhitespace).rdropWhile isWhitespace =
      value.rdropWhile isWhitespace := rdropWhile_idempotent isWhitespace value
  unfold trim
  rw [rdropWhile_dropWhile isWhitespace hright]
  exact dropWhile_idempotent isWhitespace (value.rdropWhile isWhitespace)

@[simp] theorem normalizeLockPath_trim (value : PathText) :
    normalizeLockPath (trim value) = normalizeLockPath value := by
  simp [normalizeLockPath]

/-- A path another normalization leaves alone. -/
def Stable (value : PathText) : Prop := normalizeLockPath value = value

instance (value : PathText) : Decidable (Stable value) :=
  inferInstanceAs (Decidable (normalizeLockPath value = value))

theorem trim_ne_nil {value : PathText} (h : normalizeLockPath value ≠ []) : trim value ≠ [] := by
  intro hnil
  exact h (by simp [normalizeLockPath, hnil])

variable {path : PathText} {values : List PathText}

theorem mem_normalizeLockPathList :
    path ∈ normalizeLockPathList values ↔
      path ≠ [] ∧ ∃ value ∈ values, normalizeLockPath value = path := by
  simp only [normalizeLockPathList, uniqueList, normalizeList, mem_eraseDups,
    mem_filter, mem_map, decide_eq_true_eq]
  constructor
  · rintro ⟨⟨_, ⟨⟨value, ⟨hvalue, _⟩, rfl⟩, _⟩, rfl⟩, hne⟩
    exact ⟨hne, value, hvalue, (normalizeLockPath_trim value).symm⟩
  · rintro ⟨hne, value, hvalue, rfl⟩
    have htrim : trim value ≠ [] := trim_ne_nil hne
    have hvalue_ne : value ≠ [] := by
      intro hnil
      rw [hnil] at htrim
      exact htrim (by decide)
    exact ⟨⟨trim value, ⟨⟨value, ⟨hvalue, hvalue_ne⟩, rfl⟩, htrim⟩,
      normalizeLockPath_trim value⟩, hne⟩

theorem mem_normalizeLockPathList_of_stable (h : ∀ value ∈ values, value ≠ [] ∧ Stable value) :
    path ∈ normalizeLockPathList values ↔ path ∈ values := by
  rw [mem_normalizeLockPathList]
  constructor
  · rintro ⟨_, value, hvalue, rfl⟩
    rw [(h value hvalue).2]
    exact hvalue
  · intro hpath
    exact ⟨(h path hpath).1, path, hpath, (h path hpath).2⟩

theorem nodup_eraseDups {α : Type} [BEq α] [LawfulBEq α] (items : List α) :
    items.eraseDups.Nodup := by
  induction hlength : items.length using Nat.strong_induction_on generalizing items with
  | _ length ih =>
    cases items with
    | nil => exact nodup_nil
    | cons item items =>
      have hshorter : (items.filter fun other => !other == item).length < length := by
        have hle := length_filter_le (fun other => !other == item) items
        rw [length_cons] at hlength
        omega
      rw [eraseDups_cons, nodup_cons]
      refine ⟨?_, ih _ hshorter _ rfl⟩
      simp

theorem ne_nil_of_mem_normalizeLockPathListForCwd {host : Host} {root : Directory}
    (h : path ∈ normalizeLockPathListForCwd host values root) : path ≠ [] := by
  rw [normalizeLockPathListForCwd, mem_eraseDups, mem_filter] at h
  exact of_decide_eq_true h.2

/-! ### Overlap -/

theorem pathsOverlap_comm (left right : PathText) :
    pathsOverlap left right = pathsOverlap right left := by
  simp only [pathsOverlap]
  rw [Bool.beq_comm (a := left) (b := right)]
  cases left == repositoryScopeLockPath <;> cases right == repositoryScopeLockPath <;>
    cases right == left <;> simp [Bool.or_comm]

theorem overlaps_isSome {platform : Platform} {pathsA pathsB : List PathText} :
    (overlaps platform pathsA pathsB).isSome ↔
      ∃ a ∈ pathsA, ∃ b ∈ pathsB,
        pathsOverlap (normalizePathForCompare platform a) (normalizePathForCompare platform b) := by
  simp [overlaps, List.findSome?_isSome_iff]

theorem overlaps_isSome_comm {platform : Platform} {pathsA pathsB : List PathText} :
    (overlaps platform pathsA pathsB).isSome ↔ (overlaps platform pathsB pathsA).isSome := by
  rw [overlaps_isSome, overlaps_isSome]
  constructor
  · rintro ⟨a, ha, b, hb, h⟩
    exact ⟨b, hb, a, ha, by rwa [pathsOverlap_comm]⟩
  · rintro ⟨b, hb, a, ha, h⟩
    exact ⟨a, ha, b, hb, by rwa [pathsOverlap_comm]⟩

end Paths

end AgentBridge
