import AgentBridge.Patches.Headers

/-!
# The files of a Git patch

`patchFileEntries` of `lib/git-patch.js`, held to the patches that Git writes: a header, the
extended headers, and a text or a binary body for every file. A line of a hunk carries its mark
in front, so no content is taken for a header, and what precedes the first hunk is not counted.
-/

namespace AgentBridge.Patches

open AgentBridge.Paths AgentBridge.Systems List

/-! ### Reading a patch -/

structure PatchEntry where
  path : PathText
  added : Nat
  removed : Nat
  binary : Bool
  created : Bool
  deleted : Bool
  inHunk : Bool

def newEntry (path : PathText) : PatchEntry := ⟨path, 0, 0, false, false, false, false⟩

/-- `diff --git ` -/
def headerPrefix : PathText := headerMark.map Char.ofNat

def newFileMode : PathText :=
  ['n', 'e', 'w', ' ', 'f', 'i', 'l', 'e', ' ', 'm', 'o', 'd', 'e']

def deletedFileMode : PathText :=
  ['d', 'e', 'l', 'e', 't', 'e', 'd', ' ', 'f', 'i', 'l', 'e', ' ', 'm', 'o', 'd', 'e']

def gitBinaryPatch : PathText :=
  ['G', 'I', 'T', ' ', 'b', 'i', 'n', 'a', 'r', 'y', ' ', 'p', 'a', 't', 'c', 'h']

def binaryFiles : PathText := ['B', 'i', 'n', 'a', 'r', 'y', ' ', 'f', 'i', 'l', 'e', 's', ' ']

/-- What a line that is not a header does to the current entry. -/
def PatchEntry.read (entry : PatchEntry) (line : PathText) : PatchEntry :=
  if entry.inHunk then
    if ['+'].isPrefixOf line then { entry with added := entry.added + 1 }
    else if ['-'].isPrefixOf line then { entry with removed := entry.removed + 1 }
    else entry
  else if newFileMode.isPrefixOf line then { entry with created := true }
  else if deletedFileMode.isPrefixOf line then { entry with deleted := true }
  else if gitBinaryPatch.isPrefixOf line || binaryFiles.isPrefixOf line then
    { entry with binary := true }
  else if ['@', '@'].isPrefixOf line then { entry with inHunk := true }
  else entry

/-- The entries before the current one, if there is one. -/
structure PatchReader where
  done : List PatchEntry
  current : Option PatchEntry

def PatchReader.files (s : PatchReader) : List PatchEntry := s.done ++ s.current.toList

def PatchReader.readLine (s : PatchReader) (line : PathText) : PatchReader :=
  if headerPrefix.isPrefixOf line then ⟨s.files, (gitDiffHeaderNewPath line).map newEntry⟩
  else { s with current := s.current.map fun entry => entry.read line }

def patchFileEntries (patchText : PathText) : List PatchEntry :=
  ((patchText.splitOn '\n').foldl PatchReader.readLine ⟨[], none⟩).files

/-! ### Writing a patch -/

def newline : Nat := 0x0A

structure LineText where
  bytes : List Nat
  oneLine : newline ∉ bytes

inductive HunkLine where
  | context (text : LineText)
  | added (text : LineText)
  | removed (text : LineText)
  | noNewline (text : LineText)

def HunkLine.bytes : HunkLine → List Nat
  | .context text => 0x20 :: text.bytes
  | .added text => 0x2B :: text.bytes
  | .removed text => 0x2D :: text.bytes
  | .noNewline text => 0x5C :: text.bytes

/-- A hunk: what follows `@@` on its first line, and its lines. -/
structure Hunk where
  range : LineText
  lines : List HunkLine

def Hunk.bytes (hunk : Hunk) : List (List Nat) :=
  (0x40 :: 0x40 :: hunk.range.bytes) :: hunk.lines.map HunkLine.bytes

/-- The lines between the header and the body other than those of a new or a deleted file. -/
inductive ExtendedKeyword where
  /-- `old mode` -/
  | oldMode
  /-- `new mode` -/
  | newMode
  /-- `similarity index` -/
  | similarityIndex
  /-- `dissimilarity index` -/
  | dissimilarityIndex
  /-- `rename from` -/
  | renameFrom
  /-- `rename to` -/
  | renameTo
  /-- `copy from` -/
  | copyFrom
  /-- `copy to` -/
  | copyTo
  /-- `index` -/
  | index

def ExtendedKeyword.bytes : ExtendedKeyword → List Nat
  | .oldMode => [0x6F, 0x6C, 0x64, 0x20, 0x6D, 0x6F, 0x64, 0x65, 0x20]
  | .newMode => [0x6E, 0x65, 0x77, 0x20, 0x6D, 0x6F, 0x64, 0x65, 0x20]
  | .similarityIndex => [0x73, 0x69, 0x6D, 0x69, 0x6C, 0x61, 0x72, 0x69, 0x74, 0x79, 0x20, 0x69,
      0x6E, 0x64, 0x65, 0x78, 0x20]
  | .dissimilarityIndex => [0x64, 0x69, 0x73, 0x73, 0x69, 0x6D, 0x69, 0x6C, 0x61, 0x72, 0x69,
      0x74, 0x79, 0x20, 0x69, 0x6E, 0x64, 0x65, 0x78, 0x20]
  | .renameFrom => [0x72, 0x65, 0x6E, 0x61, 0x6D, 0x65, 0x20, 0x66, 0x72, 0x6F, 0x6D, 0x20]
  | .renameTo => [0x72, 0x65, 0x6E, 0x61, 0x6D, 0x65, 0x20, 0x74, 0x6F, 0x20]
  | .copyFrom => [0x63, 0x6F, 0x70, 0x79, 0x20, 0x66, 0x72, 0x6F, 0x6D, 0x20]
  | .copyTo => [0x63, 0x6F, 0x70, 0x79, 0x20, 0x74, 0x6F, 0x20]
  | .index => [0x69, 0x6E, 0x64, 0x65, 0x78, 0x20]

structure ExtendedHeader where
  keyword : ExtendedKeyword
  text : LineText

def ExtendedHeader.bytes (header : ExtendedHeader) : List Nat :=
  header.keyword.bytes ++ header.text.bytes

inductive BinaryLine where
  | literal (size : LineText)
  | delta (size : LineText)
  | data (letter : Nat) (digits : LineText) (isLetter : 0x41 ≤ letter ∧ letter ≤ 0x7A)
      (noBlank : 0x20 ∉ digits.bytes)
  | blank

def BinaryLine.bytes : BinaryLine → List Nat
  | .literal size =>
    [0x6C, 0x69, 0x74, 0x65, 0x72, 0x61, 0x6C, 0x20] ++ size.bytes
  | .delta size => [0x64, 0x65, 0x6C, 0x74, 0x61, 0x20] ++ size.bytes
  | .data letter digits _ _ => letter :: digits.bytes
  | .blank => []

inductive PatchBody where
  | empty
  | text (old new : LineText) (hunks : List Hunk)
  | binaryPatch (lines : List BinaryLine)
  | binaryFiles (names : LineText)

def PatchBody.bytes : PatchBody → List (List Nat)
  | .empty => []
  | .text old new hunks =>
    (0x2D :: 0x2D :: 0x2D :: 0x20 :: old.bytes) :: (0x2B :: 0x2B :: 0x2B :: 0x20 :: new.bytes) ::
      hunks.flatMap Hunk.bytes
  | .binaryPatch lines => gitBinaryPatch.map Char.toNat :: lines.map BinaryLine.bytes
  | .binaryFiles names => [Patches.binaryFiles.map Char.toNat ++ names.bytes]

inductive FileChange where
  | modified
  | added (mode : LineText)
  | deleted (mode : LineText)
  | renamed

def FileChange.bytes : FileChange → List (List Nat)
  | .modified => []
  | .added mode => [newFileMode.map Char.toNat ++ mode.bytes]
  | .deleted mode => [deletedFileMode.map Char.toNat ++ mode.bytes]
  | .renamed => []

structure PatchFile where
  old : GitPath
  new : GitPath
  change : FileChange
  headers : List ExtendedHeader
  body : PatchBody
  samePath : change ≠ .renamed → new = old

/-- The lines of a file after its header. -/
def PatchFile.rest (file : PatchFile) : List (List Nat) :=
  file.change.bytes ++ file.headers.map ExtendedHeader.bytes ++ file.body.bytes

def PatchFile.lines (quotePath : Bool) (file : PatchFile) : List (List Nat) :=
  writeHeader quotePath file.old.bytes file.new.bytes :: file.rest

def patchText (quotePath : Bool) (files : List PatchFile) : PathText :=
  Utf8.decode ((files.flatMap (PatchFile.lines quotePath)).flatMap fun line => line ++ [newline])

/-! ### What the entries should be -/

structure FileFacts where
  path : PathText
  created : Bool
  deleted : Bool
  renamed : Bool
  binary : Bool
  added : Nat
  removed : Nat

def HunkLine.isAdded : HunkLine → Bool
  | .added _ => true
  | _ => false

def HunkLine.isRemoved : HunkLine → Bool
  | .removed _ => true
  | _ => false

def PatchBody.hunkLines : PatchBody → List HunkLine
  | .text _ _ hunks => hunks.flatMap Hunk.lines
  | _ => []

def PatchBody.isBinary : PatchBody → Bool
  | .binaryPatch _ | .binaryFiles _ => true
  | _ => false

def PatchFile.facts (file : PatchFile) : FileFacts where
  path := file.new.text
  created := match file.change with | .added _ => true | _ => false
  deleted := match file.change with | .deleted _ => true | _ => false
  renamed := match file.change with | .renamed => true | _ => false
  binary := file.body.isBinary
  added := file.body.hunkLines.countP HunkLine.isAdded
  removed := file.body.hunkLines.countP HunkLine.isRemoved

/-- What an entry tells; it has no flag for a rename. -/
def PatchEntry.facts (entry : PatchEntry) : FileFacts where
  path := entry.path
  created := entry.created
  deleted := entry.deleted
  renamed := false
  binary := entry.binary
  added := entry.added
  removed := entry.removed

/-! ### Lines of a patch as text -/

/-- A line that begins with none of the marks that are looked for before a hunk. -/
structure Inert (line : PathText) : Prop where
  header : headerPrefix.isPrefixOf line = false
  newFile : newFileMode.isPrefixOf line = false
  deletedFile : deletedFileMode.isPrefixOf line = false
  binaryPatch : gitBinaryPatch.isPrefixOf line = false
  binaryFiles : binaryFiles.isPrefixOf line = false
  hunk : ['@', '@'].isPrefixOf line = false

theorem Inert.read {line : PathText} (h : Inert line) {entry : PatchEntry}
    (outside : entry.inHunk = false) : entry.read line = entry := by
  simp [PatchEntry.read, outside, h.newFile, h.deletedFile, h.binaryPatch, h.binaryFiles, h.hunk]

theorem inert_extended (header : ExtendedHeader) : Inert (Utf8.decode header.bytes) := by
  have htext : Utf8.decode header.bytes =
      header.keyword.bytes.map Char.ofNat ++ Utf8.decode header.text.bytes := by
    refine Utf8.decode_asciis ?_ _
    cases header.keyword <;> decide
  rw [htext]
  cases header.keyword <;> exact ⟨rfl, rfl, rfl, rfl, rfl, rfl⟩

theorem inert_binaryLine (line : BinaryLine) : Inert (Utf8.decode line.bytes) := by
  cases line with
  | literal size =>
    exact ⟨rfl, rfl, rfl, rfl, rfl, rfl⟩
  | delta size =>
    exact ⟨rfl, rfl, rfl, rfl, rfl, rfl⟩
  | blank => exact ⟨rfl, rfl, rfl, rfl, rfl, rfl⟩
  | data letter digits isLetter noBlank =>
    have hnoBlank : ' ' ∉ Utf8.decode (letter :: digits.bytes) := by
      intro hmem
      have hbyte := @Utf8.mem_of_mem_decodeFrom _ 0x20 _ (by decide) Utf8.wide_idle hmem
      cases mem_cons.mp hbyte with
      | inl heq => omega
      | inr hdigit => exact noBlank hdigit
    have hmark : ∀ mark : PathText, ' ' ∈ mark →
        mark.isPrefixOf (Utf8.decode (letter :: digits.bytes)) = false := by
      intro mark hblank
      rw [Bool.eq_false_iff]
      intro hprefix
      exact hnoBlank ((List.isPrefixOf_iff_prefix.mp hprefix).subset hblank)
    refine ⟨hmark _ (by decide), hmark _ (by decide), hmark _ (by decide),
      hmark _ (by decide), hmark _ (by decide), ?_⟩
    rw [BinaryLine.bytes, Utf8.decode_ascii_cons _ (show letter < 0x80 by omega),
      Bool.eq_false_iff]
    intro hprefix
    obtain ⟨tail, htail⟩ := isPrefixOf_iff_prefix.mp hprefix
    have hletter : (Char.ofNat letter).toNat = 0x40 :=
      congrArg Char.toNat (List.cons.inj htail).1.symm
    rw [Utf8.toNat_ofNat (.inl (by omega))] at hletter
    omega

theorem decode_hunkLine (line : HunkLine) :
    ∃ mark text, Utf8.decode line.bytes = Char.ofNat mark :: text ∧
      (mark = 0x20 ∨ mark = 0x2B ∨ mark = 0x2D ∨ mark = 0x5C) ∧
      line.isAdded = decide (mark = 0x2B) ∧ line.isRemoved = decide (mark = 0x2D) := by
  cases line with
  | context text =>
    exact ⟨0x20, _, Utf8.decode_ascii_cons text.bytes (by decide), by decide, rfl, rfl⟩
  | added text =>
    exact ⟨0x2B, _, Utf8.decode_ascii_cons text.bytes (by decide), by decide, rfl, rfl⟩
  | removed text =>
    exact ⟨0x2D, _, Utf8.decode_ascii_cons text.bytes (by decide), by decide, rfl, rfl⟩
  | noNewline text =>
    exact ⟨0x5C, _, Utf8.decode_ascii_cons text.bytes (by decide), by decide, rfl, rfl⟩

/-! ### One file -/

/-- The entry after some lines, none of which is a header. -/
def PatchEntry.readAll (entry : PatchEntry) (lines : List (List Nat)) : PatchEntry :=
  lines.foldl (fun entry line => entry.read (Utf8.decode line)) entry

theorem readAll_append (entry : PatchEntry) (lines others : List (List Nat)) :
    entry.readAll (lines ++ others) = (entry.readAll lines).readAll others :=
  foldl_append

theorem readAll_inert {entry : PatchEntry} (outside : entry.inHunk = false)
    {lines : List (List Nat)} (h : ∀ line ∈ lines, Inert (Utf8.decode line)) :
    entry.readAll lines = entry := by
  induction lines with
  | nil => rfl
  | cons line lines ih =>
    show (entry.read (Utf8.decode line)).readAll lines = entry
    rw [(h line mem_cons_self).read outside]
    exact ih fun other hother => h other (mem_cons_of_mem _ hother)

theorem readAll_hunkLines {entry : PatchEntry} (inside : entry.inHunk = true)
    (lines : List HunkLine) :
    entry.readAll (lines.map HunkLine.bytes) =
      { entry with
        added := entry.added + lines.countP HunkLine.isAdded
        removed := entry.removed + lines.countP HunkLine.isRemoved } := by
  induction lines generalizing entry with
  | nil => rfl
  | cons line lines ih =>
    show (entry.read (Utf8.decode line.bytes)).readAll (lines.map HunkLine.bytes) = _
    obtain ⟨mark, text, htext, hmark, hadded, hremoved⟩ := decode_hunkLine line
    rw [htext, countP_cons, countP_cons, hadded, hremoved, PatchEntry.read,
      if_pos inside]
    rcases hmark with rfl | rfl | rfl | rfl
    · exact ih inside
    · refine (@ih { entry with added := entry.added + 1 } inside).trans ?_
      simp only [Nat.reduceEqDiff, decide_true, decide_false, if_true, Bool.false_eq_true,
        if_false, Nat.add_zero]
      congr 1
      omega
    · refine (@ih { entry with removed := entry.removed + 1 } inside).trans ?_
      simp only [Nat.reduceEqDiff, decide_true, decide_false, if_true, Bool.false_eq_true,
        if_false, Nat.add_zero]
      congr 1
      omega
    · exact ih inside

theorem read_range (entry : PatchEntry) (hunk : Hunk) :
    entry.read (Utf8.decode (0x40 :: 0x40 :: hunk.range.bytes)) =
      { entry with inHunk := true } := by
  rw [Utf8.decode_ascii_cons _ (by decide), Utf8.decode_ascii_cons _ (by decide),
    PatchEntry.read]
  cases hinside : entry.inHunk with
  | true =>
    show entry = _
    rw [← hinside]
  | false => rfl

theorem readAll_hunks (entry : PatchEntry) (hunks : List Hunk) :
    entry.readAll (hunks.flatMap Hunk.bytes) =
      { entry with
        added := entry.added + (hunks.flatMap Hunk.lines).countP HunkLine.isAdded
        removed := entry.removed + (hunks.flatMap Hunk.lines).countP HunkLine.isRemoved
        inHunk := entry.inHunk || !hunks.isEmpty } := by
  induction hunks generalizing entry with
  | nil =>
    show entry = { entry with inHunk := entry.inHunk || false }
    rw [Bool.or_false]
  | cons hunk hunks ih =>
    rw [flatMap_cons, readAll_append, flatMap_cons, countP_append,
      countP_append]
    have hfirst : entry.readAll hunk.bytes =
        { entry with
          added := entry.added + hunk.lines.countP HunkLine.isAdded
          removed := entry.removed + hunk.lines.countP HunkLine.isRemoved
          inHunk := true } := by
      show (entry.read (Utf8.decode (0x40 :: 0x40 :: hunk.range.bytes))).readAll
        (hunk.lines.map HunkLine.bytes) = _
      rw [read_range, readAll_hunkLines rfl]
    rw [hfirst, ih]
    simp only [Nat.add_assoc, Bool.true_or, isEmpty_cons, Bool.not_false, Bool.or_true]

theorem inert_fileNames (mark : Nat) (h : mark = 0x2D ∨ mark = 0x2B) (text : LineText) :
    Inert (Utf8.decode (mark :: mark :: mark :: 0x20 :: text.bytes)) := by
  rcases h with rfl | rfl
  all_goals
    rw [Utf8.decode_ascii_cons _ (by decide)]
    exact ⟨rfl, rfl, rfl, rfl, rfl, rfl⟩

theorem readAll_body {entry : PatchEntry} (outside : entry.inHunk = false) (body : PatchBody) :
    (entry.readAll body.bytes).facts =
      { entry.facts with
        binary := entry.binary || body.isBinary
        added := entry.added + body.hunkLines.countP HunkLine.isAdded
        removed := entry.removed + body.hunkLines.countP HunkLine.isRemoved } := by
  cases body with
  | empty =>
    have hbinary : (entry.binary || PatchBody.empty.isBinary) = entry.binary := Bool.or_false _
    rw [hbinary]
    rfl
  | text old new hunks =>
    have hold := (inert_fileNames 0x2D (.inl rfl) old).read outside
    have hnew := (inert_fileNames 0x2B (.inr rfl) new).read outside
    show (((entry.read (Utf8.decode _)).read (Utf8.decode _)).readAll
      (hunks.flatMap Hunk.bytes)).facts = _
    rw [hold, hnew, readAll_hunks]
    have hbinary : (entry.binary || (PatchBody.text old new hunks).isBinary) = entry.binary :=
      Bool.or_false _
    rw [hbinary]
    rfl
  | binaryPatch lines =>
    have hfirst : entry.read (Utf8.decode (gitBinaryPatch.map Char.toNat)) =
        { entry with binary := true } := by
      rw [PatchEntry.read, outside]
      rfl
    have hlines : PatchEntry.readAll { entry with binary := true }
        (lines.map BinaryLine.bytes) = { entry with binary := true } := by
      refine readAll_inert (show PatchEntry.inHunk { entry with binary := true } = false
        from outside) fun line hline => ?_
      obtain ⟨written, -, rfl⟩ := mem_map.mp hline
      exact inert_binaryLine written
    have hbinary : (entry.binary || (PatchBody.binaryPatch lines).isBinary) = true :=
      Bool.or_true _
    show ((entry.read (Utf8.decode _)).readAll (lines.map BinaryLine.bytes)).facts = _
    rw [hfirst, hlines, hbinary]
    rfl
  | binaryFiles names =>
    have hfirst : entry.read (Utf8.decode (binaryFiles.map Char.toNat ++ names.bytes)) =
        { entry with binary := true } := by
      rw [Utf8.decode_asciis (by decide), PatchEntry.read, outside]
      rfl
    have hbinary : (entry.binary || (PatchBody.binaryFiles names).isBinary) = true :=
      Bool.or_true _
    show (entry.read (Utf8.decode _)).facts = _
    rw [hfirst, hbinary]
    rfl

/-- The entry of a file, when its header names a path. -/
def PatchFile.entry (file : PatchFile) (path : PathText) : PatchEntry :=
  (newEntry path).readAll file.rest

theorem facts_entry (file : PatchFile) (path : PathText) :
    (file.entry path).facts = { file.facts with path := path, renamed := false } := by
  have hheaders : ∀ {entry : PatchEntry}, entry.inHunk = false →
      entry.readAll (file.headers.map ExtendedHeader.bytes) = entry := by
    intro entry outside
    refine readAll_inert outside fun line hline => ?_
    obtain ⟨header, -, rfl⟩ := mem_map.mp hline
    exact inert_extended header
  have hchange : (newEntry path).readAll file.change.bytes =
      { newEntry path with created := file.facts.created, deleted := file.facts.deleted } := by
    cases hkind : file.change with
    | modified => simp only [PatchFile.facts, hkind]; rfl
    | renamed => simp only [PatchFile.facts, hkind]; rfl
    | added mode =>
      simp only [PatchFile.facts, hkind]
      rfl
    | deleted mode =>
      simp only [PatchFile.facts, hkind]
      show (newEntry path).read (Utf8.decode (deletedFileMode.map Char.toNat ++ mode.bytes)) = _
      rfl
  rw [PatchFile.entry, PatchFile.rest, readAll_append, readAll_append, hchange, hheaders rfl,
    readAll_body rfl]
  simp only [newEntry, PatchEntry.facts, PatchFile.facts, Nat.zero_add, Bool.false_or]

/-! ### The whole patch -/

variable {line : List Nat}

theorem header_of_hunk {hunk : Hunk} (h : line ∈ hunk.bytes) :
    headerPrefix.isPrefixOf (Utf8.decode line) = false := by
  cases mem_cons.mp h with
  | inl hrange =>
    rw [hrange, Utf8.decode_ascii_cons _ (by decide)]
    rfl
  | inr hline =>
    obtain ⟨written, -, rfl⟩ := mem_map.mp hline
    obtain ⟨mark, text, htext, hmark, -, -⟩ := decode_hunkLine written
    rw [htext]
    rcases hmark with rfl | rfl | rfl | rfl <;> rfl

theorem header_of_body {body : PatchBody} (h : line ∈ body.bytes) :
    headerPrefix.isPrefixOf (Utf8.decode line) = false := by
  cases body with
  | empty => cases h
  | text old new hunks =>
    rcases mem_cons.mp h with rfl | h
    · exact (inert_fileNames 0x2D (.inl rfl) old).header
    rcases mem_cons.mp h with rfl | h
    · exact (inert_fileNames 0x2B (.inr rfl) new).header
    obtain ⟨hunk, -, hline⟩ := mem_flatMap.mp h
    exact header_of_hunk hline
  | binaryPatch lines =>
    rcases mem_cons.mp h with rfl | h
    · rfl
    obtain ⟨written, -, rfl⟩ := mem_map.mp h
    exact (inert_binaryLine written).header
  | binaryFiles names =>
    rw [mem_singleton.mp h, Utf8.decode_asciis (by decide)]
    rfl

theorem header_of_change {change : FileChange} (h : line ∈ change.bytes) :
    headerPrefix.isPrefixOf (Utf8.decode line) = false := by
  cases change with
  | modified => cases h
  | renamed => cases h
  | added mode =>
    rw [mem_singleton.mp h, Utf8.decode_asciis (by decide)]
    rfl
  | deleted mode =>
    rw [mem_singleton.mp h, Utf8.decode_asciis (by decide)]
    rfl

theorem header_of_rest {file : PatchFile} (h : line ∈ file.rest) :
    headerPrefix.isPrefixOf (Utf8.decode line) = false := by
  rw [PatchFile.rest, mem_append, mem_append] at h
  rcases h with (hchange | hheader) | hbody
  · exact header_of_change hchange
  · obtain ⟨header, -, rfl⟩ := mem_map.mp hheader
    exact (inert_extended header).header
  · exact header_of_body hbody

def PatchReader.readLines (s : PatchReader) (lines : List (List Nat)) : PatchReader :=
  lines.foldl (fun s line => s.readLine (Utf8.decode line)) s

variable (quotePath : Bool) (s : PatchReader)

theorem readLines_append (lines others : List (List Nat)) :
    s.readLines (lines ++ others) = (s.readLines lines).readLines others :=
  foldl_append

theorem readLines_of_noHeader {lines : List (List Nat)}
    (h : ∀ line ∈ lines, headerPrefix.isPrefixOf (Utf8.decode line) = false) :
    s.readLines lines = ⟨s.done, s.current.map fun entry => entry.readAll lines⟩ := by
  induction lines generalizing s with
  | nil =>
    show s = ⟨s.done, s.current.map id⟩
    rw [Option.map_id]
    rfl
  | cons line lines ih =>
    show (s.readLine (Utf8.decode line)).readLines lines = _
    rw [PatchReader.readLine, h line mem_cons_self, if_neg Bool.false_ne_true,
      ih _ fun other hother => h other (mem_cons_of_mem _ hother), Option.map_map]
    rfl

def PatchFile.read (quotePath : Bool) (file : PatchFile) : Option PatchEntry :=
  (gitDiffHeaderNewPath (headerText quotePath file.old file.new)).map file.entry

theorem readLines_file (quotePath : Bool) (file : PatchFile) :
    s.readLines (file.lines quotePath) = ⟨s.files, file.read quotePath⟩ := by
  have hheader : headerPrefix.isPrefixOf (headerText quotePath file.old file.new) = true := by
    rw [List.isPrefixOf_iff_prefix, headerText_eq]
    exact List.prefix_append _ _
  show (s.readLine (headerText quotePath file.old file.new)).readLines file.rest = _
  rw [PatchReader.readLine, if_pos hheader, readLines_of_noHeader _ fun line => header_of_rest,
    PatchFile.read, Option.map_map]
  rfl

theorem files_readLines (files : List PatchFile) (s : PatchReader) :
    (s.readLines (files.flatMap (PatchFile.lines quotePath))).files =
      s.files ++ files.filterMap (PatchFile.read quotePath) := by
  induction files generalizing s with
  | nil => exact (append_nil _).symm
  | cons file files ih =>
    rw [flatMap_cons, readLines_append, readLines_file, ih, PatchReader.files,
      append_assoc, filterMap_cons]
    cases file.read quotePath <;> rfl

theorem newline_notMem_append (codes : List Nat) (h : newline ∉ codes) (text : LineText) :
    newline ∉ codes ++ text.bytes := by
  rw [mem_append, not_or]
  exact ⟨h, text.oneLine⟩

theorem newline_notMem_body {body : PatchBody} (h : line ∈ body.bytes) : newline ∉ line := by
  cases body with
  | empty => cases h
  | text old new hunks =>
    rcases mem_cons.mp h with rfl | h
    · exact newline_notMem_append [0x2D, 0x2D, 0x2D, 0x20] (by decide) old
    rcases mem_cons.mp h with rfl | h
    · exact newline_notMem_append [0x2B, 0x2B, 0x2B, 0x20] (by decide) new
    obtain ⟨hunk, -, hline⟩ := mem_flatMap.mp h
    cases mem_cons.mp hline with
    | inl hrange =>
      exact hrange ▸ newline_notMem_append [0x40, 0x40] (by decide) hunk.range
    | inr hwritten =>
      obtain ⟨written, -, rfl⟩ := mem_map.mp hwritten
      cases written with
      | context text => exact newline_notMem_append [0x20] (by decide) text
      | added text => exact newline_notMem_append [0x2B] (by decide) text
      | removed text => exact newline_notMem_append [0x2D] (by decide) text
      | noNewline text => exact newline_notMem_append [0x5C] (by decide) text
  | binaryPatch lines =>
    rcases mem_cons.mp h with rfl | h
    · decide
    obtain ⟨written, -, rfl⟩ := mem_map.mp h
    cases written with
    | literal size => exact newline_notMem_append _ (by decide) size
    | delta size => exact newline_notMem_append _ (by decide) size
    | blank => exact not_mem_nil
    | data letter digits isLetter _ =>
      refine newline_notMem_append [letter] ?_ digits
      rw [mem_singleton, newline]
      omega
  | binaryFiles names =>
    rw [mem_singleton.mp h]
    exact newline_notMem_append _ (by decide) names

theorem newline_notMem_rest {file : PatchFile} (h : line ∈ file.rest) : newline ∉ line := by
  rw [PatchFile.rest, mem_append, mem_append] at h
  rcases h with (hchange | hheader) | hbody
  · cases hkind : file.change with
    | modified => rw [hkind] at hchange; cases hchange
    | renamed => rw [hkind] at hchange; cases hchange
    | added mode =>
      rw [hkind] at hchange
      rw [mem_singleton.mp hchange]
      exact newline_notMem_append _ (by decide) mode
    | deleted mode =>
      rw [hkind] at hchange
      rw [mem_singleton.mp hchange]
      exact newline_notMem_append _ (by decide) mode
  · obtain ⟨header, -, rfl⟩ := mem_map.mp hheader
    refine newline_notMem_append _ ?_ header.text
    cases header.keyword <;> decide
  · exact newline_notMem_body hbody

theorem newline_notMem_side {letter : Nat} (hletter : 0x20 ≤ letter) (path : List Nat) :
    newline ∉ writeSide quotePath letter path := by
  have hescaped : newline ∉ escaped quotePath path := by
    intro hmem
    exact absurd (printable_of_mem_escaped hmem) (by decide)
  have hletter' : newline ≠ letter := by
    rw [newline]
    omega
  rw [writeSide]
  split
  · next hplain =>
    rw [escaped_of_plain hplain] at hescaped
    rw [mem_cons, mem_cons]
    rintro (heq | heq | hmem)
    · exact hletter' heq
    · exact absurd heq (by decide)
    · exact hescaped hmem
  · rw [cons_append, cons_append, cons_append, mem_cons, mem_cons,
      mem_cons, mem_append, mem_singleton]
    rintro (heq | heq | heq | hmem | heq)
    · exact absurd heq (by decide)
    · exact hletter' heq
    · exact absurd heq (by decide)
    · exact hescaped hmem
    · exact absurd heq (by decide)

theorem newline_notMem_header (old new : GitPath) :
    newline ∉ writeHeader quotePath old.bytes new.bytes := by
  have hold := newline_notMem_side quotePath (show 0x20 ≤ 0x61 by decide) old.bytes
  have hnew := newline_notMem_side quotePath (show 0x20 ≤ 0x62 by decide) new.bytes
  rw [writeHeader, mem_append, mem_append, mem_cons]
  rintro (hmark | hside | hblank | hside)
  · exact absurd hmark (by decide)
  · exact hold hside
  · exact absurd hblank (by decide)
  · exact hnew hside

theorem patchFileEntries_patchText (files : List PatchFile) :
    patchFileEntries (patchText quotePath files) = files.filterMap (PatchFile.read quotePath) := by
  have hlines : ∀ line ∈ files.flatMap (PatchFile.lines quotePath), newline ∉ line := by
    intro line hline
    obtain ⟨file, -, hline⟩ := mem_flatMap.mp hline
    cases mem_cons.mp hline with
    | inl hheader => exact hheader ▸ newline_notMem_header quotePath file.old file.new
    | inr hrest => exact newline_notMem_rest hrest
  have hsplit : (patchText quotePath files).splitOn '\n' =
      (files.flatMap (PatchFile.lines quotePath) ++ [[]]).map Utf8.decode := by
    rw [← splitOn_flatMap_concat hlines]
    exact Utf8.splitOn_decode (show newline < 0x80 by decide) _
  have hblank : ∀ s : PatchReader, (s.readLine (Utf8.decode [])).files = s.files := by
    intro s
    show PatchReader.files ⟨s.done, s.current.map fun entry => entry.read []⟩ = s.files
    have hread : (fun entry : PatchEntry => entry.read []) = id := by
      funext entry
      rw [PatchEntry.read]
      cases entry.inHunk <;> rfl
    rw [hread, Option.map_id]
    rfl
  rw [patchFileEntries, hsplit, foldl_map, foldl_append, foldl_cons,
    foldl_nil, hblank]
  exact files_readLines quotePath files ⟨[], none⟩

theorem filterMap_eq_map_iff {α β : Type} {f : α → Option β} {g : α → β} {values : List α} :
    values.filterMap f = values.map g ↔ ∀ value ∈ values, f value = some (g value) := by
  induction values with
  | nil => simp
  | cons value values ih =>
    rw [filterMap_cons, map_cons, forall_mem_cons]
    cases hvalue : f value with
    | none =>
      constructor
      · intro h
        have hlength : (values.filterMap f).length = (values.map g).length + 1 :=
          congrArg List.length h
        have hle := length_filterMap_le f values
        rw [length_map] at hlength
        omega
      · rintro ⟨h, -⟩
        cases h
    | some result => simp only [List.cons.injEq, Option.some.injEq, ih]

/-- A file is told exactly when its header names its path and it is not renamed. -/
theorem facts_read_iff (file : PatchFile) :
    (file.read quotePath).map PatchEntry.facts = some file.facts ↔
      file.change ≠ .renamed ∧ Readable quotePath file.old file.new := by
  rw [← gitDiffHeaderNewPath_eq_iff, PatchFile.read]
  cases hpath : gitDiffHeaderNewPath (headerText quotePath file.old file.new) with
  | none => simp
  | some path =>
    rw [Option.map_some, Option.map_some, facts_entry, Option.some.injEq, Option.some.injEq]
    cases hkind : file.change <;> simp [PatchFile.facts, hkind]

/-- The header of a path is read back exactly where it is readable, and the entries of a patch
tell its files exactly where every header is and no file is renamed. -/
theorem diff_headers_exact :
    (∀ path : GitPath,
      gitDiffHeaderNewPath (headerText quotePath path path) = some path.text ↔
        Readable quotePath path path) ∧
    ∀ files : List PatchFile,
      (patchFileEntries (patchText quotePath files)).map PatchEntry.facts =
          files.map PatchFile.facts ↔
        ∀ file ∈ files, file.change ≠ .renamed ∧ Readable quotePath file.old file.new := by
  refine ⟨fun path => gitDiffHeaderNewPath_eq_iff quotePath path path, fun files => ?_⟩
  rw [patchFileEntries_patchText, map_filterMap, filterMap_eq_map_iff]
  exact forall_congr' fun file => imp_congr_right fun _ => facts_read_iff quotePath file

/-- The file `y` of a directory named `x b`. -/
def blankDirectoryFile : GitPath where
  bytes := [0x78, 0x20, 0x62, 0x2F, 0x79]
  ne_nil := by decide
  isByte := by decide

/-- The header `diff --git a/x b/y b/x b/y` is read as that of the path `y b/x b/y`. -/
theorem blank_directory_is_misread :
    ¬∀ path : GitPath,
      gitDiffHeaderNewPath (headerText false path path) = some path.text := by
  intro h
  have hmisread : gitDiffHeaderNewPath (headerText false blankDirectoryFile blankDirectoryFile) =
      some ['y', ' ', 'b', '/', 'x', ' ', 'b', '/', 'y'] := by decide
  have htext : blankDirectoryFile.text = ['x', ' ', 'b', '/', 'y'] := by decide
  rw [h, htext] at hmisread
  cases hmisread

end AgentBridge.Patches
