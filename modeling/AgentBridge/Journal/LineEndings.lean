import AgentBridge.Journal.Files
import AgentBridge.Systems.Matching

/-!
# The line ending tolerance

What `crlfToLfBytes` makes of a content, and which changed contents the comparison of two
snapshots lets pass when the snapshots hold hashes.
-/

namespace AgentBridge.Journal

open Systems List Option

/-- The characters of a fingerprint or of an output of Git. -/
abbrev Text := List Char

/-! ## Replaced line ends -/

/-- The second content is the first with some LF replaced by CRLF. -/
inductive Expands : List UInt8 → List UInt8 → Prop
  | nil : Expands [] []
  | same (byte : UInt8) {expected actual : List UInt8} (h : Expands expected actual) :
      Expands (byte :: expected) (byte :: actual)
  | crlf {expected actual : List UInt8} (h : Expands expected actual) :
      Expands (0x0a :: expected) (0x0d :: 0x0a :: actual)

/-- Every LF becomes CRLF. -/
def expandLines : List UInt8 → List UInt8
  | [] => []
  | byte :: rest =>
    if byte = 0x0a then 0x0d :: 0x0a :: expandLines rest else byte :: expandLines rest

/-- A CR that no LF follows. -/
def LoneCr (content : List UInt8) : Prop :=
  ∃ before after, content = before ++ 0x0d :: after ∧ after.head? ≠ some 0x0a

/-! ## The normalization -/

variable {content : List UInt8}

theorem expands_of_crlfToLf :
    ∀ {output : List UInt8} {converted : Bool}, crlfToLf content = some (output, converted) →
      Expands output content ∧ (0x0d : UInt8) ∉ output := by
  fun_induction crlfToLf content with
  | case1 =>
    intro output converted h
    cases h
    exact ⟨.nil, not_mem_nil⟩
  | case2 rest ih =>
    intro output converted h
    obtain ⟨⟨tail, changed⟩, htail, heq⟩ := map_eq_some_iff.mp h
    cases heq
    have ⟨hexpands, hcr⟩ := ih htail
    exact ⟨.crlf hexpands, by simpa using hcr⟩
  | case3 rest hlone => exact nofun
  | case4 byte rest hcrlf hbyte ih =>
    intro output converted h
    obtain ⟨⟨tail, changed⟩, htail, heq⟩ := map_eq_some_iff.mp h
    cases heq
    have ⟨hexpands, hcr⟩ := ih htail
    refine ⟨.same byte hexpands, ?_⟩
    simp only [mem_cons, not_or]
    exact ⟨fun heq => hbyte heq.symm, hcr⟩

theorem crlfToLf_expandLines (hcr : (0x0d : UInt8) ∉ content) :
    crlfToLf (expandLines content) = some (content, decide ((0x0a : UInt8) ∈ content)) := by
  induction content with
  | nil => rfl
  | cons byte rest ih =>
    simp only [mem_cons, not_or] at hcr
    by_cases hbyte : byte = 0x0a
    · subst hbyte
      simp [expandLines, crlfToLf, ih hcr.2]
    · have hne : (0x0a : UInt8) ≠ byte := fun h => hbyte h.symm
      rw [expandLines, if_neg hbyte, crlfToLf, ih hcr.2]
      · simp [hne]
      · exact fun _ h _ => hcr.1 h.symm
      · exact fun h => hcr.1 h.symm

/-- There is no conversion exactly when some CR stands alone. -/
theorem crlfToLf_eq_none_iff : crlfToLf content = none ↔ LoneCr content := by
  fun_induction crlfToLf content with
  | case1 => simp [LoneCr]
  | case2 rest ih =>
    rw [map_eq_none_iff, ih]
    constructor
    · rintro ⟨before, after, rfl, hafter⟩
      exact ⟨0x0d :: 0x0a :: before, after, rfl, hafter⟩
    · rintro ⟨before, after, heq, hafter⟩
      -- The CR of a CRLF is followed by its LF, and the LF is no CR.
      cases before with
      | nil =>
        simp only [nil_append, List.cons.injEq, true_and] at heq
        rw [← heq] at hafter
        exact absurd rfl hafter
      | cons first before =>
        cases before with
        | nil => simp at heq
        | cons second before =>
          simp only [cons_append, List.cons.injEq] at heq
          exact ⟨before, after, heq.2.2, hafter⟩
  | case3 rest hlone =>
    refine iff_of_true rfl ⟨[], rest, rfl, fun hhead => ?_⟩
    obtain ⟨tail, rfl⟩ : ∃ tail, rest = 0x0a :: tail := by
      cases rest with
      | nil => cases hhead
      | cons byte tail =>
        cases hhead
        exact ⟨tail, rfl⟩
    exact hlone tail rfl
  | case4 byte rest hcrlf hbyte ih =>
    rw [map_eq_none_iff, ih]
    constructor
    · rintro ⟨before, after, rfl, hafter⟩
      exact ⟨byte :: before, after, rfl, hafter⟩
    · rintro ⟨before, after, heq, hafter⟩
      cases before with
      | nil => exact absurd (List.cons.inj heq).1 hbyte
      | cons first before => exact ⟨before, after, (List.cons.inj heq).2, hafter⟩

theorem crlfToLfBytes_expandLines (hcr : (0x0d : UInt8) ∉ content)
    (hlf : (0x0a : UInt8) ∈ content) :
    crlfToLfBytes (expandLines content) = some content := by
  rw [crlfToLfBytes, crlfToLf_expandLines hcr, bind_some, if_pos (by simpa using hlf)]

theorem crlfToLfBytes_eq_none_of_loneCr (h : LoneCr content) : crlfToLfBytes content = none := by
  rw [crlfToLfBytes, crlfToLf_eq_none_iff.mpr h]
  rfl

theorem expands_of_crlfToLfBytes {output : List UInt8} (h : crlfToLfBytes content = some output) :
    Expands output content ∧ (0x0d : UInt8) ∉ output := by
  obtain ⟨⟨bytes, converted⟩, hbytes, hconverted⟩ := bind_eq_some_iff.mp h
  split at hconverted
  · cases hconverted
    exact expands_of_crlfToLf hbytes
  · cases hconverted

/-! ## The comparison -/

/-- What the comparison reads of a file beside the snapshots: the output of `git ls-files --eol`
when it succeeds, and the content when it can be read. -/
structure FileReader where
  lsFiles : PathText → Option Text
  readFile : PathText → Option (List UInt8)

/-- The hexadecimal digits of a digest. -/
def isHexDigit (c : Char) : Bool := c.isDigit || ('a' ≤ c && c ≤ 'f')

/-- `/^file:(\d+):([0-9a-f]{64})$/`: the mode and the digest. -/
def regularFileFingerprint (value : Text) : Option (Text × Text) :=
  match value with
  | 'f' :: 'i' :: 'l' :: 'e' :: ':' :: rest =>
    match rest.dropWhile Char.isDigit with
    | ':' :: sha256 =>
      if rest.takeWhile Char.isDigit ≠ [] ∧ sha256.length = 64 ∧ sha256.all isHexDigit then
        some (rest.takeWhile Char.isDigit, sha256)
      else none
    | _ => none
  | _ => none

section

open Pattern

/-- `i\/(?:lf|none)\s+w\/crlf\s+` -/
def crlfCheckout : Pattern :=
  sequence [literal "i/".toList, .alt (literal "lf".toList) (literal "none".toList),
    some1 (.char Paths.isWhitespace), literal "w/crlf".toList, some1 (.char Paths.isWhitespace)]

end

/-- The record starts as one of a file with LF in the index and CRLF in the checkout. -/
def isCrlfCheckout (record : Text) : Bool := (crlfCheckout.matchAt (.start record)).isSome

def firstRecord (stdout : Text) : Text :=
  ((stdout.splitOn '\x00').find? (· ≠ [])).getD []

/-- Whether a file may differ in its line ends: by the given records, or by the real index,
where a file without an entry may. -/
def lineEndsMayDiffer (reader : FileReader) (eolRecords : Option (List (PathText × Text)))
    (file : PathText) : Bool :=
  match eolRecords with
  | some records => isCrlfCheckout ((records.lookup file).getD [])
  | none =>
    match reader.lsFiles file with
    | some stdout => firstRecord stdout = [] || isCrlfCheckout (firstRecord stdout)
    | none => isCrlfCheckout []

variable (sha256 : List UInt8 → Text)

/-- Whether the content that is read now is the actual one and becomes the expected one. -/
def normalizesTo (expected actual : Text) : Option (List UInt8) → Bool
  | none => false
  | some content =>
    let normalized := if sha256 content = actual then crlfToLfBytes content else none
    (match normalized with
      | some bytes => sha256 bytes
      | none => []) = expected

/-- The body of the loop of `integrationContentMismatches`: the file is no mismatch. -/
def contentMatches (reader : FileReader) (expected actual : PathText → Option Text)
    (eolRecords : Option (List (PathText × Text))) (file : PathText) : Bool :=
  expected file = actual file ||
    match regularFileFingerprint ((expected file).getD []),
      regularFileFingerprint ((actual file).getD []) with
    | some expectedFile, some actualFile =>
      expectedFile.1 = actualFile.1 && lineEndsMayDiffer reader eolRecords file &&
        normalizesTo sha256 expectedFile.2 actualFile.2 (reader.readFile file)
    | _, _ => false

/-- `integrationContentMismatches`, with the two snapshots as maps. -/
def contentMismatches (reader : FileReader) (expected actual : PathText → Option Text)
    (eolRecords : Option (List (PathText × Text))) (files : List PathText) : List PathText :=
  (Paths.normalizeLockPathList files).filter fun file =>
    !contentMatches sha256 reader expected actual eolRecords file

/-! ## What the comparison accepts -/

def fileValue (mode : Nat) (content : List UInt8) : Text :=
  "file:".toList ++ Nat.toDigits 10 mode ++ ':' :: sha256 content

theorem isDigit_of_mem_toDigits {n : Nat} {c : Char} (h : c ∈ Nat.toDigits 10 n) :
    c.isDigit = true :=
  Nat.isDigit_of_mem_toDigits (by omega) (by omega) h

theorem regularFileFingerprint_eq_some {value : Text} {file : Text × Text}
    (h : regularFileFingerprint value = some file) :
    ∃ rest, value = "file:".toList ++ rest ∧ rest.dropWhile Char.isDigit = ':' :: file.2 ∧
      file.2.length = 64 := by
  unfold regularFileFingerprint at h
  split at h
  · rename_i rest
    split at h
    · rename_i digest hdrop
      split at h
      · rename_i hform
        cases h
        exact ⟨rest, rfl, hdrop, hform.2.1⟩
      · cases h
    · cases h
  · cases h

theorem dropWhile_digits (mode : Nat) (digest : Text) :
    (Nat.toDigits 10 mode ++ ':' :: digest).dropWhile Char.isDigit = ':' :: digest := by
  rw [dropWhile_append_of_pos fun c hc => isDigit_of_mem_toDigits hc]
  exact dropWhile_cons_of_neg (by decide)

theorem regularFileFingerprint_fileValue {mode : Nat} {file : Text × Text}
    (h : regularFileFingerprint (fileValue sha256 mode content) = some file) :
    file.2 = sha256 content ∧ (sha256 content).length = 64 := by
  obtain ⟨rest, hvalue, hdrop, hlength⟩ := regularFileFingerprint_eq_some h
  rw [fileValue, append_assoc] at hvalue
  rw [← append_cancel_left hvalue, dropWhile_digits] at hdrop
  have hdigest := (List.cons.inj hdrop).2
  exact ⟨hdigest.symm, hdigest ▸ hlength⟩

theorem sha256_eq_of_fileValue_eq {mode mode' : Nat} {content' : List UInt8}
    (h : fileValue sha256 mode content = fileValue sha256 mode' content') :
    sha256 content = sha256 content' := by
  rw [fileValue, fileValue, append_assoc, append_assoc] at h
  have htail := congrArg (List.dropWhile Char.isDigit) (append_cancel_left h)
  rw [dropWhile_digits, dropWhile_digits] at htail
  exact (List.cons.inj htail).2

/-- The contents of which one comparison of a file takes digests. -/
def comparedContents (reader : FileReader) (file : PathText) (expected actual : List UInt8) :
    Set (List UInt8) :=
  {content | content = expected ∨ content = actual ∨ reader.readFile file = some content ∨
    ∃ read, reader.readFile file = some read ∧ crlfToLfBytes read = some content}

/-- The digest tells the contents of the comparison apart. -/
def TellsApart (reader : FileReader) (file : PathText) (expected actual : List UInt8) : Prop :=
  Set.InjOn sha256 (comparedContents reader file expected actual)

variable {sha256}

/-- With digests that tell the contents apart, the comparison of digests is the one of the
contents that `integrationContentMatches` makes. -/
theorem normalizesTo_iff {reader : FileReader} {file : PathText} {expected actual : List UInt8}
    (hsha : TellsApart sha256 reader file expected actual) (hexpected : sha256 expected ≠ [])
    (hread : reader.readFile file = some content) :
    normalizesTo sha256 (sha256 expected) (sha256 actual) (some content) = true ↔
      (content == actual && crlfToLfBytes content == some expected) = true := by
  have hcontent : sha256 content = sha256 actual ↔ content = actual :=
    ⟨fun h => hsha (.inr (.inr (.inl hread))) (.inr (.inl rfl)) h, congrArg sha256⟩
  simp only [normalizesTo, decide_eq_true_eq, Bool.and_eq_true, beq_iff_eq, hcontent]
  by_cases hactual : content = actual
  · rw [if_pos hactual]
    cases hbytes : crlfToLfBytes content with
    | none => simpa using hexpected.symm
    | some bytes =>
      have hdigest : sha256 bytes = sha256 expected ↔ bytes = expected :=
        ⟨fun h => hsha (.inr (.inr (.inr ⟨content, hread, hbytes⟩))) (.inl rfl) h,
          congrArg sha256⟩
      simp [hactual, hdigest]
  · rw [if_neg hactual]
    simpa [hactual] using hexpected.symm

/-- A content that normalizes to the expected one is the actual one, with some of its LF as
CRLF. -/
theorem expands_of_normalizesTo {reader : FileReader} {file : PathText}
    {expected actual : List UInt8} (hsha : TellsApart sha256 reader file expected actual)
    (hexpected : sha256 expected ≠ [])
    (h : normalizesTo sha256 (sha256 expected) (sha256 actual) (reader.readFile file) = true) :
    (0x0d : UInt8) ∉ expected ∧ Expands expected actual := by
  cases hread : reader.readFile file with
  | none => simp [hread, normalizesTo] at h
  | some content =>
    rw [hread] at h
    have hsame := (normalizesTo_iff hsha hexpected hread).mp h
    simp only [Bool.and_eq_true, beq_iff_eq] at hsame
    have ⟨hexpands, hcr⟩ := expands_of_crlfToLfBytes hsame.2
    exact ⟨hcr, hsame.1 ▸ hexpands⟩

theorem eq_or_expands_of_contentMatches {reader : FileReader}
    {expectedValues actualValues : PathText → Option Text}
    {eolRecords : Option (List (PathText × Text))} {file : PathText} {mode mode' : Nat}
    {expected actual : List UInt8}
    (hexpected : expectedValues file = some (fileValue sha256 mode expected))
    (hactual : actualValues file = some (fileValue sha256 mode' actual))
    (hsha : TellsApart sha256 reader file expected actual)
    (h : contentMatches sha256 reader expectedValues actualValues eolRecords file = true) :
    expected = actual ∨ (0x0d : UInt8) ∉ expected ∧ Expands expected actual := by
  rw [contentMatches, Bool.or_eq_true, hexpected, hactual] at h
  obtain hequal | hnormalized := h
  · left
    have hvalues : fileValue sha256 mode expected = fileValue sha256 mode' actual :=
      Option.some.inj (of_decide_eq_true hequal)
    exact hsha (.inl rfl) (.inr (.inl rfl)) (sha256_eq_of_fileValue_eq sha256 hvalues)
  · right
    split at hnormalized
    · rename_i expectedFile actualFile hexpectedFile hactualFile
      have ⟨hdigest, hlength⟩ := regularFileFingerprint_fileValue sha256 hexpectedFile
      rw [hdigest, (regularFileFingerprint_fileValue sha256 hactualFile).1] at hnormalized
      simp only [Bool.and_eq_true] at hnormalized
      refine expands_of_normalizesTo hsha (fun hnil => ?_) hnormalized.2
      rw [hnil] at hlength
      cases hlength
    · cases hnormalized

/-- The comparison passes over equal contents and over a checkout in which some LF are CRLF;
the conversion to CRLF is undone, and a content with a CR alone has no normal form. -/
theorem line_endings_tight :
    (∀ (sha256 : List UInt8 → Text) (reader : FileReader)
      (expectedValues actualValues : PathText → Option Text)
      (eolRecords : Option (List (PathText × Text))) (files : List PathText),
      ∀ file ∈ Paths.normalizeLockPathList files, ∀ mode mode' expected actual,
        expectedValues file = some (fileValue sha256 mode expected) →
        actualValues file = some (fileValue sha256 mode' actual) →
        TellsApart sha256 reader file expected actual →
        file ∉ contentMismatches sha256 reader expectedValues actualValues eolRecords files →
        expected = actual ∨ (0x0d : UInt8) ∉ expected ∧ Expands expected actual) ∧
      (∀ content : List UInt8, (0x0d : UInt8) ∉ content → (0x0a : UInt8) ∈ content →
        crlfToLfBytes (expandLines content) = some content) ∧
      ∀ content : List UInt8, LoneCr content → crlfToLfBytes content = none := by
  refine ⟨?_, fun _ => crlfToLfBytes_expandLines, fun _ => crlfToLfBytes_eq_none_of_loneCr⟩
  intro sha256 reader expectedValues actualValues eolRecords files file hfile mode mode' expected
    actual hexpected hactual hsha hmismatch
  refine @eq_or_expands_of_contentMatches sha256 reader _ _ eolRecords _ _ _ _ _ hexpected hactual
    hsha ?_
  by_contra hne
  exact hmismatch (mem_filter.mpr ⟨hfile, by simpa using hne⟩)

end AgentBridge.Journal
