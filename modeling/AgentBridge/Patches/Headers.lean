import AgentBridge.Paths
import AgentBridge.Systems.Utf8

/-!
# The headers of a Git patch

`gitUnquotePath` and `gitDiffHeaderNewPath` of `lib/git-patch.js`, and the header that Git writes
for the paths of a file. A path that has a quote, a backslash or a control character (with
`core.quotePath`, also a byte beyond ASCII) stands in quotes with its bytes escaped; any other
path stands as it is, blanks included, so the header of two plain paths is ambiguous text.
-/

namespace AgentBridge.Patches

open AgentBridge.Paths AgentBridge.Systems List

/-! ### Reading a header -/

def cQuoteEscape : Nat → Option Nat
  | 0x61 => some 0x07
  | 0x62 => some 0x08
  | 0x74 => some 0x09
  | 0x6E => some 0x0A
  | 0x76 => some 0x0B
  | 0x66 => some 0x0C
  | 0x72 => some 0x0D
  | 0x22 => some 0x22
  | 0x5C => some 0x5C
  | _ => none

def backslash : Nat := 0x5C

def isOctal (byte : Nat) : Bool := 0x30 ≤ byte ∧ byte ≤ 0x37

/-- The byte of three octal digits. -/
def octalValue (a b c : Nat) : Nat :=
  ((a - 0x30) * 64 + (b - 0x30) * 8 + (c - 0x30)) % 256

/-- The value of the three digits after a backslash, if they are octal. -/
def octalEscape : List Nat → Option Nat
  | a :: b :: c :: _ =>
    if isOctal a ∧ isOctal b ∧ isOctal c then some (octalValue a b c) else none
  | _ => none

/-- The byte that a backslash stands for, and how many bytes after it are used up. -/
def readEscape (after : List Nat) : Nat × Nat :=
  match octalEscape after with
  | some value => (value, 3)
  | none =>
    match after.head?.bind cQuoteEscape with
    | some value => (value, 1)
    | none => (backslash, 0)

/-- The loop of `gitUnquotePath`, after `skip` more bytes. -/
def unquoteFrom : Nat → List Nat → List Nat
  | _, [] => []
  | skip + 1, _ :: rest => unquoteFrom skip rest
  | 0, byte :: rest =>
    if byte = backslash then (readEscape rest).1 :: unquoteFrom (readEscape rest).2 rest
    else byte :: unquoteFrom 0 rest

def unquoteBytes (bytes : List Nat) : List Nat := unquoteFrom 0 bytes

def gitUnquotePath (body : PathText) : PathText := Utf8.decode (unquoteBytes (Utf8.encode body))

/-- What stands before the closing quote, and what follows it. -/
def closingQuote : PathText → Option (PathText × PathText)
  | [] => none
  | '"' :: after => some ([], after)
  | '\\' :: c :: rest => (closingQuote rest).map fun found => ('\\' :: c :: found.1, found.2)
  | c :: rest => (closingQuote rest).map fun found => (c :: found.1, found.2)

/-- `quotedAt`: the value of a text that begins with a quote, and what follows it. -/
def quotedAt : PathText → Option (PathText × PathText)
  | '"' :: rest => (closingQuote rest).map fun found => (gitUnquotePath found.1, found.2)
  | _ => none

/-- The line and the paragraph separator. -/
def isSeparator (c : Char) : Bool := c = Char.ofNat 0x2028 ∨ c = Char.ofNat 0x2029

/-- What `.` does not match. -/
def isLineTerminator (c : Char) : Bool := c = '\n' ∨ c = '\r' ∨ isSeparator c

/-- `/^diff --git (.*)$/` -/
def headerRest (line : PathText) : Option PathText :=
  match line with
  | 'd' :: 'i' :: 'f' :: 'f' :: ' ' :: '-' :: '-' :: 'g' :: 'i' :: 't' :: ' ' :: rest =>
    if rest.any isLineTerminator then none else some rest
  | _ => none

/-- `/^.+? (side)$/`: the shortest front of at least one character, a blank, and a side. -/
def lazySide (side : PathText → Bool) : PathText → Option PathText
  | [] => none
  | _ :: rest =>
    match rest with
    | ' ' :: after => if side after then some after else lazySide side rest
    | _ => lazySide side rest

/-- `/"b\/.*"/` -/
def isQuotedSide : PathText → Bool
  | '"' :: 'b' :: '/' :: rest => rest.getLast? = some '"'
  | _ => false

/-- `/b\/.+/` -/
def isPlainSide : PathText → Bool
  | 'b' :: '/' :: _ :: _ => true
  | _ => false

def plainNewSide : PathText → Option PathText
  | 'a' :: '/' :: rest => (lazySide isQuotedSide rest).or (lazySide isPlainSide rest)
  | _ => none

def newSide (rest : PathText) : Option PathText :=
  match quotedAt rest with
  | some (_, ' ' :: after) => some after
  | some _ => none
  | none => plainNewSide rest

/-- The path that a side names. -/
def sideValue (side : PathText) : PathText :=
  match quotedAt side with
  | some (value, []) => value
  | some _ => []
  | none => side

/-- The path after the image of a file: without `b/`, and not empty. -/
def pathOfSide : PathText → Option PathText
  | 'b' :: '/' :: c :: rest => some (c :: rest)
  | _ => none

def gitDiffHeaderNewPath (line : PathText) : Option PathText :=
  (headerRest line).bind fun rest => (newSide rest).bind fun side => pathOfSide (sideValue side)

/-! ### Writing a header -/

/-- How Git writes a byte of a path: a letter after a backslash, three octal digits, or the
byte itself. -/
def escapeByte (quotePath : Bool) (byte : Nat) : List Nat :=
  match byte with
  | 0x07 => [backslash, 0x61]
  | 0x08 => [backslash, 0x62]
  | 0x09 => [backslash, 0x74]
  | 0x0A => [backslash, 0x6E]
  | 0x0B => [backslash, 0x76]
  | 0x0C => [backslash, 0x66]
  | 0x0D => [backslash, 0x72]
  | 0x22 => [backslash, 0x22]
  | 0x5C => [backslash, 0x5C]
  | _ =>
    if byte < 0x20 ∨ byte = 0x7F ∨ quotePath ∧ 0x80 ≤ byte then
      [backslash, 0x30 + byte / 64, 0x30 + byte / 8 % 8, 0x30 + byte % 8]
    else [byte]

def escaped (quotePath : Bool) (path : List Nat) : List Nat :=
  path.flatMap (escapeByte quotePath)

/-- The path is written without quotes. -/
def Plain (quotePath : Bool) (path : List Nat) : Prop :=
  ∀ byte ∈ path, escapeByte quotePath byte = [byte]

instance (quotePath : Bool) (path : List Nat) : Decidable (Plain quotePath path) :=
  inferInstanceAs (Decidable (∀ byte ∈ path, escapeByte quotePath byte = [byte]))

/-- One side of a header: the letter, a slash and the path, in quotes where need be. -/
def writeSide (quotePath : Bool) (letter : Nat) (path : List Nat) : List Nat :=
  if Plain quotePath path then letter :: 0x2F :: path
  else 0x22 :: letter :: 0x2F :: escaped quotePath path ++ [0x22]

/-- `diff --git ` -/
def headerMark : List Nat :=
  [0x64, 0x69, 0x66, 0x66, 0x20, 0x2D, 0x2D, 0x67, 0x69, 0x74, 0x20]

def writeHeader (quotePath : Bool) (old new : List Nat) : List Nat :=
  headerMark ++ (writeSide quotePath 0x61 old ++ 0x20 :: writeSide quotePath 0x62 new)

structure GitPath where
  bytes : List Nat
  ne_nil : bytes ≠ []
  isByte : ∀ byte ∈ bytes, 0 < byte ∧ byte < 256

def GitPath.text (path : GitPath) : PathText := Utf8.decode path.bytes

/-- The header of the two paths can be read back: it has no line separator, and the old path, if
neither is quoted, has no second ` b/`. -/
structure Readable (quotePath : Bool) (old new : GitPath) : Prop where
  oneLine : quotePath = true ∨ ∀ c ∈ old.text ++ new.text, isSeparator c = false
  unambiguous : Plain quotePath old.bytes → Plain quotePath new.bytes →
    ¬∃ front back, front ≠ [] ∧ old.text = front ++ ' ' :: 'b' :: '/' :: back

/-! ### Unquoting -/

/-- A text in which quotes and backslashes are escaped, and the bytes that it stands for. -/
inductive Escaped : PathText → List Nat → Prop where
  | nil : Escaped [] []
  | raw {c : Char} {text : PathText} {bytes : List Nat} (quote : c ≠ '"') (slash : c ≠ '\\') :
      Escaped text bytes → Escaped (c :: text) (Utf8.encodeChar c ++ bytes)
  | letter {code byte : Nat} {text : PathText} {bytes : List Nat} (ascii : code < 0x80)
      (escape : cQuoteEscape code = some byte) :
      Escaped text bytes → Escaped ('\\' :: Char.ofNat code :: text) (byte :: bytes)
  | octal {a b c : Nat} {text : PathText} {bytes : List Nat} (first : isOctal a)
      (second : isOctal b) (third : isOctal c) :
      Escaped text bytes →
        Escaped ('\\' :: Char.ofNat a :: Char.ofNat b :: Char.ofNat c :: text)
          (octalValue a b c :: bytes)

variable {c : Char}

theorem closingQuote_raw (quote : c ≠ '"') (slash : c ≠ '\\') (rest : PathText) :
    closingQuote (c :: rest) = (closingQuote rest).map fun found => (c :: found.1, found.2) := by
  rw [closingQuote]
  · exact fun h => quote h
  · exact fun _ _ h => absurd h slash

variable {code : Nat}

theorem octal_toNat (h : isOctal code) :
    code < 0x80 ∧ Char.ofNat code ≠ '"' ∧ Char.ofNat code ≠ '\\' := by
  have hrange : 0x30 ≤ code ∧ code ≤ 0x37 := of_decide_eq_true h
  refine ⟨by omega, ?_, ?_⟩
  all_goals
    intro heq
    have hvalue := congrArg Char.toNat heq
    rw [Utf8.toNat_ofNat (.inl (by omega))] at hvalue
    have : code = 0x22 ∨ code = 0x5C := by
      first
      | exact .inl hvalue
      | exact .inr hvalue
    omega

variable {bytes : List Nat} {text : PathText}

theorem Escaped.closingQuote (h : Escaped text bytes) (after : PathText) :
    closingQuote (text ++ '"' :: after) = some (text, after) := by
  induction h with
  | nil => rfl
  | raw quote slash _ ih => rw [cons_append, closingQuote_raw quote slash, ih]; rfl
  | letter _ _ _ ih =>
    rw [cons_append, cons_append, Patches.closingQuote, ih]
    rfl
  | octal _ second third _ ih =>
    obtain ⟨-, hquote, hslash⟩ := octal_toNat second
    obtain ⟨-, hquote', hslash'⟩ := octal_toNat third
    rw [cons_append, cons_append, cons_append, cons_append,
      Patches.closingQuote, closingQuote_raw hquote hslash, closingQuote_raw hquote' hslash', ih]
    rfl

theorem unquoteBytes_append {front : List Nat} (h : ∀ byte ∈ front, byte ≠ backslash)
    (rest : List Nat) : unquoteBytes (front ++ rest) = front ++ unquoteBytes rest := by
  induction front with
  | nil => rfl
  | cons byte front ih =>
    have hrest := ih fun other hother => h other (mem_cons_of_mem _ hother)
    rw [unquoteBytes] at hrest
    rw [cons_append, unquoteBytes, unquoteFrom, if_neg (h byte mem_cons_self), hrest]
    rfl

theorem unquoteFrom_eq_drop (skip : Nat) (bytes : List Nat) :
    unquoteFrom skip bytes = unquoteBytes (bytes.drop skip) := by
  induction bytes generalizing skip with
  | nil =>
    cases skip <;> rfl
  | cons byte bytes ih =>
    cases skip with
    | zero => rfl
    | succ skip => exact ih skip

theorem unquoteBytes_backslash (rest : List Nat) :
    unquoteBytes (backslash :: rest) =
      (readEscape rest).1 :: unquoteBytes (rest.drop (readEscape rest).2) := by
  rw [unquoteBytes, unquoteFrom, if_pos rfl, unquoteFrom_eq_drop]

variable {byte : Nat}

theorem not_octal_of_escape (h : cQuoteEscape code = some byte) : isOctal code = false := by
  unfold cQuoteEscape at h
  split at h
  all_goals first | rfl | cases h

theorem readEscape_letter (h : cQuoteEscape code = some byte) (rest : List Nat) :
    readEscape (code :: rest) = (byte, 1) := by
  have hoctal : octalEscape (code :: rest) = none := by
    unfold octalEscape
    split
    · next heq =>
      cases heq
      simp [not_octal_of_escape h]
    · rfl
  rw [readEscape, hoctal]
  simp only [List.head?_cons, Option.bind_some, h]

theorem readEscape_octal {a b c : Nat} (first : isOctal a) (second : isOctal b)
    (third : isOctal c) (rest : List Nat) :
    readEscape (a :: b :: c :: rest) = (octalValue a b c, 3) := by
  rw [readEscape, octalEscape, if_pos ⟨first, second, third⟩]

theorem Escaped.unquoteBytes (h : Escaped text bytes) :
    unquoteBytes (Utf8.encode text) = bytes := by
  induction h with
  | nil => rfl
  | @raw c text bytes quote slash _ ih =>
    rw [Utf8.encode, flatMap_cons, unquoteBytes_append, ← Utf8.encode, ih]
    intro byte hbyte
    by_cases hascii : c.toNat < 0x80
    · have hcode : byte = c.toNat := by
        rw [Utf8.encodeChar] at hbyte
        simpa [hascii] using hbyte
      rintro rfl
      refine slash ?_
      rw [← Char.ofNat_toNat c, ← hcode]
      rfl
    · have hbeyond := Utf8.encodeChar_beyond (Nat.le_of_not_lt hascii) byte hbyte
      rw [backslash]
      omega
  | @letter code byte text bytes ascii escape _ ih =>
    rw [Utf8.encode, flatMap_cons, flatMap_cons, Utf8.encodeChar_ascii ascii,
      ← Utf8.encode]
    show Patches.unquoteBytes (backslash :: code :: Utf8.encode text) = _
    rw [unquoteBytes_backslash, readEscape_letter escape]
    exact congrArg _ ih
  | @octal a b c text bytes first second third _ ih =>
    rw [Utf8.encode, flatMap_cons, flatMap_cons, flatMap_cons,
      flatMap_cons, Utf8.encodeChar_ascii (octal_toNat first).1,
      Utf8.encodeChar_ascii (octal_toNat second).1,
      Utf8.encodeChar_ascii (octal_toNat third).1, ← Utf8.encode]
    show Patches.unquoteBytes (backslash :: a :: b :: c :: Utf8.encode text) = _
    rw [unquoteBytes_backslash, readEscape_octal first second third]
    exact congrArg _ ih

/-! ### What Git escapes -/

/-- A byte stands for itself, or for a letter or three digits after a backslash. -/
inductive ByteEscape (quotePath : Bool) (byte : Nat) : List Nat → Prop where
  | itself (quote : byte ≠ 0x22) (slash : byte ≠ backslash) (printable : 0x20 ≤ byte)
      (beyond : 0x80 ≤ byte → quotePath = false) : ByteEscape quotePath byte [byte]
  | letter {code : Nat} (printable : 0x20 ≤ code) (ascii : code < 0x80)
      (escape : cQuoteEscape code = some byte) :
      ByteEscape quotePath byte [backslash, code]
  | octal : ByteEscape quotePath byte
      [backslash, 0x30 + byte / 64, 0x30 + byte / 8 % 8, 0x30 + byte % 8]

theorem byteEscape (quotePath : Bool) (byte : Nat) :
    ByteEscape quotePath byte (escapeByte quotePath byte) := by
  unfold escapeByte
  split
  case h_10 hseven height hnine hten heleven htwelve hthirteen hquote hslash =>
    split
    · exact .octal
    · next hraw =>
      refine .itself hquote hslash (by omega) fun hbeyond => ?_
      cases quotePath with
      | false => rfl
      | true => exact absurd (.inr (.inr ⟨rfl, hbeyond⟩)) hraw
  all_goals exact .letter (by decide) (by decide) rfl

theorem isOctal_digit {d : Nat} (h : d < 8) : isOctal (0x30 + d) = true := by
  rw [isOctal, decide_eq_true_eq]
  omega

theorem Escaped.cons {quotePath : Bool} (h : Escaped text bytes) (hbyte : byte < 256)
    (raw : byte < 0x80 ∨ quotePath = true) :
    Escaped ((escapeByte quotePath byte).map Char.ofNat ++ text) (byte :: bytes) := by
  have hescape := byteEscape quotePath byte
  generalize escapeByte quotePath byte = written at hescape
  cases hescape with
  | itself quote slash _ beyond =>
    have hascii : byte < 0x80 := by
      cases raw with
      | inl hascii => exact hascii
      | inr hquote =>
        by_contra hbeyond
        cases hquote.symm.trans (beyond (by omega))
    have hcode : (Char.ofNat byte).toNat = byte := Utf8.toNat_ofNat (.inl (by omega))
    have hraw := Escaped.raw (c := Char.ofNat byte)
      (fun heq => quote (by rw [← hcode, heq]; rfl))
      (fun heq => slash (by rw [← hcode, heq]; rfl)) h
    rw [Utf8.encodeChar_ascii hascii] at hraw
    exact hraw
  | letter _ ascii escape => exact .letter ascii escape h
  | octal =>
    have hoctal := Escaped.octal (isOctal_digit (show byte / 64 < 8 by omega))
      (isOctal_digit (show byte / 8 % 8 < 8 by omega))
      (isOctal_digit (show byte % 8 < 8 by omega)) h
    have hvalue : octalValue (0x30 + byte / 64) (0x30 + byte / 8 % 8) (0x30 + byte % 8) =
        byte := by
      rw [octalValue]
      omega
    rw [hvalue] at hoctal
    exact hoctal

theorem escaped_quotePath {path : List Nat} (h : ∀ byte ∈ path, byte < 256) :
    Escaped ((escaped true path).map Char.ofNat) path := by
  induction path with
  | nil => exact .nil
  | cons byte path ih =>
    rw [escaped, flatMap_cons, map_append]
    exact (ih fun other hother => h other (mem_cons_of_mem _ hother)).cons
      (h byte mem_cons_self) (.inr rfl)

/-- How a character of a path is written where `core.quotePath` is not set. -/
def escapeChar (c : Char) : PathText :=
  if c.toNat < 0x80 then (escapeByte false c.toNat).map Char.ofNat else [c]

theorem escaped_flatMap_escapeChar (text : PathText) :
    Escaped (text.flatMap escapeChar) (Utf8.encode text) := by
  induction text with
  | nil => exact .nil
  | cons c text ih =>
    rw [flatMap_cons, Utf8.encode, flatMap_cons, ← Utf8.encode, escapeChar]
    split
    · next hascii =>
      have hchar := Utf8.encodeChar_ascii hascii
      rw [Char.ofNat_toNat] at hchar
      rw [hchar]
      exact ih.cons (by omega) (.inl hascii)
    · next hbeyond =>
      refine .raw ?_ ?_ ih
      · rintro rfl
        exact hbeyond (by decide)
      · rintro rfl
        exact hbeyond (by decide)

theorem escape_ascii (quotePath : Bool) (hbyte : byte < 256)
    (raw : byte < 0x80 ∨ quotePath = true) :
    escapeByte quotePath byte ≠ [] ∧
      ∀ code ∈ escapeByte quotePath byte, 0x20 ≤ code ∧ code < 0x80 := by
  have hescape := byteEscape quotePath byte
  generalize escapeByte quotePath byte = written at hescape
  cases hescape with
  | itself _ _ printable beyond =>
    refine ⟨cons_ne_nil _ _, fun code hcode => ?_⟩
    rw [mem_singleton.mp hcode]
    refine ⟨printable, ?_⟩
    cases raw with
    | inl hascii => exact hascii
    | inr hquote =>
      by_contra hbeyond
      cases hquote.symm.trans (beyond (by omega))
  | letter printable ascii _ =>
    refine ⟨cons_ne_nil _ _, fun code hcode => ?_⟩
    simp only [mem_cons, not_mem_nil, or_false, backslash] at hcode
    omega
  | octal =>
    refine ⟨cons_ne_nil _ _, fun code hcode => ?_⟩
    simp only [mem_cons, not_mem_nil, or_false, backslash] at hcode
    omega

theorem escapeByte_beyond (h : 0x80 ≤ byte) : escapeByte false byte = [byte] := by
  unfold escapeByte
  split
  case h_10 => rw [if_neg (by simp only [Bool.false_eq_true, false_and, or_false]; omega)]
  all_goals omega

theorem flatMap_escapeChar_beyond (h : ∀ c ∈ text, 0x80 ≤ c.toNat) :
    text.flatMap escapeChar = text := by
  induction text with
  | nil => rfl
  | cons c text ih =>
    have hc := h c mem_cons_self
    rw [flatMap_cons, escapeChar, if_neg (by omega),
      ih fun d hd => h d (mem_cons_of_mem _ hd)]
    rfl

theorem flatMap_escapeChar_atEnd (s : Utf8.Decoder) :
    (Utf8.atEnd s).flatMap escapeChar = Utf8.atEnd s := by
  refine flatMap_escapeChar_beyond ?_
  intro c hc
  rw [Utf8.atEnd] at hc
  split at hc
  · cases hc
  · rw [mem_singleton.mp hc]
    decide

theorem decodeFrom_escaped {s : Utf8.Decoder} (wide : s.Wide) (path : List Nat) :
    Utf8.decodeFrom s (escaped false path) = (Utf8.decodeFrom s path).flatMap escapeChar := by
  induction path generalizing s with
  | nil => exact (flatMap_escapeChar_atEnd s).symm
  | cons byte path ih =>
    rw [escaped, flatMap_cons, ← escaped]
    by_cases hascii : byte < 0x80
    · obtain ⟨hne, hcodes⟩ := escape_ascii false (by omega) (.inl hascii)
      have hrest := ih Utf8.wide_idle
      rw [Utf8.decodeFrom_asciis wide hne fun code hcode => (hcodes code hcode).2,
        Utf8.decodeFrom, Utf8.decodeByte_ascii wide hascii, flatMap_append,
        flatMap_append, flatMap_escapeChar_atEnd, flatMap_singleton, escapeChar,
        Utf8.toNat_ofNat (.inl (by omega)), if_pos hascii, ← hrest]
      rfl
    · rw [escapeByte_beyond (by omega), singleton_append, Utf8.decodeFrom,
        Utf8.decodeFrom, flatMap_append, ih (wide.decodeByte byte)]
      refine congrArg (· ++ _) (flatMap_escapeChar_beyond ?_).symm
      intro c hc
      by_contra hlow
      have hbyte : byte = c.toNat := by
        refine Utf8.eq_of_mem_decodeByte (Nat.lt_of_not_le hlow) wide ?_
        rw [Char.ofNat_toNat]
        exact hc
      omega

theorem escaped_path (quotePath : Bool) (path : GitPath) :
    ∃ bytes, Escaped (Utf8.decode (escaped quotePath path.bytes)) bytes ∧
      Utf8.decode bytes = path.text := by
  cases quotePath with
  | false =>
    refine ⟨Utf8.encode path.text, ?_, Utf8.decode_encode _⟩
    rw [Utf8.decode, decodeFrom_escaped Utf8.wide_idle]
    exact escaped_flatMap_escapeChar path.text
  | true =>
    have hbytes := fun byte hbyte => (path.isByte byte hbyte).2
    have hascii : ∀ code ∈ escaped true path.bytes, code < 0x80 := by
      intro code hcode
      obtain ⟨byte, hbyte, hwritten⟩ := mem_flatMap.mp hcode
      exact ((escape_ascii true (hbytes byte hbyte) (.inr rfl)).2 code hwritten).2
    have htext := Utf8.decode_asciis hascii []
    rw [append_nil, Utf8.decode_nil, append_nil] at htext
    rw [htext]
    exact ⟨path.bytes, escaped_quotePath hbytes, rfl⟩

/-! ### The shortest front -/

variable {front : PathText}

section

variable {side : PathText → Bool}

theorem lazySide_cons (c : Char) (rest : PathText) :
    lazySide side (c :: rest) =
      match rest with
      | ' ' :: after => if side after then some after else lazySide side rest
      | _ => lazySide side rest := rfl

/-- A side that is found is at least as long as any that stands further on. -/
theorem le_length_lazySide (hfront : front ≠ []) {after : PathText} (h : side after = true) :
    ∃ found, lazySide side (front ++ ' ' :: after) = some found ∧ side found = true ∧
      after.length ≤ found.length := by
  induction front with
  | nil => exact absurd rfl hfront
  | cons c front ih =>
    rw [cons_append, lazySide_cons]
    by_cases hlast : front = []
    · rw [hlast]
      exact ⟨after, if_pos h, h, Nat.le_refl _⟩
    · obtain ⟨found, hfound, hside, hlength⟩ := ih hlast
      split
      · next rest heq =>
        split
        · next hrest =>
          refine ⟨rest, rfl, hrest, ?_⟩
          have hlengths := congrArg List.length heq
          simp only [length_append, length_cons] at hlengths
          have hpos := length_pos_of_ne_nil hlast
          omega
        · exact ⟨found, hfound, hside, hlength⟩
      · exact ⟨found, hfound, hside, hlength⟩

theorem lazySide_eq (hfront : front ≠ []) {after : PathText} (h : side after = true)
    (hnone : ∀ c d rest, front = c ++ ' ' :: d → c ≠ [] → rest = d ++ ' ' :: after →
      side rest = false) : lazySide side (front ++ ' ' :: after) = some after := by
  induction front with
  | nil => exact absurd rfl hfront
  | cons c front ih =>
    rw [cons_append, lazySide_cons]
    cases front with
    | nil => exact if_pos h
    | cons d front =>
      have hrest := ih (cons_ne_nil _ _) fun before behind rest heq _ hrest =>
        hnone (c :: before) behind rest (by rw [heq]; rfl) (cons_ne_nil _ _) hrest
      by_cases hblank : d = ' '
      · rw [hblank] at hrest ⊢
        have hside := hnone [c] front _ (by rw [hblank]; rfl) (cons_ne_nil _ _) rfl
        show (if side (front ++ ' ' :: after) then _ else _) = _
        rw [if_neg (by rw [hside]; exact Bool.false_ne_true)]
        exact hrest
      · show (match d :: (front ++ ' ' :: after) with
          | ' ' :: after => if side after then some after else _
          | _ => _) = _
        split
        · next heq => exact absurd (List.cons.inj heq).1 hblank
        · exact hrest

theorem lazySide_none (h : ∀ front after, text = front ++ ' ' :: after → side after = false) :
    lazySide side text = none := by
  induction text with
  | nil => rfl
  | cons c text ih =>
    have hrest := ih fun front after heq => h (c :: front) after (by rw [heq]; rfl)
    rw [lazySide_cons]
    split
    · next after =>
      rw [if_neg (by rw [h [c] after rfl]; exact Bool.false_ne_true)]
      exact hrest
    · exact hrest

end

/-! ### The text of a header -/

def sideText (quotePath : Bool) (letter : Nat) (path : GitPath) : PathText :=
  Utf8.decode (writeSide quotePath letter path.bytes)

def headerText (quotePath : Bool) (old new : GitPath) : PathText :=
  Utf8.decode (writeHeader quotePath old.bytes new.bytes)

theorem GitPath.text_ne_nil (path : GitPath) : path.text ≠ [] :=
  fun h => path.ne_nil (Utf8.decode_eq_nil.mp h)

theorem escaped_of_plain {quotePath : Bool} {path : List Nat} (h : Plain quotePath path) :
    escaped quotePath path = path := by
  induction path with
  | nil => rfl
  | cons byte path ih =>
    rw [escaped, flatMap_cons, h byte mem_cons_self, ← escaped,
      ih fun other hother => h other (mem_cons_of_mem _ hother)]
    rfl

section

variable {quotePath : Bool} {letter : Nat} (hletter : letter < 0x80) {path : GitPath}

include hletter

theorem sideText_plain (h : Plain quotePath path.bytes) :
    sideText quotePath letter path = Char.ofNat letter :: '/' :: path.text := by
  rw [sideText, writeSide, if_pos h, Utf8.decode_ascii_cons _ hletter,
    Utf8.decode_ascii_cons _ (by decide)]
  rfl

theorem sideText_quoted (h : ¬Plain quotePath path.bytes) :
    sideText quotePath letter path =
      '"' :: Char.ofNat letter :: '/' :: (Utf8.decode (escaped quotePath path.bytes) ++ ['"']) := by
  rw [sideText, writeSide, if_neg h, cons_append, cons_append, cons_append,
    Utf8.decode_ascii_cons _ (by decide), Utf8.decode_ascii_cons _ hletter,
    Utf8.decode_ascii_cons _ (by decide), Utf8.decode_append_ascii _ _ (by decide)]
  rfl

end

theorem headerText_eq (quotePath : Bool) (old new : GitPath) :
    headerText quotePath old new = headerMark.map Char.ofNat ++
      (sideText quotePath 0x61 old ++ ' ' :: sideText quotePath 0x62 new) := by
  rw [headerText, writeHeader, Utf8.decode_asciis (by decide),
    Utf8.decode_append_ascii _ _ (by decide)]
  rfl

/-! ### Line terminators in a header -/

theorem printable_of_mem_escaped {quotePath : Bool} {path : List Nat}
    (h : code ∈ escaped quotePath path) : 0x20 ≤ code := by
  obtain ⟨byte, -, hcode⟩ := mem_flatMap.mp h
  have hescape := byteEscape quotePath byte
  generalize escapeByte quotePath byte = written at hescape hcode
  cases hescape with
  | itself _ _ printable _ => rwa [mem_singleton.mp hcode]
  | letter printable _ _ =>
    simp only [mem_cons, not_mem_nil, or_false, backslash] at hcode
    omega
  | octal =>
    simp only [mem_cons, not_mem_nil, or_false, backslash] at hcode
    omega

theorem mem_escapeChar {d : Char} (hc : 0x80 ≤ c.toNat) : c ∈ escapeChar d ↔ c = d := by
  rw [escapeChar]
  split
  · next hascii =>
    constructor
    · intro hmem
      obtain ⟨code, hcode, rfl⟩ := mem_map.mp hmem
      have hrange := (escape_ascii false (by omega) (.inl hascii)).2 code hcode
      rw [Utf8.toNat_ofNat (.inl (by omega))] at hc
      omega
    · rintro rfl
      omega
  · exact mem_singleton

theorem toNat_of_isSeparator (h : isSeparator c) : c.toNat = 0x2028 ∨ c.toNat = 0x2029 := by
  cases of_decide_eq_true h with
  | inl heq => exact .inl (heq ▸ Utf8.toNat_ofNat (.inl (by decide)))
  | inr heq => exact .inr (heq ▸ Utf8.toNat_ofNat (.inl (by decide)))

theorem lineTerminator_escaped {quotePath : Bool} {path : GitPath} :
    c ∈ Utf8.decode (escaped quotePath path.bytes) ∧ isLineTerminator c ↔
      quotePath = false ∧ c ∈ path.text ∧ isSeparator c := by
  have hfalse : Utf8.decode (escaped false path.bytes) = path.text.flatMap escapeChar :=
    decodeFrom_escaped Utf8.wide_idle path.bytes
  constructor
  · rintro ⟨hmem, hends⟩
    have hbeyond : 0x80 ≤ c.toNat := by
      by_contra hlow
      have hcode := Utf8.mem_of_mem_decodeFrom (Nat.lt_of_not_le hlow) Utf8.wide_idle
        (show Char.ofNat c.toNat ∈ _ by rw [Char.ofNat_toNat]; exact hmem)
      have hprintable := printable_of_mem_escaped hcode
      rcases of_decide_eq_true hends with rfl | rfl | hseparator
      · exact absurd hprintable (by decide)
      · exact absurd hprintable (by decide)
      · have := toNat_of_isSeparator hseparator
        omega
    have hseparator : isSeparator c := by
      rcases of_decide_eq_true hends with rfl | rfl | hseparator
      · exact absurd hbeyond (by decide)
      · exact absurd hbeyond (by decide)
      · exact hseparator
    cases quotePath with
    | false =>
      rw [hfalse] at hmem
      obtain ⟨d, hd, hcd⟩ := mem_flatMap.mp hmem
      rw [(mem_escapeChar hbeyond).mp hcd]
      exact ⟨rfl, hd, (mem_escapeChar hbeyond).mp hcd ▸ hseparator⟩
    | true =>
      have hascii : ∀ code ∈ escaped true path.bytes, code < 0x80 := by
        intro code hcode
        obtain ⟨byte, hbyte, hwritten⟩ := mem_flatMap.mp hcode
        exact ((escape_ascii true (path.isByte byte hbyte).2 (.inr rfl)).2 code hwritten).2
      have htext := Utf8.decode_asciis hascii []
      rw [append_nil, Utf8.decode_nil, append_nil] at htext
      rw [htext] at hmem
      obtain ⟨code, hcode, rfl⟩ := mem_map.mp hmem
      have hlow := hascii code hcode
      rw [Utf8.toNat_ofNat (.inl (by omega))] at hbeyond
      omega
  · rintro ⟨rfl, hmem, hseparator⟩
    have hbeyond : 0x80 ≤ c.toNat := by
      have := toNat_of_isSeparator hseparator
      omega
    refine ⟨?_, decide_eq_true (.inr (.inr hseparator))⟩
    rw [hfalse]
    exact mem_flatMap.mpr ⟨c, hmem, (mem_escapeChar hbeyond).mpr rfl⟩

theorem lineTerminator_sideText {quotePath : Bool} {letter : Nat} (hletter : letter < 0x80)
    (hplain : isLineTerminator (Char.ofNat letter) = false) {path : GitPath}
    (hends : isLineTerminator c) :
    c ∈ sideText quotePath letter path ↔ c ∈ Utf8.decode (escaped quotePath path.bytes) := by
  have hslash : c ≠ '/' := by
    rintro rfl
    cases hends
  have hquote : c ≠ '"' := by
    rintro rfl
    cases hends
  have hother : c ≠ Char.ofNat letter := by
    rintro rfl
    rw [hplain] at hends
    cases hends
  by_cases h : Plain quotePath path.bytes
  · rw [sideText_plain hletter h, escaped_of_plain h, mem_cons, mem_cons]
    simp only [hother, hslash, false_or]
    rfl
  · rw [sideText_quoted hletter h]
    simp [hother, hslash, hquote]

theorem headerRest_text (quotePath : Bool) (old new : GitPath) :
    headerRest (headerText quotePath old new) =
      if quotePath = true ∨ ∀ c ∈ old.text ++ new.text, isSeparator c = false then
        some (sideText quotePath 0x61 old ++ ' ' :: sideText quotePath 0x62 new)
      else none := by
  rw [headerText_eq]
  set rest := sideText quotePath 0x61 old ++ ' ' :: sideText quotePath 0x62 new with hrest
  have hends : rest.any isLineTerminator = true ↔
      ¬(quotePath = true ∨ ∀ c ∈ old.text ++ new.text, isSeparator c = false) := by
    have hside : ∀ {letter : Nat}, letter < 0x80 → isLineTerminator (Char.ofNat letter) = false →
        ∀ {path : GitPath} {c : Char},
          c ∈ sideText quotePath letter path ∧ isLineTerminator c ↔
            quotePath = false ∧ c ∈ path.text ∧ isSeparator c := by
      intro letter hletter hplain path c
      rw [← lineTerminator_escaped]
      exact and_congr_left fun hends => lineTerminator_sideText hletter hplain hends
    rw [any_eq_true]
    constructor
    · rintro ⟨c, hc, hends⟩ hone
      have hblank : c ≠ ' ' := by
        rintro rfl
        cases hends
      have hseparator : quotePath = false ∧ c ∈ old.text ++ new.text ∧ isSeparator c := by
        rw [hrest, mem_append, mem_cons] at hc
        rcases hc with hold | hblank' | hnew
        · obtain ⟨hraw, hmem, hsep⟩ := (hside (by decide) (by decide)).mp ⟨hold, hends⟩
          exact ⟨hraw, mem_append_left _ hmem, hsep⟩
        · exact absurd hblank' hblank
        · obtain ⟨hraw, hmem, hsep⟩ := (hside (by decide) (by decide)).mp ⟨hnew, hends⟩
          exact ⟨hraw, mem_append_right _ hmem, hsep⟩
      obtain ⟨hraw, hmem, hsep⟩ := hseparator
      cases hone with
      | inl hquote => cases hraw.symm.trans hquote
      | inr hnone => cases (hnone c hmem).symm.trans hsep
    · intro hone
      rw [not_or] at hone
      have hraw : quotePath = false := Bool.eq_false_iff.mpr hone.1
      obtain ⟨c, hc⟩ := not_forall.mp hone.2
      obtain ⟨hmem, hsep⟩ := Classical.not_imp.mp hc
      have hseparator : isSeparator c = true := Bool.not_eq_false _ |>.mp hsep
      cases mem_append.mp hmem with
      | inl hold =>
        obtain ⟨hside, hends⟩ :=
          (@hside 0x61 (by decide) (by decide) _ _).mpr ⟨hraw, hold, hseparator⟩
        exact ⟨c, mem_append_left _ hside, hends⟩
      | inr hnew =>
        obtain ⟨hside, hends⟩ :=
          (@hside 0x62 (by decide) (by decide) _ _).mpr ⟨hraw, hnew, hseparator⟩
        exact ⟨c, mem_append_right _ (mem_cons_of_mem _ hside), hends⟩
  show (if rest.any isLineTerminator then none else some rest) = _
  split
  · next h => rw [if_neg (hends.mp h)]
  · next h => rw [if_pos (not_not.mp fun hnot => h (hends.mpr hnot))]

/-! ### The path that a header names -/

theorem quotedAt_quoted {quotePath : Bool} {path : GitPath} {letter : Nat}
    (hletter : letter < 0x80) (quote : Char.ofNat letter ≠ '"')
    (slash : Char.ofNat letter ≠ '\\') (hquoted : ¬Plain quotePath path.bytes)
    (after : PathText) :
    quotedAt (sideText quotePath letter path ++ after) =
      some (Char.ofNat letter :: '/' :: path.text, after) := by
  obtain ⟨bytes, hescaped, htext⟩ := escaped_path quotePath path
  have hside := (hescaped.raw (c := '/') (by decide) (by decide)).raw quote slash
  rw [sideText_quoted hletter hquoted]
  show (closingQuote ((Char.ofNat letter :: '/' :: (_ ++ ['"'])) ++ after)).map _ = _
  rw [cons_append, cons_append, append_assoc, singleton_append,
    ← cons_append, ← cons_append, hside.closingQuote, Option.map_some, gitUnquotePath,
    hside.unquoteBytes, Utf8.encodeChar_ascii hletter]
  show some (Utf8.decode (letter :: 0x2F :: bytes), after) = _
  rw [Utf8.decode_ascii_cons _ hletter, Utf8.decode_ascii_cons _ (by decide), htext]

theorem quotedAt_plain (h : c ≠ '"') (rest : PathText) : quotedAt (c :: rest) = none := by
  rw [quotedAt]
  exact fun _ heq => h (List.cons.inj heq).1

theorem pathOfSide_sideText (quotePath : Bool) (path : GitPath) :
    pathOfSide (sideValue (sideText quotePath 0x62 path)) = some path.text := by
  have hne := path.text_ne_nil
  have hvalue : sideValue (sideText quotePath 0x62 path) = 'b' :: '/' :: path.text := by
    rw [sideValue]
    by_cases h : Plain quotePath path.bytes
    · rw [sideText_plain (by decide) h]
      rfl
    · have hquoted := @quotedAt_quoted quotePath path 0x62 (by decide) (by decide) (by decide) h []
      rw [append_nil] at hquoted
      rw [hquoted]
  rw [hvalue]
  cases htext : path.text with
  | nil => exact absurd htext hne
  | cons c rest => rfl

theorem quote_not_mem_of_plain {quotePath : Bool} {path : GitPath}
    (h : Plain quotePath path.bytes) : '"' ∉ path.text := by
  intro hmem
  have hbyte := @Utf8.mem_of_mem_decodeFrom _ 0x22 _ (by decide) Utf8.wide_idle hmem
  have hescape := h 0x22 hbyte
  cases quotePath <;> cases hescape

theorem head_of_isQuotedSide {side : PathText} (h : isQuotedSide side = true) :
    ∃ rest, side = '"' :: rest := by
  unfold isQuotedSide at h
  split at h
  · exact ⟨_, rfl⟩
  · cases h

theorem head_of_isPlainSide {side : PathText} (h : isPlainSide side = true) :
    ∃ c rest, side = 'b' :: '/' :: c :: rest := by
  unfold isPlainSide at h
  split at h
  · exact ⟨_, _, rfl⟩
  · cases h

section

variable {quotePath : Bool} {old new : GitPath}

theorem newSide_of_quoted (h : ¬Plain quotePath old.bytes) :
    newSide (sideText quotePath 0x61 old ++ ' ' :: sideText quotePath 0x62 new) =
      some (sideText quotePath 0x62 new) := by
  rw [newSide, quotedAt_quoted (by decide) (by decide) (by decide) h]
  rfl

theorem newSide_of_plain (h : Plain quotePath old.bytes) :
    newSide (sideText quotePath 0x61 old ++ ' ' :: sideText quotePath 0x62 new) =
      (lazySide isQuotedSide (old.text ++ ' ' :: sideText quotePath 0x62 new)).or
        (lazySide isPlainSide (old.text ++ ' ' :: sideText quotePath 0x62 new)) := by
  rw [newSide, sideText_plain (by decide) h, cons_append, quotedAt_plain (by decide)]
  rfl

theorem newSide_of_plain_quoted (hold : Plain quotePath old.bytes)
    (hnew : ¬Plain quotePath new.bytes) :
    newSide (sideText quotePath 0x61 old ++ ' ' :: sideText quotePath 0x62 new) =
      some (sideText quotePath 0x62 new) := by
  have hside : isQuotedSide (sideText quotePath 0x62 new) = true := by
    rw [sideText_quoted (by decide) hnew]
    show decide ((_ ++ ['"']).getLast? = some '"') = true
    rw [List.getLast?_concat]
    rfl
  rw [newSide_of_plain hold, lazySide_eq old.text_ne_nil hside, Option.some_or]
  intro before behind rest heq _ hrest
  by_contra hquoted
  obtain ⟨tail, htail⟩ := head_of_isQuotedSide (Bool.not_eq_false _ |>.mp hquoted)
  rw [hrest] at htail
  cases behind with
  | nil => cases (List.cons.inj htail).1
  | cons c behind =>
    have hc : c = '"' := (List.cons.inj htail).1
    refine quote_not_mem_of_plain hold ?_
    rw [heq, hc]
    simp

theorem newSide_of_plain_plain (hold : Plain quotePath old.bytes)
    (hnew : Plain quotePath new.bytes) :
    newSide (sideText quotePath 0x61 old ++ ' ' :: sideText quotePath 0x62 new) =
      lazySide isPlainSide (old.text ++ ' ' :: 'b' :: '/' :: new.text) := by
  have hnoQuote : '"' ∉ old.text ++ ' ' :: sideText quotePath 0x62 new := by
    rw [sideText_plain (by decide) hnew]
    have hold' := quote_not_mem_of_plain hold
    have hnew' := quote_not_mem_of_plain hnew
    simp [hold', hnew']
  have hnone : lazySide isQuotedSide (old.text ++ ' ' :: sideText quotePath 0x62 new) = none := by
    refine lazySide_none fun front after heq => ?_
    by_contra hquoted
    obtain ⟨tail, htail⟩ := head_of_isQuotedSide (Bool.not_eq_false _ |>.mp hquoted)
    refine hnoQuote ?_
    rw [heq, htail]
    simp
  rw [newSide_of_plain hold, hnone, Option.none_or, sideText_plain (by decide) hnew]

/-- The first ` b/` of an old path with none inside is the one between the sides. -/
theorem newSide_of_unambiguous (hold : Plain quotePath old.bytes)
    (hnew : Plain quotePath new.bytes)
    (h : ¬∃ front back, front ≠ [] ∧ old.text = front ++ ' ' :: 'b' :: '/' :: back) :
    newSide (sideText quotePath 0x61 old ++ ' ' :: sideText quotePath 0x62 new) =
      some (sideText quotePath 0x62 new) := by
  have hside : isPlainSide ('b' :: '/' :: new.text) = true := by
    cases htext : new.text with
    | nil => exact absurd htext new.text_ne_nil
    | cons c rest => rfl
  rw [newSide_of_plain_plain hold hnew, sideText_plain (by decide) hnew]
  refine lazySide_eq old.text_ne_nil hside ?_
  intro before behind rest heq hbefore hrest
  by_contra hplain
  obtain ⟨c, tail, htail⟩ := head_of_isPlainSide (Bool.not_eq_false _ |>.mp hplain)
  rw [hrest] at htail
  cases behind with
  | nil => cases (List.cons.inj htail).1
  | cons first behind =>
    have hfirst : first = 'b' := (List.cons.inj htail).1
    have hbehind := (List.cons.inj htail).2
    cases behind with
    | nil => cases (List.cons.inj hbehind).1
    | cons second behind =>
      have hsecond : second = '/' := (List.cons.inj hbehind).1
      exact h ⟨before, behind, hbefore, by rw [heq, hfirst, hsecond]⟩

/-- A ` b/` inside the old path is taken for the one between the sides. -/
theorem newSide_of_ambiguous (hold : Plain quotePath old.bytes) (hnew : Plain quotePath new.bytes)
    {back : PathText} (hfront : front ≠ []) (heq : old.text = front ++ ' ' :: 'b' :: '/' :: back) :
    ∃ c rest, newSide (sideText quotePath 0x61 old ++ ' ' :: sideText quotePath 0x62 new) =
      some ('b' :: '/' :: c :: rest) ∧ new.text.length < (c :: rest).length := by
  have hside : isPlainSide
      ('b' :: '/' :: (back ++ ' ' :: 'b' :: '/' :: new.text)) = true := by
    cases back <;> rfl
  obtain ⟨found, hfound, hplain, hlength⟩ := le_length_lazySide hfront hside
  obtain ⟨c, rest, rfl⟩ := head_of_isPlainSide hplain
  refine ⟨c, rest, ?_, ?_⟩
  · rw [newSide_of_plain_plain hold hnew, heq, append_assoc]
    exact hfound
  · simp only [length_cons, length_append] at hlength ⊢
    omega

end

theorem gitDiffHeaderNewPath_eq_iff (quotePath : Bool) (old new : GitPath) :
    gitDiffHeaderNewPath (headerText quotePath old new) = some new.text ↔
      Readable quotePath old new := by
  rw [gitDiffHeaderNewPath, headerRest_text]
  constructor
  · intro h
    split at h
    · next hone =>
      refine ⟨hone, ?_⟩
      rintro hold hnew ⟨front, back, hfront, heq⟩
      obtain ⟨c, rest, hside, hlength⟩ := newSide_of_ambiguous hold hnew hfront heq
      rw [Option.bind_some, hside, Option.bind_some, sideValue, quotedAt_plain (by decide)] at h
      have htext : c :: rest = new.text := Option.some.inj h
      rw [htext] at hlength
      exact Nat.lt_irrefl _ hlength
    · cases h
  · rintro ⟨hone, hunambiguous⟩
    have hside : newSide (sideText quotePath 0x61 old ++ ' ' :: sideText quotePath 0x62 new) =
        some (sideText quotePath 0x62 new) := by
      by_cases hold : Plain quotePath old.bytes
      · by_cases hnew : Plain quotePath new.bytes
        · exact newSide_of_unambiguous hold hnew (hunambiguous hold hnew)
        · exact newSide_of_plain_quoted hold hnew
      · exact newSide_of_quoted hold
    rw [if_pos hone, Option.bind_some, hside, Option.bind_some, pathOfSide_sideText]

end AgentBridge.Patches
