import AgentBridge.Systems.Lines

/-!
# UTF-8

The decoder of the encoding standard, which replaces every maximal ill-formed sequence by
U+FFFD, and the encoder. Bytes are numbers. An ASCII byte ends whatever came before it, so the
text of a concatenation can be cut there; and what the encoder writes is decoded as it was.
-/

namespace AgentBridge.Systems.Utf8

open List

/-- The number of continuation bytes that are still to come, and the bounds of the next. -/
structure Decoder where
  codePoint : Nat
  needed : Nat
  lower : Nat
  upper : Nat

def idle : Decoder := ⟨0, 0, 0x80, 0xBF⟩

def replacement : Char := Char.ofNat 0xFFFD

/-- The first byte of a sequence. -/
def lead (byte : Nat) : List Char × Decoder :=
  if byte < 0x80 then ([Char.ofNat byte], idle)
  else if 0xC2 ≤ byte ∧ byte ≤ 0xDF then ([], ⟨byte - 0xC0, 1, 0x80, 0xBF⟩)
  else if byte = 0xE0 then ([], ⟨0, 2, 0xA0, 0xBF⟩)
  else if byte = 0xED then ([], ⟨0xD, 2, 0x80, 0x9F⟩)
  else if 0xE1 ≤ byte ∧ byte ≤ 0xEF then ([], ⟨byte - 0xE0, 2, 0x80, 0xBF⟩)
  else if byte = 0xF0 then ([], ⟨0, 3, 0x90, 0xBF⟩)
  else if byte = 0xF4 then ([], ⟨4, 3, 0x80, 0x8F⟩)
  else if 0xF1 ≤ byte ∧ byte ≤ 0xF3 then ([], ⟨byte - 0xF0, 3, 0x80, 0xBF⟩)
  else ([replacement], idle)

def decodeByte (s : Decoder) (byte : Nat) : List Char × Decoder :=
  if s.needed = 0 then lead byte
  else if s.lower ≤ byte ∧ byte ≤ s.upper then
    if s.needed = 1 then ([Char.ofNat (s.codePoint * 64 + (byte - 0x80))], idle)
    else ([], ⟨s.codePoint * 64 + (byte - 0x80), s.needed - 1, 0x80, 0xBF⟩)
  else
    -- the byte is not part of the sequence and is read again as a first one
    (replacement :: (lead byte).1, (lead byte).2)

/-- The end of the input within a sequence. -/
def atEnd (s : Decoder) : List Char := if s.needed = 0 then [] else [replacement]

def decodeFrom (s : Decoder) : List Nat → List Char
  | [] => atEnd s
  | byte :: bytes => (decodeByte s byte).1 ++ decodeFrom (decodeByte s byte).2 bytes

def decode (bytes : List Nat) : List Char := decodeFrom idle bytes

@[simp] theorem decode_nil : decode [] = [] := rfl

/-! ### A sequence stands for a character beyond ASCII -/

/-- The first code point that the sequence can come to, and the first beyond all of them. -/
def Decoder.lowest (s : Decoder) : Nat :=
  (s.codePoint * 64 + (s.lower - 0x80)) * 64 ^ (s.needed - 1)

def Decoder.limit (s : Decoder) : Nat :=
  (s.codePoint * 64 + (s.upper - 0x80) + 1) * 64 ^ (s.needed - 1)

structure Decoder.Wide (s : Decoder) : Prop where
  continues : 0x80 ≤ s.lower
  beyond : s.needed ≠ 0 → 0x80 ≤ s.lowest
  valid : s.needed ≠ 0 → s.limit ≤ 0xD800 ∨ 0xE000 ≤ s.lowest ∧ s.limit ≤ 0x110000

theorem wide_idle : idle.Wide :=
  ⟨Nat.le_refl _, fun h => absurd rfl h, fun h => absurd rfl h⟩

theorem wide_of {codePoint needed lower upper : Nat} (continues : 0x80 ≤ lower)
    (beyond : 0x80 ≤ (codePoint * 64 + (lower - 0x80)) * 64 ^ (needed - 1))
    (valid : (codePoint * 64 + (upper - 0x80) + 1) * 64 ^ (needed - 1) ≤ 0xD800 ∨
      0xE000 ≤ (codePoint * 64 + (lower - 0x80)) * 64 ^ (needed - 1) ∧
        (codePoint * 64 + (upper - 0x80) + 1) * 64 ^ (needed - 1) ≤ 0x110000) :
    Decoder.Wide ⟨codePoint, needed, lower, upper⟩ :=
  ⟨continues, fun _ => beyond, fun _ => valid⟩

theorem wide_lead (byte : Nat) : (lead byte).2.Wide := by
  unfold lead
  split
  · exact wide_idle
  repeat' split
  rotate_right
  · exact wide_idle
  all_goals apply wide_of <;> omega

variable {s : Decoder}

theorem Decoder.Wide.decodeByte (h : s.Wide) (byte : Nat) : (decodeByte s byte).2.Wide := by
  rw [Utf8.decodeByte]
  split
  · exact wide_lead byte
  · next hneeded =>
    split
    · next hrange =>
      split
      · exact wide_idle
      · next hmore =>
        have hcontinues := h.continues
        have hbeyond := h.beyond hneeded
        have hvalid := h.valid hneeded
        have hpow : 64 ^ (s.needed - 1) = 64 * 64 ^ (s.needed - 1 - 1) := by
          rw [← Nat.pow_succ']
          congr 1
          omega
        rw [Decoder.lowest, hpow, ← Nat.mul_assoc] at hbeyond hvalid
        rw [Decoder.limit, hpow, ← Nat.mul_assoc] at hvalid
        have hlowest := Nat.mul_le_mul_right (64 ^ (s.needed - 1 - 1))
          (show (s.codePoint * 64 + (s.lower - 0x80)) * 64 ≤
            (s.codePoint * 64 + (byte - 0x80)) * 64 + (0x80 - 0x80) by omega)
        have hlimit := Nat.mul_le_mul_right (64 ^ (s.needed - 1 - 1))
          (show (s.codePoint * 64 + (byte - 0x80)) * 64 + (0xBF - 0x80) + 1 ≤
            (s.codePoint * 64 + (s.upper - 0x80) + 1) * 64 by omega)
        exact wide_of (Nat.le_refl _) (by omega) (by omega)
    · exact wide_lead byte

variable {code : Nat}

theorem toNat_ofNat (h : code.isValidChar) : (Char.ofNat code).toNat = code := by
  rw [Char.ofNat, dif_pos h]
  rfl

/-- The ASCII characters that a first byte gives are the byte itself. -/
theorem eq_of_mem_lead {byte : Nat} (hcode : code < 0x80) (h : Char.ofNat code ∈ (lead byte).1) :
    byte = code := by
  by_cases hascii : byte < 0x80
  · rw [lead, if_pos hascii] at h
    have hvalue := congrArg Char.toNat (mem_singleton.mp h)
    rw [toNat_ofNat (.inl (by omega)), toNat_ofNat (.inl (by omega))] at hvalue
    exact hvalue.symm
  · have hreplaced : ∀ c ∈ (lead byte).1, c = replacement := by
      rw [lead, if_neg hascii]
      repeat' split
      all_goals simp
    have hvalue := congrArg Char.toNat (hreplaced _ h)
    rw [toNat_ofNat (.inl (by omega)), replacement, toNat_ofNat (.inr (by decide))] at hvalue
    omega

theorem lead_ascii {byte : Nat} (h : byte < 0x80) : lead byte = ([Char.ofNat byte], idle) :=
  if_pos h

theorem decodeByte_ascii (wide : s.Wide) {byte : Nat} (h : byte < 0x80) :
    decodeByte s byte = (atEnd s ++ [Char.ofNat byte], idle) := by
  have hcontinues := wide.continues
  rw [decodeByte, atEnd]
  split
  · exact lead_ascii h
  · rw [if_neg (by omega), lead_ascii h]
    rfl

theorem decodeFrom_append_ascii (wide : s.Wide) (bytes rest : List Nat) {byte : Nat}
    (h : byte < 0x80) :
    decodeFrom s (bytes ++ byte :: rest) =
      decodeFrom s bytes ++ Char.ofNat byte :: decode rest := by
  induction bytes generalizing s with
  | nil =>
    show (decodeByte s byte).1 ++ decodeFrom (decodeByte s byte).2 rest = _
    rw [decodeByte_ascii wide h, append_assoc]
    rfl
  | cons first bytes ih =>
    show (decodeByte s first).1 ++ decodeFrom _ (bytes ++ byte :: rest) = _
    rw [ih (wide.decodeByte first), ← append_assoc]
    rfl

theorem decode_append_ascii (bytes rest : List Nat) {byte : Nat} (h : byte < 0x80) :
    decode (bytes ++ byte :: rest) = decode bytes ++ Char.ofNat byte :: decode rest :=
  decodeFrom_append_ascii wide_idle bytes rest h

theorem decode_ascii_cons (rest : List Nat) {byte : Nat} (h : byte < 0x80) :
    decode (byte :: rest) = Char.ofNat byte :: decode rest :=
  decode_append_ascii [] rest h

theorem decodeFrom_asciis (wide : s.Wide) {codes : List Nat} (hne : codes ≠ [])
    (h : ∀ code ∈ codes, code < 0x80) (rest : List Nat) :
    decodeFrom s (codes ++ rest) = atEnd s ++ codes.map Char.ofNat ++ decode rest := by
  induction codes generalizing s with
  | nil => exact absurd rfl hne
  | cons code codes ih =>
    have hcode := h code mem_cons_self
    rw [cons_append, decodeFrom, decodeByte_ascii wide hcode]
    cases codes with
    | nil =>
      rfl
    | cons next codes =>
      rw [ih wide_idle (cons_ne_nil _ _) fun other hother =>
        h other (mem_cons_of_mem _ hother), append_assoc, append_assoc,
        append_assoc]
      rfl

theorem decode_asciis {codes : List Nat} (h : ∀ code ∈ codes, code < 0x80) (rest : List Nat) :
    decode (codes ++ rest) = codes.map Char.ofNat ++ decode rest := by
  by_cases hne : codes = []
  · rw [hne]
    rfl
  · exact decodeFrom_asciis wide_idle hne h rest

theorem ofNat_ne_replacement (h : code < 0x80) : Char.ofNat code ≠ replacement := by
  intro heq
  have hvalue := congrArg Char.toNat heq
  rw [toNat_ofNat (.inl (by omega)), replacement, toNat_ofNat (.inr (by decide))] at hvalue
  omega

theorem eq_of_mem_decodeByte (hcode : code < 0x80) (wide : s.Wide) {byte : Nat}
    (h : Char.ofNat code ∈ (decodeByte s byte).1) : byte = code := by
  rw [decodeByte] at h
  split at h
  · exact eq_of_mem_lead hcode h
  · next hneeded =>
    split at h
    · next hrange =>
      split at h
      · next hlast =>
        have hbeyond := wide.beyond hneeded
        have hvalid := wide.valid hneeded
        rw [Decoder.lowest, hlast] at hbeyond hvalid
        rw [Decoder.limit, hlast] at hvalid
        have hvalue := congrArg Char.toNat (mem_singleton.mp h)
        rw [toNat_ofNat (.inl (by omega)), toNat_ofNat] at hvalue
        · omega
        · show _ < 0xD800 ∨ 0xDFFF < _ ∧ _ < 0x110000
          omega
      · cases h
    · cases mem_cons.mp h with
      | inl heq => exact absurd heq (ofNat_ne_replacement hcode)
      | inr hlead => exact eq_of_mem_lead hcode hlead

variable {bytes : List Nat}

/-- An ASCII character of the text is one of its bytes. -/
theorem mem_of_mem_decodeFrom (hcode : code < 0x80) (wide : s.Wide)
    (h : Char.ofNat code ∈ decodeFrom s bytes) : code ∈ bytes := by
  induction bytes generalizing s with
  | nil =>
    rw [decodeFrom, atEnd] at h
    split at h
    · cases h
    · exact absurd (mem_singleton.mp h) (ofNat_ne_replacement hcode)
  | cons byte bytes ih =>
    rw [decodeFrom, mem_append] at h
    cases h with
    | inr hrest => exact mem_cons_of_mem _ (ih (wide.decodeByte byte) hrest)
    | inl hfirst => exact eq_of_mem_decodeByte hcode wide hfirst ▸ mem_cons_self

/-! ### Text by lines -/

theorem needed_of_lead_nil {byte : Nat} (h : (lead byte).1 = []) : (lead byte).2.needed ≠ 0 := by
  revert h
  unfold lead
  repeat' split
  all_goals simp

theorem decodeFrom_ne_nil (h : s.needed ≠ 0 ∨ bytes ≠ []) : decodeFrom s bytes ≠ [] := by
  induction bytes generalizing s with
  | nil =>
    rw [decodeFrom, atEnd, if_neg (h.resolve_right fun hne => hne rfl)]
    exact cons_ne_nil _ _
  | cons byte bytes ih =>
    intro hnil
    rw [decodeFrom, append_eq_nil_iff] at hnil
    refine ih (.inl ?_) hnil.2
    replace hnil := hnil.1
    revert hnil
    rw [decodeByte]
    split
    · exact needed_of_lead_nil
    · split
      · split
        · intro hnil
          cases hnil
        · intro _
          show s.needed - 1 ≠ 0
          omega
      · intro hnil
        cases hnil

theorem decode_eq_nil : decode bytes = [] ↔ bytes = [] := by
  constructor
  · intro h
    by_contra hne
    exact decodeFrom_ne_nil (.inr hne) h
  · rintro rfl
    rfl

theorem splitOn_decode (hcode : code < 0x80) (bytes : List Nat) :
    (decode bytes).splitOn (Char.ofNat code) = (bytes.splitOn code).map decode := by
  by_cases hmem : code ∈ bytes
  · obtain ⟨before, after, rfl, hbefore⟩ := eq_append_cons_of_mem hmem
    have hnot : Char.ofNat code ∉ decode before := fun h =>
      hbefore (mem_of_mem_decodeFrom hcode wide_idle h)
    rw [decode_append_ascii before after hcode, splitOn_append_cons_self,
      splitOn_append_cons_self, splitOn_eq_singleton hnot,
      splitOn_eq_singleton hbefore, splitOn_decode hcode after, map_append]
    rfl
  · have hnot : Char.ofNat code ∉ decode bytes := fun h =>
      hmem (mem_of_mem_decodeFrom hcode wide_idle h)
    rw [splitOn_eq_singleton hnot, splitOn_eq_singleton hmem]
    rfl
termination_by bytes.length
decreasing_by
  subst bytes
  simp only [length_append, length_cons]
  omega

theorem linesOf_decode (hcode : code < 0x80) (bytes : List Nat) :
    linesOf (Char.ofNat code) (decode bytes) = (linesOf code bytes).map decode := by
  have hlast : ((bytes.splitOn code).map decode).getLast? = some [] ↔
      (bytes.splitOn code).getLast? = some [] := by
    rw [List.getLast?_map, Option.map_eq_some_iff]
    constructor
    · rintro ⟨piece, hpiece, hnil⟩
      rw [hpiece, decode_eq_nil.mp hnil]
    · exact fun h => ⟨[], h, rfl⟩
  rw [linesOf, linesOf, splitOn_decode hcode]
  simp only [hlast]
  split
  · exact map_dropLast.symm
  · rfl

/-! ### Encoding -/

def encodeChar (c : Char) : List Nat :=
  let n := c.toNat
  if n < 0x80 then [n]
  else if n < 0x800 then [0xC0 + n / 64, 0x80 + n % 64]
  else if n < 0x10000 then [0xE0 + n / 4096, 0x80 + n / 64 % 64, 0x80 + n % 64]
  else [0xF0 + n / 262144, 0x80 + n / 4096 % 64, 0x80 + n / 64 % 64, 0x80 + n % 64]

def encode (text : List Char) : List Nat := text.flatMap encodeChar

theorem encodeChar_ascii (h : code < 0x80) : encodeChar (Char.ofNat code) = [code] := by
  rw [encodeChar, toNat_ofNat (.inl (by omega)), if_pos h]

theorem encodeChar_beyond {c : Char} (h : 0x80 ≤ c.toNat) :
    ∀ byte ∈ encodeChar c, 0x80 ≤ byte := by
  intro byte hbyte
  rw [encodeChar] at hbyte
  repeat' split at hbyte
  all_goals
    simp only [mem_cons, not_mem_nil, or_false] at hbyte
    omega

theorem lead_two {byte : Nat} (hlow : 0xC2 ≤ byte) (hhigh : byte ≤ 0xDF) :
    lead byte = ([], ⟨byte - 0xC0, 1, 0x80, 0xBF⟩) := by
  rw [lead, if_neg (by omega), if_pos ⟨hlow, hhigh⟩]

theorem lead_three {byte : Nat} (hlow : 0xE0 ≤ byte) (hhigh : byte ≤ 0xEF) :
    lead byte = ([], ⟨byte - 0xE0, 2, if byte = 0xE0 then 0xA0 else 0x80,
      if byte = 0xED then 0x9F else 0xBF⟩) := by
  rw [lead, if_neg (by omega), if_neg (by omega)]
  by_cases hfirst : byte = 0xE0
  · rw [if_pos hfirst, if_pos hfirst, if_neg (by omega), hfirst]
  · rw [if_neg hfirst, if_neg hfirst]
    by_cases hsurrogate : byte = 0xED
    · rw [if_pos hsurrogate, if_pos hsurrogate, hsurrogate]
    · rw [if_neg hsurrogate, if_neg hsurrogate, if_pos (by omega)]

theorem lead_four {byte : Nat} (hlow : 0xF0 ≤ byte) (hhigh : byte ≤ 0xF4) :
    lead byte = ([], ⟨byte - 0xF0, 3, if byte = 0xF0 then 0x90 else 0x80,
      if byte = 0xF4 then 0x8F else 0xBF⟩) := by
  rw [lead, if_neg (by omega), if_neg (by omega), if_neg (by omega), if_neg (by omega),
    if_neg (by omega)]
  by_cases hfirst : byte = 0xF0
  · rw [if_pos hfirst, if_pos hfirst, if_neg (by omega), hfirst]
  · rw [if_neg hfirst, if_neg hfirst]
    by_cases hlast : byte = 0xF4
    · rw [if_pos hlast, if_pos hlast, hlast]
    · rw [if_neg hlast, if_neg hlast, if_pos (by omega)]

section

variable (codePoint : Nat) {needed lower upper byte : Nat} (hlow : lower ≤ byte)
  (hhigh : byte ≤ upper) (rest : List Nat)

include hlow hhigh

theorem decodeFrom_continue (hneeded : 1 < needed) :
    decodeFrom ⟨codePoint, needed, lower, upper⟩ (byte :: rest) =
      decodeFrom ⟨codePoint * 64 + (byte - 0x80), needed - 1, 0x80, 0xBF⟩ rest := by
  rw [decodeFrom, decodeByte, if_neg (by dsimp only; omega), if_pos ⟨hlow, hhigh⟩,
    if_neg (by dsimp only; omega)]
  rfl

theorem decodeFrom_last :
    decodeFrom ⟨codePoint, 1, lower, upper⟩ (byte :: rest) =
      Char.ofNat (codePoint * 64 + (byte - 0x80)) :: decode rest := by
  rw [decodeFrom, decodeByte, if_neg Nat.one_ne_zero, if_pos ⟨hlow, hhigh⟩, if_pos rfl]
  rfl

end

theorem decode_lead {byte : Nat} (h : lead byte = ([], s)) (rest : List Nat) :
    decode (byte :: rest) = decodeFrom s rest := by
  have hbyte : decodeByte idle byte = ([], s) := h
  rw [decode, decodeFrom, hbyte]
  rfl

theorem decode_encodeChar (c : Char) (rest : List Nat) :
    decode (encodeChar c ++ rest) = c :: decode rest := by
  have hback : Char.ofNat c.toNat = c := Char.ofNat_toNat c
  have hvalid : c.toNat < 0xD800 ∨ 0xDFFF < c.toNat ∧ c.toNat < 0x110000 := c.valid
  rw [encodeChar]
  generalize c.toNat = n at hback hvalid ⊢
  split
  · next h => rw [singleton_append, decode_ascii_cons rest h, hback]
  split
  · next htwo =>
    rw [cons_append, singleton_append, decode_lead (lead_two (by omega) (by omega)),
      decodeFrom_last _ (by omega) (by omega),
      show (0xC0 + n / 64 - 0xC0) * 64 + (0x80 + n % 64 - 0x80) = n by omega, hback]
  split
  · next hthree =>
    rw [cons_append, cons_append, singleton_append,
      decode_lead (lead_three (by omega) (by omega)),
      decodeFrom_continue _ (by split <;> omega) (by split <;> omega) _ (by omega),
      decodeFrom_last _ (by omega) (by omega),
      show ((0xE0 + n / 4096 - 0xE0) * 64 + (0x80 + n / 64 % 64 - 0x80)) * 64 +
        (0x80 + n % 64 - 0x80) = n by omega, hback]
  · next hfour =>
    rw [cons_append, cons_append, cons_append, singleton_append,
      decode_lead (lead_four (by omega) (by omega)),
      decodeFrom_continue _ (by split <;> omega) (by split <;> omega) _ (by omega),
      decodeFrom_continue _ (by omega) (by omega) _ (by omega),
      decodeFrom_last _ (by omega) (by omega),
      show (((0xF0 + n / 262144 - 0xF0) * 64 + (0x80 + n / 4096 % 64 - 0x80)) * 64 +
        (0x80 + n / 64 % 64 - 0x80)) * 64 + (0x80 + n % 64 - 0x80) = n by omega, hback]

theorem decode_encode (text : List Char) : decode (encode text) = text := by
  induction text with
  | nil => rfl
  | cons c text ih => rw [encode, flatMap_cons, decode_encodeChar, ← encode, ih]

end AgentBridge.Systems.Utf8
