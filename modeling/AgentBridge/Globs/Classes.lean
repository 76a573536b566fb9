import AgentBridge.Globs.Translate

/-!
# What the wildcards of a compiled glob take

No star and no question mark takes a slash. A character class is copied into the regular
expression as it stands, so a range of it may be out of order, may run over the slash, or may
be joined to the `/` that the translator puts in front of a negated class or takes out of the
members. `WellSpelled` names the classes for which nothing of this changes what is accepted,
and the compiled pattern is segment-safe and class-exact exactly when all its classes are.
-/

namespace AgentBridge.Globs

open AgentBridge.Paths AgentBridge.Systems List

/-- The classes that the translator finds in a pattern. -/
def Source.classTexts : Source → List PathText
  | .append left right => left.classTexts ++ right.classTexts
  | .either left right => left.classTexts ++ right.classTexts
  | .characterClass text => [text]
  | _ => []

def classesOf (pattern : PathText) (matchDescendants : Bool) : List PathText :=
  (globSourceToRegex (globOf pattern matchDescendants).1).classTexts

/-- What a class names: no wildcard matches a slash, and the members are read as they are
spelled. -/
def names (folding : CaseFolding) (text : PathText) (c : Char) : Bool :=
  c ≠ '/' && (isNegated text != covers folding (classRanges (memberText text)) c)

def classTakes (folding : CaseFolding) (text : PathText) : Language Char :=
  (classRegex folding text).language

def slashBesideDash : PathText → Bool
  | first :: second :: rest =>
    (first == '/' && second == '-') || (first == '-' && second == '/') ||
      slashBesideDash (second :: rest)
  | _ => false

/-- A slash beside a dash, or a dash that opens a negated class: the slash dropped there, or
put in front, changes which ranges the class has. -/
def joinsSlash (text : PathText) : Bool :=
  slashBesideDash (memberText text) ||
    (isNegated text && (classBody text).head? == some '-' && 1 < (classBody text).length)

/-- The class accepts what its members name. -/
structure WellSpelled (folding : CaseFolding) (text : PathText) : Prop where
  /-- No range of the class that is emitted is out of order. -/
  inOrder : ∀ range ∈ emittedRanges text, outOfOrder range = false
  /-- No range of a plain class runs over the slash. -/
  slashFree : isNegated text = false → ∀ range ∈ emittedRanges text, inRange '/' range = false
  /-- Where a slash meets a dash, the ranges that are left name the same characters. -/
  sameMembers : joinsSlash text = true → ∀ c, c ≠ '/' →
    covers folding (emittedRanges text) c = covers folding (classRanges (memberText text)) c

/-! ### Ranges -/

theorem inRange_single {c d : Char} : inRange d (c, c) = true ↔ d = c := by
  constructor
  · intro h
    have hbounds : codeUnit c ≤ codeUnit d ∧ codeUnit d ≤ codeUnit c := by
      simpa [inRange] using h
    exact codeUnit_injective (Nat.le_antisymm hbounds.2 hbounds.1)
  · intro h
    simp [h, inRange]

variable {rest : PathText}

theorem classRanges_cons {c : Char} (h : ∀ high after, rest ≠ '-' :: high :: after) :
    classRanges (c :: rest) = (c, c) :: classRanges rest := by
  rw [classRanges]
  intro high after heq
  exact h high after heq

/-- After a slash that stands beside no dash, the members begin with no dash. -/
private theorem head?_filter_of_slash (h : slashBesideDash ('/' :: rest) = false) :
    (rest.filter (· ≠ '/')).head? ≠ some '-' := by
  induction rest with
  | nil => simp
  | cons c rest ih =>
    have hsplit : c ≠ '-' ∧ slashBesideDash (c :: rest) = false := by
      simpa [slashBesideDash] using h
    by_cases hc : c = '/'
    · rw [hc] at hsplit
      simpa [hc] using ih hsplit.2
    · simp [hc, hsplit.1]

private theorem slashBesideDash_tail {c : Char} (h : slashBesideDash (c :: rest) = false) :
    slashBesideDash rest = false := by
  cases rest with
  | nil => rfl
  | cons d rest =>
    have hsplit := h
    simp only [slashBesideDash, Bool.or_eq_false_iff] at hsplit
    exact hsplit.2

/-- Away from dashes a dropped slash takes its own range with it and no other. -/
theorem classRanges_filter {members : PathText} (h : slashBesideDash members = false) :
    classRanges (members.filter (· ≠ '/')) = (classRanges members).filter (· ≠ ('/', '/')) := by
  fun_induction classRanges members with
  | case1 low high rest ih =>
    have hsplit : low ≠ '/' ∧ high ≠ '/' ∧ slashBesideDash (high :: rest) = false := by
      simpa [slashBesideDash] using h
    have hrest := ih (slashBesideDash_tail hsplit.2.2)
    simp only [ne_eq, hsplit.1, not_false_eq_true, decide_true, filter_cons_of_pos,
      hsplit.2.1, show ¬ '-' = '/' by decide, classRanges, Prod.mk.injEq, false_and]
    exact congrArg _ hrest
  | case2 c rest hno ih =>
    have hrest := ih (slashBesideDash_tail h)
    by_cases hc : c = '/'
    · simpa [hc] using hrest
    · have hkeep : ∀ high after, rest.filter (· ≠ '/') ≠ '-' :: high :: after := by
        intro high after heq
        cases rest with
        | nil => simp at heq
        | cons d rest =>
          by_cases hd : d = '/'
          · have hslash : slashBesideDash ('/' :: rest) = false := by
              rw [← hd]
              exact slashBesideDash_tail h
            have hfilter : (d :: rest).filter (· ≠ '/') = rest.filter (· ≠ '/') := by
              simp [hd]
            rw [hfilter] at heq
            exact head?_filter_of_slash hslash (by rw [heq]; rfl)
          · have hcons : d = '-' ∧ rest.filter (· ≠ '/') = high :: after := by
              simpa [hd] using heq
            rw [hcons.1] at h hno
            cases rest with
            | nil => simp at hcons
            | cons next others => exact hno next others rfl
      have hfilter : (c :: rest).filter (· ≠ '/') = c :: rest.filter (· ≠ '/') := by simp [hc]
      rw [hfilter, classRanges_cons hkeep, hrest]
      simp [hc]
  | case3 => rfl

section Covering

variable {folding : CaseFolding} {ranges : List (Char × Char)} {c : Char}

theorem covers_iff : covers folding ranges c = true ↔
    ∃ d ∈ folding.variants c, ∃ range ∈ ranges, inRange d range = true := by
  simp [covers]

theorem covers_filter (hc : c ≠ '/') :
    covers folding (ranges.filter (· ≠ ('/', '/'))) c = covers folding ranges c := by
  rw [Bool.eq_iff_iff, covers_iff, covers_iff]
  constructor
  · intro ⟨d, hd, range, hrange, hin⟩
    exact ⟨d, hd, range, mem_of_mem_filter hrange, hin⟩
  · intro ⟨d, hd, range, hrange, hin⟩
    refine ⟨d, hd, range, mem_filter.mpr ⟨hrange, ?_⟩, hin⟩
    apply decide_eq_true
    intro heq
    rw [heq, inRange_single] at hin
    exact hc (folding.slash c (hin ▸ hd))

theorem covers_slash_cons (hc : c ≠ '/') :
    covers folding (('/', '/') :: ranges) c = covers folding ranges c := by
  rw [← covers_filter hc, ← @covers_filter folding ranges c hc]
  simp

theorem covers_slash :
    covers folding ranges '/' = true ↔ ∃ range ∈ ranges, inRange '/' range = true := by
  rw [covers_iff]
  constructor
  · intro ⟨d, hd, hrange⟩
    rwa [folding.variants_slash d hd] at hrange
  · intro hrange
    exact ⟨'/', folding.self_mem '/', hrange⟩

end Covering

variable {part : PathText}

section Exactness

variable {folding : CaseFolding} {text : PathText}

theorem covers_emittedRanges (h : joinsSlash text = false) {c : Char} (hc : c ≠ '/') :
    covers folding (emittedRanges text) c = covers folding (classRanges (memberText text)) c := by
  have hjoin : slashBesideDash (memberText text) = false ∧
      (isNegated text = true → (classBody text).head? = some '-' →
        (classBody text).length ≤ 1) := by
    simpa [joinsSlash] using h
  have hbody : classRanges (classBody text) =
      (classRanges (memberText text)).filter (· ≠ ('/', '/')) := classRanges_filter hjoin.1
  cases hnegated : isNegated text with
  | false =>
    have hemitted : emittedRanges text = classRanges (classBody text) := by
      simp [emittedRanges, hnegated]
    rw [hemitted, hbody, covers_filter hc]
  | true =>
    have hkeep : ∀ high after, classBody text ≠ '-' :: high :: after := by
      intro high after heq
      have hlength := hjoin.2 hnegated (by rw [heq]; rfl)
      rw [heq] at hlength
      simp at hlength
    simp only [emittedRanges, hnegated, if_true, classRanges_cons hkeep, hbody]
    rw [covers_slash_cons hc, covers_filter hc]

theorem mem_classTakes :
    part ∈ classTakes folding text ↔
      ∃ c, (isNegated text != covers folding (emittedRanges text) c) = true ∧ part = [c] := by
  unfold classTakes classRegex
  cases hnegated : isNegated text with
  | true => simp [Regex.mem_char]
  | false =>
    by_cases hbody : classBody text = []
    · have hranges : emittedRanges text = [] := by
        simp [emittedRanges, hnegated, hbody, classRanges]
      simp [hbody, hranges, covers]
    · simp [hbody, Regex.mem_char]

private theorem covers_slash_of_negated (hnegated : isNegated text = true)
    (h : ∀ range ∈ emittedRanges text, outOfOrder range = false) :
    covers folding (emittedRanges text) '/' = true := by
  rw [covers_slash]
  have hranges : emittedRanges text = classRanges ('/' :: classBody text) := by
    simp [emittedRanges, hnegated]
  obtain ⟨high, rest, hcons⟩ : ∃ high rest, emittedRanges text = ('/', high) :: rest := by
    rw [hranges]
    match hbody : classBody text with
    | [] => exact ⟨'/', [], rfl⟩
    | [c] => exact ⟨'/', classRanges [c], classRanges_cons (by simp)⟩
    | c :: d :: after =>
      by_cases hdash : c = '-'
      · exact ⟨d, classRanges after, by rw [hdash]; rfl⟩
      · refine ⟨'/', classRanges (c :: d :: after), classRanges_cons ?_⟩
        intro high' after' heq
        exact hdash (List.cons.inj heq).1
  have horder := h ('/', high) (by rw [hcons]; exact mem_cons_self)
  refine ⟨('/', high), by rw [hcons]; exact mem_cons_self, ?_⟩
  simpa [inRange, outOfOrder] using horder

theorem classTakes_exact_iff
    (h : ∀ range ∈ emittedRanges text, outOfOrder range = false) :
    (∀ part, part ∈ classTakes folding text ↔ ∃ c, names folding text c = true ∧ part = [c]) ↔
      WellSpelled folding text := by
  have hpointwise : (∀ part, part ∈ classTakes folding text ↔
      ∃ c, names folding text c = true ∧ part = [c]) ↔
      ∀ c, (isNegated text != covers folding (emittedRanges text) c) = names folding text c := by
    constructor
    · intro hexact c
      have hpart := hexact [c]
      rw [mem_classTakes] at hpart
      rw [Bool.eq_iff_iff]
      simpa using hpart
    · intro hall part
      rw [mem_classTakes]
      exact exists_congr fun c => by rw [hall c]
  rw [hpointwise]
  constructor
  · intro hall
    refine ⟨h, ?_, ?_⟩
    · intro hplain range hrange
      have hslash := hall '/'
      have hcovers : covers folding (emittedRanges text) '/' = false := by
        simpa [names, hplain] using hslash
      rw [← Bool.not_eq_true]
      intro hin
      have hcovered : covers folding (emittedRanges text) '/' = true :=
        covers_slash.mpr ⟨range, hrange, hin⟩
      rw [hcovers] at hcovered
      cases hcovered
    · intro _ c hc
      have hat := hall c
      cases hnegated : isNegated text <;> simpa [names, hc, hnegated] using hat
  · intro hspelled c
    by_cases hc : c = '/'
    · subst hc
      cases hnegated : isNegated text with
      | true => simp [names, covers_slash_of_negated hnegated h]
      | false =>
        have hcovers : covers folding (emittedRanges text) '/' = false := by
          rw [← Bool.not_eq_true, covers_slash]
          intro ⟨range, hrange, hin⟩
          rw [hspelled.slashFree hnegated range hrange] at hin
          cases hin
        simp [names, hcovers]
    · have hsame : covers folding (emittedRanges text) c =
          covers folding (classRanges (memberText text)) c := by
        cases hjoin : joinsSlash text with
        | true => exact hspelled.sameMembers hjoin c hc
        | false => exact covers_emittedRanges hjoin hc
      simp [names, hc, hsame]

end Exactness

/-! ### The compiled pattern -/

variable {body regex : PathRegex} {wildcard : Wildcard}

section Compile

variable {folding : CaseFolding}

theorem compile_append {left right : Source} :
    compile folding (.append left right) = .ok regex ↔
      ∃ first second, compile folding left = .ok first ∧ compile folding right = .ok second ∧
        regex = .seq first second := by
  simp only [compile, bind_ok, pure, Except.pure, Except.ok.injEq]
  constructor
  · intro ⟨first, hfirst, second, hsecond, heq⟩
    exact ⟨first, second, hfirst, hsecond, heq.symm⟩
  · intro ⟨first, second, hfirst, hsecond, heq⟩
    exact ⟨first, hfirst, second, hsecond, heq.symm⟩

theorem compile_either {left right : Source} :
    compile folding (.either left right) = .ok regex ↔
      ∃ first second, compile folding left = .ok first ∧ compile folding right = .ok second ∧
        regex = .alt first second := by
  simp only [compile, bind_ok, pure, Except.pure, Except.ok.injEq]
  constructor
  · intro ⟨first, hfirst, second, hsecond, heq⟩
    exact ⟨first, second, hfirst, hsecond, heq.symm⟩
  · intro ⟨first, second, hfirst, hsecond, heq⟩
    exact ⟨first, hfirst, second, hsecond, heq.symm⟩

theorem compile_characterClass {text : PathText} :
    compile folding (.characterClass text) = .ok regex ↔
      (∀ range ∈ emittedRanges text, outOfOrder range = false) ∧
        regex = .mark (.characterClass text) (classRegex folding text) := by
  cases horder : (emittedRanges text).any outOfOrder with
  | true =>
    obtain ⟨range, hrange, hout⟩ := any_eq_true.mp horder
    constructor
    · intro h
      simp [compile, horder] at h
    · intro h
      rw [h.1 range hrange] at hout
      cases hout
  | false =>
    have hall : ∀ range ∈ emittedRanges text, outOfOrder range = false := by
      intro range hrange
      have hnot := any_eq_false.mp horder range hrange
      simpa using hnot
    simp only [compile, horder, Bool.false_eq_true, if_false, Except.ok.injEq]
    exact ⟨fun heq => ⟨hall, heq.symm⟩, fun hboth => hboth.2.symm⟩

variable {source : Source}

/-- The constructor refuses a pattern exactly when a class has a range out of order. -/
theorem exists_compile_iff :
    (∃ regex, compile folding source = .ok regex) ↔
      ∀ text ∈ source.classTexts, ∀ range ∈ emittedRanges text, outOfOrder range = false := by
  induction source with
  | append left right hleft hright =>
    simp only [Source.classTexts, mem_append, or_imp, forall_and, ← hleft, ← hright,
      compile_append]
    constructor
    · intro ⟨regex, first, second, hfirst, hsecond, _⟩
      exact ⟨⟨first, hfirst⟩, ⟨second, hsecond⟩⟩
    · intro ⟨⟨first, hfirst⟩, ⟨second, hsecond⟩⟩
      exact ⟨_, first, second, hfirst, hsecond, rfl⟩
  | either left right hleft hright =>
    simp only [Source.classTexts, mem_append, or_imp, forall_and, ← hleft, ← hright,
      compile_either]
    constructor
    · intro ⟨regex, first, second, hfirst, hsecond, _⟩
      exact ⟨⟨first, hfirst⟩, ⟨second, hsecond⟩⟩
    · intro ⟨⟨first, hfirst⟩, ⟨second, hsecond⟩⟩
      exact ⟨_, first, second, hfirst, hsecond, rfl⟩
  | characterClass text => simp [Source.classTexts, compile_characterClass]
  | empty => simp [Source.classTexts, compile]
  | directories => simp [Source.classTexts, compile]
  | anything => simp [Source.classTexts, compile]
  | star => simp [Source.classTexts, compile]
  | question => simp [Source.classTexts, compile]
  | literal c => simp [Source.classTexts, compile]

/-- The pattern that a wildcard is compiled to. -/
def wildcardRegex (folding : CaseFolding) : Wildcard → PathRegex
  | .star => .star (notSlash folding)
  | .question => notSlash folding
  | .characterClass text => classRegex folding text

private theorem not_marks_char {accepts : Char → Bool} :
    ¬ Regex.Marks (.char accepts : PathRegex) wildcard body := by
  intro h
  cases h

private theorem not_marks_star_char {accepts : Char → Bool} :
    ¬ Regex.Marks (.star (.char accepts) : PathRegex) wildcard body := by
  intro h
  cases h with
  | star h => exact not_marks_char h

private theorem not_marks_directories :
    ¬ Regex.Marks (.alt (.seq (.star dot) (exactly folding '/')) .empty) wildcard body := by
  intro h
  cases h with
  | altLeft h =>
    cases h with
    | seqLeft h => exact not_marks_star_char h
    | seqRight h => exact not_marks_char h
  | altRight h => cases h

private theorem not_marks_descendants :
    ¬ Regex.Marks (.alt (.seq (exactly folding '/') (.star dot)) .empty) wildcard body := by
  intro h
  cases h with
  | altLeft h =>
    cases h with
    | seqLeft h => exact not_marks_char h
    | seqRight h => exact not_marks_star_char h
  | altRight h => cases h

private theorem not_marks_classRegex {text : PathText} :
    ¬ Regex.Marks (classRegex folding text) wildcard body := by
  unfold classRegex
  split
  · exact not_marks_char
  · split
    · intro h
      cases h
    · exact not_marks_char

theorem marks_compile (h : compile folding source = .ok regex) (hmark : regex.Marks wildcard body) :
    body = wildcardRegex folding wildcard ∧
      ∀ text, wildcard = .characterClass text → text ∈ source.classTexts := by
  induction source generalizing regex with
  | append left right hleft hright =>
    obtain ⟨first, second, hfirst, hsecond, rfl⟩ := compile_append.mp h
    cases hmark with
    | seqLeft hmark =>
      have hinside := hleft hfirst hmark
      exact ⟨hinside.1, fun text htext => mem_append_left _ (hinside.2 text htext)⟩
    | seqRight hmark =>
      have hinside := hright hsecond hmark
      exact ⟨hinside.1, fun text htext => mem_append_right _ (hinside.2 text htext)⟩
  | either left right hleft hright =>
    obtain ⟨first, second, hfirst, hsecond, rfl⟩ := compile_either.mp h
    cases hmark with
    | altLeft hmark =>
      have hinside := hleft hfirst hmark
      exact ⟨hinside.1, fun text htext => mem_append_left _ (hinside.2 text htext)⟩
    | altRight hmark =>
      have hinside := hright hsecond hmark
      exact ⟨hinside.1, fun text htext => mem_append_right _ (hinside.2 text htext)⟩
  | characterClass text =>
    obtain ⟨_, rfl⟩ := compile_characterClass.mp h
    cases hmark with
    | here =>
      refine ⟨rfl, fun other hother => ?_⟩
      obtain rfl := Wildcard.characterClass.inj hother
      exact mem_singleton_self text
    | inside hmark => exact absurd hmark not_marks_classRegex
  | star =>
    obtain rfl := Except.ok.inj h
    cases hmark with
    | here => exact ⟨rfl, nofun⟩
    | inside hmark => exact absurd hmark not_marks_star_char
  | question =>
    obtain rfl := Except.ok.inj h
    cases hmark with
    | here => exact ⟨rfl, nofun⟩
    | inside hmark => exact absurd hmark not_marks_char
  | empty =>
    obtain rfl := Except.ok.inj h
    cases hmark
  | directories =>
    obtain rfl := Except.ok.inj h
    exact absurd hmark not_marks_directories
  | anything =>
    obtain rfl := Except.ok.inj h
    exact absurd hmark not_marks_star_char
  | literal c =>
    obtain rfl := Except.ok.inj h
    exact absurd hmark not_marks_char

theorem exists_marks_compile {text : PathText} (h : compile folding source = .ok regex)
    (htext : text ∈ source.classTexts) :
    regex.Marks (.characterClass text) (classRegex folding text) := by
  induction source generalizing regex with
  | append left right hleft hright =>
    obtain ⟨first, second, hfirst, hsecond, rfl⟩ := compile_append.mp h
    cases mem_append.mp htext with
    | inl htext => exact .seqLeft (hleft hfirst htext)
    | inr htext => exact .seqRight (hright hsecond htext)
  | either left right hleft hright =>
    obtain ⟨first, second, hfirst, hsecond, rfl⟩ := compile_either.mp h
    cases mem_append.mp htext with
    | inl htext => exact .altLeft (hleft hfirst htext)
    | inr htext => exact .altRight (hright hsecond htext)
  | characterClass other =>
    obtain ⟨_, rfl⟩ := compile_characterClass.mp h
    obtain rfl := mem_singleton.mp htext
    exact .here
  | empty => cases htext
  | directories => cases htext
  | anything => cases htext
  | star => cases htext
  | question => cases htext
  | literal c => cases htext

end Compile

section Matcher

variable {folding : CaseFolding} {pattern : PathText} {matchDescendants : Bool}

/-- The matcher is the compiled glob, with the subtree after it where the pattern asks for it. -/
theorem globToRegex_eq_ok :
    globToRegex folding pattern matchDescendants = .ok regex ↔
      ∃ body, compile folding (globSourceToRegex (globOf pattern matchDescendants).1) = .ok body ∧
        regex = if (globOf pattern matchDescendants).2 then
            .seq body (.alt (.seq (exactly folding '/') (.star dot)) .empty)
          else body := by
  unfold globToRegex
  rw [bind_ok]
  simp only [pure, Except.pure, Except.ok.injEq, eq_comm]

theorem slash_not_mem_star (h : part ∈ (wildcardRegex folding .star).language) : '/' ∉ part := by
  intro hslash
  have hall := Regex.mem_star_char.mp h '/' hslash
  simp [folding.self_mem] at hall

theorem slash_not_mem_question (h : part ∈ (wildcardRegex folding .question).language) :
    '/' ∉ part := by
  obtain ⟨c, hc, rfl⟩ := h
  intro hslash
  obtain rfl := mem_singleton.mp hslash
  simp [folding.self_mem] at hc

theorem marks_globToRegex (h : globToRegex folding pattern matchDescendants = .ok regex)
    (hmark : regex.Marks wildcard body) :
    body = wildcardRegex folding wildcard ∧
      ∀ text, wildcard = .characterClass text → text ∈ classesOf pattern matchDescendants := by
  obtain ⟨inner, hinner, rfl⟩ := globToRegex_eq_ok.mp h
  split at hmark
  · cases hmark with
    | seqLeft hmark => exact marks_compile hinner hmark
    | seqRight hmark => exact absurd hmark not_marks_descendants
  · exact marks_compile hinner hmark

theorem exists_marks_globToRegex {text : PathText}
    (h : globToRegex folding pattern matchDescendants = .ok regex)
    (htext : text ∈ classesOf pattern matchDescendants) :
    regex.Marks (.characterClass text) (classRegex folding text) := by
  obtain ⟨inner, hinner, rfl⟩ := globToRegex_eq_ok.mp h
  have hinside := exists_marks_compile hinner htext
  split
  · exact .seqLeft hinside
  · exact hinside

/-- The pattern compiles, no wildcard takes a slash of a path it accepts, and every class takes
exactly the characters its members name. -/
def TotalAndSegmentSafe (folding : CaseFolding) (pattern : PathText)
    (matchDescendants : Bool) : Prop :=
  ∃ regex, globToRegex folding pattern matchDescendants = .ok regex ∧
    (∀ file parts, regex.Consumes file parts →
      ∀ wildcard part, (wildcard, part) ∈ parts → '/' ∉ part) ∧
    ∀ text ∈ classesOf pattern matchDescendants, ∀ body,
      regex.Marks (.characterClass text) body →
        ∀ part, part ∈ body.language ↔ ∃ c, names folding text c = true ∧ part = [c]

/-- `globToRegex` is total, segment-safe and class-exact on exactly the patterns whose classes
are well spelled. -/
theorem globToRegex_totalAndSegmentSafe_iff (folding : CaseFolding) (pattern : PathText)
    (matchDescendants : Bool) :
    TotalAndSegmentSafe folding pattern matchDescendants ↔
      ∀ text ∈ classesOf pattern matchDescendants, WellSpelled folding text := by
  constructor
  · intro ⟨regex, hregex, _, hexact⟩ text htext
    obtain ⟨inner, hinner, _⟩ := globToRegex_eq_ok.mp hregex
    have horder := exists_compile_iff.mp ⟨inner, hinner⟩ text htext
    exact (classTakes_exact_iff horder).mp
      (hexact text htext _ (exists_marks_globToRegex hregex htext))
  · intro hspelled
    obtain ⟨inner, hinner⟩ := exists_compile_iff.mpr fun text htext =>
      (hspelled text htext).inOrder
    obtain ⟨regex, hregex⟩ : ∃ regex, globToRegex folding pattern matchDescendants = .ok regex :=
      ⟨_, globToRegex_eq_ok.mpr ⟨inner, hinner, rfl⟩⟩
    have htakes : ∀ text ∈ classesOf pattern matchDescendants, ∀ part,
        part ∈ classTakes folding text ↔ ∃ c, names folding text c = true ∧ part = [c] :=
      fun text htext =>
        (classTakes_exact_iff (hspelled text htext).inOrder).mpr (hspelled text htext)
    refine ⟨regex, hregex, ?_, ?_⟩
    · intro file parts hconsumes wildcard part hpart
      obtain ⟨body, hmark, hbody⟩ := hconsumes.part hpart
      obtain ⟨rfl, hclass⟩ := marks_globToRegex hregex hmark
      cases wildcard with
      | star => exact slash_not_mem_star hbody
      | question => exact slash_not_mem_question hbody
      | characterClass text =>
        obtain ⟨c, hc, rfl⟩ := (htakes text (hclass text rfl) part).mp hbody
        intro hslash
        obtain rfl := mem_singleton.mp hslash
        simp [names] at hc
    · intro text htext body hmark part
      obtain ⟨rfl, _⟩ := marks_globToRegex hregex hmark
      exact htakes text htext part

/-- The constructor refuses a reversed range, and a range from "+" to "9" takes a slash. -/
theorem globToRegex_not_totalAndSegmentSafe :
    ¬ TotalAndSegmentSafe .exact ['[', 'z', '-', 'a', ']'] false ∧
      ¬ TotalAndSegmentSafe .exact ['[', '+', '-', '9', ']'] false := by
  constructor
  · intro ⟨regex, hregex, _⟩
    have hrefused : globToRegex .exact ['[', 'z', '-', 'a', ']'] false = .error rangeError := rfl
    rw [hrefused] at hregex
    cases hregex
  · intro ⟨regex, hregex, hsafe, _⟩
    have hcompiled : globToRegex .exact ['[', '+', '-', '9', ']'] false =
        .ok (.seq (.mark (.characterClass ['+', '-', '9'])
          (.char (covers .exact (emittedRanges ['+', '-', '9'])))) .empty) := rfl
    obtain rfl := Except.ok.inj (hcompiled.symm.trans hregex)
    have htakes : covers .exact (emittedRanges ['+', '-', '9']) '/' = true := by decide
    have hconsumes : Regex.Consumes _ ['/'] [(Wildcard.characterClass ['+', '-', '9'], ['/'])] :=
      .seq (.mark (.char htakes)) .empty
    exact hsafe ['/'] _ hconsumes _ _ mem_cons_self mem_cons_self

end Matcher

end AgentBridge.Globs
