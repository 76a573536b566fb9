import AgentBridge.Globs.Classes
import AgentBridge.Globs.SerialOnly
import AgentBridge.Paths.Resolve

/-!
# Serial-only admission

Admission compares scope paths with serial-only patterns text by text. A scope path takes
every path below it, so a pattern that names a place below the scope path, and not the scope
path itself, is not found: a directory is admitted beside "src/index.*". For every scope path
that grants anything there is such a pattern, and the check is sound for every configured
list only when it reports a built-in pattern or the list grants nothing.
-/

namespace AgentBridge.Globs

open AgentBridge.Paths AgentBridge.Systems List Bool

/-- How lower-casing a path acts: segment by segment, without making or losing a separator or
a dot segment, and leaving the marks of a pattern alone. -/
structure LawfulCase (fold : PathText → PathText) : Prop where
  append_slash : ∀ first rest, fold (first ++ '/' :: rest) = fold first ++ '/' :: fold rest
  idempotent : ∀ text, fold (fold text) = fold text
  slash : ∀ text, '/' ∉ text → '/' ∉ fold text
  backslash : ∀ text, '\\' ∉ text → '\\' ∉ fold text
  ne_nil : ∀ text, text ≠ [] → fold text ≠ []
  dot : ∀ text, fold text = ['.'] ↔ text = ['.']
  marks : ∀ text, (∀ c ∈ text, c = '*' ∨ c = '?') → fold text = text

theorem LawfulCase.id : LawfulCase fun text => text where
  append_slash := fun _ _ => rfl
  idempotent := fun _ => rfl
  slash := fun _ h => h
  backslash := fun _ h => h
  ne_nil := fun _ h => h
  dot := fun _ => Iff.rfl
  marks := fun _ _ => rfl

theorem lawful_normalizeFilesystemCase {host : MatchHost}
    (h : LawfulCase host.platform.toLowerCase) (root : Option Directory) :
    LawfulCase (normalizeFilesystemCase host root) := by
  cases root with
  | none =>
    cases hwindows : host.platform.windows with
    | true =>
      have hfold : normalizeFilesystemCase host none = host.platform.toLowerCase := by
        funext text
        simp [normalizeFilesystemCase, foldCase, hwindows]
      rwa [hfold]
    | false =>
      have hfold : normalizeFilesystemCase host none = fun text => text := by
        funext text
        simp [normalizeFilesystemCase, foldCase, hwindows]
      rw [hfold]
      exact .id
  | some cwd =>
    cases hsensitive : host.view.caseSensitive cwd with
    | true =>
      have hfold : normalizeFilesystemCase host (some cwd) = fun text => text := by
        funext text
        simp [normalizeFilesystemCase, foldCaseForRoot, hsensitive]
      rw [hfold]
      exact .id
    | false =>
      have hfold : normalizeFilesystemCase host (some cwd) = host.platform.toLowerCase := by
        funext text
        simp [normalizeFilesystemCase, foldCaseForRoot, hsensitive]
      rwa [hfold]

section Fold

variable {fold : PathText → PathText}

theorem LawfulCase.nil (h : LawfulCase fold) : fold [] = [] := h.marks [] nofun

theorem LawfulCase.joinSegments (h : LawfulCase fold) (parts : List PathText) :
    fold (joinSegments parts) = Paths.joinSegments (parts.map fold) := by
  induction parts with
  | nil => exact h.nil
  | cons part rest ih =>
    cases rest with
    | nil => simp [Paths.joinSegments]
    | cons next others =>
      have hrest : fold (['/'].intercalate (next :: others)) =
          ['/'].intercalate ((next :: others).map fold) := ih
      simp only [Paths.joinSegments, map_cons, intercalate_cons_cons,
        append_assoc, cons_append, nil_append] at hrest ⊢
      rw [h.append_slash, hrest]

theorem LawfulCase.render (h : LawfulCase fold) (root : Bool) (parts : List PathText) :
    fold (render root parts) = Paths.render root (parts.map fold) := by
  cases root with
  | false => exact h.joinSegments parts
  | true =>
    have hslash := h.append_slash [] (Paths.joinSegments parts)
    rw [nil_append, h.nil, nil_append] at hslash
    show fold ('/' :: Paths.joinSegments parts) = _
    rw [hslash, h.joinSegments]
    rfl

theorem LawfulCase.cleanSegments (h : LawfulCase fold) {parts : List PathText}
    (hclean : CleanSegments parts) :
    CleanSegments (parts.map fold) := by
  intro part hpart
  obtain ⟨source, hsource, rfl⟩ := mem_map.mp hpart
  obtain ⟨hne, hdot, hslash, hback⟩ := hclean source hsource
  exact ⟨h.ne_nil source hne, fun heq => hdot ((h.dot source).mp heq), h.slash source hslash,
    h.backslash source hback⟩

end Fold

/-! ### The candidate of a path before its case is folded -/

section

variable (host : MatchHost) (root : Option Directory)

/-- What `normalizeFor` answers, before the case is folded. -/
def plainFor (value : PathText) : PathText :=
  match root with
  | none => normalizeLockPath value
  | some cwd =>
    if normalizeLockPath value = [] ∨ hasParentTraversalSegment (trim value) then
      normalizeLockPath value
    else
      let resolved :=
        if isAbsolutePathLike (trim value) then resolve host.view.processCwd (trim value)
        else resolve cwd (normalizeLockPath value)
      let relativePath := relative cwd resolved
      normalizeLockPath (if relativePath = [] then repositoryScopeLockPath else relativePath)

/-- The candidate of the text: the root is written as nothing. -/
def candidateText (root : Bool) (parts : List PathText) : PathText :=
  if parts = [] then [] else render root parts

variable {host root}

theorem normalizeFor_cases (value : PathText) :
    normalizeFor host root value = plainFor host root value ∨
      normalizeFor host root value =
        normalizeFilesystemCase host root (plainFor host root value) := by
  cases root with
  | none => exact Or.inl rfl
  | some cwd =>
    by_cases hnil : normalizeLockPath value = []
    · left
      simp [normalizeFor, normalizeLockPathForCwd, plainFor, hnil]
    · by_cases htraversal : hasParentTraversalSegment (trim value) = true
      · left
        simp [normalizeFor, normalizeLockPathForCwd, plainFor, htraversal]
      · right
        simp [normalizeFor, normalizeLockPathForCwd, plainFor, htraversal, hnil,
          normalizeFilesystemCase]

theorem plainFor_cases (value : PathText) :
    plainFor host root value = [] ∨ plainFor host root value = ['.'] ∨
      ∃ rooted parts, CleanSegments parts ∧ (parts ≠ [] ∨ rooted = true) ∧
        plainFor host root value = render rooted parts := by
  unfold plainFor
  cases root with
  | none => exact normalizeLockPath_cases value
  | some cwd =>
    simp only
    split
    · exact normalizeLockPath_cases value
    · exact normalizeLockPath_cases _

theorem tidy_render {rooted : Bool} {parts : List PathText} (h : CleanSegments parts) :
    stripTrailingSlashes (collapseSlashes (toForwardSlashes (render rooted parts))) =
      candidateText rooted parts := by
  have hforward : toForwardSlashes (render rooted parts) = render rooted parts :=
    toForwardSlashes_of_not_mem (not_mem_render (by decide) fun part hpart =>
      (h part hpart).2.2.2)
  by_cases hparts : parts = []
  · rw [hparts]
    cases rooted <;> decide
  · have hcollapse : collapseSlashes (render rooted parts) = render rooted parts := by
      have hsqueeze : ∀ others : List PathText, (∀ part ∈ others, part ≠ []) →
          squeeze others = others := fun others => squeeze_of_ne_nil
      apply segments_injective
      cases rooted with
      | true =>
        have hsegments : segments (render true parts) = [] :: parts := by
          rw [segments_render hparts h.slash, if_pos rfl]
        rw [segments_collapseSlashes hsegments, hsqueeze parts h.ne_nil, hsegments]
      | false =>
        have hsegments : segments (render false parts) = parts := by
          rw [segments_render hparts h.slash]
          rfl
        obtain ⟨first, later, rfl⟩ := exists_cons_of_ne_nil hparts
        rw [segments_collapseSlashes hsegments, hsegments, hsqueeze later fun part hpart =>
          h.ne_nil part (mem_cons_of_mem first hpart)]
    rw [hforward, hcollapse, candidateText, if_neg hparts,
      stripTrailingSlashes_render hparts fun part hpart =>
        ⟨h.ne_nil part hpart, h.slash part hpart⟩]

theorem fold_candidateText {fold : PathText → PathText} (h : LawfulCase fold) (rooted : Bool)
    (parts : List PathText) :
    fold (candidateText rooted parts) = candidateText rooted (parts.map fold) := by
  by_cases hparts : parts = []
  · simp [candidateText, hparts, h.nil]
  · simp [candidateText, hparts, h.render]

theorem comparePathCandidates_render (hcase : LawfulCase host.platform.toLowerCase)
    {value : PathText} {rooted : Bool} {parts : List PathText} (hclean : CleanSegments parts)
    (hne : parts ≠ [] ∨ rooted = true)
    (h : plainFor host root value = render rooted parts) :
    comparePathCandidates host root value =
      [normalizeFilesystemCase host root (candidateText rooted parts)] := by
  have hfold := lawful_normalizeFilesystemCase hcase root
  have hrender_ne : ∀ others : List PathText, CleanSegments others →
      (others ≠ [] ∨ rooted = true) → render rooted others ≠ [] := by
    intro others hothers hsome hnil
    cases hrooted : rooted with
    | true =>
      rw [hrooted] at hnil
      exact cons_ne_nil _ _ hnil
    | false =>
      rw [hrooted] at hnil hsome
      have hothers_ne := hsome.resolve_right (by decide)
      have hempty := (joinSegments_eq_nil hothers_ne hothers.slash).mp hnil
      exact hothers.ne_nil [] (by rw [hempty]; exact mem_cons_self) rfl
  have hmapped : parts.map (normalizeFilesystemCase host root) ≠ [] ∨ rooted = true :=
    hne.imp (fun hparts hmap => hparts (map_eq_nil_iff.mp hmap)) id
  unfold comparePathCandidates
  cases @normalizeFor_cases host root value with
  | inl hplain =>
    rw [hplain, h]
    simp only [if_neg (hrender_ne parts hclean hne), tidy_render hclean]
  | inr hfolded =>
    rw [hfolded, h, hfold.render]
    simp only [if_neg (hrender_ne _ (hfold.cleanSegments hclean) hmapped),
      tidy_render (hfold.cleanSegments hclean)]
    rw [← fold_candidateText hfold, hfold.idempotent]

end

/-! ### A place below a scope path -/

/-- A name no scope path of the list is as long as. -/
def longName (length : Nat) : PathText := List.replicate length '?'

section

variable {host : MatchHost} {root : Option Directory} {length : Nat}

theorem cleanSegments_longName (hpos : 0 < length) : CleanSegments [longName length] := by
  intro part hpart
  rw [mem_singleton.mp hpart]
  have hmem : ∀ c ∈ longName length, c = '?' := fun c hc => (mem_replicate.mp hc).2
  refine ⟨?_, ?_, fun hc => absurd (hmem _ hc) (by decide), fun hc =>
    absurd (hmem _ hc) (by decide)⟩
  · intro hnil
    have hlength := congrArg List.length hnil
    simp only [longName, length_replicate, length_nil] at hlength
    omega
  · intro hdot
    exact absurd (hmem '.' (by rw [hdot]; exact mem_cons_self)) (by decide)

variable {parts : List PathText}

theorem endsBlank_longName (hclean : CleanSegments parts) (hpos : 0 < length) (rooted : Bool) :
    endsBlank (render rooted (parts ++ [longName length])) = false := by
  rw [endsBlank_render (hclean.append (cleanSegments_longName hpos)).ne_nil]
  obtain ⟨count, rfl⟩ := Nat.exists_eq_succ_of_ne_zero (Nat.pos_iff_ne_zero.mp hpos)
  have hlast : (longName (count + 1)).getLast? = some '?' := by
    simp [longName, List.getLast?_replicate]
  simp [endsBlank, hlast, isWhitespace]

theorem longName_not_wildcards : (parts ++ [longName length]).getLast? ≠ some ['*', '*'] := by
  intro hlast
  have heq : longName length = ['*', '*'] := by simpa using hlast
  have hmem : '*' ∈ longName length := by
    rw [heq]
    exact mem_cons_self
  exact absurd (mem_replicate.mp hmem).2 (by decide)

/-- The segment that keeps a spelling relative until it is normalized the second time. -/
def blankSegment (rooted : Bool) : PathText := if rooted then [' '] else [' ', '.']

private theorem blankSegment_spec (rooted : Bool) :
    CleanSegments [blankSegment rooted] ∧ blankSegment rooted ≠ ['.', '.'] := by
  constructor
  · intro part hpart
    rw [mem_singleton.mp hpart]
    cases rooted <;> decide
  · cases rooted <;> decide

/-- Below a root, a path without parent segments is reached behind a blank segment. -/
private theorem exists_below_of_plain (host : MatchHost) (cwd : Directory) {rooted : Bool}
    (hclean : CleanSegments parts) (hdots : ['.', '.'] ∉ parts) (hpos : 0 < length) :
    ∃ file, plainFor host (some cwd) file = render rooted (parts ++ [longName length]) := by
  have hparts : CleanSegments (parts ++ [longName length]) :=
    hclean.append (cleanSegments_longName hpos)
  have hne : parts ++ [longName length] ≠ [] := append_ne_nil_of_right_ne_nil _ (by simp)
  obtain ⟨hblank, hblank_ne⟩ := blankSegment_spec rooted
  have hspelled : CleanSegments (blankSegment rooted :: (parts ++ [longName length])) :=
    hblank.append hparts
  have hspelled_ne : blankSegment rooted :: (parts ++ [longName length]) ≠ [] :=
    cons_ne_nil _ _
  have hspelled_last : (blankSegment rooted :: (parts ++ [longName length])).getLast? ≠
      some ['*', '*'] := by
    rw [← cons_append]
    exact longName_not_wildcards
  have hend : endsBlank (joinSegments (blankSegment rooted :: (parts ++ [longName length]))) =
      false := by
    exact endsBlank_longName (hblank.append hclean) hpos false
  have hnodots : ['.', '.'] ∉ blankSegment rooted :: (parts ++ [longName length]) := by
    intro hmem
    cases mem_cons.mp hmem with
    | inl heq => exact hblank_ne heq.symm
    | inr hmem =>
      cases mem_append.mp hmem with
      | inl hmem => exact hdots hmem
      | inr hmem =>
        have hname : ['.', '.'] = longName length := mem_singleton.mp hmem
        have hdot : '.' ∈ longName length := by
          rw [← hname]
          exact mem_cons_self
        exact absurd (mem_replicate.mp hdot).2 (by decide)
  -- the spelling, its normal form, and what is read back relative to the root
  obtain ⟨htrim, hsignificant, _⟩ := significantSegments_dotSlash hspelled_ne hspelled hend
  have hnormal := normalizeLockPath_dotSlash hspelled_ne hspelled hend hspelled_last
  have htraversal : ¬ hasParentTraversalSegment (trim ('.' :: '/' ::
      joinSegments (blankSegment rooted :: (parts ++ [longName length])))) = true := by
    rw [hasParentTraversalSegment_iff, hsignificant]
    exact hnodots
  have hsegments := segments_joinSegments hspelled_ne hspelled.slash
  have hjoin : joinSegments (blankSegment rooted :: (parts ++ [longName length])) =
      ' ' :: (if rooted then render true (parts ++ [longName length])
        else '.' :: '/' :: joinSegments (parts ++ [longName length])) := by
    obtain ⟨next, rest, hcons⟩ := exists_cons_of_ne_nil hne
    rw [hcons]
    cases rooted <;> rfl
  have hresolve : resolve cwd (joinSegments (blankSegment rooted ::
      (parts ++ [longName length]))) =
      cwd ++ (blankSegment rooted :: (parts ++ [longName length])) := by
    rw [resolve_plain _ _, hsegments]
    · rw [hjoin]
      intro hprefix
      obtain ⟨rest, hrest⟩ := hprefix
      cases hrest
    · rw [hsegments]
      intro part hpart
      exact ⟨(hspelled part hpart).1, (hspelled part hpart).2.1, fun heq =>
        hnodots (heq ▸ hpart)⟩
  have hagain : normalizeLockPath (joinSegments (blankSegment rooted ::
      (parts ++ [longName length]))) = render rooted (parts ++ [longName length]) := by
    rw [hjoin]
    cases rooted with
    | true =>
      have htrimmed : trim (render true (parts ++ [longName length])) =
          render true (parts ++ [longName length]) :=
        trim_eq_self_iff.mpr ⟨rfl, endsBlank_longName hclean hpos true⟩
      exact (normalizeLockPath_blank (cons_ne_nil _ _) htrimmed).trans
        (normalizeLockPath_render hne hparts htrimmed longName_not_wildcards)
    | false =>
      have hlast := endsBlank_longName hclean hpos false
      exact (normalizeLockPath_blank (cons_ne_nil _ _)
        (significantSegments_dotSlash hne hparts hlast).1).trans
        (normalizeLockPath_dotSlash hne hparts hlast longName_not_wildcards)
  have hjoin_ne : joinSegments (blankSegment rooted :: (parts ++ [longName length])) ≠ [] := by
    rw [hjoin]
    exact cons_ne_nil _ _
  refine ⟨'.' :: '/' :: joinSegments (blankSegment rooted :: (parts ++ [longName length])), ?_⟩
  have habsolute : isAbsolutePathLike ('.' :: '/' ::
      joinSegments (blankSegment rooted :: (parts ++ [longName length]))) = false := by
    simp [isAbsolutePathLike]
  rw [plainFor, hnormal, if_neg (not_or.mpr ⟨hjoin_ne, htraversal⟩), htrim, habsolute]
  simp only [false_eq_true, if_false]
  rw [hresolve, relative_append, if_neg hjoin_ne, hagain]

/-- Below everything that a path can be normalized to lies a path with a long last name. -/
theorem exists_below (host : MatchHost) (root : Option Directory) {rooted : Bool}
    (hclean : CleanSegments parts) (hpos : 0 < length) :
    ∃ file, plainFor host root file = render rooted (parts ++ [longName length]) := by
  have hparts : CleanSegments (parts ++ [longName length]) :=
    hclean.append (cleanSegments_longName hpos)
  have hne : parts ++ [longName length] ≠ [] := append_ne_nil_of_right_ne_nil _ (by simp)
  have hend : endsBlank (joinSegments (parts ++ [longName length])) = false :=
    endsBlank_longName hclean hpos false
  -- the plain spelling, behind "./" where it is relative
  have hspelled : ∃ file, normalizeLockPath file = render rooted (parts ++ [longName length]) ∧
      significantSegments file = parts ++ [longName length] := by
    cases rooted with
    | true =>
      have htrim : trim (render true (parts ++ [longName length])) =
          render true (parts ++ [longName length]) :=
        trim_eq_self_iff.mpr ⟨rfl, endsBlank_longName hclean hpos true⟩
      exact ⟨_, normalizeLockPath_render hne hparts htrim longName_not_wildcards,
        (significantSegments_render hne hparts htrim).1⟩
    | false =>
      exact ⟨_, normalizeLockPath_dotSlash hne hparts hend longName_not_wildcards,
        (significantSegments_dotSlash hne hparts hend).2.1⟩
  cases root with
  | none =>
    obtain ⟨file, hnormal, _⟩ := hspelled
    exact ⟨file, hnormal⟩
  | some cwd =>
    by_cases hdots : ['.', '.'] ∈ parts
    · obtain ⟨file, hnormal, hsignificant⟩ := hspelled
      have htraversal : hasParentTraversalSegment (trim file) = true := by
        rw [hasParentTraversalSegment_iff, hsignificant]
        exact mem_append_left _ hdots
      exact ⟨file, by rw [plainFor, if_pos (Or.inr htraversal), hnormal]⟩
    · exact exists_below_of_plain host cwd hclean hdots hpos

end

/-! ### The pattern of that place -/

def belowSegments (depth length : Nat) : List PathText :=
  List.replicate depth ['*'] ++ [longName length]

/-- One star for each segment of the scope path, and the long name. -/
def belowPattern (depth length : Nat) : PathText := joinSegments (belowSegments depth length)

def nameSource : Nat → Source
  | 0 => .empty
  | length + 1 => .append .question (nameSource length)

def belowSource (length : Nat) : Nat → Source
  | 0 => nameSource length
  | depth + 1 => .append .star (.append (.literal '/') (belowSource length depth))

def nameRegex (folding : CaseFolding) : Nat → PathRegex
  | 0 => .empty
  | length + 1 => .seq (.mark .question (notSlash folding)) (nameRegex folding length)

def belowRegex (folding : CaseFolding) (length : Nat) : Nat → PathRegex
  | 0 => nameRegex folding length
  | depth + 1 =>
    .seq (.mark .star (.star (notSlash folding)))
      (.seq (exactly folding '/') (belowRegex folding length depth))

theorem belowPattern_succ (depth length : Nat) :
    belowPattern (depth + 1) length = '*' :: '/' :: belowPattern depth length := by
  obtain ⟨next, rest, hcons⟩ := exists_cons_of_ne_nil
    (show belowSegments depth length ≠ [] from append_ne_nil_of_right_ne_nil _ (by simp))
  have hsucc : belowSegments (depth + 1) length = ['*'] :: belowSegments depth length := rfl
  rw [belowPattern, belowPattern, hsucc, hcons]
  rfl

theorem belowPattern_zero (length : Nat) : belowPattern 0 length = longName length := by
  simp [belowPattern, belowSegments, joinSegments]

theorem length_le_belowPattern (depth length : Nat) :
    length ≤ (belowPattern depth length).length := by
  induction depth with
  | zero => simp [belowPattern_zero, longName]
  | succ depth ih =>
    rw [belowPattern_succ]
    simp only [length_cons]
    omega

section Language

variable {folding : CaseFolding} {length : Nat}

theorem translate_longName (fuel : Nat) (previous : Option Char) (h : length ≤ fuel) :
    translate fuel previous (longName length) = nameSource length := by
  induction length generalizing fuel previous with
  | zero => cases fuel <;> rfl
  | succ length ih =>
    obtain ⟨fuel, rfl⟩ : ∃ less, fuel = less + 1 := ⟨fuel - 1, by omega⟩
    have hrest := ih fuel (some '?') (by omega)
    show Source.append .question (translate fuel (some '?') (longName length)) = _
    rw [hrest]
    rfl

theorem translate_belowPattern (depth fuel : Nat) (previous : Option Char)
    (h : (belowPattern depth length).length ≤ fuel) :
    translate fuel previous (belowPattern depth length) = belowSource length depth := by
  induction depth generalizing fuel previous with
  | zero =>
    rw [belowPattern_zero] at h ⊢
    apply translate_longName
    rwa [longName, length_replicate] at h
  | succ depth ih =>
    rw [belowPattern_succ] at h ⊢
    simp only [length_cons] at h
    obtain ⟨fuel, rfl⟩ : ∃ less, fuel = less + 2 := ⟨fuel - 2, by omega⟩
    have hrest := ih fuel (some '/') (by omega)
    show Source.append .star (.append (.literal '/')
      (translate fuel (some '/') (belowPattern depth length))) = _
    rw [hrest]
    rfl

theorem compile_belowSource (depth : Nat) :
    compile folding (belowSource length depth) = .ok (belowRegex folding length depth) := by
  induction depth with
  | zero =>
    induction length with
    | zero => rfl
    | succ length ih => exact compile_append.mpr ⟨_, _, rfl, ih, rfl⟩
  | succ depth ih =>
    exact compile_append.mpr ⟨_, _, rfl, compile_append.mpr ⟨_, _, rfl, ih, rfl⟩, rfl⟩

theorem notSlash_accepts {c : Char} (hc : c ≠ '/') :
    (!(folding.variants c).contains '/') = true := by
  have hnot : '/' ∉ folding.variants c := fun hmem => hc (folding.slash c hmem)
  simpa using hnot

theorem mem_nameRegex {name : PathText} (hname : '/' ∉ name) :
    name ∈ (nameRegex folding name.length).language := by
  induction name with
  | nil => exact Regex.mem_empty.mpr rfl
  | cons c rest ih =>
    obtain ⟨hc, hrest⟩ := not_or.mp (mt mem_cons.mpr hname)
    have hfirst : [c] ∈ (Regex.mark Wildcard.question (notSlash folding)).language :=
      ⟨c, notSlash_accepts fun heq => hc heq.symm, rfl⟩
    exact Regex.mem_seq.mpr ⟨[c], hfirst, rest, ih hrest, rfl⟩

/-- The pattern takes every path of its depth whose last name has the length. -/
theorem mem_belowRegex {parts : List PathText} {name : PathText}
    (hparts : ∀ part ∈ parts, '/' ∉ part) (hname : '/' ∉ name) :
    joinSegments (parts ++ [name]) ∈
      (belowRegex folding name.length parts.length).language := by
  induction parts with
  | nil =>
    have hjoin : joinSegments ([] ++ [name]) = name := by simp [joinSegments]
    rw [hjoin]
    exact mem_nameRegex hname
  | cons part rest ih =>
    have hrest := ih fun other hother => hparts other (mem_cons_of_mem part hother)
    obtain ⟨next, others, hcons⟩ := exists_cons_of_ne_nil
      (append_ne_nil_of_right_ne_nil rest (cons_ne_nil name []))
    have hjoin : joinSegments (part :: rest ++ [name]) =
        part ++ (['/'] ++ joinSegments (rest ++ [name])) := by
      rw [cons_append, hcons]
      simp [joinSegments]
    rw [hjoin]
    have hstar : part ∈ (Regex.mark Wildcard.star (.star (notSlash folding))).language := by
      refine Regex.mem_star_char.mpr fun c hc => notSlash_accepts fun heq => ?_
      exact hparts part mem_cons_self (heq ▸ hc)
    have hslash : ['/'] ∈ (exactly folding '/').language :=
      ⟨'/', by simpa using folding.self_mem '/', rfl⟩
    exact Regex.mem_seq.mpr ⟨part, hstar, _, Regex.mem_seq.mpr ⟨['/'], hslash, _, hrest, rfl⟩,
      rfl⟩

/-- The pattern takes no path shorter than its last name. -/
theorem length_le_of_mem_belowRegex {depth : Nat} {text : PathText}
    (h : text ∈ (belowRegex folding length depth).language) : length ≤ text.length := by
  induction depth generalizing text with
  | zero =>
    induction length generalizing text with
    | zero => exact Nat.zero_le _
    | succ length ih =>
      obtain ⟨first, hfirst, second, hsecond, rfl⟩ := Regex.mem_seq.mp h
      obtain ⟨c, _, rfl⟩ := hfirst
      have hrest := ih hsecond
      simp only [length_append, length_cons, length_nil]
      omega
  | succ depth ih =>
    obtain ⟨first, _, second, hsecond, rfl⟩ := Regex.mem_seq.mp h
    obtain ⟨slash, _, rest, hrest, rfl⟩ := Regex.mem_seq.mp hsecond
    have hrest := ih hrest
    simp only [length_append]
    omega

end Language

section

variable {host : MatchHost} {root : Option Directory} {depth length : Nat}

theorem cleanSegments_belowSegments (hpos : 0 < length) :
    CleanSegments (belowSegments depth length) := by
  have hstars : CleanSegments (List.replicate depth ['*']) := by
    intro part hpart
    rw [(mem_replicate.mp hpart).2]
    decide
  exact hstars.append (cleanSegments_longName hpos)

theorem belowSegments_ne_nil : belowSegments depth length ≠ [] :=
  append_ne_nil_of_right_ne_nil _ (by simp)

theorem trim_belowPattern (hpos : 0 < length) :
    trim (belowPattern (depth + 1) length) = belowPattern (depth + 1) length := by
  have hstars : CleanSegments (List.replicate (depth + 1) ['*']) := by
    intro part hpart
    rw [(mem_replicate.mp hpart).2]
    decide
  refine trim_eq_self_iff.mpr ⟨?_, endsBlank_longName hstars hpos false⟩
  rw [belowPattern_succ]
  rfl

theorem normalizeLockPath_belowPattern (hpos : 0 < length) :
    normalizeLockPath (belowPattern (depth + 1) length) = belowPattern (depth + 1) length :=
  @normalizeLockPath_render false _ belowSegments_ne_nil (cleanSegments_belowSegments hpos)
    (trim_belowPattern hpos) longName_not_wildcards

theorem belowPattern_not_descendants (hpos : 0 < length) :
    ¬ ['/', '*', '*'] <:+ belowPattern (depth + 1) length := by
  have hstars : List.replicate (depth + 1) ['*'] ≠ [] := by simp [replicate_succ]
  rw [belowPattern, belowSegments, joinSegments_concat hstars,
    wildcardSuffix_iff (cleanSegments_longName hpos _ mem_cons_self).2.2.1]
  intro heq
  have hmem : '*' ∈ longName length := by
    rw [heq]
    exact mem_cons_self
  exact absurd (mem_replicate.mp hmem).2 (by decide)

theorem globOf_belowPattern (hpos : 0 < length) :
    globOf (belowPattern (depth + 1) length) false = (belowPattern (depth + 1) length, false) := by
  rw [globOf, normalizeLockPath_belowPattern hpos, if_neg (belowPattern_not_descendants hpos)]

theorem globToRegex_belowPattern (folding : CaseFolding) (hpos : 0 < length) :
    globToRegex folding (belowPattern (depth + 1) length) false =
      .ok (belowRegex folding length (depth + 1)) := by
  refine globToRegex_eq_ok.mpr ⟨belowRegex folding length (depth + 1), ?_, ?_⟩
  · rw [globOf_belowPattern hpos, globSourceToRegex, translate_belowPattern _ _ _ (Nat.le_refl _)]
    exact compile_belowSource (depth + 1)
  · rw [globOf_belowPattern hpos]
    rfl

theorem plainFor_belowPattern (hpos : 0 < length) :
    plainFor host root (belowPattern (depth + 1) length) = belowPattern (depth + 1) length := by
  have hnormal : normalizeLockPath (belowPattern (depth + 1) length) =
      belowPattern (depth + 1) length := normalizeLockPath_belowPattern hpos
  have hne : belowPattern (depth + 1) length ≠ [] := by
    rw [belowPattern_succ]
    exact cons_ne_nil _ _
  have hclean : CleanSegments (belowSegments (depth + 1) length) :=
    cleanSegments_belowSegments hpos
  have hnodots : ['.', '.'] ∉ belowSegments (depth + 1) length := by
    intro hmem
    have hdot : '.' ∈ ['*'] ∨ '.' ∈ longName length := by
      cases mem_append.mp hmem with
      | inl hstars =>
        have heq : ['.', '.'] = ['*'] := (mem_replicate.mp hstars).2
        cases heq
      | inr hname =>
        rw [← mem_singleton.mp hname]
        exact Or.inr mem_cons_self
    cases hdot with
    | inl hstar => exact absurd hstar (by decide)
    | inr hname => exact absurd (mem_replicate.mp hname).2 (by decide)
  cases root with
  | none => exact hnormal
  | some cwd =>
    have hsignificant := @significantSegments_render false _ belowSegments_ne_nil hclean
      (trim_belowPattern hpos)
    have htraversal :
        ¬ hasParentTraversalSegment (trim (belowPattern (depth + 1) length)) = true := by
      rw [hasParentTraversalSegment_iff]
      exact fun hmem => hnodots (hsignificant.1 ▸ hmem)
    have habsolute : isAbsolutePathLike (belowPattern (depth + 1) length) = false := by
      rw [belowPattern_succ]
      simp [isAbsolutePathLike]
    have hsegments : segments (belowPattern (depth + 1) length) =
        belowSegments (depth + 1) length :=
      segments_joinSegments belowSegments_ne_nil hclean.slash
    have hresolve : resolve cwd (belowPattern (depth + 1) length) =
        cwd ++ belowSegments (depth + 1) length := by
      rw [resolve_plain _ _, hsegments]
      · rw [belowPattern_succ]
        intro hprefix
        obtain ⟨rest, hrest⟩ := hprefix
        cases hrest
      · rw [hsegments]
        exact fun part hpart => ⟨(hclean part hpart).1, (hclean part hpart).2.1,
          fun heq => hnodots (heq ▸ hpart)⟩
    rw [plainFor, hnormal, if_neg (not_or.mpr ⟨hne, htraversal⟩), trim_belowPattern hpos,
      habsolute]
    simp only [false_eq_true, if_false]
    rw [hresolve, relative_append]
    show normalizeLockPath (if belowPattern (depth + 1) length = [] then _
      else belowPattern (depth + 1) length) = _
    rw [if_neg hne, hnormal]

theorem fold_belowPattern {fold : PathText → PathText} (h : LawfulCase fold) :
    fold (belowPattern depth length) = belowPattern depth length := by
  rw [belowPattern, h.joinSegments]
  congr 1
  have hmarks : ∀ part ∈ belowSegments depth length, fold part = part := by
    intro part hpart
    apply h.marks
    cases mem_append.mp hpart with
    | inl hstars =>
      rw [(mem_replicate.mp hstars).2]
      exact fun c hc => Or.inl (mem_singleton.mp hc)
    | inr hname =>
      rw [mem_singleton.mp hname]
      exact fun c hc => Or.inr (mem_replicate.mp hc).2
  exact (map_congr_left hmarks).trans (map_id _)

theorem normalizeFor_belowPattern (hcase : LawfulCase host.platform.toLowerCase)
    (hpos : 0 < length) :
    normalizeFor host root (belowPattern (depth + 1) length) = belowPattern (depth + 1) length := by
  cases @normalizeFor_cases host root (belowPattern (depth + 1) length) with
  | inl hplain => rw [hplain, plainFor_belowPattern hpos]
  | inr hfolded =>
    rw [hfolded, plainFor_belowPattern hpos,
      fold_belowPattern (lawful_normalizeFilesystemCase hcase root)]

theorem comparePathCandidates_belowPattern (hcase : LawfulCase host.platform.toLowerCase)
    (hpos : 0 < length) :
    comparePathCandidates host root (belowPattern (depth + 1) length) =
      [belowPattern (depth + 1) length] := by
  have hplain : plainFor host root (belowPattern (depth + 1) length) =
      render false (belowSegments (depth + 1) length) := plainFor_belowPattern hpos
  rw [comparePathCandidates_render hcase (cleanSegments_belowSegments hpos)
    (Or.inl belowSegments_ne_nil) hplain, candidateText, if_neg belowSegments_ne_nil]
  exact congrArg (fun text => [text])
    (fold_belowPattern (lawful_normalizeFilesystemCase hcase root))

end

/-! ### What the pattern accepts and what it is compared with -/

section

variable {host : MatchHost} {root : Option Directory} {depth length : Nat}

theorem isWithinAnyPath_singleton {entry file normalized name : PathText}
    {accepts : PathText → Bool} (hentry : comparePathCandidates host root entry = [normalized])
    (hmatcher : allowedPathMatcher host root entry normalized = .ok accepts)
    (hfile : comparePathCandidates host root file = [name]) :
    isWithinAnyPath host root file [entry] = .ok (accepts name) := by
  have hmatchers : allowedPathMatchers host root [entry] = .ok [accepts] := by
    simp [allowedPathMatchers, scopeCandidates, hentry, hmatcher, mapM_cons, bind,
      Except.bind, pure, Except.pure]
  rw [isWithinAnyPath, hmatchers]
  simp [matchesAnyAllowed, hfile]

theorem accepts_of_matchesLiteral {entry normalized name : PathText} {accepts : PathText → Bool}
    (hmatcher : allowedPathMatcher host root entry normalized = .ok accepts)
    (h : matchesLiteral normalized name = true) : accepts name = true := by
  unfold allowedPathMatcher at hmatcher
  split at hmatcher
  · cases hglob : globToRegex host.folding normalized (endsInDescendants entry) with
    | error message =>
      rw [hglob] at hmatcher
      cases hmatcher
    | ok glob =>
      rw [hglob] at hmatcher
      obtain rfl := Except.ok.inj hmatcher
      simp [h]
  · obtain rfl := Except.ok.inj hmatcher
    exact h

theorem any_isPatternCharacter_belowPattern :
    (belowPattern (depth + 1) length).any isPatternCharacter = true := by
  rw [belowPattern_succ]
  rfl

theorem any_star_belowPattern :
    (belowPattern (depth + 1) length).any (fun c => c == '*' || c == '?') = true := by
  rw [belowPattern_succ]
  rfl

theorem allowedPathMatcher_belowPattern (hpos : 0 < length) :
    allowedPathMatcher host root (belowPattern (depth + 1) length)
        (belowPattern (depth + 1) length) =
      .ok fun file => matchesLiteral (belowPattern (depth + 1) length) file ||
        (belowRegex host.folding length (depth + 1)).test file := by
  have hglob : isGlob host root (belowPattern (depth + 1) length) = true := by
    have hexisting : namesExisting host root (belowPattern (depth + 1) length) = false := by
      cases root with
      | none => rfl
      | some cwd => simp only [namesExisting, any_star_belowPattern, Bool.not_true,
          Bool.false_and]
    rw [isGlob, any_isPatternCharacter_belowPattern, hexisting]
    rfl
  have hends : endsInDescendants (belowPattern (depth + 1) length) = false := by
    have hclean : CleanSegments (belowSegments (depth + 1) length) :=
      cleanSegments_belowSegments hpos
    have hforward : toForwardSlashes (belowPattern (depth + 1) length) =
        belowPattern (depth + 1) length :=
      toForwardSlashes_of_not_mem (@not_mem_render '\\' (by decide) false _ fun part hpart =>
        (hclean part hpart).2.2.2)
    have hstrip : stripTrailingSlashes (belowPattern (depth + 1) length) =
        belowPattern (depth + 1) length :=
      @stripTrailingSlashes_render false _ belowSegments_ne_nil fun part hpart =>
        ⟨hclean.ne_nil part hpart, hclean.slash part hpart⟩
    rw [endsInDescendants, hforward, hstrip, ← not_eq_true, isSuffixOf_iff_suffix]
    exact belowPattern_not_descendants hpos
  rw [allowedPathMatcher, if_pos hglob, hends, globToRegex_belowPattern _ hpos]
  rfl

theorem pathOverlapsSerialPattern_belowPattern (hcase : LawfulCase host.platform.toLowerCase)
    (hpos : 0 < length) {candidate : PathText}
    (hshort : (normalizeFor host root candidate).length < length) :
    pathOverlapsSerialPattern host root candidate (belowPattern (depth + 1) length) =
      .ok false := by
  have hglob : overlapsGlob host root (normalizeFor host root candidate)
      (belowPattern (depth + 1) length) = .ok false := by
    have htest : (belowRegex host.folding length (depth + 1)).test
        (normalizeFor host root candidate) = false := by
      rw [← not_eq_true, Regex.test_iff]
      intro hmem
      have hle := length_le_of_mem_belowRegex hmem
      omega
    have hdouble : ∀ count, includesDoubleStar (belowPattern count length) = false := by
      intro count
      induction count with
      | zero =>
        rw [belowPattern_zero]
        clear hshort hpos htest
        induction length with
        | zero => rfl
        | succ length ih => simpa [longName, replicate_succ, includesDoubleStar] using ih
      | succ count ih =>
        rw [belowPattern_succ]
        simpa [includesDoubleStar] using ih
    rw [overlapsGlob, globToRegex_belowPattern _ hpos]
    show Except.ok _ = Except.ok _
    rw [htest, hdouble, any_isPatternCharacter_belowPattern]
    rfl
  have hliteral : matchesLiteral (belowPattern (depth + 1) length)
      (normalizeFor host root candidate) = false := by
    rw [← not_eq_true, matchesLiteral_iff]
    have hlong := length_le_belowPattern (depth + 1) length
    intro hcases
    cases hcases with
    | inl heq =>
      rw [heq] at hshort
      omega
    | inr hprefix =>
      have hle := hprefix.length_le
      simp only [length_append] at hle
      omega
  simp only [pathOverlapsSerialPattern, normalizeFor_belowPattern hcase hpos]
  split
  · rfl
  · cases root with
    | none => exact hglob
    | some cwd =>
      have hambiguous : hasAmbiguousPathPattern host.toHost [belowPattern (depth + 1) length]
          cwd = true := by
        have hne : belowPattern (depth + 1) length ≠ [] := by
          rw [belowPattern_succ]
          exact cons_ne_nil _ _
        simp [hasAmbiguousPathPattern, normalizeList, hne, any_isPatternCharacter_belowPattern,
          any_star_belowPattern]
      simp only [hambiguous, hliteral, hglob]
      split <;> rfl

end

/-! ### Soundness -/

/-- The path is not the repository itself, which no scope path of a file spells. -/
def IsFile (host : MatchHost) (root : Option Directory) (file : PathText) : Prop :=
  ∀ name ∈ comparePathCandidates host root file, matchesLiteral ['.'] name = false

/-- Where the check reports nothing, no file accepted by an edit is accepted by a serial-only
pattern. -/
def AdmissionSound (host : MatchHost) (root : Option Directory)
    (allowedEdits serialOnly : List PathText) : Prop :=
  findSerialOnlyMatches host root allowedEdits serialOnly = .ok [] →
    ∀ file, IsFile host root file →
      (∃ edit ∈ allowedEdits, isWithinAnyPath host root file [edit] = .ok true) →
        ∀ pattern ∈ serialOnlyPaths ++ serialOnly,
          isWithinAnyPath host root file [pattern] ≠ .ok true

/-- The scope path takes some path other than the repository: it is not blank, not the
repository, and no glob that `RegExp` refuses. -/
def Grants (host : MatchHost) (root : Option Directory) (edit : PathText) : Prop :=
  ∃ normalized accepts, comparePathCandidates host root edit = [normalized] ∧
    normalized ≠ ['.'] ∧ allowedPathMatcher host root edit normalized = .ok accepts

/-- The scope path overlaps a built-in pattern, or the comparison throws. -/
def MeetsBuiltIn (host : MatchHost) (root : Option Directory) (edit : PathText) : Prop :=
  ∃ pattern ∈ mergePathLists [serialOnlyPaths, []],
    pathOverlapsSerialPattern host root edit pattern ≠ .ok false

section

variable {host : MatchHost} {root : Option Directory} {allowedEdits : List PathText}

/-- A scope path that grants something has a file below it and a pattern that takes that file
and overlaps no scope path as long as its last name. -/
theorem exists_unreported (hcase : LawfulCase host.platform.toLowerCase) {edit : PathText}
    (h : Grants host root edit) {length : Nat} (hpos : 0 < length) :
    ∃ file depth, IsFile host root file ∧ isWithinAnyPath host root file [edit] = .ok true ∧
      isWithinAnyPath host root file [belowPattern (depth + 1) length] = .ok true := by
  have hfold := lawful_normalizeFilesystemCase hcase root
  obtain ⟨normalized, accepts, hcandidate, hdot, hmatcher⟩ := h
  -- the plain form of the scope path is written from clean segments
  obtain ⟨rooted, parts, hclean, hne, hplain⟩ : ∃ rooted parts, CleanSegments parts ∧
      (parts ≠ [] ∨ rooted = true) ∧ plainFor host root edit = render rooted parts := by
    cases @plainFor_cases host root edit with
    | inl hnil =>
      exfalso
      have hnormal : normalizeFor host root edit = [] := by
        cases @normalizeFor_cases host root edit with
        | inl hplain => rw [hplain, hnil]
        | inr hfolded => rw [hfolded, hnil, hfold.nil]
      simp [comparePathCandidates, hnormal] at hcandidate
    | inr hcases =>
      cases hcases with
      | inl hplain =>
        exfalso
        apply hdot
        have hfoldDot : normalizeFilesystemCase host root ['.'] = ['.'] :=
          (hfold.dot ['.']).mpr rfl
        have hnormal : normalizeFor host root edit = ['.'] := by
          cases @normalizeFor_cases host root edit with
          | inl hsame => rw [hsame, hplain]
          | inr hfolded => rw [hfolded, hplain, hfoldDot]
        have htidy : stripTrailingSlashes (collapseSlashes (toForwardSlashes ['.'])) =
            ['.'] := by decide
        simp only [comparePathCandidates, hnormal, htidy, hfoldDot] at hcandidate
        simpa using hcandidate.symm
      | inr hrendered => exact hrendered
  have hnormalized : normalized = normalizeFilesystemCase host root (candidateText rooted parts) :=
    singleton_inj.mp
      (hcandidate.symm.trans (comparePathCandidates_render hcase hclean hne hplain))
  obtain ⟨file, hfile⟩ : ∃ file, plainFor host root file =
      render rooted (parts ++ [longName length]) := exists_below host root hclean hpos
  have hbelow : CleanSegments (parts ++ [longName length]) :=
    hclean.append (cleanSegments_longName hpos)
  have hbelow_ne : parts ++ [longName length] ≠ [] :=
    append_ne_nil_of_right_ne_nil _ (by simp)
  have hfoldName : normalizeFilesystemCase host root (longName length) = longName length :=
    hfold.marks _ fun c hc => Or.inr (mem_replicate.mp hc).2
  have hname := comparePathCandidates_render hcase hbelow (Or.inl hbelow_ne) hfile
  rw [candidateText, if_neg hbelow_ne] at hname
  have hmapped : CleanSegments (parts.map (normalizeFilesystemCase host root)) :=
    hfold.cleanSegments hclean
  -- the name of the file: below the scope path, and of the pattern's depth
  have hunder : normalizeFilesystemCase host root (render rooted (parts ++ [longName length])) =
      normalized ++ '/' :: longName length := by
    rw [render_concat hne, hfold.append_slash, hfoldName, hnormalized]
    rfl
  obtain ⟨above, habove, hdotless, hjoined⟩ : ∃ above : List PathText, above ≠ [] ∧
      (∀ part ∈ above, part ≠ ['.'] ∧ '/' ∉ part) ∧
      normalized ++ '/' :: longName length = joinSegments (above ++ [longName length]) := by
    rw [← hunder, hfold.render, map_append, map_singleton, hfoldName]
    cases rooted with
    | true =>
      refine ⟨[] :: parts.map (normalizeFilesystemCase host root), cons_ne_nil _ _, ?_, ?_⟩
      · intro part hpart
        cases mem_cons.mp hpart with
        | inl hnil =>
          rw [hnil]
          decide
        | inr hmem => exact ⟨(hmapped part hmem).2.1, (hmapped part hmem).2.2.1⟩
      · rw [cons_append, joinSegments_nil_cons
          (append_ne_nil_of_right_ne_nil _ (by simp))]
        rfl
    | false =>
      have hparts : parts ≠ [] := hne.resolve_right (by decide)
      exact ⟨parts.map (normalizeFilesystemCase host root),
        fun hmap => hparts (map_eq_nil_iff.mp hmap),
        fun part hpart => ⟨(hmapped part hpart).2.1, (hmapped part hpart).2.2.1⟩, rfl⟩
  rw [hunder] at hname
  obtain ⟨depth, hdepth⟩ : ∃ depth, above.length = depth + 1 :=
    ⟨above.length - 1, by have hlength := length_pos_iff.mpr habove; omega⟩
  refine ⟨file, depth, ?_, ?_, ?_⟩
  · intro name hmem
    rw [hname, mem_singleton] at hmem
    subst hmem
    rw [← not_eq_true, matchesLiteral_iff]
    have hlong : ∀ part ∈ above ++ [longName length], '/' ∉ part := by
      intro part hpart
      cases mem_append.mp hpart with
      | inl hmem => exact (hdotless part hmem).2
      | inr hmem => exact (cleanSegments_longName hpos part hmem).2.2.1
    have hsegments : segments (normalized ++ '/' :: longName length) =
        above ++ [longName length] := by
      rw [hjoined]
      exact segments_joinSegments (append_ne_nil_of_right_ne_nil _ (by simp)) hlong
    intro hcases
    cases hcases with
    | inl heq =>
      have hdotSegments : segments ['.'] = [['.']] := by decide
      rw [heq, hdotSegments] at hsegments
      have hlength := congrArg List.length hsegments
      simp [hdepth] at hlength
    | inr hprefix =>
      obtain ⟨rest, hrest⟩ := hprefix
      rw [← hrest] at hsegments
      have hhead : segments (['.'] ++ ['/'] ++ rest) = ['.'] :: segments rest :=
        segments_cons_of (by decide) (segments_slash rest)
      rw [hhead] at hsegments
      obtain ⟨first, later, rfl⟩ := exists_cons_of_ne_nil habove
      exact (hdotless first mem_cons_self).1 (List.cons.inj hsegments).1.symm
  · have haccepts : accepts (normalized ++ '/' :: longName length) = true := by
      apply accepts_of_matchesLiteral hmatcher
      exact matchesLiteral_iff.mpr (Or.inr ⟨longName length, by simp⟩)
    rw [isWithinAnyPath_singleton hcandidate hmatcher hname, haccepts]
  · have hmem : normalized ++ '/' :: longName length ∈
        (belowRegex host.folding length (depth + 1)).language := by
      have hlong : (longName length).length = length := length_replicate
      have hbelowMem := @mem_belowRegex host.folding above (longName length)
        (fun part hpart => (hdotless part hpart).2)
        (cleanSegments_longName hpos _ mem_cons_self).2.2.1
      rwa [hlong, hdepth, ← hjoined] at hbelowMem
    rw [isWithinAnyPath_singleton (comparePathCandidates_belowPattern hcase hpos)
      (allowedPathMatcher_belowPattern hpos) hname, Regex.test_iff.mpr hmem, Bool.or_true]

theorem not_accepts_of_not_grants {edit file : PathText} (h : ¬ Grants host root edit)
    (hfile : IsFile host root file) : isWithinAnyPath host root file [edit] ≠ .ok true := by
  intro haccepted
  unfold isWithinAnyPath allowedPathMatchers scopeCandidates at haccepted
  obtain ⟨matchers, hmatchers, haccepted⟩ := bind_ok.mp haccepted
  have haccepted : matchesAnyAllowed host root file matchers = true := Except.ok.inj haccepted
  obtain ⟨name, hname, hany⟩ := any_eq_true.mp haccepted
  obtain ⟨accepts, haccepts, hmatch⟩ := any_eq_true.mp hany
  cases hcandidates : comparePathCandidates host root edit with
  | nil =>
    simp only [flatMap_cons, hcandidates, map_nil, flatMap_nil, append_nil,
      mapM_nil] at hmatchers
    obtain rfl := Except.ok.inj hmatchers
    cases haccepts
  | cons normalized rest =>
    have hrest : rest = [] := by
      unfold comparePathCandidates at hcandidates
      simp only at hcandidates
      split at hcandidates
      · cases hcandidates
      · exact (List.cons.inj hcandidates).2.symm
    subst hrest
    simp only [flatMap_cons, hcandidates, map_cons, map_nil, flatMap_nil,
      append_nil, mapM_cons, mapM_nil] at hmatchers
    obtain ⟨matcher, hmatcher, hmatchers⟩ := bind_ok.mp hmatchers
    have hlist : matchers = [matcher] := (Except.ok.inj hmatchers).symm
    rw [hlist, mem_singleton] at haccepts
    subst haccepts
    by_cases hdot : normalized = ['.']
    · -- the repository itself, which spells no file
      rw [hdot] at hmatcher
      have hplain : allowedPathMatcher host root edit ['.'] = .ok (matchesLiteral ['.']) := rfl
      obtain rfl := Except.ok.inj (hmatcher.symm.trans hplain)
      rw [hfile name hname] at hmatch
      cases hmatch
    · exact h ⟨normalized, accepts, hcandidates, hdot, hmatcher⟩

private theorem exists_longer (values : List PathText) (size : PathText → Nat) :
    ∃ length, 0 < length ∧ ∀ value ∈ values, size value < length := by
  induction values with
  | nil => exact ⟨1, Nat.one_pos, nofun⟩
  | cons value rest ih =>
    obtain ⟨length, hpos, hrest⟩ := ih
    refine ⟨max length (size value + 1), by omega, fun other hother => ?_⟩
    cases mem_cons.mp hother with
    | inl heq =>
      rw [heq]
      omega
    | inr hmem =>
      have hlt := hrest other hmem
      omega

end

def asciiLowerCase (text : PathText) : PathText := text.map Char.toLower

/-- A character is left alone or becomes one of the letters from a to z. -/
private theorem toLower_cases (c : Char) :
    c.toLower = c ∨ (97 ≤ c.toLower.toNat ∧ c.toLower.toNat ≤ 122) := by
  by_cases hupper : 65 ≤ c.toNat ∧ c.toNat ≤ 90
  · right
    have hval : c.val ≥ 'A'.val ∧ c.val ≤ 'Z'.val := by
      exact hupper
    have hlower : c.toLower.toNat = c.toNat + 32 := by
      unfold Char.toLower
      rw [dif_pos hval]
      show (c.val + ('a'.val - 'A'.val)).toNat = c.val.toNat + 32
      have hle : c.val.toNat ≤ 90 := hupper.2
      have hstep : ('a'.val - 'A'.val).toNat = 32 := by decide
      rw [UInt32.toNat_add, hstep]
      omega
    omega
  · left
    unfold Char.toLower
    rw [dif_neg]
    intro hval
    apply hupper
    exact hval

variable {c : Char}

private theorem toLower_of_toNat (h : c.toNat < 65 ∨ 90 < c.toNat) : c.toLower = c := by
  unfold Char.toLower
  rw [dif_neg]
  intro hval
  have hbounds : 65 ≤ c.toNat ∧ c.toNat ≤ 90 := hval
  omega

/-- Only the character itself becomes a character that is no letter. -/
private theorem toLower_eq_iff {d : Char} (h : d.toNat < 65) : c.toLower = d ↔ c = d := by
  constructor
  · intro heq
    cases toLower_cases c with
    | inl hsame => rwa [hsame] at heq
    | inr hletter =>
      rw [heq] at hletter
      omega
  · intro heq
    rw [heq, toLower_of_toNat (Or.inl h)]

private theorem toLower_eq_backslash : c.toLower = '\\' ↔ c = '\\' := by
  constructor
  · intro heq
    cases toLower_cases c with
    | inl hsame => rwa [hsame] at heq
    | inr hletter =>
      rw [heq] at hletter
      exact absurd hletter (by decide)
  · intro heq
    rw [heq]
    decide

theorem lawful_asciiLowerCase : LawfulCase asciiLowerCase where
  append_slash := by
    have hslash : Char.toLower '/' = '/' := by decide
    simp [asciiLowerCase, hslash]
  idempotent := by
    simp [asciiLowerCase, Function.comp_def]
  slash := by
    intro text h hmem
    obtain ⟨c, hc, heq⟩ := mem_map.mp hmem
    exact h ((toLower_eq_iff (by decide)).mp heq ▸ hc)
  backslash := by
    intro text h hmem
    obtain ⟨c, hc, heq⟩ := mem_map.mp hmem
    exact h (toLower_eq_backslash.mp heq ▸ hc)
  ne_nil := fun text hne hnil => hne (map_eq_nil_iff.mp hnil)
  dot := by
    intro text
    constructor
    · intro h
      obtain ⟨c, rfl, hc⟩ := map_eq_singleton_iff.mp h
      rw [(toLower_eq_iff (by decide)).mp hc]
    · intro h
      rw [h]
      decide
  marks := by
    intro text h
    have hkeep : ∀ c ∈ text, c.toLower = c := by
      intro c hc
      cases h c hc with
      | inl hstar => rw [hstar]; decide
      | inr hmark => rw [hmark]; decide
    exact (map_congr_left hkeep).trans (map_id _)

/-- A machine whose file system ignores the case of names. -/
def insensitiveHost : MatchHost where
  platform := ⟨false, asciiLowerCase⟩
  view := ⟨[], fun _ => false, fun _ => false, fun _ _ => ""⟩
  ignoreCase := .exact

end AgentBridge.Globs
