import AgentBridge.Paths.Segments

/-!
# The normal form of a lock path, and when normalizing again changes it

`normalizeLockPath` writes the significant segments of the trimmed path back, less a final
"**" below a literal directory. It trims before it drops the leading "./" and the trailing
slashes, so a blank next to one of these comes to stand at an end of the result and the next
normalization trims it.
-/

namespace AgentBridge.Paths

open List Nat

def isSignificant (part : PathText) : Bool := part ≠ [] && part ≠ ['.']

/-- The segments of the trimmed path that are neither empty nor ".". -/
def significantSegments (value : PathText) : List PathText :=
  (segments (toForwardSlashes (trim value))).filter isSignificant

def isRooted (value : PathText) : Bool := (toForwardSlashes (trim value)).head? == some '/'

def render (root : Bool) (parts : List PathText) : PathText :=
  if root then '/' :: joinSegments parts else joinSegments parts

/-- The segments less a final "**", where it stands below a literal directory. -/
def literalDirectory (root : Bool) (parts : List PathText) : List PathText :=
  if parts.getLast? = some ['*', '*'] ∧ (root = true ∨ 1 < parts.length) ∧
      ¬ parts.dropLast.any (fun part => part.any isPatternCharacter) then
    parts.dropLast
  else parts

/-- The text inside `normalizeLockPath` before its trailing slashes are stripped. -/
def slashNormalized (raw : PathText) : PathText :=
  collapseSlashes (dropDotSegments false (stripLeadingDots
    (collapseSlashes (toForwardSlashes raw))))

variable {part : PathText}

theorem mem_literalDirectory {root : Bool} {parts : List PathText}
    (h : part ∈ literalDirectory root parts) : part ∈ parts := by
  unfold literalDirectory at h
  split at h
  · exact (dropLast_sublist parts).subset h
  · exact h

theorem joinSegments_concat {parts : List PathText} (hne : parts ≠ []) (last : PathText) :
    joinSegments (parts ++ [last]) = joinSegments parts ++ '/' :: last := by
  induction parts with
  | nil => exact absurd rfl hne
  | cons part rest ih =>
    cases rest with
    | nil => simp [joinSegments]
    | cons next others =>
      have hrest := ih (cons_ne_nil next others)
      simp only [joinSegments, cons_append, intercalate_cons_cons] at hrest ⊢
      rw [hrest]
      simp

theorem joinSegments_nil_cons {parts : List PathText} (hne : parts ≠ []) :
    joinSegments ([] :: parts) = '/' :: joinSegments parts := by
  obtain ⟨part, rest, rfl⟩ := exists_cons_of_ne_nil hne
  rfl

/-! ### The segments of the normalized text -/

private theorem rdropWhile_squeeze {parts : List PathText} (h : ∀ part ∈ parts, part ≠ [])
    (last : PathText) :
    (squeeze ((parts ++ [last]).filter (· ≠ ['.']))).rdropWhile (· = []) =
      (parts ++ [last]).filter isSignificant := by
  have hkeep : parts.filter (· ≠ ['.']) = parts.filter isSignificant := by
    apply filter_congr
    intro part hpart
    simp [isSignificant, h part hpart]
  have hne : ∀ part ∈ parts.filter isSignificant, part ≠ [] := fun part hpart =>
    h part (mem_of_mem_filter hpart)
  have hself : (parts.filter isSignificant).rdropWhile (· = []) = parts.filter isSignificant := by
    rw [rdropWhile_eq_self_iff]
    intro hnil
    simpa using hne _ (getLast_mem hnil)
  rw [filter_append, filter_append, hkeep]
  by_cases hdot : last = ['.']
  · simp only [hdot, ne_eq, not_true_eq_false, decide_false, Bool.false_eq_true,
      not_false_eq_true, filter_cons_of_neg, filter_nil, append_nil]
    rw [squeeze_of_ne_nil hne, hself]
    simp [isSignificant]
  · have hlast : [last].filter (· ≠ ['.']) = [last] := by simp [hdot]
    have hfilter : (parts.filter isSignificant).filter (· ≠ []) = parts.filter isSignificant := by
      rw [filter_eq_self]
      exact fun part hpart => decide_eq_true (hne part hpart)
    rw [hlast, squeeze_concat, hfilter]
    by_cases hnil : last = []
    · rw [rdropWhile_concat_pos _ _ _ (by simpa using hnil), hself]
      simp [hnil, isSignificant]
    · rw [rdropWhile_concat_neg _ _ _ (by simpa using hnil)]
      simp [hnil, hdot, isSignificant]

private theorem ne_nil_of_mem_filter (parts : List PathText) :
    ∀ part ∈ parts.filter (· ≠ []), part ≠ [] := by
  intro part hpart
  simpa using (mem_filter.mp hpart).2

private theorem filter_significant (front : List PathText) (last : PathText) :
    (front.filter (· ≠ []) ++ [last]).filter isSignificant =
      (front ++ [last]).filter isSignificant := by
  rw [filter_append, filter_append, filter_filter]
  congr 1
  apply filter_congr
  intro part _
  by_cases hnil : part = [] <;> simp [isSignificant, hnil]

private theorem filter_dropWhile_dots (parts : List PathText) :
    (parts.dropWhile (· = ['.'])).filter isSignificant = parts.filter isSignificant := by
  induction parts with
  | nil => rfl
  | cons part rest ih =>
    by_cases hdot : part = ['.']
    · simp [hdot, isSignificant, ih]
    · simp [hdot]

section

variable {raw first : PathText} {later : List PathText}

private theorem segments_slashNormalized_rooted
    (h : segments (toForwardSlashes raw) = [] :: later) (hlater : later ≠ []) :
    ∃ tail, segments (slashNormalized raw) = [] :: tail ∧
      tail.rdropWhile (· = []) = later.filter isSignificant := by
  obtain ⟨front, last, hconcat⟩ := eq_nil_or_concat later |>.resolve_left hlater
  rw [concat_eq_append] at hconcat
  subst hconcat
  have hskip : segments (stripLeadingDots (collapseSlashes (toForwardSlashes raw))) =
      [] :: (front.filter (· ≠ []) ++ [last]) := by
    rw [segments_stripLeadingDots, segments_collapseSlashes h, squeeze_concat]
    rfl
  have hdots := segments_dropDots hskip
  refine ⟨_, segments_collapseSlashes hdots, ?_⟩
  rw [rdropWhile_squeeze (ne_nil_of_mem_filter front) last, filter_significant]

private theorem segments_slashNormalized_relative
    (h : segments (toForwardSlashes raw) = first :: later) (hfirst : first ≠ []) :
    ∃ head tail, segments (slashNormalized raw) = head :: tail ∧
      ((head ≠ [] ∧ head :: tail.rdropWhile (· = []) = (first :: later).filter isSignificant) ∨
        ((first :: later).filter isSignificant = [] ∧ tail = [] ∧ (head = [] ∨ head = ['.']))) := by
  cases eq_nil_or_concat later with
  | inl hnil =>
    subst hnil
    have hskip : segments (stripLeadingDots (collapseSlashes (toForwardSlashes raw))) =
        [first] := by
      rw [segments_stripLeadingDots, segments_collapseSlashes h]
      simp [squeeze, skipDots]
    have hdots := segments_dropDots hskip
    refine ⟨_, _, segments_collapseSlashes hdots, ?_⟩
    by_cases hdot : first = ['.']
    · exact Or.inr ⟨by simp [isSignificant, hdot], rfl, Or.inr hdot⟩
    · exact Or.inl ⟨hfirst, by simp [isSignificant, hfirst, hdot, squeeze]⟩
  | inr hconcat =>
    obtain ⟨front, last, hconcat⟩ := hconcat
    rw [concat_eq_append] at hconcat
    subst hconcat
    have hfront : (first :: front).filter (· ≠ []) = first :: front.filter (· ≠ []) := by
      simp [hfirst]
    -- what is left after the leading "." segments
    have hskip : segments (stripLeadingDots (collapseSlashes (toForwardSlashes raw))) =
        ((first :: front).filter (· ≠ [])).dropWhile (· = ['.']) ++ [last] := by
      rw [segments_stripLeadingDots, segments_collapseSlashes h, squeeze_concat, hfront,
        ← skipDots_concat]
      rfl
    have hkept : (first :: (front ++ [last])).filter isSignificant =
        (((first :: front).filter (· ≠ [])).dropWhile (· = ['.']) ++ [last]).filter
          isSignificant := by
      rw [← cons_append, ← filter_significant, filter_append, filter_append,
        filter_dropWhile_dots]
    cases hdrop : ((first :: front).filter (· ≠ [])).dropWhile (· = ['.']) with
    | nil =>
      rw [hdrop, nil_append] at hskip hkept
      have hdots := segments_dropDots hskip
      refine ⟨_, _, segments_collapseSlashes hdots, ?_⟩
      rw [hkept]
      by_cases hlast : isSignificant last = true
      · refine Or.inl ⟨?_, ?_⟩
        · intro hnil
          simp [isSignificant, hnil] at hlast
        · simp [hlast, squeeze]
      · refine Or.inr ⟨by simp [hlast], rfl, ?_⟩
        simpa [isSignificant, or_iff_not_imp_left] using hlast
    | cons part rest =>
      have hmem : ∀ other ∈ part :: rest, other ≠ [] := by
        intro other hother
        rw [← hdrop] at hother
        exact ne_nil_of_mem_filter (first :: front) other
          ((dropWhile_suffix _).subset hother)
      have hpart : part ≠ ['.'] := by
        have hhead := List.head?_dropWhile_not (· = ['.']) ((first :: front).filter (· ≠ []))
        rw [hdrop, List.head?_cons] at hhead
        simpa using hhead
      rw [hdrop, cons_append] at hskip
      have hdots := segments_dropDots hskip
      refine ⟨_, _, segments_collapseSlashes hdots, Or.inl ⟨hmem part mem_cons_self, ?_⟩⟩
      rw [hkept, hdrop, rdropWhile_squeeze
        (fun other hother => hmem other (mem_cons_of_mem part hother)) last,
        cons_append, filter_cons_of_pos]
      simp [isSignificant, hmem part mem_cons_self, hpart]

end

theorem joinSegments_eq_nil {parts : List PathText} (hne : parts ≠ [])
    (h : ∀ part ∈ parts, '/' ∉ part) : joinSegments parts = [] ↔ parts = [[]] := by
  constructor
  · intro hjoin
    have hsegments := segments_joinSegments hne h
    rw [hjoin, segments_nil] at hsegments
    exact hsegments.symm
  · intro hparts
    rw [hparts]
    rfl

variable {value : PathText}

theorem mem_significantSegments (h : part ∈ significantSegments value) :
    part ≠ [] ∧ part ≠ ['.'] ∧ '/' ∉ part := by
  have hmem := mem_filter.mp h
  have hsignificant : ¬ part = [] ∧ ¬ part = ['.'] := by simpa [isSignificant] using hmem.2
  exact ⟨hsignificant.1, hsignificant.2, slash_not_mem_of_mem_segments hmem.1⟩

/-- What the suffix rule of `normalizeLockPath` makes of a text without trailing slashes. -/
def dropWildcardSuffix (stripped : PathText) : PathText :=
  if ['/', '*', '*'] <:+ stripped ∧ ¬ (stripped.rdrop 3).any isPatternCharacter then
    stripTrailingSlashes (stripped.rdrop 3)
  else stripped

theorem normalizeLockPath_eq (h : trim value ≠ []) :
    normalizeLockPath value =
      if dropWildcardSuffix (stripTrailingSlashes (slashNormalized (trim value))) ≠ [] then
        dropWildcardSuffix (stripTrailingSlashes (slashNormalized (trim value)))
      else if ['/'] <+: slashNormalized (trim value) then ['/'] else [] := by
  unfold normalizeLockPath
  rw [if_neg h]
  rfl

/-- A text ends with "/**" when its last segment is "**" and not its first. -/
theorem wildcardSuffix_iff {front : PathText} {last : PathText} (h : '/' ∉ last) :
    ['/', '*', '*'] <:+ front ++ '/' :: last ↔ last = ['*', '*'] := by
  constructor
  · intro ⟨before, hbefore⟩
    have hsegments : segments (before ++ '/' :: ['*', '*']) = segments (front ++ '/' :: last) :=
      congrArg segments hbefore
    rw [segments, segments, splitOn_append_cons_self, splitOn_append_cons_self,
      splitOn_eq_singleton (show '/' ∉ ['*', '*'] by decide),
      splitOn_eq_singleton h] at hsegments
    exact (append_inj_right' hsegments rfl |> List.cons.inj).1.symm
  · intro hlast
    rw [hlast]
    exact suffix_append front ['/', '*', '*']

theorem any_joinSegments {test : Char → Bool} (hslash : test '/' = false)
    (parts : List PathText) :
    (joinSegments parts).any test = parts.any (fun part => part.any test) := by
  induction parts with
  | nil => rfl
  | cons part rest ih =>
    cases rest with
    | nil => simp [joinSegments]
    | cons next others =>
      have hrest : ([ '/' ].intercalate (next :: others)).any test =
          (next :: others).any (fun part => part.any test) := ih
      simp only [joinSegments, intercalate_cons_cons, any_append, any_cons,
        any_nil, hslash, Bool.or_false] at hrest ⊢
      rw [hrest]

theorem any_render {test : Char → Bool} (hslash : test '/' = false) (root : Bool)
    (parts : List PathText) :
    (render root parts).any test = parts.any (fun part => part.any test) := by
  cases root
  · exact any_joinSegments hslash parts
  · simp [render, hslash, any_joinSegments hslash parts]

/-- A character that no segment has, other than the slash, is not in the text. -/
theorem not_mem_render {c : Char} (hslash : c ≠ '/') {root : Bool} {parts : List PathText}
    (h : ∀ part ∈ parts, c ∉ part) : c ∉ render root parts := by
  intro hmem
  have hany : (render root parts).any (· == c) = true := any_eq_true.mpr ⟨c, hmem, by simp⟩
  rw [any_render (by simpa using hslash.symm), any_eq_true] at hany
  obtain ⟨part, hpart, hpartAny⟩ := hany
  obtain ⟨d, hd, hdeq⟩ := any_eq_true.mp hpartAny
  exact h part hpart ((beq_iff_eq.mp hdeq) ▸ hd)

theorem toForwardSlashes_of_not_mem {text : PathText} (h : '\\' ∉ text) :
    toForwardSlashes text = text := by
  have hkeep : ∀ c ∈ text, (if c == '\\' then '/' else c) = c := by
    intro c hc
    apply if_neg
    intro heq
    exact h (beq_iff_eq.mp heq ▸ hc)
  exact (map_congr_left hkeep).trans (map_id text)

section

variable {root : Bool} {parts : List PathText}

theorem render_concat (hne : parts ≠ [] ∨ root = true) (last : PathText) :
    render root (parts ++ [last]) =
      (if parts = [] then [] else render root parts) ++ '/' :: last := by
  by_cases hparts : parts = []
  · have hroot : root = true := hne.resolve_left fun h => h hparts
    simp [hparts, hroot, render, joinSegments]
  · rw [if_neg hparts, render, render, joinSegments_concat hparts]
    cases root <;> simp

theorem stripTrailingSlashes_render (hne : parts ≠ [])
    (h : ∀ part ∈ parts, part ≠ [] ∧ '/' ∉ part) :
    stripTrailingSlashes (render root parts) = render root parts := by
  have hslash : ∀ part ∈ parts, '/' ∉ part := fun part hpart => (h part hpart).2
  have hself : parts.rdropWhile (· = []) = parts := by
    rw [rdropWhile_eq_self_iff]
    intro hnil
    simpa using (h _ (getLast_mem hnil)).1
  apply segments_injective
  cases root with
  | true =>
    have hsegments : segments (render true parts) = [] :: parts := by
      simp [render, segments_joinSegments hne hslash]
    rw [segments_stripTrailingSlashes hsegments, hself, hsegments]
  | false =>
    have hsegments : segments (render false parts) = parts := segments_joinSegments hne hslash
    obtain ⟨part, rest, rfl⟩ := exists_cons_of_ne_nil hne
    rw [segments_stripTrailingSlashes hsegments, hsegments]
    congr 1
    rw [rdropWhile_eq_self_iff]
    intro hnil
    simpa using (h _ (mem_cons_of_mem part (getLast_mem hnil))).1

theorem dropWildcardSuffix_render (hne : parts ≠ [])
    (h : ∀ part ∈ parts, part ≠ [] ∧ '/' ∉ part) :
    dropWildcardSuffix (render root parts) =
      if literalDirectory root parts = [] then []
      else render root (literalDirectory root parts) := by
  obtain ⟨front, last, hconcat⟩ := eq_nil_or_concat parts |>.resolve_left hne
  rw [concat_eq_append] at hconcat
  subst hconcat
  have hlast := h last (mem_append_right _ mem_cons_self)
  by_cases hshape : front ≠ [] ∨ root = true
  · have hrender := render_concat hshape last
    have hcount : root = true ∨ 1 < (front ++ [last]).length := by
      cases hshape with
      | inl hfront =>
        have hpos := length_pos_iff.mpr hfront
        simp only [length_append, length_cons, length_nil]
        omega
      | inr hroot => exact Or.inl hroot
    have hany : (if front = [] then [] else render root front).any isPatternCharacter =
        front.any (fun part => part.any isPatternCharacter) := by
      by_cases hfront : front = []
      · simp [hfront]
      · rw [if_neg hfront, any_render (by decide)]
    by_cases hwild : last = ['*', '*']
    · have hdrop : ((if front = [] then [] else render root front) ++ '/' :: last).rdrop 3 =
          if front = [] then [] else render root front := by
        simp [hwild, List.rdrop]
      rw [dropWildcardSuffix, hrender, hdrop, hany]
      have hsuffix : ['/', '*', '*'] <:+
          (if front = [] then [] else render root front) ++ '/' :: last :=
        (wildcardSuffix_iff hlast.2).mpr hwild
      by_cases hpattern : front.any (fun part => part.any isPatternCharacter) = true
      · have hliteral : literalDirectory root (front ++ [last]) = front ++ [last] := by
          simp [literalDirectory, hpattern]
        rw [if_neg (fun hboth => hboth.2 hpattern), hliteral, if_neg hne, hrender]
      · have hliteral : literalDirectory root (front ++ [last]) = front := by
          rw [literalDirectory, if_pos]
          · simp
          · exact ⟨by simp [hwild], hcount, by simpa using hpattern⟩
        rw [if_pos ⟨hsuffix, hpattern⟩, hliteral]
        by_cases hfront : front = []
        · simp [hfront, stripTrailingSlashes]
        · rw [if_neg hfront, stripTrailingSlashes_render hfront
            fun part hpart => h part (mem_append_left _ hpart)]
    · have hliteral : literalDirectory root (front ++ [last]) = front ++ [last] := by
        simp [literalDirectory, hwild]
      rw [hliteral, if_neg hne, dropWildcardSuffix, hrender, if_neg]
      exact fun hboth => hwild ((wildcardSuffix_iff hlast.2).mp hboth.1)
  · -- one relative segment holds no slash
    obtain ⟨hfront, hroot⟩ := not_or.mp hshape
    rw [not_not] at hfront
    have hliteral : literalDirectory root (front ++ [last]) = front ++ [last] := by
      simp [literalDirectory, hfront, hroot]
    have hno : ¬ ['/', '*', '*'] <:+ last := fun hsuffix =>
      hlast.2 (hsuffix.subset mem_cons_self)
    rw [hliteral, if_neg hne, dropWildcardSuffix, if_neg]
    simpa [hfront, hroot, render, joinSegments] using fun hsuffix => absurd hsuffix hno

end

/-! ### The normal form -/

theorem trim_ne_nil_of_significant (h : significantSegments value ≠ []) : trim value ≠ [] := by
  intro hnil
  apply h
  simp [significantSegments, hnil, toForwardSlashes, isSignificant]

theorem normalizeLockPath_of_significant (h : significantSegments value ≠ []) :
    normalizeLockPath value =
      render (isRooted value) (literalDirectory (isRooted value) (significantSegments value)) := by
  have hparts : ∀ part ∈ significantSegments value, part ≠ [] ∧ '/' ∉ part := fun part hpart =>
    ⟨(mem_significantSegments hpart).1, (mem_significantSegments hpart).2.2⟩
  have hslash : ∀ part ∈ significantSegments value, '/' ∉ part := fun part hpart =>
    (hparts part hpart).2
  obtain ⟨first, later, hsegments⟩ :=
    exists_cons_of_ne_nil (segments_ne_nil (toForwardSlashes (trim value)))
  have hsignificant : significantSegments value = (first :: later).filter isSignificant := by
    rw [significantSegments, hsegments]
  have hstripped : stripTrailingSlashes (slashNormalized (trim value)) =
        render (isRooted value) (significantSegments value) ∧
      (isRooted value = true → ['/'] <+: slashNormalized (trim value)) := by
    by_cases hfirst : first = []
    · subst hfirst
      have hlater : later ≠ [] := by
        intro hnil
        rw [hnil] at hsignificant
        exact h (hsignificant.trans (by decide))
      have hroot : isRooted value = true := by
        simp [isRooted, (head?_eq_slash hsegments).mpr ⟨rfl, hlater⟩]
      obtain ⟨tail, htail, hdrop⟩ := segments_slashNormalized_rooted hsegments hlater
      have hkept : significantSegments value = later.filter isSignificant := by
        rw [hsignificant]
        simp [isSignificant]
      refine ⟨?_, fun _ => ?_⟩
      · apply segments_injective
        rw [segments_stripTrailingSlashes htail, hdrop, hroot, ← hkept]
        simp [render, segments_joinSegments h hslash]
      · have htailne : tail ≠ [] := by
          intro hnil
          rw [hnil] at hdrop
          exact h (hkept.trans hdrop.symm)
        have hhead := (head?_eq_slash htail).mpr ⟨rfl, htailne⟩
        obtain ⟨rest, hrest⟩ := List.head?_eq_some_iff.mp hhead
        rw [hrest]
        exact List.prefix_append ['/'] rest
    · have hroot : isRooted value = false := by
        have hhead := mt (head?_eq_slash hsegments).mp fun hboth => hfirst hboth.1
        simpa [isRooted] using hhead
      obtain ⟨head, tail, htail, hcase⟩ := segments_slashNormalized_relative hsegments hfirst
      refine ⟨?_, fun htrue => absurd (hroot.symm.trans htrue) (by decide)⟩
      cases hcase with
      | inl hcase =>
        apply segments_injective
        rw [segments_stripTrailingSlashes htail, hcase.2, ← hsignificant, hroot]
        exact (segments_joinSegments h hslash).symm
      | inr hcase => exact absurd (hsignificant.trans hcase.1) h
  rw [normalizeLockPath_eq (trim_ne_nil_of_significant h), hstripped.1,
    dropWildcardSuffix_render h hparts]
  by_cases hliteral : literalDirectory (isRooted value) (significantSegments value) = []
  · -- only "/**" leaves no segment, and it stands for the root
    have hroot : isRooted value = true := by
      have hcondition : significantSegments value ≠ literalDirectory (isRooted value)
          (significantSegments value) := by
        rw [hliteral]
        exact h
      unfold literalDirectory at hliteral hcondition
      split at hliteral
      · rename_i hdrop
        have hlength : (significantSegments value).length ≤ 1 := by
          have hlen := congrArg List.length hliteral
          simp only [length_dropLast, length_nil] at hlen
          omega
        exact hdrop.2.1.resolve_right (by omega)
      · exact absurd hliteral h
    have hprefix := hstripped.2 hroot
    rw [hroot] at hliteral
    simp [hliteral, hroot, render, joinSegments, hprefix]
  · have hne : render (isRooted value)
        (literalDirectory (isRooted value) (significantSegments value)) ≠ [] := by
      have hsub : ∀ part ∈ literalDirectory (isRooted value) (significantSegments value),
          part ∈ significantSegments value := fun part => mem_literalDirectory
      cases hroot : isRooted value with
      | true => exact cons_ne_nil _ _
      | false =>
        intro hnil
        rw [hroot] at hliteral hsub
        have hempty := (joinSegments_eq_nil hliteral
          (fun part hpart => hslash part (hsub part hpart))).mp hnil
        rw [hempty] at hsub
        exact (hparts [] (hsub [] mem_cons_self)).1 rfl
    simp only [if_neg hliteral, if_pos hne]

theorem normalizeLockPath_of_not_significant (h : significantSegments value = []) :
    normalizeLockPath value = [] ∨ normalizeLockPath value = ['/'] ∨
      normalizeLockPath value = ['.'] := by
  by_cases htrim : trim value = []
  · left
    simp [normalizeLockPath, htrim]
  obtain ⟨first, later, hsegments⟩ :=
    exists_cons_of_ne_nil (segments_ne_nil (toForwardSlashes (trim value)))
  have hsignificant : (first :: later).filter isSignificant = [] := by
    rw [← hsegments]
    exact h
  have hstripped : stripTrailingSlashes (slashNormalized (trim value)) = [] ∨
      stripTrailingSlashes (slashNormalized (trim value)) = ['.'] := by
    by_cases hfirst : first = []
    · subst hfirst
      have hlater : later ≠ [] := by
        intro hnil
        have htext := joinSegments_segments (toForwardSlashes (trim value))
        rw [hsegments, hnil] at htext
        exact htrim (map_eq_nil_iff.mp htext.symm)
      obtain ⟨tail, htail, hdrop⟩ := segments_slashNormalized_rooted hsegments hlater
      left
      apply segments_injective
      rw [segments_stripTrailingSlashes htail, hdrop]
      simpa [isSignificant] using hsignificant
    · obtain ⟨head, tail, htail, hcase⟩ := segments_slashNormalized_relative hsegments hfirst
      cases hcase with
      | inl hcase => exact absurd (hcase.2.trans hsignificant) (cons_ne_nil _ _)
      | inr hcase =>
        obtain ⟨_, rfl, hhead⟩ := hcase
        have hself := segments_stripTrailingSlashes htail
        cases hhead with
        | inl hnil =>
          left
          apply segments_injective
          rw [hself, hnil]
          rfl
        | inr hdot =>
          right
          apply segments_injective
          rw [hself, hdot]
          rfl
  rw [normalizeLockPath_eq htrim]
  cases hstripped with
  | inl hnil =>
    rw [hnil]
    by_cases hroot : ['/'] <+: slashNormalized (trim value)
    · exact Or.inr (Or.inl (by simp [dropWildcardSuffix, hroot]))
    · exact Or.inl (by simp [dropWildcardSuffix, hroot])
  | inr hdot =>
    right
    right
    rw [hdot]
    rfl

/-! ### Normalizing again -/

def startsBlank (text : PathText) : Bool := text.head?.any isWhitespace

def endsBlank (text : PathText) : Bool := text.getLast?.any isWhitespace

/-- The segments that the normal form is written from. -/
def keptSegments (value : PathText) : List PathText :=
  literalDirectory (isRooted value) (significantSegments value)

/-- A blank stands next to the dropped "./" of a relative path or to what is dropped at the
end. -/
def exposesBlank (value : PathText) : Bool :=
  (!isRooted value && (keptSegments value).head?.any startsBlank) ||
    (keptSegments value).getLast?.any endsBlank

theorem trim_eq_self_iff {text : PathText} :
    trim text = text ↔ startsBlank text = false ∧ endsBlank text = false := by
  constructor
  · intro h
    have hhead : startsBlank text = false := by
      have hnot := List.head?_dropWhile_not isWhitespace (text.rdropWhile isWhitespace)
      have hdrop : (text.rdropWhile isWhitespace).dropWhile isWhitespace = text := h
      rw [hdrop] at hnot
      cases htext : text with
      | nil => rfl
      | cons c rest => simpa [startsBlank, htext] using hnot
    refine ⟨hhead, ?_⟩
    have hlength : text.length ≤ (text.rdropWhile isWhitespace).length := by
      have hsuffix : (text.rdropWhile isWhitespace).dropWhile isWhitespace <:+
          text.rdropWhile isWhitespace := dropWhile_suffix isWhitespace
      have hle := hsuffix.length_le
      have heq := congrArg List.length h
      simp only [trim] at heq
      omega
    have hself : text.rdropWhile isWhitespace = text :=
      (List.rdropWhile_prefix isWhitespace text).eq_of_length_le hlength
    rw [rdropWhile_eq_self_iff] at hself
    cases eq_nil_or_concat text with
    | inl hnil => simp [endsBlank, hnil]
    | inr hconcat =>
      obtain ⟨front, last, rfl⟩ := hconcat
      rw [concat_eq_append] at hself ⊢
      have hlast := hself (by simp)
      simpa [endsBlank] using hlast
  · intro ⟨hhead, hlast⟩
    have hright : text.rdropWhile isWhitespace = text := by
      rw [rdropWhile_eq_self_iff]
      intro hne
      simpa [endsBlank, List.getLast?_eq_some_getLast hne] using hlast
    rw [trim, hright]
    cases text with
    | nil => rfl
    | cons c rest => exact dropWhile_cons_of_neg (by simpa [startsBlank] using hhead)

theorem collapseSlashes_length_le (text : PathText) :
    (collapseSlashes text).length ≤ text.length := by
  fun_induction collapseSlashes text with
  | case1 => exact le_refl 0
  | case2 c rest _ ih => exact le_succ_of_le ih
  | case3 c rest _ ih => exact succ_le_succ ih

theorem stripLeadingDots_length_le (text : PathText) :
    (stripLeadingDots text).length ≤ text.length := by
  fun_induction stripLeadingDots text with
  | case1 rest ih =>
    simp only [length_cons]
    omega
  | case2 => exact le_refl _

theorem dropDotSegments_length_le (skip : Bool) (text : PathText) :
    (dropDotSegments skip text).length ≤ text.length := by
  fun_induction dropDotSegments skip text with
  | case1 => exact le_refl 0
  | case2 c rest ih => exact le_succ_of_le ih
  | case3 c rest _ ih => exact le_succ_of_le ih
  | case4 c rest _ ih => exact succ_le_succ ih

theorem slashNormalized_length_le (raw : PathText) :
    (slashNormalized raw).length ≤ raw.length :=
  calc (slashNormalized raw).length
      ≤ (stripLeadingDots (collapseSlashes (toForwardSlashes raw))).length :=
        (collapseSlashes_length_le _).trans (dropDotSegments_length_le false _)
    _ ≤ (toForwardSlashes raw).length :=
        (stripLeadingDots_length_le _).trans (collapseSlashes_length_le _)
    _ = raw.length := length_map _

theorem dropWildcardSuffix_length_le (stripped : PathText) :
    (dropWildcardSuffix stripped).length ≤ stripped.length := by
  unfold dropWildcardSuffix
  split
  · have hstrip := (List.rdropWhile_prefix (· == '/') (stripped.rdrop 3)).length_le
    have hdrop : (stripped.rdrop 3).length ≤ stripped.length := by simp [List.rdrop]
    exact hstrip.trans hdrop
  · exact le_refl _

theorem normalizeLockPath_length_le (value : PathText) :
    (normalizeLockPath value).length ≤ (trim value).length := by
  by_cases htrim : trim value = []
  · simp [normalizeLockPath, htrim]
  have hslash := slashNormalized_length_le (trim value)
  rw [normalizeLockPath_eq htrim]
  split
  · have hdrop := dropWildcardSuffix_length_le
      (stripTrailingSlashes (slashNormalized (trim value)))
    have hstrip := (List.rdropWhile_prefix (· == '/') (slashNormalized (trim value))).length_le
    exact (hdrop.trans hstrip).trans hslash
  · split
    · rename_i hprefix
      exact hprefix.length_le.trans hslash
    · exact zero_le _

theorem literalDirectory_idempotent (root : Bool) (parts : List PathText) :
    literalDirectory root (literalDirectory root parts) = literalDirectory root parts := by
  by_cases hdrop : parts.getLast? = some ['*', '*'] ∧ (root = true ∨ 1 < parts.length) ∧
      ¬ parts.dropLast.any (fun part => part.any isPatternCharacter)
  · have hliteral : literalDirectory root parts = parts.dropLast := if_pos hdrop
    have hlast : parts.dropLast.getLast? ≠ some ['*', '*'] := by
      intro hlast
      apply hdrop.2.2
      rw [any_eq_true]
      exact ⟨['*', '*'], mem_of_getLast? hlast, by decide⟩
    rw [hliteral, literalDirectory, if_neg fun hagain => hlast hagain.1]
  · have hliteral : literalDirectory root parts = parts := if_neg hdrop
    rw [hliteral, hliteral]

section Rendered

variable {root : Bool} {parts : List PathText}

theorem segments_render (hne : parts ≠ []) (h : ∀ part ∈ parts, '/' ∉ part) :
    segments (render root parts) = if root then [] :: parts else parts := by
  cases root <;> simp [render, segments_joinSegments hne h]

theorem startsBlank_render (h : ∀ part ∈ parts, part ≠ []) :
    startsBlank (render root parts) = (!root && parts.head?.any startsBlank) := by
  cases root with
  | true => rfl
  | false =>
    cases parts with
    | nil => rfl
    | cons part rest =>
      obtain ⟨c, later, rfl⟩ := exists_cons_of_ne_nil (h part mem_cons_self)
      cases rest <;> simp [render, joinSegments, startsBlank]

theorem endsBlank_render (h : ∀ part ∈ parts, part ≠ []) :
    endsBlank (render root parts) = parts.getLast?.any endsBlank := by
  cases eq_nil_or_concat parts with
  | inl hnil => cases root <;> simp [hnil, render, joinSegments, endsBlank, isWhitespace]
  | inr hconcat =>
    obtain ⟨front, last, hconcat⟩ := hconcat
    rw [concat_eq_append] at hconcat
    subst hconcat
    have hlast := h last (mem_append_right _ mem_cons_self)
    have hjoin : (joinSegments (front ++ [last])).getLast? = last.getLast? := by
      by_cases hfront : front = []
      · simp [hfront, joinSegments]
      · obtain ⟨c, later, rfl⟩ := exists_cons_of_ne_nil hlast
        simp [joinSegments_concat hfront, List.getLast?_append, List.getLast?_cons]
    have hrender : (render root (front ++ [last])).getLast? = last.getLast? := by
      cases root with
      | false => exact hjoin
      | true =>
        have hne : joinSegments (front ++ [last]) ≠ [] := by
          intro hnil
          rw [hnil] at hjoin
          exact hlast (List.getLast?_eq_none_iff.mp hjoin.symm)
        obtain ⟨c, later, hcons⟩ := exists_cons_of_ne_nil hne
        rw [hcons] at hjoin
        simp [render, hcons, ← hjoin]
    simp [endsBlank, hrender]

theorem significantSegments_render (hne : parts ≠ [])
    (h : ∀ part ∈ parts, part ≠ [] ∧ part ≠ ['.'] ∧ '/' ∉ part ∧ '\\' ∉ part)
    (htrim : trim (render root parts) = render root parts) :
    significantSegments (render root parts) = parts ∧ isRooted (render root parts) = root := by
  have hslash : ∀ part ∈ parts, '/' ∉ part := fun part hpart => (h part hpart).2.2.1
  have hforward : toForwardSlashes (render root parts) = render root parts :=
    toForwardSlashes_of_not_mem (not_mem_render (by decide) fun part hpart =>
      (h part hpart).2.2.2)
  have hfilter : parts.filter isSignificant = parts := by
    rw [filter_eq_self]
    intro part hpart
    simp [isSignificant, (h part hpart).1, (h part hpart).2.1]
  constructor
  · rw [significantSegments, htrim, hforward, segments_render hne hslash]
    cases root with
    | false => exact hfilter
    | true => simpa [isSignificant] using hfilter
  · rw [isRooted, htrim, hforward]
    cases root with
    | true => rfl
    | false =>
      obtain ⟨part, rest, rfl⟩ := exists_cons_of_ne_nil hne
      have hhead := mt (head?_eq_slash (@segments_render false _ hne hslash)).mp
        fun hboth => (h part mem_cons_self).1 hboth.1
      simpa using hhead

end Rendered

theorem backslash_not_mem (h : part ∈ significantSegments value) : '\\' ∉ part := by
  intro hback
  have hpart : part ∈ segments (toForwardSlashes (trim value)) := mem_of_mem_filter h
  have hany : (joinSegments (segments (toForwardSlashes (trim value)))).any (· == '\\') = true := by
    rw [any_joinSegments (by decide), any_eq_true]
    exact ⟨part, hpart, any_eq_true.mpr ⟨_, hback, by decide⟩⟩
  rw [joinSegments_segments, any_eq_true] at hany
  obtain ⟨c, hc, heq⟩ := hany
  obtain ⟨d, _, rfl⟩ := mem_map.mp hc
  by_cases hd : d == '\\' <;> simp [hd] at heq

theorem mem_keptSegments (h : part ∈ keptSegments value) :
    part ≠ [] ∧ part ≠ ['.'] ∧ '/' ∉ part ∧ '\\' ∉ part := by
  have hmem := mem_literalDirectory h
  obtain ⟨hne, hdot, hslash⟩ := mem_significantSegments hmem
  exact ⟨hne, hdot, hslash, backslash_not_mem hmem⟩

/-- Normalizing again changes a path exactly when the first pass exposed a blank. -/
theorem normalizeLockPath_idempotent_iff (value : PathText) :
    normalizeLockPath (normalizeLockPath value) = normalizeLockPath value ↔
      exposesBlank value = false := by
  by_cases hsignificant : significantSegments value = []
  · have hkept : keptSegments value = [] := by simp [keptSegments, literalDirectory, hsignificant]
    have hstable : normalizeLockPath (normalizeLockPath value) = normalizeLockPath value := by
      have hcases := normalizeLockPath_of_not_significant hsignificant
      cases hcases with
      | inl hnil => rw [hnil]; decide
      | inr hcases =>
        cases hcases with
        | inl hroot => rw [hroot]; decide
        | inr hdot => rw [hdot]; decide
    simp [hstable, exposesBlank, hkept]
  · have hrender : normalizeLockPath value = render (isRooted value) (keptSegments value) :=
      normalizeLockPath_of_significant hsignificant
    have hne : ∀ part ∈ keptSegments value, part ≠ [] := fun part hpart =>
      (mem_keptSegments hpart).1
    have hexposes : exposesBlank value =
        (startsBlank (normalizeLockPath value) || endsBlank (normalizeLockPath value)) := by
      rw [hrender, startsBlank_render hne, endsBlank_render hne, exposesBlank]
    rw [hexposes, Bool.or_eq_false_iff, ← trim_eq_self_iff]
    constructor
    · intro hagain
      -- a second trim would shorten the text, and normalization never lengthens it
      have hlength := normalizeLockPath_length_le (normalizeLockPath value)
      rw [hagain] at hlength
      have hsublist : (trim (normalizeLockPath value)).Sublist (normalizeLockPath value) :=
        (dropWhile_suffix isWhitespace).sublist.trans
          (List.rdropWhile_prefix isWhitespace (normalizeLockPath value)).sublist
      exact hsublist.eq_of_length_le hlength
    · intro htrim
      by_cases hkept : keptSegments value = []
      · have hroot : normalizeLockPath value = ['/'] ∨ normalizeLockPath value = [] := by
          rw [hrender, hkept]
          cases isRooted value
          · exact Or.inr rfl
          · exact Or.inl rfl
        cases hroot with
        | inl hroot => rw [hroot]; decide
        | inr hnil => rw [hnil]; decide
      · rw [hrender] at htrim ⊢
        obtain ⟨hparts, hroot⟩ :=
          significantSegments_render hkept (fun part hpart => mem_keptSegments hpart) htrim
        rw [normalizeLockPath_of_significant (by rw [hparts]; exact hkept), hparts, hroot]
        congr 1
        exact literalDirectory_idempotent (isRooted value) (significantSegments value)

/-- The blank before a trailing slash is trimmed by the second pass only. -/
theorem normalizeLockPath_not_idempotent :
    ¬ ∀ value : PathText,
      normalizeLockPath (normalizeLockPath value) = normalizeLockPath value := by
  intro h
  exact absurd (h ['x', ' ', '/']) (by decide)

end AgentBridge.Paths
