import AgentBridge.Paths.NormalForm

/-!
# Paths below a root

What `normalizeLockPathForCwd` makes of a path whose segments are plain names: resolving it
below the root and reading it back relative to the root changes nothing.
-/

namespace AgentBridge.Paths

open List

/-- Segments that normalization keeps. -/
def CleanSegments (parts : List PathText) : Prop :=
  ∀ part ∈ parts, part ≠ [] ∧ part ≠ ['.'] ∧ '/' ∉ part ∧ '\\' ∉ part

theorem CleanSegments.slash {parts : List PathText} (h : CleanSegments parts) :
    ∀ part ∈ parts, '/' ∉ part := fun part hpart => (h part hpart).2.2.1

theorem CleanSegments.ne_nil {parts : List PathText} (h : CleanSegments parts) :
    ∀ part ∈ parts, part ≠ [] := fun part hpart => (h part hpart).1

theorem CleanSegments.append {parts others : List PathText} (h : CleanSegments parts)
    (hothers : CleanSegments others) : CleanSegments (parts ++ others) := by
  intro part hpart
  cases mem_append.mp hpart with
  | inl hmem => exact h part hmem
  | inr hmem => exact hothers part hmem

theorem cleanSegments_keptSegments (value : PathText) : CleanSegments (keptSegments value) :=
  fun _ hpart => mem_keptSegments hpart

theorem normalizeLockPath_cases (value : PathText) :
    normalizeLockPath value = [] ∨ normalizeLockPath value = ['.'] ∨
      ∃ root parts, CleanSegments parts ∧ (parts ≠ [] ∨ root = true) ∧
        normalizeLockPath value = render root parts := by
  by_cases h : significantSegments value = []
  · cases normalizeLockPath_of_not_significant h with
    | inl hnil => exact Or.inl hnil
    | inr hcases =>
      right
      cases hcases with
      | inl hroot =>
        right
        exact ⟨true, [], nofun, Or.inr rfl, by rw [hroot]; rfl⟩
      | inr hdot => exact Or.inl hdot
  · have hrender : normalizeLockPath value = render (isRooted value) (keptSegments value) :=
      normalizeLockPath_of_significant h
    by_cases hkept : keptSegments value = []
    · cases hroot : isRooted value with
      | false =>
        left
        rw [hrender, hkept, hroot]
        rfl
      | true =>
        right
        right
        exact ⟨true, [], nofun, Or.inr rfl, by rw [hrender, hkept, hroot]⟩
    · right
      right
      exact ⟨isRooted value, keptSegments value, cleanSegments_keptSegments value,
        Or.inl hkept, hrender⟩

section

variable {root : Bool} {parts : List PathText}

/-- Rendered clean segments without blanks at the ends and without a final "**" are stable. -/
theorem normalizeLockPath_render (hne : parts ≠ []) (h : CleanSegments parts)
    (htrim : trim (render root parts) = render root parts)
    (hlast : parts.getLast? ≠ some ['*', '*']) :
    normalizeLockPath (render root parts) = render root parts := by
  obtain ⟨hsignificant, hroot⟩ := significantSegments_render hne h htrim
  have hliteral : literalDirectory root parts = parts := by
    rw [literalDirectory, if_neg]
    exact fun hdrop => hlast hdrop.1
  rw [normalizeLockPath_of_significant (by rw [hsignificant]; exact hne), hsignificant, hroot,
    hliteral]

theorem significantSegments_dotSlash (hne : parts ≠ []) (h : CleanSegments parts)
    (hend : endsBlank (joinSegments parts) = false) :
    trim ('.' :: '/' :: joinSegments parts) = '.' :: '/' :: joinSegments parts ∧
      significantSegments ('.' :: '/' :: joinSegments parts) = parts ∧
      isRooted ('.' :: '/' :: joinSegments parts) = false := by
  have hjoin : joinSegments parts ≠ [] := by
    intro hnil
    have hparts := (joinSegments_eq_nil hne h.slash).mp hnil
    exact h.ne_nil [] (by rw [hparts]; exact mem_cons_self) rfl
  have htrim : trim ('.' :: '/' :: joinSegments parts) = '.' :: '/' :: joinSegments parts := by
    rw [trim_eq_self_iff]
    obtain ⟨c, rest, hcons⟩ := exists_cons_of_ne_nil hjoin
    refine ⟨rfl, ?_⟩
    rw [endsBlank] at hend ⊢
    rw [hcons] at hend ⊢
    simpa using hend
  have hforward : toForwardSlashes ('.' :: '/' :: joinSegments parts) =
      '.' :: '/' :: joinSegments parts := by
    apply toForwardSlashes_of_not_mem
    have hback : '\\' ∉ joinSegments parts :=
      @not_mem_render '\\' (by decide) false parts fun part hpart => (h part hpart).2.2.2
    simpa using hback
  have hsegments : segments ('.' :: '/' :: joinSegments parts) = ['.'] :: parts := by
    rw [segments_cons_of (by decide) (segments_slash _), segments_joinSegments hne h.slash]
  have hfilter : parts.filter isSignificant = parts := by
    rw [filter_eq_self]
    intro part hpart
    simp [isSignificant, (h part hpart).1, (h part hpart).2.1]
  refine ⟨htrim, ?_, ?_⟩
  · rw [significantSegments, htrim, hforward, hsegments]
    simpa [isSignificant] using hfilter
  · rw [isRooted, htrim, hforward]
    rfl

/-- A leading "./" is dropped. -/
theorem normalizeLockPath_dotSlash (hne : parts ≠ []) (h : CleanSegments parts)
    (hend : endsBlank (joinSegments parts) = false)
    (hlast : parts.getLast? ≠ some ['*', '*']) :
    normalizeLockPath ('.' :: '/' :: joinSegments parts) = joinSegments parts := by
  obtain ⟨_, hsignificant, hroot⟩ := significantSegments_dotSlash hne h hend
  have hliteral : literalDirectory false parts = parts := by
    rw [literalDirectory, if_neg]
    exact fun hdrop => hlast hdrop.1
  rw [normalizeLockPath_of_significant (by rw [hsignificant]; exact hne), hsignificant, hroot,
    hliteral]
  rfl

theorem normalizeLockPath_blank {text : PathText} (hne : text ≠ []) (h : trim text = text) :
    normalizeLockPath (' ' :: text) = normalizeLockPath text := by
  have htrim : trim (' ' :: text) = text := by
    obtain ⟨hstart, hend⟩ := trim_eq_self_iff.mp h
    obtain ⟨c, rest, rfl⟩ := exists_cons_of_ne_nil hne
    have hright : (' ' :: c :: rest).rdropWhile isWhitespace = ' ' :: c :: rest := by
      rw [rdropWhile_eq_self_iff]
      simpa [endsBlank, List.getLast?_eq_some_getLast hne] using hend
    rw [trim, hright, dropWhile_cons_of_pos (by decide)]
    exact dropWhile_cons_of_neg (by simpa [startsBlank] using hstart)
  rw [← normalizeLockPath_trim (' ' :: text), htrim]

theorem hasParentTraversalSegment_iff {value : PathText} :
    hasParentTraversalSegment (trim value) = true ↔ ['.', '.'] ∈ significantSegments value := by
  have hsegments : hasParentTraversalSegment (trim value) = true ↔
      ['.', '.'] ∈ segments (toForwardSlashes (trim value)) := by
    simp [hasParentTraversalSegment, segments]
  rw [hsegments, significantSegments, mem_filter]
  simp [isSignificant]

end

/-! ### Resolving below a root -/

theorem resolve_plain {base : Directory} {value : PathText} (hroot : ¬ ['/'] <+: value)
    (h : ∀ part ∈ segments value, part ≠ [] ∧ part ≠ ['.'] ∧ part ≠ ['.', '.']) :
    resolve base value = base ++ segments value := by
  have hfold : ∀ (parts : List PathText) (directory : Directory),
      (∀ part ∈ parts, part ≠ [] ∧ part ≠ ['.'] ∧ part ≠ ['.', '.']) →
      parts.foldl (fun directory segment =>
        if segment = [] ∨ segment = ['.'] then directory
        else if segment = ['.', '.'] then directory.dropLast
        else directory ++ [segment]) directory = directory ++ parts := by
    intro parts
    induction parts with
    | nil => simp
    | cons part rest ih =>
      intro directory hparts
      obtain ⟨hnil, hdot, hdots⟩ := hparts part mem_cons_self
      rw [foldl_cons, if_neg (not_or.mpr ⟨hnil, hdot⟩), if_neg hdots,
        ih _ fun other hother => hparts other (mem_cons_of_mem part hother)]
      simp
  rw [resolve, if_neg hroot]
  exact hfold (segments value) base h

theorem relative_append (root : Directory) (parts : List PathText) :
    relative root (root ++ parts) = joinSegments parts := by
  induction root with
  | nil => cases parts <;> rfl
  | cons name rest ih => simpa [relative] using ih

end AgentBridge.Paths
