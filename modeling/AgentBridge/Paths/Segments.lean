import AgentBridge.Paths

/-!
# What normalization does to the segments of a path

Each step of `normalizeLockPath` is a step on the segments between the slashes: collapsing
runs of slashes drops the empty segments in the middle, the two dot rules drop the segments
".", and stripping the trailing slashes drops the empty ones at the end. Together they leave
the segments that are neither empty nor ".", less a final "**" below a literal directory.
-/

namespace AgentBridge.Paths

open List

/-- The segments between the slashes of a text. -/
def segments (text : PathText) : List PathText := text.splitOn '/'

theorem segments_ne_nil (text : PathText) : segments text ≠ [] := splitOn_ne_nil '/' text

@[simp] theorem segments_nil : segments [] = [[]] := splitOn_nil '/'

@[simp] theorem segments_slash (text : PathText) :
    segments ('/' :: text) = [] :: segments text := by
  simp [segments, splitOn_cons_eq_if_modifyHead]

theorem segments_cons {c : Char} (hc : c ≠ '/') (text : PathText) :
    segments (c :: text) = (segments text).modifyHead (List.cons c) := by
  simp [segments, splitOn_cons_eq_if_modifyHead, hc]

variable {first text : PathText} {later : List PathText}

theorem segments_cons_of {c : Char} (hc : c ≠ '/') (h : segments text = first :: later) :
    segments (c :: text) = (c :: first) :: later := by
  rw [segments_cons hc, h, modifyHead_cons]

@[simp] theorem joinSegments_segments (text : PathText) : joinSegments (segments text) = text :=
  intercalate_splitOn '/'

variable {parts : List PathText}

theorem segments_joinSegments (hne : parts ≠ []) (h : ∀ part ∈ parts, '/' ∉ part) :
    segments (joinSegments parts) = parts :=
  splitOn_intercalate '/' h hne

theorem segments_injective {other : PathText} (h : segments text = segments other) :
    text = other := by
  rw [← joinSegments_segments text, h, joinSegments_segments]

theorem slash_not_mem_of_mem_segments {part : PathText} (h : part ∈ segments text) :
    '/' ∉ part := by
  induction text generalizing part with
  | nil =>
    rw [segments_nil, mem_singleton] at h
    simp [h]
  | cons c rest ih =>
    by_cases hc : c = '/'
    · rw [hc, segments_slash, mem_cons] at h
      cases h with
      | inl hnil => simp [hnil]
      | inr hmem => exact ih hmem
    · obtain ⟨first, later, hrest⟩ := exists_cons_of_ne_nil (segments_ne_nil rest)
      rw [segments_cons_of hc hrest, mem_cons] at h
      cases h with
      | inl hfirst =>
        have hslash : '/' ∉ first := ih (hrest ▸ mem_cons_self)
        rw [hfirst, mem_cons, not_or]
        exact ⟨fun heq => hc heq.symm, hslash⟩
      | inr hmem => exact ih (hrest ▸ mem_cons_of_mem first hmem)

/-- A text begins with a slash when its first segment is empty and others follow. -/
theorem head?_eq_slash (h : segments text = first :: later) :
    text.head? = some '/' ↔ first = [] ∧ later ≠ [] := by
  cases text with
  | nil =>
    obtain ⟨rfl, rfl⟩ := List.cons.inj h
    simp
  | cons c rest =>
    by_cases hc : c = '/'
    · rw [hc, segments_slash] at h
      obtain ⟨rfl, rfl⟩ := List.cons.inj h
      simp [hc, segments_ne_nil]
    · obtain ⟨head, tail, hrest⟩ := exists_cons_of_ne_nil (segments_ne_nil rest)
      rw [segments_cons_of hc hrest] at h
      obtain ⟨rfl, rfl⟩ := List.cons.inj h
      simp [hc]

/-! ### The steps of normalization on segments -/

/-- The later segments after runs of slashes are collapsed: only the last may stay empty. -/
def squeeze : List PathText → List PathText
  | [] => []
  | [last] => [last]
  | part :: next :: rest =>
    if part = [] then squeeze (next :: rest) else part :: squeeze (next :: rest)

theorem squeeze_concat (parts : List PathText) (last : PathText) :
    squeeze (parts ++ [last]) = parts.filter (· ≠ []) ++ [last] := by
  induction parts with
  | nil => rfl
  | cons part rest ih =>
    obtain ⟨next, others, hnext⟩ :=
      exists_cons_of_ne_nil (append_ne_nil_of_right_ne_nil rest
        (cons_ne_nil last []))
    rw [hnext] at ih
    by_cases hpart : part = []
    · simp [hnext, squeeze, hpart, ih]
    · simp [hnext, squeeze, hpart, ih]

theorem squeeze_of_ne_nil (h : ∀ part ∈ parts, part ≠ []) : squeeze parts = parts := by
  cases eq_nil_or_concat parts with
  | inl hnil =>
    rw [hnil]
    rfl
  | inr hconcat =>
    obtain ⟨front, last, hparts⟩ := hconcat
    rw [concat_eq_append] at hparts
    subst hparts
    have hfront : front.filter (· ≠ []) = front := by
      rw [filter_eq_self]
      intro part hpart
      exact decide_eq_true (h part (mem_append_left _ hpart))
    rw [squeeze_concat, hfront]

theorem segments_collapseSlashes (h : segments text = first :: later) :
    segments (collapseSlashes text) = first :: squeeze later := by
  induction text generalizing first later with
  | nil =>
    obtain ⟨rfl, rfl⟩ := List.cons.inj h
    rfl
  | cons c rest ih =>
    obtain ⟨head, tail, hrest⟩ := exists_cons_of_ne_nil (segments_ne_nil rest)
    by_cases hc : c = '/'
    · rw [hc, segments_slash, hrest] at h
      obtain ⟨rfl, rfl⟩ := List.cons.inj h
      by_cases hslash : rest.head? = some '/'
      · obtain ⟨rfl, htail⟩ := (head?_eq_slash hrest).mp hslash
        obtain ⟨next, others, rfl⟩ := exists_cons_of_ne_nil htail
        simp [collapseSlashes, hc, hslash, ih hrest, squeeze]
      · have hcollapse : collapseSlashes ('/' :: rest) = '/' :: collapseSlashes rest := by
          simp [collapseSlashes, hslash]
        rw [hc, hcollapse, segments_slash, ih hrest]
        cases tail with
        | nil => rfl
        | cons next others =>
          have hhead : head ≠ [] := fun hnil =>
            hslash ((head?_eq_slash hrest).mpr ⟨hnil, cons_ne_nil next others⟩)
          simp [squeeze, hhead]
    · rw [segments_cons_of hc hrest] at h
      obtain ⟨rfl, rfl⟩ := List.cons.inj h
      have hcollapse : collapseSlashes (c :: rest) = c :: collapseSlashes rest := by
        simp [collapseSlashes, hc]
      rw [hcollapse, segments_cons_of hc (ih hrest)]

/-- The segments after the leading "./" are dropped. -/
def skipDots : List PathText → List PathText
  | ['.'] :: next :: rest => skipDots (next :: rest)
  | parts => parts

theorem segments_stripLeadingDots (text : PathText) :
    segments (stripLeadingDots text) = skipDots (segments text) := by
  fun_induction stripLeadingDots text with
  | case1 rest ih =>
    obtain ⟨head, tail, hrest⟩ := exists_cons_of_ne_nil (segments_ne_nil rest)
    rw [ih, segments_cons_of (by decide) (segments_slash rest), hrest]
    rfl
  | case2 text hno =>
    cases text with
    | nil => rfl
    | cons c rest =>
      obtain ⟨head, tail, hrest⟩ := exists_cons_of_ne_nil (segments_ne_nil rest)
      by_cases hc : c = '/'
      · rw [hc, segments_slash, hrest]
        rfl
      · rw [segments_cons_of hc hrest]
        -- a first segment "." with others after it is a leading "./"
        have hskip : ¬ (c :: head = ['.'] ∧ tail ≠ []) := by
          intro ⟨hdot, htail⟩
          obtain ⟨rfl, hhead⟩ := List.cons.inj hdot
          obtain ⟨after, hafter⟩ : ∃ after, rest = '/' :: after := by
            have hslash := (head?_eq_slash hrest).mpr ⟨hhead, htail⟩
            cases rest with
            | nil => simp at hslash
            | cons d after => exact ⟨after, by simpa using hslash⟩
          exact hno after (by rw [hafter])
        cases tail with
        | nil => simp [skipDots]
        | cons next others =>
          rw [skipDots]
          intro next' rest' heq
          exact hskip ⟨(List.cons.inj heq).1, cons_ne_nil next others⟩

theorem skipDots_concat (last : PathText) :
    skipDots (parts ++ [last]) = parts.dropWhile (· = ['.']) ++ [last] := by
  induction parts with
  | nil => cases last <;> simp [skipDots]
  | cons part rest ih =>
    obtain ⟨next, others, hnext⟩ :=
      exists_cons_of_ne_nil (append_ne_nil_of_right_ne_nil rest
        (cons_ne_nil last []))
    by_cases hpart : part = ['.']
    · rw [hnext] at ih
      simp [hpart, hnext, skipDots, ih]
    · rw [cons_append, hnext, skipDots, ← hnext]
      · simp [hpart]
      · intro next' rest' heq
        exact hpart (List.cons.inj heq).1

theorem segments_dropDotSegments {skip : Bool} {text first : PathText} {later : List PathText}
    (h : segments (if skip then text.drop 1 else text) = first :: later) :
    segments (dropDotSegments skip text) = first :: later.filter (· ≠ ['.']) := by
  fun_induction dropDotSegments skip text generalizing first later with
  | case1 skip =>
    have hnil : segments [] = first :: later := by cases skip <;> exact h
    obtain ⟨rfl, rfl⟩ := List.cons.inj hnil
    rfl
  | case2 c rest ih => exact ih h
  | case3 c rest hdot ih =>
    -- a slash, a dot, and the end or another slash
    obtain ⟨hc, hdot⟩ : c = '/' ∧ (rest = ['.'] ∨ rest.take 2 = ['.', '/']) := by
      simpa using hdot
    have hsegments : segments (c :: rest) = first :: later := h
    rw [hc, segments_slash] at hsegments
    obtain ⟨rfl, rfl⟩ := List.cons.inj hsegments
    cases hdot with
    | inl hend =>
      rw [hend, segments_cons_of (by decide) segments_nil]
      rw [hend] at ih
      have hrun : segments (dropDotSegments true ['.']) = [[]] := ih segments_nil
      rfl
    | inr hslash =>
      obtain ⟨after, hafter⟩ : ∃ after, rest = '.' :: '/' :: after := by
        match rest, hslash with
        | [], h => simp at h
        | [_], h => simp at h
        | a :: b :: after, h =>
          obtain ⟨rfl, rfl⟩ : a = '.' ∧ b = '/' := by simpa using h
          exact ⟨after, rfl⟩
      rw [hafter] at ih
      rw [hafter, segments_cons_of (by decide) (segments_slash after)]
      simpa using ih (segments_slash after)
  | case4 c rest hdot ih =>
    obtain ⟨head, tail, hrest⟩ := exists_cons_of_ne_nil (segments_ne_nil rest)
    have hsegments : segments (c :: rest) = first :: later := h
    by_cases hc : c = '/'
    · rw [hc, segments_slash, hrest] at hsegments
      obtain ⟨rfl, rfl⟩ := List.cons.inj hsegments
      rw [hc, segments_slash, ih hrest]
      have hhead : head ≠ ['.'] := by
        intro hhead
        apply hdot
        have hend : rest = ['.'] ∨ rest.take 2 = ['.', '/'] := by
          rw [hhead] at hrest
          cases tail with
          | nil =>
            left
            apply segments_injective
            rw [hrest, segments_cons_of (by decide) segments_nil]
          | cons next others =>
            right
            have hjoin := joinSegments_segments rest
            rw [hrest, joinSegments, intercalate_cons_cons] at hjoin
            rw [← hjoin]
            rfl
        simpa [hc] using hend
      simp [hhead]
    · rw [segments_cons_of hc hrest] at hsegments
      obtain ⟨rfl, rfl⟩ := List.cons.inj hsegments
      rw [segments_cons_of hc (ih hrest)]

theorem segments_dropDots (h : segments text = first :: later) :
    segments (dropDotSegments false text) = first :: later.filter (· ≠ ['.']) :=
  @segments_dropDotSegments false text first later h

theorem segments_append_slash (text : PathText) :
    segments (text ++ ['/']) = segments text ++ [[]] :=
  splitOn_append_cons_self text []

/-- A text that does not end with a slash ends with a nonempty segment. -/
theorem getLast_segments_ne_nil (hne : text ≠ []) (h : text.getLast hne ≠ '/') :
    (segments text).getLast (segments_ne_nil text) ≠ [] := by
  induction text with
  | nil => exact absurd rfl hne
  | cons c rest ih =>
    obtain ⟨head, tail, hrest⟩ := exists_cons_of_ne_nil (segments_ne_nil rest)
    cases rest with
    | nil =>
      have hsegments := segments_cons_of (c := c) (by simpa using h) segments_nil
      simp [hsegments]
    | cons d after =>
      have hlast := ih (cons_ne_nil d after) (by simpa using h)
      simp only [hrest] at hlast
      by_cases hc : c = '/'
      · have hsegments : segments (c :: d :: after) = [] :: head :: tail := by
          rw [hc, segments_slash, hrest]
        simpa only [hsegments, getLast_cons_cons] using hlast
      · simp only [segments_cons_of hc hrest]
        cases tail with
        | nil => simp
        | cons next others => simpa using hlast

theorem segments_stripTrailingSlashes (h : segments text = first :: later) :
    segments (stripTrailingSlashes text) = first :: later.rdropWhile (· = []) := by
  induction text using List.reverseRecOn generalizing first later with
  | nil =>
    obtain ⟨rfl, rfl⟩ := List.cons.inj h
    rfl
  | append_singleton front c ih =>
    by_cases hc : c = '/'
    · obtain ⟨head, tail, hfront⟩ := exists_cons_of_ne_nil (segments_ne_nil front)
      rw [hc, segments_append_slash, hfront] at h
      obtain ⟨rfl, rfl⟩ := List.cons.inj h
      have hstrip : stripTrailingSlashes (front ++ [c]) = stripTrailingSlashes front :=
        rdropWhile_concat_pos _ _ _ (by simpa using hc)
      have hdrop : (tail ++ [[]]).rdropWhile (fun part : PathText => decide (part = [])) =
          tail.rdropWhile (fun part : PathText => decide (part = [])) :=
        rdropWhile_concat_pos _ _ _ (by simp)
      rw [hc] at hstrip
      rw [hc, hstrip, ih hfront]
      exact congrArg (head :: ·) hdrop.symm
    · have hstrip : stripTrailingSlashes (front ++ [c]) = front ++ [c] :=
        rdropWhile_concat_neg _ _ _ (by simpa using hc)
      have hne : front ++ [c] ≠ [] := append_ne_nil_of_right_ne_nil _ (by simp)
      have hlast := getLast_segments_ne_nil hne (by simpa using hc)
      have hkeep : later.rdropWhile (· = []) = later := by
        rw [rdropWhile_eq_self_iff]
        intro hlater
        simp only [h, getLast_cons hlater] at hlast
        simpa using hlast
      rw [hstrip, h, hkeep]

end AgentBridge.Paths
