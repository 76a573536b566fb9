import Mathlib

/-!
# Edits of a tree of files

A tree gives each path the content of its file, if it has one. An edit changes the file at one
path, and does not apply to a content that it was not made for; a file is only created where no
file is above or below it. Edits of paths that are apart commute, so lists of edits that are
pairwise apart give the same tree in every order.
-/

namespace AgentBridge.Systems

open Option

variable {Path Content : Type}

abbrev FileTree (Path Content : Type) := Path → Option Content

structure FileEdit (Path Content : Type) where
  path : Path
  change : Option Content → Option (Option Content)

section

variable [DecidableEq Path] (above : Path → Path → Prop)

/-- A directory above the path, or a path below it, is a file. -/
def Blocked (tree : FileTree Path Content) (path : Path) : Prop :=
  ∃ other, (above other path ∨ above path other) ∧ tree other ≠ none

open Classical in
/-- The file that the edit leaves at its path, where it applies. -/
noncomputable def FileEdit.outcome (edit : FileEdit Path Content) (tree : FileTree Path Content) :
    Option (Option Content) :=
  (edit.change (tree edit.path)).filter fun content =>
    !decide (content ≠ none ∧ Blocked above tree edit.path)

noncomputable def FileEdit.apply (edit : FileEdit Path Content) (tree : FileTree Path Content) :
    Option (FileTree Path Content) :=
  (edit.outcome above tree).map fun content => Function.update tree edit.path content

/-- A patch applies when each of its edits does, one after another. -/
noncomputable def applyPatch (edits : List (FileEdit Path Content))
    (tree : FileTree Path Content) : Option (FileTree Path Content) :=
  edits.foldlM (fun tree edit => edit.apply above tree) tree

noncomputable def applyPatches (patches : List (List (FileEdit Path Content)))
    (tree : FileTree Path Content) : Option (FileTree Path Content) :=
  patches.foldlM (fun tree edits => applyPatch above edits tree) tree

/-- Two paths are different and neither is above the other. -/
structure Apart (first second : Path) : Prop where
  ne : first ≠ second
  notAbove : ¬above first second
  notBelow : ¬above second first

/-- No path that the one patch edits is at, above or below a path that the other edits. -/
def PatchesApart (first second : List (FileEdit Path Content)) : Prop :=
  ∀ e ∈ first, ∀ f ∈ second, Apart above e.path f.path

end

variable {above : Path → Path → Prop}

theorem Apart.symm {first second : Path} (h : Apart above first second) :
    Apart above second first :=
  ⟨h.ne.symm, h.notBelow, h.notAbove⟩

theorem PatchesApart.symm {first second : List (FileEdit Path Content)}
    (h : PatchesApart above first second) : PatchesApart above second first :=
  fun f hf e he => (h e he f hf).symm

variable [DecidableEq Path]

theorem blocked_update {tree : FileTree Path Content} {edited path : Path}
    (apart : Apart above edited path) (content : Option Content) :
    Blocked above (Function.update tree edited content) path ↔ Blocked above tree path := by
  have hsame : ∀ other, above other path ∨ above path other →
      Function.update tree edited content other = tree other := by
    intro other hnear
    refine Function.update_of_ne ?_ _ _
    rintro rfl
    exact hnear.elim apart.notAbove apart.notBelow
  constructor
  · rintro ⟨other, hnear, hfile⟩
    rw [hsame other hnear] at hfile
    exact ⟨other, hnear, hfile⟩
  · rintro ⟨other, hnear, hfile⟩
    refine ⟨other, hnear, ?_⟩
    rw [hsame other hnear]
    exact hfile

/-- An edit does not see what changed at a path that is apart from its own. -/
theorem FileEdit.outcome_update {edit : FileEdit Path Content} {tree : FileTree Path Content}
    {edited : Path} (apart : Apart above edited edit.path) (content : Option Content) :
    edit.outcome above (Function.update tree edited content) = edit.outcome above tree := by
  rw [FileEdit.outcome, FileEdit.outcome, Function.update_of_ne apart.ne.symm]
  have hguard : ∀ new : Option Content,
      (new ≠ none ∧ Blocked above (Function.update tree edited content) edit.path) ↔
        new ≠ none ∧ Blocked above tree edit.path :=
    fun new => and_congr_right fun _ => blocked_update apart content
  refine congrArg (fun guard => Option.filter guard _) (funext fun new => ?_)
  exact congrArg not (decide_eq_decide.mpr (hguard new))

theorem FileEdit.apply_comm {e f : FileEdit Path Content} (apart : Apart above e.path f.path)
    (tree : FileTree Path Content) :
    (e.apply above tree).bind (f.apply above) = (f.apply above tree).bind (e.apply above) := by
  unfold FileEdit.apply
  cases he : e.outcome above tree with
  | none =>
    cases f.outcome above tree with
    | none => rfl
    | some new =>
      show none = (e.outcome above (Function.update tree f.path new)).map _
      rw [FileEdit.outcome_update apart.symm, he, map_none]
  | some content =>
    cases hf : f.outcome above tree with
    | none =>
      show (f.outcome above (Function.update tree e.path content)).map _ = none
      rw [FileEdit.outcome_update apart, hf, map_none]
    | some new =>
      show (f.outcome above (Function.update tree e.path content)).map _ =
        (e.outcome above (Function.update tree f.path new)).map _
      rw [FileEdit.outcome_update apart, FileEdit.outcome_update apart.symm, he, hf,
        map_some, map_some, Function.update_comm apart.ne]

/-- An edit that is apart from all edits of a patch goes before or after it. -/
theorem apply_applyPatch_comm {e : FileEdit Path Content} (edits : List (FileEdit Path Content))
    (apart : ∀ f ∈ edits, Apart above e.path f.path) (tree : FileTree Path Content) :
    (e.apply above tree).bind (applyPatch above edits) =
      (applyPatch above edits tree).bind (e.apply above) := by
  induction edits generalizing tree with
  | nil =>
    show (e.apply above tree).bind some = e.apply above tree
    rw [bind_fun_some]
  | cons f edits ih =>
    have hrest := fun tree => ih (fun g hg => apart g (List.mem_cons_of_mem _ hg)) tree
    calc (e.apply above tree).bind (applyPatch above (f :: edits))
        = ((e.apply above tree).bind (f.apply above)).bind (applyPatch above edits) := by
          rw [bind_assoc]
          rfl
      _ = ((f.apply above tree).bind (e.apply above)).bind (applyPatch above edits) := by
          rw [FileEdit.apply_comm (apart f List.mem_cons_self)]
      _ = (f.apply above tree).bind
            fun next => (applyPatch above edits next).bind (e.apply above) := by
          rw [bind_assoc]
          exact congrArg _ (funext hrest)
      _ = (applyPatch above (f :: edits) tree).bind (e.apply above) := by
          rw [← bind_assoc]
          rfl

theorem applyPatch_comm (first second : List (FileEdit Path Content))
    (apart : PatchesApart above first second) (tree : FileTree Path Content) :
    (applyPatch above first tree).bind (applyPatch above second) =
      (applyPatch above second tree).bind (applyPatch above first) := by
  induction first generalizing tree with
  | nil =>
    show applyPatch above second tree = (applyPatch above second tree).bind some
    rw [bind_fun_some]
  | cons e first ih =>
    have hrest := fun tree => ih (fun f hf => apart f (List.mem_cons_of_mem _ hf)) tree
    calc (applyPatch above (e :: first) tree).bind (applyPatch above second)
        = (e.apply above tree).bind
            fun next => (applyPatch above first next).bind (applyPatch above second) := by
          rw [← bind_assoc]
          rfl
      _ = ((e.apply above tree).bind (applyPatch above second)).bind
            (applyPatch above first) := by
          rw [bind_assoc]
          exact congrArg _ (funext hrest)
      _ = ((applyPatch above second tree).bind (e.apply above)).bind
            (applyPatch above first) := by
          rw [apply_applyPatch_comm second (apart e List.mem_cons_self)]
      _ = (applyPatch above second tree).bind (applyPatch above (e :: first)) := by
          rw [bind_assoc]
          rfl

theorem applyPatch_flatten (patches : List (List (FileEdit Path Content)))
    (tree : FileTree Path Content) :
    applyPatch above patches.flatten tree = applyPatches above patches tree := by
  induction patches generalizing tree with
  | nil => rfl
  | cons edits patches ih =>
    show applyPatch above (edits ++ patches.flatten) tree =
      (applyPatch above edits tree).bind (applyPatches above patches)
    rw [applyPatch, List.foldlM_append]
    exact congrArg _ (funext ih)

theorem applyPatches_perm {patches reordered : List (List (FileEdit Path Content))}
    (apart : patches.Pairwise (PatchesApart above)) (perm : patches.Perm reordered)
    (tree : FileTree Path Content) :
    applyPatches above reordered tree = applyPatches above patches tree := by
  induction perm generalizing tree with
  | nil => rfl
  | cons edits _ ih =>
    have hrest := ih (List.Pairwise.of_cons apart)
    exact congrArg _ (funext hrest)
  | swap first second rest =>
    have hapart : PatchesApart above second first :=
      (List.pairwise_cons.mp apart).1 first List.mem_cons_self
    show (applyPatch above first tree).bind
        (fun next => (applyPatch above second next).bind (applyPatches above rest)) =
      (applyPatch above second tree).bind
        fun next => (applyPatch above first next).bind (applyPatches above rest)
    rw [← bind_assoc, ← bind_assoc, applyPatch_comm second first hapart]
  | trans perm _ ih₁ ih₂ =>
    have hmiddle := apart.perm perm PatchesApart.symm
    rw [ih₂ hmiddle, ih₁ apart]

end AgentBridge.Systems
