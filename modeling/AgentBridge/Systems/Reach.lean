import Mathlib

/-!
# Bounded breadth-first walks

A walk expands the nodes of a queue in order, starting from some roots. It collects
each newly found node once and stops when the queue is empty or when a limit of found
nodes is reached. What it collects is always reachable; it is everything reachable
exactly when no node left in the queue has a child that was not found, which covers
both ways of stopping.
-/

namespace AgentBridge.Systems

open List

universe u

variable {α : Type u} [DecidableEq α]

/-- The nodes found so far, and those still to be expanded. -/
structure Walk (α : Type u) where
  found : List α
  queue : List α

namespace Walk

variable (roots : List α) (children : α → List α) (limit : Nat)

/-- Collect a child unless it is known. -/
def visit (w : Walk α) (child : α) : Walk α :=
  if child ∈ w.found ∨ child ∈ roots then w
  else ⟨w.found ++ [child], w.queue ++ [child]⟩

/-- Expand up to `fuel` nodes while fewer than `limit` are found. -/
def expand : Nat → Walk α → Walk α
  | 0, w => w
  | fuel + 1, w =>
    match w.queue with
    | [] => w
    | parent :: queue =>
      if w.found.length < limit then
        expand fuel ((children parent).foldl (visit roots) ⟨w.found, queue⟩)
      else w

/-- Reachable from a root along children. -/
def Reachable (node : α) : Prop :=
  ∃ root ∈ roots, Relation.ReflTransGen (fun parent child => child ∈ children parent) root node

/-- A node left in the queue has a child that was not found. -/
def CutShort (w : Walk α) : Prop :=
  ∃ parent ∈ w.queue, ∃ child ∈ children parent, child ∉ w.found ∧ child ∉ roots

instance (w : Walk α) : Decidable (CutShort roots children w) :=
  inferInstanceAs (Decidable (∃ parent ∈ w.queue, ∃ child ∈ children parent,
    child ∉ w.found ∧ child ∉ roots))

/-- What holds between expansions: known nodes are reachable, and those that left the
queue have all their children known. -/
structure Sound (w : Walk α) : Prop where
  reachable : ∀ node ∈ w.found, Reachable roots children node
  queued : ∀ node ∈ w.queue, node ∈ roots ∨ node ∈ w.found
  expanded : ∀ node, node ∈ roots ∨ node ∈ w.found → node ∈ w.queue ∨
    ∀ child ∈ children node, child ∈ w.found ∨ child ∈ roots

variable {roots children limit} {w : Walk α}

/-! ### One expansion -/

theorem mem_visit {child node : α} :
    node ∈ (w.visit roots child).found ↔ node ∈ w.found ∨ (node = child ∧ child ∉ roots) := by
  unfold visit
  split
  · rename_i hknown
    constructor
    · exact Or.inl
    · rintro (hfound | ⟨rfl, hroot⟩)
      · exact hfound
      · exact hknown.resolve_right hroot
  · rename_i hnew
    rw [not_or] at hnew
    simp [hnew.2]

theorem mem_visit_all {nodes : List α} {node : α} :
    node ∈ (nodes.foldl (visit roots) w).found ↔
      node ∈ w.found ∨ (node ∈ nodes ∧ node ∉ roots) := by
  induction nodes generalizing w with
  | nil => simp
  | cons child nodes ih =>
    rw [foldl_cons, ih, mem_visit, mem_cons]
    constructor
    · rintro ((hfound | ⟨rfl, hroot⟩) | ⟨hmem, hroot⟩)
      · exact Or.inl hfound
      · exact Or.inr ⟨Or.inl rfl, hroot⟩
      · exact Or.inr ⟨Or.inr hmem, hroot⟩
    · rintro (hfound | ⟨rfl | hmem, hroot⟩)
      · exact Or.inl (Or.inl hfound)
      · exact Or.inl (Or.inr ⟨rfl, hroot⟩)
      · exact Or.inr ⟨hmem, hroot⟩

/-- Whatever is found is queued in the same breath. -/
theorem visit_all_append (nodes : List α) :
    ∃ new, (nodes.foldl (visit roots) w).found = w.found ++ new ∧
      (nodes.foldl (visit roots) w).queue = w.queue ++ new := by
  induction nodes generalizing w with
  | nil => exact ⟨[], by simp, by simp⟩
  | cons child nodes ih =>
    rw [foldl_cons]
    obtain ⟨new, hfound, hqueue⟩ := ih (w := w.visit roots child)
    rw [hfound, hqueue]
    unfold visit
    split
    · exact ⟨new, rfl, rfl⟩
    · exact ⟨child :: new, by simp, by simp⟩

theorem nodup_visit_all (nodes : List α) (h : w.found.Nodup) :
    (nodes.foldl (visit roots) w).found.Nodup := by
  induction nodes generalizing w with
  | nil => exact h
  | cons child nodes ih =>
    apply ih
    unfold visit
    split
    · exact h
    · rename_i hnew
      rw [not_or] at hnew
      rw [nodup_append]
      refine ⟨h, nodup_singleton child, ?_⟩
      rintro node hnode _ hchild rfl
      rw [mem_singleton] at hchild
      exact hnew.1 (hchild ▸ hnode)

theorem visit_all_new {nodes : List α} (nodup : nodes.Nodup)
    (new : ∀ node ∈ nodes, node ∉ w.found ∧ node ∉ roots) :
    nodes.foldl (visit roots) w = ⟨w.found ++ nodes, w.queue ++ nodes⟩ := by
  induction nodes generalizing w with
  | nil => simp
  | cons child nodes ih =>
    obtain ⟨hchild, hrest⟩ := nodup_cons.mp nodup
    have hnew := new child mem_cons_self
    rw [foldl_cons, visit, if_neg (not_or.mpr hnew), ih hrest]
    · simp
    · intro node hnode
      have hold := new node (mem_cons_of_mem _ hnode)
      refine ⟨?_, hold.2⟩
      rw [mem_append, mem_singleton]
      rintro (hfound | rfl)
      · exact hold.1 hfound
      · exact hchild hnode

theorem Sound.expandOne {parent : α} {found queue : List α}
    (h : Sound roots children ⟨found, parent :: queue⟩) :
    Sound roots children ((children parent).foldl (visit roots) ⟨found, queue⟩) := by
  obtain ⟨new, hfound, hqueue⟩ := @visit_all_append α _ roots ⟨found, queue⟩
    (children parent)
  have hparent : Reachable roots children parent := by
    cases h.queued parent mem_cons_self with
    | inl hroot => exact ⟨parent, hroot, .refl⟩
    | inr hold => exact h.reachable parent hold
  refine ⟨?_, ?_, ?_⟩
  · intro node hnode
    cases mem_visit_all.mp hnode with
    | inl hold => exact h.reachable node hold
    | inr hnew =>
      obtain ⟨root, hroot, hpath⟩ := hparent
      exact ⟨root, hroot, hpath.tail hnew.1⟩
  · intro node hnode
    rw [hqueue] at hnode
    rw [hfound]
    cases mem_append.mp hnode with
    | inl hold =>
      exact (h.queued node (mem_cons_of_mem _ hold)).imp id (mem_append_left _)
    | inr hnew => exact Or.inr (mem_append_right _ hnew)
  · intro node hnode
    rw [hfound] at hnode
    rw [hqueue]
    by_cases hnew : node ∈ new
    · exact Or.inl (mem_append_right _ hnew)
    have hold : node ∈ roots ∨ node ∈ found := by
      refine hnode.imp id fun hmem => ?_
      exact (mem_append.mp hmem).resolve_right hnew
    cases h.expanded node hold with
    | inl hqueued =>
      cases mem_cons.mp hqueued with
      | inl heq =>
        right
        intro child hchild
        rw [mem_visit_all]
        by_cases hroot : child ∈ roots
        · exact Or.inr hroot
        · exact Or.inl (Or.inr ⟨heq ▸ hchild, hroot⟩)
      | inr hrest => exact Or.inl (mem_append_left _ hrest)
    | inr hclosed =>
      right
      intro child hchild
      exact (hclosed child hchild).imp (fun hmem => mem_visit_all.mpr (Or.inl hmem)) id

theorem Sound.expand (h : Sound roots children w) (fuel : Nat) :
    Sound roots children (expand roots children limit fuel w) := by
  induction fuel generalizing w with
  | zero => exact h
  | succ fuel ih =>
    obtain ⟨found, queue⟩ := w
    cases queue with
    | nil => exact h
    | cons parent queue =>
      unfold Walk.expand
      dsimp only
      split
      · exact ih h.expandOne
      · exact h

omit [DecidableEq α] in
theorem sound_start : Sound roots children ⟨[], roots⟩ :=
  ⟨by simp, fun _ h => Or.inl h, fun _ h => Or.inl (h.resolve_right not_mem_nil)⟩

/-! ### What a walk finds -/

/-- A walk found everything reachable exactly when it was not cut short. -/
theorem Sound.complete_iff (h : Sound roots children w) :
    (∀ node, Reachable roots children node → node ∈ w.found ∨ node ∈ roots) ↔
      ¬ CutShort roots children w := by
  constructor
  · rintro hall ⟨parent, hparent, child, hchild, hnew, hroot⟩
    have hreach : Reachable roots children child := by
      cases h.queued parent hparent with
      | inl hstart => exact ⟨parent, hstart, .single hchild⟩
      | inr hold =>
        obtain ⟨root, hmem, hpath⟩ := h.reachable parent hold
        exact ⟨root, hmem, hpath.tail hchild⟩
    exact (hall child hreach).elim hnew hroot
  · rintro hcut node ⟨root, hroot, hpath⟩
    induction hpath with
    | refl => exact Or.inr hroot
    | @tail parent child _ hchild ih =>
      by_contra hmissing
      rw [not_or] at hmissing
      cases h.expanded parent ih.symm with
      | inl hqueued => exact hcut ⟨parent, hqueued, child, hchild, hmissing⟩
      | inr hclosed => exact (hclosed child hchild).elim hmissing.1 hmissing.2

theorem expand_full (h : limit ≤ w.found.length) (fuel : Nat) :
    expand roots children limit fuel w = w := by
  cases fuel with
  | zero => rfl
  | succ fuel =>
    unfold expand
    split
    · rfl
    · rw [if_neg (Nat.not_lt.mpr h)]

/-- With enough fuel a walk stops only at an empty queue or at the limit. -/
theorem expand_stops {all : List α} (closed : ∀ node, ∀ child ∈ children node, child ∈ all)
    (fuel : Nat) (nodup : w.found.Nodup) (sub : ∀ node ∈ w.found, node ∈ all)
    (enough : w.queue.length + all.length ≤ fuel + w.found.length) :
    (expand roots children limit fuel w).queue = [] ∨
      limit ≤ (expand roots children limit fuel w).found.length := by
  induction fuel generalizing w with
  | zero =>
    have hlength : w.found.length ≤ all.length :=
      (subperm_of_subset nodup sub).length_le
    left
    apply eq_nil_of_length_eq_zero
    show w.queue.length = 0
    omega
  | succ fuel ih =>
    obtain ⟨found, queue⟩ := w
    cases queue with
    | nil => exact Or.inl rfl
    | cons parent queue =>
      unfold Walk.expand
      dsimp only
      split
      · obtain ⟨new, hfound, hqueue⟩ := @visit_all_append α _ roots ⟨found, queue⟩
          (children parent)
        apply ih
        · exact nodup_visit_all _ nodup
        · intro node hnode
          cases mem_visit_all.mp hnode with
          | inl hold => exact sub node hold
          | inr hnew => exact closed parent node hnew.1
        · rw [hfound, hqueue]
          simp only [length_append, length_cons] at enough ⊢
          omega
      · rename_i hlimit
        exact Or.inr (Nat.not_lt.mp hlimit)

end Walk

end AgentBridge.Systems
