import Mathlib

/-!
# Greedy chunks

A list is cut into chunks in one pass: an item goes into the current chunk unless the
chunk is full or the item would take it over a budget. The chunks are the list again,
none has more items than the limit, and none but a single item is over the budget.
-/

namespace AgentBridge.Systems

open List

universe u

variable {α : Type u} (base limit budget : Nat) (cost : α → Nat)

structure Chunking (α : Type u) where
  complete : List (List α)
  current : List α
  length : Nat

namespace Chunking

def start : Chunking α := ⟨[], [], base⟩

def flush (s : Chunking α) : Chunking α := ⟨s.complete ++ [s.current], [], base⟩

def push (s : Chunking α) (item : α) : Chunking α :=
  { s with current := s.current ++ [item], length := s.length + cost item }

def add (s : Chunking α) (item : α) : Chunking α :=
  let s :=
    if s.current ≠ [] ∧ (limit ≤ s.current.length ∨ budget < s.length + cost item) then
      s.flush base
    else s
  let s := s.push cost item
  if limit ≤ s.current.length then s.flush base else s

end Chunking

/-- The chunks of a list, in order. -/
def chunks (items : List α) : List (List α) :=
  let s := items.foldl (Chunking.add base limit budget cost) (Chunking.start base)
  if s.current = [] then s.complete else s.complete ++ [s.current]

/-- What a chunk obeys. -/
structure Fits (chunk : List α) : Prop where
  ne_nil : chunk ≠ []
  limited : chunk.length ≤ limit
  affordable : base + (chunk.map cost).sum ≤ budget ∨ chunk.length = 1

/-- Between two items: the complete chunks fit, and the current one fits and has room. -/
structure Chunking.Good (s : Chunking α) : Prop where
  complete : ∀ chunk ∈ s.complete, Fits base limit budget cost chunk
  current : s.current = [] ∨ Fits base limit budget cost s.current
  room : s.current.length < limit
  length : s.length = base + (s.current.map cost).sum

variable {base limit budget cost} {s : Chunking α}

namespace Chunking

@[simp] theorem flush_flatten :
    (s.flush base).complete.flatten ++ (s.flush base).current =
      s.complete.flatten ++ s.current := by
  simp [flush]

@[simp] theorem push_flatten (item : α) :
    (s.push cost item).complete.flatten ++ (s.push cost item).current =
      s.complete.flatten ++ s.current ++ [item] := by
  simp [push]

/-- Nothing is left out. -/
theorem add_flatten (item : α) :
    (s.add base limit budget cost item).complete.flatten ++
        (s.add base limit budget cost item).current =
      s.complete.flatten ++ s.current ++ [item] := by
  unfold add
  dsimp only
  split <;> split <;> simp only [flush_flatten, push_flatten]

theorem foldl_add_flatten (items : List α) :
    (items.foldl (add base limit budget cost) s).complete.flatten ++
        (items.foldl (add base limit budget cost) s).current =
      s.complete.flatten ++ s.current ++ items := by
  induction items generalizing s with
  | nil => rw [foldl_nil, append_nil]
  | cons item items ih =>
    rw [foldl_cons, ih, add_flatten, append_assoc, singleton_append]

/-- A complete chunk is put away. -/
theorem good_flush (positive : 0 < limit)
    (hcomplete : ∀ chunk ∈ s.complete, Fits base limit budget cost chunk)
    (hcurrent : Fits base limit budget cost s.current) :
    (s.flush base).Good base limit budget cost where
  complete := by
    intro chunk hchunk
    obtain hold | hnew := mem_append.mp hchunk
    · exact hcomplete chunk hold
    · rw [mem_singleton.mp hnew]
      exact hcurrent
  current := .inl rfl
  room := positive
  length := rfl

/-- An item that the current chunk has room for. -/
theorem Good.push (h : s.Good base limit budget cost) {item : α}
    (hfree : s.current = [] ∨ s.length + cost item ≤ budget) :
    Fits base limit budget cost (s.push cost item).current ∧
      (s.push cost item).length = base + ((s.push cost item).current.map cost).sum := by
  have hsum : s.length + cost item = base + ((s.current ++ [item]).map cost).sum := by
    rw [h.length, map_append, sum_append, map_singleton, sum_singleton,
      Nat.add_assoc]
  refine ⟨⟨by simp [Chunking.push], ?_, ?_⟩, hsum⟩
  · have hroom := h.room
    simp only [Chunking.push, length_append, length_singleton]
    omega
  · obtain hempty | hbudget := hfree
    · exact .inr (by simp [Chunking.push, hempty])
    · exact .inl (by simp only [Chunking.push]; omega)

theorem Good.add (h : s.Good base limit budget cost) (positive : 0 < limit) (item : α) :
    (s.add base limit budget cost item).Good base limit budget cost := by
  -- the chunk the item goes to: the current one, or a new one
  obtain ⟨target, htarget, hgood, hfree⟩ : ∃ target : Chunking α,
      (if s.current ≠ [] ∧ (limit ≤ s.current.length ∨ budget < s.length + cost item) then
        s.flush base else s) = target ∧ target.Good base limit budget cost ∧
      (target.current = [] ∨ target.length + cost item ≤ budget) := by
    split
    · next hfull =>
      exact ⟨_, rfl, good_flush positive h.complete (h.current.resolve_left hfull.1), .inl rfl⟩
    · next hfull =>
      refine ⟨s, rfl, h, ?_⟩
      by_cases hempty : s.current = []
      · exact .inl hempty
      · exact .inr (Nat.le_of_not_lt fun hover => hfull ⟨hempty, .inr hover⟩)
  obtain ⟨hfits, hlength⟩ := hgood.push hfree
  unfold Chunking.add
  rw [htarget]
  dsimp only
  split
  · exact good_flush positive hgood.complete hfits
  · next hroom => exact ⟨hgood.complete, .inr hfits, Nat.lt_of_not_le hroom, hlength⟩

theorem Good.foldl_add (h : s.Good base limit budget cost) (positive : 0 < limit)
    (items : List α) :
    (items.foldl (Chunking.add base limit budget cost) s).Good base limit budget cost := by
  induction items generalizing s with
  | nil => exact h
  | cons item items ih => exact ih (h.add positive item)

end Chunking

theorem chunks_flatten (items : List α) :
    (chunks base limit budget cost items).flatten = items := by
  have h : (items.foldl (Chunking.add base limit budget cost) (.start base)).complete.flatten ++
      (items.foldl (Chunking.add base limit budget cost) (.start base)).current = items :=
    Chunking.foldl_add_flatten items
  unfold chunks
  dsimp only
  split
  · next hempty =>
    rw [hempty, append_nil] at h
    exact h
  · rw [flatten_append, flatten_singleton]
    exact h

theorem chunks_fit (positive : 0 < limit) (items : List α) :
    ∀ chunk ∈ chunks base limit budget cost items, Fits base limit budget cost chunk := by
  have hstart : (.start base : Chunking α).Good base limit budget cost :=
    ⟨nofun, .inl rfl, positive, rfl⟩
  have h := hstart.foldl_add positive items
  intro chunk hchunk
  unfold chunks at hchunk
  dsimp only at hchunk
  split at hchunk
  · exact h.complete chunk hchunk
  · next hcurrent =>
    obtain hold | hnew := mem_append.mp hchunk
    · exact h.complete chunk hold
    · rw [mem_singleton.mp hnew]
      exact h.current.resolve_left hcurrent

end AgentBridge.Systems
