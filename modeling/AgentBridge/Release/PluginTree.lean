import AgentBridge.Paths.NormalForm

/-!
# The hash of a plugin tree

`hashExactTree` of `lib/plugin-policy.js`. The walk sorts the children of each directory by
name and the hash is taken of the texts of all entries. Where no two siblings are rated equal,
the walk lists the paths in one order, whatever `readdir` lists first; where the rewritten
separators leave different paths different, the text of a walk tells its entries.
-/

namespace AgentBridge.Release

open Paths List

variable {Content : Type}

/-- What `readdir` lists of a directory, in its order, and what is below. -/
inductive Listing (Content : Type) where
  | done
  | file (name : PathText) (content : Content) (rest : Listing Content)
  | directory (name : PathText) (children rest : Listing Content)

/-- An entry under the names on its path; a directory has no content. -/
structure TreeEntry (Content : Type) where
  path : List PathText
  content : Option Content
deriving DecidableEq

def TreeEntry.below (name : PathText) (entry : TreeEntry Content) : TreeEntry Content :=
  { entry with path := name :: entry.path }

/-- `left.localeCompare(right) <= 0` and the hashes of a text and of a file. -/
structure TreeHost (Content : Type) where
  notAfter : PathText → PathText → Bool
  total : ∀ a b, notAfter a b = true ∨ notAfter b a = true
  trans : ∀ a b c, notAfter a b = true → notAfter b c = true → notAfter a c = true
  sha256 : PathText → PathText
  sha256_injective : Function.Injective sha256
  sha256File : Content → PathText
  sha256File_injective : Function.Injective sha256File
  nul_sha256File : ∀ content, '\x00' ∉ sha256File content

structure TreeHash where
  treeSha256 : PathText
  fileCount : Nat
  entryCount : Nat
deriving DecidableEq

/-- A child with what the walk pushes for it. -/
abbrev Visit (Content : Type) := PathText × List (TreeEntry Content)

section

variable (host : TreeHost Content)

abbrev NotAfter (left right : Visit Content) : Prop := host.notAfter left.1 right.1 = true

def sortChildren (children : List (Visit Content)) : List (Visit Content) :=
  children.insertionSort (NotAfter host)

def visits : Listing Content → List (Visit Content)
  | .done => []
  | .file name content rest => (name, [⟨[name], some content⟩]) :: visits rest
  | .directory name children rest =>
    (name, ⟨[name], none⟩ ::
      ((sortChildren host (visits children)).flatMap Prod.snd).map (.below name)) :: visits rest

def walk (current : Listing Content) : List (TreeEntry Content) :=
  (sortChildren host (visits host current)).flatMap Prod.snd

def relative (path : List PathText) : PathText := toForwardSlashes (joinSegments path)

def entryText (entry : TreeEntry Content) : PathText :=
  match entry.content with
  | none => ['D', '\x00'] ++ relative entry.path ++ ['\n']
  | some content =>
    ['F', '\x00'] ++ relative entry.path ++ ['\x00'] ++ host.sha256File content ++ ['\n']

def hashExactTree (root : Listing Content) : TreeHash :=
  let entries := walk host root
  ⟨host.sha256 (entries.flatMap (entryText host)), entries.countP (·.content.isSome),
    entries.length⟩

end

namespace Listing

/-- The relative paths, kinds and contents of a tree. -/
def entries : Listing Content → List (TreeEntry Content)
  | done => []
  | file name content rest => ⟨[name], some content⟩ :: rest.entries
  | directory name children rest =>
    ⟨[name], none⟩ :: (children.entries.map (.below name) ++ rest.entries)

def names : Listing Content → List PathText
  | done => []
  | file name _ rest => name :: rest.names
  | directory name _ rest => name :: rest.names

/-- The predicate holds of every name and its later siblings. -/
def Each (P : PathText → List PathText → Prop) : Listing Content → Prop
  | done => True
  | file name _ rest => P name rest.names ∧ rest.Each P
  | directory name children rest => P name rest.names ∧ children.Each P ∧ rest.Each P

end Listing

def SameTree (left right : Listing Content) : Prop :=
  ∀ entry, entry ∈ left.entries ↔ entry ∈ right.entries

/-- The file system allows the name beside the others. -/
def Allowed (name : PathText) (others : List PathText) : Prop :=
  name ≠ [] ∧ '/' ∉ name ∧ '\x00' ∉ name ∧ name ∉ others

/-- The comparison does not rate the name equal to another one. -/
def Told (host : TreeHost Content) (name : PathText) (others : List PathText) : Prop :=
  ∀ other ∈ others, ¬ (host.notAfter name other = true ∧ host.notAfter other name = true)

/-- Different paths of the trees are different with forward slashes. -/
def PathsTold (left right : Listing Content) : Prop :=
  ∀ a ∈ left.entries, ∀ b ∈ right.entries, relative a.path = relative b.path → a.path = b.path

/-! ### The order of a walk -/

section

variable {host : TreeHost Content}

theorem flatMap_sortChildren_perm (children : List (Visit Content)) :
    ((sortChildren host children).flatMap Prod.snd).Perm (children.flatMap Prod.snd) :=
  (perm_insertionSort _ children).flatMap_right _

theorem visits_perm (listing : Listing Content) :
    ((visits host listing).flatMap Prod.snd).Perm listing.entries := by
  induction listing with
  | done => exact .nil
  | file name content rest ih => exact ih.cons _
  | directory name children rest hchildren hrest =>
    apply List.Perm.cons
    exact (((flatMap_sortChildren_perm _).trans hchildren).map _).append hrest

theorem mem_walk {listing : Listing Content} {entry : TreeEntry Content} :
    entry ∈ walk host listing ↔ entry ∈ listing.entries :=
  ((flatMap_sortChildren_perm _).trans (visits_perm listing)).mem_iff

/-- Directories come before what is below them, and siblings in their order. -/
def Before (host : TreeHost Content) : List PathText → List PathText → Prop
  | _, [] => False
  | [], _ :: _ => True
  | a :: p, b :: q =>
    a = b ∧ Before host p q ∨ host.notAfter a b = true ∧ host.notAfter b a = false

theorem Before.asymm {p q : List PathText} (h : Before host p q) : ¬ Before host q p := by
  induction p generalizing q with
  | nil => cases q <;> simp [Before]
  | cons a p ih =>
    cases q with
    | nil => exact h.elim
    | cons b q =>
      simp only [Before] at h ⊢
      grind

structure Ordered (host : TreeHost Content) (children : List (Visit Content)) : Prop where
  apart : children.Pairwise fun left right => ¬ (NotAfter host left right ∧ NotAfter host right left)
  under : ∀ child ∈ children, ∀ entry ∈ child.2, ∃ path, entry.path = child.1 :: path
  ordered : ∀ child ∈ children, child.2.Pairwise fun a b => Before host a.path b.path

theorem Ordered.flatMap {children : List (Visit Content)} (h : Ordered host children) :
    ((sortChildren host children).flatMap Prod.snd).Pairwise
      fun a b => Before host a.path b.path := by
  have hperm : (sortChildren host children).Perm children := perm_insertionSort _ children
  have htotal : Std.Total (NotAfter host) := ⟨fun _ _ => host.total _ _⟩
  have htrans : IsTrans _ (NotAfter host) := ⟨fun _ _ _ => host.trans _ _ _⟩
  have hsorted := pairwise_insertionSort (NotAfter host) children
  have happart := hperm.symm.pairwise h.apart fun hne htie => hne htie.symm
  refine pairwise_flatMap.mpr ⟨fun child hchild => h.ordered child (hperm.subset hchild), ?_⟩
  refine (hsorted.and happart).imp_of_mem ?_
  intro left right hleft hright ⟨hle, hne⟩ a ha b hb
  obtain ⟨p, hp⟩ := h.under left (hperm.subset hleft) a ha
  obtain ⟨q, hq⟩ := h.under right (hperm.subset hright) b hb
  rw [hp, hq]
  exact Or.inr ⟨hle, Bool.eq_false_iff.mpr fun hge => hne ⟨hle, hge⟩⟩

theorem name_mem_of_mem_visits {listing : Listing Content} {child : Visit Content}
    (h : child ∈ visits host listing) : child.1 ∈ listing.names := by
  induction listing with
  | done => cases h
  | file name content rest ih =>
    cases h with
    | head => exact mem_cons_self
    | tail _ h => exact mem_cons_of_mem _ (ih h)
  | directory name children rest _ ih =>
    cases h with
    | head => exact mem_cons_self
    | tail _ h => exact mem_cons_of_mem _ (ih h)

theorem ordered_visits {listing : Listing Content} (h : listing.Each (Told host)) :
    Ordered host (visits host listing) := by
  have hcons : ∀ {name : PathText} {own : List (TreeEntry Content)} {rest : Listing Content},
      Told host name rest.names → Ordered host (visits host rest) →
      (∀ entry ∈ own, ∃ path, entry.path = name :: path) →
      (own.Pairwise fun a b => Before host a.path b.path) →
      Ordered host ((name, own) :: visits host rest) := by
    intro name own rest htold hrest hunder hordered
    refine ⟨pairwise_cons.mpr ⟨?_, hrest.apart⟩, ?_, ?_⟩
    · exact fun child hchild => htold _ (name_mem_of_mem_visits hchild)
    · exact forall_mem_cons.mpr ⟨hunder, hrest.under⟩
    · exact forall_mem_cons.mpr ⟨hordered, hrest.ordered⟩
  induction listing with
  | done => exact ⟨.nil, nofun, nofun⟩
  | file name content rest ih =>
    exact hcons h.1 (ih h.2) (by simp) (pairwise_singleton _ _)
  | directory name children rest hchildren hrest =>
    have hordered := hchildren h.2.1
    refine hcons h.1 (hrest h.2.2) ?_ (pairwise_cons.mpr ⟨?_, ?_⟩)
    · refine forall_mem_cons.mpr ⟨⟨[], rfl⟩, forall_mem_map.mpr ?_⟩
      exact fun entry _ => ⟨entry.path, rfl⟩
    · refine forall_mem_map.mpr fun entry hentry => Or.inl ⟨rfl, ?_⟩
      obtain ⟨child, hchild, hin⟩ := mem_flatMap.mp hentry
      have hmem := (mem_insertionSort _).mp hchild
      obtain ⟨path, hpath⟩ := hordered.under child hmem entry hin
      rw [hpath]
      trivial
    · exact pairwise_map.mpr (hordered.flatMap.imp fun hbefore => Or.inl ⟨rfl, hbefore⟩)

/-- A walk lists the same entries in the same order. -/
theorem walk_eq_iff {left right : Listing Content} (hleft : left.Each (Told host))
    (hright : right.Each (Told host)) : walk host left = walk host right ↔ SameTree left right := by
  constructor
  · intro heq entry
    rw [← @mem_walk _ host, heq, mem_walk]
  · intro hsame
    have hl := (ordered_visits hleft).flatMap
    have hr := (ordered_visits hright).flatMap
    have hne : ∀ a b : TreeEntry Content, Before host a.path b.path → a ≠ b := by
      intro a b hbefore heq
      rw [heq] at hbefore
      exact hbefore.asymm hbefore
    apply List.Perm.eq_of_pairwise (fun _ _ _ _ hab hba => absurd hba hab.asymm) hl hr
    apply (perm_ext_iff_of_nodup (hl.imp (hne _ _)) (hr.imp (hne _ _))).mpr
    exact fun entry => mem_walk.trans ((hsame entry).trans mem_walk.symm)

/-! ### The text of a walk -/

theorem append_cons_inj {sep : Char} {x y a b : PathText} (hx : sep ∉ x) (hy : sep ∉ y)
    (h : x ++ sep :: a = y ++ sep :: b) : x = y ∧ a = b := by
  have hsplit := congrArg (List.splitOn sep) h
  rw [splitOn_append_cons_self, splitOn_append_cons_self, splitOn_eq_singleton hx,
    splitOn_eq_singleton hy] at hsplit
  obtain rfl := (List.cons.inj hsplit).1
  exact ⟨rfl, (List.cons.inj (append_cancel_left h)).2⟩

/-- A field of an entry ends where the line of the entry does. -/
theorem append_newline_inj {x y : PathText} (hx : '\x00' ∉ x) (hy : '\x00' ∉ y)
    {first second : List (TreeEntry Content)}
    (h : x ++ '\n' :: first.flatMap (entryText host) =
      y ++ '\n' :: second.flatMap (entryText host)) :
    x = y ∧ first.flatMap (entryText host) = second.flatMap (entryText host) := by
  have hstart : ∀ entries : List (TreeEntry Content), entries.flatMap (entryText host) = [] ∨
      ∃ marker rest, marker ≠ '\x00' ∧
        entries.flatMap (entryText host) = marker :: '\x00' :: rest := by
    intro entries
    cases entries with
    | nil => exact Or.inl rfl
    | cons entry entries =>
      right
      rw [flatMap_cons, entryText]
      cases entry.content with
      | none => exact ⟨'D', _, by decide, rfl⟩
      | some content => exact ⟨'F', _, by decide, rfl⟩
  have hfield : ∀ {z : PathText} {marker : Char}, '\x00' ∉ z → marker ≠ '\x00' →
      '\x00' ∉ z ++ ['\n', marker] := by
    intro z marker hz hmarker
    simp [hz, Ne.symm hmarker]
  cases hstart first with
  | inl hfirst =>
    cases hstart second with
    | inl hsecond =>
      rw [hfirst, hsecond] at h ⊢
      exact ⟨append_cancel_right h, rfl⟩
    | inr hsecond =>
      obtain ⟨marker, rest, _, hsecond⟩ := hsecond
      rw [hfirst, hsecond] at h
      have hmem : '\x00' ∈ x ++ ['\n'] := by rw [h]; simp
      simp [hx] at hmem
  | inr hfirst =>
    obtain ⟨marker, rest, hmarker, hfirst⟩ := hfirst
    cases hstart second with
    | inl hsecond =>
      rw [hfirst, hsecond] at h
      have hmem : '\x00' ∈ y ++ ['\n'] := by rw [← h]; simp
      simp [hy] at hmem
    | inr hsecond =>
      obtain ⟨marker', rest', hmarker', hsecond⟩ := hsecond
      rw [hfirst, hsecond] at h ⊢
      have hcut : (x ++ ['\n', marker]) ++ '\x00' :: rest =
          (y ++ ['\n', marker']) ++ '\x00' :: rest' := by simpa using h
      obtain ⟨hxy, rfl⟩ := append_cons_inj (hfield hx hmarker) (hfield hy hmarker') hcut
      obtain ⟨rfl, htail⟩ := append_inj' hxy rfl
      exact ⟨rfl, by rw [(List.cons.inj (List.cons.inj htail).2).1]⟩

theorem entries_eq_of_text {first second : List (TreeEntry Content)}
    (htold : ∀ a ∈ first, ∀ b ∈ second, relative a.path = relative b.path → a.path = b.path)
    (hfirst : ∀ entry ∈ first, '\x00' ∉ relative entry.path)
    (hsecond : ∀ entry ∈ second, '\x00' ∉ relative entry.path)
    (h : first.flatMap (entryText host) = second.flatMap (entryText host)) : first = second := by
  induction first generalizing second with
  | nil =>
    cases second with
    | nil => rfl
    | cons other second =>
      obtain ⟨path, content⟩ := other
      cases content <;> simp [entryText] at h
  | cons entry first ih =>
    obtain ⟨path, content⟩ := entry
    cases second with
    | nil => cases content <;> simp [entryText] at h
    | cons other second =>
      obtain ⟨path', content'⟩ := other
      have hnul : '\x00' ∉ relative path := hfirst _ mem_cons_self
      have hnul' : '\x00' ∉ relative path' := hsecond _ mem_cons_self
      have hpath : relative path = relative path' → path = path' :=
        htold _ mem_cons_self _ mem_cons_self
      have hrest := ih (fun a ha b hb => htold a (mem_cons_of_mem _ ha) b
        (mem_cons_of_mem _ hb)) (forall_mem_cons.mp hfirst).2
        (forall_mem_cons.mp hsecond).2
      cases content with
      | none =>
        cases content' with
        | none =>
          simp only [flatMap_cons, entryText, append_assoc, cons_append,
            nil_append, List.cons.injEq, true_and] at h
          obtain ⟨hrelative, htail⟩ := append_newline_inj hnul hnul' h
          rw [hpath hrelative, hrest htail]
        | some _ => simp [entryText] at h
      | some digest =>
        cases content' with
        | none => simp [entryText] at h
        | some digest' =>
          simp only [flatMap_cons, entryText, append_assoc, cons_append,
            nil_append, List.cons.injEq, true_and] at h
          obtain ⟨hrelative, hfile⟩ := append_cons_inj hnul hnul' h
          obtain ⟨hdigest, htail⟩ := append_newline_inj (host.nul_sha256File _)
            (host.nul_sha256File _) hfile
          rw [hpath hrelative, hrest htail, host.sha256File_injective hdigest]

end

/-! ### Two trees -/

theorem not_mem_joinSegments {c : Char} (hc : c ≠ '/') {path : List PathText}
    (h : ∀ name ∈ path, c ∉ name) : c ∉ joinSegments path := by
  intro hmem
  have hany : (joinSegments path).any (· == c) = true :=
    any_eq_true.mpr ⟨c, hmem, beq_self_eq_true c⟩
  rw [@any_joinSegments (· == c) (beq_eq_false_iff_ne.mpr hc.symm)] at hany
  obtain ⟨name, hname, hin⟩ := any_eq_true.mp hany
  obtain ⟨d, hd, heq⟩ := any_eq_true.mp hin
  exact h name hname (eq_of_beq heq ▸ hd)

theorem nul_not_mem_relative {listing : Listing Content} (h : listing.Each Allowed) :
    ∀ entry ∈ listing.entries, '\x00' ∉ relative entry.path := by
  have hnames : ∀ entry ∈ listing.entries, ∀ name ∈ entry.path, '\x00' ∉ name := by
    induction listing with
    | done => exact nofun
    | file name content rest ih =>
      exact forall_mem_cons.mpr ⟨forall_mem_singleton.mpr h.1.2.2.1, ih h.2⟩
    | directory name children rest hchildren hrest =>
      refine forall_mem_cons.mpr ⟨forall_mem_singleton.mpr h.1.2.2.1,
        forall_mem_append.mpr ⟨forall_mem_map.mpr fun entry hentry => ?_, hrest h.2.2⟩⟩
      exact forall_mem_cons.mpr ⟨h.1.2.2.1, hchildren h.2.1 entry hentry⟩
  intro entry hentry hmem
  obtain ⟨c, hc, heq⟩ := mem_map.mp hmem
  split_ifs at heq
  · exact absurd heq (by decide)
  · exact not_mem_joinSegments (by decide) (hnames entry hentry) (heq ▸ hc)

/-- Trees that list the same entries, in any order, have one hash, and other trees another. -/
theorem hashExactTree_eq_iff (host : TreeHost Content) {left right : Listing Content}
    (hleft : left.Each Allowed) (hright : right.Each Allowed) (hpaths : PathsTold left right)
    (hleft' : left.Each (Told host)) (hright' : right.Each (Told host)) :
    hashExactTree host left = hashExactTree host right ↔ SameTree left right := by
  rw [← walk_eq_iff hleft' hright']
  constructor
  · intro h
    exact entries_eq_of_text (fun a ha b hb => hpaths a (mem_walk.mp ha) b (mem_walk.mp hb))
      (fun a ha => nul_not_mem_relative hleft a (mem_walk.mp ha))
      (fun b hb => nul_not_mem_relative hright b (mem_walk.mp hb))
      (host.sha256_injective (TreeHash.mk.inj h).1)
  · intro h
    rw [hashExactTree, hashExactTree, h]

/-- Files that hold one bit, and names compared by their lengths or not at all. -/
def bitTrees (compares : Bool) : TreeHost Bool where
  notAfter := fun left right => !compares || left.length ≤ right.length
  total := by intro a b; cases compares <;> simp; omega
  trans := by intro a b c; cases compares <;> simp; omega
  sha256 := id
  sha256_injective := fun _ _ h => h
  sha256File := fun bit => [if bit then '1' else '0']
  sha256File_injective := by intro a b; cases a <;> cases b <;> decide
  nul_sha256File := by decide

def plugin : Listing Bool := .directory ['a'] (.file ['b'] true .done) .done

theorem hashExactTree_eq_iff_of_plugin :
    plugin.Each Allowed ∧ PathsTold plugin plugin ∧ plugin.Each (Told (bitTrees true)) ∧
      (hashExactTree (bitTrees true) plugin = hashExactTree (bitTrees true) plugin ↔
        SameTree plugin plugin) := by
  have hallowed : plugin.Each Allowed := by simp [plugin, Listing.Each, Listing.names, Allowed]
  have hpaths : PathsTold plugin plugin := by unfold PathsTold; decide
  have htold : plugin.Each (Told (bitTrees true)) := by
    simp [plugin, Listing.Each, Listing.names, Told]
  exact ⟨hallowed, hpaths, htold,
    hashExactTree_eq_iff _ hallowed hallowed hpaths htold htold⟩

/-- A file whose name holds a backslash hashes as a file in a directory, and siblings that are
rated equal hash in the order of `readdir`. -/
theorem hashExactTree_not_exact :
    (hashExactTree (bitTrees true) plugin =
        hashExactTree (bitTrees true) (.directory ['a'] .done (.file ['a', '\\', 'b'] true .done)) ∧
      ¬ SameTree plugin (.directory ['a'] .done (.file ['a', '\\', 'b'] true .done))) ∧
    hashExactTree (bitTrees false) (.file ['a'] true (.file ['b'] true .done)) ≠
      hashExactTree (bitTrees false) (.file ['b'] true (.file ['a'] true .done)) ∧
      SameTree (.file ['a'] true (.file ['b'] true .done) : Listing Bool)
        (.file ['b'] true (.file ['a'] true .done)) := by
  refine ⟨⟨by decide, ?_⟩, by decide, ?_⟩
  · intro hsame
    have hmem := (hsame ⟨[['a'], ['b']], some true⟩).mp (by decide)
    revert hmem
    decide
  · intro entry
    simp only [Listing.entries, mem_cons, not_mem_nil, or_false]
    exact Or.comm

end AgentBridge.Release
