import AgentBridge.Integration.IndexQuery

/-!
# One query or many

`git ls-files` answers for a path with its own entries and with everything below it. Asked
for all wanted paths at once, an entry below a wanted path is expected as long as it is
wanted itself. Asked in chunks, it must be wanted in the same chunk: where a wanted file
lies below another wanted path and the list is cut between the two, the batched query
refuses what one query accepts. Apart from that both give the same map.
-/

namespace AgentBridge.Integration

open Paths Systems List

/-- The path itself, or a path below it. -/
def covers (path entry : PathText) : Bool :=
  path == entry || path == ['.'] || (path ++ ['/']).isPrefixOf entry

/-- What Git lists for the paths of a chunk, in the order of the index. -/
def listed (index : List IndexEntry) (chunk : List PathText) : List IndexEntry :=
  index.filter fun e => chunk.any fun path => covers path e.path

/-- `git --literal-pathspecs ls-files --stage -z -- ...chunk` on an index. -/
def lsFiles (index : List IndexEntry) (chunk : List PathText) : Option CommandResult :=
  some ⟨.status 0, renderEntries (listed index chunk), []⟩

/-- The same procedure with one query for all wanted paths. -/
def plainGitIndexStageRecords (files : List PathText)
    (runChunkQuery : List PathText → Option CommandResult) :
    Except IndexQueryError (List (PathText × PathText)) :=
  let wanted := normalizeLockPathList files
  if wanted = [] then .ok [] else stageRecordsOver wanted [wanted] runChunkQuery

/-- All that Git lists for the chunk was asked for in the chunk. -/
def Closed (index : List IndexEntry) (chunk : List PathText) : Prop :=
  ∀ e ∈ index, (∃ path ∈ chunk, covers path e.path = true) → e.path ∈ chunk

/-- One query can be answered: nothing unwanted lies below a wanted path, and the wanted
paths have proper stages. -/
structure Answerable (index : List IndexEntry) (wanted : List PathText) : Prop where
  closed : Closed index wanted
  consistent : ∀ file ∈ wanted, Consistent (entriesOf file index)

/-- No entry lies below a wanted path of another chunk. -/
def Unsplit (index : List IndexEntry) (wanted : List PathText) : Prop :=
  ∀ chunk ∈ chunkGitIndexStageQueryPaths wanted, Closed index chunk

/-! ### Rendered entries can be read back -/

theorem IndexEntry.eq_of_record_eq {e other : IndexEntry} (h : e.record = other.record) :
    e = other := by
  have hpath : e.path = other.path := congrArg StageRecord.path h
  have htext : e.text = other.text := congrArg StageRecord.text h
  have hheader : e.header = other.header := by
    rw [IndexEntry.text, IndexEntry.text, hpath] at htext
    exact append_cancel_right htext
  have hsplit : [e.mode, e.objectId, e.stage] = [other.mode, other.objectId, other.stage] := by
    rw [← e.splitOn_header, ← other.splitOn_header, hheader]
  simp only [List.cons.injEq, and_true] at hsplit
  cases e
  cases other
  simp only [IndexEntry.mk.injEq]
  exact ⟨hsplit.1, hsplit.2.1, hsplit.2.2, hpath⟩

theorem renderEntries_injective : Function.Injective renderEntries := by
  intro first second h
  have hfirst : parseOutput ((first ++ second).map (·.path)) (renderEntries first) =
      .ok (first.map (·.record)) :=
    parseOutput_eq_ok_iff.mpr ⟨first, rfl, rfl, fun e he =>
      mem_map_of_mem (mem_append_left _ he)⟩
  have hsecond : parseOutput ((first ++ second).map (·.path)) (renderEntries second) =
      .ok (second.map (·.record)) :=
    parseOutput_eq_ok_iff.mpr ⟨second, rfl, rfl, fun e he =>
      mem_map_of_mem (mem_append_right _ he)⟩
  rw [h, hsecond] at hfirst
  have hrecord : Function.Injective IndexEntry.record := fun _ _ => IndexEntry.eq_of_record_eq
  exact hrecord.list_map (Except.ok.inj hfirst).symm

/-! ### What a faithful Git makes of the chunks -/

section

variable {index : List IndexEntry} {chunks : List (List PathText)} {wanted : List PathText}

variable {chunk : List PathText}

theorem mem_listed {e : IndexEntry} :
    e ∈ listed index chunk ↔ e ∈ index ∧ ∃ path ∈ chunk, covers path e.path = true := by
  rw [listed, mem_filter, any_eq_true]

theorem answered_lsFiles_iff {entries : List IndexEntry} :
    Answered (lsFiles index) chunk entries ↔ entries = listed index chunk ∧ Closed index chunk := by
  constructor
  · rintro ⟨⟨result, hresult, -, houtput⟩, hasked⟩
    cases hresult
    obtain rfl : listed index chunk = entries := renderEntries_injective houtput
    exact ⟨rfl, fun e he hpath => hasked e (mem_listed.mpr ⟨he, hpath⟩)⟩
  · rintro ⟨rfl, hclosed⟩
    refine ⟨⟨_, rfl, rfl, rfl⟩, ?_⟩
    intro e he
    obtain ⟨hindex, hpath⟩ := mem_listed.mp he
    exact hclosed e hindex hpath

theorem forall₂_answered_iff {answers : List (List IndexEntry)} :
    List.Forall₂ (Answered (lsFiles index)) chunks answers ↔
      answers = chunks.map (listed index) ∧ ∀ chunk ∈ chunks, Closed index chunk := by
  constructor
  · intro h
    induction h with
    | nil => exact ⟨rfl, nofun⟩
    | cons hchunk _ ih =>
      obtain ⟨rfl, hclosed⟩ := answered_lsFiles_iff.mp hchunk
      obtain ⟨rfl, hrest⟩ := ih
      exact ⟨rfl, forall_mem_cons.mpr ⟨hclosed, hrest⟩⟩
  · rintro ⟨rfl, hclosed⟩
    rw [forall₂_map_right_iff, forall₂_same]
    exact fun chunk hchunk => answered_lsFiles_iff.mpr ⟨rfl, hclosed chunk hchunk⟩

variable {file : PathText}

theorem entriesOf_listed_of_mem (h : file ∈ chunk) :
    entriesOf file (listed index chunk) = entriesOf file index := by
  rw [entriesOf, entriesOf, listed, filter_filter]
  refine filter_congr ?_
  intro e _
  by_cases hpath : e.path = file
  · have hany : (chunk.any fun path => covers path e.path) = true :=
      any_eq_true.mpr ⟨file, h, by simp [covers, hpath]⟩
    rw [hany, Bool.and_true]
  · simp [hpath]

theorem entriesOf_listed_of_not_mem (hclosed : Closed index chunk) (h : file ∉ chunk) :
    entriesOf file (listed index chunk) = [] := by
  rw [entriesOf, filter_eq_nil_iff]
  intro e he
  obtain ⟨hindex, hpath⟩ := mem_listed.mp he
  rw [decide_eq_true_eq]
  rintro rfl
  exact h (hclosed e hindex hpath)

/-- The entries of a wanted path come in the answer of its own chunk, and in no other. -/
theorem entriesOf_listed (hnodup : chunks.flatten.Nodup)
    (hclosed : ∀ chunk ∈ chunks, Closed index chunk) (hfile : file ∈ chunks.flatten) :
    entriesOf file (chunks.map (listed index)).flatten = entriesOf file index := by
  induction chunks with
  | nil => exact absurd hfile not_mem_nil
  | cons chunk chunks ih =>
    obtain ⟨hhere, hlater⟩ := forall_mem_cons.mp hclosed
    have hsplit : entriesOf file ((chunk :: chunks).map (listed index)).flatten =
        entriesOf file (listed index chunk) ++
          entriesOf file (chunks.map (listed index)).flatten := by
      rw [map_cons, flatten_cons, entriesOf, filter_append]
      rfl
    rw [hsplit]
    by_cases hmem : file ∈ chunk
    · have hrest : entriesOf file (chunks.map (listed index)).flatten = [] := by
        rw [entriesOf, filter_flatten, flatten_eq_nil_iff]
        intro entries hentries
        obtain ⟨listing, hlisting, rfl⟩ := mem_map.mp hentries
        obtain ⟨other, hother, rfl⟩ := mem_map.mp hlisting
        refine entriesOf_listed_of_not_mem (hlater other hother) ?_
        intro hagain
        exact disjoint_of_nodup_append hnodup hmem
          (mem_flatten.mpr ⟨other, hother, hagain⟩)
      rw [entriesOf_listed_of_mem hmem, hrest, append_nil]
    · rw [entriesOf_listed_of_not_mem hhere hmem, nil_append]
      exact ih hnodup.of_append_right hlater ((mem_append.mp hfile).resolve_left hmem)

theorem stageRecordsOver_lsFiles_iff (hchunks : chunks.flatten = wanted) (hnodup : wanted.Nodup)
    {snapshot : List (PathText × PathText)} :
    stageRecordsOver wanted chunks (lsFiles index) = .ok snapshot ↔
      (∀ chunk ∈ chunks, Closed index chunk) ∧
      (∀ file ∈ wanted, Consistent (entriesOf file index)) ∧
      snapshot = wanted.map fun file => (file, renderEntries (entriesOf file index)) := by
  rw [stageRecordsOver_eq_ok_iff hchunks]
  have hentries : (∀ chunk ∈ chunks, Closed index chunk) → ∀ file ∈ wanted,
      entriesOf file (chunks.map (listed index)).flatten = entriesOf file index := by
    intro hclosed file hfile
    rw [← hchunks] at hfile hnodup
    exact entriesOf_listed hnodup hclosed hfile
  constructor
  · rintro ⟨answers, hanswers, hconsistent, rfl⟩
    obtain ⟨rfl, hclosed⟩ := forall₂_answered_iff.mp hanswers
    refine ⟨hclosed, ?_, ?_⟩
    · intro file hfile
      rw [← hentries hclosed file hfile]
      exact hconsistent file hfile
    · refine map_congr_left ?_
      intro file hfile
      rw [hentries hclosed file hfile]
  · rintro ⟨hclosed, hconsistent, rfl⟩
    refine ⟨_, forall₂_answered_iff.mpr ⟨rfl, hclosed⟩, ?_, ?_⟩
    · intro file hfile
      rw [hentries hclosed file hfile]
      exact hconsistent file hfile
    · refine map_congr_left ?_
      intro file hfile
      rw [hentries hclosed file hfile]

end

/-! ### The batched query -/

theorem nodup_normalizeLockPathList (files : List PathText) :
    (normalizeLockPathList files).Nodup := nodup_eraseDups _

theorem chunkGitIndexStageQueryPaths_flatten (paths : List PathText) :
    (chunkGitIndexStageQueryPaths paths).flatten = paths := chunks_flatten paths

section

variable {files : List PathText} {runChunkQuery : List PathText → Option CommandResult}
  {snapshot : List (PathText × PathText)}

/-- The batched query is the query over its chunks, also for no paths at all. -/
theorem batchedGitIndexStageRecords_eq :
    batchedGitIndexStageRecords files runChunkQuery =
      stageRecordsOver (normalizeLockPathList files)
        (chunkGitIndexStageQueryPaths (normalizeLockPathList files)) runChunkQuery := by
  unfold batchedGitIndexStageRecords
  by_cases hempty : normalizeLockPathList files = []
  · dsimp only
    rw [if_pos hempty, hempty]
    rfl
  · dsimp only
    rw [if_neg hempty]

theorem batched_lsFiles_iff {index : List IndexEntry} :
    batchedGitIndexStageRecords files (lsFiles index) = .ok snapshot ↔
      Unsplit index (normalizeLockPathList files) ∧
      (∀ file ∈ normalizeLockPathList files, Consistent (entriesOf file index)) ∧
      snapshot = (normalizeLockPathList files).map fun file =>
        (file, renderEntries (entriesOf file index)) := by
  rw [batchedGitIndexStageRecords_eq]
  exact stageRecordsOver_lsFiles_iff (chunkGitIndexStageQueryPaths_flatten _)
    (nodup_normalizeLockPathList files)

theorem plain_lsFiles_iff {index : List IndexEntry} :
    plainGitIndexStageRecords files (lsFiles index) = .ok snapshot ↔
      Answerable index (normalizeLockPathList files) ∧
      snapshot = (normalizeLockPathList files).map fun file =>
        (file, renderEntries (entriesOf file index)) := by
  unfold plainGitIndexStageRecords
  by_cases hempty : normalizeLockPathList files = []
  · dsimp only
    rw [if_pos hempty, hempty]
    constructor
    · intro h
      cases h
      exact ⟨⟨fun _ _ hpath => absurd hpath (by simp), nofun⟩, rfl⟩
    · rintro ⟨-, rfl⟩
      rfl
  · dsimp only
    rw [if_neg hempty, stageRecordsOver_lsFiles_iff (flatten_singleton)
      (nodup_normalizeLockPathList files)]
    constructor
    · rintro ⟨hclosed, hconsistent, hsnapshot⟩
      exact ⟨⟨hclosed _ mem_cons_self, hconsistent⟩, hsnapshot⟩
    · rintro ⟨⟨hclosed, hconsistent⟩, hsnapshot⟩
      refine ⟨?_, hconsistent, hsnapshot⟩
      intro chunk hchunk
      rw [mem_singleton.mp hchunk]
      exact hclosed

end

/-- What many queries answer, one query answers. -/
theorem Unsplit.closed {index : List IndexEntry} {wanted : List PathText}
    (h : Unsplit index wanted) : Closed index wanted := by
  rintro e he ⟨path, hpath, hcovers⟩
  rw [← chunkGitIndexStageQueryPaths_flatten wanted, mem_flatten] at hpath ⊢
  obtain ⟨chunk, hchunk, hmem⟩ := hpath
  exact ⟨chunk, hchunk, h chunk hchunk e he ⟨path, hmem, hcovers⟩⟩

/-- For every list of paths and every index: the batched query succeeds exactly when one
query does, with the same map, if and only if an answerable query has no entry below a
wanted path of another chunk. The chunks are the wanted list in order, of at most 100
paths within the budget or of a single path. And whatever the commands answer, the
batched query accepts only complete lists of entries of the paths asked, and its map
renders all of them. -/
theorem batched_query_exact (files : List PathText) (index : List IndexEntry) :
    ((∀ snapshot, batchedGitIndexStageRecords files (lsFiles index) = .ok snapshot ↔
        plainGitIndexStageRecords files (lsFiles index) = .ok snapshot) ↔
      (Answerable index (normalizeLockPathList files) →
        Unsplit index (normalizeLockPathList files))) ∧
    (chunkGitIndexStageQueryPaths (normalizeLockPathList files)).flatten =
      normalizeLockPathList files ∧
    (∀ chunk ∈ chunkGitIndexStageQueryPaths (normalizeLockPathList files),
      Fits gitIndexStageQueryBaseLength gitIndexStageQueryMaxPaths gitIndexStageQueryArgvBudget
        estimateGitIndexQueryArgLength chunk) ∧
    ∀ runChunkQuery snapshot, batchedGitIndexStageRecords files runChunkQuery = .ok snapshot ↔
      ∃ answers : List (List IndexEntry),
        List.Forall₂ (Answered runChunkQuery)
          (chunkGitIndexStageQueryPaths (normalizeLockPathList files)) answers ∧
        (∀ file ∈ normalizeLockPathList files,
          Consistent (entriesOf file answers.flatten)) ∧
        snapshot = (normalizeLockPathList files).map fun file =>
          (file, renderEntries (entriesOf file answers.flatten)) := by
  refine ⟨?_, chunkGitIndexStageQueryPaths_flatten _, chunks_fit (by decide) _, ?_⟩
  · constructor
    · intro hsame hanswerable
      have hplain := plain_lsFiles_iff.mpr ⟨hanswerable, rfl⟩
      exact (batched_lsFiles_iff.mp ((hsame _).mpr hplain)).1
    · intro hsplit snapshot
      rw [batched_lsFiles_iff, plain_lsFiles_iff]
      constructor
      · rintro ⟨hunsplit, hconsistent, hsnapshot⟩
        exact ⟨⟨hunsplit.closed, hconsistent⟩, hsnapshot⟩
      · rintro ⟨hanswerable, hsnapshot⟩
        exact ⟨hsplit hanswerable, hanswerable.consistent, hsnapshot⟩
  · intro runChunkQuery snapshot
    rw [batchedGitIndexStageRecords_eq]
    exact stageRecordsOver_eq_ok_iff (chunkGitIndexStageQueryPaths_flatten _)

/-- A patch of 99 files that also replaces the file `a` by the file `a/b`. -/
def replacedByDirectory : List PathText :=
  (List.range 99).map (fun i =>
    ['0', Char.ofNat (0x61 + i / 10), Char.ofNat (0x61 + i % 10)]) ++ [['a'], ['a', '/', 'b']]

/-- The index after the patch, as far as the directory goes. -/
def indexWithDirectory : List IndexEntry :=
  [{ mode := ['1', '0', '0', '6', '4', '4']
     objectId := List.replicate 40 '0'
     stage := ['0']
     path := ['a', '/', 'b']
     mode_valid := by decide
     objectId_valid := by decide
     stage_valid := by decide
     path_ne_nil := nofun
     path_nul := by decide }]

/-- One query answers; the batched query finds `a/b` unexpected in the first chunk. -/
theorem split_directory_is_refused :
    (plainGitIndexStageRecords replacedByDirectory (lsFiles indexWithDirectory)).isOk = true ∧
      (batchedGitIndexStageRecords replacedByDirectory
        (lsFiles indexWithDirectory)).isOk = false := by
  decide +kernel

end AgentBridge.Integration
