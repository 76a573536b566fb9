import AgentBridge.Queue.GroupSettled

/-!
# The turns of a repository

`scheduleAutoIntegration`: every scheduled job waits in the pending list of its repository and
adds one turn to its chain. A turn takes the jobs that wait, or the oldest of them when batches
are off, and settles each of them with its outcome.
-/

namespace AgentBridge.Queue.Batches

open Paths Systems List

/-- A job as it was scheduled, with the number of the call. -/
structure Entry where
  number : Nat
  job : ScheduledJob

/-- The chain of one repository. -/
structure Turns where
  pending : List Entry
  /-- The turns that have not begun. -/
  chain : Nat
  /-- The group of the turn that runs; a turn without a group ends at once. -/
  running : List Entry
  settled : List (Entry × Option Outcome)
  /-- Every entry that was scheduled, in order. -/
  scheduled : List Entry

def idle : Turns := ⟨[], 0, [], [], []⟩

inductive TurnEvent where
  | schedule (job : ScheduledJob)
  /-- The next turn of the chain begins. -/
  | turn
  /-- The group of the turn is integrated with these answers. -/
  | finish (answers : List Answers)

/-- Every entry of the group is settled with the outcome at its place. -/
def Turns.settle (s : Turns) (outcomeAt : Nat → Option Outcome) : Turns :=
  { s with
    running := []
    settled := s.settled ++ s.running.zipIdx.map fun entry => (entry.1, outcomeAt entry.2) }

section

variable (platform : Platform) (batchEnabled : Bool)

def turnStep (s : Turns) : TurnEvent → Turns
  | .schedule job =>
    let entry : Entry := ⟨s.scheduled.length, job⟩
    { s with
      pending := s.pending ++ [entry]
      chain := s.chain + 1
      scheduled := s.scheduled ++ [entry] }
  | .turn =>
    if s.running = [] ∧ 0 < s.chain then
      { s with
        pending := if batchEnabled then [] else s.pending.drop 1
        chain := s.chain - 1
        running := if batchEnabled then s.pending else s.pending.take 1 }
    else s
  | .finish answers =>
    match ((autoIntegrateQueueJobs platform batchEnabled (s.running.map Entry.job)
        ()).run perform [] answers).2 with
    | some (.ok outcomes, _) => s.settle fun index => (outcomes[index]?).join
    | some (.error _, _) => s.settle fun _ => none
    | none => s

end

/-- What holds of the chain of a repository: the entries are settled in the order in which they
were scheduled, each with what came of its job, and no entry waits without a turn to come. -/
structure TurnsSound (s : Turns) : Prop where
  order : s.settled.map Prod.fst ++ s.running ++ s.pending = s.scheduled
  numbers : s.scheduled.map Entry.number = List.range s.scheduled.length
  turns : s.pending.length ≤ s.chain
  own : ∀ entry ∈ s.settled, ∃ history index, OutcomeOf history index entry.1.job entry.2

section

variable {platform : Platform} {batchEnabled : Bool} {s : Turns}

theorem TurnsSound.schedule (h : TurnsSound s) (job : ScheduledJob) :
    TurnsSound (turnStep platform batchEnabled s (.schedule job)) := by
  refine ⟨?_, ?_, ?_, h.own⟩
  · simp only [turnStep, ← append_assoc, h.order]
  · simp only [turnStep, map_append, map_cons, map_nil, h.numbers,
      length_append, length_cons, length_nil, range_succ]
  · have := h.turns
    simp only [turnStep, length_append, length_cons, length_nil]
    omega

theorem TurnsSound.turn (h : TurnsSound s) :
    TurnsSound (turnStep platform batchEnabled s .turn) := by
  have horder := h.order
  have hturns := h.turns
  simp only [turnStep]
  split
  · next hready =>
    rw [hready.1, append_nil] at horder
    cases batchEnabled with
    | true => exact ⟨by simpa using horder, h.numbers, Nat.zero_le _, h.own⟩
    | false =>
      refine ⟨?_, h.numbers, ?_, h.own⟩
      · simpa only [Bool.false_eq_true, if_false, append_assoc, take_append_drop]
          using horder
      · simp only [Bool.false_eq_true, if_false, length_drop]
        omega
  · exact h

theorem TurnsSound.settle (h : TurnsSound s) {outcomeAt : Nat → Option Outcome}
    (hown : ∀ index job, (s.running.map Entry.job)[index]? = some job →
      ∃ history, OutcomeOf history index job (outcomeAt index)) :
    TurnsSound (s.settle outcomeAt) := by
  refine ⟨?_, h.numbers, h.turns, ?_⟩
  · have hfst : (s.running.zipIdx.map fun entry => (entry.1, outcomeAt entry.2)).map Prod.fst =
        s.running := by
      rw [map_map]
      exact zipIdx_map_fst 0 s.running
    simp only [Turns.settle, map_append, hfst, append_nil, h.order]
  · intro entry hentry
    cases mem_append.mp hentry with
    | inl hold => exact h.own entry hold
    | inr hnew =>
      obtain ⟨⟨running, index⟩, hrunning, rfl⟩ := mem_map.mp hnew
      have hat : s.running[index]? = some running := mem_zipIdx_iff_getElem?.mp hrunning
      have hjob : (s.running.map Entry.job)[index]? = some running.job := by
        rw [List.getElem?_map, hat, Option.map_some]
      obtain ⟨history, houtcome⟩ := hown index running.job hjob
      exact ⟨history, index, houtcome⟩

theorem TurnsSound.finish (h : TurnsSound s) (answers : List Answers) :
    TurnsSound (turnStep platform batchEnabled s (.finish answers)) := by
  have hspec := autoIntegrateQueueJobs_spec platform batchEnabled (s.running.map Entry.job)
  simp only [turnStep]
  split
  · next outcomes locals hended =>
    have hreturned := Program.wp_returned _ hspec (Prod.ext rfl hended)
    have hgroup : GroupSettled (s.running.map Entry.job) _ outcomes := hreturned
    refine h.settle fun index job hjob => ?_
    obtain ⟨outcome, hat, houtcome⟩ := hgroup.own index job hjob
    have hsame : (outcomes[index]?).join = outcome := by rw [hat, Option.join_some]
    exact ⟨_, hsame ▸ houtcome⟩
  · next error locals hended =>
    have hreturned := Program.wp_returned _ hspec (Prod.ext rfl hended)
    have hthrew : GroupThrew (s.running.map Entry.job) _ error := hreturned
    obtain ⟨job, hjobs, -⟩ := hthrew
    let history : History := [⟨.autoIntegrateQueueJob 0 job, .error error⟩]
    refine h.settle fun index other hother => ⟨history, ?_⟩
    rw [hjobs] at hother
    cases index with
    | zero =>
      rw [List.getElem?_cons_zero, Option.some.injEq] at hother
      subst hother
      exact @OutcomeOf.alone _ 0 _ (.error error) mem_cons_self
    | succ index => simp at hother
  · exact h

theorem turnsSound_run (events : List TurnEvent) :
    TurnsSound (run (turnStep platform batchEnabled) idle events) := by
  have hidle : TurnsSound idle := ⟨rfl, rfl, Nat.zero_le _, nofun⟩
  refine run_preserves (fun s event h => ?_) hidle events
  cases event with
  | schedule job => exact h.schedule job
  | turn => exact h.turn
  | finish answers => exact h.finish answers

theorem TurnsSound.all_settled (h : TurnsSound s) (hchain : s.chain = 0) (hidle : s.running = []) :
    s.settled.map Prod.fst = s.scheduled := by
  have hpending : s.pending = [] := length_eq_zero_iff.mp (by have := h.turns; omega)
  have horder := h.order
  rw [hidle, hpending, append_nil, append_nil] at horder
  exact horder

end

/-- Whatever the claims, the engine and the records answer: a batch ends and settles or leaves
each of its members, or throws before anything was integrated; a group ends with one outcome for
each of its jobs and integrates none of them twice, or is one job whose integration threw; and
the chain of a repository settles every scheduled job once, in order, with what came of it. -/
theorem group_settles_every_job_once (platform : Platform) (batchEnabled : Bool) :
    (∀ (first : Member) (members : List Member) (before : History) (stream : Nat → Answers),
      ∃ n after result, (autoIntegrateBatch first members ()).run perform before
          ((List.range n).map stream) = (after, some (result, ())) ∧
        match result with
        | .ok result => BatchLanded before after (first :: members) result
        | .error _ => Quiet before after) ∧
    (∀ (jobs : List ScheduledJob) (stream : Nat → Answers),
      ∃ n after result, (autoIntegrateQueueJobs platform batchEnabled jobs ()).run perform []
          ((List.range n).map stream) = (after, some (result, ())) ∧
        match result with
        | .ok outcomes => GroupSettled jobs after outcomes
        | .error error => GroupThrew jobs after error) ∧
    ∀ events : List TurnEvent,
      let turns := run (turnStep platform batchEnabled) idle events
      TurnsSound turns ∧
        (turns.chain = 0 → turns.running = [] → turns.settled.map Prod.fst = turns.scheduled) := by
  refine ⟨fun first members before stream => ?_, fun jobs stream => ?_, fun events => ?_⟩
  · obtain ⟨n, after, result, _, hrun, hended⟩ :=
      Procedure.exists_run_ended (autoIntegrateBatch_spec first members) stream
    refine ⟨n, after, result, hrun, ?_⟩
    cases result <;> exact hended
  · obtain ⟨n, after, result, _, hrun, hended⟩ :=
      Procedure.exists_run_ended (autoIntegrateQueueJobs_spec platform batchEnabled jobs) stream
    refine ⟨n, after, result, hrun, ?_⟩
    cases result <;> exact hended
  · have hsound : TurnsSound (run (turnStep platform batchEnabled) idle events) :=
      turnsSound_run events
    exact ⟨hsound, hsound.all_settled⟩

/-! ## A group of one -/

def soleJob : ScheduledJob where
  cwd := "/work".toList
  jobId := "job-1"
  agent := []
  model := []
  worktreePath := "/work/.worktrees/job-1".toList
  allowedEdits := ["docs".toList]
  forbiddenEdits := []
  sharedFiles := []
  serialOnly := []
  validationCommand := "npm test".toList
  sourceRecord := none
  changedFiles := ["docs/a.md".toList]
  laterAttempt := 0

/-- A group of one job whose integration throws ends with the error, without an outcome. -/
theorem sole_job_throws :
    ((autoIntegrateQueueJobs Integration.asciiPlatform true [soleJob] ()).run perform []
      [fun _ => .error ⟨"database_busy", []⟩]).2 = some (.error ⟨"database_busy", []⟩, ()) :=
  rfl

end AgentBridge.Queue.Batches
