import AgentBridge.Integration.Preview
import AgentBridge.Systems.Run
import AgentBridge.Systems.SingleUse

/-!
# Single use of preview receipts

Any number of processes check and consume receipts while the databases are pruned. A
check looks at the clock in its first part and inserts the consumption row in its last
one; whatever the clock and the other processes do between is a run of events here.

A row of `consumed_integration_previews` lives until a prune whose clock has reached
the expiry of its receipt. A receipt is therefore used once as long as every consume
inserts its row before such a prune, and twice when one comes after it.
-/

namespace AgentBridge.Integration

open Systems List

structure ConsumedPreview where
  database : String
  previewId : String
  expiresAt : Nat
  consumedAt : Nat

/-- A check of a receipt that has passed its first part. -/
structure PreviewCall where
  processId : Nat
  receipt : PreviewReceipt
  expected : PreviewExpectation
  consume : Bool
  targetMismatch : String
  verified : Bool
  /-- Whether this process had issued or seen the receipt when it was verified. -/
  issued : Bool
deriving DecidableEq

/-- The databases, the memories of the processes and the checks in flight. The accepted
consumes and the prunes are history. -/
structure PreviewState where
  consumed : List ConsumedPreview
  memory : List IssuedPreview
  calls : List PreviewCall
  accepted : List PreviewCall
  prunes : List (String × Nat)

def PreviewState.empty : PreviewState := ⟨[], [], [], [], []⟩

inductive PreviewEvent where
  | issue (processId : Nat) (draft : PreviewIdentity) (contract : IntegrationContract)
      (globalMax projectMax now : Nat)
  | check (processId : Nat) (receipt : PreviewReceipt) (expected : PreviewExpectation)
      (consume : Bool) (now : Nat)
  | verify (call : PreviewCall) (moved : Bool)
  | claim (call : PreviewCall) (now : Nat)
  | prune (database : String) (now : Nat)
  | sweep (processId now : Nat)
  | exit (processId : Nat)

variable (runtime : PreviewRuntime)

namespace PreviewCall

/-- The normalized project key: the target directory of the apply. -/
def projectKey (call : PreviewCall) : String := call.expected.contract.cwd

def database (call : PreviewCall) : String := runtime.stateDbPath call.projectKey

/-- The parsed expiry, a time since the timestamps were checked. -/
def expiresAt (call : PreviewCall) : Nat := call.receipt.identity.expiresAt.getD 0

end PreviewCall

/-! ### The steps -/

def hexDigits (bytes : List Nat) : String :=
  String.ofList (bytes.flatMap fun byte => [Nat.digitChar (byte / 16), Nat.digitChar (byte % 16)])

/-- `makeIntegrationPreviewReceipt` without the capacity checks. -/
def issuedReceipt (draft : PreviewIdentity) (now : Nat) : PreviewReceipt :=
  let identity := { draft with
    createdAt := some now
    expiresAt := some (now + integrationPreviewTtlMs) }
  { previewId := hexDigits (runtime.previewDigest identity), identity := identity }

def makeIntegrationPreviewReceipt (s : PreviewState) (processId : Nat)
    (draft : PreviewIdentity) (contract : IntegrationContract)
    (globalMax projectMax now : Nat) : PreviewState :=
  let memory := sweepIntegrationPreviews s.memory processId now
  let own := memory.filter (·.processId == processId)
  if globalMax ≤ own.length ∨ projectMax ≤ own.countP (·.projectKey == contract.cwd) then
    { s with memory := memory }
  else
    let receipt := issuedReceipt runtime draft now
    { s with
      memory := rememberPreview memory
        { processId := processId
          previewId := receipt.previewId
          identity := receipt.identity
          contract := some contract
          expiresAt := now + integrationPreviewTtlMs
          projectKey := contract.cwd } }

def startCheck (s : PreviewState) (processId : Nat) (receipt : PreviewReceipt)
    (expected : PreviewExpectation) (consume : Bool) (now : Nat) : PreviewState :=
  let memory := sweepIntegrationPreviews s.memory processId now
  match checkReceipt runtime memory processId receipt expected now with
  | .error _ => { s with memory := memory }
  | .ok targetMismatch =>
    { s with
      memory := memory
      calls := s.calls ++ [
        { processId := processId
          receipt := receipt
          expected := expected
          consume := consume
          targetMismatch := targetMismatch
          verified := false
          issued := false }] }

def verifyCheck (s : PreviewState) (call : PreviewCall) (moved : Bool) : PreviewState :=
  if call ∈ s.calls ∧ call.verified = false then
    match verifyReceipt runtime s.memory call.processId call.receipt call.expected
        call.targetMismatch moved with
    | .error _ => { s with calls := s.calls.erase call }
    | .ok _ =>
      let issued := (issuedPreview s.memory call.processId call.receipt.previewId).isSome
      { s with
        calls := s.calls.erase call ++ [{ call with verified := true, issued := issued }] }
  else s

def consumedRow (s : PreviewState) (call : PreviewCall) : Bool :=
  s.consumed.any fun row =>
    (row.database, row.previewId) = (call.database runtime, call.receipt.previewId)

/-- `claimIntegrationPreviewReceipt` and the end of the check. -/
def claimCheck (s : PreviewState) (call : PreviewCall) (now : Nat) : PreviewState :=
  if call ∈ s.calls ∧ call.verified = true then
    let calls := s.calls.erase call
    if consumedRow runtime s call then { s with calls := calls }
    else if call.consume then
      -- `INSERT OR IGNORE` changed a row: the check answers that nothing is wrong.
      { s with
        consumed := s.consumed ++ [
          { database := call.database runtime
            previewId := call.receipt.previewId
            expiresAt := call.expiresAt
            consumedAt := now }]
        memory := forgetPreview s.memory call.processId call.receipt.previewId
        calls := calls
        accepted := s.accepted ++ [call] }
    else if call.issued then { s with calls := calls }
    else
      { s with
        memory := rememberPreview s.memory
          { processId := call.processId
            previewId := call.receipt.previewId
            identity := call.receipt.identity
            contract := none
            expiresAt := call.expiresAt
            projectKey := call.projectKey }
        calls := calls }
  else s

/-- `DELETE FROM consumed_integration_previews WHERE expires_at <= ?` -/
def pruneConsumedPreviews (s : PreviewState) (database : String) (now : Nat) : PreviewState :=
  { s with
    consumed := s.consumed.filter fun row => !(row.database = database && row.expiresAt ≤ now)
    prunes := s.prunes ++ [(database, now)] }

def previewStep (s : PreviewState) : PreviewEvent → PreviewState
  | .issue processId draft contract globalMax projectMax now =>
    makeIntegrationPreviewReceipt runtime s processId draft contract globalMax projectMax now
  | .check processId receipt expected consume now =>
    startCheck runtime s processId receipt expected consume now
  | .verify call moved => verifyCheck runtime s call moved
  | .claim call now => claimCheck runtime s call now
  | .prune database now => pruneConsumedPreviews s database now
  | .sweep processId now =>
    { s with memory := sweepIntegrationPreviews s.memory processId now }
  | .exit processId =>
    { s with
      memory := s.memory.filter (·.processId != processId)
      calls := s.calls.filter (·.processId != processId) }

/-! ### The consumption rows as a ledger -/

/-- The consumption rows, the accepted consumes and the prunes of a state. -/
def PreviewState.ledger (s : PreviewState) : Ledger (String × String) String where
  rows := s.consumed.map fun row => ((row.database, row.previewId), row.expiresAt)
  accepted := s.accepted.map fun call =>
    ((call.database runtime, call.receipt.previewId), call.expiresAt)
  prunes := s.prunes

theorem ledger_prune (s : PreviewState) (database : String) (now : Nat) :
    (pruneConsumedPreviews s database now).ledger runtime
      = (s.ledger runtime).prune Prod.fst database now := by
  simp only [PreviewState.ledger, pruneConsumedPreviews, Ledger.prune, filter_map]
  rfl

theorem ledger_claim (s : PreviewState) (call : PreviewCall) (now : Nat) :
    (call ∈ s.calls ∧ call.verified = true ∧ call.consume = true ∧
      (claimCheck runtime s call now).ledger runtime
        = (s.ledger runtime).consume (call.database runtime, call.receipt.previewId)
            call.expiresAt) ∨
    (claimCheck runtime s call now).ledger runtime = s.ledger runtime := by
  by_cases hlive : call ∈ s.calls ∧ call.verified = true
  · cases hconsume : call.consume with
    | true =>
      left
      have hrows : ((s.ledger runtime).rows.any fun row =>
          row.1 = (call.database runtime, call.receipt.previewId))
            = consumedRow runtime s call := by
        simp only [PreviewState.ledger, consumedRow, any_map]
        rfl
      rw [Ledger.consume, hrows]
      cases hrow : consumedRow runtime s call with
      | true => simp [claimCheck, hlive, hrow, PreviewState.ledger]
      | false => simp [claimCheck, hlive, hrow, hconsume, PreviewState.ledger]
    | false =>
      right
      simp only [claimCheck, hlive, hconsume, Bool.false_eq_true, if_false, and_self, if_true]
      split_ifs
      all_goals rfl
  · right
    simp [claimCheck, hlive]

/-! ### Authentic receipts -/

/-- The receipt and the apply that a check is started with. -/
def PreviewEvent.consulted : PreviewEvent → Option (PreviewReceipt × PreviewExpectation)
  | check _ receipt expected _ _ => some (receipt, expected)
  | _ => none

/-- Neither the HMAC nor the SHA-256 collides on the receipts and contracts in use. -/
structure CollisionFree (used : List (PreviewReceipt × PreviewExpectation)) : Prop where
  previewDigest : ∀ first ∈ used, ∀ second ∈ used,
    runtime.previewDigest first.1.identity = runtime.previewDigest second.1.identity →
      first.1.identity = second.1.identity
  contractSha256 : ∀ first ∈ used, ∀ second ∈ used,
    runtime.contractSha256 first.2.contract = runtime.contractSha256 second.2.contract →
      first.2.contract = second.2.contract

/-- What the first two parts of a check establish. -/
structure Authentic (used : List (PreviewReceipt × PreviewExpectation)) (call : PreviewCall) :
    Prop where
  member : (call.receipt, call.expected) ∈ used
  contract : call.receipt.identity.contractSha256
    = runtime.contractSha256 call.expected.contract
  wellFormed : call.receipt.wellFormed = true
  identity : call.verified = true →
    hexBytes call.receipt.previewId.toList = runtime.previewDigest call.receipt.identity

theorem compareFields_ok {difference : List String} {fields : List (String × String × String)}
    {noted targetMismatch : String}
    (h : compareFields difference fields noted = .ok targetMismatch) {field received wanted : String}
    (hmem : (field, received, wanted) ∈ fields) (hhead : field ≠ "targetHead")
    (hstate : field ≠ "targetStateSha256") : received = wanted := by
  induction fields generalizing noted with
  | nil => simp at hmem
  | cons entry rest ih =>
    obtain ⟨name, got, want⟩ := entry
    simp only [compareFields] at h
    rcases mem_cons.mp hmem with heq | htail
    · obtain ⟨rfl, rfl, rfl⟩ : field = name ∧ received = got ∧ wanted = want := by
        simpa using heq
      by_cases hsame : received = wanted
      · exact hsame
      · simp only [hsame, hhead, hstate, or_self, if_false] at h
        split_ifs at h
    · split_ifs at h
      · exact ih h htail
      · exact ih h htail
      · exact ih h htail

theorem checkReceipt_ok {memory : List IssuedPreview} {processId now : Nat}
    {receipt : PreviewReceipt} {expected : PreviewExpectation} {targetMismatch : String}
    (h : checkReceipt runtime memory processId receipt expected now = .ok targetMismatch) :
    receipt.wellFormed = true ∧
      receipt.identity.contractSha256 = runtime.contractSha256 expected.contract := by
  simp only [checkReceipt] at h
  split_ifs at h with hformed htimes
  refine ⟨by simpa using hformed, ?_⟩
  have hmem : ("contractSha256", receipt.identity.contractSha256,
      runtime.contractSha256 expected.contract) ∈ comparedFields runtime receipt.identity expected := by
    simp [comparedFields]
  exact compareFields_ok h hmem (by decide) (by decide)

/-! ### One step -/

/-- A consume inserts its row before any prune of its database that had reached the
expiry of the receipt. -/
def Timely (s : PreviewState) : PreviewEvent → Prop
  | .claim call _ => call.consume = true →
      ∀ pruned ∈ s.prunes, pruned.1 = call.database runtime → pruned.2 < call.expiresAt
  | _ => True

structure PreviewInvariant (used : List (PreviewReceipt × PreviewExpectation))
    (s : PreviewState) : Prop where
  sound : Ledger.Sound Prod.fst (s.ledger runtime)
  calls : ∀ call ∈ s.calls, Authentic runtime used call
  accepted : ∀ call ∈ s.accepted, Authentic runtime used call ∧ call.verified = true

variable {runtime}
variable {used : List (PreviewReceipt × PreviewExpectation)}

/-- Two verified checks of one id are checks of one receipt. -/
theorem Authentic.identity_eq (collisionFree : CollisionFree runtime used)
    {first second : PreviewCall} (hfirst : Authentic runtime used first)
    (hsecond : Authentic runtime used second) (verified : first.verified = true)
    (verified' : second.verified = true)
    (same : hexBytes first.receipt.previewId.toList = hexBytes second.receipt.previewId.toList) :
    first.receipt.identity = second.receipt.identity := by
  apply collisionFree.previewDigest _ hfirst.member _ hsecond.member
  rw [← hfirst.identity verified, ← hsecond.identity verified', same]

/-- … and of one target directory. -/
theorem Authentic.contract_eq (collisionFree : CollisionFree runtime used)
    {first second : PreviewCall} (hfirst : Authentic runtime used first)
    (hsecond : Authentic runtime used second)
    (same : first.receipt.identity = second.receipt.identity) :
    first.expected.contract = second.expected.contract := by
  apply collisionFree.contractSha256 _ hfirst.member _ hsecond.member
  rw [← hfirst.contract, ← hsecond.contract, same]

theorem Authentic.previewId_length {call : PreviewCall} (h : Authentic runtime used call) :
    call.receipt.previewId.toList.length = 2 * 32 := by
  have hid : hexText 64 call.receipt.previewId = true := by
    have hwell := h.wellFormed
    simp only [PreviewReceipt.wellFormed, Bool.and_eq_true] at hwell
    tauto
  simp only [hexText, Bool.and_eq_true, beq_iff_eq] at hid
  exact hid.1

theorem PreviewInvariant.empty : PreviewInvariant runtime used .empty := by
  refine ⟨Ledger.sound_empty, ?_, ?_⟩
  · intro call hcall
    simp [PreviewState.empty] at hcall
  · intro call hcall
    simp [PreviewState.empty] at hcall

theorem PreviewInvariant.startCheck {s : PreviewState} (inv : PreviewInvariant runtime used s)
    {processId now : Nat} {receipt : PreviewReceipt} {expected : PreviewExpectation}
    {consume : Bool} (member : (receipt, expected) ∈ used) :
    PreviewInvariant runtime used
      (startCheck runtime s processId receipt expected consume now) := by
  unfold Integration.startCheck
  extract_lets memory
  split
  next reason hcheck => exact ⟨inv.sound, inv.calls, inv.accepted⟩
  next targetMismatch hcheck =>
    obtain ⟨wellFormed, contract⟩ := checkReceipt_ok runtime hcheck
    refine ⟨inv.sound, ?_, inv.accepted⟩
    intro call hcall
    rcases mem_append.mp hcall with hold | hnew
    · exact inv.calls call hold
    · obtain rfl := mem_singleton.mp hnew
      refine ⟨member, contract, wellFormed, ?_⟩
      intro verified
      simp at verified

theorem PreviewInvariant.verifyCheck {s : PreviewState} (inv : PreviewInvariant runtime used s)
    (call : PreviewCall) (moved : Bool) :
    PreviewInvariant runtime used (verifyCheck runtime s call moved) := by
  simp only [Integration.verifyCheck]
  split_ifs with hlive
  · have hrest : ∀ other ∈ s.calls.erase call, Authentic runtime used other :=
      fun other hother => inv.calls other (mem_of_mem_erase hother)
    cases hverify : verifyReceipt runtime s.memory call.processId call.receipt call.expected
        call.targetMismatch moved with
    | error reason => exact ⟨inv.sound, hrest, inv.accepted⟩
    | ok _ =>
      refine ⟨inv.sound, ?_, inv.accepted⟩
      have hcall := inv.calls call hlive.1
      have hidentity : hexBytes call.receipt.previewId.toList
          = runtime.previewDigest call.receipt.identity := by
        by_contra hne
        simp [verifyReceipt, hne] at hverify
      intro other hother
      rcases mem_append.mp hother with hold | hnew
      · exact hrest other hold
      · obtain rfl := mem_singleton.mp hnew
        exact ⟨hcall.member, hcall.contract, hcall.wellFormed, fun _ => hidentity⟩
  · exact inv

theorem PreviewInvariant.claimCheck {s : PreviewState} (inv : PreviewInvariant runtime used s)
    (collisionFree : CollisionFree runtime used) (call : PreviewCall) (now : Nat)
    (timely : Timely runtime s (.claim call now)) :
    PreviewInvariant runtime used (claimCheck runtime s call now) := by
  have hcalls : ∀ other ∈ (Integration.claimCheck runtime s call now).calls,
      Authentic runtime used other := by
    intro other hother
    apply inv.calls other
    simp only [Integration.claimCheck] at hother
    split_ifs at hother
    all_goals first
      | exact hother
      | exact mem_of_mem_erase hother
  have haccepted : ∀ other ∈ (Integration.claimCheck runtime s call now).accepted,
      Authentic runtime used other ∧ other.verified = true := by
    intro other hother
    simp only [Integration.claimCheck] at hother
    split_ifs at hother with hlive
    · exact inv.accepted other hother
    · rcases mem_append.mp hother with hold | hnew
      · exact inv.accepted other hold
      · obtain rfl := mem_singleton.mp hnew
        exact ⟨inv.calls other hlive.1, hlive.2⟩
    all_goals exact inv.accepted other hother
  refine ⟨?_, hcalls, haccepted⟩
  rcases ledger_claim runtime s call now with ⟨hmem, hverified, hconsume, hledger⟩ | hledger
  · rw [hledger]
    apply inv.sound.consume
    · -- The same key names the same receipt, so it comes with the same expiry.
      intro entry hentry hkey
      obtain ⟨earlier, hearlier, rfl⟩ := mem_map.mp hentry
      obtain ⟨hauthentic, hdone⟩ := inv.accepted earlier hearlier
      have hid : earlier.receipt.previewId = call.receipt.previewId := (Prod.mk.inj hkey).2
      have hidentity := hauthentic.identity_eq collisionFree (inv.calls call hmem) hdone hverified
        (by rw [hid])
      simp only [PreviewCall.expiresAt, hidentity]
    · exact timely hconsume
  · rw [hledger]
    exact inv.sound

theorem previewStep_invariant (collisionFree : CollisionFree runtime used) (s : PreviewState)
    (event : PreviewEvent) (inv : PreviewInvariant runtime used s)
    (allowed : Timely runtime s event ∧ ∀ pair, event.consulted = some pair → pair ∈ used) :
    PreviewInvariant runtime used (previewStep runtime s event) := by
  cases event with
  | issue processId draft contract globalMax projectMax now =>
    simp only [previewStep, makeIntegrationPreviewReceipt]
    split_ifs
    all_goals exact ⟨inv.sound, inv.calls, inv.accepted⟩
  | check processId receipt expected consume now =>
    exact inv.startCheck (allowed.2 _ rfl)
  | verify call moved => exact inv.verifyCheck call moved
  | claim call now => exact inv.claimCheck collisionFree call now allowed.1
  | prune database now =>
    refine ⟨?_, inv.calls, inv.accepted⟩
    show Ledger.Sound Prod.fst ((pruneConsumedPreviews s database now).ledger runtime)
    rw [ledger_prune]
    exact inv.sound.prune database now
  | sweep processId now => exact ⟨inv.sound, inv.calls, inv.accepted⟩
  | exit processId =>
    exact ⟨inv.sound, fun call hcall => inv.calls call (mem_of_mem_filter hcall),
      inv.accepted⟩

/-! ### Every run -/

theorem run_previewInvariant {events : List PreviewEvent}
    (collisionFree : CollisionFree runtime (events.filterMap PreviewEvent.consulted))
    (timely : Along (previewStep runtime) (Timely runtime) .empty events) :
    PreviewInvariant runtime (events.filterMap PreviewEvent.consulted)
      (run (previewStep runtime) .empty events) := by
  have hused : ∀ event ∈ events, ∀ pair, event.consulted = some pair →
      pair ∈ events.filterMap PreviewEvent.consulted := by
    intro event hevent pair hpair
    exact mem_filterMap.mpr ⟨event, hevent, hpair⟩
  exact run_invariant (previewStep_invariant collisionFree) PreviewInvariant.empty events
    (timely.and hused)

/-- In a sound state no two accepted consumes name the same id. -/
theorem PreviewInvariant.nodup {s : PreviewState} (inv : PreviewInvariant runtime used s)
    (collisionFree : CollisionFree runtime used) :
    (s.accepted.map (·.receipt.previewId)).Nodup := by
  have honce : (s.accepted.map fun call =>
      (call.database runtime, call.receipt.previewId)).Nodup := by
    have h := inv.sound.once
    rwa [PreviewState.ledger, map_map] at h
  apply List.Nodup.map_on _ (honce.of_map _)
  intro first hfirst second hsecond hid
  obtain ⟨hauthentic, hdone⟩ := inv.accepted first hfirst
  obtain ⟨hauthentic', hdone'⟩ := inv.accepted second hsecond
  have hidentity := hauthentic.identity_eq collisionFree hauthentic' hdone hdone' (by rw [hid])
  have hcontract := hauthentic.contract_eq collisionFree hauthentic' hidentity
  apply inj_on_of_nodup_map honce hfirst hsecond
  simp only [PreviewCall.database, PreviewCall.projectKey, hcontract, hid]

theorem countP_le_one_of_nodup_map {α β : Type} [BEq β] [LawfulBEq β] {f : α → β} {l : List α}
    (h : (l.map f).Nodup) (b : β) : (l.countP fun a => f a == b) ≤ 1 := by
  have hcount := nodup_iff_count_le_one.mp h b
  rwa [count_eq_countP, countP_map] at hcount

/-- As long as every consume inserts its row before a prune that had reached the expiry
of the receipt, no previewId is consumed twice, and no receipt is consumed under two
spellings of its id either when all of them are in lower case. -/
theorem preview_single_use (runtime : PreviewRuntime) (events : List PreviewEvent)
    (collisionFree : CollisionFree runtime (events.filterMap PreviewEvent.consulted))
    (timely : Along (previewStep runtime) (Timely runtime) .empty events) :
    (∀ previewId, ((run (previewStep runtime) .empty events).accepted.countP
      fun call => call.receipt.previewId == previewId) ≤ 1) ∧
    ((∀ pair ∈ events.filterMap PreviewEvent.consulted, lowerHexText pair.1.previewId = true) →
      ∀ bytes, ((run (previewStep runtime) .empty events).accepted.countP
        fun call => hexBytes call.receipt.previewId.toList == bytes) ≤ 1) := by
  have inv := run_previewInvariant collisionFree timely
  have hnodup := inv.nodup collisionFree
  constructor
  · intro previewId
    exact countP_le_one_of_nodup_map hnodup previewId
  · intro lower bytes
    apply countP_le_one_of_nodup_map (f := fun call : PreviewCall =>
      hexBytes call.receipt.previewId.toList)
    apply List.Nodup.map_on _ (hnodup.of_map _)
    intro first hfirst second hsecond hbytes
    apply inj_on_of_nodup_map hnodup hfirst hsecond
    have hspelled := (inv.accepted first hfirst).1
    have hspelled' := (inv.accepted second hsecond).1
    have hlength := hspelled.previewId_length
    have hlength' := hspelled'.previewId_length
    exact String.toList_injective (hexBytes_inj (n := 32) hlength hlength'
      (lower _ hspelled.member) (lower _ hspelled'.member) hbytes)

/-! ### Where the condition fails -/

/-- Digests that tell receipts apart by their nonce and contracts by their directory. -/
def plainPreviewRuntime : PreviewRuntime where
  previewDigest identity :=
    hexBytes (identity.nonce.getD "").toList ++ hexBytes (identity.nonce.getD "").toList
  contractSha256 contract := if contract.cwd = "/repo" then hexDigits (List.replicate 32 1)
    else hexDigits (List.replicate 32 2)
  stateDbPath projectKey := projectKey ++ ".sqlite"

def reviewedContract : IntegrationContract := ⟨"/repo", []⟩

/-- A receipt that expires at time 1000. -/
def reviewedReceipt (previewId : String) : PreviewReceipt where
  previewId := previewId
  identity :=
    { createdAt := some 0
      expiresAt := some 1000
      nonce := some (hexDigits (List.replicate 16 171))
      patchSha256 := hexDigits (List.replicate 32 3)
      sourceBaseCommit := "base"
      sourceStateSha256 := hexDigits (List.replicate 32 4)
      targetHead := "head"
      targetStateSha256 := hexDigits (List.replicate 32 5)
      contractSha256 := hexDigits (List.replicate 32 1)
      patchedPathsStateSha256 := none }

def reviewedExpectation : PreviewExpectation where
  patchSha256 := hexDigits (List.replicate 32 3)
  sourceBaseCommit := "base"
  sourceStateSha256 := hexDigits (List.replicate 32 4)
  targetHead := "head"
  targetStateSha256 := hexDigits (List.replicate 32 5)
  contract := reviewedContract

def reviewedCall (processId : Nat) (previewId : String) (verified : Bool) : PreviewCall where
  processId := processId
  receipt := reviewedReceipt previewId
  expected := reviewedExpectation
  consume := true
  targetMismatch := ""
  verified := verified
  issued := false

def issuedId : String := hexDigits (List.replicate 32 171)

/-- One process consumes the receipt, another checks it shortly before it expires; the
database is pruned and the second claim comes last. -/
def overlappingRun (pruneAt claimAt : Nat) : List PreviewEvent :=
  [.check 1 (reviewedReceipt issuedId) reviewedExpectation true 10,
    .verify (reviewedCall 1 issuedId false) false,
    .claim (reviewedCall 1 issuedId true) 20,
    .check 2 (reviewedReceipt issuedId) reviewedExpectation true 990,
    .verify (reviewedCall 2 issuedId false) false,
    .prune "/repo.sqlite" pruneAt,
    .claim (reviewedCall 2 issuedId true) claimAt]

instance (s : PreviewState) : (event : PreviewEvent) → Decidable (Timely runtime s event)
  | .claim call _ => inferInstanceAs (Decidable (call.consume = true →
      ∀ pruned ∈ s.prunes, pruned.1 = call.database runtime → pruned.2 < call.expiresAt))
  | .issue .. | .check .. | .verify .. | .prune .. | .sweep .. | .exit .. =>
    inferInstanceAs (Decidable True)

theorem plain_collisionFree (events : List PreviewEvent)
    (h : ∀ event ∈ events, event.consulted = none ∨
      event.consulted = some (reviewedReceipt issuedId, reviewedExpectation)) :
    CollisionFree plainPreviewRuntime (events.filterMap PreviewEvent.consulted) := by
  have hpair : ∀ pair ∈ events.filterMap PreviewEvent.consulted,
      pair = (reviewedReceipt issuedId, reviewedExpectation) := by
    intro pair hpair
    obtain ⟨event, hevent, hconsulted⟩ := mem_filterMap.mp hpair
    rcases h event hevent with hnone | hsome
    · rw [hnone] at hconsulted
      cases hconsulted
    · rw [hsome] at hconsulted
      exact (Option.some.inj hconsulted).symm
  constructor
  · intro first hfirst second hsecond _
    rw [hpair first hfirst, hpair second hsecond]
  · intro first hfirst second hsecond _
    rw [hpair first hfirst, hpair second hsecond]

theorem preview_single_use_of_early_prune :
    ((run (previewStep plainPreviewRuntime) .empty (overlappingRun 995 996)).accepted.countP
      fun call => call.receipt.previewId == issuedId) ≤ 1 :=
  (preview_single_use plainPreviewRuntime (overlappingRun 995 996)
    (plain_collisionFree _ (by decide)) (by decide)).1 issuedId

/-- A prune at the expiry between the check and the insert lets the second consume
through. -/
theorem preview_single_use_fails :
    ¬∀ (events : List PreviewEvent) (previewId : String),
      CollisionFree plainPreviewRuntime (events.filterMap PreviewEvent.consulted) →
      ((run (previewStep plainPreviewRuntime) .empty events).accepted.countP
        fun call => call.receipt.previewId == previewId) ≤ 1 := by
  intro h
  have hcount := h (overlappingRun 1000 1001) issuedId (plain_collisionFree _ (by decide))
  revert hcount
  decide

end AgentBridge.Integration
