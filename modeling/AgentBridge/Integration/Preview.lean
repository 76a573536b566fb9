import Mathlib

/-!
# Integration preview receipts

The receipts of `lib/integration-preview.js`: a dry run issues one, the reviewed apply
consumes it. A check of a receipt runs in three parts with awaits between them. The
first looks at the timestamps and compares the receipt with the current patch, the
second verifies the identity, the third opens the database of the project and claims
the receipt there. Other processes run between the parts.

The retained preparation of a preview (`reuseBytes`) plays no part in the check and is
left out. ISO times are their milliseconds, and no time where `Date.parse` fails.
-/

namespace AgentBridge.Integration

def integrationPreviewTtlMs : Nat := 3600000

/-- The arguments of an integration: the target directory and every other field with
its JSON text, in order. -/
structure IntegrationContract where
  cwd : String
  fields : List (String × String)
deriving DecidableEq

/-- What the HMAC of a receipt covers. -/
structure PreviewIdentity where
  createdAt : Option Nat
  expiresAt : Option Nat
  nonce : Option String
  patchSha256 : String
  sourceBaseCommit : String
  sourceStateSha256 : String
  targetHead : String
  targetStateSha256 : String
  contractSha256 : String
  patchedPathsStateSha256 : Option String
deriving DecidableEq

structure PreviewReceipt where
  previewId : String
  identity : PreviewIdentity
deriving DecidableEq

/-- `currentPreviewIdentity`: the patch, the target and the contract of this apply. -/
structure PreviewExpectation where
  patchSha256 : String
  sourceBaseCommit : String
  sourceStateSha256 : String
  targetHead : String
  targetStateSha256 : String
  contract : IntegrationContract
deriving DecidableEq

/-- What lies outside the bridge: the HMAC under the key of the state directory, the
SHA-256 of a contract and the database that belongs to a directory. -/
structure PreviewRuntime where
  previewDigest : PreviewIdentity → List Nat
  contractSha256 : IntegrationContract → String
  stateDbPath : String → String

/-! ### Hexadecimal text -/

def isLowerHexDigit (c : Char) : Bool :=
  (48 ≤ c.toNat && c.toNat ≤ 57) || (97 ≤ c.toNat && c.toNat ≤ 102)

/-- The class `[a-fA-F0-9]`. -/
def isHexDigit (c : Char) : Bool :=
  isLowerHexDigit c || (65 ≤ c.toNat && c.toNat ≤ 70)

def hexValue (c : Char) : Nat :=
  if c.toNat ≤ 57 then c.toNat - 48
  else if c.toNat ≤ 70 then c.toNat - 55
  else c.toNat - 87

/-- `Buffer.from(text, "hex")` of text in hexadecimal digits. -/
def hexBytes : List Char → List Nat
  | high :: low :: rest => (hexValue high * 16 + hexValue low) :: hexBytes rest
  | _ => []

/-- `/^[a-fA-F0-9]{n}$/` -/
def hexText (length : Nat) (text : String) : Bool :=
  text.toList.length == length && text.toList.all isHexDigit

/-- The digits in lower case, as `digest("hex")` writes them. -/
def lowerHexText (text : String) : Bool := text.toList.all isLowerHexDigit

theorem hexValue_lt {c : Char} (h : isLowerHexDigit c = true) : hexValue c < 16 := by
  simp only [isLowerHexDigit, Bool.or_eq_true, Bool.and_eq_true, decide_eq_true_eq] at h
  unfold hexValue
  split_ifs
  all_goals omega

theorem hexValue_inj {c d : Char} (hc : isLowerHexDigit c = true) (hd : isLowerHexDigit d = true)
    (h : hexValue c = hexValue d) : c = d := by
  simp only [isLowerHexDigit, Bool.or_eq_true, Bool.and_eq_true, decide_eq_true_eq] at hc hd
  have hcode : c.toNat = d.toNat := by
    unfold hexValue at h
    split_ifs at h
    all_goals omega
  exact Char.ext (UInt32.toNat_inj.mp hcode)

theorem hexBytes_inj {n : Nat} {first second : List Char} (hfirst : first.length = 2 * n)
    (hsecond : second.length = 2 * n) (lower : first.all isLowerHexDigit = true)
    (lower' : second.all isLowerHexDigit = true) (h : hexBytes first = hexBytes second) :
    first = second := by
  induction n generalizing first second with
  | zero =>
    rw [List.length_eq_zero_iff.mp hfirst, List.length_eq_zero_iff.mp hsecond]
  | succ n ih =>
    match first, second with
    | [], _ => simp at hfirst
    | _, [] => simp at hsecond
    | [_], _ => simp at hfirst; omega
    | _, [_] => simp at hsecond; omega
    | a :: b :: rest, c :: d :: rest' =>
      simp only [List.all_cons, Bool.and_eq_true] at lower lower'
      simp only [hexBytes, List.cons.injEq] at h
      have hb := hexValue_lt lower.2.1
      have hd := hexValue_lt lower'.2.1
      obtain rfl := hexValue_inj lower.1 lower'.1 (by omega)
      obtain rfl := hexValue_inj lower.2.1 lower'.2.1 (by omega)
      have hlength : rest.length = 2 * n := by
        simp only [List.length_cons] at hfirst
        omega
      have hlength' : rest'.length = 2 * n := by
        simp only [List.length_cons] at hsecond
        omega
      rw [ih hlength hlength' lower.2.2 lower'.2.2 h.2]

/-! ### Issued receipts -/

structure IssuedPreview where
  processId : Nat
  previewId : String
  identity : PreviewIdentity
  contract : Option IntegrationContract
  expiresAt : Nat
  projectKey : String

def issuedPreview (memory : List IssuedPreview) (processId : Nat) (previewId : String) :
    Option IssuedPreview :=
  memory.find? fun entry => entry.processId == processId && entry.previewId == previewId

def forgetPreview (memory : List IssuedPreview) (processId : Nat) (previewId : String) :
    List IssuedPreview :=
  memory.filter fun entry => !(entry.processId == processId && entry.previewId == previewId)

/-- `INTEGRATION_PREVIEWS.set` -/
def rememberPreview (memory : List IssuedPreview) (entry : IssuedPreview) :
    List IssuedPreview :=
  forgetPreview memory entry.processId entry.previewId ++ [entry]

def sweepIntegrationPreviews (memory : List IssuedPreview) (processId now : Nat) :
    List IssuedPreview :=
  memory.filter fun entry => !(entry.processId == processId && decide (entry.expiresAt ≤ now))

/-! ### The check of a receipt -/

inductive ReceiptError where
  | malformed
  /-- "… has invalid or expired timestamps." -/
  | timestamps
  /-- "Integration preview does not match this apply. …" with the differing arguments. -/
  | contractMismatch (keys : List String)
  /-- "Integration preview is stale: … changed after review." -/
  | stale (field : String)
  /-- "Integration preview receipt identity is invalid." -/
  | identity
  /-- "… was not issued by this bridge process or was already consumed." -/
  | notIssued
  /-- "Integration preview receipt was already consumed." -/
  | consumed

/-- `integrationPreviewReceiptSchema` -/
def PreviewReceipt.wellFormed (receipt : PreviewReceipt) : Bool :=
  let identity := receipt.identity
  hexText 64 receipt.previewId && identity.nonce.all (hexText 32) &&
    hexText 64 identity.patchSha256 && identity.sourceBaseCommit != "" &&
    hexText 64 identity.sourceStateSha256 && identity.targetHead != "" &&
    hexText 64 identity.targetStateSha256 && hexText 64 identity.contractSha256 &&
    identity.patchedPathsStateSha256.all (hexText 64)

/-- Both times are valid, the receipt is not from the future, has not expired and lives
no longer than previews do. -/
def timestampsInForce (identity : PreviewIdentity) (now : Nat) : Bool :=
  match identity.expiresAt, identity.createdAt with
  | some expiresAt, some createdAt =>
    createdAt ≤ now + 60000 && now < expiresAt &&
      expiresAt ≤ createdAt + integrationPreviewTtlMs
  | _, _ => false

/-- The arguments of the apply that differ from those of the dry run. -/
def integrationContractDifference (previewed : Option IntegrationContract)
    (applied : IntegrationContract) : List String :=
  match previewed with
  | none => []
  | some previewed =>
    (if previewed.cwd = applied.cwd then [] else ["cwd"]) ++
      (applied.fields.filter fun field =>
        previewed.fields.lookup field.1 != some field.2).map (·.1)

variable (runtime : PreviewRuntime)

/-- The fields that are compared with their values in the receipt and in this apply. -/
def comparedFields (identity : PreviewIdentity) (expected : PreviewExpectation) :
    List (String × String × String) :=
  [("patchSha256", identity.patchSha256, expected.patchSha256),
    ("sourceBaseCommit", identity.sourceBaseCommit, expected.sourceBaseCommit),
    ("sourceStateSha256", identity.sourceStateSha256, expected.sourceStateSha256),
    ("targetHead", identity.targetHead, expected.targetHead),
    ("targetStateSha256", identity.targetStateSha256, expected.targetStateSha256),
    ("contractSha256", identity.contractSha256, runtime.contractSha256 expected.contract)]

/-- The loop over the fields: a changed target is only noted, anything else refuses. -/
def compareFields (difference : List String) :
    List (String × String × String) → String → Except ReceiptError String
  | [], targetMismatch => .ok targetMismatch
  | (field, received, wanted) :: rest, targetMismatch =>
    if received = wanted then compareFields difference rest targetMismatch
    else if field = "targetHead" ∨ field = "targetStateSha256" then
      compareFields difference rest (if targetMismatch = "" then field else targetMismatch)
    else if field = "contractSha256" ∧ difference ≠ [] then
      .error (.contractMismatch difference)
    else .error (.stale field)

/-- The part before the first await; the answer is the noted target mismatch. -/
def checkReceipt (memory : List IssuedPreview) (processId : Nat) (receipt : PreviewReceipt)
    (expected : PreviewExpectation) (now : Nat) : Except ReceiptError String :=
  if !receipt.wellFormed then .error .malformed
  else if !timestampsInForce receipt.identity now then .error .timestamps
  else
    let issued := issuedPreview memory processId receipt.previewId
    compareFields
      (integrationContractDifference (issued.bind (·.contract)) expected.contract)
      (comparedFields runtime receipt.identity expected) ""

/-- The part between the key and the claim. `moved` is the answer of
`integrationTargetMovementEvidence`, which is asked when the target HEAD moved. -/
def verifyReceipt (memory : List IssuedPreview) (processId : Nat) (receipt : PreviewReceipt)
    (expected : PreviewExpectation) (targetMismatch : String) (moved : Bool) :
    Except ReceiptError Unit :=
  let issued := issuedPreview memory processId receipt.previewId
  if hexBytes receipt.previewId.toList ≠ runtime.previewDigest receipt.identity then
    .error .identity
  else if issued.any fun entry => some entry.expiresAt != receipt.identity.expiresAt ||
      entry.projectKey != expected.contract.cwd || entry.identity != receipt.identity then
    .error .notIssued
  else if targetMismatch ≠ "" ∧
      ¬(receipt.identity.targetHead ≠ expected.targetHead ∧ moved = true) then
    .error (.stale targetMismatch)
  else .ok ()

end AgentBridge.Integration
