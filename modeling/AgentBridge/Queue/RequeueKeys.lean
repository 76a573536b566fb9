import AgentBridge.Queue.RetryOnce

/-!
# The keys of requeued jobs

`requeueIdempotencyKey` takes the root of a key, what is left when its `:requeue:<n>` suffixes
are cut off, and appends the suffix of the new position, over a shortened root where the key
would exceed 200 characters. Down a chain the root stays the same until it is shortened, and
then only gets shorter, so the positions of a chain have different keys. The key of the first
job is not made by the bridge: it may end in a suffix by itself.
-/

namespace AgentBridge.Queue

open List Nat

/-- The identifiers that `makeQueueJobId` makes have no colons. -/
structure QueueJobId where
  text : String
  named : text ≠ ""
  plain : ':' ∉ text.toList

structure KeyedJob where
  key : String
  admitted : key.toList.length ≤ 200
  jobId : QueueJobId

/-- Where a counter that grows by one stops: the successor of this number is the number again. -/
def maxPosition : Nat := 2 ^ 53

/-- The digest is the beginning of a text in hexadecimal digits. -/
structure HexDigest (host : RetryHost) : Prop where
  length : ∀ text, (host.sha256Prefix text).toList.length = 16
  hex : ∀ text, ∀ c ∈ (host.sha256Prefix text).toList, c.isDigit ∨ 'a' ≤ c ∧ c ≤ 'f'

def requeueTag : List Char := [':', 'r', 'e', 'q', 'u', 'e', 'u', 'e', ':']

theorem toList_requeueTag : ":requeue:".toList = requeueTag := rfl

def requeueSuffix (sequence : Nat) : List Char := requeueTag ++ Nat.toDigits 10 sequence

/-- The text without its requeue suffixes. -/
def requeueRoot (text : List Char) : List Char :=
  (stripRequeueSuffix text.length text.reverse).reverse

/-- What the new suffix is appended to. -/
def requeueBase (key jobId : String) : List Char :=
  if (requeueRoot key.toList).isEmpty then jobId.toList else requeueRoot key.toList

def Fits (sequence : Nat) (base : List Char) : Prop :=
  base.length + (requeueSuffix sequence).length ≤ 200

instance (sequence : Nat) (base : List Char) : Decidable (Fits sequence base) :=
  inferInstanceAs (Decidable (_ ≤ _))

/-- How much of a base is kept that does not fit. -/
def keptLength (sequence : Nat) : Nat := 200 - (requeueSuffix sequence).length - 16 - 1

variable {host : RetryHost}

def shortened (host : RetryHost) (sequence : Nat) (base : List Char) : List Char :=
  base.take (keptLength sequence) ++ '~' :: (host.sha256Prefix (String.ofList base)).toList

def requeueHead (host : RetryHost) (sequence : Nat) (base : List Char) : List Char :=
  if Fits sequence base then base else shortened host sequence base

theorem requeueIdempotencyKey_toList (digest : HexDigest host) (key jobId : String)
    (sequence : Nat) :
    (requeueIdempotencyKey host key jobId sequence).toList =
      requeueHead host sequence (requeueBase key jobId) ++ requeueSuffix sequence := by
  have hsuffix : (":requeue:" ++ toString sequence).toList = requeueSuffix sequence := by
    rw [String.toList_append, toList_requeueTag]
    exact congrArg _ toList_repr
  have hroot : (stripRequeueSuffix key.toList.length key.toList.reverse).reverse =
      requeueRoot key.toList := rfl
  rw [requeueIdempotencyKey]
  dsimp only
  rw [hsuffix, hroot, digest.length, ← requeueBase, requeueHead]
  by_cases hfits : Fits sequence (requeueBase key jobId)
  · have hle : (requeueBase key jobId).length + (requeueSuffix sequence).length ≤ 200 := hfits
    rw [if_pos hfits, if_pos hle, String.toList_ofList]
  · have hlong : ¬ (requeueBase key jobId).length + (requeueSuffix sequence).length ≤ 200 := hfits
    rw [if_neg hfits, if_neg hlong, String.toList_ofList, shortened, keptLength]
    simp

/-! ### Suffixes -/

theorem isDigit_toDigits (n : Nat) : ∀ c ∈ Nat.toDigits 10 n, c.isDigit = true :=
  fun _ hc => isDigit_of_mem_toDigits (by decide) (by decide) hc

variable {m n : Nat}

theorem toDigits_injective (h : Nat.toDigits 10 m = Nat.toDigits 10 n) : m = n := by
  rw [← ofDigitChars_ten_toDigits (n := m), h, ofDigitChars_ten_toDigits]

theorem length_toDigits_mono (h : m ≤ n) :
    (Nat.toDigits 10 m).length ≤ (Nat.toDigits 10 n).length := by
  have hpos := length_toDigits_pos (b := 10) (n := n)
  have hn := (length_toDigits_le_iff (by decide) hpos).mp (le_refl _)
  exact (length_toDigits_le_iff (by decide) hpos).mpr (lt_of_le_of_lt h hn)

theorem length_requeueSuffix (n : Nat) :
    (requeueSuffix n).length = 9 + (Nat.toDigits 10 n).length := by
  rw [requeueSuffix, length_append]
  rfl

theorem length_requeueSuffix_le (h : n ≤ maxPosition) : (requeueSuffix n).length ≤ 25 := by
  have hdigits : (Nat.toDigits 10 n).length ≤ 16 := by
    refine (length_toDigits_le_iff (by decide) (by decide)).mpr ?_
    rw [maxPosition] at h
    omega
  rw [length_requeueSuffix]
  omega

variable (text : List Char)

theorem reverse_append_requeueSuffix (n : Nat) :
    (text ++ requeueSuffix n).reverse =
      (Nat.toDigits 10 n).reverse ++ (requeueTag.reverse ++ text.reverse) := by
  rw [requeueSuffix, reverse_append, reverse_append, append_assoc]

theorem takeWhile_requeueSuffix (n : Nat) :
    (text ++ requeueSuffix n).reverse.takeWhile Char.isDigit = (Nat.toDigits 10 n).reverse := by
  rw [reverse_append_requeueSuffix, takeWhile_append_of_pos]
  · have hcolon : (requeueTag.reverse ++ text.reverse).takeWhile Char.isDigit = [] := rfl
    rw [hcolon, append_nil]
  · intro c hc
    exact isDigit_toDigits n c (mem_reverse.mp hc)

theorem dropWhile_requeueSuffix (n : Nat) :
    (text ++ requeueSuffix n).reverse.dropWhile Char.isDigit =
      requeueTag.reverse ++ text.reverse := by
  rw [reverse_append_requeueSuffix, dropWhile_append_of_pos]
  · rfl
  · intro c hc
    exact isDigit_toDigits n c (mem_reverse.mp hc)

theorem append_requeueSuffix_inj {x y : List Char}
    (h : x ++ requeueSuffix m = y ++ requeueSuffix n) :
    m = n ∧ x = y := by
  have hreverse := congrArg List.reverse h
  have hdigits := congrArg (List.takeWhile Char.isDigit) hreverse
  rw [takeWhile_requeueSuffix, takeWhile_requeueSuffix] at hdigits
  have hsame : m = n := toDigits_injective (reverse_injective hdigits)
  rw [hsame] at h
  exact ⟨hsame, append_cancel_right h⟩

/-! ### Roots -/

/-- The reversed text begins with digits and the rest of a suffix. -/
def BeginsSuffix (reversed : List Char) : Prop :=
  (!(reversed.takeWhile Char.isDigit).isEmpty &&
    requeueTag.reverse.isPrefixOf (reversed.dropWhile Char.isDigit)) = true

variable {reversed : List Char}

theorem stripRequeueSuffix_of_begins {fuel : Nat} (h : BeginsSuffix reversed) :
    stripRequeueSuffix (fuel + 1) reversed =
      stripRequeueSuffix fuel
        ((reversed.dropWhile Char.isDigit).drop requeueTag.length) := if_pos h

theorem stripRequeueSuffix_of_not (h : ¬ BeginsSuffix reversed) :
    ∀ fuel, stripRequeueSuffix fuel reversed = reversed
  | 0 => rfl
  | _ + 1 => if_neg h

theorem not_beginsSuffix_nil : ¬ BeginsSuffix [] := by
  intro h
  cases h

theorem length_drop_lt (h : BeginsSuffix reversed) :
    ((reversed.dropWhile Char.isDigit).drop requeueTag.length).length < reversed.length := by
  have hne : reversed ≠ [] := by
    rintro rfl
    exact not_beginsSuffix_nil h
  have hpos := length_pos_iff.mpr hne
  have hdrop := (dropWhile_sublist (l := reversed) Char.isDigit).length_le
  have hlength : requeueTag.length = 9 := rfl
  rw [length_drop, hlength]
  omega

/-- Nothing more is cut off, and more fuel changes nothing. -/
theorem stripRequeueSuffix_spec :
    ∀ (fuel : Nat) (reversed : List Char), reversed.length ≤ fuel →
      ¬ BeginsSuffix (stripRequeueSuffix fuel reversed) ∧
        ∀ more, reversed.length ≤ more →
          stripRequeueSuffix more reversed = stripRequeueSuffix fuel reversed := by
  intro fuel
  induction fuel with
  | zero =>
    intro reversed hlength
    obtain rfl := eq_nil_of_length_eq_zero (le_zero.mp hlength)
    exact ⟨not_beginsSuffix_nil,
      fun more _ => stripRequeueSuffix_of_not not_beginsSuffix_nil more⟩
  | succ fuel ih =>
    intro reversed hlength
    by_cases hbegins : BeginsSuffix reversed
    · have hshorter := length_drop_lt hbegins
      obtain ⟨hdone, hmore⟩ := ih _ (le_of_lt_succ (lt_of_lt_of_le hshorter hlength))
      rw [stripRequeueSuffix_of_begins hbegins]
      refine ⟨hdone, ?_⟩
      intro more hle
      cases more with
      | zero => omega
      | succ more =>
        rw [stripRequeueSuffix_of_begins hbegins]
        exact hmore more (by omega)
    · rw [stripRequeueSuffix_of_not hbegins]
      exact ⟨hbegins, fun more _ => stripRequeueSuffix_of_not hbegins more⟩

theorem requeueRoot_eq_self {text : List Char} :
    ¬ BeginsSuffix text.reverse → requeueRoot text = text := by
  intro h
  rw [requeueRoot, stripRequeueSuffix_of_not h, reverse_reverse]

@[simp] theorem requeueRoot_requeueRoot : requeueRoot (requeueRoot text) = requeueRoot text := by
  refine requeueRoot_eq_self ?_
  rw [requeueRoot, reverse_reverse]
  exact (stripRequeueSuffix_spec _ _ (by rw [length_reverse])).1

@[simp] theorem requeueRoot_append (n : Nat) :
    requeueRoot (text ++ requeueSuffix n) = requeueRoot text := by
  have hbegins : BeginsSuffix (text ++ requeueSuffix n).reverse := by
    rw [BeginsSuffix, takeWhile_requeueSuffix, dropWhile_requeueSuffix, Bool.and_eq_true]
    refine ⟨?_, isPrefixOf_iff_prefix.mpr (List.prefix_append _ _)⟩
    rw [isEmpty_reverse, Bool.not_eq_true', isEmpty_eq_false_iff]
    exact toDigits_ne_nil
  obtain ⟨fuel, hfuel⟩ : ∃ fuel, (text ++ requeueSuffix n).length = fuel + 1 :=
    exists_eq_succ_of_ne_zero
      (by rw [length_append, length_requeueSuffix]; omega)
  have henough : text.reverse.length ≤ fuel := by
    have hlength := hfuel
    rw [length_append, length_requeueSuffix] at hlength
    rw [length_reverse]
    omega
  have hdrop : (requeueTag.reverse ++ text.reverse).drop requeueTag.length = text.reverse :=
    drop_left' length_reverse
  rw [requeueRoot, requeueRoot, hfuel, stripRequeueSuffix_of_begins hbegins,
    dropWhile_requeueSuffix, hdrop]
  refine congrArg List.reverse ?_
  exact (stripRequeueSuffix_spec _ _ (by rw [length_reverse])).2 fuel henough

/-- A text whose part after its last colon is no number has no suffix. -/
theorem requeueRoot_of_no_colon (front last : List Char) (hcolon : ':' ∉ last)
    (hdigit : ∃ c ∈ last, c.isDigit = false) :
    requeueRoot (front ++ last) = front ++ last := by
  refine requeueRoot_eq_self ?_
  intro hbegins
  rw [BeginsSuffix, Bool.and_eq_true, isPrefixOf_iff_prefix] at hbegins
  obtain ⟨rest, hrest⟩ := hbegins.2
  have hdrop : last.reverse.dropWhile Char.isDigit ≠ [] := by
    intro hnil
    obtain ⟨c, hc, hfalse⟩ := hdigit
    have hall := dropWhile_eq_nil_iff.mp hnil c (mem_reverse.mpr hc)
    rw [hfalse] at hall
    cases hall
  rw [reverse_append, dropWhile_append, if_neg (by simpa using hdrop)] at hrest
  cases hlast : last.reverse.dropWhile Char.isDigit with
  | nil => exact hdrop hlast
  | cons c tail =>
    rw [hlast] at hrest
    have hhead : c = ':' := (List.cons.inj hrest).1.symm
    have hmem : c ∈ last.reverse.dropWhile Char.isDigit := by
      rw [hlast]
      exact mem_cons_self
    exact hcolon (hhead ▸ mem_reverse.mp ((dropWhile_sublist _).subset hmem))

theorem requeueRoot_jobId (jobId : QueueJobId) :
    requeueRoot jobId.text.toList = jobId.text.toList := by
  refine requeueRoot_eq_self ?_
  intro hbegins
  rw [BeginsSuffix, Bool.and_eq_true, isPrefixOf_iff_prefix] at hbegins
  have hmem : ':' ∈ jobId.text.toList.reverse.dropWhile Char.isDigit :=
    hbegins.2.subset (by decide)
  exact jobId.plain (mem_reverse.mp ((dropWhile_sublist _).subset hmem))

/-! ### Bases and heads -/

variable {key : String} {jobId : QueueJobId}

theorem requeueBase_ne_nil : requeueBase key jobId.text ≠ [] := by
  rw [requeueBase]
  split
  · intro hnil
    exact jobId.named (String.toList_eq_nil_iff.mp hnil)
  · next hroot => simpa using hroot

@[simp] theorem requeueRoot_requeueBase :
    requeueRoot (requeueBase key jobId.text) = requeueBase key jobId.text := by
  rw [requeueBase]
  split
  · exact requeueRoot_jobId jobId
  · exact requeueRoot_requeueRoot _

theorem requeueBase_of_suffix {base : List Char} (hroot : requeueRoot base = base) (hne : base ≠ [])
    (h : key.toList = base ++ requeueSuffix n) (jobId : String) : requeueBase key jobId = base := by
  rw [requeueBase, h, requeueRoot_append, hroot, if_neg (by simpa using hne)]

theorem length_shortened (digest : HexDigest host) (hn : n ≤ maxPosition) {base : List Char}
    (hlong : ¬ Fits n base) :
    (shortened host n base).length = 200 - (requeueSuffix n).length ∧
      (shortened host n base).length < base.length := by
  have hsuffix := length_requeueSuffix_le hn
  rw [Fits] at hlong
  rw [shortened, length_append, length_take, length_cons, digest.length, keptLength]
  constructor <;> omega

theorem requeueRoot_shortened (digest : HexDigest host) (n : Nat) (base : List Char) :
    requeueRoot (shortened host n base) = shortened host n base := by
  refine requeueRoot_of_no_colon _ _ ?_ ⟨'~', mem_cons_self, rfl⟩
  intro hmem
  cases mem_cons.mp hmem with
  | inl htilde => exact absurd htilde (by decide)
  | inr hdigit =>
    cases digest.hex _ _ hdigit with
    | inl h => exact absurd h (by decide)
    | inr h => exact absurd h.1 (by decide)

/-- What stands before the suffix of a key is the base, or a shorter root. -/
structure HeadOf (base head : List Char) (n : Nat) : Prop where
  root : requeueRoot head = head
  nonempty : head ≠ []
  kept : head = base ∨ head.length < base.length
  short : head.length + (requeueSuffix n).length ≤ 200

theorem headOf_requeueHead (digest : HexDigest host) (hn : n ≤ maxPosition) {base : List Char}
    (hroot : requeueRoot base = base) (hne : base ≠ []) :
    HeadOf base (requeueHead host n base) n := by
  rw [requeueHead]
  split
  · next hfits => exact ⟨hroot, hne, Or.inl rfl, hfits⟩
  · next hlong =>
    obtain ⟨hlength, hlt⟩ := length_shortened digest hn hlong
    have hsuffix := length_requeueSuffix_le hn
    refine ⟨requeueRoot_shortened digest n base, ?_, Or.inr hlt, by omega⟩
    rw [← length_pos_iff]
    omega

/-! ### Chains -/

/-- The keys of a job and of its successors, whose job ids are `ids 1`, `ids 2` and so on. -/
def chainKey (host : RetryHost) (job : KeyedJob) (ids : Nat → QueueJobId) : Nat → String
  | 0 => job.key
  | 1 => requeueIdempotencyKey host job.key job.jobId.text 1
  | n + 2 => requeueIdempotencyKey host (chainKey host job ids (n + 1)) (ids (n + 1)).text (n + 2)

def KeyedJob.base (job : KeyedJob) : List Char := requeueBase job.key job.jobId.text

variable {job other : KeyedJob} {ids : Nat → QueueJobId}

theorem chainKey_toList (digest : HexDigest host) :
    ∀ n, n + 1 ≤ maxPosition → ∃ head,
      (chainKey host job ids (n + 1)).toList = head ++ requeueSuffix (n + 1) ∧
        HeadOf job.base head (n + 1) := by
  intro n
  induction n with
  | zero =>
    intro hn
    exact ⟨_, requeueIdempotencyKey_toList digest _ _ _,
      headOf_requeueHead digest hn requeueRoot_requeueBase requeueBase_ne_nil⟩
  | succ n ih =>
    intro hn
    obtain ⟨head, hkey, hhead⟩ := ih (by omega)
    have hbase := requeueBase_of_suffix hhead.root hhead.nonempty hkey (ids (n + 1)).text
    have hnext : HeadOf head (requeueHead host (n + 2) head) (n + 2) :=
      headOf_requeueHead digest hn hhead.root hhead.nonempty
    refine ⟨requeueHead host (n + 2) head, ?_, ?_⟩
    · rw [chainKey, requeueIdempotencyKey_toList digest, hbase]
    · refine ⟨hnext.root, hnext.nonempty, ?_, hnext.short⟩
      have hkept := hhead.kept
      cases hnext.kept with
      | inl hsame => rwa [hsame]
      | inr hshorter =>
        refine Or.inr ?_
        cases hkept with
        | inl hbase => rwa [← hbase]
        | inr hlt => omega

/-- The key is the one of a later position of its own chain. -/
def NamesPosition (job : KeyedJob) : Prop :=
  ∃ n, 1 ≤ n ∧ n ≤ maxPosition ∧ job.key.toList = job.base ++ requeueSuffix n

theorem chainKey_of_namesPosition (digest : HexDigest host)
    (h : job.key.toList = job.base ++ requeueSuffix n) :
    ∀ k, k + 1 ≤ n →
      (chainKey host job ids (k + 1)).toList = job.base ++ requeueSuffix (k + 1) := by
  have hfits : ∀ k, k + 1 ≤ n → Fits (k + 1) job.base := by
    intro k hk
    have hadmitted := job.admitted
    have hmono := length_toDigits_mono hk
    rw [h, length_append, length_requeueSuffix] at hadmitted
    rw [Fits, length_requeueSuffix]
    omega
  intro k
  induction k with
  | zero =>
    intro hk
    rw [chainKey, requeueIdempotencyKey_toList digest, requeueHead,
      if_pos (show Fits 1 (requeueBase job.key job.jobId.text) from hfits 0 hk)]
    rfl
  | succ k ih =>
    intro hk
    have hbase := requeueBase_of_suffix requeueRoot_requeueBase requeueBase_ne_nil
      (ih (by omega)) (ids (k + 1)).text
    rw [chainKey, requeueIdempotencyKey_toList digest, hbase, requeueHead]
    exact congrArg (· ++ _) (if_pos (hfits (k + 1) hk))

structure ChainKeysDiffer (host : RetryHost) (job : KeyedJob) (ids : Nat → QueueJobId) :
    Prop where
  short : ∀ n, 1 ≤ n → n ≤ maxPosition → (chainKey host job ids n).toList.length ≤ 200
  differ : ∀ m n, m ≤ maxPosition → n ≤ maxPosition → m ≠ n →
    chainKey host job ids m ≠ chainKey host job ids n

theorem chainKey_ne_root (digest : HexDigest host) (hnames : ¬ NamesPosition job)
    (hn : n + 1 ≤ maxPosition) : chainKey host job ids (n + 1) ≠ job.key := by
  intro heq
  obtain ⟨head, hkey, hhead⟩ := @chainKey_toList host job ids digest n hn
  rw [heq] at hkey
  have hbase : job.base = head :=
    requeueBase_of_suffix hhead.root hhead.nonempty hkey job.jobId.text
  rw [← hbase] at hkey
  exact hnames ⟨n + 1, by omega, hn, hkey⟩

theorem chainKeysDiffer_iff (digest : HexDigest host) :
    ChainKeysDiffer host job ids ↔ ¬ NamesPosition job := by
  constructor
  · intro hdiffer ⟨n, hpos, hmax, hkey⟩
    obtain ⟨k, rfl⟩ : ∃ k, n = k + 1 := ⟨n - 1, by omega⟩
    refine hdiffer.differ (k + 1) 0 hmax (zero_le _) (by omega) ?_
    refine String.toList_injective ?_
    rw [chainKey_of_namesPosition digest hkey k (le_refl _), ← hkey]
    rfl
  · intro hnames
    constructor
    · intro n hpos hmax
      obtain ⟨k, rfl⟩ : ∃ k, n = k + 1 := ⟨n - 1, by omega⟩
      obtain ⟨head, hkey, hhead⟩ := @chainKey_toList host job ids digest k hmax
      rw [hkey, length_append]
      exact hhead.short
    · intro m n hm hn hne heq
      cases m with
      | zero =>
        cases n with
        | zero => exact hne rfl
        | succ n => exact chainKey_ne_root digest hnames hn heq.symm
      | succ m =>
        cases n with
        | zero => exact chainKey_ne_root digest hnames hm heq
        | succ n =>
          obtain ⟨first, hfirst, -⟩ := @chainKey_toList host job ids digest m hm
          obtain ⟨second, hsecond, -⟩ := @chainKey_toList host job ids digest n hn
          rw [heq, hsecond] at hfirst
          exact hne (append_requeueSuffix_inj hfirst).1.symm

/-! ### Two jobs -/

/-- Before the suffix of the position the two bases look the same: they are the same, or one is
the other one's shortened form, or both are shortened and agree in what is kept of them. -/
def SameHead (host : RetryHost) (n : Nat) (first second : List Char) : Prop :=
  if Fits n first then
    if Fits n second then first = second else first = shortened host n second
  else if Fits n second then shortened host n first = second
  else first.take (keptLength n) = second.take (keptLength n) ∧
    (host.sha256Prefix (String.ofList first)).toList =
      (host.sha256Prefix (String.ofList second)).toList

theorem requeueHead_eq_iff (digest : HexDigest host) (n : Nat) (first second : List Char) :
    requeueHead host n first = requeueHead host n second ↔ SameHead host n first second := by
  rw [requeueHead, requeueHead, SameHead]
  by_cases hfirst : Fits n first
  · by_cases hsecond : Fits n second
    · rw [if_pos hfirst, if_pos hsecond, if_pos hfirst, if_pos hsecond]
    · rw [if_pos hfirst, if_neg hsecond, if_pos hfirst, if_neg hsecond]
  · by_cases hsecond : Fits n second
    · rw [if_neg hfirst, if_pos hsecond, if_neg hfirst, if_pos hsecond]
    · rw [if_neg hfirst, if_neg hsecond, if_neg hfirst, if_neg hsecond, shortened, shortened]
      constructor
      · intro h
        have hlengths : ('~' :: (host.sha256Prefix (String.ofList first)).toList).length =
            ('~' :: (host.sha256Prefix (String.ofList second)).toList).length := by
          rw [length_cons, length_cons, digest.length, digest.length]
        obtain ⟨htake, hcons⟩ := append_inj' h hlengths
        exact ⟨htake, (List.cons.inj hcons).2⟩
      · rintro ⟨htake, hdigest⟩
        rw [htake, hdigest]

def RequeueKeysDiffer (host : RetryHost) (job other : KeyedJob) (m n : Nat) : Prop :=
  job.key ≠ other.key →
    requeueIdempotencyKey host job.key job.jobId.text m ≠
      requeueIdempotencyKey host other.key other.jobId.text n

theorem requeueKeysDiffer_iff (digest : HexDigest host) :
    RequeueKeysDiffer host job other m n ↔
      (job.key ≠ other.key → m = n → ¬ SameHead host m job.base other.base) := by
  refine forall_congr' fun _ => ?_
  rw [← requeueHead_eq_iff digest]
  have hfirst := requeueIdempotencyKey_toList digest job.key job.jobId.text m
  have hsecond := requeueIdempotencyKey_toList digest other.key other.jobId.text n
  constructor
  · intro hne hsame hhead
    refine hne (String.toList_injective ?_)
    rw [hfirst, hsecond, ← hsame]
    exact congrArg (· ++ _) hhead
  · intro hdiffer heq
    rw [heq, hsecond] at hfirst
    obtain ⟨hsame, hhead⟩ := append_requeueSuffix_inj hfirst
    refine hdiffer hsame.symm ?_
    rw [← hsame]
    rw [← hsame] at hhead
    exact hhead.symm

def builderId : QueueJobId := ⟨"builder-1760000000000-0a1b2c3d", by decide, by decide⟩

def buildJob : KeyedJob := ⟨"build", by decide, builderId⟩

def deployJob : KeyedJob := ⟨"deploy", by decide, builderId⟩

theorem hexDigest_plainHost : HexDigest plainHost where
  length _ := show "0123456789abcdef".toList.length = 16 by decide
  hex _ c hc := by
    have hall : "0123456789abcdef".toList.all
        (fun c => decide (c.isDigit ∨ 'a' ≤ c ∧ c ≤ 'f')) = true := by decide
    exact of_decide_eq_true (all_eq_true.mp hall c hc)

/-- A key that a caller chose, as the bridge would write the first requeue of `build`. -/
def suffixedJob : KeyedJob := ⟨"build:requeue:1", by decide, builderId⟩

end AgentBridge.Queue
