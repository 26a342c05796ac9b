/-
# Throttling signed transactions

`CheckThrottle` is an extension of transactions that counts the bytes of each account.  Its
storage has, for each account, the bytes used and the block in which the window of the count
began; when a transaction finds that the window is over, the count begins anew with it.

So the bytes are bounded in each window of the count.  In an arbitrary window of as many blocks
there can be transactions of two windows of the count, unless the count only begins anew for
accounts whose transactions lie as far back as a window is long.
-/
import Mathlib.Algebra.GroupWithZero.Nat
import Mathlib.Algebra.Order.BigOperators.Group.List
import Mathlib.Algebra.Order.Group.Nat
import Mathlib.Data.List.Induction
import Mathlib.Logic.Function.Basic

namespace MidnightNode.Throttle

/-- `u64::MAX`. -/
def u64Max : ℕ := 2 ^ 64 - 1

/-- `saturating_add` of `u64`. -/
def saturatingAdd (a b : ℕ) : ℕ := min (a + b) u64Max

/-- The configuration of the pallet. -/
structure Config where
  /-- `MaxBytes`. -/
  maxBytes : ℕ
  /-- It is a `u64`. -/
  maxBytes_le : maxBytes ≤ u64Max
  /-- `WindowSize`. -/
  windowSize : ℕ

/-- A value of `AccountUsage`, with its default. -/
structure Usage where
  /-- The bytes used in the window. -/
  bytesUsed : ℕ := 0
  /-- The block in which the window began. -/
  windowStart : ℕ := 0
deriving DecidableEq, Repr

/-- The errors of the extension. -/
inductive InvalidTransaction
  | exhaustsResources
deriving DecidableEq, Repr

variable {AccountId : Type} (T : Config)

/-- Whether the window of a count is over.  Block numbers are subtracted with saturation. -/
def isExpired (currentBlock : ℕ) (usage : Usage) : Bool :=
  T.windowSize ≤ currentBlock - usage.windowStart

/-- The bytes that count in a block: none, if the window is over. -/
def effectiveBytes (currentBlock : ℕ) (usage : Usage) : ℕ :=
  if isExpired T currentBlock usage then 0 else usage.bytesUsed

/-! ### Bytes in a window -/

/-- A transaction in a block. -/
structure Transaction (AccountId : Type) where
  /-- The block. -/
  block : ℕ
  /-- The signer, if there is one. -/
  signer : Option AccountId
  /-- The length. -/
  len : ℕ
deriving DecidableEq

/-- The bytes of transactions in as many blocks as a window has, from block `b` on. -/
def bytesFrom (b : ℕ) (txs : List (Transaction AccountId)) : ℕ :=
  ((txs.filter fun tx => b ≤ tx.block && tx.block < b + T.windowSize).map Transaction.len).sum

section Bytes

variable {T} {b : ℕ} {txs txs' : List (Transaction AccountId)}

lemma bytesFrom_append :
    bytesFrom T b (txs ++ txs') = bytesFrom T b txs + bytesFrom T b txs' := by
  simp [bytesFrom]

lemma bytesFrom_le_sum : bytesFrom T b txs ≤ (txs.map Transaction.len).sum :=
  List.Sublist.sum_le_sum (List.filter_sublist.map _) fun _ _ => Nat.zero_le _

lemma bytesFrom_eq_zero (h : ∀ tx ∈ txs, tx.block < b ∨ b + T.windowSize ≤ tx.block) :
    bytesFrom T b txs = 0 := by
  have hnil : (txs.filter fun tx => b ≤ tx.block && tx.block < b + T.windowSize) = [] := by
    refine List.filter_eq_nil_iff.2 fun tx htx => ?_
    have := h tx htx
    simp only [Bool.and_eq_true, decide_eq_true_eq, not_and]
    omega
  rw [bytesFrom, hnil]
  rfl

end Bytes

/-! ### The extension -/

variable [DecidableEq AccountId]

/-- `validate`, for the signer of a transaction if it has one. -/
def validate (accountUsage : AccountId → Usage) (currentBlock : ℕ) (signer : Option AccountId)
    (len : ℕ) : Except InvalidTransaction (Option AccountId) :=
  match signer with
  | none => .ok none
  | some who =>
    let newBytes := saturatingAdd (effectiveBytes T currentBlock (accountUsage who)) len
    if T.maxBytes < newBytes then .error .exhaustsResources else .ok (some who)

/-- The new usage of an account, in `prepare`. -/
def Usage.add (currentBlock len : ℕ) (usage : Usage) : Usage :=
  let usage := if isExpired T currentBlock usage then ⟨0, currentBlock⟩ else usage
  { usage with bytesUsed := saturatingAdd usage.bytesUsed len }

/-- `prepare`. -/
def prepare (accountUsage : AccountId → Usage) (currentBlock : ℕ) (val : Option AccountId)
    (len : ℕ) : AccountId → Usage :=
  match val with
  | none => accountUsage
  | some who => Function.update accountUsage who ((accountUsage who).add T currentBlock len)

/-! ### Runs -/

/-- The storage, and the transactions so far with their verdicts. -/
structure State (AccountId : Type) where
  accountUsage : AccountId → Usage
  log : List (Transaction AccountId × Bool)

/-- `validate` and, if it accepts, `prepare`. -/
def execute (s : State AccountId) (tx : Transaction AccountId) : State AccountId :=
  match validate T s.accountUsage tx.block tx.signer tx.len with
  | .error _ => { s with log := s.log ++ [(tx, false)] }
  | .ok val => ⟨prepare T s.accountUsage tx.block val tx.len, s.log ++ [(tx, true)]⟩

/-- The transactions of a run, from the empty storage. -/
def run (txs : List (Transaction AccountId)) : State AccountId :=
  txs.foldl (execute T) ⟨fun _ => {}, []⟩

/-- The blocks never decrease. -/
def Ordered (txs : List (Transaction AccountId)) : Prop :=
  txs.Pairwise fun tx tx' => tx.block ≤ tx'.block

/-- The accepted transactions of an account. -/
def accepted (account : AccountId) (log : List (Transaction AccountId × Bool)) :
    List (Transaction AccountId) :=
  (log.filter fun entry => entry.2 && entry.1.signer = some account).map Prod.fst

variable {T}

lemma run_append_singleton (txs : List (Transaction AccountId)) (tx : Transaction AccountId) :
    run T (txs ++ [tx]) = execute T (run T txs) tx := by
  simp [run]

/-! ### One transaction -/

section Step

variable {s : State AccountId} {tx : Transaction AccountId} {account : AccountId}

@[simp] lemma add_bytesUsed (currentBlock len : ℕ) (usage : Usage) :
    (usage.add T currentBlock len).bytesUsed =
      saturatingAdd (effectiveBytes T currentBlock usage) len := by
  rw [Usage.add, effectiveBytes]
  split <;> rfl

/-- A transaction without a signer is accepted and leaves the storage alone; one with a signer is
accepted if its bytes fit, and then they are added; otherwise it leaves the storage alone. -/
lemma execute_cases (s : State AccountId) (tx : Transaction AccountId) :
    (tx.signer = none ∧ execute T s tx = { s with log := s.log ++ [(tx, true)] }) ∨
    (∃ who, tx.signer = some who ∧
      saturatingAdd (effectiveBytes T tx.block (s.accountUsage who)) tx.len ≤ T.maxBytes ∧
      execute T s tx = ⟨Function.update s.accountUsage who
        ((s.accountUsage who).add T tx.block tx.len), s.log ++ [(tx, true)]⟩) ∨
    (∃ who, tx.signer = some who ∧
      T.maxBytes < saturatingAdd (effectiveBytes T tx.block (s.accountUsage who)) tx.len ∧
      execute T s tx = { s with log := s.log ++ [(tx, false)] }) := by
  cases hsigner : tx.signer with
  | none => exact .inl ⟨rfl, by simp [execute, validate, hsigner, prepare]⟩
  | some who =>
    by_cases hfits : T.maxBytes <
        saturatingAdd (effectiveBytes T tx.block (s.accountUsage who)) tx.len
    · exact .inr (.inr ⟨who, rfl, hfits, by simp [execute, validate, hsigner, hfits]⟩)
    · exact .inr (.inl ⟨who, rfl, Nat.not_lt.1 hfits,
        by simp [execute, validate, hsigner, hfits, prepare]⟩)

/-- The log grows by the transaction. -/
lemma map_fst_log_run (txs : List (Transaction AccountId)) :
    (run T txs).log.map Prod.fst = txs := by
  induction txs using List.reverseRecOn with
  | nil => rfl
  | append_singleton txs tx ih =>
    rw [run_append_singleton]
    obtain ⟨-, h⟩ | ⟨_, -, -, h⟩ | ⟨_, -, -, h⟩ := execute_cases (T := T) (run T txs) tx <;>
      simp [h, ih]

lemma mem_of_mem_accepted {txs : List (Transaction AccountId)}
    (h : tx ∈ accepted account (run T txs).log) : tx ∈ txs := by
  rw [← map_fst_log_run (T := T) txs]
  obtain ⟨entry, hentry, rfl⟩ := List.mem_map.1 h
  exact List.mem_map_of_mem (List.mem_of_mem_filter hentry)

/-- The transactions of others change nothing for an account. -/
lemma execute_of_signer_ne (h : tx.signer ≠ some account) :
    (execute T s tx).accountUsage account = s.accountUsage account ∧
      accepted account (execute T s tx).log = accepted account s.log := by
  obtain ⟨-, he⟩ | ⟨who, hwho, -, he⟩ | ⟨_, -, -, he⟩ := execute_cases (T := T) s tx
  · simp [he, accepted, h]
  · have hne : account ≠ who := by
      rintro rfl
      exact h hwho
    simp [he, accepted, h, Function.update_of_ne hne]
  · simp [he, accepted]

/-- Those of the account itself are accepted with bytes that fit, or change nothing. -/
lemma execute_of_signer_eq (h : tx.signer = some account) :
    (saturatingAdd (effectiveBytes T tx.block (s.accountUsage account)) tx.len ≤ T.maxBytes ∧
      (execute T s tx).accountUsage account =
        (s.accountUsage account).add T tx.block tx.len ∧
      accepted account (execute T s tx).log = accepted account s.log ++ [tx]) ∨
    (T.maxBytes < saturatingAdd (effectiveBytes T tx.block (s.accountUsage account)) tx.len ∧
      (execute T s tx).accountUsage account = s.accountUsage account ∧
      accepted account (execute T s tx).log = accepted account s.log) := by
  obtain ⟨hnone, -⟩ | ⟨who, hwho, hfits, he⟩ | ⟨who, hwho, hfits, he⟩ :=
    execute_cases (T := T) s tx
  · rw [h] at hnone
    cases hnone
  · obtain rfl : account = who := Option.some.inj (h.symm.trans hwho)
    exact .inl ⟨hfits, by simp [he], by simp [he, accepted, h]⟩
  · obtain rfl : account = who := Option.some.inj (h.symm.trans hwho)
    exact .inr ⟨hfits, by simp [he], by simp [he, accepted]⟩

end Step

/-! ### The stored count -/

/-- The stored bytes never exceed the limit. -/
lemma bytesUsed_le (txs : List (Transaction AccountId)) (account : AccountId) :
    ((run T txs).accountUsage account).bytesUsed ≤ T.maxBytes := by
  induction txs using List.reverseRecOn with
  | nil => exact Nat.zero_le _
  | append_singleton txs tx ih =>
    rw [run_append_singleton]
    by_cases hsigner : tx.signer = some account
    · obtain ⟨hfits, husage, -⟩ | ⟨-, husage, -⟩ := execute_of_signer_eq (T := T)
        (s := run T txs) hsigner
      · rwa [husage, add_bytesUsed]
      · rwa [husage]
    · rwa [(execute_of_signer_ne hsigner).1]

/-- The accepted transactions of an account are split where its count last began anew: the count
has the bytes of those after it, and those before it lie as far back as a window is long. -/
structure Split (T : Config) (usage : Usage) (old current : List (Transaction AccountId)) :
    Prop where
  sum : (current.map Transaction.len).sum = usage.bytesUsed
  apart : ∀ tx ∈ old, ∀ tx' ∈ current, tx.block + T.windowSize ≤ tx'.block
  begun : old = [] ∨ current ≠ []

omit [DecidableEq AccountId] in
/-- In a window with a transaction of the current count there are only such. -/
lemma Split.bytesFrom_le {usage : Usage} {old current : List (Transaction AccountId)}
    (h : Split T usage old current) {tx : Transaction AccountId} (htx : tx ∈ current) {b : ℕ}
    (hlt : tx.block < b + T.windowSize) : bytesFrom T b (old ++ current) ≤ usage.bytesUsed := by
  have hold : bytesFrom T b old = 0 := by
    refine bytesFrom_eq_zero fun earlier hearlier => .inl ?_
    have := h.apart earlier hearlier tx htx
    omega
  rw [bytesFrom_append, hold, Nat.zero_add, ← h.sum]
  exact bytesFrom_le_sum

/-- A transaction keeps what still counts: if the count of its signer begins anew with it, then the
accepted transactions of the signer lie as far back as a window is long; and its bytes do not
saturate the count. -/
def KeepsCount (T : Config) (s : State AccountId) (tx : Transaction AccountId) : Prop :=
  ∀ who, tx.signer = some who →
    validate T s.accountUsage tx.block tx.signer tx.len = .ok (some who) →
      (isExpired T tx.block (s.accountUsage who) = true →
        ∀ earlier ∈ accepted who s.log, earlier.block + T.windowSize ≤ tx.block) ∧
      (T.maxBytes < u64Max ∨
        effectiveBytes T tx.block (s.accountUsage who) + tx.len ≤ u64Max)

/-- Bytes that fit are not saturated. -/
lemma saturatingAdd_eq {a len : ℕ} (hfits : saturatingAdd a len ≤ T.maxBytes)
    (h : T.maxBytes < u64Max ∨ a + len ≤ u64Max) : saturatingAdd a len = a + len := by
  rw [saturatingAdd] at hfits ⊢
  omega

omit [DecidableEq AccountId] in
/-- An accepted transaction that keeps what still counts joins the current count. -/
lemma Split.add {usage : Usage} {old current : List (Transaction AccountId)}
    (h : Split T usage old current) {tx : Transaction AccountId}
    (hfits : saturatingAdd (effectiveBytes T tx.block usage) tx.len ≤ T.maxBytes)
    (hafter : ∀ earlier ∈ old ++ current, earlier.block ≤ tx.block)
    (hexpired : isExpired T tx.block usage = true →
      ∀ earlier ∈ old ++ current, earlier.block + T.windowSize ≤ tx.block)
    (hsaturates : T.maxBytes < u64Max ∨ effectiveBytes T tx.block usage + tx.len ≤ u64Max) :
    ∃ old' current', old' ++ current' = old ++ current ++ [tx] ∧ tx ∈ current' ∧
      Split T (usage.add T tx.block tx.len) old' current' := by
  have hbytes : (usage.add T tx.block tx.len).bytesUsed =
      effectiveBytes T tx.block usage + tx.len := by
    rw [add_bytesUsed, saturatingAdd_eq hfits hsaturates]
  by_cases hwindow : isExpired T tx.block usage = true
  · -- the count begins anew with the transaction
    refine ⟨old ++ current, [tx], rfl, by simp, ?_, ?_, .inr (by simp)⟩
    · rw [hbytes, effectiveBytes, if_pos hwindow]
      simp
    · intro earlier hearlier tx' htx'
      rw [List.mem_singleton.1 htx']
      exact hexpired hwindow earlier hearlier
  · refine ⟨old, current ++ [tx], (List.append_assoc ..).symm, by simp, ?_, ?_, .inr (by simp)⟩
    · rw [hbytes, effectiveBytes, if_neg hwindow, ← h.sum]
      simp
    · intro earlier hearlier tx' htx'
      rcases List.mem_append.1 htx' with htx' | htx'
      · exact h.apart earlier hearlier tx' htx'
      · -- a transaction of the current count lies between the two
        rw [List.mem_singleton.1 htx']
        rcases h.begun with rfl | hcurrent
        · cases hearlier
        · obtain ⟨between, hbetween⟩ := List.exists_mem_of_ne_nil current hcurrent
          have hapart := h.apart earlier hearlier between hbetween
          have hbefore := hafter between (List.mem_append_right old hbetween)
          omega

/-- Every transaction of a run keeps what still counts. -/
def KeepsCounts (T : Config) (txs : List (Transaction AccountId)) : Prop :=
  ∀ before tx after, txs = before ++ tx :: after → KeepsCount T (run T before) tx

lemma KeepsCounts.init {txs : List (Transaction AccountId)} {tx : Transaction AccountId}
    (h : KeepsCounts T (txs ++ [tx])) : KeepsCounts T txs := by
  rintro before tx' after rfl
  exact h before tx' (after ++ [tx]) (by simp)

lemma KeepsCounts.last {txs : List (Transaction AccountId)} {tx : Transaction AccountId}
    (h : KeepsCounts T (txs ++ [tx])) : KeepsCount T (run T txs) tx :=
  h txs tx [] rfl

/-- In such a run there is always a split, and the bytes in every window are bounded. -/
lemma exists_split_and_bytesFrom_le {txs : List (Transaction AccountId)} (hordered : Ordered txs)
    (hkeeps : KeepsCounts T txs) (account : AccountId) :
    (∃ old current, accepted account (run T txs).log = old ++ current ∧
      Split T ((run T txs).accountUsage account) old current) ∧
    ∀ b, bytesFrom T b (accepted account (run T txs).log) ≤ T.maxBytes := by
  induction txs using List.reverseRecOn with
  | nil => exact ⟨⟨[], [], rfl, rfl, by simp, .inl rfl⟩, fun b => Nat.zero_le _⟩
  | append_singleton txs tx ih =>
    obtain ⟨hinit, -, hlast⟩ := List.pairwise_append.1 hordered
    obtain ⟨⟨old, current, haccepted, hsplit⟩, hbound⟩ := ih hinit hkeeps.init
    have hlimit := bytesUsed_le (T := T) (txs ++ [tx]) account
    rw [run_append_singleton] at hlimit ⊢
    by_cases hsigner : tx.signer = some account
    · obtain ⟨hfits, husage, hlog⟩ | ⟨-, husage, hlog⟩ := execute_of_signer_eq (T := T)
        (s := run T txs) hsigner
      · have hvalid : validate T (run T txs).accountUsage tx.block tx.signer tx.len =
            .ok (some account) := by
          simp [validate, hsigner, Nat.not_lt.2 hfits]
        obtain ⟨hexpired, hsaturates⟩ := hkeeps.last account hsigner hvalid
        have hafter : ∀ earlier ∈ old ++ current, earlier.block ≤ tx.block := by
          intro earlier hearlier
          rw [← haccepted] at hearlier
          exact hlast earlier (mem_of_mem_accepted hearlier) tx (by simp)
        rw [haccepted] at hexpired
        obtain ⟨old', current', heq, hmem, hsplit'⟩ := hsplit.add hfits hafter hexpired hsaturates
        rw [husage] at hlimit ⊢
        rw [hlog]
        refine ⟨⟨old', current', by rw [heq, haccepted], hsplit'⟩, fun b => ?_⟩
        by_cases hwindow : b ≤ tx.block ∧ tx.block < b + T.windowSize
        · rw [haccepted, ← heq]
          exact (hsplit'.bytesFrom_le hmem hwindow.2).trans hlimit
        · -- the window does not have the transaction
          have hout : bytesFrom T b [tx] = 0 := by
            refine bytesFrom_eq_zero fun tx' htx' => ?_
            rw [List.mem_singleton.1 htx']
            omega
          rw [bytesFrom_append, hout]
          exact hbound b
      · rw [husage, hlog]
        exact ⟨⟨old, current, haccepted, hsplit⟩, hbound⟩
    · obtain ⟨husage, hlog⟩ := execute_of_signer_ne (T := T) (s := run T txs) hsigner
      rw [husage, hlog]
      exact ⟨⟨old, current, haccepted, hsplit⟩, hbound⟩

/-! ### Accounts among each other -/

/-- The transactions of an account. -/
def ofAccount (account : AccountId) (txs : List (Transaction AccountId)) :
    List (Transaction AccountId) :=
  txs.filter fun tx => tx.signer = some account

/-- The verdicts on the transactions of an account. -/
def verdicts (account : AccountId) (log : List (Transaction AccountId × Bool)) :
    List (Transaction AccountId × Bool) :=
  log.filter fun entry => entry.1.signer = some account

/-- What a transaction of an account does to the count of the account, and its verdict, depend on
that count only. -/
lemma execute_congr {s s' : State AccountId} {tx : Transaction AccountId} {account : AccountId}
    (hsigner : tx.signer = some account)
    (husage : s.accountUsage account = s'.accountUsage account)
    (hlog : verdicts account s.log = s'.log) :
    (execute T s tx).accountUsage account = (execute T s' tx).accountUsage account ∧
      verdicts account (execute T s tx).log = (execute T s' tx).log := by
  have hvalidate : validate T s.accountUsage tx.block tx.signer tx.len =
      validate T s'.accountUsage tx.block tx.signer tx.len := by
    simp only [hsigner, validate, husage]
  rw [verdicts] at hlog
  simp only [execute, hvalidate]
  cases hresult : validate T s'.accountUsage tx.block tx.signer tx.len with
  | error e => simp [verdicts, hlog, husage, hsigner]
  | ok val =>
    obtain rfl : val = some account := by
      simp only [hsigner, validate] at hresult
      split at hresult <;> cases hresult
      rfl
    simp [verdicts, hlog, husage, hsigner, prepare]

/-- An account is judged as if the others had sent nothing. -/
lemma verdicts_run (txs : List (Transaction AccountId)) (account : AccountId) :
    (run T txs).accountUsage account =
        (run T (ofAccount account txs)).accountUsage account ∧
      verdicts account (run T txs).log = (run T (ofAccount account txs)).log := by
  induction txs using List.reverseRecOn with
  | nil => exact ⟨rfl, rfl⟩
  | append_singleton txs tx ih =>
    by_cases hsigner : tx.signer = some account
    · have hown : ofAccount account (txs ++ [tx]) = ofAccount account txs ++ [tx] := by
        simp [ofAccount, hsigner]
      rw [hown, run_append_singleton, run_append_singleton]
      exact execute_congr hsigner ih.1 ih.2
    · have hown : ofAccount account (txs ++ [tx]) = ofAccount account txs := by
        simp [ofAccount, hsigner]
      have hverdict : verdicts account (execute T (run T txs) tx).log =
          verdicts account (run T txs).log := by
        obtain ⟨-, h⟩ | ⟨_, -, -, h⟩ | ⟨_, -, -, h⟩ := execute_cases (T := T) (run T txs) tx <;>
          simp [h, verdicts, hsigner]
      rw [hown, run_append_singleton, hverdict, (execute_of_signer_ne hsigner).1]
      exact ih

/-- **What throttling bounds.**  For every limit and size of the window, in every run in which the
blocks never decrease: if every transaction keeps what still counts, then each account has at most
`MaxBytes` of accepted transactions in any `WindowSize` blocks.  In every run the stored bytes are
within the limit, and each account is judged as if the others had sent nothing. -/
theorem throttle_bounds_windows (T : Config) (txs : List (Transaction AccountId))
    (hordered : Ordered txs) :
    (KeepsCounts T txs → ∀ account b,
      bytesFrom T b (accepted account (run T txs).log) ≤ T.maxBytes) ∧
    (∀ account, ((run T txs).accountUsage account).bytesUsed ≤ T.maxBytes) ∧
    (∀ account, verdicts account (run T txs).log = (run T (ofAccount account txs)).log) :=
  ⟨fun hkeeps account => (exists_split_and_bytesFrom_le hordered hkeeps account).2,
    fun account => bytesUsed_le txs account, fun account => (verdicts_run txs account).2⟩

/-! ### Two windows of the count in one -/

/-- A hundred bytes in ten blocks. -/
def demoConfig : Config where
  maxBytes := 100
  maxBytes_le := by decide
  windowSize := 10

/-- Two accounts; the count of the first begins anew when its transaction lies ten blocks back. -/
def demoRun : List (Transaction ℕ) :=
  [⟨2, some 1, 60⟩, ⟨2, some 1, 60⟩, ⟨3, some 2, 90⟩, ⟨12, some 1, 60⟩]

/-- The second transaction is rejected, the others are accepted. -/
theorem throttle_bounds_demo :
    Ordered demoRun ∧ KeepsCounts demoConfig demoRun ∧
      (∀ account b, bytesFrom demoConfig b
        (accepted account (run demoConfig demoRun).log) ≤ demoConfig.maxBytes) ∧
      (run demoConfig demoRun).log.map Prod.snd = [true, false, true, true] := by
  have hordered : Ordered demoRun := by
    unfold Ordered
    decide
  have hkeeps : KeepsCounts demoConfig demoRun := by
    intro before tx after h who hwho hvalid
    refine ⟨fun hexpired earlier hearlier => ?_, .inl (by decide)⟩
    rcases before with _ | ⟨tx₁, _ | ⟨tx₂, _ | ⟨tx₃, _ | ⟨tx₄, before⟩⟩⟩⟩
    · cases h
      cases hwho
      exact absurd hexpired (by decide)
    · cases h
      cases hwho
      exact absurd hexpired (by decide)
    · cases h
      cases hwho
      exact absurd hexpired (by decide)
    · cases h
      cases hwho
      revert earlier
      decide
    · simp [demoRun] at h
  exact ⟨hordered, hkeeps, (throttle_bounds_windows demoConfig demoRun hordered).1 hkeeps, rfl⟩

/-- A hundred bytes in the last block of a window of the count and a hundred in the next one. -/
def burst : List (Transaction ℕ) := [⟨9, some 1, 100⟩, ⟨10, some 1, 100⟩]

/-- Both are accepted: two hundred bytes in the ten blocks from block 9 on. -/
theorem burst_exceeds_limit :
    Ordered burst ∧ (run demoConfig burst).log.map Prod.snd = [true, true] ∧
      demoConfig.maxBytes < bytesFrom demoConfig 9 (accepted 1 (run demoConfig burst).log) := by
  refine ⟨?_, rfl, by decide⟩
  unfold Ordered
  decide

end MidnightNode.Throttle
