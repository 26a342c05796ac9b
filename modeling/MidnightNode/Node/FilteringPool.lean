/-
# The filtering transaction pool

A gateway node puts a filter in front of its transaction pool.  Extrinsics that deploy or maintain
contracts may be denied, as may those that do not decode; the others are passed on to the inner
pool.  A single extrinsic that is denied gets an error.  In a batch the denied extrinsics are left
out before the rest is passed on, and the results are those of the rest.
-/
import Mathlib.Data.List.Basic
import Mathlib.Logic.Function.Basic
import Mathlib.Tactic.Lemma

namespace MidnightNode.FilteringPool

/-- An operation of a transaction, as far as it is read. -/
inductive Op
  | call
  | deploy
  | maintain
  | claimRewards
deriving DecidableEq, Repr

/-- A decoded transaction of the ledger. -/
structure Tx where
  operations : List Op

/-- A call of the runtime. -/
inductive RuntimeCall
  | sendMnTransaction (midnightTx : List UInt8)
  | other

/-- The configuration of the filter. -/
structure TxFilterConfig where
  enabled : Bool
  denyDeploy : Bool
  denyMaintain : Bool

/-- The decoders that are asked about an extrinsic: that of the runtime, and its API at a block. -/
structure Client (Hash Xt : Type) where
  ApiError : Type
  LedgerApiError : Type
  /-- `UncheckedExtrinsic::decode`, and the call. -/
  decodeExtrinsic : Xt → Option RuntimeCall
  /-- `get_decoded_transaction`. -/
  getDecodedTransaction : Hash → List UInt8 → Except ApiError (Except LedgerApiError Tx)

/-! ### Metrics -/

/-- A vector of counters by the values of its labels. -/
structure CounterVec where
  labelNames : List String
  counts : List String → ℕ

/-- Increment the counter with the given values; it is an error if there are more or fewer values
than labels. -/
def CounterVec.inc (c : CounterVec) (values : List String) : Except Unit CounterVec :=
  if values.length = c.labelNames.length then
    .ok { c with counts := Function.update c.counts values (c.counts values + 1) }
  else .error ()

/-- The counters, if there is a registry. -/
structure FilteringMetrics where
  forwardedCount : Option ℕ
  receivedCount : Option ℕ
  deniedCount : Option CounterVec

/-- `DEPLOY`, `MAINTAIN` and `PARSE_ERROR`. -/
def labels : List String := ["deploy", "maintain", "parse_error"]

/-- `FilteringMetrics::new`. -/
def FilteringMetrics.new (registry : Bool) : FilteringMetrics :=
  if registry then ⟨some 0, some 0, some ⟨labels, fun _ => 0⟩⟩ else ⟨none, none, none⟩

/-- `deny`.  The error is dropped. -/
def FilteringMetrics.deny (m : FilteringMetrics) (reason : String) : FilteringMetrics :=
  { m with deniedCount := m.deniedCount.map fun c => (c.inc [reason]).toOption.getD c }

/-- `forward`. -/
def FilteringMetrics.forward (m : FilteringMetrics) : FilteringMetrics :=
  { m with forwardedCount := m.forwardedCount.map (· + 1) }

/-- `receive`. -/
def FilteringMetrics.receive (m : FilteringMetrics) : FilteringMetrics :=
  { m with receivedCount := m.receivedCount.map (· + 1) }

/-- A denied extrinsic is never counted: the vector has three labels, and `deny` gives one value. -/
lemma FilteringMetrics.deny_eq_self {m : FilteringMetrics}
    (h : ∀ c, m.deniedCount = some c → c.labelNames = labels) (reason : String) :
    m.deny reason = m := by
  obtain ⟨forwardedCount, receivedCount, deniedCount⟩ := m
  cases deniedCount with
  | none => rfl
  | some c =>
    have hlabels : [reason].length ≠ c.labelNames.length := by
      rw [h c rfl]
      simp [labels]
    simp only [deny, CounterVec.inc, if_neg hlabels, Option.map_some]
    rfl

/-! ### The filter -/

section Filter

variable {Hash Xt : Type} (config : TxFilterConfig) (client : Client Hash Xt)

/-- `is_forbidden_tx`, on the operations of a transaction. -/
def isForbiddenTx : List Op → FilteringMetrics → Bool × FilteringMetrics
  | [], m => (false, m)
  | .deploy :: operations, m =>
    if config.denyDeploy then (true, m.deny "deploy") else isForbiddenTx operations m
  | .maintain :: operations, m =>
    if config.denyMaintain then (true, m.deny "maintain") else isForbiddenTx operations m
  | .call :: operations, m => isForbiddenTx operations m
  | .claimRewards :: operations, m => isForbiddenTx operations m

/-- `should_accept_extrinsic`. -/
def shouldAcceptExtrinsic (at_ : Hash) (xt : Xt) (m : FilteringMetrics) :
    Bool × FilteringMetrics :=
  if !config.enabled then (true, m)
  else
    let m := m.receive
    match client.decodeExtrinsic xt with
    | none => (true, m.forward)
    | some (.sendMnTransaction midnightTx) =>
      match client.getDecodedTransaction at_ midnightTx with
      | .ok (.ok decodedTx) =>
        let (forbidden, m) := isForbiddenTx config decodedTx.operations m
        if forbidden then (false, m) else (true, m.forward)
      | .ok (.error _) => (false, m.deny "parse_error")
      | .error _ => (false, m.deny "parse_error")
    | some .other => (true, m.forward)

/-- The verdict on an extrinsic. -/
def accepts (at_ : Hash) (xt : Xt) : Bool :=
  (shouldAcceptExtrinsic config client at_ xt ⟨none, none, none⟩).1

lemma isForbiddenTx_fst (operations : List Op) (m m' : FilteringMetrics) :
    (isForbiddenTx config operations m).1 = (isForbiddenTx config operations m').1 := by
  induction operations with
  | nil => rfl
  | cons op operations ih =>
    cases op with
    | call => exact ih
    | claimRewards => exact ih
    | deploy =>
      rw [isForbiddenTx, isForbiddenTx]
      split
      · rfl
      · exact ih
    | maintain =>
      rw [isForbiddenTx, isForbiddenTx]
      split
      · rfl
      · exact ih

/-- The verdict does not depend on the counters. -/
lemma shouldAcceptExtrinsic_fst (at_ : Hash) (xt : Xt) (m : FilteringMetrics) :
    (shouldAcceptExtrinsic config client at_ xt m).1 = accepts config client at_ xt := by
  rw [accepts, shouldAcceptExtrinsic, shouldAcceptExtrinsic]
  split
  · rfl
  · cases client.decodeExtrinsic xt with
    | none => rfl
    | some call =>
      cases call with
      | other => rfl
      | sendMnTransaction midnightTx =>
        cases hdecoded : client.getDecodedTransaction at_ midnightTx with
        | error e => simp only [hdecoded]
        | ok result =>
          cases result with
          | error e => simp only [hdecoded]
          | ok decodedTx =>
            have hforbidden := isForbiddenTx_fst config decodedTx.operations m.receive
              (FilteringMetrics.receive ⟨none, none, none⟩)
            simp only [hdecoded, hforbidden]
            split <;> rfl

end Filter

/-! ### The pool -/

/-- The inner pool. -/
structure InnerPool (Hash Source Xt : Type) where
  State : Type
  TxHash : Type
  Watcher : Type
  Error : Type
  /-- `TxPoolError::ImmediatelyDropped`, as an error of the pool. -/
  immediatelyDropped : Error
  submitAt : Hash → Source → List Xt → State → State × Except Error (List (Except Error TxHash))
  submitOne : Hash → Source → Xt → State → State × Except Error TxHash
  submitAndWatch : Hash → Source → Xt → State → State × Except Error Watcher
  submitLocal : Hash → Xt → State → State × Except Error TxHash

section Pool

variable {Hash Source Xt : Type} (config : TxFilterConfig) (client : Client Hash Xt)
  (inner : InnerPool Hash Source Xt)

/-- The state of the inner pool and the counters. -/
structure PoolState where
  pool : inner.State
  metrics : FilteringMetrics

variable {inner}

/-- Submit a single extrinsic in some way, unless it is denied. -/
def submitIfAccepted {α : Type} (at_ : Hash) (xt : Xt)
    (submit : inner.State → inner.State × Except inner.Error α) (s : PoolState inner) :
    PoolState inner × Except inner.Error α :=
  let (accepted, metrics) := shouldAcceptExtrinsic config client at_ xt s.metrics
  if !accepted then ({ s with metrics := metrics }, .error inner.immediatelyDropped)
  else
    let (pool, result) := submit s.pool
    (⟨pool, metrics⟩, result)

/-- `submit_one`. -/
def submitOne (at_ : Hash) (source : Source) (xt : Xt) (s : PoolState inner) :
    PoolState inner × Except inner.Error inner.TxHash :=
  submitIfAccepted config client at_ xt (inner.submitOne at_ source xt) s

/-- `submit_and_watch`. -/
def submitAndWatch (at_ : Hash) (source : Source) (xt : Xt) (s : PoolState inner) :
    PoolState inner × Except inner.Error inner.Watcher :=
  submitIfAccepted config client at_ xt (inner.submitAndWatch at_ source xt) s

/-- `submit_local`. -/
def submitLocal (at_ : Hash) (xt : Xt) (s : PoolState inner) :
    PoolState inner × Except inner.Error inner.TxHash :=
  submitIfAccepted config client at_ xt (inner.submitLocal at_ xt) s

/-- The loop of `submit_at`: the extrinsics that are not denied. -/
def filterExtrinsics (at_ : Hash) : List Xt → FilteringMetrics → List Xt × FilteringMetrics
  | [], m => ([], m)
  | xt :: xts, m =>
    let (accepted, m) := shouldAcceptExtrinsic config client at_ xt m
    let (filtered, m) := filterExtrinsics at_ xts m
    (if accepted then xt :: filtered else filtered, m)

/-- `submit_at`. -/
def submitAt (at_ : Hash) (source : Source) (xts : List Xt) (s : PoolState inner) :
    PoolState inner × Except inner.Error (List (Except inner.Error inner.TxHash)) :=
  let (filtered, metrics) := filterExtrinsics config client at_ xts s.metrics
  let (pool, results) := inner.submitAt at_ source filtered s.pool
  (⟨pool, metrics⟩, results)

/-- Submit extrinsics one after the other. -/
def submitEach {σ ρ : Type} (submit : Xt → σ → σ × ρ) : List Xt → σ → σ × List ρ
  | [], s => (s, [])
  | xt :: xts, s =>
    let (s, result) := submit xt s
    let (s, results) := submitEach submit xts s
    (s, result :: results)

variable {config client}

@[simp] lemma length_submitEach {σ ρ : Type} (submit : Xt → σ → σ × ρ) (xts : List Xt) (s : σ) :
    (submitEach submit xts s).2.length = xts.length := by
  induction xts generalizing s with
  | nil => rfl
  | cons xt xts ih => simp [submitEach, ih]

lemma filterExtrinsics_fst (at_ : Hash) (xts : List Xt) (m : FilteringMetrics) :
    (filterExtrinsics config client at_ xts m).1 = xts.filter (accepts config client at_) := by
  induction xts generalizing m with
  | nil => rfl
  | cons xt xts ih =>
    simp only [filterExtrinsics, shouldAcceptExtrinsic_fst, ih, List.filter_cons]

/-- Where every extrinsic is accepted, the pool submits them one by one as the inner pool does. -/
lemma submitEach_of_accepts {at_ : Hash} {source : Source} {xts : List Xt}
    (h : ∀ xt ∈ xts, accepts config client at_ xt = true) (s : PoolState inner) :
    (submitEach (submitOne config client at_ source) xts s).2 =
      (submitEach (inner.submitOne at_ source) xts s.pool).2 := by
  induction xts generalizing s with
  | nil => rfl
  | cons xt xts ih =>
    have haccepted := shouldAcceptExtrinsic_fst config client at_ xt s.metrics
    rw [h xt (by simp)] at haccepted
    have hone : submitOne config client at_ source xt s =
        (⟨(inner.submitOne at_ source xt s.pool).1,
          (shouldAcceptExtrinsic config client at_ xt s.metrics).2⟩,
          (inner.submitOne at_ source xt s.pool).2) := by
      simp [submitOne, submitIfAccepted, haccepted]
    simp only [submitEach, hone]
    rw [ih fun xt hxt => h xt (by simp [hxt])]

/-- The inner pool gives one result for each extrinsic, in order: the one of submitting it. -/
def InnerPool.OneByOne (inner : InnerPool Hash Source Xt) : Prop :=
  ∀ at_ source xts s, inner.submitAt at_ source xts s =
    ((submitEach (inner.submitOne at_ source) xts s).1,
      .ok (submitEach (inner.submitOne at_ source) xts s).2)

/-- **When batches are positionally faithful.**  For every configuration of the filter, every inner
pool that gives one result for each extrinsic in order, every batch and state of the pools,
`submit_at` returns one result for each extrinsic, that of `submit_one` on it in its turn, if and
only if it denies none of them. -/
theorem submit_at_positionally_faithful_iff (config : TxFilterConfig) (client : Client Hash Xt)
    (inner : InnerPool Hash Source Xt) (hinner : inner.OneByOne) (at_ : Hash) (source : Source)
    (xts : List Xt) (s : PoolState inner) :
    (∃ results, (submitAt config client at_ source xts s).2 = .ok results ∧
      results.length = xts.length ∧
      results = (submitEach (submitOne config client at_ source) xts s).2) ↔
      ∀ xt ∈ xts, accepts config client at_ xt = true := by
  have hsubmit : (submitAt config client at_ source xts s).2 =
      .ok (submitEach (inner.submitOne at_ source)
        (xts.filter (accepts config client at_)) s.pool).2 := by
    simp only [submitAt, filterExtrinsics_fst, hinner at_ source]
  rw [hsubmit]
  constructor
  · rintro ⟨results, hresults, hlength, -⟩
    cases hresults
    rw [length_submitEach] at hlength
    exact List.length_filter_eq_length_iff.1 hlength
  · intro h
    rw [List.filter_eq_self.2 h]
    exact ⟨_, rfl, length_submitEach _ _ _, (submitEach_of_accepts h s).symm⟩

end Pool

/-! ### A batch with a denied extrinsic -/

/-- The errors of the pool of the demonstration. -/
inductive DemoError
  | immediatelyDropped
  | alreadyImported
deriving DecidableEq, Repr

/-- Extrinsics are numbers, and the first one deploys a contract. -/
def demoClient : Client Unit ℕ where
  ApiError := Unit
  LedgerApiError := Unit
  decodeExtrinsic := fun xt => some (.sendMnTransaction [UInt8.ofNat xt])
  getDecodedTransaction := fun _ midnightTx =>
    .ok (.ok ⟨if midnightTx = [1] then [.call, .deploy] else [.call]⟩)

/-- Import an extrinsic that is not there yet. -/
def demoSubmit (xt : ℕ) (s : List ℕ) : List ℕ × Except DemoError ℕ :=
  if xt ∈ s then (s, .error .alreadyImported) else (xt :: s, .ok xt)

/-- A pool that imports one extrinsic after the other. -/
def demoInner : InnerPool Unit Unit ℕ where
  State := List ℕ
  TxHash := ℕ
  Watcher := ℕ
  Error := DemoError
  immediatelyDropped := .immediatelyDropped
  submitAt := fun _ _ xts s =>
    ((submitEach demoSubmit xts s).1, .ok (submitEach demoSubmit xts s).2)
  submitOne := fun _ _ => demoSubmit
  submitAndWatch := fun _ _ => demoSubmit
  submitLocal := fun _ => demoSubmit

/-- The empty pool. -/
def demoState : PoolState demoInner := ⟨([] : List ℕ), .new true⟩

/-- A batch that is not filtered, with a repeated extrinsic. -/
theorem submit_at_faithful_demo :
    demoInner.OneByOne ∧
    ∃ results, (submitAt ⟨true, true, true⟩ demoClient () () [2, 3, 2] demoState).2 = .ok results ∧
      results.length = 3 ∧
      results = (submitEach (submitOne ⟨true, true, true⟩ demoClient () ())
        [2, 3, 2] demoState).2 := by
  have hinner : demoInner.OneByOne := fun _ _ _ _ => rfl
  exact ⟨hinner, (submit_at_positionally_faithful_iff ⟨true, true, true⟩ demoClient demoInner hinner
    () () [2, 3, 2] demoState).2 (by decide)⟩

/-- One by one, the first extrinsic is denied and the second one is imported.  As a batch there is
one result, and the first extrinsic seems to be imported. -/
theorem submit_at_drops_position :
    (submitEach (submitOne ⟨true, true, true⟩ demoClient () ())
      [1, 2] demoState).2 = [.error DemoError.immediatelyDropped, .ok (2 : ℕ)] ∧
    (submitAt ⟨true, true, true⟩ demoClient () () [1, 2] demoState).2 = .ok [.ok (2 : ℕ)] ∧
    ¬ ∃ results, (submitAt ⟨true, true, true⟩ demoClient () () [1, 2] demoState).2 = .ok results ∧
      results.length = 2 := by
  refine ⟨rfl, rfl, ?_⟩
  rintro ⟨results, hresults, hlength⟩
  obtain rfl : [Except.ok (2 : ℕ)] = results := Except.ok.inj hresults
  cases hlength

end MidnightNode.FilteringPool
