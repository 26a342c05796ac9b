/-
# The cached candidates data source

`CandidateDataSourceCached` answers a request from its cache if the data epoch of the request is
stable, and asks the inner data source otherwise.  Requests run concurrently: between two awaits
of one request the others proceed, the view of Cardano grows or is rolled back, and the caches
evict entries.

A request is a small program, run one atomic step at a time, and a system is the shared state with
any number of requests in progress.  Every value of the highest seen stable epoch, and every entry
of a cache, belongs to an epoch that is settled: its blocks do not change any more.  So whatever
is served from a cache is what the inner data source would answer during the request.
-/
import MidnightNode.Lib.Rollback
import Mathlib.Data.List.Sort
import Mathlib.Logic.Function.Basic
import Mathlib.Tactic.IntervalCases

namespace MidnightNode.Authority.Cached

open Rollback

/-! ### The view of Cardano -/

/-- A block of Cardano. -/
structure Block (Contents : Type) where
  blockNo : ℕ
  epochNo : ℕ
  contents : Contents

/-- What db-sync holds: blocks with consecutive numbers, in epochs that do not decrease. -/
structure View (Contents : Type) where
  blocks : List (Block Contents)
  consecutive : blocks.IsChain (fun a b => b.blockNo = a.blockNo + 1)
  epochs_mono : blocks.Pairwise (fun a b => a.epochNo ≤ b.epochNo)
  epoch_pos : ∀ b ∈ blocks, 1 ≤ b.epochNo

/-- `get_latest_stable_epoch`: of the blocks that have one `security_parameter` below them, the
last; and the epoch of that one, less one. -/
def getLatestStableEpoch {Contents : Type} (blocks : List (Block Contents))
    (securityParameter : ℕ) : Option ℕ :=
  let joined := blocks.flatMap fun block =>
    (blocks.filter fun stable => stable.blockNo + securityParameter = block.blockNo).map
      fun stable => (block, stable)
  ((joined.insertionSort fun p q => q.1.blockNo ≤ p.1.blockNo).head?).map
    fun p => p.2.epochNo - 1

lemma exists_of_getLatestStableEpoch {Contents : Type} {blocks : List (Block Contents)}
    {securityParameter epoch : ℕ}
    (h : getLatestStableEpoch blocks securityParameter = some epoch) :
    ∃ block ∈ blocks, ∃ stable ∈ blocks, stable.blockNo + securityParameter = block.blockNo ∧
      epoch = stable.epochNo - 1 := by
  obtain ⟨⟨block, stable⟩, hhead, rfl⟩ := Option.map_eq_some_iff.1 h
  have hmem := List.mem_of_mem_head? hhead
  rw [List.mem_insertionSort] at hmem
  obtain ⟨block', hblock, hjoin⟩ := List.mem_flatMap.1 hmem
  obtain ⟨stable', hstable, heq⟩ := List.mem_map.1 hjoin
  obtain ⟨rfl, rfl⟩ := Prod.mk.inj heq
  obtain ⟨hstable, hno⟩ := List.mem_filter.1 hstable
  exact ⟨block', hblock, stable', hstable, by simpa using hno, rfl⟩

/-! ### The inner data source -/

/-- The inner data source.  What it answers for a data epoch depends on the blocks up to it. -/
structure DataSource where
  /-- What a block holds. -/
  Contents : Type
  MainchainAddress : Type
  PolicyId : Type
  [decPolicyId : DecidableEq PolicyId]
  /-- `Vec<CandidateRegistrations>`. -/
  Candidates : Type
  AriadneParameters : Type
  Error : Type
  /-- `to_string` of an address. -/
  addressToString : MainchainAddress → String
  /-- `data_epoch`. -/
  dataEpoch : ℕ → Except Error ℕ
  /-- The candidates for a data epoch, at an address. -/
  candidates : ℕ → String → List (Block Contents) → Except Error Candidates
  /-- The Ariadne parameters for a data epoch, by the policy of permissioned candidates. -/
  ariadneParameters : ℕ → PolicyId → List (Block Contents) → Except Error AriadneParameters

attribute [instance] DataSource.decPolicyId

variable (D : DataSource)

/-- The calls that are cached. -/
inductive Request
  | getAriadneParameters (epoch : ℕ) (dParameterPolicy permissionedCandidatesPolicy : D.PolicyId)
  | getCandidates (epoch : ℕ) (committeeCandidateAddress : D.MainchainAddress)

/-- What they return. -/
inductive Answer
  | ariadneParameters (parameters : D.AriadneParameters)
  | candidates (candidates : D.Candidates)

/-- `AriadneParametersCacheKey` and `CandidatesCacheKey`. -/
inductive CacheKey
  | ariadneParameters (epoch : ℕ) (dParameterPolicy permissionedCandidatesPolicy : D.PolicyId)
  | candidates (epoch : ℕ) (address : String)
deriving DecidableEq

variable {D}

namespace Request

/-- The epoch a request is for. -/
def epoch : Request D → ℕ
  | getAriadneParameters epoch _ _ => epoch
  | getCandidates epoch _ => epoch

/-- Where its answer is cached. -/
def key : Request D → CacheKey D
  | getAriadneParameters epoch dParameterPolicy permissionedCandidatesPolicy =>
    .ariadneParameters epoch dParameterPolicy permissionedCandidatesPolicy
  | getCandidates epoch address => .candidates epoch (D.addressToString address)

end Request

/-- What the inner data source answers for a data epoch, given the blocks up to it. -/
def query (dataEpoch : ℕ) (blocks : List (Block D.Contents)) :
    CacheKey D → Except D.Error (Answer D)
  | .ariadneParameters _ _ permissionedCandidatesPolicy =>
    (D.ariadneParameters dataEpoch permissionedCandidatesPolicy blocks).map .ariadneParameters
  | .candidates _ address => (D.candidates dataEpoch address blocks).map .candidates

/-- `get_ariadne_parameters` and `get_candidates` of the inner data source. -/
def inner (blocks : List (Block D.Contents)) (request : Request D) :
    Except D.Error (Answer D) := do
  let dataEpoch ← D.dataEpoch request.epoch
  query dataEpoch (upTo Block.epochNo dataEpoch blocks) request.key

/-! ### Requests, step by step -/

/-- What all requests share: the view, `highest_seen_stable_epoch` and both caches. -/
structure Shared (D : DataSource) where
  view : View D.Contents
  highestSeenStableEpoch : Option ℕ
  cache : CacheKey D → Option (Answer D)

/-- Where a request is.  Each phase but the last two is followed by one access to what is
shared. -/
inductive Phase (D : DataSource)
  /-- `can_use_caching_for_request` is called. -/
  | start
  /-- Before `highest_seen_stable_epoch` is locked and read. -/
  | readSeen (dataEpoch : ℕ)
  /-- Before `get_latest_stable_epoch`. -/
  | queryStable (dataEpoch : ℕ)
  /-- Before `highest_seen_stable_epoch` is locked and written. -/
  | writeSeen (dataEpoch stableEpoch : ℕ)
  /-- Caching can be used: before the cache is locked and read. -/
  | lookup
  /-- The cache has no entry: before the inner data source is asked. -/
  | queryToCache
  /-- Before the cache is locked and the response put into it. -/
  | put (response : Answer D)
  /-- Caching cannot be used: before the inner data source is asked. -/
  | queryOnly
  /-- The request has returned. -/
  | done (answer : Except D.Error (Answer D))
  /-- A query to the database failed. -/
  | failed

/-- The request has returned. -/
def Phase.isOver : Phase D → Bool
  | done _ => true
  | failed => true
  | _ => false

/-- What a step meets: whether a lock can be taken, and whether a query to the database
succeeds. -/
structure Circumstances where
  locked : Bool
  connected : Bool

/-- A step of a request. -/
def advance (securityParameter : ℕ) (c : Circumstances) (shared : Shared D) (request : Request D) :
    Phase D → Shared D × Phase D
  | .start =>
    match D.dataEpoch request.epoch with
    | .error e => (shared, .done (.error e))
    | .ok dataEpoch => (shared, .readSeen dataEpoch)
  | .readSeen dataEpoch =>
    if c.locked && shared.highestSeenStableEpoch.any (fun stableEpoch => stableEpoch ≥ dataEpoch)
    then (shared, .lookup)
    else (shared, .queryStable dataEpoch)
  | .queryStable dataEpoch =>
    if c.connected then
      match getLatestStableEpoch shared.view.blocks securityParameter with
      | some stableEpoch => (shared, .writeSeen dataEpoch stableEpoch)
      | none => (shared, .queryOnly)
    else (shared, .failed)
  | .writeSeen dataEpoch stableEpoch =>
    (if c.locked then { shared with highestSeenStableEpoch := some stableEpoch } else shared,
      if dataEpoch ≤ stableEpoch then .lookup else .queryOnly)
  | .lookup =>
    match if c.locked then shared.cache request.key else none with
    | some response => (shared, .done (.ok response))
    | none => (shared, .queryToCache)
  | .queryToCache =>
    if c.connected then
      match inner shared.view.blocks request with
      | .ok response => (shared, .put response)
      | .error e => (shared, .done (.error e))
    else (shared, .failed)
  | .put response =>
    (if c.locked then
        { shared with cache := Function.update shared.cache request.key (some response) }
      else shared,
      .done (.ok response))
  | .queryOnly =>
    if c.connected then (shared, .done (inner shared.view.blocks request)) else (shared, .failed)
  | .done answer => (shared, .done answer)
  | .failed => (shared, .failed)

/-! ### The system -/

/-- A request, with the views that the database had since it was made. -/
structure RequestState (D : DataSource) where
  request : Request D
  phase : Phase D
  views : List (View D.Contents)

/-- A request in progress meets a new view. -/
def RequestState.observe (q : RequestState D) (view : View D.Contents) : RequestState D :=
  if q.phase.isOver then q else { q with views := view :: q.views }

/-- The shared state, the highest tip that was ever seen, and the requests that were made. -/
structure System (D : DataSource) where
  shared : Shared D
  highestTip : ℕ
  requests : ℕ → Option (RequestState D)

/-- What can happen. -/
inductive Event (D : DataSource)
  | issue (id : ℕ) (request : Request D)
  | progress (id : ℕ) (c : Circumstances)
  | change (view : View D.Contents)
  | evict (evicted : CacheKey D → Bool)

/-- When it can. -/
def Enabled (securityParameter : ℕ) (sys : System D) : Event D → Prop
  | .issue id _ => sys.requests id = none
  | .progress _ _ => True
  | .change view =>
    Change Block.blockNo securityParameter sys.highestTip sys.shared.view.blocks view.blocks
  | .evict _ => True

/-- And what it leads to. -/
def next (securityParameter : ℕ) (sys : System D) : Event D → System D
  | .issue id request =>
    { sys with
      requests := Function.update sys.requests id (some ⟨request, .start, [sys.shared.view]⟩) }
  | .progress id c =>
    match sys.requests id with
    | none => sys
    | some q =>
      let (shared, phase) := advance securityParameter c sys.shared q.request q.phase
      { sys with
        shared := shared
        requests := Function.update sys.requests id (some { q with phase := phase }) }
  | .change view =>
    { shared := { sys.shared with view := view }
      highestTip := max sys.highestTip (tip Block.blockNo view.blocks)
      requests := fun id => (sys.requests id).map (·.observe view) }
  | .evict evicted =>
    { sys with
      shared := { sys.shared with
        cache := fun key => if evicted key then none else sys.shared.cache key } }

/-- A run of the system. -/
def Run (securityParameter : ℕ) : System D → List (Event D) → System D → Prop
  | sys, [], sys' => sys = sys'
  | sys, event :: events, sys' =>
    Enabled securityParameter sys event ∧
      Run securityParameter (next securityParameter sys event) events sys'

/-- `CandidateDataSourceCached::new`. -/
def initial (view : View D.Contents) : System D where
  shared := ⟨view, none, fun _ => none⟩
  highestTip := tip Block.blockNo view.blocks
  requests := fun _ => none

/-! ### What is known of a settled epoch -/

section Invariant

variable {k highestTip : ℕ} {view view' : View D.Contents} {request : Request D}

/-- The epoch in the key of a cache. -/
def CacheKey.epoch : CacheKey D → ℕ
  | ariadneParameters epoch _ _ => epoch
  | candidates epoch _ => epoch

lemma Request.epoch_key (request : Request D) : request.key.epoch = request.epoch := by
  cases request <;> rfl

/-- No change can touch the blocks up to an epoch. -/
def SettledIn (k highestTip : ℕ) (view : View D.Contents) (epoch : ℕ) : Prop :=
  Settled Block.blockNo Block.epochNo k highestTip view.blocks epoch

/-- The answer for a key is that of the inner data source, and will remain so. -/
def Fresh (k highestTip : ℕ) (view : View D.Contents) (key : CacheKey D) (answer : Answer D) :
    Prop :=
  ∃ dataEpoch, D.dataEpoch key.epoch = .ok dataEpoch ∧ SettledIn k highestTip view dataEpoch ∧
    query dataEpoch (upTo Block.epochNo dataEpoch view.blocks) key = .ok answer

/-- The latest stable epoch is settled, since the stable block is of the epoch after it. -/
lemma settledIn_of_getLatestStableEpoch (htip : tip Block.blockNo view.blocks ≤ highestTip)
    {epoch : ℕ} (h : getLatestStableEpoch view.blocks k = some epoch) :
    SettledIn k highestTip view epoch := by
  obtain ⟨block, hblock, stable, hstable, hno, rfl⟩ := exists_of_getLatestStableEpoch h
  have hle := number_le_tip view.consecutive hblock
  have hpos := view.epoch_pos stable hstable
  refine ⟨stable, hstable, ?_, ?_⟩ <;> omega

lemma SettledIn.change {epoch highestTip' : ℕ} (h : SettledIn k highestTip view epoch)
    (hchange : Change Block.blockNo k highestTip view.blocks view'.blocks)
    (hle : highestTip ≤ highestTip') : SettledIn k highestTip' view' epoch :=
  Settled.change h hchange hle

lemma Fresh.change {highestTip' : ℕ} {key : CacheKey D} {answer : Answer D}
    (h : Fresh k highestTip view key answer)
    (hchange : Change Block.blockNo k highestTip view.blocks view'.blocks)
    (hle : highestTip ≤ highestTip') : Fresh k highestTip' view' key answer := by
  obtain ⟨dataEpoch, hepoch, hsettled, hquery⟩ := h
  refine ⟨dataEpoch, hepoch, hsettled.change hchange hle, ?_⟩
  rw [hsettled.upTo_eq hchange view.epochs_mono view'.epochs_mono]
  exact hquery

lemma Fresh.inner_eq {answer : Answer D} (h : Fresh k highestTip view request.key answer) :
    inner view.blocks request = .ok answer := by
  obtain ⟨dataEpoch, hepoch, -, hquery⟩ := h
  rw [request.epoch_key] at hepoch
  rw [inner, hepoch]
  exact hquery

/-- An answer of the inner data source for a settled epoch. -/
lemma fresh_of_inner {answer : Answer D} {dataEpoch : ℕ}
    (hepoch : D.dataEpoch request.epoch = .ok dataEpoch)
    (hsettled : SettledIn k highestTip view dataEpoch)
    (h : inner view.blocks request = .ok answer) :
    Fresh k highestTip view request.key answer := by
  rw [inner, hepoch] at h
  exact ⟨dataEpoch, request.epoch_key ▸ hepoch, hsettled, h⟩

/-! ### The invariant -/

/-- Of what is shared: the epoch seen is settled, and what is cached is fresh. -/
structure SharedInv (k highestTip : ℕ) (shared : Shared D) : Prop where
  tip_le : tip Block.blockNo shared.view.blocks ≤ highestTip
  seen : ∀ epoch, shared.highestSeenStableEpoch = some epoch →
    SettledIn k highestTip shared.view epoch
  cached : ∀ key answer, shared.cache key = some answer →
    Fresh k highestTip shared.view key answer

/-- Of a request, by its phase.  Once it can use the caches its data epoch is settled. -/
def PhaseInv (k highestTip : ℕ) (view : View D.Contents) (request : Request D)
    (views : List (View D.Contents)) : Phase D → Prop
  | .start => True
  | .readSeen dataEpoch => D.dataEpoch request.epoch = .ok dataEpoch
  | .queryStable dataEpoch => D.dataEpoch request.epoch = .ok dataEpoch
  | .writeSeen dataEpoch stableEpoch =>
    D.dataEpoch request.epoch = .ok dataEpoch ∧ SettledIn k highestTip view stableEpoch
  | .lookup =>
    ∃ dataEpoch, D.dataEpoch request.epoch = .ok dataEpoch ∧ SettledIn k highestTip view dataEpoch
  | .queryToCache =>
    ∃ dataEpoch, D.dataEpoch request.epoch = .ok dataEpoch ∧ SettledIn k highestTip view dataEpoch
  | .put response => Fresh k highestTip view request.key response
  | .queryOnly => True
  | .done answer => ∃ v ∈ views, answer = inner v.blocks request
  | .failed => True

lemma PhaseInv.change {highestTip' : ℕ} {views : List (View D.Contents)} {phase : Phase D}
    (h : PhaseInv k highestTip view request views phase)
    (hchange : Change Block.blockNo k highestTip view.blocks view'.blocks)
    (hle : highestTip ≤ highestTip') : PhaseInv k highestTip' view' request views phase := by
  cases phase with
  | start => trivial
  | readSeen dataEpoch => exact h
  | queryStable dataEpoch => exact h
  | writeSeen dataEpoch stableEpoch => exact ⟨h.1, h.2.change hchange hle⟩
  | lookup =>
    obtain ⟨dataEpoch, hepoch, hsettled⟩ := h
    exact ⟨dataEpoch, hepoch, hsettled.change hchange hle⟩
  | queryToCache =>
    obtain ⟨dataEpoch, hepoch, hsettled⟩ := h
    exact ⟨dataEpoch, hepoch, hsettled.change hchange hle⟩
  | put response => exact Fresh.change h hchange hle
  | queryOnly => trivial
  | done answer => exact h
  | failed => trivial

lemma PhaseInv.cons {views : List (View D.Contents)} {phase : Phase D}
    (h : PhaseInv k highestTip view request views phase) (hover : phase.isOver = false) :
    PhaseInv k highestTip view request (view' :: views) phase := by
  cases phase with
  | done answer => exact absurd hover (by simp [Phase.isOver])
  | _ => exact h

/-- Of a request: the views it has seen include the present one until it returns. -/
structure RequestInv (k highestTip : ℕ) (view : View D.Contents) (q : RequestState D) : Prop where
  present : q.phase.isOver = false → view ∈ q.views
  phase : PhaseInv k highestTip view q.request q.views q.phase

/-- Of the system. -/
structure Inv (k : ℕ) (sys : System D) : Prop where
  shared : SharedInv k sys.highestTip sys.shared
  requests : ∀ id q, sys.requests id = some q → RequestInv k sys.highestTip sys.shared.view q

/-! ### A step of a request -/

variable {c : Circumstances} {shared : Shared D} {views : List (View D.Contents)}
  {phase : Phase D}

/-- What a step of a request leads to. -/
structure Advanced (k highestTip : ℕ) (shared : Shared D) (request : Request D)
    (views : List (View D.Contents)) (result : Shared D × Phase D) : Prop where
  view_eq : result.1.view = shared.view
  sharedInv : SharedInv k highestTip result.1
  phaseInv : PhaseInv k highestTip shared.view request views result.2

/-- A step that changes nothing that is shared. -/
lemma Advanced.of_phase (h : SharedInv k highestTip shared)
    (hphase : PhaseInv k highestTip shared.view request views phase) :
    Advanced k highestTip shared request views (shared, phase) :=
  ⟨rfl, h, hphase⟩

lemma SharedInv.seen_set (h : SharedInv k highestTip shared) {epoch : ℕ}
    (hsettled : SettledIn k highestTip shared.view epoch) :
    SharedInv k highestTip { shared with highestSeenStableEpoch := some epoch } where
  tip_le := h.tip_le
  seen := by
    intro epoch' hepoch
    obtain rfl := Option.some.inj hepoch
    exact hsettled
  cached := h.cached

lemma SharedInv.cache_put (h : SharedInv k highestTip shared) {key : CacheKey D}
    {answer : Answer D} (hfresh : Fresh k highestTip shared.view key answer) :
    SharedInv k highestTip
      { shared with cache := Function.update shared.cache key (some answer) } where
  tip_le := h.tip_le
  seen := h.seen
  cached := by
    refine (Function.forall_update_iff shared.cache fun key entry => ∀ answer,
      entry = some answer → Fresh k highestTip shared.view key answer).2 ⟨?_, ?_⟩
    · rintro _ ⟨⟩
      exact hfresh
    · exact fun key' _ => h.cached key'

/-- A step of a request keeps the invariant. -/
lemma advance_inv (h : SharedInv k highestTip shared)
    (hphase : PhaseInv k highestTip shared.view request views phase)
    (hpresent : phase.isOver = false → shared.view ∈ views) :
    Advanced k highestTip shared request views (advance k c shared request phase) := by
  -- Whatever the inner data source answers now is an answer during the request.
  have hinner : phase.isOver = false → ∀ answer, answer = inner shared.view.blocks request →
      PhaseInv k highestTip shared.view request views (.done answer) :=
    fun hover answer hanswer => ⟨shared.view, hpresent hover, hanswer⟩
  cases phase with
  | start =>
    simp only [advance]
    split
    · rename_i e he
      refine .of_phase h (hinner rfl _ ?_)
      rw [inner, he]
      rfl
    · rename_i dataEpoch hepoch
      exact .of_phase h hepoch
  | readSeen dataEpoch =>
    simp only [advance]
    split
    · rename_i hseen
      obtain ⟨-, hseen⟩ := Bool.and_eq_true_iff.1 hseen
      obtain ⟨stableEpoch, hstable, hle⟩ := (Option.any_eq_true _ _).1 hseen
      exact .of_phase h ⟨dataEpoch, hphase, (h.seen _ hstable).mono (by simpa using hle)⟩
    · exact .of_phase h hphase
  | queryStable dataEpoch =>
    simp only [advance]
    split
    · split
      · rename_i stableEpoch hstable
        exact .of_phase h ⟨hphase, settledIn_of_getLatestStableEpoch h.tip_le hstable⟩
      · exact .of_phase h trivial
    · exact .of_phase h trivial
  | writeSeen dataEpoch stableEpoch =>
    obtain ⟨hepoch, hsettled⟩ := hphase
    have hnext : PhaseInv k highestTip shared.view request views
        (if dataEpoch ≤ stableEpoch then .lookup else .queryOnly) := by
      split
      · rename_i hle
        exact ⟨dataEpoch, hepoch, hsettled.mono hle⟩
      · trivial
    simp only [advance]
    split
    · exact ⟨rfl, h.seen_set hsettled, hnext⟩
    · exact .of_phase h hnext
  | lookup =>
    simp only [advance]
    split
    · rename_i response hhit
      have hcached : shared.cache request.key = some response := by
        split at hhit
        · exact hhit
        · exact absurd hhit (by simp)
      exact .of_phase h (hinner rfl _ (h.cached _ _ hcached).inner_eq.symm)
    · exact .of_phase h hphase
  | queryToCache =>
    obtain ⟨dataEpoch, hepoch, hsettled⟩ := hphase
    simp only [advance]
    split
    · split
      · rename_i response hresponse
        exact .of_phase h (fresh_of_inner hepoch hsettled hresponse)
      · rename_i e he
        exact .of_phase h (hinner rfl _ he.symm)
    · exact .of_phase h trivial
  | put response =>
    have hfresh : Fresh k highestTip shared.view request.key response := hphase
    have hnext := hinner rfl _ hfresh.inner_eq.symm
    simp only [advance]
    split
    · exact ⟨rfl, h.cache_put hfresh, hnext⟩
    · exact .of_phase h hnext
  | queryOnly =>
    simp only [advance]
    split
    · exact .of_phase h (hinner rfl _ rfl)
    · exact .of_phase h trivial
  | done answer => exact .of_phase h hphase
  | failed => exact .of_phase h trivial

/-- A request that has returned stays as it is. -/
lemma isOver_advance (hover : phase.isOver = true) : advance k c shared request phase =
    (shared, phase) := by
  cases phase with
  | done answer => rfl
  | failed => rfl
  | _ => exact absurd hover (by simp [Phase.isOver])

/-! ### An event of the system -/

variable {sys sys' : System D}

lemma inv_initial (view : View D.Contents) : Inv k (initial view) where
  shared := ⟨le_rfl, fun _ h => absurd h (by simp [initial]),
    fun _ _ h => absurd h (by simp [initial])⟩
  requests := fun _ _ h => absurd h (by simp [initial])

/-- A request that is made or goes on, beside the others. -/
lemma Inv.update (h : Inv k sys) {after : Shared D} (hview : after.view = sys.shared.view)
    (hafter : SharedInv k sys.highestTip after) {id : ℕ} {q : RequestState D}
    (hq : RequestInv k sys.highestTip sys.shared.view q) :
    Inv k ⟨after, sys.highestTip, Function.update sys.requests id (some q)⟩ := by
  refine ⟨hafter, ?_⟩
  dsimp only
  rw [hview]
  refine (Function.forall_update_iff sys.requests fun _ entry => ∀ q,
    entry = some q → RequestInv k sys.highestTip sys.shared.view q).2 ⟨?_, ?_⟩
  · rintro _ ⟨⟩
    exact hq
  · exact fun id' _ => h.requests id'

/-- A request in progress meets a new view. -/
lemma RequestInv.observe {q : RequestState D} (h : RequestInv k highestTip view q)
    (hchange : Change Block.blockNo k highestTip view.blocks view'.blocks) {highestTip' : ℕ}
    (hle : highestTip ≤ highestTip') : RequestInv k highestTip' view' (q.observe view') := by
  have hphase := h.phase.change hchange hle
  rw [RequestState.observe]
  cases hover : q.phase.isOver with
  | true => exact ⟨fun hnot => absurd (hover.symm.trans hnot) (by simp), hphase⟩
  | false => exact ⟨fun _ => List.mem_cons_self, hphase.cons hover⟩

/-- A request goes on by one step. -/
lemma RequestInv.advance {q : RequestState D} (h : SharedInv k highestTip shared)
    (hq : RequestInv k highestTip shared.view q) :
    RequestInv k highestTip shared.view
      { q with phase := (Cached.advance k c shared q.request q.phase).2 } := by
  refine ⟨fun hover => hq.present ?_, (advance_inv h hq.phase hq.present).phaseInv⟩
  -- A request that goes on was not over before.
  cases hbefore : q.phase.isOver with
  | false => rfl
  | true =>
    dsimp only at hover
    rw [isOver_advance hbefore] at hover
    exact absurd (hbefore.symm.trans hover) (by simp)

/-- An event keeps the invariant. -/
lemma Inv.next (h : Inv k sys) {event : Event D} (henabled : Enabled k sys event) :
    Inv k (next k sys event) := by
  cases event with
  | issue id request =>
    exact h.update rfl h.shared ⟨fun _ => List.mem_singleton_self _, trivial⟩
  | progress id c =>
    simp only [Cached.next]
    split
    · exact h
    · rename_i q hq
      have hrequest := h.requests id q hq
      obtain ⟨hview, hshared, -⟩ := advance_inv (c := c) h.shared hrequest.phase hrequest.present
      exact h.update hview hshared (hrequest.advance h.shared)
  | change view =>
    have hle : sys.highestTip ≤ max sys.highestTip (tip Block.blockNo view.blocks) :=
      le_max_left _ _
    refine ⟨⟨le_max_right _ _, fun epoch hepoch => ?_, fun key answer hcached => ?_⟩,
      fun id q hq => ?_⟩
    · exact (h.shared.seen epoch hepoch).change henabled hle
    · exact (h.shared.cached key answer hcached).change henabled hle
    · obtain ⟨q₀, hq₀, rfl⟩ := Option.map_eq_some_iff.1 hq
      exact (h.requests id q₀ hq₀).observe henabled hle
  | evict evicted =>
    refine ⟨⟨h.shared.tip_le, h.shared.seen, fun key answer hcached => ?_⟩, h.requests⟩
    simp only [Cached.next] at hcached
    split at hcached
    · exact absurd hcached (by simp)
    · exact h.shared.cached key answer hcached

/-- A run keeps the invariant. -/
lemma Inv.run (h : Inv k sys) {events : List (Event D)} (hrun : Run k sys events sys') :
    Inv k sys' := by
  induction events generalizing sys with
  | nil => exact hrun ▸ h
  | cons event events ih => exact ih (h.next hrun.1) hrun.2

end Invariant

/-- **Cached candidates**: in every run, of any requests, with any changes of the view that leave
buried blocks alone and with any evictions, each answer is the one that the inner data source
gives on the view at some moment during the request. -/
theorem cached_answer_is_inner (D : DataSource) (securityParameter : ℕ) (view : View D.Contents)
    (events : List (Event D)) (sys : System D)
    (hrun : Run securityParameter (initial view) events sys) (id : ℕ) (q : RequestState D)
    (hq : sys.requests id = some q) (answer : Except D.Error (Answer D))
    (hdone : q.phase = .done answer) :
    ∃ v ∈ q.views, answer = inner v.blocks q.request := by
  have hinv := ((inv_initial view).run hrun).requests id q hq
  have hphase := hinv.phase
  rw [hdone] at hphase
  exact hphase

/-! ### A rollback between two requests -/

/-- A data source that counts blocks. -/
def countingSource : DataSource where
  Contents := Unit
  MainchainAddress := String
  PolicyId := ℕ
  Candidates := ℕ
  AriadneParameters := ℕ
  Error := String
  addressToString address := address
  dataEpoch epoch := if epoch < 2 then .error "Minimum supported epoch" else .ok (epoch - 2)
  candidates _ _ blocks := .ok blocks.length
  ariadneParameters _ _ blocks := .ok blocks.length

/-- Two blocks of epoch 1 and then `n` of epoch 2. -/
def twoEpochs (n : ℕ) (h : n ≤ 3) : View Unit where
  blocks := [⟨1, 1, ()⟩, ⟨2, 1, ()⟩] ++ [⟨3, 2, ()⟩, ⟨4, 2, ()⟩, ⟨5, 2, ()⟩].take n
  consecutive := by
    interval_cases n <;> simp
  epochs_mono := by
    interval_cases n <;> simp
  epoch_pos := by
    interval_cases n <;> simp

/-- A request for epoch 3, whose data epoch is 1. -/
def epochThree : Request countingSource := .getCandidates 3 "addr1"

/-- The request is answered and its answer cached; then the last two blocks are rolled back, and
the request is made again and served from the cache. -/
def rollbackBetween : List (Event countingSource) :=
  .issue 0 epochThree :: List.replicate 7 (.progress 0 ⟨true, true⟩) ++
    [.change (twoEpochs 1 (by decide)), .issue 1 epochThree] ++
    List.replicate 3 (.progress 1 ⟨true, true⟩)

theorem cached_answer_after_rollback :
    ∃ sys q, Run 2 (initial (D := countingSource) (twoEpochs 3 (by decide))) rollbackBetween sys ∧
      sys.requests 1 = some q ∧ q.phase = .done (.ok (.candidates (2 : ℕ))) ∧
      ∃ v ∈ q.views, .ok (.candidates (2 : ℕ)) = inner v.blocks q.request := by
  have hchange : Change Block.blockNo 2 5 (twoEpochs 3 (by decide)).blocks
      (twoEpochs 1 (by decide)).blocks :=
    .rollback 3 (by simp [twoEpochs])
  have hrun : ∃ sys, Run 2 (initial (D := countingSource) (twoEpochs 3 (by decide)))
      rollbackBetween sys ∧ sys.requests 1 = some ⟨epochThree, .done (.ok (.candidates (2 : ℕ))),
        [twoEpochs 1 (by decide)]⟩ :=
    ⟨_, ⟨rfl, trivial, trivial, trivial, trivial, trivial, trivial, trivial, hchange, rfl, trivial,
      trivial, trivial, rfl⟩, rfl⟩
  obtain ⟨sys, hrun, hq⟩ := hrun
  exact ⟨sys, _, hrun, hq, rfl,
    cached_answer_is_inner countingSource 2 _ rollbackBetween sys hrun 1 _ hq _ rfl⟩

end MidnightNode.Authority.Cached
