/-
# The parallel fetcher

`fetch_from_rpc` fetches blocks in jobs that go through the hands of several workers: a fetch
worker asks the node for the blocks of a job that are not in storage yet, a compute worker
extracts their data and stores them, and a compute worker checks that the blocks of the job are
linked by their hashes.  The main task receives the jobs that passed, checks the boundaries
between them once it has all of them, sets the highest verified height and returns the blocks
from storage.

A state of the system says where each job is.  The steps of different jobs are interleaved in
every way, and any number of jobs may be under way at once, so that runs with any number of fetch
and compute workers and any capacity of the channels between them are among the runs here.  The
node answers anything, and a task may fail at any time.
-/
import MidnightNode.Toolkit.FetchPlan
import Mathlib.Data.List.Nodup
import Mathlib.Data.List.Perm.Subperm
import Mathlib.Logic.Function.Basic

namespace MidnightNode.Toolkit

open Chunks Traverse

/-! ### Blocks and storage -/

/-- What is stored of a block.  `Data` is what the fetcher does not look at. -/
structure RawBlockData (Hash Data : Type) where
  hash : Hash
  parentHash : Hash
  number : ℕ
  tblockSecs : ℕ
  lastBlockTimeSecs : ℕ
  data : Data
deriving DecidableEq

/-- Why fetching fails. -/
inductive FetchError
  /-- The client, or a request to the node. -/
  | nodeError
  | blockHashMissing (height : ℕ)
  | blockMissing (height : ℕ)
  | childBlockVerificationFailed (number : ℕ)
  /-- The data of a block cannot be extracted. -/
  | extractError
  | workerPanic
  | noWorkersConnected
deriving DecidableEq, Repr

/-- The chain that is fetched. -/
structure FetchHost where
  Hash : Type
  hashDecEq : DecidableEq Hash
  zeroHash : Hash
  Data : Type
  /-- A block as the node answers it. -/
  FetchedBlock : Type
  number : FetchedBlock → ℕ
  /-- `extract_data`. -/
  extractData : FetchedBlock → Except FetchError (RawBlockData Hash Data)

instance (K : FetchHost) : DecidableEq K.Hash := K.hashDecEq

/-- A stored block. -/
abbrev FetchHost.Block (K : FetchHost) : Type := RawBlockData K.Hash K.Data

/-- The storage, for one chain. -/
structure FetchStorage (K : FetchHost) where
  blocks : ℕ → Option K.Block
  highestVerified : Option ℕ

variable {K : FetchHost}

namespace FetchStorage

/-- Store a block at a height. -/
def insertBlockData (s : FetchStorage K) (height : ℕ) (block : K.Block) : FetchStorage K :=
  { s with blocks := Function.update s.blocks height (some block) }

/-- The heights of a job, `min..max`. -/
def heights (job : ℕ × ℕ) : List ℕ := List.range' job.1 (job.2 - job.1)

/-- The heights of a job that have to be fetched. -/
def missing (s : FetchStorage K) (job : ℕ × ℕ) : List ℕ :=
  (heights job).filter fun i => (s.blocks i).isNone

/-- The block at a height, which has to be there. -/
def getBlock (s : FetchStorage K) (height : ℕ) : Except FetchError K.Block :=
  match s.blocks height with
  | some block => .ok block
  | none => .error (.blockMissing height)

/-- `ComputeTask::Verify`: the blocks of a job are there, and linked. -/
def verify (s : FetchStorage K) (job : ℕ × ℕ) : Except FetchError Unit := do
  let blocks ← (heights job).mapM s.getBlock
  match (blocks.zip (blocks.drop 1)).find? fun pair => pair.1.hash ≠ pair.2.parentHash with
  | some (_, child) => .error (.childBlockVerificationFailed child.number)
  | none => .ok ()

/-- The first block has no parent. -/
def verifyGenesis (s : FetchStorage K) : Except FetchError Unit := do
  let block ← s.getBlock 0
  if block.parentHash ≠ K.zeroHash then .error (.childBlockVerificationFailed 0) else .ok ()

/-- The block before a height and the one at it are linked, if both are there. -/
def verifyBoundary (s : FetchStorage K) (max : ℕ) : Except FetchError Unit :=
  match s.blocks (max - 1), s.blocks max with
  | some parent, some child =>
      if child.parentHash ≠ parent.hash then
        .error (.childBlockVerificationFailed child.number)
      else .ok ()
  | _, _ => .ok ()

/-- `ComputeTask::FinalVerify`. -/
def finalVerify (s : FetchStorage K) (job : ℕ × ℕ) : Except FetchError Unit :=
  (if job.1 = 0 then s.verifyGenesis else .ok ()) >>= fun _ => s.verifyBoundary job.2

end FetchStorage

/-- `ComputeTask::ExtractBlockData`, up to storing: what is stored at which height. -/
def extractBlockData (blocks : List K.FetchedBlock) : Except FetchError (List (ℕ × K.Block)) :=
  blocks.mapM fun b => do
    let blockData ← K.extractData b
    pure (K.number b, blockData)

/-- The loop that sets `last_block_time_secs` of all blocks after `previous`. -/
def setLastBlockTimesAfter (previous : K.Block) : List K.Block → List K.Block
  | [] => []
  | block :: blocks =>
      { block with lastBlockTimeSecs := previous.tblockSecs } ::
        setLastBlockTimesAfter block blocks

/-- The same from the second block on. -/
def setLastBlockTimes : List K.Block → List K.Block
  | [] => []
  | block :: blocks => block :: setLastBlockTimesAfter block blocks

/-- `read_blocks_from_cache`; a missing block is a panic. -/
def readBlocksFromCache (s : FetchStorage K) : Except FetchError (List K.Block) :=
  let maxHeight := s.highestVerified.getD 0
  ((List.range (maxHeight + 1)).mapM s.getBlock).map setLastBlockTimes

/-! ### Jobs -/

/-- Where a job is. -/
inductive JobPhase (K : FetchHost)
  /-- It is not pushed yet, or no worker has received it. -/
  | queued
  /-- The heights that a fetch worker still has to ask for, and the blocks it has. -/
  | fetching (todo : List ℕ) (blocks : List K.FetchedBlock)
  /-- The blocks that are still to be stored. -/
  | inserting (pending : List (ℕ × K.Block))
  /-- A final job in the channel to the main task. -/
  | finalVerify
  /-- The main task has the final job. -/
  | received
  /-- The task that had the job ended with an error or a panic. -/
  | failed (e : FetchError)

/-- What happens to a job. -/
inductive JobEvent (K : FetchHost)
  /-- A fetch worker receives the job and looks which blocks are stored. -/
  | look
  /-- The node answers the request for a block. -/
  | answer (r : Except FetchError K.FetchedBlock)
  | extract
  /-- One of the blocks is stored; storages do it all at once or one by one in any order. -/
  | insert (n : ℕ)
  | verify
  | crash (e : FetchError)

/-- A step of a job. -/
def jobStep (storage : FetchStorage K) (job : ℕ × ℕ) :
    JobEvent K → JobPhase K → FetchStorage K × JobPhase K
  -- `FetchTask::fetch`: the stored blocks are read at once, the others asked for one by one
  | .look, .queued => (storage, .fetching (storage.missing job) [])
  | .answer (.ok block), .fetching (_ :: todo) blocks =>
      (storage, .fetching todo (blocks ++ [block]))
  | .answer (.error e), .fetching (_ :: _) _ => (storage, .failed e)
  -- `ComputeTask::work`, twice: what cannot be extracted or verified ends the worker's task
  | .extract, .fetching [] blocks =>
      match extractBlockData blocks with
      | .ok pending => (storage, .inserting pending)
      | .error e => (storage, .failed e)
  | .insert n, .inserting pending =>
      match pending[n]? with
      | some (height, block) =>
          (storage.insertBlockData height block, .inserting (pending.eraseIdx n))
      | none => (storage, .inserting pending)
  | .verify, .inserting [] =>
      match storage.verify job with
      | .ok () => (storage, .finalVerify)
      | .error e => (storage, .failed e)
  -- a panic, or a worker that has lost its connection
  | .crash e, .queued => (storage, .failed e)
  | .crash e, .fetching _ _ => (storage, .failed e)
  | .crash e, .inserting _ => (storage, .failed e)
  | _, phase => (storage, phase)

/-! ### The system -/

/-- Where the main task is. -/
inductive MainPhase (K : FetchHost)
  /-- It waits for final jobs and has these. -/
  | receiving (jobs : List (ℕ × ℕ))
  /-- It has all jobs and still has to check these. -/
  | verifying (jobs : List (ℕ × ℕ))
  /-- It has set the highest verified height. -/
  | verified
  | returned (result : Except FetchError (List K.Block))
  | panicked

/-- The storage, where each job is, by its place in the plan, and where the main task is. -/
structure FetchSystem (K : FetchHost) where
  storage : FetchStorage K
  phase : ℕ → JobPhase K
  main : MainPhase K

/-- What happens in the system. -/
inductive FetchEvent (K : FetchHost)
  | job (k : ℕ) (event : JobEvent K)
  /-- The main task receives a final job. -/
  | receive (k : ℕ)
  /-- The main task learns of a task that failed, or that no fetch worker is left. -/
  | fail (e : FetchError)
  /-- The main task checks the next final job. -/
  | finalVerify
  | setHighestVerified
  | readBlocks

/-- `while received < num_jobs`. -/
def FetchPlan.waitFor (plan : FetchPlan) (jobs : List (ℕ × ℕ)) : MainPhase K :=
  if jobs.length < plan.numJobs then .receiving jobs else .verifying jobs

namespace FetchSystem

/-- The jobs are not pushed yet. -/
def start (plan : FetchPlan) (storage : FetchStorage K) : FetchSystem K :=
  ⟨storage, fun _ => .queued, plan.waitFor []⟩

/-- A step of the system. -/
def next (plan : FetchPlan) (finalizedHeight : ℕ) (s : FetchSystem K) :
    FetchEvent K → FetchSystem K
  | .job k event =>
      match plan.jobs[k]? with
      | some job =>
          let r := jobStep s.storage job event (s.phase k)
          { s with storage := r.1, phase := Function.update s.phase k r.2 }
      | none => s
  -- the two branches of the `select!` in the receive loop
  | .receive k =>
      match s.main, s.phase k, plan.jobs[k]? with
      | .receiving jobs, .finalVerify, some job =>
          { s with phase := Function.update s.phase k .received
                   main := plan.waitFor (jobs ++ [job]) }
      | _, _, _ => s
  | .fail e =>
      match s.main with
      | .receiving _ => { s with main := .returned (.error e) }
      | _ => s
  -- `for job in jobs`, with `?` on the result of each
  | .finalVerify =>
      match s.main with
      | .verifying (job :: jobs) =>
          match s.storage.finalVerify job with
          | .ok () => { s with main := .verifying jobs }
          | .error e => { s with main := .returned (.error e) }
      | _ => s
  | .setHighestVerified =>
      match s.main with
      | .verifying [] =>
          { s with storage := { s.storage with highestVerified := some finalizedHeight }
                   main := .verified }
      | _ => s
  | .readBlocks =>
      match s.main with
      | .verified =>
          match readBlocksFromCache s.storage with
          | .ok blocks =>
              -- the numbers for the log are computed before the blocks are returned
              match plan.report finalizedHeight blocks.length with
              | .ok _ => { s with main := .returned (.ok blocks) }
              | .error _ => { s with main := .panicked }
          | .error _ => { s with main := .panicked }
      | _ => s

/-- The state after some events. -/
def run (plan : FetchPlan) (finalizedHeight : ℕ) (s : FetchSystem K)
    (events : List (FetchEvent K)) : FetchSystem K :=
  events.foldl (next plan finalizedHeight) s

/-- The node answers the request for a height with a block of that height, so that blocks are
stored at the heights that are fetched. -/
def AnswersHeight (s : FetchSystem K) : FetchEvent K → Prop
  | .job k (.answer (.ok block)) =>
      ∀ height todo blocks, s.phase k = .fetching (height :: todo) blocks →
        K.number block = height
  | _ => True

end FetchSystem

/-! ### Good storages -/

namespace FetchStorage

/-- There is a block at a height. -/
def Has (s : FetchStorage K) (i : ℕ) : Prop := ∃ block, s.blocks i = some block

/-- What is stored stays stored. -/
def Extends (s s' : FetchStorage K) : Prop :=
  ∀ i block, s.blocks i = some block → s'.blocks i = some block

/-- The block at a height is the parent of the next one. -/
def Linked (s : FetchStorage K) (i : ℕ) : Prop :=
  ∃ parent child, s.blocks i = some parent ∧ s.blocks (i + 1) = some child ∧
    child.parentHash = parent.hash

/-- The blocks up to a height are there and are linked from a zero parent. -/
structure GoodUpTo (s : FetchStorage K) (v : ℕ) : Prop where
  present : ∀ i ≤ v, s.Has i
  genesis : ∃ block, s.blocks 0 = some block ∧ block.parentHash = K.zeroHash
  linked : ∀ i < v, s.Linked i

/-- The blocks up to the highest verified height are. -/
def Good (s : FetchStorage K) : Prop :=
  ∀ v, s.highestVerified = some v → s.GoodUpTo v

/-- The blocks below the highest verified height are there. -/
def HasVerified (s : FetchStorage K) : Prop :=
  ∀ v, s.highestVerified = some v → ∀ i < v, s.Has i

/-- The blocks of a job are there. -/
def HasJob (s : FetchStorage K) (job : ℕ × ℕ) : Prop := ∀ i, job.1 ≤ i → i < job.2 → s.Has i

/-- The blocks of a job are there and linked. -/
structure Verified (s : FetchStorage K) (job : ℕ × ℕ) : Prop where
  present : s.HasJob job
  linked : ∀ i, job.1 ≤ i → i + 1 < job.2 → s.Linked i

/-- The boundaries of a job are checked. -/
structure Checked (s : FetchStorage K) (job : ℕ × ℕ) : Prop where
  genesis : job.1 = 0 → ∃ block, s.blocks 0 = some block ∧ block.parentHash = K.zeroHash
  boundary : ∀ parent child, s.blocks (job.2 - 1) = some parent → s.blocks job.2 = some child →
    child.parentHash = parent.hash

lemma Good.hasVerified {s : FetchStorage K} (h : s.Good) : s.HasVerified :=
  fun v hv i hi => (h v hv).present i hi.le

lemma Extends.refl (s : FetchStorage K) : s.Extends s := fun _ _ h => h

lemma Extends.trans {s s' s'' : FetchStorage K} (h : s.Extends s') (h' : s'.Extends s'') :
    s.Extends s'' := fun i block hi => h' i block (h i block hi)

lemma Linked.extend {s s' : FetchStorage K} {i : ℕ} (h : s.Linked i) (hext : s.Extends s') :
    s'.Linked i := by
  obtain ⟨parent, child, hparent, hchild, hlink⟩ := h
  exact ⟨parent, child, hext _ _ hparent, hext _ _ hchild, hlink⟩

lemma GoodUpTo.extend {s s' : FetchStorage K} {v : ℕ} (h : s.GoodUpTo v)
    (hext : s.Extends s') : s'.GoodUpTo v := by
  refine ⟨fun i hi => ?_, ?_, fun i hi => (h.linked i hi).extend hext⟩
  · obtain ⟨block, hblock⟩ := h.present i hi
    exact ⟨block, hext _ _ hblock⟩
  · obtain ⟨block, hblock, hzero⟩ := h.genesis
    exact ⟨block, hext _ _ hblock, hzero⟩

lemma Verified.extend {s s' : FetchStorage K} {job : ℕ × ℕ} (h : s.Verified job)
    (hext : s.Extends s') : s'.Verified job := by
  refine ⟨fun i hi hi' => ?_, fun i hi hi' => (h.linked i hi hi').extend hext⟩
  obtain ⟨block, hblock⟩ := h.present i hi hi'
  exact ⟨block, hext _ _ hblock⟩

lemma getBlock_eq_ok {s : FetchStorage K} {i : ℕ} {block : K.Block} :
    s.getBlock i = .ok block ↔ s.blocks i = some block := by
  unfold getBlock
  cases s.blocks i <;> simp

/-- What a job that passes its check is. -/
lemma verified_of_verify {s : FetchStorage K} {job : ℕ × ℕ} (h : s.verify job = .ok ()) :
    s.Verified job := by
  obtain ⟨blocks, hblocks, h⟩ := bind_eq_ok.1 h
  have hall := mapM_eq_ok_iff.1 hblocks
  have hget : ∀ i, job.1 ≤ i → i < job.2 →
      ∃ block, blocks[i - job.1]? = some block ∧ s.blocks i = some block := by
    intro i hi hi'
    have hheight : (heights job)[i - job.1]? = some i := by
      rw [heights, List.getElem?_range' (by omega)]
      congr 1
      omega
    obtain ⟨block, hblock, hok⟩ := exists_getElem?_of_forall₂ hall hheight
    exact ⟨block, hblock, getBlock_eq_ok.1 hok⟩
  have hpairs : (blocks.zip (blocks.drop 1)).find?
      (fun pair => pair.1.hash ≠ pair.2.parentHash) = none := by
    cases hfind : (blocks.zip (blocks.drop 1)).find?
        (fun pair => pair.1.hash ≠ pair.2.parentHash) with
    | none => rfl
    | some pair =>
      rw [hfind] at h
      exact absurd h (by simp)
  refine ⟨fun i hi hi' => ?_, fun i hi hi' => ?_⟩
  · obtain ⟨block, -, hblock⟩ := hget i hi hi'
    exact ⟨block, hblock⟩
  · obtain ⟨parent, hparent, hp⟩ := hget i hi (by omega)
    obtain ⟨child, hchild, hc⟩ := hget (i + 1) (by omega) hi'
    have hnext : (blocks.drop 1)[i - job.1]? = some child := by
      rw [List.getElem?_drop, ← hchild]
      congr 1
      omega
    have hmem : (parent, child) ∈ blocks.zip (blocks.drop 1) :=
      List.mem_of_getElem? (List.getElem?_zip_eq_some.2 ⟨hparent, hnext⟩)
    have hlink := List.find?_eq_none.1 hpairs _ hmem
    refine ⟨parent, child, hp, hc, ?_⟩
    by_contra hne
    exact hlink (decide_eq_true (Ne.symm hne))

lemma checked_of_finalVerify {s : FetchStorage K} {job : ℕ × ℕ}
    (h : s.finalVerify job = .ok ()) : s.Checked job := by
  obtain ⟨u, hgenesis, hboundary⟩ := bind_eq_ok.1 h
  refine ⟨fun hzero => ?_, fun parent child hparent hchild => ?_⟩
  · rw [if_pos hzero] at hgenesis
    obtain ⟨block, hblock, hparent⟩ := bind_eq_ok.1 hgenesis
    refine ⟨block, getBlock_eq_ok.1 hblock, ?_⟩
    by_contra hne
    rw [if_pos hne] at hparent
    exact absurd hparent (by simp)
  · by_contra hne
    simp only [verifyBoundary, hparent, hchild, if_pos hne] at hboundary
    exact absurd hboundary (by simp)

/-- Jobs that pass all checks extend a good storage to the finalized height. -/
lemma goodUpTo_of_checked {s₀ s : FetchStorage K} (hgood : s₀.Good) (hext : s₀.Extends s)
    {jobs : List (ℕ × ℕ)} {f : ℕ}
    (hjobs : Consecutive jobs (s₀.highestVerified.getD 0) (f + 1))
    (hverified : ∀ job ∈ jobs, s.Verified job) (hchecked : ∀ job ∈ jobs, s.Checked job) :
    s.GoodUpTo f := by
  -- what is below the first job was verified before
  have hbelow : ∀ v, s₀.highestVerified = some v → s.GoodUpTo v :=
    fun v hv => (hgood v hv).extend hext
  have hpresent : ∀ i ≤ f, s.Has i := by
    intro i hi
    by_cases hv : s₀.highestVerified.getD 0 ≤ i
    · obtain ⟨job, hjob, hi₁, hi₂⟩ := hjobs.exists_mem hv (by omega)
      exact (hverified job hjob).present i hi₁ hi₂
    · cases h : s₀.highestVerified with
      | none =>
        rw [h] at hv
        exact absurd (Nat.zero_le i) hv
      | some v =>
        rw [h, Option.getD_some] at hv
        exact (hbelow v h).present i (by omega)
  refine ⟨hpresent, ?_, fun i hi => ?_⟩
  · cases h : s₀.highestVerified with
    | some v => exact (hbelow v h).genesis
    | none =>
      rw [h, Option.getD_none] at hjobs
      obtain ⟨job, hjob, hi₁, -⟩ := hjobs.exists_mem le_rfl (by omega)
      exact (hchecked job hjob).genesis (by omega)
  · by_cases hv : s₀.highestVerified.getD 0 ≤ i
    · obtain ⟨job, hjob, hi₁, hi₂ | hi₂⟩ := hjobs.adjacent hv (by omega)
      · exact (hverified job hjob).linked i hi₁ hi₂
      · -- the boundary to the next job
        obtain ⟨parent, hparent⟩ := hpresent i (by omega)
        obtain ⟨child, hchild⟩ := hpresent (i + 1) (by omega)
        refine ⟨parent, child, hparent, hchild,
          (hchecked job hjob).boundary parent child ?_ ?_⟩
        · rw [← hi₂, Nat.add_sub_cancel]
          exact hparent
        · rw [← hi₂]
          exact hchild
    · cases h : s₀.highestVerified with
      | none =>
        rw [h] at hv
        exact absurd (Nat.zero_le i) hv
      | some v =>
        rw [h, Option.getD_some] at hv
        exact (hbelow v h).linked i (by omega)

end FetchStorage

/-! ### What a job does to the storage -/

/-- Heights of a job that are not stored. -/
structure Pending (storage : FetchStorage K) (job : ℕ × ℕ) (heights : List ℕ) : Prop where
  nodup : heights.Nodup
  missing : ∀ h ∈ heights, (job.1 ≤ h ∧ h < job.2) ∧ storage.blocks h = none

/-- What is known of a job by where it is. -/
def JobPhase.Inv (storage : FetchStorage K) (job : ℕ × ℕ) : JobPhase K → Prop
  | queued => True
  | fetching todo blocks => Pending storage job (todo ++ blocks.map K.number)
  | inserting pending => Pending storage job (pending.map Prod.fst)
  | finalVerify => storage.Verified job
  | received => storage.Verified job
  | failed _ => True

/-- The storage changes by blocks at heights of a job that were not stored. -/
def Writes (job : ℕ × ℕ) (s s' : FetchStorage K) : Prop :=
  ∀ h, s'.blocks h = s.blocks h ∨ (job.1 ≤ h ∧ h < job.2) ∧ s.blocks h = none

lemma Writes.refl (job : ℕ × ℕ) (s : FetchStorage K) : Writes job s s := fun _ => .inl rfl

lemma Writes.extends {job : ℕ × ℕ} {s s' : FetchStorage K} (h : Writes job s s') :
    s.Extends s' := by
  intro i block hi
  rcases h i with hsame | ⟨-, hnone⟩
  · rw [hsame, hi]
  · exact absurd (hi.symm.trans hnone) (by simp)

/-- The writes of a job do not concern another one. -/
lemma JobPhase.Inv.of_writes {job job' : ℕ × ℕ} {s s' : FetchStorage K} (h : Writes job s s')
    (hdisjoint : ∀ x, job.1 ≤ x ∧ x < job.2 → ¬ (job'.1 ≤ x ∧ x < job'.2)) {phase : JobPhase K}
    (hinv : phase.Inv s job') : phase.Inv s' job' := by
  have hpending : ∀ {heights : List ℕ}, Pending s job' heights → Pending s' job' heights := by
    intro heights hp
    refine ⟨hp.nodup, fun x hx => ⟨(hp.missing x hx).1, ?_⟩⟩
    rcases h x with hsame | ⟨hin, -⟩
    · rw [hsame]
      exact (hp.missing x hx).2
    · exact absurd (hp.missing x hx).1 (hdisjoint x hin)
  cases phase with
  | queued => trivial
  | fetching todo blocks => exact hpending hinv
  | inserting pending => exact hpending hinv
  | finalVerify => exact FetchStorage.Verified.extend hinv h.extends
  | received => exact FetchStorage.Verified.extend hinv h.extends
  | failed e => trivial

lemma pending_missing (storage : FetchStorage K) (job : ℕ × ℕ) :
    Pending storage job (storage.missing job) := by
  refine ⟨(List.nodup_range' 1).filter _, fun h hh => ?_⟩
  rw [FetchStorage.missing, List.mem_filter, FetchStorage.heights, List.mem_range'_1] at hh
  exact ⟨by omega, Option.isNone_iff_eq_none.1 hh.2⟩

lemma map_fst_extractBlockData {blocks : List K.FetchedBlock} {pending : List (ℕ × K.Block)}
    (h : extractBlockData blocks = .ok pending) :
    pending.map Prod.fst = blocks.map K.number := by
  have hall := mapM_eq_ok_iff.1 h
  clear h
  induction hall with
  | nil => rfl
  | cons hb _ ih =>
    obtain ⟨blockData, -, hpair⟩ := bind_eq_ok.1 hb
    rw [List.map_cons, List.map_cons, ih, ← Except.ok.inj hpair]

/-- Storing one of the pending blocks. -/
lemma Pending.insert {storage : FetchStorage K} {job : ℕ × ℕ} {pending : List (ℕ × K.Block)}
    (hp : Pending storage job (pending.map Prod.fst)) {n height : ℕ} {block : K.Block}
    (hn : pending[n]? = some (height, block)) :
    Writes job storage (storage.insertBlockData height block) ∧
      Pending (storage.insertBlockData height block) job ((pending.eraseIdx n).map Prod.fst) := by
  obtain ⟨hlt, hget⟩ := List.getElem?_eq_some_iff.1 hn
  have hperm : (height :: (pending.eraseIdx n).map Prod.fst).Perm (pending.map Prod.fst) := by
    have h := (List.getElem_cons_eraseIdx_perm hlt).map Prod.fst
    rwa [hget] at h
  have hnodup := List.nodup_cons.1 (hperm.nodup_iff.2 hp.nodup)
  refine ⟨fun h => ?_, hnodup.2, fun h hh => ?_⟩
  · by_cases hh : h = height
    · rw [hh]
      exact .inr (hp.missing height (hperm.subset List.mem_cons_self))
    · exact .inl (Function.update_of_ne hh _ _)
  · have hne : h ≠ height := by
      rintro rfl
      exact hnodup.1 hh
    have hpending := hp.missing h (hperm.subset (List.mem_cons_of_mem height hh))
    exact ⟨hpending.1, (Function.update_of_ne hne _ _).trans hpending.2⟩

/-- What a step of a job can do. -/
inductive JobMove (storage : FetchStorage K) (job : ℕ × ℕ) :
    JobEvent K → JobPhase K → FetchStorage K × JobPhase K → Prop
  | stay {event phase} : JobMove storage job event phase (storage, phase)
  | fail {event phase} (e : FetchError) : JobMove storage job event phase (storage, .failed e)
  | look : JobMove storage job .look .queued (storage, .fetching (storage.missing job) [])
  | answer {block height todo blocks} :
      JobMove storage job (.answer (.ok block)) (.fetching (height :: todo) blocks)
        (storage, .fetching todo (blocks ++ [block]))
  | extract {blocks pending} (h : extractBlockData blocks = .ok pending) :
      JobMove storage job .extract (.fetching [] blocks) (storage, .inserting pending)
  | insert {n pending height block} (h : pending[n]? = some (height, block)) :
      JobMove storage job (.insert n) (.inserting pending)
        (storage.insertBlockData height block, .inserting (pending.eraseIdx n))
  | verify (h : storage.verify job = .ok ()) :
      JobMove storage job .verify (.inserting []) (storage, .finalVerify)

lemma jobMove_jobStep (storage : FetchStorage K) (job : ℕ × ℕ) (event : JobEvent K)
    (phase : JobPhase K) : JobMove storage job event phase (jobStep storage job event phase) := by
  unfold jobStep
  split
  · exact .look
  · exact .answer
  · exact .fail _
  · split
    · next h => exact .extract h
    · exact .fail _
  · split
    · next h => exact .insert h
    · exact .stay
  · split
    · next h => exact .verify h
    · exact .fail _
  · exact .fail _
  · exact .fail _
  · exact .fail _
  · exact .stay

/-- **A step of a job** keeps what is known of it, and stores at most blocks of its own heights
that were missing. -/
lemma jobStep_inv {storage : FetchStorage K} {job : ℕ × ℕ} {event : JobEvent K}
    {phase : JobPhase K} (hinv : phase.Inv storage job)
    (hanswer : ∀ block height todo blocks, event = .answer (.ok block) →
      phase = .fetching (height :: todo) blocks → K.number block = height) :
    Writes job storage (jobStep storage job event phase).1 ∧
      (jobStep storage job event phase).2.Inv (jobStep storage job event phase).1 job := by
  have hmove := jobMove_jobStep storage job event phase
  generalize jobStep storage job event phase = r at hmove ⊢
  cases hmove with
  | stay => exact ⟨Writes.refl _ _, hinv⟩
  | fail e => exact ⟨Writes.refl _ _, trivial⟩
  | look =>
    refine ⟨Writes.refl _ _, ?_⟩
    simpa [JobPhase.Inv] using pending_missing storage job
  | @answer block height todo blocks =>
    refine ⟨Writes.refl _ _, ?_⟩
    have hnumber := hanswer block height todo blocks rfl rfl
    -- the height moves from the requests to the blocks
    have hperm : (todo ++ (blocks ++ [block]).map K.number).Perm
        (height :: todo ++ blocks.map K.number) := by
      rw [List.map_append, List.map_singleton, hnumber, ← List.append_assoc]
      exact List.perm_append_singleton _ _
    exact ⟨hperm.nodup_iff.2 hinv.nodup, fun h hh => hinv.missing h (hperm.subset hh)⟩
  | extract h =>
    refine ⟨Writes.refl _ _, ?_⟩
    rw [JobPhase.Inv, map_fst_extractBlockData h]
    exact hinv
  | insert h => exact Pending.insert hinv h
  | verify h => exact ⟨Writes.refl _ _, FetchStorage.verified_of_verify h⟩

lemma jobStep_highestVerified (storage : FetchStorage K) (job : ℕ × ℕ) (event : JobEvent K)
    (phase : JobPhase K) :
    (jobStep storage job event phase).1.highestVerified = storage.highestVerified := by
  have hmove := jobMove_jobStep storage job event phase
  generalize jobStep storage job event phase = r at hmove ⊢
  cases hmove <;> rfl

/-- A job that has passed its check. -/
def JobPhase.Final (phase : JobPhase K) : Prop := phase = .finalVerify ∨ phase = .received

/-- A job does not take blocks away. -/
lemma has_jobStep {storage : FetchStorage K} {i : ℕ} (h : storage.Has i) (job : ℕ × ℕ)
    (event : JobEvent K) (phase : JobPhase K) :
    (jobStep storage job event phase).1.Has i := by
  have hmove := jobMove_jobStep storage job event phase
  generalize jobStep storage job event phase = r at hmove ⊢
  cases hmove with
  | @insert n pending height block =>
    by_cases hi : i = height
    · subst hi
      exact ⟨block, Function.update_self _ _ _⟩
    · obtain ⟨b, hb⟩ := h
      exact ⟨b, (Function.update_of_ne hi _ _).trans hb⟩
  | _ => exact h

/-- Whatever the node answers, the blocks of a final job are there. -/
lemma hasJob_jobStep {storage : FetchStorage K} {job : ℕ × ℕ} {event : JobEvent K}
    {phase : JobPhase K} (h : phase.Final → storage.HasJob job)
    (hfinal : (jobStep storage job event phase).2.Final) :
    (jobStep storage job event phase).1.HasJob job := by
  have hmove := jobMove_jobStep storage job event phase
  generalize jobStep storage job event phase = r at hmove hfinal ⊢
  cases hmove with
  | stay => exact h hfinal
  | verify hverify => exact (FetchStorage.verified_of_verify hverify).present
  | _ => exact absurd hfinal (by simp [JobPhase.Final])

/-- A final job does not change any more. -/
lemma jobStep_of_final {phase : JobPhase K} (h : phase.Final)
    (storage : FetchStorage K) (job : ℕ × ℕ) (event : JobEvent K) :
    jobStep storage job event phase = (storage, phase) := by
  rcases h with rfl | rfl
  all_goals
    cases event with
    | answer r => cases r <;> rfl
    | _ => rfl

/-- Only the main task receives a job. -/
lemma jobStep_eq_received_iff {storage : FetchStorage K} {job : ℕ × ℕ} {event : JobEvent K}
    {phase : JobPhase K} :
    (jobStep storage job event phase).2 = .received ↔ phase = .received := by
  constructor
  · have hmove := jobMove_jobStep storage job event phase
    generalize jobStep storage job event phase = r at hmove ⊢
    intro h
    cases hmove with
    | stay => exact h
    | _ => exact absurd h (by simp)
  · rintro rfl
    rw [jobStep_of_final (.inr rfl)]

/-! ### What is read in the end -/

/-- The blocks are the stored ones up to a height, linked from a zero parent, with the times of
their predecessors. -/
structure ReturnsChain (s : FetchStorage K) (f : ℕ) (blocks : List K.Block) : Prop where
  length : blocks.length = f + 1
  first : blocks[0]? = s.blocks 0
  stored : ∀ i block, blocks[i]? = some block → ∃ entry, s.blocks i = some entry ∧
    block = { entry with lastBlockTimeSecs := block.lastBlockTimeSecs }
  genesis : ∀ block, blocks[0]? = some block → block.parentHash = K.zeroHash
  linked : ∀ i parent child, blocks[i]? = some parent → blocks[i + 1]? = some child →
    child.parentHash = parent.hash
  times : ∀ i parent child, blocks[i]? = some parent → blocks[i + 1]? = some child →
    child.lastBlockTimeSecs = parent.tblockSecs

lemma getElem?_setLastBlockTimesAfter {previous parent block : K.Block} {blocks : List K.Block}
    {k : ℕ} (hblock : blocks[k]? = some block) (hparent : (previous :: blocks)[k]? = some parent) :
    (setLastBlockTimesAfter previous blocks)[k]? =
      some { block with lastBlockTimeSecs := parent.tblockSecs } := by
  induction blocks generalizing previous k with
  | nil => simp at hblock
  | cons b blocks ih =>
    cases k with
    | zero =>
      obtain rfl : b = block := by simpa using hblock
      obtain rfl : previous = parent := by simpa using hparent
      rfl
    | succ k => exact ih (by simpa using hblock) (by simpa using hparent)

lemma getElem?_setLastBlockTimes_succ {parent block : K.Block} {blocks : List K.Block} {k : ℕ}
    (hblock : blocks[k + 1]? = some block) (hparent : blocks[k]? = some parent) :
    (setLastBlockTimes blocks)[k + 1]? =
      some { block with lastBlockTimeSecs := parent.tblockSecs } := by
  cases blocks with
  | nil => simp at hblock
  | cons b blocks => exact getElem?_setLastBlockTimesAfter (by simpa using hblock) hparent

lemma getElem?_setLastBlockTimes_zero (blocks : List K.Block) :
    (setLastBlockTimes blocks)[0]? = blocks[0]? := by
  cases blocks <;> rfl

lemma length_setLastBlockTimes (blocks : List K.Block) :
    (setLastBlockTimes blocks).length = blocks.length := by
  have hafter : ∀ (previous : K.Block) (l : List K.Block),
      (setLastBlockTimesAfter previous l).length = l.length := by
    intro previous l
    induction l generalizing previous with
    | nil => rfl
    | cons b l ih => exact congrArg (· + 1) (ih b)
  cases blocks with
  | nil => rfl
  | cons b blocks => exact congrArg (· + 1) (hafter b blocks)

/-- Only the times change. -/
lemma exists_of_getElem?_setLastBlockTimes {blocks : List K.Block} {i : ℕ} {block : K.Block}
    (h : (setLastBlockTimes blocks)[i]? = some block) :
    ∃ entry, blocks[i]? = some entry ∧
      block = { entry with lastBlockTimeSecs := block.lastBlockTimeSecs } := by
  cases i with
  | zero =>
    rw [getElem?_setLastBlockTimes_zero] at h
    exact ⟨block, h, rfl⟩
  | succ i =>
    obtain ⟨hlt, -⟩ := List.getElem?_eq_some_iff.1 h
    rw [length_setLastBlockTimes] at hlt
    have hentry := List.getElem?_eq_getElem hlt
    have hparent := List.getElem?_eq_getElem (Nat.lt_of_succ_lt hlt)
    rw [getElem?_setLastBlockTimes_succ hentry hparent] at h
    obtain rfl := Option.some.inj h
    exact ⟨_, hentry, rfl⟩

/-- The stored blocks up to a height. -/
lemma FetchStorage.exists_entries {s : FetchStorage K} {f : ℕ} (hhas : ∀ i ≤ f, s.Has i) :
    ∃ entries, (List.range (f + 1)).mapM s.getBlock = .ok entries ∧ entries.length = f + 1 ∧
      ∀ i ≤ f, entries[i]? = s.blocks i := by
  obtain ⟨entries, hentries⟩ : ∃ entries, (List.range (f + 1)).mapM s.getBlock = .ok entries := by
    refine exists_mapM_eq_ok fun i hi => ?_
    obtain ⟨block, hblock⟩ := hhas i (Nat.lt_succ_iff.1 (List.mem_range.1 hi))
    exact ⟨block, getBlock_eq_ok.2 hblock⟩
  have hall := mapM_eq_ok_iff.1 hentries
  refine ⟨entries, hentries, by rw [← hall.length_eq, List.length_range], fun i hi => ?_⟩
  have hrange : (List.range (f + 1))[i]? = some i := List.getElem?_range (by omega)
  obtain ⟨entry, hentry, hok⟩ := exists_getElem?_of_forall₂ hall hrange
  rw [hentry, getBlock_eq_ok.1 hok]

/-- The stored blocks up to a height to which the storage is good form a chain. -/
lemma FetchStorage.GoodUpTo.returnsChain {s : FetchStorage K} {f : ℕ} (hgood : s.GoodUpTo f)
    {entries : List K.Block} (hlength : entries.length = f + 1)
    (hentries : ∀ i ≤ f, entries[i]? = s.blocks i) :
    ReturnsChain s f (setLastBlockTimes entries) := by
  have hfirst : (setLastBlockTimes entries)[0]? = s.blocks 0 := by
    rw [getElem?_setLastBlockTimes_zero, hentries 0 (Nat.zero_le f)]
  have hle : ∀ {i block}, (setLastBlockTimes entries)[i]? = some block → i ≤ f := by
    intro i block h
    obtain ⟨hi, -⟩ := List.getElem?_eq_some_iff.1 h
    rw [length_setLastBlockTimes, hlength] at hi
    omega
  have hstored : ∀ i block, (setLastBlockTimes entries)[i]? = some block →
      ∃ entry, s.blocks i = some entry ∧
        block = { entry with lastBlockTimeSecs := block.lastBlockTimeSecs } := by
    intro i block h
    rw [← hentries i (hle h)]
    exact exists_of_getElem?_setLastBlockTimes h
  refine ⟨by rw [length_setLastBlockTimes, hlength], hfirst, hstored, ?_, ?_, ?_⟩
  · intro block h
    obtain ⟨b, hb, hzero⟩ := hgood.genesis
    rw [hfirst, hb] at h
    rw [← Option.some.inj h]
    exact hzero
  · intro i parent child hparent hchild
    obtain ⟨e, he, hpe⟩ := hstored i parent hparent
    obtain ⟨e', he', hce⟩ := hstored (i + 1) child hchild
    obtain ⟨p, c, hp, hc, hlink⟩ := hgood.linked i (hle hchild)
    obtain rfl := Option.some.inj (he.symm.trans hp)
    obtain rfl := Option.some.inj (he'.symm.trans hc)
    rw [hpe, hce]
    exact hlink
  · intro i parent child hparent hchild
    obtain ⟨e, he, hpe⟩ := hstored i parent hparent
    obtain ⟨e', he', -⟩ := hstored (i + 1) child hchild
    rw [← hentries i (hle hparent)] at he
    rw [← hentries (i + 1) (hle hchild)] at he'
    obtain rfl := Option.some.inj ((getElem?_setLastBlockTimes_succ he' he).symm.trans hchild)
    rw [hpe]

/-- The blocks of a storage that has them up to its verified height can be read, and they form a
chain if the storage is good. -/
lemma exists_readBlocksFromCache {s : FetchStorage K} {f : ℕ} (hhas : ∀ i ≤ f, s.Has i)
    (hf : s.highestVerified = some f) :
    ∃ blocks, readBlocksFromCache s = .ok blocks ∧ blocks.length = f + 1 ∧
      (s.GoodUpTo f → ReturnsChain s f blocks) := by
  obtain ⟨entries, hread, hlength, hentries⟩ := FetchStorage.exists_entries hhas
  refine ⟨setLastBlockTimes entries, ?_, by rw [length_setLastBlockTimes, hlength],
    fun hgood => hgood.returnsChain hlength hentries⟩
  simp only [readBlocksFromCache, hf, Option.getD_some, hread]
  rfl

end MidnightNode.Toolkit
