/-
# Which blocks the fetcher fetches

`fetch_from_rpc` cuts the heights from the highest verified one to the finalized one into jobs of
equal width, which a task of its own pushes one after the other, and separately computes how many
jobs there are, which is how many it waits for.  All of it is arithmetic on `u64`; here an
operation whose result is not a `u64` panics, as it does with overflow checks.
-/
import MidnightNode.Lib.Chunks
import MidnightNode.Lib.Traverse

namespace MidnightNode.Toolkit

open Chunks Traverse

/-! ### Arithmetic -/

/-- Why an operation has no result. -/
inductive ArithmeticPanic
  | overflow
  | underflow
  | divisionByZero
deriving DecidableEq, Repr

namespace U64

/-- `a + b`. -/
def add (a b : ℕ) : Except ArithmeticPanic ℕ :=
  if a + b < 2 ^ 64 then .ok (a + b) else .error .overflow

/-- `a - b`. -/
def sub (a b : ℕ) : Except ArithmeticPanic ℕ :=
  if b ≤ a then .ok (a - b) else .error .underflow

/-- `a * b`. -/
def mul (a b : ℕ) : Except ArithmeticPanic ℕ :=
  if a * b < 2 ^ 64 then .ok (a * b) else .error .overflow

/-- `a.div_ceil(b)`. -/
def divCeil (a b : ℕ) : Except ArithmeticPanic ℕ :=
  if b = 0 then .error .divisionByZero else .ok (Chunks.divCeil a b)

lemma add_eq_ok {a b c : ℕ} : add a b = .ok c ↔ a + b < 2 ^ 64 ∧ c = a + b := by
  unfold add
  split <;> simp_all [eq_comm]

lemma sub_eq_ok {a b c : ℕ} : sub a b = .ok c ↔ b ≤ a ∧ c = a - b := by
  unfold sub
  split <;> simp_all [eq_comm]

lemma mul_eq_ok {a b c : ℕ} : mul a b = .ok c ↔ a * b < 2 ^ 64 ∧ c = a * b := by
  unfold mul
  split <;> simp_all [eq_comm]

end U64

/-! ### The jobs -/

/-- The number of blocks of a job, unless there are few. -/
def BLOCKS_PER_JOB : ℕ := 100

/-- What `fetch_from_rpc` computes before it waits for jobs. -/
structure FetchPlan where
  minHeight : ℕ
  maxHeight : ℕ
  /-- The jobs that are pushed, each from its first height to before its second one. -/
  jobs : List (ℕ × ℕ)
  /-- The number of jobs to wait for. -/
  numJobs : ℕ
deriving DecidableEq, Repr

/-- The number of blocks of a job if there are `span` of them. -/
def blocksPerJob (span numWorkers : ℕ) : Except ArithmeticPanic ℕ := do
  let bound ← U64.mul BLOCKS_PER_JOB numWorkers
  if span < bound then do
    let share ← U64.divCeil span numWorkers
    pure (max share 5)
  else pure BLOCKS_PER_JOB

/-- The job that starts at a height. -/
def pushJob (blocksPerJob maxHeight min : ℕ) : Except ArithmeticPanic (ℕ × ℕ) := do
  let top ← U64.add min blocksPerJob
  pure (min, Nat.min top maxHeight)

/-- The jobs for a highest verified height and a finalized height. -/
def fetchPlan (highestVerified : Option ℕ) (finalizedHeight numWorkers : ℕ) :
    Except ArithmeticPanic FetchPlan := do
  let maxHeight ← U64.add finalizedHeight 1
  let minHeight := highestVerified.getD 0
  -- the difference is computed twice in the source, here for the width and for the number of jobs
  let span ← U64.sub maxHeight minHeight
  let width ← blocksPerJob span numWorkers
  let jobs ← (stepBy minHeight maxHeight width).mapM (pushJob width maxHeight)
  let numJobs ← U64.divCeil span width
  pure ⟨minHeight, maxHeight, jobs, numJobs⟩

/-- The numbers of blocks that were fetched and that were read from the cache, for the log. -/
def FetchPlan.report (plan : FetchPlan) (finalizedHeight blocks : ℕ) :
    Except ArithmeticPanic (ℕ × ℕ) := do
  let fetched ← U64.sub finalizedHeight plan.minHeight
  let cached ← U64.sub blocks fetched
  pure (fetched, cached)

/-! ### What the jobs cover -/

lemma blocksPerJob_eq_ok {span numWorkers width : ℕ}
    (h : blocksPerJob span numWorkers = .ok width) :
    BLOCKS_PER_JOB * numWorkers < 2 ^ 64 ∧ 0 < width := by
  obtain ⟨bound, hbound, h⟩ := bind_eq_ok.1 h
  obtain ⟨hfits, rfl⟩ := U64.mul_eq_ok.1 hbound
  refine ⟨hfits, ?_⟩
  split at h
  · obtain ⟨share, -, h⟩ := bind_eq_ok.1 h
    obtain rfl := Except.ok.inj h
    omega
  · obtain rfl := Except.ok.inj h
    decide

/-- With at least one worker a job has a width, no larger than all there is to fetch if that is
more than a hundred blocks. -/
lemma exists_blocksPerJob (span : ℕ) {numWorkers : ℕ} (hworkers : 1 ≤ numWorkers)
    (hfits : BLOCKS_PER_JOB * numWorkers < 2 ^ 64) :
    ∃ width, blocksPerJob span numWorkers = .ok width ∧ width ≤ span + BLOCKS_PER_JOB := by
  have hbound : U64.mul BLOCKS_PER_JOB numWorkers = .ok (BLOCKS_PER_JOB * numWorkers) :=
    U64.mul_eq_ok.2 ⟨hfits, rfl⟩
  unfold blocksPerJob
  rw [hbound]
  by_cases hspan : span < BLOCKS_PER_JOB * numWorkers
  · have hshare : U64.divCeil span numWorkers = .ok (Chunks.divCeil span numWorkers) :=
      if_neg (by omega)
    have hle := divCeil_le hworkers span
    refine ⟨max (Chunks.divCeil span numWorkers) 5, ?_, by rw [BLOCKS_PER_JOB]; omega⟩
    simp only [bind, Except.bind, if_pos hspan, hshare]
    rfl
  · exact ⟨BLOCKS_PER_JOB, by simp only [bind, Except.bind, if_neg hspan]; rfl, by omega⟩

lemma pushJob_eq_ok {width maxHeight min : ℕ} {job : ℕ × ℕ}
    (h : pushJob width maxHeight min = .ok job) : job = chunk width maxHeight min := by
  obtain ⟨top, htop, h⟩ := bind_eq_ok.1 h
  obtain ⟨-, rfl⟩ := U64.add_eq_ok.1 htop
  exact (Except.ok.inj h).symm

/-- The jobs that are pushed are consecutive and cover all heights from the highest verified one
to the finalized one, and there are as many of them as are waited for. -/
lemma fetchPlan_eq_ok {highestVerified : Option ℕ} {finalizedHeight numWorkers : ℕ}
    {plan : FetchPlan} (h : fetchPlan highestVerified finalizedHeight numWorkers = .ok plan) :
    plan.minHeight = highestVerified.getD 0 ∧ plan.maxHeight = finalizedHeight + 1 ∧
      Consecutive plan.jobs plan.minHeight plan.maxHeight ∧ plan.numJobs = plan.jobs.length ∧
      BLOCKS_PER_JOB * numWorkers < 2 ^ 64 := by
  obtain ⟨maxHeight, hmax, h⟩ := bind_eq_ok.1 h
  obtain ⟨-, rfl⟩ := U64.add_eq_ok.1 hmax
  obtain ⟨span, hspan, h⟩ := bind_eq_ok.1 h
  obtain ⟨hle, rfl⟩ := U64.sub_eq_ok.1 hspan
  obtain ⟨width, hwidth, h⟩ := bind_eq_ok.1 h
  obtain ⟨hfits, hpos⟩ := blocksPerJob_eq_ok hwidth
  obtain ⟨jobs, hjobs, h⟩ := bind_eq_ok.1 h
  obtain ⟨numJobs, hnum, h⟩ := bind_eq_ok.1 h
  obtain rfl := Except.ok.inj h
  have hmap := eq_map_of_mapM_eq_ok (fun _ _ => pushJob_eq_ok) hjobs
  refine ⟨rfl, rfl, ?_, ?_, hfits⟩
  · rw [hmap]
    exact consecutive_stepBy hpos hle
  · rw [U64.divCeil, if_neg (by omega)] at hnum
    rw [hmap, List.length_map, length_stepBy hpos]
    exact (Except.ok.inj hnum).symm

/-- Block numbers are `u32`, so that nothing overflows but the product with the number of
workers. -/
lemma exists_fetchPlan {highestVerified : Option ℕ} {finalizedHeight numWorkers : ℕ}
    (hheight : finalizedHeight < 2 ^ 32) (hworkers : 1 ≤ numWorkers)
    (hle : highestVerified.getD 0 ≤ finalizedHeight + 1)
    (hfits : BLOCKS_PER_JOB * numWorkers < 2 ^ 64) :
    ∃ plan, fetchPlan highestVerified finalizedHeight numWorkers = .ok plan := by
  obtain ⟨width, hwidth, hwidth'⟩ := exists_blocksPerJob
    (finalizedHeight + 1 - highestVerified.getD 0) hworkers hfits
  have hpos := (blocksPerJob_eq_ok hwidth).2
  have hmax : U64.add finalizedHeight 1 = .ok (finalizedHeight + 1) :=
    U64.add_eq_ok.2 ⟨by omega, rfl⟩
  have hspan : U64.sub (finalizedHeight + 1) (highestVerified.getD 0) =
      .ok (finalizedHeight + 1 - highestVerified.getD 0) := U64.sub_eq_ok.2 ⟨hle, rfl⟩
  have hjobs : (stepBy (highestVerified.getD 0) (finalizedHeight + 1) width).mapM
      (pushJob width (finalizedHeight + 1)) =
        .ok ((stepBy (highestVerified.getD 0) (finalizedHeight + 1) width).map
          (chunk width (finalizedHeight + 1))) := by
    refine mapM_eq_ok_map fun min hmin => ?_
    have hlt := lt_of_mem_stepBy hmin
    have hadd : U64.add min width = .ok (min + width) := by
      rw [BLOCKS_PER_JOB] at hwidth'
      exact U64.add_eq_ok.2 ⟨by omega, rfl⟩
    rw [pushJob, hadd]
    rfl
  have hnum : U64.divCeil (finalizedHeight + 1 - highestVerified.getD 0) width =
      .ok (Chunks.divCeil (finalizedHeight + 1 - highestVerified.getD 0) width) :=
    if_neg (by omega)
  exact ⟨_, bind_eq_ok.2 ⟨_, hmax, bind_eq_ok.2 ⟨_, hspan, bind_eq_ok.2 ⟨_, hwidth,
    bind_eq_ok.2 ⟨_, hjobs, bind_eq_ok.2 ⟨_, hnum, rfl⟩⟩⟩⟩⟩⟩

/-- The log can be written exactly if the highest verified height is not above the finalized
one. -/
lemma report_isOk_iff {plan : FetchPlan} {finalizedHeight : ℕ} :
    (∃ r, plan.report finalizedHeight (finalizedHeight + 1) = .ok r) ↔
      plan.minHeight ≤ finalizedHeight := by
  constructor
  · rintro ⟨r, h⟩
    obtain ⟨fetched, hfetched, -⟩ := bind_eq_ok.1 h
    exact (U64.sub_eq_ok.1 hfetched).1
  · intro hle
    have hfetched : U64.sub finalizedHeight plan.minHeight =
        .ok (finalizedHeight - plan.minHeight) := U64.sub_eq_ok.2 ⟨hle, rfl⟩
    have hcached : U64.sub (finalizedHeight + 1) (finalizedHeight - plan.minHeight) =
        .ok (finalizedHeight + 1 - (finalizedHeight - plan.minHeight)) :=
      U64.sub_eq_ok.2 ⟨by omega, rfl⟩
    exact ⟨_, bind_eq_ok.2 ⟨_, hfetched, bind_eq_ok.2 ⟨_, hcached, rfl⟩⟩⟩

end MidnightNode.Toolkit
