/-
# Runs of the fetcher

Two invariants of the parallel fetcher, by where the main task is.

Whatever the node answers (`Progress`): while the main task waits, it has final jobs of different
places in the plan, whose blocks are all there; when it has as many as it waits for, it has all of
them, and the blocks that it reads in the end are there.

If the node answers with blocks of the heights it is asked for (`Inv`), nothing that is stored is
overwritten: the blocks of final jobs stay linked, and with every boundary that the main task
checks, the blocks up to the finalized height come closer to a chain.

Two results follow.  `fetchFromRpc_returns_chain`: what is returned is a chain, and the verified
height is set only to a height up to which the storage has one.  `waitsForItsJobs_iff`: the
fetcher waits for exactly the jobs it creates, and comes to an end once they are final, if and
only if the highest verified height is not above the finalized one.
-/
import MidnightNode.Toolkit.Fetcher

namespace MidnightNode.Toolkit

open Chunks Traverse

variable {K : FetchHost}

/-! ### The jobs that the main task has -/

/-- The main task has the jobs at these places, and no others. -/
structure Received (plan : FetchPlan) (phase : ℕ → JobPhase K) (ks : List ℕ)
    (jobs : List (ℕ × ℕ)) : Prop where
  nodup : ks.Nodup
  jobs : List.Forall₂ (fun k job => plan.jobs[k]? = some job) ks jobs
  phase : ∀ k, phase k = .received ↔ k ∈ ks

/-- The main task has all jobs. -/
def AllReceived (plan : FetchPlan) (phase : ℕ → JobPhase K) : Prop :=
  ∀ k < plan.jobs.length, phase k = .received

/-- The plan is one for the heights from `v` to `f`, and waits for its jobs. -/
structure FetchPlan.Covers (plan : FetchPlan) (v f : ℕ) : Prop where
  minHeight : plan.minHeight = v
  jobs : Consecutive plan.jobs v (f + 1)
  numJobs : plan.numJobs = plan.jobs.length

variable {plan : FetchPlan} {f : ℕ} {s₀ : FetchStorage K}

lemma covers_of_fetchPlan {highestVerified : Option ℕ} {numWorkers : ℕ}
    (h : fetchPlan highestVerified f numWorkers = .ok plan) :
    plan.Covers (highestVerified.getD 0) f := by
  obtain ⟨hmin, hmax, hjobs, hnum, -⟩ := fetchPlan_eq_ok h
  rw [hmin, hmax] at hjobs
  exact ⟨hmin, hjobs, hnum⟩

section Received

variable {phase : ℕ → JobPhase K} {ks : List ℕ} {jobs : List (ℕ × ℕ)}

lemma Received.exists_job (h : Received plan phase ks jobs) {k : ℕ} (hk : k ∈ ks) :
    ∃ job ∈ jobs, plan.jobs[k]? = some job := by
  obtain ⟨i, hi⟩ := List.getElem?_of_mem hk
  obtain ⟨job, hjob, hplan⟩ := exists_getElem?_of_forall₂ h.jobs hi
  exact ⟨job, List.mem_of_getElem? hjob, hplan⟩

lemma Received.lt_length (h : Received plan phase ks jobs) {k : ℕ} (hk : k ∈ ks) :
    k < plan.jobs.length := by
  obtain ⟨job, -, hjob⟩ := h.exists_job hk
  exact (List.getElem?_eq_some_iff.1 hjob).1

/-- As many jobs as there are in the plan are all of them. -/
lemma Received.mem_of_length_le (h : Received plan phase ks jobs)
    (hle : plan.jobs.length ≤ jobs.length) {k : ℕ} (hk : k < plan.jobs.length) : k ∈ ks := by
  have hsub : ks.Subperm (List.range plan.jobs.length) :=
    h.nodup.subperm fun k hk => List.mem_range.2 (h.lt_length hk)
  have hperm : ks.Perm (List.range plan.jobs.length) := by
    refine hsub.perm_of_length_le ?_
    rw [List.length_range, h.jobs.length_eq]
    exact hle
  exact hperm.mem_iff.2 (List.mem_range.2 hk)

/-- Fewer jobs are not all of them. -/
lemma Received.not_allReceived (h : Received plan phase ks jobs)
    (hlt : jobs.length < plan.jobs.length) : ¬ AllReceived plan phase := by
  intro hall
  have hsub : (List.range plan.jobs.length).Subperm ks :=
    List.nodup_range.subperm fun k hk => (h.phase k).1 (hall k (List.mem_range.1 hk))
  have hle := hsub.length_le
  rw [List.length_range, h.jobs.length_eq] at hle
  omega

/-- One more job. -/
lemma Received.snoc (h : Received plan phase ks jobs) {k : ℕ} {job : ℕ × ℕ}
    (hk : plan.jobs[k]? = some job) (hphase : phase k = .finalVerify) :
    Received plan (Function.update phase k .received) (ks ++ [k]) (jobs ++ [job]) := by
  have hnot : k ∉ ks := by
    intro hmem
    have hreceived := (h.phase k).2 hmem
    rw [hphase] at hreceived
    exact absurd hreceived (by simp)
  refine ⟨?_, ?_, fun i => ?_⟩
  · refine List.nodup_append.2 ⟨h.nodup, List.nodup_singleton k, ?_⟩
    rintro i hi j hj rfl
    rw [List.mem_singleton.1 hj] at hi
    exact hnot hi
  · exact List.rel_append h.jobs (.cons hk .nil)
  · by_cases hi : i = k
    · subst hi
      simp
    · rw [Function.update_of_ne hi, h.phase i]
      simp [hi]

lemma Received.allReceived (h : Received plan phase ks jobs)
    (hle : plan.jobs.length ≤ jobs.length) : AllReceived plan phase :=
  fun k hk => (h.phase k).2 (h.mem_of_length_le hle hk)

lemma Received.mem_jobs (h : Received plan phase ks jobs)
    (hle : plan.jobs.length ≤ jobs.length) {job : ℕ × ℕ} (hjob : job ∈ plan.jobs) :
    job ∈ jobs := by
  obtain ⟨k, hk⟩ := List.getElem?_of_mem hjob
  obtain ⟨job', hjob', hplan⟩ :=
    h.exists_job (h.mem_of_length_le hle (List.getElem?_eq_some_iff.1 hk).1)
  rw [Option.some.inj (hk.symm.trans hplan)]
  exact hjob'

end Received

/-! ### Whatever the node answers -/

/-- What is known of the jobs by where the main task is. -/
def MainPhase.Progress (plan : FetchPlan) (f : ℕ) (s : FetchStorage K)
    (phase : ℕ → JobPhase K) : MainPhase K → Prop
  | receiving jobs => jobs.length < plan.numJobs ∧ ∃ ks, Received plan phase ks jobs
  | verifying _ => AllReceived plan phase
  | verified => AllReceived plan phase ∧ s.highestVerified = some f
  | returned (.ok _) => AllReceived plan phase
  | returned (.error _) => True
  | panicked => False

/-- While a job is still missing, only the received jobs matter. -/
lemma MainPhase.Progress.of_not_allReceived {s s' : FetchStorage K}
    {phase phase' : ℕ → JobPhase K} {main : MainPhase K} (h : main.Progress plan f s phase)
    (hnot : ¬ AllReceived plan phase)
    (hreceived : ∀ k, phase' k = .received ↔ phase k = .received) :
    main.Progress plan f s' phase' := by
  cases main with
  | receiving jobs =>
    obtain ⟨hlt, ks, hks⟩ := h
    exact ⟨hlt, ks, hks.nodup, hks.jobs, fun k => (hreceived k).trans (hks.phase k)⟩
  | verifying jobs => exact absurd h hnot
  | verified => exact absurd h.1 hnot
  | returned result =>
    cases result with
    | ok blocks => exact absurd h hnot
    | error e => trivial
  | panicked => exact h

/-- What is known when the main task looks whether it has all jobs. -/
lemma Received.progress_waitFor {phase : ℕ → JobPhase K} {ks : List ℕ} {jobs : List (ℕ × ℕ)}
    (h : Received plan phase ks jobs) (hnum : plan.numJobs = plan.jobs.length)
    (s : FetchStorage K) : (plan.waitFor jobs : MainPhase K).Progress plan f s phase := by
  unfold FetchPlan.waitFor
  split
  · next hlt => exact ⟨hlt, ks, h⟩
  · next hge => exact h.allReceived (by omega)

namespace FetchSystem

variable {s s' : FetchSystem K}

/-- What holds in every state of a run that starts with storage `s₀`. -/
structure Progress (plan : FetchPlan) (f : ℕ) (s₀ : FetchStorage K) (s : FetchSystem K) :
    Prop where
  kept : ∀ i, s₀.Has i → s.storage.Has i
  jobs : ∀ k job, plan.jobs[k]? = some job → (s.phase k).Final → s.storage.HasJob job
  main : s.main.Progress plan f s.storage s.phase

lemma received_start (plan : FetchPlan) :
    Received plan (fun _ => (.queued : JobPhase K)) [] [] :=
  ⟨List.nodup_nil, .nil, fun k => by simp⟩

lemma progress_start (hplan : plan.Covers (s₀.highestVerified.getD 0) f) :
    Progress plan f s₀ (start plan s₀) :=
  ⟨fun _ h => h, fun _ _ _ h => absurd h (by simp [JobPhase.Final, start]),
    (received_start plan).progress_waitFor hplan.numJobs s₀⟩

/-- A step of a job that the plan has. -/
lemma next_job {k : ℕ} {job : ℕ × ℕ} (hk : plan.jobs[k]? = some job) (event : JobEvent K) :
    next plan f s (.job k event) =
      ⟨(jobStep s.storage job event (s.phase k)).1,
        Function.update s.phase k (jobStep s.storage job event (s.phase k)).2, s.main⟩ := by
  simp only [next, hk]

lemma next_job_of_none {k : ℕ} (hk : plan.jobs[k]? = none) (event : JobEvent K) :
    next plan f s (.job k event) = s := by
  simp only [next, hk]

/-- A final job does not change any more until it is received. -/
lemma next_job_of_final {k : ℕ} (h : (s.phase k).Final) (event : JobEvent K) :
    next plan f s (.job k event) = s := by
  cases hk : plan.jobs[k]? with
  | none => exact next_job_of_none hk event
  | some job => simp only [next_job hk, jobStep_of_final h, Function.update_eq_self]

/-- When all jobs are received, no job changes any more. -/
lemma next_job_of_allReceived (hall : AllReceived plan s.phase) (k : ℕ) (event : JobEvent K) :
    next plan f s (.job k event) = s := by
  cases hk : plan.jobs[k]? with
  | none => exact next_job_of_none hk event
  | some job => exact next_job_of_final (.inr (hall k (List.getElem?_eq_some_iff.1 hk).1)) event

/-- The received jobs after a step of a job. -/
lemma received_next_job {k : ℕ} {job : ℕ × ℕ} {event : JobEvent K} (i : ℕ) :
    Function.update s.phase k (jobStep s.storage job event (s.phase k)).2 i = .received ↔
      s.phase i = .received := by
  by_cases hi : i = k
  · subst hi
    simp [jobStep_eq_received_iff]
  · simp [hi]

lemma Progress.next_job (h : Progress plan f s₀ s) (k : ℕ) (event : JobEvent K) :
    Progress plan f s₀ (next plan f s (.job k event)) := by
  by_cases hall : AllReceived plan s.phase
  · rw [next_job_of_allReceived hall]
    exact h
  · cases hk : plan.jobs[k]? with
    | none =>
      rw [next_job_of_none hk]
      exact h
    | some job =>
      rw [FetchSystem.next_job hk]
      refine ⟨fun i hi => has_jobStep (h.kept i hi) _ _ _, fun k' job' hk' hfinal => ?_,
        h.main.of_not_allReceived hall received_next_job⟩
      by_cases hkk : k' = k
      · subst hkk
        obtain rfl := Option.some.inj (hk.symm.trans hk')
        simp only [Function.update_self] at hfinal
        exact hasJob_jobStep (h.jobs k' job hk) hfinal
      · simp only [Function.update_of_ne hkk] at hfinal
        exact fun i hi hi' => has_jobStep (h.jobs k' job' hk' hfinal i hi hi') _ _ _

/-- What a step of the main task can do. -/
inductive MainMove (plan : FetchPlan) (f : ℕ) (s : FetchSystem K) : FetchSystem K → Prop
  | stay : MainMove plan f s s
  | receive {k jobs job} (hmain : s.main = .receiving jobs) (hphase : s.phase k = .finalVerify)
      (hk : plan.jobs[k]? = some job) :
      MainMove plan f s { s with phase := Function.update s.phase k .received
                                 main := plan.waitFor (jobs ++ [job]) }
  | fail {jobs} (hmain : s.main = .receiving jobs) (e : FetchError) :
      MainMove plan f s { s with main := .returned (.error e) }
  | check {job jobs} (hmain : s.main = .verifying (job :: jobs))
      (hok : s.storage.finalVerify job = .ok ()) :
      MainMove plan f s { s with main := .verifying jobs }
  | reject {job jobs} (hmain : s.main = .verifying (job :: jobs)) (e : FetchError) :
      MainMove plan f s { s with main := .returned (.error e) }
  | setHighestVerified (hmain : s.main = .verifying []) :
      MainMove plan f s { s with storage := { s.storage with highestVerified := some f }
                                 main := .verified }
  | read {blocks r} (hmain : s.main = .verified)
      (hread : readBlocksFromCache s.storage = .ok blocks)
      (hreport : plan.report f blocks.length = .ok r) :
      MainMove plan f s { s with main := .returned (.ok blocks) }
  | panic (hmain : s.main = .verified) (hpanic : ∀ blocks r,
      readBlocksFromCache s.storage = .ok blocks → plan.report f blocks.length ≠ .ok r) :
      MainMove plan f s { s with main := .panicked }

lemma mainMove_next {event : FetchEvent K} (h : ∀ k e, event ≠ .job k e) :
    MainMove plan f s (next plan f s event) := by
  cases event with
  | job k e => exact absurd rfl (h k e)
  | receive k =>
    simp only [next]
    split
    · next hmain hphase hk => exact .receive hmain hphase hk
    · exact .stay
  | fail e =>
    simp only [next]
    split
    · next hmain => exact .fail hmain e
    · exact .stay
  | finalVerify =>
    simp only [next]
    split
    · next hmain =>
      split
      · next hok => exact .check hmain hok
      · next e _ => exact .reject hmain e
    · exact .stay
  | setHighestVerified =>
    simp only [next]
    split
    · next hmain => exact .setHighestVerified hmain
    · exact .stay
  | readBlocks =>
    simp only [next]
    split
    · next hmain =>
      split
      · next hread =>
        split
        · next hreport => exact .read hmain hread hreport
        · next hreport =>
          refine .panic hmain fun blocks' r' hread' hreport' => ?_
          obtain rfl := Except.ok.inj (hread.symm.trans hread')
          exact absurd (hreport.symm.trans hreport') (by simp)
      · next hread =>
        exact .panic hmain fun blocks r hread' => absurd (hread.symm.trans hread') (by simp)
    · exact .stay

/-- When all jobs are received, the blocks up to the finalized height are there. -/
lemma Progress.has (h : Progress plan f s₀ s)
    (hplan : plan.Covers (s₀.highestVerified.getD 0) f) (hhas : s₀.HasVerified)
    (hall : AllReceived plan s.phase) : ∀ i ≤ f, s.storage.Has i := by
  intro i hi
  by_cases hv : s₀.highestVerified.getD 0 ≤ i
  · obtain ⟨job, hjob, hi₁, hi₂⟩ := hplan.jobs.exists_mem hv (Nat.lt_succ_of_le hi)
    obtain ⟨k, hk⟩ := List.getElem?_of_mem hjob
    exact h.jobs k job hk (.inr (hall k (List.getElem?_eq_some_iff.1 hk).1)) i hi₁ hi₂
  · -- below the first job
    cases hs₀ : s₀.highestVerified with
    | none =>
      rw [hs₀] at hv
      exact absurd (Nat.zero_le i) hv
    | some v =>
      rw [hs₀, Option.getD_some] at hv
      exact h.kept i (hhas v hs₀ i (by omega))

lemma Progress.mainMove (h : Progress plan f s₀ s) (hmove : MainMove plan f s s')
    (hplan : plan.Covers (s₀.highestVerified.getD 0) f) (hhas : s₀.HasVerified)
    (hle : s₀.highestVerified.getD 0 ≤ f) : Progress plan f s₀ s' := by
  have hmainInv := h.main
  cases hmove with
  | stay => exact h
  | @receive k jobs job hmain hphase hk =>
    rw [hmain] at hmainInv
    obtain ⟨-, ks, hks⟩ := hmainInv
    refine ⟨h.kept, fun i job' hi hfinal => ?_,
      (hks.snoc hk hphase).progress_waitFor hplan.numJobs _⟩
    by_cases hik : i = k
    · subst hik
      exact h.jobs i job' hi (.inl hphase)
    · simp only [Function.update_of_ne hik] at hfinal
      exact h.jobs i job' hi hfinal
  | fail hmain e => exact ⟨h.kept, h.jobs, trivial⟩
  | check hmain hok =>
    rw [hmain] at hmainInv
    exact ⟨h.kept, h.jobs, hmainInv⟩
  | reject hmain e => exact ⟨h.kept, h.jobs, trivial⟩
  | setHighestVerified hmain =>
    rw [hmain] at hmainInv
    exact ⟨h.kept, h.jobs, hmainInv, rfl⟩
  | read hmain hread hreport =>
    rw [hmain] at hmainInv
    exact ⟨h.kept, h.jobs, hmainInv.1⟩
  | panic hmain hpanic =>
    exfalso
    rw [hmain] at hmainInv
    obtain ⟨hall, hverified⟩ := hmainInv
    obtain ⟨blocks, hblocks, hlength, -⟩ :=
      exists_readBlocksFromCache (h.has hplan hhas hall) hverified
    obtain ⟨r, hr⟩ := report_isOk_iff.2 (hplan.minHeight.trans_le hle)
    exact hpanic blocks r hblocks (by rw [hlength]; exact hr)

/-- **A step of the system**, whatever it is. -/
lemma Progress.next (h : Progress plan f s₀ s)
    (hplan : plan.Covers (s₀.highestVerified.getD 0) f) (hhas : s₀.HasVerified)
    (hle : s₀.highestVerified.getD 0 ≤ f) (event : FetchEvent K) :
    Progress plan f s₀ (next plan f s event) := by
  by_cases hjob : ∃ k e, event = .job k e
  · obtain ⟨k, e, rfl⟩ := hjob
    exact h.next_job k e
  · push Not at hjob
    exact h.mainMove (mainMove_next hjob) hplan hhas hle

/-- **A run of the system**, whatever happens. -/
lemma Progress.run (h : Progress plan f s₀ s)
    (hplan : plan.Covers (s₀.highestVerified.getD 0) f) (hhas : s₀.HasVerified)
    (hle : s₀.highestVerified.getD 0 ≤ f) (events : List (FetchEvent K)) :
    Progress plan f s₀ (run plan f s events) := by
  induction events generalizing s with
  | nil => exact h
  | cons event events ih => exact ih (h.next hplan hhas hle event)

/-! ### If the node answers what it is asked for -/

/-- What is known of the storage by where the main task is, if the fetcher started with storage
`s₀`. -/
def MainInv (plan : FetchPlan) (f : ℕ) (s₀ s : FetchStorage K) : MainPhase K → Prop
  | .receiving _ => s.highestVerified = s₀.highestVerified
  | .verifying jobs => s.highestVerified = s₀.highestVerified ∧
      ∀ job ∈ plan.jobs, job ∈ jobs ∨ s.Checked job
  | .verified => s.GoodUpTo f
  | .returned (.ok blocks) => s.highestVerified = some f ∧ s.GoodUpTo f ∧ ReturnsChain s f blocks
  | .returned (.error _) => s.highestVerified = s₀.highestVerified
  | .panicked => True

/-- What holds in addition in every state of such a run. -/
structure Inv (plan : FetchPlan) (f : ℕ) (s₀ : FetchStorage K) (s : FetchSystem K) : Prop where
  extended : s₀.Extends s.storage
  jobs : ∀ k job, plan.jobs[k]? = some job → (s.phase k).Inv s.storage job
  main : MainInv plan f s₀ s.storage s.main

/-- What is known of the storage when the main task looks whether it has all jobs. -/
lemma mainInv_waitFor {phase : ℕ → JobPhase K} {ks : List ℕ} {jobs : List (ℕ × ℕ)}
    (h : Received plan phase ks jobs) (hnum : plan.numJobs = plan.jobs.length)
    {storage : FetchStorage K} (hverified : storage.highestVerified = s₀.highestVerified) :
    MainInv plan f s₀ storage (plan.waitFor jobs) := by
  unfold FetchPlan.waitFor
  split
  · exact hverified
  · next hge => exact ⟨hverified, fun job hjob => .inl (h.mem_jobs (by omega) hjob)⟩

lemma inv_start (hplan : plan.Covers (s₀.highestVerified.getD 0) f) :
    Inv plan f s₀ (start plan s₀) :=
  ⟨FetchStorage.Extends.refl s₀, fun _ _ _ => trivial,
    mainInv_waitFor (received_start (K := K) plan) hplan.numJobs rfl⟩

lemma Inv.next_job (h : Inv plan f s₀ s) (hprogress : Progress plan f s₀ s)
    (hplan : plan.Covers (s₀.highestVerified.getD 0) f) {k : ℕ} {event : JobEvent K}
    (hanswer : AnswersHeight s (.job k event)) :
    Inv plan f s₀ (next plan f s (.job k event)) := by
  by_cases hall : AllReceived plan s.phase
  · rw [next_job_of_allReceived hall]
    exact h
  · cases hk : plan.jobs[k]? with
    | none =>
      rw [next_job_of_none hk]
      exact h
    | some job =>
      have hanswers : ∀ block height todo blocks, event = .answer (.ok block) →
          s.phase k = .fetching (height :: todo) blocks → K.number block = height := by
        rintro block height todo blocks rfl hfetching
        exact hanswer height todo blocks hfetching
      obtain ⟨hwrites, hphase⟩ := jobStep_inv (h.jobs k job hk) hanswers
      rw [FetchSystem.next_job hk]
      refine ⟨h.extended.trans hwrites.extends, fun k' job' hk' => ?_, ?_⟩
      · by_cases hkk : k' = k
        · subst hkk
          obtain rfl := Option.some.inj (hk.symm.trans hk')
          simpa using hphase
        · -- the job writes at its own heights only
          have hdisjoint : ∀ x, job.1 ≤ x ∧ x < job.2 → ¬ (job'.1 ≤ x ∧ x < job'.2) :=
            fun x hx hx' => hkk (hplan.jobs.index_unique hk' hk hx' hx)
          simpa [hkk] using (h.jobs k' job' hk').of_writes hwrites hdisjoint
      · -- the main task still waits, or has failed
        have hverified := jobStep_highestVerified s.storage job event (s.phase k)
        have hmain := h.main
        have hprogressMain := hprogress.main
        cases hs : s.main with
        | receiving jobs =>
          rw [hs] at hmain
          exact hverified.trans hmain
        | verifying jobs =>
          rw [hs] at hprogressMain
          exact absurd hprogressMain hall
        | verified =>
          rw [hs] at hprogressMain
          exact absurd hprogressMain.1 hall
        | returned result =>
          rw [hs] at hmain hprogressMain
          cases result with
          | ok blocks => exact absurd hprogressMain hall
          | error e => exact hverified.trans hmain
        | panicked => trivial

/-- With every boundary checked the storage is good up to the finalized height. -/
lemma Inv.goodUpTo (h : Inv plan f s₀ s) (hprogress : Progress plan f s₀ s)
    (hplan : plan.Covers (s₀.highestVerified.getD 0) f) (hgood : s₀.Good)
    (hmain : s.main = .verifying []) : s.storage.GoodUpTo f := by
  have hall := hprogress.main
  have hjobs := h.main
  rw [hmain] at hall hjobs
  refine FetchStorage.goodUpTo_of_checked hgood h.extended hplan.jobs (fun job hjob => ?_)
    fun job hjob => ?_
  · obtain ⟨k, hk⟩ := List.getElem?_of_mem hjob
    have hverified := h.jobs k job hk
    rw [hall k (List.getElem?_eq_some_iff.1 hk).1] at hverified
    exact hverified
  · exact (hjobs.2 job hjob).resolve_left List.not_mem_nil

/-- A step of the main task keeps the invariant. -/
lemma Inv.mainMove (h : Inv plan f s₀ s) (hprogress : Progress plan f s₀ s)
    (hmove : MainMove plan f s s') (hplan : plan.Covers (s₀.highestVerified.getD 0) f)
    (hgood : s₀.Good) : Inv plan f s₀ s' := by
  have hinv := h.main
  have hprogressMain := hprogress.main
  cases hmove with
  | stay => exact h
  | @receive k jobs job hmain hphase hk =>
    rw [hmain] at hinv hprogressMain
    obtain ⟨-, ks, hks⟩ := hprogressMain
    refine ⟨h.extended, fun i job' hi => ?_,
      mainInv_waitFor (hks.snoc hk hphase) hplan.numJobs hinv⟩
    by_cases hik : i = k
    · subst hik
      have hjob := h.jobs i job' hi
      rw [hphase] at hjob
      simpa [JobPhase.Inv] using hjob
    · simpa [hik] using h.jobs i job' hi
  | fail hmain e =>
    rw [hmain] at hinv
    exact ⟨h.extended, h.jobs, hinv⟩
  | check hmain hok =>
    rw [hmain] at hinv
    obtain ⟨hverified, hjobs⟩ := hinv
    refine ⟨h.extended, h.jobs, hverified, fun job' hjob' => ?_⟩
    rcases hjobs job' hjob' with hmem | hchecked
    · rcases List.mem_cons.1 hmem with rfl | hmem
      · exact .inr (FetchStorage.checked_of_finalVerify hok)
      · exact .inl hmem
    · exact .inr hchecked
  | reject hmain e =>
    rw [hmain] at hinv
    exact ⟨h.extended, h.jobs, hinv.1⟩
  | setHighestVerified hmain =>
    have hchain := h.goodUpTo hprogress hplan hgood hmain
    -- the blocks stay as they are: a write at no height
    have hsame : Writes (0, 0) s.storage { s.storage with highestVerified := some f } :=
      fun _ => .inl rfl
    refine ⟨h.extended, fun k job hk => ?_, hchain.extend hsame.extends⟩
    exact (h.jobs k job hk).of_writes hsame fun x hx => absurd hx.2 (Nat.not_lt_zero x)
  | read hmain hread hreport =>
    rw [hmain] at hinv hprogressMain
    obtain ⟨blocks, hblocks, -, hreturns⟩ :=
      exists_readBlocksFromCache hinv.present hprogressMain.2
    obtain rfl := Except.ok.inj (hread.symm.trans hblocks)
    exact ⟨h.extended, h.jobs, hprogressMain.2, hinv, hreturns hinv⟩
  | panic hmain hpanic => exact ⟨h.extended, h.jobs, trivial⟩

/-- **A step of the system** keeps both invariants. -/
lemma Inv.next (h : Inv plan f s₀ s) (hprogress : Progress plan f s₀ s)
    (hplan : plan.Covers (s₀.highestVerified.getD 0) f) (hgood : s₀.Good)
    {event : FetchEvent K} (hanswer : AnswersHeight s event) :
    Inv plan f s₀ (next plan f s event) := by
  by_cases hjob : ∃ k e, event = .job k e
  · obtain ⟨k, e, rfl⟩ := hjob
    exact h.next_job hprogress hplan hanswer
  · push Not at hjob
    exact h.mainMove hprogress (mainMove_next hjob) hplan hgood

/-- **A run of the system** keeps both invariants. -/
lemma Inv.run (h : Inv plan f s₀ s) (hprogress : Progress plan f s₀ s)
    (hplan : plan.Covers (s₀.highestVerified.getD 0) f) (hgood : s₀.Good)
    (hle : s₀.highestVerified.getD 0 ≤ f) {events : List (FetchEvent K)}
    (hevents : AtEachStep (FetchSystem.next plan f) AnswersHeight s events) :
    Inv plan f s₀ (run plan f s events) := by
  induction events generalizing s with
  | nil => exact h
  | cons event events ih =>
    exact ih (h.next hprogress hplan hgood hevents.1)
      (hprogress.next hplan hgood.hasVerified hle event) hevents.2

/-! ### What is returned -/

/-- **The fetcher returns chains.**  Let the storage be good, with anything above its highest
verified height.  In every run, whatever the node answers and however the tasks are interleaved: if
blocks are returned, they are the stored ones up to the finalized height and form a chain, and that
height is the verified one of a good storage; if an error is returned, the verified height is what
it was and the storage is still good. -/
theorem fetchFromRpc_returns_chain {storage : FetchStorage K} (hgood : storage.Good)
    {finalizedHeight numWorkers : ℕ} (hle : storage.highestVerified.getD 0 ≤ finalizedHeight)
    {plan : FetchPlan}
    (hplan : fetchPlan storage.highestVerified finalizedHeight numWorkers = .ok plan)
    {events : List (FetchEvent K)}
    (hevents : AtEachStep (FetchSystem.next plan finalizedHeight) AnswersHeight
      (start plan storage) events)
    {result : Except FetchError (List K.Block)}
    (hresult : (run plan finalizedHeight (start plan storage) events).main = .returned result) :
    let s := (run plan finalizedHeight (start plan storage) events).storage
    s.Good ∧
      match result with
      | .ok blocks => s.highestVerified = some finalizedHeight ∧
          ReturnsChain s finalizedHeight blocks
      | .error _ => s.highestVerified = storage.highestVerified := by
  have hcovers := covers_of_fetchPlan hplan
  have hinv := (inv_start hcovers).run (progress_start hcovers) hcovers hgood hle hevents
  have hmain := hinv.main
  rw [hresult] at hmain
  cases result with
  | ok blocks =>
    obtain ⟨hverified, hchain, hreturns⟩ := hmain
    refine ⟨fun v hv => ?_, hverified, hreturns⟩
    rw [← Option.some.inj (hverified.symm.trans hv)]
    exact hchain
  | error e =>
    refine ⟨fun v hv => ?_, hmain⟩
    exact (hgood v (hmain.symm.trans hv)).extend hinv.extended

/-- A chain whose hashes are numbers. -/
abbrev smallFetchHost : FetchHost where
  Hash := ℕ
  hashDecEq := inferInstance
  zeroHash := 0
  Data := Unit
  FetchedBlock := RawBlockData ℕ Unit
  number := RawBlockData.number
  extractData := .ok

/-- The block at a height of that chain. -/
def smallBlock (height : ℕ) : smallFetchHost.Block :=
  ⟨height + 1, height, height, 10 * height, 0, ()⟩

/-- A storage with the first block verified, and the block at height `2` left by a run that was
interrupted. -/
def smallStorage : FetchStorage smallFetchHost where
  blocks i := if i = 0 ∨ i = 2 then some (smallBlock i) else none
  highestVerified := some 0

lemma smallStorage_good : smallStorage.Good := by
  intro v hv
  obtain rfl : 0 = v := by simpa [smallStorage] using hv
  refine ⟨fun i hi => ?_, ⟨smallBlock 0, rfl, rfl⟩, fun i hi => absurd hi (Nat.not_lt_zero i)⟩
  obtain rfl : i = 0 := by omega
  exact ⟨smallBlock 0, rfl⟩

/-- The missing block is fetched and stored, and the job goes through all checks. -/
def smallEvents : List (FetchEvent smallFetchHost) :=
  [.job 0 .look, .job 0 (.answer (.ok (smallBlock 1))), .job 0 .extract, .job 0 (.insert 0),
    .job 0 .verify, .receive 0, .finalVerify, .setHighestVerified, .readBlocks]

theorem fetchFromRpc_returns_three_blocks :
    ReturnsChain (run ⟨0, 3, [(0, 3)], 1⟩ 2 (start ⟨0, 3, [(0, 3)], 1⟩ smallStorage)
        smallEvents).storage 2
      [smallBlock 0, smallBlock 1, { smallBlock 2 with lastBlockTimeSecs := 10 }] := by
  have hle : smallStorage.highestVerified.getD 0 ≤ 2 := by decide
  have hplan : fetchPlan smallStorage.highestVerified 2 1 = .ok ⟨0, 3, [(0, 3)], 1⟩ := by decide
  have hresult : (run ⟨0, 3, [(0, 3)], 1⟩ 2 (start ⟨0, 3, [(0, 3)], 1⟩ smallStorage)
      smallEvents).main = .returned (.ok [smallBlock 0, smallBlock 1,
        { smallBlock 2 with lastBlockTimeSecs := 10 }]) := rfl
  have hevents : AtEachStep (FetchSystem.next ⟨0, 3, [(0, 3)], 1⟩ 2) AnswersHeight
      (start ⟨0, 3, [(0, 3)], 1⟩ smallStorage) smallEvents := by
    refine ⟨trivial, ?_, trivial, trivial, trivial, trivial, trivial, trivial, trivial, trivial⟩
    intro height todo blocks hphase
    have hfetching : JobPhase.fetching [1] [] = JobPhase.fetching (height :: todo) blocks := hphase
    obtain ⟨⟨rfl, -⟩, -⟩ : (1 = height ∧ [] = todo) ∧ [] = blocks := by simpa using hfetching
    rfl
  exact (fetchFromRpc_returns_chain smallStorage_good hle hplan hevents hresult).2.2

/-! ### The fetcher comes to an end -/

/-- Every pushed job has yielded its final job. -/
def AllFinal (plan : FetchPlan) (s : FetchSystem K) : Prop :=
  ∀ k < plan.jobs.length, (s.phase k).Final

/-- An event that changes something. -/
def Moves (plan : FetchPlan) (f : ℕ) (s : FetchSystem K) (event : FetchEvent K) : Prop :=
  next plan f s event ≠ s

/-- However the system goes on, it comes to an end, and then the main task has returned. -/
def ComesToReturn (plan : FetchPlan) (f : ℕ) (s : FetchSystem K) : Prop :=
  ∃ bound, ∀ events, AtEachStep (FetchSystem.next plan f) (Moves plan f) s events →
    events.length ≤ bound ∧
      ((∀ event, ¬ Moves plan f (run plan f s events) event) →
        ∃ result, (run plan f s events).main = .returned result)

/-- At most how many steps the main task still makes. -/
def remaining (plan : FetchPlan) : MainPhase K → ℕ
  | .receiving jobs => 2 * plan.numJobs + 2 - jobs.length
  | .verifying jobs => jobs.length + 2
  | .verified => 1
  | .returned _ => 0
  | .panicked => 0

lemma remaining_waitFor {jobs : List (ℕ × ℕ)} (h : jobs.length < plan.numJobs) (job : ℕ × ℕ) :
    remaining plan (plan.waitFor (jobs ++ [job]) : MainPhase K) <
      remaining plan (.receiving jobs : MainPhase K) := by
  unfold FetchPlan.waitFor
  have hlength : (jobs ++ [job]).length = jobs.length + 1 := by simp
  split
  · simp only [remaining, hlength]
    omega
  · simp only [remaining, hlength]
    omega

/-- A step of the main task brings it closer to its end, and leaves final jobs final. -/
lemma Progress.remaining_lt_of_mainMove (h : Progress plan f s₀ s)
    (hmove : MainMove plan f s s') (hfinal : AllFinal plan s) (hne : s' ≠ s) :
    remaining plan s'.main < remaining plan s.main ∧ AllFinal plan s' := by
  have hprogress := h.main
  cases hmove with
  | stay => exact absurd rfl hne
  | @receive k jobs job hmain hphase hk =>
    rw [hmain] at hprogress ⊢
    refine ⟨remaining_waitFor hprogress.1 job, fun i hi => ?_⟩
    by_cases hik : i = k
    · subst hik
      simp [JobPhase.Final]
    · simpa [hik] using hfinal i hi
  | fail hmain e =>
    rw [hmain] at hprogress ⊢
    have hlt := hprogress.1
    simp only [remaining]
    exact ⟨by omega, hfinal⟩
  | check hmain hok =>
    rw [hmain]
    exact ⟨by simp [remaining], hfinal⟩
  | reject hmain e =>
    rw [hmain]
    exact ⟨by simp [remaining], hfinal⟩
  | setHighestVerified hmain =>
    rw [hmain]
    exact ⟨by simp [remaining], hfinal⟩
  | read hmain hread hreport =>
    rw [hmain]
    exact ⟨by simp [remaining], hfinal⟩
  | panic hmain hpanic =>
    rw [hmain]
    exact ⟨by simp [remaining], hfinal⟩

/-- When all jobs are final, only the main task moves. -/
lemma Progress.remaining_lt (h : Progress plan f s₀ s) (hfinal : AllFinal plan s)
    {event : FetchEvent K} (hmoves : Moves plan f s event) :
    remaining plan (FetchSystem.next plan f s event).main < remaining plan s.main ∧
      AllFinal plan (FetchSystem.next plan f s event) := by
  have hjob : ∀ k e, event ≠ .job k e := by
    rintro k e rfl
    cases hk : plan.jobs[k]? with
    | none => exact hmoves (next_job_of_none hk e)
    | some job => exact hmoves (next_job_of_final (hfinal k (List.getElem?_eq_some_iff.1 hk).1) e)
  exact h.remaining_lt_of_mainMove (mainMove_next hjob) hfinal hmoves

/-- When all jobs are final, the main task can move until it has returned. -/
lemma Progress.returned_of_not_moves (h : Progress plan f s₀ s)
    (hplan : plan.Covers (s₀.highestVerified.getD 0) f) (hfinal : AllFinal plan s)
    (hstuck : ∀ event, ¬ Moves plan f s event) : ∃ result, s.main = .returned result := by
  have hprogress := h.main
  -- a step that leads to another place of the main task is one
  have hmain : ∀ event, (FetchSystem.next plan f s event).main = s.main :=
    fun event => congrArg FetchSystem.main (not_not.1 (hstuck event))
  cases hs : s.main with
  | receiving jobs =>
    exfalso
    rw [hs] at hprogress
    obtain ⟨hlt, ks, hks⟩ := hprogress
    rw [hplan.numJobs] at hlt
    obtain ⟨k, hk, hnot⟩ : ∃ k, k < plan.jobs.length ∧ s.phase k ≠ .received := by
      simpa [AllReceived] using hks.not_allReceived hlt
    have hphase := (hfinal k hk).resolve_right hnot
    have hnext := hmain (.receive k)
    simp only [FetchSystem.next, hs, hphase, List.getElem?_eq_getElem hk] at hnext
    have hless := remaining_waitFor (K := K) (by rw [hplan.numJobs]; exact hlt) plan.jobs[k]
    rw [hnext] at hless
    exact lt_irrefl _ hless
  | verifying jobs =>
    exfalso
    cases jobs with
    | nil =>
      have hnext := hmain .setHighestVerified
      simp only [FetchSystem.next, hs] at hnext
      exact absurd hnext (by simp)
    | cons job jobs =>
      have hnext := hmain .finalVerify
      simp only [FetchSystem.next, hs] at hnext
      split at hnext
      · exact absurd hnext (by simp)
      · exact absurd hnext (by simp)
  | verified =>
    exfalso
    have hnext := hmain .readBlocks
    simp only [FetchSystem.next, hs] at hnext
    split at hnext
    · split at hnext
      · exact absurd hnext (by simp)
      · exact absurd hnext (by simp)
    · exact absurd hnext (by simp)
  | returned result => exact ⟨result, rfl⟩
  | panicked =>
    rw [hs] at hprogress
    exact hprogress.elim

/-- **The main task returns** once all jobs are final. -/
lemma Progress.comesToReturn (h : Progress plan f s₀ s)
    (hplan : plan.Covers (s₀.highestVerified.getD 0) f) (hhas : s₀.HasVerified)
    (hle : s₀.highestVerified.getD 0 ≤ f) (hfinal : AllFinal plan s) : ComesToReturn plan f s := by
  refine ⟨remaining plan s.main, fun events hevents => ?_⟩
  induction events generalizing s with
  | nil => exact ⟨Nat.zero_le _, h.returned_of_not_moves hplan hfinal⟩
  | cons event events ih =>
    obtain ⟨hless, hfinal'⟩ := h.remaining_lt hfinal hevents.1
    obtain ⟨hlength, hreturned⟩ := ih (h.next hplan hhas hle event) hfinal' hevents.2
    refine ⟨?_, hreturned⟩
    rw [List.length_cons]
    omega

/-! ### The jobs that are waited for -/

/-- The fetcher waits for exactly the jobs it creates: no arithmetic fails, the jobs are
consecutive intervals from the highest verified height to the finalized one, there are as many as
are waited for, and once each of them has yielded its final job, whatever happened before, the
fetcher comes to return. -/
def WaitsForItsJobs (K : FetchHost) (highestVerified : Option ℕ)
    (finalizedHeight numWorkers : ℕ) : Prop :=
  ∃ plan, fetchPlan highestVerified finalizedHeight numWorkers = .ok plan ∧
    (∃ r, plan.report finalizedHeight (finalizedHeight + 1) = .ok r) ∧
    Consecutive plan.jobs (highestVerified.getD 0) (finalizedHeight + 1) ∧
    plan.numJobs = plan.jobs.length ∧
    ∀ (storage : FetchStorage K) (events : List (FetchEvent K)), storage.HasVerified →
      storage.highestVerified = highestVerified →
      AllFinal plan (run plan finalizedHeight (start plan storage) events) →
      ComesToReturn plan finalizedHeight (run plan finalizedHeight (start plan storage) events)

/-- **When the fetcher waits for its jobs**: exactly if the highest verified height is not above
the finalized one, and the number of workers is not so large that its product with
`BLOCKS_PER_JOB` overflows.  Heights are block numbers, which are `u32`. -/
theorem waitsForItsJobs_iff (K : FetchHost) {highestVerified : Option ℕ}
    {finalizedHeight numWorkers : ℕ} (hheight : finalizedHeight < 2 ^ 32)
    (hworkers : 1 ≤ numWorkers) :
    WaitsForItsJobs K highestVerified finalizedHeight numWorkers ↔
      highestVerified.getD 0 ≤ finalizedHeight ∧ BLOCKS_PER_JOB * numWorkers < 2 ^ 64 := by
  constructor
  · rintro ⟨plan, hplan, hreport, -⟩
    obtain ⟨hmin, -, -, -, hfits⟩ := fetchPlan_eq_ok hplan
    rw [report_isOk_iff, hmin] at hreport
    exact ⟨hreport, hfits⟩
  · rintro ⟨hle, hfits⟩
    obtain ⟨plan, hplan⟩ := exists_fetchPlan hheight hworkers (Nat.le_succ_of_le hle) hfits
    have hcovers := covers_of_fetchPlan hplan
    refine ⟨plan, hplan, report_isOk_iff.2 (hcovers.minHeight.trans_le hle), hcovers.jobs,
      hcovers.numJobs, ?_⟩
    rintro storage events hhas rfl hfinal
    exact ((progress_start hcovers).run hcovers hhas hle events).comesToReturn hcovers hhas hle
      hfinal

theorem waitsForItsJobs_of_four_workers : WaitsForItsJobs smallFetchHost (some 3) 5 4 :=
  (waitsForItsJobs_iff smallFetchHost (by decide) (by decide)).2 ⟨by decide, by decide⟩

/-- A node that resyncs is at height `5`, and height `10` was verified before: the first
subtraction underflows.  One height above the finalized one, the last one does. -/
theorem not_waitsForItsJobs_of_resync :
    fetchPlan (some 10) 5 4 = .error .underflow ∧
      ¬ WaitsForItsJobs smallFetchHost (some 10) 5 4 ∧
      fetchPlan (some 6) 5 4 = .ok ⟨6, 6, [], 0⟩ ∧
      FetchPlan.report ⟨6, 6, [], 0⟩ 5 6 = .error .underflow := by
  have hplan : fetchPlan (some 10) 5 4 = .error .underflow := by decide
  refine ⟨hplan, ?_, by decide, by decide⟩
  rintro ⟨plan, hok, -⟩
  rw [hplan] at hok
  exact absurd hok (by simp)

end FetchSystem

end MidnightNode.Toolkit
