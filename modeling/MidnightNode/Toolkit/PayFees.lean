/-
# Concurrent payments of fees

`pay_fees` gathers DUST, estimates the fees of the transaction with it, and starts again with more
DUST if some is missing, at most ten times.  Gathering reads which outputs are marked spent;
the outputs are marked only by `confirm_dust_spends`, after the estimate.  In between other
executions on the same context proceed, and two of them can gather the same output.

Where no execution gathers while another one that shares a funding seed with it holds spends it
has not confirmed, all transactions spend different outputs.
-/
import MidnightNode.Toolkit.DustSpends
import Mathlib.Logic.Function.Basic

namespace MidnightNode.Toolkit

open Traverse

variable {K : DustCrate} {Seed ι : Type}

/-! ### One execution -/

/-- What `pay_fees` reads of the transaction it is called for. -/
structure FeeConfig (Seed : Type) where
  fundingSeeds : List Seed
  now : ℕ
  mockProofsForFees : Bool

/-- Why `pay_fees` fails. -/
inductive PayFeesError (K : DustCrate)
  /-- `gather_dust_spends` fails. -/
  | gather (error : GatherError K)
  /-- Proving, mock proving or the estimate fails. -/
  | prove
  /-- `"Could not balance TX"`. -/
  | couldNotBalance

/-- Where an execution is.  `gather` and `confirm` are followed by their access to the wallets. -/
inductive FeePhase (K : DustCrate)
  /-- Before `gather_dust_spends`, in one of the rounds. -/
  | gather (round missingDust : ℕ)
  /-- The fees are estimated. -/
  | estimate (round missingDust : ℕ) (spends : List K.Spend)
  /-- Nothing is missing: before `confirm_dust_spends`. -/
  | confirm (spends : List K.Spend)
  /-- The fees were estimated with a mock proof: the transaction is proven. -/
  | prove (spends : List K.Spend)
  /-- `pay_fees` has returned; of a transaction only its DUST spends are kept. -/
  | done (result : Except (PayFeesError K) (List K.Spend))

/-- What a step meets: the parameters of the ledger, how the estimate ends and whether the
transaction can be proven. -/
structure FeeOutcome (K : DustCrate) where
  params : K.Parameters
  /-- `none` is an error; otherwise what `compute_missing_dust` returns. -/
  missing : Option (Option ℕ)
  proven : Bool

/-- A step of `pay_fees`.  The sum of what is missing is a `u128`. -/
def payFeesStep (config : FeeConfig Seed) (o : FeeOutcome K) (wallets : Wallets K Seed) :
    FeePhase K → Wallets K Seed × FeePhase K
  | .gather round missingDust =>
    match gatherDustSpends wallets config.fundingSeeds missingDust config.now o.params with
    | .error e => (wallets, .done (.error (.gather e)))
    | .ok spends => (wallets, .estimate round missingDust spends)
  | .estimate round missingDust spends =>
    match o.missing with
    | none => (wallets, .done (.error .prove))
    | some (some dust) =>
      if round + 1 < 10 then (wallets, .gather (round + 1) ((missingDust + dust) % 2 ^ 128))
      else (wallets, .done (.error .couldNotBalance))
    | some none => (wallets, .confirm spends)
  | .confirm spends =>
    (confirmDustSpends wallets spends,
      if config.mockProofsForFees then .prove spends else .done (.ok spends))
  | .prove spends =>
    (wallets, if o.proven then .done (.ok spends) else .done (.error .prove))
  | .done result => (wallets, .done result)

namespace FeePhase

/-- The spends of an execution: those it has gathered, or those of its transaction. -/
def spends : FeePhase K → List K.Spend
  | estimate _ _ spends => spends
  | confirm spends => spends
  | prove spends => spends
  | done (.ok spends) => spends
  | _ => []

/-- The spends that are gathered and not confirmed. -/
def held : FeePhase K → List K.Spend
  | estimate _ _ spends => spends
  | confirm spends => spends
  | _ => []

/-- The spends that are confirmed. -/
def confirmed : FeePhase K → List K.Spend
  | prove spends => spends
  | done (.ok spends) => spends
  | _ => []

lemma mem_spends {phase : FeePhase K} {spend : K.Spend} :
    spend ∈ phase.spends ↔ spend ∈ phase.held ∨ spend ∈ phase.confirmed := by
  cases phase with
  | done result => cases result <;> simp [spends, held, confirmed]
  | _ => simp [spends, held, confirmed]

end FeePhase

/-! ### Executions that share the wallets -/

/-- The wallets of the context and where each execution is. -/
structure FeeSystem (K : DustCrate) (Seed ι : Type) where
  wallets : Wallets K Seed
  phase : ι → FeePhase K

/-- One of the executions takes a step. -/
def FeeSystem.next [DecidableEq ι] (config : ι → FeeConfig Seed) (sys : FeeSystem K Seed ι)
    (step : ι × FeeOutcome K) : FeeSystem K Seed ι :=
  let r := payFeesStep (config step.1) step.2 sys.wallets (sys.phase step.1)
  ⟨r.1, Function.update sys.phase step.1 r.2⟩

/-- All executions are at their first round. -/
def FeeSystem.start (wallets : Wallets K Seed) : FeeSystem K Seed ι :=
  ⟨wallets, fun _ => .gather 0 0⟩

/-- The transactions that were returned spend different outputs. -/
structure FeeSystem.NoDoubleSpend (sys : FeeSystem K Seed ι) : Prop where
  within : ∀ p spends, sys.phase p = .done (.ok spends) → (spends.map K.oldNullifier).Nodup
  across : ∀ p q spends spends', p ≠ q → sys.phase p = .done (.ok spends) →
    sys.phase q = .done (.ok spends') →
    (spends.map K.oldNullifier).Disjoint (spends'.map K.oldNullifier)

/-- The execution does not gather while another one that shares a funding seed with it holds
spends it has not confirmed. -/
def FeeSystem.Exclusive (config : ι → FeeConfig Seed) (sys : FeeSystem K Seed ι)
    (step : ι × FeeOutcome K) : Prop :=
  ∀ round missingDust, sys.phase step.1 = .gather round missingDust →
    ∀ q, q ≠ step.1 → (sys.phase q).held ≠ [] →
      (config q).fundingSeeds.Disjoint (config step.1).fundingSeeds

/-! ### Confirming -/

lemma mem_spentUtxos_markSpent {w : DustWallet K} {spends : List K.Spend} {n : K.Nullifier} :
    n ∈ (w.markSpent spends).spentUtxos ↔ n ∈ w.spentUtxos ∨ n ∈ spends.map K.oldNullifier := by
  have h : ∀ s : Finset K.Nullifier,
      n ∈ spends.foldl (fun spent spend => insert (K.oldNullifier spend) spent) s ↔
        n ∈ s ∨ n ∈ spends.map K.oldNullifier := by
    intro s
    induction spends generalizing s with
    | nil => simp
    | cons spend spends ih =>
      rw [List.foldl_cons, ih, Finset.mem_insert, List.map_cons, List.mem_cons]
      tauto
  exact h w.spentUtxos

lemma confirmDustSpends_eq_some {wallets : Wallets K Seed} {spends : List K.Spend} {seed : Seed}
    {w' : DustWallet K} :
    confirmDustSpends wallets spends seed = some w' ↔
      ∃ w, wallets seed = some w ∧ w.markSpent spends = w' :=
  Option.map_eq_some_iff

lemma DistinctNullifiers.confirm {wallets : Wallets K Seed} (h : DistinctNullifiers wallets)
    (spends : List K.Spend) : DistinctNullifiers (confirmDustSpends wallets spends) where
  within := by
    intro seed w' hw'
    obtain ⟨w, hw, rfl⟩ := confirmDustSpends_eq_some.1 hw'
    exact h.within seed w hw
  across := by
    intro seed seed' w₁ w₂ hw₁ hw₂
    obtain ⟨w, hw, rfl⟩ := confirmDustSpends_eq_some.1 hw₁
    obtain ⟨w', hw', rfl⟩ := confirmDustSpends_eq_some.1 hw₂
    exact h.across seed seed' w w' hw hw'

/-- Every wallet of the context has marked the nullifier. -/
def Marked (wallets : Wallets K Seed) (n : K.Nullifier) : Prop :=
  ∀ seed w, wallets seed = some w → n ∈ w.spentUtxos

/-- The nullifier is that of an output of a listed wallet. -/
def Listed (wallets : Wallets K Seed) (seeds : List Seed) (n : K.Nullifier) : Prop :=
  ∃ seed ∈ seeds, ∃ w, wallets seed = some w ∧ n ∈ w.nullifiers

lemma Marked.confirm {wallets : Wallets K Seed} {n : K.Nullifier} (h : Marked wallets n)
    (spends : List K.Spend) : Marked (confirmDustSpends wallets spends) n := by
  intro seed w' hw'
  obtain ⟨w, hw, rfl⟩ := confirmDustSpends_eq_some.1 hw'
  exact mem_spentUtxos_markSpent.2 (.inl (h seed w hw))

lemma Listed.confirm {wallets : Wallets K Seed} {seeds : List Seed} {n : K.Nullifier}
    (h : Listed wallets seeds n) (spends : List K.Spend) :
    Listed (confirmDustSpends wallets spends) seeds n := by
  obtain ⟨seed, hseed, w, hw, hn⟩ := h
  exact ⟨seed, hseed, w.markSpent spends, confirmDustSpends_eq_some.2 ⟨w, hw, rfl⟩, hn⟩

lemma marked_confirmDustSpends (wallets : Wallets K Seed) {spends : List K.Spend}
    {spend : K.Spend} (hspend : spend ∈ spends) :
    Marked (confirmDustSpends wallets spends) (K.oldNullifier spend) := by
  intro seed w' hw'
  obtain ⟨w, -, rfl⟩ := confirmDustSpends_eq_some.1 hw'
  exact mem_spentUtxos_markSpent.2 (.inr (List.mem_map_of_mem hspend))

/-! ### What a step does -/

/-- An execution gathers, or it confirms what it holds, or it keeps or drops its spends. -/
lemma payFeesStep_cases (config : FeeConfig Seed) (o : FeeOutcome K) (wallets : Wallets K Seed)
    (phase : FeePhase K) :
    (∃ round missingDust spends, phase = .gather round missingDust ∧
      gatherDustSpends wallets config.fundingSeeds missingDust config.now o.params = .ok spends ∧
      payFeesStep config o wallets phase = (wallets, .estimate round missingDust spends)) ∨
    (∃ phase', payFeesStep config o wallets phase =
        (confirmDustSpends wallets phase.held, phase') ∧
      phase'.spends = phase.held ∧ phase'.held = [] ∧ phase.spends = phase.held) ∨
    (∃ phase', payFeesStep config o wallets phase = (wallets, phase') ∧
      phase'.spends.Sublist phase.spends ∧ phase'.held ⊆ phase.held ∧
      phase'.confirmed ⊆ phase.confirmed) := by
  cases phase with
  | gather round missingDust =>
    rw [payFeesStep]
    split
    · exact .inr (.inr ⟨_, rfl, List.nil_sublist _, List.nil_subset _, List.nil_subset _⟩)
    · rename_i spends hgather
      exact .inl ⟨round, missingDust, spends, rfl, hgather, rfl⟩
  | estimate round missingDust spends =>
    refine .inr (.inr ?_)
    rw [payFeesStep]
    split
    · exact ⟨_, rfl, List.nil_sublist _, List.nil_subset _, List.nil_subset _⟩
    · split
      · exact ⟨_, rfl, List.nil_sublist _, List.nil_subset _, List.nil_subset _⟩
      · exact ⟨_, rfl, List.nil_sublist _, List.nil_subset _, List.nil_subset _⟩
    · exact ⟨_, rfl, List.Sublist.refl _, List.Subset.refl _, List.nil_subset _⟩
  | confirm spends =>
    refine .inr (.inl ⟨_, rfl, ?_⟩)
    split
    · exact ⟨rfl, rfl, rfl⟩
    · exact ⟨rfl, rfl, rfl⟩
  | prove spends =>
    refine .inr (.inr ⟨_, rfl, ?_⟩)
    split
    · exact ⟨List.Sublist.refl _, List.nil_subset _, List.Subset.refl _⟩
    · exact ⟨List.nil_sublist _, List.nil_subset _, List.nil_subset _⟩
  | done result =>
    exact .inr (.inr ⟨_, rfl, List.Sublist.refl _, List.Subset.refl _, List.Subset.refl _⟩)

/-! ### The invariant -/

/-- What holds in every state that is reached with exclusive steps. -/
structure FeeSystem.Inv (config : ι → FeeConfig Seed) (sys : FeeSystem K Seed ι) : Prop where
  distinct : DistinctNullifiers sys.wallets
  nodup : ∀ p, ((sys.phase p).spends.map K.oldNullifier).Nodup
  disjoint : ∀ p q, p ≠ q →
    ((sys.phase p).spends.map K.oldNullifier).Disjoint ((sys.phase q).spends.map K.oldNullifier)
  held_listed : ∀ p, ∀ spend ∈ (sys.phase p).held,
    Listed sys.wallets (config p).fundingSeeds (K.oldNullifier spend)
  confirmed_marked : ∀ p, ∀ spend ∈ (sys.phase p).confirmed,
    Marked sys.wallets (K.oldNullifier spend)

namespace FeeSystem

variable {config : ι → FeeConfig Seed} {sys : FeeSystem K Seed ι}

lemma inv_start {wallets : Wallets K Seed} (h : DistinctNullifiers wallets) :
    Inv config (start wallets : FeeSystem K Seed ι) where
  distinct := h
  nodup _ := List.nodup_nil
  disjoint _ _ _ := List.disjoint_nil_left _
  held_listed _ _ hspend := absurd hspend List.not_mem_nil
  confirmed_marked _ _ hspend := absurd hspend List.not_mem_nil

/-- One execution changes its phase, and perhaps the wallets. -/
lemma Inv.replace [DecidableEq ι] (h : Inv config sys) (p : ι) {wallets : Wallets K Seed}
    {phase : FeePhase K}
    (hdistinct : DistinctNullifiers wallets)
    (hlisted : ∀ seeds n, Listed sys.wallets seeds n → Listed wallets seeds n)
    (hmarked : ∀ n, Marked sys.wallets n → Marked wallets n)
    (hnodup : (phase.spends.map K.oldNullifier).Nodup)
    (hdisjoint : ∀ q, q ≠ p → (phase.spends.map K.oldNullifier).Disjoint
      ((sys.phase q).spends.map K.oldNullifier))
    (hheld : ∀ spend ∈ phase.held,
      Listed wallets (config p).fundingSeeds (K.oldNullifier spend))
    (hconfirmed : ∀ spend ∈ phase.confirmed, Marked wallets (K.oldNullifier spend)) :
    Inv config ⟨wallets, Function.update sys.phase p phase⟩ where
  distinct := hdistinct
  nodup := by
    refine (Function.forall_update_iff sys.phase fun _ phase =>
      (phase.spends.map K.oldNullifier).Nodup).2 ⟨hnodup, fun q _ => ?_⟩
    exact h.nodup q
  disjoint q q' hne := by
    dsimp only
    by_cases hq : q = p
    · subst hq
      rw [Function.update_self, Function.update_of_ne hne.symm]
      exact hdisjoint q' hne.symm
    · rw [Function.update_of_ne hq]
      by_cases hq' : q' = p
      · subst hq'
        rw [Function.update_self]
        exact (hdisjoint q hq).symm
      · rw [Function.update_of_ne hq']
        exact h.disjoint q q' hne
  held_listed := by
    refine (Function.forall_update_iff sys.phase fun q phase => ∀ spend ∈ phase.held,
      Listed wallets (config q).fundingSeeds (K.oldNullifier spend)).2 ⟨hheld, ?_⟩
    intro q _ spend hspend
    exact hlisted _ _ (h.held_listed q spend hspend)
  confirmed_marked := by
    refine (Function.forall_update_iff sys.phase fun _ phase => ∀ spend ∈ phase.confirmed,
      Marked wallets (K.oldNullifier spend)).2 ⟨hconfirmed, ?_⟩
    intro q _ spend hspend
    exact hmarked _ (h.confirmed_marked q spend hspend)

/-- What is gathered is nobody else's: what others have confirmed is marked, and what they hold
is in other wallets. -/
lemma Inv.gather_disjoint (h : Inv config sys) (hK : K.Lawful) {p q : ι}
    (hexclusive : (sys.phase q).held ≠ [] →
      (config q).fundingSeeds.Disjoint (config p).fundingSeeds)
    {missingDust now : ℕ} {params : K.Parameters} {spends : List K.Spend}
    (hgather : gatherDustSpends sys.wallets (config p).fundingSeeds missingDust now params =
      .ok spends) :
    (spends.map K.oldNullifier).Disjoint ((sys.phase q).spends.map K.oldNullifier) := by
  intro n hn hn'
  obtain ⟨seed, hseed, w, hw, hlisted, hunmarked⟩ :=
    mem_unmarkedOf.1 ((gatherDustSpends_sublist hK hgather).subset hn)
  obtain ⟨spend, hspend, rfl⟩ := List.mem_map.1 hn'
  rcases FeePhase.mem_spends.1 hspend with hheld | hconfirmed
  · obtain ⟨seed', hseed', w', hw', hlisted'⟩ := h.held_listed q spend hheld
    have hdisjoint := hexclusive (List.ne_nil_of_mem hheld)
    have hseeds : seed ≠ seed' := by
      rintro rfl
      exact hdisjoint hseed' hseed
    exact h.distinct.across seed seed' w w' hw hw' hseeds hlisted hlisted'
  · exact hunmarked (h.confirmed_marked q spend hconfirmed seed w hw)

lemma Inv.next [DecidableEq ι] (h : Inv config sys) (hK : K.Lawful)
    (hseeds : ∀ p, (config p).fundingSeeds.Nodup) {step : ι × FeeOutcome K}
    (hstep : Exclusive config sys step) : Inv config (sys.next config step) := by
  obtain ⟨p, o⟩ := step
  rw [FeeSystem.next]
  dsimp only
  rcases payFeesStep_cases (config p) o sys.wallets (sys.phase p) with
    ⟨round, missingDust, spends, hphase, hgather, heq⟩ | ⟨phase', heq, hspends, hheld, hall⟩ |
    ⟨phase', heq, hspends, hheld, hconfirmed⟩
  · have hsub := gatherDustSpends_sublist hK hgather
    rw [heq]
    refine h.replace p h.distinct (fun _ _ hn => hn) (fun _ hn => hn) ?_ ?_ ?_ ?_
    · exact (h.distinct.nodup_unmarkedOf (hseeds p)).sublist hsub
    · intro q hq
      exact h.gather_disjoint hK (hstep round missingDust hphase q hq) hgather
    · intro spend hspend
      obtain ⟨seed, hseed, w, hw, hn, -⟩ :=
        mem_unmarkedOf.1 (hsub.subset (List.mem_map_of_mem hspend))
      exact ⟨seed, hseed, w, hw, hn⟩
    · exact fun spend hspend => absurd hspend List.not_mem_nil
  · rw [heq]
    refine h.replace p (h.distinct.confirm _) (fun _ _ hn => hn.confirm _)
      (fun _ hn => hn.confirm _) ?_ ?_ ?_ ?_
    · rw [hspends, ← hall]
      exact h.nodup p
    · intro q hq
      rw [hspends, ← hall]
      exact h.disjoint p q hq.symm
    · rw [hheld]
      exact fun spend hspend => absurd hspend List.not_mem_nil
    · intro spend hspend
      refine marked_confirmDustSpends sys.wallets ?_
      rw [← hspends]
      exact FeePhase.mem_spends.2 (.inr hspend)
  · rw [heq]
    refine h.replace p h.distinct (fun _ _ hn => hn) (fun _ hn => hn) ?_ ?_ ?_ ?_
    · exact (h.nodup p).sublist (hspends.map _)
    · intro q hq n hn
      exact h.disjoint p q hq.symm ((hspends.map _).subset hn)
    · exact fun spend hspend => h.held_listed p spend (hheld hspend)
    · exact fun spend hspend => h.confirmed_marked p spend (hconfirmed hspend)

lemma Inv.run [DecidableEq ι] (h : Inv config sys) (hK : K.Lawful)
    (hseeds : ∀ p, (config p).fundingSeeds.Nodup) {steps : List (ι × FeeOutcome K)}
    (hsteps : AtEachStep (FeeSystem.next config) (Exclusive config) sys steps) :
    Inv config (steps.foldl (FeeSystem.next config) sys) := by
  induction steps generalizing sys with
  | nil => exact h
  | cons step steps ih => exact ih (h.next hK hseeds hsteps.1) hsteps.2

lemma Inv.noDoubleSpend (h : Inv config sys) : NoDoubleSpend sys where
  within p spends hp := by
    have hnodup := h.nodup p
    rw [hp] at hnodup
    exact hnodup
  across p q spends spends' hne hp hq := by
    have hdisjoint := h.disjoint p q hne
    rw [hp, hq] at hdisjoint
    exact hdisjoint

/-- Let the funding seeds of each execution be different, and let no execution gather while
another one that shares a funding seed with it holds spends it has not confirmed.  Then the
transactions that were returned spend different outputs, in every state. -/
theorem noDoubleSpend_of_exclusive [DecidableEq ι] (hK : K.Lawful)
    (config : ι → FeeConfig Seed) (hseeds : ∀ p, (config p).fundingSeeds.Nodup)
    (wallets : Wallets K Seed) (hdistinct : DistinctNullifiers wallets)
    (steps : List (ι × FeeOutcome K))
    (hsteps : AtEachStep (FeeSystem.next config) (Exclusive config) (start wallets) steps) :
    NoDoubleSpend (steps.foldl (FeeSystem.next config) (start wallets)) :=
  ((inv_start hdistinct).run hK hseeds hsteps).noDoubleSpend

/-! ### Two executions -/

/-- An execution of the small wallets that pays from both of them. -/
def fromBoth : FeeConfig Bool := ⟨[false, true], 0, false⟩

/-- An execution of the small wallets that pays from the first of them. -/
def fromFirst : FeeConfig Bool := ⟨[false], 0, true⟩

/-- Each of two executions, one of them from both wallets. -/
def twoPayments : Bool → FeeConfig Bool
  | false => fromFirst
  | true => fromBoth

/-- The steps of an execution to its end, with three DUST missing after the first round. -/
def payThree (p : Bool) : List (Bool × FeeOutcome smallDust) :=
  [none, some 3, none, none, none, none].map fun missing => (p, ⟨(), some missing, true⟩)

/-- The steps of an execution until it holds spends for three DUST. -/
def holdThree (p : Bool) : List (Bool × FeeOutcome smallDust) :=
  (payThree p).take 3

/-- Both executions gather before one of them confirms, and both spend the same output. -/
theorem not_noDoubleSpend_of_overlap :
    ¬ NoDoubleSpend ((holdThree false ++ holdThree true ++ (payThree false).drop 3 ++
      (payThree true).drop 3).foldl (FeeSystem.next twoPayments) (start smallWallets)) := by
  intro h
  exact h.across false true [((10, 3), 3)] [((10, 3), 3)] (by decide) rfl rfl
    List.mem_cons_self List.mem_cons_self

/-- One after the other, the executions spend different outputs. -/
theorem noDoubleSpend_one_after_the_other :
    let sys := (payThree false ++ payThree true).foldl (FeeSystem.next twoPayments)
      (start smallWallets)
    sys.phase false = .done (.ok [((10, 3), 3)]) ∧ sys.phase true = .done (.ok [((20, 1), 3)]) ∧
      NoDoubleSpend sys := by
  refine ⟨rfl, rfl, ?_⟩
  refine noDoubleSpend_of_exclusive smallDust_lawful twoPayments ?_ smallWallets
    smallWallets_distinct _ ?_
  · intro p
    cases p <;> decide
  · refine ⟨?_, ?_, ?_, ?_, ?_, ?_, ?_, ?_, ?_, ?_, ?_, ?_, trivial⟩
    all_goals
      intro round missingDust hphase q hq hheld
      cases q
      all_goals first | exact absurd rfl hq | exact absurd rfl hheld

end FeeSystem

end MidnightNode.Toolkit
