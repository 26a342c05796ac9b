/-
# Members, keys and references over a run

Genesis gives each body its members, then every block carries one `reset_members`.  Three things
are kept in different places and have to stay together: the members of a body (in its membership
pallet and in its collective), their identifiers on Cardano (in the observation pallet) and the
references that `MembershipHandler` holds on the accounts of both bodies (in the `sufficients` of
the system, one counter for the two).

What carries the proof is that the walk of `compute_members_diff_sorted` along two sorted lists
gives their differences as multisets: then what is counted for a body before a reset is what its
old members are worth, and afterwards what the new ones are.
-/
import MidnightNode.Governance.Observation
import MidnightNode.Lib.Groups

namespace MidnightNode.Governance.Observation

open StorageLayer

variable {T : Config}

/-! ### Genesis -/

/-- `initialize_members` of a collective, which refuses to be initialized twice. -/
def Collective.initializeMembers (body : GovernanceBody) (members : List T.AccountId)
    (s : State T) : Option (State T) :=
  if members = [] then some s
  else if (s.bodies body).collectiveMembers = [] then
    some (s.setBody body
      { s.bodies body with collectiveMembers := members.insertionSort (· ≤ ·) })
  else none

/-- `MembershipHandler::initialize_members`. -/
def MembershipHandler.initializeMembers (body : GovernanceBody) (members : List T.AccountId)
    (s : State T) : Option (State T) :=
  (Collective.initializeMembers body members s).map fun s =>
    { s with sufficients := members.foldl incSufficients s.sufficients }

/-- The genesis of the membership pallet of a body, which panics on a repeated account. -/
def Membership.genesisBuild (body : GovernanceBody)
    (members : BoundedVec T.AccountId (T.maxMembers body)) (s : State T) : Option (State T) :=
  if members.1.Nodup then
    let sorted := members.1.insertionSort (· ≤ ·)
    (MembershipHandler.initializeMembers body sorted s).map fun s =>
      s.setBody body { s.bodies body with
        members := ⟨sorted, (members.1.length_insertionSort _).trans_le members.2⟩ }
  else none

/-- The genesis of the membership pallets and of the observation pallet. -/
structure GenesisConfig (T : Config) where
  /-- `members` of the two membership pallets. -/
  members : (body : GovernanceBody) → BoundedVec T.AccountId (T.maxMembers body)
  /-- `council_address` and `technical_committee_address`. -/
  address : GovernanceBody → MainchainAddress
  /-- `council_policy_id` and `technical_committee_policy_id`. -/
  policyId : GovernanceBody → PolicyId
  /-- `council_members_mainchain` and `technical_committee_members_mainchain`. -/
  membersMainchain : GovernanceBody → List MainchainMember

/-- The identifiers of a body at genesis, which panics when there are too many. -/
def setMainchainMembers (body : GovernanceBody) (membersMainchain : List MainchainMember)
    (s : State T) : Option (State T) :=
  if h : membersMainchain.length ≤ T.maxMembers body then
    some (s.setBody body { s.bodies body with mainchainMembers := ⟨membersMainchain, h⟩ })
  else none

/-- The genesis of the observation pallet. -/
def genesisBuild (g : GenesisConfig T) (s : State T) : Option (State T) := do
  let s := { s with mainChainAddress := g.address, mainChainPolicyId := g.policyId }
  let s ← setMainchainMembers .council (g.membersMainchain .council) s
  setMainchainMembers .technicalCommittee (g.membersMainchain .technicalCommittee) s

/-- The genesis of the three pallets, on accounts with the given `sufficients`. -/
def genesis (g : GenesisConfig T) (sufficients : T.AccountId → ℕ) : Option (State T) := do
  let s ← Membership.genesisBuild .council (g.members .council)
    { emptyState T with sufficients := sufficients }
  let s ← Membership.genesisBuild .technicalCommittee (g.members .technicalCommittee) s
  genesisBuild g s

/-! ### Runs -/

/-- A block: its inherent, then `on_finalize`. -/
def block (authorities : Authorities T) (s : State T) : State T :=
  onFinalize (execute .none (.resetMembers authorities) s).1

/-- A sequence of blocks. -/
def run (blocks : List (Authorities T)) (s : State T) : State T :=
  blocks.foldl (fun s authorities => block authorities s) s

/-- An inherent with an empty list is ignored. -/
def isObserved (authorities : Authorities T) : Bool :=
  !(authorities .council).1.isEmpty && !(authorities .technicalCommittee).1.isEmpty

/-- The last authorities that were not ignored. -/
def lastObserved (blocks : List (Authorities T)) : Option (Authorities T) :=
  (blocks.filter isObserved).getLast?

lemma run_append_singleton (blocks : List (Authorities T)) (authorities : Authorities T)
    (s : State T) : run (blocks ++ [authorities]) s = block authorities (run blocks s) := by
  simp [run]

lemma isObserved_iff {authorities : Authorities T} :
    isObserved authorities = true ↔ ∀ body, (authorities body).1 ≠ [] := by
  simp only [isObserved, Bool.and_eq_true, Bool.not_eq_true', List.isEmpty_eq_false_iff]
  constructor
  · rintro ⟨hcouncil, htechnicalCommittee⟩ body
    cases body with
    | council => exact hcouncil
    | technicalCommittee => exact htechnicalCommittee
  · exact fun h => ⟨h _, h _⟩

lemma lastObserved_append_of_isObserved (blocks : List (Authorities T))
    {authorities : Authorities T} (h : isObserved authorities = true) :
    lastObserved (blocks ++ [authorities]) = some authorities := by
  simp [lastObserved, h]

lemma lastObserved_append_of_ignored (blocks : List (Authorities T))
    {authorities : Authorities T} (h : isObserved authorities = false) :
    lastObserved (blocks ++ [authorities]) = lastObserved blocks := by
  simp [lastObserved, h]

/-! ### References -/

section References

variable {α : Type} [LinearOrder α]

lemma foldl_incSufficients (l : List α) (sufficients : α → ℕ) {a : α}
    (h : sufficients a + l.count a < 2 ^ 32) :
    l.foldl incSufficients sufficients a = sufficients a + l.count a := by
  induction l generalizing sufficients with
  | nil => rfl
  | cons who l ih =>
    by_cases hwho : who = a
    · subst hwho
      rw [List.count_cons_self] at h ⊢
      have hone : incSufficients sufficients who who = sufficients who + 1 := by
        rw [incSufficients, Function.update_self]
        omega
      rw [List.foldl_cons, ih _ (by omega), hone]
      omega
    · rw [List.count_cons_of_ne hwho] at h ⊢
      have hsame : incSufficients sufficients who a = sufficients a :=
        Function.update_of_ne (Ne.symm hwho) ..
      rw [List.foldl_cons, ih _ (by omega), hsame]

lemma foldl_decSufficients (l : List α) (sufficients : α → ℕ) (a : α) :
    l.foldl decSufficients sufficients a = sufficients a - l.count a := by
  induction l generalizing sufficients with
  | nil => rfl
  | cons who l ih =>
    rw [List.foldl_cons, ih]
    by_cases hwho : who = a
    · subst hwho
      rw [List.count_cons_self, decSufficients, Function.update_self]
      omega
    · rw [List.count_cons_of_ne hwho, decSufficients, Function.update_of_ne (Ne.symm hwho)]

/-- Two lists of coming and going members that make the difference between `old` and `new`, and
no account both comes and goes. -/
structure Differ (new old : List α) (diff : List α × List α) (a : α) : Prop where
  balance : new.count a + diff.2.count a = old.count a + diff.1.count a
  disjoint : diff.1.count a = 0 ∨ diff.2.count a = 0

section Walk

variable {new old : List α} {diff : List α × List α} {a : α}

/-- A member that stays. -/
lemma Differ.stays (h : Differ new old diff a) (who : α) :
    Differ (who :: new) (who :: old) diff a := by
  obtain ⟨hbalance, hdisjoint⟩ := h
  refine ⟨?_, hdisjoint⟩
  rw [List.count_cons, List.count_cons]
  omega

/-- A member that goes, and is not among the new ones. -/
lemma Differ.goes (h : Differ new old diff a) {who : α} (habsent : new.count who = 0) :
    Differ new (who :: old) (diff.1, who :: diff.2) a := by
  obtain ⟨hbalance, hdisjoint⟩ := h
  by_cases hwho : who = a
  · subst hwho
    refine ⟨?_, .inl (show diff.1.count who = 0 by omega)⟩
    rw [List.count_cons_self, List.count_cons_self]
    show _ = _ + 1 + diff.1.count who
    omega
  · refine ⟨?_, ?_⟩ <;> rw [List.count_cons_of_ne hwho]
    · rwa [List.count_cons_of_ne hwho]
    · exact hdisjoint

/-- A member that comes, and is not among the old ones. -/
lemma Differ.comes (h : Differ new old diff a) {who : α} (habsent : old.count who = 0) :
    Differ (who :: new) old (who :: diff.1, diff.2) a := by
  have hswap : Differ old new diff.swap a := ⟨h.balance.symm, h.disjoint.symm⟩
  have hgoes := hswap.goes habsent
  exact ⟨hgoes.balance.symm, hgoes.disjoint.symm⟩

/-- What is before a sorted list is not in it. -/
lemma count_eq_zero_of_lt {first who : α} {l : List α} (hl : (first :: l).Pairwise (· ≤ ·))
    (hlt : who < first) : (first :: l).count who = 0 := by
  refine List.count_eq_zero.2 fun hmem => ?_
  rcases List.mem_cons.1 hmem with rfl | hmem
  · exact lt_irrefl _ hlt
  · exact absurd ((List.pairwise_cons.1 hl).1 who hmem) (not_le.2 hlt)

/-- The walk along the rest of the new members, for an old member `o` in front. -/
lemma differ_membersDiffFrom {o : α} {rest : List α → List α × List α}
    (hold : (o :: old).Pairwise (· ≤ ·))
    (hrest : ∀ new : List α, new.Pairwise (· ≤ ·) → Differ new old (rest new) a)
    (new : List α) (hnew : new.Pairwise (· ≤ ·)) :
    Differ new (o :: old) (membersDiffFrom o old rest new) a := by
  induction new with
  | nil => exact ⟨by simp [membersDiffFrom], .inl (by simp [membersDiffFrom])⟩
  | cons n new ih =>
    have htail := (List.pairwise_cons.1 hnew).2
    rw [membersDiffFrom]
    split
    · rename_i heq
      subst heq
      exact (hrest new htail).stays o
    · rename_i hne
      split
      · rename_i hlt
        exact (hrest (n :: new) hnew).goes (count_eq_zero_of_lt hnew hlt)
      · rename_i hnot
        have hlt : n < o := lt_of_le_of_ne (not_lt.1 hnot) (Ne.symm hne)
        exact (ih htail).comes (count_eq_zero_of_lt hold hlt)

end Walk

/-- `compute_members_diff_sorted` gives the differences of the two lists as multisets. -/
lemma differ_computeMembersDiffSorted {new old : List α} (hnew : new.Pairwise (· ≤ ·))
    (hold : old.Pairwise (· ≤ ·)) (a : α) :
    Differ new old (computeMembersDiffSorted new old) a := by
  induction old generalizing new with
  | nil => exact ⟨by simp [computeMembersDiffSorted], .inr (by simp [computeMembersDiffSorted])⟩
  | cons o old ih =>
    have htail := (List.pairwise_cons.1 hold).2
    exact differ_membersDiffFrom hold (fun new hnew => ih hnew htail) new hnew

/-- Counting the coming and the going members replaces what the old ones are worth by what the new
ones are. -/
lemma foldl_sufficients {new old : List α} (hnew : new.Pairwise (· ≤ ·))
    (hold : old.Pairwise (· ≤ ·)) {sufficients : α → ℕ} {a : α} {k : ℕ}
    (hcounted : sufficients a = k + old.count a) (hfitsOld : k + old.count a < 2 ^ 32)
    (hfitsNew : k + new.count a < 2 ^ 32) :
    (computeMembersDiffSorted new old).2.foldl decSufficients
        ((computeMembersDiffSorted new old).1.foldl incSufficients sufficients) a =
      k + new.count a := by
  obtain ⟨hbalance, hdisjoint⟩ := differ_computeMembersDiffSorted hnew hold a
  rw [foldl_decSufficients, foldl_incSufficients _ _ (by omega)]
  omega

end References

/-- The occurrences of an account among the members of both bodies. -/
def references (s : State T) (account : T.AccountId) : ℕ :=
  (s.bodies .council).members.1.count account +
    (s.bodies .technicalCommittee).members.1.count account

lemma count_members_le (s : State T) (body : GovernanceBody) (account : T.AccountId) :
    (s.bodies body).members.1.count account ≤ T.maxMembers body :=
  List.count_le_length.trans (s.bodies body).members.2

/-! ### One body -/

section OneBody

variable {body : GovernanceBody} {s : State T}

/-- A reset through the handlers counts the difference to the members stored. -/
lemma setMembersSorted_sufficients {new : List T.AccountId} (hsorted : new.Pairwise (· ≤ ·))
    (hlen : new.length ≤ T.maxMembers body) (old : List T.AccountId) :
    (setMembersSorted (MembershipObservationHandler.changeMembersSorted body) new old
        s).sufficients =
      (computeMembersDiffSorted new (s.bodies body).members.1).2.foldl decSufficients
        ((computeMembersDiffSorted new (s.bodies body).members.1).1.foldl incSufficients
          s.sufficients) := by
  have hsort : new.insertionSort (· ≤ ·) = new := hsorted.insertionSort_eq
  simp [setMembersSorted, MembershipObservationHandler.changeMembersSorted, withStorageLayer,
    Membership.resetMembers, hlen, MembershipHandler.changeMembersSorted, hsort, State.setBody]

/-- The update of the members counts the new ones in place of the old ones. -/
lemma updateMembers_sufficients {new : BoundedVec T.AccountId (T.maxMembers body)}
    (hnew : new.1.Pairwise (· ≤ ·)) (hold : (s.bodies body).members.1.Pairwise (· ≤ ·))
    {account : T.AccountId} {k : ℕ} (hfits : k + T.maxMembers body < 2 ^ 32)
    (hcounted : s.sufficients account = k + (s.bodies body).members.1.count account) :
    (updateMembers body new.1 s).1.sufficients account = k + new.1.count account := by
  have hcountNew : new.1.count account ≤ T.maxMembers body := List.count_le_length.trans new.2
  have hcountOld := count_members_le s body account
  rw [updateMembers]
  split
  · rw [setMembersSorted_sufficients hnew new.2]
    exact foldl_sufficients hnew hold hcounted (by omega) (by omega)
  · rename_i hsame
    have hcurrent : (s.bodies body).members.1 = new.1 := not_not.1 hsame
    rw [hcounted, hcurrent]

lemma updateMainchainMembers_sufficients
    (new : BoundedVec MainchainMember (T.maxMembers body)) :
    (updateMainchainMembers body new s).1.sufficients = s.sufficients := by
  rw [updateMainchainMembers]
  split <;> rfl

lemma resetBody_sufficients
    (authorities : BoundedVec (T.AccountId × MainchainMember) (T.maxMembers body))
    (hold : (s.bodies body).members.1.Pairwise (· ≤ ·)) (account : T.AccountId) (k : ℕ)
    (hfits : k + T.maxMembers body < 2 ^ 32)
    (hcounted : s.sufficients account = k + (s.bodies body).members.1.count account) :
    (resetBody body authorities s).1.sufficients account =
      k + ((resetBody body authorities s).1.bodies body).members.1.count account := by
  have hupdate := updateMembers_sufficients (sortedAccounts_sorted authorities) hold hfits hcounted
  have hreset : (resetBody body authorities s).1.sufficients =
      (updateMembers body (sortedAccounts authorities).1 s).1.sufficients := by
    refine Eq.trans ?_ (updateMainchainMembers_sufficients (sortedMainchainMembers authorities))
    simp only [resetBody]
    split <;> rfl
  rw [hreset, hupdate, (resetBody_installed body authorities s).members]

/-- The step of a body does nothing where its pairs are installed. -/
lemma resetBody_of_installed
    {authorities : BoundedVec (T.AccountId × MainchainMember) (T.maxMembers body)}
    (hmembers : (s.bodies body).members = sortedAccounts authorities)
    (hmainchain : (s.bodies body).mainchainMembers = sortedMainchainMembers authorities) :
    resetBody body authorities s = (s, false) := by
  have hcurrent : MembershipObservationHandler.sortedMembers body s =
      (sortedAccounts authorities).1 := congrArg Subtype.val hmembers
  simp [resetBody, updateMembers, hcurrent, updateMainchainMembers, hmainchain]

end OneBody

/-! ### What every block keeps -/

/-- The members of each body are sorted and they are those who vote; every account has a reference
for each of its seats, on top of the `base` that others hold. -/
structure Referenced (base : T.AccountId → ℕ) (s : State T) : Prop where
  sorted : ∀ body, (s.bodies body).members.1.Pairwise (· ≤ ·)
  voting : ∀ body, (s.bodies body).collectiveMembers = (s.bodies body).members.1
  counted : ∀ account, s.sufficients account = base account + references s account

/-- The references fit their counter, whatever the members. -/
def Fits (T : Config) (base : T.AccountId → ℕ) : Prop :=
  ∀ account, base account + (T.maxMembers .council + T.maxMembers .technicalCommittee) < 2 ^ 32

section Blocks

variable {base : T.AccountId → ℕ} {s : State T} {authorities : Authorities T}

lemma Referenced.resetBody (h : Referenced base s) (hfits : Fits T base) (body : GovernanceBody)
    (authorities : BoundedVec (T.AccountId × MainchainMember) (T.maxMembers body)) :
    Referenced base (resetBody body authorities s).1 where
  sorted := by
    intro other
    by_cases hother : other = body
    · subst hother
      rw [(resetBody_installed other authorities s).members]
      exact sortedAccounts_sorted authorities
    · rw [resetBody_bodies_of_ne hother]
      exact h.sorted other
  voting := by
    intro other
    by_cases hother : other = body
    · subst hother
      rw [resetBody_bodies, updateMainchainMembers_bodies_self,
        updateMembers_bodies_self (sortedAccounts_sorted authorities)]
      split
      · rename_i hsame
        exact (h.voting other).trans (congrArg Subtype.val hsame)
      · rfl
    · rw [resetBody_bodies_of_ne hother]
      exact h.voting other
  counted := by
    intro account
    have hfits := hfits account
    have hcounted := h.counted account
    have hcouncil := count_members_le s .council account
    have htechnicalCommittee := count_members_le s .technicalCommittee account
    rw [references] at hcounted ⊢
    cases body with
    | council =>
      have hreset := resetBody_sufficients authorities (h.sorted .council) account
        (base account + (s.bodies .technicalCommittee).members.1.count account)
        (by omega) (by omega)
      have hne : GovernanceBody.technicalCommittee ≠ .council := by decide
      rw [resetBody_bodies_of_ne hne]
      omega
    | technicalCommittee =>
      have hreset := resetBody_sufficients authorities (h.sorted .technicalCommittee) account
        (base account + (s.bodies .council).members.1.count account)
        (by omega) (by omega)
      have hne : GovernanceBody.council ≠ .technicalCommittee := by decide
      rw [resetBody_bodies_of_ne hne]
      omega

/-- An ignored inherent does nothing but set its flag. -/
lemma execute_resetMembers_of_ignored (hfresh : s.inherentExecutedThisBlock = false)
    (hignored : isObserved authorities = false) :
    (execute .none (.resetMembers authorities) s).1 =
      { s with inherentExecutedThisBlock := true } := by
  by_cases hcouncil : (authorities .council).1 = []
  · simp [execute, dispatch, resetMembers, withStorageLayer, hfresh, hcouncil]
  · have htechnicalCommittee : (authorities .technicalCommittee).1 = [] := by
      simpa [isObserved, hcouncil] using hignored
    simp [execute, dispatch, resetMembers, withStorageLayer, hfresh, hcouncil,
      htechnicalCommittee]

/-- An inherent with the authorities that are installed does nothing but set its flag. -/
lemma execute_resetMembers_of_installed (hfresh : s.inherentExecutedThisBlock = false)
    (hobserved : isObserved authorities = true)
    (hmembers : ∀ body, (s.bodies body).members = sortedAccounts (authorities body))
    (hmainchain : ∀ body,
      (s.bodies body).mainchainMembers = sortedMainchainMembers (authorities body)) :
    (execute .none (.resetMembers authorities) s).1 =
      { s with inherentExecutedThisBlock := true } := by
  have hreset (body) : resetBody body (authorities body)
      { s with inherentExecutedThisBlock := true } =
        ({ s with inherentExecutedThisBlock := true }, false) :=
    resetBody_of_installed (hmembers body) (hmainchain body)
  rw [execute_resetMembers_of_ne_nil hfresh (isObserved_iff.1 hobserved), hreset .council,
    hreset .technicalCommittee]

@[simp] lemma block_fresh : (block authorities s).inherentExecutedThisBlock = false :=
  rfl

/-- A block with an ignored inherent leaves everything as it is. -/
lemma block_of_ignored (hfresh : s.inherentExecutedThisBlock = false)
    (hignored : isObserved authorities = false) : block authorities s = s := by
  rw [block, execute_resetMembers_of_ignored hfresh hignored]
  cases s
  simp_all [onFinalize]

lemma block_installed (hfresh : s.inherentExecutedThisBlock = false)
    (hobserved : isObserved authorities = true) (body : GovernanceBody) :
    Installed (authorities body) (s.bodies body) ((block authorities s).bodies body) :=
  execute_installed hfresh (isObserved_iff.1 hobserved) body

lemma Referenced.block (h : Referenced base s) (hfits : Fits T base)
    (hfresh : s.inherentExecutedThisBlock = false) : Referenced base (block authorities s) := by
  cases hobserved : isObserved authorities with
  | false =>
    rw [block_of_ignored hfresh hobserved]
    exact h
  | true =>
    have hflag : Referenced base { s with inherentExecutedThisBlock := true } :=
      ⟨h.sorted, h.voting, h.counted⟩
    have hboth := (hflag.resetBody hfits .council (authorities .council)).resetBody hfits
      .technicalCommittee (authorities .technicalCommittee)
    rw [Observation.block, execute_resetMembers_of_ne_nil hfresh (isObserved_iff.1 hobserved)]
    exact ⟨hboth.sorted, hboth.voting, hboth.counted⟩

/-- The same inherent again does nothing but set its flag. -/
lemma execute_resetMembers_block (hfresh : s.inherentExecutedThisBlock = false) :
    (execute .none (.resetMembers authorities) (block authorities s)).1 =
      { block authorities s with inherentExecutedThisBlock := true } := by
  cases hobserved : isObserved authorities with
  | false => exact execute_resetMembers_of_ignored block_fresh hobserved
  | true =>
    exact execute_resetMembers_of_installed block_fresh hobserved
      (fun body => (block_installed hfresh hobserved body).members)
      (fun body => (block_installed hfresh hobserved body).mainchainMembers)

end Blocks

/-! ### The pairs of a body -/

/-- The members of a body and their identifiers are the given pairs, by account. -/
structure Aligned {body : GovernanceBody} (pairs : List (T.AccountId × MainchainMember))
    (b : BodyState T body) : Prop where
  length_eq : b.members.1.length = b.mainchainMembers.1.length
  perm : (b.members.1.zip b.mainchainMembers.1).Perm pairs
  sorted : b.members.1.Pairwise (· ≤ ·)

lemma Installed.aligned {body : GovernanceBody}
    {authorities : BoundedVec (T.AccountId × MainchainMember) (T.maxMembers body)}
    {before after : BodyState T body} (h : Installed authorities before after) :
    Aligned authorities.1 after := by
  refine ⟨?_, ?_, ?_⟩
  · rw [h.members, h.mainchainMembers, sortedAccounts, sortedMainchainMembers, List.length_map,
      List.length_map]
  · have hzip : after.members.1.zip after.mainchainMembers.1 = sortByAccount authorities.1 := by
      have hunzip := List.zip_unzip (sortByAccount authorities.1)
      rw [List.unzip_eq_map] at hunzip
      rw [h.members, h.mainchainMembers]
      exact hunzip
    rw [hzip]
    exact List.perm_insertionSort _ _
  · rw [h.members]
    exact sortedAccounts_sorted authorities

/-- One list of pairs is a rearrangement of the other that keeps the order of the pairs of each
account. -/
def Rearranged (pairs pairs' : List (T.AccountId × MainchainMember)) : Prop :=
  ∀ account, pairs.filter (fun pair => pair.1 = account) =
    pairs'.filter (fun pair => pair.1 = account)

lemma Rearranged.sortByAccount {pairs pairs' : List (T.AccountId × MainchainMember)}
    (h : Rearranged pairs pairs') : sortByAccount pairs = sortByAccount pairs' :=
  Groups.insertionSort_eq_of_filter_key_eq h

/-- Pairs with distinct accounts may be permuted. -/
lemma rearranged_of_perm {pairs pairs' : List (T.AccountId × MainchainMember)}
    (h : pairs.Perm pairs') (hnodup : (pairs.map Prod.fst).Nodup) : Rearranged pairs pairs' :=
  Groups.filter_key_eq_of_perm h hnodup

/-- `reset_members` depends on the sorted pairs only. -/
lemma execute_resetMembers_congr {authorities authorities' : Authorities T}
    (h : ∀ body, Rearranged (authorities body).1 (authorities' body).1)
    (origin : RawOrigin T.AccountId) (s : State T) :
    execute origin (.resetMembers authorities) s =
      execute origin (.resetMembers authorities') s := by
  have haccounts (body) : sortedAccounts (authorities body) = sortedAccounts (authorities' body) :=
    Subtype.ext (congrArg (List.map Prod.fst) (h body).sortByAccount)
  have hmainchain (body) : sortedMainchainMembers (authorities body) =
      sortedMainchainMembers (authorities' body) :=
    Subtype.ext (congrArg (List.map Prod.snd) (h body).sortByAccount)
  have hreset (body) (s : State T) : resetBody body (authorities body) s =
      resetBody body (authorities' body) s := by
    simp only [resetBody, haccounts, hmainchain]
  have hbody : resetMembers origin authorities = resetMembers origin authorities' := by
    funext s
    simp only [resetMembers, haccounts, hmainchain, hreset]
  rw [execute, execute, dispatch, dispatch, hbody]

/-! ### From genesis -/

/-- The genesis of a body: its sorted members vote and are counted. -/
lemma Membership.genesisBuild_eq_some {body : GovernanceBody}
    {members : BoundedVec T.AccountId (T.maxMembers body)} {s s' : State T}
    (hempty : (s.bodies body).collectiveMembers = [])
    (h : Membership.genesisBuild body members s = some s') :
    s'.bodies body = { s.bodies body with
        members := ⟨members.1.insertionSort (· ≤ ·),
          (members.1.length_insertionSort _).trans_le members.2⟩
        collectiveMembers := members.1.insertionSort (· ≤ ·) } ∧
      (∀ other, other ≠ body → s'.bodies other = s.bodies other) ∧
      s'.sufficients = (members.1.insertionSort (· ≤ ·)).foldl incSufficients s.sufficients ∧
      s'.inherentExecutedThisBlock = s.inherentExecutedThisBlock := by
  rw [Membership.genesisBuild] at h
  split at h
  · simp only [MembershipHandler.initializeMembers, Collective.initializeMembers, hempty, if_true,
      Option.map_map, Option.map_eq_some_iff] at h
    obtain ⟨s₁, hs₁, rfl⟩ := h
    split at hs₁
    · -- no members: the collective stays empty
      rename_i hnil
      cases hs₁
      refine ⟨?_, fun other hne => State.setBody_bodies_of_ne _ hne _, rfl, rfl⟩
      simp [hnil, ← hempty]
    · rename_i hnil
      cases hs₁
      refine ⟨?_, fun other hne => ?_, rfl, rfl⟩
      · have hsort := (List.pairwise_insertionSort (· ≤ ·) members.1).insertionSort_eq
        simp [State.setBody, hsort]
      · simp [State.setBody, Function.update_of_ne hne]
  · cases h

/-- The genesis of the observation pallet sets nothing but identifiers. -/
lemma genesisBuild_eq_some {g : GenesisConfig T} {s s' : State T}
    (h : genesisBuild g s = some s') :
    (∀ body, (s'.bodies body).members = (s.bodies body).members ∧
        (s'.bodies body).collectiveMembers = (s.bodies body).collectiveMembers) ∧
      s'.sufficients = s.sufficients ∧
      s'.inherentExecutedThisBlock = s.inherentExecutedThisBlock := by
  simp only [genesisBuild, setMainchainMembers, Option.bind_eq_bind, Option.bind_eq_some_iff] at h
  obtain ⟨s₁, hcouncil, htechnicalCommittee⟩ := h
  split at hcouncil
  · cases hcouncil
    split at htechnicalCommittee
    · cases htechnicalCommittee
      refine ⟨fun body => ?_, rfl, rfl⟩
      cases body <;> exact ⟨rfl, rfl⟩
    · cases htechnicalCommittee
  · cases hcouncil

/-- Genesis: both lists of each body are its sorted members, and those of both bodies are
counted. -/
lemma genesis_eq_some {g : GenesisConfig T} {base : T.AccountId → ℕ} {start : State T}
    (h : genesis g base = some start) :
    (∀ body, (start.bodies body).members.1 = (g.members body).1.insertionSort (· ≤ ·) ∧
        (start.bodies body).collectiveMembers = (g.members body).1.insertionSort (· ≤ ·)) ∧
      start.sufficients = ((g.members .technicalCommittee).1.insertionSort (· ≤ ·)).foldl
        incSufficients (((g.members .council).1.insertionSort (· ≤ ·)).foldl incSufficients base) ∧
      start.inherentExecutedThisBlock = false := by
  simp only [genesis, Option.bind_eq_bind, Option.bind_eq_some_iff] at h
  obtain ⟨s₁, hcouncil, s₂, htechnicalCommittee, hstart⟩ := h
  obtain ⟨hbody₁, hother₁, hsufficients₁, hfresh₁⟩ := Membership.genesisBuild_eq_some rfl hcouncil
  have hempty : (s₁.bodies .technicalCommittee).collectiveMembers = [] := by
    rw [hother₁ .technicalCommittee (by decide)]
    rfl
  obtain ⟨hbody₂, hother₂, hsufficients₂, hfresh₂⟩ :=
    Membership.genesisBuild_eq_some hempty htechnicalCommittee
  obtain ⟨hbodies, hsufficients, hfresh⟩ := genesisBuild_eq_some hstart
  refine ⟨fun body => ?_, ?_, ?_⟩
  · rw [(hbodies body).1, (hbodies body).2]
    cases body with
    | council =>
      rw [hother₂ .council (by decide), hbody₁]
      exact ⟨rfl, rfl⟩
    | technicalCommittee =>
      rw [hbody₂]
      exact ⟨rfl, rfl⟩
  · rw [hsufficients, hsufficients₂, hsufficients₁]
  · rw [hfresh, hfresh₂, hfresh₁]
    rfl

/-- Genesis counts every member, on top of what was counted before. -/
lemma genesis_referenced {g : GenesisConfig T} {base : T.AccountId → ℕ} {start : State T}
    (hfits : Fits T base) (h : genesis g base = some start) :
    Referenced base start ∧ start.inherentExecutedThisBlock = false := by
  obtain ⟨hlists, hsufficients, hfresh⟩ := genesis_eq_some h
  refine ⟨⟨fun body => ?_, fun body => (hlists body).2.trans (hlists body).1.symm,
    fun account => ?_⟩, hfresh⟩
  · rw [(hlists body).1]
    exact List.pairwise_insertionSort _ _
  · have hcouncil := count_members_le start .council account
    have htechnicalCommittee := count_members_le start .technicalCommittee account
    have hfits := hfits account
    rw [(hlists _).1] at hcouncil htechnicalCommittee
    rw [hsufficients, references, (hlists _).1, (hlists _).1]
    rw [foldl_incSufficients, foldl_incSufficients _ base (by omega)]
    · omega
    · rw [foldl_incSufficients _ base (by omega)]
      omega

/-- What holds after a sequence of blocks, and what the next inherent then does. -/
structure ConsistentAfter (base : T.AccountId → ℕ) (start : State T)
    (blocks : List (Authorities T)) : Prop where
  /-- The members and their identifiers are the pairs observed last. -/
  aligned : ∀ authorities, lastObserved blocks = some authorities →
    ∀ body, Aligned (authorities body).1 ((run blocks start).bodies body)
  /-- Until something is observed, nothing changes. -/
  unobserved : lastObserved blocks = none → run blocks start = start
  /-- The order of pairs with distinct accounts does not matter. -/
  rearranged : ∀ authorities authorities' : Authorities T,
    (∀ body, Rearranged (authorities body).1 (authorities' body).1) →
      execute .none (.resetMembers authorities) (run blocks start) =
        execute .none (.resetMembers authorities') (run blocks start)
  /-- In particular, lists of distinct accounts may be permuted. -/
  permuted : ∀ authorities authorities' : Authorities T,
    (∀ body, (authorities body).1.Perm (authorities' body).1 ∧
      ((authorities body).1.map Prod.fst).Nodup) →
      execute .none (.resetMembers authorities) (run blocks start) =
        execute .none (.resetMembers authorities') (run blocks start)
  /-- The same inherent in the next block writes nothing but its flag. -/
  repeated : ∀ authorities : Authorities T,
    (execute .none (.resetMembers authorities) (block authorities (run blocks start))).1 =
      { block authorities (run blocks start) with inherentExecutedThisBlock := true }
  /-- The members are those who vote. -/
  voting : ∀ body, ((run blocks start).bodies body).collectiveMembers =
    ((run blocks start).bodies body).members.1
  /-- Every account is counted once for each of its seats. -/
  counted : ∀ account, (run blocks start).sufficients account =
    base account + (((run blocks start).bodies .council).members.1.count account +
      ((run blocks start).bodies .technicalCommittee).members.1.count account)

lemma run_referenced {base : T.AccountId → ℕ} {start : State T} (hfits : Fits T base)
    (hstart : Referenced base start) (hfresh : start.inherentExecutedThisBlock = false)
    (blocks : List (Authorities T)) :
    Referenced base (run blocks start) ∧
      (run blocks start).inherentExecutedThisBlock = false := by
  induction blocks using List.reverseRecOn with
  | nil => exact ⟨hstart, hfresh⟩
  | append_singleton blocks authorities ih =>
    rw [run_append_singleton]
    exact ⟨ih.1.block hfits ih.2, block_fresh⟩

/-- The bodies after a run are those that the last observed block has left. -/
lemma run_aligned {base : T.AccountId → ℕ} {start : State T} (hfits : Fits T base)
    (hstart : Referenced base start) (hfresh : start.inherentExecutedThisBlock = false)
    (blocks : List (Authorities T)) :
    (∀ authorities, lastObserved blocks = some authorities →
      ∀ body, Aligned (authorities body).1 ((run blocks start).bodies body)) ∧
    (lastObserved blocks = none → run blocks start = start) := by
  induction blocks using List.reverseRecOn with
  | nil => exact ⟨fun _ h => absurd h (by simp [lastObserved]), fun _ => rfl⟩
  | append_singleton blocks authorities ih =>
    have hfresh := (run_referenced hfits hstart hfresh blocks).2
    rw [run_append_singleton]
    cases hobserved : isObserved authorities with
    | false =>
      rw [lastObserved_append_of_ignored blocks hobserved, block_of_ignored hfresh hobserved]
      exact ih
    | true =>
      rw [lastObserved_append_of_isObserved blocks hobserved]
      refine ⟨fun authorities' h body => ?_, fun h => absurd h (by simp)⟩
      cases h
      exact (block_installed hfresh hobserved body).aligned

/-- **Members, identifiers and references stay together.**  Genesis initializes both bodies
through `initialize_members`, then any sequence of blocks follows, each with one `reset_members` of
any lists within their bounds.  After every block the members of each body and their identifiers
are the pairs observed last, sorted by account, and every account has one reference for each of its
seats; the order of pairs with distinct accounts never matters, and the same inherent again writes
nothing but its flag and emits nothing. -/
theorem membership_consistent_over_run (g : GenesisConfig T) {base : T.AccountId → ℕ}
    (hfits : ∀ account,
      base account + (T.maxMembers .council + T.maxMembers .technicalCommittee) < 2 ^ 32)
    {start : State T} (hgenesis : genesis g base = some start) (blocks : List (Authorities T)) :
    ConsistentAfter base start blocks := by
  obtain ⟨hstart, hfresh⟩ := genesis_referenced hfits hgenesis
  obtain ⟨haligned, hunobserved⟩ := run_aligned hfits hstart hfresh blocks
  obtain ⟨hrun, hfreshRun⟩ := run_referenced hfits hstart hfresh blocks
  exact {
    aligned := haligned
    unobserved := hunobserved
    rearranged := fun _ _ h => execute_resetMembers_congr h .none _
    permuted := fun _ _ h =>
      execute_resetMembers_congr (fun body => rearranged_of_perm (h body).1 (h body).2) .none _
    repeated := fun _ => execute_resetMembers_block hfreshRun
    voting := hrun.voting
    counted := hrun.counted }

/-- Two members of the Council, one of whom also sits in the Technical Committee. -/
def demoGenesis : GenesisConfig demoConfig where
  members := GovernanceBody.both
    (⟨[(3 : ℕ), (1 : ℕ)], by decide⟩ : BoundedVec demoConfig.AccountId 10)
    (⟨[(3 : ℕ)], by decide⟩ : BoundedVec demoConfig.AccountId 10)
  address := fun _ => []
  policyId := fun _ => 0
  membersMainchain := fun _ => []

/-- The members of genesis, then three and two others, then one account twice. -/
theorem membership_consistent_demo :
    ∃ start : State demoConfig, genesis demoGenesis (fun _ => 0) = some start ∧
      ConsistentAfter (fun _ => 0) start [demoAuthorities, repeatedAuthorities] ∧
      start.sufficients (3 : ℕ) = 2 ∧
      (run [demoAuthorities, repeatedAuthorities] start).sufficients (3 : ℕ) = 0 ∧
      (run [demoAuthorities, repeatedAuthorities] start).sufficients (7 : ℕ) = 2 :=
  ⟨_, rfl, membership_consistent_over_run demoGenesis (fun _ => by decide) rfl _, rfl, rfl, rfl⟩

end MidnightNode.Governance.Observation
