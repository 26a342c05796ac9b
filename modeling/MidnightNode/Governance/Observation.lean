/-
# Observed memberships

The members of the Council and of the Technical Committee are observed on Cardano and set by an
inherent, the call `reset_members`.  The author of a block creates it from the inherent data of
its node (`createInherent`), every other node checks it against its own data (`checkInherent`),
and the runtime executes it (`resetMembers`).  Below the pallet are the membership pallet, which
stores the members, and the handlers that connect the two with the collectives and with the
accounts of the system.

Creation refuses to set an empty list or one that repeats an account.  The last part compares
this policy with what a call that passes the check can do.

The source treats the two bodies one after the other and alike; here they index the definitions.
-/
import MidnightNode.Frame.Dispatch
import Mathlib.Data.Finset.Card
import Mathlib.Data.List.Sort

namespace MidnightNode.Governance.Observation

open StorageLayer MidnightNode.Frame

/-- The bodies whose members are observed. -/
inductive GovernanceBody
  | council
  | technicalCommittee
deriving DecidableEq, Repr

/-- A value for each body from one for the Council and one for the Technical Committee. -/
def GovernanceBody.both {β : GovernanceBody → Type} (council : β .council)
    (technicalCommittee : β .technicalCommittee) : (body : GovernanceBody) → β body
  | .council => council
  | .technicalCommittee => technicalCommittee

/-- A policy id, 28 bytes. -/
abbrev PolicyId : Type := BitVec 224

/-- The identifier of a member on Cardano. -/
abbrev MainchainMember : Type := PolicyId

/-- An address on Cardano. -/
abbrev MainchainAddress : Type := List UInt8

/-- The bytes of an observed authority key. -/
abbrev AuthorityMemberPublicKey : Type := List UInt8

/-- A list within its bound. -/
abbrev BoundedVec (α : Type) (bound : ℕ) : Type := {elems : List α // elems.length ≤ bound}

/-- The weights that `reset_members` reports, by the numbers of members of the Council and of the
Technical Committee. -/
structure WeightInfo where
  resetMembersNone : ℕ → ℕ → Weight
  /-- `reset_members_only_council` and `reset_members_only_technical_committee`. -/
  resetMembersOnly : GovernanceBody → ℕ → ℕ → Weight

/-- The configuration of the pallet.  The bounds are those of the membership pallets too, as in
the runtime. -/
structure Config where
  /-- The accounts of the runtime. -/
  AccountId : Type
  /-- Accounts are ordered. -/
  linearOrder : LinearOrder AccountId
  /-- There are accounts. -/
  nonempty : Nonempty AccountId
  /-- `CouncilMaxMembers` and `TechnicalCommitteeMaxMembers`. -/
  maxMembers : GovernanceBody → ℕ
  /-- The runtime allows ten members. -/
  maxMembers_pos : ∀ body, 0 < maxMembers body
  /-- `T::AccountId::decode`, on the bytes of a key. -/
  decodeAccountId : List UInt8 → Option AccountId
  /-- The weights of the dispatchables. -/
  weightInfo : WeightInfo

instance (T : Config) : LinearOrder T.AccountId := T.linearOrder

/-- What is stored about a body. -/
structure BodyState (T : Config) (body : GovernanceBody) where
  /-- `Members` of the membership pallet. -/
  members : BoundedVec T.AccountId (T.maxMembers body)
  /-- `Members` of the collective, those who vote. -/
  collectiveMembers : List T.AccountId
  /-- `CouncilMainchainMembers` or `TechnicalCommitteeMainchainMembers`. -/
  mainchainMembers : BoundedVec MainchainMember (T.maxMembers body)

/-- The events: the pallet's own `CouncilMembersReset` and `TechnicalCommitteeMembersReset`, and
`MembersReset` of the membership pallet of a body. -/
inductive Event (T : Config)
  | membersReset (body : GovernanceBody) (members : List T.AccountId)
      (membersMainchain : List MainchainMember)
  | membershipReset (body : GovernanceBody)

/-- The errors of the pallet. -/
inductive Error
  | emptyMembers
  | duplicatedMembers
  | inherentAlreadyExecuted
deriving DecidableEq, Repr

/-- The storage of the pallet and of those it writes to. -/
structure State (T : Config) where
  /-- What is stored about each body. -/
  bodies : (body : GovernanceBody) → BodyState T body
  /-- `MainChainCouncilAddress` and `MainChainTechnicalCommitteeAddress`. -/
  mainChainAddress : GovernanceBody → MainchainAddress
  /-- `MainChainCouncilPolicyId` and `MainChainTechnicalCommitteePolicyId`. -/
  mainChainPolicyId : GovernanceBody → PolicyId
  /-- `InherentExecutedThisBlock`. -/
  inherentExecutedThisBlock : Bool
  /-- The `sufficients` of the accounts of the system. -/
  sufficients : T.AccountId → ℕ
  /-- The events deposited so far. -/
  events : List (Event T)

variable {T : Config}

/-- Replace what is stored about a body. -/
def State.setBody (s : State T) (body : GovernanceBody) (b : BodyState T body) : State T :=
  { s with bodies := Function.update s.bodies body b }

@[simp] lemma State.setBody_bodies_self (s : State T) (body : GovernanceBody)
    (b : BodyState T body) : (s.setBody body b).bodies body = b :=
  Function.update_self ..

lemma State.setBody_bodies_of_ne (s : State T) {body other : GovernanceBody} (h : other ≠ body)
    (b : BodyState T body) : (s.setBody body b).bodies other = s.bodies other :=
  Function.update_of_ne h ..

/-! ### Changing members -/

section ChangeMembers

variable {α : Type} [LinearOrder α]

/-- `compute_members_diff_sorted` from the old member `o` on: `rest` is the computation with the
old members after it. -/
def membersDiffFrom (o : α) (old : List α) (rest : List α → List α × List α) :
    List α → List α × List α
  | [] => ([], o :: old)
  | n :: new =>
    if o = n then rest new
    else if o < n then
      let (incoming, outgoing) := rest (n :: new)
      (incoming, o :: outgoing)
    else
      let (incoming, outgoing) := membersDiffFrom o old rest new
      (n :: incoming, outgoing)

/-- `compute_members_diff_sorted`: the members that come and those that go, from a walk along
both lists. -/
def computeMembersDiffSorted (newMembers : List α) : List α → List α × List α
  | [] => (newMembers, [])
  | o :: old => membersDiffFrom o old (fun new => computeMembersDiffSorted new old) newMembers

/-- `ChangeMembers::set_members_sorted`, for an implementation of `change_members_sorted`. -/
def setMembersSorted {σ : Type} (changeMembersSorted : List α → List α → List α → σ → σ)
    (newMembers oldMembers : List α) (s : σ) : σ :=
  let (incoming, outgoing) := computeMembersDiffSorted newMembers oldMembers
  changeMembersSorted incoming outgoing newMembers s

/-- `frame_system::inc_sufficients`, on a `u32`. -/
def incSufficients (sufficients : α → ℕ) (who : α) : α → ℕ :=
  Function.update sufficients who (min (sufficients who + 1) (2 ^ 32 - 1))

/-- `frame_system::dec_sufficients`. -/
def decSufficients (sufficients : α → ℕ) (who : α) : α → ℕ :=
  Function.update sufficients who (sufficients who - 1)

end ChangeMembers

/-- `MembershipHandler::change_members_sorted`: the collective takes over the new members, then
the accounts are counted. -/
def MembershipHandler.changeMembersSorted (body : GovernanceBody)
    (incoming outgoing new : List T.AccountId) (s : State T) : State T :=
  let s := s.setBody body { s.bodies body with collectiveMembers := new }
  { s with sufficients := outgoing.foldl decSufficients (incoming.foldl incSufficients
      s.sufficients) }

/-- The errors of the membership pallet that a reset can raise. -/
inductive MembershipError
  | tooManyMembers

/-- `reset_members` of the membership pallet: it sorts the members, reports the change and stores
them. -/
def Membership.resetMembers (body : GovernanceBody) (members : List T.AccountId) :
    Body (State T) MembershipError Unit := fun s =>
  if h : members.length ≤ T.maxMembers body then
    let sorted := members.insertionSort (· ≤ ·)
    let s := setMembersSorted (MembershipHandler.changeMembersSorted body) sorted
      (s.bodies body).members.1 s
    let s := s.setBody body { s.bodies body with
      members := ⟨sorted, (members.length_insertionSort _).trans_le h⟩ }
    ({ s with events := s.events ++ [.membershipReset body] }, .ok ())
  else (s, .error .tooManyMembers)

/-- `MembershipObservationHandler::change_members_sorted`: dispatch a reset, whatever becomes of
it. -/
def MembershipObservationHandler.changeMembersSorted (body : GovernanceBody)
    (_incoming _outgoing sortedNew : List T.AccountId) (s : State T) : State T :=
  (withStorageLayer (Membership.resetMembers body sortedNew) s).1

/-- `MembershipObservationHandler::sorted_members`. -/
def MembershipObservationHandler.sortedMembers (body : GovernanceBody) (s : State T) :
    List T.AccountId :=
  (s.bodies body).members.1

/-! ### The dispatchables -/

/-- The origins of the runtime. -/
inductive RawOrigin (AccountId : Type)
  | root
  | signed (who : AccountId)
  | none
deriving DecidableEq

/-- The observed members of each body, with their identifiers on Cardano. -/
abbrev Authorities (T : Config) : Type :=
  (body : GovernanceBody) → BoundedVec (T.AccountId × MainchainMember) (T.maxMembers body)

/-- The pairs by account, the sort of `reset_members`. -/
def sortByAccount (pairs : List (T.AccountId × MainchainMember)) :
    List (T.AccountId × MainchainMember) :=
  pairs.insertionSort (fun a b => a.1 ≤ b.1)

lemma length_sortByAccount (pairs : List (T.AccountId × MainchainMember)) :
    (sortByAccount pairs).length = pairs.length :=
  List.length_insertionSort _ _

/-- The accounts of the pairs, sorted. -/
def sortedAccounts {max : ℕ} (authorities : BoundedVec (T.AccountId × MainchainMember) max) :
    BoundedVec T.AccountId max :=
  ⟨(sortByAccount authorities.1).map Prod.fst, by
    rw [List.length_map, length_sortByAccount]
    exact authorities.2⟩

/-- The identifiers on Cardano, in the order of the accounts. -/
def sortedMainchainMembers {max : ℕ}
    (authorities : BoundedVec (T.AccountId × MainchainMember) max) :
    BoundedVec MainchainMember max :=
  ⟨(sortByAccount authorities.1).map Prod.snd, by
    rw [List.length_map, length_sortByAccount]
    exact authorities.2⟩

/-- Set the members of a body if they have changed, and report whether they have. -/
def updateMembers (body : GovernanceBody) (members : List T.AccountId) (s : State T) :
    State T × Bool :=
  let currentMembers := MembershipObservationHandler.sortedMembers body s
  if currentMembers ≠ members then
    (setMembersSorted (MembershipObservationHandler.changeMembersSorted body) members
      currentMembers s, true)
  else (s, false)

/-- Store the identifiers of a body if they have changed, and report whether they have. -/
def updateMainchainMembers (body : GovernanceBody)
    (mainchainMembers : BoundedVec MainchainMember (T.maxMembers body)) (s : State T) :
    State T × Bool :=
  if (s.bodies body).mainchainMembers ≠ mainchainMembers then
    (s.setBody body { s.bodies body with mainchainMembers := mainchainMembers }, true)
  else (s, false)

/-- The state changes of `reset_members` for one body, and whether the body has changed. -/
def resetBody (body : GovernanceBody)
    (authorities : BoundedVec (T.AccountId × MainchainMember) (T.maxMembers body))
    (s : State T) : State T × Bool :=
  let members := sortedAccounts authorities
  let mainchainMembers := sortedMainchainMembers authorities
  let (s, membersHaveChanged) := updateMembers body members.1 s
  let (s, mainchainMembersHaveChanged) := updateMainchainMembers body mainchainMembers s
  if membersHaveChanged || mainchainMembersHaveChanged then
    ({ s with events := s.events ++ [.membersReset body members.1 mainchainMembers.1] }, true)
  else (s, false)

/-- `reset_members`. -/
def resetMembers (origin : RawOrigin T.AccountId) (authorities : Authorities T) :
    Body (State T) (DispatchErrorWithPostInfo Error) PostDispatchInfo := fun s =>
  if origin ≠ .none then (s, .error (.ofError .badOrigin))
  else if s.inherentExecutedThisBlock then
    (s, .error (.ofError (.module .inherentAlreadyExecuted)))
  else
    let s := { s with inherentExecutedThisBlock := true }
    let members (body : GovernanceBody) := (sortedAccounts (authorities body)).1
    let mainchainMembers (body : GovernanceBody) := (sortedMainchainMembers (authorities body)).1
    let councilMembersLen := (members .council).length % 2 ^ 32
    let technicalCommitteeMembersLen := (members .technicalCommittee).length % 2 ^ 32
    let noneWeight :=
      T.weightInfo.resetMembersNone councilMembersLen technicalCommitteeMembersLen
    let earlyReturn := (s, .ok ⟨some noneWeight, .no⟩)
    -- Only empty lists stop the call here: `has_duplicated_members` does no more than log.
    if members .council = [] then earlyReturn
    else if mainchainMembers .council = [] then earlyReturn
    else if members .technicalCommittee = [] then earlyReturn
    else if mainchainMembers .technicalCommittee = [] then earlyReturn
    else
      let weightOf (body : GovernanceBody) :=
        T.weightInfo.resetMembersOnly body councilMembersLen technicalCommitteeMembersLen
      let actualWeight : Weight := ⟨0, 0⟩
      let (s, councilHasChanged) := resetBody .council (authorities .council) s
      let actualWeight :=
        if councilHasChanged then actualWeight.saturatingAdd (weightOf .council)
        else actualWeight
      let (s, technicalCommitteeHasChanged) :=
        resetBody .technicalCommittee (authorities .technicalCommittee) s
      let actualWeight :=
        if technicalCommitteeHasChanged then
          actualWeight.saturatingAdd (weightOf .technicalCommittee)
        else actualWeight
      let actualWeight :=
        if !councilHasChanged && !technicalCommitteeHasChanged then noneWeight
        else actualWeight
      (s, .ok ⟨some actualWeight, .no⟩)

/-- A dispatchable for Root only that makes one write. -/
def ensureRootThen (write : State T → State T) (origin : RawOrigin T.AccountId) :
    Body (State T) (DispatchErrorWithPostInfo Error) PostDispatchInfo := fun s =>
  match origin with
  | .root => (write s, .ok .unknown)
  | _ => (s, .error (.ofError .badOrigin))

/-- Set the address of a body. -/
def setAddress (body : GovernanceBody) (address : MainchainAddress) (s : State T) : State T :=
  { s with mainChainAddress := Function.update s.mainChainAddress body address }

/-- Set the policy id of a body. -/
def setPolicyId (body : GovernanceBody) (policyId : PolicyId) (s : State T) : State T :=
  { s with mainChainPolicyId := Function.update s.mainChainPolicyId body policyId }

/-- `set_council_address`. -/
def setCouncilAddress (origin : RawOrigin T.AccountId) (address : MainchainAddress) :
    Body (State T) (DispatchErrorWithPostInfo Error) PostDispatchInfo :=
  ensureRootThen (setAddress .council address) origin

/-- `set_technical_committee_address`. -/
def setTechnicalCommitteeAddress (origin : RawOrigin T.AccountId) (address : MainchainAddress) :
    Body (State T) (DispatchErrorWithPostInfo Error) PostDispatchInfo :=
  ensureRootThen (setAddress .technicalCommittee address) origin

/-- `set_council_policy_id`. -/
def setCouncilPolicyId (origin : RawOrigin T.AccountId) (policyId : PolicyId) :
    Body (State T) (DispatchErrorWithPostInfo Error) PostDispatchInfo :=
  ensureRootThen (setPolicyId .council policyId) origin

/-- `set_technical_committee_policy_id`. -/
def setTechnicalCommitteePolicyId (origin : RawOrigin T.AccountId) (policyId : PolicyId) :
    Body (State T) (DispatchErrorWithPostInfo Error) PostDispatchInfo :=
  ensureRootThen (setPolicyId .technicalCommittee policyId) origin

/-- The calls of the pallet. -/
inductive Call (T : Config)
  | resetMembers (authorities : Authorities T)
  | setCouncilAddress (address : MainchainAddress)
  | setTechnicalCommitteeAddress (address : MainchainAddress)
  | setCouncilPolicyId (policyId : PolicyId)
  | setTechnicalCommitteePolicyId (policyId : PolicyId)

/-- The body of a call. -/
def dispatch (origin : RawOrigin T.AccountId) :
    Call T → Body (State T) (DispatchErrorWithPostInfo Error) PostDispatchInfo
  | .resetMembers authorities => resetMembers origin authorities
  | .setCouncilAddress address => setCouncilAddress origin address
  | .setTechnicalCommitteeAddress address => setTechnicalCommitteeAddress origin address
  | .setCouncilPolicyId policyId => setCouncilPolicyId origin policyId
  | .setTechnicalCommitteePolicyId policyId => setTechnicalCommitteePolicyId origin policyId

/-- A call as the runtime executes it, in a storage layer of its own. -/
def execute (origin : RawOrigin T.AccountId) (call : Call T) (s : State T) :
    State T × Except (DispatchErrorWithPostInfo Error) PostDispatchInfo :=
  withStorageLayer (dispatch origin call) s

/-- `on_finalize`. -/
def onFinalize (s : State T) : State T := { s with inherentExecutedThisBlock := false }

/-! ### The inherent -/

/-- What a node observes: the authorities of each body, `council_authorities` and
`technical_committee_authorities`. -/
structure FederatedAuthorityData where
  /-- The keys and the identifiers on Cardano. -/
  authorities : GovernanceBody → List (AuthorityMemberPublicKey × MainchainMember)

/-- The inherent data at the pallet's identifier. -/
inductive InherentData
  /-- There are none. -/
  | absent
  /-- There are some that do not decode. -/
  | malformed
  /-- There are observed authorities. -/
  | observed (data : FederatedAuthorityData)

/-- The errors of the inherent. -/
inductive InherentError
  | decodeFailed
  | councilMembersMismatch
  | technicalCommitteeMembersMismatch
  | tooManyMembers
deriving DecidableEq, Repr

/-- `get_data_from_inherent_data`. -/
def getDataFromInherentData :
    InherentData → Except InherentError (Option FederatedAuthorityData)
  | .absent => .ok none
  | .malformed => .error .decodeFailed
  | .observed data => .ok (some data)

/-- Decode the key of one authority. -/
def decodeAuthMember (T : Config) (authority : AuthorityMemberPublicKey × MainchainMember) :
    Except InherentError (T.AccountId × MainchainMember) :=
  match T.decodeAccountId authority.1 with
  | some accountId => .ok (accountId, authority.2)
  | none => .error .decodeFailed

/-- `decode_auth_members`. -/
def decodeAuthMembers (T : Config) (max : ℕ)
    (authData : List (AuthorityMemberPublicKey × MainchainMember)) :
    Except InherentError (BoundedVec (T.AccountId × MainchainMember) max) := do
  let members ← authData.mapM (decodeAuthMember T)
  if h : members.length ≤ max then .ok ⟨members, h⟩ else .error .tooManyMembers

/-- `has_duplicated_members`: the accounts are fewer than the members. -/
def hasDuplicatedMembers (members : List (T.AccountId × MainchainMember)) : Bool :=
  (members.map Prod.fst).toFinset.card ≠ (members.map Prod.fst).length

/-- `create_inherent`. -/
def createInherent (T : Config) (data : InherentData) : Option (Call T) := do
  let fedAuthData ← (getDataFromInherentData data).toOption.join
  let councilAuthorities ←
    (decodeAuthMembers T (T.maxMembers .council) (fedAuthData.authorities .council)).toOption
  let technicalCommitteeAuthorities ←
    (decodeAuthMembers T (T.maxMembers .technicalCommittee)
      (fedAuthData.authorities .technicalCommittee)).toOption
  let hasEmptyMembers := councilAuthorities.1.isEmpty || technicalCommitteeAuthorities.1.isEmpty
  let hasDuplicatedMembers := hasDuplicatedMembers councilAuthorities.1 ||
    hasDuplicatedMembers technicalCommitteeAuthorities.1
  if !hasEmptyMembers && !hasDuplicatedMembers then
    some (.resetMembers (GovernanceBody.both councilAuthorities technicalCommitteeAuthorities))
  else none

/-- `check_inherent`. -/
def checkInherent (call : Call T) (data : InherentData) : Except InherentError Unit := do
  match ← getDataFromInherentData data with
  | none => .ok ()
  | some fedAuthData =>
    let councilAuthorities ←
      decodeAuthMembers T (T.maxMembers .council) (fedAuthData.authorities .council)
    let technicalCommitteeAuthorities ←
      decodeAuthMembers T (T.maxMembers .technicalCommittee)
        (fedAuthData.authorities .technicalCommittee)
    match call with
    | .resetMembers authorities =>
      if councilAuthorities ≠ authorities .council then .error .councilMembersMismatch
      else if technicalCommitteeAuthorities ≠ authorities .technicalCommittee then
        .error .technicalCommitteeMembersMismatch
      else .ok ()
    | _ => .ok ()

/-! ### What an executed call leaves of a body -/

section Effects

variable {body other : GovernanceBody} {s : State T}

/-- A reset of sorted members through the handlers. -/
lemma setMembersSorted_bodies_self {new : List T.AccountId} (hsorted : new.Pairwise (· ≤ ·))
    (hlen : new.length ≤ T.maxMembers body) (old : List T.AccountId) :
    (setMembersSorted (MembershipObservationHandler.changeMembersSorted body) new old s).bodies
        body =
      { s.bodies body with members := ⟨new, hlen⟩, collectiveMembers := new } := by
  have hsort : new.insertionSort (· ≤ ·) = new := hsorted.insertionSort_eq
  simp [setMembersSorted, MembershipObservationHandler.changeMembersSorted, withStorageLayer,
    Membership.resetMembers, hlen, MembershipHandler.changeMembersSorted, hsort]

lemma setMembersSorted_bodies_of_ne (hne : other ≠ body) {new : List T.AccountId}
    (hlen : new.length ≤ T.maxMembers body) (old : List T.AccountId) :
    (setMembersSorted (MembershipObservationHandler.changeMembersSorted body) new old s).bodies
        other = s.bodies other := by
  simp [setMembersSorted, MembershipObservationHandler.changeMembersSorted, withStorageLayer,
    Membership.resetMembers, hlen, MembershipHandler.changeMembersSorted,
    State.setBody_bodies_of_ne _ hne]

/-- Of a body, `after` has the members of the pairs sorted by account.  The collective is told
only of a change. -/
structure Installed (authorities : BoundedVec (T.AccountId × MainchainMember) (T.maxMembers body))
    (before after : BodyState T body) : Prop where
  members : after.members = sortedAccounts authorities
  collectiveMembers : after.collectiveMembers = before.collectiveMembers ∨
    after.collectiveMembers = (sortedAccounts authorities).1
  mainchainMembers : after.mainchainMembers = sortedMainchainMembers authorities

lemma sortedAccounts_sorted {max : ℕ}
    (authorities : BoundedVec (T.AccountId × MainchainMember) max) :
    (sortedAccounts authorities).1.Pairwise (· ≤ ·) := by
  rw [sortedAccounts, List.pairwise_map]
  exact List.pairwise_insertionSort (fun a b => a.1 ≤ b.1) authorities.1

lemma updateMembers_bodies_self {new : BoundedVec T.AccountId (T.maxMembers body)}
    (hsorted : new.1.Pairwise (· ≤ ·)) :
    (updateMembers body new.1 s).1.bodies body =
      { s.bodies body with
        members := new
        collectiveMembers :=
          if (s.bodies body).members = new then (s.bodies body).collectiveMembers else new.1 } := by
  by_cases hnew : (s.bodies body).members = new
  · have hcurrent : MembershipObservationHandler.sortedMembers body s = new.1 :=
      congrArg Subtype.val hnew
    rw [updateMembers, if_neg (not_not.2 hcurrent), if_pos hnew, ← hnew]
  · have hcurrent : MembershipObservationHandler.sortedMembers body s ≠ new.1 :=
      fun h => hnew (Subtype.ext h)
    rw [updateMembers, if_pos hcurrent, if_neg hnew]
    exact setMembersSorted_bodies_self hsorted new.2
      (MembershipObservationHandler.sortedMembers body s)

lemma updateMembers_bodies_of_ne (hne : other ≠ body)
    (new : BoundedVec T.AccountId (T.maxMembers body)) :
    (updateMembers body new.1 s).1.bodies other = s.bodies other := by
  rw [updateMembers]
  split
  · exact setMembersSorted_bodies_of_ne hne new.2
      (MembershipObservationHandler.sortedMembers body s)
  · rfl

lemma updateMainchainMembers_bodies_self
    (new : BoundedVec MainchainMember (T.maxMembers body)) :
    (updateMainchainMembers body new s).1.bodies body =
      { s.bodies body with mainchainMembers := new } := by
  rw [updateMainchainMembers]
  split
  · exact State.setBody_bodies_self ..
  · rename_i hsame
    rw [← not_not.1 hsame]

lemma updateMainchainMembers_bodies_of_ne (hne : other ≠ body)
    (new : BoundedVec MainchainMember (T.maxMembers body)) :
    (updateMainchainMembers body new s).1.bodies other = s.bodies other := by
  rw [updateMainchainMembers]
  split
  · exact State.setBody_bodies_of_ne _ hne _
  · rfl

/-- The step of one body makes the two updates; the event leaves the bodies alone. -/
lemma resetBody_bodies (body : GovernanceBody)
    (authorities : BoundedVec (T.AccountId × MainchainMember) (T.maxMembers body)) (s : State T) :
    (resetBody body authorities s).1.bodies =
      (updateMainchainMembers body (sortedMainchainMembers authorities)
        (updateMembers body (sortedAccounts authorities).1 s).1).1.bodies := by
  simp only [resetBody]
  split <;> rfl

/-- The step of one body installs its pairs. -/
lemma resetBody_installed (body : GovernanceBody)
    (authorities : BoundedVec (T.AccountId × MainchainMember) (T.maxMembers body)) (s : State T) :
    Installed authorities (s.bodies body) ((resetBody body authorities s).1.bodies body) := by
  rw [resetBody_bodies, updateMainchainMembers_bodies_self,
    updateMembers_bodies_self (sortedAccounts_sorted authorities)]
  refine ⟨rfl, ?_, rfl⟩
  split
  · exact .inl rfl
  · exact .inr rfl

lemma resetBody_bodies_of_ne (hne : other ≠ body)
    (authorities : BoundedVec (T.AccountId × MainchainMember) (T.maxMembers body)) :
    (resetBody body authorities s).1.bodies other = s.bodies other := by
  rw [resetBody_bodies, updateMainchainMembers_bodies_of_ne hne, updateMembers_bodies_of_ne hne]

end Effects

@[simp] lemma sortedAccounts_eq_nil {max : ℕ}
    {authorities : BoundedVec (T.AccountId × MainchainMember) max} :
    (sortedAccounts authorities).1 = [] ↔ authorities.1 = [] := by
  rw [sortedAccounts, List.map_eq_nil_iff, ← List.length_eq_zero_iff, length_sortByAccount,
    List.length_eq_zero_iff]

@[simp] lemma sortedMainchainMembers_eq_nil {max : ℕ}
    {authorities : BoundedVec (T.AccountId × MainchainMember) max} :
    (sortedMainchainMembers authorities).1 = [] ↔ authorities.1 = [] := by
  rw [sortedMainchainMembers, List.map_eq_nil_iff, ← List.length_eq_zero_iff,
    length_sortByAccount, List.length_eq_zero_iff]

section Execute

variable {authorities : Authorities T} {s : State T}

/-- With members for both bodies, an inherent in a fresh block makes the steps of both. -/
lemma execute_resetMembers_of_ne_nil (hfresh : s.inherentExecutedThisBlock = false)
    (hne : ∀ body, (authorities body).1 ≠ []) :
    (execute .none (.resetMembers authorities) s).1 =
      (resetBody .technicalCommittee (authorities .technicalCommittee)
        (resetBody .council (authorities .council)
          { s with inherentExecutedThisBlock := true }).1).1 := by
  simp [execute, dispatch, resetMembers, withStorageLayer, hfresh, hne]

/-- With members for both bodies, an inherent in a fresh block installs them. -/
lemma execute_installed (hfresh : s.inherentExecutedThisBlock = false)
    (hne : ∀ body, (authorities body).1 ≠ []) (body : GovernanceBody) :
    Installed (authorities body) (s.bodies body)
      ((execute .none (.resetMembers authorities) s).1.bodies body) := by
  rw [execute_resetMembers_of_ne_nil hfresh hne]
  cases body with
  | council =>
    rw [resetBody_bodies_of_ne (by decide)]
    exact resetBody_installed .council (authorities .council)
      { s with inherentExecutedThisBlock := true }
  | technicalCommittee =>
    have h := resetBody_installed .technicalCommittee (authorities .technicalCommittee)
      (resetBody .council (authorities .council) { s with inherentExecutedThisBlock := true }).1
    rwa [resetBody_bodies_of_ne (by decide)] at h

/-- Otherwise `reset_members` leaves the bodies alone. -/
lemma execute_resetMembers_bodies {origin : RawOrigin T.AccountId}
    (h : ¬ (origin = .none ∧ s.inherentExecutedThisBlock = false ∧
      ∀ body, (authorities body).1 ≠ [])) :
    (execute origin (.resetMembers authorities) s).1.bodies = s.bodies := by
  by_cases horigin : origin = .none
  · by_cases hfresh : s.inherentExecutedThisBlock = false
    · -- one of the lists is empty: the early return
      obtain ⟨body, hempty⟩ : ∃ body, (authorities body).1 = [] := by
        by_contra hne
        exact h ⟨horigin, hfresh, fun body hempty => hne ⟨body, hempty⟩⟩
      cases body with
      | council =>
        simp [execute, dispatch, resetMembers, withStorageLayer, horigin, hfresh, hempty]
      | technicalCommittee =>
        by_cases hcouncil : (authorities .council).1 = [] <;>
          simp [execute, dispatch, resetMembers, withStorageLayer, horigin, hfresh, hempty,
            hcouncil]
    · simp [execute, dispatch, resetMembers, withStorageLayer, horigin, hfresh]
  · simp [execute, dispatch, resetMembers, withStorageLayer, horigin]

/-- Every other call leaves the bodies alone. -/
lemma execute_bodies_of_ne_resetMembers {origin : RawOrigin T.AccountId} {call : Call T}
    (hcall : ∀ authorities, call ≠ .resetMembers authorities) :
    (execute origin call s).1.bodies = s.bodies := by
  cases call with
  | resetMembers authorities => exact absurd rfl (hcall authorities)
  | setCouncilAddress | setTechnicalCommitteeAddress | setCouncilPolicyId
  | setTechnicalCommitteePolicyId =>
    cases origin <;> rfl

end Execute

/-! ### What the check accepts -/

/-- The observed authorities decode to these, within the bounds. -/
def Decodes (data : FederatedAuthorityData) (authorities : Authorities T) : Prop :=
  ∀ body, decodeAuthMembers T (T.maxMembers body) (data.authorities body) = .ok (authorities body)

section Inherent

variable {data : FederatedAuthorityData} {authorities : Authorities T}

lemma checkInherent_observed_iff :
    checkInherent (.resetMembers authorities) (.observed data) = .ok () ↔
      Decodes data authorities := by
  simp only [checkInherent, getDataFromInherentData, bind, Except.bind]
  constructor
  · intro h
    cases hcouncil : decodeAuthMembers T (T.maxMembers .council) (data.authorities .council) with
    | error e => simp [hcouncil] at h
    | ok council =>
      cases htechnicalCommittee : decodeAuthMembers T (T.maxMembers .technicalCommittee)
        (data.authorities .technicalCommittee) with
      | error e => simp [hcouncil, htechnicalCommittee] at h
      | ok technicalCommittee =>
        simp only [hcouncil, htechnicalCommittee, ne_eq, ite_not] at h
        split_ifs at h with hc ht
        intro body
        cases body with
        | council => rw [hcouncil, hc]
        | technicalCommittee => rw [htechnicalCommittee, ht]
  · intro h
    simp [h .council, h .technicalCommittee]

lemma hasDuplicatedMembers_eq_false_iff {members : List (T.AccountId × MainchainMember)} :
    hasDuplicatedMembers members = false ↔ (members.map Prod.fst).Nodup := by
  rw [hasDuplicatedMembers, decide_eq_false_iff_not, not_not]
  exact Multiset.toFinset_card_eq_card_iff_nodup

/-- Creation gives the decoded authorities to a call, unless a list is empty or repeats an
account. -/
lemma createInherent_eq_none_iff (h : Decodes data authorities) :
    createInherent T (.observed data) = none ↔
      ¬ ∀ body, (authorities body).1 ≠ [] ∧ ((authorities body).1.map Prod.fst).Nodup := by
  have hcreate : createInherent T (.observed data) =
      if !((authorities .council).1.isEmpty || (authorities .technicalCommittee).1.isEmpty) &&
        !(hasDuplicatedMembers (authorities .council).1 ||
          hasDuplicatedMembers (authorities .technicalCommittee).1) then
        some (.resetMembers
          (GovernanceBody.both (authorities .council) (authorities .technicalCommittee)))
      else none := by
    rw [createInherent]
    simp only [getDataFromInherentData, Except.toOption, Option.join_some, Option.bind_eq_bind,
      Option.bind_some, h .council, h .technicalCommittee]
  rw [hcreate, ite_eq_right_iff]
  simp only [reduceCtorEq, imp_false, Bool.and_eq_true, Bool.not_eq_true', Bool.or_eq_false_iff,
    List.isEmpty_eq_false_iff, hasDuplicatedMembers_eq_false_iff]
  refine not_congr ⟨fun h body => ?_, fun h => ⟨⟨(h _).1, (h _).1⟩, (h _).2, (h _).2⟩⟩
  cases body with
  | council => exact ⟨h.1.1, h.2.1⟩
  | technicalCommittee => exact ⟨h.1.2, h.2.2⟩

end Inherent

/-! ### The policy and the check -/

/-- The observed members of a body that may be installed: the decoded list, if it is not empty
and repeats no account. -/
def Installable (data : InherentData) (body : GovernanceBody)
    (authorities : BoundedVec (T.AccountId × MainchainMember) (T.maxMembers body)) : Prop :=
  ∃ observed, data = .observed observed ∧
    decodeAuthMembers T (T.maxMembers body) (observed.authorities body) = .ok authorities ∧
    authorities.1 ≠ [] ∧ (authorities.1.map Prod.fst).Nodup

/-- A body is as before, or as observed with the pairs sorted by account, in each of the lists
stored about it. -/
structure FollowsPolicy (data : InherentData) {body : GovernanceBody}
    (before after : BodyState T body) : Prop where
  members : after.members = before.members ∨
    ∃ authorities : BoundedVec (T.AccountId × MainchainMember) (T.maxMembers body),
      Installable data body authorities ∧ after.members = sortedAccounts authorities
  collectiveMembers : after.collectiveMembers = before.collectiveMembers ∨
    ∃ authorities : BoundedVec (T.AccountId × MainchainMember) (T.maxMembers body),
      Installable data body authorities ∧ after.collectiveMembers = (sortedAccounts authorities).1
  mainchainMembers : after.mainchainMembers = before.mainchainMembers ∨
    ∃ authorities : BoundedVec (T.AccountId × MainchainMember) (T.maxMembers body),
      Installable data body authorities ∧
        after.mainchainMembers = sortedMainchainMembers authorities

/-- A runtime in which no body has members. -/
def emptyState (T : Config) : State T where
  bodies := fun _ => ⟨⟨[], by simp⟩, [], ⟨[], by simp⟩⟩
  mainChainAddress := fun _ => []
  mainChainPolicyId := fun _ => 0
  inherentExecutedThisBlock := false
  sufficients := fun _ => 0
  events := []

/-- One account for both bodies. -/
def singleAuthorities (account : T.AccountId) : Authorities T :=
  fun body => ⟨[(account, 0)], T.maxMembers_pos body⟩

/-- When the check enforces the policy of the creation: there are inherent data, and if both lists
decode and have members, then neither repeats an account. -/
def ChecksPolicy (T : Config) (data : InherentData) : Prop :=
  data ≠ .absent ∧ ∀ observed (authorities : Authorities T), data = .observed observed →
    Decodes observed authorities → (∀ body, (authorities body).1 ≠ []) →
      ∀ body, ((authorities body).1.map Prod.fst).Nodup

/-- Every list stored about a body that is installed is as observed. -/
lemma Installed.followsPolicy {data : InherentData} {body : GovernanceBody}
    {authorities : BoundedVec (T.AccountId × MainchainMember) (T.maxMembers body)}
    {before after : BodyState T body} (h : Installed authorities before after)
    (hobserved : Installable data body authorities) : FollowsPolicy data before after where
  members := .inr ⟨authorities, hobserved, h.members⟩
  collectiveMembers := h.collectiveMembers.imp_right fun h => ⟨authorities, hobserved, h⟩
  mainchainMembers := .inr ⟨authorities, hobserved, h.mainchainMembers⟩

/-- Members installed in an empty runtime are a change. -/
lemma Installed.members_ne {body : GovernanceBody}
    {authorities : BoundedVec (T.AccountId × MainchainMember) (T.maxMembers body)}
    {after : BodyState T body} (h : Installed authorities ((emptyState T).bodies body) after)
    (hne : authorities.1 ≠ []) : after.members ≠ ((emptyState T).bodies body).members := by
  intro heq
  have hnil : (sortedAccounts authorities).1 = [] := by
    rw [← h.members, heq]
    rfl
  exact hne (sortedAccounts_eq_nil.1 hnil)

/-- A call that installs members in an empty runtime and follows the policy has observed them. -/
lemma Installed.installable {data : InherentData} {body : GovernanceBody}
    {authorities : BoundedVec (T.AccountId × MainchainMember) (T.maxMembers body)}
    {after : BodyState T body} (h : Installed authorities ((emptyState T).bodies body) after)
    (hne : authorities.1 ≠ [])
    (hpolicy : FollowsPolicy data ((emptyState T).bodies body) after) :
    ∃ observed : BoundedVec (T.AccountId × MainchainMember) (T.maxMembers body),
      Installable data body observed :=
  (hpolicy.members.resolve_left (h.members_ne hne)).imp fun _ h => h.1

/-- No accepted call installs anything but the observed members. -/
def InstallsOnlyObserved (T : Config) (data : InherentData) : Prop :=
  ∀ (authorities : Authorities T), checkInherent (.resetMembers authorities) data = .ok () →
    ∀ origin s body, FollowsPolicy data (s.bodies body)
      ((execute origin (.resetMembers authorities) s).1.bodies body)

/-- Where nothing is created, no accepted call changes a body. -/
def InstallsNothingUncreated (T : Config) (data : InherentData) : Prop :=
  createInherent T data = none → ∀ call : Call T, checkInherent call data = .ok () →
    ∀ origin s, (execute origin call s).1.bodies = s.bodies

theorem ChecksPolicy.installsOnlyObserved {data : InherentData} (h : ChecksPolicy T data) :
    InstallsOnlyObserved T data := by
  intro authorities hcheck origin s body
  by_cases hruns : origin = .none ∧ s.inherentExecutedThisBlock = false ∧
      ∀ body, (authorities body).1 ≠ []
  · obtain ⟨rfl, hfresh, hne⟩ := hruns
    refine (execute_installed hfresh hne body).followsPolicy ?_
    cases data with
    | absent => exact absurd rfl h.1
    | malformed => cases hcheck
    | observed observed =>
      have hdecodes := checkInherent_observed_iff.1 hcheck
      exact ⟨observed, rfl, hdecodes body, hne body, h.2 observed authorities rfl hdecodes hne body⟩
  · rw [execute_resetMembers_bodies hruns]
    exact ⟨.inl rfl, .inl rfl, .inl rfl⟩

theorem ChecksPolicy.installsNothingUncreated {data : InherentData} (h : ChecksPolicy T data) :
    InstallsNothingUncreated T data := by
  intro hnone call hcheck origin s
  by_cases hcall : ∃ authorities, call = .resetMembers authorities
  · obtain ⟨authorities, rfl⟩ := hcall
    refine execute_resetMembers_bodies fun hruns => ?_
    cases data with
    | absent => exact h.1 rfl
    | malformed => cases hcheck
    | observed observed =>
      have hdecodes := checkInherent_observed_iff.1 hcheck
      have hnodup := h.2 observed authorities rfl hdecodes hruns.2.2
      exact (createInherent_eq_none_iff hdecodes).1 hnone fun body =>
        ⟨hruns.2.2 body, hnodup body⟩
  · exact execute_bodies_of_ne_resetMembers fun authorities h => hcall ⟨authorities, h⟩

/-- **When no author can install what the policy forbids.**  For given inherent data, every call
that passes the check leaves each body as it is or as observed, in any state of the runtime, if and
only if there are data and their lists, where both decode and have members, repeat no account.
Under the same condition no accepted call changes a body where creation gives none. -/
theorem check_enforces_creation_policy_iff (T : Config) (data : InherentData) :
    (InstallsOnlyObserved T data ↔ ChecksPolicy T data) ∧
      (InstallsNothingUncreated T data ↔ ChecksPolicy T data) := by
  obtain ⟨account⟩ := T.nonempty
  have hsingle : ∀ body, (singleAuthorities (T := T) account body).1 ≠ [] := fun _ =>
    List.cons_ne_nil _ _
  refine ⟨⟨fun h => ⟨?_, ?_⟩, ChecksPolicy.installsOnlyObserved⟩,
    ⟨fun h => ⟨?_, ?_⟩, ChecksPolicy.installsNothingUncreated⟩⟩
  · -- without data, the check accepts one account for both bodies
    rintro rfl
    have hinstalled := execute_installed (s := emptyState T) rfl hsingle .council
    obtain ⟨_, _, hdata, -⟩ := hinstalled.installable (hsingle _)
      (h (singleAuthorities account) rfl .none (emptyState T) .council)
    cases hdata
  · rintro observed authorities rfl hdecodes hne body
    have hinstalled := execute_installed (s := emptyState T) rfl hne body
    obtain ⟨_, _, hdata, hlist, -, hnodup⟩ := hinstalled.installable (hne _)
      (h authorities (checkInherent_observed_iff.2 hdecodes) .none (emptyState T) body)
    cases hdata
    rw [hdecodes body] at hlist
    cases hlist
    exact hnodup
  · rintro rfl
    have hinstalled := execute_installed (s := emptyState T) rfl hsingle .council
    refine hinstalled.members_ne (hsingle _) ?_
    rw [h rfl (.resetMembers (singleAuthorities account)) rfl .none (emptyState T)]
  · rintro observed authorities rfl hdecodes hne
    by_contra hnodup
    have hnone : createInherent T (.observed observed) = none :=
      (createInherent_eq_none_iff hdecodes).2 fun h => hnodup fun body => (h body).2
    refine (execute_installed (s := emptyState T) rfl hne .council).members_ne (hne _) ?_
    rw [h hnone _ (checkInherent_observed_iff.2 hdecodes) .none (emptyState T)]

/-! ### Members that were never observed -/

/-- Accounts are `u64`, bodies have at most ten members. -/
def demoConfig : Config where
  AccountId := ℕ
  linearOrder := inferInstance
  nonempty := ⟨0⟩
  maxMembers := fun _ => 10
  maxMembers_pos := fun _ => by decide
  decodeAccountId := fun bytes =>
    if 8 ≤ bytes.length then some ((bytes.take 8).foldr (fun b n => b.toNat + 256 * n) 0)
    else none
  weightInfo := ⟨fun _ _ => ⟨1, 0⟩, fun _ _ _ => ⟨2, 0⟩⟩

/-- The key of a small account. -/
def demoKey (account : UInt8) : AuthorityMemberPublicKey := [account, 0, 0, 0, 0, 0, 0, 0]

/-- One account twice in the Council. -/
def demoRepeated : FederatedAuthorityData where
  authorities := GovernanceBody.both [(demoKey 7, 17), (demoKey 7, 18)] [(demoKey 4, 14)]

/-- Three members for the Council, two for the Technical Committee. -/
def demoAuthorities : Authorities demoConfig
  | .council => ⟨[((3 : ℕ), 13), ((1 : ℕ), 11), ((2 : ℕ), 12)], by decide⟩
  | .technicalCommittee => ⟨[((5 : ℕ), 15), ((4 : ℕ), 14)], by decide⟩

/-- The decoded authorities of `demoRepeated`. -/
def repeatedAuthorities : Authorities demoConfig
  | .council => ⟨[((7 : ℕ), 17), ((7 : ℕ), 18)], by decide⟩
  | .technicalCommittee => ⟨[((4 : ℕ), 14)], by decide⟩

/-- The runtime in the block after the members were observed. -/
def demoState : State demoConfig :=
  onFinalize (execute .none (.resetMembers demoAuthorities) (emptyState demoConfig)).1

/-- The Council and the Technical Committee have their observed members.  Without inherent data
nothing is created, but the check accepts a call with any account, which then is the only member of
both.  With an account that is observed twice nothing is created either, and the check accepts a
call that installs it twice. -/
theorem unobserved_members_installed :
    ((demoState.bodies .council).members.1 = [(1 : ℕ), 2, 3] ∧
      (demoState.bodies .technicalCommittee).members.1 = [(4 : ℕ), 5]) ∧
    (createInherent demoConfig .absent = none ∧
      checkInherent (T := demoConfig) (.resetMembers (singleAuthorities (6 : ℕ))) .absent =
        .ok () ∧
      ∀ body, ((execute (T := demoConfig) .none (.resetMembers (singleAuthorities (6 : ℕ)))
        demoState).1.bodies body).members.1 = [(6 : ℕ)]) ∧
    (createInherent demoConfig (.observed demoRepeated) = none ∧
      checkInherent (.resetMembers repeatedAuthorities) (.observed demoRepeated) = .ok () ∧
      ((execute .none (.resetMembers repeatedAuthorities) demoState).1.bodies
        .council).members.1 = [(7 : ℕ), 7]) := by
  refine ⟨⟨rfl, rfl⟩, ⟨rfl, rfl, fun body => ?_⟩, ⟨rfl, rfl, rfl⟩⟩
  cases body <;> rfl

end MidnightNode.Governance.Observation
