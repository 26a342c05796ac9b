/-
# The two collectives and the runtime around the federated authority

The authority bodies of the runtime are two instances of `pallet_collective`, the council
and the technical committee.  A member proposes a call, members vote on it, and a close
dispatches it in the name of the collective, with the number of ayes and of members as its
origin.  The call the bodies propose to approve a motion is
`FederatedAuthority::motion_approve`, whose origin has to stand for two thirds of a body.

`pallet_collective` is not part of the repository.  What is given here is how it treats
proposals of threshold two and more; bounds on the length and weight of a proposal, on the
number of proposals and on their age are left out.
-/
import MidnightNode.Governance.Steps

namespace MidnightNode.Governance

open StorageLayer MidnightNode.Frame

/-! ### Calls, origins and storage of the runtime -/

/-- The collectives of the runtime. -/
inductive CollectiveInstance
  | council
  | technicalCommittee
deriving DecidableEq, Repr

/-- The index of the pallet of a collective. -/
def CollectiveInstance.index : CollectiveInstance → AuthId
  | .council => 40
  | .technicalCommittee => 42

/-- The calls of the runtime: `motion_approve`, and the calls that are not modelled. -/
inductive RuntimeCall (OtherCall : Type)
  | motionApprove (call : RuntimeCall OtherCall)
  | other (call : OtherCall)
deriving DecidableEq

/-- The origins of the runtime.  `members` is `RawOrigin::Members` of a collective. -/
inductive RuntimeOrigin (AccountId : Type)
  | root
  | signed (who : AccountId)
  | none
  | members (i : CollectiveInstance) (yes seats : ℕ)
  | member (i : CollectiveInstance) (who : AccountId)

/-- `EnsureProportionAtLeast<N, D>` for a collective. -/
def ensureProportionAtLeast {AccountId : Type} (n d : ℕ) (i : CollectiveInstance) :
    RuntimeOrigin AccountId → Bool
  | .members j yes seats => decide (i = j ∧ n * seats ≤ yes * d)
  | _ => false

/-- `FederatedAuthorityOriginManager` over the two bodies of the runtime, which asks two
thirds of either of them. -/
def ensureFromBodies {AccountId : Type} (o : RuntimeOrigin AccountId) : Option AuthId :=
  if ensureProportionAtLeast 2 3 .council o then some CollectiveInstance.council.index
  else if ensureProportionAtLeast 2 3 .technicalCommittee o then
    some CollectiveInstance.technicalCommittee.index
  else none

/-- The members of a body speak for it from two thirds on. -/
lemma ensureFromBodies_members {AccountId : Type} (i : CollectiveInstance) (yes seats : ℕ) :
    ensureFromBodies (.members i yes seats : RuntimeOrigin AccountId) =
      if 2 * seats ≤ yes * 3 then some i.index else none := by
  cases i <;> simp [ensureFromBodies, ensureProportionAtLeast]

/-- An open proposal of a collective with its votes. -/
structure Proposal (AccountId Call : Type) where
  /-- The proposal's unique index. -/
  index : ℕ
  /-- The number of ayes that approve of it. -/
  threshold : ℕ
  /-- The members in favour. -/
  ayes : List AccountId
  /-- The members against. -/
  nays : List AccountId
  /-- The proposed call. -/
  call : Call

/-- The storage of a collective. -/
structure Collective (AccountId Hash Call : Type) where
  /-- The members. -/
  members : List AccountId
  /-- The open proposals, by the hash of their call. -/
  proposals : Hash → Option (Proposal AccountId Call)
  /-- The number of proposals so far. -/
  proposalCount : ℕ

/-- The events of a collective. -/
inductive CollectiveEvent (AccountId Hash : Type)
  | proposed (account : AccountId) (proposalIndex : ℕ) (proposalHash : Hash) (threshold : ℕ)
  | voted (account : AccountId) (proposalHash : Hash) (voted : Bool) (yes no : ℕ)
  | approved (proposalHash : Hash)
  | disapproved (proposalHash : Hash)
  | executed (proposalHash : Hash) (result : Except (DispatchError Error) Unit)
  | closed (proposalHash : Hash) (yes no : ℕ)

/-- The events of the pallets other than the federated authority. -/
inductive PalletEvent (AccountId Hash OtherEvent : Type)
  | collective (i : CollectiveInstance) (event : CollectiveEvent AccountId Hash)
  | other (event : OtherEvent)

/-- The storage of the pallets other than the federated authority. -/
structure PalletStorage (AccountId Hash Call Other : Type) where
  /-- The storage of the collectives. -/
  collective : CollectiveInstance → Collective AccountId Hash Call
  /-- All that is not modelled. -/
  other : Other

/-- What the runtime is built from. -/
structure Runtime where
  AccountId : Type
  Hash : Type
  OtherCall : Type
  OtherEvent : Type
  /-- The storage of the pallets that are not modelled. -/
  Other : Type
  accountDecEq : DecidableEq AccountId
  hashDecEq : DecidableEq Hash
  /-- The SCALE encoding of a call. -/
  encode : RuntimeCall OtherCall → List UInt8
  /-- The call that the bytes start with, if any. -/
  decode : List UInt8 → Option (RuntimeCall OtherCall)
  blake2256 : List UInt8 → Hash
  callWeight : RuntimeCall OtherCall → Weight
  weightInfo : WeightInfo
  motionDuration : ℕ
  motionDuration_pos : 0 < motionDuration

/-- The configuration of the federated authority pallet in the runtime: two bodies, both of
which have to approve. -/
abbrev Runtime.config (R : Runtime) : Config where
  Origin := RuntimeOrigin R.AccountId
  Call := RuntimeCall R.OtherCall
  Hash := R.Hash
  Rest := PalletStorage R.AccountId R.Hash (RuntimeCall R.OtherCall) R.Other
  OtherEvent := PalletEvent R.AccountId R.Hash R.OtherEvent
  hashDecEq := R.hashDecEq
  maxAuthorityBodies := 2
  motionDuration := R.motionDuration
  motionDuration_pos := R.motionDuration_pos
  proportionN := 1
  proportionD := 1
  motionApprovalOrigin := ensureFromBodies
  motionRevokeOrigin := ensureFromBodies
  isSigned o := match o with
    | .signed _ => true
    | _ => false
  root := .root
  hashOf call := R.blake2256 (R.encode call)
  callWeight := R.callWeight
  weightInfo := R.weightInfo

variable {R : Runtime}

instance : DecidableEq R.AccountId := R.accountDecEq

instance : DecidableEq R.Hash := R.hashDecEq

namespace State

/-- Store a collective. -/
def setCollective (s : State R.config) (i : CollectiveInstance)
    (c : Collective R.AccountId R.Hash (RuntimeCall R.OtherCall)) : State R.config :=
  { s with rest := { s.rest with collective := Function.update s.rest.collective i c } }

/-- `Self::deposit_event` of a collective. -/
def depositCollective (s : State R.config) (i : CollectiveInstance)
    (e : CollectiveEvent R.AccountId R.Hash) : State R.config :=
  { s with events := s.events ++ [.other (.collective i e)] }

/-- Store an open proposal of a collective, or delete it. -/
def setProposal (s : State R.config) (i : CollectiveInstance) (hash : R.Hash)
    (p : Option (Proposal R.AccountId (RuntimeCall R.OtherCall))) : State R.config :=
  s.setCollective i { s.rest.collective i with
    proposals := Function.update (s.rest.collective i).proposals hash p }

/-- The same storage at the start of block `n`, before any event. -/
def startBlock (s : State R.config) (n : ℕ) : State R.config :=
  { s with blockNumber := n, events := [] }

lemma setProposal_startBlock (s : State R.config) (i : CollectiveInstance) (hash : R.Hash)
    (p : Option (Proposal R.AccountId (RuntimeCall R.OtherCall))) (n : ℕ) :
    (s.setProposal i hash p).startBlock n = (s.startBlock n).setProposal i hash p := rfl

@[simp] lemma startBlock_motions (s : State R.config) (n : ℕ) :
    (s.startBlock n).motions = s.motions := rfl

@[simp] lemma startBlock_rest (s : State R.config) (n : ℕ) :
    (s.startBlock n).rest = s.rest := rfl

end State

/-! ### The dispatchables of a collective -/

/-- The errors of a collective. -/
inductive CollectiveError
  | notMember
  | duplicateProposal
  | proposalMissing
  | wrongIndex
  | duplicateVote
  | tooEarly
deriving DecidableEq, Repr

/-- How the calls that are not modelled are dispatched. -/
abbrev OtherDispatcher (R : Runtime) : Type :=
  R.OtherCall → RuntimeOrigin R.AccountId →
    Body (State R.config) (DispatchErrorWithPostInfo Error) PostDispatchInfo

/-- Dispatch a runtime call. -/
def dispatch (d : OtherDispatcher R) : Dispatcher R.config
  | .motionApprove call, origin => withStorageLayer (Governance.motionApprove origin call)
  | .other call, origin => d call origin

/-- Dispatch the call of a proposal in the name of its collective and record the result,
which is not the result of the dispatchable that does it. -/
def executeProposal (d : OtherDispatcher R) (i : CollectiveInstance) (hash : R.Hash)
    (call : RuntimeCall R.OtherCall) (yes : ℕ) (s : State R.config) : State R.config :=
  let seats := (s.rest.collective i).members.length
  match dispatch d call (.members i yes seats) s with
  | (s, .ok _) => s.depositCollective i (.executed hash (.ok ()))
  | (s, .error e) => s.depositCollective i (.executed hash (.error e.error))

/-- Propose a call.  With a threshold of two and more it is opened without any vote. -/
def propose (d : OtherDispatcher R) (i : CollectiveInstance) (who : R.AccountId)
    (threshold : ℕ) (proposal : RuntimeCall R.OtherCall) :
    Body (State R.config) CollectiveError Unit := fun s =>
  let c := s.rest.collective i
  let hash := R.config.hashOf proposal
  if who ∈ c.members then
    if (c.proposals hash).isSome then (s, .error .duplicateProposal)
    else if threshold < 2 then (executeProposal d i hash proposal 1 s, .ok ())
    else
      let index := c.proposalCount
      let s := s.setCollective i { c with proposalCount := index + 1 }
      let s := s.setProposal i hash (some ⟨index, threshold, [], [], proposal⟩)
      (s.depositCollective i (.proposed who index hash threshold), .ok ())
  else (s, .error .notMember)

/-- A vote of a member who has not voted the same before. -/
def Proposal.vote (p : Proposal R.AccountId (RuntimeCall R.OtherCall)) (who : R.AccountId) :
    Bool → Except CollectiveError (Proposal R.AccountId (RuntimeCall R.OtherCall))
  | true =>
      if who ∈ p.ayes then .error .duplicateVote
      else .ok { p with ayes := p.ayes ++ [who], nays := p.nays.erase who }
  | false =>
      if who ∈ p.nays then .error .duplicateVote
      else .ok { p with ayes := p.ayes.erase who, nays := p.nays ++ [who] }

/-- Vote on an open proposal. -/
def vote (i : CollectiveInstance) (who : R.AccountId) (hash : R.Hash) (index : ℕ)
    (approve : Bool) : Body (State R.config) CollectiveError Unit := fun s =>
  let c := s.rest.collective i
  if who ∈ c.members then
    match c.proposals hash with
    | none => (s, .error .proposalMissing)
    | some p =>
        if p.index = index then
          match p.vote who approve with
          | .error e => (s, .error e)
          | .ok p =>
              let s := s.setProposal i hash (some p)
              (s.depositCollective i (.voted who hash approve p.ayes.length p.nays.length),
                .ok ())
        else (s, .error .wrongIndex)
  else (s, .error .notMember)

/-- Close a proposal whose outcome the votes decide; an approved one is dispatched. -/
def close (d : OtherDispatcher R) (i : CollectiveInstance) (hash : R.Hash) (index : ℕ) :
    Body (State R.config) CollectiveError Unit := fun s =>
  let c := s.rest.collective i
  match c.proposals hash with
  | none => (s, .error .proposalMissing)
  | some p =>
      let yes := p.ayes.length
      let no := p.nays.length
      if p.index = index then
        if p.threshold ≤ yes then
          let s := s.depositCollective i (.closed hash yes no)
          let s := s.depositCollective i (.approved hash)
          let s := executeProposal d i hash p.call yes s
          (s.setProposal i hash none, .ok ())
        else if c.members.length - no < p.threshold then
          let s := s.depositCollective i (.closed hash yes no)
          let s := s.depositCollective i (.disapproved hash)
          (s.setProposal i hash none, .ok ())
        else (s, .error .tooEarly)
      else (s, .error .wrongIndex)

/-! ### Signed extrinsics -/

/-- The signed extrinsics that governance takes. -/
inductive SignedExtrinsic (R : Runtime)
  | propose (i : CollectiveInstance) (who : R.AccountId) (threshold : ℕ)
      (proposal : RuntimeCall R.OtherCall)
  | vote (i : CollectiveInstance) (who : R.AccountId) (hash : R.Hash) (index : ℕ)
      (approve : Bool)
  | close (i : CollectiveInstance) (who : R.AccountId) (hash : R.Hash) (index : ℕ)
  | motionClose (who : R.AccountId) (hash : R.Hash)

/-- Why an extrinsic fails. -/
inductive ExtrinsicError
  | collective (e : CollectiveError)
  | federatedAuthority (e : DispatchError Error)
deriving DecidableEq, Repr

/-- The body an extrinsic runs. -/
def SignedExtrinsic.body (d : OtherDispatcher R) :
    SignedExtrinsic R → Body (State R.config) ExtrinsicError Unit
  | .propose i who threshold proposal, s =>
      let (s, r) := Governance.propose d i who threshold proposal s
      (s, r.mapError .collective)
  | .vote i who hash index approve, s =>
      let (s, r) := Governance.vote i who hash index approve s
      (s, r.mapError .collective)
  | .close i _ hash index, s =>
      let (s, r) := Governance.close d i hash index s
      (s, r.mapError .collective)
  | .motionClose who hash, s =>
      match Governance.motionClose (dispatch d) (.signed who) hash s with
      | (s, .ok _) => (s, .ok ())
      | (s, .error e) => (s, .error (.federatedAuthority e.error))

/-- Apply an extrinsic, in a storage layer of its own. -/
def SignedExtrinsic.apply (d : OtherDispatcher R) (x : SignedExtrinsic R) :
    Body (State R.config) ExtrinsicError Unit :=
  withStorageLayer (x.body d)

end MidnightNode.Governance
