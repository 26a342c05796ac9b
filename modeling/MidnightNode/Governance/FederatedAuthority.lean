/-
# The federated authority pallet

Authority bodies approve a *motion*, a runtime call identified by its hash, before the
block at which it ends.  Anyone may close a motion: if enough bodies approve of it, its
call is dispatched as Root, otherwise it can only be removed once it has ended.

The three dispatchables are given as bodies over the runtime's storage; `execute` runs
one the way the runtime does, in a storage layer of its own.
-/
import MidnightNode.Frame.Dispatch
import Mathlib.Data.Finset.Card

namespace MidnightNode.Governance

open StorageLayer MidnightNode.Frame

/-- The index of the pallet whose collective makes up an authority body. -/
abbrev AuthId : Type := ℕ

/-- The weights of the pallet's dispatchables, by the branch that was taken. -/
structure WeightInfo where
  motionApprove : ℕ → Weight
  motionApproveNew : Weight
  motionApproveEnded : Weight
  motionApproveAlreadyApproved : ℕ → Weight
  motionApproveExceedsBounds : Weight
  motionRevoke : ℕ → Weight
  motionRevokeRemove : Weight
  motionRevokeNotFound : Weight
  motionRevokeEnded : Weight
  motionRevokeApprovalMissing : ℕ → Weight
  motionCloseApproved : Weight
  motionCloseExpired : Weight
  motionCloseNotFound : Weight
  motionCloseStillOngoing : Weight

/-- The configuration of the pallet: the types of the runtime it is part of, and the
pallet's own constants.  Block numbers are unbounded here. -/
structure Config where
  /-- The origins of the runtime. -/
  Origin : Type
  /-- The calls a motion may carry. -/
  Call : Type
  /-- The hashes of the runtime. -/
  Hash : Type
  /-- Everything in storage that is not this pallet's, the system's events excepted. -/
  Rest : Type
  /-- The events of the other pallets. -/
  OtherEvent : Type
  /-- Hashes are compared. -/
  hashDecEq : DecidableEq Hash
  /-- The number of authority bodies. -/
  maxAuthorityBodies : ℕ
  /-- For how many blocks a motion accepts changes. -/
  motionDuration : ℕ
  /-- The runtime gives a motion five days. -/
  motionDuration_pos : 0 < motionDuration
  /-- The numerator `N` of the proportion of approvals. -/
  proportionN : ℕ
  /-- The denominator `D` of the proportion of approvals. -/
  proportionD : ℕ
  /-- The body an origin speaks for when it approves. -/
  motionApprovalOrigin : Origin → Option AuthId
  /-- The body an origin speaks for when it revokes. -/
  motionRevokeOrigin : Origin → Option AuthId
  /-- Whether an origin is a signed one. -/
  isSigned : Origin → Bool
  /-- The Root origin. -/
  root : Origin
  /-- `T::Hashing::hash_of`. -/
  hashOf : Call → Hash
  /-- `call.get_dispatch_info().call_weight`. -/
  callWeight : Call → Weight
  /-- The weights of the dispatchables. -/
  weightInfo : WeightInfo

instance (T : Config) : DecidableEq T.Hash := T.hashDecEq

/-- A set of authority bodies within its bound. -/
structure BoundedBTreeSet (bound : ℕ) where
  /-- The elements. -/
  elems : Finset AuthId
  /-- The bound is kept. -/
  card_le : elems.card ≤ bound

namespace BoundedBTreeSet

variable {bound : ℕ}

/-- The empty set. -/
def new : BoundedBTreeSet bound := ⟨∅, by simp⟩

/-- The number of elements. -/
def len (s : BoundedBTreeSet bound) : ℕ := s.elems.card

/-- Insert an element, and report whether it is new; `none` if the bound is in the way. -/
def tryInsert (s : BoundedBTreeSet bound) (a : AuthId) :
    Option (BoundedBTreeSet bound × Bool) :=
  if ha : a ∈ s.elems then some (s, false)
  else if h : s.elems.card < bound then
    some (⟨insert a s.elems, by rw [Finset.card_insert_of_notMem ha]; omega⟩, true)
  else none

/-- Remove an element. -/
def remove (s : BoundedBTreeSet bound) (a : AuthId) : BoundedBTreeSet bound :=
  ⟨s.elems.erase a, (Finset.card_erase_le).trans s.card_le⟩

end BoundedBTreeSet

/-- What is stored of a motion. -/
structure MotionInfo (T : Config) where
  /-- The bodies that approve. -/
  approvals : BoundedBTreeSet T.maxAuthorityBodies
  /-- The block from which on the motion accepts no changes. -/
  endsBlock : ℕ
  /-- The call to dispatch. -/
  call : T.Call

/-- The errors of the pallet. -/
inductive Error
  | motionAlreadyApproved
  | motionApprovalMissing
  | motionApprovalExceedsBounds
  | motionNotFound
  | motionNotEnded
  | motionHasEnded
  | motionTooEarlyToClose
  | motionAlreadyExists
  | motionExpired
deriving DecidableEq, Repr

/-- The events of the pallet.  `motionDispatched` carries the result of the call. -/
inductive Event (T : Config)
  | motionApproved (motionHash : T.Hash) (authId : AuthId)
  | motionDispatched (motionHash : T.Hash) (motionResult : Except (DispatchError Error) Unit)
  | motionExpired (motionHash : T.Hash)
  | motionRevoked (motionHash : T.Hash) (authId : AuthId)
  | motionRemoved (motionHash : T.Hash)

/-- The events of the runtime. -/
inductive RuntimeEvent (T : Config)
  | federatedAuthority (event : Event T)
  | other (event : T.OtherEvent)

/-- The storage of the runtime, as the pallet sees it. -/
structure State (T : Config) where
  /-- The stored motions, by the hash of their call. -/
  motions : T.Hash → Option (MotionInfo T)
  /-- The current block. -/
  blockNumber : ℕ
  /-- The events of the current block. -/
  events : List (RuntimeEvent T)
  /-- The storage of the other pallets. -/
  rest : T.Rest

variable {T : Config}

/-- Dispatch a runtime call with an origin.  A call may write anywhere, also when it then
fails. -/
abbrev Dispatcher (T : Config) : Type :=
  T.Call → T.Origin → Body (State T) (DispatchErrorWithPostInfo Error) PostDispatchInfo

namespace State

/-- Store a motion, or delete it. -/
def setMotion (s : State T) (h : T.Hash) (m : Option (MotionInfo T)) : State T :=
  { s with motions := Function.update s.motions h m }

/-- `Self::deposit_event`. -/
def depositEvent (s : State T) (e : Event T) : State T :=
  { s with events := s.events ++ [.federatedAuthority e] }

/-- The same storage in block `n`. -/
def atBlock (s : State T) (n : ℕ) : State T := { s with blockNumber := n }

@[simp] lemma setMotion_motions (s : State T) (h : T.Hash) (m : Option (MotionInfo T)) :
    (s.setMotion h m).motions = Function.update s.motions h m := rfl

@[simp] lemma setMotion_events (s : State T) (h : T.Hash) (m : Option (MotionInfo T)) :
    (s.setMotion h m).events = s.events := rfl

@[simp] lemma depositEvent_motions (s : State T) (e : Event T) :
    (s.depositEvent e).motions = s.motions := rfl

@[simp] lemma depositEvent_events (s : State T) (e : Event T) :
    (s.depositEvent e).events = s.events ++ [.federatedAuthority e] := rfl

end State

/-- `FederatedAuthorityEnsureProportionAtLeast::reached_proportion`, whose two products
are `u32`. -/
def reachedProportion (T : Config) (n d : ℕ) : Bool :=
  decide ((T.proportionN * d) % 2 ^ 32 ≤ (n * T.proportionD) % 2 ^ 32)

/-- Whether that many approvals suffice. -/
def isMotionApproved (T : Config) (totalApprovals : ℕ) : Bool :=
  reachedProportion T totalApprovals T.maxAuthorityBodies

/-- Whether a motion accepts no more changes. -/
def hasEnded (s : State T) (motion : MotionInfo T) : Bool :=
  decide (motion.endsBlock ≤ s.blockNumber)

/-- Remove a motion. -/
def motionRemove (s : State T) (h : T.Hash) : State T :=
  (s.setMotion h none).depositEvent (.motionRemoved h)

/-- The closure of `motion_approve` that mutates the entry of a motion: the new entry,
whether it was created and the number of approvals it had; or the error and that
number. -/
def approveEntry (s : State T) (authId : AuthId) (call : T.Call) :
    Option (MotionInfo T) → Except (Error × ℕ) (MotionInfo T × Bool × ℕ)
  | some motion =>
      let totalApprovals := motion.approvals.len
      if hasEnded s motion then .error (.motionHasEnded, totalApprovals)
      else
        match motion.approvals.tryInsert authId with
        | some (approvals, true) =>
          .ok ({ motion with approvals := approvals }, false, totalApprovals)
        | some (_, false) => .error (.motionAlreadyApproved, totalApprovals)
        | none => .error (.motionApprovalExceedsBounds, totalApprovals)
  | none =>
      match BoundedBTreeSet.new.tryInsert authId with
      | some (approvals, _) =>
          .ok (⟨approvals, s.blockNumber + T.motionDuration, call⟩, true, 1)
      | none => .error (.motionApprovalExceedsBounds, 0)

/-- The error of a failed `motion_approve`, with the weight of its branch. -/
def approveError (T : Config) : Error × ℕ → DispatchErrorWithPostInfo Error
  | (.motionHasEnded, _) =>
      ⟨⟨some T.weightInfo.motionApproveEnded, .no⟩, .module .motionHasEnded⟩
  | (.motionAlreadyApproved, n) =>
      ⟨⟨some (T.weightInfo.motionApproveAlreadyApproved n), .no⟩, .module .motionAlreadyApproved⟩
  | (.motionApprovalExceedsBounds, _) =>
      ⟨⟨some T.weightInfo.motionApproveExceedsBounds, .no⟩, .module .motionApprovalExceedsBounds⟩
  | (err, _) => .ofError (.module err)

/-- Approve a motion; the first approval creates it. -/
def motionApprove (origin : T.Origin) (call : T.Call) :
    Body (State T) (DispatchErrorWithPostInfo Error) PostDispatchInfo := fun s =>
  match T.motionApprovalOrigin origin with
  | none => (s, .error (.ofError .badOrigin))
  | some authId =>
      let motionHash := T.hashOf call
      match approveEntry s authId call (s.motions motionHash) with
      | .error err => (s, .error (approveError T err))
      | .ok (motion, isNew, totalApprovals) =>
          let s := (s.setMotion motionHash (some motion)).depositEvent
            (.motionApproved motionHash authId)
          let actualWeight :=
            if isNew then T.weightInfo.motionApproveNew
            else T.weightInfo.motionApprove totalApprovals
          (s, .ok ⟨some actualWeight, .no⟩)

/-- The closure of `motion_revoke` that mutates the entry of a motion: the new entry and
the numbers of approvals after and before; or the error and the number before. -/
def revokeEntry (s : State T) (authId : AuthId) :
    Option (MotionInfo T) → Except (Error × ℕ) (MotionInfo T × ℕ × ℕ)
  | none => .error (.motionNotFound, 0)
  | some motion =>
      let initialCount := motion.approvals.len
      if hasEnded s motion then .error (.motionHasEnded, initialCount)
      else if authId ∈ motion.approvals.elems then
        let approvals := motion.approvals.remove authId
        .ok ({ motion with approvals := approvals }, approvals.len, initialCount)
      else .error (.motionApprovalMissing, initialCount)

/-- The error of a failed `motion_revoke`, with the weight of its branch. -/
def revokeError (T : Config) : Error × ℕ → DispatchErrorWithPostInfo Error
  | (.motionNotFound, _) =>
      ⟨⟨some T.weightInfo.motionRevokeNotFound, .no⟩, .module .motionNotFound⟩
  | (.motionHasEnded, _) =>
      ⟨⟨some T.weightInfo.motionRevokeEnded, .no⟩, .module .motionHasEnded⟩
  | (.motionApprovalMissing, n) =>
      ⟨⟨some (T.weightInfo.motionRevokeApprovalMissing n), .no⟩, .module .motionApprovalMissing⟩
  | (err, _) => .ofError (.module err)

/-- Withdraw an approval; a motion that loses its last one is removed. -/
def motionRevoke (origin : T.Origin) (motionHash : T.Hash) :
    Body (State T) (DispatchErrorWithPostInfo Error) PostDispatchInfo := fun s =>
  match T.motionRevokeOrigin origin with
  | none => (s, .error (.ofError .badOrigin))
  | some authId =>
      match revokeEntry s authId (s.motions motionHash) with
      | .error err => (s, .error (revokeError T err))
      | .ok (motion, finalApprovals, initialApprovals) =>
          let s := (s.setMotion motionHash (some motion)).depositEvent
            (.motionRevoked motionHash authId)
          if finalApprovals = 0 then
            (motionRemove s motionHash, .ok ⟨some T.weightInfo.motionRevokeRemove, .no⟩)
          else (s, .ok ⟨some (T.weightInfo.motionRevoke initialApprovals), .no⟩)

/-- `motion.call.dispatch(Root).map(|_| ()).map_err(|e| e.error)`, the computation that
`motion_close` runs in a storage layer. -/
def dispatchRoot (d : Dispatcher T) (call : T.Call) :
    Body (State T) (DispatchError Error) Unit := fun s =>
  match d call T.root s with
  | (s', .ok _) => (s', .ok ())
  | (s', .error e) => (s', .error e.error)

/-- Close a motion: dispatch its call as Root if enough bodies approve of it, and remove
it if it has ended without them. -/
def motionClose (d : Dispatcher T) (origin : T.Origin) (motionHash : T.Hash) :
    Body (State T) (DispatchErrorWithPostInfo Error) PostDispatchInfo := fun s =>
  if T.isSigned origin then
    match s.motions motionHash with
    | none => (s, .error ⟨⟨some T.weightInfo.motionCloseNotFound, .no⟩, .module .motionNotFound⟩)
    | some motion =>
        let totalApprovals := motion.approvals.len
        if isMotionApproved T totalApprovals then
          let dispatchWeight := T.callWeight motion.call
          let (s, motionResult) := withStorageLayer (dispatchRoot d motion.call) s
          let s := s.depositEvent (.motionDispatched motionHash motionResult)
          let s := motionRemove s motionHash
          match motionResult with
          -- `motion_result?` after the cleanup
          | .error e => (s, .error (.ofError e))
          | .ok () =>
              (s, .ok ⟨some (T.weightInfo.motionCloseApproved.saturatingAdd dispatchWeight), .no⟩)
        else if hasEnded s motion then
          let s := s.depositEvent (.motionExpired motionHash)
          (motionRemove s motionHash, .ok ⟨some T.weightInfo.motionCloseExpired, .no⟩)
        else
          (s, .error ⟨⟨some T.weightInfo.motionCloseStillOngoing, .no⟩, .module .motionNotEnded⟩)
  else (s, .error (.ofError .badOrigin))

/-- The calls of the pallet. -/
inductive Extrinsic (T : Config)
  | motionApprove (origin : T.Origin) (call : T.Call)
  | motionRevoke (origin : T.Origin) (motionHash : T.Hash)
  | motionClose (origin : T.Origin) (motionHash : T.Hash)

/-- The body a call runs. -/
def Extrinsic.body (d : Dispatcher T) :
    Extrinsic T → Body (State T) (DispatchErrorWithPostInfo Error) PostDispatchInfo
  | .motionApprove origin call => Governance.motionApprove origin call
  | .motionRevoke origin motionHash => Governance.motionRevoke origin motionHash
  | .motionClose origin motionHash => Governance.motionClose d origin motionHash

/-- Execute a call: the body runs in a storage layer, which discards its writes and events
when it returns an error. -/
def execute (d : Dispatcher T) (x : Extrinsic T) :
    Body (State T) (DispatchErrorWithPostInfo Error) PostDispatchInfo :=
  withStorageLayer (x.body d)

end MidnightNode.Governance
