/-
# Dispatchables

The part of FRAME that the pallets below share: weights, the information a dispatchable
returns after it ran, and its errors.  A dispatchable body is a `StorageLayer.Body`; the
runtime executes it in a storage layer of its own.
-/
import MidnightNode.Lib.StorageLayer
import Mathlib.Algebra.Group.Nat.Defs
import Mathlib.Data.Nat.Notation

namespace MidnightNode.Frame

/-- `u64::MAX`. -/
def u64Max : ℕ := 2 ^ 64 - 1

/-- A weight: computation time and proof size, both `u64`. -/
structure Weight where
  /-- Computational time. -/
  refTime : ℕ
  /-- Storage proof size. -/
  proofSize : ℕ
deriving DecidableEq, Repr

/-- `Weight::saturating_add`. -/
def Weight.saturatingAdd (v w : Weight) : Weight :=
  ⟨min (v.refTime + w.refTime) u64Max, min (v.proofSize + w.proofSize) u64Max⟩

/-- `Weight::max`: the larger of each component. -/
def Weight.max (v w : Weight) : Weight :=
  ⟨Nat.max v.refTime w.refTime, Nat.max v.proofSize w.proofSize⟩

/-- Whether a dispatch pays its fee. -/
inductive Pays
  | yes
  | no
deriving DecidableEq, Repr

/-- What a dispatchable reports after it ran. -/
structure PostDispatchInfo where
  /-- The weight it consumed, if it differs from the declared one. -/
  actualWeight : Option Weight
  /-- Whether the caller pays. -/
  paysFee : Pays
deriving DecidableEq, Repr

/-- The post-dispatch information of an error converted by `?` alone. -/
def PostDispatchInfo.unknown : PostDispatchInfo := ⟨none, .yes⟩

/-- A dispatch error: a rejected origin, an error of the pallet at hand, or any error of
another pallet. -/
inductive DispatchError (Error : Type)
  | badOrigin
  | module (error : Error)
  | other (code : ℕ)
deriving DecidableEq, Repr

/-- An error together with the information on the part that ran. -/
structure DispatchErrorWithPostInfo (Error : Type) where
  /-- What was consumed before the error. -/
  postInfo : PostDispatchInfo
  /-- The error. -/
  error : DispatchError Error
deriving DecidableEq, Repr

/-- A `DispatchError` raised by `?`, with no post-dispatch information. -/
def DispatchErrorWithPostInfo.ofError {Error : Type} (e : DispatchError Error) :
    DispatchErrorWithPostInfo Error := ⟨.unknown, e⟩

end MidnightNode.Frame
