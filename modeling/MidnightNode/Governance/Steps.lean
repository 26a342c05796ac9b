/-
# What a call of the federated authority pallet does

The effect of a successful call on the stored motions, once for each dispatchable
(`motionApprove_ok`, `motionRevoke_ok`, `motionClose_ok`), and which calls are dispatched
as Root (`rootCall`).
-/
import MidnightNode.Governance.FederatedAuthority
import Mathlib.Data.Finset.Insert

namespace MidnightNode.Governance

open StorageLayer MidnightNode.Frame

variable {T : Config} {d : Dispatcher T}

/-- Dispatched calls do not write to the pallet's own storage. -/
def KeepsMotions (d : Dispatcher T) : Prop :=
  ∀ call origin s, (d call origin s).1.motions = s.motions

/-! ### Inserting into a bounded set -/

lemma BoundedBTreeSet.tryInsert_true {bound : ℕ} {s s' : BoundedBTreeSet bound} {a : AuthId}
    (h : s.tryInsert a = some (s', true)) : a ∉ s.elems ∧ s'.elems = insert a s.elems := by
  by_cases ha : a ∈ s.elems
  · simp [tryInsert, ha] at h
  · refine ⟨ha, ?_⟩
    by_cases hb : s.elems.card < bound
    · simp only [tryInsert, ha, hb, dif_neg, not_false_eq_true, dif_pos, Option.some.injEq,
        Prod.mk.injEq, and_true] at h
      rw [← h]
    · simp [tryInsert, ha, hb] at h

lemma BoundedBTreeSet.new_tryInsert {bound : ℕ} {s' : BoundedBTreeSet bound} {a : AuthId}
    {b : Bool} (h : BoundedBTreeSet.new.tryInsert a = some (s', b)) : s'.elems = {a} := by
  have hnew : a ∉ (BoundedBTreeSet.new : BoundedBTreeSet bound).elems := by simp [new]
  have hb : b = true := by
    simp only [tryInsert, hnew, dif_neg, not_false_eq_true] at h
    split at h
    · simp only [Option.some.injEq, Prod.mk.injEq] at h
      exact h.2.symm
    · exact absurd h (by simp)
  subst hb
  simpa [new] using (tryInsert_true h).2

/-! ### What a successful call does to the motions -/

lemma lt_endsBlock_of_not_hasEnded {s : State T} {m : MotionInfo T} (h : ¬ hasEnded s m = true) :
    s.blockNumber < m.endsBlock := by
  simpa [hasEnded] using h

/-- The new entry of an approval: a motion with one approval, or one more approval of a motion
that has not ended. -/
lemma approveEntry_ok {s : State T} {a : AuthId} {c : T.Call} {entry : Option (MotionInfo T)}
    {m : MotionInfo T} {isNew : Bool} {n : ℕ}
    (h : approveEntry s a c entry = .ok (m, isNew, n)) :
    (entry = none ∧ m.approvals.elems = {a} ∧
        m.endsBlock = s.blockNumber + T.motionDuration ∧ m.call = c) ∨
      ∃ m₀, entry = some m₀ ∧ s.blockNumber < m₀.endsBlock ∧
        a ∉ m₀.approvals.elems ∧ m.approvals.elems = insert a m₀.approvals.elems ∧
        m.endsBlock = m₀.endsBlock ∧ m.call = m₀.call := by
  cases entry with
  | none =>
    left
    rw [approveEntry] at h
    split at h
    · rename_i approvals b hins
      simp only [Except.ok.injEq, Prod.mk.injEq] at h
      obtain ⟨rfl, -, -⟩ := h
      exact ⟨rfl, BoundedBTreeSet.new_tryInsert hins, rfl, rfl⟩
    · exact absurd h (by simp)
  | some m₀ =>
    right
    rw [approveEntry] at h
    by_cases hend : hasEnded s m₀ = true
    · simp [hend] at h
    · rw [if_neg hend] at h
      split at h
      · rename_i approvals hins
        simp only [Except.ok.injEq, Prod.mk.injEq] at h
        obtain ⟨rfl, -, -⟩ := h
        obtain ⟨hna, helems⟩ := BoundedBTreeSet.tryInsert_true hins
        exact ⟨m₀, rfl, lt_endsBlock_of_not_hasEnded hend, hna, helems, rfl, rfl⟩
      · exact absurd h (by simp)
      · exact absurd h (by simp)

/-- A successful approval creates the motion, or adds the body to a motion that has not
ended. -/
lemma motionApprove_ok {o : T.Origin} {c : T.Call} {s s' : State T} {p : PostDispatchInfo}
    (h : motionApprove o c s = (s', .ok p)) :
    ∃ a m, T.motionApprovalOrigin o = some a ∧
      s'.motions = Function.update s.motions (T.hashOf c) (some m) ∧
      ((s.motions (T.hashOf c) = none ∧ m.approvals.elems = {a} ∧
          m.endsBlock = s.blockNumber + T.motionDuration ∧ m.call = c) ∨
        ∃ m₀, s.motions (T.hashOf c) = some m₀ ∧ s.blockNumber < m₀.endsBlock ∧
          a ∉ m₀.approvals.elems ∧ m.approvals.elems = insert a m₀.approvals.elems ∧
          m.endsBlock = m₀.endsBlock ∧ m.call = m₀.call) := by
  unfold motionApprove at h
  cases ho : T.motionApprovalOrigin o with
  | none => simp [ho] at h
  | some a =>
    simp only [ho] at h
    cases he : approveEntry s a c (s.motions (T.hashOf c)) with
    | error err => simp [he] at h
    | ok r =>
      obtain ⟨m, isNew, n⟩ := r
      simp only [he, Prod.mk.injEq] at h
      obtain ⟨rfl, -⟩ := h
      exact ⟨a, m, rfl, by simp, approveEntry_ok he⟩

/-- An approval is rejected and leaves the storage alone, or it stores a motion and
deposits its event. -/
lemma motionApprove_cases (o : T.Origin) (c : T.Call) (s : State T) :
    (∃ e, motionApprove o c s = (s, .error e)) ∨
      ∃ a m p, T.motionApprovalOrigin o = some a ∧ motionApprove o c s =
        ((s.setMotion (T.hashOf c) (some m)).depositEvent (.motionApproved (T.hashOf c) a),
          .ok p) := by
  unfold motionApprove
  cases ho : T.motionApprovalOrigin o with
  | none => exact .inl ⟨_, rfl⟩
  | some a =>
    dsimp only
    cases he : approveEntry s a c (s.motions (T.hashOf c)) with
    | error err => exact .inl ⟨_, rfl⟩
    | ok r => exact .inr ⟨a, r.1, _, rfl, rfl⟩

/-- What an approval makes of the motions depends on the motions and the block alone. -/
lemma motionApprove_motions_congr (o : T.Origin) (c : T.Call) {s s' : State T}
    (hm : s.motions = s'.motions) (hb : s.blockNumber = s'.blockNumber) :
    (motionApprove o c s).1.motions = (motionApprove o c s').1.motions := by
  have hentry : ∀ a entry, approveEntry s a c entry = approveEntry s' a c entry := by
    intro a entry
    have hended : ∀ m, hasEnded s m = hasEnded s' m := fun m => by simp only [hasEnded, hb]
    cases entry with
    | none => simp only [approveEntry, hb]
    | some m => simp only [approveEntry, hended]
  unfold motionApprove
  cases T.motionApprovalOrigin o with
  | none => exact hm
  | some a =>
    simp only [hentry, hm]
    cases approveEntry s' a c (s'.motions (T.hashOf c)) with
    | error err => exact hm
    | ok r => simp [hm]

/-- An approval of an origin that speaks for no body. -/
lemma motionApprove_of_none {o : T.Origin} {c : T.Call} {s : State T}
    (ho : T.motionApprovalOrigin o = none) : (motionApprove o c s).1 = s := by
  simp only [motionApprove, ho]

/-- An approval that the entry of the motion rejects. -/
lemma motionApprove_of_error {o : T.Origin} {c : T.Call} {s : State T} {a : AuthId}
    {err : Error × ℕ} (ho : T.motionApprovalOrigin o = some a)
    (he : approveEntry s a c (s.motions (T.hashOf c)) = .error err) :
    (motionApprove o c s).1 = s := by
  simp only [motionApprove, ho, he]

/-- An approval that the entry of the motion takes. -/
lemma motionApprove_of_ok {o : T.Origin} {c : T.Call} {s : State T} {a : AuthId}
    {m : MotionInfo T} {isNew : Bool} {n : ℕ} (ho : T.motionApprovalOrigin o = some a)
    (he : approveEntry s a c (s.motions (T.hashOf c)) = .ok (m, isNew, n)) :
    (motionApprove o c s).1.motions = Function.update s.motions (T.hashOf c) (some m) := by
  simp only [motionApprove, ho, he, State.depositEvent_motions, State.setMotion_motions]

/-- A successful revocation takes the body out of a motion that has not ended, and removes
the motion if no approval is left. -/
lemma motionRevoke_ok {o : T.Origin} {h : T.Hash} {s s' : State T} {p : PostDispatchInfo}
    (hr : motionRevoke o h s = (s', .ok p)) :
    ∃ a m₀, T.motionRevokeOrigin o = some a ∧ s.motions h = some m₀ ∧
      s.blockNumber < m₀.endsBlock ∧ a ∈ m₀.approvals.elems ∧
      (s'.motions = Function.update s.motions h none ∨
        ∃ m, s'.motions = Function.update s.motions h (some m) ∧
          m.approvals.elems = m₀.approvals.elems.erase a ∧ m.approvals.elems.Nonempty ∧
          m.endsBlock = m₀.endsBlock ∧ m.call = m₀.call) := by
  unfold motionRevoke at hr
  cases ho : T.motionRevokeOrigin o with
  | none => simp [ho] at hr
  | some a =>
    simp only [ho] at hr
    cases hm : s.motions h with
    | none => simp [hm, revokeEntry] at hr
    | some m₀ =>
      rw [hm, revokeEntry] at hr
      by_cases hend : hasEnded s m₀ = true
      · simp [hend] at hr
      · by_cases ha : a ∈ m₀.approvals.elems
        · refine ⟨a, m₀, rfl, rfl, lt_endsBlock_of_not_hasEnded hend, ha, ?_⟩
          simp only [hend, Bool.false_eq_true, if_false, ha, if_true] at hr
          by_cases hz : (m₀.approvals.remove a).len = 0
          · left
            simp only [hz, if_true, Prod.mk.injEq] at hr
            obtain ⟨rfl, -⟩ := hr
            simp [motionRemove]
          · right
            simp only [hz, if_false, Prod.mk.injEq] at hr
            obtain ⟨rfl, -⟩ := hr
            refine ⟨{ m₀ with approvals := m₀.approvals.remove a }, rfl, rfl, ?_, rfl, rfl⟩
            exact Finset.card_pos.1 (Nat.pos_of_ne_zero hz)
        · simp [hend, ha] at hr

/-- The call a close of the motion at `h` dispatches as Root, if it dispatches one. -/
def rootCall (s : State T) (o : T.Origin) (h : T.Hash) : Option T.Call :=
  if T.isSigned o then
    (s.motions h).bind fun m =>
      if isMotionApproved T m.approvals.len then some m.call else none
  else none

lemma rootCall_eq_some_iff {s : State T} {o : T.Origin} {h : T.Hash} {c : T.Call} :
    rootCall s o h = some c ↔ T.isSigned o = true ∧ ∃ m, s.motions h = some m ∧
      isMotionApproved T m.approvals.len = true ∧ m.call = c := by
  unfold rootCall
  by_cases hs : T.isSigned o = true
  · simp only [hs, if_true, Option.bind_eq_some_iff, true_and]
    constructor
    · rintro ⟨m, hm, hc⟩
      by_cases ha : isMotionApproved T m.approvals.len = true
      · exact ⟨m, hm, ha, by simpa [ha] using hc⟩
      · simp [ha] at hc
    · rintro ⟨m, hm, ha, rfl⟩
      exact ⟨m, hm, by simp [ha]⟩
  · simp [hs]

/-- A close of the motion `h` runs `c` as Root: in a storage layer of its own, after which the
result is recorded and the motion removed, whatever the result.  The close succeeds if `c`
does. -/
structure ClosesWith (d : Dispatcher T) (s : State T) (o : T.Origin) (h : T.Hash) (c : T.Call) :
    Prop where
  state : (motionClose d o h s).1 =
    motionRemove (((withStorageLayer (dispatchRoot d c) s).1).depositEvent
      (.motionDispatched h (withStorageLayer (dispatchRoot d c) s).2)) h
  succeeds : (∃ p, (motionClose d o h s).2 = .ok p) ↔ (dispatchRoot d c s).2 = .ok ()

/-- A close runs the call that it dispatches. -/
lemma closesWith_of_rootCall {s : State T} {o : T.Origin} {h : T.Hash} {c : T.Call}
    (hc : rootCall s o h = some c) : ClosesWith d s o h c := by
  obtain ⟨hs, m, hm, ha, rfl⟩ := rootCall_eq_some_iff.1 hc
  have hsnd := withStorageLayer_snd (dispatchRoot d m.call) s
  rcases hw : withStorageLayer (dispatchRoot d m.call) s with ⟨s', e | u⟩
  · rw [hw] at hsnd
    refine ⟨?_, ?_⟩
    · simp [motionClose, hs, hm, ha, hw]
    · simp [motionClose, hs, hm, ha, hw, ← hsnd]
  · cases u
    rw [hw] at hsnd
    refine ⟨?_, ?_⟩
    · simp [motionClose, hs, hm, ha, hw]
    · simp [motionClose, hs, hm, ha, hw, ← hsnd]

/-- A close that dispatches nothing does the same whatever calls do. -/
lemma motionClose_congr {s : State T} {o : T.Origin} {h : T.Hash} (hc : rootCall s o h = none)
    (d d' : Dispatcher T) : motionClose d o h s = motionClose d' o h s := by
  unfold rootCall at hc
  unfold motionClose
  split
  · rename_i hs
    rw [if_pos hs] at hc
    cases hm : s.motions h with
    | none => rfl
    | some m =>
      rw [hm] at hc
      have ha : ¬ isMotionApproved T m.approvals.len = true := by
        intro ha
        simp [ha] at hc
      simp only [ha, Bool.false_eq_true, if_false]
  · rfl

/-- A dispatch as Root leaves the motions alone, whether it is rolled back or not. -/
lemma withStorageLayer_dispatchRoot_motions (hd : KeepsMotions d) (c : T.Call) (s : State T) :
    (withStorageLayer (dispatchRoot d c) s).1.motions = s.motions := by
  refine withStorageLayer_rel (R := fun s₁ s₂ : State T => s₂.motions = s₁.motions)
    (fun _ => rfl) ?_ s
  intro s₁ s₂ u hu
  have hk := hd c T.root s₁
  unfold dispatchRoot at hu
  rcases hds : d c T.root s₁ with ⟨s₃, e | q⟩
  · simp [hds] at hu
  · simp only [hds, Prod.mk.injEq] at hu
    rw [hds] at hk
    rw [← hu.1]
    exact hk

/-- A close that dispatches nothing removes a motion that has ended, or fails without a write and
reports no weight or that of one of these two branches. -/
lemma motionClose_of_rootCall_eq_none {s : State T} {o : T.Origin} {h : T.Hash}
    (hc : rootCall s o h = none) :
    (s.motions h ≠ none ∧ motionClose d o h s =
        (motionRemove (s.depositEvent (.motionExpired h)) h,
          .ok ⟨some T.weightInfo.motionCloseExpired, .no⟩)) ∨
      ∃ e, motionClose d o h s = (s, .error e) ∧ ∀ w, e.postInfo.actualWeight = some w →
        w = T.weightInfo.motionCloseNotFound ∨ w = T.weightInfo.motionCloseStillOngoing := by
  unfold motionClose
  unfold rootCall at hc
  by_cases hs : T.isSigned o = true
  · rw [if_pos hs] at hc ⊢
    cases hm : s.motions h with
    | none => exact .inr ⟨_, rfl, fun w hw => .inl (Option.some.inj hw).symm⟩
    | some m =>
      rw [hm] at hc
      have ha : ¬ isMotionApproved T m.approvals.len = true := by
        intro ha
        simp [ha] at hc
      by_cases hend : hasEnded s m = true
      · exact .inl ⟨by simp, by simp only [ha, hend, Bool.false_eq_true, if_false, if_true]⟩
      · refine .inr ⟨_, by simp only [ha, hend, Bool.false_eq_true, if_false]; rfl, ?_⟩
        exact fun w hw => .inr (Option.some.inj hw).symm
  · rw [if_neg hs]
    refine .inr ⟨_, rfl, fun w hw => ?_⟩
    simp [DispatchErrorWithPostInfo.ofError, PostDispatchInfo.unknown] at hw

/-- A successful close removes the motion, and nothing else changes among the motions. -/
lemma motionClose_ok (hd : KeepsMotions d) {o : T.Origin} {h : T.Hash} {s s' : State T}
    {p : PostDispatchInfo} (hr : motionClose d o h s = (s', .ok p)) :
    s'.motions = Function.update s.motions h none ∧ s.motions h ≠ none := by
  cases hc : rootCall s o h with
  | some c =>
    obtain ⟨-, m, hm, -, -⟩ := rootCall_eq_some_iff.1 hc
    have hs' := (closesWith_of_rootCall (d := d) hc).state
    rw [hr] at hs'
    dsimp only at hs'
    refine ⟨?_, by simp [hm]⟩
    rw [hs']
    simp [motionRemove, withStorageLayer_dispatchRoot_motions hd]
  | none =>
    rcases motionClose_of_rootCall_eq_none (d := d) hc with ⟨hne, hclose⟩ | ⟨e, hclose, -⟩
    · rw [hclose, Prod.mk.injEq] at hr
      rw [← hr.1]
      exact ⟨by simp [motionRemove], hne⟩
    · rw [hclose] at hr
      exact absurd hr (by simp)

/-! ### Closing an approved motion -/

/-- The motion `h` with call `c` was consumed between `s` and `s'`: it is gone, exactly its
dispatch, with the result of the call, and its removal are recorded after the events the
call itself left, and of a call that failed no write is left. -/
structure Consumed (d : Dispatcher T) (s : State T) (h : T.Hash) (c : T.Call)
    (s' : State T) : Prop where
  gone : s'.motions h = none
  events : s'.events = (withStorageLayer (dispatchRoot d c) s).1.events ++
    [.federatedAuthority (.motionDispatched h (dispatchRoot d c s).2),
      .federatedAuthority (.motionRemoved h)]
  rolledBack : ∀ e, (dispatchRoot d c s).2 = .error e →
    s'.rest = s.rest ∧ ∀ h', h' ≠ h → s'.motions h' = s.motions h'

/-- What the body of `motion_close` leaves is a consumed motion, whether or not the call
succeeds: the event and the removal stand outside the layer of the call. -/
lemma consumed_body {s : State T} {o : T.Origin} {h : T.Hash} {c : T.Call}
    (hc : rootCall s o h = some c) : Consumed d s h c (motionClose d o h s).1 := by
  rw [(closesWith_of_rootCall (d := d) hc).state]
  refine ⟨by simp [motionRemove], by simp [motionRemove, withStorageLayer_snd], ?_⟩
  intro e he
  have hsnd := withStorageLayer_snd (dispatchRoot d c) s
  rw [he] at hsnd
  rcases hb : dispatchRoot d c s with ⟨s', e' | u⟩
  · rw [withStorageLayer_of_error hb]
    refine ⟨rfl, fun h' hne => ?_⟩
    simp [motionRemove, Function.update_of_ne hne]
  · rw [hb] at he
    exact absurd he (by simp)

/-- Closing an approved motion consumes it exactly when its call succeeds.  When the call
fails, `motion_close` itself returns the error, and the layer the runtime executes it in
discards the removal and both events. -/
theorem motion_close_consumes_iff {s : State T} {o : T.Origin} {h : T.Hash} {c : T.Call}
    (hc : rootCall s o h = some c) :
    Consumed d s h c (execute d (.motionClose o h) s).1 ↔ (dispatchRoot d c s).2 = .ok () := by
  have hbody := (closesWith_of_rootCall (d := d) hc).succeeds
  constructor
  · intro hcons
    by_contra hne
    have herr : ∃ e, (motionClose d o h s).2 = .error e := by
      rcases hr : (motionClose d o h s).2 with e | p
      · exact ⟨e, rfl⟩
      · exact absurd (hbody.1 ⟨p, hr⟩) hne
    obtain ⟨e, he⟩ := herr
    -- the outer layer restores the storage, and with it the motion
    have hsame : (execute d (.motionClose o h) s).1 = s := by
      have hrun : Extrinsic.body d (.motionClose o h) s =
          ((motionClose d o h s).1, .error e) := Prod.ext rfl he
      rw [execute, withStorageLayer_of_error hrun]
    obtain ⟨-, m, hm, -, -⟩ := rootCall_eq_some_iff.1 hc
    have hgone := hcons.gone
    rw [hsame, hm] at hgone
    exact absurd hgone (by simp)
  · intro hok
    obtain ⟨p, hp⟩ := hbody.2 hok
    have hsame : (execute d (.motionClose o h) s).1 = (motionClose d o h s).1 := by
      have hrun : Extrinsic.body d (.motionClose o h) s =
          ((motionClose d o h s).1, .ok p) := Prod.ext rfl hp
      rw [execute, withStorageLayer_of_ok hrun]
    rw [hsame]
    exact consumed_body hc

/-- The origins of a runtime with two authority bodies. -/
inductive DemoOrigin
  | root
  | council
  | technicalCommittee
  | signed
deriving DecidableEq, Repr

/-- Two bodies that must both approve, as the runtime configures the pallet. -/
def twoBodies : Config where
  Origin := DemoOrigin
  Call := ℕ
  Hash := ℕ
  Rest := ℕ
  OtherEvent := Empty
  hashDecEq := inferInstance
  maxAuthorityBodies := 2
  motionDuration := 5 * 14400
  motionDuration_pos := by decide
  proportionN := 1
  proportionD := 1
  motionApprovalOrigin
    | .council => some 40
    | .technicalCommittee => some 42
    | _ => none
  motionRevokeOrigin
    | .council => some 40
    | .technicalCommittee => some 42
    | _ => none
  isSigned
    | .signed => true
    | _ => false
  root := .root
  hashOf := id
  callWeight _ := ⟨1, 0⟩
  weightInfo :=
    { motionApprove := fun _ => ⟨1, 0⟩, motionApproveNew := ⟨1, 0⟩, motionApproveEnded := ⟨1, 0⟩,
      motionApproveAlreadyApproved := fun _ => ⟨1, 0⟩, motionApproveExceedsBounds := ⟨1, 0⟩,
      motionRevoke := fun _ => ⟨1, 0⟩, motionRevokeRemove := ⟨1, 0⟩,
      motionRevokeNotFound := ⟨1, 0⟩, motionRevokeEnded := ⟨1, 0⟩,
      motionRevokeApprovalMissing := fun _ => ⟨1, 0⟩, motionCloseApproved := ⟨1, 0⟩,
      motionCloseExpired := ⟨1, 0⟩, motionCloseNotFound := ⟨1, 0⟩,
      motionCloseStillOngoing := ⟨1, 0⟩ }

/-- Calls write their number to storage; the call `0` writes it and then fails. -/
def writingCalls : Dispatcher twoBodies := fun (call : ℕ) _ s =>
  ({ s with rest := call }, if call = 0 then .error (.ofError (.other 0)) else .ok .unknown)

/-- A storage in block `10` in which both bodies approve of the call `c`. -/
def bothApprove (c : twoBodies.Call) : State twoBodies where
  motions := Function.update (fun _ => none) c (some ⟨⟨{40, 42}, by decide⟩, 20, c⟩)
  blockNumber := 10
  events := []
  rest := (99 : ℕ)

theorem motion_close_consumes_seven :
    Consumed writingCalls (bothApprove (7 : ℕ)) (7 : ℕ) (7 : ℕ)
      (execute writingCalls (.motionClose .signed (7 : ℕ)) (bothApprove (7 : ℕ))).1 := by
  have hroot : rootCall (bothApprove (7 : ℕ)) .signed (7 : ℕ) = some (7 : ℕ) := rfl
  exact (motion_close_consumes_iff hroot).2 rfl

/-- The failing call `0`: its motion is approved, and it is still stored after the close,
with nothing recorded. -/
theorem motion_close_keeps_failing :
    rootCall (bothApprove (0 : ℕ)) .signed (0 : ℕ) = some (0 : ℕ) ∧
      ¬ Consumed writingCalls (bothApprove (0 : ℕ)) (0 : ℕ) (0 : ℕ)
        (execute writingCalls (.motionClose .signed (0 : ℕ)) (bothApprove (0 : ℕ))).1 ∧
      (execute writingCalls (.motionClose .signed (0 : ℕ)) (bothApprove (0 : ℕ))).1.events =
        [] := by
  have hroot : rootCall (bothApprove (0 : ℕ)) .signed (0 : ℕ) = some (0 : ℕ) := rfl
  have hstays : (execute writingCalls (.motionClose .signed (0 : ℕ)) (bothApprove (0 : ℕ))).1 =
      bothApprove (0 : ℕ) := rfl
  rw [hstays]
  exact ⟨hroot, fun h => absurd h.gone (Option.some_ne_none _), rfl⟩

end MidnightNode.Governance
