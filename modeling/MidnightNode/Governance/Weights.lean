/-
# The weight of closing a motion

FRAME reserves the weight that is declared for a call, and afterwards lowers the charge to the
weight the call reports; what is reported above the declared weight is charged to nobody.
`motion_close` declares the larger of the weights of its two own branches, and reports the
weight of the dispatched call on top of them.
-/
import MidnightNode.Governance.Steps

namespace MidnightNode.Frame

namespace Weight

/-- `Weight::all_lte`: both components are at most those of the other weight. -/
def AllLte (v w : Weight) : Prop :=
  v.refTime ≤ w.refTime ∧ v.proofSize ≤ w.proofSize

instance (v w : Weight) : Decidable (v.AllLte w) :=
  inferInstanceAs (Decidable (_ ∧ _))

/-- There is room for `w` between `base` and `bound`.  No weight is too much for a component
that is at the end of its range. -/
def FitsAbove (w base bound : Weight) : Prop :=
  (w.refTime ≤ bound.refTime - base.refTime ∨ u64Max ≤ bound.refTime) ∧
    (w.proofSize ≤ bound.proofSize - base.proofSize ∨ u64Max ≤ bound.proofSize)

lemma allLte_max_left (v w : Weight) : v.AllLte (v.max w) :=
  ⟨Nat.le_max_left _ _, Nat.le_max_left _ _⟩

lemma allLte_max_right (v w : Weight) : w.AllLte (v.max w) :=
  ⟨Nat.le_max_right _ _, Nat.le_max_right _ _⟩

lemma saturatingAdd_allLte_iff {base bound : Weight} (h : base.AllLte bound) (w : Weight) :
    (base.saturatingAdd w).AllLte bound ↔ w.FitsAbove base bound := by
  obtain ⟨hr, hp⟩ := h
  simp only [AllLte, FitsAbove, saturatingAdd]
  omega

end Weight

/-- The weight that the result of a call reports, if it reports one. -/
def actualWeight {Error : Type} :
    Except (DispatchErrorWithPostInfo Error) PostDispatchInfo → Option Weight
  | .ok postInfo => postInfo.actualWeight
  | .error e => e.postInfo.actualWeight

end MidnightNode.Frame

namespace MidnightNode.Governance

open StorageLayer MidnightNode.Frame

variable {T : Config} {d : Dispatcher T} {s : State T} {o : T.Origin} {h : T.Hash} {c : T.Call}

variable (T) in
/-- The weight declared for `motion_close`. -/
def motionCloseWeight : Weight :=
  T.weightInfo.motionCloseApproved.max T.weightInfo.motionCloseExpired

/-- A close that dispatches a call successfully reports its own weight and that of the call. -/
lemma actualWeight_of_dispatched (hc : rootCall s o h = some c)
    (hok : (dispatchRoot d c s).2 = .ok ()) :
    actualWeight (motionClose d o h s).2 =
      some (T.weightInfo.motionCloseApproved.saturatingAdd (T.callWeight c)) := by
  obtain ⟨hs, m, hm, ha, rfl⟩ := rootCall_eq_some_iff.1 hc
  rw [← withStorageLayer_snd] at hok
  unfold motionClose
  rcases hw : withStorageLayer (dispatchRoot d m.call) s with ⟨s', e | u⟩
  · rw [hw] at hok
    exact absurd hok (by simp)
  · simp [hs, hm, ha, hw, actualWeight]

/-- A close whose call fails reports no weight. -/
lemma actualWeight_of_failed (hc : rootCall s o h = some c)
    (hfail : (dispatchRoot d c s).2 ≠ .ok ()) :
    actualWeight (motionClose d o h s).2 = none := by
  obtain ⟨hs, m, hm, ha, rfl⟩ := rootCall_eq_some_iff.1 hc
  rw [← withStorageLayer_snd] at hfail
  unfold motionClose
  rcases hw : withStorageLayer (dispatchRoot d m.call) s with ⟨s', e | u⟩
  · simp [hs, hm, ha, hw, actualWeight, DispatchErrorWithPostInfo.ofError,
      PostDispatchInfo.unknown]
  · rw [hw] at hfail
    exact absurd rfl hfail

/-- A close that dispatches nothing reports the weight of one of the other branches. -/
lemma actualWeight_of_not_dispatched (hc : rootCall s o h = none) {w : Weight}
    (hw : actualWeight (motionClose d o h s).2 = some w) :
    w = T.weightInfo.motionCloseNotFound ∨ w = T.weightInfo.motionCloseExpired ∨
      w = T.weightInfo.motionCloseStillOngoing := by
  rcases motionClose_of_rootCall_eq_none (d := d) hc with ⟨-, hclose⟩ | ⟨e, hclose, hweight⟩
  · rw [hclose] at hw
    exact .inr (.inl (Option.some.inj hw).symm)
  · rw [hclose] at hw
    rcases hweight w hw with rfl | rfl
    · exact .inl rfl
    · exact .inr (.inr rfl)

/-- **When the declared weight covers a close.**  The weight that `motion_close` reports is at
most the declared one exactly if the call it dispatches, should it succeed, fits between the
weight of an approved close and the declared weight. -/
theorem motion_close_weight_le_iff
    (hnotFound : T.weightInfo.motionCloseNotFound.AllLte (motionCloseWeight T))
    (hongoing : T.weightInfo.motionCloseStillOngoing.AllLte (motionCloseWeight T))
    (d : Dispatcher T) (s : State T) (o : T.Origin) (h : T.Hash) :
    (∀ w, actualWeight (execute d (.motionClose o h) s).2 = some w →
        w.AllLte (motionCloseWeight T)) ↔
      ∀ c, rootCall s o h = some c → (dispatchRoot d c s).2 = .ok () →
        (T.callWeight c).FitsAbove T.weightInfo.motionCloseApproved (motionCloseWeight T) := by
  have hexec : (execute d (.motionClose o h) s).2 = (motionClose d o h s).2 :=
    withStorageLayer_snd _ _
  have happroved := Weight.allLte_max_left T.weightInfo.motionCloseApproved
    T.weightInfo.motionCloseExpired
  rw [hexec]
  cases hc : rootCall s o h with
  | none =>
    refine ⟨fun _ c hsome => absurd hsome (by simp), fun _ w hw => ?_⟩
    rcases actualWeight_of_not_dispatched hc hw with rfl | rfl | rfl
    · exact hnotFound
    · exact Weight.allLte_max_right _ _
    · exact hongoing
  | some c =>
    constructor
    · intro hle c' hc' hok
      obtain rfl := Option.some.inj hc'
      exact (Weight.saturatingAdd_allLte_iff happroved _).1
        (hle _ (actualWeight_of_dispatched hc hok))
    · intro hfits w hw
      by_cases hok : (dispatchRoot d c s).2 = .ok ()
      · rw [actualWeight_of_dispatched hc hok] at hw
        rw [← Option.some.inj hw]
        exact (Weight.saturatingAdd_allLte_iff happroved _).2 (hfits c rfl hok)
      · rw [actualWeight_of_failed hc hok] at hw
        exact absurd hw (by simp)

/-- Two bodies for which the close of an expired motion costs more than that of an approved
one. -/
def slowExpiry : Config :=
  { twoBodies with weightInfo := { twoBodies.weightInfo with motionCloseExpired := ⟨3, 0⟩ } }

/-- Their motion for the call `7`, which both approve. -/
def slowExpiryApproved : State slowExpiry where
  motions := Function.update (fun _ => none) (7 : ℕ)
    (some ⟨⟨{40, 42}, by decide⟩, 20, (7 : ℕ)⟩)
  blockNumber := 10
  events := []
  rest := (99 : ℕ)

/-- All calls succeed. -/
def successfulCalls : Dispatcher slowExpiry := fun _ _ s => (s, .ok .unknown)

/-- The close reports its own weight and that of the call, for which there is room. -/
theorem motion_close_weight_fits :
    actualWeight (execute successfulCalls (.motionClose .signed (7 : ℕ)) slowExpiryApproved).2 =
        some ⟨2, 0⟩ ∧
      ∀ w, actualWeight (execute successfulCalls (.motionClose .signed (7 : ℕ))
          slowExpiryApproved).2 = some w → w.AllLte (motionCloseWeight slowExpiry) := by
  refine ⟨rfl, (motion_close_weight_le_iff (by decide) (by decide) successfulCalls
    slowExpiryApproved .signed (7 : ℕ)).2 fun c _ _ => ?_⟩
  exact ⟨Or.inl (by decide : 1 ≤ 3 - 1), Or.inl (by decide : 0 ≤ 0 - 0)⟩

/-- The call `7` is dispatched with a weight of its own, which the declared weight leaves no
room for. -/
theorem motion_close_weight_exceeds :
    actualWeight (execute writingCalls (.motionClose .signed (7 : ℕ))
        (bothApprove (7 : ℕ))).2 = some ⟨2, 0⟩ ∧
      motionCloseWeight twoBodies = ⟨1, 0⟩ ∧
      ¬ Weight.AllLte ⟨2, 0⟩ (motionCloseWeight twoBodies) :=
  ⟨rfl, rfl, by decide⟩

end MidnightNode.Governance
