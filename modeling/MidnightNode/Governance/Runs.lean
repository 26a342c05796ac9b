/-
# Runs of the federated authority pallet

A run executes calls one after the other, each in a block, and keeps a record of each: the
storage before and after it, and its result.  The stored approvals of a motion are exactly
the bodies whose latest successful action on it, since it was created, is an approval
(`MotionInv`, kept by every step), and what Root is given follows from that.

A call that fails is rolled back and leaves no trace in storage, so the actions of a body
are its *successful* approvals and revocations.
-/
import MidnightNode.Governance.Steps
import Mathlib.Data.List.Basic

namespace MidnightNode.Governance

open StorageLayer MidnightNode.Frame

variable {T : Config} {d : Dispatcher T}

/-- A call and the block it is executed in. -/
structure Step (T : Config) where
  block : ℕ
  ext : Extrinsic T

/-- What is known of a call after it was executed. -/
structure Record (T : Config) where
  /-- The storage before the call, in the block of the call. -/
  pre : State T
  /-- The call. -/
  ext : Extrinsic T
  /-- The storage after the call. -/
  post : State T
  /-- The result of the call. -/
  result : Except (DispatchErrorWithPostInfo Error) PostDispatchInfo

/-- Execute one step. -/
def Step.record (d : Dispatcher T) (s : State T) (st : Step T) : Record T :=
  let r := execute d st.ext (s.atBlock st.block)
  ⟨s.atBlock st.block, st.ext, r.1, r.2⟩

/-- Execute the steps one after the other. -/
def run (d : Dispatcher T) : State T → List (Step T) → List (Record T)
  | _, [] => []
  | s, st :: sts => st.record d s :: run d (st.record d s).post sts

namespace Record

/-- The call succeeded. -/
def Ok (r : Record T) : Prop := ∃ p, r.result = .ok p

/-- A successful approval of the motion `h` by the body `a`. -/
def Approves (r : Record T) (h : T.Hash) (a : AuthId) : Prop :=
  r.Ok ∧ ∃ o c, r.ext = .motionApprove o c ∧ T.hashOf c = h ∧ T.motionApprovalOrigin o = some a

/-- A successful revocation of its approval of `h` by the body `a`. -/
def Revokes (r : Record T) (h : T.Hash) (a : AuthId) : Prop :=
  r.Ok ∧ ∃ o, r.ext = .motionRevoke o h ∧ T.motionRevokeOrigin o = some a

/-- The call created the motion `h`. -/
def Creates (r : Record T) (h : T.Hash) : Prop :=
  r.pre.motions h = none ∧ r.post.motions h ≠ none

/-- The call closed a motion and dispatched `c` as Root. -/
def Dispatches (r : Record T) (c : T.Call) : Prop :=
  ∃ o h, r.ext = .motionClose o h ∧ rootCall r.pre o h = some c

/-- The record is that of a call executed in `pre`. -/
structure Executed (d : Dispatcher T) (r : Record T) : Prop where
  eq : execute d r.ext r.pre = (r.post, r.result)

end Record

lemma Step.record_executed (s : State T) (st : Step T) : (st.record d s).Executed d := ⟨rfl⟩

/-- The bodies whose latest successful action on `h` in the records `recs` is an approval
made before the block `ends`. -/
def LatestApproval (h : T.Hash) (ends : ℕ) (recs : List (Record T)) (a : AuthId) : Prop :=
  ∃ older r newer, recs = older ++ r :: newer ∧ r.Approves h a ∧ r.pre.blockNumber < ends ∧
    ∀ r' ∈ newer, ¬ r'.Approves h a ∧ ¬ r'.Revokes h a

/-- One more record: it is the latest action if it is an action of the body at all. -/
lemma latestApproval_snoc {h : T.Hash} {ends : ℕ} {recs : List (Record T)} {r : Record T}
    {a : AuthId} :
    LatestApproval h ends (recs ++ [r]) a ↔
      (r.Approves h a ∧ r.pre.blockNumber < ends) ∨
        (LatestApproval h ends recs a ∧ ¬ r.Approves h a ∧ ¬ r.Revokes h a) := by
  constructor
  · rintro ⟨older, x, newer, heq, happ, hlt, hnew⟩
    rcases List.eq_nil_or_concat' newer with rfl | ⟨newer', y, rfl⟩
    · obtain ⟨-, hx⟩ := List.append_inj' heq rfl
      have hrx : r = x := by simpa using hx
      subst hrx
      exact Or.inl ⟨happ, hlt⟩
    · have heq' : recs ++ [r] = (older ++ x :: newer') ++ [y] := by simpa using heq
      obtain ⟨hrecs, hy⟩ := List.append_inj' heq' rfl
      have hry : r = y := by simpa using hy
      subst hry
      refine Or.inr ⟨⟨older, x, newer', hrecs, happ, hlt, fun r' hr' => ?_⟩, ?_⟩
      · exact hnew r' (by simp [hr'])
      · exact hnew r (by simp)
  · rintro (⟨happ, hlt⟩ | ⟨⟨older, x, newer, rfl, happ, hlt, hnew⟩, hna, hnr⟩)
    · exact ⟨recs, r, [], rfl, happ, hlt, by simp⟩
    · refine ⟨older, x, newer ++ [r], by simp, happ, hlt, fun r' hr' => ?_⟩
      rcases List.mem_append.1 hr' with hr' | hr'
      · exact hnew r' hr'
      · rw [List.mem_singleton.1 hr']
        exact ⟨hna, hnr⟩

/-! ### One step -/

namespace Record

variable {r : Record T}

/-- A call that fails changes nothing. -/
lemma Executed.post_eq_of_error (hr : r.Executed d) (hn : ¬ r.Ok) : r.post = r.pre := by
  have heq := hr.eq
  unfold execute at heq
  rcases hb : r.ext.body d r.pre with ⟨s', e | p⟩
  · rw [withStorageLayer_of_error hb] at heq
    exact (congrArg Prod.fst heq).symm
  · rw [withStorageLayer_of_ok hb] at heq
    exact absurd ⟨p, (congrArg Prod.snd heq).symm⟩ hn

/-- A call that succeeds leaves what its body leaves. -/
lemma Executed.body_eq (hr : r.Executed d) {p : PostDispatchInfo} (hp : r.result = .ok p) :
    r.ext.body d r.pre = (r.post, .ok p) := by
  have heq := hr.eq
  rw [hp] at heq
  unfold execute at heq
  rcases hb : r.ext.body d r.pre with ⟨s', e | p'⟩
  · rw [withStorageLayer_of_error hb] at heq
    exact absurd (congrArg Prod.snd heq) (by simp)
  · rw [withStorageLayer_of_ok hb] at heq
    exact heq

/-- Replacing one motion by another that ends at the same block changes no motion's end. -/
lemma endsBlock_eq_of_update {motions motions' : T.Hash → Option (MotionInfo T)} {h₁ : T.Hash}
    {entry : Option (MotionInfo T)} (hpost : motions' = Function.update motions h₁ entry)
    (hentry : ∀ m m', motions h₁ = some m → entry = some m' → m'.endsBlock = m.endsBlock)
    {h : T.Hash} {m m' : MotionInfo T} (hm : motions h = some m) (hm' : motions' h = some m') :
    m'.endsBlock = m.endsBlock := by
  rw [hpost] at hm'
  by_cases hh : h = h₁
  · subst hh
    rw [Function.update_self] at hm'
    exact hentry m m' hm hm'
  · rw [Function.update_of_ne hh, hm] at hm'
    rw [Option.some.inj hm']

/-- No call changes the block a motion ends at. -/
lemma Executed.endsBlock_eq (hd : KeepsMotions d) (hr : r.Executed d) {h : T.Hash}
    {m m' : MotionInfo T} (hm : r.pre.motions h = some m) (hm' : r.post.motions h = some m') :
    m'.endsBlock = m.endsBlock := by
  by_cases hok : r.Ok
  · obtain ⟨p, hp⟩ := hok
    have hb := hr.body_eq hp
    rcases hx : r.ext with ⟨o, c⟩ | ⟨o, h₁⟩ | ⟨o, h₁⟩
    · rw [hx] at hb
      obtain ⟨a, m₁, -, hpost, hcase⟩ := motionApprove_ok hb
      refine endsBlock_eq_of_update hpost (fun m₂ m₃ hm₂ hm₃ => ?_) hm hm'
      obtain rfl := Option.some.inj hm₃
      rcases hcase with ⟨hnone, -⟩ | ⟨m₀, hm₀, -, -, -, hends, -⟩
      · exact absurd (hnone.symm.trans hm₂) (by simp)
      · rw [hends, Option.some.inj (hm₀.symm.trans hm₂)]
    · rw [hx] at hb
      obtain ⟨a, m₀, -, hm₀, -, -, hpost | ⟨m₁, hpost, -, -, hends, -⟩⟩ := motionRevoke_ok hb
      · exact endsBlock_eq_of_update hpost (fun _ _ _ hnone => absurd hnone (by simp)) hm hm'
      · refine endsBlock_eq_of_update hpost (fun m₂ m₃ hm₂ hm₃ => ?_) hm hm'
        rw [← Option.some.inj hm₃, hends, Option.some.inj (hm₀.symm.trans hm₂)]
    · rw [hx] at hb
      obtain ⟨hpost, -⟩ := motionClose_ok hd hb
      exact endsBlock_eq_of_update hpost (fun _ _ _ hnone => absurd hnone (by simp)) hm hm'
  · rw [hr.post_eq_of_error hok, hm] at hm'
    rw [Option.some.inj hm']

end Record

/-! ### The invariant of a run -/

/-- What the records `recs` say of a stored motion `m` with hash `h`: it was created by one
of them and has existed ever since, it ends `MotionDuration` after its creation, and it
holds the bodies whose latest action since then is an approval made in time. -/
structure MotionInv (h : T.Hash) (recs : List (Record T)) (m : MotionInfo T) : Prop where
  created : ∃ older cr newer, recs = older ++ cr :: newer ∧ cr.Creates h ∧
    (∀ r ∈ newer, r.post.motions h ≠ none) ∧
    m.endsBlock = cr.pre.blockNumber + T.motionDuration ∧
    ∀ a, a ∈ m.approvals.elems ↔ LatestApproval h m.endsBlock (cr :: newer) a
  hash : T.hashOf m.call = h
  nonempty : m.approvals.elems.Nonempty

/-- Every stored motion is accounted for. -/
def RunInv (recs : List (Record T)) (s : State T) : Prop :=
  ∀ h m, s.motions h = some m → MotionInv h recs m

lemma runInv_nil {s : State T} (hs : ∀ h, s.motions h = none) : RunInv [] s := by
  intro h m hm
  rw [hs h] at hm
  exact absurd hm (by simp)

/-- A motion that stays, with the approvals the new record leaves it, stays accounted
for. -/
lemma MotionInv.snoc {h : T.Hash} {recs : List (Record T)} {r : Record T}
    {m m' : MotionInfo T} (hm : MotionInv h recs m) (hpost : r.post.motions h = some m')
    (hends : m'.endsBlock = m.endsBlock) (hcall : m'.call = m.call)
    (hne : m'.approvals.elems.Nonempty)
    (happ : ∀ a, a ∈ m'.approvals.elems ↔
      (r.Approves h a ∧ r.pre.blockNumber < m.endsBlock) ∨
        (a ∈ m.approvals.elems ∧ ¬ r.Approves h a ∧ ¬ r.Revokes h a)) :
    MotionInv h (recs ++ [r]) m' := by
  obtain ⟨older, cr, newer, rfl, hcr, hex, hce, happs⟩ := hm.created
  refine ⟨⟨older, cr, newer ++ [r], by simp, hcr, ?_, by rw [hends, hce], ?_⟩, ?_, hne⟩
  · intro r' hr'
    rcases List.mem_append.1 hr' with hr' | hr'
    · exact hex r' hr'
    · rw [List.mem_singleton.1 hr', hpost]
      simp
  · intro a
    rw [happ a, happs a, hends, ← List.cons_append, latestApproval_snoc]
  · rw [hcall, hm.hash]

/-- A record that is no action on `h` and leaves the motion as it is. -/
lemma MotionInv.snoc_same {h : T.Hash} {recs : List (Record T)} {r : Record T}
    {m : MotionInfo T} (hm : MotionInv h recs m) (hpost : r.post.motions h = some m)
    (hna : ∀ a, ¬ r.Approves h a) (hnr : ∀ a, ¬ r.Revokes h a) :
    MotionInv h (recs ++ [r]) m := by
  refine hm.snoc hpost rfl rfl hm.nonempty fun a => ?_
  simp [hna a, hnr a]

/-! ### The invariant, call by call -/

namespace Record

variable {r : Record T} {h h₁ : T.Hash} {o : T.Origin} {c : T.Call} {a : AuthId}

lemma approves_iff (hok : r.Ok) (hx : r.ext = .motionApprove o c)
    (ho : T.motionApprovalOrigin o = some a) (b : AuthId) :
    r.Approves h b ↔ T.hashOf c = h ∧ b = a := by
  constructor
  · rintro ⟨-, o', c', hx', hc', ho'⟩
    rw [hx] at hx'
    obtain ⟨rfl, rfl⟩ := Extrinsic.motionApprove.inj hx'
    rw [ho] at ho'
    exact ⟨hc', (Option.some.inj ho').symm⟩
  · rintro ⟨hc', rfl⟩
    exact ⟨hok, o, c, hx, hc', ho⟩

lemma revokes_iff (hok : r.Ok) (hx : r.ext = .motionRevoke o h₁)
    (ho : T.motionRevokeOrigin o = some a) (b : AuthId) :
    r.Revokes h b ↔ h₁ = h ∧ b = a := by
  constructor
  · rintro ⟨-, o', hx', ho'⟩
    rw [hx] at hx'
    obtain ⟨rfl, rfl⟩ := Extrinsic.motionRevoke.inj hx'
    rw [ho] at ho'
    exact ⟨rfl, (Option.some.inj ho').symm⟩
  · rintro ⟨rfl, rfl⟩
    exact ⟨hok, o, hx, ho⟩

lemma not_approves (hx : ∀ o c, r.ext ≠ .motionApprove o c) (b : AuthId) : ¬ r.Approves h b := by
  rintro ⟨-, o, c, hx', -⟩
  exact hx o c hx'

lemma not_revokes (hx : ∀ o h, r.ext ≠ .motionRevoke o h) (b : AuthId) : ¬ r.Revokes h b := by
  rintro ⟨-, o, hx', -⟩
  exact hx o h hx'

end Record

/-- The approval that creates a motion. -/
lemma MotionInv.of_creation {recs : List (Record T)} {r : Record T} {o : T.Origin} {c : T.Call}
    {a : AuthId} {m : MotionInfo T} (hok : r.Ok) (hx : r.ext = .motionApprove o c)
    (ho : T.motionApprovalOrigin o = some a) (hnone : r.pre.motions (T.hashOf c) = none)
    (hm : r.post.motions (T.hashOf c) = some m) (helems : m.approvals.elems = {a})
    (hends : m.endsBlock = r.pre.blockNumber + T.motionDuration) (hcall : m.call = c) :
    MotionInv (T.hashOf c) (recs ++ [r]) m := by
  have hlt : r.pre.blockNumber < m.endsBlock := by
    rw [hends]
    exact Nat.lt_add_of_pos_right T.motionDuration_pos
  refine ⟨⟨recs, r, [], rfl, ⟨hnone, by rw [hm]; simp⟩, by simp, hends, fun b => ?_⟩,
    by rw [hcall], by rw [helems]; simp⟩
  -- The only record since the creation is this approval.
  rw [helems, Finset.mem_singleton, ← List.nil_append [r], latestApproval_snoc,
    Record.approves_iff hok hx ho]
  constructor
  · rintro rfl
    exact Or.inl ⟨⟨rfl, rfl⟩, hlt⟩
  · rintro (⟨⟨-, hba⟩, -⟩ | ⟨⟨older, x, newer, habs, -⟩, -⟩)
    · exact hba
    · exact absurd habs (by simp)

section Calls

variable {recs : List (Record T)} {r : Record T}

/-- A successful approval keeps the invariant. -/
lemma RunInv.step_approve (hinv : RunInv recs r.pre) (hok : r.Ok) {o : T.Origin} {c : T.Call}
    {p : PostDispatchInfo} (hx : r.ext = .motionApprove o c)
    (hb : (Extrinsic.motionApprove o c).body d r.pre = (r.post, .ok p)) :
    RunInv (recs ++ [r]) r.post := by
  intro h m' hm'
  obtain ⟨a, m₁, ho, hpost, hcase⟩ := motionApprove_ok hb
  have hnr : ∀ b, ¬ r.Revokes h b := Record.not_revokes (fun o' h' hx' => by
    rw [hx] at hx'
    cases hx')
  have happ := fun b => Record.approves_iff (h := h) hok hx ho b
  by_cases hh : h = T.hashOf c
  · subst hh
    have hm₁ : m₁ = m' := by
      rw [hpost] at hm'
      simpa using hm'
    subst hm₁
    rcases hcase with ⟨hnone, helems, hends, hcall⟩ | ⟨m₀, hm₀, hlt, hna, helems, hends, hcall⟩
    · exact .of_creation hok hx ho hnone hm' helems hends hcall
    · -- one more approval
      refine (hinv _ _ hm₀).snoc hm' hends hcall (by rw [helems]; simp) fun b => ?_
      rw [helems, Finset.mem_insert, happ b]
      constructor
      · rintro (rfl | hb)
        · exact Or.inl ⟨⟨rfl, rfl⟩, hlt⟩
        · refine Or.inr ⟨hb, ?_, hnr b⟩
          rintro ⟨-, rfl⟩
          exact hna hb
      · rintro (⟨⟨-, hba⟩, -⟩ | ⟨hb, -, -⟩)
        · exact Or.inl hba
        · exact Or.inr hb
  · rw [hpost, Function.update_of_ne hh] at hm'
    refine (hinv h m' hm').snoc_same (by rw [hpost, Function.update_of_ne hh, hm']) ?_ hnr
    intro b hb
    exact hh ((happ b).1 hb).1.symm

/-- A successful revocation keeps the invariant. -/
lemma RunInv.step_revoke (hinv : RunInv recs r.pre) (hok : r.Ok) {o : T.Origin} {h₁ : T.Hash}
    {p : PostDispatchInfo} (hx : r.ext = .motionRevoke o h₁)
    (hb : (Extrinsic.motionRevoke o h₁).body d r.pre = (r.post, .ok p)) :
    RunInv (recs ++ [r]) r.post := by
  intro h m' hm'
  obtain ⟨a, m₀, ho, hm₀, -, ha, hcase⟩ := motionRevoke_ok hb
  have hna : ∀ b, ¬ r.Approves h b := Record.not_approves (fun o' c' hx' => by
    rw [hx] at hx'
    cases hx')
  have hrev := fun b => Record.revokes_iff (h := h) hok hx ho b
  by_cases hh : h = h₁
  · subst hh
    rcases hcase with hpost | ⟨m₁, hpost, helems, hne, hends, hcall⟩
    · rw [hpost] at hm'
      exact absurd hm' (by simp)
    · have hm₁ : m₁ = m' := by
        rw [hpost] at hm'
        simpa using hm'
      subst hm₁
      refine (hinv _ _ hm₀).snoc hm' hends hcall hne fun b => ?_
      rw [helems, Finset.mem_erase, hrev b]
      simp [hna b, and_comm]
  · have hsame : r.post.motions h = r.pre.motions h := by
      rcases hcase with hpost | ⟨m₁, hpost, -⟩ <;> rw [hpost, Function.update_of_ne hh]
    refine (hinv h m' (hsame ▸ hm')).snoc_same hm' hna ?_
    intro b hb
    exact hh ((hrev b).1 hb).1.symm

/-- A successful close keeps the invariant. -/
lemma RunInv.step_close (hd : KeepsMotions d) (hinv : RunInv recs r.pre) {o : T.Origin}
    {h₁ : T.Hash} {p : PostDispatchInfo} (hx : r.ext = .motionClose o h₁)
    (hb : (Extrinsic.motionClose o h₁).body d r.pre = (r.post, .ok p)) :
    RunInv (recs ++ [r]) r.post := by
  intro h m' hm'
  obtain ⟨hpost, -⟩ := motionClose_ok hd hb
  have hh : h ≠ h₁ := by
    rintro rfl
    rw [hpost] at hm'
    exact absurd hm' (by simp)
  rw [hpost, Function.update_of_ne hh] at hm'
  refine (hinv h m' hm').snoc_same (by rw [hpost, Function.update_of_ne hh, hm']) ?_ ?_
  · refine Record.not_approves (fun o' c' hx' => ?_)
    rw [hx] at hx'
    cases hx'
  · refine Record.not_revokes (fun o' h' hx' => ?_)
    rw [hx] at hx'
    cases hx'

/-- **Step**: the invariant is kept by one call. -/
lemma RunInv.step (hd : KeepsMotions d) (hinv : RunInv recs r.pre) (hr : r.Executed d) :
    RunInv (recs ++ [r]) r.post := by
  by_cases hok : r.Ok
  · obtain ⟨p, hp⟩ := hok
    have hb := hr.body_eq hp
    rcases hx : r.ext with ⟨o, c⟩ | ⟨o, h₁⟩ | ⟨o, h₁⟩
    · exact hinv.step_approve ⟨p, hp⟩ hx (hx ▸ hb)
    · exact hinv.step_revoke ⟨p, hp⟩ hx (hx ▸ hb)
    · exact hinv.step_close hd hx (hx ▸ hb)
  · -- A failed call is rolled back and is no action.
    intro h m' hm'
    rw [hr.post_eq_of_error hok] at hm'
    refine (hinv h m' hm').snoc_same (by rw [hr.post_eq_of_error hok, hm']) ?_ ?_
    · exact fun b hb => hok hb.1
    · exact fun b hb => hok hb.1

end Calls

/-! ### Whole runs -/

/-- Every record of a run is an executed call. -/
lemma executed_of_mem_run {s : State T} {steps : List (Step T)} {r : Record T}
    (hr : r ∈ run d s steps) : r.Executed d := by
  induction steps generalizing s with
  | nil => exact absurd hr (by simp [run])
  | cons st sts ih =>
    rcases List.mem_cons.1 hr with rfl | hr
    · exact st.record_executed s
    · exact ih hr

/-- The invariant holds before every call of a run, of the records up to it. -/
lemma RunInv.run (hd : KeepsMotions d) {steps : List (Step T)} :
    ∀ {hist : List (Record T)} {s : State T}, RunInv hist s →
      ∀ {before after : List (Record T)} {r : Record T},
        Governance.run d s steps = before ++ r :: after → RunInv (hist ++ before) r.pre := by
  induction steps with
  | nil =>
    intro hist s _ before after r heq
    exact absurd heq (by simp [Governance.run])
  | cons st sts ih =>
    intro hist s hinv before after r heq
    have hpre : RunInv hist (st.record d s).pre := hinv
    cases before with
    | nil =>
      simp only [Governance.run, List.nil_append, List.cons.injEq] at heq
      rw [List.append_nil, ← heq.1]
      exact hpre
    | cons b before =>
      simp only [Governance.run, List.cons_append, List.cons.injEq] at heq
      obtain ⟨rfl, heq⟩ := heq
      have := ih (hpre.step hd (st.record_executed s)) heq
      simpa using this

/-- A motion that is there after a record of a run, and was not there at its start, was
created by one of the records in between. -/
lemma exists_creates {steps : List (Step T)} {h : T.Hash} :
    ∀ {s : State T}, s.motions h = none →
      ∀ {before after : List (Record T)} {r : Record T},
        run d s steps = before ++ r :: after → r.pre.motions h ≠ none →
          ∃ x ∈ before, x.Creates h := by
  induction steps with
  | nil =>
    intro s _ before after r heq
    exact absurd heq (by simp [run])
  | cons st sts ih =>
    intro s hs before after r heq hne
    cases before with
    | nil =>
      simp only [run, List.nil_append, List.cons.injEq] at heq
      rw [← heq.1] at hne
      exact absurd hs hne
    | cons b before =>
      simp only [run, List.cons_append, List.cons.injEq] at heq
      obtain ⟨rfl, heq⟩ := heq
      by_cases hpost : (st.record d s).post.motions h = none
      · obtain ⟨x, hx, hc⟩ := ih hpost heq hne
        exact ⟨x, by simp [hx], hc⟩
      · exact ⟨_, by simp, hs, hpost⟩

/-- A run after one of its records is a run. -/
lemma run_suffix {steps : List (Step T)} :
    ∀ {s : State T} {before after : List (Record T)} {r : Record T},
      run d s steps = before ++ r :: after → ∃ steps', run d r.post steps' = after := by
  induction steps with
  | nil =>
    intro s before after r heq
    exact absurd heq (by simp [run])
  | cons st sts ih =>
    intro s before after r heq
    cases before with
    | nil =>
      simp only [run, List.nil_append, List.cons.injEq] at heq
      obtain ⟨rfl, rfl⟩ := heq
      exact ⟨sts, rfl⟩
    | cons b before =>
      simp only [run, List.cons_append, List.cons.injEq] at heq
      exact ih heq.2

/-! ### What Root is given -/

/-- The two products of `reached_proportion` fit in a `u32`. -/
def ProductsFit (T : Config) : Prop :=
  T.maxAuthorityBodies * T.proportionD < 2 ^ 32 ∧
    T.proportionN * T.maxAuthorityBodies < 2 ^ 32

lemma isMotionApproved_iff (hfit : ProductsFit T) (m : MotionInfo T) :
    isMotionApproved T m.approvals.len = true ↔
      T.proportionN * T.maxAuthorityBodies ≤ m.approvals.len * T.proportionD := by
  have hle : m.approvals.len * T.proportionD ≤ T.maxAuthorityBodies * T.proportionD :=
    Nat.mul_le_mul_right _ m.approvals.card_le
  rw [isMotionApproved, reachedProportion, decide_eq_true_eq, Nat.mod_eq_of_lt hfit.2,
    Nat.mod_eq_of_lt (lt_of_le_of_lt hle hfit.1)]

/-- A successful close leaves no motion behind. -/
lemma Record.Executed.motions_post_close (hd : KeepsMotions d) {r : Record T}
    (hr : r.Executed d) (hok : r.Ok) {o : T.Origin} {h : T.Hash}
    (hx : r.ext = .motionClose o h) : r.post.motions h = none := by
  obtain ⟨p, hp⟩ := hok
  have hb := hr.body_eq hp
  rw [hx] at hb
  rw [(motionClose_ok hd hb).1]
  simp

/-- What the record of a call says about Root is what the call did: the call that it dispatches
is run as Root, and without one the outcome does not depend on what calls do. -/
structure Record.Faithful (d : Dispatcher T) (r : Record T) : Prop where
  runs : ∀ c, r.Dispatches c → ∃ o h, r.ext = .motionClose o h ∧ ClosesWith d r.pre o h c ∧
    (r.Ok ↔ (dispatchRoot d c r.pre).2 = .ok ())
  independent : (∀ c, ¬ r.Dispatches c) → ∀ d', execute d' r.ext r.pre = (r.post, r.result)

lemma Record.Executed.faithful {r : Record T} (hr : r.Executed d) : r.Faithful d where
  runs := by
    rintro c ⟨o, h, hx, hc⟩
    have hcloses : ClosesWith d r.pre o h c := closesWith_of_rootCall hc
    have hresult : r.result = (motionClose d o h r.pre).2 := by
      have heq := congrArg Prod.snd hr.eq
      rw [hx] at heq
      exact heq.symm.trans (withStorageLayer_snd _ _)
    refine ⟨o, h, hx, hcloses, ?_⟩
    rw [← hcloses.succeeds, Record.Ok, hresult]
  independent := by
    intro hnone d'
    rw [← hr.eq]
    cases hx : r.ext with
    | motionApprove o c => rfl
    | motionRevoke o h => rfl
    | motionClose o h =>
      have hroot : rootCall r.pre o h = none := by
        cases hc : rootCall r.pre o h with
        | none => rfl
        | some c => exact absurd ⟨o, h, hx, hc⟩ (hnone c)
      have hbody : (Extrinsic.motionClose o h).body d' r.pre =
          (Extrinsic.motionClose o h).body d r.pre := motionClose_congr hroot d' d
      rw [execute, execute, withStorageLayer, withStorageLayer, hbody]

/-- **Root is only reached by sufficient, unrevoked, timely approvals, and at most once.**
In a run from a storage without motions: the calls dispatched as Root are those that the
records say; a call dispatched as Root has, since its motion was created, enough bodies
whose latest action is an approval made before the motion ended; between two successful
dispatches of a call its motion is created anew; and the stored motions keep their bounds,
their key and the block they end at. -/
theorem root_dispatch_sound (hfit : ProductsFit T) (hd : KeepsMotions d) {s₀ : State T}
    (h₀ : ∀ h, s₀.motions h = none) (steps : List (Step T)) :
    (∀ r ∈ run d s₀ steps, r.Faithful d) ∧
    (∀ before r after c, run d s₀ steps = before ++ r :: after → r.Dispatches c →
      ∃ older cr newer, before = older ++ cr :: newer ∧ cr.Creates (T.hashOf c) ∧
        (∀ x ∈ newer, x.post.motions (T.hashOf c) ≠ none) ∧
        ∃ A : Finset AuthId,
          (∀ a, a ∈ A ↔ LatestApproval (T.hashOf c)
            (cr.pre.blockNumber + T.motionDuration) (cr :: newer) a) ∧
          T.proportionN * T.maxAuthorityBodies ≤ A.card * T.proportionD) ∧
    (∀ before r₁ mid r₂ after c, run d s₀ steps = before ++ r₁ :: (mid ++ r₂ :: after) →
      r₁.Dispatches c → r₁.Ok → r₂.Dispatches c → r₂.Ok → ∃ x ∈ mid, x.Creates (T.hashOf c)) ∧
    (∀ r ∈ run d s₀ steps, ∀ h m, r.post.motions h = some m →
      1 ≤ m.approvals.len ∧ m.approvals.len ≤ T.maxAuthorityBodies ∧ T.hashOf m.call = h) ∧
    (∀ r ∈ run d s₀ steps, ∀ h m m', r.pre.motions h = some m → r.post.motions h = some m' →
      m'.endsBlock = m.endsBlock) := by
  have hinv : ∀ {before after r}, run d s₀ steps = before ++ r :: after → RunInv before r.pre := by
    intro before after r heq
    simpa using (runInv_nil h₀).run hd heq
  have hkey : ∀ {before after r} {c : T.Call}, run d s₀ steps = before ++ r :: after →
      r.Dispatches c → ∃ o m, r.ext = .motionClose o (T.hashOf c) ∧
        r.pre.motions (T.hashOf c) = some m ∧ isMotionApproved T m.approvals.len = true ∧
        MotionInv (T.hashOf c) before m := by
    rintro before after r c heq ⟨o, h, hx, hroot⟩
    obtain ⟨-, m, hm, happ, rfl⟩ := rootCall_eq_some_iff.1 hroot
    have hm' := hinv heq h m hm
    obtain rfl := hm'.hash
    exact ⟨o, m, hx, hm, happ, hm'⟩
  refine ⟨fun r hr => (executed_of_mem_run hr).faithful, ?_, ?_, ?_, ?_⟩
  · intro before r after c heq hdis
    obtain ⟨o, m, -, hm, happ, hmi⟩ := hkey heq hdis
    obtain ⟨older, cr, newer, hsplit, hcr, hex, hends, happs⟩ := hmi.created
    refine ⟨older, cr, newer, hsplit, hcr, hex, m.approvals.elems, ?_, ?_⟩
    · rw [← hends]
      exact happs
    · exact (isMotionApproved_iff hfit m).1 happ
  · intro before r₁ mid r₂ after c heq hd₁ hok₁ hd₂ _
    obtain ⟨o₁, -, hx₁, -⟩ := hkey heq hd₁
    have heq₂ : run d s₀ steps = (before ++ r₁ :: mid) ++ r₂ :: after := by simpa using heq
    obtain ⟨-, m₂, -, hm₂, -⟩ := hkey heq₂ hd₂
    have hex₁ : r₁.Executed d := executed_of_mem_run (by rw [heq]; simp)
    have hgone := hex₁.motions_post_close hd hok₁ hx₁
    obtain ⟨steps', hrest⟩ := run_suffix heq
    exact exists_creates hgone hrest (by rw [hm₂]; simp)
  · intro r hr h m hm
    obtain ⟨before, after, heq⟩ := List.append_of_mem hr
    have hm' := (hinv heq).step hd (executed_of_mem_run hr) h m hm
    exact ⟨Finset.card_pos.2 hm'.nonempty, m.approvals.card_le, hm'.hash⟩
  · intro r hr h m m' hm hm'
    exact (executed_of_mem_run hr).endsBlock_eq hd hm hm'

/-- A storage without motions. -/
def noMotions : State twoBodies := ⟨fun _ => none, 0, [], (99 : ℕ)⟩

/-- Both bodies approve of the call `7`, and it is closed. -/
def approveTwiceAndClose : List (Step twoBodies) :=
  [⟨1, .motionApprove .council (7 : ℕ)⟩, ⟨2, .motionApprove .technicalCommittee (7 : ℕ)⟩,
    ⟨3, .motionClose .signed (7 : ℕ)⟩]

/-- The state in which the motion for the call `7` is closed. -/
def bothApproved : State twoBodies :=
  (Step.record writingCalls (Step.record writingCalls noMotions
    ⟨1, .motionApprove .council (7 : ℕ)⟩).post
      ⟨2, .motionApprove .technicalCommittee (7 : ℕ)⟩).post

theorem root_dispatch_sound_two_bodies :
    ProductsFit twoBodies ∧ KeepsMotions writingCalls ∧
      (Step.record writingCalls bothApproved ⟨3, .motionClose .signed (7 : ℕ)⟩).Dispatches
        (7 : ℕ) ∧
      ∃ older cr newer,
        (run writingCalls noMotions approveTwiceAndClose).take 2 = older ++ cr :: newer ∧
          cr.Creates (7 : ℕ) ∧
          ∃ A : Finset AuthId,
            (∀ a, a ∈ A ↔ LatestApproval (7 : ℕ)
              (cr.pre.blockNumber + twoBodies.motionDuration) (cr :: newer) a) ∧
            2 ≤ A.card := by
  have hfit : ProductsFit twoBodies := ⟨by decide, by decide⟩
  have hkeep : KeepsMotions writingCalls := fun _ _ _ => rfl
  have hdis : (Step.record writingCalls bothApproved
      ⟨3, .motionClose .signed (7 : ℕ)⟩).Dispatches (7 : ℕ) :=
    ⟨DemoOrigin.signed, (7 : ℕ), rfl, rfl⟩
  obtain ⟨older, cr, newer, hsplit, hcr, -, A, hA, hcard⟩ :=
    (root_dispatch_sound hfit hkeep (show ∀ h, noMotions.motions h = none from fun _ => rfl)
      approveTwiceAndClose).2.1
      ((run writingCalls noMotions approveTwiceAndClose).take 2) _ [] (7 : ℕ) rfl hdis
  exact ⟨hfit, hkeep, hdis, older, cr, newer, hsplit, hcr, A, hA, by simpa [twoBodies] using hcard⟩

end MidnightNode.Governance
