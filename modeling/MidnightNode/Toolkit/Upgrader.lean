/-
# The upgrader

`execute_upgrade` takes a runtime upgrade through the two authority bodies: two keys of the
council and two of the technical committee approve a motion that authorizes the code, the motion is
closed, and the code is applied.  It submits the same extrinsics as the root-call client, but reads
the index of a proposal from the raw bytes of the `Proposed` event, as a compact integer.  The
event holds a `u32` with a fixed width, and the two encodings agree on nothing but zero.

So the upgrader works where it is the first to propose anything in either body, and only there
(`authorizeUpgrade_reachesRoot_iff`).  Where it is not, it stops with an error after it has opened a
proposal, which is in the way of the next attempt.
-/
import MidnightNode.Lib.Scale
import MidnightNode.Toolkit.RootCall

namespace MidnightNode.Toolkit.Upgrader

open StorageLayer MidnightNode.Frame Governance Scale

/-! ### The client -/

/-- How accounts and hashes are written in events. -/
structure EventEncoding (R : Runtime) where
  accountId : R.AccountId → List UInt8
  hash : R.Hash → List UInt8
  length_accountId : ∀ account, (accountId account).length = 32

/-- The calls and the event of the system pallet that the upgrader knows. -/
structure SystemPallet (R : Runtime) where
  authorizeUpgrade : R.Hash → R.OtherCall
  applyAuthorizedUpgrade : List UInt8 → R.OtherCall
  isCodeUpdated : R.OtherEvent → Bool

/-- The keys: Dave and Eve of the council, Alice and Bob of the technical committee, and the
`signer` of the last two extrinsics. -/
structure Keys (AccountId : Type) where
  dave : AccountId
  eve : AccountId
  alice : AccountId
  bob : AccountId
  signer : AccountId

/-- The errors of the upgrader, as far as the model has a cause for them. -/
inductive UpgraderError
  /-- An extrinsic of governance failed, or the index of a proposal was not found. -/
  | client (e : RootCallError)
  /-- The last extrinsic failed. -/
  | applyFailed (e : DispatchError Error)
  /-- `Code upgrade failed: Missing code updated event`. -/
  | codeUpgradeFailed
deriving DecidableEq

variable {R : Runtime}

/-- The bytes of the fields of a `Proposed` event: the account, the index, the hash and the
threshold. -/
def proposedFieldBytes (enc : EventEncoding R) (account : R.AccountId) (proposalIndex : ℕ)
    (proposalHash : R.Hash) (threshold : ℕ) : List UInt8 :=
  enc.accountId account ++ le32 proposalIndex ++ enc.hash proposalHash ++ le32 threshold

/-- What is read from the bytes: the account is skipped, and a compact integer follows. -/
def readProposalIndex (fieldBytes : List UInt8) : Option ℕ :=
  if fieldBytes.length < 32 then none else decodeCompactU32 (fieldBytes.drop 32)

/-- `extract_proposal_index`: the first `Proposed` event of the collective that can be read. -/
def extractProposalIndex (enc : EventEncoding R) (i : CollectiveInstance) :
    List (RuntimeEvent R.config) → Client R ℕ
  | .other (.collective j (.proposed account index hash threshold)) :: events =>
    if i = j then
      match readProposalIndex (proposedFieldBytes enc account index hash threshold) with
      | some index => pure index
      | none => extractProposalIndex enc i events
    else extractProposalIndex enc i events
  | _ :: events => extractProposalIndex enc i events
  | [] => .throw .proposalIndexNotFound

section
variable (d : OtherDispatcher R) (blocks : ℕ → ℕ) (enc : EventEncoding R) (sys : SystemPallet R)
  (keys : Keys R.AccountId) (code : List UInt8)

/-- Steps 4 to 6, for the council, and 7 to 9, for the technical committee. -/
def approveMotion (i : CollectiveInstance) (proposer second : R.AccountId)
    (call : RuntimeCall R.OtherCall) : Client R Unit := do
  let fedAuthCall := RuntimeCall.motionApprove call
  let proposalHash := R.blake2256 (R.encode fedAuthCall)
  let events ← submit d blocks (.propose i proposer 2 fedAuthCall)
  let proposalIndex ← extractProposalIndex enc i events
  voteOnProposal d blocks proposer i proposalHash proposalIndex true
  voteOnProposal d blocks second i proposalHash proposalIndex true
  closeProposal d blocks proposer i proposalHash proposalIndex

/-- The call that authorizes the code. -/
def authorizeUpgradeCall : RuntimeCall R.OtherCall :=
  .other (sys.authorizeUpgrade (R.blake2256 code))

/-- Steps 1 to 11 of `execute_upgrade`: authorize the code through governance. -/
def authorizeUpgrade : Client R Unit := do
  let call := authorizeUpgradeCall sys code
  approveMotion d blocks enc .council keys.dave keys.eve call
  approveMotion d blocks enc .technicalCommittee keys.alice keys.bob call
  let motionHash := R.blake2256 (R.encode call)
  let _ ← submit d blocks (.motionClose keys.signer motionHash)
  pure ()

/-- Step 12: apply the authorized code and look for the event that reports it. -/
def applyUpgrade (n : Node R) : Node R × Except UpgraderError Unit :=
  let pre := n.state.startBlock (blocks n.log.length)
  match withStorageLayer (dispatch d (.other (sys.applyAuthorizedUpgrade code))
    (.signed keys.signer)) pre with
  | (post, .error e) => (⟨post, n.log⟩, .error (.applyFailed e.error))
  | (post, .ok _) =>
    let success := post.events.any fun
      | .other (.other event) => sys.isCodeUpdated event
      | _ => false
    if success then (⟨post, n.log⟩, .ok ()) else (⟨post, n.log⟩, .error .codeUpgradeFailed)

/-- `execute_upgrade`. -/
def executeUpgrade (n : Node R) : Node R × Except UpgraderError Unit :=
  match authorizeUpgrade d blocks enc sys keys code n with
  | (n', .ok ()) => applyUpgrade d blocks sys keys code n'
  | (n', .error e) => (n', .error (.client e))

/-! ### The index of a proposal -/

variable {sys keys code}

lemma readProposalIndex_proposedFieldBytes (account : R.AccountId) {index : ℕ}
    (hindex : index < 2 ^ 32) (hash : R.Hash) (threshold : ℕ) :
    readProposalIndex (proposedFieldBytes enc account index hash threshold) = some index ↔
      index = 0 := by
  have hlong : ¬ (proposedFieldBytes enc account index hash threshold).length < 32 := by
    simp only [proposedFieldBytes, List.length_append, enc.length_accountId]
    omega
  have hdrop : (proposedFieldBytes enc account index hash threshold).drop 32 =
      le32 index ++ (enc.hash hash ++ le32 threshold) := by
    rw [proposedFieldBytes, List.append_assoc, List.append_assoc,
      ← enc.length_accountId account, List.drop_left]
  rw [readProposalIndex, if_neg hlong, hdrop]
  exact decodeCompactU32_le32 hindex _

/-- From the event of a first proposal the index is read, and from no other. -/
lemma extractProposalIndex_proposed (i : CollectiveInstance) (account : R.AccountId) {index : ℕ}
    (hindex : index < 2 ^ 32) (hash : R.Hash) (threshold : ℕ) (n : Node R) :
    (index = 0 ∧ extractProposalIndex enc i
        [.other (.collective i (.proposed account index hash threshold))] n = (n, .ok 0)) ∨
      (index ≠ 0 ∧
        (extractProposalIndex enc i
            [.other (.collective i (.proposed account index hash threshold))] n =
          (n, .error .proposalIndexNotFound) ∨
        ∃ other, other ≠ index ∧ extractProposalIndex enc i
            [.other (.collective i (.proposed account index hash threshold))] n =
          (n, .ok other))) := by
  have hread := readProposalIndex_proposedFieldBytes enc account hindex hash threshold
  simp only [extractProposalIndex, if_true]
  cases hbytes : readProposalIndex (proposedFieldBytes enc account index hash threshold) with
  | none =>
    rw [hbytes] at hread
    exact .inr ⟨fun h => absurd (hread.2 h) (by simp), .inl rfl⟩
  | some other =>
    rw [hbytes, Option.some.injEq] at hread
    by_cases hother : other = index
    · obtain rfl := hread.1 hother
      exact .inl ⟨rfl, by rw [hother]; rfl⟩
    · exact .inr ⟨fun h => hother (hread.2 h), .inr ⟨other, hother, rfl⟩⟩

/-! ### The approval of a body -/

/-- `n'` comes after `n` by extrinsics that close no motion. -/
def Quiet (n n' : Node R) : Prop :=
  ∃ recs, n'.log = n.log ++ recs ∧ ∀ r ∈ recs, ∀ who hash, r.extrinsic ≠ .motionClose who hash

lemma Quiet.of_voted {k : ℕ} {n n' : Node R} (h : Voted k n n') : Quiet n n' := by
  obtain ⟨recs, hlog, -, hrecs⟩ := h
  exact ⟨recs, hlog, fun r hr => (hrecs r hr).2⟩

lemma Quiet.trans {n n' n'' : Node R} (h : Quiet n n') (h' : Quiet n' n'') : Quiet n n'' := by
  obtain ⟨recs, hlog, hrecs⟩ := h
  obtain ⟨recs', hlog', hrecs'⟩ := h'
  refine ⟨recs ++ recs', by rw [hlog', hlog, List.append_assoc], fun r hr => ?_⟩
  rcases List.mem_append.1 hr with hr | hr
  · exact hrecs r hr
  · exact hrecs' r hr

section Body

variable {i : CollectiveInstance} {a b : R.AccountId} {call : RuntimeCall R.OtherCall} {n : Node R}

/-- In a body without proposals so far the round is that of the root-call client. -/
lemma approveMotion_run (ha : a ∈ (n.state.rest.collective i).members)
    (hb : b ∈ (n.state.rest.collective i).members) (hab : a ≠ b)
    (hfree : (n.state.rest.collective i).proposals
      (R.blake2256 (R.encode (.motionApprove call))) = none)
    (hcount : (n.state.rest.collective i).proposalCount = 0) :
    ∃ n', approveMotion d blocks enc i a b call n = (n', .ok ()) ∧
      (∀ block, n'.state.startBlock block =
        (approvedBy i 2 call (blocks (n.log.length + 3)) n.state).startBlock block) ∧
      Voted 4 n n' := by
  obtain ⟨n₁, hrun₁, hst₁, hv₁⟩ := submit_propose d blocks ha hfree
  obtain ⟨n₂, hrun₂, hst₂, hv₂⟩ := voteOnProposal_aye d blocks hst₁ ha (by simp) rfl
  obtain ⟨n₃, hrun₃, hst₃, hv₃⟩ := voteOnProposal_aye d blocks hst₂ hb
    (by simpa using hab.symm) rfl
  obtain ⟨n₄, hrun₄, hst₄, hv₄⟩ := closeProposal_approved d blocks a hst₃ (by simp) rfl hfree
  have hlength : n₃.log.length = n.log.length + 3 := ((hv₁.trans hv₂).trans hv₃).length_log
  rw [hlength] at hst₄
  refine ⟨n₄, ?_, hst₄, ((hv₁.trans hv₂).trans hv₃).trans hv₄⟩
  have hfits : (n.state.rest.collective i).proposalCount < 2 ^ 32 := by
    rw [hcount]
    decide
  rcases extractProposalIndex_proposed enc i a hfits (R.config.hashOf (.motionApprove call)) 2
    n₁ with ⟨hzero, hindex⟩ | ⟨hne, -⟩
  · rw [← hzero] at hindex
    unfold approveMotion
    rw [Client.bind_of_ok hrun₁, Client.bind_of_ok hindex, Client.bind_of_ok hrun₂,
      Client.bind_of_ok hrun₃]
    exact hrun₄
  · exact absurd hcount hne

/-- A vote with another index fails, and the proposal stays as it is. -/
lemma voteOnProposal_wrongIndex {s : State R.config} {hash : R.Hash} {index : ℕ}
    {p : Proposal R.AccountId (RuntimeCall R.OtherCall)} (hst : InStage s i hash (some p) n.state)
    (ha : a ∈ (s.rest.collective i).members) (hindex : index ≠ p.index) :
    ∃ n', voteOnProposal d blocks a i hash index true n =
        (n', .error (.extrinsicFailed (.collective .wrongIndex))) ∧
      InStage s i hash (some p) n'.state ∧ Quiet n n' := by
  have hcollective := hst.collective (blocks n.log.length)
  have hproposals := hst.proposals (blocks n.log.length)
  have hmem : a ∈ ((n.state.startBlock (blocks n.log.length)).rest.collective i).members := by
    rw [hcollective]
    exact ha
  have hvote : vote i a hash index true (n.state.startBlock (blocks n.log.length)) =
      (n.state.startBlock (blocks n.log.length), .error .wrongIndex) := by
    simp only [vote, if_pos hmem, hproposals, if_neg hindex.symm]
  have happly : (SignedExtrinsic.vote i a hash index true).apply d
      (n.state.startBlock (blocks n.log.length)) =
      (n.state.startBlock (blocks n.log.length), .error (.collective .wrongIndex)) := by
    rw [SignedExtrinsic.apply, withStorageLayer, SignedExtrinsic.body, hvote]
    rfl
  refine ⟨_, Client.bind_of_error (submit_of_apply_error d blocks happly), hst, ?_⟩
  exact ⟨_, rfl, by simp⟩

/-- In any other body the round stops with an error and leaves its proposal open. -/
lemma approveMotion_fails (ha : a ∈ (n.state.rest.collective i).members)
    (hfree : (n.state.rest.collective i).proposals
      (R.blake2256 (R.encode (.motionApprove call))) = none)
    (hcount : (n.state.rest.collective i).proposalCount ≠ 0)
    (hfits : (n.state.rest.collective i).proposalCount < 2 ^ 32) :
    ∃ n' e p, approveMotion d blocks enc i a b call n = (n', .error e) ∧
      InStage n.state i (R.blake2256 (R.encode (.motionApprove call))) (some p) n'.state ∧
      Quiet n n' := by
  obtain ⟨n₁, hrun₁, hst₁, hv₁⟩ := submit_propose d blocks ha hfree
  have hquiet := Quiet.of_voted hv₁
  unfold approveMotion
  rw [Client.bind_of_ok hrun₁]
  rcases extractProposalIndex_proposed enc i a hfits (R.config.hashOf (.motionApprove call)) 2
    n₁ with ⟨hzero, -⟩ | ⟨-, hnone | ⟨other, hne, hread⟩⟩
  · exact absurd hzero hcount
  · exact ⟨n₁, _, _, Client.bind_of_error hnone, hst₁, hquiet⟩
  · obtain ⟨n₂, hrun₂, hst₂, hq₂⟩ := voteOnProposal_wrongIndex d blocks hst₁ ha hne
    rw [Client.bind_of_ok hread]
    exact ⟨n₂, _, _, Client.bind_of_error hrun₂, hst₂, hquiet.trans hq₂⟩

/-- Where the proposal is open already, the round stops at its first extrinsic. -/
lemma approveMotion_duplicate {p : Proposal R.AccountId (RuntimeCall R.OtherCall)}
    (ha : a ∈ (n.state.rest.collective i).members)
    (hopen : (n.state.rest.collective i).proposals
      (R.blake2256 (R.encode (.motionApprove call))) = some p) :
    ∃ n', approveMotion d blocks enc i a b call n =
      (n', .error (.extrinsicFailed (.collective .duplicateProposal))) := by
  have hpropose : propose d i a 2 (.motionApprove call)
      (n.state.startBlock (blocks n.log.length)) =
      (n.state.startBlock (blocks n.log.length), .error .duplicateProposal) := by
    have hsome : ((n.state.rest.collective i).proposals
        (R.config.hashOf (.motionApprove call))).isSome = true := by
      rw [hopen]
      rfl
    simp only [propose, State.startBlock_rest, if_pos ha, hsome, if_true]
  have happly : (SignedExtrinsic.propose i a 2 (.motionApprove call)).apply d
      (n.state.startBlock (blocks n.log.length)) =
      (n.state.startBlock (blocks n.log.length), .error (.collective .duplicateProposal)) := by
    rw [SignedExtrinsic.apply, withStorageLayer, SignedExtrinsic.body, hpropose]
    rfl
  exact ⟨_, Client.bind_of_error (submit_of_apply_error d blocks happly)⟩

end Body

/-! ### The whole run -/

/-- The keys of each body are two of its members. -/
structure Seated (s : State R.config) (keys : Keys R.AccountId) : Prop where
  dave : keys.dave ∈ (s.rest.collective .council).members
  eve : keys.eve ∈ (s.rest.collective .council).members
  alice : keys.alice ∈ (s.rest.collective .technicalCommittee).members
  bob : keys.bob ∈ (s.rest.collective .technicalCommittee).members
  council : keys.dave ≠ keys.eve
  technicalCommittee : keys.alice ≠ keys.bob

/-- Nothing is pending for a call. -/
structure Unproposed (s : State R.config) (call : RuntimeCall R.OtherCall) : Prop where
  motion : s.motions (R.blake2256 (R.encode call)) = none
  proposal : ∀ i, (s.rest.collective i).proposals
    (R.blake2256 (R.encode (.motionApprove call))) = none

section Run

variable {s : State R.config}

/-- The round of the council leaves the technical committee alone. -/
lemma collective_technicalCommittee_of_approved {call : RuntimeCall R.OtherCall} {n : Node R}
    {block : ℕ} (h : n.state.startBlock 0 = (approvedBy .council 2 call block s).startBlock 0) :
    n.state.rest.collective .technicalCommittee = s.rest.collective .technicalCommittee := by
  rw [← State.startBlock_rest n.state 0, h, State.startBlock_rest]
  exact approvedBy_collective_of_ne (by decide)

/-- Without earlier proposals the upgrader gets to the close of the motion. -/
lemma authorizeUpgrade_run (hkeys : Seated s keys)
    (hcall : Unproposed s (authorizeUpgradeCall sys code))
    (hcount : ∀ i, (s.rest.collective i).proposalCount = 0) :
    ∃ n, Voted 8 ⟨s, []⟩ n ∧ n.state.startBlock (blocks n.log.length) =
        closingState blocks (authorizeUpgradeCall sys code) s ∧
      authorizeUpgrade d blocks enc sys keys code ⟨s, []⟩ =
        (submit d blocks (.motionClose keys.signer
          (R.blake2256 (R.encode (authorizeUpgradeCall sys code)))) >>= fun _ => pure ()) n := by
  obtain ⟨n₁, hrun₁, hst₁, hv₁⟩ := approveMotion_run (n := ⟨s, []⟩) d blocks enc hkeys.dave
    hkeys.eve hkeys.council (hcall.proposal _) (hcount _)
  have hother := collective_technicalCommittee_of_approved (hst₁ 0)
  obtain ⟨n₂, hrun₂, hst₂, hv₂⟩ := approveMotion_run (n := n₁) (i := .technicalCommittee) d blocks
    enc (by rw [hother]; exact hkeys.alice) (by rw [hother]; exact hkeys.bob)
    hkeys.technicalCommittee (by rw [hother]; exact hcall.proposal _)
    (by rw [hother]; exact hcount _)
  have hv : Voted 8 ⟨s, []⟩ n₂ := hv₁.trans hv₂
  refine ⟨n₂, hv, ?_, ?_⟩
  · have hlog₁ : n₁.log.length = 4 := hv₁.length_log
    have hlog₂ : n₂.log.length = 8 := hv.length_log
    rw [hst₂, hlog₁, hlog₂]
    exact approvedBy_congr (hst₁ 0) _ _ _ _ _
  · unfold authorizeUpgrade
    rw [Client.bind_of_ok hrun₁, Client.bind_of_ok hrun₂]

/-- With an earlier proposal in one of the bodies it stops before the motion is closed. -/
lemma authorizeUpgrade_fails (hkeys : Seated s keys)
    (hcall : Unproposed s (authorizeUpgradeCall sys code))
    (hfits : ∀ i, (s.rest.collective i).proposalCount < 2 ^ 32)
    (hcount : ∃ i, (s.rest.collective i).proposalCount ≠ 0) :
    ∃ n e, authorizeUpgrade d blocks enc sys keys code ⟨s, []⟩ = (n, .error e) ∧
      Quiet ⟨s, []⟩ n := by
  by_cases hcouncil : (s.rest.collective .council).proposalCount = 0
  · have htc : (s.rest.collective .technicalCommittee).proposalCount ≠ 0 := by
      obtain ⟨i, hi⟩ := hcount
      cases i with
      | council => exact absurd hcouncil hi
      | technicalCommittee => exact hi
    obtain ⟨n₁, hrun₁, hst₁, hv₁⟩ := approveMotion_run (n := ⟨s, []⟩) d blocks enc hkeys.dave
      hkeys.eve hkeys.council (hcall.proposal _) hcouncil
    have hother := collective_technicalCommittee_of_approved (hst₁ 0)
    obtain ⟨n₂, e, p, hrun₂, -, hquiet⟩ := approveMotion_fails (n := n₁)
      (i := .technicalCommittee) (b := keys.bob) d blocks enc (by rw [hother]; exact hkeys.alice)
      (by rw [hother]; exact hcall.proposal _) (by rw [hother]; exact htc)
      (by rw [hother]; exact hfits _)
    refine ⟨n₂, e, ?_, (Quiet.of_voted hv₁).trans hquiet⟩
    unfold authorizeUpgrade
    rw [Client.bind_of_ok hrun₁]
    exact Client.bind_of_error hrun₂
  · obtain ⟨n₁, e, p, hrun₁, -, hquiet⟩ := approveMotion_fails (n := ⟨s, []⟩) (b := keys.eve) d
      blocks enc hkeys.dave (hcall.proposal _) hcouncil (hfits _)
    exact ⟨n₁, e, Client.bind_of_error hrun₁, hquiet⟩

/-- What the close of the motion comes to, for both bodies at once. -/
lemma reachesRoot_close_iff {call : RuntimeCall R.OtherCall} {n : Node R} {who : R.AccountId}
    (hmotion : s.motions (R.config.hashOf call) = none) (hvoted : Voted 8 ⟨s, []⟩ n)
    (hstate : n.state.startBlock (blocks n.log.length) = closingState blocks call s) :
    ReachesRoot d ((submit d blocks (.motionClose who (R.config.hashOf call)) >>=
        fun _ => pure ()) n) call ↔
      (∀ i, (s.rest.collective i).members.length ≤ 3) ∧
        blocks 7 < blocks 3 + R.motionDuration ∧
        (dispatchRoot (dispatch d) call (closingState blocks call s)).2 = .ok () := by
  have hbodies : (∀ i, (s.rest.collective i).members.length ≤ 3) ↔
      (s.rest.collective .council).members.length ≤ 3 ∧
        (s.rest.collective .technicalCommittee).members.length ≤ 3 := by
    refine ⟨fun h => ⟨h _, h _⟩, fun h i => ?_⟩
    cases i with
    | council => exact h.1
    | technicalCommittee => exact h.2
  rw [reachesRoot_motionClose_iff d blocks hmotion hvoted hstate, hbodies, and_assoc]

/-- **The upgrader works for the first proposals only.**  Its keys are members of the two bodies
and nothing is pending for its call.  All extrinsics up to the close of the motion succeed and the
code is authorized as Root exactly if neither body has had a proposal before, neither has more than
three members, the technical committee speaks before the motion ends and the call succeeds as Root.
If a body has had a proposal before, the upgrader stops with an error and nothing is dispatched as
Root; and if it was the council, its proposal stays open and the next run for the same code stops
right there. -/
theorem authorizeUpgrade_reachesRoot_iff (hkeys : Seated s keys)
    (hcall : Unproposed s (authorizeUpgradeCall sys code))
    (hfits : ∀ i, (s.rest.collective i).proposalCount < 2 ^ 32) :
    (ReachesRoot d (authorizeUpgrade d blocks enc sys keys code ⟨s, []⟩)
        (authorizeUpgradeCall sys code) ↔
      (∀ i, (s.rest.collective i).proposalCount = 0) ∧
        (∀ i, (s.rest.collective i).members.length ≤ 3) ∧
        blocks 7 < blocks 3 + R.motionDuration ∧
        (dispatchRoot (dispatch d) (authorizeUpgradeCall sys code)
          (closingState blocks (authorizeUpgradeCall sys code) s)).2 = .ok ()) ∧
    ((∃ i, (s.rest.collective i).proposalCount ≠ 0) →
      (∃ e, (executeUpgrade d blocks enc sys keys code ⟨s, []⟩).2 = .error (.client e)) ∧
        ∀ r ∈ (executeUpgrade d blocks enc sys keys code ⟨s, []⟩).1.log,
          ∀ call, ¬ r.DispatchesAsRoot d call) ∧
    ((s.rest.collective .council).proposalCount ≠ 0 →
      (executeUpgrade d blocks enc sys keys code
          (executeUpgrade d blocks enc sys keys code ⟨s, []⟩).1).2 =
        .error (.client (.extrinsicFailed (.collective .duplicateProposal)))) := by
  refine ⟨⟨fun hreaches => ?_, fun h => ?_⟩, fun hcount => ?_, fun hcouncil => ?_⟩
  · by_cases hcount : ∀ i, (s.rest.collective i).proposalCount = 0
    · obtain ⟨n, hvoted, hstate, hrun⟩ := authorizeUpgrade_run d blocks enc hkeys hcall hcount
      rw [hrun] at hreaches
      exact ⟨hcount, (reachesRoot_close_iff d blocks hcall.motion hvoted hstate).1 hreaches⟩
    · obtain ⟨n, e, hrun, -⟩ := authorizeUpgrade_fails d blocks enc hkeys hcall hfits
        (not_forall.1 hcount)
      rw [hrun] at hreaches
      exact absurd hreaches.completed (by simp)
  · obtain ⟨n, hvoted, hstate, hrun⟩ := authorizeUpgrade_run d blocks enc hkeys hcall h.1
    rw [hrun]
    exact (reachesRoot_close_iff d blocks hcall.motion hvoted hstate).2 h.2
  · obtain ⟨n, e, hrun, recs, hlog, hquiet⟩ := authorizeUpgrade_fails d blocks enc hkeys hcall
      hfits hcount
    rw [executeUpgrade, hrun]
    refine ⟨⟨e, rfl⟩, ?_⟩
    rintro r hr call ⟨who, hash, hext, -⟩
    exact hquiet r (by simpa [hlog] using hr) who hash hext
  · obtain ⟨n₁, e, p, hrun₁, hst₁, -⟩ := approveMotion_fails (n := ⟨s, []⟩) (b := keys.eve) d blocks
      enc hkeys.dave (hcall.proposal _) hcouncil (hfits _)
    have hfirst : authorizeUpgrade d blocks enc sys keys code ⟨s, []⟩ = (n₁, .error e) :=
      Client.bind_of_error hrun₁
    have hmember : keys.dave ∈ (n₁.state.rest.collective .council).members := by
      have hcollective := hst₁.collective 0
      rw [State.startBlock_rest] at hcollective
      rw [hcollective]
      exact hkeys.dave
    obtain ⟨n₂, hrun₂⟩ := approveMotion_duplicate (b := keys.eve) d blocks enc hmember
      (hst₁.proposals 0)
    have hsecond : authorizeUpgrade d blocks enc sys keys code n₁ =
        (n₂, .error (.extrinsicFailed (.collective .duplicateProposal))) :=
      Client.bind_of_error hrun₂
    rw [executeUpgrade, executeUpgrade, hfirst]
    dsimp only
    rw [hsecond]

end Run

end

/-! ### A small chain -/

/-- A runtime with an event for updated code. -/
def upgradeRuntime : Runtime := { smallRuntime with OtherEvent := Unit }

/-- Root authorizes the code with call 7, and anyone applies authorized code with call 8. -/
def upgradeCalls : OtherDispatcher upgradeRuntime := fun byte origin s =>
  match byte.toNat, origin with
  | 7, .root => ({ s with rest := { s.rest with other := (7 : UInt8) } }, .ok ⟨none, .yes⟩)
  | 8, .signed _ =>
    if UInt8.toNat s.rest.other = 7 then
      ({ s with events := s.events ++ [.other (.other ())] }, .ok ⟨none, .yes⟩)
    else (s, .error (.ofError .badOrigin))
  | _, _ => (s, .error (.ofError .badOrigin))

/-- Its events. -/
def upgradeEncoding : EventEncoding upgradeRuntime where
  accountId := fun _ => List.replicate 32 0
  hash := fun hash => hash
  length_accountId := fun _ => List.length_replicate

/-- Its system pallet. -/
def upgradeSystem : SystemPallet upgradeRuntime where
  authorizeUpgrade := fun _ => (7 : UInt8)
  applyAuthorizedUpgrade := fun _ => (8 : UInt8)
  isCodeUpdated := fun _ => true

/-- The keys of two members of each body. -/
def upgradeKeys : Keys upgradeRuntime.AccountId := ⟨(0 : ℕ), (1 : ℕ), (0 : ℕ), (1 : ℕ), (0 : ℕ)⟩

/-- Three members in each body, after the given number of proposals in the council. -/
def upgradeBodies (proposalCount : ℕ) : State upgradeRuntime.config where
  motions _ := none
  blockNumber := 0
  events := []
  rest := {
    collective := fun i => ⟨List.range 3, fun _ => none, match i with
      | .council => proposalCount
      | .technicalCommittee => 0⟩
    other := (0 : UInt8) }

lemma upgradeBodies_seated (proposalCount : ℕ) :
    Seated (upgradeBodies proposalCount) upgradeKeys where
  dave := (by decide : 0 ∈ List.range 3)
  eve := (by decide : 1 ∈ List.range 3)
  alice := (by decide : 0 ∈ List.range 3)
  bob := (by decide : 1 ∈ List.range 3)
  council := by decide
  technicalCommittee := by decide

lemma upgradeBodies_unproposed (proposalCount : ℕ) :
    Unproposed (upgradeBodies proposalCount) (authorizeUpgradeCall upgradeSystem [1, 2, 3]) :=
  ⟨rfl, fun _ => rfl⟩

/-- On a new chain the upgrade goes through.  After one proposal in the council it does not, nor
does a second attempt. -/
theorem upgrade_on_new_chain_only :
    ReachesRoot upgradeCalls (authorizeUpgrade upgradeCalls (fun k => k) upgradeEncoding
        upgradeSystem upgradeKeys [1, 2, 3] ⟨upgradeBodies 0, []⟩)
        (authorizeUpgradeCall upgradeSystem [1, 2, 3]) ∧
      (executeUpgrade upgradeCalls (fun k => k) upgradeEncoding upgradeSystem upgradeKeys
        [1, 2, 3] ⟨upgradeBodies 0, []⟩).2 = .ok () ∧
      (executeUpgrade upgradeCalls (fun k => k) upgradeEncoding upgradeSystem upgradeKeys
        [1, 2, 3] ⟨upgradeBodies 1, []⟩).2 = .error (.client .proposalIndexNotFound) ∧
      (executeUpgrade upgradeCalls (fun k => k) upgradeEncoding upgradeSystem upgradeKeys
          [1, 2, 3] (executeUpgrade upgradeCalls (fun k => k) upgradeEncoding upgradeSystem
            upgradeKeys [1, 2, 3] ⟨upgradeBodies 1, []⟩).1).2 =
        .error (.client (.extrinsicFailed (.collective .duplicateProposal))) := by
  have hcount (k : ℕ) (hk : k < 2 ^ 32) (i) :
      ((upgradeBodies k).rest.collective i).proposalCount < 2 ^ 32 := by
    cases i with
    | council => exact hk
    | technicalCommittee => exact (by decide : 0 < 2 ^ 32)
  have hfirst := (authorizeUpgrade_reachesRoot_iff upgradeCalls (fun k => k) upgradeEncoding
    (upgradeBodies_seated 0) (upgradeBodies_unproposed 0) (hcount 0 (by decide))).1
  have hagain := (authorizeUpgrade_reachesRoot_iff upgradeCalls (fun k => k) upgradeEncoding
    (upgradeBodies_seated 1) (upgradeBodies_unproposed 1) (hcount 1 (by decide))).2.2
  refine ⟨hfirst.2 ⟨fun i => ?_, fun i => ?_, by decide, rfl⟩, by decide +kernel,
    by decide +kernel, hagain (by decide)⟩
  · cases i <;> rfl
  · exact le_of_eq rfl

end MidnightNode.Toolkit.Upgrader
