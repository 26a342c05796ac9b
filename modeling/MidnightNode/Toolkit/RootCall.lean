/-
# The root-call client

`execute_governance_call` takes a call through the two authority bodies to Root: in each
body the first key proposes `FederatedAuthority::motion_approve` of the call with threshold
two, two keys vote for it and the proposal is closed; then the motion is closed.  Each
extrinsic is finalised before the next one is submitted, and the client stops at the first
one that fails.

A collective reports a closed proposal as a success whatever its call returned, and two
ayes stand for two thirds of a body only if it has at most three members.
-/
import MidnightNode.Governance.Collective

namespace MidnightNode.Toolkit

open StorageLayer MidnightNode.Frame Governance

variable {R : Runtime}

/-! ### The client -/

/-- What happened to an extrinsic that was submitted. -/
structure Submission (R : Runtime) where
  /-- The state it was applied to. -/
  pre : State R.config
  extrinsic : SignedExtrinsic R
  result : Except ExtrinsicError Unit
  /-- The state it left. -/
  post : State R.config

/-- The node the client talks to. -/
structure Node (R : Runtime) where
  state : State R.config
  /-- The extrinsics that were submitted, the first one first. -/
  log : List (Submission R)

/-- The errors of the client; an index out of bounds is a panic. -/
inductive RootCallError
  | callDecodeError
  | extrinsicFailed (e : ExtrinsicError)
  | proposalIndexNotFound
  | indexOutOfBounds
deriving DecidableEq, Repr

/-- A computation of the client. -/
def Client (R : Runtime) (α : Type) : Type := Node R → Node R × Except RootCallError α

instance : Monad (Client R) where
  pure a n := (n, .ok a)
  bind x f n := match x n with
    | (n', .ok a) => f a n'
    | (n', .error e) => (n', .error e)

/-- Give up with an error. -/
def Client.throw {α : Type} (e : RootCallError) : Client R α := fun n => (n, .error e)

section
variable (d : OtherDispatcher R) (blocks : ℕ → ℕ)

/-- Submit an extrinsic and wait for it to be finalised with success: the events it
deposited.  The `k`-th extrinsic of the client ends up in block `blocks k`. -/
def submit (x : SignedExtrinsic R) : Client R (List (RuntimeEvent R.config)) := fun n =>
  let pre := n.state.startBlock (blocks n.log.length)
  match x.apply d pre with
  | (post, .ok ()) => (⟨post, n.log ++ [⟨pre, x, .ok (), post⟩]⟩, .ok post.events)
  | (post, .error e) =>
      (⟨post, n.log ++ [⟨pre, x, .error e, post⟩]⟩, .error (.extrinsicFailed e))

/-- The index in the first `Proposed` event of the collective. -/
def extractProposalIndex (i : CollectiveInstance) :
    List (RuntimeEvent R.config) → Client R ℕ
  | .other (.collective j (.proposed _ index _ _)) :: events =>
      if i = j then pure index else extractProposalIndex i events
  | _ :: events => extractProposalIndex i events
  | [] => .throw .proposalIndexNotFound

/-- The key at an index of a slice. -/
def keyAt (keypairs : List R.AccountId) (k : ℕ) : Client R R.AccountId :=
  match keypairs[k]? with
  | some key => pure key
  | none => .throw .indexOutOfBounds

/-- One vote. -/
def voteOnProposal (signer : R.AccountId) (i : CollectiveInstance) (proposalHash : R.Hash)
    (proposalIndex : ℕ) (approve : Bool) : Client R Unit := do
  let _ ← submit d blocks (.vote i signer proposalHash proposalIndex approve)
  pure ()

/-- The close of a proposal. -/
def closeProposal (signer : R.AccountId) (i : CollectiveInstance) (proposalHash : R.Hash)
    (proposalIndex : ℕ) : Client R Unit := do
  let _ ← submit d blocks (.close i signer proposalHash proposalIndex)
  pure ()

/-- Steps 2 to 4 of the client, for the council, and 5 to 7, for the technical committee. -/
def approveMotion (i : CollectiveInstance) (keypairs : List R.AccountId)
    (call : RuntimeCall R.OtherCall) : Client R Unit := do
  let fedAuthCall := RuntimeCall.motionApprove call
  let proposalHash := R.blake2256 (R.encode fedAuthCall)
  let proposer ← keyAt keypairs 0
  let events ← submit d blocks (.propose i proposer 2 fedAuthCall)
  let proposalIndex ← extractProposalIndex i events
  (keypairs.take 2).forM fun voter =>
    voteOnProposal d blocks voter i proposalHash proposalIndex true
  closeProposal d blocks proposer i proposalHash proposalIndex

/-- Execute a call through governance. -/
def executeGovernanceCall (encodedCall : List UInt8)
    (councilKeypairs tcKeypairs : List R.AccountId) : Client R Unit := do
  match R.decode encodedCall with
  | none => .throw .callDecodeError
  | some call =>
      approveMotion d blocks .council councilKeypairs call
      approveMotion d blocks .technicalCommittee tcKeypairs call
      let motionHash := R.blake2256 encodedCall
      let councilProposer ← keyAt councilKeypairs 0
      let _ ← submit d blocks (.motionClose councilProposer motionHash)
      pure ()

end

/-! ### Running the client -/

lemma Client.bind_of_ok {α β : Type} {x : Client R α} {f : α → Client R β} {n n' : Node R}
    {a : α} (h : x n = (n', .ok a)) : (x >>= f) n = f a n' := by
  change (match x n with
    | (n', .ok a) => f a n'
    | (n', .error e) => (n', .error e)) = f a n'
  rw [h]

lemma Client.bind_of_error {α β : Type} {x : Client R α} {f : α → Client R β} {n n' : Node R}
    {e : RootCallError} (h : x n = (n', .error e)) : (x >>= f) n = (n', .error e) := by
  change (match x n with
    | (n', .ok a) => f a n'
    | (n', .error e) => (n', .error e)) = (n', .error e)
  rw [h]

/-- `n'` comes after `n` by `k` extrinsics of the collectives that all succeeded. -/
def Voted (k : ℕ) (n n' : Node R) : Prop :=
  ∃ recs, n'.log = n.log ++ recs ∧ recs.length = k ∧
    ∀ r ∈ recs, r.result = .ok () ∧ ∀ who hash, r.extrinsic ≠ .motionClose who hash

lemma Voted.length_log {k : ℕ} {n n' : Node R} (h : Voted k n n') :
    n'.log.length = n.log.length + k := by
  obtain ⟨recs, hlog, hlen, -⟩ := h
  rw [hlog, List.length_append, hlen]

lemma Voted.trans {k k' : ℕ} {n n' n'' : Node R} (h : Voted k n n') (h' : Voted k' n' n'') :
    Voted (k + k') n n'' := by
  obtain ⟨recs, hlog, hlen, hok⟩ := h
  obtain ⟨recs', hlog', hlen', hok'⟩ := h'
  refine ⟨recs ++ recs', by rw [hlog', hlog, List.append_assoc], by simp [hlen, hlen'], ?_⟩
  intro r hr
  rcases List.mem_append.1 hr with hr | hr
  · exact hok r hr
  · exact hok' r hr

variable (d : OtherDispatcher R) (blocks : ℕ → ℕ)

lemma submit_of_apply_ok {x : SignedExtrinsic R} {n : Node R} {post : State R.config}
    (h : x.apply d (n.state.startBlock (blocks n.log.length)) = (post, .ok ())) :
    submit d blocks x n =
      (⟨post, n.log ++ [⟨n.state.startBlock (blocks n.log.length), x, .ok (), post⟩]⟩,
        .ok post.events) := by
  unfold submit
  dsimp only
  rw [h]

lemma submit_of_apply_error {x : SignedExtrinsic R} {n : Node R} {post : State R.config}
    {e : ExtrinsicError}
    (h : x.apply d (n.state.startBlock (blocks n.log.length)) = (post, .error e)) :
    submit d blocks x n =
      (⟨post, n.log ++ [⟨n.state.startBlock (blocks n.log.length), x, .error e, post⟩]⟩,
        .error (.extrinsicFailed e)) := by
  unfold submit
  dsimp only
  rw [h]

/-- An extrinsic of a collective whose body succeeds. -/
lemma submit_of_ok {x : SignedExtrinsic R} {n : Node R} {post : State R.config}
    (hx : ∀ who hash, x ≠ .motionClose who hash)
    (h : x.body d (n.state.startBlock (blocks n.log.length)) = (post, .ok ())) :
    ∃ n', submit d blocks x n = (n', .ok post.events) ∧ n'.state = post ∧ Voted 1 n n' := by
  have happly : x.apply d (n.state.startBlock (blocks n.log.length)) = (post, .ok ()) :=
    withStorageLayer_of_ok h
  refine ⟨_, submit_of_apply_ok d blocks happly, rfl, [_], rfl, rfl, ?_⟩
  intro r hr
  rw [List.mem_singleton.1 hr]
  exact ⟨rfl, hx⟩

/-! ### A round of votes in one body -/

/-- The storage with a collective's next proposal at `hash` in some stage of its vote. -/
def withProposal (s : State R.config) (i : CollectiveInstance) (hash : R.Hash)
    (p : Option (Proposal R.AccountId (RuntimeCall R.OtherCall))) : State R.config :=
  s.setCollective i { s.rest.collective i with
    proposalCount := (s.rest.collective i).proposalCount + 1
    proposals := Function.update (s.rest.collective i).proposals hash p }

section
variable {s : State R.config} {i : CollectiveInstance} {hash : R.Hash}
  {p : Proposal R.AccountId (RuntimeCall R.OtherCall)} {who : R.AccountId}

lemma withProposal_collective (q : Option (Proposal R.AccountId (RuntimeCall R.OtherCall))) :
    (withProposal s i hash q).rest.collective i = { s.rest.collective i with
      proposalCount := (s.rest.collective i).proposalCount + 1
      proposals := Function.update (s.rest.collective i).proposals hash q } := by
  simp [withProposal, State.setCollective]

lemma setProposal_withProposal
    (q q' : Option (Proposal R.AccountId (RuntimeCall R.OtherCall))) :
    (withProposal s i hash q).setProposal i hash q' = withProposal s i hash q' := by
  unfold State.setProposal
  rw [withProposal_collective]
  simp [withProposal, State.setCollective]

/-- A member opens a proposal. -/
lemma propose_fresh (call : RuntimeCall R.OtherCall)
    (hwho : who ∈ (s.rest.collective i).members)
    (hfree : (s.rest.collective i).proposals (R.config.hashOf call) = none) :
    propose d i who 2 call s =
      ((withProposal s i (R.config.hashOf call)
          (some ⟨(s.rest.collective i).proposalCount, 2, [], [], call⟩)).depositCollective i
        (.proposed who (s.rest.collective i).proposalCount (R.config.hashOf call) 2), .ok ()) := by
  unfold propose
  simp only [hwho, if_true, hfree, Option.isSome_none, Bool.false_eq_true, if_false, lt_irrefl]
  simp [withProposal, State.setProposal, State.setCollective]

/-- A member votes for a proposal for the first time. -/
lemma vote_aye (hwho : who ∈ (s.rest.collective i).members)
    (hp : (s.rest.collective i).proposals hash = some p) (hnew : who ∉ p.ayes)
    (hnays : p.nays = []) :
    vote i who hash p.index true s =
      ((s.setProposal i hash (some { p with ayes := p.ayes ++ [who] })).depositCollective i
        (.voted who hash true (p.ayes.length + 1) 0), .ok ()) := by
  unfold vote
  obtain ⟨index, threshold, ayes, nays, call⟩ := p
  subst hnays
  simp only [hwho, if_true, hp, Proposal.vote, hnew, if_false]
  simp

/-- A proposal with enough ayes is closed, whatever its call returns. -/
lemma close_approved (hp : (s.rest.collective i).proposals hash = some p)
    (hyes : p.threshold ≤ p.ayes.length) :
    close d i hash p.index s =
      ((executeProposal d i hash p.call p.ayes.length
        ((s.depositCollective i (.closed hash p.ayes.length p.nays.length)).depositCollective i
          (.approved hash))).setProposal i hash none, .ok ()) := by
  unfold close
  simp only [hp, if_true, hyes]

end

/-! ### The approval of a body -/

/-- What the approval of a motion by `yes` members of a body leaves in storage: one proposal
more in the body, and what `motion_approve` makes of the motions. -/
def approvedBy (i : CollectiveInstance) (yes : ℕ) (call : RuntimeCall R.OtherCall) (block : ℕ)
    (s : State R.config) : State R.config :=
  let c := s.rest.collective i
  { s.setCollective i { c with proposalCount := c.proposalCount + 1 } with
    motions := (motionApprove (T := R.config) (.members i yes c.members.length) call
      (s.atBlock block)).1.motions }

/-- The approval of a body does not depend on the block and the events it starts from. -/
lemma approvedBy_congr {s s' : State R.config} {b : ℕ} (h : s.startBlock b = s'.startBlock b)
    (i : CollectiveInstance) (yes : ℕ) (call : RuntimeCall R.OtherCall) (block block' : ℕ) :
    (approvedBy i yes call block s).startBlock block' =
      (approvedBy i yes call block s').startBlock block' := by
  have hmotions : s.motions = s'.motions := by
    rw [← State.startBlock_motions s b, h, State.startBlock_motions]
  have hrest : s.rest = s'.rest := by
    rw [← State.startBlock_rest s b, h, State.startBlock_rest]
  have happroved : (motionApprove (T := R.config)
      (.members i yes (s'.rest.collective i).members.length) call (s.atBlock block)).1.motions =
      (motionApprove (T := R.config) (.members i yes (s'.rest.collective i).members.length) call
        (s'.atBlock block)).1.motions := motionApprove_motions_congr _ _ hmotions rfl
  rw [State.startBlock, State.startBlock]
  simp only [approvedBy, State.setCollective, hrest, happroved]

/-- A proposal to approve a motion changes nothing but the motions and the events, whether
the approval is accepted or not. -/
lemma executeProposal_motionApprove (i : CollectiveInstance) (hash : R.Hash) (yes block : ℕ)
    (call : RuntimeCall R.OtherCall) (s : State R.config) :
    (executeProposal d i hash (.motionApprove call) yes s).startBlock block =
      State.startBlock { s with motions := (motionApprove (T := R.config)
        (.members i yes (s.rest.collective i).members.length) call s).1.motions } block := by
  unfold executeProposal dispatch
  dsimp only
  rcases motionApprove_cases (T := R.config)
      (.members i yes (s.rest.collective i).members.length) call s with
    ⟨e, hrun⟩ | ⟨a, m, w, -, hrun⟩
  · rw [withStorageLayer_of_error hrun, hrun]
    rfl
  · rw [withStorageLayer_of_ok hrun, hrun]
    rfl

/-- `st` is `s` with the next proposal of a body in some stage of its vote, in another
block. -/
def InStage (s : State R.config) (i : CollectiveInstance) (hash : R.Hash)
    (p : Option (Proposal R.AccountId (RuntimeCall R.OtherCall))) (st : State R.config) : Prop :=
  ∀ block, st.startBlock block = (withProposal s i hash p).startBlock block

section
variable {s : State R.config} {i : CollectiveInstance} {hash : R.Hash}
  {p : Proposal R.AccountId (RuntimeCall R.OtherCall)} {who : R.AccountId} {n : Node R}
  {call : RuntimeCall R.OtherCall}

lemma InStage.collective {st : State R.config} {q} (h : InStage s i hash q st) (block : ℕ) :
    (st.startBlock block).rest.collective i = { s.rest.collective i with
      proposalCount := (s.rest.collective i).proposalCount + 1
      proposals := Function.update (s.rest.collective i).proposals hash q } := by
  rw [h block]
  exact withProposal_collective q

lemma InStage.proposals {st : State R.config} {q} (h : InStage s i hash q st) (block : ℕ) :
    ((st.startBlock block).rest.collective i).proposals hash = q := by
  rw [h.collective block]
  simp

/-- The approved proposal is executed and removed. -/
lemma InStage.executeProposal {st : State R.config} (hst : InStage s i hash (some p) st)
    (hfree : (s.rest.collective i).proposals hash = none) (yes block : ℕ) :
    ((executeProposal d i hash (.motionApprove call) yes st).setProposal i hash none).startBlock
        block =
      (approvedBy i yes call st.blockNumber s).startBlock block := by
  have hseats : (st.rest.collective i).members = (s.rest.collective i).members := by
    rw [← State.startBlock_rest st block, hst.collective]
  have hmotions : st.motions = s.motions := by
    rw [← State.startBlock_motions st block, hst block]
    rfl
  have happroved : (motionApprove (T := R.config)
      (.members i yes (st.rest.collective i).members.length) call st).1.motions =
      (approvedBy i yes call st.blockNumber s).motions := by
    rw [hseats]
    exact motionApprove_motions_congr _ _ hmotions rfl
  have hclosed : ((st.startBlock block).setProposal i hash none).rest =
      (approvedBy i yes call st.blockNumber s).rest := by
    rw [hst block, ← State.setProposal_startBlock, setProposal_withProposal]
    have hsame : Function.update (s.rest.collective i).proposals hash none =
        (s.rest.collective i).proposals := by
      rw [← hfree, Function.update_eq_self]
    simp [withProposal, approvedBy, hsame]
  rw [State.setProposal_startBlock, executeProposal_motionApprove, happroved]
  exact congrArg (fun rest => State.startBlock
    { approvedBy i yes call st.blockNumber s with rest := rest } block) hclosed

/-- The first key opens a proposal. -/
lemma submit_propose (hwho : who ∈ (n.state.rest.collective i).members)
    (hfree : (n.state.rest.collective i).proposals (R.config.hashOf call) = none) :
    ∃ n', submit d blocks (.propose i who 2 call) n = (n', .ok [.other (.collective i
        (.proposed who (n.state.rest.collective i).proposalCount (R.config.hashOf call) 2))]) ∧
      InStage n.state i (R.config.hashOf call)
        (some ⟨(n.state.rest.collective i).proposalCount, 2, [], [], call⟩) n'.state ∧
      Voted 1 n n' := by
  have hbody := propose_fresh (s := n.state.startBlock (blocks n.log.length)) d call
    hwho hfree
  obtain ⟨n', hrun, hstate, hvoted⟩ := submit_of_ok d blocks (n := n)
    (x := .propose i who 2 call) (by intro _ _ h; cases h)
    (by rw [SignedExtrinsic.body, hbody]; rfl)
  refine ⟨n', hrun, ?_, hvoted⟩
  intro block
  rw [hstate]
  rfl

/-- A key that has not voted yet votes for the proposal. -/
lemma voteOnProposal_aye (hst : InStage s i hash (some p) n.state)
    (hwho : who ∈ (s.rest.collective i).members) (hnew : who ∉ p.ayes) (hnays : p.nays = []) :
    ∃ n', voteOnProposal d blocks who i hash p.index true n = (n', .ok ()) ∧
      InStage s i hash (some { p with ayes := p.ayes ++ [who] }) n'.state ∧ Voted 1 n n' := by
  have hmem : who ∈ ((n.state.startBlock (blocks n.log.length)).rest.collective i).members := by
    rw [hst.collective]
    exact hwho
  have hbody := vote_aye hmem (hst.proposals _) hnew hnays
  obtain ⟨n', hrun, hstate, hvoted⟩ := submit_of_ok d blocks (n := n)
    (x := .vote i who hash p.index true) (by intro _ _ h; cases h)
    (by rw [SignedExtrinsic.body, hbody]; rfl)
  refine ⟨n', Client.bind_of_ok hrun, ?_, hvoted⟩
  intro block
  have hset := congrArg (fun st => State.setProposal st i hash
    (some { p with ayes := p.ayes ++ [who] })) (hst block)
  rw [← State.setProposal_startBlock, ← State.setProposal_startBlock,
    setProposal_withProposal] at hset
  rw [hstate, ← hset]
  rfl

/-- The close of the proposal lets the body speak for the motion with the ayes it has. -/
lemma closeProposal_approved (who : R.AccountId) (hst : InStage s i hash (some p) n.state)
    (hyes : p.threshold ≤ p.ayes.length) (hcall : p.call = .motionApprove call)
    (hfree : (s.rest.collective i).proposals hash = none) :
    ∃ n', closeProposal d blocks who i hash p.index n = (n', .ok ()) ∧
      (∀ block, n'.state.startBlock block =
        (approvedBy i p.ayes.length call (blocks n.log.length) s).startBlock block) ∧
      Voted 1 n n' := by
  have hbody := close_approved d (hst.proposals (blocks n.log.length)) hyes
  obtain ⟨n', hrun, hstate, hvoted⟩ := submit_of_ok d blocks (n := n)
    (x := .close i who hash p.index) (by intro _ _ h; cases h)
    (by rw [SignedExtrinsic.body, hbody]; rfl)
  refine ⟨n', Client.bind_of_ok hrun, ?_, hvoted⟩
  intro block
  have hst' : InStage s i hash (some p)
      (((n.state.startBlock (blocks n.log.length)).depositCollective i
        (.closed hash p.ayes.length p.nays.length)).depositCollective i (.approved hash)) := hst
  rw [hstate, hcall]
  exact hst'.executeProposal d hfree _ block

/-- A round of the client in one body: its four extrinsics succeed, and the body has
spoken for the motion with two of its members. -/
lemma approveMotion_run {a b : R.AccountId} (keys : List R.AccountId)
    (call : RuntimeCall R.OtherCall)
    (ha : a ∈ (n.state.rest.collective i).members) (hb : b ∈ (n.state.rest.collective i).members)
    (hab : a ≠ b) (hfree : (n.state.rest.collective i).proposals
      (R.blake2256 (R.encode (.motionApprove call))) = none) :
    ∃ n', approveMotion d blocks i (a :: b :: keys) call n = (n', .ok ()) ∧
      (∀ block, n'.state.startBlock block =
        (approvedBy i 2 call (blocks (n.log.length + 3)) n.state).startBlock block) ∧
      Voted 4 n n' := by
  obtain ⟨n₁, hrun₁, hst₁, hv₁⟩ := submit_propose d blocks ha hfree
  obtain ⟨n₂, hrun₂, hst₂, hv₂⟩ := voteOnProposal_aye d blocks hst₁ ha
    (by simp) rfl
  obtain ⟨n₃, hrun₃, hst₃, hv₃⟩ := voteOnProposal_aye d blocks hst₂ hb
    (by simpa using hab.symm) rfl
  obtain ⟨n₄, hrun₄, hst₄, hv₄⟩ := closeProposal_approved d blocks a hst₃ (by simp) rfl hfree
  have hlength : n₃.log.length = n.log.length + 3 := ((hv₁.trans hv₂).trans hv₃).length_log
  rw [hlength] at hst₄
  refine ⟨n₄, ?_, hst₄, ((hv₁.trans hv₂).trans hv₃).trans hv₄⟩
  have hindex : extractProposalIndex i [.other (.collective i (.proposed a
      (n.state.rest.collective i).proposalCount
      (R.config.hashOf (.motionApprove call)) 2))] n₁ =
      (n₁, .ok (n.state.rest.collective i).proposalCount) := by
    unfold extractProposalIndex
    rw [if_pos rfl]
    rfl
  have hvotes : ((a :: b :: keys).take 2).forM (fun voter => voteOnProposal d blocks voter i
      (R.blake2256 (R.encode (.motionApprove call))) (n.state.rest.collective i).proposalCount
      true) n₁ = (n₃, .ok ()) := by
    have hlast : ([] : List R.AccountId).forM (fun voter => voteOnProposal d blocks voter i
        (R.blake2256 (R.encode (.motionApprove call))) (n.state.rest.collective i).proposalCount
        true) n₃ = (n₃, .ok ()) := rfl
    exact (Client.bind_of_ok hrun₂).trans ((Client.bind_of_ok hrun₃).trans hlast)
  unfold approveMotion
  have hkey : keyAt (a :: b :: keys) 0 n = (n, .ok a) := rfl
  rw [Client.bind_of_ok hkey, Client.bind_of_ok hrun₁, Client.bind_of_ok hindex,
    Client.bind_of_ok hvotes]
  exact hrun₄

end

/-! ### The motion after the approvals -/

section
variable {s : State R.config} {i : CollectiveInstance} {call : RuntimeCall R.OtherCall}
  {block : ℕ}

lemma approvedBy_collective_of_ne {j : CollectiveInstance} (hj : j ≠ i) :
    (approvedBy i 2 call block s).rest.collective j = s.rest.collective j := by
  simp [approvedBy, State.setCollective, hj]

/-- Two ayes of a body of more than three members approve of nothing. -/
lemma approvedBy_refused (h : 3 < (s.rest.collective i).members.length) :
    (approvedBy i 2 call block s).motions = s.motions := by
  have ho : R.config.motionApprovalOrigin
      (.members i 2 (s.rest.collective i).members.length) = none :=
    (ensureFromBodies_members i 2 _).trans (if_neg (by omega))
  have hsame := congrArg State.motions
    (motionApprove_of_none (c := call) (s := s.atBlock block) ho)
  exact hsame

lemma motionApprovalOrigin_of_le (h : (s.rest.collective i).members.length ≤ 3) :
    R.config.motionApprovalOrigin (.members i 2 (s.rest.collective i).members.length) =
      some i.index :=
  (ensureFromBodies_members i 2 _).trans (if_pos (by omega))

/-- The first body creates the motion. -/
lemma approvedBy_new (block : ℕ) (h : (s.rest.collective i).members.length ≤ 3)
    (hm : s.motions (R.config.hashOf call) = none) :
    ∃ m, (approvedBy i 2 call block s).motions =
        Function.update s.motions (R.config.hashOf call) (some m) ∧
      m.approvals.elems = {i.index} ∧ m.endsBlock = block + R.motionDuration ∧
      m.call = call := by
  have he : ∃ m k b, approveEntry (s.atBlock block) i.index call
      ((s.atBlock block).motions (R.config.hashOf call)) = .ok (m, b, k) := by
    rw [show (s.atBlock block).motions = s.motions from rfl, hm]
    exact ⟨_, _, _, rfl⟩
  obtain ⟨m, k, b, he⟩ := he
  refine ⟨m, motionApprove_of_ok (motionApprovalOrigin_of_le h) he, ?_⟩
  rcases approveEntry_ok he with ⟨-, helems, hends, hcall⟩ | ⟨m₀, hm₀, -⟩
  · exact ⟨helems, hends, hcall⟩
  · exact absurd (hm.symm.trans hm₀) (by simp)

/-- A second body is added to a motion that has not ended. -/
lemma approvedBy_more (block : ℕ) (h : (s.rest.collective i).members.length ≤ 3)
    {m : MotionInfo R.config} (hm : s.motions (R.config.hashOf call) = some m)
    (hnew : i.index ∉ m.approvals.elems) (hroom : m.approvals.elems.card < 2)
    (hends : block < m.endsBlock) :
    ∃ m', (approvedBy i 2 call block s).motions =
        Function.update s.motions (R.config.hashOf call) (some m') ∧
      m'.approvals.elems = insert i.index m.approvals.elems ∧ m'.call = m.call := by
  have he : ∃ m' k b, approveEntry (s.atBlock block) i.index call
      ((s.atBlock block).motions (R.config.hashOf call)) = .ok (m', b, k) := by
    rw [show (s.atBlock block).motions = s.motions from rfl, hm, approveEntry]
    have hopen : hasEnded (s.atBlock block) m = false := decide_eq_false (not_le.2 hends)
    simp only [hopen, Bool.false_eq_true, if_false, BoundedBTreeSet.tryInsert, hnew, dif_neg,
      not_false_eq_true, hroom, dif_pos]
    exact ⟨_, _, _, rfl⟩
  obtain ⟨m', k, b, he⟩ := he
  refine ⟨m', motionApprove_of_ok (motionApprovalOrigin_of_le h) he, ?_⟩
  rcases approveEntry_ok he with ⟨hnone, -⟩ | ⟨m₀, hm₀, -, -, helems, -, hcall⟩
  · exact absurd (hm.symm.trans hnone) (by simp)
  · obtain rfl : m = m₀ := Option.some.inj (hm.symm.trans hm₀)
    exact ⟨helems, hcall⟩

/-- An approval of a motion that has ended changes nothing. -/
lemma approvedBy_late (h : (s.rest.collective i).members.length ≤ 3)
    {m : MotionInfo R.config} (hm : s.motions (R.config.hashOf call) = some m)
    (hends : m.endsBlock ≤ block) : (approvedBy i 2 call block s).motions = s.motions := by
  have he : approveEntry (s.atBlock block) i.index call
      ((s.atBlock block).motions (R.config.hashOf call)) =
        .error (.motionHasEnded, m.approvals.len) := by
    rw [show (s.atBlock block).motions = s.motions from rfl, hm, approveEntry]
    have hended : hasEnded (s.atBlock block) m = true := decide_eq_true hends
    simp [hended]
  have hsame := congrArg State.motions (motionApprove_of_error (motionApprovalOrigin_of_le h) he)
  exact hsame

end

/-- The state in which the client closes the motion. -/
def closingState (blocks : ℕ → ℕ) (call : RuntimeCall R.OtherCall) (s : State R.config) :
    State R.config :=
  (approvedBy .technicalCommittee 2 call (blocks 7)
    (approvedBy .council 2 call (blocks 3) s)).startBlock (blocks 8)

lemma isMotionApproved_iff_two_le {k : ℕ} (hk : k ≤ 2) :
    isMotionApproved R.config k = true ↔ k = 2 := by
  have happroved : isMotionApproved R.config k = true ↔ 1 * 2 % 2 ^ 32 ≤ k * 1 % 2 ^ 32 :=
    decide_eq_true_iff
  rw [happroved]
  omega

/-- A motion with one approval is not dispatched. -/
lemma rootCall_ne_of_one_approval {s : State R.config} {who : R.AccountId} {hash : R.config.Hash}
    {call : RuntimeCall R.OtherCall} {m : MotionInfo R.config} {a : AuthId}
    (hmotion : s.motions hash = some m) (helems : m.approvals.elems = {a}) :
    rootCall s (.signed who) hash ≠ some call := by
  intro hroot
  obtain ⟨-, m', hm', happroved, -⟩ := rootCall_eq_some_iff.1 hroot
  obtain rfl : m = m' := Option.some.inj (hmotion.symm.trans hm')
  have hlen : m.approvals.len = 1 := by
    rw [BoundedBTreeSet.len, helems, Finset.card_singleton]
  rw [hlen, isMotionApproved_iff_two_le (by omega)] at happroved
  omega

/-- The motion is approved exactly if both bodies are small and the second one is in time. -/
lemma rootCall_closingState_iff (who : R.AccountId) {s : State R.config}
    {call : RuntimeCall R.OtherCall} (hm : s.motions (R.config.hashOf call) = none) :
    rootCall (closingState blocks call s) (.signed who) (R.config.hashOf call) = some call ↔
      (s.rest.collective .council).members.length ≤ 3 ∧
        (s.rest.collective .technicalCommittee).members.length ≤ 3 ∧
        blocks 7 < blocks 3 + R.motionDuration := by
  have htc : (approvedBy .council 2 call (blocks 3) s).rest.collective .technicalCommittee =
      s.rest.collective .technicalCommittee := approvedBy_collective_of_ne (by decide)
  by_cases hc : (s.rest.collective .council).members.length ≤ 3
  · obtain ⟨m₁, hm₁, helems₁, hends₁, hcall₁⟩ := approvedBy_new (blocks 3) hc hm
    have hat₁ : (approvedBy .council 2 call (blocks 3) s).motions (R.config.hashOf call) =
        some m₁ := by rw [hm₁, Function.update_self]
    by_cases ht : (s.rest.collective .technicalCommittee).members.length ≤ 3
    · by_cases hb : blocks 7 < blocks 3 + R.motionDuration
      · refine iff_of_true ?_ ⟨hc, ht, hb⟩
        obtain ⟨m₂, hm₂, helems₂, hcall₂⟩ := approvedBy_more (i := .technicalCommittee)
          (blocks 7) (by rw [htc]; exact ht) hat₁
          (by rw [helems₁]; decide) (by rw [helems₁]; decide) (by rw [hends₁]; exact hb)
        refine rootCall_eq_some_iff.2 ⟨rfl, m₂, ?_, ?_, hcall₂.trans hcall₁⟩
        · rw [closingState, State.startBlock_motions, hm₂, Function.update_self]
        · have hlen : m₂.approvals.len = 2 := by
            rw [BoundedBTreeSet.len, helems₂, helems₁]
            rfl
          exact (isMotionApproved_iff_two_le hlen.le).2 hlen
      · refine iff_of_false (rootCall_ne_of_one_approval ?_ helems₁) (fun h => hb h.2.2)
        rw [closingState, State.startBlock_motions,
          approvedBy_late (by rw [htc]; exact ht) hat₁ (by rw [hends₁]; omega), hat₁]
    · refine iff_of_false (rootCall_ne_of_one_approval ?_ helems₁) (fun h => ht h.2.1)
      rw [closingState, State.startBlock_motions, approvedBy_refused (by rw [htc]; omega), hat₁]
  · refine iff_of_false ?_ (fun h => hc h.1)
    have hnone : (approvedBy .council 2 call (blocks 3) s).motions (R.config.hashOf call) =
        none := by rw [approvedBy_refused (by omega), hm]
    by_cases ht : (s.rest.collective .technicalCommittee).members.length ≤ 3
    · obtain ⟨m₂, hm₂, helems₂, -⟩ := approvedBy_new (i := .technicalCommittee)
        (blocks 7) (by rw [htc]; exact ht) hnone
      refine rootCall_ne_of_one_approval ?_ helems₂
      rw [closingState, State.startBlock_motions, hm₂, Function.update_self]
    · intro hroot
      obtain ⟨-, m, hmotion, -⟩ := rootCall_eq_some_iff.1 hroot
      rw [closingState, State.startBlock_motions, approvedBy_refused (by rw [htc]; omega),
        hnone] at hmotion
      exact absurd hmotion (by simp)

/-! ### Reaching Root -/

/-- The keys are distinct members of the body, at least two of them and two thirds of it. -/
structure Sufficient {AccountId : Type} (members keys : List AccountId) : Prop where
  twoMembers : 2 ≤ members.length
  nodup : keys.Nodup
  subset : ∀ key ∈ keys, key ∈ members
  twoKeys : 2 ≤ keys.length
  twoThirds : 2 * members.length ≤ 3 * keys.length

/-- The extrinsic dispatches the call as Root. -/
def Submission.DispatchesAsRoot (d : OtherDispatcher R) (r : Submission R)
    (call : RuntimeCall R.OtherCall) : Prop :=
  ∃ who hash, r.extrinsic = .motionClose who hash ∧
    rootCall r.pre (.signed who) hash = some call ∧
    ClosesWith (T := R.config) (dispatch d) r.pre (.signed who) hash call

/-- Every extrinsic succeeded, and one of them dispatched the call as Root. -/
structure ReachesRoot (d : OtherDispatcher R) (run : Node R × Except RootCallError Unit)
    (call : RuntimeCall R.OtherCall) : Prop where
  completed : run.2 = .ok ()
  succeeded : ∀ r ∈ run.1.log, r.result = .ok ()
  asRoot : ∃ r ∈ run.1.log, r.DispatchesAsRoot d call

lemma Sufficient.eq_cons_cons {AccountId : Type} {members keys : List AccountId}
    (h : Sufficient members keys) :
    ∃ a b rest, keys = a :: b :: rest ∧ a ∈ members ∧ b ∈ members ∧ a ≠ b := by
  match keys, h with
  | [], h => exact absurd h.twoKeys (by simp)
  | [a], h => exact absurd h.twoKeys (by simp)
  | a :: b :: rest, h =>
    refine ⟨a, b, rest, rfl, h.subset a (by simp), h.subset b (by simp), ?_⟩
    rintro rfl
    exact (List.nodup_cons.1 h.nodup).1 (by simp)

/-- The close of the motion, with which the client ends. -/
lemma submit_motionClose (n : Node R) (who : R.AccountId) (hash : R.Hash) :
    ∃ sub : Submission R, sub.pre = n.state.startBlock (blocks n.log.length) ∧
      sub.extrinsic = .motionClose who hash ∧
      ((submit d blocks (.motionClose who hash) >>= fun _ => pure ()) n).1.log =
        n.log ++ [sub] ∧
      (((submit d blocks (.motionClose who hash) >>= fun _ => pure ()) n).2 = .ok () ↔
        sub.result = .ok ()) ∧
      (sub.result = .ok () ↔
        ∃ p, (motionClose (T := R.config) (dispatch d) (.signed who) hash sub.pre).2 = .ok p) := by
  have hsnd : ((SignedExtrinsic.motionClose who hash).apply d
      (n.state.startBlock (blocks n.log.length))).2 = .ok () ↔
      ∃ p, (motionClose (T := R.config) (dispatch d) (.signed who) hash
        (n.state.startBlock (blocks n.log.length))).2 = .ok p := by
    rw [SignedExtrinsic.apply, withStorageLayer_snd, SignedExtrinsic.body]
    rcases motionClose (T := R.config) (dispatch d) (.signed who) hash
      (n.state.startBlock (blocks n.log.length)) with ⟨s', e | p⟩
    · simp
    · simp
  rcases happly : (SignedExtrinsic.motionClose who hash).apply d
      (n.state.startBlock (blocks n.log.length)) with ⟨post, e | u⟩
  · rw [happly] at hsnd
    rw [Client.bind_of_error (submit_of_apply_error d blocks happly)]
    exact ⟨_, rfl, rfl, rfl, by simp, hsnd⟩
  · rw [happly] at hsnd
    rw [Client.bind_of_ok (submit_of_apply_ok d blocks happly)]
    exact ⟨_, rfl, rfl, rfl, iff_of_true rfl rfl, hsnd⟩

/-- **The close of the motion.**  After the votes of both bodies the close is the only extrinsic
that can dispatch the call as Root. -/
lemma reachesRoot_motionClose_iff {s : State R.config} {call : RuntimeCall R.OtherCall} {n : Node R}
    {who : R.AccountId} (hmotion : s.motions (R.config.hashOf call) = none)
    (hvoted : Voted 8 ⟨s, []⟩ n)
    (hstate : n.state.startBlock (blocks n.log.length) = closingState blocks call s) :
    ReachesRoot d ((submit d blocks (.motionClose who (R.config.hashOf call)) >>=
        fun _ => pure ()) n) call ↔
      (s.rest.collective .council).members.length ≤ 3 ∧
        (s.rest.collective .technicalCommittee).members.length ≤ 3 ∧
        blocks 7 < blocks 3 + R.motionDuration ∧
        (dispatchRoot (dispatch d) call (closingState blocks call s)).2 = .ok () := by
  obtain ⟨recs, hrecs, -, hquiet⟩ := hvoted
  obtain ⟨sub, hpre, hext, hlog, hcompleted, hresult⟩ := submit_motionClose d blocks n who
    (R.config.hashOf call)
  rw [hstate] at hpre
  rw [hpre] at hresult
  have hroot := rootCall_closingState_iff blocks who hmotion
  have hbefore : ∀ r ∈ n.log, r.result = .ok () ∧ ∀ who hash, r.extrinsic ≠ .motionClose who hash :=
    fun r hr => hquiet r (by simpa [hrecs] using hr)
  constructor
  · rintro ⟨hdone, -, r, hr, who', hash', hext', hcall', -⟩
    rw [hlog] at hr
    rcases List.mem_append.1 hr with hr | hr
    · exact absurd hext' ((hbefore r hr).2 who' hash')
    · rw [List.mem_singleton.1 hr, hext] at hext'
      cases hext'
      rw [List.mem_singleton.1 hr, hpre] at hcall'
      obtain ⟨hc, ht, hb⟩ := hroot.1 hcall'
      have hclosed := hresult.1 (hcompleted.1 hdone)
      exact ⟨hc, ht, hb, (closesWith_of_rootCall (d := dispatch d) hcall').succeeds.1 hclosed⟩
  · rintro ⟨hc, ht, hb, hok⟩
    have hcall := hroot.2 ⟨hc, ht, hb⟩
    have hclosed := hresult.2 ((closesWith_of_rootCall (d := dispatch d) hcall).succeeds.2 hok)
    rw [← hpre] at hcall
    refine ⟨hcompleted.2 hclosed, ?_, sub, by rw [hlog]; simp, who, _, hext, hcall,
      closesWith_of_rootCall hcall⟩
    intro r hr
    rw [hlog] at hr
    rcases List.mem_append.1 hr with hr | hr
    · exact (hbefore r hr).1
    · rw [List.mem_singleton.1 hr]
      exact hclosed

/-- The client up to the close of the motion. -/
lemma executeGovernanceCall_run {s : State R.config} {encodedCall : List UInt8}
    {call : RuntimeCall R.OtherCall} {councilKeypairs tcKeypairs : List R.AccountId}
    (hdecode : R.decode encodedCall = some call)
    (hfree : ∀ i, (s.rest.collective i).proposals
      (R.blake2256 (R.encode (.motionApprove call))) = none)
    (hcouncil : Sufficient (s.rest.collective .council).members councilKeypairs)
    (htc : Sufficient (s.rest.collective .technicalCommittee).members tcKeypairs) :
    ∃ n who, Voted 8 ⟨s, []⟩ n ∧
      n.state.startBlock (blocks n.log.length) = closingState blocks call s ∧
      executeGovernanceCall d blocks encodedCall councilKeypairs tcKeypairs ⟨s, []⟩ =
        (submit d blocks (.motionClose who (R.blake2256 encodedCall)) >>= fun _ => pure ()) n := by
  obtain ⟨a, b, rest, rfl, ha, hb, hab⟩ := hcouncil.eq_cons_cons
  obtain ⟨a', b', rest', rfl, ha', hb', hab'⟩ := htc.eq_cons_cons
  obtain ⟨n₁, hrun₁, hst₁, hv₁⟩ := approveMotion_run (n := ⟨s, []⟩) d blocks rest call
    ha hb hab (hfree _)
  -- the second body finds its own storage as the client found it
  have hother : n₁.state.rest.collective .technicalCommittee =
      s.rest.collective .technicalCommittee := by
    rw [← State.startBlock_rest n₁.state 0, hst₁, State.startBlock_rest]
    exact approvedBy_collective_of_ne (by decide)
  obtain ⟨n₂, hrun₂, hst₂, hv₂⟩ := approveMotion_run (n := n₁)
    (i := .technicalCommittee) d blocks rest' call (by rw [hother]; exact ha')
    (by rw [hother]; exact hb') hab' (by rw [hother]; exact hfree _)
  have hv : Voted 8 ⟨s, []⟩ n₂ := hv₁.trans hv₂
  refine ⟨n₂, a, hv, ?_, ?_⟩
  · have hlog₁ : n₁.log.length = 4 := hv₁.length_log
    have hlog₂ : n₂.log.length = 8 := hv.length_log
    rw [hst₂, hlog₁, hlog₂]
    exact approvedBy_congr (hst₁ 0) _ _ _ _ _
  · have hkey : keyAt (a :: b :: rest) 0 n₂ = (n₂, .ok a) := rfl
    unfold executeGovernanceCall
    rw [hdecode]
    dsimp only
    rw [Client.bind_of_ok hrun₁, Client.bind_of_ok hrun₂, Client.bind_of_ok hkey]

/-- **When the root-call client reaches Root.**  Given enough keys of both bodies and no
motion pending for the call, all extrinsics of the client succeed and the call is
dispatched as Root exactly if neither body has more than three members, the technical
committee speaks before the motion ends and the call succeeds as Root. -/
theorem executeGovernanceCall_reachesRoot_iff (d : OtherDispatcher R) (blocks : ℕ → ℕ)
    {s : State R.config} {encodedCall : List UInt8} {call : RuntimeCall R.OtherCall}
    {councilKeypairs tcKeypairs : List R.AccountId}
    (hdecode : R.decode encodedCall = some call) (hencode : R.encode call = encodedCall)
    (hmotion : s.motions (R.blake2256 encodedCall) = none)
    (hfree : ∀ i, (s.rest.collective i).proposals
      (R.blake2256 (R.encode (.motionApprove call))) = none)
    (hcouncil : Sufficient (s.rest.collective .council).members councilKeypairs)
    (htc : Sufficient (s.rest.collective .technicalCommittee).members tcKeypairs) :
    ReachesRoot d
        (executeGovernanceCall d blocks encodedCall councilKeypairs tcKeypairs ⟨s, []⟩) call ↔
      (s.rest.collective .council).members.length ≤ 3 ∧
        (s.rest.collective .technicalCommittee).members.length ≤ 3 ∧
        blocks 7 < blocks 3 + R.motionDuration ∧
        (dispatchRoot (dispatch d) call (closingState blocks call s)).2 = .ok () := by
  subst hencode
  obtain ⟨n, who, hvoted, hstate, hrun⟩ := executeGovernanceCall_run d blocks hdecode hfree
    hcouncil htc
  rw [hrun]
  exact reachesRoot_motionClose_iff d blocks hmotion hvoted hstate

/-! ### A small runtime -/

/-- An encoding with a leading pallet index, and one byte for a call that is not modelled. -/
def encodeSmall : RuntimeCall UInt8 → List UInt8
  | .motionApprove call => 44 :: encodeSmall call
  | .other byte => [0, byte]

/-- The call that the bytes start with; like the decoding of the client it ignores what
follows. -/
def decodeSmall : List UInt8 → Option (RuntimeCall UInt8)
  | [] => none
  | index :: bytes =>
      if index = 44 then (decodeSmall bytes).map .motionApprove
      else if index = 0 then bytes.head?.map .other
      else none

lemma smallMotionDuration_pos : 0 < 5 * 14400 := by decide

/-- A runtime with that encoding, and bytes that are their own hash. -/
def smallRuntime : Runtime where
  AccountId := ℕ
  Hash := List UInt8
  OtherCall := UInt8
  OtherEvent := Empty
  Other := UInt8
  accountDecEq := inferInstance
  hashDecEq := inferInstance
  encode := encodeSmall
  decode := decodeSmall
  blake2256 bytes := bytes
  callWeight _ := ⟨1, 0⟩
  weightInfo := twoBodies.weightInfo
  motionDuration := 5 * 14400
  motionDuration_pos := smallMotionDuration_pos

/-- The other calls write their byte, as Root. -/
def smallCalls : OtherDispatcher smallRuntime := fun byte origin s =>
  match origin with
  | .root => ({ s with rest := { s.rest with other := byte } }, .ok ⟨none, .yes⟩)
  | _ => (s, .error (.ofError .badOrigin))

/-- A storage without motions and proposals, with bodies of the given sizes. -/
def smallBodies (council tc : ℕ) : State smallRuntime.config where
  motions _ := none
  blockNumber := 0
  events := []
  rest := {
    collective := fun i => ⟨match i with
      | .council => List.range council
      | .technicalCommittee => List.range tc, fun _ => none, 0⟩
    other := (0 : UInt8) }

/-- Three keys of a council of four are three quarters of it, but the client lets two of
them vote: the close of the council's proposal succeeds with a refused approval, and the
close of the motion finds the approval of the technical committee alone. -/
theorem not_reachesRoot_council_of_four :
    smallRuntime.decode [0, 7] = some (.other (7 : UInt8)) ∧
      smallRuntime.encode (.other (7 : UInt8)) = [0, 7] ∧
      Sufficient ((smallBodies 4 2).rest.collective .council).members
        [(0 : ℕ), (1 : ℕ), (2 : ℕ)] ∧
      Sufficient ((smallBodies 4 2).rest.collective .technicalCommittee).members
        [(0 : ℕ), (1 : ℕ)] ∧
      (executeGovernanceCall smallCalls (fun k => k) [0, 7] [(0 : ℕ), (1 : ℕ), (2 : ℕ)]
        [(0 : ℕ), (1 : ℕ)] ⟨smallBodies 4 2, []⟩).2 =
        .error (.extrinsicFailed (.federatedAuthority (.module .motionNotEnded))) ∧
      ¬ ReachesRoot smallCalls (executeGovernanceCall smallCalls (fun k => k) [0, 7]
        [(0 : ℕ), (1 : ℕ), (2 : ℕ)] [(0 : ℕ), (1 : ℕ)] ⟨smallBodies 4 2, []⟩)
          (.other (7 : UInt8)) := by
  have hfail : (executeGovernanceCall smallCalls (fun k => k) [0, 7]
      [(0 : ℕ), (1 : ℕ), (2 : ℕ)] [(0 : ℕ), (1 : ℕ)] ⟨smallBodies 4 2, []⟩).2 =
      .error (.extrinsicFailed (.federatedAuthority (.module .motionNotEnded))) := by
    decide +kernel
  have hcouncil : Sufficient [0, 1, 2, 3] [0, 1, 2] :=
    ⟨by decide, by decide, by decide, by decide, by decide⟩
  have htc : Sufficient [0, 1] [0, 1] := ⟨by decide, by decide, by decide, by decide, by decide⟩
  refine ⟨rfl, rfl, hcouncil, htc, hfail, ?_⟩
  intro h
  exact absurd (hfail.symm.trans h.completed) (by simp)

/-- Two keys of a council of three and the two keys of a technical committee of two. -/
theorem reachesRoot_council_of_three :
    ReachesRoot smallCalls (executeGovernanceCall smallCalls (fun k => k) [0, 7] [(0 : ℕ), (1 : ℕ)]
      [(0 : ℕ), (1 : ℕ)] ⟨smallBodies 3 2, []⟩) (.other (7 : UInt8)) := by
  have hdecode : smallRuntime.decode [0, 7] = some (.other (7 : UInt8)) := rfl
  have hcouncil : Sufficient [0, 1, 2] [0, 1] :=
    ⟨by decide, by decide, by decide, by decide, by decide⟩
  have htc : Sufficient [0, 1] [0, 1] := ⟨by decide, by decide, by decide, by decide, by decide⟩
  exact (executeGovernanceCall_reachesRoot_iff (s := smallBodies 3 2) smallCalls (fun k => k)
    hdecode rfl rfl (fun _ => rfl) hcouncil htc).2 ⟨by decide, by decide, by decide, rfl⟩

end MidnightNode.Toolkit
