/-
# The ledger storage of a node

The storage of the runtime holds only a key.  The ledger itself is kept beside it, in an arena
that all blocks share: the blocks of all forks, those that were only proposed, and those that
turned out to be invalid.  A failed call takes the key back but not the ledger that it persisted,
and a restart loses everything that was not flushed.  Beside the arena there are the caches for
verified transactions, which the pool and all blocks share as well, and which a restart empties.

Whatever a node went through, each block that it kept has its ledger on disk, and it is the
ledger that the blocks leading to it determine; and the node accepts those further blocks that
the ledgers themselves say are valid (`node_agrees_with_chain`).  This rests on the order in which
the bridge and `on_finalize` persist, store the key and flush.  It also needs that the caches are
transparent: no transaction that a call since the last start found well formed is judged
otherwise, in the same state, at the block time of a later call.  Without that the node may accept
a block that is not valid (`stale_entry_accepts_block`).
-/
import MidnightNode.Ledger.ChainReplay
import MidnightNode.Ledger.Transparency

namespace MidnightNode.Ledger

open Traverse Durable

variable {L : LedgerTypes} {C : LedgerCrate L} {R : ReplayCrate C}

/-! ### The host -/

/-- The arena, as a store of ledgers under their keys. -/
structure Arena (C : LedgerCrate L) extends
    DurableStore C.Storage (List UInt8) (StoredLedger C.State) where
  load_eq : ∀ storage stateKey, load storage stateKey = (getLedger storage stateKey).toOption
  key_eq : ∀ ledger, key ledger = C.serializeKey ledger
  persist_eq : ∀ storage ledger, persist storage ledger = C.persist storage ledger

/-- Which entries are evicted before a call: any, depending on all that happened. -/
structure Eviction (C : LedgerCrate L) where
  evict : List (Call C) → Caches C → Caches C
  evictsTo : ∀ calls (caches : Caches C), caches.EvictsTo (evict calls caches)

/-- What a node has beside the storage of the runtime.  The calls since it was started are
recorded only to say what is assumed of them. -/
structure HostState (C : LedgerCrate L) where
  storage : C.Storage
  caches : Caches C
  calls : List (Call C)
  /-- What is in the strict cache was verified since the node was started. -/
  verifiedBy : caches.VerifiedBy calls

lemma Caches.verifiedBy_empty : (Caches.empty : Caches C).VerifiedBy [] := by
  intro key verifiedTx h
  cases h

/-- A call of the bridge that goes through the caches. -/
def HostState.call (E : Eviction C) (host : HostState C) (call : Call C) :
    Outcome C × HostState C :=
  let result := call.exec (E.evict host.calls host.caches)
  (result.1, ⟨host.storage, result.2, host.calls ++ [call],
    (host.verifiedBy.evict (E.evictsTo host.calls host.caches)).exec call⟩)

/-- No transaction that one of the calls found well formed is judged otherwise by a later one
before or in a dispatch. -/
def SameVerdicts (calls : List (Call C)) : Prop :=
  calls.Pairwise fun c d => d.kind ≠ .validate → c.SameVerdict d

/-- The arena with the caches and the calls, which are lost in a restart. -/
def Arena.host (A : Arena C) :
    RecordedStore (HostState C) (List UInt8) (StoredLedger C.State) where
  load host := A.load host.storage
  key := A.key
  persist host ledger := { host with storage := A.persist host.storage ledger }
  flush host := { host with storage := A.flush host.storage }
  reopen host := ⟨A.reopen host.storage, .empty, [], Caches.verifiedBy_empty⟩
  load_persist host := A.load_persist host.storage
  load_persist_of_load host := A.load_persist_of_load host.storage
  load_flush host := A.load_flush host.storage
  load_reopen_flush host := A.load_reopen_flush host.storage
  load_reopen_persist host := A.load_reopen_persist host.storage
  load_of_reopen host := A.load_of_reopen host.storage
  load_reopen_reopen host := A.load_reopen_reopen host.storage
  assumed host := SameVerdicts host.calls
  assumed_of_persist _ _ h := h
  assumed_of_flush _ h := h

/-- What a node is made of: the ledger crate with its arena, the caches, and the runtime. -/
structure NodeSetup (R : ReplayCrate C) where
  arena : Arena C
  eviction : Eviction C
  chain : ChainCrate R
  /-- Whether failed segments are skipped in the events. -/
  skip : Bool
  runtimeVersion : BitVec 32

namespace NodeSetup

variable (N : NodeSetup R)

/-- The store of its host. -/
abbrev host : RecordedStore (HostState C) (List UInt8) (StoredLedger C.State) :=
  N.arena.host

/-- Its programs. -/
abbrev HostM : Type → Type :=
  Prog N.host

end NodeSetup

/-- What the bridge returned from `apply_transaction`. -/
def Outcome.toApplied :
    Outcome C → Option (TransactionAppliedStateRoot × StoredLedger C.State)
  | .applied result => result.toOption
  | _ => none

/-- What the bridge returned from `validate_guaranteed_execution`. -/
def Outcome.toGuaranteed : Outcome C → Option Unit
  | .guaranteed result => result.toOption
  | _ => none

namespace Host

variable (N : NodeSetup R)

/-- A call of the bridge that goes through the caches. -/
def call (kind : CallKind) (blockContext : BlockContext) (stateKey midnightTx : List UInt8) :
    N.HostM (Outcome C) where
  exec host :=
    let result := host.call N.eviction
      ⟨kind, host.storage, stateKey, midnightTx, blockContext, N.runtimeVersion⟩
    (some result.1, result.2)
  keeps _ := ⟨⟨fun _ _ h => h, fun _ _ h => h⟩, fun h => (List.pairwise_append.1 h).1⟩

/-- `validate_transaction`. -/
def validateTransaction (blockContext : BlockContext) (stateKey midnightTx : List UInt8) :
    N.HostM (Outcome C) :=
  call N .validate blockContext stateKey midnightTx

/-- `apply_transaction`: the new ledger is persisted and its key returned. -/
def applyTransaction (blockContext : BlockContext) (stateKey midnightTx : List UInt8) :
    N.HostM (List UInt8) := do
  let outcome ← call N (.apply N.skip) blockContext stateKey midnightTx
  let (event, newLedger) ← Prog.ofOption outcome.toApplied
  Prog.persist newLedger
  return event.stateRoot

/-- `validate_guaranteed_execution`. -/
def validateGuaranteedExecution (blockContext : BlockContext)
    (stateKey midnightTx : List UInt8) : N.HostM Unit := do
  let outcome ← call N .guaranteed blockContext stateKey midnightTx
  Prog.ofOption outcome.toGuaranteed

/-- `get_ledger`. -/
def getLedger (stateKey : List UInt8) : N.HostM (StoredLedger C.State) :=
  Prog.read fun host => (Ledger.getLedger host.storage stateKey).toOption

/-- A ledger is persisted once it has a key. -/
def persist (newLedger : StoredLedger C.State) : N.HostM (List UInt8) := do
  let stateRoot ← Prog.ofOption (C.serializeKey newLedger)
  Prog.persist newLedger
  return stateRoot

/-- `apply_system_transaction`. -/
def applySystemTransaction (blockContext : BlockContext) (stateKey bytes : List UInt8) :
    N.HostM (List UInt8) := do
  let tx ← Prog.ofOption (N.chain.deserializeSystem bytes)
  let ledger ← getLedger N stateKey
  let newLedger ← Prog.ofOption
    (Ledger.applySystemTransaction R ledger tx blockContext.tblock).toOption
  persist N newLedger

/-- `post_block_update`. -/
def postBlockUpdate (blockContext : BlockContext) (stateKey : List UInt8) :
    N.HostM (List UInt8) := do
  let ledger ← getLedger N stateKey
  let newLedger ← Prog.ofOption (Ledger.postBlockUpdate R ledger blockContext)
  persist N newLedger

end Host

/-! ### The runtime -/

/-- What a block leaves in the storage of the runtime. -/
structure RuntimeStorage where
  /-- `StateKey`. -/
  stateKey : List UInt8
  /-- `Timestamp::Now`, in milliseconds. -/
  now : ℕ
  /-- `Timestamp::DidUpdate`. -/
  didUpdate : Bool
  /-- `ParentTimestamp`, in seconds. -/
  parentTimestamp : ℕ

namespace RuntimeStorage

/-- `get_block_context`. -/
def getBlockContext (parentHash : BlockHash) (rt : RuntimeStorage) : BlockContext :=
  ⟨rt.now / 1000, 30, parentHash.1, rt.parentTimestamp⟩

/-- `on_initialize` of the pallet. -/
def onInitialize (rt : RuntimeStorage) : RuntimeStorage :=
  { rt with parentTimestamp := rt.now / 1000 }

end RuntimeStorage

section Runtime

variable (N : NodeSetup R)

/-- `mut_ledger_state` with `apply_system_transaction`, and the event. -/
def executeSystemTransactionAt (blockContext : BlockContext) (stateKey bytes : List UInt8) :
    N.HostM (List UInt8 × List (List UInt8)) := do
  let newStateKey ← Host.applySystemTransaction N blockContext stateKey bytes
  return (newStateKey, [bytes])

mutual

/-- A call: the state key and the events that it leaves, unless it fails. -/
def dispatchAt (blockContext : BlockContext) (stateKey : List UInt8) :
    LedgerCall → N.HostM (List UInt8 × List (List UInt8))
  | .sendMnTransaction midnightTx => do
    let newStateKey ← Host.applyTransaction N blockContext stateKey midnightTx
    return (newStateKey, [])
  | .sendMnSystemTransaction midnightSystemTx =>
    if N.chain.isGovernanceAllowedSystemTx midnightSystemTx then
      executeSystemTransactionAt N blockContext stateKey midnightSystemTx
    else Prog.fail
  | .executeSystemTransaction serialized =>
    executeSystemTransactionAt N blockContext stateKey serialized
  | .wrapper calls succeeds => do
    let (newStateKey, events, results) ← dispatchAllAt blockContext stateKey calls
    if succeeds results then return (newStateKey, events) else Prog.fail

/-- Calls one after the other, with their results.  The key of a call that fails is taken
back. -/
def dispatchAllAt (blockContext : BlockContext) (stateKey : List UInt8) :
    List LedgerCall → N.HostM (List UInt8 × List (List UInt8) × List Bool)
  | [] => return (stateKey, [], [])
  | call :: calls => do
    match ← (dispatchAt blockContext stateKey call).attempt with
    | none =>
      let (newStateKey, events, results) ← dispatchAllAt blockContext stateKey calls
      return (newStateKey, events, false :: results)
    | some (stateKey', events') =>
      let (newStateKey, events, results) ← dispatchAllAt blockContext stateKey' calls
      return (newStateKey, events' ++ events, true :: results)

end

/-- The dispatch of an extrinsic. -/
def dispatchExtrinsicAt (parentHash : BlockHash) (rt : RuntimeStorage) (extrinsic : Extrinsic)
    (call : LedgerCall) : N.HostM (RuntimeStorage × ExecutedExtrinsic) := do
  match ← (dispatchAt N (rt.getBlockContext parentHash) rt.stateKey call).attempt with
  | none => return (rt, ⟨extrinsic, false, []⟩)
  | some (stateKey, events) => return ({ rt with stateKey := stateKey }, ⟨extrinsic, true, events⟩)

/-- An extrinsic of a block. -/
def executeExtrinsicAt (parentHash : BlockHash) (rt : RuntimeStorage) :
    Extrinsic → N.HostM (RuntimeStorage × ExecutedExtrinsic)
  | .timestampSet now =>
    if rt.didUpdate then Prog.fail
    else return ({ rt with now := now, didUpdate := true }, ⟨.timestampSet now, true, []⟩)
  | .sendMnTransaction midnightTx => do
    Host.validateGuaranteedExecution N (rt.getBlockContext parentHash) rt.stateKey midnightTx
    dispatchExtrinsicAt N parentHash rt (.sendMnTransaction midnightTx)
      (.sendMnTransaction midnightTx)
  | .sendMnSystemTransaction midnightSystemTx =>
    return (rt, ⟨.sendMnSystemTransaction midnightSystemTx, false, []⟩)
  | .other calls succeeds =>
    dispatchExtrinsicAt N parentHash rt (.other calls succeeds) (.wrapper calls succeeds)

/-- The extrinsics of a block. -/
def executeExtrinsicsAt (parentHash : BlockHash) (rt : RuntimeStorage) :
    List Extrinsic → N.HostM (RuntimeStorage × List ExecutedExtrinsic)
  | [] => return (rt, [])
  | extrinsic :: extrinsics => do
    let (rt, executed) ← executeExtrinsicAt N parentHash rt extrinsic
    let (rt, rest) ← executeExtrinsicsAt parentHash rt extrinsics
    return (rt, executed :: rest)

/-- `on_initialize` and the extrinsics. -/
def executeBodyAt (rt : RuntimeStorage) (block : ChainBlock) :
    N.HostM (RuntimeStorage × List ExecutedExtrinsic) := do
  let rt := rt.onInitialize
  let (stateKey, _, _) ← dispatchAllAt N (rt.getBlockContext block.parentHash) rt.stateKey
    block.scheduled
  executeExtrinsicsAt N block.parentHash { rt with stateKey := stateKey } block.extrinsics

/-- `on_finalize`: the updated ledger is persisted, its key stored, and the arena flushed. -/
def onFinalizeAt (parentHash : BlockHash) (rt : RuntimeStorage) :
    N.HostM (RuntimeStorage × List UInt8) :=
  if rt.didUpdate then do
    let stateKey ← Host.postBlockUpdate N (rt.getBlockContext parentHash) rt.stateKey
    Prog.flush
    return ({ rt with stateKey := stateKey, didUpdate := false }, stateKey)
  else Prog.fail

/-- The execution of a block. -/
def executeBlockAt (rt : RuntimeStorage) (block : ChainBlock) :
    N.HostM (RuntimeStorage × FetchedBlock) := do
  let (rt, extrinsics) ← executeBodyAt N rt block
  let (rt, stateKey) ← onFinalizeAt N block.parentHash rt
  return (rt, ⟨block.number, block.hash, block.parentHash, block.specVersion, extrinsics,
    some stateKey, none⟩)

end Runtime

/-! ### The keys stand for the ledgers -/

section Simulation

variable {N : NodeSetup R} {host : HostState C} {stateKey : List UInt8}
  {ledger : StoredLedger C.State} {blockContext : BlockContext}

/-- A key stands for a ledger. -/
def NodeSetup.Stands (N : NodeSetup R) (host : HostState C) (stateKey : List UInt8)
    (ledger : StoredLedger C.State) : Prop :=
  N.host.load host stateKey = some ledger

lemma serializeKey_of_applySystemTransaction {newLedger : StoredLedger C.State}
    {tx : R.SystemTransaction} {tblock : ℕ}
    (h : applySystemTransaction R ledger tx tblock = .ok newLedger) :
    ∃ stateRoot, C.serializeKey newLedger = some stateRoot := by
  simp only [applySystemTransaction] at h
  split at h
  · exact absurd h (by simp)
  · split at h
    · exact absurd h (by simp)
    · rename_i stateRoot hkey
      obtain rfl := Except.ok.inj h
      exact ⟨stateRoot, hkey⟩

lemma NodeSetup.Stands.getLedger (h : N.Stands host stateKey ledger) :
    Ledger.getLedger host.storage stateKey = .ok ledger := by
  have hload : N.arena.load host.storage stateKey = some ledger := h
  rw [N.arena.load_eq] at hload
  exact toOption_eq_some.1 hload

lemma simulates_getLedger (h : N.Stands host stateKey ledger) :
    Simulates N.host (fun _ a b => a = b) host (Host.getLedger N stateKey) (some ledger) := by
  refine simulates_read ?_
  rw [h.getLedger]
  rfl

/-- What is persisted is found under its key, which is handed on. -/
lemma simulates_hostPersist (newLedger : StoredLedger C.State) :
    Simulates N.host (fun host a b => N.Stands host a b.1 ∧ a = b.2) host
      (Host.persist N newLedger) ((C.serializeKey newLedger).map (newLedger, ·)) := by
  rw [Host.persist, ← N.arena.key_eq]
  cases hkey : N.arena.key newLedger with
  | none => exact simulates_fail
  | some stateRoot =>
    exact (simulates_persist hkey).map (·, stateRoot) fun _ _ _ hab => ⟨hab.2, hab.1⟩

lemma simulates_applySystemTransaction (h : N.Stands host stateKey ledger)
    (bytes : List UInt8) :
    Simulates N.host N.Stands host
      (Host.applySystemTransaction N blockContext stateKey bytes)
      (N.chain.deserializeSystem bytes >>= fun tx =>
        (applySystemTransaction R ledger tx blockContext.tblock).toOption) := by
  refine (simulates_ofOption _).bind ?_
  rintro host' tx _ hkeeps ⟨rfl, -⟩
  have hledger : (applySystemTransaction R ledger tx blockContext.tblock).toOption =
      some ledger >>= fun ledger =>
        (applySystemTransaction R ledger tx blockContext.tblock).toOption >>= fun newLedger =>
          ((C.serializeKey newLedger).map (newLedger, ·)).map Prod.fst := by
    cases happly : applySystemTransaction R ledger tx blockContext.tblock with
    | error e => simp [happly, Except.toOption]
    | ok newLedger =>
      obtain ⟨stateRoot, hkey⟩ := serializeKey_of_applySystemTransaction happly
      simp [happly, Except.toOption, hkey]
  rw [hledger]
  refine (simulates_getLedger (hkeeps.load _ _ h)).bind ?_
  rintro host'' _ _ _ rfl
  refine (simulates_ofOption _).bind ?_
  rintro host₃ newLedger _ _ ⟨rfl, -⟩
  exact (simulates_hostPersist newLedger).map Prod.fst fun _ _ _ hab => hab.1

/-- The key and the events of a call stand for its ledger and its events. -/
def NodeSetup.StandsWith {α : Type} (N : NodeSetup R) (host : HostState C) (r : List UInt8 × α)
    (r' : StoredLedger C.State × α) : Prop :=
  N.Stands host r.1 r'.1 ∧ r.2 = r'.2

lemma simulates_executeSystemTransactionAt (h : N.Stands host stateKey ledger)
    (bytes : List UInt8) :
    Simulates N.host N.StandsWith host
      (executeSystemTransactionAt N blockContext stateKey bytes)
      (executeSystemTransaction N.chain blockContext ledger bytes) := by
  have hresult : executeSystemTransaction N.chain blockContext ledger bytes =
      (N.chain.deserializeSystem bytes >>= fun tx =>
        (applySystemTransaction R ledger tx blockContext.tblock).toOption) >>= fun newLedger =>
          some (newLedger, [bytes]) := by
    rw [executeSystemTransaction, bind_assoc]
    rfl
  rw [hresult]
  refine (simulates_applySystemTransaction h bytes).bind ?_
  intro host' newStateKey newLedger _ hnew
  exact simulates_pure ⟨hnew, rfl⟩

/-- The storage of the runtime stands for a state of the chain. -/
structure NodeSetup.Represents (N : NodeSetup R) (host : HostState C) (rt : RuntimeStorage)
    (s : ChainState C) : Prop where
  stands : N.Stands host rt.stateKey s.ledger
  now : rt.now = s.now
  didUpdate : rt.didUpdate = s.didUpdate
  parentTimestamp : rt.parentTimestamp = s.parentTimestamp

/-- The same, with what was recorded of the execution. -/
def NodeSetup.RepresentsWith {α : Type} (N : NodeSetup R) (host : HostState C)
    (r : RuntimeStorage × α) (r' : ChainState C × α) : Prop :=
  N.Represents host r.1 r'.1 ∧ r.2 = r'.2

variable {rt : RuntimeStorage} {s : ChainState C} {parentHash : BlockHash}

lemma NodeSetup.Represents.extends {host' : HostState C} (h : N.Represents host rt s)
    (hkeeps : N.host.Extends host host') : N.Represents host' rt s :=
  ⟨hkeeps.load _ _ h.stands, h.now, h.didUpdate, h.parentTimestamp⟩

lemma NodeSetup.Represents.getBlockContext (h : N.Represents host rt s) (parentHash : BlockHash) :
    rt.getBlockContext parentHash = Ledger.getBlockContext parentHash s := by
  rw [RuntimeStorage.getBlockContext, Ledger.getBlockContext, h.now, h.parentTimestamp]

lemma NodeSetup.Represents.setLedger (h : N.Represents host rt s)
    (hledger : N.Stands host stateKey ledger) :
    N.Represents host { rt with stateKey := stateKey } { s with ledger := ledger } :=
  ⟨hledger, h.now, h.didUpdate, h.parentTimestamp⟩

/-- What stands for a ledger does so for good. -/
def NodeSetup.Durably {α : Type} (N : NodeSetup R) (host : HostState C) (r : RuntimeStorage × α)
    (r' : ChainState C × α) : Prop :=
  N.Represents (N.host.reopen host) r.1 r'.1 ∧ r.2 = r'.2

lemma simulates_postBlockUpdate (h : N.Stands host stateKey ledger) :
    Simulates N.host (fun host a b => N.Stands host a b.1 ∧ a = b.2) host
      (Host.postBlockUpdate N blockContext stateKey)
      (postBlockUpdate R ledger blockContext >>= fun newLedger =>
        (C.serializeKey newLedger).map (newLedger, ·)) := by
  refine Simulates.bind (simulates_getLedger h) (g := fun ledger =>
    postBlockUpdate R ledger blockContext >>= fun newLedger =>
      (C.serializeKey newLedger).map (newLedger, ·)) ?_
  rintro host' _ ledger _ rfl
  refine (simulates_ofOption _).bind ?_
  rintro host'' newLedger _ _ ⟨rfl, -⟩
  exact simulates_hostPersist newLedger

lemma simulates_onFinalizeAt (h : N.Represents host rt s) :
    Simulates N.host N.Durably host (onFinalizeAt N parentHash rt)
      (onFinalize R parentHash s) := by
  rw [onFinalize, onFinalizeAt, h.didUpdate, h.getBlockContext]
  split
  · have hresult : (do
          let ledger ← postBlockUpdate R s.ledger (getBlockContext parentHash s)
          let stateKey ← C.serializeKey ledger
          return (({ s with ledger := ledger, didUpdate := false } : ChainState C), stateKey)) =
        (postBlockUpdate R s.ledger (getBlockContext parentHash s) >>= fun ledger =>
          (C.serializeKey ledger).map (ledger, ·)) >>= fun r =>
            some (({ s with ledger := r.1, didUpdate := false } : ChainState C), r.2) := by
      rw [bind_assoc]
      refine congrArg _ (funext fun ledger => ?_)
      cases C.serializeKey ledger <;> rfl
    rw [hresult]
    refine (simulates_postBlockUpdate h.stands).bind ?_
    rintro host' stateKey ⟨ledger, _⟩ _ ⟨hledger, rfl⟩
    refine Simulates.bind simulates_flush
      (g := fun _ => some (({ s with ledger := ledger, didUpdate := false } : ChainState C),
        stateKey)) ?_
    intro host'' _ _ _ hflush
    exact simulates_pure ⟨⟨hflush _ _ hledger, h.now, rfl, h.parentTimestamp⟩, rfl⟩
  · exact simulates_fail

/-! ### Calls through the caches -/

/-- The hashes that the caches are keyed by have no collisions. -/
structure CollisionFree (C : LedgerCrate L) : Prop where
  stateHash : Function.Injective C.stateHash
  twox128 : Function.Injective C.twox128

/-- Before and in a dispatch the bridge returns what it returns with empty caches. -/
lemma simulates_call (hhash : CollisionFree C) (kind : CallKind) (hkind : kind ≠ .validate)
    (midnightTx : List UInt8) :
    Simulates N.host (fun _ outcome _ => outcome = ((⟨kind, host.storage, stateKey, midnightTx,
        blockContext, N.runtimeVersion⟩ : Call C).exec .empty).1) host
      (Host.call N kind blockContext stateKey midnightTx) (some ()) := by
  intro hverdicts
  obtain ⟨-, -, hlast⟩ := List.pairwise_append.1 hverdicts
  refine .some (outcome_eq_fresh hhash.stateHash hhash.twox128
    (host.verifiedBy.evict (N.eviction.evictsTo _ _)) (fun c hc => ?_) hkind)
  exact hlast c hc _ List.mem_cons_self hkind

/-- What `apply_transaction` does to the ledger with empty caches. -/
lemma toOption_applyTransaction (h : N.Stands host stateKey ledger)
    (runtimeVersion : BitVec 32) (skip : Bool) (midnightTx : List UInt8) :
    ((applyTransaction host.storage stateKey midnightTx blockContext skip
        runtimeVersion).exec .empty).1.toOption.map Prod.snd =
      C.deserializeTransaction midnightTx >>= fun tx =>
        (applyMidnightTransaction ledger tx blockContext skip).toOption := by
  cases htx : C.deserializeTransaction midnightTx with
  | none =>
    have hload : ∃ e, loadCall host.storage stateKey midnightTx = .error e := by
      rw [loadCall, deserializeTransaction, htx]
      exact ⟨_, rfl⟩
    obtain ⟨e, hload⟩ := hload
    rw [exec_applyTransaction, hload]
    rfl
  | some tx =>
    have hload : loadCall host.storage stateKey midnightTx = .ok (tx, ledger) :=
      loadCall_eq_ok.2 ⟨okOr_eq_ok.2 htx, h.getLedger⟩
    have happly : ((applyTransaction host.storage stateKey midnightTx blockContext skip
        runtimeVersion).exec .empty).1.map Prod.snd =
          applyMidnightTransaction ledger tx blockContext skip := exec_applyTransaction_empty hload
    simp only [Option.bind_eq_bind, Option.bind_some, ← happly]
    cases ((applyTransaction host.storage stateKey midnightTx blockContext skip
      runtimeVersion).exec .empty).1 <;> rfl

lemma simulates_applyTransaction (hhash : CollisionFree C) (h : N.Stands host stateKey ledger)
    (midnightTx : List UInt8) :
    Simulates N.host N.Stands host (Host.applyTransaction N blockContext stateKey midnightTx)
      (C.deserializeTransaction midnightTx >>= fun tx =>
        (applyMidnightTransaction ledger tx blockContext N.skip).toOption) := by
  rw [← toOption_applyTransaction h N.runtimeVersion N.skip midnightTx, Option.map_eq_bind]
  refine Simulates.bind (o := some ()) (simulates_call hhash (.apply N.skip) (by simp) midnightTx)
    (g := fun _ => _) ?_
  rintro host' _ _ - rfl
  refine (simulates_ofOption _).bind ?_
  rintro host'' ⟨event, newLedger⟩ _ - ⟨rfl, hresult⟩
  have hexec : ((applyTransaction host.storage stateKey midnightTx blockContext N.skip
      N.runtimeVersion).exec .empty).1 = .ok (event, newLedger) := toOption_eq_some.1 hresult
  obtain ⟨_, _, _, _, _, _, _, _, hkey⟩ := applyTransaction_ok hexec
  exact (simulates_persist ((N.arena.key_eq newLedger).trans hkey)).imp fun _ _ _ hab => hab.2

lemma simulates_validateGuaranteedExecution (hhash : CollisionFree C)
    (h : N.Stands host stateKey ledger) (midnightTx : List UInt8) :
    Simulates N.host (fun _ a b => a = b) host
      (Host.validateGuaranteedExecution N blockContext stateKey midnightTx)
      (preDispatch ledger blockContext midnightTx) := by
  have hfresh : ((validateGuaranteedExecution host.storage stateKey midnightTx blockContext
      N.runtimeVersion).exec .empty).1.toOption = preDispatch ledger blockContext midnightTx := by
    rw [exec_validateGuaranteedExecution, preDispatch]
    cases htx : C.deserializeTransaction midnightTx with
    | none =>
      rw [loadCall, deserializeTransaction, htx]
      rfl
    | some tx =>
      rw [loadCall_eq_ok.2 ⟨okOr_eq_ok.2 htx, h.getLedger⟩]
      simp only [Caches.verified, Caches.empty, Option.bind_eq_bind, Option.bind_some]
      cases verifyTransaction ledger tx blockContext <;> rfl
  rw [← hfresh]
  refine Simulates.bind (o := some ()) (simulates_call hhash .guaranteed (by simp) midnightTx)
    (g := fun _ => _) ?_
  rintro host' _ _ - rfl
  exact (simulates_ofOption _).imp fun _ _ _ hab => hab.1

mutual

/-- A call over the arena does what it does to the ledger itself. -/
lemma simulates_dispatchAt (hhash : CollisionFree C) : ∀ (call : LedgerCall)
    {host : HostState C} {stateKey : List UInt8} {ledger : StoredLedger C.State},
    N.Stands host stateKey ledger →
    Simulates N.host N.StandsWith host (dispatchAt N blockContext stateKey call)
      (dispatch N.chain N.skip blockContext ledger call)
  | .sendMnTransaction midnightTx, host, stateKey, ledger, h => by
    have hresult : dispatch N.chain N.skip blockContext ledger (.sendMnTransaction midnightTx) =
        (C.deserializeTransaction midnightTx >>= fun tx =>
          (applyMidnightTransaction ledger tx blockContext N.skip).toOption) >>= fun newLedger =>
            some (newLedger, []) := by
      rw [dispatch, bind_assoc]
      rfl
    rw [hresult, dispatchAt]
    refine (simulates_applyTransaction hhash h midnightTx).bind ?_
    intro host' newStateKey newLedger _ hnew
    exact simulates_pure ⟨hnew, rfl⟩
  | .sendMnSystemTransaction midnightSystemTx, host, stateKey, ledger, h => by
    rw [dispatch, dispatchAt]
    split
    · exact simulates_executeSystemTransactionAt h midnightSystemTx
    · exact simulates_fail
  | .executeSystemTransaction serialized, host, stateKey, ledger, h => by
    rw [dispatch, dispatchAt]
    exact simulates_executeSystemTransactionAt h serialized
  | .wrapper calls succeeds, host, stateKey, ledger, h => by
    rw [dispatch, dispatchAt]
    refine Simulates.bind (simulates_dispatchAllAt hhash calls h)
      (g := fun r => if succeeds r.2.2 then some (r.1, r.2.1) else none) ?_
    rintro host' ⟨newStateKey, events, results⟩ ⟨newLedger, other⟩ _ ⟨hnew, hother⟩
    obtain rfl : (events, results) = other := hother
    dsimp only
    split
    · exact simulates_pure ⟨hnew, rfl⟩
    · exact simulates_fail

/-- The same for calls one after the other. -/
lemma simulates_dispatchAllAt (hhash : CollisionFree C) : ∀ (calls : List LedgerCall)
    {host : HostState C} {stateKey : List UInt8} {ledger : StoredLedger C.State},
    N.Stands host stateKey ledger →
    Simulates N.host N.StandsWith host (dispatchAllAt N blockContext stateKey calls)
      (some (dispatchAll N.chain N.skip blockContext ledger calls))
  | [], host, stateKey, ledger, h => by
    rw [dispatchAll, dispatchAllAt]
    exact simulates_pure ⟨h, rfl⟩
  | call :: calls, host, stateKey, ledger, h => by
    have hcall : Simulates N.host (fun host => Option.Rel (N.StandsWith host)) host
        (dispatchAt N blockContext stateKey call).attempt
        (some (dispatch N.chain N.skip blockContext ledger call)) :=
      (simulates_dispatchAt hhash call h).attempt
    have hresult : some (dispatchAll N.chain N.skip blockContext ledger (call :: calls)) =
        some (dispatch N.chain N.skip blockContext ledger call) >>= fun result =>
          some (dispatchAll N.chain N.skip blockContext (result.elim ledger Prod.fst) calls) >>=
            fun rest => some
              (rest.1, result.elim [] Prod.snd ++ rest.2.1, result.isSome :: rest.2.2) := by
      rw [dispatchAll]
      cases dispatch N.chain N.skip blockContext ledger call <;> rfl
    rw [hresult, dispatchAllAt]
    refine hcall.bind ?_
    intro host' _ _ hkeeps hfirst
    -- The key of a call that failed is taken back, and stands for what it stood for.
    have hnext : ∀ {stateKey₁ ledger₁ : _} (events₁ : List (List UInt8)) (success : Bool),
        N.Stands host' stateKey₁ ledger₁ →
        Simulates N.host N.StandsWith host'
          (do
            let (newStateKey, events, results) ← dispatchAllAt N blockContext stateKey₁ calls
            return (newStateKey, events₁ ++ events, success :: results))
          (some (dispatchAll N.chain N.skip blockContext ledger₁ calls) >>= fun rest =>
            some (rest.1, events₁ ++ rest.2.1, success :: rest.2.2)) := by
      intro stateKey₁ ledger₁ events₁ success h₁
      refine (simulates_dispatchAllAt hhash calls h₁).bind ?_
      rintro host'' ⟨newStateKey, events, results⟩ ⟨newLedger, other⟩ _ ⟨hnew, hother⟩
      obtain rfl : (events, results) = other := hother
      exact simulates_pure ⟨hnew, rfl⟩
    cases hfirst with
    | none => exact hnext [] false (hkeeps.load _ _ h)
    | @some r r' hrel =>
      obtain ⟨stateKey', events'⟩ := r
      obtain ⟨ledger', _⟩ := r'
      obtain ⟨hledger', rfl⟩ := hrel
      exact hnext events' true hledger'

end

lemma simulates_dispatchExtrinsicAt (hhash : CollisionFree C) (h : N.Represents host rt s)
    (extrinsic : Extrinsic) (call : LedgerCall) :
    Simulates N.host N.RepresentsWith host (dispatchExtrinsicAt N parentHash rt extrinsic call)
      (some (dispatchExtrinsic N.chain N.skip parentHash s extrinsic call)) := by
  have hcall : Simulates N.host (fun host => Option.Rel (N.StandsWith host)) host
      (dispatchAt N (rt.getBlockContext parentHash) rt.stateKey call).attempt
      (some (dispatch N.chain N.skip (getBlockContext parentHash s) s.ledger call)) := by
    rw [h.getBlockContext]
    exact (simulates_dispatchAt hhash call h.stands).attempt
  have hspec : dispatchExtrinsic N.chain N.skip parentHash s extrinsic call =
      (dispatch N.chain N.skip (getBlockContext parentHash s) s.ledger call).elim
        (s, (⟨extrinsic, false, []⟩ : ExecutedExtrinsic))
        fun r => ({ s with ledger := r.1 }, ⟨extrinsic, true, r.2⟩) := by
    rw [dispatchExtrinsic]
    cases dispatch N.chain N.skip (getBlockContext parentHash s) s.ledger call <;> rfl
  rw [hspec, dispatchExtrinsicAt]
  refine hcall.bind (g := fun result => some (result.elim
    (s, (⟨extrinsic, false, []⟩ : ExecutedExtrinsic))
    fun r => ({ s with ledger := r.1 }, ⟨extrinsic, true, r.2⟩))) ?_
  intro host' _ _ hkeeps hresult
  cases hresult with
  | none => exact simulates_pure ⟨h.extends hkeeps, rfl⟩
  | @some r r' hrel =>
    obtain ⟨stateKey', events⟩ := r
    obtain ⟨ledger', _⟩ := r'
    obtain ⟨hledger', rfl⟩ := hrel
    exact simulates_pure ⟨(h.extends hkeeps).setLedger hledger', rfl⟩

lemma simulates_executeExtrinsicAt (hhash : CollisionFree C) (h : N.Represents host rt s)
    (extrinsic : Extrinsic) :
    Simulates N.host N.RepresentsWith host (executeExtrinsicAt N parentHash rt extrinsic)
      (executeExtrinsic N.chain N.skip parentHash s extrinsic) := by
  cases extrinsic with
  | timestampSet now =>
    rw [executeExtrinsic, executeExtrinsicAt, h.didUpdate]
    split
    · exact simulates_fail
    · exact simulates_pure ⟨⟨h.stands, rfl, rfl, h.parentTimestamp⟩, rfl⟩
  | sendMnTransaction midnightTx =>
    have hresult : executeExtrinsic N.chain N.skip parentHash s (.sendMnTransaction midnightTx) =
        preDispatch s.ledger (getBlockContext parentHash s) midnightTx >>= fun _ =>
          some (dispatchExtrinsic N.chain N.skip parentHash s (.sendMnTransaction midnightTx)
            (.sendMnTransaction midnightTx)) := by
      rw [executeExtrinsic]
      cases preDispatch s.ledger (getBlockContext parentHash s) midnightTx <;> rfl
    rw [hresult, executeExtrinsicAt, h.getBlockContext]
    refine (simulates_validateGuaranteedExecution hhash h.stands midnightTx).bind ?_
    intro host' _ _ hkeeps _
    exact simulates_dispatchExtrinsicAt hhash (h.extends hkeeps) _ _
  | sendMnSystemTransaction midnightSystemTx => exact simulates_pure ⟨h, rfl⟩
  | other calls succeeds => exact simulates_dispatchExtrinsicAt hhash h _ _

lemma simulates_executeExtrinsicsAt (hhash : CollisionFree C) (h : N.Represents host rt s)
    (extrinsics : List Extrinsic) :
    Simulates N.host N.RepresentsWith host (executeExtrinsicsAt N parentHash rt extrinsics)
      (executeExtrinsics N.chain N.skip parentHash s extrinsics) := by
  induction extrinsics generalizing host rt s with
  | nil => exact simulates_pure ⟨h, rfl⟩
  | cons extrinsic extrinsics ih =>
    rw [executeExtrinsics, executeExtrinsicsAt]
    refine (simulates_executeExtrinsicAt hhash h extrinsic).bind ?_
    rintro host' ⟨rt', executed⟩ ⟨s', _⟩ _ ⟨h', rfl⟩
    refine (ih h').bind ?_
    rintro host'' ⟨rt'', rest⟩ ⟨s'', _⟩ _ ⟨h'', rfl⟩
    exact simulates_pure ⟨h'', rfl⟩

/-- `on_initialize` and the extrinsics of a block. -/
lemma simulates_executeBodyAt (hhash : CollisionFree C) (h : N.Represents host rt s)
    (block : ChainBlock) :
    Simulates N.host N.RepresentsWith host (executeBodyAt N rt block)
      (executeExtrinsics N.chain N.skip block.parentHash
        { onInitialize s with ledger := (dispatchAll N.chain N.skip
          (getBlockContext block.parentHash (onInitialize s)) s.ledger block.scheduled).1 }
        block.extrinsics) := by
  have hinit : N.Represents host rt.onInitialize (onInitialize s) :=
    ⟨h.stands, h.now, h.didUpdate, congrArg (· / 1000) h.now⟩
  rw [executeBodyAt]
  dsimp only
  rw [hinit.getBlockContext]
  refine Simulates.bind (simulates_dispatchAllAt hhash block.scheduled hinit.stands)
    (g := fun r => executeExtrinsics N.chain N.skip block.parentHash
      { onInitialize s with ledger := r.1 } block.extrinsics) ?_
  rintro host' ⟨stateKey', events, results⟩ ⟨ledger', _⟩ hkeeps ⟨hledger', -⟩
  exact simulates_executeExtrinsicsAt hhash ((hinit.extends hkeeps).setLedger hledger')
    block.extrinsics

/-- The execution of a block over the arena does what it does to the ledger itself, and leaves
the new ledger on disk. -/
lemma simulates_executeBlockAt (hhash : CollisionFree C) (h : N.Represents host rt s)
    (block : ChainBlock) :
    Simulates N.host N.Durably host (executeBlockAt N rt block)
      (executeBlock N.chain N.skip s block) := by
  rw [executeBlock, executeBlockAt]
  refine (simulates_executeBodyAt hhash h block).bind ?_
  rintro host' ⟨rt', executed⟩ ⟨s', _⟩ _ ⟨h', rfl⟩
  refine (simulates_onFinalizeAt h').bind ?_
  rintro host'' ⟨rt'', stateKey⟩ ⟨s'', _⟩ _ ⟨h'', rfl⟩
  exact simulates_pure ⟨h'', rfl⟩

end Simulation

/-! ### Nodes -/

/-- A node: its host, and the storage of the runtime for each block that it kept. -/
structure NodeState (C : LedgerCrate L) where
  host : HostState C
  blocks : BlockHash → Option RuntimeStorage

/-- What happens to a node. -/
inductive NodeEvent
  /-- A transaction is validated for the pool on top of a block that the node kept.  The block
  time lies ahead by a slot and the slots that may be skipped. -/
  | validate (hash : BlockHash) (ahead : ℕ) (midnightTx : List UInt8)
  /-- A block arrives, on top of any block that the node kept. -/
  | importBlock (block : ChainBlock)
  /-- A block is executed and not kept: it was only proposed, or is rejected for other
  reasons. -/
  | execute (block : ChainBlock)
  /-- The execution of a block is given up before it ends. -/
  | giveUp (block : ChainBlock) (extrinsics : ℕ)
  | restart

namespace NodeState

section Step

variable (N : NodeSetup R)

/-- `validate_unsigned`, for the host. -/
def validateUnsigned (hash : BlockHash) (ahead : ℕ) (midnightTx : List UInt8)
    (rt : RuntimeStorage) : N.HostM (Outcome C) :=
  let blockContext := rt.getBlockContext hash
  Host.validateTransaction N { blockContext with tblock := blockContext.tblock + ahead }
    rt.stateKey midnightTx

/-- A node keeps a block that it can execute and does not have. -/
def step (n : NodeState C) : NodeEvent → NodeState C
  | .validate hash ahead midnightTx =>
    match n.blocks hash with
    | none => n
    | some rt => { n with host := ((validateUnsigned N hash ahead midnightTx rt).exec n.host).2 }
  | .importBlock block =>
    match n.blocks block.hash, n.blocks block.parentHash with
    | none, some rt =>
      match (executeBlockAt N rt block).exec n.host with
      | (none, host) => { n with host := host }
      | (some (rt', _), host) => ⟨host, Function.update n.blocks block.hash (some rt')⟩
    | _, _ => n
  | .execute block =>
    match n.blocks block.parentHash with
    | none => n
    | some rt => { n with host := ((executeBlockAt N rt block).exec n.host).2 }
  | .giveUp block extrinsics =>
    match n.blocks block.parentHash with
    | none => n
    | some rt =>
      { n with host := ((executeBodyAt N rt
        { block with extrinsics := block.extrinsics.take extrinsics }).exec n.host).2 }
  | .restart => { n with host := N.host.reopen n.host }

/-- The events of a node one after the other. -/
def run (n : NodeState C) (events : List NodeEvent) : NodeState C :=
  events.foldl (step N) n

/-- At no time has a call since the last start been judged otherwise than an earlier one. -/
def VerdictsAgree (n : NodeState C) (events : List NodeEvent) : Prop :=
  ∀ events', events' <+: events → SameVerdicts (n.run N events').host.calls

end Step

end NodeState

/-- The state of the chain after a block, by the blocks that lead to it. -/
inductive Leads (K : ChainCrate R) (skip : Bool) (genesis : BlockHash) (s₀ : ChainState C) :
    BlockHash → ChainState C → Prop
  | genesis : Leads K skip genesis s₀ genesis s₀
  | block {s s' : ChainState C} {block : ChainBlock} {fetched : FetchedBlock}
      (hparent : Leads K skip genesis s₀ block.parentHash s)
      (hexecute : executeBlock K skip s block = some (s', fetched)) :
      Leads K skip genesis s₀ block.hash s'

section NodeRuns

variable {N : NodeSetup R} {genesis : BlockHash} {s₀ : ChainState C}

/-- The ledger of each block that a node kept is on disk, and is the one that the blocks leading
to it determine. -/
def NodeState.Sound (N : NodeSetup R) (genesis : BlockHash) (s₀ : ChainState C)
    (n : NodeState C) : Prop :=
  ∀ hash rt, n.blocks hash = some rt →
    ∃ s, Leads N.chain N.skip genesis s₀ hash s ∧ N.Represents (N.host.reopen n.host) rt s

/-- What is on disk is also found before a restart. -/
lemma NodeSetup.Represents.of_reopen {host : HostState C} {rt : RuntimeStorage}
    {s : ChainState C} (h : N.Represents (N.host.reopen host) rt s) : N.Represents host rt s :=
  ⟨N.host.load_of_reopen _ _ _ h.stands, h.now, h.didUpdate, h.parentTimestamp⟩

/-- A host that loses nothing keeps a node sound. -/
lemma NodeState.Sound.extends {n : NodeState C} (h : n.Sound N genesis s₀)
    {host : HostState C} (hkeeps : N.host.Extends n.host host) :
    NodeState.Sound N genesis s₀ { n with host := host } := by
  intro hash rt hrt
  obtain ⟨s, hleads, hs⟩ := h hash rt hrt
  exact ⟨s, hleads, hkeeps.reopen _ _ hs.stands, hs.now, hs.didUpdate, hs.parentTimestamp⟩

/-- The host after a block whose parent a node kept. -/
lemma NodeState.step_importBlock_host {n : NodeState C} {block : ChainBlock}
    {rt : RuntimeStorage} (hnew : n.blocks block.hash = none)
    (hrt : n.blocks block.parentHash = some rt) :
    (n.step N (.importBlock block)).host = ((executeBlockAt N rt block).exec n.host).2 := by
  rw [NodeState.step, hnew, hrt]
  dsimp only
  rcases (executeBlockAt N rt block).exec n.host with ⟨_ | r, host⟩ <;> rfl

/-- A block whose parent a node kept: what the node makes of it. -/
lemma NodeState.Sound.step_importBlock (hhash : CollisionFree C) {n : NodeState C}
    (h : n.Sound N genesis s₀) {block : ChainBlock} {rt : RuntimeStorage} {s : ChainState C}
    (hnew : n.blocks block.hash = none) (hrt : n.blocks block.parentHash = some rt)
    (hleads : Leads N.chain N.skip genesis s₀ block.parentHash s)
    (hs : N.Represents (N.host.reopen n.host) rt s)
    (hverdicts : SameVerdicts (n.step N (.importBlock block)).host.calls) :
    (n.step N (.importBlock block)).Sound N genesis s₀ ∧
      ((n.step N (.importBlock block)).blocks block.hash).isSome =
        (executeBlock N.chain N.skip s block).isSome := by
  have hsimulates : Simulates N.host N.Durably n.host (executeBlockAt N rt block)
      (executeBlock N.chain N.skip s block) := simulates_executeBlockAt hhash hs.of_reopen block
  rw [NodeState.step_importBlock_host hnew hrt] at hverdicts
  have hresult := hsimulates hverdicts
  have hkeeps := (executeBlockAt N rt block).keeps n.host
  rw [NodeState.step, hnew, hrt]
  dsimp only
  rcases hexec : (executeBlockAt N rt block).exec n.host with ⟨result, host⟩
  rw [hexec] at hkeeps hresult
  cases hexecute : executeBlock N.chain N.skip s block with
  | none =>
    rw [hexecute] at hresult
    cases hresult
    exact ⟨h.extends hkeeps, by rw [hnew]; rfl⟩
  | some result' =>
    rw [hexecute] at hresult
    cases hresult with
    | @some r _ hdurably =>
      refine ⟨?_, by simp⟩
      intro hash rt₁ hrt₁
      have hupdate : Function.update n.blocks block.hash (some r.1) hash = some rt₁ := hrt₁
      by_cases hhash : hash = block.hash
      · subst hhash
        rw [Function.update_self] at hupdate
        obtain rfl := Option.some.inj hupdate
        exact ⟨result'.1, .block hleads hexecute, hdurably.1⟩
      · rw [Function.update_of_ne hhash] at hupdate
        exact h.extends hkeeps hash rt₁ hupdate

/-- Whatever happens to a node, it stays sound. -/
lemma NodeState.Sound.step (hhash : CollisionFree C) {n : NodeState C}
    (h : n.Sound N genesis s₀) (event : NodeEvent)
    (hverdicts : SameVerdicts (n.step N event).host.calls) :
    (n.step N event).Sound N genesis s₀ := by
  cases event with
  | validate hash ahead midnightTx =>
    rw [NodeState.step]
    cases n.blocks hash with
    | none => exact h
    | some rt => exact h.extends ((NodeState.validateUnsigned N hash ahead midnightTx rt).keeps _)
  | importBlock block =>
    cases hnew : n.blocks block.hash with
    | some rt =>
      rw [NodeState.step, hnew]
      exact h
    | none =>
      cases hrt : n.blocks block.parentHash with
      | none =>
        rw [NodeState.step, hnew, hrt]
        exact h
      | some rt =>
        obtain ⟨s, hleads, hs⟩ := h block.parentHash rt hrt
        exact (h.step_importBlock hhash hnew hrt hleads hs hverdicts).1
  | execute block =>
    rw [NodeState.step]
    cases n.blocks block.parentHash with
    | none => exact h
    | some rt => exact h.extends ((executeBlockAt N rt block).keeps _)
  | giveUp block extrinsics =>
    rw [NodeState.step]
    cases n.blocks block.parentHash with
    | none => exact h
    | some rt => exact h.extends ((executeBodyAt N rt _).keeps _)
  | restart =>
    intro hash rt hrt
    obtain ⟨s, hleads, hs⟩ := h hash rt hrt
    exact ⟨s, hleads, N.host.load_reopen_reopen _ _ _ hs.stands, hs.now, hs.didUpdate,
      hs.parentTimestamp⟩

lemma NodeState.Sound.run (hhash : CollisionFree C) {n : NodeState C}
    (h : n.Sound N genesis s₀) (events : List NodeEvent) (hverdicts : n.VerdictsAgree N events) :
    (n.run N events).Sound N genesis s₀ := by
  induction events generalizing n with
  | nil => exact h
  | cons event events ih =>
    have hfirst : SameVerdicts (n.step N event).host.calls :=
      hverdicts [event] ⟨events, rfl⟩
    refine ih (h.step hhash event hfirst) fun events' hprefix => ?_
    exact hverdicts (event :: events') (List.cons_prefix_cons.2 ⟨rfl, hprefix⟩)

end NodeRuns

/-! ### A node with the log -/

/-- The arena of the log. -/
def logArena : Arena logCrate where
  toDurableStore := WriteBack.store logKey logKey_injective
  load_eq (storage : WriteBack (StoredLedger (List UInt8))) stateKey := by
    have hget : getLedger (C := logCrate) storage stateKey =
        okOr (WriteBack.load logKey storage stateKey) .noLedgerState := rfl
    rw [hget]
    show WriteBack.load logKey storage stateKey = _
    cases WriteBack.load logKey storage stateKey <;> rfl
  key_eq _ := rfl
  persist_eq _ _ := rfl

/-- A node that evicts nothing. -/
def logNode : NodeSetup logReplay where
  arena := logArena
  eviction := ⟨fun _ caches => caches, fun _ caches => .refl caches⟩
  chain := logChain
  skip := true
  runtimeVersion := 0

/-- The hash of the block with a number. -/
def nodeHash (number : UInt8) : BlockHash := ⟨List.replicate 32 number, List.length_replicate⟩

/-- A block with a number, on top of the one with another. -/
def nodeBlock (number parent : UInt8) (extrinsics : List Extrinsic) : ChainBlock :=
  ⟨number.toNat, nodeHash number, nodeHash parent, 22000, [], extrinsics⟩

/-- A node with the first block. -/
def nodeStart : NodeState logCrate :=
  ⟨⟨⟨[], [⟨[], .zero⟩]⟩, .empty, [], Caches.verifiedBy_empty⟩, fun hash =>
    if hash = nodeHash 1 then some ⟨logKey ⟨[], .zero⟩, 0, false, 0⟩ else none⟩

/-- A block at a time at which its transaction is not yet well formed. -/
def earlyBlock : ChainBlock :=
  nodeBlock 2 1 [.timestampSet 5000, .sendMnTransaction [1]]

/-- It is not valid, and rejected by a node that has not seen the transaction.  But a node that
validated the transaction for the pool, at a block time that lies ahead, finds it in its cache
and accepts the block. -/
theorem stale_entry_accepts_block :
    (executeBlock logChain true logStart earlyBlock).isSome = false ∧
      ((nodeStart.run logNode [.importBlock earlyBlock]).blocks (nodeHash 2)).isSome = false ∧
      ((nodeStart.run logNode [.validate (nodeHash 1) 12 [1], .importBlock earlyBlock]).blocks
        (nodeHash 2)).isSome = true := by
  decide +kernel

end MidnightNode.Ledger
