/-
# Contract maintenance

The maintenance builder checks that the provided keys belong to the committee of the contract and
that there are enough of them, and `build` signs the update with each of them, at the position
the key has in the list.  The ledger looks the signer up at that position of the committee.  So
the update passes exactly if the keys are the first members of the committee, in their order.

The list of updates removes the entry points that are to be removed, and those to be inserted that
exist already, and inserts afterwards.  It can be applied exactly if no entry point is named
twice.
-/
import MidnightNode.Lib.Table
import MidnightNode.Lib.Traverse
import Mathlib.Algebra.Group.Nat.Defs
import Mathlib.Data.List.Nodup

namespace MidnightNode.Toolkit

open Traverse Replay Table

/-- What the builder uses of the ledger crate and of the file system. -/
structure MaintenanceHost where
  SigningKey : Type
  VerifyingKey : Type
  [decVerifyingKey : DecidableEq VerifyingKey]
  Signature : Type
  /-- The state of the random number generator. -/
  Rng : Type
  /-- What `data_to_sign` returns. -/
  Data : Type
  ContractAddress : Type
  /-- `ContractOperationVersionedVerifierKey`, of version 3. -/
  VerifierKey : Type
  Path : Type
  /-- `std::io::Error`. -/
  IoError : Type
  verifyingKey : SigningKey → VerifyingKey
  sign : Rng → SigningKey → Data → Signature × Rng
  verify : VerifyingKey → Data → Signature → Bool
  extension : Path → Option (List UInt8)
  fileStem : Path → Option (List UInt8)
  /-- `std::fs::read`. -/
  read : Path → Except IoError (List UInt8)
  deserialize : List UInt8 → Except IoError VerifierKey

attribute [instance] MaintenanceHost.decVerifyingKey

/-- A signature verifies under the key of the signer, and under no other. -/
def MaintenanceHost.Lawful (H : MaintenanceHost) : Prop :=
  ∀ rng sk data vk, H.verify vk data (H.sign rng sk data).1 = true ↔ vk = H.verifyingKey sk

/-- `EntryPointBuf`. -/
structure EntryPoint where
  bytes : List UInt8
deriving DecidableEq

variable {H : MaintenanceHost}

/-! ### Updates -/

/-- `ContractMaintenanceAuthority`. -/
structure Authority (H : MaintenanceHost) where
  committee : List H.VerifyingKey
  threshold : UInt32
  counter : UInt32

/-- `ContractMaintenanceAuthorityInfo`. -/
structure AuthorityInfo (H : MaintenanceHost) where
  newCommittee : List H.SigningKey
  threshold : UInt32
  counter : UInt32

/-- `UpdateInfo`. -/
inductive UpdateInfo (H : MaintenanceHost)
  | replaceAuthority (info : AuthorityInfo H)
  | verifierKeyRemove (entrypoint : EntryPoint)
  | verifierKeyInsert (entrypoint : EntryPoint) (key : H.VerifierKey)

/-- `SingleUpdate`. -/
inductive SingleUpdate (H : MaintenanceHost)
  | replaceAuthority (authority : Authority H)
  | verifierKeyRemove (entrypoint : EntryPoint)
  | verifierKeyInsert (entrypoint : EntryPoint) (key : H.VerifierKey)

/-- `MaintenanceUpdateInfo`. -/
structure MaintenanceUpdateInfo (H : MaintenanceHost) where
  address : H.ContractAddress
  committee : List H.SigningKey
  updates : List (UpdateInfo H)
  counter : UInt32

/-- `MaintenanceUpdate`, with the signatures in the order they were added. -/
structure MaintenanceUpdate (H : MaintenanceHost) where
  address : H.ContractAddress
  updates : List (SingleUpdate H)
  counter : UInt32
  signatures : List (UInt32 × H.Signature)

/-- The update that is described. -/
def UpdateInfo.toSingleUpdate : UpdateInfo H → SingleUpdate H
  | replaceAuthority info =>
    .replaceAuthority ⟨info.newCommittee.map H.verifyingKey, info.threshold, info.counter⟩
  | verifierKeyRemove entrypoint => .verifierKeyRemove entrypoint
  | verifierKeyInsert entrypoint key => .verifierKeyInsert entrypoint key

/-- The signing loop of `build`: keys sign one after the other, from an index on. -/
def signLoop (data : H.Data) : H.Rng → ℕ → List H.SigningKey → List (UInt32 × H.Signature)
  | _, _, [] => []
  | rng, idx, key :: keys =>
    let (signature, rng) := H.sign rng key data
    (UInt32.ofNat idx, signature) :: signLoop data rng (idx + 1) keys

/-- `MaintenanceUpdateInfo::build`; `data_to_sign` reads everything but the signatures. -/
def MaintenanceUpdateInfo.build
    (dataToSign : H.ContractAddress → List (SingleUpdate H) → UInt32 → H.Data) (rng : H.Rng)
    (info : MaintenanceUpdateInfo H) : MaintenanceUpdate H :=
  let updates := info.updates.map UpdateInfo.toSingleUpdate
  ⟨info.address, updates, info.counter,
    signLoop (dataToSign info.address updates info.counter) rng 0 info.committee⟩

/-! ### The builder -/

/-- `ContractMaintenanceBuilderError`.  Keys stand for their hexadecimal texts. -/
inductive MaintenanceError (H : MaintenanceHost)
  | providedCommitteeNotSubset (provided current : List H.VerifyingKey)
  | thresholdMissed (provided threshold : ℕ) (current : List H.VerifyingKey)
  | contractNotPresent (address : H.ContractAddress)
  | removingMissingEntrypoint (entrypoint : EntryPoint)
  | verifierKeyLoadError (error : H.IoError)
  | deserializationError (path : H.Path) (error : H.IoError)
  | invalidVerifierKeyName (path : H.Path)
  | noChange

/-- `ContractMaintenanceBuilder`, with the signing key of the funding seed. -/
structure MaintenanceBuilder (H : MaintenanceHost) where
  currentCommittee : List H.SigningKey
  newCommittee : List H.SigningKey
  upsertEntrypoints : List H.Path
  /-- The strings, as entry points. -/
  removeEntrypoints : List EntryPoint
  threshold : Option UInt32
  counter : UInt32
  fundingSigningKey : H.SigningKey
  contractAddress : H.ContractAddress

/-- `ContractState`, as far as the builder reads it. -/
structure ContractState (H : MaintenanceHost) where
  operations : EntryPoint → Option H.VerifierKey
  maintenanceAuthority : Authority H

/-- `check_committee`. -/
def checkCommittee (providedCommittee : List H.VerifyingKey) (authority : Authority H) :
    Except (MaintenanceError H) Unit :=
  if ¬ ∀ c ∈ providedCommittee, c ∈ authority.committee then
    .error (.providedCommitteeNotSubset providedCommittee authority.committee)
  else if providedCommittee.length < authority.threshold.toNat then
    .error (.thresholdMissed providedCommittee.length authority.threshold.toNat
      authority.committee)
  else .ok ()

/-- `b"verifier"`. -/
def verifierExtension : List UInt8 := [0x76, 0x65, 0x72, 0x69, 0x66, 0x69, 0x65, 0x72]

namespace MaintenanceBuilder

/-- The keys that sign: the provided ones, and the funding key if it is of the committee and not
provided. -/
def signingCommittee (b : MaintenanceBuilder H) (authority : Authority H) : List H.SigningKey :=
  if H.verifyingKey b.fundingSigningKey ∉ b.currentCommittee.map H.verifyingKey ∧
      H.verifyingKey b.fundingSigningKey ∈ authority.committee then
    b.currentCommittee ++ [b.fundingSigningKey]
  else b.currentCommittee

/-- An entry point to insert and its key, from a path. -/
def loadUpsert (p : H.Path) : Except (MaintenanceError H) (EntryPoint × H.VerifierKey) :=
  if H.extension p ≠ some verifierExtension then .error (.invalidVerifierKeyName p)
  else
    match H.fileStem p with
    | none => .error (.invalidVerifierKeyName p)
    | some stem => do
      let keyBytes ← (H.read p).mapError .verifierKeyLoadError
      let key ← (H.deserialize keyBytes).mapError (.deserializationError p)
      .ok (⟨stem⟩, key)

/-- The loop over the paths: the entry points to remove and those to insert, so far. -/
def upsertLoop (operations : EntryPoint → Option H.VerifierKey) :
    List EntryPoint → List (EntryPoint × H.VerifierKey) → List H.Path →
      Except (MaintenanceError H) (List EntryPoint × List (EntryPoint × H.VerifierKey))
  | toRemove, toInsert, [] => .ok (toRemove, toInsert)
  | toRemove, toInsert, p :: paths => do
    let (entrypoint, key) ← loadUpsert p
    let toRemove := if (operations entrypoint).isSome then toRemove ++ [entrypoint] else toRemove
    upsertLoop operations toRemove (toInsert ++ [(entrypoint, key)]) paths

/-- The updates of `create_intent_info`. -/
def createUpdates (b : MaintenanceBuilder H) (toRemove : List EntryPoint)
    (toInsert : List (EntryPoint × H.VerifierKey)) : List (UpdateInfo H) :=
  toRemove.map .verifierKeyRemove ++ toInsert.map (fun e => .verifierKeyInsert e.1 e.2) ++
    if b.newCommittee.length > 0 then
      [.replaceAuthority ⟨b.newCommittee,
        b.threshold.getD (UInt32.ofNat b.newCommittee.length), b.counter + 1⟩]
    else []

/-- `build_txs_from`, up to the maintenance update it describes. -/
def buildTxsFrom (b : MaintenanceBuilder H) (contractState : Option (ContractState H)) :
    Except (MaintenanceError H) (MaintenanceUpdateInfo H) :=
  match contractState with
  | none => .error (.contractNotPresent b.contractAddress)
  | some contractState => do
    let committee := b.signingCommittee contractState.maintenanceAuthority
    checkCommittee (committee.map H.verifyingKey) contractState.maintenanceAuthority
    match b.removeEntrypoints.find? fun e => (contractState.operations e).isNone with
    | some entrypoint => .error (.removingMissingEntrypoint entrypoint)
    | none => do
      let (toRemove, toInsert) ←
        upsertLoop contractState.operations b.removeEntrypoints [] b.upsertEntrypoints
      if toRemove.isEmpty && toInsert.isEmpty && b.newCommittee.isEmpty then .error .noChange
      else .ok ⟨b.contractAddress, committee, b.createUpdates toRemove toInsert, b.counter⟩

end MaintenanceBuilder

/-! ### The ledger -/

/-- The ledger's check of the signatures: the indices are different, each signature verifies under
the member of the committee at its index, and there are enough of them. -/
structure Authority.Accepts (authority : Authority H)
    (dataToSign : H.ContractAddress → List (SingleUpdate H) → UInt32 → H.Data)
    (update : MaintenanceUpdate H) : Prop where
  distinct : (update.signatures.map Prod.fst).Nodup
  valid : ∀ s ∈ update.signatures, ∃ vk, authority.committee[s.1.toNat]? = some vk ∧
    H.verify vk (dataToSign update.address update.updates update.counter) s.2 = true
  enough : authority.threshold.toNat ≤ update.signatures.length

/-- The ledger applies a single update to the entry points of a contract. -/
def SingleUpdate.apply (operations : EntryPoint → Option H.VerifierKey) :
    SingleUpdate H → Option (EntryPoint → Option H.VerifierKey)
  | replaceAuthority _ => some operations
  | verifierKeyRemove entrypoint => change operations (entrypoint, none)
  | verifierKeyInsert entrypoint key => change operations (entrypoint, some key)

/-! ### Signatures -/

lemma length_signLoop (data : H.Data) (rng : H.Rng) (idx : ℕ) (keys : List H.SigningKey) :
    (signLoop data rng idx keys).length = keys.length := by
  induction keys generalizing rng idx with
  | nil => rfl
  | cons key keys ih => rw [signLoop, List.length_cons, List.length_cons, ih]

/-- The indices are positions, as 32-bit numbers. -/
lemma map_fst_signLoop (data : H.Data) (rng : H.Rng) (idx : ℕ) (keys : List H.SigningKey) :
    (signLoop data rng idx keys).map Prod.fst =
      (List.range' idx keys.length).map UInt32.ofNat := by
  induction keys generalizing rng idx with
  | nil => rfl
  | cons key keys ih =>
    rw [signLoop, List.map_cons, ih, List.length_cons, List.range'_succ, List.map_cons]

/-- The indices are different as long as they do not wrap around. -/
lemma nodup_map_fst_signLoop {data : H.Data} {rng : H.Rng} {keys : List H.SigningKey} :
    ((signLoop data rng 0 keys).map Prod.fst).Nodup ↔ keys.length ≤ 2 ^ 32 := by
  rw [map_fst_signLoop]
  constructor
  · intro h
    by_contra hlong
    have h0 : 0 ∈ List.range' 0 keys.length := List.mem_range'_1.2 ⟨Nat.le_refl 0, by omega⟩
    have hwrap : 2 ^ 32 ∈ List.range' 0 keys.length := List.mem_range'_1.2 ⟨by omega, by omega⟩
    exact absurd (List.inj_on_of_nodup_map h h0 hwrap (by decide)) (by decide)
  · intro h
    refine List.Nodup.map_on (fun i hi j hj heq => ?_) List.nodup_range'
    have hi := (List.mem_range'_1.1 hi).2
    have hj := (List.mem_range'_1.1 hj).2
    have heq := congrArg UInt32.toNat heq
    rw [UInt32.toNat_ofNat', UInt32.toNat_ofNat'] at heq
    omega

/-- Signatures verify where the committee has the signers at their positions. -/
lemma valid_signLoop_iff (hH : H.Lawful) {data : H.Data} {committee : List H.VerifyingKey}
    {rng : H.Rng} {idx : ℕ} {keys : List H.SigningKey} (hidx : idx + keys.length ≤ 2 ^ 32) :
    (∀ s ∈ signLoop data rng idx keys, ∃ vk, committee[s.1.toNat]? = some vk ∧
      H.verify vk data s.2 = true) ↔ keys.map H.verifyingKey <+: committee.drop idx := by
  induction keys generalizing rng idx with
  | nil => simp [signLoop]
  | cons key keys ih =>
    rw [List.length_cons] at hidx
    have htoNat : (UInt32.ofNat idx).toNat = idx := by
      rw [UInt32.toNat_ofNat']
      exact Nat.mod_eq_of_lt (by omega)
    rw [signLoop, List.forall_mem_cons, ih (by omega), List.map_cons]
    dsimp only
    simp only [htoNat, hH rng key data]
    rcases Nat.lt_or_ge idx committee.length with hlt | hge
    · rw [List.drop_eq_getElem_cons hlt, List.cons_prefix_cons, List.getElem?_eq_getElem hlt]
      simp [eq_comm]
    · rw [List.getElem?_eq_none hge, List.drop_eq_nil_of_le hge]
      simp

/-- An update that the builder makes passes the ledger's check exactly if the keys that sign are
the first members of the committee, in their order. -/
theorem accepts_build_iff (hH : H.Lawful)
    (dataToSign : H.ContractAddress → List (SingleUpdate H) → UInt32 → H.Data) (rng : H.Rng)
    (b : MaintenanceBuilder H) (authority : Authority H)
    (hcheck : checkCommittee ((b.signingCommittee authority).map H.verifyingKey) authority =
      .ok ()) (updates : List (UpdateInfo H)) :
    authority.Accepts dataToSign
        (MaintenanceUpdateInfo.build dataToSign rng
          ⟨b.contractAddress, b.signingCommittee authority, updates, b.counter⟩) ↔
      (b.signingCommittee authority).map H.verifyingKey <+: authority.committee ∧
        (b.signingCommittee authority).length ≤ 2 ^ 32 := by
  have henough : authority.threshold.toNat ≤ (b.signingCommittee authority).length := by
    rw [checkCommittee] at hcheck
    split at hcheck
    · exact absurd hcheck (by simp)
    · split at hcheck
      · exact absurd hcheck (by simp)
      · rename_i hlength
        rwa [List.length_map, Nat.not_lt] at hlength
  constructor
  · intro h
    have hlength := nodup_map_fst_signLoop.1 h.distinct
    have hkeys := (valid_signLoop_iff hH (by rwa [Nat.zero_add])).1 h.valid
    exact ⟨by rwa [List.drop_zero] at hkeys, hlength⟩
  · rintro ⟨hkeys, hlength⟩
    refine ⟨nodup_map_fst_signLoop.2 hlength, ?_, ?_⟩
    · exact (valid_signLoop_iff hH (by rwa [Nat.zero_add])).2 (by rwa [List.drop_zero])
    · rw [MaintenanceUpdateInfo.build, length_signLoop]
      exact henough

/-- A small host: a key signs with its own number, and a path is the name of a verifier file
together with its contents. -/
@[reducible] def smallHost : MaintenanceHost where
  SigningKey := ℕ
  VerifyingKey := ℕ
  Signature := ℕ × ℕ
  Rng := Unit
  Data := ℕ
  ContractAddress := ℕ
  VerifierKey := List UInt8
  Path := List UInt8 × List UInt8
  IoError := Unit
  verifyingKey := id
  sign rng sk data := ((sk, data), rng)
  verify vk data signature := signature == (vk, data)
  extension _ := some verifierExtension
  fileStem p := some p.1
  read p := .ok p.2
  deserialize := .ok

lemma smallHost_lawful : smallHost.Lawful := by
  intro rng sk data vk
  change ((sk, data) == (vk, data)) = true ↔ vk = sk
  rw [beq_iff_eq, Prod.mk.injEq]
  exact ⟨fun h => h.1.symm, fun h => ⟨h.symm, rfl⟩⟩

/-- What is signed, of an update on the small host. -/
def smallData (address : ℕ) (updates : List (SingleUpdate smallHost)) (counter : UInt32) : ℕ :=
  address + updates.length + counter.toNat

/-- A builder on the small host that provides keys and changes entry points. -/
def smallBuilder (keys : List ℕ) (fundingKey : ℕ) (upserts : List (List UInt8 × List UInt8))
    (removes : List EntryPoint) : MaintenanceBuilder smallHost :=
  ⟨keys, [], upserts, removes, none, 5, fundingKey, 9⟩

/-- An authority on the small host. -/
def smallAuthority (committee : List ℕ) (threshold : UInt32) : Authority smallHost :=
  ⟨committee, threshold, 5⟩

/-- The update on the small host that a builder makes for an authority. -/
def smallUpdate (b : MaintenanceBuilder smallHost) (authority : Authority smallHost) :
    MaintenanceUpdate smallHost :=
  MaintenanceUpdateInfo.build smallData ()
    ⟨b.contractAddress, b.signingCommittee authority, [], b.counter⟩

/-- The second of two members signs alone, at the index of the first. -/
theorem not_accepts_second_member :
    let b := smallBuilder [2] 7 [] []
    let authority := smallAuthority [1, 2] 1
    checkCommittee ((b.signingCommittee authority).map smallHost.verifyingKey) authority =
        .ok () ∧
      ¬ authority.Accepts smallData (smallUpdate b authority) := by
  refine ⟨rfl, fun h => ?_⟩
  obtain ⟨vk, hvk, hverify⟩ := h.valid (0, (2, 14)) List.mem_cons_self
  obtain rfl : 1 = vk := Option.some.inj hvk
  exact absurd hverify (by decide)

/-- The first member signs, and the second one, whose key is the funding key. -/
theorem accepts_first_members :
    (smallAuthority [1, 2, 3] 2).Accepts smallData
      (smallUpdate (smallBuilder [1] 2 [] []) (smallAuthority [1, 2, 3] 2)) :=
  (accepts_build_iff smallHost_lawful smallData () (smallBuilder [1] 2 [] [])
    (smallAuthority [1, 2, 3] 2) rfl []).2 ⟨by decide, by decide⟩

/-! ### Updates of entry points -/

namespace MaintenanceBuilder

/-- The loop over the paths succeeds exactly if every path can be loaded.  Then it appends what is
to be inserted, and to what is to be removed those of them that exist. -/
lemma upsertLoop_eq_ok {operations : EntryPoint → Option H.VerifierKey}
    {toRemove : List EntryPoint} {toInsert : List (EntryPoint × H.VerifierKey)}
    {paths : List H.Path} {r : List EntryPoint × List (EntryPoint × H.VerifierKey)}
    (h : upsertLoop operations toRemove toInsert paths = .ok r) :
    ∃ upserts, paths.mapM loadUpsert = .ok upserts ∧
      r = (toRemove ++ (upserts.map Prod.fst).filter (fun e => (operations e).isSome),
        toInsert ++ upserts) := by
  induction paths generalizing toRemove toInsert with
  | nil =>
    obtain rfl := Except.ok.inj h
    exact ⟨[], rfl, by simp⟩
  | cons p paths ih =>
    obtain ⟨⟨entrypoint, key⟩, hload, h⟩ := bind_eq_ok.1 h
    obtain ⟨upserts, hupserts, rfl⟩ := ih h
    refine ⟨(entrypoint, key) :: upserts, ?_, ?_⟩
    · rw [List.mapM_cons, hload, hupserts]
      rfl
    · cases hexists : (operations entrypoint).isSome with
      | true => simp [hexists]
      | false => simp [hexists]

/-- What is known when the builder returns no error. -/
lemma buildTxsFrom_eq_ok {b : MaintenanceBuilder H} {contractState : ContractState H}
    {info : MaintenanceUpdateInfo H} (h : b.buildTxsFrom (some contractState) = .ok info) :
    (∀ e ∈ b.removeEntrypoints, (contractState.operations e).isSome) ∧
    ∃ upserts, b.upsertEntrypoints.mapM loadUpsert = .ok upserts ∧
      info.updates = b.createUpdates (b.removeEntrypoints ++
        (upserts.map Prod.fst).filter fun e => (contractState.operations e).isSome) upserts := by
  obtain ⟨_, -, h⟩ := bind_eq_ok.1 h
  dsimp only at h
  split at h
  · exact absurd h (by simp)
  · rename_i hfind
    obtain ⟨⟨toRemove, toInsert⟩, hloop, h⟩ := bind_eq_ok.1 h
    dsimp only at h
    split at h
    · exact absurd h (by simp)
    · obtain ⟨upserts, hupserts, hr⟩ := upsertLoop_eq_ok hloop
      obtain ⟨hremove, hinsert⟩ := Prod.mk.inj hr
      obtain rfl := Except.ok.inj h
      refine ⟨fun e he => ?_, upserts, hupserts, by rw [hremove, hinsert, List.nil_append]⟩
      have hfound := List.find?_eq_none.1 hfind e he
      rw [Option.isNone_iff_eq_none] at hfound
      exact Option.isSome_iff_ne_none.2 hfound

end MaintenanceBuilder

/-- A table of entry points is what was asked for: each upserted entry point has the key of its
last occurrence, the other removed ones are gone, and the rest is as before. -/
structure AsAsked (operations : EntryPoint → Option H.VerifierKey) (removes : List EntryPoint)
    (upserts : List (EntryPoint × H.VerifierKey)) (result : EntryPoint → Option H.VerifierKey) :
    Prop where
  upserted : ∀ e key, upserts.reverse.lookup e = some key → result e = some key
  removed : ∀ e ∈ removes, e ∉ upserts.map Prod.fst → result e = none
  other : ∀ e, e ∉ removes → e ∉ upserts.map Prod.fst → result e = operations e

/-- The ledger applies the updates of the builder: first what is removed, then what is
inserted. -/
lemma replay_createUpdates (b : MaintenanceBuilder H)
    (operations : EntryPoint → Option H.VerifierKey) (toRemove : List EntryPoint)
    (toInsert : List (EntryPoint × H.VerifierKey)) :
    replay SingleUpdate.apply operations
        ((b.createUpdates toRemove toInsert).map UpdateInfo.toSingleUpdate) =
      (replay change operations (toRemove.map fun e => (e, none))).bind fun t =>
        replay change t (toInsert.map fun e => (e.1, some e.2)) := by
  have hlast : ∀ t, replay SingleUpdate.apply t
      ((if b.newCommittee.length > 0 then
        [UpdateInfo.replaceAuthority ⟨b.newCommittee,
          b.threshold.getD (UInt32.ofNat b.newCommittee.length), b.counter + 1⟩]
      else []).map UpdateInfo.toSingleUpdate) = some t := by
    intro t
    split <;> rfl
  rw [MaintenanceBuilder.createUpdates, List.map_append, List.map_append, List.map_map,
    List.map_map, replay_append, replay_append]
  simp only [hlast, Option.bind_fun_some, replay_map]
  rfl

/-- The updates can be applied exactly if no entry point is removed twice or inserted twice: what
is inserted does not exist, or has just been removed. -/
lemma replay_removes_inserts_iff {operations result : EntryPoint → Option H.VerifierKey}
    {removes : List EntryPoint} {upserts : List (EntryPoint × H.VerifierKey)}
    (hexist : ∀ e ∈ removes, (operations e).isSome) :
    ((replay change operations ((removes ++
          (upserts.map Prod.fst).filter fun e => (operations e).isSome).map
        fun e => (e, none))).bind fun t =>
      replay change t (upserts.map fun e => (e.1, some e.2))) = some result ↔
    (removes ++ (upserts.map Prod.fst).filter fun e => (operations e).isSome).Nodup ∧
      (upserts.map Prod.fst).Nodup ∧
      result = fun e => (upserts.reverse.lookup e).or
        (if e ∈ removes ++ (upserts.map Prod.fst).filter fun e => (operations e).isSome then none
          else operations e) := by
  generalize htoRemove :
    removes ++ (upserts.map Prod.fst).filter (fun e => (operations e).isSome) = toRemove
  have hpossible : ∀ e ∈ toRemove, (operations e).isSome ≠ false := by
    intro e he
    rw [← htoRemove, List.mem_append, List.mem_filter] at he
    rw [ne_eq, Bool.not_eq_false]
    exact he.elim (hexist e) fun h => h.2
  have hremoved : ∀ e ∈ upserts.map Prod.fst,
      ((if e ∈ toRemove then none else operations e) : Option H.VerifierKey).isSome ≠ true := by
    intro e he
    split
    · simp
    · rename_i hnotMem
      rw [← htoRemove, List.mem_append, List.mem_filter] at hnotMem
      exact fun hsome => hnotMem (.inr ⟨he, hsome⟩)
  have hremove : ∀ c ∈ toRemove.map (fun e => ((e, none) : EntryPoint × Option H.VerifierKey)),
      c.2.isSome = false := by
    simp
  have hinsert : ∀ c ∈ upserts.map (fun e => (e.1, some e.2)), c.2.isSome = true := by
    intro c hc
    obtain ⟨e, -, rfl⟩ := List.mem_map.1 hc
    rfl
  have hkeys : (toRemove.map (fun e => ((e, none) : EntryPoint × Option H.VerifierKey))).map
      Prod.fst = toRemove := by
    rw [List.map_map]
    exact List.map_id _
  have hkeys' : (upserts.map (fun e => (e.1, some e.2))).map Prod.fst = upserts.map Prod.fst := by
    rw [List.map_map]
    rfl
  rw [Option.bind_eq_some_iff]
  simp only [replay_change_iff hremove, replay_change_iff hinsert, hkeys, hkeys']
  constructor
  · rintro ⟨t, ⟨hnodup, -, rfl⟩, hnodup', -, rfl⟩
    refine ⟨hnodup, hnodup', ?_⟩
    funext e
    rw [changed_inserts, changed_removes]
  · rintro ⟨hnodup, hnodup', rfl⟩
    refine ⟨_, ⟨hnodup, hpossible, rfl⟩, hnodup', ?_, ?_⟩
    · intro e he
      rw [changed_removes]
      exact hremoved e he
    · funext e
      rw [changed_inserts, changed_removes]

/-- An entry point is removed twice exactly if it is listed twice or also upserted. -/
lemma nodup_toRemove_iff {operations : EntryPoint → Option H.VerifierKey}
    {removes upserted : List EntryPoint} (hexist : ∀ e ∈ removes, (operations e).isSome)
    (hupserted : upserted.Nodup) :
    (removes ++ upserted.filter fun e => (operations e).isSome).Nodup ↔
      removes.Nodup ∧ removes.Disjoint upserted := by
  rw [List.nodup_append']
  constructor
  · rintro ⟨hremoves, -, hdisjoint⟩
    refine ⟨hremoves, fun e he he' => ?_⟩
    exact hdisjoint he (List.mem_filter.2 ⟨he', hexist e he⟩)
  · rintro ⟨hremoves, hdisjoint⟩
    exact ⟨hremoves, hupserted.filter _, fun e he he' => hdisjoint he (List.mem_of_mem_filter he')⟩

/-- The updates of a builder that returns no error can be applied and do what was asked exactly if
no entry point is listed twice for removal, none is upserted twice and none is both removed and
upserted. -/
theorem updates_asAsked_iff
    (dataToSign : H.ContractAddress → List (SingleUpdate H) → UInt32 → H.Data) (rng : H.Rng)
    (b : MaintenanceBuilder H) (contractState : ContractState H)
    (info : MaintenanceUpdateInfo H) (h : b.buildTxsFrom (some contractState) = .ok info) :
    ∃ upserts, b.upsertEntrypoints.mapM MaintenanceBuilder.loadUpsert = .ok upserts ∧
      ((∃ result, replay SingleUpdate.apply contractState.operations
          (info.build dataToSign rng).updates = some result ∧
          AsAsked contractState.operations b.removeEntrypoints upserts result) ↔
        b.removeEntrypoints.Nodup ∧ (upserts.map Prod.fst).Nodup ∧
          b.removeEntrypoints.Disjoint (upserts.map Prod.fst)) := by
  obtain ⟨hexist, upserts, hupserts, hupdates⟩ := MaintenanceBuilder.buildTxsFrom_eq_ok h
  refine ⟨upserts, hupserts, ?_⟩
  rw [MaintenanceUpdateInfo.build]
  dsimp only
  rw [hupdates, replay_createUpdates]
  simp only [replay_removes_inserts_iff hexist]
  constructor
  · rintro ⟨result, ⟨hnodup, hnodup', -⟩, -⟩
    obtain ⟨hremoves, hdisjoint⟩ := (nodup_toRemove_iff hexist hnodup').1 hnodup
    exact ⟨hremoves, hnodup', hdisjoint⟩
  · rintro ⟨hremoves, hnodup', hdisjoint⟩
    refine ⟨_, ⟨(nodup_toRemove_iff hexist hnodup').2 ⟨hremoves, hdisjoint⟩, hnodup', rfl⟩, ?_⟩
    have hlookup : ∀ e, e ∉ upserts.map Prod.fst → upserts.reverse.lookup e = none := by
      intro e hupserted
      rw [List.lookup_eq_none_iff]
      intro p hp
      rw [bne_iff_ne]
      rintro rfl
      exact hupserted (List.mem_map_of_mem (List.mem_reverse.1 hp))
    constructor
    · intro e key hkey
      rw [hkey, Option.some_or]
    · intro e he hupserted
      rw [hlookup e hupserted, Option.none_or, if_pos (List.mem_append_left _ he)]
    · intro e he hupserted
      rw [hlookup e hupserted, Option.none_or, if_neg]
      rw [List.mem_append, List.mem_filter, not_or]
      exact ⟨he, fun h => hupserted h.1⟩

/-- A contract on the small host with two entry points and one member. -/
def smallContract : ContractState smallHost where
  operations e := if e = ⟨[1]⟩ then some [10] else if e = ⟨[2]⟩ then some [20] else none
  maintenanceAuthority := ⟨[1], 1, 5⟩

/-- An entry point that is removed and upserted is removed twice. -/
theorem not_applied_remove_and_upsert :
    ∃ info, (smallBuilder [1] 1 [([1], [11])] [⟨[1]⟩]).buildTxsFrom (some smallContract) =
        .ok info ∧
      replay SingleUpdate.apply smallContract.operations (info.build smallData ()).updates =
        none :=
  ⟨⟨9, [1], [.verifierKeyRemove ⟨[1]⟩, .verifierKeyRemove ⟨[1]⟩, .verifierKeyInsert ⟨[1]⟩ [11]], 5⟩,
    rfl, rfl⟩

/-- One entry point is removed, one replaced and one added. -/
theorem asAsked_remove_replace_add :
    let b := smallBuilder [1] 1 [([2], [21]), ([3], [30])] [⟨[1]⟩]
    ∃ info result, b.buildTxsFrom (some smallContract) = .ok info ∧
      replay SingleUpdate.apply smallContract.operations (info.build smallData ()).updates =
        some result ∧
      AsAsked smallContract.operations [⟨[1]⟩] [(⟨[2]⟩, [21]), (⟨[3]⟩, [30])] result := by
  intro b
  let info : MaintenanceUpdateInfo smallHost :=
    ⟨9, [1], [.verifierKeyRemove ⟨[1]⟩, .verifierKeyRemove ⟨[2]⟩, .verifierKeyInsert ⟨[2]⟩ [21],
      .verifierKeyInsert ⟨[3]⟩ [30]], 5⟩
  obtain ⟨upserts, hupserts, hiff⟩ := updates_asAsked_iff smallData () b smallContract info rfl
  obtain rfl : [((⟨[2]⟩ : EntryPoint), [(21 : UInt8)]), (⟨[3]⟩, [30])] = upserts :=
    Except.ok.inj hupserts
  have hdisjoint : b.removeEntrypoints.Disjoint [⟨[2]⟩, ⟨[3]⟩] := by
    intro e he he'
    obtain rfl := List.mem_singleton.1 he
    exact absurd he' (by decide)
  obtain ⟨result, hresult, hasked⟩ := hiff.2 ⟨by decide, by decide, hdisjoint⟩
  exact ⟨info, result, rfl, hresult, hasked⟩

end MidnightNode.Toolkit
