/-
# The cNIGHT genesis

`generate_cnight_genesis` collects the UTXOs observed up to a tip, drops those of owners that
never register, and has an empty pallet process the rest in one call of `process_tokens` on a
runtime that captures the system transaction.  What the pallet stores then is loaded by the
genesis build of the chain.

A chain that starts from this genesis is in the state in which processing the same history on
chain, in whatever blocks, would have left it.  The call in between has the block limit of
`process_tokens`, so that a history may be too long for a genesis.
-/
import MidnightNode.Cnight.DustEvents

namespace MidnightNode.Cnight

open StorageLayer MidnightNode.Frame

/-! ### Generating -/

/-- `DEFAULT_CARDANO_TX_CAPACITY_PER_BLOCK`. -/
def defaultCardanoTxCapacityPerBlock : UInt32 := 200

/-- `UTXO_CAPACITY` of the generator. -/
def genesisUtxoCapacity : ℕ := 1000

/-- The runtime `mock_with_capture`: its executor accepts every system transaction and keeps
it in `CAPTURED_SYSTEM_TXS`.  The hash and the ledger bridge are those of the node. -/
def mockWithCapture (T : PalletConfig) : PalletConfig :=
  { T with
    Ledger := List (List UInt8)
    LedgerHash := BitVec 256
    executeSystemTransaction := fun captured tx => .ok (captured ++ [tx], 0) }

/-- The storage of a pallet that nothing was loaded into. -/
def emptyStorage (T : PalletConfig) (ledger : T.Ledger) : PalletState T where
  mappings := fun _ => none
  utxoOwners := fun _ => none
  nextCardanoPosition := ⟨0, 0, 0, 0⟩
  cardanoTxCapacityPerBlock := defaultCardanoTxCapacityPerBlock
  inherentExecutedThisBlock := false
  events := []
  ledger := ledger

/-- What the generator reads from the storage after its call. -/
structure PalletExecResult (H : Type) where
  mappings : CardanoRewardAddressBytes → Option (List MappingEntry)
  utxoOwners : H → Option DustPublicKeyBytes
  nextCardanoPosition : CardanoPosition
  /-- The last system transaction captured. -/
  systemTx : Option (List UInt8)

/-- `exec_pallet`: one call of `process_tokens` on the mock runtime.  `none` is the panic of
the assertion that the call is accepted. -/
def execPallet (T : PalletConfig) (utxos : ObservedUtxos) : Option (PalletExecResult T.Hash) :=
  match executeProcessTokens .none utxos.utxos utxos.end
      (emptyStorage (mockWithCapture T) []) with
  | (s, .ok _) => some ⟨s.mappings, s.utxoOwners, s.nextCardanoPosition, s.ledger.getLast?⟩
  | (_, .error _) => none

/-- The address that a registration or its removal is about. -/
def ObservedUtxo.registers (u : ObservedUtxo) : Option CardanoRewardAddressBytes :=
  match u.data with
  | .registration data => some data.cardanoRewardAddress
  | .deregistration data => some data.cardanoRewardAddress
  | _ => none

/-- `registered_addresses`. -/
def registeredAddresses (allUtxos : List ObservedUtxo) : List CardanoRewardAddressBytes :=
  allUtxos.filterMap ObservedUtxo.registers

/-- Whether a UTXO is retained, given the registered addresses. -/
def ObservedUtxo.isRetained (registered : List CardanoRewardAddressBytes) (u : ObservedUtxo) :
    Bool :=
  match u.data with
  | .registration _ => true
  | .deregistration _ => true
  | .assetCreate data => data.owner ∈ registered
  | .assetSpend data => data.owner ∈ registered

/-- `all_utxos.retain`: new and spent UTXOs whose owner occurs in no registration or
deregistration are dropped. -/
def retainRegistered (allUtxos : List ObservedUtxo) : List ObservedUtxo :=
  allUtxos.filter (ObservedUtxo.isRetained (registeredAddresses allUtxos))

/-- The genesis configuration of the pallet. -/
structure CNightGenesis (H : Type) extends PalletExecResult H where
  addresses : CNightAddresses
  observedUtxos : ObservedUtxos

/-- The second half of `generate_cnight_genesis`, from the collected UTXOs and the position
reached. -/
def genesisOf (T : PalletConfig) (addresses : CNightAddresses) (currentPosition : CardanoPosition)
    (allUtxos : List ObservedUtxo) : Option (CNightGenesis T.Hash) :=
  let observedUtxos : ObservedUtxos :=
    ⟨⟨0, 0, 0, 0⟩, currentPosition, retainRegistered allUtxos⟩
  (execPallet T observedUtxos).map fun result => ⟨result, addresses, observedUtxos⟩

/-- Why no genesis is generated. -/
inductive GenesisFailure (ε : Type)
  /-- `UtxoQueryError`. -/
  | utxoQueryError (e : ε)
  /-- The assertion in `exec_pallet` fails. -/
  | panic

/-- `generate_cnight_genesis`, up to the file it writes.  `none` is a loop that has not ended
after `fuel` calls of the data source. -/
def generateCNightGenesis {ε : Type} (T : PalletConfig) (addresses : CNightAddresses)
    (source : CardanoPosition → Except ε ObservedUtxos) (cardanoTip : McBlockHash) (fuel : ℕ) :
    Option (Except (GenesisFailure ε) (CNightGenesis T.Hash)) :=
  (fetchUtxos source cardanoTip fuel firstPosition []).map fun fetched =>
    match fetched with
    | .error e => .error (.utxoQueryError e)
    | .ok (currentPosition, allUtxos) =>
      match genesisOf T addresses currentPosition allUtxos with
      | none => .error .panic
      | some genesis => .ok genesis

/-- `GenesisConfig::build`, for what `process_tokens` reads. -/
def buildGenesis {T : PalletConfig} (config : CNightGenesis T.Hash) (s : PalletState T) :
    PalletState T :=
  { s with
    mappings := fun k => (config.mappings k).or (s.mappings k)
    utxoOwners := fun k => (config.utxoOwners k).or (s.utxoOwners k)
    nextCardanoPosition := config.nextCardanoPosition }

/-! ### The call of the generator -/

variable {T : PalletConfig}

/-- The book of a pallet that nothing was loaded into. -/
def Book.empty (H : Type) : Book H :=
  ⟨fun _ => none, fun _ => none⟩

/-- The mock runtime takes the steps of the node's runtime and asks for the same events. -/
lemma Book.step_mock (b : Book T.Hash) (u : ObservedUtxo) :
    Book.step (mockWithCapture T) b u = b.step T u := by
  obtain ⟨header, _ | _ | data | _⟩ := u
  · rfl
  · rfl
  · have hmock : Book.getRegistration (H := (mockWithCapture T).Hash) b data.owner =
        b.getRegistration data.owner := rfl
    simp only [step, request, hmock]
    cases b.getRegistration data.owner <;> rfl
  · rfl

lemma Book.run_mock (b : Book T.Hash) (us : List ObservedUtxo) :
    Book.run (mockWithCapture T) b us = b.run T us := by
  induction us generalizing b with
  | nil => rfl
  | cons u us ih =>
    have hstep := Book.step_mock b u
    exact (congrArg (fun b' => Book.run (mockWithCapture T) b' us) hstep).trans (ih _)

lemma Book.requests_mock (b : Book T.Hash) (us : List ObservedUtxo) :
    Book.requests (mockWithCapture T) b us = b.requests T us := by
  induction us generalizing b with
  | nil => rfl
  | cons u us ih =>
    have hstep := Book.step_mock b u
    have hrequest : Book.request (mockWithCapture T) b u = b.request T u := by
      obtain ⟨header, _ | _ | _ | _⟩ := u <;> rfl
    have htail : Book.requests (mockWithCapture T) (Book.step (mockWithCapture T) b u) us =
        (b.step T u).requests T us :=
      (congrArg (fun b' => Book.requests (mockWithCapture T) b' us) hstep).trans (ih _)
    exact congrArg₂ (fun r rs => Option.toList r ++ rs) hrequest htail

/-- The number of UTXOs that a block accepts by default. -/
lemma maxUtxoCount_of_default {s : PalletState T}
    (h : s.cardanoTxCapacityPerBlock = defaultCardanoTxCapacityPerBlock) :
    maxUtxoCount s = 200 * 64 := by
  rw [maxUtxoCount, h]
  rfl

/-- Positions start at the first one. -/
lemma firstPosition_le (p : CardanoPosition) : (⟨0, 0, 0, 0⟩ : CardanoPosition) ≤ p := by
  rw [CardanoPosition.le_iff_key, CardanoPosition.key, CardanoPosition.key, Prod.Lex.le_iff]
  simp only [ofLex_toLex]
  omega

/-- The call of the generator is accepted if its UTXOs are no more than a block accepts. -/
lemma admissible_mock_iff (us : List ObservedUtxo) (next : CardanoPosition) :
    Admissible .none us next (emptyStorage (mockWithCapture T) []) ↔
      us.length % 2 ^ 32 ≤ 200 * 64 := by
  have hmax : maxUtxoCount (emptyStorage (mockWithCapture T) []) = 200 * 64 :=
    maxUtxoCount_of_default rfl
  constructor
  · intro h
    rw [← hmax]
    exact h.count
  · intro h
    refine ⟨rfl, ?_, rfl, firstPosition_le _, fun tx _ => ⟨_, rfl⟩⟩
    rw [hmax]
    exact h

lemma execPallet_eq_none {utxos : ObservedUtxos}
    (h : ¬ utxos.utxos.length % 2 ^ 32 ≤ 200 * 64) : execPallet T utxos = none := by
  obtain ⟨e, he⟩ := executeProcessTokens_of_not_admissible
    (mt (admissible_mock_iff (T := T) utxos.utxos utxos.end).1 h)
  rw [execPallet, he]

/-- What the generator reads is the book of its UTXOs and the system transaction for the
events they ask for. -/
lemma execPallet_eq_some {utxos : ObservedUtxos}
    (h : utxos.utxos.length % 2 ^ 32 ≤ 200 * 64) :
    execPallet T utxos = some
      ⟨((Book.empty T.Hash).run T utxos.utxos).mappings,
        ((Book.empty T.Hash).run T utxos.utxos).utxoOwners, utxos.end,
        systemTx T ((Book.empty T.Hash).requests T utxos.utxos)⟩ := by
  obtain ⟨s', info, hs', hacc⟩ := executeProcessTokens_of_admissible
    ((admissible_mock_iff (T := T) utxos.utxos utxos.end).2 h)
  have hbook : s'.book = (Book.empty T.Hash).run T utxos.utxos :=
    hacc.book.trans (Book.run_mock _ _)
  have hledger : s'.ledger.getLast? =
      systemTx T ((Book.empty T.Hash).requests T utxos.utxos) := by
    have hacc := hacc.ledger
    have htx : systemTx (mockWithCapture T) (Book.requests (mockWithCapture T)
        (emptyStorage (mockWithCapture T) []).book utxos.utxos) =
        systemTx T ((Book.empty T.Hash).requests T utxos.utxos) :=
      congrArg (systemTx (mockWithCapture T)) (Book.requests_mock _ _)
    rw [htx] at hacc
    cases hcase : systemTx T ((Book.empty T.Hash).requests T utxos.utxos) with
    | none =>
      rw [hcase] at hacc
      rw [show s'.ledger = [] from hacc]
      rfl
    | some tx =>
      rw [hcase] at hacc
      obtain ⟨hash, hexec⟩ := hacc
      rw [show s'.ledger = [tx] from (congrArg Prod.fst (Except.ok.inj hexec)).symm]
      rfl
  rw [execPallet, hs']
  refine congrArg some ?_
  rw [← hbook, ← hledger, ← hacc.position]
  rfl

/-! ### Dropping the UTXOs of owners that never register -/

/-- The spend of a UTXO names the same owner as its creation. -/
def SpendsKeepOwner (us : List ObservedUtxo) : Prop :=
  ∀ u ∈ us, ∀ v ∈ us, ∀ c d, u.data = .assetCreate c → v.data = .assetSpend d →
    (c.utxoTxHash, c.utxoTxIndex) = (d.utxoTxHash, d.utxoTxIndex) → c.owner = d.owner

variable (T) in
/-- Only registered addresses have mappings, and only UTXOs of theirs generate DUST. -/
structure Book.Confined (us : List ObservedUtxo) (b : Book T.Hash) : Prop where
  mappings : ∀ a ∉ registeredAddresses us, b.getMappings a = []
  owners : ∀ n, b.utxoOwners n ≠ none → ∃ u ∈ us, ∃ c, u.data = .assetCreate c ∧
    c.owner ∈ registeredAddresses us ∧ nonceOf T (c.utxoTxHash, c.utxoTxIndex) = n

namespace Book

variable {us : List ObservedUtxo} {b : Book T.Hash}

lemma confined_empty : (Book.empty T.Hash).Confined T us :=
  ⟨fun _ _ => rfl, fun _ h => absurd rfl h⟩

lemma Confined.getRegistration_eq_none (h : b.Confined T us) {a : CardanoRewardAddressBytes}
    (ha : a ∉ registeredAddresses us) : b.getRegistration a = none := by
  rw [getRegistration, h.mappings a ha]
  rfl

lemma mem_registeredAddresses {u : ObservedUtxo} (hu : u ∈ us) {a : CardanoRewardAddressBytes}
    (ha : u.registers = some a) : a ∈ registeredAddresses us :=
  List.mem_filterMap.2 ⟨u, hu, ha⟩

lemma ne_of_not_registered {u : ObservedUtxo} (hu : u ∈ us) {a a' : CardanoRewardAddressBytes}
    (ha' : u.registers = some a') (ha : a ∉ registeredAddresses us) : a ≠ a' := by
  rintro rfl
  exact ha (mem_registeredAddresses hu ha')

/-- A new UTXO is noted only if its owner is registered. -/
lemma step_assetCreate_cases (b : Book T.Hash) (header : ObservedUtxoHeader) (data : CreateData) :
    b.step T ⟨header, .assetCreate data⟩ = b ∨
      ∃ key, b.getRegistration data.owner = some key ∧
        b.step T ⟨header, .assetCreate data⟩ =
          b.setOwner (nonceOf T (data.utxoTxHash, data.utxoTxIndex)) (some key) := by
  simp only [Book.step, request]
  cases hreg : b.getRegistration data.owner with
  | none => exact Or.inl rfl
  | some key =>
    simp only [Option.map_some]
    split
    · exact Or.inr ⟨key, rfl, rfl⟩
    · exact Or.inl rfl

/-- A step of the history keeps the book confined. -/
lemma Confined.step (h : b.Confined T us) {u : ObservedUtxo} (hu : u ∈ us) :
    (b.step T u).Confined T us := by
  obtain ⟨header, data | data | data | data⟩ := u
  · refine ⟨fun a ha => ?_, h.owners⟩
    have hne : a ≠ data.cardanoRewardAddress := ne_of_not_registered hu rfl ha
    rw [step_registration_getMappings, if_neg hne, h.mappings a ha]
  · refine ⟨fun a ha => ?_, h.owners⟩
    have hne : a ≠ data.cardanoRewardAddress := ne_of_not_registered hu rfl ha
    rw [step_deregistration_getMappings, if_neg hne, h.mappings a ha]
  · rcases step_assetCreate_cases b header data with hsame | ⟨key, hkey, hset⟩
    · rwa [hsame]
    · rw [hset]
      refine ⟨h.mappings, fun n hn => ?_⟩
      by_cases hnonce : nonceOf T (data.utxoTxHash, data.utxoTxIndex) = n
      · -- Its owner is registered, hence occurs in the history.
        refine ⟨_, hu, data, rfl, ?_, hnonce⟩
        by_contra howner
        rw [h.getRegistration_eq_none howner] at hkey
        exact absurd hkey (by simp)
      · rw [setOwner_utxoOwners, Function.update_of_ne (Ne.symm hnonce)] at hn
        exact h.owners n hn
  · refine ⟨h.mappings, fun n hn => h.owners n (fun hnone => hn ?_)⟩
    by_cases hnonce : n = assetCreateNonce T data.utxoTxHash data.utxoTxIndex
    · rw [hnonce]
      exact Function.update_self _ _ _
    · exact (Function.update_of_ne hnonce _ _).trans hnone

/-- A UTXO that is dropped would change nothing. -/
lemma Confined.inert (h : b.Confined T us) (hinj : Function.Injective T.hash)
    (hkeep : SpendsKeepOwner us) {u : ObservedUtxo} (hu : u ∈ us)
    (hdrop : u.isRetained (registeredAddresses us) = false) :
    b.step T u = b ∧ b.request T u = none := by
  obtain ⟨header, data | data | data | data⟩ := u
  · exact absurd hdrop (by simp [ObservedUtxo.isRetained])
  · exact absurd hdrop (by simp [ObservedUtxo.isRetained])
  · have howner : data.owner ∉ registeredAddresses us := of_decide_eq_false hdrop
    have hreg := h.getRegistration_eq_none howner
    refine ⟨?_, ?_⟩
    · rcases step_assetCreate_cases b header data with hsame | ⟨key, hkey, -⟩
      · exact hsame
      · rw [hreg] at hkey
        exact absurd hkey (by simp)
    · rw [request]
      exact Option.map_eq_none_iff.2 hreg
  · have howner : data.owner ∉ registeredAddresses us := of_decide_eq_false hdrop
    -- The UTXO does not generate DUST: it would be one of a registered owner.
    have hnone : b.utxoOwners (assetCreateNonce T data.utxoTxHash data.utxoTxIndex) = none := by
      by_contra hsome
      obtain ⟨v, hv, c, hc, hmem, hnonce⟩ := h.owners _ hsome
      have hnonces : nonceOf T (c.utxoTxHash, c.utxoTxIndex) =
          nonceOf T (data.utxoTxHash, data.utxoTxIndex) := hnonce
      have heq := hkeep v hv _ hu c data hc rfl (nonceOf_injective hinj hnonces)
      exact howner (heq ▸ hmem)
    refine ⟨setOwner_of_eq hnone, ?_⟩
    rw [request]
    exact Option.map_eq_none_iff.2 hnone

/-- Processing what is retained leads to the same book and asks for the same events. -/
lemma Confined.run_filter (h : b.Confined T us) (hinj : Function.Injective T.hash)
    (hkeep : SpendsKeepOwner us) (vs : List ObservedUtxo) (hvs : ∀ v ∈ vs, v ∈ us) :
    b.run T (vs.filter (ObservedUtxo.isRetained (registeredAddresses us))) = b.run T vs ∧
      b.requests T (vs.filter (ObservedUtxo.isRetained (registeredAddresses us))) =
        b.requests T vs := by
  induction vs generalizing b with
  | nil => exact ⟨rfl, rfl⟩
  | cons v vs ih =>
    have hv := hvs v List.mem_cons_self
    have hvs' : ∀ w ∈ vs, w ∈ us := fun w hw => hvs w (List.mem_cons_of_mem v hw)
    obtain ⟨hrun, hrequests⟩ := ih (h.step hv) hvs'
    cases hret : v.isRetained (registeredAddresses us) with
    | true =>
      rw [List.filter_cons_of_pos hret, run_cons, run_cons, requests, requests, hrun, hrequests]
      exact ⟨rfl, rfl⟩
    | false =>
      obtain ⟨hstep, hrequest⟩ := h.inert hinj hkeep hv hret
      rw [hstep] at hrun hrequests
      rw [List.filter_cons_of_neg (by simp [hret]), run_cons, requests, hstep, hrequest]
      exact ⟨hrun, hrequests⟩

lemma run_retainRegistered (hinj : Function.Injective T.hash) (hkeep : SpendsKeepOwner us) :
    (Book.empty T.Hash).run T (retainRegistered us) = (Book.empty T.Hash).run T us ∧
      (Book.empty T.Hash).requests T (retainRegistered us) =
        (Book.empty T.Hash).requests T us :=
  confined_empty.run_filter hinj hkeep us (fun _ h => h)

end Book

/-! ### Processing in blocks -/

/-- The UTXOs that one block processes, and the position it reaches. -/
structure Batch where
  utxos : List ObservedUtxo
  nextCardanoPosition : CardanoPosition

/-- The blocks of batches: each is one call of `process_tokens`. -/
def blocks (bs : List Batch) : List Operation :=
  bs.flatMap fun b => [.processTokens .none b.utxos b.nextCardanoPosition, .finalize]

/-- The history that batches split. -/
def batchUtxos (bs : List Batch) : List ObservedUtxo :=
  bs.flatMap Batch.utxos

/-- The position that batches reach. -/
def reachedPosition (p : CardanoPosition) (bs : List Batch) : CardanoPosition :=
  bs.foldl (fun _ b => b.nextCardanoPosition) p

variable (T) in
/-- The system transactions of batches. -/
def batchTxs : Book T.Hash → List Batch → List (List UInt8)
  | _, [] => []
  | book, b :: bs =>
    (systemTx T (book.requests T b.utxos)).toList ++ batchTxs (book.run T b.utxos) bs

variable (T) in
/-- Execute system transactions one after the other. -/
def executeAll (txs : List (List UInt8)) (ledger : T.Ledger) : Except ℕ T.Ledger :=
  txs.foldlM (fun ledger tx => (T.executeSystemTransaction ledger tx).map Prod.fst) ledger

/-- Batches that a pallet can process: each is within the limit of a block, the positions do
not regress, and the ledger executes the system transactions. -/
structure Processable (s : PalletState T) (bs : List Batch) : Prop where
  fresh : s.inherentExecutedThisBlock = false
  count : ∀ b ∈ bs, b.utxos.length % 2 ^ 32 ≤ maxUtxoCount s
  positions : List.IsChain (· ≤ ·) (s.nextCardanoPosition :: bs.map Batch.nextCardanoPosition)
  executes : ∃ ledger, executeAll T (batchTxs T s.book bs) s.ledger = .ok ledger

/-- The system transaction of the first batch is executed before the others. -/
lemma executeAll_cons {tx : Option (List UInt8)} {txs : List (List UInt8)} {l l' : T.Ledger}
    (h : executeAll T (tx.toList ++ txs) l = .ok l') :
    (tx = none ∧ executeAll T txs l = .ok l') ∨
      ∃ tx' l₁ hash, tx = some tx' ∧ T.executeSystemTransaction l tx' = .ok (l₁, hash) ∧
        executeAll T txs l₁ = .ok l' := by
  cases tx with
  | none => exact Or.inl ⟨rfl, h⟩
  | some tx =>
    rw [executeAll, Option.toList_some, List.singleton_append, List.foldlM_cons] at h
    cases hexec : T.executeSystemTransaction l tx with
    | error code =>
      rw [hexec] at h
      exact absurd h (by simp [Except.map, bind, Except.bind])
    | ok r =>
      rw [hexec] at h
      exact Or.inr ⟨tx, r.1, r.2, rfl, hexec, h⟩

/-- A block processes its batch, and the pallet can process the rest. -/
lemma Processable.block {s : PalletState T} {b : Batch} {bs : List Batch}
    (h : Processable s (b :: bs)) :
    ∃ s', (Operation.processTokens .none b.utxos b.nextCardanoPosition).processed s = b.utxos ∧
      Operation.apply .finalize
        ((Operation.processTokens .none b.utxos b.nextCardanoPosition).apply s) = s' ∧
      s'.nextCardanoPosition = b.nextCardanoPosition ∧ Processable s' bs := by
  obtain ⟨hposition, hpositions⟩ := List.isChain_cons_cons.1 h.positions
  obtain ⟨l', hl'⟩ := h.executes
  have hsplit := executeAll_cons hl'
  have hadm : Admissible .none b.utxos b.nextCardanoPosition s := by
    refine ⟨rfl, h.count b List.mem_cons_self, h.fresh, hposition, fun tx htx => ?_⟩
    rcases hsplit with ⟨hnone, -⟩ | ⟨tx', l₁, hash, hsome, hexec, -⟩
    · exact absurd (hnone.symm.trans htx) (by simp)
    · obtain rfl := Option.some.inj (hsome.symm.trans htx)
      exact ⟨_, hexec⟩
  obtain ⟨s', info, hs', hacc⟩ := executeProcessTokens_of_admissible hadm
  simp only [Operation.processed, Operation.apply, hs']
  refine ⟨_, trivial, rfl, hacc.position, rfl, fun c hc => ?_, ?_, l', ?_⟩
  · have hmax : maxUtxoCount (onFinalize s') = maxUtxoCount s := by
      rw [maxUtxoCount, maxUtxoCount, onFinalize, hacc.capacity]
    rw [hmax]
    exact h.count c (List.mem_cons_of_mem b hc)
  · rw [onFinalize, hacc.position]
    exact hpositions
  · have hbook : (onFinalize s').book = s.book.run T b.utxos := hacc.book
    have hledger := hacc.ledger
    rw [hbook]
    rcases hsplit with ⟨hnone, hrest⟩ | ⟨tx, l₁, hash, hsome, hexec, hrest⟩
    · rw [hnone] at hledger
      exact (congrArg _ hledger).trans hrest
    · rw [hsome] at hledger
      obtain ⟨hash', hexec'⟩ := hledger
      have hl₁ : s'.ledger = l₁ := congrArg Prod.fst (Except.ok.inj (hexec'.symm.trans hexec))
      exact (congrArg _ hl₁).trans hrest

/-- Blocks process all their batches. -/
lemma Processable.run_blocks {bs : List Batch} {s : PalletState T} (h : Processable s bs) :
    processed s (blocks bs) = batchUtxos bs ∧
      (run s (blocks bs)).nextCardanoPosition = reachedPosition s.nextCardanoPosition bs := by
  induction bs generalizing s with
  | nil => exact ⟨rfl, rfl⟩
  | cons b bs ih =>
    obtain ⟨s', hprocessed, hs', hposition, hrest⟩ := h.block
    obtain ⟨hutxos, hreached⟩ := ih hrest
    have hblocks : blocks (b :: bs) =
        .processTokens .none b.utxos b.nextCardanoPosition :: .finalize :: blocks bs := rfl
    rw [hblocks, processed, processed, run_cons, run_cons, hs', hprocessed, hutxos, hreached,
      hposition]
    exact ⟨rfl, rfl⟩

/-! ### A chain that starts from the genesis -/

/-- The genesis is generated where a block accepts the retained UTXOs, and holds the book of
the whole history. -/
lemma genesisOf_eq_some (addresses : CNightAddresses) {us : List ObservedUtxo}
    (p : CardanoPosition) (h : (retainRegistered us).length % 2 ^ 32 ≤ 200 * 64)
    (hinj : Function.Injective T.hash) (hkeep : SpendsKeepOwner us) :
    ∃ genesis, genesisOf T addresses p us = some genesis ∧
      (∀ ledger, (buildGenesis genesis (emptyStorage T ledger)).book =
        (Book.empty T.Hash).run T us) ∧
      genesis.nextCardanoPosition = p ∧
      genesis.systemTx = systemTx T ((Book.empty T.Hash).requests T us) := by
  obtain ⟨hrun, hrequests⟩ := Book.run_retainRegistered hinj hkeep
  have hexec : execPallet T ⟨⟨0, 0, 0, 0⟩, p, retainRegistered us⟩ = _ := execPallet_eq_some h
  simp only [hrun, hrequests] at hexec
  refine ⟨_, by rw [genesisOf, hexec]; rfl, fun ledger => ?_, rfl, rfl⟩
  refine Book.ext (funext fun a => ?_) (funext fun n => ?_)
  · exact Option.or_none
  · exact Option.or_none

/-- Two chains that process batches, the first after the system transaction of its genesis, end
with the same storage and the same DUST events. -/
structure SameOutcome (C : TxReader T) (genesisTx : Option (List UInt8)) (s s' : PalletState T)
    (bs bs' : List Batch) : Prop where
  processed : processed s (blocks bs) = batchUtxos bs
  processed' : Cnight.processed s' (blocks bs') = batchUtxos bs'
  mappings : (run s (blocks bs)).mappings = (run s' (blocks bs')).mappings
  utxoOwners : (run s (blocks bs)).utxoOwners = (run s' (blocks bs')).utxoOwners
  position : (run s (blocks bs)).nextCardanoPosition = (run s' (blocks bs')).nextCardanoPosition
  dustEvents : C.eventBytes (genesisTx.toList ++ executedTxs s (blocks bs)) =
    C.eventBytes (executedTxs s' (blocks bs'))

/-- **The genesis equals processing on chain.**  Let a history be split into the part that the
genesis is generated from and batches, and in another way into batches.  The chain that starts
from the genesis and the one that starts empty process everything, and end with the same
mappings, owners and position; and the DUST events, those of the genesis first, are the
same. -/
theorem genesis_eq_processing (C : TxReader T) (hinj : Function.Injective T.hash)
    (addresses : CNightAddresses) (ledger ledger' : T.Ledger) (us : List ObservedUtxo)
    (p : CardanoPosition) (bs bs' : List Batch) (hsplit : us ++ batchUtxos bs = batchUtxos bs')
    (hkeep : SpendsKeepOwner (batchUtxos bs'))
    (hcount : (retainRegistered us).length % 2 ^ 32 ≤ 200 * 64)
    (hreach : reachedPosition p bs = reachedPosition ⟨0, 0, 0, 0⟩ bs') :
    ∃ genesis, genesisOf T addresses p us = some genesis ∧
      (Processable (buildGenesis genesis (emptyStorage T ledger)) bs →
        Processable (emptyStorage T ledger') bs' →
        SameOutcome C genesis.systemTx (buildGenesis genesis (emptyStorage T ledger))
          (emptyStorage T ledger') bs bs') := by
  have hkeep' : SpendsKeepOwner us := fun u hu v hv =>
    hkeep u (hsplit ▸ List.mem_append_left _ hu) v (hsplit ▸ List.mem_append_left _ hv)
  obtain ⟨genesis, hgenesis, hbook, hposition, htx⟩ :=
    genesisOf_eq_some addresses p hcount hinj hkeep'
  refine ⟨genesis, hgenesis, fun hs hs' => ?_⟩
  obtain ⟨hprocessed, hreached⟩ := hs.run_blocks
  obtain ⟨hprocessed', hreached'⟩ := hs'.run_blocks
  have hbooks : (run (buildGenesis genesis (emptyStorage T ledger)) (blocks bs)).book =
      (run (emptyStorage T ledger') (blocks bs')).book := by
    rw [book_run, book_run, hprocessed, hprocessed', hbook, ← Book.run_append, hsplit]
    rfl
  refine ⟨hprocessed, hprocessed', congrArg Book.mappings hbooks,
    congrArg Book.utxoOwners hbooks, ?_, ?_⟩
  · rw [hreached, hreached']
    exact (congrArg (reachedPosition · bs) hposition).trans hreach
  · rw [C.eventBytes_append, C.eventBytes_executedTxs, C.eventBytes_executedTxs, hprocessed,
      hprocessed', hbook, htx, C.eventBytes_systemTx, ← List.filterMap_append,
      ← Book.requests_append, hsplit]
    rfl

lemma executeAll_plain (txs : List (List UInt8)) : executeAll plainPallet txs () = .ok () := by
  induction txs with
  | nil => rfl
  | cons tx txs ih => exact ih

/-- The genesis is generated from the registration and the new UTXO, and the spend is processed
in a block.  The other chain processes everything in two blocks. -/
theorem genesis_eq_processing_plain :
    ∃ genesis, genesisOf plainPallet demoSource.config demoEnd (plainHistory.take 2) =
        some genesis ∧
      SameOutcome plainCodec.toTxReader genesis.systemTx
        (buildGenesis genesis (emptyStorage plainPallet ()))
        (emptyStorage plainPallet ()) [⟨plainHistory.drop 2, demoEnd⟩]
        [⟨plainHistory.take 1, demoEnd⟩, ⟨plainHistory.drop 1, demoEnd⟩] := by
  have hkeep : SpendsKeepOwner plainHistory := by
    intro u hu v hv c d hc hd _
    simp only [plainHistory, List.mem_cons, List.not_mem_nil, or_false] at hu hv
    rcases hu with rfl | rfl | rfl <;> rcases hv with rfl | rfl | rfl <;>
      simp only [reduceCtorEq, ObservedUtxoData.assetCreate.injEq,
        ObservedUtxoData.assetSpend.injEq] at hc hd
    rw [← hc, ← hd]
  obtain ⟨genesis, hgenesis, hsame⟩ := genesis_eq_processing plainCodec.toTxReader
    Function.injective_id demoSource.config () () (plainHistory.take 2) demoEnd
    [⟨plainHistory.drop 2, demoEnd⟩]
    [⟨plainHistory.take 1, demoEnd⟩, ⟨plainHistory.drop 1, demoEnd⟩] rfl hkeep (by decide) rfl
  have hcount : (retainRegistered (plainHistory.take 2)).length % 2 ^ 32 ≤ 200 * 64 := by decide
  obtain ⟨genesis', hgenesis', -, hposition, -⟩ := genesisOf_eq_some (T := plainPallet)
    demoSource.config demoEnd hcount Function.injective_id
    (fun u hu v hv => hkeep u (List.mem_of_mem_take hu) v (List.mem_of_mem_take hv))
  obtain rfl := Option.some.inj (hgenesis'.symm.trans hgenesis)
  refine ⟨genesis', hgenesis, hsame ⟨rfl, ?_, ?_, (), executeAll_plain _⟩
    ⟨rfl, ?_, ?_, (), executeAll_plain _⟩⟩
  · have hmax : maxUtxoCount (buildGenesis genesis' (emptyStorage plainPallet ())) = 200 * 64 :=
      maxUtxoCount_of_default rfl
    rw [hmax]
    decide
  · have hchain : List.IsChain (· ≤ ·) [demoEnd, demoEnd] := by decide
    exact hposition ▸ hchain
  · have hmax : maxUtxoCount (emptyStorage plainPallet ()) = 200 * 64 :=
      maxUtxoCount_of_default rfl
    rw [hmax]
    decide
  · show List.IsChain (· ≤ ·) [(⟨0, 0, 0, 0⟩ : CardanoPosition), demoEnd, demoEnd]
    decide

end MidnightNode.Cnight
