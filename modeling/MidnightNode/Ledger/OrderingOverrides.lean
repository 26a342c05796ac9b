/-
# Syncing old blocks with recorded orders

Nodes used to list the UTXOs of a transaction by a hash map, in an order of segments that differed
from run to run; now the segments are in ascending order.  To sync the old blocks a node needs
their orders: a tool reads them from the events of a synced node and writes a file, and the node
loads the file and reorders the UTXOs of the transactions it finds there.

The events of a block are read by a small state machine: the UTXOs are kept until the event that
names the transaction arrives.  One lemma says what is read from the events of one transaction
(`scan_sendMnTransaction`), one what is read from a block (`scanBlock_eq`).  With the loaded file,
the node reports what was recorded exactly if the tool was run for all the blocks with a
transaction whose order differs.
-/
import MidnightNode.Ledger.Events
import MidnightNode.Ledger.Semantics
import MidnightNode.Ledger.UtxoOrdering
import MidnightNode.Lib.Hex

namespace MidnightNode.Ledger

open ListMap Traverse

open scoped List

variable {L : LedgerTypes}

/-! ### Events -/

/-- The events of the Midnight pallet. -/
inductive MidnightEvent
  | contractCall (txHash : Hash) (contractAddress : List UInt8)
  | contractDeploy (txHash : Hash) (contractAddress : List UInt8)
  | txApplied (txHash : Hash)
  | contractMaintain (txHash : Hash) (contractAddress : List UInt8)
  | payoutMinted (amount : BitVec 128) (receiver : List UInt8)
  | claimRewards (txHash : Hash) (value : BitVec 128)
  | unshieldedTokens (spent created : List UtxoInfo)
  | txPartialSuccess (txHash : Hash)

/-- An event of the runtime. -/
inductive RuntimeEvent
  | midnight (event : MidnightEvent)
  | otherPallet

/-- The events that `send_mn_transaction` deposits for a transaction that was applied. -/
def sendMnTransactionEvents (result : TransactionAppliedStateRoot) : List MidnightEvent :=
  result.callAddresses.map (.contractCall result.txHash) ++
    result.deployAddresses.map (.contractDeploy result.txHash) ++
    result.maintainAddresses.map (.contractMaintain result.txHash) ++
    result.claimRewards.map (.claimRewards result.txHash) ++
    (if !result.unshieldedUtxosCreated.isEmpty || !result.unshieldedUtxosSpent.isEmpty then
      [.unshieldedTokens result.unshieldedUtxosSpent result.unshieldedUtxosCreated] else []) ++
    [if result.allApplied then .txApplied result.txHash else .txPartialSuccess result.txHash]

/-! ### The tool -/

/-- `UtxoRef`, which the node reads as `UtxoEntry`. -/
structure UtxoRef where
  intentHash : String
  outputIndex : BitVec 32

/-- `OverrideEntry`, which the node reads as `TxOverride`. -/
structure OverrideEntry where
  txHash : String
  blockHeight : ℕ
  created : List UtxoRef
  spent : List UtxoRef

/-- `hex::encode` of a hash. -/
def encodeHash (hash : Hash) : String := Hex.encode (Hex.toBytes 32 hash.toNat)

/-- `to_refs`. -/
def toRefs (utxos : List UtxoInfo) : List UtxoRef :=
  utxos.map fun u => ⟨encodeHash u.intentHash, u.outputNo⟩

/-- The state of the loop over the events of a block. -/
structure Scan where
  /-- The spent and the created UTXOs that wait for their transaction. -/
  pending : Option (List UtxoRef × List UtxoRef)
  results : List OverrideEntry

/-- The transaction of the UTXOs that wait is known: they are written down if an order matters. -/
def Scan.complete (height : ℕ) (txHash : Hash) (scan : Scan) : Scan :=
  match scan.pending with
  | none => scan
  | some (spent, created) =>
    if spent.length > 1 || created.length > 1 then
      ⟨none, scan.results ++ [⟨encodeHash txHash, height, created, spent⟩]⟩
    else ⟨none, scan.results⟩

/-- One round of the loop over the events of a block. -/
def Scan.event (height : ℕ) (scan : Scan) : RuntimeEvent → Scan
  | .midnight (.unshieldedTokens spent created) =>
    { scan with pending := some (toRefs spent, toRefs created) }
  | .midnight (.txApplied txHash) => scan.complete height txHash
  | .midnight (.txPartialSuccess txHash) => scan.complete height txHash
  | _ => scan

/-- One round of the loop over the heights. -/
def scanBlock (height : ℕ) (events : List RuntimeEvent) (results : List OverrideEntry) :
    List OverrideEntry :=
  (events.foldl (Scan.event height) ⟨none, results⟩).results

/-- The heights that the tool is run for: those of an older file, or a list as it is. -/
inductive HeightSource
  | file (entries : List OverrideEntry)
  | stdin (heights : List ℕ)

/-- `block_heights`. -/
def HeightSource.blockHeights : HeightSource → List ℕ
  | .file entries => ((entries.map OverrideEntry.blockHeight).insertionSort (· ≤ ·)).dedup
  | .stdin heights => heights

/-- The loop over the heights; it stops at one without a block. -/
def scanHeights (eventsAt : ℕ → Option (List RuntimeEvent)) (heights : List ℕ) :
    Option (List OverrideEntry) :=
  heights.foldlM (fun results height => do
    let events ← eventsAt height
    return scanBlock height events results) []

/-- `main`: what the tool prints. -/
def fetchUtxoOrdering (eventsAt : ℕ → Option (List RuntimeEvent)) (source : HeightSource) :
    Option (List OverrideEntry) := do
  let results ← scanHeights eventsAt source.blockHeights
  return results.insertionSort fun e e' => e.blockHeight ≤ e'.blockHeight

/-! ### The node -/

/-- `parse_hash`: what is too long is cut off, what is missing is zero, and what is no hexadecimal
text is the zero hash. -/
def parseHash (hexStr : String) : Hash :=
  match Hex.decode hexStr with
  | none => 0
  | some bytes =>
    BitVec.ofNat 256 (Hex.ofBytes (bytes.take 32 ++ List.replicate (32 - bytes.length) 0))

/-- `parse_entry`. -/
def parseEntry (entry : UtxoRef) : Hash × BitVec 32 :=
  (parseHash entry.intentHash, entry.outputIndex)

/-- The order that an entry of the file stands for. -/
def OverrideEntry.ordering (entry : OverrideEntry) : UtxoOrdering :=
  ⟨entry.created.map parseEntry, entry.spent.map parseEntry⟩

/-- The map of the overrides, by transaction. -/
abbrev Overrides : Type := Hash → Option UtxoOrdering

/-- No override. -/
def Overrides.empty : Overrides := fun _ => none

/-- `insert` for each entry of the file. -/
def insertAll (entries : List OverrideEntry) (map : Overrides) : Overrides :=
  entries.foldl (fun map tx => Function.update map (parseHash tx.txHash) (some tx.ordering)) map

/-- `load_overrides`: only three networks have a file, and a file that cannot be read or parsed
counts as none. -/
def loadOverrides (networkId : Option String) (readFile : String → Option (List OverrideEntry)) :
    Overrides :=
  let networkId := networkId.getD ""
  if networkId = "preview" ∨ networkId = "preprod" ∨ networkId = "qanet" then
    match readFile ("res/utxo-ordering-override-" ++ networkId ++ ".json") with
    | some entries => insertAll entries .empty
    | none => .empty
  else .empty

/-- The crate with the given overrides loaded. -/
def LedgerCrate.withOverrides (C : LedgerCrate L) (overrides : Overrides) : LedgerCrate L :=
  { C with getOverride := overrides }

variable {C : LedgerCrate L}

/-! ### A recorded chain -/

/-- A transaction of the chain: what `apply_transaction` has when it builds the event, and the
event that was recorded. -/
structure RecordedTransaction (C : LedgerCrate L) where
  tx : Transaction L
  initialUtxosSize : ℕ
  newLedger : StoredLedger C.State
  stage : AppliedStage L
  event : TransactionAppliedStateRoot

/-- What a node with the given overrides reports for the transaction. -/
def RecordedTransaction.report (skip : Bool) (overrides : Overrides) (r : RecordedTransaction C) :
    Except (LedgerApiError L) TransactionAppliedStateRoot :=
  transactionEvent (C := C.withOverrides overrides) r.tx r.initialUtxosSize r.newLedger r.stage skip

/-- The UTXOs of the transaction, by segment. -/
def RecordedTransaction.utxos (r : RecordedTransaction C) : UnshieldedUtxos :=
  r.tx.appliedUtxos r.stage

/-- The event with other lists of UTXOs. -/
def TransactionAppliedStateRoot.withUtxos (event : TransactionAppliedStateRoot)
    (created spent : List UtxoInfo) : TransactionAppliedStateRoot :=
  { event with unshieldedUtxosCreated := created, unshieldedUtxosSpent := spent }

/-- The list has the values of the map, key by key, with the keys in any order. -/
def ListsSegments (m : Map UtxoInfo) (l : List UtxoInfo) : Prop :=
  ∃ entries, entries ~ m.entries ∧ l = entries.flatMap Prod.snd

/-- The event was recorded by a node that lists the segments in any order, and otherwise reports
what a node without overrides does. -/
structure RecordedTransaction.Recorded (skip : Bool) (r : RecordedTransaction C) : Prop where
  report : ∃ event, r.report skip .empty = .ok event ∧
    r.event = event.withUtxos r.event.unshieldedUtxosCreated r.event.unshieldedUtxosSpent
  created : ListsSegments r.utxos.outputs r.event.unshieldedUtxosCreated
  spent : ListsSegments r.utxos.inputs r.event.unshieldedUtxosSpent

/-- What happens in a block: transactions and events of other pallets. -/
inductive BlockItem (C : LedgerCrate L)
  | transaction (r : RecordedTransaction C)
  | otherPallet

/-- The events of an item. -/
def BlockItem.events : BlockItem C → List RuntimeEvent
  | .transaction r => (sendMnTransactionEvents r.event).map .midnight
  | .otherPallet => [.otherPallet]

/-- The transaction of an item. -/
def BlockItem.transaction? : BlockItem C → Option (RecordedTransaction C)
  | .transaction r => some r
  | .otherPallet => none

/-- A block of the chain. -/
structure RecordedBlock (C : LedgerCrate L) where
  height : ℕ
  items : List (BlockItem C)

namespace RecordedBlock

/-- The events of the block. -/
def events (b : RecordedBlock C) : List RuntimeEvent := b.items.flatMap BlockItem.events

/-- The transactions of the block. -/
def transactions (b : RecordedBlock C) : List (RecordedTransaction C) :=
  b.items.filterMap BlockItem.transaction?

end RecordedBlock

/-- The events at a height of the chain. -/
def eventsAt (blocks : List (RecordedBlock C)) (height : ℕ) : Option (List RuntimeEvent) :=
  (blocks.find? fun b => b.height == height).map RecordedBlock.events

/-! ### Hashes in the file -/

lemma parseHash_encodeHash (hash : Hash) : parseHash (encodeHash hash) = hash := by
  have hlt : hash.toNat < 256 ^ 32 := hash.isLt
  rw [parseHash, encodeHash, Hex.decode_encode]
  dsimp only
  rw [Hex.length_toBytes, Nat.sub_self, List.replicate_zero, List.append_nil,
    List.take_of_length_le (Hex.length_toBytes _ _).le, Hex.ofBytes_toBytes hlt]
  exact BitVec.eq_of_toNat_eq (by rw [BitVec.toNat_ofNat, Nat.mod_eq_of_lt hash.isLt])

lemma map_parseEntry_toRefs (utxos : List UtxoInfo) :
    (toRefs utxos).map parseEntry = utxos.map UtxoInfo.key := by
  rw [toRefs, List.map_map]
  refine List.map_congr_left fun u _ => ?_
  rw [Function.comp_apply, parseEntry, parseHash_encodeHash]
  rfl

/-! ### What the tool reads -/

/-- What is written down for a transaction. -/
def RecordedTransaction.overrideEntry (height : ℕ) (r : RecordedTransaction C) :
    Option OverrideEntry :=
  if 1 < r.event.unshieldedUtxosSpent.length ∨ 1 < r.event.unshieldedUtxosCreated.length then
    some ⟨encodeHash r.event.txHash, height, toRefs r.event.unshieldedUtxosCreated,
      toRefs r.event.unshieldedUtxosSpent⟩
  else none

/-- Events that say nothing about UTXOs change nothing. -/
lemma foldl_scan_of_forall {height : ℕ} {events : List RuntimeEvent}
    (h : ∀ event ∈ events, ∀ scan, Scan.event height scan event = scan) (scan : Scan) :
    events.foldl (Scan.event height) scan = scan := by
  induction events with
  | nil => rfl
  | cons event events ih =>
    rw [List.foldl_cons, h event List.mem_cons_self]
    exact ih fun event hmem => h event (List.mem_cons_of_mem _ hmem)

lemma foldl_scan_map {α : Type} {height : ℕ} (l : List α) {f : α → MidnightEvent}
    (h : ∀ a scan, Scan.event height scan (.midnight (f a)) = scan) (scan : Scan) :
    ((l.map f).map RuntimeEvent.midnight).foldl (Scan.event height) scan = scan := by
  refine foldl_scan_of_forall (fun event hmem => ?_) scan
  rw [List.map_map] at hmem
  obtain ⟨a, -, rfl⟩ := List.mem_map.1 hmem
  exact h a

/-- **Step**: from the events of a transaction its entry is read, and nothing waits afterwards. -/
lemma scan_sendMnTransaction (height : ℕ) (r : RecordedTransaction C)
    (results : List OverrideEntry) :
    (BlockItem.transaction r).events.foldl (Scan.event height) ⟨none, results⟩ =
      ⟨none, results ++ (r.overrideEntry height).toList⟩ := by
  rw [BlockItem.events, sendMnTransactionEvents]
  simp only [List.map_append, List.foldl_append]
  rw [foldl_scan_map _ fun _ _ => rfl, foldl_scan_map _ fun _ _ => rfl,
    foldl_scan_map _ fun _ _ => rfl, foldl_scan_map _ fun _ _ => rfl]
  -- The last event names the transaction, whether all segments were applied or not.
  have hlast : ∀ scan : Scan, ([if r.event.allApplied then MidnightEvent.txApplied r.event.txHash
      else .txPartialSuccess r.event.txHash].map RuntimeEvent.midnight).foldl
        (Scan.event height) scan = scan.complete height r.event.txHash := by
    intro scan
    cases r.event.allApplied <;> rfl
  rw [hlast, RecordedTransaction.overrideEntry]
  by_cases hempty : r.event.unshieldedUtxosCreated = [] ∧ r.event.unshieldedUtxosSpent = []
  · simp [hempty.1, hempty.2, Scan.complete]
  · have hsome : (!r.event.unshieldedUtxosCreated.isEmpty ||
        !r.event.unshieldedUtxosSpent.isEmpty) = true := by
      rw [not_and_or] at hempty
      simpa using hempty
    rw [if_pos hsome]
    simp only [List.map_cons, List.map_nil, List.foldl_cons, List.foldl_nil, Scan.event,
      Scan.complete, toRefs, List.length_map, gt_iff_lt, Bool.or_eq_true, decide_eq_true_eq]
    split <;> simp

/-- **Run**: from a block the entries of its transactions are read, in their order. -/
lemma scanBlock_eq (b : RecordedBlock C) (results : List OverrideEntry) :
    scanBlock b.height b.events results =
      results ++ b.transactions.filterMap (RecordedTransaction.overrideEntry b.height) := by
  have hitems : ∀ (items : List (BlockItem C)) (results : List OverrideEntry),
      (items.flatMap BlockItem.events).foldl (Scan.event b.height) ⟨none, results⟩ =
        ⟨none, results ++ (items.filterMap BlockItem.transaction?).filterMap
          (RecordedTransaction.overrideEntry b.height)⟩ := by
    intro items
    induction items with
    | nil => simp
    | cons item items ih =>
      intro results
      rw [List.flatMap_cons, List.foldl_append]
      cases item with
      | transaction r =>
        have hcons : (BlockItem.transaction r :: items).filterMap BlockItem.transaction? =
            r :: items.filterMap BlockItem.transaction? := rfl
        rw [scan_sendMnTransaction, ih, List.append_assoc, hcons, List.filterMap_cons]
        cases r.overrideEntry b.height <;> rfl
      | otherPallet => exact ih results
  rw [scanBlock, RecordedBlock.events, hitems]
  rfl

/-- The block that is found at a height is the one of that height. -/
lemma eventsAt_eq_some {blocks : List (RecordedBlock C)} {height : ℕ} {events : List RuntimeEvent}
    (h : eventsAt blocks height = some events) :
    ∃ b ∈ blocks, b.height = height ∧ b.events = events := by
  obtain ⟨b, hfind, hevents⟩ := Option.map_eq_some_iff.1 h
  exact ⟨b, List.mem_of_find?_eq_some hfind, by simpa using List.find?_some hfind, hevents⟩

/-- **Run**: what is read from the blocks at the heights. -/
lemma mem_scanHeights_iff {blocks : List (RecordedBlock C)} {heights : List ℕ}
    {entries : List OverrideEntry} (hheights : (blocks.map RecordedBlock.height).Nodup)
    (h : scanHeights (eventsAt blocks) heights = some entries) (entry : OverrideEntry) :
    entry ∈ entries ↔ ∃ b ∈ blocks, b.height ∈ heights ∧
      ∃ r ∈ b.transactions, r.overrideEntry b.height = some entry := by
  -- The loop has read entries already.
  have hloop : ∀ (heights : List ℕ) (results : List OverrideEntry),
      heights.foldlM (fun results height => do
        let events ← eventsAt blocks height
        return scanBlock height events results) results = some entries →
      (entry ∈ entries ↔ entry ∈ results ∨ ∃ b ∈ blocks, b.height ∈ heights ∧
        ∃ r ∈ b.transactions, r.overrideEntry b.height = some entry) := by
    intro heights
    induction heights with
    | nil =>
      intro results h
      obtain rfl := Option.some.inj h
      simp
    | cons height heights ih =>
      intro results h
      rw [List.foldlM_cons] at h
      obtain ⟨read, hread, h⟩ := Option.bind_eq_some_iff.1 h
      obtain ⟨events, hevents, hread⟩ := Option.bind_eq_some_iff.1 hread
      obtain rfl := Option.some.inj hread
      obtain ⟨b, hb, rfl, rfl⟩ := eventsAt_eq_some hevents
      rw [ih _ h, scanBlock_eq, List.mem_append, List.mem_filterMap, or_assoc]
      refine or_congr_right ⟨?_, ?_⟩
      · rintro (⟨r, hr, hentry⟩ | ⟨b', hb', hmem, hr⟩)
        · exact ⟨b, hb, List.mem_cons_self, r, hr, hentry⟩
        · exact ⟨b', hb', List.mem_cons_of_mem _ hmem, hr⟩
      · rintro ⟨b', hb', hmem, hr⟩
        rcases List.mem_cons.1 hmem with heq | hmem
        · obtain rfl := List.inj_on_of_nodup_map hheights hb' hb heq
          exact .inl hr
        · exact .inr ⟨b', hb', hmem, hr⟩
  rw [hloop heights [] h]
  simp

lemma mem_fetchUtxoOrdering_iff {blocks : List (RecordedBlock C)} {source : HeightSource}
    {entries : List OverrideEntry} (hheights : (blocks.map RecordedBlock.height).Nodup)
    (h : fetchUtxoOrdering (eventsAt blocks) source = some entries) (entry : OverrideEntry) :
    entry ∈ entries ↔ ∃ b ∈ blocks, b.height ∈ source.blockHeights ∧
      ∃ r ∈ b.transactions, r.overrideEntry b.height = some entry := by
  obtain ⟨results, hresults, h⟩ := Option.bind_eq_some_iff.1 h
  obtain rfl := Option.some.inj h
  rw [List.mem_insertionSort, mem_scanHeights_iff hheights hresults]

/-! ### What the node loads -/

lemma insertAll_of_forall_ne {entries : List OverrideEntry} {hash : Hash}
    (h : ∀ entry ∈ entries, parseHash entry.txHash ≠ hash) (map : Overrides) :
    insertAll entries map hash = map hash := by
  induction entries generalizing map with
  | nil => rfl
  | cons entry entries ih =>
    rw [insertAll, List.foldl_cons]
    refine (ih (fun e he => h e (List.mem_cons_of_mem _ he)) _).trans ?_
    exact Function.update_of_ne (h entry List.mem_cons_self).symm _ _

/-- Entries for one transaction that agree are found, whichever is inserted last. -/
lemma insertAll_of_mem {entries : List OverrideEntry} {entry : OverrideEntry}
    (hmem : entry ∈ entries) (hagree : ∀ e ∈ entries, parseHash e.txHash = parseHash entry.txHash →
      e.ordering = entry.ordering) (map : Overrides) :
    insertAll entries map (parseHash entry.txHash) = some entry.ordering := by
  induction entries generalizing map entry with
  | nil => exact absurd hmem List.not_mem_nil
  | cons first entries ih =>
    have hrest := fun e he => hagree e (List.mem_cons_of_mem _ he)
    rw [insertAll, List.foldl_cons]
    by_cases hlater : ∃ e ∈ entries, parseHash e.txHash = parseHash entry.txHash
    · obtain ⟨e, he, hhash⟩ := hlater
      have hfound := ih he
        (fun e' he' hhash' => (hrest e' he' (hhash'.trans hhash)).trans (hrest e he hhash).symm)
      rw [hhash, hrest e he hhash] at hfound
      exact hfound _
    · have hnone := insertAll_of_forall_ne fun e he hhash => hlater ⟨e, he, hhash⟩
      refine (hnone _).trans ?_
      -- No later entry is for the transaction, so the one in question is the first.
      have hfirst : entry = first := by
        rcases List.mem_cons.1 hmem with heq | he
        · exact heq
        · exact absurd ⟨entry, he, rfl⟩ hlater
      rw [hfirst]
      exact Function.update_self _ _ _

lemma loadOverrides_eq {networkId : String} {readFile : String → Option (List OverrideEntry)}
    {entries : List OverrideEntry}
    (hnetwork : networkId = "preview" ∨ networkId = "preprod" ∨ networkId = "qanet")
    (hfile : readFile ("res/utxo-ordering-override-" ++ networkId ++ ".json") = some entries) :
    loadOverrides (some networkId) readFile = insertAll entries .empty := by
  rw [loadOverrides]
  simp only [Option.getD_some]
  rw [if_pos hnetwork, hfile]

/-! ### What the node reports -/

/-- The created and the spent UTXOs as a node with the given overrides lists them. -/
def RecordedTransaction.listed (overrides : Overrides) (r : RecordedTransaction C) :
    List UtxoInfo × List UtxoInfo :=
  match overrides (C.transactionHash r.tx) with
  | some ordering => ordering.apply r.utxos.outputs.flatten r.utxos.outputs.size
      r.utxos.inputs.flatten r.utxos.inputs.size
  | none => (r.utxos.outputs.flatten, r.utxos.inputs.flatten)

lemma push_withUtxos (event : TransactionAppliedStateRoot) (created spent : List UtxoInfo)
    (operation : Operation) :
    (event.withUtxos created spent).push C operation =
      (event.push C operation).map fun event => event.withUtxos created spent := by
  cases operation with
  | claimRewards value => rfl
  | call address | deploy address | maintain address =>
    simp only [TransactionAppliedStateRoot.push]
    cases C.serializeAddress address <;> rfl

lemma foldlM_push_withUtxos (operations : List Operation) (event : TransactionAppliedStateRoot)
    (created spent : List UtxoInfo) :
    operations.foldlM (TransactionAppliedStateRoot.push C) (event.withUtxos created spent) =
      (operations.foldlM (TransactionAppliedStateRoot.push C) event).map
        fun event => event.withUtxos created spent := by
  induction operations generalizing event with
  | nil => rfl
  | cons operation operations ih =>
    rw [List.foldlM_cons, List.foldlM_cons, push_withUtxos]
    cases event.push C operation with
    | error e => rfl
    | ok event => exact ih event

lemma checkUtxosResponseIntegrity_eq_ok {utxos : UnshieldedUtxos} {n : ℕ} {after : Finset Utxo}
    {lists : List UtxoInfo × List UtxoInfo}
    (h : utxos.checkUtxosResponseIntegrity L n after = .ok lists) :
    lists = (utxos.outputs.flatten, utxos.inputs.flatten) := by
  rw [UnshieldedUtxos.checkUtxosResponseIntegrity] at h
  split at h
  · cases h
  · split at h
    · cases h
    · dsimp only at h
      split at h
      · cases h
      · exact (Except.ok.inj h).symm

/-- The event with its lists of UTXOs, once the integrity check has passed. -/
def RecordedTransaction.build (skip : Bool) (r : RecordedTransaction C)
    (lists : List UtxoInfo × List UtxoInfo) :
    Except (LedgerApiError L) TransactionAppliedStateRoot := do
  let stateRoot ← okOr (C.serializeKey r.newLedger) .serializationTypedArenaKey
  (r.tx.callsAndDeploys (if skip then r.stage.failedSegments else none)).foldlM
    (TransactionAppliedStateRoot.push C)
    ⟨stateRoot, C.transactionHash r.tx, r.stage.isAllApplied, [], [], [], [], lists.1, lists.2⟩

lemma RecordedTransaction.report_eq_bind (skip : Bool) (overrides : Overrides)
    (r : RecordedTransaction C) :
    r.report skip overrides =
      r.utxos.checkUtxosResponseIntegrity L r.initialUtxosSize (C.utxos r.newLedger.state) >>=
        fun _ => r.build skip (r.listed overrides) := by
  have hreport : r.report skip overrides =
      r.utxos.checkUtxosResponseIntegrity L r.initialUtxosSize (C.utxos r.newLedger.state) >>=
        fun lists => r.build skip (match overrides (C.transactionHash r.tx) with
          | some ordering => ordering.apply lists.1 r.utxos.outputs.size lists.2
              r.utxos.inputs.size
          | none => lists) := rfl
  rw [hreport]
  cases hcheck : r.utxos.checkUtxosResponseIntegrity L r.initialUtxosSize
      (C.utxos r.newLedger.state) with
  | error e => rfl
  | ok lists =>
    rw [checkUtxosResponseIntegrity_eq_ok hcheck]
    rfl

lemma RecordedTransaction.build_eq (skip : Bool) (r : RecordedTransaction C)
    (lists lists' : List UtxoInfo × List UtxoInfo) :
    r.build skip lists' =
      (r.build skip lists).map fun event => event.withUtxos lists'.1 lists'.2 := by
  rw [build, build]
  cases okOr (C.serializeKey r.newLedger) LedgerApiError.serializationTypedArenaKey with
  | error e => rfl
  | ok stateRoot => exact foldlM_push_withUtxos _ ⟨stateRoot, _, _, _, _, _, _, _, _⟩ _ _

/-- Overrides change the lists of UTXOs in an event, and nothing else. -/
lemma RecordedTransaction.report_eq (skip : Bool) (overrides : Overrides)
    (r : RecordedTransaction C) :
    r.report skip overrides = (r.report skip .empty).map
      fun event => event.withUtxos (r.listed overrides).1 (r.listed overrides).2 := by
  rw [report_eq_bind, report_eq_bind skip .empty]
  cases r.utxos.checkUtxosResponseIntegrity L r.initialUtxosSize (C.utxos r.newLedger.state) with
  | error e => rfl
  | ok lists => exact r.build_eq skip _ _

lemma foldlM_push_txHash {operations : List Operation} {event event' : TransactionAppliedStateRoot}
    (h : operations.foldlM (TransactionAppliedStateRoot.push C) event = .ok event') :
    event'.txHash = event.txHash := by
  induction operations generalizing event with
  | nil =>
    obtain rfl := Except.ok.inj h
    rfl
  | cons operation operations ih =>
    rw [List.foldlM_cons] at h
    obtain ⟨event₁, hpush, hrest⟩ := bind_eq_ok.1 h
    rw [ih hrest]
    cases operation with
    | claimRewards value =>
      obtain rfl := Except.ok.inj hpush
      rfl
    | call address | deploy address | maintain address =>
      obtain ⟨bytes, -, heq⟩ := bind_eq_ok.1 hpush
      obtain rfl := Except.ok.inj heq
      rfl

namespace RecordedTransaction

variable {skip : Bool} {r : RecordedTransaction C}

lemma Recorded.txHash (h : r.Recorded skip) : r.event.txHash = C.transactionHash r.tx := by
  obtain ⟨event, hreport, heq⟩ := h.report
  rw [report_eq_bind] at hreport
  obtain ⟨_, -, hbuild⟩ := bind_eq_ok.1 hreport
  obtain ⟨stateRoot, -, hfold⟩ := bind_eq_ok.1 hbuild
  rw [heq]
  exact foldlM_push_txHash hfold

/-- A node reports what was recorded if it lists the UTXOs in the recorded order. -/
lemma Recorded.report_eq_ok_iff (h : r.Recorded skip) (overrides : Overrides) :
    r.report skip overrides = .ok r.event ↔
      r.listed overrides = (r.event.unshieldedUtxosCreated, r.event.unshieldedUtxosSpent) := by
  obtain ⟨event, hreport, heq⟩ := h.report
  rw [report_eq, hreport]
  constructor
  · intro hok
    have hsame := Except.ok.inj hok
    exact Prod.ext (congrArg TransactionAppliedStateRoot.unshieldedUtxosCreated hsame)
      (congrArg TransactionAppliedStateRoot.unshieldedUtxosSpent hsame)
  · intro hlisted
    rw [hlisted]
    exact congrArg Except.ok heq.symm

end RecordedTransaction

/-! ### Recorded orders -/

lemma eq_of_map_eq {α β : Type*} {f : α → β} {l l' : List α}
    (hf : ∀ u ∈ l, ∀ v ∈ l', f u = f v → u = v) (h : l.map f = l'.map f) : l = l' := by
  induction l generalizing l' with
  | nil => exact (List.map_eq_nil_iff.1 h.symm).symm
  | cons u l ih =>
    obtain ⟨v, l', rfl, huv, hrest⟩ := List.map_eq_cons_iff.1 h.symm
    obtain rfl := hf u List.mem_cons_self v List.mem_cons_self huv.symm
    rw [ih (fun u hu v hv => hf u (List.mem_cons_of_mem _ hu) v (List.mem_cons_of_mem _ hv))
      hrest.symm]

namespace ListsSegments

variable {m : Map UtxoInfo} {l : List UtxoInfo}

lemma perm (h : ListsSegments m l) : l ~ m.flatten := by
  obtain ⟨entries, hperm, rfl⟩ := h
  exact hperm.flatMap_right _

/-- There is one order for one segment. -/
lemma eq_of_size_le (h : ListsSegments m l) (hsize : m.size ≤ 1) : l = m.flatten := by
  obtain ⟨entries, hperm, rfl⟩ := h
  have hentries : entries = m.entries := by
    match hm : m.entries with
    | [] =>
      rw [hm] at hperm
      exact hperm.eq_nil
    | [e] =>
      rw [hm] at hperm
      exact List.perm_singleton.1 hperm
    | e :: e' :: rest =>
      rw [Map.size, hm] at hsize
      simp at hsize
  rw [hentries]
  rfl

/-- There is one order for one UTXO. -/
lemma eq_of_length_le (h : ListsSegments m l) (hlength : l.length ≤ 1) : l = m.flatten := by
  match l, h.perm with
  | [], hperm => exact hperm.nil_eq.symm ▸ rfl
  | [u], hperm => exact (List.singleton_perm.1 hperm).symm ▸ rfl
  | u :: v :: rest, _ => simp at hlength

/-- The recorded keys bring the UTXOs into the recorded order. -/
lemma reorder_eq (h : ListsSegments m l)
    (hkeys : ∀ u ∈ m.flatten, ∀ v ∈ m.flatten, u.key = v.key → u = v) :
    reorder m.flatten (l.map UtxoInfo.key) = l := by
  have hlength : m.flatten.length = (l.map UtxoInfo.key).length := by
    rw [List.length_map, h.perm.length_eq]
  by_cases hempty : l = []
  · subst hempty
    simp [reorder, h.perm.nil_eq.symm]
  · have hloop : reorder m.flatten (l.map UtxoInfo.key) =
        reorderLoop (l.map UtxoInfo.key) m.flatten [] := by
      rw [reorder, if_neg]
      simp [hempty, hlength]
    obtain ⟨taken, rest, hresult, hordered, hsplit⟩ :=
      reorderLoop_of_subperm [] (h.perm.map UtxoInfo.key).subperm
    rw [hloop, hresult, List.nil_append]
    refine eq_of_map_eq (fun u hu v hv => hkeys u ?_ v (h.perm.mem_iff.1 hv)) hordered
    exact hsplit.subset (List.mem_append_left _ hu)

end ListsSegments

/-- A key names one UTXO among those that a transaction creates, and one among those it spends. -/
structure UnshieldedUtxos.KeysName (utxos : UnshieldedUtxos) : Prop where
  outputs : ∀ u ∈ utxos.outputs.flatten, ∀ v ∈ utxos.outputs.flatten, u.key = v.key → u = v
  inputs : ∀ u ∈ utxos.inputs.flatten, ∀ v ∈ utxos.inputs.flatten, u.key = v.key → u = v

namespace RecordedTransaction

variable {skip : Bool} {r : RecordedTransaction C} {overrides : Overrides}

/-- With the recorded keys as its override, a transaction is reported as it was recorded. -/
lemma Recorded.report_of_override (h : r.Recorded skip) (hkeys : r.utxos.KeysName)
    (hoverride : overrides r.event.txHash =
      some ⟨r.event.unshieldedUtxosCreated.map UtxoInfo.key,
        r.event.unshieldedUtxosSpent.map UtxoInfo.key⟩) :
    r.report skip overrides = .ok r.event := by
  rw [h.report_eq_ok_iff, listed, ← h.txHash, hoverride]
  dsimp only
  rw [UtxoOrdering.apply]
  refine Prod.ext ?_ ?_
  · dsimp only
    split
    · exact h.created.reorder_eq hkeys.outputs
    · exact (h.created.eq_of_size_le (by omega)).symm
  · dsimp only
    split
    · exact h.spent.reorder_eq hkeys.inputs
    · exact (h.spent.eq_of_size_le (by omega)).symm

/-- Without an override, overrides of other transactions make no difference. -/
lemma report_of_no_override (h : r.Recorded skip) (hnone : overrides r.event.txHash = none) :
    r.report skip overrides = r.report skip .empty := by
  have hlisted : r.listed overrides = r.listed .empty := by
    rw [h.txHash] at hnone
    rw [listed, hnone]
    rfl
  rw [report_eq_bind, report_eq_bind skip .empty, hlisted]

/-- Where no order is written down, there is only one. -/
lemma Recorded.report_of_overrideEntry_eq_none (h : r.Recorded skip) {height : ℕ}
    (hentry : r.overrideEntry height = none) : r.report skip .empty = .ok r.event := by
  rw [overrideEntry] at hentry
  split at hentry
  · cases hentry
  · rename_i hlengths
    rw [not_or, not_lt, not_lt] at hlengths
    rw [h.report_eq_ok_iff, h.created.eq_of_length_le hlengths.2,
      h.spent.eq_of_length_le hlengths.1]
    rfl

lemma parseHash_of_overrideEntry {height : ℕ} {entry : OverrideEntry}
    (h : r.overrideEntry height = some entry) :
    parseHash entry.txHash = r.event.txHash ∧
      entry.ordering = ⟨r.event.unshieldedUtxosCreated.map UtxoInfo.key,
        r.event.unshieldedUtxosSpent.map UtxoInfo.key⟩ := by
  rw [overrideEntry] at h
  split at h
  · obtain rfl := Option.some.inj h
    refine ⟨parseHash_encodeHash _, ?_⟩
    rw [OverrideEntry.ordering, map_parseEntry_toRefs, map_parseEntry_toRefs]
  · cases h

end RecordedTransaction

/-! ### Syncing -/

/-- **Syncing the recorded chain.**  Old nodes recorded the events of a chain, with the segments of
each transaction in any order.  The tool was run for some heights of the chain, and a node loads
the file it wrote.  The node reports every transaction as it was recorded if and only if it would
do so without overrides for all the transactions at the other heights. -/
theorem resync_iff_heights_cover {skip : Bool} {blocks : List (RecordedBlock C)}
    {source : HeightSource} {entries : List OverrideEntry} {networkId : String}
    {readFile : String → Option (List OverrideEntry)}
    (hrecorded : ∀ b ∈ blocks, ∀ r ∈ b.transactions, r.Recorded skip ∧ r.utxos.KeysName)
    (hheights : (blocks.map RecordedBlock.height).Nodup)
    (hhashes : ∀ b ∈ blocks, ∀ r ∈ b.transactions, ∀ b' ∈ blocks, ∀ r' ∈ b'.transactions,
      r.event.txHash = r'.event.txHash → b = b' ∧ r = r')
    (htool : fetchUtxoOrdering (eventsAt blocks) source = some entries)
    (hnetwork : networkId = "preview" ∨ networkId = "preprod" ∨ networkId = "qanet")
    (hfile : readFile ("res/utxo-ordering-override-" ++ networkId ++ ".json") = some entries) :
    (∀ b ∈ blocks, ∀ r ∈ b.transactions,
        r.report skip (loadOverrides (some networkId) readFile) = .ok r.event) ↔
      ∀ b ∈ blocks, b.height ∉ source.blockHeights →
        ∀ r ∈ b.transactions, r.report skip .empty = .ok r.event := by
  have hmem := mem_fetchUtxoOrdering_iff hheights htool
  rw [loadOverrides_eq hnetwork hfile]
  -- An entry for a transaction is the one that was read from its own events.
  have howner : ∀ b ∈ blocks, ∀ r ∈ b.transactions, ∀ entry ∈ entries,
      parseHash entry.txHash = r.event.txHash →
        b.height ∈ source.blockHeights ∧ r.overrideEntry b.height = some entry := by
    intro b hb r hr entry hentry hhash
    obtain ⟨b', hb', hheight, r', hr', hread⟩ := (hmem entry).1 hentry
    have hhash' := (RecordedTransaction.parseHash_of_overrideEntry hread).1
    obtain ⟨rfl, rfl⟩ := hhashes b hb r hr b' hb' r' hr' (hhash.symm.trans hhash')
    exact ⟨hheight, hread⟩
  -- A transaction without an entry has no override.
  have hnone : ∀ b ∈ blocks, ∀ r ∈ b.transactions,
      (∀ entry ∈ entries, r.overrideEntry b.height = some entry → b.height ∉ source.blockHeights) →
        r.report skip (insertAll entries .empty) = r.report skip .empty := by
    intro b hb r hr hfree
    refine RecordedTransaction.report_of_no_override (hrecorded b hb r hr).1
      (insertAll_of_forall_ne (fun entry hentry hhash => ?_) _)
    obtain ⟨hheight, hread⟩ := howner b hb r hr entry hentry hhash
    exact hfree entry hentry hread hheight
  constructor
  · intro hall b hb hheight r hr
    rw [← hnone b hb r hr fun _ _ _ => hheight]
    exact hall b hb r hr
  · intro huncovered b hb r hr
    obtain ⟨hrec, hkeys⟩ := hrecorded b hb r hr
    by_cases hheight : b.height ∈ source.blockHeights
    · cases hread : r.overrideEntry b.height with
      | none =>
        rw [hnone b hb r hr fun entry _ h => absurd (hread.symm.trans h) (by simp)]
        exact hrec.report_of_overrideEntry_eq_none hread
      | some entry =>
        have hentry : entry ∈ entries := (hmem entry).2 ⟨b, hb, hheight, r, hr, hread⟩
        obtain ⟨hhash, hordering⟩ := RecordedTransaction.parseHash_of_overrideEntry hread
        refine hrec.report_of_override hkeys ?_
        rw [← hhash, ← hordering]
        refine insertAll_of_mem hentry (fun e he hsame => ?_) _
        have hread' := (howner b hb r hr e he (hsame.trans hhash)).2
        exact congrArg OverrideEntry.ordering (Option.some.inj (hread'.symm.trans hread))
    · rw [hnone b hb r hr fun _ _ _ => hheight]
      exact huncovered b hb hheight r hr

/-! ### Two segments in the other order -/

/-- The transaction with two intents, recorded with the UTXO of the second segment first. -/
def recordedTwoIntents : RecordedTransaction (referenceCrate sampleDecode) where
  tx := .standard (twoIntents (coin 7))
  initialUtxosSize := 1
  newLedger := sampleStorage {coin 1, coin 2}
  stage := .allApplied
  event := ⟨[0], 0, true, [[9]], [[8]], [], [], [⟨0, 0, 2, 5, 0⟩, ⟨0, 0, 1, 5, 0⟩],
    [⟨0, 0, 7, 5, 0⟩]⟩

lemma recorded_recordedTwoIntents : recordedTwoIntents.Recorded true where
  report := ⟨recordedTwoIntents.event.withUtxos [⟨0, 0, 1, 5, 0⟩, ⟨0, 0, 2, 5, 0⟩]
    [⟨0, 0, 7, 5, 0⟩], rfl, rfl⟩
  created := ⟨[(2, [⟨0, 0, 2, 5, 0⟩]), (1, [⟨0, 0, 1, 5, 0⟩])], .swap _ _ _, rfl⟩
  spent := ⟨[(2, [⟨0, 0, 7, 5, 0⟩])], .refl _, rfl⟩

/-- A chain with this transaction at height 5. -/
def recordedChain : List (RecordedBlock (referenceCrate sampleDecode)) :=
  [⟨4, []⟩, ⟨5, [.otherPallet, .transaction recordedTwoIntents]⟩]

/-- The file for height 5. -/
def fileForHeightFive : String → Option (List OverrideEntry) :=
  fun _ => fetchUtxoOrdering (eventsAt recordedChain) (.stdin [5])

/-- The node reports the transaction as it was recorded, which it does not do without the
file. -/
theorem resync_two_segments :
    recordedTwoIntents.report true (loadOverrides (some "preview") fileForHeightFive) =
        .ok recordedTwoIntents.event ∧
      recordedTwoIntents.report true .empty ≠ .ok recordedTwoIntents.event := by
  obtain ⟨entries, hentries⟩ : ∃ entries,
      fetchUtxoOrdering (eventsAt recordedChain) (.stdin [5]) = some entries := ⟨_, rfl⟩
  have htransactions : ∀ b ∈ recordedChain, ∀ r ∈ b.transactions,
      b = ⟨5, [.otherPallet, .transaction recordedTwoIntents]⟩ ∧ r = recordedTwoIntents := by
    intro b hb r hr
    simp only [recordedChain, List.mem_cons, List.not_mem_nil, or_false] at hb
    rcases hb with rfl | rfl
    · exact absurd hr List.not_mem_nil
    · exact ⟨rfl, List.mem_singleton.1 hr⟩
  have hfile : fileForHeightFive ("res/utxo-ordering-override-" ++ "preview" ++ ".json") =
      some entries := hentries
  have hrecorded : ∀ b ∈ recordedChain, ∀ r ∈ b.transactions,
      r.Recorded true ∧ r.utxos.KeysName := by
    intro b hb r hr
    obtain ⟨-, rfl⟩ := htransactions b hb r hr
    exact ⟨recorded_recordedTwoIntents, by decide +kernel, by decide +kernel⟩
  have hsync := resync_iff_heights_cover hrecorded (by decide)
    (fun b hb r hr b' hb' r' hr' _ => by
      obtain ⟨rfl, rfl⟩ := htransactions b hb r hr
      obtain ⟨rfl, rfl⟩ := htransactions b' hb' r' hr'
      exact ⟨rfl, rfl⟩)
    hentries (.inl rfl) hfile
  refine ⟨hsync.2 (fun b hb hheight r hr => ?_) _ (List.mem_cons_of_mem _ List.mem_cons_self) _
    List.mem_cons_self, ?_⟩
  · obtain ⟨rfl, -⟩ := htransactions b hb r hr
    exact absurd (List.mem_singleton.2 rfl) hheight
  · intro h
    have hlists := (recorded_recordedTwoIntents.report_eq_ok_iff _).1 h
    exact absurd hlists (by decide +kernel)

end MidnightNode.Ledger
