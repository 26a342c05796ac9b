/-
# The life of a cNIGHT UTXO in the ledger

The events in the system transactions that the pallet executes open the generation of DUST for
a UTXO and close it again.  For a history in which a UTXO is created and spent at most once, in
this order, the events of its nonce are none, one `Create`, or one `Create` and one `Destroy`
with the same key, and the pallet notes the owners of exactly those that are open.

How the ledger reads a system transaction back is a parameter (`TxReader`), and so is what it
reads in an event (`Codec`): the key that the owner's bytes are deserialized to, not the bytes,
for the deserialization leaves off what follows the key.  The hash that nonces are made with is a
parameter of the pallet.
-/
import Mathlib.Data.Nat.Digits.Lemmas
import Mathlib.Logic.Equiv.List
import MidnightNode.Lib.Replay
import MidnightNode.Cnight.Book
import MidnightNode.Cnight.Inherent

namespace MidnightNode.Cnight

open Replay

variable {T : PalletConfig}

/-! ### Reading system transactions -/

/-- How the ledger reads the system transactions that the bridge constructs. -/
structure TxReader (T : PalletConfig) where
  /-- The DUST events of a system transaction, as bytes. -/
  decodeSystemTx : List UInt8 → List (List UInt8)
  /-- Constructed events make up a system transaction that is read back. -/
  decodeSystemTx_construct : ∀ events,
    (∀ bytes ∈ events, ∃ r, DustRequest.construct T r = some bytes) →
      ∃ tx, T.constructSystemTx events = some tx ∧ decodeSystemTx tx = events

/-- The event that is constructed for a request: its owner is the key that the bytes are
deserialized to. -/
def DustRequest.read {H K : Type} (deserialize : DustPublicKeyBytes → Option K)
    (r : DustRequest H) : Option (DustEvent H K) :=
  (deserialize r.owner).map fun owner => ⟨r.value, owner, r.time, r.action, r.nonce⟩

/-- How the ledger reads the DUST events as well. -/
structure Codec (T : PalletConfig) extends TxReader T where
  /-- `DustPublicKey`. -/
  Key : Type
  /-- `deserialize` of an owner.  It does not look at the bytes behind the key, so different
  bytes may have one key. -/
  deserialize : DustPublicKeyBytes → Option Key
  /-- Read a DUST event. -/
  decodeEvent : List UInt8 → Option (DustEvent T.Hash Key)
  /-- A constructed event is read back. -/
  decodeEvent_construct : ∀ r bytes, DustRequest.construct T r = some bytes →
    ∃ event, DustRequest.read deserialize r = some event ∧ decodeEvent bytes = some event

/-- Whether an event can be constructed depends on its owner only. -/
def ConstructsByOwner (T : PalletConfig) : Prop :=
  ∀ r r' : DustRequest T.Hash, r.owner = r'.owner →
    (r.construct T).isSome = (r'.construct T).isSome

/-- The DUST events in system transactions, as bytes. -/
def TxReader.eventBytes (C : TxReader T) (txs : List (List UInt8)) : List (List UInt8) :=
  txs.flatMap C.decodeSystemTx

/-- The DUST events in system transactions. -/
def Codec.dustEvents (C : Codec T) (txs : List (List UInt8)) : List (DustEvent T.Hash C.Key) :=
  (C.eventBytes txs).filterMap C.decodeEvent

/-- The events among those asked for that can be constructed. -/
def constructible (rs : List (DustRequest T.Hash)) : List (DustRequest T.Hash) :=
  rs.filter fun r => (r.construct T).isSome

lemma constructible_append (rs rs' : List (DustRequest T.Hash)) :
    constructible (rs ++ rs') = constructible rs ++ constructible rs' :=
  List.filter_append _ _

namespace TxReader

variable (C : TxReader T)

lemma eventBytes_append (txs txs' : List (List UInt8)) :
    C.eventBytes (txs ++ txs') = C.eventBytes txs ++ C.eventBytes txs' :=
  List.flatMap_append

/-- The system transaction of a call holds the events that can be constructed. -/
lemma eventBytes_systemTx (rs : List (DustRequest T.Hash)) :
    C.eventBytes (systemTx T rs).toList = rs.filterMap (DustRequest.construct T) := by
  rw [systemTx]
  by_cases hempty : (rs.filterMap (DustRequest.construct T)).isEmpty
  · rw [if_pos hempty, List.isEmpty_iff.1 hempty]
    rfl
  · rw [if_neg hempty]
    obtain ⟨tx, htx, hdecode⟩ := C.decodeSystemTx_construct
      (rs.filterMap (DustRequest.construct T)) (by
        intro bytes hbytes
        obtain ⟨r, -, hr⟩ := List.mem_filterMap.1 hbytes
        exact ⟨r, hr⟩)
    rw [htx, Option.toList_some, eventBytes, List.flatMap_singleton, hdecode]

/-- The events of a run are those that the UTXOs it processes ask for. -/
lemma eventBytes_executedTxs (ops : List Operation) (s : PalletState T) :
    C.eventBytes (executedTxs s ops) =
      (s.book.requests T (processed s ops)).filterMap (DustRequest.construct T) := by
  induction ops generalizing s with
  | nil => rfl
  | cons op ops ih =>
    rw [executedTxs, processed, C.eventBytes_append, C.eventBytes_systemTx, ih,
      Book.requests_append, List.filterMap_append, (op.apply_spec s).1]

end TxReader

namespace Codec

variable (C : Codec T)

/-- The bytes of what is constructed are read back. -/
lemma filterMap_decodeEvent (rs : List (DustRequest T.Hash)) :
    (rs.filterMap (DustRequest.construct T)).filterMap C.decodeEvent =
      (constructible rs).filterMap (DustRequest.read C.deserialize) := by
  induction rs with
  | nil => rfl
  | cons r rs ih =>
    cases hr : DustRequest.construct T r with
    | none => simpa [constructible, hr, List.filterMap_cons] using ih
    | some bytes =>
      obtain ⟨event, hread, hdecode⟩ := C.decodeEvent_construct r bytes hr
      simpa [constructible, hr, List.filterMap_cons, hread, hdecode] using ih

lemma dustEvents_executedTxs (ops : List Operation) (s : PalletState T) :
    C.dustEvents (executedTxs s ops) =
      (constructible (s.book.requests T (processed s ops))).filterMap
        (DustRequest.read C.deserialize) := by
  rw [dustEvents, C.eventBytes_executedTxs, C.filterMap_decodeEvent]

/-- What is constructed has a key. -/
lemma isSome_deserialize {rs : List (DustRequest T.Hash)} {r : DustRequest T.Hash}
    (h : r ∈ constructible rs) : (C.deserialize r.owner).isSome := by
  obtain ⟨bytes, hbytes⟩ := Option.isSome_iff_exists.1 (List.mem_filter.1 h).2
  obtain ⟨event, hread, -⟩ := C.decodeEvent_construct r bytes hbytes
  obtain ⟨key, hkey, -⟩ := Option.map_eq_some_iff.1 hread
  exact Option.isSome_iff_exists.2 ⟨key, hkey⟩

end Codec

/-! ### Histories of UTXOs -/

/-- The cNIGHT UTXO that is created, if one is. -/
def ObservedUtxo.created (u : ObservedUtxo) : Option (McTxHash × BitVec 16) :=
  match u.data with
  | .assetCreate data => some (data.utxoTxHash, data.utxoTxIndex)
  | _ => none

/-- The cNIGHT UTXO that is spent, if one is. -/
def ObservedUtxo.spent (u : ObservedUtxo) : Option (McTxHash × BitVec 16) :=
  match u.data with
  | .assetSpend data => some (data.utxoTxHash, data.utxoTxIndex)
  | _ => none

/-- Each UTXO is created at most once and spent at most once, and never before it is
created. -/
structure LifeCycle (us : List ObservedUtxo) : Prop where
  created_once : (us.filterMap ObservedUtxo.created).Nodup
  spent_once : (us.filterMap ObservedUtxo.spent).Nodup
  created_first : ∀ pre u post, us = pre ++ u :: post → ∀ x, u.spent = some x →
    x ∉ post.filterMap ObservedUtxo.created

lemma LifeCycle.of_append {us us' : List ObservedUtxo} (h : LifeCycle (us ++ us')) :
    LifeCycle us where
  created_once := by
    have hnodup := h.created_once
    rw [List.filterMap_append] at hnodup
    exact hnodup.of_append_left
  spent_once := by
    have hnodup := h.spent_once
    rw [List.filterMap_append] at hnodup
    exact hnodup.of_append_left
  created_first := by
    rintro pre u post rfl x hx hmem
    refine h.created_first pre u (post ++ us') (by simp) x hx ?_
    rw [List.filterMap_append]
    exact List.mem_append_left _ hmem

variable (T) in
/-- The nonce of a UTXO. -/
def nonceOf (x : McTxHash × BitVec 16) : T.Hash :=
  assetCreateNonce T x.1 x.2

/-- The preimage of a nonce tells the UTXO. -/
lemma nonceOf_injective (h : Function.Injective T.hash) : Function.Injective (nonceOf T) := by
  rintro ⟨txHash, index⟩ ⟨txHash', index'⟩ heq
  have hpre := h heq
  have hindex : index = index' := by
    have hwidth := congrArg (BitVec.setWidth 16) hpre
    rwa [BitVec.setWidth_append_eq_right, BitVec.setWidth_append_eq_right] at hwidth
  subst hindex
  exact Prod.ext ((BitVec.append_right_inj _).1 ((BitVec.append_left_inj _).1 hpre)) rfl

/-! ### The events of a nonce -/

/-- What the events of a nonce do, and for which key. -/
def actions {K : Type} (n : T.Hash) (rs : List (DustEvent T.Hash K)) :
    List (UtxoActionType × K) :=
  (rs.filter fun r => r.nonce = n).map fun r => (r.action, r.owner)

/-- Creating switches DUST generation on, and destroying switches it off. -/
def actionSwitch : UtxoActionType × DustPublicKeyBytes → Switch DustPublicKeyBytes
  | (.create, key) => .on key
  | (.destroy, key) => .off key

lemma actionSwitch_injective : Function.Injective actionSwitch := by
  rintro ⟨_ | _, k⟩ ⟨_ | _, k'⟩ h <;> simp_all [actionSwitch]

/-- The log of a nonce. -/
def dustLog (n : T.Hash) (rs : List (DustRequest T.Hash)) : List (Switch DustPublicKeyBytes) :=
  (actions n (constructible rs)).map actionSwitch

lemma dustLog_append (n : T.Hash) (rs rs' : List (DustRequest T.Hash)) :
    dustLog n (rs ++ rs') = dustLog n rs ++ dustLog n rs' := by
  simp only [dustLog, actions, constructible_append, List.filter_append, List.map_append]

/-- The log of a single request. -/
lemma dustLog_singleton (n : T.Hash) (r : DustRequest T.Hash) :
    dustLog n [r] =
      if (r.construct T).isSome ∧ r.nonce = n then [actionSwitch (r.action, r.owner)] else [] := by
  by_cases hc : (r.construct T).isSome <;> by_cases hn : r.nonce = n <;>
    simp [dustLog, actions, constructible, hc, hn]

lemma mem_dustLog {n : T.Hash} {rs : List (DustRequest T.Hash)}
    {e : Switch DustPublicKeyBytes} :
    e ∈ dustLog n rs ↔ ∃ r ∈ constructible rs, r.nonce = n ∧
      actionSwitch (r.action, r.owner) = e := by
  simp only [dustLog, actions, List.map_map, List.mem_map, List.mem_filter, decide_eq_true_eq,
    Function.comp_apply, and_assoc]

namespace Book

variable {b : Book T.Hash} {u : ObservedUtxo} {n : T.Hash}

/-- The request of a create is for its nonce and for the key its owner has registered. -/
lemma request_assetCreate {header : ObservedUtxoHeader} {data : CreateData}
    {r : DustRequest T.Hash} (hr : b.request T ⟨header, .assetCreate data⟩ = some r) :
    r.action = .create ∧ r.nonce = nonceOf T (data.utxoTxHash, data.utxoTxIndex) ∧
      b.getRegistration data.owner = some r.owner := by
  obtain ⟨key, hkey, rfl⟩ := Option.map_eq_some_iff.1 hr
  exact ⟨rfl, rfl, hkey⟩

/-- The request of a spend is for its nonce. -/
lemma request_assetSpend {header : ObservedUtxoHeader} {data : SpendData}
    {r : DustRequest T.Hash} (hr : b.request T ⟨header, .assetSpend data⟩ = some r) :
    r.action = .destroy ∧ r.nonce = nonceOf T (data.utxoTxHash, data.utxoTxIndex) := by
  obtain ⟨key, -, rfl⟩ := Option.map_eq_some_iff.1 hr
  exact ⟨rfl, rfl⟩

/-- A create of a UTXO that is not open keeps the log of a nonce in step with the book. -/
lemma replay_dustLog_assetCreate {header : ObservedUtxoHeader} {data : CreateData}
    (hfresh : nonceOf T (data.utxoTxHash, data.utxoTxIndex) = n → b.utxoOwners n = none) :
    replay Switch.next (b.utxoOwners n)
        (dustLog n (b.request T ⟨header, .assetCreate data⟩).toList) =
      some ((b.step T ⟨header, .assetCreate data⟩).utxoOwners n) := by
  cases hr : b.request T ⟨header, .assetCreate data⟩ with
  | none =>
    simp only [step, hr]
    rfl
  | some r =>
    obtain ⟨haction, hnonce, -⟩ := request_assetCreate hr
    rw [Option.toList_some, dustLog_singleton, haction, hnonce]
    simp only [step, hr]
    by_cases hc : (r.construct T).isSome
    · by_cases hn : nonceOf T (data.utxoTxHash, data.utxoTxIndex) = n
      · rw [if_pos ⟨hc, hn⟩, if_pos hc, hfresh hn, setOwner_utxoOwners]
        have hn' : assetCreateNonce T data.utxoTxHash data.utxoTxIndex = n := hn
        simp [actionSwitch, hn']
      · have hn' : n ≠ assetCreateNonce T data.utxoTxHash data.utxoTxIndex := Ne.symm hn
        rw [if_neg (fun h => hn h.2), if_pos hc, setOwner_utxoOwners, Function.update_of_ne hn']
        rfl
    · rw [if_neg (fun h => hc h.1), if_neg hc]
      rfl

/-- A spend does so as well, if closing can be constructed. -/
lemma replay_dustLog_assetSpend {header : ObservedUtxoHeader} {data : SpendData}
    (hopen : ∀ r : DustRequest T.Hash, b.utxoOwners n = some r.owner →
      (r.construct T).isSome) :
    replay Switch.next (b.utxoOwners n)
        (dustLog n (b.request T ⟨header, .assetSpend data⟩).toList) =
      some ((b.step T ⟨header, .assetSpend data⟩).utxoOwners n) := by
  simp only [step, setOwner_utxoOwners]
  by_cases hn : nonceOf T (data.utxoTxHash, data.utxoTxIndex) = n
  · have hn' : assetCreateNonce T data.utxoTxHash data.utxoTxIndex = n := hn
    rw [hn', Function.update_self]
    cases hkey : b.utxoOwners n with
    | none =>
      simp only [request, hn', hkey]
      rfl
    | some key =>
      simp only [request, hn', hkey, Option.map_some, Option.toList_some]
      rw [dustLog_singleton, if_pos ⟨hopen _ hkey, rfl⟩]
      simp [actionSwitch]
  · have hn' : n ≠ assetCreateNonce T data.utxoTxHash data.utxoTxIndex := Ne.symm hn
    rw [Function.update_of_ne hn']
    cases hr : b.request T ⟨header, .assetSpend data⟩ with
    | none => rfl
    | some r =>
      rw [Option.toList_some, dustLog_singleton,
        if_neg (fun h => hn ((request_assetSpend hr).2.symm.trans h.2))]
      rfl

/-- A UTXO keeps the log of a nonce in step with the book, if it does not create a UTXO that is
open, and closing can be constructed. -/
lemma replay_dustLog_request
    (hfresh : ∀ x, u.created = some x → nonceOf T x = n → b.utxoOwners n = none)
    (hopen : ∀ r : DustRequest T.Hash, b.utxoOwners n = some r.owner →
      (r.construct T).isSome) :
    replay Switch.next (b.utxoOwners n) (dustLog n (b.request T u).toList) =
      some ((b.step T u).utxoOwners n) := by
  obtain ⟨header, data⟩ := u
  cases data with
  | registration data => rfl
  | deregistration data => rfl
  | assetCreate data => exact replay_dustLog_assetCreate (hfresh _ rfl)
  | assetSpend data => exact replay_dustLog_assetSpend hopen

/-- A UTXO opens a nonce only if it creates the UTXO of that nonce. -/
lemma onCount_dustLog_request_le (b : Book T.Hash) (u : ObservedUtxo) (n : T.Hash) :
    Switch.onCount (dustLog n (b.request T u).toList) ≤
      ((u.created.toList).map (nonceOf T)).count n := by
  cases hr : b.request T u with
  | none => simp [dustLog, actions, constructible, Switch.onCount]
  | some r =>
    rw [Option.toList_some, dustLog_singleton]
    obtain ⟨header, data⟩ := u
    cases data with
    | registration data => exact absurd hr (by simp [request])
    | deregistration data => exact absurd hr (by simp [request])
    | assetCreate data =>
      obtain ⟨haction, hnonce, -⟩ := request_assetCreate hr
      rw [haction, hnonce]
      split
      · rename_i h
        simp [ObservedUtxo.created, actionSwitch, Switch.onCount, h.2]
      · exact Nat.zero_le _
    | assetSpend data =>
      rw [(request_assetSpend hr).1]
      split <;> exact Nat.zero_le _

/-- A nonce is opened at most as often as UTXOs with that nonce are created. -/
lemma onCount_dustLog_le (us : List ObservedUtxo) (b : Book T.Hash) (n : T.Hash) :
    Switch.onCount (dustLog n (b.requests T us)) ≤
      ((us.filterMap ObservedUtxo.created).map (nonceOf T)).count n := by
  induction us generalizing b with
  | nil => simp [requests, dustLog, actions, constructible, Switch.onCount]
  | cons u us ih =>
    have hcons : (u :: us).filterMap ObservedUtxo.created =
        u.created.toList ++ us.filterMap ObservedUtxo.created := by
      rw [List.filterMap_cons]
      cases u.created <;> rfl
    rw [requests, dustLog_append, Switch.onCount_append, hcons, List.map_append,
      List.count_append]
    exact Nat.add_le_add (onCount_dustLog_request_le b u n) (ih _)

/-- A nonce that is open was opened for its owner. -/
lemma exists_create_of_owner {rs : List (DustRequest T.Hash)} {key : DustPublicKeyBytes}
    (h : replay Switch.next none (dustLog n rs) = some (some key)) :
    ∃ r ∈ constructible rs, r.action = .create ∧ r.nonce = n ∧ r.owner = key := by
  rcases (Switch.replay_eq_some_iff_getLast h key).1 rfl with hlast | ⟨-, hnone⟩
  · obtain ⟨r, hr, hn, hswitch⟩ := mem_dustLog.1 (List.mem_of_getLast? hlast)
    have hpair : (r.action, r.owner) = (.create, key) := actionSwitch_injective hswitch
    exact ⟨r, hr, congrArg Prod.fst hpair, hn, congrArg Prod.snd hpair⟩
  · exact absurd hnone (by simp)

/-- The owners in the book are in step with the log of every nonce, if no UTXO is created
twice. -/
lemma replay_dustLog_requests (hinj : Function.Injective T.hash) (howner : ConstructsByOwner T)
    (hb : ∀ n, b.utxoOwners n = none) (us : List ObservedUtxo)
    (h : (us.filterMap ObservedUtxo.created).Nodup) (n : T.Hash) :
    replay Switch.next none (dustLog n (b.requests T us)) =
      some ((b.run T us).utxoOwners n) := by
  -- By induction from the right: what is created last was not created before.
  induction us using List.reverseRecOn with
  | nil =>
    rw [run_nil, hb n]
    rfl
  | append_singleton us u ih =>
    rw [List.filterMap_append] at h
    have hus := ih h.of_append_left
    have hlast : (b.run T us).requests T [u] = ((b.run T us).request T u).toList := by
      simp [requests]
    rw [requests_append, dustLog_append, run_append, hlast]
    refine replay_trans hus (replay_dustLog_request ?_ ?_)
    · intro x hx hn
      have hcount : ((us.filterMap ObservedUtxo.created).map (nonceOf T)).count n = 0 := by
        refine List.count_eq_zero_of_not_mem (fun hmem => ?_)
        obtain ⟨y, hy, hyn⟩ := List.mem_map.1 hmem
        obtain rfl := nonceOf_injective hinj (hyn.trans hn.symm)
        exact (List.nodup_append.1 h).2.2 y hy y (by simp [hx]) rfl
      have hzero := Nat.le_zero.1 (hcount ▸ onCount_dustLog_le us b n)
      exact (Switch.eq_nil_of_onCount_eq_zero hus hzero).2
    · intro r hr
      rw [hr] at hus
      obtain ⟨r', hr', -, -, hsame⟩ := exists_create_of_owner hus
      rw [howner r r' hsame.symm]
      exact (List.mem_filter.1 hr').2

/-- What is asked for is asked for by one of the UTXOs, in the book before it. -/
lemma mem_requests_iff {us : List ObservedUtxo} {r : DustRequest T.Hash} :
    r ∈ b.requests T us ↔
      ∃ pre u post, us = pre ++ u :: post ∧ (b.run T pre).request T u = some r := by
  constructor
  · intro hr
    induction us generalizing b with
    | nil => exact absurd hr (by simp [requests])
    | cons u us ih =>
      rw [requests, List.mem_append, Option.mem_toList] at hr
      rcases hr with hr | hr
      · exact ⟨[], u, us, rfl, hr⟩
      · obtain ⟨pre, v, post, rfl, hv⟩ := ih hr
        exact ⟨u :: pre, v, post, rfl, hv⟩
  · rintro ⟨pre, u, post, rfl, hu⟩
    rw [requests_append, requests, hu]
    simp

/-- An event that creates comes from a UTXO that was created when its owner was registered. -/
lemma created_of_request {r : DustRequest T.Hash} (hr : b.request T u = some r)
    (hcreate : r.action = .create) :
    ∃ header data, u = ⟨header, .assetCreate data⟩ ∧
      r.nonce = assetCreateNonce T data.utxoTxHash data.utxoTxIndex ∧
      b.getRegistration data.owner = some r.owner := by
  obtain ⟨header, data⟩ := u
  cases data with
  | registration data => exact absurd hr (by simp [request])
  | deregistration data => exact absurd hr (by simp [request])
  | assetCreate data =>
    obtain ⟨-, hnonce, hkey⟩ := request_assetCreate hr
    exact ⟨header, data, rfl, hnonce, hkey⟩
  | assetSpend data => exact absurd hcreate (by simp [(request_assetSpend hr).1])

/-- An event that destroys comes from a UTXO that was spent. -/
lemma spent_of_request {r : DustRequest T.Hash} (hr : b.request T u = some r)
    (hdestroy : r.action = .destroy) : ∃ x, u.spent = some x ∧ r.nonce = nonceOf T x := by
  obtain ⟨header, data⟩ := u
  cases data with
  | registration data => exact absurd hr (by simp [request])
  | deregistration data => exact absurd hr (by simp [request])
  | assetCreate data => exact absurd hdestroy (by simp [(request_assetCreate hr).1])
  | assetSpend data =>
    exact ⟨(data.utxoTxHash, data.utxoTxIndex), rfl, (request_assetSpend hr).2⟩

end Book

/-! ### Consistency -/

/-- DUST generation is opened and closed consistently by the events `events` for the UTXOs
`us`, from the book `b` to the owners `owners`.  The events have keys, and the book has their
bytes. -/
structure DustConsistent {K : Type} (deserialize : DustPublicKeyBytes → Option K)
    (b : Book T.Hash) (us : List ObservedUtxo) (events : List (DustEvent T.Hash K))
    (owners : T.Hash → Option DustPublicKeyBytes) : Prop where
  /-- A nonce has at most one `Create`, followed by at most one `Destroy` with its key. -/
  forms : ∀ n, actions n events = [] ∨ ∃ key, actions n events = [(.create, key)] ∨
    actions n events = [(.create, key), (.destroy, key)]
  /-- The key of a `Create` is the one registered for the owner when the UTXO was created. -/
  key : ∀ r ∈ events, r.action = .create → ∃ pre header data post,
    us = pre ++ ⟨header, .assetCreate data⟩ :: post ∧
      r.nonce = assetCreateNonce T data.utxoTxHash data.utxoTxIndex ∧
      (b.run T pre).getRegistration data.owner >>= deserialize = some r.owner
  /-- A UTXO that is spent and whose `Create` was emitted has a `Destroy`. -/
  closed : ∀ u ∈ us, ∀ x, u.spent = some x →
    (∃ r ∈ events, r.action = .create ∧ r.nonce = nonceOf T x) →
      ∃ r ∈ events, r.action = .destroy ∧ r.nonce = nonceOf T x
  /-- The owners noted are those of the nonces with a `Create` and no `Destroy`. -/
  owners_iff : ∀ n, owners n ≠ none ↔
    (∃ r ∈ events, r.action = .create ∧ r.nonce = n) ∧
      ¬ ∃ r ∈ events, r.action = .destroy ∧ r.nonce = n

lemma mem_actions {K : Type} {n : T.Hash} {rs : List (DustEvent T.Hash K)}
    {action : UtxoActionType} :
    (∃ r ∈ rs, r.action = action ∧ r.nonce = n) ↔ ∃ key, (action, key) ∈ actions n rs := by
  simp only [actions, List.mem_map, List.mem_filter, decide_eq_true_eq, Prod.mk.injEq]
  constructor
  · rintro ⟨r, hr, hact, hn⟩
    exact ⟨r.owner, r, ⟨hr, hn⟩, hact, rfl⟩
  · rintro ⟨key, r, ⟨hr, hn⟩, hact, -⟩
    exact ⟨r, hr, hact, hn⟩

namespace Book

variable {b : Book T.Hash} {us : List ObservedUtxo}

/-- What the events of a nonce look like, with the owner that is noted. -/
lemma actions_cases (hinj : Function.Injective T.hash) (howner : ConstructsByOwner T)
    (hb : ∀ n, b.utxoOwners n = none) (h : (us.filterMap ObservedUtxo.created).Nodup)
    (n : T.Hash) :
    (actions n (constructible (b.requests T us)) = [] ∧ (b.run T us).utxoOwners n = none) ∨
      ∃ key, (actions n (constructible (b.requests T us)) = [(.create, key)] ∧
          (b.run T us).utxoOwners n = some key) ∨
        (actions n (constructible (b.requests T us)) = [(.create, key), (.destroy, key)] ∧
          (b.run T us).utxoOwners n = none) := by
  have hmap : ∀ l, dustLog n (b.requests T us) = l.map actionSwitch →
      actions n (constructible (b.requests T us)) = l :=
    fun l hl => List.map_injective_iff.2 actionSwitch_injective hl
  have hcount : Switch.onCount (dustLog n (b.requests T us)) ≤ 1 :=
    (onCount_dustLog_le us b n).trans
      (List.nodup_iff_count_le_one.1 (h.map (nonceOf_injective hinj)) n)
  rcases Switch.replay_shape (replay_dustLog_requests hinj howner hb us h n) hcount with
    ⟨hlog, hown⟩ | ⟨key, ⟨hlog, hown⟩ | ⟨hlog, hown⟩⟩
  · exact Or.inl ⟨hmap [] hlog, hown⟩
  · exact Or.inr ⟨key, Or.inl ⟨hmap [(.create, key)] hlog, hown⟩⟩
  · exact Or.inr ⟨key, Or.inr ⟨hmap [(.create, key), (.destroy, key)] hlog, hown⟩⟩

section Spend

variable {pre post : List ObservedUtxo} {u : ObservedUtxo} {x : McTxHash × BitVec 16}

/-- A UTXO whose `Create` is emitted has it emitted before it is spent: it is not created
afterwards. -/
lemma create_before_spend (hinj : Function.Injective T.hash) (h : LifeCycle (pre ++ u :: post))
    (hx : u.spent = some x) {r : DustRequest T.Hash} (hr : r ∈ b.requests T (pre ++ u :: post))
    (hact : r.action = .create) (hn : r.nonce = nonceOf T x) : r ∈ b.requests T pre := by
  obtain ⟨pre', v, post', hsplit, hv⟩ := mem_requests_iff.1 hr
  obtain ⟨header, data, rfl, hnonce, -⟩ := created_of_request hv hact
  have hxdata : x = (data.utxoTxHash, data.utxoTxIndex) :=
    nonceOf_injective hinj (hn.symm.trans hnonce)
  have hne : ∀ l l', u :: l ≠ (⟨header, .assetCreate data⟩ : ObservedUtxo) :: l' := by
    intro l l' heq
    rw [(List.cons.inj heq).1] at hx
    exact absurd hx (by simp [ObservedUtxo.spent])
  rcases List.append_eq_append_iff.1 hsplit with ⟨c, rfl, hpost⟩ | ⟨c, rfl, hpost⟩
  · cases c with
    | nil => exact absurd hpost (hne _ _)
    | cons w c =>
      obtain ⟨rfl, rfl⟩ := List.cons.inj hpost
      refine absurd ?_ (h.created_first pre u _ rfl x hx)
      rw [hxdata]
      exact List.mem_filterMap.2 ⟨⟨header, .assetCreate data⟩, by simp, rfl⟩
  · cases c with
    | nil => exact absurd hpost.symm (hne _ _)
    | cons w c =>
      obtain ⟨rfl, -⟩ := List.cons.inj hpost
      exact mem_requests_iff.2 ⟨pre', _, c, rfl, hv⟩

/-- It is still open then: it is spent only once. -/
lemma open_before_spend (hinj : Function.Injective T.hash) (howner : ConstructsByOwner T)
    (hb : ∀ n, b.utxoOwners n = none) (h : LifeCycle (pre ++ u :: post))
    (hx : u.spent = some x)
    (hcreate : ∃ r ∈ constructible (b.requests T pre), r.action = .create ∧
      r.nonce = nonceOf T x) :
    ∃ key, (b.run T pre).utxoOwners (nonceOf T x) = some key := by
  have hpre : LifeCycle pre := h.of_append
  rcases actions_cases hinj howner hb hpre.created_once (nonceOf T x) with
    ⟨hnil, -⟩ | ⟨key, ⟨-, hown⟩ | ⟨hboth, -⟩⟩
  · rw [mem_actions, hnil] at hcreate
    exact absurd hcreate (by simp)
  · exact ⟨key, hown⟩
  · have hdestroy : ∃ r ∈ constructible (b.requests T pre), r.action = .destroy ∧
        r.nonce = nonceOf T x := mem_actions.2 ⟨key, by rw [hboth]; simp⟩
    obtain ⟨r, hr, hact, hn⟩ := hdestroy
    obtain ⟨pre', v, post', rfl, hv⟩ := mem_requests_iff.1 (List.mem_filter.1 hr).1
    obtain ⟨y, hy, hny⟩ := spent_of_request hv hact
    obtain rfl := nonceOf_injective hinj (hn.symm.trans hny)
    have hnodup := h.spent_once
    rw [List.filterMap_append] at hnodup
    refine absurd rfl ((List.nodup_append.1 hnodup).2.2 x ?_ x ?_)
    · exact List.mem_filterMap.2 ⟨v, by simp, hy⟩
    · exact List.mem_filterMap.2 ⟨u, by simp, hx⟩

/-- So its `Destroy` is emitted when it is spent. -/
lemma exists_destroy (hinj : Function.Injective T.hash) (howner : ConstructsByOwner T)
    (hb : ∀ n, b.utxoOwners n = none) (h : LifeCycle (pre ++ u :: post))
    (hx : u.spent = some x)
    (hcreate : ∃ r ∈ constructible (b.requests T (pre ++ u :: post)), r.action = .create ∧
      r.nonce = nonceOf T x) :
    ∃ r ∈ constructible (b.requests T (pre ++ u :: post)), r.action = .destroy ∧
      r.nonce = nonceOf T x := by
  obtain ⟨r, hr, hact, hn⟩ := hcreate
  obtain ⟨hr, hc⟩ := List.mem_filter.1 hr
  obtain ⟨key, hkey⟩ := open_before_spend hinj howner hb h hx
    ⟨r, List.mem_filter.2 ⟨create_before_spend hinj h hx hr hact hn, hc⟩, hact, hn⟩
  have hlog := replay_dustLog_requests hinj howner hb pre h.of_append.created_once (nonceOf T x)
  rw [hkey] at hlog
  obtain ⟨r₀, hr₀, -, -, hsame⟩ := exists_create_of_owner hlog
  obtain ⟨header, data⟩ := u
  cases data with
  | registration data => exact absurd hx (by simp [ObservedUtxo.spent])
  | deregistration data => exact absurd hx (by simp [ObservedUtxo.spent])
  | assetCreate data => exact absurd hx (by simp [ObservedUtxo.spent])
  | assetSpend data =>
    obtain rfl := Option.some.inj hx
    have hreq : (b.run T pre).request T ⟨header, .assetSpend data⟩ =
        some ⟨data.value, key, timestampSeconds header.txPosition, .destroy,
          nonceOf T (data.utxoTxHash, data.utxoTxIndex)⟩ := by
      simp only [request]
      exact congrArg (Option.map _) hkey
    refine ⟨_, List.mem_filter.2 ⟨mem_requests_iff.2 ⟨pre, _, post, rfl, hreq⟩, ?_⟩, rfl, rfl⟩
    have hsome := howner ⟨data.value, key, timestampSeconds header.txPosition, .destroy,
      nonceOf T (data.utxoTxHash, data.utxoTxIndex)⟩ r₀ hsame.symm
    rw [hsome]
    exact (List.mem_filter.1 hr₀).2

end Spend

/-- The events that the UTXOs of a history ask for are consistent. -/
lemma dustConsistent (hinj : Function.Injective T.hash) (howner : ConstructsByOwner T)
    (hb : ∀ n, b.utxoOwners n = none) (h : LifeCycle us) :
    DustConsistent some b us (constructible (b.requests T us)) (b.run T us).utxoOwners where
  forms n := by
    rcases actions_cases hinj howner hb h.created_once n with
      ⟨hform, -⟩ | ⟨key, ⟨hform, -⟩ | ⟨hform, -⟩⟩
    · exact Or.inl hform
    · exact Or.inr ⟨key, Or.inl hform⟩
    · exact Or.inr ⟨key, Or.inr hform⟩
  key r hr hact := by
    obtain ⟨pre, u, post, rfl, hu⟩ := mem_requests_iff.1 (List.mem_filter.1 hr).1
    obtain ⟨header, data, rfl, hn, hkey⟩ := created_of_request hu hact
    exact ⟨pre, header, data, post, rfl, hn, by rw [hkey]; rfl⟩
  closed u hu x hx hcreate := by
    obtain ⟨pre, post, rfl⟩ := List.append_of_mem hu
    exact exists_destroy hinj howner hb h hx hcreate
  owners_iff n := by
    rw [mem_actions, mem_actions]
    rcases actions_cases hinj howner hb h.created_once n with
      ⟨hform, hown⟩ | ⟨key, ⟨hform, hown⟩ | ⟨hform, hown⟩⟩ <;> simp [hform, hown]

end Book

/-! ### From the bytes of the owners to their keys -/

section Read

variable {K : Type} {deserialize : DustPublicKeyBytes → Option K}
  {rs : List (DustRequest T.Hash)}

/-- An event has the action and the nonce of its request, and the key of its owner. -/
lemma DustRequest.read_eq_some {r : DustRequest T.Hash} {event : DustEvent T.Hash K}
    (h : DustRequest.read deserialize r = some event) :
    event.action = r.action ∧ event.nonce = r.nonce ∧
      deserialize r.owner = some event.owner := by
  obtain ⟨owner, howner, rfl⟩ := Option.map_eq_some_iff.1 h
  exact ⟨rfl, rfl, howner⟩

/-- What the events of a nonce do is read off the requests. -/
lemma actions_read (n : T.Hash) (rs : List (DustRequest T.Hash)) :
    actions n (rs.filterMap (DustRequest.read deserialize)) =
      (actions n rs).filterMap fun a => (deserialize a.2).map (a.1, ·) := by
  induction rs with
  | nil => rfl
  | cons r rs ih =>
    by_cases hn : r.nonce = n <;> cases hkey : deserialize r.owner <;>
      simpa [actions, DustRequest.read, hn, hkey, List.filterMap_cons] using ih

/-- Requests whose owners have keys have events. -/
lemma exists_read_iff (hkeys : ∀ r ∈ rs, (deserialize r.owner).isSome)
    {action : UtxoActionType} {n : T.Hash} :
    (∃ event ∈ rs.filterMap (DustRequest.read deserialize),
        event.action = action ∧ event.nonce = n) ↔
      ∃ r ∈ rs, r.action = action ∧ r.nonce = n := by
  constructor
  · rintro ⟨event, hevent, hact, hn⟩
    obtain ⟨r, hr, hread⟩ := List.mem_filterMap.1 hevent
    obtain ⟨hact', hn', -⟩ := DustRequest.read_eq_some hread
    exact ⟨r, hr, hact'.symm.trans hact, hn'.symm.trans hn⟩
  · rintro ⟨r, hr, hact, hn⟩
    obtain ⟨key, hkey⟩ := Option.isSome_iff_exists.1 (hkeys r hr)
    refine ⟨⟨r.value, key, r.time, r.action, r.nonce⟩, List.mem_filterMap.2 ⟨r, hr, ?_⟩, hact, hn⟩
    rw [DustRequest.read, hkey]
    rfl

/-- Consistent requests make consistent events, if all their owners have keys. -/
lemma DustConsistent.read {b : Book T.Hash} {us : List ObservedUtxo}
    {owners : T.Hash → Option DustPublicKeyBytes} (h : DustConsistent some b us rs owners)
    (hkeys : ∀ r ∈ rs, (deserialize r.owner).isSome) :
    DustConsistent deserialize b us (rs.filterMap (DustRequest.read deserialize)) owners where
  forms n := by
    have hkey : ∀ action bytes, (action, bytes) ∈ actions n rs →
        ∃ key, deserialize bytes = some key := by
      intro action bytes hmem
      obtain ⟨r, hr, heq⟩ := List.mem_map.1 hmem
      rw [← (Prod.mk.inj heq).2]
      exact Option.isSome_iff_exists.1 (hkeys r (List.mem_filter.1 hr).1)
    rw [actions_read]
    rcases h.forms n with hform | ⟨bytes, hform | hform⟩
    · exact Or.inl (by rw [hform]; rfl)
    · obtain ⟨key, hkey⟩ := hkey .create bytes (by simp [hform])
      exact Or.inr ⟨key, Or.inl (by simp [hform, hkey])⟩
    · obtain ⟨key, hkey⟩ := hkey .create bytes (by simp [hform])
      exact Or.inr ⟨key, Or.inr (by simp [hform, hkey])⟩
  key event hevent hact := by
    obtain ⟨r, hr, hread⟩ := List.mem_filterMap.1 hevent
    obtain ⟨hact', hn, howner⟩ := DustRequest.read_eq_some hread
    obtain ⟨pre, header, data, post, hus, hnonce, hreg⟩ := h.key r hr (hact'.symm.trans hact)
    refine ⟨pre, header, data, post, hus, hn.trans hnonce, ?_⟩
    rw [Option.bind_eq_bind, Option.bind_fun_some] at hreg
    rw [hreg]
    exact howner
  closed u hu x hx hcreate :=
    (exists_read_iff hkeys).2 (h.closed u hu x hx ((exists_read_iff hkeys).1 hcreate))
  owners_iff n := by
    rw [exists_read_iff hkeys, exists_read_iff hkeys]
    exact h.owners_iff n

end Read

/-- **DUST generation is opened and closed consistently.**  From a storage without open UTXOs,
for any operations whose processed UTXOs are created and spent at most once, and not spent
before they are created: the ledger is the one before with `executedTxs` executed, and the
events in these system transactions are consistent. -/
theorem dust_generation_consistent (C : Codec T) (hinj : Function.Injective T.hash)
    (howner : ConstructsByOwner T) (s : PalletState T) (hs : ∀ n, s.utxoOwners n = none)
    (ops : List Operation) (h : LifeCycle (processed s ops)) :
    (executedTxs s ops).foldlM
        (fun ledger tx => (T.executeSystemTransaction ledger tx).map Prod.fst) s.ledger =
      .ok (run s ops).ledger ∧
    DustConsistent C.deserialize s.book (processed s ops) (C.dustEvents (executedTxs s ops))
      (run s ops).utxoOwners := by
  refine ⟨ledger_run ops s, ?_⟩
  have howners : (run s ops).utxoOwners = (s.book.run T (processed s ops)).utxoOwners := by
    rw [← book_run]
    rfl
  rw [C.dustEvents_executedTxs, howners]
  exact (Book.dustConsistent hinj howner hs h).read fun _ hr => C.isSome_deserialize hr

/-! ### A ledger with a plain encoding -/

/-- A number as bytes, the least significant first. -/
def natBytes (n : ℕ) : List UInt8 :=
  (Nat.digits 256 n).map UInt8.ofNat

/-- The number that bytes stand for. -/
def bytesNat (bytes : List UInt8) : ℕ :=
  Nat.ofDigits 256 (bytes.map UInt8.toNat)

lemma bytesNat_natBytes (n : ℕ) : bytesNat (natBytes n) = n := by
  have hdigits : ((Nat.digits 256 n).map UInt8.ofNat).map UInt8.toNat = Nat.digits 256 n := by
    rw [List.map_map]
    refine (List.map_congr_left fun d hd => ?_).trans (List.map_id _)
    have hlt : d < 256 := Nat.digits_lt_base (by decide) hd
    exact UInt8.toNat_ofNat_of_lt' hlt
  rw [bytesNat, natBytes, hdigits, Nat.ofDigits_digits]

/-- The fields of an event in one number. -/
def eventCode (event : DustEvent (BitVec 368) UInt8) : ℕ :=
  Nat.pair event.value.toNat (Nat.pair event.owner.toNat (Nat.pair event.time
    (Nat.pair (if event.action = .create then 0 else 1) event.nonce.toNat)))

/-- The event of a number. -/
def decodeEventCode (code : ℕ) : DustEvent (BitVec 368) UInt8 :=
  let (value, rest) := Nat.unpair code
  let (owner, rest) := Nat.unpair rest
  let (time, rest) := Nat.unpair rest
  let (action, nonce) := Nat.unpair rest
  ⟨BitVec.ofNat 128 value, UInt8.ofNat owner, time, if action = 0 then .create else .destroy,
    BitVec.ofNat 368 nonce⟩

lemma decodeEventCode_eventCode (event : DustEvent (BitVec 368) UInt8) :
    decodeEventCode (eventCode event) = event := by
  obtain ⟨value, owner, time, action, nonce⟩ := event
  simp only [decodeEventCode, eventCode, Nat.unpair_pair, UInt8.ofNat_toNat,
    BitVec.ofNat_toNat, BitVec.setWidth_eq]
  cases action <;> rfl

/-- The bytes of all events in one number. -/
def systemTxCode (events : List (List UInt8)) : ℕ :=
  Encodable.encode (events.map (List.map UInt8.toNat))

/-- The key of an owner is its first byte, and the bytes behind it are ignored. -/
def plainKey (owner : DustPublicKeyBytes) : Option UInt8 :=
  owner.bytes.head?

/-- A ledger that accepts every system transaction. -/
def plainPallet : PalletConfig where
  Hash := BitVec 368
  hashDecEq := inferInstance
  hash := id
  Ledger := Unit
  LedgerHash := Unit
  constructEvent := fun value owner time action nonce =>
    (DustRequest.read plainKey ⟨value, owner, time, action, nonce⟩).map fun event =>
      natBytes (eventCode event)
  constructSystemTx := fun events => some (natBytes (systemTxCode events))
  executeSystemTransaction := fun _ _ => .ok ((), ())
  weightProcessTokens := fun n => ⟨n, 0⟩

lemma constructsByOwner_plain : ConstructsByOwner plainPallet := by
  have hsome : ∀ r, (DustRequest.construct plainPallet r).isSome = (plainKey r.owner).isSome := by
    intro r
    exact Option.isSome_map.trans Option.isSome_map
  intro r r' howner
  rw [hsome, hsome, howner]

/-- Reading what it constructs. -/
def plainCodec : Codec plainPallet where
  decodeSystemTx := fun tx =>
    ((Encodable.decode (bytesNat tx) : Option (List (List ℕ))).getD []).map (List.map UInt8.ofNat)
  decodeSystemTx_construct := by
    intro events _
    refine ⟨_, rfl, ?_⟩
    rw [bytesNat_natBytes, systemTxCode, Encodable.encodek, Option.getD_some, List.map_map]
    refine (List.map_congr_left fun bytes _ => ?_).trans (List.map_id _)
    rw [Function.comp_apply, List.map_map]
    exact (List.map_congr_left fun x _ => UInt8.ofNat_toNat).trans (List.map_id _)
  Key := UInt8
  deserialize := plainKey
  decodeEvent := fun bytes => some (decodeEventCode (bytesNat bytes))
  decodeEvent_construct := by
    intro r bytes hbytes
    obtain ⟨event, hread, rfl⟩ := Option.map_eq_some_iff.1 hbytes
    refine ⟨event, hread, ?_⟩
    rw [bytesNat_natBytes, decodeEventCode_eventCode]

/-- A storage with nothing observed. -/
def plainState : PalletState plainPallet where
  mappings := fun _ => none
  utxoOwners := fun _ => none
  nextCardanoPosition := firstPosition
  cardanoTxCapacityPerBlock := 2
  inherentExecutedThisBlock := false
  events := []
  ledger := ()

/-- A registration with a key and a byte behind it, and a UTXO of its owner that is created and
spent. -/
def plainHistory : List ObservedUtxo :=
  [⟨⟨⟨7, 1, 1000, 0⟩, 1, 1, 0⟩, .registration ⟨4, ⟨[5, 6], by decide⟩⟩⟩,
    ⟨⟨⟨7, 1, 1000, 1⟩, 2, 2, 0⟩, .assetCreate ⟨9, 4, 2, 0⟩⟩,
    ⟨⟨⟨7, 1, 1000, 2⟩, 3, 2, 0⟩, .assetSpend ⟨9, 4, 2, 0, 3⟩⟩]

theorem dust_generation_consistent_plain :
    processed plainState [.processTokens .none plainHistory demoEnd] = plainHistory ∧
      DustConsistent plainKey plainState.book plainHistory
        (plainCodec.dustEvents
          (executedTxs plainState [.processTokens .none plainHistory demoEnd]))
        (run plainState [.processTokens .none plainHistory demoEnd]).utxoOwners := by
  have hprocessed : processed plainState [.processTokens .none plainHistory demoEnd] =
      plainHistory := rfl
  have hlife : LifeCycle plainHistory := by
    refine ⟨by decide, by decide, ?_⟩
    intro pre u post hsplit x hx
    rcases pre with _ | ⟨u₁, _ | ⟨u₂, _ | ⟨u₃, pre⟩⟩⟩
    · obtain ⟨rfl, -⟩ := List.cons.inj hsplit
      exact absurd hx (by simp [ObservedUtxo.spent])
    · obtain ⟨-, htail⟩ := List.cons.inj hsplit
      obtain ⟨rfl, -⟩ := List.cons.inj htail
      exact absurd hx (by simp [ObservedUtxo.spent])
    · obtain ⟨-, htail⟩ := List.cons.inj hsplit
      obtain ⟨-, htail⟩ := List.cons.inj htail
      obtain ⟨-, rfl⟩ := List.cons.inj htail
      simp
    · have hlen := congrArg List.length hsplit
      simp [plainHistory] at hlen
  refine ⟨hprocessed, ?_⟩
  have h := (dust_generation_consistent plainCodec Function.injective_id
    constructsByOwner_plain plainState (fun _ => rfl)
    [.processTokens .none plainHistory demoEnd] (hprocessed ▸ hlife)).2
  rwa [hprocessed] at h

end MidnightNode.Cnight
