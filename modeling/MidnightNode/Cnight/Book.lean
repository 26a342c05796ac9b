/-
# The book of registrations and open UTXOs

What `process_tokens` is for, apart from the ledger and the bookkeeping of blocks: a book says
which mappings an address has and which UTXOs generate DUST for whom.  A UTXO changes the book
in one step (`Book.step`), announces the change of its address's registration
(`Book.announced`), and may ask the ledger for a DUST event (`Book.request`).

The loop of `process_tokens` carries out exactly these steps (`foldl_processUtxo_eq`), and a
call that is not rejected leaves the book of its UTXOs (`executeProcessTokens_of_admissible`).
-/
import MidnightNode.Cnight.Pallet
import Mathlib.Data.List.Basic

namespace MidnightNode.Cnight

open StorageLayer MidnightNode.Frame

/-- The part of the storage that observed UTXOs change. -/
@[ext]
structure Book (H : Type) where
  /-- The mappings of each address, in the order of their registration. -/
  mappings : CardanoRewardAddressBytes → Option (List MappingEntry)
  /-- The owners of the UTXOs that generate DUST. -/
  utxoOwners : H → Option DustPublicKeyBytes

/-- The key that a list of mappings registers: that of its only entry. -/
def registrationOf : List MappingEntry → Option DustPublicKeyBytes
  | [entry] => some entry.dustPublicKey
  | _ => none

@[simp] lemma registrationOf_nil : registrationOf [] = none :=
  rfl

@[simp] lemma registrationOf_singleton (e : MappingEntry) :
    registrationOf [e] = some e.dustPublicKey :=
  rfl

@[simp] lemma registrationOf_cons_cons (e e' : MappingEntry) (l : List MappingEntry) :
    registrationOf (e :: e' :: l) = none :=
  rfl

/-- A DUST event with keys of a type. -/
structure DustEvent (H K : Type) where
  value : BitVec 128
  /-- The key that DUST is generated for. -/
  owner : K
  time : ℕ
  action : UtxoActionType
  nonce : H
deriving DecidableEq

/-- A DUST event that the ledger is asked for, with the bytes of the key. -/
abbrev DustRequest (H : Type) : Type :=
  DustEvent H DustPublicKeyBytes

/-- The bytes of the event, if it can be constructed. -/
def DustRequest.construct (T : PalletConfig) (r : DustRequest T.Hash) : Option (List UInt8) :=
  T.constructEvent r.value r.owner r.time r.action r.nonce

/-- The entry of a registration, or of its removal. -/
def ObservedUtxoHeader.entry (header : ObservedUtxoHeader) (address : CardanoRewardAddressBytes)
    (key : DustPublicKeyBytes) : MappingEntry :=
  ⟨address, key, header.utxoTxHash, header.utxoIndex⟩

namespace Book

section Steps

variable {H : Type} [DecidableEq H]

/-- The mappings of an address. -/
def getMappings (b : Book H) (a : CardanoRewardAddressBytes) : List MappingEntry :=
  (b.mappings a).getD []

/-- The key that is registered for an address. -/
def getRegistration (b : Book H) (a : CardanoRewardAddressBytes) : Option DustPublicKeyBytes :=
  registrationOf (b.getMappings a)

/-- Replace the mappings of an address.  No empty list is kept. -/
def setMappings (b : Book H) (a : CardanoRewardAddressBytes) (l : List MappingEntry) : Book H :=
  { b with mappings := Function.update b.mappings a (if l.isEmpty then none else some l) }

/-- Note the owner of a UTXO, or forget it. -/
def setOwner (b : Book H) (nonce : H) (owner : Option DustPublicKeyBytes) : Book H :=
  { b with utxoOwners := Function.update b.utxoOwners nonce owner }

omit [DecidableEq H] in
@[simp] lemma getMappings_setMappings (b : Book H) (a a' : CardanoRewardAddressBytes)
    (l : List MappingEntry) :
    (b.setMappings a l).getMappings a' = if a' = a then l else b.getMappings a' := by
  by_cases h : a' = a
  · subst h
    cases l <;> simp [getMappings, setMappings]
  · simp [getMappings, setMappings, h]

omit [DecidableEq H] in
@[simp] lemma setMappings_utxoOwners (b : Book H) (a : CardanoRewardAddressBytes)
    (l : List MappingEntry) : (b.setMappings a l).utxoOwners = b.utxoOwners :=
  rfl

@[simp] lemma setOwner_utxoOwners (b : Book H) (n : H) (owner : Option DustPublicKeyBytes) :
    (b.setOwner n owner).utxoOwners = Function.update b.utxoOwners n owner :=
  rfl

/-- Forgetting the owner of a UTXO that has none changes nothing. -/
lemma setOwner_of_eq {b : Book H} {n : H} {owner : Option DustPublicKeyBytes}
    (h : b.utxoOwners n = owner) : b.setOwner n owner = b := by
  rw [setOwner, ← h, Function.update_eq_self]

end Steps

variable (T : PalletConfig)

/-- The DUST event that a UTXO asks for: a new UTXO if its owner is registered, a spent one if
it generates DUST. -/
def request (b : Book T.Hash) (u : ObservedUtxo) : Option (DustRequest T.Hash) :=
  let now := timestampSeconds u.header.txPosition
  match u.data with
  | .registration _ => none
  | .deregistration _ => none
  | .assetCreate data =>
    (b.getRegistration data.owner).map fun key =>
      ⟨data.value, key, now, .create, assetCreateNonce T data.utxoTxHash data.utxoTxIndex⟩
  | .assetSpend data =>
    let nonce := assetCreateNonce T data.utxoTxHash data.utxoTxIndex
    (b.utxoOwners nonce).map fun key => ⟨data.value, key, now, .destroy, nonce⟩

/-- The book after a UTXO. -/
def step (b : Book T.Hash) (u : ObservedUtxo) : Book T.Hash :=
  match u.data with
  | .registration data =>
    b.setMappings data.cardanoRewardAddress (b.getMappings data.cardanoRewardAddress ++
      [u.header.entry data.cardanoRewardAddress data.dustPublicKey])
  | .deregistration data =>
    b.setMappings data.cardanoRewardAddress ((b.getMappings data.cardanoRewardAddress).erase
      (u.header.entry data.cardanoRewardAddress data.dustPublicKey))
  | .assetCreate data =>
    let nonce := assetCreateNonce T data.utxoTxHash data.utxoTxIndex
    -- The owner is noted only if the event can be constructed.
    match b.request T u with
    | none => b
    | some r => if (r.construct T).isSome then b.setOwner nonce (some r.owner) else b
  | .assetSpend data =>
    b.setOwner (assetCreateNonce T data.utxoTxHash data.utxoTxIndex) none

/-- What is said about a registration that was `old` and is `new`. -/
def announce (a : CardanoRewardAddressBytes) (old new : Option DustPublicKeyBytes) :
    List (PalletEvent T) :=
  match old, new with
  | none, some key => [.registration a key]
  | some key, none => [.deregistration a key]
  | _, _ => []

/-- The events of the pallet for a UTXO. -/
def announced (b : Book T.Hash) (u : ObservedUtxo) : List (PalletEvent T) :=
  match u.data with
  | .registration data =>
    announce T data.cardanoRewardAddress (b.getRegistration data.cardanoRewardAddress)
        ((b.step T u).getRegistration data.cardanoRewardAddress) ++
      [.mappingAdded (u.header.entry data.cardanoRewardAddress data.dustPublicKey)]
  | .deregistration data =>
    announce T data.cardanoRewardAddress (b.getRegistration data.cardanoRewardAddress)
        ((b.step T u).getRegistration data.cardanoRewardAddress) ++
      [.mappingRemoved (u.header.entry data.cardanoRewardAddress data.dustPublicKey)]
  | .assetCreate _ => []
  | .assetSpend _ => []

/-- The book after UTXOs. -/
def run (b : Book T.Hash) (us : List ObservedUtxo) : Book T.Hash :=
  us.foldl (step T) b

/-- The events of the pallet for UTXOs. -/
def announcements : Book T.Hash → List ObservedUtxo → List (PalletEvent T)
  | _, [] => []
  | b, u :: us => b.announced T u ++ announcements (b.step T u) us

/-- The DUST events that UTXOs ask for. -/
def requests : Book T.Hash → List ObservedUtxo → List (DustRequest T.Hash)
  | _, [] => []
  | b, u :: us => (b.request T u).toList ++ requests (b.step T u) us

variable {T} {b : Book T.Hash}

@[simp] lemma run_nil : b.run T [] = b :=
  rfl

@[simp] lemma run_cons (u : ObservedUtxo) (us : List ObservedUtxo) :
    b.run T (u :: us) = (b.step T u).run T us :=
  rfl

lemma run_append (us us' : List ObservedUtxo) :
    b.run T (us ++ us') = (b.run T us).run T us' :=
  List.foldl_append

lemma announcements_append (us us' : List ObservedUtxo) :
    b.announcements T (us ++ us') =
      b.announcements T us ++ (b.run T us).announcements T us' := by
  induction us generalizing b with
  | nil => rfl
  | cons u us ih => rw [List.cons_append, announcements, announcements, ih, List.append_assoc,
      run_cons]

lemma requests_append (us us' : List ObservedUtxo) :
    b.requests T (us ++ us') = b.requests T us ++ (b.run T us).requests T us' := by
  induction us generalizing b with
  | nil => rfl
  | cons u us ih => rw [List.cons_append, requests, requests, ih, List.append_assoc, run_cons]

@[simp] lemma step_assetCreate_mappings (header : ObservedUtxoHeader) (data : CreateData) :
    (b.step T ⟨header, .assetCreate data⟩).mappings = b.mappings := by
  simp only [step]
  split
  · rfl
  · split <;> rfl

@[simp] lemma step_assetSpend_mappings (header : ObservedUtxoHeader) (data : SpendData) :
    (b.step T ⟨header, .assetSpend data⟩).mappings = b.mappings :=
  rfl

@[simp] lemma step_registration_getMappings (header : ObservedUtxoHeader)
    (data : RegistrationData) (a : CardanoRewardAddressBytes) :
    (b.step T ⟨header, .registration data⟩).getMappings a =
      if a = data.cardanoRewardAddress then b.getMappings data.cardanoRewardAddress ++
        [header.entry data.cardanoRewardAddress data.dustPublicKey]
      else b.getMappings a :=
  getMappings_setMappings _ _ _ _

@[simp] lemma step_deregistration_getMappings (header : ObservedUtxoHeader)
    (data : DeregistrationData) (a : CardanoRewardAddressBytes) :
    (b.step T ⟨header, .deregistration data⟩).getMappings a =
      if a = data.cardanoRewardAddress then (b.getMappings data.cardanoRewardAddress).erase
        (header.entry data.cardanoRewardAddress data.dustPublicKey)
      else b.getMappings a :=
  getMappings_setMappings _ _ _ _

@[simp] lemma step_assetCreate_getMappings (header : ObservedUtxoHeader) (data : CreateData)
    (a : CardanoRewardAddressBytes) :
    (b.step T ⟨header, .assetCreate data⟩).getMappings a = b.getMappings a := by
  rw [getMappings, step_assetCreate_mappings, getMappings]

end Book

/-! ### The handlers keep the book -/

variable {T : PalletConfig} {s : PalletState T}

namespace PalletState

/-- The book in storage. -/
def book (s : PalletState T) : Book T.Hash :=
  ⟨s.mappings, s.utxoOwners⟩

/-- The storage with another book, and more events. -/
def withBook (s : PalletState T) (b : Book T.Hash) (es : List (PalletEvent T)) : PalletState T :=
  { s with mappings := b.mappings, utxoOwners := b.utxoOwners, events := s.events ++ es }

@[simp] lemma book_withBook (b : Book T.Hash) (es : List (PalletEvent T)) :
    (s.withBook b es).book = b :=
  rfl

@[simp] lemma withBook_book : s.withBook s.book [] = s := by
  rw [withBook, book, List.append_nil]

@[simp] lemma withBook_withBook (b b' : Book T.Hash) (es es' : List (PalletEvent T)) :
    (s.withBook b es).withBook b' es' = s.withBook b' (es ++ es') := by
  rw [withBook, withBook, withBook, List.append_assoc]

lemma getMappings_eq_book (a : CardanoRewardAddressBytes) :
    s.getMappings a = s.book.getMappings a :=
  rfl

lemma getRegistration_eq_book (a : CardanoRewardAddressBytes) :
    s.getRegistration a = s.book.getRegistration a := by
  rw [getRegistration, Book.getRegistration, getMappings_eq_book]
  rcases s.book.getMappings a with _ | ⟨e, _ | ⟨e', l⟩⟩ <;> rfl

lemma isRegistered_eq_book (a : CardanoRewardAddressBytes) :
    s.isRegistered a = (s.book.getRegistration a).isSome := by
  rw [isRegistered, Book.getRegistration, getMappings_eq_book]
  rcases s.book.getMappings a with _ | ⟨e, _ | ⟨e', l⟩⟩ <;> rfl

lemma depositEventIf_eq (e : Option (PalletEvent T)) :
    s.depositEventIf e = s.withBook s.book e.toList := by
  cases e with
  | none => exact withBook_book.symm
  | some e => rfl

lemma depositEvent_eq (e : PalletEvent T) : s.depositEvent e = s.withBook s.book [e] :=
  rfl

lemma insertMappings_eq (a : CardanoRewardAddressBytes) {l : List MappingEntry} (hl : l ≠ []) :
    s.insertMappings a l = s.withBook (s.book.setMappings a l) [] := by
  have hempty : l.isEmpty = false := by simpa using hl
  simp [insertMappings, withBook, book, Book.setMappings, hempty]

lemma removeMappings_eq (a : CardanoRewardAddressBytes) :
    s.removeMappings a = s.withBook (s.book.setMappings a []) [] := by
  simp [removeMappings, withBook, book, Book.setMappings]

lemma removeOrInsertMappings_eq (a : CardanoRewardAddressBytes) (l : List MappingEntry) :
    (if l.isEmpty then s.removeMappings a else s.insertMappings a l) =
      s.withBook (s.book.setMappings a l) [] := by
  cases l with
  | nil => exact removeMappings_eq a
  | cons e l => exact insertMappings_eq a (by simp)

lemma setUtxoOwner_eq (nonce : T.Hash) (owner : Option DustPublicKeyBytes) :
    s.setUtxoOwner nonce owner = s.withBook (s.book.setOwner nonce owner) [] := by
  simp [setUtxoOwner, withBook, book, Book.setOwner]

end PalletState

open PalletState

/-- Registering announces the change of the registration and then the mapping. -/
lemma handleRegistration_eq (header : ObservedUtxoHeader) (data : RegistrationData) :
    (handleRegistration header data s).1 =
      s.withBook (s.book.step T ⟨header, .registration data⟩)
        (s.book.announced T ⟨header, .registration data⟩) := by
  simp only [handleRegistration, insertMappings_eq _ (List.concat_ne_nil _ _), depositEventIf_eq,
    depositEvent_eq, isRegistered_eq_book, getRegistration_eq_book, getMappings_eq_book,
    book_withBook, withBook_withBook, Book.announced, Book.step, Book.getRegistration,
    Book.getMappings_setMappings, if_true, ObservedUtxoHeader.entry, List.nil_append]
  rcases s.book.getMappings data.cardanoRewardAddress with _ | ⟨e, _ | ⟨e', l⟩⟩ <;> rfl

/-- Removing a mapping does so as well.  The key of an ended registration is the one that the
removal names, since only that entry was there to be removed. -/
lemma handleRegistrationRemoval_eq (header : ObservedUtxoHeader) (data : DeregistrationData) :
    handleRegistrationRemoval header data s =
      s.withBook (s.book.step T ⟨header, .deregistration data⟩)
        (s.book.announced T ⟨header, .deregistration data⟩) := by
  rw [handleRegistrationRemoval, removeOrInsertMappings_eq]
  simp only [depositEventIf_eq, depositEvent_eq, isRegistered_eq_book, getRegistration_eq_book,
    getMappings_eq_book, book_withBook, withBook_withBook, Book.announced, Book.step,
    Book.getRegistration, Book.getMappings_setMappings, if_true, ObservedUtxoHeader.entry,
    List.nil_append]
  congr 1
  rcases s.book.getMappings data.cardanoRewardAddress with _ | ⟨e, _ | ⟨e', l⟩⟩
  · rfl
  · -- The only mapping is removed, or it is not the one meant.
    by_cases he : e = ⟨data.cardanoRewardAddress, data.dustPublicKey, header.utxoTxHash,
      header.utxoIndex⟩
    · rw [he]
      simp [Book.announce]
    · rw [List.erase_cons_tail (by simpa using he)]
      simp [Book.announce]
  · -- There were several mappings, so no registration ends.
    rcases (e :: e' :: l).erase ⟨data.cardanoRewardAddress, data.dustPublicKey,
      header.utxoTxHash, header.utxoIndex⟩ with _ | ⟨e, _ | ⟨e', l⟩⟩ <;> rfl

lemma handleCreate_eq (header : ObservedUtxoHeader) (data : CreateData) :
    handleCreate (timestampSeconds header.txPosition) data s =
      (s.withBook (s.book.step T ⟨header, .assetCreate data⟩) [],
        (s.book.request T ⟨header, .assetCreate data⟩).bind (DustRequest.construct T)) := by
  simp only [handleCreate, Book.step, Book.request, getRegistration_eq_book]
  rcases s.book.getRegistration data.owner with _ | key
  · simp
  · rcases hr : DustRequest.construct T ⟨data.value, key, timestampSeconds header.txPosition,
      .create, assetCreateNonce T data.utxoTxHash data.utxoTxIndex⟩ with _ | bytes
    · have hevent : T.constructEvent _ _ _ _ _ = none := hr
      simp [hr, hevent]
    · have hevent : T.constructEvent _ _ _ _ _ = some bytes := hr
      simp [hr, hevent, setUtxoOwner_eq]

lemma handleSpend_eq (header : ObservedUtxoHeader) (data : SpendData) :
    handleSpend (timestampSeconds header.txPosition) data s =
      (s.withBook (s.book.step T ⟨header, .assetSpend data⟩) [],
        (s.book.request T ⟨header, .assetSpend data⟩).bind (DustRequest.construct T)) := by
  have howner : s.book.utxoOwners = s.utxoOwners := rfl
  simp only [handleSpend, Book.step, Book.request, ← howner]
  rcases hn : s.book.utxoOwners (assetCreateNonce T data.utxoTxHash data.utxoTxIndex) with _ | key
  · rw [Book.setOwner_of_eq hn]
    simp
  · rw [setUtxoOwner_eq]
    rfl

/-- One round of the loop is one step of the book. -/
lemma processUtxo_eq (events : List (List UInt8)) (u : ObservedUtxo) :
    processUtxo (s, events) u =
      (s.withBook (s.book.step T u) (s.book.announced T u),
        events ++ ((s.book.request T u).toList.filterMap (DustRequest.construct T))) := by
  obtain ⟨header, data⟩ := u
  cases data with
  | registration data =>
    simp only [processUtxo, handleRegistration_eq]
    exact Prod.ext rfl (List.append_nil _).symm
  | deregistration data =>
    simp only [processUtxo, handleRegistrationRemoval_eq]
    exact Prod.ext rfl (List.append_nil _).symm
  | assetCreate data =>
    simp only [processUtxo, handleCreate_eq]
    cases s.book.request T ⟨header, .assetCreate data⟩ with
    | none => rfl
    | some r => cases hr : r.construct T <;> simp [hr, Book.announced]
  | assetSpend data =>
    simp only [processUtxo, handleSpend_eq]
    cases s.book.request T ⟨header, .assetSpend data⟩ with
    | none => rfl
    | some r => cases hr : r.construct T <;> simp [hr, Book.announced]

/-- The loop of `process_tokens` carries out the steps of its UTXOs. -/
lemma foldl_processUtxo_eq (us : List ObservedUtxo) (events : List (List UInt8)) :
    us.foldl processUtxo (s, events) =
      (s.withBook (s.book.run T us) (s.book.announcements T us),
        events ++ (s.book.requests T us).filterMap (DustRequest.construct T)) := by
  induction us generalizing s events with
  | nil => simp [Book.announcements, Book.requests]
  | cons u us ih =>
    rw [List.foldl_cons, processUtxo_eq, ih, book_withBook, withBook_withBook, List.append_assoc,
      ← List.filterMap_append]
    rfl

/-! ### A call -/

variable (T) in
/-- The system transaction for DUST events, if there are any and it can be constructed. -/
def systemTx (requests : List (DustRequest T.Hash)) : Option (List UInt8) :=
  let events := requests.filterMap (DustRequest.construct T)
  if events.isEmpty then none else T.constructSystemTx events

/-- An event that records a system transaction. -/
def PalletEvent.IsSystem : PalletEvent T → Prop
  | .systemTransactionApplied _ _ _ => True
  | _ => False

/-- What a call of `process_tokens` that is not rejected leads to. -/
structure Accepted (s : PalletState T) (us : List ObservedUtxo) (next : CardanoPosition)
    (s' : PalletState T) : Prop where
  /-- The book is that of the UTXOs. -/
  book : s'.book = s.book.run T us
  /-- The events of the UTXOs are followed by that of the system transaction. -/
  events : ∃ es, s'.events = s.events ++ s.book.announcements T us ++ es ∧
    ∀ e ∈ es, PalletEvent.IsSystem e
  /-- The next position is noted. -/
  position : s'.nextCardanoPosition = next
  /-- The capacity stays. -/
  capacity : s'.cardanoTxCapacityPerBlock = s.cardanoTxCapacityPerBlock
  /-- The executor accepted the system transaction, if there is one. -/
  ledger : match systemTx T (s.book.requests T us) with
    | none => s'.ledger = s.ledger
    | some tx => ∃ hash, T.executeSystemTransaction s.ledger tx = .ok (s'.ledger, hash)

/-- The conditions under which a call is not rejected. -/
structure Admissible (origin : RawOrigin) (us : List ObservedUtxo) (next : CardanoPosition)
    (s : PalletState T) : Prop where
  origin : origin = .none
  count : us.length % 2 ^ 32 ≤ maxUtxoCount s
  fresh : s.inherentExecutedThisBlock = false
  position : s.nextCardanoPosition ≤ next
  /-- The executor accepts the system transaction, if there is one. -/
  executes : ∀ tx, systemTx T (s.book.requests T us) = some tx →
    ∃ r, T.executeSystemTransaction s.ledger tx = .ok r

variable {origin : RawOrigin} {us : List ObservedUtxo} {next : CardanoPosition}

/-- The end of `process_tokens`: the system transaction is executed. -/
lemma applySystemTransaction_ok {s₁ s' : PalletState T} {rs : List (DustRequest T.Hash)}
    (h : applySystemTransaction next (rs.filterMap (DustRequest.construct T)) s₁ = .ok s') :
    (∃ es, s' = { s₁ with ledger := s'.ledger, events := s₁.events ++ es } ∧
      ∀ e ∈ es, PalletEvent.IsSystem e) ∧
    match systemTx T rs with
    | none => s'.ledger = s₁.ledger
    | some tx => ∃ hash, T.executeSystemTransaction s₁.ledger tx = .ok (s'.ledger, hash) := by
  simp only [applySystemTransaction, systemTx] at h ⊢
  by_cases hempty : (rs.filterMap (DustRequest.construct T)).isEmpty
  · rw [if_pos hempty] at h ⊢
    obtain rfl := Except.ok.inj h
    exact ⟨⟨[], by simp, by simp⟩, rfl⟩
  · rw [if_neg hempty] at h ⊢
    cases htx : T.constructSystemTx (rs.filterMap (DustRequest.construct T)) with
    | none =>
      rw [htx] at h
      obtain rfl := Except.ok.inj h
      exact ⟨⟨[], by simp, by simp⟩, rfl⟩
    | some tx =>
      simp only [htx] at h ⊢
      cases hexec : T.executeSystemTransaction s₁.ledger tx with
      | error code =>
        rw [hexec] at h
        exact absurd h (by simp)
      | ok r =>
        obtain ⟨ledger, hash⟩ := r
        rw [hexec] at h
        obtain rfl := Except.ok.inj h
        refine ⟨⟨[.systemTransactionApplied next.blockHash next.txIndexInBlock hash], rfl, ?_⟩,
          hash, rfl⟩
        simp [PalletEvent.IsSystem]

/-- It fails only where the executor rejects the system transaction. -/
lemma applySystemTransaction_error {s₁ : PalletState T} {rs : List (DustRequest T.Hash)}
    {code : ℕ}
    (h : applySystemTransaction next (rs.filterMap (DustRequest.construct T)) s₁ =
      .error code) :
    ∃ tx, systemTx T rs = some tx ∧
      T.executeSystemTransaction s₁.ledger tx = .error code := by
  simp only [applySystemTransaction, systemTx] at h ⊢
  by_cases hempty : (rs.filterMap (DustRequest.construct T)).isEmpty
  · rw [if_pos hempty] at h
    exact absurd h (by simp)
  · rw [if_neg hempty] at h ⊢
    cases htx : T.constructSystemTx (rs.filterMap (DustRequest.construct T)) with
    | none =>
      rw [htx] at h
      exact absurd h (by simp)
    | some tx =>
      simp only [htx] at h ⊢
      cases hexec : T.executeSystemTransaction s₁.ledger tx with
      | error code' =>
        rw [hexec] at h
        exact ⟨tx, rfl, by rw [hexec, Except.error.inj h]⟩
      | ok r =>
        rw [hexec] at h
        exact absurd h (by simp)

/-- A call that is admissible is accepted. -/
lemma executeProcessTokens_of_admissible (h : Admissible origin us next s) :
    ∃ s' info, executeProcessTokens origin us next s = (s', .ok info) ∧
      Accepted s us next s' := by
  rcases hres : applySystemTransaction next
      ((s.book.requests T us).filterMap (DustRequest.construct T))
      { ({ s with inherentExecutedThisBlock := true }.withBook (s.book.run T us)
        (s.book.announcements T us)) with nextCardanoPosition := next } with code | s'
  · obtain ⟨tx, htx, herror⟩ := applySystemTransaction_error hres
    obtain ⟨r, hok⟩ := h.executes tx htx
    exact absurd (herror.symm.trans hok) (by simp)
  · obtain ⟨⟨es, hs', hes⟩, hledger⟩ := applySystemTransaction_ok hres
    refine ⟨s', ⟨some (T.weightProcessTokens (us.length % 2 ^ 32)), .no⟩, ?_, ?_⟩
    · refine withStorageLayer_of_ok ?_
      have hbook : (PalletState.book { s with inherentExecutedThisBlock := true }) = s.book := rfl
      simp only [processTokens, h.origin, h.count, h.fresh, h.position, ne_eq, not_true, if_false,
        Bool.false_eq_true, foldl_processUtxo_eq, List.nil_append, hbook, hres]
    · refine ⟨?_, ⟨es, ?_, hes⟩, ?_, ?_, hledger⟩
      · rw [hs']
        rfl
      · rw [hs']
        rfl
      · rw [hs']
      · rw [hs']
        rfl

/-- A call that is not admissible leaves no trace. -/
lemma executeProcessTokens_of_not_admissible (h : ¬ Admissible origin us next s) :
    ∃ e, executeProcessTokens origin us next s = (s, .error e) := by
  suffices herror : ∃ s' e, processTokens origin us next s = (s', .error e) by
    obtain ⟨s', e, he⟩ := herror
    exact ⟨e, withStorageLayer_of_error he⟩
  rw [processTokens]
  by_cases horigin : origin = .none
  · rw [if_neg (not_not.2 horigin)]
    by_cases hcount : us.length % 2 ^ 32 ≤ maxUtxoCount s
    · simp only [hcount, not_true, if_false]
      cases hfresh : s.inherentExecutedThisBlock with
      | true => exact ⟨_, _, rfl⟩
      | false =>
        by_cases hposition : s.nextCardanoPosition ≤ next
        · have hbook : (PalletState.book { s with inherentExecutedThisBlock := true }) =
            s.book := rfl
          simp only [hposition, not_true, if_false, Bool.false_eq_true, foldl_processUtxo_eq,
            List.nil_append, hbook]
          -- Only the executor is left to reject the call.
          split
          · exact ⟨_, _, rfl⟩
          · rename_i s' hok
            refine absurd ⟨horigin, hcount, hfresh, hposition, fun tx htx => ?_⟩ h
            have hledger := (applySystemTransaction_ok hok).2
            rw [htx] at hledger
            obtain ⟨hash, hexec⟩ := hledger
            exact ⟨_, hexec⟩
        · simp only [hposition, not_false_eq_true, if_true, Bool.false_eq_true, if_false]
          exact ⟨_, _, rfl⟩
    · rw [if_pos hcount]
      exact ⟨_, _, rfl⟩
  · rw [if_pos horigin]
    exact ⟨_, _, rfl⟩

/-! ### Runs -/

/-- What happens to the pallet: a call of its inherent, or the end of a block. -/
inductive Operation
  | processTokens (origin : RawOrigin) (utxos : List ObservedUtxo)
      (nextCardanoPosition : CardanoPosition)
  | finalize

namespace Operation

/-- The storage after an operation. -/
def apply : Operation → PalletState T → PalletState T
  | processTokens origin us next, s => (executeProcessTokens origin us next s).1
  | finalize, s => onFinalize s

/-- The UTXOs that an operation processes: those of a call that is not rejected. -/
def processed : Operation → PalletState T → List ObservedUtxo
  | processTokens origin us next, s =>
    match (executeProcessTokens origin us next s).2 with
    | .ok _ => us
    | .error _ => []
  | finalize, _ => []

end Operation

/-- The storage after operations.  Its events are those of all of them. -/
def run (s : PalletState T) (ops : List Operation) : PalletState T :=
  ops.foldl (fun s op => op.apply s) s

/-- The UTXOs that operations process. -/
def processed : PalletState T → List Operation → List ObservedUtxo
  | _, [] => []
  | s, op :: ops => op.processed s ++ processed (op.apply s) ops

/-- The system transactions that operations execute. -/
def executedTxs : PalletState T → List Operation → List (List UInt8)
  | _, [] => []
  | s, op :: ops =>
    (systemTx T (s.book.requests T (op.processed s))).toList ++ executedTxs (op.apply s) ops

@[simp] lemma run_nil : run s [] = s :=
  rfl

@[simp] lemma run_cons (op : Operation) (ops : List Operation) :
    run s (op :: ops) = run (op.apply s) ops :=
  rfl

/-- An operation carries out the steps of the UTXOs it processes, and deposits their events;
all it adds is the record of a system transaction. -/
lemma Operation.apply_spec (op : Operation) (s : PalletState T) :
    (op.apply s).book = s.book.run T (op.processed s) ∧
      ∃ es, (op.apply s).events = s.events ++ s.book.announcements T (op.processed s) ++ es ∧
        ∀ e ∈ es, PalletEvent.IsSystem e := by
  cases op with
  | finalize => exact ⟨rfl, [], by simp [apply, processed, Book.announcements, onFinalize],
      by simp⟩
  | processTokens origin us next =>
    by_cases h : Admissible origin us next s
    · obtain ⟨s', info, hs', hacc⟩ := executeProcessTokens_of_admissible h
      simp only [apply, processed, hs']
      exact ⟨hacc.book, hacc.events⟩
    · obtain ⟨e, he⟩ := executeProcessTokens_of_not_admissible h
      simp only [apply, processed, he]
      exact ⟨rfl, [], by simp [Book.announcements], by simp⟩

/-- A run carries out the steps of the UTXOs it processes. -/
lemma book_run (ops : List Operation) (s : PalletState T) :
    (run s ops).book = s.book.run T (processed s ops) := by
  induction ops generalizing s with
  | nil => rfl
  | cons op ops ih => rw [run_cons, ih, (op.apply_spec s).1, processed, Book.run_append]

/-- A run deposits the events of the UTXOs it processes, as far as they do not record system
transactions. -/
lemma filterMap_events_run {ε : Type} {f : PalletEvent T → Option ε}
    (hf : ∀ e, PalletEvent.IsSystem e → f e = none) (ops : List Operation) (s : PalletState T) :
    ∃ emitted, (run s ops).events = s.events ++ emitted ∧
      emitted.filterMap f = (s.book.announcements T (processed s ops)).filterMap f := by
  induction ops generalizing s with
  | nil => exact ⟨[], by simp, rfl⟩
  | cons op ops ih =>
    obtain ⟨hbook, es, hevents, hes⟩ := op.apply_spec s
    obtain ⟨emitted, hrun, hemitted⟩ := ih (op.apply s)
    have hnone : es.filterMap f = [] :=
      List.filterMap_eq_nil_iff.2 (fun e he => hf e (hes e he))
    refine ⟨s.book.announcements T (op.processed s) ++ es ++ emitted, ?_, ?_⟩
    · rw [run_cons, hrun, hevents]
      simp only [List.append_assoc]
    · rw [processed, Book.announcements_append, ← hbook, List.filterMap_append,
        List.filterMap_append, List.filterMap_append, hnone, List.append_nil, hemitted]

/-- The ledger after operations is the one before with their system transactions executed. -/
lemma ledger_run (ops : List Operation) (s : PalletState T) :
    (executedTxs s ops).foldlM
        (fun ledger tx => (T.executeSystemTransaction ledger tx).map Prod.fst) s.ledger =
      .ok (run s ops).ledger := by
  induction ops generalizing s with
  | nil => rfl
  | cons op ops ih =>
    have hstep : (systemTx T (s.book.requests T (op.processed s))).toList.foldlM
        (fun ledger tx => (T.executeSystemTransaction ledger tx).map Prod.fst) s.ledger =
          .ok (op.apply s).ledger := by
      cases op with
      | finalize => rfl
      | processTokens origin us next =>
        by_cases h : Admissible origin us next s
        · obtain ⟨s', info, hs', hacc⟩ := executeProcessTokens_of_admissible h
          have hledger := hacc.ledger
          simp only [Operation.apply, Operation.processed, hs']
          cases htx : systemTx T (s.book.requests T us) with
          | none =>
            rw [htx] at hledger
            rw [hledger]
            rfl
          | some tx =>
            rw [htx] at hledger
            obtain ⟨hash, hexec⟩ := hledger
            simp only [Option.toList_some, List.foldlM_cons, List.foldlM_nil, hexec]
            rfl
        · obtain ⟨e, he⟩ := executeProcessTokens_of_not_admissible h
          simp only [Operation.apply, Operation.processed, he]
          rfl
    rw [executedTxs, List.foldlM_append, hstep]
    exact ih _

end MidnightNode.Cnight
