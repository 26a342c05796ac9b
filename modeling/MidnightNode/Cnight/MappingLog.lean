/-
# The events of the mappings as a log

An indexer sees the events of the pallet and not its storage.  `Registration` and
`Deregistration` events tell it all about registrations: replayed from the state before, they
lead to the state after.  `MappingAdded` and `MappingRemoved` events tell it the stored mappings
as long as every removal that is observed is that of a stored mapping; the pallet deposits
`MappingRemoved` for any other removal as well.
-/
import MidnightNode.Lib.Replay
import MidnightNode.Cnight.Book
import MidnightNode.Cnight.Inherent

namespace MidnightNode.Cnight

open Replay

variable {T : PalletConfig}

/-! ### Registrations -/

/-- What an event says about the registration of an address. -/
def registrationSwitch (a : CardanoRewardAddressBytes) :
    PalletEvent T → Option (Switch DustPublicKeyBytes)
  | .registration a' key => if a' = a then some (.on key) else none
  | .deregistration a' key => if a' = a then some (.off key) else none
  | _ => none

@[simp] lemma registrationSwitch_mappingAdded (a : CardanoRewardAddressBytes)
    (e : MappingEntry) : registrationSwitch a (.mappingAdded e : PalletEvent T) = none :=
  rfl

@[simp] lemma registrationSwitch_mappingRemoved (a : CardanoRewardAddressBytes)
    (e : MappingEntry) : registrationSwitch a (.mappingRemoved e : PalletEvent T) = none :=
  rfl

namespace Book

variable {b : Book T.Hash} {a : CardanoRewardAddressBytes}

lemma filterMap_announce_of_ne {a' : CardanoRewardAddressBytes} (h : a' ≠ a)
    (old new : Option DustPublicKeyBytes) :
    (announce T a' old new).filterMap (registrationSwitch a) = [] := by
  rcases old with _ | k <;> rcases new with _ | k' <;> simp [announce, registrationSwitch, h]

/-- Announcing a change can be replayed, unless one key takes the place of another. -/
lemma replay_announce {old new : Option DustPublicKeyBytes}
    (h : ∀ k k', old = some k → new = some k' → k = k') :
    replay Switch.next old ((announce T a old new).filterMap (registrationSwitch a)) =
      some new := by
  rcases old with _ | k <;> rcases new with _ | k'
  · rfl
  · simp [announce, registrationSwitch]
  · simp [announce, registrationSwitch]
  · rw [h k k' rfl rfl]
    rfl

/-- A second mapping ends a registration. -/
lemma registrationOf_append_singleton {l : List MappingEntry} {e : MappingEntry}
    {k k' : DustPublicKeyBytes} (h : registrationOf l = some k)
    (h' : registrationOf (l ++ [e]) = some k') : k = k' := by
  rcases l with _ | ⟨e₁, _ | ⟨e₂, l⟩⟩
  · exact absurd h (by simp)
  · exact absurd h' (by simp)
  · exact absurd h (by simp)

/-- Removing a mapping ends a registration or leaves it. -/
lemma registrationOf_erase {l : List MappingEntry} {e : MappingEntry}
    {k k' : DustPublicKeyBytes} (h : registrationOf l = some k)
    (h' : registrationOf (l.erase e) = some k') : k = k' := by
  rcases l with _ | ⟨e₁, _ | ⟨e₂, l⟩⟩
  · exact absurd h (by simp)
  · by_cases he : e₁ = e
    · rw [he] at h'
      exact absurd h' (by simp)
    · rw [List.erase_cons_tail (by simpa using he), List.erase_nil] at h'
      exact Option.some.inj (h.symm.trans h')
  · exact absurd h (by simp)

/-- The events of a UTXO tell the change of every address's registration. -/
lemma replay_announced (b : Book T.Hash) (u : ObservedUtxo) (a : CardanoRewardAddressBytes) :
    replay Switch.next (b.getRegistration a)
        ((b.announced T u).filterMap (registrationSwitch a)) =
      some ((b.step T u).getRegistration a) := by
  obtain ⟨header, data⟩ := u
  cases data with
  | registration data =>
    simp only [announced, List.filterMap_append, List.filterMap_cons,
      registrationSwitch_mappingAdded, List.filterMap_nil, List.append_nil]
    by_cases ha : data.cardanoRewardAddress = a
    · subst ha
      refine replay_announce (fun k k' hk hk' => ?_)
      rw [getRegistration, step_registration_getMappings, if_pos rfl] at hk'
      exact registrationOf_append_singleton hk hk'
    · rw [filterMap_announce_of_ne ha, getRegistration, getRegistration,
        step_registration_getMappings, if_neg (Ne.symm ha)]
      rfl
  | deregistration data =>
    simp only [announced, List.filterMap_append, List.filterMap_cons,
      registrationSwitch_mappingRemoved, List.filterMap_nil, List.append_nil]
    by_cases ha : data.cardanoRewardAddress = a
    · subst ha
      refine replay_announce (fun k k' hk hk' => ?_)
      rw [getRegistration, step_deregistration_getMappings, if_pos rfl] at hk'
      exact registrationOf_erase hk hk'
    · rw [filterMap_announce_of_ne ha, getRegistration, getRegistration,
        step_deregistration_getMappings, if_neg (Ne.symm ha)]
      rfl
  | assetCreate data =>
    rw [getRegistration, getRegistration, step_assetCreate_getMappings]
    rfl
  | assetSpend data => rfl

/-- So do the events of any UTXOs. -/
lemma replay_announcements (us : List ObservedUtxo) (b : Book T.Hash)
    (a : CardanoRewardAddressBytes) :
    replay Switch.next (b.getRegistration a)
        ((b.announcements T us).filterMap (registrationSwitch a)) =
      some ((b.run T us).getRegistration a) := by
  induction us generalizing b with
  | nil => rfl
  | cons u us ih =>
    rw [announcements, List.filterMap_append]
    exact replay_trans (replay_announced b u a) (ih _)

/-- No step stores an empty list. -/
lemma step_mappings_ne (h : b.mappings a ≠ some []) (u : ObservedUtxo) :
    (b.step T u).mappings a ≠ some [] := by
  have hset : ∀ a' l, (b.setMappings a' l).mappings a ≠ some [] := by
    intro a' l
    by_cases ha : a = a'
    · subst ha
      cases l <;> simp [setMappings]
    · simpa [setMappings, Function.update_of_ne ha] using h
  obtain ⟨header, data⟩ := u
  cases data with
  | registration data => exact hset _ _
  | deregistration data => exact hset _ _
  | assetCreate data => rwa [step_assetCreate_mappings]
  | assetSpend data => exact h

lemma run_mappings_ne (us : List ObservedUtxo) {b : Book T.Hash}
    (h : b.mappings a ≠ some []) : (b.run T us).mappings a ≠ some [] := by
  induction us generalizing b with
  | nil => exact h
  | cons u us ih => exact ih (step_mappings_ne h u)

end Book

/-- **Registration events let an indexer reconstruct registrations.**  From any storage, the
events that operations emit for an address can be replayed from its registration: a
`Registration` comes only where there is none, and a `Deregistration` only where its key is
registered.  The replay ends in the registration of the address, so the last event tells it.
No empty list is ever stored in the place of mappings. -/
theorem registration_events_reconstruct (s : PalletState T) (ops : List Operation) :
    ∃ emitted, (run s ops).events = s.events ++ emitted ∧ ∀ a,
      replay Switch.next (s.getRegistration a) (emitted.filterMap (registrationSwitch a)) =
          some ((run s ops).getRegistration a) ∧
        (∀ key, (run s ops).getRegistration a = some key ↔
          (emitted.filterMap (registrationSwitch a)).getLast? = some (.on key) ∨
            (emitted.filterMap (registrationSwitch a) = [] ∧ s.getRegistration a = some key)) ∧
        (s.mappings a ≠ some [] → (run s ops).mappings a ≠ some []) := by
  -- The events do not depend on the address that one looks at.
  obtain ⟨emitted, hevents, -⟩ := filterMap_events_run
    (f := fun _ => (none : Option Unit)) (fun _ _ => rfl) ops s
  refine ⟨emitted, hevents, fun a => ?_⟩
  obtain ⟨emitted', hevents', hlog⟩ := filterMap_events_run (f := registrationSwitch a)
    (fun e he => by cases e <;> first | rfl | exact absurd he id) ops s
  obtain rfl := List.append_cancel_left (hevents.symm.trans hevents')
  have hreplay : replay Switch.next (s.getRegistration a)
      (emitted.filterMap (registrationSwitch a)) = some ((run s ops).getRegistration a) := by
    rw [hlog, PalletState.getRegistration_eq_book, PalletState.getRegistration_eq_book, book_run]
    exact Book.replay_announcements _ _ a
  refine ⟨hreplay, Switch.replay_eq_some_iff_getLast hreplay, fun hne => ?_⟩
  have hmappings : (run s ops).mappings = (s.book.run T (processed s ops)).mappings := by
    rw [← book_run]
    rfl
  rw [hmappings]
  exact Book.run_mappings_ne _ hne

/-! ### Mappings -/

/-- What an event, or a UTXO, says about the stored mappings. -/
inductive MappingChange
  | added (entry : MappingEntry)
  | removed (entry : MappingEntry)

/-- The change that an event reports. -/
def PalletEvent.mappingChange : PalletEvent T → Option MappingChange
  | .mappingAdded entry => some (.added entry)
  | .mappingRemoved entry => some (.removed entry)
  | _ => none

/-- The change that a UTXO asks for. -/
def ObservedUtxo.mappingChange (u : ObservedUtxo) : Option MappingChange :=
  match u.data with
  | .registration data =>
    some (.added (u.header.entry data.cardanoRewardAddress data.dustPublicKey))
  | .deregistration data =>
    some (.removed (u.header.entry data.cardanoRewardAddress data.dustPublicKey))
  | .assetCreate _ => none
  | .assetSpend _ => none

namespace MappingChange

/-- The entries that a log adds. -/
def addedEntries (log : List MappingChange) : Multiset MappingEntry :=
  log.filterMap fun
    | added entry => some entry
    | removed _ => none

/-- The entries that a log removes. -/
def removedEntries (log : List MappingChange) : Multiset MappingEntry :=
  log.filterMap fun
    | added _ => none
    | removed entry => some entry

/-- Every removal is matched by an earlier addition of the same entry that is not yet
removed. -/
def Matched (log : List MappingChange) : Prop :=
  ∀ log', log' <+: log → removedEntries log' ≤ addedEntries log'

lemma Matched.of_isPrefix {log log' : List MappingChange} (h : Matched log) (hp : log' <+: log) :
    Matched log' :=
  fun log'' hp' => h log'' (hp'.trans hp)

section Concat

variable (log : List MappingChange) (e : MappingEntry)

@[simp] lemma addedEntries_concat_added :
    addedEntries (log ++ [added e]) = addedEntries log + {e} := by
  simp [addedEntries, ← Multiset.coe_add]

@[simp] lemma addedEntries_concat_removed :
    addedEntries (log ++ [removed e]) = addedEntries log := by
  simp [addedEntries]

@[simp] lemma removedEntries_concat_added :
    removedEntries (log ++ [added e]) = removedEntries log := by
  simp [removedEntries]

@[simp] lemma removedEntries_concat_removed :
    removedEntries (log ++ [removed e]) = removedEntries log + {e} := by
  simp [removedEntries, ← Multiset.coe_add]

end Concat

end MappingChange

open MappingChange

/-- The events are a faithful log of the stored mappings: each address has the mappings added
less those removed, and every removal is matched. -/
structure FaithfulLog (emitted : List (PalletEvent T)) (s : PalletState T) : Prop where
  entries : ∀ a, (addedEntries (emitted.filterMap PalletEvent.mappingChange)).filter
        (fun e => e.cardanoRewardAddress = a) -
      (removedEntries (emitted.filterMap PalletEvent.mappingChange)).filter
        (fun e => e.cardanoRewardAddress = a) = s.getMappings a
  matched : Matched (emitted.filterMap PalletEvent.mappingChange)

namespace Book

/-- The pallet reports the changes that the UTXOs ask for, whatever the book says. -/
lemma filterMap_announcements (us : List ObservedUtxo) (b : Book T.Hash) :
    (b.announcements T us).filterMap PalletEvent.mappingChange =
      us.filterMap ObservedUtxo.mappingChange := by
  have hannounce : ∀ a old new,
      (announce T a old new).filterMap PalletEvent.mappingChange = [] := by
    intro a old new
    rcases old with _ | k <;> rcases new with _ | k' <;> rfl
  induction us generalizing b with
  | nil => rfl
  | cons u us ih =>
    obtain ⟨header, data⟩ := u
    rw [announcements, List.filterMap_append, ih, List.filterMap_cons]
    cases data with
    | registration data =>
      rw [announced, List.filterMap_append, hannounce]
      rfl
    | deregistration data =>
      rw [announced, List.filterMap_append, hannounce]
      rfl
    | assetCreate data => rfl
    | assetSpend data => rfl

/-- Stored entries and removals make up the additions: the invariant behind the log. -/
structure Balanced (b : Book T.Hash) (log : List MappingChange) : Prop where
  count : ∀ e, (b.getMappings e.cardanoRewardAddress).count e + (removedEntries log).count e =
    (addedEntries log).count e
  address : ∀ a, ∀ e ∈ b.getMappings a, e.cardanoRewardAddress = a

lemma balanced_nil {b : Book T.Hash} (h : ∀ a, b.mappings a = none) : Balanced b [] := by
  have hempty : ∀ a, b.getMappings a = [] := fun a => by rw [getMappings, h a]; rfl
  exact ⟨fun e => by rw [hempty]; rfl, fun a e he => by simp [hempty a] at he⟩

/-- A registration adds its entry. -/
lemma Balanced.registration {b : Book T.Hash} {log : List MappingChange} (h : Balanced b log)
    (header : ObservedUtxoHeader) (data : RegistrationData) :
    Balanced (b.step T ⟨header, .registration data⟩)
      (log ++ [.added (header.entry data.cardanoRewardAddress data.dustPublicKey)]) where
  count := by
    intro e
    have hcount := h.count e
    rw [removedEntries_concat_added, addedEntries_concat_added, Multiset.count_add,
      Multiset.count_singleton, step_registration_getMappings]
    by_cases ha : e.cardanoRewardAddress = data.cardanoRewardAddress
    · rw [if_pos ha, ← ha, List.count_append, List.count_singleton', Nat.add_right_comm, hcount]
      simp only [eq_comm]
    · have hne : e ≠ header.entry data.cardanoRewardAddress data.dustPublicKey :=
        fun heq => ha (by rw [heq]; rfl)
      rw [if_neg ha, if_neg hne]
      exact hcount
  address := by
    intro a e he
    rw [step_registration_getMappings] at he
    by_cases ha : a = data.cardanoRewardAddress
    · rw [if_pos ha] at he
      rcases List.mem_append.1 he with he | he
      · rw [ha]
        exact h.address _ e he
      · rw [List.mem_singleton.1 he, ha]
        rfl
    · rw [if_neg ha] at he
      exact h.address a e he

/-- A removal of a stored entry removes it. -/
lemma Balanced.deregistration {b : Book T.Hash} {log : List MappingChange} (h : Balanced b log)
    (header : ObservedUtxoHeader) (data : DeregistrationData)
    (hmem : header.entry data.cardanoRewardAddress data.dustPublicKey ∈
      b.getMappings data.cardanoRewardAddress) :
    Balanced (b.step T ⟨header, .deregistration data⟩)
      (log ++ [.removed (header.entry data.cardanoRewardAddress data.dustPublicKey)]) where
  count := by
    intro e
    have hcount := h.count e
    rw [removedEntries_concat_removed, addedEntries_concat_removed, Multiset.count_add,
      Multiset.count_singleton, step_deregistration_getMappings]
    by_cases heq : e = header.entry data.cardanoRewardAddress data.dustPublicKey
    · have ha : e.cardanoRewardAddress = data.cardanoRewardAddress := by rw [heq]; rfl
      rw [← heq] at hmem ⊢
      have hpos := List.count_pos_iff.2 hmem
      rw [if_pos ha, List.count_erase_self, if_pos rfl]
      rw [ha] at hcount
      omega
    · rw [if_neg heq]
      by_cases ha : e.cardanoRewardAddress = data.cardanoRewardAddress
      · rw [if_pos ha, List.count_erase_of_ne heq, ← ha]
        exact hcount
      · rw [if_neg ha]
        exact hcount
  address := by
    intro a e he
    rw [step_deregistration_getMappings] at he
    by_cases ha : a = data.cardanoRewardAddress
    · rw [if_pos ha] at he
      rw [ha]
      exact h.address _ e (List.mem_of_mem_erase he)
    · rw [if_neg ha] at he
      exact h.address a e he

/-- A book that is not touched stays balanced. -/
lemma Balanced.congr {b b' : Book T.Hash} {log : List MappingChange} (h : Balanced b log)
    (hb : b'.mappings = b.mappings) : Balanced b' log := by
  have hget : ∀ a, b'.getMappings a = b.getMappings a := fun a => by
    rw [getMappings, hb, getMappings]
  exact ⟨fun e => by rw [hget]; exact h.count e, fun a e he => h.address a e (hget a ▸ he)⟩

/-- UTXOs whose removals are matched keep the book balanced. -/
lemma balanced_run {b : Book T.Hash} (hempty : ∀ a, b.mappings a = none)
    (us : List ObservedUtxo) (h : Matched (us.filterMap ObservedUtxo.mappingChange)) :
    Balanced (b.run T us) (us.filterMap ObservedUtxo.mappingChange) := by
  -- By induction from the right, for the removals before a UTXO are matched without it.
  induction us using List.reverseRecOn with
  | nil => exact balanced_nil hempty
  | append_singleton us u ih =>
    rw [List.filterMap_append] at h
    have hb := ih (h.of_isPrefix (List.prefix_append _ _))
    obtain ⟨header, data⟩ := u
    rw [run_append, List.filterMap_append]
    cases data with
    | registration data => exact hb.registration header data
    | deregistration data =>
      refine hb.deregistration header data ?_
      -- The removal is matched, so its entry has been added more often than removed.
      have hle : removedEntries (us.filterMap ObservedUtxo.mappingChange ++
          [.removed (header.entry data.cardanoRewardAddress data.dustPublicKey)]) ≤
          addedEntries (us.filterMap ObservedUtxo.mappingChange ++
            [.removed (header.entry data.cardanoRewardAddress data.dustPublicKey)]) :=
        h _ (List.prefix_refl _)
      rw [removedEntries_concat_removed, addedEntries_concat_removed] at hle
      have hcount := Multiset.le_iff_count.1 hle
        (header.entry data.cardanoRewardAddress data.dustPublicKey)
      rw [Multiset.count_add, Multiset.count_singleton_self] at hcount
      have hstored := hb.count (header.entry data.cardanoRewardAddress data.dustPublicKey)
      refine List.count_pos_iff.1 ?_
      change 0 < ((b.run T us).getMappings (header.entry data.cardanoRewardAddress
        data.dustPublicKey).cardanoRewardAddress).count _
      omega
    | assetCreate data =>
      rw [show [(⟨header, .assetCreate data⟩ : ObservedUtxo)].filterMap
        ObservedUtxo.mappingChange = [] from rfl, List.append_nil]
      exact hb.congr (step_assetCreate_mappings header data)
    | assetSpend data =>
      rw [show [(⟨header, .assetSpend data⟩ : ObservedUtxo)].filterMap
        ObservedUtxo.mappingChange = [] from rfl, List.append_nil]
      exact hb.congr (step_assetSpend_mappings header data)

/-- In a balanced book the stored mappings are the additions less the removals. -/
lemma Balanced.entries {b : Book T.Hash} {log : List MappingChange} (h : Balanced b log)
    (a : CardanoRewardAddressBytes) :
    (addedEntries log).filter (fun e => e.cardanoRewardAddress = a) -
      (removedEntries log).filter (fun e => e.cardanoRewardAddress = a) = b.getMappings a := by
  refine Multiset.ext.2 (fun e => ?_)
  rw [Multiset.count_sub, Multiset.count_filter, Multiset.count_filter, Multiset.coe_count]
  by_cases ha : e.cardanoRewardAddress = a
  · have hcount := h.count e
    rw [ha] at hcount
    rw [if_pos ha, if_pos ha]
    omega
  · have hnot : e ∉ b.getMappings a := fun he => ha (h.address a e he)
    rw [if_neg ha, if_neg ha, List.count_eq_zero_of_not_mem hnot]

end Book

lemma processed_append (s : PalletState T) (ops ops' : List Operation) :
    processed s (ops ++ ops') = processed s ops ++ processed (run s ops) ops' := by
  induction ops generalizing s with
  | nil => rfl
  | cons op ops ih => rw [List.cons_append, processed, processed, ih, List.append_assoc, run_cons]

/-- **When mapping events are a faithful log.**  From empty mappings, the events are a faithful
log of the stored mappings after every one of the operations if and only if, among the UTXOs
they process, every deregistration is matched by an earlier registration of the same entry that
is not yet deregistered. -/
theorem mapping_log_faithful_iff (s : PalletState T) (hempty : ∀ a, s.mappings a = none)
    (ops : List Operation) :
    (∀ ops', ops' <+: ops → ∃ emitted, (run s ops').events = s.events ++ emitted ∧
        FaithfulLog emitted (run s ops')) ↔
      Matched ((processed s ops).filterMap ObservedUtxo.mappingChange) := by
  have hlog : ∀ ops', ∃ emitted, (run s ops').events = s.events ++ emitted ∧
      emitted.filterMap PalletEvent.mappingChange =
        (processed s ops').filterMap ObservedUtxo.mappingChange := by
    intro ops'
    obtain ⟨emitted, hevents, hchanges⟩ := filterMap_events_run
      (f := PalletEvent.mappingChange)
      (fun e he => by cases e <;> first | rfl | exact absurd he id) ops' s
    exact ⟨emitted, hevents, hchanges.trans (Book.filterMap_announcements _ _)⟩
  constructor
  · intro h
    obtain ⟨emitted, hevents, hfaithful⟩ := h ops (List.prefix_refl ops)
    obtain ⟨emitted', hevents', hchanges⟩ := hlog ops
    obtain rfl := List.append_cancel_left (hevents.symm.trans hevents')
    rw [← hchanges]
    exact hfaithful.matched
  · rintro hmatched ops' ⟨rest, rfl⟩
    obtain ⟨emitted, hevents, hchanges⟩ := hlog ops'
    have hmatched' : Matched ((processed s ops').filterMap ObservedUtxo.mappingChange) := by
      rw [processed_append, List.filterMap_append] at hmatched
      exact hmatched.of_isPrefix (List.prefix_append _ _)
    refine ⟨emitted, hevents, ?_, hchanges ▸ hmatched'⟩
    intro a
    rw [hchanges, PalletState.getMappings_eq_book, book_run]
    exact (Book.balanced_run hempty _ hmatched').entries a

/-! ### A removal that nothing was registered for -/

/-- A mapping of the key `5`. -/
def demoHeader : ObservedUtxoHeader :=
  ⟨⟨7, 1, 1000, 0⟩, 1, 1, 0⟩

lemma demoKey_length_le : [(5 : UInt8)].length ≤ 33 := by decide

/-- It is registered. -/
def demoRegister : ObservedUtxo :=
  ⟨demoHeader, .registration ⟨4, ⟨[5], demoKey_length_le⟩⟩⟩

/-- It is removed. -/
def demoDeregister : ObservedUtxo :=
  ⟨demoHeader, .deregistration ⟨4, ⟨[5], demoKey_length_le⟩⟩⟩

theorem registration_events_demo :
    ∃ emitted,
      (run demoState [.processTokens .none [demoRegister, demoDeregister] demoEnd]).events =
        demoState.events ++ emitted ∧
      replay Switch.next none (emitted.filterMap (registrationSwitch 4)) = some none := by
  obtain ⟨emitted, hevents, h⟩ := registration_events_reconstruct demoState
    [.processTokens .none [demoRegister, demoDeregister] demoEnd]
  exact ⟨emitted, hevents, (h 4).1⟩

theorem mapping_log_faithful_demo :
    ∃ emitted,
      (run demoState [.processTokens .none [demoRegister, demoDeregister] demoEnd]).events =
        demoState.events ++ emitted ∧
      FaithfulLog emitted
        (run demoState [.processTokens .none [demoRegister, demoDeregister] demoEnd]) := by
  refine (mapping_log_faithful_iff demoState (fun _ => rfl)
    [.processTokens .none [demoRegister, demoDeregister] demoEnd]).2 ?_ _ (List.prefix_refl _)
  intro log' hlog'
  have hprefix : log' <+: [.added (demoHeader.entry 4 ⟨[5], by decide⟩),
      .removed (demoHeader.entry 4 ⟨[5], by decide⟩)] := hlog'
  rcases List.prefix_cons_iff.1 hprefix with rfl | ⟨l, rfl, hl⟩
  · exact le_refl _
  · rcases List.prefix_cons_iff.1 hl with rfl | ⟨l', rfl, hl'⟩
    · exact Multiset.zero_le _
    · rw [List.prefix_nil.1 hl']
      exact le_refl _

/-- A spent UTXO of the mapping validator with a readable datum, which held no auth token and
so was never a registration. -/
def strayDb : CardanoDb :=
  { demoDb [] with
    deregistrations := fun _ =>
      [⟨.constr 0 [.constr 0 [.bytes (List.replicate 28 4)], .bytes [5]], 1, 7, 1000, 0, 2, 1, 0⟩] }

/-- What is observed of it. -/
def strayDeregister : ObservedUtxo :=
  ⟨⟨⟨7, 1, 1000, 0⟩, 2, 1, 0⟩,
    .deregistration ⟨rewardAddressBytes 1 (.keyHash (bytesToBitVec 224 (List.replicate 28 4))),
      ⟨[5], demoKey_length_le⟩⟩⟩

theorem mapping_log_unfaithful :
    getUtxosUpToCapacity demoSource.lib strayDb demoSource.config firstPosition 7 2 =
        .ok ⟨firstPosition, demoEnd, [strayDeregister]⟩ ∧
      ∃ entry, (run demoState [.processTokens .none [strayDeregister] demoEnd]).events =
          demoState.events ++ [.mappingRemoved entry] ∧
        (run demoState [.processTokens .none [strayDeregister] demoEnd]).mappings entry.1 = none ∧
        ¬ FaithfulLog [.mappingRemoved entry]
          (run demoState [.processTokens .none [strayDeregister] demoEnd]) := by
  have htip : tipEnd strayDb 7 = .ok demoEnd := by decide
  have hordered : demoSource.ordered strayDb firstPosition demoEnd 2 = [strayDeregister] := by
    decide +kernel
  refine ⟨?_, _, rfl, rfl, fun h => ?_⟩
  · rw [Source.getUtxosUpToCapacity_eq htip, if_pos (by decide), hordered]
    rfl
  · have hle := Multiset.card_le_card (h.matched _ (List.prefix_refl _))
    exact absurd hle (by decide)

end MidnightNode.Cnight
