/-
# Offers that transfer tokens

`SingleTxBuilder` and `BatchesBuilder` transfer an unshielded token from a source to several
destinations.  Both cover a value by UTXOs of the source, pay the same amount to each destination
and return what is left to the source.  The first one multiplies the amount by the number of
destinations and covers the product; the second one divides the value it covers, and the
remainder of the division goes nowhere.
-/
import MidnightNode.Toolkit.UtxoSelection

namespace MidnightNode.Toolkit

open Traverse
open scoped List

variable {U : UnshieldedCrate}

/-! ### Offers -/

/-- Whom an output pays: a wallet of the context, by its seed, or an `UnshieldedWallet`, by its
address. -/
inductive OutputOwner (U : UnshieldedCrate)
  | seed (seed : U.Seed)
  | wallet (userAddress : U.UserAddress)

/-- `UtxoOutputInfo`. -/
structure UtxoOutputInfo (U : UnshieldedCrate) where
  value : ℕ
  owner : OutputOwner U
  tokenType : U.TokenType

/-- `UnshieldedOfferInfo`. -/
structure UnshieldedOfferInfo (U : UnshieldedCrate) where
  inputs : List (UtxoSpendInfo U)
  outputs : List (UtxoOutputInfo U)

/-- `UnshieldedOffer`; there are no signatures yet. -/
structure UnshieldedOffer (U : UnshieldedCrate) where
  inputs : List (UtxoSpend U.VerifyingKey U.TokenType U.IntentHash)
  outputs : List (UtxoOutput U.UserAddress U.TokenType)

/-- `IntentInfo`, without actions. -/
structure IntentInfo (U : UnshieldedCrate) where
  guaranteedUnshieldedOffer : Option (UnshieldedOfferInfo U)
  fallibleUnshieldedOffer : Option (UnshieldedOfferInfo U)

/-- The address that an output pays. -/
def UnshieldedContext.addressOf (ctx : UnshieldedContext U) :
    OutputOwner U → Except OfferPanic U.UserAddress
  | .seed seed => do
    let key ← ctx.walletForSeed seed
    .ok (U.toAddress key)
  | .wallet userAddress => .ok userAddress

/-- `build` of an output. -/
def UtxoOutputInfo.build (ctx : UnshieldedContext U) (info : UtxoOutputInfo U) :
    Except OfferPanic (UtxoOutput U.UserAddress U.TokenType) := do
  let owner ← ctx.addressOf info.owner
  .ok ⟨info.value, owner, info.tokenType⟩

/-- `build` of an offer. -/
def UnshieldedOfferInfo.build (ctx : UnshieldedContext U) (info : UnshieldedOfferInfo U) :
    Except OfferPanic (UnshieldedOffer U) := do
  let inputs ← info.inputs.mapM (UtxoSpendInfo.build ctx)
  let outputs ← info.outputs.mapM (UtxoOutputInfo.build ctx)
  .ok ⟨inputs.insertionSort fun a b => U.leSpend a b,
    outputs.insertionSort fun a b => U.leOutput a b⟩

/-- The offers of an intent. -/
def IntentInfo.buildOffers (ctx : UnshieldedContext U) (info : IntentInfo U) :
    Except OfferPanic (List (UnshieldedOffer U)) :=
  (info.guaranteedUnshieldedOffer.toList ++ info.fallibleUnshieldedOffer.toList).mapM
    (UnshieldedOfferInfo.build ctx)

/-! ### The builders -/

/-- What both builders do: cover a value, pay an amount to each destination and return the rest
to the source. -/
def transferOffer (ctx : UnshieldedContext U) (source : U.Seed) (tokenType : U.TokenType)
    (required amountToSendPerOutput : ℕ) (destinations : List (OutputOwner U)) :
    Except OfferPanic (UnshieldedOfferInfo U) := do
  let (inputs, remainingNights) ← utxosToCoverValue ctx source required tokenType
  let outputs := destinations.map fun owner => ⟨amountToSendPerOutput, owner, tokenType⟩
  let refund := ⟨remainingNights, .seed source, tokenType⟩
  .ok ⟨inputs, outputs ++ if remainingNights > 0 then [refund] else []⟩

/-- `BatchesBuilder`, as far as it is used here. -/
structure BatchesBuilder (U : UnshieldedCrate) where
  initialUnshieldedIntentValue : ℕ
  unshieldedTokenType : U.TokenType

/-- `initial_unshielded_intents`. -/
def BatchesBuilder.initialUnshieldedIntents (b : BatchesBuilder U) (ctx : UnshieldedContext U)
    (fundingSeed : U.Seed) (outputWallets : List U.Seed) (amountToSendPerOutput : ℕ) :
    Except OfferPanic (IntentInfo U) := do
  let offer ← transferOffer ctx fundingSeed b.unshieldedTokenType b.initialUnshieldedIntentValue
    amountToSendPerOutput (outputWallets.map .seed)
  .ok ⟨some offer, none⟩

/-- The initial intents of `build_txs_from`. -/
def BatchesBuilder.initialIntents (b : BatchesBuilder U) (ctx : UnshieldedContext U)
    (fundingSeed : U.Seed) (firstBatchOutputWallets : List U.Seed) :
    Except OfferPanic (IntentInfo U) :=
  if firstBatchOutputWallets.length = 0 then .error .divisionByZero
  else
    b.initialUnshieldedIntents ctx fundingSeed firstBatchOutputWallets
      (b.initialUnshieldedIntentValue / firstBatchOutputWallets.length)

/-- `SingleTxBuilder`, as far as it is used here. -/
structure SingleTxBuilder (U : UnshieldedCrate) where
  unshieldedTokenType : U.TokenType

/-- `MAX_GUARANTEED_INPUTS_OUTPUTS`. -/
def maxGuaranteedInputsOutputs : ℕ := 3

/-- `build_unshielded_intents`. -/
def SingleTxBuilder.buildUnshieldedIntents (b : SingleTxBuilder U) (ctx : UnshieldedContext U)
    (sourceSeed : U.Seed) (outputWallets : List U.UserAddress) (amountToSendPerOutput : ℕ) :
    Except OfferPanic (IntentInfo U) :=
  let totalRequired := amountToSendPerOutput * outputWallets.length
  if totalRequired < 2 ^ 128 then do
    let offer ← transferOffer ctx sourceSeed b.unshieldedTokenType totalRequired
      amountToSendPerOutput (outputWallets.map .wallet)
    if offer.inputs.length + offer.outputs.length > maxGuaranteedInputsOutputs then
      .ok ⟨none, some offer⟩
    else .ok ⟨some offer, none⟩
  else .error .unshieldedAmountOverflow

/-! ### What the offers do -/

/-- The values of what is spent sum up to the values of the outputs. -/
def UnshieldedOffer.Balanced (offer : UnshieldedOffer U) : Prop :=
  (offer.inputs.map UtxoSpend.value).sum = (offer.outputs.map UtxoOutput.value).sum

instance (offer : UnshieldedOffer U) : Decidable offer.Balanced :=
  inferInstanceAs (Decidable (_ = _))

/-- An offer spends different UTXOs of the source, which sum up to a value and the change; it pays
the amount to each destination, and the change to the source if there is any. -/
structure Transfers (ctx : UnshieldedContext U) (source : U.Seed) (tokenType : U.TokenType)
    (required amount : ℕ) (destinations : List (OutputOwner U)) (change : ℕ)
    (offer : UnshieldedOffer U) : Prop where
  distinct : (offer.inputs.map UtxoSpend.utxo).Nodup
  owned : ∀ spend ∈ offer.inputs, spend.utxo ∈ ctx.utxos ∧ spend.type_ = tokenType ∧
    ctx.addressOf (.seed source) = .ok spend.utxo.owner
  spent : (offer.inputs.map UtxoSpend.value).sum = required + change
  paid : ∃ addresses sourceAddress, destinations.mapM ctx.addressOf = .ok addresses ∧
    ctx.addressOf (.seed source) = .ok sourceAddress ∧
    offer.outputs.Perm (addresses.map (fun address => ⟨amount, address, tokenType⟩) ++
      if change > 0 then [⟨change, sourceAddress, tokenType⟩] else [])

/-- The outputs of an offer sum up to the amounts and the change. -/
lemma Transfers.sum_outputs {ctx : UnshieldedContext U} {source : U.Seed}
    {tokenType : U.TokenType} {required amount : ℕ} {destinations : List (OutputOwner U)}
    {change : ℕ} {offer : UnshieldedOffer U}
    (h : Transfers ctx source tokenType required amount destinations change offer) :
    (offer.outputs.map UtxoOutput.value).sum = destinations.length * amount + change := by
  obtain ⟨addresses, sourceAddress, haddresses, -, hperm⟩ := h.paid
  have hlength : addresses.length = destinations.length :=
    (mapM_eq_ok_iff.1 haddresses).length_eq.symm
  rw [(hperm.map UtxoOutput.value).sum_eq, List.map_append, List.sum_append, List.map_map]
  have hconst : addresses.map (UtxoOutput.value ∘ fun address =>
      (⟨amount, address, tokenType⟩ : UtxoOutput U.UserAddress U.TokenType)) =
      List.replicate destinations.length amount := by
    rw [← hlength]
    exact List.map_const'
  rw [hconst, List.sum_replicate_nat]
  congr 1
  split
  · simp
  · rename_i hzero
    rw [Nat.eq_zero_of_not_pos hzero]
    rfl

/-- Outputs are built for the addresses of their owners. -/
lemma mapM_build_outputs {ctx : UnshieldedContext U} {tokenType : U.TokenType} {amount : ℕ}
    {destinations : List (OutputOwner U)} {outputs : List (UtxoOutput U.UserAddress U.TokenType)}
    (h : (destinations.map fun owner => (⟨amount, owner, tokenType⟩ : UtxoOutputInfo U)).mapM
      (UtxoOutputInfo.build ctx) = .ok outputs) :
    ∃ addresses, destinations.mapM ctx.addressOf = .ok addresses ∧
      outputs = addresses.map fun address => ⟨amount, address, tokenType⟩ := by
  induction destinations generalizing outputs with
  | nil =>
    obtain rfl := Except.ok.inj h
    exact ⟨[], rfl, rfl⟩
  | cons owner destinations ih =>
    rw [List.map_cons, List.mapM_cons] at h
    obtain ⟨output, hbuild, h⟩ := bind_eq_ok.1 h
    obtain ⟨rest, hrest, h⟩ := bind_eq_ok.1 h
    obtain ⟨address, haddress, houtput⟩ := bind_eq_ok.1 hbuild
    obtain ⟨addresses, haddresses, rfl⟩ := ih hrest
    obtain rfl := Except.ok.inj houtput
    obtain rfl := Except.ok.inj h
    refine ⟨address :: addresses, ?_, rfl⟩
    rw [List.mapM_cons, haddress, haddresses]
    rfl

/-- The change, if there is any, is paid to the address of the source. -/
lemma mapM_build_refund {ctx : UnshieldedContext U} {owner : OutputOwner U}
    {address : U.UserAddress} {tokenType : U.TokenType} {change : ℕ}
    {outputs : List (UtxoOutput U.UserAddress U.TokenType)}
    (howner : ctx.addressOf owner = .ok address)
    (h : (if change > 0 then [⟨change, owner, tokenType⟩] else []).mapM
      (UtxoOutputInfo.build ctx) = .ok outputs) :
    outputs = if change > 0 then [⟨change, address, tokenType⟩] else [] := by
  refine Except.ok.inj (h.symm.trans ?_)
  split
  · rw [List.mapM_cons, List.mapM_nil, UtxoOutputInfo.build, howner]
    rfl
  · rfl

/-- Inputs that name UTXOs of a wallet are built as spends of these. -/
lemma mapM_build_inputs {ctx : UnshieldedContext U} {source : U.Seed} {key : U.VerifyingKey}
    (hkey : ctx.wallets source = some key)
    {utxos : List (Utxo U.UserAddress U.TokenType U.IntentHash)}
    {inputs : List (UtxoSpend U.VerifyingKey U.TokenType U.IntentHash)}
    (h : (utxos.map (Utxo.toSpendInfo source)).mapM (UtxoSpendInfo.build ctx) = .ok inputs) :
    inputs = utxos.map (Utxo.toSpend key) := by
  refine Except.ok.inj (h.symm.trans ?_)
  rw [mapM_eq_ok_iff, List.forall₂_map_left_iff, List.forall₂_map_right_iff, List.forall₂_same]
  exact fun u _ => build_toSpendInfo hkey u

lemma map_utxo_toSpend {key : U.VerifyingKey}
    {utxos : List (Utxo U.UserAddress U.TokenType U.IntentHash)}
    (howned : ∀ u ∈ utxos, u.owner = U.toAddress key) :
    (utxos.map (Utxo.toSpend key)).map UtxoSpend.utxo = utxos := by
  rw [List.map_map]
  exact (List.map_congr_left fun u hu => utxo_toSpend (howned u hu)).trans (List.map_id utxos)

/-- The offer that both builders make, when it is built. -/
lemma transfers_of_build {ctx : UnshieldedContext U} {source : U.Seed} {tokenType : U.TokenType}
    {required amount : ℕ} {destinations : List (OutputOwner U)} {info : UnshieldedOfferInfo U}
    {offer : UnshieldedOffer U}
    (hinfo : transferOffer ctx source tokenType required amount destinations = .ok info)
    (hoffer : info.build ctx = .ok offer) :
    ∃ change, Transfers ctx source tokenType required amount destinations change offer := by
  obtain ⟨⟨sel, change⟩, hselect, hinfo⟩ := bind_eq_ok.1 hinfo
  obtain rfl := Except.ok.inj hinfo
  obtain ⟨key, utxos, hkey, rfl, hnodup, hsubset, hsum⟩ := utxosToCoverValue_spec hselect
  have hsource : ctx.addressOf (.seed source) = .ok (U.toAddress key) := by
    rw [UnshieldedContext.addressOf, UnshieldedContext.walletForSeed, hkey]
    rfl
  obtain ⟨inputs, hinputs, hoffer⟩ := bind_eq_ok.1 hoffer
  obtain ⟨outputs, houtputs, hoffer⟩ := bind_eq_ok.1 hoffer
  obtain rfl := Except.ok.inj hoffer
  -- the inputs name the UTXOs that were selected
  obtain rfl := mapM_build_inputs hkey hinputs
  have howned : ∀ u ∈ utxos, u ∈ ctx.utxos ∧ u.type_ = tokenType ∧ u.owner = U.toAddress key := by
    intro u hu
    have hmem := List.mem_filter.1 (hsubset hu)
    exact ⟨hmem.1, of_decide_eq_true hmem.2⟩
  have hperm := List.perm_insertionSort (fun a b => U.leSpend a b) (utxos.map (Utxo.toSpend key))
  refine ⟨change, ?_, ?_, ?_, ?_⟩
  · rw [(hperm.map UtxoSpend.utxo).nodup_iff, map_utxo_toSpend fun u hu => (howned u hu).2.2]
    exact hnodup
  · intro spend hspend
    obtain ⟨u, hu, rfl⟩ := List.mem_map.1 (hperm.subset hspend)
    obtain ⟨hmem, htype, howner⟩ := howned u hu
    rw [utxo_toSpend howner, howner]
    exact ⟨hmem, htype, hsource⟩
  · rw [(hperm.map UtxoSpend.value).sum_eq, List.map_map]
    exact hsum
  · -- the outputs are those of the destinations and that of the change
    rw [List.mapM_append] at houtputs
    obtain ⟨shares, hshares, houtputs⟩ := bind_eq_ok.1 houtputs
    obtain ⟨refund, hrefund, houtputs⟩ := bind_eq_ok.1 houtputs
    obtain rfl := Except.ok.inj houtputs
    obtain ⟨addresses, haddresses, rfl⟩ := mapM_build_outputs hshares
    refine ⟨addresses, U.toAddress key, haddresses, hsource, ?_⟩
    rw [← mapM_build_refund hsource hrefund]
    exact List.perm_insertionSort _ _

/-! ### Both builders -/

/-- An intent with one offer. -/
lemma mapM_build_singleton {ctx : UnshieldedContext U} {info : UnshieldedOfferInfo U}
    {offers : List (UnshieldedOffer U)}
    (h : [info].mapM (UnshieldedOfferInfo.build ctx) = .ok offers) :
    ∃ offer, info.build ctx = .ok offer ∧ offers = [offer] := by
  rw [List.mapM_cons] at h
  obtain ⟨offer, hoffer, h⟩ := bind_eq_ok.1 h
  exact ⟨offer, hoffer, (Except.ok.inj h).symm⟩

/-- Transfers of the toolkit spend different UTXOs of the source, pay each destination its share
and return the change.  What is spent is what is paid always for `SingleTxBuilder`, and for
`BatchesBuilder` exactly if the number of destinations divides the value. -/
theorem transfers_balanced :
    (∀ (b : BatchesBuilder U) (ctx : UnshieldedContext U) (fundingSeed : U.Seed)
      (outputWallets : List U.Seed) (intent : IntentInfo U) (offers : List (UnshieldedOffer U)),
      b.initialIntents ctx fundingSeed outputWallets = .ok intent →
      intent.buildOffers ctx = .ok offers →
      ∃ offer change, offers = [offer] ∧
        Transfers ctx fundingSeed b.unshieldedTokenType b.initialUnshieldedIntentValue
          (b.initialUnshieldedIntentValue / outputWallets.length) (outputWallets.map .seed)
          change offer ∧
        (offer.Balanced ↔ outputWallets.length ∣ b.initialUnshieldedIntentValue)) ∧
    ∀ (b : SingleTxBuilder U) (ctx : UnshieldedContext U) (sourceSeed : U.Seed)
      (outputWallets : List U.UserAddress) (amount : ℕ) (intent : IntentInfo U)
      (offers : List (UnshieldedOffer U)),
      b.buildUnshieldedIntents ctx sourceSeed outputWallets amount = .ok intent →
      intent.buildOffers ctx = .ok offers →
      ∃ offer change, offers = [offer] ∧
        Transfers ctx sourceSeed b.unshieldedTokenType (amount * outputWallets.length) amount
          (outputWallets.map .wallet) change offer ∧
        offer.Balanced := by
  constructor
  · intro b ctx fundingSeed outputWallets intent offers hintent hoffers
    rw [BatchesBuilder.initialIntents] at hintent
    split at hintent
    · exact absurd hintent (by simp)
    · obtain ⟨info, hinfo, hintent⟩ := bind_eq_ok.1 hintent
      obtain rfl := Except.ok.inj hintent
      obtain ⟨offer, hoffer, rfl⟩ := mapM_build_singleton hoffers
      obtain ⟨change, htransfers⟩ := transfers_of_build hinfo hoffer
      refine ⟨offer, change, rfl, htransfers, ?_⟩
      rw [UnshieldedOffer.Balanced, htransfers.spent, htransfers.sum_outputs, List.length_map,
        Nat.add_right_cancel_iff]
      rw [Nat.dvd_iff_mod_eq_zero]
      have := Nat.div_add_mod b.initialUnshieldedIntentValue outputWallets.length
      omega
  · intro b ctx sourceSeed outputWallets amount intent offers hintent hoffers
    rw [SingleTxBuilder.buildUnshieldedIntents] at hintent
    split at hintent
    · obtain ⟨info, hinfo, hintent⟩ := bind_eq_ok.1 hintent
      have hinfos : [info].mapM (UnshieldedOfferInfo.build ctx) = .ok offers := by
        split at hintent
        · obtain rfl := Except.ok.inj hintent
          exact hoffers
        · obtain rfl := Except.ok.inj hintent
          exact hoffers
      obtain ⟨offer, hoffer, rfl⟩ := mapM_build_singleton hinfos
      obtain ⟨change, htransfers⟩ := transfers_of_build hinfo hoffer
      refine ⟨offer, change, rfl, htransfers, ?_⟩
      rw [UnshieldedOffer.Balanced, htransfers.spent, htransfers.sum_outputs, List.length_map,
        Nat.mul_comm]
    · exact absurd hintent (by simp)

/-! ### A small crate -/

/-- Three UTXOs, two of them of the wallet 1, and the wallets 1 to 4. -/
def smallContext : UnshieldedContext smallCrate where
  utxos := [⟨10, 1, 0, 7, 0⟩, ⟨10, 2, 0, 7, 1⟩, ⟨4, 1, 0, 8, 0⟩]
  nodup := by simp
  wallets seed := if 1 ≤ seed ∧ seed ≤ 4 then some seed else none

/-- The initial offer of a batch on the small crate. -/
def smallBatch (value : ℕ) (outputWallets : List ℕ) :
    Except OfferPanic (List (UnshieldedOffer smallCrate)) := do
  let intent ← (⟨value, 0⟩ : BatchesBuilder smallCrate).initialIntents smallContext 1 outputWallets
  intent.buildOffers smallContext

/-- The offer of a single transaction on the small crate. -/
def smallSingle (amount : ℕ) (outputWallets : List ℕ) :
    Except OfferPanic (List (UnshieldedOffer smallCrate)) := do
  let intent ← (⟨0⟩ : SingleTxBuilder smallCrate).buildUnshieldedIntents smallContext 1
    outputWallets amount
  intent.buildOffers smallContext

/-- Eight is divided among three wallets: six is paid, and two returned of ten. -/
theorem not_balanced_eight_by_three :
    ∃ offer, smallBatch 8 [2, 3, 4] = .ok [offer] ∧ ¬ offer.Balanced :=
  ⟨⟨[⟨10, 1, 0, 7, 0⟩], [⟨2, 2, 0⟩, ⟨2, 3, 0⟩, ⟨2, 4, 0⟩, ⟨2, 1, 0⟩]⟩, rfl, by decide⟩

/-- Nine is divided among three wallets, and three is sent to each of four addresses. -/
theorem balanced_nine_by_three :
    (∃ offer, smallBatch 9 [2, 3, 4] = .ok [offer] ∧ offer.Balanced) ∧
      ∃ offer, smallSingle 3 [2, 3, 4, 5] = .ok [offer] ∧ offer.Balanced := by
  constructor
  · obtain ⟨offer, change, hoffer, -, hiff⟩ := (transfers_balanced (U := smallCrate)).1
      ⟨9, 0⟩ smallContext 1 [2, 3, 4] _ _ rfl rfl
    exact ⟨offer, congrArg Except.ok hoffer, hiff.2 (by decide)⟩
  · obtain ⟨offer, change, hoffer, -, hbalanced⟩ := (transfers_balanced (U := smallCrate)).2
      ⟨0⟩ smallContext 1 [2, 3, 4, 5] 3 _ _ rfl rfl
    exact ⟨offer, congrArg Except.ok hoffer, hbalanced⟩

end MidnightNode.Toolkit
