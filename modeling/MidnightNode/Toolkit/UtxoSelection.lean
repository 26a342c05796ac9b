/-
# Selecting UTXOs

`utxos_to_cover_value` selects UTXOs of a wallet that cover a value, and `build` makes a spend of
each.  `select_inputs` takes a UTXO that covers what is missing if there is one, and the last of
the list otherwise, until the value is covered; what is taken leaves the list by `swap_remove`.

Values are natural numbers below `2 ^ 128`; an addition that leaves this range panics.

`selectRound` is one round of the loop, and `SelectMove` says what it can do.  The loop always ends
(`returns_selectInputs`).  If all values together are in range then nothing overflows, a value is
covered whenever there is enough (`selects_selectInputs`), and a wallet that cannot cover a value
does not own it (`utxosToCoverValue_complete`).
-/
import MidnightNode.Lib.Loop
import MidnightNode.Lib.Vec
import MidnightNode.Lib.Traverse
import Mathlib.Algebra.GroupWithZero.Nat
import Mathlib.Algebra.Order.BigOperators.Group.List
import Mathlib.Algebra.Order.Group.Nat
import Mathlib.Data.List.Sort

namespace MidnightNode.Toolkit

open Loop Traverse
open scoped List

/-- `UtxoSpend`. -/
structure UtxoSpend (VerifyingKey TokenType IntentHash : Type) where
  value : ℕ
  owner : VerifyingKey
  type_ : TokenType
  intentHash : IntentHash
  outputNo : ℕ

/-- `UtxoOutput`. -/
structure UtxoOutput (UserAddress TokenType : Type) where
  value : ℕ
  owner : UserAddress
  type_ : TokenType

/-- `Utxo`. -/
structure Utxo (UserAddress TokenType IntentHash : Type) where
  value : ℕ
  owner : UserAddress
  type_ : TokenType
  intentHash : IntentHash
  outputNo : ℕ

/-- The types of the ledger crate, how a verifying key becomes an address, and the orders by which
the parts of an offer are sorted. -/
structure UnshieldedCrate where
  /-- `WalletSeed`. -/
  Seed : Type
  VerifyingKey : Type
  UserAddress : Type
  TokenType : Type
  IntentHash : Type
  [decUserAddress : DecidableEq UserAddress]
  [decTokenType : DecidableEq TokenType]
  [decIntentHash : DecidableEq IntentHash]
  /-- `into`. -/
  toAddress : VerifyingKey → UserAddress
  leSpend : UtxoSpend VerifyingKey TokenType IntentHash →
    UtxoSpend VerifyingKey TokenType IntentHash → Bool
  leOutput : UtxoOutput UserAddress TokenType → UtxoOutput UserAddress TokenType → Bool

attribute [instance] UnshieldedCrate.decUserAddress UnshieldedCrate.decTokenType
  UnshieldedCrate.decIntentHash

variable {U : UnshieldedCrate}

/-- `UtxoSpendInfo`, with a seed as its owner. -/
structure UtxoSpendInfo (U : UnshieldedCrate) where
  value : ℕ
  owner : U.Seed
  tokenType : U.TokenType
  intentHash : Option U.IntentHash
  outputNumber : Option ℕ

/-- The UTXOs of the ledger and the verifying keys of the wallets of a context. -/
structure UnshieldedContext (U : UnshieldedCrate) where
  utxos : List (Utxo U.UserAddress U.TokenType U.IntentHash)
  /-- They are the keys of a map. -/
  nodup : utxos.Nodup
  wallets : U.Seed → Option U.VerifyingKey

/-- Where the construction of an offer panics. -/
inductive OfferPanic
  /-- An addition overflows. -/
  | overflow
  /-- A division by zero. -/
  | divisionByZero
  /-- `swap_remove` of an index that is not there. -/
  | index
  /-- There is no wallet for a seed. -/
  | walletNotPresent
  /-- `"There are no fundings of token … and amount >= … to spend by Wallet …"`. -/
  | noFundings
  /-- `"Could not select UTXOs with … of … from …"`. -/
  | couldNotSelect
  /-- `"unshielded amount overflow"`. -/
  | unshieldedAmountOverflow
deriving DecidableEq

/-! ### The selection -/

/-- An addition of values. -/
def checkedAdd (a b : ℕ) : Except OfferPanic ℕ :=
  if a + b < 2 ^ 128 then .ok (a + b) else .error .overflow

lemma checkedAdd_of_lt {a b : ℕ} (h : a + b < 2 ^ 128) : checkedAdd a b = .ok (a + b) :=
  if_pos h

lemma checkedAdd_of_le {a b : ℕ} (h : 2 ^ 128 ≤ a + b) : checkedAdd a b = .error .overflow :=
  if_neg (Nat.not_lt.2 h)

/-- The position of the first UTXO that covers more than what is missing. -/
def position (total required : ℕ) : List (UtxoSpendInfo U) → Except OfferPanic (Option ℕ)
  | [] => .ok none
  | qi :: inputs => do
    let sum ← checkedAdd qi.value total
    if sum > required then .ok (some 0)
    else do
      let rest ← position total required inputs
      .ok (rest.map (· + 1))

/-- The loop of `select_inputs`.  Each round takes one UTXO out of the list, so as many rounds as
there are UTXOs suffice. -/
def selectLoop (required : ℕ) : ℕ → List (UtxoSpendInfo U) → ℕ → List (UtxoSpendInfo U) →
    Except OfferPanic (Option (List (UtxoSpendInfo U) × ℕ))
  | 0, _, _, _ => .ok none
  | rounds + 1, inputs, total, selected =>
    if inputs.isEmpty then .ok none
    else do
      let found ← position total required inputs
      let idx := found.getD (inputs.length - 1)
      match inputs[idx]? with
      | none => .error .index
      | some utxo => do
        let total ← checkedAdd total utxo.value
        if required ≤ total then .ok (some (selected ++ [utxo], total - required))
        else selectLoop required rounds (Vec.swapRemove inputs idx) total (selected ++ [utxo])

/-- `select_inputs`. -/
def selectInputs (inputs : List (UtxoSpendInfo U)) (required : ℕ) :
    Except OfferPanic (Option (List (UtxoSpendInfo U) × ℕ)) :=
  selectLoop required inputs.length inputs 0 []

/-- `wallet_for_seed`, of which only the verifying key is used. -/
def UnshieldedContext.walletForSeed (ctx : UnshieldedContext U) (seed : U.Seed) :
    Except OfferPanic U.VerifyingKey :=
  match ctx.wallets seed with
  | none => .error .walletNotPresent
  | some key => .ok key

/-- A UTXO of the ledger as an input that names it. -/
def Utxo.toSpendInfo (seed : U.Seed) (utxo : Utxo U.UserAddress U.TokenType U.IntentHash) :
    UtxoSpendInfo U :=
  ⟨utxo.value, seed, utxo.type_, some utxo.intentHash, some utxo.outputNo⟩

/-- The UTXOs of a token that an address owns. -/
def UnshieldedContext.owned (ctx : UnshieldedContext U) (tokenType : U.TokenType)
    (owner : U.UserAddress) : List (Utxo U.UserAddress U.TokenType U.IntentHash) :=
  ctx.utxos.filter fun utxo => utxo.type_ = tokenType ∧ utxo.owner = owner

/-- `utxos_to_cover_value`. -/
def utxosToCoverValue (ctx : UnshieldedContext U) (seed : U.Seed) (requiredValue : ℕ)
    (tokenType : U.TokenType) : Except OfferPanic (List (UtxoSpendInfo U) × ℕ) := do
  let owner ← ctx.walletForSeed seed
  let matchingInputs := (ctx.owned tokenType (U.toAddress owner)).map (Utxo.toSpendInfo seed)
  match ← selectInputs matchingInputs requiredValue with
  | none => .error .couldNotSelect
  | some r => .ok r

/-! ### Spends -/

/-- `min_match_utxo`: of the UTXOs that match, the first one of the smallest value. -/
def UtxoSpendInfo.minMatchUtxo (info : UtxoSpendInfo U) (ctx : UnshieldedContext U)
    (owner : U.VerifyingKey) :
    Except OfferPanic (Utxo U.UserAddress U.TokenType U.IntentHash) :=
  let matching := ctx.utxos.filter fun utxo =>
    utxo.type_ = info.tokenType ∧ utxo.value ≥ info.value ∧ utxo.owner = U.toAddress owner ∧
      (∀ h ∈ info.intentHash, utxo.intentHash = h) ∧ ∀ o ∈ info.outputNumber, utxo.outputNo = o
  match (matching.insertionSort fun a b => a.value ≤ b.value).head? with
  | none => .error .noFundings
  | some utxo => .ok utxo

/-- `build`: the spend of the UTXO that the input names, or of the one that matches it best. -/
def UtxoSpendInfo.build (ctx : UnshieldedContext U) (info : UtxoSpendInfo U) :
    Except OfferPanic (UtxoSpend U.VerifyingKey U.TokenType U.IntentHash) := do
  let owner ← ctx.walletForSeed info.owner
  match info.intentHash, info.outputNumber with
  | some intentHash, some outputNo =>
    .ok ⟨info.value, owner, info.tokenType, intentHash, outputNo⟩
  | _, _ => do
    let utxo ← info.minMatchUtxo ctx owner
    .ok ⟨utxo.value, owner, utxo.type_, utxo.intentHash, utxo.outputNo⟩

/-- The spend of a UTXO with a key. -/
def Utxo.toSpend (owner : U.VerifyingKey) (utxo : Utxo U.UserAddress U.TokenType U.IntentHash) :
    UtxoSpend U.VerifyingKey U.TokenType U.IntentHash :=
  ⟨utxo.value, owner, utxo.type_, utxo.intentHash, utxo.outputNo⟩

/-- The UTXO that a spend spends. -/
def UtxoSpend.utxo (spend : UtxoSpend U.VerifyingKey U.TokenType U.IntentHash) :
    Utxo U.UserAddress U.TokenType U.IntentHash :=
  ⟨spend.value, U.toAddress spend.owner, spend.type_, spend.intentHash, spend.outputNo⟩

/-! ### One round of the selection -/

/-- What a round of `select_inputs` works on: what is left to select from, the value selected so
far, and what is selected. -/
structure SelectState (U : UnshieldedCrate) where
  inputs : List (UtxoSpendInfo U)
  total : ℕ
  selected : List (UtxoSpendInfo U)

/-- One round of the loop of `select_inputs`, which goes on or returns. -/
def selectRound (required : ℕ) (s : SelectState U) :
    SelectState U ⊕ Except OfferPanic (Option (List (UtxoSpendInfo U) × ℕ)) :=
  if s.inputs.isEmpty then .inr (.ok none)
  else
    match position s.total required s.inputs with
    | .error e => .inr (.error e)
    | .ok found =>
      match s.inputs[found.getD (s.inputs.length - 1)]? with
      | none => .inr (.error .index)
      | some utxo =>
        match checkedAdd s.total utxo.value with
        | .error e => .inr (.error e)
        | .ok total =>
          if required ≤ total then .inr (.ok (some (s.selected ++ [utxo], total - required)))
          else .inl ⟨Vec.swapRemove s.inputs (found.getD (s.inputs.length - 1)), total,
            s.selected ++ [utxo]⟩

/-- The loop is its rounds, one after the other. -/
lemma selectLoop_succ (required rounds : ℕ) (s : SelectState U) :
    selectLoop required (rounds + 1) s.inputs s.total s.selected =
      match selectRound required s with
      | .inl s' => selectLoop required rounds s'.inputs s'.total s'.selected
      | .inr r => r := by
  rw [selectLoop, selectRound]
  split
  · rfl
  · cases position s.total required s.inputs with
    | error e => rfl
    | ok found =>
      simp only [bind, Except.bind]
      cases s.inputs[found.getD (s.inputs.length - 1)]? with
      | none => rfl
      | some utxo =>
        dsimp only
        cases checkedAdd s.total utxo.value with
        | error e => rfl
        | ok total =>
          dsimp only
          split <;> rfl

/-- What `position` makes of a list: it finds a UTXO that covers more than what is missing, there
is none, or an addition overflows. -/
inductive Found (total required : ℕ) (inputs : List (UtxoSpendInfo U)) :
    Except OfferPanic (Option ℕ) → Prop
  | covers {i : ℕ} {utxo : UtxoSpendInfo U} (hutxo : inputs[i]? = some utxo)
      (hcovers : required < total + utxo.value) : Found total required inputs (.ok (some i))
  | nowhere (hnone : ∀ qi ∈ inputs, total + qi.value ≤ required) :
      Found total required inputs (.ok none)
  | overflow (hlarge : ∃ qi ∈ inputs, 2 ^ 128 ≤ total + qi.value) :
      Found total required inputs (.error .overflow)

lemma found_position (total required : ℕ) (inputs : List (UtxoSpendInfo U)) :
    Found total required inputs (position total required inputs) := by
  induction inputs with
  | nil => exact .nowhere (by simp)
  | cons qi inputs ih =>
    rw [position]
    by_cases hfits : qi.value + total < 2 ^ 128
    · rw [checkedAdd_of_lt hfits]
      simp only [bind, Except.bind]
      by_cases hcovers : qi.value + total > required
      · rw [if_pos hcovers]
        exact .covers rfl (by omega)
      · rw [if_neg hcovers]
        -- the rest of the list decides
        generalize position total required inputs = found at ih ⊢
        cases ih with
        | covers hutxo hcovers => exact .covers hutxo hcovers
        | nowhere hnone =>
          exact .nowhere (List.forall_mem_cons.2 ⟨by omega, hnone⟩)
        | overflow hlarge =>
          obtain ⟨large, hmem, hlarge⟩ := hlarge
          exact .overflow ⟨large, List.mem_cons_of_mem _ hmem, hlarge⟩
    · rw [checkedAdd_of_le (by omega)]
      exact .overflow ⟨qi, List.mem_cons_self, by omega⟩

/-- There is a UTXO at the position that a round takes one from, and if it does not cover what is
missing then none covers more than that. -/
lemma Found.exists_utxo {total required : ℕ} {inputs : List (UtxoSpendInfo U)} {found : Option ℕ}
    (h : Found total required inputs (.ok found)) (hne : inputs ≠ []) :
    ∃ utxo, inputs[found.getD (inputs.length - 1)]? = some utxo ∧
      (total + utxo.value < required → ∀ qi ∈ inputs, total + qi.value ≤ required) := by
  cases h with
  | @covers i utxo hutxo hcovers => exact ⟨utxo, hutxo, fun hmissing => by omega⟩
  | nowhere hnone =>
    have hpos := List.length_pos_iff.2 hne
    exact ⟨_, List.getElem?_eq_getElem (by rw [Option.getD_none]; omega), fun _ => hnone⟩

/-- The state after a round took a UTXO. -/
def SelectState.take (s : SelectState U) (idx : ℕ) (utxo : UtxoSpendInfo U) : SelectState U :=
  ⟨Vec.swapRemove s.inputs idx, s.total + utxo.value, s.selected ++ [utxo]⟩

/-- What a round does.  It goes on only if no UTXO covers more than what is missing. -/
inductive SelectMove (required : ℕ) (s : SelectState U) :
    SelectState U ⊕ Except OfferPanic (Option (List (UtxoSpendInfo U) × ℕ)) → Prop
  | empty (hempty : s.inputs = []) : SelectMove required s (.inr (.ok none))
  | overflow (hlarge : ∃ qi ∈ s.inputs, 2 ^ 128 ≤ s.total + qi.value) :
      SelectMove required s (.inr (.error .overflow))
  | covered {idx : ℕ} {utxo : UtxoSpendInfo U} (hutxo : s.inputs[idx]? = some utxo)
      (hcovered : required ≤ (s.take idx utxo).total) :
      SelectMove required s
        (.inr (.ok (some ((s.take idx utxo).selected, (s.take idx utxo).total - required))))
  | missing {idx : ℕ} {utxo : UtxoSpendInfo U} (hutxo : s.inputs[idx]? = some utxo)
      (hmissing : (s.take idx utxo).total < required)
      (hnone : ∀ qi ∈ s.inputs, s.total + qi.value ≤ required) :
      SelectMove required s (.inl (s.take idx utxo))

lemma selectMove_selectRound (required : ℕ) (s : SelectState U) :
    SelectMove required s (selectRound required s) := by
  rw [selectRound]
  split
  · rename_i hempty
    exact .empty (List.isEmpty_iff.1 hempty)
  · rename_i hne
    have hfound := found_position s.total required s.inputs
    generalize position s.total required s.inputs = result at hfound ⊢
    cases result with
    | error e =>
      cases hfound with
      | overflow hlarge => exact .overflow hlarge
    | ok found =>
      obtain ⟨utxo, hutxo, hnone⟩ := hfound.exists_utxo fun h => hne (List.isEmpty_iff.2 h)
      dsimp only
      rw [hutxo]
      dsimp only
      by_cases hfits : s.total + utxo.value < 2 ^ 128
      · rw [checkedAdd_of_lt hfits]
        dsimp only
        split
        · rename_i hcovered
          exact .covered hutxo hcovered
        · rename_i hmissing
          have hmissing := Nat.lt_of_not_le hmissing
          exact .missing hutxo hmissing (hnone hmissing)
      · rw [checkedAdd_of_le (by omega)]
        exact .overflow ⟨utxo, List.mem_of_getElem? hutxo, by omega⟩

/-- The loop ends, after no more rounds than there are UTXOs. -/
lemma returns_selectLoop (required : ℕ) {rounds : ℕ} {s : SelectState U}
    (hrounds : s.inputs.length ≤ rounds) :
    Returns (selectRound required) s (selectLoop required rounds s.inputs s.total s.selected) := by
  induction rounds generalizing s with
  | zero =>
    have hempty := List.length_eq_zero_iff.1 (Nat.le_zero.1 hrounds)
    exact .now (if_pos (List.isEmpty_iff.2 hempty))
  | succ rounds ih =>
    rw [selectLoop_succ]
    have hmove := selectMove_selectRound required s
    generalize hround : selectRound required s = move at hmove ⊢
    cases hmove with
    | empty _ => exact .now hround
    | overflow _ => exact .now hround
    | covered _ _ => exact .now hround
    | @missing idx utxo hutxo _ _ =>
      have hlength : (Vec.swapRemove s.inputs idx).length + 1 = s.inputs.length :=
        (Vec.cons_swapRemove_perm hutxo).length_eq
      have hrest : (s.take idx utxo).inputs.length ≤ rounds := by
        dsimp only [SelectState.take]
        omega
      exact .later hround (ih hrest)

lemma returns_selectInputs (inputs : List (UtxoSpendInfo U)) (required : ℕ) :
    Returns (selectRound required) ⟨inputs, 0, []⟩ (selectInputs inputs required) :=
  returns_selectLoop required le_rfl

/-! ### What is selected -/

/-- What is selected and what is left are together what was there, and the total is the value of
what is selected. -/
structure SelectState.Splits (inputs : List (UtxoSpendInfo U)) (s : SelectState U) : Prop where
  perm : (s.selected ++ s.inputs).Perm inputs
  total : s.total = (s.selected.map UtxoSpendInfo.value).sum

namespace SelectState.Splits

variable {inputs : List (UtxoSpendInfo U)} {s : SelectState U} {required : ℕ}

lemma start (inputs : List (UtxoSpendInfo U)) : Splits inputs ⟨inputs, 0, []⟩ :=
  ⟨.refl _, rfl⟩

lemma take (hs : s.Splits inputs) {idx : ℕ} {utxo : UtxoSpendInfo U}
    (hutxo : s.inputs[idx]? = some utxo) : (s.take idx utxo).Splits inputs where
  perm := by
    have hperm := (Vec.cons_swapRemove_perm hutxo).append_left s.selected
    rw [SelectState.take, List.append_assoc]
    exact hperm.trans hs.perm
  total := by
    rw [SelectState.take, hs.total, List.map_append, List.sum_append]
    simp

lemma round (hs : s.Splits inputs) {s' : SelectState U} (h : selectRound required s = .inl s') :
    s'.Splits inputs := by
  have hmove := selectMove_selectRound required s
  rw [h] at hmove
  cases hmove with
  | missing hutxo _ _ => exact hs.take hutxo

/-- What is selected and what is left are worth what was there. -/
lemma sum_add_sum (hs : s.Splits inputs) :
    s.total + (s.inputs.map UtxoSpendInfo.value).sum = (inputs.map UtxoSpendInfo.value).sum := by
  rw [hs.total, ← List.sum_append, ← List.map_append]
  exact (hs.perm.map _).sum_eq

lemma add_le_sum (hs : s.Splits inputs) {qi : UtxoSpendInfo U} (hqi : qi ∈ s.inputs) :
    s.total + qi.value ≤ (inputs.map UtxoSpendInfo.value).sum := by
  have hle : qi.value ≤ (s.inputs.map UtxoSpendInfo.value).sum :=
    List.le_sum_of_mem (List.mem_map_of_mem hqi)
  rw [← hs.sum_add_sum]
  omega

end SelectState.Splits

/-- What is selected is part of what was there, and its values sum up to the required value and
the change. -/
lemma selectInputs_spec {inputs sel : List (UtxoSpendInfo U)} {required change : ℕ}
    (h : selectInputs inputs required = .ok (some (sel, change))) :
    (sel.map UtxoSpendInfo.value).sum = required + change ∧ ∃ rest, (sel ++ rest).Perm inputs := by
  refine (returns_selectInputs inputs required).rule (SelectState.Splits inputs)
    (fun r => r = .ok (some (sel, change)) → _) (.start inputs)
    (fun _ _ hs hround => hs.round hround) ?_ h
  rintro s r hs hround rfl
  have hmove := selectMove_selectRound required s
  rw [hround] at hmove
  cases hmove with
  | covered hutxo hcovered =>
    have htake := hs.take hutxo
    refine ⟨?_, _, htake.perm⟩
    rw [← htake.total]
    omega

/-! ### Completeness and minimality -/

/-- A selection of UTXOs that cover a value with some change, and do not without the last one. -/
structure CoinSelection (inputs : List (UtxoSpendInfo U)) (required : ℕ)
    (selected : List (UtxoSpendInfo U)) (change : ℕ) : Prop where
  /-- Each UTXO is selected at most as often as it is there. -/
  subperm : selected.Subperm inputs
  sum_eq : (selected.map UtxoSpendInfo.value).sum = required + change
  /-- Without the last one the value is not covered. -/
  minimal : (selected.dropLast.map UtxoSpendInfo.value).sum < required
  /-- A UTXO that covers more than the value is selected alone. -/
  single : (∃ qi ∈ inputs, required < qi.value) → selected.length = 1

/-- Only what is there can cover a value. -/
lemma CoinSelection.le_sum {inputs selected : List (UtxoSpendInfo U)} {required change : ℕ}
    (h : CoinSelection inputs required selected change) :
    required ≤ (inputs.map UtxoSpendInfo.value).sum := by
  obtain ⟨part, hpart, hsub⟩ := h.subperm
  have hle := (hsub.map UtxoSpendInfo.value).sum_le_sum fun _ _ => Nat.zero_le _
  rw [(hpart.map _).sum_eq, h.sum_eq] at hle
  omega

/-- What `select_inputs` is to return: a selection if there are enough UTXOs. -/
def Selects (inputs : List (UtxoSpendInfo U)) (required : ℕ) :
    Except OfferPanic (Option (List (UtxoSpendInfo U) × ℕ)) → Prop
  | .error _ => False
  | .ok none => (inputs.map UtxoSpendInfo.value).sum < required
  | .ok (some (selected, change)) => CoinSelection inputs required selected change

/-- Before each round the value is not covered, and if one UTXO covers more than the value then
nothing has been taken. -/
structure SelectState.Open (inputs : List (UtxoSpendInfo U)) (required : ℕ) (s : SelectState U) :
    Prop where
  splits : s.Splits inputs
  below : s.total < required
  untouched : (∃ qi ∈ inputs, required < qi.value) → s.selected = []

namespace SelectState.Open

variable {inputs : List (UtxoSpendInfo U)} {s : SelectState U} {required : ℕ}

lemma start (inputs : List (UtxoSpendInfo U)) (hrequired : 0 < required) :
    Open inputs required ⟨inputs, 0, []⟩ :=
  ⟨.start inputs, hrequired, fun _ => rfl⟩

lemma round (hs : s.Open inputs required) {s' : SelectState U}
    (h : selectRound required s = .inl s') : s'.Open inputs required := by
  have hmove := selectMove_selectRound required s
  rw [h] at hmove
  cases hmove with
  | missing hutxo hmissing hnone =>
    refine ⟨hs.splits.take hutxo, hmissing, ?_⟩
    rintro ⟨qi, hqi, hlarge⟩
    -- it would still be there, and the round would have found it
    exfalso
    have hperm := hs.splits.perm
    rw [hs.untouched ⟨qi, hqi, hlarge⟩, List.nil_append] at hperm
    have hle := hnone qi (hperm.mem_iff.2 hqi)
    omega

lemma returned (hs : s.Open inputs required)
    (hsum : (inputs.map UtxoSpendInfo.value).sum < 2 ^ 128)
    {r : Except OfferPanic (Option (List (UtxoSpendInfo U) × ℕ))}
    (h : selectRound required s = .inr r) : Selects inputs required r := by
  have hmove := selectMove_selectRound required s
  rw [h] at hmove
  cases hmove with
  | empty hempty =>
    have htotal := hs.splits.sum_add_sum
    rw [hempty, List.map_nil, List.sum_nil, Nat.add_zero] at htotal
    show (inputs.map UtxoSpendInfo.value).sum < required
    rw [← htotal]
    exact hs.below
  | overflow hlarge =>
    obtain ⟨qi, hqi, hlarge⟩ := hlarge
    have hle := hs.splits.add_le_sum hqi
    omega
  | @covered idx utxo hutxo hcovered =>
    have htake := hs.splits.take hutxo
    refine ⟨?_, ?_, ?_, ?_⟩
    · exact (List.sublist_append_left _ _).subperm.trans htake.perm.subperm
    · rw [← htake.total]
      omega
    · rw [SelectState.take, List.dropLast_concat, ← hs.splits.total]
      exact hs.below
    · intro hlarge
      rw [SelectState.take, hs.untouched hlarge]
      rfl

end SelectState.Open

/-- `select_inputs` finds a selection if there is enough to select from, and never panics. -/
lemma selects_selectInputs {inputs : List (UtxoSpendInfo U)} {required : ℕ}
    (hsum : (inputs.map UtxoSpendInfo.value).sum < 2 ^ 128) (hrequired : 0 < required) :
    Selects inputs required (selectInputs inputs required) :=
  (returns_selectInputs inputs required).rule (SelectState.Open inputs required) _
    (.start inputs hrequired) (fun _ _ hs hround => hs.round hround)
    (fun _ _ hs hround => hs.returned hsum hround)

/-- If the values of the UTXOs sum up to less than `2 ^ 128` then the loop of `select_inputs`, for
a value that is not zero, ends without an overflow.  It returns a selection exactly if there are
enough UTXOs, and then one that is minimal up to its last UTXO. -/
theorem selectInputs_complete {inputs : List (UtxoSpendInfo U)} {required : ℕ}
    (hsum : (inputs.map UtxoSpendInfo.value).sum < 2 ^ 128) (hrequired : 0 < required) :
    ∃ result, selectInputs inputs required = .ok result ∧
      Returns (selectRound required) ⟨inputs, 0, []⟩ (.ok result) ∧
      (result.isSome ↔ required ≤ (inputs.map UtxoSpendInfo.value).sum) ∧
      ∀ selected change, result = some (selected, change) →
        CoinSelection inputs required selected change := by
  have hreturns := returns_selectInputs inputs required
  have hselects := selects_selectInputs hsum hrequired
  generalize selectInputs inputs required = result at hreturns hselects
  match result, hselects with
  | .ok none, hshort =>
    refine ⟨none, rfl, hreturns, ?_, by simp⟩
    have hshort : (inputs.map UtxoSpendInfo.value).sum < required := hshort
    simpa using hshort
  | .ok (some (selected, change)), hselection =>
    refine ⟨_, rfl, hreturns, iff_of_true rfl (CoinSelection.le_sum hselection), ?_⟩
    rintro _ _ ⟨⟩
    exact hselection

/-- Numbers for everything, and nothing to sort. -/
@[reducible] def smallCrate : UnshieldedCrate where
  Seed := ℕ
  VerifyingKey := ℕ
  UserAddress := ℕ
  TokenType := ℕ
  IntentHash := ℕ
  toAddress := id
  leSpend _ _ := true
  leOutput _ _ := true

/-- A UTXO of which only the value matters. -/
def smallCoin (value : ℕ) : UtxoSpendInfo smallCrate := ⟨value, 1, 0, none, none⟩

theorem selectInputs_smallCoin :
    selectInputs [smallCoin 3, smallCoin 4, smallCoin 2] 8 =
        .ok (some ([smallCoin 2, smallCoin 4, smallCoin 3], 1)) ∧
      CoinSelection [smallCoin 3, smallCoin 4, smallCoin 2] 8
        [smallCoin 2, smallCoin 4, smallCoin 3] 1 := by
  have hrun : selectInputs [smallCoin 3, smallCoin 4, smallCoin 2] 8 =
      .ok (some ([smallCoin 2, smallCoin 4, smallCoin 3], 1)) := rfl
  have hsum : ([smallCoin 3, smallCoin 4, smallCoin 2].map UtxoSpendInfo.value).sum < 2 ^ 128 := by
    decide
  obtain ⟨result, hresult, -, -, hselection⟩ := selectInputs_complete hsum (by decide : 0 < 8)
  rw [hrun] at hresult
  exact ⟨hrun, hselection _ _ (Except.ok.inj hresult).symm⟩

/-! ### Covering a value -/

/-- Part of a permutation of mapped elements consists of mapped elements. -/
lemma exists_map_of_append_perm {α β : Type} {f : α → β} {l : List α} {sel rest : List β}
    (h : (sel ++ rest).Perm (l.map f)) :
    ∃ spent left : List α, sel = spent.map f ∧ (spent ++ left).Perm l := by
  have hcomp := congrFun (congrFun (List.eq_map_comp_perm f) (sel ++ rest)) l
  obtain ⟨l', hl', hperm⟩ := hcomp.mpr h
  obtain ⟨spent, left, rfl, hspent, -⟩ := List.append_eq_map_iff.1 hl'
  exact ⟨spent, left, hspent.symm, hperm⟩

/-- The UTXOs that cover a value are different ones that the wallet owns. -/
lemma utxosToCoverValue_spec {ctx : UnshieldedContext U} {seed : U.Seed} {requiredValue : ℕ}
    {tokenType : U.TokenType} {sel : List (UtxoSpendInfo U)} {change : ℕ}
    (h : utxosToCoverValue ctx seed requiredValue tokenType = .ok (sel, change)) :
    ∃ owner spent, ctx.wallets seed = some owner ∧ sel = spent.map (Utxo.toSpendInfo seed) ∧
      spent.Nodup ∧ spent ⊆ ctx.owned tokenType (U.toAddress owner) ∧
      (spent.map Utxo.value).sum = requiredValue + change := by
  obtain ⟨owner, howner, h⟩ := bind_eq_ok.1 h
  obtain ⟨selection, hselect, h⟩ := bind_eq_ok.1 h
  have hwallet : ctx.wallets seed = some owner := by
    rw [UnshieldedContext.walletForSeed] at howner
    split at howner
    · exact absurd howner (by simp)
    · rename_i key hkey
      rw [hkey, Except.ok.inj howner]
  split at h
  · exact absurd h (by simp)
  · rename_i r
    obtain rfl := Except.ok.inj h
    obtain ⟨hsum, rest, hperm⟩ := selectInputs_spec hselect
    obtain ⟨spent, left, rfl, hspent⟩ := exists_map_of_append_perm hperm
    have hnodup : (spent ++ left).Nodup := hspent.nodup_iff.2 (ctx.nodup.filter _)
    refine ⟨owner, spent, hwallet, rfl, hnodup.of_append_left, fun u hu => ?_, ?_⟩
    · exact hspent.subset (List.mem_append_left left hu)
    · rw [List.map_map] at hsum
      exact hsum

/-- The spend of an input that names a UTXO of its owner spends that UTXO. -/
lemma build_toSpendInfo {ctx : UnshieldedContext U} {seed : U.Seed} {owner : U.VerifyingKey}
    (howner : ctx.wallets seed = some owner)
    (utxo : Utxo U.UserAddress U.TokenType U.IntentHash) :
    (utxo.toSpendInfo seed).build ctx = .ok (utxo.toSpend owner) := by
  rw [UtxoSpendInfo.build, UnshieldedContext.walletForSeed, Utxo.toSpendInfo, howner]
  rfl

lemma utxo_toSpend {owner : U.VerifyingKey} {utxo : Utxo U.UserAddress U.TokenType U.IntentHash}
    (h : utxo.owner = U.toAddress owner) : (utxo.toSpend owner).utxo = utxo := by
  rw [UtxoSpend.utxo, Utxo.toSpend, ← h]

end MidnightNode.Toolkit
