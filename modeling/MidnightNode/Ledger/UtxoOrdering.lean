/-
# Overriding the order of UTXOs

For old blocks the created and the spent UTXOs of a transaction are brought into a recorded order,
`UtxoOrdering::apply`.  The loop takes the expected UTXOs out of the list one after the other.
What carries the proofs is that the list it searches and the list it builds together are always a
permutation of the UTXOs (`exists_step_of_mem`); if every entry is found, the second list is all
of them in the end.

If an entry is missing, the loop returns early, and what the caller is left with is the list it
searched: the UTXOs taken out before are lost.
-/
import MidnightNode.Ledger.Bridge
import Mathlib.Data.List.Perm.Subperm

namespace MidnightNode.Ledger

open scoped List

/-- What an entry of an override names. -/
def UtxoInfo.key (u : UtxoInfo) : Hash × BitVec 32 := (u.intentHash, u.outputNo)

/-! ### The loop -/

section Loop

variable {entry : Hash × BitVec 32} {expected : List (Hash × BitVec 32)}
  {utxos reordered : List UtxoInfo}

/-- An entry that is found moves its UTXO from one list to the other. -/
lemma exists_step_of_mem (h : entry ∈ utxos.map UtxoInfo.key) :
    ∃ u rest, u.key = entry ∧ u :: rest ~ utxos ∧
      ∀ expected reordered, reorderLoop (entry :: expected) utxos reordered =
        reorderLoop expected rest (reordered ++ [u]) := by
  obtain ⟨intentHash, outputNo⟩ := entry
  obtain ⟨found, hfound⟩ : ∃ found : UtxoInfo → Bool, found = fun u =>
    u.intentHash == intentHash && u.outputNo == outputNo := ⟨_, rfl⟩
  have hkey : ∀ u, found u = true ↔ u.key = (intentHash, outputNo) := by
    intro u
    simp [hfound, UtxoInfo.key]
  obtain ⟨u₀, hu₀, hkey₀⟩ := List.mem_map.1 h
  -- the position and the UTXO found there
  obtain ⟨pos, hpos⟩ : ∃ pos, utxos.findIdx? found = some pos := by
    rw [← Option.isSome_iff_exists, List.findIdx?_isSome, List.any_eq_true]
    exact ⟨u₀, hu₀, (hkey u₀).2 hkey₀⟩
  obtain ⟨hlt, hhit, -⟩ := List.findIdx?_eq_some_iff_getElem.1 hpos
  have hfind : utxos.find? found = some utxos[pos] := by
    rw [List.find?_eq_bind_findIdx?_getElem?, hpos]
    simp
  refine ⟨utxos[pos], Vec.swapRemove utxos pos, (hkey _).1 hhit,
    Vec.cons_swapRemove_perm (List.getElem?_eq_getElem hlt), fun expected reordered => ?_⟩
  rw [hfound] at hpos hfind
  rw [reorderLoop]
  simp only [hpos, hfind]

/-- An entry that is missing ends the loop with the list it has searched. -/
lemma reorderLoop_of_not_mem (h : entry ∉ utxos.map UtxoInfo.key) :
    reorderLoop (entry :: expected) utxos reordered = utxos := by
  obtain ⟨intentHash, outputNo⟩ := entry
  have hnone : utxos.findIdx? (fun u => u.intentHash == intentHash && u.outputNo == outputNo) =
      none := by
    rw [List.findIdx?_eq_none_iff]
    intro u hu
    by_contra hhit
    refine h (List.mem_map.2 ⟨u, hu, ?_⟩)
    simpa [UtxoInfo.key] using hhit
  rw [reorderLoop]
  simp only [hnone]

/-- After an entry is found, the others are to be found in the rest. -/
lemma cons_subperm_iff {u : UtxoInfo} {rest : List UtxoInfo} (hkey : u.key = entry)
    (hperm : u :: rest ~ utxos) :
    entry :: expected <+~ utxos.map UtxoInfo.key ↔ expected <+~ rest.map UtxoInfo.key := by
  have hkeys := hperm.map UtxoInfo.key
  rw [List.map_cons, hkey] at hkeys
  rw [← hkeys.subperm_left, List.subperm_cons]

/-- If every entry is found, the UTXOs that were taken out are added in the expected order. -/
lemma reorderLoop_of_subperm (reordered : List UtxoInfo)
    (h : expected <+~ utxos.map UtxoInfo.key) :
    ∃ taken rest, reorderLoop expected utxos reordered = reordered ++ taken ∧
      taken.map UtxoInfo.key = expected ∧ taken ++ rest ~ utxos := by
  induction expected generalizing utxos reordered with
  | nil => exact ⟨[], utxos, by simp [reorderLoop], rfl, .refl _⟩
  | cons entry expected ih =>
    obtain ⟨u, rest, hkey, hperm, hstep⟩ := exists_step_of_mem (h.subset List.mem_cons_self)
    obtain ⟨taken, left, hloop, htaken, hsplit⟩ := ih (reordered ++ [u])
      ((cons_subperm_iff hkey hperm).1 h)
    refine ⟨u :: taken, left, ?_, ?_, (hsplit.cons u).trans hperm⟩
    · rw [hstep, hloop, List.append_assoc, List.singleton_append]
    · rw [List.map_cons, hkey, htaken]

/-- If an entry is missing, nothing is left but what has not been taken out. -/
lemma length_reorderLoop_le (h : ¬ expected <+~ utxos.map UtxoInfo.key) :
    (reorderLoop expected utxos reordered).length ≤ utxos.length := by
  induction expected generalizing utxos reordered with
  | nil => exact absurd List.nil_subperm h
  | cons entry expected ih =>
    by_cases hmem : entry ∈ utxos.map UtxoInfo.key
    · obtain ⟨u, rest, hkey, hperm, hstep⟩ := exists_step_of_mem hmem
      rw [hstep]
      refine (ih fun hrest => h ((cons_subperm_iff hkey hperm).2 hrest)).trans ?_
      rw [← hperm.length_eq, List.length_cons]
      omega
    · rw [reorderLoop_of_not_mem hmem]

end Loop

/-! ### The override -/

/-- What an override may do to a list: the result is a permutation of it, either unchanged or in
the expected order, and unchanged where an expected entry is missing. -/
structure KeepsUtxos (utxos : List UtxoInfo) (expected : List (Hash × BitVec 32))
    (result : List UtxoInfo) : Prop where
  perm : result ~ utxos
  ordered : result = utxos ∨ result.map UtxoInfo.key = expected
  missing : (∃ entry ∈ expected, entry ∉ utxos.map UtxoInfo.key) → result = utxos

lemma keepsUtxos_self (utxos : List UtxoInfo) (expected : List (Hash × BitVec 32)) :
    KeepsUtxos utxos expected utxos :=
  ⟨.refl _, .inl rfl, fun _ => rfl⟩

/-- When the loop loses nothing: it does not begin, or stops at its first entry, or the entries
are those of the UTXOs. -/
def Applicable (utxos : List UtxoInfo) (expected : List (Hash × BitVec 32)) : Prop :=
  utxos.length ≠ expected.length ∨
    (∀ entry, expected.head? = some entry → entry ∉ utxos.map UtxoInfo.key) ∨
    expected ~ utxos.map UtxoInfo.key

/-- If the entries are those of the UTXOs, the UTXOs end in the expected order. -/
lemma keepsUtxos_reorderLoop_of_perm {utxos : List UtxoInfo} {expected : List (Hash × BitVec 32)}
    (hperm : expected ~ utxos.map UtxoInfo.key) :
    KeepsUtxos utxos expected (reorderLoop expected utxos []) := by
  obtain ⟨taken, rest, hresult, hkeys, hsplit⟩ := reorderLoop_of_subperm [] hperm.subperm
  -- nothing is left of the UTXOs
  have hrest : rest = [] := by
    have hlength := hsplit.length_eq
    have htaken := congrArg List.length hkeys
    rw [List.length_append] at hlength
    rw [List.length_map, hperm.length_eq, List.length_map] at htaken
    exact List.length_eq_zero_iff.1 (by omega)
  rw [hrest, List.append_nil] at hsplit
  rw [hresult, List.nil_append]
  refine ⟨hsplit, .inr hkeys, ?_⟩
  rintro ⟨absent, habsent, hnot⟩
  exact absurd (hperm.subset habsent) hnot

/-- If the first entry is found and another one is not, the UTXO of the first is lost. -/
lemma not_perm_reorderLoop {utxos : List UtxoInfo} {entry : Hash × BitVec 32}
    {expected : List (Hash × BitVec 32)} (hmem : entry ∈ utxos.map UtxoInfo.key)
    (hsub : ¬ entry :: expected <+~ utxos.map UtxoInfo.key) :
    ¬ reorderLoop (entry :: expected) utxos [] ~ utxos := by
  obtain ⟨u, rest, hkey, hperm, hstep⟩ := exists_step_of_mem hmem
  have hshort : (reorderLoop expected rest [u]).length ≤ rest.length :=
    length_reorderLoop_le fun hrest => hsub ((cons_subperm_iff hkey hperm).2 hrest)
  intro hkeeps
  have hlength := hkeeps.length_eq
  rw [hstep, List.nil_append, ← hperm.length_eq, List.length_cons] at hlength
  omega

lemma keepsUtxos_reorder_iff (utxos : List UtxoInfo) (expected : List (Hash × BitVec 32)) :
    KeepsUtxos utxos expected (reorder utxos expected) ↔ Applicable utxos expected := by
  by_cases hlen : utxos.length = expected.length
  · cases expected with
    | nil =>
      have hsame : reorder utxos [] = utxos := by simp [reorder]
      rw [hsame]
      exact iff_of_true (keepsUtxos_self utxos []) (.inr (.inl (by simp)))
    | cons entry expected =>
      have hloop : reorder utxos (entry :: expected) =
          reorderLoop (entry :: expected) utxos [] := by simp [reorder, hlen]
      rw [hloop]
      by_cases hmem : entry ∈ utxos.map UtxoInfo.key
      · by_cases hsub : entry :: expected <+~ utxos.map UtxoInfo.key
        · have hperm : entry :: expected ~ utxos.map UtxoInfo.key :=
            hsub.perm_of_length_le (by rw [List.length_map, hlen])
          exact iff_of_true (keepsUtxos_reorderLoop_of_perm hperm) (.inr (.inr hperm))
        · refine iff_of_false (fun hkeeps => not_perm_reorderLoop hmem hsub hkeeps.perm) ?_
          rintro (hne | hhead | hall)
          · exact hne hlen
          · exact hhead entry rfl hmem
          · exact hsub hall.subperm
      · -- the first entry is missing
        rw [reorderLoop_of_not_mem hmem]
        refine iff_of_true (keepsUtxos_self utxos _) (.inr (.inl fun first hfirst => ?_))
        cases hfirst
        exact hmem
  · have hsame : reorder utxos expected = utxos := by simp [reorder, hlen]
    rw [hsame]
    exact iff_of_true (keepsUtxos_self utxos expected) (.inl hlen)

/-- **When an override loses no UTXO.**  For every override, lists and numbers of segments, each
list stays a permutation of itself, unchanged or in the expected order, and unchanged where an
expected entry is missing, if and only if for each list that spans several segments the override
has another length, or its first entry is missing, or its entries are exactly those of the
UTXOs. -/
theorem utxo_ordering_apply_keeps_utxos_iff (ordering : UtxoOrdering) (outputs : List UtxoInfo)
    (outputSegments : ℕ) (inputs : List UtxoInfo) (inputSegments : ℕ) :
    (KeepsUtxos outputs ordering.created
        (ordering.apply outputs outputSegments inputs inputSegments).1 ∧
      KeepsUtxos inputs ordering.spent
        (ordering.apply outputs outputSegments inputs inputSegments).2) ↔
      (1 < outputSegments → Applicable outputs ordering.created) ∧
        (1 < inputSegments → Applicable inputs ordering.spent) := by
  have hlist (utxos : List UtxoInfo) (expected : List (Hash × BitVec 32)) (segments : ℕ) :
      KeepsUtxos utxos expected (if 1 < segments then reorder utxos expected else utxos) ↔
        (1 < segments → Applicable utxos expected) := by
    by_cases hsegments : 1 < segments
    · rw [if_pos hsegments, keepsUtxos_reorder_iff]
      exact ⟨fun h _ => h, fun h => h hsegments⟩
    · rw [if_neg hsegments]
      exact iff_of_true (keepsUtxos_self utxos expected) fun h => absurd h hsegments
  exact and_congr (hlist outputs ordering.created outputSegments)
    (hlist inputs ordering.spent inputSegments)

/-- The UTXO with the given intent hash. -/
def demoUtxo (intentHash : Hash) : UtxoInfo := ⟨0, 0, intentHash, 100, 0⟩

/-- A stale override: the first entry is found, the second one is not. -/
def demoOrdering : UtxoOrdering where
  created := [(1, 0), (9, 0), (3, 0)]
  spent := []

/-- The first of three created UTXOs is lost. -/
theorem stale_override_loses_utxo :
    (demoOrdering.apply [demoUtxo 1, demoUtxo 2, demoUtxo 3] 2 [] 0).1 =
      [demoUtxo 3, demoUtxo 2] ∧
    ¬ KeepsUtxos [demoUtxo 1, demoUtxo 2, demoUtxo 3] demoOrdering.created
      (demoOrdering.apply [demoUtxo 1, demoUtxo 2, demoUtxo 3] 2 [] 0).1 := by
  have hresult : (demoOrdering.apply [demoUtxo 1, demoUtxo 2, demoUtxo 3] 2 [] 0).1 =
      [demoUtxo 3, demoUtxo 2] := by decide
  refine ⟨hresult, fun h => ?_⟩
  have hlength := h.perm.length_eq
  rw [hresult] at hlength
  exact absurd hlength (by decide)

end MidnightNode.Ledger
