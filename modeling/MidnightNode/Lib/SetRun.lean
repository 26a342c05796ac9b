/-
# Runs that remove from and insert into a set

A step removes elements that are all present and inserts elements that are all absent.  A run
of steps may insert what a later step removes, or remove what a later step inserts again; if it
does neither, the elements removed and the elements inserted are its exact net effect.
-/
import Mathlib.Data.Finset.Card
import Mathlib.Data.List.Nodup
import Mathlib.Tactic.Lemma

namespace MidnightNode.SetRun

variable {α : Type*} [DecidableEq α]

/-- What a step removes and inserts. -/
structure Step (α : Type*) where
  /-- What it removes. -/
  ins : List α
  /-- What it inserts. -/
  outs : List α

/-- A step takes the set `U` to `V`. -/
structure Step.Takes (s : Step α) (U V : Finset α) : Prop where
  /-- Nothing is removed twice. -/
  ins_nodup : s.ins.Nodup
  /-- What is removed is present. -/
  ins_mem : ∀ x ∈ s.ins, x ∈ U
  /-- Nothing is inserted twice. -/
  outs_nodup : s.outs.Nodup
  /-- What is inserted is absent. -/
  outs_new : ∀ x ∈ s.outs, x ∈ U → x ∈ s.ins
  /-- The set after the step. -/
  mem_iff : ∀ x, x ∈ V ↔ x ∈ s.outs ∨ (x ∈ U ∧ x ∉ s.ins)

/-- A run of steps takes the set `U` to `V`. -/
inductive Run : List (Step α) → Finset α → Finset α → Prop
  | nil (U : Finset α) : Run [] U U
  | cons {s : Step α} {ss : List (Step α)} {U V W : Finset α} :
    s.Takes U V → Run ss V W → Run (s :: ss) U W

/-- Run the steps on a set, as long as each of them can be taken. -/
def exec : List (Step α) → Finset α → Option (Finset α)
  | [], U => some U
  | s :: ss, U =>
    if s.ins.Nodup ∧ (∀ x ∈ s.ins, x ∈ U) ∧ s.outs.Nodup ∧ ∀ x ∈ s.outs, x ∈ U → x ∈ s.ins then
      exec ss ((U \ s.ins.toFinset) ∪ s.outs.toFinset)
    else none

/-- What `exec` computes is a run. -/
lemma run_of_exec {ss : List (Step α)} {U V : Finset α} (h : exec ss U = some V) :
    Run ss U V := by
  induction ss generalizing U with
  | nil =>
    cases h
    exact Run.nil _
  | cons s ss ih =>
    rw [exec] at h
    split at h
    · rename_i hs
      refine Run.cons ⟨hs.1, hs.2.1, hs.2.2.1, hs.2.2.2, fun x => ?_⟩ (ih h)
      rw [Finset.mem_union, Finset.mem_sdiff, List.mem_toFinset, List.mem_toFinset]
      exact or_comm
    · cases h

lemma takes_of_exec {s : Step α} {U V : Finset α} (h : exec [s] U = some V) : s.Takes U V := by
  cases run_of_exec h with
  | cons htakes hrest =>
    cases hrest
    exact htakes

/-- All elements removed. -/
def allIns (ss : List (Step α)) : List α :=
  ss.flatMap Step.ins

/-- All elements inserted. -/
def allOuts (ss : List (Step α)) : List α :=
  ss.flatMap Step.outs

/-- The elements removed and inserted are the net effect. -/
structure Net (I O : List α) (U V : Finset α) : Prop where
  ins_nodup : I.Nodup
  outs_nodup : O.Nodup
  ins_mem : ∀ x ∈ I, x ∈ U
  outs_new : ∀ x ∈ O, x ∉ U
  mem_iff : ∀ x, x ∈ V ↔ x ∈ O ∨ (x ∈ U ∧ x ∉ I)

omit [DecidableEq α] in
/-- **Net effect of a run** that removes nothing that it inserts. -/
lemma Run.net {ss : List (Step α)} {U V : Finset α} (h : Run ss U V)
    (hdis : ∀ x ∈ allIns ss, x ∉ allOuts ss) : Net (allIns ss) (allOuts ss) U V := by
  induction h with
  | nil U => exact ⟨List.nodup_nil, List.nodup_nil, by simp [allIns], by simp [allOuts],
      by simp [allIns, allOuts]⟩
  | @cons s ss U V W hstep hrun ih =>
    have hIns : allIns (s :: ss) = s.ins ++ allIns ss := rfl
    have hOuts : allOuts (s :: ss) = s.outs ++ allOuts ss := rfl
    rw [hIns, hOuts] at hdis ⊢
    simp only [List.mem_append] at hdis
    obtain ⟨hI, hO, hImem, hOnew, hmem⟩ := ih (fun x hx hx' => hdis x (Or.inr hx) (Or.inr hx'))
    -- What the rest removes was there from the start, and not removed by the first step.
    have hrest : ∀ x ∈ allIns ss, x ∈ U ∧ x ∉ s.ins := by
      intro x hx
      rcases (hstep.mem_iff x).1 (hImem x hx) with ho | hu
      · exact absurd (Or.inl ho) (hdis x (Or.inr hx))
      · exact hu
    -- What the rest inserts was absent from the start.
    have hnew : ∀ x ∈ allOuts ss, x ∉ U ∧ x ∉ s.outs := by
      intro x hx
      have habsent := mt (hstep.mem_iff x).2 (hOnew x hx)
      refine ⟨fun hu => habsent (Or.inr ⟨hu, fun hi => ?_⟩), fun ho => habsent (Or.inl ho)⟩
      exact hdis x (Or.inl hi) (Or.inr hx)
    refine ⟨?_, ?_, ?_, ?_, ?_⟩
    · refine List.nodup_append.2 ⟨hstep.ins_nodup, hI, fun x hx y hy hxy => ?_⟩
      exact (hrest y hy).2 (hxy ▸ hx)
    · refine List.nodup_append.2 ⟨hstep.outs_nodup, hO, fun x hx y hy hxy => ?_⟩
      exact (hnew y hy).2 (hxy ▸ hx)
    · intro x hx
      rcases List.mem_append.1 hx with hx | hx
      · exact hstep.ins_mem x hx
      · exact (hrest x hx).1
    · intro x hx hu
      rcases List.mem_append.1 hx with hx | hx
      · exact hdis x (Or.inl (hstep.outs_new x hx hu)) (Or.inl hx)
      · exact (hnew x hx).1 hu
    · intro x
      rw [hmem, hstep.mem_iff, List.mem_append]
      constructor
      · rintro (ho | ⟨ho | ⟨hu, hi⟩, hi'⟩)
        · exact Or.inl (Or.inr ho)
        · exact Or.inl (Or.inl ho)
        · exact Or.inr ⟨hu, fun h => (List.mem_append.1 h).elim hi hi'⟩
      · rintro ((ho | ho) | ⟨hu, hi⟩)
        · exact Or.inr ⟨Or.inl ho, fun hi => hdis x (Or.inr hi) (Or.inl ho)⟩
        · exact Or.inl ho
        · exact Or.inr ⟨Or.inr ⟨hu, fun h => hi (List.mem_append_left _ h)⟩,
            fun h => hi (List.mem_append_right _ h)⟩

namespace Net

variable {I O : List α} {U V : Finset α}

/-- What is inserted is what the set gained. -/
lemma outs_eq (h : Net I O U V) : O.toFinset = V \ U := by
  ext x
  rw [List.mem_toFinset, Finset.mem_sdiff, h.mem_iff]
  exact ⟨fun ho => ⟨Or.inl ho, h.outs_new x ho⟩, fun hv => hv.1.resolve_right (fun hu => hv.2 hu.1)⟩

/-- What is removed is what the set lost. -/
lemma ins_eq (h : Net I O U V) : I.toFinset = U \ V := by
  ext x
  rw [List.mem_toFinset, Finset.mem_sdiff, h.mem_iff]
  constructor
  · intro hi
    refine ⟨h.ins_mem x hi, ?_⟩
    rintro (ho | hu)
    · exact h.outs_new x ho (h.ins_mem x hi)
    · exact hu.2 hi
  · rintro ⟨hu, hv⟩
    by_contra hi
    exact hv (Or.inr ⟨hu, hi⟩)

lemma eq_union (h : Net I O U V) : V = (U \ I.toFinset) ∪ O.toFinset := by
  ext x
  rw [h.mem_iff, Finset.mem_union, Finset.mem_sdiff, List.mem_toFinset, List.mem_toFinset]
  exact or_comm

/-- The set grows by what is inserted and shrinks by what is removed. -/
lemma card_eq (h : Net I O U V) : V.card = U.card + O.length - I.length := by
  have hI : I.toFinset.card = I.length := List.toFinset_card_of_nodup h.ins_nodup
  have hO : O.toFinset.card = O.length := List.toFinset_card_of_nodup h.outs_nodup
  have hsub : I.toFinset ⊆ U := fun x hx => h.ins_mem x (List.mem_toFinset.1 hx)
  have hdis : Disjoint (U \ I.toFinset) O.toFinset := by
    rw [Finset.disjoint_left]
    intro x hx ho
    exact h.outs_new x (List.mem_toFinset.1 ho) (Finset.mem_sdiff.1 hx).1
  have hle := Finset.card_le_card hsub
  rw [h.eq_union, Finset.card_union_of_disjoint hdis, Finset.card_sdiff_of_subset hsub, hI, hO]
  omega

end Net

/-- A set that contains nothing that is said to be removed, and nothing but the old elements
and what is said to be inserted, is determined by its size. -/
lemma eq_of_card_eq {I O : List α} {U V : Finset α} (hI : ∀ x ∈ I, x ∉ V)
    (hcard : V.card = U.card + O.length - I.length) (hsub : V ⊆ U ∪ O.toFinset)
    (hI' : I.Nodup) (hU : ∀ x ∈ I, x ∈ U) : V = (U \ I.toFinset) ∪ O.toFinset := by
  have hle : V ⊆ (U \ I.toFinset) ∪ O.toFinset := by
    intro x hx
    rcases Finset.mem_union.1 (hsub hx) with hu | ho
    · exact Finset.mem_union_left _
        (Finset.mem_sdiff.2 ⟨hu, fun hi => hI x (List.mem_toFinset.1 hi) hx⟩)
    · exact Finset.mem_union_right _ ho
  refine Finset.eq_of_subset_of_card_le hle ?_
  have hIU : I.toFinset ⊆ U := fun x hx => hU x (List.mem_toFinset.1 hx)
  have hIcard : I.toFinset.card = I.length := List.toFinset_card_of_nodup hI'
  have hOcard : O.toFinset.card ≤ O.length := List.toFinset_card_le O
  have hUcard := Finset.card_le_card hIU
  calc ((U \ I.toFinset) ∪ O.toFinset).card
      ≤ (U \ I.toFinset).card + O.toFinset.card := Finset.card_union_le _ _
    _ ≤ V.card := by
        rw [Finset.card_sdiff_of_subset hIU]
        omega

end MidnightNode.SetRun
