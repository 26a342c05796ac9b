/-
# Covering an amount from a list of sources

To cover an amount one goes through the sources in order and takes of each as much as it has, or
what is still missing if that is less; a source that would give nothing is left out.  Going on
with another list of sources is the same as going through both lists at once.
-/
import Mathlib.Algebra.BigOperators.Group.List.Basic
import Mathlib.Algebra.GroupWithZero.Nat
import Mathlib.Tactic.Lemma

namespace MidnightNode.Cover

variable {α : Type*} (value : α → ℕ)

/-- What is taken of each source to cover an amount. -/
def cover : ℕ → List α → List (α × ℕ)
  | _, [] => []
  | amount, x :: l =>
    if min amount (value x) = 0 then cover amount l
    else (x, min amount (value x)) :: cover (amount - min amount (value x)) l

variable {value}

@[simp] lemma cover_nil (amount : ℕ) : cover value amount [] = [] := rfl

lemma cover_cons_skip {amount : ℕ} {x : α} (h : min amount (value x) = 0) (l : List α) :
    cover value amount (x :: l) = cover value amount l := by
  rw [cover, if_pos h]

lemma cover_cons_take {amount : ℕ} {x : α} (h : min amount (value x) ≠ 0) (l : List α) :
    cover value amount (x :: l) =
      (x, min amount (value x)) :: cover value (amount - min amount (value x)) l := by
  rw [cover, if_neg h]

@[simp] lemma cover_zero (l : List α) : cover value 0 l = [] := by
  induction l with
  | nil => rfl
  | cons x l ih => rw [cover_cons_skip (Nat.zero_min _), ih]

/-- Going on with other sources. -/
lemma cover_append (amount : ℕ) (l l' : List α) :
    cover value amount (l ++ l') =
      cover value amount l ++ cover value (amount - (l.map value).sum) l' := by
  induction l generalizing amount with
  | nil => simp
  | cons x l ih =>
    rw [List.cons_append, List.map_cons, List.sum_cons]
    by_cases h : min amount (value x) = 0
    · rw [cover_cons_skip h, cover_cons_skip h, ih]
      congr 2
      omega
    · rw [cover_cons_take h, cover_cons_take h, ih, List.cons_append]
      congr 3
      omega

/-- What is covered: the amount, or all there is. -/
lemma sum_cover (amount : ℕ) (l : List α) :
    ((cover value amount l).map Prod.snd).sum = min amount (l.map value).sum := by
  induction l generalizing amount with
  | nil => simp
  | cons x l ih =>
    rw [List.map_cons, List.sum_cons]
    by_cases h : min amount (value x) = 0
    · rw [cover_cons_skip h, ih]
      omega
    · rw [cover_cons_take h, List.map_cons, List.sum_cons, ih]
      omega

/-- What is taken of a source is something, and the source has it. -/
lemma bounds_of_mem_cover {amount : ℕ} {l : List α} {p : α × ℕ} (hp : p ∈ cover value amount l) :
    p.1 ∈ l ∧ 0 < p.2 ∧ p.2 ≤ value p.1 := by
  induction l generalizing amount with
  | nil => exact absurd hp (List.not_mem_nil)
  | cons x l ih =>
    by_cases h : min amount (value x) = 0
    · rw [cover_cons_skip h] at hp
      obtain ⟨hmem, hbounds⟩ := ih hp
      exact ⟨List.mem_cons_of_mem x hmem, hbounds⟩
    · rw [cover_cons_take h] at hp
      rcases List.mem_cons.1 hp with rfl | hp
      · exact ⟨List.mem_cons_self, Nat.pos_of_ne_zero h, Nat.min_le_right _ _⟩
      · obtain ⟨hmem, hbounds⟩ := ih hp
        exact ⟨List.mem_cons_of_mem x hmem, hbounds⟩

end MidnightNode.Cover
