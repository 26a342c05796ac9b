/-
# Chains that are rolled back

A view of a chain is a list of blocks in the order of their numbers, with epochs that do not
decrease.  It changes by blocks appended at its end, or by a rollback that removes blocks from
its end, but none that is buried: with `k` or more blocks on top of it at some time.

* `Change` is such a change of the view;
* `Settled` says that a buried block belongs to a later epoch.  An epoch that is settled stays so
  (`Settled.change`), and the blocks up to it never change again (`Settled.upTo_eq`).
-/
import Mathlib.Data.List.Basic
import Mathlib.Order.Nat
import Mathlib.Tactic.Lemma

namespace MidnightNode.Rollback

variable {β : Type} (number epoch : β → ℕ)

/-- The number of the last block. -/
def tip (l : List β) : ℕ :=
  (l.getLast?.map number).getD 0

/-- The blocks up to an epoch. -/
def upTo (e : ℕ) (l : List β) : List β :=
  l.filter (fun b => epoch b ≤ e)

/-- A change of the view.  A block is buried if its number is at least `k` below the highest tip
seen. -/
inductive Change (k highest : ℕ) (l : List β) : List β → Prop
  | append (new : List β) : Change k highest l (l ++ new)
  | rollback (n : ℕ) (h : ∀ b ∈ l.drop n, highest < number b + k) : Change k highest l (l.take n)

/-- A buried block belongs to a later epoch. -/
def Settled (k highest : ℕ) (l : List β) (e : ℕ) : Prop :=
  ∃ b ∈ l, number b + k ≤ highest ∧ e < epoch b

variable {number epoch} {k highest highest' e e' : ℕ} {l l' : List β}

lemma number_le_tip (hl : l.IsChain (fun a b => number b = number a + 1)) {b : β} (hb : b ∈ l) :
    number b ≤ tip number l := by
  induction l generalizing b with
  | nil => exact absurd hb List.not_mem_nil
  | cons a l ih =>
    cases l with
    | nil =>
      obtain rfl := List.mem_singleton.1 hb
      exact le_rfl
    | cons a' l =>
      obtain ⟨hstep, htail⟩ := List.isChain_cons_cons.1 hl
      have htip : tip number (a :: a' :: l) = tip number (a' :: l) := by
        simp [tip, List.getLast?_cons_cons]
      rw [htip]
      rcases List.mem_cons.1 hb with rfl | hb
      · have hle := ih htail List.mem_cons_self
        omega
      · exact ih htail hb

namespace Settled

lemma mono (h : Settled number epoch k highest l e) (hle : e' ≤ e) :
    Settled number epoch k highest l e' := by
  obtain ⟨b, hb, hburied, hlater⟩ := h
  exact ⟨b, hb, hburied, lt_of_le_of_lt hle hlater⟩

/-- A settled epoch stays settled. -/
lemma change (h : Settled number epoch k highest l e) (hchange : Change number k highest l l')
    (hle : highest ≤ highest') : Settled number epoch k highest' l' e := by
  obtain ⟨b, hb, hburied, hlater⟩ := h
  refine ⟨b, ?_, le_trans hburied hle, hlater⟩
  cases hchange with
  | append new => exact List.mem_append_left new hb
  | rollback n hkept =>
    rw [← List.take_append_drop n l] at hb
    rcases List.mem_append.1 hb with hb | hb
    · exact hb
    · exact absurd hburied (not_le.2 (hkept b hb))

/-- Blocks after one of a later epoch are of later epochs too. -/
lemma upTo_append (h : Settled number epoch k highest l e) {new : List β}
    (hepochs : (l ++ new).Pairwise (fun a b => epoch a ≤ epoch b)) :
    upTo epoch e (l ++ new) = upTo epoch e l := by
  obtain ⟨b, hb, -, hlater⟩ := h
  have hnew : upTo epoch e new = [] := by
    refine List.filter_eq_nil_iff.2 fun c hc => ?_
    have hle := (List.pairwise_append.1 hepochs).2.2 b hb c hc
    simpa using lt_of_lt_of_le hlater hle
  rw [upTo, List.filter_append, ← upTo, ← upTo, hnew, List.append_nil]

/-- The blocks up to a settled epoch do not change. -/
lemma upTo_eq (h : Settled number epoch k highest l e) (hchange : Change number k highest l l')
    (hl : l.Pairwise (fun a b => epoch a ≤ epoch b))
    (hl' : l'.Pairwise (fun a b => epoch a ≤ epoch b)) :
    upTo epoch e l' = upTo epoch e l := by
  have hstays := h.change hchange le_rfl
  cases hchange with
  | append new => exact h.upTo_append hl'
  | rollback n hkept =>
    rw [← List.take_append_drop n l] at hl
    have htake := hstays.upTo_append hl
    rw [List.take_append_drop] at htake
    exact htake.symm

end Settled

end MidnightNode.Rollback
