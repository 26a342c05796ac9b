/-
# Tables changed entry by entry

A table gives some of the keys a value.  A change removes an entry that is there or inserts one
that is not, and fails otherwise.  Removing entries one after the other, or inserting them,
succeeds exactly if no key comes twice and each change is possible at the beginning.
-/
import MidnightNode.Lib.Replay
import Mathlib.Logic.Function.Basic

namespace MidnightNode.Table

open Replay

variable {κ β : Type*} [DecidableEq κ]

/-- Change the entry of a key: `none` removes it, and a value is inserted. -/
def change (t : κ → Option β) (c : κ × Option β) : Option (κ → Option β) :=
  if (t c.1).isSome = c.2.isSome then none else some (Function.update t c.1 c.2)

variable {t t' : κ → Option β}

lemma change_eq_some {c : κ × Option β} :
    change t c = some t' ↔ (t c.1).isSome ≠ c.2.isSome ∧ t' = Function.update t c.1 c.2 := by
  rw [change]
  split
  · rename_i h
    exact iff_of_false (by simp) fun h' => h'.1 h
  · rename_i h
    rw [Option.some_inj, eq_comm]
    exact (and_iff_right h).symm

/-- The last change of a key counts. -/
def changed (t : κ → Option β) (cs : List (κ × Option β)) : κ → Option β :=
  fun k => (cs.reverse.lookup k).getD (t k)

lemma lookup_singleton {γ : Type*} (k : κ) (c : κ × γ) :
    [c].lookup k = if k = c.1 then some c.2 else none := by
  obtain ⟨k', v⟩ := c
  rw [List.lookup_cons, List.lookup_nil]
  by_cases hk : k = k'
  · simp [hk]
  · simp [hk, beq_eq_false_iff_ne.2 hk]

lemma changed_nil (t : κ → Option β) : changed t [] = t := rfl

lemma changed_cons (t : κ → Option β) (c : κ × Option β) (cs : List (κ × Option β)) :
    changed t (c :: cs) = changed (Function.update t c.1 c.2) cs := by
  funext k
  simp only [changed, List.reverse_cons, List.lookup_append]
  cases cs.reverse.lookup k with
  | some o => rfl
  | none =>
    by_cases hk : k = c.1
    · subst hk
      simp [lookup_singleton]
    · simp [lookup_singleton, hk]

/-- The table without some keys. -/
lemma changed_removes (t : κ → Option β) (ks : List κ) (k : κ) :
    changed t (ks.map fun k => (k, none)) k = if k ∈ ks then none else t k := by
  induction ks generalizing t with
  | nil => rfl
  | cons k' ks ih =>
    rw [List.map_cons, changed_cons, ih]
    by_cases hk : k = k'
    · subst hk
      simp
    · simp [hk]

/-- The table with more entries. -/
lemma changed_inserts (t : κ → Option β) (es : List (κ × β)) (k : κ) :
    changed t (es.map fun e => (e.1, some e.2)) k = (es.reverse.lookup k).or (t k) := by
  induction es generalizing t with
  | nil => rfl
  | cons e es ih =>
    rw [List.map_cons, changed_cons, ih, List.reverse_cons, List.lookup_append, Option.or_assoc]
    by_cases hk : k = e.1
    · subst hk
      simp [lookup_singleton]
    · simp [lookup_singleton, hk]

/-- Changes that all remove, or all insert, one after the other. -/
lemma replay_change_iff {b : Bool} {cs : List (κ × Option β)} (hcs : ∀ c ∈ cs, c.2.isSome = b) :
    replay change t cs = some t' ↔
      (cs.map Prod.fst).Nodup ∧ (∀ k ∈ cs.map Prod.fst, (t k).isSome ≠ b) ∧ t' = changed t cs := by
  induction cs generalizing t with
  | nil => simp [changed_nil, eq_comm]
  | cons c cs ih =>
    have hc := hcs c List.mem_cons_self
    have hrest : ∀ c' ∈ cs, c'.2.isSome = b := fun c' hc' => hcs c' (List.mem_cons_of_mem c hc')
    rw [replay, Option.bind_eq_some_iff, List.map_cons]
    simp only [change_eq_some, ih hrest, changed_cons, hc]
    constructor
    · rintro ⟨t₁, ⟨hpossible, rfl⟩, hnodup, hall, rfl⟩
      have hnotMem : c.1 ∉ cs.map Prod.fst := by
        intro hmem
        have hagain := hall c.1 hmem
        rw [Function.update_self, hc] at hagain
        exact hagain rfl
      refine ⟨List.nodup_cons.2 ⟨hnotMem, hnodup⟩, ?_, rfl⟩
      intro k hk
      by_cases heq : k = c.1
      · rwa [heq]
      · have hpossible' := hall k ((List.mem_cons.1 hk).resolve_left heq)
        rwa [Function.update_of_ne heq] at hpossible'
    · rintro ⟨hnodup, hall, rfl⟩
      obtain ⟨hnotMem, hnodup⟩ := List.nodup_cons.1 hnodup
      refine ⟨_, ⟨hall c.1 List.mem_cons_self, rfl⟩, hnodup, ?_, rfl⟩
      intro k hk
      have hne : k ≠ c.1 := fun heq => hnotMem (by rw [← heq]; exact hk)
      rw [Function.update_of_ne hne]
      exact hall k (List.mem_cons_of_mem c.1 hk)

end MidnightNode.Table
