/-
# Operations of vectors

`swap_remove` takes an element out of a vector and puts the last one in its place.
`binary_search_by` looks for an element by halving; if the elements are in order, and at most one
is what is sought, it is found (`binarySearchBy_eq_some_iff`).
-/
import Mathlib.Data.List.Perm.Basic
import Mathlib.Order.Nat

namespace MidnightNode.Vec

open scoped List

variable {α : Type*}

/-! ### Removing by swapping -/

/-- What is left after `swap_remove`. -/
def swapRemove (l : List α) (pos : ℕ) : List α :=
  match l.getLast? with
  | some last => (l.set pos last).dropLast
  | none => l

/-- The element at `pos` is taken out, and nothing else. -/
lemma cons_swapRemove_perm {l : List α} {pos : ℕ} {a : α} (h : l[pos]? = some a) :
    (a :: swapRemove l pos).Perm l := by
  rcases List.eq_nil_or_concat l with rfl | ⟨init, last, rfl⟩
  · simp at h
  · rw [List.concat_eq_append] at h ⊢
    have hremove : swapRemove (init ++ [last]) pos = ((init ++ [last]).set pos last).dropLast := by
      simp [swapRemove]
    obtain ⟨hpos, ha⟩ := List.getElem?_eq_some_iff.1 h
    rw [List.length_append, List.length_singleton] at hpos
    by_cases hlt : pos < init.length
    · -- the last one takes the place
      rw [List.getElem_append_left hlt] at ha
      rw [hremove, List.set_append_left _ _ hlt, List.dropLast_concat]
      have hset := List.set_perm_cons_eraseIdx hlt last
      have herase := List.getElem_cons_eraseIdx_perm hlt
      rw [ha] at herase
      calc a :: init.set pos last
        _ ~ a :: last :: init.eraseIdx pos := hset.cons a
        _ ~ last :: a :: init.eraseIdx pos := .swap _ _ _
        _ ~ last :: init := herase.cons last
        _ ~ init ++ [last] := (List.perm_append_singleton last init).symm
    · obtain rfl : pos = init.length := by omega
      have hlast : last = a := by simpa using h
      subst hlast
      rw [hremove, List.set_append_right _ _ le_rfl]
      simpa using (List.perm_append_singleton last init).symm

/-! ### Binary search -/

/-- The loop of `binary_search_by`: of the `size` elements from `base` on, one half is left after
each round, until it is one element. -/
def binarySearchLoop (cmp : α → Ordering) (l : List α) : (rounds size base : ℕ) → ℕ
  | 0, _, base => base
  | rounds + 1, size, base =>
    if size ≤ 1 then base
    else
      let half := size / 2
      let mid := base + half
      binarySearchLoop cmp l rounds (size - half)
        (if l[mid]?.map cmp = some .gt then base else mid)

/-- `binary_search_by`: the position, if there is one.  A round leaves fewer elements, so the
length bounds their number. -/
def binarySearchBy (cmp : α → Ordering) (l : List α) : Option ℕ :=
  let base := binarySearchLoop cmp l l.length l.length 0
  if l[base]?.map cmp = some .eq then some base else none

section BinarySearch

variable {cmp : α → Ordering} {l : List α}

/-- Before an element that is not greater, all are less. -/
def InOrder (cmp : α → Ordering) (l : List α) : Prop :=
  l.Pairwise fun a b => cmp b ≠ .gt → cmp a = .lt

lemma InOrder.lt_of_lt (h : InOrder cmp l) {i j : ℕ} {a b : α} (hij : i < j)
    (hi : l[i]? = some a) (hj : l[j]? = some b) (hb : cmp b ≠ .gt) : cmp a = .lt := by
  obtain ⟨hi', rfl⟩ := List.getElem?_eq_some_iff.1 hi
  obtain ⟨hj', rfl⟩ := List.getElem?_eq_some_iff.1 hj
  exact List.pairwise_iff_getElem.1 h i j hi' hj' hij hb

/-- What is sought stays among the elements that are left. -/
lemma binarySearchLoop_eq (h : InOrder cmp l) {k : ℕ} {a : α} (hk : l[k]? = some a)
    (ha : cmp a = .eq) {rounds size base : ℕ} (hlow : base ≤ k) (hhigh : k < base + size)
    (hsize : base + size ≤ l.length) (hrounds : size ≤ rounds + 1) :
    binarySearchLoop cmp l rounds size base = k := by
  induction rounds generalizing size base with
  | zero =>
    rw [binarySearchLoop]
    omega
  | succ rounds ih =>
    rw [binarySearchLoop]
    split
    · omega
    · obtain ⟨b, hb⟩ : ∃ b, l[base + size / 2]? = some b :=
        ⟨_, List.getElem?_eq_getElem (by omega)⟩
      simp only [hb, Option.map_some, Option.some.injEq]
      split
      · -- the middle is greater, and with it all that follow
        rename_i hgt
        have hlt : k < base + size / 2 := by
          by_contra hle
          rcases Nat.lt_or_eq_of_le (not_lt.1 hle) with hmid | rfl
          · have hless := h.lt_of_lt hmid hb hk (by simp [ha])
            simp [hgt] at hless
          · rw [hb, Option.some.injEq] at hk
            simp [hk, ha] at hgt
        exact ih hlow (by omega) (by omega) (by omega)
      · -- all before the middle are less
        rename_i hgt
        have hle : base + size / 2 ≤ k := by
          by_contra hlt
          have hless := h.lt_of_lt (not_le.1 hlt) hk hb hgt
          simp [ha] at hless
        exact ih hle (by omega) (by omega) (by omega)

/-- In an ordered vector the search finds what is there. -/
lemma binarySearchBy_eq_some_iff (h : InOrder cmp l) {k : ℕ} :
    binarySearchBy cmp l = some k ↔ l[k]?.map cmp = some .eq := by
  rw [binarySearchBy]
  constructor
  · intro hfound
    split at hfound
    · rename_i heq
      rwa [Option.some.inj hfound] at heq
    · cases hfound
  · intro hk
    obtain ⟨a, hka, ha⟩ := Option.map_eq_some_iff.1 hk
    have hlength : k < l.length := (List.getElem?_eq_some_iff.1 hka).1
    have hbase : binarySearchLoop cmp l l.length l.length 0 = k :=
      binarySearchLoop_eq h hka ha (Nat.zero_le _) (by omega) (by omega) (by omega)
    simp only [hbase, hk, if_true]

end BinarySearch

end MidnightNode.Vec
