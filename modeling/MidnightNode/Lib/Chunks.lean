/-
# Consecutive intervals

An interval of numbers is cut into consecutive ones, none of them empty.  Cutting it in steps of
a fixed width gives such a list, and as many intervals as the rounded-up quotient says.
-/
import Mathlib.Order.Lattice
import Mathlib.Algebra.Order.Group.Nat

namespace MidnightNode.Chunks

/-! ### Lists of intervals -/

/-- The intervals are not empty, each starts where the one before it ends, and together they
are `lo..hi`.  Intervals do not contain their upper bounds. -/
def Consecutive : List (ℕ × ℕ) → ℕ → ℕ → Prop
  | [], lo, hi => lo = hi
  | (a, b) :: js, lo, hi => a = lo ∧ a < b ∧ Consecutive js b hi

variable {js : List (ℕ × ℕ)} {lo hi x : ℕ}

lemma Consecutive.le (h : Consecutive js lo hi) : lo ≤ hi := by
  induction js generalizing lo with
  | nil => exact h.le
  | cons j js ih =>
    obtain ⟨rfl, hlt, hrest⟩ := h
    exact hlt.le.trans (ih hrest)

lemma Consecutive.bounds (h : Consecutive js lo hi) {j : ℕ × ℕ} (hj : j ∈ js) :
    lo ≤ j.1 ∧ j.1 < j.2 ∧ j.2 ≤ hi := by
  induction js generalizing lo with
  | nil => simp at hj
  | cons j' js ih =>
    obtain ⟨rfl, hlt, hrest⟩ := h
    rcases List.mem_cons.1 hj with rfl | hj
    · exact ⟨le_rfl, hlt, hrest.le⟩
    · obtain ⟨h₁, h₂, h₃⟩ := ih hrest hj
      exact ⟨hlt.le.trans h₁, h₂, h₃⟩

/-- No number is left out. -/
lemma Consecutive.exists_mem (h : Consecutive js lo hi) (hlo : lo ≤ x) (hhi : x < hi) :
    ∃ j ∈ js, j.1 ≤ x ∧ x < j.2 := by
  induction js generalizing lo with
  | nil =>
    rw [Consecutive] at h
    omega
  | cons j js ih =>
    obtain ⟨rfl, hlt, hrest⟩ := h
    by_cases hx : x < j.2
    · exact ⟨j, List.mem_cons_self, hlo, hx⟩
    · obtain ⟨j', hj', hx'⟩ := ih hrest (not_lt.1 hx)
      exact ⟨j', List.mem_cons_of_mem j hj', hx'⟩

/-- No number is in two intervals. -/
lemma Consecutive.index_unique (h : Consecutive js lo hi) {k k' : ℕ} {j j' : ℕ × ℕ}
    (hk : js[k]? = some j) (hk' : js[k']? = some j') (hx : j.1 ≤ x ∧ x < j.2)
    (hx' : j'.1 ≤ x ∧ x < j'.2) : k = k' := by
  induction js generalizing lo k k' with
  | nil => simp at hk
  | cons i js ih =>
    obtain ⟨rfl, hlt, hrest⟩ := h
    cases k with
    | zero =>
      cases k' with
      | zero => rfl
      | succ k' =>
        obtain rfl : i = j := by simpa using hk
        have hmem : j' ∈ js := List.mem_of_getElem? (by simpa using hk')
        have := (hrest.bounds hmem).1
        omega
    | succ k =>
      cases k' with
      | zero =>
        obtain rfl : i = j' := by simpa using hk'
        have hmem : j ∈ js := List.mem_of_getElem? (by simpa using hk)
        have := (hrest.bounds hmem).1
        omega
      | succ k' => exact congrArg (· + 1) (ih hrest (by simpa using hk) (by simpa using hk'))

/-- Two neighbouring numbers are in one interval, or the second one is where an interval ends
and the next one starts. -/
lemma Consecutive.adjacent (h : Consecutive js lo hi) (hlo : lo ≤ x) (hhi : x + 1 < hi) :
    ∃ j ∈ js, j.1 ≤ x ∧ (x + 1 < j.2 ∨ x + 1 = j.2) := by
  obtain ⟨j, hj, hx, hx'⟩ := h.exists_mem hlo (by omega)
  exact ⟨j, hj, hx, by omega⟩

/-! ### Cutting an interval in steps -/

/-- Division that rounds up. -/
def divCeil (a b : ℕ) : ℕ := if a % b = 0 then a / b else a / b + 1

/-- At most `fuel` numbers `lo`, `lo + n`, `lo + 2 * n` and so on below `hi`. -/
def stepByAux (n hi : ℕ) : ℕ → ℕ → List ℕ
  | 0, _ => []
  | fuel + 1, lo => if lo < hi then lo :: stepByAux n hi fuel (lo + n) else []

/-- `(lo..hi).step_by(n)`.  A step is not zero, so that there are at most `hi - lo` numbers. -/
def stepBy (lo hi n : ℕ) : List ℕ := stepByAux n hi (hi - lo) lo

/-- The interval of width `n` that starts at a number, cut off at `hi`. -/
def chunk (n hi a : ℕ) : ℕ × ℕ := (a, min (a + n) hi)

lemma divCeil_of_le {a b : ℕ} (hb : 0 < b) (ha : 0 < a) (h : a ≤ b) : divCeil a b = 1 := by
  unfold divCeil
  rcases Nat.lt_or_eq_of_le h with h | rfl
  · rw [Nat.mod_eq_of_lt h, if_neg (by omega), Nat.div_eq_of_lt h]
  · rw [Nat.mod_self, if_pos rfl, Nat.div_self hb]

lemma divCeil_of_lt {a b : ℕ} (hb : 0 < b) (h : b < a) : divCeil a b = divCeil (a - b) b + 1 := by
  unfold divCeil
  rw [Nat.mod_eq_sub_mod h.le, Nat.div_eq_sub_div hb h.le]
  split <;> rfl

lemma divCeil_le {b : ℕ} (hb : 0 < b) (a : ℕ) : divCeil a b ≤ a := by
  unfold divCeil
  have hdiv := Nat.div_add_mod a b
  have hle : a / b ≤ b * (a / b) := Nat.le_mul_of_pos_left _ hb
  split <;> omega

lemma length_stepByAux {n : ℕ} (hn : 0 < n) (fuel : ℕ) :
    ∀ lo, hi - lo ≤ fuel → (stepByAux n hi fuel lo).length = divCeil (hi - lo) n := by
  induction fuel with
  | zero =>
    intro lo h
    obtain h0 : hi - lo = 0 := by omega
    rw [h0]
    simp [stepByAux, divCeil]
  | succ fuel ih =>
    intro lo h
    rw [stepByAux]
    by_cases hlt : lo < hi
    · rw [if_pos hlt, List.length_cons, ih (lo + n) (by omega)]
      by_cases hlast : hi - lo ≤ n
      · rw [divCeil_of_le hn (by omega) hlast]
        obtain h0 : hi - (lo + n) = 0 := by omega
        simp [h0, divCeil]
      · rw [Nat.sub_add_eq, ← divCeil_of_lt hn (not_le.1 hlast)]
    · rw [if_neg hlt]
      obtain h0 : hi - lo = 0 := by omega
      simp [h0, divCeil]

/-- The number of steps. -/
lemma length_stepBy {n : ℕ} (hn : 0 < n) : (stepBy lo hi n).length = divCeil (hi - lo) n :=
  length_stepByAux hn _ lo le_rfl

lemma consecutive_stepByAux {n : ℕ} (hn : 0 < n) (fuel : ℕ) :
    ∀ lo, lo ≤ hi → hi - lo ≤ fuel →
      Consecutive ((stepByAux n hi fuel lo).map (chunk n hi)) lo hi := by
  induction fuel with
  | zero =>
    intro lo hle h
    rw [stepByAux, List.map_nil, Consecutive]
    omega
  | succ fuel ih =>
    intro lo hle h
    rw [stepByAux]
    by_cases hlt : lo < hi
    · rw [if_pos hlt, List.map_cons]
      refine ⟨rfl, by omega, ?_⟩
      by_cases hlast : lo + n ≤ hi
      · rw [min_eq_left hlast]
        exact ih (lo + n) hlast (by omega)
      · -- the last step: nothing follows
        have hnil : stepByAux n hi fuel (lo + n) = [] := by
          cases fuel with
          | zero => rfl
          | succ fuel => rw [stepByAux, if_neg (by omega)]
        rw [min_eq_right (by omega), hnil]
        rfl
    · rw [if_neg hlt, List.map_nil, Consecutive]
      omega

/-- The steps cut the interval into consecutive ones. -/
lemma consecutive_stepBy {n : ℕ} (hn : 0 < n) (h : lo ≤ hi) :
    Consecutive ((stepBy lo hi n).map (chunk n hi)) lo hi :=
  consecutive_stepByAux hn _ lo h le_rfl

lemma lt_of_mem_stepByAux {n : ℕ} {fuel a : ℕ} :
    ∀ {lo}, a ∈ stepByAux n hi fuel lo → a < hi := by
  induction fuel with
  | zero =>
    intro lo h
    simp [stepByAux] at h
  | succ fuel ih =>
    intro lo h
    rw [stepByAux] at h
    split at h
    · rcases List.mem_cons.1 h with rfl | h
      · assumption
      · exact ih h
    · simp at h

lemma lt_of_mem_stepBy {n a : ℕ} (h : a ∈ stepBy lo hi n) : a < hi := lt_of_mem_stepByAux h

end MidnightNode.Chunks
