/-
# Two encodings of `u32` in SCALE

SCALE writes a `u32` either with a fixed width, as four bytes in little endian, or as a compact
integer, whose first two bits say how many bytes follow.  A compact integer is only accepted in the
shortest form.  The two agree on nothing but zero: `decodeCompactU32_le32` says what a reader of
compact integers makes of four bytes with a fixed width, whatever follows them.
-/
import Mathlib.Algebra.Group.Nat.Defs
import Mathlib.Data.Nat.Notation
import Mathlib.Tactic.Lemma

namespace MidnightNode.Scale

/-- A `u32` with a fixed width. -/
def le32 (n : ℕ) : List UInt8 :=
  [.ofNat n, .ofNat (n / 2 ^ 8), .ofNat (n / 2 ^ 16), .ofNat (n / 2 ^ 24)]

/-- `u16::decode`. -/
def decodeU16 : List UInt8 → Option ℕ
  | b₀ :: b₁ :: _ => some (b₀.toNat + 2 ^ 8 * b₁.toNat)
  | _ => none

/-- `u32::decode`. -/
def decodeU32 : List UInt8 → Option ℕ
  | b₀ :: b₁ :: b₂ :: b₃ :: _ =>
    some (b₀.toNat + 2 ^ 8 * b₁.toNat + 2 ^ 16 * b₂.toNat + 2 ^ 24 * b₃.toNat)
  | _ => none

/-- A number above `low` and up to `high`, `U32_OUT_OF_RANGE` otherwise. -/
def inRange (low high x : ℕ) : Option ℕ :=
  if low < x ∧ x ≤ high then some x else none

/-- `Compact::<u32>::decode`. -/
def decodeCompactU32 : List UInt8 → Option ℕ
  | [] => none
  | b :: input =>
    match b.toNat % 4 with
    | 0 => some (b.toNat / 4)
    | 1 => (decodeU16 (b :: input)).bind fun x => inRange (2 ^ 6 - 1) (2 ^ 14 - 1) (x / 4)
    | 2 => (decodeU32 (b :: input)).bind fun x => inRange (2 ^ 14 - 1) (2 ^ 30 - 1) (x / 4)
    | _ =>
      if b.toNat / 4 = 0 then
        (decodeU32 input).bind fun x => inRange (2 ^ 30 - 1) (2 ^ 32 - 1) x
      else none

lemma inRange_eq_some {low high x y : ℕ} (h : inRange low high x = some y) : low < x ∧ x = y := by
  rw [inRange] at h
  split at h
  · rename_i hx
    exact ⟨hx.1, Option.some.inj h⟩
  · exact absurd h (by simp)

/-- The last three bytes of a `u32`. -/
lemma lastThree {x : ℕ} (hx : x < 2 ^ 32) :
    x / 2 ^ 8 % 2 ^ 8 + 2 ^ 8 * (x / 2 ^ 16 % 2 ^ 8) + 2 ^ 16 * (x / 2 ^ 24 % 2 ^ 8) =
      x / 2 ^ 8 := by
  have h₁ : x / 2 ^ 16 = x / 2 ^ 8 / 2 ^ 8 := (Nat.div_div_eq_div_mul x (2 ^ 8) (2 ^ 8)).symm
  have h₂ : x / 2 ^ 24 = x / 2 ^ 8 / 2 ^ 8 / 2 ^ 8 := by
    rw [← h₁]
    exact (Nat.div_div_eq_div_mul x (2 ^ 16) (2 ^ 8)).symm
  rw [h₁, h₂]
  have hy : x / 2 ^ 8 < 2 ^ 24 := by omega
  generalize x / 2 ^ 8 = y at hy ⊢
  omega

lemma decodeU32_le32 {n : ℕ} (h : n < 2 ^ 32) (rest : List UInt8) :
    decodeU32 (le32 n ++ rest) = some n := by
  have hlast := lastThree h
  have hfirst := Nat.mod_add_div n (2 ^ 8)
  simp only [le32, List.cons_append, decodeU32, UInt8.toNat_ofNat', Option.some.injEq]
  generalize n / 2 ^ 8 % 2 ^ 8 = b₁ at hlast ⊢
  generalize n / 2 ^ 16 % 2 ^ 8 = b₂ at hlast ⊢
  generalize n / 2 ^ 24 % 2 ^ 8 = b₃ at hlast ⊢
  omega

/-- A large number whose first byte is small is not its last three bytes with another byte behind
them. -/
lemma shift_ne {x b : ℕ} (hx : x < 2 ^ 32) (hsmall : x % 2 ^ 8 < 4) (hlarge : 2 ^ 30 ≤ x) :
    x / 2 ^ 8 + 2 ^ 24 * b ≠ x := by
  have hx' := Nat.mod_add_div x (2 ^ 8)
  generalize x / 2 ^ 8 = m at hx' ⊢
  generalize x % 2 ^ 8 = r at hsmall hx'
  intro heq
  -- Modulo 255 the other byte is the first byte.
  obtain ⟨k, rfl⟩ | ⟨k, rfl⟩ : (∃ k, m = 65793 * b + k) ∨ ∃ k, b = r + 255 * k := by
    by_cases h : 65793 * b ≤ m
    · exact .inl ⟨m - 65793 * b, by omega⟩
    · exact .inr ⟨65793 * b - m, by omega⟩
  · omega
  · cases k <;> omega

/-- Read as a compact integer, a `u32` with a fixed width only gives itself if it is zero. -/
lemma decodeCompactU32_le32 {n : ℕ} (h : n < 2 ^ 32) (rest : List UInt8) :
    decodeCompactU32 (le32 n ++ rest) = some n ↔ n = 0 := by
  constructor
  · intro hn
    have hfirst : (UInt8.ofNat n).toNat = n % 2 ^ 8 := UInt8.toNat_ofNat'
    have hwhole := decodeU32_le32 h rest
    simp only [le32, List.cons_append, List.nil_append] at hn hwhole
    rw [decodeCompactU32] at hn
    split at hn
    · have := Option.some.inj hn
      omega
    · obtain ⟨x, hx, hrange⟩ := Option.bind_eq_some_iff.1 hn
      have := (inRange_eq_some hrange).2
      simp only [decodeU16, UInt8.toNat_ofNat', Option.some.injEq] at hx
      have hle : x ≤ n := by
        rw [← hx, ← Nat.mod_mul]
        exact Nat.mod_le _ _
      clear hx
      omega
    · rw [hwhole, Option.bind_some] at hn
      have := (inRange_eq_some hn).2
      omega
    · -- The four bytes read are the last three and one of what follows.
      split at hn
      · rename_i hsmall
        obtain ⟨x, hx, hrange⟩ := Option.bind_eq_some_iff.1 hn
        obtain ⟨hlow, rfl⟩ := inRange_eq_some hrange
        cases rest with
        | nil => exact absurd hx (by simp [decodeU32])
        | cons b rest =>
          simp only [decodeU32, UInt8.toNat_ofNat', Option.some.injEq] at hx
          rw [lastThree h] at hx
          rw [hfirst] at hsmall
          exact (shift_ne h (by omega) (by omega) hx).elim
      · exact absurd hn (by simp)
  · rintro rfl
    rfl

end MidnightNode.Scale
