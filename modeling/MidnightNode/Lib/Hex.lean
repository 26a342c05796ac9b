/-
# Hexadecimal text

Bytes as two digits each, and numbers as bytes from the most significant one on.  A reader takes
digits of either case and an even number of them; what was written is read back, and an even
number of digits in lower case is what some bytes are written as.
-/
import Mathlib.Algebra.Group.Nat.Defs
import Mathlib.Data.List.Induction
import Mathlib.Tactic.Lemma

namespace MidnightNode.Hex

/-- The value of a digit, in either case. -/
def digitValue (c : Char) : Option ℕ :=
  if '0' ≤ c ∧ c ≤ '9' then some (c.toNat - '0'.toNat)
  else if 'a' ≤ c ∧ c ≤ 'f' then some (c.toNat - 'a'.toNat + 10)
  else if 'A' ≤ c ∧ c ≤ 'F' then some (c.toNat - 'A'.toNat + 10)
  else none

/-- The digits of bytes, in lower case. -/
def digits (bytes : List UInt8) : List Char :=
  bytes.flatMap fun b => [Nat.digitChar (b.toNat / 16), Nat.digitChar (b.toNat % 16)]

/-- The bytes of an even number of digits. -/
def ofDigits : List Char → Option (List UInt8)
  | [] => some []
  | [_] => none
  | high :: low :: rest => do
    let h ← digitValue high
    let l ← digitValue low
    let bytes ← ofDigits rest
    return UInt8.ofNat (16 * h + l) :: bytes

/-- Write bytes. -/
def encode (bytes : List UInt8) : String := String.ofList (digits bytes)

/-- Read bytes. -/
def decode (text : String) : Option (List UInt8) := ofDigits text.toList

lemma digitValue_digitChar {n : ℕ} (h : n < 16) : digitValue (Nat.digitChar n) = some n := by
  have hall : ∀ n < 16, digitValue (Nat.digitChar n) = some n := by decide
  exact hall n h

lemma ofDigits_digits (bytes : List UInt8) : ofDigits (digits bytes) = some bytes := by
  induction bytes with
  | nil => rfl
  | cons b bytes ih =>
    have hb : b.toNat < 256 := b.toNat_lt
    have hhigh := digitValue_digitChar (n := b.toNat / 16) (by omega)
    have hlow := digitValue_digitChar (n := b.toNat % 16) (by omega)
    have hbyte : UInt8.ofNat (16 * (b.toNat / 16) + b.toNat % 16) = b := by
      rw [Nat.div_add_mod, UInt8.ofNat_toNat]
    change ofDigits (_ :: _ :: digits bytes) = _
    rw [ofDigits, hhigh, hlow, ih]
    exact congrArg (fun b => some (b :: bytes)) hbyte

lemma decode_encode (bytes : List UInt8) : decode (encode bytes) = some bytes := by
  rw [decode, encode, String.toList_ofList, ofDigits_digits]

lemma length_digits (bytes : List UInt8) : (digits bytes).length = 2 * bytes.length := by
  induction bytes with
  | nil => rfl
  | cons b bytes ih =>
    change (digits bytes).length + 2 = _
    rw [ih, List.length_cons]
    omega

/-- An even number of digits in lower case is written for some bytes. -/
lemma exists_digits_eq : ∀ {cs : List Char}, (∀ c ∈ cs, ∃ n < 16, c = Nat.digitChar n) →
    cs.length % 2 = 0 → ∃ bytes, digits bytes = cs
  | [], _, _ => ⟨[], rfl⟩
  | [_], _, hlength => absurd hlength (by simp)
  | high :: low :: cs, hcs, hlength => by
    obtain ⟨h, hh, rfl⟩ := hcs high List.mem_cons_self
    obtain ⟨l, hl, rfl⟩ := hcs low (List.mem_cons_of_mem _ List.mem_cons_self)
    have heven : cs.length % 2 = 0 := by
      rw [List.length_cons, List.length_cons] at hlength
      omega
    obtain ⟨bytes, rfl⟩ := exists_digits_eq
      (fun c hc => hcs c (List.mem_cons_of_mem _ (List.mem_cons_of_mem _ hc))) heven
    have hbyte : (UInt8.ofNat (16 * h + l)).toNat = 16 * h + l := by
      rw [UInt8.toNat_ofNat', Nat.mod_eq_of_lt (by omega)]
    refine ⟨UInt8.ofNat (16 * h + l) :: bytes, ?_⟩
    rw [digits, List.flatMap_cons, hbyte, show (16 * h + l) / 16 = h by omega,
      show (16 * h + l) % 16 = l by omega]
    rfl

/-! ### Numbers -/

/-- The last `n` bytes of a number, the most significant one first. -/
def toBytes : ℕ → ℕ → List UInt8
  | 0, _ => []
  | n + 1, v => toBytes n (v / 256) ++ [UInt8.ofNat v]

/-- The number that bytes stand for. -/
def ofBytes (bytes : List UInt8) : ℕ := bytes.foldl (fun v b => 256 * v + b.toNat) 0

@[simp] lemma length_toBytes (n v : ℕ) : (toBytes n v).length = n := by
  induction n generalizing v with
  | zero => rfl
  | succ n ih => simp [toBytes, ih]

lemma ofBytes_toBytes {n v : ℕ} (h : v < 256 ^ n) : ofBytes (toBytes n v) = v := by
  induction n generalizing v with
  | zero =>
    rw [pow_zero] at h
    rw [show v = 0 by omega]
    rfl
  | succ n ih =>
    rw [pow_succ] at h
    have hdiv : v / 256 < 256 ^ n := by omega
    have hfirst := ih hdiv
    rw [ofBytes] at hfirst
    rw [ofBytes, toBytes, List.foldl_append, hfirst, List.foldl_cons, List.foldl_nil,
      UInt8.toNat_ofNat']
    omega

end MidnightNode.Hex
