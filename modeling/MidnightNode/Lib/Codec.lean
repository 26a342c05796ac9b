/-
# Decoders that read from the front

A decoder of SCALE takes a value from the front of the input and leaves the rest.  `Reads decode
encode a` says that what is written for `a` is read as `a`, whatever follows it.  Pairs, vectors and
the images under a change of type keep it, so that the round trip of a record is put together from
those of its fields.
-/
import Mathlib.Data.Vector.Basic
import MidnightNode.Lib.Scale

namespace MidnightNode.Scale

variable {α β : Type*}

/-- What is taken from the front, and the rest. -/
abbrev Decoder (α : Type*) : Type _ := List UInt8 → Option (α × List UInt8)

/-- What is written for a value is read as this value, whatever follows. -/
def Reads (decode : Decoder α) (encode : α → List UInt8) (a : α) : Prop :=
  ∀ rest, decode (encode a ++ rest) = some (a, rest)

/-- One value after the other. -/
def decodePair (decode : Decoder α) (decode' : Decoder β) : Decoder (α × β) := fun input =>
  (decode input).bind fun (a, input) => (decode' input).map fun (b, input) => ((a, b), input)

/-- The value of another type. -/
def decodeMap (f : α → β) (decode : Decoder α) : Decoder β := fun input =>
  (decode input).map fun (a, input) => (f a, input)

lemma Reads.pair {decode : Decoder α} {decode' : Decoder β} {encode : α → List UInt8}
    {encode' : β → List UInt8} {a : α} {b : β} (ha : Reads decode encode a)
    (hb : Reads decode' encode' b) :
    Reads (decodePair decode decode') (fun p => encode p.1 ++ encode' p.2) (a, b) := by
  intro rest
  rw [decodePair, List.append_assoc, ha, Option.bind_some]
  dsimp only
  rw [hb]
  rfl

lemma Reads.map {f : α → β} {g : β → α} {decode : Decoder α} {encode : α → List UInt8} {b : β}
    (h : Reads decode encode (g b)) (hfg : f (g b) = b) :
    Reads (decodeMap f decode) (fun b => encode (g b)) b := by
  intro rest
  rw [decodeMap, h]
  exact congrArg (fun b => some (b, rest)) hfg

/-! ### Bytes and numbers -/

/-- An array of bytes. -/
def decodeBytes (n : ℕ) : Decoder (List.Vector UInt8 n) := fun input =>
  if h : (input.take n).length = n then some (⟨input.take n, h⟩, input.drop n) else none

/-- The given number of bytes of a number, the lowest first. -/
def leBytes : ℕ → ℕ → List UInt8
  | 0, _ => []
  | w + 1, n => UInt8.ofNat n :: leBytes w (n / 2 ^ 8)

/-- The number of some bytes, the lowest first. -/
def ofLeBytes : List UInt8 → ℕ
  | [] => 0
  | b :: bytes => b.toNat + 2 ^ 8 * ofLeBytes bytes

/-- A number with the given number of bytes. -/
def decodeLe (w : ℕ) : Decoder ℕ :=
  decodeMap (fun bytes => ofLeBytes bytes.toList) (decodeBytes w)

/-- `Compact::<u32>::encode`: the shortest form. -/
def compactU32 (n : ℕ) : List UInt8 :=
  if n < 2 ^ 6 then [.ofNat (4 * n)]
  else if n < 2 ^ 14 then [.ofNat (4 * n + 1), .ofNat ((4 * n + 1) / 2 ^ 8)]
  else if n < 2 ^ 30 then le32 (4 * n + 2)
  else 3 :: le32 n

/-- How many bytes a compact integer takes, by its first byte. -/
def compactWidth : List UInt8 → ℕ
  | [] => 0
  | b :: _ =>
    match b.toNat % 4 with
    | 0 => 1
    | 1 => 2
    | 2 => 4
    | _ => 5

/-- A compact integer from the front. -/
def decodeCompact : Decoder ℕ := fun input =>
  (decodeCompactU32 input).map fun n => (n, input.drop (compactWidth input))

/-- `Vec::encode`. -/
def encodeVec (encode : α → List UInt8) (l : List α) : List UInt8 :=
  compactU32 l.length ++ l.flatMap encode

/-- The given number of values. -/
def decodeItems (decode : Decoder α) : ℕ → Decoder (List α)
  | 0, input => some ([], input)
  | n + 1, input =>
    (decode input).bind fun (a, input) =>
      (decodeItems decode n input).map fun (l, input) => (a :: l, input)

/-- `Vec::decode`. -/
def decodeVec (decode : Decoder α) : Decoder (List α) := fun input =>
  (decodeCompact input).bind fun (n, input) => decodeItems decode n input

end MidnightNode.Scale
