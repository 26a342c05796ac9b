/-
# Loops that return

A round of a loop either goes on in a new state or returns from the loop.  `Returns round s r` says
that the loop that starts in `s` returns `r`: it has finitely many rounds, but nothing bounds their
number, and a loop that goes on for ever returns nothing.

What holds of every returned value is shown by an invariant of the rounds (`Returns.rule`).
-/
import Mathlib.Tactic.Lemma
import Mathlib.Tactic.TypeStar

namespace MidnightNode.Loop

variable {σ ρ : Type*}

/-- The loop with these rounds returns from a state. -/
inductive Returns (round : σ → σ ⊕ ρ) : σ → ρ → Prop
  | now {s : σ} {r : ρ} (h : round s = .inr r) : Returns round s r
  | later {s s' : σ} {r : ρ} (h : round s = .inl s') (hr : Returns round s' r) : Returns round s r

/-- If the rounds keep an invariant, then whatever a round that returns makes of it holds of the
value that the loop returns. -/
lemma Returns.rule {round : σ → σ ⊕ ρ} {s : σ} {r : ρ} (h : Returns round s r) (Inv : σ → Prop)
    (Post : ρ → Prop) (hs : Inv s) (hround : ∀ s s', Inv s → round s = .inl s' → Inv s')
    (hreturn : ∀ s r, Inv s → round s = .inr r → Post r) : Post r := by
  induction h with
  | now h => exact hreturn _ _ hs h
  | later h _ ih => exact ih (hround _ _ hs h)

end MidnightNode.Loop
