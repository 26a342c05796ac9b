/-
# Storage layers

A fallible computation over a store returns the store it leaves on *both* outcomes: the
writes made before an error are there until some enclosing layer discards them.  A
storage layer is such a layer: it keeps the writes of a computation that succeeds and
restores the store it started from when the computation fails.  Layers nest, and the
only thing an enclosing layer sees of an inner one is the store it leaves and its
result.
-/
import Mathlib.Tactic.TypeStar
import Mathlib.Tactic.Lemma

namespace MidnightNode.StorageLayer

variable {σ ε α : Type*}

/-- A fallible computation over a store. -/
abbrev Body (σ ε α : Type*) : Type _ := σ → σ × Except ε α

/-- Run a computation in its own storage layer: an error discards its writes. -/
def withStorageLayer (f : Body σ ε α) : Body σ ε α := fun s =>
  match f s with
  | (s', .ok a) => (s', .ok a)
  | (_, .error e) => (s, .error e)

lemma withStorageLayer_of_ok {f : Body σ ε α} {s s' : σ} {a : α} (h : f s = (s', .ok a)) :
    withStorageLayer f s = (s', .ok a) := by
  simp [withStorageLayer, h]

lemma withStorageLayer_of_error {f : Body σ ε α} {s s' : σ} {e : ε}
    (h : f s = (s', .error e)) : withStorageLayer f s = (s, .error e) := by
  simp [withStorageLayer, h]

/-- A layer does not change the result of the computation it runs. -/
lemma withStorageLayer_snd (f : Body σ ε α) (s : σ) :
    (withStorageLayer f s).2 = (f s).2 := by
  rcases h : f s with ⟨s', _ | _⟩
  · rw [withStorageLayer_of_error h]
  · rw [withStorageLayer_of_ok h]

/-- A relation between the store before and after that holds of an untouched store holds
across a layer as soon as it holds across every successful run of the computation. -/
lemma withStorageLayer_rel {R : σ → σ → Prop} {f : Body σ ε α} (hrefl : ∀ s, R s s)
    (hok : ∀ s s' a, f s = (s', .ok a) → R s s') (s : σ) : R s (withStorageLayer f s).1 := by
  rcases h : f s with ⟨s', e | a⟩
  · rw [withStorageLayer_of_error h]
    exact hrefl s
  · rw [withStorageLayer_of_ok h]
    exact hok s s' a h

end MidnightNode.StorageLayer
