/-
# Logs that can be replayed

A log is replayed from a state by a partial transition function, which says which events are
possible where.  A system whose log can be replayed tells its observer the whole history:

* `replay` runs a log and fails at the first event that is not possible where it comes;
* `Switch` is the transition function of a value that is switched on and off again, where
  switching off names the value that was on;
* a replayable log of a switch alternates, its last event says what the value is
  (`replay_eq_some_iff_getLast`), and if it is switched on at most once it has one of three
  forms (`replay_shape`).
-/
import Mathlib.Data.List.Basic
import Mathlib.Tactic.Lemma

namespace MidnightNode.Replay

variable {σ ε : Type*}

/-- Replay a log from a state. -/
def replay (next : σ → ε → Option σ) : σ → List ε → Option σ
  | s, [] => some s
  | s, e :: es => (next s e).bind fun s' => replay next s' es

section Replay

variable {next : σ → ε → Option σ} {s s' : σ}

@[simp] lemma replay_nil (s : σ) : replay next s [] = some s :=
  rfl

@[simp] lemma replay_singleton (s : σ) (e : ε) : replay next s [e] = next s e := by
  simp [replay]

lemma replay_append (s : σ) (es es' : List ε) :
    replay next s (es ++ es') = (replay next s es).bind fun s' => replay next s' es' := by
  induction es generalizing s with
  | nil => rfl
  | cons e es ih =>
    rw [List.cons_append, replay, replay, Option.bind_assoc]
    exact congrArg _ (funext fun s' => ih s')

/-- A log whose events are translated. -/
lemma replay_map {ε' : Type*} (f : ε' → ε) (s : σ) (es : List ε') :
    replay next s (es.map f) = replay (fun s e => next s (f e)) s es := by
  induction es generalizing s with
  | nil => rfl
  | cons e es ih =>
    rw [List.map_cons, replay, replay]
    exact congrArg _ (funext fun s' => ih s')

/-- Logs are put together where one ends and the other starts. -/
lemma replay_trans {s'' : σ} {es es' : List ε} (h : replay next s es = some s')
    (h' : replay next s' es' = some s'') : replay next s (es ++ es') = some s'' := by
  rw [replay_append, h]
  exact h'

end Replay

/-! ### A value that is switched on and off -/

/-- The events of a value that is on or off. -/
inductive Switch (κ : Type*)
  | on (key : κ)
  | off (key : κ)

namespace Switch

variable {κ : Type*} [DecidableEq κ]

/-- Only what is off is switched on, and only the value that is on is switched off. -/
def next : Option κ → Switch κ → Option (Option κ)
  | none, on k => some (some k)
  | some k, off k' => if k' = k then some none else none
  | none, off _ => none
  | some _, on _ => none

@[simp] lemma next_none_on (k : κ) : next none (on k) = some (some k) :=
  rfl

@[simp] lemma next_some_off (k : κ) : next (some k) (off k) = some none :=
  if_pos rfl

lemma next_off_eq_some {k : κ} {o o' : Option κ} (h : next o (off k) = some o') :
    o = some k ∧ o' = none := by
  rcases o with _ | k'
  · exact absurd h (by simp [next])
  · rw [next] at h
    split at h
    · rename_i hk
      exact ⟨by rw [hk], (Option.some.inj h).symm⟩
    · exact absurd h (by simp)

lemma next_on_eq_some {k : κ} {o o' : Option κ} (h : next o (on k) = some o') :
    o = none ∧ o' = some k := by
  rcases o with _ | k'
  · exact ⟨rfl, (Option.some.inj h).symm⟩
  · exact absurd h (by simp [next])

variable {o o' : Option κ} {es : List (Switch κ)}

/-- The last event says what the value is. -/
lemma replay_eq_some_iff_getLast (h : replay next o es = some o') (k : κ) :
    o' = some k ↔ es.getLast? = some (on k) ∨ (es = [] ∧ o = some k) := by
  rcases List.eq_nil_or_concat es with rfl | ⟨init, e, rfl⟩
  · rw [replay_nil, Option.some.injEq] at h
    simp [h]
  · rw [List.concat_eq_append, replay_append] at h
    obtain ⟨m, -, hm⟩ := Option.bind_eq_some_iff.1 h
    rw [replay_singleton] at hm
    cases e with
    | on k' =>
      rw [(next_on_eq_some hm).2]
      simp
    | off k' =>
      rw [(next_off_eq_some hm).2]
      simp

/-- The number of times a log switches on. -/
def onCount : List (Switch κ) → ℕ
  | [] => 0
  | on _ :: es => onCount es + 1
  | off _ :: es => onCount es

omit [DecidableEq κ] in
lemma onCount_append (es es' : List (Switch κ)) :
    onCount (es ++ es') = onCount es + onCount es' := by
  induction es with
  | nil => simp [onCount]
  | cons e es ih =>
    cases e with
    | on k =>
      simp only [List.cons_append, onCount, ih]
      omega
    | off k => simpa only [List.cons_append, onCount] using ih

/-- What is off, and is not switched on, has no events. -/
lemma eq_nil_of_onCount_eq_zero (h : replay next none es = some o') (hc : onCount es = 0) :
    es = [] ∧ o' = none := by
  cases es with
  | nil => exact ⟨rfl, (Option.some.inj h).symm⟩
  | cons e es =>
    cases e with
    | on k => exact absurd hc (by simp [onCount])
    | off k => exact absurd h (by simp [replay, next])

/-- A value that is switched on at most once was never on, is on, or was switched off
again. -/
lemma replay_shape (h : replay next none es = some o') (hc : onCount es ≤ 1) :
    (es = [] ∧ o' = none) ∨
      ∃ k, (es = [on k] ∧ o' = some k) ∨ (es = [on k, off k] ∧ o' = none) := by
  cases es with
  | nil => exact Or.inl ⟨rfl, (Option.some.inj h).symm⟩
  | cons e es =>
    refine Or.inr ?_
    cases e with
    | off k => exact absurd h (by simp [replay, next])
    | on k =>
      refine ⟨k, ?_⟩
      have hc' : onCount es = 0 := by
        simp only [onCount] at hc
        omega
      have h' : replay next (some k) es = some o' := h
      cases es with
      | nil => exact Or.inl ⟨rfl, (Option.some.inj h').symm⟩
      | cons e es =>
        cases e with
        | on k' => exact absurd hc' (by simp [onCount])
        | off k' =>
          obtain ⟨m, hm, hrest⟩ := Option.bind_eq_some_iff.1 h'
          obtain ⟨hk, rfl⟩ := next_off_eq_some hm
          obtain ⟨rfl, rfl⟩ := eq_nil_of_onCount_eq_zero hrest hc'
          rw [Option.some.inj hk]
          exact Or.inr ⟨rfl, rfl⟩

end Switch

end MidnightNode.Replay
