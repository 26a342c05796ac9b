/-
# Traversals that may fail

Two ways to convert the elements of a list when some cannot be converted: stop at the first one
(`mapM` into `Except`), or leave those out (`filterMap`).  On lists whose elements correspond,
both lead to the same list exactly if nothing is left out.

A loop that may fail runs in step with one that does not exactly if each of its steps does
(`foldlM_inStep_iff`).

The results may be grouped by a key, in a table to which one element after the other is added.
-/
import Mathlib.Data.List.Forall2
import Mathlib.Data.List.Basic
import Mathlib.Tactic.Lemma

namespace MidnightNode.Traverse

variable {ε ε' α β γ : Type}

/-- A step of an `Except` computation that succeeded. -/
lemma bind_eq_ok {x : Except ε α} {f : α → Except ε β} {b : β} :
    (x >>= f) = .ok b ↔ ∃ a, x = .ok a ∧ f a = .ok b := by
  cases x with
  | error e => simp [bind, Except.bind]
  | ok a => simp [bind, Except.bind]

lemma mapError_eq_ok {x : Except ε α} {f : ε → ε'} {a : α} :
    x.mapError f = .ok a ↔ x = .ok a := by
  cases x <;> simp [Except.mapError]

lemma toOption_eq_some {x : Except ε α} {a : α} : x.toOption = some a ↔ x = .ok a := by
  cases x <;> simp [Except.toOption]

/-! ### Stopping or leaving out -/

/-- A traversal succeeds exactly if every element does. -/
lemma mapM_eq_ok_iff {f : α → Except ε β} {l : List α} {l' : List β} :
    l.mapM f = .ok l' ↔ List.Forall₂ (fun x y => f x = .ok y) l l' := by
  induction l generalizing l' with
  | nil =>
    rw [List.mapM_nil, List.forall₂_nil_left_iff]
    exact ⟨fun h => (Except.ok.inj h).symm, fun h => h ▸ rfl⟩
  | cons x l ih =>
    rw [List.mapM_cons]
    constructor
    · intro h
      obtain ⟨y, hy, h⟩ := bind_eq_ok.1 h
      obtain ⟨ys, hys, h⟩ := bind_eq_ok.1 h
      obtain rfl := Except.ok.inj h
      exact .cons hy (ih.1 hys)
    · rintro (_ | ⟨hy, hys⟩)
      rw [hy, ih.2 hys]
      rfl

/-- A loop of checks succeeds exactly if every check does. -/
lemma forM_eq_ok_iff {f : α → Except ε Unit} {l : List α} :
    l.forM f = .ok () ↔ ∀ x ∈ l, f x = .ok () := by
  induction l with
  | nil => exact iff_of_true rfl (by simp)
  | cons x l ih =>
    rw [List.forM, bind_eq_ok, List.forall_mem_cons, ← ih]
    constructor
    · rintro ⟨⟨⟩, hx, hl⟩
      exact ⟨hx, hl⟩
    · rintro ⟨hx, hl⟩
      exact ⟨(), hx, hl⟩

/-- A traversal whose elements are converted as a function says maps it over the list. -/
lemma mapM_eq_ok_map {f : α → Except ε β} {g : α → β} {l : List α}
    (h : ∀ x ∈ l, f x = .ok (g x)) : l.mapM f = .ok (l.map g) := by
  rw [mapM_eq_ok_iff, List.forall₂_map_right_iff, List.forall₂_same]
  exact h

lemma eq_map_of_mapM_eq_ok {f : α → Except ε β} {g : α → β} {l : List α} {l' : List β}
    (hf : ∀ x y, f x = .ok y → y = g x) (h : l.mapM f = .ok l') : l' = l.map g := by
  have hall := mapM_eq_ok_iff.1 h
  clear h
  induction hall with
  | nil => rfl
  | cons hx _ ih => rw [List.map_cons, ← hf _ _ hx, ih]

lemma exists_mapM_eq_ok {f : α → Except ε β} {l : List α} (h : ∀ x ∈ l, ∃ y, f x = .ok y) :
    ∃ l', l.mapM f = .ok l' := by
  induction l with
  | nil => exact ⟨[], rfl⟩
  | cons x l ih =>
    obtain ⟨y, hy⟩ := h x List.mem_cons_self
    obtain ⟨ys, hys⟩ := ih fun x' hx' => h x' (List.mem_cons_of_mem x hx')
    exact ⟨y :: ys, mapM_eq_ok_iff.2 (.cons hy (mapM_eq_ok_iff.1 hys))⟩

/-- The elements at one place of two corresponding lists. -/
lemma exists_getElem?_of_forall₂ {R : α → β → Prop} {l : List α} {l' : List β}
    (h : List.Forall₂ R l l') {k : ℕ} {x : α} (hk : l[k]? = some x) :
    ∃ y, l'[k]? = some y ∧ R x y := by
  induction h generalizing k with
  | nil => simp at hk
  | cons hxy _ ih =>
    cases k with
    | zero =>
      obtain rfl := Option.some.inj (by simpa using hk)
      exact ⟨_, rfl, hxy⟩
    | succ k => exact ih (by simpa using hk)

/-- Let what is not left out on one side be converted to the same on the other.  Then both
sides lead to the same list exactly if nothing is left out. -/
lemma mapM_eq_ok_filterMap_iff {g : α → Option γ} {f : β → Except ε γ} {l : List α}
    {l' : List β}
    (h : List.Forall₂ (fun a b => ∀ y, g a = some y → f b = .ok y) l l') :
    l'.mapM f = .ok (l.filterMap g) ↔ ∀ a ∈ l, (g a).isSome := by
  constructor
  · intro hok
    have hlength : (l.filterMap g).length = l.length :=
      (mapM_eq_ok_iff.1 hok).length_eq.symm.trans h.length_eq.symm
    exact fun a ha => List.filterMap_length_eq_length.1 hlength a ha
  · intro hall
    rw [mapM_eq_ok_iff]
    induction h with
    | nil => exact .nil
    | @cons a b l l' hab _ ih =>
      obtain ⟨y, hy⟩ := Option.isSome_iff_exists.1 (hall a List.mem_cons_self)
      rw [List.filterMap_cons_some hy]
      exact .cons (hab y hy) (ih fun a' ha' => hall a' (List.mem_cons_of_mem a ha'))

/-- A failing element makes a traversal fail. -/
lemma mapM_eq_error {f : α → Except ε β} {l : List α} {x : α} (hx : x ∈ l) {e : ε}
    (he : f x = .error e) : ∃ e', l.mapM f = .error e' := by
  cases hl : l.mapM f with
  | error e' => exact ⟨e', rfl⟩
  | ok ys =>
    have hall := (List.forall₂_iff_get.1 (mapM_eq_ok_iff.1 hl)).2
    obtain ⟨i, hi, rfl⟩ := List.getElem_of_mem hx
    have hok := hall i hi (by rw [← (mapM_eq_ok_iff.1 hl).length_eq]; exact hi)
    exact absurd (he.symm.trans hok) (by simp)

/-! ### Two loops in step -/

section InStep

variable {σ τ : Type}

/-- A property holds of every step of a loop, at the state before it. -/
def AtEachStep (g : σ → α → σ) (P : σ → α → Prop) : σ → List α → Prop
  | _, [] => True
  | s, x :: l => P s x ∧ AtEachStep g P (g s x) l

lemma AtEachStep.imp {g : σ → α → σ} {P Q : σ → α → Prop} (h : ∀ s x, P s x → Q s x) {s : σ}
    {l : List α} (hl : AtEachStep g P s l) : AtEachStep g Q s l := by
  induction l generalizing s with
  | nil => trivial
  | cons x l ih => exact ⟨h s x hl.1, ih hl.2⟩

/-- A loop that may fail is in step with another one after each part of a list exactly if each
of its steps is. -/
lemma foldlM_inStep_iff {f : τ → α → Except ε τ} {g : σ → α → σ} (view : σ → τ) {s : σ}
    {l : List α} :
    (∀ pre post, l = pre ++ post → pre.foldlM f (view s) = .ok (view (pre.foldl g s))) ↔
      AtEachStep g (fun s x => f (view s) x = .ok (view (g s x))) s l := by
  induction l generalizing s with
  | nil =>
    refine iff_of_true (fun pre post h => ?_) trivial
    obtain ⟨rfl, -⟩ := List.append_eq_nil_iff.1 h.symm
    rfl
  | cons x l ih =>
    have hcons : ∀ pre, f (view s) x = .ok (view (g s x)) →
        (x :: pre).foldlM f (view s) = pre.foldlM f (view (g s x)) := by
      intro pre hx
      rw [List.foldlM_cons, hx]
      rfl
    constructor
    · intro h
      have hx : f (view s) x = .ok (view (g s x)) := by
        have hfirst := h [x] l rfl
        rw [List.foldlM_cons] at hfirst
        obtain ⟨t, ht, hrest⟩ := bind_eq_ok.1 hfirst
        rw [ht, Except.ok.inj hrest]
        rfl
      refine ⟨hx, ih.1 fun pre post hl => ?_⟩
      rw [← hcons pre hx]
      exact h (x :: pre) post (by rw [hl]; rfl)
    · rintro ⟨hx, hl⟩ pre post hsplit
      cases pre with
      | nil => rfl
      | cons y pre =>
        obtain ⟨rfl, hrest⟩ := List.cons.inj hsplit
        rw [hcons pre hx]
        exact ih.2 hl pre post hrest

end InStep

/-! ### Grouping -/

section Group

variable {κ : Type} [DecidableEq κ]

/-- Add an element to its group, behind those that are there. -/
def push (k : κ) (v : β) : List (κ × List β) → List (κ × List β)
  | [] => [(k, [v])]
  | (k', vs) :: es => if k = k' then (k', vs ++ [v]) :: es else (k', vs) :: push k v es

/-- Add elements to their groups, one after the other. -/
def pushAll (kvs : List (κ × β)) (es : List (κ × List β)) : List (κ × List β) :=
  kvs.foldl (fun es kv => push kv.1 kv.2 es) es

/-- Converting the elements of all groups and adding a converted one can be exchanged. -/
lemma map_push (f : β → γ) (k : κ) (v : β) (es : List (κ × List β)) :
    (push k v es).map (fun e => (e.1, e.2.map f)) =
      push k (f v) (es.map (fun e => (e.1, e.2.map f))) := by
  induction es with
  | nil => rfl
  | cons e es ih =>
    by_cases hk : k = e.1
    · simp [push, hk]
    · simp [push, hk, ih]

lemma map_pushAll (f : β → γ) (kvs : List (κ × β)) (es : List (κ × List β)) :
    (pushAll kvs es).map (fun e => (e.1, e.2.map f)) =
      pushAll (kvs.map (fun kv => (kv.1, f kv.2))) (es.map (fun e => (e.1, e.2.map f))) := by
  induction kvs generalizing es with
  | nil => rfl
  | cons kv kvs ih =>
    have hrest := ih (push kv.1 kv.2 es)
    rw [map_push] at hrest
    exact hrest

/-- A loop that converts and adds in each round adds what a traversal converts. -/
lemma foldlM_push {f : α → Except ε (κ × β)} (l : List α) (es : List (κ × List β)) :
    l.foldlM (fun es x => (f x).map fun kv => push kv.1 kv.2 es) es =
      (l.mapM f).map fun kvs => pushAll kvs es := by
  induction l generalizing es with
  | nil => rfl
  | cons x l ih =>
    rw [List.foldlM_cons, List.mapM_cons]
    cases hx : f x with
    | error e => rfl
    | ok kv =>
      have hrest := ih (push kv.1 kv.2 es)
      cases hl : l.mapM f with
      | error e => simpa [hl, Except.map, bind, Except.bind] using hrest
      | ok kvs =>
        simpa [hl, Except.map, bind, Except.bind, pure, Except.pure, pushAll] using hrest

end Group

end MidnightNode.Traverse
