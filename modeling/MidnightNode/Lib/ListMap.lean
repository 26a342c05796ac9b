/-
# Maps of lists

An ordered map whose values are lists, filled by appending to the list of a key.  What such a
map says is the list it has for every key, none being the empty list; all its values together
are, up to their order, those of any keys that cover it.
-/
import Mathlib.Data.List.Perm.Lattice
import Mathlib.Data.List.Nodup
import Mathlib.Data.Nat.Basic
import Mathlib.Tactic.Lemma

namespace MidnightNode.ListMap

variable {β : Type*}

/-- The list of a key among entries, the first one counting. -/
def lookup : List (ℕ × List β) → ℕ → List β
  | [], _ => []
  | (k', l) :: es, k => if k = k' then l else lookup es k

/-- Append to the list of a key among entries in the order of their keys. -/
def append : List (ℕ × List β) → ℕ → List β → List (ℕ × List β)
  | [], k, l => [(k, l)]
  | (k', l') :: es, k, l =>
    if k < k' then (k, l) :: (k', l') :: es
    else if k = k' then (k', l' ++ l) :: es
    else (k', l') :: append es k l

/-- The entries are in the order of their keys, each key once. -/
def Sorted (es : List (ℕ × List β)) : Prop :=
  es.Pairwise (fun e e' => e.1 < e'.1)

lemma lookup_eq_nil {es : List (ℕ × List β)} {k : ℕ} (h : ∀ e ∈ es, e.1 ≠ k) :
    lookup es k = [] := by
  induction es with
  | nil => rfl
  | cons e es ih =>
    obtain ⟨k', l⟩ := e
    have hne : k ≠ k' := fun heq => h _ (List.mem_cons_self) heq.symm
    rw [lookup, if_neg hne]
    exact ih (fun e he => h e (List.mem_cons_of_mem _ he))

lemma lookup_eq_of_mem {es : List (ℕ × List β)} (hs : Sorted es) {e : ℕ × List β}
    (he : e ∈ es) : lookup es e.1 = e.2 := by
  induction es with
  | nil => exact absurd he (by simp)
  | cons e' es ih =>
    obtain ⟨k', l'⟩ := e'
    obtain ⟨hlt, hs⟩ := List.pairwise_cons.1 hs
    rcases List.mem_cons.1 he with rfl | he
    · simp [lookup]
    · have hne : e.1 ≠ k' := ne_of_gt (hlt e he)
      rw [lookup, if_neg hne]
      exact ih hs he

/-- Every key of the extended entries is the new one or was there. -/
lemma key_of_mem_append {es : List (ℕ × List β)} {k : ℕ} {l : List β} {e : ℕ × List β}
    (he : e ∈ append es k l) : e.1 = k ∨ ∃ e' ∈ es, e'.1 = e.1 := by
  induction es with
  | nil =>
    rw [append, List.mem_singleton] at he
    exact Or.inl (by rw [he])
  | cons e' es ih =>
    obtain ⟨k', l'⟩ := e'
    rw [append] at he
    split at he
    · rcases List.mem_cons.1 he with rfl | he
      · exact Or.inl rfl
      · exact Or.inr ⟨e, he, rfl⟩
    · split at he
      · rcases List.mem_cons.1 he with rfl | he
        · exact Or.inr ⟨(k', l'), by simp, rfl⟩
        · exact Or.inr ⟨e, by simp [he], rfl⟩
      · rcases List.mem_cons.1 he with rfl | he
        · exact Or.inr ⟨(k', l'), by simp, rfl⟩
        · rcases ih he with h | ⟨e', he', h⟩
          · exact Or.inl h
          · exact Or.inr ⟨e', by simp [he'], h⟩

lemma sorted_append {es : List (ℕ × List β)} (hs : Sorted es) (k : ℕ) (l : List β) :
    Sorted (append es k l) := by
  induction es with
  | nil => exact List.pairwise_singleton _ _
  | cons e es ih =>
    obtain ⟨k', l'⟩ := e
    obtain ⟨hlt, hs'⟩ := List.pairwise_cons.1 hs
    rw [append]
    split
    · rename_i hk
      refine List.pairwise_cons.2 ⟨fun e he => ?_, hs⟩
      rcases List.mem_cons.1 he with rfl | he
      · exact hk
      · exact lt_trans hk (hlt e he)
    · split
      · exact List.pairwise_cons.2 ⟨hlt, hs'⟩
      · refine List.pairwise_cons.2 ⟨fun e he => ?_, ih hs'⟩
        rcases key_of_mem_append he with h | ⟨e', he', h⟩
        · show k' < e.1
          omega
        · rw [← h]
          exact hlt e' he'

lemma lookup_append {es : List (ℕ × List β)} (hs : Sorted es) (k : ℕ) (l : List β) (k' : ℕ) :
    lookup (append es k l) k' = if k' = k then lookup es k ++ l else lookup es k' := by
  induction es with
  | nil => simp [append, lookup]
  | cons e es ih =>
    obtain ⟨k₀, l₀⟩ := e
    obtain ⟨hlt, hs'⟩ := List.pairwise_cons.1 hs
    rw [append]
    split
    · rename_i hk
      -- A key before the first one has no entry yet.
      have habsent : lookup ((k₀, l₀) :: es) k = [] := by
        refine lookup_eq_nil (fun e he => ?_)
        rcases List.mem_cons.1 he with rfl | he
        · exact ne_of_gt hk
        · exact ne_of_gt (lt_trans hk (hlt e he))
      rw [habsent, List.nil_append, lookup]
    · split
      · rename_i hk
        subst hk
        simp only [lookup, if_true]
        split <;> rfl
      · rename_i hk hne
        simp only [lookup, ih hs']
        by_cases h₀ : k' = k₀
        · rw [if_pos h₀, if_neg (by omega), if_pos h₀]
        · simp [h₀, hne]

/-- An ordered map from numbers to lists. -/
structure Map (β : Type*) where
  /-- The entries, in the order of their keys. -/
  entries : List (ℕ × List β)
  /-- No key occurs twice. -/
  sorted : Sorted entries

namespace Map

/-- The map without entries. -/
def empty : Map β := ⟨[], List.Pairwise.nil⟩

/-- The list of a key. -/
def get (m : Map β) (k : ℕ) : List β :=
  lookup m.entries k

/-- Append to the list of a key; appending nothing makes no entry. -/
def extend (m : Map β) (k : ℕ) (l : List β) : Map β :=
  if l.isEmpty then m else ⟨append m.entries k l, sorted_append m.sorted k l⟩

/-- Remove a key. -/
def remove (m : Map β) (k : ℕ) : Map β :=
  ⟨m.entries.filter (fun e => e.1 ≠ k), m.sorted.filter _⟩

/-- The number of keys. -/
def size (m : Map β) : ℕ :=
  m.entries.length

/-- All values, in the order of their keys. -/
def flatten (m : Map β) : List β :=
  m.entries.flatMap (fun e => e.2)

@[simp] lemma get_empty (k : ℕ) : (empty : Map β).get k = [] :=
  rfl

lemma get_extend (m : Map β) (k : ℕ) (l : List β) (k' : ℕ) :
    (m.extend k l).get k' = if k' = k then m.get k ++ l else m.get k' := by
  rw [extend]
  split
  · rename_i hl
    rw [List.isEmpty_iff.1 hl, List.append_nil]
    split
    · rename_i hk
      rw [hk]
    · rfl
  · exact lookup_append m.sorted k l k'

lemma get_remove (m : Map β) (k k' : ℕ) :
    (m.remove k).get k' = if k' = k then [] else m.get k' := by
  by_cases hk : k' = k
  · rw [if_pos hk]
    exact lookup_eq_nil (fun e he => by simpa [hk] using (List.mem_filter.1 he).2)
  · rw [if_neg hk]
    by_cases hmem : ∃ e ∈ m.entries, e.1 = k'
    · obtain ⟨e, he, rfl⟩ := hmem
      have hin : e ∈ (m.remove k).entries := List.mem_filter.2 ⟨he, by simpa using hk⟩
      exact (lookup_eq_of_mem (m.remove k).sorted hin).trans (lookup_eq_of_mem m.sorted he).symm
    · have hnone : ∀ e ∈ m.entries, e.1 ≠ k' := fun e he heq => hmem ⟨e, he, heq⟩
      rw [get, get, lookup_eq_nil hnone]
      exact lookup_eq_nil (fun e he => hnone e (List.mem_of_mem_filter he))

/-- All values are those of any distinct keys that cover the map, in some order. -/
lemma flatten_perm (m : Map β) {ks : List ℕ} (hks : ks.Nodup)
    (hcover : ∀ k, m.get k ≠ [] → k ∈ ks) : m.flatten.Perm (ks.flatMap m.get) := by
  have hnodup : (m.entries.map Prod.fst).Nodup := by
    rw [List.nodup_iff_pairwise_ne, List.pairwise_map]
    exact m.sorted.imp (fun h => ne_of_lt h)
  have hself : m.flatten = (m.entries.map Prod.fst).flatMap m.get := by
    rw [flatten, List.flatMap_map]
    exact List.flatMap_congr (fun e he => (lookup_eq_of_mem m.sorted he).symm)
  have hskip : ∀ l : List ℕ, l.flatMap m.get =
      (l.filter (fun k => !(m.get k).isEmpty)).flatMap m.get := by
    intro l
    induction l with
    | nil => rfl
    | cons k l ih =>
      by_cases hk : (m.get k).isEmpty
      · rw [List.filter_cons_of_neg (by simpa using hk), List.flatMap_cons,
          List.isEmpty_iff.1 hk, List.nil_append, ih]
      · rw [List.filter_cons_of_pos (by simpa using hk), List.flatMap_cons, List.flatMap_cons, ih]
  rw [hself, hskip, hskip ks]
  refine List.Perm.flatMap_right _ ?_
  refine (List.perm_ext_iff_of_nodup (hnodup.filter _) (hks.filter _)).2 (fun k => ?_)
  simp only [List.mem_filter, Bool.not_eq_true', List.isEmpty_eq_false_iff]
  constructor
  · exact fun h => ⟨hcover k h.2, h.2⟩
  · intro h
    refine ⟨?_, h.2⟩
    by_contra habsent
    refine h.2 (lookup_eq_nil (fun e he heq => habsent ?_))
    exact List.mem_map.2 ⟨e, he, heq⟩

lemma flatten_eq_nil {m : Map β} (h : ∀ k, m.get k = []) : m.flatten = [] :=
  (m.flatten_perm List.nodup_nil (fun k hk => absurd (h k) hk)).eq_nil

end Map

end MidnightNode.ListMap
