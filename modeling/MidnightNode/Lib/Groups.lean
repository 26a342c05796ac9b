/-
# Groups of a keyed list

A list whose elements carry a key of a linear order falls into groups, one for each distinct
key.  This file says what the first `n` groups are without mentioning how they are computed:

* `keys` are the distinct keys of a list and `rank` counts those below a given key;
* `firstGroups n` keeps the elements whose key has fewer than `n` keys below it;
* `Lists` says that a list enumerates a collection in a given order, and how two such
  enumerations of neighbouring ranges are put together;
* `CutsBetweenKeys` says when the first `n` elements do not depend on how the list is arranged,
  and `map_head?_insertionSort_eq` when the greatest one does not.

Where the list is sorted by its keys, the first groups are exactly the elements up to the last
one that is kept (`firstGroups_eq_filter_le`), so that a reader who stops there knows where to
resume.
-/
import Mathlib.Data.Finset.Card
import Mathlib.Data.List.Perm.Lattice
import Mathlib.Data.List.Sort
import Mathlib.Tactic.Lemma

namespace MidnightNode.Groups

variable {α κ : Type*} [LinearOrder κ] (key : α → κ)

/-! ### Keys and ranks -/

/-- The distinct keys of a list. -/
def keys (l : List α) : Finset κ :=
  (l.map key).toFinset

/-- The number of distinct keys of the list below `k`. -/
def rank (l : List α) (k : κ) : ℕ :=
  ((keys key l).filter (· < k)).card

/-- The elements of the first `n` groups. -/
def firstGroups (n : ℕ) (l : List α) : List α :=
  l.filter (fun x => rank key l (key x) < n)

variable {key}

@[simp] lemma mem_keys {l : List α} {k : κ} : k ∈ keys key l ↔ ∃ x ∈ l, key x = k := by
  simp [keys]

@[simp] lemma keys_nil : keys key ([] : List α) = ∅ :=
  rfl

@[simp] lemma keys_singleton (x : α) : keys key [x] = {key x} :=
  rfl

@[simp] lemma keys_append (l l' : List α) :
    keys key (l ++ l') = keys key l ∪ keys key l' := by
  simp [keys]

lemma keys_congr {l l' : List α} (h : l.Perm l') : keys key l = keys key l' :=
  List.toFinset_eq_of_perm _ _ (h.map key)

lemma rank_congr {l l' : List α} (h : l.Perm l') (k : κ) : rank key l k = rank key l' k := by
  rw [rank, keys_congr h, rank]

lemma rank_mono (l : List α) {k k' : κ} (h : k ≤ k') : rank key l k ≤ rank key l k' :=
  Finset.card_le_card (Finset.monotone_filter_right _ (fun _ _ hlt => lt_of_lt_of_le hlt h))

lemma rank_lt_rank {l : List α} {k k' : κ} (hk : k ∈ keys key l) (h : k < k') :
    rank key l k < rank key l k' := by
  refine Finset.card_lt_card ⟨?_, ?_⟩
  · exact Finset.monotone_filter_right _ (fun _ _ hlt => lt_trans hlt h)
  · intro hsub
    have hmem := hsub (Finset.mem_filter.2 ⟨hk, h⟩)
    exact absurd (Finset.mem_filter.1 hmem).2 (lt_irrefl k)

lemma rank_lt_card {l : List α} {k : κ} (hk : k ∈ keys key l) :
    rank key l k < (keys key l).card := by
  refine Finset.card_lt_card ⟨Finset.filter_subset _ _, fun hsub => ?_⟩
  exact absurd (Finset.mem_filter.1 (hsub hk)).2 (lt_irrefl k)

lemma rank_injOn (l : List α) : Set.InjOn (rank key l) (keys key l) := by
  intro k hk k' hk' heq
  rcases lt_trichotomy k k' with h | h | h
  · exact absurd heq (rank_lt_rank hk h).ne
  · exact h
  · exact absurd heq (rank_lt_rank hk' h).ne'

/-- The ranks of the keys are `0, 1, …`, each taken once. -/
lemma image_rank_keys (l : List α) :
    (keys key l).image (rank key l) = Finset.range (keys key l).card := by
  refine Finset.eq_of_subset_of_card_le ?_ ?_
  · intro i hi
    obtain ⟨k, hk, rfl⟩ := Finset.mem_image.1 hi
    exact Finset.mem_range.2 (rank_lt_card hk)
  · rw [Finset.card_range, Finset.card_image_of_injOn (rank_injOn l)]

lemma card_filter_rank_lt (l : List α) (n : ℕ) :
    ((keys key l).filter (fun k => rank key l k < n)).card = min n (keys key l).card := by
  have himg : ((keys key l).filter (fun k => rank key l k < n)).image (rank key l) =
      (Finset.range (keys key l).card).filter (· < n) := by
    rw [← image_rank_keys, Finset.filter_image]
  have hinj : Set.InjOn (rank key l) ((keys key l).filter (fun k => rank key l k < n)) :=
    (rank_injOn l).mono (Finset.coe_subset.2 (Finset.filter_subset _ _))
  rw [← Finset.card_image_of_injOn hinj, himg]
  have hrange : (Finset.range (keys key l).card).filter (· < n) =
      Finset.range (min n (keys key l).card) := by
    ext i
    simp only [Finset.mem_filter, Finset.mem_range]
    omega
  rw [hrange, Finset.card_range]

/-! ### The first groups -/

@[simp] lemma mem_firstGroups {n : ℕ} {l : List α} {x : α} :
    x ∈ firstGroups key n l ↔ x ∈ l ∧ rank key l (key x) < n := by
  simp [firstGroups]

lemma firstGroups_sublist (n : ℕ) (l : List α) : (firstGroups key n l).Sublist l :=
  List.filter_sublist

lemma firstGroups_perm {n : ℕ} {l l' : List α} (h : l.Perm l') :
    (firstGroups key n l).Perm (firstGroups key n l') := by
  have hfun : (fun x => decide (rank key l (key x) < n)) =
      fun x => decide (rank key l' (key x) < n) := by
    funext x
    rw [rank_congr h]
  rw [firstGroups, hfun]
  exact h.filter _

lemma keys_firstGroups (n : ℕ) (l : List α) :
    keys key (firstGroups key n l) = (keys key l).filter (fun k => rank key l k < n) := by
  ext k
  simp only [mem_keys, mem_firstGroups, Finset.mem_filter]
  constructor
  · rintro ⟨x, ⟨hx, hr⟩, rfl⟩
    exact ⟨⟨x, hx, rfl⟩, hr⟩
  · rintro ⟨⟨x, hx, rfl⟩, hr⟩
    exact ⟨x, ⟨hx, hr⟩, rfl⟩

lemma card_keys_firstGroups (n : ℕ) (l : List α) :
    (keys key (firstGroups key n l)).card = min n (keys key l).card := by
  rw [keys_firstGroups, card_filter_rank_lt]

lemma firstGroups_eq_self {n : ℕ} {l : List α} (h : (keys key l).card ≤ n) :
    firstGroups key n l = l := by
  refine List.filter_eq_self.2 (fun x hx => ?_)
  have hmem : key x ∈ keys key l := mem_keys.2 ⟨x, hx, rfl⟩
  simpa using lt_of_lt_of_le (rank_lt_card hmem) h

lemma firstGroups_ne_nil {n : ℕ} {l : List α} (hn : 0 < n) (hl : l ≠ []) :
    firstGroups key n l ≠ [] := by
  intro hnil
  have hcard : (keys key (firstGroups key n l)).card = min n (keys key l).card :=
    card_keys_firstGroups n l
  obtain ⟨x, hx⟩ := List.exists_mem_of_ne_nil l hl
  have hpos : 0 < (keys key l).card := Finset.card_pos.2 ⟨key x, mem_keys.2 ⟨x, hx, rfl⟩⟩
  have hzero : (keys key (firstGroups key n l)).card = 0 := by simp [hnil, keys]
  omega

section Last

variable {n : ℕ} {l : List α} {x : α}

/-- The last element that is kept has the greatest key among those kept. -/
lemma le_getLast_of_mem (hl : l.Pairwise (fun a b => key a ≤ key b))
    (hx : l.getLast? = some x) {y : α} (hy : y ∈ l) : key y ≤ key x := by
  obtain ⟨init, rfl⟩ := List.getLast?_eq_some_iff.1 hx
  rcases List.mem_append.1 hy with h | h
  · exact (List.pairwise_append.1 hl).2.2 y h x (by simp)
  · rw [List.mem_singleton.1 h]

/-- In a list sorted by its keys, the first groups are the elements up to the last one kept. -/
lemma firstGroups_eq_filter_le (hl : l.Pairwise (fun a b => key a ≤ key b))
    (hx : (firstGroups key n l).getLast? = some x) :
    firstGroups key n l = l.filter (fun y => key y ≤ key x) := by
  have hlast := List.mem_of_getLast? hx
  have hsub : (firstGroups key n l).Sublist l := firstGroups_sublist n l
  refine List.filter_congr (fun y hy => decide_eq_decide.2 ⟨fun hr => ?_, fun hle => ?_⟩)
  · exact le_getLast_of_mem (hl.sublist hsub) hx (mem_firstGroups.2 ⟨hy, hr⟩)
  · exact lt_of_le_of_lt (rank_mono l hle) (mem_firstGroups.1 hlast).2

/-- Where there are at least `n` groups, a key has `n` of them below it exactly if it lies
above the last element kept. -/
lemma le_rank_iff (hl : l.Pairwise (fun a b => key a ≤ key b)) (hn : n ≤ (keys key l).card)
    (hx : (firstGroups key n l).getLast? = some x) (k : κ) :
    n ≤ rank key l k ↔ key x < k := by
  have hlast := mem_firstGroups.1 (List.mem_of_getLast? hx)
  constructor
  · intro hr
    by_contra hle
    have hmono : rank key l k ≤ rank key l (key x) := rank_mono l (not_lt.1 hle)
    omega
  · intro hlt
    have hsub : keys key (firstGroups key n l) ⊆ (keys key l).filter (· < k) := by
      intro k' hk'
      obtain ⟨y, hy, rfl⟩ := mem_keys.1 hk'
      have hle := le_getLast_of_mem (hl.sublist (firstGroups_sublist n l)) hx hy
      have hmem : key y ∈ keys key l := mem_keys.2 ⟨y, (mem_firstGroups.1 hy).1, rfl⟩
      exact Finset.mem_filter.2 ⟨hmem, lt_of_le_of_lt hle hlt⟩
    have hcard := Finset.card_le_card hsub
    rw [card_keys_firstGroups] at hcard
    exact le_trans (le_min le_rfl hn) hcard

end Last

/-! ### Reading a sorted list from the left -/

/-- In a sorted list the keys below that of an element are those of the elements before it. -/
lemma rank_of_pairwise {l l' : List α} {x : α}
    (h : (l ++ x :: l').Pairwise (fun a b => key a ≤ key b)) :
    rank key (l ++ x :: l') (key x) = ((keys key l).erase (key x)).card := by
  obtain ⟨-, hr, hcross⟩ := List.pairwise_append.1 h
  have hle : ∀ y ∈ l', key x ≤ key y := (List.pairwise_cons.1 hr).1
  refine congrArg Finset.card (Finset.ext (fun k => ?_))
  simp only [Finset.mem_filter, mem_keys, List.mem_append, List.mem_cons, Finset.mem_erase]
  constructor
  · rintro ⟨⟨y, hy | rfl | hy, rfl⟩, hlt⟩
    · exact ⟨hlt.ne, y, hy, rfl⟩
    · exact absurd hlt (lt_irrefl _)
    · exact absurd hlt (not_lt.2 (hle y hy))
  · rintro ⟨hne, y, hy, rfl⟩
    exact ⟨⟨y, Or.inl hy, rfl⟩, lt_of_le_of_ne (hcross y hy x (by simp)) hne⟩

/-! ### Enumerations -/

/-- The list `l` enumerates the collection `s` in the order `r`. -/
structure Lists (r : α → α → Prop) (l s : List α) : Prop where
  /-- Every element occurs as often as in `s`. -/
  perm : l.Perm s
  /-- Earlier elements are related to later ones. -/
  pairwise : l.Pairwise r

namespace Lists

variable {r : α → α → Prop} {l l' s s' : List α}

lemma congr (h : Lists r l s) (hs : s.Perm s') : Lists r l s' :=
  ⟨h.perm.trans hs, h.pairwise⟩

lemma append (h : Lists r l s) (h' : Lists r l' s') (hcross : ∀ a ∈ s, ∀ b ∈ s', r a b) :
    Lists r (l ++ l') (s ++ s') := by
  refine ⟨h.perm.append h'.perm, List.pairwise_append.2 ⟨h.pairwise, h'.pairwise, ?_⟩⟩
  intro a ha b hb
  exact hcross a (h.perm.mem_iff.1 ha) b (h'.perm.mem_iff.1 hb)

end Lists

/-- The elements of `l` whose key lies in `[a, b)`. -/
def between (key : α → κ) (a b : κ) (l : List α) : List α :=
  l.filter (fun x => a ≤ key x ∧ key x < b)

@[simp] lemma mem_between {a b : κ} {l : List α} {x : α} :
    x ∈ between key a b l ↔ x ∈ l ∧ a ≤ key x ∧ key x < b := by
  simp [between]

lemma filter_lt_between (l : List α) {a b c : κ} (hbc : b ≤ c) :
    (between key a c l).filter (fun x => key x < b) = between key a b l := by
  rw [between, between, List.filter_filter]
  refine List.filter_congr (fun x _ => ?_)
  rw [← Bool.decide_and, decide_eq_decide]
  exact ⟨fun h => ⟨h.2.1, h.1⟩, fun h => ⟨h.2, h.1, lt_of_lt_of_le h.2 hbc⟩⟩

/-- Neighbouring ranges make up the whole range. -/
lemma between_append_between (l : List α) {a b c : κ} (hab : a ≤ b) (hbc : b ≤ c) :
    (between key a b l ++ between key b c l).Perm (between key a c l) := by
  have hright : between key b c l = (between key a c l).filter (fun x => !decide (key x < b)) := by
    rw [between, between, List.filter_filter]
    refine List.filter_congr (fun x _ => ?_)
    rw [← decide_not, ← Bool.decide_and, decide_eq_decide, not_lt]
    exact ⟨fun h => ⟨h.1, le_trans hab h.1, h.2⟩, fun h => ⟨h.1, h.2.2⟩⟩
  rw [← filter_lt_between l hbc, hright]
  exact List.filter_append_perm _ _

/-- Parts of two collections make up both exactly if each part is all of its collection. -/
lemma append_perm_append_iff {l l' s s' : List α} (h : l.Subperm s) (h' : l'.Subperm s') :
    (l ++ l').Perm (s ++ s') ↔ l.Perm s ∧ l'.Perm s' := by
  refine ⟨fun hp => ?_, fun hp => hp.1.append hp.2⟩
  have hlen := hp.length_eq
  have hle := h.length_le
  have hle' := h'.length_le
  simp only [List.length_append] at hlen
  exact ⟨h.perm_of_length_le (by omega), h'.perm_of_length_le (by omega)⟩

/-! ### Keys of neighbouring ranges -/

/-- Neighbouring ranges have different keys. -/
lemma card_keys_between_add (l : List α) {a b c : κ} (hab : a ≤ b) (hbc : b ≤ c) :
    (keys key (between key a b l)).card + (keys key (between key b c l)).card =
      (keys key (between key a c l)).card := by
  rw [← keys_congr (between_append_between l hab hbc), keys_append]
  refine (Finset.card_union_of_disjoint (Finset.disjoint_left.2 fun k hk hk' => ?_)).symm
  obtain ⟨x, hx, rfl⟩ := mem_keys.1 hk
  obtain ⟨y, hy, hyx⟩ := mem_keys.1 hk'
  have hge := (mem_between.1 hy).2.1
  rw [hyx] at hge
  exact absurd (mem_between.1 hx).2.2 (not_lt.2 hge)

lemma keys_between_subset (l : List α) {a b c : κ} (hbc : b ≤ c) :
    keys key (between key a b l) ⊆ keys key (between key a c l) := by
  intro k hk
  obtain ⟨x, hx, rfl⟩ := mem_keys.1 hk
  obtain ⟨hmem, hge, hlt⟩ := mem_between.1 hx
  exact mem_keys.2 ⟨x, mem_between.2 ⟨hmem, hge, lt_of_lt_of_le hlt hbc⟩, rfl⟩

lemma card_keys_between_le (l : List α) {a b c : κ} (hbc : b ≤ c) :
    (keys key (between key a b l)).card ≤ (keys key (between key a c l)).card :=
  Finset.card_le_card (keys_between_subset l hbc)

lemma card_keys_between_lt {l : List α} {a b c : κ} {x : α} (hx : x ∈ l) (ha : a ≤ key x)
    (hb : b ≤ key x) (hc : key x < c) :
    (keys key (between key a b l)).card < (keys key (between key a c l)).card := by
  refine Finset.card_lt_card ⟨keys_between_subset l (hb.trans hc.le), fun hsub => ?_⟩
  obtain ⟨y, hy, hyx⟩ := mem_keys.1 (hsub (mem_keys.2 ⟨x, mem_between.2 ⟨hx, ha, hc⟩, rfl⟩))
  have hlt := (mem_between.1 hy).2.2
  rw [hyx] at hlt
  exact absurd hlt (not_lt.2 hb)

/-! ### Sorting a part of a list -/

section Stable

variable {r : α → α → Prop} [DecidableRel r] [IsTrans α r]

lemma filter_orderedInsert (p : α → Bool) (a : α) {l : List α} (hl : l.Pairwise r) :
    (l.orderedInsert r a).filter p =
      if p a then (l.filter p).orderedInsert r a else l.filter p := by
  induction l with
  | nil => by_cases hp : p a <;> simp [hp]
  | cons b l ih =>
    obtain ⟨hb, hl⟩ := List.pairwise_cons.1 hl
    by_cases hab : r a b
    · -- The new element goes in front of everything that is left.
      rw [List.orderedInsert_cons_of_le r _ hab]
      by_cases hp : p a
      · rw [List.filter_cons_of_pos hp, if_pos hp]
        have hfront : ∀ c ∈ (b :: l).filter p, r a c := by
          intro c hc
          rcases List.mem_cons.1 (List.mem_of_mem_filter hc) with rfl | hc
          · exact hab
          · exact IsTrans.trans _ _ _ hab (hb c hc)
        cases hcase : (b :: l).filter p with
        | nil => rfl
        | cons c rest =>
          rw [List.orderedInsert_cons_of_le r _ (hfront c (by simp [hcase]))]
      · rw [List.filter_cons_of_neg (by simpa using hp), if_neg hp]
    · rw [List.orderedInsert_of_not_le r _ hab]
      by_cases hp : p b
      · rw [List.filter_cons_of_pos hp, List.filter_cons_of_pos hp, ih hl,
          List.orderedInsert_of_not_le r _ hab]
        split <;> rfl
      · rw [List.filter_cons_of_neg (by simpa using hp),
          List.filter_cons_of_neg (by simpa using hp),
          ih hl]

/-- Insertion sort is stable: it sorts a part of the list like the whole. -/
lemma filter_insertionSort [Std.Total r] (p : α → Bool) (l : List α) :
    (l.insertionSort r).filter p = (l.filter p).insertionSort r := by
  induction l with
  | nil => rfl
  | cons a l ih =>
    rw [List.insertionSort_cons, filter_orderedInsert p a (List.pairwise_insertionSort r l), ih]
    by_cases hp : p a
    · rw [if_pos hp, List.filter_cons_of_pos hp, List.insertionSort_cons]
    · rw [if_neg hp, List.filter_cons_of_neg (by simpa using hp)]

end Stable

/-- A list sorted by its keys falls into what lies below a key and the rest. -/
lemma filter_lt_append_filter_le {l : List α} (hl : l.Pairwise (fun a b => key a ≤ key b))
    (k : κ) : l.filter (fun x => key x < k) ++ l.filter (fun x => k ≤ key x) = l := by
  induction l with
  | nil => rfl
  | cons x l ih =>
    obtain ⟨hx, hl⟩ := List.pairwise_cons.1 hl
    by_cases hlt : key x < k
    · have hle : ¬ k ≤ key x := not_le.2 hlt
      simpa [hlt, hle] using ih hl
    · have hle : k ≤ key x := not_lt.1 hlt
      -- Nothing behind `x` lies below the key.
      have hnil : l.filter (fun y => key y < k) = [] :=
        List.filter_eq_nil_iff.2 fun y hy => by simpa using le_trans hle (hx y hy)
      have hrest := ih hl
      rw [hnil, List.nil_append] at hrest
      simp [hlt, hle, hnil, hrest]

/-- A list sorted by its keys is determined by its groups. -/
lemma eq_of_filter_key_eq {l l' : List α} (hl : l.Pairwise (fun a b => key a ≤ key b))
    (hl' : l'.Pairwise (fun a b => key a ≤ key b))
    (h : ∀ k, l.filter (fun x => key x = k) = l'.filter (fun x => key x = k)) : l = l' := by
  induction l generalizing l' with
  | nil =>
    cases l' with
    | nil => rfl
    | cons y l' => simpa using h (key y)
  | cons x l ih =>
    cases l' with
    | nil => simpa using h (key x)
    | cons y l' =>
      obtain ⟨hx, htail⟩ := List.pairwise_cons.1 hl
      obtain ⟨hy, htail'⟩ := List.pairwise_cons.1 hl'
      -- Each head lies in the other list, so that their keys are the same.
      have hxmem : x ∈ (y :: l').filter (fun z => key z = key x) := by
        rw [← h (key x)]
        simp
      have hymem : y ∈ (x :: l).filter (fun z => key z = key y) := by
        rw [h (key y)]
        simp
      have hyx : key y ≤ key x := by
        rcases List.mem_cons.1 (List.mem_of_mem_filter hxmem) with rfl | hmem
        · exact le_rfl
        · exact hy x hmem
      have hxy : key x ≤ key y := by
        rcases List.mem_cons.1 (List.mem_of_mem_filter hymem) with rfl | hmem
        · exact le_rfl
        · exact hx y hmem
      have hkey : key x = key y := le_antisymm hxy hyx
      have hheads := h (key x)
      rw [List.filter_cons_of_pos (by simp), List.filter_cons_of_pos (by simp [hkey])] at hheads
      obtain ⟨rfl, -⟩ := List.cons.inj hheads
      refine congrArg (x :: ·) (ih htail htail' fun k => ?_)
      have hk := h k
      by_cases hxk : key x = k
      · rw [List.filter_cons_of_pos (by simpa using hxk),
          List.filter_cons_of_pos (by simpa using hxk)] at hk
        exact (List.cons.inj hk).2
      · rwa [List.filter_cons_of_neg (by simpa using hxk),
          List.filter_cons_of_neg (by simpa using hxk)] at hk

/-- Sorting by key does not see a rearrangement that keeps the order within each group. -/
lemma insertionSort_eq_of_filter_key_eq {l l' : List α}
    (h : ∀ k, l.filter (fun x => key x = k) = l'.filter (fun x => key x = k)) :
    l.insertionSort (fun a b => key a ≤ key b) = l'.insertionSort (fun a b => key a ≤ key b) := by
  have : IsTrans α (fun a b => key a ≤ key b) := ⟨fun _ _ _ => le_trans⟩
  have : Std.Total (fun a b : α => key a ≤ key b) := ⟨fun a b => le_total (key a) (key b)⟩
  refine eq_of_filter_key_eq (List.pairwise_insertionSort _ l)
    (List.pairwise_insertionSort _ l') fun k => ?_
  rw [filter_insertionSort, filter_insertionSort, h k]

/-- Where no two elements share a key, every rearrangement keeps the order within each group. -/
lemma filter_key_eq_of_perm {l l' : List α} (h : l.Perm l') (hnodup : (l.map key).Nodup) (k : κ) :
    l.filter (fun x => key x = k) = l'.filter (fun x => key x = k) := by
  have hlen : (l.filter (fun x => key x = k)).length ≤ 1 := by
    have hcount := List.nodup_iff_count_le_one.1 hnodup k
    rw [List.count_eq_countP, List.countP_map, List.countP_eq_length_filter] at hcount
    refine le_trans (le_of_eq (congrArg List.length (List.filter_congr fun x _ => ?_))) hcount
    simp [beq_eq_decide]
  have hperm := h.filter (fun x => key x = k)
  match hcase : l.filter (fun x => key x = k) with
  | [] =>
    rw [hcase] at hperm
    exact hperm.nil_eq
  | [x] =>
    rw [hcase] at hperm
    exact (List.perm_singleton.1 hperm.symm).symm
  | x :: y :: rest =>
    rw [hcase] at hlen
    simp at hlen

/-! ### The first elements of an ordered table -/

/-- Cutting a list after `n` elements separates no group: no element before the cut has the key
of one after it. -/
def CutsBetweenKeys (key : α → κ) (n : ℕ) (l : List α) : Prop :=
  ∀ x ∈ l.take n, ∀ y ∈ l.drop n, key x ≠ key y

omit [LinearOrder κ] in
lemma cutsBetweenKeys_of_length_le {n : ℕ} {l : List α} (h : l.length ≤ n) :
    CutsBetweenKeys key n l := by
  intro x _ y hy
  rw [List.drop_eq_nil_of_le h] at hy
  exact absurd hy (by simp)

/-- A cut between two keys is found by the keys alone. -/
lemma take_eq_filter_of_cuts {n : ℕ} {l : List α} {ks : List κ}
    (htake : ∀ x ∈ l.take n, key x ∈ ks) (hdrop : ∀ x ∈ l.drop n, key x ∉ ks) :
    l.take n = l.filter (fun x => key x ∈ ks) := by
  conv_rhs => rw [← List.take_append_drop n l]
  rw [List.filter_append, List.filter_eq_self.2 (by simpa using htake),
    List.filter_eq_nil_iff.2 (by simpa using hdrop), List.append_nil]

/-- Two rearrangements of one table, both in the order of the keys, have the same first elements
if the cut separates no group. -/
lemma CutsBetweenKeys.take_perm {n : ℕ} {l l' : List α} (hcut : CutsBetweenKeys key n l)
    (h : l.Perm l') (hl : l.Pairwise (fun a b => key a ≤ key b))
    (hl' : l'.Pairwise (fun a b => key a ≤ key b)) : (l.take n).Perm (l'.take n) := by
  have hkeys : l.map key = l'.map key :=
    (h.map key).eq_of_pairwise (fun _ _ _ _ => le_antisymm) (List.pairwise_map.2 hl)
      (List.pairwise_map.2 hl')
  have htake : (l'.take n).map key = (l.take n).map key := by
    rw [List.map_take, List.map_take, hkeys]
  have hdrop : (l'.drop n).map key = (l.drop n).map key := by
    rw [List.map_drop, List.map_drop, hkeys]
  -- The keys before the cut do not occur after it, in either list.
  have hseparate : ∀ k ∈ (l.drop n).map key, k ∉ (l.take n).map key := by
    intro k hk hk'
    obtain ⟨y, hy, rfl⟩ := List.mem_map.1 hk
    obtain ⟨x, hx, hxy⟩ := List.mem_map.1 hk'
    exact hcut x hx y hy hxy
  have hfirst : l.take n = l.filter (fun x => key x ∈ (l.take n).map key) :=
    take_eq_filter_of_cuts (fun x hx => List.mem_map_of_mem hx)
      (fun x hx => hseparate _ (List.mem_map_of_mem hx))
  have hfirst' : l'.take n = l'.filter (fun x => key x ∈ (l.take n).map key) :=
    take_eq_filter_of_cuts (fun x hx => htake ▸ List.mem_map_of_mem hx)
      (fun x hx => hseparate _ (hdrop ▸ List.mem_map_of_mem hx))
  rw [hfirst, hfirst']
  exact h.filter _

/-! ### The newest element -/

/-- The first of a table ordered downwards is one of the greatest. -/
lemma mem_and_le_of_head?_insertionSort {l : List α} {a : α}
    (h : (l.insertionSort (fun x y => key y ≤ key x)).head? = some a) :
    a ∈ l ∧ ∀ x ∈ l, key x ≤ key a := by
  have : IsTrans α (fun x y => key y ≤ key x) := ⟨fun _ _ _ hxy hyz => hyz.trans hxy⟩
  have : Std.Total (fun x y : α => key y ≤ key x) := ⟨fun x y => le_total (key y) (key x)⟩
  have hsorted := List.pairwise_insertionSort (fun x y => key y ≤ key x) l
  have hperm := List.perm_insertionSort (fun x y => key y ≤ key x) l
  obtain ⟨rest, hrest⟩ := List.head?_eq_some_iff.1 h
  rw [hrest] at hsorted hperm
  refine ⟨hperm.subset List.mem_cons_self, fun x hx => ?_⟩
  rcases List.mem_cons.1 (hperm.mem_iff.2 hx) with rfl | hx
  · exact le_rfl
  · exact (List.pairwise_cons.1 hsorted).1 x hx

end MidnightNode.Groups
