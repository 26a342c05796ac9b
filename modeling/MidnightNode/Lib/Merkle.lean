/-
# Roots of Merkle trees, level by level

A Merkle tree over a list of hashed leaves is built level by level: neighbours are combined from
left to right, and a last node without a neighbour is promoted unchanged.  A single node is left
as it is, so that the root is what the levels end in (`HasRoot`), however many of them are built.

Two ways to compute it are described here, over any type of hashes:

* `merkelize` reads a row as a stream and pushes the combined nodes to the next row, until a row
  turns out to be a single node;
* `buildLayers` addresses the nodes of a layer by their index, builds as many layers as the
  number of leaves asks for and keeps them all.

Both compute the root (`merkelize_eq_some`, `treeRoot_eq_some`).
-/
import Mathlib.Data.List.Induction
import Mathlib.Data.Nat.Log
import Mathlib.Logic.Function.Iterate
import Mathlib.Tactic.Lemma
import Mathlib.Tactic.Ring

namespace MidnightNode.Merkle

variable {α : Type*} (combine : α → α → α)

/-- The next level: neighbours are combined, a last node without one is promoted. -/
def levelUp : List α → List α
  | [] => []
  | [a] => [a]
  | a :: b :: rest => combine a b :: levelUp rest

@[simp] lemma levelUp_singleton (a : α) : levelUp combine [a] = [a] := rfl

@[simp] lemma levelUp_cons_cons (a b : α) (rest : List α) :
    levelUp combine (a :: b :: rest) = combine a b :: levelUp combine rest := rfl

lemma length_levelUp (l : List α) : (levelUp combine l).length = (l.length + 1) / 2 := by
  induction l using levelUp.induct with
  | case1 => simp [levelUp]
  | case2 a => simp
  | case3 a b rest ih =>
    rw [levelUp_cons_cons, List.length_cons, List.length_cons, List.length_cons, ih]
    omega

/-- The levels above `l` end in `r`. -/
def HasRoot (l : List α) (r : α) : Prop :=
  ∃ n, (levelUp combine)^[n] l = [r]

variable {combine}

lemma iterate_levelUp_singleton (n : ℕ) (a : α) : (levelUp combine)^[n] [a] = [a] :=
  Function.iterate_fixed (levelUp_singleton combine a) n

/-- Once a single node is reached, further levels change nothing. -/
lemma iterate_levelUp_of_le {l : List α} {r : α} {n m : ℕ} (h : (levelUp combine)^[n] l = [r])
    (hnm : n ≤ m) : (levelUp combine)^[m] l = [r] := by
  obtain ⟨k, rfl⟩ := Nat.exists_eq_add_of_le' hnm
  rw [Function.iterate_add_apply, h, iterate_levelUp_singleton]

/-- A list has at most one root. -/
lemma HasRoot.unique {l : List α} {r r' : α} (h : HasRoot combine l r)
    (h' : HasRoot combine l r') : r = r' := by
  obtain ⟨n, hn⟩ := h
  obtain ⟨m, hm⟩ := h'
  have hn := iterate_levelUp_of_le hn (le_max_left n m)
  have hm := iterate_levelUp_of_le hm (le_max_right n m)
  exact List.singleton_inj.1 (hn.symm.trans hm)

lemma hasRoot_singleton (a : α) : HasRoot combine [a] a := ⟨0, rfl⟩

lemma HasRoot.of_levelUp {l : List α} {r : α} (h : HasRoot combine (levelUp combine l) r) :
    HasRoot combine l r :=
  let ⟨n, hn⟩ := h
  ⟨n + 1, hn⟩

/-! ### Rows read as streams -/

variable (combine)

/-- One row: the combined nodes are pushed to `next`, the last one without a neighbour too.  A
single node in an empty row is the root. -/
def merkelizeRow (next : List α) : List α → Except (List α) α
  | a :: b :: rest => merkelizeRow (next ++ [combine a b]) rest
  | [a] => if next.isEmpty then .ok a else .error (next ++ [a])
  | [] => .error next

/-- Row after row, until one is a single node. -/
def merkelizeFrom : ℕ → List α → Option α
  | 0, _ => none
  | fuel + 1, row =>
    match merkelizeRow combine [] row with
    | .ok root => some root
    | .error next => merkelizeFrom fuel next

/-- The root of the leaves; without leaves, the default. -/
def merkelize (default : α) (leaves : List α) : Option α :=
  if leaves.isEmpty then some default else merkelizeFrom combine leaves.length leaves

variable {combine}

lemma merkelizeRow_of_ne_nil {next : List α} (hnext : next ≠ []) (l : List α) :
    merkelizeRow combine next l = .error (next ++ levelUp combine l) := by
  induction l using levelUp.induct generalizing next with
  | case1 => simp [merkelizeRow, levelUp]
  | case2 a => simp [merkelizeRow, hnext]
  | case3 a b rest ih =>
    rw [merkelizeRow, ih (by simp), levelUp_cons_cons, List.append_assoc, List.singleton_append]

/-- A row with at least two nodes gives the next level. -/
lemma merkelizeRow_cons_cons (a b : α) (rest : List α) :
    merkelizeRow combine [] (a :: b :: rest) = .error (levelUp combine (a :: b :: rest)) := by
  rw [merkelizeRow, merkelizeRow_of_ne_nil (by simp)]
  rfl

lemma merkelizeFrom_eq_some {fuel : ℕ} {l : List α} (hne : l ≠ []) (hfuel : l.length ≤ fuel) :
    ∃ root, merkelizeFrom combine fuel l = some root ∧ HasRoot combine l root := by
  induction fuel generalizing l with
  | zero => exact absurd (List.length_eq_zero_iff.1 (Nat.le_zero.1 hfuel)) hne
  | succ fuel ih =>
    match l, hne with
    | [a], _ => exact ⟨a, rfl, hasRoot_singleton a⟩
    | a :: b :: rest, _ =>
      -- the next row is shorter and not empty
      have hlen := length_levelUp combine (a :: b :: rest)
      rw [List.length_cons, List.length_cons] at hlen hfuel
      obtain ⟨root, hroot, hhas⟩ := ih (l := levelUp combine (a :: b :: rest)) (by simp)
        (by omega)
      refine ⟨root, ?_, hhas.of_levelUp⟩
      rw [merkelizeFrom, merkelizeRow_cons_cons]
      exact hroot

/-- The rows end, in the root. -/
lemma merkelize_eq_some (combine : α → α → α) (default : α) {leaves : List α} (hne : leaves ≠ []) :
    ∃ root, merkelize combine default leaves = some root ∧ HasRoot combine leaves root := by
  rw [merkelize, if_neg (by simpa using hne)]
  exact merkelizeFrom_eq_some hne le_rfl

/-! ### Layers addressed by index -/

variable (combine)

/-- The parent of a node and of its neighbour, if it has one. -/
def concatAndHash (left : α) : Option α → α
  | some right => combine left right
  | none => left

/-- The parents of a layer, by their indices. -/
def nextLayer (nodes : List α) : Option (List α) :=
  (List.range ((nodes.length + 1) / 2)).mapM fun i =>
    nodes[2 * i]?.map fun left => concatAndHash combine left nodes[2 * i + 1]?

/-- The number of layers above the leaves. -/
def treeDepth (leavesCount : ℕ) : ℕ :=
  if leavesCount = 1 then 1 else Nat.clog 2 leavesCount

/-- The layers from the given one up. -/
def buildLayers : ℕ → List α → Option (List (List α))
  | 0, layer => some [layer]
  | depth + 1, layer => do
    let parents ← nextLayer combine layer
    let above ← buildLayers depth parents
    return layer :: above

/-- The root: the first node of the last layer. -/
def treeRoot (leaves : List α) : Option α := do
  let layers ← buildLayers combine (treeDepth leaves.length) leaves
  let last ← layers.getLast?
  last.head?

variable {combine}

lemma mapM_range_eq_some {β : Type*} {f : ℕ → Option β} {l : List β}
    (h : ∀ i, i < l.length → f i = l[i]?) : (List.range l.length).mapM f = some l := by
  induction l using List.reverseRecOn with
  | nil => rfl
  | append_singleton l b ih =>
    have hinit : (List.range l.length).mapM f = some l := ih fun i hi => by
      rw [h i (by simp; omega), List.getElem?_append_left hi]
    have hlast : f l.length = some b := by
      rw [h l.length (by simp)]
      simp
    simp [List.range_succ, List.mapM_append, hinit, hlast]

/-- The parents of a layer are the next level. -/
lemma nextLayer_eq (nodes : List α) : nextLayer combine nodes = some (levelUp combine nodes) := by
  rw [nextLayer, ← length_levelUp combine nodes]
  refine mapM_range_eq_some fun i hi => ?_
  induction nodes using levelUp.induct generalizing i with
  | case1 => simp [levelUp] at hi
  | case2 a =>
    obtain rfl : i = 0 := by simpa using hi
    rfl
  | case3 a b rest ih =>
    cases i with
    | zero => rfl
    | succ i =>
      rw [levelUp_cons_cons, List.length_cons, Nat.add_lt_add_iff_right] at hi
      have hrest := ih i hi
      simpa [Nat.mul_add, Nat.add_right_comm] using hrest

/-- The layers are the levels. -/
lemma buildLayers_eq (combine : α → α → α) (depth : ℕ) (layer : List α) :
    ∃ layers, buildLayers combine depth layer = some layers ∧
      layers.getLast? = some ((levelUp combine)^[depth] layer) := by
  induction depth generalizing layer with
  | zero => exact ⟨[layer], rfl, rfl⟩
  | succ depth ih =>
    obtain ⟨above, habove, hlast⟩ := ih (levelUp combine layer)
    refine ⟨layer :: above, ?_, ?_⟩
    · simp [buildLayers, nextLayer_eq, habove]
    · rw [List.getLast?_cons, hlast]
      rfl

/-- A level has as many nodes as its blocks of leaves. -/
lemma length_iterate_levelUp_le {n m : ℕ} {l : List α} (h : l.length ≤ 2 ^ n * m) :
    ((levelUp combine)^[n] l).length ≤ m := by
  induction n generalizing l with
  | zero => simpa using h
  | succ n ih =>
    rw [Function.iterate_succ_apply]
    refine ih ?_
    rw [length_levelUp]
    rw [pow_succ] at h
    have hhalf : 2 ^ n * 2 * m = 2 * (2 ^ n * m) := by ring
    omega

lemma iterate_levelUp_ne_nil {l : List α} (hl : l ≠ []) (n : ℕ) :
    (levelUp combine)^[n] l ≠ [] := by
  induction n generalizing l with
  | zero => exact hl
  | succ n ih =>
    rw [Function.iterate_succ_apply]
    refine ih ?_
    rw [← List.length_pos_iff, length_levelUp]
    have := List.length_pos_iff.2 hl
    omega

lemma le_pow_treeDepth (leavesCount : ℕ) : leavesCount ≤ 2 ^ treeDepth leavesCount := by
  rw [treeDepth]
  split
  · omega
  · exact Nat.le_pow_clog (by decide) leavesCount

/-- The layers end in the root. -/
lemma treeRoot_eq_some (combine : α → α → α) {leaves : List α} (hne : leaves ≠ []) :
    ∃ root, treeRoot combine leaves = some root ∧ HasRoot combine leaves root := by
  obtain ⟨layers, hlayers, hlast⟩ := buildLayers_eq combine (treeDepth leaves.length) leaves
  -- the last layer is a single node
  have hlen : ((levelUp combine)^[treeDepth leaves.length] leaves).length = 1 := by
    refine le_antisymm (length_iterate_levelUp_le ?_) ?_
    · rw [mul_one]
      exact le_pow_treeDepth leaves.length
    · exact List.length_pos_iff.2 (iterate_levelUp_ne_nil hne _)
  obtain ⟨root, hroot⟩ := List.length_eq_one_iff.1 hlen
  refine ⟨root, ?_, _, hroot⟩
  simp [treeRoot, hlayers, hlast, hroot]

end MidnightNode.Merkle
