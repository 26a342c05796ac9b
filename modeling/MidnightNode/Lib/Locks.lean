/-
# Threads that take locks in scopes

A thread holds a lock for a scope, inside which it may take others; locks are not reentrant.
Threads are interleaved in every way.  A thread that waits for a lock waits for the thread that
holds it, so a state in which no thread can go on contains a circle of threads each of which
takes one lock while it holds another.

`deadlockFree_of_potential` turns this around: no state is stuck if what a thread waits for can
be measured by a number that grows along such a circle.  A common order of the locks is the
special case in which the number does not depend on the thread.  Conversely
`not_deadlockFree_of_opposite` says that two threads which nest two locks in opposite orders can
always be brought to a halt.
-/
import Mathlib.Algebra.BigOperators.Group.Finset.Basic
import Mathlib.Algebra.GroupWithZero.Nat
import Mathlib.Algebra.Order.BigOperators.Group.Finset
import Mathlib.Data.Fintype.Basic
import Mathlib.Logic.Relation

namespace MidnightNode.Locks

variable {ι L : Type*}

/-! ### Programs -/

/-- What a thread does with locks: `lock l body next` takes `l` for the scope `body`, releases
it and goes on with `next`. -/
inductive Prog (L : Type*)
  | done
  | lock (l : L) (body next : Prog L)

namespace Prog

/-- One program after the other. -/
def seq : Prog L → Prog L → Prog L
  | done, q => q
  | lock l body next, q => lock l body (next.seq q)

/-- The program takes the lock. -/
def Acquires : Prog L → L → Prop
  | done, _ => False
  | lock k body next, l => l = k ∨ body.Acquires l ∨ next.Acquires l

/-- The program takes the second lock while it holds the first one. -/
def Nests : Prog L → L → L → Prop
  | done, _, _ => False
  | lock k body next, l, l' => (l = k ∧ body.Acquires l') ∨ body.Nests l l' ∨ next.Nests l l'

/-- The number of locks taken and released. -/
def size : Prog L → ℕ
  | done => 0
  | lock _ body next => body.size + next.size + 2

@[simp] lemma done_seq (q : Prog L) : done.seq q = q := rfl

@[simp] lemma lock_seq (l : L) (body next q : Prog L) :
    (lock l body next).seq q = lock l body (next.seq q) := rfl

@[simp] lemma seq_done (p : Prog L) : p.seq done = p := by
  induction p with
  | done => rfl
  | lock l body next _ ih => rw [lock_seq, ih]

lemma seq_assoc (p q r : Prog L) : (p.seq q).seq r = p.seq (q.seq r) := by
  induction p with
  | done => rfl
  | lock l body next _ ih => rw [lock_seq, lock_seq, lock_seq, ih]

@[simp] lemma not_acquires_done {l : L} : ¬ (done : Prog L).Acquires l := id

@[simp] lemma not_nests_done {l l' : L} : ¬ (done : Prog L).Nests l l' := id

@[simp] lemma acquires_lock {k l : L} {body next : Prog L} :
    (lock k body next).Acquires l ↔ l = k ∨ body.Acquires l ∨ next.Acquires l := Iff.rfl

lemma acquires_self (l : L) (body next : Prog L) : (lock l body next).Acquires l := Or.inl rfl

@[simp] lemma nests_lock {k l l' : L} {body next : Prog L} :
    (lock k body next).Nests l l' ↔
      (l = k ∧ body.Acquires l') ∨ body.Nests l l' ∨ next.Nests l l' := Iff.rfl

@[simp] lemma nests_seq {p q : Prog L} {l l' : L} :
    (p.seq q).Nests l l' ↔ p.Nests l l' ∨ q.Nests l l' := by
  induction p with
  | done => simp
  | lock k body next _ ih => simp [ih, or_assoc]

/-- The first program takes no lock that the second one does not, nor inside another. -/
structure Sub (p q : Prog L) : Prop where
  acquires : ∀ l, p.Acquires l → q.Acquires l
  nests : ∀ l l', p.Nests l l' → q.Nests l l'

/-- What follows a scope is a part of it and what follows. -/
lemma sub_lock (l : L) (body next : Prog L) : next.Sub (lock l body next) :=
  ⟨fun _ h => Or.inr (Or.inr h), fun _ _ h => Or.inr (Or.inr h)⟩

lemma Sub.trans {p q r : Prog L} (h : p.Sub q) (h' : q.Sub r) : p.Sub r :=
  ⟨fun l hl => h'.acquires l (h.acquires l hl), fun l l' hl => h'.nests l l' (h.nests l l' hl)⟩

lemma Sub.lock {p q : Prog L} (h : p.Sub q) (l : L) (next : Prog L) :
    (Prog.lock l p next).Sub (Prog.lock l q next) := by
  refine ⟨?_, ?_⟩
  · rintro k (hk | hk | hk)
    · exact .inl hk
    · exact .inr (.inl (h.acquires k hk))
    · exact .inr (.inr hk)
  · rintro k k' (⟨hk, hk'⟩ | hk | hk)
    · exact .inl ⟨hk, h.acquires k' hk'⟩
    · exact .inr (.inl (h.nests k k' hk))
    · exact .inr (.inr hk)

/-- At some point, outside all scopes, the program takes the second lock as the first thing
in a scope of the first one. -/
def Opens (p : Prog L) (l l' : L) : Prop :=
  ∃ before body next after : Prog L, p = before.seq (lock l (lock l' body next) after)

lemma Opens.seq_left {p : Prog L} {l l' : L} (h : p.Opens l l') (q : Prog L) :
    (p.seq q).Opens l l' := by
  obtain ⟨before, body, next, after, rfl⟩ := h
  exact ⟨before, body, next, after.seq q, by rw [seq_assoc, lock_seq]⟩

lemma Opens.seq_right {q : Prog L} {l l' : L} (h : q.Opens l l') (p : Prog L) :
    (p.seq q).Opens l l' := by
  obtain ⟨before, body, next, after, rfl⟩ := h
  exact ⟨p.seq before, body, next, after, by rw [seq_assoc]⟩

end Prog

/-! ### Threads -/

/-- A thread: the rest of the innermost scope it is in, and the scopes around it, each with its
lock and what follows it. -/
structure Thread (L : Type*) where
  cur : Prog L
  scopes : List (L × Prog L)

namespace Thread

/-- The locks the thread holds. -/
def held (t : Thread L) : List L := t.scopes.map Prod.fst

/-- The thread has nothing left to do. -/
def Finished (t : Thread L) : Prop := t.cur = .done ∧ t.scopes = []

/-- A program in the scopes around it. -/
def plug : Prog L → List (L × Prog L) → Prog L
  | p, [] => p
  | p, (l, next) :: scopes => plug (.lock l p next) scopes

/-- The program that is left, with the scopes the thread is in opened again. -/
def rest (t : Thread L) : Prog L := plug t.cur t.scopes

/-- What is left to be taken and released. -/
def size (t : Thread L) : ℕ := t.cur.size + (t.scopes.map fun f => f.2.size + 1).sum

lemma plug_sub {p q : Prog L} (h : p.Sub q) (scopes : List (L × Prog L)) :
    (plug p scopes).Sub (plug q scopes) := by
  induction scopes generalizing p q with
  | nil => exact h
  | cons f scopes ih => exact ih (h.lock f.1 f.2)

lemma acquires_plug {p : Prog L} {l : L} (h : p.Acquires l) (scopes : List (L × Prog L)) :
    (plug p scopes).Acquires l := by
  induction scopes generalizing p with
  | nil => exact h
  | cons f scopes ih => exact ih (.inr (.inl h))

lemma nests_plug_of_nests {p : Prog L} {l l' : L} (h : p.Nests l l')
    (scopes : List (L × Prog L)) : (plug p scopes).Nests l l' := by
  induction scopes generalizing p with
  | nil => exact h
  | cons f scopes ih => exact ih (.inr (.inl h))

/-- What is taken inside some scopes is nested in each of them. -/
lemma nests_plug {p : Prog L} {l l' : L} (h : p.Acquires l') {scopes : List (L × Prog L)}
    (hl : l ∈ scopes.map Prod.fst) : (plug p scopes).Nests l l' := by
  induction scopes generalizing p with
  | nil => simp at hl
  | cons f scopes ih =>
    rcases List.mem_cons.1 hl with rfl | hl
    · exact nests_plug_of_nests (p := .lock f.1 p f.2) (Or.inl ⟨rfl, h⟩) scopes
    · exact ih (.inr (.inl h)) hl

/-- A thread that goes on after a scope has less left than before. -/
lemma rest_release_sub (l : L) (next : Prog L) (scopes : List (L × Prog L)) :
    (Thread.mk next scopes).rest.Sub (Thread.mk .done ((l, next) :: scopes)).rest :=
  plug_sub (Prog.sub_lock l .done next) scopes

end Thread

/-! ### Interleavings -/

/-- The threads, and who holds which lock. -/
structure System (ι L : Type*) where
  threads : ι → Thread L
  owner : L → Option ι

namespace System

/-- Nothing is done and nothing is held. -/
def start (progs : ι → Prog L) : System ι L := ⟨fun i => ⟨progs i, []⟩, fun _ => none⟩

/-- The locks are held by the threads that are in their scopes, and what is left to a thread is
a part of its program. -/
structure Inv (progs : ι → Prog L) (s : System ι L) : Prop where
  owner_iff : ∀ i l, s.owner l = some i ↔ l ∈ (s.threads i).held
  rest_sub : ∀ i, (s.threads i).rest.Sub (progs i)

/-- The thread is about to take the lock. -/
def Wants (s : System ι L) (i : ι) (l : L) : Prop :=
  ∃ body next scopes, s.threads i = ⟨.lock l body next, scopes⟩

variable {progs : ι → Prog L}

lemma inv_start : Inv progs (start progs) :=
  ⟨fun i l => by simp [start, Thread.held], fun i => ⟨fun _ h => h, fun _ _ h => h⟩⟩

lemma Wants.acquires {s : System ι L} {i : ι} {l : L} (h : s.Wants i l) (hinv : Inv progs s) :
    (progs i).Acquires l := by
  obtain ⟨body, next, scopes, ht⟩ := h
  have hsub := hinv.rest_sub i
  rw [ht] at hsub
  exact hsub.acquires l (Thread.acquires_plug (Prog.acquires_self l body next) scopes)

/-- A thread nests the lock it wants in each one that it holds. -/
lemma Wants.nests {s : System ι L} {i : ι} {l l' : L} (h : s.Wants i l') (hinv : Inv progs s)
    (hl : s.owner l = some i) : (progs i).Nests l l' := by
  obtain ⟨body, next, scopes, ht⟩ := h
  have hsub := hinv.rest_sub i
  have hheld := (hinv.owner_iff i l).1 hl
  rw [ht] at hsub hheld
  exact hsub.nests l l' (Thread.nests_plug (Prog.acquires_self l' body next) hheld)

section
variable [DecidableEq ι] [DecidableEq L]

/-- A step of one thread, if it can take one: it takes a free lock, or leaves a scope. -/
def step (i : ι) (s : System ι L) : Option (System ι L) :=
  match s.threads i with
  | ⟨.lock l body next, scopes⟩ =>
      match s.owner l with
      | none => some ⟨Function.update s.threads i ⟨body, (l, next) :: scopes⟩,
          Function.update s.owner l (some i)⟩
      | some _ => none
  | ⟨.done, (l, next) :: scopes⟩ =>
      some ⟨Function.update s.threads i ⟨next, scopes⟩, Function.update s.owner l none⟩
  | ⟨.done, []⟩ => none

/-- `s'` comes from `s` by steps of the threads. -/
def Reaches : System ι L → System ι L → Prop :=
  Relation.ReflTransGen fun s s' => ∃ i, s.step i = some s'

/-- In every state the threads reach, some thread can go on as long as one is unfinished. -/
def DeadlockFree (progs : ι → Prog L) : Prop :=
  ∀ s, (start progs).Reaches s → (∃ i, ¬ (s.threads i).Finished) →
    ∃ i, ¬ (s.threads i).Finished ∧ (s.step i).isSome

lemma step_of_free {s : System ι L} {i : ι} {l : L} {body next : Prog L}
    {scopes : List (L × Prog L)} (ht : s.threads i = ⟨.lock l body next, scopes⟩)
    (hl : s.owner l = none) :
    s.step i = some ⟨Function.update s.threads i ⟨body, (l, next) :: scopes⟩,
      Function.update s.owner l (some i)⟩ := by
  simp only [step, ht, hl]

lemma step_of_done {s : System ι L} {i : ι} {l : L} {next : Prog L}
    {scopes : List (L × Prog L)} (ht : s.threads i = ⟨.done, (l, next) :: scopes⟩) :
    s.step i = some ⟨Function.update s.threads i ⟨next, scopes⟩,
      Function.update s.owner l none⟩ := by
  simp only [step, ht]

/-- What a step does. -/
lemma step_cases {s s' : System ι L} {i : ι} (h : s.step i = some s') :
    (∃ l body next scopes, s.threads i = ⟨.lock l body next, scopes⟩ ∧ s.owner l = none ∧
        s' = ⟨Function.update s.threads i ⟨body, (l, next) :: scopes⟩,
          Function.update s.owner l (some i)⟩) ∨
      ∃ l next scopes, s.threads i = ⟨.done, (l, next) :: scopes⟩ ∧
        s' = ⟨Function.update s.threads i ⟨next, scopes⟩, Function.update s.owner l none⟩ := by
  rcases ht : s.threads i with ⟨_ | ⟨l, body, next⟩, _ | ⟨⟨k, next'⟩, scopes⟩⟩
  · simp [step, ht] at h
  · right
    rw [step_of_done ht] at h
    exact ⟨k, next', scopes, rfl, (Option.some.inj h).symm⟩
  all_goals
    left
    cases hl : s.owner l with
    | none =>
      rw [step_of_free ht hl] at h
      exact ⟨l, body, next, _, rfl, hl, (Option.some.inj h).symm⟩
    | some k => simp [step, ht, hl] at h

/-- A thread that cannot take a step is finished or wants a lock that is held. -/
lemma wants_of_step_eq_none {s : System ι L} {i : ι} (h : s.step i = none)
    (hi : ¬ (s.threads i).Finished) : ∃ l k, s.Wants i l ∧ s.owner l = some k := by
  rcases ht : s.threads i with ⟨_ | ⟨l, body, next⟩, scopes⟩
  · cases scopes with
    | nil => exact absurd ⟨by rw [ht], by rw [ht]⟩ hi
    | cons f scopes =>
      rw [step_of_done ht] at h
      exact absurd h (by simp)
  · cases hl : s.owner l with
    | none =>
      rw [step_of_free ht hl] at h
      exact absurd h (by simp)
    | some k => exact ⟨l, k, ⟨body, next, scopes, ht⟩, hl⟩

/-! ### Who holds what -/

/-- One thread moves on and takes or releases a lock that nobody else holds. -/
lemma Inv.update {s : System ι L} (hinv : Inv progs s) {i : ι} {t : Thread L} {l : L}
    {o : Option ι} (hbefore : ∀ j, s.owner l = some j → j = i) (hafter : ∀ j, o = some j → j = i)
    (hheld : ∀ k, Function.update s.owner l o k = some i ↔ k ∈ t.held)
    (hrest : t.rest.Sub (progs i)) :
    Inv progs ⟨Function.update s.threads i t, Function.update s.owner l o⟩ := by
  refine ⟨fun j k => ?_, fun j => ?_⟩
  · by_cases hji : j = i
    · subst hji
      simpa using hheld k
    · have hj := hinv.owner_iff j k
      by_cases hk : k = l
      · -- the lock is not one of another thread, neither before nor after
        subst hk
        have hnot : k ∉ (s.threads j).held := fun hmem => hji (hbefore j (hj.2 hmem))
        simpa [hji, hnot] using fun ho => hji (hafter j ho)
      · simpa [hk, hji] using hj
  · by_cases hji : j = i
    · subst hji
      simpa using hrest
    · simpa [hji] using hinv.rest_sub j

lemma Inv.step (hre : ∀ i l, ¬ (progs i).Nests l l) {s s' : System ι L} (hinv : Inv progs s)
    {i : ι} (h : s.step i = some s') : Inv progs s' := by
  have hsub := hinv.rest_sub i
  rcases step_cases h with ⟨l, body, next, scopes, ht, hfree, rfl⟩ | ⟨l, next, scopes, ht, rfl⟩
  · rw [ht] at hsub
    refine hinv.update (fun j hj => ?_) (fun j hj => (Option.some.inj hj).symm) (fun k => ?_) ?_
    · rw [hfree] at hj
      exact absurd hj (by simp)
    · have hk := hinv.owner_iff i k
      rw [ht] at hk
      by_cases hkl : k = l
      · simp [hkl, Thread.held]
      · simpa [hkl, Thread.held] using hk
    · simpa [Thread.rest, Thread.plug] using hsub
  · rw [ht] at hsub
    have hout : l ∉ scopes.map Prod.fst := fun hl =>
      hre i l (hsub.nests l l (Thread.nests_plug (Prog.acquires_self l .done next) hl))
    have howner : s.owner l = some i := by
      rw [hinv.owner_iff, ht]
      exact List.mem_cons_self
    refine hinv.update (fun j hj => ?_) (fun j hj => absurd hj (by simp)) (fun k => ?_)
      ((Thread.rest_release_sub l next scopes).trans hsub)
    · exact Option.some.inj (hj.symm.trans howner)
    · have hk := hinv.owner_iff i k
      rw [ht] at hk
      by_cases hkl : k = l
      · subst hkl
        simpa [Thread.held] using hout
      · simpa [hkl, Thread.held] using hk

lemma Inv.reaches (hre : ∀ i l, ¬ (progs i).Nests l l) {s s' : System ι L} (hinv : Inv progs s)
    (h : s.Reaches s') : Inv progs s' := by
  induction h with
  | refl => exact hinv
  | tail _ hstep ih =>
    obtain ⟨i, hi⟩ := hstep
    exact ih.step hre hi

/-! ### Progress -/

/-- **A potential rules out deadlocks.**  Let `φ i l` be bounded, and let it grow from a thread
that may wait for a lock to any other thread that may wait while it holds that lock.  Then the
threads never come to a halt before they are finished. -/
theorem deadlockFree_of_potential (hre : ∀ i l, ¬ (progs i).Nests l l) (φ : ι → L → ℕ) (B : ℕ)
    (hB : ∀ i l, φ i l ≤ B)
    (hφ : ∀ i k l l', i ≠ k → (progs i).Acquires l → (progs k).Nests l l' → φ i l < φ k l') :
    DeadlockFree progs := by
  intro s hs hunfinished
  have hinv := inv_start.reaches hre hs
  by_contra hstuck
  have hwants : ∀ i, ¬ (s.threads i).Finished → ∃ l k, s.Wants i l ∧ s.owner l = some k := by
    intro i hi
    refine wants_of_step_eq_none ?_ hi
    by_contra hsome
    exact hstuck ⟨i, hi, Option.isSome_iff_ne_none.2 hsome⟩
  -- the holder of a lock that is wanted is another thread, and wants one itself
  have hclimb : ∀ i l k, s.Wants i l → s.owner l = some k →
      ∃ l' k', s.Wants k l' ∧ s.owner l' = some k' ∧ φ i l < φ k l' := by
    intro i l k hil hlk
    have hne : i ≠ k := by
      rintro rfl
      exact hre i l (hil.nests hinv hlk)
    have hk : ¬ (s.threads k).Finished := by
      intro hfinished
      have hheld := (hinv.owner_iff k l).1 hlk
      rw [Thread.held, hfinished.2] at hheld
      simp at hheld
    obtain ⟨l', k', hkl', hlk'⟩ := hwants k hk
    exact ⟨l', k', hkl', hlk', hφ i k l l' hne (hil.acquires hinv) (hkl'.nests hinv hlk)⟩
  -- so the potential would grow without bound
  have hgrow : ∀ n : ℕ, ∃ i l k, s.Wants i l ∧ s.owner l = some k ∧ n ≤ φ i l := by
    intro n
    induction n with
    | zero =>
      obtain ⟨i, hi⟩ := hunfinished
      obtain ⟨l, k, hil, hlk⟩ := hwants i hi
      exact ⟨i, l, k, hil, hlk, Nat.zero_le _⟩
    | succ n ih =>
      obtain ⟨i, l, k, hil, hlk, hn⟩ := ih
      obtain ⟨l', k', hkl', hlk', hlt⟩ := hclimb i l k hil hlk
      exact ⟨k, l', k', hkl', hlk', by omega⟩
  obtain ⟨i, l, -, -, -, hn⟩ := hgrow (B + 1)
  have := hB i l
  omega

/-- Locks that are only nested in an order do not deadlock. -/
theorem deadlockFree_of_rank (hre : ∀ i l, ¬ (progs i).Nests l l) (rank : L → ℕ) (B : ℕ)
    (hB : ∀ l, rank l ≤ B) (hrank : ∀ i l l', (progs i).Nests l l' → rank l < rank l') :
    DeadlockFree progs :=
  deadlockFree_of_potential hre (fun _ l => rank l) B (fun _ l => hB l)
    fun _ k l l' _ _ hnests => hrank k l l' hnests

/-- Nor do threads of which at most one nests locks. -/
theorem deadlockFree_of_one_nests (hre : ∀ i l, ¬ (progs i).Nests l l) (i₀ : ι)
    (honly : ∀ i l l', (progs i).Nests l l' → i = i₀) : DeadlockFree progs := by
  refine deadlockFree_of_potential hre (fun i _ => if i = i₀ then 1 else 0) 1
    (fun i _ => by split <;> omega) ?_
  intro i k l l' hik _ hnests
  obtain rfl := honly k l l' hnests
  simp [hik]

/-! ### Coming to a halt -/

/-- Two threads hold a lock each and want the other's. -/
structure Embrace (s : System ι L) (i j : ι) (l l' : L) : Prop where
  wants_left : s.Wants i l'
  wants_right : s.Wants j l
  owner_left : s.owner l = some i
  owner_right : s.owner l' = some j

lemma Wants.step_eq_none {s : System ι L} {i k : ι} {l : L} (h : s.Wants i l)
    (hl : s.owner l = some k) : s.step i = none := by
  obtain ⟨body, next, scopes, ht⟩ := h
  simp only [step, ht, hl]

/-- What a thread wants does not change by the steps of others. -/
lemma Wants.of_ne {s s' : System ι L} {i k : ι} {l : L} (h : s.Wants i l)
    (hs : s.step k = some s') (hne : i ≠ k) : s'.Wants i l := by
  obtain ⟨body, next, scopes, ht⟩ := h
  refine ⟨body, next, scopes, ?_⟩
  rcases step_cases hs with ⟨_, _, _, _, -, -, rfl⟩ | ⟨_, _, _, -, rfl⟩
  · exact (Function.update_of_ne hne _ _).trans ht
  · exact (Function.update_of_ne hne _ _).trans ht

/-- A lock that a thread holds stays with it during the steps of others. -/
lemma Inv.owner_of_ne {s s' : System ι L} (hinv : Inv progs s) {i k : ι} {l : L}
    (hl : s.owner l = some i) (hs : s.step k = some s') (hne : i ≠ k) :
    s'.owner l = some i := by
  rcases step_cases hs with ⟨m, _, _, _, -, hfree, rfl⟩ | ⟨m, _, _, ht, rfl⟩
  · have hlm : l ≠ m := by
      rintro rfl
      exact absurd (hl.symm.trans hfree) (by simp)
    exact (Function.update_of_ne hlm _ _).trans hl
  · have hlm : l ≠ m := by
      rintro rfl
      have hk : s.owner l = some k := by
        rw [hinv.owner_iff, ht]
        exact List.mem_cons_self
      exact hne (Option.some.inj (hl.symm.trans hk))
    exact (Function.update_of_ne hlm _ _).trans hl

lemma Embrace.step {s s' : System ι L} {i j k : ι} {l l' : L} (h : s.Embrace i j l l')
    (hinv : Inv progs s) (hs : s.step k = some s') : s'.Embrace i j l l' := by
  have hik : i ≠ k := by
    rintro rfl
    exact absurd (hs.symm.trans (h.wants_left.step_eq_none h.owner_right)) (by simp)
  have hjk : j ≠ k := by
    rintro rfl
    exact absurd (hs.symm.trans (h.wants_right.step_eq_none h.owner_left)) (by simp)
  exact ⟨h.wants_left.of_ne hs hik, h.wants_right.of_ne hs hjk,
    hinv.owner_of_ne h.owner_left hs hik, hinv.owner_of_ne h.owner_right hs hjk⟩

lemma Embrace.reaches (hre : ∀ i l, ¬ (progs i).Nests l l) {s s' : System ι L} {i j : ι}
    {l l' : L} (h : s.Embrace i j l l') (hinv : Inv progs s) (hs : s.Reaches s') :
    s'.Embrace i j l l' := by
  induction hs with
  | refl => exact h
  | tail hss hstep ih =>
    obtain ⟨k, hk⟩ := hstep
    exact ih.step (hinv.reaches hre hss) hk

/-- Each step leaves less to be done. -/
lemma size_step {s s' : System ι L} {i : ι} (h : s.step i = some s') :
    (s'.threads i).size < (s.threads i).size ∧ ∀ j, j ≠ i → s'.threads j = s.threads j := by
  rcases step_cases h with ⟨l, body, next, scopes, ht, -, rfl⟩ | ⟨l, next, scopes, ht, rfl⟩
  · refine ⟨?_, fun j hj => Function.update_of_ne hj _ _⟩
    rw [ht]
    simp only [Function.update_self, Thread.size, List.map_cons, List.sum_cons, Prog.size]
    omega
  · refine ⟨?_, fun j hj => Function.update_of_ne hj _ _⟩
    rw [ht]
    simp only [Function.update_self, Thread.size, List.map_cons, List.sum_cons, Prog.size]
    omega

/-- Finitely many threads come to a halt, whatever they wait for. -/
lemma exists_reaches_stuck [Fintype ι] (s : System ι L) :
    ∃ s', s.Reaches s' ∧ ∀ i, s'.step i = none := by
  induction hn : ∑ i, (s.threads i).size using Nat.strong_induction_on generalizing s with
  | _ n ih =>
    by_cases hstuck : ∀ i, s.step i = none
    · exact ⟨s, Relation.ReflTransGen.refl, hstuck⟩
    · obtain ⟨i, hi⟩ := not_forall.1 hstuck
      obtain ⟨s₁, hs₁⟩ := Option.ne_none_iff_exists'.1 hi
      obtain ⟨hlt, hsame⟩ := size_step hs₁
      have hless : ∑ j, (s₁.threads j).size < ∑ j, (s.threads j).size := by
        refine Finset.sum_lt_sum (fun j _ => ?_) ⟨i, Finset.mem_univ i, hlt⟩
        by_cases hj : j = i
        · rw [hj]
          exact hlt.le
        · rw [hsame j hj]
      obtain ⟨s', hs', hend⟩ := ih _ (hn ▸ hless) s₁ rfl
      exact ⟨s', .head ⟨i, hs₁⟩ hs', hend⟩

/-- A thread can do a part of its program alone as long as nobody holds the locks of it. -/
lemma reaches_of_free {i : ι} (p : Prog L) :
    ∀ (q : Prog L) (scopes : List (L × Prog L)) (s : System ι L),
      s.threads i = ⟨p.seq q, scopes⟩ → (∀ l, ¬ p.Nests l l) →
      (∀ l, p.Acquires l → s.owner l = none) →
      s.Reaches ⟨Function.update s.threads i ⟨q, scopes⟩, s.owner⟩ := by
  induction p with
  | done =>
    intro q scopes s ht _ _
    rw [Prog.done_seq] at ht
    rw [← ht, Function.update_eq_self]
    exact .refl
  | lock l body next ihbody ihnext =>
    intro q scopes s ht hre hfree
    rw [Prog.lock_seq] at ht
    have hl : s.owner l = none := hfree l (Or.inl rfl)
    -- take the lock, do the body, release the lock, go on
    have h₁ := step_of_free ht hl
    have h₂ := ihbody .done ((l, next.seq q) :: scopes)
      ⟨Function.update s.threads i ⟨body, (l, next.seq q) :: scopes⟩,
        Function.update s.owner l (some i)⟩ (by simp)
      (fun k hk => hre k (Or.inr (Or.inl hk))) (fun k hk => by
        have hkl : k ≠ l := by
          rintro rfl
          exact hre k (Or.inl ⟨rfl, hk⟩)
        exact (Function.update_of_ne hkl _ _).trans (hfree k (Or.inr (Or.inl hk))))
    rw [Function.update_idem] at h₂
    have ht₃ : (System.mk (Function.update s.threads i ⟨.done, (l, next.seq q) :: scopes⟩)
        (Function.update s.owner l (some i))).threads i = ⟨.done, (l, next.seq q) :: scopes⟩ :=
      Function.update_self _ _ _
    have h₃ := step_of_done ht₃
    rw [Function.update_idem, Function.update_idem, ← hl, Function.update_eq_self] at h₃
    have h₄ := ihnext q scopes ⟨Function.update s.threads i ⟨next.seq q, scopes⟩, s.owner⟩
      (by simp) (fun k hk => hre k (Or.inr (Or.inr hk)))
      (fun k hk => hfree k (Or.inr (Or.inr hk)))
    rw [Function.update_idem] at h₄
    exact (Relation.ReflTransGen.head ⟨i, h₁⟩ h₂).trans (.head ⟨i, h₃⟩ h₄)

/-- Two threads that are about to nest two free locks in opposite orders can embrace. -/
lemma exists_embrace {s : System ι L} {i j : ι} (hij : i ≠ j) {l l' : L} (hl : l ≠ l')
    {b n m b' n' m' : Prog L} {scopes scopes' : List (L × Prog L)}
    (hi : s.threads i = ⟨.lock l (.lock l' b n) m, scopes⟩)
    (hj : s.threads j = ⟨.lock l' (.lock l b' n') m', scopes'⟩)
    (hfree : s.owner l = none) (hfree' : s.owner l' = none) :
    ∃ s', s.Reaches s' ∧ s'.Embrace i j l l' := by
  have h₁ := step_of_free hi hfree
  have hj₁ : (System.mk (Function.update s.threads i ⟨.lock l' b n, (l, m) :: scopes⟩)
      (Function.update s.owner l (some i))).threads j =
        ⟨.lock l' (.lock l b' n') m', scopes'⟩ :=
    (Function.update_of_ne hij.symm _ _).trans hj
  have h₂ := step_of_free hj₁ ((Function.update_of_ne hl.symm _ _).trans hfree')
  refine ⟨_, .head ⟨i, h₁⟩ (.single ⟨j, h₂⟩), ⟨b, n, (l, m) :: scopes, ?_⟩,
    ⟨b', n', (l', m') :: scopes', ?_⟩, ?_, ?_⟩
  · exact (Function.update_of_ne hij _ _).trans (Function.update_self _ _ _)
  · exact Function.update_self _ _ _
  · exact (Function.update_of_ne hl _ _).trans (Function.update_self _ _ _)
  · exact Function.update_self _ _ _

/-- **Opposite orders deadlock.**  Two threads that nest two locks in opposite orders can come
to a halt, whatever else they and the other threads do. -/
theorem not_deadlockFree_of_opposite [Fintype ι] (hre : ∀ i l, ¬ (progs i).Nests l l) {i j : ι}
    (hij : i ≠ j) {l l' : L} (hl : l ≠ l') (hi : (progs i).Opens l l')
    (hj : (progs j).Opens l' l) : ¬ DeadlockFree progs := by
  intro hfree
  obtain ⟨p, b, n, m, hi⟩ := hi
  obtain ⟨p', b', n', m', hj⟩ := hj
  have hp : ∀ k, ¬ p.Nests k k := fun k hk => hre i k (by rw [hi, Prog.nests_seq]; exact .inl hk)
  have hp' : ∀ k, ¬ p'.Nests k k := fun k hk =>
    hre j k (by rw [hj, Prog.nests_seq]; exact .inl hk)
  -- both threads come to the point where they nest the locks, each on its own
  have hstarti : (start progs).threads i = ⟨p.seq (.lock l (.lock l' b n) m), []⟩ := by
    simp only [start, hi]
  have hstartj : (start progs).threads j = ⟨p'.seq (.lock l' (.lock l b' n') m'), []⟩ := by
    simp only [start, hj]
  let s₁ : System ι L := ⟨Function.update (start progs).threads i
    ⟨.lock l (.lock l' b n) m, []⟩, (start progs).owner⟩
  let s₂ : System ι L := ⟨Function.update s₁.threads j ⟨.lock l' (.lock l b' n') m', []⟩, s₁.owner⟩
  have h₁ : (start progs).Reaches s₁ := reaches_of_free p _ [] _ hstarti hp (fun _ _ => rfl)
  have h₂ : s₁.Reaches s₂ := reaches_of_free p' _ [] _
    ((Function.update_of_ne hij.symm _ _).trans hstartj) hp' (fun _ _ => rfl)
  obtain ⟨s, hs, hembrace⟩ := exists_embrace (s := s₂) hij hl
    ((Function.update_of_ne hij _ _).trans (Function.update_self _ _ _))
    (Function.update_self _ _ _) rfl rfl
  -- the others go on for as long as they can
  have hstart := (h₁.trans h₂).trans hs
  obtain ⟨s', hs', hstuck⟩ := exists_reaches_stuck s
  have hembrace' := hembrace.reaches hre (inv_start.reaches hre hstart) hs'
  obtain ⟨body, next, scopes, ht⟩ := hembrace'.wants_left
  have hunfinished : ¬ (s'.threads i).Finished := by
    rw [ht]
    rintro ⟨hcur, -⟩
    cases hcur
  obtain ⟨k, -, hk⟩ := hfree s' (hstart.trans hs') ⟨i, hunfinished⟩
  rw [hstuck k] at hk
  exact absurd hk (by simp)

end

end System

end MidnightNode.Locks
