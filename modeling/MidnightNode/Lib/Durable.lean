/-
# Programs over a durable store

A store keeps values under keys that the values themselves determine.  A value that is persisted
is there until the store is reopened, and from the next flush on it is there for good.

A program over such a store is handed keys and hands keys on.  It may fail, and unlike the
storage of a transaction the store is not rolled back then; but it can only add to the store, so
that nothing that the store held is lost.  What such a program computes is described by one that
is handed the values themselves and has no store at all: `Simulates` says that both fail alike,
and that the keys of the one stand for the values of the other.

This may rest on an assumption about what was done with the store.  A recorded store keeps a
record, and `Simulates` holds for the runs whose record is as assumed at their end.  The rules
below build this up along a program.
-/
import Mathlib.Logic.Relation
import Mathlib.Order.Basic
import Mathlib.Tactic.Lemma

namespace MidnightNode.Durable

variable {σ κ ν α β γ δ : Type}

/-- A store of values under keys. -/
structure DurableStore (σ κ ν : Type) where
  load : σ → κ → Option ν
  /-- The key of a value, if it has one. -/
  key : ν → Option κ
  persist : σ → ν → σ
  flush : σ → σ
  /-- The store as it is found after a restart. -/
  reopen : σ → σ
  load_persist : ∀ s v k, key v = some k → load (persist s v) k = some v
  load_persist_of_load : ∀ s v' k v, load s k = some v → load (persist s v') k = some v
  load_flush : ∀ s k v, load s k = some v → load (flush s) k = some v
  load_reopen_flush : ∀ s k v, load s k = some v → load (reopen (flush s)) k = some v
  load_reopen_persist : ∀ s v' k v, load (reopen s) k = some v →
    load (reopen (persist s v')) k = some v
  load_of_reopen : ∀ s k v, load (reopen s) k = some v → load s k = some v
  load_reopen_reopen : ∀ s k v, load (reopen s) k = some v →
    load (reopen (reopen s)) k = some v

namespace DurableStore

variable (D : DurableStore σ κ ν)

/-- Nothing that a store held is lost, neither in memory nor on disk. -/
structure Extends (s s' : σ) : Prop where
  load : ∀ k v, D.load s k = some v → D.load s' k = some v
  reopen : ∀ k v, D.load (D.reopen s) k = some v → D.load (D.reopen s') k = some v

variable {D}

lemma Extends.refl (s : σ) : D.Extends s s :=
  ⟨fun _ _ h => h, fun _ _ h => h⟩

lemma Extends.trans {s₁ s₂ s₃ : σ} (h : D.Extends s₁ s₂) (h' : D.Extends s₂ s₃) :
    D.Extends s₁ s₃ :=
  ⟨fun k v hk => h'.load k v (h.load k v hk), fun k v hk => h'.reopen k v (h.reopen k v hk)⟩

lemma extends_persist (s : σ) (v : ν) : D.Extends s (D.persist s v) :=
  ⟨D.load_persist_of_load s v, D.load_reopen_persist s v⟩

lemma extends_flush (s : σ) : D.Extends s (D.flush s) :=
  ⟨D.load_flush s, fun k v h => D.load_reopen_flush s k v (D.load_of_reopen s k v h)⟩

end DurableStore

/-- A store that records what is done with it, and what is assumed of the record.  What is
assumed of a record is assumed of its beginnings. -/
structure RecordedStore (σ κ ν : Type) extends DurableStore σ κ ν where
  assumed : σ → Prop
  assumed_of_persist : ∀ s v, assumed (persist s v) → assumed s
  assumed_of_flush : ∀ s, assumed (flush s) → assumed s

namespace RecordedStore

variable (R : RecordedStore σ κ ν)

/-- Nothing is lost, neither of the store nor of its record. -/
structure Extends (s s' : σ) : Prop extends R.toDurableStore.Extends s s' where
  assumed : R.assumed s' → R.assumed s

variable {R}

lemma Extends.refl (s : σ) : R.Extends s s :=
  ⟨.refl s, id⟩

lemma Extends.trans {s₁ s₂ s₃ : σ} (h : R.Extends s₁ s₂) (h' : R.Extends s₂ s₃) :
    R.Extends s₁ s₃ :=
  ⟨h.toExtends.trans h'.toExtends, fun hs => h.assumed (h'.assumed hs)⟩

end RecordedStore

/-! ### A write-back store -/

/-- Values in memory and values on disk. -/
structure WriteBack (ν : Type) where
  memory : List ν
  disk : List ν

namespace WriteBack

variable [DecidableEq κ] (key : ν → κ)

/-- Look a value up by its key. -/
def find (l : List ν) (k : κ) : Option ν :=
  l.find? fun v => key v = k

/-- The value is looked for in memory first. -/
def load (s : WriteBack ν) (k : κ) : Option ν :=
  find key (s.memory ++ s.disk) k

def persist (s : WriteBack ν) (v : ν) : WriteBack ν :=
  ⟨v :: s.memory, s.disk⟩

def flush (s : WriteBack ν) : WriteBack ν :=
  ⟨[], s.memory ++ s.disk⟩

def reopen (s : WriteBack ν) : WriteBack ν :=
  ⟨[], s.disk⟩

variable {key}

lemma find_eq_some_iff (hkey : Function.Injective key) {l : List ν} {k : κ} {v : ν} :
    find key l k = some v ↔ v ∈ l ∧ key v = k := by
  constructor
  · intro h
    exact ⟨List.mem_of_find?_eq_some h, by simpa using List.find?_some h⟩
  · rintro ⟨hmem, rfl⟩
    obtain ⟨v', hv'⟩ : ∃ v', find key l (key v) = some v' := by
      refine Option.isSome_iff_exists.1 (List.find?_isSome.2 ⟨v, hmem, ?_⟩)
      simp
    have heq : key v' = key v := by simpa using List.find?_some hv'
    rw [hv', hkey heq]

/-- With keys that tell values apart it is a durable store. -/
def store (key : ν → κ) (hkey : Function.Injective key) : DurableStore (WriteBack ν) κ ν where
  load := load key
  key v := some (key v)
  persist := persist
  flush := flush
  reopen := reopen
  load_persist s v k h := by
    obtain rfl := Option.some.inj h
    exact (find_eq_some_iff hkey).2 ⟨List.mem_cons_self, rfl⟩
  load_persist_of_load s v' k v h := by
    obtain ⟨hmem, hk⟩ := (find_eq_some_iff hkey).1 h
    exact (find_eq_some_iff hkey).2 ⟨List.mem_cons_of_mem v' hmem, hk⟩
  load_flush _ _ _ h := h
  load_reopen_flush _ _ _ h := h
  load_reopen_persist _ _ _ _ h := h
  load_of_reopen s k v h := by
    obtain ⟨hmem, hk⟩ := (find_eq_some_iff hkey).1 h
    exact (find_eq_some_iff hkey).2 ⟨List.mem_append_right _ hmem, hk⟩
  load_reopen_reopen _ _ _ h := h

end WriteBack

/-! ### Programs -/

/-- A program over a store: a step that fails ends it, and leaves the store as it is then.
Whether or not it fails, nothing is lost. -/
structure Prog (R : RecordedStore σ κ ν) (α : Type) where
  /-- The result of the program and the store after it. -/
  exec : σ → Option α × σ
  keeps : ∀ s, R.Extends s (exec s).2

namespace Prog

variable {R : RecordedStore σ κ ν}

instance : Monad (Prog R) where
  pure a := ⟨fun s => (some a, s), fun s => .refl s⟩
  bind x f :=
    { exec := fun s =>
        match x.exec s with
        | (some a, s') => (f a).exec s'
        | (none, s') => (none, s')
      keeps := fun s => by
        have hkeeps := x.keeps s
        rcases hexec : x.exec s with ⟨_ | a, s'⟩
        · rw [hexec] at hkeeps
          exact hkeeps
        · rw [hexec] at hkeeps
          exact hkeeps.trans ((f a).keeps s') }

/-- A step that fails. -/
def fail : Prog R α := ⟨fun s => (none, s), fun s => .refl s⟩

/-- A step that does not depend on the store. -/
def ofOption (o : Option α) : Prog R α := ⟨fun s => (o, s), fun s => .refl s⟩

/-- A step that reads the store and may fail. -/
def read (f : σ → Option α) : Prog R α := ⟨fun s => (f s, s), fun s => .refl s⟩

/-- A value is persisted. -/
def persist (v : ν) : Prog R Unit where
  exec s := (some (), R.persist s v)
  keeps s := ⟨DurableStore.extends_persist s v, R.assumed_of_persist s v⟩

/-- The store is flushed. -/
def flush : Prog R Unit where
  exec s := (some (), R.flush s)
  keeps s := ⟨DurableStore.extends_flush s, R.assumed_of_flush s⟩

/-- Run a program and go on with its result, whether or not it failed. -/
def attempt (x : Prog R α) : Prog R (Option α) where
  exec s := (some (x.exec s).1, (x.exec s).2)
  keeps := x.keeps

lemma exec_bind (x : Prog R α) (f : α → Prog R β) (s : σ) :
    (x >>= f).exec s =
      match x.exec s with
      | (some a, s') => (f a).exec s'
      | (none, s') => (none, s') :=
  rfl

end Prog

/-! ### Simulation -/

/-- A program over a store, started in `s`, does what `o` says, if the record is then as
assumed: it fails if `o` is `none`, and otherwise its result stands for that of `o` in the store
it leaves. -/
def Simulates (R : RecordedStore σ κ ν) (rel : σ → α → β → Prop) (s : σ) (x : Prog R α)
    (o : Option β) : Prop :=
  R.assumed (x.exec s).2 → Option.Rel (rel (x.exec s).2) (x.exec s).1 o

section Rules

variable {R : RecordedStore σ κ ν} {s : σ}

lemma simulates_pure {rel : σ → α → β → Prop} {a : α} {b : β} (h : rel s a b) :
    Simulates R rel s (pure a) (some b) :=
  fun _ => .some h

/-- One step after the other. -/
lemma Simulates.bind {rel : σ → α → β → Prop} {rel' : σ → γ → δ → Prop} {x : Prog R α}
    {o : Option β} {f : α → Prog R γ} {g : β → Option δ} (hx : Simulates R rel s x o)
    (hf : ∀ s' a b, R.Extends s s' → rel s' a b → Simulates R rel' s' (f a) (g b)) :
    Simulates R rel' s (x >>= f) (o >>= g) := by
  intro hassumed
  have hkeeps := x.keeps s
  rw [Simulates] at hx
  rw [Prog.exec_bind] at hassumed ⊢
  rcases hexec : x.exec s with ⟨_ | a, s'⟩
  · rw [hexec] at hx hassumed
    cases hx hassumed
    exact .none
  · rw [hexec] at hx hassumed hkeeps
    -- What is assumed at the end is assumed after the first step.
    cases hx (((f a).keeps s').assumed hassumed) with
    | some hrel => exact hf s' a _ hkeeps hrel hassumed

/-- Steps that neither side takes from the store. -/
lemma simulates_ofOption (o : Option α) :
    Simulates R (fun _ a b => a = b ∧ o = some b) s (Prog.ofOption o) o := by
  intro _
  cases o with
  | none => exact .none
  | some a => exact .some ⟨rfl, rfl⟩

lemma simulates_fail {rel : σ → α → β → Prop} : Simulates R rel s Prog.fail none :=
  fun _ => .none

/-- A step that reads what the other side has at hand. -/
lemma simulates_read {f : σ → Option α} {o : Option α} (h : f s = o) :
    Simulates R (fun _ a b => a = b) s (Prog.read f) o := by
  subst h
  intro _
  show Option.Rel _ (f s) (f s)
  cases f s with
  | none => exact .none
  | some a => exact .some rfl

/-- A value is persisted and its key handed on. -/
lemma simulates_persist {v : ν} {k : κ} (h : R.key v = some k) :
    Simulates R (fun s' a b => a = k ∧ R.load s' a = some b) s
      (do Prog.persist v; return k) (some v) :=
  fun _ => .some ⟨rfl, R.load_persist s v k h⟩

/-- The store is flushed: what was there is there for good. -/
lemma simulates_flush : Simulates R (fun s' _ _ => ∀ k v, R.load s k = some v →
      R.load (R.reopen s') k = some v) s Prog.flush (some ()) :=
  fun _ => .some (R.load_reopen_flush s)

/-- A program whose failure is made up for. -/
lemma Simulates.attempt {rel : σ → α → β → Prop} {x : Prog R α} {o : Option β}
    (hx : Simulates R rel s x o) :
    Simulates R (fun s' => Option.Rel (rel s')) s x.attempt (some o) :=
  fun hassumed => .some (hx hassumed)

/-- What is handed on may stand for less. -/
lemma Simulates.map {rel : σ → α → β → Prop} {rel' : σ → α → γ → Prop} {x : Prog R α}
    {o : Option β} (h : Simulates R rel s x o) (f : β → γ)
    (himp : ∀ s' a b, rel s' a b → rel' s' a (f b)) : Simulates R rel' s x (o.map f) := by
  intro hassumed
  have hresult := h hassumed
  generalize (x.exec s).1 = result at hresult ⊢
  cases hresult with
  | none => exact .none
  | some hrel => exact .some (himp _ _ _ hrel)

lemma Simulates.imp {rel rel' : σ → α → β → Prop} {x : Prog R α} {o : Option β}
    (h : Simulates R rel s x o) (himp : ∀ s' a b, rel s' a b → rel' s' a b) :
    Simulates R rel' s x o := by
  have hmap := h.map id himp
  rwa [Option.map_id] at hmap

end Rules

end MidnightNode.Durable
