/-
**What a reading of a store depends on.**

A store has a value at every key.  A reading looks at some of the keys, and which ones may depend
on what it has found so far: a table is looked up at the place another key names.  Its *footprint*
in a store is the set of keys it looks at there; it is found by reading these keys alone, so a
store that agrees on them has the same footprint.

An answer that is determined by its footprint does not notice a change of a key outside it.  In
turn, for every key of the footprint there is an answer, determined by the footprint, that tells a
store from any other that differs there.  So the keys of a footprint are exactly those whose change
an observer has to reckon with when nothing else is known of the answer.

Main definitions:

* `Footprint` — with `Footprint.const`, `Footprint.union` and `Footprint.ask`;
* `Footprint.Determines` — the answers that depend on nothing else;
* `Footprint.Changed` — two stores that differ at a single key.

Main results:

* `Footprint.Determines.eq_of_changed` — a change outside the footprint goes unnoticed;
* `Footprint.exists_told_apart` — a change inside is noticed by some answer.
-/

import Mathlib.Data.Set.Function

set_option relaxedAutoImplicit false
set_option autoImplicit false

/-- The keys that a reading looks at, in each store. -/
structure Footprint (κ ν : Type*) where
  keys : (κ → ν) → Set κ
  /-- Which keys are looked at is found by looking at them. -/
  found : ∀ f g, Set.EqOn f g (keys f) → keys g = keys f

namespace Footprint

variable {κ ν α : Type*}

/-! ### Building footprints -/

/-- The reading that looks at fixed keys. -/
def const (s : Set κ) : Footprint κ ν where
  keys _ := s
  found _ _ _ := rfl

/-- One reading and another. -/
def union (F G : Footprint κ ν) : Footprint κ ν where
  keys f := F.keys f ∪ G.keys f
  found f g h := by
    rw [F.found f g (h.mono Set.subset_union_left), G.found f g (h.mono Set.subset_union_right)]

/-- Looking at a key and going on with what is there. -/
def ask (k : κ) (next : ν → Footprint κ ν) : Footprint κ ν where
  keys f := insert k ((next (f k)).keys f)
  found f g h := by
    have hk : f k = g k := h (Set.mem_insert k _)
    rw [← hk, (next (f k)).found f g (h.mono (Set.subset_insert k _))]

@[simp] theorem mem_const {s : Set κ} {f : κ → ν} {k : κ} : k ∈ (const s).keys f ↔ k ∈ s := Iff.rfl

@[simp] theorem mem_union {F G : Footprint κ ν} {f : κ → ν} {k : κ} :
    k ∈ (F.union G).keys f ↔ k ∈ F.keys f ∨ k ∈ G.keys f := Iff.rfl

@[simp] theorem mem_ask {k₀ : κ} {next : ν → Footprint κ ν} {f : κ → ν} {k : κ} :
    k ∈ (ask k₀ next).keys f ↔ k = k₀ ∨ k ∈ (next (f k₀)).keys f := Iff.rfl

/-! ### Single changes -/

/-- The stores differ at the key and nowhere else. -/
structure Changed (f g : κ → ν) (k : κ) : Prop where
  differs : g k ≠ f k
  elsewhere : ∀ k', k' ≠ k → g k' = f k'

theorem Changed.eqOn {f g : κ → ν} {k : κ} (h : Changed f g k) {s : Set κ} (hk : k ∉ s) :
    Set.EqOn f g s := by
  intro k' hk'
  have hne : k' ≠ k := fun heq => hk (heq ▸ hk')
  exact (h.elsewhere k' hne).symm

theorem Changed.symm {f g : κ → ν} {k : κ} (h : Changed f g k) : Changed g f k where
  differs := h.differs.symm
  elsewhere k' hk' := (h.elsewhere k' hk').symm

theorem changed_update [DecidableEq κ] {f : κ → ν} {k : κ} {v : ν} (hv : v ≠ f k) :
    Changed f (Function.update f k v) k where
  differs := by rwa [Function.update_self]
  elsewhere _ hk' := Function.update_of_ne hk' v f

/-! ### Answers -/

/-- The answers, where there are any, depend on nothing but the footprint. -/
def Determines (F : Footprint κ ν) (answers : (κ → ν) → α → Prop) : Prop :=
  ∀ f g a b, answers f a → answers g b → Set.EqOn f g (F.keys f) → a = b

/-- A change outside the footprint goes unnoticed. -/
theorem Determines.eq_of_changed {F : Footprint κ ν} {answers : (κ → ν) → α → Prop}
    (h : F.Determines answers) {f g : κ → ν} {k : κ} (hchange : Changed f g k)
    (hk : k ∉ F.keys f) {a b : α} (ha : answers f a) (hb : answers g b) : a = b :=
  h f g a b ha hb (hchange.eqOn hk)

/-- An answer that is always the same depends on nothing. -/
theorem determines_const (F : Footprint κ ν) (a : α) : F.Determines fun _ b => a = b :=
  fun _ _ _ _ hf hg _ => hf.symm.trans hg

/-- What a reading determines, it determines together with another. -/
theorem Determines.union_left {F G : Footprint κ ν} {answers : (κ → ν) → α → Prop}
    (h : F.Determines answers) : (F.union G).Determines answers :=
  fun f g a b ha hb heq => h f g a b ha hb (heq.mono Set.subset_union_left)

/-- What the reading sees of a store. -/
noncomputable def view (F : Footprint κ ν) (f : κ → ν) : κ → Option ν :=
  open Classical in fun k => if k ∈ F.keys f then some (f k) else none

theorem view_of_mem {F : Footprint κ ν} {f : κ → ν} {k : κ} (hk : k ∈ F.keys f) :
    F.view f k = some (f k) := if_pos hk

theorem view_of_not_mem {F : Footprint κ ν} {f : κ → ν} {k : κ} (hk : k ∉ F.keys f) :
    F.view f k = none := if_neg hk

/-- Stores that agree on the footprint look the same. -/
theorem view_eq_of_eqOn {F : Footprint κ ν} {f g : κ → ν} (h : Set.EqOn f g (F.keys f)) :
    F.view f = F.view g := by
  funext k
  by_cases hk : k ∈ F.keys f
  · have hk' : k ∈ F.keys g := (F.found f g h).symm ▸ hk
    rw [view_of_mem hk, view_of_mem hk', h hk]
  · have hk' : k ∉ F.keys g := (F.found f g h).symm ▸ hk
    rw [view_of_not_mem hk, view_of_not_mem hk']

/-- A store that differs at a key of the footprint looks different. -/
theorem view_ne_of_changed {F : Footprint κ ν} {f g : κ → ν} {k : κ} (hchange : Changed f g k)
    (hk : k ∈ F.keys f) : F.view g ≠ F.view f := by
  intro heq
  have hview : F.view g k = some (f k) := by rw [heq, view_of_mem hk]
  by_cases hk' : k ∈ F.keys g
  · rw [view_of_mem hk'] at hview
    exact hchange.differs (Option.some.inj hview)
  · rw [view_of_not_mem hk'] at hview
    exact absurd hview (by simp)

/-- A change inside the footprint is noticed by some answer that depends on nothing else. -/
theorem exists_told_apart {F : Footprint κ ν} {f g : κ → ν} {k : κ} (hchange : Changed f g k)
    (hk : k ∈ F.keys f) : ∃ answer : (κ → ν) → Bool,
      F.Determines (fun f a => answer f = a) ∧ answer f = true ∧ answer g = false := by
  classical
  refine ⟨fun g => decide (F.view g = F.view f), ?_, ?_, ?_⟩
  · rintro g g' _ _ rfl rfl heq
    simp only [view_eq_of_eqOn heq]
  · exact decide_eq_true rfl
  · exact decide_eq_false (view_ne_of_changed hchange hk)

end Footprint
