/-
**Computations that can fail.**

A fallible function returns in `Except`, and a chain of calls stops at the first error.  The lemmas
here take such a chain apart: what has to succeed for the chain to succeed.

Main results:

* `Result.bind_eq_ok` — a chain succeeds when its first call does and the rest does on its result;
* `Result.ite_error_eq_ok` — a check is passed, and what comes after it succeeds;
* `Result.foldlM_invariant` — what the steps of a fold preserve;
* `Result.exists_ok_of_mapM` — where a list is processed item by item, every item succeeds;
* `Result.forall₂_of_mapM` — and the results are those of the items, one by one.
-/

import Mathlib.Data.List.Basic

set_option relaxedAutoImplicit false
set_option autoImplicit false

namespace Result

variable {ε α β : Type}

@[simp] theorem ok_bind (a : α) (f : α → Except ε β) : (Except.ok a >>= f) = f a := rfl

@[simp] theorem error_bind (e : ε) (f : α → Except ε β) :
    ((Except.error e : Except ε α) >>= f) = .error e := rfl

/-- A chain of two calls succeeds when both do. -/
theorem bind_eq_ok {x : Except ε α} {f : α → Except ε β} {b : β} :
    (x >>= f) = .ok b ↔ ∃ a, x = .ok a ∧ f a = .ok b := by
  cases x with
  | error e => simp
  | ok a => simp

theorem toOption_bind (x : Except ε α) (f : α → Except ε β) :
    (x >>= f).toOption = x.toOption.bind fun a => (f a).toOption := by
  cases x <;> rfl

theorem toOption_eq_some_iff {x : Except ε α} {a : α} : x.toOption = some a ↔ x = .ok a := by
  cases x <;> simp [Except.toOption]

/-- Behind a check, a success is one of the rest with the check passed. -/
theorem ite_error_eq_ok {c : Prop} [Decidable c] {e : ε} {x : Except ε α} {a : α} :
    (if c then .error e else x) = .ok a ↔ ¬ c ∧ x = .ok a := by
  by_cases hc : c <;> simp [hc]

/-- What every step of a fold over a list preserves holds of the result of the whole fold. -/
theorem foldlM_invariant {f : β → α → Except ε β} (I : β → Prop)
    (hstep : ∀ b a b', I b → f b a = .ok b' → I b') {l : List α} {b b' : β} (hb : I b)
    (h : l.foldlM f b = .ok b') : I b' := by
  induction l generalizing b with
  | nil =>
      obtain rfl := Except.ok.inj h
      exact hb
  | cons a l ih =>
      rw [List.foldlM_cons] at h
      obtain ⟨b₁, h₁, hrest⟩ := bind_eq_ok.1 h
      exact ih (hstep b a b₁ hb h₁) hrest

/-- Where a list is processed item by item, every item succeeds. -/
theorem exists_ok_of_mapM {f : α → Except ε β} {l : List α} {l' : List β}
    (h : l.mapM f = .ok l') : ∀ a ∈ l, ∃ b, f a = .ok b := by
  induction l generalizing l' with
  | nil => simp
  | cons x l ih =>
      intro a ha
      rw [List.mapM_cons] at h
      obtain ⟨b, hb, hrest⟩ := bind_eq_ok.1 h
      obtain ⟨bs, hbs, -⟩ := bind_eq_ok.1 hrest
      rcases List.mem_cons.1 ha with rfl | ha
      · exact ⟨b, hb⟩
      · exact ih hbs a ha

/-- Where a list is processed item by item, every result is that of an item. -/
theorem exists_item_of_mapM {f : α → Except ε β} {l : List α} {l' : List β}
    (h : l.mapM f = .ok l') : ∀ b ∈ l', ∃ a ∈ l, f a = .ok b := by
  induction l generalizing l' with
  | nil =>
      obtain rfl := Except.ok.inj h
      simp
  | cons x l ih =>
      intro b hb
      rw [List.mapM_cons] at h
      obtain ⟨first, hfirst, hrest⟩ := bind_eq_ok.1 h
      obtain ⟨others, hothers, hl'⟩ := bind_eq_ok.1 hrest
      obtain rfl := Except.ok.inj hl'
      rcases List.mem_cons.1 hb with rfl | hb
      · exact ⟨x, List.mem_cons_self, hfirst⟩
      · obtain ⟨a, ha, hfa⟩ := ih hothers b hb
        exact ⟨a, List.mem_cons_of_mem _ ha, hfa⟩

/-- Where a list is processed item by item, the results are those of the items, in order. -/
theorem forall₂_of_mapM {f : α → Except ε β} {l : List α} {l' : List β} (h : l.mapM f = .ok l') :
    List.Forall₂ (fun a b => f a = .ok b) l l' := by
  induction l generalizing l' with
  | nil =>
      obtain rfl := Except.ok.inj h
      exact .nil
  | cons x l ih =>
      rw [List.mapM_cons] at h
      obtain ⟨first, hfirst, hrest⟩ := bind_eq_ok.1 h
      obtain ⟨others, hothers, hl'⟩ := bind_eq_ok.1 hrest
      obtain rfl := Except.ok.inj hl'
      exact .cons hfirst (ih hothers)

end Result
