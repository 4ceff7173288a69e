/-
**Folding joins.**

A loop that starts from an element of a join semilattice and joins values to it, one for each item
of a list, ends with the least upper bound of all of them.  So the order of the items, their
repetitions and the way they are grouped into lists do not matter.

Main results:

* `Join.foldl_sup_le_iff` — what is above the result is above the start and all values;
* `Join.foldl_sup_of_closed` — the result has every property that joins keep.
-/

import Mathlib.Order.Bounds.Basic

set_option relaxedAutoImplicit false
set_option autoImplicit false

namespace Join

variable {α β : Type*} [SemilatticeSup α] {f : β → α} {a c : α}

/-- The result is the least of what is above the start and all values. -/
theorem foldl_sup_le_iff {l : List β} :
    l.foldl (fun acc x => acc ⊔ f x) a ≤ c ↔ a ≤ c ∧ ∀ x ∈ l, f x ≤ c := by
  induction l generalizing a with
  | nil => simp
  | cons x l ih => rw [List.foldl_cons, ih, sup_le_iff, List.forall_mem_cons, and_assoc]

/-- What the start and the values have and joins keep, the result has. -/
theorem foldl_sup_of_closed {P : α → Prop} (hclosed : ∀ p q, P p → P q → P (p ⊔ q))
    (hf : ∀ x, P (f x)) {l : List β} (ha : P a) : P (l.foldl (fun acc x => acc ⊔ f x) a) := by
  induction l generalizing a with
  | nil => exact ha
  | cons x l ih => exact ih (hclosed a (f x) ha (hf x))

end Join
