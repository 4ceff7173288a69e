/-
**A bounded queue that remembers when it overflowed.**

An item offered to a full queue is dropped, and a flag is set.  The flag stays set until it is
taken, however many items are taken in between; but as long as none is, a set flag means that the
queue is full.

Main definitions:

* `LossyQueue`, `LossyQueue.offer`, `LossyQueue.takeOverflow` — the queue;
* `LossyQueue.Tight` — when the flag is set, the queue is full.

Main results:

* `LossyQueue.offer_cases` — an offered item is appended or dropped;
* `LossyQueue.offer_tight` — offering keeps the queue tight;
* `LossyQueue.Tight.not_overflowed` — the flag of an empty tight queue is clear.
-/

import Mathlib.Data.List.Basic

set_option relaxedAutoImplicit false
set_option autoImplicit false

structure LossyQueue (α : Type*) where
  items : List α := []
  overflowed : Bool := false

namespace LossyQueue

variable {α : Type*} {q : LossyQueue α} {capacity : ℕ} {a : α}

/-- An item is appended while there is room for it. -/
def offer (capacity : ℕ) (q : LossyQueue α) (a : α) : LossyQueue α :=
  if q.items.length < capacity then { q with items := q.items ++ [a] }
  else { q with overflowed := true }

/-- The flag is cleared. -/
def takeOverflow (q : LossyQueue α) : LossyQueue α := { q with overflowed := false }

theorem offer_cases (capacity : ℕ) (q : LossyQueue α) (a : α) :
    q.items.length < capacity ∧ q.offer capacity a = { q with items := q.items ++ [a] } ∨
    capacity ≤ q.items.length ∧ q.offer capacity a = { q with overflowed := true } := by
  unfold offer
  split
  · next h => exact Or.inl ⟨h, rfl⟩
  · next h => exact Or.inr ⟨Nat.not_lt.1 h, rfl⟩

theorem offer_bounded (h : q.items.length ≤ capacity) :
    (q.offer capacity a).items.length ≤ capacity := by
  rcases offer_cases capacity q a with ⟨hroom, hq⟩ | ⟨-, hq⟩
  · rw [hq, List.length_append, List.length_singleton]
    omega
  · rw [hq]
    exact h

/-- When the flag is set, the queue is full. -/
def Tight (capacity : ℕ) (q : LossyQueue α) : Prop :=
  q.overflowed = true → q.items.length = capacity

/-- There is no room for an item in a tight queue that overflowed. -/
theorem offer_tight (hbound : q.items.length ≤ capacity) (h : q.Tight capacity) :
    (q.offer capacity a).Tight capacity := by
  rcases offer_cases capacity q a with ⟨hroom, hq⟩ | ⟨hfull, hq⟩
  · rw [hq]
    intro hover
    have hlen := h hover
    omega
  · rw [hq]
    intro _
    exact Nat.le_antisymm hbound hfull

theorem Tight.not_overflowed (h : q.Tight capacity) (hcapacity : 0 < capacity)
    (hempty : q.items = []) : q.overflowed = false := by
  by_contra hover
  have hlen := h (Bool.not_eq_false _ ▸ hover)
  rw [hempty, List.length_nil] at hlen
  omega

end LossyQueue
