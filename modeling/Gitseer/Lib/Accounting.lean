/-
**Accounts of a run.**

Two things can be said of a whole run by looking at one move at a time.  What a store holds: when
each move takes from the front what was put in at the back, all that was ever put in is what was
ever taken, in the same order, followed by what is still held.  And what moves cost: when each move
pays for itself out of what it gains and of a credit kept in the state, the whole run costs no more
than it gains.

Main results:

* `Lts.Run.conserves` — what is put in is taken in order, or still held;
* `Lts.Run.amortized` — a run costs no more than it gains.
-/

import Mathlib.Algebra.Ring.Nat
import Gitseer.Lib.Run

set_option relaxedAutoImplicit false
set_option autoImplicit false

namespace Lts.Run

variable {S L α : Type*} {step : S → L → S → Prop} {s₀ s : S} {ls : List L}

/-- What is put in at the back and taken from the front comes out in order. -/
theorem conserves (put take : L → List α) (held : S → List α)
    (hstep : ∀ s l s', step s l s' → held s ++ put l = take l ++ held s')
    (h : Run step s₀ ls s) : held s₀ ++ ls.flatMap put = ls.flatMap take ++ held s := by
  induction h with
  | nil => simp
  | @snoc ls t l t' _ hs ih =>
      rw [List.flatMap_append, List.flatMap_append, List.flatMap_singleton, List.flatMap_singleton]
      calc held s₀ ++ (ls.flatMap put ++ put l)
          = ls.flatMap take ++ (held t ++ put l) := by
            rw [← List.append_assoc, ih, List.append_assoc]
        _ = ls.flatMap take ++ take l ++ held t' := by rw [hstep t l t' hs, List.append_assoc]

/-- A run whose moves pay for themselves costs no more than it gains. -/
theorem amortized (cost gain : L → ℕ) (credit : S → ℕ)
    (hstep : ∀ s l s', step s l s' → cost l + credit s' ≤ gain l + credit s)
    (h : Run step s₀ ls s) : (ls.map cost).sum + credit s ≤ (ls.map gain).sum + credit s₀ := by
  induction h with
  | nil => simp
  | @snoc ls t l t' _ hs ih =>
      have hmove := hstep t l t' hs
      simp only [List.map_append, List.map_singleton, List.sum_append, List.sum_singleton]
      omega

end Lts.Run
