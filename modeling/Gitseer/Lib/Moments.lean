/-
**Computations that look at a changing world.**

A computation that takes time looks at the world again and again, and what it finds the second time
need not fit to what it found the first.  A *reading* is such a computation, suspended wherever it
looks: it is done, with a result or an error, or it asks for the world and goes on with what it is
shown.

Two things can be said of its results.  Where the world stands still the reading is an ordinary
fallible computation.  And where it is shown the worlds of some set, each look at any of them, its
result was put together from looks at worlds of this set.

Main definitions:

* `Moments.Reading`, with `Reading.bind` and `Reading.look`;
* `Reading.atOnce` — the result in a world that stands still;
* `Reading.Gives` — the results that looks at the worlds of a set can lead to;
* `Reading.Rest` — what is left of a reading after some looks.

Main results:

* `atOnce_bind` — in a world that stands still the parts of a reading follow each other;
* `gives_bind` — a reading in two parts gives what the second gives for a result of the first;
* `Rest.gives` — what is left of a reading gives no more than the reading does;
* `gives_singleton` — with one world only, a reading gives the result in that world.
-/

import Gitseer.Lib.Result
import Mathlib.Data.Set.Insert

set_option relaxedAutoImplicit false
set_option autoImplicit false

namespace Moments

variable {W ε α β : Type}

/-- A computation that is done, or asks for the world. -/
inductive Reading (W ε α : Type)
  | done (result : Except ε α)
  | ask (next : W → Reading W ε α)

namespace Reading

/-- One reading after the other; an error is the end of both. -/
def bind : Reading W ε α → (α → Reading W ε β) → Reading W ε β
  | done (.ok a), f => f a
  | done (.error e), _ => done (.error e)
  | ask next, f => ask fun w => (next w).bind f

instance : Monad (Reading W ε) where
  pure a := done (.ok a)
  bind := bind

/-- One look at the world. -/
def look (read : W → Except ε α) : Reading W ε α := ask fun w => done (read w)

/-- The result in a world that stands still. -/
def atOnce (w : W) : Reading W ε α → Except ε α
  | done result => result
  | ask next => (next w).atOnce w

/-- The results of a reading that is shown worlds of a set, in any order. -/
inductive Gives (ws : Set W) : Reading W ε α → Except ε α → Prop
  | done (result : Except ε α) : Gives ws (done result) result
  | ask {next : W → Reading W ε α} {w : W} {result : Except ε α} (hw : w ∈ ws)
      (h : Gives ws (next w) result) : Gives ws (ask next) result

/-- What is left of a reading after some looks at worlds of a set. -/
inductive Rest (ws : Set W) (r : Reading W ε α) : Reading W ε α → Prop
  | refl : Rest ws r r
  | look {next : W → Reading W ε α} {w : W} (h : Rest ws r (ask next)) (hw : w ∈ ws) :
      Rest ws r (next w)

/-- What is left after a number of looks at one world. -/
def after (w : W) : ℕ → Reading W ε α → Option (Reading W ε α)
  | 0, r => some r
  | n + 1, ask next => (next w).after w n
  | _ + 1, done _ => none

variable {ws ws' : Set W} {w : W} {a : α} {b : β} {result : Except ε α} {r r' : Reading W ε α}

/-! ### Results in a world that stands still -/

@[simp] theorem atOnce_pure : (pure a : Reading W ε α).atOnce w = .ok a := rfl

@[simp] theorem atOnce_look (read : W → Except ε α) : (look read).atOnce w = read w := rfl

/-- In a world that stands still the parts of a reading follow each other. -/
@[simp] theorem atOnce_bind (r : Reading W ε α) (f : α → Reading W ε β) :
    (r >>= f).atOnce w = r.atOnce w >>= fun a => (f a).atOnce w := by
  induction r with
  | done result =>
      cases result with
      | error e => rfl
      | ok a => rfl
  | ask next ih => exact ih w

/-! ### Results in a changing world -/

theorem gives_done {result' : Except ε α} :
    Gives ws (done result) result' ↔ result' = result := by
  constructor
  · intro h
    cases h
    rfl
  · rintro rfl
    exact .done _

theorem gives_pure : Gives ws (pure a : Reading W ε α) result ↔ result = .ok a := gives_done

theorem gives_ask {next : W → Reading W ε α} :
    Gives ws (ask next) result ↔ ∃ w ∈ ws, Gives ws (next w) result := by
  constructor
  · intro h
    cases h with
    | ask hw h => exact ⟨_, hw, h⟩
  · rintro ⟨w, hw, h⟩
    exact .ask hw h

/-- A look gives what is read in one of the worlds. -/
theorem gives_look {read : W → Except ε α} :
    Gives ws (look read) result ↔ ∃ w ∈ ws, read w = result := by
  simp only [look, gives_ask, gives_done, eq_comm]

/-- A reading in two parts succeeds with what the second gives for a result of the first. -/
theorem gives_bind {r : Reading W ε α} {f : α → Reading W ε β} :
    Gives ws (r >>= f) (.ok b) ↔ ∃ a, Gives ws r (.ok a) ∧ Gives ws (f a) (.ok b) := by
  induction r with
  | done result =>
      cases result with
      | error e =>
          constructor
          · intro h
            cases h
          · rintro ⟨a, h, -⟩
            cases h
      | ok a =>
          constructor
          · intro h
            exact ⟨a, .done _, h⟩
          · rintro ⟨a', h, hf⟩
            cases h
            exact hf
  | ask next ih =>
      constructor
      · intro h
        obtain ⟨w, hw, h⟩ := gives_ask.1 h
        obtain ⟨a, ha, hf⟩ := (ih w).1 h
        exact ⟨a, .ask hw ha, hf⟩
      · rintro ⟨a, h, hf⟩
        obtain ⟨w, hw, h⟩ := gives_ask.1 h
        exact .ask hw ((ih w).2 ⟨a, h, hf⟩)

/-- With one world only, a reading gives the result in that world. -/
theorem gives_singleton : Gives {w} r result ↔ result = r.atOnce w := by
  induction r with
  | done result => exact gives_done
  | ask next ih =>
      rw [gives_ask]
      constructor
      · rintro ⟨u, rfl, h⟩
        exact (ih u).1 h
      · intro h
        exact ⟨w, rfl, (ih w).2 h⟩

/-! ### What is left of a reading -/

theorem Rest.mono (h : Rest ws r r') (hsub : ws ⊆ ws') : Rest ws' r r' := by
  induction h with
  | refl => exact .refl
  | look _ hw ih => exact ih.look (hsub hw)

/-- What is left of a reading gives no more than the reading does. -/
theorem Rest.gives (h : Rest ws r r') (hgives : Gives ws r' result) : Gives ws r result := by
  induction h with
  | refl => exact hgives
  | look _ hw ih => exact ih (.ask hw hgives)

end Reading

end Moments
