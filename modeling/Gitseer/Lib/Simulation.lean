/-
**Simulations that show the same.**

A concrete system is simulated by an abstract one when every move of the concrete system is matched
by a run of the abstract one that shows the same, be it no move at all, one move or several.  What a
move shows is a list, so that a run shows what its moves show, one after the other.

Main definitions:

* `Lts.Simulates` — every move is matched by a run that shows the same.

Main results:

* `Lts.Simulates.run` — then every run is matched by a run that shows the same.
-/

import Gitseer.Lib.Run

set_option relaxedAutoImplicit false
set_option autoImplicit false

namespace Lts

variable {S T L M O : Type*}

/-- Every move between related states is matched by a run that shows the same and leads to related
states. -/
def Simulates (step : S → L → S → Prop) (step' : T → M → T → Prop) (R : S → T → Prop)
    (out : L → List O) (out' : M → List O) : Prop :=
  ∀ s l s' t, step s l s' → R s t →
    ∃ ms t', Run step' t ms t' ∧ R s' t' ∧ ms.flatMap out' = out l

section

variable {step : S → L → S → Prop} {step' : T → M → T → Prop} {R : S → T → Prop}
  {out : L → List O} {out' : M → List O}

/-- A move that shows nothing and stays related is matched by no move. -/
theorem exists_matched_stutter {s' : S} {t : T} {l : L} (hR : R s' t) (hout : out l = []) :
    ∃ ms t', Run step' t ms t' ∧ R s' t' ∧ ms.flatMap out' = out l :=
  ⟨[], t, Run.nil, hR, by rw [hout]; rfl⟩

/-- A move is matched by one move that shows the same. -/
theorem exists_matched_move {s' : S} {t t' : T} {l : L} {m : M} (hstep : step' t m t')
    (hR : R s' t') (hout : out' m = out l) :
    ∃ ms t', Run step' t ms t' ∧ R s' t' ∧ ms.flatMap out' = out l :=
  ⟨[m], t', Run.single hstep, hR, by rw [List.flatMap_singleton, hout]⟩

/-- Every run is matched by a run that shows the same. -/
theorem Simulates.run (hsim : Simulates step step' R out out') {s s' : S} {t : T} {ls : List L}
    (h : Run step s ls s') (hR : R s t) :
    ∃ ms t', Run step' t ms t' ∧ R s' t' ∧ ms.flatMap out' = ls.flatMap out := by
  induction h with
  | nil => exact ⟨[], t, Run.nil, hR, rfl⟩
  | snoc _ hs ih =>
      obtain ⟨ms, u, hrun, hu, hout⟩ := ih
      obtain ⟨ms', u', hrun', hu', hout'⟩ := hsim _ _ _ _ hs hu
      refine ⟨ms ++ ms', u', hrun.append hrun', hu', ?_⟩
      rw [List.flatMap_append, List.flatMap_append, hout, hout', List.flatMap_singleton]

end

end Lts
