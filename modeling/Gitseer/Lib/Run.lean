/-
**Labelled runs of a step relation.**

A system is a relation `step s l s'`: from the state `s` it can move to `s'`, and `l` is what an
observer sees of the move.  A *run* is a finite sequence of moves together with the list of their
labels, oldest first.  What is said about "whole runs" in this project is a statement about
`Lts.Run`, and its proof is an induction on the run that adds one move at the end.

Main definitions:

* `Lts.Run` — the runs from a given state.

Main results:

* `Lts.Run.invariant` — what every step preserves holds at the end;
* `Lts.Run.mono`, `Lts.Run.map` — runs of a smaller relation are runs of a larger one, with the same
  labels or others;
* `Lts.Run.project` — and so is what is seen of a run;
* `Lts.Run.split`, `Lts.Run.uncons` — a run is split where its labels are;
* `Lts.Run.step_of_mem` — every label of a run is that of a move.
-/

import Mathlib.Data.List.Basic

set_option relaxedAutoImplicit false
set_option autoImplicit false

namespace Lts

variable {S L : Type*}

/-- A run: from `s₀`, the labels of the moves in order, and the state reached. -/
inductive Run (step : S → L → S → Prop) (s₀ : S) : List L → S → Prop
  | nil : Run step s₀ [] s₀
  | snoc {ls : List L} {s : S} {l : L} {s' : S} :
      Run step s₀ ls s → step s l s' → Run step s₀ (ls ++ [l]) s'

namespace Run

variable {step : S → L → S → Prop} {s₀ s s' : S} {ls : List L} {l : L}

theorem single (h : step s₀ l s') : Run step s₀ [l] s' := Run.nil.snoc h

/-- Runs compose. -/
theorem append {ls' : List L} (h : Run step s₀ ls s) (h' : Run step s ls' s') :
    Run step s₀ (ls ++ ls') s' := by
  induction h' with
  | nil => simpa using h
  | snoc _ hs ih => rw [← List.append_assoc]; exact ih.snoc hs

/-- A first move can be put in front of a run. -/
theorem cons {s₁ : S} (h : step s₀ l s₁) (h' : Run step s₁ ls s') : Run step s₀ (l :: ls) s' :=
  (single h).append h'

/-- Runs of a smaller step relation are runs of a larger one. -/
theorem mono {step' : S → L → S → Prop} (hsub : ∀ s l s', step s l s' → step' s l s')
    (h : Run step s₀ ls s) : Run step' s₀ ls s := by
  induction h with
  | nil => exact Run.nil
  | snoc _ hs ih => exact ih.snoc (hsub _ _ _ hs)

/-- What is seen of a run, of its states and of its labels, is a run when it is of every move. -/
theorem project {T M : Type*} {step' : T → M → T → Prop} (g : S → T) (f : L → M)
    (hmap : ∀ s l s', step s l s' → step' (g s) (f l) (g s')) (h : Run step s₀ ls s) :
    Run step' (g s₀) (ls.map f) (g s) := by
  induction h with
  | nil => exact Run.nil
  | snoc _ hs ih =>
      rw [List.map_append]
      exact ih.snoc (hmap _ _ _ hs)

/-- A run of one relation is a run of another one that calls its moves by other labels. -/
theorem map {M : Type*} {step' : S → M → S → Prop} (f : L → M)
    (hmap : ∀ s l s', step s l s' → step' s (f l) s') (h : Run step s₀ ls s) :
    Run step' s₀ (ls.map f) s := h.project id f hmap

/-- What holds of the first state and is preserved by every move holds of the last one. -/
theorem invariant {I : S → Prop} (h₀ : I s₀) (hstep : ∀ s l s', I s → step s l s' → I s')
    (h : Run step s₀ ls s) : I s := by
  induction h with
  | nil => exact h₀
  | snoc _ hs ih => exact hstep _ _ _ ih hs

/-- A run is split where its labels are. -/
theorem split {ls' : List L} (h : Run step s₀ (ls ++ ls') s) :
    ∃ u, Run step s₀ ls u ∧ Run step u ls' s := by
  generalize hall : ls ++ ls' = all at h
  induction h generalizing ls' with
  | nil =>
      obtain ⟨rfl, rfl⟩ := List.append_eq_nil_iff.1 hall
      exact ⟨s₀, nil, nil⟩
  | @snoc all t m t' hrun hs ih =>
      -- the last move belongs to the second part, unless that is empty
      rcases List.eq_nil_or_concat ls' with rfl | ⟨rest, l, rfl⟩
      · rw [List.append_nil] at hall
        subst hall
        exact ⟨t', hrun.snoc hs, nil⟩
      · rw [List.concat_eq_append, ← List.append_assoc] at hall
        obtain ⟨rfl, hlast⟩ := List.append_inj' hall rfl
        obtain rfl := List.cons.inj hlast |>.1
        obtain ⟨u, hfirst, hrest⟩ := ih rfl
        rw [List.concat_eq_append]
        exact ⟨u, hfirst, hrest.snoc hs⟩

theorem eq_of_nil (h : Run step s₀ [] s) : s = s₀ := by
  generalize hls : [] = ls at h
  cases h with
  | nil => rfl
  | snoc hrun hs => simp at hls

/-- A run with a first label begins with a move of that label. -/
theorem uncons (h : Run step s₀ (l :: ls) s) : ∃ u, step s₀ l u ∧ Run step u ls s := by
  obtain ⟨u, hfirst, hrest⟩ := (show Run step s₀ ([l] ++ ls) s from h).split
  generalize hl : [l] = first at hfirst
  cases hfirst with
  | nil => cases hl
  | @snoc ls t m t' hrun hs =>
      obtain ⟨rfl, hm⟩ := List.append_inj' (show [] ++ [l] = ls ++ [m] from hl) rfl
      obtain rfl := List.cons.inj hm |>.1
      obtain rfl := hrun.eq_of_nil
      exact ⟨u, hs, hrest⟩

/-- Every label of a run is that of a move, with a run before it and a run after it. -/
theorem step_of_mem (h : Run step s₀ ls s) (hl : l ∈ ls) :
    ∃ before t t' after, ls = before ++ l :: after ∧
      Run step s₀ before t ∧ step t l t' ∧ Run step t' after s := by
  obtain ⟨before, after, rfl⟩ := List.append_of_mem hl
  obtain ⟨t, hbefore, hrest⟩ := h.split
  obtain ⟨t', hstep, hafter⟩ := hrest.uncons
  exact ⟨before, t, t', after, rfl, hbefore, hstep, hafter⟩

end Run

end Lts
