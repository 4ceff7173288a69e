/-
**Two runs that differ in insertions.**

Two runs of a labelled transition system are laid side by side: some moves are shared, and the
second run has further moves in between.  When the system is deterministic in what it is given and
the further moves leave the state alone, they cannot be noticed: the shared moves have the same
labels in both runs, outputs included, and the runs end in the same state.

Main definitions:

* `Interference.Slot` — a shared move, with its label in either run, or one of the second run only;
* `Interference.first`, `Interference.second` — the labels of the two runs;
* `Interference.Deterministic`, `Interference.Ignores` — what is asked of the system.

Main results:

* `Interference.runs_agree` — the two runs agree in all shared moves and in their last state;
* `Interference.exists_second` — where inert moves are answered, there is such a second run.
-/

import Gitseer.Lib.Run

set_option relaxedAutoImplicit false
set_option autoImplicit false

namespace Interference

variable {S L E : Type}

/-- A move of the two runs. -/
inductive Slot (L : Type)
  | shared (l l' : L)
  | extra (l' : L)

/-- The labels of the first run. -/
def first : List (Slot L) → List L
  | [] => []
  | .shared l _ :: slots => l :: first slots
  | .extra _ :: slots => first slots

/-- The labels of the second run. -/
def second : List (Slot L) → List L
  | [] => []
  | .shared _ l' :: slots => l' :: second slots
  | .extra l' :: slots => l' :: second slots

/-- The shared moves are given the same, and the further moves are inert. -/
def Aligned (event : L → E) (Inert : E → Prop) (slots : List (Slot L)) : Prop :=
  ∀ slot ∈ slots, match slot with
    | .shared l l' => event l = event l'
    | .extra l' => Inert (event l')

/-- What the system is given determines the label and the next state. -/
def Deterministic (step : S → L → S → Prop) (event : L → E) : Prop :=
  ∀ s l l' s' t', step s l s' → step s l' t' → event l = event l' → l = l' ∧ s' = t'

/-- Inert moves leave the state alone. -/
def Ignores (step : S → L → S → Prop) (event : L → E) (Inert : E → Prop) : Prop :=
  ∀ s l s', step s l s' → Inert (event l) → s' = s

/-- Inert moves between the moves of a deterministic system cannot be noticed. -/
theorem runs_agree {step : S → L → S → Prop} {event : L → E} {Inert : E → Prop}
    (hdet : Deterministic step event) (hinert : Ignores step event Inert)
    {slots : List (Slot L)} {s t t' : S} (haligned : Aligned event Inert slots)
    (hfirst : Lts.Run step s (first slots) t) (hsecond : Lts.Run step s (second slots) t') :
    t' = t ∧ ∀ l l', Slot.shared l l' ∈ slots → l' = l := by
  induction slots generalizing s with
  | nil =>
      rw [hfirst.eq_of_nil, hsecond.eq_of_nil]
      exact ⟨rfl, by simp⟩
  | cons slot slots ih =>
      have hslot := haligned slot (List.mem_cons_self ..)
      have hrest : Aligned event Inert slots :=
        fun slot' hmem => haligned slot' (List.mem_cons_of_mem _ hmem)
      cases slot with
      | shared l l' =>
          obtain ⟨u, hl, hfirst'⟩ := Lts.Run.uncons hfirst
          obtain ⟨u', hl', hsecond'⟩ := Lts.Run.uncons hsecond
          obtain ⟨rfl, rfl⟩ := hdet _ _ _ _ _ hl hl' hslot
          obtain ⟨hlast, hshared⟩ := ih hrest hfirst' hsecond'
          refine ⟨hlast, ?_⟩
          intro m m' hmem
          rcases List.mem_cons.1 hmem with heq | hmem
          · obtain ⟨rfl, rfl⟩ := Slot.shared.inj heq
            rfl
          · exact hshared m m' hmem
      | extra l' =>
          obtain ⟨u', hl', hsecond'⟩ := Lts.Run.uncons hsecond
          -- the second run stays where it was
          obtain rfl := hinert _ _ _ hl' hslot
          obtain ⟨hlast, hshared⟩ := ih hrest hfirst hsecond'
          refine ⟨hlast, ?_⟩
          intro m m' hmem
          rcases List.mem_cons.1 hmem with heq | hmem
          · cases heq
          · exact hshared m m' hmem

/-- Where inert moves are answered, a run can be given them at any positions: a plan has the labels
of the run, and what is to be given in between. -/
theorem exists_second {step : S → L → S → Prop} {event : L → E} {Inert : E → Prop} {I : S → Prop}
    (hkeeps : ∀ s l s', I s → step s l s' → I s')
    (hanswers : ∀ s e, I s → Inert e → ∃ l, event l = e ∧ step s l s) {plan : List (L ⊕ E)}
    {s t : S} (hI : I s) (hplan : ∀ e, .inr e ∈ plan → Inert e)
    (hrun : Lts.Run step s (plan.filterMap Sum.getLeft?) t) :
    ∃ slots, Aligned event Inert slots ∧ first slots = plan.filterMap Sum.getLeft? ∧
      (second slots).map event = plan.map (Sum.elim event id) ∧
      Lts.Run step s (second slots) t := by
  induction plan generalizing s with
  | nil => exact ⟨[], by simp [Aligned], rfl, rfl, hrun⟩
  | cons item plan ih =>
      have hlater : ∀ e, .inr e ∈ plan → Inert e := fun e he => hplan e (List.mem_cons_of_mem _ he)
      cases item with
      | inl l =>
          obtain ⟨u, hl, hrest⟩ := Lts.Run.uncons hrun
          obtain ⟨slots, haligned, hfirst, hsecond, hruns⟩ := ih (hkeeps _ _ _ hI hl) hlater hrest
          refine ⟨.shared l l :: slots, List.forall_mem_cons.2 ⟨rfl, haligned⟩, ?_, ?_,
            hruns.cons hl⟩
          · exact congrArg (l :: ·) hfirst
          · exact congrArg (event l :: ·) hsecond
      | inr e =>
          have hinert := hplan e List.mem_cons_self
          obtain ⟨l, rfl, hl⟩ := hanswers s e hI hinert
          obtain ⟨slots, haligned, hfirst, hsecond, hruns⟩ := ih hI hlater hrun
          refine ⟨.extra l :: slots, List.forall_mem_cons.2 ⟨hinert, haligned⟩, hfirst, ?_,
            hruns.cons hl⟩
          exact congrArg (event l :: ·) hsecond

end Interference
