/-
**Retained views that are read again in parts.**

A view of a world consists of sections.  Reading a section gives its value in the present world,
or fails, and reading one section may look at others of the view: an index is read for the table
the view has, not for the one the world has.  A *refresh* reads the sections of a chosen set again
and keeps the others.

A section is *dirty* when its value has changed since it was last read.  Sections that are not
dirty need not be right: a section read for a stale one is wrong although nothing about it has
changed.  What carries over is that a section is right when it and everything it needs are clean,
provided that no refresh reads a section without reading what needs it.

Main definitions:

* `Retained.Sections` — the sections of a view, their values and how they are read;
* `Retained.Sections.Refreshed`, `Retained.Sections.RefreshedDuring` — what a refresh does, at one
  moment or while the world changes;
* `Retained.Sections.Closed` — the sets of sections that are closed under "is needed by";
* `Retained.Sections.Fresh` — the invariant.

Main results:

* `Retained.Sections.Fresh.change`, `Retained.Sections.Fresh.refresh`,
  `Retained.Sections.Fresh.refreshDuring` — what each move preserves;
* `Retained.Sections.Fresh.eq_value` — a view without dirty sections is what a full read gives;
* `Retained.Sections.Refreshed.comp` — where a section looks only at what it needs, a refresh
  followed by one of a closed set is one refresh of both sets.
-/

import Mathlib.Data.Set.Basic
import Mathlib.Logic.Relation
import Mathlib.Order.WellFounded

set_option relaxedAutoImplicit false
set_option autoImplicit false

namespace Retained

/-- The sections of a view: `value w d` is what a full read of the world `w` gives for the section
`d`, `read w v d` what reading it for the view `v` gives, and `needs d e` says that reading `d`
looks at the section `e`. -/
structure Sections (W D ε : Type*) (V : D → Type*) where
  value : W → (d : D) → Except ε (V d)
  read : W → ((d : D) → V d) → (d : D) → Except ε (V d)
  needs : D → D → Prop
  /-- Needs are not circular. -/
  wf : WellFounded fun e d => needs d e
  /-- Reading a section gives its value when the sections it needs have theirs. -/
  read_eq : ∀ {w v d}, (∀ e, needs d e → value w e = .ok (v e)) → read w v d = value w d

namespace Sections

variable {W D ε : Type*} {V : D → Type*} (S : Sections W D ε V)

/-- `v'` is the view `v` after the sections in `P` were read again. -/
structure Refreshed (w : W) (P : Set D) (v v' : (d : D) → V d) : Prop where
  read : ∀ d ∈ P, S.read w v' d = .ok (v' d)
  kept : ∀ d, d ∉ P → v' d = v d

/-- `v'` is the view `v` after the sections in `P` were read again while the world changed: each was
read in one of the worlds of `ws`, for what the view has in the end. -/
structure RefreshedDuring (ws : Set W) (P : Set D) (v v' : (d : D) → V d) : Prop where
  read : ∀ d ∈ P, ∃ w ∈ ws, S.read w v' d = .ok (v' d)
  kept : ∀ d, d ∉ P → v' d = v d

/-- Whatever needs a section of the set is in the set. -/
def Closed (P : Set D) : Prop := ∀ d e, S.needs d e → e ∈ P → d ∈ P

/-- Reading a section looks at the sections that it needs only. -/
def Local : Prop :=
  ∀ w v v' d, (∀ e, S.needs d e → v e = v' e) → S.read w v d = S.read w v' d

/-- The sections whose value differs in two worlds. -/
def altered (w w' : W) : Set D := {d | S.value w d ≠ S.value w' d}

/-- A section has its value when it and everything it needs are clean. -/
def Fresh (w : W) (dirty : Set D) (v : (d : D) → V d) : Prop :=
  ∀ d, (∀ e, Relation.ReflTransGen S.needs d e → e ∉ dirty) → S.value w d = .ok (v d)

variable {S} {w w' : W} {dirty P : Set D} {v v' : (d : D) → V d}

theorem Closed.reflTransGen (hP : S.Closed P) {d e : D} (h : Relation.ReflTransGen S.needs d e)
    (he : e ∈ P) : d ∈ P := by
  induction h with
  | refl => exact he
  | tail _ hne ih => exact ih (hP _ _ hne he)

/-- A view all of whose sections were read is fresh, whatever is dirty. -/
theorem Fresh.of_read (h : ∀ d, S.value w d = .ok (v d)) : S.Fresh w dirty v := fun d _ => h d

/-- More sections may be called dirty. -/
theorem Fresh.mono {dirty' : Set D} (h : S.Fresh w dirty v) (hsub : dirty ⊆ dirty') :
    S.Fresh w dirty' v := fun d hclean => h d fun e hde he => hclean e hde (hsub he)

/-- A change of the world makes the sections dirty whose value it alters. -/
theorem Fresh.change (h : S.Fresh w dirty v) : S.Fresh w' (dirty ∪ S.altered w w') v := by
  intro d hclean
  have hsame : S.value w d = S.value w' d := by
    by_contra hne
    exact hclean d Relation.ReflTransGen.refl (Or.inr hne)
  rw [← hsame]
  exact h d fun e hde he => hclean e hde (Or.inl he)

/-- A refresh of a closed set cleans its sections. -/
theorem Fresh.refresh (h : S.Fresh w dirty v) (hP : S.Closed P) (hr : S.Refreshed w P v v') :
    S.Fresh w (dirty \ P) v' := by
  intro d
  -- the sections needed have their values first
  induction d using S.wf.induction with
  | _ d ih =>
      intro hclean
      by_cases hd : d ∈ P
      · have hneeds : ∀ e, S.needs d e → S.value w e = .ok (v' e) := by
          intro e hde
          exact ih e hde fun e' he' => hclean e' (Relation.ReflTransGen.head hde he')
        rw [← S.read_eq hneeds]
        exact hr.read d hd
      · -- nothing `d` needs was read, so nothing it needs is dirty
        rw [hr.kept d hd]
        refine h d fun e hde he => hclean e hde ⟨he, fun heP => hd ?_⟩
        exact hP.reflTransGen hde heP

/-- A refresh of a closed set that took some time cleans its sections, but for those that have not
kept their value all the time. -/
theorem Fresh.refreshDuring {ws : Set W} {during : Set D} (h : S.Fresh w dirty v)
    (hP : S.Closed P) (hr : S.RefreshedDuring ws P v v')
    (hsame : ∀ u ∈ ws, ∀ d, d ∉ during → S.value u d = S.value w d) :
    S.Fresh w (dirty \ P ∪ during) v' := by
  intro d
  -- the sections needed have their values first
  induction d using S.wf.induction with
  | _ d ih =>
      intro hclean
      by_cases hd : d ∈ P
      · obtain ⟨u, hu, hread⟩ := hr.read d hd
        have hneeds : ∀ e, S.needs d e → S.value u e = .ok (v' e) := by
          intro e hde
          have he : e ∉ during := fun he => hclean e (.single hde) (Or.inr he)
          rw [hsame u hu e he]
          exact ih e hde fun e' he' => hclean e' (Relation.ReflTransGen.head hde he')
        have hkeeps : d ∉ during := fun hin => hclean d .refl (Or.inr hin)
        rw [← hsame u hu d hkeeps, ← S.read_eq hneeds]
        exact hread
      · -- nothing `d` needs was read, so nothing it needs is dirty
        rw [hr.kept d hd]
        refine h d fun e hde he => hclean e hde (Or.inl ⟨he, fun heP => hd ?_⟩)
        exact hP.reflTransGen hde heP

/-- Reading some sections and then those of a closed set is reading both: what was read first does
not look at what is read after it. -/
theorem Refreshed.comp {Q : Set D} {v'' : (d : D) → V d} (hlocal : S.Local) (hQ : S.Closed Q)
    (h : S.Refreshed w P v v') (h' : S.Refreshed w Q v' v'') : S.Refreshed w (P ∪ Q) v v'' where
  read d hd := by
    by_cases hdQ : d ∈ Q
    · exact h'.read d hdQ
    · have hneeds : ∀ e, S.needs d e → v'' e = v' e :=
        fun e hde => h'.kept e fun heQ => hdQ (hQ d e hde heQ)
      rw [hlocal w v'' v' d hneeds, h'.kept d hdQ]
      exact h.read d (hd.resolve_right hdQ)
  kept d hd := by
    rw [h'.kept d fun hdQ => hd (Or.inr hdQ)]
    exact h.kept d fun hdP => hd (Or.inl hdP)

/-- A refresh of no section keeps the view. -/
theorem refreshed_empty_iff : S.Refreshed w ∅ v v' ↔ v' = v := by
  constructor
  · intro h
    exact funext fun d => h.kept d (Set.notMem_empty d)
  · rintro rfl
    exact ⟨fun d hd => absurd hd (Set.notMem_empty d), fun _ _ => rfl⟩

/-- A refresh of all sections is a full read. -/
theorem refreshed_univ_iff : S.Refreshed w Set.univ v v' ↔ ∀ d, S.value w d = .ok (v' d) := by
  constructor
  · intro h d
    -- the sections needed have their values first
    induction d using S.wf.induction with
    | _ d ih =>
        rw [← S.read_eq ih]
        exact h.read d (Set.mem_univ d)
  · intro h
    refine ⟨fun d _ => ?_, fun d hd => absurd (Set.mem_univ d) hd⟩
    rw [S.read_eq fun e _ => h e]
    exact h d

/-- A view without dirty sections is what a full read gives. -/
theorem Fresh.eq_value (h : S.Fresh w ∅ v) (d : D) : S.value w d = .ok (v d) :=
  h d fun _ _ he => he

end Sections

end Retained
