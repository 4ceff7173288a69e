/-
**Replicas fed by full states and patches.**

A publisher owns a state and tells its replicas about it by *publications*: the full state, or a
patch against the state published before.  Every publication has a version, and a patch names the
version it applies to.  A replica that receives all publications in order holds the publisher's
state as long as every step of the publisher publishes what takes the old state to the new one; and
it can tell that it received all of them by the versions, which then count up by one.

Main definitions:

* `Replica.Publication`, `Replica.receiveAll` — publications, and the copy of a replica;
* `Replica.Based` — every patch has a full state before it;
* `Replica.Chained` — the publications after a given version count up from it, and every patch
  names the version before its own.

Main results:

* `Replica.based_iff` — every patch has a full state before it exactly when no patch comes first;
* `Replica.run_copy` — if every step publishes what takes the old state to the new one, the copy of
  a replica agrees with the state after every run;
* `Replica.run_related` — the same for any relation of copies and states;
* `Replica.run_related_of_prefix` — what is left of it when the transfer breaks off;
* `Replica.chained_append`, `Replica.Chained.versions` — chains compose, and the versions of a
  chain are consecutive.
-/

import Gitseer.Lib.Run

set_option relaxedAutoImplicit false
set_option autoImplicit false

namespace Replica

/-- A full state, or a patch against the state of an earlier version. -/
inductive Publication (S P : Type*)
  | full (version : ℕ) (state : S)
  | delta (previous version : ℕ) (patch : P)

variable {S P : Type*}

/-- The version of a publication. -/
def Publication.version : Publication S P → ℕ
  | .full version _ => version
  | .delta _ version _ => version

/-- The publication is a full state. -/
def Publication.isFull : Publication S P → Bool
  | .full _ _ => true
  | .delta _ _ _ => false

/-! ### Patches and the full states before them -/

/-- Every patch of the list has a full state before it. -/
def Based (ps : List (Publication S P)) : Prop :=
  ∀ before p after, ps = before ++ p :: after → p.isFull = false → ∃ q ∈ before, q.isFull = true

/-- The list does not begin with a patch. -/
theorem based_iff {ps : List (Publication S P)} :
    Based ps ↔ ∀ p ∈ ps.head?, p.isFull = true := by
  constructor
  · intro h p hp
    obtain ⟨after, rfl⟩ := List.head?_eq_some_iff.1 hp
    by_contra hfull
    obtain ⟨q, hq, -⟩ := h [] p after rfl (by simpa using hfull)
    cases hq
  · rintro h before p after rfl hp
    cases before with
    | nil =>
        have hfull := h p rfl
        rw [hp] at hfull
        cases hfull
    | cons q before => exact ⟨q, List.mem_cons_self .., h q rfl⟩

theorem based_nil : Based ([] : List (Publication S P)) := based_iff.2 (by simp)

/-- What comes after the first publication does not matter. -/
theorem Based.append {ps qs : List (Publication S P)} (h : Based ps) (hne : ps ≠ []) :
    Based (ps ++ qs) := by
  rw [based_iff] at h ⊢
  intro p hp
  rw [List.head?_append_of_ne_nil _ hne] at hp
  exact h p hp

/-! ### The copy of a replica -/

/-- A replica takes over a full state and applies a patch to its copy, if it has one. -/
def receive (apply : S → P → S) (copy : Option S) : Publication S P → Option S
  | .full _ state => some state
  | .delta _ _ patch => copy.map fun state => apply state patch

/-- The copy after all publications of a list, oldest first. -/
def receiveAll (apply : S → P → S) (copy : Option S) (ps : List (Publication S P)) : Option S :=
  ps.foldl (receive apply) copy

theorem receiveAll_append (apply : S → P → S) (copy : Option S) (ps qs : List (Publication S P)) :
    receiveAll apply copy (ps ++ qs) = receiveAll apply (receiveAll apply copy ps) qs := by
  simp [receiveAll, List.foldl_append]

/-- If every step publishes what takes the old state to the new one, the copy agrees with the
state after every run. -/
theorem run_copy {State Label : Type*} {step : State → Label → State → Prop} {s₀ s : State}
    {ls : List Label} {apply : S → P → S} (current : State → Option S)
    (published : Label → List (Publication S P))
    (hstep : ∀ s l s', step s l s' → receiveAll apply (current s) (published l) = current s')
    (h : Lts.Run step s₀ ls s) :
    receiveAll apply (current s₀) (ls.flatMap published) = current s := by
  induction h with
  | nil => rfl
  | snoc _ hs ih =>
      rw [List.flatMap_append, receiveAll_append, ih]
      simpa using hstep _ _ _ hs

/-- What every step keeps between the copy and the state, by what it publishes, holds after every
run. -/
theorem run_related {State Label : Type*} {step : State → Label → State → Prop} {s₀ s : State}
    {ls : List Label} {apply : S → P → S} {copy : Option S} (related : Option S → State → Prop)
    (published : Label → List (Publication S P)) (h₀ : related copy s₀)
    (hstep : ∀ s l s' copy, step s l s' → related copy s →
      related (receiveAll apply copy (published l)) s')
    (h : Lts.Run step s₀ ls s) :
    related (receiveAll apply copy (ls.flatMap published)) s := by
  induction h with
  | nil => exact h₀
  | snoc _ hs ih =>
      rw [List.flatMap_append, receiveAll_append, List.flatMap_singleton]
      exact hstep _ _ _ _ hs ih

/-! ### Transfers that break off -/

/-- When none of the parts shows more than one item, what is seen of the beginning of the parts is
what is seen of the first of them. -/
theorem exists_parts_of_prefix {Label M V : Type*} (out : Label → List M) (see : M → Option V)
    {ls : List Label} (hone : ∀ l ∈ ls, ((out l).filterMap see).length ≤ 1) {cut : List M}
    (hcut : cut <+: ls.flatMap out) :
    ∃ before after, ls = before ++ after ∧
      cut.filterMap see = before.flatMap fun l => (out l).filterMap see := by
  induction ls generalizing cut with
  | nil =>
      obtain rfl := List.prefix_nil.1 hcut
      exact ⟨[], [], rfl, rfl⟩
  | cons l ls ih =>
      obtain ⟨hl, hls⟩ := List.forall_mem_cons.1 hone
      rw [List.flatMap_cons] at hcut
      rcases List.prefix_or_prefix_of_prefix hcut (List.prefix_append _ _) with hwithin | hfirst
      · -- the transfer breaks off within the first part, before its item or after it
        have hseen := hwithin.filterMap see
        cases hitems : cut.filterMap see with
        | nil => exact ⟨[], l :: ls, rfl, rfl⟩
        | cons item items =>
            have hle : ((out l).filterMap see).length ≤ (cut.filterMap see).length := by
              rw [hitems, List.length_cons]
              omega
            refine ⟨[l], ls, rfl, ?_⟩
            rw [← hitems, hseen.eq_of_length_le hle, List.flatMap_singleton]
      · obtain ⟨more, rfl⟩ := hfirst
        rw [List.prefix_append_right_inj] at hcut
        obtain ⟨before, after, rfl, hseen⟩ := ih hls hcut
        exact ⟨l :: before, after, rfl, by rw [List.filterMap_append, hseen, List.flatMap_cons]⟩

/-- A replica for which the transfer of a run breaks off is related to one of the states of the
run. -/
theorem run_related_of_prefix {State Label M : Type*} {step : State → Label → State → Prop}
    {s₀ s : State} {ls : List Label} {apply : S → P → S} {copy : Option S}
    (related : Option S → State → Prop) (out : Label → List M) (see : M → Option (Publication S P))
    (h₀ : related copy s₀)
    (hstep : ∀ s l s' copy, step s l s' → related copy s →
      related (receiveAll apply copy ((out l).filterMap see)) s')
    (hone : ∀ s l s', step s l s' → ((out l).filterMap see).length ≤ 1)
    (h : Lts.Run step s₀ ls s) {cut : List M} (hcut : cut <+: ls.flatMap out) :
    ∃ before after u, ls = before ++ after ∧ Lts.Run step s₀ before u ∧ Lts.Run step u after s ∧
      related (receiveAll apply copy (cut.filterMap see)) u := by
  have hparts : ∀ l ∈ ls, ((out l).filterMap see).length ≤ 1 := by
    intro l hl
    obtain ⟨-, t, t', -, -, -, hs, -⟩ := h.step_of_mem hl
    exact hone t l t' hs
  obtain ⟨before, after, rfl, hseen⟩ := exists_parts_of_prefix out see hparts hcut
  obtain ⟨u, hbefore, hafter⟩ := h.split
  refine ⟨before, after, u, rfl, hbefore, hafter, ?_⟩
  rw [hseen]
  exact run_related related (fun l => (out l).filterMap see) h₀ hstep hbefore

/-! ### Versions -/

/-- The publication takes the version after `last`.  A patch names `last`, and is not the first
publication: versions start at one. -/
def Publication.Follows (last : ℕ) : Publication S P → Prop
  | .full version _ => version = last + 1
  | .delta previous version _ => last ≠ 0 ∧ previous = last ∧ version = last + 1

/-- Every publication of the list follows the one before it, and the first one follows `last`. -/
def Chained : ℕ → List (Publication S P) → Prop
  | _, [] => True
  | last, p :: ps => p.Follows last ∧ Chained (last + 1) ps

theorem Publication.Follows.version_eq {last : ℕ} {p : Publication S P} (h : p.Follows last) :
    p.version = last + 1 := by
  cases p with
  | full version state => exact h
  | delta previous version patch => exact h.2.2

/-- Chains compose. -/
theorem chained_append {n : ℕ} {ps qs : List (Publication S P)} :
    Chained n (ps ++ qs) ↔ Chained n ps ∧ Chained (n + ps.length) qs := by
  induction ps generalizing n with
  | nil => simp [Chained]
  | cons p ps ih =>
      have hlen : n + (p :: ps).length = n + 1 + ps.length := by
        rw [List.length_cons]
        omega
      rw [List.cons_append, Chained, Chained, ih, hlen, and_assoc]

/-- The versions of a chain are consecutive. -/
theorem Chained.versions {n : ℕ} {ps : List (Publication S P)} (h : Chained n ps) :
    ps.map Publication.version = List.range' (n + 1) ps.length := by
  induction ps generalizing n with
  | nil => rfl
  | cons p ps ih =>
      obtain ⟨hp, hps⟩ := h
      rw [List.map_cons, ih hps, hp.version_eq, List.length_cons, List.range'_succ]

end Replica
