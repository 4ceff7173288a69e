/-
**Replicas that check versions.**

A replica that receives all publications in order need not look at versions.  One that may miss
some, or get them twice or out of order, keeps the version of its copy and applies a patch only when
the patch names that version.  It may then stay behind, but it never holds a state that the
publisher did not have.

What makes this work is that the versions of a run identify states: there is a *history*, which maps
every version to the state the publisher had under it, and every publication of the run is true to
it.  A step that changes the state under the same version would break this, however it publishes.

Main definitions:

* `Replica.checkedAll` — the copy of a replica that checks versions;
* `Replica.Publication.TrueTo` — the publication is true to a history;
* `Replica.Publishes` — a step keeps state and version, or takes the next version for its state.

Main results:

* `Replica.checkedAll_true` — from publications that are true to a history a replica gets states of
  that history;
* `Replica.exists_history` — the publications of a run are true to a history of its states;
* `Replica.run_checked` — whatever publications of a run a replica receives, its copy is a state of
  the run, and the last one when it has the last version.
-/

import Mathlib.Data.List.Induction
import Mathlib.Logic.Function.Basic
import Gitseer.Lib.Replica

set_option relaxedAutoImplicit false
set_option autoImplicit false

namespace Replica

variable {S P : Type*}

/-! ### Checking versions -/

/-- A full state is taken over; a patch is applied when it names the version of the copy. -/
def checked (apply : S → P → S) (copy : Option (ℕ × S)) : Publication S P → Option (ℕ × S)
  | .full version state => some (version, state)
  | .delta previous version patch =>
      copy.map fun (v, state) => if v = previous then (version, apply state patch) else (v, state)

/-- The copy after the publications of a list, in the order in which they are received. -/
def checkedAll (apply : S → P → S) (ps : List (Publication S P)) : Option (ℕ × S) :=
  ps.foldl (checked apply) none

/-! ### Histories -/

/-- What the publication says of its versions is what the history says. -/
def Publication.TrueTo (apply : S → P → S) (history : ℕ → Option S) : Publication S P → Prop
  | .full version state => history version = some state
  | .delta previous version patch =>
      ∃ state, history previous = some state ∧ history version = some (apply state patch)

/-- The second history has every state of the first one. -/
def Extends (history history' : ℕ → Option S) : Prop :=
  ∀ v state, history v = some state → history' v = some state

section

variable {apply : S → P → S} {history history' : ℕ → Option S} {v : ℕ} {state : S}

theorem Publication.TrueTo.mono {p : Publication S P} (h : p.TrueTo apply history)
    (hextends : Extends history history') : p.TrueTo apply history' := by
  cases p with
  | full version state => exact hextends _ _ h
  | delta previous version patch =>
      obtain ⟨state, hprevious, hversion⟩ := h
      exact ⟨state, hextends _ _ hprevious, hextends _ _ hversion⟩

/-- A history is extended by a state under a version it does not have. -/
theorem extends_update (hnone : history v = none) :
    Extends history (Function.update history v (some state)) := by
  intro w state' hw
  rw [Function.update_of_ne]
  · exact hw
  · rintro rfl
    rw [hnone] at hw
    cases hw

/-- The copy is a state of the history, under its own version. -/
theorem checkedAll_true {ps : List (Publication S P)} (htrue : ∀ p ∈ ps, p.TrueTo apply history)
    (h : checkedAll apply ps = some (v, state)) : history v = some state := by
  induction ps using List.reverseRecOn generalizing v state with
  | nil => cases h
  | append_singleton ps p ih =>
      have hps : ∀ q ∈ ps, q.TrueTo apply history := fun q hq =>
        htrue q (List.mem_append_left _ hq)
      have hp := htrue p (List.mem_append_right _ (List.mem_singleton.2 rfl))
      rw [checkedAll, List.foldl_append] at h
      cases p with
      | full version state' =>
          obtain ⟨rfl, rfl⟩ := Prod.mk.inj (Option.some.inj h)
          exact hp
      | delta previous version patch =>
          obtain ⟨⟨w, old⟩, hcopy, hnew⟩ := Option.map_eq_some_iff.1 h
          have hold := ih hps hcopy
          dsimp only at hnew
          split at hnew
          · next heq =>
              -- the copy had the version the patch names
              obtain ⟨rfl, rfl⟩ := Prod.mk.inj hnew
              obtain ⟨state', hprevious, hversion⟩ := hp
              rw [← heq, hold] at hprevious
              rw [Option.some.inj hprevious]
              exact hversion
          · obtain ⟨rfl, rfl⟩ := Prod.mk.inj hnew
            exact hold

end

/-! ### The history of a run -/

/-- A step of a publisher: it keeps version and state and publishes nothing, or it takes the next
version for its state, which every publication of the step gives or leads to. -/
def Publishes (apply : S → P → S) (version : ℕ) (current : Option S) (ps : List (Publication S P))
    (version' : ℕ) (current' : Option S) : Prop :=
  version' = version ∧ current' = current ∧ ps = [] ∨
  version' = version + 1 ∧ ∃ state, current' = some state ∧ ∀ p ∈ ps,
    p = .full (version + 1) state ∨
    ∃ old patch, current = some old ∧ p = .delta version (version + 1) patch ∧
      apply old patch = state

section

variable {State Label : Type*} {step : State → Label → State → Prop} {s₀ s : State}
  {ls : List Label} {apply : S → P → S} {version : State → ℕ} {current : State → Option S}
  {published : Label → List (Publication S P)}

/-- The publisher had the state under the version at some point of the run. -/
def Passes (step : State → Label → State → Prop) (version : State → ℕ)
    (current : State → Option S) (s₀ : State) (ls : List Label) (v : ℕ) (state : S) : Prop :=
  ∃ before after u, ls = before ++ after ∧ Lts.Run step s₀ before u ∧ version u = v ∧
    current u = some state

theorem Passes.snoc {v : ℕ} {state : S} (h : Passes step version current s₀ ls v state)
    (l : Label) : Passes step version current s₀ (ls ++ [l]) v state := by
  obtain ⟨before, after, u, rfl, hrun, hu⟩ := h
  exact ⟨before, after ++ [l], u, List.append_assoc .., hrun, hu⟩

theorem Passes.last {state : S} (hrun : Lts.Run step s₀ ls s) (h : current s = some state) :
    Passes step version current s₀ ls (version s) state :=
  ⟨ls, [], s, (List.append_nil ls).symm, hrun, rfl, h⟩

/-- A history of a run: it has the states of the run, the last of them under the last version, and
all publications of the run are true to it. -/
structure IsHistory (step : State → Label → State → Prop) (apply : S → P → S)
    (version : State → ℕ) (current : State → Option S)
    (published : Label → List (Publication S P)) (s₀ : State) (ls : List Label) (s : State)
    (history : ℕ → Option S) : Prop where
  passes : ∀ v state, history v = some state → Passes step version current s₀ ls v state
  last : history (version s) = current s
  later : ∀ v, version s < v → history v = none
  sent : ∀ p ∈ ls.flatMap published, p.TrueTo apply history

/-- The publications of a run are true to a history of its states. -/
theorem exists_history
    (hstep : ∀ s l s', step s l s' →
      Publishes apply (version s) (current s) (published l) (version s') (current s'))
    (h : Lts.Run step s₀ ls s) :
    ∃ history, IsHistory step apply version current published s₀ ls s history := by
  induction h with
  | nil =>
      refine ⟨Function.update (fun _ => none) (version s₀) (current s₀), ?_, ?_, ?_, ?_⟩
      · intro v state hv
        by_cases heq : v = version s₀
        · subst heq
          rw [Function.update_self] at hv
          exact Passes.last Lts.Run.nil hv
        · rw [Function.update_of_ne heq] at hv
          cases hv
      · exact Function.update_self ..
      · intro v hlt
        exact Function.update_of_ne (by omega) ..
      · intro p hp
        cases hp
  | @snoc ls s l s' hrun hs ih =>
      obtain ⟨history, hpasses, hlast, hlater, hsent⟩ := ih
      have hall := hrun.snoc hs
      rcases hstep s l s' hs with ⟨hversion, hsame, hnone⟩ | ⟨hversion, state, hstate, hpubs⟩
      · refine ⟨history, fun v st hv => (hpasses v st hv).snoc l, ?_, ?_, ?_⟩
        · rw [hversion, hlast, hsame]
        · rw [hversion]
          exact hlater
        · rw [List.flatMap_append, List.flatMap_singleton, hnone, List.append_nil]
          exact hsent
      · -- the version is new
        have hextends : Extends history (Function.update history (version s') (some state)) :=
          extends_update (hlater _ (by omega))
        have hnew : Function.update history (version s') (some state) (version s') = some state :=
          Function.update_self ..
        refine ⟨Function.update history (version s') (some state), ?_, ?_, ?_, ?_⟩
        · intro v st hv
          by_cases heq : v = version s'
          · subst heq
            exact Passes.last hall (hstate.trans (hnew.symm.trans hv))
          · rw [Function.update_of_ne heq] at hv
            exact (hpasses v st hv).snoc l
        · rw [hnew, hstate]
        · intro v hlt
          rw [Function.update_of_ne (by omega)]
          exact hlater v (by omega)
        · intro p hp
          rw [List.flatMap_append, List.flatMap_singleton] at hp
          rcases List.mem_append.1 hp with hp | hp
          · exact (hsent p hp).mono hextends
          · rw [hversion] at hextends hnew ⊢
            rcases hpubs p hp with rfl | ⟨old, patch, hold, rfl, happly⟩
            · exact hnew
            · refine ⟨old, hextends _ _ (hlast.trans hold), ?_⟩
              rw [happly]
              exact hnew

/-- Whatever publications of a run a replica receives, in whatever order: its copy is a state the
publisher had under that version, and the present one when it has the present version. -/
theorem run_checked
    (hstep : ∀ s l s', step s l s' →
      Publishes apply (version s) (current s) (published l) (version s') (current s'))
    (h : Lts.Run step s₀ ls s) {received : List (Publication S P)}
    (hreceived : received ⊆ ls.flatMap published) {v : ℕ} {state : S}
    (hcopy : checkedAll apply received = some (v, state)) :
    Passes step version current s₀ ls v state ∧ v ≤ version s ∧
      (v = version s → current s = some state) := by
  obtain ⟨history, hhistory⟩ := exists_history hstep h
  have hv := checkedAll_true (fun p hp => hhistory.sent p (hreceived hp)) hcopy
  refine ⟨hhistory.passes v state hv, ?_, ?_⟩
  · by_contra hlt
    rw [hhistory.later v (by omega)] at hv
    cases hv
  · rintro rfl
    rw [← hhistory.last]
    exact hv

end

end Replica
