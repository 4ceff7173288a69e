/-
**What the labels of a run say about an event.**

From the labels of a run one reads off what has become of each event that was offered: it waits in
the queue, or was dropped for want of room; it was taken, its plan is due, and a refresh with at
least that plan settles it.  When an overflow is noticed, a full refresh is due for all events that
were dropped before.

A fate is a state of an automaton that runs over the labels, one for each event.  What a fate says
is a statement about the labels alone: which of them occurred, and in which order.

Main definitions:

* `Fate`, `fate` — what has become of an event, by the labels of a run;
* `DroppedBy`, `SettledBy`, `RecoveredBy` — what is said of an event without fates.

Main results:

* `Fate.after_cases` — the ways in which a step changes a fate;
* `fate_explained` — every fate says the truth.
-/

import Gitseer.Serve.Loop

set_option relaxedAutoImplicit false
set_option autoImplicit false

open StdPath (PathBuf)

namespace Gitseer

/-! ### Fates -/

/-- What has become of an event.  `due` is for an event whose own plan was computed, `recovering`
for one that was dropped before an overflow was noticed, and `ignored` for one that came back to
the loop without a subscriber.  An event is settled by its own plan, or recovered. -/
inductive Fate
  | unknown
  | queued
  | lost
  | taken (subscribed : Bool)
  | due (own : RefreshPlan)
  | recovering
  | settled
  | recovered
  | ignored (subscribed : Bool)
  deriving DecidableEq

instance (p q : RefreshPlan) : Decidable (p ≤ q) :=
  match p, q with
  | .none, q => .isTrue (RefreshPlan.none_le q)
  | p, .full => .isTrue (RefreshPlan.le_full p)
  | .domains s, .domains t => inferInstanceAs (Decidable (s ⊆ t))
  | .full, .none => .isFalse RefreshPlan.not_full_le_none
  | .full, .domains s => .isFalse (RefreshPlan.not_full_le_domains s)
  | .domains s, .none => .isFalse (RefreshPlan.not_domains_le_none s)

/-- What becomes of the event with the given number in a step.  An event without anything to
refresh is settled by its plan, and any other by a refresh with at least that plan. -/
def Fate.after (k : ℕ) : Fate → LoopLabel → Fate
  | unknown, .offered serial _ accepted =>
      if serial = k then (if accepted then queued else lost) else unknown
  | queued, .took serial _ subscribed _ => if serial = k then taken subscribed else queued
  | taken subscribed, .planned (some serial) plan =>
      if serial = k then (if plan.shouldRefresh then due plan else settled) else taken subscribed
  | lost, .overflowTaken _ => recovering
  | taken subscribed, .discarded => ignored subscribed
  | recovering, .discarded => ignored false
  | due own, .refreshed plan _ => if own ≤ plan then settled else due own
  | recovering, .refreshed plan _ => if plan = .full then recovered else recovering
  | fate, _ => fate

/-- What has become of the event in a run. -/
def fate (k : ℕ) (labels : List LoopLabel) : Fate := labels.foldl (Fate.after k) .unknown

theorem fate_concat (k : ℕ) (labels : List LoopLabel) (l : LoopLabel) :
    fate k (labels ++ [l]) = (fate k labels).after k l := by
  rw [fate, List.foldl_concat]
  rfl

/-- Does the step leave every fate as it is? -/
def LoopLabel.isQuiet : LoopLabel → Bool
  | .changed => true
  | .polled => true
  | .advanced _ => true
  | .planned none _ => true
  | .moved => true
  | .line _ _ => true
  | .stopped => true
  | _ => false

/-- Is no event offered or taken in the step? -/
def LoopLabel.passes : LoopLabel → Bool
  | .offered _ _ _ => false
  | .took _ _ _ _ => false
  | _ => true

section

variable {k serial : ℕ} {f : Fate} {l : LoopLabel}

theorem Fate.after_of_isQuiet (h : l.isQuiet = true) : f.after k l = f := by
  unfold LoopLabel.isQuiet at h
  split at h
  · cases f <;> rfl
  · cases f <;> rfl
  · cases f <;> rfl
  · cases f <;> rfl
  · cases f <;> rfl
  · cases f <;> rfl
  · cases f <;> rfl
  · cases h

/-- An event that waits or was not offered yet is left alone unless some event is offered or
taken. -/
theorem Fate.after_of_passes (hf : f = queued ∨ f = unknown) (h : l.passes = true) :
    f.after k l = f := by
  rcases hf with rfl | rfl
  · cases l with
    | took serial event subscribed reconciles => cases h
    | _ => rfl
  · cases l with
    | offered serial event accepted => cases h
    | _ => rfl

/-- What happens to another event does not matter. -/
theorem Fate.after_offered_ne {event : WatchEvent} {accepted : Bool} (h : serial ≠ k) :
    f.after k (.offered serial event accepted) = f := by
  cases f <;> simp [after, h]

theorem Fate.after_took_ne {event : WatchEvent} {subscribed reconciles : Bool} (h : serial ≠ k) :
    f.after k (.took serial event subscribed reconciles) = f := by
  cases f <;> simp [after, h]

theorem Fate.after_planned_ne {plan : RefreshPlan} (h : serial ≠ k) :
    f.after k (.planned (some serial) plan) = f := by
  cases f <;> simp [after, h]

end

/-- The ways a fate can change. -/
inductive Fate.Changes (k : ℕ) : Fate → LoopLabel → Fate → Prop
  | accepted (event : WatchEvent) : Changes k unknown (.offered k event true) queued
  | dropped (event : WatchEvent) : Changes k unknown (.offered k event false) lost
  | took (event : WatchEvent) (subscribed reconciles : Bool) :
      Changes k queued (.took k event subscribed reconciles) (taken subscribed)
  | planned (subscribed : Bool) {plan : RefreshPlan} (h : plan.shouldRefresh = true) :
      Changes k (taken subscribed) (.planned (some k) plan) (due plan)
  | nothing (subscribed : Bool) {plan : RefreshPlan} (h : plan.shouldRefresh = false) :
      Changes k (taken subscribed) (.planned (some k) plan) settled
  | noticed (test : OverflowTest) : Changes k lost (.overflowTaken test) recovering
  | ignored (subscribed : Bool) : Changes k (taken subscribed) .discarded (ignored subscribed)
  | ignoredLoss : Changes k recovering .discarded (ignored false)
  | refreshed {own plan : RefreshPlan} (messages : List ServerMessage) (h : own ≤ plan) :
      Changes k (due own) (.refreshed plan messages) settled
  | recovered (messages : List ServerMessage) :
      Changes k recovering (.refreshed .full messages) recovered

/-- A fate stays as it is, or changes in one of these ways. -/
theorem Fate.after_cases (k : ℕ) (f : Fate) (l : LoopLabel) :
    f.after k l = f ∨ f.Changes k l (f.after k l) := by
  unfold after
  split
  · next serial event accepted =>
      by_cases h : serial = k
      · subst h
        right
        rw [if_pos rfl]
        cases accepted
        · exact Changes.dropped event
        · exact Changes.accepted event
      · exact Or.inl (if_neg h)
  · next serial event subscribed reconciles =>
      by_cases h : serial = k
      · subst h
        right
        rw [if_pos rfl]
        exact Changes.took event subscribed reconciles
      · exact Or.inl (if_neg h)
  · next subscribed serial plan =>
      by_cases h : serial = k
      · subst h
        right
        rw [if_pos rfl]
        split
        · next hplan => exact Changes.planned subscribed hplan
        · next hplan => exact Changes.nothing subscribed (Bool.eq_false_iff.2 hplan)
      · exact Or.inl (if_neg h)
  · next test => exact Or.inr (Changes.noticed test)
  · next subscribed => exact Or.inr (Changes.ignored subscribed)
  · exact Or.inr Changes.ignoredLoss
  · next own plan messages =>
      split
      · next h => exact Or.inr (Changes.refreshed messages h)
      · exact Or.inl rfl
  · next plan messages =>
      split
      · next h =>
          subst h
          exact Or.inr (Changes.recovered messages)
      · exact Or.inl rfl
  · exact Or.inl rfl

/-! ### What the fates say -/

/-- The event was dropped, and no overflow has been noticed since. -/
def DroppedBy (k : ℕ) (labels : List LoopLabel) : Prop :=
  ∃ before after event, labels = before ++ .offered k event false :: after ∧
    ∀ test, .overflowTaken test ∉ after

/-- The event was taken, and its plan was computed then. -/
def PlannedBy (k : ℕ) (own : RefreshPlan) (after labels : List LoopLabel) : Prop :=
  ∃ before, labels = before ++ .planned (some k) own :: after ∧
    ∃ event subscribed reconciles, .took k event subscribed reconciles ∈ before

/-- The event has nothing to refresh by its own plan, or was covered by a refresh after that plan
was computed. -/
def SettledBy (k : ℕ) (labels : List LoopLabel) : Prop :=
  ∃ own after, PlannedBy k own after labels ∧
    (own.shouldRefresh = false ∨ ∃ plan messages, .refreshed plan messages ∈ after ∧ own ≤ plan)

/-- The event was dropped, and the overflow was noticed after that. -/
def NoticedBy (k : ℕ) (after labels : List LoopLabel) : Prop :=
  ∃ before event between test,
    labels = (before ++ .offered k event false :: between) ++ .overflowTaken test :: after

/-- The event was dropped, and everything was refreshed after the overflow had been noticed. -/
def RecoveredBy (k : ℕ) (labels : List LoopLabel) : Prop :=
  ∃ after, NoticedBy k after labels ∧ ∃ messages, .refreshed .full messages ∈ after

/-- What a fate says about the labels. -/
def Fate.Explained (k : ℕ) (labels : List LoopLabel) : Fate → Prop
  | lost => DroppedBy k labels
  | taken _ => ∃ event subscribed reconciles, .took k event subscribed reconciles ∈ labels
  | due own => ∃ after, PlannedBy k own after labels
  | recovering => ∃ after, NoticedBy k after labels
  | settled => SettledBy k labels
  | recovered => RecoveredBy k labels
  | _ => True

section

variable {k : ℕ} {labels : List LoopLabel}

theorem PlannedBy.concat {own : RefreshPlan} {after : List LoopLabel}
    (h : PlannedBy k own after labels) (l : LoopLabel) :
    PlannedBy k own (after ++ [l]) (labels ++ [l]) := by
  obtain ⟨before, rfl, htook⟩ := h
  exact ⟨before, by simp, htook⟩

theorem NoticedBy.concat {after : List LoopLabel} (h : NoticedBy k after labels) (l : LoopLabel) :
    NoticedBy k (after ++ [l]) (labels ++ [l]) := by
  obtain ⟨before, event, between, test, rfl⟩ := h
  exact ⟨before, event, between, test, by simp⟩

/-- What a fate says stays true as long as the fate is the same. -/
theorem Fate.Explained.concat {f : Fate} (h : f.Explained k labels) {l : LoopLabel}
    (hsame : f.after k l = f) : f.Explained k (labels ++ [l]) := by
  cases f with
  | lost =>
      obtain ⟨before, after, event, rfl, hnone⟩ := h
      refine ⟨before, after ++ [l], event, by simp, ?_⟩
      intro test hmem
      rcases List.mem_append.1 hmem with hmem | hmem
      · exact hnone test hmem
      · obtain rfl := List.mem_singleton.1 hmem
        cases hsame
  | taken subscribed =>
      obtain ⟨event, subscribed, reconciles, hmem⟩ := h
      exact ⟨event, subscribed, reconciles, List.mem_append_left _ hmem⟩
  | due own =>
      obtain ⟨after, hplanned⟩ := h
      exact ⟨_, hplanned.concat l⟩
  | recovering =>
      obtain ⟨after, hnoticed⟩ := h
      exact ⟨_, hnoticed.concat l⟩
  | settled =>
      obtain ⟨own, after, hplanned, hcovered⟩ := h
      refine ⟨own, _, hplanned.concat l, hcovered.imp_right ?_⟩
      rintro ⟨plan, messages, hmem, hle⟩
      exact ⟨plan, messages, List.mem_append_left _ hmem, hle⟩
  | recovered =>
      obtain ⟨after, hnoticed, messages, hmem⟩ := h
      exact ⟨_, hnoticed.concat l, messages, List.mem_append_left _ hmem⟩
  | unknown => trivial
  | queued => trivial
  | ignored subscribed => trivial

/-- Every fate says the truth. -/
theorem fate_explained (k : ℕ) (labels : List LoopLabel) :
    (fate k labels).Explained k labels := by
  induction labels using List.reverseRecOn with
  | nil => trivial
  | append_singleton labels l ih =>
      rw [fate_concat]
      rcases Fate.after_cases k (fate k labels) l with hsame | hchanges
      · rw [hsame]
        exact ih.concat hsame
      · generalize hf' : (fate k labels).after k l = f' at hchanges ⊢
        generalize fate k labels = f at ih hchanges
        cases hchanges with
        | accepted event => trivial
        | dropped event => exact ⟨labels, [], event, rfl, fun test h => by cases h⟩
        | took event subscribed reconciles =>
            exact ⟨event, subscribed, reconciles,
              List.mem_append_right _ (List.mem_singleton.2 rfl)⟩
        | planned subscribed h => exact ⟨[], labels, rfl, ih⟩
        | nothing subscribed h => exact ⟨_, [], ⟨labels, rfl, ih⟩, Or.inl h⟩
        | noticed test =>
            obtain ⟨before, after, event, rfl, -⟩ := ih
            exact ⟨[], before, event, after, test, rfl⟩
        | ignored subscribed => trivial
        | ignoredLoss => trivial
        | refreshed messages h =>
            obtain ⟨after, hplanned⟩ := ih
            exact ⟨_, _, hplanned.concat _, Or.inr ⟨_, messages,
              List.mem_append_right _ (List.mem_singleton.2 rfl), h⟩⟩
        | recovered messages =>
            obtain ⟨after, hnoticed⟩ := ih
            exact ⟨_, hnoticed.concat _, messages,
              List.mem_append_right _ (List.mem_singleton.2 rfl)⟩

end

end Gitseer
