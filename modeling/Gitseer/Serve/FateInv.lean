/-
**Where the events of a run are.**

The fate of an event says where the loop has it: in its queue, in its hands, or in the plan of the
turn.  As long as no line wins while the watches are updated, every step keeps this agreement of
the fates with the state.

Main definitions:

* `UncancelledStep`, `SubscribedStep` — steps in which no future is dropped with an event, and those
  of a loop with a subscriber;
* `FateInv` — how the fates agree with the state.

Main results:

* `FateInv.step` — every step without a cancelled update keeps the agreement;
* `FateInv.betweenTurns` — between two turns no event is in the hands of the loop.
-/

import Gitseer.Serve.Fate

set_option relaxedAutoImplicit false
set_option autoImplicit false

open StdPath (PathBuf)

namespace Gitseer

/-! ### Steps -/

/-- No line wins while the watches are updated for an event. -/
def UncancelledStep (serde : SerdeJson) (capacity budget : ℕ) (s : LoopState) (l : LoopLabel)
    (s' : LoopState) : Prop :=
  LoopStep serde capacity budget s l s' ∧ ∀ serial messages, l ≠ .line (some serial) messages

/-- A step like that of a loop with a subscriber. -/
def SubscribedStep (serde : SerdeJson) (capacity budget : ℕ) (s : LoopState) (l : LoopLabel)
    (s' : LoopState) : Prop :=
  UncancelledStep serde capacity budget s l s' ∧ s.process.subscribed = true

/-! ### The fates and the state -/

/-- The event the loop has received and not planned for yet. -/
def Pc.serial : Pc → Option ℕ
  | .received serial _ _ _ => some serial
  | _ => none

/-- The plan of the turn. -/
def Pc.plan : Pc → Option RefreshPlan
  | .received _ _ _ draining => draining.map Prod.fst
  | .debounce plan => some plan
  | .drain plan _ => some plan
  | .drainEnd plan => some plan
  | .refresh plan => some plan
  | _ => none

/-- The turn will refresh by at least the given plan. -/
def Pc.Covers (pc : Pc) (own : RefreshPlan) : Prop := ∃ plan, pc.plan = some plan ∧ own ≤ plan

/-- The turn will read everything. -/
def Pc.Recovers (pc : Pc) : Prop := pc = .overflow ∨ pc.plan = some .full

/-- Where an event is by its fate. -/
def Fate.HeldBy (s : LoopState) (k : ℕ) : Fate → Prop
  | unknown => s.offers ≤ k
  | queued => ∃ event, (k, event) ∈ s.queue.items
  | lost => s.queue.overflowed = true
  | taken _ => s.pc.serial = some k
  | due own => own.shouldRefresh = true ∧ s.pc.Covers own
  | recovering => s.pc.Recovers
  | settled => True
  | recovered => True
  | ignored subscribed => subscribed = false

/-- The event is in the hands of the loop: taken, or due in this turn. -/
def Fate.InHand : Fate → Prop
  | taken _ => True
  | due _ => True
  | recovering => True
  | _ => False

/-- How the fates agree with the state.  A loop that stopped may have events in its hands. -/
structure FateInv (labels : List LoopLabel) (s : LoopState) : Prop where
  queued : ∀ item ∈ s.queue.items, fate item.1 labels = .queued
  distinct : (s.queue.items.map Prod.fst).Nodup
  fresh : ∀ k, s.offers ≤ k → fate k labels = .unknown
  taken : ∀ k, s.pc.serial = some k → fate k labels = .taken s.process.subscribed
  held : ∀ k, s.pc = .stopped ∧ (fate k labels).InHand ∨ (fate k labels).HeldBy s k

theorem FateInv.heldBy {labels : List LoopLabel} {s : LoopState} (hinv : FateInv labels s)
    (hstopped : s.pc ≠ .stopped) (k : ℕ) : (fate k labels).HeldBy s k :=
  (hinv.held k).resolve_left fun h => hstopped h.1

theorem FateInv.start {s : LoopState} (h : s.AtStart) : FateInv [] s := by
  refine ⟨?_, ?_, fun _ _ => rfl, ?_, fun k => Or.inr ?_⟩
  · rw [h.queue]
    intro item hitem
    cases hitem
  · rw [h.queue]
    exact List.nodup_nil
  · intro k hk
    rw [h.pc] at hk
    cases hk
  · change s.offers ≤ k
    rw [h.offers]
    exact Nat.zero_le k

/-! ### One step -/

section

variable {labels : List LoopLabel} {s s' : LoopState} {l : LoopLabel}

/-- An event stays where it is when the state keeps what holds it. -/
theorem Fate.HeldBy.mono {f : Fate} {k : ℕ} (h : f.HeldBy s k)
    (hoffers : s.offers ≤ k → s'.offers ≤ k)
    (hqueued : ∀ event, (k, event) ∈ s.queue.items → (k, event) ∈ s'.queue.items)
    (hlost : s.queue.overflowed = true → s'.queue.overflowed = true)
    (hserial : s.pc.serial = some k → s'.pc.serial = some k)
    (hcovers : ∀ own, own.shouldRefresh = true → s.pc.Covers own → s'.pc.Covers own)
    (hrecovers : s.pc.Recovers → s'.pc.Recovers) : f.HeldBy s' k := by
  cases f with
  | unknown => exact hoffers h
  | queued =>
      obtain ⟨event, hevent⟩ := h
      exact ⟨event, hqueued event hevent⟩
  | lost => exact hlost h
  | taken subscribed => exact hserial h
  | due own => exact ⟨h.1, hcovers own h.1 h.2⟩
  | recovering => exact hrecovers h
  | settled => trivial
  | recovered => trivial
  | ignored subscribed => exact h

/-- An event that is not in the hands of the loop needs no place of the loop to be kept. -/
theorem Fate.HeldBy.mono_of_not_inHand {f : Fate} {k : ℕ} (h : f.HeldBy s k) (hhand : ¬ f.InHand)
    (hoffers : s.offers ≤ k → s'.offers ≤ k)
    (hqueued : ∀ event, (k, event) ∈ s.queue.items → (k, event) ∈ s'.queue.items)
    (hlost : s.queue.overflowed = true → s'.queue.overflowed = true) : f.HeldBy s' k := by
  cases f with
  | taken subscribed => exact absurd trivial hhand
  | due own => exact absurd trivial hhand
  | recovering => exact absurd trivial hhand
  | unknown => exact hoffers h
  | queued =>
      obtain ⟨event, hevent⟩ := h
      exact ⟨event, hqueued event hevent⟩
  | lost => exact hlost h
  | settled => trivial
  | recovered => trivial
  | ignored subscribed => exact h

/-- A step that moves no event keeps the agreement when it leaves the queue, does not lose the event
that was received and does not lower the plan of the turn. -/
theorem FateInv.quiet (hinv : FateInv labels s) (hquiet : l.isQuiet = true)
    (hqueue : s'.queue = s.queue) (hoffers : s'.offers = s.offers)
    (hstopped : s.pc = .stopped → s'.pc = .stopped)
    (hserial : ∀ k, s'.pc.serial = some k →
      s.pc.serial = some k ∧ s'.process.subscribed = s.process.subscribed)
    (hheld : s'.pc = .stopped ∨ (∀ k, s.pc.serial = some k → s'.pc.serial = some k) ∧
      (∀ own, own.shouldRefresh = true → s.pc.Covers own → s'.pc.Covers own) ∧
      (s.pc.Recovers → s'.pc.Recovers)) : FateInv (labels ++ [l]) s' := by
  have hfate : ∀ k, fate k (labels ++ [l]) = fate k labels := by
    intro k
    rw [fate_concat, Fate.after_of_isQuiet hquiet]
  constructor
  · intro item hitem
    rw [hqueue] at hitem
    rw [hfate]
    exact hinv.queued item hitem
  · rw [hqueue]
    exact hinv.distinct
  · intro k hk
    rw [hoffers] at hk
    rw [hfate]
    exact hinv.fresh k hk
  · intro k hk
    obtain ⟨hbefore, hsame⟩ := hserial k hk
    rw [hfate, hsame]
    exact hinv.taken k hbefore
  · intro k
    rw [hfate]
    have hoffers_k : s.offers ≤ k → s'.offers ≤ k := by
      rw [hoffers]
      exact id
    have hqueued : ∀ event, (k, event) ∈ s.queue.items → (k, event) ∈ s'.queue.items := by
      rw [hqueue]
      exact fun _ => id
    have hlost : s.queue.overflowed = true → s'.queue.overflowed = true := by
      rw [hqueue]
      exact id
    rcases hinv.held k with ⟨hstop, hhand⟩ | hk
    · exact Or.inl ⟨hstopped hstop, hhand⟩
    · rcases hheld with hstop | ⟨hkeeps, hcovers, hrecovers⟩
      · by_cases hhand : (fate k labels).InHand
        · exact Or.inl ⟨hstop, hhand⟩
        · exact Or.inr (hk.mono_of_not_inHand hhand hoffers_k hqueued hlost)
      · exact Or.inr (hk.mono hoffers_k hqueued hlost (hkeeps k) hcovers hrecovers)

/-- A move between two places of a turn, or between turns, that keeps the plan there is. -/
theorem FateInv.moved (hinv : FateInv labels s) (hquiet : l.isQuiet = true)
    (hqueue : s'.queue = s.queue) (hoffers : s'.offers = s.offers) (hstopped : s.pc ≠ .stopped)
    (hoverflow : s.pc ≠ .overflow) (hserial : s.pc.serial = none) (hserial' : s'.pc.serial = none)
    (hplan : ∀ plan, s.pc.plan = some plan → s'.pc.plan = some plan) :
    FateInv (labels ++ [l]) s' := by
  refine hinv.quiet hquiet hqueue hoffers (fun h => absurd h hstopped) ?_ (Or.inr ⟨?_, ?_, ?_⟩)
  · intro k hk
    rw [hserial'] at hk
    cases hk
  · intro k hk
    rw [hserial] at hk
    cases hk
  · rintro own - ⟨plan, hp, hle⟩
    exact ⟨plan, hplan plan hp, hle⟩
  · rintro (hover | hfull)
    · exact absurd hover hoverflow
    · exact Or.inr (hplan _ hfull)

/-- A step in which no event is offered or taken and after which none is received keeps the
agreement when every event is where its fate says. -/
theorem FateInv.passed (hinv : FateInv labels s) (hl : l.passes = true)
    (hitems : s'.queue.items = s.queue.items) (hoffers : s'.offers = s.offers)
    (hserial : s'.pc.serial = none)
    (hheld : ∀ k, (fate k (labels ++ [l])).HeldBy s' k) : FateInv (labels ++ [l]) s' := by
  have hafter : ∀ k, (fate k labels = .queued ∨ fate k labels = .unknown) →
      fate k (labels ++ [l]) = fate k labels := by
    intro k hk
    rw [fate_concat, Fate.after_of_passes hk hl]
  refine ⟨?_, ?_, ?_, ?_, fun k => Or.inr (hheld k)⟩
  · intro item hitem
    rw [hitems] at hitem
    have hqueued := hinv.queued item hitem
    rw [hafter _ (Or.inl hqueued), hqueued]
  · rw [hitems]
    exact hinv.distinct
  · intro k hk
    rw [hoffers] at hk
    have hunknown := hinv.fresh k hk
    rw [hafter _ (Or.inr hunknown), hunknown]
  · intro k hk
    rw [hserial] at hk
    cases hk

/-- An offered event waits in the queue or is dropped with the flag set. -/
theorem FateInv.offer (hinv : FateInv labels s) {capacity : ℕ} {event : WatchEvent} :
    FateInv (labels ++ [.offered s.offers event (decide (s.queue.items.length < capacity))])
      { s with queue := s.queue.offer capacity (s.offers, event), offers := s.offers + 1 } := by
  have hother : ∀ k accepted, s.offers ≠ k →
      fate k (labels ++ [.offered s.offers event accepted]) = fate k labels := by
    intro k accepted hk
    rw [fate_concat, Fate.after_offered_ne hk]
  -- the number was not used before
  have hnew : ∀ item ∈ s.queue.items, s.offers ≠ item.1 := by
    intro item hitem heq
    have hq := hinv.queued item hitem
    rw [hinv.fresh item.1 (Nat.le_of_eq heq)] at hq
    cases hq
  have hfresh : ∀ k accepted, s.offers + 1 ≤ k →
      fate k (labels ++ [.offered s.offers event accepted]) = .unknown := by
    intro k accepted hk
    rw [hother k accepted (by omega)]
    exact hinv.fresh k (by omega)
  have htaken : ∀ k accepted, s.pc.serial = some k →
      fate k (labels ++ [.offered s.offers event accepted]) = .taken s.process.subscribed := by
    intro k accepted hk
    have hbefore := hinv.taken k hk
    rw [hother k accepted, hbefore]
    rintro rfl
    rw [hinv.fresh _ le_rfl] at hbefore
    cases hbefore
  rcases LossyQueue.offer_cases capacity s.queue (s.offers, event) with ⟨hroom, hq⟩ | ⟨hfull, hq⟩
  · rw [hq, decide_eq_true hroom]
    refine ⟨?_, ?_, fun k hk => hfresh k true hk, fun k hk => htaken k true hk, ?_⟩
    · intro item hitem
      rcases List.mem_append.1 hitem with hitem | hitem
      · rw [hother item.1 true (hnew item hitem)]
        exact hinv.queued item hitem
      · obtain rfl := List.mem_singleton.1 hitem
        rw [fate_concat, hinv.fresh _ le_rfl, Fate.after, if_pos rfl]
        rfl
    · rw [List.map_append, List.nodup_append]
      refine ⟨hinv.distinct, List.nodup_singleton _, ?_⟩
      intro k hk k' hk' heq
      obtain ⟨item, hitem, rfl⟩ := List.mem_map.1 hk
      obtain rfl := List.mem_singleton.1 hk'
      exact hnew item hitem heq.symm
    · intro k
      by_cases hk : s.offers = k
      · subst hk
        rw [fate_concat, hinv.fresh _ le_rfl, Fate.after, if_pos rfl]
        exact Or.inr ⟨event, List.mem_append_right _ (List.mem_singleton.2 rfl)⟩
      · rw [hother k true hk]
        refine (hinv.held k).imp_right fun hheld => hheld.mono ?_ ?_ id id (fun _ _ => id) id
        · intro hle
          exact Nat.lt_of_le_of_ne hle hk
        · intro event' hevent'
          exact List.mem_append_left _ hevent'
  · rw [hq, decide_eq_false (Nat.not_lt.2 hfull)]
    refine ⟨?_, hinv.distinct, fun k hk => hfresh k false hk, fun k hk => htaken k false hk, ?_⟩
    · intro item hitem
      rw [hother item.1 false (hnew item hitem)]
      exact hinv.queued item hitem
    · intro k
      by_cases hk : s.offers = k
      · subst hk
        rw [fate_concat, hinv.fresh _ le_rfl, Fate.after, if_pos rfl]
        exact Or.inr rfl
      · rw [hother k false hk]
        refine (hinv.held k).imp_right fun hheld =>
          hheld.mono ?_ (fun _ => id) (fun _ => rfl) id (fun _ _ => id) id
        intro hle
        exact Nat.lt_of_le_of_ne hle hk

/-- When an overflow is noticed, the turn recovers what was dropped. -/
theorem FateInv.overflow (hinv : FateInv labels s) {test : OverflowTest} {pc : Pc}
    (hstopped : s.pc ≠ .stopped) (hserial : s.pc.serial = none) (hserial' : pc.serial = none)
    (hcovers : ∀ own, s.pc.Covers own → pc.Covers own) (hrecovers : pc.Recovers) :
    FateInv (labels ++ [.overflowTaken test])
      { s with queue := s.queue.takeOverflow, pc := pc } := by
  refine hinv.passed rfl rfl rfl hserial' ?_
  intro k
  have hk := hinv.heldBy hstopped k
  rw [fate_concat]
  cases hf : fate k labels with
  | lost => exact hrecovers
  | taken subscribed =>
      -- no event was received
      rw [hf] at hk
      have hserial_k : s.pc.serial = some k := hk
      rw [hserial] at hserial_k
      cases hserial_k
  | due own =>
      rw [hf] at hk
      exact ⟨hk.1, hcovers own hk.2⟩
  | recovering => exact hrecovers
  | unknown => rwa [hf] at hk
  | queued => rwa [hf] at hk
  | settled => trivial
  | recovered => trivial
  | ignored subscribed => rwa [hf] at hk

/-- The first event of the queue is taken. -/
theorem FateInv.take (hinv : FateInv labels s) {serial : ℕ} {event : WatchEvent}
    {rest : List (ℕ × WatchEvent)} {reconciles : Bool} {pc : Pc} (hstopped : s.pc ≠ .stopped)
    (hitems : s.queue.items = (serial, event) :: rest) (hserial : s.pc.serial = none)
    (hserial' : pc.serial = some serial) (hplan : pc.plan = s.pc.plan)
    (hoverflow : s.pc ≠ .overflow) :
    FateInv (labels ++ [.took serial event s.process.subscribed reconciles])
      { s with queue := { s.queue with items := rest }, pc := pc } := by
  have hdistinct := hinv.distinct
  rw [hitems, List.map_cons, List.nodup_cons] at hdistinct
  obtain ⟨hnot, hdistinct⟩ := hdistinct
  have hqueued : fate serial labels = .queued :=
    hinv.queued (serial, event) (by rw [hitems]; exact List.mem_cons_self ..)
  have hother : ∀ k, serial ≠ k →
      fate k (labels ++ [.took serial event s.process.subscribed reconciles]) = fate k labels := by
    intro k hk
    rw [fate_concat, Fate.after_took_ne hk]
  have hself : fate serial (labels ++ [.took serial event s.process.subscribed reconciles]) =
      .taken s.process.subscribed := by
    rw [fate_concat, hqueued, Fate.after, if_pos rfl]
  refine ⟨?_, hdistinct, ?_, ?_, fun k => Or.inr ?_⟩
  · intro item hitem
    rw [hother item.1]
    · exact hinv.queued item (by rw [hitems]; exact List.mem_cons_of_mem _ hitem)
    · rintro rfl
      exact hnot (List.mem_map.2 ⟨item, hitem, rfl⟩)
  · intro k hk
    have hf := hinv.fresh k hk
    rw [hother k, hf]
    rintro rfl
    rw [hqueued] at hf
    cases hf
  · intro k hk
    obtain rfl := Option.some.inj (hserial'.symm.trans hk)
    exact hself
  · by_cases hk : serial = k
    · subst hk
      rw [hself]
      exact hserial'
    · rw [hother k hk]
      refine (hinv.heldBy hstopped k).mono id ?_ id ?_ ?_ ?_
      · intro event' hevent'
        rw [hitems] at hevent'
        rcases List.mem_cons.1 hevent' with heq | hevent'
        · exact absurd (Prod.mk.inj heq).1.symm hk
        · exact hevent'
      · intro hserial_k
        rw [hserial] at hserial_k
        cases hserial_k
      · rintro own - ⟨plan, hp, hle⟩
        exact ⟨plan, hplan.trans hp, hle⟩
      · rintro (hover | hfull)
        · exact absurd hover hoverflow
        · exact Or.inr (hplan.trans hfull)

/-- The plan of the event that was received is computed. -/
theorem FateInv.planned (hinv : FateInv labels s) {serial : ℕ} {own : RefreshPlan} {pc : Pc}
    (hserial : s.pc.serial = some serial) (hserial' : pc.serial = none)
    (hown : own.shouldRefresh = true → pc.Covers own)
    (hcovers : ∀ other, s.pc.Covers other → pc.Covers other)
    (hrecovers : s.pc.Recovers → pc.Recovers) :
    FateInv (labels ++ [.planned (some serial) own]) { s with pc := pc } := by
  have htaken := hinv.taken serial hserial
  have hstopped : s.pc ≠ .stopped := by
    intro h
    rw [h] at hserial
    cases hserial
  have hother : ∀ k, serial ≠ k →
      fate k (labels ++ [.planned (some serial) own]) = fate k labels := by
    intro k hk
    rw [fate_concat, Fate.after_planned_ne hk]
  refine hinv.passed rfl rfl rfl hserial' ?_
  intro k
  by_cases hk : serial = k
  · subst hk
    rw [fate_concat, htaken, Fate.after, if_pos rfl]
    split
    · next h => exact ⟨h, hown h⟩
    · trivial
  · rw [hother k hk]
    refine (hinv.heldBy hstopped k).mono id (fun _ => id) id ?_
      (fun other _ => hcovers other) hrecovers
    intro hserial_k
    exact absurd (Option.some.inj (hserial.symm.trans hserial_k)) hk

/-- The event in the hands of the loop. -/
theorem returned_cases {pc : Pc} {serial : Option ℕ} {event : WatchEvent}
    (h : pc.returned = some (serial, event)) :
    (∃ k, serial = some k ∧ pc = .received k event none none) ∨
      serial = none ∧ event = overflowEvent ∧ pc = .overflow := by
  unfold Pc.returned at h
  split at h
  · next k e =>
      obtain ⟨rfl, rfl⟩ := Prod.mk.inj (Option.some.inj h)
      exact Or.inl ⟨k, rfl, rfl⟩
  · obtain ⟨rfl, rfl⟩ := Prod.mk.inj (Option.some.inj h)
    exact Or.inr ⟨rfl, rfl, rfl⟩
  · cases h

/-- Without a subscriber the event in the hands of the loop is ignored. -/
theorem FateInv.discard (hinv : FateInv labels s) {serial : Option ℕ} {event : WatchEvent}
    (hpc : s.pc.returned = some (serial, event)) (hsubscribed : s.process.subscribed = false) :
    FateInv (labels ++ [.discarded]) { s with pc := .head } := by
  have hplan : s.pc.plan = none ∧ s.pc ≠ .stopped := by
    rcases returned_cases hpc with ⟨k, -, h⟩ | ⟨-, -, h⟩
    · rw [h]
      exact ⟨rfl, by simp⟩
    · rw [h]
      exact ⟨rfl, by simp⟩
  obtain ⟨hplan, hstopped⟩ := hplan
  refine hinv.passed rfl rfl rfl rfl ?_
  intro k
  have hk := hinv.heldBy hstopped k
  rw [fate_concat]
  cases hf : fate k labels with
  | unknown => rwa [hf] at hk
  | queued => rwa [hf] at hk
  | lost => rwa [hf] at hk
  | taken subscribed =>
      rw [hf] at hk
      have htaken := hinv.taken k hk
      rw [hf, hsubscribed] at htaken
      exact Fate.taken.inj htaken
  | due own =>
      -- no plan is due before the event is planned for
      rw [hf] at hk
      obtain ⟨-, plan, hp, -⟩ := hk
      rw [hplan] at hp
      cases hp
  | recovering => rfl
  | settled => trivial
  | recovered => trivial
  | ignored subscribed => rwa [hf] at hk

/-- A refresh settles what is due. -/
theorem FateInv.refresh (hinv : FateInv labels s) {plan : RefreshPlan} {process : ProcessState}
    {messages : List ServerMessage} (hpc : s.pc = .refresh plan) :
    FateInv (labels ++ [.refreshed plan messages]) { s with process := process, pc := .head } := by
  refine hinv.passed rfl rfl rfl rfl ?_
  intro k
  have hk := hinv.heldBy (by rw [hpc]; simp) k
  rw [fate_concat]
  cases hf : fate k labels with
  | unknown => rwa [hf] at hk
  | queued => rwa [hf] at hk
  | lost => rwa [hf] at hk
  | taken subscribed =>
      rw [hf] at hk
      have hserial : s.pc.serial = some k := hk
      rw [hpc] at hserial
      cases hserial
  | due own =>
      -- the plan of the turn covers the own plan of the event
      rw [hf] at hk
      obtain ⟨-, plan', hplan, hle⟩ := hk
      rw [hpc] at hplan
      obtain rfl := Option.some.inj hplan
      rw [Fate.after, if_pos hle]
      trivial
  | recovering =>
      -- everything is refreshed after a loss
      rw [hf] at hk
      rcases hk with hover | hfull
      · rw [hpc] at hover
        cases hover
      · rw [hpc] at hfull
        rw [Fate.after, if_pos (Option.some.inj hfull)]
        trivial
  | settled => trivial
  | recovered => trivial
  | ignored subscribed => rwa [hf] at hk

/-- Where a line can win, the loop waits for an event or updates the watches. -/
theorem waits_cases {pc : Pc} (h : pc.waits = true) :
    pc = .head ∨ pc = .recv ∨
      ∃ serial event pending, pc = .received serial event (some pending) none := by
  unfold Pc.waits at h
  split at h
  · exact Or.inl rfl
  · exact Or.inr (Or.inl rfl)
  · exact Or.inr (Or.inr ⟨_, _, _, rfl⟩)
  · cases h

/-- A part of an update keeps the event in hand. -/
theorem FateInv.advance (hinv : FateInv labels s) {serial : ℕ} {event : WatchEvent}
    {pending : Pending} {next : Option Pending} {draining : Option (RefreshPlan × ℕ)}
    {watcher : RepositoryWatcher} (hpc : s.pc = .received serial event (some pending) draining) :
    FateInv (labels ++ [.advanced pending])
      { s with watcher := watcher, pc := .received serial event next draining } := by
  refine hinv.quiet rfl rfl rfl (by simp [hpc]) ?_ (Or.inr ⟨?_, ?_, ?_⟩)
  · intro k hk
    exact ⟨by rw [hpc]; exact hk, rfl⟩
  · intro k hk
    rw [hpc] at hk
    exact hk
  · intro own _ hcovers
    rw [hpc] at hcovers
    exact hcovers
  · intro hrecovers
    rw [hpc] at hrecovers
    exact hrecovers.imp (fun h => by cases h) id

/-- A turn begins with the plan of its first event, or after an overflow with the full one. -/
theorem FateInv.planFirst (hinv : FateInv labels s) {serial : Option ℕ} {event : WatchEvent}
    (hpc : s.pc.returned = some (serial, event)) :
    FateInv (labels ++ [.planned serial (s.refreshPlanForEvent event)])
      { s with
        pc := Pc.withPlan (s.refreshPlanForEvent event)
          (.debounce (s.refreshPlanForEvent event)) } := by
  rcases returned_cases hpc with ⟨k, rfl, hreceived⟩ | ⟨rfl, rfl, hoverflow⟩
  · refine hinv.planned (by rw [hreceived]; rfl) ?_ ?_ ?_ ?_
    · unfold Pc.withPlan
      split <;> rfl
    · intro hown
      rw [Pc.withPlan, if_pos hown]
      exact ⟨_, rfl, le_rfl⟩
    · rintro other ⟨plan, hplan, -⟩
      simp [hreceived, Pc.plan] at hplan
    · rintro (hover | hfull)
      · simp [hreceived] at hover
      · simp [hreceived, Pc.plan] at hfull
  · -- the plan after an overflow is to read everything
    refine hinv.quiet rfl rfl rfl (by simp [hoverflow]) ?_ (Or.inr ⟨?_, ?_, ?_⟩)
    · intro k hk
      cases hk
    · intro k hk
      simp [hoverflow, Pc.serial] at hk
    · rintro own - ⟨plan, hplan, -⟩
      simp [hoverflow, Pc.plan] at hplan
    · intro _
      exact Or.inr rfl

/-- The plan of a drained event is joined to that of the turn. -/
theorem FateInv.planDrained (hinv : FateInv labels s) {budget serial drained : ℕ}
    {event : WatchEvent} {plan : RefreshPlan}
    (hpc : s.pc = .received serial event none (some (plan, drained))) :
    FateInv (labels ++ [.planned (some serial) (s.refreshPlanForEvent event)])
      { s with
        pc := Pc.afterDrained budget (plan.combine (s.refreshPlanForEvent event))
          (drained + 1) } := by
  have hplan : (Pc.afterDrained budget (plan.combine (s.refreshPlanForEvent event))
      (drained + 1)).plan = some (plan.combine (s.refreshPlanForEvent event)) := by
    unfold Pc.afterDrained
    split <;> rfl
  refine hinv.planned (by rw [hpc]; rfl) ?_ ?_ ?_ ?_
  · unfold Pc.afterDrained
    split <;> rfl
  · intro _
    exact ⟨_, hplan, RefreshPlan.le_combine_right _ _⟩
  · rintro other ⟨plan', hplan', hle⟩
    rw [hpc] at hplan'
    obtain rfl := Option.some.inj hplan'
    exact ⟨_, hplan, le_trans hle (RefreshPlan.le_combine_left _ _)⟩
  · rintro (hover | hfull)
    · simp [hpc] at hover
    · rw [hpc] at hfull
      obtain rfl := Option.some.inj hfull
      exact Or.inr (by rw [hplan, RefreshPlan.full_combine])

/-- When the draining ends without an overflow, the turn refreshes by its plan. -/
theorem FateInv.endDrain (hinv : FateInv labels s) {plan : RefreshPlan}
    (hpc : s.pc = .drainEnd plan) :
    FateInv (labels ++ [.moved]) { s with pc := Pc.withPlan plan (.refresh plan) } := by
  refine hinv.quiet rfl rfl rfl (by simp [hpc]) ?_ (Or.inr ⟨?_, ?_, ?_⟩)
  · intro k hk
    unfold Pc.withPlan at hk
    dsimp only at hk
    split at hk <;> cases hk
  · intro k hk
    simp [hpc, Pc.serial] at hk
  · rintro own hown ⟨plan', hplan', hle⟩
    rw [hpc] at hplan'
    obtain rfl := Option.some.inj hplan'
    -- a plan that is due is not empty, and so is one above it
    have hplan : plan.shouldRefresh = true := by
      cases plan with
      | none =>
          obtain rfl := le_antisymm hle (RefreshPlan.none_le own)
          cases hown
      | full => rfl
      | domains set => rfl
    rw [Pc.withPlan, if_pos hplan]
    exact ⟨_, rfl, hle⟩
  · rintro (hover | hfull)
    · simp [hpc] at hover
    · rw [hpc] at hfull
      obtain rfl := Option.some.inj hfull
      exact Or.inr rfl

/-- A line that cancels no update finds the loop between two turns. -/
theorem FateInv.line (hinv : FateInv labels s) {process : ProcessState}
    {messages : List ServerMessage} (hwaits : s.pc.waits = true)
    (hcancel : ∀ serial, s.pc.inUpdate ≠ some serial) :
    FateInv (labels ++ [.line s.pc.inUpdate messages])
      { s with process := process, pc := .head } := by
  have hidle : s.pc = .head ∨ s.pc = .recv := by
    rcases waits_cases hwaits with hpc | hpc | ⟨serial, event, pending, hpc⟩
    · exact Or.inl hpc
    · exact Or.inr hpc
    · exact absurd (by rw [hpc]; rfl) (hcancel serial)
  rcases hidle with hpc | hpc
  all_goals
    refine hinv.moved rfl rfl rfl (by simp [hpc]) (by simp [hpc]) (by simp [hpc, Pc.serial]) rfl ?_
    intro plan hplan
    simp [hpc, Pc.plan] at hplan

/-- Every step without a cancelled update keeps the agreement. -/
theorem FateInv.step {serde : SerdeJson} {capacity budget : ℕ} (hinv : FateInv labels s)
    (h : UncancelledStep serde capacity budget s l s') : FateInv (labels ++ [l]) s' := by
  obtain ⟨hstep, hcancel⟩ := h
  cases hstep with
  | offer hrefresh => exact hinv.offer
  | change hpersists =>
      exact hinv.quiet rfl rfl rfl id (fun _ h => ⟨h, rfl⟩)
        (Or.inr ⟨fun _ => id, fun _ _ => id, id⟩)
  | pollOverflow hpc hover =>
      refine hinv.overflow (by simp [hpc]) (by simp [hpc, Pc.serial]) rfl ?_ (Or.inl rfl)
      rintro own ⟨plan, hplan, -⟩
      simp [hpc, Pc.plan] at hplan
  | wakeOverflow hpc hover | endOverflow hpc hover =>
      refine hinv.overflow (by simp [hpc]) (by simp [hpc, Pc.serial]) rfl ?_ (Or.inr rfl)
      intro own _
      exact ⟨.full, rfl, RefreshPlan.le_full own⟩
  | pollRecv hpc hover | wake hpc hover | drainEmpty hpc hitems =>
      refine hinv.moved rfl rfl rfl (by simp [hpc]) (by simp [hpc]) (by simp [hpc, Pc.serial])
        rfl ?_
      intro plan hplan
      rw [hpc] at hplan
      exact hplan
  | recvTake hpc hitems | drainTake hpc hitems =>
      exact hinv.take (by simp [hpc]) hitems (by simp [hpc, Pc.serial]) rfl
        (by simp [hpc, Pc.plan]) (by simp [hpc])
  | advance hpc hadvance => exact hinv.advance hpc
  | plan hpc hsubscribed => exact hinv.planFirst hpc
  | discard hpc hsubscribed => exact hinv.discard hpc hsubscribed
  | drainPlan hpc => exact hinv.planDrained hpc
  | endDrain hpc hover => exact hinv.endDrain hpc
  | refresh hpc hupdate => exact hinv.refresh hpc
  | line hwaits hhandle =>
      exact hinv.line hwaits fun serial hupdate => hcancel serial _ (by rw [hupdate])
  | refreshFails hpc hupdate | stop hwaits =>
      exact hinv.quiet rfl rfl rfl (fun _ => rfl) (fun _ h => by cases h) (Or.inl rfl)

theorem FateInv.run {serde : SerdeJson} {capacity budget : ℕ} {s₀ : LoopState}
    (hstart : s₀.AtStart) (hrun : Lts.Run (UncancelledStep serde capacity budget) s₀ labels s) :
    FateInv labels s := by
  induction hrun with
  | nil => exact FateInv.start hstart
  | snoc _ hstep ih => exact ih.step hstep

/-- Between two turns no event is in the hands of the loop. -/
theorem FateInv.betweenTurns (hinv : FateInv labels s) (hturn : s.BetweenTurns) (k : ℕ) :
    (∀ subscribed, fate k labels ≠ .taken subscribed) ∧ (∀ own, fate k labels ≠ .due own) ∧
      fate k labels ≠ .recovering ∧ fate k labels ≠ .ignored true := by
  have hpc : s.pc ≠ .stopped ∧ s.pc.serial = none ∧ s.pc.plan = none ∧ s.pc ≠ .overflow := by
    rcases hturn with h | h
    · rw [h]
      exact ⟨by simp, rfl, rfl, by simp⟩
    · rw [h]
      exact ⟨by simp, rfl, rfl, by simp⟩
  obtain ⟨hstopped, hserial, hplan, hoverflow⟩ := hpc
  have hk := hinv.heldBy hstopped k
  refine ⟨?_, ?_, ?_, ?_⟩
  · intro subscribed hf
    rw [hf] at hk
    have hsome : s.pc.serial = some k := hk
    rw [hserial] at hsome
    cases hsome
  · intro own hf
    rw [hf] at hk
    obtain ⟨-, plan, hsome, -⟩ := hk
    rw [hplan] at hsome
    cases hsome
  · intro hf
    rw [hf] at hk
    rcases hk with h | h
    · exact hoverflow h
    · rw [hplan] at h
      cases h
  · intro hf
    rw [hf] at hk
    cases (hk : true = false)

end

end Gitseer
