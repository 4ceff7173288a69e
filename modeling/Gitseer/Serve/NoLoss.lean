/-
**No event gets lost, but by a cancelled update.**

As long as no line wins while the watches are updated, no event gets lost: between two turns every
event waits in the queue, or was dropped with the flag still set, or is settled.  A line that does
win then takes the event with it.

The flag of the queue needs an argument of its own.  While the loop waits for an event the flag can
be set only by an event that finds the queue full, and it was clear when the waiting began; so it is
clear as long as the queue is empty.

Main definitions:

* `QueueInv`, `OfferInv` — what holds of the queue, and of the numbers of the events;
* `Accounted` — what may have become of an event that was offered.

Main results:

* `no_update_lost` — the bounded queue with its flag loses no update;
* `taken_event_settled` — without a cancelled update every event that was taken is settled when the
  turn is over;
* `cancelled_event_lost` — an event that was taken is never settled after its update was cancelled.
-/

import Gitseer.Serve.FateInv

set_option relaxedAutoImplicit false
set_option autoImplicit false

open StdPath (PathBuf)

namespace Gitseer

/-! ### The queue while the loop waits -/

/-- The queue never holds more than its capacity, and while the loop waits for an event the flag is
set only when the queue is full. -/
def QueueInv (capacity : ℕ) (s : LoopState) : Prop :=
  s.queue.items.length ≤ capacity ∧ (s.pc = .recv → s.queue.Tight capacity)

theorem QueueInv.start {capacity : ℕ} {s : LoopState} (h : s.AtStart) : QueueInv capacity s := by
  rw [QueueInv, h.queue, h.pc]
  exact ⟨Nat.zero_le _, fun hpc => by cases hpc⟩

section

variable {serde : SerdeJson} {capacity budget : ℕ} {s s' : LoopState} {l : LoopLabel}

theorem QueueInv.leave (hinv : QueueInv capacity s)
    (hitems : s'.queue.items.length ≤ s.queue.items.length) (hpc : s'.pc ≠ .recv) :
    QueueInv capacity s' :=
  ⟨le_trans hitems hinv.1, fun h => absurd h hpc⟩

theorem withPlan_ne_recv (plan : RefreshPlan) (pc : Pc) (h : pc ≠ .recv) :
    Pc.withPlan plan pc ≠ .recv := by
  unfold Pc.withPlan
  split
  · exact h
  · simp

theorem QueueInv.step (hinv : QueueInv capacity s)
    (h : LoopStep serde capacity budget s l s') : QueueInv capacity s' := by
  cases h with
  | offer hrefresh =>
      exact ⟨LossyQueue.offer_bounded hinv.1,
        fun hpc => LossyQueue.offer_tight hinv.1 (hinv.2 hpc)⟩
  | change hpersists => exact hinv
  | pollOverflow hpc hover => exact hinv.leave le_rfl (by simp)
  | pollRecv hpc hover =>
      -- the flag was tested
      refine ⟨hinv.1, fun _ hset => ?_⟩
      rw [hover] at hset
      cases hset
  | recvTake hpc hitems => exact hinv.leave (by simp [hitems]) (by simp)
  | advance hpc hadvance => exact hinv.leave le_rfl (by simp)
  | plan hpc hsubscribed => exact hinv.leave le_rfl (withPlan_ne_recv _ _ (by simp))
  | discard hpc hsubscribed => exact hinv.leave le_rfl (by simp)
  | wakeOverflow hpc hover =>
      exact hinv.leave le_rfl (withPlan_ne_recv .full (.refresh .full) (by simp))
  | wake hpc hover => exact hinv.leave le_rfl (by simp)
  | drainTake hpc hitems => exact hinv.leave (by simp [hitems]) (by simp)
  | drainPlan hpc =>
      refine hinv.leave le_rfl ?_
      unfold Pc.afterDrained
      split <;> simp
  | drainEmpty hpc hitems => exact hinv.leave le_rfl (by simp)
  | endOverflow hpc hover =>
      exact hinv.leave le_rfl (withPlan_ne_recv .full (.refresh .full) (by simp))
  | endDrain hpc hover => exact hinv.leave le_rfl (withPlan_ne_recv _ _ (by simp))
  | refresh hpc hupdate => exact hinv.leave le_rfl (by simp)
  | refreshFails hpc hupdate => exact hinv.leave le_rfl (by simp)
  | line hwaits hhandle => exact hinv.leave le_rfl (by simp)
  | stop hwaits => exact hinv.leave le_rfl (by simp)

/-- A step offers one event, or it offers none and at most takes some from the queue. -/
theorem LoopStep.queue_cases (h : LoopStep serde capacity budget s l s') :
    (∃ event accepted, l = .offered s.offers event accepted ∧ s'.offers = s.offers + 1 ∧
      ∀ item ∈ s'.queue.items, item ∈ s.queue.items ∨ item = (s.offers, event)) ∨
    (∀ k event accepted, l ≠ .offered k event accepted) ∧ s'.offers = s.offers ∧
      s'.queue.items ⊆ s.queue.items := by
  cases h with
  | @offer event hrefresh =>
      refine Or.inl ⟨event, _, rfl, rfl, ?_⟩
      intro item hitem
      rcases LossyQueue.offer_cases capacity s.queue (s.offers, event) with ⟨-, hq⟩ | ⟨-, hq⟩
      · rw [hq] at hitem
        rcases List.mem_append.1 hitem with hitem | hitem
        · exact Or.inl hitem
        · exact Or.inr (List.mem_singleton.1 hitem)
      · rw [hq] at hitem
        exact Or.inl hitem
  | recvTake hpc hitems =>
      refine Or.inr ⟨fun _ _ _ h => (by cases h), rfl, ?_⟩
      rw [hitems]
      exact List.subset_cons_self _ _
  | drainTake hpc hitems =>
      refine Or.inr ⟨fun _ _ _ h => (by cases h), rfl, ?_⟩
      rw [hitems]
      exact List.subset_cons_self _ _
  | _ => exact Or.inr ⟨fun _ _ _ h => (by cases h), rfl, List.Subset.refl _⟩

/-- The offered events have different numbers, and the queue holds events as they were offered. -/
structure OfferInv (labels : List LoopLabel) (s : LoopState) : Prop where
  offered : ∀ k event accepted, .offered k event accepted ∈ labels → k < s.offers
  items : ∀ item ∈ s.queue.items, item.1 < s.offers ∧
    ∀ event accepted, .offered item.1 event accepted ∈ labels → event = item.2

theorem OfferInv.step {labels : List LoopLabel} (hinv : OfferInv labels s)
    (h : LoopStep serde capacity budget s l s') : OfferInv (labels ++ [l]) s' := by
  rcases h.queue_cases with ⟨event, accepted, rfl, hoffers, hitems⟩ | ⟨hno, hoffers, hitems⟩
  · constructor
    · intro k event' accepted' hmem
      rw [hoffers]
      rcases List.mem_append.1 hmem with hmem | hmem
      · have hlt := hinv.offered k event' accepted' hmem
        omega
      · cases List.mem_singleton.1 hmem
        omega
    · intro item hitem
      rw [hoffers]
      rcases hitems item hitem with hold | rfl
      · obtain ⟨hlt, hsame⟩ := hinv.items item hold
        refine ⟨by omega, ?_⟩
        intro event' accepted' hmem
        rcases List.mem_append.1 hmem with hmem | hmem
        · exact hsame event' accepted' hmem
        · have heq := (LoopLabel.offered.inj (List.mem_singleton.1 hmem)).1
          omega
      · refine ⟨by simp, ?_⟩
        intro event' accepted' hmem
        rcases List.mem_append.1 hmem with hmem | hmem
        · -- the number is new
          have hlt := hinv.offered _ event' accepted' hmem
          simp at hlt
        · exact (LoopLabel.offered.inj (List.mem_singleton.1 hmem)).2.1
  · have hmem_labels : ∀ k event accepted, .offered k event accepted ∈ labels ++ [l] →
        .offered k event accepted ∈ labels := by
      intro k event accepted hmem
      rcases List.mem_append.1 hmem with hmem | hmem
      · exact hmem
      · exact absurd (List.mem_singleton.1 hmem).symm (hno k event accepted)
    constructor
    · intro k event accepted hmem
      rw [hoffers]
      exact hinv.offered k event accepted (hmem_labels k event accepted hmem)
    · intro item hitem
      rw [hoffers]
      obtain ⟨hlt, hsame⟩ := hinv.items item (hitems hitem)
      exact ⟨hlt, fun event accepted hmem => hsame event accepted (hmem_labels _ _ _ hmem)⟩

end

/-! ### No event is lost -/

section

variable {serde : SerdeJson} {capacity budget : ℕ} {s₀ s : LoopState} {labels : List LoopLabel}

/-- What is known of every run without a cancelled update. -/
theorem run_invariants (hstart : s₀.AtStart)
    (hrun : Lts.Run (UncancelledStep serde capacity budget) s₀ labels s) :
    FateInv labels s ∧ QueueInv capacity s ∧ OfferInv labels s := by
  induction hrun with
  | nil =>
      refine ⟨FateInv.start hstart, QueueInv.start hstart, ?_, ?_⟩
      · intro k event accepted hmem
        cases hmem
      · rw [hstart.queue]
        intro item hitem
        cases hitem
  | snoc _ hstep ih =>
      obtain ⟨hfates, hqueue, hoffers⟩ := ih
      exact ⟨hfates.step hstep, hqueue.step hstep.1, hoffers.step hstep.1⟩

/-- The fate of an event that was offered is known. -/
theorem fate_of_offered {k : ℕ} {event : WatchEvent} {accepted : Bool}
    (h : .offered k event accepted ∈ labels) : fate k labels ≠ .unknown := by
  induction labels using List.reverseRecOn with
  | nil => cases h
  | append_singleton labels l ih =>
      rw [fate_concat]
      rcases List.mem_append.1 h with h | h
      · intro hunknown
        rcases Fate.after_cases k (fate k labels) l with hsame | hchanges
        · exact ih h (hsame.symm.trans hunknown)
        · rw [hunknown] at hchanges
          generalize fate k labels = f at hchanges
          cases hchanges
      · obtain rfl := List.mem_singleton.1 h
        cases fate k labels with
        | unknown =>
            rw [Fate.after, if_pos rfl]
            cases accepted <;> simp
        | _ => simp [Fate.after]

/-- With a subscriber nothing is ignored. -/
theorem fate_ne_ignored (hrun : Lts.Run (SubscribedStep serde capacity budget) s₀ labels s) (k : ℕ)
    (subscribed : Bool) : fate k labels ≠ .ignored subscribed := by
  induction hrun with
  | nil => simp [fate]
  | @snoc labels s l s' _ hstep ih =>
      rw [fate_concat]
      intro hignored
      rcases Fate.after_cases k (fate k labels) l with hsame | hchanges
      · exact ih (hsame.symm.trans hignored)
      · have hdiscarded : l = .discarded := by
          rw [hignored] at hchanges
          generalize fate k labels = f at hchanges
          cases hchanges <;> rfl
        subst hdiscarded
        obtain ⟨⟨hstep, -⟩, hsubscribed⟩ := hstep
        cases hstep with
        | discard hpc hnot =>
            rw [hsubscribed] at hnot
            cases hnot

/-- What may have become of an event that was offered.  It waits in the queue, or was dropped with
the flag still set, or was covered by a refresh; in the middle of a turn it may also be in the hands
of the loop, and every turn comes to its end. -/
def Accounted (serde : SerdeJson) (capacity budget : ℕ) (labels : List LoopLabel) (s : LoopState)
    (k : ℕ) (event : WatchEvent) : Prop :=
  (k, event) ∈ s.queue.items ∨
  DroppedBy k labels ∧ s.queue.overflowed = true ∨
  SettledBy k labels ∨ RecoveredBy k labels ∨
  ¬ s.BetweenTurns ∧ (fate k labels).InHand ∧ Finishes serde capacity budget s

/-- The bounded queue with its flag loses no update, and while the loop waits at an empty queue the
flag is clear. -/
theorem no_update_lost (hstart : s₀.AtStart) (hcapacity : 0 < capacity)
    (hrun : Lts.Run (SubscribedStep serde capacity budget) s₀ labels s) :
    (∀ k event accepted, .offered k event accepted ∈ labels →
      Accounted serde capacity budget labels s k event) ∧
    (s.pc = .recv → s.queue.items = [] → s.queue.overflowed = false) := by
  obtain ⟨hfates, hqueue, hoffers⟩ := run_invariants hstart (hrun.mono fun _ _ _ h => h.1)
  constructor
  · intro k event accepted hoffered
    have hexplained := fate_explained k labels
    by_cases hhand : (fate k labels).InHand
    · have hturn : ¬ s.BetweenTurns := by
        intro hturn
        obtain ⟨htaken, hdue, hrecovering, -⟩ := hfates.betweenTurns hturn k
        cases hf : fate k labels with
        | taken subscribed => exact htaken subscribed hf
        | due own => exact hdue own hf
        | recovering => exact hrecovering hf
        | _ => rw [hf] at hhand; exact hhand
      exact Or.inr (Or.inr (Or.inr (Or.inr ⟨hturn, hhand, exists_turn s hturn⟩)))
    · have hplace := (hfates.held k).resolve_left fun h => hhand h.2
      cases hf : fate k labels with
      | unknown => exact absurd hf (fate_of_offered hoffered)
      | queued =>
          rw [hf] at hplace
          obtain ⟨event', hmem⟩ := hplace
          have heq : event = event' := (hoffers.items _ hmem).2 event accepted hoffered
          subst heq
          exact Or.inl hmem
      | lost =>
          rw [hf] at hexplained hplace
          exact Or.inr (Or.inl ⟨hexplained, hplace⟩)
      | settled =>
          rw [hf] at hexplained
          exact Or.inr (Or.inr (Or.inl hexplained))
      | recovered =>
          rw [hf] at hexplained
          exact Or.inr (Or.inr (Or.inr (Or.inl hexplained)))
      | ignored subscribed => exact absurd hf (fate_ne_ignored hrun k subscribed)
      | taken subscribed => rw [hf] at hhand; exact absurd trivial hhand
      | due own => rw [hf] at hhand; exact absurd trivial hhand
      | recovering => rw [hf] at hhand; exact absurd trivial hhand
  · intro hpc hempty
    exact (hqueue.2 hpc).not_overflowed hcapacity hempty

/-- The event was taken with a subscriber. -/
def Fate.WasTaken : Fate → Prop
  | taken subscribed => subscribed = true
  | due _ => True
  | settled => True
  | ignored subscribed => subscribed = true
  | _ => False

theorem Fate.WasTaken.changes {k : ℕ} {f f' : Fate} {l : LoopLabel} (h : f.WasTaken)
    (hchanges : f.Changes k l f') : f'.WasTaken := by
  cases hchanges with
  | planned subscribed hplan => trivial
  | nothing subscribed hplan => trivial
  | ignored subscribed => exact h
  | refreshed messages hle => trivial
  | accepted event => cases h
  | dropped event => cases h
  | took event subscribed reconciles => cases h
  | noticed test => cases h
  | ignoredLoss => cases h
  | recovered messages => cases h

/-- What was taken with a subscriber was taken, whatever became of it afterwards. -/
theorem wasTaken_of_took (hstart : s₀.AtStart)
    (hrun : Lts.Run (UncancelledStep serde capacity budget) s₀ labels s) {k : ℕ}
    {event : WatchEvent} {reconciles : Bool} (htook : .took k event true reconciles ∈ labels) :
    (fate k labels).WasTaken := by
  induction hrun with
  | nil => cases htook
  | @snoc labels s l s' hrun hstep ih =>
      rw [fate_concat]
      rcases List.mem_append.1 htook with htook | htook
      · rcases Fate.after_cases k (fate k labels) l with hsame | hchanges
        · rw [hsame]
          exact ih htook
        · exact (ih htook).changes hchanges
      · -- the event was the first one of the queue
        obtain rfl := List.mem_singleton.1 htook
        have hqueued : fate k labels = .queued := by
          have hfates := (run_invariants hstart hrun).1
          obtain ⟨hstep, -⟩ := hstep
          generalize hl : LoopLabel.took k event true reconciles = l at hstep
          cases hstep with
          | recvTake hpc hitems =>
              obtain rfl := (LoopLabel.took.inj hl).1
              exact hfates.queued (k, _) (by rw [hitems]; exact List.mem_cons_self ..)
          | drainTake hpc hitems =>
              obtain rfl := (LoopLabel.took.inj hl).1
              exact hfates.queued (k, _) (by rw [hitems]; exact List.mem_cons_self ..)
          | _ => cases hl
        rw [hqueued, Fate.after, if_pos rfl]
        rfl

/-- Without a cancelled update every event that was taken with a subscriber is settled when the turn
is over, and every turn comes to its end. -/
theorem taken_event_settled (hstart : s₀.AtStart)
    (hrun : Lts.Run (UncancelledStep serde capacity budget) s₀ labels s) :
    (s.BetweenTurns → ∀ k event reconciles, .took k event true reconciles ∈ labels →
      SettledBy k labels) ∧
    (¬ s.BetweenTurns → Finishes serde capacity budget s) := by
  refine ⟨?_, exists_turn s⟩
  intro hturn k event reconciles htook
  obtain ⟨htaken, hdue, -, hignored⟩ := (run_invariants hstart hrun).1.betweenTurns hturn k
  have hwas := wasTaken_of_took hstart hrun htook
  have hexplained := fate_explained k labels
  cases hf : fate k labels with
  | settled =>
      rw [hf] at hexplained
      exact hexplained
  | taken subscribed => exact absurd hf (htaken subscribed)
  | due own => exact absurd hf (hdue own)
  | ignored subscribed =>
      rw [hf] at hwas
      cases (show subscribed = true from hwas)
      exact absurd hf hignored
  | unknown => rw [hf] at hwas; cases hwas
  | queued => rw [hf] at hwas; cases hwas
  | lost => rw [hf] at hwas; cases hwas
  | recovering => rw [hf] at hwas; cases hwas
  | recovered => rw [hf] at hwas; cases hwas

end

/-! ### One event, and the line that takes it away -/

/-- A subscriber has the first baseline; a directory for sources is there that is not watched. -/
def serveState (listed : Option ℕ) (live : Finset ℕ) (queue : LossyQueue (ℕ × WatchEvent))
    (offers : ℕ) (pc : Pc) : LoopState where
  process := { basedState plainSnapshot with subscribed := true }
  watcher := srcWatcher listed live
  world := srcWorld (some 3)
  queue := queue
  offers := offers
  pc := pc

theorem serveState_atStart : (serveState none {2, 1} {} 0 .head).AtStart := ⟨rfl, rfl, rfl⟩

/-- The watches stay as they are when the directory for sources is there. -/
theorem serveState_persists : (srcWatcher none {2, 1}).notify.Persists
    (srcWatcher none {2, 1}).notify (srcWorld (some 3)).fs := by
  refine srcWatcher_persists fun inode => ?_
  simp only [Finset.mem_insert, Finset.mem_singleton]
  tauto

/-- The steps of a loop with a subscriber, with the bounds of the source. -/
abbrev ServeStep : LoopState → LoopLabel → LoopState → Prop :=
  SubscribedStep refreshJson maxPendingWatchEvents maxDebounceDrainEvents

/-- The first event is offered and taken; the queue is empty then. -/
theorem serveState_taken (serde : SerdeJson) {event : WatchEvent} {pending : Option Pending}
    {reconciles : Bool}
    (hmutates : shouldRefreshForEvent event = true)
    (hupdate : (srcWatcher none {2, 1}).updateWatchesForEvent (srcWorld (some 3)) event = pending)
    (hreconciles : (serveState none {2, 1} ⟨[(0, event)], false⟩ 1 .recv).reconcilesFor event =
      reconciles) :
    Lts.Run (SubscribedStep serde maxPendingWatchEvents maxDebounceDrainEvents)
      (serveState none {2, 1} {} 0 .head)
      [.offered 0 event true, .polled, .took 0 event true reconciles]
      (serveState none {2, 1} {} 1 (.received 0 event pending none)) := by
  have hoffer : SubscribedStep serde maxPendingWatchEvents maxDebounceDrainEvents
      (serveState none {2, 1} {} 0 .head) (.offered 0 event true)
      (serveState none {2, 1} ⟨[(0, event)], false⟩ 1 .head) :=
    ⟨⟨.offer hmutates, fun _ _ h => by cases h⟩, rfl⟩
  have hpoll : SubscribedStep serde maxPendingWatchEvents maxDebounceDrainEvents
      (serveState none {2, 1} ⟨[(0, event)], false⟩ 1 .head) .polled
      (serveState none {2, 1} ⟨[(0, event)], false⟩ 1 .recv) :=
    ⟨⟨.pollRecv rfl rfl, fun _ _ h => by cases h⟩, rfl⟩
  have htake : SubscribedStep serde maxPendingWatchEvents maxDebounceDrainEvents
      (serveState none {2, 1} ⟨[(0, event)], false⟩ 1 .recv) (.took 0 event true reconciles)
      (serveState none {2, 1} {} 1 (.received 0 event pending none)) := by
    refine ⟨⟨?_, fun _ _ h => by cases h⟩, rfl⟩
    rw [← hreconciles, ← hupdate]
    exact .recvTake rfl rfl
  exact ((Lts.Run.single hoffer).snoc hpoll).snoc htake

/-- The event of the directory is offered and taken, and its directory is being scanned. -/
theorem serveState_scanning :
    Lts.Run ServeStep (serveState none {2, 1} {} 0 .head)
      [.offered 0 srcCreated true, .polled, .took 0 srcCreated true false,
        .advanced (.paths repoRoot srcPath [])]
      (serveState none {2, 1} {} 1
        (.received 0 srcCreated (some (.scan repoRoot srcPath [])) none)) := by
  have hupdate : (srcWatcher none {2, 1}).updateWatchesForEvent (srcWorld (some 3)) srcCreated =
      some (.paths repoRoot srcPath []) := by decide
  have hreconciles : (serveState none {2, 1} ⟨[(0, srcCreated)], false⟩ 1 .recv).reconcilesFor
      srcCreated = false := by decide
  have hadvance : ServeStep (serveState none {2, 1} {} 1
        (.received 0 srcCreated (some (.paths repoRoot srcPath [])) none))
      (.advanced (.paths repoRoot srcPath []))
      (serveState none {2, 1} {} 1
        (.received 0 srcCreated (some (.scan repoRoot srcPath [])) none)) := by
    have hpath : Pending.advance (srcWatcher none {2, 1}) (srcWorld (some 3))
        (.paths repoRoot srcPath []) =
        (srcWatcher none {2, 1}, some (.scan repoRoot srcPath [])) := by decide
    exact ⟨⟨.advance rfl hpath, fun _ _ h => by cases h⟩, rfl⟩
  exact (serveState_taken refreshJson rfl hupdate hreconciles).snoc hadvance

/-- Nothing comes in while the loop drains for the plan of an event. -/
theorem serveState_drained (serde : SerdeJson) {listed : Option ℕ} {live : Finset ℕ}
    {serial offers : ℕ} {event : WatchEvent} {plan : RefreshPlan}
    (hown : (serveState listed live {} offers
      (.received serial event none none)).refreshPlanForEvent event = plan)
    (hrefresh : plan.shouldRefresh = true) :
    Lts.Run (SubscribedStep serde maxPendingWatchEvents maxDebounceDrainEvents)
      (serveState listed live {} offers (.received serial event none none))
      [.planned (some serial) plan, .moved, .moved, .moved]
      (serveState listed live {} offers (.refresh plan)) := by
  have hwith : ∀ pc, Pc.withPlan plan pc = pc := fun pc => if_pos hrefresh
  have hplan : SubscribedStep serde maxPendingWatchEvents maxDebounceDrainEvents
      (serveState listed live {} offers (.received serial event none none))
      (.planned (some serial) plan) (serveState listed live {} offers (.debounce plan)) := by
    have hstep : LoopStep serde maxPendingWatchEvents maxDebounceDrainEvents
        (serveState listed live {} offers (.received serial event none none))
        (.planned (some serial) _) _ := .plan rfl rfl
    rw [hown, hwith] at hstep
    exact ⟨⟨hstep, fun _ _ h => by cases h⟩, rfl⟩
  have hwake : SubscribedStep serde maxPendingWatchEvents maxDebounceDrainEvents
      (serveState listed live {} offers (.debounce plan)) .moved
      (serveState listed live {} offers (.drain plan 0)) :=
    ⟨⟨.wake rfl rfl, fun _ _ h => by cases h⟩, rfl⟩
  have hempty : SubscribedStep serde maxPendingWatchEvents maxDebounceDrainEvents
      (serveState listed live {} offers (.drain plan 0)) .moved
      (serveState listed live {} offers (.drainEnd plan)) :=
    ⟨⟨.drainEmpty rfl rfl, fun _ _ h => by cases h⟩, rfl⟩
  have hend : SubscribedStep serde maxPendingWatchEvents maxDebounceDrainEvents
      (serveState listed live {} offers (.drainEnd plan)) .moved
      (serveState listed live {} offers (.refresh plan)) := by
    have hstep : LoopStep serde maxPendingWatchEvents maxDebounceDrainEvents
        (serveState listed live {} offers (.drainEnd plan)) .moved
        { serveState listed live {} offers (.drainEnd plan) with
          pc := Pc.withPlan plan (.refresh plan) } := .endDrain rfl rfl
    rw [hwith] at hstep
    exact ⟨⟨hstep, fun _ _ h => by cases h⟩, rfl⟩
  exact (((Lts.Run.single hplan).snoc hwake).snoc hempty).snoc hend

/-- The plan of the event. -/
def srcPlan : RefreshPlan := .domains {.paths}

/-- The directory is watched, and its plan is computed, drained for and refreshed by. -/
theorem serveState_settled : ∃ labels,
    Lts.Run ServeStep (serveState none {2, 1} {} 0 .head) labels
      (serveState (some 3) {3, 2, 1} {} 1 .head) ∧
    .offered 0 srcCreated true ∈ labels ∧ .took 0 srcCreated true false ∈ labels := by
  have hscan : ServeStep (serveState none {2, 1} {} 1
        (.received 0 srcCreated (some (.scan repoRoot srcPath [])) none))
      (.advanced (.scan repoRoot srcPath []))
      (serveState none {2, 1} {} 1
        (.received 0 srcCreated (some (.scanned repoRoot srcPath [srcPath] [])) none)) := by
    have hdirs : Pending.advance (srcWatcher none {2, 1}) (srcWorld (some 3))
        (.scan repoRoot srcPath []) =
        (srcWatcher none {2, 1}, some (.scanned repoRoot srcPath [srcPath] [])) := by decide
    exact ⟨⟨.advance rfl hdirs, fun _ _ h => by cases h⟩, rfl⟩
  have hwatch : ServeStep (serveState none {2, 1} {} 1
        (.received 0 srcCreated (some (.scanned repoRoot srcPath [srcPath] [])) none))
      (.advanced (.scanned repoRoot srcPath [srcPath] []))
      (serveState (some 3) {3, 2, 1} {} 1 (.received 0 srcCreated none none)) := by
    have hwatched : Pending.advance (srcWatcher none {2, 1}) (srcWorld (some 3))
        (.scanned repoRoot srcPath [srcPath] []) =
        (srcWatcher (some 3) {3, 2, 1}, none) := by decide
    exact ⟨⟨.advance rfl hwatched, fun _ _ h => by cases h⟩, rfl⟩
  have hown : (serveState (some 3) {3, 2, 1} {} 1
      (.received 0 srcCreated none none)).refreshPlanForEvent srcCreated = srcPlan := by decide
  have hturn := serveState_drained refreshJson hown rfl
  have hrefresh : ServeStep (serveState (some 3) {3, 2, 1} {} 1 (.refresh srcPlan))
      (.refreshed srcPlan []) (serveState (some 3) {3, 2, 1} {} 1 .head) :=
    ⟨⟨.refresh rfl rfl, fun _ _ h => by cases h⟩, rfl⟩
  have hrun := (serveState_scanning.snoc hscan).snoc hwatch
  exact ⟨_, (hrun.append hturn).snoc hrefresh, by simp, by simp⟩

/-- Nothing of the event is lost in the run above. -/
theorem no_update_lost_src : ∃ labels s,
    Lts.Run ServeStep (serveState none {2, 1} {} 0 .head) labels s ∧
    Accounted refreshJson maxPendingWatchEvents maxDebounceDrainEvents labels s 0 srcCreated := by
  obtain ⟨labels, hrun, hoffered, -⟩ := serveState_settled
  exact ⟨labels, _, hrun,
    (no_update_lost serveState_atStart (by decide) hrun).1 0 srcCreated true hoffered⟩

/-- The event is settled in the run above. -/
theorem taken_event_settled_src : ∃ labels s,
    Lts.Run (UncancelledStep refreshJson maxPendingWatchEvents maxDebounceDrainEvents)
      (serveState none {2, 1} {} 0 .head) labels s ∧ SettledBy 0 labels := by
  obtain ⟨labels, hrun, -, htook⟩ := serveState_settled
  have hrun := hrun.mono fun _ _ _ h => h.1
  exact ⟨labels, _, hrun,
    (taken_event_settled serveState_atStart hrun).1 (Or.inl rfl) 0 srcCreated false htook⟩

/-- A line comes while the directory of the event is scanned, and the event is gone: the loop is
back at its head, the queue is empty, and no plan was ever computed for it. -/
theorem cancelled_event_lost : ∃ labels s,
    Lts.Run (LoopStep refreshJson maxPendingWatchEvents maxDebounceDrainEvents)
      (serveState none {2, 1} {} 0 .head) labels s ∧
    .took 0 srcCreated true false ∈ labels ∧
    s.pc = .head ∧ s.queue.items = [] ∧ ¬ SettledBy 0 labels := by
  have hrun := serveState_scanning.mono fun _ _ _ h => h.1.1
  obtain ⟨messages, hline⟩ : ∃ messages, handleRequest refreshJson
      (serveState none {2, 1} {} 1
        (.received 0 srcCreated (some (.scan repoRoot srcPath [])) none)).read
      { basedState plainSnapshot with subscribed := true } "" =
      some ({ basedState plainSnapshot with subscribed := true }, messages) :=
    exists_messages (by decide)
  have hcancel : LoopStep refreshJson maxPendingWatchEvents maxDebounceDrainEvents
      (serveState none {2, 1} {} 1
        (.received 0 srcCreated (some (.scan repoRoot srcPath [])) none))
      (.line (some 0) messages) (serveState none {2, 1} {} 1 .head) := .line rfl hline
  refine ⟨_, _, hrun.snoc hcancel, by simp, rfl, rfl, ?_⟩
  rintro ⟨own, after, ⟨before, hlabels, -⟩, -⟩
  have hmem : LoopLabel.planned (some 0) own ∈ before ++ .planned (some 0) own :: after := by simp
  rw [← hlabels] at hmem
  simp at hmem

end Gitseer
