/-
**The loop of the worker while it has an active watcher.**

The loop waits for a line of input and for the next event of the watcher, and takes whichever comes
first.  The future of the other one is dropped.  For an event it computes a plan, waits a moment,
drains the events that came in meanwhile, and refreshes once for all of them.

The thread of the watcher offers events to a bounded queue at any time; an event for which there is
no room sets a flag, which is tested when the loop asks for the next event and at both ends of the
draining.  Where `Pc` is, the loop waits for something or has just done something that others can
see; what it does between two such places is one step.

A line wins wherever the future of the next event is suspended.  While it waits for an event nothing
is lost with the future.  While it updates the watches for an event that it has taken from the
queue, the event is.

Main definitions:

* `Pc`, `LoopState`, `LoopLabel` — the places of the loop, its states and what is seen of a step;
* `LoopStep` — the steps of the loop, of the thread of the watcher and of the world.

Main results:

* `exists_turn` — from every place the loop comes back to its head, or stops.
-/

import Gitseer.Lib.Overflow
import Gitseer.Lib.Run
import Gitseer.Serve.Quiescence
import Gitseer.Watch.Liveness

set_option relaxedAutoImplicit false
set_option autoImplicit false

open StdPath (PathBuf)

namespace Gitseer

/-! ### States -/

/-- The number of events a turn drains at most. -/
def maxDebounceDrainEvents : ℕ := 256

/-- The number of events the queue holds at most. -/
def maxPendingWatchEvents : ℕ := 4096

/-- Where the loop is.  An event that was received is followed by what is left of the update of the
watches for it; it was received for the loop itself, or while draining with a plan and a count of
the events drained before. -/
inductive Pc
  | head
  | recv
  | received (serial : ℕ) (event : WatchEvent) (pending : Option Pending)
      (draining : Option (RefreshPlan × ℕ))
  | overflow
  | debounce (plan : RefreshPlan)
  | drain (plan : RefreshPlan) (drained : ℕ)
  | drainEnd (plan : RefreshPlan)
  | refresh (plan : RefreshPlan)
  | stopped

/-- Events are numbered in the order in which they are offered; `offers` is the next number. -/
structure LoopState where
  process : ProcessState
  watcher : RepositoryWatcher
  world : World
  queue : LossyQueue (ℕ × WatchEvent) := {}
  offers : ℕ := 0
  pc : Pc := .head

/-- Where the overflow flag is tested. -/
inductive OverflowTest
  | nextEvent
  | drainStart
  | drainEnd
  deriving DecidableEq

/-- What is seen of a step. -/
inductive LoopLabel
  | offered (serial : ℕ) (event : WatchEvent) (accepted : Bool)
  | changed
  | polled
  | overflowTaken (test : OverflowTest)
  | took (serial : ℕ) (event : WatchEvent) (subscribed reconciles : Bool)
  | advanced (pending : Pending)
  | planned (serial : Option ℕ) (plan : RefreshPlan)
  | discarded
  | moved
  | refreshed (plan : RefreshPlan) (messages : List ServerMessage)
  | line (cancelled : Option ℕ) (messages : List ServerMessage)
  | stopped

/-- What the next event is after an overflow. -/
def overflowEvent : WatchEvent := .error "repository watcher event queue overflowed"

/-- Does the loop wait there, so that a line can win? -/
def Pc.waits : Pc → Bool
  | .head => true
  | .recv => true
  | .received _ _ (some pending) none => pending.isSuspended
  | _ => false

/-- The event that is lost when a line wins there. -/
def Pc.inUpdate : Pc → Option ℕ
  | .received serial _ _ none => some serial
  | _ => none

/-- The event the loop has in its hands. -/
def Pc.returned : Pc → Option (Option ℕ × WatchEvent)
  | .received serial event none none => some (some serial, event)
  | .overflow => some (none, overflowEvent)
  | _ => none

/-- `RepositoryWatcher::refresh_plan_for_event`. -/
def LoopState.refreshPlanForEvent (s : LoopState) (event : WatchEvent) : RefreshPlan :=
  Gitseer.refreshPlanForEvent s.world.discover event s.watcher.repoPath s.watcher.worktreeRoot
    s.watcher.gitDir s.watcher.commonDir

/-- Does the watcher read everything again for the event? -/
def LoopState.reconcilesFor (s : LoopState) : WatchEvent → Bool
  | .ok event => s.watcher.reconcilesFor s.world event
  | .error _ => false

/-- Reading a snapshot in the world of a state. -/
def LoopState.read (s : LoopState) : SnapshotRead :=
  snapshotRepositoryWithOptions s.world.discover

/-- Where the loop goes on with a plan: back to its head when there is nothing to refresh. -/
def Pc.withPlan (plan : RefreshPlan) (pc : Pc) : Pc := if plan.shouldRefresh then pc else .head

/-- Where the draining goes on after an event. -/
def Pc.afterDrained (budget : ℕ) (plan : RefreshPlan) (drained : ℕ) : Pc :=
  if budget ≤ drained then .drainEnd plan else .drain plan drained

/-! ### Steps -/

/-- The steps, for a capacity of the queue and a budget of the draining. -/
inductive LoopStep (serde : SerdeJson) (capacity budget : ℕ) :
    LoopState → LoopLabel → LoopState → Prop
  -- the thread of the watcher, and the world
  | offer {s : LoopState} {event : WatchEvent} (h : shouldRefreshForEvent event = true) :
      LoopStep serde capacity budget s
        (.offered s.offers event (decide (s.queue.items.length < capacity)))
        { s with queue := s.queue.offer capacity (s.offers, event), offers := s.offers + 1 }
  | change {s : LoopState} {world : World} {notify : Notify}
      (hpersists : s.watcher.notify.Persists notify world.fs) :
      LoopStep serde capacity budget s .changed
        { s with world := world, watcher := { s.watcher with notify := notify } }
  -- the next event
  | pollOverflow {s : LoopState} (hpc : s.pc = .head) (h : s.queue.overflowed = true) :
      LoopStep serde capacity budget s (.overflowTaken .nextEvent)
        { s with queue := s.queue.takeOverflow, pc := .overflow }
  | pollRecv {s : LoopState} (hpc : s.pc = .head) (h : s.queue.overflowed = false) :
      LoopStep serde capacity budget s .polled { s with pc := .recv }
  | recvTake {s : LoopState} {serial : ℕ} {event : WatchEvent} {rest : List (ℕ × WatchEvent)}
      (hpc : s.pc = .recv) (hitems : s.queue.items = (serial, event) :: rest) :
      LoopStep serde capacity budget s
        (.took serial event s.process.subscribed (s.reconcilesFor event))
        { s with
          queue := { s.queue with items := rest }
          pc := .received serial event (s.watcher.updateWatchesForEvent s.world event) none }
  | advance {s : LoopState} {serial : ℕ} {event : WatchEvent} {pending : Pending}
      {next : Option Pending} {draining : Option (RefreshPlan × ℕ)} {watcher : RepositoryWatcher}
      (hpc : s.pc = .received serial event (some pending) draining)
      (h : pending.advance s.watcher s.world = (watcher, next)) :
      LoopStep serde capacity budget s (.advanced pending)
        { s with watcher := watcher, pc := .received serial event next draining }
  | plan {s : LoopState} {serial : Option ℕ} {event : WatchEvent}
      (hpc : s.pc.returned = some (serial, event)) (hsubscribed : s.process.subscribed = true) :
      LoopStep serde capacity budget s (.planned serial (s.refreshPlanForEvent event))
        { s with
          pc := Pc.withPlan (s.refreshPlanForEvent event)
            (.debounce (s.refreshPlanForEvent event)) }
  | discard {s : LoopState} {serial : Option ℕ} {event : WatchEvent}
      (hpc : s.pc.returned = some (serial, event)) (hsubscribed : s.process.subscribed = false) :
      LoopStep serde capacity budget s .discarded { s with pc := .head }
  -- the draining
  | wakeOverflow {s : LoopState} {plan : RefreshPlan} (hpc : s.pc = .debounce plan)
      (h : s.queue.overflowed = true) :
      LoopStep serde capacity budget s (.overflowTaken .drainStart)
        { s with queue := s.queue.takeOverflow, pc := Pc.withPlan .full (.refresh .full) }
  | wake {s : LoopState} {plan : RefreshPlan} (hpc : s.pc = .debounce plan)
      (h : s.queue.overflowed = false) :
      LoopStep serde capacity budget s .moved { s with pc := .drain plan 0 }
  | drainTake {s : LoopState} {plan : RefreshPlan} {drained serial : ℕ} {event : WatchEvent}
      {rest : List (ℕ × WatchEvent)} (hpc : s.pc = .drain plan drained)
      (hitems : s.queue.items = (serial, event) :: rest) :
      LoopStep serde capacity budget s
        (.took serial event s.process.subscribed (s.reconcilesFor event))
        { s with
          queue := { s.queue with items := rest }
          pc := .received serial event (s.watcher.updateWatchesForEvent s.world event)
            (some (plan, drained)) }
  | drainPlan {s : LoopState} {serial drained : ℕ} {event : WatchEvent} {plan : RefreshPlan}
      (hpc : s.pc = .received serial event none (some (plan, drained))) :
      LoopStep serde capacity budget s (.planned (some serial) (s.refreshPlanForEvent event))
        { s with
          pc := Pc.afterDrained budget (plan.combine (s.refreshPlanForEvent event))
            (drained + 1) }
  | drainEmpty {s : LoopState} {plan : RefreshPlan} {drained : ℕ} (hpc : s.pc = .drain plan drained)
      (hitems : s.queue.items = []) :
      LoopStep serde capacity budget s .moved { s with pc := .drainEnd plan }
  | endOverflow {s : LoopState} {plan : RefreshPlan} (hpc : s.pc = .drainEnd plan)
      (h : s.queue.overflowed = true) :
      LoopStep serde capacity budget s (.overflowTaken .drainEnd)
        { s with queue := s.queue.takeOverflow, pc := Pc.withPlan .full (.refresh .full) }
  | endDrain {s : LoopState} {plan : RefreshPlan} (hpc : s.pc = .drainEnd plan)
      (h : s.queue.overflowed = false) :
      LoopStep serde capacity budget s .moved { s with pc := Pc.withPlan plan (.refresh plan) }
  -- the refresh
  | refresh {s : LoopState} {plan : RefreshPlan} {process : ProcessState}
      {messages : List ServerMessage} (hpc : s.pc = .refresh plan)
      (h : automaticUpdate s.world.discover s.process plan = .ok (some (process, messages))) :
      LoopStep serde capacity budget s (.refreshed plan messages)
        { s with process := process, pc := .head }
  | refreshFails {s : LoopState} {plan : RefreshPlan} (hpc : s.pc = .refresh plan)
      (h : ∀ result, automaticUpdate s.world.discover s.process plan ≠ .ok (some result)) :
      LoopStep serde capacity budget s .stopped { s with pc := .stopped }
  -- the input
  | line {s : LoopState} {text : String} {process : ProcessState} {messages : List ServerMessage}
      (hwaits : s.pc.waits = true)
      (h : handleRequest serde s.read s.process text = some (process, messages)) :
      LoopStep serde capacity budget s (.line s.pc.inUpdate messages)
        { s with process := process, pc := .head }
  | stop {s : LoopState} (hwaits : s.pc.waits = true) :
      LoopStep serde capacity budget s .stopped { s with pc := .stopped }

/-- The loop is at its head with a new queue. -/
structure LoopState.AtStart (s : LoopState) : Prop where
  pc : s.pc = .head
  queue : s.queue = {}
  offers : s.offers = 0

/-- The loop is between two turns: it waits for the next event, or is about to. -/
def LoopState.BetweenTurns (s : LoopState) : Prop := s.pc = .head ∨ s.pc = .recv

/-! ### Every turn comes to an end -/

/-- The steps that the loop takes by itself. -/
def LoopLabel.own : LoopLabel → Bool
  | .offered _ _ _ => false
  | .changed => false
  | .line _ _ => false
  | _ => true

/-- A step that the loop takes by itself. -/
def OwnStep (serde : SerdeJson) (capacity budget : ℕ) (s : LoopState) (l : LoopLabel)
    (s' : LoopState) : Prop :=
  LoopStep serde capacity budget s l s' ∧ l.own = true

/-- The loop comes back to its head by itself, or stops. -/
def Finishes (serde : SerdeJson) (capacity budget : ℕ) (s : LoopState) : Prop :=
  ∃ labels s', Lts.Run (OwnStep serde capacity budget) s labels s' ∧
    (s'.pc = .head ∨ s'.pc = .stopped)

/-- A bound on the parts an update still has. -/
def Pending.parts : Pending → ℕ
  | paths _ _ rest => 3 * rest.length + 3
  | scan _ _ rest => 3 * rest.length + 2
  | scanned _ _ _ rest => 3 * rest.length + 1
  | reconcile => 2
  | reconciled _ => 1

theorem Pending.parts_next {worktreeRoot : PathBuf} {rest : List PathBuf} {next : Pending}
    (h : Pending.next worktreeRoot rest = some next) : next.parts ≤ 3 * rest.length := by
  cases rest with
  | nil => cases h
  | cons path rest =>
      obtain rfl := Option.some.inj h
      simp only [parts, List.length_cons]
      omega

theorem Pending.parts_advance {pending next : Pending} {watcher watcher' : RepositoryWatcher}
    {world : World} (h : pending.advance watcher world = (watcher', some next)) :
    next.parts < pending.parts := by
  cases pending with
  | paths worktreeRoot path rest =>
      simp only [advance] at h
      split at h
      · obtain rfl := Option.some.inj (Prod.mk.inj h).2
        simp only [parts]
        omega
      · have hle := parts_next (Prod.mk.inj h).2
        refine Nat.lt_of_le_of_lt hle ?_
        simp only [parts]
        omega
  | scan worktreeRoot path rest =>
      obtain rfl := Option.some.inj (Prod.mk.inj h).2
      simp only [parts]
      omega
  | scanned worktreeRoot path dirs rest =>
      have hle := parts_next (Prod.mk.inj h).2
      refine Nat.lt_of_le_of_lt hle ?_
      simp only [parts]
      omega
  | reconcile =>
      obtain rfl := Option.some.inj (Prod.mk.inj h).2
      simp only [parts]
      omega
  | reconciled result => cases result <;> cases (Prod.mk.inj h).2

section

variable {serde : SerdeJson} {capacity budget : ℕ} {s s' : LoopState}

theorem Finishes.step {l : LoopLabel} (hstep : LoopStep serde capacity budget s l s')
    (hown : l.own = true) (h : Finishes serde capacity budget s') :
    Finishes serde capacity budget s := by
  obtain ⟨labels, t, hrun, hpc⟩ := h
  exact ⟨l :: labels, t, hrun.cons ⟨hstep, hown⟩, hpc⟩

theorem Finishes.done (h : s.pc = .head ∨ s.pc = .stopped) : Finishes serde capacity budget s :=
  ⟨[], s, Lts.Run.nil, h⟩

theorem finishes_refresh {plan : RefreshPlan} (hpc : s.pc = .refresh plan) :
    Finishes serde capacity budget s := by
  cases hupdate : automaticUpdate s.world.discover s.process plan with
  | ok result =>
      cases result with
      | some result => exact (Finishes.done (Or.inl rfl)).step (.refresh hpc hupdate) rfl
      | none =>
          refine (Finishes.done (Or.inr rfl)).step (.refreshFails hpc ?_) rfl
          rw [hupdate]
          simp
  | error e =>
      refine (Finishes.done (Or.inr rfl)).step (.refreshFails hpc ?_) rfl
      rw [hupdate]
      simp

/-- Going on with a plan leads to the head at once when there is nothing to refresh. -/
theorem Finishes.withPlan {plan : RefreshPlan} {pc : Pc}
    (h : Finishes serde capacity budget { s with pc := pc }) :
    Finishes serde capacity budget { s with pc := Pc.withPlan plan pc } := by
  unfold Pc.withPlan
  split
  · exact h
  · exact Finishes.done (Or.inl rfl)

theorem finishes_drainEnd {plan : RefreshPlan} (hpc : s.pc = .drainEnd plan) :
    Finishes serde capacity budget s := by
  cases hover : s.queue.overflowed with
  | true =>
      refine Finishes.step (.endOverflow hpc hover) rfl ?_
      exact Finishes.withPlan (s := { s with queue := s.queue.takeOverflow }) (finishes_refresh rfl)
  | false =>
      refine Finishes.step (.endDrain hpc hover) rfl ?_
      exact Finishes.withPlan (finishes_refresh rfl)

theorem Pending.parts_pos (pending : Pending) : 0 < pending.parts := by
  cases pending <;> simp only [parts] <;> omega

/-- An update comes to an end, with the same queue. -/
theorem finishes_update {serial : ℕ} {event : WatchEvent}
    {draining : Option (RefreshPlan × ℕ)} {items : List (ℕ × WatchEvent)}
    (hdone : ∀ s : LoopState, s.pc = .received serial event none draining →
      s.queue.items = items → Finishes serde capacity budget s)
    (pending : Option Pending) (s : LoopState)
    (hpc : s.pc = .received serial event pending draining) (hitems : s.queue.items = items) :
    Finishes serde capacity budget s := by
  induction hn : pending.elim 0 Pending.parts using Nat.strong_induction_on
    generalizing pending s with
  | _ n ih =>
      cases pending with
      | none => exact hdone s hpc hitems
      | some pending =>
          cases hadvance : pending.advance s.watcher s.world with
          | mk watcher next =>
              refine Finishes.step (.advance hpc hadvance) rfl ?_
              refine ih _ ?_ next _ rfl hitems rfl
              rw [← hn]
              cases next with
              | none => exact pending.parts_pos
              | some next => exact Pending.parts_advance hadvance

/-- The draining takes what the queue holds, or stops before. -/
theorem finishes_drain :
    ∀ (items : List (ℕ × WatchEvent)) (plan : RefreshPlan) (drained : ℕ) (s : LoopState),
      s.pc = .drain plan drained → s.queue.items = items → Finishes serde capacity budget s := by
  intro items
  induction items with
  | nil =>
      intro plan drained s hpc hitems
      exact (finishes_drainEnd rfl).step (.drainEmpty hpc hitems) rfl
  | cons item rest ih =>
      intro plan drained s hpc hitems
      obtain ⟨serial, event⟩ := item
      refine Finishes.step (.drainTake hpc hitems) rfl ?_
      refine finishes_update ?_ _ _ rfl rfl
      intro s hpc hitems
      refine Finishes.step (.drainPlan hpc) rfl ?_
      unfold Pc.afterDrained
      split
      · exact finishes_drainEnd rfl
      · exact ih _ _ _ rfl hitems

theorem finishes_debounce {plan : RefreshPlan} (hpc : s.pc = .debounce plan) :
    Finishes serde capacity budget s := by
  cases hover : s.queue.overflowed with
  | true =>
      refine Finishes.step (.wakeOverflow hpc hover) rfl ?_
      exact Finishes.withPlan (s := { s with queue := s.queue.takeOverflow }) (finishes_refresh rfl)
  | false => exact (finishes_drain _ _ _ _ rfl rfl).step (.wake hpc hover) rfl

/-- The event in the hands of the loop is planned for, or discarded without a subscriber. -/
theorem finishes_returned {serial : Option ℕ} {event : WatchEvent}
    (hpc : s.pc.returned = some (serial, event)) : Finishes serde capacity budget s := by
  cases hsubscribed : s.process.subscribed with
  | true =>
      refine Finishes.step (.plan hpc hsubscribed) rfl ?_
      exact Finishes.withPlan (finishes_debounce rfl)
  | false => exact (Finishes.done (Or.inl rfl)).step (.discard hpc hsubscribed) rfl

/-- From the middle of a turn the loop comes back to its head by itself, or stops. -/
theorem exists_turn (s : LoopState) (hturn : ¬ s.BetweenTurns) :
    Finishes serde capacity budget s := by
  cases hpc : s.pc with
  | head => exact absurd (Or.inl hpc) hturn
  | recv => exact absurd (Or.inr hpc) hturn
  | received serial event pending draining =>
      refine finishes_update ?_ pending s hpc rfl
      intro s hpc _
      cases draining with
      | none => exact finishes_returned (by rw [hpc]; rfl)
      | some draining =>
          refine Finishes.step (.drainPlan hpc) rfl ?_
          unfold Pc.afterDrained
          split
          · exact finishes_drainEnd rfl
          · exact finishes_drain _ _ _ _ rfl rfl
  | overflow => exact finishes_returned (by rw [hpc]; rfl)
  | debounce plan => exact finishes_debounce hpc
  | drain plan drained => exact finishes_drain _ _ _ s hpc rfl
  | drainEnd plan => exact finishes_drainEnd hpc
  | refresh plan => exact finishes_refresh hpc
  | stopped => exact Finishes.done (Or.inr hpc)

end

end Gitseer
