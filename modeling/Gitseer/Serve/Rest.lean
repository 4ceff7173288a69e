/-
**Left alone, the loop comes to rest.**

Whatever the loop does by itself, it does for something from outside: for an event that was offered
or a line that was read.  Each of its steps uses up some of the work that is left to it; and the
work is what the turn that it is in may still come to, a turn for every event that waits in the
queue, and one more when the overflow flag is set.  So in every run the loop takes at most as many
steps of its own as was paid for from outside, and never spins.

When nothing comes any more it goes on until its work is done, and it is never stuck before: it
waits at an empty queue, or a refresh has failed.

Main definitions:

* `LoopState.work`, `LoopLabel.gain` — the work that is left, and what comes from outside;
* `AloneStep` — the steps of a loop that is left alone.

Main results:

* `LoopStep.pays` — a step of the loop uses up work, and only the outside adds to it;
* `exists_alone_iff` — where a loop that is left alone goes on;
* `comes_to_rest` — the number of steps in a run, and where a loop that is left alone ends.
-/

import Gitseer.Lib.Accounting
import Gitseer.Serve.Convergence

set_option relaxedAutoImplicit false
set_option autoImplicit false

open StdPath (PathBuf)

namespace Gitseer

/-! ### The work that is left -/

/-- The number of parts that the update for an event has at most. -/
def updateParts : WatchEvent → ℕ
  | .ok event => 3 * event.paths.length + 2
  | .error _ => 0

/-- The steps that a turn may still come to, and the one to where the loop waits again. -/
def Pc.work : Pc → ℕ
  | .stopped => 0
  | .recv => 1
  | .head => 2
  | .refresh _ => 3
  | .drainEnd _ => 4
  | .drain _ _ => 5
  | .debounce _ => 6
  | .overflow => 7
  | .received _ _ pending _ => 7 + pending.elim 0 Pending.parts

/-- The work for an event: that of a turn, and of the update of the watches. -/
def eventWork (event : WatchEvent) : ℕ := 8 + updateParts event

/-- The work for the events in the queue, and for the flag when it is set. -/
def queueWork (queue : LossyQueue (ℕ × WatchEvent)) : ℕ :=
  (if queue.overflowed then 10 else 0) + (queue.items.map fun item => eventWork item.2).sum

/-- The work of the turn and of the queue. -/
def LoopState.work (s : LoopState) : ℕ := s.pc.work + queueWork s.queue

/-- The work that comes from outside. -/
def LoopLabel.gain : LoopLabel → ℕ
  | .offered _ event _ => 10 + updateParts event
  | .line _ _ => 1
  | _ => 0

section

variable {serde : SerdeJson} {capacity budget : ℕ} {s₀ s s' : LoopState} {l : LoopLabel}

/-- An update has no more parts than its event allows. -/
theorem updateParts_spec (watcher : RepositoryWatcher) (world : World) (event : WatchEvent) :
    (watcher.updateWatchesForEvent world event).elim 0 Pending.parts ≤ updateParts event := by
  unfold RepositoryWatcher.updateWatchesForEvent
  cases event with
  | error e => exact le_rfl
  | ok event =>
      simp only [updateParts]
      split
      · simp only [Option.elim_some, Pending.parts]
        omega
      · split
        · exact Nat.zero_le _
        · next worktreeRoot _ =>
            split
            · exact Nat.zero_le _
            · cases hnext : Pending.next worktreeRoot event.paths with
              | none => exact Nat.zero_le _
              | some next =>
                  have hle := Pending.parts_next hnext
                  simp only [Option.elim_some]
                  omega

theorem work_withPlan_le (plan : RefreshPlan) (pc : Pc) (h : 2 ≤ pc.work) :
    (Pc.withPlan plan pc).work ≤ pc.work := by
  unfold Pc.withPlan
  split
  · exact le_rfl
  · exact h

theorem work_of_returned {pc : Pc} {serial : Option ℕ} {event : WatchEvent}
    (h : pc.returned = some (serial, event)) : pc.work = 7 := by
  rcases returned_cases h with ⟨k, -, rfl⟩ | ⟨-, -, rfl⟩
  · rfl
  · rfl

theorem queueWork_offer (capacity serial : ℕ) (event : WatchEvent)
    (queue : LossyQueue (ℕ × WatchEvent)) :
    queueWork (queue.offer capacity (serial, event)) ≤ 10 + updateParts event + queueWork queue := by
  rcases LossyQueue.offer_cases capacity queue (serial, event) with ⟨-, hq⟩ | ⟨-, hq⟩
  · rw [hq]
    simp only [queueWork, eventWork, List.map_append, List.map_singleton, List.sum_append,
      List.sum_singleton]
    omega
  · rw [hq]
    simp only [queueWork, if_true]
    omega

theorem queueWork_of_items {queue : LossyQueue (ℕ × WatchEvent)} {serial : ℕ} {event : WatchEvent}
    {rest : List (ℕ × WatchEvent)} (hitems : queue.items = (serial, event) :: rest) :
    queueWork queue = eventWork event + queueWork { queue with items := rest } := by
  simp only [queueWork, hitems, List.map_cons, List.sum_cons]
  omega

theorem queueWork_of_overflowed {queue : LossyQueue (ℕ × WatchEvent)}
    (h : queue.overflowed = true) : queueWork queue = 10 + queueWork queue.takeOverflow := by
  simp [queueWork, LossyQueue.takeOverflow, h]

theorem work_of_waits {pc : Pc} (h : pc.waits = true) : 1 ≤ pc.work := by
  cases pc with
  | head => simp [Pc.work]
  | recv => simp [Pc.work]
  | received serial event pending draining =>
      simp only [Pc.work]
      omega
  | _ => cases h

/-- A step that leaves the queue alone is paid for by its turn. -/
theorem pays_of_lt (hqueue : s'.queue = s.queue) (h : s'.pc.work < s.pc.work) :
    l.own.toNat + s'.work ≤ l.gain + s.work := by
  have hone := Bool.toNat_le l.own
  rw [LoopState.work, LoopState.work, hqueue]
  omega

/-- An event that is taken pays for its turn. -/
theorem pays_of_take {serial : ℕ} {event : WatchEvent} {rest : List (ℕ × WatchEvent)}
    {draining : Option (RefreshPlan × ℕ)} (hpc : 1 ≤ s.pc.work)
    (hitems : s.queue.items = (serial, event) :: rest) :
    l.own.toNat + LoopState.work { s with
      queue := { s.queue with items := rest }
      pc := .received serial event (s.watcher.updateWatchesForEvent s.world event) draining } ≤
      l.gain + s.work := by
  have hone := Bool.toNat_le l.own
  have hparts := updateParts_spec s.watcher s.world event
  have hpaid := Nat.add_le_add_right hpc (eventWork event)
  simp only [LoopState.work, Pc.work, queueWork_of_items hitems, eventWork] at hpaid ⊢
  omega

/-- The flag pays for the turn after it. -/
theorem pays_of_overflow {pc : Pc} (hpc : pc.work ≤ 9)
    (hover : s.queue.overflowed = true) :
    l.own.toNat + LoopState.work { s with queue := s.queue.takeOverflow, pc := pc } ≤
      l.gain + s.work := by
  have hone := Bool.toNat_le l.own
  simp only [LoopState.work, queueWork_of_overflowed hover]
  omega

/-- A step of the loop uses up work, and only what comes from outside adds to it. -/
theorem LoopStep.pays (h : LoopStep serde capacity budget s l s') :
    l.own.toNat + s'.work ≤ l.gain + s.work := by
  cases h with
  | @offer event hrefresh =>
      have hoffer := queueWork_offer capacity s.offers event s.queue
      simp only [LoopLabel.own, LoopLabel.gain, LoopState.work, Bool.toNat_false]
      omega
  | change hpersists => exact le_rfl
  | pollOverflow hpc hover => exact pays_of_overflow (by simp [Pc.work]) hover
  | pollRecv hpc hover => exact pays_of_lt rfl (by simp [hpc, Pc.work])
  | recvTake hpc hitems => exact pays_of_take (by simp [hpc, Pc.work]) hitems
  | drainTake hpc hitems => exact pays_of_take (by simp [hpc, Pc.work]) hitems
  | @advance serial event pending next draining watcher hpc hadvance =>
      have hparts : next.elim 0 Pending.parts < pending.parts := by
        cases next with
        | none => exact pending.parts_pos
        | some next => exact Pending.parts_advance hadvance
      exact pays_of_lt rfl (by simpa [hpc, Pc.work] using hparts)
  | @plan serial event hpc hsubscribed =>
      have hle := work_withPlan_le (s.refreshPlanForEvent event)
        (.debounce (s.refreshPlanForEvent event)) (by simp [Pc.work])
      refine pays_of_lt rfl ?_
      rw [work_of_returned hpc]
      exact Nat.lt_succ_of_le hle
  | discard hpc hsubscribed =>
      refine pays_of_lt rfl ?_
      rw [work_of_returned hpc]
      simp [Pc.work]
  | wakeOverflow hpc hover =>
      exact pays_of_overflow (by simp [Pc.withPlan, RefreshPlan.shouldRefresh, Pc.work]) hover
  | endOverflow hpc hover =>
      exact pays_of_overflow (by simp [Pc.withPlan, RefreshPlan.shouldRefresh, Pc.work]) hover
  | wake hpc hover => exact pays_of_lt rfl (by simp [hpc, Pc.work])
  | @drainPlan serial drained event plan hpc =>
      refine pays_of_lt rfl ?_
      simp only [Pc.afterDrained, hpc]
      split <;> simp [Pc.work]
  | drainEmpty hpc hitems => exact pays_of_lt rfl (by simp [hpc, Pc.work])
  | @endDrain plan hpc hover =>
      have hle := work_withPlan_le plan (.refresh plan) (by simp [Pc.work])
      refine pays_of_lt rfl ?_
      rw [hpc]
      exact Nat.lt_succ_of_le hle
  | refresh hpc hupdate => exact pays_of_lt rfl (by simp [hpc, Pc.work])
  | refreshFails hpc hupdate => exact pays_of_lt rfl (by simp [hpc, Pc.work])
  | line hwaits hhandle =>
      have hpos := work_of_waits hwaits
      have hhead : Pc.work .head = 2 := rfl
      simp only [LoopLabel.own, LoopLabel.gain, LoopState.work, hhead, Bool.toNat_false]
      omega
  | stop hwaits => exact pays_of_lt rfl (work_of_waits hwaits)

/-! ### A loop that is left alone -/

/-- A step of a loop that is left alone: nothing comes from outside, and the input does not end. -/
def AloneStep (serde : SerdeJson) (capacity budget : ℕ) (s : LoopState) (l : LoopLabel)
    (s' : LoopState) : Prop :=
  OwnStep serde capacity budget s l s' ∧ (l = .stopped → s.pc.waits = false)

theorem exists_alone_of_step (h : LoopStep serde capacity budget s l s') (hown : l.own = true)
    (hstopped : l ≠ .stopped) : ∃ l s', AloneStep serde capacity budget s l s' :=
  ⟨l, s', ⟨h, hown⟩, fun heq => absurd heq hstopped⟩

/-- The event in the hands of the loop is planned for, or discarded. -/
theorem exists_alone_of_returned {serial : Option ℕ} {event : WatchEvent}
    (hpc : s.pc.returned = some (serial, event)) :
    ∃ l s', AloneStep serde capacity budget s l s' := by
  cases hsubscribed : s.process.subscribed with
  | true => exact exists_alone_of_step (.plan hpc hsubscribed) rfl (by simp)
  | false => exact exists_alone_of_step (.discard hpc hsubscribed) rfl (by simp)

/-- Left alone, the loop goes on everywhere but at rest, unless it has stopped. -/
theorem exists_alone_iff : (∃ l s', AloneStep serde capacity budget s l s') ↔
    ¬ (s.AtRest ∨ s.pc = .stopped) := by
  constructor
  · rintro ⟨l, s', ⟨hstep, hown⟩, hinput⟩ hdone
    have hplace : s.pc = .recv ∨ s.pc = .stopped := hdone.imp_left fun h => h.pc
    cases hstep with
    | offer | change | line => cases hown
    | recvTake hpc hitems =>
        rcases hdone with hrest | hstopped
        · rw [hrest.items] at hitems
          cases hitems
        · rw [hpc] at hstopped
          cases hstopped
    | stop hwaits =>
        rw [hinput rfl] at hwaits
        cases hwaits
    | pollOverflow hpc | pollRecv hpc | advance hpc | plan hpc | discard hpc | wakeOverflow hpc
    | wake hpc | drainTake hpc | drainPlan hpc | drainEmpty hpc | endOverflow hpc | endDrain hpc
    | refresh hpc | refreshFails hpc =>
        rcases hplace with h | h <;> rw [h] at hpc <;> cases hpc
  · rw [not_or]
    rintro ⟨hrest, hstopped⟩
    cases hpc : s.pc with
    | head =>
        cases hover : s.queue.overflowed with
        | true => exact exists_alone_of_step (.pollOverflow hpc hover) rfl (by simp)
        | false => exact exists_alone_of_step (.pollRecv hpc hover) rfl (by simp)
    | recv =>
        cases hitems : s.queue.items with
        | nil => exact absurd ⟨hpc, hitems⟩ hrest
        | cons item rest => exact exists_alone_of_step (.recvTake hpc hitems) rfl (by simp)
    | received serial event pending draining =>
        cases pending with
        | some pending => exact exists_alone_of_step (.advance hpc rfl) rfl (by simp)
        | none =>
            cases draining with
            | none => exact exists_alone_of_returned (by rw [hpc]; rfl)
            | some draining => exact exists_alone_of_step (.drainPlan hpc) rfl (by simp)
    | overflow => exact exists_alone_of_returned (by rw [hpc]; rfl)
    | debounce plan =>
        cases hover : s.queue.overflowed with
        | true => exact exists_alone_of_step (.wakeOverflow hpc hover) rfl (by simp)
        | false => exact exists_alone_of_step (.wake hpc hover) rfl (by simp)
    | drain plan drained =>
        cases hitems : s.queue.items with
        | nil => exact exists_alone_of_step (.drainEmpty hpc hitems) rfl (by simp)
        | cons item rest => exact exists_alone_of_step (.drainTake hpc hitems) rfl (by simp)
    | drainEnd plan =>
        cases hover : s.queue.overflowed with
        | true => exact exists_alone_of_step (.endOverflow hpc hover) rfl (by simp)
        | false => exact exists_alone_of_step (.endDrain hpc hover) rfl (by simp)
    | refresh plan =>
        by_cases hupdate : ∃ result,
            automaticUpdate s.world.discover s.process plan = .ok (some result)
        · obtain ⟨⟨process, messages⟩, hupdate⟩ := hupdate
          exact exists_alone_of_step (.refresh hpc hupdate) rfl (by simp)
        · push Not at hupdate
          exact ⟨_, _, ⟨.refreshFails hpc hupdate, rfl⟩, fun _ => by rw [hpc]; rfl⟩
    | stopped => exact absurd hpc hstopped

theorem sum_own (labels : List LoopLabel) :
    (labels.map fun l => l.own.toNat).sum = labels.countP LoopLabel.own := by
  induction labels with
  | nil => rfl
  | cons l labels ih =>
      rw [List.map_cons, List.sum_cons, ih, List.countP_cons]
      cases l.own <;> simp [Nat.add_comm]

theorem AloneStep.pays (h : AloneStep serde capacity budget s l s') : 1 + s'.work ≤ s.work := by
  obtain ⟨⟨hstep, hown⟩, -⟩ := h
  have hpays := hstep.pays
  have hgain : l.gain = 0 := by
    cases l with
    | offered | line => cases hown
    | _ => rfl
  rw [hown, hgain, Nat.zero_add] at hpays
  exact hpays

/-- In every run the loop takes no more steps of its own than were paid for by what came from
outside and by the work at the beginning.  Left alone after that, it takes no more steps than it has
work, however it goes on, and it can go on everywhere but at rest, unless it has stopped. -/
theorem comes_to_rest {labels : List LoopLabel}
    (hrun : Lts.Run (LoopStep serde capacity budget) s₀ labels s) :
    labels.countP LoopLabel.own + s.work ≤ (labels.map LoopLabel.gain).sum + s₀.work ∧
    ∀ more t, Lts.Run (AloneStep serde capacity budget) s more t →
      more.length + t.work ≤ s.work ∧
      ((∃ l t', AloneStep serde capacity budget t l t') ∨ t.AtRest ∨ t.pc = .stopped) := by
  constructor
  · have hpaid := hrun.amortized (fun l => l.own.toNat) LoopLabel.gain LoopState.work
      fun _ _ _ h => h.pays
    rwa [sum_own] at hpaid
  · intro more t hmore
    have hpaid := hmore.amortized (fun _ => 1) (fun _ => 0) LoopState.work fun _ _ _ h => by
      rw [Nat.zero_add]
      exact h.pays
    simp only [List.map_const', List.sum_replicate_nat, Nat.mul_one, Nat.mul_zero,
      Nat.zero_add] at hpaid
    exact ⟨hpaid, or_iff_not_imp_right.2 exists_alone_iff.2⟩

end

/-! ### An event whose directory is scanned -/

/-- The event pays for the steps until its directory is scanned, and for those that are left. -/
theorem comes_to_rest_scanning : ∃ labels s,
    Lts.Run (LoopStep refreshJson maxPendingWatchEvents maxDebounceDrainEvents)
      (serveState none {2, 1} {} 0 .head) labels s ∧
    labels.countP LoopLabel.own = 3 ∧ labels.countP LoopLabel.own + s.work ≤ 17 ∧
    ∀ more t, Lts.Run (AloneStep refreshJson maxPendingWatchEvents maxDebounceDrainEvents) s more t →
      more.length + t.work ≤ s.work := by
  have hrun := serveState_scanning.mono fun _ _ _ h => h.1.1
  obtain ⟨hpaid, hmore⟩ := comes_to_rest hrun
  exact ⟨_, _, hrun, rfl, hpaid, fun more t h => (hmore more t h).1⟩

end Gitseer
