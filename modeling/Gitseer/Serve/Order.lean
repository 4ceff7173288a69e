/-
**Events are taken in order, and a turn has an end.**

The watcher's thread puts events at the back of the queue, and two places of the loop take them from
the front.  Lines, ticks and failed updates come in between, and an event may be lost to each of
them once it is taken; but from the queue every event that was let in is taken once, and in the
order in which it came.  A turn takes a bounded number of them and refreshes at most once, however
fast new ones arrive, so that the input is looked at again after a bounded amount of work.

Main definitions:

* `LoopLabel.letIn`, `LoopLabel.taken` — the events that a step lets in, and takes;
* `Pc.allowance` — the number of events that the turn may still take;
* `IsTurn` — the steps of one turn, from its beginning on.

Main results:

* `LoopStep.conserves`, `LoopStep.allowed` — what one step does to the queue and the allowance;
* `turn_bounded` — what one turn takes, and how often it refreshes;
* `events_in_order` — the events of every run.
-/

import Gitseer.Lib.Accounting
import Gitseer.Serve.NoLoss
import Gitseer.Serve.Recovery

set_option relaxedAutoImplicit false
set_option autoImplicit false

namespace Gitseer

/-! ### Events that pass through the queue -/

/-- The event that a step lets in. -/
def LoopLabel.letIn : LoopLabel → List (ℕ × WatchEvent)
  | .offered serial event true => [(serial, event)]
  | _ => []

/-- The event that a step takes. -/
def LoopLabel.taken : LoopLabel → List (ℕ × WatchEvent)
  | .took serial event _ _ => [(serial, event)]
  | _ => []

/-- The number under which an event is offered. -/
def LoopLabel.offers : LoopLabel → List ℕ
  | .offered serial _ _ => [serial]
  | _ => []

/-- Is the baseline refreshed in the step? -/
def LoopLabel.refreshes : LoopLabel → Bool
  | .refreshed _ _ => true
  | _ => false

section

variable {serde : SerdeJson} {capacity budget : ℕ} {s s' : LoopState} {l : LoopLabel}

/-- A step lets an event in at the back, or takes one from the front. -/
theorem LoopStep.conserves (h : LoopStep serde capacity budget s l s') :
    s.queue.items ++ l.letIn = l.taken ++ s'.queue.items := by
  cases h with
  | @offer event _ =>
      rcases LossyQueue.offer_cases capacity s.queue (s.offers, event) with
        ⟨hroom, hq⟩ | ⟨hfull, hq⟩
      · rw [hq, decide_eq_true hroom]
        rfl
      · rw [hq, decide_eq_false (Nat.not_lt.2 hfull)]
        exact List.append_nil _
  | recvTake hpc hitems =>
      rw [hitems]
      exact List.append_nil _
  | drainTake hpc hitems =>
      rw [hitems]
      exact List.append_nil _
  | _ => exact List.append_nil _

/-- The offered events are numbered one after the other. -/
theorem LoopStep.numbers (h : LoopStep serde capacity budget s l s') :
    List.range s.offers ++ l.offers = List.range s'.offers := by
  cases h with
  | offer => exact List.range_succ.symm
  | _ => exact List.append_nil _

/-! ### What a turn may do -/

/-- The number of events that the turn may still take: one before it begins to drain, and then as
many as the budget has left.  The budget is looked at after an event, so that one is taken even from
an empty budget. -/
def Pc.allowance (budget : ℕ) : Pc → ℕ
  | .head => 0
  | .recv => 1 + (1 + (budget - 1))
  | .received _ _ _ none => 1 + (budget - 1)
  | .received _ _ _ (some (_, drained)) => budget - (drained + 1)
  | .overflow => 1 + (budget - 1)
  | .debounce _ => 1 + (budget - 1)
  | .drain _ drained => 1 + (budget - (drained + 1))
  | .drainEnd _ => 0
  | .refresh _ => 0
  | .stopped => 0

/-- The turn can still come to a refresh. -/
def Pc.mayRefresh : Pc → ℕ
  | .head => 0
  | .stopped => 0
  | _ => 1

theorem allowance_withPlan (budget : ℕ) (plan : RefreshPlan) (pc : Pc) :
    (Pc.withPlan plan pc).allowance budget ≤ pc.allowance budget := by
  unfold Pc.withPlan
  split
  · exact le_rfl
  · exact Nat.zero_le _

theorem allowance_of_returned {pc : Pc} {serial : Option ℕ} {event : WatchEvent}
    (h : pc.returned = some (serial, event)) : pc.allowance budget = 1 + (budget - 1) := by
  rcases returned_cases h with ⟨k, -, rfl⟩ | ⟨-, -, rfl⟩
  · rfl
  · rfl

theorem mayRefresh_of_returned {pc : Pc} {serial : Option ℕ} {event : WatchEvent}
    (h : pc.returned = some (serial, event)) : pc.mayRefresh = 1 := by
  rcases returned_cases h with ⟨k, -, rfl⟩ | ⟨-, -, rfl⟩
  · rfl
  · rfl

theorem mayRefresh_withPlan (plan : RefreshPlan) (pc : Pc) :
    (Pc.withPlan plan pc).mayRefresh ≤ pc.mayRefresh := by
  unfold Pc.withPlan
  split
  · exact le_rfl
  · exact Nat.zero_le _

/-- What a turn is granted when it begins. -/
def LoopLabel.grant (amount : ℕ) (l : LoopLabel) : ℕ := if l.begins then amount else 0

/-- A step that takes nothing and begins no turn costs nothing, so the allowance may only fall. -/
theorem allowed_of_le {l : LoopLabel} (htaken : l.taken = []) (hbegins : l.begins = false)
    (h : s'.pc.allowance budget ≤ s.pc.allowance budget) :
    l.taken.length + s'.pc.allowance budget ≤
      l.grant (2 + (budget - 1)) + s.pc.allowance budget := by
  simpa [htaken, LoopLabel.grant, hbegins] using h

/-- An event that is taken is paid for by the allowance of the turn. -/
theorem LoopStep.allowed (h : LoopStep serde capacity budget s l s') :
    l.taken.length + s'.pc.allowance budget ≤
      l.grant (2 + (budget - 1)) + s.pc.allowance budget := by
  cases h with
  | offer | change => exact allowed_of_le rfl rfl le_rfl
  | pollOverflow hpc | pollRecv hpc =>
      simp only [LoopLabel.taken, LoopLabel.grant, LoopLabel.begins, hpc, Pc.allowance,
        List.length_nil, if_true]
      omega
  | recvTake hpc | drainTake hpc =>
      simp only [LoopLabel.taken, LoopLabel.grant, LoopLabel.begins, hpc, Pc.allowance,
        List.length_singleton, Bool.false_eq_true, if_false]
      omega
  | @advance _ _ _ _ draining _ hpc =>
      refine allowed_of_le rfl rfl ?_
      rw [hpc]
      cases draining <;> exact le_rfl
  | plan hpc =>
      refine allowed_of_le rfl rfl ((allowance_withPlan budget _ _).trans ?_)
      rw [allowance_of_returned hpc]
      exact le_rfl
  | wakeOverflow =>
      have hle := allowance_withPlan budget .full (.refresh .full)
      exact allowed_of_le rfl rfl (hle.trans (Nat.zero_le _))
  | wake hpc =>
      refine allowed_of_le rfl rfl ?_
      rw [hpc]
      exact le_rfl
  | @drainPlan _ drained _ plan hpc =>
      refine allowed_of_le rfl rfl ?_
      rw [hpc]
      simp only [Pc.afterDrained]
      split
      · exact Nat.zero_le _
      · simp only [Pc.allowance]
        omega
  | endOverflow =>
      have hle := allowance_withPlan budget .full (.refresh .full)
      exact allowed_of_le rfl rfl (hle.trans (Nat.zero_le _))
  | endDrain =>
      exact allowed_of_le rfl rfl ((allowance_withPlan budget _ _).trans (Nat.zero_le _))
  | discard | drainEmpty | refresh | refreshFails | line | stop =>
      exact allowed_of_le rfl rfl (Nat.zero_le _)

/-- A step that neither refreshes nor begins a turn may not gain a refresh. -/
theorem refreshes_of_le {l : LoopLabel} (hrefreshes : l.refreshes = false)
    (hbegins : l.begins = false) (h : s'.pc.mayRefresh ≤ s.pc.mayRefresh) :
    l.refreshes.toNat + s'.pc.mayRefresh ≤ l.grant 1 + s.pc.mayRefresh := by
  simpa [hrefreshes, LoopLabel.grant, hbegins] using h

/-- A refresh uses up the one that the turn may come to. -/
theorem LoopStep.refreshes_once (h : LoopStep serde capacity budget s l s') :
    l.refreshes.toNat + s'.pc.mayRefresh ≤ l.grant 1 + s.pc.mayRefresh := by
  cases h with
  | offer | change => exact refreshes_of_le rfl rfl le_rfl
  | pollOverflow hpc | pollRecv hpc =>
      rw [hpc]
      exact le_rfl
  | recvTake hpc | advance hpc | wake hpc | drainTake hpc | drainEmpty hpc =>
      refine refreshes_of_le rfl rfl ?_
      rw [hpc]
      exact le_rfl
  | plan hpc =>
      refine refreshes_of_le rfl rfl ((mayRefresh_withPlan _ _).trans ?_)
      rw [mayRefresh_of_returned hpc]
      exact le_rfl
  | wakeOverflow hpc | endOverflow hpc =>
      have hle := mayRefresh_withPlan .full (.refresh .full)
      refine refreshes_of_le rfl rfl (hle.trans ?_)
      rw [hpc]
      exact le_rfl
  | endDrain hpc =>
      refine refreshes_of_le rfl rfl ((mayRefresh_withPlan _ _).trans ?_)
      rw [hpc]
      exact le_rfl
  | drainPlan hpc =>
      refine refreshes_of_le rfl rfl ?_
      rw [hpc]
      unfold Pc.afterDrained
      split <;> exact le_rfl
  | refresh hpc =>
      rw [hpc]
      exact le_rfl
  | discard | refreshFails | line | stop => exact refreshes_of_le rfl rfl (Nat.zero_le _)

end

/-! ### Whole runs -/

section

variable {serde : SerdeJson} {capacity budget : ℕ} {s₀ s : LoopState} {labels : List LoopLabel}

/-- The events that are let in are among those offered, in the same order. -/
theorem letIn_sublist (labels : List LoopLabel) :
    ((labels.flatMap LoopLabel.letIn).map Prod.fst).Sublist (labels.flatMap LoopLabel.offers) := by
  induction labels with
  | nil => exact .slnil
  | cons l labels ih =>
      have hone : (l.letIn.map Prod.fst).Sublist l.offers := by
        cases l with
        | offered serial event accepted =>
            cases accepted with
            | true => exact List.Sublist.refl _
            | false => exact List.nil_sublist _
        | _ => exact .slnil
      rw [List.flatMap_cons, List.flatMap_cons, List.map_append]
      exact hone.append ih

/-- The events that are let in are numbered in the order in which they come. -/
theorem letIn_increasing (hstart : s₀.AtStart)
    (hrun : Lts.Run (LoopStep serde capacity budget) s₀ labels s) :
    (labels.flatMap LoopLabel.letIn).Pairwise fun a b => a.1 < b.1 := by
  have hnumbers : labels.flatMap LoopLabel.offers = List.range s.offers := by
    have h := hrun.conserves LoopLabel.offers (fun _ => []) (fun s => List.range s.offers)
      fun _ _ _ hstep => hstep.numbers
    have hnone : labels.flatMap (fun _ => ([] : List ℕ)) = [] :=
      List.flatMap_eq_nil_iff.2 fun _ _ => rfl
    simpa [hstart.offers, hnone] using h
  have hsub := letIn_sublist labels
  rw [hnumbers] at hsub
  exact List.pairwise_map.1 ((List.pairwise_lt_range).sublist hsub)

theorem sum_refreshes (labels : List LoopLabel) :
    (labels.map fun l => l.refreshes.toNat).sum = labels.countP LoopLabel.refreshes := by
  induction labels with
  | nil => rfl
  | cons l labels ih =>
      rw [List.map_cons, List.sum_cons, ih, List.countP_cons]
      cases l.refreshes <;> simp [Nat.add_comm]

/-- The steps of one turn, from its beginning on. -/
def IsTurn (turn : List LoopLabel) : Prop :=
  ∃ l rest, turn = l :: rest ∧ l.begins = true ∧ ∀ m ∈ rest, m.begins = false

/-- A turn is granted its amount once. -/
theorem sum_grant {turn : List LoopLabel} (amount : ℕ) (hturn : IsTurn turn) :
    (turn.map (LoopLabel.grant amount)).sum = amount := by
  obtain ⟨l, rest, rfl, hbegins, hrest⟩ := hturn
  have hzero : rest.map (LoopLabel.grant amount) = rest.map fun _ => 0 :=
    List.map_congr_left fun m hm => by simp [LoopLabel.grant, hrest m hm]
  rw [List.map_cons, List.sum_cons, hzero, List.map_const', List.sum_replicate_nat,
    LoopLabel.grant, hbegins, if_pos rfl, Nat.mul_zero, Nat.add_zero]

/-- A turn begins at the head of the loop. -/
theorem LoopStep.head_of_begins {s' : LoopState} {l : LoopLabel}
    (h : LoopStep serde capacity budget s l s') (hbegins : l.begins = true) : s.pc = .head := by
  cases h with
  | pollOverflow hpc | pollRecv hpc => exact hpc
  | _ => cases hbegins

/-- A turn takes at most one event more than the budget, and refreshes at most once. -/
theorem turn_bounded {s' : LoopState} {turn : List LoopLabel} (hbudget : 0 < budget)
    (hturn : IsTurn turn) (hrun : Lts.Run (LoopStep serde capacity budget) s turn s') :
    (turn.flatMap LoopLabel.taken).length ≤ budget + 1 ∧
      turn.countP LoopLabel.refreshes ≤ 1 := by
  have hhead : s.pc = .head := by
    obtain ⟨l, rest, rfl, hbegins, -⟩ := hturn
    obtain ⟨_, hstep, -⟩ := hrun.uncons
    exact hstep.head_of_begins hbegins
  have htaken := hrun.amortized (fun l => l.taken.length) (LoopLabel.grant (2 + (budget - 1)))
    (fun s => s.pc.allowance budget) fun _ _ _ hstep => hstep.allowed
  have hrefreshes := hrun.amortized (fun l => l.refreshes.toNat) (LoopLabel.grant 1)
    (fun s => s.pc.mayRefresh) fun _ _ _ hstep => hstep.refreshes_once
  rw [← List.length_flatMap, sum_grant _ hturn, hhead] at htaken
  rw [sum_refreshes, sum_grant _ hturn, hhead] at hrefreshes
  simp only [Pc.allowance, Pc.mayRefresh] at htaken hrefreshes
  omega

/-- In every run: the events that were let into the queue are those that were taken, in the same
order, followed by those still in it; none is taken twice; the queue keeps to its capacity; and no
turn takes more events than the budget and one, or refreshes twice. -/
theorem events_in_order (hstart : s₀.AtStart) (hbudget : 0 < budget)
    (hrun : Lts.Run (LoopStep serde capacity budget) s₀ labels s) :
    labels.flatMap LoopLabel.letIn = labels.flatMap LoopLabel.taken ++ s.queue.items ∧
    (labels.flatMap LoopLabel.taken).Pairwise (fun a b => a.1 < b.1) ∧
    s.queue.items.length ≤ capacity ∧
    ∀ before turn after, labels = before ++ turn ++ after → IsTurn turn →
      (turn.flatMap LoopLabel.taken).length ≤ budget + 1 ∧
        turn.countP LoopLabel.refreshes ≤ 1 := by
  have horder : labels.flatMap LoopLabel.letIn =
      labels.flatMap LoopLabel.taken ++ s.queue.items := by
    have h := hrun.conserves LoopLabel.letIn LoopLabel.taken (fun s => s.queue.items)
      fun _ _ _ hstep => hstep.conserves
    simpa [hstart.queue] using h
  have hincreasing := letIn_increasing hstart hrun
  rw [horder] at hincreasing
  have hinv : QueueInv capacity s := Lts.Run.invariant (I := QueueInv capacity) (.start hstart)
    (fun _ _ _ hs hstep => hs.step hstep) hrun
  refine ⟨horder, (List.pairwise_append.1 hincreasing).1, hinv.1, ?_⟩
  rintro before turn after rfl hturn
  obtain ⟨_, hbefore, -⟩ := hrun.split
  obtain ⟨_, -, hrest⟩ := hbefore.split
  exact turn_bounded hbudget hturn hrest

end

/-- Another event comes in while the directory of the first one is scanned: the first one was taken,
and the other one waits in the queue. -/
theorem events_in_order_scanning : ∃ labels s,
    Lts.Run (LoopStep refreshJson maxPendingWatchEvents maxDebounceDrainEvents)
      (serveState none {2, 1} {} 0 .head) labels s ∧
    labels.flatMap LoopLabel.letIn = [(0, srcCreated), (1, srcCreated)] ∧
    labels.flatMap LoopLabel.taken = [(0, srcCreated)] ∧ s.queue.items = [(1, srcCreated)] ∧
    IsTurn (labels.drop 1) ∧
    ((labels.drop 1).flatMap LoopLabel.taken).length ≤ maxDebounceDrainEvents + 1 ∧
    (labels.drop 1).countP LoopLabel.refreshes ≤ 1 := by
  have hrun := serveState_scanning.mono fun _ _ _ h => h.1.1
  have hoffer : LoopStep refreshJson maxPendingWatchEvents maxDebounceDrainEvents
      (serveState none {2, 1} {} 1
        (.received 0 srcCreated (some (.scan repoRoot srcPath [])) none))
      (.offered 1 srcCreated true)
      (serveState none {2, 1} ⟨[(1, srcCreated)], false⟩ 2
        (.received 0 srcCreated (some (.scan repoRoot srcPath [])) none)) := .offer rfl
  obtain ⟨horder, -, -, hturns⟩ :=
    events_in_order serveState_atStart (by decide) (hrun.snoc hoffer)
  have hturn : IsTurn [.polled, .took 0 srcCreated true false,
      .advanced (.paths repoRoot srcPath []), .offered 1 srcCreated true] :=
    ⟨_, _, rfl, rfl, by simp [LoopLabel.begins]⟩
  obtain ⟨htaken, hrefreshes⟩ := hturns [.offered 0 srcCreated true] _ [] rfl hturn
  exact ⟨_, _, hrun.snoc hoffer, horder, rfl, rfl, hturn, htaken, hrefreshes⟩

end Gitseer
