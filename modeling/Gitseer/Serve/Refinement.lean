/-
**The loop refines its turns, and the turns refine the stream of the protocol.**

There are three accounts of what the worker does.  In the first the loop moves between its waiting
places, the watcher offers events to the queue, and the world changes at any time.  In the second a
turn of the loop is one step: a line, a plan that an event and the draining after it come to, a
tick.  In the third there are only the lines and the automatic updates, and what is sent for them.

Each account simulates the one below it, message for message.  A refresh of the loop is the turn of
an event with the plan of the refresh: the loop is at the refresh only with a subscriber, and only
with a plan that has something to refresh.

Main definitions:

* `LoopLabel.messages` — what a step of the loop sends;
* `PlanInv` — what is known where the loop has a plan.

Main results:

* `loop_simulates_turns`, `turns_simulate_stream` — the two simulations;
* `serve_refines` — a run of the worker, from its first line over the start of its watcher through
  the loop, is a run of turns and a run of the stream that send the same.
-/

import Gitseer.Lib.Simulation
import Gitseer.Serve.Lines
import Gitseer.Serve.NoLoss

set_option relaxedAutoImplicit false
set_option autoImplicit false

namespace Gitseer

/-! ### What is known where the loop has a plan -/

/-- What a step of the loop sends. -/
def LoopLabel.messages : LoopLabel → List ServerMessage
  | .refreshed _ messages => messages
  | .line _ messages => messages
  | _ => []

/-- Does the loop have the plan of its turn there? -/
def Pc.hasPlan : Pc → Bool
  | .received _ _ _ (some _) => true
  | .debounce _ => true
  | .drain _ _ => true
  | .drainEnd _ => true
  | .refresh _ => true
  | _ => false

/-- The loop has a plan only for a subscriber, and refreshes only when there is something to
refresh. -/
structure PlanInv (s : LoopState) : Prop where
  subscribed : s.pc.hasPlan = true → s.process.subscribed = true
  due : ∀ plan, s.pc = .refresh plan → plan.shouldRefresh = true

theorem PlanInv.of_not_hasPlan {s : LoopState} (h : s.pc.hasPlan = false) : PlanInv s := by
  constructor
  · intro htrue
    rw [h] at htrue
    cases htrue
  · intro plan hpc
    rw [hpc] at h
    cases h

theorem PlanInv.start {s : LoopState} (h : s.AtStart) : PlanInv s :=
  .of_not_hasPlan (by rw [h.pc]; rfl)

/-- The loop goes on with a plan, or is back at its head. -/
theorem PlanInv.withPlan {s : LoopState} {plan : RefreshPlan} {pc : Pc}
    (hsubscribed : s.process.subscribed = true)
    (hdue : ∀ plan', pc = .refresh plan' → plan' = plan) :
    PlanInv { s with pc := Pc.withPlan plan pc } := by
  by_cases hplan : plan.shouldRefresh = true
  · have hpc : Pc.withPlan plan pc = pc := if_pos hplan
    refine ⟨fun _ => hsubscribed, fun plan' hpc' => ?_⟩
    rw [hpc] at hpc'
    rw [hdue plan' hpc']
    exact hplan
  · have hpc : Pc.withPlan plan pc = .head := if_neg hplan
    exact .of_not_hasPlan (by rw [hpc]; rfl)

section

variable {serde : SerdeJson} {capacity budget : ℕ} {s s' : LoopState} {l : LoopLabel}

/-- Every step keeps what is known where the loop has a plan. -/
theorem PlanInv.step (hinv : PlanInv s) (h : LoopStep serde capacity budget s l s') :
    PlanInv s' := by
  cases h with
  | offer hrefresh => exact ⟨hinv.subscribed, hinv.due⟩
  | change hpersists => exact ⟨hinv.subscribed, hinv.due⟩
  | pollOverflow hpc hover => exact .of_not_hasPlan rfl
  | pollRecv hpc hover => exact .of_not_hasPlan rfl
  | recvTake hpc hitems => exact .of_not_hasPlan rfl
  | @advance serial event pending next draining watcher hpc hadvance =>
      cases draining with
      | none => exact .of_not_hasPlan rfl
      | some draining => exact ⟨fun _ => hinv.subscribed (by rw [hpc]; rfl), fun _ h => by cases h⟩
  | plan hpc hsubscribed => exact .withPlan hsubscribed fun _ h => by cases h
  | discard hpc hsubscribed => exact .of_not_hasPlan rfl
  | wakeOverflow hpc hover =>
      exact .withPlan (s := { s with queue := s.queue.takeOverflow })
        (hinv.subscribed (by rw [hpc]; rfl)) fun _ h => (Pc.refresh.inj h).symm
  | wake hpc hover => exact ⟨fun _ => hinv.subscribed (by rw [hpc]; rfl), fun _ h => by cases h⟩
  | drainTake hpc hitems =>
      exact ⟨fun _ => hinv.subscribed (by rw [hpc]; rfl), fun _ h => by cases h⟩
  | drainPlan hpc =>
      refine ⟨fun _ => hinv.subscribed (by rw [hpc]; rfl), fun plan h => ?_⟩
      simp only [Pc.afterDrained] at h
      split at h <;> cases h
  | drainEmpty hpc hitems =>
      exact ⟨fun _ => hinv.subscribed (by rw [hpc]; rfl), fun _ h => by cases h⟩
  | endOverflow hpc hover =>
      exact .withPlan (s := { s with queue := s.queue.takeOverflow })
        (hinv.subscribed (by rw [hpc]; rfl)) fun _ h => (Pc.refresh.inj h).symm
  | endDrain hpc hover =>
      exact .withPlan (hinv.subscribed (by rw [hpc]; rfl)) fun _ h => (Pc.refresh.inj h).symm
  | refresh hpc hupdate => exact .of_not_hasPlan rfl
  | refreshFails hpc hupdate => exact .of_not_hasPlan rfl
  | line hwaits hhandle => exact .of_not_hasPlan rfl
  | stop hwaits => exact .of_not_hasPlan rfl

/-- A step sends nothing and leaves the process as it is, or it is a refresh, or a line. -/
theorem LoopStep.sends (h : LoopStep serde capacity budget s l s') :
    (s'.process = s.process ∧ l.messages = [] ∧ ∀ plan messages, l ≠ .refreshed plan messages) ∨
    (∃ plan process messages, s.pc = .refresh plan ∧
      automaticUpdate s.world.discover s.process plan = .ok (some (process, messages)) ∧
      l = .refreshed plan messages ∧ s' = { s with process := process, pc := .head }) ∨
    ∃ text process messages, s.pc.waits = true ∧
      handleRequest serde s.read s.process text = some (process, messages) ∧
      l = .line s.pc.inUpdate messages ∧ s' = { s with process := process, pc := .head } := by
  cases h with
  | refresh hpc hupdate => exact Or.inr (Or.inl ⟨_, _, _, hpc, hupdate, rfl, rfl⟩)
  | line hwaits hhandle => exact Or.inr (Or.inr ⟨_, _, _, hwaits, hhandle, rfl, rfl⟩)
  | _ => exact Or.inl ⟨rfl, rfl, fun _ _ hl => by cases hl⟩

/-! ### The simulations -/

/-- A state of the loop and a state at the head of the turns, with an active watcher. -/
structure LoopTurn (s : LoopState) (t : ServeState) : Prop where
  plan : PlanInv s
  watcher : t.watcher = true
  process : t.process = s.process

/-- A refresh of the loop is the turn of an event with the plan of the refresh, a line is the turn
of that line, and everything else happens within a turn. -/
theorem loop_simulates_turns (serde : SerdeJson) (capacity budget : ℕ) :
    Lts.Simulates (LoopStep serde capacity budget) (TurnStep serde) LoopTurn LoopLabel.messages
      ServeLabel.messages := by
  intro s l s' t hstep hR
  have hinv := hR.plan.step hstep
  rcases hstep.sends with ⟨hprocess, hnone, -⟩ |
    ⟨plan, process, messages, hpc, hupdate, rfl, rfl⟩ |
    ⟨text, process, messages, -, hhandle, rfl, rfl⟩
  · exact Lts.exists_matched_stutter ⟨hinv, hR.watcher, hR.process.trans hprocess.symm⟩ hnone
  · have hsubscribed := hR.plan.subscribed (by rw [hpc]; rfl)
    have hdue := hR.plan.due plan hpc
    have hturn : TurnStep serde t ⟨.watchEvent plan s.world.discover, false, messages⟩
        { t with process := process } := by
      simp only [TurnStep, serveTurn, hR.watcher, if_true, activeTurn, hR.process, hsubscribed,
        hdue, Bool.and_self, Turn.refresh, hupdate]
    exact Lts.exists_matched_move hturn ⟨hinv, hR.watcher, rfl⟩ rfl
  · have hturn : TurnStep serde t ⟨.line text s.read, false, messages⟩
        { t with process := process } := by
      simp only [TurnStep, serveTurn, hR.watcher, if_true, activeTurn, Turn.line, hR.process,
        hhandle]
    exact Lts.exists_matched_move hturn ⟨hinv, hR.watcher, rfl⟩ rfl

end

/-! ### What a turn sends -/

/-- The repository that is read when the input leads to a refresh. -/
def ServeInput.discover? : ServeInput → Option Discover
  | .started _ discover => some discover
  | .watchEvent _ discover => some discover
  | .tick discover => some discover
  | _ => none

/-- The input leads to no refresh even when there is a subscriber. -/
def ServeInput.NotDue (input : ServeInput) : Prop :=
  ∃ plan discover, input = .watchEvent plan discover ∧ plan.shouldRefresh = false

/-- What a turn that comes back does to the process, and sends: a line is handled, a subscriber is
sent an automatic update, or nothing happens. -/
inductive TurnSends (serde : SerdeJson) (s : ServeState) :
    ServeInput → ServeState → List ServerMessage → Prop
  | line {text : String} {read : SnapshotRead} {s' : ServeState} {messages : List ServerMessage}
      (h : handleRequest serde read s.process text = some (s'.process, messages)) :
      TurnSends serde s (.line text read) s' messages
  | update {input : ServeInput} {plan : RefreshPlan} {discover : Discover} {s' : ServeState}
      {messages : List ServerMessage} (hline : input.isLine = false)
      (hdiscover : input.discover? = some discover) (hsubscribed : s.process.subscribed = true)
      (h : automaticUpdate discover s.process plan = .ok (some (s'.process, messages))) :
      TurnSends serde s input s' messages
  | nothing {input : ServeInput} {s' : ServeState} (hline : input.isLine = false)
      (hprocess : s'.process = s.process)
      (hquiet : s.process.subscribed = false ∨ input.NotDue) : TurnSends serde s input s' []

section

variable {serde : SerdeJson} {s s' : ServeState} {spawned : Bool} {messages : List ServerMessage}
  {input : ServeInput} {plan : RefreshPlan} {discover : Discover}

theorem Turn.refresh_sends {t : ServeState} (hline : input.isLine = false)
    (hdiscover : input.discover? = some discover)
    (hsubscribed : s.process.subscribed = true) (hprocess : t.process = s.process)
    (h : Turn.refresh t plan discover = .again s' spawned messages) :
    TurnSends serde s input s' messages := by
  unfold Turn.refresh at h
  split at h
  · next process sent hupdate =>
      injection h with hstate hspawned hmessages
      subst hstate hmessages
      rw [hprocess] at hupdate
      exact .update hline hdiscover hsubscribed hupdate
  · cases h

theorem Turn.refreshSubscribed_sends {t : ServeState} (hline : input.isLine = false)
    (hdiscover : input.discover? = some discover) (hprocess : t.process = s.process)
    (h : Turn.refreshSubscribed t discover = .again s' spawned messages) :
    TurnSends serde s input s' messages := by
  unfold Turn.refreshSubscribed at h
  split at h
  · next hnot =>
      injection h with hstate hspawned hmessages
      subst hstate hmessages
      rw [hprocess] at hnot
      exact .nothing hline hprocess (.inl (by simpa using hnot))
  · next hsubscribed =>
      rw [hprocess] at hsubscribed
      exact Turn.refresh_sends hline hdiscover (by simpa using hsubscribed) hprocess h

/-- What a turn sends that comes back to the head of the loop. -/
theorem serveTurn_sends (h : serveTurn serde s input = some (.again s' spawned messages)) :
    TurnSends serde s input s' messages := by
  cases input with
  | line text read =>
      obtain ⟨next, hnext, hturn⟩ := serveTurn_line serde s
      rw [hturn] at h
      obtain ⟨process, hreq, hstate⟩ := Turn.line_again (Option.some.inj h)
      have hprocess := hnext { s with process := process }
      rw [hstate] at hprocess
      obtain rfl : s'.process = process := hprocess
      exact .line hreq
  | stdinClosed =>
      unfold serveTurn at h
      split_ifs at h <;> cases h
  | stdinFailed =>
      rw [serveTurn_stdinFailed] at h
      cases h
  | started ok discover =>
      unfold serveTurn at h
      split_ifs at h
      · cases h
      · match ok with
        | none => cases h
        | some true =>
            refine Turn.refreshSubscribed_sends rfl rfl ?_ (Option.some.inj h)
            rfl
        | some false =>
            refine Turn.refreshSubscribed_sends rfl rfl ?_ (Option.some.inj h)
            rfl
      · cases h
      · cases h
  | watchEvent plan discover =>
      unfold serveTurn at h
      split_ifs at h
      · simp only [activeTurn] at h
        split_ifs at h with hdue
        · rw [Bool.and_eq_true] at hdue
          exact Turn.refresh_sends rfl rfl hdue.1 rfl (Option.some.inj h)
        · cases h
          rw [Bool.and_eq_true, not_and_or, Bool.not_eq_true, Bool.not_eq_true] at hdue
          exact .nothing rfl rfl (hdue.imp id fun hplan => ⟨plan, discover, rfl, hplan⟩)
      · cases h
      · cases h
      · cases h
  | watcherStopped =>
      unfold serveTurn at h
      split_ifs at h <;> cases h
  | tick discover =>
      unfold serveTurn at h
      split_ifs at h
      · cases h
      · exact Turn.refreshSubscribed_sends rfl rfl rfl (Option.some.inj h)
      · exact Turn.refreshSubscribed_sends rfl rfl rfl (Option.some.inj h)
      · cases h

end

/-- A state at the head of the turns and a process of the stream. -/
def TurnStream (t : ServeState) (process : ProcessState) : Prop := process = t.process

/-- A line is a line of the stream, and an automatic update is one of the stream. -/
theorem turns_simulate_stream (serde : SerdeJson) :
    Lts.Simulates (TurnStep serde) (StreamStep serde) TurnStream
      ServeLabel.messages StreamLabel.messages := by
  rintro t ⟨input, spawned, messages⟩ t' p hstep rfl
  cases serveTurn_sends hstep with
  | @line text read _ _ h =>
      have hmove : StreamStep serde t.process ⟨.line text read, messages⟩ t'.process := .line h
      exact Lts.exists_matched_move (R := TurnStream) hmove rfl rfl
  | update _ _ _ h =>
      obtain ⟨refresh, -, hsome⟩ := Result.bind_eq_ok.1 h
      have hmove : StreamStep serde t.process ⟨.update refresh.snapshot, messages⟩ t'.process :=
        .update (Except.ok.inj hsome)
      exact Lts.exists_matched_move (R := TurnStream) hmove rfl rfl
  | nothing _ hprocess _ => exact ⟨[], _, Lts.Run.nil, hprocess.symm, rfl⟩

/-! ### The whole worker -/

/-- The worker takes turns until its watcher is active, and goes through the loop from then on.  The
turns and what the loop does after them are a run of turns, and a run of the stream from a new
process, that send the same messages and come to the same process. -/
theorem serve_refines {serde : SerdeJson} {capacity budget : ℕ} {repo : StdPath.PathBuf}
    {turns : List ServeLabel} {t : ServeState} {s₀ s : LoopState} {labels : List LoopLabel}
    (hturns : Lts.Run (TurnStep serde) (.new repo) turns t) (hwatcher : t.watcher = true)
    (hstart : s₀.AtStart) (hprocess : s₀.process = t.process)
    (hrun : Lts.Run (LoopStep serde capacity budget) s₀ labels s) :
    (∃ more t', Lts.Run (TurnStep serde) (.new repo) (turns ++ more) t' ∧ t'.watcher = true ∧
      t'.process = s.process ∧
      more.flatMap ServeLabel.messages = labels.flatMap LoopLabel.messages) ∧
    ∃ events, Lts.Run (StreamStep serde) (.new repo) events s.process ∧
      output events =
        turns.flatMap ServeLabel.messages ++ labels.flatMap LoopLabel.messages := by
  have hR : LoopTurn s₀ t := ⟨.start hstart, hwatcher, hprocess.symm⟩
  obtain ⟨more, t', hmore, hR', hsame⟩ := (loop_simulates_turns serde capacity budget).run hrun hR
  have hall := hturns.append hmore
  refine ⟨⟨more, t', hall, hR'.watcher, hR'.process, hsame⟩, ?_⟩
  obtain ⟨events, p, hevents, rfl, hout⟩ := (turns_simulate_stream serde).run hall rfl
  refine ⟨events, hR'.process ▸ hevents, ?_⟩
  rw [output, hout, List.flatMap_append, hsame]

/-- A client subscribes, and the start of the watcher begins. -/
theorem subscribe_turn : ∃ answered,
    handleRequest subscribeJson readPlain (.new repoRoot) subscribeLine =
      some (subscribedState, answered) ∧
    TurnStep subscribeJson (.new repoRoot) ⟨.line subscribeLine readPlain, true, answered⟩
      { process := subscribedState, pendingWatcher := true } := by
  obtain ⟨answered, hsubscribe⟩ := subscribe_line
  refine ⟨answered, hsubscribe, ?_⟩
  change some (Turn.line _ _ _ _ _) = _
  simp only [Turn.line, ServeState.new, hsubscribe]
  rfl

/-- The watcher is there, and the repository is as it was. -/
theorem started_turn : TurnStep subscribeJson
    { process := subscribedState, pendingWatcher := true }
    ⟨.started (some true) fun _ => .ok plainRepository, false, []⟩
    { process := subscribedState, watcher := true } := rfl

/-- An update from a retained snapshot, in its parts. -/
theorem automaticUpdate_eq {discover : Discover} {process process' : ProcessState}
    {plan : RefreshPlan} {previous snapshot : RepositorySnapshot} {messages : List ServerMessage}
    (hprevious : process.latestSnapshot = some previous)
    (hread : refreshRepositoryWithPlan discover process.repo (some previous) plan {} =
      .ok ⟨snapshot, plan⟩)
    (hmessages : snapshotUpdateMessages process snapshot = some (process', messages)) :
    automaticUpdate discover process plan = .ok (some (process', messages)) := by
  rw [automaticUpdate, hprevious, hread, ← hmessages]
  rfl

/-- The event of a merge is offered, taken and drained for, the merge is there by then, and the loop
refreshes. -/
theorem merge_loop : ∃ labels s messages,
    Lts.Run (LoopStep subscribeJson maxPendingWatchEvents maxDebounceDrainEvents)
      (serveState none {2, 1} {} 0 .head) labels s ∧
    snapshotUpdateMessages subscribedState mergingSnapshot =
      some (subscribedState.withBaseline mergingSnapshot, messages) ∧
    s.process = subscribedState.withBaseline mergingSnapshot ∧
    labels.flatMap LoopLabel.messages = messages := by
  obtain ⟨messages, hmessages⟩ : ∃ messages,
      snapshotUpdateMessages subscribedState mergingSnapshot =
        some (subscribedState.withBaseline mergingSnapshot, messages) := exists_messages (by decide)
  have hown : (serveState none {2, 1} {} 1
      (.received 0 mergeEvent none none)).refreshPlanForEvent mergeEvent = mergePlan := by decide
  have hreconciles : (serveState none {2, 1} ⟨[(0, mergeEvent)], false⟩ 1 .recv).reconcilesFor
      mergeEvent = false := by decide
  have hupdate : (srcWatcher none {2, 1}).updateWatchesForEvent (srcWorld (some 3)) mergeEvent =
      none := by decide
  have hdrained := ((serveState_taken subscribeJson (by decide) hupdate hreconciles).append
    (serveState_drained subscribeJson hown (by decide))).mono fun _ _ _ h => h.1.1
  have hmerges : LoopStep subscribeJson maxPendingWatchEvents maxDebounceDrainEvents
      (serveState none {2, 1} {} 1 (.refresh mergePlan)) .changed
      { serveState none {2, 1} {} 1 (.refresh mergePlan) with
        world := { srcWorld (some 3) with discover := fun _ => .ok mergingRepository } } :=
    LoopStep.change (s := serveState none {2, 1} {} 1 (.refresh mergePlan)) serveState_persists
  have hread : refreshRepositoryWithPlan (fun _ => .ok mergingRepository) repoRoot
      (some plainSnapshot) mergePlan {} = .ok ⟨mergingSnapshot, mergePlan⟩ := by decide
  have hautomatic := automaticUpdate_eq rfl hread hmessages
  exact ⟨_, _, messages, (hdrained.snoc hmerges).snoc (.refresh rfl hautomatic), hmessages, rfl,
    by simp [LoopLabel.messages]⟩

/-- A client subscribes, the watcher starts, and the loop refreshes for a merge. -/
theorem serve_refines_subscribe : ∃ answered updated events s,
    handleRequest subscribeJson readPlain (.new repoRoot) subscribeLine =
      some (subscribedState, answered) ∧
    snapshotUpdateMessages subscribedState mergingSnapshot =
      some (subscribedState.withBaseline mergingSnapshot, updated) ∧
    Lts.Run (StreamStep subscribeJson) (.new repoRoot) events s ∧
    s = subscribedState.withBaseline mergingSnapshot ∧ output events = answered ++ updated := by
  obtain ⟨answered, hsubscribe, hline⟩ := subscribe_turn
  obtain ⟨labels, s, updated, hloop, hupdate, hprocess, hsent⟩ := merge_loop
  obtain ⟨-, events, hevents, hout⟩ := serve_refines ((Lts.Run.single hline).snoc started_turn) rfl
    serveState_atStart rfl hloop
  exact ⟨answered, updated, events, _, hsubscribe, hupdate, hevents, hprocess, by
    simpa [hsent] using hout⟩

end Gitseer
