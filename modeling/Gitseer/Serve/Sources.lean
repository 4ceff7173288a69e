/-
**Where the updates of a subscribed client come from.**

The loop of `serve` has four branches.  With an active watcher it waits for lines and events; while
the task that starts the watcher is pending, for lines, the result of the task and ticks; when the
watcher could not be started, for lines and ticks; and otherwise for lines.  A line can change the
subscription in each of them.  So it has to be seen that a subscribed client always has a source of
updates, that there is never a second one, and that a client that unsubscribed is left alone.

A turn goes from the head of the loop to its head again, or ends the loop.  What an event and the
draining after it come to is a plan here; how the loop gets it is in `Gitseer.Serve.Loop`, and the
watcher itself is only there or not.  Writing a message is taken to succeed.

Main definitions:

* `ServeState`, `ServeInput` — the state of the loop, and what it waits for;
* `serveTurn` — one turn, with a function for each branch;
* `HasSource`, `SingleSource` — a subscribed client has a source, and it is the only one.

Main results:

* `serveTurn_again` — what one turn does;
* `serve_sources` — the sources and the messages of every run.
-/

import Gitseer.Protocol.Subscription
import Gitseer.Serve.Quiescence

set_option relaxedAutoImplicit false
set_option autoImplicit false

namespace Gitseer

/-! ### Turns of the loop -/

/-- The state of the loop: is there an active watcher, and is the task that starts one pending? -/
structure ServeState where
  process : ProcessState
  watcher : Bool := false
  pendingWatcher : Bool := false
  pollingFallback : Bool := false

/-- What the loop takes.  The result of a start is missing when its task panicked; the plan is the
one that an event and the draining after it come to. -/
inductive ServeInput
  | line (text : String) (read : SnapshotRead)
  | stdinClosed
  | stdinFailed
  | started (ok : Option Bool) (discover : Discover)
  | watchEvent (plan : RefreshPlan) (discover : Discover)
  | watcherStopped
  | tick (discover : Discover)

/-- A turn comes back to the head of the loop, or ends it. -/
inductive Turn
  | again (s : ServeState) (spawned : Bool) (messages : List ServerMessage)
  | ends (messages : List ServerMessage)

/-- `start_watcher_if_needed`, and whether a task was spawned. -/
def startWatcherIfNeeded (s : ServeState) : ServeState × Bool :=
  if !s.process.subscribed || s.pendingWatcher then (s, false)
  else ({ s with pendingWatcher := true }, true)

/-- A refresh by a plan that is due; an error ends the loop. -/
def Turn.refresh (s : ServeState) (plan : RefreshPlan) (discover : Discover) : Turn :=
  match automaticUpdate discover s.process plan with
  | .ok (some (process, messages)) => .again { s with process := process } false messages
  | _ => .ends []

/-- `refresh_subscribed`. -/
def Turn.refreshSubscribed (s : ServeState) (discover : Discover) : Turn :=
  if !s.process.subscribed then .again s false []
  else .refresh s .full discover

/-- `handle_line`, and what the branch does after it. -/
def Turn.line (serde : SerdeJson) (s : ServeState) (text : String) (read : SnapshotRead)
    (next : ServeState → ServeState × Bool) : Turn :=
  match handleRequest serde read s.process text with
  | none => .ends []
  | some (process, messages) =>
      .again (next { s with process := process }).1 (next { s with process := process }).2 messages

/-- The branch with an active watcher. -/
def activeTurn (serde : SerdeJson) (s : ServeState) : ServeInput → Option Turn
  | .line text read => some (.line serde s text read fun s => (s, false))
  | .stdinClosed => some (.ends [goodbyeMessage "stdin closed"])
  | .stdinFailed => some (.ends [])
  -- an event is taken from the watcher even when nobody is subscribed to it
  | .watchEvent plan discover =>
      if s.process.subscribed && plan.shouldRefresh then some (.refresh s plan discover)
      else some (.again s false [])
  | .watcherStopped => some (.ends [goodbyeMessage "watcher stopped"])
  | _ => none

/-- The branch with a task that starts the watcher. -/
def pendingTurn (serde : SerdeJson) (s : ServeState) : ServeInput → Option Turn
  | .line text read => some (.line serde s text read fun s => (s, false))
  | .stdinClosed => some (.ends [goodbyeMessage "stdin closed"])
  | .stdinFailed => some (.ends [])
  | .started (some true) discover =>
      some (.refreshSubscribed { s with pendingWatcher := false, watcher := true } discover)
  -- without a watcher the loop polls from now on
  | .started (some false) discover =>
      some (.refreshSubscribed { s with pendingWatcher := false, pollingFallback := true } discover)
  | .started none _ => some (.ends [])
  | .tick discover => some (.refreshSubscribed s discover)
  | _ => none

/-- The branch that polls. -/
def pollingTurn (serde : SerdeJson) (s : ServeState) : ServeInput → Option Turn
  -- polling ends with the subscription; while it lasts, every line tries the watcher again
  | .line text read => some (.line serde s text read fun s =>
      startWatcherIfNeeded { s with pollingFallback := s.process.subscribed })
  | .stdinClosed => some (.ends [goodbyeMessage "stdin closed"])
  | .stdinFailed => some (.ends [])
  | .tick discover => some (.refreshSubscribed s discover)
  | _ => none

/-- The branch that waits for lines only. -/
def idleTurn (serde : SerdeJson) (s : ServeState) : ServeInput → Option Turn
  | .line text read => some (.line serde s text read startWatcherIfNeeded)
  | .stdinClosed => some (.ends [goodbyeMessage "stdin closed"])
  | .stdinFailed => some (.ends [])
  | _ => none

/-- One turn; nothing when the branch does not wait for the input. -/
def serveTurn (serde : SerdeJson) (s : ServeState) (input : ServeInput) : Option Turn :=
  if s.watcher then activeTurn serde s input
  else if s.pendingWatcher then pendingTurn serde s input
  else if s.pollingFallback then pollingTurn serde s input
  else idleTurn serde s input

/-- What is seen of a turn. -/
structure ServeLabel where
  input : ServeInput
  spawned : Bool
  messages : List ServerMessage

/-- A turn that comes back to the head of the loop. -/
def TurnStep (serde : SerdeJson) (s : ServeState) (l : ServeLabel) (s' : ServeState) : Prop :=
  serveTurn serde s l.input = some (.again s' l.spawned l.messages)

/-- `serve` before its first turn. -/
def ServeState.new (repo : StdPath.PathBuf) : ServeState := { process := .new repo }

/-! ### What a line does to the subscription -/

/-- The line is a request of the method, with or without an id. -/
def Requests (serde : SerdeJson) (method text : String) : Prop :=
  ∃ request isNotification, parseRequest serde text = .ok (request, isNotification) ∧
    request.method = method

/-- The message carries a baseline or an update to a subscribed client. -/
def ServerMessage.isUpdate : ServerMessage → Bool
  | .response _ => false
  | .notification n => n.method = "gitseer/snapshot" || n.method = "gitseer/delta"

section

variable {serde : SerdeJson} {read : SnapshotRead} {s s' : ProcessState} {text : String}
  {messages : List ServerMessage} {request : JsonRpcRequest}

theorem respondGetSnapshot_subscribed {id : Json.Value}
    (h : respondGetSnapshot serde read s request id = some (s', messages)) :
    s'.subscribed = s.subscribed ∧ ∀ m ∈ messages, m.isUpdate = false := by
  unfold respondGetSnapshot at h
  split at h
  · obtain ⟨rfl, rfl⟩ := Prod.mk.inj (Option.some.inj h)
    exact ⟨rfl, by simp [errorResponse, ServerMessage.isUpdate]⟩
  · split at h
    · obtain ⟨rfl, rfl⟩ := Prod.mk.inj (Option.some.inj h)
      exact ⟨rfl, by simp [readFailed, errorResponse, ServerMessage.isUpdate]⟩
    · obtain ⟨v, -, hm⟩ := Option.bind_eq_some_iff.1 h
      obtain ⟨rfl, rfl⟩ := Prod.mk.inj (Option.some.inj hm)
      exact ⟨rfl, by simp [successResponse, ServerMessage.isUpdate]⟩

theorem respondRefresh_subscribed {id : Json.Value}
    (h : respondRefresh serde read s request id = some (s', messages)) :
    s'.subscribed = s.subscribed ∧ ∀ m ∈ messages, m.isUpdate = false := by
  unfold respondRefresh at h
  split at h
  · obtain ⟨rfl, rfl⟩ := Prod.mk.inj (Option.some.inj h)
    exact ⟨rfl, by simp [errorResponse, ServerMessage.isUpdate]⟩
  · split at h
    · obtain ⟨rfl, rfl⟩ := Prod.mk.inj (Option.some.inj h)
      exact ⟨rfl, by simp [readFailed, errorResponse, ServerMessage.isUpdate]⟩
    · obtain ⟨v, -, hm⟩ := Option.bind_eq_some_iff.1 h
      obtain ⟨rfl, rfl⟩ := Prod.mk.inj (Option.some.inj hm)
      exact ⟨rfl, by simp [successResponse, ServerMessage.isUpdate]⟩

/-- Of a request that is no subscription only a response is sent, and the subscription ends with an
unsubscription or stays. -/
theorem respond_subscribed (hsub : request.method ≠ "gitseer/subscribe")
    (h : respond serde read s request = some (s', messages)) :
    (s'.subscribed = true → s.subscribed = true ∧ request.method ≠ "gitseer/unsubscribe") ∧
      ∀ m ∈ messages, m.isUpdate = false := by
  unfold respond at h
  dsimp only at h
  split_ifs at h with hinit hget hrefresh hunsub hmulti
  · obtain ⟨rfl, rfl⟩ := Prod.mk.inj (Option.some.inj h)
    exact ⟨fun hs => ⟨hs, by simp [hinit]⟩, by simp [successResponse, ServerMessage.isUpdate]⟩
  · obtain ⟨heq, hmessages⟩ := respondGetSnapshot_subscribed h
    exact ⟨fun hs => ⟨heq ▸ hs, by simp [hget]⟩, hmessages⟩
  · obtain ⟨heq, hmessages⟩ := respondRefresh_subscribed h
    exact ⟨fun hs => ⟨heq ▸ hs, by simp [hrefresh]⟩, hmessages⟩
  · obtain ⟨rfl, rfl⟩ := Prod.mk.inj (Option.some.inj h)
    exact ⟨by simp, by simp [successResponse, ServerMessage.isUpdate]⟩
  · obtain ⟨rfl, rfl⟩ := Prod.mk.inj (Option.some.inj h)
    exact ⟨fun hs => ⟨hs, hunsub⟩, by simp [errorResponse, ServerMessage.isUpdate]⟩
  · obtain ⟨rfl, rfl⟩ := Prod.mk.inj (Option.some.inj h)
    exact ⟨fun hs => ⟨hs, hunsub⟩, by simp [errorResponse, ServerMessage.isUpdate]⟩

theorem ProcessState.recordUpdate_subscribed (s : ProcessState) (snapshot : RepositorySnapshot) :
    (s.recordUpdate snapshot).1.subscribed = s.subscribed := by
  unfold recordUpdate
  split
  · rfl
  · dsimp only
    split <;> rfl

/-- An automatic update leaves the subscription as it is. -/
theorem snapshotUpdateMessages_subscribed {snapshot : RepositorySnapshot}
    (h : snapshotUpdateMessages s snapshot = some (s', messages)) :
    s'.subscribed = s.subscribed := by
  unfold snapshotUpdateMessages at h
  split at h
  · obtain ⟨m, -, hm⟩ := Option.bind_eq_some_iff.1 h
    obtain ⟨rfl, -⟩ := Prod.mk.inj (Option.some.inj hm)
    rfl
  · have hsame := s.recordUpdate_subscribed snapshot
    split at h
    · next hupdate =>
        obtain ⟨rfl, -⟩ := Prod.mk.inj (Option.some.inj h)
        rwa [hupdate] at hsame
    · next hupdate =>
        obtain ⟨v, -, hm⟩ := Option.bind_eq_some_iff.1 h
        obtain ⟨rfl, -⟩ := Prod.mk.inj (Option.some.inj hm)
        rwa [hupdate] at hsame

theorem handleRequest_subscribed (hsub : ¬ Requests serde "gitseer/subscribe" text)
    (h : handleRequest serde read s text = some (s', messages)) :
    (s'.subscribed = true → s.subscribed = true ∧ ¬ Requests serde "gitseer/unsubscribe" text) ∧
      ∀ m ∈ messages, m.isUpdate = false := by
  unfold handleRequest at h
  cases hparse : parseRequest serde text with
  | error rejected =>
      rw [hparse] at h
      obtain ⟨rfl, rfl⟩ := Prod.mk.inj (Option.some.inj h)
      refine ⟨fun hs => ⟨hs, ?_⟩, ?_⟩
      · rintro ⟨request, isNotification, hok, -⟩
        rw [hparse] at hok
        cases hok
      · obtain ⟨id, code, message, data, rfl⟩ := exists_error_of_parseRequest hparse
        simp [errorResponse, ServerMessage.isUpdate]
  | ok parsed =>
      obtain ⟨request, isNotification⟩ := parsed
      rw [hparse] at h
      obtain ⟨⟨t, sent⟩, hrespond, hm⟩ := Option.bind_eq_some_iff.1 h
      obtain ⟨rfl, rfl⟩ := Prod.mk.inj (Option.some.inj hm)
      have hmethod : request.method ≠ "gitseer/subscribe" :=
        fun hmethod => hsub ⟨request, isNotification, hparse, hmethod⟩
      obtain ⟨hsubscribed, hmessages⟩ := respond_subscribed hmethod hrespond
      refine ⟨fun hs => ⟨(hsubscribed hs).1, ?_⟩, ?_⟩
      · rintro ⟨request', isNotification', hok, hunsub⟩
        obtain ⟨rfl, -⟩ := Prod.mk.inj (Except.ok.inj (hparse.symm.trans hok))
        exact (hsubscribed hs).2 hunsub
      · intro m hm
        unfold responseMessages at hm
        split at hm
        · exact hmessages m (List.mem_of_mem_filter hm)
        · exact hmessages m hm

end

/-! ### What one turn does -/

/-- A subscribed client has a source of updates. -/
def HasSource (s : ServeState) : Prop :=
  s.process.subscribed = true →
    s.watcher = true ∨ s.pendingWatcher = true ∨ s.pollingFallback = true

/-- There is no second watcher in the making. -/
def SingleSource (s : ServeState) : Prop := ¬ (s.watcher = true ∧ s.pendingWatcher = true)

/-- The input is a line with a request of the method. -/
def ServeInput.Requests (serde : SerdeJson) (method : String) : ServeInput → Prop
  | .line text _ => Gitseer.Requests serde method text
  | _ => False

/-- What a turn that comes back does. -/
structure TurnSpec (serde : SerdeJson) (s : ServeState) (input : ServeInput) (s' : ServeState)
    (spawned : Bool) (messages : List ServerMessage) : Prop where
  source : HasSource s → HasSource s'
  single : SingleSource s → SingleSource s'
  /-- A task is spawned where there is neither a watcher nor a task. -/
  spawns : spawned = true → s.watcher = false ∧ s.pendingWatcher = false
  /-- Without a subscription nothing is sent, and none begins. -/
  quiet : ¬ input.Requests serde "gitseer/subscribe" → s.process.subscribed = false →
    s'.process.subscribed = false ∧ ∀ m ∈ messages, m.isUpdate = false
  left : input.Requests serde "gitseer/unsubscribe" → s'.process.subscribed = false

section

variable {serde : SerdeJson} {s s' : ServeState} {spawned : Bool} {messages : List ServerMessage}
  {text : String} {read : SnapshotRead} {next : ServeState → ServeState × Bool}

theorem Turn.line_again (h : Turn.line serde s text read next = .again s' spawned messages) :
    ∃ process, handleRequest serde read s.process text = some (process, messages) ∧
      next { s with process := process } = (s', spawned) := by
  unfold Turn.line at h
  split at h
  · cases h
  · next process sent hreq =>
      injection h with hstate hspawned hmessages
      subst hmessages
      exact ⟨process, hreq, Prod.ext hstate hspawned⟩

/-- One line cannot end a subscription and begin one. -/
theorem Requests.not_subscribe (h : Requests serde "gitseer/unsubscribe" text) :
    ¬ Requests serde "gitseer/subscribe" text := by
  obtain ⟨request, isNotification, hparse, hmethod⟩ := h
  rintro ⟨request', isNotification', hparse', hmethod'⟩
  obtain ⟨rfl, -⟩ := Prod.mk.inj (Except.ok.inj (hparse.symm.trans hparse'))
  rw [hmethod] at hmethod'
  exact absurd hmethod' (by decide)

/-- What a line does to the subscription and sends is the same in all branches. -/
theorem Turn.line_spec (h : Turn.line serde s text read next = .again s' spawned messages)
    (hnext : ∀ t, (next t).1.process = t.process)
    (hsource : HasSource s → HasSource s') (hsingle : SingleSource s → SingleSource s')
    (hspawns : spawned = true → s.watcher = false ∧ s.pendingWatcher = false) :
    TurnSpec serde s (.line text read) s' spawned messages := by
  obtain ⟨process, hreq, hstate⟩ := Turn.line_again h
  have hprocess : s'.process = process := by
    have heq := hnext { s with process := process }
    rw [hstate] at heq
    exact heq
  refine ⟨hsource, hsingle, hspawns, ?_, ?_⟩
  · intro hsub hfalse
    obtain ⟨hsubscribed, hmessages⟩ := handleRequest_subscribed hsub hreq
    refine ⟨?_, hmessages⟩
    rw [hprocess]
    by_contra htrue
    rw [Bool.not_eq_false] at htrue
    rw [(hsubscribed htrue).1] at hfalse
    cases hfalse
  · -- an unsubscription is no subscription, so the line cannot have left one
    intro hunsub
    rw [hprocess]
    by_contra htrue
    rw [Bool.not_eq_false] at htrue
    exact ((handleRequest_subscribed hunsub.not_subscribe hreq).1 htrue).2 hunsub

theorem Turn.refresh_again {plan : RefreshPlan} {discover : Discover}
    (h : Turn.refresh s plan discover = .again s' spawned messages) :
    spawned = false ∧ ∃ process, s' = { s with process := process } ∧
      process.subscribed = s.process.subscribed := by
  unfold Turn.refresh at h
  split at h
  · next process sent hupdate =>
      injection h with hstate hspawned hmessages
      obtain ⟨refresh, -, hsome⟩ := Result.bind_eq_ok.1 hupdate
      exact ⟨hspawned.symm, process, hstate.symm,
        snapshotUpdateMessages_subscribed (Except.ok.inj hsome)⟩
  · cases h

/-- A refresh where one is due: the sources are the same, and nothing is sent without a
subscription. -/
theorem Turn.refreshSubscribed_spec {input : ServeInput} {t : ServeState} {discover : Discover}
    (h : Turn.refreshSubscribed t discover = .again s' spawned messages)
    (hprocess : t.process = s.process) (hsource : HasSource s → HasSource t)
    (hsingle : SingleSource s → SingleSource t)
    (hinput : ∀ method, ¬ input.Requests serde method) :
    TurnSpec serde s input s' spawned messages := by
  unfold Turn.refreshSubscribed at h
  split at h
  · next hsubscribed =>
      injection h with hstate hspawned hmessages
      subst hstate hspawned hmessages
      refine ⟨hsource, hsingle, by simp, ?_, fun hunsub => absurd hunsub (hinput _)⟩
      intro _ hfalse
      exact ⟨by rw [hprocess, hfalse], by simp⟩
  · next hsubscribed =>
      obtain ⟨rfl, process, rfl, hsame⟩ := Turn.refresh_again h
      refine ⟨?_, hsingle, by simp, ?_, fun hunsub => absurd hunsub (hinput _)⟩
      · intro hs htrue
        exact hsource hs (hsame ▸ htrue)
      · intro _ hfalse
        rw [hprocess, hfalse] at hsubscribed
        exact absurd rfl hsubscribed

/-- A line in a branch that has a source of updates and goes on with it. -/
theorem Turn.line_staying_spec
    (h : Turn.line serde s text read (fun s => (s, false)) = .again s' spawned messages)
    (hsource : s.watcher = true ∨ s.pendingWatcher = true ∨ s.pollingFallback = true) :
    TurnSpec serde s (.line text read) s' spawned messages := by
  obtain ⟨process, -, hstate⟩ := Turn.line_again h
  obtain ⟨rfl, rfl⟩ := Prod.mk.inj hstate
  exact Turn.line_spec h (fun _ => rfl) (fun _ _ => hsource) id (by simp)

/-- Starting a watcher where it is needed: a subscribed client has a source then. -/
theorem startWatcherIfNeeded_spec {t t' : ServeState} (h : startWatcherIfNeeded t = (t', spawned)) :
    t'.watcher = t.watcher ∧ t'.process = t.process ∧
      (t.process.subscribed = true → t'.pendingWatcher = true) := by
  unfold startWatcherIfNeeded at h
  split at h
  · next hnot =>
      obtain ⟨rfl, -⟩ := Prod.mk.inj h
      refine ⟨rfl, rfl, fun hs => ?_⟩
      simpa [hs] using hnot
  · obtain ⟨rfl, -⟩ := Prod.mk.inj h
    exact ⟨rfl, rfl, fun _ => rfl⟩

/-- A line in a branch without a watcher, after which one is started where it is needed. -/
theorem Turn.line_starting_spec {prepare : ServeState → ServeState}
    (h : Turn.line serde s text read (fun s => startWatcherIfNeeded (prepare s)) =
      .again s' spawned messages)
    (hprepare : ∀ t, (prepare t).process = t.process ∧ (prepare t).watcher = t.watcher)
    (hwatcher : s.watcher = false) (hpending : s.pendingWatcher = false) :
    TurnSpec serde s (.line text read) s' spawned messages := by
  obtain ⟨process, -, hstate⟩ := Turn.line_again h
  obtain ⟨hsame, hprocess, hstarted⟩ := startWatcherIfNeeded_spec hstate
  refine Turn.line_spec h ?_ ?_ ?_ fun _ => ⟨hwatcher, hpending⟩
  · intro t
    exact (startWatcherIfNeeded_spec (Prod.eta _).symm).2.1.trans (hprepare t).1
  · intro _ htrue
    exact .inr (.inl (hstarted (hprocess ▸ htrue)))
  · rintro - ⟨htrue, -⟩
    rw [hsame, (hprepare _).2, hwatcher] at htrue
    cases htrue

theorem activeTurn_spec {input : ServeInput} (hwatcher : s.watcher = true)
    (h : activeTurn serde s input = some (.again s' spawned messages)) :
    TurnSpec serde s input s' spawned messages := by
  unfold activeTurn at h
  split at h
  · exact Turn.line_staying_spec (Option.some.inj h) (.inl hwatcher)
  · cases h
  · cases h
  · next plan discover =>
      split at h
      · next hdue =>
          obtain ⟨rfl, process, rfl, hsame⟩ := Turn.refresh_again (Option.some.inj h)
          refine ⟨fun _ _ => .inl hwatcher, id, by simp, ?_, False.elim⟩
          intro _ hfalse
          simp [hfalse] at hdue
      · injection h with h
        injection h with hstate hspawned hmessages
        subst hstate hspawned hmessages
        exact ⟨id, id, by simp, fun _ hfalse => ⟨hfalse, by simp⟩, False.elim⟩
  · cases h
  · cases h

theorem pendingTurn_spec {input : ServeInput} (hpending : s.pendingWatcher = true)
    (h : pendingTurn serde s input = some (.again s' spawned messages)) :
    TurnSpec serde s input s' spawned messages := by
  unfold pendingTurn at h
  split at h
  · exact Turn.line_staying_spec (Option.some.inj h) (.inr (.inl hpending))
  · cases h
  · cases h
  · exact Turn.refreshSubscribed_spec (Option.some.inj h) rfl (fun _ _ => .inl rfl)
      (fun _ => by simp [SingleSource]) (fun _ => id)
  · exact Turn.refreshSubscribed_spec (Option.some.inj h) rfl (fun _ _ => .inr (.inr rfl))
      (fun _ => by simp [SingleSource]) (fun _ => id)
  · cases h
  · exact Turn.refreshSubscribed_spec (Option.some.inj h) rfl id id (fun _ => id)
  · cases h

theorem pollingTurn_spec {input : ServeInput} (hwatcher : s.watcher = false)
    (hpending : s.pendingWatcher = false)
    (h : pollingTurn serde s input = some (.again s' spawned messages)) :
    TurnSpec serde s input s' spawned messages := by
  unfold pollingTurn at h
  split at h
  · exact Turn.line_starting_spec (Option.some.inj h) (fun _ => ⟨rfl, rfl⟩) hwatcher hpending
  · cases h
  · cases h
  · exact Turn.refreshSubscribed_spec (Option.some.inj h) rfl id id (fun _ => id)
  · cases h

theorem idleTurn_spec {input : ServeInput} (hwatcher : s.watcher = false)
    (hpending : s.pendingWatcher = false)
    (h : idleTurn serde s input = some (.again s' spawned messages)) :
    TurnSpec serde s input s' spawned messages := by
  unfold idleTurn at h
  split at h
  · exact Turn.line_starting_spec (Option.some.inj h) (fun _ => ⟨rfl, rfl⟩) hwatcher hpending
  · cases h
  · cases h
  · cases h

/-- What a turn that comes back to the head of the loop does. -/
theorem serveTurn_again {input : ServeInput}
    (h : serveTurn serde s input = some (.again s' spawned messages)) :
    TurnSpec serde s input s' spawned messages := by
  unfold serveTurn at h
  split_ifs at h with hwatcher hpending hpolling
  · exact activeTurn_spec hwatcher h
  · exact pendingTurn_spec hpending h
  · exact pollingTurn_spec (by simpa using hwatcher) (by simpa using hpending) h
  · exact idleTurn_spec (by simpa using hwatcher) (by simpa using hpending) h

/-- The messages of a turn that ends the loop. -/
def Farewell (messages : List ServerMessage) : Prop :=
  messages = [] ∨ ∃ reason, messages = [goodbyeMessage reason]

theorem Farewell.not_isUpdate (h : Farewell messages) : ∀ m ∈ messages, m.isUpdate = false := by
  rcases h with rfl | ⟨reason, rfl⟩
  · simp
  · simp [goodbyeMessage, notify, ServerMessage.isUpdate]

theorem Turn.line_ends (h : Turn.line serde s text read next = .ends messages) :
    Farewell messages := by
  unfold Turn.line at h
  split at h
  · injection h with hmessages
    exact .inl hmessages.symm
  · cases h

theorem Turn.refresh_ends {plan : RefreshPlan} {discover : Discover}
    (h : Turn.refresh s plan discover = .ends messages) : Farewell messages := by
  unfold Turn.refresh at h
  split at h
  · cases h
  · injection h with hmessages
    exact .inl hmessages.symm

theorem Turn.refreshSubscribed_ends {discover : Discover}
    (h : Turn.refreshSubscribed s discover = .ends messages) : Farewell messages := by
  unfold Turn.refreshSubscribed at h
  split at h
  · cases h
  · exact Turn.refresh_ends h

/-- A turn that ends the loop sends a farewell at most. -/
theorem serveTurn_ends {input : ServeInput}
    (h : serveTurn serde s input = some (.ends messages)) : Farewell messages := by
  cases input with
  | line text read =>
      unfold serveTurn at h
      split_ifs at h <;> exact Turn.line_ends (Option.some.inj h)
  | stdinClosed =>
      unfold serveTurn at h
      split_ifs at h <;> (cases h; exact .inr ⟨_, rfl⟩)
  | stdinFailed =>
      unfold serveTurn at h
      split_ifs at h <;> (cases h; exact .inl rfl)
  | started ok discover =>
      unfold serveTurn at h
      split_ifs at h
      · cases h
      · match ok with
        | none => cases h; exact .inl rfl
        | some true => exact Turn.refreshSubscribed_ends (Option.some.inj h)
        | some false => exact Turn.refreshSubscribed_ends (Option.some.inj h)
      · cases h
      · cases h
  | watchEvent plan discover =>
      unfold serveTurn at h
      split_ifs at h
      · simp only [activeTurn] at h
        split_ifs at h
        · exact Turn.refresh_ends (Option.some.inj h)
        · cases h
      · cases h
      · cases h
      · cases h
  | watcherStopped =>
      unfold serveTurn at h
      split_ifs at h
      · cases h
        exact .inr ⟨_, rfl⟩
      · cases h
      · cases h
      · cases h
  | tick discover =>
      unfold serveTurn at h
      split_ifs at h
      · cases h
      · exact Turn.refreshSubscribed_ends (Option.some.inj h)
      · exact Turn.refreshSubscribed_ends (Option.some.inj h)
      · cases h

end

/-! ### Every run -/

/-- The sources and the messages of the loop at its head, after the turns with the labels. -/
structure Sources (serde : SerdeJson) (repo : StdPath.PathBuf) (labels : List ServeLabel)
    (s : ServeState) : Prop where
  /-- A subscribed client has a source of updates. -/
  source : HasSource s
  /-- An active watcher and a pending task never coexist. -/
  single : SingleSource s
  /-- No task is spawned while there is a watcher or a task. -/
  spawns : ∀ before l after t, labels = before ++ l :: after →
    Lts.Run (TurnStep serde) (.new repo) before t → Lts.Run (TurnStep serde) t (l :: after) s →
      l.spawned = true → t.watcher = false ∧ t.pendingWatcher = false
  /-- After an unsubscription no update is sent until the next subscription. -/
  quiet : ∀ before u between l after, labels = before ++ u :: (between ++ l :: after) →
    u.input.Requests serde "gitseer/unsubscribe" →
    (∀ m ∈ between ++ [l], ¬ m.input.Requests serde "gitseer/subscribe") →
      ∀ m ∈ l.messages, m.isUpdate = false
  /-- Nor is one sent when the loop ends. -/
  farewell : ∀ input messages, serveTurn serde s input = some (.ends messages) →
    ∀ m ∈ messages, m.isUpdate = false

section

variable {serde : SerdeJson} {s s' : ServeState} {labels : List ServeLabel}

/-- Between subscriptions nothing is sent. -/
theorem quiet_run (h : Lts.Run (TurnStep serde) s labels s')
    (hsub : ∀ l ∈ labels, ¬ l.input.Requests serde "gitseer/subscribe")
    (hfalse : s.process.subscribed = false) :
    s'.process.subscribed = false ∧ ∀ l ∈ labels, ∀ m ∈ l.messages, m.isUpdate = false := by
  induction h with
  | nil => exact ⟨hfalse, by simp⟩
  | @snoc labels t l t' _ hstep ih =>
      obtain ⟨ht, hearlier⟩ := ih fun l' hl' => hsub l' (List.mem_append_left _ hl')
      have hl := hsub l (List.mem_append_right _ (List.mem_singleton.2 rfl))
      obtain ⟨ht', hmessages⟩ := (serveTurn_again hstep).quiet hl ht
      refine ⟨ht', fun l' hl' => ?_⟩
      rcases List.mem_append.1 hl' with hl' | hl'
      · exact hearlier l' hl'
      · rw [List.mem_singleton.1 hl']
        exact hmessages

/-- At every return to the head of the loop, a subscribed client has a source of updates, an active
watcher and a pending task never coexist, and no update was sent after an unsubscription. -/
theorem serve_sources {repo : StdPath.PathBuf}
    (h : Lts.Run (TurnStep serde) (.new repo) labels s) : Sources serde repo labels s where
  source := by
    refine Lts.Run.invariant (I := HasSource) (fun hs => by cases hs) ?_ h
    intro t l t' ht hstep
    exact (serveTurn_again hstep).source ht
  single := by
    refine Lts.Run.invariant (I := SingleSource) (fun hs => by cases hs.1) ?_ h
    intro t l t' ht hstep
    exact (serveTurn_again hstep).single ht
  spawns before l after t _ _ hrest hspawned := by
    obtain ⟨t', hstep, -⟩ := hrest.uncons
    exact (serveTurn_again hstep).spawns hspawned
  quiet before u between l after hlabels hunsub hsub := by
    rw [hlabels] at h
    obtain ⟨t, -, hrest⟩ := h.split
    obtain ⟨t', hstep, hrest⟩ := hrest.uncons
    -- the run from the unsubscription to the label has no subscription
    have hassoc : between ++ l :: after = (between ++ [l]) ++ after := by simp
    rw [hassoc] at hrest
    obtain ⟨t'', hbetween, -⟩ := hrest.split
    have hfalse := (serveTurn_again hstep).left hunsub
    exact (quiet_run hbetween hsub hfalse).2 l (by simp)
  farewell input messages hends := (serveTurn_ends hends).not_isUpdate

end

/-- A client subscribes, and the watcher starts. -/
theorem serve_sources_subscribe : ∃ answered s,
    Lts.Run (TurnStep subscribeJson) (ServeState.new repoRoot)
      [⟨.line subscribeLine readPlain, true, answered⟩,
        ⟨.started (some true) fun _ => .ok plainRepository, false, []⟩] s ∧
    s.watcher = true ∧ s.process.subscribed = true ∧
    Sources subscribeJson repoRoot
      [⟨.line subscribeLine readPlain, true, answered⟩,
        ⟨.started (some true) fun _ => .ok plainRepository, false, []⟩] s := by
  obtain ⟨answered, hsubscribe⟩ := subscribe_line
  have hline : TurnStep subscribeJson (ServeState.new repoRoot)
      ⟨.line subscribeLine readPlain, true, answered⟩
      { process := subscribedState, pendingWatcher := true } := by
    change some (Turn.line _ _ _ _ _) = _
    simp only [Turn.line, ServeState.new, hsubscribe]
    rfl
  have hstarted : TurnStep subscribeJson { process := subscribedState, pendingWatcher := true }
      ⟨.started (some true) fun _ => .ok plainRepository, false, []⟩
      { process := subscribedState, watcher := true } := rfl
  have hrun := (Lts.Run.single hline).snoc hstarted
  exact ⟨answered, _, hrun, rfl, rfl, serve_sources hrun⟩

end Gitseer
