/-
**The whole worker, from its first line on.**

The loop with its watcher brings a client that has the first snapshot to what the repository holds.
But a client begins with nothing, and the worker without a watcher: it subscribes, the watcher is
started in the background, and what is changed in the meantime is announced by nobody.  That nothing
is missed is due to the turn in which the watcher is there.  It reads the repository as a whole, as
each tick does as long as there is no watcher.

Main definitions:

* `ServeInput.fullRead` — the repository that a turn reads as a whole for a subscriber.

Main results:

* `TurnStep.full_retained` — what is retained after such a turn;
* `worker_shows_repository` — what a client shows that has received everything since the start of
  the worker.
-/

import Gitseer.Serve.Shown

set_option relaxedAutoImplicit false
set_option autoImplicit false

namespace Gitseer

/-! ### Turns that read the repository as a whole -/

/-- The repository that a turn with the input reads as a whole for a subscriber: one with which the
watcher is there or cannot be had, and a tick. -/
def ServeInput.fullRead : ServeInput → Option Discover
  | .started (some _) discover => some discover
  | .tick discover => some discover
  | _ => none

section

variable {serde : SerdeJson} {discover : Discover} {s s' : ServeState} {l : ServeLabel}
  {messages : List ServerMessage}

/-- A full update retains what a full read gives. -/
theorem automaticUpdate_full {process process' : ProcessState}
    (h : automaticUpdate discover process .full = .ok (some (process', messages))) :
    ∃ snapshot, process'.latestSnapshot = some snapshot ∧
      snapshotRepository discover process'.repo = .ok snapshot := by
  obtain ⟨refresh, hrefresh, hsome⟩ := Result.bind_eq_ok.1 h
  obtain ⟨hrepo, hlatest, -⟩ := snapshotUpdateMessages_spec (Except.ok.inj hsome)
  refine ⟨refresh.snapshot, hlatest, ?_⟩
  rw [hrepo]
  rcases refresh_cases hrefresh with ⟨-, hread⟩ | ⟨hplan, -⟩ | ⟨domains, retained, repo, hplan, -⟩
  · exact hread
  · cases hplan
  · cases hplan

/-- What `refresh_subscribed` does for a subscriber. -/
theorem Turn.refreshSubscribed_full {t : ServeState} {spawned : Bool}
    (h : Turn.refreshSubscribed t discover = .again s' spawned messages)
    (hsubscribed : s'.process.subscribed = true) :
    ∃ snapshot, s'.process.latestSnapshot = some snapshot ∧
      snapshotRepository discover s'.process.repo = .ok snapshot := by
  unfold Turn.refreshSubscribed at h
  split at h
  · next hnot =>
      injection h with hstate
      subst hstate
      rw [hsubscribed] at hnot
      cases hnot
  · unfold Turn.refresh at h
    split at h
    · next process sent hupdate =>
        injection h with hstate hspawned hmessages
        subst hstate
        exact automaticUpdate_full hupdate
    · cases h

/-- After a turn that reads the repository as a whole for a subscriber, the snapshot that was read
is retained. -/
theorem TurnStep.full_retained (h : TurnStep serde s l s')
    (hfull : l.input.fullRead = some discover) (hsubscribed : s'.process.subscribed = true) :
    ∃ snapshot, s'.process.latestSnapshot = some snapshot ∧
      snapshotRepository discover s'.process.repo = .ok snapshot := by
  obtain ⟨input, spawned, messages⟩ := l
  unfold TurnStep serveTurn at h
  cases input with
  | started ok read =>
      match ok with
      | none => cases hfull
      | some true =>
          obtain rfl := Option.some.inj hfull
          split_ifs at h
          · cases h
          · exact Turn.refreshSubscribed_full (Option.some.inj h) hsubscribed
          · cases h
          · cases h
      | some false =>
          obtain rfl := Option.some.inj hfull
          split_ifs at h
          · cases h
          · exact Turn.refreshSubscribed_full (Option.some.inj h) hsubscribed
          · cases h
          · cases h
  | tick read =>
      obtain rfl := Option.some.inj hfull
      split_ifs at h
      · cases h
      · exact Turn.refreshSubscribed_full (Option.some.inj h) hsubscribed
      · exact Turn.refreshSubscribed_full (Option.some.inj h) hsubscribed
      · cases h
  | _ => cases hfull

end

/-! ### The client -/

section

variable {serde : SerdeJson} {capacity budget : ℕ} {repo : StdPath.PathBuf}
  {turns : List ServeLabel} {l : ServeLabel} {discover : Discover} {t : ServeState}

/-- The publications of several lists of messages come one list after the other. -/
theorem publications_flatMap {α : Type} (f : α → List ServerMessage) (l : List α) :
    publications (l.flatMap f) = l.flatMap fun a => publications (f a) := List.filterMap_flatMap ..

/-- A client that has received everything since the start of the worker shows the baseline. -/
theorem shows_of_turns (hturns : Lts.Run (LoudTurn serde) (.new repo) turns t) :
    Option.Rel RepositorySnapshot.Shows (clientCopy (turns.flatMap ServeLabel.messages))
      t.process.latestSnapshot := by
  rw [clientCopy, publications_flatMap]
  exact Replica.run_related
    (fun copy (u : ServeState) => Option.Rel RepositorySnapshot.Shows copy u.process.latestSnapshot)
    (fun l => publications l.messages) .none (fun _ _ _ _ hstep hcopy => hstep.shows hcopy) hturns

/-- The last of the turns has read the repository as a whole for a subscriber.  A client that has
received everything since the start of the worker then shows what was read.  If the watcher is
there, and once everything that happens from then on was announced and the loop is at rest, it shows
what a full read gives. -/
theorem worker_shows_repository
    (hturns : Lts.Run (LoudTurn serde) (.new repo) (turns ++ [l]) t)
    (hfull : l.input.fullRead = some discover) (hsubscribed : t.process.subscribed = true) :
    (∃ copy snapshot, clientCopy ((turns ++ [l]).flatMap ServeLabel.messages) = some copy ∧
      snapshotRepository discover t.process.repo = .ok snapshot ∧ copy.Shows snapshot) ∧
    ∀ (s₀ s : LoopState) (labels : List (LoopLabel × Set RefreshDomain)), t.watcher = true →
      0 < capacity → s₀.AtStart → s₀.process = t.process → s₀.world.discover = discover →
      Lts.Run (HeardStep serde capacity budget) s₀ labels s → Announced labels → s.AtRest →
      ∃ copy snapshot, clientCopy ((turns ++ [l]).flatMap ServeLabel.messages ++
          labels.flatMap fun l => l.1.messages) = some copy ∧
        snapshotRepository s.world.discover s.process.repo = .ok snapshot ∧
        copy.Shows snapshot := by
  obtain ⟨t', -, hlast⟩ := hturns.split
  obtain ⟨u, hstep, hnil⟩ := hlast.uncons
  obtain rfl := hnil.eq_of_nil
  obtain ⟨first, hretained, hfirst⟩ := hstep.1.full_retained hfull hsubscribed
  have hcopy := shows_of_turns hturns
  constructor
  · rw [hretained] at hcopy
    generalize clientCopy _ = received at hcopy ⊢
    cases hcopy with
    | some h => exact ⟨_, first, rfl, hfirst, h⟩
  · intro s₀ s labels _ hcapacity hstart hprocess hdiscover hrun hannounced hrest
    rw [← hprocess] at hretained hcopy hfirst
    rw [← hdiscover] at hfirst
    obtain ⟨copy, snapshot, -, hread, hreceived, hshows⟩ :=
      copy_at_rest hstart hcapacity hretained hfirst hcopy hrun hannounced hrest
    refine ⟨copy, snapshot, ?_, hread, hshows⟩
    rw [← publications_flatMap] at hreceived
    rw [clientCopy, publications, List.filterMap_append, Replica.receiveAll_append]
    exact hreceived

end

/-- A client subscribes, and the watcher is started for it. -/
theorem subscribed_turns : ∃ answered, Lts.Run (LoudTurn subscribeJson) (.new repoRoot)
    ([⟨.line subscribeLine readPlain, true, answered⟩] ++
      [⟨.started (some true) fun _ => .ok plainRepository, false, []⟩])
    { process := subscribedState, watcher := true } := by
  obtain ⟨answered, -, hline⟩ := subscribe_turn
  have hfirst : LoudTurn subscribeJson (.new repoRoot)
      ⟨.line subscribeLine readPlain, true, answered⟩
      { process := subscribedState, pendingWatcher := true } := by
    refine ⟨hline, fun text htext => ?_⟩
    obtain rfl := Option.some.inj htext
    exact subscribeLine_loud
  exact ⟨answered, (Lts.Run.single hfirst).snoc ⟨started_turn, fun text htext => by cases htext⟩⟩

/-- The client subscribes, and a merge starts once the watcher is there. -/
theorem worker_shows_repository_merge : ∃ turns l t labels s copy,
    Lts.Run (LoudTurn subscribeJson) (.new repoRoot) (turns ++ [l]) t ∧
    Lts.Run (HeardStep subscribeJson maxPendingWatchEvents maxDebounceDrainEvents)
      (serveState none {2, 1} {} 0 .head) labels s ∧
    clientCopy ((turns ++ [l]).flatMap ServeLabel.messages ++
      labels.flatMap fun l => l.1.messages) = some copy ∧
    copy.Shows mergingSnapshot := by
  obtain ⟨answered, hturns⟩ := subscribed_turns
  obtain ⟨stale, messages, hrun, hannounced⟩ := merge_run subscribeJson
  have hheard := hrun.mono fun _ _ _ h => h.1
  obtain ⟨copy, snapshot, hcopy, hread, hshows⟩ := (worker_shows_repository hturns rfl rfl).2
    _ _ _ rfl (by decide) serveState_atStart rfl rfl hheard hannounced ⟨rfl, rfl⟩
  have hmerging : snapshotRepository (fun _ => .ok mergingRepository) repoRoot =
      .ok mergingSnapshot := by decide
  obtain rfl := Except.ok.inj (hmerging.symm.trans hread)
  exact ⟨_, _, _, _, _, copy, hturns, hheard, hcopy, hshows⟩

end Gitseer
