/-
**What a client shows of the repository.**

The worker converges to what the repository holds, and the copy of a client shows what the worker
has.  Together these say what a program behind the worker can rely on: while the repository changes,
its display may be behind; but once every change was announced and the worker has nothing left to
do, the display is one of the repository as it is.  Differences that the comparison of two snapshots
does not see do not spoil this, however many updates they were missed in.

Main definitions:

* `LoudTurn` — the turns that handle no refresh without id.

Main results:

* `LoudTurn.shows` — every such turn keeps the copy showing the baseline;
* `HeardStep.shows`, `shows_of_run` — every such step keeps the copy showing the baseline;
* `copy_at_rest` — a copy that shows a full read at the beginning shows one at rest;
* `client_shows_repository` — at rest the copy shows what a full read gives.
-/

import Gitseer.Protocol.Shown
import Gitseer.Serve.Convergence
import Gitseer.Serve.Transcript

set_option relaxedAutoImplicit false
set_option autoImplicit false

namespace Gitseer

/-! ### Turns -/

/-- A turn that handles no refresh without id. -/
def LoudTurn (serde : SerdeJson) (s : ServeState) (l : ServeLabel) (s' : ServeState) : Prop :=
  TurnStep serde s l s' ∧ ∀ text ∈ l.line?, ¬ SilentRefresh serde text

/-- A turn keeps the copy showing the baseline, unless it handles a refresh without id. -/
theorem LoudTurn.shows {serde : SerdeJson} {s s' : ServeState} {l : ServeLabel}
    {copy : Option RepositorySnapshot} (h : LoudTurn serde s l s')
    (hcopy : Option.Rel RepositorySnapshot.Shows copy s.process.latestSnapshot) :
    Option.Rel RepositorySnapshot.Shows
      (Replica.receiveAll applyPatchToSnapshot copy (publications l.messages))
      s'.process.latestSnapshot := by
  obtain ⟨hturn, hloud⟩ := h
  obtain ⟨input, spawned, messages⟩ := l
  cases serveTurn_sends hturn with
  | line hreq => exact line_shows hreq (line_loud hreq (hloud _ rfl)) hcopy
  | update _ _ _ hupdate =>
      obtain ⟨refresh, -, hmessages⟩ := Result.bind_eq_ok.1 hupdate
      exact update_shows (Except.ok.inj hmessages) hcopy
  | nothing _ hprocess =>
      rw [hprocess]
      exact hcopy

/-! ### The loop -/

section

variable {serde : SerdeJson} {capacity budget : ℕ} {s₀ s s' : LoopState}
  {l : LoopLabel × Set RefreshDomain} {copy : Option RepositorySnapshot}

/-- Every such step keeps the copy showing the baseline. -/
theorem HeardStep.shows (hstep : HeardStep serde capacity budget s l s')
    (hcopy : Option.Rel RepositorySnapshot.Shows copy s.process.latestSnapshot) :
    Option.Rel RepositorySnapshot.Shows
      (Replica.receiveAll applyPatchToSnapshot copy (publications l.1.messages))
      s'.process.latestSnapshot := by
  obtain ⟨⟨⟨⟨hstep, -⟩, -⟩, -⟩, hheard⟩ := hstep
  rcases hstep.sends with ⟨hprocess, hmessages, -⟩ |
    ⟨plan, process, messages, -, hupdate, hl, rfl⟩ |
    ⟨text, process, messages, -, hhandle, hl, rfl⟩
  · rw [hprocess, hmessages]
    exact hcopy
  · rw [hl]
    obtain ⟨refresh, -, hmessages⟩ := Result.bind_eq_ok.1 hupdate
    exact update_shows (Except.ok.inj hmessages) hcopy
  · rw [hl] at hheard ⊢
    exact line_shows hhandle (hheard rfl) hcopy

/-- A client that has the baseline shows it. -/
theorem shows_retained {process : ProcessState} {first : RepositorySnapshot}
    (h : process.latestSnapshot = some first) :
    Option.Rel RepositorySnapshot.Shows (some first) process.latestSnapshot := by
  rw [h]
  exact .some (.refl first)

/-- A copy that shows the baseline shows it in every run in which the client receives everything. -/
theorem shows_of_run {labels : List (LoopLabel × Set RefreshDomain)}
    (hcopy : Option.Rel RepositorySnapshot.Shows copy s₀.process.latestSnapshot)
    (hrun : Lts.Run (HeardStep serde capacity budget) s₀ labels s) :
    Option.Rel RepositorySnapshot.Shows
      (Replica.receiveAll applyPatchToSnapshot copy
        (labels.flatMap fun l => publications l.1.messages)) s.process.latestSnapshot :=
  Replica.run_related
    (fun copy u => Option.Rel RepositorySnapshot.Shows copy u.process.latestSnapshot)
    (fun l => publications l.1.messages) hcopy
    (fun _ _ _ _ hstep hcopy => hstep.shows hcopy) hrun

/-- When everything was announced and the loop is at rest, what is retained is what a full read
gives, and a copy that showed the first full read shows it. -/
theorem copy_at_rest {labels : List (LoopLabel × Set RefreshDomain)} {first : RepositorySnapshot}
    (hstart : s₀.AtStart) (hcapacity : 0 < capacity)
    (hretained : s₀.process.latestSnapshot = some first)
    (hfirst : snapshotRepository s₀.world.discover s₀.process.repo = .ok first)
    (hcopy : Option.Rel RepositorySnapshot.Shows copy s₀.process.latestSnapshot)
    (hrun : Lts.Run (HeardStep serde capacity budget) s₀ labels s)
    (hannounced : Announced labels) (hrest : s.AtRest) :
    ∃ shown snapshot, s.process.latestSnapshot = some snapshot ∧
      snapshotRepository s.world.discover s.process.repo = .ok snapshot ∧
      Replica.receiveAll applyPatchToSnapshot copy
        (labels.flatMap fun l => publications l.1.messages) = some shown ∧
      shown.Shows snapshot := by
  have hshows := shows_of_run hcopy hrun
  have hobserved := hrun.mono fun _ _ _ h => h.1
  obtain ⟨snapshot, hsnapshot⟩ :=
    Option.ne_none_iff_exists'.1 (retained_of_run (by rw [hretained]; simp) hobserved)
  have hread :=
    snapshot_of_rest hstart hcapacity hretained hfirst hobserved hannounced hrest hsnapshot
  rw [hsnapshot] at hshows
  generalize Replica.receiveAll applyPatchToSnapshot copy _ = received at hshows ⊢
  cases hshows with
  | some h => exact ⟨_, snapshot, hsnapshot, hread, rfl, h⟩

/-- A client that has the first snapshot and receives everything that is sent after it shows what a
full read of the repository gives, once everything was announced and the loop is at rest. -/
theorem client_shows_repository {labels : List (LoopLabel × Set RefreshDomain)}
    {first : RepositorySnapshot} (hstart : s₀.AtStart) (hcapacity : 0 < capacity)
    (hretained : s₀.process.latestSnapshot = some first)
    (hfirst : snapshotRepository s₀.world.discover s₀.process.repo = .ok first)
    (hrun : Lts.Run (HeardStep serde capacity budget) s₀ labels s)
    (hannounced : Announced labels) (hrest : s.AtRest) :
    ∃ copy snapshot, Replica.receiveAll applyPatchToSnapshot (some first)
        (labels.flatMap fun l => publications l.1.messages) = some copy ∧
      snapshotRepository s.world.discover s.process.repo = .ok snapshot ∧
      copy.Shows snapshot := by
  obtain ⟨copy, snapshot, -, hread, hreceived, hshows⟩ :=
    copy_at_rest hstart hcapacity hretained hfirst (shows_retained hretained) hrun hannounced hrest
  exact ⟨copy, snapshot, hreceived, hread, hshows⟩

end

/-- A subscription is no refresh. -/
theorem subscribeLine_loud : ¬ SilentRefresh subscribeJson subscribeLine := by
  rintro ⟨request, hrequest, -⟩
  have hparse : parseRequest subscribeJson subscribeLine =
      .ok (⟨"2.0", "gitseer/subscribe", none, some (.number (.int 1))⟩, false) := rfl
  cases hparse.symm.trans hrequest

/-- The client that was told of the merge shows it. -/
theorem client_shows_repository_merge : ∃ labels s copy,
    Lts.Run (HeardStep refreshJson maxPendingWatchEvents maxDebounceDrainEvents)
      (serveState none {2, 1} {} 0 .head) labels s ∧
    Replica.receiveAll applyPatchToSnapshot (some plainSnapshot)
      (labels.flatMap fun l => publications l.1.messages) = some copy ∧
    copy.Shows mergingSnapshot := by
  obtain ⟨stale, messages, hrun, hannounced⟩ := merge_run refreshJson
  have hheard := hrun.mono fun _ _ _ h => h.1
  obtain ⟨copy, snapshot, hcopy, hread, hshows⟩ := client_shows_repository
    serveState_atStart (by decide) rfl (by decide) hheard hannounced ⟨rfl, rfl⟩
  have hmerging : snapshotRepository (fun _ => .ok mergingRepository) repoRoot =
      .ok mergingSnapshot := by decide
  obtain rfl := Except.ok.inj (hmerging.symm.trans hread)
  exact ⟨_, _, copy, hheard, hcopy, hshows⟩

end Gitseer
