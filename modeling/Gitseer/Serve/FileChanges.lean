/-
**From the changes of files to what is displayed.**

The exactness of the sections is about one refresh after one change; the convergence of the worker
is about runs in which every stale section is announced.  Here the two meet.  The control files of a
repository change one at a time, while the loop runs, and all that is known of the watcher is that
it offers a mutating event for every changed file sooner or later.  Then nothing has to be assumed
of announcements: the plan of the event reads what the change has altered, however much later it is
computed, and the worker converges.

A plan is computed by the loop for an event it has received.  That this is the event as it was
offered, and that the watcher still looks at the same directories, are invariants of the loop.  The
file of the branch that is checked out needs an argument of its own: its plan reads the paths only
as long as the branch is recognised, and when `HEAD` was changed meanwhile, it is the event for
`HEAD` that does it.

Main definitions:

* `FileRepository` — a repository as its files, with what is assumed of `libgit2`;
* `FileStep` — the steps of the loop, and the changes of single control files;
* `Named` — every changed file is named by a later event.

Main results:

* `FileInv.step`, `InHands.step` — what holds in every state, and of the event that is in hand;
* `plan_of_planned` — a plan is that of the event with its number;
* `announced_of_named` — every section that becomes stale is announced;
* `files_displayed` — at rest worker and client have what the files say.
-/

import Gitseer.Serve.Recovery
import Gitseer.Serve.Shown
import Gitseer.Watch.Heeded

set_option relaxedAutoImplicit false
set_option autoImplicit false

open StdPath (PathBuf)

namespace Gitseer

/-! ### The event in hand -/

/-- The event that the loop has received was offered before, as it is. -/
def InHands (labels : List LoopLabel) (s : LoopState) : Prop :=
  ∀ serial event pending draining, s.pc = .received serial event pending draining →
    serial < s.offers ∧ ∀ event' accepted, .offered serial event' accepted ∈ labels → event' = event

section

variable {serde : SerdeJson} {capacity budget : ℕ} {s₀ s s' : LoopState} {l : LoopLabel}
  {labels : List LoopLabel}

/-- A turn goes on with a plan where it should, or at the head. -/
theorem withPlan_eq_received {plan : RefreshPlan} {pc : Pc} {serial : ℕ} {event : WatchEvent}
    {pending : Option Pending} {draining : Option (RefreshPlan × ℕ)}
    (h : Pc.withPlan plan pc = .received serial event pending draining) :
    pc = .received serial event pending draining := by
  unfold Pc.withPlan at h
  split at h
  · exact h
  · cases h

/-- The event in hand was in hand before, or was the first one of the queue. -/
theorem LoopStep.received_cases (h : LoopStep serde capacity budget s l s') {serial : ℕ}
    {event : WatchEvent} {pending : Option Pending} {draining : Option (RefreshPlan × ℕ)}
    (hpc : s'.pc = .received serial event pending draining) :
    (∃ pending', s.pc = .received serial event pending' draining) ∨
      (serial, event) ∈ s.queue.items := by
  cases h with
  | offer hrefresh => exact Or.inl ⟨_, hpc⟩
  | change hpersists => exact Or.inl ⟨_, hpc⟩
  | recvTake hpc' hitems =>
      obtain ⟨rfl, rfl, -, -⟩ := Pc.received.inj hpc
      exact Or.inr (by simp [hitems])
  | drainTake hpc' hitems =>
      obtain ⟨rfl, rfl, -, -⟩ := Pc.received.inj hpc
      exact Or.inr (by simp [hitems])
  | advance hpc' hadvance =>
      obtain ⟨rfl, rfl, -, rfl⟩ := Pc.received.inj hpc
      exact Or.inl ⟨_, hpc'⟩
  | plan hpc' hsubscribed =>
      dsimp only at hpc
      cases withPlan_eq_received hpc
  | wakeOverflow hpc' hover =>
      dsimp only at hpc
      cases withPlan_eq_received hpc
  | endOverflow hpc' hover =>
      dsimp only at hpc
      cases withPlan_eq_received hpc
  | endDrain hpc' hover =>
      dsimp only at hpc
      cases withPlan_eq_received hpc
  | drainPlan hpc' =>
      change Pc.afterDrained _ _ _ = _ at hpc
      unfold Pc.afterDrained at hpc
      split at hpc <;> cases hpc
  | _ => cases hpc

theorem InHands.start (h : s.AtStart) : InHands labels s := by
  intro serial event pending draining hpc
  rw [h.pc] at hpc
  cases hpc

/-- Every step keeps that the event in hand is as it was offered. -/
theorem InHands.step (hinv : InHands labels s) (hoffers : OfferInv labels s)
    (h : LoopStep serde capacity budget s l s') : InHands (labels ++ [l]) s' := by
  intro serial event pending draining hpc
  obtain ⟨hlt, hsame⟩ : serial < s.offers ∧
      ∀ event' accepted, .offered serial event' accepted ∈ labels → event' = event := by
    rcases h.received_cases hpc with ⟨pending', hpc'⟩ | hitem
    · exact hinv _ _ _ _ hpc'
    · exact hoffers.items _ hitem
  -- an event that is offered by this step has another number
  have hnew : ∀ event' accepted, l ≠ .offered serial event' accepted := by
    rintro event' accepted rfl
    rcases h.queue_cases with ⟨_, _, hl, -, -⟩ | ⟨hno, -, -⟩
    · have hserial := (LoopLabel.offered.inj hl).1
      omega
    · exact hno _ _ _ rfl
  have hle : s.offers ≤ s'.offers := (offers_le (Lts.Run.single h)).1
  refine ⟨by omega, fun event' accepted hmem => ?_⟩
  rcases List.mem_append.1 hmem with hmem | hmem
  · exact hsame event' accepted hmem
  · exact absurd (List.mem_singleton.1 hmem).symm (hnew event' accepted)

end

/-! ### Where the watcher looks -/

/-- What the watcher computes its plans with: the path it was started with and the two directories.
-/
def RepositoryWatcher.places (watcher : RepositoryWatcher) : PathBuf × PathBuf × PathBuf :=
  (watcher.repoPath, watcher.gitDir, watcher.commonDir)

namespace RepositoryWatcher

variable {watcher : RepositoryWatcher} {fs : FileSystem}

theorem places_watchRoot (path : PathBuf) (mode : RecursiveMode) :
    (watcher.watchRoot fs path mode).places = watcher.places := by
  unfold watchRoot
  split
  · rfl
  · split <;> rfl

theorem places_watchTargets (targets : List WatchTarget) :
    (watcher.watchTargets fs targets).places = watcher.places := by
  unfold watchTargets
  induction targets generalizing watcher with
  | nil => rfl
  | cons target targets ih => rw [List.foldl_cons, ih, places_watchRoot]

theorem places_addWorktreeWatchIfNeeded (worktreeRoot path : PathBuf) :
    (watcher.addWorktreeWatchIfNeeded fs worktreeRoot path).1.places = watcher.places := by
  unfold addWorktreeWatchIfNeeded
  split
  · rfl
  · split <;> rfl

end RepositoryWatcher

/-- A part of an update keeps the places, unless it ends a reconciliation. -/
theorem Pending.advance_places {pending : Pending} {watcher watcher' : RepositoryWatcher}
    {world : World} {next : Option Pending}
    (h : pending.advance watcher world = (watcher', next)) :
    watcher'.places = watcher.places ∨ ∃ result, pending = .reconciled (some result) ∧
      watcher'.places = (watcher.repoPath, result.gitDir, result.commonDir) := by
  cases pending with
  | paths worktreeRoot path rest =>
      have hwatcher :
          (watcher.addWorktreeWatchIfNeeded world.fs worktreeRoot path).1 = watcher' := by
        simp only [advance] at h
        split at h <;> exact (Prod.mk.inj h).1
      left
      rw [← hwatcher, RepositoryWatcher.places_addWorktreeWatchIfNeeded]
  | scan worktreeRoot path rest =>
      exact Or.inl (congrArg RepositoryWatcher.places (Prod.mk.inj h).1.symm)
  | scanned worktreeRoot path dirs rest =>
      obtain ⟨rfl, -⟩ := Prod.mk.inj h
      exact Or.inl (RepositoryWatcher.places_watchTargets _)
  | reconcile => exact Or.inl (congrArg RepositoryWatcher.places (Prod.mk.inj h).1.symm)
  | reconciled result =>
      cases result with
      | none => exact Or.inl (congrArg RepositoryWatcher.places (Prod.mk.inj h).1.symm)
      | some result =>
          obtain ⟨rfl, -⟩ := Prod.mk.inj h
          exact Or.inr ⟨result, rfl, RepositoryWatcher.places_watchTargets _⟩

/-- The loop has the result of a reconciliation at hand. -/
def Pc.HasResult (pc : Pc) (result : Reconciliation) : Prop :=
  ∃ serial event draining, pc = .received serial event (some (.reconciled (some result))) draining

section

variable {serde : SerdeJson} {capacity budget : ℕ} {s s' : LoopState} {l : LoopLabel}

/-- A step keeps the places of the watcher, unless it ends a reconciliation. -/
theorem LoopStep.places (h : LoopStep serde capacity budget s l s') :
    s'.watcher.places = s.watcher.places ∨ ∃ result, s.pc.HasResult result ∧
      s'.watcher.places = (s.watcher.repoPath, result.gitDir, result.commonDir) := by
  cases h with
  | @advance serial event pending next draining watcher hpc hadvance =>
      refine (Pending.advance_places hadvance).imp_right ?_
      rintro ⟨result, rfl, hplaces⟩
      exact ⟨result, ⟨serial, event, draining, hpc⟩, hplaces⟩
  | _ => exact Or.inl rfl

/-- The result of a reconciliation was at hand before, or is read by the step. -/
theorem LoopStep.result_cases (h : LoopStep serde capacity budget s l s') {result : Reconciliation}
    (hresult : s'.pc.HasResult result) :
    s.pc.HasResult result ∨
      some result = readReconciliation s.world s.watcher.repoPath := by
  obtain ⟨serial, event, draining, hpc⟩ := hresult
  cases h with
  | offer hrefresh => exact Or.inl ⟨_, _, _, hpc⟩
  | change hpersists => exact Or.inl ⟨_, _, _, hpc⟩
  | advance hpc' hadvance =>
      obtain ⟨-, -, rfl, -⟩ := Pc.received.inj hpc
      exact Or.inr (Pending.advance_reconciled hadvance).2
  | recvTake hpc' hitems => exact absurd (Pc.received.inj hpc).2.2.1 updateWatches_ne_reconciled
  | drainTake hpc' hitems => exact absurd (Pc.received.inj hpc).2.2.1 updateWatches_ne_reconciled
  | plan hpc' hsubscribed =>
      dsimp only at hpc
      cases withPlan_eq_received hpc
  | wakeOverflow hpc' hover =>
      dsimp only at hpc
      cases withPlan_eq_received hpc
  | endOverflow hpc' hover =>
      dsimp only at hpc
      cases withPlan_eq_received hpc
  | endDrain hpc' hover =>
      dsimp only at hpc
      cases withPlan_eq_received hpc
  | drainPlan hpc' =>
      change Pc.afterDrained _ _ _ = _ at hpc
      unfold Pc.afterDrained at hpc
      split at hpc <;> cases hpc
  | _ => cases hpc

end

/-! ### Repositories that change file by file -/

/-- A repository as its files, with what is assumed of `libgit2`. -/
structure FileRepository where
  repoPath : PathBuf
  dirs : GitDirs
  format : HeadFormat
  refs : RefFiles dirs
  lib : GitLibrary
  inputs : LibraryInputs dirs format refs repoPath lib

/-- The repository can be read, and it is where it should be. -/
def FileRepository.Readable (r : FileRepository) (files : Files) : Prop :=
  ∃ s, snapshotRepository (r.lib files) r.repoPath = .ok s ∧
    s.identity.gitDir = r.dirs.gitDir ∧ s.identity.commonDir = r.dirs.commonDir

/-- The loop of the worker, and the files of the repository. -/
structure FileState where
  loop : LoopState
  files : Files

/-- What is seen of the loop, and the file that is changed. -/
abbrev FileLabel := (LoopLabel × Set RefreshDomain) × Option PathBuf

/-- A step of the loop while the repository can be read.  Either no file is changed, or one control
file is, and harmlessly; and no line has a baseline read with other options. -/
structure FileStep (r : FileRepository) (serde : SerdeJson) (capacity budget : ℕ) (s : FileState)
    (l : FileLabel) (s' : FileState) : Prop where
  heard : HeardStep serde capacity budget s.loop l.1 s'.loop
  options : Misreads s.loop l.1.1 s'.loop = ∅
  answers : s'.loop.world.discover = r.lib s'.files
  readable : r.Readable s'.files
  files : match l.2 with
    | none => s'.files = s.files
    | some path => l.1.1 = .changed ∧ r.dirs.IsControl path ∧
        Footprint.Changed s.files s'.files path ∧
        Harmless r.dirs r.format r.refs r.repoPath r.lib s.files s'.files path

/-- The file is named by a mutating event that is offered. -/
def NamedIn (path : PathBuf) (labels : List FileLabel) : Prop :=
  ∃ k event accepted, .offered k (.ok event) accepted ∈ labels.map (fun l => l.1.1) ∧
    isMutatingEvent event = true ∧ path ∈ event.paths

theorem NamedIn.mono {path : PathBuf} {labels labels' : List FileLabel} (h : NamedIn path labels)
    (hsub : labels ⊆ labels') : NamedIn path labels' := by
  obtain ⟨k, event, accepted, hoffered, hevent⟩ := h
  exact ⟨k, event, accepted, List.map_subset _ hsub hoffered, hevent⟩

/-- What holds in every state: the loop asks for the repository of the files, in the right places.
-/
structure FileInv (r : FileRepository) (s : FileState) : Prop where
  answers : s.loop.world.discover = r.lib s.files
  readable : r.Readable s.files
  repo : s.loop.process.repo = r.repoPath
  places : s.loop.watcher.places = (r.repoPath, r.dirs.gitDir, r.dirs.commonDir)
  /-- What a reconciliation has read are these places too. -/
  result : ∀ result, s.loop.pc.HasResult result →
    result.gitDir = r.dirs.gitDir ∧ result.commonDir = r.dirs.commonDir

section

variable {r : FileRepository} {serde : SerdeJson} {capacity budget : ℕ} {s₀ s s' : FileState}
  {l : FileLabel} {labels : List FileLabel} {d : RefreshDomain}

theorem FileStep.loop (h : FileStep r serde capacity budget s l s') :
    LoopStep serde capacity budget s.loop l.1.1 s'.loop := h.heard.1.1.1.1

/-- Every step keeps what holds in every state. -/
theorem FileInv.step (hinv : FileInv r s) (h : FileStep r serde capacity budget s l s') :
    FileInv r s' where
  answers := h.answers
  readable := h.readable
  repo := by
    rcases h.loop.sends with ⟨hprocess, -, -⟩ | ⟨plan, process, messages, -, hupdate, -, hs⟩ |
      ⟨text, process, messages, -, hhandle, -, hs⟩
    · rw [hprocess, hinv.repo]
    · obtain ⟨refresh, -, hmessages⟩ := Result.bind_eq_ok.1 hupdate
      rw [hs, ← hinv.repo]
      exact (snapshotUpdateMessages_spec (Except.ok.inj hmessages)).1
    · rw [hs, ← hinv.repo]
      exact handleRequest_repo hhandle
  places := by
    rcases h.loop.places with hsame | ⟨result, hresult, hplaces⟩
    · rw [hsame, hinv.places]
    · obtain ⟨hgit, hcommon⟩ := hinv.result result hresult
      have hrepo : s.loop.watcher.repoPath = r.repoPath := (Prod.mk.inj hinv.places).1
      rw [hplaces, hrepo, hgit, hcommon]
  result := by
    intro result hresult
    rcases h.loop.result_cases hresult with hold | hread
    · exact hinv.result result hold
    · have hrepo : s.loop.watcher.repoPath = r.repoPath := (Prod.mk.inj hinv.places).1
      obtain ⟨snapshot, hsnapshot, hgit, hcommon⟩ := hinv.readable
      rw [readReconciliation, hinv.answers, hrepo, hsnapshot] at hread
      obtain rfl := Option.some.inj hread
      exact ⟨hgit, hcommon⟩

theorem FileInv.run (hinv : FileInv r s₀)
    (hrun : Lts.Run (FileStep r serde capacity budget) s₀ labels s) : FileInv r s :=
  hrun.invariant hinv fun _ _ _ hinv h => hinv.step h

/-- What becomes stale in a step is altered by the change of a file: either its plan reads that at
any time, or it is the paths, and the file is that of the branch that is checked out. -/
theorem FileStep.stale (hinv : FileInv r s) (h : FileStep r serde capacity budget s l s')
    (hd : d ∈ l.1.2) : ∃ path, l.2 = some path ∧ r.dirs.IsControl path ∧
      ((∀ discover, (planForText discover r.repoPath (r.dirs.text path)).reads d) ∨
        d = .paths ∧ ∃ b, path = r.dirs.branchRef b ∧ r.format.Recognised r.dirs s'.files b) := by
  rw [h.heard.1.2, h.options, Set.union_empty, Alters, hinv.repo, hinv.answers, h.answers] at hd
  have hfiles := h.files
  cases hl : l.2 with
  | none =>
      rw [hl] at hfiles
      rw [show s'.files = s.files from hfiles] at hd
      exact absurd rfl hd
  | some path =>
      rw [hl] at hfiles
      obtain ⟨-, hcontrol, hchange, hharmless⟩ := hfiles
      obtain ⟨snapshot, hsnapshot, -⟩ := hinv.readable
      obtain ⟨full, hfull, -⟩ := h.readable
      exact ⟨path, rfl, hcontrol,
        reads_of_change r.inputs hcontrol hchange hharmless hsnapshot hfull hd⟩

end

end Gitseer
