/-
**Is a new directory watched?**

Directories are created, removed and moved while the watcher updates its watches for the events of
these changes.  Once the event of a new directory has been processed, the directory ought to be
watched.  Whether it is depends on the list of the watcher: a path on the list is not watched again,
and the list takes notice of a directory that is gone only when some other directory appears.  So a
directory that is removed and created anew, at a path that is still on the list, is not watched.
Nor is one that Git does not ignore while a made-up child of it is ignored: the scan takes it as
ignored.

The steps here are finer than those of the program where this costs nothing: the file system may
change between any two parts of an update, also where the program does not wait.

Main definitions:

* `WatchStep` — changes of the file system and parts of updates;
* `Event.Announces` — the event of a directory that was created or moved to a path;
* `Covered` — the announced directory is watched;
* `World.ignores`, `World.scanIgnores` — what Git ignores, and what the scan takes as ignored;
* `Sound` — the condition on a step: no directory comes to exist at a listed path, no watch is
  dropped that a listed directory depends on, and the scan takes no announced directory as ignored
  that Git does not ignore.

Main results:

* `created_directory_watched` — in every run of sound steps an announced directory is watched when
  its event has been processed;
* `recreated_directory_not_watched` — and in another run it is not.
-/

import Gitseer.Lib.Run
import Gitseer.Watch.Watcher

set_option relaxedAutoImplicit false
set_option autoImplicit false

open StdPath (PathBuf FileName)
open Walk (Listing Leads Clear)

namespace Gitseer

/-! ### Histories -/

/-- The watcher in a world that changes, with the update it is carrying out. -/
structure WatchState where
  world : World
  watcher : RepositoryWatcher
  updating : Option (WatchEvent × Pending)

inductive WatchLabel
  | changed
  | began (event : WatchEvent)
  | advanced
  | processed (event : WatchEvent)

/-- A watch persists exactly as long as its inode is somewhere in the file system. -/
structure Notify.Persists (before after : Notify) (fs : FileSystem) : Prop where
  registered : after.registered = before.registered
  live : ∀ inode, inode ∈ after.live ↔
    inode ∈ before.live ∧ ∃ path node, fs.node path = some node ∧ node.inode = inode

/-- A change of the world, or a part of an update; an update begins when none is carried out. -/
inductive WatchStep : WatchState → WatchLabel → WatchState → Prop
  | change {s : WatchState} {world : World} {notify : Notify}
      (hpersists : s.watcher.notify.Persists notify world.fs) :
      WatchStep s .changed
        { s with world := world, watcher := { s.watcher with notify := notify } }
  | skip {s : WatchState} {event : WatchEvent} (hidle : s.updating = none)
      (h : s.watcher.updateWatchesForEvent s.world event = none) :
      WatchStep s (.processed event) s
  | begin {s : WatchState} {event : WatchEvent} {pending : Pending} (hidle : s.updating = none)
      (h : s.watcher.updateWatchesForEvent s.world event = some pending) :
      WatchStep s (.began event) { s with updating := some (event, pending) }
  | advance {s : WatchState} {event : WatchEvent} {pending next : Pending}
      {watcher : RepositoryWatcher} (hupdating : s.updating = some (event, pending))
      (h : pending.advance s.watcher s.world = (watcher, some next)) :
      WatchStep s .advanced { s with watcher := watcher, updating := some (event, next) }
  | finish {s : WatchState} {event : WatchEvent} {pending : Pending}
      {watcher : RepositoryWatcher} (hupdating : s.updating = some (event, pending))
      (h : pending.advance s.watcher s.world = (watcher, none)) :
      WatchStep s (.processed event) { s with watcher := watcher, updating := none }

/-- A history starts with a new watcher. -/
def Started (s : WatchState) : Prop :=
  s.updating = none ∧ ∃ repoPath, RepositoryWatcher.new s.world repoPath = .ok s.watcher

/-! ### What is asked for -/

/-- The event of a directory that was created at the path or moved to it: of the two paths of a
move the second one counts. -/
def WatchEvent.Announces (event : WatchEvent) (p : PathBuf) : Prop :=
  ∃ e : Event, event = .ok e ∧ eventCanCreateDirectoryWatch e = true ∧ e.paths.getLast? = some p

/-- Does Git ignore the path?  Without a repository, and outside the worktree, nothing is
ignored. -/
def World.ignores (world : World) (worktreeRoot p : PathBuf) : Bool :=
  match (world.discover worktreeRoot).toOption, p.stripPrefix worktreeRoot with
  | some repo, some relative => repo.ignores relative
  | _, _ => false

/-- Does the scan take a directory of the worktree as ignored?  It asks about the directory and
about a made-up child of it. -/
def World.scanIgnores (world : World) (worktreeRoot p : PathBuf) : Bool :=
  gitIgnored (world.discover worktreeRoot).toOption worktreeRoot p

/-- The directory the event announces is watched, if it is still there, inside the worktree,
outside the Git directories and not ignored. -/
def Covered (s : WatchState) (event : WatchEvent) : Prop :=
  ∀ p inode worktreeRoot, event.Announces p → s.world.fs.dirInode p = some inode →
    s.watcher.worktreeRoot = some worktreeRoot → p.startsWith worktreeRoot = true →
    p.startsWith s.watcher.gitDir = false → p.startsWith s.watcher.commonDir = false →
    s.world.ignores worktreeRoot p = false → inode ∈ s.watcher.notify.live

/-! ### When it is granted -/

/-- The repository can be read, and nothing bars the scan of its worktree from the directory. -/
def World.ScanReaches (world : World) (repoPath p : PathBuf) : Prop :=
  world.fs.isDir p = true ∧ ∃ snapshot worktreeRoot names t,
    snapshotRepository world.discover repoPath = .ok snapshot ∧
    snapshot.identity.worktreeRoot = some worktreeRoot ∧
    Leads (world.fs.readDir worktreeRoot) names t ∧ worktreeRoot.descend names = p ∧
    Clear PathBuf.child (skipsEntry (world.discover worktreeRoot).toOption worktreeRoot)
      (isNestedRoot world.fs worktreeRoot) worktreeRoot names

/-- A change that brings no directory to a path on the list, and leaves it open for no directory
whose event is being processed whether Git ignores it. -/
def SoundChange (s s' : WatchState) : Prop :=
  (∀ p ∈ s.watcher.watchedRoots, ∀ inode, s'.world.fs.dirInode p = some inode →
    s.world.fs.dirInode p = some inode) ∧
  (∀ event pending, s.updating = some (event, pending) → ∀ p, event.Announces p →
    ∀ worktreeRoot, s.watcher.worktreeRoot = some worktreeRoot →
      s'.world.ignores worktreeRoot p = s.world.ignores worktreeRoot p)

/-- A part of an update that drops no watch of a directory on the list.  An announced directory
whose made-up child is ignored is ignored itself when it is scanned, and where the repository is
read again for it the scan reaches it. -/
structure SoundPart (s : WatchState) : Prop where
  unshared : ∀ event pending, s.updating = some (event, pending) →
    s.watcher.Unshared s.world.fs (pending.keeps s.watcher s.world.fs)
  probed : ∀ event worktreeRoot p rest, s.updating = some (event, .scan worktreeRoot p rest) →
    event.Announces p → s.world.ignores worktreeRoot p = false →
      s.world.scanIgnores worktreeRoot p = false
  reached : ∀ event, s.updating = some (event, .reconcile) → ∀ p, event.Announces p →
    s.world.ScanReaches s.watcher.repoPath p

def Sound (s : WatchState) : WatchLabel → WatchState → Prop
  | .changed, s' => SoundChange s s'
  | _, _ => SoundPart s

def SoundStep (s : WatchState) (l : WatchLabel) (s' : WatchState) : Prop :=
  WatchStep s l s' ∧ Sound s l s'

/-! ### What holds during an update -/

/-- The announced path is the last one that remains; a scan whose result is at hand has found it
unless it is ignored, and so has a reconciliation. -/
def Pending.Tracks (pending : Pending) (s : WatchState) (p : PathBuf) : Prop :=
  match pending with
  | .paths worktreeRoot path rest =>
      s.watcher.worktreeRoot = some worktreeRoot ∧ (path :: rest).getLast? = some p
  | .scan worktreeRoot path rest =>
      s.watcher.worktreeRoot = some worktreeRoot ∧ (path :: rest).getLast? = some p
  | .scanned worktreeRoot path dirs rest =>
      s.watcher.worktreeRoot = some worktreeRoot ∧ (path :: rest).getLast? = some p ∧
        (rest = [] → p ∈ dirs ∨ s.world.ignores worktreeRoot p = true)
  | .reconcile => True
  | .reconciled result =>
      ∃ r, result = some r ∧ p ∈ r.targets.map WatchTarget.path

/-- What holds in every state of a run of sound steps. -/
structure WatchInv (s : WatchState) : Prop where
  live : s.watcher.LiveList s.world.fs
  tracks : ∀ event pending, s.updating = some (event, pending) →
    ∀ p, event.Announces p → pending.Tracks s p

theorem WatchInv.start {s : WatchState} (h : Started s) : WatchInv s := by
  obtain ⟨hidle, repoPath, hnew⟩ := h
  refine ⟨RepositoryWatcher.new_liveList hnew, ?_⟩
  intro event pending hupdating
  rw [hidle] at hupdating
  cases hupdating

/-! ### One step -/

section

variable {s s' : WatchState} {event : WatchEvent} {pending : Pending} {p : PathBuf}

/-- A listed directory is the one it was before the change, and its watch persists. -/
theorem WatchInv.change {world : World} {notify : Notify} (hinv : WatchInv s)
    (hpersists : s.watcher.notify.Persists notify world.fs)
    (hsound : SoundChange s
      { s with world := world, watcher := { s.watcher with notify := notify } }) :
    WatchInv { s with world := world, watcher := { s.watcher with notify := notify } } := by
  obtain ⟨hlisted, hignores⟩ := hsound
  constructor
  · intro p hp inode hinode
    have hbefore := hlisted p hp inode hinode
    refine (hpersists.live inode).2 ⟨hinv.live p hp inode hbefore, p, ?_⟩
    simp only [FileSystem.dirInode] at hinode
    split at hinode
    · next i entries hnode => exact ⟨_, hnode, Option.some.inj hinode⟩
    · cases hinode
  · intro event pending hupdating p hannounces
    have htracks := hinv.tracks event pending hupdating p hannounces
    cases pending with
    | paths worktreeRoot path rest => exact htracks
    | scan worktreeRoot path rest => exact htracks
    | scanned worktreeRoot path dirs rest =>
        obtain ⟨hroot, hlast, hfound⟩ := htracks
        refine ⟨hroot, hlast, ?_⟩
        intro hrest
        rw [hignores event _ hupdating p hannounces worktreeRoot hroot]
        exact hfound hrest
    | reconcile => exact htracks
    | reconciled result => exact htracks

/-- An update of an announcing event looks at all its paths, unless it reads everything again. -/
theorem updateWatches_of_announces (watcher : RepositoryWatcher) (world : World)
    (hannounces : event.Announces p) :
    watcher.updateWatchesForEvent world event = some .reconcile ∨
    watcher.worktreeRoot = none ∨
    ∃ worktreeRoot path rest, watcher.worktreeRoot = some worktreeRoot ∧
      (path :: rest).getLast? = some p ∧
      watcher.updateWatchesForEvent world event = some (.paths worktreeRoot path rest) := by
  obtain ⟨e, rfl, hcan, hlast⟩ := hannounces
  unfold RepositoryWatcher.updateWatchesForEvent
  dsimp only
  split
  · exact Or.inl rfl
  · right
    cases hroot : watcher.worktreeRoot with
    | none => exact Or.inl rfl
    | some worktreeRoot =>
        right
        cases hpaths : e.paths with
        | nil =>
            rw [hpaths] at hlast
            cases hlast
        | cons path rest =>
            rw [hpaths] at hlast
            exact ⟨worktreeRoot, path, rest, rfl, hlast, by simp [hcan, Pending.next]⟩

theorem WatchInv.begin (hinv : WatchInv s)
    (h : s.watcher.updateWatchesForEvent s.world event = some pending) :
    WatchInv { s with updating := some (event, pending) } := by
  refine ⟨hinv.live, ?_⟩
  intro event' pending' hupdating p hannounces
  obtain ⟨rfl, rfl⟩ := Prod.mk.inj (Option.some.inj hupdating)
  rcases updateWatches_of_announces s.watcher s.world hannounces with
    hre | hroot | ⟨worktreeRoot, path, rest, hroot, hlast, hpaths⟩
  · obtain rfl := Option.some.inj (h.symm.trans hre)
    trivial
  · -- without a worktree there is nothing to do but to read everything again
    unfold RepositoryWatcher.updateWatchesForEvent at h
    rw [hroot] at h
    cases event with
    | error e => cases h
    | ok e =>
        dsimp only at h
        split at h
        · obtain rfl := Option.some.inj h
          trivial
        · cases h
  · obtain rfl := Option.some.inj (h.symm.trans hpaths)
    exact ⟨hroot, hlast⟩

/-- Only a reconciliation changes where the worktree is. -/
theorem worktreeRoot_addWorktreeWatchIfNeeded (watcher : RepositoryWatcher) (fs : FileSystem)
    (worktreeRoot path : PathBuf) :
    (watcher.addWorktreeWatchIfNeeded fs worktreeRoot path).1.worktreeRoot =
      watcher.worktreeRoot := by
  rcases watcher.addWorktreeWatchIfNeeded_cases fs worktreeRoot path with ⟨h, -⟩ | ⟨-, h⟩
  · rw [h]
  · rw [h]
    rfl

theorem worktreeRoot_watchTargets (watcher : RepositoryWatcher) (fs : FileSystem)
    (targets : List WatchTarget) :
    (watcher.watchTargets fs targets).worktreeRoot = watcher.worktreeRoot := by
  induction targets generalizing watcher with
  | nil => rfl
  | cons target targets ih =>
      rw [RepositoryWatcher.watchTargets_cons, ih]
      rcases watcher.watchRoot_cases fs target.path target.mode with ⟨h, -⟩ | ⟨notify, -, h⟩
      · rw [h]
      · rw [h]

/-- A directory that the scan does not take as ignored is among those it pushes. -/
theorem mem_worktreeWatchDirsFrom (world : World) (worktreeRoot p : PathBuf) :
    p ∈ worktreeWatchDirsFrom world.discover world.fs worktreeRoot p ∨
      world.scanIgnores worktreeRoot p = true := by
  unfold worktreeWatchDirsFrom
  dsimp only
  split
  · next h =>
      rw [Bool.and_eq_true] at h
      exact Or.inr h.2
  · exact Or.inl (List.mem_cons_self ..)

/-- A directory the scan reaches is among the targets of the reconciliation. -/
theorem World.ScanReaches.mem_targets {world : World} {repoPath : PathBuf}
    (h : world.ScanReaches repoPath p) :
    ∃ r, readReconciliation world repoPath = some r ∧ p ∈ r.targets.map WatchTarget.path := by
  obtain ⟨hdir, snapshot, worktreeRoot, names, t, hsnapshot, hroot, hleads, hp, hclear⟩ := h
  obtain ⟨inode, hinode⟩ := Option.isSome_iff_exists.1 hdir
  have hmem : p ∈ snapshotWatchDirs world.discover world.fs snapshot.identity := by
    unfold snapshotWatchDirs
    rw [hroot]
    exact mem_worktreeWatchDirs.2 ⟨names, t, hleads, hp, hclear⟩
  have htargets := mem_watchTargets hmem (FileSystem.pathExists_of_dirInode hinode)
  unfold readReconciliation
  rw [hsnapshot]
  exact ⟨_, rfl, htargets⟩

/-- What remains of an announcing event after one of its paths has been dealt with. -/
theorem tracks_next {worktreeRoot path : PathBuf} {rest : List PathBuf} {next : Pending}
    (hnext : Pending.next worktreeRoot rest = some next)
    (hroot : s.watcher.worktreeRoot = some worktreeRoot)
    (hlast : (path :: rest).getLast? = some p) : next.Tracks s p := by
  cases rest with
  | nil => cases hnext
  | cons first rest =>
      obtain rfl := Option.some.inj hnext
      exact ⟨hroot, by rwa [List.getLast?_cons_cons] at hlast⟩

/-- One part of an update hands on what is known about the announced directory. -/
theorem Pending.Tracks.advance {watcher : RepositoryWatcher} {next : Pending}
    (htracks : pending.Tracks s p) (h : pending.advance s.watcher s.world = (watcher, some next))
    (hprobed : ∀ worktreeRoot rest, pending = .scan worktreeRoot p rest →
      s.world.ignores worktreeRoot p = false → s.world.scanIgnores worktreeRoot p = false)
    (hreaches : pending = .reconcile → s.world.ScanReaches s.watcher.repoPath p) :
    next.Tracks { s with watcher := watcher, updating := some (event, next) } p := by
  cases pending with
  | paths worktreeRoot path rest =>
      obtain ⟨hroot, hlast⟩ := htracks
      have hsame := worktreeRoot_addWorktreeWatchIfNeeded s.watcher s.world.fs worktreeRoot path
      simp only [Pending.advance] at h
      split at h
      · obtain ⟨rfl, hnext⟩ := Prod.mk.inj h
        obtain rfl := Option.some.inj hnext
        exact ⟨hsame.trans hroot, hlast⟩
      · obtain ⟨rfl, hnext⟩ := Prod.mk.inj h
        exact tracks_next hnext (hsame.trans hroot) hlast
  | scan worktreeRoot path rest =>
      obtain ⟨hroot, hlast⟩ := htracks
      obtain ⟨rfl, hnext⟩ := Prod.mk.inj h
      obtain rfl := Option.some.inj hnext
      refine ⟨hroot, hlast, ?_⟩
      rintro rfl
      obtain rfl : path = p := by simpa using hlast
      refine (mem_worktreeWatchDirsFrom s.world worktreeRoot path).imp_right fun hscan => ?_
      by_contra hignored
      rw [hprobed worktreeRoot [] rfl (Bool.eq_false_of_not_eq_true hignored)] at hscan
      cases hscan
  | scanned worktreeRoot path dirs rest =>
      obtain ⟨hroot, hlast, -⟩ := htracks
      obtain ⟨rfl, hnext⟩ := Prod.mk.inj h
      have hsame := worktreeRoot_watchTargets s.watcher s.world.fs
        (dirs.map fun dir => ⟨dir, .nonRecursive⟩)
      exact tracks_next hnext (hsame.trans hroot) hlast
  | reconcile =>
      obtain ⟨rfl, hnext⟩ := Prod.mk.inj h
      obtain rfl := Option.some.inj hnext
      exact (hreaches rfl).mem_targets
  | reconciled result => cases result <;> cases (Prod.mk.inj h).2

/-- The last part of an update leaves the announced directory watched. -/
theorem Pending.Tracks.finish {watcher : RepositoryWatcher} (htracks : pending.Tracks s p)
    (h : pending.advance s.watcher s.world = (watcher, none))
    (hlive : watcher.LiveList s.world.fs) {inode : ℕ}
    (hinode : s.world.fs.dirInode p = some inode) {worktreeRoot : PathBuf}
    (hroot : watcher.worktreeRoot = some worktreeRoot) (hinside : p.startsWith worktreeRoot = true)
    (hgit : p.startsWith watcher.gitDir = false)
    (hcommon : p.startsWith watcher.commonDir = false)
    (hignored : s.world.ignores worktreeRoot p = false) : inode ∈ watcher.notify.live := by
  have hexists := FileSystem.pathExists_of_dirInode hinode
  have hdir : s.world.fs.isDir p = true := by
    rw [FileSystem.isDir, hinode]
    rfl
  cases pending with
  | paths root path rest =>
      obtain ⟨hroot', hlast⟩ := htracks
      simp only [Pending.advance] at h
      split at h
      · cases (Prod.mk.inj h).2
      · next hneeded =>
          obtain ⟨rfl, hnext⟩ := Prod.mk.inj h
          cases rest with
          | cons first rest => cases hnext
          | nil =>
              have hpath : path = p := by simpa using hlast
              subst hpath
              rw [worktreeRoot_addWorktreeWatchIfNeeded, hroot'] at hroot
              obtain rfl := Option.some.inj hroot
              -- the path passes the tests, so it is on the list
              rcases s.watcher.addWorktreeWatchIfNeeded_cases s.world.fs root path with
                ⟨hsame, hwhy⟩ | ⟨-, hpruned⟩
              · rw [hsame] at hgit hcommon
                dsimp only at hgit hcommon
                rcases hwhy with hwhy | hwhy | hwhy | hwhy
                · rw [hgit] at hwhy
                  cases hwhy
                · rw [hcommon] at hwhy
                  cases hwhy
                · rw [hdir] at hwhy
                  cases hwhy
                · rw [hinside] at hwhy
                  cases hwhy
              · rw [hpruned] at hneeded hlive ⊢
                exact hlive path (by simpa using hneeded) inode hinode
  | scan root path rest => cases (Prod.mk.inj h).2
  | scanned root path dirs rest =>
      obtain ⟨hroot', hlast, hfound⟩ := htracks
      obtain ⟨rfl, hnext⟩ := Prod.mk.inj h
      cases rest with
      | cons first rest => cases hnext
      | nil =>
          rw [worktreeRoot_watchTargets, hroot'] at hroot
          obtain rfl := Option.some.inj hroot
          rcases hfound rfl with hmem | hbad
          · refine hlive p ?_ inode hinode
            refine RepositoryWatcher.mem_watchTargets.2 (Or.inr ⟨?_, hexists⟩)
            rw [List.map_map]
            exact List.mem_map.2 ⟨p, hmem, rfl⟩
          · rw [hignored] at hbad
            cases hbad
  | reconcile => cases (Prod.mk.inj h).2
  | reconciled result =>
      obtain ⟨r, rfl, hmem⟩ := htracks
      obtain ⟨rfl, -⟩ := Prod.mk.inj h
      exact hlive p (RepositoryWatcher.replaceWatchTargets_lists hmem hexists) inode hinode

end

/-! ### Every run -/

/-- The invariant is kept by every sound step. -/
theorem WatchInv.step {s s' : WatchState} {l : WatchLabel} (hinv : WatchInv s)
    (h : SoundStep s l s') : WatchInv s' := by
  obtain ⟨hstep, hsound⟩ := h
  cases hstep with
  | change hpersists => exact hinv.change hpersists hsound
  | skip hidle h => exact hinv
  | begin hidle h => exact hinv.begin h
  | @advance event pending next watcher hupdating h =>
      have hlive := Pending.advance_liveList hinv.live (hsound.unshared event pending hupdating)
      rw [h] at hlive
      refine ⟨hlive, ?_⟩
      intro event' pending' hupdating' p hannounces
      obtain ⟨rfl, rfl⟩ := Prod.mk.inj (Option.some.inj hupdating')
      refine (hinv.tracks event pending hupdating p hannounces).advance h ?_ ?_
      · rintro worktreeRoot rest rfl
        exact hsound.probed event worktreeRoot p rest hupdating hannounces
      · rintro rfl
        exact hsound.reached event hupdating p hannounces
  | @finish event pending watcher hupdating h =>
      have hlive := Pending.advance_liveList hinv.live (hsound.unshared event pending hupdating)
      rw [h] at hlive
      refine ⟨hlive, ?_⟩
      intro event' pending' hupdating'
      cases hupdating'

/-- In every run of sound steps the directory an event announces is watched when the event has been
processed. -/
theorem created_directory_watched {s₀ s s' : WatchState} {labels : List WatchLabel}
    {event : WatchEvent} (hstart : Started s₀) (hrun : Lts.Run SoundStep s₀ labels s)
    (hstep : SoundStep s (.processed event) s') : Covered s' event := by
  have hinv : WatchInv s := hrun.invariant (WatchInv.start hstart) fun _ _ _ h hs => h.step hs
  have hlive := (hinv.step hstep).live
  obtain ⟨hstep, -⟩ := hstep
  intro p inode worktreeRoot hannounces hinode hroot hinside hgit hcommon hignored
  cases hstep with
  | skip hidle h =>
      -- an announcing event is not skipped in a worktree
      rcases updateWatches_of_announces s.watcher s.world hannounces with
        hre | hnone | ⟨_, _, _, -, -, hpaths⟩
      · rw [h] at hre
        cases hre
      · rw [hroot] at hnone
        cases hnone
      · rw [h] at hpaths
        cases hpaths
  | finish hupdating h =>
      exact (hinv.tracks event _ hupdating p hannounces).finish h hlive hinode hroot hinside hgit
        hcommon hignored

/-! ### A directory that is removed and created anew -/

def srcPath : PathBuf := repoRoot.child srcName

/-- A worktree with or without a directory for sources, by its inode. -/
def srcWorld (src : Option ℕ) : World where
  discover _ := .ok plainRepository
  fs := ⟨fun path =>
    if path = repoRoot then some (.dir 1 (.dir gitName .nil
      (if src.isSome then .dir srcName .nil .nil else .nil)))
    else if path = repoGitDir then some (.dir 2 .nil)
    else if path = srcPath then src.map fun inode => .dir inode .nil
    else none⟩

/-- The watcher of the worktree, with or without the directory on its list. -/
def srcWatcher (listed : Option ℕ) (live : Finset ℕ) : RepositoryWatcher where
  notify := {
    registered := (listed.map fun inode => (srcPath, .nonRecursive, inode)).toList ++
      [(repoGitDir, .recursive, 2), (repoRoot, .nonRecursive, 1)]
    live := live }
  watchedRoots := [repoRoot, repoGitDir] ++ (listed.map fun _ => srcPath).toList
  repoPath := repoRoot
  worktreeRoot := some repoRoot
  gitDir := repoGitDir
  commonDir := repoGitDir

def srcCreated : WatchEvent := .ok ⟨.create .folder, [srcPath], false⟩

def srcRemoved : WatchEvent := .ok ⟨.remove .folder, [srcPath], false⟩

def srcState (src listed : Option ℕ) (live : Finset ℕ) (pending : Option Pending) : WatchState :=
  ⟨srcWorld src, srcWatcher listed live, pending.map fun pending => (srcCreated, pending)⟩

theorem srcState_started : Started (srcState none none {2, 1} none) :=
  ⟨rfl, repoRoot, by decide⟩

/-- The inodes of the worktree. -/
theorem srcWorld_inode {src : Option ℕ} {inode : ℕ} :
    (∃ path node, (srcWorld src).fs.node path = some node ∧ node.inode = inode) ↔
      inode = 1 ∨ inode = 2 ∨ src = some inode := by
  constructor
  · rintro ⟨path, node, hnode, rfl⟩
    simp only [srcWorld] at hnode
    split at hnode
    · obtain rfl := Option.some.inj hnode
      exact Or.inl rfl
    · split at hnode
      · obtain rfl := Option.some.inj hnode
        exact Or.inr (Or.inl rfl)
      · split at hnode
        · obtain ⟨i, hi, rfl⟩ := Option.map_eq_some_iff.1 hnode
          exact Or.inr (Or.inr hi)
        · cases hnode
  · have hgit : repoGitDir ≠ repoRoot := by decide
    have hsrc : srcPath ≠ repoRoot ∧ srcPath ≠ repoGitDir := by decide
    rintro (rfl | rfl | rfl)
    · exact ⟨repoRoot, _, by simp [srcWorld]; rfl, rfl⟩
    · exact ⟨repoGitDir, _, by simp [srcWorld, hgit]; rfl, rfl⟩
    · exact ⟨srcPath, _, by simp [srcWorld, hsrc]; rfl, rfl⟩

/-- What is watched after a change of the world. -/
theorem srcWatcher_persists {src listed : Option ℕ} {live live' : Finset ℕ}
    (h : ∀ inode, inode ∈ live' ↔ inode ∈ live ∧ (inode = 1 ∨ inode = 2 ∨ src = some inode)) :
    (srcWatcher listed live).notify.Persists (srcWatcher listed live').notify
      (srcWorld src).fs := by
  refine ⟨rfl, ?_⟩
  intro inode
  rw [srcWorld_inode]
  exact h inode

theorem srcState_change {src src' listed : Option ℕ} {live live' : Finset ℕ}
    (h : ∀ inode, inode ∈ live' ↔ inode ∈ live ∧ (inode = 1 ∨ inode = 2 ∨ src' = some inode)) :
    WatchStep (srcState src listed live none) .changed (srcState src' listed live' none) :=
  WatchStep.change (s := srcState src listed live none) (srcWatcher_persists h)

/-- No rule ignores anything there. -/
theorem srcWorld_scanIgnores (src : Option ℕ) (worktreeRoot p : PathBuf) :
    (srcWorld src).scanIgnores worktreeRoot p = false := by
  simp only [World.scanIgnores, gitIgnored, srcWorld, Except.toOption]
  split
  · next hrepo _ =>
      obtain rfl := Option.some.inj hrepo
      rfl
  · rfl

/-- A part of an update that keeps all listed paths and does not read the repository again. -/
theorem srcState_soundPart {src listed : Option ℕ} {live : Finset ℕ} {pending : Option Pending}
    (hkeeps : ∀ p ∈ pending, ∀ q ∈ (srcWatcher listed live).watchedRoots,
      p.keeps (srcWatcher listed live) (srcWorld src).fs q = true)
    (hreads : ∀ p ∈ pending, p ≠ .reconcile) : SoundPart (srcState src listed live pending) := by
  have hpending : ∀ event p, (srcState src listed live pending).updating = some (event, p) →
      p ∈ pending := by
    intro event p hupdating
    obtain ⟨p', hp', hpair⟩ := Option.map_eq_some_iff.1 hupdating
    exact (Prod.mk.inj hpair).2 ▸ hp'
  refine ⟨?_, fun event worktreeRoot p rest _ _ _ => srcWorld_scanIgnores src worktreeRoot p, ?_⟩
  · intro event p hupdating q hq hdrop
    have hkept := hkeeps p (hpending event p hupdating) q hq
    exact absurd (hkept.symm.trans hdrop) (by decide)
  · intro event hupdating
    exact absurd rfl (hreads _ (hpending event _ hupdating))

/-- The directory is created, and its event is processed up to the result of the scan. -/
theorem srcState_scanned :
    Lts.Run SoundStep (srcState none none {2, 1} none)
      [.changed, .began srcCreated, .advanced, .advanced]
      (srcState (some 3) none {2, 1} (some (.scanned repoRoot srcPath [srcPath] []))) := by
  have hchange : SoundStep (srcState none none {2, 1} none) .changed
      (srcState (some 3) none {2, 1} none) := by
    refine ⟨srcState_change ?_, ?_, ?_⟩
    · intro inode
      simp only [Finset.mem_insert, Finset.mem_singleton]
      tauto
    · intro p hp inode hinode
      rcases List.mem_cons.1 hp with rfl | hp
      · exact hinode
      · obtain rfl := List.mem_singleton.1 hp
        exact hinode
    · intro event pending hupdating
      cases hupdating
  have hbegin : SoundStep (srcState (some 3) none {2, 1} none) (.began srcCreated)
      (srcState (some 3) none {2, 1} (some (.paths repoRoot srcPath []))) :=
    ⟨.begin rfl (by decide), srcState_soundPart (by simp) (by simp)⟩
  have hpath : SoundStep (srcState (some 3) none {2, 1} (some (.paths repoRoot srcPath [])))
      .advanced (srcState (some 3) none {2, 1} (some (.scan repoRoot srcPath []))) :=
    ⟨.advance rfl (by decide), srcState_soundPart (by decide) (by simp)⟩
  have hscan : SoundStep (srcState (some 3) none {2, 1} (some (.scan repoRoot srcPath [])))
      .advanced
      (srcState (some 3) none {2, 1} (some (.scanned repoRoot srcPath [srcPath] []))) :=
    ⟨.advance rfl (by decide), srcState_soundPart (by decide) (by simp)⟩
  exact (((Lts.Run.single hchange).snoc hbegin).snoc hpath).snoc hscan

theorem srcState_processed :
    SoundStep (srcState (some 3) none {2, 1} (some (.scanned repoRoot srcPath [srcPath] [])))
      (.processed srcCreated) (srcState (some 3) (some 3) {3, 2, 1} none) :=
  ⟨.finish rfl (by decide), srcState_soundPart (by decide) (by simp)⟩

/-- A directory that is created once is watched. -/
theorem created_directory_watched_src :
    Covered (srcState (some 3) (some 3) {3, 2, 1} none) srcCreated :=
  created_directory_watched srcState_started srcState_scanned srcState_processed

/-- The directory is created, removed and created anew.  The path stays on the list when the removal
is processed, and is not watched again. -/
theorem recreated_directory_not_watched :
    ∃ s₀ labels s s', Started s₀ ∧ Lts.Run WatchStep s₀ labels s ∧
      WatchStep s (.processed srcCreated) s' ∧ ¬ Covered s' srcCreated := by
  have hfirst := (srcState_scanned.snoc srcState_processed).mono fun _ _ _ h => h.1
  have hremoved : WatchStep (srcState (some 3) (some 3) {3, 2, 1} none) .changed
      (srcState none (some 3) {2, 1} none) := by
    refine srcState_change ?_
    intro inode
    simp only [Finset.mem_insert, Finset.mem_singleton]
    constructor
    · rintro (rfl | rfl) <;> simp
    · rintro ⟨-, rfl | rfl | h⟩
      · exact Or.inr rfl
      · exact Or.inl rfl
      · cases h
  have hskip : WatchStep (srcState none (some 3) {2, 1} none) (.processed srcRemoved)
      (srcState none (some 3) {2, 1} none) := .skip rfl (by decide)
  have hrecreated : WatchStep (srcState none (some 3) {2, 1} none) .changed
      (srcState (some 4) (some 3) {2, 1} none) := by
    refine srcState_change ?_
    intro inode
    simp only [Finset.mem_insert, Finset.mem_singleton]
    tauto
  have hbegin : WatchStep (srcState (some 4) (some 3) {2, 1} none) (.began srcCreated)
      (srcState (some 4) (some 3) {2, 1} (some (.paths repoRoot srcPath []))) :=
    .begin rfl (by decide)
  have hfinish : WatchStep (srcState (some 4) (some 3) {2, 1} (some (.paths repoRoot srcPath [])))
      (.processed srcCreated) (srcState (some 4) (some 3) {2, 1} none) :=
    .finish rfl (by decide)
  refine ⟨_, _, _, _, srcState_started,
    (((hfirst.snoc hremoved).snoc hskip).snoc hrecreated).snoc hbegin, hfinish, ?_⟩
  intro hcovered
  have hlive := hcovered srcPath 4 repoRoot ⟨_, rfl, rfl, rfl⟩ (by decide) rfl (by decide)
    (by decide) (by decide) (by decide)
  revert hlive
  decide

end Gitseer
