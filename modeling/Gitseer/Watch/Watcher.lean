/-
**The repository watcher.**

The watcher keeps a list of the paths it watches beside what the operating system watches for it.
The operating system knows directories by their inode: a watch is attached to the inode a path
leads to when it is registered, and it is gone with the directory.  The list knows paths only.

An event may make the watcher read the repository again and replace all its targets, or scan a
directory that may be new.  Both read the file system in a task of their own, for which the watcher
waits; so an update of the watches is a computation with points where it is suspended, and
`Pending` is what is left of it there.  Between two such points it runs at one moment.

Main definitions:

* `Notify` — the watches, by path and by inode;
* `RepositoryWatcher`, with `watchRoot`, `pruneStaleWorktreeWatchRoots`, `replaceWatchTargets` and
  `addWorktreeWatchIfNeeded`;
* `Pending`, `updateWatchesForEvent`, `Pending.advance` — the update of the watches for an event.

Main results:

* `RepositoryWatcher.mem_watchTargets` — a path that is there is listed once it was asked for;
* `RepositoryWatcher.LiveList` — every listed directory is watched: the list starts like that
  (`new_liveList`), and what changes it keeps that (`watchTargets_liveList`, `retain_liveList`).
-/

import Gitseer.Watch.Roots
import Mathlib.Data.Finset.Filter

set_option relaxedAutoImplicit false
set_option autoImplicit false

open StdPath (PathBuf FileName)

namespace Gitseer

/-! ### The watches of the operating system -/

/-- The registered paths, each with its mode and the inode it led to, and the inodes that are
watched.  What a recursive watch covers below its path is left out. -/
structure Notify where
  registered : List (PathBuf × RecursiveMode × ℕ) := []
  live : Finset ℕ := ∅
  deriving DecidableEq

namespace Notify

/-- A path can be watched when it is there. -/
def watch (notify : Notify) (fs : FileSystem) (path : PathBuf) (mode : RecursiveMode) :
    Option Notify :=
  match fs.node path with
  | some node => some {
      registered := (path, mode, node.inode) ::
        notify.registered.filter fun entry => entry.1 ≠ path
      live := insert node.inode notify.live }
  | none => none

/-- The inode the path was registered for is no longer watched. -/
def unwatch (notify : Notify) (path : PathBuf) : Notify :=
  match notify.registered.find? fun entry => entry.1 = path with
  | some (_, _, inode) => {
      registered := notify.registered.filter fun entry => entry.1 ≠ path
      live := notify.live.erase inode }
  | none => notify

end Notify

/-! ### The state of the watcher -/

inductive WatchError
  | snapshot (error : SnapshotError)
  | notify (path : PathBuf)
  deriving DecidableEq

structure RepositoryWatcher where
  notify : Notify
  watchedRoots : List PathBuf
  repoPath : PathBuf
  worktreeRoot : Option PathBuf
  gitDir : PathBuf
  commonDir : PathBuf
  deriving DecidableEq

/-- What the watcher reads while it runs: the repository and the file system. -/
structure World where
  discover : Discover
  fs : FileSystem

namespace RepositoryWatcher

/-- `RepositoryWatcher::new`; it fails when one of the targets cannot be watched. -/
def new (world : World) (repoPath : PathBuf) : Except WatchError RepositoryWatcher :=
  match snapshotRepository world.discover repoPath with
  | .error e => .error (.snapshot e)
  | .ok snapshot =>
      (watchTargetsForSnapshot world.discover world.fs snapshot).foldlM
        (fun watcher target =>
          match watcher.notify.watch world.fs target.path target.mode with
          | none => .error (.notify target.path)
          | some notify => .ok { watcher with
              notify := notify
              watchedRoots := watcher.watchedRoots ++ [target.path] })
        { notify := {}
          watchedRoots := []
          repoPath := repoPath
          worktreeRoot := snapshot.identity.worktreeRoot
          gitDir := snapshot.identity.gitDir
          commonDir := snapshot.identity.commonDir }

def watchRoot (watcher : RepositoryWatcher) (fs : FileSystem) (path : PathBuf)
    (mode : RecursiveMode) : RepositoryWatcher :=
  if path ∈ watcher.watchedRoots then watcher
  else match watcher.notify.watch fs path mode with
    | some notify =>
        { watcher with notify := notify, watchedRoots := watcher.watchedRoots ++ [path] }
    | none => watcher

/-- Paths that are not kept are no longer watched and taken off the list. -/
def retain (watcher : RepositoryWatcher) (keep : PathBuf → Bool) : RepositoryWatcher :=
  { watcher with
    notify := (watcher.watchedRoots.filter fun path => !keep path).foldl Notify.unwatch
      watcher.notify
    watchedRoots := watcher.watchedRoots.filter keep }

def pruneStaleWorktreeWatchRoots (watcher : RepositoryWatcher) (fs : FileSystem)
    (worktreeRoot : PathBuf) : RepositoryWatcher :=
  watcher.retain fun path => !(path.startsWith worktreeRoot && !fs.pathExists path)

/-- Each target is watched that is not on the list. -/
def watchTargets (watcher : RepositoryWatcher) (fs : FileSystem) (targets : List WatchTarget) :
    RepositoryWatcher :=
  targets.foldl (fun watcher target => watcher.watchRoot fs target.path target.mode) watcher

def replaceWatchTargets (watcher : RepositoryWatcher) (fs : FileSystem)
    (targets : List WatchTarget) : RepositoryWatcher :=
  (watcher.retain fun path => path ∈ targets.map WatchTarget.path).watchTargets fs targets

/-- Is the path of an event looked at: a directory of the worktree, outside the Git directories? -/
def looksAt (watcher : RepositoryWatcher) (fs : FileSystem) (worktreeRoot path : PathBuf) : Bool :=
  !(path.startsWith watcher.gitDir || path.startsWith watcher.commonDir) &&
    fs.isDir path && path.startsWith worktreeRoot

/-- The watcher with stale paths taken off the list, and whether the path is to be scanned. -/
def addWorktreeWatchIfNeeded (watcher : RepositoryWatcher) (fs : FileSystem)
    (worktreeRoot path : PathBuf) : RepositoryWatcher × Bool :=
  if path.startsWith watcher.gitDir || path.startsWith watcher.commonDir then (watcher, false)
  else if !fs.isDir path || !path.startsWith worktreeRoot then (watcher, false)
  else
    let watcher := watcher.pruneStaleWorktreeWatchRoots fs worktreeRoot
    (watcher, path ∉ watcher.watchedRoots)

end RepositoryWatcher

def eventCanCreateDirectoryWatch (event : Event) : Bool :=
  match event.kind with
  | .any => true
  | .create .any => true
  | .create .folder => true
  | .modify .any => true
  | .modify (.name _) => true
  | _ => false

/-! ### The update of the watches for an event -/

/-- What a reconciliation reads. -/
structure Reconciliation where
  targets : List WatchTarget
  worktreeRoot : Option PathBuf
  gitDir : PathBuf
  commonDir : PathBuf
  deriving DecidableEq

/-- What is left of an update: paths of the event to look at, or a task that runs or has ended. -/
inductive Pending
  | paths (worktreeRoot path : PathBuf) (rest : List PathBuf)
  | scan (worktreeRoot path : PathBuf) (rest : List PathBuf)
  | scanned (worktreeRoot path : PathBuf) (dirs rest : List PathBuf)
  | reconcile
  | reconciled (result : Option Reconciliation)
  deriving DecidableEq

/-- Is the update suspended there, with a task to wait for? -/
def Pending.isSuspended : Pending → Bool
  | paths _ _ _ => false
  | _ => true

/-- The remaining paths of the event, if there are any. -/
def Pending.next (worktreeRoot : PathBuf) : List PathBuf → Option Pending
  | [] => none
  | path :: rest => some (.paths worktreeRoot path rest)

/-- Reading the repository for a reconciliation. -/
def readReconciliation (world : World) (repoPath : PathBuf) : Option Reconciliation :=
  match snapshotRepository world.discover repoPath with
  | .error _ => none
  | .ok snapshot => some {
      targets := watchTargetsForSnapshot world.discover world.fs snapshot
      worktreeRoot := snapshot.identity.worktreeRoot
      gitDir := snapshot.identity.gitDir
      commonDir := snapshot.identity.commonDir }

/-- Does the event make the watcher read the repository again and replace its targets? -/
def RepositoryWatcher.reconcilesFor (watcher : RepositoryWatcher) (world : World)
    (event : Event) : Bool :=
  event.needRescan ||
    eventMayChangeIgnoreRules world.discover event watcher.repoPath watcher.worktreeRoot
      watcher.gitDir watcher.commonDir

/-- The begin of an update; `none` when nothing is to be done. -/
def RepositoryWatcher.updateWatchesForEvent (watcher : RepositoryWatcher) (world : World) :
    WatchEvent → Option Pending
  | .error _ => none
  | .ok event =>
      if watcher.reconcilesFor world event then some .reconcile
      else match watcher.worktreeRoot with
        | none => none
        | some worktreeRoot =>
            if !eventCanCreateDirectoryWatch event then none
            else Pending.next worktreeRoot event.paths

/-- The next part of an update: the watcher after it, and what is left. -/
def Pending.advance (watcher : RepositoryWatcher) (world : World) :
    Pending → RepositoryWatcher × Option Pending
  | paths worktreeRoot path rest =>
      let (watcher, needed) := watcher.addWorktreeWatchIfNeeded world.fs worktreeRoot path
      if needed then (watcher, some (.scan worktreeRoot path rest))
      else (watcher, Pending.next worktreeRoot rest)
  | scan worktreeRoot path rest =>
      (watcher, some (.scanned worktreeRoot path
        (worktreeWatchDirsFrom world.discover world.fs worktreeRoot path) rest))
  | scanned worktreeRoot _ dirs rest =>
      (watcher.watchTargets world.fs (dirs.map fun dir => ⟨dir, .nonRecursive⟩),
        Pending.next worktreeRoot rest)
  | reconcile => (watcher, some (.reconciled (readReconciliation world watcher.repoPath)))
  | reconciled none => (watcher, none)
  | reconciled (some result) =>
      ({ watcher with
        worktreeRoot := result.worktreeRoot
        gitDir := result.gitDir
        commonDir := result.commonDir }.replaceWatchTargets world.fs result.targets, none)

/-! ### What the watches cover -/

namespace Notify

variable {notify notify' : Notify} {fs : FileSystem} {path : PathBuf} {mode : RecursiveMode}
  {inode : ℕ}

theorem unwatch_registered (notify : Notify) (path : PathBuf) :
    (notify.unwatch path).registered ⊆ notify.registered := by
  unfold unwatch
  split
  · exact List.filter_subset_self _
  · exact List.Subset.refl _

/-- Giving up a path keeps the watches of all inodes that it was not registered for. -/
theorem mem_live_unwatch (hlive : inode ∈ notify.live)
    (hother : ∀ mode, (path, mode, inode) ∉ notify.registered) :
    inode ∈ (notify.unwatch path).live := by
  unfold unwatch
  split
  · next entryPath entryMode entryInode hfind =>
      have hmem := List.mem_of_find?_eq_some hfind
      have hpath : entryPath = path := by simpa using List.find?_some hfind
      subst hpath
      refine Finset.mem_erase.2 ⟨?_, hlive⟩
      rintro rfl
      exact hother _ hmem
  · exact hlive

theorem mem_live_unwatchAll {paths : List PathBuf} (hlive : inode ∈ notify.live)
    (hother : ∀ path ∈ paths, ∀ mode, (path, mode, inode) ∉ notify.registered) :
    inode ∈ (paths.foldl unwatch notify).live := by
  induction paths generalizing notify with
  | nil => exact hlive
  | cons path paths ih =>
      rw [List.foldl_cons]
      refine ih (mem_live_unwatch hlive (hother path (by simp))) ?_
      intro path' hpath' mode hmem
      exact hother path' (List.mem_cons_of_mem _ hpath') mode
        (unwatch_registered notify path hmem)

/-- Watching a path keeps all watches and adds the one of the inode it leads to. -/
theorem watch_live (h : notify.watch fs path mode = some notify') :
    notify.live ⊆ notify'.live ∧ ∀ i, fs.dirInode path = some i → i ∈ notify'.live := by
  unfold watch at h
  split at h
  · next node hnode =>
      obtain rfl := Option.some.inj h
      refine ⟨Finset.subset_insert _ _, ?_⟩
      intro i hi
      rw [FileSystem.dirInode, hnode] at hi
      cases node with
      | file inode => cases hi
      | dir inode entries =>
          obtain rfl := Option.some.inj hi
          exact Finset.mem_insert_self _ _
  · cases h

/-- What exists can be watched. -/
theorem exists_watch (notify : Notify) (mode : RecursiveMode) (h : fs.pathExists path = true) :
    ∃ notify', notify.watch fs path mode = some notify' := by
  obtain ⟨node, hnode⟩ := Option.isSome_iff_exists.1 h
  unfold watch
  rw [hnode]
  exact ⟨_, rfl⟩

end Notify

theorem FileSystem.pathExists_of_dirInode {fs : FileSystem} {path : PathBuf} {inode : ℕ}
    (h : fs.dirInode path = some inode) : fs.pathExists path = true := by
  unfold dirInode at h
  unfold pathExists
  split at h
  · next hnode => rw [hnode]; rfl
  · cases h

namespace RepositoryWatcher

variable {watcher watcher' : RepositoryWatcher} {fs : FileSystem} {path p : PathBuf}
  {mode : RecursiveMode}

/-- Every listed directory is watched. -/
def LiveList (watcher : RepositoryWatcher) (fs : FileSystem) : Prop :=
  ∀ p ∈ watcher.watchedRoots, ∀ inode, fs.dirInode p = some inode → inode ∈ watcher.notify.live

/-- Of the listed paths that are not kept none is registered for a directory that is. -/
def Unshared (watcher : RepositoryWatcher) (fs : FileSystem) (keep : PathBuf → Bool) : Prop :=
  ∀ q ∈ watcher.watchedRoots, keep q = false → ∀ mode inode,
    (q, mode, inode) ∈ watcher.notify.registered →
      ∀ p ∈ watcher.watchedRoots, keep p = true → fs.dirInode p ≠ some inode

/-- The three ways a request to watch a path can end. -/
theorem watchRoot_cases (watcher : RepositoryWatcher) (fs : FileSystem) (path : PathBuf)
    (mode : RecursiveMode) :
    watcher.watchRoot fs path mode = watcher ∧
      (path ∈ watcher.watchedRoots ∨ fs.pathExists path = false) ∨
    ∃ notify, watcher.notify.watch fs path mode = some notify ∧
      watcher.watchRoot fs path mode =
        { watcher with notify := notify, watchedRoots := watcher.watchedRoots ++ [path] } := by
  unfold watchRoot
  split
  · next h => exact Or.inl ⟨rfl, Or.inl h⟩
  · split
    · next notify h => exact Or.inr ⟨notify, h, rfl⟩
    · next h =>
        refine Or.inl ⟨rfl, Or.inr ?_⟩
        by_contra hexists
        obtain ⟨notify, hnotify⟩ :=
          watcher.notify.exists_watch mode (Bool.not_eq_false _ ▸ hexists)
        rw [hnotify] at h
        cases h

theorem mem_watchRoot :
    p ∈ (watcher.watchRoot fs path mode).watchedRoots ↔
      p ∈ watcher.watchedRoots ∨ p = path ∧ fs.pathExists path = true := by
  rcases watcher.watchRoot_cases fs path mode with ⟨h, hwhy⟩ | ⟨notify, hnotify, h⟩
  · rw [h]
    refine ⟨Or.inl, ?_⟩
    rintro (hp | ⟨rfl, hexists⟩)
    · exact hp
    · rcases hwhy with hlisted | hmissing
      · exact hlisted
      · rw [hmissing] at hexists
        cases hexists
  · rw [h]
    have hexists : fs.pathExists path = true := by
      unfold Notify.watch at hnotify
      unfold FileSystem.pathExists
      split at hnotify
      · next hnode => rw [hnode]; rfl
      · cases hnotify
    simp [hexists]

theorem watchRoot_liveList (hlist : watcher.LiveList fs) :
    (watcher.watchRoot fs path mode).LiveList fs := by
  rcases watcher.watchRoot_cases fs path mode with ⟨h, -⟩ | ⟨notify, hnotify, h⟩
  · rw [h]
    exact hlist
  · rw [h]
    obtain ⟨hkeeps, hadds⟩ := Notify.watch_live hnotify
    intro p hp inode hinode
    rcases List.mem_append.1 hp with hp | hp
    · exact hkeeps (hlist p hp inode hinode)
    · obtain rfl := List.mem_singleton.1 hp
      exact hadds inode hinode

theorem watchTargets_cons (watcher : RepositoryWatcher) (fs : FileSystem) (target : WatchTarget)
    (targets : List WatchTarget) :
    watcher.watchTargets fs (target :: targets) =
      (watcher.watchRoot fs target.path target.mode).watchTargets fs targets := rfl

/-- After asking for targets the list has those that are there besides what it had. -/
theorem mem_watchTargets {targets : List WatchTarget} :
    p ∈ (watcher.watchTargets fs targets).watchedRoots ↔
      p ∈ watcher.watchedRoots ∨ p ∈ targets.map WatchTarget.path ∧ fs.pathExists p = true := by
  induction targets generalizing watcher with
  | nil => simp [watchTargets]
  | cons target targets ih =>
      rw [watchTargets_cons, ih, mem_watchRoot, List.map_cons, List.mem_cons]
      constructor
      · rintro ((hp | ⟨rfl, hexists⟩) | ⟨hp, hexists⟩)
        · exact Or.inl hp
        · exact Or.inr ⟨Or.inl rfl, hexists⟩
        · exact Or.inr ⟨Or.inr hp, hexists⟩
      · rintro (hp | ⟨rfl | hp, hexists⟩)
        · exact Or.inl (Or.inl hp)
        · exact Or.inl (Or.inr ⟨rfl, hexists⟩)
        · exact Or.inr ⟨hp, hexists⟩

theorem watchTargets_liveList {targets : List WatchTarget} (hlist : watcher.LiveList fs) :
    (watcher.watchTargets fs targets).LiveList fs := by
  induction targets generalizing watcher with
  | nil => exact hlist
  | cons target targets ih => exact ih (watchRoot_liveList hlist)

theorem watchRoot_live : watcher.notify.live ⊆ (watcher.watchRoot fs path mode).notify.live := by
  rcases watcher.watchRoot_cases fs path mode with ⟨h, -⟩ | ⟨notify, hnotify, h⟩
  · rw [h]
  · rw [h]
    exact (Notify.watch_live hnotify).1

theorem watchTargets_live {targets : List WatchTarget} :
    watcher.notify.live ⊆ (watcher.watchTargets fs targets).notify.live := by
  induction targets generalizing watcher with
  | nil => exact Finset.Subset.refl _
  | cons target targets ih => exact watchRoot_live.trans ih

/-- A directory that is asked for and not listed yet is watched. -/
theorem watched_of_target {targets : List WatchTarget} {inode : ℕ}
    (htarget : p ∈ targets.map WatchTarget.path) (hinode : fs.dirInode p = some inode)
    (hnew : p ∉ watcher.watchedRoots) : inode ∈ (watcher.watchTargets fs targets).notify.live := by
  induction targets generalizing watcher with
  | nil => cases htarget
  | cons target targets ih =>
      rw [watchTargets_cons]
      by_cases hpath : p = target.path
      · -- the path is registered now, and what comes after it drops no watch
        subst hpath
        refine watchTargets_live ?_
        have hexists := FileSystem.pathExists_of_dirInode hinode
        rcases watcher.watchRoot_cases fs target.path target.mode with
          ⟨-, hlisted | hmissing⟩ | ⟨notify, hnotify, h⟩
        · exact absurd hlisted hnew
        · rw [hmissing] at hexists
          cases hexists
        · rw [h]
          exact (Notify.watch_live hnotify).2 inode hinode
      · refine ih ((List.mem_cons.1 htarget).resolve_left hpath) ?_
        rw [mem_watchRoot]
        rintro (hlisted | ⟨hsame, -⟩)
        · exact hnew hlisted
        · exact hpath hsame

/-- Taking paths off the list keeps the others watched when no watch is shared. -/
theorem retain_liveList {keep : PathBuf → Bool} (hlist : watcher.LiveList fs)
    (hunshared : watcher.Unshared fs keep) : (watcher.retain keep).LiveList fs := by
  intro p hp inode hinode
  obtain ⟨hp, hkeep⟩ := List.mem_filter.1 hp
  refine Notify.mem_live_unwatchAll (hlist p hp inode hinode) ?_
  intro q hq mode hmem
  obtain ⟨hq, hdrop⟩ := List.mem_filter.1 hq
  exact hunshared q hq (by simpa using hdrop) mode inode hmem p hp hkeep hinode

/-- All targets that are there are listed after a replacement. -/
theorem replaceWatchTargets_lists {targets : List WatchTarget}
    (htarget : p ∈ targets.map WatchTarget.path) (hexists : fs.pathExists p = true) :
    p ∈ (watcher.replaceWatchTargets fs targets).watchedRoots :=
  mem_watchTargets.2 (Or.inr ⟨htarget, hexists⟩)

/-- A directory that was not listed is watched when it is among the new targets. -/
theorem watched_of_replacement {targets : List WatchTarget} {inode : ℕ}
    (htarget : p ∈ targets.map WatchTarget.path) (hinode : fs.dirInode p = some inode)
    (hnew : p ∉ watcher.watchedRoots) :
    inode ∈ (watcher.replaceWatchTargets fs targets).notify.live :=
  watched_of_target htarget hinode fun hlisted => hnew (List.mem_filter.1 hlisted).1

/-- A new watcher watches what it lists. -/
theorem new_liveList {world : World} {repoPath : PathBuf}
    (h : new world repoPath = .ok watcher) : watcher.LiveList world.fs := by
  unfold new at h
  split at h
  · cases h
  · -- each target is watched before it is put on the list
    refine Result.foldlM_invariant (fun watcher => watcher.LiveList world.fs) ?_ ?_ h
    · intro w target w' hlist hstep
      split at hstep
      · cases hstep
      · next notify hnotify =>
          obtain rfl := Except.ok.inj hstep
          obtain ⟨hkeeps, hadds⟩ := Notify.watch_live hnotify
          intro p hp inode hinode
          rcases List.mem_append.1 hp with hp | hp
          · exact hkeeps (hlist p hp inode hinode)
          · obtain rfl := List.mem_singleton.1 hp
            exact hadds inode hinode
    · intro p hp
      cases hp

/-- The path is not looked at, or stale paths are taken off the list and it is scanned unless it
is listed. -/
theorem addWorktreeWatchIfNeeded_cases (watcher : RepositoryWatcher) (fs : FileSystem)
    (worktreeRoot path : PathBuf) :
    watcher.addWorktreeWatchIfNeeded fs worktreeRoot path = (watcher, false) ∧
      (path.startsWith watcher.gitDir = true ∨ path.startsWith watcher.commonDir = true ∨
        fs.isDir path = false ∨ path.startsWith worktreeRoot = false) ∨
    watcher.looksAt fs worktreeRoot path = true ∧
      watcher.addWorktreeWatchIfNeeded fs worktreeRoot path =
        (watcher.pruneStaleWorktreeWatchRoots fs worktreeRoot,
          decide (path ∉ (watcher.pruneStaleWorktreeWatchRoots fs worktreeRoot).watchedRoots)) := by
  unfold addWorktreeWatchIfNeeded
  split
  · next h =>
      rw [Bool.or_eq_true] at h
      left
      tauto
  · next houtside =>
      split
      · next h =>
          simp only [Bool.or_eq_true, Bool.not_eq_true'] at h
          left
          tauto
      · next h =>
          simp only [Bool.or_eq_true, Bool.not_eq_true', not_or, Bool.not_eq_false] at h
          refine Or.inr ⟨?_, rfl⟩
          simp [looksAt, Bool.eq_false_of_not_eq_true houtside, h.1, h.2]

end RepositoryWatcher

/-- The listed paths that a part of an update keeps on the list: it drops those that are missing
when it looks at a path, and those that are no targets any more when it has read everything
again. -/
def Pending.keeps (pending : Pending) (watcher : RepositoryWatcher) (fs : FileSystem)
    (p : PathBuf) : Bool :=
  match pending with
  | .paths worktreeRoot path _ =>
      !(watcher.looksAt fs worktreeRoot path && (p.startsWith worktreeRoot && !fs.pathExists p))
  | .reconciled (some result) => p ∈ result.targets.map WatchTarget.path
  | _ => true

/-- A part of an update keeps every listed directory watched when it drops no shared watch. -/
theorem Pending.advance_liveList {pending : Pending} {watcher : RepositoryWatcher} {world : World}
    (hlist : watcher.LiveList world.fs)
    (hunshared : watcher.Unshared world.fs (pending.keeps watcher world.fs)) :
    (pending.advance watcher world).1.LiveList world.fs := by
  cases pending with
  | paths worktreeRoot path rest =>
      have hwatcher : ((paths worktreeRoot path rest).advance watcher world).1 =
          (watcher.addWorktreeWatchIfNeeded world.fs worktreeRoot path).1 := by
        simp only [advance]
        split <;> rfl
      rw [hwatcher]
      rcases watcher.addWorktreeWatchIfNeeded_cases world.fs worktreeRoot path with
        ⟨h, -⟩ | ⟨hlooks, h⟩
      · rw [h]
        exact hlist
      · rw [h]
        have hkeeps : (paths worktreeRoot path rest).keeps watcher world.fs =
            fun p => !(p.startsWith worktreeRoot && !world.fs.pathExists p) := by
          funext p
          simp [keeps, hlooks]
        rw [hkeeps] at hunshared
        exact RepositoryWatcher.retain_liveList hlist hunshared
  | scan worktreeRoot path rest => exact hlist
  | scanned worktreeRoot path dirs rest => exact RepositoryWatcher.watchTargets_liveList hlist
  | reconcile => exact hlist
  | reconciled result =>
      cases result with
      | none => exact hlist
      | some result =>
          exact RepositoryWatcher.watchTargets_liveList
            (RepositoryWatcher.retain_liveList hlist hunshared)

end Gitseer
