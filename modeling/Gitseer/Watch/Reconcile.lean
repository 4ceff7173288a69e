/-
**Is a reconciliation as good as a fresh start?**

A reconciliation replaces the watches by those of a list of targets.  It goes by the list of the
watched paths: what is on it and not wanted is given up, what is wanted and not on it is watched,
and a path that is both is left as it is.  A new watcher watches every target with its mode.  The
two differ where the list says too little: it knows neither with which mode a path was registered,
nor whether the path still leads to the directory that is watched.

Main definitions:

* `Notify.InForce` — the path leads to what it was registered for, and that is watched;
* `RepositoryWatcher.Installs` — the watches in force are the targets, and the list has their paths;
* `RepositoryWatcher.Tidy` — the list has the registered paths, each once;
* `RepositoryWatcher.Reconcilable` — every target on the list is watched as it should be.

Main results:

* `RepositoryWatcher.new_installs` — a new watcher installs its targets;
* `tidy_of_run` — the list and the registered paths agree in every run;
* `reconcile_installs_iff` — when a reconciliation leads to the watches of a new watcher.
-/

import Gitseer.Watch.Liveness

set_option relaxedAutoImplicit false
set_option autoImplicit false

open StdPath (PathBuf FileName)

namespace Gitseer

/-! ### Watches in force -/

/-- The inode a path leads to. -/
def FileSystem.inode (fs : FileSystem) (path : PathBuf) : Option ℕ :=
  (fs.node path).map Node.inode

/-- The path is registered with the mode for the inode it leads to, and that is watched. -/
def Notify.InForce (notify : Notify) (fs : FileSystem) (path : PathBuf) (mode : RecursiveMode) :
    Prop :=
  ∃ inode, fs.inode path = some inode ∧ (path, mode, inode) ∈ notify.registered ∧
    inode ∈ notify.live

namespace Notify

variable {notify : Notify} {path : PathBuf} {i : ℕ}

theorem registered_unwatch (notify : Notify) (path : PathBuf) :
    (notify.unwatch path).registered =
      notify.registered.filter fun entry => entry.1 ≠ path := by
  unfold unwatch
  split
  · rfl
  · next hnone =>
      rw [List.find?_eq_none] at hnone
      refine (List.filter_eq_self.2 ?_).symm
      intro entry hentry
      simpa using hnone entry hentry

/-- Without repeated paths an inode stays watched when the path was not registered for it. -/
theorem mem_live_unwatch_iff (hnodup : (notify.registered.map Prod.fst).Nodup) :
    i ∈ (notify.unwatch path).live ↔
      i ∈ notify.live ∧ ∀ mode, (path, mode, i) ∉ notify.registered := by
  constructor
  · intro hlive
    unfold unwatch at hlive
    split at hlive
    · next entryPath entryMode entryInode hfind =>
        have hmem := List.mem_of_find?_eq_some hfind
        have hpath : entryPath = path := by simpa using List.find?_some hfind
        subst hpath
        obtain ⟨hne, hlive⟩ := Finset.mem_erase.1 hlive
        refine ⟨hlive, fun mode hmode => hne ?_⟩
        have hsame := List.inj_on_of_nodup_map hnodup hmode hmem rfl
        exact congrArg (fun entry => entry.2.2) hsame
    · next hnone =>
        rw [List.find?_eq_none] at hnone
        exact ⟨hlive, fun mode hmode => by simpa using hnone _ hmode⟩
  · rintro ⟨hlive, hother⟩
    exact mem_live_unwatch hlive hother

/-- What is left after several paths have been given up. -/
theorem unwatchAll_spec (hnodup : (notify.registered.map Prod.fst).Nodup) (paths : List PathBuf) :
    (paths.foldl unwatch notify).registered =
        notify.registered.filter (fun entry => entry.1 ∉ paths) ∧
      ∀ i, i ∈ (paths.foldl unwatch notify).live ↔
        i ∈ notify.live ∧ ∀ path ∈ paths, ∀ mode, (path, mode, i) ∉ notify.registered := by
  induction paths generalizing notify with
  | nil => simp
  | cons path paths ih =>
      have hsub : ((notify.unwatch path).registered.map Prod.fst).Nodup := by
        rw [registered_unwatch]
        exact hnodup.sublist (List.filter_sublist.map _)
      obtain ⟨hregistered, hlive⟩ := ih hsub
      rw [List.foldl_cons]
      constructor
      · rw [hregistered, registered_unwatch, List.filter_filter]
        refine List.filter_congr fun entry _ => ?_
        simp [Bool.and_comm]
      · intro i
        rw [hlive, mem_live_unwatch_iff hnodup, registered_unwatch]
        simp only [List.mem_filter, List.forall_mem_cons, decide_eq_true_eq, not_and, not_not,
          and_assoc, and_congr_right_iff]
        intro _ hfirst
        refine forall₂_congr fun p hp => forall_congr' fun mode => ?_
        constructor
        · intro h hmem
          rw [h hmem] at hmem
          exact hfirst mode hmem
        · intro h hmem
          exact absurd hmem h

end Notify

/-! ### The list and the registered paths -/

namespace RepositoryWatcher

variable {watcher watcher' : RepositoryWatcher} {fs : FileSystem} {path p : PathBuf}
  {mode : RecursiveMode} {i : ℕ}

/-- The list has the registered paths, each once. -/
structure Tidy (watcher : RepositoryWatcher) : Prop where
  roots : watcher.watchedRoots.Nodup
  registered : (watcher.notify.registered.map Prod.fst).Nodup
  listed : ∀ p, p ∈ watcher.notify.registered.map Prod.fst ↔ p ∈ watcher.watchedRoots

theorem Tidy.mem_roots (h : watcher.Tidy) (hmem : (p, mode, i) ∈ watcher.notify.registered) :
    p ∈ watcher.watchedRoots := (h.listed p).1 (List.mem_map_of_mem hmem)

theorem watchRoot_of_listed (hlisted : path ∈ watcher.watchedRoots) :
    watcher.watchRoot fs path mode = watcher := if_pos hlisted

theorem watchRoot_of_missing (hmissing : fs.inode path = none) :
    watcher.watchRoot fs path mode = watcher := by
  have hnode : fs.node path = none := Option.map_eq_none_iff.1 hmissing
  simp [watchRoot, Notify.watch, hnode]

theorem watchRoot_of_new (hnew : path ∉ watcher.watchedRoots) (hinode : fs.inode path = some i) :
    watcher.watchRoot fs path mode = { watcher with
      notify := {
        registered := (path, mode, i) ::
          watcher.notify.registered.filter fun entry => entry.1 ≠ path
        live := insert i watcher.notify.live }
      watchedRoots := watcher.watchedRoots ++ [path] } := by
  obtain ⟨node, hnode, rfl⟩ := Option.map_eq_some_iff.1 hinode
  simp [watchRoot, Notify.watch, hnode, hnew]

/-- A path that is not on the list is not registered. -/
theorem Tidy.filter_registered (h : watcher.Tidy) (hnew : path ∉ watcher.watchedRoots) :
    (watcher.notify.registered.filter fun entry => entry.1 ≠ path) =
      watcher.notify.registered := by
  refine List.filter_eq_self.2 fun entry hentry => ?_
  rw [decide_eq_true_eq]
  rintro rfl
  exact hnew (h.mem_roots hentry)

theorem watchRoot_tidy (h : watcher.Tidy) (fs : FileSystem) (path : PathBuf)
    (mode : RecursiveMode) : (watcher.watchRoot fs path mode).Tidy := by
  by_cases hlisted : path ∈ watcher.watchedRoots
  · rw [watchRoot_of_listed hlisted]
    exact h
  · cases hinode : fs.inode path with
    | none =>
        rw [watchRoot_of_missing hinode]
        exact h
    | some i =>
        rw [watchRoot_of_new hlisted hinode, h.filter_registered hlisted]
        refine ⟨?_, ?_, ?_⟩
        · refine List.nodup_append.2 ⟨h.roots, List.nodup_singleton _, ?_⟩
          rintro q hq r hr rfl
          rw [List.mem_singleton.1 hr] at hq
          exact hlisted hq
        · exact List.nodup_cons.2 ⟨fun hmem => hlisted ((h.listed _).1 hmem), h.registered⟩
        · intro q
          rw [List.map_cons, List.mem_cons, h.listed, List.mem_append, List.mem_singleton, or_comm]

/-- What is registered and watched after a path was asked for. -/
theorem watchRoot_spec (h : watcher.Tidy) (fs : FileSystem) (path : PathBuf)
    (mode : RecursiveMode) :
    (∀ q m j, (q, m, j) ∈ (watcher.watchRoot fs path mode).notify.registered ↔
      (q, m, j) ∈ watcher.notify.registered ∨
        q = path ∧ m = mode ∧ path ∉ watcher.watchedRoots ∧ fs.inode path = some j) ∧
    ∀ j, j ∈ (watcher.watchRoot fs path mode).notify.live ↔
      j ∈ watcher.notify.live ∨ path ∉ watcher.watchedRoots ∧ fs.inode path = some j := by
  by_cases hlisted : path ∈ watcher.watchedRoots
  · simp [watchRoot_of_listed, hlisted]
  · cases hinode : fs.inode path with
    | none => simp [watchRoot_of_missing, hinode]
    | some i =>
        rw [watchRoot_of_new hlisted hinode, h.filter_registered hlisted]
        constructor
        · intro q m j
          simp only [List.mem_cons, Prod.mk.injEq, hlisted, not_false_eq_true, true_and,
            Option.some.injEq]
          rw [or_comm, eq_comm (a := j)]
        · intro j
          rw [Finset.mem_insert, Option.some.injEq, or_comm, eq_comm]
          simp [hlisted]

theorem watchTargets_tidy {targets : List WatchTarget} (h : watcher.Tidy) :
    (watcher.watchTargets fs targets).Tidy := by
  induction targets generalizing watcher with
  | nil => exact h
  | cons target targets ih => exact ih (watchRoot_tidy h fs target.path target.mode)

/-- What is registered and watched after targets with different paths were asked for. -/
theorem watchTargets_spec {targets : List WatchTarget} (h : watcher.Tidy)
    (hnodup : (targets.map WatchTarget.path).Nodup) (fs : FileSystem) :
    (∀ q m j, (q, m, j) ∈ (watcher.watchTargets fs targets).notify.registered ↔
      (q, m, j) ∈ watcher.notify.registered ∨
        (⟨q, m⟩ : WatchTarget) ∈ targets ∧ q ∉ watcher.watchedRoots ∧ fs.inode q = some j) ∧
    ∀ j, j ∈ (watcher.watchTargets fs targets).notify.live ↔
      j ∈ watcher.notify.live ∨
        ∃ target ∈ targets, target.path ∉ watcher.watchedRoots ∧ fs.inode target.path = some j := by
  induction targets generalizing watcher with
  | nil => simp [watchTargets]
  | cons target targets ih =>
      obtain ⟨hfirst, hrest⟩ := List.nodup_cons.1 hnodup
      obtain ⟨hregistered, hlive⟩ := watchRoot_spec h fs target.path target.mode
      obtain ⟨ihregistered, ihlive⟩ := ih (watchRoot_tidy h fs target.path target.mode) hrest
      -- the first target puts no path of the others on the list
      have hroots : ∀ t ∈ targets, (t.path ∉
          (watcher.watchRoot fs target.path target.mode).watchedRoots ↔
            t.path ∉ watcher.watchedRoots) := by
        intro t ht
        have hne : t.path ≠ target.path := by
          rintro heq
          exact hfirst (heq ▸ List.mem_map_of_mem ht)
        simp [mem_watchRoot, hne]
      rw [watchTargets_cons]
      constructor
      · intro q m j
        rw [ihregistered, hregistered, or_assoc]
        refine or_congr_right ?_
        rw [List.mem_cons, or_and_right]
        refine or_congr ?_ (and_congr_right fun ht => and_congr_left' (hroots _ ht))
        obtain ⟨targetPath, targetMode⟩ := target
        rw [WatchTarget.mk.injEq]
        constructor
        · rintro ⟨rfl, rfl, hnew, hinode⟩
          exact ⟨⟨rfl, rfl⟩, hnew, hinode⟩
        · rintro ⟨⟨rfl, rfl⟩, hnew, hinode⟩
          exact ⟨rfl, rfl, hnew, hinode⟩
      · intro j
        rw [ihlive, hlive, or_assoc]
        refine or_congr_right ?_
        rw [List.exists_mem_cons_iff]
        refine or_congr_right (exists_congr fun t => and_congr_right fun ht => ?_)
        exact and_congr_left' (hroots t ht)

theorem retain_tidy {keep : PathBuf → Bool} (h : watcher.Tidy) : (watcher.retain keep).Tidy := by
  have hspec := (Notify.unwatchAll_spec h.registered
    (watcher.watchedRoots.filter fun path => !keep path)).1
  refine ⟨h.roots.filter _, ?_, ?_⟩
  · rw [retain, hspec]
    exact h.registered.sublist (List.filter_sublist.map _)
  · intro q
    rw [retain, hspec]
    constructor
    · intro hq
      obtain ⟨entry, hentry, rfl⟩ := List.mem_map.1 hq
      obtain ⟨hentry, hkept⟩ := List.mem_filter.1 hentry
      have hroots := h.mem_roots hentry
      refine List.mem_filter.2 ⟨hroots, ?_⟩
      simpa [hroots] using hkept
    · intro hq
      obtain ⟨hroots, hkept⟩ := List.mem_filter.1 hq
      obtain ⟨entry, hentry, rfl⟩ := List.mem_map.1 ((h.listed q).2 hroots)
      refine List.mem_map_of_mem (List.mem_filter.2 ⟨hentry, ?_⟩)
      simp [hkept]

theorem replaceWatchTargets_tidy {targets : List WatchTarget} (h : watcher.Tidy) :
    (watcher.replaceWatchTargets fs targets).Tidy := watchTargets_tidy (retain_tidy h)

/-! ### Replacing the targets -/

/-- The watches in force are the targets, and the list has their paths, each once. -/
structure Installs (watcher : RepositoryWatcher) (fs : FileSystem) (targets : List WatchTarget) :
    Prop where
  inForce : ∀ path mode, watcher.notify.InForce fs path mode ↔
    (⟨path, mode⟩ : WatchTarget) ∈ targets
  roots : watcher.watchedRoots.Nodup
  listed : ∀ path, path ∈ watcher.watchedRoots ↔ path ∈ targets.map WatchTarget.path

/-- Every target that is on the list is registered with its mode for what it leads to, and stays
watched: nothing that is given up is registered for the same inode, or a target that is not on the
list leads to it too. -/
def Reconcilable (watcher : RepositoryWatcher) (fs : FileSystem) (targets : List WatchTarget) :
    Prop :=
  ∀ target ∈ targets, target.path ∈ watcher.watchedRoots → ∃ inode,
    fs.inode target.path = some inode ∧
    (target.path, target.mode, inode) ∈ watcher.notify.registered ∧
    ((inode ∈ watcher.notify.live ∧ ∀ path ∈ watcher.watchedRoots,
        path ∉ targets.map WatchTarget.path →
          ∀ mode, (path, mode, inode) ∉ watcher.notify.registered) ∨
      ∃ other ∈ targets, other.path ∉ watcher.watchedRoots ∧ fs.inode other.path = some inode)

/-- What is registered and watched after the targets have been replaced. -/
theorem replaceWatchTargets_spec {targets : List WatchTarget} (h : watcher.Tidy)
    (hnodup : (targets.map WatchTarget.path).Nodup) (fs : FileSystem) :
    (∀ q m j, (q, m, j) ∈ (watcher.replaceWatchTargets fs targets).notify.registered ↔
      (q, m, j) ∈ watcher.notify.registered ∧ q ∈ targets.map WatchTarget.path ∨
        (⟨q, m⟩ : WatchTarget) ∈ targets ∧ q ∉ watcher.watchedRoots ∧ fs.inode q = some j) ∧
    ∀ j, j ∈ (watcher.replaceWatchTargets fs targets).notify.live ↔
      (j ∈ watcher.notify.live ∧ ∀ path ∈ watcher.watchedRoots,
        path ∉ targets.map WatchTarget.path →
          ∀ mode, (path, mode, j) ∉ watcher.notify.registered) ∨
        ∃ other ∈ targets, other.path ∉ watcher.watchedRoots ∧ fs.inode other.path = some j := by
  obtain ⟨hkept, hkeptLive⟩ := Notify.unwatchAll_spec h.registered
    (watcher.watchedRoots.filter fun path => !decide (path ∈ targets.map WatchTarget.path))
  obtain ⟨hregistered, hlive⟩ := watchTargets_spec (retain_tidy h) hnodup fs
  -- a target is on the list after the others are given up when it was before
  have hroots : ∀ q, q ∈ targets.map WatchTarget.path →
      (q ∉ (watcher.retain fun path => path ∈ targets.map WatchTarget.path).watchedRoots ↔
        q ∉ watcher.watchedRoots) := by
    intro q hq
    simp only [retain, List.mem_filter, hq, decide_true, and_true]
  constructor
  · intro q m j
    rw [replaceWatchTargets, hregistered]
    refine or_congr ?_ (and_congr_right fun ht =>
      and_congr_left' (hroots q (List.mem_map_of_mem ht)))
    rw [retain, hkept, List.mem_filter]
    refine and_congr_right fun hmem => ?_
    simp [h.mem_roots hmem]
  · intro j
    rw [replaceWatchTargets, hlive]
    refine or_congr ?_ (exists_congr fun t => and_congr_right fun ht =>
      and_congr_left' (hroots t.path (List.mem_map_of_mem ht)))
    rw [retain, hkeptLive]
    simp only [List.mem_filter, Bool.not_eq_true', decide_eq_false_iff_not, and_imp]

/-- A replacement installs the targets exactly when they can be reconciled, if those that are not
on the list can be watched. -/
theorem replaceWatchTargets_installs_iff {targets : List WatchTarget} (h : watcher.Tidy)
    (hnodup : (targets.map WatchTarget.path).Nodup)
    (hwatch : ∀ target ∈ targets, target.path ∉ watcher.watchedRoots →
      fs.pathExists target.path = true) :
    (watcher.replaceWatchTargets fs targets).Installs fs targets ↔
      watcher.Reconcilable fs targets := by
  obtain ⟨hregistered, hlive⟩ := replaceWatchTargets_spec h hnodup fs
  constructor
  · intro hinstalls target htarget hlisted
    obtain ⟨inode, hinode, hmem, hwatched⟩ :=
      (hinstalls.inForce target.path target.mode).2 htarget
    refine ⟨inode, hinode, ?_, (hlive inode).1 hwatched⟩
    rcases (hregistered _ _ _).1 hmem with ⟨hmem, -⟩ | ⟨-, hnew, -⟩
    · exact hmem
    · exact absurd hlisted hnew
  · intro hreconcilable
    refine ⟨?_, (replaceWatchTargets_tidy h).roots, ?_⟩
    · intro path mode
      constructor
      · rintro ⟨inode, hinode, hmem, -⟩
        rcases (hregistered _ _ _).1 hmem with ⟨hmem, hpath⟩ | ⟨htarget, -, -⟩
        · -- the path was registered once, with the mode of the target
          obtain ⟨target, htarget, rfl⟩ := List.mem_map.1 hpath
          obtain ⟨inode', -, hmem', -⟩ := hreconcilable target htarget (h.mem_roots hmem)
          have hsame := List.inj_on_of_nodup_map h.registered hmem hmem' rfl
          have hmode : mode = target.mode := congrArg (fun entry => entry.2.1) hsame
          rw [hmode]
          exact htarget
        · exact htarget
      · intro htarget
        by_cases hlisted : path ∈ watcher.watchedRoots
        · obtain ⟨inode, hinode, hmem, hstays⟩ := hreconcilable ⟨path, mode⟩ htarget hlisted
          exact ⟨inode, hinode, (hregistered _ _ _).2 (.inl ⟨hmem, List.mem_map_of_mem htarget⟩),
            (hlive inode).2 hstays⟩
        · obtain ⟨node, hnode⟩ := Option.isSome_iff_exists.1 (hwatch _ htarget hlisted)
          have hinode : fs.inode path = some node.inode := congrArg (Option.map Node.inode) hnode
          exact ⟨node.inode, hinode, (hregistered _ _ _).2 (.inr ⟨htarget, hlisted, hinode⟩),
            (hlive _).2 (.inr ⟨_, htarget, hlisted, hinode⟩)⟩
    · intro path
      rw [replaceWatchTargets, mem_watchTargets]
      constructor
      · rintro (hkept | ⟨htarget, -⟩)
        · exact of_decide_eq_true (List.mem_filter.1 hkept).2
        · exact htarget
      · intro htarget
        by_cases hlisted : path ∈ watcher.watchedRoots
        · exact .inl (List.mem_filter.2 ⟨hlisted, decide_eq_true htarget⟩)
        · obtain ⟨target, hmem, rfl⟩ := List.mem_map.1 htarget
          exact .inr ⟨htarget, hwatch target hmem hlisted⟩

/-! ### A fresh start -/

theorem watchTargetsForSnapshot_nodup (discover : Discover) (fs : FileSystem)
    (snapshot : RepositorySnapshot) :
    ((watchTargetsForSnapshot discover fs snapshot).map WatchTarget.path).Nodup := by
  unfold watchTargetsForSnapshot
  dsimp only
  rw [List.map_map]
  have hkeys : ∀ targets : BTreeMap PathBuf RecursiveMode,
      ((targets.toList.filter fun target => fs.pathExists target.1).map Prod.fst).Nodup := by
    intro targets
    exact (targets.ascending.imp ne_of_lt).sublist (List.filter_sublist.map _)
  exact hkeys _

/-- Watching targets one by one, with an error where one cannot be watched, is asking for them
when none of them is on the list. -/
theorem foldlM_watch_eq_ok
    {step : RepositoryWatcher → WatchTarget → Except WatchError RepositoryWatcher}
    (hstep : ∀ w target w', step w target = .ok w' →
      ∃ notify, w.notify.watch fs target.path target.mode = some notify ∧
        w' = { w with notify := notify, watchedRoots := w.watchedRoots ++ [target.path] })
    {targets : List WatchTarget} (hnodup : (targets.map WatchTarget.path).Nodup)
    (hnew : ∀ target ∈ targets, target.path ∉ watcher.watchedRoots)
    (h : targets.foldlM step watcher = .ok watcher') :
    watcher' = watcher.watchTargets fs targets ∧
      ∀ target ∈ targets, fs.pathExists target.path = true := by
  induction targets generalizing watcher with
  | nil => exact ⟨(Except.ok.inj h).symm, by simp⟩
  | cons target targets ih =>
      obtain ⟨hfirst, hrest⟩ := List.nodup_cons.1 hnodup
      rw [List.foldlM_cons] at h
      obtain ⟨next, hnext, h⟩ := Result.bind_eq_ok.1 h
      obtain ⟨notify, hnotify, rfl⟩ := hstep watcher target next hnext
      have hroot : watcher.watchRoot fs target.path target.mode =
          { watcher with
            notify := notify
            watchedRoots := watcher.watchedRoots ++ [target.path] } := by
        rw [watchRoot, if_neg (hnew target List.mem_cons_self), hnotify]
      have hexists : fs.pathExists target.path = true := by
        have hlisted : target.path ∈
            (watcher.watchRoot fs target.path target.mode).watchedRoots := by
          rw [hroot]
          simp
        rw [mem_watchRoot] at hlisted
        exact (hlisted.resolve_left (hnew target List.mem_cons_self)).2
      have hothers : ∀ t ∈ targets, t.path ∉ watcher.watchedRoots ++ [target.path] := by
        intro t ht
        rw [List.mem_append, List.mem_singleton, not_or]
        refine ⟨hnew t (List.mem_cons_of_mem _ ht), ?_⟩
        rintro heq
        exact hfirst (heq ▸ List.mem_map_of_mem ht)
      obtain ⟨hwatcher, hall⟩ := ih hrest hothers h
      rw [watchTargets_cons, hroot]
      exact ⟨hwatcher, List.forall_mem_cons.2 ⟨hexists, hall⟩⟩

/-- A new watcher installs its targets, and its list has the registered paths. -/
theorem new_installs {world : World} {repoPath : PathBuf} {snapshot : RepositorySnapshot}
    (hsnapshot : snapshotRepository world.discover repoPath = .ok snapshot)
    (h : new world repoPath = .ok watcher) :
    watcher.Tidy ∧
      watcher.Installs world.fs (watchTargetsForSnapshot world.discover world.fs snapshot) := by
  have hnodup := watchTargetsForSnapshot_nodup world.discover world.fs snapshot
  unfold new at h
  rw [hsnapshot] at h
  obtain ⟨rfl, hexists⟩ := foldlM_watch_eq_ok (fun w target w' hw => by
    split at hw
    · cases hw
    · next notify hnotify => exact ⟨notify, hnotify, (Except.ok.inj hw).symm⟩) hnodup (by simp) h
  have htidy : Tidy {
      notify := {}
      watchedRoots := []
      repoPath := repoPath
      worktreeRoot := snapshot.identity.worktreeRoot
      gitDir := snapshot.identity.gitDir
      commonDir := snapshot.identity.commonDir } :=
    ⟨List.nodup_nil, List.nodup_nil, fun _ => Iff.rfl⟩
  obtain ⟨hregistered, hlive⟩ := watchTargets_spec htidy hnodup world.fs
  refine ⟨watchTargets_tidy htidy, ?_, (watchTargets_tidy htidy).roots, ?_⟩
  · intro path mode
    constructor
    · rintro ⟨inode, hinode, hmem, -⟩
      rcases (hregistered _ _ _).1 hmem with hmem | ⟨htarget, -, -⟩
      · cases hmem
      · exact htarget
    · intro htarget
      obtain ⟨node, hnode⟩ := Option.isSome_iff_exists.1 (hexists _ htarget)
      have hinode : world.fs.inode path = some node.inode :=
        congrArg (Option.map Node.inode) hnode
      have hnew : path ∉ ([] : List PathBuf) := by simp
      exact ⟨node.inode, hinode, (hregistered _ _ _).2 (.inr ⟨htarget, hnew, hinode⟩),
        (hlive _).2 (.inr ⟨_, htarget, hnew, hinode⟩)⟩
  · intro path
    rw [mem_watchTargets]
    constructor
    · rintro (hmem | ⟨htarget, -⟩)
      · cases hmem
      · exact htarget
    · intro htarget
      obtain ⟨target, hmem, rfl⟩ := List.mem_map.1 htarget
      exact .inr ⟨htarget, hexists target hmem⟩

/-! ### Every run -/

theorem Tidy.advance (h : watcher.Tidy) (world : World) (pending : Pending) :
    (pending.advance watcher world).1.Tidy := by
  cases pending with
  | paths worktreeRoot path rest =>
      have hneeded : (watcher.addWorktreeWatchIfNeeded world.fs worktreeRoot path).1.Tidy := by
        rcases watcher.addWorktreeWatchIfNeeded_cases world.fs worktreeRoot path with
          ⟨hsame, -⟩ | ⟨-, hpruned⟩
        · rw [hsame]
          exact h
        · rw [hpruned]
          exact retain_tidy h
      simp only [Pending.advance]
      split
      · exact hneeded
      · exact hneeded
  | scan worktreeRoot path rest => exact h
  | scanned worktreeRoot path dirs rest => exact watchTargets_tidy h
  | reconcile => exact h
  | reconciled result =>
      cases result with
      | none => exact h
      | some result =>
          refine replaceWatchTargets_tidy ?_
          exact ⟨h.roots, h.registered, h.listed⟩

end RepositoryWatcher

/-- The list and the registered paths agree in every run. -/
theorem tidy_of_run {s₀ s : WatchState} {labels : List WatchLabel} (hstart : Started s₀)
    (hrun : Lts.Run WatchStep s₀ labels s) : s.watcher.Tidy := by
  induction hrun with
  | nil =>
      obtain ⟨-, repoPath, hnew⟩ := hstart
      cases hsnapshot : snapshotRepository s₀.world.discover repoPath with
      | error e =>
          unfold RepositoryWatcher.new at hnew
          rw [hsnapshot] at hnew
          cases hnew
      | ok snapshot => exact (RepositoryWatcher.new_installs hsnapshot hnew).1
  | @snoc labels s l s' _ hstep ih =>
      cases hstep with
      | change hpersists =>
          refine ⟨ih.roots, ?_, ?_⟩
          · rw [hpersists.registered]
            exact ih.registered
          · intro p
            rw [hpersists.registered]
            exact ih.listed p
      | skip hidle h => exact ih
      | begin hidle h => exact ih
      | @advance event pending next watcher hupdating h =>
          have htidy := ih.advance s.world pending
          rw [h] at htidy
          exact htidy
      | @finish event pending watcher hupdating h =>
          have htidy := ih.advance s.world pending
          rw [h] at htidy
          exact htidy

/-- In every state of a run, a reconciliation with the targets of any snapshot, all of which that
are not on the list can be watched, leads to the watches of a new watcher exactly when the targets
on the list are watched as they should be. -/
theorem reconcile_installs_iff {s₀ s : WatchState} {labels : List WatchLabel}
    (hstart : Started s₀) (hrun : Lts.Run WatchStep s₀ labels s) {discover : Discover}
    {fs : FileSystem} {snapshot : RepositorySnapshot} {targets : List WatchTarget}
    (htargets : targets = watchTargetsForSnapshot discover fs snapshot)
    (hwatch : ∀ target ∈ targets, target.path ∉ s.watcher.watchedRoots →
      s.world.fs.pathExists target.path = true) :
    (s.watcher.replaceWatchTargets s.world.fs targets).Installs s.world.fs targets ↔
      s.watcher.Reconcilable s.world.fs targets := by
  refine RepositoryWatcher.replaceWatchTargets_installs_iff (tidy_of_run hstart hrun) ?_ hwatch
  rw [htargets]
  exact RepositoryWatcher.watchTargetsForSnapshot_nodup _ _ _

/-! ### A directory that becomes the Git directory -/

/-- The targets for the worktree with its directory for sources. -/
def srcTargets : List WatchTarget :=
  watchTargetsForSnapshot (srcWorld (some 3)).discover (srcWorld (some 3)).fs plainSnapshot

/-- The targets after the Git directory was moved to that directory. -/
def movedTargets : List WatchTarget :=
  watchTargetsForSnapshot (srcWorld (some 3)).discover (srcWorld (some 3)).fs
    { plainSnapshot with
      identity := { plainSnapshot.identity with gitDir := srcPath, commonDir := srcPath } }

theorem srcState_reached :
    Lts.Run WatchStep (srcState none none {2, 1} none)
      [.changed, .began srcCreated, .advanced, .advanced, .processed srcCreated]
      (srcState (some 3) (some 3) {3, 2, 1} none) :=
  (srcState_scanned.snoc srcState_processed).mono fun _ _ _ h => h.1

/-- Nothing is to be done for the targets of the worktree as it is. -/
theorem reconcile_installs_iff_src :
    (srcWatcher (some 3) {3, 2, 1}).replaceWatchTargets (srcWorld (some 3)).fs srcTargets
      |>.Installs (srcWorld (some 3)).fs srcTargets := by
  have htargets : srcTargets =
      [⟨repoRoot, .nonRecursive⟩, ⟨repoGitDir, .recursive⟩, ⟨srcPath, .nonRecursive⟩] := by decide
  refine (reconcile_installs_iff srcState_started srcState_reached rfl (by decide)).2 ?_
  have hroots : ∀ path ∈ (srcWatcher (some 3) {3, 2, 1}).watchedRoots,
      path ∈ srcTargets.map WatchTarget.path := by decide
  intro target htarget _
  have hstays : ∀ inode ∈ ({3, 2, 1} : Finset ℕ),
      inode ∈ (srcWatcher (some 3) {3, 2, 1}).notify.live ∧
        ∀ path ∈ (srcWatcher (some 3) {3, 2, 1}).watchedRoots,
          path ∉ srcTargets.map WatchTarget.path → ∀ mode,
            (path, mode, inode) ∉ (srcWatcher (some 3) {3, 2, 1}).notify.registered :=
    fun inode hlive => ⟨hlive, fun path hpath hnot => absurd (hroots path hpath) hnot⟩
  change target ∈ srcTargets at htarget
  rw [htargets] at htarget
  simp only [List.mem_cons, List.not_mem_nil, or_false] at htarget
  rcases htarget with rfl | rfl | rfl
  · exact ⟨1, rfl, by decide, .inl (hstays 1 (by decide))⟩
  · exact ⟨2, rfl, by decide, .inl (hstays 2 (by decide))⟩
  · exact ⟨3, rfl, by decide, .inl (hstays 3 (by decide))⟩

/-- The watch of the directory keeps its mode: a new watcher would watch it recursively. -/
theorem moved_git_dir_not_recursive : ∃ s₀ labels s,
    Started s₀ ∧ Lts.Run WatchStep s₀ labels s ∧
    (∀ target ∈ movedTargets, target.path ∉ s.watcher.watchedRoots →
      s.world.fs.pathExists target.path = true) ∧
    ¬ (s.watcher.replaceWatchTargets s.world.fs movedTargets).Installs s.world.fs movedTargets := by
  refine ⟨_, _, _, srcState_started, srcState_reached, by decide, ?_⟩
  intro hinstalls
  obtain ⟨inode, hinode, hmem, -⟩ := (hinstalls.inForce srcPath .recursive).2 (by decide)
  obtain rfl := Option.some.inj hinode
  revert hmem
  decide

end Gitseer
