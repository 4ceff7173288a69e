/-
**Is the configured excludes file watched?**

The value of `core.excludesfile` is a text, and Git reads a value that starts with `~/` below the
home directory.  The watcher reads the value three times: for the list of its targets, for the plan
of an event and for the question whether ignore rules have changed.  It never looks at the home
directory: a value that is not absolute is a path of the worktree.  The list of targets asks the
repository discovered from the worktree root, the other two ask the one the watcher was made for.

Main definitions:

* `gitExcludesFile` — the file Git uses for a value;
* `StaysWatchedInput` — the file is a target, and its events refresh the paths and the targets;
* `ExcludesCovered` — the watcher takes the value for that file, or covers the file otherwise.

Main results:

* `configuredExcludesFile_eq_some` — what the watcher takes a value for;
* `staysWatchedInput_iff` — when the file Git uses stays a watched input.
-/

import Gitseer.Watch.Control
import Gitseer.Watch.Watcher

set_option relaxedAutoImplicit false
set_option autoImplicit false

open StdPath (PathBuf FileName)
open Walk (Leads Clear)

namespace Gitseer

/-! ### What a value stands for -/

/-- The file Git uses for a value of `core.excludesfile`. -/
def gitExcludesFile (home worktree : PathBuf) (value : String) : PathBuf :=
  let path := PathBuf.ofString value
  if path.isAbsolute then path
  else match dropPrefix value "~/" with
    | some rest => home.descend (PathBuf.ofString rest).names
    | none => worktree.join path

/-- The path the watcher takes the value of a repository for. -/
def Repository.TakesExcludesFor (repo : Repository) (path : PathBuf) : Prop :=
  ∃ value, repo.excludesfile = some value ∧
    (path = PathBuf.ofString value ∧ path.isAbsolute = true ∨
      ∃ workdir, repo.workdir = some workdir ∧ path = workdir.join (PathBuf.ofString value))

section

variable {discover : Discover} {fs : FileSystem} {repo : Repository} {home worktree : PathBuf}
  {repoPath file dir path : PathBuf} {value : String} {snapshot : RepositorySnapshot}

theorem configuredExcludesFile_eq_some :
    configuredExcludesFile discover repoPath = some path ↔
      ∃ repo, discover repoPath = .ok repo ∧ repo.TakesExcludesFor path := by
  unfold configuredExcludesFile
  cases discover repoPath with
  | error e => simp
  | ok repo =>
      simp only [Option.bind_eq_bind, Option.bind_eq_some_iff, Except.ok.injEq, exists_eq_left']
      refine exists_congr fun value => and_congr_right fun _ => ?_
      split
      · next habsolute =>
          rw [Option.some.injEq]
          constructor
          · rintro rfl
            exact .inl ⟨rfl, habsolute⟩
          · rintro (⟨rfl, -⟩ | ⟨workdir, -, rfl⟩)
            · rfl
            · exact (PathBuf.join_of_isAbsolute habsolute).symm
      · next hrelative =>
          rw [Option.map_eq_some_iff]
          constructor
          · rintro ⟨workdir, hworkdir, rfl⟩
            exact .inr ⟨workdir, hworkdir, rfl⟩
          · rintro (⟨rfl, habsolute⟩ | ⟨workdir, hworkdir, rfl⟩)
            · exact absurd habsolute hrelative
            · exact ⟨workdir, hworkdir, rfl⟩

/-- Without a home directory in it, Git takes a value for the same file as the watcher. -/
theorem gitExcludesFile_eq_join (hhome : dropPrefix value "~/" = none) :
    gitExcludesFile home worktree value = worktree.join (PathBuf.ofString value) := by
  unfold gitExcludesFile
  dsimp only
  split
  · next habsolute => exact (PathBuf.join_of_isAbsolute habsolute).symm
  · rw [hhome]

theorem isConfiguredExcludesFile_iff (hrepo : discover repoPath = .ok repo)
    (hworkdir : repo.workdir = some worktree) (hvalue : repo.excludesfile = some value) :
    isConfiguredExcludesFile discover repoPath path = true ↔
      samePath repo.canonicalize (worktree.join (PathBuf.ofString value)) path = true := by
  have hconfigured : configuredExcludesFile discover repoPath =
      some (worktree.join (PathBuf.ofString value)) :=
    configuredExcludesFile_eq_some.2 ⟨repo, hrepo, value, hvalue, .inr ⟨worktree, hworkdir, rfl⟩⟩
  unfold isConfiguredExcludesFile
  rw [hconfigured, hrepo]

/-! ### The three readings -/

/-- The file or its directory is a target, every mutating event that names the file reads the paths,
and every such event makes the watcher replace its targets. -/
structure StaysWatchedInput (discover : Discover) (fs : FileSystem) (repoPath : PathBuf)
    (snapshot : RepositorySnapshot) (file dir : PathBuf) : Prop where
  target : file ∈ (watchTargetsForSnapshot discover fs snapshot).map WatchTarget.path ∨
    dir ∈ (watchTargetsForSnapshot discover fs snapshot).map WatchTarget.path
  refreshed : ∀ event, isMutatingEvent event = true → file ∈ event.paths →
    (refreshPlanForEvent discover (.ok event) repoPath snapshot.identity.worktreeRoot
      snapshot.identity.gitDir snapshot.identity.commonDir).reads .paths
  reconciled : ∀ event, isMutatingEvent event = true → file ∈ event.paths →
    eventMayChangeIgnoreRules discover event repoPath snapshot.identity.worktreeRoot
      snapshot.identity.gitDir snapshot.identity.commonDir = true

/-- Names lead from the worktree root to the path, and nothing bars the way. -/
def OpenWay (discover : Discover) (fs : FileSystem) (worktree path : PathBuf) : Prop :=
  ∃ names t, Leads (fs.readDir worktree) names t ∧ worktree.descend names = path ∧
    Clear PathBuf.child (skipsEntry (discover worktree).toOption worktree)
      (isNestedRoot fs worktree) worktree names

/-- The value does not start with the home directory, or what it names below the worktree is the
same file, or the file has ignore rules by its name; and the repository discovered from the worktree
root takes its value for the file or its directory, or the scan reaches one of them. -/
structure ExcludesCovered (discover : Discover) (fs : FileSystem) (repo : Repository)
    (worktree : PathBuf) (value : String) (file dir : PathBuf) : Prop where
  recognized : dropPrefix value "~/" = none ∨
    samePath repo.canonicalize (worktree.join (PathBuf.ofString value)) file = true ∨
    (file.stripPrefix worktree).any isIgnoreRulePath = true
  reached : ∃ path, (path = file ∨ path = dir) ∧
    (OpenWay discover fs worktree path ∨
      ∃ repo, discover worktree = .ok repo ∧ repo.TakesExcludesFor path)

theorem snapshotRepository_identity (hrepo : discover repoPath = .ok repo)
    (hsnapshot : snapshotRepository discover repoPath = .ok snapshot) :
    snapshot.identity.worktreeRoot = repo.workdir ∧ snapshot.identity.gitDir = repo.path ∧
      snapshot.identity.commonDir = repo.commondir := by
  have hidentity := (refreshes_of_snapshot hrepo hsnapshot).identity
  rw [readIf_of_mem (mem_allDomains _)] at hidentity
  obtain ⟨isEmpty, -, hidentity⟩ := Result.bind_eq_ok.1 hidentity
  rw [← Except.ok.inj hidentity]
  exact ⟨rfl, rfl, rfl⟩

/-- Outside the Git directories only the names of files are left to tell those with rules. -/
theorem pathMayChangeIgnoreRules_iff {gitDir commonDir : PathBuf}
    (hgit : path.startsWith gitDir = false) (hcommon : path.startsWith commonDir = false) :
    pathMayChangeIgnoreRules discover repoPath (some worktree) gitDir commonDir path = true ↔
      isConfiguredExcludesFile discover repoPath path = true ∨
        (path.stripPrefix worktree).any isIgnoreRulePath = true := by
  have hrelative : gitRelative gitDir commonDir path = none := by
    unfold gitRelative
    rw [PathBuf.stripPrefix_eq_none hgit, PathBuf.stripPrefix_eq_none hcommon, Option.none_or]
  unfold pathMayChangeIgnoreRules
  rw [hrelative, Option.any_none, if_neg Bool.false_ne_true, Option.bind_some]
  cases path.stripPrefix worktree with
  | none => simp
  | some relative => simp

/-- What may change ignore rules refreshes the paths. -/
theorem reads_paths_of_pathMayChange {gitDir commonDir : PathBuf}
    (hgit : path.startsWith gitDir = false) (hcommon : path.startsWith commonDir = false)
    (hmay : pathMayChangeIgnoreRules discover repoPath (some worktree) gitDir commonDir path =
      true) :
    (refreshPlanForPath discover repoPath (some worktree) gitDir commonDir path).reads .paths := by
  have hpaths : (RefreshPlan.ofDomains [.paths]).reads .paths :=
    RefreshPlan.reads_ofDomains.2 (List.mem_singleton.2 rfl)
  unfold refreshPlanForPath
  rw [hgit, hcommon, Bool.or_self, if_neg Bool.false_ne_true]
  split
  · exact hpaths
  · next hexcludes =>
      rw [pathMayChangeIgnoreRules_iff hgit hcommon] at hmay
      have hrules := hmay.resolve_left hexcludes
      cases hstrip : path.stripPrefix worktree with
      | none =>
          rw [hstrip] at hrules
          cases hrules
      | some relative =>
          rw [hstrip, Option.any_some] at hrules
          dsimp only
          split
          · exact trivial
          · rw [hstrip]
            dsimp only
            unfold refreshPlanForWorktreePath
            rw [if_pos hrules]
            exact hpaths

/-- An event that names a path may change ignore rules, whatever the event, exactly when the path
may. -/
theorem forall_event_mayChange_iff {worktreeRoot : Option PathBuf} {gitDir commonDir : PathBuf} :
    (∀ event, isMutatingEvent event = true → path ∈ event.paths →
      eventMayChangeIgnoreRules discover event repoPath worktreeRoot gitDir commonDir = true) ↔
    pathMayChangeIgnoreRules discover repoPath worktreeRoot gitDir commonDir path = true := by
  constructor
  · intro h
    have hmay := h ⟨.modify .data, [path], false⟩ rfl (List.mem_singleton.2 rfl)
    simpa [eventMayChangeIgnoreRules] using hmay
  · intro hmay event _ hmem
    exact List.any_eq_true.2 ⟨path, hmem, hmay⟩

/-- The file Git uses may change ignore rules when the watcher takes the value for the same file, or
the file has ignore rules by its name. -/
theorem mayChange_iff_recognized (hrepo : discover repoPath = .ok repo)
    (hworkdir : repo.workdir = some worktree) (hvalue : repo.excludesfile = some value)
    (hfile : file = gitExcludesFile home worktree value)
    (hgit : file.startsWith repo.path = false) (hcommon : file.startsWith repo.commondir = false) :
    pathMayChangeIgnoreRules discover repoPath (some worktree) repo.path repo.commondir file =
        true ↔
      dropPrefix value "~/" = none ∨
      samePath repo.canonicalize (worktree.join (PathBuf.ofString value)) file = true ∨
      (file.stripPrefix worktree).any isIgnoreRulePath = true := by
  rw [pathMayChangeIgnoreRules_iff hgit hcommon, isConfiguredExcludesFile_iff hrepo hworkdir hvalue]
  constructor
  · exact .inr
  · rintro (hhome | hrecognized)
    · refine .inl ?_
      rw [hfile, gitExcludesFile_eq_join hhome]
      exact decide_eq_true rfl
    · exact hrecognized

/-- On the way to a file outside the Git directories a path is a target when it is there, and the
scan reaches it or the repository of the worktree root takes its value for it. -/
theorem mem_targets_outside_iff (hworktree : snapshot.identity.worktreeRoot = some worktree)
    (hexists : fs.pathExists path = true) (hbelow : file.startsWith path = true)
    (hgit : file.startsWith snapshot.identity.gitDir = false)
    (hcommon : file.startsWith snapshot.identity.commonDir = false) :
    path ∈ (watchTargetsForSnapshot discover fs snapshot).map WatchTarget.path ↔
      OpenWay discover fs worktree path ∨
        ∃ repo, discover worktree = .ok repo ∧ repo.TakesExcludesFor path := by
  have hother : ∀ p, file.startsWith p = false → path ≠ p := by
    rintro p hp rfl
    rw [hbelow] at hp
    cases hp
  rw [mem_watchTargets_iff, snapshotWatchDirs, hworktree, Option.getD_some]
  simp only [hexists, hother _ hgit, hother _ hcommon, true_and, false_or]
  rw [configuredExcludesFile_eq_some, mem_worktreeWatchDirs, or_comm, OpenWay]

/-- For an existing file outside the Git directories, that Git uses for the configured value, to
stay a watched input is to be covered. -/
theorem staysWatchedInput_iff {name : FileName} {inode : ℕ}
    (hrepo : discover repoPath = .ok repo) (hworkdir : repo.workdir = some worktree)
    (hvalue : repo.excludesfile = some value)
    (hsnapshot : snapshotRepository discover repoPath = .ok snapshot)
    (hfile : file = gitExcludesFile home worktree value) (hname : file = dir.child name)
    (hnode : fs.node file = some (.file inode)) (hdir : fs.isDir dir = true)
    (hgit : file.startsWith repo.path = false) (hcommon : file.startsWith repo.commondir = false) :
    StaysWatchedInput discover fs repoPath snapshot file dir ↔
      ExcludesCovered discover fs repo worktree value file dir := by
  obtain ⟨hroot, hgitDir, hcommonDir⟩ := snapshotRepository_identity hrepo hsnapshot
  rw [hworkdir] at hroot
  have hmay := mayChange_iff_recognized hrepo hworkdir hvalue hfile hgit hcommon
  have htarget : ∀ path, path = file ∨ path = dir →
      (path ∈ (watchTargetsForSnapshot discover fs snapshot).map WatchTarget.path ↔
        OpenWay discover fs worktree path ∨
          ∃ repo, discover worktree = .ok repo ∧ repo.TakesExcludesFor path) := by
    rintro path (rfl | rfl)
    · have hexists : fs.pathExists path = true := by
        rw [FileSystem.pathExists, hnode, Option.isSome_some]
      exact mem_targets_outside_iff hroot hexists path.startsWith_self (hgitDir ▸ hgit)
        (hcommonDir ▸ hcommon)
    · obtain ⟨dirInode, hinode⟩ := Option.isSome_iff_exists.1 hdir
      have hbelow : file.startsWith path = true := by
        rw [hname]
        exact PathBuf.startsWith_descend path [name]
      exact mem_targets_outside_iff hroot (FileSystem.pathExists_of_dirInode hinode) hbelow
        (hgitDir ▸ hgit) (hcommonDir ▸ hcommon)
  constructor
  · intro h
    have hreconciled := forall_event_mayChange_iff.1 h.reconciled
    rw [hroot, hgitDir, hcommonDir, hmay] at hreconciled
    refine ⟨hreconciled, ?_⟩
    rcases h.target with h | h
    · exact ⟨file, .inl rfl, (htarget file (.inl rfl)).1 h⟩
    · exact ⟨dir, .inr rfl, (htarget dir (.inr rfl)).1 h⟩
  · rintro ⟨hrecognized, path, hpath, hreached⟩
    refine ⟨?_, ?_, ?_⟩
    · have h := (htarget path hpath).2 hreached
      rcases hpath with rfl | rfl
      · exact .inl h
      · exact .inr h
    · rw [forall_event_reads_iff, hroot, hgitDir, hcommonDir]
      exact reads_paths_of_pathMayChange hgit hcommon (hmay.2 hrecognized)
    · rw [forall_event_mayChange_iff, hroot, hgitDir, hcommonDir]
      exact hmay.2 hrecognized

end

/-! ### A file of the home directory -/

/-- The worktree, and a home directory with a file of ignore rules. -/
def homeFileSystem : FileSystem where
  node path :=
    if path = repoRoot then some (.dir 1 (.dir gitName .nil .nil))
    else if path = repoGitDir then some (.dir 2 .nil)
    else if path = PathBuf.ofString "/home" then some (.dir 3 (.leaf gitignoreName .nil))
    else if path = PathBuf.ofString "/home/.gitignore" then some (.file 4)
    else none

def excludesRepository (value : String) : Repository :=
  { plainRepository with excludesfile := some value }

/-- The file is found when its absolute path is configured. -/
theorem staysWatchedInput_iff_absolute :
    StaysWatchedInput (fun _ => .ok (excludesRepository "/home/.gitignore")) homeFileSystem repoRoot
      plainSnapshot (PathBuf.ofString "/home/.gitignore") (PathBuf.ofString "/home") := by
  refine (@staysWatchedInput_iff _ _ _ (PathBuf.ofString "/home") repoRoot _ _ _ _ _ gitignoreName 4
    rfl rfl rfl (by decide) (by decide) (by decide) rfl (by decide) (by decide) (by decide)).2 ?_
  refine ⟨.inl (by decide), _, .inl rfl, .inr ⟨_, rfl, _, rfl, .inl ⟨rfl, by decide⟩⟩⟩

/-- The same file, configured below the home directory, is not watched, and its events do not make
the watcher replace its targets. -/
theorem home_excludes_not_watched :
    (excludesRepository "~/.gitignore").excludesfile = some "~/.gitignore" ∧
    PathBuf.ofString "/home/.gitignore" =
      gitExcludesFile (PathBuf.ofString "/home") repoRoot "~/.gitignore" ∧
    homeFileSystem.node (PathBuf.ofString "/home/.gitignore") = some (.file 4) ∧
    homeFileSystem.isDir (PathBuf.ofString "/home") = true ∧
    (PathBuf.ofString "/home/.gitignore").startsWith repoGitDir = false ∧
    ∃ snapshot,
      snapshotRepository (fun _ => .ok (excludesRepository "~/.gitignore")) repoRoot =
        .ok snapshot ∧
      ¬ StaysWatchedInput (fun _ => .ok (excludesRepository "~/.gitignore")) homeFileSystem repoRoot
        snapshot (PathBuf.ofString "/home/.gitignore") (PathBuf.ofString "/home") := by
  refine ⟨rfl, by decide, rfl, by decide, by decide, plainSnapshot, by decide, ?_⟩
  intro h
  have hreconciled := h.reconciled ⟨.modify .data, [PathBuf.ofString "/home/.gitignore"], false⟩
    rfl (List.mem_singleton.2 rfl)
  revert hreconciled
  decide

end Gitseer
