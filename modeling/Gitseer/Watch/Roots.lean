/-
**Which directories are watched.**

The worktree is watched directory by directory: a scan from its root pushes every directory it
enters.  It leaves out the Git directory, does not enter repositories nested in the worktree, and
skips a directory that is ignored.  Whether a directory is ignored is asked twice, for its own path
and for a synthetic child, as a rule for directories need not match the path itself.  The Git
directories and the configured excludes file are watched besides.

An ignored directory is left out even when it holds tracked files.

Main definitions:

* `FileSystem`, `Node` — what a path leads to at one moment;
* `gitIgnored`, `collectWorktreeWatchDirs`, `worktreeWatchDirsFrom` — the scan;
* `watchTargetsForSnapshot` — everything that is watched;
* `HasFile`, `PlainWay` — files of a tree, and ways to them without a nested repository.

Main results:

* `mem_collectWorktreeWatchDirs` — the directories the scan pushes, by what is on the way to them;
* `parent_watched` — the directory of a file is watched when no directory on the way tests as
  ignored, and not watched when one of them is ignored.
-/

import Gitseer.Lib.Walk
import Gitseer.Watch.Classify

set_option relaxedAutoImplicit false
set_option autoImplicit false

open StdPath (PathBuf FileName)
open Walk (Listing Leads Clear)

namespace Gitseer

/-! ### The file system -/

/-- What a path leads to, links followed.  The inode tells it from whatever else is or was there.
In a listing a link is a leaf, as its own type is not that of a directory. -/
inductive Node
  | file (inode : ℕ)
  | dir (inode : ℕ) (entries : Listing FileName)

def Node.inode : Node → ℕ
  | file inode => inode
  | dir inode _ => inode

/-- The file system at one moment. -/
structure FileSystem where
  node : PathBuf → Option Node

namespace FileSystem

/-- `Path::exists`. -/
def pathExists (fs : FileSystem) (path : PathBuf) : Bool := (fs.node path).isSome

/-- The inode of a directory. -/
def dirInode (fs : FileSystem) (path : PathBuf) : Option ℕ :=
  match fs.node path with
  | some (.dir inode _) => some inode
  | _ => none

/-- `Path::is_dir`. -/
def isDir (fs : FileSystem) (path : PathBuf) : Bool := (fs.dirInode path).isSome

/-- `fs::read_dir`; where it fails there are no entries to go through. -/
def readDir (fs : FileSystem) (path : PathBuf) : Listing FileName :=
  match fs.node path with
  | some (.dir _ entries) => entries
  | _ => .nil

end FileSystem

/-! ### The scan -/

/-- Without a repository, and outside the worktree, nothing is ignored. -/
def gitIgnored (repo : Option Repository) (worktree path : PathBuf) : Bool :=
  match repo, path.stripPrefix worktree with
  | some repo, some relative => pathShouldBeIgnored repo relative
  | _, _ => false

/-- Entries the scan passes over. -/
def skipsEntry (repo : Option Repository) (worktree path : PathBuf) : Bool :=
  path.fileName = some gitName || gitIgnored repo worktree path

/-- Is the directory the root of a repository nested in the worktree? -/
def isNestedRoot (fs : FileSystem) (worktree dir : PathBuf) : Bool :=
  dir ≠ worktree && fs.pathExists (dir.join (PathBuf.relative [gitName]))

/-- The directories pushed for a directory with the given entries. -/
def collectWorktreeWatchDirs (fs : FileSystem) (repo : Option Repository)
    (worktree dir : PathBuf) (entries : Listing FileName) : List PathBuf :=
  dir ::
    if isNestedRoot fs worktree dir then []
    else Walk.walk PathBuf.child (skipsEntry repo worktree) (isNestedRoot fs worktree) dir entries

def worktreeWatchDirsFrom (discover : Discover) (fs : FileSystem) (worktree start : PathBuf) :
    List PathBuf :=
  let repo := (discover worktree).toOption
  if start ≠ worktree && gitIgnored repo worktree start then []
  else collectWorktreeWatchDirs fs repo worktree start (fs.readDir start)

def worktreeWatchDirs (discover : Discover) (fs : FileSystem) (worktree : PathBuf) :
    List PathBuf :=
  worktreeWatchDirsFrom discover fs worktree worktree

/-! ### Watch targets -/

inductive RecursiveMode
  | recursive
  | nonRecursive
  deriving DecidableEq

structure WatchTarget where
  path : PathBuf
  mode : RecursiveMode
  deriving DecidableEq

/-- A recursive watch takes the place of one that is not, and otherwise the first one stays. -/
def insertTarget (targets : BTreeMap PathBuf RecursiveMode) (path : PathBuf)
    (mode : RecursiveMode) : BTreeMap PathBuf RecursiveMode :=
  match targets.get path with
  | some .recursive => targets
  | some .nonRecursive => if mode = .recursive then targets.insert path mode else targets
  | none => targets.insert path mode

/-- The worktree directories that are watched; there are none without a worktree. -/
def snapshotWatchDirs (discover : Discover) (fs : FileSystem) (identity : RepositoryIdentity) :
    List PathBuf :=
  match identity.worktreeRoot with
  | some worktree => worktreeWatchDirs discover fs worktree
  | none => []

def watchTargetsForSnapshot (discover : Discover) (fs : FileSystem)
    (snapshot : RepositorySnapshot) : List WatchTarget :=
  let identity := snapshot.identity
  let targets := (snapshotWatchDirs discover fs identity).foldl
    (fun targets path => insertTarget targets path .nonRecursive) BTreeMap.empty
  let targets := insertTarget targets identity.gitDir .recursive
  let targets := insertTarget targets identity.commonDir .recursive
  let targets :=
    match configuredExcludesFile discover (identity.worktreeRoot.getD identity.gitDir) with
    | some excludesFile => insertTarget targets excludesFile .nonRecursive
    | none => targets
  (targets.toList.filter fun target => fs.pathExists target.1).map fun target =>
    ⟨target.1, target.2⟩

theorem mem_keys_insertTarget {targets : BTreeMap PathBuf RecursiveMode} {path p : PathBuf}
    {mode : RecursiveMode} :
    p ∈ (insertTarget targets path mode).keys ↔ p = path ∨ p ∈ targets.keys := by
  have hinsert : p ∈ (targets.insert path mode).keys ↔ p = path ∨ p ∈ targets.keys := by
    rw [BTreeMap.mem_keys, BTreeMap.mem_keys, BTreeMap.get_insert]
    by_cases hp : p = path
    · simp [hp]
    · simp [hp]
  have hthere : targets.get path ≠ none → (p ∈ targets.keys ↔ p = path ∨ p ∈ targets.keys) := by
    intro hget
    refine ⟨Or.inr, ?_⟩
    rintro (rfl | hp)
    · exact BTreeMap.mem_keys.2 hget
    · exact hp
  unfold insertTarget
  split
  · next h => exact hthere (by rw [h]; simp)
  · next h =>
      split
      · exact hinsert
      · exact hthere (by rw [h]; simp)
  · exact hinsert

theorem mem_keys_insertTargets {paths : List PathBuf} {p : PathBuf} (mode : RecursiveMode)
    (targets : BTreeMap PathBuf RecursiveMode) :
    p ∈ (paths.foldl (fun targets path => insertTarget targets path mode) targets).keys ↔
      p ∈ paths ∨ p ∈ targets.keys := by
  induction paths generalizing targets with
  | nil => simp
  | cons path paths ih =>
      rw [List.foldl_cons, ih, mem_keys_insertTarget, List.mem_cons]
      tauto

/-- The targets are the directories of the scan, the Git directories and the configured excludes
file, as far as they are there. -/
theorem mem_watchTargets_iff {discover : Discover} {fs : FileSystem}
    {snapshot : RepositorySnapshot} {p : PathBuf} :
    p ∈ (watchTargetsForSnapshot discover fs snapshot).map WatchTarget.path ↔
      fs.pathExists p = true ∧
      (configuredExcludesFile discover
          (snapshot.identity.worktreeRoot.getD snapshot.identity.gitDir) = some p ∨
        p = snapshot.identity.commonDir ∨ p = snapshot.identity.gitDir ∨
        p ∈ snapshotWatchDirs discover fs snapshot.identity) := by
  have hfilter : ∀ targets : BTreeMap PathBuf RecursiveMode,
      p ∈ (targets.toList.filter fun target => fs.pathExists target.1).map Prod.fst ↔
        fs.pathExists p = true ∧ p ∈ targets.keys := by
    intro targets
    constructor
    · intro hmem
      obtain ⟨target, htarget, rfl⟩ := List.mem_map.1 hmem
      obtain ⟨hmem, hexists⟩ := List.mem_filter.1 htarget
      exact ⟨hexists, List.mem_map_of_mem hmem⟩
    · rintro ⟨hexists, hmem⟩
      obtain ⟨target, htarget, rfl⟩ := List.mem_map.1 hmem
      exact List.mem_map_of_mem (List.mem_filter.2 ⟨htarget, hexists⟩)
  unfold watchTargetsForSnapshot
  dsimp only
  rw [List.map_map]
  refine (hfilter _).trans (and_congr_right fun _ => ?_)
  have hdirs : p ∈ ((snapshotWatchDirs discover fs snapshot.identity).foldl
      (fun targets path => insertTarget targets path .nonRecursive) BTreeMap.empty).keys ↔
        p ∈ snapshotWatchDirs discover fs snapshot.identity := by
    rw [mem_keys_insertTargets]
    exact or_iff_left fun h => BTreeMap.mem_keys.1 h rfl
  cases configuredExcludesFile discover
      (snapshot.identity.worktreeRoot.getD snapshot.identity.gitDir) with
  | none => simp only [mem_keys_insertTarget, hdirs, reduceCtorEq, false_or]
  | some excludesFile =>
      simp only [mem_keys_insertTarget, hdirs, Option.some.injEq, eq_comm (a := p)]

/-- A directory of the scan that is there is among the targets. -/
theorem mem_watchTargets {discover : Discover} {fs : FileSystem} {snapshot : RepositorySnapshot}
    {p : PathBuf} (hp : p ∈ snapshotWatchDirs discover fs snapshot.identity)
    (hexists : fs.pathExists p = true) :
    p ∈ (watchTargetsForSnapshot discover fs snapshot).map WatchTarget.path :=
  mem_watchTargets_iff.2 ⟨hexists, .inr (.inr (.inr hp))⟩

/-! ### Which directories the scan pushes -/

/-- The file is an entry of the directory that the names lead to. -/
def HasFile (entries : Listing FileName) (names : List FileName) (name : FileName) : Prop :=
  ∃ t, Leads entries names t ∧ name ∈ t.leaves

/-- No directory on the way below the worktree root is called `.git` or holds such an entry. -/
def PlainWay (fs : FileSystem) (worktree : PathBuf) (names : List FileName) : Prop :=
  gitName ∉ names ∧ ∀ part, part ≠ [] → part <+: names →
    fs.pathExists ((worktree.descend part).child gitName) = false

section

variable {discover : Discover} {fs : FileSystem} {worktree : PathBuf} {repo : Repository}
  {entries : Listing FileName} {names : List FileName}

/-- Below the worktree the test asks for the path from its root. -/
theorem gitIgnored_descend (repo : Repository) (worktree : PathBuf) (names : List FileName) :
    gitIgnored (some repo) worktree (worktree.descend names) =
      pathShouldBeIgnored repo (PathBuf.relative names) := by
  unfold gitIgnored
  rw [PathBuf.stripPrefix_descend]

/-- Below the worktree root an entry is passed over for its last name or for being ignored. -/
theorem skipsEntry_descend_iff {repo : Option Repository} (hne : names ≠ []) :
    skipsEntry repo worktree (worktree.descend names) = false ↔
      names.getLast? ≠ some gitName ∧
        gitIgnored repo worktree (worktree.descend names) = false := by
  have hname : (worktree.descend names).fileName = some gitName ↔
      names.getLast? = some gitName := by
    have hparentDir : gitName ≠ StdPath.parentDir := by decide
    rw [PathBuf.fileName, PathBuf.descend, List.getLast?_append_of_ne_nil _ hne,
      Option.filter_eq_some_iff]
    exact and_iff_left_of_imp fun _ => decide_eq_true hparentDir
  simp only [skipsEntry, hname, Bool.or_eq_false_iff, decide_eq_false_iff_not, ne_eq]

theorem isNestedRoot_self (fs : FileSystem) (worktree : PathBuf) :
    isNestedRoot fs worktree worktree = false := by
  simp [isNestedRoot]

/-- The scan of a directory pushes it, and what it reaches on ways without a barrier. -/
theorem mem_collectWorktreeWatchDirs {repo : Option Repository} {dir p : PathBuf} :
    p ∈ collectWorktreeWatchDirs fs repo worktree dir entries ↔
      p = dir ∨ isNestedRoot fs worktree dir = false ∧
        ∃ names t, names ≠ [] ∧ Leads entries names t ∧ dir.descend names = p ∧
          Clear PathBuf.child (skipsEntry repo worktree) (isNestedRoot fs worktree) dir names := by
  unfold collectWorktreeWatchDirs
  rw [List.mem_cons]
  refine or_congr_right ?_
  split
  · next h =>
      rw [h]
      simp
  · next h =>
      have h := Bool.eq_false_iff.2 h
      rw [Walk.mem_walk]
      simp only [h, PathBuf.foldl_child, true_and]

/-- A directory of the worktree is scanned exactly when nothing bars the way to it. -/
theorem mem_worktreeWatchDirs {p : PathBuf} :
    p ∈ worktreeWatchDirs discover fs worktree ↔
      ∃ names t, Leads (fs.readDir worktree) names t ∧ worktree.descend names = p ∧
        Clear PathBuf.child (skipsEntry (discover worktree).toOption worktree)
          (isNestedRoot fs worktree) worktree names := by
  unfold worktreeWatchDirs worktreeWatchDirsFrom
  simp only [ne_eq, not_true_eq_false, decide_false, Bool.false_and, Bool.false_eq_true, if_false]
  rw [mem_collectWorktreeWatchDirs]
  constructor
  · rintro (rfl | ⟨-, names, t, -, hleads, hp, hclear⟩)
    · exact ⟨[], _, Leads.here _, PathBuf.descend_nil p, trivial⟩
    · exact ⟨names, t, hleads, hp, hclear⟩
  · rintro ⟨names, t, hleads, hp, hclear⟩
    by_cases hne : names = []
    · rw [hne, PathBuf.descend_nil] at hp
      exact Or.inl hp.symm
    · exact Or.inr ⟨isNestedRoot_self fs worktree, names, t, hne, hleads, hp, hclear⟩

/-- On a plain way only ignored directories bar the scan. -/
theorem PlainWay.clear_iff (hplain : PlainWay fs worktree names) :
    Clear PathBuf.child (skipsEntry (some repo) worktree) (isNestedRoot fs worktree) worktree
        names ↔
      ∀ part, part ≠ [] → part <+: names →
        pathShouldBeIgnored repo (PathBuf.relative part) = false := by
  obtain ⟨hgit, hnested⟩ := hplain
  have hskip : ∀ part, part ≠ [] → part <+: names →
      (skipsEntry (some repo) worktree (worktree.descend part) = false ↔
        pathShouldBeIgnored repo (PathBuf.relative part) = false) := by
    intro part hne hpart
    have hname : part.getLast? ≠ some gitName := by
      intro h
      exact hgit (hpart.subset (List.mem_of_getLast? h))
    rw [skipsEntry_descend_iff hne, gitIgnored_descend]
    exact and_iff_right hname
  rw [Walk.clear_iff]
  constructor
  · rintro ⟨hskips, -⟩ part hne hpart
    have h := hskips part hne hpart
    rw [PathBuf.foldl_child] at h
    exact (hskip part hne hpart).1 h
  · intro hclear
    refine ⟨?_, ?_⟩
    · intro part hne hpart
      rw [PathBuf.foldl_child]
      exact (hskip part hne hpart).2 (hclear part hne hpart)
    · intro part hne hpart _
      simp [isNestedRoot, PathBuf.foldl_child, hnested part hne hpart]

end

/-! ### Ignored directories -/

/-- What `status_should_ignore` is documented to do: everything below an ignored directory is
ignored. -/
def Repository.IgnoresBelow (repo : Repository) : Prop :=
  ∀ names more, repo.ignores (PathBuf.relative names) = true →
    repo.ignores (PathBuf.relative (names ++ more)) = true

/-- A directory is ignored when its path is, or when everything is that could be in it, as with a
rule for directories only. -/
def Repository.IgnoresDirectory (repo : Repository) (relative : PathBuf) : Prop :=
  repo.ignores relative = true ∨ ∀ name, repo.ignores (relative.child name) = true

/-- The file is in the index. -/
def Repository.Tracks (repo : Repository) (relative : PathBuf) : Prop :=
  ∃ index, repo.index = .ok index ∧ ∃ entry ∈ index.entries, PathBuf.ofBytes entry.path = relative

theorem Repository.IgnoresDirectory.shouldBeIgnored {repo : Repository} {relative : PathBuf}
    (h : repo.IgnoresDirectory relative) : pathShouldBeIgnored repo relative = true := by
  unfold pathShouldBeIgnored
  rw [PathBuf.join_relative]
  rcases h with h | h
  · rw [h, Bool.true_or]
  · rw [h probeName, Bool.or_true]

/-! ### A tracked file in an ignored directory -/

def buildName : FileName := FileName.ofString "build"

def srcName : FileName := FileName.ofString "src"

def forcedName : FileName := FileName.ofString "forced.txt"

/-- A directory with sources, and a build directory with one file. -/
def buildTree : Listing FileName :=
  .dir buildName (.leaf forcedName .nil) (.dir srcName (.leaf forcedName .nil) .nil)

def buildFileSystem : FileSystem where
  node path :=
    if path = repoRoot then some (.dir 1 buildTree)
    else if path = repoRoot.child buildName then some (.dir 2 (.leaf forcedName .nil))
    else if path = repoRoot.child srcName then some (.dir 3 (.leaf forcedName .nil))
    else none

/-- The rule is `build`, and the file in the build directory was added all the same. -/
def buildRepository : Repository :=
  { plainRepository with
    statusShouldIgnore := fun path => .ok (path.names.head? = some buildName)
    index := .ok ⟨[⟨StdPath.bytesOf "build/forced.txt", tipCommit.id, 0o100644, 0, 0⟩], .ok []⟩ }

theorem buildRepository_ignoresBelow : buildRepository.IgnoresBelow := by
  intro names more h
  cases names with
  | nil => exact absurd h (by decide)
  | cons first names => exact h

/-- A way of one name has no other part. -/
theorem prefix_eq_singleton {name : FileName} {part : List FileName} (hne : part ≠ [])
    (hpart : part <+: [name]) : part = [name] := by
  cases part with
  | nil => exact absurd rfl hne
  | cons first part =>
      obtain ⟨rfl, htail⟩ := List.cons_prefix_cons.1 hpart
      rw [List.prefix_nil.1 htail]

theorem plainWay_singleton {fs : FileSystem} {worktree : PathBuf} {name : FileName}
    (hname : name ≠ gitName)
    (hnested : fs.pathExists ((worktree.descend [name]).child gitName) = false) :
    PlainWay fs worktree [name] := by
  refine ⟨by simpa using hname.symm, ?_⟩
  intro part hne hpart
  rw [prefix_eq_singleton hne hpart]
  exact hnested

theorem buildTree_src : HasFile buildTree [srcName] forcedName :=
  ⟨_, ((Leads.here _).into).pastDir, by decide⟩

theorem buildTree_build : HasFile buildTree [buildName] forcedName :=
  ⟨_, (Leads.here _).into, by decide⟩

/-- The file in the build directory is tracked, and its directory is not watched. -/
theorem forced_file_not_watched :
    buildRepository.IgnoresBelow ∧
    buildFileSystem.readDir repoRoot = buildTree ∧
    HasFile buildTree [buildName] forcedName ∧
    PlainWay buildFileSystem repoRoot [buildName] ∧
    buildRepository.Tracks (PathBuf.relative [buildName, forcedName]) ∧
    repoRoot.descend [buildName] ∉
      worktreeWatchDirs (fun _ => .ok buildRepository) buildFileSystem repoRoot := by
  refine ⟨buildRepository_ignoresBelow, rfl, buildTree_build,
    plainWay_singleton (by decide) (by decide), ?_, by decide⟩
  exact ⟨_, rfl, _, List.mem_singleton.2 rfl, by decide⟩

/-! ### What is watched -/

/-- The directory of a file is watched when no directory on the way to it tests as ignored, and it
is not watched when one of them is ignored, whether or not the file is tracked. -/
theorem parent_watched {discover : Discover} {fs : FileSystem} {worktree : PathBuf}
    {repo : Repository} {entries : Listing FileName} {names : List FileName} {name : FileName}
    (hrepo : discover worktree = .ok repo) (hentries : fs.readDir worktree = entries)
    (hfile : HasFile entries names name) (hplain : PlainWay fs worktree names) :
    ((∀ part, part ≠ [] → part <+: names →
        pathShouldBeIgnored repo (PathBuf.relative part) = false) →
      worktree.descend names ∈ worktreeWatchDirs discover fs worktree) ∧
    ((∃ part, part ≠ [] ∧ part <+: names ∧ repo.IgnoresDirectory (PathBuf.relative part)) →
      worktree.descend names ∉ worktreeWatchDirs discover fs worktree) := by
  obtain ⟨t, hleads, -⟩ := hfile
  have hscan : worktree.descend names ∈ worktreeWatchDirs discover fs worktree ↔ _ :=
    mem_worktreeWatchDirs
  rw [hrepo, hentries] at hscan
  constructor
  · intro hclear
    exact hscan.2 ⟨names, t, hleads, rfl, hplain.clear_iff.2 hclear⟩
  · rintro ⟨part, hne, hpart, hignored⟩ hmem
    obtain ⟨names', t', -, hnames, hclear⟩ := hscan.1 hmem
    obtain rfl := PathBuf.descend_injective worktree hnames
    have hfalse := hplain.clear_iff.1 hclear part hne hpart
    rw [hignored.shouldBeIgnored] at hfalse
    cases hfalse

/-- Of the two directories the one with the sources is watched. -/
theorem parent_watched_build :
    repoRoot.descend [srcName] ∈
      worktreeWatchDirs (fun _ => .ok buildRepository) buildFileSystem repoRoot ∧
    repoRoot.descend [buildName] ∉
      worktreeWatchDirs (fun _ => .ok buildRepository) buildFileSystem repoRoot := by
  have hrepo : (fun _ : PathBuf => Except.ok buildRepository : Discover) repoRoot =
      .ok buildRepository := rfl
  have hentries : buildFileSystem.readDir repoRoot = buildTree := rfl
  constructor
  · refine (parent_watched hrepo hentries buildTree_src
      (plainWay_singleton (by decide) (by decide))).1 ?_
    intro part hne hpart
    rw [prefix_eq_singleton hne hpart]
    decide
  · refine (parent_watched hrepo hentries buildTree_build
      (plainWay_singleton (by decide) (by decide))).2 ?_
    exact ⟨[buildName], by simp, List.prefix_rfl, Or.inl (by decide)⟩

end Gitseer
