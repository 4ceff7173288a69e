/-
**Which control files keep the paths exact.**

Statuses and diffs compare the index with the commit checked out and with the worktree.  The plans
of all control files they can depend on read the section, with two exceptions: `packed-refs`, and
the file of the branch checked out when `head()` does not answer with that branch.  It does not
answer with a branch that is gone, and a branch whose file names another reference is resolved to
that one.

Main definitions:

* `PathInputs` — what is assumed of `libgit2`;
* `PathGap` — the changes that go wrong.

Main results:

* `isCurrentBranchRef_iff` — when the file of the branch checked out is recognised;
* `paths_exact_iff` — a refresh keeps the section exact, whatever `libgit2` makes of the files,
  exactly for the changes that are no gap.
-/

import Gitseer.Watch.Exact

set_option relaxedAutoImplicit false
set_option autoImplicit false

open StdPath (PathBuf FileName)

namespace Gitseer

/-! ### Paths -/

/-- The control files that statuses and diffs can depend on, but for what is checked out. -/
def pathFiles (dirs : GitDirs) : Set PathBuf :=
  {dirs.git "index", dirs.common "config", dirs.git "config.worktree", dirs.common "info/exclude",
    dirs.common "info/attributes", dirs.git "info/sparse-checkout",
    dirs.common "info/sparse-checkout"}

/-- The files the path section can depend on. -/
def pathsFootprint (dirs : GitDirs) (format : HeadFormat) : Footprint PathBuf (Option Content) :=
  (headFootprint dirs format).union (.const (pathFiles dirs ∪ dirs.outside))

/-- Statuses and diffs depend on nothing else.  Unless the file of the branch that `HEAD` names
names another reference, `head()` answers with that branch, whose short name is its text, and fails
as for a missing branch when there is none. -/
structure PathInputs (dirs : GitDirs) (format : HeadFormat) (repoPath : PathBuf)
    (lib : GitLibrary) : Prop where
  determined : (pathsFootprint dirs format).Determines (lib.Answers repoPath fun repo =>
    (repo.isBare, repo.statuses, repo.index, repo.diffTreeToIndex (headTree repo),
      repo.diffIndexToWorkdir))
  head_ok : ∀ files repo b head, lib files repoPath = .ok repo →
    format.currentBranch dirs files = some b → ¬ format.Symbolic dirs files b →
    repo.head = .ok head → format.HasBranch dirs files b ∧ head.shorthand = b.text
  head_missing : ∀ files repo b e, lib files repoPath = .ok repo →
    format.currentBranch dirs files = some b → ¬ format.Symbolic dirs files b →
    repo.head = .error e → e.code = .unbornBranch ∨ e.code = .notFound →
    ¬ format.HasBranch dirs files b

/-- The changes on which the path section can depend and whose plan does not read it: of
`packed-refs`, when it is read for the branch that `HEAD` names, and of the file of that branch,
when the branch is then gone, its file names another reference, or its name is not UTF-8. -/
def PathGap (dirs : GitDirs) (format : HeadFormat) (before after : Files) (path : PathBuf) : Prop :=
  ∃ b, format.currentBranch dirs before = some b ∧
    ((path = dirs.common "packed-refs" ∧ format.ReadsPacked dirs before b) ∨
      (path = dirs.branchRef b ∧
        (¬ format.HasBranch dirs after b ∨ format.Symbolic dirs after b ∨ b.text = none)))

section

variable {dirs : GitDirs} {format : HeadFormat} {repoPath path : PathBuf} {before after : Files}

theorem pathState_congr {repo repo' : Repository} (options : SnapshotOptions)
    (h : (repo.isBare, repo.statuses, repo.index, repo.diffTreeToIndex (headTree repo),
        repo.diffIndexToWorkdir) =
      (repo'.isBare, repo'.statuses, repo'.index, repo'.diffTreeToIndex (headTree repo'),
        repo'.diffIndexToWorkdir)) :
    pathState repo options = pathState repo' options := by
  simp only [Prod.mk.injEq] at h
  obtain ⟨hbare, hstatuses, hindex, htree, hworkdir⟩ := h
  simp only [pathState, conflictSummaries, diffSummaries, includeIndexFlagEntries, hbare,
    hstatuses, hindex, htree, hworkdir]

/-- The fixed files of the footprint have plans that read the section. -/
theorem reads_paths_of_pathFiles (discover : Discover) (h : path ∈ pathFiles dirs) :
    (planForText discover repoPath (dirs.text path)).reads .paths := by
  have hstatic : ∀ t ∈ ["index", "config", "config.worktree", "info/exclude", "info/attributes",
      "info/sparse-checkout"], hasPrefix t "refs/heads/" = false ∧
        (staticPlan t).reads .paths := by decide
  suffices htext : dirs.text path ∈ ["index", "config", "config.worktree", "info/exclude",
      "info/attributes", "info/sparse-checkout"] by
    obtain ⟨hheads, hreads⟩ := hstatic _ htext
    exact (reads_iff_static rfl hheads).2 hreads
  rcases h with rfl | rfl | rfl | rfl | rfl | rfl | rfl
  · rw [dirs.text_git (by decide)]
    decide
  · rw [dirs.text_common (by decide) (by decide)]
    decide
  · rw [dirs.text_git (by decide)]
    decide
  · rw [dirs.text_common (by decide) (by decide)]
    decide
  · rw [dirs.text_common (by decide) (by decide)]
    decide
  · rw [dirs.text_git (by decide)]
    decide
  · rw [dirs.text_common (by decide) (by decide)]
    decide

/-- The file of a branch that names no other reference is recognised as that of the branch checked
out when the branch exists and its name is UTF-8. -/
theorem isCurrentBranchRef_iff {lib : GitLibrary} (hlib : PathInputs dirs format repoPath lib)
    {files : Files} {repo : Repository} {b : BranchName} {head : HeadState}
    (hrepo : lib files repoPath = .ok repo) (hhead : headState repo = .ok head)
    (hb : format.currentBranch dirs files = some b) (hdirect : ¬ format.Symbolic dirs files b) :
    isCurrentBranchRef (lib files) repoPath (dirs.text (dirs.branchRef b)) = true ↔
      format.HasBranch dirs files b ∧ b.text ≠ none := by
  have hname : dropPrefix (dirs.text (dirs.branchRef b)) "refs/heads/" =
      some (PathBuf.relative b.names).toStringLossy :=
    dropPrefix_eq_some.2 (dirs.toList_text_branchRef b)
  unfold isCurrentBranchRef
  simp only [hname, hrepo]
  cases hrepohead : repo.head with
  | ok reference =>
      obtain ⟨hhas, hshort⟩ := hlib.head_ok files repo b reference hrepo hb hdirect hrepohead
      simp only [hhas, hshort, decide_eq_true_eq, true_and]
      constructor
      · intro h
        rw [h]
        simp
      · intro h
        obtain ⟨text, htext⟩ := Option.ne_none_iff_exists'.1 h
        rw [htext, PathBuf.toStringLossy_of_toStr htext]
  | error e =>
      -- a head that could be read is unborn or missing when `head()` fails
      have hcode : e.code = .unbornBranch ∨ e.code = .notFound := by
        unfold headState at hhead
        rw [hrepohead] at hhead
        by_contra hcode
        rw [not_or] at hcode
        simp [hcode.1, hcode.2] at hhead
      have hnot := hlib.head_missing files repo b e hrepo hb hdirect hrepohead hcode
      exact iff_of_false (by simp) fun h => hnot h.1

theorem mem_pathsFootprint (hcontrol : dirs.IsControl path) :
    path ∈ (pathsFootprint dirs format).keys before ↔
      path ∈ (headFootprint dirs format).keys before ∨ path ∈ pathFiles dirs := by
  have hnot : path ∉ dirs.outside := fun h => h hcontrol
  rw [pathsFootprint, Footprint.mem_union, Footprint.mem_const, Set.mem_union]
  exact or_congr Iff.rfl (or_iff_left hnot)

/-- The plan for the file of a branch reads the section when the file is recognised. -/
theorem reads_paths_branchRef (discover : Discover) (b : BranchName) :
    (planForText discover repoPath (dirs.text (dirs.branchRef b))).reads .paths ↔
      isCurrentBranchRef discover repoPath (dirs.text (dirs.branchRef b)) = true := by
  rw [planForText_branchRef, RefreshPlan.reads_ofDomains]
  by_cases hcurrent : isCurrentBranchRef discover repoPath (dirs.text (dirs.branchRef b)) = true
  · simp [hcurrent]
  · simp [hcurrent]

/-- Of the control files of the footprint only the gaps have a plan that does not read the
section. -/
theorem reads_paths_of_not_gap {lib : GitLibrary} (hlib : PathInputs dirs format repoPath lib)
    {options : SnapshotOptions} {full : RepositorySnapshot}
    (hfull : snapshotRepositoryWithOptions (lib after) repoPath options = .ok full)
    (hcontrol : dirs.IsControl path) (hchange : Footprint.Changed before after path)
    (hgap : ¬ PathGap dirs format before after path)
    (hpath : path ∈ (pathsFootprint dirs format).keys before) :
    (planForText (lib after) repoPath (dirs.text path)).reads .paths := by
  obtain ⟨repo, hrepo, hparts⟩ := sectionValue_of_snapshot hfull
  obtain ⟨head, hhead, -⟩ := Result.bind_eq_ok.1 (hparts .head)
  rw [mem_pathsFootprint hcontrol, mem_headFootprint] at hpath
  rcases hpath with (rfl | ⟨b, hb, rfl | hpacked⟩) | hfile
  · exact (reads_iff_static (dirs.text_git (by decide)) (by decide)).2 (by decide)
  · have hkept : ¬ (¬ format.HasBranch dirs after b ∨ format.Symbolic dirs after b ∨
        b.text = none) := fun h => hgap ⟨b, hb, Or.inr ⟨rfl, h⟩⟩
    rw [not_or, not_or, not_not] at hkept
    obtain ⟨hhas, hdirect, htext⟩ := hkept
    rw [← HeadFormat.currentBranch_of_changed hchange (dirs.branchRef_ne_head b)] at hb
    rw [reads_paths_branchRef]
    exact (isCurrentBranchRef_iff hlib hrepo hhead hb hdirect).2 ⟨hhas, htext⟩
  · exact absurd ⟨b, hb, Or.inl hpacked⟩ hgap
  · exact reads_paths_of_pathFiles (lib after) hfile

/-- A repository that has checked out a branch without an upstream, by its short name, or one that
does not exist, and one file that is staged or not. -/
def checkoutRepository (dirs : GitDirs) (branch : Option (Option String)) (staged : Bool) :
    Repository where
  workdir := some repoRoot
  path := dirs.gitDir
  commondir := dirs.commonDir
  head := match branch with
    | none => .error ⟨.unbornBranch, "unborn branch"⟩
    | some name => .ok ⟨name.map ("refs/heads/" ++ ·), name, true, some tipCommit.id, none, none⟩
  branches := match branch with
    | some (some name) => .ok [.ok (⟨.ok (some name), true, some tipCommit.id,
        .error ⟨.notFound, "no upstream"⟩⟩, .local)]
    | _ => .ok []
  statuses := fun _ => .ok (if staged then [⟨{ indexNew := true }, some "file", none, none⟩] else [])

/-- The branch checked out has no upstream. -/
theorem checkoutRepository_upstream (dirs : GitDirs) (branch : Option (Option String))
    (staged : Bool) : ∃ head,
      readHead (checkoutRepository dirs branch staged) = .ok head ∧
      upstreamState (checkoutRepository dirs branch staged) head.1 = .ok none := by
  cases branch with
  | none => exact ⟨_, rfl, rfl⟩
  | some name =>
      cases name with
      | none => exact ⟨_, rfl, rfl⟩
      | some name =>
          refine ⟨_, rfl, ?_⟩
          simp [upstreamState, checkoutRepository, Repository.findBranch, isLocalBranch]

theorem checkoutRepository_snapshot (dirs : GitDirs) (branch : Option (Option String))
    (staged : Bool) :
    ∃ s, readSnapshot (checkoutRepository dirs branch staged) {} = .ok s ∧
      s.identity.gitDir = dirs.gitDir ∧ s.identity.commonDir = dirs.commonDir ∧
      s.paths.staged = if staged then ["file"] else [] := by
  obtain ⟨head, hhead, hupstream⟩ := checkoutRepository_upstream dirs branch staged
  have hread : ∀ identity paths branches,
      repositoryIdentity (checkoutRepository dirs branch staged) = .ok identity →
      pathState (checkoutRepository dirs branch staged) {} = .ok paths →
      Gitseer.branches (checkoutRepository dirs branch staged) = .ok branches →
      readSnapshot (checkoutRepository dirs branch staged) {} =
        .ok { plainSnapshot with
          identity := identity, head := head.1, headCommit := head.2, upstream := none
          paths := paths, branches := branches } := by
    intro identity paths branches hidentity hpaths hbranches
    rw [readSnapshot_eq_ok]
    exact {
      identity := hidentity
      head := hhead
      upstream := hupstream
      paths := hpaths
      operation := rfl
      remotes := rfl
      branches := hbranches
      tags := rfl
      stashes := rfl
      worktrees := rfl
      submodules := rfl }
  cases branch with
  | none => cases staged <;> exact ⟨_, hread _ _ _ rfl rfl rfl, rfl, rfl, rfl⟩
  | some name =>
      cases name with
      | none => cases staged <;> exact ⟨_, hread _ _ _ rfl rfl rfl, rfl, rfl, rfl⟩
      | some name => cases staged <;> exact ⟨_, hread _ _ _ rfl rfl rfl, rfl, rfl, rfl⟩

/-- The branch that is checked out, by its short name, when it exists.  A file that names another
reference is taken to name none that exists. -/
def HeadFormat.checkedOut (format : HeadFormat) (dirs : GitDirs) (files : Files) :
    Option (Option String) :=
  match format.currentBranch dirs files with
  | none => none
  | some b =>
      if format.HasBranch dirs files b ∧ ¬ format.Symbolic dirs files b then some b.text else none

/-- The repository with that branch, and with a staged file or not. -/
def checkoutLibrary (dirs : GitDirs) (format : HeadFormat) (staged : Files → Bool) : GitLibrary :=
  fun files _ => .ok (checkoutRepository dirs (format.checkedOut dirs files) (staged files))

theorem checkoutLibrary_inputs (repoPath : PathBuf) {staged : Files → Bool}
    (hstaged : (pathsFootprint dirs format).Determines fun files answer => staged files = answer) :
    PathInputs dirs format repoPath (checkoutLibrary dirs format staged) where
  determined := by
    rintro f g _ _ ⟨_, hf, rfl⟩ ⟨_, hg, rfl⟩ heq
    obtain rfl := Except.ok.inj hf
    obtain rfl := Except.ok.inj hg
    have hsame : staged f = staged g := hstaged f g _ _ rfl rfl heq
    simp only [checkoutRepository, hsame]
  head_ok := by
    intro files repo b head hrepo hb _ hhead
    obtain rfl := Except.ok.inj hrepo
    simp only [checkoutRepository, HeadFormat.checkedOut, hb] at hhead
    split at hhead
    · cases hhead
    · next name hname =>
        split at hname
        · next hhas =>
            obtain rfl := Option.some.inj hname
            obtain rfl := Except.ok.inj hhead
            exact ⟨hhas.1, rfl⟩
        · cases hname
  head_missing := by
    intro files repo b e hrepo hb hdirect hhead _ hhas
    obtain rfl := Except.ok.inj hrepo
    simp [checkoutRepository, HeadFormat.checkedOut, hb, hhas, hdirect] at hhead

theorem mem_pathsFootprint_of_pathGap (hgap : PathGap dirs format before after path) :
    path ∈ (pathsFootprint dirs format).keys before := by
  obtain ⟨b, hb, hfile | hfile⟩ := hgap
  · exact Or.inl (mem_headFootprint.2 (Or.inr ⟨b, hb, Or.inr hfile⟩))
  · exact Or.inl (mem_headFootprint.2 (Or.inr ⟨b, hb, Or.inl hfile.1⟩))

/-- The plan for such a change reads the head. -/
theorem reads_head_of_pathGap (discover : Discover) (hgap : PathGap dirs format before after path) :
    (planForText discover repoPath (dirs.text path)).reads .head := by
  obtain ⟨b, hb, ⟨rfl, -⟩ | ⟨rfl, -⟩⟩ := hgap
  · exact (reads_iff_static (dirs.text_common (by decide) (by decide)) (by decide)).2 (by decide)
  · rw [planForText_branchRef, RefreshPlan.reads_ofDomains]
    exact List.mem_cons_self

/-- In these repositories the plan for a gap does not read the section. -/
theorem not_reads_paths_of_pathGap {staged : Files → Bool}
    (hchange : Footprint.Changed before after path)
    (hgap : PathGap dirs format before after path) :
    ¬ (planForText (checkoutLibrary dirs format staged after) repoPath (dirs.text path)).reads
      .paths := by
  obtain ⟨b, hb, ⟨rfl, -⟩ | ⟨rfl, hgone⟩⟩ := hgap
  · rw [reads_iff_static (dirs.text_common (by decide) (by decide)) (by decide)]
    decide
  · -- `head()` fails, or answers without a short name
    rw [← HeadFormat.currentBranch_of_changed hchange (dirs.branchRef_ne_head b)] at hb
    rw [reads_paths_branchRef]
    unfold isCurrentBranchRef
    simp only [dropPrefix_eq_some.2 (dirs.toList_text_branchRef b), checkoutLibrary,
      HeadFormat.checkedOut, hb]
    by_cases hhere : format.HasBranch dirs after b ∧ ¬ format.Symbolic dirs after b
    · have htext : b.text = none :=
        (hgone.resolve_left fun h => h hhere.1).resolve_left hhere.2
      simp [hhere, htext, checkoutRepository]
    · simp [hhere, checkoutRepository]

/-- The section is wrong after a change that stages the file, or unstages it, when the plan does
not read it. -/
theorem not_exactAfter_of_path_gap {staged : Files → Bool} (hcontrol : dirs.IsControl path)
    (hchange : Footprint.Changed before after path)
    (hgap : PathGap dirs format before after path) (hstaged : staged before ≠ staged after) :
    ¬ ExactAfter (checkoutLibrary dirs format staged) repoPath dirs .paths before after path := by
  obtain ⟨s, hs, hgit, hcommon, hpaths⟩ := checkoutRepository_snapshot dirs
    (format.checkedOut dirs before) (staged before)
  obtain ⟨s', hs', -, -, hpaths'⟩ := checkoutRepository_snapshot dirs
    (format.checkedOut dirs after) (staged after)
  have hne : s.paths ≠ s'.paths := by
    intro heq
    rw [heq, hpaths'] at hpaths
    revert hstaged hpaths
    cases staged before <;> cases staged after <;> decide
  exact not_exactAfter hcontrol hs hgit hcommon hs' (not_reads_paths_of_pathGap hchange hgap)
    (fun _ => Or.inl (reads_head_of_pathGap _ hgap)) hne

/-- A refresh for a changed control file keeps the path section exact, whatever `libgit2` makes of
the files, when the change is no gap, and only then. -/
theorem paths_exact_iff (hcontrol : dirs.IsControl path)
    (hchange : Footprint.Changed before after path) :
    (∀ lib, PathInputs dirs format repoPath lib →
        ExactAfter lib repoPath dirs .paths before after path) ↔
      ¬ PathGap dirs format before after path := by
  constructor
  · intro hexact hgap
    -- some answer of the footprint notices the change; let it say whether the file is staged
    obtain ⟨answer, hanswer, hbefore, hafter⟩ :=
      Footprint.exists_told_apart hchange (mem_pathsFootprint_of_pathGap hgap)
    have hinputs := checkoutLibrary_inputs repoPath hanswer
    refine not_exactAfter_of_path_gap hcontrol hchange hgap ?_ (hexact _ hinputs)
    rw [hbefore, hafter]
    decide
  · intro hgap lib hlib
    refine exactAfter_of_reads_or_same (by decide) hcontrol ?_
    intro options snapshot full hsnapshot hfull
    by_cases hpath : path ∈ (pathsFootprint dirs format).keys before
    · exact Or.inl (reads_paths_of_not_gap hlib hfull hcontrol hchange hgap hpath)
    · exact Or.inr (part_eq_of_changed (fun _ _ => pathState_congr options) hlib.determined hchange
        hpath hsnapshot hfull)

/-- What is checked out can be read off the files that say so. -/
theorem HeadFormat.checkedOut_determined :
    (headFootprint dirs format).Determines
      fun files branch => format.checkedOut dirs files = branch := by
  rintro f g _ _ rfl rfl heq
  have hhead : f (dirs.git "HEAD") = g (dirs.git "HEAD") :=
    heq (mem_headFootprint.2 (Or.inl rfl))
  have hcurrent : format.currentBranch dirs f = format.currentBranch dirs g := by
    rw [HeadFormat.currentBranch, hhead, ← HeadFormat.currentBranch]
  unfold HeadFormat.checkedOut
  rw [← hcurrent]
  cases hb : format.currentBranch dirs f with
  | none => rfl
  | some b =>
      have hown : f (dirs.branchRef b) = g (dirs.branchRef b) :=
        heq (mem_headFootprint.2 (Or.inr ⟨b, hb, Or.inl rfl⟩))
      have hhas : format.HasBranch dirs f b ↔ format.HasBranch dirs g b := by
        unfold HeadFormat.HasBranch
        rw [← hown]
        by_cases hnone : f (dirs.branchRef b) = none
        · have hpacked : format.ReadsPacked dirs f b := by simp [HeadFormat.ReadsPacked, hnone]
          rw [heq (mem_headFootprint.2 (Or.inr ⟨b, hb, Or.inr ⟨rfl, hpacked⟩⟩))]
        · exact iff_of_true (Or.inl hnone) (Or.inl hnone)
      have hsymbolic : format.Symbolic dirs f b ↔ format.Symbolic dirs g b := by
        rw [HeadFormat.Symbolic, hown, HeadFormat.Symbolic]
      exact if_congr (and_congr hhas (not_congr hsymbolic)) rfl rfl

end

/-! ### Deleting the branch that is checked out -/

/-- The files of a repository with one commit on its branch. -/
def committedFiles : Files :=
  Function.update
    (Function.update (fun _ => none) (plainDirs.git "HEAD")
      (some (StdPath.bytesOf "ref: refs/heads/main\n")))
    (plainDirs.branchRef mainBranch) (some (StdPath.bytesOf tipCommit.id.hex))

/-- The files after the branch was deleted. -/
def deletedFiles : Files :=
  Function.update committedFiles (plainDirs.branchRef mainBranch) none

/-- A file of the index is staged when there is no commit it could be in. -/
def deletingLibrary : GitLibrary :=
  checkoutLibrary plainDirs mainFormat fun files => mainFormat.checkedOut plainDirs files = none

theorem deletingLibrary_inputs : PathInputs plainDirs mainFormat repoRoot deletingLibrary := by
  refine checkoutLibrary_inputs repoRoot (Footprint.Determines.union_left ?_)
  rintro f g _ _ rfl rfl heq
  rw [HeadFormat.checkedOut_determined f g _ _ rfl rfl heq]

theorem deletedFiles_changed :
    Footprint.Changed committedFiles deletedFiles (plainDirs.branchRef mainBranch) :=
  Footprint.changed_update (by decide)

/-- When the branch checked out is deleted, `head()` fails and its file is not recognised: the
files that are staged from then on are missing in the refreshed snapshot. -/
theorem deleted_branch_paths_stale :
    PathInputs plainDirs mainFormat repoRoot deletingLibrary ∧
    Footprint.Changed committedFiles deletedFiles (plainDirs.branchRef mainBranch) ∧
    ¬ ExactAfter deletingLibrary repoRoot plainDirs .paths committedFiles deletedFiles
      (plainDirs.branchRef mainBranch) := by
  refine ⟨deletingLibrary_inputs, deletedFiles_changed, ?_⟩
  have hgap : PathGap plainDirs mainFormat committedFiles deletedFiles
      (plainDirs.branchRef mainBranch) :=
    ⟨mainBranch, rfl, Or.inr ⟨rfl, Or.inl (by decide)⟩⟩
  exact not_exactAfter_of_path_gap (GitDirs.isControl_branchRef _) deletedFiles_changed hgap
    (by decide)

/-- The first commit on the branch checked out is no gap, so the paths are exact after it. -/
theorem paths_exact_iff_commit :
    ExactAfter deletingLibrary repoRoot plainDirs .paths deletedFiles committedFiles
      (plainDirs.branchRef mainBranch) := by
  have hgap : ¬ PathGap plainDirs mainFormat deletedFiles committedFiles
      (plainDirs.branchRef mainBranch) := by
    rintro ⟨b, hb, ⟨hpacked, -⟩ | ⟨-, hgone⟩⟩
    · exact absurd hpacked (by decide)
    · obtain rfl : mainBranch = b := Option.some.inj hb
      revert hgone
      decide
  exact (paths_exact_iff (GitDirs.isControl_branchRef _) deletedFiles_changed.symm).2 hgap _
    deletingLibrary_inputs

end Gitseer
