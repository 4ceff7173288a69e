/-
**Which changes of control files are heeded.**

The exactness of the single sections is put together here.  A change of a control file alters some
sections.  It is *heeded* when the plan of the file reads all of these, whenever the plan is
computed: the event for the change is taken later, and what the repository answers by then may be
something else.

Only the plan for the file of the branch that is checked out asks the repository, and only for the
paths.  So a change is heeded at any time, unless the section it alters has a gap there; and the
plan for the file of the branch reads the paths as long as the branch exists and is checked out.

Main definitions:

* `LibraryInputs` — what is assumed of `libgit2`;
* `Harmless` — the changes that alter no section for which their plan is known to be wrong;
* `HeadFormat.Recognised` — the file of the branch is recognised as that of the branch checked out.

Main results:

* `reads_of_change` — the plans for a harmless change read what it alters;
* `Recognised.step` — how long the branch is recognised.
-/

import Gitseer.Watch.ExactIdentity
import Gitseer.Watch.ExactSections

set_option relaxedAutoImplicit false
set_option autoImplicit false

open StdPath (PathBuf FileName)

namespace Gitseer

/-! ### What is assumed of `libgit2` -/

/-- The files of an operation in progress, in either directory. -/
def GitDirs.operationPaths (dirs : GitDirs) : Set PathBuf :=
  {p | ∃ names, IsOperationFile names ∧
    (p = dirs.gitDir.descend names ∨ p = dirs.commonDir.descend names)}

/-- What is assumed of `libgit2` for each section. -/
structure LibraryInputs (dirs : GitDirs) (format : HeadFormat) (refs : RefFiles dirs)
    (repoPath : PathBuf) (lib : GitLibrary) : Prop where
  identity : IdentityInputs dirs refs repoPath lib
  sections : RefInputs dirs format repoPath lib
  paths : PathInputs dirs format repoPath lib
  submodules : SubmoduleInputs dirs format repoPath lib

/-- The change alters no section of which it is a gap, it is no gap of the paths at all, and it
alters the operation in progress only as one of its files. -/
structure Harmless (dirs : GitDirs) (format : HeadFormat) (refs : RefFiles dirs)
    (repoPath : PathBuf) (lib : GitLibrary) (before after : Files) (path : PathBuf) : Prop where
  identity : RefreshDomain.identity ∈ alteredDomains repoPath {} (lib before) (lib after) →
    ¬ IdentityGap dirs refs before after path
  sections : ∀ s : RefSection, s.domain ∈ alteredDomains repoPath {} (lib before) (lib after) →
    ¬ s.Gap dirs before path
  paths : ¬ PathGap dirs format before after path
  submodules : RefreshDomain.submodules ∈ alteredDomains repoPath {} (lib before) (lib after) →
    ¬ SubmoduleGap dirs format before path
  operation : RefreshDomain.operation ∈ alteredDomains repoPath {} (lib before) (lib after) →
    path ∈ dirs.operationPaths

/-- The file of the branch is recognised as that of the branch checked out. -/
def HeadFormat.Recognised (format : HeadFormat) (dirs : GitDirs) (files : Files)
    (b : BranchName) : Prop :=
  format.currentBranch dirs files = some b ∧ format.HasBranch dirs files b ∧
    ¬ format.Symbolic dirs files b ∧ b.text ≠ none

section

variable {dirs : GitDirs} {format : HeadFormat} {refs : RefFiles dirs} {repoPath path : PathBuf}
  {lib : GitLibrary} {before after files : Files} {d : RefreshDomain} {b : BranchName}
  {snapshot full : RepositorySnapshot}

/-! ### Plans at another time -/

/-- Whether a section other than the paths is read does not depend on what the repository answers.
-/
theorem reads_congr {discover : Discover} {text : String} (hd : d ≠ .paths)
    (discover' : Discover)
    (h : (planForText discover repoPath text).reads d) :
    (planForText discover' repoPath text).reads d := by
  by_cases hheads : hasPrefix text "refs/heads/" = true
  · have hread : ∀ {target}, hasPrefix target "refs/heads/" = true →
        (refreshPlanForGitText discover repoPath target).reads d →
        (refreshPlanForGitText discover' repoPath target).reads d := by
      intro target htarget hreads
      rw [refreshPlanForGitText_of_heads htarget, RefreshPlan.reads_ofDomains,
        List.mem_append] at hreads ⊢
      refine hreads.imp_right fun hpaths => absurd ?_ hd
      split at hpaths
      · exact List.mem_singleton.1 hpaths
      · cases hpaths
    cases hlock : dropSuffix text ".lock" with
    | none =>
        rw [planForText_of_notLock hlock] at h ⊢
        exact hread hheads h
    | some target =>
        have htarget := hasPrefix_of_dropSuffix hlock hheads rfl (by decide)
        have hrefs : hasPrefix "refs/heads/" "refs/" = true := by decide
        have href : hasPrefix target "refs/" = true :=
          hasPrefix_iff.2 ((hasPrefix_iff.1 hrefs).trans (hasPrefix_iff.1 htarget))
        rw [planForText_of_ref_lock hlock href] at h ⊢
        exact hread htarget h
  · rw [Bool.not_eq_true] at hheads
    rwa [planForText_congr hheads discover' repoPath] at h

/-- A section that a change alters differs in the snapshots before and after it. -/
theorem part_ne_of_altered
    (hsnapshot : snapshotRepository (lib before) repoPath = .ok snapshot)
    (hfull : snapshotRepository (lib after) repoPath = .ok full)
    (hd : d ∈ alteredDomains repoPath {} (lib before) (lib after)) :
    snapshot.part d ≠ full.part d := by
  intro heq
  refine hd ?_
  rw [snapshot_eq_ok_iff.1 hsnapshot d, snapshot_eq_ok_iff.1 hfull d, heq]

/-! ### What the plan for a change reads -/

/-- The plan for an operation file reads the operation. -/
theorem reads_operation_of_mem (discover : Discover) (h : path ∈ dirs.operationPaths) :
    (planForText discover repoPath (dirs.text path)).reads .operation := by
  obtain ⟨names, hnames, hpath⟩ := h
  have htext : dirs.text path = (PathBuf.relative names).toStringLossy := by
    rcases hpath with rfl | rfl
    · exact GitDirs.text_gitDir names
    · exact GitDirs.text_commonDir (head_ne_worktrees (Or.inl hnames))
  rw [htext, planForText_of_operation (Or.inl hnames)]
  decide

/-- A change that alters the submodules is read for them, unless it is a gap. -/
theorem reads_submodules_of_altered (discover : Discover)
    (hlib : LibraryInputs dirs format refs repoPath lib) (hcontrol : dirs.IsControl path)
    (hchange : Footprint.Changed before after path)
    (hgap : ¬ SubmoduleGap dirs format before path)
    (hsnapshot : snapshotRepository (lib before) repoPath = .ok snapshot)
    (hfull : snapshotRepository (lib after) repoPath = .ok full)
    (hne : snapshot.submodules ≠ full.submodules) :
    (planForText discover repoPath (dirs.text path)).reads .submodules := by
  rw [submoduleGap_iff discover repoPath hcontrol, not_and, not_not] at hgap
  by_cases hpath : path ∈ (submodulesFootprint dirs format).keys before
  · exact hgap hpath
  · exact absurd (part_eq_of_changed (d := .submodules) (fun _ _ => submodules_congr)
      hlib.submodules hchange hpath hsnapshot hfull) hne

/-- A change that alters the paths is read for them, or is one of the branch checked out. -/
theorem reads_paths_of_altered (hlib : LibraryInputs dirs format refs repoPath lib)
    (hcontrol : dirs.IsControl path) (hchange : Footprint.Changed before after path)
    (hgap : ¬ PathGap dirs format before after path)
    (hsnapshot : snapshotRepository (lib before) repoPath = .ok snapshot)
    (hfull : snapshotRepository (lib after) repoPath = .ok full)
    (hne : snapshot.paths ≠ full.paths) :
    (∀ discover, (planForText discover repoPath (dirs.text path)).reads .paths) ∨
      ∃ b, path = dirs.branchRef b ∧ format.Recognised dirs after b := by
  by_cases hpath : path ∈ (pathsFootprint dirs format).keys before
  · rw [mem_pathsFootprint hcontrol, mem_headFootprint] at hpath
    rcases hpath with (rfl | ⟨b, hb, rfl | hpacked⟩) | hpath
    · left
      intro discover
      exact (reads_iff_static (dirs.text_git (by decide)) (by decide)).2 (by decide)
    · have hkept : ¬ (¬ format.HasBranch dirs after b ∨ format.Symbolic dirs after b ∨
          b.text = none) := fun h => hgap ⟨b, hb, Or.inr ⟨rfl, h⟩⟩
      rw [not_or, not_or, not_not] at hkept
      refine Or.inr ⟨b, rfl, ?_, hkept⟩
      rw [HeadFormat.currentBranch_of_changed hchange (dirs.branchRef_ne_head b), hb]
    · exact absurd ⟨b, hb, Or.inl hpacked⟩ hgap
    · exact Or.inl fun discover => reads_paths_of_pathFiles discover hpath
  · exact absurd (part_eq_of_changed (d := .paths) (fun _ _ => pathState_congr {})
      hlib.paths.determined hchange hpath hsnapshot hfull) hne

/-- The plan for a harmless change reads whatever the change alters, at any time; but for the paths
when the change is one of the branch checked out. -/
theorem reads_of_change (hlib : LibraryInputs dirs format refs repoPath lib)
    (hcontrol : dirs.IsControl path) (hchange : Footprint.Changed before after path)
    (hharmless : Harmless dirs format refs repoPath lib before after path)
    (hsnapshot : snapshotRepository (lib before) repoPath = .ok snapshot)
    (hfull : snapshotRepository (lib after) repoPath = .ok full)
    (hd : d ∈ alteredDomains repoPath {} (lib before) (lib after)) :
    (∀ discover, (planForText discover repoPath (dirs.text path)).reads d) ∨
      d = .paths ∧ ∃ b, path = dirs.branchRef b ∧ format.Recognised dirs after b := by
  have hne := part_ne_of_altered hsnapshot hfull hd
  have hsection : ∀ s : RefSection, s.domain = d →
      ∀ discover, (planForText discover repoPath (dirs.text path)).reads d := by
    rintro s rfl discover
    exact reads_of_altered hlib.sections hcontrol hchange (hharmless.sections s hd) hsnapshot hfull
      hne
  cases d with
  | identity =>
      refine Or.inl fun discover => ?_
      have hreads := reads_or_same_of_not_identityGap hlib.identity hcontrol hchange
        (hharmless.identity hd) hsnapshot hfull
      exact reads_congr (by decide) discover (hreads.resolve_right hne)
  | paths =>
      exact (reads_paths_of_altered hlib hcontrol hchange hharmless.paths hsnapshot hfull
        hne).imp_right fun h => ⟨rfl, h⟩
  | operation =>
      exact Or.inl fun discover => reads_operation_of_mem discover (hharmless.operation hd)
  | submodules =>
      exact Or.inl fun discover => reads_submodules_of_altered discover hlib hcontrol hchange
        (hharmless.submodules hd) hsnapshot hfull hne
  | head => exact Or.inl (hsection .head rfl)
  | upstream => exact Or.inl (hsection .upstream rfl)
  | branches => exact Or.inl (hsection .branches rfl)
  | remotes => exact Or.inl (hsection .remotes rfl)
  | tags => exact Or.inl (hsection .tags rfl)
  | stashes => exact Or.inl (hsection .stashes rfl)
  | worktrees => exact Or.inl (hsection .worktrees rfl)

/-! ### The branch that is checked out -/

/-- A branch stays recognised until `HEAD` is changed, when no change is a gap of the paths. -/
theorem HeadFormat.Recognised.step (h : format.Recognised dirs before b)
    (hchange : Footprint.Changed before after path) (hne : path ≠ dirs.git "HEAD")
    (hgap : ¬ PathGap dirs format before after path) : format.Recognised dirs after b := by
  obtain ⟨hb, hhas, hdirect, htext⟩ := h
  have hcurrent : format.currentBranch dirs after = some b := by
    rw [HeadFormat.currentBranch_of_changed hchange hne, hb]
  by_cases hown : path = dirs.branchRef b
  · have hkept : ¬ (¬ format.HasBranch dirs after b ∨ format.Symbolic dirs after b ∨
        b.text = none) := fun h => hgap ⟨b, hb, Or.inr ⟨hown, h⟩⟩
    rw [not_or, not_or, not_not] at hkept
    exact ⟨hcurrent, hkept⟩
  · have hsame : after (dirs.branchRef b) = before (dirs.branchRef b) :=
      hchange.elsewhere _ (Ne.symm hown)
    refine ⟨hcurrent, ?_, by rwa [HeadFormat.Symbolic, hsame], htext⟩
    by_cases hfile : before (dirs.branchRef b) = none
    · -- a branch without a file is packed, and a change of the packed references is a gap
      have hreads : format.ReadsPacked dirs before b := by simp [HeadFormat.ReadsPacked, hfile]
      have hpacked : path ≠ dirs.common "packed-refs" := fun heq =>
        hgap ⟨b, hb, Or.inl ⟨heq, hreads⟩⟩
      unfold HeadFormat.HasBranch at hhas ⊢
      rwa [hsame, hchange.elsewhere _ hpacked.symm]
    · exact Or.inl (hsame ▸ hfile)

end

end Gitseer
