/-
**Which control files keep the submodules exact.**

The submodule section tells, for every submodule, which commit the index, the commit checked out
and its worktree have.  It is read by the plans of few control files; the others on which it can
depend are *gaps*.

Main definitions:

* `SubmoduleInputs` — what is assumed of `libgit2`;
* `SubmoduleGap` — the files whose change goes wrong.

Main results:

* `submoduleGap_iff` — the gaps are the files of the footprint whose plan does not read the section;
* `submodules_exact_iff` — a refresh keeps the section exact, whatever `libgit2` makes of the files,
  exactly for the files that are no gap.
-/

import Gitseer.Watch.Exact

set_option relaxedAutoImplicit false
set_option autoImplicit false

open StdPath (PathBuf FileName)

namespace Gitseer

/-! ### The Git directories of submodules -/

namespace GitDirs

variable (dirs : GitDirs)

/-- The paths at or below a path of one of the two directories. -/
def below (path : String) : Set PathBuf :=
  {p | ∃ rest, p = dirs.gitDir.descend (namesOf path ++ rest) ∨
    p = dirs.commonDir.descend (namesOf path ++ rest)}

variable {dirs}

theorem text_below_modules {path : PathBuf} (h : path ∈ dirs.below "modules") :
    dirs.text path = "modules" ∨ hasPrefix (dirs.text path) "modules/" = true := by
  have hstart : (PathBuf.relative (namesOf "modules")).toBytes ++ [StdPath.separator] =
      StdPath.bytesOf "modules/" := by decide
  have htext : ∀ rest, (PathBuf.relative (namesOf "modules" ++ rest)).toStringLossy = "modules" ∨
      hasPrefix (PathBuf.relative (namesOf "modules" ++ rest)).toStringLossy "modules/" = true := by
    intro rest
    by_cases hrest : rest = []
    · rw [hrest]
      left
      decide
    · exact Or.inr (hasPrefix_toStringLossy_below (by decide) hrest hstart)
  obtain ⟨rest, rfl | rfl⟩ := h
  · rw [text_gitDir]
    exact htext rest
  · rw [text_commonDir_append (by decide) (by decide)]
    exact htext rest

end GitDirs

/-! ### Submodules -/

/-- The files the submodule section can depend on: the index, the files that say what is checked
out, the configuration, the Git directories of submodules, and what is outside. -/
def submodulesFootprint (dirs : GitDirs) (format : HeadFormat) :
    Footprint PathBuf (Option Content) :=
  (headFootprint dirs format).union
    (.const ({dirs.git "index", dirs.common "config"} ∪ dirs.below "modules" ∪ dirs.outside))

/-- The submodules and their states depend on nothing else. -/
def SubmoduleInputs (dirs : GitDirs) (format : HeadFormat) (repoPath : PathBuf)
    (lib : GitLibrary) : Prop :=
  (submodulesFootprint dirs format).Determines
    (lib.Answers repoPath fun repo => (repo.isBare, repo.submodules, repo.submoduleStatus))

/-- The files on which the submodule section can depend and whose plan does not read it. -/
def SubmoduleGap (dirs : GitDirs) (format : HeadFormat) (files : Files) (path : PathBuf) : Prop :=
  path = dirs.git "index" ∨ path = dirs.common "config" ∨ path = dirs.git "HEAD" ∨
    (∃ b, format.currentBranch dirs files = some b ∧ (path = dirs.branchRef b ∨
      (path = dirs.common "packed-refs" ∧ format.ReadsPacked dirs files b))) ∨
    (path ∈ dirs.below "modules" ∧ dropSuffix (dirs.text path) ".lock" ≠ none)

section

variable {dirs : GitDirs} {format : HeadFormat} {repoPath path : PathBuf} {discover : Discover}
  {before after files : Files}

theorem refreshPlanForGitText_of_modules {text : String}
    (h : text = "modules" ∨ hasPrefix text "modules/" = true) :
    refreshPlanForGitText discover repoPath text = .ofDomains [.paths, .submodules] := by
  rcases h with rfl | h
  · rfl
  · simp (disch := simp [hasPrefix, List.isPrefixOf])
      [refreshPlanForGitText, ne_of_hasPrefix h, hasPrefix_of_apart h, h]

/-- Below `modules` the lock files have no plan. -/
theorem planForText_of_modules_lock {text target : String} (h : hasPrefix text "modules/" = true)
    (hlock : dropSuffix text ".lock" = some target) : planForText discover repoPath text = .none := by
  have htarget := hasPrefix_of_dropSuffix hlock h rfl (by decide)
  simp (disch := simp [hasPrefix, List.isPrefixOf])
    [planForText, lockTargetForGitPath, isOperationPath, hlock, ne_of_hasPrefix htarget,
      hasPrefix_of_apart htarget]

/-- Below `modules` the section is read for every file that is no lock file. -/
theorem reads_submodules_of_modules (h : path ∈ dirs.below "modules") :
    (planForText discover repoPath (dirs.text path)).reads .submodules ↔
      dropSuffix (dirs.text path) ".lock" = none := by
  have htext := dirs.text_below_modules h
  cases hlock : dropSuffix (dirs.text path) ".lock" with
  | none =>
      rw [planForText_of_notLock hlock, refreshPlanForGitText_of_modules htext]
      exact iff_of_true (by decide) rfl
  | some target =>
      have hbelow : hasPrefix (dirs.text path) "modules/" = true := by
        refine htext.resolve_left fun heq => ?_
        have hnone : dropSuffix "modules" ".lock" = none := by decide
        rw [heq, hnone] at hlock
        cases hlock
      rw [planForText_of_modules_lock hbelow hlock]
      exact iff_of_false id (by simp)

theorem mem_submodulesFootprint (hcontrol : dirs.IsControl path) :
    path ∈ (submodulesFootprint dirs format).keys files ↔
      path ∈ (headFootprint dirs format).keys files ∨ path = dirs.git "index" ∨
        path = dirs.common "config" ∨ path ∈ dirs.below "modules" := by
  have hnot : path ∉ dirs.outside := fun h => h hcontrol
  rw [submodulesFootprint, Footprint.mem_union, Footprint.mem_const]
  refine or_congr Iff.rfl ?_
  simp only [Set.mem_union, Set.mem_insert_iff, Set.mem_singleton_iff, hnot, or_false, or_assoc]

theorem not_reads_submodules_of_text (discover : Discover)
    (htext : dirs.text path ∈ ["index", "HEAD", "config", "packed-refs"]) :
    ¬ (planForText discover repoPath (dirs.text path)).reads .submodules := by
  have hstatic : ∀ t ∈ ["index", "HEAD", "config", "packed-refs"],
      hasPrefix t "refs/heads/" = false ∧ ¬ (staticPlan t).reads .submodules := by decide
  obtain ⟨hheads, hnot⟩ := hstatic _ htext
  rwa [reads_iff_static rfl hheads]

/-- The plans of the files that say what is checked out do not read the section. -/
theorem not_reads_submodules_of_head (discover : Discover)
    (h : path ∈ (headFootprint dirs format).keys files) :
    ¬ (planForText discover repoPath (dirs.text path)).reads .submodules := by
  rcases mem_headFootprint.1 h with rfl | ⟨b, -, rfl | ⟨rfl, -⟩⟩
  · refine not_reads_submodules_of_text discover ?_
    rw [dirs.text_git (by decide)]
    decide
  · rw [planForText_branchRef, RefreshPlan.reads_ofDomains]
    split <;> decide
  · refine not_reads_submodules_of_text discover ?_
    rw [dirs.text_common (by decide) (by decide)]
    decide

theorem not_reads_submodules_of_index (discover : Discover) (repoPath : PathBuf) :
    ¬ (planForText discover repoPath (dirs.text (dirs.git "index"))).reads .submodules := by
  refine not_reads_submodules_of_text discover ?_
  rw [dirs.text_git (by decide)]
  decide

theorem not_reads_submodules_of_config (discover : Discover) (repoPath : PathBuf) :
    ¬ (planForText discover repoPath (dirs.text (dirs.common "config"))).reads .submodules := by
  refine not_reads_submodules_of_text discover ?_
  rw [dirs.text_common (by decide) (by decide)]
  decide

/-- The gaps are the control files of the footprint whose plan does not read the section. -/
theorem submoduleGap_iff (discover : Discover) (repoPath : PathBuf)
    (hcontrol : dirs.IsControl path) :
    SubmoduleGap dirs format files path ↔ path ∈ (submodulesFootprint dirs format).keys files ∧
      ¬ (planForText discover repoPath (dirs.text path)).reads .submodules := by
  have hgap : SubmoduleGap dirs format files path ↔ path ∈ (headFootprint dirs format).keys files ∨
      path = dirs.git "index" ∨ path = dirs.common "config" ∨
        (path ∈ dirs.below "modules" ∧ dropSuffix (dirs.text path) ".lock" ≠ none) := by
    rw [mem_headFootprint]
    constructor
    · rintro (h | h | h | h | h)
      exacts [Or.inr (Or.inl h), Or.inr (Or.inr (Or.inl h)), Or.inl (Or.inl h), Or.inl (Or.inr h),
        Or.inr (Or.inr (Or.inr h))]
    · rintro ((h | h) | h | h | h)
      exacts [Or.inr (Or.inr (Or.inl h)), Or.inr (Or.inr (Or.inr (Or.inl h))), Or.inl h,
        Or.inr (Or.inl h), Or.inr (Or.inr (Or.inr (Or.inr h)))]
  rw [hgap, mem_submodulesFootprint hcontrol]
  constructor
  · rintro (hhead | rfl | rfl | ⟨hmodules, hlock⟩)
    · exact ⟨Or.inl hhead, not_reads_submodules_of_head discover hhead⟩
    · exact ⟨Or.inr (Or.inl rfl), not_reads_submodules_of_index discover repoPath⟩
    · exact ⟨Or.inr (Or.inr (Or.inl rfl)), not_reads_submodules_of_config discover repoPath⟩
    · exact ⟨Or.inr (Or.inr (Or.inr hmodules)),
        fun h => hlock ((reads_submodules_of_modules hmodules).1 h)⟩
  · rintro ⟨hhead | hfile | hfile | hmodules, hnot⟩
    · exact Or.inl hhead
    · exact Or.inr (Or.inl hfile)
    · exact Or.inr (Or.inr (Or.inl hfile))
    · exact Or.inr (Or.inr (Or.inr
        ⟨hmodules, fun h => hnot ((reads_submodules_of_modules hmodules).2 h)⟩))

theorem submodules_congr {repo repo' : Repository}
    (h : (repo.isBare, repo.submodules, repo.submoduleStatus) =
      (repo'.isBare, repo'.submodules, repo'.submoduleStatus)) :
    submodules repo = submodules repo' := by
  simp only [Prod.mk.injEq] at h
  obtain ⟨hbare, hlist, hstatus⟩ := h
  have hsummary : submoduleSummary repo = submoduleSummary repo' := by
    funext submodule
    simp only [submoduleSummary, hstatus]
  simp only [submodules, hbare, hlist, hsummary]

/-- A repository with one submodule, which is staged or not. -/
def submoduleRepository (dirs : GitDirs) (staged : Bool) : Repository where
  workdir := some repoRoot
  path := dirs.gitDir
  commondir := dirs.commonDir
  submodules := .ok [{
    name := some "sub"
    path := PathBuf.relative (namesOf "sub")
    url := none
    branch := none
    headId := none
    indexId := if staged then some tipCommit.id else none
    workdirId := none }]

theorem submoduleRepository_snapshot (dirs : GitDirs) (staged : Bool) :
    ∃ s, readSnapshot (submoduleRepository dirs staged) {} = .ok s ∧
      s.identity.gitDir = dirs.gitDir ∧ s.identity.commonDir = dirs.commonDir ∧
      s.head.kind = .unborn ∧ s.submodules.map SubmoduleSummary.indexOid =
        [if staged then some tipCommit.id.hex else none] := by
  cases staged <;> exact ⟨_, rfl, rfl, rfl, rfl, rfl⟩

/-- The section is wrong after a change that stages the submodule, or unstages it, when the plan
does not read it. -/
theorem not_exactAfter_of_staged (staged : Files → Bool) (hcontrol : dirs.IsControl path)
    (hgap : SubmoduleGap dirs format before path) (hstaged : staged before ≠ staged after) :
    ¬ ExactAfter (fun files _ => .ok (submoduleRepository dirs (staged files))) repoPath dirs
      .submodules before after path := by
  obtain ⟨s, hs, hgit, hcommon, hunborn, hlist⟩ :=
    submoduleRepository_snapshot dirs (staged before)
  obtain ⟨s', hs', -, -, -, hlist'⟩ := submoduleRepository_snapshot dirs (staged after)
  have hne : s.submodules ≠ s'.submodules := by
    intro heq
    rw [heq, hlist'] at hlist
    revert hstaged hlist
    cases staged before <;> cases staged after <;> decide
  exact not_exactAfter hcontrol hs hgit hcommon hs' ((submoduleGap_iff _ repoPath hcontrol).1 hgap).2
    (fun _ => Or.inr (by rw [hunborn]; decide)) hne

/-- A refresh for a changed control file keeps the submodule section exact, whatever `libgit2`
makes of the files, when the file is no gap, and only then. -/
theorem submodules_exact_iff (hcontrol : dirs.IsControl path)
    (hchange : Footprint.Changed before after path) :
    (∀ lib, SubmoduleInputs dirs format repoPath lib →
        ExactAfter lib repoPath dirs .submodules before after path) ↔
      ¬ SubmoduleGap dirs format before path := by
  constructor
  · intro hexact hgap
    -- some answer of the footprint notices the change; let it say whether the submodule is staged
    have hpath := ((submoduleGap_iff (fun _ => .ok plainRepository) repoPath hcontrol).1 hgap).1
    obtain ⟨answer, hanswer, hbefore, hafter⟩ := Footprint.exists_told_apart hchange hpath
    refine not_exactAfter_of_staged answer hcontrol hgap ?_ (hexact _ ?_)
    · rw [hbefore, hafter]
      decide
    · rintro f g _ _ ⟨_, hf, rfl⟩ ⟨_, hg, rfl⟩ heq
      obtain rfl := Except.ok.inj hf
      obtain rfl := Except.ok.inj hg
      rw [hanswer f g _ _ rfl rfl heq]
  · intro hgap lib hlib
    refine exactAfter_of_reads_or_same (by decide) hcontrol ?_
    intro options snapshot full hsnapshot hfull
    rw [submoduleGap_iff (lib after) repoPath hcontrol, not_and, not_not] at hgap
    by_cases hpath : path ∈ (submodulesFootprint dirs format).keys before
    · exact Or.inl (hgap hpath)
    · exact Or.inr (part_eq_of_changed (fun _ _ => submodules_congr) hlib hchange hpath hsnapshot
        hfull)

end

/-! ### Staging a submodule -/

/-- The first bytes of an index with the given number of entries. -/
def indexHeader (entries : UInt8) : Content :=
  StdPath.bytesOf "DIRC" ++ [0, 0, 0, 2, 0, 0, 0, entries]

/-- The files of a repository without commits and with nothing staged. -/
def unstagedFiles : Files :=
  Function.update
    (Function.update (fun _ => none) (plainDirs.git "HEAD")
      (some (StdPath.bytesOf "ref: refs/heads/main\n")))
    (plainDirs.git "index") (some (indexHeader 0))

/-- The files after the submodule was staged. -/
def stagedFiles : Files :=
  Function.update unstagedFiles (plainDirs.git "index") (some (indexHeader 1))

/-- The submodule is staged when the index has an entry. -/
def stagingLibrary : GitLibrary := fun files _ =>
  .ok (submoduleRepository plainDirs (files (plainDirs.git "index") = some (indexHeader 1)))

theorem stagingLibrary_inputs : SubmoduleInputs plainDirs mainFormat repoRoot stagingLibrary := by
  rintro f g _ _ ⟨_, hf, rfl⟩ ⟨_, hg, rfl⟩ heq
  obtain rfl := Except.ok.inj hf
  obtain rfl := Except.ok.inj hg
  have hindex : f (plainDirs.git "index") = g (plainDirs.git "index") :=
    heq (Or.inr (Or.inl (Or.inl (Or.inl rfl))))
  rw [hindex]

theorem stagedFiles_changed :
    Footprint.Changed unstagedFiles stagedFiles (plainDirs.git "index") :=
  Footprint.changed_update (by decide)

/-- Staging a submodule changes the index, whose plan reads the paths only: the refreshed snapshot
still has the submodule as it was. -/
theorem staged_submodule_stale :
    SubmoduleInputs plainDirs mainFormat repoRoot stagingLibrary ∧
    Footprint.Changed unstagedFiles stagedFiles (plainDirs.git "index") ∧
    ¬ ExactAfter stagingLibrary repoRoot plainDirs .submodules unstagedFiles stagedFiles
      (plainDirs.git "index") := by
  refine ⟨stagingLibrary_inputs, stagedFiles_changed, ?_⟩
  have hgap : SubmoduleGap plainDirs mainFormat unstagedFiles (plainDirs.git "index") := Or.inl rfl
  exact not_exactAfter_of_staged _ (GitDirs.isControl_git _) hgap (by decide)

/-- A change below `modules` is no gap, so the submodules are exact after it. -/
theorem submodules_exact_iff_modules :
    ExactAfter stagingLibrary repoRoot plainDirs .submodules unstagedFiles
      (Function.update unstagedFiles (plainDirs.git "modules/sub/HEAD") (some []))
      (plainDirs.git "modules/sub/HEAD") := by
  have hgap : ¬ SubmoduleGap plainDirs mainFormat unstagedFiles
      (plainDirs.git "modules/sub/HEAD") := by
    rintro (h | h | h | ⟨b, hb, h | ⟨h, -⟩⟩ | ⟨-, h⟩)
    · exact absurd h (by decide)
    · exact absurd h (by decide)
    · exact absurd h (by decide)
    · obtain rfl : mainBranch = b := Option.some.inj hb
      exact absurd h (by decide)
    · exact absurd h (by decide)
    · exact h (by decide)
  exact (submodules_exact_iff (GitDirs.isControl_git _) (Footprint.changed_update (by decide))).2
    hgap _ stagingLibrary_inputs

end Gitseer
