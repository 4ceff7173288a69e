/-
**What the ignore filter hides.**

An event that names a path of the worktree is dropped when the ignore rules apply to the path, or
would apply to a child of it.  The path section, whose refresh is saved this way, is read from the
index and the real tree: it reports changes of tracked files whether or not a rule applies to them,
and an untracked file is none of a rule that is about directories.  The filter hides reportable
changes exactly where the two disagree.

Main definitions:

* `Reportable` — the paths on which the default path section can depend;
* `HandledBefore` — the paths that the filter is not asked about;
* `NeverHidden` — no mutating event that names the path is dropped.

Main results:

* `refreshPlanForPath_eq_none_iff` — which paths of the worktree have no plan;
* `refreshPlanForEvent_eq_none_iff` — which mutating events have none;
* `neverHidden_iff` — when no event about a reportable path is dropped.
-/

import Gitseer.Watch.Control
import Gitseer.Watch.Roots

set_option relaxedAutoImplicit false
set_option autoImplicit false

open StdPath (PathBuf FileName)

namespace Gitseer

/-! ### Which events have no plan -/

theorem RefreshPlan.ofDomains_cons_ne_none (d : RefreshDomain) (domains : List RefreshDomain) :
    RefreshPlan.ofDomains (d :: domains) ≠ .none := by
  intro h
  have hreads : (RefreshPlan.ofDomains (d :: domains)).reads d :=
    RefreshPlan.reads_ofDomains.2 List.mem_cons_self
  rw [h] at hreads
  exact hreads

theorem RefreshPlan.le_none_iff {p : RefreshPlan} : p ≤ .none ↔ p = .none := le_bot_iff

/-- A combination is no plan when every part of it is none. -/
theorem foldl_combine_eq_none {α : Type} {f : α → RefreshPlan} {l : List α} {plan : RefreshPlan} :
    l.foldl (fun plan a => plan.combine (f a)) plan = .none ↔
      plan = .none ∧ ∀ a ∈ l, f a = .none := by
  have hle : l.foldl (fun plan a => plan.combine (f a)) plan ≤ .none ↔
      plan ≤ .none ∧ ∀ a ∈ l, f a ≤ .none := Join.foldl_sup_le_iff
  simpa only [RefreshPlan.le_none_iff] using hle

section

variable {discover : Discover} {repoPath : PathBuf} {worktreeRoot : Option PathBuf}
  {gitDir commonDir : PathBuf}

/-- A mutating event has no plan when none of its paths has one. -/
theorem refreshPlanForEvent_eq_none_iff {event : Event} (hmut : isMutatingEvent event = true) :
    refreshPlanForEvent discover (.ok event) repoPath worktreeRoot gitDir commonDir = .none ↔
      event.rescan = false ∧ event.paths ≠ [] ∧ ∀ path ∈ event.paths,
        refreshPlanForPath discover repoPath worktreeRoot gitDir commonDir path = .none := by
  unfold refreshPlanForEvent Event.needRescan
  by_cases hrescan : event.rescan = true
  · simp [hrescan]
  · by_cases hpaths : event.paths = []
    · simp [hrescan, hmut, hpaths]
    · simp [hrescan, hmut, hpaths, foldl_combine_eq_none]

/-- The paths of the worktree that an earlier rule of the classifier answers for: the excludes
file, files with ignore rules, what belongs to `.git` or `.gitmodules`, and submodules. -/
def HandledBefore (discover : Discover) (repoPath path relative : PathBuf) : Prop :=
  isConfiguredExcludesFile discover repoPath path = true ∨ isIgnoreRulePath relative = true ∨
    relative = PathBuf.relative [gitName] ∨ relative = PathBuf.relative [gitmodulesName] ∨
    pathHasComponent relative ".git" = true ∨
    pathIsInsideSubmodule discover repoPath relative = true

/-- A path of the worktree has no plan when it tests as ignored and no earlier rule answers. -/
theorem refreshPlanForPath_eq_none_iff {root path relative : PathBuf} {repo : Repository}
    (hrepo : discover repoPath = .ok repo) (hgit : path.startsWith gitDir = false)
    (hcommon : path.startsWith commonDir = false) (hrelative : path.stripPrefix root = some relative) :
    refreshPlanForPath discover repoPath (some root) gitDir commonDir path = .none ↔
      ¬ HandledBefore discover repoPath path relative ∧
        pathShouldBeIgnored repo relative = true := by
  have hroot : path.startsWith root = true := by
    by_contra hnot
    rw [Bool.not_eq_true] at hnot
    rw [PathBuf.stripPrefix_eq_none hnot] at hrelative
    cases hrelative
  have hdomains := RefreshPlan.ofDomains_cons_ne_none
  unfold refreshPlanForPath refreshPlanForWorktreePath HandledBefore
  simp only [hgit, hcommon, hroot, hrelative, hrepo, Bool.or_self, Bool.false_eq_true, if_false,
    Bool.not_true]
  -- one case for every test of the classifier, in its order
  split_ifs with h₁ h₂ h₃ h₄ h₅ h₆
  · exact iff_of_false (hdomains _ _) fun h => h.1 (Or.inl h₁)
  · exact iff_of_false (hdomains _ _) fun h => h.1 (Or.inr (Or.inl h₂))
  · exact iff_of_false (hdomains _ _) fun h => h.1 (Or.inr (Or.inr (Or.inl h₃)))
  · rw [Bool.or_eq_true, decide_eq_true_eq] at h₄
    refine iff_of_false (hdomains _ _) fun h => h.1 (Or.inr (Or.inr (Or.inr ?_)))
    exact h₄.imp_right Or.inl
  · exact iff_of_false (hdomains _ _)
      fun h => h.1 (Or.inr (Or.inr (Or.inr (Or.inr (Or.inr h₅)))))
  · rw [Bool.or_eq_true, decide_eq_true_eq, not_or] at h₄
    refine iff_of_true rfl ⟨?_, h₆⟩
    rintro (h | h | h | h | h | h)
    exacts [h₁ h, h₂ h, h₃ h, h₄.1 h, h₄.2 h, h₅ h]
  · exact iff_of_false (hdomains _ _) fun h => h₆ h.2

/-! ### When no reportable change is hidden -/

/-- The paths on which the path section can depend when ignored paths are not asked for: tracked
paths, and untracked ones that are not ignored. -/
def Reportable (repo : Repository) (relative : PathBuf) : Prop :=
  repo.Tracks relative ∨ repo.ignores relative = false

/-- No mutating event that names the path is dropped. -/
def NeverHidden (discover : Discover) (repoPath : PathBuf) (worktreeRoot : Option PathBuf)
    (gitDir commonDir path : PathBuf) : Prop :=
  ∀ event, isMutatingEvent event = true → path ∈ event.paths →
    refreshPlanForEvent discover (.ok event) repoPath worktreeRoot gitDir commonDir ≠ .none

/-- A path is never hidden when it has a plan of its own. -/
theorem neverHidden_iff_path {path : PathBuf} :
    NeverHidden discover repoPath worktreeRoot gitDir commonDir path ↔
      refreshPlanForPath discover repoPath worktreeRoot gitDir commonDir path ≠ .none := by
  constructor
  · intro h hnone
    have hmut : isMutatingEvent ⟨.modify .data, [path], false⟩ = true := rfl
    refine h _ hmut (List.mem_singleton.2 rfl) ((refreshPlanForEvent_eq_none_iff hmut).2 ?_)
    exact ⟨rfl, by simp, fun p hp => List.mem_singleton.1 hp ▸ hnone⟩
  · intro h event hmut hmem hnone
    exact h (((refreshPlanForEvent_eq_none_iff hmut).1 hnone).2.2 path hmem)

/-- The changes of a reportable path are never hidden exactly when an earlier rule answers for it,
or it is not the case that a rule applies to it although it is tracked, and no rule applies to the
child that is made up for it. -/
theorem neverHidden_iff {root path relative : PathBuf} {repo : Repository}
    (hrepo : discover repoPath = .ok repo) (hgit : path.startsWith gitDir = false)
    (hcommon : path.startsWith commonDir = false)
    (hrelative : path.stripPrefix root = some relative) :
    (Reportable repo relative → NeverHidden discover repoPath (some root) gitDir commonDir path) ↔
      HandledBefore discover repoPath path relative ∨
        (repo.Tracks relative → repo.ignores relative = false) ∧
        (Reportable repo relative →
          repo.ignores (relative.join (PathBuf.relative [probeName])) = false) := by
  rw [neverHidden_iff_path, Ne, refreshPlanForPath_eq_none_iff hrepo hgit hcommon hrelative,
    not_and]
  unfold pathShouldBeIgnored Reportable
  rw [Bool.or_eq_true]
  by_cases hhandled : HandledBefore discover repoPath path relative
  · exact iff_of_true (fun _ h => absurd hhandled h) (Or.inl hhandled)
  · simp only [hhandled, not_false_eq_true, true_implies, not_or, Bool.not_eq_true, false_or]
    tauto

end

/-! ### A tracked file and an untracked one -/

/-- The rule is `build`, a file below it was added all the same, and its changes are dropped. -/
theorem forced_file_hidden :
    Reportable buildRepository (PathBuf.relative [buildName, forcedName]) ∧
    ¬ NeverHidden (fun _ => .ok buildRepository) repoRoot (some repoRoot) repoGitDir repoGitDir
      (repoRoot.descend [buildName, forcedName]) := by
  refine ⟨Or.inl ⟨_, rfl, _, List.mem_singleton.2 rfl, by decide⟩, ?_⟩
  intro h
  refine h ⟨.modify .data, [repoRoot.descend [buildName, forcedName]], false⟩ rfl
    (List.mem_singleton.2 rfl) ?_
  decide

/-- The rule is `build/`, which is about a directory. -/
def directoryRuleRepository : Repository :=
  { plainRepository with
    statusShouldIgnore := fun path =>
      .ok (path.names.head? = some buildName && 1 < path.names.length) }

/-- A file with the name of the directory, which is not ignored, is hidden by the child that is
made up for it. -/
theorem neverHidden_iff_directoryRule :
    ¬ (Reportable directoryRuleRepository (PathBuf.relative [buildName]) →
      NeverHidden (fun _ => .ok directoryRuleRepository) repoRoot (some repoRoot) repoGitDir
        repoGitDir (repoRoot.descend [buildName])) := by
  have hshown : Reportable directoryRuleRepository (PathBuf.relative [buildName]) :=
    Or.inr (by decide)
  rw [neverHidden_iff rfl (by decide) (by decide) (PathBuf.stripPrefix_descend _ _)]
  rintro (hhandled | ⟨-, hprobed⟩)
  · unfold HandledBefore at hhandled
    revert hhandled
    decide
  · exact absurd (hprobed hshown) (by decide)

end Gitseer
