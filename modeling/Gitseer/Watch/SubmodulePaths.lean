/-
**Changes inside a submodule.**

The snapshot's submodule section says of every submodule whether its worktree is modified, so a
change at or below the path of a submodule has to refresh the section, besides the paths.  The
classifier asks whether a path is inside a submodule only after its other rules.  Two of those
answer by the last name or the identity of the path alone, whatever directory it is in: a file with
ignore rules and the configured excludes file refresh the paths only.

Main definitions:

* `RefreshesSubmodules` — every mutating event that names the path reads the paths and submodules.

Main results:

* `refreshPlanForWorktreePath_inside` — the plan of a path inside a submodule;
* `refreshesSubmodules_iff` — which paths at or below a submodule refresh the section.
-/

import Gitseer.Watch.Control
import Gitseer.Watch.Roots

set_option relaxedAutoImplicit false
set_option autoImplicit false

open StdPath (PathBuf FileName)

namespace Gitseer

section

variable {discover : Discover} {repoPath root gitDir commonDir path relative : PathBuf}
  {repo : Repository} {submodules : List Submodule} {s : Submodule}

/-- A path at or below that of a submodule is inside it. -/
theorem pathIsInsideSubmodule_of_mem (hrepo : discover repoPath = .ok repo)
    (hsubmodules : repo.submodules = .ok submodules) (hs : s ∈ submodules)
    (hbelow : relative.startsWith s.path = true) :
    pathIsInsideSubmodule discover repoPath relative = true := by
  simp only [pathIsInsideSubmodule, hrepo, hsubmodules, List.any_eq_true, Bool.or_eq_true]
  exact ⟨s, hs, .inr hbelow⟩

/-- The plan of a path inside a submodule: the rules for ignore files and for `.git` come first. -/
theorem refreshPlanForWorktreePath_inside
    (hinside : pathIsInsideSubmodule discover repoPath relative = true) :
    refreshPlanForWorktreePath discover repoPath relative =
      if isIgnoreRulePath relative then .ofDomains [.paths]
      else if relative = PathBuf.relative [gitName] then .ofDomains [.identity, .worktrees]
      else .ofDomains [.paths, .submodules] := by
  unfold refreshPlanForWorktreePath
  rw [hinside, if_pos rfl, ite_self]

/-- Every mutating event that names the path reads the paths and the submodules. -/
def RefreshesSubmodules (discover : Discover) (repoPath : PathBuf)
    (worktreeRoot : Option PathBuf) (gitDir commonDir path : PathBuf) : Prop :=
  ∀ event, isMutatingEvent event = true → path ∈ event.paths →
    (refreshPlanForEvent discover (.ok event) repoPath worktreeRoot gitDir commonDir).reads
        .paths ∧
      (refreshPlanForEvent discover (.ok event) repoPath worktreeRoot gitDir commonDir).reads
        .submodules

theorem refreshesSubmodules_iff_path {worktreeRoot : Option PathBuf} :
    RefreshesSubmodules discover repoPath worktreeRoot gitDir commonDir path ↔
      (refreshPlanForPath discover repoPath worktreeRoot gitDir commonDir path).reads .paths ∧
        (refreshPlanForPath discover repoPath worktreeRoot gitDir commonDir path).reads
          .submodules := by
  rw [← forall_event_reads_iff, ← forall_event_reads_iff]
  simp only [RefreshesSubmodules, imp_and, forall_and]

/-- A path at or below that of a submodule refreshes the section exactly when it is not the
configured excludes file, its last name is not `.gitignore`, and it is not `.git` itself. -/
theorem refreshesSubmodules_iff {below names : List FileName}
    (hrepo : discover repoPath = .ok repo) (hsubmodules : repo.submodules = .ok submodules)
    (hs : s ∈ submodules) (hrelative : s.path = PathBuf.relative below)
    (hpath : path = root.descend (below ++ names)) (hgit : path.startsWith gitDir = false)
    (hcommon : path.startsWith commonDir = false) :
    RefreshesSubmodules discover repoPath (some root) gitDir commonDir path ↔
      isConfiguredExcludesFile discover repoPath path = false ∧
        isIgnoreRulePath (PathBuf.relative (below ++ names)) = false ∧ below ++ names ≠ [gitName] := by
  have hroot : path.startsWith root = true := by
    rw [hpath]
    exact PathBuf.startsWith_descend _ _
  have hstrip : path.stripPrefix root = some (PathBuf.relative (below ++ names)) := by
    rw [hpath]
    exact PathBuf.stripPrefix_descend _ _
  have hinside : pathIsInsideSubmodule discover repoPath (PathBuf.relative (below ++ names)) =
      true := by
    refine pathIsInsideSubmodule_of_mem hrepo hsubmodules hs ?_
    rw [hrelative]
    exact PathBuf.startsWith_descend (PathBuf.relative below) names
  rw [refreshesSubmodules_iff_path]
  unfold refreshPlanForPath
  simp only [hgit, hcommon, hroot, hstrip, refreshPlanForWorktreePath_inside hinside, Bool.or_self,
    Bool.false_eq_true, if_false, Bool.not_true]
  -- one case for every rule that comes before the one for submodules
  split_ifs with hexcludes hignore hgitFile
  · simp [RefreshPlan.reads_ofDomains, hexcludes]
  · simp [RefreshPlan.reads_ofDomains, hignore]
  · have hnames : below ++ names = [gitName] := by
      simpa [PathBuf.relative] using hgitFile
    simp [RefreshPlan.reads_ofDomains, hnames]
  · have hnames : below ++ names ≠ [gitName] := fun h => hgitFile (congrArg PathBuf.relative h)
    simp [RefreshPlan.reads_ofDomains, hexcludes, hignore, hnames]

end

/-! ### The ignore rules of a submodule -/

def subName : FileName := FileName.ofString "sub"

/-- The submodule at `sub`. -/
def subSubmodule : Submodule where
  name := some "sub"
  path := PathBuf.relative [subName]
  url := none
  branch := none
  headId := none
  indexId := none
  workdirId := none

def subRepository : Repository := { plainRepository with submodules := .ok [subSubmodule] }

/-- The submodule's own ignore rules are changed: the submodule is modified, and its section is
kept. -/
theorem submodule_ignore_rules_stale :
    subSubmodule ∈ [subSubmodule] ∧
    ¬ RefreshesSubmodules (fun _ => .ok subRepository) repoRoot (some repoRoot) repoGitDir repoGitDir
      (repoRoot.descend [subName, gitignoreName]) := by
  refine ⟨List.mem_singleton.2 rfl, ?_⟩
  rw [refreshesSubmodules_iff_path]
  decide

/-- A file in the source directory of the submodule refreshes the section. -/
theorem refreshesSubmodules_iff_source :
    RefreshesSubmodules (fun _ => .ok subRepository) repoRoot (some repoRoot) repoGitDir repoGitDir
      (repoRoot.descend [subName, srcName, forcedName]) :=
  (@refreshesSubmodules_iff (fun _ => .ok subRepository) repoRoot repoRoot repoGitDir repoGitDir _
    subRepository [subSubmodule] subSubmodule [subName] [srcName, forcedName] rfl rfl
    (List.mem_singleton.2 rfl) rfl rfl (by decide) (by decide)).2 (by decide)

end Gitseer
