/-
**Control files and the plans for them.**

The classifier sees a control file as a text: the path below the Git directory or else below the
common directory, decoded with losses.  This module says what that text is for the files that the
sections of a snapshot depend on, and which plan the cascade of tests gives for a text: for a fixed
one by computation, for all texts below a directory by comparing prefixes.

Main definitions:

* `GitDirs` — the Git directory and the common directory of a repository;
* `GitDirs.text` — the text of a control file;
* `planForText` — the plan for a text, lock files included.

Main results:

* `GitDirs.text_gitDir`, `GitDirs.text_commonDir` — the texts of control files;
* `hasPrefix_of_apart`, `hasPrefix_of_dropSuffix` — how the tests of the cascade and the rewriting
  of lock files go together;
* `reads_refreshPlanForEvent` — an event reads what the plan of a path it names reads.
-/

import Gitseer.Watch.Classify

set_option relaxedAutoImplicit false
set_option autoImplicit false

open StdPath (PathBuf FileName)

namespace Gitseer

/-! ### Prefixes and endings of texts -/

section

variable {text a b : String}

/-- A text cannot start in two ways that differ. -/
theorem hasPrefix_of_apart (h : hasPrefix text a = true) (hab : hasPrefix a b = false)
    (hba : hasPrefix b a = false) : hasPrefix text b = false := by
  by_contra hb
  rw [Bool.not_eq_false] at hb
  rcases List.prefix_or_prefix_of_prefix (hasPrefix_iff.1 h) (hasPrefix_iff.1 hb) with hpre | hpre
  · rw [hasPrefix_iff.2 hpre] at hba
    exact absurd hba (by simp)
  · rw [hasPrefix_iff.2 hpre] at hab
    exact absurd hab (by simp)

theorem ne_of_hasPrefix (h : hasPrefix text a = true) (hba : hasPrefix b a = false) :
    text ≠ b := by
  rintro rfl
  rw [h] at hba
  exact absurd hba (by simp)

theorem dropPrefix_eq_some {rest : String} :
    dropPrefix text a = some rest ↔ text.toList = a.toList ++ rest.toList := by
  unfold dropPrefix
  constructor
  · intro h
    split at h
    · next hpre =>
        obtain ⟨l, hl⟩ := hasPrefix_iff.1 hpre
        obtain rfl := Option.some.inj h
        rw [← hl]
        simp
    · cases h
  · intro h
    have hpre : hasPrefix text a = true := hasPrefix_iff.2 ⟨rest.toList, h.symm⟩
    rw [if_pos hpre, h]
    simp

theorem dropSuffix_eq_some {rest : String} :
    dropSuffix text a = some rest ↔ text.toList = rest.toList ++ a.toList := by
  unfold dropSuffix
  constructor
  · intro h
    split at h
    · next hsuf =>
        obtain ⟨l, hl⟩ := List.isSuffixOf_iff_suffix.1 hsuf
        obtain rfl := Option.some.inj h
        rw [← hl]
        simp
    · cases h
  · intro h
    have hsuf : a.toList.isSuffixOf text.toList = true :=
      List.isSuffixOf_iff_suffix.2 ⟨rest.toList, h.symm⟩
    rw [if_pos hsuf, h]
    simp

/-- The text of a path below a directory starts with that of the directory and a separator. -/
theorem hasPrefix_toStringLossy_below {dir rest : List FileName} (hdir : dir ≠ [])
    (hrest : rest ≠ [])
    (hstart : (PathBuf.relative dir).toBytes ++ [StdPath.separator] = StdPath.bytesOf a) :
    hasPrefix (PathBuf.relative (dir ++ rest)).toStringLossy a = true := by
  rw [hasPrefix_iff, PathBuf.toStringLossy_below hdir hrest hstart]
  exact List.prefix_append _ _

/-- Dropping an ending does not reach back over a character the ending does not have. -/
theorem hasPrefix_of_dropSuffix {ending rest : String} {c : Char}
    (h : dropSuffix text ending = some rest) (ha : hasPrefix text a = true)
    (hlast : a.toList.getLast? = some c) (hc : c ∉ ending.toList) : hasPrefix rest a = true := by
  obtain ⟨l, hl⟩ := hasPrefix_iff.1 ha
  rw [dropSuffix_eq_some.1 h] at hl
  rcases List.append_eq_append_iff.1 hl with ⟨m, hm, -⟩ | ⟨m, hm, hend⟩
  · exact hasPrefix_iff.2 ⟨m, hm.symm⟩
  · by_cases hnil : m = []
    · rw [hnil, List.append_nil] at hm
      exact hasPrefix_iff.2 ⟨[], by rw [hm, List.append_nil]⟩
    · -- the prefix goes on into the ending, with its last character
      have hmlast : m.getLast? = some c := by
        rw [← hlast, hm, List.getLast?_append_of_ne_nil _ hnil]
      refine absurd ?_ hc
      rw [hend]
      exact List.mem_append_left _ (List.mem_of_getLast? hmlast)

end

/-! ### The places of control files -/

/-- The names of a path written as a string. -/
def namesOf (path : String) : List FileName := (PathBuf.ofString path).names

/-- The Git directory and the common directory of a repository. -/
structure GitDirs where
  gitDir : PathBuf
  commonDir : PathBuf
  /-- They are the same, or the Git directory is that of a linked worktree, or it is elsewhere. -/
  standard : gitDir = commonDir ∨
    (∃ name, gitDir = commonDir.descend (namesOf "worktrees" ++ [name])) ∨
    (gitDir.startsWith commonDir = false ∧ commonDir.startsWith gitDir = false)

namespace GitDirs

variable (dirs : GitDirs)

/-- A file of the Git directory. -/
def git (path : String) : PathBuf := dirs.gitDir.descend (namesOf path)

/-- A file of the common directory. -/
def common (path : String) : PathBuf := dirs.commonDir.descend (namesOf path)

/-- Is the path in one of the two directories? -/
def IsControl (path : PathBuf) : Prop :=
  (path.startsWith dirs.gitDir || path.startsWith dirs.commonDir) = true

/-- What the classifier sees of a control file. -/
def text (path : PathBuf) : String :=
  ((gitRelative dirs.gitDir dirs.commonDir path).getD path).toStringLossy

variable {dirs}

theorem gitRelative_gitDir (names : List FileName) :
    gitRelative dirs.gitDir dirs.commonDir (dirs.gitDir.descend names) =
      some (PathBuf.relative names) := by
  rw [gitRelative, PathBuf.stripPrefix_descend, Option.some_or]

/-- A file of the common directory is not below the Git directory, unless they are the same or it
is in `worktrees`. -/
theorem not_startsWith_gitDir {names : List FileName}
    (hnames : names.head? ≠ (namesOf "worktrees").head?) (hne : dirs.gitDir ≠ dirs.commonDir) :
    (dirs.commonDir.descend names).startsWith dirs.gitDir = false := by
  by_contra hstarts
  rw [Bool.not_eq_false, PathBuf.startsWith_iff] at hstarts
  -- a linked worktree has its Git directory in `worktrees`, where the file is not
  rcases dirs.standard with heq | ⟨name, hlinked⟩ | ⟨hgit, hcommon⟩
  · exact hne heq
  · rcases hstarts with hempty | ⟨rest, hrest⟩
    · rw [hlinked] at hempty
      exact absurd (congrArg PathBuf.names hempty) (by simp [PathBuf.descend, PathBuf.empty])
    · rw [hlinked, ← PathBuf.descend_append] at hrest
      rw [PathBuf.descend_injective _ hrest] at hnames
      exact hnames rfl
  · rcases hstarts with hempty | ⟨rest, hrest⟩
    · rw [PathBuf.startsWith_iff.2 (Or.inl hempty)] at hcommon
      exact absurd hcommon (by simp)
    · rcases PathBuf.nested_of_descend_eq hrest with h | h
      · rw [h] at hcommon
        exact absurd hcommon (by simp)
      · rw [h] at hgit
        exact absurd hgit (by simp)

theorem gitRelative_commonDir {names : List FileName}
    (hnames : names.head? ≠ (namesOf "worktrees").head?) :
    gitRelative dirs.gitDir dirs.commonDir (dirs.commonDir.descend names) =
      some (PathBuf.relative names) := by
  by_cases hsame : dirs.gitDir = dirs.commonDir
  · have hgit := @gitRelative_gitDir dirs names
    rwa [hsame] at hgit ⊢
  · rw [gitRelative, PathBuf.stripPrefix_eq_none (not_startsWith_gitDir hnames hsame),
      Option.none_or, PathBuf.stripPrefix_descend]

theorem text_gitDir (names : List FileName) :
    dirs.text (dirs.gitDir.descend names) = (PathBuf.relative names).toStringLossy := by
  rw [text, gitRelative_gitDir, Option.getD_some]

theorem text_commonDir {names : List FileName}
    (hnames : names.head? ≠ (namesOf "worktrees").head?) :
    dirs.text (dirs.commonDir.descend names) = (PathBuf.relative names).toStringLossy := by
  rw [text, gitRelative_commonDir hnames, Option.getD_some]

theorem text_commonDir_append {names rest : List FileName} (hne : names ≠ [])
    (hnames : names.head? ≠ (namesOf "worktrees").head?) :
    dirs.text (dirs.commonDir.descend (names ++ rest)) =
      (PathBuf.relative (names ++ rest)).toStringLossy :=
  text_commonDir (by rwa [List.head?_append_of_ne_nil _ hne])

/-- The text of a file of the Git directory. -/
theorem text_git {path : String}
    (hpath : (PathBuf.relative (namesOf path)).toStringLossy = path) :
    dirs.text (dirs.git path) = path := by
  rw [git, text_gitDir, hpath]

/-- The text of a file of the common directory. -/
theorem text_common {path : String}
    (hpath : (PathBuf.relative (namesOf path)).toStringLossy = path)
    (hnames : (namesOf path).head? ≠ (namesOf "worktrees").head?) :
    dirs.text (dirs.common path) = path := by
  rw [common, text_commonDir hnames, hpath]

theorem isControl_git (path : String) : dirs.IsControl (dirs.git path) := by
  rw [IsControl, git, PathBuf.startsWith_descend, Bool.true_or]

theorem isControl_common (path : String) : dirs.IsControl (dirs.common path) := by
  rw [IsControl, common, PathBuf.startsWith_descend, Bool.or_true]

end GitDirs

/-! ### Plans for texts -/

section

variable (discover : Discover) (repoPath : PathBuf)

/-- The plan for a text, that of a lock file being the plan for the file it replaces. -/
def planForText (text : String) : RefreshPlan :=
  match lockTargetForGitPath text with
  | .known target => refreshPlanForGitText discover repoPath target
  | .unmodeled => .none
  | .notLock => refreshPlanForGitText discover repoPath text

theorem refreshPlanForGitPath_eq (dirs : GitDirs) (path : PathBuf) :
    refreshPlanForGitPath discover repoPath dirs.gitDir dirs.commonDir path =
      planForText discover repoPath (dirs.text path) := rfl

variable {discover repoPath} {text target : String}

theorem planForText_of_notLock (h : dropSuffix text ".lock" = none) :
    planForText discover repoPath text = refreshPlanForGitText discover repoPath text := by
  simp [planForText, lockTargetForGitPath, h]

/-- A lock file of a reference stands for the reference. -/
theorem planForText_of_ref_lock (h : dropSuffix text ".lock" = some target)
    (href : hasPrefix target "refs/" = true) :
    planForText discover repoPath text = refreshPlanForGitText discover repoPath target := by
  simp [planForText, lockTargetForGitPath, h, href]

/-- A lock file of an operation file stands for that file. -/
theorem planForText_of_operation_lock (h : dropSuffix text ".lock" = some target)
    (hop : isOperationPath target = true) :
    planForText discover repoPath text = refreshPlanForGitText discover repoPath target := by
  simp [planForText, lockTargetForGitPath, h, hop]

/-- Only below `refs/heads` does a plan depend on the repository. -/
theorem refreshPlanForGitText_congr (h : hasPrefix text "refs/heads/" = false)
    (discover' : Discover) (repoPath' : PathBuf) :
    refreshPlanForGitText discover repoPath text = refreshPlanForGitText discover' repoPath' text := by
  simp only [refreshPlanForGitText, h, Bool.false_eq_true, if_false]

theorem planForText_congr (h : hasPrefix text "refs/heads/" = false)
    (discover' : Discover) (repoPath' : PathBuf) :
    planForText discover repoPath text = planForText discover' repoPath' text := by
  unfold planForText
  cases hlock : lockTargetForGitPath text with
  | known target =>
      refine refreshPlanForGitText_congr ?_ discover' repoPath'
      by_contra htarget
      rw [Bool.not_eq_false] at htarget
      -- the file that a lock file stands for is a prefix of it
      have hdrop : dropSuffix text ".lock" = some target := by
        unfold lockTargetForGitPath at hlock
        split at hlock
        · cases hlock
        · next t ht =>
            split at hlock
            · obtain rfl := LockTarget.known.inj hlock
              exact ht
            · cases hlock
      have htext : target.toList <+: text.toList := ⟨_, (dropSuffix_eq_some.1 hdrop).symm⟩
      rw [hasPrefix_iff.2 ((hasPrefix_iff.1 htarget).trans htext)] at h
      cases h
  | unmodeled => rfl
  | notLock => exact refreshPlanForGitText_congr h discover' repoPath'

end

/-- The plan for a text where no repository is found. -/
def staticPlan (text : String) : RefreshPlan :=
  planForText (fun _ => .error ⟨.notFound, "not found"⟩) PathBuf.empty text

theorem planForText_eq_static {discover : Discover} {repoPath : PathBuf} {text : String}
    (h : hasPrefix text "refs/heads/" = false) :
    planForText discover repoPath text = staticPlan text :=
  planForText_congr h _ _

/-- So what such a plan reads can be computed. -/
theorem reads_iff_static {discover : Discover} {repoPath : PathBuf} {text t : String}
    {d : RefreshDomain} (htext : text = t) (h : hasPrefix t "refs/heads/" = false) :
    (planForText discover repoPath text).reads d ↔ (staticPlan t).reads d := by
  rw [htext, planForText_eq_static h]

/-! ### Plans of events -/

section

variable {discover : Discover} {repoPath : PathBuf} {worktreeRoot : Option PathBuf}
  {dirs : GitDirs} {event : Event} {path : PathBuf}

theorem refreshPlanForPath_of_isControl (hpath : dirs.IsControl path) :
    refreshPlanForPath discover repoPath worktreeRoot dirs.gitDir dirs.commonDir path =
      planForText discover repoPath (dirs.text path) := by
  have hcontrol : (path.startsWith dirs.gitDir || path.startsWith dirs.commonDir) = true := hpath
  unfold refreshPlanForPath
  rw [if_pos hcontrol]
  exact refreshPlanForGitPath_eq discover repoPath dirs path

/-- A combination reads what one of its parts reads. -/
theorem reads_foldl_combine {α : Type} {f : α → RefreshPlan} {d : RefreshDomain} :
    ∀ (l : List α) (plan : RefreshPlan),
      (l.foldl (fun plan a => plan.combine (f a)) plan).reads d ↔
        plan.reads d ∨ ∃ a ∈ l, (f a).reads d := by
  intro l
  induction l with
  | nil => simp
  | cons a l ih =>
      intro plan
      rw [List.foldl_cons, ih, RefreshPlan.reads_combine, or_assoc]
      simp

/-- A mutating event reads what the plan of a path it names reads, and what a rescan reads. -/
theorem reads_refreshPlanForEvent {gitDir commonDir : PathBuf} {d : RefreshDomain}
    (hmut : isMutatingEvent event = true) (hmem : path ∈ event.paths) :
    (refreshPlanForEvent discover (.ok event) repoPath worktreeRoot gitDir commonDir).reads d ↔
      event.rescan = true ∨ ∃ p ∈ event.paths,
        (refreshPlanForPath discover repoPath worktreeRoot gitDir commonDir p).reads d := by
  have hne : event.paths.isEmpty = false := by
    cases h : event.paths with
    | nil => rw [h] at hmem; cases hmem
    | cons p l => rfl
  unfold refreshPlanForEvent Event.needRescan
  by_cases hrescan : event.rescan = true
  · simp only [hrescan, if_true, true_or, iff_true]
    trivial
  · have hnone : ¬ RefreshPlan.none.reads d := id
    simp only [hrescan, hmut, hne, Bool.not_true, Bool.false_eq_true, if_false,
      reads_foldl_combine, hnone, false_or]

/-- Every mutating event that names the path reads what the plan of the path reads. -/
theorem forall_event_reads_iff {gitDir commonDir : PathBuf} {d : RefreshDomain} :
    (∀ event, isMutatingEvent event = true → path ∈ event.paths →
      (refreshPlanForEvent discover (.ok event) repoPath worktreeRoot gitDir commonDir).reads d) ↔
    (refreshPlanForPath discover repoPath worktreeRoot gitDir commonDir path).reads d := by
  constructor
  · intro h
    have hmem : path ∈ (⟨.modify .data, [path], false⟩ : Event).paths := List.mem_singleton.2 rfl
    rcases (reads_refreshPlanForEvent rfl hmem).1 (h _ rfl hmem) with hrescan | ⟨p, hp, hreads⟩
    · cases hrescan
    · rwa [List.mem_singleton.1 hp] at hreads
  · intro hreads event hmut hmem
    exact (reads_refreshPlanForEvent hmut hmem).2 (.inr ⟨path, hmem, hreads⟩)

end

end Gitseer
