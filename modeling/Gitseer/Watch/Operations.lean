/-
**The files of an operation in progress.**

The operation section is read from a few files and from everything below four directories of the
Git directory.  Whatever is changed there, and whatever the names below the directories look like,
the plan is the one for operations: no test that comes earlier in the cascade answers for such a
file, and no lock file among them is taken for another.

Main definitions:

* `operationFiles`, `operationDirs`, `IsOperationFile` — the files `operation_state` reads;
* `IsLockOf` — the lock file of a file;
* `operationPlan` — the plan for operations.

Main results:

* `refreshPlanForGitText_of_operation`, `planForText_of_operation` — the plan for their texts;
* `operation_files_refresh` — the plan for their paths, below either directory.
-/

import Gitseer.Watch.Control

set_option relaxedAutoImplicit false
set_option autoImplicit false

open StdPath (PathBuf FileName)

namespace Gitseer

/-! ### The files -/

/-- The single files that the operation section is read from. -/
def operationFiles : List String :=
  ["MERGE_HEAD", "REBASE_HEAD", "CHERRY_PICK_HEAD", "REVERT_HEAD", "MERGE_MSG", "BISECT_LOG",
    "BISECT_START"]

/-- The directories that it is read from. -/
def operationDirs : List String := ["rebase-merge", "rebase-apply", "sequencer", "refs/bisect"]

/-- Is the path, given by its names, one the operation section is read from? -/
def IsOperationFile (names : List FileName) : Prop :=
  (∃ file ∈ operationFiles, names = namesOf file) ∨
    ∃ dir ∈ operationDirs, ∃ rest, names = namesOf dir ++ rest

/-- The second path is the lock file of the first. -/
def IsLockOf (names lock : List FileName) : Prop :=
  ∃ dir name name', names = dir ++ [name] ∧ lock = dir ++ [name'] ∧
    name'.bytes = name.bytes ++ StdPath.bytesOf ".lock"

/-- The plan for the files of an operation. -/
def operationPlan : RefreshPlan := .ofDomains [.operation, .head, .upstream, .branches, .paths]

/-! ### The plan for their texts -/

theorem isOperationPath_of_hasPrefix {text a : String}
    (ha : a ∈ operationDirs.map (· ++ "/")) (h : hasPrefix text a = true) :
    isOperationPath text = true := by
  have hlist : operationDirs.map (· ++ "/") =
      ["rebase-merge/", "rebase-apply/", "sequencer/", "refs/bisect/"] := by decide
  simp only [hlist, List.mem_cons, List.not_mem_nil, or_false] at ha
  rcases ha with rfl | rfl | rfl | rfl <;> simp [isOperationPath, h]

section

variable {discover : Discover} {repoPath : PathBuf} {text : String}

/-- No earlier test of the cascade answers for a text below an operation directory: each compares
with something that differs from the directory's name. -/
theorem refreshPlanForGitText_of_operationDir {a : String} (ha : a ∈ operationDirs.map (· ++ "/"))
    (h : hasPrefix text a = true) :
    refreshPlanForGitText discover repoPath text = operationPlan := by
  have hop := isOperationPath_of_hasPrefix ha h
  have hlist : operationDirs.map (· ++ "/") =
      ["rebase-merge/", "rebase-apply/", "sequencer/", "refs/bisect/"] := by decide
  simp only [hlist, List.mem_cons, List.not_mem_nil, or_false] at ha
  rcases ha with rfl | rfl | rfl | rfl <;>
    simp (disch := simp [hasPrefix, List.isPrefixOf])
      [refreshPlanForGitText, ne_of_hasPrefix h, hasPrefix_of_apart h, hop, operationPlan]

theorem planForText_of_operationDir {a : String} (ha : a ∈ operationDirs.map (· ++ "/"))
    (h : hasPrefix text a = true) : planForText discover repoPath text = operationPlan := by
  have hlast : ∀ d ∈ operationDirs.map (· ++ "/"), d.toList.getLast? = some '/' := by decide
  cases hlock : dropSuffix text ".lock" with
  | none =>
      rw [planForText_of_notLock hlock]
      exact refreshPlanForGitText_of_operationDir ha h
  | some target =>
      have htarget := hasPrefix_of_dropSuffix hlock h (hlast a ha) (by decide)
      rw [planForText_of_operation_lock hlock (isOperationPath_of_hasPrefix ha htarget)]
      exact refreshPlanForGitText_of_operationDir ha htarget

/-- The plan for an operation file or directory itself, and for its lock file. -/
theorem planForText_of_operationFile {file : String} (hfile : file ∈ operationFiles ++ operationDirs)
    (htext : text = file ∨ dropSuffix text ".lock" = some file) :
    planForText discover repoPath text = operationPlan := by
  have hplan : refreshPlanForGitText discover repoPath file = operationPlan := by
    simp only [operationFiles, operationDirs, List.cons_append, List.nil_append, List.mem_cons,
      List.not_mem_nil, or_false] at hfile
    rcases hfile with rfl | rfl | rfl | rfl | rfl | rfl | rfl | rfl | rfl | rfl | rfl <;> rfl
  have hnotLock : ∀ f ∈ operationFiles ++ operationDirs, dropSuffix f ".lock" = none := by decide
  have hknown : ∀ f ∈ operationFiles ++ operationDirs,
      isOperationPath f = true ∨ hasPrefix f "refs/" = true := by decide
  rcases htext with rfl | hlock
  · rw [planForText_of_notLock (hnotLock _ hfile), hplan]
  · rcases hknown file hfile with hop | href
    · rw [planForText_of_operation_lock hlock hop, hplan]
    · rw [planForText_of_ref_lock hlock href, hplan]

end

/-! ### The plan for their paths -/

section

variable {discover : Discover} {repoPath : PathBuf} {names lock : List FileName}

/-- A path below an operation directory has a text below it. -/
theorem hasPrefix_operationDir {dir : String} (hdir : dir ∈ operationDirs) {rest : List FileName}
    (hrest : rest ≠ []) :
    hasPrefix (PathBuf.relative (namesOf dir ++ rest)).toStringLossy (dir ++ "/") = true := by
  have hnames : ∀ d ∈ operationDirs, namesOf d ≠ [] ∧
      (PathBuf.relative (namesOf d)).toBytes ++ [StdPath.separator] =
        StdPath.bytesOf (d ++ "/") := by decide
  obtain ⟨hne, hbytes⟩ := hnames dir hdir
  exact hasPrefix_toStringLossy_below hne hrest hbytes

/-- The text of a lock file is that of the file with the ending. -/
theorem dropSuffix_of_isLockOf {file : String}
    (hfile : (PathBuf.relative names).toBytes = StdPath.bytesOf file) (h : IsLockOf names lock) :
    dropSuffix (PathBuf.relative lock).toStringLossy ".lock" = some file := by
  obtain ⟨dir, name, name', rfl, rfl, hname⟩ := h
  have hending : Utf8.lossy (StdPath.bytesOf ".lock") = ".lock".toList := by decide
  have hbytes : (PathBuf.relative (dir ++ [name'])).toBytes =
      StdPath.bytesOf file ++ StdPath.bytesOf ".lock" := by
    rw [PathBuf.toBytes_relative_of_ending hname, hfile]
  rw [dropSuffix_eq_some, PathBuf.toStringLossy_of_toBytes hbytes, hending]

/-- The plan for the text of an operation file or of its lock file. -/
theorem planForText_of_operation
    (h : IsOperationFile names ∨ ∃ file, IsOperationFile file ∧ IsLockOf file names) :
    planForText discover repoPath (PathBuf.relative names).toStringLossy = operationPlan := by
  have hbytes : ∀ f ∈ operationFiles ++ operationDirs,
      (PathBuf.relative (namesOf f)).toBytes = StdPath.bytesOf f := by decide
  have htexts : ∀ f ∈ operationFiles ++ operationDirs,
      (PathBuf.relative (namesOf f)).toStringLossy = f := by decide
  have hbelow : ∀ {dir : String} {rest : List FileName}, dir ∈ operationDirs → rest ≠ [] →
      planForText discover repoPath (PathBuf.relative (namesOf dir ++ rest)).toStringLossy =
        operationPlan := fun hdir hrest =>
    planForText_of_operationDir (List.mem_map_of_mem hdir) (hasPrefix_operationDir hdir hrest)
  rcases h with (⟨file, hfile, rfl⟩ | ⟨dir, hdir, rest, rfl⟩) | ⟨_, hfile, hlock⟩
  · have hmem := List.mem_append_left operationDirs hfile
    exact planForText_of_operationFile hmem (Or.inl (htexts file hmem))
  · by_cases hrest : rest = []
    · have hmem := List.mem_append_right operationFiles hdir
      rw [hrest, List.append_nil]
      exact planForText_of_operationFile hmem (Or.inl (htexts dir hmem))
    · exact hbelow hdir hrest
  · rcases hfile with ⟨file, hfile, rfl⟩ | ⟨dir, hdir, rest, rfl⟩
    · have hmem := List.mem_append_left operationDirs hfile
      exact planForText_of_operationFile hmem (Or.inr (dropSuffix_of_isLockOf (hbytes file hmem) hlock))
    · by_cases hrest : rest = []
      · have hmem := List.mem_append_right operationFiles hdir
        rw [hrest, List.append_nil] at hlock
        exact planForText_of_operationFile hmem
          (Or.inr (dropSuffix_of_isLockOf (hbytes dir hmem) hlock))
      · -- the lock file of a path below the directory is below it too
        obtain ⟨rest', name, rfl⟩ := List.eq_nil_or_concat' rest |>.resolve_left hrest
        obtain ⟨d, n, name', hnames, rfl, -⟩ := hlock
        rw [← List.append_assoc] at hnames
        rw [← (List.append_inj' hnames rfl).1, List.append_assoc]
        exact hbelow hdir (by simp)

/-- No operation file, and no lock file of one, is in the directory of linked worktrees. -/
theorem head_ne_worktrees
    (h : IsOperationFile names ∨ ∃ file, IsOperationFile file ∧ IsLockOf file names) :
    names.head? ≠ (namesOf "worktrees").head? := by
  have hheads : ∀ f ∈ operationFiles ++ operationDirs,
      namesOf f ≠ [] ∧ (namesOf f).head? ≠ (namesOf "worktrees").head? := by decide
  have hhead : ∀ {file}, IsOperationFile file → file.head? ≠ (namesOf "worktrees").head? := by
    rintro _ (⟨file, hfile, rfl⟩ | ⟨dir, hdir, rest, rfl⟩)
    · exact (hheads file (List.mem_append_left _ hfile)).2
    · obtain ⟨hne, hhead⟩ := hheads dir (List.mem_append_right _ hdir)
      rwa [List.head?_append_of_ne_nil _ hne]
  rcases h with hfile | ⟨_, hfile, dir, name, name', rfl, rfl, hname⟩
  · exact hhead hfile
  · by_cases hdir : dir = []
    · subst hdir
      intro heq
      have hbytes : name'.bytes = StdPath.bytesOf "worktrees" := by
        rw [List.nil_append, List.head?_cons] at heq
        exact congrArg (fun n => (n.map FileName.bytes).getD []) heq
      rw [hbytes] at hname
      have hlast := congrArg List.getLast? hname
      have hk : (StdPath.bytesOf ".lock").getLast? = some 107 := by decide
      rw [List.getLast?_append, hk, Option.some_or] at hlast
      exact absurd hlast (by decide)
    · have hfirst := hhead hfile
      rwa [List.head?_append_of_ne_nil _ hdir] at hfirst ⊢

/-- The path is below the Git directory, or it is below the common directory and not below the Git
directory, or it is below the common directory and the two directories are those of a repository
or of a linked worktree. -/
def BelowGit (gitDir commonDir path : PathBuf) (names : List FileName) : Prop :=
  path.stripPrefix gitDir = some (PathBuf.relative names) ∨
    (path.stripPrefix commonDir = some (PathBuf.relative names) ∧
      (path.stripPrefix gitDir = none ∨
        ∃ dirs : GitDirs, dirs.gitDir = gitDir ∧ dirs.commonDir = commonDir))

/-- Every change of an operation file or of a lock file of one, in either directory, is answered
with the plan for operations. -/
theorem operation_files_refresh {gitDir commonDir path : PathBuf}
    (hfile : IsOperationFile names ∨ ∃ file, IsOperationFile file ∧ IsLockOf file names)
    (hpath : BelowGit gitDir commonDir path names) :
    refreshPlanForGitPath discover repoPath gitDir commonDir path = operationPlan := by
  have hrelative : gitRelative gitDir commonDir path = some (PathBuf.relative names) := by
    rcases hpath with hgit | ⟨hcommon, hnone | ⟨dirs, rfl, rfl⟩⟩
    · rw [gitRelative, hgit, Option.some_or]
    · rw [gitRelative, hnone, hcommon, Option.none_or]
    · rw [PathBuf.eq_descend_of_stripPrefix hcommon]
      exact GitDirs.gitRelative_commonDir (head_ne_worktrees hfile)
  have hplan : planForText discover repoPath (PathBuf.relative names).toStringLossy =
      operationPlan := planForText_of_operation hfile
  rw [← hplan]
  unfold refreshPlanForGitPath
  rw [hrelative]
  rfl

/-- The Git directory of a linked worktree. -/
def linkedGitDir : PathBuf := repoGitDir.descend (namesOf "worktrees/wt")

/-- A lock file of the rebase of a linked worktree that is named like that of the index. -/
theorem operation_files_refresh_linked :
    refreshPlanForGitPath (fun _ => .ok plainRepository) repoRoot linkedGitDir repoGitDir
      (linkedGitDir.descend (namesOf "rebase-merge/index.lock")) = operationPlan :=
  operation_files_refresh
    (Or.inl (Or.inr ⟨"rebase-merge", by decide, namesOf "index.lock", by decide⟩))
    (Or.inl (PathBuf.stripPrefix_descend _ _))

end

end Gitseer
