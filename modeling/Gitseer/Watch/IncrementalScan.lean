/-
**Does a scan of a new directory find what the full scan finds there?**

A directory that may be new is scanned on its own, and the directories found are watched besides
those of the full scan.  Below its start this scan is the full scan: the same entries are passed
over, and it stops at the same repositories.  At its start it is not.  The full scan comes to a
directory through the listing of its parent, where the name, the type and the ignore rules are
tested, and it does not come below a nested repository.  The scan that starts at the directory has
tested the ignore rules only.

Main definitions:

* `FileSystem.Coherent` — going down from the worktree root is going to the path;
* `FullScanEnters` — the listing of the parent leads the full scan to a directory;
* `ScanFinds` — what any scan finds at and below a directory, once it is there.

Main results:

* `mem_worktreeWatchDirs_below` — what the full scan finds at and below a directory;
* `mem_worktreeWatchDirs_entry` — to which entries of a directory it comes;
* `worktreeWatchDirsFrom_eq_below_iff` — when the two scans find the same there.
-/

import Gitseer.Watch.Watcher

set_option relaxedAutoImplicit false
set_option autoImplicit false

open StdPath (PathBuf FileName)
open Walk (Listing Leads Clear)

namespace Gitseer

/-! ### One tree of directories -/

/-- The listings below the worktree root are those of one tree: names that lead to a directory
lead to what is read at its path. -/
def FileSystem.Coherent (fs : FileSystem) (worktree : PathBuf) : Prop :=
  ∀ names t, Leads (fs.readDir worktree) names t → fs.readDir (worktree.descend names) = t

/-- The entry of the directory is itself a directory, is not called `.git`, and the directory is
not the root of a nested repository. -/
def FullScanEnters (fs : FileSystem) (worktree : PathBuf) (names : List FileName)
    (name : FileName) : Prop :=
  (∃ t, Leads (fs.readDir worktree) (names ++ [name]) t) ∧ name ≠ gitName ∧
    isNestedRoot fs worktree (worktree.descend names) = false

/-- Names lead from a directory to one that a scan pushes, once it is at the first. -/
def ScanFinds (fs : FileSystem) (repo : Option Repository) (worktree dir : PathBuf)
    (more : List FileName) : Prop :=
  (∃ t, Leads (fs.readDir dir) more t) ∧ (more ≠ [] → isNestedRoot fs worktree dir = false) ∧
    Clear PathBuf.child (skipsEntry repo worktree) (isNestedRoot fs worktree) dir more

section

variable {discover : Discover} {fs : FileSystem} {repo : Option Repository}
  {worktree dir q : PathBuf} {names way : List FileName} {name : FileName}

theorem scanFinds_nil : ScanFinds fs repo worktree dir [] :=
  ⟨⟨_, Leads.here _⟩, fun h => absurd rfl h, trivial⟩

/-! ### The scan of a new directory -/

theorem mem_collect_iff_finds :
    q ∈ collectWorktreeWatchDirs fs repo worktree dir (fs.readDir dir) ↔
      ∃ more, dir.descend more = q ∧ ScanFinds fs repo worktree dir more := by
  rw [mem_collectWorktreeWatchDirs]
  constructor
  · rintro (rfl | ⟨hnested, more, t, -, hleads, hq, hclear⟩)
    · exact ⟨[], PathBuf.descend_nil q, scanFinds_nil⟩
    · exact ⟨more, hq, ⟨t, hleads⟩, fun _ => hnested, hclear⟩
  · rintro ⟨more, hq, ⟨t, hleads⟩, hnested, hclear⟩
    by_cases hmore : more = []
    · left
      rw [← hq, hmore, PathBuf.descend_nil]
    · exact .inr ⟨hnested hmore, more, t, hmore, hleads, hq, hclear⟩

theorem mem_scan_iff_finds (hway : way ≠ []) :
    q ∈ worktreeWatchDirsFrom discover fs worktree (worktree.descend way) ↔
      gitIgnored (discover worktree).toOption worktree (worktree.descend way) = false ∧
      ∃ more, (worktree.descend way).descend more = q ∧
        ScanFinds fs (discover worktree).toOption worktree (worktree.descend way) more := by
  have hstart : decide (worktree.descend way ≠ worktree) = true :=
    decide_eq_true (worktree.descend_ne_self hway)
  unfold worktreeWatchDirsFrom
  dsimp only
  rw [hstart, Bool.true_and]
  cases gitIgnored (discover worktree).toOption worktree (worktree.descend way) with
  | true => simp
  | false => simp [mem_collect_iff_finds]

/-! ### The full scan at and below a directory -/

/-- The full scan finds what a scan reaches from a directory, when it comes to the directory. -/
theorem mem_worktreeWatchDirs_below (hcoherent : fs.Coherent worktree) (hway : way ≠ []) :
    q ∈ worktreeWatchDirs discover fs worktree ∧ q.startsWith (worktree.descend way) = true ↔
      worktree.descend way ∈ worktreeWatchDirs discover fs worktree ∧
      ∃ more, (worktree.descend way).descend more = q ∧
        ScanFinds fs (discover worktree).toOption worktree (worktree.descend way) more := by
  rw [PathBuf.startsWith_descend_iff hway, mem_worktreeWatchDirs, mem_worktreeWatchDirs]
  constructor
  · rintro ⟨⟨all, t, hleads, hall, hclear⟩, more, rfl⟩
    rw [← PathBuf.descend_append] at hall
    obtain rfl := PathBuf.descend_injective worktree hall
    obtain ⟨v, hway', hmore⟩ := Walk.leads_append.1 hleads
    obtain ⟨hfirst, hstop, hrest⟩ := Walk.clear_append.1 hclear
    rw [PathBuf.foldl_child] at hstop hrest
    rw [← hcoherent way v hway'] at hmore
    exact ⟨⟨way, v, hway', rfl, hfirst⟩, more, rfl, ⟨t, hmore⟩, hstop hway, hrest⟩
  · rintro ⟨⟨way', v, hway', hsame, hfirst⟩, more, rfl, ⟨t, hmore⟩, hstop, hrest⟩
    obtain rfl := PathBuf.descend_injective worktree hsame
    rw [hcoherent way' v hway'] at hmore
    refine ⟨⟨way' ++ more, t, Walk.leads_append.2 ⟨v, hway', hmore⟩,
      PathBuf.descend_append worktree way' more, Walk.clear_append.2 ⟨hfirst, ?_, ?_⟩⟩, more, rfl⟩
    · intro _ hne
      rw [PathBuf.foldl_child]
      exact hstop hne
    · rw [PathBuf.foldl_child]
      exact hrest

theorem skipsEntry_entry_iff :
    skipsEntry repo worktree (worktree.descend (names ++ [name])) = false ↔
      name ≠ gitName ∧ gitIgnored repo worktree (worktree.descend (names ++ [name])) = false := by
  rw [skipsEntry_descend_iff (by simp), List.getLast?_concat, Ne, Option.some.injEq]

/-- From a directory that it finds, the full scan comes to an entry that it may enter and that is
not ignored. -/
theorem mem_worktreeWatchDirs_entry
    (hparent : worktree.descend names ∈ worktreeWatchDirs discover fs worktree) :
    worktree.descend (names ++ [name]) ∈ worktreeWatchDirs discover fs worktree ↔
      FullScanEnters fs worktree names name ∧
      gitIgnored (discover worktree).toOption worktree
        (worktree.descend (names ++ [name])) = false := by
  obtain ⟨names', -, -, hsame, hfirst⟩ := mem_worktreeWatchDirs.1 hparent
  obtain rfl := PathBuf.descend_injective worktree hsame
  rw [mem_worktreeWatchDirs]
  constructor
  · rintro ⟨way, t, hleads, hway, hclear⟩
    obtain rfl := PathBuf.descend_injective worktree hway
    obtain ⟨-, hstop, hskip, -⟩ := Walk.clear_append.1 hclear
    rw [PathBuf.foldl_child] at hstop hskip
    rw [PathBuf.descend_child, skipsEntry_entry_iff] at hskip
    refine ⟨⟨⟨t, hleads⟩, hskip.1, ?_⟩, hskip.2⟩
    by_cases hnil : names' = []
    · rw [hnil, PathBuf.descend_nil]
      exact isNestedRoot_self fs worktree
    · exact hstop hnil (by simp)
  · rintro ⟨⟨⟨t, hleads⟩, hname, hnested⟩, hignored⟩
    refine ⟨_, t, hleads, rfl, Walk.clear_append.2 ?_⟩
    rw [PathBuf.foldl_child]
    refine ⟨hfirst, fun _ _ => hnested, ?_, fun h => absurd rfl h, trivial⟩
    rw [PathBuf.descend_child]
    exact skipsEntry_entry_iff.2 ⟨hname, hignored⟩

/-- A scan of an entry of a scanned directory agrees with the full scan exactly when the entry is
ignored, or the full scan enters it. -/
theorem worktreeWatchDirsFrom_eq_below_iff (hcoherent : fs.Coherent worktree)
    (hparent : worktree.descend names ∈ worktreeWatchDirs discover fs worktree) :
    (∀ q, q ∈ worktreeWatchDirsFrom discover fs worktree (worktree.descend (names ++ [name])) ↔
      q ∈ worktreeWatchDirs discover fs worktree ∧
        q.startsWith (worktree.descend (names ++ [name])) = true) ↔
      gitIgnored (discover worktree).toOption worktree
        (worktree.descend (names ++ [name])) = true ∨
      FullScanEnters fs worktree names name := by
  have hway : names ++ [name] ≠ [] := by simp
  have hentry : worktree.descend (names ++ [name]) ∈ worktreeWatchDirs discover fs worktree ↔ _ :=
    mem_worktreeWatchDirs_entry hparent
  constructor
  · intro hagree
    by_cases hignored : gitIgnored (discover worktree).toOption worktree
        (worktree.descend (names ++ [name])) = true
    · exact .inl hignored
    · have hstart : worktree.descend (names ++ [name]) ∈
          worktreeWatchDirsFrom discover fs worktree (worktree.descend (names ++ [name])) :=
        (mem_scan_iff_finds hway).2
          ⟨Bool.eq_false_iff.2 hignored, [], PathBuf.descend_nil _, scanFinds_nil⟩
      exact .inr (hentry.1 ((hagree _).1 hstart).1).1
  · intro hcondition q
    rw [mem_scan_iff_finds hway, mem_worktreeWatchDirs_below hcoherent hway, hentry]
    refine and_congr_left fun _ => ?_
    constructor
    · intro hignored
      refine ⟨hcondition.resolve_left ?_, hignored⟩
      rw [hignored]
      exact Bool.false_ne_true
    · exact And.right

end

theorem buildFileSystem_coherent : buildFileSystem.Coherent repoRoot := by
  intro names t h
  change Leads buildTree names t at h
  cases h with
  | here => rfl
  | into h =>
      cases h with
      | here => rfl
      | pastLeaf h => cases h
  | pastDir h =>
      cases h with
      | pastDir h => cases h
      | into h =>
          cases h with
          | here => rfl
          | pastLeaf h => cases h

/-- The two scans agree on the directory for sources. -/
theorem worktreeWatchDirsFrom_eq_below_iff_src :
    repoRoot ∈ worktreeWatchDirs (fun _ => .ok buildRepository) buildFileSystem repoRoot ∧
    ∀ q, q ∈ worktreeWatchDirsFrom (fun _ => .ok buildRepository) buildFileSystem repoRoot
          (repoRoot.descend ([] ++ [srcName])) ↔
        q ∈ worktreeWatchDirs (fun _ => .ok buildRepository) buildFileSystem repoRoot ∧
          q.startsWith (repoRoot.descend ([] ++ [srcName])) = true := by
  refine ⟨by decide, ?_⟩
  refine (worktreeWatchDirsFrom_eq_below_iff buildFileSystem_coherent (by decide)).2 (.inr ?_)
  exact ⟨⟨_, ((Leads.here _).into).pastDir⟩, by decide, by decide⟩

/-! ### A directory of a nested repository -/

/-- The directory for sources is the root of a repository with a build directory. -/
def nestedTree : Listing FileName :=
  .dir gitName .nil (.dir buildName .nil .nil)

def nestedFileSystem : FileSystem where
  node path :=
    if path = repoRoot then some (.dir 1 (.dir gitName .nil (.dir srcName nestedTree .nil)))
    else if path = repoRoot.descend [gitName] then some (.dir 2 .nil)
    else if path = repoRoot.descend [srcName] then some (.dir 3 nestedTree)
    else if path = repoRoot.descend [srcName, gitName] then some (.dir 4 .nil)
    else if path = repoRoot.descend [srcName, buildName] then some (.dir 5 .nil)
    else none

theorem nestedFileSystem_coherent : nestedFileSystem.Coherent repoRoot := by
  intro names t h
  change Leads (.dir gitName .nil (.dir srcName nestedTree .nil)) names t at h
  cases h with
  | here => rfl
  | into h =>
      cases h
      rfl
  | pastDir h =>
      cases h with
      | pastDir h => cases h
      | into h =>
          cases h with
          | here => rfl
          | into h =>
              cases h
              rfl
          | pastDir h =>
              cases h with
              | pastDir h => cases h
              | into h =>
                  cases h
                  rfl

/-- A build directory that is new in the nested repository is scanned and watched, and the full
scan does not come to it. -/
theorem nested_directory_scanned :
    plainRepository.IgnoresBelow ∧ nestedFileSystem.Coherent repoRoot ∧
    repoRoot.descend [srcName] ∈
      worktreeWatchDirs (fun _ => .ok plainRepository) nestedFileSystem repoRoot ∧
    (∃ watcher, RepositoryWatcher.new ⟨fun _ => .ok plainRepository, nestedFileSystem⟩ repoRoot =
        .ok watcher ∧
      (watcher.addWorktreeWatchIfNeeded nestedFileSystem repoRoot
        (repoRoot.descend [srcName, buildName])).2 = true) ∧
    ¬ ∀ q, q ∈ worktreeWatchDirsFrom (fun _ => .ok plainRepository) nestedFileSystem repoRoot
          (repoRoot.descend [srcName, buildName]) ↔
        q ∈ worktreeWatchDirs (fun _ => .ok plainRepository) nestedFileSystem repoRoot ∧
          q.startsWith (repoRoot.descend [srcName, buildName]) = true := by
  refine ⟨?_, nestedFileSystem_coherent, by decide, ⟨_, rfl, by decide⟩, ?_⟩
  · intro names more h
    cases h
  · intro hagree
    have hfull := ((hagree (repoRoot.descend [srcName, buildName])).1 (by decide)).1
    revert hfull
    decide

end Gitseer
