/-
**When a targeted refresh keeps a section exact.**

A repository is its files, and `libgit2` makes of them the answers that the section readers ask
for.  After the change of a single file the worker refreshes the retained snapshot by the plan of
an event that names the file.  A section is *exact* when it is what a full read of the changed
repository gives.  A plan that reads the section keeps it exact; a plan that does not does so only
if the change has left the section as it was.

`libgit2` is a parameter: what is assumed of it is which files an answer depends on, as a
`Footprint`.  A section is then kept exact, whatever `libgit2` makes of these files, when the
changed file is not one of them or its plan reads the section; and for every other file there is a
`libgit2` of the same footprint for which the section becomes wrong.

Main definitions:

* `Files`, `GitLibrary` — repositories as files, and what `libgit2` makes of them;
* `ExactAfter` — the section of a domain is exact after the refresh for a changed file;
* `HeadFormat`, `headFootprint` — the files that say what is checked out.

Main results:

* `exactAfter_of_reads_or_same`, `not_exactAfter` — when a section is exact and when it is not;
* `mem_headFootprint` — the files that say what is checked out;
* `GitDirs.text_branchRef`, `planForText_branchRef` — the file of a branch and its plan.
-/

import Gitseer.Lib.Footprint
import Gitseer.Watch.Control
import Gitseer.Watch.Refresh

set_option relaxedAutoImplicit false
set_option autoImplicit false

open StdPath (PathBuf FileName)

namespace Gitseer

/-! ### Repositories as files -/

/-- The bytes of a file. -/
abbrev Content := List UInt8

/-- What is at every path. -/
abbrev Files := PathBuf → Option Content

/-- What discovering a repository answers when these are the files. -/
abbrev GitLibrary := Files → Discover

/-- What is not in the two directories, the worktree with its `.gitmodules` for one. -/
def GitDirs.outside (dirs : GitDirs) : Set PathBuf := {path | ¬ dirs.IsControl path}

/-- The answers to some calls, when a repository is discovered. -/
def GitLibrary.Answers {α : Type} (lib : GitLibrary) (repoPath : PathBuf) (calls : Repository → α)
    (files : Files) (answers : α) : Prop :=
  ∃ repo, lib files repoPath = .ok repo ∧ calls repo = answers

/-- From a snapshot that was read before the change of a file, every mutating event that names the
file leads to a refresh whose section of the domain is that of a full read after the change. -/
def ExactAfter (lib : GitLibrary) (repoPath : PathBuf) (dirs : GitDirs) (d : RefreshDomain)
    (before after : Files) (path : PathBuf) : Prop :=
  ∀ (options : SnapshotOptions) (event : Event) (snapshot full : RepositorySnapshot)
    (refresh : SnapshotRefresh),
    isMutatingEvent event = true → path ∈ event.paths →
    snapshotRepositoryWithOptions (lib before) repoPath options = .ok snapshot →
    snapshot.identity.gitDir = dirs.gitDir → snapshot.identity.commonDir = dirs.commonDir →
    snapshotRepositoryWithOptions (lib after) repoPath options = .ok full →
    refreshRepositoryWithPlan (lib after) repoPath (some snapshot)
      (refreshPlanForEvent (lib after) (.ok event) repoPath snapshot.identity.worktreeRoot
        dirs.gitDir dirs.commonDir) options = .ok refresh →
    refresh.snapshot.part d = full.part d

section

variable {discover : Discover} {repoPath : PathBuf} {options : SnapshotOptions}
  {d : RefreshDomain}

/-- A full read has every section from the repository it discovers. -/
theorem sectionValue_of_snapshot {s : RepositorySnapshot}
    (h : snapshotRepositoryWithOptions discover repoPath options = .ok s) :
    ∃ repo, discover repoPath = .ok repo ∧
      ∀ d, sectionValue repo options d = .ok (s.part d) := by
  obtain ⟨repo, hrepo, -⟩ := Result.bind_eq_ok.1 h
  refine ⟨repo, discoverRepository_eq_ok.1 hrepo, ?_⟩
  intro d
  have hd := snapshot_eq_ok_iff.1 h d
  rw [hrepo] at hd
  exact hd

/-- A refresh has the sections its plan reads from the repository and keeps the others. -/
theorem part_of_refresh {previous : RepositorySnapshot} {plan : RefreshPlan}
    {refresh : SnapshotRefresh} (hd : d ≠ .upstream)
    (h : refreshRepositoryWithPlan discover repoPath (some previous) plan options = .ok refresh) :
    (plan.reads d → ∃ repo, discover repoPath = .ok repo ∧
        sectionValue repo options d = .ok (refresh.snapshot.part d)) ∧
      (¬ plan.reads d → refresh.snapshot.part d = previous.part d) := by
  rcases refresh_cases h with ⟨hfull, hs⟩ | ⟨rfl, hs⟩ | ⟨domains, kept, repo, rfl, hs, hrepo, hr⟩
  · -- there is a previous snapshot, so a full read was planned
    obtain rfl := hfull.resolve_left (by simp)
    obtain ⟨repo, hrepo, hparts⟩ := sectionValue_of_snapshot hs
    exact ⟨fun _ => ⟨repo, hrepo, hparts d⟩, fun hnot => absurd trivial hnot⟩
  · obtain rfl := Option.some.inj hs
    exact ⟨fun hreads => hreads.elim, fun _ => rfl⟩
  · obtain rfl := Option.some.inj hs
    have hrefreshed := (refreshDomains_eq_ok.1 hr).refreshed
    refine ⟨fun hreads => ⟨repo, discoverRepository_eq_ok.1 hrepo, ?_⟩,
      fun hnot => hrefreshed.kept d hnot⟩
    rw [sectionValue, if_neg hd, readSection_of_ne_upstream hd _ (refresh.snapshot.part .head).1]
    exact hrefreshed.read d hreads

end

/-! ### Reading the section, or leaving it as it was -/

section

variable {lib : GitLibrary} {repoPath path : PathBuf} {dirs : GitDirs} {d : RefreshDomain}
  {before after : Files}

/-- The plan of an event that names a control file reads what the plan of the file reads. -/
theorem reads_of_planForText {discover : Discover} {event : Event} {worktreeRoot : Option PathBuf}
    (hcontrol : dirs.IsControl path) (hmut : isMutatingEvent event = true)
    (hmem : path ∈ event.paths)
    (hreads : (planForText discover repoPath (dirs.text path)).reads d) :
    (refreshPlanForEvent discover (.ok event) repoPath worktreeRoot dirs.gitDir
      dirs.commonDir).reads d := by
  rw [reads_refreshPlanForEvent hmut hmem]
  refine Or.inr ⟨path, hmem, ?_⟩
  rwa [refreshPlanForPath_of_isControl hcontrol]

/-- The event that says that a single file was modified. -/
def modifyEvent (path : PathBuf) : Event := ⟨.modify .data, [path], false⟩

theorem reads_modifyEvent {discover : Discover} {worktreeRoot : Option PathBuf}
    (hcontrol : dirs.IsControl path) :
    (refreshPlanForEvent discover (.ok (modifyEvent path)) repoPath worktreeRoot dirs.gitDir
      dirs.commonDir).reads d ↔ (planForText discover repoPath (dirs.text path)).reads d := by
  have hmem : path ∈ (modifyEvent path).paths := List.mem_singleton.2 rfl
  constructor
  · intro h
    rcases (reads_refreshPlanForEvent rfl hmem).1 h with hrescan | ⟨p, hp, hreads⟩
    · cases hrescan
    · obtain rfl := List.mem_singleton.1 hp
      rw [refreshPlanForPath_of_isControl hcontrol] at hreads
      exact hreads
  · exact reads_of_planForText hcontrol rfl hmem

/-- A section that the plan of the file reads, or that is as it was, is exact. -/
theorem exactAfter_of_reads_or_same (hd : d ≠ .upstream) (hcontrol : dirs.IsControl path)
    (h : ∀ options snapshot full,
      snapshotRepositoryWithOptions (lib before) repoPath options = .ok snapshot →
      snapshotRepositoryWithOptions (lib after) repoPath options = .ok full →
      (planForText (lib after) repoPath (dirs.text path)).reads d ∨
        snapshot.part d = full.part d) :
    ExactAfter lib repoPath dirs d before after path := by
  intro options event snapshot full refresh hmut hmem hsnapshot _ _ hfull hrefresh
  obtain ⟨hread, hkept⟩ := part_of_refresh hd hrefresh
  obtain ⟨repo, hrepo, hparts⟩ := sectionValue_of_snapshot hfull
  by_cases hreads : (refreshPlanForEvent (lib after) (.ok event) repoPath
      snapshot.identity.worktreeRoot dirs.gitDir dirs.commonDir).reads d
  · obtain ⟨repo', hrepo', hpart⟩ := hread hreads
    rw [hrepo] at hrepo'
    obtain rfl := Except.ok.inj hrepo'
    rw [hparts d] at hpart
    exact (Except.ok.inj hpart).symm
  · rw [hkept hreads]
    refine (h options snapshot full hsnapshot hfull).resolve_left ?_
    exact fun hplan => hreads (reads_of_planForText hcontrol hmut hmem hplan)

/-- A change outside the footprint of what a section is read from leaves it as it was. -/
theorem part_eq_of_changed {α : Type} {footprint : Footprint PathBuf (Option Content)}
    {calls : Repository → α} {options : SnapshotOptions} {snapshot full : RepositorySnapshot}
    (hcalls : ∀ repo repo', calls repo = calls repo' →
      sectionValue repo options d = sectionValue repo' options d)
    (hlib : footprint.Determines (lib.Answers repoPath calls))
    (hchange : Footprint.Changed before after path) (hpath : path ∉ footprint.keys before)
    (hsnapshot : snapshotRepositoryWithOptions (lib before) repoPath options = .ok snapshot)
    (hfull : snapshotRepositoryWithOptions (lib after) repoPath options = .ok full) :
    snapshot.part d = full.part d := by
  obtain ⟨repo, hrepo, hparts⟩ := sectionValue_of_snapshot hsnapshot
  obtain ⟨repo', hrepo', hparts'⟩ := sectionValue_of_snapshot hfull
  have hsame := hlib.eq_of_changed hchange hpath ⟨repo, hrepo, rfl⟩ ⟨repo', hrepo', rfl⟩
  have hvalue := hcalls repo repo' hsame
  rw [hparts d, hparts' d] at hvalue
  exact Except.ok.inj hvalue

/-- A refresh keeps the sections that its plan does not read. -/
theorem part_kept_of_refresh {discover : Discover} {options : SnapshotOptions}
    {previous : RepositorySnapshot} {plan : RefreshPlan} {refresh : SnapshotRefresh}
    (h : refreshRepositoryWithPlan discover repoPath (some previous) plan options = .ok refresh)
    (hunread : ¬ plan.reads d) : refresh.snapshot.part d = previous.part d := by
  rcases refresh_cases h with ⟨hfull, -⟩ | ⟨rfl, hs⟩ | ⟨domains, kept, repo, rfl, hs, -, hr⟩
  · obtain rfl := hfull.resolve_left (by simp)
    exact absurd trivial hunread
  · obtain rfl := Option.some.inj hs
    rfl
  · obtain rfl := Option.some.inj hs
    exact (refreshDomains_eq_ok.1 hr).refreshed.kept d hunread

/-- A section that the plan of the file does not read, and that is not as it was, is wrong after a
refresh that succeeds: one that does not read the upstream for a head that it keeps. -/
theorem not_exactAfter {snapshot full : RepositorySnapshot}
    (hcontrol : dirs.IsControl path)
    (hsnapshot : snapshotRepositoryWithOptions (lib before) repoPath {} = .ok snapshot)
    (hgit : snapshot.identity.gitDir = dirs.gitDir)
    (hcommon : snapshot.identity.commonDir = dirs.commonDir)
    (hfull : snapshotRepositoryWithOptions (lib after) repoPath {} = .ok full)
    (hunread : ¬ (planForText (lib after) repoPath (dirs.text path)).reads d)
    (hhead : (planForText (lib after) repoPath (dirs.text path)).reads .upstream →
      (planForText (lib after) repoPath (dirs.text path)).reads .head ∨
        snapshot.head.kind ≠ .attached)
    (hne : snapshot.part d ≠ full.part d) :
    ¬ ExactAfter lib repoPath dirs d before after path := by
  intro hexact
  have hreads : ∀ e, (refreshPlanForEvent (lib after) (.ok (modifyEvent path)) repoPath
      snapshot.identity.worktreeRoot dirs.gitDir dirs.commonDir).reads e ↔
        (planForText (lib after) repoPath (dirs.text path)).reads e :=
    fun _ => reads_modifyEvent hcontrol
  rw [← hreads] at hunread
  rw [← hreads, ← hreads] at hhead
  have hmem : path ∈ (modifyEvent path).paths := List.mem_singleton.2 rfl
  -- the refresh keeps the section, once it is known to succeed
  suffices hok : ∃ refresh, refreshRepositoryWithPlan (lib after) repoPath (some snapshot)
      (refreshPlanForEvent (lib after) (.ok (modifyEvent path)) repoPath
        snapshot.identity.worktreeRoot dirs.gitDir dirs.commonDir) {} = .ok refresh by
    obtain ⟨refresh, hrefresh⟩ := hok
    have hpart := hexact {} _ snapshot full refresh rfl hmem hsnapshot hgit hcommon hfull hrefresh
    rw [part_kept_of_refresh hrefresh hunread] at hpart
    exact hne hpart
  obtain ⟨repo, hrepo, hread⟩ := Result.bind_eq_ok.1 hfull
  generalize refreshPlanForEvent (lib after) (.ok (modifyEvent path)) repoPath
    snapshot.identity.worktreeRoot dirs.gitDir dirs.commonDir = plan at hunread hhead ⊢
  cases plan with
  | none => exact ⟨⟨snapshot, .none⟩, rfl⟩
  | full => exact absurd trivial hunread
  | domains domains =>
      obtain ⟨s, hs⟩ := (refreshDomains_ok_iff hread snapshot domains).2 <| by
        rintro ⟨hup, hnohead, hattached, -⟩
        exact (hhead hup).elim (fun h => hnohead h) fun h => h hattached
      exact ⟨⟨s, .domains domains⟩, by simp [refreshRepositoryWithPlan, hrepo, hs]⟩

end

/-! ### What is checked out -/

/-- The name of a branch, by its components. -/
structure BranchName where
  names : List FileName
  /-- There is a name. -/
  ne_nil : names ≠ []
  /-- No name of a branch is that of a lock file. -/
  not_lock : dropSuffix (PathBuf.relative names).toStringLossy ".lock" = none

/-- The text of the name, when it is UTF-8. -/
def BranchName.text (b : BranchName) : Option String := (PathBuf.relative b.names).toStr

/-- How references are read: the branch that the content of `HEAD` names, if it names one, whether
the content of `packed-refs` lists a branch, and whether the file of a branch names another
reference. -/
structure HeadFormat where
  branch : Content → Option BranchName
  packs : Content → BranchName → Bool
  symbolic : Content → Bool

/-- The file of a branch that is not packed. -/
def GitDirs.branchRef (dirs : GitDirs) (b : BranchName) : PathBuf :=
  dirs.commonDir.descend (namesOf "refs/heads" ++ b.names)

/-- The branch that `HEAD` names. -/
def HeadFormat.currentBranch (format : HeadFormat) (dirs : GitDirs) (files : Files) :
    Option BranchName :=
  (files (dirs.git "HEAD")).bind format.branch

/-- The branch has a file of its own or is packed. -/
def HeadFormat.HasBranch (format : HeadFormat) (dirs : GitDirs) (files : Files) (b : BranchName) :
    Prop :=
  files (dirs.branchRef b) ≠ none ∨
    (files (dirs.common "packed-refs")).any (format.packs · b) = true

instance (format : HeadFormat) (dirs : GitDirs) (files : Files) (b : BranchName) :
    Decidable (format.HasBranch dirs files b) :=
  inferInstanceAs (Decidable (_ ∨ _))

/-- The file of the branch names another reference. -/
def HeadFormat.Symbolic (format : HeadFormat) (dirs : GitDirs) (files : Files) (b : BranchName) :
    Prop :=
  (files (dirs.branchRef b)).any format.symbolic = true

instance (format : HeadFormat) (dirs : GitDirs) (files : Files) (b : BranchName) :
    Decidable (format.Symbolic dirs files b) :=
  inferInstanceAs (Decidable (_ = true))

/-- The packed references are read for the branch: it has no file of its own, or one that names
another reference. -/
def HeadFormat.ReadsPacked (format : HeadFormat) (dirs : GitDirs) (files : Files)
    (b : BranchName) : Prop :=
  (files (dirs.branchRef b)).all format.symbolic = true

/-- The files that say what is checked out: `HEAD`, the file of the branch it names, and
`packed-refs` when that file is missing or names another reference. -/
def headFootprint (dirs : GitDirs) (format : HeadFormat) : Footprint PathBuf (Option Content) :=
  .ask (dirs.git "HEAD") fun head =>
    match head.bind format.branch with
    | none => .const ∅
    | some b => .ask (dirs.branchRef b) fun own =>
        if own.all format.symbolic then .const {dirs.common "packed-refs"} else .const ∅

section

variable {dirs : GitDirs} {format : HeadFormat} {files : Files} {path : PathBuf} {b : BranchName}

theorem mem_headFootprint :
    path ∈ (headFootprint dirs format).keys files ↔ path = dirs.git "HEAD" ∨
      ∃ b, format.currentBranch dirs files = some b ∧ (path = dirs.branchRef b ∨
        (path = dirs.common "packed-refs" ∧ format.ReadsPacked dirs files b)) := by
  rw [headFootprint, Footprint.mem_ask]
  refine or_congr Iff.rfl ?_
  unfold HeadFormat.currentBranch
  cases (files (dirs.git "HEAD")).bind format.branch with
  | none => simp
  | some b =>
      simp only [Option.some.injEq, exists_eq_left', Footprint.mem_ask, HeadFormat.ReadsPacked]
      cases (files (dirs.branchRef b)).all format.symbolic <;> simp

/-- The file of a branch has a text below `refs/heads`. -/
theorem GitDirs.toList_text_branchRef (b : BranchName) :
    (dirs.text (dirs.branchRef b)).toList =
      "refs/heads/".toList ++ (PathBuf.relative b.names).toStringLossy.toList := by
  rw [GitDirs.branchRef, GitDirs.text_commonDir_append (by decide) (by decide)]
  exact PathBuf.toStringLossy_below (by decide) b.ne_nil (by decide)

theorem GitDirs.hasPrefix_text_branchRef (b : BranchName) :
    hasPrefix (dirs.text (dirs.branchRef b)) "refs/heads/" = true := by
  rw [hasPrefix_iff, GitDirs.toList_text_branchRef]
  exact List.prefix_append _ _

theorem GitDirs.isControl_branchRef (b : BranchName) : dirs.IsControl (dirs.branchRef b) := by
  rw [GitDirs.IsControl, GitDirs.branchRef, PathBuf.startsWith_descend, Bool.or_true]

/-- The file of a branch is no lock file. -/
theorem GitDirs.dropSuffix_text_branchRef (b : BranchName) :
    dropSuffix (dirs.text (dirs.branchRef b)) ".lock" = none := by
  rw [Option.eq_none_iff_forall_not_mem]
  intro rest hrest
  -- what is left would still be below `refs/heads`, and the name of the branch would have the ending
  obtain ⟨name, hname⟩ := hasPrefix_iff.1
    (hasPrefix_of_dropSuffix hrest (dirs.hasPrefix_text_branchRef b) rfl (by decide))
  have htext := dropSuffix_eq_some.1 hrest
  rw [dirs.toList_text_branchRef, ← hname, List.append_assoc] at htext
  have hlock : dropSuffix (PathBuf.relative b.names).toStringLossy ".lock" =
      some (String.ofList name) := by
    rw [dropSuffix_eq_some, String.toList_ofList]
    exact List.append_cancel_left htext
  rw [b.not_lock] at hlock
  cases hlock

theorem GitDirs.branchRef_ne_head (b : BranchName) : dirs.branchRef b ≠ dirs.git "HEAD" := by
  intro heq
  have hhead : dirs.text (dirs.git "HEAD") = "HEAD" := dirs.text_git (by decide)
  refine ne_of_hasPrefix (dirs.hasPrefix_text_branchRef b) (b := "HEAD") (by decide) ?_
  rw [heq, hhead]

/-- A change of another file leaves the branch that `HEAD` names. -/
theorem HeadFormat.currentBranch_of_changed {before after : Files}
    (hchange : Footprint.Changed before after path) (hne : path ≠ dirs.git "HEAD") :
    format.currentBranch dirs after = format.currentBranch dirs before := by
  rw [HeadFormat.currentBranch, HeadFormat.currentBranch, hchange.elsewhere _ hne.symm]

/-- The plans of the texts below `refs/heads`. -/
theorem refreshPlanForGitText_of_heads {discover : Discover} {repoPath : PathBuf} {text : String}
    (h : hasPrefix text "refs/heads/" = true) :
    refreshPlanForGitText discover repoPath text = .ofDomains ([.head, .upstream, .branches] ++
      if isCurrentBranchRef discover repoPath text then [.paths] else []) := by
  simp (disch := simp [hasPrefix, List.isPrefixOf])
    [refreshPlanForGitText, ne_of_hasPrefix h, hasPrefix_of_apart h, h]

/-- The plan for the file of a branch, which reads the paths when the branch is checked out. -/
theorem planForText_branchRef (discover : Discover) (repoPath : PathBuf) :
    planForText discover repoPath (dirs.text (dirs.branchRef b)) =
      .ofDomains ([.head, .upstream, .branches] ++
        if isCurrentBranchRef discover repoPath (dirs.text (dirs.branchRef b)) then [.paths]
        else []) := by
  rw [planForText_of_notLock (dirs.dropSuffix_text_branchRef b)]
  exact refreshPlanForGitText_of_heads (dirs.hasPrefix_text_branchRef b)

end

/-! ### A repository with one branch -/

/-- The directories of a repository that is no linked worktree. -/
def plainDirs : GitDirs where
  gitDir := repoGitDir
  commonDir := repoGitDir
  standard := Or.inl rfl

def mainBranch : BranchName where
  names := namesOf "main"
  ne_nil := by decide
  not_lock := by decide

/-- The formats, as far as they are used below: `HEAD` may name one branch, which is never
packed. -/
def mainFormat : HeadFormat where
  branch content :=
    if content = StdPath.bytesOf "ref: refs/heads/main\n" then some mainBranch else none
  packs _ _ := false
  symbolic content := (StdPath.bytesOf "ref: ").isPrefixOf content

end Gitseer
