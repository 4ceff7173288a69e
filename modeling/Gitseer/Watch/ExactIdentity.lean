/-
**Which control files keep the identity exact.**

Besides where the repository is, the identity says whether it is bare, shallow or empty.  It is
empty when nothing is checked out and it has no reference at all, of whatever kind and in whatever
file; the plans that read the identity are those of a few other files.

Main definitions:

* `RefFiles` — which files hold references;
* `IdentityInputs` — what is assumed of `libgit2`;
* `IdentityGap` — the changes that go wrong.

Main results:

* `not_reads_identity_of_unreadRef`, `reads_identity_of_refs` — the plans of the files that hold
  references;
* `isEmpty_eq` — when the repository is as empty as it was;
* `identity_exact_iff` — a refresh keeps the identity exact, whatever `libgit2` makes of the files,
  exactly for the changes that are no gap.
-/

import Gitseer.Watch.Exact
import Gitseer.Watch.Operations

set_option relaxedAutoImplicit false
set_option autoImplicit false

open StdPath (PathBuf FileName)

namespace Gitseer

/-! ### References and the identity -/

/-- Which contents of which files hold a reference. -/
structure RefFiles (dirs : GitDirs) where
  holds : PathBuf → Content → Prop
  /-- References are packed or below `refs`, and lock files hold none. -/
  refFile : ∀ path content, holds path content → dirs.IsControl path ∧
    (dirs.text path = "packed-refs" ∨ hasPrefix (dirs.text path) "refs/" = true) ∧
    dropSuffix (dirs.text path) ".lock" = none

/-- The repository has a reference. -/
def RefFiles.HasReference {dirs : GitDirs} (refs : RefFiles dirs) (files : Files) : Prop :=
  ∃ path content, files path = some content ∧ refs.holds path content

/-- The files that the identity can depend on, but for `HEAD` and the references. -/
def identityFootprint (dirs : GitDirs) : Footprint PathBuf (Option Content) :=
  .const ({dirs.common "config", dirs.git "shallow", dirs.common "shallow", dirs.git "commondir",
    dirs.git "gitdir"} ∪ dirs.outside)

/-- Where the repository is and whether it is bare or shallow depend on nothing else; `head()`, when
it can be read, is determined by `HEAD` and the references; and `references()` is empty when there
are none. -/
structure IdentityInputs (dirs : GitDirs) (refs : RefFiles dirs) (repoPath : PathBuf)
    (lib : GitLibrary) : Prop where
  determined : (identityFootprint dirs).Determines (lib.Answers repoPath fun repo =>
    (repo.workdir, repo.path, repo.commondir, repo.gitNamespace, repo.isBare, repo.isShallow,
      repo.canonicalize))
  head : ∀ files files' repo repo' head head', lib files repoPath = .ok repo →
    lib files' repoPath = .ok repo' → headState repo = .ok head → headState repo' = .ok head' →
    files (dirs.git "HEAD") = files' (dirs.git "HEAD") →
    (∀ path content, refs.holds path content →
      (files path = some content ↔ files' path = some content)) → repo.head = repo'.head
  references : ∀ files repo items, lib files repoPath = .ok repo → repo.references = .ok items →
    (items = [] ↔ ¬ refs.HasReference files)

/-- The texts of files with references whose plan does not read the identity. -/
def UnreadRef (text : String) : Prop :=
  text ∈ ["packed-refs", "refs/heads", "refs/bisect", "refs/remotes", "refs/tags", "refs/stash"] ∨
    ∃ a ∈ ["refs/heads/", "refs/bisect/", "refs/remotes/", "refs/tags/"], hasPrefix text a = true

/-- The changes on which the identity can depend and whose plan does not read it: of the
configuration, of `HEAD` when there is no reference, and those by which a first reference appears
or the last one vanishes, except in a few places below `refs`. -/
def IdentityGap (dirs : GitDirs) (refs : RefFiles dirs) (before after : Files) (path : PathBuf) :
    Prop :=
  path = dirs.common "config" ∨ (path = dirs.git "HEAD" ∧ ¬ refs.HasReference before) ∨
    ((refs.HasReference before ↔ ¬ refs.HasReference after) ∧ UnreadRef (dirs.text path))

/-! ### The plans of files with references -/

section

variable {discover : Discover} {repoPath : PathBuf} {text : String}

theorem not_reads_identity_of_unreadRef (h : UnreadRef text)
    (hlock : dropSuffix text ".lock" = none) :
    ¬ (planForText discover repoPath text).reads .identity := by
  rcases h with h | ⟨a, ha, h⟩
  · have hstatic : ∀ t ∈ ["packed-refs", "refs/heads", "refs/bisect", "refs/remotes", "refs/tags",
        "refs/stash"], hasPrefix t "refs/heads/" = false ∧ ¬ (staticPlan t).reads .identity := by
      decide
    obtain ⟨hheads, hnot⟩ := hstatic text h
    rwa [reads_iff_static rfl hheads]
  · rw [planForText_of_notLock hlock]
    simp only [List.mem_cons, List.not_mem_nil, or_false] at ha
    rcases ha with rfl | rfl | rfl | rfl
    · rw [refreshPlanForGitText_of_heads h, RefreshPlan.reads_ofDomains]
      split <;> decide
    · rw [refreshPlanForGitText_of_operationDir (by decide) h]
      decide
    · have hplan : refreshPlanForGitText discover repoPath text =
          .ofDomains [.upstream, .branches, .remotes] := by
        simp (disch := simp [hasPrefix, List.isPrefixOf])
          [refreshPlanForGitText, ne_of_hasPrefix h, hasPrefix_of_apart h, h]
      rw [hplan]
      decide
    · have hplan : refreshPlanForGitText discover repoPath text = .ofDomains [.tags] := by
        simp (disch := simp [hasPrefix, List.isPrefixOf])
          [refreshPlanForGitText, ne_of_hasPrefix h, hasPrefix_of_apart h, h]
      rw [hplan]
      decide

/-- In the other places below `refs` everything is read. -/
theorem reads_identity_of_refs (h : hasPrefix text "refs/" = true) (hnot : ¬ UnreadRef text)
    (hlock : dropSuffix text ".lock" = none) :
    (planForText discover repoPath text).reads .identity := by
  simp only [UnreadRef, List.mem_cons, List.not_mem_nil, or_false, not_or, exists_eq_or_imp,
    exists_eq_left, Bool.not_eq_true] at hnot
  obtain ⟨⟨-, hheads, hbisect, hremotes, htags, hstash⟩, hheads', hbisect', hremotes', htags'⟩ :=
    hnot
  have hplan : refreshPlanForGitText discover repoPath text = .full := by
    simp (disch := simp [hasPrefix, List.isPrefixOf])
      [refreshPlanForGitText, isOperationPath, ne_of_hasPrefix h, hasPrefix_of_apart h, hheads,
        hbisect, hremotes, htags, hstash, hheads', hbisect', hremotes', htags']
  rw [planForText_of_notLock hlock, hplan]
  trivial

end

/-! ### Emptiness -/

/-- An emptiness that could be read: something is checked out, or there is a reference or none. -/
theorem repositoryIsEmpty_eq_ok {repo : Repository} {isEmpty : Bool}
    (h : repositoryIsEmpty repo = .ok isEmpty) :
    (∃ head, repo.head = .ok head ∧ isEmpty = false) ∨
      ∃ e items, repo.head = .error e ∧ repo.references = .ok items ∧ isEmpty = items.isEmpty := by
  unfold repositoryIsEmpty at h
  cases hhead : repo.head with
  | ok head =>
      simp only [hhead, Except.ok.injEq] at h
      exact Or.inl ⟨head, rfl, h.symm⟩
  | error e =>
      simp only [hhead] at h
      split at h
      · obtain ⟨items, hitems, h⟩ := Result.bind_eq_ok.1 h
        rw [liftGit_eq_ok] at hitems
        refine Or.inr ⟨e, items, rfl, hitems, ?_⟩
        match items, h with
        | [], h => exact (Except.ok.inj h).symm
        | .ok _ :: _, h => exact (Except.ok.inj h).symm
      · cases h

section

variable {dirs : GitDirs} {refs : RefFiles dirs} {repoPath path : PathBuf} {lib : GitLibrary}
  {before after files : Files}

/-- A repository with a reference is not empty. -/
theorem isEmpty_of_hasReference (hlib : IdentityInputs dirs refs repoPath lib) {repo : Repository}
    {isEmpty : Bool} (hrepo : lib files repoPath = .ok repo)
    (h : repositoryIsEmpty repo = .ok isEmpty) (hrefs : refs.HasReference files) :
    isEmpty = false := by
  rcases repositoryIsEmpty_eq_ok h with ⟨head, -, hempty⟩ | ⟨e, items, -, hitems, hempty⟩
  · exact hempty
  · have hne : items ≠ [] := fun hnil => (hlib.references files repo items hrepo hitems).1 hnil hrefs
    rw [hempty, List.isEmpty_eq_false_iff]
    exact hne

/-- When `HEAD` is as it was and there is a reference before and after, or neither before nor
after, the repository is as empty as it was. -/
theorem isEmpty_eq (hlib : IdentityInputs dirs refs repoPath lib) {repo repo' : Repository}
    {isEmpty isEmpty' : Bool} (hrepo : lib before repoPath = .ok repo)
    (hrepo' : lib after repoPath = .ok repo') (hstate : ∃ head, headState repo = .ok head)
    (hstate' : ∃ head, headState repo' = .ok head) (h : repositoryIsEmpty repo = .ok isEmpty)
    (h' : repositoryIsEmpty repo' = .ok isEmpty')
    (hsame : refs.HasReference before ↔ refs.HasReference after)
    (hhead : ¬ refs.HasReference before →
      before (dirs.git "HEAD") = after (dirs.git "HEAD")) : isEmpty = isEmpty' := by
  by_cases hrefs : refs.HasReference before
  · rw [isEmpty_of_hasReference hlib hrepo h hrefs,
      isEmpty_of_hasReference hlib hrepo' h' (hsame.1 hrefs)]
  · -- without references only `HEAD` decides whether something is checked out
    have hrefs' : ¬ refs.HasReference after := fun hafter => hrefs (hsame.2 hafter)
    have hheads : repo.head = repo'.head := by
      obtain ⟨state, hstate⟩ := hstate
      obtain ⟨state', hstate'⟩ := hstate'
      refine hlib.head before after repo repo' state state' hrepo hrepo' hstate hstate'
        (hhead hrefs) ?_
      intro p content hholds
      exact iff_of_false (fun hp => hrefs ⟨p, content, hp, hholds⟩)
        fun hp => hrefs' ⟨p, content, hp, hholds⟩
    rcases repositoryIsEmpty_eq_ok h with ⟨head, hok, hempty⟩ | ⟨e, items, herr, hitems, hempty⟩
    · rcases repositoryIsEmpty_eq_ok h' with ⟨_, -, hempty'⟩ | ⟨e', _, herr', -, -⟩
      · rw [hempty, hempty']
      · rw [hheads, herr'] at hok
        cases hok
    · rcases repositoryIsEmpty_eq_ok h' with ⟨_, hok', -⟩ | ⟨_, items', -, hitems', hempty'⟩
      · rw [hheads, hok'] at herr
        cases herr
      · rw [hempty, hempty', (hlib.references before repo items hrepo hitems).2 hrefs,
          (hlib.references after repo' items' hrepo' hitems').2 hrefs']

/-- The identity is made of answers of the repository and of its emptiness. -/
theorem repositoryIdentity_eq {repo repo' : Repository} {identity identity' : RepositoryIdentity}
    (h : repositoryIdentity repo = .ok identity) (h' : repositoryIdentity repo' = .ok identity')
    (hsame : (repo.workdir, repo.path, repo.commondir, repo.gitNamespace, repo.isBare,
        repo.isShallow, repo.canonicalize) =
      (repo'.workdir, repo'.path, repo'.commondir, repo'.gitNamespace, repo'.isBare,
        repo'.isShallow, repo'.canonicalize))
    (hempty : ∀ isEmpty isEmpty', repositoryIsEmpty repo = .ok isEmpty →
      repositoryIsEmpty repo' = .ok isEmpty' → isEmpty = isEmpty') : identity = identity' := by
  obtain ⟨isEmpty, hisEmpty, h⟩ := Result.bind_eq_ok.1 h
  obtain ⟨isEmpty', hisEmpty', h'⟩ := Result.bind_eq_ok.1 h'
  obtain rfl := hempty _ _ hisEmpty hisEmpty'
  simp only [Prod.mk.injEq] at hsame
  obtain ⟨hworkdir, hpath, hcommon, hnamespace, hbare, hshallow, hcanonical⟩ := hsame
  rw [← Except.ok.inj h, ← Except.ok.inj h']
  simp only [stablePathId, hworkdir, hpath, hcommon, hnamespace, hbare, hshallow, hcanonical]

/-! ### When the identity is exact -/

/-- A first or last reference is held by the file that has changed. -/
theorem refFile_of_flip (hchange : Footprint.Changed before after path)
    (hflip : refs.HasReference before ↔ ¬ refs.HasReference after) :
    (dirs.text path = "packed-refs" ∨ hasPrefix (dirs.text path) "refs/" = true) ∧
      dropSuffix (dirs.text path) ".lock" = none := by
  by_cases hrefs : refs.HasReference before
  · obtain ⟨p, content, hp, hholds⟩ := hrefs
    by_cases hpath : p = path
    · exact hpath ▸ (refs.refFile p content hholds).2
    · refine absurd ⟨p, content, ?_, hholds⟩ (hflip.1 ⟨p, content, hp, hholds⟩)
      rw [hchange.elsewhere p hpath, hp]
  · obtain ⟨p, content, hp, hholds⟩ := not_not.1 fun hnot => hrefs (hflip.2 hnot)
    by_cases hpath : p = path
    · exact hpath ▸ (refs.refFile p content hholds).2
    · refine absurd ⟨p, content, ?_, hholds⟩ hrefs
      rw [← hchange.elsewhere p hpath, hp]

/-- The fixed files of the footprint have plans that read the section, but for the
configuration. -/
theorem reads_identity_of_mem (discover : Discover) (hcontrol : dirs.IsControl path)
    (hpath : path ∈ (identityFootprint dirs).keys files) (hconfig : path ≠ dirs.common "config") :
    (planForText discover repoPath (dirs.text path)).reads .identity := by
  have hstatic : ∀ t ∈ ["shallow", "commondir", "gitdir"],
      hasPrefix t "refs/heads/" = false ∧ (staticPlan t).reads .identity := by decide
  suffices htext : dirs.text path ∈ ["shallow", "commondir", "gitdir"] by
    obtain ⟨hheads, hreads⟩ := hstatic _ htext
    exact (reads_iff_static rfl hheads).2 hreads
  rcases hpath with (rfl | rfl | rfl | rfl | rfl) | houtside
  · exact absurd rfl hconfig
  · rw [dirs.text_git (by decide)]
    decide
  · rw [dirs.text_common (by decide) (by decide)]
    decide
  · rw [dirs.text_git (by decide)]
    decide
  · rw [dirs.text_git (by decide)]
    decide
  · exact absurd hcontrol houtside

theorem headState_of_section {repo : Repository} {options : SnapshotOptions}
    {s : RepositorySnapshot} (hparts : ∀ d, sectionValue repo options d = .ok (s.part d)) :
    ∃ head, headState repo = .ok head := by
  obtain ⟨head, hhead, -⟩ := Result.bind_eq_ok.1 (hparts .head)
  exact ⟨head, hhead⟩

/-- A change that is no gap is read, or leaves the identity as it was. -/
theorem reads_or_same_of_not_identityGap (hlib : IdentityInputs dirs refs repoPath lib)
    (hcontrol : dirs.IsControl path) (hchange : Footprint.Changed before after path)
    (hgap : ¬ IdentityGap dirs refs before after path) {options : SnapshotOptions}
    {snapshot full : RepositorySnapshot}
    (hsnapshot : snapshotRepositoryWithOptions (lib before) repoPath options = .ok snapshot)
    (hfull : snapshotRepositoryWithOptions (lib after) repoPath options = .ok full) :
    (planForText (lib after) repoPath (dirs.text path)).reads .identity ∨
      snapshot.identity = full.identity := by
  simp only [IdentityGap, not_or, not_and] at hgap
  obtain ⟨hconfig, hhead, hflip⟩ := hgap
  refine or_iff_not_imp_left.2 fun hnot => ?_
  obtain ⟨repo, hrepo, hparts⟩ := sectionValue_of_snapshot hsnapshot
  obtain ⟨repo', hrepo', hparts'⟩ := sectionValue_of_snapshot hfull
  have hpath : path ∉ (identityFootprint dirs).keys before :=
    fun h => hnot (reads_identity_of_mem (lib after) hcontrol h hconfig)
  have hsame := hlib.determined.eq_of_changed hchange hpath ⟨repo, hrepo, rfl⟩ ⟨repo', hrepo', rfl⟩
  refine repositoryIdentity_eq (hparts .identity) (hparts' .identity) hsame ?_
  intro isEmpty isEmpty' h h'
  refine isEmpty_eq hlib hrepo hrepo' (headState_of_section hparts) (headState_of_section hparts')
    h h' ?_ ?_
  · -- a first or last reference in a file that is not read would be a gap
    by_contra hne
    have hchanges : refs.HasReference before ↔ ¬ refs.HasReference after :=
      (not_iff_comm.1 (not_iff.1 hne)).symm
    obtain ⟨hfile, hlock⟩ := refFile_of_flip hchange hchanges
    have hread : ¬ UnreadRef (dirs.text path) := hflip hchanges
    refine hnot (reads_identity_of_refs (hfile.resolve_left fun hpacked => ?_) hread hlock)
    exact hread (Or.inl (by rw [hpacked]; decide))
  · intro hrefs
    refine (hchange.elsewhere _ fun heq => ?_).symm
    exact hhead heq.symm hrefs

/-- A repository that is bare or not, with a detached or an unborn head, and with one reference or
none. -/
def identityRepository (dirs : GitDirs) (bare detached referenced : Bool) : Repository where
  workdir := some repoRoot
  path := dirs.gitDir
  commondir := dirs.commonDir
  isBare := bare
  head := if detached then .ok ⟨some "HEAD", some "HEAD", false, some tipCommit.id, none, none⟩
    else .error ⟨.unbornBranch, "unborn branch"⟩
  references := .ok (if referenced then
    [.ok ⟨some "refs/remotes/origin/main", some "origin/main", false, some tipCommit.id, none,
      none⟩] else [])

theorem identityRepository_snapshot (dirs : GitDirs) (bare detached referenced : Bool) :
    ∃ s, readSnapshot (identityRepository dirs bare detached referenced) {} = .ok s ∧
      s.identity.gitDir = dirs.gitDir ∧ s.identity.commonDir = dirs.commonDir ∧
      s.head.kind ≠ .attached ∧ s.identity.isBare = bare ∧
      s.identity.isEmpty = !(detached || referenced) := by
  cases bare <;> cases detached <;> cases referenced <;>
    exact ⟨_, rfl, rfl, rfl, nofun, rfl, rfl⟩

open Classical in
/-- The repository with a reference when the files have one. -/
noncomputable def identityLibrary (refs : RefFiles dirs) (bare : Files → Bool)
    (detached : Option Content → Bool) : GitLibrary := fun files _ =>
  .ok (identityRepository dirs (bare files) (detached (files (dirs.git "HEAD")))
    (refs.HasReference files))

theorem identityLibrary_inputs {bare : Files → Bool} (detached : Option Content → Bool)
    (hbare : (identityFootprint dirs).Determines fun files answer => bare files = answer) :
    IdentityInputs dirs refs repoPath (identityLibrary refs bare detached) where
  determined := by
    rintro f g _ _ ⟨_, hf, rfl⟩ ⟨_, hg, rfl⟩ heq
    obtain rfl := Except.ok.inj hf
    obtain rfl := Except.ok.inj hg
    have hsame : bare f = bare g := hbare f g _ _ rfl rfl heq
    simp only [identityRepository, hsame]
  head := by
    intro f g _ _ _ _ hf hg _ _ hhead _
    obtain rfl := Except.ok.inj hf
    obtain rfl := Except.ok.inj hg
    simp only [identityRepository, hhead]
  references := by
    intro f _ items hf hitems
    obtain rfl := Except.ok.inj hf
    obtain rfl := Except.ok.inj hitems
    by_cases hrefs : refs.HasReference f <;> simp [hrefs]

/-- The identity is wrong after a change that makes the repository bare or empty, or makes it so no
longer, when the plan does not read it. -/
theorem not_exactAfter_of_identity {bare : Files → Bool} {detached : Option Content → Bool}
    (hcontrol : dirs.IsControl path)
    (hunread : ∀ discover, ¬ (planForText discover repoPath (dirs.text path)).reads .identity)
    (hne : bare before ≠ bare after ∨
      ¬ ((detached (before (dirs.git "HEAD")) = true ∨ refs.HasReference before) ↔
        (detached (after (dirs.git "HEAD")) = true ∨ refs.HasReference after))) :
    ¬ ExactAfter (identityLibrary refs bare detached) repoPath dirs .identity before after path := by
  classical
  obtain ⟨s, hs, hgit, hcommon, hhead, hbare, hempty⟩ := identityRepository_snapshot dirs
    (bare before) (detached (before (dirs.git "HEAD"))) (decide (refs.HasReference before))
  obtain ⟨s', hs', -, -, -, hbare', hempty'⟩ := identityRepository_snapshot dirs
    (bare after) (detached (after (dirs.git "HEAD"))) (decide (refs.HasReference after))
  have hidentity : s.identity ≠ s'.identity := by
    intro heq
    rcases hne with hne | hne
    · rw [← hbare, ← hbare', heq] at hne
      exact hne rfl
    · rw [heq, hempty', Bool.not_inj_iff, Bool.eq_iff_iff] at hempty
      simp only [Bool.or_eq_true, decide_eq_true_eq] at hempty
      exact hne hempty.symm
  exact not_exactAfter hcontrol hs hgit hcommon hs' (hunread _) (fun _ => Or.inr hhead) hidentity

/-- For every gap there is such a repository whose identity goes wrong. -/
theorem exists_not_exactAfter_of_identityGap (hcontrol : dirs.IsControl path)
    (hchange : Footprint.Changed before after path)
    (hgap : IdentityGap dirs refs before after path) :
    ∃ lib, IdentityInputs dirs refs repoPath lib ∧
      ¬ ExactAfter lib repoPath dirs .identity before after path := by
  have hconst := (identityFootprint dirs).determines_const false
  rcases hgap with rfl | ⟨rfl, hrefs⟩ | ⟨hflip, hunread⟩
  · -- some answer of the footprint notices the change; let it say whether the repository is bare
    have hpath : dirs.common "config" ∈ (identityFootprint dirs).keys before :=
      Or.inl (Or.inl rfl)
    obtain ⟨answer, hanswer, hbefore, hafter⟩ := Footprint.exists_told_apart hchange hpath
    refine ⟨_, identityLibrary_inputs (fun _ => false) hanswer,
      not_exactAfter_of_identity hcontrol ?_ (Or.inl ?_)⟩
    · intro discover
      rw [reads_iff_static (dirs.text_common (by decide) (by decide)) (by decide)]
      decide
    · rw [hbefore, hafter]
      decide
  · -- `HEAD` is detached by the change
    refine ⟨_, identityLibrary_inputs (fun head => decide (head ≠ before (dirs.git "HEAD"))) hconst,
      not_exactAfter_of_identity hcontrol ?_ (Or.inr fun hiff => ?_)⟩
    · intro discover
      rw [reads_iff_static (dirs.text_git (by decide)) (by decide)]
      decide
    · have hdetached := hiff.2 (Or.inl (decide_eq_true hchange.differs))
      rcases hdetached with hsame | hbefore
      · exact of_decide_eq_true hsame rfl
      · exact hrefs hbefore
  · -- a first or a last reference
    refine ⟨_, identityLibrary_inputs (fun _ => false) hconst,
      not_exactAfter_of_identity hcontrol ?_ (Or.inr ?_)⟩
    · exact fun _ => not_reads_identity_of_unreadRef hunread (refFile_of_flip hchange hflip).2
    · simp only [Bool.false_eq_true, false_or, hflip]
      exact fun h => iff_not_self h.symm

/-- A refresh for a changed control file keeps the identity exact, whatever `libgit2` makes of the
files, when the change is no gap, and only then. -/
theorem identity_exact_iff (hcontrol : dirs.IsControl path)
    (hchange : Footprint.Changed before after path) :
    (∀ lib, IdentityInputs dirs refs repoPath lib →
        ExactAfter lib repoPath dirs .identity before after path) ↔
      ¬ IdentityGap dirs refs before after path := by
  constructor
  · intro hexact hgap
    obtain ⟨lib, hlib, hnot⟩ := exists_not_exactAfter_of_identityGap hcontrol hchange hgap
    exact hnot (hexact lib hlib)
  · intro hgap lib hlib
    refine exactAfter_of_reads_or_same (by decide) hcontrol ?_
    intro options snapshot full hsnapshot hfull
    exact reads_or_same_of_not_identityGap hlib hcontrol hchange hgap hsnapshot hfull

end

/-! ### The first fetch -/

/-- References in files of their own: every file below `refs` that is not empty holds one. -/
def looseRefs (dirs : GitDirs) : RefFiles dirs where
  holds path content := content ≠ [] ∧ dropSuffix (dirs.text path) ".lock" = none ∧
    ∃ rest, rest ≠ [] ∧ path = dirs.commonDir.descend (namesOf "refs" ++ rest)
  refFile := by
    rintro _ content ⟨-, hlock, rest, hrest, rfl⟩
    refine ⟨?_, Or.inr ?_, hlock⟩
    · rw [GitDirs.IsControl, PathBuf.startsWith_descend, Bool.or_true]
    · rw [GitDirs.text_commonDir_append (by decide) (by decide)]
      exact hasPrefix_toStringLossy_below (by decide) hrest (by decide)

/-- The files of a repository without references. -/
def initialFiles : Files :=
  Function.update (fun _ => none) (plainDirs.git "HEAD")
    (some (StdPath.bytesOf "ref: refs/heads/main\n"))

/-- The file of the branch that was fetched. -/
def fetchedRef : PathBuf := plainDirs.common "refs/remotes/origin/main"

/-- The files after the branch was fetched. -/
def fetchedFiles : Files :=
  Function.update initialFiles fetchedRef (some (StdPath.bytesOf tipCommit.id.hex))

/-- The repository is not bare, and its head stays unborn. -/
noncomputable def fetchingLibrary : GitLibrary :=
  identityLibrary (looseRefs plainDirs) (fun _ => false) fun _ => false

theorem fetchedFiles_changed : Footprint.Changed initialFiles fetchedFiles fetchedRef :=
  Footprint.changed_update (by decide)

theorem initialFiles_references : ¬ (looseRefs plainDirs).HasReference initialFiles := by
  rintro ⟨path, content, hpath, -, -, rest, -, rfl⟩
  have hne : plainDirs.commonDir.descend (namesOf "refs" ++ rest) ≠ plainDirs.git "HEAD" := by
    intro heq
    have hnames := congrArg List.head? (PathBuf.descend_injective _ heq)
    rw [List.head?_append_of_ne_nil _ (by decide)] at hnames
    exact absurd hnames (by decide)
  rw [initialFiles, Function.update_of_ne hne] at hpath
  cases hpath

theorem fetchedFiles_references : (looseRefs plainDirs).HasReference fetchedFiles := by
  refine ⟨fetchedRef, _, Function.update_self _ _ _, by decide, by decide,
    namesOf "remotes/origin/main", by decide, ?_⟩
  decide

/-- The first branch that is fetched into a repository makes it one that is not empty, and the plan
for the file of the branch does not read the identity. -/
theorem first_fetch_identity_stale :
    IdentityInputs plainDirs (looseRefs plainDirs) repoRoot fetchingLibrary ∧
    Footprint.Changed initialFiles fetchedFiles fetchedRef ∧
    ¬ ExactAfter fetchingLibrary repoRoot plainDirs .identity initialFiles fetchedFiles
      fetchedRef := by
  have hunread : UnreadRef (plainDirs.text fetchedRef) :=
    Or.inr ⟨"refs/remotes/", by decide, by decide⟩
  refine ⟨identityLibrary_inputs _ (Footprint.determines_const _ false), fetchedFiles_changed,
    not_exactAfter_of_identity (GitDirs.isControl_common _) ?_ (Or.inr ?_)⟩
  · exact fun _ => not_reads_identity_of_unreadRef hunread (by decide)
  · simp [initialFiles_references, fetchedFiles_references]

/-- The files after a first commit that follows the fetch. -/
def committedAfterFetch : Files :=
  Function.update fetchedFiles (plainDirs.branchRef mainBranch)
    (some (StdPath.bytesOf tipCommit.id.hex))

theorem committedAfterFetch_references :
    (looseRefs plainDirs).HasReference committedAfterFetch := by
  refine ⟨fetchedRef, StdPath.bytesOf tipCommit.id.hex, by decide, by decide, by decide,
    namesOf "remotes/origin/main", by decide, ?_⟩
  decide

/-- A commit after the fetch leaves the repository with references, so the identity is exact. -/
theorem identity_exact_iff_commit :
    ExactAfter fetchingLibrary repoRoot plainDirs .identity fetchedFiles committedAfterFetch
      (plainDirs.branchRef mainBranch) := by
  have hgap : ¬ IdentityGap plainDirs (looseRefs plainDirs) fetchedFiles committedAfterFetch
      (plainDirs.branchRef mainBranch) := by
    rintro (h | ⟨h, -⟩ | ⟨h, -⟩)
    · exact absurd h (by decide)
    · exact absurd h (by decide)
    · exact h.1 fetchedFiles_references committedAfterFetch_references
  exact (identity_exact_iff (GitDirs.isControl_branchRef _)
    (Footprint.changed_update (by decide))).2 hgap _
      (identityLibrary_inputs _ (Footprint.determines_const _ false))

end Gitseer
