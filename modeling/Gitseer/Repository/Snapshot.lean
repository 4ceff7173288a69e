/-
**Reading a snapshot, and refreshing a retained one.**

A full read runs every section reader on the repository discovered from a path.  A refresh starts
from a retained snapshot and a plan: it keeps the snapshot, reads all of it again, or reads the
sections of the planned domains.  In the last case the upstream is read for the head that the
snapshot has at that point, which is the retained head when the plan does not read the head.

Main definitions:

* `Discover` — what discovering a repository from a path answers;
* `snapshotRepositoryWithOptions`, `refreshDomains`, `refreshRepositoryWithPlan`;
* `snapshotDelta` — the comparison of two snapshots;
* `Refreshes` — what a refresh of some domains makes of a retained snapshot, section by section.

Main results:

* `refreshDomains_eq_ok` — a targeted refresh succeeds with exactly the snapshot `Refreshes` says;
* `readSnapshot_eq_refreshDomains` — a full read is a refresh of every domain;
* `snapshotDelta_hasChanges` — two snapshots compare as equal exactly when their path sections are
  alike and their other sections equal;
* `refreshDomains_ok_iff` — on a repository that can be read in full, a targeted refresh fails
  exactly when it reads the upstream of a retained head whose branch is gone.
-/

import Gitseer.Repository.Paths
import Gitseer.Repository.Readers

set_option relaxedAutoImplicit false
set_option autoImplicit false

open StdPath (PathBuf FileName)

namespace Gitseer

/-! ### Full reads -/

/-- What discovering a repository from a path answers at one moment. -/
abbrev Discover := PathBuf → Except GitError Repository

/-- The discovered repository; one that is not found is reported with the path. -/
def discoverRepository (discover : Discover) (path : PathBuf) : Except SnapshotError Repository :=
  match discover path with
  | .ok repo => .ok repo
  | .error e => if e.code = .notFound then .error (.notRepository path) else .error (.git e)

/-- All sections of an open repository. -/
def readSnapshot (repo : Repository) (options : SnapshotOptions) :
    Except SnapshotError RepositorySnapshot := do
  let identity ← repositoryIdentity repo
  let head ← headState repo
  let headCommit ← headCommit repo head
  let upstream ← upstreamState repo head
  let paths ← pathState repo options
  let operation := operationState repo
  let remotes ← remotes repo
  let branches ← branches repo
  let tags ← tags repo
  let stashes ← stashes repo
  let worktrees ← worktrees repo
  let submodules ← submodules repo
  .ok {
    identity := identity
    head := head
    headCommit := headCommit
    upstream := upstream
    paths := paths
    operation := operation
    remotes := remotes
    branches := branches
    tags := tags
    stashes := stashes
    worktrees := worktrees
    submodules := submodules }

def snapshotRepositoryWithOptions (discover : Discover) (path : PathBuf)
    (options : SnapshotOptions) : Except SnapshotError RepositorySnapshot := do
  let repo ← discoverRepository discover path
  readSnapshot repo options

def snapshotRepository (discover : Discover) (path : PathBuf) :
    Except SnapshotError RepositorySnapshot :=
  snapshotRepositoryWithOptions discover path {}

/-! ### Refreshes -/

/-- A section is read again when its domain is in the set, and kept otherwise. -/
def readIf {α : Type} (domains : Finset RefreshDomain) (d : RefreshDomain)
    (read : Except SnapshotError α) (kept : α) : Except SnapshotError α :=
  if d ∈ domains then read else .ok kept

/-- The head and its commit. -/
def readHead (repo : Repository) : Except SnapshotError (HeadState × Option CommitSummary) := do
  let head ← headState repo
  let commit ← headCommit repo head
  .ok (head, commit)

def refreshDomains (repo : Repository) (snapshot : RepositorySnapshot)
    (domains : Finset RefreshDomain) (options : SnapshotOptions) :
    Except SnapshotError RepositorySnapshot := do
  let identity ← readIf domains .identity (repositoryIdentity repo) snapshot.identity
  let (head, headCommit) ←
    readIf domains .head (readHead repo) (snapshot.head, snapshot.headCommit)
  let upstream ← readIf domains .upstream (upstreamState repo head) snapshot.upstream
  let paths ← readIf domains .paths (pathState repo options) snapshot.paths
  let operation ← readIf domains .operation (.ok (operationState repo)) snapshot.operation
  let remotes ← readIf domains .remotes (remotes repo) snapshot.remotes
  let branches ← readIf domains .branches (branches repo) snapshot.branches
  let tags ← readIf domains .tags (tags repo) snapshot.tags
  let stashes ← readIf domains .stashes (stashes repo) snapshot.stashes
  let worktrees ← readIf domains .worktrees (worktrees repo) snapshot.worktrees
  let submodules ← readIf domains .submodules (submodules repo) snapshot.submodules
  .ok {
    identity := identity
    head := head
    headCommit := headCommit
    upstream := upstream
    paths := paths
    operation := operation
    remotes := remotes
    branches := branches
    tags := tags
    stashes := stashes
    worktrees := worktrees
    submodules := submodules }

/-- `refresh_repository_with_plan`: without a retained snapshot everything is read. -/
def refreshRepositoryWithPlan (discover : Discover) (path : PathBuf)
    (previous : Option RepositorySnapshot) (plan : RefreshPlan) (options : SnapshotOptions) :
    Except SnapshotError SnapshotRefresh :=
  match previous, plan with
  | none, _ => do
      let snapshot ← snapshotRepositoryWithOptions discover path options
      .ok ⟨snapshot, .full⟩
  | some previous, .none => .ok ⟨previous, .none⟩
  | some _, .full => do
      let snapshot ← snapshotRepositoryWithOptions discover path options
      .ok ⟨snapshot, .full⟩
  | some previous, .domains domains => do
      let repo ← discoverRepository discover path
      let snapshot ← refreshDomains repo previous domains options
      .ok ⟨snapshot, .domains domains⟩

/-! ### What a refresh does to each section -/

/-- `s` is what refreshing the domains of a set makes of `previous`: every section is the reader's
result or the retained one, and the upstream is read for the head of `s`. -/
structure Refreshes (repo : Repository) (options : SnapshotOptions)
    (domains : Finset RefreshDomain) (previous s : RepositorySnapshot) : Prop where
  identity : readIf domains .identity (repositoryIdentity repo) previous.identity = .ok s.identity
  head : readIf domains .head (readHead repo) (previous.head, previous.headCommit) =
    .ok (s.head, s.headCommit)
  upstream : readIf domains .upstream (upstreamState repo s.head) previous.upstream =
    .ok s.upstream
  paths : readIf domains .paths (pathState repo options) previous.paths = .ok s.paths
  operation : readIf domains .operation (.ok (operationState repo)) previous.operation =
    .ok s.operation
  remotes : readIf domains .remotes (remotes repo) previous.remotes = .ok s.remotes
  branches : readIf domains .branches (branches repo) previous.branches = .ok s.branches
  tags : readIf domains .tags (tags repo) previous.tags = .ok s.tags
  stashes : readIf domains .stashes (stashes repo) previous.stashes = .ok s.stashes
  worktrees : readIf domains .worktrees (worktrees repo) previous.worktrees = .ok s.worktrees
  submodules : readIf domains .submodules (submodules repo) previous.submodules = .ok s.submodules

section

variable {α : Type} {domains : Finset RefreshDomain} {d : RefreshDomain}
  {read : Except SnapshotError α} {kept a : α}

theorem readIf_of_mem (h : d ∈ domains) : readIf domains d read kept = read := if_pos h

theorem readIf_of_not_mem (h : d ∉ domains) : readIf domains d read kept = .ok kept := if_neg h

theorem readIf_keeps (h : d ∉ domains) (hread : readIf domains d read kept = .ok a) : a = kept := by
  rw [readIf_of_not_mem h] at hread
  exact (Except.ok.inj hread).symm

/-- A section is read when its reader succeeds, and can be kept in any case. -/
theorem readIf_ok (domains : Finset RefreshDomain) (d : RefreshDomain) (kept : α)
    (h : d ∈ domains → ∃ a, read = .ok a) : ∃ a, readIf domains d read kept = .ok a := by
  by_cases hd : d ∈ domains
  · obtain ⟨a, ha⟩ := h hd
    exact ⟨a, by rw [readIf_of_mem hd, ha]⟩
  · exact ⟨kept, readIf_of_not_mem hd⟩

end

/-- A targeted refresh succeeds with exactly the snapshot `Refreshes` says. -/
theorem refreshDomains_eq_ok {repo : Repository} {options : SnapshotOptions}
    {domains : Finset RefreshDomain} {previous s : RepositorySnapshot} :
    refreshDomains repo previous domains options = .ok s ↔
      Refreshes repo options domains previous s := by
  unfold refreshDomains
  constructor
  · intro h
    obtain ⟨identity, h₁, h⟩ := Result.bind_eq_ok.1 h
    obtain ⟨⟨head, headCommit⟩, h₂, h⟩ := Result.bind_eq_ok.1 h
    obtain ⟨upstream, h₃, h⟩ := Result.bind_eq_ok.1 h
    obtain ⟨paths, h₄, h⟩ := Result.bind_eq_ok.1 h
    obtain ⟨operation, h₅, h⟩ := Result.bind_eq_ok.1 h
    obtain ⟨remotes, h₆, h⟩ := Result.bind_eq_ok.1 h
    obtain ⟨branches, h₇, h⟩ := Result.bind_eq_ok.1 h
    obtain ⟨tags, h₈, h⟩ := Result.bind_eq_ok.1 h
    obtain ⟨stashes, h₉, h⟩ := Result.bind_eq_ok.1 h
    obtain ⟨worktrees, h₁₀, h⟩ := Result.bind_eq_ok.1 h
    obtain ⟨submodules, h₁₁, h⟩ := Result.bind_eq_ok.1 h
    obtain rfl := Except.ok.inj h
    exact ⟨h₁, h₂, h₃, h₄, h₅, h₆, h₇, h₈, h₉, h₁₀, h₁₁⟩
  · rintro ⟨h₁, h₂, h₃, h₄, h₅, h₆, h₇, h₈, h₉, h₁₀, h₁₁⟩
    simp only [h₁, h₂, h₃, h₄, h₅, h₆, h₇, h₈, h₉, h₁₀, h₁₁, Result.ok_bind]

/-- Every domain. -/
def allDomains : Finset RefreshDomain :=
  {.identity, .head, .upstream, .paths, .operation, .remotes, .branches, .tags, .stashes,
    .worktrees, .submodules}

theorem mem_allDomains (d : RefreshDomain) : d ∈ allDomains := by cases d <;> decide

/-- A full read is a refresh of every domain, whatever was retained. -/
theorem readSnapshot_eq_refreshDomains (repo : Repository) (options : SnapshotOptions)
    (previous : RepositorySnapshot) :
    readSnapshot repo options = refreshDomains repo previous allDomains options := by
  simp only [readSnapshot, refreshDomains, readIf_of_mem (mem_allDomains _), readHead, bind_assoc,
    Result.ok_bind]

theorem readSnapshot_eq_ok {repo : Repository} {options : SnapshotOptions}
    {s : RepositorySnapshot} :
    readSnapshot repo options = .ok s ↔ Refreshes repo options allDomains s s := by
  rw [readSnapshot_eq_refreshDomains repo options s, refreshDomains_eq_ok]

theorem discoverRepository_eq_ok {discover : Discover} {path : PathBuf} {repo : Repository} :
    discoverRepository discover path = .ok repo ↔ discover path = .ok repo := by
  unfold discoverRepository
  cases discover path with
  | ok found => simp
  | error e =>
      by_cases he : e.code = .notFound
      · simp [he]
      · simp [he]

/-- A full read of the repository that a path leads to reads all of its sections. -/
theorem refreshes_of_snapshot {discover : Discover} {path : PathBuf} {repo : Repository}
    {options : SnapshotOptions} {s : RepositorySnapshot} (hrepo : discover path = .ok repo)
    (hs : snapshotRepositoryWithOptions discover path options = .ok s) :
    Refreshes repo options allDomains s s := by
  obtain ⟨found, hfound, hread⟩ := Result.bind_eq_ok.1 hs
  obtain rfl := Except.ok.inj ((discoverRepository_eq_ok.1 hfound).symm.trans hrepo)
  exact readSnapshot_eq_ok.1 hread

/-! ### Comparing two snapshots -/

def snapshotDelta (previous current : RepositorySnapshot) : SnapshotDelta where
  repositoryId := current.identity.id
  identityChanged := previous.identity ≠ current.identity
  headChanged := previous.head ≠ current.head || previous.headCommit ≠ current.headCommit
  upstreamChanged := previous.upstream ≠ current.upstream
  operationChanged := previous.operation ≠ current.operation
  paths := pathDelta previous.paths current.paths
  remotesChanged := previous.remotes ≠ current.remotes
  branchesChanged := previous.branches ≠ current.branches
  tagsChanged := previous.tags ≠ current.tags
  stashesChanged := previous.stashes ≠ current.stashes
  worktreesChanged := previous.worktrees ≠ current.worktrees
  submodulesChanged := previous.submodules ≠ current.submodules

/-- Two snapshots compare as equal exactly when their path sections are alike and everything else
is equal. -/
theorem snapshotDelta_hasChanges {previous current : RepositorySnapshot} :
    (snapshotDelta previous current).hasChanges = false ↔
      previous.paths.Alike current.paths ∧
        { previous with paths := current.paths } = current := by
  obtain ⟨i, h, c, u, p, o, r, b, t, st, w, sm⟩ := previous
  obtain ⟨i', h', c', u', p', o', r', b', t', st', w', sm'⟩ := current
  simp only [SnapshotDelta.hasChanges, snapshotDelta, Bool.or_eq_false_iff, pathDelta_hasChanges,
    decide_eq_false_iff_not, not_not, RepositorySnapshot.mk.injEq]
  tauto

/-! ### When a targeted refresh fails -/

/-- The head names a branch that the repository does not have. -/
def HeadState.BranchGone (head : HeadState) (repo : Repository) : Prop :=
  head.kind = .attached ∧ ∃ name, head.branch = some name ∧ ¬ repo.hasLocalBranch name

/-- Where the branches can be read, the upstream of a head can be read exactly when the branch it
names is there. -/
theorem upstreamState_ok_iff {repo : Repository} {summaries : List BranchSummary}
    (hbranches : branches repo = .ok summaries) (head : HeadState) :
    (∃ upstream, upstreamState repo head = .ok upstream) ↔ ¬ head.BranchGone repo := by
  constructor
  · rintro ⟨upstream, hok⟩ ⟨hkind, name, hname, hgone⟩
    obtain ⟨e, he⟩ := upstreamState_error_of_missing hkind hname hgone
    rw [he] at hok
    cases hok
  · intro hnot
    by_cases hkind : head.kind = .attached
    · cases hbranch : head.branch with
      | none => exact ⟨none, upstreamState_of_no_branch hbranch⟩
      | some name =>
          by_cases hlocal : repo.hasLocalBranch name
          · exact upstreamState_ok_of_branches hbranches hbranch hlocal
          · exact absurd ⟨hkind, name, hbranch, hlocal⟩ hnot
    · exact ⟨none, upstreamState_of_not_attached hkind⟩

/-- On a repository that can be read in full, a targeted refresh fails exactly when it reads the
upstream of a retained head whose branch is gone. -/
theorem refreshDomains_ok_iff {repo : Repository} {options : SnapshotOptions}
    {full : RepositorySnapshot} (hfull : readSnapshot repo options = .ok full)
    (previous : RepositorySnapshot) (domains : Finset RefreshDomain) :
    (∃ s, refreshDomains repo previous domains options = .ok s) ↔
      ¬ (.upstream ∈ domains ∧ .head ∉ domains ∧ previous.head.BranchGone repo) := by
  have hread := readSnapshot_eq_ok.1 hfull
  obtain ⟨hi, hh, hu, hp, ho, hr, hb, ht, hst, hw, hsm⟩ := hread
  simp only [readIf_of_mem (mem_allDomains _)] at hi hh hu hp ho hr hb ht hst hw hsm
  constructor
  · rintro ⟨s, hs⟩ ⟨hup, hhead, hgone⟩
    have hrefresh := refreshDomains_eq_ok.1 hs
    have hkept := readIf_keeps hhead hrefresh.head
    have hupstream := hrefresh.upstream
    rw [readIf_of_mem hup, (Prod.mk.inj hkept).1] at hupstream
    exact (upstreamState_ok_iff hb previous.head).1 ⟨_, hupstream⟩ hgone
  · intro hnot
    obtain ⟨identity, h₁⟩ := readIf_ok domains .identity previous.identity fun _ => ⟨_, hi⟩
    obtain ⟨⟨head, commit⟩, h₂⟩ := readIf_ok domains .head
      (previous.head, previous.headCommit) fun _ => ⟨_, hh⟩
    -- the upstream is read for the full read's head or for the retained one
    have hupstream : .upstream ∈ domains → ∃ u, upstreamState repo head = .ok u := by
      intro hup
      by_cases hhead : RefreshDomain.head ∈ domains
      · rw [readIf_of_mem hhead, hh] at h₂
        obtain rfl := (Prod.mk.inj (Except.ok.inj h₂)).1
        exact ⟨_, hu⟩
      · obtain rfl := (Prod.mk.inj (readIf_keeps hhead h₂)).1
        exact (upstreamState_ok_iff hb _).2 fun hgone => hnot ⟨hup, hhead, hgone⟩
    obtain ⟨upstream, h₃⟩ := readIf_ok domains .upstream previous.upstream hupstream
    obtain ⟨paths, h₄⟩ := readIf_ok domains .paths previous.paths fun _ => ⟨_, hp⟩
    obtain ⟨operation, h₅⟩ := readIf_ok domains .operation previous.operation fun _ => ⟨_, ho⟩
    obtain ⟨remotes, h₆⟩ := readIf_ok domains .remotes previous.remotes fun _ => ⟨_, hr⟩
    obtain ⟨branches, h₇⟩ := readIf_ok domains .branches previous.branches fun _ => ⟨_, hb⟩
    obtain ⟨tags, h₈⟩ := readIf_ok domains .tags previous.tags fun _ => ⟨_, ht⟩
    obtain ⟨stashes, h₉⟩ := readIf_ok domains .stashes previous.stashes fun _ => ⟨_, hst⟩
    obtain ⟨worktrees, h₁₀⟩ := readIf_ok domains .worktrees previous.worktrees fun _ => ⟨_, hw⟩
    obtain ⟨submodules, h₁₁⟩ := readIf_ok domains .submodules previous.submodules
      fun _ => ⟨_, hsm⟩
    exact ⟨⟨identity, head, commit, upstream, paths, operation, remotes, branches, tags, stashes,
      worktrees, submodules⟩,
      refreshDomains_eq_ok.2 ⟨h₁, h₂, h₃, h₄, h₅, h₆, h₇, h₈, h₉, h₁₀, h₁₁⟩⟩

/-! ### Two small repositories -/

def repoName : FileName := FileName.ofString "repo"

/-- The worktree root of the repositories below. -/
def repoRoot : PathBuf := PathBuf.absolute [repoName]

/-- Their Git directory. -/
def repoGitDir : PathBuf := repoRoot.child gitName

/-- A repository without commits. -/
def plainRepository : Repository where
  workdir := some repoRoot
  path := repoGitDir
  commondir := repoGitDir

def plainSnapshot : RepositorySnapshot where
  identity := {
    id := "/repo"
    worktreeRoot := some repoRoot
    gitDir := repoGitDir
    commonDir := repoGitDir
    gitNamespace := none
    isBare := false
    isEmpty := true
    isShallow := false
    isLinkedWorktree := false }
  head := ⟨.unborn, none, none, none⟩
  headCommit := none
  upstream := none
  paths := {}
  operation := ⟨.clean, none, [], none⟩
  remotes := []
  branches := []
  tags := []
  stashes := []
  worktrees := []
  submodules := []

/-- The only commit of the repository below. -/
def tipCommit : Commit where
  id := ⟨"84b2ba6a7bb2a3ed3ef1a4e3a0b8d3c6cb6a3a1f"⟩
  parentIds := []
  summary := some "initial"
  authorName := some "A"
  authorEmail := some "a@example.com"
  timeSeconds := 0

/-- A repository with one commit and one branch, checked out and without an upstream. -/
def branchRepository (name : String) : Repository :=
  { plainRepository with
    head := .ok ⟨some ("refs/heads/" ++ name), some name, true, some tipCommit.id, none, none⟩
    findCommit := fun oid =>
      if oid = tipCommit.id then .ok tipCommit else .error ⟨.notFound, "object not found"⟩
    branches := .ok [.ok (⟨.ok (some name), true, some tipCommit.id,
      .error ⟨.notFound, "no upstream"⟩⟩, .local)] }

def tipSummary : CommitSummary :=
  ⟨tipCommit.id.hex, [], some "initial", some "A", some "a@example.com", 0⟩

def branchSnapshot (name : String) : RepositorySnapshot :=
  { plainSnapshot with
    identity := { plainSnapshot.identity with isEmpty := false }
    head := ⟨.attached, some ("refs/heads/" ++ name), some name, some tipCommit.id.hex⟩
    headCommit := some tipSummary
    branches := [⟨name, .local, true, some tipCommit.id.hex, some tipSummary, none, none, none⟩] }

example : readSnapshot plainRepository {} = .ok plainSnapshot := by decide

example : readSnapshot (branchRepository "topic") {} = .ok (branchSnapshot "topic") := by decide

end Gitseer
