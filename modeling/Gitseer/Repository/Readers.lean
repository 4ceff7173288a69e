/-
**The readers of the sections of a snapshot.**

Each section of a snapshot but the path section (`Gitseer.Repository.Paths`) is read by one
function of the open repository.  The head commit and the upstream are read for a given head: a
targeted refresh passes the head of the retained snapshot.

Main definitions:

* `repositoryIdentity`, `headState`, `headCommit`, `upstreamState` — identity and head;
* `operationState`, `bisectState`, `readOperationOidFile` — the operation in progress;
* `remotes`, `branches`, `branchUpstreamCounts`, `tags`, `stashes` — references;
* `worktrees`, `submodules`.

Main results:

* `upstreamState_of_not_attached` — a head that names no branch has no upstream;
* `upstreamState_error_of_missing` — the upstream of a branch that does not exist is an error;
* `upstreamState_ok_of_branches` — where every branch can be read, so can the upstream of an
  existing one.
-/

import Gitseer.Repository.Git
import Mathlib.Data.List.Sort
import Mathlib.Data.String.Basic

set_option relaxedAutoImplicit false
set_option autoImplicit false

open StdPath (PathBuf)

namespace Gitseer

/-! ### Identity and head -/

/-- The canonical text of a path, or its text when it has no canonical form. -/
def stablePathId (repo : Repository) (path : PathBuf) : String :=
  ((repo.canonicalize path).getD path).toStringLossy

/-- Has the repository neither a commit under its head nor any reference? -/
def repositoryIsEmpty (repo : Repository) : Except SnapshotError Bool :=
  match repo.head with
  | .ok _ => .ok false
  | .error e =>
      if e.code = .unbornBranch then do
        match ← liftGit repo.references with
        | [] => .ok true
        | .ok _ :: _ => .ok false
        | .error e :: _ => .error (.git e)
      else .error (.git e)

def repositoryIdentity (repo : Repository) : Except SnapshotError RepositoryIdentity := do
  let isEmpty ← repositoryIsEmpty repo
  .ok {
    id := stablePathId repo (repo.workdir.getD repo.path)
    worktreeRoot := repo.workdir
    gitDir := repo.path
    commonDir := repo.commondir
    gitNamespace := repo.gitNamespace
    isBare := repo.isBare
    isEmpty := isEmpty
    isShallow := repo.isShallow
    isLinkedWorktree := repo.path ≠ repo.commondir }

def headState (repo : Repository) : Except SnapshotError HeadState :=
  match repo.head with
  | .ok head =>
      if head.isBranch then
        .ok ⟨.attached, head.name, head.shorthand, head.target.map Oid.hex⟩
      else .ok ⟨.detached, head.name, none, head.target.map Oid.hex⟩
  | .error e =>
      if e.code = .unbornBranch then .ok ⟨.unborn, none, none, none⟩
      else if e.code = .notFound then .ok ⟨.missing, none, none, none⟩
      else .error (.git e)

def commitSummary (repo : Repository) (oid : Oid) : Option CommitSummary :=
  match repo.findCommit oid with
  | .ok commit => some {
      oid := commit.id.hex
      parentOids := commit.parentIds.map Oid.hex
      summary := commit.summary
      authorName := commit.authorName
      authorEmail := commit.authorEmail
      timeSeconds := commit.timeSeconds }
  | .error _ => none

def headCommit (repo : Repository) (head : HeadState) :
    Except SnapshotError (Option CommitSummary) :=
  match head.oid.bind Oid.fromStr with
  | some oid => .ok (commitSummary repo oid)
  | none => .ok none

/-- The ahead and behind counts of two tips, both zero when one is missing. -/
def aheadBehind (repo : Repository) : Option Oid → Option Oid → Except SnapshotError (ℕ × ℕ)
  | some local', some remote => liftGit (repo.graphAheadBehind local' remote)
  | _, _ => .ok (0, 0)

def upstreamState (repo : Repository) (head : HeadState) :
    Except SnapshotError (Option UpstreamState) :=
  if head.kind ≠ .attached then .ok none
  else match head.branch with
    | none => .ok none
    | some branchName => do
        let branch ← liftGit (repo.findBranch branchName)
        match branch.upstream with
        | .error e => if e.code = .notFound then .ok none else .error (.git e)
        | .ok upstream =>
            let name := (← liftGit upstream.name).getD "<invalid-utf8>"
            let counts ← aheadBehind repo branch.target upstream.target
            .ok (some ⟨name, upstream.target.map Oid.hex, counts.1, counts.2⟩)

/-! ### The operation in progress -/

def OperationHeadRole.rank : OperationHeadRole → ℕ
  | merge => 0
  | rebase => 1
  | cherryPick => 2
  | revert => 3

/-- `char::is_whitespace`: the characters that end a word, those of Unicode's `White_Space`. -/
def isWhitespace (c : Char) : Bool :=
  c = ' ' || (9 ≤ c.toNat && c.toNat ≤ 13) || c.toNat = 0x85 || c.toNat = 0xa0 ||
    c.toNat = 0x1680 || (0x2000 ≤ c.toNat && c.toNat ≤ 0x200a) || c.toNat = 0x2028 ||
    c.toNat = 0x2029 || c.toNat = 0x202f || c.toNat = 0x205f || c.toNat = 0x3000

/-- The first word of a text. -/
def firstWord (l : List Char) : Option String :=
  match (l.dropWhile isWhitespace).takeWhile fun c => !isWhitespace c with
  | [] => none
  | word => some (String.ofList word)

/-- The object ids a head file of an operation lists, one to a line. -/
def readOperationHeadFile (repo : Repository) (relativePath : String) (role : OperationHeadRole) :
    List OperationHead :=
  match repo.readFile relativePath with
  | none => []
  | some contents =>
      ((contents.toList.splitOn '\n').filterMap firstWord).filterMap fun oid =>
        if (Oid.fromStr oid).isSome then some ⟨role, oid⟩ else none

def operationHeads (repo : Repository) : List OperationHead :=
  List.insertionSort (fun a b => a.role.rank < b.role.rank ∨ (a.role = b.role ∧ a.oid ≤ b.oid))
    (readOperationHeadFile repo "MERGE_HEAD" .merge ++
      readOperationHeadFile repo "REBASE_HEAD" .rebase ++
      readOperationHeadFile repo "CHERRY_PICK_HEAD" .cherryPick ++
      readOperationHeadFile repo "REVERT_HEAD" .revert)

def readOperationOidFile (repo : Repository) (relativePath : String) : Option String := do
  let contents ← repo.readFile relativePath
  let token ← firstWord contents.toList
  if (Oid.fromStr token).isSome then some token
  else match repo.findReference token with
    | .ok reference => reference.target.map Oid.hex
    | .error _ => none

/-- Does the text start with the prefix? -/
def hasPrefix (text start : String) : Bool := start.toList.isPrefixOf text.toList

theorem hasPrefix_iff {text start : String} :
    hasPrefix text start = true ↔ start.toList <+: text.toList :=
  List.isPrefixOf_iff_prefix

/-- The targets of the direct references whose names satisfy a test, sorted. -/
def bisectOids (references : List (Except GitError Reference)) (test : String → Bool) :
    List String :=
  List.insertionSort (· ≤ ·) (references.filterMap fun item =>
    match item with
    | .ok reference =>
        match reference.name, reference.target with
        | some name, some oid => if test name then some oid.hex else none
        | _, _ => none
    | .error _ => none)

def bisectState (repo : Repository) : BisectState :=
  let startOid := readOperationOidFile repo "BISECT_START"
  match repo.references with
  | .error _ => ⟨startOid, [], [], []⟩
  | .ok references => {
      startOid := startOid
      goodOids := bisectOids references fun name => hasPrefix name "refs/bisect/good-"
      badOids := bisectOids references fun name => name = "refs/bisect/bad"
      skippedOids := bisectOids references fun name => hasPrefix name "refs/bisect/skip-" }

def operationKind : RepositoryState → OperationKind
  | .clean => .clean
  | .merge => .merge
  | .revert => .revert
  | .revertSequence => .revertSequence
  | .cherryPick => .cherryPick
  | .cherryPickSequence => .cherryPickSequence
  | .bisect => .bisect
  | .rebase => .rebase
  | .rebaseInteractive => .rebaseInteractive
  | .rebaseMerge => .rebaseMerge
  | .applyMailbox => .applyMailbox
  | .applyMailboxOrRebase => .applyMailboxOrRebase

def operationState (repo : Repository) : OperationState :=
  let kind := operationKind repo.state
  { kind := kind
    message := repo.message
    heads := operationHeads repo
    bisect := if kind = .bisect then some (bisectState repo) else none }

/-! ### Remotes, branches, tags and stashes -/

/-- The text without the prefix, when it has it. -/
def dropPrefix (text start : String) : Option String :=
  if hasPrefix text start then some (String.ofList (text.toList.drop start.toList.length))
  else none

def remoteDefaultBranch (repo : Repository) (remoteName : String) : Option String :=
  match repo.findReference ("refs/remotes/" ++ remoteName ++ "/HEAD") with
  | .error _ => none
  | .ok reference => do
      let target ← reference.symbolicTarget
      dropPrefix target ("refs/remotes/" ++ remoteName ++ "/")

def remoteSummary (repo : Repository) (name : String) : Except SnapshotError RemoteSummary := do
  let remote ← liftGit (repo.findRemote name)
  let fetchRefspecs ← liftGit remote.fetchRefspecs
  let pushRefspecs ← liftGit remote.pushRefspecs
  .ok {
    name := name
    url := remote.url
    pushUrl := remote.pushurl
    defaultBranch := remoteDefaultBranch repo name
    fetchRefspecs := fetchRefspecs.filterMap id
    pushRefspecs := pushRefspecs.filterMap id }

def remotes (repo : Repository) : Except SnapshotError (List RemoteSummary) := do
  let names ← liftGit repo.remotes
  let summaries ← (names.filterMap id).mapM (remoteSummary repo)
  .ok (List.insertionSort (fun a b => a.name ≤ b.name) summaries)

def branchUpstreamCounts (repo : Repository) (branch : Branch) :
    Except SnapshotError (Option ℕ × Option ℕ) :=
  match branch.upstream with
  | .error _ => .ok (none, none)
  | .ok upstream =>
      match branch.target, upstream.target with
      | some localOid, some upstreamOid => do
          let counts ← liftGit (repo.graphAheadBehind localOid upstreamOid)
          .ok (some counts.1, some counts.2)
      | _, _ => .ok (none, none)

/-- The name of the upstream of a branch; only local branches have one. -/
def branchUpstreamName (branch : Branch) : BranchType → Except SnapshotError (Option String)
  | .remote => .ok none
  | .local =>
      match branch.upstream with
      | .ok upstream => liftGit upstream.name
      | .error e => if e.code = .notFound then .ok none else .error (.git e)

def BranchType.toKind : BranchType → BranchKind
  | .local => .local
  | .remote => .remote

def branchSummary (repo : Repository) (item : Except GitError (Branch × BranchType)) :
    Except SnapshotError BranchSummary := do
  let (branch, kind) ← liftGit item
  let name := (← liftGit branch.name).getD "<invalid-utf8>"
  let upstream ← branchUpstreamName branch kind
  let counts ← branchUpstreamCounts repo branch
  .ok {
    name := name
    kind := kind.toKind
    isHead := branch.isHead
    oid := branch.target.map Oid.hex
    tipCommit := branch.target.bind (commitSummary repo)
    upstream := upstream
    upstreamAhead := counts.1
    upstreamBehind := counts.2 }

def BranchKind.rank : BranchKind → ℕ
  | .local => 0
  | .remote => 1

def branches (repo : Repository) : Except SnapshotError (List BranchSummary) := do
  let items ← liftGit repo.branches
  let summaries ← items.mapM (branchSummary repo)
  .ok (List.insertionSort
    (fun a b => a.name < b.name ∨ (a.name = b.name ∧ a.kind.rank ≤ b.kind.rank)) summaries)

def gitObjectKind : ObjectType → Option GitObjectKind
  | .commit => some .commit
  | .tree => some .tree
  | .blob => some .blob
  | .tag => some .tag
  | .any => none

def tagSummary (repo : Repository) (name : String) : Except SnapshotError TagSummary := do
  let object ← liftGit (repo.revparseSingle ("refs/tags/" ++ name))
  match object.asTag with
  | some tag => .ok {
      name := name
      oid := tag.id.hex
      kind := .annotated
      targetOid := tag.targetId.hex
      targetKind := tag.targetType.bind gitObjectKind
      taggerName := tag.tagger.bind Signature.name
      taggerEmail := tag.tagger.bind Signature.email
      taggerTimeSeconds := tag.tagger.map Signature.seconds
      message := tag.message }
  | none => .ok {
      name := name
      oid := object.id.hex
      kind := .lightweight
      targetOid := object.id.hex
      targetKind := object.kind.bind gitObjectKind
      taggerName := none
      taggerEmail := none
      taggerTimeSeconds := none
      message := none }

def tags (repo : Repository) : Except SnapshotError (List TagSummary) := do
  let names ← liftGit repo.tagNames
  let summaries ← (names.filterMap id).mapM (tagSummary repo)
  .ok (List.insertionSort (fun a b => a.name ≤ b.name) summaries)

def stashes (repo : Repository) : Except SnapshotError (List StashSummary) := do
  let entries ← liftGit repo.stashForeach
  .ok (entries.map fun entry => ⟨entry.1, entry.2.1, entry.2.2.hex⟩)

/-! ### Worktrees and submodules -/

/-- The text without the whitespace at its end. -/
def trimEnd (s : String) : String :=
  String.ofList (s.toList.reverse.dropWhile isWhitespace).reverse

def worktreeSummary (repo : Repository) (name : String) :
    Except SnapshotError WorktreeSummary := do
  let worktree ← liftGit (repo.findWorktree name)
  match ← liftGit worktree.isLocked with
  | .unlocked => .ok ⟨name, worktree.path, false, none⟩
  | .locked reason => .ok ⟨name, worktree.path, true, reason.map trimEnd⟩

def worktrees (repo : Repository) : Except SnapshotError (List WorktreeSummary) := do
  let names ← liftGit repo.worktrees
  let summaries ← (names.filterMap id).mapM (worktreeSummary repo)
  .ok (List.insertionSort (fun a b => a.name ≤ b.name) summaries)

def submoduleState (status : SubmoduleStatus) : SubmoduleState where
  inHead := status.isInHead
  inIndex := status.isInIndex
  inConfig := status.isInConfig
  inWorkdir := status.isInWd
  indexAdded := status.isIndexAdded
  indexDeleted := status.isIndexDeleted
  indexModified := status.isIndexModified
  workdirUninitialized := status.isWdUninitialized
  workdirAdded := status.isWdAdded
  workdirDeleted := status.isWdDeleted
  workdirModified := status.isWdModified
  workdirWorktreeModified := status.isWdWdModified
  workdirUntracked := status.isWdUntracked

def submoduleSummary (repo : Repository) (submodule : Submodule) :
    Except SnapshotError SubmoduleSummary := do
  let name := submodule.name.getD "<invalid-utf8>"
  let status ← liftGit (repo.submoduleStatus name)
  .ok {
    name := name
    path := submodule.path
    url := submodule.url
    branch := submodule.branch
    headOid := submodule.headId.map Oid.hex
    indexOid := submodule.indexId.map Oid.hex
    workdirOid := submodule.workdirId.map Oid.hex
    status := submoduleState status }

def submodules (repo : Repository) : Except SnapshotError (List SubmoduleSummary) :=
  if repo.isBare then .ok []
  else do
    let items ← liftGit repo.submodules
    let summaries ← items.mapM (submoduleSummary repo)
    .ok (List.insertionSort (fun a b => a.name ≤ b.name) summaries)

/-! ### The upstream of a retained head -/

theorem upstreamState_of_not_attached {repo : Repository} {head : HeadState}
    (h : head.kind ≠ .attached) : upstreamState repo head = .ok none := if_pos h

theorem upstreamState_of_no_branch {repo : Repository} {head : HeadState}
    (h : head.branch = none) : upstreamState repo head = .ok none := by
  simp [upstreamState, h]

/-- Every local branch of the repository is found, and is an item of the branch iterator. -/
theorem findBranch_of_hasLocalBranch {repo : Repository} {name : String}
    (h : repo.hasLocalBranch name) :
    ∃ items branch, repo.branches = .ok items ∧ Except.ok (branch, BranchType.local) ∈ items ∧
      repo.findBranch name = .ok branch := by
  obtain ⟨items, hitems, item, hmem, hlocal⟩ := h
  obtain ⟨found, hfound⟩ := Option.isSome_iff_exists.1 (List.find?_isSome.2 ⟨item, hmem, hlocal⟩)
  have hmatch := List.find?_some hfound
  have hin := List.mem_of_find?_eq_some hfound
  match found with
  | .ok (branch, .local) =>
      exact ⟨items, branch, hitems, hin, by simp [Repository.findBranch, hitems, hfound]⟩
  | .ok (_, .remote) => exact absurd hmatch (by simp [isLocalBranch])
  | .error _ => exact absurd hmatch (by simp [isLocalBranch])

theorem findBranch_of_not_hasLocalBranch {repo : Repository} {name : String}
    (h : ¬ repo.hasLocalBranch name) : ∃ e, repo.findBranch name = .error e := by
  unfold Repository.findBranch
  cases hitems : repo.branches with
  | error e => exact ⟨e, rfl⟩
  | ok items =>
      have hnone : items.find? (isLocalBranch name) = none := by
        rw [List.find?_eq_none]
        intro item hmem hlocal
        exact h ⟨items, hitems, item, hmem, hlocal⟩
      exact ⟨_, by simp only [hnone]; rfl⟩

/-- The upstream of a branch that the repository does not have is an error. -/
theorem upstreamState_error_of_missing {repo : Repository} {head : HeadState} {name : String}
    (hkind : head.kind = .attached) (hbranch : head.branch = some name)
    (hmissing : ¬ repo.hasLocalBranch name) : ∃ e, upstreamState repo head = .error e := by
  obtain ⟨e, he⟩ := findBranch_of_not_hasLocalBranch hmissing
  refine ⟨.git e, ?_⟩
  simp [upstreamState, hkind, hbranch, he]

/-- What reading the summary of a local branch needs of its upstream. -/
theorem upstream_of_branchSummary {repo : Repository} {branch : Branch} {summary : BranchSummary}
    (h : branchSummary repo (.ok (branch, .local)) = .ok summary) :
    (∃ e, branch.upstream = .error e ∧ e.code = .notFound) ∨
      ∃ upstream name counts, branch.upstream = .ok upstream ∧ upstream.name = .ok name ∧
        aheadBehind repo branch.target upstream.target = .ok counts := by
  simp only [branchSummary, liftGit_ok, Result.ok_bind] at h
  obtain ⟨_, -, h⟩ := Result.bind_eq_ok.1 h
  obtain ⟨upstreamName, hname, h⟩ := Result.bind_eq_ok.1 h
  obtain ⟨counts, hcounts, -⟩ := Result.bind_eq_ok.1 h
  cases hup : branch.upstream with
  | error e =>
      refine Or.inl ⟨e, rfl, ?_⟩
      by_contra hcode
      simp [branchUpstreamName, hup, hcode] at hname
  | ok upstream =>
      simp only [branchUpstreamName, hup, liftGit_eq_ok] at hname
      refine Or.inr ⟨upstream, upstreamName, ?_⟩
      simp only [branchUpstreamCounts, hup] at hcounts
      cases htarget : branch.target with
      | none => exact ⟨(0, 0), rfl, hname, rfl⟩
      | some localOid =>
          cases hremote : upstream.target with
          | none => exact ⟨(0, 0), rfl, hname, rfl⟩
          | some remoteOid =>
              rw [htarget, hremote] at hcounts
              obtain ⟨pair, hpair, -⟩ := Result.bind_eq_ok.1 hcounts
              exact ⟨pair, rfl, hname, hpair⟩

/-- Where every branch can be read, so can the upstream of an existing one. -/
theorem upstreamState_ok_of_branches {repo : Repository} {head : HeadState} {name : String}
    {summaries : List BranchSummary} (hbranches : branches repo = .ok summaries)
    (hbranch : head.branch = some name) (hlocal : repo.hasLocalBranch name) :
    ∃ upstream, upstreamState repo head = .ok upstream := by
  by_cases hkind : head.kind = .attached
  · obtain ⟨items, branch, hitems, hmem, hfind⟩ := findBranch_of_hasLocalBranch hlocal
    simp only [branches, hitems, liftGit_ok, Result.ok_bind] at hbranches
    obtain ⟨_, hmap, -⟩ := Result.bind_eq_ok.1 hbranches
    obtain ⟨summary, hsummary⟩ := Result.exists_ok_of_mapM hmap _ hmem
    rcases upstream_of_branchSummary hsummary with
      ⟨e, he, hcode⟩ | ⟨up, upName, counts, hup, hn, hc⟩
    · exact ⟨none, by simp [upstreamState, hkind, hbranch, hfind, he, hcode]⟩
    · exact ⟨some ⟨upName.getD "<invalid-utf8>", up.target.map Oid.hex, counts.1, counts.2⟩,
        by simp [upstreamState, hkind, hbranch, hfind, hup, hn, hc]⟩
  · exact ⟨none, upstreamState_of_not_attached hkind⟩

end Gitseer
