/-
**A full read lists what the repository answers.**

A list section is read item by item: each answered item is looked up and gives one entry, and the
entries are put in order.  Nothing is merged, so an item that is answered twice is listed twice.

Names are bytes in Git and text in a snapshot.  A remote, a tag or a worktree whose name is not
UTF-8 is left out of its list.  A branch or a submodule of such a name is listed, but under a name
that stands for all of them.  No name is lost otherwise, and none is made up.

Main definitions:

* `Listed` — a list has one entry for each item, made from it, and is in order;
* `RemoteSummary.Describes` and the like — an entry shows what the repository answers for an item;
* `RepositorySnapshot.Lists` — the lists of a snapshot show what the repository answers.

Main results:

* `Listed.of_mapM`, `exists_listed` — reading item by item, and sorting then, lists the items;
* `snapshot_lists` — the lists of a full read show what the repository answers.
-/

import Gitseer.Repository.WellFormed

set_option relaxedAutoImplicit false
set_option autoImplicit false

open StdPath (PathBuf)

namespace Gitseer

/-! ### Lists that are read item by item -/

/-- The list has one entry for each item, made from it, and is in order. -/
structure Listed {α β : Type} (describes : α → β → Prop) (key : β → String) (items : List α)
    (entries : List β) : Prop where
  made : ∃ read, List.Forall₂ describes items read ∧ read.Perm entries
  sorted : entries.Pairwise fun a b => key a ≤ key b

/-- Reading item by item, and sorting then, lists the items. -/
theorem Listed.of_mapM {α β : Type} {describes : α → β → Prop} {key : β → String}
    {read : α → Except SnapshotError β} {items : List α} {summaries entries : List β}
    (hread : items.mapM read = .ok summaries)
    (hdescribes : ∀ item entry, read item = .ok entry → describes item entry)
    (hperm : entries.Perm summaries) (hsorted : entries.Pairwise fun a b => key a ≤ key b) :
    Listed describes key items entries :=
  ⟨⟨summaries, (Result.forall₂_of_mapM hread).imp hdescribes, hperm.symm⟩, hsorted⟩

/-- The names that are text. -/
theorem filter_isSome_eq (names : List (Option String)) :
    names.filter Option.isSome = (names.filterMap id).map some := by
  induction names with
  | nil => rfl
  | cons name names ih =>
      cases name with
      | none => simpa using ih
      | some text => simpa using ih

/-- Names that are no text are passed over, the others are read. -/
theorem Listed.of_names {β : Type} {describes : Option String → β → Prop} {key : β → String}
    {read : String → Except SnapshotError β} {names : List (Option String)}
    {summaries entries : List β} (hread : (names.filterMap id).mapM read = .ok summaries)
    (hdescribes : ∀ name entry, read name = .ok entry → describes (some name) entry)
    (hperm : entries.Perm summaries) (hsorted : entries.Pairwise fun a b => key a ≤ key b) :
    Listed describes key (names.filter Option.isSome) entries := by
  have hlisted : Listed (fun name => describes (some name)) key (names.filterMap id) entries :=
    Listed.of_mapM hread hdescribes hperm hsorted
  obtain ⟨⟨made, hmade, hmadePerm⟩, hsorted⟩ := hlisted
  rw [filter_isSome_eq]
  exact ⟨⟨made, List.forall₂_map_left_iff.2 hmade, hmadePerm⟩, hsorted⟩

/-- A reader that asks for the items, reads them one by one and sorts the entries lists them. -/
theorem exists_listed {α β : Type} {describes : α → β → Prop} {key : β → String}
    {answer : Except GitError (List α)} {read : α → Except SnapshotError β} {le : β → β → Prop}
    [DecidableRel le] {entries : List β}
    (h : (do
      let items ← liftGit answer
      let summaries ← items.mapM read
      .ok (List.insertionSort le summaries)) = .ok entries)
    (hdescribes : ∀ item entry, read item = .ok entry → describes item entry)
    (hsorted : entries.Pairwise fun a b => key a ≤ key b) :
    ∃ items, answer = .ok items ∧ Listed describes key items entries := by
  obtain ⟨items, hitems, h⟩ := Result.bind_eq_ok.1 h
  obtain ⟨summaries, hread, hsort⟩ := Result.bind_eq_ok.1 h
  exact ⟨items, liftGit_eq_ok.1 hitems, .of_mapM hread hdescribes
    (Except.ok.inj hsort ▸ List.perm_insertionSort _ _) hsorted⟩

/-- One that asks for names lists those that are text. -/
theorem exists_listed_names {β : Type} {describes : Option String → β → Prop} {key : β → String}
    {answer : Except GitError (List (Option String))} {read : String → Except SnapshotError β}
    {le : β → β → Prop} [DecidableRel le] {entries : List β}
    (h : (do
      let names ← liftGit answer
      let summaries ← (names.filterMap id).mapM read
      .ok (List.insertionSort le summaries)) = .ok entries)
    (hdescribes : ∀ name entry, read name = .ok entry → describes (some name) entry)
    (hsorted : entries.Pairwise fun a b => key a ≤ key b) :
    ∃ names, answer = .ok names ∧ Listed describes key (names.filter Option.isSome) entries := by
  obtain ⟨names, hnames, h⟩ := Result.bind_eq_ok.1 h
  obtain ⟨summaries, hread, hsort⟩ := Result.bind_eq_ok.1 h
  exact ⟨names, liftGit_eq_ok.1 hnames, .of_names hread hdescribes
    (Except.ok.inj hsort ▸ List.perm_insertionSort _ _) hsorted⟩

/-! ### What an entry shows of an item -/

/-- The texts are the answers that are text, in their order. -/
def AreTextsOf (texts : List String) (answers : List (Option String)) : Prop :=
  texts.map some = answers.filter Option.isSome

/-- The remote of an answered name, with the refspecs that are text. -/
structure RemoteSummary.Describes (repo : Repository) (name : Option String)
    (summary : RemoteSummary) : Prop where
  name : name = some summary.name
  defaultBranch : summary.defaultBranch = remoteDefaultBranch repo summary.name
  remote : ∃ remote fetch push, repo.findRemote summary.name = .ok remote ∧
    remote.fetchRefspecs = .ok fetch ∧ remote.pushRefspecs = .ok push ∧
    summary.url = remote.url ∧ summary.pushUrl = remote.pushurl ∧
    AreTextsOf summary.fetchRefspecs fetch ∧ AreTextsOf summary.pushRefspecs push

/-- An answered branch, with its upstream when it is a local one. -/
structure BranchSummary.Describes (repo : Repository)
    (item : Except GitError (Branch × BranchType)) (summary : BranchSummary) : Prop where
  branch : ∃ branch kind name, item = .ok (branch, kind) ∧ branch.name = .ok name ∧
    summary.name = name.getD "<invalid-utf8>" ∧ summary.kind = kind.toKind ∧
    summary.isHead = branch.isHead ∧ summary.oid = branch.target.map Oid.hex ∧
    summary.tipCommit = branch.target.bind (commitSummary repo) ∧
    branchUpstreamName branch kind = .ok summary.upstream ∧
    branchUpstreamCounts repo branch = .ok (summary.upstreamAhead, summary.upstreamBehind)

/-- The tag of an answered name: an object of its own, or the object that the name is for. -/
structure TagSummary.Describes (repo : Repository) (name : Option String)
    (summary : TagSummary) : Prop where
  name : name = some summary.name
  object : ∃ object, repo.revparseSingle ("refs/tags/" ++ summary.name) = .ok object ∧
    match object.asTag with
    | some tag => summary.kind = .annotated ∧ summary.oid = tag.id.hex ∧
        summary.targetOid = tag.targetId.hex ∧
        summary.targetKind = tag.targetType.bind gitObjectKind ∧
        summary.taggerName = tag.tagger.bind Signature.name ∧
        summary.taggerEmail = tag.tagger.bind Signature.email ∧
        summary.taggerTimeSeconds = tag.tagger.map Signature.seconds ∧
        summary.message = tag.message
    | none => summary.kind = .lightweight ∧ summary.oid = object.id.hex ∧
        summary.targetOid = object.id.hex ∧ summary.targetKind = object.kind.bind gitObjectKind ∧
        summary.taggerName = none ∧ summary.taggerEmail = none ∧
        summary.taggerTimeSeconds = none ∧ summary.message = none

/-- An answered stash. -/
structure StashSummary.Describes (entry : ℕ × String × Oid) (summary : StashSummary) : Prop where
  index : summary.index = entry.1
  message : summary.message = entry.2.1
  oid : summary.oid = entry.2.2.hex

/-- The worktree of an answered name, with its lock. -/
structure WorktreeSummary.Describes (repo : Repository) (name : Option String)
    (summary : WorktreeSummary) : Prop where
  name : name = some summary.name
  worktree : ∃ worktree lock, repo.findWorktree summary.name = .ok worktree ∧
    worktree.isLocked = .ok lock ∧ summary.path = worktree.path ∧
    match lock with
    | .unlocked => summary.locked = false ∧ summary.lockReason = none
    | .locked reason => summary.locked = true ∧ summary.lockReason = reason.map trimEnd

/-- An answered submodule, with the status of its name. -/
structure SubmoduleSummary.Describes (repo : Repository) (item : Submodule)
    (summary : SubmoduleSummary) : Prop where
  name : summary.name = item.name.getD "<invalid-utf8>"
  path : summary.path = item.path
  url : summary.url = item.url
  branch : summary.branch = item.branch
  oids : summary.headOid = item.headId.map Oid.hex ∧ summary.indexOid = item.indexId.map Oid.hex ∧
    summary.workdirOid = item.workdirId.map Oid.hex
  status : ∃ status, repo.submoduleStatus summary.name = .ok status ∧
    summary.status = submoduleState status

/-- The lists of a snapshot show what the repository answers.  The stashes keep the order in which
they are answered, and a bare repository has no submodules. -/
structure RepositorySnapshot.Lists (s : RepositorySnapshot) (repo : Repository) : Prop where
  remotes : ∃ names, repo.remotes = .ok names ∧
    Listed (RemoteSummary.Describes repo) RemoteSummary.name (names.filter Option.isSome) s.remotes
  branches : ∃ items, repo.branches = .ok items ∧
    Listed (BranchSummary.Describes repo) BranchSummary.name items s.branches
  tags : ∃ names, repo.tagNames = .ok names ∧
    Listed (TagSummary.Describes repo) TagSummary.name (names.filter Option.isSome) s.tags
  stashes : ∃ entries, repo.stashForeach = .ok entries ∧
    List.Forall₂ StashSummary.Describes entries s.stashes
  worktrees : ∃ names, repo.worktrees = .ok names ∧
    Listed (WorktreeSummary.Describes repo) WorktreeSummary.name (names.filter Option.isSome)
      s.worktrees
  submodules : if repo.isBare = true then s.submodules = [] else
    ∃ items, repo.submodules = .ok items ∧
      Listed (SubmoduleSummary.Describes repo) SubmoduleSummary.name items s.submodules

section

variable {repo : Repository}

theorem remoteSummary_describes (name : String) (summary : RemoteSummary)
    (h : remoteSummary repo name = .ok summary) :
    RemoteSummary.Describes repo (some name) summary := by
  obtain ⟨remote, hremote, h⟩ := Result.bind_eq_ok.1 h
  obtain ⟨fetch, hfetch, h⟩ := Result.bind_eq_ok.1 h
  obtain ⟨push, hpush, h⟩ := Result.bind_eq_ok.1 h
  obtain rfl := Except.ok.inj h
  exact ⟨rfl, rfl, remote, fetch, push, liftGit_eq_ok.1 hremote, liftGit_eq_ok.1 hfetch,
    liftGit_eq_ok.1 hpush, rfl, rfl, (filter_isSome_eq fetch).symm, (filter_isSome_eq push).symm⟩

theorem branchSummary_describes (item : Except GitError (Branch × BranchType))
    (summary : BranchSummary) (h : branchSummary repo item = .ok summary) :
    BranchSummary.Describes repo item summary := by
  obtain ⟨⟨branch, kind⟩, hitem, h⟩ := Result.bind_eq_ok.1 h
  obtain ⟨name, hname, h⟩ := Result.bind_eq_ok.1 h
  obtain ⟨upstream, hupstream, h⟩ := Result.bind_eq_ok.1 h
  obtain ⟨counts, hcounts, h⟩ := Result.bind_eq_ok.1 h
  obtain rfl := Except.ok.inj h
  exact ⟨branch, kind, name, liftGit_eq_ok.1 hitem, liftGit_eq_ok.1 hname, rfl, rfl, rfl, rfl, rfl,
    hupstream, hcounts⟩

theorem tagSummary_describes (name : String) (summary : TagSummary)
    (h : tagSummary repo name = .ok summary) : TagSummary.Describes repo (some name) summary := by
  obtain ⟨object, hobject, h⟩ := Result.bind_eq_ok.1 h
  split at h
  · next tag htag =>
      obtain rfl := Except.ok.inj h
      exact ⟨rfl, object, liftGit_eq_ok.1 hobject, by simp [htag]⟩
  · next htag =>
      obtain rfl := Except.ok.inj h
      exact ⟨rfl, object, liftGit_eq_ok.1 hobject, by simp [htag]⟩

theorem worktreeSummary_describes (name : String) (summary : WorktreeSummary)
    (h : worktreeSummary repo name = .ok summary) :
    WorktreeSummary.Describes repo (some name) summary := by
  obtain ⟨worktree, hworktree, h⟩ := Result.bind_eq_ok.1 h
  obtain ⟨lock, hlock, h⟩ := Result.bind_eq_ok.1 h
  cases lock with
  | unlocked =>
      obtain rfl := Except.ok.inj h
      exact ⟨rfl, worktree, _, liftGit_eq_ok.1 hworktree, liftGit_eq_ok.1 hlock, rfl, rfl, rfl⟩
  | locked reason =>
      obtain rfl := Except.ok.inj h
      exact ⟨rfl, worktree, _, liftGit_eq_ok.1 hworktree, liftGit_eq_ok.1 hlock, rfl, rfl, rfl⟩

theorem submoduleSummary_describes (item : Submodule) (summary : SubmoduleSummary)
    (h : submoduleSummary repo item = .ok summary) :
    SubmoduleSummary.Describes repo item summary := by
  obtain ⟨status, hstatus, h⟩ := Result.bind_eq_ok.1 h
  obtain rfl := Except.ok.inj h
  exact ⟨rfl, rfl, rfl, rfl, ⟨rfl, rfl, rfl⟩, status, liftGit_eq_ok.1 hstatus, rfl⟩

theorem stashes_describe {summaries : List StashSummary} (h : stashes repo = .ok summaries) :
    ∃ entries, repo.stashForeach = .ok entries ∧
      List.Forall₂ StashSummary.Describes entries summaries := by
  obtain ⟨entries, hentries, h⟩ := Result.bind_eq_ok.1 h
  obtain rfl := Except.ok.inj h
  refine ⟨entries, liftGit_eq_ok.1 hentries, List.forall₂_map_right_iff.2 ?_⟩
  exact List.forall₂_same.2 fun entry _ => ⟨rfl, rfl, rfl⟩

/-- The lists of a full read show what the repository answers. -/
theorem snapshot_lists {discover : Discover} {path : PathBuf} {options : SnapshotOptions}
    {s : RepositorySnapshot} (hrepo : discover path = .ok repo)
    (h : snapshotRepositoryWithOptions discover path options = .ok s) : s.Lists repo := by
  have hreads := refreshes_of_snapshot hrepo h
  have hremotes := (readIf_of_mem (mem_allDomains _)).symm.trans hreads.remotes
  have hbranches := (readIf_of_mem (mem_allDomains _)).symm.trans hreads.branches
  have htags := (readIf_of_mem (mem_allDomains _)).symm.trans hreads.tags
  have hstashes := (readIf_of_mem (mem_allDomains _)).symm.trans hreads.stashes
  have hworktrees := (readIf_of_mem (mem_allDomains _)).symm.trans hreads.worktrees
  have hsubmodules := (readIf_of_mem (mem_allDomains _)).symm.trans hreads.submodules
  refine ⟨exists_listed_names hremotes remoteSummary_describes (remotes_sorted hremotes),
    exists_listed hbranches branchSummary_describes (branches_wellFormed hbranches).1,
    exists_listed_names htags tagSummary_describes (tags_wellFormed htags).1,
    stashes_describe hstashes,
    exists_listed_names hworktrees worktreeSummary_describes (worktrees_wellFormed hworktrees).1,
    ?_⟩
  have hsorted := submodules_sorted hsubmodules
  unfold submodules at hsubmodules
  split at hsubmodules
  · next hbare =>
      rw [if_pos hbare]
      exact (Except.ok.inj hsubmodules).symm
  · next hbare =>
      rw [if_neg hbare]
      exact exists_listed hsubmodules submoduleSummary_describes hsorted

end

def stashOid : Oid := ⟨"5ca1ab1e5ca1ab1e5ca1ab1e5ca1ab1e5ca1ab1e"⟩

/-- A repository with two remotes, a remote whose name is no text, a stash and a locked worktree. -/
def listingRepository : Repository :=
  { plainRepository with
    remotes := .ok [some "origin", none, some "fork"]
    findRemote := fun name => .ok ⟨some name, none, .ok [], .ok []⟩
    stashForeach := .ok [(0, "WIP on main", stashOid)]
    worktrees := .ok [some "side"]
    findWorktree := fun _ => .ok ⟨repoRoot, .ok (.locked (some "busy\n"))⟩ }

def listingSnapshot : RepositorySnapshot :=
  { plainSnapshot with
    remotes := [⟨"fork", some "fork", none, none, [], []⟩,
      ⟨"origin", some "origin", none, none, [], []⟩]
    stashes := [⟨0, "WIP on main", stashOid.hex⟩]
    worktrees := [⟨"side", repoRoot, true, some "busy"⟩] }

/-- Its snapshot has the two remotes in order. -/
theorem snapshot_lists_remotes : listingSnapshot.Lists listingRepository := by
  have hread : snapshotRepositoryWithOptions (fun _ => .ok listingRepository) repoRoot {} =
      .ok listingSnapshot := by decide
  exact snapshot_lists rfl hread

end Gitseer
