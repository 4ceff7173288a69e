/-
**What holds of every snapshot.**

The fields of a snapshot are not independent of each other.  Only a head that names a branch has an
upstream; a bisect is reported while one is in progress; lists are in order; a tag that is not
annotated has no tagger.  A full read makes all this true, since each reader makes it true of its
section.

A targeted refresh mixes sections read now with others read long ago, and what holds between two
sections may get lost: when the head is read again without the upstream, the old upstream stays
with a head that names no branch.  So the refresh of a well-formed snapshot is well formed when it
reads no head without the upstream.

Main definitions:

* `RepositorySnapshot.WellFormed` — what holds of every snapshot.

Main results:

* `wellFormed_of_read` — a full read gives a well-formed snapshot;
* `Refreshes.wellFormed`, `wellFormed_of_refresh` — refreshes keep a snapshot well formed.
-/

import Gitseer.Repository.Snapshot

set_option relaxedAutoImplicit false
set_option autoImplicit false

open StdPath (PathBuf)

namespace Gitseer

/-! ### Sections -/

/-- Only an attached head has a branch, and one that was not found has nothing. -/
structure HeadState.WellFormed (head : HeadState) : Prop where
  branch : head.branch ≠ none → head.kind = .attached
  absent : head.kind = .unborn ∨ head.kind = .missing → head.name = none ∧ head.oid = none

/-- The path of a conflict is that of its first side. -/
def ConflictSummary.firstSide (conflict : ConflictSummary) : Option ConflictSide :=
  (conflict.ancestor.or conflict.ours).or conflict.theirs

/-- The lists of paths are in order; those of the five classes have no path twice. -/
structure PathState.WellFormed (paths : PathState) : Prop where
  staged : paths.staged.Pairwise (· < ·)
  unstaged : paths.unstaged.Pairwise (· < ·)
  untracked : paths.untracked.Pairwise (· < ·)
  ignored : paths.ignored.Pairwise (· < ·)
  conflicted : paths.conflicted.Pairwise (· < ·)
  entries : paths.entries.Pairwise fun a b => a.path ≤ b.path
  conflicts : paths.conflicts.Pairwise fun a b => a.path ≤ b.path
  sides : ∀ conflict ∈ paths.conflicts, conflict.firstSide.map ConflictSide.path = some conflict.path

/-- A bisect is reported exactly while one is in progress; the heads are object ids, by role. -/
structure OperationState.WellFormed (operation : OperationState) : Prop where
  bisect : operation.bisect.isSome = true ↔ operation.kind = .bisect
  heads : operation.heads.Pairwise fun a b => a.role.rank ≤ b.role.rank
  oids : ∀ head ∈ operation.heads, (Oid.fromStr head.oid).isSome = true

/-- Only local branches name an upstream; the counts come in pairs, and need a tip. -/
structure BranchSummary.WellFormed (branch : BranchSummary) : Prop where
  upstream : branch.kind = .remote → branch.upstream = none
  counts : branch.upstreamAhead.isSome = branch.upstreamBehind.isSome
  counted : branch.upstreamAhead ≠ none → branch.oid ≠ none
  tip : branch.tipCommit ≠ none → branch.oid ≠ none

/-- A tag that is not annotated is its target, and has no tagger and no message. -/
structure TagSummary.WellFormed (tag : TagSummary) : Prop where
  target : tag.kind = .lightweight → tag.targetOid = tag.oid ∧ tag.message = none
  tagger : tag.kind = .lightweight → tag.taggerTimeSeconds = none
  signed : tag.taggerTimeSeconds = none → tag.taggerName = none ∧ tag.taggerEmail = none

/-- What holds of every snapshot. -/
structure RepositorySnapshot.WellFormed (s : RepositorySnapshot) : Prop where
  identity : s.identity.isLinkedWorktree = true ↔ s.identity.gitDir ≠ s.identity.commonDir
  head : s.head.WellFormed
  headCommit : s.headCommit ≠ none → (s.head.oid.bind Oid.fromStr).isSome = true
  upstream : s.upstream ≠ none → s.head.kind = .attached ∧ s.head.branch ≠ none
  paths : s.paths.WellFormed
  operation : s.operation.WellFormed
  remotes : s.remotes.Pairwise fun a b => a.name ≤ b.name
  branches : s.branches.Pairwise fun a b => a.name ≤ b.name
  branch : ∀ branch ∈ s.branches, branch.WellFormed
  tags : s.tags.Pairwise fun a b => a.name ≤ b.name
  tag : ∀ tag ∈ s.tags, tag.WellFormed
  worktrees : s.worktrees.Pairwise fun a b => a.name ≤ b.name
  locked : ∀ worktree ∈ s.worktrees, worktree.lockReason ≠ none → worktree.locked = true
  submodules : s.submodules.Pairwise fun a b => a.name ≤ b.name

/-! ### Each reader makes its section well formed -/

section

variable {repo : Repository}

theorem headState_wellFormed {head : HeadState} (h : headState repo = .ok head) :
    head.WellFormed := by
  unfold headState at h
  split at h
  · split at h
    · obtain rfl := Except.ok.inj h
      exact ⟨fun _ => rfl, fun habsent => by rcases habsent with h | h <;> cases h⟩
    · obtain rfl := Except.ok.inj h
      exact ⟨fun hbranch => absurd rfl hbranch,
        fun habsent => by rcases habsent with h | h <;> cases h⟩
  · split at h
    · obtain rfl := Except.ok.inj h
      exact ⟨fun hbranch => absurd rfl hbranch, fun _ => ⟨rfl, rfl⟩⟩
    · split at h
      · obtain rfl := Except.ok.inj h
        exact ⟨fun hbranch => absurd rfl hbranch, fun _ => ⟨rfl, rfl⟩⟩
      · cases h

theorem headCommit_parses {head : HeadState} {commit : Option CommitSummary}
    (h : headCommit repo head = .ok commit) (hsome : commit ≠ none) :
    (head.oid.bind Oid.fromStr).isSome = true := by
  unfold headCommit at h
  split at h
  · next hoid =>
      rw [hoid]
      rfl
  · obtain rfl := Except.ok.inj h
    exact absurd rfl hsome

theorem upstreamState_attached {head : HeadState} {upstream : Option UpstreamState}
    (h : upstreamState repo head = .ok upstream) (hsome : upstream ≠ none) :
    head.kind = .attached ∧ head.branch ≠ none := by
  by_cases hkind : head.kind = .attached
  · refine ⟨hkind, fun hbranch => hsome ?_⟩
    rw [upstreamState_of_no_branch hbranch] at h
    exact (Except.ok.inj h).symm
  · rw [upstreamState_of_not_attached hkind] at h
    exact absurd (Except.ok.inj h).symm hsome

theorem repositoryIdentity_linked {identity : RepositoryIdentity}
    (h : repositoryIdentity repo = .ok identity) :
    identity.isLinkedWorktree = true ↔ identity.gitDir ≠ identity.commonDir := by
  obtain ⟨isEmpty, -, hidentity⟩ := Result.bind_eq_ok.1 h
  obtain rfl := Except.ok.inj hidentity
  exact decide_eq_true_iff

theorem conflictSummary_firstSide {conflict : IndexConflict} {summary : ConflictSummary}
    (h : conflictSummary conflict = some summary) :
    summary.firstSide.map ConflictSide.path = some summary.path := by
  obtain ⟨side, hside, rfl⟩ := Option.map_eq_some_iff.1 h
  exact congrArg (Option.map ConflictSide.path) hside

theorem pathState_wellFormed {options : SnapshotOptions} {paths : PathState}
    (h : pathState repo options = .ok paths) : paths.WellFormed := by
  unfold pathState at h
  split at h
  · obtain rfl := Except.ok.inj h
    exact ⟨.nil, .nil, .nil, .nil, .nil, .nil, .nil, fun conflict h => by cases h⟩
  · obtain ⟨statuses, -, h⟩ := Result.bind_eq_ok.1 h
    obtain ⟨conflicts, hconflicts, h⟩ := Result.bind_eq_ok.1 h
    obtain ⟨summaries, -, h⟩ := Result.bind_eq_ok.1 h
    obtain ⟨entries, -, h⟩ := Result.bind_eq_ok.1 h
    obtain rfl := Except.ok.inj h
    obtain ⟨index, -, hconflicts⟩ := Result.bind_eq_ok.1 hconflicts
    obtain ⟨items, -, hconflicts⟩ := Result.bind_eq_ok.1 hconflicts
    obtain ⟨found, -, hconflicts⟩ := Result.bind_eq_ok.1 hconflicts
    obtain rfl := Except.ok.inj hconflicts
    refine ⟨BTreeSet.ascending _, BTreeSet.ascending _, BTreeSet.ascending _,
      BTreeSet.ascending _, BTreeSet.ascending _, List.pairwise_insertionSort _ _,
      List.pairwise_insertionSort _ _, ?_⟩
    intro conflict hconflict
    obtain ⟨item, -, hitem⟩ := List.mem_filterMap.1 ((List.mem_insertionSort _).1 hconflict)
    exact conflictSummary_firstSide hitem

theorem OperationHeadRole.rank_inj {r r' : OperationHeadRole} : r.rank = r'.rank ↔ r = r' := by
  cases r <;> cases r' <;> decide

theorem readOperationHeadFile_parses {relativePath : String} {role : OperationHeadRole}
    {head : OperationHead} (h : head ∈ readOperationHeadFile repo relativePath role) :
    (Oid.fromStr head.oid).isSome = true := by
  unfold readOperationHeadFile at h
  split at h
  · cases h
  · obtain ⟨oid, -, hhead⟩ := List.mem_filterMap.1 h
    split at hhead
    · next hparses =>
        obtain rfl := Option.some.inj hhead
        exact hparses
    · cases hhead

/-- A list sorted by one key, and by another where the first is the same, is sorted by the first. -/
theorem pairwise_sort_keys {α κ μ : Type} [LinearOrder κ] [LinearOrder μ] (key : α → κ)
    (second : α → μ) (l : List α) :
    (List.insertionSort
      (fun a b => key a < key b ∨ (key a = key b ∧ second a ≤ second b)) l).Pairwise
        fun a b => key a ≤ key b := by
  have htotal : Std.Total fun a b => key a < key b ∨ (key a = key b ∧ second a ≤ second b) := by
    refine ⟨fun a b => ?_⟩
    rcases lt_trichotomy (key a) (key b) with hlt | heq | hlt
    · exact Or.inl (Or.inl hlt)
    · rcases le_total (second a) (second b) with hle | hle
      · exact Or.inl (Or.inr ⟨heq, hle⟩)
      · exact Or.inr (Or.inr ⟨heq.symm, hle⟩)
    · exact Or.inr (Or.inl hlt)
  have htrans : IsTrans α fun a b => key a < key b ∨ (key a = key b ∧ second a ≤ second b) := by
    refine ⟨fun a b c hab hbc => ?_⟩
    rcases hab with hab | ⟨hab, hab'⟩
    · rcases hbc with hbc | ⟨hbc, -⟩
      · exact Or.inl (hab.trans hbc)
      · exact Or.inl (hbc ▸ hab)
    · rcases hbc with hbc | ⟨hbc, hbc'⟩
      · exact Or.inl (hab ▸ hbc)
      · exact Or.inr ⟨hab.trans hbc, hab'.trans hbc'⟩
  refine (List.pairwise_insertionSort _ l).imp ?_
  rintro a b (hlt | ⟨heq, -⟩)
  · exact hlt.le
  · exact heq.le

theorem operationState_wellFormed : (operationState repo).WellFormed := by
  refine ⟨?_, ?_, ?_⟩
  · change (if _ then _ else _ : Option BisectState).isSome = true ↔ _
    split
    · next hkind => exact iff_of_true rfl hkind
    · next hkind => exact iff_of_false (by simp) hkind
  · have hsorted := pairwise_sort_keys (fun head : OperationHead => head.role.rank)
      OperationHead.oid (readOperationHeadFile repo "MERGE_HEAD" .merge ++
        readOperationHeadFile repo "REBASE_HEAD" .rebase ++
        readOperationHeadFile repo "CHERRY_PICK_HEAD" .cherryPick ++
        readOperationHeadFile repo "REVERT_HEAD" .revert)
    simp only [OperationHeadRole.rank_inj] at hsorted
    exact hsorted
  · intro head hhead
    have hmem := (List.mem_insertionSort _).1 hhead
    simp only [List.mem_append] at hmem
    rcases hmem with ((h | h) | h) | h
    · exact readOperationHeadFile_parses h
    · exact readOperationHeadFile_parses h
    · exact readOperationHeadFile_parses h
    · exact readOperationHeadFile_parses h

theorem branchUpstreamCounts_wellFormed {branch : Branch} {counts : Option ℕ × Option ℕ}
    (h : branchUpstreamCounts repo branch = .ok counts) :
    counts.1.isSome = counts.2.isSome ∧ (counts.1 ≠ none → branch.target ≠ none) := by
  unfold branchUpstreamCounts at h
  split at h
  · obtain rfl := Except.ok.inj h
    exact ⟨rfl, fun hsome => absurd rfl hsome⟩
  · split at h
    · next localOid upstreamOid hlocal hremote =>
        obtain ⟨pair, -, hpair⟩ := Result.bind_eq_ok.1 h
        obtain rfl := Except.ok.inj hpair
        refine ⟨rfl, fun _ => ?_⟩
        rw [hlocal]
        simp
    · obtain rfl := Except.ok.inj h
      exact ⟨rfl, fun hsome => absurd rfl hsome⟩

theorem branchSummary_wellFormed {item : Except GitError (Branch × BranchType)}
    {summary : BranchSummary} (h : branchSummary repo item = .ok summary) :
    summary.WellFormed := by
  obtain ⟨⟨branch, kind⟩, -, h⟩ := Result.bind_eq_ok.1 h
  obtain ⟨name, -, h⟩ := Result.bind_eq_ok.1 h
  obtain ⟨upstream, hupstream, h⟩ := Result.bind_eq_ok.1 h
  obtain ⟨counts, hcounts, h⟩ := Result.bind_eq_ok.1 h
  obtain rfl := Except.ok.inj h
  obtain ⟨hpair, hcounted⟩ := branchUpstreamCounts_wellFormed hcounts
  have hoid : branch.target ≠ none → branch.target.map Oid.hex ≠ none := by simp
  refine ⟨?_, hpair, fun hsome => hoid (hcounted hsome), ?_⟩
  · intro hremote
    cases kind with
    | «local» => cases hremote
    | remote => exact (Except.ok.inj hupstream).symm
  · intro htip
    refine hoid fun hnone => htip ?_
    change branch.target.bind _ = none
    rw [hnone]
    rfl

theorem branches_wellFormed {summaries : List BranchSummary} (h : branches repo = .ok summaries) :
    (summaries.Pairwise fun a b => a.name ≤ b.name) ∧
      ∀ branch ∈ summaries, branch.WellFormed := by
  obtain ⟨items, -, h⟩ := Result.bind_eq_ok.1 h
  obtain ⟨read, hread, h⟩ := Result.bind_eq_ok.1 h
  obtain rfl := Except.ok.inj h
  refine ⟨pairwise_sort_keys BranchSummary.name (fun branch => branch.kind.rank) read, ?_⟩
  intro branch hbranch
  obtain ⟨item, -, hitem⟩ := Result.exists_item_of_mapM hread branch
    ((List.mem_insertionSort _).1 hbranch)
  exact branchSummary_wellFormed hitem

theorem remotes_sorted {summaries : List RemoteSummary} (h : remotes repo = .ok summaries) :
    summaries.Pairwise fun a b => a.name ≤ b.name := by
  obtain ⟨names, -, h⟩ := Result.bind_eq_ok.1 h
  obtain ⟨read, -, h⟩ := Result.bind_eq_ok.1 h
  obtain rfl := Except.ok.inj h
  exact List.pairwise_insertionSort _ _

theorem tagSummary_wellFormed {name : String} {tag : TagSummary}
    (h : tagSummary repo name = .ok tag) : tag.WellFormed := by
  obtain ⟨object, -, h⟩ := Result.bind_eq_ok.1 h
  split at h
  · obtain rfl := Except.ok.inj h
    refine ⟨nofun, nofun, ?_⟩
    intro hnone
    rw [Option.map_eq_none_iff.1 hnone]
    exact ⟨rfl, rfl⟩
  · obtain rfl := Except.ok.inj h
    exact ⟨fun _ => ⟨rfl, rfl⟩, fun _ => rfl, fun _ => ⟨rfl, rfl⟩⟩

theorem tags_wellFormed {summaries : List TagSummary} (h : tags repo = .ok summaries) :
    (summaries.Pairwise fun a b => a.name ≤ b.name) ∧ ∀ tag ∈ summaries, tag.WellFormed := by
  obtain ⟨names, -, h⟩ := Result.bind_eq_ok.1 h
  obtain ⟨read, hread, h⟩ := Result.bind_eq_ok.1 h
  obtain rfl := Except.ok.inj h
  refine ⟨List.pairwise_insertionSort _ _, ?_⟩
  intro tag htag
  obtain ⟨name, -, hname⟩ := Result.exists_item_of_mapM hread tag
    ((List.mem_insertionSort _).1 htag)
  exact tagSummary_wellFormed hname

theorem worktreeSummary_locked {name : String} {worktree : WorktreeSummary}
    (h : worktreeSummary repo name = .ok worktree) (hreason : worktree.lockReason ≠ none) :
    worktree.locked = true := by
  obtain ⟨found, -, h⟩ := Result.bind_eq_ok.1 h
  obtain ⟨status, -, h⟩ := Result.bind_eq_ok.1 h
  cases status with
  | unlocked =>
      obtain rfl := Except.ok.inj h
      exact absurd rfl hreason
  | locked reason =>
      obtain rfl := Except.ok.inj h
      rfl

theorem worktrees_wellFormed {summaries : List WorktreeSummary}
    (h : worktrees repo = .ok summaries) : (summaries.Pairwise fun a b => a.name ≤ b.name) ∧
      ∀ worktree ∈ summaries, worktree.lockReason ≠ none → worktree.locked = true := by
  obtain ⟨names, -, h⟩ := Result.bind_eq_ok.1 h
  obtain ⟨read, hread, h⟩ := Result.bind_eq_ok.1 h
  obtain rfl := Except.ok.inj h
  refine ⟨List.pairwise_insertionSort _ _, ?_⟩
  intro worktree hworktree
  obtain ⟨name, -, hname⟩ := Result.exists_item_of_mapM hread worktree
    ((List.mem_insertionSort _).1 hworktree)
  exact worktreeSummary_locked hname

theorem submodules_sorted {summaries : List SubmoduleSummary}
    (h : submodules repo = .ok summaries) : summaries.Pairwise fun a b => a.name ≤ b.name := by
  unfold submodules at h
  split at h
  · obtain rfl := Except.ok.inj h
    exact .nil
  · obtain ⟨items, -, h⟩ := Result.bind_eq_ok.1 h
    obtain ⟨read, -, h⟩ := Result.bind_eq_ok.1 h
    obtain rfl := Except.ok.inj h
    exact List.pairwise_insertionSort _ _

end

/-! ### Refreshes keep a snapshot well formed -/

/-- What holds of a section when it is read, and when it is kept, holds of it afterwards. -/
theorem readIf_invariant {α : Type} {domains : Finset RefreshDomain} {d : RefreshDomain}
    {read : Except SnapshotError α} {kept a : α} {P : α → Prop} (hkept : d ∉ domains → P kept)
    (hread : ∀ a, read = .ok a → P a) (h : readIf domains d read kept = .ok a) : P a := by
  by_cases hd : d ∈ domains
  · rw [readIf_of_mem hd] at h
    exact hread a h
  · rw [readIf_keeps hd h]
    exact hkept hd

section

variable {repo : Repository} {options : SnapshotOptions} {domains : Finset RefreshDomain}
  {previous s : RepositorySnapshot}

/-- A refresh that reads no head without the upstream makes a well-formed snapshot of one.  When it
reads everything, the retained snapshot does not matter. -/
theorem Refreshes.wellFormed (h : Refreshes repo options domains previous s)
    (hclosed : .head ∈ domains → .upstream ∈ domains)
    (hprevious : ∀ d, d ∉ domains → previous.WellFormed) : s.WellFormed := by
  have hhead : s.head.WellFormed ∧
      (s.headCommit ≠ none → (s.head.oid.bind Oid.fromStr).isSome = true) := by
    refine readIf_invariant (P := fun head : HeadState × Option CommitSummary =>
      head.1.WellFormed ∧ (head.2 ≠ none → (head.1.oid.bind Oid.fromStr).isSome = true))
      (fun hd => ⟨(hprevious _ hd).head, (hprevious _ hd).headCommit⟩) ?_ h.head
    intro head hread
    obtain ⟨state, hstate, hread⟩ := Result.bind_eq_ok.1 hread
    obtain ⟨commit, hcommit, hread⟩ := Result.bind_eq_ok.1 hread
    obtain rfl := Except.ok.inj hread
    exact ⟨headState_wellFormed hstate, headCommit_parses hcommit⟩
  have hupstream : s.upstream ≠ none → s.head.kind = .attached ∧ s.head.branch ≠ none := by
    by_cases hd : .upstream ∈ domains
    · have hread := h.upstream
      rw [readIf_of_mem hd] at hread
      exact upstreamState_attached hread
    · -- the upstream is kept, and so is the head it was read for
      have hnot : .head ∉ domains := fun hmem => hd (hclosed hmem)
      obtain ⟨hkept, -⟩ := Prod.mk.inj (readIf_keeps hnot h.head)
      rw [readIf_keeps hd h.upstream, hkept]
      exact (hprevious _ hd).upstream
  have hbranches :=
    readIf_invariant (fun hd => ⟨(hprevious _ hd).branches, (hprevious _ hd).branch⟩)
    (fun _ => branches_wellFormed) h.branches
  have hidentity := readIf_invariant
    (P := fun identity : RepositoryIdentity =>
      identity.isLinkedWorktree = true ↔ identity.gitDir ≠ identity.commonDir)
    (fun hd => (hprevious _ hd).identity) (fun _ => repositoryIdentity_linked) h.identity
  have htags := readIf_invariant (fun hd => ⟨(hprevious _ hd).tags, (hprevious _ hd).tag⟩)
    (fun _ => tags_wellFormed) h.tags
  have hworktrees := readIf_invariant
    (fun hd => ⟨(hprevious _ hd).worktrees, (hprevious _ hd).locked⟩)
    (fun _ => worktrees_wellFormed) h.worktrees
  exact {
    identity := hidentity
    head := hhead.1
    headCommit := hhead.2
    upstream := hupstream
    paths := readIf_invariant (fun hd => (hprevious _ hd).paths)
      (fun _ => pathState_wellFormed) h.paths
    operation := readIf_invariant (fun hd => (hprevious _ hd).operation)
      (fun _ hread => Except.ok.inj hread ▸ operationState_wellFormed) h.operation
    remotes := readIf_invariant (fun hd => (hprevious _ hd).remotes)
      (fun _ => remotes_sorted) h.remotes
    branches := hbranches.1
    branch := hbranches.2
    tags := htags.1
    tag := htags.2
    worktrees := hworktrees.1
    locked := hworktrees.2
    submodules := readIf_invariant (fun hd => (hprevious _ hd).submodules)
      (fun _ => submodules_sorted) h.submodules }

/-- Every snapshot that was read is well formed. -/
theorem wellFormed_of_read {discover : Discover} {path : PathBuf}
    (h : snapshotRepositoryWithOptions discover path options = .ok s) : s.WellFormed := by
  obtain ⟨repo, -, hread⟩ := Result.bind_eq_ok.1 h
  exact (readSnapshot_eq_ok.1 hread).wellFormed (fun _ => mem_allDomains _)
    fun d hd => absurd (mem_allDomains d) hd

/-- A refresh of a well-formed snapshot by a plan that reads no head without the upstream. -/
theorem wellFormed_of_refresh {discover : Discover} {path : PathBuf}
    {previous : Option RepositorySnapshot} {plan : RefreshPlan} {refresh : SnapshotRefresh}
    (hprevious : ∀ snapshot, previous = some snapshot → snapshot.WellFormed)
    (hplan : plan.reads .head → plan.reads .upstream)
    (h : refreshRepositoryWithPlan discover path previous plan options = .ok refresh) :
    refresh.snapshot.WellFormed := by
  unfold refreshRepositoryWithPlan at h
  split at h
  · obtain ⟨snapshot, hread, hrefresh⟩ := Result.bind_eq_ok.1 h
    obtain rfl := Except.ok.inj hrefresh
    exact wellFormed_of_read hread
  · obtain rfl := Except.ok.inj h
    exact hprevious _ rfl
  · obtain ⟨snapshot, hread, hrefresh⟩ := Result.bind_eq_ok.1 h
    obtain rfl := Except.ok.inj hrefresh
    exact wellFormed_of_read hread
  · next retained domains =>
      obtain ⟨repo, -, h⟩ := Result.bind_eq_ok.1 h
      obtain ⟨snapshot, hread, hrefresh⟩ := Result.bind_eq_ok.1 h
      obtain rfl := Except.ok.inj hrefresh
      exact (refreshDomains_eq_ok.1 hread).wellFormed hplan fun _ _ => hprevious _ rfl

end

end Gitseer
