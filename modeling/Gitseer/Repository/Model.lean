/-
**Repository snapshots, deltas, patches and refresh plans.**

A snapshot is what the worker knows about its repository, in twelve sections.  Between two
snapshots there is a *delta*, which says which sections differ, and from a delta and the newer
snapshot a *patch*, which carries the sections that differ.  A *refresh plan* says which sections
of a retained snapshot have to be read again.

The types follow the source field by field.  Counters (`usize`) are natural numbers and
timestamps (`i64`) integers; paths are compared by components (`StdPath.PathBuf`), as the
derived equality of the source does.

Main definitions:

* `RepositorySnapshot`, `SnapshotDelta`, `SnapshotPatch` and the types of their fields;
* `RefreshDomain`, `RefreshPlan`, `RefreshPlan.combine` — plans and their combination.

Main results:

* the plans form a join semilattice with least element `RefreshPlan.none` and greatest element
  `RefreshPlan.full`, and `combine` is the join.
-/

import Gitseer.Lib.Path
import Mathlib.Data.Finset.Basic
import Mathlib.Data.Finset.Lattice.Basic
import Mathlib.Data.Int.Notation
import Mathlib.Order.BoundedOrder.Basic
import Mathlib.Order.Lattice

set_option relaxedAutoImplicit false
set_option autoImplicit false

open StdPath (PathBuf)

namespace Gitseer

/-! ### The sections of a snapshot -/

structure RepositoryIdentity where
  id : String
  worktreeRoot : Option PathBuf
  gitDir : PathBuf
  commonDir : PathBuf
  gitNamespace : Option String
  isBare : Bool
  isEmpty : Bool
  isShallow : Bool
  isLinkedWorktree : Bool
  deriving DecidableEq

inductive HeadKind
  | attached
  | detached
  | unborn
  | missing
  deriving DecidableEq

structure HeadState where
  kind : HeadKind
  name : Option String
  branch : Option String
  oid : Option String
  deriving DecidableEq

structure CommitSummary where
  oid : String
  parentOids : List String
  summary : Option String
  authorName : Option String
  authorEmail : Option String
  timeSeconds : ℤ
  deriving DecidableEq

structure UpstreamState where
  name : String
  oid : Option String
  ahead : ℕ
  behind : ℕ
  deriving DecidableEq

structure ConflictSide where
  path : String
  oid : String
  mode : ℕ
  deriving DecidableEq

structure ConflictSummary where
  path : String
  ancestor : Option ConflictSide
  ours : Option ConflictSide
  theirs : Option ConflictSide
  deriving DecidableEq

structure PathEntryStatus where
  indexNew : Bool := false
  indexModified : Bool := false
  indexDeleted : Bool := false
  indexRenamed : Bool := false
  indexTypechange : Bool := false
  workdirNew : Bool := false
  workdirModified : Bool := false
  workdirDeleted : Bool := false
  workdirTypechange : Bool := false
  workdirRenamed : Bool := false
  workdirUnreadable : Bool := false
  ignored : Bool := false
  conflicted : Bool := false
  assumeUnchanged : Bool := false
  skipWorktree : Bool := false
  deriving DecidableEq

structure PathDiffSummary where
  added : ℕ := 0
  changed : ℕ := 0
  removed : ℕ := 0
  deriving DecidableEq

structure PathEntry where
  path : String
  stagedOldPath : Option String
  stagedNewPath : Option String
  workdirOldPath : Option String
  workdirNewPath : Option String
  status : PathEntryStatus
  diff : PathDiffSummary
  deriving DecidableEq

structure PathState where
  staged : List String := []
  unstaged : List String := []
  untracked : List String := []
  ignored : List String := []
  conflicted : List String := []
  conflicts : List ConflictSummary := []
  entries : List PathEntry := []
  deriving DecidableEq

inductive OperationHeadRole
  | merge
  | rebase
  | cherryPick
  | revert
  deriving DecidableEq

structure OperationHead where
  role : OperationHeadRole
  oid : String
  deriving DecidableEq

structure BisectState where
  startOid : Option String
  goodOids : List String
  badOids : List String
  skippedOids : List String
  deriving DecidableEq

inductive OperationKind
  | clean
  | merge
  | revert
  | revertSequence
  | cherryPick
  | cherryPickSequence
  | bisect
  | rebase
  | rebaseInteractive
  | rebaseMerge
  | applyMailbox
  | applyMailboxOrRebase
  deriving DecidableEq

structure OperationState where
  kind : OperationKind
  message : Option String
  heads : List OperationHead
  bisect : Option BisectState
  deriving DecidableEq

structure RemoteSummary where
  name : String
  url : Option String
  pushUrl : Option String
  defaultBranch : Option String
  fetchRefspecs : List String
  pushRefspecs : List String
  deriving DecidableEq

inductive BranchKind
  | local
  | remote
  deriving DecidableEq

structure BranchSummary where
  name : String
  kind : BranchKind
  isHead : Bool
  oid : Option String
  tipCommit : Option CommitSummary
  upstream : Option String
  upstreamAhead : Option ℕ
  upstreamBehind : Option ℕ
  deriving DecidableEq

inductive TagKind
  | lightweight
  | annotated
  deriving DecidableEq

inductive GitObjectKind
  | commit
  | tree
  | blob
  | tag
  deriving DecidableEq

structure TagSummary where
  name : String
  oid : String
  kind : TagKind
  targetOid : String
  targetKind : Option GitObjectKind
  taggerName : Option String
  taggerEmail : Option String
  taggerTimeSeconds : Option ℤ
  message : Option String
  deriving DecidableEq

structure StashSummary where
  index : ℕ
  message : String
  oid : String
  deriving DecidableEq

structure WorktreeSummary where
  name : String
  path : PathBuf
  locked : Bool
  lockReason : Option String
  deriving DecidableEq

structure SubmoduleState where
  inHead : Bool
  inIndex : Bool
  inConfig : Bool
  inWorkdir : Bool
  indexAdded : Bool
  indexDeleted : Bool
  indexModified : Bool
  workdirUninitialized : Bool
  workdirAdded : Bool
  workdirDeleted : Bool
  workdirModified : Bool
  workdirWorktreeModified : Bool
  workdirUntracked : Bool
  deriving DecidableEq

structure SubmoduleSummary where
  name : String
  path : PathBuf
  url : Option String
  branch : Option String
  headOid : Option String
  indexOid : Option String
  workdirOid : Option String
  status : SubmoduleState
  deriving DecidableEq

/-! ### Snapshots, deltas and patches -/

structure RepositorySnapshot where
  identity : RepositoryIdentity
  head : HeadState
  headCommit : Option CommitSummary
  upstream : Option UpstreamState
  paths : PathState
  operation : OperationState
  remotes : List RemoteSummary
  branches : List BranchSummary
  tags : List TagSummary
  stashes : List StashSummary
  worktrees : List WorktreeSummary
  submodules : List SubmoduleSummary
  deriving DecidableEq

structure PathSetDelta where
  added : List String := []
  removed : List String := []
  deriving DecidableEq

/-- Does the set differ? -/
def PathSetDelta.hasChanges (d : PathSetDelta) : Bool := !d.added.isEmpty || !d.removed.isEmpty

structure PathDelta where
  staged : PathSetDelta := {}
  unstaged : PathSetDelta := {}
  untracked : PathSetDelta := {}
  ignored : PathSetDelta := {}
  conflicted : PathSetDelta := {}
  entriesChanged : List String := []
  deriving DecidableEq

/-- Does one of the sets, or some entry, differ? -/
def PathDelta.hasChanges (d : PathDelta) : Bool :=
  d.staged.hasChanges || d.unstaged.hasChanges || d.untracked.hasChanges ||
    d.ignored.hasChanges || d.conflicted.hasChanges || !d.entriesChanged.isEmpty

structure SnapshotDelta where
  repositoryId : String
  identityChanged : Bool
  headChanged : Bool
  upstreamChanged : Bool
  operationChanged : Bool
  paths : PathDelta
  remotesChanged : Bool
  branchesChanged : Bool
  tagsChanged : Bool
  stashesChanged : Bool
  worktreesChanged : Bool
  submodulesChanged : Bool
  deriving DecidableEq

/-- Does some section differ? -/
def SnapshotDelta.hasChanges (d : SnapshotDelta) : Bool :=
  d.headChanged || d.identityChanged || d.upstreamChanged || d.operationChanged ||
    d.paths.hasChanges || d.remotesChanged || d.branchesChanged || d.tagsChanged ||
    d.stashesChanged || d.worktreesChanged || d.submodulesChanged

structure SnapshotPatch where
  identity : Option RepositoryIdentity := none
  head : Option HeadState := none
  headCommit : Option (Option CommitSummary) := none
  upstream : Option (Option UpstreamState) := none
  paths : Option PathState := none
  operation : Option OperationState := none
  remotes : Option (List RemoteSummary) := none
  branches : Option (List BranchSummary) := none
  tags : Option (List TagSummary) := none
  stashes : Option (List StashSummary) := none
  worktrees : Option (List WorktreeSummary) := none
  submodules : Option (List SubmoduleSummary) := none
  deriving DecidableEq

/-- The sections a delta names, taken from the newer snapshot. -/
def SnapshotPatch.fromDelta (current : RepositorySnapshot) (delta : SnapshotDelta) :
    SnapshotPatch where
  identity := if delta.identityChanged then some current.identity else none
  head := if delta.headChanged then some current.head else none
  headCommit := if delta.headChanged then some current.headCommit else none
  upstream := if delta.upstreamChanged then some current.upstream else none
  paths := if delta.paths.hasChanges then some current.paths else none
  operation := if delta.operationChanged then some current.operation else none
  remotes := if delta.remotesChanged then some current.remotes else none
  branches := if delta.branchesChanged then some current.branches else none
  tags := if delta.tagsChanged then some current.tags else none
  stashes := if delta.stashesChanged then some current.stashes else none
  worktrees := if delta.worktreesChanged then some current.worktrees else none
  submodules := if delta.submodulesChanged then some current.submodules else none

structure SnapshotOptions where
  includeIgnored : Bool := false
  deriving DecidableEq

/-! ### Refresh plans -/

inductive RefreshDomain
  | identity
  | head
  | upstream
  | paths
  | operation
  | remotes
  | branches
  | tags
  | stashes
  | worktrees
  | submodules
  deriving DecidableEq

/-- Which sections to read again: none, all of them, or those of a set of domains. -/
inductive RefreshPlan
  | none
  | full
  | domains (set : Finset RefreshDomain)
  deriving DecidableEq

namespace RefreshPlan

/-- `RefreshPlan::domains`: the plan for the listed domains. -/
def ofDomains (domains : List RefreshDomain) : RefreshPlan :=
  if domains.isEmpty then .none else .domains domains.toFinset

/-- Is there anything to read? -/
def shouldRefresh : RefreshPlan → Bool
  | .none => false
  | _ => true

/-- The plan that reads what either plan reads. -/
def combine : RefreshPlan → RefreshPlan → RefreshPlan
  | .full, _ => .full
  | _, .full => .full
  | .none, plan => plan
  | plan, .none => plan
  | .domains left, .domains right => .domains (left ∪ right)

/-- Does the plan read the sections of a domain? -/
def reads : RefreshPlan → RefreshDomain → Prop
  | .none, _ => False
  | .full, _ => True
  | .domains set, d => d ∈ set

instance (plan : RefreshPlan) (d : RefreshDomain) : Decidable (plan.reads d) :=
  match plan with
  | .none => inferInstanceAs (Decidable False)
  | .full => inferInstanceAs (Decidable True)
  | .domains set => inferInstanceAs (Decidable (d ∈ set))

@[simp] theorem combine_none (plan : RefreshPlan) : plan.combine .none = plan := by
  cases plan <;> rfl

@[simp] theorem none_combine (plan : RefreshPlan) : combine .none plan = plan := by
  cases plan <;> rfl

@[simp] theorem combine_full (plan : RefreshPlan) : plan.combine .full = .full := by
  cases plan <;> rfl

@[simp] theorem full_combine (plan : RefreshPlan) : combine .full plan = .full := by
  cases plan <;> rfl

@[simp] theorem domains_combine (s t : Finset RefreshDomain) :
    combine (.domains s) (.domains t) = .domains (s ∪ t) := rfl

theorem reads_combine {p q : RefreshPlan} {d : RefreshDomain} :
    (p.combine q).reads d ↔ p.reads d ∨ q.reads d := by
  cases p <;> cases q <;> simp [reads]

/-- The order of plans: nothing is below everything, sets of domains are ordered by inclusion,
and a full read is above all of them. -/
instance : LE RefreshPlan where
  le p q :=
    match p, q with
    | .none, _ => True
    | _, .full => True
    | .domains s, .domains t => s ⊆ t
    | _, _ => False

theorem none_le (p : RefreshPlan) : RefreshPlan.none ≤ p := trivial

theorem le_full (p : RefreshPlan) : p ≤ RefreshPlan.full := by cases p <;> trivial

theorem not_full_le_none : ¬ RefreshPlan.full ≤ RefreshPlan.none := id

theorem not_full_le_domains (s : Finset RefreshDomain) :
    ¬ RefreshPlan.full ≤ RefreshPlan.domains s := id

theorem not_domains_le_none (s : Finset RefreshDomain) :
    ¬ RefreshPlan.domains s ≤ RefreshPlan.none := id

/-- The plans form a join semilattice; the join is `combine`. -/
instance : SemilatticeSup RefreshPlan where
  le_refl p := by
    cases p with
    | none => exact none_le _
    | full => exact le_full _
    | domains s => exact Finset.Subset.refl s
  le_trans p q r hpq hqr := by
    cases p with
    | none => exact none_le _
    | full =>
        cases q with
        | none => exact absurd hpq not_full_le_none
        | full => exact hqr
        | domains t => exact absurd hpq (not_full_le_domains t)
    | domains s =>
        cases q with
        | none => exact absurd hpq (not_domains_le_none s)
        | full =>
            cases r with
            | none => exact absurd hqr not_full_le_none
            | full => exact le_full _
            | domains u => exact absurd hqr (not_full_le_domains u)
        | domains t =>
            cases r with
            | none => exact absurd hqr (not_domains_le_none t)
            | full => exact le_full _
            | domains u => exact Finset.Subset.trans hpq hqr
  le_antisymm p q hpq hqp := by
    cases p with
    | none =>
        cases q with
        | none => rfl
        | full => exact absurd hqp not_full_le_none
        | domains t => exact absurd hqp (not_domains_le_none t)
    | full =>
        cases q with
        | none => exact absurd hpq not_full_le_none
        | full => rfl
        | domains t => exact absurd hpq (not_full_le_domains t)
    | domains s =>
        cases q with
        | none => exact absurd hpq (not_domains_le_none s)
        | full => exact absurd hqp (not_full_le_domains s)
        | domains t => rw [Finset.Subset.antisymm hpq hqp]
  sup := combine
  le_sup_left p q := by
    cases p with
    | none => exact none_le _
    | full => cases q <;> trivial
    | domains s =>
        cases q with
        | none => exact Finset.Subset.refl s
        | full => trivial
        | domains t => exact Finset.subset_union_left
  le_sup_right p q := by
    cases p with
    | none => cases q <;> first | trivial | exact Finset.Subset.refl _
    | full => cases q <;> trivial
    | domains s =>
        cases q with
        | none => trivial
        | full => trivial
        | domains t => exact Finset.subset_union_right
  sup_le p q r hp hq := by
    cases p with
    | none => simpa using hq
    | full => simpa using hp
    | domains s =>
        cases q with
        | none => simpa using hp
        | full => simpa using hq
        | domains t =>
            cases r with
            | none => exact absurd hp (not_domains_le_none s)
            | full => exact le_full _
            | domains u => exact Finset.union_subset hp hq

instance : BoundedOrder RefreshPlan where
  top := .full
  le_top := le_full
  bot := .none
  bot_le := none_le

theorem le_combine_left (p q : RefreshPlan) : p ≤ p.combine q := le_sup_left (a := p) (b := q)

theorem le_combine_right (p q : RefreshPlan) : q ≤ p.combine q := le_sup_right (a := p) (b := q)

end RefreshPlan

/-- The result of a refresh: the new snapshot and the plan that was carried out. -/
structure SnapshotRefresh where
  snapshot : RepositorySnapshot
  plan : RefreshPlan
  deriving DecidableEq

end Gitseer
