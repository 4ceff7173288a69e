/-
**The ranges of the numbers of a record.**

Times, counts, modes and positions are numbers of the machine, and a record read back from its JSON
form is refused when one of them is out of the range of its field's type.  Here they are integers
without bound, so what the types say is written down for every record that has numbers.

Main definitions:

* `CommitSummary.InRange`, `PathState.InRange` and the like — the numbers of a record are in the
  ranges of their types;
* `RepositorySnapshot.InRange`, `SnapshotPatch.InRange` — the same for all records they are made of.

Main results:

* `Wire.fits_repositorySnapshot`, `Wire.fits_snapshotPatch` — these are the ranges that the codecs
  check;
* `SnapshotPatch.inRange_fromDelta` — a patch has the numbers of the snapshot it is made from.
-/

import Gitseer.Protocol.Encodable
import Gitseer.Repository.PathDelta

set_option relaxedAutoImplicit false
set_option autoImplicit false

open StdPath (PathBuf)

namespace Gitseer

/-! ### Records with numbers -/

/-- The number is an `i64`. -/
def IsI64 (n : ℤ) : Prop := -2 ^ 63 ≤ n ∧ n < 2 ^ 63

/-- The number is a `u32`. -/
def IsU32 (n : ℕ) : Prop := n < 2 ^ 32

/-- The number is a `usize`. -/
def IsUsize (n : ℕ) : Prop := n < 2 ^ 64

def CommitSummary.InRange (s : CommitSummary) : Prop := IsI64 s.timeSeconds

def UpstreamState.InRange (s : UpstreamState) : Prop := IsUsize s.ahead ∧ IsUsize s.behind

def ConflictSide.InRange (s : ConflictSide) : Prop := IsU32 s.mode

@[mk_iff]
structure ConflictSummary.InRange (s : ConflictSummary) : Prop where
  ancestor : ∀ side ∈ s.ancestor, side.InRange
  ours : ∀ side ∈ s.ours, side.InRange
  theirs : ∀ side ∈ s.theirs, side.InRange

@[mk_iff]
structure PathDiffSummary.InRange (s : PathDiffSummary) : Prop where
  added : IsUsize s.added
  changed : IsUsize s.changed
  removed : IsUsize s.removed

@[mk_iff]
structure PathState.InRange (s : PathState) : Prop where
  conflicts : ∀ c ∈ s.conflicts, c.InRange
  entries : ∀ entry ∈ s.entries, entry.diff.InRange

@[mk_iff]
structure BranchSummary.InRange (s : BranchSummary) : Prop where
  tipCommit : ∀ c ∈ s.tipCommit, c.InRange
  upstreamAhead : ∀ n ∈ s.upstreamAhead, IsUsize n
  upstreamBehind : ∀ n ∈ s.upstreamBehind, IsUsize n

def TagSummary.InRange (s : TagSummary) : Prop := ∀ seconds ∈ s.taggerTimeSeconds, IsI64 seconds

def StashSummary.InRange (s : StashSummary) : Prop := IsUsize s.index

/-- The numbers of the snapshot are in the ranges of their types. -/
@[mk_iff]
structure RepositorySnapshot.InRange (s : RepositorySnapshot) : Prop where
  headCommit : ∀ c ∈ s.headCommit, c.InRange
  upstream : ∀ u ∈ s.upstream, u.InRange
  paths : s.paths.InRange
  branches : ∀ b ∈ s.branches, b.InRange
  tags : ∀ t ∈ s.tags, t.InRange
  stashes : ∀ stash ∈ s.stashes, stash.InRange

/-- The numbers of the sections a patch carries are in the ranges of their types. -/
@[mk_iff]
structure SnapshotPatch.InRange (s : SnapshotPatch) : Prop where
  headCommit : ∀ o ∈ s.headCommit, ∀ c ∈ o, c.InRange
  upstream : ∀ o ∈ s.upstream, ∀ u ∈ o, u.InRange
  paths : ∀ p ∈ s.paths, p.InRange
  branches : ∀ l ∈ s.branches, ∀ b ∈ l, b.InRange
  tags : ∀ l ∈ s.tags, ∀ t ∈ l, t.InRange
  stashes : ∀ l ∈ s.stashes, ∀ stash ∈ l, stash.InRange

/-- A patch has the numbers of the snapshot it is made from. -/
theorem SnapshotPatch.inRange_fromDelta {current : RepositorySnapshot} (h : current.InRange)
    (delta : SnapshotDelta) : (SnapshotPatch.fromDelta current delta).InRange := by
  have hcarried : ∀ {α : Type} {carried : Bool} {a : α} {P : α → Prop}, P a →
      ∀ b ∈ (if carried then some a else none), P b := by
    intro α carried a P ha b hb
    cases carried with
    | true => exact Option.some.inj hb ▸ ha
    | false => cases hb
  exact {
    headCommit := hcarried h.headCommit
    upstream := hcarried h.upstream
    paths := hcarried h.paths
    branches := hcarried h.branches
    tags := hcarried h.tags
    stashes := hcarried h.stashes }

namespace Wire

/-! ### Records without numbers -/

@[simp] theorem fits_optional {α : Type} {c : Json.Codec α} {h : ∀ a, c.enc a ≠ some .null}
    {o : Option α} : (optional c h).fits o = true ↔ ∀ a ∈ o, c.fits a = true :=
  Json.Codec.fits_option

@[simp] theorem fits_carried {α : Type} {name : String} {c : Json.Codec α}
    {h : ∀ a, c.enc a ≠ some .null} {o : Option α} :
    (carried name c h).fits o = true ↔ ∀ a ∈ o, c.fits a = true :=
  Json.Fields.fits_skipNone

@[simp] theorem fits_optString (o : Option String) : optString.fits o = true := by
  simp [optString]

@[simp] theorem fits_strings (l : List String) : strings.fits l = true := by simp [strings]

@[simp] theorem fits_pathBuf (p : PathBuf) : pathBuf.fits p = true := by
  rw [pathBuf, Json.Codec.fits_map]
  cases p.toStr <;> rfl

@[simp] theorem fits_pathBuf_option (o : Option PathBuf) :
    (pathBuf.option pathBuf_ne_null).fits o = true := by simp

/-- A version number is in range by its type. -/
@[simp] theorem fits_u64 (v : UInt64) : u64.fits v = true := by
  rw [u64, Json.Codec.fits_map, Option.all_some, Json.Codec.fits_u64]
  exact v.toNat_lt

@[simp] theorem fits_repositoryIdentity (s : RepositoryIdentity) :
    repositoryIdentityCodec.fits s = true := by simp [repositoryIdentityCodec]

@[simp] theorem fits_headState (s : HeadState) : headStateCodec.fits s = true := by
  simp [headStateCodec, headKindCodec]

@[simp] theorem fits_operationState (s : OperationState) :
    operationStateCodec.fits s = true := by
  simp [operationStateCodec, operationKindCodec, operationHeadCodec, operationHeadRoleCodec,
    bisectStateCodec]

@[simp] theorem fits_remoteSummary (s : RemoteSummary) : remoteSummaryCodec.fits s = true := by
  simp [remoteSummaryCodec]

@[simp] theorem fits_worktreeSummary (s : WorktreeSummary) :
    worktreeSummaryCodec.fits s = true := by simp [worktreeSummaryCodec]

@[simp] theorem fits_submoduleSummary (s : SubmoduleSummary) :
    submoduleSummaryCodec.fits s = true := by simp [submoduleSummaryCodec, submoduleStateCodec]

@[simp] theorem fits_snapshotDelta (s : SnapshotDelta) : snapshotDeltaCodec.fits s = true := by
  simp [snapshotDeltaCodec, pathDeltaCodec, pathSetDeltaCodec]

/-! ### Records with numbers -/

@[simp] theorem fits_commitSummary (s : CommitSummary) :
    commitSummaryCodec.fits s = true ↔ s.InRange := by
  simp [commitSummaryCodec, CommitSummary.InRange, IsI64]

@[simp] theorem fits_upstreamState (s : UpstreamState) :
    upstreamStateCodec.fits s = true ↔ s.InRange := by
  simp [upstreamStateCodec, UpstreamState.InRange, IsUsize]

@[simp] theorem fits_conflictSummary (s : ConflictSummary) :
    conflictSummaryCodec.fits s = true ↔ s.InRange := by
  simp [conflictSummaryCodec, conflictSideCodec, ConflictSummary.inRange_iff,
    ConflictSide.InRange, IsU32]

@[simp] theorem fits_pathDiffSummary (s : PathDiffSummary) :
    pathDiffSummaryCodec.fits s = true ↔ s.InRange := by
  simp [pathDiffSummaryCodec, PathDiffSummary.inRange_iff, IsUsize]

@[simp] theorem fits_pathEntry (s : PathEntry) :
    pathEntryCodec.fits s = true ↔ s.diff.InRange := by
  simp [pathEntryCodec, pathEntryStatusCodec]

@[simp] theorem fits_pathState (s : PathState) : pathStateCodec.fits s = true ↔ s.InRange := by
  simp [pathStateCodec, PathState.inRange_iff]

@[simp] theorem fits_branchSummary (s : BranchSummary) :
    branchSummaryCodec.fits s = true ↔ s.InRange := by
  simp [branchSummaryCodec, branchKindCodec, commitSummaryCodec, BranchSummary.inRange_iff,
    CommitSummary.InRange, IsI64, IsUsize]

@[simp] theorem fits_tagSummary (s : TagSummary) : tagSummaryCodec.fits s = true ↔ s.InRange := by
  simp [tagSummaryCodec, tagKindCodec, gitObjectKindCodec, TagSummary.InRange, IsI64]

@[simp] theorem fits_stashSummary (s : StashSummary) :
    stashSummaryCodec.fits s = true ↔ s.InRange := by
  simp [stashSummaryCodec, StashSummary.InRange, IsUsize]

/-! ### Snapshots and patches -/

theorem fits_repositorySnapshot (s : RepositorySnapshot) :
    repositorySnapshotCodec.fits s = true ↔ s.InRange := by
  simp [repositorySnapshotCodec, commitSummaryCodec, upstreamStateCodec,
    RepositorySnapshot.inRange_iff, CommitSummary.InRange, UpstreamState.InRange, IsI64, IsUsize]

theorem fits_snapshotPatch (s : SnapshotPatch) :
    snapshotPatchCodec.fits s = true ↔ s.InRange := by
  simp [snapshotPatchCodec, repositoryIdentityCodec, headStateCodec, headKindCodec,
    commitSummaryCodec, upstreamStateCodec, pathStateCodec, operationStateCodec,
    operationKindCodec, operationHeadCodec, operationHeadRoleCodec, bisectStateCodec,
    SnapshotPatch.inRange_iff, CommitSummary.InRange, UpstreamState.InRange,
    PathState.inRange_iff, IsI64, IsUsize]

theorem fits_snapshotNotificationParams (params : SnapshotNotificationParams) :
    snapshotNotificationParamsCodec.fits params = true ↔ params.snapshot.InRange := by
  simp [snapshotNotificationParamsCodec, fits_repositorySnapshot]

theorem fits_deltaNotificationParams (params : DeltaNotificationParams) :
    deltaNotificationParamsCodec.fits params = true ↔ params.patch.InRange := by
  simp [deltaNotificationParamsCodec, fits_snapshotPatch]

/-! ### Plain forms -/

section

variable {v : Json.Value}

theorem plain_repositorySnapshot {s : RepositorySnapshot}
    (henc : repositorySnapshotCodec.enc s = some v) (h : s.InRange) : v.plain 126 = true :=
  repositorySnapshotCodec.plain_enc henc ((fits_repositorySnapshot s).2 h) (by decide)

theorem plain_snapshotNotificationParams {params : SnapshotNotificationParams}
    (henc : snapshotNotificationParamsCodec.enc params = some v) (h : params.snapshot.InRange) :
    v.plain 126 = true :=
  snapshotNotificationParamsCodec.plain_enc henc ((fits_snapshotNotificationParams params).2 h)
    (by decide)

theorem plain_deltaNotificationParams {params : DeltaNotificationParams}
    (henc : deltaNotificationParamsCodec.enc params = some v) (h : params.patch.InRange) :
    v.plain 126 = true :=
  deltaNotificationParamsCodec.plain_enc henc ((fits_deltaNotificationParams params).2 h)
    (by decide)

end

end Wire

end Gitseer
