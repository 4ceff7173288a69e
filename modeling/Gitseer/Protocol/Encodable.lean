/-
**Which messages have a JSON form.**

A path is written as its text, so a path that is not UTF-8 has no JSON form, and neither has a
record that holds one.  Nothing else stands in the way: names, identifiers, counts and flags can
always be written.

Main definitions:

* `PathBuf.IsUtf8` — the path has a text;
* `RepositorySnapshot.Utf8Paths`, `SnapshotPatch.Utf8Paths` — every path of the record has one.

Main results:

* `Wire.encodes_repositorySnapshot`, `Wire.encodes_snapshotPatch` — a snapshot or a patch has a
  JSON form exactly when its paths are UTF-8;
* `Wire.encodes_snapshotNotificationParams`, `Wire.encodes_deltaNotificationParams` — the same for
  the parameters of the two notifications.
-/

import Mathlib.Tactic.MkIffOfInductiveProp
import Gitseer.Protocol.Wire

set_option relaxedAutoImplicit false
set_option autoImplicit false

open StdPath (PathBuf)

/-- The path is UTF-8. -/
def StdPath.PathBuf.IsUtf8 (p : PathBuf) : Prop := p.toStr.isSome = true

instance (p : PathBuf) : Decidable p.IsUtf8 := inferInstanceAs (Decidable (_ = true))

namespace Gitseer

/-! ### Records with paths -/

/-- The paths of the record are UTF-8. -/
@[mk_iff]
structure RepositoryIdentity.Utf8Paths (s : RepositoryIdentity) : Prop where
  worktreeRoot : ∀ p ∈ s.worktreeRoot, p.IsUtf8
  gitDir : s.gitDir.IsUtf8
  commonDir : s.commonDir.IsUtf8

/-- The paths of the snapshot are UTF-8. -/
@[mk_iff]
structure RepositorySnapshot.Utf8Paths (s : RepositorySnapshot) : Prop where
  identity : s.identity.Utf8Paths
  worktrees : ∀ w ∈ s.worktrees, w.path.IsUtf8
  submodules : ∀ m ∈ s.submodules, m.path.IsUtf8

/-- The paths of the sections a patch carries are UTF-8. -/
@[mk_iff]
structure SnapshotPatch.Utf8Paths (s : SnapshotPatch) : Prop where
  identity : ∀ identity ∈ s.identity, identity.Utf8Paths
  worktrees : ∀ l ∈ s.worktrees, ∀ w ∈ l, w.path.IsUtf8
  submodules : ∀ l ∈ s.submodules, ∀ m ∈ l, m.path.IsUtf8

namespace Wire

/-! ### Records without paths -/

@[simp] theorem encodes_optional {α : Type} {c : Json.Codec α} {h : ∀ a, c.enc a ≠ some .null}
    {o : Option α} : (optional c h).Encodes o ↔ ∀ a ∈ o, c.Encodes a :=
  Json.Codec.encodes_option

@[simp] theorem encodes_carried {α : Type} {name : String} {c : Json.Codec α}
    {h : ∀ a, c.enc a ≠ some .null} {o : Option α} :
    (carried name c h).Encodes o ↔ ∀ a ∈ o, c.Encodes a :=
  Json.Fields.encodes_skipNone

@[simp] theorem encodes_u64 (v : UInt64) : u64.Encodes v := rfl

@[simp] theorem encodes_optString (o : Option String) : optString.Encodes o := by simp [optString]

@[simp] theorem encodes_strings (l : List String) : strings.Encodes l := by simp [strings]

@[simp] theorem encodes_headState (s : HeadState) : headStateCodec.Encodes s := by
  simp [headStateCodec, headKindCodec]

@[simp] theorem encodes_commitSummary (s : CommitSummary) : commitSummaryCodec.Encodes s := by
  simp [commitSummaryCodec]

@[simp] theorem encodes_upstreamState (s : UpstreamState) : upstreamStateCodec.Encodes s := by
  simp [upstreamStateCodec]

@[simp] theorem encodes_pathState (s : PathState) : pathStateCodec.Encodes s := by
  simp [pathStateCodec, conflictSummaryCodec, conflictSideCodec, pathEntryCodec,
    pathEntryStatusCodec, pathDiffSummaryCodec]

@[simp] theorem encodes_operationState (s : OperationState) : operationStateCodec.Encodes s := by
  simp [operationStateCodec, operationKindCodec, operationHeadCodec, operationHeadRoleCodec,
    bisectStateCodec]

@[simp] theorem encodes_remoteSummary (s : RemoteSummary) : remoteSummaryCodec.Encodes s := by
  simp [remoteSummaryCodec]

@[simp] theorem encodes_branchSummary (s : BranchSummary) : branchSummaryCodec.Encodes s := by
  simp [branchSummaryCodec, branchKindCodec, commitSummaryCodec]

@[simp] theorem encodes_tagSummary (s : TagSummary) : tagSummaryCodec.Encodes s := by
  simp [tagSummaryCodec, tagKindCodec, gitObjectKindCodec]

@[simp] theorem encodes_stashSummary (s : StashSummary) : stashSummaryCodec.Encodes s := by
  simp [stashSummaryCodec]

@[simp] theorem encodes_snapshotDelta (s : SnapshotDelta) : snapshotDeltaCodec.Encodes s := by
  simp [snapshotDeltaCodec, pathDeltaCodec, pathSetDeltaCodec]

/-! ### Records with paths -/

@[simp] theorem encodes_pathBuf (p : PathBuf) : pathBuf.Encodes p ↔ p.IsUtf8 := by
  have henc : pathBuf.enc p = p.toStr.map Json.Value.string := by
    cases h : p.toStr <;> simp [pathBuf, Json.Codec.map, Json.Codec.string, h]
  simp [Json.Codec.Encodes, PathBuf.IsUtf8, henc]

@[simp] theorem encodes_repositoryIdentity (s : RepositoryIdentity) :
    repositoryIdentityCodec.Encodes s ↔ s.Utf8Paths := by
  simp [repositoryIdentityCodec, RepositoryIdentity.utf8Paths_iff]

@[simp] theorem encodes_worktreeSummary (s : WorktreeSummary) :
    worktreeSummaryCodec.Encodes s ↔ s.path.IsUtf8 := by
  simp [worktreeSummaryCodec]

@[simp] theorem encodes_submoduleSummary (s : SubmoduleSummary) :
    submoduleSummaryCodec.Encodes s ↔ s.path.IsUtf8 := by
  simp [submoduleSummaryCodec, submoduleStateCodec]

theorem encodes_repositorySnapshot (s : RepositorySnapshot) :
    repositorySnapshotCodec.Encodes s ↔ s.Utf8Paths := by
  simp [repositorySnapshotCodec, commitSummaryCodec, upstreamStateCodec,
    RepositorySnapshot.utf8Paths_iff]

theorem encodes_snapshotPatch (s : SnapshotPatch) :
    snapshotPatchCodec.Encodes s ↔ s.Utf8Paths := by
  simp [snapshotPatchCodec, repositoryIdentityCodec, headStateCodec, headKindCodec,
    commitSummaryCodec, upstreamStateCodec, pathStateCodec, conflictSummaryCodec,
    conflictSideCodec, pathEntryCodec, pathEntryStatusCodec, pathDiffSummaryCodec,
    operationStateCodec, operationKindCodec, operationHeadCodec, operationHeadRoleCodec,
    bisectStateCodec, SnapshotPatch.utf8Paths_iff, RepositoryIdentity.utf8Paths_iff]

theorem encodes_snapshotNotificationParams (params : SnapshotNotificationParams) :
    snapshotNotificationParamsCodec.Encodes params ↔ params.snapshot.Utf8Paths := by
  simp [snapshotNotificationParamsCodec, encodes_repositorySnapshot]

theorem encodes_deltaNotificationParams (params : DeltaNotificationParams) :
    deltaNotificationParamsCodec.Encodes params ↔ params.patch.Utf8Paths := by
  simp [deltaNotificationParamsCodec, encodes_snapshotPatch]

end Wire

end Gitseer
