/-
**The JSON forms of the protocol's data.**

Every type that goes over the wire has a codec, built field by field from the names and attributes
its `serde` derivation gives it: field names and enumeration members are in camel case, a patch
leaves out the sections it does not carry, and the head commit and the upstream of a patch keep
"left out" and "null" apart.  A codec comes with its round trip (`Json.Codec.dec_enc`), so nothing
has to be proved here but that the parts fit together.  A path that is not UTF-8 has no JSON form.
A number is read only where it is in the range of its field's type (`Json.Codec.fromValue`).

Main definitions:

* `Wire.pathBuf` — paths as their text;
* `Wire.repositorySnapshotCodec`, `Wire.snapshotDeltaCodec`, `Wire.snapshotPatchCodec` and the
  codecs of the types of their fields;
* `Wire.snapshotNotificationParamsCodec`, `Wire.deltaNotificationParamsCodec` — the parameters of
  the two notifications.
-/

import Gitseer.Lib.Json
import Gitseer.Repository.Model

set_option relaxedAutoImplicit false
set_option autoImplicit false

open StdPath (PathBuf)

namespace Gitseer

structure SnapshotNotificationParams where
  version : UInt64
  snapshot : RepositorySnapshot
  deriving DecidableEq

structure DeltaNotificationParams where
  previousVersion : UInt64
  version : UInt64
  delta : SnapshotDelta
  patch : SnapshotPatch
  deriving DecidableEq

namespace Wire

open Json (Codec)
open Json.Codec (bool string i64 u32 usize)
open Json.Fields (field orDefault presence)

/-! ### Common parts -/

/-- A value that may be absent, written as `null`. -/
def optional {α : Type} (c : Codec α)
    (h : ∀ a, c.enc a ≠ some .null := by
      first
        | exact Json.Codec.struct_ne_null _ _ _ _
        | (intro a h; cases h)) : Codec (Option α) :=
  c.option h

/-- A section of a patch, left out when the patch does not carry it. -/
def carried {α : Type} (name : String) (c : Codec α)
    (h : ∀ a, c.enc a ≠ some .null := by
      first
        | exact Json.Codec.struct_ne_null _ _ _ _
        | exact Json.Codec.list_ne_null _) : Json.Fields (Option α) :=
  .skipNone name c h

def optString : Codec (Option String) := optional string

def strings : Codec (List String) := string.list

/-- A path, written as its text. -/
def pathBuf : Codec PathBuf :=
  string.map PathBuf.toStr (fun s => some (PathBuf.ofString s))
    fun _ _ h => congrArg some (StdPath.PathBuf.ofString_of_toStr h)

theorem pathBuf_ne_null (p : PathBuf) : pathBuf.enc p ≠ some .null := by
  intro h
  obtain ⟨s, -, hs⟩ := Option.bind_eq_some_iff.1 h
  cases hs

/-- Version numbers have 64 bits. -/
def u64 : Codec UInt64 :=
  Json.Codec.u64.map (fun v => some v.toNat)
    (fun n => if n < UInt64.size then some (UInt64.ofNat n) else none) (by
      intro v n h
      obtain rfl := Option.some.inj h
      rw [if_pos v.toNat_lt_size, UInt64.ofNat_toNat])

/-! ### Identity and head -/

def repositoryIdentityCodec : Codec RepositoryIdentity :=
  .struct
    ((field "id" string).and <|
      (field "worktreeRoot" (pathBuf.option pathBuf_ne_null)).and <|
      (field "gitDir" pathBuf).and <|
      (field "commonDir" pathBuf).and <|
      (field "namespace" optString).and <|
      (field "isBare" bool).and <|
      (field "isEmpty" bool).and <|
      (field "isShallow" bool).and <|
      field "isLinkedWorktree" bool)
    (fun s => (s.id, s.worktreeRoot, s.gitDir, s.commonDir, s.gitNamespace, s.isBare, s.isEmpty,
      s.isShallow, s.isLinkedWorktree))
    (fun (a, b, c, d, e, f, g, h, i) => ⟨a, b, c, d, e, f, g, h, i⟩)

def headKindName : HeadKind → String
  | .attached => "attached"
  | .detached => "detached"
  | .unborn => "unborn"
  | .missing => "missing"

def headKindCodec : Codec HeadKind :=
  .unitEnum headKindName [.attached, .detached, .unborn, .missing]
    (by intro a; cases a <;> decide)

def headStateCodec : Codec HeadState :=
  .struct
    ((field "kind" headKindCodec).and <|
      (field "name" optString).and <|
      (field "branch" optString).and <|
      field "oid" optString)
    (fun s => (s.kind, s.name, s.branch, s.oid))
    (fun (a, b, c, d) => ⟨a, b, c, d⟩)

def commitSummaryCodec : Codec CommitSummary :=
  .struct
    ((field "oid" string).and <|
      (field "parentOids" strings).and <|
      (field "summary" optString).and <|
      (field "authorName" optString).and <|
      (field "authorEmail" optString).and <|
      field "timeSeconds" i64)
    (fun s => (s.oid, s.parentOids, s.summary, s.authorName, s.authorEmail, s.timeSeconds))
    (fun (a, b, c, d, e, f) => ⟨a, b, c, d, e, f⟩)

def upstreamStateCodec : Codec UpstreamState :=
  .struct
    ((field "name" string).and <|
      (field "oid" optString).and <|
      (field "ahead" usize).and <|
      field "behind" usize)
    (fun s => (s.name, s.oid, s.ahead, s.behind))
    (fun (a, b, c, d) => ⟨a, b, c, d⟩)

/-! ### Paths -/

def conflictSideCodec : Codec ConflictSide :=
  .struct
    ((field "path" string).and <|
      (field "oid" string).and <|
      field "mode" u32)
    (fun s => (s.path, s.oid, s.mode))
    (fun (a, b, c) => ⟨a, b, c⟩)

def conflictSummaryCodec : Codec ConflictSummary :=
  .struct
    ((field "path" string).and <|
      (field "ancestor" (optional conflictSideCodec)).and <|
      (field "ours" (optional conflictSideCodec)).and <|
      field "theirs" (optional conflictSideCodec))
    (fun s => (s.path, s.ancestor, s.ours, s.theirs))
    (fun (a, b, c, d) => ⟨a, b, c, d⟩)

def pathDiffSummaryCodec : Codec PathDiffSummary :=
  .struct
    ((field "added" usize).and <|
      (field "changed" usize).and <|
      field "removed" usize)
    (fun s => (s.added, s.changed, s.removed))
    (fun (a, b, c) => ⟨a, b, c⟩)

def pathEntryStatusCodec : Codec PathEntryStatus :=
  .struct
    ((field "indexNew" bool).and <|
      (field "indexModified" bool).and <|
      (field "indexDeleted" bool).and <|
      (field "indexRenamed" bool).and <|
      (field "indexTypechange" bool).and <|
      (field "workdirNew" bool).and <|
      (field "workdirModified" bool).and <|
      (field "workdirDeleted" bool).and <|
      (field "workdirTypechange" bool).and <|
      (field "workdirRenamed" bool).and <|
      (field "workdirUnreadable" bool).and <|
      (field "ignored" bool).and <|
      (field "conflicted" bool).and <|
      (orDefault "assumeUnchanged" bool false).and <|
      orDefault "skipWorktree" bool false)
    (fun s => (s.indexNew, s.indexModified, s.indexDeleted, s.indexRenamed, s.indexTypechange,
      s.workdirNew, s.workdirModified, s.workdirDeleted, s.workdirTypechange, s.workdirRenamed,
      s.workdirUnreadable, s.ignored, s.conflicted, s.assumeUnchanged, s.skipWorktree))
    (fun (a, b, c, d, e, f, g, h, i, j, k, l, m, n, o) =>
      ⟨a, b, c, d, e, f, g, h, i, j, k, l, m, n, o⟩)

def pathEntryCodec : Codec PathEntry :=
  .struct
    ((field "path" string).and <|
      (field "stagedOldPath" optString).and <|
      (field "stagedNewPath" optString).and <|
      (field "workdirOldPath" optString).and <|
      (field "workdirNewPath" optString).and <|
      (field "status" pathEntryStatusCodec).and <|
      orDefault "diff" pathDiffSummaryCodec {})
    (fun s => (s.path, s.stagedOldPath, s.stagedNewPath, s.workdirOldPath, s.workdirNewPath,
      s.status, s.diff))
    (fun (a, b, c, d, e, f, g) => ⟨a, b, c, d, e, f, g⟩)

def pathStateCodec : Codec PathState :=
  .struct
    ((field "staged" strings).and <|
      (field "unstaged" strings).and <|
      (field "untracked" strings).and <|
      (orDefault "ignored" strings []).and <|
      (field "conflicted" strings).and <|
      (field "conflicts" conflictSummaryCodec.list).and <|
      field "entries" pathEntryCodec.list)
    (fun s => (s.staged, s.unstaged, s.untracked, s.ignored, s.conflicted, s.conflicts,
      s.entries))
    (fun (a, b, c, d, e, f, g) => ⟨a, b, c, d, e, f, g⟩)

/-! ### The operation in progress -/

def operationHeadRoleName : OperationHeadRole → String
  | .merge => "merge"
  | .rebase => "rebase"
  | .cherryPick => "cherryPick"
  | .revert => "revert"

def operationHeadRoleCodec : Codec OperationHeadRole :=
  .unitEnum operationHeadRoleName [.merge, .rebase, .cherryPick, .revert]
    (by intro a; cases a <;> decide)

def operationHeadCodec : Codec OperationHead :=
  .struct
    ((field "role" operationHeadRoleCodec).and <|
      field "oid" string)
    (fun s => (s.role, s.oid))
    (fun (a, b) => ⟨a, b⟩)

def bisectStateCodec : Codec BisectState :=
  .struct
    ((field "startOid" optString).and <|
      (field "goodOids" strings).and <|
      (field "badOids" strings).and <|
      field "skippedOids" strings)
    (fun s => (s.startOid, s.goodOids, s.badOids, s.skippedOids))
    (fun (a, b, c, d) => ⟨a, b, c, d⟩)

def operationKindName : OperationKind → String
  | .clean => "clean"
  | .merge => "merge"
  | .revert => "revert"
  | .revertSequence => "revertSequence"
  | .cherryPick => "cherryPick"
  | .cherryPickSequence => "cherryPickSequence"
  | .bisect => "bisect"
  | .rebase => "rebase"
  | .rebaseInteractive => "rebaseInteractive"
  | .rebaseMerge => "rebaseMerge"
  | .applyMailbox => "applyMailbox"
  | .applyMailboxOrRebase => "applyMailboxOrRebase"

def operationKindCodec : Codec OperationKind :=
  .unitEnum operationKindName [.clean, .merge, .revert, .revertSequence, .cherryPick,
    .cherryPickSequence, .bisect, .rebase, .rebaseInteractive, .rebaseMerge, .applyMailbox,
    .applyMailboxOrRebase]
    (by intro a; cases a <;> decide)

def operationStateCodec : Codec OperationState :=
  .struct
    ((field "kind" operationKindCodec).and <|
      (field "message" optString).and <|
      (orDefault "heads" operationHeadCodec.list []).and <|
      orDefault "bisect" (optional bisectStateCodec) none)
    (fun s => (s.kind, s.message, s.heads, s.bisect))
    (fun (a, b, c, d) => ⟨a, b, c, d⟩)

/-! ### References, worktrees and submodules -/

def remoteSummaryCodec : Codec RemoteSummary :=
  .struct
    ((field "name" string).and <|
      (field "url" optString).and <|
      (field "pushUrl" optString).and <|
      (field "defaultBranch" optString).and <|
      (field "fetchRefspecs" strings).and <|
      field "pushRefspecs" strings)
    (fun s => (s.name, s.url, s.pushUrl, s.defaultBranch, s.fetchRefspecs, s.pushRefspecs))
    (fun (a, b, c, d, e, f) => ⟨a, b, c, d, e, f⟩)

def branchKindName : BranchKind → String
  | .local => "local"
  | .remote => "remote"

def branchKindCodec : Codec BranchKind :=
  .unitEnum branchKindName [.local, .remote]
    (by intro a; cases a <;> decide)

def branchSummaryCodec : Codec BranchSummary :=
  .struct
    ((field "name" string).and <|
      (field "kind" branchKindCodec).and <|
      (field "isHead" bool).and <|
      (field "oid" optString).and <|
      (field "tipCommit" (optional commitSummaryCodec)).and <|
      (field "upstream" optString).and <|
      (field "upstreamAhead" (optional usize)).and <|
      field "upstreamBehind" (optional usize))
    (fun s => (s.name, s.kind, s.isHead, s.oid, s.tipCommit, s.upstream, s.upstreamAhead,
      s.upstreamBehind))
    (fun (a, b, c, d, e, f, g, h) => ⟨a, b, c, d, e, f, g, h⟩)

def tagKindName : TagKind → String
  | .lightweight => "lightweight"
  | .annotated => "annotated"

def tagKindCodec : Codec TagKind :=
  .unitEnum tagKindName [.lightweight, .annotated]
    (by intro a; cases a <;> decide)

def gitObjectKindName : GitObjectKind → String
  | .commit => "commit"
  | .tree => "tree"
  | .blob => "blob"
  | .tag => "tag"

def gitObjectKindCodec : Codec GitObjectKind :=
  .unitEnum gitObjectKindName [.commit, .tree, .blob, .tag]
    (by intro a; cases a <;> decide)

def tagSummaryCodec : Codec TagSummary :=
  .struct
    ((field "name" string).and <|
      (field "oid" string).and <|
      (field "kind" tagKindCodec).and <|
      (field "targetOid" string).and <|
      (field "targetKind" (optional gitObjectKindCodec)).and <|
      (field "taggerName" optString).and <|
      (field "taggerEmail" optString).and <|
      (field "taggerTimeSeconds" (optional i64)).and <|
      field "message" optString)
    (fun s => (s.name, s.oid, s.kind, s.targetOid, s.targetKind, s.taggerName, s.taggerEmail,
      s.taggerTimeSeconds, s.message))
    (fun (a, b, c, d, e, f, g, h, i) => ⟨a, b, c, d, e, f, g, h, i⟩)

def stashSummaryCodec : Codec StashSummary :=
  .struct
    ((field "index" usize).and <|
      (field "message" string).and <|
      field "oid" string)
    (fun s => (s.index, s.message, s.oid))
    (fun (a, b, c) => ⟨a, b, c⟩)

def worktreeSummaryCodec : Codec WorktreeSummary :=
  .struct
    ((field "name" string).and <|
      (field "path" pathBuf).and <|
      (field "locked" bool).and <|
      field "lockReason" optString)
    (fun s => (s.name, s.path, s.locked, s.lockReason))
    (fun (a, b, c, d) => ⟨a, b, c, d⟩)

def submoduleStateCodec : Codec SubmoduleState :=
  .struct
    ((field "inHead" bool).and <|
      (field "inIndex" bool).and <|
      (field "inConfig" bool).and <|
      (field "inWorkdir" bool).and <|
      (field "indexAdded" bool).and <|
      (field "indexDeleted" bool).and <|
      (field "indexModified" bool).and <|
      (field "workdirUninitialized" bool).and <|
      (field "workdirAdded" bool).and <|
      (field "workdirDeleted" bool).and <|
      (field "workdirModified" bool).and <|
      (field "workdirWorktreeModified" bool).and <|
      field "workdirUntracked" bool)
    (fun s => (s.inHead, s.inIndex, s.inConfig, s.inWorkdir, s.indexAdded, s.indexDeleted,
      s.indexModified, s.workdirUninitialized, s.workdirAdded, s.workdirDeleted,
      s.workdirModified, s.workdirWorktreeModified, s.workdirUntracked))
    (fun (a, b, c, d, e, f, g, h, i, j, k, l, m) => ⟨a, b, c, d, e, f, g, h, i, j, k, l, m⟩)

def submoduleSummaryCodec : Codec SubmoduleSummary :=
  .struct
    ((field "name" string).and <|
      (field "path" pathBuf).and <|
      (field "url" optString).and <|
      (field "branch" optString).and <|
      (field "headOid" optString).and <|
      (field "indexOid" optString).and <|
      (field "workdirOid" optString).and <|
      field "status" submoduleStateCodec)
    (fun s => (s.name, s.path, s.url, s.branch, s.headOid, s.indexOid, s.workdirOid, s.status))
    (fun (a, b, c, d, e, f, g, h) => ⟨a, b, c, d, e, f, g, h⟩)

/-! ### Snapshots, deltas and patches -/

def repositorySnapshotCodec : Codec RepositorySnapshot :=
  .struct
    ((field "identity" repositoryIdentityCodec).and <|
      (field "head" headStateCodec).and <|
      (field "headCommit" (optional commitSummaryCodec)).and <|
      (field "upstream" (optional upstreamStateCodec)).and <|
      (field "paths" pathStateCodec).and <|
      (field "operation" operationStateCodec).and <|
      (field "remotes" remoteSummaryCodec.list).and <|
      (field "branches" branchSummaryCodec.list).and <|
      (field "tags" tagSummaryCodec.list).and <|
      (field "stashes" stashSummaryCodec.list).and <|
      (field "worktrees" worktreeSummaryCodec.list).and <|
      field "submodules" submoduleSummaryCodec.list)
    (fun s => (s.identity, s.head, s.headCommit, s.upstream, s.paths, s.operation, s.remotes,
      s.branches, s.tags, s.stashes, s.worktrees, s.submodules))
    (fun (a, b, c, d, e, f, g, h, i, j, k, l) => ⟨a, b, c, d, e, f, g, h, i, j, k, l⟩)

def pathSetDeltaCodec : Codec PathSetDelta :=
  .struct
    ((field "added" strings).and <|
      field "removed" strings)
    (fun s => (s.added, s.removed))
    (fun (a, b) => ⟨a, b⟩)

def pathDeltaCodec : Codec PathDelta :=
  .struct
    ((field "staged" pathSetDeltaCodec).and <|
      (field "unstaged" pathSetDeltaCodec).and <|
      (field "untracked" pathSetDeltaCodec).and <|
      (field "ignored" pathSetDeltaCodec).and <|
      (field "conflicted" pathSetDeltaCodec).and <|
      field "entriesChanged" strings)
    (fun s => (s.staged, s.unstaged, s.untracked, s.ignored, s.conflicted, s.entriesChanged))
    (fun (a, b, c, d, e, f) => ⟨a, b, c, d, e, f⟩)

def snapshotDeltaCodec : Codec SnapshotDelta :=
  .struct
    ((field "repositoryId" string).and <|
      (orDefault "identityChanged" bool false).and <|
      (field "headChanged" bool).and <|
      (field "upstreamChanged" bool).and <|
      (field "operationChanged" bool).and <|
      (field "paths" pathDeltaCodec).and <|
      (field "remotesChanged" bool).and <|
      (field "branchesChanged" bool).and <|
      (field "tagsChanged" bool).and <|
      (field "stashesChanged" bool).and <|
      (field "worktreesChanged" bool).and <|
      field "submodulesChanged" bool)
    (fun s => (s.repositoryId, s.identityChanged, s.headChanged, s.upstreamChanged,
      s.operationChanged, s.paths, s.remotesChanged, s.branchesChanged, s.tagsChanged,
      s.stashesChanged, s.worktreesChanged, s.submodulesChanged))
    (fun (a, b, c, d, e, f, g, h, i, j, k, l) => ⟨a, b, c, d, e, f, g, h, i, j, k, l⟩)

def snapshotPatchCodec : Codec SnapshotPatch :=
  .struct
    ((carried "identity" repositoryIdentityCodec).and <|
      (carried "head" headStateCodec).and <|
      (presence "headCommit" (optional commitSummaryCodec)).and <|
      (presence "upstream" (optional upstreamStateCodec)).and <|
      (carried "paths" pathStateCodec).and <|
      (carried "operation" operationStateCodec).and <|
      (carried "remotes" remoteSummaryCodec.list).and <|
      (carried "branches" branchSummaryCodec.list).and <|
      (carried "tags" tagSummaryCodec.list).and <|
      (carried "stashes" stashSummaryCodec.list).and <|
      (carried "worktrees" worktreeSummaryCodec.list).and <|
      carried "submodules" submoduleSummaryCodec.list)
    (fun s => (s.identity, s.head, s.headCommit, s.upstream, s.paths, s.operation, s.remotes,
      s.branches, s.tags, s.stashes, s.worktrees, s.submodules))
    (fun (a, b, c, d, e, f, g, h, i, j, k, l) => ⟨a, b, c, d, e, f, g, h, i, j, k, l⟩)

/-! ### Notifications -/

def snapshotNotificationParamsCodec : Codec SnapshotNotificationParams :=
  .struct
    ((field "version" u64).and <|
      field "snapshot" repositorySnapshotCodec)
    (fun s => (s.version, s.snapshot))
    (fun (a, b) => ⟨a, b⟩)

def deltaNotificationParamsCodec : Codec DeltaNotificationParams :=
  .struct
    ((field "previousVersion" u64).and <|
      (field "version" u64).and <|
      (field "delta" snapshotDeltaCodec).and <|
      field "patch" snapshotPatchCodec)
    (fun s => (s.previousVersion, s.version, s.delta, s.patch))
    (fun (a, b, c, d) => ⟨a, b, c, d⟩)

end Wire

end Gitseer
