/-
**The path section of a snapshot, and how two path sections are compared.**

The path section is read from the status records, the conflicts and flags of the index, and the
lines of two diffs.  It holds five sorted lists of paths without repetition, the conflicts, and
one entry per status record.  Two path sections are compared by `pathDelta`: the five lists as
sets, the entries as a map from paths, and the conflicts not at all.

Main definitions:

* `pathState` — the reader of the section, with `conflictSummaries`, `diffSummaries` and
  `includeIndexFlagEntries`;
* `pathDelta`, `pathSetDelta`, `pathEntryMap` — the comparison;
* `PathState.Alike` — what two path sections that compare as equal have in common.

Main results:

* `pathSetDelta_hasChanges` — two lists compare as equal exactly when they have the same elements;
* `pathDelta_hasChanges` — two path sections compare as equal exactly when they are `Alike`.
-/

import Gitseer.Lib.BTree
import Gitseer.Repository.Git
import Mathlib.Data.List.Sort
import Mathlib.Data.String.Basic

set_option relaxedAutoImplicit false
set_option autoImplicit false

open StdPath (PathBuf)

namespace Gitseer

/-! ### The entries of a status record -/

def hasStagedStatus (status : Status) : Bool :=
  status.indexNew || status.indexModified || status.indexDeleted || status.indexRenamed ||
    status.indexTypechange

def hasUnstagedStatus (status : Status) : Bool :=
  status.wtModified || status.wtDeleted || status.wtTypechange || status.wtRenamed ||
    status.wtUnreadable

def pathEntryStatus (status : Status) : PathEntryStatus where
  indexNew := status.indexNew
  indexModified := status.indexModified
  indexDeleted := status.indexDeleted
  indexRenamed := status.indexRenamed
  indexTypechange := status.indexTypechange
  workdirNew := status.wtNew
  workdirModified := status.wtModified
  workdirDeleted := status.wtDeleted
  workdirTypechange := status.wtTypechange
  workdirRenamed := status.wtRenamed
  workdirUnreadable := status.wtUnreadable
  ignored := status.ignored
  conflicted := status.conflicted

def pathToString (path : PathBuf) : String := path.toStringLossy

/-! ### Diff counts -/

structure RawDiffSummary where
  added : ℕ := 0
  removed : ℕ := 0

def summarizeRawDiff (raw : RawDiffSummary) : PathDiffSummary :=
  let changed := min raw.added raw.removed
  { added := raw.added - changed, changed := changed, removed := raw.removed - changed }

/-- One call of the line callback: the path gets a summary even when the line counts nothing. -/
def accumulateDiffLine (summaries : BTreeMap String RawDiffSummary) (line : DiffLine) :
    BTreeMap String RawDiffSummary :=
  match line.delta.newFile.or line.delta.oldFile with
  | none => summaries
  | some path =>
      let summary := (summaries.get (pathToString path)).getD {}
      summaries.insert (pathToString path) (match line.origin with
        | .addition => { summary with added := summary.added + line.numLines }
        | .deletion => { summary with removed := summary.removed + line.numLines }
        | _ => summary)

def accumulateDiffLines (lines : List DiffLine) (summaries : BTreeMap String RawDiffSummary) :
    BTreeMap String RawDiffSummary :=
  lines.foldl accumulateDiffLine summaries

/-- The tree of the head commit, when the head and its tree can be read. -/
def headTree (repo : Repository) : Option Oid :=
  match repo.head with
  | .ok head => head.tree
  | .error _ => none

/-- The counts of changed lines, by path. -/
def diffSummaries (repo : Repository) : Except SnapshotError (BTreeMap String RawDiffSummary) := do
  let _index ← liftGit repo.index
  let stagedDiff ← liftGit (repo.diffTreeToIndex (headTree repo))
  let raw := accumulateDiffLines stagedDiff BTreeMap.empty
  let workdirDiff ← liftGit repo.diffIndexToWorkdir
  .ok (accumulateDiffLines workdirDiff raw)

/-- The counts of a path, all zero when the diffs do not mention it. -/
def diffSummary (summaries : BTreeMap String RawDiffSummary) (path : String) : PathDiffSummary :=
  ((summaries.get path).map summarizeRawDiff).getD {}

/-! ### Conflicts -/

/-- The text of a byte path of the index. -/
def indexPath (path : List UInt8) : String := String.ofList (Utf8.lossy path)

def conflictSide (entry : IndexEntry) : ConflictSide :=
  ⟨indexPath entry.path, entry.id.hex, entry.mode⟩

/-- The summary of a conflict; one without any side is left out. -/
def conflictSummary (conflict : IndexConflict) : Option ConflictSummary :=
  let ancestor := conflict.ancestor.map conflictSide
  let ours := conflict.our.map conflictSide
  let theirs := conflict.their.map conflictSide
  ((ancestor.or ours).or theirs).map fun side => ⟨side.path, ancestor, ours, theirs⟩

def conflictSummaries (repo : Repository) : Except SnapshotError (List ConflictSummary) := do
  let index ← liftGit repo.index
  let conflicts ← liftGit index.conflicts
  let conflicts ← conflicts.mapM liftGit
  .ok (List.insertionSort (fun a b => a.path ≤ b.path) (conflicts.filterMap conflictSummary))

/-! ### Flags of the index -/

/-- `GIT_INDEX_ENTRY_VALID`. -/
def IndexEntry.assumeUnchanged (entry : IndexEntry) : Bool := entry.flags.testBit 15

/-- `GIT_INDEX_ENTRY_SKIP_WORKTREE`. -/
def IndexEntry.skipWorktree (entry : IndexEntry) : Bool := entry.flagsExtended.testBit 14

/-- The first entry with a given path, changed; `none` when there is none. -/
def updateFirst (path : String) (update : PathEntry → PathEntry) :
    List PathEntry → Option (List PathEntry)
  | [] => none
  | entry :: entries =>
      if entry.path = path then some (update entry :: entries)
      else (updateFirst path update entries).map (entry :: ·)

/-- The entries after the flags of one index entry are included. -/
def includeIndexEntryFlags (summaries : BTreeMap String RawDiffSummary)
    (entries : List PathEntry) (entry : IndexEntry) : List PathEntry :=
  if !entry.assumeUnchanged && !entry.skipWorktree then entries
  else
    let path := indexPath entry.path
    let flag (existing : PathEntry) : PathEntry :=
      { existing with status := { existing.status with
          assumeUnchanged := entry.assumeUnchanged, skipWorktree := entry.skipWorktree } }
    match updateFirst path flag entries with
    | some entries => entries
    | none => entries ++ [flag ⟨path, none, none, none, none, {}, diffSummary summaries path⟩]

def includeIndexFlagEntries (repo : Repository) (entries : List PathEntry)
    (summaries : BTreeMap String RawDiffSummary) : Except SnapshotError (List PathEntry) := do
  let index ← liftGit repo.index
  .ok (index.entries.foldl (includeIndexEntryFlags summaries) entries)

/-! ### The path section -/

/-- The status records whose path is UTF-8, with that path. -/
def namedStatuses (statuses : List StatusEntry) : List (String × StatusEntry) :=
  statuses.filterMap fun entry => entry.path.map fun path => (path, entry)

/-- The paths of the records whose status satisfies a test, in order and without repetition. -/
def pathsWith (named : List (String × StatusEntry)) (test : Status → Bool) : List String :=
  (BTreeSet.ofList ((named.filter fun p => test p.2.status).map Prod.fst)).toList

def pathEntry (summaries : BTreeMap String RawDiffSummary) (p : String × StatusEntry) :
    PathEntry where
  path := p.1
  stagedOldPath := (p.2.headToIndex.bind DiffDelta.oldFile).map pathToString
  stagedNewPath := (p.2.headToIndex.bind DiffDelta.newFile).map pathToString
  workdirOldPath := (p.2.indexToWorkdir.bind DiffDelta.oldFile).map pathToString
  workdirNewPath := (p.2.indexToWorkdir.bind DiffDelta.newFile).map pathToString
  status := pathEntryStatus p.2.status
  diff := diffSummary summaries p.1

def pathState (repo : Repository) (options : SnapshotOptions) : Except SnapshotError PathState :=
  if repo.isBare then .ok {}
  else do
    let statuses ← liftGit (repo.statuses options.includeIgnored)
    let conflicts ← conflictSummaries repo
    let summaries ← diffSummaries repo
    let named := namedStatuses statuses
    let entries ← includeIndexFlagEntries repo (named.map (pathEntry summaries)) summaries
    .ok {
      staged := pathsWith named hasStagedStatus
      unstaged := pathsWith named hasUnstagedStatus
      untracked := pathsWith named Status.wtNew
      ignored := pathsWith named Status.ignored
      conflicted := pathsWith named Status.conflicted
      conflicts := conflicts
      entries := List.insertionSort (fun a b => a.path ≤ b.path) entries }

/-! ### Comparing two path sections -/

def pathSetDelta (previous current : List String) : PathSetDelta :=
  let previous := BTreeSet.ofList previous
  let current := BTreeSet.ofList current
  { added := (current.difference previous).toList
    removed := (previous.difference current).toList }

def pathEntryMap (entries : List PathEntry) : BTreeMap String PathEntry :=
  BTreeMap.ofList (entries.map fun entry => (entry.path, entry))

/-- The paths whose entries differ. -/
def entriesChanged (previous current : List PathEntry) : List String :=
  let previousEntries := pathEntryMap previous
  let currentEntries := pathEntryMap current
  (BTreeSet.ofList (previousEntries.keys.toList ++ currentEntries.keys.toList)).toList.filter
    fun path => decide (previousEntries.get path ≠ currentEntries.get path)

def pathDelta (previous current : PathState) : PathDelta where
  staged := pathSetDelta previous.staged current.staged
  unstaged := pathSetDelta previous.unstaged current.unstaged
  untracked := pathSetDelta previous.untracked current.untracked
  ignored := pathSetDelta previous.ignored current.ignored
  conflicted := pathSetDelta previous.conflicted current.conflicted
  entriesChanged := entriesChanged previous.entries current.entries

/-- Two lists of paths compare as equal exactly when they have the same elements. -/
theorem pathSetDelta_hasChanges {previous current : List String} :
    (pathSetDelta previous current).hasChanges = false ↔
      ∀ path, path ∈ previous ↔ path ∈ current := by
  simp only [PathSetDelta.hasChanges, pathSetDelta, Bool.or_eq_false_iff, Bool.not_eq_false',
    List.isEmpty_iff, BTreeSet.difference_eq_nil, BTreeSet.mem_ofList]
  constructor
  · rintro ⟨hadded, hremoved⟩ path
    exact ⟨hremoved path, hadded path⟩
  · intro h
    exact ⟨fun path hp => (h path).2 hp, fun path hp => (h path).1 hp⟩

/-- The last entry of a path. -/
def lastEntry (entries : List PathEntry) (path : String) : Option PathEntry :=
  entries.reverse.find? fun entry => decide (entry.path = path)

theorem get_pathEntryMap (entries : List PathEntry) (path : String) :
    (pathEntryMap entries).get path = lastEntry entries path := by
  rw [pathEntryMap, BTreeMap.get_ofList, lastEntry, ← List.map_reverse, List.find?_map]
  simp [Function.comp_def]

theorem mem_keys_pathEntryMap {entries : List PathEntry} {path : String} :
    path ∈ (pathEntryMap entries).keys ↔ lastEntry entries path ≠ none := by
  rw [← get_pathEntryMap]
  exact BTreeMap.mem_keys

/-- The listed paths are those whose last entries differ. -/
theorem mem_entriesChanged {previous current : List PathEntry} {path : String} :
    path ∈ entriesChanged previous current ↔
      lastEntry previous path ≠ lastEntry current path := by
  simp only [entriesChanged, List.mem_filter, ← BTreeSet.mem_iff, BTreeSet.mem_ofList,
    List.mem_append, mem_keys_pathEntryMap, get_pathEntryMap, decide_eq_true_eq,
    and_iff_right_iff_imp]
  intro hne
  by_contra hnone
  simp only [not_or, not_not] at hnone
  exact hne (hnone.1.trans hnone.2.symm)

theorem entriesChanged_eq_nil {previous current : List PathEntry} :
    entriesChanged previous current = [] ↔
      ∀ path, lastEntry previous path = lastEntry current path := by
  rw [List.eq_nil_iff_forall_not_mem]
  refine forall_congr' fun path => ?_
  rw [mem_entriesChanged, not_not]

/-- The two sections have the same paths in each of the five lists, and the same last entry for
every path.  The order of the lists, repetitions, entries that a later one of the same path hides,
and the conflicts may differ. -/
structure PathState.Alike (previous current : PathState) : Prop where
  staged : ∀ path, path ∈ previous.staged ↔ path ∈ current.staged
  unstaged : ∀ path, path ∈ previous.unstaged ↔ path ∈ current.unstaged
  untracked : ∀ path, path ∈ previous.untracked ↔ path ∈ current.untracked
  ignored : ∀ path, path ∈ previous.ignored ↔ path ∈ current.ignored
  conflicted : ∀ path, path ∈ previous.conflicted ↔ path ∈ current.conflicted
  entries : ∀ path, lastEntry previous.entries path = lastEntry current.entries path

/-- Two path sections compare as equal exactly when they are alike. -/
theorem pathDelta_hasChanges {previous current : PathState} :
    (pathDelta previous current).hasChanges = false ↔ previous.Alike current := by
  simp only [PathDelta.hasChanges, pathDelta, Bool.or_eq_false_iff, Bool.not_eq_false',
    List.isEmpty_iff, pathSetDelta_hasChanges, entriesChanged_eq_nil]
  constructor
  · rintro ⟨⟨⟨⟨⟨hs, hu⟩, ht⟩, hi⟩, hc⟩, he⟩
    exact ⟨hs, hu, ht, hi, hc, he⟩
  · rintro ⟨hs, hu, ht, hi, hc, he⟩
    exact ⟨⟨⟨⟨⟨hs, hu⟩, ht⟩, hi⟩, hc⟩, he⟩

instance (previous current : PathState) : Decidable (previous.Alike current) :=
  decidable_of_iff _ pathDelta_hasChanges

theorem PathState.Alike.refl (paths : PathState) : paths.Alike paths where
  staged _ := Iff.rfl
  unstaged _ := Iff.rfl
  untracked _ := Iff.rfl
  ignored _ := Iff.rfl
  conflicted _ := Iff.rfl
  entries _ := rfl

theorem PathState.Alike.trans {a b c : PathState} (h : a.Alike b) (h' : b.Alike c) : a.Alike c where
  staged path := (h.staged path).trans (h'.staged path)
  unstaged path := (h.unstaged path).trans (h'.unstaged path)
  untracked path := (h.untracked path).trans (h'.untracked path)
  ignored path := (h.ignored path).trans (h'.ignored path)
  conflicted path := (h.conflicted path).trans (h'.conflicted path)
  entries path := (h.entries path).trans (h'.entries path)

end Gitseer
