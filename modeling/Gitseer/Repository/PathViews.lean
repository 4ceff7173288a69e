/-
**The sets and the entries of a path section are two views of one status.**

The path section is built twice from the same status records: every record puts its path into
some of five sets, by one group of bit masks, and becomes an entry, whose booleans are decoded by
another.  After that a pass over the index sets the two flags of the first entry with the path of
a flagged index entry, or appends an entry when there is none, and the entries are sorted.  This
module shows that the two views agree whatever the records and the index hold: records may repeat
a path, and the index may hold several stages of one.

The comparison of two path sections keeps only the last entry of a path, while the sets are filled
by all of them.  So a path can leave a set without being listed as changed, and the module says
exactly when no path does.

Main definitions:

* `PathClass` — the five sets, with the list, the boolean and the delta of each;
* `HasEntry` — some entry of a path satisfies a test;
* `PathState.TwoViews` — the sets and the entries agree with each other and with the index;
* `PathState.HiddenAgree` — what the entries that a later one hides have in common.

Main results:

* `pathState_twoViews` — the section the reader builds has two views that agree;
* `set_changes_listed_iff` — every path that enters or leaves a set is listed as changed exactly
  when the hidden entries agree.
-/

import Gitseer.Repository.PathDelta
import Mathlib.Data.List.Induction

set_option relaxedAutoImplicit false
set_option autoImplicit false

open StdPath (PathBuf)

namespace Gitseer

/-! ### The five sets -/

/-- The five sets of paths. -/
inductive PathClass
  | staged
  | unstaged
  | untracked
  | ignored
  | conflicted
  deriving DecidableEq

/-- The list of a path section that holds the set. -/
def PathState.paths (state : PathState) : PathClass → List String
  | .staged => state.staged
  | .unstaged => state.unstaged
  | .untracked => state.untracked
  | .ignored => state.ignored
  | .conflicted => state.conflicted

/-- The comparison of the set. -/
def PathDelta.paths (delta : PathDelta) : PathClass → PathSetDelta
  | .staged => delta.staged
  | .unstaged => delta.unstaged
  | .untracked => delta.untracked
  | .ignored => delta.ignored
  | .conflicted => delta.conflicted

/-- The booleans of an entry that say its path is in the set. -/
def PathEntryStatus.has (status : PathEntryStatus) : PathClass → Bool
  | .staged =>
      status.indexNew || status.indexModified || status.indexDeleted || status.indexRenamed ||
        status.indexTypechange
  | .unstaged =>
      status.workdirModified || status.workdirDeleted || status.workdirTypechange ||
        status.workdirRenamed || status.workdirUnreadable
  | .untracked => status.workdirNew
  | .ignored => status.ignored
  | .conflicted => status.conflicted

/-- One of the two flags of the index is set. -/
def PathEntryStatus.flagged (status : PathEntryStatus) : Bool :=
  status.assumeUnchanged || status.skipWorktree

/-- The bits of a status record that put its path into the set. -/
def Status.has (status : Status) : PathClass → Bool
  | .staged => hasStagedStatus status
  | .unstaged => hasUnstagedStatus status
  | .untracked => status.wtNew
  | .ignored => status.ignored
  | .conflicted => status.conflicted

/-- The two groups of bit masks decode a status word alike. -/
theorem has_pathEntryStatus (status : Status) (c : PathClass) :
    (pathEntryStatus status).has c = status.has c := by
  cases c <;> rfl

theorem paths_pathDelta (previous current : PathState) (c : PathClass) :
    (pathDelta previous current).paths c =
      pathSetDelta (previous.paths c) (current.paths c) := by
  cases c <;> rfl

/-! ### Entries of a path -/

/-- Some entry of the path satisfies the test. -/
def HasEntry (entries : List PathEntry) (path : String) (test : PathEntryStatus → Bool) : Prop :=
  ∃ entry ∈ entries, entry.path = path ∧ test entry.status = true

theorem hasEntry_append {entries entries' : List PathEntry} {path : String}
    {test : PathEntryStatus → Bool} :
    HasEntry (entries ++ entries') path test ↔
      HasEntry entries path test ∨ HasEntry entries' path test := by
  simp only [HasEntry, List.mem_append, or_and_right, exists_or]

theorem hasEntry_cons {entry : PathEntry} {entries : List PathEntry} {path : String}
    {test : PathEntryStatus → Bool} :
    HasEntry (entry :: entries) path test ↔
      entry.path = path ∧ test entry.status = true ∨ HasEntry entries path test := by
  simp [HasEntry]

theorem not_hasEntry_nil {path : String} {test : PathEntryStatus → Bool} :
    ¬ HasEntry [] path test := by
  rintro ⟨entry, hentry, -⟩
  cases hentry

theorem hasEntry_perm {entries entries' : List PathEntry} (h : entries.Perm entries')
    {path : String} {test : PathEntryStatus → Bool} :
    HasEntry entries path test ↔ HasEntry entries' path test := by
  simp only [HasEntry, h.mem_iff]

/-! ### The flags of one index entry -/

/-- One of the two flags is set. -/
def IndexEntry.flagged (entry : IndexEntry) : Bool := entry.assumeUnchanged || entry.skipWorktree

/-- The entry with the flags of an index entry. -/
def PathEntry.withFlags (existing : PathEntry) (entry : IndexEntry) : PathEntry :=
  { existing with status := { existing.status with
      assumeUnchanged := entry.assumeUnchanged, skipWorktree := entry.skipWorktree } }

theorem path_withFlags (existing : PathEntry) (entry : IndexEntry) :
    (existing.withFlags entry).path = existing.path := rfl

theorem has_withFlags (existing : PathEntry) (entry : IndexEntry) (c : PathClass) :
    (existing.withFlags entry).status.has c = existing.status.has c := by
  cases c <;> rfl

theorem flagged_withFlags (existing : PathEntry) (entry : IndexEntry) :
    (existing.withFlags entry).status.flagged = entry.flagged := rfl

/-- The entry of a flagged path that no status record names. -/
def flagEntry (summaries : BTreeMap String RawDiffSummary) (path : String) : PathEntry :=
  ⟨path, none, none, none, none, {}, diffSummary summaries path⟩

theorem updateFirst_eq_none {path : String} {update : PathEntry → PathEntry}
    {entries : List PathEntry} (h : updateFirst path update entries = none) :
    path ∉ entries.map PathEntry.path := by
  induction entries with
  | nil => simp
  | cons entry entries ih =>
      unfold updateFirst at h
      split at h
      · cases h
      · next hne =>
          rw [Option.map_eq_none_iff] at h
          rw [List.map_cons, List.mem_cons, not_or]
          exact ⟨Ne.symm hne, ih h⟩

theorem updateFirst_eq_some {path : String} {update : PathEntry → PathEntry}
    {entries entries' : List PathEntry} (h : updateFirst path update entries = some entries') :
    ∃ before existing after, entries = before ++ existing :: after ∧
      existing.path = path ∧ entries' = before ++ update existing :: after := by
  induction entries generalizing entries' with
  | nil => cases h
  | cons entry entries ih =>
      unfold updateFirst at h
      split at h
      · next heq =>
          refine ⟨[], entry, entries, rfl, heq, ?_⟩
          simpa using h.symm
      · obtain ⟨tail, htail, rfl⟩ := Option.map_eq_some_iff.1 h
        obtain ⟨before, existing, after, rfl, hpath, rfl⟩ := ih htail
        exact ⟨entry :: before, existing, after, rfl, hpath, rfl⟩

/-- What one index entry does to the entries: nothing when it is not flagged, else it sets the
flags of an entry that is there, or appends one. -/
theorem includeIndexEntryFlags_cases (summaries : BTreeMap String RawDiffSummary)
    (entries : List PathEntry) (entry : IndexEntry) :
    (entry.flagged = false ∧ includeIndexEntryFlags summaries entries entry = entries) ∨
    (entry.flagged = true ∧ ∃ before existing after, entries = before ++ existing :: after ∧
      existing.path = indexPath entry.path ∧
      includeIndexEntryFlags summaries entries entry =
        before ++ existing.withFlags entry :: after) ∨
    (entry.flagged = true ∧ indexPath entry.path ∉ entries.map PathEntry.path ∧
      includeIndexEntryFlags summaries entries entry =
        entries ++ [(flagEntry summaries (indexPath entry.path)).withFlags entry]) := by
  have hguard : (!entry.assumeUnchanged && !entry.skipWorktree) = !entry.flagged := by
    simp [IndexEntry.flagged]
  unfold includeIndexEntryFlags
  rw [hguard]
  cases hflagged : entry.flagged with
  | false => exact .inl ⟨rfl, rfl⟩
  | true =>
      refine .inr ?_
      simp only [Bool.not_true, Bool.false_eq_true, if_false]
      split
      · next entries' h =>
          obtain ⟨before, existing, after, hentries, hpath, rfl⟩ := updateFirst_eq_some h
          exact .inl ⟨trivial, before, existing, after, hentries, hpath, rfl⟩
      · next h => exact .inr ⟨trivial, updateFirst_eq_none h, rfl⟩

/-- The pass over the index changes no boolean that comes from the status records. -/
theorem hasEntry_includeIndexEntryFlags (summaries : BTreeMap String RawDiffSummary)
    (entries : List PathEntry) (entry : IndexEntry) (path : String) (c : PathClass) :
    HasEntry (includeIndexEntryFlags summaries entries entry) path (·.has c) ↔
      HasEntry entries path (·.has c) := by
  rcases includeIndexEntryFlags_cases summaries entries entry with
    ⟨-, h⟩ | ⟨-, before, existing, after, rfl, -, h⟩ | ⟨-, -, h⟩
  · rw [h]
  · rw [h, hasEntry_append, hasEntry_append, hasEntry_cons, hasEntry_cons, path_withFlags,
      has_withFlags]
  · have hnew : ((flagEntry summaries (indexPath entry.path)).withFlags entry).status.has c =
        false := by
      rw [has_withFlags]
      cases c <;> rfl
    rw [h, hasEntry_append, hasEntry_cons, hnew]
    simp [not_hasEntry_nil]

/-- A path is flagged after the step when it was before, or when the index entry flags it. -/
theorem flagged_includeIndexEntryFlags (summaries : BTreeMap String RawDiffSummary)
    (entries : List PathEntry) (entry : IndexEntry) (path : String) :
    HasEntry (includeIndexEntryFlags summaries entries entry) path PathEntryStatus.flagged ↔
      HasEntry entries path PathEntryStatus.flagged ∨
        indexPath entry.path = path ∧ entry.flagged = true := by
  rcases includeIndexEntryFlags_cases summaries entries entry with
    ⟨hf, h⟩ | ⟨hf, before, existing, after, rfl, hpath, h⟩ | ⟨hf, -, h⟩
  · rw [h, hf]
    simp
  · rw [h, hasEntry_append, hasEntry_append, hasEntry_cons, hasEntry_cons, path_withFlags,
      flagged_withFlags, hf, hpath]
    tauto
  · rw [h, hasEntry_append, hasEntry_cons, flagged_withFlags, hf, path_withFlags]
    simp [not_hasEntry_nil, flagEntry]

/-- The paths of the entries after the step: one more when a flagged path has no entry. -/
theorem paths_includeIndexEntryFlags (summaries : BTreeMap String RawDiffSummary)
    (entries : List PathEntry) (entry : IndexEntry) :
    (includeIndexEntryFlags summaries entries entry).map PathEntry.path =
      entries.map PathEntry.path ++
        if entry.flagged = true ∧ indexPath entry.path ∉ entries.map PathEntry.path
        then [indexPath entry.path] else [] := by
  rcases includeIndexEntryFlags_cases summaries entries entry with
    ⟨hf, h⟩ | ⟨-, before, existing, after, rfl, hpath, h⟩ | ⟨hf, hnew, h⟩
  · simp [h, hf]
  · rw [h, if_neg (by simp [hpath])]
    simp [path_withFlags]
  · rw [h, if_pos ⟨hf, hnew⟩]
    simp [path_withFlags, flagEntry]

/-! ### The pass over the index -/

/-- The entries after the whole pass: the booleans of the status records as before, a path flagged
when it was or when an index entry flags it, and one more entry for each flagged path without. -/
structure FlagsIncluded (index : List IndexEntry) (entries entries' : List PathEntry) : Prop where
  has : ∀ path c, HasEntry entries' path (·.has c) ↔ HasEntry entries path (·.has c)
  flagged : ∀ path, HasEntry entries' path PathEntryStatus.flagged ↔
    HasEntry entries path PathEntryStatus.flagged ∨
      ∃ entry ∈ index, indexPath entry.path = path ∧ entry.flagged = true
  paths : ∃ extra : List String, extra.Nodup ∧
    (∀ path, path ∈ extra ↔ path ∉ entries.map PathEntry.path ∧
      ∃ entry ∈ index, indexPath entry.path = path ∧ entry.flagged = true) ∧
    entries'.map PathEntry.path = entries.map PathEntry.path ++ extra

theorem flagsIncluded_foldl (summaries : BTreeMap String RawDiffSummary)
    (index : List IndexEntry) (entries : List PathEntry) :
    FlagsIncluded index entries (index.foldl (includeIndexEntryFlags summaries) entries) := by
  induction index using List.reverseRecOn with
  | nil => exact ⟨fun _ _ => Iff.rfl, fun _ => by simp, [], List.nodup_nil, by simp, by simp⟩
  | append_singleton index entry ih =>
      obtain ⟨hhas, hflagged, extra, hnodup, hextra, hpaths⟩ := ih
      rw [List.foldl_append, List.foldl_cons, List.foldl_nil]
      refine ⟨fun path c => ?_, fun path => ?_, ?_⟩
      · rw [hasEntry_includeIndexEntryFlags, hhas]
      · rw [flagged_includeIndexEntryFlags, hflagged]
        simp only [List.mem_append, List.mem_singleton, or_and_right, exists_or, exists_eq_left,
          or_assoc]
      · rw [paths_includeIndexEntryFlags, hpaths]
        split
        · next hnew =>
            obtain ⟨hf, hnot⟩ := hnew
            rw [List.mem_append, not_or] at hnot
            refine ⟨extra ++ [indexPath entry.path], ?_, ?_, by rw [List.append_assoc]⟩
            · rw [List.nodup_append_comm, List.singleton_append, List.nodup_cons]
              exact ⟨hnot.2, hnodup⟩
            · intro path
              simp only [List.mem_append, List.mem_singleton, or_and_right, exists_or,
                exists_eq_left, hextra, hf, and_true]
              constructor
              · rintro (⟨hp, h⟩ | rfl)
                · exact ⟨hp, .inl h⟩
                · exact ⟨hnot.1, .inr rfl⟩
              · rintro ⟨hp, h | h⟩
                · exact .inl ⟨hp, h⟩
                · exact .inr h.symm
        · next hold =>
            refine ⟨extra, hnodup, ?_, by simp⟩
            intro path
            simp only [List.mem_append, List.mem_singleton, or_and_right, exists_or,
              exists_eq_left, hextra]
            constructor
            · rintro ⟨hp, h⟩
              exact ⟨hp, .inl h⟩
            · rintro ⟨hp, h | ⟨rfl, hf⟩⟩
              · exact ⟨hp, h⟩
              · -- the flagged path has an entry, and it is not one of a status record
                by_contra hnone
                refine hold ⟨hf, ?_⟩
                rw [List.mem_append, not_or]
                exact ⟨hp, fun hmem => hnone ((hextra _).1 hmem)⟩

/-! ### The two views -/

/-- The section holds what the status records and the index say, in two views that agree. -/
structure PathState.TwoViews (statuses : List StatusEntry) (index : Index)
    (state : PathState) : Prop where
  paths_ascending : ∀ c, (state.paths c).Pairwise (· < ·)
  entries_ascending : state.entries.Pairwise fun a b => a.path ≤ b.path
  /-- A path is in a set exactly when one of its entries has a boolean of the set. -/
  paths : ∀ path c, path ∈ state.paths c ↔ HasEntry state.entries path (·.has c)
  /-- One of the entries of a path is flagged exactly when one of its index entries is. -/
  flagged : ∀ path, HasEntry state.entries path PathEntryStatus.flagged ↔
    ∃ entry ∈ index.entries, indexPath entry.path = path ∧ entry.flagged = true
  /-- There is one entry per record with a path, and one per flagged path no record names. -/
  entries : ∃ extra : List String, extra.Nodup ∧
    (∀ path, path ∈ extra ↔ path ∉ (namedStatuses statuses).map Prod.fst ∧
      ∃ entry ∈ index.entries, indexPath entry.path = path ∧ entry.flagged = true) ∧
    (state.entries.map PathEntry.path).Perm ((namedStatuses statuses).map Prod.fst ++ extra)

/-- What the reader of a repository with a worktree reads, and what it builds. -/
theorem pathState_eq_ok {repo : Repository} {options : SnapshotOptions} {state : PathState}
    (hbare : repo.isBare = false) (h : pathState repo options = .ok state) :
    ∃ statuses index summaries,
      repo.statuses options.includeIgnored = .ok statuses ∧ repo.index = .ok index ∧
      (∀ c, state.paths c = pathsWith (namedStatuses statuses) (·.has c)) ∧
      state.entries = List.insertionSort (fun a b => a.path ≤ b.path)
        (index.entries.foldl (includeIndexEntryFlags summaries)
          ((namedStatuses statuses).map (pathEntry summaries))) := by
  simp only [pathState, hbare, Bool.false_eq_true, if_false, includeIndexFlagEntries,
    Result.bind_eq_ok, liftGit_eq_ok, Except.ok.injEq] at h
  obtain ⟨statuses, hstatuses, conflicts, -, summaries, -, entries, ⟨index, hindex, rfl⟩, rfl⟩ := h
  refine ⟨statuses, index, summaries, hstatuses, hindex, fun c => ?_, rfl⟩
  cases c <;> rfl

theorem mem_pathsWith {named : List (String × StatusEntry)} {test : Status → Bool}
    {path : String} :
    path ∈ pathsWith named test ↔ ∃ p ∈ named, p.1 = path ∧ test p.2.status = true := by
  rw [pathsWith, ← BTreeSet.mem_iff, BTreeSet.mem_ofList, List.mem_map]
  simp only [List.mem_filter, and_assoc]
  refine exists_congr fun p => ?_
  tauto

/-- The entries of the records have the booleans of the sets, before the index is read. -/
theorem hasEntry_map_pathEntry (summaries : BTreeMap String RawDiffSummary)
    (named : List (String × StatusEntry)) (path : String) (c : PathClass) :
    HasEntry (named.map (pathEntry summaries)) path (·.has c) ↔
      path ∈ pathsWith named (·.has c) := by
  rw [mem_pathsWith]
  simp only [HasEntry, List.mem_map, exists_exists_and_eq_and, pathEntry, has_pathEntryStatus]

theorem not_flagged_map_pathEntry (summaries : BTreeMap String RawDiffSummary)
    (named : List (String × StatusEntry)) (path : String) :
    ¬ HasEntry (named.map (pathEntry summaries)) path PathEntryStatus.flagged := by
  rintro ⟨entry, hentry, -, hflagged⟩
  obtain ⟨p, -, rfl⟩ := List.mem_map.1 hentry
  cases hflagged

/-- The section the reader builds has two views that agree. -/
theorem pathState_twoViews {repo : Repository} {options : SnapshotOptions}
    {statuses : List StatusEntry} {index : Index} {state : PathState}
    (hbare : repo.isBare = false) (hstatuses : repo.statuses options.includeIgnored = .ok statuses)
    (hindex : repo.index = .ok index) (h : pathState repo options = .ok state) :
    state.TwoViews statuses index := by
  obtain ⟨statuses', index', summaries, hstatuses', hindex', hpaths, hentries⟩ :=
    pathState_eq_ok hbare h
  obtain rfl : statuses = statuses' := Except.ok.inj (hstatuses.symm.trans hstatuses')
  obtain rfl : index = index' := Except.ok.inj (hindex.symm.trans hindex')
  obtain ⟨hhas, hflagged, hextra⟩ := flagsIncluded_foldl summaries index.entries
    ((namedStatuses statuses).map (pathEntry summaries))
  have hsort := List.perm_insertionSort (fun a b : PathEntry => a.path ≤ b.path)
    (index.entries.foldl (includeIndexEntryFlags summaries)
      ((namedStatuses statuses).map (pathEntry summaries)))
  rw [← hentries] at hsort
  have hnames : ((namedStatuses statuses).map (pathEntry summaries)).map PathEntry.path =
      (namedStatuses statuses).map Prod.fst := by
    rw [List.map_map]
    rfl
  rw [hnames] at hextra
  refine ⟨fun c => ?_, ?_, fun path c => ?_, fun path => ?_, ?_⟩
  · rw [hpaths]
    exact BTreeSet.ascending _
  · rw [hentries]
    exact List.pairwise_insertionSort _ _
  · rw [hpaths, ← hasEntry_map_pathEntry summaries, ← hhas, hasEntry_perm hsort]
  · rw [hasEntry_perm hsort, hflagged]
    simp only [not_flagged_map_pathEntry, false_or]
  · obtain ⟨extra, hnodup, hmem, hpathsEq⟩ := hextra
    refine ⟨extra, hnodup, hmem, ?_⟩
    rw [← hpathsEq]
    exact hsort.map _

/-- A repository with the given status records and index entries. -/
def recordsRepository (records : List StatusEntry) (index : List IndexEntry) : Repository where
  workdir := some (PathBuf.ofString "/repo")
  path := PathBuf.ofString "/repo/.git"
  commondir := PathBuf.ofString "/repo/.git"
  statuses := fun _ => .ok records
  index := .ok ⟨index, .ok []⟩

/-- The record of a staged rename, under its old path. -/
def renamedRecord : StatusEntry where
  status := { indexRenamed := true }
  path := some "old"
  headToIndex := some ⟨some (PathBuf.ofString "old"), some (PathBuf.ofString "new")⟩
  indexToWorkdir := none

/-- The record of an untracked file that was created again under that path. -/
def recreatedRecord : StatusEntry where
  status := { wtNew := true }
  path := some "old"
  headToIndex := none
  indexToWorkdir := some ⟨some (PathBuf.ofString "old"), some (PathBuf.ofString "old")⟩

/-- An index entry that is marked as unchanged. -/
def assumedEntry (path : String) : IndexEntry := ⟨StdPath.bytesOf path, ⟨"0"⟩, 33188, 2 ^ 15, 0⟩

/-- The two records of one path and a flagged path without a record. -/
theorem pathState_twoViews_renamed : ∃ state : PathState,
    pathState (recordsRepository [renamedRecord, recreatedRecord] [assumedEntry "kept"]) {} =
      .ok state ∧
    state.TwoViews [renamedRecord, recreatedRecord] ⟨[assumedEntry "kept"], .ok []⟩ :=
  ⟨_, rfl, @pathState_twoViews (recordsRepository [renamedRecord, recreatedRecord]
    [assumedEntry "kept"]) {} _ _ _ rfl rfl rfl rfl⟩

/-! ### Hidden entries -/

/-- The entries of a path that a later one of the same path hides. -/
def hiddenEntries (entries : List PathEntry) (path : String) : List PathEntry :=
  (entries.filter fun entry => decide (entry.path = path)).dropLast

theorem lastEntry_eq_getLast? (entries : List PathEntry) (path : String) :
    lastEntry entries path =
      (entries.filter fun entry => decide (entry.path = path)).getLast? := by
  rw [lastEntry, ← List.head?_filter, List.filter_reverse, List.head?_reverse]

/-- An entry of a path is the last one or a hidden one. -/
theorem hasEntry_iff {entries : List PathEntry} {path : String} {test : PathEntryStatus → Bool} :
    HasEntry entries path test ↔
      (∃ entry, lastEntry entries path = some entry ∧ test entry.status = true) ∨
        ∃ entry ∈ hiddenEntries entries path, test entry.status = true := by
  have hfilter : HasEntry entries path test ↔
      ∃ entry ∈ entries.filter (fun entry => decide (entry.path = path)),
        test entry.status = true := by
    simp only [HasEntry, List.mem_filter, decide_eq_true_eq, and_assoc]
  rw [hfilter, lastEntry_eq_getLast?, hiddenEntries]
  rcases List.eq_nil_or_concat
    (entries.filter fun entry => decide (entry.path = path)) with h | ⟨hidden, last, h⟩
  · simp [h]
  · simp [h, or_and_right, exists_or, or_comm]

/-- A section that some repository has. -/
def PathState.Read (state : PathState) : Prop :=
  ∃ repo options, pathState repo options = .ok state

theorem PathState.Read.paths {state : PathState} (h : state.Read) (path : String)
    (c : PathClass) : path ∈ state.paths c ↔ HasEntry state.entries path (·.has c) := by
  obtain ⟨repo, options, h⟩ := h
  cases hbare : repo.isBare with
  | true =>
      rw [pathState, hbare, if_pos rfl] at h
      cases h
      cases c <;> simp [PathState.paths, HasEntry]
  | false =>
      obtain ⟨statuses, index, summaries, hstatuses, hindex, hpaths, hentries⟩ :=
        pathState_eq_ok hbare h
      obtain ⟨hhas, -, -⟩ := flagsIncluded_foldl summaries index.entries
        ((namedStatuses statuses).map (pathEntry summaries))
      rw [hpaths, ← hasEntry_map_pathEntry summaries, ← hhas, hentries]
      exact (hasEntry_perm (List.perm_insertionSort _ _)).symm

/-- For every path whose last entry is the same in both sections and every set: the last entry has
a boolean of the set, or a hidden entry of one section has exactly when one of the other does. -/
def PathState.HiddenAgree (previous current : PathState) : Prop :=
  ∀ path, lastEntry previous.entries path = lastEntry current.entries path → ∀ c : PathClass,
    (∃ entry, lastEntry previous.entries path = some entry ∧ entry.status.has c = true) ∨
    ((∃ entry ∈ hiddenEntries previous.entries path, entry.status.has c = true) ↔
      ∃ entry ∈ hiddenEntries current.entries path, entry.status.has c = true)

/-- Without repeated paths nothing is hidden. -/
theorem hiddenAgree_of_nodup {previous current : PathState}
    (hp : (previous.entries.map PathEntry.path).Nodup)
    (hc : (current.entries.map PathEntry.path).Nodup) : previous.HiddenAgree current := by
  have hnone : ∀ entries : List PathEntry, (entries.map PathEntry.path).Nodup →
      ∀ path, hiddenEntries entries path = [] := by
    intro entries hnodup path
    have hle : (entries.filter fun entry => decide (entry.path = path)).length ≤ 1 := by
      have hcount := List.nodup_iff_count_le_one.1 hnodup path
      rw [List.count_eq_countP, List.countP_map, List.countP_eq_length_filter] at hcount
      exact hcount
    exact List.eq_nil_of_length_eq_zero (by rw [hiddenEntries, List.length_dropLast]; omega)
  intro path _ c
  rw [hnone _ hp path, hnone _ hc path]
  exact .inr Iff.rfl

/-- Every path that enters or leaves a set is listed as changed exactly when the hidden entries
agree. -/
theorem set_changes_listed_iff {previous current : PathState} (hp : previous.Read)
    (hc : current.Read) :
    (∀ path (c : PathClass), path ∈ ((pathDelta previous current).paths c).added ∨
        path ∈ ((pathDelta previous current).paths c).removed →
      path ∈ (pathDelta previous current).entriesChanged) ↔
    previous.HiddenAgree current := by
  have hlisted : ∀ path, path ∈ (pathDelta previous current).entriesChanged ↔
      lastEntry previous.entries path ≠ lastEntry current.entries path :=
    fun _ => mem_entriesChanged
  have hmoved : ∀ path (c : PathClass),
      (path ∈ ((pathDelta previous current).paths c).added ∨
        path ∈ ((pathDelta previous current).paths c).removed) ↔
      ¬ (path ∈ previous.paths c ↔ path ∈ current.paths c) := by
    intro path c
    rw [paths_pathDelta, mem_pathSetDelta_added, mem_pathSetDelta_removed]
    tauto
  constructor
  · intro h path hlast c
    have hsame : path ∈ previous.paths c ↔ path ∈ current.paths c := by
      by_contra hne
      exact (hlisted path).1 (h path c ((hmoved path c).2 hne)) hlast
    rw [hp.paths, hc.paths, hasEntry_iff, hasEntry_iff, ← hlast] at hsame
    by_cases hvisible : ∃ entry, lastEntry previous.entries path = some entry ∧
        entry.status.has c = true
    · exact .inl hvisible
    · rw [or_iff_right hvisible, or_iff_right hvisible] at hsame
      exact .inr hsame
  · intro h path c hmove
    rw [hlisted]
    intro hlast
    refine (hmoved path c).1 hmove ?_
    rw [hp.paths, hc.paths, hasEntry_iff, hasEntry_iff, ← hlast]
    rcases h path hlast c with hvisible | hhidden
    · exact iff_of_true (.inl hvisible) (.inl hvisible)
    · exact or_congr_right hhidden

/-- A staged rename and the file of its old path created again, in two sections: the path leaves
one set, enters another and is listed. -/
theorem set_changes_listed_recreated : ∃ previous current : PathState,
    previous.Read ∧ current.Read ∧ "old" ∈ ((pathDelta previous current).paths .staged).removed ∧
    (∀ path (c : PathClass), path ∈ ((pathDelta previous current).paths c).added ∨
        path ∈ ((pathDelta previous current).paths c).removed →
      path ∈ (pathDelta previous current).entriesChanged) :=
  have hp : PathState.Read _ := ⟨recordsRepository [renamedRecord] [], {}, rfl⟩
  have hc : PathState.Read _ := ⟨recordsRepository [recreatedRecord] [], {}, rfl⟩
  ⟨_, _, hp, hc, by decide +kernel,
    (set_changes_listed_iff hp hc).2 (hiddenAgree_of_nodup (by decide) (by decide))⟩

/-- The staged rename is committed while the file of the old path stays: the path leaves the staged
set, and its last entry is the one it was. -/
theorem renamed_path_unlisted : ∃ previous current : PathState,
    previous.Read ∧ current.Read ∧
    "old" ∈ ((pathDelta previous current).paths .staged).removed ∧
    "old" ∉ (pathDelta previous current).entriesChanged :=
  ⟨_, _, ⟨recordsRepository [renamedRecord, recreatedRecord] [], {}, rfl⟩,
    ⟨recordsRepository [recreatedRecord] [], {}, rfl⟩, by decide +kernel, by decide +kernel⟩

end Gitseer
