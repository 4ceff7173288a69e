/-
**The line counts of a path are conserved.**

The counts of a path come from the line callbacks of two diffs, which deliver the lines of all
paths in any order.  A callback adds the number of newline characters of its line to the count of
additions or deletions of its path, and at the end the smaller of the two counts becomes the number
of changed lines.  Each callback is about one changed line, so this counts lines as long as every
line ends with a newline; the last line of a file may not, and then it is not counted.

Main definitions:

* `DiffLine.key` — the path a line is counted under;
* `linesOf`, `newlinesOf` — the lines of one kind that are delivered for a path, and the newlines
  they have;
* `PathDiffSummary.Conserves` — a summary accounts for every line.

Main results:

* `rawSummary_accumulateDiffLines` — what a whole stream adds to the counts of one path;
* `diffSummaries_conserve_iff` — the summary of a path accounts for every line exactly when each
  of the path's changed lines ends with a newline.
-/

import Gitseer.Repository.Paths
import Mathlib.Algebra.Order.Ring.Nat

set_option relaxedAutoImplicit false
set_option autoImplicit false

open StdPath (PathBuf)

namespace Gitseer

/-! ### The lines of a path -/

/-- The path a line is counted under. -/
def DiffLine.key (line : DiffLine) : Option String :=
  (line.delta.newFile.or line.delta.oldFile).map pathToString

/-- The lines of one kind that are delivered for a path. -/
def linesOf (path : String) (origin : DiffLineType) (lines : List DiffLine) : List DiffLine :=
  lines.filter fun line => decide (line.key = some path ∧ line.origin = origin)

/-- The newlines of these lines. -/
def newlinesOf (path : String) (origin : DiffLineType) (lines : List DiffLine) : ℕ :=
  ((linesOf path origin lines).map DiffLine.numLines).sum

theorem linesOf_cons (path : String) (origin : DiffLineType) (line : DiffLine)
    (lines : List DiffLine) :
    linesOf path origin (line :: lines) =
      if line.key = some path ∧ line.origin = origin then line :: linesOf path origin lines
      else linesOf path origin lines := by
  by_cases h : line.key = some path ∧ line.origin = origin
  · rw [if_pos h, linesOf, List.filter_cons_of_pos (by simpa using h)]
    rfl
  · rw [if_neg h, linesOf, List.filter_cons_of_neg (by simpa using h)]
    rfl

theorem newlinesOf_cons (path : String) (origin : DiffLineType) (line : DiffLine)
    (lines : List DiffLine) :
    newlinesOf path origin (line :: lines) =
      (if line.key = some path ∧ line.origin = origin then line.numLines else 0) +
        newlinesOf path origin lines := by
  rw [newlinesOf, linesOf_cons]
  split
  · rw [List.map_cons, List.sum_cons]
    rfl
  · rw [Nat.zero_add]
    rfl

theorem linesOf_append (path : String) (origin : DiffLineType) (lines lines' : List DiffLine) :
    linesOf path origin (lines ++ lines') =
      linesOf path origin lines ++ linesOf path origin lines' := by
  rw [linesOf, List.filter_append]
  rfl

theorem newlinesOf_append (path : String) (origin : DiffLineType)
    (lines lines' : List DiffLine) :
    newlinesOf path origin (lines ++ lines') =
      newlinesOf path origin lines + newlinesOf path origin lines' := by
  rw [newlinesOf, linesOf_append, List.map_append, List.sum_append]
  rfl

/-! ### The accumulator -/

/-- The counts of a path so far. -/
def rawSummary (summaries : BTreeMap String RawDiffSummary) (path : String) : RawDiffSummary :=
  (summaries.get path).getD {}

/-- What one line adds to the counts of a path. -/
theorem rawSummary_accumulateDiffLine (summaries : BTreeMap String RawDiffSummary)
    (line : DiffLine) (path : String) :
    rawSummary (accumulateDiffLine summaries line) path =
      ⟨(rawSummary summaries path).added +
          (if line.key = some path ∧ line.origin = .addition then line.numLines else 0),
        (rawSummary summaries path).removed +
          (if line.key = some path ∧ line.origin = .deletion then line.numLines else 0)⟩ := by
  have hkey : line.key = (line.delta.newFile.or line.delta.oldFile).map pathToString := rfl
  unfold accumulateDiffLine
  split
  · next hfile =>
      rw [hfile] at hkey
      simp [hkey]
  · next file hfile =>
      rw [hfile, Option.map_some] at hkey
      rw [rawSummary, BTreeMap.get_insert]
      by_cases hpath : path = pathToString file
      · -- the line is counted under this path, by its origin
        rw [if_pos hpath, hkey, ← hpath]
        cases line.origin <;> simp [rawSummary]
      · rw [if_neg hpath, hkey]
        simp [Ne.symm hpath, rawSummary]

/-- What a whole stream adds to the counts of one path. -/
theorem rawSummary_accumulateDiffLines (lines : List DiffLine)
    (summaries : BTreeMap String RawDiffSummary) (path : String) :
    rawSummary (accumulateDiffLines lines summaries) path =
      ⟨(rawSummary summaries path).added + newlinesOf path .addition lines,
        (rawSummary summaries path).removed + newlinesOf path .deletion lines⟩ := by
  induction lines generalizing summaries with
  | nil => rfl
  | cons line lines ih =>
      have hcons : accumulateDiffLines (line :: lines) summaries =
          accumulateDiffLines lines (accumulateDiffLine summaries line) := rfl
      rw [hcons, ih, rawSummary_accumulateDiffLine, newlinesOf_cons, newlinesOf_cons,
        Nat.add_assoc, Nat.add_assoc]

/-- The summary of a path comes from its counts, which are zero when no line mentions it. -/
theorem diffSummary_eq (summaries : BTreeMap String RawDiffSummary) (path : String) :
    diffSummary summaries path = summarizeRawDiff (rawSummary summaries path) := by
  rw [diffSummary, rawSummary]
  cases summaries.get path <;> rfl

/-! ### Conservation -/

/-- The summary accounts for the given numbers of added and deleted lines. -/
structure PathDiffSummary.Conserves (summary : PathDiffSummary) (additions deletions : ℕ) :
    Prop where
  additions : summary.added + summary.changed = additions
  deletions : summary.removed + summary.changed = deletions
  one_sided : summary.added = 0 ∨ summary.removed = 0

/-- A summary accounts for its two counts, and for no others. -/
theorem summarizeRawDiff_conserves_iff {raw : RawDiffSummary} {additions deletions : ℕ} :
    (summarizeRawDiff raw).Conserves additions deletions ↔
      raw.added = additions ∧ raw.removed = deletions := by
  constructor
  · rintro ⟨hadd, hdel, -⟩
    simp only [summarizeRawDiff] at hadd hdel
    omega
  · rintro ⟨rfl, rfl⟩
    refine ⟨?_, ?_, ?_⟩ <;> simp only [summarizeRawDiff] <;> omega

theorem sum_numLines_le {lines : List DiffLine} (h : ∀ line ∈ lines, line.numLines ≤ 1) :
    (lines.map DiffLine.numLines).sum ≤ lines.length := by
  induction lines with
  | nil => simp
  | cons line lines ih =>
      have hline := h line List.mem_cons_self
      have hrest := ih fun l hl => h l (List.mem_cons_of_mem _ hl)
      rw [List.map_cons, List.sum_cons, List.length_cons]
      omega

/-- Lines with at most one newline each have as many newlines as there are lines exactly when each
has one. -/
theorem sum_numLines_eq_length_iff {lines : List DiffLine} (h : ∀ line ∈ lines, line.numLines ≤ 1) :
    (lines.map DiffLine.numLines).sum = lines.length ↔ ∀ line ∈ lines, line.numLines = 1 := by
  induction lines with
  | nil => simp
  | cons line lines ih =>
      have hline := h line List.mem_cons_self
      have hrest : ∀ l ∈ lines, l.numLines ≤ 1 := fun l hl => h l (List.mem_cons_of_mem _ hl)
      have hbound := sum_numLines_le hrest
      rw [List.map_cons, List.sum_cons, List.length_cons, List.forall_mem_cons, ← ih hrest]
      omega

/-- The summary of a path accounts for every line exactly when each of the path's changed lines ends
with a newline.  A line callback is about one line, so its text has at most one newline. -/
theorem diffSummaries_conserve_iff {repo : Repository} {stagedDiff workdirDiff : List DiffLine}
    {summaries : BTreeMap String RawDiffSummary}
    (hstaged : repo.diffTreeToIndex (headTree repo) = .ok stagedDiff)
    (hworkdir : repo.diffIndexToWorkdir = .ok workdirDiff)
    (hlines : ∀ line ∈ stagedDiff ++ workdirDiff, line.numLines ≤ 1)
    (h : diffSummaries repo = .ok summaries) (path : String) :
    (diffSummary summaries path).Conserves
        (linesOf path .addition (stagedDiff ++ workdirDiff)).length
        (linesOf path .deletion (stagedDiff ++ workdirDiff)).length ↔
      ∀ line ∈ stagedDiff ++ workdirDiff, line.key = some path →
        line.origin = .addition ∨ line.origin = .deletion → line.numLines = 1 := by
  have hraw : rawSummary summaries path =
      ⟨newlinesOf path .addition (stagedDiff ++ workdirDiff),
        newlinesOf path .deletion (stagedDiff ++ workdirDiff)⟩ := by
    simp only [diffSummaries, hstaged, hworkdir, Result.bind_eq_ok, liftGit_eq_ok,
      Except.ok.injEq] at h
    obtain ⟨index, -, _, rfl, _, rfl, rfl⟩ := h
    rw [rawSummary_accumulateDiffLines, rawSummary_accumulateDiffLines, newlinesOf_append,
      newlinesOf_append]
    simp [rawSummary, BTreeMap.get, BTreeMap.empty]
  have hkind : ∀ origin, newlinesOf path origin (stagedDiff ++ workdirDiff) =
      (linesOf path origin (stagedDiff ++ workdirDiff)).length ↔
      ∀ line ∈ linesOf path origin (stagedDiff ++ workdirDiff), line.numLines = 1 := by
    intro origin
    refine sum_numLines_eq_length_iff fun line hline => hlines line ?_
    exact (List.mem_filter.1 hline).1
  rw [diffSummary_eq, hraw, summarizeRawDiff_conserves_iff, hkind, hkind]
  simp only [linesOf, List.mem_filter, decide_eq_true_eq]
  constructor
  · rintro ⟨hadd, hdel⟩ line hline hkey (horigin | horigin)
    · exact hadd line ⟨hline, hkey, horigin⟩
    · exact hdel line ⟨hline, hkey, horigin⟩
  · intro hone
    constructor
    · rintro line ⟨hline, hkey, horigin⟩
      exact hone line hline hkey (.inl horigin)
    · rintro line ⟨hline, hkey, horigin⟩
      exact hone line hline hkey (.inr horigin)

/-- A repository whose two diffs deliver the given lines. -/
def diffRepository (staged workdir : List DiffLine) : Repository where
  workdir := some (PathBuf.ofString "/repo")
  path := PathBuf.ofString "/repo/.git"
  commondir := PathBuf.ofString "/repo/.git"
  diffTreeToIndex := fun _ => .ok staged
  diffIndexToWorkdir := .ok workdir

/-- A line of `notes`. -/
def notesLine (origin : DiffLineType) (numLines : ℕ) : DiffLine :=
  ⟨⟨some (PathBuf.ofString "notes"), some (PathBuf.ofString "notes")⟩, origin, numLines⟩

/-- Two added lines and a deleted one, all ended by a newline. -/
theorem diffSummaries_conserve_notes : ∃ summaries,
    diffSummaries (diffRepository [notesLine .addition 1, notesLine .context 1]
      [notesLine .deletion 1, notesLine .addition 1]) = .ok summaries ∧
    (diffSummary summaries "notes").Conserves 2 1 :=
  ⟨_, rfl, (@diffSummaries_conserve_iff (diffRepository
    [notesLine .addition 1, notesLine .context 1] [notesLine .deletion 1, notesLine .addition 1])
    _ _ _ rfl rfl (by decide) rfl "notes").2 (by decide)⟩

/-- A line is appended to a file without a newline at its end: the line is not counted. -/
theorem unended_line_uncounted : ∃ summaries,
    diffSummaries (diffRepository [] [notesLine .addition 0]) = .ok summaries ∧
    (linesOf "notes" .addition [notesLine .addition 0]).length = 1 ∧
    (diffSummary summaries "notes").added + (diffSummary summaries "notes").changed = 0 :=
  ⟨_, rfl, by decide, by decide⟩

end Gitseer
