/-
**What a path delta says, exactly.**

A path delta holds five comparisons of lists of paths as sets, and the paths whose entries
differ.  The lists may be out of order and repeat a path: each comparison lists what was added and
what was removed in strictly ascending order, and taking away the removed paths and adding the
added ones leads from the older set to the newer.  Of several entries with one path the comparison
of the entries looks at the last.

Main definitions:

* `PathSetDelta.Exact` — the delta says exactly how two lists differ as sets;
* `PathSetDelta.swap`, `PathDelta.swap` — the delta in the other direction.

Main results:

* `pathSetDelta_exact` — the comparison of two lists is exact;
* `entriesChanged_comm` — which entries differ does not depend on the direction;
* `pathDelta_exact` — the whole of a path delta, for any two path sections.
-/

import Gitseer.Repository.Paths

set_option relaxedAutoImplicit false
set_option autoImplicit false

namespace Gitseer

/-! ### Lists of paths as sets -/

/-- The delta says exactly how two lists differ as sets. -/
structure PathSetDelta.Exact (previous current : List String) (delta : PathSetDelta) : Prop where
  added_ascending : delta.added.Pairwise (· < ·)
  removed_ascending : delta.removed.Pairwise (· < ·)
  disjoint : ∀ path ∈ delta.added, path ∉ delta.removed
  added : ∀ path, path ∈ delta.added ↔ path ∈ current ∧ path ∉ previous
  removed : ∀ path, path ∈ delta.removed ↔ path ∈ previous ∧ path ∉ current
  patched : ∀ path, path ∈ previous ∧ path ∉ delta.removed ∨ path ∈ delta.added ↔ path ∈ current

theorem mem_pathSetDelta_added {previous current : List String} {path : String} :
    path ∈ (pathSetDelta previous current).added ↔ path ∈ current ∧ path ∉ previous := by
  simp [pathSetDelta, ← BTreeSet.mem_iff]

theorem mem_pathSetDelta_removed {previous current : List String} {path : String} :
    path ∈ (pathSetDelta previous current).removed ↔ path ∈ previous ∧ path ∉ current := by
  simp [pathSetDelta, ← BTreeSet.mem_iff]

/-- The comparison of two lists is exact. -/
theorem pathSetDelta_exact (previous current : List String) :
    (pathSetDelta previous current).Exact previous current where
  added_ascending := BTreeSet.ascending _
  removed_ascending := BTreeSet.ascending _
  disjoint path hadded hremoved :=
    (mem_pathSetDelta_added.1 hadded).2 (mem_pathSetDelta_removed.1 hremoved).1
  added _ := mem_pathSetDelta_added
  removed _ := mem_pathSetDelta_removed
  patched path := by
    rw [mem_pathSetDelta_added, mem_pathSetDelta_removed]
    tauto

/-- The delta in the other direction. -/
def PathSetDelta.swap (delta : PathSetDelta) : PathSetDelta := ⟨delta.removed, delta.added⟩

theorem pathSetDelta_swap (previous current : List String) :
    pathSetDelta current previous = (pathSetDelta previous current).swap := rfl

/-! ### Entries -/

theorem entriesChanged_ascending (previous current : List PathEntry) :
    (entriesChanged previous current).Pairwise (· < ·) :=
  (BTreeSet.ascending _).filter _

theorem entriesChanged_comm (previous current : List PathEntry) :
    entriesChanged current previous = entriesChanged previous current := by
  refine BTreeSet.eq_of_ascending (entriesChanged_ascending _ _) (entriesChanged_ascending _ _) ?_
  intro path
  rw [mem_entriesChanged, mem_entriesChanged]
  exact ne_comm

/-! ### Path sections -/

/-- The delta in the other direction: the entries that differ are the same. -/
def PathDelta.swap (delta : PathDelta) : PathDelta where
  staged := delta.staged.swap
  unstaged := delta.unstaged.swap
  untracked := delta.untracked.swap
  ignored := delta.ignored.swap
  conflicted := delta.conflicted.swap
  entriesChanged := delta.entriesChanged

theorem pathDelta_swap (previous current : PathState) :
    pathDelta current previous = (pathDelta previous current).swap := by
  simp only [pathDelta, PathDelta.swap, pathSetDelta_swap previous.staged,
    entriesChanged_comm previous.entries]
  rfl

/-- The whole of a path delta, for any two path sections. -/
theorem pathDelta_exact (previous current : PathState) :
    ((pathDelta previous current).staged.Exact previous.staged current.staged ∧
      (pathDelta previous current).unstaged.Exact previous.unstaged current.unstaged ∧
      (pathDelta previous current).untracked.Exact previous.untracked current.untracked ∧
      (pathDelta previous current).ignored.Exact previous.ignored current.ignored ∧
      (pathDelta previous current).conflicted.Exact previous.conflicted current.conflicted) ∧
    (pathDelta previous current).entriesChanged.Pairwise (· < ·) ∧
    (∀ path, path ∈ (pathDelta previous current).entriesChanged ↔
      lastEntry previous.entries path ≠ lastEntry current.entries path) ∧
    ((pathDelta previous current).hasChanges = false ↔ previous.Alike current) ∧
    pathDelta current previous = (pathDelta previous current).swap :=
  ⟨⟨pathSetDelta_exact _ _, pathSetDelta_exact _ _, pathSetDelta_exact _ _,
      pathSetDelta_exact _ _, pathSetDelta_exact _ _⟩,
    entriesChanged_ascending _ _, fun _ => mem_entriesChanged, pathDelta_hasChanges,
    pathDelta_swap previous current⟩

end Gitseer
