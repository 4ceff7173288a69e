/-
**What the copy of a client shows.**

An update that compares as equal is not sent, though the snapshots may differ in what the comparison
does not look at.  So the copy of a client need not be the baseline; and while nothing of the path
section is sent, such differences add up.  But they do not become visible: comparing as equal is
transitive, and a patch brings the section as a whole.  After every run in which no baseline was
written behind the back of the client, its copy *shows* the baseline: the two compare as equal.

Main definitions:

* `RepositorySnapshot.Shows` — two snapshots that compare as equal.

Main results:

* `shows_applyPatch` — a patch between two snapshots, applied to a copy that shows the older one;
* `update_shows`, `line_shows` — what every call keeps;
* `copy_shows_baseline` — what holds after every run.
-/

import Gitseer.Protocol.PathSets

set_option relaxedAutoImplicit false
set_option autoImplicit false

open StdPath (PathBuf)
open Replica (receiveAll)

namespace Gitseer

/-! ### Comparing as equal -/

/-- The copy compares as equal to the snapshot: its path section is alike, and the rest is the
same. -/
def RepositorySnapshot.Shows (copy snapshot : RepositorySnapshot) : Prop :=
  copy.paths.Alike snapshot.paths ∧ { copy with paths := snapshot.paths } = snapshot

section

variable {copy previous snapshot : RepositorySnapshot}

theorem shows_iff : copy.Shows snapshot ↔ (snapshotDelta copy snapshot).hasChanges = false :=
  snapshotDelta_hasChanges.symm

theorem RepositorySnapshot.Shows.refl (snapshot : RepositorySnapshot) : snapshot.Shows snapshot :=
  ⟨.refl _, rfl⟩

theorem RepositorySnapshot.Shows.trans (h : copy.Shows previous) (h' : previous.Shows snapshot) :
    copy.Shows snapshot := by
  have hrest := congrArg (fun r : RepositorySnapshot => { r with paths := snapshot.paths }) h.2
  exact ⟨h.1.trans h'.1, hrest.trans h'.2⟩

/-- A copy that shows a snapshot differs from it in the path section at most. -/
theorem RepositorySnapshot.Shows.eq (h : copy.Shows snapshot) :
    copy = { snapshot with paths := copy.paths } :=
  congrArg (fun r : RepositorySnapshot => { r with paths := copy.paths }) h.2

/-- A copy that shows the older of two snapshots shows the newer one after their patch. -/
theorem shows_applyPatch (h : copy.Shows previous) :
    (applyPatchToSnapshot copy
      (SnapshotPatch.fromDelta snapshot (snapshotDelta previous snapshot))).Shows snapshot := by
  have hpatched : applyPatchToSnapshot copy
        (SnapshotPatch.fromDelta snapshot (snapshotDelta previous snapshot)) =
      { applyPatchToSnapshot previous
          (SnapshotPatch.fromDelta snapshot (snapshotDelta previous snapshot)) with
        paths := (SnapshotPatch.fromDelta snapshot
          (snapshotDelta previous snapshot)).paths.getD copy.paths } := by
    rw [h.eq]
    rfl
  rw [hpatched, applyPatch_fromDelta]
  refine ⟨?_, rfl⟩
  change PathState.Alike ((if (pathDelta previous.paths snapshot.paths).hasChanges = true
    then some snapshot.paths else none).getD copy.paths) snapshot.paths
  split
  · exact .refl _
  · next hnone =>
      have halike := pathDelta_hasChanges.1 (Bool.eq_false_iff.2 hnone)
      exact h.1.trans halike

end

/-! ### Calls of the worker -/

section

variable {serde : SerdeJson} {read : SnapshotRead} {s s' : ProcessState} {text : String}
  {messages : List ServerMessage} {copy : Option RepositorySnapshot}

/-- An automatic update keeps showing the baseline, also when it sends nothing. -/
theorem update_shows {snapshot : RepositorySnapshot}
    (h : snapshotUpdateMessages s snapshot = some (s', messages))
    (hcopy : Option.Rel RepositorySnapshot.Shows copy s.latestSnapshot) :
    Option.Rel RepositorySnapshot.Shows
      (receiveAll applyPatchToSnapshot copy (publications messages)) s'.latestSnapshot := by
  obtain ⟨-, hlatest, hspec⟩ := snapshotUpdateMessages_spec h
  rw [hlatest]
  cases hprevious : s.latestSnapshot with
  | none =>
      rw [hprevious] at hspec
      rw [hspec.2]
      exact .some (.refl _)
  | some previous =>
      rw [hprevious] at hspec hcopy
      cases hcopy with
      | @some copy _ hshows =>
          dsimp only at hspec
          split at hspec
          · rw [hspec.2]
            exact .some (shows_applyPatch hshows)
          · next hnone =>
              have hsame := shows_iff.2 (Bool.eq_false_iff.2 hnone)
              rw [hspec.2]
              exact .some (hshows.trans hsame)

/-- A line keeps showing the baseline, unless it replaces the baseline and nothing is sent. -/
theorem line_shows (h : handleRequest serde read s text = some (s', messages))
    (hloud : publications messages = [] → s'.latestSnapshot = s.latestSnapshot)
    (hcopy : Option.Rel RepositorySnapshot.Shows copy s.latestSnapshot) :
    Option.Rel RepositorySnapshot.Shows
      (receiveAll applyPatchToSnapshot copy (publications messages)) s'.latestSnapshot := by
  have hspec := handleRequest_spec h
  split at hspec
  · rw [hspec.2, hspec.1.snapshot]
    exact hcopy
  · obtain ⟨hwrites, hsilent, hsent⟩ := hspec
    by_cases htext : SilentRefresh serde text
    · rw [hloud (hsilent htext), hsilent htext]
      exact hcopy
    · rw [hsent htext, hwrites.snapshot]
      exact .some (.refl _)

/-- A line that is no refresh without id sends a new baseline. -/
theorem line_loud (h : handleRequest serde read s text = some (s', messages))
    (hloud : ¬ SilentRefresh serde text) (hnone : publications messages = []) :
    s'.latestSnapshot = s.latestSnapshot := by
  have hspec := handleRequest_spec h
  split at hspec
  · exact hspec.1.snapshot
  · rw [hspec.2.2 hloud] at hnone
    cases hnone

end

/-! ### Runs -/

/-- In every run without a refresh that has no id, a client has a copy exactly when there is a
baseline, and the copy shows it. -/
theorem copy_shows_baseline {serde : SerdeJson} {repo : PathBuf} {labels : List StreamLabel}
    {s : ProcessState} (h : Lts.Run (LoudStep serde) (ProcessState.new repo) labels s) :
    Option.Rel RepositorySnapshot.Shows (clientCopy (output labels)) s.latestSnapshot := by
  rw [clientCopy, publications_output]
  refine Replica.run_related
    (fun copy u => Option.Rel RepositorySnapshot.Shows copy u.latestSnapshot)
    (fun l => publications l.messages) .none ?_ h
  rintro t l t' copy ⟨hstep, hloud⟩ hcopy
  cases hstep with
  | line h => exact line_shows h (line_loud h (hloud _ _ rfl)) hcopy
  | update h => exact update_shows h hcopy

/-- Two updates that differ in the conflicts only: the copy of the client is the older snapshot, and
shows the newer one. -/
theorem copy_shows_baseline_conflict : ∃ messages s,
    Lts.Run (LoudStep refreshJson) (ProcessState.new repoRoot)
      [⟨.update (conflictSnapshot "1"), messages⟩, ⟨.update (conflictSnapshot "2"), []⟩] s ∧
    s.latestSnapshot = some (conflictSnapshot "2") ∧
    Option.Rel RepositorySnapshot.Shows
      (clientCopy (output [⟨.update (conflictSnapshot "1"), messages⟩,
        ⟨.update (conflictSnapshot "2"), []⟩])) (some (conflictSnapshot "2")) := by
  obtain ⟨messages, hfirst⟩ := first_update
  have hsecond : snapshotUpdateMessages (basedState (conflictSnapshot "1"))
      (conflictSnapshot "2") =
      some ({ basedState (conflictSnapshot "1") with
        latestSnapshot := some (conflictSnapshot "2") }, []) := rfl
  have hone : Lts.Run (LoudStep refreshJson) (ProcessState.new repoRoot)
      [⟨.update (conflictSnapshot "1"), messages⟩] (basedState (conflictSnapshot "1")) :=
    .single ⟨.update hfirst, nofun⟩
  have hrun := hone.snoc ⟨.update hsecond, nofun⟩
  exact ⟨messages, _, hrun, rfl, copy_shows_baseline hrun⟩

end Gitseer
