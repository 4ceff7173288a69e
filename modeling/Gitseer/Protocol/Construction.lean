/-
**When a message can be built.**

A message that carries a snapshot, or sections of one, is built by a conversion that stops the
program when it fails, and it fails for a path that is not UTF-8.  The conversion is behind three
requests and behind the automatic updates.  A request has the paths of the whole snapshot it reads
converted; so has the first update, while a later one converts only the sections that changed.

Main definitions:

* `UpdateUtf8` — the paths an automatic update sends are UTF-8.

Main results:

* `snapshotUpdateMessages_isSome_iff` — when the messages of an update are built;
* `messages_built_iff` — when a line is answered and the messages of an update are built.
-/

import Gitseer.Protocol.Envelope

set_option relaxedAutoImplicit false
set_option autoImplicit false

open StdPath (PathBuf)

namespace Gitseer

/-! ### Updates -/

/-- The paths an update sends are UTF-8: those of the whole snapshot when there is no baseline, and
those of the sections that differ from the baseline when there is one. -/
def UpdateUtf8 (s : ProcessState) (snapshot : RepositorySnapshot) : Prop :=
  match s.latestSnapshot with
  | none => snapshot.Utf8Paths
  | some previous =>
      (previous.identity ≠ snapshot.identity → snapshot.identity.Utf8Paths) ∧
      (previous.worktrees ≠ snapshot.worktrees → ∀ w ∈ snapshot.worktrees, w.path.IsUtf8) ∧
      (previous.submodules ≠ snapshot.submodules → ∀ m ∈ snapshot.submodules, m.path.IsUtf8)

/-- A patch has the paths of the sections that differ. -/
theorem utf8Paths_fromDelta {previous current : RepositorySnapshot} :
    (SnapshotPatch.fromDelta current (snapshotDelta previous current)).Utf8Paths ↔
      (previous.identity ≠ current.identity → current.identity.Utf8Paths) ∧
      (previous.worktrees ≠ current.worktrees → ∀ w ∈ current.worktrees, w.path.IsUtf8) ∧
      (previous.submodules ≠ current.submodules → ∀ m ∈ current.submodules, m.path.IsUtf8) := by
  have hcarried : ∀ {α : Type} (differs : Prop) [Decidable differs] (current : α) (P : α → Prop),
      (∀ a ∈ (if decide differs = true then some current else none), P a) ↔
        (differs → P current) := by
    intro α differs _ current P
    by_cases h : differs <;> simp [h]
  rw [SnapshotPatch.utf8Paths_iff]
  refine and_congr (hcarried _ _ _) (and_congr ?_ ?_)
  · exact hcarried _ _ fun l : List WorktreeSummary => ∀ w ∈ l, w.path.IsUtf8
  · exact hcarried _ _ fun l : List SubmoduleSummary => ∀ m ∈ l, m.path.IsUtf8

/-- The messages of an update are built exactly when the paths it sends are UTF-8. -/
theorem snapshotUpdateMessages_isSome_iff {s : ProcessState} {snapshot : RepositorySnapshot} :
    (snapshotUpdateMessages s snapshot).isSome = true ↔ UpdateUtf8 s snapshot := by
  unfold snapshotUpdateMessages UpdateUtf8
  cases hlatest : s.latestSnapshot with
  | none =>
      have hencodes : (snapshotNotification (s.recordBaseline snapshot).2).isSome = true ↔
          snapshot.Utf8Paths := by
        rw [Option.isSome_iff_ne_none, Ne, snapshotNotification_eq_none_iff, not_not]
        rfl
      rw [← hencodes]
      dsimp only
      cases snapshotNotification (s.recordBaseline snapshot).2 <;> rfl
  | some previous =>
      simp only [ProcessState.recordUpdate, hlatest]
      cases hchanges : (snapshotDelta previous snapshot).hasChanges with
      | false =>
          -- nothing is sent when nothing differs
          obtain ⟨-, hsame⟩ := snapshotDelta_hasChanges.1 hchanges
          rw [← hsame]
          simp
      | true =>
          have hencodes := Wire.encodes_deltaNotificationParams ⟨s.latestVersion,
            s.latestVersion + 1, snapshotDelta previous snapshot,
            SnapshotPatch.fromDelta snapshot (snapshotDelta previous snapshot)⟩
          rw [utf8Paths_fromDelta] at hencodes
          rw [← hencodes, Json.Codec.Encodes]
          simp only [Bool.not_true, Bool.false_eq_true, if_false]
          cases Wire.deltaNotificationParamsCodec.enc _ <;> rfl

/-- A line is answered exactly when the snapshot it reads has UTF-8 paths only, and the messages of
an update are built exactly when the paths it sends are UTF-8. -/
theorem messages_built_iff (serde : SerdeJson) (read : SnapshotRead) (s : ProcessState)
    (line : String) (snapshot : RepositorySnapshot) :
    ((handleRequest serde read s line).isSome = true ↔ ReadsUtf8 serde read s.repo line) ∧
      ((snapshotUpdateMessages s snapshot).isSome = true ↔ UpdateUtf8 s snapshot) :=
  ⟨handleRequest_isSome_iff, snapshotUpdateMessages_isSome_iff⟩

/-! ### A directory whose name is not UTF-8 -/

/-- The worktree root is named in Latin-1: neither a request for the snapshot nor the first update
can be answered. -/
theorem latin_messages_unbuilt : ∃ snapshot,
    snapshotRepositoryWithOptions (fun _ => .ok latinRepository) latinRoot {} = .ok snapshot ∧
    handleRequest getSnapshotJson (snapshotRepositoryWithOptions fun _ => .ok latinRepository)
      (ProcessState.new latinRoot) getSnapshotLine = none ∧
    snapshotUpdateMessages (ProcessState.new latinRoot) snapshot = none :=
  ⟨_, rfl, getSnapshot_stops, by decide⟩

end Gitseer
