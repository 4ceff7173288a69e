/-
**The version of a message says which snapshot it is about.**

Every delta names the version it applies to.  A client that applies a delta only to a copy of that
version need not receive all messages, nor receive them once and in order: its copy is a snapshot
that the worker retained under that version.  This holds of all lines, also of a refresh without id,
whose version is never sent, and which makes the copies of other clients diverge.

Main definitions:

* `checkedCopy` — the copy of a client that checks versions;
* `OpenStep` — the steps in which no update hides a difference of the path sections.

Main results:

* `openStep_publishes` — a step keeps version and baseline, or takes the next version for its
  baseline;
* `checked_copy_retained` — the copy is a snapshot that was retained under its version.
-/

import Gitseer.Lib.History
import Gitseer.Protocol.Runs

set_option relaxedAutoImplicit false
set_option autoImplicit false

open StdPath (PathBuf)
open Replica

namespace Gitseer

/-! ### Clients that check versions -/

/-- The copy of a client that takes over full snapshots and applies a delta when the delta names the
version of the copy. -/
def checkedCopy (received : List (Publication RepositorySnapshot SnapshotPatch)) :
    Option (ℕ × RepositorySnapshot) :=
  checkedAll applyPatchToSnapshot received

/-- A step with any line, or with an update whose difference to the baseline is one that the
comparison sees. -/
def OpenStep (serde : SerdeJson) (s : ProcessState) (l : StreamLabel) (s' : ProcessState) : Prop :=
  StreamStep serde s l s' ∧
  match l.event with
  | .line _ _ => True
  | .update snapshot => ∀ previous, s.latestSnapshot = some previous →
      ¬ HidesPaths previous snapshot

/-- A step keeps version and baseline and sends none, or takes the next version for its baseline. -/
theorem openStep_publishes {serde : SerdeJson} {s s' : ProcessState} {l : StreamLabel}
    (h : OpenStep serde s l s') (hlt : s.latestVersion.toNat + 1 < 2 ^ 64) :
    Publishes applyPatchToSnapshot s.latestVersion.toNat s.latestSnapshot
      (publications l.messages) s'.latestVersion.toNat s'.latestSnapshot := by
  have hsucc := toNat_succ hlt
  obtain ⟨hstep, hopen⟩ := h
  cases hstep with
  | @line _ text read messages hline =>
      have hspec := handleRequest_spec hline
      cases hwrite : baselineWrite serde read s.repo text with
      | none =>
          rw [hwrite] at hspec
          obtain ⟨hkeeps, hpubs⟩ := hspec
          exact Or.inl ⟨congrArg UInt64.toNat hkeeps.version, hkeeps.snapshot, hpubs⟩
      | some write =>
          rw [hwrite] at hspec
          obtain ⟨hwrites, hsilent, hloud⟩ := hspec
          refine Or.inr ⟨by rw [hwrites.version, hsucc], write.2, hwrites.snapshot, ?_⟩
          intro p hp
          by_cases hsil : SilentRefresh serde text
          · rw [hsilent hsil] at hp
            cases hp
          · rw [hloud hsil, hsucc] at hp
            exact Or.inl (List.mem_singleton.1 hp)
  | @update _ snapshot messages hupdate =>
      obtain ⟨-, hlatest, hspec⟩ := snapshotUpdateMessages_spec hupdate
      cases hprevious : s.latestSnapshot with
      | none =>
          rw [hprevious] at hspec
          obtain ⟨hversion, hpubs⟩ := hspec
          refine Or.inr ⟨by rw [hversion, hsucc], snapshot, hlatest, ?_⟩
          intro p hp
          rw [hpubs, hsucc] at hp
          exact Or.inl (List.mem_singleton.1 hp)
      | some previous =>
          have hagrees := (update_agrees_iff hupdate hprevious).2 (hopen previous hprevious)
          rw [hprevious] at hspec hagrees
          dsimp only at hspec
          split at hspec
          · obtain ⟨hversion, hpubs⟩ := hspec
            rw [hpubs, hlatest] at hagrees
            refine Or.inr ⟨by rw [hversion, hsucc], snapshot, hlatest, ?_⟩
            intro p hp
            rw [hpubs, hsucc] at hp
            exact Or.inr ⟨previous, _, rfl, List.mem_singleton.1 hp, Option.some.inj hagrees⟩
          · -- nothing is sent, so nothing differs
            obtain ⟨hversion, hnil⟩ := hspec
            rw [hnil] at hagrees
            exact Or.inl ⟨congrArg UInt64.toNat hversion, hagrees.symm, congrArg publications hnil⟩

/-- A step whose version does not overflow. -/
def BoundedVersionStep (serde : SerdeJson) (s : ProcessState) (l : StreamLabel)
    (s' : ProcessState) : Prop :=
  OpenStep serde s l s' ∧ s.latestVersion.toNat + 1 < 2 ^ 64

/-- No version overflows in a run of fewer than `2 ^ 64` steps. -/
theorem bounded_run {serde : SerdeJson} {repo : PathBuf} {labels : List StreamLabel}
    {s : ProcessState} (h : Lts.Run (OpenStep serde) (ProcessState.new repo) labels s)
    (hlen : labels.length < 2 ^ 64) :
    Lts.Run (BoundedVersionStep serde) (ProcessState.new repo) labels s := by
  induction h with
  | nil => exact Lts.Run.nil
  | @snoc labels s l s' hrun hstep ih =>
      rw [List.length_append, List.length_singleton] at hlen
      have hbound := (run_versions (hrun.mono fun _ _ _ h => h.1) (by omega)).bound
      exact (ih (by omega)).snoc ⟨hstep, by omega⟩

/-! ### The copy -/

/-- The worker retained the snapshot under the version at some point of the run. -/
def RetainedIn (serde : SerdeJson) (repo : PathBuf) (labels : List StreamLabel) (version : ℕ)
    (snapshot : RepositorySnapshot) : Prop :=
  ∃ before after s, labels = before ++ after ∧
    Lts.Run (StreamStep serde) (ProcessState.new repo) before s ∧
    s.latestVersion.toNat = version ∧ s.latestSnapshot = some snapshot

/-- Whichever messages of a run a client receives, how often and in whatever order: its copy is a
snapshot the worker retained under that version, and the one it retains now when it has the latest
version. -/
theorem checked_copy_retained {serde : SerdeJson} {repo : PathBuf} {labels : List StreamLabel}
    {s : ProcessState} (h : Lts.Run (OpenStep serde) (ProcessState.new repo) labels s)
    (hlen : labels.length < 2 ^ 64)
    {received : List (Publication RepositorySnapshot SnapshotPatch)}
    (hreceived : received ⊆ publications (output labels)) {version : ℕ}
    {snapshot : RepositorySnapshot} (hcopy : checkedCopy received = some (version, snapshot)) :
    RetainedIn serde repo labels version snapshot ∧ version ≤ s.latestVersion.toNat ∧
      (version = s.latestVersion.toNat → s.latestSnapshot = some snapshot) := by
  rw [publications_output] at hreceived
  have hpublishes : ∀ s l s', BoundedVersionStep serde s l s' →
      Publishes applyPatchToSnapshot s.latestVersion.toNat s.latestSnapshot
        (publications l.messages) s'.latestVersion.toNat s'.latestSnapshot :=
    fun _ _ _ hstep => openStep_publishes hstep.1 hstep.2
  obtain ⟨⟨before, after, u, hlabels, hrun, hu⟩, hlast⟩ :=
    run_checked hpublishes (bounded_run h hlen) hreceived hcopy
  exact ⟨⟨before, after, u, hlabels, hrun.mono fun _ _ _ hstep => hstep.1.1, hu⟩, hlast⟩

/-- A refresh with an id and an update with a conflict; the client gets the delta before the full
snapshot, and both of them twice. -/
theorem checked_copy_retained_conflict : ∃ labels s received,
    Lts.Run (OpenStep refreshJson) (ProcessState.new repoRoot) labels s ∧
    received ⊆ publications (output labels) ∧
    checkedCopy received = some (2, conflictSnapshot "1") ∧
    s.latestSnapshot = some (conflictSnapshot "1") := by
  obtain ⟨messages, hline⟩ := refresh_line
  obtain ⟨messages', hupdate⟩ := conflict_update
  have hone : Lts.Run (OpenStep refreshJson) (ProcessState.new repoRoot)
      [⟨.line refreshLine readPlain, messages⟩] (basedState plainSnapshot) :=
    .single ⟨.line hline, trivial⟩
  have hrun := hone.snoc ⟨.update hupdate, by
    intro previous hprevious hhides
    obtain rfl := Option.some.inj hprevious
    exact absurd hhides.1 (by decide)⟩
  have hfull : publications messages = [.full 1 plainSnapshot] :=
    (handleRequest_spec hline).2.2 refreshLine_carriesId.not_silentRefresh
  have hchanges : (snapshotDelta plainSnapshot (conflictSnapshot "1")).hasChanges = true := by
    decide
  have hspec := (snapshotUpdateMessages_spec hupdate).2.2
  change (if (snapshotDelta plainSnapshot (conflictSnapshot "1")).hasChanges = true
    then _ else _) at hspec
  rw [if_pos hchanges] at hspec
  have hdelta := hspec.2
  have hcopy : checkedCopy (publications messages' ++ publications messages ++
      publications messages' ++ publications messages') = some (2, conflictSnapshot "1") := by
    rw [hfull, hdelta]
    decide
  have hreceived : publications messages' ++ publications messages ++ publications messages' ++
      publications messages' ⊆ publications (output ([⟨.line refreshLine readPlain, messages⟩] ++
        [⟨.update (conflictSnapshot "1"), messages'⟩])) := by
    intro p hp
    rw [publications_output]
    simp only [List.mem_append] at hp
    simp only [List.cons_append, List.nil_append, List.flatMap_cons, List.flatMap_nil,
      List.append_nil, List.mem_append]
    tauto
  exact ⟨_, _, _, hrun, hreceived, hcopy,
    (checked_copy_retained hrun (by simp) hreceived hcopy).2.2 rfl⟩

end Gitseer
