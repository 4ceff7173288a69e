/-
**A client that keeps the path sets only.**

A delta says twice what has changed: its patch carries the new sections as a whole, and its summary
lists the paths that entered or left each of the five sets.  A client that shows no more than the
sets, such as a file tree with badges, need not read the patch.  It takes the sets of a full
snapshot and applies what the summaries list.

Such a client is better off than one that applies the patches.  A difference of the path sections
that the comparison does not see is never sent, so that a copy of the whole snapshot may differ from
the baseline; but no such difference is one of the sets.  Only a refresh without id, for which
nothing is sent, makes the sets of the client wrong.

Main definitions:

* `PathSets`, `PathState.sets` — the five sets;
* `pathSetPublications`, `clientPathSets` — what the client reads, and what it makes of it;
* `LoudStep` — the steps that are no refresh without id.

Main results:

* `applyPathDelta_pathDelta` — applying a summary leads from the older sets to the newer;
* `path_sets_agree` — after every run the client has the sets of the baseline.
-/

import Gitseer.Protocol.Runs
import Gitseer.Repository.PathViews

set_option relaxedAutoImplicit false
set_option autoImplicit false

open StdPath (PathBuf)
open Json (Value)
open Replica (Publication receiveAll)

namespace Gitseer

/-! ### The client -/

/-- The paths of each of the five sets. -/
abbrev PathSets := PathClass → Set String

/-- The sets that a path section holds. -/
def PathState.sets (state : PathState) : PathSets := fun c => {path | path ∈ state.paths c}

/-- The paths that left are taken out, and those that entered are put in. -/
def applyPathDelta (sets : PathSets) (delta : PathDelta) : PathSets := fun c =>
  {path | path ∈ sets c ∧ path ∉ (delta.paths c).removed ∨ path ∈ (delta.paths c).added}

/-- The sets of a full snapshot. -/
def fullPathSets (v : Value) : Option (Publication PathSets PathDelta) :=
  (Wire.snapshotNotificationParamsCodec.dec v).map fun p =>
    .full p.version.toNat p.snapshot.paths.sets

/-- The summary of a delta. -/
def deltaPathSets (v : Value) : Option (Publication PathSets PathDelta) :=
  (Wire.deltaNotificationParamsCodec.dec v).map fun p =>
    .delta p.previousVersion.toNat p.version.toNat p.delta.paths

/-- What the client reads in a message. -/
def pathSetPublication : ServerMessage → Option (Publication PathSets PathDelta)
  | .response response => response.result.bind fullPathSets
  | .notification notification =>
      if notification.method = "gitseer/snapshot" then notification.params.bind fullPathSets
      else if notification.method = "gitseer/delta" then notification.params.bind deltaPathSets
      else none

def pathSetPublications (messages : List ServerMessage) : List (Publication PathSets PathDelta) :=
  messages.filterMap pathSetPublication

/-- The sets of a client that received the messages. -/
def clientPathSets (messages : List ServerMessage) : Option PathSets :=
  receiveAll applyPathDelta none (pathSetPublications messages)

/-- The sets of the baseline. -/
def ProcessState.pathSets (s : ProcessState) : Option PathSets :=
  s.latestSnapshot.map fun snapshot => snapshot.paths.sets

/-! ### Applying a summary -/

/-- Applying the summary of a delta leads from the older sets to the newer ones. -/
theorem applyPathDelta_pathDelta (previous current : PathState) :
    applyPathDelta previous.sets (pathDelta previous current) = current.sets := by
  funext c
  ext path
  have hpatched := (pathSetDelta_exact (previous.paths c) (current.paths c)).patched path
  rw [← paths_pathDelta] at hpatched
  exact hpatched

/-- Path sections that compare as equal hold the same sets. -/
theorem PathState.Alike.sets_eq {previous current : PathState} (h : previous.Alike current) :
    previous.sets = current.sets := by
  have hnone := pathDelta_hasChanges.2 h
  rw [← applyPathDelta_pathDelta previous current]
  have hempty : ∀ c, (((pathDelta previous current).paths c).added = [] ∧
      ((pathDelta previous current).paths c).removed = []) := by
    simp only [PathDelta.hasChanges, PathSetDelta.hasChanges, Bool.or_eq_false_iff,
      Bool.not_eq_false', List.isEmpty_iff] at hnone
    intro c
    cases c <;> simp only [PathDelta.paths] <;> tauto
  funext c
  ext path
  simp [applyPathDelta, hempty c]

/-! ### What a message says of the sets -/

/-- A full snapshot, with nothing but its sets. -/
def pathSetsOf : Publication RepositorySnapshot SnapshotPatch → Publication PathSets PathDelta
  | .full version snapshot => .full version snapshot.paths.sets
  | .delta previous version _ => .delta previous version {}

theorem fullPathSets_eq (v : Value) :
    fullPathSets v = (fullPublication v).map pathSetsOf := by
  unfold fullPathSets fullPublication
  cases Wire.snapshotNotificationParamsCodec.dec v <;> rfl

/-- A message without a publication says nothing of the sets. -/
theorem pathSetPublication_of_none {m : ServerMessage} (h : publication m = none) :
    pathSetPublication m = none := by
  cases m with
  | response response =>
      simp only [publication, pathSetPublication] at h ⊢
      cases hresult : response.result with
      | none => rfl
      | some v =>
          rw [hresult, Option.bind_some] at h
          rw [Option.bind_some, fullPathSets_eq, h, Option.map_none]
  | notification n =>
      simp only [publication, pathSetPublication] at h ⊢
      split_ifs at h ⊢
      · cases hparams : n.params with
        | none => rfl
        | some v =>
            rw [hparams, Option.bind_some] at h
            rw [Option.bind_some, fullPathSets_eq, h, Option.map_none]
      · cases hparams : n.params with
        | none => rfl
        | some v =>
            rw [hparams, Option.bind_some, deltaPublication, Option.map_eq_none_iff] at h
            rw [Option.bind_some, deltaPathSets, h, Option.map_none]
      · rfl

/-- A message with a full snapshot says what its sets are. -/
theorem pathSetPublication_of_full {m : ServerMessage} {version : ℕ}
    {snapshot : RepositorySnapshot} (h : publication m = some (.full version snapshot)) :
    pathSetPublication m = some (.full version snapshot.paths.sets) := by
  cases m with
  | response response =>
      simp only [publication, pathSetPublication] at h ⊢
      obtain ⟨v, hv, hfull⟩ := Option.bind_eq_some_iff.1 h
      rw [hv, Option.bind_some, fullPathSets_eq, hfull]
      rfl
  | notification n =>
      simp only [publication, pathSetPublication] at h ⊢
      split_ifs at h ⊢
      · obtain ⟨v, hv, hfull⟩ := Option.bind_eq_some_iff.1 h
        rw [hv, Option.bind_some, fullPathSets_eq, hfull]
        rfl
      · obtain ⟨v, -, hdelta⟩ := Option.bind_eq_some_iff.1 h
        obtain ⟨params, -, hparams⟩ := Option.map_eq_some_iff.1 hdelta
        cases hparams

/-- Messages that carry full snapshots only say what their sets are. -/
theorem pathSetPublications_of_full {messages : List ServerMessage}
    (h : ∀ p ∈ publications messages, p.isFull = true) :
    pathSetPublications messages =
      (publications messages).map pathSetsOf := by
  induction messages with
  | nil => rfl
  | cons m messages ih =>
      cases hm : publication m with
      | none =>
          rw [publications, List.filterMap_cons_none hm] at h ⊢
          rw [pathSetPublications, List.filterMap_cons_none (pathSetPublication_of_none hm)]
          exact ih h
      | some p =>
          rw [publications, List.filterMap_cons_some hm] at h ⊢
          obtain ⟨hp, hrest⟩ := List.forall_mem_cons.1 h
          cases p with
          | full version snapshot =>
              rw [pathSetPublications,
                List.filterMap_cons_some (pathSetPublication_of_full hm), List.map_cons]
              exact congrArg _ (ih hrest)
          | delta previous version patch => cases hp

/-! ### Runs -/

/-- A step that is no refresh without id. -/
def LoudStep (serde : SerdeJson) (s : ProcessState) (l : StreamLabel) (s' : ProcessState) : Prop :=
  StreamStep serde s l s' ∧ ∀ text read, l.event = .line text read → ¬ SilentRefresh serde text

section

variable {serde : SerdeJson} {s s' : ProcessState} {messages : List ServerMessage}

/-- A line that is no refresh without id keeps the sets of the client in agreement. -/
theorem line_pathSets {read : SnapshotRead} {text : String}
    (h : handleRequest serde read s text = some (s', messages))
    (hloud : ¬ SilentRefresh serde text) :
    receiveAll applyPathDelta s.pathSets (pathSetPublications messages) = s'.pathSets := by
  have hspec := handleRequest_spec h
  split at hspec
  · obtain ⟨hkeeps, hnil⟩ := hspec
    rw [pathSetPublications_of_full (by simp [hnil]), hnil, ProcessState.pathSets,
      ProcessState.pathSets, hkeeps.snapshot]
    rfl
  · obtain ⟨hwrites, -, hfull⟩ := hspec
    have hpubs := hfull hloud
    rw [pathSetPublications_of_full (by simp [hpubs, Publication.isFull]), hpubs,
      ProcessState.pathSets, ProcessState.pathSets, hwrites.snapshot]
    rfl

/-- An automatic update keeps the sets of the client in agreement, also when it sends nothing. -/
theorem update_pathSets {snapshot : RepositorySnapshot}
    (h : snapshotUpdateMessages s snapshot = some (s', messages)) :
    receiveAll applyPathDelta s.pathSets (pathSetPublications messages) = s'.pathSets := by
  have hlatest := (snapshotUpdateMessages_spec h).2.1
  cases hprevious : s.latestSnapshot with
  | none =>
      have hpubs := (snapshotUpdateMessages_spec h).2.2
      rw [hprevious] at hpubs
      rw [pathSetPublications_of_full (by simp [hpubs.2, Publication.isFull]), hpubs.2,
        ProcessState.pathSets, ProcessState.pathSets, hlatest]
      rfl
  | some previous =>
      simp only [snapshotUpdateMessages, hprevious, ProcessState.recordUpdate] at h
      split at h
      · next hnone =>
          -- nothing is sent, and the sets are the same
          split at hnone
          · next hsame =>
              obtain ⟨rfl, rfl⟩ := Prod.mk.inj (Option.some.inj h)
              have halike := (snapshotDelta_hasChanges.1 (by simpa using hsame)).1
              rw [ProcessState.pathSets, ProcessState.pathSets, hlatest, hprevious]
              exact congrArg some halike.sets_eq
          · cases (Prod.mk.inj hnone).2
      · next delta hsome =>
          split at hsome
          · cases (Prod.mk.inj hsome).2
          · obtain ⟨v, hv, hm⟩ := Option.bind_eq_some_iff.1 h
            obtain ⟨-, rfl⟩ := Prod.mk.inj (Option.some.inj hm)
            obtain ⟨-, hdelta⟩ := Prod.mk.inj hsome
            obtain rfl := Option.some.inj hdelta
            have hread : pathSetPublications [notify "gitseer/delta" v] =
                [.delta s.latestVersion.toNat (s.latestVersion + 1).toNat
                  (pathDelta previous.paths snapshot.paths)] := by
              have hdec := Wire.deltaNotificationParamsCodec.dec_enc hv
              simp [pathSetPublications, pathSetPublication, notify, deltaPathSets, hdec,
                snapshotDelta]
            rw [hread, ProcessState.pathSets, ProcessState.pathSets, hlatest, hprevious]
            exact congrArg some (applyPathDelta_pathDelta previous.paths snapshot.paths)

end

/-- In every run without a refresh that has no id, a client that keeps the path sets only and
applies the summaries of the deltas has the path sets of the baseline. -/
theorem path_sets_agree {serde : SerdeJson} {repo : PathBuf} {labels : List StreamLabel}
    {s : ProcessState} (h : Lts.Run (LoudStep serde) (ProcessState.new repo) labels s) :
    clientPathSets (output labels) = s.pathSets := by
  have houtput : pathSetPublications (output labels) =
      labels.flatMap fun l => pathSetPublications l.messages := List.filterMap_flatMap ..
  rw [clientPathSets, houtput]
  refine Replica.run_copy ProcessState.pathSets (fun l => pathSetPublications l.messages) ?_ h
  rintro t l t' ⟨hstep, hloud⟩
  cases hstep with
  | line h => exact line_pathSets h (hloud _ _ rfl)
  | update h => exact update_pathSets h

/-- Two updates that differ in the conflicts only: nothing is sent for the second one, and the sets
of the client are those of the baseline all the same. -/
theorem path_sets_agree_conflict : ∃ messages s,
    Lts.Run (LoudStep refreshJson) (ProcessState.new repoRoot)
      [⟨.update (conflictSnapshot "1"), messages⟩, ⟨.update (conflictSnapshot "2"), []⟩] s ∧
    s.latestSnapshot = some (conflictSnapshot "2") ∧
    clientPathSets (output [⟨.update (conflictSnapshot "1"), messages⟩,
      ⟨.update (conflictSnapshot "2"), []⟩]) = some (conflictSnapshot "2").paths.sets := by
  obtain ⟨messages, hfirst⟩ := first_update
  have hsecond : snapshotUpdateMessages (basedState (conflictSnapshot "1"))
      (conflictSnapshot "2") =
      some ({ basedState (conflictSnapshot "1") with
        latestSnapshot := some (conflictSnapshot "2") }, []) := rfl
  have hone : Lts.Run (LoudStep refreshJson) (ProcessState.new repoRoot)
      [⟨.update (conflictSnapshot "1"), messages⟩] (basedState (conflictSnapshot "1")) :=
    .single ⟨.update hfirst, nofun⟩
  have hrun := hone.snoc ⟨.update hsecond, nofun⟩
  exact ⟨messages, _, hrun, rfl, path_sets_agree hrun⟩

end Gitseer
