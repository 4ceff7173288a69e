/-
**Every run of requests and updates.**

A run of the worker is a sequence of lines and automatic updates.  The repository is read while a
line is handled, so what it answers is part of the step.  For a client that receives all messages
two things are asked of every run: does its copy agree with the baseline of the worker, and can it
tell by the versions that it received everything?

Both hold but for one defect each.  An update that compares as equal replaces the baseline without
a word, although the comparison does not look at everything a snapshot holds.  And a refresh
without id writes a baseline under a new version that no message carries.

Main definitions:

* `StreamStep` — lines and updates, with the messages they return;
* `HidesPaths` — a difference of two snapshots that their comparison does not see;
* `VisibleStep` — the steps that hide nothing: lines with an id, and updates without such a
  difference;
* `Suppressed` — a silent refresh that wrote a baseline;
* `VersionChain` — the versions of the publications count from one to the last version, and every
  patch names the version before its own.

Main results:

* `update_copy` — the copy after an update agrees in everything but a hidden difference;
* `client_copy_agrees` — in every run of visible steps the copy agrees with the baseline;
* `version_chain_iff` — the versions of a run form a chain exactly when no refresh was suppressed.
-/

import Gitseer.Protocol.Stream

set_option relaxedAutoImplicit false
set_option autoImplicit false

open StdPath (PathBuf)
open Json (Value)
open Replica (Publication receiveAll Chained)

namespace Gitseer

/-! ### Runs -/

/-- What the worker is given: a line, with what the repository answers while it is handled, or the
snapshot of an automatic update. -/
inductive StreamEvent
  | line (text : String) (read : SnapshotRead)
  | update (snapshot : RepositorySnapshot)

/-- An event and the messages returned for it. -/
structure StreamLabel where
  event : StreamEvent
  messages : List ServerMessage

/-- One call of the worker. -/
inductive StreamStep (serde : SerdeJson) : ProcessState → StreamLabel → ProcessState → Prop
  | line {s s' : ProcessState} {text : String} {read : SnapshotRead}
      {messages : List ServerMessage}
      (h : handleRequest serde read s text = some (s', messages)) :
      StreamStep serde s ⟨.line text read, messages⟩ s'
  | update {s s' : ProcessState} {snapshot : RepositorySnapshot} {messages : List ServerMessage}
      (h : snapshotUpdateMessages s snapshot = some (s', messages)) :
      StreamStep serde s ⟨.update snapshot, messages⟩ s'

theorem handleRequest_repo {serde : SerdeJson} {read : SnapshotRead} {s s' : ProcessState}
    {text : String} {messages : List ServerMessage}
    (h : handleRequest serde read s text = some (s', messages)) : s'.repo = s.repo := by
  have hspec := handleRequest_spec h
  split at hspec
  · exact hspec.1.repo
  · exact hspec.1.repo

/-- No step leaves the repository for another one. -/
theorem StreamStep.repo {serde : SerdeJson} {s s' : ProcessState} {l : StreamLabel}
    (h : StreamStep serde s l s') : s'.repo = s.repo := by
  cases h with
  | line h => exact handleRequest_repo h
  | update h => exact (snapshotUpdateMessages_spec h).1

/-- All messages returned in a run, in order. -/
def output (labels : List StreamLabel) : List ServerMessage := labels.flatMap StreamLabel.messages

theorem publications_output (labels : List StreamLabel) :
    publications (output labels) = labels.flatMap fun l => publications l.messages := by
  induction labels with
  | nil => rfl
  | cons l labels ih =>
      rw [output, List.flatMap_cons, publications, List.filterMap_append, List.flatMap_cons, ← ih]
      rfl

theorem publications_output_concat (labels : List StreamLabel) (l : StreamLabel) :
    publications (output (labels ++ [l])) =
      publications (output labels) ++ publications l.messages := by
  rw [publications_output, publications_output, List.flatMap_append, List.flatMap_singleton]

/-! ### Agreement of the copy -/

/-- The path sections differ but compare as equal. -/
def HidesPaths (previous current : RepositorySnapshot) : Prop :=
  previous.paths.Alike current.paths ∧ previous.paths ≠ current.paths

/-- The line holds an object with an id. -/
def CarriesId (serde : SerdeJson) (text : String) : Prop :=
  ∃ o, parseLine serde text = .ok o ∧ (o.lookup "id").isSome = true

/-- A step that hides nothing from the client: a line with an id, or an update whose difference to
the baseline is one that the comparison sees. -/
def VisibleStep (serde : SerdeJson) (s : ProcessState) (l : StreamLabel) (s' : ProcessState) :
    Prop :=
  StreamStep serde s l s' ∧
  match l.event with
  | .line text _ => CarriesId serde text
  | .update snapshot => ∀ previous, s.latestSnapshot = some previous →
      ¬ HidesPaths previous snapshot

/-- A line with an id is not a silent refresh. -/
theorem CarriesId.not_silentRefresh {serde : SerdeJson} {text : String}
    (h : CarriesId serde text) : ¬ SilentRefresh serde text := by
  obtain ⟨o, ho, hid⟩ := h
  rintro ⟨request, hrequest, -⟩
  rw [parseRequest, ho, Result.ok_bind] at hrequest
  obtain ⟨_, -, hpair⟩ := Result.bind_eq_ok.1 hrequest
  have hnone := (Prod.mk.inj (Except.ok.inj hpair)).2
  rw [Option.isNone_iff_eq_none] at hnone
  rw [hnone] at hid
  cases hid

/-- The copy after an update: the newer snapshot, but with the older path section where the two
compare as equal. -/
theorem update_copy {s s' : ProcessState} {snapshot previous : RepositorySnapshot}
    {messages : List ServerMessage}
    (h : snapshotUpdateMessages s snapshot = some (s', messages))
    (hprevious : s.latestSnapshot = some previous) :
    receiveAll applyPatchToSnapshot s.latestSnapshot (publications messages) =
      some { snapshot with
        paths := if previous.paths.Alike snapshot.paths then previous.paths
          else snapshot.paths } := by
  obtain ⟨-, -, hspec⟩ := snapshotUpdateMessages_spec h
  rw [hprevious] at hspec ⊢
  dsimp only at hspec
  split at hspec
  · rw [hspec.2, ← applyPatch_fromDelta]
    rfl
  · next hchanges =>
      -- nothing is sent, and everything but the paths is the same
      obtain ⟨halike, hsame⟩ := snapshotDelta_hasChanges.1 (Bool.not_eq_true _ ▸ hchanges)
      rw [hspec.2, if_pos halike, ← hsame]
      rfl

/-- An update keeps the copy in agreement exactly when it hides no difference. -/
theorem update_agrees_iff {s s' : ProcessState} {snapshot previous : RepositorySnapshot}
    {messages : List ServerMessage}
    (h : snapshotUpdateMessages s snapshot = some (s', messages))
    (hprevious : s.latestSnapshot = some previous) :
    receiveAll applyPatchToSnapshot s.latestSnapshot (publications messages) =
      s'.latestSnapshot ↔ ¬ HidesPaths previous snapshot := by
  rw [update_copy h hprevious, (snapshotUpdateMessages_spec h).2.1]
  by_cases halike : previous.paths.Alike snapshot.paths
  · rw [if_pos halike]
    constructor
    · intro heq hhides
      have hsnapshot := Option.some.inj heq
      have hpaths := congrArg RepositorySnapshot.paths hsnapshot
      exact hhides.2 hpaths
    · intro hnot
      by_cases hpaths : previous.paths = snapshot.paths
      · rw [hpaths]
      · exact absurd ⟨halike, hpaths⟩ hnot
  · rw [if_neg halike]
    exact iff_of_true rfl fun hhides => halike hhides.1

/-- The first update of a run is sent in full. -/
theorem update_agrees_of_none {s s' : ProcessState} {snapshot : RepositorySnapshot}
    {messages : List ServerMessage}
    (h : snapshotUpdateMessages s snapshot = some (s', messages))
    (hnone : s.latestSnapshot = none) :
    receiveAll applyPatchToSnapshot s.latestSnapshot (publications messages) =
      s'.latestSnapshot := by
  obtain ⟨-, hsnapshot, hspec⟩ := snapshotUpdateMessages_spec h
  rw [hnone] at hspec ⊢
  rw [hspec.2, hsnapshot]
  rfl

/-- A line that is not a silent refresh keeps the copy in agreement. -/
theorem line_agrees {serde : SerdeJson} {read : SnapshotRead} {s s' : ProcessState}
    {text : String} {messages : List ServerMessage}
    (h : handleRequest serde read s text = some (s', messages))
    (hloud : ¬ SilentRefresh serde text) :
    receiveAll applyPatchToSnapshot s.latestSnapshot (publications messages) =
      s'.latestSnapshot := by
  have hspec := handleRequest_spec h
  split at hspec
  · rw [hspec.2, hspec.1.snapshot]
    rfl
  · rw [hspec.2.2 hloud, hspec.1.snapshot]
    rfl

/-- Every visible step keeps the copy in agreement. -/
theorem visible_step_agrees {serde : SerdeJson} {s s' : ProcessState} {l : StreamLabel}
    (h : VisibleStep serde s l s') :
    receiveAll applyPatchToSnapshot s.latestSnapshot (publications l.messages) =
      s'.latestSnapshot := by
  obtain ⟨hstep, hvisible⟩ := h
  cases hstep with
  | line h => exact line_agrees h hvisible.not_silentRefresh
  | update h =>
      cases hprevious : s.latestSnapshot with
      | none => rw [← hprevious]; exact update_agrees_of_none h hprevious
      | some previous =>
          rw [← hprevious]
          exact (update_agrees_iff h hprevious).2 (hvisible previous hprevious)

/-- In every run of lines with an id and updates that hide no difference of the path sections, the
copy of a client agrees with the baseline of the worker. -/
theorem client_copy_agrees {serde : SerdeJson} {repo : PathBuf} {labels : List StreamLabel}
    {s : ProcessState} (h : Lts.Run (VisibleStep serde) (ProcessState.new repo) labels s) :
    clientCopy (output labels) = s.latestSnapshot := by
  rw [clientCopy, publications_output]
  exact Replica.run_copy ProcessState.latestSnapshot (fun l => publications l.messages)
    (fun _ _ _ hstep => visible_step_agrees hstep) h

/-! ### A run, and one in which the copy diverges -/

/-- A reader of JSON text that knows the listed texts. -/
def knownLines (lines : List (String × Value)) : SerdeJson where
  fromStr text :=
    match lines.lookup text with
    | some value => .ok value
    | none => .error "expected value"
  requestError _ := "invalid request"
  paramsError _ := "invalid type"

/-- A refresh with an id. -/
def refreshLine : String :=
  "\x7b\"jsonrpc\":\"2.0\",\"id\":1,\"method\":\"gitseer/refresh\"\x7d"

/-- A refresh without id. -/
def silentLine : String := "\x7b\"jsonrpc\":\"2.0\",\"method\":\"gitseer/refresh\"\x7d"

def refreshJson : SerdeJson := knownLines [
  (refreshLine, .object [("jsonrpc", .string "2.0"), ("id", .number (.int 1)),
    ("method", .string "gitseer/refresh")]),
  (silentLine, .object [("jsonrpc", .string "2.0"), ("method", .string "gitseer/refresh")])]

/-- The snapshot of a merge with one conflict, given by the object of our side. -/
def conflictSnapshot (oid : String) : RepositorySnapshot :=
  { plainSnapshot with paths := { plainSnapshot.paths with
      conflicted := ["a.txt"]
      conflicts := [⟨"a.txt", none, some ⟨"a.txt", oid, 33188⟩, none⟩] } }

/-- A read that always finds the repository without commits. -/
def readPlain : SnapshotRead := fun _ _ => .ok plainSnapshot

/-- The state after a first baseline. -/
def basedState (snapshot : RepositorySnapshot) : ProcessState :=
  (ProcessState.new repoRoot).withBaseline snapshot

theorem exists_messages {α : Type} {x : Option (ProcessState × α)} {s : ProcessState}
    (h : x.map Prod.fst = some s) : ∃ messages, x = some (s, messages) := by
  obtain ⟨⟨t, messages⟩, ht, rfl⟩ := Option.map_eq_some_iff.1 h
  exact ⟨messages, ht⟩

theorem refresh_line : ∃ messages,
    handleRequest refreshJson readPlain (ProcessState.new repoRoot) refreshLine =
      some (basedState plainSnapshot, messages) := exists_messages (by decide)

theorem first_update : ∃ messages,
    snapshotUpdateMessages (ProcessState.new repoRoot) (conflictSnapshot "1") =
      some (basedState (conflictSnapshot "1"), messages) := exists_messages (by decide)

theorem conflict_update : ∃ messages,
    snapshotUpdateMessages (basedState plainSnapshot) (conflictSnapshot "1") =
      some ((basedState plainSnapshot).withBaseline (conflictSnapshot "1"), messages) :=
  exists_messages (by decide)

theorem refreshLine_carriesId : CarriesId refreshJson refreshLine := ⟨_, rfl, by decide⟩

/-- A refresh with an id, and an update with a conflict. -/
theorem client_copy_agrees_conflict : ∃ messages messages' s,
    Lts.Run (VisibleStep refreshJson) (ProcessState.new repoRoot)
      [⟨.line refreshLine readPlain, messages⟩, ⟨.update (conflictSnapshot "1"), messages'⟩] s ∧
    clientCopy (output [⟨.line refreshLine readPlain, messages⟩,
      ⟨.update (conflictSnapshot "1"), messages'⟩]) = s.latestSnapshot := by
  obtain ⟨messages, hline⟩ := refresh_line
  obtain ⟨messages', hupdate⟩ := conflict_update
  have hseen : ∀ previous, (basedState plainSnapshot).latestSnapshot = some previous →
      ¬ HidesPaths previous (conflictSnapshot "1") := by
    intro previous hprevious hhides
    obtain rfl := Option.some.inj hprevious
    exact absurd hhides.1 (by decide)
  have hfirst : Lts.Run (VisibleStep refreshJson) (ProcessState.new repoRoot)
      [⟨.line refreshLine readPlain, messages⟩] (basedState plainSnapshot) :=
    .single ⟨.line hline, refreshLine_carriesId⟩
  have hrun := hfirst.snoc ⟨.update hupdate, hseen⟩
  exact ⟨messages, messages', _, hrun, client_copy_agrees hrun⟩

/-- Two updates that differ in the conflicts only: nothing is sent for the second one, and the copy
of the client stays behind. -/
theorem client_copy_diverges : ∃ messages s,
    Lts.Run (StreamStep refreshJson) (ProcessState.new repoRoot)
      [⟨.update (conflictSnapshot "1"), messages⟩, ⟨.update (conflictSnapshot "2"), []⟩] s ∧
    clientCopy (output [⟨.update (conflictSnapshot "1"), messages⟩,
      ⟨.update (conflictSnapshot "2"), []⟩]) = some (conflictSnapshot "1") ∧
    s.latestSnapshot = some (conflictSnapshot "2") ∧
    conflictSnapshot "1" ≠ conflictSnapshot "2" := by
  obtain ⟨messages, hfirst⟩ := first_update
  have hsecond : snapshotUpdateMessages (basedState (conflictSnapshot "1"))
      (conflictSnapshot "2") =
      some ({ basedState (conflictSnapshot "1") with
        latestSnapshot := some (conflictSnapshot "2") }, []) := rfl
  have hone : Lts.Run (StreamStep refreshJson) (ProcessState.new repoRoot)
      [⟨.update (conflictSnapshot "1"), messages⟩] (basedState (conflictSnapshot "1")) :=
    .single (.update hfirst)
  have hrun := hone.snoc (.update hsecond)
  refine ⟨messages, _, hrun, ?_, rfl, by decide⟩
  have hcopy := update_agrees_of_none hfirst rfl
  have houtput : output [⟨.update (conflictSnapshot "1"), messages⟩,
      ⟨.update (conflictSnapshot "2"), []⟩] = messages := by simp [output]
  rw [houtput]
  exact hcopy

/-! ### The chain of versions -/

/-- A line that wrote a baseline for which nothing was sent. -/
def Suppressed (serde : SerdeJson) (repo : PathBuf) (l : StreamLabel) : Prop :=
  ∃ text read, l.event = .line text read ∧ SilentRefresh serde text ∧
    baselineWrite serde read repo text ≠ none

/-- The versions of the publications are `1, 2, ..., last`; each patch names the version of the
publication right before it, and the first publication is full. -/
def VersionChain (ps : List (Publication RepositorySnapshot SnapshotPatch)) (last : ℕ) : Prop :=
  ps.map Publication.version = List.range' 1 last ∧ Chained 0 ps

theorem toNat_succ {v : UInt64} (h : v.toNat + 1 < 2 ^ 64) : (v + 1).toNat = v.toNat + 1 := by
  rw [UInt64.toNat_add]
  exact Nat.mod_eq_of_lt h

/-- The versions a step takes and sends: a suppressed one takes a version and sends none, and any
other sends the versions it takes. -/
structure StepVersions (serde : SerdeJson) (s : ProcessState) (l : StreamLabel)
    (s' : ProcessState) : Prop where
  sameRepo : s'.repo = s.repo
  based : s'.latestSnapshot ≠ none → s'.latestVersion.toNat ≠ 0
  bound : s'.latestVersion.toNat ≤ s.latestVersion.toNat + 1
  suppressed : Suppressed serde s.repo l →
    publications l.messages = [] ∧ s'.latestVersion.toNat = s.latestVersion.toNat + 1
  sent : ¬ Suppressed serde s.repo l →
    s'.latestVersion.toNat = s.latestVersion.toNat + (publications l.messages).length ∧
    Chained s.latestVersion.toNat (publications l.messages)

section

variable {serde : SerdeJson} {read : SnapshotRead} {s s' : ProcessState} {text : String}
  {snapshot : RepositorySnapshot} {messages : List ServerMessage}

theorem suppressed_line_iff {repo : PathBuf} :
    Suppressed serde repo ⟨.line text read, messages⟩ ↔
      SilentRefresh serde text ∧ baselineWrite serde read repo text ≠ none := by
  constructor
  · rintro ⟨text', read', hevent, hs⟩
    injection hevent with htext hread
    subst htext hread
    exact hs
  · intro hs
    exact ⟨text, read, rfl, hs⟩

theorem not_suppressed_update {repo : PathBuf} :
    ¬ Suppressed serde repo ⟨.update snapshot, messages⟩ := by
  rintro ⟨text, read, hevent, -⟩
  cases hevent

theorem line_versions (h : handleRequest serde read s text = some (s', messages))
    (hlt : s.latestVersion.toNat + 1 < 2 ^ 64)
    (hbased : s.latestSnapshot ≠ none → s.latestVersion.toNat ≠ 0) :
    StepVersions serde s ⟨.line text read, messages⟩ s' := by
  have hsucc := toNat_succ hlt
  have hspec := handleRequest_spec h
  cases hwrite : baselineWrite serde read s.repo text with
  | none =>
      rw [hwrite] at hspec
      obtain ⟨hkeeps, hpubs⟩ := hspec
      refine ⟨hkeeps.repo, ?_, by rw [hkeeps.version]; omega, ?_, ?_⟩
      · rw [hkeeps.snapshot, hkeeps.version]
        exact hbased
      · intro hs
        exact absurd hwrite (suppressed_line_iff.1 hs).2
      · intro _
        simp only [hpubs, hkeeps.version]
        exact ⟨rfl, trivial⟩
  | some write =>
      rw [hwrite] at hspec
      obtain ⟨hwrites, hsilent, hloud⟩ := hspec
      have hversion : s'.latestVersion.toNat = s.latestVersion.toNat + 1 := by
        rw [hwrites.version, hsucc]
      refine ⟨hwrites.repo, fun _ => by omega, by omega, ?_, ?_⟩
      · intro hs
        exact ⟨hsilent (suppressed_line_iff.1 hs).1, hversion⟩
      · intro hs
        have hpubs := hloud fun hsil => hs (suppressed_line_iff.2 ⟨hsil, by simp [hwrite]⟩)
        simp only [hpubs, hversion, hsucc]
        exact ⟨rfl, rfl, trivial⟩

theorem update_versions (h : snapshotUpdateMessages s snapshot = some (s', messages))
    (hlt : s.latestVersion.toNat + 1 < 2 ^ 64)
    (hbased : s.latestSnapshot ≠ none → s.latestVersion.toNat ≠ 0) :
    StepVersions serde s ⟨.update snapshot, messages⟩ s' := by
  have hsucc := toNat_succ hlt
  obtain ⟨hrepo, -, hspec⟩ := snapshotUpdateMessages_spec h
  cases hprevious : s.latestSnapshot with
  | none =>
      rw [hprevious] at hspec
      obtain ⟨hversion, hpubs⟩ := hspec
      rw [← UInt64.toNat_inj, hsucc] at hversion
      refine ⟨hrepo, fun _ => by omega, by omega, fun hs => absurd hs not_suppressed_update, ?_⟩
      intro _
      simp only [hpubs, hversion, hsucc]
      exact ⟨rfl, rfl, trivial⟩
  | some previous =>
      have hnonzero := hbased (by simp [hprevious])
      rw [hprevious] at hspec
      dsimp only at hspec
      split at hspec
      · obtain ⟨hversion, hpubs⟩ := hspec
        rw [← UInt64.toNat_inj, hsucc] at hversion
        refine ⟨hrepo, fun _ => by omega, by omega, fun hs => absurd hs not_suppressed_update, ?_⟩
        intro _
        -- the patch names the version of the baseline it was made against
        simp only [hpubs, hversion, hsucc]
        exact ⟨rfl, ⟨hnonzero, rfl, rfl⟩, trivial⟩
      · obtain ⟨hversion, hnil⟩ := hspec
        rw [← UInt64.toNat_inj] at hversion
        refine ⟨hrepo, fun _ => by omega, by omega, fun hs => absurd hs not_suppressed_update, ?_⟩
        intro _
        simp only [hnil, hversion, publications_nil]
        exact ⟨rfl, trivial⟩

end

theorem step_versions {serde : SerdeJson} {s s' : ProcessState} {l : StreamLabel}
    (h : StreamStep serde s l s') (hlt : s.latestVersion.toNat + 1 < 2 ^ 64)
    (hbased : s.latestSnapshot ≠ none → s.latestVersion.toNat ≠ 0) :
    StepVersions serde s l s' := by
  cases h with
  | line h => exact line_versions h hlt hbased
  | update h => exact update_versions h hlt hbased

/-- What the versions sent in a run have to do with the version it ends in. -/
structure RunVersions (serde : SerdeJson) (repo : PathBuf) (labels : List StreamLabel)
    (s : ProcessState) : Prop where
  sameRepo : s.repo = repo
  bound : s.latestVersion.toNat ≤ labels.length
  based : s.latestSnapshot ≠ none → s.latestVersion.toNat ≠ 0
  sent : (publications (output labels)).length ≤ s.latestVersion.toNat
  suppressed : (∃ l ∈ labels, Suppressed serde repo l) →
    (publications (output labels)).length < s.latestVersion.toNat
  chained : (∀ l ∈ labels, ¬ Suppressed serde repo l) →
    (publications (output labels)).length = s.latestVersion.toNat ∧
    Chained 0 (publications (output labels))

theorem run_versions {serde : SerdeJson} {repo : PathBuf} {labels : List StreamLabel}
    {s : ProcessState} (h : Lts.Run (StreamStep serde) (ProcessState.new repo) labels s)
    (hlen : labels.length < 2 ^ 64) : RunVersions serde repo labels s := by
  induction h with
  | nil =>
      refine ⟨rfl, le_refl _, fun h => absurd rfl h, le_refl _, ?_, fun _ => ⟨rfl, trivial⟩⟩
      rintro ⟨l, hl, -⟩
      cases hl
  | @snoc labels s l s' _ hstep ih =>
      have hlength : (labels ++ [l]).length = labels.length + 1 := by simp
      rw [hlength] at hlen
      obtain ⟨hrepo, hbound, hbased, hsent, hsup, hchain⟩ := ih (by omega)
      obtain ⟨srepo, sbased, sbound, ssup, ssent⟩ := step_versions hstep (by omega) hbased
      rw [hrepo] at srepo ssup ssent
      have hpubs : (publications (output (labels ++ [l]))).length =
          (publications (output labels)).length + (publications l.messages).length := by
        rw [publications_output_concat, List.length_append]
      by_cases hl : Suppressed serde repo l
      · obtain ⟨hnil, hversion⟩ := ssup hl
        rw [hnil, List.length_nil, Nat.add_zero] at hpubs
        refine ⟨srepo, by omega, sbased, by omega, fun _ => by omega, ?_⟩
        intro hall
        exact absurd hl (hall l (List.mem_append_right _ (List.mem_singleton.2 rfl)))
      · obtain ⟨hversion, hchained⟩ := ssent hl
        refine ⟨srepo, by omega, sbased, by omega, ?_, ?_⟩
        · rintro ⟨l', hl', hs'⟩
          rcases List.mem_append.1 hl' with hl' | hl'
          · have hlt := hsup ⟨l', hl', hs'⟩
            omega
          · rw [List.mem_singleton.1 hl'] at hs'
            exact absurd hs' hl
        · intro hall
          obtain ⟨heq, hch⟩ := hchain fun l' hl' => hall l' (List.mem_append_left _ hl')
          refine ⟨by omega, ?_⟩
          rw [publications_output_concat, Replica.chained_append, heq]
          exact ⟨hch, by simpa using hchained⟩

/-- In every run of fewer than `2 ^ 64` lines and updates, the versions sent to the client are
`1, 2, ...` up to the last version, the first of them with a full snapshot, and every delta names
the version before its own, exactly when no line was a refresh without id that wrote a baseline. -/
theorem version_chain_iff {serde : SerdeJson} {repo : PathBuf} {labels : List StreamLabel}
    {s : ProcessState} (h : Lts.Run (StreamStep serde) (ProcessState.new repo) labels s)
    (hlen : labels.length < 2 ^ 64) :
    VersionChain (publications (output labels)) s.latestVersion.toNat ↔
      ∀ l ∈ labels, ¬ Suppressed serde repo l := by
  have hrun := run_versions h hlen
  constructor
  · rintro ⟨hversions, -⟩ l hl hs
    have hlt := hrun.suppressed ⟨l, hl, hs⟩
    have heq := congrArg List.length hversions
    rw [List.length_map, List.length_range'] at heq
    omega
  · intro hall
    obtain ⟨heq, hchain⟩ := hrun.chained hall
    refine ⟨?_, hchain⟩
    rw [hchain.versions, heq]

/-- A refresh with an id, and an update. -/
theorem version_chain_iff_conflict : ∃ messages messages' s,
    Lts.Run (StreamStep refreshJson) (ProcessState.new repoRoot)
      [⟨.line refreshLine readPlain, messages⟩, ⟨.update (conflictSnapshot "1"), messages'⟩] s ∧
    VersionChain (publications (output [⟨.line refreshLine readPlain, messages⟩,
      ⟨.update (conflictSnapshot "1"), messages'⟩])) s.latestVersion.toNat := by
  obtain ⟨messages, hline⟩ := refresh_line
  obtain ⟨messages', hupdate⟩ := conflict_update
  have hone : Lts.Run (StreamStep refreshJson) (ProcessState.new repoRoot)
      [⟨.line refreshLine readPlain, messages⟩] (basedState plainSnapshot) :=
    .single (.line hline)
  have hrun := hone.snoc (.update hupdate)
  refine ⟨messages, messages', _, hrun, (version_chain_iff hrun (by simp)).2 ?_⟩
  intro l hl
  rcases List.mem_append.1 hl with hl | hl
  · rw [List.mem_singleton.1 hl, suppressed_line_iff]
    exact fun hs => refreshLine_carriesId.not_silentRefresh hs.1
  · rw [List.mem_singleton.1 hl]
    exact not_suppressed_update

/-- A refresh without id takes the first version and sends nothing; the delta that follows is the
first versioned message, and names a version that was never sent. -/
theorem version_chain_broken : ∃ messages s,
    Lts.Run (StreamStep refreshJson) (ProcessState.new repoRoot)
      [⟨.line silentLine readPlain, []⟩, ⟨.update (conflictSnapshot "1"), messages⟩] s ∧
    publications (output [⟨.line silentLine readPlain, []⟩,
      ⟨.update (conflictSnapshot "1"), messages⟩]) =
      [.delta 1 2 (SnapshotPatch.fromDelta (conflictSnapshot "1")
        (snapshotDelta plainSnapshot (conflictSnapshot "1")))] ∧
    s.latestVersion.toNat = 2 ∧
    ¬ VersionChain (publications (output [⟨.line silentLine readPlain, []⟩,
      ⟨.update (conflictSnapshot "1"), messages⟩])) s.latestVersion.toNat := by
  obtain ⟨messages, hupdate⟩ := conflict_update
  have hline : handleRequest refreshJson readPlain (ProcessState.new repoRoot) silentLine =
      some (basedState plainSnapshot, []) := rfl
  have hone : Lts.Run (StreamStep refreshJson) (ProcessState.new repoRoot)
      [⟨.line silentLine readPlain, []⟩] (basedState plainSnapshot) :=
    .single (.line hline)
  have hrun := hone.snoc (.update hupdate)
  have hpubs : publications (output [⟨.line silentLine readPlain, []⟩,
      ⟨.update (conflictSnapshot "1"), messages⟩]) =
      [.delta 1 2 (SnapshotPatch.fromDelta (conflictSnapshot "1")
        (snapshotDelta plainSnapshot (conflictSnapshot "1")))] := by
    have hchanges : (snapshotDelta plainSnapshot (conflictSnapshot "1")).hasChanges = true := by
      decide
    have hspec := (snapshotUpdateMessages_spec hupdate).2.2
    have houtput : output [⟨.line silentLine readPlain, []⟩,
        ⟨.update (conflictSnapshot "1"), messages⟩] = messages := by simp [output]
    rw [houtput]
    change (if (snapshotDelta plainSnapshot (conflictSnapshot "1")).hasChanges = true
      then _ else _) at hspec
    rw [if_pos hchanges] at hspec
    exact hspec.2
  refine ⟨messages, _, hrun, hpubs, rfl, ?_⟩
  rw [hpubs]
  rintro ⟨hversions, -⟩
  exact absurd hversions (by decide)

end Gitseer
