/-
**What a client of the worker sees.**

A client keeps a copy of the repository snapshot.  It takes over the snapshot of every answered
refresh and of every snapshot notification, and applies the patch of every delta notification.  In
the terms of `Replica`, these three kinds of messages are the publications of the worker.

This module says, once for each operation, what it does to the baseline of the worker and which
publications it sends.  What holds in every run is derived from that in `Gitseer.Protocol.Runs`.

Main definitions:

* `applyPatchToSnapshot`, `publication`, `clientCopy` — the client;
* `baselineWrite`, `SilentRefresh` — which lines write a baseline, and which do so in silence;
* `KeepsBaseline`, `WritesBaseline` — what an operation does to the baseline.

Main results:

* `handleRequest_spec`, `snapshotUpdateMessages_spec` — one lemma for each operation;
* `applyPatch_fromDelta` — what the patch of an update makes of the older snapshot.
-/

import Gitseer.Lib.Replica
import Gitseer.Protocol.Process

set_option relaxedAutoImplicit false
set_option autoImplicit false

open StdPath (PathBuf)
open Json (Value)
open Replica (Publication receiveAll Chained)

namespace Gitseer

/-! ### The client -/

/-- The sections present in a patch overwrite those of a snapshot. -/
def applyPatchToSnapshot (snapshot : RepositorySnapshot) (patch : SnapshotPatch) :
    RepositorySnapshot where
  identity := patch.identity.getD snapshot.identity
  head := patch.head.getD snapshot.head
  headCommit := patch.headCommit.getD snapshot.headCommit
  upstream := patch.upstream.getD snapshot.upstream
  paths := patch.paths.getD snapshot.paths
  operation := patch.operation.getD snapshot.operation
  remotes := patch.remotes.getD snapshot.remotes
  branches := patch.branches.getD snapshot.branches
  tags := patch.tags.getD snapshot.tags
  stashes := patch.stashes.getD snapshot.stashes
  worktrees := patch.worktrees.getD snapshot.worktrees
  submodules := patch.submodules.getD snapshot.submodules

/-- What a client learns from the result of a refresh or the parameters of a snapshot
notification.  It takes integers of any size. -/
def fullPublication (v : Value) : Option (Publication RepositorySnapshot SnapshotPatch) :=
  (Wire.snapshotNotificationParamsCodec.dec v).map fun p => .full p.version.toNat p.snapshot

/-- What a client learns from the parameters of a delta notification. -/
def deltaPublication (v : Value) : Option (Publication RepositorySnapshot SnapshotPatch) :=
  (Wire.deltaNotificationParamsCodec.dec v).map fun p =>
    .delta p.previousVersion.toNat p.version.toNat p.patch

/-- The publication a message carries, if it carries one. -/
def publication : ServerMessage → Option (Publication RepositorySnapshot SnapshotPatch)
  | .response response => response.result.bind fullPublication
  | .notification notification =>
      if notification.method = "gitseer/snapshot" then notification.params.bind fullPublication
      else if notification.method = "gitseer/delta" then notification.params.bind deltaPublication
      else none

/-- The publications of a list of messages. -/
def publications (messages : List ServerMessage) :
    List (Publication RepositorySnapshot SnapshotPatch) :=
  messages.filterMap publication

/-- The copy of a client that received the messages. -/
def clientCopy (messages : List ServerMessage) : Option RepositorySnapshot :=
  receiveAll applyPatchToSnapshot none (publications messages)

/-! ### The publications of the messages the worker sends -/

@[simp] theorem publications_nil : publications [] = [] := rfl

@[simp] theorem publication_errorResponse (id : Value) (code : ℤ) (message : String)
    (data : Option String) : publication (errorResponse id code message data) = none := rfl

@[simp] theorem publication_readFailed (id : Value) (e : SnapshotError) :
    publication (readFailed id e) = none := rfl

@[simp] theorem publication_capabilities (id : Value) :
    publication (successResponse id capabilities) = none := rfl

@[simp] theorem publication_subscribed (id : Value) (b : Bool) :
    publication (successResponse id (.object [("subscribed", .bool b)])) = none := rfl

/-- The result of `gitseer/getSnapshot` has no version. -/
theorem publication_getSnapshot {id v : Value} {snapshot : RepositorySnapshot}
    (h : Wire.repositorySnapshotCodec.enc snapshot = some v) :
    publication (successResponse id v) = none := by
  obtain ⟨o, rfl, hnames⟩ := Json.Codec.struct_enc h
  have hversion : "version" ∉ o.names := fun hmem => absurd (hnames _ hmem) (by decide)
  have hdec : (Json.Fields.field "version" Wire.u64).dec o = none :=
    Json.Fields.field_dec_of_missing rfl (Json.lookup_eq_none_of_not_mem hversion)
  simp [publication, successResponse, fullPublication, Wire.snapshotNotificationParamsCodec,
    Json.Codec.struct, Json.Fields.and, hdec]

theorem fullPublication_enc {params : SnapshotNotificationParams} {v : Value}
    (h : Wire.snapshotNotificationParamsCodec.enc params = some v) :
    fullPublication v = some (.full params.version.toNat params.snapshot) := by
  simp [fullPublication, Wire.snapshotNotificationParamsCodec.dec_enc h]

theorem publication_refresh {id v : Value} {params : SnapshotNotificationParams}
    (h : Wire.snapshotNotificationParamsCodec.enc params = some v) :
    publication (successResponse id v) = some (.full params.version.toNat params.snapshot) :=
  fullPublication_enc h

theorem publication_snapshotNotification {params : SnapshotNotificationParams}
    {message : ServerMessage} (h : snapshotNotification params = some message) :
    publication message = some (.full params.version.toNat params.snapshot) ∧
      message.isNotification = true := by
  obtain ⟨v, hv, hm⟩ := Option.bind_eq_some_iff.1 h
  obtain rfl := Option.some.inj hm
  exact ⟨fullPublication_enc hv, rfl⟩

theorem publication_delta {params : DeltaNotificationParams} {v : Value}
    (h : Wire.deltaNotificationParamsCodec.enc params = some v) :
    publication (notify "gitseer/delta" v) =
      some (.delta params.previousVersion.toNat params.version.toNat params.patch) := by
  simp [publication, notify, deltaPublication, Wire.deltaNotificationParamsCodec.dec_enc h]

/-! ### Which lines write a baseline -/

/-- The options with which a request has a baseline read. -/
def baselineOptions (serde : SerdeJson) (request : JsonRpcRequest) : Option SnapshotOptions :=
  if request.method = "gitseer/refresh" then (snapshotOptions serde request.params).toOption
  else if request.method = "gitseer/subscribe" then some {}
  else none

/-- The baseline a line writes, with the options it is read with. -/
def baselineWrite (serde : SerdeJson) (read : SnapshotRead) (repo : PathBuf) (line : String) :
    Option (SnapshotOptions × RepositorySnapshot) := do
  let (request, _) ← (parseRequest serde line).toOption
  let options ← baselineOptions serde request
  let snapshot ← (read repo options).toOption
  some (options, snapshot)

/-- The line asks for a refresh and has no id, so that nothing is sent for it. -/
def SilentRefresh (serde : SerdeJson) (line : String) : Prop :=
  ∃ request, parseRequest serde line = .ok (request, true) ∧ request.method = "gitseer/refresh"

/-! ### What one operation does -/

/-- The operation leaves the baseline and its version as they are. -/
structure KeepsBaseline (s s' : ProcessState) : Prop where
  repo : s'.repo = s.repo
  snapshot : s'.latestSnapshot = s.latestSnapshot
  version : s'.latestVersion = s.latestVersion

/-- The operation writes a new baseline under the next version. -/
structure WritesBaseline (s s' : ProcessState) (snapshot : RepositorySnapshot) : Prop where
  repo : s'.repo = s.repo
  snapshot : s'.latestSnapshot = some snapshot
  version : s'.latestVersion = s.latestVersion + 1

section

variable {serde : SerdeJson} {read : SnapshotRead} {s s' : ProcessState}
  {messages : List ServerMessage} {request : JsonRpcRequest}

/-- Messages without a publication stay so when some of them are filtered. -/
theorem publications_responseMessages_eq_nil (h : ∀ m ∈ messages, publication m = none)
    (isNotification : Bool) : publications (responseMessages messages isNotification) = [] := by
  rw [publications, List.filterMap_eq_nil_iff]
  intro m hm
  unfold responseMessages at hm
  split at hm
  · exact h m (List.mem_of_mem_filter hm)
  · exact h m hm

theorem respondGetSnapshot_spec {id : Value}
    (h : respondGetSnapshot serde read s request id = some (s', messages)) :
    s' = s ∧ ∀ m ∈ messages, publication m = none := by
  unfold respondGetSnapshot at h
  cases hopt : snapshotOptions serde request.params with
  | error e =>
      rw [hopt] at h
      obtain ⟨rfl, rfl⟩ := Prod.mk.inj (Option.some.inj h)
      simp
  | ok options =>
      rw [hopt] at h
      cases hread : read s.repo options with
      | error e =>
          simp only [hread] at h
          obtain ⟨rfl, rfl⟩ := Prod.mk.inj (Option.some.inj h)
          simp
      | ok snapshot =>
          simp only [hread] at h
          obtain ⟨v, hv, hm⟩ := Option.bind_eq_some_iff.1 h
          obtain ⟨rfl, rfl⟩ := Prod.mk.inj (Option.some.inj hm)
          simpa using publication_getSnapshot hv

/-- A refresh writes the baseline it reads, and its response carries it. -/
theorem respondRefresh_spec {id : Value}
    (h : respondRefresh serde read s request id = some (s', messages)) :
    match (snapshotOptions serde request.params).toOption.bind fun options =>
        (read s.repo options).toOption with
    | none => KeepsBaseline s s' ∧ ∀ m ∈ messages, publication m = none
    | some snapshot => WritesBaseline s s' snapshot ∧ ∃ m, messages = [m] ∧
        m.isNotification = false ∧
        publication m = some (.full (s.latestVersion + 1).toNat snapshot) := by
  unfold respondRefresh at h
  cases hopt : snapshotOptions serde request.params with
  | error e =>
      rw [hopt] at h
      obtain ⟨rfl, rfl⟩ := Prod.mk.inj (Option.some.inj h)
      exact ⟨⟨rfl, rfl, rfl⟩, by simp⟩
  | ok options =>
      rw [hopt] at h
      cases hread : read s.repo options with
      | error e =>
          simp only [hread] at h
          obtain ⟨rfl, rfl⟩ := Prod.mk.inj (Option.some.inj h)
          simp only [Except.toOption, Option.bind_some, hread]
          exact ⟨⟨rfl, rfl, rfl⟩, by simp⟩
      | ok snapshot =>
          simp only [hread] at h
          obtain ⟨v, hv, hm⟩ := Option.bind_eq_some_iff.1 h
          obtain ⟨rfl, rfl⟩ := Prod.mk.inj (Option.some.inj hm)
          simp only [Except.toOption, Option.bind_some, hread]
          exact ⟨⟨rfl, rfl, rfl⟩, _, rfl, rfl, publication_refresh hv⟩

/-- A subscription writes the baseline it reads, and a notification carries it. -/
theorem respondSubscribe_spec {id : Value}
    (h : respondSubscribe read s id = some (s', messages)) :
    match (read s.repo {}).toOption with
    | none => KeepsBaseline s s' ∧ ∀ m ∈ messages, publication m = none
    | some snapshot => WritesBaseline s s' snapshot ∧ ∃ answer m, messages = [answer, m] ∧
        publication answer = none ∧ answer.isNotification = false ∧ m.isNotification = true ∧
        publication m = some (.full (s.latestVersion + 1).toNat snapshot) := by
  unfold respondSubscribe at h
  cases hread : read s.repo {} with
  | error e =>
      simp only [hread] at h
      obtain ⟨rfl, rfl⟩ := Prod.mk.inj (Option.some.inj h)
      exact ⟨⟨rfl, rfl, rfl⟩, by simp⟩
  | ok snapshot =>
      simp only [hread] at h
      obtain ⟨m, hm, hrest⟩ := Option.bind_eq_some_iff.1 h
      obtain ⟨rfl, rfl⟩ := Prod.mk.inj (Option.some.inj hrest)
      obtain ⟨hpub, hnot⟩ := publication_snapshotNotification hm
      exact ⟨⟨rfl, rfl, rfl⟩, _, m, rfl, rfl, rfl, hnot, hpub⟩

/-- What a request does to the baseline, and what is sent for it. -/
theorem respond_spec (h : respond serde read s request = some (s', messages))
    (isNotification : Bool) :
    match (baselineOptions serde request).bind fun options => (read s.repo options).toOption with
    | none => KeepsBaseline s s' ∧ publications (responseMessages messages isNotification) = []
    | some snapshot => WritesBaseline s s' snapshot ∧
        publications (responseMessages messages isNotification) =
          if request.method = "gitseer/refresh" ∧ isNotification = true then []
          else [.full (s.latestVersion + 1).toNat snapshot] := by
  unfold respond at h
  dsimp only at h
  by_cases hinit : request.method = "initialize"
  · rw [if_pos hinit] at h
    obtain ⟨rfl, rfl⟩ := Prod.mk.inj (Option.some.inj h)
    simp only [baselineOptions, hinit]
    exact ⟨⟨rfl, rfl, rfl⟩, publications_responseMessages_eq_nil (by simp) _⟩
  rw [if_neg hinit] at h
  by_cases hget : request.method = "gitseer/getSnapshot"
  · rw [if_pos hget] at h
    obtain ⟨rfl, hnone⟩ := respondGetSnapshot_spec h
    simp only [baselineOptions, hget]
    exact ⟨⟨rfl, rfl, rfl⟩, publications_responseMessages_eq_nil hnone _⟩
  rw [if_neg hget] at h
  by_cases hrefresh : request.method = "gitseer/refresh"
  · rw [if_pos hrefresh] at h
    have hspec := respondRefresh_spec h
    simp only [baselineOptions, hrefresh, if_true]
    split
    · next hread =>
        rw [hread] at hspec
        exact ⟨hspec.1, publications_responseMessages_eq_nil hspec.2 _⟩
    · next snapshot hread =>
        rw [hread] at hspec
        obtain ⟨hwrites, m, rfl, hm, hpub⟩ := hspec
        refine ⟨hwrites, ?_⟩
        cases isNotification with
        | false => simp [responseMessages, publications, hpub]
        | true => simp [responseMessages, publications, hm]
  rw [if_neg hrefresh] at h
  by_cases hsub : request.method = "gitseer/subscribe"
  · rw [if_pos hsub] at h
    have hspec := respondSubscribe_spec h
    have hopt : baselineOptions serde request = some {} := by simp [baselineOptions, hsub]
    simp only [hopt, Option.bind_some, hrefresh, false_and, if_false]
    split
    · next hread =>
        rw [hread] at hspec
        exact ⟨hspec.1, publications_responseMessages_eq_nil hspec.2 _⟩
    · next snapshot hread =>
        rw [hread] at hspec
        obtain ⟨hwrites, answer, m, rfl, hanswer, hanswerNot, hm, hpub⟩ := hspec
        refine ⟨hwrites, ?_⟩
        cases isNotification with
        | false => simp [responseMessages, publications, hanswer, hpub]
        | true => simp [responseMessages, publications, hanswerNot, hm, hpub]
  rw [if_neg hsub] at h
  have hopt : baselineOptions serde request = none := by simp [baselineOptions, hrefresh, hsub]
  simp only [hopt, Option.bind_none]
  -- the remaining methods leave the baseline alone and are answered without a version
  split at h
  · obtain ⟨rfl, rfl⟩ := Prod.mk.inj (Option.some.inj h)
    exact ⟨⟨rfl, rfl, rfl⟩, publications_responseMessages_eq_nil (by simp) _⟩
  · split at h
    · obtain ⟨rfl, rfl⟩ := Prod.mk.inj (Option.some.inj h)
      exact ⟨⟨rfl, rfl, rfl⟩, publications_responseMessages_eq_nil (by simp) _⟩
    · obtain ⟨rfl, rfl⟩ := Prod.mk.inj (Option.some.inj h)
      exact ⟨⟨rfl, rfl, rfl⟩, publications_responseMessages_eq_nil (by simp) _⟩

/-- Options that are not accepted are an error in the parameters. -/
theorem snapshotOptions_error {params : Option Value} {e : ErrorObject}
    (h : snapshotOptions serde params = .error e) : e.code = invalidParams := by
  unfold snapshotOptions at h
  split at h
  · cases h
  · split at h
    · cases h
    · split at h
      · cases h
      · exact Except.error.inj h ▸ rfl

/-- A line that holds no request is answered by one error. -/
theorem exists_error_of_parseRequest {line : String}
    (h : parseRequest serde line = .error messages) :
    ∃ id code message data, messages = [errorResponse id code message data] := by
  unfold parseRequest at h
  cases hline : parseLine serde line with
  | error rejected =>
      rw [hline] at h
      obtain rfl := Except.error.inj h
      unfold parseLine at hline
      split at hline
      · exact ⟨_, _, _, _, (Except.error.inj hline).symm⟩
      · split at hline
        · exact ⟨_, _, _, _, (Except.error.inj hline).symm⟩
        · cases hline
  | ok o =>
      cases hobject : parseRequestObject serde o with
      | error rejected =>
          rw [hline, Result.ok_bind, hobject] at h
          obtain rfl := Except.error.inj h
          unfold parseRequestObject at hobject
          repeat' split at hobject
          all_goals first
            | exact ⟨_, _, _, _, (Except.error.inj hobject).symm⟩
            | cases hobject
      | ok request =>
          rw [hline, Result.ok_bind, hobject] at h
          cases h

theorem parseRequest_error {line : String} (h : parseRequest serde line = .error messages) :
    ∀ m ∈ messages, publication m = none := by
  obtain ⟨id, code, message, data, rfl⟩ := exists_error_of_parseRequest h
  simp

/-- What a line does to the baseline, and what is sent for it. -/
theorem handleRequest_spec {line : String}
    (h : handleRequest serde read s line = some (s', messages)) :
    match baselineWrite serde read s.repo line with
    | none => KeepsBaseline s s' ∧ publications messages = []
    | some (_, snapshot) => WritesBaseline s s' snapshot ∧
        (SilentRefresh serde line → publications messages = []) ∧
        (¬ SilentRefresh serde line →
          publications messages = [.full (s.latestVersion + 1).toNat snapshot]) := by
  unfold handleRequest at h
  cases hparse : parseRequest serde line with
  | error rejected =>
      rw [hparse] at h
      obtain ⟨rfl, rfl⟩ := Prod.mk.inj (Option.some.inj h)
      simp only [baselineWrite, hparse, Except.toOption, Option.bind_eq_bind, Option.bind_none]
      exact ⟨⟨rfl, rfl, rfl⟩, List.filterMap_eq_nil_iff.2 (parseRequest_error hparse)⟩
  | ok parsed =>
      obtain ⟨request, isNotification⟩ := parsed
      rw [hparse] at h
      obtain ⟨⟨state, sent⟩, hrespond, hm⟩ := Option.bind_eq_some_iff.1 h
      obtain ⟨rfl, rfl⟩ := Prod.mk.inj (Option.some.inj hm)
      have hspec := respond_spec hrespond isNotification
      have hsilent : SilentRefresh serde line ↔
          request.method = "gitseer/refresh" ∧ isNotification = true := by
        constructor
        · rintro ⟨request', hparse', hmethod⟩
          rw [hparse] at hparse'
          obtain ⟨rfl, rfl⟩ := Prod.mk.inj (Except.ok.inj hparse')
          exact ⟨hmethod, rfl⟩
        · rintro ⟨hmethod, rfl⟩
          exact ⟨request, hparse, hmethod⟩
      have hwrite : baselineWrite serde read s.repo line =
          (baselineOptions serde request).bind fun options =>
            (read s.repo options).toOption.map fun snapshot => (options, snapshot) := by
        simp only [baselineWrite, hparse, Except.toOption, Option.bind_eq_bind, Option.bind_some]
        cases baselineOptions serde request with
        | none => rfl
        | some options =>
            simp only [Option.bind_some]
            cases read s.repo options <;> rfl
      rw [hwrite, hsilent]
      cases hopt : baselineOptions serde request with
      | none =>
          rw [hopt] at hspec
          exact hspec
      | some options =>
          rw [hopt] at hspec
          simp only [Option.bind_some] at hspec ⊢
          cases hread : (read s.repo options).toOption with
          | none =>
              rw [hread] at hspec
              exact hspec
          | some snapshot =>
              rw [hread] at hspec
              refine ⟨hspec.1, fun hs => ?_, fun hs => ?_⟩
              · rw [hspec.2, if_pos hs]
              · rw [hspec.2, if_neg hs]

end

/-- A section that is carried when it differs takes the copy to the newer section. -/
theorem getD_carried {α : Type} {differs : Bool} {previous current : α}
    (h : differs = false → previous = current) :
    (if differs = true then some current else none).getD previous = current := by
  cases differs with
  | true => rfl
  | false => exact h rfl

/-- Applying the patch of an update: every section becomes the newer one, but for a path section
that compares as equal. -/
theorem applyPatch_fromDelta (previous current : RepositorySnapshot) :
    applyPatchToSnapshot previous
        (SnapshotPatch.fromDelta current (snapshotDelta previous current)) =
      { current with
        paths :=
          if previous.paths.Alike current.paths then previous.paths else current.paths } := by
  have hpaths : (if (pathDelta previous.paths current.paths).hasChanges = true
        then some current.paths else none).getD previous.paths =
      if previous.paths.Alike current.paths then previous.paths else current.paths := by
    by_cases h : previous.paths.Alike current.paths
    · rw [if_pos h, pathDelta_hasChanges.2 h]
      rfl
    · have hchanges : (pathDelta previous.paths current.paths).hasChanges = true := by
        simpa using fun hfalse => h (pathDelta_hasChanges.1 hfalse)
      rw [if_neg h, hchanges]
      rfl
  have hhead : (snapshotDelta previous current).headChanged = false →
      previous.head = current.head ∧ previous.headCommit = current.headCommit := by
    simp [snapshotDelta]
  simp only [applyPatchToSnapshot, SnapshotPatch.fromDelta, RepositorySnapshot.mk.injEq]
  refine ⟨getD_carried ?_, getD_carried fun h => (hhead h).1, getD_carried fun h => (hhead h).2,
    getD_carried ?_, hpaths, getD_carried ?_, getD_carried ?_, getD_carried ?_, getD_carried ?_,
    getD_carried ?_, getD_carried ?_, getD_carried ?_⟩
  all_goals simp [snapshotDelta]

/-- What an automatic update does to the baseline, and what is sent for it. -/
theorem snapshotUpdateMessages_spec {s s' : ProcessState} {snapshot : RepositorySnapshot}
    {messages : List ServerMessage}
    (h : snapshotUpdateMessages s snapshot = some (s', messages)) :
    s'.repo = s.repo ∧ s'.latestSnapshot = some snapshot ∧
    match s.latestSnapshot with
    | none => s'.latestVersion = s.latestVersion + 1 ∧
        publications messages = [.full (s.latestVersion + 1).toNat snapshot]
    | some previous =>
        if (snapshotDelta previous snapshot).hasChanges = true then
          s'.latestVersion = s.latestVersion + 1 ∧
          publications messages = [.delta s.latestVersion.toNat (s.latestVersion + 1).toNat
            (SnapshotPatch.fromDelta snapshot (snapshotDelta previous snapshot))]
        else s'.latestVersion = s.latestVersion ∧ messages = [] := by
  unfold snapshotUpdateMessages at h
  cases hlatest : s.latestSnapshot with
  | none =>
      simp only [hlatest] at h
      obtain ⟨m, hm, hrest⟩ := Option.bind_eq_some_iff.1 h
      obtain ⟨rfl, rfl⟩ := Prod.mk.inj (Option.some.inj hrest)
      have hpub := (publication_snapshotNotification hm).1
      exact ⟨rfl, rfl, rfl, List.filterMap_cons_some hpub⟩
  | some previous =>
      simp only [hlatest, ProcessState.recordUpdate] at h
      cases hchanges : (snapshotDelta previous snapshot).hasChanges with
      | false =>
          simp only [hchanges, Bool.not_false, if_true] at h
          obtain ⟨rfl, rfl⟩ := Prod.mk.inj (Option.some.inj h)
          exact ⟨rfl, rfl, by simp [hchanges]⟩
      | true =>
          simp only [hchanges, Bool.not_true, Bool.false_eq_true, if_false] at h
          obtain ⟨v, hv, hrest⟩ := Option.bind_eq_some_iff.1 h
          obtain ⟨rfl, rfl⟩ := Prod.mk.inj (Option.some.inj hrest)
          refine ⟨rfl, rfl, ?_⟩
          simp only [hchanges, if_true]
          exact ⟨rfl, List.filterMap_cons_some (publication_delta hv)⟩

end Gitseer
