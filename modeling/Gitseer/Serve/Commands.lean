/-
**The commands of the program, and what they promise each other.**

The program prints its capabilities, prints one snapshot, checks a path, or serves.  Whoever runs
`gitseer snapshot` or `gitseer validate` before `gitseer serve` takes what comes out as a promise
about the session that follows.  As long as the repository stays as it is, it is one.  Where the
snapshot could be printed, the session never fails on the repository: no request is answered with an
internal error, a request for the snapshot is answered with the value that was printed, and the
worker only stops when its input ends or its watcher is lost.  Where the path leads to no
repository, both commands fail with the error that every request of the session is then answered
with, nothing is published, and the first refresh for a subscriber stops the worker.

Main definitions:

* `Config`, with `validate` — the startup configuration;
* `Command`, `main` — the commands, and what comes out;
* `SteadyTurn` — a turn of the worker while the repository stays as it is.

Main results:

* `handleRequest_notInternal` — where the repository can be read, no answer is an internal error;
* `serveTurn_ends_why` — why the loop stops;
* `readable_session` — a session on a repository whose snapshot can be printed;
* `unreadable_session` — a session on a path that leads to no repository.
-/

import Gitseer.Serve.Transcript

set_option relaxedAutoImplicit false
set_option autoImplicit false

open StdPath (PathBuf)
open Json (Value)

namespace Gitseer

/-! ### The commands -/

structure Config where
  repo : PathBuf
  deriving DecidableEq

namespace Config

def new (repo : PathBuf) : Config := { repo := repo }

/-- A configuration is valid when a snapshot can be read; the snapshot itself is dropped. -/
def validate (discover : Discover) (self : Config) : Except SnapshotError Config := do
  let _ ← snapshotRepository discover self.repo
  .ok self

end Config

namespace Wire

def configCodec : Json.Codec Config :=
  .struct (.field "repo" pathBuf) (fun s => s.repo) (fun repo => ⟨repo⟩)

end Wire

inductive Command
  | capabilities
  | snapshot (repo : PathBuf)
  | serve (repo : PathBuf)
  | validate (repo : PathBuf)

/-- What a run of the program comes to: a value is printed, a value has no JSON form, the repository
could not be read, or the worker takes its turns. -/
inductive Outcome
  | printed (value : Value)
  | unprintable
  | failed (e : SnapshotError)
  | serves (s : ServeState)

/-- `print_json`. -/
def printJson {α : Type} (c : Json.Codec α) (a : α) : Outcome :=
  match c.enc a with
  | some value => .printed value
  | none => .unprintable

/-- `main`; without a command the capabilities are printed. -/
def main (discover : Discover) : Option Command → Outcome
  | some .capabilities => .printed capabilities
  | some (.snapshot repo) =>
      match snapshotRepository discover repo with
      | .ok snapshot => printJson Wire.repositorySnapshotCodec snapshot
      | .error e => .failed e
  | some (.serve repo) => .serves (.new repo)
  | some (.validate repo) =>
      match (Config.new repo).validate discover with
      | .ok config => printJson Wire.configCodec config
      | .error e => .failed e
  | none => .printed capabilities

section

variable {discover : Discover} {repo : PathBuf} {e : SnapshotError}

/-- The snapshot is printed when it can be read and has UTF-8 paths only. -/
theorem main_snapshot_printed {value : Value}
    (h : main discover (some (.snapshot repo)) = .printed value) :
    ∃ snapshot, snapshotRepository discover repo = .ok snapshot ∧ snapshot.Utf8Paths ∧
      Wire.repositorySnapshotCodec.enc snapshot = some value := by
  simp only [main] at h
  cases hread : snapshotRepository discover repo with
  | error e =>
      rw [hread] at h
      cases h
  | ok snapshot =>
      rw [hread] at h
      simp only [printJson] at h
      cases henc : Wire.repositorySnapshotCodec.enc snapshot with
      | none =>
          rw [henc] at h
          cases h
      | some v =>
          rw [henc] at h
          obtain rfl := Outcome.printed.inj h
          refine ⟨snapshot, rfl, (Wire.encodes_repositorySnapshot snapshot).1 ?_, henc⟩
          rw [Json.Codec.Encodes, henc]
          rfl

theorem main_snapshot_failed (h : snapshotRepository discover repo = .error e) :
    main discover (some (.snapshot repo)) = .failed e := by
  simp only [main, h]

theorem main_validate_failed (h : snapshotRepository discover repo = .error e) :
    main discover (some (.validate repo)) = .failed e := by
  simp only [main, Config.validate, Config.new, h]
  rfl

/-- Where no repository is found, no options help. -/
theorem snapshot_of_undiscovered (h : discoverRepository discover repo = .error e)
    (options : SnapshotOptions) :
    snapshotRepositoryWithOptions discover repo options = .error e := by
  rw [snapshotRepositoryWithOptions, h]
  rfl

end

/-! ### What an internal error says -/

section

variable {serde : SerdeJson} {read : SnapshotRead} {s s' : ProcessState} {line : String}
  {messages : List ServerMessage} {request : JsonRpcRequest} {id : Value}

/-- A line that holds no request is not answered with an internal error. -/
theorem parseRequest_not_internal (h : parseRequest serde line = .error messages) :
    ∀ e ∈ errors messages, e.code ≠ internalError := by
  have hcode : ∃ id code message data, messages = [errorResponse id code message data] ∧
      (code = parseError ∨ code = invalidRequest) := by
    unfold parseRequest at h
    cases hline : parseLine serde line with
    | error rejected =>
        rw [hline] at h
        obtain rfl := Except.error.inj h
        unfold parseLine at hline
        split at hline
        · exact ⟨_, _, _, _, (Except.error.inj hline).symm, .inl rfl⟩
        · split at hline
          · exact ⟨_, _, _, _, (Except.error.inj hline).symm, .inr rfl⟩
          · cases hline
    | ok o =>
        rw [hline, Result.ok_bind] at h
        by_cases hvalid : ValidRequest o
        · obtain ⟨method, hfrom⟩ := hvalid.fromObject
          rw [(@parseRequestObject_eq_ok_iff serde _ _).2 ⟨hvalid, hfrom⟩] at h
          cases h
        · obtain ⟨detail, hobject⟩ := @parseRequestObject_eq_error serde _ hvalid
          rw [hobject] at h
          exact ⟨_, _, _, _, (Except.error.inj h).symm, .inr rfl⟩
  obtain ⟨id, code, message, data, rfl, hcode⟩ := hcode
  intro e he
  obtain rfl := List.mem_singleton.1 he
  rcases hcode with rfl | rfl
  · change parseError ≠ internalError
    decide
  · change invalidRequest ≠ internalError
    decide

/-- The answer to a request of a repository that can be read. -/
def NotInternal (messages : List ServerMessage) : Prop :=
  ∀ e ∈ errors messages, e.code ≠ internalError

theorem notInternal_success (id result : Value) : NotInternal [successResponse id result] := by
  intro e he
  cases he

theorem notInternal_error (id : Value) {code : ℤ} (message : String) (data : Option String)
    (hcode : code ≠ internalError) : NotInternal [errorResponse id code message data] := by
  intro e he
  obtain rfl := List.mem_singleton.1 he
  exact hcode

theorem respondGetSnapshot_notInternal (hread : ∀ options, ∃ snapshot,
      read s.repo options = .ok snapshot)
    (h : respondGetSnapshot serde read s request id = some (s', messages)) :
    NotInternal messages := by
  unfold respondGetSnapshot at h
  split at h
  · next hoptions =>
      obtain ⟨rfl, rfl⟩ := Prod.mk.inj (Option.some.inj h)
      refine notInternal_error _ _ _ ?_
      rw [snapshotOptions_error hoptions]
      decide
  · next options hoptions =>
      obtain ⟨snapshot, hok⟩ := hread options
      rw [hok] at h
      obtain ⟨v, -, hm⟩ := Option.bind_eq_some_iff.1 h
      obtain ⟨rfl, rfl⟩ := Prod.mk.inj (Option.some.inj hm)
      exact notInternal_success _ _

theorem respondRefresh_notInternal (hread : ∀ options, ∃ snapshot,
      read s.repo options = .ok snapshot)
    (h : respondRefresh serde read s request id = some (s', messages)) :
    NotInternal messages := by
  unfold respondRefresh at h
  split at h
  · next hoptions =>
      obtain ⟨rfl, rfl⟩ := Prod.mk.inj (Option.some.inj h)
      refine notInternal_error _ _ _ ?_
      rw [snapshotOptions_error hoptions]
      decide
  · next options hoptions =>
      obtain ⟨snapshot, hok⟩ := hread options
      rw [hok] at h
      obtain ⟨v, -, hm⟩ := Option.bind_eq_some_iff.1 h
      obtain ⟨rfl, rfl⟩ := Prod.mk.inj (Option.some.inj hm)
      exact notInternal_success _ _

/-- A subscription is never answered with an error. -/
theorem respondSubscribe_errors (h : respondSubscribe read s id = some (s', messages)) :
    errors messages = [] := by
  unfold respondSubscribe at h
  dsimp only at h
  split at h
  · obtain ⟨rfl, rfl⟩ := Prod.mk.inj (Option.some.inj h)
    rfl
  · obtain ⟨m, hm, hrest⟩ := Option.bind_eq_some_iff.1 h
    obtain ⟨rfl, rfl⟩ := Prod.mk.inj (Option.some.inj hrest)
    obtain ⟨v, -, hv⟩ := Option.bind_eq_some_iff.1 hm
    obtain rfl := Option.some.inj hv
    rfl

theorem respond_notInternal (hread : ∀ options, ∃ snapshot, read s.repo options = .ok snapshot)
    (h : respond serde read s request = some (s', messages)) : NotInternal messages := by
  unfold respond at h
  dsimp only at h
  split_ifs at h with hinit hget hrefresh hsub hunsub hmulti
  · obtain ⟨rfl, rfl⟩ := Prod.mk.inj (Option.some.inj h)
    exact notInternal_success _ _
  · exact respondGetSnapshot_notInternal hread h
  · exact respondRefresh_notInternal hread h
  · intro e he
    rw [respondSubscribe_errors h] at he
    cases he
  · obtain ⟨rfl, rfl⟩ := Prod.mk.inj (Option.some.inj h)
    exact notInternal_success _ _
  · obtain ⟨rfl, rfl⟩ := Prod.mk.inj (Option.some.inj h)
    exact notInternal_error _ _ _ (by decide)
  · obtain ⟨rfl, rfl⟩ := Prod.mk.inj (Option.some.inj h)
    exact notInternal_error _ _ _ (by decide)

theorem NotInternal.responseMessages (h : NotInternal messages) (isNotification : Bool) :
    NotInternal (responseMessages messages isNotification) := by
  unfold Gitseer.responseMessages
  split
  · intro e he
    obtain ⟨m, hm, he⟩ := List.mem_filterMap.1 he
    exact h e (List.mem_filterMap.2 ⟨m, List.mem_of_mem_filter hm, he⟩)
  · exact h

/-- Where the repository can be read, no line is answered with an internal error. -/
theorem handleRequest_notInternal
    (hread : ∀ options, ∃ snapshot, read s.repo options = .ok snapshot)
    (h : handleRequest serde read s line = some (s', messages)) : NotInternal messages := by
  unfold handleRequest at h
  cases hparse : parseRequest serde line with
  | error rejected =>
      rw [hparse] at h
      obtain ⟨rfl, rfl⟩ := Prod.mk.inj (Option.some.inj h)
      exact parseRequest_not_internal hparse
  | ok parsed =>
      obtain ⟨request, isNotification⟩ := parsed
      rw [hparse] at h
      obtain ⟨⟨t, sent⟩, hrespond, hm⟩ := Option.bind_eq_some_iff.1 h
      obtain ⟨rfl, rfl⟩ := Prod.mk.inj (Option.some.inj hm)
      exact (respond_notInternal hread hrespond).responseMessages _

/-- A request for the snapshot, with an id, is answered with the JSON form of what is read. -/
theorem handleRequest_getSnapshot {options : SnapshotOptions} {snapshot : RepositorySnapshot}
    {value : Value} (hparse : parseRequest serde line = .ok (request, false))
    (hmethod : request.method = "gitseer/getSnapshot")
    (hoptions : snapshotOptions serde request.params = .ok options)
    (hread : read s.repo options = .ok snapshot)
    (henc : Wire.repositorySnapshotCodec.enc snapshot = some value)
    (h : handleRequest serde read s line = some (s', messages)) :
    messages = [successResponse (request.id.getD .null) value] := by
  simp only [handleRequest, hparse, respond, hmethod, respondGetSnapshot, hoptions, hread, henc,
    Option.bind_eq_bind, Option.bind_some] at h
  simp at h
  exact h.2.symm

end

/-! ### Why the loop stops -/

/-- The input ends the loop whatever the repository answers. -/
def ServeInput.Final : ServeInput → Prop
  | .stdinClosed => True
  | .stdinFailed => True
  | .watcherStopped => True
  | .started ok _ => ok = none
  | _ => False

/-- The loop stops at its input, at a line that cannot be answered, or at a refresh that fails; in
the last two cases it says nothing. -/
inductive StopsAt (serde : SerdeJson) (s : ServeState) : ServeInput → List ServerMessage → Prop
  | final {input : ServeInput} {messages : List ServerMessage} (h : input.Final)
      (hsilent : input.discover?.isSome = true → messages = []) : StopsAt serde s input messages
  | line {text : String} {read : SnapshotRead}
      (h : handleRequest serde read s.process text = none) : StopsAt serde s (.line text read) []
  | refresh {input : ServeInput} {discover : Discover} {plan : RefreshPlan}
      (hdiscover : input.discover? = some discover)
      (h : ∀ result, automaticUpdate discover s.process plan ≠ .ok (some result)) :
      StopsAt serde s input []

section

variable {serde : SerdeJson} {s t : ServeState} {input : ServeInput} {discover : Discover}
  {messages : List ServerMessage}

theorem Turn.refresh_stops {plan : RefreshPlan} (hdiscover : input.discover? = some discover)
    (hprocess : t.process = s.process) (h : Turn.refresh t plan discover = .ends messages) :
    StopsAt serde s input messages := by
  unfold Turn.refresh at h
  split at h
  · cases h
  · next hnot =>
      rw [hprocess] at hnot
      obtain rfl := Turn.ends.inj h
      exact .refresh hdiscover fun result hresult => hnot result.1 result.2 hresult

theorem Turn.refreshSubscribed_stops (hdiscover : input.discover? = some discover)
    (hprocess : t.process = s.process)
    (h : Turn.refreshSubscribed t discover = .ends messages) : StopsAt serde s input messages := by
  unfold Turn.refreshSubscribed at h
  split at h
  · cases h
  · exact Turn.refresh_stops hdiscover hprocess h

/-- Why the loop stops. -/
theorem serveTurn_ends_why (h : serveTurn serde s input = some (.ends messages)) :
    StopsAt serde s input messages := by
  cases input with
  | line text read =>
      obtain ⟨next, -, hturn⟩ := serveTurn_line serde s
      rw [hturn] at h
      cases hreq : handleRequest serde read s.process text with
      | none =>
          simp only [Turn.line, hreq] at h
          obtain rfl := Turn.ends.inj (Option.some.inj h)
          exact .line hreq
      | some result =>
          simp only [Turn.line, hreq] at h
          cases h
  | stdinClosed => exact .final trivial fun h => by cases h
  | stdinFailed => exact .final trivial fun h => by cases h
  | started ok discover =>
      unfold serveTurn at h
      split_ifs at h
      · cases h
      · cases ok with
        | none => exact .final rfl fun _ => (Turn.ends.inj (Option.some.inj h)).symm
        | some active =>
            cases active with
            | true =>
                refine Turn.refreshSubscribed_stops rfl ?_ (Option.some.inj h)
                rfl
            | false =>
                refine Turn.refreshSubscribed_stops rfl ?_ (Option.some.inj h)
                rfl
      · cases h
      · cases h
  | watchEvent plan discover =>
      unfold serveTurn at h
      split_ifs at h
      · simp only [activeTurn] at h
        split_ifs at h
        · exact Turn.refresh_stops rfl rfl (Option.some.inj h)
        · cases h
      · cases h
      · cases h
      · cases h
  | watcherStopped => exact .final trivial fun h => by cases h
  | tick discover =>
      unfold serveTurn at h
      split_ifs at h
      · cases h
      · exact Turn.refreshSubscribed_stops rfl rfl (Option.some.inj h)
      · exact Turn.refreshSubscribed_stops rfl rfl (Option.some.inj h)
      · cases h

end

/-! ### Sessions on a repository that stays as it is -/

/-- Wherever the turn reads the repository, it finds the one that is there. -/
def ServeInput.Reads (discover : Discover) : ServeInput → Prop
  | .line _ read => read = snapshotRepositoryWithOptions discover
  | .started _ found => found = discover
  | .watchEvent _ found => found = discover
  | .tick found => found = discover
  | _ => True

/-- A turn while the repository stays as it is. -/
def SteadyTurn (serde : SerdeJson) (discover : Discover) (s : ServeState) (l : ServeLabel)
    (s' : ServeState) : Prop :=
  TurnStep serde s l s' ∧ l.input.Reads discover

theorem ServeInput.Reads.discover_eq {discover found : Discover} {input : ServeInput}
    (h : input.Reads discover) (hfound : input.discover? = some found) : found = discover := by
  cases input with
  | started ok d => exact (Option.some.inj hfound).symm.trans h
  | watchEvent plan d => exact (Option.some.inj hfound).symm.trans h
  | tick d => exact (Option.some.inj hfound).symm.trans h
  | _ => cases hfound

/-- The process serves the repository, and what it retains was read from it. -/
structure ReadFrom (discover : Discover) (repo : PathBuf) (s : ProcessState) : Prop where
  served : s.repo = repo
  retained : ∀ snapshot, s.latestSnapshot = some snapshot →
    ∃ options, snapshotRepositoryWithOptions discover repo options = .ok snapshot

section

variable {serde : SerdeJson} {discover : Discover} {repo : PathBuf} {s s' : ServeState}
  {l : ServeLabel} {default ignored : RepositorySnapshot}

/-- All reads of a repository that can be read have the same paths to be written. -/
theorem utf8Paths_of_read {options : SnapshotOptions} {snapshot : RepositorySnapshot}
    (hdefault : snapshotRepositoryWithOptions discover repo {} = .ok default)
    (hpaths : default.Utf8Paths)
    (hread : snapshotRepositoryWithOptions discover repo options = .ok snapshot) :
    snapshot.Utf8Paths := by
  rw [← same_but_paths hdefault hread]
  exact ⟨hpaths.identity, hpaths.worktrees, hpaths.submodules⟩

/-- An automatic update of a repository that stays as it is reads what is there. -/
theorem ReadFrom.update {p : ProcessState} (h : ReadFrom discover repo p)
    (hdefault : snapshotRepositoryWithOptions discover repo {} = .ok default)
    (plan : RefreshPlan) : ∃ refresh options,
      refreshRepositoryWithPlan discover p.repo p.latestSnapshot plan {} = .ok refresh ∧
      snapshotRepositoryWithOptions discover repo options = .ok refresh.snapshot := by
  rw [h.served]
  cases hlatest : p.latestSnapshot with
  | none =>
      refine ⟨⟨default, .full⟩, {}, ?_, hdefault⟩
      simp only [refreshRepositoryWithPlan, hdefault, Result.ok_bind]
  | some retained =>
      obtain ⟨options, hretained⟩ := h.retained retained hlatest
      by_cases hplan : plan.reads .paths
      · refine ⟨_, {}, refresh_fixed hretained hdefault plan, ?_⟩
        rwa [if_pos hplan]
      · refine ⟨_, options, refresh_fixed hretained hdefault plan, ?_⟩
        rwa [if_neg hplan]

theorem ReadFrom.step (h : ReadFrom discover repo s.process)
    (hdefault : snapshotRepositoryWithOptions discover repo {} = .ok default)
    (hstep : SteadyTurn serde discover s l s') : ReadFrom discover repo s'.process := by
  obtain ⟨input, spawned, messages⟩ := l
  obtain ⟨hturn, hreads⟩ := hstep
  refine ⟨(serveTurn_repo hturn).trans h.served, fun snapshot hsnapshot => ?_⟩
  cases serveTurn_sends hturn with
  | @line text read _ _ hreq =>
      have hspec := handleRequest_spec hreq
      rw [h.served] at hspec
      cases hwrite : baselineWrite serde read repo text with
      | none =>
          rw [hwrite] at hspec
          exact h.retained snapshot (hspec.1.snapshot ▸ hsnapshot)
      | some write =>
          rw [hwrite] at hspec
          have hread := baselineWrite_eq_some hwrite
          obtain rfl := Option.some.inj (hsnapshot.symm.trans hspec.1.snapshot)
          obtain rfl : read = snapshotRepositoryWithOptions discover := hreads
          exact ⟨_, hread⟩
  | @update _ plan found _ _ hline hdiscover hsubscribed hupdate =>
      obtain rfl := hreads.discover_eq hdiscover
      obtain ⟨refresh, options, hrefresh, hread⟩ := h.update hdefault plan
      rw [automaticUpdate, hrefresh, Result.ok_bind] at hupdate
      have hlatest := (snapshotUpdateMessages_spec (Except.ok.inj hupdate)).2.1
      obtain rfl := Option.some.inj (hsnapshot.symm.trans hlatest)
      exact ⟨options, hread⟩
  | nothing hline hprocess hquiet => exact h.retained snapshot (hprocess ▸ hsnapshot)

theorem readFrom_of_run {labels : List ServeLabel}
    (hdefault : snapshotRepositoryWithOptions discover repo {} = .ok default)
    (hrun : Lts.Run (SteadyTurn serde discover) (.new repo) labels s) :
    ReadFrom discover repo s.process := by
  have hstart : ReadFrom discover repo (ServeState.new repo).process :=
    ⟨rfl, fun snapshot h => by cases h⟩
  exact Lts.Run.invariant (I := fun s => ReadFrom discover repo s.process) hstart
    (fun _ _ _ hs hstep => hs.step hdefault hstep) hrun

/-- An update of a repository whose paths can be written is built. -/
theorem ReadFrom.update_built {p : ProcessState} (h : ReadFrom discover repo p)
    (hdefault : snapshotRepositoryWithOptions discover repo {} = .ok default)
    (hpaths : default.Utf8Paths) (plan : RefreshPlan) :
    ∃ result, automaticUpdate discover p plan = .ok (some result) := by
  obtain ⟨refresh, options, hrefresh, hread⟩ := h.update hdefault plan
  have hutf8 := utf8Paths_of_read hdefault hpaths hread
  have hbuilt : (snapshotUpdateMessages p refresh.snapshot).isSome = true := by
    rw [snapshotUpdateMessages_isSome_iff]
    unfold UpdateUtf8
    split
    · exact hutf8
    · exact ⟨fun _ => hutf8.identity, fun _ => hutf8.worktrees, fun _ => hutf8.submodules⟩
  obtain ⟨result, hresult⟩ := Option.isSome_iff_exists.1 hbuilt
  refine ⟨result, ?_⟩
  rw [automaticUpdate, hrefresh, Result.ok_bind, hresult]

/-- Both ways of reading the repository succeed. -/
theorem reads_of_both (hdefault : snapshotRepositoryWithOptions discover repo {} = .ok default)
    (hignored : snapshotRepositoryWithOptions discover repo ⟨true⟩ = .ok ignored)
    (options : SnapshotOptions) :
    ∃ snapshot, snapshotRepositoryWithOptions discover repo options = .ok snapshot := by
  obtain ⟨includeIgnored⟩ := options
  cases includeIgnored with
  | true => exact ⟨ignored, hignored⟩
  | false => exact ⟨default, hdefault⟩

/-- As long as the repository stays as it is, and its snapshot could be printed: no line of the
session is answered with an internal error, a request for the snapshot is answered with the value
that was printed, and the worker stops only for a reason that is not the repository. -/
theorem readable_session {labels : List ServeLabel} {value : Value}
    (hprinted : main discover (some (.snapshot repo)) = .printed value)
    (hignored : snapshotRepositoryWithOptions discover repo ⟨true⟩ = .ok ignored)
    (hrun : Lts.Run (SteadyTurn serde discover) (.new repo) labels s) :
    (∀ l ∈ labels, ∀ e ∈ errors l.messages, e.code ≠ internalError) ∧
    (∀ l ∈ labels, ∀ text request, l.line? = some text →
      parseRequest serde text = .ok (request, false) →
      request.method = "gitseer/getSnapshot" → snapshotOptions serde request.params = .ok {} →
        l.messages = [successResponse (request.id.getD .null) value]) ∧
    ∀ input messages, input.Reads discover →
      serveTurn serde s input = some (.ends messages) → input.Final := by
  obtain ⟨snapshot, hread, hpaths, henc⟩ := main_snapshot_printed hprinted
  have hboth := reads_of_both hread hignored
  -- the turn of a label, in the state it is taken in
  have hturn : ∀ l ∈ labels, ∃ t t', ReadFrom discover repo t.process ∧
      SteadyTurn serde discover t l t' := by
    intro l hl
    obtain ⟨before, t, t', after, -, hbefore, hstep, -⟩ := hrun.step_of_mem hl
    exact ⟨t, t', readFrom_of_run hread hbefore, hstep⟩
  refine ⟨fun l hl => ?_, fun l hl text request hline hparse hmethod hoptions => ?_,
    fun input messages hreads hends => ?_⟩
  · obtain ⟨t, t', hfrom, hstep, hreads⟩ := hturn l hl
    obtain ⟨input, spawned, messages⟩ := l
    cases serveTurn_sends hstep with
    | line hreq =>
        obtain rfl : _ = snapshotRepositoryWithOptions discover := hreads
        exact handleRequest_notInternal (hfrom.served ▸ hboth) hreq
    | update hline hdiscover hsubscribed hupdate =>
        obtain ⟨refresh, -, hmessages⟩ := Result.bind_eq_ok.1 hupdate
        have hnotifies := snapshotUpdateMessages_notifies (Except.ok.inj hmessages)
        intro e he
        obtain ⟨m, hm, he⟩ := List.mem_filterMap.1 he
        cases m with
        | response response => cases (hnotifies _ hm).1
        | notification notification => cases he
    | nothing => exact fun e he => by cases he
  · obtain ⟨t, t', hfrom, hstep, hreads⟩ := hturn l hl
    obtain ⟨input, spawned, messages⟩ := l
    cases input with
    | line text' read =>
        obtain rfl := Option.some.inj hline
        obtain rfl : read = snapshotRepositoryWithOptions discover := hreads
        cases serveTurn_sends hstep with
        | line hreq =>
            exact handleRequest_getSnapshot hparse hmethod hoptions (hfrom.served ▸ hread) henc hreq
        | update hnot => cases hnot
        | nothing hnot => cases hnot
    | _ => cases hline
  · have hfrom := readFrom_of_run hread hrun
    cases serveTurn_ends_why hends with
    | final h => exact h
    | line h =>
        obtain rfl : _ = snapshotRepositoryWithOptions discover := hreads
        -- the line can be answered, since all that it can read can be written
        refine absurd h (Option.isSome_iff_ne_none.1 (handleRequest_isSome_iff.2 ?_))
        intro request isNotification _ options _ found hfound
        rw [hfrom.served] at hfound
        exact utf8Paths_of_read hread hpaths hfound
    | @refresh _ found plan hdiscover h =>
        obtain rfl := hreads.discover_eq hdiscover
        obtain ⟨result, hresult⟩ := hfrom.update_built hread hpaths plan
        exact absurd hresult (h result)

/-! ### Sessions on a path that leads to no repository -/

/-- The answer to a request that reads the repository while that fails: a subscription is one all
the same. -/
def unreadableAnswer (e : SnapshotError) (request : JsonRpcRequest) : ServerMessage :=
  if request.method = "gitseer/subscribe" then
    successResponse (request.id.getD .null) (.object [("subscribed", .bool true)])
  else readFailed (request.id.getD .null) e

/-- A request that reads is answered with the failure of the read, unless it subscribes. -/
theorem respond_unreadable {read : SnapshotRead} {p p' : ProcessState} {request : JsonRpcRequest}
    {messages : List ServerMessage} {options : SnapshotOptions} {e : SnapshotError}
    (hoptions : readOptions serde request = some options)
    (hread : read p.repo options = .error e)
    (h : respond serde read p request = some (p', messages)) :
    messages = [unreadableAnswer e request] := by
  by_cases hget : request.method = "gitseer/getSnapshot"
  · simp only [readOptions, hget, if_true, Except.toOption] at hoptions
    cases hok : snapshotOptions serde request.params with
    | error error => simp [hok] at hoptions
    | ok found =>
        obtain rfl : found = options := by simpa [hok] using hoptions
        simp [respond, hget, respondGetSnapshot, hok, hread] at h
        simp [← h.2, unreadableAnswer, hget]
  · by_cases hrefresh : request.method = "gitseer/refresh"
    · simp only [readOptions, baselineOptions, hrefresh, if_true, Except.toOption] at hoptions
      cases hok : snapshotOptions serde request.params with
      | error error => simp [hok] at hoptions
      | ok found =>
          obtain rfl : found = options := by simpa [hok] using hoptions
          simp [respond, hrefresh, respondRefresh, hok, hread] at h
          simp [← h.2, unreadableAnswer, hrefresh]
    · by_cases hsubscribe : request.method = "gitseer/subscribe"
      · obtain rfl : {} = options := by
          simpa [readOptions, baselineOptions, hsubscribe] using hoptions
        simp [respond, hsubscribe, respondSubscribe, hread] at h
        simp [← h.2, unreadableAnswer, hsubscribe]
      · simp [readOptions, baselineOptions, hget, hrefresh, hsubscribe] at hoptions

/-- Nothing was read, and nothing published. -/
theorem unread_of_run {labels : List ServeLabel} {e : SnapshotError}
    (hfailed : discoverRepository discover repo = .error e)
    (hrun : Lts.Run (SteadyTurn serde discover) (.new repo) labels s) :
    s.process.repo = repo ∧ s.process.latestSnapshot = none ∧
      publications (labels.flatMap ServeLabel.messages) = [] := by
  induction hrun with
  | nil => exact ⟨rfl, rfl, rfl⟩
  | @snoc labels t l t' _ hstep ih =>
      obtain ⟨hserved, hnone, hsilent⟩ := ih
      obtain ⟨input, spawned, messages⟩ := l
      obtain ⟨hturn, hreads⟩ := hstep
      have hwritten : t'.process.latestSnapshot = none ∧ publications messages = [] := by
        cases serveTurn_sends hturn with
        | @line text read _ _ hreq =>
            obtain rfl : read = snapshotRepositoryWithOptions discover := hreads
            have hspec := handleRequest_spec hreq
            rw [hserved] at hspec
            cases hwrite :
                baselineWrite serde (snapshotRepositoryWithOptions discover) repo text with
            | none =>
                rw [hwrite] at hspec
                exact ⟨hspec.1.snapshot.trans hnone, hspec.2⟩
            | some write =>
                have hread := baselineWrite_eq_some hwrite
                rw [snapshot_of_undiscovered hfailed] at hread
                cases hread
        | @update _ plan found _ _ hline hdiscover hsubscribed hupdate =>
            obtain rfl := hreads.discover_eq hdiscover
            obtain ⟨refresh, hrefresh, -⟩ := Result.bind_eq_ok.1 hupdate
            rw [hnone, hserved, refreshRepositoryWithPlan,
              snapshot_of_undiscovered hfailed] at hrefresh
            cases hrefresh
        | nothing hline hprocess hquiet => exact ⟨hprocess ▸ hnone, rfl⟩
      refine ⟨(serveTurn_repo hturn).trans hserved, hwritten.1, ?_⟩
      rw [List.flatMap_append, List.flatMap_singleton, publications, List.filterMap_append]
      exact List.append_eq_nil_iff.2 ⟨hsilent, hwritten.2⟩

/-- As long as the path leads to no repository: both commands fail with the error of the discovery,
and in every session nothing is published, a request that reads the repository is answered with that
error, or with the subscription when it is one, and a turn that would refresh for a subscriber stops
the worker without a goodbye. -/
theorem unreadable_session {labels : List ServeLabel} {e : SnapshotError}
    (hfailed : discoverRepository discover repo = .error e)
    (hrun : Lts.Run (SteadyTurn serde discover) (.new repo) labels s) :
    main discover (some (.validate repo)) = .failed e ∧
    main discover (some (.snapshot repo)) = .failed e ∧
    publications (labels.flatMap ServeLabel.messages) = [] ∧
    (∀ l ∈ labels, ∀ text request options, l.line? = some text →
      parseRequest serde text = .ok (request, false) →
      readOptions serde request = some options → l.messages = [unreadableAnswer e request]) ∧
    ∀ input turn, input.discover? = some discover → s.process.subscribed = true →
      serveTurn serde s input = some turn → turn = .ends [] ∨ input.NotDue := by
  have hfails := snapshot_of_undiscovered hfailed
  obtain ⟨hserved, hnone, hsilent⟩ := unread_of_run hfailed hrun
  refine ⟨main_validate_failed (hfails {}), main_snapshot_failed (hfails {}), hsilent, ?_, ?_⟩
  · intro l hl text request options hline hparse hoptions
    obtain ⟨before, t, t', after, -, hbefore, ⟨hturn, hreads⟩, -⟩ := hrun.step_of_mem hl
    have hthere := (unread_of_run hfailed hbefore).1
    obtain ⟨input, spawned, messages⟩ := l
    cases serveTurn_sends hturn with
    | line hreq =>
        obtain rfl := Option.some.inj hline
        obtain rfl : _ = snapshotRepositoryWithOptions discover := hreads
        simp only [handleRequest, hparse] at hreq
        obtain ⟨⟨p, sent⟩, hrespond, hm⟩ := Option.bind_eq_some_iff.1 hreq
        obtain ⟨-, rfl⟩ := Prod.mk.inj (Option.some.inj hm)
        exact respond_unreadable hoptions (hthere ▸ hfails options) hrespond
    | update hnot =>
        cases input with
        | line text' read => cases hnot
        | _ => cases hline
    | nothing hnot =>
        cases input with
        | line text' read => cases hnot
        | _ => cases hline
  · intro input turn hdiscover hsubscribed hturn
    cases turn with
    | ends messages =>
        refine .inl (congrArg Turn.ends ?_)
        cases serveTurn_ends_why hturn with
        | final _ hsilent => exact hsilent (by rw [hdiscover]; rfl)
        | line => cases hdiscover
        | refresh => rfl
    | again t spawned messages =>
        cases serveTurn_sends hturn with
        | line => cases hdiscover
        | @update _ plan found _ _ _ hfound _ hupdate =>
            -- a refresh that succeeds would have read the repository
            obtain rfl := Option.some.inj (hdiscover.symm.trans hfound)
            obtain ⟨refresh, hrefresh, -⟩ := Result.bind_eq_ok.1 hupdate
            rw [hnone, hserved, refreshRepositoryWithPlan, hfails] at hrefresh
            cases hrefresh
        | nothing _ _ hquiet =>
            rcases hquiet with hfalse | hnot
            · rw [hsubscribed] at hfalse
              cases hfalse
            · exact .inr hnot

end

/-! ### Two paths -/

/-- The snapshot of a repository without a commit is printed, and a request of the session is
answered with the same value. -/
theorem readable_session_plain : ∃ value answered,
    main (fun _ => .ok plainRepository) (some (.snapshot repoRoot)) = .printed value ∧
    handleRequest getSnapshotJson (snapshotRepositoryWithOptions fun _ => .ok plainRepository)
      (.new repoRoot) getSnapshotLine = some (.new repoRoot, answered) ∧
    answered = [successResponse (.number (.int 1)) value] := by
  have hread : snapshotRepositoryWithOptions (fun _ => .ok plainRepository) repoRoot {} =
      .ok plainSnapshot := by decide
  have hignored : snapshotRepositoryWithOptions (fun _ => .ok plainRepository) repoRoot ⟨true⟩ =
      .ok plainSnapshot := by decide
  obtain ⟨value, henc⟩ := Option.isSome_iff_exists.1
    ((Wire.encodes_repositorySnapshot plainSnapshot).2 ⟨⟨by decide, by decide, by decide⟩,
      by decide, by decide⟩)
  have hprinted : main (fun _ => .ok plainRepository) (some (.snapshot repoRoot)) =
      .printed value := by
    simp only [main, snapshotRepository, hread, printJson, henc]
  obtain ⟨answered, hreq⟩ : ∃ messages, handleRequest getSnapshotJson
      (snapshotRepositoryWithOptions fun _ => .ok plainRepository) (.new repoRoot) getSnapshotLine =
      some (.new repoRoot, messages) := exists_messages (by decide)
  have hturn : SteadyTurn getSnapshotJson (fun _ => .ok plainRepository) (.new repoRoot)
      ⟨.line getSnapshotLine (snapshotRepositoryWithOptions fun _ => .ok plainRepository), false,
        answered⟩ (.new repoRoot) := by
    refine ⟨?_, rfl⟩
    change some (Turn.line _ _ _ _ _) = _
    simp only [Turn.line, ServeState.new, hreq]
    rfl
  refine ⟨value, answered, hprinted, hreq, ?_⟩
  exact (readable_session hprinted hignored (.single hturn)).2.1 _ (List.mem_singleton.2 rfl)
    getSnapshotLine ⟨"2.0", "gitseer/getSnapshot", none, some (.number (.int 1))⟩ rfl rfl rfl rfl

/-- Nothing is found at any path. -/
def nowhere : Discover := fun _ => .error ⟨.notFound, "could not find repository"⟩

/-- A client that subscribes on such a path is told so but gets no baseline, and at the next tick
the worker is gone. -/
theorem unreadable_session_subscribe : ∃ answered s,
    SteadyTurn subscribeJson nowhere (.new repoRoot)
      ⟨.line subscribeLine (snapshotRepositoryWithOptions nowhere), true, answered⟩ s ∧
    answered = [successResponse (.number (.int 1)) (.object [("subscribed", .bool true)])] ∧
    publications answered = [] ∧ s.process.subscribed = true ∧
    serveTurn subscribeJson s (.tick nowhere) = some (.ends []) := by
  obtain ⟨answered, hreq⟩ : ∃ messages, handleRequest subscribeJson
      (snapshotRepositoryWithOptions nowhere) (.new repoRoot) subscribeLine =
      some ({ ProcessState.new repoRoot with subscribed := true }, messages) :=
    exists_messages (by decide)
  have hturn : SteadyTurn subscribeJson nowhere (.new repoRoot)
      ⟨.line subscribeLine (snapshotRepositoryWithOptions nowhere), true, answered⟩
      { process := { ProcessState.new repoRoot with subscribed := true }
        pendingWatcher := true } := by
    refine ⟨?_, rfl⟩
    change some (Turn.line _ _ _ _ _) = _
    simp only [Turn.line, ServeState.new, hreq]
    rfl
  obtain ⟨-, -, hsilent, hanswers, hstops⟩ := unreadable_session (e := .notRepository repoRoot) rfl
    (.single hturn)
  have hanswered := hanswers _ (List.mem_singleton.2 rfl) subscribeLine
    ⟨"2.0", "gitseer/subscribe", none, some (.number (.int 1))⟩ {} rfl rfl rfl
  refine ⟨answered, _, hturn, hanswered, by simpa using hsilent, rfl, ?_⟩
  rcases hstops (.tick nowhere) _ rfl rfl rfl with hends | ⟨plan, found, hevent, -⟩
  · exact congrArg some hends
  · cases hevent

end Gitseer
