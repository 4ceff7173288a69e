/-
**Automatic updates of a repository that does not change.**

An automatic update refreshes the baseline by a plan, with default options, and sends what differs.
When the repository stays as it is, one expects it to send nothing.  It does, unless the baseline
was read with other options: an explicit refresh may ask for ignored files, and what it reads
becomes the baseline all the same.

Main definitions:

* `automaticUpdate` — refreshing the baseline by a plan, and the messages for the result;
* `QuiescentStep` — lines handled while the repository stays as it is;
* `lastOptions` — the options of the last line that wrote a baseline.

Main results:

* `refresh_fixed` — on a fixed repository a refresh reads back what is there;
* `quiet_iff` — the automatic update after a run of lines is quiet exactly when its plan does not
  read the paths, the last baseline was read with default options, or ignored files make no
  difference that the comparison sees.
-/

import Gitseer.Protocol.Runs
import Gitseer.Watch.Refresh

set_option relaxedAutoImplicit false
set_option autoImplicit false

open StdPath (PathBuf)
open Json (Value)

namespace Gitseer

/-! ### Automatic updates -/

/-- The baseline is refreshed by a plan, and the messages for the result are made. -/
def automaticUpdate (discover : Discover) (state : ProcessState) (plan : RefreshPlan) :
    Except SnapshotError (Option (ProcessState × List ServerMessage)) := do
  let refresh ← refreshRepositoryWithPlan discover state.repo state.latestSnapshot plan {}
  .ok (snapshotUpdateMessages state refresh.snapshot)

/-! ### Reading the same repository twice -/

section

variable {discover : Discover} {path : PathBuf} {options options' : SnapshotOptions}
  {s s' : RepositorySnapshot}

/-- Two full reads of one repository differ in the path section at most. -/
theorem same_but_paths (h : snapshotRepositoryWithOptions discover path options = .ok s)
    (h' : snapshotRepositoryWithOptions discover path options' = .ok s') :
    { s with paths := s'.paths } = s' := by
  rw [snapshot_eq_ok_iff] at h h'
  have hpart : ∀ d, d ≠ .paths → s.part d = s'.part d := by
    intro d hd
    have hvalue : (snapshotSections options).value (discoverRepository discover path) d =
        (snapshotSections options').value (discoverRepository discover path) d := by
      cases d <;> first | rfl | exact absurd rfl hd
    rw [h d, h' d] at hvalue
    exact Except.ok.inj hvalue
  obtain ⟨hhead, hcommit⟩ := Prod.mk.inj (hpart .head (by decide))
  cases s
  cases s'
  simp only [RepositorySnapshot.mk.injEq]
  exact ⟨hpart .identity (by decide), hhead, hcommit, hpart .upstream (by decide), trivial,
    hpart .operation (by decide), hpart .remotes (by decide), hpart .branches (by decide),
    hpart .tags (by decide), hpart .stashes (by decide), hpart .worktrees (by decide),
    hpart .submodules (by decide)⟩

theorem readIf_same {α : Type} {domains : Finset RefreshDomain} {d : RefreshDomain}
    {read : Except SnapshotError α} {a : α} (h : read = .ok a) :
    readIf domains d read a = .ok a := by
  by_cases hd : d ∈ domains
  · rw [readIf_of_mem hd, h]
  · exact readIf_of_not_mem hd

/-- On a fixed repository a refresh reads back what is there: the default path section when the
plan reads the paths, and otherwise the retained snapshot. -/
theorem refresh_fixed {retained default : RepositorySnapshot}
    (hretained : snapshotRepositoryWithOptions discover path options = .ok retained)
    (hdefault : snapshotRepositoryWithOptions discover path {} = .ok default)
    (plan : RefreshPlan) :
    refreshRepositoryWithPlan discover path (some retained) plan {} =
      .ok ⟨if plan.reads .paths then default else retained, plan⟩ := by
  have hsame := same_but_paths hretained hdefault
  cases plan with
  | none => rfl
  | full => simp [refreshRepositoryWithPlan, hdefault, RefreshPlan.reads]
  | domains domains =>
      obtain ⟨repo, hrepo, hread⟩ := Result.bind_eq_ok.1 hretained
      obtain ⟨repo', hrepo', hread'⟩ := Result.bind_eq_ok.1 hdefault
      rw [hrepo] at hrepo'
      obtain rfl := Except.ok.inj hrepo'
      have hpaths := (readSnapshot_eq_ok.1 hread').paths
      obtain ⟨hi, hh, hu, -, ho, hr, hb, ht, hst, hw, hsm⟩ := readSnapshot_eq_ok.1 hread
      simp only [readIf_of_mem (mem_allDomains _)] at hi hh hu hpaths ho hr hb ht hst hw hsm
      have hrefresh : refreshDomains repo retained domains {} =
          .ok (if .paths ∈ domains then default else retained) := by
        rw [refreshDomains_eq_ok]
        by_cases hmem : RefreshDomain.paths ∈ domains
        · rw [if_pos hmem, ← hsame]
          exact ⟨readIf_same hi, readIf_same hh, readIf_same hu,
            (readIf_of_mem hmem).trans hpaths, readIf_same ho, readIf_same hr, readIf_same hb,
            readIf_same ht, readIf_same hst, readIf_same hw, readIf_same hsm⟩
        · rw [if_neg hmem]
          exact ⟨readIf_same hi, readIf_same hh, readIf_same hu, readIf_of_not_mem hmem,
            readIf_same ho, readIf_same hr, readIf_same hb, readIf_same ht, readIf_same hst,
            readIf_same hw, readIf_same hsm⟩
      simp only [refreshRepositoryWithPlan, hrepo, Result.ok_bind, hrefresh]
      rfl

/-- An update is quiet exactly when the snapshots compare as equal. -/
theorem update_quiet_iff {state : ProcessState} {previous current : RepositorySnapshot}
    (hprevious : state.latestSnapshot = some previous) :
    (∃ state', snapshotUpdateMessages state current = some (state', []) ∧
        state'.latestVersion = state.latestVersion) ↔
      (snapshotDelta previous current).hasChanges = false := by
  cases hchanges : (snapshotDelta previous current).hasChanges with
  | false =>
      refine iff_of_true ?_ rfl
      simp [snapshotUpdateMessages, ProcessState.recordUpdate, hprevious, hchanges]
  | true =>
      refine iff_of_false ?_ (by simp)
      rintro ⟨state', hupdate, -⟩
      have hspec := (snapshotUpdateMessages_spec hupdate).2.2
      rw [hprevious] at hspec
      simp only [hchanges, if_true, publications_nil] at hspec
      exact absurd hspec.2 (by simp)

end

/-! ### Lines handled while the repository stays as it is -/

/-- A line is handled; the repository answers as it always does. -/
def QuiescentStep (serde : SerdeJson) (discover : Discover) (s : ProcessState) (line : String)
    (s' : ProcessState) : Prop :=
  ∃ messages, handleRequest serde (snapshotRepositoryWithOptions discover) s line =
    some (s', messages)

/-- The baselines that lines write, with the options they are read with. -/
def baselineWrites (serde : SerdeJson) (discover : Discover) (repo : PathBuf)
    (lines : List String) : List (SnapshotOptions × RepositorySnapshot) :=
  lines.filterMap (baselineWrite serde (snapshotRepositoryWithOptions discover) repo)

/-- The options of the last line that wrote a baseline. -/
def lastOptions (serde : SerdeJson) (discover : Discover) (repo : PathBuf)
    (lines : List String) : Option SnapshotOptions :=
  (baselineWrites serde discover repo lines).getLast?.map Prod.fst

section

variable {serde : SerdeJson} {discover : Discover} {repo : PathBuf} {lines : List String}
  {s : ProcessState}

theorem baselineWrite_eq_some {read : SnapshotRead} {line : String}
    {write : SnapshotOptions × RepositorySnapshot}
    (h : baselineWrite serde read repo line = some write) : read repo write.1 = .ok write.2 := by
  obtain ⟨_, -, h⟩ := Option.bind_eq_some_iff.1 h
  obtain ⟨options, -, h⟩ := Option.bind_eq_some_iff.1 h
  obtain ⟨snapshot, hread, h⟩ := Option.bind_eq_some_iff.1 h
  obtain rfl := Option.some.inj h
  cases hr : read repo options with
  | error e => rw [hr] at hread; cases hread
  | ok found => rw [hr] at hread; rw [Option.some.inj hread]

/-- The baseline after a run of lines is the last one a line wrote. -/
theorem baseline_of_run
    (h : Lts.Run (QuiescentStep serde discover) (ProcessState.new repo) lines s) :
    s.repo = repo ∧
      s.latestSnapshot = (baselineWrites serde discover repo lines).getLast?.map Prod.snd := by
  induction h with
  | nil => exact ⟨rfl, rfl⟩
  | @snoc lines s line s' _ hstep ih =>
      obtain ⟨hrepo, hlatest⟩ := ih
      obtain ⟨messages, hline⟩ := hstep
      have hspec := handleRequest_spec hline
      rw [hrepo] at hspec
      have hwrites : baselineWrites serde discover repo (lines ++ [line]) =
          baselineWrites serde discover repo lines ++
            (baselineWrite serde (snapshotRepositoryWithOptions discover) repo line).toList := by
        rw [baselineWrites, List.filterMap_append]
        cases hwrite : baselineWrite serde (snapshotRepositoryWithOptions discover) repo line with
        | none => rw [List.filterMap_cons_none hwrite]; rfl
        | some write => rw [List.filterMap_cons_some hwrite]; rfl
      rw [hwrites]
      cases hwrite : baselineWrite serde (snapshotRepositoryWithOptions discover) repo line with
      | none =>
          rw [hwrite] at hspec
          exact ⟨hspec.1.repo.trans hrepo, by simpa [hspec.1.snapshot] using hlatest⟩
      | some write =>
          rw [hwrite] at hspec
          exact ⟨hspec.1.repo.trans hrepo, by simp [hspec.1.snapshot]⟩

end

/-- With the repository fixed, and after a run of lines that left a baseline, the automatic update
by any plan succeeds without a message and without a new version exactly when the plan does not
read the paths, or the last baseline was read with default options, or the comparison sees no
difference between the path sections with and without ignored files. -/
theorem quiet_iff {serde : SerdeJson} {discover : Discover} {repo : PathBuf}
    {default ignored : RepositorySnapshot} {lines : List String} {s : ProcessState}
    (hdefault : snapshotRepositoryWithOptions discover repo {} = .ok default)
    (hignored : snapshotRepositoryWithOptions discover repo ⟨true⟩ = .ok ignored)
    (h : Lts.Run (QuiescentStep serde discover) (ProcessState.new repo) lines s)
    (hbaseline : s.latestSnapshot ≠ none) (plan : RefreshPlan) :
    (∃ s', automaticUpdate discover s plan = .ok (some (s', [])) ∧
        s'.latestVersion = s.latestVersion) ↔
      ¬ plan.reads .paths ∨ lastOptions serde discover repo lines = some {} ∨
        ignored.paths.Alike default.paths := by
  obtain ⟨hrepo, hlatest⟩ := baseline_of_run h
  cases hlast : (baselineWrites serde discover repo lines).getLast? with
  | none => exact absurd (by rw [hlatest, hlast]; rfl) hbaseline
  | some write =>
      obtain ⟨options, retained⟩ := write
      rw [hlast, Option.map_some] at hlatest
      have hmem := List.mem_of_getLast? hlast
      obtain ⟨line, -, hwrite⟩ := List.mem_filterMap.1 hmem
      have hread : snapshotRepositoryWithOptions discover repo options = .ok retained :=
        baselineWrite_eq_some hwrite
      have hoptions : lastOptions serde discover repo lines = some options := by
        rw [lastOptions, hlast, Option.map_some]
      have hquiet : (∃ s', automaticUpdate discover s plan = .ok (some (s', [])) ∧
          s'.latestVersion = s.latestVersion) ↔
          (snapshotDelta retained (if plan.reads .paths then default else retained)).hasChanges =
            false := by
        rw [← update_quiet_iff hlatest]
        simp only [automaticUpdate, hrepo, hlatest, refresh_fixed hread hdefault plan,
          Result.ok_bind, Except.ok.injEq]
      rw [hquiet, snapshotDelta_hasChanges, hoptions]
      by_cases hplan : plan.reads .paths
      · simp only [hplan, if_true, not_true, false_or, same_but_paths hread hdefault, and_true]
        obtain ⟨includeIgnored⟩ := options
        cases includeIgnored with
        | false =>
            rw [hdefault] at hread
            obtain rfl := Except.ok.inj hread
            exact iff_of_true (PathState.Alike.refl _) (Or.inl rfl)
        | true =>
            rw [hignored] at hread
            obtain rfl := Except.ok.inj hread
            simp
      · simp only [hplan, if_false, not_false_eq_true, true_or, iff_true]
        exact ⟨PathState.Alike.refl _, trivial⟩

/-! ### A repository with an ignored file -/

def ignoredFile : PathBuf := PathBuf.relative [StdPath.FileName.ofString "debug.log"]

/-- The repository has no commit, and an ignored file. -/
def ignoringRepository : Repository :=
  { plainRepository with
    statuses := fun includeIgnored => .ok (if includeIgnored then
      [⟨{ ignored := true }, some "debug.log", none, some ⟨some ignoredFile, some ignoredFile⟩⟩]
      else []) }

def ignoringDiscover : Discover := fun _ => .ok ignoringRepository

/-- A refresh that asks for ignored files. -/
def ignoredLine : String :=
  "\x7b\"jsonrpc\":\"2.0\",\"id\":2,\"method\":\"gitseer/refresh\"," ++
    "\"params\":\x7b\"includeIgnored\":true\x7d\x7d"

def quietJson : SerdeJson := knownLines [
  (refreshLine, .object [("jsonrpc", .string "2.0"), ("id", .number (.int 1)),
    ("method", .string "gitseer/refresh")]),
  (ignoredLine, .object [("jsonrpc", .string "2.0"), ("id", .number (.int 2)),
    ("method", .string "gitseer/refresh"),
    ("params", .object [("includeIgnored", .bool true)])])]

/-- The path section of the repository with ignored files. -/
def ignoredPaths : PathState where
  ignored := ["debug.log"]
  entries := [⟨"debug.log", none, none, some "debug.log", some "debug.log",
    { ignored := true }, {}⟩]

/-- After a refresh with default options the update is quiet, whatever its plan. -/
theorem quiet_iff_refresh : ∃ s,
    Lts.Run (QuiescentStep quietJson ignoringDiscover) (ProcessState.new repoRoot)
      [refreshLine] s ∧
    ∃ s', automaticUpdate ignoringDiscover s .full = .ok (some (s', [])) ∧
      s'.latestVersion = s.latestVersion := by
  have hdefault : snapshotRepositoryWithOptions ignoringDiscover repoRoot {} =
      .ok plainSnapshot := by decide
  have hignored : snapshotRepositoryWithOptions ignoringDiscover repoRoot ⟨true⟩ =
      .ok { plainSnapshot with paths := ignoredPaths } := by decide
  have hrun : Lts.Run (QuiescentStep quietJson ignoringDiscover) (ProcessState.new repoRoot)
      [refreshLine] (basedState plainSnapshot) := .single (exists_messages (by decide))
  exact ⟨_, hrun, (quiet_iff hdefault hignored hrun (by decide) .full).2
    (Or.inr (Or.inl (by decide)))⟩

/-- After a refresh that asks for ignored files, the next automatic update sends a delta under a
new version, although nothing has changed. -/
theorem ignored_refresh_not_quiet : ∃ s message s',
    Lts.Run (QuiescentStep quietJson ignoringDiscover) (ProcessState.new repoRoot)
      [ignoredLine] s ∧
    s.latestSnapshot ≠ none ∧
    automaticUpdate ignoringDiscover s .full = .ok (some (s', [message])) ∧
    s.latestVersion = 1 ∧ s'.latestVersion = 2 := by
  have hrun : Lts.Run (QuiescentStep quietJson ignoringDiscover) (ProcessState.new repoRoot)
      [ignoredLine] (basedState { plainSnapshot with paths := ignoredPaths }) :=
    .single (exists_messages (by decide))
  exact ⟨_, _, _, hrun, by decide, rfl, rfl, rfl⟩

end Gitseer
