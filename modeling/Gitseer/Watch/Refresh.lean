/-
**Refreshing a retained snapshot by the classifier's plans.**

The worker keeps one snapshot and refreshes it, event after event, by plans that usually name a few
domains only.  Two questions arise: is the retained snapshot still the one a full read would give,
and can a refresh fail where a full read would not?

The first is an instance of `Retained.Sections`: a snapshot is a view whose sections are the
domains, and the only need is that the upstream is read for the head of the view.  The classifier
never reads the head without the upstream, so its plans are closed under this need.

Main definitions:

* `Section`, `RepositorySnapshot.part`, `snapshotSections` — a snapshot as a view;
* `Refresher`, `RefresherStep` — repository changes interleaved with refreshes;
* `dirty` — the domains altered in a run and not read since;
* `StaleUpstream` — the plan reads the upstream of a retained head whose branch is gone.

Main results:

* `selective_refresh_agrees` — a retained snapshot without dirty domains is what a full read gives,
  and a refresh returns the sections outside its plan unchanged;
* `refresh_ok_iff` — where a full read succeeds, a refresh fails exactly on a stale upstream.
-/

import Gitseer.Lib.Retained
import Gitseer.Lib.Run
import Gitseer.Watch.Classify

set_option relaxedAutoImplicit false
set_option autoImplicit false

open StdPath (PathBuf FileName)

namespace Gitseer

/-! ### A snapshot as a view -/

/-- What the section of a domain holds; the head comes with its commit. -/
def Section : RefreshDomain → Type
  | .identity => RepositoryIdentity
  | .head => HeadState × Option CommitSummary
  | .upstream => Option UpstreamState
  | .paths => PathState
  | .operation => OperationState
  | .remotes => List RemoteSummary
  | .branches => List BranchSummary
  | .tags => List TagSummary
  | .stashes => List StashSummary
  | .worktrees => List WorktreeSummary
  | .submodules => List SubmoduleSummary

/-- The section of a domain. -/
def RepositorySnapshot.part (s : RepositorySnapshot) : (d : RefreshDomain) → Section d
  | .identity => s.identity
  | .head => (s.head, s.headCommit)
  | .upstream => s.upstream
  | .paths => s.paths
  | .operation => s.operation
  | .remotes => s.remotes
  | .branches => s.branches
  | .tags => s.tags
  | .stashes => s.stashes
  | .worktrees => s.worktrees
  | .submodules => s.submodules

/-- Reading the section of a domain for a given head. -/
def readSection (repo : Repository) (options : SnapshotOptions) (head : HeadState) :
    (d : RefreshDomain) → Except SnapshotError (Section d)
  | .identity => repositoryIdentity repo
  | .head => readHead repo
  | .upstream => upstreamState repo head
  | .paths => pathState repo options
  | .operation => .ok (operationState repo)
  | .remotes => remotes repo
  | .branches => branches repo
  | .tags => tags repo
  | .stashes => stashes repo
  | .worktrees => worktrees repo
  | .submodules => submodules repo

/-- The section of a domain as a full read has it: the upstream is that of the repository's own
head. -/
def sectionValue (repo : Repository) (options : SnapshotOptions) (d : RefreshDomain) :
    Except SnapshotError (Section d) :=
  if d = .upstream then do
    let head ← readHead repo
    readSection repo options head.1 d
  else readSection repo options ⟨.missing, none, none, none⟩ d

theorem readSection_of_ne_upstream {repo : Repository} {options : SnapshotOptions}
    {d : RefreshDomain} (h : d ≠ .upstream) (head head' : HeadState) :
    readSection repo options head d = readSection repo options head' d := by
  cases d <;> first | rfl | exact absurd rfl h

/-- The only need of a section: the upstream is read for the head. -/
def sectionNeeds (d e : RefreshDomain) : Prop := d = .upstream ∧ e = .head

theorem sectionNeeds_wf : WellFounded fun e d => sectionNeeds d e := by
  have hhead : Acc (fun e d => sectionNeeds d e) RefreshDomain.head :=
    Acc.intro _ fun e h => absurd h.1 (by decide)
  refine ⟨fun d => Acc.intro _ ?_⟩
  rintro e ⟨-, rfl⟩
  exact hhead

/-- Snapshots as views of what discovering the repository answers. -/
def snapshotSections (options : SnapshotOptions) :
    Retained.Sections (Except SnapshotError Repository) RefreshDomain SnapshotError Section where
  value w d := do
    let repo ← w
    sectionValue repo options d
  read w v d := do
    let repo ← w
    readSection repo options (v .head).1 d
  needs := sectionNeeds
  wf := sectionNeeds_wf
  read_eq := by
    intro w v d h
    cases w with
    | error e => rfl
    | ok repo =>
        simp only [Result.ok_bind, sectionValue]
        split
        · next hd =>
            have hhead : readHead repo = .ok (v .head) := h .head ⟨hd, rfl⟩
            rw [hhead]
            rfl
        · next hd => exact readSection_of_ne_upstream hd _ _

/-- A targeted refresh is a refresh of the view. -/
theorem Refreshes.refreshed {repo : Repository} {options : SnapshotOptions}
    {domains : Finset RefreshDomain} {previous s : RepositorySnapshot}
    (h : Refreshes repo options domains previous s) :
    (snapshotSections options).Refreshed (.ok repo) {d | d ∈ domains} previous.part s.part where
  read := by
    intro d hd
    change d ∈ domains at hd
    obtain ⟨hi, hh, hu, hp, ho, hr, hb, ht, hst, hw, hsm⟩ := h
    cases d with
    | identity => rw [readIf_of_mem hd] at hi; exact hi
    | head => rw [readIf_of_mem hd] at hh; exact hh
    | upstream => rw [readIf_of_mem hd] at hu; exact hu
    | paths => rw [readIf_of_mem hd] at hp; exact hp
    | operation => rw [readIf_of_mem hd] at ho; exact ho
    | remotes => rw [readIf_of_mem hd] at hr; exact hr
    | branches => rw [readIf_of_mem hd] at hb; exact hb
    | tags => rw [readIf_of_mem hd] at ht; exact ht
    | stashes => rw [readIf_of_mem hd] at hst; exact hst
    | worktrees => rw [readIf_of_mem hd] at hw; exact hw
    | submodules => rw [readIf_of_mem hd] at hsm; exact hsm
  kept := by
    intro d hd
    change d ∉ domains at hd
    obtain ⟨hi, hh, hu, hp, ho, hr, hb, ht, hst, hw, hsm⟩ := h
    cases d with
    | identity => exact readIf_keeps hd hi
    | head => exact readIf_keeps hd hh
    | upstream => exact readIf_keeps hd hu
    | paths => exact readIf_keeps hd hp
    | operation => exact readIf_keeps hd ho
    | remotes => exact readIf_keeps hd hr
    | branches => exact readIf_keeps hd hb
    | tags => exact readIf_keeps hd ht
    | stashes => exact readIf_keeps hd hst
    | worktrees => exact readIf_keeps hd hw
    | submodules => exact readIf_keeps hd hsm

/-- A full read succeeds with a snapshot exactly when every section has its value. -/
theorem snapshot_eq_ok_iff {discover : Discover} {path : PathBuf} {options : SnapshotOptions}
    {s : RepositorySnapshot} :
    snapshotRepositoryWithOptions discover path options = .ok s ↔
      ∀ d, (snapshotSections options).value (discoverRepository discover path) d =
        .ok (s.part d) := by
  unfold snapshotRepositoryWithOptions
  cases discoverRepository discover path with
  | error e =>
      constructor
      · intro h
        cases h
      · intro h
        cases h .identity
  | ok repo =>
      rw [Result.ok_bind, readSnapshot_eq_ok]
      constructor
      · intro h d
        -- a view that was read as a whole has the values its own head gives
        have hread := h.refreshed.read
        have hhead : readHead repo = .ok (s.part .head) := hread .head (mem_allDomains _)
        have hd := hread d (mem_allDomains d)
        rw [(snapshotSections options).read_eq] at hd
        · exact hd
        · rintro e ⟨-, rfl⟩
          exact hhead
      · intro h
        have hhead : readHead repo = .ok (s.head, s.headCommit) := h .head
        have hupstream := h .upstream
        simp only [snapshotSections, Result.ok_bind, sectionValue, if_true, hhead] at hupstream
        exact {
          identity := (readIf_of_mem (mem_allDomains _)).trans (h .identity)
          head := (readIf_of_mem (mem_allDomains _)).trans hhead
          upstream := (readIf_of_mem (mem_allDomains _)).trans hupstream
          paths := (readIf_of_mem (mem_allDomains _)).trans (h .paths)
          operation := (readIf_of_mem (mem_allDomains _)).trans (h .operation)
          remotes := (readIf_of_mem (mem_allDomains _)).trans (h .remotes)
          branches := (readIf_of_mem (mem_allDomains _)).trans (h .branches)
          tags := (readIf_of_mem (mem_allDomains _)).trans (h .tags)
          stashes := (readIf_of_mem (mem_allDomains _)).trans (h .stashes)
          worktrees := (readIf_of_mem (mem_allDomains _)).trans (h .worktrees)
          submodules := (readIf_of_mem (mem_allDomains _)).trans (h .submodules) }

/-! ### Runs of changes and refreshes -/

/-- The repository as it can be discovered at the moment, and the retained snapshot. -/
structure Refresher where
  discover : Discover
  retained : Option RepositorySnapshot := none

/-- What happens: a change that alters the sections of some domains, or a refresh by a plan. -/
inductive RefresherLabel
  | change (altered : Set RefreshDomain)
  | refresh (plan : RefreshPlan)

/-- The domains whose section a change of the repository alters. -/
def alteredDomains (path : PathBuf) (options : SnapshotOptions) (before after : Discover) :
    Set RefreshDomain :=
  (snapshotSections options).altered (discoverRepository before path)
    (discoverRepository after path)

/-- A step: the repository changes in any way, or a refresh by a plan of the classifier succeeds
and its snapshot is retained. -/
inductive RefresherStep (path : PathBuf) (options : SnapshotOptions) :
    Refresher → RefresherLabel → Refresher → Prop
  | change (s : Refresher) (after : Discover) :
      RefresherStep path options s (.change (alteredDomains path options s.discover after))
        { s with discover := after }
  | refresh (s : Refresher) (plan : RefreshPlan) (refresh : SnapshotRefresh)
      (hplan : ClassifierPlan plan)
      (hok : refreshRepositoryWithPlan s.discover path s.retained plan options = .ok refresh) :
      RefresherStep path options s (.refresh plan) { s with retained := some refresh.snapshot }

/-- The dirty domains after one more step. -/
def dirtyStep (dirty : Set RefreshDomain) : RefresherLabel → Set RefreshDomain
  | .change altered => dirty ∪ altered
  | .refresh plan => dirty \ {d | plan.reads d}

/-- The domains that were altered by some change and that no later refresh reads. -/
def dirty (labels : List RefresherLabel) : Set RefreshDomain := labels.foldl dirtyStep ∅

theorem dirty_concat (labels : List RefresherLabel) (l : RefresherLabel) :
    dirty (labels ++ [l]) = dirtyStep (dirty labels) l := by
  simp [dirty, List.foldl_append]

/-- The retained snapshot is fresh but for the dirty domains. -/
def RetainedFresh (path : PathBuf) (options : SnapshotOptions) (dirty : Set RefreshDomain)
    (s : Refresher) : Prop :=
  ∀ snapshot, s.retained = some snapshot →
    (snapshotSections options).Fresh (discoverRepository s.discover path) dirty snapshot.part

section

variable {path : PathBuf} {options : SnapshotOptions} {discover : Discover}

/-- A plan that never reads the head alone is closed under what sections need. -/
theorem closed_of_headWithUpstream {plan : RefreshPlan} (h : plan.HeadWithUpstream) :
    (snapshotSections options).Closed {d | plan.reads d} := by
  rintro d e ⟨rfl, rfl⟩ hread
  exact h hread

theorem fresh_of_snapshot {dirty : Set RefreshDomain} {s : RepositorySnapshot}
    (h : snapshotRepositoryWithOptions discover path options = .ok s) :
    (snapshotSections options).Fresh (discoverRepository discover path) dirty s.part :=
  Retained.Sections.Fresh.of_read (snapshot_eq_ok_iff.1 h)

/-- What a successful refresh returns: the retained snapshot, a full read, or the retained snapshot
with the planned sections read again. -/
theorem refresh_cases {previous : Option RepositorySnapshot} {plan : RefreshPlan}
    {refresh : SnapshotRefresh}
    (h : refreshRepositoryWithPlan discover path previous plan options = .ok refresh) :
    ((previous = none ∨ plan = .full) ∧
        snapshotRepositoryWithOptions discover path options = .ok refresh.snapshot) ∨
      (plan = .none ∧ previous = some refresh.snapshot) ∨
      ∃ domains retained repo, plan = .domains domains ∧ previous = some retained ∧
        discoverRepository discover path = .ok repo ∧
        refreshDomains repo retained domains options = .ok refresh.snapshot := by
  cases previous with
  | none =>
      obtain ⟨snapshot, hs, hok⟩ := Result.bind_eq_ok.1 h
      obtain rfl := Except.ok.inj hok
      exact Or.inl ⟨Or.inl rfl, hs⟩
  | some retained =>
      cases plan with
      | none =>
          obtain rfl := Except.ok.inj h
          exact Or.inr (Or.inl ⟨rfl, rfl⟩)
      | full =>
          obtain ⟨snapshot, hs, hok⟩ := Result.bind_eq_ok.1 h
          obtain rfl := Except.ok.inj hok
          exact Or.inl ⟨Or.inr rfl, hs⟩
      | domains domains =>
          obtain ⟨repo, hrepo, h⟩ := Result.bind_eq_ok.1 h
          obtain ⟨snapshot, hs, hok⟩ := Result.bind_eq_ok.1 h
          obtain rfl := Except.ok.inj hok
          exact Or.inr (Or.inr ⟨domains, retained, repo, rfl, rfl, hrepo, hs⟩)

/-- A refresh by a plan of the classifier cleans the domains the plan reads. -/
theorem RetainedFresh.refresh {dirty : Set RefreshDomain} {s : Refresher} {plan : RefreshPlan}
    {refresh : SnapshotRefresh} (hfresh : RetainedFresh path options dirty s)
    (hplan : ClassifierPlan plan)
    (hok : refreshRepositoryWithPlan s.discover path s.retained plan options = .ok refresh) :
    (snapshotSections options).Fresh (discoverRepository s.discover path)
      (dirty \ {d | plan.reads d}) refresh.snapshot.part := by
  rcases refresh_cases hok with ⟨-, hs⟩ | ⟨rfl, hs⟩ | ⟨domains, kept, repo, rfl, hs, hrepo, hr⟩
  · exact fresh_of_snapshot hs
  · have hnone : dirty \ {d | RefreshPlan.none.reads d} = dirty :=
      Set.ext fun d => ⟨fun hd => hd.1, fun hd => ⟨hd, id⟩⟩
    rw [hnone]
    exact hfresh _ hs
  · have hrefreshed := (refreshDomains_eq_ok.1 hr).refreshed
    rw [← hrepo] at hrefreshed
    exact (hfresh _ hs).refresh (closed_of_headWithUpstream hplan.headWithUpstream) hrefreshed

/-- Every step keeps the retained snapshot fresh but for the dirty domains. -/
theorem RetainedFresh.step {dirty : Set RefreshDomain} {s s' : Refresher} {l : RefresherLabel}
    (hfresh : RetainedFresh path options dirty s) (hstep : RefresherStep path options s l s') :
    RetainedFresh path options (dirtyStep dirty l) s' := by
  cases hstep with
  | change after =>
      intro snapshot hs
      exact (hfresh snapshot hs).change
  | refresh plan refresh hplan hok =>
      intro snapshot hs
      obtain rfl := Option.some.inj hs
      exact hfresh.refresh hplan hok

/-- And so does every run. -/
theorem retainedFresh_of_run {labels : List RefresherLabel} {s : Refresher}
    (h : Lts.Run (RefresherStep path options) { discover := discover } labels s) :
    RetainedFresh path options (dirty labels) s := by
  induction h with
  | nil => intro snapshot hs; cases hs
  | snoc _ hstep ih =>
      rw [dirty_concat]
      exact ih.step hstep

/-- Sections outside the plan are returned unchanged. -/
theorem refresh_keeps {snapshot : RepositorySnapshot} {plan : RefreshPlan}
    {refresh : SnapshotRefresh}
    (h : refreshRepositoryWithPlan discover path (some snapshot) plan options = .ok refresh)
    {d : RefreshDomain} (hd : ¬ plan.reads d) : refresh.snapshot.part d = snapshot.part d := by
  rcases refresh_cases h with ⟨hcase, -⟩ | ⟨-, hs⟩ | ⟨domains, kept, repo, rfl, hs, -, hr⟩
  · rcases hcase with hnone | rfl
    · cases hnone
    · exact absurd trivial hd
  · rw [Option.some.inj hs]
  · obtain rfl := Option.some.inj hs
    exact (refreshDomains_eq_ok.1 hr).refreshed.kept d hd

end

/-- In every run of repository changes and refreshes by plans of the classifier, starting with a
full read, the retained snapshot is the one a full read gives now whenever every alteration of a
section was followed by a refresh that reads it; and a refresh returns the sections outside its
plan unchanged. -/
theorem selective_refresh_agrees {path : PathBuf} {options : SnapshotOptions}
    {discover : Discover} {labels : List RefresherLabel} {s : Refresher}
    (h : Lts.Run (RefresherStep path options) { discover := discover } labels s)
    {snapshot : RepositorySnapshot} (hs : s.retained = some snapshot) :
    (dirty labels = ∅ →
      snapshotRepositoryWithOptions s.discover path options = .ok snapshot) ∧
    ∀ plan refresh,
      refreshRepositoryWithPlan s.discover path s.retained plan options = .ok refresh →
      ∀ d, ¬ plan.reads d → refresh.snapshot.part d = snapshot.part d := by
  constructor
  · intro hclean
    have hfresh := retainedFresh_of_run h snapshot hs
    rw [hclean] at hfresh
    exact snapshot_eq_ok_iff.2 hfresh.eq_value
  · intro plan refresh hok d hd
    rw [hs] at hok
    exact refresh_keeps hok hd

/-- The repository of the run below: a merge is in progress. -/
def mergingRepository : Repository :=
  { plainRepository with state := .merge, message := some "Merge branch" }

/-- The event of a merge that starts. -/
def mergeEvent : WatchEvent :=
  .ok ⟨.modify .data, [repoGitDir.child (FileName.ofString "MERGE_MSG")], false⟩

def mergePlan : RefreshPlan :=
  refreshPlanForEvent (fun _ => .ok mergingRepository) mergeEvent repoRoot (some repoRoot)
    repoGitDir repoGitDir

def mergingSnapshot : RepositorySnapshot :=
  { plainSnapshot with operation := ⟨.merge, some "Merge branch", [], none⟩ }

/-- A merge that starts alters the operation only. -/
theorem altered_by_merge {d : RefreshDomain}
    (h : d ∈ alteredDomains repoRoot {} (fun _ => .ok plainRepository)
      (fun _ => .ok mergingRepository)) : d = .operation := by
  cases d <;> first | rfl | exact absurd rfl h

/-- A full read, a merge that starts, and a refresh for its event. -/
theorem selective_refresh_agrees_merge :
    snapshotRepositoryWithOptions (fun _ => .ok mergingRepository) repoRoot {} =
      .ok mergingSnapshot := by
  have hfull : RefresherStep repoRoot {} ⟨fun _ => .ok plainRepository, none⟩ (.refresh .full)
      ⟨fun _ => .ok plainRepository, some plainSnapshot⟩ :=
    .refresh _ _ ⟨plainSnapshot, .full⟩ .full (by decide)
  have hmerge : RefresherStep repoRoot {} ⟨fun _ => .ok mergingRepository, some plainSnapshot⟩
      (.refresh mergePlan) ⟨fun _ => .ok mergingRepository, some mergingSnapshot⟩ :=
    .refresh _ _ ⟨mergingSnapshot, mergePlan⟩ (.event _ _ _ _ _ _) (by decide)
  have hrun := ((Lts.Run.single hfull).snoc (.change _ fun _ => .ok mergingRepository)).snoc hmerge
  refine (selective_refresh_agrees hrun rfl).1 ?_
  rw [dirty_concat, dirty_concat, ← List.nil_append [RefresherLabel.refresh .full], dirty_concat,
    Set.eq_empty_iff_forall_notMem]
  rintro d ⟨hd, hread⟩
  rcases hd with ⟨-, hfull⟩ | haltered
  · exact hfull trivial
  · obtain rfl := altered_by_merge haltered
    refine hread ?_
    change mergePlan.reads .operation
    decide

/-! ### When a refresh fails -/

/-- The plan reads the upstream, but not the head, and the head that was retained names a branch
that the repository no longer has. -/
def StaleUpstream (discover : Discover) (path : PathBuf) (previous : Option RepositorySnapshot)
    (plan : RefreshPlan) : Prop :=
  plan.reads .upstream ∧ ¬ plan.reads .head ∧ ∃ retained repo, previous = some retained ∧
    discover path = .ok repo ∧ retained.head.BranchGone repo

/-- Where a full read succeeds, a refresh from any retained snapshot and by any plan fails exactly
when it reads the upstream of a retained head whose branch is gone. -/
theorem refresh_ok_iff {discover : Discover} {path : PathBuf} {options : SnapshotOptions}
    {full : RepositorySnapshot}
    (hfull : snapshotRepositoryWithOptions discover path options = .ok full)
    (previous : Option RepositorySnapshot) (plan : RefreshPlan) :
    (∃ refresh, refreshRepositoryWithPlan discover path previous plan options = .ok refresh) ↔
      ¬ StaleUpstream discover path previous plan := by
  obtain ⟨repo, hrepo, hread⟩ := Result.bind_eq_ok.1 hfull
  have hdiscover := discoverRepository_eq_ok.1 hrepo
  cases previous with
  | none =>
      refine iff_of_true ⟨⟨full, .full⟩, by simp [refreshRepositoryWithPlan, hfull]⟩ ?_
      rintro ⟨-, -, retained, _, hnone, -⟩
      cases hnone
  | some retained =>
      cases plan with
      | none => exact iff_of_true ⟨⟨retained, .none⟩, rfl⟩ fun h => h.1
      | full =>
          exact iff_of_true ⟨⟨full, .full⟩, by simp [refreshRepositoryWithPlan, hfull]⟩
            fun h => h.2.1 trivial
      | domains domains =>
          have hstale : StaleUpstream discover path (some retained) (.domains domains) ↔
              .upstream ∈ domains ∧ .head ∉ domains ∧ retained.head.BranchGone repo := by
            constructor
            · rintro ⟨hup, hhead, r, repo', hr, hrepo', hgone⟩
              obtain rfl := Option.some.inj hr
              rw [hdiscover] at hrepo'
              obtain rfl := Except.ok.inj hrepo'
              exact ⟨hup, hhead, hgone⟩
            · rintro ⟨hup, hhead, hgone⟩
              exact ⟨hup, hhead, retained, repo, rfl, hdiscover, hgone⟩
          rw [hstale, ← refreshDomains_ok_iff hread retained domains]
          simp only [refreshRepositoryWithPlan, hrepo, Result.ok_bind]
          constructor
          · rintro ⟨refresh, h⟩
            obtain ⟨s, hs, -⟩ := Result.bind_eq_ok.1 h
            exact ⟨s, hs⟩
          · rintro ⟨s, hs⟩
            exact ⟨⟨s, .domains domains⟩, by simp [hs]⟩

/-- A fetch that updates a remote branch. -/
def fetchEvent : WatchEvent :=
  .ok ⟨.modify .data, [repoGitDir.descend [FileName.ofString "refs", FileName.ofString "remotes",
    FileName.ofString "origin", FileName.ofString "main"]], false⟩

def fetchPlan (repo : Repository) : RefreshPlan :=
  refreshPlanForEvent (fun _ => .ok repo) fetchEvent repoRoot (some repoRoot) repoGitDir repoGitDir

/-- As long as the branch of the retained head is there, the refresh for a fetch succeeds. -/
theorem refresh_ok_iff_fetch :
    ∃ refresh, refreshRepositoryWithPlan (fun _ => .ok (branchRepository "topic")) repoRoot
      (some (branchSnapshot "topic")) (fetchPlan (branchRepository "topic")) {} = .ok refresh := by
  have hfull : snapshotRepositoryWithOptions (fun _ => .ok (branchRepository "topic")) repoRoot {} =
      .ok (branchSnapshot "topic") := by decide
  refine (refresh_ok_iff hfull _ _).2 ?_
  rintro ⟨-, -, retained, repo, hr, hrepo, -, name, hname, hgone⟩
  obtain rfl := Option.some.inj hr
  obtain rfl := Except.ok.inj hrepo
  obtain rfl := Option.some.inj hname
  exact hgone ⟨_, rfl, _, List.mem_singleton.2 rfl, by decide⟩

/-- The branch `topic` was checked out when the retained snapshot was read; now `main` is checked
out, `topic` is deleted, and a full read succeeds.  The refresh for the event of a fetch fails. -/
theorem fetch_refresh_fails_after_branch_deletion :
    snapshotRepositoryWithOptions (fun _ => .ok (branchRepository "topic")) repoRoot {} =
        .ok (branchSnapshot "topic") ∧
      snapshotRepositoryWithOptions (fun _ => .ok (branchRepository "main")) repoRoot {} =
        .ok (branchSnapshot "main") ∧
      refreshRepositoryWithPlan (fun _ => .ok (branchRepository "main")) repoRoot
        (some (branchSnapshot "topic")) (fetchPlan (branchRepository "main")) {} =
        .error (.git ⟨.notFound, "cannot locate local branch"⟩) := by
  refine ⟨by decide, by decide, by decide⟩

end Gitseer
