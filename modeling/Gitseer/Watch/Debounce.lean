/-
**One refresh for a burst.**

A Git command touches many files, and the worker does not refresh for each of them: it waits, takes
what has come in, combines the plans and refreshes once.  That this is only a saving is not clear.
The upstream is read for the head that the snapshot has at that point, so that two refreshes in a
row, the first for the upstream and the second for the head, are not one refresh for both.  But no
plan of the classifier reads the head without the upstream, and then they are: whenever the worker
could have refreshed for the events one by one, it ends with the same snapshot in one go.

Main definitions:

* `refreshEach` — a refresh for each plan of a list, one after the other.

Main results:

* `snapshotSections_local` — the section of a domain looks at what it needs only;
* `refresh_eq_ok_iff` — a refresh by a plan as a refresh of the view;
* `refreshEach_combined` — refreshes by closed plans are one refresh by their combination;
* `debounce_agrees` — a burst of events.
-/

import Gitseer.Watch.Burst
import Gitseer.Watch.Refresh

set_option relaxedAutoImplicit false
set_option autoImplicit false

open StdPath (PathBuf)

namespace Gitseer

/-! ### A refresh by a plan, as a refresh of the view -/

theorem part_injective : Function.Injective RepositorySnapshot.part := by
  intro s s' h
  have hpart : ∀ d, s.part d = s'.part d := fun d => congrFun h d
  obtain ⟨hhead, hcommit⟩ := Prod.mk.inj (hpart .head)
  cases s
  cases s'
  simp only [RepositorySnapshot.mk.injEq]
  exact ⟨hpart .identity, hhead, hcommit, hpart .upstream, hpart .paths, hpart .operation,
    hpart .remotes, hpart .branches, hpart .tags, hpart .stashes, hpart .worktrees,
    hpart .submodules⟩

/-- The section of a domain looks at the head only when it is the upstream. -/
theorem snapshotSections_local (options : SnapshotOptions) : (snapshotSections options).Local := by
  intro w v v' d hneeds
  cases w with
  | error e => rfl
  | ok repo =>
      by_cases hd : d = .upstream
      · have hhead : v .head = v' .head := hneeds .head ⟨hd, rfl⟩
        simp only [snapshotSections, Result.ok_bind, hhead]
      · exact readSection_of_ne_upstream hd _ _

section

variable {discover : Discover} {path : PathBuf} {options : SnapshotOptions}
  {repo : Repository} {domains : Finset RefreshDomain} {plan : RefreshPlan}
  {retained s : RepositorySnapshot}

theorem readIf_of_refreshed
    (h : (snapshotSections options).Refreshed (.ok repo) {d | d ∈ domains} retained.part s.part)
    (d : RefreshDomain) :
    readIf domains d (readSection repo options s.head d) (retained.part d) = .ok (s.part d) := by
  by_cases hd : d ∈ domains
  · rw [readIf_of_mem hd]
    exact h.read d hd
  · rw [readIf_of_not_mem hd, h.kept d hd]

/-- A refresh of the view is a targeted refresh. -/
theorem refreshes_of_refreshed
    (h : (snapshotSections options).Refreshed (.ok repo) {d | d ∈ domains} retained.part s.part) :
    Refreshes repo options domains retained s where
  identity := readIf_of_refreshed h .identity
  head := readIf_of_refreshed h .head
  upstream := readIf_of_refreshed h .upstream
  paths := readIf_of_refreshed h .paths
  operation := readIf_of_refreshed h .operation
  remotes := readIf_of_refreshed h .remotes
  branches := readIf_of_refreshed h .branches
  tags := readIf_of_refreshed h .tags
  stashes := readIf_of_refreshed h .stashes
  worktrees := readIf_of_refreshed h .worktrees
  submodules := readIf_of_refreshed h .submodules

/-- A refresh by a plan succeeds with a snapshot exactly when it is a refresh of the view by what
the plan reads. -/
theorem refresh_eq_ok_iff (hplan : plan ≠ .domains ∅) :
    refreshRepositoryWithPlan discover path (some retained) plan options = .ok ⟨s, plan⟩ ↔
      (snapshotSections options).Refreshed (discoverRepository discover path) {d | plan.reads d}
        retained.part s.part := by
  cases plan with
  | none =>
      have hreads : {d | RefreshPlan.none.reads d} = ∅ := rfl
      rw [hreads, Retained.Sections.refreshed_empty_iff, part_injective.eq_iff]
      simp [refreshRepositoryWithPlan, eq_comm]
  | full =>
      have hreads : {d | RefreshPlan.full.reads d} = Set.univ := rfl
      rw [hreads, Retained.Sections.refreshed_univ_iff, ← snapshot_eq_ok_iff]
      cases h : snapshotRepositoryWithOptions discover path options <;>
        simp [refreshRepositoryWithPlan, h]
  | domains domains =>
      obtain ⟨d, hd⟩ : domains.Nonempty :=
        Finset.nonempty_iff_ne_empty.2 fun hempty => hplan (congrArg _ hempty)
      simp only [refreshRepositoryWithPlan]
      cases hrepo : discoverRepository discover path with
      | error e =>
          constructor
          · intro h
            cases h
          · intro h
            cases h.read d hd
      | ok repo =>
          rw [Result.ok_bind]
          constructor
          · intro h
            obtain ⟨found, hfound, hok⟩ := Result.bind_eq_ok.1 h
            obtain rfl := (SnapshotRefresh.mk.inj (Except.ok.inj hok)).1
            exact (refreshDomains_eq_ok.1 hfound).refreshed
          · intro h
            rw [refreshDomains_eq_ok.2 (refreshes_of_refreshed h)]
            rfl

end

/-! ### One refresh after the other -/

/-- A refresh for each plan, each of the snapshot that the one before it left. -/
def refreshEach (discover : Discover) (path : PathBuf) (options : SnapshotOptions)
    (retained : RepositorySnapshot) (plans : List RefreshPlan) :
    Except SnapshotError RepositorySnapshot :=
  plans.foldlM (fun retained plan => do
    let refresh ← refreshRepositoryWithPlan discover path (some retained) plan options
    .ok refresh.snapshot) retained

/-- The plan reads the upstream with the head, and is not without domains. -/
structure RefreshPlan.Composes (plan : RefreshPlan) : Prop where
  closed : plan.HeadWithUpstream
  nonempty : plan ≠ .domains ∅

theorem RefreshPlan.Composes.combine {p q : RefreshPlan} (hp : p.Composes) (hq : q.Composes) :
    (p.combine q).Composes :=
  ⟨hp.closed.combine hq.closed, combine_ne_domains_empty hp.nonempty hq.nonempty⟩

section

variable {discover : Discover} {path : PathBuf} {options : SnapshotOptions}
  {plan next : RefreshPlan} {retained s s' : RepositorySnapshot}

/-- What a refresh returns beside the snapshot is its plan. -/
theorem plan_of_refresh {refresh : SnapshotRefresh}
    (h : refreshRepositoryWithPlan discover path (some retained) plan options = .ok refresh) :
    refresh.plan = plan := by
  cases plan with
  | none => exact (congrArg SnapshotRefresh.plan (Except.ok.inj h)).symm
  | full =>
      obtain ⟨found, -, hok⟩ := Result.bind_eq_ok.1 h
      exact (congrArg SnapshotRefresh.plan (Except.ok.inj hok)).symm
  | domains domains =>
      obtain ⟨repo, -, h⟩ := Result.bind_eq_ok.1 h
      obtain ⟨found, -, hok⟩ := Result.bind_eq_ok.1 h
      exact (congrArg SnapshotRefresh.plan (Except.ok.inj hok)).symm

/-- Two refreshes are one by the combined plan. -/
theorem refresh_combined (hplan : plan.Composes) (hnext : next.Composes)
    (h : refreshRepositoryWithPlan discover path (some retained) plan options = .ok ⟨s, plan⟩)
    (h' : refreshRepositoryWithPlan discover path (some s) next options = .ok ⟨s', next⟩) :
    refreshRepositoryWithPlan discover path (some retained) (plan.combine next) options =
      .ok ⟨s', plan.combine next⟩ := by
  rw [refresh_eq_ok_iff hplan.nonempty] at h
  rw [refresh_eq_ok_iff hnext.nonempty] at h'
  have hreads : {d | (plan.combine next).reads d} = {d | plan.reads d} ∪ {d | next.reads d} :=
    Set.ext fun d => RefreshPlan.reads_combine
  rw [refresh_eq_ok_iff (hplan.combine hnext).nonempty, hreads]
  exact h.comp (snapshotSections_local options) (closed_of_headWithUpstream hnext.closed) h'

/-- Refreshes one after the other, after a first one, are one by the combination of all plans. -/
theorem refreshEach_combined {plans : List RefreshPlan} (hplan : plan.Composes)
    (hplans : ∀ p ∈ plans, p.Composes)
    (h : refreshRepositoryWithPlan discover path (some retained) plan options = .ok ⟨s, plan⟩)
    (heach : refreshEach discover path options s plans = .ok s') :
    refreshRepositoryWithPlan discover path (some retained)
      (plans.foldl RefreshPlan.combine plan) options =
        .ok ⟨s', plans.foldl RefreshPlan.combine plan⟩ := by
  induction plans generalizing plan s with
  | nil =>
      obtain rfl := Except.ok.inj heach
      exact h
  | cons next plans ih =>
      rw [refreshEach, List.foldlM_cons] at heach
      obtain ⟨t, hstep, hrest⟩ := Result.bind_eq_ok.1 heach
      obtain ⟨⟨t', taken⟩, hrefresh, ht⟩ := Result.bind_eq_ok.1 hstep
      obtain rfl := Except.ok.inj ht
      obtain rfl := plan_of_refresh hrefresh
      obtain ⟨hnext, hothers⟩ := List.forall_mem_cons.1 hplans
      exact ih (hplan.combine hnext) hothers (refresh_combined hplan hnext h hrefresh) hrest

end

/-! ### Bursts -/

/-- The plans of the events, each computed for itself. -/
def eventPlans (discover : Discover) (repoPath : PathBuf) (worktreeRoot : Option PathBuf)
    (gitDir commonDir : PathBuf) (events : List WatchEvent) : List RefreshPlan :=
  events.map fun event =>
    refreshPlanForEvent discover event repoPath worktreeRoot gitDir commonDir

/-- What a turn that takes the events refreshes by. -/
def debouncedPlan (discover : Discover) (repoPath : PathBuf) (worktreeRoot : Option PathBuf)
    (gitDir commonDir : PathBuf) (events : List WatchEvent) : RefreshPlan :=
  (eventPlans discover repoPath worktreeRoot gitDir commonDir events).foldl RefreshPlan.combine
    .none

instance : RightCommutative RefreshPlan.combine :=
  ⟨fun p q r => sup_right_comm (a := p) (b := q) (c := r)⟩

section

variable {discover : Discover} {repoPath : PathBuf} {worktreeRoot : Option PathBuf}
  {gitDir commonDir : PathBuf} {events : List WatchEvent} {options : SnapshotOptions}
  {retained s : RepositorySnapshot}

theorem eventPlans_compose :
    ∀ p ∈ eventPlans discover repoPath worktreeRoot gitDir commonDir events, p.Composes := by
  intro p hp
  obtain ⟨event, -, rfl⟩ := List.mem_map.1 hp
  exact ⟨refreshPlanForEvent_headWithUpstream discover repoPath worktreeRoot gitDir commonDir event,
    refreshPlanForEvent_ne_domains_empty event⟩

/-- In whichever order the events come, they have one plan. -/
theorem debouncedPlan_perm {events' : List WatchEvent} (h : events'.Perm events) :
    debouncedPlan discover repoPath worktreeRoot gitDir commonDir events' =
      debouncedPlan discover repoPath worktreeRoot gitDir commonDir events :=
  (h.map _).foldl_eq _

/-- If the snapshot could be refreshed for the events one by one, the refresh by their combined plan
gives the same snapshot; and so would refreshes in any other order. -/
theorem debounce_agrees
    (heach : refreshEach discover repoPath options retained
      (eventPlans discover repoPath worktreeRoot gitDir commonDir events) = .ok s) :
    refreshRepositoryWithPlan discover repoPath (some retained)
        (debouncedPlan discover repoPath worktreeRoot gitDir commonDir events) options =
      .ok ⟨s, debouncedPlan discover repoPath worktreeRoot gitDir commonDir events⟩ ∧
    ∀ events' s', events'.Perm events → refreshEach discover repoPath options retained
        (eventPlans discover repoPath worktreeRoot gitDir commonDir events') = .ok s' → s' = s := by
  have hnone : RefreshPlan.none.Composes := ⟨RefreshPlan.headWithUpstream_none, by simp⟩
  have hall := refreshEach_combined hnone eventPlans_compose rfl heach
  refine ⟨hall, fun events' s' hperm heach' => ?_⟩
  have hall' := refreshEach_combined hnone eventPlans_compose rfl heach'
  have hplans : debouncedPlan discover repoPath worktreeRoot gitDir commonDir events' =
      debouncedPlan discover repoPath worktreeRoot gitDir commonDir events :=
    debouncedPlan_perm hperm
  rw [debouncedPlan, debouncedPlan] at hplans
  rw [hplans, hall] at hall'
  exact (SnapshotRefresh.mk.inj (Except.ok.inj hall')).1.symm

end

/-- A merge starts, and touches the index. -/
def mergeBurst : List WatchEvent := [mergeEvent, .ok ⟨.modify .data, [indexFile], false⟩]

/-- The burst is refreshed for in one go. -/
theorem debounce_agrees_merge :
    refreshRepositoryWithPlan (fun _ => .ok mergingRepository) repoRoot (some plainSnapshot)
      (debouncedPlan (fun _ => .ok mergingRepository) repoRoot (some repoRoot) repoGitDir repoGitDir
        mergeBurst) {} =
    .ok ⟨mergingSnapshot, debouncedPlan (fun _ => .ok mergingRepository) repoRoot (some repoRoot)
      repoGitDir repoGitDir mergeBurst⟩ := by
  refine (debounce_agrees ?_).1
  decide

end Gitseer
