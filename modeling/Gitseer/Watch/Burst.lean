/-
**The plan of a burst of events.**

While a turn of the server waits for a burst of events to end, it combines their plans.  How the
burst is cut into events, and in which order they arrive, differs from run to run.  The combined
plan does not: plans form a join semilattice, and the plan of the burst is the least upper bound of
the plan that was there and the plans of all paths that the events name.

Main definitions:

* `drainPlan` — the combination of the plans of a list of events;
* `IsBurst` — events that are mutating, have lost nothing and name a path each;
* `namedPaths` — the paths that the events name.

Main results:

* `drainPlan_isLUB` — the plan of a burst is a least upper bound;
* `drainPlan_of_burst` — it depends on the paths only, and it is never a plan without domains.
-/

import Gitseer.Lib.Join
import Gitseer.Watch.Control
import Gitseer.Watch.Roots

set_option relaxedAutoImplicit false
set_option autoImplicit false

open StdPath (PathBuf FileName)

namespace Gitseer

/-! ### Bursts -/

/-- The plans of the events, combined one after another with the plan that was there. -/
def drainPlan (discover : Discover) (repoPath : PathBuf) (worktreeRoot : Option PathBuf)
    (gitDir commonDir : PathBuf) (initial : RefreshPlan) (events : List Event) : RefreshPlan :=
  events.foldl (fun plan event => plan.combine
    (refreshPlanForEvent discover (.ok event) repoPath worktreeRoot gitDir commonDir)) initial

/-- Every event is mutating, does not say that others were lost, and names a path. -/
def IsBurst (events : List Event) : Prop :=
  ∀ event ∈ events, isMutatingEvent event = true ∧ event.needRescan = false ∧ event.paths ≠ []

/-- The paths that are named by some event. -/
def namedPaths (events : List Event) : Set PathBuf :=
  {path | ∃ event ∈ events, path ∈ event.paths}

/-- The plan is one of those the source builds. -/
def RefreshPlan.IsBuilt (plan : RefreshPlan) : Prop :=
  plan = .none ∨ plan = .full ∨ ∃ domains, plan = .ofDomains domains

/-! ### Plans without domains -/

theorem RefreshPlan.combine_ne_domains_empty {p q : RefreshPlan} (hp : p ≠ .domains ∅)
    (hq : q ≠ .domains ∅) : p.combine q ≠ .domains ∅ := by
  cases p with
  | none => simpa using hq
  | full => simp
  | domains s =>
      cases q with
      | none => simpa using hp
      | full => simp
      | domains t =>
          rw [RefreshPlan.domains_combine]
          intro h
          have hunion : s ∪ t = ∅ := RefreshPlan.domains.inj h
          exact hp (congrArg _ (Finset.subset_empty.1 (hunion ▸ Finset.subset_union_left)))

theorem RefreshPlan.ofDomains_ne_domains_empty (domains : List RefreshDomain) :
    RefreshPlan.ofDomains domains ≠ .domains ∅ := by
  cases domains with
  | nil => simp [RefreshPlan.ofDomains]
  | cons d domains => simp [RefreshPlan.ofDomains]

theorem RefreshPlan.IsBuilt.ne_domains_empty {plan : RefreshPlan} (h : plan.IsBuilt) :
    plan ≠ .domains ∅ := by
  rcases h with rfl | rfl | ⟨domains, rfl⟩
  · simp
  · simp
  · exact RefreshPlan.ofDomains_ne_domains_empty domains

section

variable {discover : Discover} {repoPath : PathBuf} {worktreeRoot : Option PathBuf}
  {gitDir commonDir : PathBuf} {initial : RefreshPlan} {events : List Event} {event : Event}

/-- Every branch of the cascades gives one of the plans the source builds. -/
theorem RefreshPlan.IsBuilt.ite {c : Prop} [Decidable c] {p q : RefreshPlan} (hp : p.IsBuilt)
    (hq : q.IsBuilt) : (if c then p else q).IsBuilt := by
  split
  · exact hp
  · exact hq

theorem RefreshPlan.isBuilt_none : IsBuilt .none := .inl rfl

theorem RefreshPlan.isBuilt_full : IsBuilt .full := .inr (.inl rfl)

theorem RefreshPlan.isBuilt_ofDomains (domains : List RefreshDomain) :
    IsBuilt (.ofDomains domains) := .inr (.inr ⟨domains, rfl⟩)

open RefreshPlan

theorem refreshPlanForGitText_isBuilt (text : String) :
    (refreshPlanForGitText discover repoPath text).IsBuilt := by
  unfold refreshPlanForGitText
  repeat' first
    | exact isBuilt_none
    | exact isBuilt_full
    | exact isBuilt_ofDomains _
    | refine IsBuilt.ite ?_ ?_

theorem refreshPlanForGitPath_isBuilt (path : PathBuf) :
    (refreshPlanForGitPath discover repoPath gitDir commonDir path).IsBuilt := by
  unfold refreshPlanForGitPath
  dsimp only
  split
  · exact refreshPlanForGitText_isBuilt _
  · exact isBuilt_none
  · exact refreshPlanForGitText_isBuilt _

theorem refreshPlanForWorktreePath_isBuilt (relative : PathBuf) :
    (refreshPlanForWorktreePath discover repoPath relative).IsBuilt := by
  unfold refreshPlanForWorktreePath
  have hdomains := isBuilt_ofDomains
  refine (hdomains _).ite ((hdomains _).ite ((hdomains _).ite ((hdomains _).ite ?_)))
  cases discover repoPath with
  | error e => exact hdomains _
  | ok repo => exact isBuilt_none.ite (hdomains _)

theorem refreshPlanForPath_isBuilt (path : PathBuf) :
    (refreshPlanForPath discover repoPath worktreeRoot gitDir commonDir path).IsBuilt := by
  unfold refreshPlanForPath
  refine (refreshPlanForGitPath_isBuilt path).ite ((isBuilt_ofDomains _).ite ?_)
  cases worktreeRoot with
  | none => exact isBuilt_full
  | some root =>
      refine isBuilt_full.ite ?_
      cases path.stripPrefix root with
      | none => exact isBuilt_full
      | some relative => exact refreshPlanForWorktreePath_isBuilt relative

/-! ### The plan of a burst -/

/-- An event of a burst has the plans of its paths combined. -/
theorem refreshPlanForEvent_of_burst (hmut : isMutatingEvent event = true)
    (hrescan : event.needRescan = false) (hpaths : event.paths ≠ []) :
    refreshPlanForEvent discover (.ok event) repoPath worktreeRoot gitDir commonDir =
      event.paths.foldl (fun plan path => plan.combine
        (refreshPlanForPath discover repoPath worktreeRoot gitDir commonDir path)) .none := by
  simp [refreshPlanForEvent, hmut, hrescan, hpaths]

/-- The plan of a burst is the least plan above the plan that was there and those of the paths. -/
theorem drainPlan_isLUB (hevents : IsBurst events) :
    IsLUB (insert initial
        (refreshPlanForPath discover repoPath worktreeRoot gitDir commonDir '' namedPaths events))
      (drainPlan discover repoPath worktreeRoot gitDir commonDir initial events) := by
  rw [isLUB_iff_le_iff]
  intro c
  have hfold : drainPlan discover repoPath worktreeRoot gitDir commonDir initial events ≤ c ↔
      initial ≤ c ∧ ∀ event ∈ events, refreshPlanForEvent discover (.ok event) repoPath
        worktreeRoot gitDir commonDir ≤ c := Join.foldl_sup_le_iff
  rw [hfold, upperBounds_insert, Set.mem_inter_iff, Set.mem_Ici]
  refine and_congr_right fun _ => ?_
  have hevent : ∀ event ∈ events,
      (refreshPlanForEvent discover (.ok event) repoPath worktreeRoot gitDir commonDir ≤ c ↔
        ∀ path ∈ event.paths,
          refreshPlanForPath discover repoPath worktreeRoot gitDir commonDir path ≤ c) := by
    intro event hmem
    obtain ⟨hmut, hrescan, hpaths⟩ := hevents event hmem
    rw [refreshPlanForEvent_of_burst hmut hrescan hpaths]
    exact Join.foldl_sup_le_iff.trans (and_iff_right (RefreshPlan.none_le c))
  constructor
  · rintro hall _ ⟨path, ⟨event, hmem, hpath⟩, rfl⟩
    exact (hevent event hmem).1 (hall event hmem) path hpath
  · intro hupper event hmem
    exact (hevent event hmem).2 fun path hpath => hupper ⟨path, ⟨event, hmem, hpath⟩, rfl⟩

theorem refreshPlanForEvent_ne_domains_empty (event : WatchEvent) :
    refreshPlanForEvent discover event repoPath worktreeRoot gitDir commonDir ≠ .domains ∅ := by
  unfold refreshPlanForEvent
  split
  · simp
  · split_ifs
    · simp
    · simp
    · simp
    · exact Join.foldl_sup_of_closed (P := fun plan : RefreshPlan => plan ≠ .domains ∅)
        (fun _ _ => combine_ne_domains_empty)
        (fun path => (refreshPlanForPath_isBuilt path).ne_domains_empty) (by simp)

theorem drainPlan_ne_domains_empty (hinitial : initial.IsBuilt) :
    drainPlan discover repoPath worktreeRoot gitDir commonDir initial events ≠ .domains ∅ :=
  Join.foldl_sup_of_closed (P := fun plan : RefreshPlan => plan ≠ .domains ∅)
    (fun _ _ => combine_ne_domains_empty)
    (fun event => refreshPlanForEvent_ne_domains_empty (.ok event)) hinitial.ne_domains_empty

/-- The plan of a burst depends on the plan that was there and the paths only: another burst that
names the same paths has the same plan.  It is above the plan that was there and the plan of every
path, and it is never a plan without domains. -/
theorem drainPlan_of_burst (hinitial : initial.IsBuilt) (hevents : IsBurst events) :
    (∀ events', IsBurst events' → namedPaths events' = namedPaths events →
      drainPlan discover repoPath worktreeRoot gitDir commonDir initial events' =
        drainPlan discover repoPath worktreeRoot gitDir commonDir initial events) ∧
    initial ≤ drainPlan discover repoPath worktreeRoot gitDir commonDir initial events ∧
    (∀ path ∈ namedPaths events,
      refreshPlanForPath discover repoPath worktreeRoot gitDir commonDir path ≤
        drainPlan discover repoPath worktreeRoot gitDir commonDir initial events) ∧
    drainPlan discover repoPath worktreeRoot gitDir commonDir initial events ≠ .domains ∅ := by
  have hleast : IsLUB _ (drainPlan discover repoPath worktreeRoot gitDir commonDir initial events) :=
    drainPlan_isLUB hevents
  refine ⟨?_, hleast.1 (Set.mem_insert _ _), ?_, drainPlan_ne_domains_empty hinitial⟩
  · intro events' hevents' hsame
    have hleast' : IsLUB _
        (drainPlan discover repoPath worktreeRoot gitDir commonDir initial events') :=
      drainPlan_isLUB hevents'
    rw [hsame] at hleast'
    exact hleast'.unique hleast
  · intro path hpath
    exact hleast.1 (Set.mem_insert_of_mem _ (Set.mem_image_of_mem _ hpath))

end

/-! ### A burst cut in two ways -/

def sourceFile : PathBuf := repoRoot.descend [srcName, forcedName]

def indexFile : PathBuf := repoGitDir.descend (namesOf "index")

/-- A source file and the index change. -/
def mergedBurst : List Event := [⟨.modify .data, [sourceFile, indexFile], false⟩]

/-- The same in three events. -/
def splitBurst : List Event :=
  [⟨.modify .data, [indexFile], false⟩, ⟨.create .file, [sourceFile], false⟩,
    ⟨.modify .data, [indexFile], false⟩]

theorem mergedBurst_isBurst : IsBurst mergedBurst := by
  intro event hevent
  rw [List.mem_singleton.1 hevent]
  exact ⟨rfl, rfl, by simp⟩

theorem splitBurst_isBurst : IsBurst splitBurst := by
  intro event hevent
  simp only [splitBurst, List.mem_cons, List.not_mem_nil, or_false] at hevent
  rcases hevent with rfl | rfl | rfl
  · exact ⟨rfl, rfl, by simp⟩
  · exact ⟨rfl, rfl, by simp⟩
  · exact ⟨rfl, rfl, by simp⟩

/-- Both ways of cutting the burst give one plan. -/
theorem drainPlan_of_burst_split :
    drainPlan (fun _ => .ok plainRepository) repoRoot (some repoRoot) repoGitDir repoGitDir .none
        splitBurst =
      drainPlan (fun _ => .ok plainRepository) repoRoot (some repoRoot) repoGitDir repoGitDir .none
        mergedBurst := by
  refine (drainPlan_of_burst (.inl rfl) mergedBurst_isBurst).1 splitBurst splitBurst_isBurst ?_
  ext path
  simp only [namedPaths, splitBurst, mergedBurst, Set.mem_ofPred_eq, List.mem_cons,
    List.not_mem_nil, or_false, exists_eq_or_imp, exists_eq_left]
  tauto

end Gitseer
