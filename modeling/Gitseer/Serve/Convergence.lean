/-
**Once everything is announced, the worker has what the repository holds.**

The repository changes while the loop runs.  A change makes sections of the retained snapshot stale,
and sooner or later the watcher offers an event for it.  Between the two the worker knows nothing of
the change; after them the event may wait in the queue, be dropped, be taken, be due in a turn.  All
of that comes to an end: when the loop waits at an empty queue, every event that was offered was
covered by a refresh after it, and so every section that was announced as stale was read again.

The worker is then *convergent*: if every section that became stale in the run was announced by some
event after that, the retained snapshot is what a full read of the repository gives now, and a
client that was sent everything holds it too.  How the changes and their events are interleaved with
lines, turns and overflows does not matter.

Main definitions:

* `Alters`, `Misreads` — what makes a section stale: a change, or a line with other options;
* `Unread` — the sections that became stale and were not read since;
* `Announced` — every section that became stale is announced by a later event;
* `HeardStep`, `SeenStep` — the steps of which a client hears enough.

Main results:

* `RetainedTrue.step`, `retainedTrue_of_run` — sections that are not unread are right;
* `unread_at_rest` — at an empty queue nothing that was announced is unread;
* `retained_converges`, `client_converges` — the worker and its client have what is there.
-/

import Gitseer.Serve.NoLoss
import Gitseer.Serve.Refinement

set_option relaxedAutoImplicit false
set_option autoImplicit false

open StdPath (PathBuf)

namespace Gitseer

/-! ### What becomes stale -/

/-- The sections whose value a change of the repository alters. -/
def Alters (s s' : LoopState) : Set RefreshDomain :=
  alteredDomains s.process.repo {} s.world.discover s'.world.discover

/-- The step is a line. -/
def LoopLabel.isLine : LoopLabel → Bool
  | .line _ _ => true
  | _ => false

/-- The value of a section by a full read with default options, in the world of a state. -/
def LoopState.value (s : LoopState) : (d : RefreshDomain) → Except SnapshotError (Section d) :=
  (snapshotSections {}).value (discoverRepository s.world.discover s.process.repo)

/-- The sections of a new baseline that a line had read with other options than the worker uses. -/
def Misreads (s : LoopState) (l : LoopLabel) (s' : LoopState) : Set RefreshDomain :=
  {d | l.isLine = true ∧ s'.process.latestSnapshot ≠ s.process.latestSnapshot ∧
    ∃ snapshot, s'.process.latestSnapshot = some snapshot ∧ s'.value d ≠ .ok (snapshot.part d)}

/-- A step of a loop with a subscriber, without a cancelled update, together with the sections that
become stale in it. -/
def ObservedStep (serde : SerdeJson) (capacity budget : ℕ) (s : LoopState)
    (l : LoopLabel × Set RefreshDomain) (s' : LoopState) : Prop :=
  SubscribedStep serde capacity budget s l.1 s' ∧ l.2 = Alters s s' ∪ Misreads s l.1 s'

/-- The step is a refresh that reads the section. -/
def LoopLabel.Reads (d : RefreshDomain) (l : LoopLabel) : Prop :=
  ∃ plan messages, l = .refreshed plan messages ∧ plan.reads d

/-- The sections that became stale and were not read by a refresh since. -/
def Unread (labels : List (LoopLabel × Set RefreshDomain)) : Set RefreshDomain :=
  {d | ∃ before l after, labels = before ++ l :: after ∧ d ∈ l.2 ∧ ∀ l' ∈ after, ¬ l'.1.Reads d}

/-- Every section that became stale is announced by an event offered after that: when the plan of
the event is computed, it reads the section. -/
def Announced (labels : List (LoopLabel × Set RefreshDomain)) : Prop :=
  ∀ before l after, labels = before ++ l :: after → ∀ d ∈ l.2,
    ∃ k event accepted, .offered k event accepted ∈ after.map Prod.fst ∧
      ∀ plan, .planned (some k) plan ∈ after.map Prod.fst → plan.reads d

theorem unread_concat {labels : List (LoopLabel × Set RefreshDomain)}
    {l : LoopLabel × Set RefreshDomain} {d : RefreshDomain}
    (h : d ∈ Unread labels ∧ ¬ l.1.Reads d ∨ d ∈ l.2) : d ∈ Unread (labels ++ [l]) := by
  rcases h with ⟨⟨before, m, after, rfl, hm, hnone⟩, hl⟩ | hl
  · refine ⟨before, m, after ++ [l], by simp, hm, ?_⟩
    intro l' hl'
    rcases List.mem_append.1 hl' with hl' | hl'
    · exact hnone l' hl'
    · rw [List.mem_singleton.1 hl']
      exact hl
  · exact ⟨labels, l, [], rfl, hl, fun l' h => by cases h⟩

/-! ### The plans of the loop -/

/-- The plan of a turn is a combination of plans of the classifier. -/
def PlanOfEvents (s : LoopState) : Prop := ∀ plan, s.pc.plan = some plan → ClassifierPlan plan

section

variable {serde : SerdeJson} {capacity budget : ℕ} {s₀ s s' : LoopState} {l : LoopLabel}

theorem PlanOfEvents.of_plan_none (h : s.pc.plan = none) : PlanOfEvents s := by
  intro plan hplan
  rw [h] at hplan
  cases hplan

theorem classifierPlan_withPlan {plan plan' : RefreshPlan} {pc : Pc} (hplan : ClassifierPlan plan)
    (hpc : pc.plan = some plan) (h : (Pc.withPlan plan pc).plan = some plan') :
    ClassifierPlan plan' := by
  unfold Pc.withPlan at h
  split at h
  · rw [hpc] at h
    exact Option.some.inj h ▸ hplan
  · cases h

theorem PlanOfEvents.step (hinv : PlanOfEvents s) (h : LoopStep serde capacity budget s l s') :
    PlanOfEvents s' := by
  have hevent : ∀ event, ClassifierPlan (s.refreshPlanForEvent event) :=
    fun event => .event _ _ _ _ _ _
  cases h with
  | offer hrefresh => exact hinv
  | change hpersists => exact hinv
  | pollOverflow hpc hover => exact .of_plan_none rfl
  | pollRecv hpc hover => exact .of_plan_none rfl
  | recvTake hpc hitems => exact .of_plan_none rfl
  | advance hpc hadvance => exact fun plan hplan => hinv plan (by rw [hpc]; exact hplan)
  | plan hpc hsubscribed => exact fun plan hplan => classifierPlan_withPlan (hevent _) rfl hplan
  | discard hpc hsubscribed => exact .of_plan_none rfl
  | wakeOverflow hpc hover => exact fun plan hplan => classifierPlan_withPlan .full rfl hplan
  | wake hpc hover => exact fun plan hplan => hinv plan (by rw [hpc]; exact hplan)
  | drainTake hpc hitems => exact fun plan hplan => hinv plan (by rw [hpc]; exact hplan)
  | @drainPlan serial drained event plan hpc =>
      have hcombined := (hinv plan (by rw [hpc]; rfl)).combine (hevent event)
      intro plan' hplan
      dsimp only [Pc.afterDrained] at hplan
      split at hplan <;> exact Option.some.inj hplan ▸ hcombined
  | drainEmpty hpc hitems => exact fun plan hplan => hinv plan (by rw [hpc]; exact hplan)
  | endOverflow hpc hover => exact fun plan hplan => classifierPlan_withPlan .full rfl hplan
  | @endDrain plan hpc hover =>
      have hold := hinv plan (by rw [hpc]; rfl)
      exact fun plan' hplan => classifierPlan_withPlan hold rfl hplan
  | refresh hpc hupdate => exact .of_plan_none rfl
  | refreshFails hpc hupdate => exact .of_plan_none rfl
  | line hwaits hhandle => exact .of_plan_none rfl
  | stop hwaits => exact .of_plan_none rfl

/-! ### What was read is right -/

/-- The sections of the retained snapshot that are not unread are right. -/
def RetainedTrue (labels : List (LoopLabel × Set RefreshDomain)) (s : LoopState) : Prop :=
  ∀ snapshot, s.process.latestSnapshot = some snapshot →
    (snapshotSections {}).Fresh (discoverRepository s.world.discover s.process.repo)
      (Unread labels) snapshot.part

/-- Every step leaves right what is not unread. -/
theorem RetainedTrue.step {labels : List (LoopLabel × Set RefreshDomain)}
    {m : LoopLabel × Set RefreshDomain} (htrue : RetainedTrue labels s) (hplan : PlanOfEvents s)
    (hstep : ObservedStep serde capacity budget s m s') : RetainedTrue (labels ++ [m]) s' := by
  obtain ⟨⟨⟨hstep, -⟩, -⟩, hstale⟩ := hstep
  have hkeeps : ∀ {d}, d ∈ Unread labels → ¬ m.1.Reads d → d ∈ Unread (labels ++ [m]) :=
    fun hd hl => unread_concat (Or.inl ⟨hd, hl⟩)
  have hnew : ∀ {d}, d ∈ Alters s s' ∪ Misreads s m.1 s' → d ∈ Unread (labels ++ [m]) :=
    fun hd => unread_concat (Or.inr (hstale ▸ hd))
  intro snapshot hsnapshot
  rcases hstep.sends with ⟨hprocess, -, hnot⟩ | ⟨plan, process, messages, hpc, hupdate, hl, rfl⟩ |
    ⟨text, process, messages, -, hhandle, hl, rfl⟩
  · -- the world may change, and the snapshot is the same
    rw [hprocess] at hsnapshot ⊢
    refine (htrue snapshot hsnapshot).change.mono ?_
    rintro d (hd | hd)
    · exact hkeeps hd fun ⟨plan, messages, hl, _⟩ => hnot plan messages hl
    · exact hnew (Or.inl hd)
  · obtain ⟨refresh, hrefresh, hsome⟩ := Result.bind_eq_ok.1 hupdate
    obtain ⟨hrepo, hlatest, -⟩ := snapshotUpdateMessages_spec (Except.ok.inj hsome)
    obtain rfl := Option.some.inj (hlatest.symm.trans hsnapshot)
    rw [show process.repo = s.process.repo from hrepo]
    have hclassified := hplan plan (by rw [hpc]; rfl)
    have hfresh := RetainedFresh.refresh (s := ⟨s.world.discover, s.process.latestSnapshot⟩) htrue
      hclassified hrefresh
    refine hfresh.mono ?_
    rintro d ⟨hd, hunread⟩
    refine hkeeps hd ?_
    rw [hl]
    rintro ⟨plan', messages', hsame, hreads⟩
    obtain ⟨rfl, -⟩ := LoopLabel.refreshed.inj hsame
    exact hunread hreads
  · have hrepo : process.repo = s.process.repo := handleRequest_repo hhandle
    by_cases hsame : process.latestSnapshot = s.process.latestSnapshot
    · rw [hrepo]
      refine (htrue snapshot (hsame ▸ hsnapshot)).mono fun d hd => hkeeps hd ?_
      rw [hl]
      rintro ⟨plan, messages', hline, -⟩
      cases hline
    · -- a section of the new baseline is right, or the line misread it
      intro d hclean
      by_contra hne
      refine hclean d Relation.ReflTransGen.refl (hnew (Or.inr ⟨by rw [hl]; rfl, hsame, ?_⟩))
      exact ⟨snapshot, hsnapshot, hne⟩

theorem retainedTrue_of_run {labels : List (LoopLabel × Set RefreshDomain)} (hstart : s₀.AtStart)
    (hfull : ∀ snapshot, s₀.process.latestSnapshot = some snapshot →
      snapshotRepository s₀.world.discover s₀.process.repo = .ok snapshot)
    (hrun : Lts.Run (ObservedStep serde capacity budget) s₀ labels s) :
    RetainedTrue labels s ∧ PlanOfEvents s := by
  induction hrun with
  | nil =>
      refine ⟨fun snapshot hsnapshot => fresh_of_snapshot (hfull snapshot hsnapshot), ?_⟩
      exact .of_plan_none (by rw [hstart.pc]; rfl)
  | snoc _ hstep ih => exact ⟨ih.1.step ih.2 hstep, ih.2.step hstep.1.1.1⟩

/-! ### At an empty queue nothing that was announced is unread -/

/-- The loop waits for the next event, and the queue is empty. -/
structure LoopState.AtRest (s : LoopState) : Prop where
  pc : s.pc = .recv
  items : s.queue.items = []

/-- Events are numbered on. -/
theorem offers_le {labels : List LoopLabel}
    (hrun : Lts.Run (LoopStep serde capacity budget) s labels s') :
    s.offers ≤ s'.offers ∧
      ∀ k event accepted, .offered k event accepted ∈ labels → s.offers ≤ k := by
  induction hrun with
  | nil => exact ⟨le_rfl, fun _ _ _ h => by cases h⟩
  | snoc _ hstep ih =>
      obtain ⟨hle, hoffered⟩ := ih
      rcases hstep.queue_cases with ⟨event, accepted, rfl, hoffers, -⟩ | ⟨hno, hoffers, -⟩
      · refine ⟨by omega, fun k event' accepted' hmem => ?_⟩
        rcases List.mem_append.1 hmem with hmem | hmem
        · exact hoffered k event' accepted' hmem
        · obtain ⟨rfl, -, -⟩ := LoopLabel.offered.inj (List.mem_singleton.1 hmem)
          exact hle
      · refine ⟨by omega, fun k event accepted hmem => ?_⟩
        rcases List.mem_append.1 hmem with hmem | hmem
        · exact hoffered k event accepted hmem
        · exact absurd (List.mem_singleton.1 hmem).symm (hno k event accepted)

/-- The fate of an event that was not offered before is what has become of it since. -/
theorem fate_append_of_unknown {k : ℕ} {before : List LoopLabel} (after : List LoopLabel)
    (h : fate k before = .unknown) : fate k (before ++ after) = fate k after := by
  rw [fate, List.foldl_append]
  exact congrArg (fun f => after.foldl (Fate.after k) f) h

/-- At rest every event that was offered is settled or recovered. -/
theorem fate_at_rest {labels : List LoopLabel} (hstart : s₀.AtStart) (hcapacity : 0 < capacity)
    (hrun : Lts.Run (SubscribedStep serde capacity budget) s₀ labels s) (hrest : s.AtRest)
    {k : ℕ} {event : WatchEvent} {accepted : Bool} (hoffered : .offered k event accepted ∈ labels) :
    fate k labels = .settled ∨ fate k labels = .recovered := by
  obtain ⟨hfates, hqueue, -⟩ := run_invariants hstart (hrun.mono fun _ _ _ h => h.1)
  have hplace := hfates.heldBy (by rw [hrest.pc]; simp) k
  have hplan : s.pc.plan = none := by rw [hrest.pc]; rfl
  cases hf : fate k labels with
  | settled => exact Or.inl rfl
  | recovered => exact Or.inr rfl
  | unknown => exact absurd hf (fate_of_offered hoffered)
  | ignored subscribed => exact absurd hf (fate_ne_ignored hrun k subscribed)
  | queued =>
      rw [hf] at hplace
      obtain ⟨event', hmem⟩ := hplace
      rw [hrest.items] at hmem
      cases hmem
  | lost =>
      -- the flag would be set, but the queue is empty while the loop waits
      rw [hf] at hplace
      have hclear := (hqueue.2 hrest.pc).not_overflowed hcapacity hrest.items
      rw [show s.queue.overflowed = true from hplace] at hclear
      cases hclear
  | taken subscribed =>
      rw [hf] at hplace
      have hserial : s.pc.serial = some k := hplace
      rw [hrest.pc] at hserial
      cases hserial
  | due own =>
      rw [hf] at hplace
      obtain ⟨-, plan, hsome, -⟩ := hplace
      rw [hplan] at hsome
      cases hsome
  | recovering =>
      rw [hf] at hplace
      rcases (hplace : s.pc.Recovers) with hover | hfull
      · rw [hrest.pc] at hover
        cases hover
      · rw [hplan] at hfull
        cases hfull

theorem RefreshPlan.reads_mono {own plan : RefreshPlan} {d : RefreshDomain} (hle : own ≤ plan)
    (h : own.reads d) : plan.reads d := by
  cases own with
  | none => exact h.elim
  | domains domains =>
      cases plan with
      | none => exact absurd hle (RefreshPlan.not_domains_le_none domains)
      | domains domains' => exact hle h
      | full => trivial
  | full =>
      cases plan with
      | none => exact absurd hle RefreshPlan.not_full_le_none
      | domains domains' => exact absurd hle (RefreshPlan.not_full_le_domains domains')
      | full => trivial

theorem RefreshPlan.shouldRefresh_of_reads {plan : RefreshPlan} {d : RefreshDomain}
    (h : plan.reads d) : plan.shouldRefresh = true := by
  cases plan with
  | none => exact h.elim
  | domains domains => rfl
  | full => rfl

/-- What the labels after a section became stale say of the event that announced it: a refresh read
the section. -/
theorem exists_reads {k : ℕ} {labels : List LoopLabel} {d : RefreshDomain}
    (hplans : ∀ plan, .planned (some k) plan ∈ labels → plan.reads d)
    (hfate : fate k labels = .settled ∨ fate k labels = .recovered) :
    ∃ l ∈ labels, l.Reads d := by
  have hexplained := fate_explained k labels
  rcases hfate with hsettled | hrecovered
  · rw [hsettled] at hexplained
    obtain ⟨own, after, ⟨before, rfl, -⟩, hcovered⟩ := hexplained
    have hreads := hplans own (by simp)
    rcases hcovered with hnothing | ⟨plan, messages, hmem, hle⟩
    · rw [RefreshPlan.shouldRefresh_of_reads hreads] at hnothing
      cases hnothing
    · refine ⟨.refreshed plan messages, by simp [hmem], ?_⟩
      exact ⟨plan, messages, rfl, RefreshPlan.reads_mono hle hreads⟩
  · rw [hrecovered] at hexplained
    obtain ⟨after, ⟨before, event, between, test, rfl⟩, messages, hmem⟩ := hexplained
    exact ⟨.refreshed .full messages, by simp [hmem], .full, messages, rfl, trivial⟩

/-- At rest nothing that was announced is unread. -/
theorem unread_at_rest {labels : List (LoopLabel × Set RefreshDomain)} (hstart : s₀.AtStart)
    (hcapacity : 0 < capacity) (hrun : Lts.Run (ObservedStep serde capacity budget) s₀ labels s)
    (hannounced : Announced labels) (hrest : s.AtRest) : Unread labels = ∅ := by
  rw [Set.eq_empty_iff_forall_notMem]
  rintro d ⟨before, l, after, rfl, hd, hnone⟩
  obtain ⟨k, event, accepted, hoffered, hplans⟩ := hannounced before l after rfl d hd
  have hlabels := hrun.map Prod.fst fun _ _ _ h => h.1
  rw [List.append_cons, List.map_append] at hlabels
  -- the event was offered after the section became stale
  obtain ⟨u, hfirst, hrest'⟩ := hlabels.split
  obtain ⟨hfates, -, -⟩ := run_invariants hstart (hfirst.mono fun _ _ _ h => h.1)
  have hle := (offers_le (hrest'.mono fun _ _ _ h => h.1.1)).2 k event accepted hoffered
  have hunknown := hfates.fresh k hle
  have hfate := fate_at_rest hstart hcapacity hlabels hrest
    (List.mem_append_right _ hoffered)
  rw [fate_append_of_unknown _ hunknown] at hfate
  obtain ⟨l', hmem, hreads⟩ := exists_reads hplans hfate
  obtain ⟨m, hm, rfl⟩ := List.mem_map.1 hmem
  exact hnone m hm hreads

/-! ### The worker and its client have what is there -/

/-- A retained snapshot stays retained. -/
theorem retained_of_run {labels : List (LoopLabel × Set RefreshDomain)}
    (hsome : s₀.process.latestSnapshot ≠ none)
    (hrun : Lts.Run (ObservedStep serde capacity budget) s₀ labels s) :
    s.process.latestSnapshot ≠ none := by
  refine hrun.invariant (I := fun u => u.process.latestSnapshot ≠ none) hsome ?_
  intro u m u' hu hstep
  rcases hstep.1.1.1.sends with ⟨hprocess, -, -⟩ | ⟨plan, process, messages, -, hupdate, -, rfl⟩ |
    ⟨text, process, messages, -, hhandle, -, rfl⟩
  · rw [hprocess]
    exact hu
  · obtain ⟨refresh, -, hmessages⟩ := Result.bind_eq_ok.1 hupdate
    have hlatest := (snapshotUpdateMessages_spec (Except.ok.inj hmessages)).2.1
    rw [show process.latestSnapshot = _ from hlatest]
    simp
  · have hspec := handleRequest_spec hhandle
    split at hspec
    · rw [show process.latestSnapshot = _ from hspec.1.snapshot]
      exact hu
    · rw [show process.latestSnapshot = _ from hspec.1.snapshot]
      simp

/-- Where every section that became stale was announced and the loop is at rest, whatever is
retained is what a full read of the repository gives. -/
theorem snapshot_of_rest {labels : List (LoopLabel × Set RefreshDomain)}
    {first snapshot : RepositorySnapshot} (hstart : s₀.AtStart) (hcapacity : 0 < capacity)
    (hretained : s₀.process.latestSnapshot = some first)
    (hfirst : snapshotRepository s₀.world.discover s₀.process.repo = .ok first)
    (hrun : Lts.Run (ObservedStep serde capacity budget) s₀ labels s)
    (hannounced : Announced labels) (hrest : s.AtRest)
    (hsnapshot : s.process.latestSnapshot = some snapshot) :
    snapshotRepository s.world.discover s.process.repo = .ok snapshot := by
  have hfull : ∀ snapshot, s₀.process.latestSnapshot = some snapshot →
      snapshotRepository s₀.world.discover s₀.process.repo = .ok snapshot := by
    intro retained h
    rw [hretained] at h
    exact Option.some.inj h ▸ hfirst
  have hfresh := (retainedTrue_of_run hstart hfull hrun).1 snapshot hsnapshot
  rw [unread_at_rest hstart hcapacity hrun hannounced hrest] at hfresh
  exact snapshot_eq_ok_iff.2 hfresh.eq_value

/-- Once every section that became stale was announced and the loop is at rest, the retained
snapshot is what a full read of the repository gives. -/
theorem retained_converges {labels : List (LoopLabel × Set RefreshDomain)}
    {first : RepositorySnapshot} (hstart : s₀.AtStart) (hcapacity : 0 < capacity)
    (hretained : s₀.process.latestSnapshot = some first)
    (hfirst : snapshotRepository s₀.world.discover s₀.process.repo = .ok first)
    (hrun : Lts.Run (ObservedStep serde capacity budget) s₀ labels s)
    (hannounced : Announced labels) (hrest : s.AtRest) :
    ∃ snapshot, s.process.latestSnapshot = some snapshot ∧
      snapshotRepository s.world.discover s.process.repo = .ok snapshot := by
  obtain ⟨snapshot, hsnapshot⟩ :=
    Option.ne_none_iff_exists'.1 (retained_of_run (by rw [hretained]; simp) hrun)
  exact ⟨snapshot, hsnapshot,
    snapshot_of_rest hstart hcapacity hretained hfirst hrun hannounced hrest hsnapshot⟩

/-- A step of a loop with a subscriber in which a line that sends no snapshot leaves the baseline as
it is. -/
def HeardStep (serde : SerdeJson) (capacity budget : ℕ) (s : LoopState)
    (l : LoopLabel × Set RefreshDomain) (s' : LoopState) : Prop :=
  ObservedStep serde capacity budget s l s' ∧
    (l.1.isLine = true → publications l.1.messages = [] →
      s'.process.latestSnapshot = s.process.latestSnapshot)

/-- A step from which a client that receives everything learns what the worker retains: such a step
in which no update hides a difference of the path sections. -/
def SeenStep (serde : SerdeJson) (capacity budget : ℕ) (s : LoopState)
    (l : LoopLabel × Set RefreshDomain) (s' : LoopState) : Prop :=
  HeardStep serde capacity budget s l s' ∧
    (l.1.isLine = false → ∀ previous snapshot, s.process.latestSnapshot = some previous →
      s'.process.latestSnapshot = some snapshot → ¬ HidesPaths previous snapshot)

/-- A line that leaves the baseline as it is when it sends no snapshot keeps the copy in
agreement. -/
theorem line_agrees_of_heard {process process' : ProcessState} {read : SnapshotRead}
    {text : String} {messages : List ServerMessage}
    (h : handleRequest serde read process text = some (process', messages))
    (hheard : publications messages = [] → process'.latestSnapshot = process.latestSnapshot) :
    Replica.receiveAll applyPatchToSnapshot process.latestSnapshot (publications messages) =
      process'.latestSnapshot := by
  by_cases hsilent : SilentRefresh serde text
  · have hspec := handleRequest_spec h
    have hnone : publications messages = [] := by
      split at hspec
      · exact hspec.2
      · exact hspec.2.1 hsilent
    rw [hnone, hheard hnone]
    rfl
  · exact line_agrees h hsilent

/-- Every such step keeps the copy in agreement. -/
theorem SeenStep.agrees {l : LoopLabel × Set RefreshDomain}
    (h : SeenStep serde capacity budget s l s') :
    Replica.receiveAll applyPatchToSnapshot s.process.latestSnapshot
      (publications l.1.messages) = s'.process.latestSnapshot := by
  obtain ⟨⟨⟨⟨⟨hstep, -⟩, -⟩, -⟩, hheard⟩, hseen⟩ := h
  rcases hstep.sends with ⟨hprocess, hmessages, -⟩ |
    ⟨plan, process, messages, -, hupdate, hl, rfl⟩ |
    ⟨text, process, messages, -, hhandle, hl, rfl⟩
  · rw [hprocess, hmessages]
    rfl
  · rw [hl] at hseen ⊢
    obtain ⟨refresh, -, hmessages⟩ := Result.bind_eq_ok.1 hupdate
    have hmessages := Except.ok.inj hmessages
    have hsnapshot := (snapshotUpdateMessages_spec hmessages).2.1
    cases hprevious : s.process.latestSnapshot with
    | none =>
        rw [← hprevious]
        exact update_agrees_of_none hmessages hprevious
    | some previous =>
        rw [← hprevious]
        exact (update_agrees_iff hmessages hprevious).2 (hseen rfl _ _ hprevious hsnapshot)
  · rw [hl] at hheard ⊢
    exact line_agrees_of_heard hhandle (hheard rfl)

/-- The copy of a client that was sent everything since it had the first snapshot is what a full
read of the repository gives, once everything was announced and the loop is at rest. -/
theorem client_converges {labels : List (LoopLabel × Set RefreshDomain)}
    {first : RepositorySnapshot} (hstart : s₀.AtStart) (hcapacity : 0 < capacity)
    (hretained : s₀.process.latestSnapshot = some first)
    (hfirst : snapshotRepository s₀.world.discover s₀.process.repo = .ok first)
    (hrun : Lts.Run (SeenStep serde capacity budget) s₀ labels s)
    (hannounced : Announced labels) (hrest : s.AtRest) :
    ∃ copy, Replica.receiveAll applyPatchToSnapshot (some first)
        (labels.flatMap fun l => publications l.1.messages) = some copy ∧
      snapshotRepository s.world.discover s.process.repo = .ok copy := by
  have hobserved := hrun.mono fun _ _ _ h => h.1.1
  obtain ⟨snapshot, hsnapshot⟩ :=
    Option.ne_none_iff_exists'.1 (retained_of_run (by rw [hretained]; simp) hobserved)
  refine ⟨snapshot, ?_,
    snapshot_of_rest hstart hcapacity hretained hfirst hobserved hannounced hrest hsnapshot⟩
  rw [← hretained, ← hsnapshot]
  exact Replica.run_copy (fun u : LoopState => u.process.latestSnapshot) _
    (fun _ _ _ hstep => hstep.agrees) hrun

end

/-! ### A merge that starts -/

/-- Only a line reads with other options. -/
theorem misreads_eq_empty {s s' : LoopState} {l : LoopLabel} (hline : l.isLine = false) :
    Misreads s l s' = ∅ := by
  rw [Set.eq_empty_iff_forall_notMem]
  rintro d ⟨htrue, -⟩
  rw [hline] at htrue
  cases htrue

/-- A step that changes nothing of the repository and is no line makes no section stale. -/
theorem ObservedStep.quiet {serde : SerdeJson} {capacity budget : ℕ} {s s' : LoopState}
    {l : LoopLabel} (hstep : LoopStep serde capacity budget s l s')
    (hsubscribed : s.process.subscribed = true) (hline : l.isLine = false)
    (hsame : s'.world.discover = s.world.discover) :
    ObservedStep serde capacity budget s (l, ∅) s' := by
  refine ⟨⟨⟨hstep, ?_⟩, hsubscribed⟩, ?_⟩
  · rintro serial messages rfl
    cases hline
  · symm
    rw [Set.eq_empty_iff_forall_notMem]
    rintro d (halters | ⟨htrue, -⟩)
    · exact halters (by rw [hsame])
    · rw [hline] at htrue
      cases htrue

/-- Such a step is seen when it leaves the process as it is. -/
theorem SeenStep.quiet {serde : SerdeJson} {capacity budget : ℕ} {s s' : LoopState}
    {l : LoopLabel} (hstep : LoopStep serde capacity budget s l s')
    (hsubscribed : s.process.subscribed = true) (hline : l.isLine = false)
    (hsame : s'.world.discover = s.world.discover) (hprocess : s'.process = s.process) :
    SeenStep serde capacity budget s (l, ∅) s' := by
  refine ⟨⟨.quiet hstep hsubscribed hline hsame, fun _ _ => by rw [hprocess]⟩, ?_⟩
  intro _ previous snapshot hprevious hsnapshot hhides
  rw [hprocess, hprevious] at hsnapshot
  exact hhides.2 (Option.some.inj hsnapshot ▸ rfl)

/-- When only the first step makes sections stale, the events after it have to announce them. -/
theorem announced_cons {l : LoopLabel × Set RefreshDomain}
    {labels : List (LoopLabel × Set RefreshDomain)} (hquiet : ∀ m ∈ labels, m.2 = ∅)
    (hfirst : ∀ d ∈ l.2, ∃ k event accepted, .offered k event accepted ∈ labels.map Prod.fst ∧
      ∀ plan, .planned (some k) plan ∈ labels.map Prod.fst → plan.reads d) :
    Announced (l :: labels) := by
  intro before m after hsplit d hd
  cases before with
  | nil =>
      obtain ⟨rfl, rfl⟩ := List.cons.inj hsplit
      exact hfirst d hd
  | cons m' before =>
      obtain ⟨rfl, rfl⟩ := List.cons.inj hsplit
      rw [hquiet m (by simp)] at hd
      cases hd

/-- The labels of a turn for the first event, from the head of the loop to where it waits again. -/
def turnLabels (event : WatchEvent) (plan : RefreshPlan) (messages : List ServerMessage) :
    List (LoopLabel × Set RefreshDomain) :=
  [(.offered 0 event true, ∅), (.polled, ∅), (.took 0 event true false, ∅),
    (.planned (some 0) plan, ∅), (.moved, ∅), (.moved, ∅), (.moved, ∅),
    (.refreshed plan messages, ∅), (.polled, ∅)]

/-- An event that asks for no new watches is offered, taken and refreshed for. -/
theorem seen_turn {serde : SerdeJson} {capacity budget : ℕ} {process process' : ProcessState}
    {watcher : RepositoryWatcher} {world : World} {event : WatchEvent} {plan : RefreshPlan}
    {messages : List ServerMessage} (hcapacity : 0 < capacity)
    (hsubscribed : process.subscribed = true) (hsubscribed' : process'.subscribed = true)
    (hevent : shouldRefreshForEvent event = true)
    (hupdate : watcher.updateWatchesForEvent world event = none)
    (hreconciles : LoopState.reconcilesFor ⟨process, watcher, world, {}, 1, .recv⟩ event = false)
    (hplan : LoopState.refreshPlanForEvent ⟨process, watcher, world, {}, 1, .recv⟩ event = plan)
    (hshould : plan.shouldRefresh = true)
    (hrefreshed : SeenStep serde capacity budget ⟨process, watcher, world, {}, 1, .refresh plan⟩
      (.refreshed plan messages, ∅) ⟨process', watcher, world, {}, 1, .head⟩) :
    Lts.Run (SeenStep serde capacity budget) ⟨process, watcher, world, {}, 0, .head⟩
      (turnLabels event plan messages) ⟨process', watcher, world, {}, 1, .recv⟩ := by
  have haccepted : (LossyQueue.offer capacity {} (0, event), decide (0 < capacity)) =
      (⟨[(0, event)], false⟩, true) := by
    simp [LossyQueue.offer, hcapacity]
  obtain ⟨hqueue, hroom⟩ := Prod.mk.inj haccepted
  have hoffer : SeenStep serde capacity budget ⟨process, watcher, world, {}, 0, .head⟩
      (.offered 0 event true, ∅) ⟨process, watcher, world, ⟨[(0, event)], false⟩, 1, .head⟩ := by
    rw [← hroom, ← hqueue]
    exact .quiet (.offer hevent) hsubscribed rfl rfl rfl
  have hpoll : SeenStep serde capacity budget
      ⟨process, watcher, world, ⟨[(0, event)], false⟩, 1, .head⟩ (.polled, ∅)
      ⟨process, watcher, world, ⟨[(0, event)], false⟩, 1, .recv⟩ :=
    .quiet (.pollRecv rfl rfl) hsubscribed rfl rfl rfl
  have htake : SeenStep serde capacity budget
      ⟨process, watcher, world, ⟨[(0, event)], false⟩, 1, .recv⟩ (.took 0 event true false, ∅)
      ⟨process, watcher, world, {}, 1, .received 0 event none none⟩ := by
    rw [← hreconciles, ← hupdate, ← hsubscribed]
    exact .quiet (.recvTake rfl rfl) hsubscribed rfl rfl rfl
  have hdebounce : Pc.withPlan plan (.debounce plan) = .debounce plan := if_pos hshould
  have hplanned : SeenStep serde capacity budget
      ⟨process, watcher, world, {}, 1, .received 0 event none none⟩ (.planned (some 0) plan, ∅)
      ⟨process, watcher, world, {}, 1, .debounce plan⟩ := by
    rw [← hdebounce, ← hplan]
    exact .quiet (.plan rfl hsubscribed) hsubscribed rfl rfl rfl
  have hwake : SeenStep serde capacity budget ⟨process, watcher, world, {}, 1, .debounce plan⟩
      (.moved, ∅) ⟨process, watcher, world, {}, 1, .drain plan 0⟩ :=
    .quiet (.wake rfl rfl) hsubscribed rfl rfl rfl
  have hempty : SeenStep serde capacity budget ⟨process, watcher, world, {}, 1, .drain plan 0⟩
      (.moved, ∅) ⟨process, watcher, world, {}, 1, .drainEnd plan⟩ :=
    .quiet (.drainEmpty rfl rfl) hsubscribed rfl rfl rfl
  have hrefresh : Pc.withPlan plan (.refresh plan) = .refresh plan := if_pos hshould
  have hend : SeenStep serde capacity budget ⟨process, watcher, world, {}, 1, .drainEnd plan⟩
      (.moved, ∅) ⟨process, watcher, world, {}, 1, .refresh plan⟩ := by
    rw [← hrefresh]
    exact .quiet (.endDrain rfl rfl) hsubscribed rfl rfl rfl
  have hrest : SeenStep serde capacity budget ⟨process', watcher, world, {}, 1, .head⟩
      (.polled, ∅) ⟨process', watcher, world, {}, 1, .recv⟩ :=
    .quiet (.pollRecv rfl rfl) hsubscribed' rfl rfl rfl
  exact ((((((((Lts.Run.single hoffer).snoc hpoll).snoc htake).snoc hplanned).snoc hwake).snoc
    hempty).snoc hend).snoc hrefreshed).snoc hrest

/-- A refresh that hides no difference is seen. -/
theorem seen_refreshed {serde : SerdeJson} {capacity budget : ℕ} {process process' : ProcessState}
    {watcher : RepositoryWatcher} {world : World} {plan : RefreshPlan}
    {previous snapshot : RepositorySnapshot} {messages : List ServerMessage}
    (hprevious : process.latestSnapshot = some previous)
    (hread : refreshRepositoryWithPlan world.discover process.repo (some previous) plan {} =
      .ok ⟨snapshot, plan⟩)
    (hmessages : snapshotUpdateMessages process snapshot = some (process', messages))
    (hsubscribed : process.subscribed = true) (hseen : ¬ HidesPaths previous snapshot) :
    SeenStep serde capacity budget ⟨process, watcher, world, {}, 1, .refresh plan⟩
      (.refreshed plan messages, ∅) ⟨process', watcher, world, {}, 1, .head⟩ := by
  have hupdate := automaticUpdate_eq hprevious hread hmessages
  refine ⟨⟨.quiet (.refresh rfl hupdate) hsubscribed rfl rfl, fun hline => by cases hline⟩, ?_⟩
  intro _ retained sent hretained hsent
  obtain rfl := Option.some.inj (hprevious.symm.trans hretained)
  obtain rfl := Option.some.inj ((snapshotUpdateMessages_spec hmessages).2.1.symm.trans hsent)
  exact hseen

/-- The process after a first baseline, with a subscriber. -/
def mergeProcess : ProcessState := { basedState plainSnapshot with subscribed := true }

/-- The repository once a merge is in progress. -/
def mergingWorld : World := { srcWorld (some 3) with discover := fun _ => .ok mergingRepository }

/-- The steps of a loop with the bounds of the source, of which the client sees everything. -/
abbrev SeenServeStep : LoopState → LoopLabel × Set RefreshDomain → LoopState → Prop :=
  SeenStep refreshJson maxPendingWatchEvents maxDebounceDrainEvents

theorem merge_update : ∃ messages,
    snapshotUpdateMessages mergeProcess mergingSnapshot =
      some (mergeProcess.withBaseline mergingSnapshot, messages) := exists_messages (by decide)

/-- The refresh for the merge, which the client sees. -/
theorem merge_refreshed (serde : SerdeJson) : ∃ messages,
    SeenStep serde maxPendingWatchEvents maxDebounceDrainEvents
      ⟨mergeProcess, srcWatcher none {2, 1}, mergingWorld, {}, 1, .refresh mergePlan⟩
      (.refreshed mergePlan messages, ∅)
      ⟨mergeProcess.withBaseline mergingSnapshot, srcWatcher none {2, 1}, mergingWorld, {}, 1,
        .head⟩ := by
  obtain ⟨messages, hmessages⟩ := merge_update
  exact ⟨messages, seen_refreshed rfl (by decide) hmessages rfl fun hhides => hhides.2 rfl⟩

/-- The loop at its head after the repository has changed, and the file system has not. -/
def changedState (discover : Discover) : LoopState :=
  ⟨mergeProcess, srcWatcher none {2, 1}, { srcWorld (some 3) with discover := discover }, {}, 0,
    .head⟩

theorem serveState_changed (serde : SerdeJson) (discover : Discover) : ∃ stale,
    SeenStep serde maxPendingWatchEvents maxDebounceDrainEvents
      (serveState none {2, 1} {} 0 .head) (.changed, stale) (changedState discover) ∧
    stale = Alters (serveState none {2, 1} {} 0 .head) (changedState discover) := by
  refine ⟨_, ⟨⟨⟨⟨⟨?_, fun _ _ h => by cases h⟩, rfl⟩, ?_⟩, fun _ _ => rfl⟩, ?_⟩, rfl⟩
  · exact LoopStep.change (s := serveState none {2, 1} {} 0 .head) serveState_persists
  · rw [misreads_eq_empty rfl, Set.union_empty]
  · intro _ previous snapshot hprevious hsnapshot hhides
    exact hhides.2 (Option.some.inj (hprevious.symm.trans hsnapshot) ▸ rfl)

/-- A merge starts, and the event for it is offered, taken and refreshed for. -/
theorem merge_run (serde : SerdeJson) : ∃ stale messages,
    Lts.Run (SeenStep serde maxPendingWatchEvents maxDebounceDrainEvents)
      (serveState none {2, 1} {} 0 .head)
      ((.changed, stale) :: turnLabels mergeEvent mergePlan messages)
      ⟨mergeProcess.withBaseline mergingSnapshot, srcWatcher none {2, 1}, mergingWorld, {}, 1,
        .recv⟩ ∧
    Announced ((.changed, stale) :: turnLabels mergeEvent mergePlan messages) := by
  obtain ⟨messages, hrefreshed⟩ := merge_refreshed serde
  have hturn : Lts.Run (SeenStep serde maxPendingWatchEvents maxDebounceDrainEvents)
      ⟨mergeProcess, srcWatcher none {2, 1}, mergingWorld, {}, 0, .head⟩
      (turnLabels mergeEvent mergePlan messages) _ :=
    seen_turn (by decide) rfl rfl rfl (by decide) (by decide) rfl (by decide) hrefreshed
  obtain ⟨stale, hstarts, rfl⟩ := serveState_changed serde fun _ => .ok mergingRepository
  refine ⟨_, messages, hturn.cons hstarts, announced_cons (by simp [turnLabels]) ?_⟩
  intro d halters
  obtain rfl := altered_by_merge halters
  refine ⟨0, mergeEvent, true, by simp [turnLabels], fun plan hplan => ?_⟩
  obtain rfl : plan = mergePlan := by simpa [turnLabels] using hplan
  decide

/-- The worker of the run above has the merge. -/
theorem retained_converges_merge : ∃ labels s,
    Lts.Run (ObservedStep refreshJson maxPendingWatchEvents maxDebounceDrainEvents)
      (serveState none {2, 1} {} 0 .head) labels s ∧
    s.process.latestSnapshot = some mergingSnapshot := by
  obtain ⟨stale, messages, hrun, hannounced⟩ := merge_run refreshJson
  have hrun := hrun.mono fun _ _ _ h => h.1.1
  obtain ⟨snapshot, hsnapshot, hread⟩ := retained_converges
    serveState_atStart (by decide) rfl (by decide) hrun hannounced ⟨rfl, rfl⟩
  have hmerging : snapshotRepository (fun _ => .ok mergingRepository) repoRoot =
      .ok mergingSnapshot := by decide
  obtain rfl := Except.ok.inj (hmerging.symm.trans hread)
  exact ⟨_, _, hrun, hsnapshot⟩

/-- And so has its client. -/
theorem client_converges_merge : ∃ labels s,
    Lts.Run SeenServeStep (serveState none {2, 1} {} 0 .head) labels s ∧
    Replica.receiveAll applyPatchToSnapshot (some plainSnapshot)
      (labels.flatMap fun l => publications l.1.messages) = some mergingSnapshot := by
  obtain ⟨stale, messages, hrun, hannounced⟩ := merge_run refreshJson
  obtain ⟨copy, hcopy, hread⟩ := client_converges
    serveState_atStart (by decide) rfl (by decide) hrun hannounced ⟨rfl, rfl⟩
  have hmerging : snapshotRepository (fun _ => .ok mergingRepository) repoRoot =
      .ok mergingSnapshot := by decide
  obtain rfl := Except.ok.inj (hmerging.symm.trans hread)
  exact ⟨_, _, hrun, hcopy⟩

end Gitseer
