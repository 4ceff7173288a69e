/-
**Refreshes that take time.**

A read of the repository opens it and then looks at it once for each field of the snapshot, and the
commands of a user do not wait for it.  So the fields of one snapshot may come from different
moments: a head from before a checkout with the paths after it, an upstream of a branch that is not
checked out any more.  Such a snapshot need not be the one of any moment.

It is put right by the refreshes that follow.  A field is *unsettled* when it was altered and no
refresh that began after that has read it; where no field is unsettled, the retained snapshot is the
one a full read gives now, however the looks of the refreshes were interleaved with changes.

Main definitions:

* `snapshotReading`, `refreshDomainsReading`, `refreshReading` — the reads, with every look at the
  repository;
* `SnapshotField`, `snapshotFields` — a snapshot as a view of its fields;
* `SlowRefresher`, `SlowStep` — changes of the repository interleaved with the looks of refreshes;
* `unsettled` — the fields altered in a run and not read anew.

Main results:

* `atOnce_refreshReading`, `gives_refreshReading_still` — a refresh in a repository that stands
  still;
* `gives_refreshDomainsReading` — what the looks of a refresh put together;
* `torn_refresh_agrees` — the snapshot without unsettled fields.
-/

import Gitseer.Lib.Moments
import Gitseer.Watch.Refresh

set_option relaxedAutoImplicit false
set_option autoImplicit false

open StdPath (PathBuf FileName)
open Moments (Reading)

namespace Gitseer

/-! ### Reads, look by look -/

/-- A computation that looks at the repository: at what discovering it answers at the moment. -/
abbrev RepositoryReading := Reading (Except SnapshotError Repository) SnapshotError

/-- One call of a reader. -/
def through {α : Type} (read : Repository → Except SnapshotError α) : RepositoryReading α :=
  Reading.look fun found => found >>= read

/-- `Repository::discover`. -/
def openRepository : RepositoryReading Unit := through fun _ => .ok ()

/-- `snapshot_repository_with_options`, with every look. -/
def snapshotReading (options : SnapshotOptions) : RepositoryReading RepositorySnapshot := do
  openRepository
  let identity ← through repositoryIdentity
  let head ← through headState
  let headCommit ← through fun repo => headCommit repo head
  let upstream ← through fun repo => upstreamState repo head
  let paths ← through fun repo => pathState repo options
  let operation ← through fun repo => .ok (operationState repo)
  let remotes ← through remotes
  let branches ← through branches
  let tags ← through tags
  let stashes ← through stashes
  let worktrees ← through worktrees
  let submodules ← through submodules
  pure {
    identity := identity
    head := head
    headCommit := headCommit
    upstream := upstream
    paths := paths
    operation := operation
    remotes := remotes
    branches := branches
    tags := tags
    stashes := stashes
    worktrees := worktrees
    submodules := submodules }

/-- A field is read again when its domain is in the set, and kept otherwise. -/
def readingIf {α : Type} (domains : Finset RefreshDomain) (d : RefreshDomain)
    (read : Repository → Except SnapshotError α) (kept : α) : RepositoryReading α :=
  if d ∈ domains then through read else pure kept

/-- `refresh_domains`, with every look. -/
def refreshDomainsReading (snapshot : RepositorySnapshot) (domains : Finset RefreshDomain)
    (options : SnapshotOptions) : RepositoryReading RepositorySnapshot := do
  let identity ← readingIf domains .identity repositoryIdentity snapshot.identity
  let head ← readingIf domains .head headState snapshot.head
  let headCommit ← readingIf domains .head (fun repo => headCommit repo head) snapshot.headCommit
  let upstream ← readingIf domains .upstream (fun repo => upstreamState repo head) snapshot.upstream
  let paths ← readingIf domains .paths (fun repo => pathState repo options) snapshot.paths
  let operation ← readingIf domains .operation (fun repo => .ok (operationState repo))
    snapshot.operation
  let remotes ← readingIf domains .remotes remotes snapshot.remotes
  let branches ← readingIf domains .branches branches snapshot.branches
  let tags ← readingIf domains .tags tags snapshot.tags
  let stashes ← readingIf domains .stashes stashes snapshot.stashes
  let worktrees ← readingIf domains .worktrees worktrees snapshot.worktrees
  let submodules ← readingIf domains .submodules submodules snapshot.submodules
  pure {
    identity := identity
    head := head
    headCommit := headCommit
    upstream := upstream
    paths := paths
    operation := operation
    remotes := remotes
    branches := branches
    tags := tags
    stashes := stashes
    worktrees := worktrees
    submodules := submodules }

/-- `refresh_repository_with_plan`, with every look. -/
def refreshReading (previous : Option RepositorySnapshot) (plan : RefreshPlan)
    (options : SnapshotOptions) : RepositoryReading SnapshotRefresh :=
  match previous, plan with
  | none, _ => do
      let snapshot ← snapshotReading options
      pure ⟨snapshot, .full⟩
  | some previous, .none => pure ⟨previous, .none⟩
  | some _, .full => do
      let snapshot ← snapshotReading options
      pure ⟨snapshot, .full⟩
  | some previous, .domains domains => do
      openRepository
      let snapshot ← refreshDomainsReading previous domains options
      pure ⟨snapshot, .domains domains⟩

/-! ### In a repository that stands still -/

section

variable {found : Except SnapshotError Repository} {repo : Repository} {options : SnapshotOptions}

theorem atOnce_through {α : Type} (read : Repository → Except SnapshotError α) :
    (through read).atOnce found = found >>= read := rfl

/-- Where the repository is not found, the first look is the last. -/
theorem atOnce_openRepository_error {α : Type} (e : SnapshotError)
    (f : Unit → RepositoryReading α) :
    (openRepository >>= f).atOnce (.error e) = .error e := by
  rw [Reading.atOnce_bind, openRepository, atOnce_through]
  rfl

theorem atOnce_openRepository {α : Type} (f : Unit → RepositoryReading α) :
    (openRepository >>= f).atOnce (.ok repo) = (f ()).atOnce (.ok repo) := by
  rw [Reading.atOnce_bind, openRepository, atOnce_through]
  rfl

theorem atOnce_readingIf {α : Type} (domains : Finset RefreshDomain) (d : RefreshDomain)
    (read : Repository → Except SnapshotError α) (kept : α) :
    (readingIf domains d read kept).atOnce (.ok repo) = readIf domains d (read repo) kept := by
  unfold readingIf readIf
  split <;> rfl

theorem atOnce_snapshotReading :
    (snapshotReading options).atOnce found = found >>= fun repo => readSnapshot repo options := by
  unfold snapshotReading
  cases found with
  | error e => exact atOnce_openRepository_error e _
  | ok repo =>
      rw [atOnce_openRepository]
      simp only [Reading.atOnce_bind, atOnce_through, Reading.atOnce_pure, Result.ok_bind]
      rfl

/-- The head and its commit are read or kept together. -/
theorem readIf_head (domains : Finset RefreshDomain) (head : HeadState)
    (commit : Option CommitSummary) :
    readIf domains .head (readHead repo) (head, commit) =
      (readIf domains .head (headState repo) head >>= fun head =>
        readIf domains .head (headCommit repo head) commit >>= fun commit => .ok (head, commit)) := by
  by_cases h : RefreshDomain.head ∈ domains
  · simp only [readIf_of_mem h]
    rfl
  · simp only [readIf_of_not_mem h, Result.ok_bind]

theorem atOnce_refreshDomainsReading (snapshot : RepositorySnapshot)
    (domains : Finset RefreshDomain) :
    (refreshDomainsReading snapshot domains options).atOnce (.ok repo) =
      refreshDomains repo snapshot domains options := by
  unfold refreshDomainsReading refreshDomains
  simp only [Reading.atOnce_bind, atOnce_readingIf, Reading.atOnce_pure, readIf_head, bind_assoc,
    Result.ok_bind]

/-- A refresh in a repository that stands still gives what it gives at once. -/
theorem atOnce_refreshReading (discover : Discover) (path : PathBuf)
    (previous : Option RepositorySnapshot) (plan : RefreshPlan) :
    (refreshReading previous plan options).atOnce (discoverRepository discover path) =
      refreshRepositoryWithPlan discover path previous plan options := by
  cases previous with
  | none =>
      simp only [refreshReading, Reading.atOnce_bind, atOnce_snapshotReading, Reading.atOnce_pure]
      rfl
  | some previous =>
      cases plan with
      | none => rfl
      | full =>
          simp only [refreshReading, Reading.atOnce_bind, atOnce_snapshotReading,
            Reading.atOnce_pure]
          rfl
      | domains domains =>
          unfold refreshReading refreshRepositoryWithPlan
          cases discoverRepository discover path with
          | error e => exact atOnce_openRepository_error e _
          | ok repo =>
              dsimp only
              rw [atOnce_openRepository, Reading.atOnce_bind, atOnce_refreshDomainsReading]
              rfl

/-- So a refresh that is shown one world only gives what it gives at once. -/
theorem gives_refreshReading_still {discover : Discover} {path : PathBuf}
    {previous : Option RepositorySnapshot} {plan : RefreshPlan}
    {result : Except SnapshotError SnapshotRefresh} :
    Reading.Gives {discoverRepository discover path} (refreshReading previous plan options) result ↔
      result = refreshRepositoryWithPlan discover path previous plan options := by
  rw [Reading.gives_singleton, atOnce_refreshReading]

end

/-! ### A snapshot as a view of its fields -/

/-- The fields of a snapshot. -/
inductive SnapshotField
  | identity | head | headCommit | upstream | paths | operation | remotes | branches | tags
  | stashes | worktrees | submodules
  deriving DecidableEq

/-- The domain whose refresh reads a field. -/
def SnapshotField.domain : SnapshotField → RefreshDomain
  | identity => .identity
  | head => .head
  | headCommit => .head
  | upstream => .upstream
  | paths => .paths
  | operation => .operation
  | remotes => .remotes
  | branches => .branches
  | tags => .tags
  | stashes => .stashes
  | worktrees => .worktrees
  | submodules => .submodules

/-- What a field holds. -/
def SnapshotField.Value : SnapshotField → Type
  | identity => RepositoryIdentity
  | head => HeadState
  | headCommit => Option CommitSummary
  | upstream => Option UpstreamState
  | paths => PathState
  | operation => OperationState
  | remotes => List RemoteSummary
  | branches => List BranchSummary
  | tags => List TagSummary
  | stashes => List StashSummary
  | worktrees => List WorktreeSummary
  | submodules => List SubmoduleSummary

/-- The value of a field. -/
def RepositorySnapshot.field (s : RepositorySnapshot) : (f : SnapshotField) → f.Value
  | .identity => s.identity
  | .head => s.head
  | .headCommit => s.headCommit
  | .upstream => s.upstream
  | .paths => s.paths
  | .operation => s.operation
  | .remotes => s.remotes
  | .branches => s.branches
  | .tags => s.tags
  | .stashes => s.stashes
  | .worktrees => s.worktrees
  | .submodules => s.submodules

/-- Reading a field for a given head. -/
def readField (repo : Repository) (options : SnapshotOptions) (head : HeadState) :
    (f : SnapshotField) → Except SnapshotError f.Value
  | .identity => repositoryIdentity repo
  | .head => headState repo
  | .headCommit => headCommit repo head
  | .upstream => upstreamState repo head
  | .paths => pathState repo options
  | .operation => .ok (operationState repo)
  | .remotes => remotes repo
  | .branches => branches repo
  | .tags => tags repo
  | .stashes => stashes repo
  | .worktrees => worktrees repo
  | .submodules => submodules repo

/-- The commit and the upstream are read for the head. -/
def SnapshotField.ForHead (f : SnapshotField) : Prop := f = headCommit ∨ f = upstream

instance : DecidablePred SnapshotField.ForHead := fun f =>
  inferInstanceAs (Decidable (f = .headCommit ∨ f = .upstream))

/-- A field as a full read has it. -/
def fieldValue (repo : Repository) (options : SnapshotOptions) (f : SnapshotField) :
    Except SnapshotError f.Value :=
  if f.ForHead then do
    let head ← headState repo
    readField repo options head f
  else readField repo options ⟨.missing, none, none, none⟩ f

theorem readField_of_not_forHead {repo : Repository} {options : SnapshotOptions}
    {f : SnapshotField} (h : ¬ f.ForHead) (head head' : HeadState) :
    readField repo options head f = readField repo options head' f := by
  cases f with
  | headCommit => exact absurd (Or.inl rfl) h
  | upstream => exact absurd (Or.inr rfl) h
  | _ => rfl

theorem forHead_wf : WellFounded fun e d : SnapshotField => d.ForHead ∧ e = .head := by
  have hhead : Acc (fun e d : SnapshotField => d.ForHead ∧ e = .head) .head :=
    Acc.intro _ fun e h => absurd h.1 (by decide)
  refine ⟨fun d => Acc.intro _ ?_⟩
  rintro e ⟨-, rfl⟩
  exact hhead

/-- Snapshots as views of what discovering the repository answers, field by field. -/
def snapshotFields (options : SnapshotOptions) :
    Retained.Sections (Except SnapshotError Repository) SnapshotField SnapshotError
      SnapshotField.Value where
  value w f := w >>= fun repo => fieldValue repo options f
  read w v f := w >>= fun repo => readField repo options (v .head) f
  needs d e := d.ForHead ∧ e = .head
  wf := forHead_wf
  read_eq := by
    intro w v f h
    cases w with
    | error e => rfl
    | ok repo =>
        simp only [Result.ok_bind, fieldValue]
        split
        · next hf =>
            have hhead : headState repo = .ok (v .head) := h .head ⟨hf, rfl⟩
            rw [hhead]
            rfl
        · next hf => exact readField_of_not_forHead hf _ _

section

variable {discover : Discover} {path : PathBuf} {options : SnapshotOptions}
  {found : Except SnapshotError Repository} {s previous : RepositorySnapshot}
  {domains : Finset RefreshDomain} {ws : Set (Except SnapshotError Repository)}

/-- A plan that never reads the head alone is closed under what fields need. -/
theorem closedFields_of_headWithUpstream {plan : RefreshPlan} (h : plan.HeadWithUpstream) :
    (snapshotFields options).Closed {f | plan.reads f.domain} := by
  rintro d e ⟨rfl | rfl, rfl⟩ hread
  · exact hread
  · exact h hread

/-- A snapshot whose fields are right is what a full read gives. -/
theorem snapshot_of_fields
    (h : ∀ f, (snapshotFields options).value (discoverRepository discover path) f =
      .ok (s.field f)) :
    snapshotRepositoryWithOptions discover path options = .ok s := by
  refine snapshot_eq_ok_iff.2 fun d => ?_
  cases hfound : discoverRepository discover path with
  | error e =>
      rw [hfound] at h
      cases h .identity
  | ok repo =>
      rw [hfound] at h
      have hhead : headState repo = .ok s.head := h .head
      have hcommit := h .headCommit
      have hupstream := h .upstream
      simp only [snapshotFields, Result.ok_bind, fieldValue, SnapshotField.ForHead, true_or, or_true,
        if_true, hhead] at hcommit hupstream
      cases d with
      | head =>
          change readHead repo = .ok (s.head, s.headCommit)
          rw [readHead, hhead, Result.ok_bind, show headCommit repo s.head = _ from hcommit]
          rfl
      | upstream =>
          change (readHead repo >>= fun head => upstreamState repo head.1) = .ok s.upstream
          rw [readHead, hhead, Result.ok_bind, show headCommit repo s.head = _ from hcommit]
          exact hupstream
      | identity => exact h .identity
      | paths => exact h .paths
      | operation => exact h .operation
      | remotes => exact h .remotes
      | branches => exact h .branches
      | tags => exact h .tags
      | stashes => exact h .stashes
      | worktrees => exact h .worktrees
      | submodules => exact h .submodules

/-! ### What the looks of a refresh put together -/

theorem gives_through {α : Type} {read : Repository → Except SnapshotError α} {a : α} :
    Reading.Gives ws (through read) (.ok a) ↔ ∃ w ∈ ws, w >>= read = .ok a := Reading.gives_look

theorem gives_readingIf {α : Type} {d : RefreshDomain} {read : Repository → Except SnapshotError α}
    {kept a : α} :
    Reading.Gives ws (readingIf domains d read kept) (.ok a) ↔
      (d ∈ domains → ∃ w ∈ ws, w >>= read = .ok a) ∧ (d ∉ domains → a = kept) := by
  unfold readingIf
  by_cases hd : d ∈ domains
  · simp [hd, gives_through]
  · simp [hd, Reading.gives_pure]

/-- Every field of the result was looked at once, if its domain is one of those to be refreshed, and
otherwise it is the one that was retained. -/
theorem gives_refreshDomainsReading
    (h : Reading.Gives ws (refreshDomainsReading previous domains options) (.ok s)) :
    (snapshotFields options).RefreshedDuring ws {f | f.domain ∈ domains} previous.field s.field := by
  obtain ⟨identity, hi, h⟩ := Reading.gives_bind.1 h
  obtain ⟨head, hh, h⟩ := Reading.gives_bind.1 h
  obtain ⟨headCommit, hc, h⟩ := Reading.gives_bind.1 h
  obtain ⟨upstream, hu, h⟩ := Reading.gives_bind.1 h
  obtain ⟨paths, hp, h⟩ := Reading.gives_bind.1 h
  obtain ⟨operation, ho, h⟩ := Reading.gives_bind.1 h
  obtain ⟨remotes, hr, h⟩ := Reading.gives_bind.1 h
  obtain ⟨branches, hb, h⟩ := Reading.gives_bind.1 h
  obtain ⟨tags, ht, h⟩ := Reading.gives_bind.1 h
  obtain ⟨stashes, hst, h⟩ := Reading.gives_bind.1 h
  obtain ⟨worktrees, hw, h⟩ := Reading.gives_bind.1 h
  obtain ⟨submodules, hsm, h⟩ := Reading.gives_bind.1 h
  obtain rfl := Except.ok.inj (Reading.gives_pure.1 h)
  rw [gives_readingIf] at hi hh hc hu hp ho hr hb ht hst hw hsm
  constructor
  · intro f hf
    cases f with
    | identity => exact hi.1 hf
    | head => exact hh.1 hf
    | headCommit => exact hc.1 hf
    | upstream => exact hu.1 hf
    | paths => exact hp.1 hf
    | operation => exact ho.1 hf
    | remotes => exact hr.1 hf
    | branches => exact hb.1 hf
    | tags => exact ht.1 hf
    | stashes => exact hst.1 hf
    | worktrees => exact hw.1 hf
    | submodules => exact hsm.1 hf
  · intro f hf
    cases f with
    | identity => exact hi.2 hf
    | head => exact hh.2 hf
    | headCommit => exact hc.2 hf
    | upstream => exact hu.2 hf
    | paths => exact hp.2 hf
    | operation => exact ho.2 hf
    | remotes => exact hr.2 hf
    | branches => exact hb.2 hf
    | tags => exact ht.2 hf
    | stashes => exact hst.2 hf
    | worktrees => exact hw.2 hf
    | submodules => exact hsm.2 hf

/-- A full read is a refresh of all domains of whatever was retained. -/
theorem snapshotReading_eq (previous : RepositorySnapshot) :
    snapshotReading options =
      openRepository >>= fun _ => refreshDomainsReading previous allDomains options := by
  simp only [refreshDomainsReading, readingIf, mem_allDomains, if_true]
  rfl

/-- All fields of a full read were looked at. -/
theorem gives_snapshotReading (h : Reading.Gives ws (snapshotReading options) (.ok s)) :
    (snapshotFields options).RefreshedDuring ws Set.univ s.field s.field := by
  rw [snapshotReading_eq s] at h
  obtain ⟨-, -, h⟩ := Reading.gives_bind.1 h
  refine ⟨fun f _ => ?_, fun _ _ => rfl⟩
  exact (gives_refreshDomainsReading h).read f (mem_allDomains _)

/-- What the looks of a refresh lead to: a full read, the retained snapshot, or the retained
snapshot with the planned domains read again. -/
theorem gives_refreshReading {retained : Option RepositorySnapshot} {plan : RefreshPlan}
    {refresh : SnapshotRefresh}
    (h : Reading.Gives ws (refreshReading retained plan options) (.ok refresh)) :
    (refresh.plan = .full ∧ Reading.Gives ws (snapshotReading options) (.ok refresh.snapshot)) ∨
      (refresh.plan = .none ∧ retained = some refresh.snapshot) ∨
      ∃ domains previous, plan = .domains domains ∧ refresh.plan = .domains domains ∧
        retained = some previous ∧
        Reading.Gives ws (refreshDomainsReading previous domains options)
          (.ok refresh.snapshot) := by
  cases retained with
  | none =>
      obtain ⟨snapshot, hs, h⟩ := Reading.gives_bind.1 h
      obtain rfl := Except.ok.inj (Reading.gives_pure.1 h)
      exact Or.inl ⟨rfl, hs⟩
  | some previous =>
      cases plan with
      | none =>
          obtain rfl := Except.ok.inj (Reading.gives_pure.1 h)
          exact Or.inr (Or.inl ⟨rfl, rfl⟩)
      | full =>
          obtain ⟨snapshot, hs, h⟩ := Reading.gives_bind.1 h
          obtain rfl := Except.ok.inj (Reading.gives_pure.1 h)
          exact Or.inl ⟨rfl, hs⟩
      | domains domains =>
          obtain ⟨-, -, h⟩ := Reading.gives_bind.1 h
          obtain ⟨snapshot, hs, h⟩ := Reading.gives_bind.1 h
          obtain rfl := Except.ok.inj (Reading.gives_pure.1 h)
          exact Or.inr (Or.inr ⟨domains, previous, rfl, rfl, rfl, hs⟩)

/-- A refresh by a plan of the classifier cleans the fields it reads, but for those that have not
kept their value from its first look to its last. -/
theorem fresh_of_gives {retained : Option RepositorySnapshot} {plan : RefreshPlan}
    {refresh : SnapshotRefresh} {dirty during : Set SnapshotField}
    (hretained : ∀ snapshot, retained = some snapshot →
      (snapshotFields options).Fresh found dirty snapshot.field)
    (hplan : ClassifierPlan plan)
    (hgives : Reading.Gives ws (refreshReading retained plan options) (.ok refresh))
    (hsame : ∀ w ∈ ws, ∀ f, f ∉ during →
      (snapshotFields options).value w f = (snapshotFields options).value found f) :
    (snapshotFields options).Fresh found (dirty \ {f | refresh.plan.reads f.domain} ∪ during)
      refresh.snapshot.field := by
  rcases gives_refreshReading hgives with
    ⟨hread, h⟩ | ⟨hread, hs⟩ | ⟨domains, previous, rfl, hread, hs, h⟩
  · -- nothing of the retained snapshot is kept, so it may as well be dirty as a whole
    have hall : (snapshotFields options).Fresh found Set.univ refresh.snapshot.field :=
      fun f hclean => absurd (Set.mem_univ f) (hclean f .refl)
    have hclosed : (snapshotFields options).Closed Set.univ := fun d _ _ _ => Set.mem_univ d
    refine (hall.refreshDuring hclosed (gives_snapshotReading h) hsame).mono ?_
    rintro f (⟨-, hnot⟩ | hin)
    · exact absurd (Set.mem_univ f) hnot
    · exact Or.inr hin
  · refine (hretained _ hs).mono fun f hf => Or.inl ⟨hf, ?_⟩
    change ¬ refresh.plan.reads f.domain
    rw [hread]
    exact id
  · rw [hread]
    exact (hretained previous hs).refreshDuring
      (closedFields_of_headWithUpstream hplan.headWithUpstream)
      (gives_refreshDomainsReading h) hsame

end

/-! ### Changes between the looks -/

/-- What can be found of the repository at the moment, the retained snapshot, and what is left of
the refresh that is under way. -/
structure SlowRefresher where
  discover : Discover
  retained : Option RepositorySnapshot := none
  reading : Option (RepositoryReading SnapshotRefresh) := none

/-- What happens: a change that alters some fields, the beginning of a refresh, a look, the end of a
refresh with the plan it was made by, or its failure. -/
inductive SlowLabel
  | change (altered : Set SnapshotField)
  | begun (plan : RefreshPlan)
  | looked
  | finished (plan : RefreshPlan)
  | failed

/-- The fields whose value a change of the repository alters. -/
def alteredFields (path : PathBuf) (options : SnapshotOptions) (before after : Discover) :
    Set SnapshotField :=
  (snapshotFields options).altered (discoverRepository before path) (discoverRepository after path)

/-- A step.  The repository may change in any way between two looks.  A refresh is for the snapshot
that was retained when it began, and what it made of it is retained when it is done. -/
inductive SlowStep (path : PathBuf) (options : SnapshotOptions) :
    SlowRefresher → SlowLabel → SlowRefresher → Prop
  | change (s : SlowRefresher) (after : Discover) :
      SlowStep path options s (.change (alteredFields path options s.discover after))
        { s with discover := after }
  | begin (s : SlowRefresher) (plan : RefreshPlan) (hidle : s.reading = none)
      (hplan : ClassifierPlan plan) :
      SlowStep path options s (.begun plan)
        { s with reading := some (refreshReading s.retained plan options) }
  | look (s : SlowRefresher)
      (next : Except SnapshotError Repository → RepositoryReading SnapshotRefresh)
      (hreading : s.reading = some (.ask next)) :
      SlowStep path options s .looked
        { s with reading := some (next (discoverRepository s.discover path)) }
  | finish (s : SlowRefresher) (refresh : SnapshotRefresh)
      (hreading : s.reading = some (.done (.ok refresh))) :
      SlowStep path options s (.finished refresh.plan)
        { s with retained := some refresh.snapshot, reading := none }
  | fail (s : SlowRefresher) (e : SnapshotError)
      (hreading : s.reading = some (.done (.error e))) :
      SlowStep path options s .failed { s with reading := none }

/-- The fields that are unsettled, and those altered since the last refresh began. -/
structure Unsettled where
  fields : Set SnapshotField := ∅
  during : Set SnapshotField := ∅

def unsettledStep (u : Unsettled) : SlowLabel → Unsettled
  | .change altered => ⟨u.fields ∪ altered, u.during ∪ altered⟩
  | .begun _ => ⟨u.fields, ∅⟩
  | .looked => u
  | .finished plan => ⟨u.fields \ {f | plan.reads f.domain} ∪ u.during, u.during⟩
  | .failed => u

/-- The fields that were altered and not read by a refresh that began after that. -/
def unsettled (labels : List SlowLabel) : Unsettled := labels.foldl unsettledStep {}

theorem unsettled_concat (labels : List SlowLabel) (l : SlowLabel) :
    unsettled (labels ++ [l]) = unsettledStep (unsettled labels) l := by
  simp [unsettled, List.foldl_append]

/-- The retained snapshot is right but for the unsettled fields, and the refresh under way was shown
worlds that differ from the present one in nothing but what was altered since it began. -/
structure SlowInv (path : PathBuf) (options : SnapshotOptions) (u : Unsettled)
    (s : SlowRefresher) : Prop where
  retained : ∀ snapshot, s.retained = some snapshot →
    (snapshotFields options).Fresh (discoverRepository s.discover path) u.fields snapshot.field
  reading : ∀ r, s.reading = some r → ∃ plan ws, ClassifierPlan plan ∧
    Reading.Rest ws (refreshReading s.retained plan options) r ∧
    ∀ w ∈ ws, ∀ f, f ∉ u.during → (snapshotFields options).value w f =
      (snapshotFields options).value (discoverRepository s.discover path) f

section

variable {path : PathBuf} {options : SnapshotOptions} {s s' : SlowRefresher} {u : Unsettled}
  {l : SlowLabel} {labels : List SlowLabel}

/-- Every step keeps the invariant. -/
theorem SlowInv.step (hinv : SlowInv path options u s) (hstep : SlowStep path options s l s') :
    SlowInv path options (unsettledStep u l) s' := by
  cases hstep with
  | change after =>
      refine ⟨fun snapshot hs => (hinv.retained snapshot hs).change, fun r hr => ?_⟩
      obtain ⟨plan, ws, hplan, hrest, hsame⟩ := hinv.reading r hr
      refine ⟨plan, ws, hplan, hrest, fun w hw f hf => ?_⟩
      rw [hsame w hw f fun hin => hf (Or.inl hin)]
      by_contra hne
      exact hf (Or.inr hne)
  | begin plan hidle hplan =>
      refine ⟨hinv.retained, fun r hr => ?_⟩
      obtain rfl := Option.some.inj hr
      exact ⟨plan, ∅, hplan, .refl, fun w hw => absurd hw (Set.notMem_empty w)⟩
  | look next hreading =>
      refine ⟨hinv.retained, fun r hr => ?_⟩
      obtain rfl := Option.some.inj hr
      obtain ⟨plan, ws, hplan, hrest, hsame⟩ := hinv.reading _ hreading
      have hmore := hrest.mono (Set.subset_insert (discoverRepository s.discover path) ws)
      refine ⟨plan, _, hplan, hmore.look (Set.mem_insert _ _), ?_⟩
      rintro w (rfl | hw) f hf
      · rfl
      · exact hsame w hw f hf
  | finish refresh hreading =>
      refine ⟨fun snapshot hs => ?_, fun r hr => by cases hr⟩
      obtain rfl := Option.some.inj hs
      obtain ⟨plan, ws, hplan, hrest, hsame⟩ := hinv.reading _ hreading
      exact fresh_of_gives hinv.retained hplan (hrest.gives (.done _)) hsame
  | fail e hreading => exact ⟨hinv.retained, fun r hr => by cases hr⟩

/-- And so does every run. -/
theorem slowInv_of_run {discover : Discover}
    (h : Lts.Run (SlowStep path options) { discover := discover } labels s) :
    SlowInv path options (unsettled labels) s := by
  induction h with
  | nil =>
      refine ⟨?_, ?_⟩
      · intro snapshot hs
        cases hs
      · intro r hr
        cases hr
  | snoc _ hstep ih =>
      rw [unsettled_concat]
      exact ih.step hstep

/-- In every run, however the changes of the repository are interleaved with the looks of refreshes
by plans of the classifier, the retained snapshot is what a full read gives now where every altered
field was read by a refresh that began after its last alteration. -/
theorem torn_refresh_agrees {discover : Discover} {snapshot : RepositorySnapshot}
    (h : Lts.Run (SlowStep path options) { discover := discover } labels s)
    (hs : s.retained = some snapshot) (hsettled : (unsettled labels).fields = ∅) :
    snapshotRepositoryWithOptions s.discover path options = .ok snapshot := by
  have hfresh := (slowInv_of_run h).retained snapshot hs
  rw [hsettled] at hfresh
  exact snapshot_of_fields hfresh.eq_value

/-- Looks at a repository that stands still. -/
theorem run_looked_of_after {n : ℕ} {r r' : RepositoryReading SnapshotRefresh}
    (hreading : s.reading = some r)
    (hafter : r.after (discoverRepository s.discover path) n = some r') :
    Lts.Run (SlowStep path options) s (List.replicate n .looked)
      { s with reading := some r' } := by
  induction n generalizing s r with
  | zero =>
      obtain rfl := Option.some.inj hafter
      rw [← hreading]
      exact .nil
  | succ n ih =>
      cases r with
      | done result => cases hafter
      | ask next =>
          have hlook : SlowStep path options s .looked
              { s with reading := some (next (discoverRepository s.discover path)) } :=
            .look s next hreading
          exact (ih (s := { s with reading := some (next _) }) rfl hafter).cons hlook

end

/-! ### A merge that starts between two looks -/

/-- A merge that starts alters the operation only. -/
theorem field_altered_by_merge {f : SnapshotField}
    (h : f ∈ alteredFields repoRoot {} (fun _ => .ok plainRepository)
      (fun _ => .ok mergingRepository)) : f = .operation := by
  cases f <;> first | rfl | exact absurd rfl h

/-- A full read that has seen the operation when a merge starts, and looks at the rest after that.
-/
theorem torn_full_read : ∃ r,
    (refreshReading none .full {}).after (.ok plainRepository) 7 = some r ∧
    r.after (.ok mergingRepository) 6 = some (.done (.ok ⟨plainSnapshot, .full⟩)) :=
  ⟨_, rfl, rfl⟩

/-- The refresh for the event of the merge. -/
theorem merge_refresh :
    (refreshReading (some plainSnapshot) mergePlan {}).after (.ok mergingRepository) 7 =
      some (.done (.ok ⟨mergingSnapshot, mergePlan⟩)) := rfl

/-- A full read during which a merge starts has missed it, and the refresh for the event of the
merge puts the snapshot right. -/
theorem torn_refresh_agrees_merge : ∃ labels s,
    Lts.Run (SlowStep repoRoot {}) { discover := fun _ => .ok plainRepository } labels s ∧
    s.retained = some mergingSnapshot ∧
    snapshotRepositoryWithOptions s.discover repoRoot {} = .ok mergingSnapshot := by
  obtain ⟨r, hfirst, hsecond⟩ := torn_full_read
  let plain : SlowRefresher := { discover := fun _ => .ok plainRepository }
  let merging : SlowRefresher :=
    { discover := fun _ => .ok mergingRepository, retained := some plainSnapshot }
  have hbegin : SlowStep repoRoot {} plain (.begun .full)
      { plain with reading := some (refreshReading none .full {}) } := .begin plain .full rfl .full
  have hchange : SlowStep repoRoot {} { plain with reading := some r } _
      { plain with discover := fun _ => .ok mergingRepository, reading := some r } :=
    .change _ _
  have hfinish : SlowStep repoRoot {} { plain with
      discover := fun _ => .ok mergingRepository
      reading := some (.done (.ok ⟨plainSnapshot, .full⟩)) } (.finished .full) merging :=
    .finish _ ⟨plainSnapshot, .full⟩ rfl
  have hagain : SlowStep repoRoot {} merging (.begun mergePlan)
      { merging with reading := some (refreshReading (some plainSnapshot) mergePlan {}) } :=
    .begin merging mergePlan rfl (.event _ _ _ _ _ _)
  have hdone : SlowStep repoRoot {} { merging with
      reading := some (.done (.ok ⟨mergingSnapshot, mergePlan⟩)) } (.finished mergePlan)
      { merging with retained := some mergingSnapshot } :=
    .finish _ ⟨mergingSnapshot, mergePlan⟩ rfl
  have hbefore := (Lts.Run.single hbegin).append (run_looked_of_after rfl hfirst)
  have hread := ((hbefore.snoc hchange).append (run_looked_of_after rfl hsecond)).snoc hfinish
  have hrun := ((hread.snoc hagain).append (run_looked_of_after rfl merge_refresh)).snoc hdone
  refine ⟨_, _, hrun, rfl, torn_refresh_agrees hrun rfl ?_⟩
  rw [Set.eq_empty_iff_forall_notMem]
  rintro f (⟨⟨-, hfull⟩ | haltered, hmerge⟩ | hnone)
  · exact hfull trivial
  · obtain rfl := field_altered_by_merge (haltered.resolve_left id)
    exact hmerge (show mergePlan.reads .operation by decide)
  · exact hnone

end Gitseer
