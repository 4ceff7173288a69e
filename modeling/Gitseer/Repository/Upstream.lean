/-
**The upstream of the head, read twice.**

The upstream section of a snapshot and the branch entry of the head say where the head is compared
to its upstream.  They are read by two functions.  Both give the name of the upstream and the
counts, but not where something is missing: for a name that is not UTF-8 one has a text that says so
and the other has no name, and for a tip that is not a direct reference one has two zeros and the
other has no counts.  The section is read by the name of the head, the entry is not.

Main definitions:

* `Repository.HeadBranch` — the local branch that is the head;
* `UpstreamsAgree` — the section and the entry say the same;
* `UpstreamDirect` — nothing is missing, or just what neither of them needs.

Main results:

* `upstreamState_of_upstream`, `branchSummary_of_upstream` — what the two functions give;
* `upstreams_agree_iff` — when the section and the entry agree.
-/

import Gitseer.Repository.Snapshot

set_option relaxedAutoImplicit false
set_option autoImplicit false

open StdPath (PathBuf)

namespace Gitseer

/-! ### Agreement -/

/-- The branch is the head: no other local branch is marked so, and it is found by the name of the
head. -/
structure Repository.HeadBranch (repo : Repository) (branch : Branch) : Prop where
  only : ∀ items other, repo.branches = .ok items → .ok (other, .local) ∈ items →
    other.isHead = true → other = branch
  found : ∀ head name, repo.head = .ok head → head.shorthand = some name →
    repo.findBranch name = .ok branch

/-- The entry has the name and the counts of the section, and none of them without a section. -/
structure UpstreamsAgree (entry : BranchSummary) (upstream : Option UpstreamState) : Prop where
  name : ∀ n, entry.upstream = some n ↔ ∃ u, upstream = some u ∧ u.name = n
  counts : ∀ u, upstream = some u →
    entry.upstreamAhead = some u.ahead ∧ entry.upstreamBehind = some u.behind
  none : (entry.upstream = none ∧ entry.upstreamAhead = none ∧ entry.upstreamBehind = none) ↔
    upstream = none

/-- Where there is an upstream, the names of the head and of the upstream are UTF-8 and both tips
are direct references, or neither name is and not both tips are. -/
def UpstreamDirect (head : Reference) (branch : Branch) : Prop :=
  ∀ upstream, branch.upstream = .ok upstream →
    (head.shorthand ≠ none ∧ upstream.name ≠ .ok none ∧
      branch.target ≠ none ∧ upstream.target ≠ none) ∨
    (head.shorthand = none ∧ upstream.name = .ok none ∧
      (branch.target = none ∨ upstream.target = none))

section

variable {repo : Repository} {head : HeadState} {branch : Branch} {name : String}
  {upstream : UpstreamBranch} {summary : BranchSummary} {state : Option UpstreamState}

/-! ### The two functions -/

/-- The section for the branch of the head. -/
theorem upstreamState_of_upstream (hkind : head.kind = .attached)
    (hbranch : head.branch = some name) (hfound : repo.findBranch name = .ok branch)
    (hstate : upstreamState repo head = .ok state) :
    (∀ e, branch.upstream = .error e → state = none) ∧
    ∀ upstream, branch.upstream = .ok upstream → ∃ n counts, upstream.name = .ok n ∧
      aheadBehind repo branch.target upstream.target = .ok counts ∧
      state = some ⟨n.getD "<invalid-utf8>", upstream.target.map Oid.hex, counts.1, counts.2⟩ := by
  simp only [upstreamState, hkind, hbranch, hfound, liftGit_ok, Result.ok_bind, ne_eq,
    not_true_eq_false, if_false] at hstate
  constructor
  · intro e he
    rw [he] at hstate
    dsimp only at hstate
    split at hstate
    · exact (Except.ok.inj hstate).symm
    · cases hstate
  · intro upstream hupstream
    rw [hupstream] at hstate
    obtain ⟨n, hn, hstate⟩ := Result.bind_eq_ok.1 hstate
    obtain ⟨counts, hcounts, hstate⟩ := Result.bind_eq_ok.1 hstate
    exact ⟨n, counts, liftGit_eq_ok.1 hn, hcounts, (Except.ok.inj hstate).symm⟩

/-- The entry of a local branch. -/
theorem branchSummary_of_upstream (hsummary : branchSummary repo (.ok (branch, .local)) =
    .ok summary) :
    (∀ e, branch.upstream = .error e → summary.upstream = none ∧ summary.upstreamAhead = none ∧
      summary.upstreamBehind = none) ∧
    ∀ upstream, branch.upstream = .ok upstream → upstream.name = .ok summary.upstream ∧
      ((branch.target = none ∨ upstream.target = none) ∧
          summary.upstreamAhead = none ∧ summary.upstreamBehind = none ∨
        ∃ counts, branch.target ≠ none ∧ upstream.target ≠ none ∧
          aheadBehind repo branch.target upstream.target = .ok counts ∧
          summary.upstreamAhead = some counts.1 ∧ summary.upstreamBehind = some counts.2) := by
  simp only [branchSummary, liftGit_ok, Result.ok_bind] at hsummary
  obtain ⟨_, -, hsummary⟩ := Result.bind_eq_ok.1 hsummary
  obtain ⟨n, hn, hsummary⟩ := Result.bind_eq_ok.1 hsummary
  obtain ⟨counts, hcounts, hsummary⟩ := Result.bind_eq_ok.1 hsummary
  obtain rfl := Except.ok.inj hsummary
  constructor
  · intro e he
    simp only [branchUpstreamName, branchUpstreamCounts, he] at hn hcounts
    obtain rfl := Except.ok.inj hcounts
    split at hn
    · exact ⟨(Except.ok.inj hn).symm, rfl, rfl⟩
    · cases hn
  · intro upstream hupstream
    simp only [branchUpstreamName, branchUpstreamCounts, hupstream] at hn hcounts
    refine ⟨liftGit_eq_ok.1 hn, ?_⟩
    cases hlocal : branch.target with
    | none =>
        rw [hlocal] at hcounts
        obtain rfl := Except.ok.inj hcounts
        exact .inl ⟨.inl rfl, rfl, rfl⟩
    | some localOid =>
        cases hremote : upstream.target with
        | none =>
            rw [hlocal, hremote] at hcounts
            obtain rfl := Except.ok.inj hcounts
            exact .inl ⟨.inr rfl, rfl, rfl⟩
        | some remoteOid =>
            rw [hlocal, hremote] at hcounts
            obtain ⟨pair, hpair, hcounts⟩ := Result.bind_eq_ok.1 hcounts
            obtain rfl := Except.ok.inj hcounts
            exact .inr ⟨pair, by simp, by simp, hpair, rfl, rfl⟩

/-! ### When they agree -/

theorem upstreamsAgree_none_iff {entry : BranchSummary} :
    UpstreamsAgree entry none ↔
      entry.upstream = none ∧ entry.upstreamAhead = none ∧ entry.upstreamBehind = none := by
  constructor
  · intro h
    exact h.none.2 rfl
  · rintro ⟨hname, hahead, hbehind⟩
    refine ⟨fun n => ?_, fun u hu => ?_, iff_of_true ⟨hname, hahead, hbehind⟩ rfl⟩
    · simp [hname]
    · cases hu

theorem upstreamsAgree_some_iff {entry : BranchSummary} {u : UpstreamState} :
    UpstreamsAgree entry (some u) ↔ entry.upstream = some u.name ∧
      entry.upstreamAhead = some u.ahead ∧ entry.upstreamBehind = some u.behind := by
  constructor
  · intro h
    exact ⟨(h.name u.name).2 ⟨u, rfl, rfl⟩, h.counts u rfl⟩
  · rintro ⟨hname, hcounts⟩
    refine ⟨fun n => ?_, fun v hv => ?_, ?_⟩
    · simp [hname]
    · obtain rfl := Option.some.inj hv
      exact hcounts
    · simp [hname]

theorem upstreamDirect_iff {reference : Reference} (hup : branch.upstream = .ok upstream) :
    UpstreamDirect reference branch ↔
      (reference.shorthand ≠ none ∧ upstream.name ≠ .ok none ∧
        branch.target ≠ none ∧ upstream.target ≠ none) ∨
      (reference.shorthand = none ∧ upstream.name = .ok none ∧
        (branch.target = none ∨ upstream.target = none)) := by
  constructor
  · intro h
    exact h upstream hup
  · intro h other hother
    obtain rfl := Except.ok.inj (hup.symm.trans hother)
    exact h

/-- The sections that matter of a full read. -/
theorem sections_of_snapshot {discover : Discover} {path : PathBuf} {options : SnapshotOptions}
    {snapshot : RepositorySnapshot} (hrepo : discover path = .ok repo)
    (hsnapshot : snapshotRepositoryWithOptions discover path options = .ok snapshot) :
    headState repo = .ok snapshot.head ∧ upstreamState repo snapshot.head = .ok snapshot.upstream ∧
      branches repo = .ok snapshot.branches := by
  have hsections := refreshes_of_snapshot hrepo hsnapshot
  have hhead := hsections.head
  have hupstream := hsections.upstream
  have hbranches := hsections.branches
  rw [readIf_of_mem (mem_allDomains _)] at hhead hupstream hbranches
  obtain ⟨head, hheadState, hhead⟩ := Result.bind_eq_ok.1 hhead
  obtain ⟨commit, -, hhead⟩ := Result.bind_eq_ok.1 hhead
  obtain ⟨rfl, -⟩ := Prod.mk.inj (Except.ok.inj hhead)
  exact ⟨hheadState, hupstream, hbranches⟩

/-- An entry of the branch section is the summary of a branch. -/
theorem exists_branch_of_mem {summaries : List BranchSummary} {entry : BranchSummary}
    (hbranches : branches repo = .ok summaries) (hentry : entry ∈ summaries)
    (hlocal : entry.kind = .local) :
    ∃ items branch, repo.branches = .ok items ∧ .ok (branch, .local) ∈ items ∧
      branch.isHead = entry.isHead ∧ branchSummary repo (.ok (branch, .local)) = .ok entry := by
  obtain ⟨items, hitems, hbranches⟩ := Result.bind_eq_ok.1 hbranches
  obtain ⟨unsorted, hmap, hbranches⟩ := Result.bind_eq_ok.1 hbranches
  obtain rfl := Except.ok.inj hbranches
  rw [List.mem_insertionSort] at hentry
  obtain ⟨item, hitem, hsummary⟩ := Result.exists_item_of_mapM hmap entry hentry
  have hread := hsummary
  obtain ⟨⟨branch, kind⟩, hok, hread⟩ := Result.bind_eq_ok.1 hread
  obtain ⟨_, -, hread⟩ := Result.bind_eq_ok.1 hread
  obtain ⟨_, -, hread⟩ := Result.bind_eq_ok.1 hread
  obtain ⟨_, -, hread⟩ := Result.bind_eq_ok.1 hread
  obtain rfl := Except.ok.inj hread
  obtain rfl := liftGit_eq_ok.1 hok
  cases kind with
  | remote => cases hlocal
  | «local» => exact ⟨items, branch, liftGit_eq_ok.1 hitems, hitem, rfl, hsummary⟩

/-- The section and the entry of the head agree exactly when nothing is missing, or just what
neither of them needs. -/
theorem upstreams_agree_iff (discover : Discover) (path : PathBuf) (options : SnapshotOptions)
    {snapshot : RepositorySnapshot} {reference : Reference} {entry : BranchSummary}
    (hrepo : discover path = .ok repo)
    (hsnapshot : snapshotRepositoryWithOptions discover path options = .ok snapshot)
    (hhead : repo.head = .ok reference) (hattached : snapshot.head.kind = .attached)
    (hbranch : repo.HeadBranch branch) (hentry : entry ∈ snapshot.branches)
    (hlocal : entry.kind = .local) (hisHead : entry.isHead = true) :
    UpstreamsAgree entry snapshot.upstream ↔ UpstreamDirect reference branch := by
  obtain ⟨hheadState, hstate, hbranches⟩ := sections_of_snapshot hrepo hsnapshot
  obtain ⟨items, other, hitems, hmem, hother, hsummary⟩ :=
    exists_branch_of_mem hbranches hentry hlocal
  obtain rfl := (hbranch.only items other hitems hmem (hother.trans hisHead)).symm
  obtain ⟨hwithout, hwith⟩ := branchSummary_of_upstream hsummary
  have hshorthand : snapshot.head.branch = reference.shorthand := by
    unfold headState at hheadState
    rw [hhead] at hheadState
    dsimp only at hheadState
    split at hheadState
    · rw [← Except.ok.inj hheadState]
    · rw [← Except.ok.inj hheadState] at hattached
      cases hattached
  cases hname : reference.shorthand with
  | none =>
      rw [hname] at hshorthand
      rw [upstreamState_of_no_branch hshorthand] at hstate
      -- The section needs the name of the head, the entry does not.
      rw [← Except.ok.inj hstate, upstreamsAgree_none_iff]
      cases hup : branch.upstream with
      | error e =>
          refine iff_of_true (hwithout e hup) fun u hu => ?_
          rw [hup] at hu
          cases hu
      | ok u =>
          rw [upstreamDirect_iff hup]
          obtain ⟨hn, ⟨hmissing, hahead, hbehind⟩ | ⟨counts, hlocal, hremote, -, hahead, hbehind⟩⟩ :=
            hwith u hup
          · simp [hn, hname, hahead, hbehind, hmissing]
          · simp [hname, hahead, hlocal, hremote]
  | some name =>
      rw [hname] at hshorthand
      obtain ⟨hwithoutState, hwithState⟩ := upstreamState_of_upstream hattached hshorthand
        (hbranch.found reference name hhead hname) hstate
      cases hup : branch.upstream with
      | error e =>
          rw [hwithoutState e hup, upstreamsAgree_none_iff]
          refine iff_of_true (hwithout e hup) fun u hu => ?_
          rw [hup] at hu
          cases hu
      | ok u =>
          obtain ⟨n, counts, hn, hcounts, hsome⟩ := hwithState u hup
          rw [hsome, upstreamsAgree_some_iff, upstreamDirect_iff hup]
          obtain ⟨hn', hentryCounts⟩ := hwith u hup
          obtain rfl := Except.ok.inj (hn.symm.trans hn')
          obtain ⟨hmissing, hahead, -⟩ | ⟨counts', hlocal, hremote, hcounts', hahead, hbehind⟩ :=
            hentryCounts
          · -- A tip is missing: the section has two zeros where the entry has nothing.
            refine iff_of_false (fun h => ?_) fun h => ?_
            · simp [hahead] at h
            · obtain ⟨-, -, hlocal, hremote⟩ | ⟨h, -, -⟩ := h
              · exact hmissing.elim hlocal hremote
              · simp [hname] at h
          · obtain rfl := Except.ok.inj (hcounts.symm.trans hcounts')
            cases hentryName : entry.upstream with
            | none => simp [hn, hname, hentryName]
            | some n => simp [hn, hname, hentryName, hahead, hbehind, hlocal, hremote]

end

/-! ### An alias as the upstream -/

/-- The branch `main` is checked out and has the branch `alias` as its upstream.  Of the latter the
given target is known: none where it is a symbolic reference to `main`. -/
def aliasRepository (target : Option Oid) : Repository :=
  { branchRepository "main" with
    branches := .ok [
      .ok (⟨.ok (some "alias"), false, target, .error ⟨.notFound, "no upstream"⟩⟩, .local),
      .ok (⟨.ok (some "main"), true, some tipCommit.id, .ok ⟨.ok (some "alias"), target⟩⟩, .local)] }

/-- The entry of `main`, with the counts it is compared by. -/
def aliasedEntry (counts : Option (ℕ × ℕ)) : BranchSummary :=
  ⟨"main", .local, true, some tipCommit.id.hex, some tipSummary, some "alias",
    counts.map Prod.fst, counts.map Prod.snd⟩

def aliasSnapshot (target : Option Oid) (counts : Option (ℕ × ℕ)) : RepositorySnapshot :=
  { branchSnapshot "main" with
    upstream := some ⟨"alias", target.map Oid.hex, 0, 0⟩
    branches := [
      ⟨"alias", .local, false, target.map Oid.hex, target.map fun _ => tipSummary, none, none, none⟩,
      aliasedEntry counts] }

theorem headBranch_aliasRepository (target : Option Oid) :
    (aliasRepository target).HeadBranch
      ⟨.ok (some "main"), true, some tipCommit.id, .ok ⟨.ok (some "alias"), target⟩⟩ := by
  constructor
  · intro items other hitems hmem hother
    obtain rfl := Except.ok.inj hitems
    rcases List.mem_pair.1 hmem with h | h
    · obtain ⟨rfl, -⟩ := Prod.mk.inj (Except.ok.inj h)
      cases hother
    · exact (Prod.mk.inj (Except.ok.inj h)).1
  · intro head name hhead hname
    obtain rfl := Except.ok.inj hhead
    obtain rfl := Option.some.inj hname
    rfl

/-- At a direct reference the two agree. -/
theorem upstreams_agree_iff_direct :
    UpstreamsAgree (aliasedEntry (some (0, 0)))
      (aliasSnapshot (some tipCommit.id) (some (0, 0))).upstream :=
  (upstreams_agree_iff (fun _ => .ok (aliasRepository (some tipCommit.id))) repoRoot {} rfl
    (by decide) rfl rfl (headBranch_aliasRepository _)
    (List.mem_of_mem_tail (List.mem_singleton_self _)) rfl rfl).2 fun upstream h => by
      obtain rfl := Except.ok.inj h
      exact .inl (by decide)

/-- At a symbolic reference the section has two counts and the entry has none. -/
theorem symbolic_upstream_disagrees :
    snapshotRepositoryWithOptions (fun _ => .ok (aliasRepository none)) repoRoot {} =
        .ok (aliasSnapshot none none) ∧
      (aliasSnapshot none none).head.kind = .attached ∧
      aliasedEntry none ∈ (aliasSnapshot none none).branches ∧
      (aliasedEntry none).kind = .local ∧ (aliasedEntry none).isHead = true ∧
      ¬ UpstreamsAgree (aliasedEntry none) (aliasSnapshot none none).upstream := by
  refine ⟨by decide, rfl, List.mem_of_mem_tail (List.mem_singleton_self _), rfl, rfl, fun h => ?_⟩
  cases (h.counts _ rfl).1

end Gitseer
