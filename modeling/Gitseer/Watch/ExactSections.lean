/-
**Which control files keep the other sections exact.**

The head, its upstream, the branches, the remotes, the tags, the stashes and the linked worktrees
are read from references, from the configuration and from the directory `worktrees`.  For each of
these sections the files it can depend on are listed here, and the cascade of the classifier is
compared with the list: almost every one of these files has a plan that reads the section.  The
exceptions are two, the configuration of a single worktree and the stash when it is packed.

Main definitions:

* `RefSection`, `RefSection.footprint` — these sections, and the files they can depend on;
* `RefInputs` — what is assumed of `libgit2`;
* `RefSection.Gap` — the files whose change goes wrong.

Main results:

* `exactAfter_of_altered` — a section is exact when the plan reads all that was altered of what it
  is read for;
* `refGap_iff` — the gaps are the files of the footprint whose plan does not read the section;
* `refSections_exact_iff` — a refresh keeps a section exact, whatever `libgit2` makes of the files,
  exactly for the files that are no gap.
-/

import Gitseer.Watch.ExactPaths
import Gitseer.Watch.ExactSubmodules

set_option relaxedAutoImplicit false
set_option autoImplicit false

open StdPath (PathBuf FileName)

namespace Gitseer

/-! ### Reading all that was altered -/

section

variable {lib : GitLibrary} {repoPath path : PathBuf} {dirs : GitDirs} {d : RefreshDomain}
  {before after : Files}

/-- A section is exact after a change when the plan of the file reads every section that was altered
among those that the section is read for, itself included. -/
theorem exactAfter_of_altered (hcontrol : dirs.IsControl path)
    (h : ∀ options snapshot full,
      snapshotRepositoryWithOptions (lib before) repoPath options = .ok snapshot →
      snapshotRepositoryWithOptions (lib after) repoPath options = .ok full →
      ∀ e, Relation.ReflTransGen sectionNeeds d e → snapshot.part e ≠ full.part e →
        (planForText (lib after) repoPath (dirs.text path)).reads e) :
    ExactAfter lib repoPath dirs d before after path := by
  intro options event snapshot full refresh hmut hmem hsnapshot _ _ hfull hrefresh
  have hvalue := snapshot_eq_ok_iff.1 hsnapshot
  have hvalue' := snapshot_eq_ok_iff.1 hfull
  -- the snapshot from before is fresh but for what the change has altered
  have hstale : RetainedFresh repoPath options
      (∅ ∪ alteredDomains repoPath options (lib before) (lib after))
      ⟨lib after, some snapshot⟩ := by
    intro retained hretained
    obtain rfl := Option.some.inj hretained
    exact (fresh_of_snapshot hsnapshot).change
  have hfresh := hstale.refresh (.event (lib after) (.ok event) repoPath
    snapshot.identity.worktreeRoot dirs.gitDir dirs.commonDir) hrefresh
  have hclean : ∀ e, Relation.ReflTransGen sectionNeeds d e →
      e ∉ (∅ ∪ alteredDomains repoPath options (lib before) (lib after)) \
        {e | (refreshPlanForEvent (lib after) (.ok event) repoPath snapshot.identity.worktreeRoot
          dirs.gitDir dirs.commonDir).reads e} := by
    rintro e hde ⟨he | he, hunread⟩
    · cases he
    · refine hunread (reads_of_planForText hcontrol hmut hmem ?_)
      refine h options snapshot full hsnapshot hfull e hde fun heq => he ?_
      rw [hvalue e, hvalue' e, heq]
  have hd := hfresh d hclean
  rw [hvalue' d] at hd
  exact (Except.ok.inj hd).symm

end

/-! ### Texts of references and of linked worktrees -/

namespace GitDirs

variable {dirs : GitDirs}

/-- The text of a path at or below a directory that is not that of the linked worktrees. -/
theorem text_below {a : String} {path : PathBuf} (hne : namesOf a ≠ [])
    (hnames : (namesOf a).head? ≠ (namesOf "worktrees").head?)
    (htext : (PathBuf.relative (namesOf a)).toStringLossy = a)
    (hstart : (PathBuf.relative (namesOf a)).toBytes ++ [StdPath.separator] =
      StdPath.bytesOf (a ++ "/")) (h : path ∈ dirs.below a) :
    dirs.text path = a ∨ hasPrefix (dirs.text path) (a ++ "/") = true := by
  have hlossy : ∀ rest, (PathBuf.relative (namesOf a ++ rest)).toStringLossy = a ∨
      hasPrefix (PathBuf.relative (namesOf a ++ rest)).toStringLossy (a ++ "/") = true := by
    intro rest
    by_cases hrest : rest = []
    · left
      rw [hrest, List.append_nil, htext]
    · exact Or.inr (hasPrefix_toStringLossy_below hne hrest hstart)
  obtain ⟨rest, rfl | rfl⟩ := h
  · rw [text_gitDir]
    exact hlossy rest
  · rw [text_commonDir_append hne hnames]
    exact hlossy rest

/-- A path in the directory of linked worktrees is one of the Git directory that is there, or has
the text it has below the common directory. -/
theorem text_worktrees (names : List FileName) :
    (∃ name rest, names = name :: rest ∧
        dirs.text (dirs.commonDir.descend (namesOf "worktrees" ++ names)) =
          (PathBuf.relative rest).toStringLossy) ∨
      dirs.text (dirs.commonDir.descend (namesOf "worktrees" ++ names)) =
        (PathBuf.relative (namesOf "worktrees" ++ names)).toStringLossy := by
  by_cases hsame : dirs.gitDir = dirs.commonDir
  · right
    rw [← hsame, text_gitDir]
  · by_cases hbelow : (dirs.commonDir.descend (namesOf "worktrees" ++ names)).startsWith
        dirs.gitDir = true
    · -- the Git directory is that of a linked worktree, and the path is below it
      left
      rcases dirs.standard with heq | ⟨name, hlinked⟩ | ⟨hgit, hcommon⟩
      · exact absurd heq hsame
      · rw [hlinked, PathBuf.startsWith_descend_iff (by simp)] at hbelow
        obtain ⟨more, hmore⟩ := hbelow
        rw [← PathBuf.descend_append, List.append_assoc] at hmore
        have hnames := List.append_cancel_left (PathBuf.descend_injective _ hmore)
        refine ⟨name, more, hnames, ?_⟩
        rw [hmore, ← List.append_assoc, PathBuf.descend_append, ← hlinked, text_gitDir]
      · rw [PathBuf.startsWith_iff] at hbelow
        rcases hbelow with hempty | ⟨rest, hrest⟩
        · rw [PathBuf.startsWith_iff.2 (Or.inl hempty)] at hcommon
          cases hcommon
        · rcases PathBuf.nested_of_descend_eq hrest with h | h
          · rw [h] at hcommon
            cases hcommon
          · rw [h] at hgit
            cases hgit
    · right
      rw [Bool.not_eq_true] at hbelow
      rw [text, gitRelative, PathBuf.stripPrefix_eq_none hbelow, Option.none_or,
        PathBuf.stripPrefix_descend, Option.getD_some]

end GitDirs

/-! ### The sections and their files -/

/-- The sections that are read from references, from the configuration and from the directory of
linked worktrees. -/
inductive RefSection
  | head
  | upstream
  | branches
  | remotes
  | tags
  | stashes
  | worktrees
  deriving DecidableEq

namespace RefSection

def domain : RefSection → RefreshDomain
  | head => .head
  | upstream => .upstream
  | branches => .branches
  | remotes => .remotes
  | tags => .tags
  | stashes => .stashes
  | worktrees => .worktrees

end RefSection

namespace GitDirs

variable (dirs : GitDirs)

/-- The configuration of the repository and that of the worktree. -/
def configFiles : Set PathBuf := {dirs.common "config", dirs.git "config.worktree"}

/-- Where the history of a shallow repository ends. -/
def shallowFiles : Set PathBuf := {dirs.git "shallow", dirs.common "shallow"}

/-- The directory of linked worktrees, the Git directory of each, and the files there that say where
the worktree is and whether it is locked. -/
def worktreeFiles : Set PathBuf :=
  {p | p = dirs.common "worktrees" ∨ ∃ name rest,
    rest ∈ [[], namesOf "gitdir", namesOf "commondir", namesOf "locked"] ∧
      p = dirs.commonDir.descend (namesOf "worktrees" ++ name :: rest)}

end GitDirs

/-- The files that say what the last stash is: its reference, and `packed-refs` when that has no
file. -/
def stashFootprint (dirs : GitDirs) : Footprint PathBuf (Option Content) :=
  .ask (dirs.common "refs/stash") fun own =>
    match own with
    | none => .const {dirs.common "packed-refs"}
    | some _ => .const ∅

namespace RefSection

/-- The files a section can depend on, whatever is in them. -/
def files (dirs : GitDirs) : RefSection → Set PathBuf
  | head => dirs.shallowFiles
  | upstream | branches => dirs.shallowFiles ∪ dirs.configFiles ∪ {dirs.common "packed-refs"} ∪
      dirs.below "refs/heads" ∪ dirs.below "refs/remotes"
  | remotes => dirs.configFiles ∪ dirs.below "refs/remotes"
  | tags => {dirs.common "packed-refs"} ∪ dirs.below "refs/tags"
  | stashes => {dirs.common "logs/refs/stash"}
  | worktrees => dirs.worktreeFiles

/-- The files a section can depend on, found by looking at others. -/
def asked (dirs : GitDirs) (format : HeadFormat) : RefSection → Footprint PathBuf (Option Content)
  | head | upstream | branches => headFootprint dirs format
  | stashes => stashFootprint dirs
  | remotes | tags | worktrees => .const ∅

/-- The files a section can depend on. -/
def footprint (dirs : GitDirs) (format : HeadFormat) (s : RefSection) :
    Footprint PathBuf (Option Content) :=
  (s.asked dirs format).union (.const (s.files dirs ∪ dirs.outside))

/-- The files on which a section can depend and whose plan does not read it. -/
def Gap (dirs : GitDirs) (files : Files) (path : PathBuf) : RefSection → Prop
  | upstream | branches | remotes => path = dirs.git "config.worktree"
  | stashes => path = dirs.common "packed-refs" ∧ files (dirs.common "refs/stash") = none
  | head | tags | worktrees => False

end RefSection

/-- Each of the sections, as far as it can be read, depends on nothing but its files. -/
def RefInputs (dirs : GitDirs) (format : HeadFormat) (repoPath : PathBuf) (lib : GitLibrary) :
    Prop :=
  ∀ (s : RefSection) (options : SnapshotOptions), (s.footprint dirs format).Determines
    fun files value => ∃ repo, lib files repoPath = .ok repo ∧
      sectionValue repo options s.domain = .ok value

section

variable {dirs : GitDirs} {format : HeadFormat} {repoPath path : PathBuf} {discover : Discover}
  {before after files : Files} {s : RefSection} {d : RefreshDomain}

theorem mem_stashFootprint : path ∈ (stashFootprint dirs).keys files ↔
    path = dirs.common "refs/stash" ∨
      path = dirs.common "packed-refs" ∧ files (dirs.common "refs/stash") = none := by
  rw [stashFootprint, Footprint.mem_ask]
  cases files (dirs.common "refs/stash") <;> simp

/-! ### Which plans read them -/

/-- The sections that are read for the references of a directory. -/
def refDomains : List (String × List RefreshDomain) :=
  [("refs/heads", [.head, .upstream, .branches]),
    ("refs/remotes", [.upstream, .branches, .remotes]), ("refs/tags", [.tags])]

theorem reads_of_refText {text a : String} {domains : List RefreshDomain}
    (ha : (a, domains) ∈ refDomains) (h : text = a ∨ hasPrefix text (a ++ "/") = true)
    (hd : d ∈ domains) : (refreshPlanForGitText discover repoPath text).reads d := by
  simp only [refDomains, List.mem_cons, Prod.mk.injEq, List.not_mem_nil, or_false] at ha
  rcases h with rfl | h
  · rcases ha with ⟨rfl, rfl⟩ | ⟨rfl, rfl⟩ | ⟨rfl, rfl⟩ <;>
      simp [refreshPlanForGitText, hasPrefix, List.isPrefixOf, RefreshPlan.reads_ofDomains, hd]
  · rcases ha with ⟨rfl, rfl⟩ | ⟨rfl, rfl⟩ | ⟨rfl, rfl⟩
    · rw [refreshPlanForGitText_of_heads h, RefreshPlan.reads_ofDomains]
      exact List.mem_append_left _ hd
    · have h : hasPrefix text "refs/remotes/" = true := h
      have hplan : refreshPlanForGitText discover repoPath text =
          .ofDomains [.upstream, .branches, .remotes] := by
        simp (disch := simp [hasPrefix, List.isPrefixOf])
          [refreshPlanForGitText, ne_of_hasPrefix h, hasPrefix_of_apart h, h]
      rw [hplan, RefreshPlan.reads_ofDomains]
      exact hd
    · have h : hasPrefix text "refs/tags/" = true := h
      have hplan : refreshPlanForGitText discover repoPath text = .ofDomains [.tags] := by
        simp (disch := simp [hasPrefix, List.isPrefixOf])
          [refreshPlanForGitText, ne_of_hasPrefix h, hasPrefix_of_apart h, h]
      rw [hplan, RefreshPlan.reads_ofDomains]
      exact hd

/-- A lock file below such a directory stands for a reference there. -/
theorem reads_of_refText_lock {text a : String} {domains : List RefreshDomain}
    (ha : (a, domains) ∈ refDomains) (h : text = a ∨ hasPrefix text (a ++ "/") = true)
    (hd : d ∈ domains) : (planForText discover repoPath text).reads d := by
  have hlast : ∀ p ∈ refDomains, (p.1 ++ "/").toList.getLast? = some '/' := by decide
  have hrefs : ∀ p ∈ refDomains, hasPrefix (p.1 ++ "/") "refs/" = true := by decide
  have hnotLock : ∀ p ∈ refDomains, dropSuffix p.1 ".lock" = none := by decide
  cases hlock : dropSuffix text ".lock" with
  | none =>
      rw [planForText_of_notLock hlock]
      exact reads_of_refText ha h hd
  | some target =>
      have hbelow : hasPrefix text (a ++ "/") = true := by
        refine h.resolve_left fun heq => ?_
        rw [heq, hnotLock _ ha] at hlock
        cases hlock
      have htarget := hasPrefix_of_dropSuffix hlock hbelow (hlast _ ha) (by decide)
      have href : hasPrefix target "refs/" = true :=
        hasPrefix_iff.2 ((hasPrefix_iff.1 (hrefs _ ha)).trans (hasPrefix_iff.1 htarget))
      rw [planForText_of_ref_lock hlock href]
      exact reads_of_refText ha (Or.inr htarget) hd

theorem reads_of_refPath {a : String} {domains : List RefreshDomain}
    (ha : (a, domains) ∈ refDomains) (hpath : path ∈ dirs.below a) (hd : d ∈ domains) :
    (planForText discover repoPath (dirs.text path)).reads d := by
  have hnames : ∀ p ∈ refDomains, namesOf p.1 ≠ [] ∧
      (namesOf p.1).head? ≠ (namesOf "worktrees").head? ∧
      (PathBuf.relative (namesOf p.1)).toStringLossy = p.1 ∧
      (PathBuf.relative (namesOf p.1)).toBytes ++ [StdPath.separator] =
        StdPath.bytesOf (p.1 ++ "/") := by decide
  obtain ⟨hne, hhead, htext, hstart⟩ := hnames _ ha
  exact reads_of_refText_lock ha (GitDirs.text_below hne hhead htext hstart hpath) hd

/-- The files that say what is checked out are read for the head, its upstream and the branches. -/
theorem reads_of_headFootprint (h : path ∈ (headFootprint dirs format).keys files)
    (hd : d ∈ [RefreshDomain.head, .upstream, .branches]) :
    (planForText discover repoPath (dirs.text path)).reads d := by
  have hstatic : ∀ t ∈ ["HEAD", "packed-refs"], hasPrefix t "refs/heads/" = false ∧
      ∀ d ∈ [RefreshDomain.head, .upstream, .branches], (staticPlan t).reads d := by decide
  rcases mem_headFootprint.1 h with rfl | ⟨b, -, rfl | ⟨rfl, -⟩⟩
  · obtain ⟨hheads, hreads⟩ := hstatic "HEAD" (by decide)
    exact (reads_iff_static (dirs.text_git (by decide)) hheads).2 (hreads d hd)
  · rw [planForText_branchRef, RefreshPlan.reads_ofDomains]
    exact List.mem_append_left _ hd
  · obtain ⟨hheads, hreads⟩ := hstatic "packed-refs" (by decide)
    exact (reads_iff_static (dirs.text_common (by decide) (by decide)) hheads).2 (hreads d hd)

theorem reads_of_shallowFiles (h : path ∈ dirs.shallowFiles)
    (hd : d ∈ [RefreshDomain.head, .upstream, .branches]) :
    (planForText discover repoPath (dirs.text path)).reads d := by
  have htext : dirs.text path = "shallow" := by
    rcases h with rfl | rfl
    · exact dirs.text_git (by decide)
    · exact dirs.text_common (by decide) (by decide)
  have hstatic : ∀ d ∈ [RefreshDomain.head, .upstream, .branches],
      (staticPlan "shallow").reads d := by decide
  exact (reads_iff_static htext (by decide)).2 (hstatic d hd)

/-- The configuration of a single worktree is read for the paths only. -/
theorem reads_of_configFiles (h : path ∈ dirs.configFiles)
    (hd : d ∈ [RefreshDomain.upstream, .branches, .remotes]) :
    (planForText discover repoPath (dirs.text path)).reads d ↔
      path ≠ dirs.git "config.worktree" := by
  have hstatic : ∀ d ∈ [RefreshDomain.upstream, .branches, .remotes],
      (staticPlan "config").reads d ∧ ¬ (staticPlan "config.worktree").reads d := by decide
  have hconfig : dirs.text (dirs.common "config") = "config" :=
    dirs.text_common (by decide) (by decide)
  have hworktree : dirs.text (dirs.git "config.worktree") = "config.worktree" :=
    dirs.text_git (by decide)
  rcases h with rfl | rfl
  · refine iff_of_true ((reads_iff_static hconfig (by decide)).2 (hstatic d hd).1) fun heq => ?_
    rw [heq, hworktree] at hconfig
    exact absurd hconfig (by decide)
  · refine iff_of_false ?_ fun hne => hne rfl
    rw [reads_iff_static hworktree (by decide)]
    exact (hstatic d hd).2

theorem planForText_of_worktrees {text : String} (h : hasPrefix text "worktrees/" = true) :
    planForText discover repoPath text =
      .ofDomains [.identity, .upstream, .branches, .worktrees] := by
  have hplan : ∀ {text}, hasPrefix text "worktrees/" = true →
      refreshPlanForGitText discover repoPath text =
        .ofDomains [.identity, .upstream, .branches, .worktrees] := by
    intro text h
    simp (disch := simp [hasPrefix, List.isPrefixOf])
      [refreshPlanForGitText, ne_of_hasPrefix h, hasPrefix_of_apart h, h]
  cases hlock : dropSuffix text ".lock" with
  | none => rw [planForText_of_notLock hlock, hplan h]
  | some target =>
      have htarget := hasPrefix_of_dropSuffix hlock h rfl (by decide)
      rw [← hplan htarget]
      simp [planForText, lockTargetForGitPath, hlock, htarget]

/-- The files of linked worktrees are read for the list of these, also those of the worktree that is
the repository's own. -/
theorem reads_of_worktreeFiles (h : path ∈ dirs.worktreeFiles) :
    (planForText discover repoPath (dirs.text path)).reads .worktrees := by
  have hstatic : ∀ rest ∈ [[], namesOf "gitdir", namesOf "commondir", namesOf "locked"],
      hasPrefix (PathBuf.relative rest).toStringLossy "refs/heads/" = false ∧
        (staticPlan (PathBuf.relative rest).toStringLossy).reads .worktrees := by decide
  rcases h with rfl | ⟨name, rest, hrest, rfl⟩
  · refine (reads_iff_static (t := "worktrees") ?_ (by decide)).2 (by decide)
    rcases dirs.text_worktrees [] with ⟨name, rest, hnil, -⟩ | htext
    · cases hnil
    · rw [List.append_nil] at htext
      rw [GitDirs.common, htext]
      decide
  · rcases dirs.text_worktrees (name :: rest) with ⟨_, _, hcons, htext⟩ | htext
    · obtain ⟨rfl, rfl⟩ := List.cons.inj hcons
      obtain ⟨hheads, hreads⟩ := hstatic rest hrest
      exact (reads_iff_static htext hheads).2 hreads
    · have hbelow : hasPrefix (dirs.text (dirs.commonDir.descend
          (namesOf "worktrees" ++ name :: rest))) "worktrees/" = true := by
        rw [htext]
        exact hasPrefix_toStringLossy_below (by decide) (by simp) (by decide)
      rw [planForText_of_worktrees hbelow]
      decide

/-! ### The gaps -/

theorem RefSection.mem_footprint (hcontrol : dirs.IsControl path) :
    path ∈ (s.footprint dirs format).keys files ↔
      path ∈ (s.asked dirs format).keys files ∨ path ∈ s.files dirs := by
  have hnot : path ∉ dirs.outside := fun h => h hcontrol
  rw [footprint, Footprint.mem_union, Footprint.mem_const, Set.mem_union, or_iff_left hnot]

/-- The upstream and the branches are read for all their files but the configuration of a single
worktree. -/
theorem reads_of_branchFiles (hd : d ∈ [RefreshDomain.upstream, .branches])
    (h : path ∈ (headFootprint dirs format).keys files ∨ path ∈ RefSection.branches.files dirs)
    (hgap : path ≠ dirs.git "config.worktree") :
    (planForText discover repoPath (dirs.text path)).reads d := by
  have hheads : d ∈ [RefreshDomain.head, .upstream, .branches] := List.mem_cons_of_mem _ hd
  have hremotes : d ∈ [RefreshDomain.upstream, .branches, .remotes] :=
    List.mem_append_left [RefreshDomain.remotes] hd
  rcases h with h | (((h | h) | rfl) | h) | h
  · exact reads_of_headFootprint h hheads
  · exact reads_of_shallowFiles h hheads
  · exact (reads_of_configFiles h hremotes).2 hgap
  · have hstatic : ∀ d ∈ [RefreshDomain.upstream, .branches],
        (staticPlan "packed-refs").reads d := by decide
    exact (reads_iff_static (dirs.text_common (by decide) (by decide)) (by decide)).2 (hstatic d hd)
  · exact reads_of_refPath (List.mem_cons_self) h hheads
  · exact reads_of_refPath (List.mem_cons_of_mem _ List.mem_cons_self) h hremotes

/-- Every file of the footprint that is no gap has a plan that reads the section. -/
theorem reads_of_not_refGap (h : path ∈ (s.asked dirs format).keys files ∨ path ∈ s.files dirs)
    (hgap : ¬ s.Gap dirs files path) :
    (planForText discover repoPath (dirs.text path)).reads s.domain := by
  cases s with
  | head =>
      rcases h with h | h
      · exact reads_of_headFootprint h (by decide)
      · exact reads_of_shallowFiles h (by decide)
  | upstream => exact reads_of_branchFiles (by decide) h hgap
  | branches => exact reads_of_branchFiles (by decide) h hgap
  | remotes =>
      rcases h with h | h | h
      · cases h
      · exact (reads_of_configFiles h (by decide)).2 hgap
      · exact reads_of_refPath (List.mem_cons_of_mem _ List.mem_cons_self) h (by decide)
  | tags =>
      rcases h with h | rfl | h
      · cases h
      · exact (reads_iff_static (dirs.text_common (by decide) (by decide)) (by decide)).2
          (by decide)
      · have hmem : ("refs/tags", [RefreshDomain.tags]) ∈ refDomains := by decide
        exact reads_of_refPath hmem h (by decide)
  | stashes =>
      rcases h with h | rfl
      · rcases mem_stashFootprint.1 h with rfl | hpacked
        · exact (reads_iff_static (dirs.text_common (by decide) (by decide)) (by decide)).2
            (by decide)
        · exact absurd hpacked hgap
      · exact (reads_iff_static (dirs.text_common (by decide) (by decide)) (by decide)).2
          (by decide)
  | worktrees =>
      rcases h with h | h
      · cases h
      · exact reads_of_worktreeFiles h

/-- The gaps are the files of the footprint whose plan does not read the section. -/
theorem refGap_iff (discover : Discover) (repoPath : PathBuf) (hcontrol : dirs.IsControl path) :
    s.Gap dirs files path ↔ path ∈ (s.footprint dirs format).keys files ∧
      ¬ (planForText discover repoPath (dirs.text path)).reads s.domain := by
  rw [RefSection.mem_footprint hcontrol]
  constructor
  · intro hgap
    have hconfig : dirs.git "config.worktree" ∈ dirs.configFiles := Or.inr rfl
    have hunread : ∀ d ∈ [RefreshDomain.upstream, .branches, .remotes],
        ¬ (planForText discover repoPath (dirs.text (dirs.git "config.worktree"))).reads d :=
      fun d hd hreads => (reads_of_configFiles hconfig hd).1 hreads rfl
    cases s with
    | upstream =>
        obtain rfl : path = _ := hgap
        exact ⟨Or.inr (Or.inl (Or.inl (Or.inl (Or.inr hconfig)))), hunread _ (by decide)⟩
    | branches =>
        obtain rfl : path = _ := hgap
        exact ⟨Or.inr (Or.inl (Or.inl (Or.inl (Or.inr hconfig)))), hunread _ (by decide)⟩
    | remotes =>
        obtain rfl : path = _ := hgap
        exact ⟨Or.inr (Or.inl hconfig), hunread _ (by decide)⟩
    | stashes =>
        refine ⟨Or.inl (mem_stashFootprint.2 (Or.inr hgap)), ?_⟩
        obtain ⟨rfl, -⟩ : path = _ ∧ _ := hgap
        rw [reads_iff_static (dirs.text_common (by decide) (by decide)) (by decide)]
        decide
    | head => cases hgap
    | tags => cases hgap
    | worktrees => cases hgap
  · rintro ⟨hpath, hunread⟩
    by_contra hgap
    exact hunread (reads_of_not_refGap hpath hgap)

/-! ### When the sections are exact -/

/-- What a section is read for: itself, and the head for the upstream. -/
theorem needed_cases {e : RefreshDomain} (h : Relation.ReflTransGen sectionNeeds d e) :
    e = d ∨ (d = .upstream ∧ e = .head) := by
  induction h with
  | refl => exact Or.inl rfl
  | tail _ hstep ih =>
      obtain ⟨rfl, rfl⟩ := hstep
      rcases ih with heq | ⟨-, heq⟩
      · exact Or.inr ⟨heq.symm, rfl⟩
      · cases heq

/-- A change that alters a section is read for it, unless it is a gap. -/
theorem reads_of_altered {lib : GitLibrary} (hlib : RefInputs dirs format repoPath lib)
    (hcontrol : dirs.IsControl path) (hchange : Footprint.Changed before after path)
    (hgap : ¬ s.Gap dirs before path) {options : SnapshotOptions}
    {snapshot full : RepositorySnapshot}
    (hsnapshot : snapshotRepositoryWithOptions (lib before) repoPath options = .ok snapshot)
    (hfull : snapshotRepositoryWithOptions (lib after) repoPath options = .ok full)
    (hne : snapshot.part s.domain ≠ full.part s.domain) :
    (planForText discover repoPath (dirs.text path)).reads s.domain := by
  obtain ⟨repo, hrepo, hparts⟩ := sectionValue_of_snapshot hsnapshot
  obtain ⟨repo', hrepo', hparts'⟩ := sectionValue_of_snapshot hfull
  by_cases hpath : path ∈ (s.footprint dirs format).keys before
  · exact reads_of_not_refGap ((RefSection.mem_footprint hcontrol).1 hpath) hgap
  · exact absurd ((hlib s options).eq_of_changed hchange hpath ⟨repo, hrepo, hparts _⟩
      ⟨repo', hrepo', hparts' _⟩) hne

/-- A repository with a mark in the section: a remote, a stash, or the one upstream of its branch
instead of the other. -/
def markedRepository (dirs : GitDirs) (s : RefSection) (marked : Bool) : Repository :=
  let plain : Repository :=
    { workdir := some repoRoot, path := dirs.gitDir, commondir := dirs.commonDir }
  match s with
  | .remotes => { plain with
      remotes := .ok (if marked then [some "origin"] else [])
      findRemote := fun _ => .ok ⟨none, none, .ok [], .ok []⟩ }
  | .stashes => { plain with
      stashForeach := .ok (if marked then [(0, "WIP on main", tipCommit.id)] else []) }
  | .upstream | .branches => { plain with
      head := .ok ⟨some "refs/heads/main", some "main", true, some tipCommit.id, none, none⟩
      branches := .ok [.ok (⟨.ok (some "main"), true, some tipCommit.id,
        .ok ⟨.ok (some (if marked then "origin/main" else "origin/next")), none⟩⟩, .local)] }
  | .head | .tags | .worktrees => plain

/-- The mark of a section is seen in the sections with the same files only. -/
theorem markedRepository_value (dirs : GitDirs) (format : HeadFormat) (s s' : RefSection) :
    s'.footprint dirs format = s.footprint dirs format ∨ ∀ marked marked' options,
      sectionValue (markedRepository dirs s marked) options s'.domain =
        sectionValue (markedRepository dirs s marked') options s'.domain := by
  cases s <;> cases s' <;> first | exact Or.inl rfl | exact Or.inr fun _ _ _ => rfl

theorem markedRepository_inputs {marked : Files → Bool}
    (hmarked : (s.footprint dirs format).Determines fun files answer => marked files = answer) :
    RefInputs dirs format repoPath fun files _ => .ok (markedRepository dirs s (marked files)) := by
  rintro s' options f g a b ⟨_, hf, ha⟩ ⟨_, hg, hb⟩ heq
  obtain rfl := Except.ok.inj hf
  obtain rfl := Except.ok.inj hg
  have hsame : sectionValue (markedRepository dirs s (marked f)) options s'.domain =
      sectionValue (markedRepository dirs s (marked g)) options s'.domain := by
    rcases markedRepository_value dirs format s s' with hfiles | hvalue
    · rw [hfiles] at heq
      rw [hmarked f g _ _ rfl rfl heq]
    · exact hvalue _ _ options
  rw [ha, hb] at hsame
  exact Except.ok.inj hsame

/-- The snapshots with and without the mark differ in a section that has gaps. -/
theorem markedRepository_snapshots (dirs : GitDirs) (hgap : s.Gap dirs files path) :
    ∃ snapshot full, readSnapshot (markedRepository dirs s true) {} = .ok snapshot ∧
      readSnapshot (markedRepository dirs s false) {} = .ok full ∧
      snapshot.identity.gitDir = dirs.gitDir ∧ snapshot.identity.commonDir = dirs.commonDir ∧
      snapshot.part s.domain ≠ full.part s.domain := by
  cases s with
  | head => cases hgap
  | tags => cases hgap
  | worktrees => cases hgap
  | remotes => exact ⟨_, _, rfl, rfl, rfl, rfl, fun h => by cases h⟩
  | stashes => exact ⟨_, _, rfl, rfl, rfl, rfl, fun h => by cases h⟩
  | upstream =>
      refine ⟨_, _, rfl, rfl, rfl, rfl, fun h => ?_⟩
      have hname : some "origin/main" = some "origin/next" :=
        congrArg (Option.map UpstreamState.name) h
      exact absurd hname (by decide)
  | branches =>
      refine ⟨_, _, rfl, rfl, rfl, rfl, fun h => ?_⟩
      have hnames : [some "origin/main"] = [some "origin/next"] :=
        congrArg (List.map BranchSummary.upstream) h
      exact absurd hnames (by decide)

/-- The plans of the gaps read no upstream for a head that they keep. -/
theorem reads_head_of_refGap (hgap : s.Gap dirs files path)
    (hreads : (planForText discover repoPath (dirs.text path)).reads .upstream) :
    (planForText discover repoPath (dirs.text path)).reads .head := by
  have hconfig : path = dirs.git "config.worktree" →
      ¬ (planForText discover repoPath (dirs.text path)).reads .upstream := by
    rintro rfl h
    exact (reads_of_configFiles (Or.inr rfl) (by decide)).1 h rfl
  cases s with
  | upstream => exact absurd hreads (hconfig hgap)
  | branches => exact absurd hreads (hconfig hgap)
  | remotes => exact absurd hreads (hconfig hgap)
  | stashes =>
      rw [hgap.1, reads_iff_static (dirs.text_common (by decide) (by decide)) (by decide)]
      decide
  | head => cases hgap
  | tags => cases hgap
  | worktrees => cases hgap

/-- A refresh for a changed control file keeps each of the sections exact, whatever `libgit2` makes
of the files, when the file is no gap, and only then. -/
theorem refSections_exact_iff (hcontrol : dirs.IsControl path)
    (hchange : Footprint.Changed before after path) :
    (∀ lib, RefInputs dirs format repoPath lib →
        ExactAfter lib repoPath dirs s.domain before after path) ↔ ¬ s.Gap dirs before path := by
  constructor
  · intro hexact hgap
    have hmem : ∀ discover, path ∈ (s.footprint dirs format).keys before ∧
        ¬ (planForText discover repoPath (dirs.text path)).reads s.domain :=
      fun discover => (refGap_iff discover repoPath hcontrol).1 hgap
    -- some answer of the footprint notices the change; let it say whether the section is marked
    obtain ⟨answer, hanswer, hbefore, hafter⟩ :=
      Footprint.exists_told_apart hchange (hmem fun _ => .ok plainRepository).1
    obtain ⟨snapshot, full, hs, hs', hgit, hcommon, hne⟩ := markedRepository_snapshots dirs hgap
    have hs : readSnapshot (markedRepository dirs s (answer before)) {} = .ok snapshot := by
      rw [hbefore]
      exact hs
    have hs' : readSnapshot (markedRepository dirs s (answer after)) {} = .ok full := by
      rw [hafter]
      exact hs'
    have hnot : ¬ ExactAfter (fun files _ => .ok (markedRepository dirs s (answer files))) repoPath
        dirs s.domain before after path :=
      not_exactAfter hcontrol hs hgit hcommon hs' (hmem _).2
        (fun hup => Or.inl (reads_head_of_refGap hgap hup)) hne
    exact hnot (hexact _ (markedRepository_inputs hanswer))
  · intro hgap lib hlib
    refine exactAfter_of_altered hcontrol ?_
    intro options snapshot full hsnapshot hfull e hneeded hne
    rcases needed_cases hneeded with rfl | ⟨-, rfl⟩
    · exact reads_of_altered hlib hcontrol hchange hgap hsnapshot hfull hne
    · exact reads_of_altered (s := .head) hlib hcontrol hchange id hsnapshot hfull hne

end

/-! ### A new tag -/

/-- A tag that is created is no gap of the tags, so they are exact after it. -/
theorem refSections_exact_iff_tag :
    ExactAfter (fun _ _ => .ok (markedRepository plainDirs .tags false)) repoRoot plainDirs .tags
      committedFiles
      (Function.update committedFiles (plainDirs.common "refs/tags/v1")
        (some (StdPath.bytesOf tipCommit.id.hex)))
      (plainDirs.common "refs/tags/v1") := by
  have hinputs : RefInputs plainDirs mainFormat repoRoot fun _ _ =>
      .ok (markedRepository plainDirs .tags false) :=
    markedRepository_inputs (Footprint.determines_const _ false)
  exact (refSections_exact_iff (s := .tags) (GitDirs.isControl_common _)
    (Footprint.changed_update (by decide))).2 id _ hinputs

end Gitseer
