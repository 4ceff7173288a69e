/-
**From watcher events to refresh plans.**

An event of the file watcher says what happened to which paths.  The classifier maps it to the
domains of the snapshot it may have changed: a path in the Git directory by the control file it
names, a path in the worktree by whether it is ignored, belongs to a submodule or holds ignore
rules, and everything else to a full refresh.  A lock file stands for the file it replaces.

Main definitions:

* `Event`, `WatchEvent` — what the watcher delivers, an event or an error;
* `refreshPlanForEvent`, `refreshPlanForPath`, `refreshPlanForGitPath` — the classifier;
* `eventMayChangeIgnoreRules` — does an event touch a file that holds ignore rules?
* `RefreshPlan.HeadWithUpstream` — the plans that read the upstream whenever they read the head;
* `ClassifierPlan` — the plans that arise from events by combination.

Main results:

* `refreshPlanForGitPath_headWithUpstream`, `refreshPlanForEvent_headWithUpstream` — every plan of
  the classifier reads the upstream when it reads the head;
* `ClassifierPlan.headWithUpstream` — and so does every combination of them.
-/

import Gitseer.Lib.Join
import Gitseer.Repository.Snapshot

set_option relaxedAutoImplicit false
set_option autoImplicit false

open StdPath (PathBuf FileName)

namespace Gitseer

/-! ### Events -/

inductive AccessMode
  | any
  | execute
  | read
  | write
  | other
  deriving DecidableEq

inductive AccessKind
  | any
  | read
  | open (mode : AccessMode)
  | close (mode : AccessMode)
  | other
  deriving DecidableEq

inductive CreateKind
  | any
  | file
  | folder
  | other
  deriving DecidableEq

inductive RenameMode
  | any
  | to
  | from
  | both
  | other
  deriving DecidableEq

inductive ModifyKind
  | any
  | data
  | metadata
  | name (mode : RenameMode)
  | other
  deriving DecidableEq

inductive RemoveKind
  | any
  | file
  | folder
  | other
  deriving DecidableEq

inductive EventKind
  | any
  | access (kind : AccessKind)
  | create (kind : CreateKind)
  | modify (kind : ModifyKind)
  | remove (kind : RemoveKind)
  | other
  deriving DecidableEq

/-- An event; `rescan` is the flag of an event that says that others may have been lost. -/
structure Event where
  kind : EventKind
  paths : List PathBuf
  rescan : Bool := false
  deriving DecidableEq

/-- What the watcher delivers: an event, or an error with its text. -/
abbrev WatchEvent := Except String Event

def Event.needRescan (event : Event) : Bool := event.rescan

def isMutatingEvent (event : Event) : Bool :=
  match event.kind with
  | .access .read => false
  | .access (.open _) => false
  | .access (.close .read) => false
  | _ => true

def shouldRefreshForEvent : WatchEvent → Bool
  | .ok event => event.needRescan || isMutatingEvent event
  | .error _ => true

/-! ### Ignore rules -/

/-- `status_should_ignore`, a failure counting as not ignored. -/
def Repository.ignores (repo : Repository) (path : PathBuf) : Bool :=
  match repo.statusShouldIgnore path with
  | .ok ignored => ignored
  | .error _ => false

/-- The name of the synthetic child that is tested to find out whether a directory is ignored. -/
def probeName : FileName := FileName.ofString "__gitseer_directory_probe__"

/-- Is the path ignored, or would a child of it be? -/
def pathShouldBeIgnored (repo : Repository) (relative : PathBuf) : Bool :=
  repo.ignores relative || repo.ignores (relative.join (PathBuf.relative [probeName]))

def gitignoreName : FileName := FileName.ofString ".gitignore"

def isIgnoreRulePath (path : PathBuf) : Bool := path.fileName = some gitignoreName

def configuredExcludesFile (discover : Discover) (repoPath : PathBuf) : Option PathBuf :=
  match discover repoPath with
  | .error _ => none
  | .ok repo => do
      let value ← repo.excludesfile
      let path := PathBuf.ofString value
      if path.isAbsolute then some path else repo.workdir.map fun workdir => workdir.join path

/-- Do two paths have the same canonical form, as far as they have one? -/
def samePath (canonicalize : PathBuf → Option PathBuf) (left right : PathBuf) : Bool :=
  (canonicalize left).getD left = (canonicalize right).getD right

def isConfiguredExcludesFile (discover : Discover) (repoPath path : PathBuf) : Bool :=
  match discover repoPath, configuredExcludesFile discover repoPath with
  | .ok repo, some excludesFile => samePath repo.canonicalize excludesFile path
  | _, _ => false

/-! ### Paths of the Git directory -/

/-- The text without the ending, when it has it. -/
def dropSuffix (text ending : String) : Option String :=
  if ending.toList.isSuffixOf text.toList then
    some (String.ofList (text.toList.take (text.toList.length - ending.toList.length)))
  else none

def isOperationPath (path : String) : Bool :=
  path ∈ ["MERGE_HEAD", "REBASE_HEAD", "CHERRY_PICK_HEAD", "REVERT_HEAD", "BISECT_LOG",
    "BISECT_ANCESTORS_OK", "BISECT_EXPECTED_REV", "BISECT_HEAD", "BISECT_NAMES", "BISECT_START",
    "BISECT_TERMS", "MERGE_MODE", "MERGE_MSG", "rebase-merge", "rebase-apply", "sequencer"] ||
  hasPrefix path "sequencer/" || hasPrefix path "rebase-merge/" ||
  hasPrefix path "rebase-apply/" || hasPrefix path "refs/bisect/"

inductive LockTarget
  | known (target : String)
  | unmodeled
  | notLock

def lockTargetForGitPath (path : String) : LockTarget :=
  match dropSuffix path ".lock" with
  | none => .notLock
  | some target =>
      if target ∈ ["HEAD", "ORIG_HEAD", "index", "config", "config.worktree",
          "info/sparse-checkout"] ||
        hasPrefix target "index." || hasPrefix target "refs/" || hasPrefix target "worktrees/" ||
        isOperationPath target
      then .known target
      else .unmodeled

def isCurrentBranchRef (discover : Discover) (repoPath : PathBuf) (refPath : String) : Bool :=
  match dropPrefix refPath "refs/heads/", discover repoPath with
  | some branchName, .ok repo =>
      match repo.head with
      | .ok head => head.shorthand = some branchName
      | .error _ => false
  | _, _ => false

/-- The plan for a control file, given by its path in the Git directory. -/
def refreshPlanForGitText (discover : Discover) (repoPath : PathBuf) (text : String) :
    RefreshPlan :=
  if text = "index" || hasPrefix text "index." || text = "info/exclude" ||
      text = "info/sparse-checkout" || text = "config.worktree" then
    .ofDomains [.paths]
  else if hasPrefix text "objects/" then .none
  else if text = "modules" || hasPrefix text "modules/" then .ofDomains [.paths, .submodules]
  else if hasPrefix text "rr-cache/" then .none
  else if text ∈ ["COMMIT_EDITMSG", "AUTO_MERGE", "MERGE_RR"] then .none
  else if text = "HEAD" || text = "ORIG_HEAD" then
    .ofDomains [.head, .upstream, .branches, .paths]
  else if text = "shallow" then .ofDomains [.identity, .head, .upstream, .branches]
  else if text = "refs/heads" then .ofDomains [.head, .upstream, .branches]
  else if text = "refs/bisect" then .ofDomains [.operation, .head, .upstream, .branches, .paths]
  else if hasPrefix text "refs/heads/" then
    .ofDomains ([.head, .upstream, .branches] ++
      if isCurrentBranchRef discover repoPath text then [.paths] else [])
  else if text = "refs/remotes" || hasPrefix text "refs/remotes/" || text = "FETCH_HEAD" then
    .ofDomains [.upstream, .branches, .remotes]
  else if text = "refs/tags" || hasPrefix text "refs/tags/" then .ofDomains [.tags]
  else if text = "packed-refs" || text = "packed-refs.new" then
    .ofDomains [.head, .upstream, .branches, .tags]
  else if text = "config" then .ofDomains [.remotes, .upstream, .branches, .paths]
  else if text = "logs/refs/stash" || text = "refs/stash" then
    .ofDomains [.head, .upstream, .branches, .paths, .stashes]
  else if hasPrefix text "logs/" then .none
  else if text = "worktrees" || hasPrefix text "worktrees/" || text = "commondir" ||
      text = "gitdir" then
    .ofDomains [.identity, .upstream, .branches, .worktrees]
  else if isOperationPath text then .ofDomains [.operation, .head, .upstream, .branches, .paths]
  else .full

/-- The path below the Git directory, or below the common directory. -/
def gitRelative (gitDir commonDir path : PathBuf) : Option PathBuf :=
  (path.stripPrefix gitDir).or (path.stripPrefix commonDir)

def refreshPlanForGitPath (discover : Discover) (repoPath gitDir commonDir path : PathBuf) :
    RefreshPlan :=
  let text := ((gitRelative gitDir commonDir path).getD path).toStringLossy
  match lockTargetForGitPath text with
  | .known target => refreshPlanForGitText discover repoPath target
  | .unmodeled => .none
  | .notLock => refreshPlanForGitText discover repoPath text

/-! ### Paths of the worktree -/

/-- The texts of the components of a path. -/
def componentTexts (path : PathBuf) : List String :=
  (match path.start with
    | .rootDir => ["/"]
    | .curDir => ["."]
    | .relative => []) ++
  path.names.map fun name => String.ofList (Utf8.lossy name.bytes)

def pathHasComponent (path : PathBuf) (component : String) : Bool :=
  component ∈ componentTexts path

def pathIsInsideSubmodule (discover : Discover) (repoPath relative : PathBuf) : Bool :=
  match discover repoPath with
  | .error _ => false
  | .ok repo =>
      match repo.submodules with
      | .error _ => false
      | .ok submodules => submodules.any fun submodule =>
          relative = submodule.path || relative.startsWith submodule.path

def gitmodulesName : FileName := FileName.ofString ".gitmodules"

/-- The plan for a path of the worktree, given below its root. -/
def refreshPlanForWorktreePath (discover : Discover) (repoPath relative : PathBuf) :
    RefreshPlan :=
  if isIgnoreRulePath relative then .ofDomains [.paths]
  else if relative = PathBuf.relative [gitName] then .ofDomains [.identity, .worktrees]
  else if relative = PathBuf.relative [gitmodulesName] || pathHasComponent relative ".git" then
    .ofDomains [.paths, .submodules]
  else if pathIsInsideSubmodule discover repoPath relative then .ofDomains [.paths, .submodules]
  else match discover repoPath with
    | .ok repo => if pathShouldBeIgnored repo relative then .none else .ofDomains [.paths]
    | .error _ => .ofDomains [.paths]

def refreshPlanForPath (discover : Discover) (repoPath : PathBuf) (worktreeRoot : Option PathBuf)
    (gitDir commonDir path : PathBuf) : RefreshPlan :=
  if path.startsWith gitDir || path.startsWith commonDir then
    refreshPlanForGitPath discover repoPath gitDir commonDir path
  else if isConfiguredExcludesFile discover repoPath path then .ofDomains [.paths]
  else match worktreeRoot with
    | none => .full
    | some worktreeRoot =>
        if !path.startsWith worktreeRoot then .full
        else match path.stripPrefix worktreeRoot with
          | none => .full
          | some relative => refreshPlanForWorktreePath discover repoPath relative

/-! ### Events as a whole -/

def refreshPlanForEvent (discover : Discover) (event : WatchEvent) (repoPath : PathBuf)
    (worktreeRoot : Option PathBuf) (gitDir commonDir : PathBuf) : RefreshPlan :=
  match event with
  | .error _ => .full
  | .ok event =>
      if event.needRescan then .full
      else if !isMutatingEvent event then .none
      else if event.paths.isEmpty then .full
      else event.paths.foldl (fun plan path =>
        plan.combine (refreshPlanForPath discover repoPath worktreeRoot gitDir commonDir path))
        .none

/-- Does the path name a file that holds ignore rules? -/
def pathMayChangeIgnoreRules (discover : Discover) (repoPath : PathBuf)
    (worktreeRoot : Option PathBuf) (gitDir commonDir path : PathBuf) : Bool :=
  if isConfiguredExcludesFile discover repoPath path then true
  else if (gitRelative gitDir commonDir path).any fun relative =>
      relative.toStringLossy ∈ ["info/exclude", "config", "config.worktree"] then true
  else match worktreeRoot.bind path.stripPrefix with
    | some relative => isIgnoreRulePath relative
    | none => false

def eventMayChangeIgnoreRules (discover : Discover) (event : Event) (repoPath : PathBuf)
    (worktreeRoot : Option PathBuf) (gitDir commonDir : PathBuf) : Bool :=
  event.paths.any (pathMayChangeIgnoreRules discover repoPath worktreeRoot gitDir commonDir)

/-! ### The head is never read without the upstream -/

/-- The plan reads the upstream when it reads the head. -/
def RefreshPlan.HeadWithUpstream (plan : RefreshPlan) : Prop :=
  plan.reads .head → plan.reads .upstream

namespace RefreshPlan

theorem headWithUpstream_none : HeadWithUpstream .none := id

theorem headWithUpstream_full : HeadWithUpstream .full := id

/-- A plan for listed domains reads those that are listed. -/
theorem reads_ofDomains {domains : List RefreshDomain} {d : RefreshDomain} :
    (ofDomains domains).reads d ↔ d ∈ domains := by
  unfold ofDomains
  split
  · next h => simp [List.isEmpty_iff.1 h, reads]
  · simp [reads]

theorem HeadWithUpstream.ofDomains {domains : List RefreshDomain}
    (h : .head ∈ domains → .upstream ∈ domains) : (ofDomains domains).HeadWithUpstream :=
  fun hd => reads_ofDomains.2 (h (reads_ofDomains.1 hd))

/-- A cascade of tests is checked branch by branch. -/
theorem HeadWithUpstream.ite {c : Prop} [Decidable c] {p q : RefreshPlan}
    (hp : p.HeadWithUpstream) (hq : q.HeadWithUpstream) :
    (if c then p else q).HeadWithUpstream := by
  split
  · exact hp
  · exact hq

theorem HeadWithUpstream.combine {p q : RefreshPlan} (hp : p.HeadWithUpstream)
    (hq : q.HeadWithUpstream) : (p.combine q).HeadWithUpstream := by
  intro h
  rcases reads_combine.1 h with h | h
  · exact reads_combine.2 (Or.inl (hp h))
  · exact reads_combine.2 (Or.inr (hq h))

end RefreshPlan

section

variable (discover : Discover) (repoPath : PathBuf) (worktreeRoot : Option PathBuf)
  (gitDir commonDir : PathBuf)

open RefreshPlan

/-- Every branch of the control-file cascade that lists the head lists the upstream. -/
theorem refreshPlanForGitText_headWithUpstream (text : String) :
    (refreshPlanForGitText discover repoPath text).HeadWithUpstream := by
  unfold refreshPlanForGitText
  repeat' first
    | exact headWithUpstream_none
    | exact headWithUpstream_full
    | (refine HeadWithUpstream.ofDomains ?_; simp)
    | refine HeadWithUpstream.ite ?_ ?_

theorem refreshPlanForGitPath_headWithUpstream (path : PathBuf) :
    (refreshPlanForGitPath discover repoPath gitDir commonDir path).HeadWithUpstream := by
  unfold refreshPlanForGitPath
  dsimp only
  split
  · exact refreshPlanForGitText_headWithUpstream discover repoPath _
  · exact headWithUpstream_none
  · exact refreshPlanForGitText_headWithUpstream discover repoPath _

theorem refreshPlanForWorktreePath_headWithUpstream (relative : PathBuf) :
    (refreshPlanForWorktreePath discover repoPath relative).HeadWithUpstream := by
  unfold refreshPlanForWorktreePath
  have hpaths : (RefreshPlan.ofDomains [.paths]).HeadWithUpstream :=
    HeadWithUpstream.ofDomains (by simp)
  have hsubmodules : (RefreshPlan.ofDomains [.paths, .submodules]).HeadWithUpstream :=
    HeadWithUpstream.ofDomains (by simp)
  refine hpaths.ite ?_
  refine (HeadWithUpstream.ofDomains (by simp)).ite ?_
  refine hsubmodules.ite (hsubmodules.ite ?_)
  cases discover repoPath with
  | error e => exact hpaths
  | ok repo => exact headWithUpstream_none.ite hpaths

theorem refreshPlanForPath_headWithUpstream (path : PathBuf) :
    (refreshPlanForPath discover repoPath worktreeRoot gitDir commonDir path).HeadWithUpstream := by
  unfold refreshPlanForPath
  refine (refreshPlanForGitPath_headWithUpstream discover repoPath gitDir commonDir path).ite ?_
  refine (HeadWithUpstream.ofDomains (by simp)).ite ?_
  cases worktreeRoot with
  | none => exact headWithUpstream_full
  | some root =>
      refine headWithUpstream_full.ite ?_
      cases path.stripPrefix root with
      | none => exact headWithUpstream_full
      | some relative =>
          exact refreshPlanForWorktreePath_headWithUpstream discover repoPath relative

/-- Every plan of the classifier reads the upstream when it reads the head. -/
theorem refreshPlanForEvent_headWithUpstream (event : WatchEvent) :
    (refreshPlanForEvent discover event repoPath worktreeRoot gitDir
      commonDir).HeadWithUpstream := by
  unfold refreshPlanForEvent
  split
  · exact headWithUpstream_full
  · split
    · exact headWithUpstream_full
    · split
      · exact headWithUpstream_none
      · split
        · exact headWithUpstream_full
        · exact Join.foldl_sup_of_closed (fun _ _ => HeadWithUpstream.combine)
            (refreshPlanForPath_headWithUpstream discover repoPath worktreeRoot gitDir commonDir)
            headWithUpstream_none

end

/-! ### Combinations of plans of the classifier -/

/-- The plans that arise from events, at any moments and for any repository, by combination. -/
inductive ClassifierPlan : RefreshPlan → Prop
  | none : ClassifierPlan .none
  | full : ClassifierPlan .full
  | event (discover : Discover) (event : WatchEvent) (repoPath : PathBuf)
      (worktreeRoot : Option PathBuf) (gitDir commonDir : PathBuf) :
      ClassifierPlan
        (refreshPlanForEvent discover event repoPath worktreeRoot gitDir commonDir)
  | combine {p q : RefreshPlan} : ClassifierPlan p → ClassifierPlan q →
      ClassifierPlan (p.combine q)

theorem ClassifierPlan.headWithUpstream {plan : RefreshPlan} (h : ClassifierPlan plan) :
    plan.HeadWithUpstream := by
  induction h with
  | none => exact RefreshPlan.headWithUpstream_none
  | full => exact RefreshPlan.headWithUpstream_full
  | event discover event repoPath worktreeRoot gitDir commonDir =>
      exact refreshPlanForEvent_headWithUpstream discover repoPath worktreeRoot gitDir commonDir
        event
  | combine _ _ ihp ihq => exact ihp.combine ihq

end Gitseer
