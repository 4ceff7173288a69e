/-
**What `libgit2` answers about one repository.**

The section readers of the worker are functions of an open repository.  An open repository is
modelled by its answers: one field for every call the readers make.  A call that can fail answers
in `Except GitError`, with the error codes the readers look at kept apart; text that `libgit2`
returns as bytes is optional where the source drops what is not UTF-8.  The answers are those of
one moment, and a change of the repository is a change of this record.

Main definitions:

* `GitError`, `SnapshotError` — the errors, with the texts the source gives them;
* `Oid`, `Oid.fromStr` — object ids and reading one;
* `Repository` — the record of answers;
* `Repository.findBranch` — looking up a local branch, which fails with `notFound` when the
  repository has no branch of that name.
-/

import Gitseer.Lib.Result
import Gitseer.Repository.Model

set_option relaxedAutoImplicit false
set_option autoImplicit false

open StdPath (PathBuf FileName)

namespace Gitseer

/-! ### Errors -/

/-- The error codes of `libgit2` that the source tells apart. -/
inductive ErrorCode
  | notFound
  | unbornBranch
  | other (code : ℤ)
  deriving DecidableEq

structure GitError where
  code : ErrorCode
  message : String
  deriving DecidableEq

inductive SnapshotError
  | notRepository (path : PathBuf)
  | git (error : GitError)
  deriving DecidableEq

/-- The text of an error. -/
def SnapshotError.toString : SnapshotError → String
  | notRepository path => "path is not inside a Git repository: " ++ path.toStringLossy
  | git error => "Git error while reading repository state: " ++ error.message

/-- A failed call of `libgit2` as a failed read, which is what `?` does. -/
def liftGit {α : Type} : Except GitError α → Except SnapshotError α
  | .ok a => .ok a
  | .error e => .error (.git e)

@[simp] theorem liftGit_ok {α : Type} (a : α) : liftGit (.ok a) = .ok a := rfl

@[simp] theorem liftGit_error {α : Type} (e : GitError) :
    liftGit (.error e : Except GitError α) = .error (.git e) := rfl

theorem liftGit_eq_ok {α : Type} {x : Except GitError α} {a : α} :
    liftGit x = .ok a ↔ x = .ok a := by
  cases x <;> simp

/-! ### Objects and references -/

/-- An object id, by its forty hexadecimal digits. -/
structure Oid where
  hex : String
  deriving DecidableEq

/-- Is the character a hexadecimal digit? -/
def isHexDigit (c : Char) : Bool :=
  ('0' ≤ c && c ≤ '9') || ('a' ≤ c && c ≤ 'f') || ('A' ≤ c && c ≤ 'F')

/-- `Oid::from_str`: a short text is filled up with zeros. -/
def Oid.fromStr (s : String) : Option Oid :=
  if s.toList ≠ [] ∧ s.toList.length ≤ 40 ∧ s.toList.all isHexDigit = true then
    some ⟨String.ofList ((s.toList.map Char.toLower) ++ List.replicate (40 - s.toList.length) '0')⟩
  else none

structure Commit where
  id : Oid
  parentIds : List Oid
  summary : Option String
  authorName : Option String
  authorEmail : Option String
  timeSeconds : ℤ
  deriving DecidableEq

/-- A reference: `target` is the object it names directly, `tree` what `peel_to_tree` finds. -/
structure Reference where
  name : Option String
  shorthand : Option String
  isBranch : Bool
  target : Option Oid
  symbolicTarget : Option String
  tree : Option Oid
  deriving DecidableEq

inductive BranchType
  | local
  | remote
  deriving DecidableEq

/-- The upstream branch of a branch. -/
structure UpstreamBranch where
  name : Except GitError (Option String)
  target : Option Oid

structure Branch where
  name : Except GitError (Option String)
  isHead : Bool
  target : Option Oid
  upstream : Except GitError UpstreamBranch

inductive ObjectType
  | any
  | commit
  | tree
  | blob
  | tag
  deriving DecidableEq

structure Signature where
  name : Option String
  email : Option String
  seconds : ℤ
  deriving DecidableEq

structure Tag where
  id : Oid
  targetId : Oid
  targetType : Option ObjectType
  tagger : Option Signature
  message : Option String
  deriving DecidableEq

/-- An object, with the tag it is when it is one. -/
structure Object where
  id : Oid
  kind : Option ObjectType
  asTag : Option Tag
  deriving DecidableEq

structure Remote where
  url : Option String
  pushurl : Option String
  fetchRefspecs : Except GitError (List (Option String))
  pushRefspecs : Except GitError (List (Option String))

/-! ### Status, index and diffs -/

/-- The status bits of a path. -/
structure Status where
  indexNew : Bool := false
  indexModified : Bool := false
  indexDeleted : Bool := false
  indexRenamed : Bool := false
  indexTypechange : Bool := false
  wtNew : Bool := false
  wtModified : Bool := false
  wtDeleted : Bool := false
  wtTypechange : Bool := false
  wtRenamed : Bool := false
  wtUnreadable : Bool := false
  ignored : Bool := false
  conflicted : Bool := false
  deriving DecidableEq

/-- The two sides of a changed file. -/
structure DiffDelta where
  oldFile : Option PathBuf
  newFile : Option PathBuf
  deriving DecidableEq

/-- A status record; its path is absent when it is not UTF-8. -/
structure StatusEntry where
  status : Status
  path : Option String
  headToIndex : Option DiffDelta
  indexToWorkdir : Option DiffDelta
  deriving DecidableEq

structure IndexEntry where
  path : List UInt8
  id : Oid
  mode : ℕ
  flags : ℕ
  flagsExtended : ℕ
  deriving DecidableEq

structure IndexConflict where
  ancestor : Option IndexEntry
  our : Option IndexEntry
  their : Option IndexEntry
  deriving DecidableEq

structure Index where
  entries : List IndexEntry
  conflicts : Except GitError (List (Except GitError IndexConflict))

inductive DiffLineType
  | context
  | addition
  | deletion
  | other
  deriving DecidableEq

/-- What the line callback of a diff gets. -/
structure DiffLine where
  delta : DiffDelta
  origin : DiffLineType
  numLines : ℕ
  deriving DecidableEq

/-! ### Operations, worktrees and submodules -/

inductive RepositoryState
  | clean
  | merge
  | revert
  | revertSequence
  | cherryPick
  | cherryPickSequence
  | bisect
  | rebase
  | rebaseInteractive
  | rebaseMerge
  | applyMailbox
  | applyMailboxOrRebase
  deriving DecidableEq

inductive WorktreeLockStatus
  | unlocked
  | locked (reason : Option String)
  deriving DecidableEq

structure Worktree where
  path : PathBuf
  isLocked : Except GitError WorktreeLockStatus

structure Submodule where
  name : Option String
  path : PathBuf
  url : Option String
  branch : Option String
  headId : Option Oid
  indexId : Option Oid
  workdirId : Option Oid
  deriving DecidableEq

/-- The status bits of a submodule. -/
structure SubmoduleStatus where
  isInHead : Bool := false
  isInIndex : Bool := false
  isInConfig : Bool := false
  isInWd : Bool := false
  isIndexAdded : Bool := false
  isIndexDeleted : Bool := false
  isIndexModified : Bool := false
  isWdUninitialized : Bool := false
  isWdAdded : Bool := false
  isWdDeleted : Bool := false
  isWdModified : Bool := false
  isWdWdModified : Bool := false
  isWdUntracked : Bool := false
  deriving DecidableEq

/-! ### The repository -/

/-- The name of the Git directory in a worktree, or of the file that says where it is. -/
def gitName : FileName := FileName.ofString ".git"

/-- An open repository, by its answers.  The defaults are those of a repository without commits,
references, remotes, worktrees, submodules or files. -/
structure Repository where
  workdir : Option PathBuf
  path : PathBuf
  commondir : PathBuf
  gitNamespace : Option String := none
  isBare : Bool := false
  isShallow : Bool := false
  head : Except GitError Reference := .error ⟨.unbornBranch, "unborn branch"⟩
  references : Except GitError (List (Except GitError Reference)) := .ok []
  findReference : String → Except GitError Reference :=
    fun _ => .error ⟨.notFound, "reference not found"⟩
  findCommit : Oid → Except GitError Commit := fun _ => .error ⟨.notFound, "object not found"⟩
  branches : Except GitError (List (Except GitError (Branch × BranchType))) := .ok []
  graphAheadBehind : Oid → Oid → Except GitError (ℕ × ℕ) := fun _ _ => .ok (0, 0)
  /-- The status records, with or without those of ignored files. -/
  statuses : Bool → Except GitError (List StatusEntry) := fun _ => .ok []
  index : Except GitError Index := .ok ⟨[], .ok []⟩
  /-- The lines of the diff from a tree to the index. -/
  diffTreeToIndex : Option Oid → Except GitError (List DiffLine) := fun _ => .ok []
  diffIndexToWorkdir : Except GitError (List DiffLine) := .ok []
  state : RepositoryState := .clean
  message : Option String := none
  /-- The text of a file of the Git directory. -/
  readFile : String → Option String := fun _ => none
  remotes : Except GitError (List (Option String)) := .ok []
  findRemote : String → Except GitError Remote := fun _ => .error ⟨.notFound, "no such remote"⟩
  tagNames : Except GitError (List (Option String)) := .ok []
  revparseSingle : String → Except GitError Object :=
    fun _ => .error ⟨.notFound, "revspec not found"⟩
  stashForeach : Except GitError (List (ℕ × String × Oid)) := .ok []
  worktrees : Except GitError (List (Option String)) := .ok []
  findWorktree : String → Except GitError Worktree :=
    fun _ => .error ⟨.notFound, "no such worktree"⟩
  submodules : Except GitError (List Submodule) := .ok []
  submoduleStatus : String → Except GitError SubmoduleStatus := fun _ => .ok {}
  statusShouldIgnore : PathBuf → Except GitError Bool := fun _ => .ok false
  /-- The value of `core.excludesfile`. -/
  excludesfile : Option String := none
  /-- The canonical form of a path, when the file system can give it. -/
  canonicalize : PathBuf → Option PathBuf := some

/-- Is the item of the branch iterator the local branch of the given name? -/
def isLocalBranch (name : String) : Except GitError (Branch × BranchType) → Bool
  | .ok (branch, .local) =>
      match branch.name with
      | .ok (some n) => n = name
      | _ => false
  | _ => false

/-- `find_branch` for local branches: the branch the iterator delivers under that name. -/
def Repository.findBranch (repo : Repository) (name : String) : Except GitError Branch :=
  match repo.branches with
  | .error e => .error e
  | .ok items =>
      match items.find? (isLocalBranch name) with
      | some (.ok (branch, _)) => .ok branch
      | _ => .error ⟨.notFound, "cannot locate local branch"⟩

/-- Does the repository have a local branch of that name? -/
def Repository.hasLocalBranch (repo : Repository) (name : String) : Prop :=
  ∃ items, repo.branches = .ok items ∧ ∃ item ∈ items, isLocalBranch name item = true

end Gitseer
