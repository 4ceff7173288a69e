/-
**A bisect session as Git records it.**

Git keeps a bisect session in the references below `refs/bisect`, whose names contain the two terms
of the session, and in the file `BISECT_START`, which holds where the session was started: the id
of a commit, or the short name of a branch.  The reader knows the references of the default terms
only, and takes the short name for an object id or for the full name of a reference.

Main definitions:

* `targetsOf`, `IsSortedOf` — the objects the references of some names point to, and sorted lists;
* `BisectReports`, `SameSession` — what should be reported of a session with given terms, and the
  references of its terms naming what those of the default terms name;
* `BisectStart`, `BisectStart.RecordedIn` — where a session starts, and its record;
* `BisectStart.Resolvable` — the starts that can be read back.

Main results:

* `bisectState_reports_iff` — which sessions are reported as they are;
* `bisect_start_resolved_iff` — which starting commits are found.
-/

import Gitseer.Repository.Snapshot
import Mathlib.Data.List.TakeWhile

set_option relaxedAutoImplicit false
set_option autoImplicit false

open StdPath (bytesOf bytesOf_append fromUTF8?_concat_newline fromUTF8?_eq_some_iff)

namespace Gitseer

/-! ### The references of a session -/

/-- The ids of the objects that references with a name of the given kind point to. -/
def targetsOf (references : List (Except GitError Reference)) (named : String → Prop)
    [DecidablePred named] : List String :=
  references.filterMap fun item =>
    match item with
    | .ok ⟨some name, _, _, some oid, _, _⟩ => if named name then some oid.hex else none
    | _ => none

/-- The list has the given elements, in order. -/
def IsSortedOf (l elements : List String) : Prop := l.Pairwise (· ≤ ·) ∧ l.Perm elements

/-- The state has the objects of the session with the given terms, and no others. -/
structure BisectReports (state : BisectState) (references : List (Except GitError Reference))
    (tbad tgood : String) : Prop where
  bad : IsSortedOf state.badOids (targetsOf references fun name => name = "refs/bisect/" ++ tbad)
  good : IsSortedOf state.goodOids
    (targetsOf references fun name => hasPrefix name ("refs/bisect/" ++ tgood ++ "-"))
  skipped : IsSortedOf state.skippedOids
    (targetsOf references fun name => hasPrefix name "refs/bisect/skip-")

/-- The references of the terms name the objects that those of the default terms name. -/
structure SameSession (references : List (Except GitError Reference)) (tbad tgood : String) :
    Prop where
  bad : (targetsOf references fun name => name = "refs/bisect/bad").Perm
    (targetsOf references fun name => name = "refs/bisect/" ++ tbad)
  good : (targetsOf references fun name => hasPrefix name "refs/bisect/good-").Perm
    (targetsOf references fun name => hasPrefix name ("refs/bisect/" ++ tgood ++ "-"))

theorem isSortedOf_insertionSort_iff {l elements : List String} :
    IsSortedOf (l.insertionSort (· ≤ ·)) elements ↔ l.Perm elements := by
  constructor
  · rintro ⟨-, hperm⟩
    exact (List.perm_insertionSort _ _).symm.trans hperm
  · intro hperm
    exact ⟨List.pairwise_insertionSort _ _, (List.perm_insertionSort _ _).trans hperm⟩

theorem bisectOids_eq (references : List (Except GitError Reference)) (test : String → Bool) :
    bisectOids references test =
      (targetsOf references fun name => test name).insertionSort (· ≤ ·) := by
  unfold bisectOids targetsOf
  congr 2
  funext item
  match item with
  | .error _ => rfl
  | .ok ⟨none, _, _, _, _, _⟩ => rfl
  | .ok ⟨some _, _, _, none, _, _⟩ => rfl
  | .ok ⟨some _, _, _, some _, _, _⟩ => rfl

section

variable {repo : Repository} {references : List (Except GitError Reference)} {tbad tgood : String}

theorem bisectReports_iff_sameSession :
    BisectReports (bisectState { repo with references := .ok references }) references tbad tgood ↔
      SameSession references tbad tgood := by
  constructor
  · rintro ⟨hbad, hgood, -⟩
    simp only [bisectState, bisectOids_eq, isSortedOf_insertionSort_iff, decide_eq_true_eq]
      at hbad hgood
    exact ⟨hbad, hgood⟩
  · rintro ⟨hbad, hgood⟩
    constructor <;>
      simp only [bisectState, bisectOids_eq, isSortedOf_insertionSort_iff, decide_eq_true_eq]
    · exact hbad
    · exact hgood
    · exact List.Perm.refl _

/-- A store of one reference. -/
def oneReference (name : String) : List (Except GitError Reference) :=
  [.ok ⟨some name, none, false, some tipCommit.id, none, none⟩]

theorem targetsOf_oneReference_perm {name : String} {p q : String → Prop} [DecidablePred p]
    [DecidablePred q]
    (h : (targetsOf (oneReference name) p).Perm (targetsOf (oneReference name) q)) :
    p name ↔ q name := by
  by_cases hp : p name <;> by_cases hq : q name
  · exact iff_of_true hp hq
  · simp [targetsOf, oneReference, hp, hq] at h
  · simp [targetsOf, oneReference, hp, hq] at h
  · exact iff_of_false hp hq

/-- Terms that no store of references tells from the default ones are the default ones. -/
theorem terms_eq_of_sameSession (h : ∀ references, SameSession references tbad tgood) :
    tbad = "bad" ∧ tgood = "good" := by
  constructor
  · have hname := (targetsOf_oneReference_perm (h (oneReference "refs/bisect/bad")).bad).1 rfl
    have hlist : "refs/bisect/".toList ++ "bad".toList = "refs/bisect/".toList ++ tbad.toList :=
      calc
        _ = "refs/bisect/bad".toList := rfl
        _ = ("refs/bisect/" ++ tbad).toList := congrArg String.toList hname
        _ = _ := String.toList_append
    exact (String.toList_inj.1 (List.append_cancel_left hlist)).symm
  · -- Each of the two names begins with the other, so they are the same.
    have hleft := (targetsOf_oneReference_perm (h (oneReference "refs/bisect/good-")).good).1
      (hasPrefix_iff.2 (List.prefix_refl _))
    have hright := (targetsOf_oneReference_perm
      (h (oneReference ("refs/bisect/" ++ tgood ++ "-"))).good).2
      (hasPrefix_iff.2 (List.prefix_refl _))
    have hname := List.IsPrefix.eq_of_length_le (hasPrefix_iff.1 hleft)
      (hasPrefix_iff.1 hright).length_le
    have hlist : "refs/bisect/".toList ++ (tgood.toList ++ "-".toList) =
        "refs/bisect/".toList ++ ("good".toList ++ "-".toList) := by
      rw [← List.append_assoc, ← String.toList_append, ← String.toList_append, hname]
      rfl
    exact String.toList_inj.1 (List.append_cancel_right (List.append_cancel_left hlist))

/-- A session is reported as it is exactly when the references of its terms name what those of the
default terms name; that is so for every store of references exactly at the default terms. -/
theorem bisectState_reports_iff (repo : Repository) (tbad tgood : String) :
    (∀ references,
      BisectReports (bisectState { repo with references := .ok references }) references tbad tgood ↔
        SameSession references tbad tgood) ∧
    ((∀ references,
      BisectReports (bisectState { repo with references := .ok references }) references
        tbad tgood) ↔
        tbad = "bad" ∧ tgood = "good") := by
  refine ⟨fun references => bisectReports_iff_sameSession, ?_, ?_⟩
  · intro h
    exact terms_eq_of_sameSession fun references => bisectReports_iff_sameSession.1 (h references)
  · rintro ⟨rfl, rfl⟩ references
    exact bisectReports_iff_sameSession.2 ⟨List.Perm.refl _, List.Perm.refl _⟩

end

/-! ### Where a session starts -/

/-- The id is written with forty digits. -/
def Oid.IsFull (oid : Oid) : Prop :=
  oid.hex.toList.length = 40 ∧ ∀ c ∈ oid.hex.toList, isHexDigit c = true

/-- Where a session is started: at a commit, or at the tip of a branch, whose name is given by its
bytes. -/
inductive BisectStart
  | detached (commit : Oid)
  | branch (name : List UInt8) (tip : Oid)

/-- The starting commit. -/
def BisectStart.commit : BisectStart → Oid
  | detached commit => commit
  | branch _ tip => tip

/-- The line Git writes to `BISECT_START`. -/
def BisectStart.line : BisectStart → List UInt8
  | detached commit => bytesOf commit.hex ++ [10]
  | branch name _ => name ++ [10]

/-- The start is on record: the file holds its line, and its branch exists. -/
structure BisectStart.RecordedIn (start : BisectStart) (repo : Repository) : Prop where
  file : repo.readFile "BISECT_START" = String.fromUTF8? ⟨start.line.toArray⟩
  commit : start.commit.IsFull
  branch : ∀ name tip text, start = .branch name tip → bytesOf text = name →
    ∃ reference, repo.findReference ("refs/heads/" ++ text) = .ok reference ∧
      reference.target = some tip

/-- The start is a commit; or the name of its branch is UTF-8, and the first word of the name is the
id of the tip, or no id at all and the full name of a reference to the tip. -/
def BisectStart.Resolvable (repo : Repository) : BisectStart → Prop
  | detached _ => True
  | branch name tip => ∃ text word, bytesOf text = name ∧ firstWord text.toList = some word ∧
      if (Oid.fromStr word).isSome then word = tip.hex
      else ∃ reference, repo.findReference word = .ok reference ∧ reference.target = some tip

theorem Oid.hex_injective : Function.Injective Oid.hex := by
  rintro ⟨a⟩ ⟨b⟩ rfl
  rfl

/-- A line feed after a text does not change its first word. -/
theorem firstWord_concat_newline (l : List Char) : firstWord (l ++ ['\n']) = firstWord l := by
  have hword : ∀ m : List Char, ((m ++ ['\n']).takeWhile fun c => !isWhitespace c) =
      m.takeWhile fun c => !isWhitespace c := by
    intro m
    induction m with
    | nil => rfl
    | cons c m ih => simp only [List.cons_append, List.takeWhile_cons, ih]
  unfold firstWord
  congr 1
  induction l with
  | nil => rfl
  | cons c l ih =>
      rw [List.cons_append, List.dropWhile_cons, List.dropWhile_cons]
      split
      · exact ih
      · rw [← List.cons_append]
        exact hword (c :: l)

/-- A text without whitespace is its own first word. -/
theorem firstWord_of_forall {l : List Char} (hl : l ≠ []) (h : ∀ c ∈ l, isWhitespace c = false) :
    firstWord l = some (String.ofList l) := by
  have hword : (l.takeWhile fun c => !isWhitespace c) = l :=
    List.takeWhile_eq_self_iff.2 fun c hc => by simp [h c hc]
  obtain ⟨c, l, rfl⟩ := List.exists_cons_of_ne_nil hl
  have hc : isWhitespace c = false := h c List.mem_cons_self
  simp only [firstWord, List.dropWhile_cons, hc, Bool.false_eq_true, if_false, hword]

theorem isWhitespace_of_isHexDigit {c : Char} (h : isHexDigit c = true) :
    isWhitespace c = false := by
  simp only [isHexDigit, Bool.or_eq_true, Bool.and_eq_true, decide_eq_true_eq, Char.le_def,
    UInt32.le_iff_toNat_le] at h
  have hspace : c ≠ ' ' := by
    rintro rfl
    revert h
    decide
  simp only [isWhitespace, hspace, Bool.or_eq_false_iff, Bool.and_eq_false_iff,
    decide_eq_false_iff_not, Char.toNat]
  simp at h ⊢
  omega

/-- A full id is the first word of its line, and is taken for an id. -/
theorem Oid.IsFull.firstWord_line {oid : Oid} (h : oid.IsFull) :
    firstWord (oid.hex ++ "\n").toList = some oid.hex ∧ (Oid.fromStr oid.hex).isSome = true := by
  obtain ⟨hlength, hdigits⟩ := h
  have hne : oid.hex.toList ≠ [] := by
    intro hnil
    rw [hnil] at hlength
    cases hlength
  constructor
  · rw [String.toList_append]
    refine (firstWord_concat_newline _).trans ?_
    rw [firstWord_of_forall hne fun c hc => isWhitespace_of_isHexDigit (hdigits c hc),
      String.ofList_toList]
  · unfold Oid.fromStr
    rw [if_pos ⟨hne, hlength.le, List.all_eq_true.2 hdigits⟩]
    rfl

section

variable {repo : Repository}

theorem readOperationOidFile_eq_some_iff {path : String} {commit : Oid} :
    readOperationOidFile repo path = some commit.hex ↔
      ∃ text word, repo.readFile path = some text ∧ firstWord text.toList = some word ∧
        if (Oid.fromStr word).isSome then word = commit.hex
        else ∃ reference, repo.findReference word = .ok reference ∧
          reference.target = some commit := by
  unfold readOperationOidFile
  cases repo.readFile path with
  | none => simp
  | some text =>
      cases hword : firstWord text.toList with
      | none => simp [hword]
      | some word =>
          by_cases hoid : (Oid.fromStr word).isSome
          · simp [hword, hoid]
          · cases hfind : repo.findReference word with
            | error e => simp [hword, hoid, hfind]
            | ok reference =>
                have htarget : (∃ oid, reference.target = some oid ∧ oid.hex = commit.hex) ↔
                    reference.target = some commit := by
                  rw [← Option.map_eq_some_iff]
                  exact (Option.map_injective Oid.hex_injective).eq_iff' rfl
                simp [hword, hoid, hfind, htarget]

/-- The starting commit is found exactly when the start can be resolved. -/
theorem bisect_start_resolved_iff (start : BisectStart) (hstart : start.RecordedIn repo) :
    readOperationOidFile repo "BISECT_START" = some start.commit.hex ↔ start.Resolvable repo := by
  rw [readOperationOidFile_eq_some_iff, hstart.file]
  cases start with
  | detached commit =>
      obtain ⟨hword, hoid⟩ := hstart.commit.firstWord_line
      refine iff_of_true ⟨_, _, fromUTF8?_eq_some_iff.2 (bytesOf_append _ _), hword, ?_⟩ trivial
      rw [if_pos hoid]
  | branch name tip =>
      -- The line is UTF-8 when the name is, and has the first word of the name.
      simp only [BisectStart.line, fromUTF8?_concat_newline, Option.map_eq_some_iff,
        fromUTF8?_eq_some_iff]
      constructor
      · rintro ⟨_, word, ⟨text, htext, rfl⟩, hword, hoid⟩
        rw [String.toList_append] at hword
        exact ⟨text, word, htext, (firstWord_concat_newline _).symm.trans hword, hoid⟩
      · rintro ⟨text, word, htext, hword, hoid⟩
        refine ⟨_, word, ⟨text, htext, rfl⟩, ?_, hoid⟩
        rw [String.toList_append]
        exact (firstWord_concat_newline _).trans hword

end

/-! ### Sessions that are misread -/

/-- The references of a session with the terms `new` and `old`. -/
def renamedReferences : List (Except GitError Reference) := [
  .ok ⟨some "refs/bisect/new", none, false, some tipCommit.id, none, none⟩,
  .ok ⟨some "refs/bisect/old-0d1f3a52c1c7f3f1f7d3f0b7a4c8a6a2e9b5c4d3", none, false,
    some ⟨"0d1f3a52c1c7f3f1f7d3f0b7a4c8a6a2e9b5c4d3"⟩, none, none⟩]

/-- Nothing of that session is reported. -/
theorem renamed_terms_unreported :
    bisectState { plainRepository with references := .ok renamedReferences } = ⟨none, [], [], []⟩ ∧
      ¬ BisectReports (bisectState { plainRepository with references := .ok renamedReferences })
        renamedReferences "new" "old" := by
  refine ⟨by decide, fun h => ?_⟩
  have hlength := h.bad.2.length_eq
  revert hlength
  decide

/-- A repository with three branches at the only commit, where a bisect session is in progress. -/
def bisectRepository (line : String) : Repository :=
  { branchRepository "main" with
    state := .bisect
    readFile := fun path => if path = "BISECT_START" then some line else none
    findReference := fun name =>
      if name = "refs/heads/main" ∨ name = "refs/heads/cafe" ∨
          name = "refs/heads/refs/heads/main" then
        .ok ⟨some name, none, true, some tipCommit.id, none, none⟩
      else .error ⟨.notFound, "reference not found"⟩ }

theorem tipCommit_isFull : tipCommit.id.IsFull := by
  have hdigits : tipCommit.id.hex.toList.all isHexDigit = true := by decide
  exact ⟨by decide, List.all_eq_true.1 hdigits⟩

theorem recordedIn_bisectRepository {name : String}
    (hname : name = "main" ∨ name = "cafe" ∨ name = "refs/heads/main") :
    (BisectStart.branch (bytesOf name) tipCommit.id).RecordedIn
      (bisectRepository (name ++ "\n")) := by
  constructor
  · exact (fromUTF8?_eq_some_iff.2 (bytesOf_append _ _)).symm
  · exact tipCommit_isFull
  · rintro _ _ text h htext
    obtain ⟨rfl, rfl⟩ := BisectStart.branch.inj h
    have htext := (fromUTF8?_eq_some_iff.2 htext).symm.trans (fromUTF8?_eq_some_iff.2 rfl)
    obtain rfl := Option.some.inj htext
    rcases hname with rfl | rfl | rfl
    · exact ⟨_, rfl, rfl⟩
    · exact ⟨_, rfl, rfl⟩
    · exact ⟨_, rfl, rfl⟩

/-- A session started at a commit, and one started from a branch whose name is by itself that of
another branch at the same commit. -/
theorem bisect_start_resolved_iff_starts :
    readOperationOidFile (bisectRepository (tipCommit.id.hex ++ "\n")) "BISECT_START" =
      some tipCommit.id.hex ∧
    readOperationOidFile (bisectRepository "refs/heads/main\n") "BISECT_START" =
      some tipCommit.id.hex := by
  constructor
  · exact (bisect_start_resolved_iff (.detached tipCommit.id)
      ⟨(fromUTF8?_eq_some_iff.2 (bytesOf_append _ _)).symm, tipCommit_isFull,
        fun _ _ _ h => by cases h⟩).2 trivial
  · refine (bisect_start_resolved_iff (.branch (bytesOf "refs/heads/main") tipCommit.id)
      (recordedIn_bisectRepository (.inr (.inr rfl)))).2 ?_
    have hword : (Oid.fromStr "refs/heads/main").isSome = false := by decide
    refine ⟨"refs/heads/main", "refs/heads/main", rfl, by decide, ?_⟩
    rw [hword]
    exact ⟨_, rfl, rfl⟩

/-- A session started from the branch `main` has no start, and one started from the branch `cafe`
has a start that is no object of the repository. -/
theorem branch_start_unresolved :
    (BisectStart.branch (bytesOf "main") tipCommit.id).RecordedIn (bisectRepository "main\n") ∧
      readOperationOidFile (bisectRepository "main\n") "BISECT_START" = none ∧
      (BisectStart.branch (bytesOf "cafe") tipCommit.id).RecordedIn (bisectRepository "cafe\n") ∧
      readOperationOidFile (bisectRepository "cafe\n") "BISECT_START" = some "cafe" :=
  ⟨recordedIn_bisectRepository (.inl rfl), by decide, recordedIn_bisectRepository (.inr (.inl rfl)),
    by decide⟩

end Gitseer
