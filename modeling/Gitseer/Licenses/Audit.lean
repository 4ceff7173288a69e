/-
**The audit of the locked packages.**

The license check goes through the packages that `cargo metadata` lists, and notes for each one that
is not approved why: it has no license expression, the expression raised an error, or it has no
approved path.  The audit passes when nothing was noted; otherwise the notes are printed in order.

So the audit does not depend on the order in which the packages are listed, and where the
expressions of all packages are written with whole names it passes exactly when every expression has
the value `true`.

Main definitions:

* `Package`, `Exit` — what the audit is given, and what it leaves;
* `ValueError.text`, `failure`, `main` — the note on a package, and the audit;
* `Package.Approved`, `Package.States` — the verdict is favourable, and what the license says.

Main results:

* `failure_eq_none_iff` — when there is no note on a package;
* `main_perm` — the order of the packages does not matter;
* `audit_exact` — when the audit passes, and what it prints otherwise.
-/

import Gitseer.Lib.Json
import Gitseer.Licenses.Verdict
import Mathlib.Data.List.Sort

set_option relaxedAutoImplicit false
set_option autoImplicit false

namespace Gitseer.Licenses

/-! ### The audit -/

/-- A package of the lock file.  Its license is `null` where `cargo metadata` has none. -/
structure Package where
  name : String
  version : String
  license : Json.Value

/-- The exit code and the printed lines. -/
structure Exit where
  code : ℕ
  stdout : List String
  stderr : List String
  deriving DecidableEq

section

variable (repr : String → String)

/-- `str(error)`, for a `repr` of strings. -/
def ValueError.text : ValueError → String
  | unsupportedSyntax near => "unsupported SPDX syntax near " ++ repr near
  | emptyExpression => "empty SPDX expression"
  | unexpectedToken token => "unexpected SPDX token " ++ repr token
  | expectedLicenseId found => "expected license id, found " ++ repr found
  | expected token found => "expected " ++ repr token ++ ", found " ++ repr found
  | unexpectedEnd => "unexpected end of SPDX expression"

/-- The note on a package: none when it is approved. -/
def failure (package : Package) : Option String :=
  let front := package.name ++ " " ++ package.version ++ ": "
  match package.license with
  | .string expression =>
      if expression.toList.all isSpace then some (front ++ "missing SPDX license expression")
      else
        match compatible expression with
        | .error e => some (front ++ repr expression ++ ": " ++ e.text repr)
        | .ok true => none
        | .ok false => some (front ++ "no approved path in " ++ repr expression)
  | _ => some (front ++ "missing SPDX license expression")

/-- The audit of the packages that `cargo metadata` lists. -/
def main (packages : List Package) : Exit :=
  let failures := packages.filterMap (failure repr)
  if failures ≠ [] then
    { code := 1
      stdout := []
      stderr := "dependency license audit failed:" ::
        (List.insertionSort (· ≤ ·) failures).map fun failure => "  - " ++ failure }
  else
    { code := 0
      stdout := ["dependency license audit passed for " ++ toString packages.length ++
        " locked packages"]
      stderr := [] }

end

/-! ### Approved packages -/

/-- The verdict on the license of the package is favourable. -/
def Package.Approved (package : Package) : Prop :=
  ∃ expression, package.license = .string expression ∧ compatible expression = .ok true

/-- The license of the package is a text of the expression, whose names are read whole. -/
def Package.States (package : Package) (x : Expression) : Prop :=
  ∃ expression, package.license = .string expression ∧ x.SpelledBy expression ∧ x.IdsWhole ∧
    x.ExceptionsWhole

section

variable {repr : String → String} {package : Package} {packages packages' : List Package}
  {x : Expression} {line : String}

theorem tokens_of_blank {text : List Char} (h : text.all isSpace = true) :
    tokens text = some [] := by
  induction text with
  | nil => exact tokens_nil
  | cons c rest ih =>
      rw [List.all_cons, Bool.and_eq_true] at h
      rw [tokens_space h.1]
      exact ih h.2

theorem normalize_of_blank {text : List Char} (h : text.all isSpace = true) :
    normalize text = text := by
  induction text with
  | nil => rfl
  | cons c rest ih =>
      rw [List.all_cons, Bool.and_eq_true] at h
      have hc : c ≠ '/' := by
        rintro rfl
        exact absurd h.1 (by decide)
      rw [normalize_cons, if_neg hc, ih h.2]
      rfl

/-- There is no favourable verdict on an expression of whitespace only. -/
theorem compatible_of_blank {expression : String} (h : expression.toList.all isSpace = true) :
    compatible expression = .error .emptyExpression := by
  have htokens : tokenize expression = .ok [] := by
    rw [← Result.toOption_eq_some_iff]
    unfold tokenize
    rw [normalize_of_blank h]
    exact tokens_of_blank h
  unfold compatible
  rw [htokens]
  rfl

/-- There is no note on a package exactly when it is approved. -/
theorem failure_eq_none_iff : failure repr package = none ↔ package.Approved := by
  unfold failure Package.Approved
  cases package.license with
  | string expression =>
      by_cases hblank : expression.toList.all isSpace = true
      · simp [hblank, compatible_of_blank hblank]
      · simp only [hblank]
        cases hverdict : compatible expression with
        | error e => simp [hverdict]
        | ok approved => cases approved <;> simp [hverdict]
  | _ => simp

/-- Where the license states an expression, the package is approved when the expression has the
value `true`. -/
theorem Package.States.approved_iff (h : package.States x) :
    package.Approved ↔ x.value = true := by
  obtain ⟨expression, hlicense, hspelled, hids, hexceptions⟩ := h
  have hverdict := (compatible_eq_value_iff hspelled hexceptions).2 hids
  constructor
  · rintro ⟨expression', hlicense', htrue⟩
    obtain rfl := Json.Value.string.inj (hlicense.symm.trans hlicense')
    exact Except.ok.inj (hverdict.symm.trans htrue)
  · intro hvalue
    exact ⟨expression, hlicense, hvalue ▸ hverdict⟩

/-! ### The exit of the audit -/

theorem failures_eq_nil_iff (repr : String → String) (packages : List Package) :
    packages.filterMap (failure repr) = [] ↔ ∀ package ∈ packages, package.Approved := by
  simp only [List.filterMap_eq_nil_iff, failure_eq_none_iff]

theorem code_eq_zero_iff :
    (main repr packages).code = 0 ↔ ∀ package ∈ packages, package.Approved := by
  rw [← failures_eq_nil_iff repr]
  unfold main
  by_cases hnil : packages.filterMap (failure repr) = []
  · simp [hnil]
  · simp [hnil]

/-- The audit does not depend on the order of the packages. -/
theorem main_perm (h : packages'.Perm packages) : main repr packages' = main repr packages := by
  have hnotes : (packages'.filterMap (failure repr)).Perm (packages.filterMap (failure repr)) :=
    h.filterMap _
  unfold main
  by_cases hnil : packages.filterMap (failure repr) = []
  · rw [hnil] at hnotes
    simp [hnil, hnotes.eq_nil, h.length_eq]
  · have hnil' : packages'.filterMap (failure repr) ≠ [] := by
      intro h'
      rw [h'] at hnotes
      exact hnil hnotes.symm.eq_nil
    have hsorted : List.insertionSort (· ≤ ·) (packages'.filterMap (failure repr)) =
        List.insertionSort (· ≤ ·) (packages.filterMap (failure repr)) :=
      List.Perm.eq_of_pairwise' (List.pairwise_insertionSort _ _)
        (List.pairwise_insertionSort _ _)
        ((List.perm_insertionSort _ _).trans (hnotes.trans (List.perm_insertionSort _ _).symm))
    simp only [ne_eq, hnil, hnil', not_false_eq_true, if_true, hsorted]

/-- An audit that does not pass prints the notes on all packages that are not approved, in order. -/
theorem stderr_of_code_ne_zero (h : (main repr packages).code ≠ 0) :
    ∃ notes : List String, (main repr packages).stderr =
        "dependency license audit failed:" :: notes.map (fun note => "  - " ++ note) ∧
      notes.Pairwise (· ≤ ·) ∧ notes.Perm (packages.filterMap (failure repr)) := by
  by_cases hnil : packages.filterMap (failure repr) = []
  · exact absurd (code_eq_zero_iff.2 ((failures_eq_nil_iff _ _).1 hnil)) h
  · refine ⟨List.insertionSort (· ≤ ·) (packages.filterMap (failure repr)), ?_,
      List.pairwise_insertionSort _ _, List.perm_insertionSort _ _⟩
    unfold main
    rw [if_pos hnil]

end

/-- The audit passes exactly when the verdict on every package is favourable; otherwise it prints,
in order, one note for each package that is not approved.  It does not depend on the order of the
packages.  Where the license of every package states an expression, it passes exactly when all of
these have the value `true`. -/
theorem audit_exact (repr : String → String) (packages : List Package) :
    ((main repr packages).code = 0 ↔ ∀ package ∈ packages, package.Approved) ∧
    ((main repr packages).code ≠ 0 → ∃ notes : List String, (main repr packages).stderr =
        "dependency license audit failed:" :: notes.map (fun note => "  - " ++ note) ∧
      notes.Pairwise (· ≤ ·) ∧ notes.Perm (packages.filterMap (failure repr))) ∧
    (∀ packages', packages'.Perm packages → main repr packages' = main repr packages) ∧
    ((∀ package ∈ packages, ∃ x, package.States x) → ((main repr packages).code = 0 ↔
      ∀ package ∈ packages, ∀ x, package.States x → x.value = true)) := by
  refine ⟨code_eq_zero_iff, stderr_of_code_ne_zero, fun _ => main_perm, fun hstates => ?_⟩
  rw [code_eq_zero_iff]
  constructor
  · intro happroved package hpackage x hx
    exact hx.approved_iff.1 (happroved package hpackage)
  · intro hvalue package hpackage
    obtain ⟨x, hx⟩ := hstates package hpackage
    exact hx.approved_iff.2 (hvalue package hpackage x hx)

theorem dualLicense_stated (name version : String) :
    Package.States ⟨name, version, .string dualLicense.text⟩ dualLicense :=
  ⟨_, rfl, dualLicense.spelledBy_text, by decide, by decide⟩

/-- A package under two licenses passes, and not beside one without a license. -/
theorem audit_exact_dualLicense (repr : String → String) :
    (main repr [⟨"a", "1.0.0", .string dualLicense.text⟩]).code = 0 ∧
    (main repr [⟨"a", "1.0.0", .string dualLicense.text⟩, ⟨"b", "0.1.0", .null⟩]).code ≠ 0 := by
  constructor
  · refine (audit_exact repr _).1.2 fun package hpackage => ?_
    obtain rfl := List.mem_singleton.1 hpackage
    exact (dualLicense_stated _ _).approved_iff.2 (by decide)
  · intro h
    obtain ⟨expression, hnull, -⟩ := (audit_exact repr _).1.1 h ⟨"b", "0.1.0", .null⟩ (by simp)
    cases hnull

end Gitseer.Licenses
