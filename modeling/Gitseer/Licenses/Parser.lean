/-
**The parser of license expressions.**

The parser evaluates while it reads.  It goes down from alternatives to requirements, to exceptions
and to license ids, and back up in parentheses.  What is left of the tokens stands for its position.

Main definitions:

* `approvedLicenses`, `approvedExceptions` — what is approved;
* `parsePrimary`, `parseWith`, `parseAnd`, `parseOr`, `parse` — the methods of `Parser`;
* `compatible` — the verdict on an expression.

Main results:

* `parsePrimary_eq_ok_iff`, `parseWith_eq_ok_iff` — what the lower levels read;
* `parseOr_eq` — the bound on the nesting of parentheses is not met;
* `compatible_eq_ok_iff` — the verdicts are those of the parser on the tokens of the expression.
-/

import Gitseer.Licenses.Tokens

set_option relaxedAutoImplicit false
set_option autoImplicit false

open Descent (Parser Shrinks accept level)

namespace Gitseer.Licenses

def approvedLicenses : List String :=
  ["Apache-2.0", "CC0-1.0", "ISC", "MIT", "Unicode-3.0", "Unlicense", "Zlib"]

def approvedExceptions : List String := ["LLVM-exception"]

/-! ### The methods -/

def take : Parser String ValueError String
  | [] => .error .unexpectedEnd
  | token :: rest => .ok (token, rest)

def expect (token : String) (tokens : List String) : Except ValueError (List String) :=
  match accept token tokens with
  | some rest => .ok rest
  | none => .error (.expected token (tokens.head?.getD "<end>"))

/-- A license id, or an expression in parentheses. -/
def parsePrimary (parseOr : Parser String ValueError Bool) : Parser String ValueError Bool :=
  fun tokens =>
    match accept "(" tokens with
    | some rest => do
        let (result, rest) ← parseOr rest
        let rest ← expect ")" rest
        .ok (result, rest)
    | none => do
        let (licenseId, rest) ← take tokens
        if licenseId ∈ ["AND", "OR", "WITH", "(", ")"] then .error (.expectedLicenseId licenseId)
        else .ok (decide (licenseId ∈ approvedLicenses), rest)

def parseWith (parseOr : Parser String ValueError Bool) : Parser String ValueError Bool :=
  fun tokens => do
    let (result, rest) ← parsePrimary parseOr tokens
    match accept "WITH" rest with
    | some rest => do
        let (exception, rest) ← take rest
        .ok (result && decide (exception ∈ approvedExceptions), rest)
    | none => .ok (result, rest)

def parseAnd (parseOr : Parser String ValueError Bool) : Parser String ValueError Bool :=
  level "AND" and (parseWith parseOr)

/-- The alternatives, from the method for what is in parentheses. -/
def alternatives (parseOr : Parser String ValueError Bool) : Parser String ValueError Bool :=
  level "OR" or (parseAnd parseOr)

/-- The number bounds the nesting of parentheses.  At the bound the method fails as it does where no
tokens are left. -/
def parseOrFrom : ℕ → Parser String ValueError Bool
  | 0 => fun _ => .error .unexpectedEnd
  | n + 1 => alternatives (parseOrFrom n)

def parseOr : Parser String ValueError Bool := fun tokens => parseOrFrom tokens.length tokens

def parse (tokens : List String) : Except ValueError Bool := do
  let (result, rest) ← parseOr tokens
  match rest with
  | [] => .ok result
  | token :: _ => .error (.unexpectedToken token)

/-- The verdict on an expression. -/
def compatible (expression : String) : Except ValueError Bool := do
  let tokens ← tokenize expression
  if tokens = [] then .error .emptyExpression
  else parse tokens

example : compatible "(MIT OR GPL-3.0) AND Apache-2.0 WITH LLVM-exception" = .ok true := by
  decide +kernel

example : compatible "MIT AND" = .error .unexpectedEnd := by decide +kernel

/-! ### What the methods read -/

section

variable {g g' : Parser String ValueError Bool} {tokens rest : List String} {result : Bool}

theorem expect_eq_ok_iff {token : String} :
    expect token tokens = .ok rest ↔ tokens = token :: rest := by
  unfold expect
  rw [← Descent.accept_eq_some_iff]
  cases accept token tokens with
  | none => simp
  | some behind => simp

theorem take_eq_ok_iff {token : String} :
    take tokens = .ok (token, rest) ↔ tokens = token :: rest := by
  cases tokens with
  | nil => simp [take]
  | cons t ts => simp [take]

/-- What a primary is: something in parentheses, or one token that is no syntax. -/
theorem parsePrimary_eq_ok_iff : parsePrimary g tokens = .ok (result, rest) ↔
    (∃ inner, tokens = "(" :: inner ∧ g inner = .ok (result, ")" :: rest)) ∨
    ∃ id, tokens = id :: rest ∧ id ∉ ["AND", "OR", "WITH", "(", ")"] ∧
      result = decide (id ∈ approvedLicenses) := by
  unfold parsePrimary
  cases hopen : accept "(" tokens with
  | some inner =>
      obtain rfl := Descent.accept_eq_some_iff.1 hopen
      constructor
      · intro h
        obtain ⟨⟨front, behind⟩, hfront, h⟩ := Result.bind_eq_ok.1 h
        obtain ⟨behind', hbehind, h⟩ := Result.bind_eq_ok.1 h
        obtain ⟨rfl, rfl⟩ := Prod.mk.inj (Except.ok.inj h)
        obtain rfl := expect_eq_ok_iff.1 hbehind
        exact .inl ⟨inner, rfl, hfront⟩
      · rintro (⟨inner', heq, h⟩ | ⟨id, heq, hid, -⟩)
        · obtain rfl := List.tail_eq_of_cons_eq heq
          exact Result.bind_eq_ok.2
            ⟨_, h, Result.bind_eq_ok.2 ⟨rest, expect_eq_ok_iff.2 rfl, rfl⟩⟩
        · obtain rfl := List.head_eq_of_cons_eq heq
          exact absurd (by decide) hid
  | none =>
      constructor
      · intro h
        obtain ⟨⟨id, behind⟩, hid, h⟩ := Result.bind_eq_ok.1 h
        obtain ⟨hno, h⟩ := Result.ite_error_eq_ok.1 h
        obtain ⟨rfl, rfl⟩ := Prod.mk.inj (Except.ok.inj h)
        exact .inr ⟨id, take_eq_ok_iff.1 hid, hno, rfl⟩
      · rintro (⟨inner, rfl, -⟩ | ⟨id, rfl, hid, rfl⟩)
        · rw [Descent.accept_self] at hopen
          cases hopen
        · exact Result.bind_eq_ok.2 ⟨_, take_eq_ok_iff.2 rfl, Result.ite_error_eq_ok.2 ⟨hid, rfl⟩⟩

/-- What an excepted license is: a primary, with a token behind `WITH` if that comes next. -/
theorem parseWith_eq_ok_iff : parseWith g tokens = .ok (result, rest) ↔
    (∃ front token, parsePrimary g tokens = .ok (front, "WITH" :: token :: rest) ∧
      result = (front && decide (token ∈ approvedExceptions))) ∨
    rest.head? ≠ some "WITH" ∧ parsePrimary g tokens = .ok (result, rest) := by
  constructor
  · intro h
    obtain ⟨⟨front, behind⟩, hfront, h⟩ := Result.bind_eq_ok.1 h
    dsimp only at h
    split at h
    · rename_i behind' hwith
      obtain rfl := Descent.accept_eq_some_iff.1 hwith
      obtain ⟨⟨token, behind⟩, htoken, h⟩ := Result.bind_eq_ok.1 h
      obtain ⟨rfl, rfl⟩ := Prod.mk.inj (Except.ok.inj h)
      obtain rfl := take_eq_ok_iff.1 htoken
      exact .inl ⟨front, token, hfront, rfl⟩
    · rename_i hwith
      obtain ⟨rfl, rfl⟩ := Prod.mk.inj (Except.ok.inj h)
      exact .inr ⟨Descent.accept_eq_none_iff.1 hwith, hfront⟩
  · rintro (⟨front, token, hfront, rfl⟩ | ⟨hwith, hfront⟩)
    · refine Result.bind_eq_ok.2 ⟨_, hfront, ?_⟩
      dsimp only
      rw [Descent.accept_self]
      rfl
    · refine Result.bind_eq_ok.2 ⟨_, hfront, ?_⟩
      dsimp only
      rw [Descent.accept_eq_none_iff.2 hwith]

theorem shrinks_parsePrimary (hg : Shrinks g) : Shrinks (parsePrimary g) := by
  intro tokens result rest h
  obtain ⟨inner, rfl, hinner⟩ | ⟨id, rfl, -, -⟩ := parsePrimary_eq_ok_iff.1 h
  · have hlt := hg _ _ _ hinner
    rw [List.length_cons] at hlt ⊢
    omega
  · exact Nat.lt_succ_self _

theorem shrinks_parseWith (hg : Shrinks g) : Shrinks (parseWith g) := by
  intro tokens result rest h
  obtain ⟨front, token, hfront, -⟩ | ⟨-, hfront⟩ := parseWith_eq_ok_iff.1 h
  · have hlt := shrinks_parsePrimary hg _ _ _ hfront
    simp only [List.length_cons] at hlt
    omega
  · exact shrinks_parsePrimary hg _ _ _ hfront

theorem shrinks_parseAnd (hg : Shrinks g) : Shrinks (parseAnd g) :=
  Descent.shrinks_level (shrinks_parseWith hg)

theorem shrinks_parseOrFrom (n : ℕ) : Shrinks (parseOrFrom n) := by
  induction n with
  | zero =>
      intro tokens result rest h
      cases h
  | succ n ih => exact Descent.shrinks_level (shrinks_parseAnd ih)

theorem shrinks_parseOr : Shrinks parseOr :=
  fun tokens => shrinks_parseOrFrom tokens.length tokens

/-! ### The bound -/

/-- What is in parentheses is shorter than the whole. -/
theorem alternatives_congr (hg : Shrinks g) (hg' : Shrinks g')
    (h : ∀ us, us.length < tokens.length → g us = g' us) :
    alternatives g tokens = alternatives g' tokens := by
  have hprimary : ∀ us, us.length ≤ tokens.length → parsePrimary g us = parsePrimary g' us := by
    intro us hus
    unfold parsePrimary
    cases hopen : accept "(" us with
    | none => rfl
    | some inner =>
        obtain rfl := Descent.accept_eq_some_iff.1 hopen
        rw [List.length_cons] at hus
        dsimp only
        rw [h inner (by omega)]
  have hwith : ∀ us, us.length ≤ tokens.length → parseWith g us = parseWith g' us := by
    intro us hus
    unfold parseWith
    rw [hprimary us hus]
  have hand : ∀ us, us.length ≤ tokens.length → parseAnd g us = parseAnd g' us :=
    fun us hus => Descent.level_congr (shrinks_parseWith hg) (shrinks_parseWith hg')
      fun vs hvs => hwith vs (hvs.trans hus)
  exact Descent.level_congr (shrinks_parseAnd hg) (shrinks_parseAnd hg') hand

theorem parseOrFrom_eq_parseOr {n : ℕ} (hn : tokens.length ≤ n) :
    parseOrFrom n tokens = parseOr tokens := by
  induction hlength : tokens.length using Nat.strongRecOn generalizing n tokens with
  | ind k ih =>
      unfold parseOr
      rw [hlength]
      cases tokens with
      | nil =>
          -- Without tokens every bound gives the error of `take`.
          obtain rfl := hlength
          cases n <;> rfl
      | cons token tokens =>
          rw [List.length_cons] at hlength hn
          obtain ⟨n, rfl⟩ := Nat.exists_eq_succ_of_ne_zero (n := n) (by omega)
          obtain rfl := hlength
          refine alternatives_congr (shrinks_parseOrFrom n) (shrinks_parseOrFrom _) fun us hus => ?_
          rw [List.length_cons] at hus
          rw [ih us.length hus (n := n) (by omega) rfl, ih us.length hus (by omega) rfl]

/-- The bound is not met. -/
theorem parseOr_eq (tokens : List String) : parseOr tokens = alternatives parseOr tokens := by
  rw [← parseOrFrom_eq_parseOr (Nat.le_succ tokens.length)]
  exact alternatives_congr (shrinks_parseOrFrom _) shrinks_parseOr fun us hus =>
    parseOrFrom_eq_parseOr hus.le

theorem compatible_eq_ok_iff {expression : String} : compatible expression = .ok result ↔
    ∃ tokens, tokenize expression = .ok tokens ∧ parseOr tokens = .ok (result, []) := by
  have hparse : ∀ tokens, parse tokens = .ok result ↔ parseOr tokens = .ok (result, []) := by
    intro tokens
    constructor
    · intro h
      obtain ⟨⟨front, rest⟩, hfront, h⟩ := Result.bind_eq_ok.1 h
      cases rest with
      | nil =>
          obtain rfl := Except.ok.inj h
          exact hfront
      | cons token rest => cases h
    · intro h
      exact Result.bind_eq_ok.2 ⟨_, h, rfl⟩
  unfold compatible
  rw [Result.bind_eq_ok]
  refine exists_congr fun tokens => and_congr_right fun _ => ?_
  rw [← hparse, Result.ite_error_eq_ok, and_iff_right_iff_imp]
  rintro h rfl
  cases h

end

end Gitseer.Licenses
