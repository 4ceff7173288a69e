/-
**The tokens of a license expression.**

The license check reads an SPDX expression with a regular expression whose alternatives are the
parentheses, the three keywords and a name, tried in this order.  What lies between two matches has
to be whitespace.  As the keywords are tried before the name, a name that begins with a keyword is
taken apart: `ANDROID` is read as `AND` and `ROID`.

Main definitions:

* `ValueError` — what the check raises;
* `matchToken`, `search`, `tokenize` — one match, the next match, and all tokens;
* `tokens` — the tokens, when there is no other syntax;
* `isWord`, `StartsWithKeyword` — the words of the alphabet of names, and those taken apart.

Main results:

* `tokens_of_match`, `tokens_space`, `tokens_of_no_match` — what a text begins with, and the tokens
  of the text behind it;
* `tokens_word` — the tokens of a word, and those of the text behind it;
* `tokens_of_keyword`, `tokens_of_isWord` — the tokens of a word.
-/

import Gitseer.Lib.Descent
import Mathlib.Data.List.TakeWhile

set_option relaxedAutoImplicit false
set_option autoImplicit false

namespace Gitseer.Licenses

/-! ### The scanner -/

/-- What the check raises, with the data of its text. -/
inductive ValueError
  | unsupportedSyntax (near : String)
  | emptyExpression
  | unexpectedToken (token : String)
  | expectedLicenseId (found : String)
  | expected (token found : String)
  | unexpectedEnd
  deriving DecidableEq

/-- `str.isspace`: the characters that `strip` removes. -/
def isSpace (c : Char) : Bool :=
  (9 ≤ c.toNat && c.toNat ≤ 13) || (0x1c ≤ c.toNat && c.toNat ≤ 0x20) || c.toNat = 0x85 ||
    c.toNat = 0xa0 || c.toNat = 0x1680 || (0x2000 ≤ c.toNat && c.toNat ≤ 0x200a) ||
    c.toNat = 0x2028 || c.toNat = 0x2029 || c.toNat = 0x202f || c.toNat = 0x205f ||
    c.toNat = 0x3000

/-- The characters a name begins with: `[A-Za-z0-9]`. -/
def isAlnum (c : Char) : Bool :=
  ('A' ≤ c && c ≤ 'Z') || ('a' ≤ c && c ≤ 'z') || ('0' ≤ c && c ≤ '9')

/-- The other characters of a name: `[A-Za-z0-9.+-]`. -/
def isNameChar (c : Char) : Bool := isAlnum c || c = '.' || c = '+' || c = '-'

/-- The match of `TOKEN` at the start of a text. -/
def matchToken : List Char → Option (List Char)
  | [] => none
  | c :: rest =>
      if c = '(' then some ['(']
      else if c = ')' then some [')']
      else if ['A', 'N', 'D'].isPrefixOf (c :: rest) then some ['A', 'N', 'D']
      else if ['O', 'R'].isPrefixOf (c :: rest) then some ['O', 'R']
      else if ['W', 'I', 'T', 'H'].isPrefixOf (c :: rest) then some ['W', 'I', 'T', 'H']
      else if isAlnum c then some (c :: rest.takeWhile isNameChar)
      else none

/-- The next match: the text before it, and the match with the text behind it. -/
def search : List Char → List Char × Option (List Char × List Char)
  | [] => ([], none)
  | c :: rest =>
      match matchToken (c :: rest) with
      | some token => ([], some (token, (c :: rest).drop token.length))
      | none => (c :: (search rest).1, (search rest).2)

/-- The loop over the matches, from the position of the last one, with a bound on its turns. -/
def tokenizeFrom : ℕ → List Char → Except ValueError (List String)
  | 0, _ => .ok []
  | n + 1, text =>
      if (search text).1.all isSpace then
        match (search text).2 with
        | none => .ok []
        | some (token, rest) => do
            let tokens ← tokenizeFrom n rest
            .ok (String.ofList token :: tokens)
      else .error (.unsupportedSyntax (String.ofList text))

/-- `expression.replace("/", " OR ")`. -/
def normalize (expression : List Char) : List Char :=
  expression.flatMap fun c => if c = '/' then [' ', 'O', 'R', ' '] else [c]

def tokenize (expression : String) : Except ValueError (List String) :=
  tokenizeFrom (normalize expression.toList).length (normalize expression.toList)

example : tokenize "MIT/Apache-2.0" = .ok ["MIT", "OR", "Apache-2.0"] := by decide

example : tokenize "ANDROID" = .ok ["AND", "ROID"] := by decide

/-! ### One match -/

section

variable {c : Char} {text rest token : List Char}

theorem matchToken_ne_nil (h : matchToken text = some token) : token ≠ [] := by
  cases text with
  | nil => cases h
  | cons c rest =>
      simp only [matchToken] at h
      split_ifs at h <;> cases h <;> simp

theorem isAlnum_of_isPrefixOf {k : Char} {keyword : List Char} (hk : isAlnum k = true)
    (h : (k :: keyword).isPrefixOf (c :: rest) = true) : isAlnum c = true := by
  rw [List.isPrefixOf_cons_cons, Bool.and_eq_true, beq_iff_eq] at h
  exact h.1 ▸ hk

/-- There is a match at a parenthesis and at what a name begins with, and nowhere else. -/
theorem matchToken_eq_none_iff :
    matchToken (c :: rest) = none ↔ c ≠ '(' ∧ c ≠ ')' ∧ isAlnum c = false := by
  rw [matchToken]
  constructor
  · intro h
    split_ifs at h with hopen hclose _ _ _ halnum
    exact ⟨hopen, hclose, by simpa using halnum⟩
  · rintro ⟨hopen, hclose, halnum⟩
    have hkeyword : ∀ k keyword, isAlnum k = true →
        ¬ (k :: keyword).isPrefixOf (c :: rest) = true := by
      intro k keyword hk h
      rw [isAlnum_of_isPrefixOf hk h] at halnum
      cases halnum
    rw [if_neg hopen, if_neg hclose, if_neg (hkeyword _ _ (by decide)),
      if_neg (hkeyword _ _ (by decide)), if_neg (hkeyword _ _ (by decide)), halnum]
    rfl

theorem isAlnum_iff : isAlnum c = true ↔ (65 ≤ c.toNat ∧ c.toNat ≤ 90) ∨
    (97 ≤ c.toNat ∧ c.toNat ≤ 122) ∨ (48 ≤ c.toNat ∧ c.toNat ≤ 57) := by
  simp only [isAlnum, Bool.or_eq_true, Bool.and_eq_true, decide_eq_true_eq, Char.le_def,
    UInt32.le_iff_toNat_le, or_assoc]
  rfl

/-- The characters of names are not whitespace. -/
theorem isSpace_of_isNameChar (h : isNameChar c = true) : isSpace c = false := by
  have hrange : 33 ≤ c.toNat ∧ c.toNat ≤ 122 := by
    simp only [isNameChar, Bool.or_eq_true, decide_eq_true_eq, isAlnum_iff] at h
    rcases h with ((h | rfl) | rfl) | rfl
    · omega
    all_goals decide
  simp only [isSpace, Bool.or_eq_false_iff, Bool.and_eq_false_iff, decide_eq_false_iff_not]
  omega

theorem isNameChar_of_isAlnum (h : isAlnum c = true) : isNameChar c = true := by
  simp only [isNameChar, h, Bool.true_or]

theorem matchToken_of_isSpace (h : isSpace c = true) : matchToken (c :: rest) = none := by
  refine matchToken_eq_none_iff.2 ⟨?_, ?_, ?_⟩
  · rintro rfl
    revert h
    decide
  · rintro rfl
    revert h
    decide
  · cases halnum : isAlnum c with
    | false => rfl
    | true =>
        rw [isSpace_of_isNameChar (isNameChar_of_isAlnum halnum)] at h
        cases h

/-! ### The text behind a character -/

theorem search_of_match (h : matchToken (c :: rest) = some token) :
    search (c :: rest) = ([], some (token, (c :: rest).drop token.length)) := by
  simp only [search, h]

theorem search_of_no_match (h : matchToken (c :: rest) = none) :
    search (c :: rest) = (c :: (search rest).1, (search rest).2) := by
  simp only [search, h]

/-- The next match is not empty. -/
theorem length_lt_of_search {next : List Char × List Char} (h : (search text).2 = some next) :
    next.2.length < text.length := by
  induction text with
  | nil => cases h
  | cons c text ih =>
      cases hmatch : matchToken (c :: text) with
      | none =>
          rw [search_of_no_match hmatch] at h
          have hlt := ih h
          rw [List.length_cons]
          omega
      | some found =>
          rw [search_of_match hmatch] at h
          obtain rfl := Option.some.inj h
          have hpos := List.length_pos_iff.2 (matchToken_ne_nil hmatch)
          rw [List.length_drop, List.length_cons]
          omega

theorem tokenizeFrom_eq {n m : ℕ} (hn : text.length ≤ n) (hm : text.length ≤ m) :
    tokenizeFrom n text = tokenizeFrom m text := by
  have hnil : ∀ k, tokenizeFrom k [] = .ok [] := by
    intro k
    cases k <;> rfl
  induction n generalizing m text with
  | zero =>
      obtain rfl := List.length_eq_zero_iff.1 (Nat.le_zero.1 hn)
      rw [hnil, hnil]
  | succ n ih =>
      cases m with
      | zero =>
          obtain rfl := List.length_eq_zero_iff.1 (Nat.le_zero.1 hm)
          rw [hnil, hnil]
      | succ m =>
          unfold tokenizeFrom
          cases hsearch : (search text).2 with
          | none => rfl
          | some found =>
              have hlt := length_lt_of_search hsearch
              dsimp only
              rw [ih (m := m) (by omega) (by omega)]

/-- The tokens of a text, when there is no other syntax in it. -/
def tokens (text : List Char) : Option (List String) := (tokenizeFrom text.length text).toOption

theorem tokens_eq (text : List Char) : tokens text =
    if (search text).1.all isSpace then
      match (search text).2 with
      | none => some []
      | some (token, rest) => (tokens rest).map (String.ofList token :: ·)
    else none := by
  have hunfold : tokens text = (tokenizeFrom (text.length + 1) text).toOption :=
    congrArg Except.toOption (tokenizeFrom_eq (Nat.le_refl _) (Nat.le_succ _))
  rw [hunfold]
  unfold tokenizeFrom
  split
  · cases hsearch : (search text).2 with
    | none => rfl
    | some found =>
        have hlt := length_lt_of_search hsearch
        dsimp only
        rw [tokenizeFrom_eq (m := found.2.length) (by omega) (Nat.le_refl _)]
        unfold tokens
        cases tokenizeFrom found.2.length found.2 <;> rfl
  · rfl

@[simp] theorem tokens_nil : tokens [] = some [] := rfl

/-- A match at the start of the text is its first token. -/
theorem tokens_of_match (h : matchToken (c :: rest) = some token) :
    tokens (c :: rest) =
      (tokens ((c :: rest).drop token.length)).map (String.ofList token :: ·) := by
  rw [tokens_eq, search_of_match h]
  rfl

theorem tokens_space (h : isSpace c = true) : tokens (c :: rest) = tokens rest := by
  rw [tokens_eq, search_of_no_match (matchToken_of_isSpace h), tokens_eq rest]
  simp only [List.all_cons, h, Bool.true_and]

/-- Other syntax is not read. -/
theorem tokens_of_no_match (h : matchToken (c :: rest) = none) (hspace : isSpace c = false) :
    tokens (c :: rest) = none := by
  rw [tokens_eq, search_of_no_match h]
  simp only [List.all_cons, hspace, Bool.false_and, Bool.false_eq_true, if_false]

/-! ### Words -/

/-- A word of the alphabet of names. -/
def isWord : List Char → Bool
  | [] => false
  | c :: rest => isAlnum c && rest.all isNameChar

def keywords : List String := ["AND", "OR", "WITH"]

/-- The text begins with a keyword. -/
def StartsWithKeyword (text : List Char) : Prop := ∃ k ∈ keywords, k.toList <+: text

/-- No word goes on in the text. -/
def EndsWord (text : List Char) : Prop := ∀ c ∈ text.head?, isNameChar c = false

theorem isPrefixOf_append {keyword w : List Char} (hkeyword : keyword.all isNameChar = true)
    (hrest : EndsWord rest) : keyword.isPrefixOf (w ++ rest) = keyword.isPrefixOf w := by
  induction keyword generalizing w with
  | nil => simp
  | cons k keyword ih =>
      rw [List.all_cons, Bool.and_eq_true] at hkeyword
      cases w with
      | nil =>
          cases rest with
          | nil => rfl
          | cons c rest =>
              -- The keyword would have to go on behind the word.
              have hne : k ≠ c := by
                rintro rfl
                have hk := hrest k rfl
                rw [hkeyword.1] at hk
                cases hk
              simp [List.isPrefixOf_cons_cons, hne]
      | cons c w => rw [List.cons_append, List.isPrefixOf_cons_cons, List.isPrefixOf_cons_cons,
          ih hkeyword.2]

theorem takeWhile_append {w : List Char} (hw : w.all isNameChar = true) (hrest : EndsWord rest) :
    (w ++ rest).takeWhile isNameChar = w := by
  rw [List.takeWhile_append_of_pos fun c hc => List.all_eq_true.1 hw c hc]
  cases rest with
  | nil => simp
  | cons c rest => rw [List.takeWhile_cons, hrest c rfl]; simp

/-- The match at the start of a word does not depend on what is behind the word, and is part of
the word. -/
theorem matchToken_append {w : List Char} (hw : (c :: w).all isNameChar = true)
    (hrest : EndsWord rest) : matchToken (c :: (w ++ rest)) = matchToken (c :: w) ∧
      ∀ token, matchToken (c :: w) = some token → token <+: c :: w := by
  have hwhole : w.all isNameChar = true := by
    rw [List.all_cons, Bool.and_eq_true] at hw
    exact hw.2
  have hself : w.takeWhile isNameChar = w :=
    List.takeWhile_eq_self_iff.2 fun c hc => List.all_eq_true.1 hwhole c hc
  constructor
  · rw [matchToken, matchToken, ← List.cons_append, isPrefixOf_append (by decide) hrest,
      isPrefixOf_append (by decide) hrest, isPrefixOf_append (by decide) hrest,
      takeWhile_append hwhole hrest, hself]
  · intro token h
    rw [matchToken, hself] at h
    split_ifs at h with hopen hclose hand hor hwith halnum <;> obtain rfl := Option.some.inj h
    · exact ⟨w, by rw [hopen]; rfl⟩
    · exact ⟨w, by rw [hclose]; rfl⟩
    · exact List.isPrefixOf_iff_prefix.1 hand
    · exact List.isPrefixOf_iff_prefix.1 hor
    · exact List.isPrefixOf_iff_prefix.1 hwith
    · exact List.prefix_refl _

/-- The tokens of a word, and those of the text behind it. -/
theorem tokens_word {w : List Char} (hw : w.all isNameChar = true) (hrest : EndsWord rest) :
    tokens (w ++ rest) = (tokens w).bind fun front => (tokens rest).map (front ++ ·) := by
  -- By the length of the word: a match takes characters off its front and none from behind it.
  induction hn : w.length using Nat.strong_induction_on generalizing w with
  | _ n ih =>
      cases w with
      | nil => simp
      | cons c w =>
          obtain ⟨hmatch, hprefix⟩ := matchToken_append hw hrest
          cases htoken : matchToken (c :: w) with
          | none =>
              have hspace : isSpace c = false := by
                rw [List.all_cons, Bool.and_eq_true] at hw
                exact isSpace_of_isNameChar hw.1
              rw [List.cons_append, tokens_of_no_match (hmatch.trans htoken) hspace,
                tokens_of_no_match htoken hspace]
              rfl
          | some token =>
              obtain ⟨behind, hbehind⟩ := hprefix token htoken
              have hlength := List.length_pos_iff.2 (matchToken_ne_nil htoken)
              have hfront : (c :: w).drop token.length = behind := by
                rw [← hbehind, List.drop_left]
              have hboth : (c :: (w ++ rest)).drop token.length = behind ++ rest := by
                rw [← List.cons_append, ← hbehind, List.append_assoc, List.drop_left]
              have hall : behind.all isNameChar = true := by
                rw [← hbehind, List.all_append, Bool.and_eq_true] at hw
                exact hw.2
              have hlt : behind.length < n := by
                rw [← hn, ← hbehind, List.length_append]
                omega
              rw [List.cons_append, tokens_of_match (hmatch.trans htoken), hboth,
                tokens_of_match htoken, hfront, ih _ hlt hall rfl]
              cases tokens behind with
              | none => rfl
              | some front => cases tokens rest <;> rfl

theorem matchToken_of_keyword {k : String} (hk : k ∈ keywords) (h : k.toList <+: c :: rest) :
    matchToken (c :: rest) = some k.toList := by
  obtain ⟨behind, hbehind⟩ := h
  rw [← hbehind]
  simp only [keywords, List.mem_cons, List.not_mem_nil, or_false] at hk
  rcases hk with rfl | rfl | rfl <;> rfl

/-- A word that begins with a keyword is taken apart. -/
theorem tokens_of_keyword {k : String} (hk : k ∈ keywords) (h : k.toList <+: text) :
    tokens text = (tokens (text.drop k.toList.length)).map (k :: ·) := by
  cases text with
  | nil =>
      have hnil := List.prefix_nil.1 h
      simp only [keywords, List.mem_cons, List.not_mem_nil, or_false] at hk
      rcases hk with rfl | rfl | rfl <;> cases hnil
  | cons c rest =>
      rw [tokens_of_match (matchToken_of_keyword hk h), String.ofList_toList]

/-- A word that does not begin with a keyword is one token. -/
theorem tokens_of_isWord {w : List Char} (hw : isWord w = true) (h : ¬ StartsWithKeyword w) :
    tokens w = some [String.ofList w] := by
  cases w with
  | nil => cases hw
  | cons c w =>
      rw [isWord, Bool.and_eq_true] at hw
      obtain ⟨hc, hall⟩ := hw
      have hself : w.takeWhile isNameChar = w :=
        List.takeWhile_eq_self_iff.2 fun c hc => List.all_eq_true.1 hall c hc
      have hno : ∀ k ∈ keywords, k.toList.isPrefixOf (c :: w) = false := by
        intro k hk
        rw [Bool.eq_false_iff, ne_eq, List.isPrefixOf_iff_prefix]
        exact fun hprefix => h ⟨k, hk, hprefix⟩
      have hmatch : matchToken (c :: w) = some (c :: w) := by
        have hopen : c ≠ '(' := by
          rintro rfl
          cases hc
        have hclose : c ≠ ')' := by
          rintro rfl
          cases hc
        have hand : ['A', 'N', 'D'].isPrefixOf (c :: w) = false := hno "AND" (by decide)
        have hor : ['O', 'R'].isPrefixOf (c :: w) = false := hno "OR" (by decide)
        have hwith : ['W', 'I', 'T', 'H'].isPrefixOf (c :: w) = false := hno "WITH" (by decide)
        rw [matchToken, if_neg hopen, if_neg hclose, hand, hor, hwith, hc, hself]
        rfl
      rw [tokens_of_match hmatch, List.drop_length]
      rfl

end

end Gitseer.Licenses
