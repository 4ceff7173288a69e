/-
**License expressions.**

An expression is a tree: license ids, ids with an exception, requirements and alternatives.  It is
written as a list of tokens, where an exception binds more tightly than `AND` and `AND` more tightly
than `OR`, with parentheses where that takes them and wherever they are redundant.  The tokens are
spelled by a text that may have whitespace between them, and `/` for `OR`.  A word of a text is as
long as it can be.

Main definitions:

* `Expression`, `Expression.value` — expressions, and whether they are approved;
* `Prints` — the lists of tokens an expression is written as, level by level;
* `Spells` — the texts that spell a list of tokens;
* `Expression.SpelledBy`, `Expression.text` — the texts of an expression, and the plain one.

Main results:

* `tokens_of_spells` — what the scanner makes of a text, by the words of the text;
* `spells_unique` — a text spells one list of tokens;
* `Expression.spelledBy_text` — the plain text of an expression is a text of it.
-/

import Gitseer.Licenses.Parser

set_option relaxedAutoImplicit false
set_option autoImplicit false

namespace Gitseer.Licenses

/-! ### Trees -/

/-- A license id or the name of an exception. -/
structure Name where
  text : String
  /-- The text is a word of the alphabet of names. -/
  word : isWord text.toList = true
  /-- The text is no keyword. -/
  notKeyword : text ∉ keywords
  deriving DecidableEq

inductive Expression
  | license (id : Name)
  | withException (id exception : Name)
  | and (left right : Expression)
  | or (left right : Expression)
  deriving DecidableEq

namespace Expression

/-- Is the expression approved? -/
def value : Expression → Bool
  | license id => decide (id.text ∈ approvedLicenses)
  | withException id exception =>
      decide (id.text ∈ approvedLicenses) && decide (exception.text ∈ approvedExceptions)
  | and left right => left.value && right.value
  | or left right => left.value || right.value

def ids : Expression → List Name
  | license id => [id]
  | withException id _ => [id]
  | and left right => left.ids ++ right.ids
  | or left right => left.ids ++ right.ids

def exceptions : Expression → List Name
  | license _ => []
  | withException _ exception => [exception]
  | and left right => left.exceptions ++ right.exceptions
  | or left right => left.exceptions ++ right.exceptions

end Expression

/-! ### Tokens -/

/-- The levels of the grammar. -/
inductive Level
  | or
  | and
  | excepted
  | primary

/-- The expression is written as the tokens, at the level. -/
inductive Prints : Level → Expression → List String → Prop
  | license (id : Name) : Prints .primary (.license id) [id.text]
  | parens {x : Expression} {ts : List String} : Prints .or x ts →
      Prints .primary x ("(" :: (ts ++ [")"]))
  | primary {x : Expression} {ts : List String} : Prints .primary x ts → Prints .excepted x ts
  | withException {id : Name} {ts : List String} (exception : Name) :
      Prints .primary (.license id) ts →
      Prints .excepted (.withException id exception) (ts ++ ["WITH", exception.text])
  | excepted {x : Expression} {ts : List String} : Prints .excepted x ts → Prints .and x ts
  | and {x y : Expression} {ts us : List String} : Prints .and x ts → Prints .and y us →
      Prints .and (.and x y) (ts ++ "AND" :: us)
  | requirement {x : Expression} {ts : List String} : Prints .and x ts → Prints .or x ts
  | or {x y : Expression} {ts us : List String} : Prints .or x ts → Prints .or y us →
      Prints .or (.or x y) (ts ++ "OR" :: us)

/-! ### Texts -/

/-- The text spells the tokens. -/
inductive Spells : List String → List Char → Prop
  | nil : Spells [] []
  | space {c : Char} {ts : List String} {text : List Char} : isSpace c = true → Spells ts text →
      Spells ts (c :: text)
  | openParen {ts : List String} {text : List Char} : Spells ts text →
      Spells ("(" :: ts) ('(' :: text)
  | closeParen {ts : List String} {text : List Char} : Spells ts text →
      Spells (")" :: ts) (')' :: text)
  | slash {ts : List String} {text : List Char} : Spells ts text → Spells ("OR" :: ts) ('/' :: text)
  | word {w : String} {ts : List String} {text : List Char} : isWord w.toList = true →
      EndsWord text → Spells ts text → Spells (w :: ts) (w.toList ++ text)

/-- The text is one of the expression. -/
def Expression.SpelledBy (x : Expression) (text : String) : Prop :=
  ∃ ts, Prints .or x ts ∧ Spells ts text.toList

/-- The parentheses an operand of `AND` takes. -/
def Expression.operand (x : Expression) (text : String) : String :=
  match x with
  | .or _ _ => "(" ++ text ++ ")"
  | _ => text

/-- The plain text of the expression: single spaces, and the parentheses that it takes. -/
def Expression.text : Expression → String
  | license id => id.text
  | withException id exception => id.text ++ " WITH " ++ exception.text
  | and left right => left.operand left.text ++ " AND " ++ right.operand right.text
  | or left right => left.text ++ " OR " ++ right.text

/-! ### The tokens of a text -/

/-- The tokens that the scanner makes of the words. -/
def readWords : List String → Option (List String)
  | [] => some []
  | w :: ws => (tokens w.toList).bind fun front => (readWords ws).map (front ++ ·)

section

variable {ts us : List String} {text text' : List Char}

theorem readWords_append : readWords (ts ++ us) =
    (readWords ts).bind fun front => (readWords us).map (front ++ ·) := by
  induction ts with
  | nil => simp [readWords]
  | cons w ts ih =>
      rw [List.cons_append, readWords, readWords, ih]
      cases tokens w.toList with
      | none => rfl
      | some front =>
          cases readWords ts with
          | none => rfl
          | some behind => cases readWords us <;> simp

theorem normalize_cons (c : Char) (text : List Char) : normalize (c :: text) =
    (if c = '/' then [' ', 'O', 'R', ' '] else [c]) ++ normalize text := rfl

theorem endsWord_normalize (h : EndsWord text) : EndsWord (normalize text) := by
  cases text with
  | nil => exact h
  | cons c text =>
      rw [normalize_cons]
      by_cases hslash : c = '/'
      · rw [if_pos hslash]
        rintro _ ⟨rfl⟩
        decide
      · rw [if_neg hslash]
        exact h

theorem normalize_word {w : List Char} (hw : w.all isNameChar = true) :
    normalize (w ++ text) = w ++ normalize text := by
  induction w with
  | nil => rfl
  | cons c w ih =>
      rw [List.all_cons, Bool.and_eq_true] at hw
      have hslash : c ≠ '/' := by
        rintro rfl
        cases hw.1
      rw [List.cons_append, normalize_cons, if_neg hslash, ih hw.2]
      rfl

theorem all_isNameChar_of_isWord {w : List Char} (hw : isWord w = true) :
    w.all isNameChar = true := by
  cases w with
  | nil => rfl
  | cons c w =>
      rw [isWord, Bool.and_eq_true] at hw
      rw [List.all_cons, isNameChar_of_isAlnum hw.1, hw.2]
      rfl

theorem readWords_cons_of_tokens {w : String} (hw : tokens w.toList = some [w]) :
    readWords (w :: ts) = (readWords ts).map (w :: ·) := by
  rw [readWords, hw]
  rfl

/-- The tokens of a text are those of its words. -/
theorem tokens_of_spells (h : Spells ts text) : tokens (normalize text) = readWords ts := by
  induction h with
  | nil => rfl
  | @space c ts text hc _ ih =>
      have hslash : c ≠ '/' := by
        rintro rfl
        cases hc
      rw [normalize_cons, if_neg hslash, List.singleton_append, tokens_space hc, ih]
  | openParen _ ih =>
      rw [normalize_cons, if_neg (by decide), readWords_cons_of_tokens rfl, ← ih]
      exact tokens_of_match rfl
  | closeParen _ ih =>
      rw [normalize_cons, if_neg (by decide), readWords_cons_of_tokens rfl, ← ih]
      exact tokens_of_match rfl
  | @slash ts text _ ih =>
      have hword : tokens ('O' :: 'R' :: ' ' :: normalize text) =
          (tokens (' ' :: normalize text)).map ("OR" :: ·) := tokens_of_match rfl
      rw [normalize_cons, if_pos rfl, readWords_cons_of_tokens rfl, ← ih]
      exact (tokens_space (by decide)).trans (hword.trans (by rw [tokens_space (by decide)]))
  | word hw hend _ ih =>
      have hall := all_isNameChar_of_isWord hw
      rw [normalize_word hall, tokens_word hall (endsWord_normalize hend), ih, readWords]

/-! ### The words of a text -/

theorem takeWhile_word {w : List Char} (hw : isWord w = true) (hend : EndsWord text) :
    (w ++ text).takeWhile isNameChar = w :=
  takeWhile_append (all_isNameChar_of_isWord hw) hend

theorem exists_cons_of_isWord {w : List Char} (hw : isWord w = true) :
    ∃ c rest, w = c :: rest ∧ isAlnum c = true := by
  cases w with
  | nil => cases hw
  | cons c rest =>
      rw [isWord, Bool.and_eq_true] at hw
      exact ⟨c, rest, rfl, hw.1⟩

/-- How a text begins. -/
theorem spells_cons {c : Char} (h : Spells ts (c :: text)) :
    (isSpace c = true ∧ Spells ts text) ∨
    (∃ us, (c = '(' ∧ ts = "(" :: us ∨ c = ')' ∧ ts = ")" :: us ∨ c = '/' ∧ ts = "OR" :: us) ∧
      Spells us text) ∨
    ∃ w us rest, isAlnum c = true ∧ isWord w.toList = true ∧ EndsWord rest ∧
      c :: text = w.toList ++ rest ∧ ts = w :: us ∧ Spells us rest := by
  generalize hl : c :: text = l at h
  cases h with
  | nil => cases hl
  | space hc h =>
      obtain ⟨rfl, rfl⟩ := List.cons.inj hl
      exact .inl ⟨hc, h⟩
  | openParen h =>
      obtain ⟨rfl, rfl⟩ := List.cons.inj hl
      exact .inr (.inl ⟨_, .inl ⟨rfl, rfl⟩, h⟩)
  | closeParen h =>
      obtain ⟨rfl, rfl⟩ := List.cons.inj hl
      exact .inr (.inl ⟨_, .inr (.inl ⟨rfl, rfl⟩), h⟩)
  | slash h =>
      obtain ⟨rfl, rfl⟩ := List.cons.inj hl
      exact .inr (.inl ⟨_, .inr (.inr ⟨rfl, rfl⟩), h⟩)
  | @word w us rest hw hend h =>
      obtain ⟨d, _, hcons, hd⟩ := exists_cons_of_isWord hw
      rw [hcons] at hl
      obtain rfl := List.head_eq_of_cons_eq hl
      exact .inr (.inr ⟨w, us, rest, hd, hw, hend, rfl, rfl, h⟩)

theorem spells_nil (h : Spells ts []) : ts = [] := by
  generalize hl : [] = l at h
  cases h with
  | nil => rfl
  | word hw =>
      obtain ⟨_, _, hcons, -⟩ := exists_cons_of_isWord hw
      rw [hcons] at hl
      cases hl
  | _ => cases hl

theorem spells_space {c : Char} (hc : isSpace c = true) (h : Spells ts (c :: text)) :
    Spells ts text := by
  rcases spells_cons h with ⟨-, h⟩ | ⟨us, hsyntax, -⟩ | ⟨w, us, rest, halnum, -⟩
  · exact h
  · rcases hsyntax with ⟨rfl, -⟩ | ⟨rfl, -⟩ | ⟨rfl, -⟩ <;> cases hc
  · rw [isSpace_of_isNameChar (isNameChar_of_isAlnum halnum)] at hc
    cases hc

theorem spells_word {w : List Char} (hw : isWord w = true) (hend : EndsWord text)
    (h : Spells ts (w ++ text)) : ∃ us, ts = String.ofList w :: us ∧ Spells us text := by
  obtain ⟨c, tail, rfl, hc⟩ := exists_cons_of_isWord hw
  rcases spells_cons h with ⟨hspace, -⟩ | ⟨us, hsyntax, -⟩ |
    ⟨w', us, rest, -, hw', hend', heq, rfl, h⟩
  · rw [isSpace_of_isNameChar (isNameChar_of_isAlnum hc)] at hspace
    cases hspace
  · rcases hsyntax with ⟨rfl, -⟩ | ⟨rfl, -⟩ | ⟨rfl, -⟩ <;> cases hc
  · have heq : c :: tail ++ text = w'.toList ++ rest := heq
    have hsame : c :: tail = w'.toList :=
      calc
        _ = (c :: tail ++ text).takeWhile isNameChar := (takeWhile_word hw hend).symm
        _ = (w'.toList ++ rest).takeWhile isNameChar := congrArg _ heq
        _ = w'.toList := takeWhile_word hw' hend'
    rw [← hsame] at heq
    obtain rfl := List.append_cancel_left heq
    exact ⟨us, by rw [hsame, String.ofList_toList], h⟩

theorem spells_syntax {c : Char} {t : String}
    (hc : c = '(' ∧ t = "(" ∨ c = ')' ∧ t = ")" ∨ c = '/' ∧ t = "OR")
    (h : Spells ts (c :: text)) : ∃ us, ts = t :: us ∧ Spells us text := by
  rcases spells_cons h with ⟨hspace, -⟩ | ⟨us, hsyntax, h⟩ | ⟨_, _, _, halnum, -⟩
  · rcases hc with ⟨rfl, -⟩ | ⟨rfl, -⟩ | ⟨rfl, -⟩ <;> cases hspace
  · refine ⟨us, ?_, h⟩
    rcases hc with ⟨rfl, rfl⟩ | ⟨rfl, rfl⟩ | ⟨rfl, rfl⟩ <;> simpa using hsyntax
  · rcases hc with ⟨rfl, -⟩ | ⟨rfl, -⟩ | ⟨rfl, -⟩ <;> cases halnum

/-- A text spells one list of tokens. -/
theorem spells_unique (h : Spells ts text) (h' : Spells us text) : us = ts := by
  induction h generalizing us with
  | nil => exact spells_nil h'
  | space hc _ ih => exact ih (spells_space hc h')
  | openParen _ ih =>
      obtain ⟨us, rfl, hbehind⟩ := spells_syntax (.inl ⟨rfl, rfl⟩) h'
      rw [ih hbehind]
  | closeParen _ ih =>
      obtain ⟨us, rfl, hbehind⟩ := spells_syntax (.inr (.inl ⟨rfl, rfl⟩)) h'
      rw [ih hbehind]
  | slash _ ih =>
      obtain ⟨us, rfl, hbehind⟩ := spells_syntax (.inr (.inr ⟨rfl, rfl⟩)) h'
      rw [ih hbehind]
  | word hw hend _ ih =>
      obtain ⟨us, rfl, hbehind⟩ := spells_word hw hend h'
      rw [ih hbehind, String.ofList_toList]

/-! ### The plain text -/

theorem spells_append (hts : Spells ts text) (hus : Spells us text') (hend : EndsWord text') :
    Spells (ts ++ us) (text ++ text') := by
  induction hts with
  | nil => exact hus
  | space hc _ ih => exact .space hc ih
  | openParen _ ih => exact .openParen ih
  | closeParen _ ih => exact .closeParen ih
  | slash _ ih => exact .slash ih
  | @word w ts text hw hends _ ih =>
      rw [List.cons_append, List.append_assoc]
      refine .word hw ?_ ih
      cases text with
      | nil => exact hend
      | cons c text => exact hends

/-- A word between spaces. -/
theorem spells_between {w : String} (hw : isWord w.toList = true) (hts : Spells ts text)
    (hus : Spells us text') :
    Spells (ts ++ w :: us) (text ++ ' ' :: (w.toList ++ ' ' :: text')) := by
  have hspace : ∀ rest, EndsWord (' ' :: rest) := by
    rintro rest _ ⟨rfl⟩
    decide
  refine spells_append hts (.space (by decide) (.word hw (hspace _) ?_)) (hspace _)
  exact .space (by decide) hus

theorem spells_single {w : String} (hw : isWord w.toList = true) : Spells [w] w.toList := by
  have h : Spells [w] (w.toList ++ []) := .word hw (fun _ hc => by cases hc) .nil
  rwa [List.append_nil] at h

theorem spells_parens (h : Spells ts text) :
    Spells ("(" :: (ts ++ [")"])) ('(' :: (text ++ [')'])) :=
  .openParen (spells_append h (.closeParen .nil) fun c hc => by
    obtain rfl := Option.some.inj hc
    decide)

/-- The level at which the plain text of an expression is written. -/
def Expression.level : Expression → Level
  | or _ _ => .or
  | and _ _ => .and
  | withException _ _ => .excepted
  | license _ => .primary

theorem prints_or {x : Expression} (h : Prints x.level x ts) : Prints .or x ts := by
  cases x with
  | license id => exact .requirement (.excepted (.primary h))
  | withException id exception => exact .requirement (.excepted h)
  | and left right => exact .requirement h
  | or left right => exact h

/-- An operand of `AND`, in the parentheses it takes. -/
theorem prints_operand {x : Expression} (hprints : Prints x.level x ts)
    (hspells : Spells ts x.text.toList) :
    ∃ us, Prints .and x us ∧ Spells us (x.operand x.text).toList := by
  cases x with
  | license id => exact ⟨ts, .excepted (.primary hprints), hspells⟩
  | withException id exception => exact ⟨ts, .excepted hprints, hspells⟩
  | and left right => exact ⟨ts, hprints, hspells⟩
  | or left right =>
      refine ⟨_, .excepted (.primary (.parens hprints)), ?_⟩
      simp only [Expression.operand, String.toList_append]
      exact spells_parens hspells

theorem exists_prints_text (x : Expression) :
    ∃ ts, Prints x.level x ts ∧ Spells ts x.text.toList := by
  induction x with
  | license id => exact ⟨_, .license id, spells_single id.word⟩
  | withException id exception =>
      refine ⟨_, .withException exception (.license id), ?_⟩
      simp only [Expression.text, String.toList_append, List.append_assoc]
      exact spells_between (by decide) (spells_single id.word) (spells_single exception.word)
  | and left right ihleft ihright =>
      obtain ⟨ts, hts, hleft⟩ := ihleft
      obtain ⟨us, hus, hright⟩ := ihright
      obtain ⟨ts, hts, hleft⟩ := prints_operand hts hleft
      obtain ⟨us, hus, hright⟩ := prints_operand hus hright
      refine ⟨_, .and hts hus, ?_⟩
      simp only [Expression.text, String.toList_append, List.append_assoc]
      exact spells_between (by decide) hleft hright
  | or left right ihleft ihright =>
      obtain ⟨ts, hts, hleft⟩ := ihleft
      obtain ⟨us, hus, hright⟩ := ihright
      refine ⟨_, .or (prints_or hts) (prints_or hus), ?_⟩
      simp only [Expression.text, String.toList_append, List.append_assoc]
      exact spells_between (by decide) hleft hright

/-- The plain text of an expression is one of its texts. -/
theorem Expression.spelledBy_text (x : Expression) : x.SpelledBy x.text := by
  obtain ⟨ts, hts, htext⟩ := exists_prints_text x
  exact ⟨ts, prints_or hts, htext⟩

end

end Gitseer.Licenses
