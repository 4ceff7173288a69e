/-
**The verdict on the text of an expression.**

The verdict on a text of an expression is the value of the expression, as long as no license id in
it begins with a keyword.  Where one does, the scanner takes the id apart, and the parser finds a
keyword in its place, which is an error.

Main definitions:

* `Expression.IdsWhole`, `Expression.ExceptionsWhole` — no id, or no exception, begins with a
  keyword;
* `Expression.reading` — the value, or nothing where an id does;
* `Reads` — the methods of the parser read the tokens as the expression.

Main results:

* `reads_of_prints` — they do;
* `compatible_eq_value_iff` — the verdict is the value exactly when no id begins with a keyword.
-/

import Gitseer.Licenses.Expressions

set_option relaxedAutoImplicit false
set_option autoImplicit false

open Descent (LevelReads)

namespace Gitseer.Licenses

/-! ### Names that are taken apart -/

instance (text : List Char) : Decidable (StartsWithKeyword text) :=
  inferInstanceAs (Decidable (∃ k ∈ keywords, k.toList <+: text))

namespace Expression

def IdsWhole (x : Expression) : Prop := ∀ id ∈ x.ids, ¬ StartsWithKeyword id.text.toList

def ExceptionsWhole (x : Expression) : Prop :=
  ∀ exception ∈ x.exceptions, ¬ StartsWithKeyword exception.text.toList

/-- The value of the expression, or nothing where an id is taken apart. -/
def reading : Expression → Option Bool
  | license id =>
      if StartsWithKeyword id.text.toList then none
      else some (decide (id.text ∈ approvedLicenses))
  | withException id exception =>
      if StartsWithKeyword id.text.toList then none
      else some (decide (id.text ∈ approvedLicenses) &&
        decide (exception.text ∈ approvedExceptions))
  | and left right => left.reading.bind fun a => right.reading.map (Bool.and a)
  | or left right => left.reading.bind fun a => right.reading.map (Bool.or a)

theorem idsWhole_and {x y : Expression} : (and x y).IdsWhole ↔ x.IdsWhole ∧ y.IdsWhole :=
  List.forall_mem_append

theorem idsWhole_or {x y : Expression} : (or x y).IdsWhole ↔ x.IdsWhole ∧ y.IdsWhole :=
  List.forall_mem_append

theorem reading_of_idsWhole {x : Expression} (h : x.IdsWhole) : x.reading = some x.value := by
  induction x with
  | license id => exact if_neg (h id (List.mem_singleton_self id))
  | withException id exception => exact if_neg (h id (List.mem_singleton_self id))
  | and left right ihleft ihright =>
      obtain ⟨hleft, hright⟩ := idsWhole_and.1 h
      rw [reading, ihleft hleft, ihright hright]
      rfl
  | or left right ihleft ihright =>
      obtain ⟨hleft, hright⟩ := idsWhole_or.1 h
      rw [reading, ihleft hleft, ihright hright]
      rfl

theorem idsWhole_of_reading {x : Expression} {a : Bool} (h : x.reading = some a) :
    x.IdsWhole := by
  induction x generalizing a with
  | license id =>
      intro id' hid hkeyword
      obtain rfl := List.mem_singleton.1 hid
      rw [reading, if_pos hkeyword] at h
      cases h
  | withException id exception =>
      intro id' hid hkeyword
      obtain rfl := List.mem_singleton.1 hid
      rw [reading, if_pos hkeyword] at h
      cases h
  | and left right ihleft ihright =>
      obtain ⟨a, hleft, h⟩ := Option.bind_eq_some_iff.1 h
      obtain ⟨b, hright, -⟩ := Option.map_eq_some_iff.1 h
      exact idsWhole_and.2 ⟨ihleft hleft, ihright hright⟩
  | or left right ihleft ihright =>
      obtain ⟨a, hleft, h⟩ := Option.bind_eq_some_iff.1 h
      obtain ⟨b, hright, -⟩ := Option.map_eq_some_iff.1 h
      exact idsWhole_or.2 ⟨ihleft hleft, ihright hright⟩

end Expression

/-! ### The words of an expression -/

section

variable {x : Expression} {lvl : Level} {ts vs rest : List String}

theorem readWords_append_eq_some {us : List String} : readWords (ts ++ us) = some vs ↔
    ∃ front behind, readWords ts = some front ∧ readWords us = some behind ∧
      vs = front ++ behind := by
  rw [readWords_append]
  cases readWords ts with
  | none => simp
  | some front => cases readWords us <;> simp [eq_comm]

theorem readWords_cons_eq_some {w : String} (hw : tokens w.toList = some [w]) :
    readWords (w :: ts) = some vs ↔ ∃ behind, readWords ts = some behind ∧ vs = w :: behind := by
  rw [readWords_cons_of_tokens hw]
  cases readWords ts <;> simp [eq_comm]

theorem tokens_name {name : Name} (h : ¬ StartsWithKeyword name.text.toList) :
    tokens name.text.toList = some [name.text] := by
  rw [tokens_of_isWord name.word h, String.ofList_toList]

/-- A name is none of the other tokens. -/
theorem Name.notMem_syntax (name : Name) : name.text ∉ ["AND", "OR", "WITH", "(", ")"] := by
  intro hmem
  have hmem : name.text ∈ keywords ++ ["(", ")"] := hmem
  rcases List.mem_append.1 hmem with hkeyword | hparen
  · exact name.notKeyword hkeyword
  · have hword := name.word
    rcases List.mem_pair.1 hparen with h | h
    · rw [h] at hword
      cases hword
    · rw [h] at hword
      cases hword

theorem readWords_append_self {us : List String} (hts : readWords ts = some ts)
    (hus : readWords us = some us) : readWords (ts ++ us) = some (ts ++ us) :=
  readWords_append_eq_some.2 ⟨ts, us, hts, hus, rfl⟩

theorem readWords_cons_self {w : String} (hw : tokens w.toList = some [w])
    (hts : readWords ts = some ts) : readWords (w :: ts) = some (w :: ts) :=
  (readWords_cons_eq_some hw).2 ⟨ts, hts, rfl⟩

/-- The words of an expression that keeps all its names are its tokens. -/
theorem readWords_of_prints (h : Prints lvl x ts) (hids : x.IdsWhole)
    (hexceptions : x.ExceptionsWhole) : readWords ts = some ts := by
  induction h with
  | license id => exact readWords_cons_self (tokens_name (hids id (List.mem_singleton_self id))) rfl
  | parens _ ih =>
      exact readWords_cons_self rfl (readWords_append_self (ih hids hexceptions) rfl)
  | primary _ ih => exact ih hids hexceptions
  | withException exception _ ih =>
      have hexception := tokens_name (hexceptions exception (List.mem_singleton_self _))
      refine readWords_append_self (ih hids fun _ hmem => ?_)
        (readWords_cons_self rfl (readWords_cons_self hexception rfl))
      cases hmem
  | excepted _ ih => exact ih hids hexceptions
  | and _ _ ihleft ihright =>
      obtain ⟨hids, hids'⟩ := Expression.idsWhole_and.1 hids
      obtain ⟨hexceptions, hexceptions'⟩ := List.forall_mem_append.1 hexceptions
      exact readWords_append_self (ihleft hids hexceptions)
        (readWords_cons_self rfl (ihright hids' hexceptions'))
  | requirement _ ih => exact ih hids hexceptions
  | or _ _ ihleft ihright =>
      obtain ⟨hids, hids'⟩ := Expression.idsWhole_or.1 hids
      obtain ⟨hexceptions, hexceptions'⟩ := List.forall_mem_append.1 hexceptions
      exact readWords_append_self (ihleft hids hexceptions)
        (readWords_cons_self rfl (ihright hids' hexceptions'))

/-! ### What the methods read -/

/-- At the front of any tokens, the method of the level reads the given ones as the expression, or
fails where an id is taken apart. -/
def Reads (x : Expression) (vs : List String) : Level → Prop
  | .primary => ∀ rest,
      (parsePrimary parseOr (vs ++ rest)).toOption = x.reading.map (·, rest)
  | .excepted => ∀ rest, rest.head? ≠ some "WITH" →
      (parseWith parseOr (vs ++ rest)).toOption = x.reading.map (·, rest)
  | .and => ∀ rest, rest.head? ≠ some "WITH" →
      LevelReads "AND" and (parseWith parseOr) vs rest x.reading
  | .or => ∀ rest, rest.head? ≠ some "WITH" → rest.head? ≠ some "AND" →
      LevelReads "OR" or (parseAnd parseOr) vs rest x.reading

theorem toOption_parseOr (rest : List String) (h : Reads x vs .or)
    (hwith : rest.head? ≠ some "WITH") (hand : rest.head? ≠ some "AND")
    (hor : rest.head? ≠ some "OR") :
    (parseOr (vs ++ rest)).toOption = x.reading.map (·, rest) := by
  rw [parseOr_eq]
  exact (h rest hwith hand).toOption_level hor

theorem toOption_parseAnd (h : Reads x vs .and) (hwith : rest.head? ≠ some "WITH")
    (hand : rest.head? ≠ some "AND") :
    (parseAnd parseOr (vs ++ rest)).toOption = x.reading.map (·, rest) :=
  (h rest hwith).toOption_level hand

theorem reads_license {id : Name} (h : readWords [id.text] = some vs) :
    Reads (.license id) vs .primary := by
  intro rest
  by_cases hkeyword : StartsWithKeyword id.text.toList
  · -- The parser finds the keyword where it wants an id.
    obtain ⟨k, hk, hprefix⟩ := hkeyword
    have hnone : (Expression.license id).reading = none := if_pos ⟨k, hk, hprefix⟩
    rw [readWords, tokens_of_keyword hk hprefix] at h
    obtain ⟨front, hfront, h⟩ := Option.bind_eq_some_iff.1 h
    obtain ⟨more, -, rfl⟩ := Option.map_eq_some_iff.1 hfront
    obtain ⟨_, -, rfl⟩ := Option.map_eq_some_iff.1 h
    rw [hnone]
    cases hread : parsePrimary parseOr (k :: more ++ _ ++ rest) with
    | error e => rfl
    | ok found =>
        exfalso
        obtain ⟨inner, heq, -⟩ | ⟨token, heq, htoken, -⟩ := parsePrimary_eq_ok_iff.1 hread
        · obtain rfl := List.head_eq_of_cons_eq heq
          exact absurd hk (by decide)
        · obtain rfl := List.head_eq_of_cons_eq heq
          exact htoken (List.mem_append_left ["(", ")"] hk)
  · have hvs := h.symm.trans (readWords_cons_self (tokens_name hkeyword) rfl)
    obtain rfl := Option.some.inj hvs
    have hsome : (Expression.license id).reading = some _ := if_neg hkeyword
    rw [hsome]
    exact Result.toOption_eq_some_iff.2
      (parsePrimary_eq_ok_iff.2 (.inr ⟨id.text, rfl, id.notMem_syntax, rfl⟩))

theorem reads_parens (h : Reads x vs .or) : Reads x ("(" :: (vs ++ [")"])) .primary := by
  intro rest
  have hinner := toOption_parseOr (")" :: rest) h (by simp) (by simp) (by simp)
  rw [List.cons_append, List.append_assoc, List.singleton_append]
  cases hreading : x.reading with
  | none =>
      rw [hreading] at hinner
      cases hread : parsePrimary parseOr ("(" :: (vs ++ ")" :: rest)) with
      | error e => rfl
      | ok found =>
          exfalso
          obtain ⟨inner, heq, hfound⟩ | ⟨token, heq, htoken, -⟩ := parsePrimary_eq_ok_iff.1 hread
          · obtain rfl := List.tail_eq_of_cons_eq heq
            rw [hfound] at hinner
            cases hinner
          · obtain rfl := List.head_eq_of_cons_eq heq
            exact absurd (by decide) htoken
  | some a =>
      rw [hreading] at hinner
      exact Result.toOption_eq_some_iff.2
        (parsePrimary_eq_ok_iff.2 (.inl ⟨_, rfl, Result.toOption_eq_some_iff.1 hinner⟩))

theorem reads_excepted (h : Reads x vs .primary) : Reads x vs .excepted := by
  intro rest hwith
  have hprimary := h rest
  cases hreading : x.reading with
  | none =>
      rw [hreading] at hprimary
      unfold parseWith
      rw [Result.toOption_bind, hprimary]
      rfl
  | some a =>
      rw [hreading] at hprimary
      exact Result.toOption_eq_some_iff.2
        (parseWith_eq_ok_iff.2 (.inr ⟨hwith, Result.toOption_eq_some_iff.1 hprimary⟩))

theorem reads_withException {id exception : Name} (h : Reads (.license id) vs .primary) :
    Reads (.withException id exception) (vs ++ ["WITH", exception.text]) .excepted := by
  intro rest _
  have hprimary := h ("WITH" :: exception.text :: rest)
  rw [List.append_assoc]
  unfold Expression.reading at hprimary ⊢
  split at hprimary
  · rename_i hkeyword
    rw [if_pos hkeyword]
    unfold parseWith
    rw [Result.toOption_bind, List.cons_append, List.singleton_append, hprimary]
    rfl
  · rename_i hkeyword
    rw [if_neg hkeyword]
    exact Result.toOption_eq_some_iff.2 (parseWith_eq_ok_iff.2
      (.inl ⟨_, exception.text, Result.toOption_eq_some_iff.1 hprimary, rfl⟩))

/-- The methods read what an expression is written as. -/
theorem reads_of_prints (h : Prints lvl x ts) (hexceptions : x.ExceptionsWhole)
    (hwords : readWords ts = some vs) : Reads x vs lvl := by
  induction h generalizing vs with
  | license id => exact reads_license hwords
  | parens _ ih =>
      obtain ⟨behind, hbehind, rfl⟩ := (readWords_cons_eq_some rfl).1 hwords
      obtain ⟨inner, last, hinner, hlast, rfl⟩ := readWords_append_eq_some.1 hbehind
      obtain rfl := Option.some.inj hlast
      exact reads_parens (ih hexceptions hinner)
  | primary _ ih => exact reads_excepted (ih hexceptions hwords)
  | withException exception _ ih =>
      have hexception := tokens_name (hexceptions exception (List.mem_singleton_self _))
      obtain ⟨front, last, hfront, hlast, rfl⟩ := readWords_append_eq_some.1 hwords
      obtain rfl := Option.some.inj
        (hlast.symm.trans (readWords_cons_self rfl (readWords_cons_self hexception rfl)))
      exact reads_withException (ih (fun _ hmem => by cases hmem) hfront)
  | excepted _ ih =>
      intro rest hwith
      exact Descent.levelReads_item (shrinks_parseWith shrinks_parseOr)
        (ih hexceptions hwords rest hwith)
  | and _ _ ihleft ihright =>
      obtain ⟨hexceptions, hexceptions'⟩ := List.forall_mem_append.1 hexceptions
      obtain ⟨front, behind, hfront, hbehind, rfl⟩ := readWords_append_eq_some.1 hwords
      obtain ⟨next, hnext, rfl⟩ := (readWords_cons_eq_some rfl).1 hbehind
      intro rest hwith
      exact Descent.levelReads_append Bool.and_assoc (ihleft hexceptions hfront _ (by simp))
        (ihright hexceptions' hnext rest hwith)
  | requirement _ ih =>
      intro rest hwith hand
      exact Descent.levelReads_item (shrinks_parseAnd shrinks_parseOr)
        (toOption_parseAnd (ih hexceptions hwords) hwith hand)
  | or _ _ ihleft ihright =>
      obtain ⟨hexceptions, hexceptions'⟩ := List.forall_mem_append.1 hexceptions
      obtain ⟨front, behind, hfront, hbehind, rfl⟩ := readWords_append_eq_some.1 hwords
      obtain ⟨next, hnext, rfl⟩ := (readWords_cons_eq_some rfl).1 hbehind
      intro rest hwith hand
      exact Descent.levelReads_append Bool.or_assoc
        (ihleft hexceptions hfront _ (by simp) (by simp))
        (ihright hexceptions' hnext rest hwith hand)

/-- The verdict on a text of an expression is the value of the expression exactly when no id begins
with a keyword. -/
theorem compatible_eq_value_iff {text : String} (htext : x.SpelledBy text)
    (hexceptions : x.ExceptionsWhole) : compatible text = .ok x.value ↔ x.IdsWhole := by
  obtain ⟨ts, hprints, hspells⟩ := htext
  have htokens : (tokenize text).toOption = readWords ts := tokens_of_spells hspells
  rw [compatible_eq_ok_iff]
  constructor
  · rintro ⟨vs, hvs, hread⟩
    rw [hvs] at htokens
    have hreads := toOption_parseOr []
      (reads_of_prints hprints hexceptions htokens.symm) (by simp) (by simp) (by simp)
    rw [List.append_nil, hread] at hreads
    obtain ⟨a, hreading, -⟩ := Option.map_eq_some_iff.1 hreads.symm
    exact Expression.idsWhole_of_reading hreading
  · intro hids
    have hwords := readWords_of_prints hprints hids hexceptions
    have hreads := toOption_parseOr []
      (reads_of_prints hprints hexceptions hwords) (by simp) (by simp) (by simp)
    rw [List.append_nil, Expression.reading_of_idsWhole hids] at hreads
    exact ⟨ts, Result.toOption_eq_some_iff.1 (htokens.trans hwords),
      Result.toOption_eq_some_iff.1 hreads⟩

end

end Gitseer.Licenses
