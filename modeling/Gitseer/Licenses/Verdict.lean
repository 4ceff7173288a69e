/-
**What a favourable verdict means.**

Where the verdict on a text is favourable, the text should be one of an approved expression.  The
parser lets more through: it takes words apart that begin with a keyword, it lets `WITH` stand
behind any closing parenthesis, and it takes any token for the name of an exception.

Main definitions:

* `WellWorded` — no word is taken apart, and every `WITH` stands between an id, in parentheses or
  not, and a name.

Main results:

* `isLicense_of_afterName` — what stands before such a `WITH` is an id;
* `exists_prints_of_parseOr` — what the parser reads in such tokens is an expression;
* `wellWorded_of_prints` — the tokens of an expression that keeps its names are such tokens;
* `compatible_correct_iff` — where the verdict is the value of the expression, and where a
  favourable verdict is that of an approved expression.
-/

import Gitseer.Licenses.Evaluation

set_option relaxedAutoImplicit false
set_option autoImplicit false

open Descent (Parser level)

namespace Gitseer.Licenses

/-! ### Well-worded tokens -/

/-- The tokens end with an id, in parentheses or not. -/
def AfterName (ts : List String) : Prop :=
  ∃ (k : ℕ) (id : Name), (List.replicate k "(" ++ id.text :: List.replicate k ")") <:+ ts

/-- The tokens begin with a name. -/
def BeforeName (ts : List String) : Prop :=
  ∃ (name : Name) (rest : List String), ts = name.text :: rest

/-- No word is taken apart, and every `WITH` stands between an id and a name. -/
structure WellWorded (ts : List String) : Prop where
  whole : ∀ w ∈ ts, StartsWithKeyword w.toList → w ∈ keywords
  exceptions : ∀ before behind, ts = before ++ "WITH" :: behind →
    AfterName before ∧ BeforeName behind

section

variable {x : Expression} {lvl : Level} {ts us rest : List String} {a : Bool}

theorem AfterName.append (before : List String) (h : AfterName ts) : AfterName (before ++ ts) := by
  obtain ⟨k, id, hsuffix⟩ := h
  exact ⟨k, id, hsuffix.trans (List.suffix_append _ _)⟩

theorem BeforeName.append (behind : List String) (h : BeforeName ts) :
    BeforeName (ts ++ behind) := by
  obtain ⟨name, rest, rfl⟩ := h
  exact ⟨name, rest ++ behind, rfl⟩

/-! ### The operand of an exception -/

theorem Name.text_injective : Function.Injective Name.text := by
  rintro ⟨a, _, _⟩ ⟨b, _, _⟩ rfl
  rfl

theorem concat_inj {before before' : List String} {t t' : String}
    (h : before ++ [t] = before' ++ [t']) : before = before' ∧ t = t' := by
  obtain ⟨hbefore, hlast⟩ := List.append_inj' h rfl
  exact ⟨hbefore, List.head_eq_of_cons_eq hlast⟩

/-- A closing parenthesis is the last token where there is one. -/
theorem nested_succ (k j : ℕ) (t : String) :
    List.replicate k "(" ++ t :: List.replicate (j + 1) ")" =
      (List.replicate k "(" ++ t :: List.replicate j ")") ++ [")"] := by
  rw [List.replicate_succ']
  simp

/-- Before more opening parentheses than closing ones there is no operator. -/
theorem nested_ne {k j : ℕ} {t : String} {before before' : List String} (op : String)
    (hkj : j < k) (hop : op ≠ "(") : before ++ (List.replicate k "(" ++ t :: List.replicate j ")") ≠
      before' ++ op :: (List.replicate j "(" ++ t :: List.replicate j ")") := by
  intro h
  obtain ⟨m, rfl⟩ := Nat.exists_eq_add_of_lt hkj
  have hcount : j + m + 1 = m + 1 + j := by omega
  rw [hcount, List.replicate_add, List.append_assoc, ← List.append_assoc before,
    List.append_cons before'] at h
  have hfront := List.append_cancel_right h
  rw [List.replicate_succ', ← List.append_assoc] at hfront
  exact hop (concat_inj hfront).2.symm

/-- So an operand with more of them in front of it is not behind an operator. -/
theorem nested_ne_operands {k j : ℕ} {t : String} {before before' : List String} (op : String)
    (hkj : j < k) (hop : op ≠ "(")
    (hus : ∀ front, before ++ (List.replicate k "(" ++ t :: List.replicate j ")") = front ++ us →
      us = List.replicate j "(" ++ t :: List.replicate j ")") :
    before ++ (List.replicate k "(" ++ t :: List.replicate j ")") ≠
      before' ++ (ts ++ op :: us) := by
  intro h
  have hright := h
  rw [List.append_cons ts, ← List.append_assoc before'] at hright
  obtain rfl := hus _ hright
  rw [← List.append_assoc before'] at h
  exact nested_ne op hkj hop h

/-- An expression that ends with an id, behind more opening parentheses than there are closing ones
behind it, is that id. -/
theorem isLicense_of_suffix {id : Name} {before before' : List String} {k j : ℕ} (hkj : j < k)
    (h : Prints lvl x ts)
    (hts : before ++ (List.replicate k "(" ++ id.text :: List.replicate j ")") = before' ++ ts) :
    x = .license id ∧ ts = List.replicate j "(" ++ id.text :: List.replicate j ")" := by
  -- `k` stays and `j` goes down with the parentheses; where none is left the last token is the id.
  induction h generalizing before before' j with
  | license n =>
      cases j with
      | zero =>
          rw [List.replicate_zero, ← List.append_assoc] at hts
          have hname := (concat_inj hts).2
          obtain rfl := Name.text_injective hname
          exact ⟨rfl, rfl⟩
      | succ i =>
          rw [nested_succ, ← List.append_assoc] at hts
          exact absurd (by rw [← (concat_inj hts).2]; decide) n.notMem_syntax
  | @parens x ts _ ih =>
      rw [List.append_cons before', ← List.append_assoc (before' ++ _)] at hts
      cases j with
      | zero =>
          rw [List.replicate_zero, ← List.append_assoc] at hts
          exact absurd (by rw [(concat_inj hts).2]; decide) id.notMem_syntax
      | succ i =>
          rw [nested_succ, ← List.append_assoc] at hts
          obtain ⟨rfl, rfl⟩ := ih (by omega) (concat_inj hts).1
          refine ⟨rfl, ?_⟩
          rw [nested_succ, List.replicate_succ]
          rfl
  | primary _ ih => exact ih hkj hts
  | @withException id' ts exception _ ih =>
      have hback : before' ++ (ts ++ ["WITH", exception.text]) =
          (before' ++ (ts ++ ["WITH"])) ++ [exception.text] := by simp
      rw [hback] at hts
      cases j with
      | zero =>
          rw [List.replicate_zero, ← List.append_assoc] at hts
          obtain ⟨m, rfl⟩ := Nat.exists_eq_add_of_lt hkj
          have hfront := (concat_inj hts).1
          rw [List.replicate_succ', ← List.append_assoc, ← List.append_assoc] at hfront
          exact absurd (concat_inj hfront).2 (by decide)
      | succ i =>
          rw [nested_succ, ← List.append_assoc] at hts
          exact absurd (by rw [← (concat_inj hts).2]; decide) exception.notMem_syntax
  | excepted _ ih => exact ih hkj hts
  | and _ _ _ ih =>
      exact absurd hts (nested_ne_operands "AND" hkj (by decide) fun _ h => (ih hkj h).2)
  | requirement _ ih => exact ih hkj hts
  | or _ _ _ ih =>
      exact absurd hts (nested_ne_operands "OR" hkj (by decide) fun _ h => (ih hkj h).2)

/-- What stands before a `WITH` that stands behind an id is an id. -/
theorem isLicense_of_afterName {before : List String} (h : Prints .primary x ts)
    (hafter : AfterName (before ++ ts)) : ∃ id, x = .license id := by
  cases h with
  | license id => exact ⟨id, rfl⟩
  | parens h =>
      obtain ⟨k, id, front, hts⟩ := hafter
      rw [List.append_cons before, ← List.append_assoc (before ++ _)] at hts
      cases k with
      | zero => exact absurd (by rw [(concat_inj hts).2]; decide) id.notMem_syntax
      | succ j =>
          rw [nested_succ, ← List.append_assoc] at hts
          exact ⟨id, (isLicense_of_suffix (Nat.lt_succ_self j) h (concat_inj hts).1).1⟩

/-! ### What the parser reads -/

/-- The tokens are parentheses and words. -/
def AreTokens (ts : List String) : Prop := ∀ t ∈ ts, t = "(" ∨ t = ")" ∨ isWord t.toList = true

/-- What the method reads at the end of the tokens is an expression with the value that it gives. -/
def SoundAt (ts : List String) (lvl : Level) (method : Parser String ValueError Bool) : Prop :=
  ∀ before behind a rest, ts = before ++ behind → method behind = .ok (a, rest) →
    ∃ x us, behind = us ++ rest ∧ Prints lvl x us ∧ a = x.value

variable {g : Parser String ValueError Bool}

theorem soundAt_parsePrimary (htokens : AreTokens ts) (hg : SoundAt ts .or g) :
    SoundAt ts .primary (parsePrimary g) := by
  intro before behind a rest hts h
  obtain ⟨inner, rfl, hinner⟩ | ⟨id, rfl, hid, rfl⟩ := parsePrimary_eq_ok_iff.1 h
  · rw [List.append_cons] at hts
    obtain ⟨x, us, rfl, hprints, rfl⟩ := hg _ inner a _ hts hinner
    exact ⟨x, _, by simp, .parens hprints, rfl⟩
  · have hword : isWord id.toList = true := by
      rcases htokens id (by rw [hts]; simp) with rfl | rfl | hword
      · exact absurd (by decide) hid
      · exact absurd (by decide) hid
      · exact hword
    have hkeyword : id ∉ keywords := fun hmem => hid (List.mem_append_left ["(", ")"] hmem)
    exact ⟨.license ⟨id, hword, hkeyword⟩, [id], rfl, .license ⟨id, hword, hkeyword⟩, rfl⟩

theorem soundAt_parseWith (hwell : WellWorded ts) (hg : SoundAt ts .primary (parsePrimary g)) :
    SoundAt ts .excepted (parseWith g) := by
  intro before behind a rest hts h
  obtain ⟨front, token, hfront, rfl⟩ | ⟨-, hfront⟩ := parseWith_eq_ok_iff.1 h
  · obtain ⟨x, us, rfl, hprints, rfl⟩ := hg before behind front _ hts hfront
    rw [← List.append_assoc] at hts
    -- The parser takes any primary and any token here; it is the text that allows an id and a name.
    obtain ⟨hafter, hbefore⟩ := hwell.exceptions _ _ hts
    obtain ⟨id, rfl⟩ := isLicense_of_afterName hprints hafter
    obtain ⟨exception, _, hexception⟩ := hbefore
    obtain ⟨rfl, rfl⟩ := List.cons.inj hexception
    exact ⟨_, _, by simp, .withException exception hprints, rfl⟩
  · obtain ⟨x, us, rfl, hprints, rfl⟩ := hg before behind a rest hts hfront
    exact ⟨x, us, rfl, .primary hprints, rfl⟩

/-- A level of operators reads expressions when its operands are. -/
theorem soundAt_level {op : String} {combine : Bool → Bool → Bool}
    {node : Expression → Expression → Expression} {inner outer : Level}
    (hinner : ∀ x us, Prints inner x us → Prints outer x us)
    (hnode : ∀ x y us vs, Prints outer x us → Prints outer y vs →
      Prints outer (node x y) (us ++ op :: vs))
    (hvalue : ∀ x y, combine x.value y.value = (node x y).value) (hg : SoundAt ts inner g) :
    SoundAt ts outer (level op combine g) := by
  intro before behind a rest hts h
  refine Descent.level_invariant
    (I := fun a rest => ∃ x us, behind = us ++ rest ∧ Prints outer x us ∧ a = x.value) ?_ ?_ h
  · intro b rest hread
    obtain ⟨x, us, rfl, hprints, rfl⟩ := hg before behind b rest hts hread
    exact ⟨x, us, rfl, hinner x us hprints, rfl⟩
  · rintro acc inner b rest ⟨x, us, rfl, hprints, rfl⟩ hread
    rw [List.append_cons us, ← List.append_assoc] at hts
    obtain ⟨y, vs, rfl, hprints', rfl⟩ := hg _ inner b rest hts hread
    exact ⟨node x y, us ++ op :: vs, by simp, hnode x y us vs hprints (hinner y vs hprints'),
      hvalue x y⟩

theorem soundAt_parseAnd (hg : SoundAt ts .excepted (parseWith g)) :
    SoundAt ts .and (parseAnd g) :=
  soundAt_level (fun _ _ => .excepted) (fun _ _ _ _ => .and) (fun _ _ => rfl) hg

theorem soundAt_alternatives (hg : SoundAt ts .and (parseAnd g)) :
    SoundAt ts .or (alternatives g) :=
  soundAt_level (fun _ _ => .requirement) (fun _ _ _ _ => .or) (fun _ _ => rfl) hg

theorem soundAt_parseOrFrom (htokens : AreTokens ts) (hwell : WellWorded ts) (n : ℕ) :
    SoundAt ts .or (parseOrFrom n) := by
  induction n with
  | zero =>
      intro before behind a rest _ h
      cases h
  | succ n ih =>
      exact soundAt_alternatives (soundAt_parseAnd
        (soundAt_parseWith hwell (soundAt_parsePrimary htokens ih)))

/-- What the parser reads in well-worded tokens is an expression with the value that it gives. -/
theorem exists_prints_of_parseOr (htokens : AreTokens ts) (hwell : WellWorded ts)
    (h : parseOr ts = .ok (a, [])) : ∃ x, Prints .or x ts ∧ a = x.value := by
  obtain ⟨x, us, hts, hprints, ha⟩ := soundAt_parseOrFrom htokens hwell ts.length [] ts a [] rfl h
  rw [List.append_nil] at hts
  exact ⟨x, hts ▸ hprints, ha⟩

theorem areTokens_of_spells {text : List Char} (h : Spells ts text) : AreTokens ts := by
  induction h with
  | nil => exact fun t ht => by cases ht
  | space _ _ ih => exact ih
  | openParen _ ih => exact List.forall_mem_cons.2 ⟨.inl rfl, ih⟩
  | closeParen _ ih => exact List.forall_mem_cons.2 ⟨.inr (.inl rfl), ih⟩
  | slash _ ih => exact List.forall_mem_cons.2 ⟨.inr (.inr (by decide)), ih⟩
  | word hw _ _ ih => exact List.forall_mem_cons.2 ⟨.inr (.inr hw), ih⟩

/-! ### The tokens of an expression -/

/-- A token in two lists put together is in one of them. -/
theorem append_eq_append_cons {before behind : List String} {t : String}
    (h : ts ++ us = before ++ t :: behind) :
    (∃ behind', ts = before ++ t :: behind' ∧ behind = behind' ++ us) ∨
      ∃ before', before = ts ++ before' ∧ us = before' ++ t :: behind := by
  rcases List.append_eq_append_iff.1 h with ⟨before', rfl, rfl⟩ | ⟨middle, rfl, hmiddle⟩
  · exact .inr ⟨before', rfl, rfl⟩
  · cases middle with
    | nil => exact .inr ⟨[], by simp, hmiddle.symm⟩
    | cons t' middle =>
        obtain ⟨rfl, rfl⟩ := List.cons.inj hmiddle
        exact .inl ⟨middle, rfl, rfl⟩

/-- What stands before the `WITH` of the operands of an operator is in one of them. -/
theorem operand_of_append {before behind : List String} {op : String} (hop : op ≠ "WITH")
    (h : ts ++ op :: us = before ++ "WITH" :: behind) :
    (∃ behind', ts = before ++ "WITH" :: behind' ∧ behind = behind' ++ op :: us) ∨
      ∃ before', before = ts ++ op :: before' ∧ us = before' ++ "WITH" :: behind := by
  rcases append_eq_append_cons h with hleft | ⟨before', rfl, hright⟩
  · exact .inl hleft
  · cases before' with
    | nil => exact absurd (List.head_eq_of_cons_eq hright) hop
    | cons t before' =>
        obtain ⟨rfl, rfl⟩ := List.cons.inj hright
        exact .inr ⟨before', rfl, rfl⟩

/-- Where that is so of two lists of tokens, every `WITH` of them and an operator between them
stands between an id and a name. -/
theorem exceptions_of_operands {op : String} (hop : op ≠ "WITH")
    (hleft : ∀ {before behind}, ts = before ++ "WITH" :: behind →
      AfterName before ∧ BeforeName behind)
    (hright : ∀ {before behind}, us = before ++ "WITH" :: behind →
      AfterName before ∧ BeforeName behind)
    {before behind : List String} (h : ts ++ op :: us = before ++ "WITH" :: behind) :
    AfterName before ∧ BeforeName behind := by
  rcases operand_of_append hop h with ⟨back, hback, rfl⟩ | ⟨front, rfl, hfront⟩
  · obtain ⟨hafter, hbefore⟩ := hleft hback
    exact ⟨hafter, hbefore.append _⟩
  · obtain ⟨hafter, hbefore⟩ := hright hfront
    rw [List.append_cons]
    exact ⟨hafter.append _, hbefore⟩

/-- An id is written as itself, in parentheses or not. -/
theorem nested_of_prints {id : Name} (h : Prints lvl (.license id) ts) :
    ∃ k, ts = List.replicate k "(" ++ id.text :: List.replicate k ")" := by
  generalize hx : Expression.license id = x at h
  induction h with
  | license id' =>
      obtain rfl := Expression.license.inj hx
      exact ⟨0, rfl⟩
  | parens _ ih =>
      obtain ⟨k, rfl⟩ := ih hx
      refine ⟨k + 1, ?_⟩
      rw [nested_succ, List.replicate_succ]
      rfl
  | primary _ ih => exact ih hx
  | withException => cases hx
  | excepted _ ih => exact ih hx
  | and => cases hx
  | requirement _ ih => exact ih hx
  | or => cases hx

/-- In the tokens of an expression every `WITH` stands between an id and a name. -/
theorem exceptions_of_prints (h : Prints lvl x ts) {before behind : List String}
    (hts : ts = before ++ "WITH" :: behind) : AfterName before ∧ BeforeName behind := by
  induction h generalizing before behind with
  | license id =>
      have hmem : "WITH" ∈ [id.text] := hts ▸ List.mem_append_right before List.mem_cons_self
      exact absurd (by rw [← List.mem_singleton.1 hmem]; decide) id.notMem_syntax
  | @parens x ts _ ih =>
      have hfirst : [] ++ "(" :: (ts ++ [")"]) = before ++ "WITH" :: behind := hts
      rcases operand_of_append (by decide) hfirst with ⟨_, hnil, -⟩ | ⟨front, rfl, hinner⟩
      · exact absurd hnil (by simp)
      · rcases append_eq_append_cons hinner with ⟨back, hback, rfl⟩ | ⟨_, -, hlast⟩
        · obtain ⟨hafter, hbefore⟩ := ih hback
          exact ⟨hafter.append ["("], hbefore.append [")"]⟩
        · have hmem : "WITH" ∈ [")"] := hlast ▸ List.mem_append_right _ List.mem_cons_self
          exact absurd hmem (by decide)
  | primary _ ih => exact ih hts
  | @withException id ts exception hid ih =>
      rcases append_eq_append_cons hts with ⟨back, hback, rfl⟩ | ⟨front, rfl, hlast⟩
      · obtain ⟨hafter, hbefore⟩ := ih hback
        exact ⟨hafter, hbefore.append _⟩
      · cases front with
        | nil =>
            obtain ⟨k, rfl⟩ := nested_of_prints hid
            obtain ⟨-, rfl⟩ := List.cons.inj hlast
            rw [List.append_nil]
            exact ⟨⟨k, id, List.suffix_refl _⟩, exception, [], rfl⟩
        | cons t front =>
            have hmem : "WITH" ∈ [exception.text] :=
              (List.cons.inj hlast).2 ▸ List.mem_append_right front List.mem_cons_self
            exact absurd (by rw [← List.mem_singleton.1 hmem]; decide) exception.notMem_syntax
  | excepted _ ih => exact ih hts
  | and _ _ ihleft ihright => exact exceptions_of_operands (by decide) ihleft ihright hts
  | requirement _ ih => exact ih hts
  | or _ _ ihleft ihright => exact exceptions_of_operands (by decide) ihleft ihright hts

/-- The words of two operands and their operator. -/
theorem word_of_operands {op : String} (hop : op ∈ ["AND", "OR", "WITH", "(", ")"])
    {ids ids' exceptions exceptions' : List Name}
    (hts : ∀ w ∈ ts, w ∈ ["AND", "OR", "WITH", "(", ")"] ∨ (∃ id ∈ ids, id.text = w) ∨
      ∃ exception ∈ exceptions, exception.text = w)
    (hus : ∀ w ∈ us, w ∈ ["AND", "OR", "WITH", "(", ")"] ∨ (∃ id ∈ ids', id.text = w) ∨
      ∃ exception ∈ exceptions', exception.text = w) :
    ∀ w ∈ ts ++ op :: us, w ∈ ["AND", "OR", "WITH", "(", ")"] ∨
      (∃ id ∈ ids ++ ids', id.text = w) ∨
      ∃ exception ∈ exceptions ++ exceptions', exception.text = w := by
  intro w hw
  rcases List.mem_append.1 hw with hw | hw
  · rcases hts w hw with hsyntax | ⟨id, hid, rfl⟩ | ⟨exception, hexception, rfl⟩
    · exact .inl hsyntax
    · exact .inr (.inl ⟨id, List.mem_append_left _ hid, rfl⟩)
    · exact .inr (.inr ⟨exception, List.mem_append_left _ hexception, rfl⟩)
  · rcases List.mem_cons.1 hw with rfl | hw
    · exact .inl hop
    · rcases hus w hw with hsyntax | ⟨id, hid, rfl⟩ | ⟨exception, hexception, rfl⟩
      · exact .inl hsyntax
      · exact .inr (.inl ⟨id, List.mem_append_right _ hid, rfl⟩)
      · exact .inr (.inr ⟨exception, List.mem_append_right _ hexception, rfl⟩)

/-- A word of an expression is an operator, a parenthesis or a name in it. -/
theorem word_of_prints (h : Prints lvl x ts) : ∀ w ∈ ts,
    w ∈ ["AND", "OR", "WITH", "(", ")"] ∨ (∃ id ∈ x.ids, id.text = w) ∨
      ∃ exception ∈ x.exceptions, exception.text = w := by
  induction h with
  | license id =>
      intro w hw
      obtain rfl := List.mem_singleton.1 hw
      exact .inr (.inl ⟨id, List.mem_singleton_self id, rfl⟩)
  | parens _ ih =>
      intro w hw
      rcases List.mem_cons.1 hw with rfl | hw
      · exact .inl (by decide)
      · rcases List.mem_append.1 hw with hw | hw
        · exact ih w hw
        · obtain rfl := List.mem_singleton.1 hw
          exact .inl (by decide)
  | primary _ ih => exact ih
  | withException exception _ ih =>
      intro w hw
      rcases List.mem_append.1 hw with hw | hw
      · rcases ih w hw with hsyntax | hid | ⟨_, hnone, -⟩
        · exact .inl hsyntax
        · exact .inr (.inl hid)
        · cases hnone
      · rcases List.mem_pair.1 hw with rfl | rfl
        · exact .inl (by decide)
        · exact .inr (.inr ⟨exception, List.mem_singleton_self exception, rfl⟩)
  | excepted _ ih => exact ih
  | and _ _ ihleft ihright => exact word_of_operands (by decide) ihleft ihright
  | requirement _ ih => exact ih
  | or _ _ ihleft ihright => exact word_of_operands (by decide) ihleft ihright

theorem exception_mem_operands {op : String} {exceptions exceptions' : List Name}
    (hts : ∀ exception ∈ exceptions, exception.text ∈ ts)
    (hus : ∀ exception ∈ exceptions', exception.text ∈ us) :
    ∀ exception ∈ exceptions ++ exceptions', exception.text ∈ ts ++ op :: us := by
  intro exception hmem
  rcases List.mem_append.1 hmem with hmem | hmem
  · exact List.mem_append_left _ (hts exception hmem)
  · exact List.mem_append_right _ (List.mem_cons_of_mem _ (hus exception hmem))

/-- The names of the exceptions are words of the expression. -/
theorem exception_mem_of_prints (h : Prints lvl x ts) :
    ∀ exception ∈ x.exceptions, exception.text ∈ ts := by
  induction h with
  | license => exact fun _ hmem => by cases hmem
  | parens _ ih =>
      intro exception hmem
      exact List.mem_cons_of_mem _ (List.mem_append_left _ (ih exception hmem))
  | primary _ ih => exact ih
  | withException exception _ _ =>
      intro exception' hmem
      obtain rfl := List.mem_singleton.1 hmem
      simp
  | excepted _ ih => exact ih
  | and _ _ ihleft ihright => exact exception_mem_operands ihleft ihright
  | requirement _ ih => exact ih
  | or _ _ ihleft ihright => exact exception_mem_operands ihleft ihright

/-- The tokens of an expression that keeps its names are well worded. -/
theorem wellWorded_of_prints (h : Prints lvl x ts) (hids : x.IdsWhole)
    (hexceptions : x.ExceptionsWhole) : WellWorded ts := by
  refine ⟨fun w hw hkeyword => ?_, fun before behind hts => exceptions_of_prints h hts⟩
  rcases word_of_prints h w hw with hsyntax | ⟨id, hid, rfl⟩ | ⟨exception, hexception, rfl⟩
  · have hsyntax : w ∈ keywords ++ ["(", ")"] := hsyntax
    rcases List.mem_append.1 hsyntax with hmem | hparen
    · exact hmem
    · rcases List.mem_pair.1 hparen with rfl | rfl
      · exact absurd hkeyword (by decide)
      · exact absurd hkeyword (by decide)
  · exact absurd hkeyword (hids id hid)
  · exact absurd hkeyword (hexceptions exception hexception)

theorem exceptionsWhole_of_wellWorded (h : Prints lvl x ts) (hwell : WellWorded ts) :
    x.ExceptionsWhole := by
  intro exception hexception hkeyword
  exact exception.notKeyword (hwell.whole _ (exception_mem_of_prints h _ hexception) hkeyword)

/-! ### The verdict -/

/-- In well-worded tokens the scanner finds just these. -/
theorem readWords_of_whole (htokens : AreTokens ts)
    (hwhole : ∀ w ∈ ts, StartsWithKeyword w.toList → w ∈ keywords) : readWords ts = some ts := by
  induction ts with
  | nil => rfl
  | cons w ts ih =>
      obtain ⟨htoken, htokens⟩ := List.forall_mem_cons.1 htokens
      obtain ⟨hw, hwhole⟩ := List.forall_mem_cons.1 hwhole
      refine readWords_cons_self ?_ (ih htokens hwhole)
      rcases htoken with rfl | rfl | hword
      · rfl
      · rfl
      · by_cases hkeyword : StartsWithKeyword w.toList
        · have hmem := hw hkeyword
          simp only [keywords, List.mem_cons, List.not_mem_nil, or_false] at hmem
          rcases hmem with rfl | rfl | rfl <;> rfl
        · rw [tokens_of_isWord hword hkeyword, String.ofList_toList]

/-- The verdict on a text of an expression whose exceptions are read whole is its value exactly when
the ids are; and a favourable verdict on a text is that of an approved such expression exactly when
the text is well worded. -/
theorem compatible_correct_iff (text : String) :
    (∀ x : Expression, x.SpelledBy text → x.ExceptionsWhole →
      (compatible text = .ok x.value ↔ x.IdsWhole)) ∧
    (compatible text = .ok true →
      ((∃ x : Expression, x.SpelledBy text ∧ x.ExceptionsWhole ∧ x.value = true) ↔
        ∃ ts, Spells ts text.toList ∧ WellWorded ts)) := by
  refine ⟨fun x => compatible_eq_value_iff, fun htrue => ?_⟩
  constructor
  · rintro ⟨x, htext, hexceptions, hvalue⟩
    -- With an id taken apart the verdict would be an error.
    have hids := (compatible_eq_value_iff htext hexceptions).1 (by rw [hvalue]; exact htrue)
    obtain ⟨ts, hprints, hspells⟩ := htext
    exact ⟨ts, hspells, wellWorded_of_prints hprints hids hexceptions⟩
  · rintro ⟨ts, hspells, hwell⟩
    have htokens := areTokens_of_spells hspells
    have hwords : (tokenize text).toOption = some ts :=
      (tokens_of_spells hspells).trans (readWords_of_whole htokens hwell.whole)
    obtain ⟨ts', hts', hread⟩ := compatible_eq_ok_iff.1 htrue
    rw [hts'] at hwords
    obtain rfl := Option.some.inj hwords
    obtain ⟨x, hprints, hvalue⟩ := exists_prints_of_parseOr htokens hwell hread
    exact ⟨x, ⟨_, hprints, hspells⟩, exceptionsWhole_of_wellWorded hprints hwell, hvalue.symm⟩

end

/-! ### Verdicts that are wrong -/

instance (x : Expression) : Decidable x.IdsWhole :=
  inferInstanceAs (Decidable (∀ id ∈ x.ids, ¬ StartsWithKeyword id.text.toList))

instance (x : Expression) : Decidable x.ExceptionsWhole :=
  inferInstanceAs
    (Decidable (∀ exception ∈ x.exceptions, ¬ StartsWithKeyword exception.text.toList))

/-- `(MIT OR Foo) AND Apache-2.0 WITH LLVM-exception`. -/
def dualLicense : Expression :=
  .and (.or (.license ⟨"MIT", by decide, by decide⟩) (.license ⟨"Foo", by decide, by decide⟩))
    (.withException ⟨"Apache-2.0", by decide, by decide⟩ ⟨"LLVM-exception", by decide, by decide⟩)

/-- The verdict on that expression. -/
theorem compatible_correct_iff_dualLicense :
    compatible dualLicense.text = .ok true ∧
      ∃ ts, Spells ts dualLicense.text.toList ∧ WellWorded ts := by
  have htext := dualLicense.spelledBy_text
  obtain ⟨hvalue, happroved⟩ := compatible_correct_iff dualLicense.text
  have htrue : compatible dualLicense.text = .ok true :=
    (hvalue dualLicense htext (by decide)).2 (by decide)
  exact ⟨htrue, (happroved htrue).1 ⟨dualLicense, htext, by decide, by decide⟩⟩

theorem spells_withAnd : Spells ["MIT", "OR", "Foo", "WITH", "AND"] "MIT OR Foo WITH AND".toList :=
  spells_between (by decide) (spells_single (by decide))
    (spells_between (by decide) (spells_single (by decide)) (spells_single (by decide)))

/-- The id `ANDROID` is an error, and a text with `AND` for the name of an exception is approved,
although it is the text of no expression. -/
theorem keywords_misread :
    compatible (Expression.license ⟨"ANDROID", by decide, by decide⟩).text =
        .error (.expectedLicenseId "AND") ∧
      compatible "MIT OR Foo WITH AND" = .ok true ∧
      ¬ ∃ x : Expression, x.SpelledBy "MIT OR Foo WITH AND" ∧ x.value = true := by
  refine ⟨by decide +kernel, by decide +kernel, ?_⟩
  rintro ⟨x, ⟨ts, hprints, hspells⟩, -⟩
  obtain rfl := spells_unique spells_withAnd hspells
  have hts : ["MIT", "OR", "Foo", "WITH", "AND"] = ["MIT", "OR", "Foo"] ++ "WITH" :: ["AND"] := rfl
  obtain ⟨-, name, rest, hname⟩ := exceptions_of_prints hprints hts
  exact name.notKeyword (by rw [← List.head_eq_of_cons_eq hname]; decide)

end Gitseer.Licenses
