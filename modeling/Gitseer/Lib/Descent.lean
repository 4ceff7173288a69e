/-
**Recursive descent over lists of tokens.**

A parser reads from the front of a list of tokens and gives back what is left of it.  A level of
binary operators reads an operand, and while the operator of the level comes next, another one.
The loop is run as often as there are tokens at most; as an operand is never empty, that bound is
not met.

Main definitions:

* `Descent.Parser`, `Descent.accept` — parsers, and the test for the next token;
* `Descent.Shrinks` — the parser reads at least one token;
* `Descent.chain`, `Descent.level` — the loop of a level of binary operators, and the level;
* `Descent.LevelReads` — what a level reads at the front of the tokens.

Main results:

* `Descent.chain_op`, `Descent.chain_stop` — one turn of the loop, and its end;
* `Descent.chain_invariant` — what every turn preserves holds at the end;
* `Descent.shrinks_level` — a level reads at least one token;
* `Descent.level_congr` — a level depends on what the operands of shorter lists are;
* `Descent.levelReads_item`, `Descent.levelReads_append` — a level reads an operand, and what two
  lists of operands with the operator between them are.
-/

import Gitseer.Lib.Result

set_option relaxedAutoImplicit false
set_option autoImplicit false

namespace Descent

/-! ### Parsers -/

/-- A parser reads from the front of the tokens, and gives back what is left. -/
abbrev Parser (τ ε α : Type) := List τ → Except ε (α × List τ)

section

variable {τ ε α : Type} [DecidableEq τ] {op : τ} {combine : α → α → α} {item : Parser τ ε α}
  {acc a : α} {ts rest : List τ}

/-- The tokens behind the given one, when it comes next. -/
def accept (op : τ) : List τ → Option (List τ)
  | [] => none
  | t :: rest => if t = op then some rest else none

theorem accept_self (op : τ) (rest : List τ) : accept op (op :: rest) = some rest := if_pos rfl

theorem accept_eq_some_iff : accept op ts = some rest ↔ ts = op :: rest := by
  cases ts with
  | nil => simp [accept]
  | cons t ts => by_cases h : t = op <;> simp [accept, h]

theorem accept_eq_none_iff : accept op ts = none ↔ ts.head? ≠ some op := by
  cases ts with
  | nil => simp [accept]
  | cons t ts => by_cases h : t = op <;> simp [accept, h]

/-- The parser reads at least one token. -/
def Shrinks (p : Parser τ ε α) : Prop :=
  ∀ ts a rest, p ts = .ok (a, rest) → rest.length < ts.length

/-! ### The loop of a level -/

/-- The loop, with a bound on its turns. -/
def chainFrom (op : τ) (combine : α → α → α) (item : Parser τ ε α) : ℕ → α → Parser τ ε α
  | 0, acc, ts => .ok (acc, ts)
  | n + 1, acc, ts =>
      match accept op ts with
      | none => .ok (acc, ts)
      | some rest => item rest >>= fun next =>
          chainFrom op combine item n (combine acc next.1) next.2

/-- While the operator comes next, another item is read and combined with the result so far. -/
def chain (op : τ) (combine : α → α → α) (item : Parser τ ε α) (acc : α) : Parser τ ε α :=
  fun ts => chainFrom op combine item ts.length acc ts

/-- Any bound that is not below the number of tokens does. -/
theorem chainFrom_eq_chain (hitem : Shrinks item) {n : ℕ} (hn : ts.length ≤ n) :
    chainFrom op combine item n acc ts = chain op combine item acc ts := by
  -- Two bounds are compared, as the one of `chain` changes from turn to turn.
  have hsame : ∀ n m acc (ts : List τ), ts.length ≤ n → ts.length ≤ m →
      chainFrom op combine item n acc ts = chainFrom op combine item m acc ts := by
    intro n
    induction n with
    | zero =>
        intro m acc ts hn _
        obtain rfl := List.length_eq_zero_iff.1 (Nat.le_zero.1 hn)
        cases m <;> rfl
    | succ n ih =>
        intro m acc ts hn hm
        cases m with
        | zero =>
            obtain rfl := List.length_eq_zero_iff.1 (Nat.le_zero.1 hm)
            rfl
        | succ m =>
            unfold chainFrom
            cases haccept : accept op ts with
            | none => rfl
            | some rest =>
                obtain rfl := accept_eq_some_iff.1 haccept
                dsimp only
                cases hread : item rest with
                | error e => rfl
                | ok next =>
                    have hnext := hitem rest next.1 next.2 hread
                    rw [List.length_cons] at hn hm
                    exact ih m _ next.2 (by omega) (by omega)
  exact hsame n ts.length acc ts hn (Nat.le_refl _)

/-- Without the operator the loop ends. -/
theorem chain_stop (h : ts.head? ≠ some op) : chain op combine item acc ts = .ok (acc, ts) := by
  unfold chain
  cases ts with
  | nil => rfl
  | cons t ts =>
      have hstop : accept op (t :: ts) = none := accept_eq_none_iff.2 h
      simp only [List.length_cons, chainFrom, hstop]

/-- With the operator the loop makes another turn. -/
theorem chain_op (hitem : Shrinks item) : chain op combine item acc (op :: ts) =
    item ts >>= fun next => chain op combine item (combine acc next.1) next.2 := by
  have hturn : chain op combine item acc (op :: ts) =
      item ts >>= fun next => chainFrom op combine item ts.length (combine acc next.1) next.2 := by
    unfold chain
    simp only [List.length_cons, chainFrom, accept_self]
  rw [hturn]
  cases hread : item ts with
  | error e => rfl
  | ok next => exact chainFrom_eq_chain hitem (Nat.le_of_lt (hitem ts next.1 next.2 hread))

/-- What every turn of the loop preserves holds at its end. -/
theorem chain_invariant {I : α → List τ → Prop}
    (hstep : ∀ acc ts b rest, I acc (op :: ts) → item ts = .ok (b, rest) → I (combine acc b) rest)
    (hI : I acc ts) (h : chain op combine item acc ts = .ok (a, rest)) : I a rest := by
  have hrun : ∀ n acc ts, I acc ts → chainFrom op combine item n acc ts = .ok (a, rest) →
      I a rest := by
    intro n
    induction n with
    | zero =>
        intro acc ts hI h
        obtain ⟨rfl, rfl⟩ := Prod.mk.inj (Except.ok.inj h)
        exact hI
    | succ n ih =>
        intro acc ts hI h
        unfold chainFrom at h
        split at h
        · obtain ⟨rfl, rfl⟩ := Prod.mk.inj (Except.ok.inj h)
          exact hI
        · rename_i behind haccept
          obtain rfl := accept_eq_some_iff.1 haccept
          obtain ⟨next, hnext, h⟩ := Result.bind_eq_ok.1 h
          exact ih _ _ (hstep acc behind next.1 next.2 hI hnext) h
  exact hrun ts.length acc ts hI h

/-- The loop does not add tokens. -/
theorem chain_length_le (hitem : Shrinks item)
    (h : chain op combine item acc ts = .ok (a, rest)) : rest.length ≤ ts.length := by
  refine chain_invariant (I := fun _ us => us.length ≤ ts.length) ?_ (Nat.le_refl _) h
  intro acc us b rest hI hread
  have hread := hitem us b rest hread
  rw [List.length_cons] at hI
  omega

/-- The loop reads items behind its first token only. -/
theorem chain_congr {item' : Parser τ ε α} (hitem : Shrinks item) (hitem' : Shrinks item')
    (h : ∀ us, us.length < ts.length → item us = item' us) :
    chain op combine item acc ts = chain op combine item' acc ts := by
  -- By the number of tokens: a turn of the loop leaves fewer, and the items of fewer tokens agree.
  induction hn : ts.length using Nat.strongRecOn generalizing acc ts with
  | ind n ih =>
      by_cases hop : ts.head? = some op
      · obtain ⟨rest, rfl⟩ := List.head?_eq_some_iff.1 hop
        rw [List.length_cons] at hn h
        rw [chain_op hitem, chain_op hitem', h rest (by omega)]
        cases hread : item' rest with
        | error e => rfl
        | ok next =>
            have hnext := hitem' rest next.1 next.2 hread
            exact ih next.2.length (by omega) (fun us hus => h us (by omega)) rfl
      · rw [chain_stop hop, chain_stop hop]

/-! ### A level -/

/-- A level of binary operators: an operand, and the loop. -/
def level (op : τ) (combine : α → α → α) (item : Parser τ ε α) : Parser τ ε α :=
  fun ts => item ts >>= fun first => chain op combine item first.1 first.2

/-- A level reads at least one token. -/
theorem shrinks_level (hitem : Shrinks item) : Shrinks (level op combine item) := by
  intro ts a rest h
  obtain ⟨first, hfirst, h⟩ := Result.bind_eq_ok.1 h
  have hfirst := hitem ts first.1 first.2 hfirst
  have hloop := chain_length_le hitem h
  omega

theorem level_congr {item' : Parser τ ε α} (hitem : Shrinks item) (hitem' : Shrinks item')
    (h : ∀ us, us.length ≤ ts.length → item us = item' us) :
    level op combine item ts = level op combine item' ts := by
  unfold level
  rw [h ts (Nat.le_refl _)]
  cases hread : item' ts with
  | error e => rfl
  | ok first =>
      have hfirst := hitem' ts first.1 first.2 hread
      exact chain_congr hitem hitem' fun us hus => h us (by omega)

/-- What every turn of the loop of a level preserves holds at the end of the level. -/
theorem level_invariant {I : α → List τ → Prop}
    (hfirst : ∀ b rest, item ts = .ok (b, rest) → I b rest)
    (hstep : ∀ acc ts b rest, I acc (op :: ts) → item ts = .ok (b, rest) → I (combine acc b) rest)
    (h : level op combine item ts = .ok (a, rest)) : I a rest := by
  obtain ⟨first, hread, h⟩ := Result.bind_eq_ok.1 h
  exact chain_invariant hstep (hfirst first.1 first.2 hread) h

/-! ### What a level reads -/

/-- At the front of the tokens the level reads the given ones with the given value, or fails among
them: as its first operands, and as its next ones. -/
structure LevelReads (op : τ) (combine : α → α → α) (item : Parser τ ε α) (ts rest : List τ)
    (value : Option α) : Prop where
  first : (level op combine item (ts ++ rest)).toOption =
    value.bind fun a => (chain op combine item a rest).toOption
  next : ∀ acc, (chain op combine item acc (op :: (ts ++ rest))).toOption =
    value.bind fun a => (chain op combine item (combine acc a) rest).toOption

/-- Where the operator does not come next, the level ends behind what it reads. -/
theorem LevelReads.toOption_level {value : Option α}
    (h : LevelReads op combine item ts rest value) (hstop : rest.head? ≠ some op) :
    (level op combine item (ts ++ rest)).toOption = value.map (·, rest) := by
  rw [h.first]
  cases value with
  | none => rfl
  | some a =>
      rw [Option.bind_some, chain_stop hstop]
      rfl

/-- A level reads an operand. -/
theorem levelReads_item {value : Option α} (hitem : Shrinks item)
    (h : (item (ts ++ rest)).toOption = value.map (·, rest)) :
    LevelReads op combine item ts rest value := by
  constructor
  · rw [level, Result.toOption_bind, h]
    cases value <;> rfl
  · intro acc
    rw [chain_op hitem, Result.toOption_bind, h]
    cases value <;> rfl

/-- A level reads two lists of operands with the operator between them. -/
theorem levelReads_append {us : List τ} {value value' : Option α}
    (hassoc : ∀ a b c, combine (combine a b) c = combine a (combine b c))
    (hts : LevelReads op combine item ts (op :: (us ++ rest)) value)
    (hus : LevelReads op combine item us rest value') :
    LevelReads op combine item (ts ++ op :: us) rest
      (value.bind fun a => value'.map (combine a)) := by
  constructor
  · rw [List.append_assoc, List.cons_append, hts.first]
    cases value with
    | none => rfl
    | some a =>
        rw [Option.bind_some, hus.next]
        cases value' <;> rfl
  · intro acc
    rw [List.append_assoc, List.cons_append, hts.next]
    cases value with
    | none => rfl
    | some a =>
        rw [Option.bind_some, hus.next]
        cases value' with
        | none => rfl
        | some b => simp [hassoc]

end

end Descent
