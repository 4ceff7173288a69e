/-
**Ordered sets and maps as strictly ascending lists.**

The collections `BTreeSet` and `BTreeMap` of the standard library are modelled by their
iteration order: a set is the strictly ascending list of its elements, a map the list of its
bindings with strictly ascending keys.  The order is a field of the structure, so a list that is
out of order or has a repeated key is not a value of the type, and two sets with the same elements
are equal.

Main definitions:

* `BTreeSet`, `BTreeSet.insert`, `BTreeSet.ofList`, `BTreeSet.difference`;
* `BTreeMap`, `BTreeMap.insert`, `BTreeMap.get`, `BTreeMap.ofList`, `BTreeMap.keys`.

Main results:

* `BTreeSet.mem_insert`, `BTreeSet.mem_ofList`, `BTreeSet.mem_difference`;
* `BTreeSet.eq_of_ascending` — strictly ascending lists with the same elements are equal;
* `BTreeMap.get_insert`, `BTreeMap.mem_keys`;
* `BTreeMap.get_ofList` — collecting bindings keeps the last one of every key.
-/

import Mathlib.Data.List.Induction
import Mathlib.Order.Lattice

set_option relaxedAutoImplicit false
set_option autoImplicit false

/-! ### Sets -/

/-- A set, as the strictly ascending list of its elements. -/
structure BTreeSet (α : Type*) [LinearOrder α] where
  toList : List α
  /-- The elements are strictly ascending. -/
  ascending : toList.Pairwise (· < ·)

namespace BTreeSet

variable {α : Type*} [LinearOrder α]

/-- Strictly ascending lists with the same elements are equal. -/
theorem eq_of_ascending {l l' : List α} (h : l.Pairwise (· < ·)) (h' : l'.Pairwise (· < ·))
    (hmem : ∀ a, a ∈ l ↔ a ∈ l') : l = l' := by
  have hperm : l.Perm l' :=
    (List.perm_ext_iff_of_nodup (h.imp ne_of_lt) (h'.imp ne_of_lt)).2 hmem
  exact hperm.eq_of_pairwise (fun a b _ _ hab hba => absurd hab (lt_asymm hba)) h h'

instance : Membership α (BTreeSet α) := ⟨fun s a => a ∈ s.toList⟩

instance (a : α) (s : BTreeSet α) : Decidable (a ∈ s) :=
  inferInstanceAs (Decidable (a ∈ s.toList))

theorem mem_iff {a : α} {s : BTreeSet α} : a ∈ s ↔ a ∈ s.toList := Iff.rfl

/-- The empty set. -/
def empty : BTreeSet α := ⟨[], List.Pairwise.nil⟩

/-- Insertion into an ascending list; an element that is there already stays. -/
def insertList (a : α) : List α → List α
  | [] => [a]
  | b :: l => if a < b then a :: b :: l else if a = b then b :: l else b :: insertList a l

theorem mem_insertList (a c : α) (l : List α) : c ∈ insertList a l ↔ c = a ∨ c ∈ l := by
  induction l with
  | nil => simp [insertList]
  | cons b l ih =>
      unfold insertList
      split
      · simp
      · split
        · next h => subst h; simp
        · simp only [List.mem_cons, ih]
          tauto

theorem insertList_ascending (a : α) {l : List α} (h : l.Pairwise (· < ·)) :
    (insertList a l).Pairwise (· < ·) := by
  induction l with
  | nil => simp [insertList]
  | cons b l ih =>
      obtain ⟨hb, hl⟩ := List.pairwise_cons.1 h
      unfold insertList
      split
      · next hab =>
          refine List.pairwise_cons.2 ⟨?_, h⟩
          intro c hc
          rcases List.mem_cons.1 hc with rfl | hc
          · exact hab
          · exact lt_trans hab (hb c hc)
      · split
        · exact h
        · next hab hne =>
            refine List.pairwise_cons.2 ⟨?_, ih hl⟩
            intro c hc
            rcases (mem_insertList a c l).1 hc with rfl | hc
            · exact lt_of_le_of_ne (not_lt.1 hab) (Ne.symm hne)
            · exact hb c hc

/-- Insertion. -/
def insert (a : α) (s : BTreeSet α) : BTreeSet α :=
  ⟨insertList a s.toList, insertList_ascending a s.ascending⟩

@[simp] theorem mem_insert {a c : α} {s : BTreeSet α} : c ∈ s.insert a ↔ c = a ∨ c ∈ s :=
  mem_insertList a c s.toList

/-- The elements of a list, collected into a set. -/
def ofList : List α → BTreeSet α
  | [] => empty
  | a :: l => (ofList l).insert a

@[simp] theorem mem_ofList {c : α} {l : List α} : c ∈ ofList l ↔ c ∈ l := by
  induction l with
  | nil => simp [ofList, empty, mem_iff]
  | cons a l ih => simp [ofList, ih]

/-- The elements of `s` that are not in `t`. -/
def difference (s t : BTreeSet α) : BTreeSet α :=
  ⟨s.toList.filter fun a => decide (a ∉ t), s.ascending.filter _⟩

@[simp] theorem mem_difference {a : α} {s t : BTreeSet α} :
    a ∈ s.difference t ↔ a ∈ s ∧ a ∉ t := by
  simp [difference, mem_iff]

/-- A difference is empty exactly when the first set is contained in the second. -/
theorem difference_eq_nil {s t : BTreeSet α} :
    (s.difference t).toList = [] ↔ ∀ a ∈ s, a ∈ t := by
  simp only [difference, List.filter_eq_nil_iff, decide_eq_true_eq, not_not]
  exact Iff.rfl

end BTreeSet

/-! ### Maps -/

/-- A map, as the list of its bindings with strictly ascending keys. -/
structure BTreeMap (κ : Type*) (β : Type*) [LinearOrder κ] where
  toList : List (κ × β)
  /-- The keys are strictly ascending. -/
  ascending : (toList.map Prod.fst).Pairwise (· < ·)

namespace BTreeMap

variable {κ : Type*} {β : Type*} [LinearOrder κ]

/-- The empty map. -/
def empty : BTreeMap κ β := ⟨[], List.Pairwise.nil⟩

/-- Insertion into an ascending list of bindings; the value of an existing key is replaced. -/
def insertList (k : κ) (v : β) : List (κ × β) → List (κ × β)
  | [] => [(k, v)]
  | (k', v') :: l =>
      if k < k' then (k, v) :: (k', v') :: l
      else if k = k' then (k', v) :: l
      else (k', v') :: insertList k v l

theorem keys_insertList (k : κ) (v : β) (l : List (κ × β)) :
    (insertList k v l).map Prod.fst = BTreeSet.insertList k (l.map Prod.fst) := by
  induction l with
  | nil => rfl
  | cons p l ih =>
      obtain ⟨k', v'⟩ := p
      simp only [insertList, List.map_cons, BTreeSet.insertList]
      split
      · rfl
      · split
        · rfl
        · simp [ih]

/-- Insertion. -/
def insert (k : κ) (v : β) (m : BTreeMap κ β) : BTreeMap κ β :=
  ⟨insertList k v m.toList, by
    rw [keys_insertList]; exact BTreeSet.insertList_ascending k m.ascending⟩

/-- The keys of a map, as a set. -/
def keys (m : BTreeMap κ β) : BTreeSet κ := ⟨m.toList.map Prod.fst, m.ascending⟩

/-- The value bound to a key. -/
def get (m : BTreeMap κ β) (k : κ) : Option β :=
  (m.toList.find? fun p => decide (p.1 = k)).map Prod.snd

theorem find_insertList (k k' : κ) (v : β) (l : List (κ × β))
    (h : (l.map Prod.fst).Pairwise (· < ·)) :
    ((insertList k v l).find? fun p => decide (p.1 = k')).map Prod.snd =
      if k' = k then some v else (l.find? fun p => decide (p.1 = k')).map Prod.snd := by
  induction l with
  | nil =>
      by_cases hk : k' = k
      · simp [insertList, hk]
      · simp [insertList, hk, Ne.symm hk]
  | cons p l ih =>
      obtain ⟨k₀, v₀⟩ := p
      obtain ⟨hlt, hl⟩ := List.pairwise_cons.1 h
      simp only [insertList]
      split
      · by_cases hk : k' = k
        · simp [hk]
        · simp [hk, Ne.symm hk]
      · split
        · next heq =>
            subst heq
            by_cases hk : k' = k
            · simp [hk]
            · simp [hk, Ne.symm hk]
        · next hne =>
            by_cases h₀ : k₀ = k'
            · have hk : k' ≠ k := by rintro rfl; exact hne h₀.symm
              simp [h₀, hk]
            · simp only [List.find?_cons, h₀, decide_false]
              exact ih hl

theorem get_insert (m : BTreeMap κ β) (k k' : κ) (v : β) :
    (m.insert k v).get k' = if k' = k then some v else m.get k' :=
  find_insertList k k' v m.toList m.ascending

theorem mem_keys {m : BTreeMap κ β} {k : κ} : k ∈ m.keys ↔ m.get k ≠ none := by
  simp [keys, get, BTreeSet.mem_iff]

/-- Bindings collected into a map, one after the other. -/
def ofList (l : List (κ × β)) : BTreeMap κ β := l.foldl (fun m p => m.insert p.1 p.2) empty

theorem ofList_concat (l : List (κ × β)) (p : κ × β) :
    ofList (l ++ [p]) = (ofList l).insert p.1 p.2 := by
  simp [ofList, List.foldl_append]

/-- Collecting bindings keeps the last one of every key. -/
theorem get_ofList (l : List (κ × β)) (k : κ) :
    (ofList l).get k = (l.reverse.find? fun p => decide (p.1 = k)).map Prod.snd := by
  induction l using List.reverseRecOn with
  | nil => rfl
  | append_singleton l p ih =>
      rw [ofList_concat, get_insert, ih]
      by_cases hk : k = p.1
      · simp [hk]
      · simp [hk, Ne.symm hk]

end BTreeMap
