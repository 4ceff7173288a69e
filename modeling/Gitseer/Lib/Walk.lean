/-
**Walking a finite tree with barriers.**

A tree of named entries is visited from its root: an entry that is a leaf is passed over, and an
entry with a listing of its own is visited together with what is below it.  Two tests cut the walk
short: an entry that is *skipped* is neither visited nor entered, and one that *stops* the walk is
visited but not entered.  Where a walk is, is a value of an arbitrary type with a step to a child.

Main definitions:

* `Walk.Listing` — finite trees, as the listing of their root;
* `Walk.Leads` — the names that lead from a listing to one below it;
* `Walk.walk` — the places visited below a place;
* `Walk.Clear` — no skipped entry and no stop on the way.

Main results:

* `Walk.mem_walk` — a place is visited exactly when names lead to it on a clear way;
* `Walk.leads_append`, `Walk.clear_append` — a way in two parts, and when it is clear.
-/

import Mathlib.Data.List.Basic

set_option relaxedAutoImplicit false
set_option autoImplicit false

namespace Walk

variable {α P : Type*}

/-- The entries of a root, each with its name: leaves, and entries with entries of their own. -/
inductive Listing (α : Type*)
  | nil
  | leaf (name : α) (rest : Listing α)
  | dir (name : α) (entries rest : Listing α)

/-- The names lead from the root of a listing to an entry with the given listing. -/
inductive Leads : Listing α → List α → Listing α → Prop
  | here (t : Listing α) : Leads t [] t
  | into {name : α} {entries rest t : Listing α} {names : List α} :
      Leads entries names t → Leads (.dir name entries rest) (name :: names) t
  | pastLeaf {name first : α} {rest t : Listing α} {names : List α} :
      Leads rest (first :: names) t → Leads (.leaf name rest) (first :: names) t
  | pastDir {name first : α} {entries rest t : Listing α} {names : List α} :
      Leads rest (first :: names) t → Leads (.dir name entries rest) (first :: names) t

/-- The names of the leaves of a listing. -/
def Listing.leaves : Listing α → List α
  | .nil => []
  | .leaf name rest => name :: rest.leaves
  | .dir _ _ rest => rest.leaves

/-- The places visited below a place, in the order of the visit. -/
def walk (child : P → α → P) (skip stop : P → Bool) : P → Listing α → List P
  | _, .nil => []
  | place, .leaf _ rest => walk child skip stop place rest
  | place, .dir name entries rest =>
      (if skip (child place name) then []
        else child place name ::
          if stop (child place name) then []
          else walk child skip stop (child place name) entries) ++
      walk child skip stop place rest

/-- On the way along the names nothing is skipped, and nothing before the last name stops. -/
def Clear (child : P → α → P) (skip stop : P → Bool) : P → List α → Prop
  | _, [] => True
  | place, name :: names =>
      skip (child place name) = false ∧
      (names ≠ [] → stop (child place name) = false) ∧
      Clear child skip stop (child place name) names

/-- A way in two parts leads through the listing that the first part leads to. -/
theorem leads_append {t u : Listing α} {first rest : List α} :
    Leads t (first ++ rest) u ↔ ∃ v, Leads t first v ∧ Leads v rest u := by
  constructor
  · intro h
    cases first with
    | nil => exact ⟨t, .here t, h⟩
    | cons name first =>
        induction t generalizing name first with
        | nil => cases h
        | leaf entry later ih =>
            cases h with
            | pastLeaf h =>
                obtain ⟨v, hfirst, hrest⟩ := ih name first h
                exact ⟨v, hfirst.pastLeaf, hrest⟩
        | dir entry entries later ihentries ihlater =>
            cases h with
            | into h =>
                cases first with
                | nil => exact ⟨entries, (Leads.here entries).into, h⟩
                | cons second first =>
                    obtain ⟨v, hfirst, hrest⟩ := ihentries second first h
                    exact ⟨v, hfirst.into, hrest⟩
            | pastDir h =>
                obtain ⟨v, hfirst, hrest⟩ := ihlater name first h
                exact ⟨v, hfirst.pastDir, hrest⟩
  · rintro ⟨v, hfirst, hrest⟩
    induction hfirst with
    | here t => exact hrest
    | into _ ih => exact (ih hrest).into
    | pastLeaf _ ih => exact (ih hrest).pastLeaf
    | pastDir _ ih => exact (ih hrest).pastDir

variable {child : P → α → P} {skip stop : P → Bool} {place : P}

/-- A way in two parts is clear when both parts are, and the walk does not stop between them. -/
theorem clear_append {first rest : List α} :
    Clear child skip stop place (first ++ rest) ↔
      Clear child skip stop place first ∧
      (first ≠ [] → rest ≠ [] → stop (first.foldl child place) = false) ∧
      Clear child skip stop (first.foldl child place) rest := by
  induction first generalizing place with
  | nil => simp [Clear]
  | cons name first ih =>
      rw [List.cons_append, Clear, Clear, ih, List.foldl_cons]
      cases first with
      | nil => simp [Clear]
      | cons second first => simp [and_assoc]

/-- A walk enters an entry exactly on the clear ways through it. -/
theorem mem_walk {t : Listing α} {q : P} :
    q ∈ walk child skip stop place t ↔
      ∃ names t', names ≠ [] ∧ Leads t names t' ∧ names.foldl child place = q ∧
        Clear child skip stop place names := by
  induction t generalizing place with
  | nil =>
      constructor
      · intro h
        cases h
      · rintro ⟨names, t', hne, hleads, -, -⟩
        cases hleads
        exact absurd rfl hne
  | leaf name rest ih =>
      rw [walk, ih]
      constructor
      · rintro ⟨names, t', hne, hleads, hq, hclear⟩
        cases names with
        | nil => exact absurd rfl hne
        | cons first names => exact ⟨_, t', hne, hleads.pastLeaf, hq, hclear⟩
      · rintro ⟨names, t', hne, hleads, hq, hclear⟩
        cases hleads with
        | here => exact absurd rfl hne
        | pastLeaf h => exact ⟨_, t', hne, h, hq, hclear⟩
  | dir name entries rest ihentries ihrest =>
      rw [walk, List.mem_append, ihrest]
      constructor
      · rintro (h | ⟨names, t', hne, hleads, hq, hclear⟩)
        · split at h
          · cases h
          · next hskip =>
              have hskip := Bool.eq_false_iff.2 hskip
              rcases List.mem_cons.1 h with rfl | h
              · exact ⟨[name], entries, by simp, (Leads.here entries).into, rfl, hskip,
                  fun hne => absurd rfl hne, trivial⟩
              · split at h
                · cases h
                · next hstop =>
                    obtain ⟨names, t', -, hleads, hq, hclear⟩ := ihentries.1 h
                    exact ⟨name :: names, t', by simp, hleads.into, hq, hskip,
                      fun _ => Bool.eq_false_iff.2 hstop, hclear⟩
        · cases names with
          | nil => exact absurd rfl hne
          | cons first names => exact ⟨_, t', hne, hleads.pastDir, hq, hclear⟩
      · rintro ⟨names, t', hne, hleads, hq, hclear⟩
        cases hleads with
        | here => exact absurd rfl hne
        | pastDir h => exact Or.inr ⟨_, t', hne, h, hq, hclear⟩
        | @into _ _ _ _ names h =>
            left
            obtain ⟨hskip, hstop, hclear⟩ := hclear
            rw [hskip, if_neg Bool.false_ne_true]
            cases names with
            | nil => exact List.mem_cons.2 (Or.inl hq.symm)
            | cons first names =>
                rw [hstop (by simp), if_neg Bool.false_ne_true]
                exact List.mem_cons_of_mem _ (ihentries.2 ⟨_, t', by simp, h, hq, hclear⟩)

/-- Clear ways are those on which every part passes the tests. -/
theorem clear_iff {names : List α} :
    Clear child skip stop place names ↔
      (∀ part, part ≠ [] → part <+: names → skip (part.foldl child place) = false) ∧
      (∀ part, part ≠ [] → part <+: names → part ≠ names →
        stop (part.foldl child place) = false) := by
  induction names generalizing place with
  | nil =>
      refine iff_of_true trivial ⟨?_, ?_⟩
      · intro part hne hpart
        exact absurd (List.prefix_nil.1 hpart) hne
      · intro part hne hpart
        exact absurd (List.prefix_nil.1 hpart) hne
  | cons name names ih =>
      rw [Clear, ih]
      constructor
      · rintro ⟨hskip, hstop, hskips, hstops⟩
        refine ⟨?_, ?_⟩
        · intro part hne hpart
          cases part with
          | nil => exact absurd rfl hne
          | cons first part =>
              obtain ⟨rfl, htail⟩ := List.cons_prefix_cons.1 hpart
              by_cases hnil : part = []
              · rw [hnil]
                exact hskip
              · exact hskips part hnil htail
        · intro part hne hpart hproper
          cases part with
          | nil => exact absurd rfl hne
          | cons first part =>
              obtain ⟨rfl, htail⟩ := List.cons_prefix_cons.1 hpart
              have hproper : part ≠ names := fun h => hproper (by rw [h])
              by_cases hnil : part = []
              · subst hnil
                exact hstop hproper.symm
              · exact hstops part hnil htail hproper
      · rintro ⟨hskips, hstops⟩
        have hcons : ∀ part, part <+: names → name :: part <+: name :: names :=
          fun part hpart => List.cons_prefix_cons.2 ⟨rfl, hpart⟩
        refine ⟨hskips [name] (by simp) (hcons [] (List.nil_prefix)), ?_, ?_, ?_⟩
        · intro hne
          exact hstops [name] (by simp) (hcons [] (List.nil_prefix)) (by simpa using hne.symm)
        · intro part hne hpart
          exact hskips (name :: part) (by simp) (hcons part hpart)
        · intro part hne hpart hproper
          exact hstops (name :: part) (by simp) (hcons part hpart) (by simpa using hproper)

end Walk
