/-
**JSON values and codecs that read back what they write.**

Data is exchanged as JSON values.  A *codec* of a type is the pair of an encoder and a decoder
together with the law that connects them: what the encoder writes, the decoder reads back.  The
law is a field of the codec, so a type that has a codec has the round trip, and the combinators
below build codecs of structures from codecs of their fields without a proof per structure.

The encoder is partial: it fails on a value that has no JSON form.  The fields of an object come
in the kinds the `serde` attributes distinguish: a plain field, one that is left out when empty,
one with a default, and one whose presence is itself information.

A codec knows which numbers the type of a field can hold.  The decoder reads a number of any size;
reading a value of the type checks the ranges as well.  A value that passes is written without loss:
its numbers are integers of 64 bits, and JSON text is only known to give back such numbers, in
objects without duplicate fields that are not nested too deeply.

Main definitions:

* `Json.Value` — JSON values;
* `Json.Value.plain` — the values that survive being written as text;
* `Json.Codec`, `Json.Fields` — codecs of values, and of the fields of an object;
* `Json.Codec.fromValue` — reading a value of a type, with the ranges of its numbers;
* `Json.Codec.struct`, `Json.Fields.and`, `Json.Fields.field`, `Json.Fields.skipNone`,
  `Json.Fields.orDefault`, `Json.Fields.presence` — the combinators.

Main results:

* `Json.lookup_append_left`, `Json.lookup_append_right` — reading a field of a joined object;
* `Json.Codec.struct_enc` — the fields a structure is written with;
* the laws `dec_enc` and `plain_enc` of every codec built here;
* `Json.Codec.text_round_trip` — what is in range is read back from its JSON text;
* `Json.Codec.encodes_list`, `Json.Codec.encodes_struct` and the like — which values have a JSON
  form.
-/

import Mathlib.Algebra.Group.Int.Defs
import Mathlib.Algebra.Ring.Nat
import Mathlib.Data.Int.Notation
import Mathlib.Data.List.Nodup
import Mathlib.Data.Rat.Defs
import Mathlib.Order.Basic

set_option relaxedAutoImplicit false
set_option autoImplicit false

namespace Json

/-! ### Values -/

/-- A number: an integer, or any other number, which is held as a double and given by its value. -/
inductive Number
  | int (n : ℤ)
  | float (x : ℚ)
  deriving DecidableEq

/-- The integers of 64 bits, signed or not: only these are held as integers. -/
def Number.exact : Number → Bool
  | int n => decide (-2 ^ 63 ≤ n ∧ n < 2 ^ 64)
  | float _ => false

/-- A JSON value.  An object is the list of its fields. -/
inductive Value
  | null
  | bool (b : Bool)
  | number (n : Number)
  | string (s : String)
  | array (items : List Value)
  | object (fields : List (String × Value))

namespace Value

/-- The fields of an object. -/
def asObject : Value → Option (List (String × Value))
  | object fields => some fields
  | _ => none

/-- The text of a string. -/
def asStr : Value → Option String
  | string s => some s
  | _ => none

def isNull : Value → Bool
  | null => true
  | _ => false

def isString : Value → Bool
  | string _ => true
  | _ => false

def isNumber : Value → Bool
  | number _ => true
  | _ => false

def isObject : Value → Bool
  | object _ => true
  | _ => false

def isArray : Value → Bool
  | array _ => true
  | _ => false

theorem isNull_iff {v : Value} : v.isNull = true ↔ v = null := by
  cases v <;> simp [isNull]

mutual

/-- The value has exact numbers only, no object with two fields of one name, and at most the given
number of arrays and objects around each other. -/
def plain : ℕ → Value → Bool
  | _, null => true
  | _, bool _ => true
  | _, number n => n.exact
  | _, string _ => true
  | 0, array _ => false
  | depth + 1, array items => plainItems depth items
  | 0, object _ => false
  | depth + 1, object fields =>
      decide (fields.map Prod.fst).Nodup && plainFields depth fields

/-- The items of an array are plain. -/
def plainItems : ℕ → List Value → Bool
  | _, [] => true
  | depth, v :: items => plain depth v && plainItems depth items

/-- The fields of an object are plain. -/
def plainFields : ℕ → List (String × Value) → Bool
  | _, [] => true
  | depth, (_, v) :: fields => plain depth v && plainFields depth fields

end

theorem plainItems_iff {depth : ℕ} {items : List Value} :
    plainItems depth items = true ↔ ∀ v ∈ items, v.plain depth = true := by
  induction items with
  | nil => simp [plainItems]
  | cons v items ih => simp [plainItems, ih]

theorem plainFields_iff {depth : ℕ} {fields : List (String × Value)} :
    plainFields depth fields = true ↔ ∀ p ∈ fields, p.2.plain depth = true := by
  induction fields with
  | nil => simp [plainFields]
  | cons p fields ih => simp [plainFields, ih]

theorem plain_object {depth : ℕ} {fields : List (String × Value)} :
    (object fields).plain (depth + 1) = true ↔
      (fields.map Prod.fst).Nodup ∧ ∀ p ∈ fields, p.2.plain depth = true := by
  simp [plain, plainFields_iff]

end Value

/-- The fields of an object. -/
abbrev Object := List (String × Value)

/-- The names of the fields of an object. -/
def Object.names (o : Object) : List String := o.map Prod.fst

theorem lookup_eq_none_of_not_mem {o : Object} {n : String} (h : n ∉ o.names) :
    o.lookup n = none := by
  rw [List.lookup_eq_none_iff]
  rintro ⟨m, v⟩ hp
  have hne : n ≠ m := by
    rintro rfl
    exact h (List.mem_map.2 ⟨(n, v), hp, rfl⟩)
  simpa using hne

/-- A field that the second part does not have is read from the first one. -/
theorem lookup_append_left {o o' : Object} {n : String} (h : n ∉ o'.names) :
    List.lookup n (o ++ o') = o.lookup n := by
  rw [List.lookup_append, lookup_eq_none_of_not_mem h, Option.or_none]

/-- A field that the first part does not have is read from the second one. -/
theorem lookup_append_right {o o' : Object} {n : String} (h : n ∉ o.names) :
    List.lookup n (o ++ o') = o'.lookup n := by
  rw [List.lookup_append, lookup_eq_none_of_not_mem h, Option.none_or]

/-- The object without the fields of one name. -/
def Object.erase (o : Object) (n : String) : Object := o.filter fun p => p.1 != n

@[simp] theorem lookup_erase_self (o : Object) (n : String) : (o.erase n).lookup n = none := by
  refine lookup_eq_none_of_not_mem fun hmem => ?_
  obtain ⟨p, hp, rfl⟩ := List.mem_map.1 hmem
  simpa using List.of_mem_filter hp

/-- The other fields are left as they are. -/
theorem lookup_erase_of_ne {n m : String} (h : m ≠ n) (o : Object) :
    (o.erase n).lookup m = o.lookup m := by
  induction o with
  | nil => rfl
  | cons p o ih =>
      obtain ⟨k, v⟩ := p
      by_cases hk : k = n
      · have hmk : (m == k) = false := by simpa [hk] using h
        have herase : Object.erase ((k, v) :: o) n = Object.erase o n := by
          simp [Object.erase, hk]
        rw [herase, ih, List.lookup_cons, hmk]
      · have herase : Object.erase ((k, v) :: o) n = (k, v) :: Object.erase o n := by
          simp [Object.erase, hk]
        rw [herase, List.lookup_cons, List.lookup_cons, ih]

/-! ### Codecs of values -/

/-- An encoder, a decoder, and the law that the decoder reads what the encoder writes.  `missing`
is what a structure gets for a field of this type that its object does not have.  `fits` says that
the numbers of a value are in the ranges of their types, and `depth` how deeply it is nested. -/
structure Codec (α : Type) where
  enc : α → Option Value
  dec : Value → Option α
  missing : Option α
  fits : α → Bool
  depth : ℕ
  /-- What is written is read back. -/
  dec_enc : ∀ {a : α} {v : Value}, enc a = some v → dec v = some a
  /-- What is in range is written as a plain value. -/
  plain_enc : ∀ {a : α} {v : Value} {d : ℕ}, enc a = some v → fits a = true → depth ≤ d →
    v.plain d = true

namespace Codec

def bool : Codec Bool where
  enc b := some (.bool b)
  dec
    | .bool b => some b
    | _ => none
  missing := none
  fits _ := true
  depth := 0
  dec_enc := by
    intro a v h
    obtain rfl := Option.some.inj h
    rfl
  plain_enc := by
    intro a v d h _ _
    obtain rfl := Option.some.inj h
    simp [Value.plain]

def string : Codec String where
  enc s := some (.string s)
  dec
    | .string s => some s
    | _ => none
  missing := none
  fits _ := true
  depth := 0
  dec_enc := by
    intro a v h
    obtain rfl := Option.some.inj h
    rfl
  plain_enc := by
    intro a v d h _ _
    obtain rfl := Option.some.inj h
    simp [Value.plain]

/-- The integers of a machine type: those from a lower bound to below an upper one. -/
def int (lower upper : ℤ) (h : -2 ^ 63 ≤ lower ∧ upper ≤ 2 ^ 64 := by decide) : Codec ℤ where
  enc n := some (.number (.int n))
  dec
    | .number (.int n) => some n
    | _ => none
  missing := none
  fits n := decide (lower ≤ n ∧ n < upper)
  depth := 0
  dec_enc := by
    intro a v h
    obtain rfl := Option.some.inj h
    rfl
  plain_enc := by
    intro n v d henc hfits _
    obtain rfl := Option.some.inj henc
    obtain ⟨hlower, hupper⟩ := of_decide_eq_true hfits
    exact decide_eq_true ⟨Int.le_trans h.1 hlower, Int.lt_of_lt_of_le hupper h.2⟩

/-- Another type that is written as one with a codec. -/
def map {α β : Type} (c : Codec α) (toRep : β → Option α) (ofRep : α → Option β)
    (h : ∀ b a, toRep b = some a → ofRep a = some b) : Codec β where
  enc b := (toRep b).bind c.enc
  dec v := (c.dec v).bind ofRep
  missing := c.missing.bind ofRep
  fits b := (toRep b).all c.fits
  depth := c.depth
  dec_enc := by
    intro b v hb
    obtain ⟨a, ha, hv⟩ := Option.bind_eq_some_iff.1 hb
    rw [c.dec_enc hv]
    exact h b a ha
  plain_enc := by
    intro b v d hb hfits hd
    obtain ⟨a, ha, hv⟩ := Option.bind_eq_some_iff.1 hb
    rw [ha] at hfits
    exact c.plain_enc hv hfits hd

/-- The natural numbers below an upper bound: negative numbers are not read. -/
def nat (upper : ℤ) (h : -2 ^ 63 ≤ (0 : ℤ) ∧ upper ≤ 2 ^ 64 := by decide) : Codec ℕ :=
  (int 0 upper h).map (fun n => some (n : ℤ)) (fun z => if 0 ≤ z then some z.toNat else none) (by
    intro n z h
    obtain rfl := Option.some.inj h
    simp)

/-- `i64`. -/
def i64 : Codec ℤ := int (-2 ^ 63) (2 ^ 63)

/-- `u32`. -/
def u32 : Codec ℕ := nat (2 ^ 32)

/-- The range of a `u64`. -/
def u64 : Codec ℕ := nat (2 ^ 64)

/-- `usize`, of 64 bits. -/
def usize : Codec ℕ := u64

/-- An enumeration, written as the names of its members. -/
def unitEnum {α : Type} (name : α → String) (members : List α)
    (h : ∀ a, members.find? (fun b => name b == name a) = some a) : Codec α where
  enc a := some (.string (name a))
  dec
    | .string s => members.find? fun b => name b == s
    | _ => none
  missing := none
  fits _ := true
  depth := 0
  dec_enc := by
    intro a v hv
    obtain rfl := Option.some.inj hv
    exact h a
  plain_enc := by
    intro a v d hv _ _
    obtain rfl := Option.some.inj hv
    simp [Value.plain]

/-- An optional value: the absent one is written as `null`.  The encoder of the value itself must
not write `null`. -/
def option {α : Type} (c : Codec α) (h : ∀ a, c.enc a ≠ some .null) : Codec (Option α) where
  enc
    | none => some .null
    | some a => c.enc a
  dec v := if v.isNull then some none else (c.dec v).map some
  missing := some none
  fits o := o.all c.fits
  depth := c.depth
  plain_enc := by
    intro a v d hv hfits hd
    cases a with
    | none =>
        obtain rfl := Option.some.inj hv
        simp [Value.plain]
    | some a => exact c.plain_enc hv hfits hd
  dec_enc := by
    intro a v hv
    cases a with
    | none =>
        obtain rfl := Option.some.inj hv
        rfl
    | some a =>
        have hnull : v.isNull = false := by
          rw [Bool.eq_false_iff]
          intro hn
          rw [Value.isNull_iff.1 hn] at hv
          exact h a hv
        simp [hnull, c.dec_enc hv]

/-- The items of an array, each encoded. -/
def encList {α : Type} (c : Codec α) : List α → Option (List Value)
  | [] => some []
  | a :: l => do
      let v ← c.enc a
      let vs ← encList c l
      some (v :: vs)

/-- The items of an array, each decoded. -/
def decList {α : Type} (c : Codec α) : List Value → Option (List α)
  | [] => some []
  | v :: vs => do
      let a ← c.dec v
      let l ← decList c vs
      some (a :: l)

theorem decList_encList {α : Type} (c : Codec α) :
    ∀ {l : List α} {vs : List Value}, c.encList l = some vs → c.decList vs = some l := by
  intro l
  induction l with
  | nil =>
      intro vs h
      obtain rfl := Option.some.inj h
      rfl
  | cons a l ih =>
      intro vs h
      simp only [encList, Option.bind_eq_bind, Option.bind_eq_some_iff] at h
      obtain ⟨v, hv, vs', hvs, hcons⟩ := h
      obtain rfl := Option.some.inj hcons
      simp [decList, c.dec_enc hv, ih hvs]

theorem plain_encList {α : Type} (c : Codec α) {d : ℕ} (hd : c.depth ≤ d) :
    ∀ {l : List α} {vs : List Value}, c.encList l = some vs → l.all c.fits = true →
      ∀ v ∈ vs, v.plain d = true := by
  intro l
  induction l with
  | nil =>
      intro vs h _
      obtain rfl := Option.some.inj h
      simp
  | cons a l ih =>
      intro vs h hfits
      simp only [encList, Option.bind_eq_bind, Option.bind_eq_some_iff] at h
      obtain ⟨v, hv, vs', hvs, hcons⟩ := h
      obtain rfl := Option.some.inj hcons
      rw [List.all_cons, Bool.and_eq_true] at hfits
      exact List.forall_mem_cons.2 ⟨c.plain_enc hv hfits.1 hd, ih hvs hfits.2⟩

/-- A list, written as an array. -/
def list {α : Type} (c : Codec α) : Codec (List α) where
  enc l := (c.encList l).map Value.array
  dec
    | .array vs => c.decList vs
    | _ => none
  missing := none
  fits l := l.all c.fits
  depth := c.depth + 1
  dec_enc := by
    intro l v hv
    obtain ⟨vs, hvs, rfl⟩ := Option.map_eq_some_iff.1 hv
    exact c.decList_encList hvs
  plain_enc := by
    intro l v d hv hfits hd
    obtain ⟨vs, hvs, rfl⟩ := Option.map_eq_some_iff.1 hv
    obtain ⟨e, rfl⟩ : ∃ e, d = e + 1 := ⟨d - 1, by omega⟩
    exact Value.plainItems_iff.2 (c.plain_encList (by omega) hvs hfits)

/-- A list is never written as `null`. -/
theorem list_ne_null {α : Type} (c : Codec α) (l : List α) : c.list.enc l ≠ some .null := by
  simp [list]

end Codec

/-! ### Codecs of the fields of an object -/

/-- An encoder and a decoder of some fields of an object: the encoder writes no other field, and
the decoder reads the value back from every object that has the written fields. -/
structure Fields (α : Type) where
  names : List String
  enc : α → Option Object
  dec : Object → Option α
  fits : α → Bool
  depth : ℕ
  /-- Only the fields named are written. -/
  names_enc : ∀ {a : α} {o : Object}, enc a = some o → ∀ n ∈ o.names, n ∈ names
  /-- What is written is read back, whatever other fields the object has. -/
  dec_enc : ∀ {a : α} {o o' : Object}, enc a = some o →
    (∀ n ∈ names, o'.lookup n = o.lookup n) → dec o' = some a
  /-- What is in range is written as plain values, no two under one name. -/
  plain_enc : ∀ {a : α} {o : Object} {d : ℕ}, enc a = some o → fits a = true → depth ≤ d →
    o.names.Nodup ∧ ∀ p ∈ o, p.2.plain d = true

namespace Fields

theorem plain_singleton {α : Type} {name : String} {c : Codec α} {a : α} {o : Object} {d : ℕ}
    (h : ((c.enc a).map fun v => [(name, v)]) = some o) (hfits : c.fits a = true)
    (hd : c.depth ≤ d) : o.names.Nodup ∧ ∀ p ∈ o, p.2.plain d = true := by
  obtain ⟨v, hv, rfl⟩ := Option.map_eq_some_iff.1 h
  simpa [Object.names] using c.plain_enc hv hfits hd

/-- A field that is always written. -/
def field {α : Type} (name : String) (c : Codec α) : Fields α where
  names := [name]
  enc a := (c.enc a).map fun v => [(name, v)]
  dec o :=
    match o.lookup name with
    | some v => c.dec v
    | none => c.missing
  fits := c.fits
  depth := c.depth
  plain_enc := plain_singleton
  names_enc := by
    intro a o h
    obtain ⟨v, -, rfl⟩ := Option.map_eq_some_iff.1 h
    simp [Object.names]
  dec_enc := by
    intro a o o' h hlookup
    obtain ⟨v, hv, rfl⟩ := Option.map_eq_some_iff.1 h
    have hl : o'.lookup name = some v := by
      rw [hlookup name (List.mem_singleton.2 rfl)]
      simp
    simp [hl, c.dec_enc hv]

/-- A field with a default, taken when the object does not have the field. -/
def orDefault {α : Type} (name : String) (c : Codec α) (default : α) : Fields α where
  names := [name]
  enc a := (c.enc a).map fun v => [(name, v)]
  dec o :=
    match o.lookup name with
    | some v => c.dec v
    | none => some default
  fits := c.fits
  depth := c.depth
  plain_enc := plain_singleton
  names_enc := (field name c).names_enc
  dec_enc := by
    intro a o o' h hlookup
    obtain ⟨v, hv, rfl⟩ := Option.map_eq_some_iff.1 h
    have hl : o'.lookup name = some v := by
      rw [hlookup name (List.mem_singleton.2 rfl)]
      simp
    simp [hl, c.dec_enc hv]

/-- The object with one field, or none. -/
def encOption {α : Type} (name : String) (c : Codec α) : Option α → Option Object
  | none => some []
  | some a => (c.enc a).map fun v => [(name, v)]

theorem encOption_names {α : Type} {name : String} {c : Codec α} {a : Option α} {o : Object}
    (h : encOption name c a = some o) : ∀ n ∈ o.names, n ∈ [name] := by
  cases a with
  | none =>
      obtain rfl := Option.some.inj h
      simp [Object.names]
  | some a =>
      obtain ⟨v, -, rfl⟩ := Option.map_eq_some_iff.1 h
      simp [Object.names]

theorem encOption_plain {α : Type} {name : String} {c : Codec α} {a : Option α} {o : Object}
    {d : ℕ} (h : encOption name c a = some o) (hfits : a.all c.fits = true) (hd : c.depth ≤ d) :
    o.names.Nodup ∧ ∀ p ∈ o, p.2.plain d = true := by
  cases a with
  | none =>
      obtain rfl := Option.some.inj h
      simp [Object.names]
  | some a => exact plain_singleton h hfits hd

/-- A field whose presence is information: it is left out when there is no value, and what it
holds is read as it is. -/
def presence {α : Type} (name : String) (c : Codec α) : Fields (Option α) where
  names := [name]
  enc := encOption name c
  dec o :=
    match o.lookup name with
    | some v => (c.dec v).map some
    | none => some none
  fits a := a.all c.fits
  depth := c.depth
  plain_enc := encOption_plain
  names_enc := encOption_names
  dec_enc := by
    intro a o o' h hlookup
    have hl := hlookup name (List.mem_singleton.2 rfl)
    cases a with
    | none =>
        obtain rfl := Option.some.inj h
        simp [hl]
    | some a =>
        obtain ⟨v, hv, rfl⟩ := Option.map_eq_some_iff.1 h
        simp [hl, c.dec_enc hv]

/-- An optional field that is left out when empty; `null` is read as empty too. -/
def skipNone {α : Type} (name : String) (c : Codec α) (h : ∀ a, c.enc a ≠ some .null) :
    Fields (Option α) where
  names := [name]
  enc := encOption name c
  dec o :=
    match o.lookup name with
    | some v => (c.option h).dec v
    | none => some none
  fits a := a.all c.fits
  depth := c.depth
  plain_enc := encOption_plain
  names_enc := encOption_names
  dec_enc := by
    intro a o o' henc hlookup
    have hl := hlookup name (List.mem_singleton.2 rfl)
    cases a with
    | none =>
        obtain rfl := Option.some.inj henc
        simp [hl]
    | some a =>
        obtain ⟨v, hv, rfl⟩ := Option.map_eq_some_iff.1 henc
        have hdec : (c.option h).dec v = some (some a) := (c.option h).dec_enc (a := some a) hv
        simp [hl, hdec]

/-- Two groups of fields with different names. -/
def and {α β : Type} (f : Fields α) (g : Fields β)
    (h : ∀ n ∈ f.names, n ∉ g.names := by decide) : Fields (α × β) where
  names := f.names ++ g.names
  enc p := do
    let o ← f.enc p.1
    let o' ← g.enc p.2
    some (o ++ o')
  dec o := do
    let a ← f.dec o
    let b ← g.dec o
    some (a, b)
  fits p := f.fits p.1 && g.fits p.2
  depth := max f.depth g.depth
  plain_enc := by
    rintro ⟨a, b⟩ o d ho hfits hd
    simp only [Option.bind_eq_bind, Option.bind_eq_some_iff] at ho
    obtain ⟨o₁, h₁, o₂, h₂, ho⟩ := ho
    obtain rfl := Option.some.inj ho
    rw [Bool.and_eq_true] at hfits
    obtain ⟨hnames₁, hplain₁⟩ := f.plain_enc h₁ hfits.1 ((Nat.le_max_left _ _).trans hd)
    obtain ⟨hnames₂, hplain₂⟩ := g.plain_enc h₂ hfits.2 ((Nat.le_max_right _ _).trans hd)
    refine ⟨?_, fun p hp => (List.mem_append.1 hp).elim (hplain₁ p) (hplain₂ p)⟩
    rw [Object.names, List.map_append]
    exact hnames₁.append hnames₂ fun n hn₁ hn₂ =>
      h n (f.names_enc h₁ n hn₁) (g.names_enc h₂ n hn₂)
  names_enc := by
    rintro ⟨a, b⟩ o ho n hn
    simp only [Option.bind_eq_bind, Option.bind_eq_some_iff] at ho
    obtain ⟨o₁, h₁, o₂, h₂, ho⟩ := ho
    obtain rfl := Option.some.inj ho
    rw [Object.names, List.map_append] at hn
    rcases List.mem_append.1 hn with hn | hn
    · exact List.mem_append_left _ (f.names_enc h₁ n hn)
    · exact List.mem_append_right _ (g.names_enc h₂ n hn)
  dec_enc := by
    rintro ⟨a, b⟩ o o' ho hlookup
    simp only [Option.bind_eq_bind, Option.bind_eq_some_iff] at ho
    obtain ⟨o₁, h₁, o₂, h₂, ho⟩ := ho
    obtain rfl := Option.some.inj ho
    have ha : f.dec o' = some a := by
      refine f.dec_enc h₁ fun n hn => ?_
      rw [hlookup n (List.mem_append_left _ hn)]
      exact lookup_append_left fun hn₂ => h n hn (g.names_enc h₂ n hn₂)
    have hb : g.dec o' = some b := by
      refine g.dec_enc h₂ fun n hn => ?_
      rw [hlookup n (List.mem_append_right _ hn)]
      exact lookup_append_right fun hn₁ => h n (f.names_enc h₁ n hn₁) hn
    simp [ha, hb]

end Fields

/-- A structure, written as an object. -/
def Codec.struct {α β : Type} (f : Fields α) (toFields : β → α) (ofFields : α → β)
    (h : ∀ b, ofFields (toFields b) = b := by intro _; rfl) : Codec β where
  enc b := (f.enc (toFields b)).map Value.object
  dec
    | .object o => (f.dec o).map ofFields
    | _ => none
  missing := none
  fits b := f.fits (toFields b)
  depth := f.depth + 1
  plain_enc := by
    intro b v d hv hfits hd
    obtain ⟨o, ho, rfl⟩ := Option.map_eq_some_iff.1 hv
    obtain ⟨e, rfl⟩ : ∃ e, d = e + 1 := ⟨d - 1, by omega⟩
    exact Value.plain_object.2 (f.plain_enc ho hfits (by omega))
  dec_enc := by
    intro b v hv
    obtain ⟨o, ho, rfl⟩ := Option.map_eq_some_iff.1 hv
    have hdec : f.dec o = some (toFields b) := f.dec_enc ho fun _ _ => rfl
    simp [hdec, h b]

/-- A structure is never written as `null`. -/
theorem Codec.struct_ne_null {α β : Type} (f : Fields α) (toFields : β → α) (ofFields : α → β)
    (h : ∀ b, ofFields (toFields b) = b) (b : β) :
    (Codec.struct f toFields ofFields h).enc b ≠ some .null := by
  simp [Codec.struct]

/-- The JSON form of a structure is an object of the fields of its codec. -/
theorem Codec.struct_enc {α β : Type} {f : Fields α} {toFields : β → α} {ofFields : α → β}
    {h : ∀ b, ofFields (toFields b) = b} {b : β} {v : Value}
    (hv : (Codec.struct f toFields ofFields h).enc b = some v) :
    ∃ o : Object, v = .object o ∧ ∀ n ∈ o.names, n ∈ f.names := by
  obtain ⟨o, ho, rfl⟩ := Option.map_eq_some_iff.1 hv
  exact ⟨o, rfl, f.names_enc ho⟩

/-! ### Reading a value of a type -/

/-- `from_value`: an integer out of the range of its type is an error. -/
def Codec.fromValue {α : Type} (c : Codec α) (v : Value) : Option α := (c.dec v).filter c.fits

theorem Codec.fromValue_enc {α : Type} {c : Codec α} {a : α} {v : Value} (henc : c.enc a = some v)
    (hfits : c.fits a = true) : c.fromValue v = some a := by
  simp [fromValue, c.dec_enc henc, Option.filter, hfits]

/-- The nesting that a reader of JSON text allows. -/
def maxDepth : ℕ := 127

/-- JSON text gives back what is plain.  Nothing is said of other numbers: by default they are read
with the precision that is fast to get. -/
def ReadsPlain {Text : Type} (toText : Value → Text) (fromText : Text → Option Value) : Prop :=
  ∀ v : Value, v.plain maxDepth = true → fromText (toText v) = some v

/-- What is in range is read back from its JSON text. -/
theorem Codec.text_round_trip {Text α : Type} {toText : Value → Text}
    {fromText : Text → Option Value} (htext : ReadsPlain toText fromText) {c : Codec α} {a : α}
    {v : Value} (hdepth : c.depth ≤ maxDepth) (henc : c.enc a = some v) (hfits : c.fits a = true) :
    (fromText (toText v)).bind c.fromValue = some a := by
  rw [htext v (c.plain_enc henc hfits hdepth)]
  exact fromValue_enc henc hfits

/-! ### Which values have a JSON form -/

/-- The value has a JSON form. -/
def Codec.Encodes {α : Type} (c : Codec α) (a : α) : Prop := (c.enc a).isSome = true

/-- The fields have a JSON form. -/
def Fields.Encodes {α : Type} (f : Fields α) (a : α) : Prop := (f.enc a).isSome = true

theorem Codec.encodes_iff {α : Type} {c : Codec α} {a : α} :
    c.Encodes a ↔ ∃ v, c.enc a = some v := Option.isSome_iff_exists

/-- What is built from the JSON form of a value fails exactly when the value has none. -/
theorem Codec.bind_enc_eq_none_iff {α β : Type} {c : Codec α} {a : α} {f : Value → β} :
    ((c.enc a).bind fun v => some (f v)) = none ↔ ¬ c.Encodes a := by
  cases h : c.enc a <;> simp [Codec.Encodes, h]

namespace Codec

@[simp] theorem encodes_bool (b : Bool) : bool.Encodes b := rfl

@[simp] theorem encodes_string (s : String) : string.Encodes s := rfl

@[simp] theorem encodes_i64 (n : ℤ) : i64.Encodes n := rfl

@[simp] theorem encodes_u32 (n : ℕ) : u32.Encodes n := rfl

@[simp] theorem encodes_usize (n : ℕ) : usize.Encodes n := rfl

@[simp] theorem encodes_unitEnum {α : Type} {name : α → String} {members : List α}
    {h : ∀ a, members.find? (fun b => name b == name a) = some a} (a : α) :
    (unitEnum name members h).Encodes a := rfl

@[simp] theorem encodes_option {α : Type} {c : Codec α} {h : ∀ a, c.enc a ≠ some .null}
    {o : Option α} : (c.option h).Encodes o ↔ ∀ a ∈ o, c.Encodes a := by
  cases o with
  | none => simp [Encodes, option]
  | some a => simp [Encodes, option]

@[simp] theorem encodes_list {α : Type} {c : Codec α} {l : List α} :
    c.list.Encodes l ↔ ∀ a ∈ l, c.Encodes a := by
  induction l with
  | nil => simp [Encodes, list, encList]
  | cons a l ih =>
      simp only [Encodes, list, Option.isSome_map] at ih
      cases ha : c.enc a with
      | none => simp [Encodes, list, encList, ha]
      | some v =>
          cases hl : c.encList l with
          | none => simp [Encodes, list, encList, ha, hl] at ih ⊢; exact ih
          | some vs => simp [Encodes, list, encList, ha, hl] at ih ⊢; exact ih

@[simp] theorem encodes_struct {α β : Type} {f : Fields α} {toFields : β → α} {ofFields : α → β}
    {h : ∀ b, ofFields (toFields b) = b} {b : β} :
    (struct f toFields ofFields h).Encodes b ↔ f.Encodes (toFields b) := by
  simp [Encodes, Fields.Encodes, struct]

end Codec

namespace Fields

@[simp] theorem encodes_field {α : Type} {name : String} {c : Codec α} {a : α} :
    (field name c).Encodes a ↔ c.Encodes a := by
  simp [Encodes, Codec.Encodes, field]

@[simp] theorem encodes_orDefault {α : Type} {name : String} {c : Codec α} {default a : α} :
    (orDefault name c default).Encodes a ↔ c.Encodes a := by
  simp [Encodes, Codec.Encodes, orDefault]

theorem encOption_isSome {α : Type} {name : String} {c : Codec α} {o : Option α} :
    (encOption name c o).isSome = true ↔ ∀ a ∈ o, c.Encodes a := by
  cases o with
  | none => simp [encOption]
  | some a => simp [encOption, Codec.Encodes]

@[simp] theorem encodes_presence {α : Type} {name : String} {c : Codec α} {o : Option α} :
    (presence name c).Encodes o ↔ ∀ a ∈ o, c.Encodes a := encOption_isSome

@[simp] theorem encodes_skipNone {α : Type} {name : String} {c : Codec α}
    {h : ∀ a, c.enc a ≠ some .null} {o : Option α} :
    (skipNone name c h).Encodes o ↔ ∀ a ∈ o, c.Encodes a := encOption_isSome

@[simp] theorem encodes_and {α β : Type} {f : Fields α} {g : Fields β}
    {h : ∀ n ∈ f.names, n ∉ g.names} {p : α × β} :
    (f.and g h).Encodes p ↔ f.Encodes p.1 ∧ g.Encodes p.2 := by
  unfold Encodes
  cases hf : f.enc p.1 with
  | none => simp [and, hf]
  | some o => cases hg : g.enc p.2 <;> simp [and, hf, hg]

/-- Each of two groups of fields is found in the joined object. -/
theorem and_enc {α β : Type} {f : Fields α} {g : Fields β} {h : ∀ n ∈ f.names, n ∉ g.names}
    {p : α × β} {o : Object} (ho : (f.and g h).enc p = some o) :
    ∃ o₁ o₂, f.enc p.1 = some o₁ ∧ g.enc p.2 = some o₂ ∧
      (∀ n ∈ f.names, o.lookup n = o₁.lookup n) ∧ ∀ n ∈ g.names, o.lookup n = o₂.lookup n := by
  simp only [and, Option.bind_eq_bind, Option.bind_eq_some_iff] at ho
  obtain ⟨o₁, h₁, o₂, h₂, ho⟩ := ho
  obtain rfl := Option.some.inj ho
  refine ⟨o₁, o₂, h₁, h₂, ?_, ?_⟩
  · intro n hn
    exact lookup_append_left fun hn₂ => h n hn (g.names_enc h₂ n hn₂)
  · intro n hn
    exact lookup_append_right fun hn₁ => h n (f.names_enc h₁ n hn₁) hn

/-- A field whose presence is information is there exactly when it has a value. -/
theorem presence_lookup {α : Type} {name : String} {c : Codec α} {a : Option α} {o : Object}
    (h : (presence name c).enc a = some o) : o.lookup name = a.bind c.enc := by
  cases a with
  | none =>
      obtain rfl := Option.some.inj h
      rfl
  | some a =>
      obtain ⟨v, hv, rfl⟩ := Option.map_eq_some_iff.1 h
      simp [hv]

end Fields

/-- Nothing is read from an object without a field that has to be there. -/
theorem Fields.field_dec_of_missing {α : Type} {name : String} {c : Codec α} {o : Object}
    (hmissing : c.missing = none) (h : o.lookup name = none) : (field name c).dec o = none := by
  simp [field, h, hmissing]

/-! ### Which values are in range -/

namespace Codec

@[simp] theorem fits_bool (b : Bool) : bool.fits b = true := rfl

@[simp] theorem fits_string (s : String) : string.fits s = true := rfl

@[simp] theorem fits_i64 {n : ℤ} : i64.fits n = true ↔ -2 ^ 63 ≤ n ∧ n < 2 ^ 63 := by
  simp [i64, int]

theorem fits_map {α β : Type} {c : Codec α} {toRep : β → Option α} {ofRep : α → Option β}
    {h : ∀ b a, toRep b = some a → ofRep a = some b} {b : β} :
    (c.map toRep ofRep h).fits b = (toRep b).all c.fits := rfl

theorem fits_nat {upper : ℤ} {h : -2 ^ 63 ≤ (0 : ℤ) ∧ upper ≤ 2 ^ 64} {n : ℕ} :
    (nat upper h).fits n = true ↔ (n : ℤ) < upper := by
  simp [nat, fits_map, int]

@[simp] theorem fits_u32 {n : ℕ} : u32.fits n = true ↔ n < 2 ^ 32 := by
  rw [u32, fits_nat]
  omega

@[simp] theorem fits_u64 {n : ℕ} : u64.fits n = true ↔ n < 2 ^ 64 := by
  rw [u64, fits_nat]
  omega

@[simp] theorem fits_usize {n : ℕ} : usize.fits n = true ↔ n < 2 ^ 64 := fits_u64

@[simp] theorem fits_unitEnum {α : Type} {name : α → String} {members : List α}
    {h : ∀ a, members.find? (fun b => name b == name a) = some a} (a : α) :
    (unitEnum name members h).fits a = true := rfl

@[simp] theorem fits_option {α : Type} {c : Codec α} {h : ∀ a, c.enc a ≠ some .null}
    {o : Option α} : (c.option h).fits o = true ↔ ∀ a ∈ o, c.fits a = true := by
  cases o <;> simp [option]

@[simp] theorem fits_list {α : Type} {c : Codec α} {l : List α} :
    c.list.fits l = true ↔ ∀ a ∈ l, c.fits a = true := List.all_eq_true

@[simp] theorem fits_struct {α β : Type} {f : Fields α} {toFields : β → α} {ofFields : α → β}
    {h : ∀ b, ofFields (toFields b) = b} {b : β} :
    (struct f toFields ofFields h).fits b = f.fits (toFields b) := rfl

end Codec

namespace Fields

@[simp] theorem fits_field {α : Type} {name : String} {c : Codec α} {a : α} :
    (field name c).fits a = c.fits a := rfl

@[simp] theorem fits_orDefault {α : Type} {name : String} {c : Codec α} {default a : α} :
    (orDefault name c default).fits a = c.fits a := rfl

@[simp] theorem fits_presence {α : Type} {name : String} {c : Codec α} {o : Option α} :
    (presence name c).fits o = true ↔ ∀ a ∈ o, c.fits a = true := by
  cases o <;> simp [presence]

@[simp] theorem fits_skipNone {α : Type} {name : String} {c : Codec α}
    {h : ∀ a, c.enc a ≠ some .null} {o : Option α} :
    (skipNone name c h).fits o = true ↔ ∀ a ∈ o, c.fits a = true := by
  cases o <;> simp [skipNone]

@[simp] theorem fits_and {α β : Type} {f : Fields α} {g : Fields β}
    {h : ∀ n ∈ f.names, n ∉ g.names} {p : α × β} :
    (f.and g h).fits p = (f.fits p.1 && g.fits p.2) := rfl

end Fields

end Json
