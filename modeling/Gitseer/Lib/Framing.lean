/-
**Frames that end with a separator.**

Items are written to a stream one after the other, each followed by a separator that no item
contains.  The reader collects what it has seen since the last separator, and gives out an item when
the next one comes.  It does not matter in which pieces the stream arrives; and when the stream
breaks off somewhere, the reader has a prefix of the items, and the beginning of the next one.

Main definitions:

* `Framing.write` — the items, each followed by the separator;
* `Framing.read` — the items read so far and the unfinished one.

Main results:

* `Framing.feed_append` — a stream can be read in pieces;
* `Framing.feed_of_prefix`, `Framing.read_of_prefix` — from a prefix of what was written the reader
  has a prefix of the items.
-/

import Mathlib.Data.List.Basic

set_option relaxedAutoImplicit false
set_option autoImplicit false

namespace Framing

variable {β : Type*} [DecidableEq β]

/-- The items, each followed by the separator. -/
def write (sep : β) (items : List (List β)) : List β := items.flatMap fun item => item ++ [sep]

/-- The reader takes one more symbol. -/
def push (sep : β) (state : List (List β) × List β) (b : β) : List (List β) × List β :=
  if b = sep then (state.1 ++ [state.2], []) else (state.1, state.2 ++ [b])

/-- The reader takes several symbols. -/
def feed (sep : β) (state : List (List β) × List β) (bytes : List β) :
    List (List β) × List β :=
  bytes.foldl (push sep) state

/-- The items that were read from the beginning of a stream, and the unfinished one. -/
def read (sep : β) (bytes : List β) : List (List β) × List β := feed sep ([], []) bytes

variable {sep : β}

/-- It does not matter in which pieces a stream arrives. -/
theorem feed_append (state : List (List β) × List β) (bytes bytes' : List β) :
    feed sep state (bytes ++ bytes') = feed sep (feed sep state bytes) bytes' :=
  List.foldl_append ..

/-- Symbols other than the separator are collected. -/
theorem feed_item (state : List (List β) × List β) {item : List β} (h : sep ∉ item) :
    feed sep state item = (state.1, state.2 ++ item) := by
  induction item generalizing state with
  | nil => simp [feed]
  | cons b item ih =>
      rw [List.mem_cons, not_or] at h
      obtain ⟨hb, hitem⟩ := h
      have hpush : push sep state b = (state.1, state.2 ++ [b]) := if_neg (Ne.symm hb)
      rw [feed, List.foldl_cons, hpush]
      change feed sep _ item = _
      rw [ih _ hitem, List.append_assoc]
      rfl

/-- A separator finishes the item. -/
theorem feed_frame (items : List (List β)) {item : List β} (h : sep ∉ item) :
    feed sep (items, []) (item ++ [sep]) = (items ++ [item], []) := by
  rw [feed_append, feed_item _ h, List.nil_append]
  exact if_pos rfl

/-- From a prefix of what was written the reader has a prefix of the items, and the beginning of the
next one. -/
theorem feed_of_prefix (done items : List (List β)) (h : ∀ item ∈ items, sep ∉ item)
    {bytes : List β} (hcut : bytes <+: write sep items) :
    ∃ before after rest, items = before ++ after ∧
      feed sep (done, []) bytes = (done ++ before, rest) ∧
      (rest = [] ∨ ∃ item ∈ after.head?, rest <+: item) ∧
      (bytes = write sep items → after = [] ∧ rest = []) := by
  induction items generalizing done bytes with
  | nil =>
      obtain rfl := List.prefix_nil.1 hcut
      exact ⟨[], [], [], rfl, by simp [feed], Or.inl rfl, fun _ => ⟨rfl, rfl⟩⟩
  | cons item items ih =>
      have hitem := h item List.mem_cons_self
      have hitems : ∀ item ∈ items, sep ∉ item := fun i hi => h i (List.mem_cons_of_mem _ hi)
      have hwrite : write sep (item :: items) = item ++ [sep] ++ write sep items := rfl
      rw [hwrite] at hcut ⊢
      by_cases hlen : bytes.length ≤ item.length
      · -- the stream breaks off within the first item
        have hwithin : bytes <+: item := by
          refine List.prefix_of_prefix_length_le hcut ?_ hlen
          rw [List.append_assoc]
          exact List.prefix_append ..
        have hbytes : sep ∉ bytes := fun hmem => hitem (hwithin.subset hmem)
        refine ⟨[], item :: items, bytes, rfl, by simp [feed_item _ hbytes], ?_, ?_⟩
        · exact Or.inr ⟨item, rfl, hwithin⟩
        · intro hall
          rw [hall] at hlen
          simp only [List.length_append, List.length_singleton] at hlen
          omega
      · -- the first item is finished
        have hframe : item ++ [sep] <+: bytes := by
          refine List.prefix_of_prefix_length_le (List.prefix_append ..) hcut ?_
          rw [List.length_append, List.length_singleton]
          omega
        obtain ⟨more, rfl⟩ := hframe
        rw [List.prefix_append_right_inj] at hcut
        obtain ⟨before, after, rest, rfl, hfeed, hrest, hall⟩ := ih (done ++ [item]) hitems hcut
        refine ⟨item :: before, after, rest, rfl, ?_, hrest, fun heq => ?_⟩
        · rw [feed_append, feed_frame done hitem, hfeed, List.append_assoc]
          rfl
        · exact hall (List.append_cancel_left heq)

/-- From a prefix of what was written the reader has a prefix of the items, and the beginning of the
next one; from all of it, all items. -/
theorem read_of_prefix {items : List (List β)} (h : ∀ item ∈ items, sep ∉ item) {bytes : List β}
    (hcut : bytes <+: write sep items) :
    (read sep bytes).1 <+: items ∧ (bytes = write sep items → (read sep bytes).1 = items) := by
  obtain ⟨before, after, rest, rfl, hfeed, -, hall⟩ := feed_of_prefix [] items h hcut
  rw [read, hfeed]
  refine ⟨List.prefix_append .., fun heq => ?_⟩
  obtain ⟨rfl, -⟩ := hall heq
  rw [List.append_nil]
  rfl

end Framing
