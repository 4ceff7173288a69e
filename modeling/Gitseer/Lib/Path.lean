/-
**Paths of a Unix file system.**

`std::path` compares paths by their components: repeated separators, a trailing separator and
inner `.` components do not count.  A path is therefore modelled by its components: how it starts
and the list of its names.  A name is a byte string that can be a component (not empty, without a
separator, not `.`), and that is a field of its type.  Names need not be UTF-8: `toStr` is the
conversion that fails on such a path, `toStringLossy` the one that replaces what it cannot read.

Main definitions:

* `Utf8.lossy` — decoding bytes, with the replacement character for each maximal ill-formed part;
* `StdPath.FileName`, `StdPath.PathBuf` — names and paths;
* `StdPath.PathBuf.join`, `startsWith`, `stripPrefix`, `fileName` — the operations of `std::path`;
* `StdPath.PathBuf.toBytes`, `StdPath.PathBuf.ofBytes` — the text of a path, and reading one.

Main results:

* `StdPath.PathBuf.ofBytes_toBytes` — reading the text of a path gives the path back;
* `StdPath.PathBuf.stripPrefix_descend` — what is left of a path below a directory;
* `Utf8.lossy_utf8EncodeChar` — decoding the bytes of a character gives it back, so that
  `StdPath.PathBuf.toStringLossy_of_toStr`: text that is UTF-8 loses nothing.
-/

import Mathlib.Data.List.Lex

set_option relaxedAutoImplicit false
set_option autoImplicit false

/-! ### Lossy UTF-8 decoding -/

namespace Utf8

/-- The character that stands for an ill-formed part. -/
def replacement : Char := Char.ofNat 0xFFFD

/-- Is the byte a continuation byte? -/
def tail (b : UInt8) : Bool := 0x80 ≤ b && b ≤ 0xBF

/-- May the byte `b₁` follow the first byte `b₀` of a three-byte sequence? -/
def second3 (b₀ b₁ : UInt8) : Bool :=
  if b₀ = 0xE0 then 0xA0 ≤ b₁ && b₁ ≤ 0xBF
  else if b₀ = 0xED then 0x80 ≤ b₁ && b₁ ≤ 0x9F
  else tail b₁

/-- May the byte `b₁` follow the first byte `b₀` of a four-byte sequence? -/
def second4 (b₀ b₁ : UInt8) : Bool :=
  if b₀ = 0xF0 then 0x90 ≤ b₁ && b₁ ≤ 0xBF
  else if b₀ = 0xF4 then 0x80 ≤ b₁ && b₁ ≤ 0x8F
  else tail b₁

/-- The payload of a continuation byte. -/
def payload (b : UInt8) : ℕ := b.toNat % 64

/-- Decoding, with one replacement character for each maximal ill-formed part. -/
def lossy : List UInt8 → List Char
  | [] => []
  | b₀ :: rest =>
      if b₀ < 0x80 then Char.ofNat b₀.toNat :: lossy rest
      else if 0xC2 ≤ b₀ && b₀ ≤ 0xDF then
        match rest with
        | b₁ :: rest₁ =>
            if tail b₁ then Char.ofNat (b₀.toNat % 32 * 64 + payload b₁) :: lossy rest₁
            else replacement :: lossy (b₁ :: rest₁)
        | [] => [replacement]
      else if 0xE0 ≤ b₀ && b₀ ≤ 0xEF then
        match rest with
        | b₁ :: b₂ :: rest₂ =>
            if second3 b₀ b₁ then
              if tail b₂ then
                Char.ofNat ((b₀.toNat % 16 * 64 + payload b₁) * 64 + payload b₂) :: lossy rest₂
              else replacement :: lossy (b₂ :: rest₂)
            else replacement :: lossy (b₁ :: b₂ :: rest₂)
        | [b₁] => if second3 b₀ b₁ then [replacement] else replacement :: lossy [b₁]
        | [] => [replacement]
      else if 0xF0 ≤ b₀ && b₀ ≤ 0xF4 then
        match rest with
        | b₁ :: b₂ :: b₃ :: rest₃ =>
            if second4 b₀ b₁ then
              if tail b₂ then
                if tail b₃ then
                  Char.ofNat (((b₀.toNat % 8 * 64 + payload b₁) * 64 + payload b₂) * 64
                    + payload b₃) :: lossy rest₃
                else replacement :: lossy (b₃ :: rest₃)
              else replacement :: lossy (b₂ :: b₃ :: rest₃)
            else replacement :: lossy (b₁ :: b₂ :: b₃ :: rest₃)
        | [b₁, b₂] =>
            if second4 b₀ b₁ then
              if tail b₂ then [replacement] else replacement :: lossy [b₂]
            else replacement :: lossy [b₁, b₂]
        | [b₁] => if second4 b₀ b₁ then [replacement] else replacement :: lossy [b₁]
        | [] => [replacement]
      else replacement :: lossy rest

/-! ### Decoding what was encoded -/

theorem tail_iff {b : UInt8} : tail b = true ↔ 128 ≤ b.toNat ∧ b.toNat ≤ 191 := by
  simp only [tail, Bool.and_eq_true, decide_eq_true_eq, UInt8.le_iff_toNat_le]
  exact Iff.rfl

theorem second3_of_range {b₀ b₁ : UInt8} (h : 128 ≤ b₁.toNat ∧ b₁.toNat ≤ 191)
    (hlow : b₀.toNat = 224 → 160 ≤ b₁.toNat) (hsurrogate : b₀.toNat = 237 → b₁.toNat ≤ 159) :
    second3 b₀ b₁ = true := by
  unfold second3
  split_ifs with h₁ h₂
  · subst h₁
    simpa [UInt8.le_iff_toNat_le] using ⟨hlow rfl, h.2⟩
  · subst h₂
    simpa [UInt8.le_iff_toNat_le] using ⟨h.1, hsurrogate rfl⟩
  · exact tail_iff.2 h

theorem second4_of_range {b₀ b₁ : UInt8} (h : 128 ≤ b₁.toNat ∧ b₁.toNat ≤ 191)
    (hlow : b₀.toNat = 240 → 144 ≤ b₁.toNat) (hhigh : b₀.toNat = 244 → b₁.toNat ≤ 143) :
    second4 b₀ b₁ = true := by
  unfold second4
  split_ifs with h₁ h₂
  · subst h₁
    simpa [UInt8.le_iff_toNat_le] using ⟨hlow rfl, h.2⟩
  · subst h₂
    simpa [UInt8.le_iff_toNat_le] using ⟨h.1, hhigh rfl⟩
  · exact tail_iff.2 h

/-- The range tests of `lossy` on a first byte, as numbers. -/
theorem between_iff {a b c : UInt8} :
    (a ≤ b && b ≤ c) = true ↔ a.toNat ≤ b.toNat ∧ b.toNat ≤ c.toNat := by
  simp only [Bool.and_eq_true, decide_eq_true_eq, UInt8.le_iff_toNat_le]

theorem not_ascii {b : UInt8} (h : 128 ≤ b.toNat) : ¬ b < 0x80 := by
  intro hb
  have hlt : b.toNat < 128 := UInt8.lt_iff_toNat_lt.1 hb
  omega

/-- An ASCII byte is its own character. -/
theorem lossy_cons_ascii {b : UInt8} (h : b.toNat < 128) (rest : List UInt8) :
    lossy (b :: rest) = Char.ofNat b.toNat :: lossy rest := by
  rw [lossy.eq_def]
  have hb : b < 0x80 := UInt8.lt_iff_toNat_lt.2 h
  simp only [if_pos hb]

theorem lossy_two {b₀ b₁ : UInt8} (h₀ : 194 ≤ b₀.toNat ∧ b₀.toNat ≤ 223) (h₁ : tail b₁ = true)
    (rest : List UInt8) :
    lossy (b₀ :: b₁ :: rest) = Char.ofNat (b₀.toNat % 32 * 64 + payload b₁) :: lossy rest := by
  have hascii : ¬ b₀ < 0x80 := not_ascii (by omega)
  have hrange : (0xC2 ≤ b₀ && b₀ ≤ 0xDF) = true := between_iff.2 h₀
  rw [lossy.eq_def]
  simp only [if_neg hascii, if_pos hrange, if_pos h₁]

theorem lossy_three {b₀ b₁ b₂ : UInt8} (h₀ : 224 ≤ b₀.toNat ∧ b₀.toNat ≤ 239)
    (h₁ : second3 b₀ b₁ = true) (h₂ : tail b₂ = true) (rest : List UInt8) :
    lossy (b₀ :: b₁ :: b₂ :: rest) =
      Char.ofNat ((b₀.toNat % 16 * 64 + payload b₁) * 64 + payload b₂) :: lossy rest := by
  have hascii : ¬ b₀ < 0x80 := not_ascii (by omega)
  have htwo : ¬ (0xC2 ≤ b₀ && b₀ ≤ 0xDF) = true :=
    fun h => absurd (between_iff.1 h).2 (by change ¬ _ ≤ 223; omega)
  have hrange : (0xE0 ≤ b₀ && b₀ ≤ 0xEF) = true := between_iff.2 h₀
  rw [lossy.eq_def]
  simp only [if_neg hascii, if_neg htwo, if_pos hrange, if_pos h₁, if_pos h₂]

theorem lossy_four {b₀ b₁ b₂ b₃ : UInt8} (h₀ : 240 ≤ b₀.toNat ∧ b₀.toNat ≤ 244)
    (h₁ : second4 b₀ b₁ = true) (h₂ : tail b₂ = true) (h₃ : tail b₃ = true) (rest : List UInt8) :
    lossy (b₀ :: b₁ :: b₂ :: b₃ :: rest) =
      Char.ofNat (((b₀.toNat % 8 * 64 + payload b₁) * 64 + payload b₂) * 64 + payload b₃) ::
        lossy rest := by
  have hascii : ¬ b₀ < 0x80 := not_ascii (by omega)
  have htwo : ¬ (0xC2 ≤ b₀ && b₀ ≤ 0xDF) = true :=
    fun h => absurd (between_iff.1 h).2 (by change ¬ _ ≤ 223; omega)
  have hthree : ¬ (0xE0 ≤ b₀ && b₀ ≤ 0xEF) = true :=
    fun h => absurd (between_iff.1 h).2 (by change ¬ _ ≤ 239; omega)
  have hrange : (0xF0 ≤ b₀ && b₀ ≤ 0xF4) = true := between_iff.2 h₀
  rw [lossy.eq_def]
  simp only [if_neg hascii, if_neg htwo, if_neg hthree, if_pos hrange, if_pos h₁, if_pos h₂,
    if_pos h₃]

/-- The bytes of a character decode to it. -/
theorem lossy_utf8EncodeChar (c : Char) (rest : List UInt8) :
    lossy (String.utf8EncodeChar c ++ rest) = c :: lossy rest := by
  have hvalid : c.toNat < 0xD800 ∨ 0xDFFF < c.toNat ∧ c.toNat < 0x110000 := c.valid
  have hc : Char.ofNat c.toNat = c := Char.ofNat_toNat c
  have hbyte : ∀ n : ℕ, n < 256 → (UInt8.ofNat n).toNat = n := by
    intro n hn
    simp [Nat.mod_eq_of_lt hn]
  unfold String.utf8EncodeChar
  change lossy ((if c.toNat ≤ 127 then _ else if c.toNat ≤ 2047 then _
    else if c.toNat ≤ 65535 then _ else _) ++ rest) = _
  have hval : c.val.toNat = c.toNat := rfl
  simp only [hval]
  generalize c.toNat = v at hvalid hc ⊢
  split_ifs with h₁ h₂ h₃
  · have hb := hbyte v (by omega)
    rw [List.singleton_append, lossy_cons_ascii (by omega), hb, hc]
  · have hb₀ := hbyte (v / 64 % 32 + 192) (by omega)
    have hb₁ := hbyte (v % 64 + 128) (by omega)
    have hv : (v / 64 % 32 + 192) % 32 * 64 + (v % 64 + 128) % 64 = v := by omega
    rw [List.cons_append, List.singleton_append, lossy_two (by omega) (tail_iff.2 (by omega)),
      payload, hb₀, hb₁, hv, hc]
  · have hb₀ := hbyte (v / 4096 % 16 + 224) (by omega)
    have hb₁ := hbyte (v / 64 % 64 + 128) (by omega)
    have hb₂ := hbyte (v % 64 + 128) (by omega)
    have hv : ((v / 4096 % 16 + 224) % 16 * 64 + (v / 64 % 64 + 128) % 64) * 64 +
        (v % 64 + 128) % 64 = v := by omega
    have hsecond : second3 (UInt8.ofNat (v / 4096 % 16 + 224))
        (UInt8.ofNat (v / 64 % 64 + 128)) = true :=
      second3_of_range (by omega) (by omega) (by omega)
    rw [List.cons_append, List.cons_append, List.singleton_append,
      lossy_three (by omega) hsecond (tail_iff.2 (by omega)), payload, payload, hb₀, hb₁, hb₂, hv,
      hc]
  · have hb₀ := hbyte (v / 262144 % 8 + 240) (by omega)
    have hb₁ := hbyte (v / 4096 % 64 + 128) (by omega)
    have hb₂ := hbyte (v / 64 % 64 + 128) (by omega)
    have hb₃ := hbyte (v % 64 + 128) (by omega)
    have hv : (((v / 262144 % 8 + 240) % 8 * 64 + (v / 4096 % 64 + 128) % 64) * 64 +
        (v / 64 % 64 + 128) % 64) * 64 + (v % 64 + 128) % 64 = v := by omega
    have hsecond : second4 (UInt8.ofNat (v / 262144 % 8 + 240))
        (UInt8.ofNat (v / 4096 % 64 + 128)) = true :=
      second4_of_range (by omega) (by omega) (by omega)
    rw [List.cons_append, List.cons_append, List.cons_append, List.singleton_append,
      lossy_four (by omega) hsecond (tail_iff.2 (by omega)) (tail_iff.2 (by omega)), payload,
      payload, payload, hb₀, hb₁, hb₂, hb₃, hv, hc]

/-- Text that is UTF-8 decodes to itself, whatever follows it. -/
theorem lossy_flatMap_append (l : List Char) (rest : List UInt8) :
    lossy (l.flatMap String.utf8EncodeChar ++ rest) = l ++ lossy rest := by
  induction l with
  | nil => rfl
  | cons c l ih =>
      rw [List.flatMap_cons, List.append_assoc, lossy_utf8EncodeChar, ih, List.cons_append]

theorem data_toList_utf8Encode (l : List Char) :
    l.utf8Encode.data.toList = l.flatMap String.utf8EncodeChar := by
  simp [List.utf8Encode]

/-- Only the line feed ends with the byte of a line feed. -/
theorem eq_newline_of_utf8EncodeChar {c : Char} {b : List UInt8}
    (h : String.utf8EncodeChar c = b ++ [10]) : c = '\n' ∧ b = [] := by
  have hlength : b.length < (String.utf8EncodeChar c).length := by simp [h]
  have hlast : (String.utf8EncodeChar c)[b.length] = 10 := by simp [h]
  have hfirst : (String.utf8EncodeChar c)[b.length].IsUTF8FirstByte := by
    rw [hlast]
    decide
  have hb := UInt8.isUTF8FirstByte_getElem_utf8EncodeChar.1 hfirst
  obtain rfl := List.length_eq_zero_iff.1 hb
  have hc := lossy_utf8EncodeChar c []
  have hnewline := lossy_utf8EncodeChar '\n' []
  rw [h] at hc
  exact ⟨List.head_eq_of_cons_eq (hc.symm.trans hnewline), rfl⟩

/-- Text whose bytes end with a line feed ends with one. -/
theorem exists_of_flatMap_eq_concat {l : List Char} {b : List UInt8}
    (h : l.flatMap String.utf8EncodeChar = b ++ [10]) :
    ∃ t, l = t ++ ['\n'] ∧ t.flatMap String.utf8EncodeChar = b := by
  rcases List.eq_nil_or_concat' l with rfl | ⟨t, c, rfl⟩
  · simp at h
  · rw [List.flatMap_append, List.flatMap_singleton] at h
    rcases List.eq_nil_or_concat' (String.utf8EncodeChar c) with hc | ⟨b', x, hc⟩
    · exact absurd hc String.utf8EncodeChar_ne_nil
    · rw [hc, ← List.append_assoc] at h
      obtain ⟨rfl, hx⟩ := List.append_inj' h rfl
      obtain rfl := List.head_eq_of_cons_eq hx
      obtain ⟨rfl, rfl⟩ := eq_newline_of_utf8EncodeChar hc
      exact ⟨t, rfl, (List.append_nil _).symm⟩

end Utf8

namespace StdPath

/-! ### Names -/

/-- The path separator. -/
def separator : UInt8 := 47

/-- The text of the current-directory component. -/
def dot : List UInt8 := [46]

/-- The bytes of a string. -/
def bytesOf (s : String) : List UInt8 := s.toByteArray.data.toList

theorem fromUTF8?_eq_some_iff {b : List UInt8} {s : String} :
    String.fromUTF8? ⟨b.toArray⟩ = some s ↔ bytesOf s = b := by
  constructor
  · intro h
    simp only [String.fromUTF8?] at h
    split at h
    · obtain rfl := Option.some.inj h
      rfl
    · cases h
  · rintro rfl
    simp [String.fromUTF8?, bytesOf, s.isValidUTF8]
    rfl

theorem bytesOf_append (s t : String) : bytesOf (s ++ t) = bytesOf s ++ bytesOf t := by
  simp [bytesOf]

theorem bytesOf_eq_flatMap (s : String) : bytesOf s = s.toList.flatMap String.utf8EncodeChar := by
  rw [bytesOf, ← String.utf8Encode_toList, Utf8.data_toList_utf8Encode]

/-- A line feed at the end is not part of a character. -/
theorem fromUTF8?_concat_newline (b : List UInt8) :
    String.fromUTF8? ⟨(b ++ [10]).toArray⟩ =
      (String.fromUTF8? ⟨b.toArray⟩).map (· ++ "\n") := by
  refine Option.ext fun s => ?_
  rw [fromUTF8?_eq_some_iff, Option.map_eq_some_iff]
  constructor
  · intro h
    rw [bytesOf_eq_flatMap] at h
    obtain ⟨t, hs, ht⟩ := Utf8.exists_of_flatMap_eq_concat h
    refine ⟨String.ofList t, ?_, ?_⟩
    · rw [fromUTF8?_eq_some_iff, bytesOf_eq_flatMap, String.toList_ofList]
      exact ht
    · rw [← String.toList_inj, String.toList_append, String.toList_ofList]
      exact hs.symm
  · rintro ⟨t, ht, rfl⟩
    rw [bytesOf_append, fromUTF8?_eq_some_iff.1 ht]
    rfl

/-- The byte strings that can be a component of a path. -/
def ValidName (b : List UInt8) : Prop := b ≠ [] ∧ separator ∉ b ∧ b ≠ dot

instance (b : List UInt8) : Decidable (ValidName b) :=
  inferInstanceAs (Decidable (b ≠ [] ∧ separator ∉ b ∧ b ≠ dot))

/-- A component of a path other than the root and the leading `.`. -/
structure FileName where
  bytes : List UInt8
  /-- The bytes can be a component. -/
  valid : ValidName bytes
  deriving DecidableEq

/-- The name written as a string. -/
def FileName.ofString (s : String) (h : ValidName (bytesOf s) := by decide) : FileName :=
  ⟨bytesOf s, h⟩

/-- The name of the parent-directory component. -/
def parentDir : FileName := FileName.ofString ".."

theorem FileName.ext_bytes {a b : FileName} (h : a.bytes = b.bytes) : a = b := by
  cases a
  cases b
  simp only at h
  subst h
  rfl

/-! ### Paths -/

/-- How a path starts. -/
inductive PathStart
  | rootDir
  | curDir
  | relative
  deriving DecidableEq

/-- A path, by its components. -/
structure PathBuf where
  start : PathStart
  names : List FileName
  deriving DecidableEq

namespace PathBuf

/-- The path without components. -/
def empty : PathBuf := ⟨.relative, []⟩

/-- The absolute path with the given names. -/
def absolute (names : List FileName) : PathBuf := ⟨.rootDir, names⟩

/-- The relative path with the given names. -/
def relative (names : List FileName) : PathBuf := ⟨.relative, names⟩

/-- `Path::is_absolute`. -/
def isAbsolute (p : PathBuf) : Bool := p.start = .rootDir

/-- `Path::join`. -/
def join (p q : PathBuf) : PathBuf :=
  if q.start = .rootDir ∨ p = empty then q else ⟨p.start, p.names ++ q.names⟩

/-- `Path::starts_with`: whole components are compared. -/
def startsWith (p base : PathBuf) : Bool :=
  base = empty || (p.start = base.start && base.names.isPrefixOf p.names)

/-- `Path::strip_prefix`, the path that is left. -/
def stripPrefix (p base : PathBuf) : Option PathBuf :=
  if base = empty then some p
  else if p.start = base.start && base.names.isPrefixOf p.names then
    some (relative (p.names.drop base.names.length))
  else none

/-- `Path::file_name`. -/
def fileName (p : PathBuf) : Option FileName :=
  p.names.getLast?.filter fun name => name ≠ parentDir

/-- A directory and a name below it. -/
def child (p : PathBuf) (name : FileName) : PathBuf := ⟨p.start, p.names ++ [name]⟩

/-- A path and the names below it. -/
def descend (p : PathBuf) (names : List FileName) : PathBuf := ⟨p.start, p.names ++ names⟩

@[simp] theorem descend_nil (p : PathBuf) : p.descend [] = p := by simp [descend]

theorem descend_cons (p : PathBuf) (name : FileName) (names : List FileName) :
    p.descend (name :: names) = (p.child name).descend names := by simp [descend, child]

theorem descend_injective (p : PathBuf) : Function.Injective p.descend := by
  intro l l' h
  simpa [descend] using h

theorem stripPrefix_descend (p : PathBuf) (names : List FileName) :
    (p.descend names).stripPrefix p = some (relative names) := by
  by_cases hp : p = empty
  · subst hp
    simp [stripPrefix, descend, empty, relative]
  · simp [stripPrefix, hp, descend]

theorem descend_append (p : PathBuf) (names names' : List FileName) :
    p.descend (names ++ names') = (p.descend names).descend names' := by simp [descend]

theorem descend_child (p : PathBuf) (names : List FileName) (name : FileName) :
    (p.descend names).child name = p.descend (names ++ [name]) := by simp [descend, child]

theorem descend_ne_self (p : PathBuf) {names : List FileName} (hnames : names ≠ []) :
    p.descend names ≠ p := by
  intro h
  have hnil : p.descend names = p.descend [] := by rw [h, descend_nil]
  exact hnames (descend_injective p hnil)

/-- The paths that start with a directory are those below it. -/
theorem startsWith_iff {p base : PathBuf} :
    p.startsWith base = true ↔ base = empty ∨ ∃ names, p = base.descend names := by
  simp only [startsWith, Bool.or_eq_true, Bool.and_eq_true, decide_eq_true_eq,
    List.isPrefixOf_iff_prefix]
  refine or_congr Iff.rfl ?_
  obtain ⟨start, names⟩ := p
  constructor
  · rintro ⟨hstart, rest, hrest⟩
    exact ⟨rest, by simp only [descend, hrest, ← hstart]⟩
  · rintro ⟨rest, hrest⟩
    rw [hrest]
    exact ⟨rfl, List.prefix_append _ _⟩

theorem startsWith_descend (p : PathBuf) (names : List FileName) :
    (p.descend names).startsWith p = true := startsWith_iff.2 (Or.inr ⟨names, rfl⟩)

theorem startsWith_self (p : PathBuf) : p.startsWith p = true :=
  startsWith_iff.2 (Or.inr ⟨[], (descend_nil p).symm⟩)

theorem startsWith_descend_iff {p q : PathBuf} {names : List FileName} (hnames : names ≠ []) :
    q.startsWith (p.descend names) = true ↔ ∃ more, q = (p.descend names).descend more := by
  have hne : p.descend names ≠ empty := by
    intro h
    exact hnames (List.append_eq_nil_iff.1 (congrArg PathBuf.names h)).2
  rw [startsWith_iff, or_iff_right hne]

theorem eq_descend_of_stripPrefix {p base : PathBuf} {names : List FileName}
    (h : p.stripPrefix base = some (relative names)) : p = base.descend names := by
  unfold stripPrefix at h
  split_ifs at h with hbase hpre
  · obtain rfl := Option.some.inj h
    subst hbase
    simp [descend, empty, relative]
  · simp only [Bool.and_eq_true, decide_eq_true_eq, List.isPrefixOf_iff_prefix] at hpre
    obtain ⟨hstart, rest, hrest⟩ := hpre
    simp only [relative, Option.some.injEq, mk.injEq, true_and, ← hrest,
      List.drop_left] at h
    obtain ⟨start, l⟩ := p
    simp only at hstart hrest
    rw [descend, ← hstart, ← h, hrest]

/-- Two directories with a common path below them are nested. -/
theorem nested_of_descend_eq {p q : PathBuf} {names names' : List FileName}
    (h : p.descend names = q.descend names') :
    p.startsWith q = true ∨ q.startsWith p = true := by
  simp only [descend, mk.injEq] at h
  obtain ⟨hstart, hnames⟩ := h
  have hprefix : p.names <+: q.names ++ names' := ⟨names, hnames⟩
  rcases List.prefix_or_prefix_of_prefix hprefix (List.prefix_append _ _) with hpre | hpre
  · right
    simp [startsWith, hstart, hpre]
  · left
    simp [startsWith, hstart, hpre]

theorem stripPrefix_eq_none {p base : PathBuf} (h : p.startsWith base = false) :
    p.stripPrefix base = none := by
  simp only [startsWith, Bool.or_eq_false_iff, decide_eq_false_iff_not] at h
  rw [stripPrefix, if_neg h.1, h.2]
  rfl

/-- An absolute path is not joined to anything. -/
theorem join_of_isAbsolute {p q : PathBuf} (habsolute : q.isAbsolute = true) : p.join q = q := by
  unfold join
  exact if_pos (.inl (of_decide_eq_true habsolute))

/-- Joining a single relative name is going to a child. -/
@[simp] theorem join_relative (p : PathBuf) (name : FileName) :
    p.join (relative [name]) = p.child name := by
  by_cases hp : p = empty
  · subst hp
    simp [join, child, empty, relative]
  · simp [join, child, hp, relative]

theorem foldl_child (p : PathBuf) (names : List FileName) :
    names.foldl child p = p.descend names := by
  induction names generalizing p with
  | nil => rw [List.foldl_nil, descend_nil]
  | cons name names ih => rw [List.foldl_cons, ih, descend_cons]

/-! ### The text of a path -/

/-- The text of a path. -/
def toBytes (p : PathBuf) : List UInt8 :=
  match p.start with
  | .rootDir => separator :: [separator].intercalate (p.names.map FileName.bytes)
  | .curDir => [separator].intercalate (dot :: p.names.map FileName.bytes)
  | .relative => [separator].intercalate (p.names.map FileName.bytes)

/-- The part of a text between two separators, when it is a component. -/
def nameOf (b : List UInt8) : Option FileName :=
  if h : ValidName b then some ⟨b, h⟩ else none

/-- The path with a given text. -/
def ofBytes (b : List UInt8) : PathBuf :=
  if b.head? = some separator then ⟨.rootDir, (b.splitOn separator).filterMap nameOf⟩
  else if (b.splitOn separator).head? = some dot then
    ⟨.curDir, (b.splitOn separator).filterMap nameOf⟩
  else ⟨.relative, (b.splitOn separator).filterMap nameOf⟩

/-- `Path::to_str`: the text of the path, when it is UTF-8. -/
def toStr (p : PathBuf) : Option String := String.fromUTF8? ⟨p.toBytes.toArray⟩

/-- `Path::to_string_lossy`. -/
def toStringLossy (p : PathBuf) : String := String.ofList (Utf8.lossy p.toBytes)

/-- The path written as a string. -/
def ofString (s : String) : PathBuf := ofBytes (bytesOf s)

@[simp] theorem nameOf_bytes (name : FileName) : nameOf name.bytes = some name := by
  simp [nameOf, name.valid]

theorem filterMap_nameOf_bytes (names : List FileName) :
    (names.map FileName.bytes).filterMap nameOf = names := by
  induction names with
  | nil => rfl
  | cons name names ih => simp [ih]

theorem splitOn_intercalate_names {l : List (List UInt8)} (hl : l ≠ [])
    (hsep : ∀ b ∈ l, separator ∉ b) :
    ([separator].intercalate l).splitOn separator = l :=
  List.splitOn_intercalate separator hsep hl

theorem separator_not_mem_bytes {names : List FileName} {b : List UInt8}
    (hb : b ∈ names.map FileName.bytes) : separator ∉ b := by
  obtain ⟨name, -, rfl⟩ := List.mem_map.1 hb
  exact name.valid.2.1

theorem head_intercalate_cons (b : List UInt8) (l : List (List UInt8)) (hb : b ≠ []) :
    ([separator].intercalate (b :: l)).head? = b.head? := by
  cases b with
  | nil => exact absurd rfl hb
  | cons x b => cases l <;> simp [List.intercalate]

/-- The text of a relative path does not start with a separator. -/
theorem head_names_ne_separator (names : List FileName) :
    ([separator].intercalate (names.map FileName.bytes)).head? ≠ some separator := by
  cases names with
  | nil => simp [List.intercalate]
  | cons name names =>
      rw [List.map_cons, head_intercalate_cons _ _ name.valid.1]
      intro h
      exact name.valid.2.1 (List.mem_of_mem_head? h)

/-- Reading the text of a path gives the path back. -/
theorem ofBytes_toBytes (p : PathBuf) : ofBytes p.toBytes = p := by
  obtain ⟨start, names⟩ := p
  have hsep : ∀ b ∈ names.map FileName.bytes, separator ∉ b :=
    fun b hb => separator_not_mem_bytes hb
  cases start with
  | rootDir =>
      -- the text starts with a separator, in front of which the empty part is dropped
      cases names with
      | nil => decide
      | cons name names =>
          have htext : separator :: [separator].intercalate ((name :: names).map FileName.bytes) =
              [separator].intercalate ([] :: (name :: names).map FileName.bytes) := by
            simp [List.intercalate]
          have hsplit : (separator ::
              [separator].intercalate ((name :: names).map FileName.bytes)).splitOn separator =
              [] :: (name :: names).map FileName.bytes := by
            rw [htext]
            refine splitOn_intercalate_names (by simp) ?_
            intro b hb
            rcases List.mem_cons.1 hb with rfl | hb
            · simp
            · exact hsep b hb
          have hnil : nameOf [] = none := by decide
          simp only [ofBytes, toBytes, List.head?_cons, if_true, hsplit]
          rw [List.filterMap_cons_none hnil, filterMap_nameOf_bytes]
  | curDir =>
      have hsplit : ([separator].intercalate (dot :: names.map FileName.bytes)).splitOn separator =
          dot :: names.map FileName.bytes := by
        refine splitOn_intercalate_names (by simp) ?_
        intro b hb
        rcases List.mem_cons.1 hb with rfl | hb
        · decide
        · exact hsep b hb
      have hhead : ([separator].intercalate (dot :: names.map FileName.bytes)).head? ≠
          some separator := by
        rw [head_intercalate_cons _ _ (by decide)]
        decide
      have hdot : nameOf dot = none := by decide
      simp only [ofBytes, toBytes, hhead, if_false, hsplit, List.head?_cons, if_true]
      rw [List.filterMap_cons_none hdot, filterMap_nameOf_bytes]
  | relative =>
      cases names with
      | nil => decide
      | cons name names =>
          have hsplit := splitOn_intercalate_names (l := (name :: names).map FileName.bytes)
            (by simp) hsep
          have hhead := head_names_ne_separator (name :: names)
          have hdot : ((name :: names).map FileName.bytes).head? ≠ some dot := by
            simpa using name.valid.2.2
          simp only [ofBytes, toBytes, hhead, if_false, hsplit, hdot]
          rw [filterMap_nameOf_bytes]

/-- The text of a path that is UTF-8. -/
theorem toBytes_of_toStr {p : PathBuf} {s : String} (h : p.toStr = some s) :
    p.toBytes = bytesOf s :=
  (fromUTF8?_eq_some_iff.1 h).symm

/-- Reading back the text of a path that is UTF-8. -/
theorem ofString_of_toStr {p : PathBuf} {s : String} (h : p.toStr = some s) : ofString s = p := by
  rw [ofString, ← toBytes_of_toStr h]
  exact ofBytes_toBytes p

/-- A text that is UTF-8 up to some point decodes to it up to there. -/
theorem lossy_bytesOf_append (s : String) (rest : List UInt8) :
    Utf8.lossy (bytesOf s ++ rest) = s.toList ++ Utf8.lossy rest := by
  rw [bytesOf_eq_flatMap, Utf8.lossy_flatMap_append]

/-- The text of a path that is UTF-8 loses nothing. -/
theorem toStringLossy_of_toStr {p : PathBuf} {s : String} (h : p.toStr = some s) :
    p.toStringLossy = s := by
  have hlossy := lossy_bytesOf_append s []
  rw [List.append_nil, Utf8.lossy.eq_def [], List.append_nil] at hlossy
  rw [toStringLossy, toBytes_of_toStr h, hlossy, String.ofList_toList]

/-- The text of a path below a directory starts with that of the directory. -/
theorem toBytes_relative_append {l l' : List FileName} (hl : l ≠ []) (hl' : l' ≠ []) :
    (relative (l ++ l')).toBytes = (relative l).toBytes ++ separator :: (relative l').toBytes := by
  induction l with
  | nil => exact absurd rfl hl
  | cons name l ih =>
      cases l with
      | nil =>
          obtain ⟨name', l', rfl⟩ := List.exists_cons_of_ne_nil hl'
          simp [toBytes, relative, List.intercalate]
      | cons name₂ l =>
          have ih := ih (by simp)
          simp only [toBytes, relative, List.map_cons, List.cons_append, List.map_append] at ih ⊢
          simp only [List.intercalate, List.intersperse_cons_cons, List.flatten_cons] at ih ⊢
          rw [ih]
          simp

theorem toStringLossy_of_toBytes {p : PathBuf} {s : String} {rest : List UInt8}
    (h : p.toBytes = bytesOf s ++ rest) :
    p.toStringLossy.toList = s.toList ++ Utf8.lossy rest := by
  rw [toStringLossy, h, lossy_bytesOf_append, String.toList_ofList]

/-- The text of a path below a directory, when that of the directory is UTF-8. -/
theorem toStringLossy_below {dir rest : List FileName} (hdir : dir ≠ []) (hrest : rest ≠ [])
    {start : String} (hstart : (relative dir).toBytes ++ [separator] = bytesOf start) :
    (relative (dir ++ rest)).toStringLossy.toList =
      start.toList ++ (relative rest).toStringLossy.toList := by
  have hbytes : (relative (dir ++ rest)).toBytes = bytesOf start ++ (relative rest).toBytes := by
    rw [toBytes_relative_append hdir hrest, ← hstart, List.append_assoc, List.singleton_append]
  rw [toStringLossy_of_toBytes hbytes, toStringLossy, String.toList_ofList]

/-- The text of a file whose name has an ending added to it. -/
theorem toBytes_relative_of_ending {dir : List FileName} {name name' : FileName}
    {ending : List UInt8} (h : name'.bytes = name.bytes ++ ending) :
    (relative (dir ++ [name'])).toBytes = (relative (dir ++ [name])).toBytes ++ ending := by
  have hsingle : ∀ n : FileName, (relative [n]).toBytes = n.bytes := fun n => by
    simp [toBytes, relative, List.intercalate]
  by_cases hdir : dir = []
  · rw [hdir, List.nil_append, List.nil_append, hsingle, hsingle, h]
  · rw [toBytes_relative_append hdir (by simp), toBytes_relative_append hdir (by simp), hsingle,
      hsingle, h, List.append_assoc, List.cons_append]

/-! ### The order of paths -/

/-- The key a name is ordered by: the parent directory comes before every other name. -/
def nameKey (name : FileName) : List ℕ :=
  if name = parentDir then [2] else 3 :: name.bytes.map UInt8.toNat

theorem nameKey_injective : Function.Injective nameKey := by
  intro a b h
  unfold nameKey at h
  split at h
  · split at h
    · next ha hb => rw [ha, hb]
    · simp at h
  · split at h
    · simp at h
    · refine FileName.ext_bytes (List.map_injective_iff.2 ?_ (List.cons.inj h).2)
      intro x y hxy
      exact UInt8.toNat_inj.1 hxy

/-- The key a path is ordered by, component by component. -/
def key (p : PathBuf) : List (List ℕ) :=
  match p.start with
  | .rootDir => [0] :: p.names.map nameKey
  | .curDir => [1] :: p.names.map nameKey
  | .relative => p.names.map nameKey

theorem key_injective : Function.Injective key := by
  have hname : ∀ (name : FileName) (n : ℕ), n < 2 → nameKey name ≠ [n] := by
    intro name n hn h
    unfold nameKey at h
    split at h <;> simp at h <;> omega
  have hmap := List.map_injective_iff.2 nameKey_injective
  rintro ⟨s, l⟩ ⟨s', l'⟩ h
  cases s with
  | rootDir =>
      cases s' with
      | rootDir => simp [key] at h; rw [hmap h]
      | curDir => simp [key] at h
      | relative =>
          cases l' with
          | nil => simp [key] at h
          | cons name l' => exact absurd (List.cons.inj h).1.symm (hname name 0 (by omega))
  | curDir =>
      cases s' with
      | rootDir => simp [key] at h
      | curDir => simp [key] at h; rw [hmap h]
      | relative =>
          cases l' with
          | nil => simp [key] at h
          | cons name l' => exact absurd (List.cons.inj h).1.symm (hname name 1 (by omega))
  | relative =>
      cases s' with
      | rootDir =>
          cases l with
          | nil => simp [key] at h
          | cons name l => exact absurd (List.cons.inj h).1 (hname name 0 (by omega))
      | curDir =>
          cases l with
          | nil => simp [key] at h
          | cons name l => exact absurd (List.cons.inj h).1 (hname name 1 (by omega))
      | relative =>
          simp only [key] at h
          rw [hmap h]

instance : LinearOrder PathBuf := LinearOrder.lift' key key_injective

end PathBuf

end StdPath
