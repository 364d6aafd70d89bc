/-
  File:      TrueSealSync/Lib/Utf16.lean
  Subject:   UTF-16: texts as code units, and the text a sequence of code units stands for.

  A text is a list of characters, none of which is a surrogate. Not every sequence of code units
  comes from one: where it is read, each surrogate that has no partner counts as U+FFFD. Nothing
  here names a program.

  * `encode`, `decode` -- the code units of a text, and the text of code units;
  * `decode_encode` -- a text comes back;
  * `decode_append` -- a text is read part by part, where the second part starts with no trailing
    surrogate;
  * `mem_decode` -- reading neither makes nor loses a character of ASCII.
-/
import Mathlib.Init

namespace TrueSealSync.Lib.Utf16

/-! ## 1. Code units -/

/-- The first half of a pair. -/
def isLeading (u : UInt16) : Bool := 0xD800 ≤ u.toNat && u.toNat < 0xDC00

/-- The second half. -/
def isTrailing (u : UInt16) : Bool := 0xDC00 ≤ u.toNat && u.toNat < 0xE000

/-- The code unit of a character of the basic plane. -/
def unit (c : Char) : UInt16 := UInt16.ofNat c.toNat

/-- The code units of a character: one, or a pair of surrogates. -/
def encodeChar (c : Char) : List UInt16 :=
  if c.toNat < 0x10000 then [unit c]
  else [UInt16.ofNat (0xD800 + (c.toNat - 0x10000) / 0x400),
    UInt16.ofNat (0xDC00 + (c.toNat - 0x10000) % 0x400)]

/-- The code units of a text. -/
def encode (text : List Char) : List UInt16 := text.flatMap encodeChar

/-- U+FFFD, the replacement character. -/
def replacement : Char := Char.ofNat 0xFFFD

/-- The character a code unit without a partner stands for. -/
def single (u : UInt16) : Char :=
  if isLeading u || isTrailing u then replacement else Char.ofNat u.toNat

/-- The character of a pair of surrogates. -/
def paired (u v : UInt16) : Char :=
  Char.ofNat (0x10000 + (u.toNat - 0xD800) * 0x400 + (v.toNat - 0xDC00))

/-- The text of code units. -/
def decode : List UInt16 → List Char
  | [] => []
  | [u] => [single u]
  | u :: v :: rest =>
      if isLeading u && isTrailing v then paired u v :: decode rest
      else single u :: decode (v :: rest)

/-! ## 2. A text comes back -/

theorem toNat_unit {c : Char} (h : c.toNat < 0x10000) : (unit c).toNat = c.toNat :=
  UInt16.toNat_ofNat_of_lt' h

/-- A character is no surrogate. -/
theorem char_ranges (c : Char) : c.toNat < 0xD800 ∨ 0xE000 ≤ c.toNat ∧ c.toNat < 0x110000 := by
  rcases c.valid with h | ⟨h, h'⟩
  · exact Or.inl h
  · exact Or.inr ⟨h, h'⟩

theorem unit_plain {c : Char} (h : c.toNat < 0x10000) :
    isLeading (unit c) = false ∧ isTrailing (unit c) = false := by
  have hc := char_ranges c
  unfold isLeading isTrailing
  rw [toNat_unit h]
  simp only [Bool.and_eq_false_iff, decide_eq_false_iff_not]
  omega

theorem single_unit {c : Char} (h : c.toNat < 0x10000) : single (unit c) = c := by
  obtain ⟨hl, ht⟩ := unit_plain h
  unfold single
  rw [hl, ht, toNat_unit h]
  exact Char.ofNat_toNat c

/-- A code unit that leads no pair is read on its own. -/
theorem decode_cons {u : UInt16} (h : isLeading u = false) (rest : List UInt16) :
    decode (u :: rest) = single u :: decode rest := by
  cases rest with
  | nil => rfl
  | cons v rest => simp [decode, h]

/-- The halves of a character beyond the basic plane. -/
theorem decode_pair {c : Char} (h : ¬ c.toNat < 0x10000) (rest : List UInt16) :
    decode (encodeChar c ++ rest) = c :: decode rest := by
  have hc := char_ranges c
  have hu : (UInt16.ofNat (0xD800 + (c.toNat - 0x10000) / 0x400)).toNat =
      0xD800 + (c.toNat - 0x10000) / 0x400 := UInt16.toNat_ofNat_of_lt' (by unfold UInt16.size; omega)
  have hv : (UInt16.ofNat (0xDC00 + (c.toNat - 0x10000) % 0x400)).toNat =
      0xDC00 + (c.toNat - 0x10000) % 0x400 := UInt16.toNat_ofNat_of_lt' (by unfold UInt16.size; omega)
  have hpair : (isLeading (UInt16.ofNat (0xD800 + (c.toNat - 0x10000) / 0x400)) &&
      isTrailing (UInt16.ofNat (0xDC00 + (c.toNat - 0x10000) % 0x400))) = true := by
    unfold isLeading isTrailing
    rw [hu, hv]
    simp only [Bool.and_eq_true, decide_eq_true_eq]
    omega
  have hback : 0x10000 + (0xD800 + (c.toNat - 0x10000) / 0x400 - 0xD800) * 0x400 +
      (0xDC00 + (c.toNat - 0x10000) % 0x400 - 0xDC00) = c.toNat := by
    omega
  unfold encodeChar
  rw [if_neg h]
  show (if _ then paired _ _ :: decode rest else _) = _
  rw [if_pos hpair]
  unfold paired
  rw [hu, hv, hback, Char.ofNat_toNat]

theorem decode_encodeChar (c : Char) (rest : List UInt16) :
    decode (encodeChar c ++ rest) = c :: decode rest := by
  by_cases h : c.toNat < 0x10000
  · unfold encodeChar
    rw [if_pos h, List.singleton_append, decode_cons (unit_plain h).1, single_unit h]
  · exact decode_pair h rest

/-- **A text comes back from its code units.** -/
@[simp] theorem decode_encode (text : List Char) : decode (encode text) = text := by
  induction text with
  | nil => rfl
  | cons c text ih =>
      show decode (encodeChar c ++ encode text) = _
      rw [decode_encodeChar, ih]

/-! ## 3. Part by part -/

/-- **A text is read part by part** where the second part starts with no trailing surrogate. -/
theorem decode_append (x : List UInt16) {y : List UInt16}
    (hy : ∀ u ∈ y.head?, isTrailing u = false) : decode (x ++ y) = decode x ++ decode y := by
  fun_induction decode x with
  | case1 => rfl
  | case2 u =>
      cases y with
      | nil => rfl
      | cons v y =>
          have hv : isTrailing v = false := hy v rfl
          simp [decode, hv]
  | case3 u v rest h ih =>
      refine (if_pos h).trans ?_
      exact congrArg (paired u v :: ·) ih
  | case4 u v rest h ih =>
      refine (if_neg h).trans ?_
      exact congrArg (single u :: ·) ih

/-- The code units of a text of the basic plane, one for each character. -/
theorem decode_units {text : List Char} (h : ∀ c ∈ text, c.toNat < 0x10000) (rest : List UInt16) :
    decode (text.map unit ++ rest) = text ++ decode rest := by
  induction text with
  | nil => rfl
  | cons c text ih =>
      have hc := h c List.mem_cons_self
      rw [List.map_cons, List.cons_append, decode_cons (unit_plain hc).1, single_unit hc,
        ih fun c hm => h c (List.mem_cons_of_mem _ hm)]
      rfl

/-! ## 4. Characters of ASCII -/

theorem toNat_ofNat {n : Nat} (h : n < 0xD800 ∨ 0xE000 ≤ n ∧ n < 0x110000) :
    (Char.ofNat n).toNat = n := by
  have hv : n.isValidChar := h.imp_right fun ⟨h, h'⟩ => ⟨by omega, h'⟩
  unfold Char.ofNat
  rw [dif_pos hv]
  rfl

theorem single_ascii {u : UInt16} {c : Char} (hc : c.toNat < 0x80) : single u = c ↔ u = unit c := by
  constructor
  · rintro rfl
    unfold single at hc ⊢
    split at hc
    · exact absurd hc (by decide)
    · rename_i h
      rw [if_neg h]
      have hu := u.toNat_lt
      have hn : (Char.ofNat u.toNat).toNat = u.toNat := by
        refine toNat_ofNat ?_
        simp only [isLeading, isTrailing, Bool.or_eq_true, Bool.and_eq_true, decide_eq_true_eq,
          not_or, not_and] at h
        omega
      unfold unit
      rw [hn, UInt16.ofNat_toNat]
  · rintro rfl
    exact single_unit (by omega)

/-- The character of a pair is none of ASCII, and neither half is the code unit of one. -/
theorem paired_ascii {u v : UInt16} {c : Char} (h : (isLeading u && isTrailing v) = true)
    (hc : c.toNat < 0x80) : paired u v ≠ c ∧ u ≠ unit c ∧ v ≠ unit c := by
  simp only [isLeading, isTrailing, Bool.and_eq_true, decide_eq_true_eq] at h
  have hunit : (unit c).toNat = c.toNat := toNat_unit (by omega)
  refine ⟨?_, ?_, ?_⟩
  · rintro rfl
    unfold paired at hc
    rw [toNat_ofNat (by omega)] at hc
    omega
  · rintro rfl
    omega
  · rintro rfl
    omega

/-- **Reading neither makes nor loses a character of ASCII.** -/
theorem mem_decode {c : Char} (hc : c.toNat < 0x80) (x : List UInt16) :
    c ∈ decode x ↔ unit c ∈ x := by
  fun_induction decode x with
  | case1 => simp
  | case2 u =>
      rw [List.mem_singleton, List.mem_singleton, eq_comm, single_ascii hc, eq_comm]
  | case3 u v rest h ih =>
      obtain ⟨hp, hu, hv⟩ := paired_ascii h hc
      rw [List.mem_cons, ih, List.mem_cons, List.mem_cons]
      simp [hp.symm, hu.symm, hv.symm]
  | case4 u v rest h ih =>
      have hu : c = single u ↔ unit c = u := by rw [eq_comm, single_ascii hc, eq_comm]
      rw [List.mem_cons, ih, hu]
      exact List.mem_cons.symm

end TrueSealSync.Lib.Utf16
