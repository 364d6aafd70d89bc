/-
  File:      TrueSealSync/Lib/NumberText.lean
  Subject:   THE DECIMAL TEXT OF A BINARY64 VALUE, as ECMAScript's Number::toString(x, 10) writes it:
             the shortest decimal that rounds to the value.

  Nothing here names a program.

  * `Rounds m e q` -- the number `q` rounds to the magnitude `m · 2^e` (to nearest, ties to even);
  * `shortest` -- the decimal `s · 10^j` with the fewest digits that rounds to a magnitude, the
    closest one of that length; `shortest_rounds`;
  * `render` -- how a decimal is laid out: plain, with a decimal point, or with an exponent;
  * `toText` -- the text of a value;
  * `value_of_toText` -- a text of digits only is the decimal of the value, where that is small;
  * `toText_of_natural` -- the text of a small natural number is its decimal.
-/
import Mathlib.Data.Int.Log
import Mathlib.Data.Rat.Floor
import TrueSealSync.Lib.Binary64

namespace TrueSealSync.Lib

namespace Binary64

/-! ## 1. Rounding -/

/-- The magnitude below `m · 2^e` is a quarter of a unit away, instead of a half, where a binade
    starts. -/
def below (m : Nat) (e : Int) : ℚ := if m = 2 ^ 52 ∧ e ≠ -1074 then 1 / 4 else 1 / 2

/-- The number `q` rounds to the magnitude `m · 2^e`: to nearest, ties to even. -/
def Rounds (m : Nat) (e : Int) (q : ℚ) : Prop :=
  ((m - below m e) * 2 ^ e < q ∧ q < (m + 1 / 2) * 2 ^ e) ∨
    m % 2 = 0 ∧ (q = (m - below m e) * 2 ^ e ∨ q = (m + 1 / 2) * 2 ^ e)

instance (m : Nat) (e : Int) (q : ℚ) : Decidable (Rounds m e q) :=
  inferInstanceAs (Decidable ((_ ∧ _) ∨ _ ∧ (_ ∨ _)))

/-! ## 2. The shortest decimal -/

/-- The decimal `s · 10^j`. -/
def decimalValue (d : Nat × Int) : ℚ := d.1 * 10 ^ d.2

/-- `10^k` has one digit. -/
def carry (k : Nat) (d : Nat × Int) : Nat × Int :=
  if d.1 = 10 ^ k then (10 ^ (k - 1), d.2 + 1) else d

/-- The decimal with `k` digits that rounds to `m · 2^e`: the closer one of its two neighbours with
    so many digits, the even one of two that are equally close. -/
def candidate (m : Nat) (e : Int) (k : Nat) : Option (Nat × Int) :=
  let x : ℚ := m * 2 ^ e
  let j := Int.log 10 x + 1 - k
  let s := ⌊x / 10 ^ j⌋₊
  let lower := Rounds m e (decimalValue (s, j))
  let upper := Rounds m e (decimalValue (s + 1, j))
  let low := x / 10 ^ j - s
  if lower ∧ (¬ upper ∨ low < 1 / 2 ∨ (low = 1 / 2 ∧ s % 2 = 0)) then some (s, j)
  else if upper then some (carry k (s + 1, j))
  else none

/-- The first candidate with at least `k` digits. -/
def search (m : Nat) (e : Int) : Nat → Nat → Option (Nat × Int)
  | 0, _ => none
  | fuel + 1, k =>
      match candidate m e k with
      | some d => some d
      | none => search m e fuel (k + 1)

/-- The magnitude `m · 2^e`, exactly. -/
def exact (m : Nat) (e : Int) : Nat × Int :=
  if 0 ≤ e then (m * 2 ^ e.toNat, 0) else (m * 5 ^ (-e).toNat, e)

/-- The shortest decimal that rounds to `m · 2^e`; 17 digits are always enough. -/
def shortest (m : Nat) (e : Int) : Nat × Int := (search m e 17 1).getD (exact m e)

/-! ## 3. The text -/

/-- The text of the decimal `s · 10^j`. -/
def render (d : Nat × Int) : List Char :=
  let digits := Nat.toDigits 10 d.1
  let k := digits.length
  let n : Int := k + d.2
  if k ≤ n ∧ n ≤ 21 then digits ++ List.replicate (n - k).toNat '0'
  else if 0 < n ∧ n ≤ 21 then digits.take n.toNat ++ '.' :: digits.drop n.toNat
  else if -6 < n ∧ n ≤ 0 then '0' :: '.' :: (List.replicate (-n).toNat '0' ++ digits)
  else
    (if k = 1 then digits else digits.take 1 ++ '.' :: digits.drop 1) ++
      'e' :: (if n - 1 < 0 then '-' else '+') :: Nat.toDigits 10 (n - 1).natAbs

/-- `String(x)` of a Number. -/
def toText : Binary64 → List Char
  | .nan => ['N', 'a', 'N']
  | .inf neg => (if neg then ['-'] else []) ++ ['I', 'n', 'f', 'i', 'n', 'i', 't', 'y']
  | .fin neg m e _ =>
      if m = 0 then ['0'] else (if neg then ['-'] else []) ++ render (shortest m e)

/-! ## 4. What is printed rounds to the value -/

section Rounding

variable {m : Nat} {e : Int}

theorem below_pos (m : Nat) (e : Int) : 0 < below m e := by
  unfold below
  split <;> norm_num

theorem rounds_self (m : Nat) (e : Int) : Rounds m e (m * 2 ^ e) := by
  have h2 : (0 : ℚ) < 2 ^ e := zpow_pos two_pos e
  have hb := below_pos m e
  exact Or.inl ⟨mul_lt_mul_of_pos_right (by linarith) h2, mul_lt_mul_of_pos_right (by linarith) h2⟩

/-- What rounds to a magnitude is at most half a unit away. -/
theorem Rounds.close {q : ℚ} (h : Rounds m e q) :
    (m - 1 / 2) * 2 ^ e ≤ q ∧ q ≤ (m + 1 / 2) * 2 ^ e := by
  have h2 : (0 : ℚ) < 2 ^ e := zpow_pos two_pos e
  have hb : below m e ≤ 1 / 2 := by
    unfold below
    split <;> norm_num
  have hlow : ((m : ℚ) - 1 / 2) * 2 ^ e ≤ (m - below m e) * 2 ^ e :=
    mul_le_mul_of_nonneg_right (by linarith) h2.le
  have hwidth : ((m : ℚ) - below m e) * 2 ^ e ≤ (m + 1 / 2) * 2 ^ e :=
    mul_le_mul_of_nonneg_right (by linarith [below_pos m e]) h2.le
  rcases h with ⟨hl, hu⟩ | ⟨-, rfl | rfl⟩
  · exact ⟨hlow.trans hl.le, hu.le⟩
  · exact ⟨hlow, hwidth⟩
  · exact ⟨hlow.trans hwidth, le_refl _⟩

/-- The unit of a small magnitude is at most one. -/
theorem exponent_nonpos (hc : Canonical m e) {v : Nat} (hv : v < 2 ^ 53 - 1)
    (h : ((m : ℚ) - 1 / 2) * 2 ^ e ≤ v) : e ≤ 0 := by
  obtain ⟨-, -, -, htop⟩ := hc
  by_contra he
  have hm : 2 ^ 52 ≤ m := htop.resolve_right (by omega)
  have hmq : (2 : ℚ) ^ 52 ≤ m := by exact_mod_cast hm
  have hone : (2 : ℚ) ^ (1 : Int) ≤ 2 ^ e := zpow_le_zpow_right₀ one_le_two (by omega)
  have hvq : (v : ℚ) + 1 < 2 ^ 53 := by exact_mod_cast (by omega : v + 1 < 2 ^ 53)
  have hbig : ((2 : ℚ) ^ 52 - 1 / 2) * 2 ≤ (m - 1 / 2) * 2 ^ e :=
    mul_le_mul (by linarith) (by simpa using hone) (by norm_num) (by linarith)
  linarith

/-- **A natural number rounds to no magnitude but itself**, where the unit is at most one. -/
theorem eq_of_rounds (he : e ≤ 0) {v : Nat} (h : Rounds m e v) : (m : ℚ) * 2 ^ e = v := by
  obtain ⟨hlow, hhigh⟩ := h.close
  obtain ⟨n, hn⟩ := Int.eq_ofNat_of_zero_le (show 0 ≤ -e by omega)
  obtain rfl : e = -(n : Int) := by omega
  have h2 : (0 : ℚ) < 2 ^ n := by positivity
  rw [zpow_neg, zpow_natCast, ← div_eq_mul_inv] at hlow hhigh ⊢
  rw [div_le_iff₀ h2] at hlow
  rw [le_div_iff₀ h2] at hhigh
  rw [div_eq_iff h2.ne']
  -- `v · 2^n` and `m` are natural numbers less than one apart
  have hlow' : (m : ℚ) < ((v * 2 ^ n : Nat) : ℚ) + 1 := by
    push_cast
    linarith
  have hhigh' : ((v * 2 ^ n : Nat) : ℚ) < m + 1 := by
    push_cast
    linarith
  have h1 : m < v * 2 ^ n + 1 := by exact_mod_cast hlow'
  have h3 : v * 2 ^ n < m + 1 := by exact_mod_cast hhigh'
  have hm : m = v * 2 ^ n := by omega
  rw [hm]
  push_cast
  ring

theorem decimalValue_natural {d : Nat × Int} (h : 0 ≤ d.2) :
    decimalValue d = ((d.1 * 10 ^ d.2.toNat : Nat) : ℚ) := by
  obtain ⟨s, j⟩ := d
  obtain ⟨n, rfl⟩ := Int.eq_ofNat_of_zero_le h
  simp [decimalValue]

theorem decimalValue_carry {k : Nat} (hk : 0 < k) (d : Nat × Int) :
    decimalValue (carry k d) = decimalValue d := by
  unfold carry
  split
  · rename_i hd
    obtain ⟨i, rfl⟩ : ∃ i, k = i + 1 := ⟨k - 1, by omega⟩
    unfold decimalValue
    rw [hd, Nat.add_sub_cancel, zpow_add₀ (by norm_num)]
    push_cast
    ring
  · rfl

theorem candidate_rounds {k : Nat} (hk : 0 < k) {d : Nat × Int} (h : candidate m e k = some d) :
    Rounds m e (decimalValue d) := by
  unfold candidate at h
  simp only at h
  split at h
  · rename_i hlower
    exact Option.some.inj h ▸ hlower.1
  · split at h
    · rename_i hupper
      obtain rfl := Option.some.inj h
      rwa [decimalValue_carry hk]
    · cases h

theorem search_rounds {fuel k : Nat} (hk : 0 < k) {d : Nat × Int} (h : search m e fuel k = some d) :
    Rounds m e (decimalValue d) := by
  induction fuel generalizing k with
  | zero => cases h
  | succ fuel ih =>
      unfold search at h
      rcases hc : candidate m e k with _ | d'
      · rw [hc] at h
        exact ih (Nat.succ_pos k) h
      · rw [hc] at h
        exact Option.some.inj h ▸ candidate_rounds hk hc

theorem decimalValue_exact (m : Nat) (e : Int) : decimalValue (exact m e) = m * 2 ^ e := by
  unfold exact decimalValue
  split
  · rename_i he
    obtain ⟨n, rfl⟩ := Int.eq_ofNat_of_zero_le he
    simp
  · rename_i he
    obtain ⟨n, hn⟩ := Int.eq_ofNat_of_zero_le (show 0 ≤ -e by omega)
    obtain rfl : e = -(n : Int) := by omega
    simp only [neg_neg, Int.toNat_natCast, zpow_neg, zpow_natCast]
    push_cast
    rw [mul_assoc, ← div_eq_mul_inv, ← div_pow, ← inv_pow]
    norm_num

/-- **The shortest decimal rounds to its magnitude.** -/
theorem shortest_rounds (m : Nat) (e : Int) : Rounds m e (decimalValue (shortest m e)) := by
  unfold shortest
  rcases h : search m e 17 1 with _ | d
  · rw [Option.getD_none, decimalValue_exact]
    exact rounds_self m e
  · exact search_rounds Nat.one_pos h

end Rounding

/-! ## 5. The characters of a text -/

/-- Letters, digits, points and signs. -/
def isNumberChar (c : Char) : Bool := c.isAlphanum || c == '.' || c == '+' || c == '-'

theorem isNumberChar_of_isDigit {c : Char} (h : c.isDigit = true) : isNumberChar c = true := by
  have halnum : c.isAlphanum = true := by
    show (c.isAlpha || c.isDigit) = true
    rw [h, Bool.or_true]
  simp [isNumberChar, halnum]

theorem isDigit_toDigits {n : Nat} {c : Char} (h : c ∈ Nat.toDigits 10 n) : c.isDigit = true :=
  Nat.isDigit_of_mem_toDigits (by decide) (by decide) h

/-- Digits with a point put in after the first `k` of them. -/
theorem pointed_chars {ds : List Char} (hds : ∀ c ∈ ds, isNumberChar c = true) {k : Nat} {c : Char}
    (hc : c ∈ ds.take k ++ '.' :: ds.drop k) : isNumberChar c = true := by
  rcases List.mem_append.mp hc with hc | hc
  · exact hds c (List.mem_of_mem_take hc)
  · rcases List.mem_cons.mp hc with rfl | hc
    · decide
    · exact hds c (List.mem_of_mem_drop hc)

theorem render_chars (d : Nat × Int) : ∀ c ∈ render d, isNumberChar c = true := by
  have hdigits : ∀ {n c}, c ∈ Nat.toDigits 10 n → isNumberChar c = true := fun h =>
    isNumberChar_of_isDigit (isDigit_toDigits h)
  have hzeros : ∀ {k c}, c ∈ List.replicate k '0' → isNumberChar c = true := fun h => by
    rw [List.eq_of_mem_replicate h]
    decide
  intro c hc
  unfold render at hc
  simp only at hc
  split at hc
  · exact (List.mem_append.mp hc).elim hdigits hzeros
  split at hc
  · exact pointed_chars (fun _ => hdigits) hc
  split at hc
  · rcases List.mem_cons.mp hc with rfl | hc
    · decide
    rcases List.mem_cons.mp hc with rfl | hc
    · decide
    · exact (List.mem_append.mp hc).elim hzeros hdigits
  · rcases List.mem_append.mp hc with hc | hc
    · split at hc
      · exact hdigits hc
      · exact pointed_chars (fun _ => hdigits) hc
    · rcases List.mem_cons.mp hc with rfl | hc
      · decide
      rcases List.mem_cons.mp hc with rfl | hc
      · split <;> decide
      · exact hdigits hc

/-- **A text is made of letters, digits, points and signs.** -/
theorem toText_chars (x : Binary64) : ∀ c ∈ x.toText, isNumberChar c = true := by
  have hsign : ∀ {neg : Bool} {c}, c ∈ (if neg then ['-'] else []) → isNumberChar c = true := by
    intro neg c hc
    cases neg with
    | false => cases hc
    | true =>
        rw [List.mem_singleton.mp hc]
        decide
  intro c hc
  cases x with
  | nan => exact List.all_eq_true.mp (by decide : (toText .nan).all isNumberChar = true) c hc
  | inf neg =>
      rcases List.mem_append.mp hc with hc | hc
      · exact hsign hc
      · have hall : ['I', 'n', 'f', 'i', 'n', 'i', 't', 'y'].all isNumberChar = true := by decide
        exact List.all_eq_true.mp hall c hc
  | fin neg m e h =>
      unfold toText at hc
      simp only at hc
      split at hc
      · rw [List.mem_singleton.mp hc]
        decide
      · exact (List.mem_append.mp hc).elim hsign (render_chars _ c)

theorem render_ne_nil (d : Nat × Int) : render d ≠ [] := by
  have hdigits : Nat.toDigits 10 d.1 ≠ [] := Nat.toDigits_ne_nil
  unfold render
  simp only
  split
  · simp [hdigits]
  split
  · simp
  split
  · simp
  · simp

theorem toText_ne_nil (x : Binary64) : x.toText ≠ [] := by
  cases x with
  | nan => decide
  | inf neg => cases neg <;> decide
  | fin neg m e h =>
      unfold toText
      simp only
      split
      · simp
      · simp [render_ne_nil]

/-! ## 6. Natural numbers -/

/-- A text of digits, and the number it is the decimal of. -/
def Digits (text : List Char) : Prop := text ≠ [] ∧ ∀ c ∈ text, c.isDigit = true

def digitsValue (text : List Char) : Nat := Nat.ofDigitChars 10 text 0

theorem digits_toDigits (n : Nat) : Digits (Nat.toDigits 10 n) :=
  ⟨Nat.toDigits_ne_nil, fun _ h => isDigit_toDigits h⟩

theorem digitsValue_toDigits (n : Nat) : digitsValue (Nat.toDigits 10 n) = n :=
  Nat.ofDigitChars_ten_toDigits

/-- What is laid out with digits only is laid out plain. -/
theorem render_plain {d : Nat × Int} (h : ∀ c ∈ render d, c.isDigit = true) :
    0 ≤ d.2 ∧ render d = Nat.toDigits 10 d.1 ++ List.replicate d.2.toNat '0' := by
  unfold render at h ⊢
  simp only at h ⊢
  split at h
  · rename_i hn
    rw [if_pos hn]
    refine ⟨by omega, ?_⟩
    congr 2
    omega
  split at h
  · exact absurd (h '.' (by simp)) (by decide)
  split at h
  · exact absurd (h '.' (by simp)) (by decide)
  · exact absurd (h 'e' (by simp)) (by decide)

theorem digitsValue_plain (s k : Nat) :
    digitsValue (Nat.toDigits 10 s ++ List.replicate k '0') = s * 10 ^ k := by
  unfold digitsValue
  rw [Nat.ofDigitChars_append, Nat.ofDigitChars_ten_toDigits, Nat.ofDigitChars_replicate_zero,
    Nat.mul_comm]

/-- **A text of digits only is the decimal of the value**, where that is a small number. -/
theorem value_of_toText {x : Binary64} (h : ∀ c ∈ x.toText, c.isDigit = true)
    (hv : digitsValue x.toText < 2 ^ 53 - 1) : x.value = some (digitsValue x.toText : ℚ) := by
  cases x with
  | nan => exact absurd (h 'N' (by decide)) (by decide)
  | inf neg => exact absurd (h 'I' (by simp [toText])) (by decide)
  | fin neg m e hc =>
      by_cases hm : m = 0
      · subst hm
        have hzero : toText (.fin neg 0 e hc) = ['0'] := rfl
        rw [hzero]
        simp [value, digitsValue, Nat.ofDigitChars]
      have htext : toText (.fin neg m e hc) =
          (if neg then ['-'] else []) ++ render (shortest m e) := if_neg hm
      rw [htext] at h hv ⊢
      cases neg with
      | true => exact absurd (h '-' (by simp)) (by decide)
      | false =>
          simp only [Bool.false_eq_true, if_false, List.nil_append] at h hv ⊢
          obtain ⟨hj, hplain⟩ := render_plain h
          rw [hplain, digitsValue_plain] at hv ⊢
          have hrounds := shortest_rounds m e
          rw [decimalValue_natural hj] at hrounds
          have he := exponent_nonpos hc hv hrounds.close.1
          simp only [value, Bool.false_eq_true, if_false, one_mul, eq_of_rounds he hrounds]

/-- A text of zeros after the digits of a number. -/
theorem toDigits_mul_pow {s : Nat} (hs : 0 < s) (k : Nat) :
    Nat.toDigits 10 (s * 10 ^ k) = Nat.toDigits 10 s ++ List.replicate k '0' := by
  induction k with
  | zero => simp
  | succ k ih =>
      have hpos : 0 < s * 10 ^ k := Nat.mul_pos hs (Nat.pow_pos (by decide))
      have hstep := Nat.toDigits_append_toDigits (b := 10) (d := 0) (by decide) hpos (by decide)
      rw [ih] at hstep
      rw [List.replicate_succ', ← List.append_assoc, Nat.pow_succ, ← Nat.mul_assoc,
        Nat.mul_comm _ 10, ← Nat.add_zero (10 * _), ← hstep]
      rfl

section Natural

variable {m : Nat} {e : Int} {v : Nat}

/-- The exponent of a candidate with `k` digits. -/
theorem candidate_exponent {k : Nat} {d : Nat × Int} (h : candidate m e k = some d) :
    Int.log 10 ((m : ℚ) * 2 ^ e) + 1 - k ≤ d.2 := by
  unfold candidate at h
  simp only at h
  split at h
  · exact Option.some.inj h ▸ le_refl _
  · split at h
    · obtain rfl := Option.some.inj h
      unfold carry
      split
      · exact Int.le_add_one (le_refl _)
      · exact le_refl _
    · cases h

/-- With as many digits as a natural number has, the number itself is found. -/
theorem candidate_natural (hx : (m : ℚ) * 2 ^ e = v) :
    candidate m e (Nat.log 10 v + 1) = some (v, 0) := by
  have hself : Rounds m e v := hx ▸ rounds_self m e
  have hj : Int.log 10 (v : ℚ) + 1 - ((Nat.log 10 v + 1 : Nat) : Int) = 0 := by
    rw [Int.log_natCast]
    push_cast
    ring
  unfold candidate
  simp only [hx, hj, zpow_zero, div_one, Nat.floor_natCast, sub_self, decimalValue, mul_one]
  rw [if_pos ⟨hself, Or.inr (Or.inl (by norm_num))⟩]

theorem search_first (fuel : Nat) {k last : Nat} (hlast : (candidate m e last).isSome = true) (hk : k ≤ last)
    (hfuel : last < k + fuel) :
    ∃ first d, first ≤ last ∧ candidate m e first = some d ∧ search m e fuel k = some d := by
  induction fuel generalizing k with
  | zero => omega
  | succ fuel ih =>
      unfold search
      rcases hc : candidate m e k with _ | d
      · have hne : k ≠ last := by
          rintro rfl
          rw [hc] at hlast
          cases hlast
        exact ih (by omega) (by omega)
      · exact ⟨k, d, hk, hc, rfl⟩

/-- **The shortest decimal of a small natural number is the number.** -/
theorem shortest_natural (hc : Canonical m e) (hx : (m : ℚ) * 2 ^ e = v) (hv : v < 2 ^ 53 - 1) :
    0 ≤ (shortest m e).2 ∧ (shortest m e).1 * 10 ^ (shortest m e).2.toNat = v := by
  have hlog : Nat.log 10 v < 16 := by
    by_cases hv0 : v = 0
    · rw [hv0, Nat.log_zero_right]
      decide
    · exact Nat.log_lt_of_lt_pow hv0 (by omega)
  obtain ⟨k, d, hk, hcand, hsearch⟩ := search_first 17 (k := 1)
    (Option.isSome_iff_exists.mpr ⟨_, candidate_natural hx⟩) (by omega) (by omega)
  have hshortest : shortest m e = d := by
    unfold shortest
    rw [hsearch]
    rfl
  have hexp := candidate_exponent hcand
  rw [hx, Int.log_natCast] at hexp
  have hj : 0 ≤ (shortest m e).2 := by
    rw [hshortest]
    omega
  refine ⟨hj, ?_⟩
  -- so it is a natural number, and that rounds to no other one
  have hrounds := shortest_rounds m e
  rw [decimalValue_natural hj] at hrounds
  have hlow : ((m : ℚ) - 1 / 2) * 2 ^ e ≤ v := by
    rw [← hx]
    exact mul_le_mul_of_nonneg_right (by linarith) (zpow_nonneg two_pos.le e)
  have heq := eq_of_rounds (exponent_nonpos hc hv hlow) hrounds
  rw [hx] at heq
  exact_mod_cast heq.symm

/-- **The text of a small natural number is its decimal.** -/
theorem toText_of_natural {x : Binary64} (hx : x.value = some (v : ℚ)) (hv : v < 2 ^ 53 - 1) :
    x.toText = Nat.toDigits 10 v := by
  cases x with
  | nan | inf => simp [value] at hx
  | fin neg m e hc =>
      have h2 : (0 : ℚ) < 2 ^ e := zpow_pos two_pos e
      have hx' : (if neg then -1 else 1) * ((m : ℚ) * 2 ^ e) = v := Option.some.inj hx
      by_cases hm : m = 0
      · subst hm
        have hv0 : v = 0 := by
          have : (v : ℚ) = 0 := by rw [← hx']; simp
          exact_mod_cast this
        rw [hv0]
        rfl
      · have hmpos : (0 : ℚ) < m * 2 ^ e := mul_pos (by exact_mod_cast Nat.pos_of_ne_zero hm) h2
        have hvnonneg : (0 : ℚ) ≤ v := Nat.cast_nonneg v
        cases neg with
        | true =>
            simp only [if_true] at hx'
            linarith
        | false =>
            simp only [Bool.false_eq_true, if_false, one_mul] at hx'
            have htext : toText (.fin false m e hc) = render (shortest m e) := if_neg hm
            obtain ⟨hj, hs⟩ := shortest_natural hc hx' hv
            have hspos : 0 < (shortest m e).1 := by
              rcases Nat.eq_zero_or_pos (shortest m e).1 with h0 | h0
              · rw [h0, Nat.zero_mul] at hs
                rw [hx', ← hs] at hmpos
                simp at hmpos
              · exact h0
            have hlen := toDigits_mul_pow hspos (shortest m e).2.toNat
            rw [hs] at hlen
            have hshort : (Nat.toDigits 10 v).length ≤ 16 :=
              (Nat.length_toDigits_le_iff (by decide) (by decide)).mpr (by omega)
            rw [hlen, List.length_append, List.length_replicate] at hshort
            rw [htext, hlen]
            unfold render
            simp only
            rw [if_pos ⟨by omega, by omega⟩]
            congr 2
            omega

end Natural

end Binary64

end TrueSealSync.Lib
