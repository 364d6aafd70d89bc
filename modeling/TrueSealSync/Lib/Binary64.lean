/-
  File:      TrueSealSync/Lib/Binary64.lean
  Subject:   IEEE 754 binary64 values, and the casts between them and unsigned 64-bit integers.

  A finite value is `± m · 2^e` in canonical form, so a value has one representation (the two
  zeros apart); NaN payloads are dropped. Nothing here names a program.

  * `value` -- the rational number a finite value is;
  * `toU64` -- the truncating, saturating cast to `u64` (NaN and everything below 1 give 0);
  * `ofU64` -- the cast from `u64`: round to nearest, ties to even;
  * `toU64_of_value` -- the cast to `u64` answers `k` where the value is exactly `k`;
  * `toU64_eq_iff` -- what is cast to `k`: the number `k`, and its aliases (`Aliases`);
  * `value_ofU64`, `toU64_ofU64` -- below `2^53` the cast from `u64` is exact, and comes back;
  * `ofU64_collision` -- `2^53` and `2^53 + 1` become the same value.
-/
import Mathlib.Algebra.Field.Rat
import Mathlib.Algebra.Order.Field.Rat
import Mathlib.Tactic.Positivity
import Mathlib.Tactic.Linarith
import Mathlib.Tactic.NormNum

namespace TrueSealSync.Lib

/-- The number of `u64` values. -/
def u64Size : Nat := 2 ^ 64

/-- The canonical magnitudes `m · 2^e`: 53 bits, and the top bit set unless the exponent is the
    least one. -/
def Canonical (m : Nat) (e : Int) : Prop :=
  m < 2 ^ 53 ∧ -1074 ≤ e ∧ e ≤ 971 ∧ (2 ^ 52 ≤ m ∨ e = -1074)

instance (m : Nat) (e : Int) : Decidable (Canonical m e) :=
  inferInstanceAs (Decidable (_ ∧ _ ∧ _ ∧ (_ ∨ _)))

/-- A binary64 value; a finite one carries the proof that it is canonical. -/
inductive Binary64 where
  | nan
  | inf (neg : Bool)
  | fin (neg : Bool) (m : Nat) (e : Int) (h : Canonical m e)
  deriving DecidableEq

namespace Binary64

/-- The finite value `± m · 2^e`, infinity where the format has no such value. -/
def ofMag (neg : Bool) (m : Nat) (e : Int) : Binary64 :=
  if h : Canonical m e then .fin neg m e h else .inf neg

theorem canonical_zero : Canonical 0 (-1074) := by decide

def zero : Binary64 := .fin false 0 (-1074) canonical_zero

/-- The number a finite value is. -/
def value : Binary64 → Option ℚ
  | .nan => none
  | .inf _ => none
  | .fin neg m e _ => some ((if neg then -1 else 1) * ((m : ℚ) * 2 ^ e))

/-! ## 1. The cast to `u64` -/

/-- The whole part of the magnitude `m · 2^e`. -/
def truncMag (m : Nat) (e : Int) : Nat :=
  if 0 ≤ e then m * 2 ^ e.toNat else m / 2 ^ (-e).toNat

/-- `x as u64`: truncate towards zero, saturate at both ends, NaN to 0. -/
def toU64 : Binary64 → Nat
  | .nan => 0
  | .inf true => 0
  | .inf false => u64Size - 1
  | .fin true _ _ _ => 0
  | .fin false m e _ => min (truncMag m e) (u64Size - 1)

/-- A magnitude that is a natural number is its own whole part. -/
theorem truncMag_of_eq {m k : Nat} {e : Int} (h : (m : ℚ) * 2 ^ e = k) : truncMag m e = k := by
  unfold truncMag
  split
  · rename_i he
    obtain ⟨n, rfl⟩ := Int.eq_ofNat_of_zero_le he
    rw [zpow_natCast] at h
    simp only [Int.toNat_natCast]
    exact_mod_cast h
  · rename_i he
    obtain ⟨n, hn⟩ := Int.eq_ofNat_of_zero_le (show 0 ≤ -e by omega)
    obtain rfl : e = -(n : Int) := by omega
    have h2 : (2 : ℚ) ^ n ≠ 0 := by positivity
    rw [zpow_neg, zpow_natCast, ← div_eq_mul_inv, div_eq_iff h2] at h
    have hm : m = k * 2 ^ n := by exact_mod_cast h
    rw [neg_neg, Int.toNat_natCast, hm]
    exact Nat.mul_div_cancel k (Nat.two_pow_pos n)

/-- **The cast to `u64` of a natural number**: the number, cut off at the largest `u64`. -/
theorem toU64_of_natural {x : Binary64} {k : Nat} (h : x.value = some (k : ℚ)) :
    x.toU64 = min k (u64Size - 1) := by
  match x with
  | .nan | .inf _ => simp [value] at h
  | .fin true m e _ =>
      have h' : -((m : ℚ) * 2 ^ e) = k := by simpa [value] using h
      have hm : 0 ≤ (m : ℚ) * 2 ^ e := mul_nonneg (Nat.cast_nonneg m) (zpow_nonneg zero_le_two e)
      have hk0 : (k : ℚ) ≤ 0 := by linarith
      have : k = 0 := by exact_mod_cast le_antisymm hk0 (Nat.cast_nonneg k)
      rw [this, Nat.zero_min]
      rfl
  | .fin false m e _ =>
      have h' : (m : ℚ) * 2 ^ e = k := by simpa [value] using h
      simp only [toU64, truncMag_of_eq h']

/-- **The cast to `u64` answers `k` where the value is exactly `k`.** -/
theorem toU64_of_value {x : Binary64} {k : Nat} (h : x.value = some (k : ℚ)) (hk : k < u64Size) :
    x.toU64 = k := by
  rw [toU64_of_natural h]
  omega

/-- Below the cut-off a natural number is its own cast. -/
theorem value_eq_toU64 {x : Binary64} {k : Nat} (h : x.value = some (k : ℚ))
    (hx : x.toU64 < u64Size - 1) : k = x.toU64 := by
  have := toU64_of_natural h
  omega

/-- **The whole part of a magnitude is its floor.** -/
theorem truncMag_bounds (m : Nat) (e : Int) :
    (truncMag m e : ℚ) ≤ (m : ℚ) * 2 ^ e ∧ (m : ℚ) * 2 ^ e < (truncMag m e : ℚ) + 1 := by
  unfold truncMag
  split
  · rename_i he
    obtain ⟨n, rfl⟩ := Int.eq_ofNat_of_zero_le he
    rw [zpow_natCast, Int.toNat_natCast]
    push_cast
    constructor <;> linarith
  · rename_i he
    obtain ⟨n, hn⟩ := Int.eq_ofNat_of_zero_le (show 0 ≤ -e by omega)
    obtain rfl : e = -(n : Int) := by omega
    have h2 : (0 : ℚ) < 2 ^ n := by positivity
    rw [neg_neg, Int.toNat_natCast, zpow_neg, zpow_natCast, ← div_eq_mul_inv, le_div_iff₀ h2,
      div_lt_iff₀ h2]
    have hlo : m / 2 ^ n * 2 ^ n ≤ m := Nat.div_mul_le_self m _
    have hhi : m < (m / 2 ^ n + 1) * 2 ^ n := by
      rw [Nat.add_mul, Nat.one_mul]
      exact Nat.lt_div_mul_add (Nat.two_pow_pos n)
    constructor
    · exact_mod_cast hlo
    · exact_mod_cast hhi

/-- A number below 0 is cast to 0. -/
theorem toU64_of_neg {x : Binary64} {q : ℚ} (h : x.value = some q) (hq : q < 0) : x.toU64 = 0 := by
  match x with
  | .nan | .inf _ => cases h
  | .fin true m e _ => rfl
  | .fin false m e _ =>
      have h' : (m : ℚ) * 2 ^ e = q := by simpa [value] using h
      have hm : 0 ≤ (m : ℚ) * 2 ^ e := mul_nonneg (Nat.cast_nonneg m) (zpow_nonneg zero_le_two e)
      linarith

/-- **The cast to `u64` of a number from 0 on**: its floor, cut off at the largest `u64`. -/
theorem toU64_of_nonneg {x : Binary64} {q : ℚ} (h : x.value = some q) (hq : 0 ≤ q) :
    ∃ t : Nat, (t : ℚ) ≤ q ∧ q < t + 1 ∧ x.toU64 = min t (u64Size - 1) := by
  match x with
  | .nan | .inf _ => cases h
  | .fin true m e _ =>
      -- the negative zero: no other value with this sign is from 0 on
      have h' : -((m : ℚ) * 2 ^ e) = q := by simpa [value] using h
      have hm : 0 ≤ (m : ℚ) * 2 ^ e := mul_nonneg (Nat.cast_nonneg m) (zpow_nonneg zero_le_two e)
      obtain rfl : q = 0 := by linarith
      exact ⟨0, by norm_num, by norm_num, (Nat.zero_min _).symm⟩
  | .fin false m e _ =>
      have h' : (m : ℚ) * 2 ^ e = q := by simpa [value] using h
      subst h'
      exact ⟨truncMag m e, (truncMag_bounds m e).1, (truncMag_bounds m e).2, rfl⟩

/-- The values that are not the number `k` and are cast to it all the same: NaN and what is below
    0 are cast to 0, a fraction to its whole part, and what no `u64` reaches to the largest one. -/
inductive Aliases : Binary64 → Nat → Prop where
  | nan : Aliases .nan 0
  | negInf : Aliases (.inf true) 0
  | posInf : Aliases (.inf false) (u64Size - 1)
  | negative (x : Binary64) (q : ℚ) (hx : x.value = some q) (hq : q < 0) : Aliases x 0
  | fraction (x : Binary64) (q : ℚ) (k : Nat) (hx : x.value = some q) (hlo : (k : ℚ) < q)
      (hhi : q < k + 1) (hk : k < u64Size) : Aliases x k
  | large (x : Binary64) (q : ℚ) (hx : x.value = some q) (hq : (u64Size : ℚ) ≤ q) :
      Aliases x (u64Size - 1)

theorem Aliases.value_ne {x : Binary64} {k : Nat} (h : x.Aliases k) : x.value ≠ some (k : ℚ) := by
  intro hv
  cases h with
  | nan | negInf | posInf => cases hv
  | negative _ q hx hq =>
      obtain rfl : q = ((0 : Nat) : ℚ) := Option.some.inj (hx.symm.trans hv)
      norm_num at hq
  | fraction _ q _ hx hlo hhi hk =>
      obtain rfl : q = (k : ℚ) := Option.some.inj (hx.symm.trans hv)
      exact lt_irrefl _ hlo
  | large _ q hx hq =>
      obtain rfl : q = ((u64Size - 1 : Nat) : ℚ) := Option.some.inj (hx.symm.trans hv)
      have : u64Size ≤ u64Size - 1 := by exact_mod_cast hq
      unfold u64Size at this
      omega

theorem Aliases.toU64 {x : Binary64} {k : Nat} (h : x.Aliases k) : x.toU64 = k := by
  cases h with
  | nan | negInf | posInf => rfl
  | negative _ q hx hq => exact toU64_of_neg hx hq
  | fraction _ q _ hx hlo hhi hk =>
      obtain ⟨t, htlo, hthi, ht⟩ := toU64_of_nonneg hx (le_trans (Nat.cast_nonneg k) hlo.le)
      have h1 : t < k + 1 := by exact_mod_cast lt_of_le_of_lt htlo hhi
      have h2 : k < t + 1 := by exact_mod_cast lt_trans hlo hthi
      rw [ht]
      omega
  | large _ q hx hq =>
      obtain ⟨t, htlo, hthi, ht⟩ := toU64_of_nonneg hx (le_trans (Nat.cast_nonneg u64Size) hq)
      have h1 : u64Size < t + 1 := by exact_mod_cast lt_of_le_of_lt hq hthi
      rw [ht]
      omega

/-- Every value is its cast to `u64`, or an alias of it. -/
theorem value_or_aliases (x : Binary64) : x.value = some (x.toU64 : ℚ) ∨ x.Aliases x.toU64 := by
  cases hx : x.value with
  | none =>
      cases x with
      | nan => exact Or.inr .nan
      | inf neg =>
          cases neg with
          | true => exact Or.inr .negInf
          | false => exact Or.inr .posInf
      | fin neg m e h => cases hx
  | some q =>
      rcases lt_or_ge q 0 with hq | hq
      · exact Or.inr (toU64_of_neg hx hq ▸ .negative x q hx hq)
      · obtain ⟨t, hlo, hhi, ht⟩ := toU64_of_nonneg hx hq
        rcases Nat.lt_or_ge t u64Size with hlt | hge
        · have hcast : x.toU64 = t := by omega
          rw [hcast]
          rcases hlo.eq_or_lt with heq | hlo
          · exact Or.inl (by rw [heq])
          · exact Or.inr (.fraction x q t hx hlo hhi hlt)
        · have hcast : x.toU64 = u64Size - 1 := by omega
          rw [hcast]
          have hle : (u64Size : ℚ) ≤ t := by exact_mod_cast hge
          exact Or.inr (.large x q hx (le_trans hle hlo))

/-- **What is cast to `k`**: the number `k` itself and its aliases. -/
theorem toU64_eq_iff {x : Binary64} {k : Nat} (hk : k < u64Size) :
    x.toU64 = k ↔ x.value = some (k : ℚ) ∨ x.Aliases k := by
  constructor
  · intro h
    exact h ▸ value_or_aliases x
  · intro h
    rcases h with hv | ha
    · exact toU64_of_value hv hk
    · exact ha.toU64

/-! ## 2. The cast from `u64` -/

/-- `n / 2^s`, rounded to nearest, ties to even. -/
def roundShift (n s : Nat) : Nat :=
  let q := n / 2 ^ s
  let r := n % 2 ^ s
  if 2 ^ s < 2 * r ∨ (2 ^ s = 2 * r ∧ q % 2 = 1) then q + 1 else q

/-- `n as f64`: the nearest value, the even one of two nearest. -/
def ofU64 (n : Nat) : Binary64 :=
  if n = 0 then zero
  else if n.log2 ≤ 52 then ofMag false (n * 2 ^ (52 - n.log2)) ((n.log2 : Int) - 52)
  else
    let s := n.log2 - 52
    let q := roundShift n s
    -- rounding up can carry into the next binade
    if q = 2 ^ 53 then ofMag false (2 ^ 52) (s + 1) else ofMag false q s

/-- The magnitude of a number of at most 53 bits, shifted up to 53 bits, is canonical. -/
theorem canonical_shift {n : Nat} (h0 : n ≠ 0) (hk : n.log2 ≤ 52) :
    Canonical (n * 2 ^ (52 - n.log2)) ((n.log2 : Int) - 52) := by
  have hlo : 2 ^ n.log2 ≤ n := Nat.log2_self_le h0
  have hhi : n < 2 ^ (n.log2 + 1) := Nat.lt_log2_self
  have e1 : 2 ^ n.log2 * 2 ^ (52 - n.log2) = 2 ^ 52 := by rw [← Nat.pow_add]; congr 1; omega
  have e2 : 2 ^ (n.log2 + 1) * 2 ^ (52 - n.log2) = 2 ^ 53 := by
    rw [← Nat.pow_add]; congr 1; omega
  refine ⟨?_, by omega, by omega, Or.inl ?_⟩
  · rw [← e2]
    exact Nat.mul_lt_mul_of_pos_right hhi (Nat.two_pow_pos _)
  · rw [← e1]
    exact Nat.mul_le_mul_right _ hlo

theorem log2_le_of_lt {n : Nat} (h : n < 2 ^ 53) : n.log2 ≤ 52 := by
  by_cases h0 : n = 0
  · subst h0; decide
  · have : n.log2 < 53 := (Nat.log2_lt h0).mpr h
    omega

/-- **Below `2^53` the cast from `u64` is exact.** -/
theorem value_ofU64 {n : Nat} (h : n < 2 ^ 53) : (ofU64 n).value = some (n : ℚ) := by
  unfold ofU64
  split
  · rename_i h0
    simp [h0, zero, value]
  · rename_i h0
    have hk := log2_le_of_lt h
    rw [if_pos hk, ofMag, dif_pos (canonical_shift h0 hk)]
    have e : ((n.log2 : Int) - 52) = -((52 - n.log2 : Nat) : Int) := by omega
    have h2 : (2 : ℚ) ^ (52 - n.log2) ≠ 0 := by positivity
    simp only [value, e, zpow_neg, zpow_natCast, Nat.cast_mul, Nat.cast_pow, Nat.cast_ofNat,
      Bool.false_eq_true, if_false, one_mul]
    rw [mul_assoc, mul_inv_cancel₀ h2, mul_one]

/-- **Below `2^53` a number goes to binary64 and back unchanged.** -/
theorem toU64_ofU64 {n : Nat} (h : n < 2 ^ 53) : (ofU64 n).toU64 = n :=
  toU64_of_value (value_ofU64 h) (by unfold u64Size; omega)

/-- Below `2^53` different numbers stay different. -/
theorem ofU64_injective {m n : Nat} (hm : m < 2 ^ 53) (hn : n < 2 ^ 53) (h : ofU64 m = ofU64 n) :
    m = n := by
  rw [← toU64_ofU64 hm, h, toU64_ofU64 hn]

/-- `2^53` itself is exact too. -/
theorem toU64_ofU64_le {n : Nat} (h : n ≤ 2 ^ 53) : (ofU64 n).toU64 = n := by
  rcases Nat.lt_or_eq_of_le h with hlt | rfl
  · exact toU64_ofU64 hlt
  · decide +kernel

/-- **The first two numbers that become one**: the tie goes to the even neighbour. -/
theorem ofU64_collision : ofU64 (2 ^ 53 + 1) = ofU64 (2 ^ 53) := by decide +kernel

end Binary64

end TrueSealSync.Lib
