/-
  File:      TrueSealSync/Lib/Hex.lean
  Subject:   Bytes as hexadecimal text, two digits a byte.

  Nothing here names a program.

  * `hexOfBytes` -- the text of bytes, in lower case;
  * `bytesOfHex` -- the bytes of a text, in either case;
  * `bytesOfHex_hexOfBytes` -- they come back;
  * `isAlphanum_of_bytesOfHex` -- such a text is made of letters and digits.
-/
import Mathlib.Init

namespace TrueSealSync.Lib

/-- The two digits of each byte. -/
def hexOfBytes (bytes : List UInt8) : List Char :=
  bytes.flatMap fun b => [Nat.digitChar (b.toNat / 16), Nat.digitChar (b.toNat % 16)]

/-- The value of a digit, in either case. -/
def hexValue (c : Char) : Option Nat :=
  if '0' ≤ c ∧ c ≤ '9' then some (c.toNat - '0'.toNat)
  else if 'a' ≤ c ∧ c ≤ 'f' then some (c.toNat - 'a'.toNat + 10)
  else if 'A' ≤ c ∧ c ≤ 'F' then some (c.toNat - 'A'.toNat + 10)
  else none

/-- The bytes of a text of digits; a text of odd length has none. -/
def bytesOfHex : List Char → Option (List UInt8)
  | [] => some []
  | [_] => none
  | high :: low :: rest => do
      let h ← hexValue high
      let l ← hexValue low
      return UInt8.ofNat (16 * h + l) :: (← bytesOfHex rest)

theorem hexValue_digitChar : ∀ n < 16, hexValue (Nat.digitChar n) = some n := by decide

@[simp] theorem hexOfBytes_cons (b : UInt8) (bytes : List UInt8) : hexOfBytes (b :: bytes) =
    Nat.digitChar (b.toNat / 16) :: Nat.digitChar (b.toNat % 16) :: hexOfBytes bytes := rfl

/-- **The text of bytes stands for them.** -/
theorem bytesOfHex_hexOfBytes (bytes : List UInt8) : bytesOfHex (hexOfBytes bytes) = some bytes := by
  induction bytes with
  | nil => rfl
  | cons b bytes ih =>
      have hlt := b.toNat_lt
      have hhigh := hexValue_digitChar (b.toNat / 16) (by omega)
      have hlow := hexValue_digitChar (b.toNat % 16) (by omega)
      have hbyte : 16 * (b.toNat / 16) + b.toNat % 16 = b.toNat := Nat.div_add_mod ..
      rw [hexOfBytes_cons]
      simp only [bytesOfHex, hhigh, hlow, ih, Option.bind_eq_bind, Option.bind_some, hbyte,
        UInt8.ofNat_toNat, Option.pure_def]

theorem length_hexOfBytes (bytes : List UInt8) : (hexOfBytes bytes).length = 2 * bytes.length := by
  induction bytes with
  | nil => rfl
  | cons b bytes ih =>
      rw [hexOfBytes_cons, List.length_cons, List.length_cons, List.length_cons, ih]
      omega

theorem length_of_bytesOfHex {text : List Char} {bytes : List UInt8} (h : bytesOfHex text = some bytes) :
    text.length = 2 * bytes.length := by
  induction text using bytesOfHex.induct generalizing bytes with
  | case1 =>
      cases h
      rfl
  | case2 c => cases h
  | case3 high low rest ih =>
      simp only [bytesOfHex, Option.bind_eq_bind, Option.bind_eq_some_iff, Option.pure_def,
        Option.some.injEq] at h
      obtain ⟨_, -, _, -, bytes, hrest, rfl⟩ := h
      rw [List.length_cons, List.length_cons, List.length_cons, ih hrest]
      omega

/-- Letters and digits, by their codes. -/
theorem isAlphanum_iff (c : Char) : c.isAlphanum = true ↔
    ((65 ≤ c.toNat ∧ c.toNat ≤ 90) ∨ 97 ≤ c.toNat ∧ c.toNat ≤ 122) ∨ 48 ≤ c.toNat ∧ c.toNat ≤ 57 := by
  have hsplit : c.isAlphanum = (c.isUpper || c.isLower || c.isDigit) := rfl
  have hupper : c.isUpper = true ↔ 65 ≤ c.toNat ∧ c.toNat ≤ 90 := decide_eq_true_iff
  have hlower : c.isLower = true ↔ 97 ≤ c.toNat ∧ c.toNat ≤ 122 :=
    Bool.and_eq_true_iff.trans (and_congr decide_eq_true_iff decide_eq_true_iff)
  have hdigit : c.isDigit = true ↔ 48 ≤ c.toNat ∧ c.toNat ≤ 57 :=
    Bool.and_eq_true_iff.trans (and_congr decide_eq_true_iff decide_eq_true_iff)
  rw [hsplit, Bool.or_eq_true, Bool.or_eq_true, hupper, hlower, hdigit]

theorem isAlphanum_of_hexValue {c : Char} {n : Nat} (h : hexValue c = some n) :
    c.isAlphanum = true := by
  have hrange : (48 ≤ c.toNat ∧ c.toNat ≤ 57) ∨ (97 ≤ c.toNat ∧ c.toNat ≤ 102) ∨
      (65 ≤ c.toNat ∧ c.toNat ≤ 70) := by
    unfold hexValue at h
    split at h
    · rename_i hc
      exact Or.inl hc
    split at h
    · rename_i hc
      exact Or.inr (Or.inl hc)
    split at h
    · rename_i hc
      exact Or.inr (Or.inr hc)
    · cases h
  rw [isAlphanum_iff]
  omega

theorem isAlphanum_of_bytesOfHex {text : List Char} {bytes : List UInt8}
    (h : bytesOfHex text = some bytes) : ∀ c ∈ text, c.isAlphanum = true := by
  induction text using bytesOfHex.induct generalizing bytes with
  | case1 => exact nofun
  | case2 c => cases h
  | case3 high low rest ih =>
      simp only [bytesOfHex, Option.bind_eq_bind, Option.bind_eq_some_iff] at h
      obtain ⟨_, hhigh, _, hlow, bytes, hrest, -⟩ := h
      intro c hc
      rcases List.mem_cons.mp hc with rfl | hc
      · exact isAlphanum_of_hexValue hhigh
      rcases List.mem_cons.mp hc with rfl | hc
      · exact isAlphanum_of_hexValue hlow
      · exact ih hrest c hc

end TrueSealSync.Lib
