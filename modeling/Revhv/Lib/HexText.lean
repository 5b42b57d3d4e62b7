import Mathlib.Data.Nat.Digits.Lemmas

/-!
# `Revhv.Lib.HexText`: hexadecimal texts

Texts of bytes whose digits are hexadecimal, upper or lower case, the most
significant first.

* `hexValue_append`: the value of two texts, one behind the other.
* `hexValue_lt_iff`: a bound on the value is a bound on the digits that count.
* `hexValue_toHex`: the text of a number has its value.

Nothing here names a program.
-/

set_option autoImplicit false

namespace Revhv.Lib

/-- The byte is a hexadecimal digit. -/
def isHexDigit (c : UInt8) : Bool :=
  let n := c.toNat
  (48 ≤ n && n ≤ 57) || (97 ≤ n && n ≤ 102) || (65 ≤ n && n ≤ 70)

/-- The value of a hexadecimal digit. -/
def digitValue (c : UInt8) : Nat :=
  if c.toNat ≤ 57 then c.toNat - 48 else if c.toNat ≤ 70 then c.toNat - 55 else c.toNat - 87

/-- The value of a text of digits. -/
def hexValue (text : List UInt8) : Nat :=
  Nat.ofDigits 16 (text.reverse.map digitValue)

/-- The digits that count: those from the first one on that is not `0`. -/
def significant (text : List UInt8) : List UInt8 :=
  text.dropWhile (· == 48)

/-- The byte of a digit, in lower case. -/
def hexDigit (value : Nat) : UInt8 :=
  if value < 10 then UInt8.ofNat (value + 48) else UInt8.ofNat (value + 87)

/-- The text of a number, without leading zeros. -/
def toHex (n : Nat) : List UInt8 :=
  if n = 0 then [48] else ((Nat.digits 16 n).map hexDigit).reverse

/-- A digit is less than sixteen. -/
theorem digitValue_lt {c : UInt8} (hc : isHexDigit c = true) : digitValue c < 16 := by
  simp only [isHexDigit, Bool.or_eq_true, Bool.and_eq_true, decide_eq_true_eq] at hc
  unfold digitValue
  split_ifs <;> omega

/-- Only the digit `0` has the value zero. -/
theorem digitValue_pos {c : UInt8} (hc : isHexDigit c = true) (hzero : c ≠ 48) :
    0 < digitValue c := by
  have hne : c.toNat ≠ 48 := fun h => hzero (UInt8.toNat_inj.mp h)
  simp only [isHexDigit, Bool.or_eq_true, Bool.and_eq_true, decide_eq_true_eq] at hc
  unfold digitValue
  split_ifs <;> omega

/-- A digit of a number is a hexadecimal digit, and has its value. -/
theorem hexDigit_spec {value : Nat} (hlt : value < 16) :
    isHexDigit (hexDigit value) = true ∧ digitValue (hexDigit value) = value := by
  interval_cases value <;> decide

/-! ### Values -/

/-- No digits stand for 0. -/
@[simp] theorem hexValue_nil : hexValue [] = 0 := rfl

/-- The value of one digit. -/
@[simp] theorem hexValue_singleton (c : UInt8) : hexValue [c] = digitValue c := by
  simp [hexValue]

/-- The value of two texts, one behind the other. -/
theorem hexValue_append (text more : List UInt8) :
    hexValue (text ++ more) = hexValue text * 16 ^ more.length + hexValue more := by
  simp only [hexValue, List.reverse_append, List.map_append, Nat.ofDigits_append, List.length_map,
    List.length_reverse]
  rw [Nat.add_comm, Nat.mul_comm]

/-- The value of a digit in front of a text. -/
theorem hexValue_cons (c : UInt8) (text : List UInt8) :
    hexValue (c :: text) = digitValue c * 16 ^ text.length + hexValue text := by
  rw [← List.singleton_append, hexValue_append, hexValue_singleton]

/-- A text of so many digits. -/
theorem hexValue_lt {text : List UInt8} (hdigits : ∀ c ∈ text, isHexDigit c = true) :
    hexValue text < 16 ^ text.length := by
  have h := Nat.ofDigits_lt_base_pow_length (b := 16) (l := text.reverse.map digitValue)
    (by norm_num) (by
      intro d hd
      rcases List.mem_map.mp hd with ⟨c, hc, rfl⟩
      exact digitValue_lt (hdigits c (List.mem_reverse.mp hc)))
  simpa [hexValue] using h

/-- Leading zeros do not count. -/
theorem hexValue_significant (text : List UInt8) : hexValue (significant text) = hexValue text := by
  induction text with
  | nil => rfl
  | cons c text ih =>
    unfold significant at ih ⊢
    rw [List.dropWhile_cons]
    by_cases hzero : c = 48
    · subst hzero
      simp only [beq_self_eq_true, if_true, ih]
      rw [hexValue_cons, show digitValue 48 = 0 from rfl, Nat.zero_mul, Nat.zero_add]
    · rw [if_neg (by simpa using hzero)]

/-- A bound on the value is a bound on the digits that count. -/
theorem hexValue_lt_iff {text : List UInt8} (hdigits : ∀ c ∈ text, isHexDigit c = true) (n : Nat) :
    hexValue text < 16 ^ n ↔ (significant text).length ≤ n := by
  have hsub : ∀ c ∈ significant text, isHexDigit c = true := fun c hc =>
    hdigits c ((List.dropWhile_sublist _).subset hc)
  rw [← hexValue_significant]
  constructor
  · -- Without leading zeroes the first digit alone is worth `16 ^ rest.length`.
    intro hlt
    cases hcount : significant text with
    | nil => simp
    | cons c rest =>
      have hhead : c ≠ 48 := by
        have h := List.head?_dropWhile_not (· == 48) text
        rw [show text.dropWhile (· == 48) = c :: rest from hcount] at h
        simpa using h
      have hc := digitValue_pos (hsub c (by rw [hcount]; exact List.mem_cons_self)) hhead
      rw [hcount, hexValue_cons] at hlt
      by_contra hlong
      simp only [List.length_cons, Nat.not_le] at hlong
      have hpow : 16 ^ n ≤ 16 ^ rest.length := Nat.pow_le_pow_right (by norm_num) (by omega)
      have hmul : 16 ^ rest.length ≤ digitValue c * 16 ^ rest.length := Nat.le_mul_of_pos_left _ hc
      omega
  · intro hlen
    exact Nat.lt_of_lt_of_le (hexValue_lt hsub) (Nat.pow_le_pow_right (by norm_num) hlen)

/-! ### The text of a number -/

/-- The text of a number has digits only. -/
theorem isHexDigit_of_mem_toHex {n : Nat} {c : UInt8} (hc : c ∈ toHex n) : isHexDigit c = true := by
  unfold toHex at hc
  split_ifs at hc with hzero
  · rw [List.mem_singleton.mp hc]
    rfl
  · rcases List.mem_map.mp (List.mem_reverse.mp hc) with ⟨d, hd, rfl⟩
    exact (hexDigit_spec (Nat.digits_lt_base (by norm_num) hd)).1

/-- The text of a number is not empty. -/
theorem toHex_ne_nil (n : Nat) : toHex n ≠ [] := by
  unfold toHex
  split_ifs with hzero
  · simp
  · simpa [Nat.digits_ne_nil_iff_ne_zero] using hzero

/-- The text of a number has its value. -/
theorem hexValue_toHex (n : Nat) : hexValue (toHex n) = n := by
  unfold toHex
  split_ifs with hzero
  · rw [hzero]
    rfl
  · rw [hexValue, List.reverse_reverse, List.map_map]
    have hdigits : (Nat.digits 16 n).map (digitValue ∘ hexDigit) = Nat.digits 16 n := by
      refine (List.map_congr_left ?_).trans (List.map_id _)
      intro d hd
      exact (hexDigit_spec (Nat.digits_lt_base (by norm_num) hd)).2
    rw [hdigits, Nat.ofDigits_digits]

end Revhv.Lib
