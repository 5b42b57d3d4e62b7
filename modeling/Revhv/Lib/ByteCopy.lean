import Mathlib.Data.List.Range
import Mathlib.Logic.Function.Basic

/-!
# `Revhv.Lib.ByteCopy`: copies through an address translation

Memory is a function from addresses to bytes. `memcpy` copies a range,
`storeBytes` stores bytes one by one at addresses that a translation
gives, and `prefixLength` is how far a predicate holds without a gap.

* `prefixLength_eq`: what characterises the length of a prefix.
* `memcpy_eq_storeBytes`: a copy to a range that translates without a
  break is a store byte by byte.
* `storeBytes_of_not_mem`, `storeBytes_of_last`: what a store leaves
  alone, and what it leaves behind.

Nothing here names a program.
-/

set_option autoImplicit false

namespace Revhv.Lib

/-- Bytes by address. -/
abbrev Bytes := Nat → UInt8

/-! ### Prefixes -/

/-- The greatest `k ≤ n` such that `p` holds below `k`. -/
def prefixLength (p : Nat → Bool) : Nat → Nat
  | 0 => 0
  | n + 1 => if p 0 then prefixLength (fun i => p (i + 1)) n + 1 else 0

/-- `p` holds below `k`, and at `k` it fails or the range ends. -/
theorem prefixLength_eq {p : Nat → Bool} {n k : Nat} (hle : k ≤ n) (hbelow : ∀ i < k, p i)
    (hend : k < n → p k = false) : prefixLength p n = k := by
  induction n generalizing p k with
  | zero =>
    have hzero : k = 0 := by omega
    rw [hzero]
    rfl
  | succ n ih =>
    -- Either the predicate ends the prefix at once or the rest is one shorter.
    cases k with
    | zero =>
      have hfirst : p 0 = false := hend (by omega)
      simp [prefixLength, hfirst]
    | succ k =>
      have hfirst : p 0 = true := hbelow 0 (by omega)
      have hrest := @ih (fun i => p (i + 1)) k (by omega)
        (fun i hi => hbelow (i + 1) (by omega)) (fun h => hend (by omega))
      simp [prefixLength, hfirst, hrest]

/-- A prefix is no longer than the range it is a prefix of. -/
theorem prefixLength_le (p : Nat → Bool) (n : Nat) : prefixLength p n ≤ n := by
  induction n generalizing p with
  | zero => exact Nat.le_refl 0
  | succ n ih =>
    have hrest := ih fun i => p (i + 1)
    rw [prefixLength]
    split <;> omega

/-- `p` holds on the prefix. -/
theorem prefixLength_below {p : Nat → Bool} {n i : Nat} (h : i < prefixLength p n) :
    p i = true := by
  induction n generalizing p i with
  | zero => exact absurd h (Nat.not_lt_zero i)
  | succ n ih =>
    rw [prefixLength] at h
    split at h
    · rename_i hfirst
      cases i with
      | zero => exact hfirst
      | succ i => exact @ih (fun j => p (j + 1)) i (by omega)
    · omega

/-- `p` fails behind the prefix. -/
theorem prefixLength_end {p : Nat → Bool} {n : Nat} (h : prefixLength p n < n) :
    p (prefixLength p n) = false := by
  induction n generalizing p with
  | zero => exact absurd h (Nat.not_lt_zero _)
  | succ n ih =>
    rw [prefixLength] at h ⊢
    split
    · rename_i hfirst
      rw [if_pos hfirst] at h
      exact @ih (fun i => p (i + 1)) (by omega)
    · rename_i hfirst
      exact Bool.eq_false_iff.mpr hfirst

/-- A range on which `p` holds is part of the prefix. -/
theorem le_prefixLength {p : Nat → Bool} {n m : Nat} (hle : m ≤ n) (hbelow : ∀ i < m, p i) :
    m ≤ prefixLength p n := by
  induction n generalizing p m with
  | zero => exact hle
  | succ n ih =>
    cases m with
    | zero => exact Nat.zero_le _
    | succ m =>
      have hfirst : p 0 = true := hbelow 0 (by omega)
      have hrest := @ih (fun i => p (i + 1)) m (by omega) fun i hi => hbelow (i + 1) (by omega)
      rw [prefixLength, if_pos hfirst]
      omega

/-! ### Ranges -/

/-- A copy of `n` bytes. -/
def memcpy (dst : Bytes) (d : Nat) (src : Bytes) (s n : Nat) : Bytes :=
  fun a => if d ≤ a ∧ a < d + n then src (s + (a - d)) else dst a

/-- A byte of the destination is the one at its place in the source. -/
theorem memcpy_of_mem (dst : Bytes) (d : Nat) (src : Bytes) (s : Nat) {n i : Nat} (h : i < n) :
    memcpy dst d src s n (d + i) = src (s + i) := by
  have hin : d ≤ d + i ∧ d + i < d + n := by omega
  rw [memcpy, if_pos hin, Nat.add_sub_cancel_left]

/-- A byte outside the destination stays. -/
theorem memcpy_of_not_mem (dst : Bytes) (d : Nat) (src : Bytes) (s n : Nat) {a : Nat}
    (h : a < d ∨ d + n ≤ a) : memcpy dst d src s n a = dst a :=
  if_neg (by omega)

/-- One more byte. -/
theorem memcpy_succ (dst : Bytes) (d : Nat) (src : Bytes) (s n : Nat) :
    memcpy dst d src s (n + 1) =
      Function.update (memcpy dst d src s n) (d + n) (src (s + n)) := by
  funext a
  by_cases ha : a = d + n
  · rw [ha, memcpy_of_mem _ _ _ _ (Nat.lt_succ_self n), Function.update_self]
  · rw [Function.update_of_ne ha]
    by_cases hin : d ≤ a ∧ a < d + n
    · have hin' : d ≤ a ∧ a < d + (n + 1) := by omega
      rw [memcpy, memcpy, if_pos hin, if_pos hin']
    · have hout : ¬ (d ≤ a ∧ a < d + (n + 1)) := by omega
      rw [memcpy, memcpy, if_neg hin, if_neg hout]

/-! ### Stores through a translation -/

/-- A store of byte `src i` at what `va + i` translates to, for `i` from
0 to `n - 1`. A byte whose address does not translate is left out. -/
def storeBytes (translate : Nat → Option Nat) (va : Nat) (src : Bytes) (mem : Bytes) :
    Nat → Bytes
  | 0 => mem
  | n + 1 =>
      match translate (va + n) with
      | none => storeBytes translate va src mem n
      | some a => Function.update (storeBytes translate va src mem n) a (src n)

section
variable {translate : Nat → Option Nat} {va : Nat} {src mem : Bytes} {n : Nat}

/-- Where the next address translates, its byte is stored on top of
those before it. -/
theorem storeBytes_succ {a : Nat} (h : translate (va + n) = some a) :
    storeBytes translate va src mem (n + 1) =
      Function.update (storeBytes translate va src mem n) a (src n) := by
  rw [storeBytes, h]

/-- Where the next address does not translate, nothing is stored for it. -/
theorem storeBytes_succ_none (h : translate (va + n) = none) :
    storeBytes translate va src mem (n + 1) = storeBytes translate va src mem n := by
  rw [storeBytes, h]

/-- An address that no byte goes to. -/
theorem storeBytes_of_not_mem {a : Nat} (h : ∀ i < n, translate (va + i) ≠ some a) :
    storeBytes translate va src mem n a = mem a := by
  induction n with
  | zero => rfl
  | succ n ih =>
    have hrest := ih fun i hi => h i (by omega)
    cases hb : translate (va + n) with
    | none => rw [storeBytes_succ_none hb, hrest]
    | some b =>
      have hne : a ≠ b := fun hab => h n (by omega) (hab ▸ hb)
      rw [storeBytes_succ hb, Function.update_of_ne hne, hrest]

/-- The last byte that goes to an address stays there. -/
theorem storeBytes_of_last {i a : Nat} (hi : i < n) (ha : translate (va + i) = some a)
    (hlast : ∀ j, i < j → j < n → translate (va + j) ≠ some a) :
    storeBytes translate va src mem n a = src i := by
  induction n with
  | zero => omega
  | succ n ih =>
    -- The bytes after the `i`th go to other addresses.
    by_cases heq : i = n
    · subst heq
      rw [storeBytes_succ ha, Function.update_self]
    · have hrest := ih (by omega) fun j hj hjn => hlast j hj (by omega)
      cases hb : translate (va + n) with
      | none => rw [storeBytes_succ_none hb, hrest]
      | some b =>
        have hne : a ≠ b := fun hab => hlast n (by omega) (by omega) (hab ▸ hb)
        rw [storeBytes_succ hb, Function.update_of_ne hne, hrest]

/-- A store depends on the bytes it stores only. -/
theorem storeBytes_congr {src' : Bytes} (h : ∀ i < n, src i = src' i) :
    storeBytes translate va src mem n = storeBytes translate va src' mem n := by
  induction n with
  | zero => rfl
  | succ n ih =>
    rw [storeBytes, storeBytes, ih fun i hi => h i (by omega), h n (by omega)]

/-- A store depends on how its own addresses translate only. -/
theorem storeBytes_translate_congr {translate' : Nat → Option Nat}
    (h : ∀ i < n, translate' (va + i) = translate (va + i)) :
    storeBytes translate' va src mem n = storeBytes translate va src mem n := by
  induction n with
  | zero => rfl
  | succ n ih =>
    rw [storeBytes, storeBytes, ih fun i hi => h i (by omega), h n (by omega)]

/-- At an address that a byte goes to, the memory before the store does
not matter. -/
theorem storeBytes_of_mem {mem' : Bytes} {a : Nat} (h : ∃ i < n, translate (va + i) = some a) :
    storeBytes translate va src mem n a = storeBytes translate va src mem' n a := by
  induction n with
  | zero =>
    rcases h with ⟨i, hi, -⟩
    omega
  -- The last byte decides if it lands on `a`, else an earlier one does.
  | succ n ih =>
    cases hb : translate (va + n) with
    | none =>
      rcases h with ⟨i, hi, ha⟩
      have hne : i ≠ n := fun hin => by
        rw [hin, hb] at ha
        cases ha
      rw [storeBytes_succ_none hb, storeBytes_succ_none hb, ih ⟨i, by omega, ha⟩]
    | some b =>
      rw [storeBytes_succ hb, storeBytes_succ hb]
      by_cases hab : a = b
      · rw [hab, Function.update_self, Function.update_self]
      · rcases h with ⟨i, hi, ha⟩
        have hne : i ≠ n := fun hin => hab (by
          rw [hin, hb] at ha
          exact (Option.some.inj ha).symm)
        rw [Function.update_of_ne hab, Function.update_of_ne hab, ih ⟨i, by omega, ha⟩]

/-- Where two memories agree before a store, they agree after it. -/
theorem storeBytes_mem_congr {mem' : Bytes} {a : Nat} (h : mem a = mem' a) :
    storeBytes translate va src mem n a = storeBytes translate va src mem' n a := by
  induction n with
  | zero => exact h
  | succ n ih =>
    cases hb : translate (va + n) with
    | none => rw [storeBytes_succ_none hb, storeBytes_succ_none hb, ih]
    | some b =>
      rw [storeBytes_succ hb, storeBytes_succ hb]
      by_cases hab : a = b
      · rw [hab, Function.update_self, Function.update_self]
      · rw [Function.update_of_ne hab, Function.update_of_ne hab, ih]

/-- The rest of a store is a store of its own. -/
theorem storeBytes_add (m : Nat) :
    storeBytes translate va src mem (n + m) =
      storeBytes translate (va + n) (fun i => src (n + i)) (storeBytes translate va src mem n) m := by
  induction m with
  | zero => rfl
  | succ m ih =>
    rw [← Nat.add_assoc, storeBytes, storeBytes, ih, Nat.add_assoc]

/-- A copy to a range that translates without a break is a store byte by
byte. -/
theorem memcpy_eq_storeBytes {pa s : Nat} (h : ∀ i < n, translate (va + i) = some (pa + i)) :
    memcpy mem pa src s n = storeBytes translate va (fun i => src (s + i)) mem n := by
  induction n with
  | zero =>
    funext a
    exact memcpy_of_not_mem _ _ _ _ _ (by omega)
  | succ n ih =>
    rw [memcpy_succ, storeBytes_succ (h n (by omega)), ih fun i hi => h i (by omega)]

end

end Revhv.Lib
