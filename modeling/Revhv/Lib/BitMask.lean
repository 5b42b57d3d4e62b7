import Mathlib.Logic.Basic

/-!
# `Revhv.Lib.BitMask`: words put together under a mask

A word may be shared between two parties: the bits in a mask belong to
one of them, the others to the other. `select mask a b` takes the bits
in the mask from `a` and the others from `b`. `Between low high x` says
that `x` has all bits of `low` and none outside `high`, and
`clamp low high x` is the nearest such word.

* `select_of_agree`: what a select gives whose first word agrees with
  the result on the mask.
* `select_eq_and_iff`: when a select is its first word alone.
* `select_clamp`: clamping is invisible behind a mask that covers the
  bits it may change.
* `between_clamp` / `between_select`: how to get and keep `Between`.

Nothing here names a program.
-/

set_option autoImplicit false

namespace Revhv.Lib.BitMask

variable {w : Nat}

/-- The bits in `mask` from `a`, the others from `b`. -/
def select (mask a b : BitVec w) : BitVec w := (a &&& mask) ||| (b &&& ~~~mask)

/-- `x` with the bits of `low` set and those outside `high` cleared. -/
def clamp (low high x : BitVec w) : BitVec w := (x ||| low) &&& high

/-- `x` has the bits of `low`, and only bits of `high`. -/
structure Between (low high x : BitVec w) : Prop where
  low : ∀ i, low.getLsbD i = true → x.getLsbD i = true
  high : ∀ i, x.getLsbD i = true → high.getLsbD i = true

/-- The mask has every bit that `clamp low high` may change. -/
def Covers (mask low high : BitVec w) : Prop :=
  ∀ i, i < w → mask.getLsbD i = false → low.getLsbD i = false ∧ high.getLsbD i = true

/-- A selection takes the bits of `a` where the mask is set, and those
of `b` elsewhere. -/
theorem getLsbD_select (mask a b : BitVec w) {i : Nat} (hi : i < w) :
    (select mask a b).getLsbD i = if mask.getLsbD i then a.getLsbD i else b.getLsbD i := by
  unfold select
  rw [BitVec.getLsbD_or, BitVec.getLsbD_and, BitVec.getLsbD_and, BitVec.getLsbD_not]
  cases mask.getLsbD i with
  | true => simp
  | false => simp [hi]

/-- A clamped value has all bits of `low` and none outside `high`. -/
theorem getLsbD_clamp (low high x : BitVec w) (i : Nat) :
    (clamp low high x).getLsbD i = ((x.getLsbD i || low.getLsbD i) && high.getLsbD i) := by
  unfold clamp
  rw [BitVec.getLsbD_and, BitVec.getLsbD_or]

section
variable {mask low high a b x : BitVec w}

/-- Agreement on a mask, bit by bit. -/
theorem agree_iff : a &&& mask = b &&& mask ↔
    ∀ i, mask.getLsbD i = true → a.getLsbD i = b.getLsbD i := by
  constructor
  · intro h i hi
    have hbit := congrArg (fun x => x.getLsbD i) h
    simpa [BitVec.getLsbD_and, hi] using hbit
  · intro h
    apply BitVec.eq_of_getLsbD_eq
    intro i _
    rw [BitVec.getLsbD_and, BitVec.getLsbD_and]
    cases hi : mask.getLsbD i with
    | true => rw [h i hi]
    | false => simp

/-- `Between` as two equations, which can be decided. -/
theorem between_iff : Between low high x ↔ low &&& x = low ∧ x &&& high = x := by
  constructor
  · intro h
    constructor
    · apply BitVec.eq_of_getLsbD_eq
      intro i _
      rw [BitVec.getLsbD_and]
      cases hlow : low.getLsbD i with
      | true => rw [h.low i hlow, Bool.true_and]
      | false => rw [Bool.false_and]
    · apply BitVec.eq_of_getLsbD_eq
      intro i _
      rw [BitVec.getLsbD_and]
      cases hx : x.getLsbD i with
      | true => rw [h.high i hx, Bool.true_and]
      | false => rw [Bool.false_and]
  · intro h
    constructor
    · intro i hi
      have hbit := congrArg (fun y => y.getLsbD i) h.1
      simpa [BitVec.getLsbD_and, hi] using hbit
    · intro i hi
      have hbit := congrArg (fun y => y.getLsbD i) h.2
      simpa [BitVec.getLsbD_and, hi] using hbit

/-- Two masks and two comparisons decide it. -/
instance : Decidable (Between low high x) := decidable_of_iff _ between_iff.symm

/-- The result is the word that agrees with `a` on the mask and with `b`
off it. -/
theorem select_of_agree (hin : ∀ i, mask.getLsbD i = true → a.getLsbD i = x.getLsbD i)
    (hout : ∀ i, i < w → mask.getLsbD i = false → b.getLsbD i = x.getLsbD i) :
    select mask a b = x := by
  apply BitVec.eq_of_getLsbD_eq
  intro i hi
  rw [getLsbD_select mask a b hi]
  cases hmask : mask.getLsbD i with
  | true => exact hin i hmask
  | false => exact hout i hi hmask

/-- A select is its first word alone when the second has no bit outside
the mask. -/
theorem select_eq_and_iff (mask a b : BitVec w) :
    select mask a b = a &&& mask ↔ b &&& ~~~mask = 0 := by
  constructor
  · intro h
    apply BitVec.eq_of_getLsbD_eq
    intro i hi
    have hbit := congrArg (fun x => x.getLsbD i) h
    rw [getLsbD_select mask a b hi, BitVec.getLsbD_and] at hbit
    rw [BitVec.getLsbD_and, BitVec.getLsbD_not, decide_eq_true hi, Bool.true_and]
    cases hmask : mask.getLsbD i with
    | true => simp
    | false => simpa [hmask] using hbit
  · intro h
    rw [select, h]
    exact BitVec.or_zero

/-- Bits outside the mask show through a select inside a select. -/
theorem select_select (mask a b c : BitVec w) :
    select mask a (select mask b c) = select mask a c := by
  apply BitVec.eq_of_getLsbD_eq
  intro i hi
  rw [getLsbD_select _ _ _ hi, getLsbD_select _ _ _ hi, getLsbD_select _ _ _ hi]
  split
  · rfl
  · rfl

/-- A clamped word behind a mask that covers the clamp. -/
theorem select_clamp (h : Covers mask low high) (x : BitVec w) :
    select mask x (clamp low high x) = x := by
  apply select_of_agree
  · exact fun _ _ => rfl
  · intro i hi hmask
    obtain ⟨hlow, hhigh⟩ := h i hi hmask
    rw [getLsbD_clamp, hlow, hhigh, Bool.or_false, Bool.and_true]

/-- A clamped word is between its bounds. -/
theorem between_clamp (h : Between low high high) (x : BitVec w) :
    Between low high (clamp low high x) := by
  constructor
  · intro i hi
    rw [getLsbD_clamp, hi, h.low i hi, Bool.or_true, Bool.and_true]
  · intro i hi
    rw [getLsbD_clamp, Bool.and_eq_true] at hi
    exact hi.2

/-- Bits outside a mask that covers the bounds may be anything. -/
theorem between_select (hcovers : Covers mask low high) (ha : Between low high a)
    (b : BitVec w) : Between low high (select mask a b) := by
  constructor
  · intro i hi
    have hlt : i < w := BitVec.lt_of_getLsbD hi
    rw [getLsbD_select _ _ _ hlt]
    split
    · -- A bit inside the mask comes from `a`. Outside of it the bounds leave
      -- every bit free.
      exact ha.low i hi
    · rename_i hmask
      rw [(hcovers i hlt (Bool.eq_false_iff.mpr hmask)).1] at hi
      cases hi
  · intro i hi
    have hlt : i < w := BitVec.lt_of_getLsbD hi
    rw [getLsbD_select _ _ _ hlt] at hi
    split at hi
    · exact ha.high i hi
    · rename_i hmask
      exact (hcovers i hlt (Bool.eq_false_iff.mpr hmask)).2

end

end Revhv.Lib.BitMask
