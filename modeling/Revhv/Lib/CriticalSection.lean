import Mathlib.Logic.Function.Basic

/-!
# `Revhv.Lib.CriticalSection`: threads around a lock

Any number of threads with a program point each, a set of program
points that are inside the critical section, and the word of a lock.

* `Exclusive`: no thread is inside while the lock is free, and never two
  at a time.
* `Exclusive.move`, `Exclusive.enter` and `Exclusive.leave` are the three
  kinds of steps: a thread stays on its side, takes the free lock, or
  gives it back.

Nothing here names a program.
-/

set_option autoImplicit false

namespace Revhv.Lib

variable {ι π : Type}

/-- Mutual exclusion, where `inside` tells the program points of the
critical section. -/
structure Exclusive (inside : π → Bool) (locked : Bool) (pc : ι → π) : Prop where
  free : locked = false → ∀ t, inside (pc t) = false
  unique : ∀ t t', inside (pc t) = true → inside (pc t') = true → t = t'

namespace Exclusive

variable {inside : π → Bool} {locked : Bool} {pc : ι → π}

/-- While a thread is inside, the others are not. -/
theorem outside (h : Exclusive inside locked pc) {t t' : ι} (ht : inside (pc t) = true)
    (hne : t' ≠ t) : inside (pc t') = false := by
  rw [← Bool.not_eq_true]
  intro ht'
  exact hne (h.unique t' t ht' ht)

variable [DecidableEq ι]

/-- A step that does not cross the border of the critical section. -/
theorem move (h : Exclusive inside locked pc) {t : ι} {p : π}
    (hside : inside p = inside (pc t)) : Exclusive inside locked (Function.update pc t p) := by
  -- Nobody changes sides, so both parts are about the same threads.
  have hsides : ∀ t', inside (Function.update pc t p t') = inside (pc t') := by
    intro t'
    by_cases ht : t' = t
    · rw [ht, Function.update_self, hside]
    · rw [Function.update_of_ne ht]
  constructor
  · intro hfree t'
    rw [hsides]
    exact h.free hfree t'
  · intro t' t'' ht' ht''
    rw [hsides] at ht' ht''
    exact h.unique t' t'' ht' ht''

/-- A thread takes the free lock. -/
theorem enter (h : Exclusive inside locked pc) (hfree : locked = false) (t : ι) (p : π) :
    Exclusive inside true (Function.update pc t p) := by
  have honly : ∀ t', inside (Function.update pc t p t') = true → t' = t := by
    intro t' ht'
    by_contra hne
    rw [Function.update_of_ne hne, h.free hfree t'] at ht'
    exact Bool.false_ne_true ht'
  constructor
  · intro hlocked
    cases hlocked
  · intro t' t'' ht' ht''
    rw [honly t' ht', honly t'' ht'']

/-- The thread inside gives the lock back. -/
theorem leave (h : Exclusive inside locked pc) {t : ι} (ht : inside (pc t) = true) {p : π}
    (hp : inside p = false) : Exclusive inside false (Function.update pc t p) := by
  -- The one inside was alone.
  have hnone : ∀ t', inside (Function.update pc t p t') = false := by
    intro t'
    by_cases hne : t' = t
    · rw [hne, Function.update_self, hp]
    · rw [Function.update_of_ne hne]
      exact h.outside ht hne
  constructor
  · intro _
    exact hnone
  · intro t' _ ht' _
    rw [hnone t'] at ht'
    cases ht'

end Exclusive

end Revhv.Lib
