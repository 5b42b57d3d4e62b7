import Mathlib.Algebra.GroupWithZero.Nat
import Mathlib.Data.Nat.Basic

/-!
# `Revhv.Km.Introspection`: copies to guest memory

The loop of `introspection::write_guest_virtual`
(`revhv-km/introspection.cpp`): it goes from page to page and stops at
the first address that does not translate or whose copy faults.

What the guest's page tables say during one call is a value of
`GuestPages`. A copy that faults does so on its first byte, because the
host maps physical memory by whole pages, so such an address counts as
one that does not translate.
-/

set_option autoImplicit false

namespace Revhv.Introspection

/-- The guest pages during one call. `offsetToNextPage va` is what
`gva_to_hva` reports for an address it translates: the bytes from `va`
to the end of its page. -/
structure GuestPages where
  offsetToNextPage : Nat → Option Nat
  pos : ∀ va off, offsetToNextPage va = some off → 0 < off

/-- The page-wise loop from `total` bytes on, for at most `fuel` pages. -/
def copyLoop (pages : GuestPages) (va size : Nat) : (fuel total : Nat) → Nat
  | 0, total => total
  | fuel + 1, total =>
      if total < size then
        match pages.offsetToNextPage ((va + total) % 2 ^ 64) with
        | none => total
        | some off => copyLoop pages va size fuel (total + min (size - total) off)
      else total

/-- `write_guest_virtual`: the number of leading bytes of the buffer it
stores at `va`. -/
def writeGuestVirtual (pages : GuestPages) (va size : Nat) : Nat :=
  if va = 0 ∨ size = 0 then 0 else copyLoop pages va size size 0

/-- All `size` bytes are stored. -/
def Writable (pages : GuestPages) (va size : Nat) : Prop :=
  writeGuestVirtual pages va size = size

/-- A range has finitely many addresses. -/
instance (pages : GuestPages) (va size : Nat) : Decidable (Writable pages va size) :=
  inferInstanceAs (Decidable (_ = _))

/-- The loop copies no more than it was asked to. By induction on the
rounds: each takes at most what is left. -/
theorem copyLoop_le (pages : GuestPages) (va size fuel : Nat) {total : Nat} (h : total ≤ size) :
    copyLoop pages va size fuel total ≤ size := by
  induction fuel generalizing total with
  | zero => exact h
  | succ fuel ih =>
    unfold copyLoop
    split
    · split
      · exact h
      · exact ih (by omega)
    · exact h

/-- A call never stores more than it is given. -/
theorem writeGuestVirtual_le (pages : GuestPages) (va size : Nat) :
    writeGuestVirtual pages va size ≤ size := by
  unfold writeGuestVirtual
  split
  · exact Nat.zero_le _
  · exact copyLoop_le pages va size size (Nat.zero_le _)

/-- A call that does not store everything stores less. -/
theorem writeGuestVirtual_lt {pages : GuestPages} {va size : Nat}
    (h : ¬ Writable pages va size) : writeGuestVirtual pages va size < size :=
  lt_of_le_of_ne (writeGuestVirtual_le pages va size) h

/-- One page at least goes by in every round, so `size` rounds reach the
end when every address translates. -/
theorem copyLoop_of_resident {pages : GuestPages} (hres : ∀ a, (pages.offsetToNextPage a).isSome)
    (va size fuel : Nat) {total : Nat} (hle : total ≤ size) (hfuel : size ≤ total + fuel) :
    copyLoop pages va size fuel total = size := by
  induction fuel generalizing total with
  | zero =>
    unfold copyLoop
    omega
  | succ fuel ih =>
    unfold copyLoop
    split
    · obtain ⟨off, hoff⟩ := Option.isSome_iff_exists.mp (hres ((va + total) % 2 ^ 64))
      have hpos := pages.pos _ _ hoff
      rw [hoff]
      exact ih (by omega) (by omega)
    · omega

/-- A buffer whose pages are all resident takes everything. -/
theorem writable_of_resident {pages : GuestPages} (hres : ∀ a, (pages.offsetToNextPage a).isSome)
    {va : Nat} (hva : va ≠ 0) (size : Nat) : Writable pages va size := by
  unfold Writable writeGuestVirtual
  split
  · omega
  · exact copyLoop_of_resident hres va size size (Nat.zero_le _) (by omega)

end Revhv.Introspection
