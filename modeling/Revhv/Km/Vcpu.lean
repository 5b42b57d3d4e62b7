import Mathlib.Algebra.GroupWithZero.Nat
import Mathlib.Data.Nat.Basic

/-!
# `Revhv.Km.Vcpu`: the guest context

The general registers of `vcpu::guest_context` (`revhv-km/vcpu.h`), which
the exit stub saves and restores around the exit handler.
-/

set_option autoImplicit false

namespace Revhv.Vcpu

/-- The saved general registers. RSP and RIP live in the VMCS. -/
structure GuestContext where
  rax : UInt64
  rcx : UInt64
  rdx : UInt64
  rbx : UInt64
  rbp : UInt64
  rsi : UInt64
  rdi : UInt64
  r8 : UInt64
  r9 : UInt64
  r10 : UInt64
  r11 : UInt64
  r12 : UInt64
  r13 : UInt64
  r14 : UInt64
  r15 : UInt64
  deriving DecidableEq

/-- All registers zero. -/
def GuestContext.zero : GuestContext :=
  ⟨0, 0, 0, 0, 0, 0, 0, 0, 0, 0, 0, 0, 0, 0, 0⟩

end Revhv.Vcpu
