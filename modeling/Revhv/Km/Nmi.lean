import Revhv.Lib.Machine

/-!
# `Revhv.Km.Nmi`: queued NMIs and NMI-window exiting

`handle_nmi` and `handle_nmi_window` (`revhv-km/vmexit.cpp`), the host's
own `handle_nmi` (`revhv-km/exception.cpp`), and the two functions that
edit the processor-based controls (`revhv-km/vmcs.cpp`). The exit
handlers are given as the memory steps they consist of: an update of
`queued_nmi_count` or of the controls is a read and a write.

A host NMI may come before any step of a handler. It runs to its end
there, since NMIs stay blocked while it is handled. `received` and
`injected` count NMIs and are not part of the program. The processor is
assumed to support NMI-window exiting.
-/

set_option autoImplicit false

namespace Revhv.Nmi

open Revhv.Lib

/-- `ia32_vmx_procbased_ctls_register`: the bit that changes, and the
others. -/
structure ProcbasedCtls where
  nmiWindowExiting : Bool
  others : Nat
  deriving DecidableEq

/-- `++` on a `size_t`. -/
def increment (count : Nat) : Nat := (count + 1) % 2 ^ 64

/-- `--` on a `size_t`. -/
def decrement (count : Nat) : Nat := (count + (2 ^ 64 - 1)) % 2 ^ 64

/-- Where a core is. -/
inductive HandlerPc where
  /-- The guest runs. -/
  | guest
  /-- `queued_nmi_count++` of `handle_nmi`, before its read. -/
  | nmiRead
  /-- The same, with `count` read. -/
  | nmiWrite (count : Nat)
  /-- `--queued_nmi_count` of `handle_nmi_window`, before its read. -/
  | windowRead
  /-- The same, with `count` read. -/
  | windowWrite (count : Nat)
  /-- `vmx::inject_nmi`. -/
  | inject
  /-- The first comparison of `queued_nmi_count` with zero. -/
  | compare
  /-- `disable_nmi_window_exiting` before its read. -/
  | disableRead
  /-- The same, with the controls read. -/
  | disableWrite (procBased : ProcbasedCtls)
  /-- The second comparison, for host NMIs that came in between. -/
  | compareAgain
  /-- `enable_nmi_window_exiting` before its read. -/
  | enableRead
  /-- The same, with the controls read. -/
  | enableWrite (procBased : ProcbasedCtls)
  /-- The handler has returned, the VM entry is still to come. -/
  | vmentry
  deriving DecidableEq

/-- A core with its queue. -/
structure NmiState where
  pc : HandlerPc
  queuedNmiCount : Nat
  procBased : ProcbasedCtls
  received : Nat
  injected : Nat
  deriving DecidableEq

/-- A core when it launches. -/
def NmiState.initial (others : Nat) : NmiState where
  pc := .guest
  queuedNmiCount := 0
  procBased := ⟨false, others⟩
  received := 0
  injected := 0

/-- What happens next on the core. -/
inductive NmiEvent where
  /-- An NMI makes the guest exit. -/
  | nmiExit
  /-- The guest exits since NMIs are no longer blocked. -/
  | windowExit
  /-- Any other exit. -/
  | otherExit
  /-- The next step of the handler, or the VM entry after it. -/
  | step
  /-- An NMI while the host runs. -/
  | hostNmi
  deriving DecidableEq

/-- The next step of the exit handler. -/
def NmiState.handlerStep (s : NmiState) : Option NmiState :=
  match s.pc with
  | .guest => none
  | .nmiRead => some { s with pc := .nmiWrite s.queuedNmiCount }
  | .nmiWrite count => some { s with pc := .enableRead, queuedNmiCount := increment count }
  | .windowRead => some { s with pc := .windowWrite s.queuedNmiCount }
  -- The value read before goes down by one, whatever the count is by now.
  | .windowWrite count => some { s with pc := .inject, queuedNmiCount := decrement count }
  | .inject => some { s with pc := .compare, injected := s.injected + 1 }
  -- After the injection: with nothing left the window is closed.
  | .compare => some { s with pc := if s.queuedNmiCount = 0 then .disableRead else .vmentry }
  | .disableRead => some { s with pc := .disableWrite s.procBased }
  | .disableWrite procBased =>
      some { s with
        pc := .compareAgain
        procBased := { procBased with nmiWindowExiting := false } }
  | .compareAgain =>
      -- An NMI that came in between opens the window again.
      some { s with pc := if s.queuedNmiCount ≠ 0 then .enableRead else .vmentry }
  | .enableRead => some { s with pc := .enableWrite s.procBased }
  | .enableWrite procBased =>
      some { s with pc := .vmentry, procBased := { procBased with nmiWindowExiting := true } }
  | .vmentry => some { s with pc := .guest }

/-- `handle_nmi` of `exception.cpp`, from its first to its last
instruction. -/
def NmiState.hostNmi (s : NmiState) : NmiState :=
  { s with
    queuedNmiCount := increment s.queuedNmiCount
    procBased := { s.procBased with nmiWindowExiting := true }
    received := s.received + 1 }

/-- A core under exits and host NMIs. -/
def nmiMachine : Machine NmiState NmiEvent where
  next s
    | .nmiExit =>
        if s.pc = .guest then some { s with pc := .nmiRead, received := s.received + 1 } else none
    | .windowExit =>
        if s.pc = .guest ∧ s.procBased.nmiWindowExiting = true then
          some { s with pc := .windowRead }
        else none
    | .otherExit => if s.pc = .guest then some { s with pc := .vmentry } else none
    | .step => s.handlerStep
    | .hostNmi => if s.pc = .guest then none else some s.hostNmi

end Revhv.Nmi
