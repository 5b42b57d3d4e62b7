import Revhv.Km.Ept
import Revhv.Km.TransitionCfg

/-!
# `Revhv.Km.Vmexit`: EPT violations and MTRR writes

`handle_ept_violation` and the MTRR branch of `handle_wrmsr`
(`revhv-km/vmexit.cpp`), on the fields of a vCPU they use.

The processor walks the view the VMCS field `eptPointer` selects. The
handlers choose a view by `inNormalExecution`. `invepts` lists the
INVEPT instructions executed so far; the processor caches no
translation in this model.
-/

set_option autoImplicit false

namespace Revhv.Vmexit

open Revhv.Ept Revhv.Memory Revhv.Trace Revhv.TransitionCfg Revhv.Vcpu

/-- The two values the VMCS field `VMCS_CTRL_EPT_POINTER` takes. -/
inductive Eptp where
  | normalExecution
  | targetExecution
  deriving DecidableEq

/-- The operands of an INVEPT. -/
inductive Invept where
  | allContext
  | singleContext (eptp : Eptp)
  deriving DecidableEq

/-- The fields of `vcpu::vcpu` the handlers use, and the VMCS field.
`ept` holds `ept_pages_normal` and `ept_pages_target`. -/
structure Vcpu where
  guestContext : GuestContext
  ept : EptViews
  inNormalExecution : Bool
  eptPointer : Eptp
  mtrrState : MtrrState
  traceBuffer : RingBuffer
  transitionCfgs : TransitionCfgs
  coreId : Nat
  invepts : List Invept

/-- `vmx::change_eptp`. -/
def Vcpu.changeEptp (v : Vcpu) (eptp : Eptp) : Vcpu := { v with eptPointer := eptp }

/-- `vmx::invept`. -/
def Vcpu.invept (v : Vcpu) (i : Invept) : Vcpu := { v with invepts := v.invepts ++ [i] }

/-- `current_ept_pages` of `handle_ept_violation`. -/
def Vcpu.currentEptPages (v : Vcpu) : EptPages :=
  if v.inNormalExecution then v.ept.normal else v.ept.target

/-- `current_eptp` of `handle_ept_violation`. -/
def Vcpu.currentEptp (v : Vcpu) : Eptp :=
  if v.inNormalExecution then .normalExecution else .targetExecution

/-- The view the processor walks. -/
def Vcpu.walkedPages (v : Vcpu) : EptPages :=
  match v.eptPointer with
  | .normalExecution => v.ept.normal
  | .targetExecution => v.ept.target

/-- The vCPU after a write to the entries of the current view. -/
def Vcpu.writeCurrentPte (v : Vcpu) (pte : PtePtr) (f : EptPte → EptPte) : Vcpu :=
  { v with
    ept :=
      if v.inNormalExecution then { v.ept with normal := v.ept.normal.writePte pte f }
      else { v.ept with target := v.ept.target.writePte pte f } }

/-- What the VMCS tells about an EPT violation, the guest at that point,
and the time stamp counter. -/
structure EptViolation where
  executeAccess : Bool
  causedByTranslation : Bool
  guestPhysicalAddress : Nat
  guestLinearAddress : Nat
  guest : GuestState
  tsc : UInt64

/-- `physical_address` of `handle_ept_violation`. -/
def EptViolation.physicalAddress (exit : EptViolation) : Nat :=
  if exit.causedByTranslation then exit.guestPhysicalAddress else exit.guestLinearAddress

/-- The record of a transition from target to normal execution. -/
def Vcpu.emitTransition (v : Vcpu) (exit : EptViolation) : Vcpu :=
  { v with
    traceBuffer := emit v.traceBuffer .eptTargetTransition (UInt16.ofNat v.coreId) exit.tsc
      (resolveDataFields (lookupTransitionCfg v.transitionCfgs exit.guest.rip) exit.guest) }

/-- The branch of `handle_ept_violation` for a page without an active
hook. `none` is `unrecoverable_host_error`. -/
def flipView (v : Vcpu) (exit : EptViolation) : Option Vcpu :=
  if exit.executeAccess then
    if v.inNormalExecution then
      some { v.changeEptp .targetExecution with inNormalExecution := false }
    else
      let v := { v.changeEptp .normalExecution with inNormalExecution := true }
      some (v.emitTransition exit)
  else none

/-- `handle_ept_violation`. -/
def handleEptViolation (v : Vcpu) (exit : EptViolation) : Option Vcpu :=
  match getHookByOrigPfn v.currentEptPages (toPfn exit.physicalAddress) with
  | some ⟨origPfn, hookPfn, some pte⟩ =>
      let v := v.writeCurrentPte pte fun e =>
        if exit.executeAccess then
          { e.withAccess false false true with pageFrameNumber := hookPfn }
        else { e.withAccess true true false with pageFrameNumber := origPfn }
      some (v.invept (.singleContext v.currentEptp))
  -- A suspended hook counts as none.
  | _ => flipView v exit

/-- The branch of `handle_wrmsr` for an MTRR the guest has written.
`mtrrState` is what `read_mtrrs` reads then. -/
def handleWrmsrMtrr (v : Vcpu) (mtrrState : MtrrState) : Vcpu :=
  let v := { v with
    mtrrState
    ept := ⟨updateEptMemoryTypes v.ept.normal mtrrState,
      updateEptMemoryTypes v.ept.target mtrrState⟩ }
  v.invept .allContext

end Revhv.Vmexit
