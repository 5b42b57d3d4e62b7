import Revhv.Km.Vmexit

/-!
# `Revhv.Km.Hypercall.AutoTrace`: hooks and auto-trace

`handle_ept_hook`, `handle_enable_auto_trace` and
`handle_disable_auto_trace` (`revhv-km/hypercall.cpp`), and the machine
of everything that edits the EPT views of a vCPU: these three
hypercalls, MTRR writes and EPT violations, in any order.
-/

set_option autoImplicit false

namespace Revhv.Hypercall

open Revhv.Ept Revhv.Lib Revhv.Memory Revhv.Trace Revhv.TransitionCfg Revhv.Vcpu Revhv.Vmexit

/-- The value a hypercall returns to the guest. -/
def setRax (v : Vcpu) (rax : UInt64) : Vcpu :=
  { v with guestContext := { v.guestContext with rax := rax } }

/-- `handle_ept_hook`. The target view is not tried when the normal view
refuses. -/
def handleEptHook (v : Vcpu) : Vcpu :=
  let origPfn := v.guestContext.rdx.toNat
  let hookPfn := v.guestContext.r8.toNat
  let normal := addHook v.ept.normal origPfn hookPfn
  let target := if normal.2 then addHook v.ept.target origPfn hookPfn else (v.ept.target, false)
  let v := { v with ept := ⟨normal.1, target.1⟩ }
  (setRax v (if target.2 then 1 else 0)).invept .allContext

/-- The views `handle_enable_auto_trace` hands to `enable_auto_trace`. -/
def deactivateViews (views : EptViews) : EptViews :=
  ⟨deactivateHooks views.normal, deactivateHooks views.target⟩

/-- Both views with their hooks armed again. -/
def reactivateViews (views : EptViews) : EptViews :=
  ⟨reactivateHooks views.normal, reactivateHooks views.target⟩

/-- The two branches of `handle_enable_auto_trace`, by the answer of
`enable_auto_trace`. -/
def finishEnableAutoTrace (v : Vcpu) : Except EptViews EptViews → Vcpu
  | .ok views =>
      let v := { v with ept := views, traceBuffer := activate v.traceBuffer }
      let v := { v.changeEptp .normalExecution with inNormalExecution := true }
      setRax (v.invept .allContext) 1
  | .error views =>
      -- The view in use and the ring stay as they were.
      let v := { v with ept := reactivateViews views }
      setRax (v.invept .allContext) 0

/-- `handle_enable_auto_trace`, the guest memory holding `tables`. -/
def handleEnableAutoTrace (systemCr3 : Nat) (tables : Tables) (v : Vcpu) : Vcpu :=
  finishEnableAutoTrace v
    (enableAutoTrace tables systemCr3 (deactivateViews v.ept) v.guestContext.rdx.toNat
      v.guestContext.r8.toNat)

/-- `handle_disable_auto_trace`. -/
def handleDisableAutoTrace (v : Vcpu) : Vcpu :=
  let v := { v with
    traceBuffer := deactivate v.traceBuffer
    ept := reactivateViews (restoreAutoTrace v.ept) }
  let v := { v.changeEptp .normalExecution with inNormalExecution := true }
  v.invept .allContext

/-- A VM exit that may edit the views. A hypercall comes with the
guest's registers. -/
inductive EptExit where
  | eptHook (ctx : GuestContext)
  | enableAutoTrace (tables : Tables) (ctx : GuestContext)
  | disableAutoTrace (ctx : GuestContext)
  | wrmsrMtrr (mtrrState : MtrrState)
  | eptViolation (exit : EptViolation)

/-- A vCPU that takes one of these exits after the other. -/
def eptMachine (systemCr3 : Nat) : Machine Vcpu EptExit where
  next v
    | .eptHook ctx => some (handleEptHook { v with guestContext := ctx })
    | .enableAutoTrace tables ctx =>
        some (handleEnableAutoTrace systemCr3 tables { v with guestContext := ctx })
    | .disableAutoTrace ctx => some (handleDisableAutoTrace { v with guestContext := ctx })
    | .wrmsrMtrr mtrrState => some (handleWrmsrMtrr v mtrrState)
    | .eptViolation exit => handleEptViolation { v with guestContext := exit.guest.ctx } exit

/-- What a vCPU is set up with: its two sets of tables, the MTRRs at
that time, its capture configs and its number. -/
structure VcpuSetup where
  framesNormal : TableFrames
  framesTarget : TableFrames
  mtrrState : MtrrState
  transitionCfgs : TransitionCfgs
  coreId : Nat

/-- The vCPU when it starts: two identity views, the normal one in use. -/
def initialVcpu (setup : VcpuSetup) (entries : Nat → Entry) : Vcpu where
  guestContext := .zero
  ept := ⟨initializeEpt setup.framesNormal setup.mtrrState,
    initializeEpt setup.framesTarget setup.mtrrState⟩
  inNormalExecution := true
  eptPointer := .normalExecution
  mtrrState := setup.mtrrState
  traceBuffer := ⟨0, 0, false, entries⟩
  transitionCfgs := setup.transitionCfgs
  coreId := setup.coreId
  invepts := []

end Revhv.Hypercall
