import Revhv.Km.Hypercall.AutoTrace

/-!
# `Revhv.Km.StaleViews`: cached translations and INVEPT

The handlers of `Revhv.Km.Hypercall.AutoTrace` once more, with a flag for
each view. Every call that may write entries of a view sets its flag,
whether or not an entry is different afterwards, and an INVEPT clears
the flags of the views it covers. The calls stand in the order of the
source (`revhv-km/hypercall.cpp`, `revhv-km/vmexit.cpp`).
-/

set_option autoImplicit false

namespace Revhv.StaleViews

open Revhv.Ept Revhv.Hypercall Revhv.Lib Revhv.Memory Revhv.Trace Revhv.Vcpu Revhv.Vmexit

/-- A vCPU, and the views of which the processor may hold old
translations. -/
structure StaleVcpu where
  vcpu : Vcpu
  stale : Eptp → Bool

/-- The views an INVEPT covers. -/
def covers : Invept → Eptp → Bool
  | .allContext, _ => true
  | .singleContext eptp, eptp' => eptp == eptp'

/-- The views with other tables for one of them. -/
def withPages (views : EptViews) (pages : EptPages) : Eptp → EptViews
  | .normalExecution => { views with normal := pages }
  | .targetExecution => { views with target := pages }

namespace StaleVcpu

/-- The tables of a view after a call that may have written them. -/
def writeView (s : StaleVcpu) (eptp : Eptp) (pages : EptPages) : StaleVcpu where
  vcpu := { s.vcpu with ept := withPages s.vcpu.ept pages eptp }
  stale eptp' := s.stale eptp' || eptp' == eptp

/-- The tables of both views after a call on both. -/
def writeViews (s : StaleVcpu) (views : EptViews) : StaleVcpu :=
  (s.writeView .normalExecution views.normal).writeView .targetExecution views.target

/-- A step that writes no entry. -/
def onVcpu (s : StaleVcpu) (f : Vcpu → Vcpu) : StaleVcpu := { s with vcpu := f s.vcpu }

/-- `vmx::invept`. -/
def invept (s : StaleVcpu) (i : Invept) : StaleVcpu where
  vcpu := s.vcpu.invept i
  stale eptp := s.stale eptp && !covers i eptp

/-- `deactivate_hooks` on both views. -/
def deactivateHooks (s : StaleVcpu) : StaleVcpu := s.writeViews (deactivateViews s.vcpu.ept)

/-- `reactivate_hooks` on both views. -/
def reactivateHooks (s : StaleVcpu) : StaleVcpu := s.writeViews (reactivateViews s.vcpu.ept)

/-- Back to the normal view. -/
def useNormalView (s : StaleVcpu) : StaleVcpu :=
  s.onVcpu fun v => { v.changeEptp .normalExecution with inNormalExecution := true }

/-- `handle_ept_hook`. -/
def handleEptHook (s : StaleVcpu) : StaleVcpu :=
  let origPfn := s.vcpu.guestContext.rdx.toNat
  let hookPfn := s.vcpu.guestContext.r8.toNat
  let normal := addHook s.vcpu.ept.normal origPfn hookPfn
  let s := s.writeView .normalExecution normal.1
  if normal.2 then
    let target := addHook s.vcpu.ept.target origPfn hookPfn
    let s := s.writeView .targetExecution target.1
    (s.onVcpu fun v => setRax v (if target.2 then 1 else 0)).invept .allContext
  else (s.onVcpu fun v => setRax v 0).invept .allContext

/-- The two branches of `handle_enable_auto_trace`, by the answer of
`enable_auto_trace`. A call that gives up has written both views before. -/
def finishEnableAutoTrace (s : StaleVcpu) : Except EptViews EptViews → StaleVcpu
  | .ok views =>
      let s := s.writeViews views
      let s := s.onVcpu fun v => { v with traceBuffer := activate v.traceBuffer }
      (s.useNormalView.invept .allContext).onVcpu fun v => setRax v 1
  | .error views =>
      let s := (s.writeViews views).reactivateHooks
      (s.invept .allContext).onVcpu fun v => setRax v 0

/-- `handle_enable_auto_trace`. -/
def handleEnableAutoTrace (systemCr3 : Nat) (tables : Tables) (s : StaleVcpu) : StaleVcpu :=
  s.deactivateHooks.finishEnableAutoTrace
    (enableAutoTrace tables systemCr3 (deactivateViews s.vcpu.ept)
      s.vcpu.guestContext.rdx.toNat s.vcpu.guestContext.r8.toNat)

/-- `handle_disable_auto_trace`. -/
def handleDisableAutoTrace (s : StaleVcpu) : StaleVcpu :=
  let s := s.onVcpu fun v => { v with traceBuffer := deactivate v.traceBuffer }
  let s := (s.writeViews (restoreAutoTrace s.vcpu.ept)).reactivateHooks
  s.useNormalView.invept .allContext

/-- The branch of `handle_wrmsr` for an MTRR. -/
def handleWrmsrMtrr (s : StaleVcpu) (mtrrState : MtrrState) : StaleVcpu :=
  let s := s.onVcpu fun v => { v with mtrrState }
  let s := s.writeViews ⟨updateEptMemoryTypes s.vcpu.ept.normal mtrrState,
    updateEptMemoryTypes s.vcpu.ept.target mtrrState⟩
  s.invept .allContext

/-- `handle_ept_violation`. A flip of the view writes no entry. -/
def handleEptViolation (s : StaleVcpu) (exit : EptViolation) : Option StaleVcpu :=
  match getHookByOrigPfn s.vcpu.currentEptPages (toPfn exit.physicalAddress) with
  | some ⟨origPfn, hookPfn, some pte⟩ =>
      let pages := s.vcpu.currentEptPages.writePte pte fun e =>
        if exit.executeAccess then
          { e.withAccess false false true with pageFrameNumber := hookPfn }
        else { e.withAccess true true false with pageFrameNumber := origPfn }
      let s := s.writeView s.vcpu.currentEptp pages
      some (s.invept (.singleContext s.vcpu.currentEptp))
  | _ => (flipView s.vcpu exit).map fun v => { s with vcpu := v }

end StaleVcpu

/-- The exits of `eptMachine`, and all others, which touch neither the
views nor the choice between them. -/
inductive AnyExit where
  | ept (exit : EptExit)
  | other

/-- A vCPU with its flags from VM entry to VM entry. -/
def staleMachine (systemCr3 : Nat) : Machine StaleVcpu AnyExit where
  next s
    | .ept (.eptHook ctx) =>
        some (s.onVcpu fun v => { v with guestContext := ctx }).handleEptHook
    | .ept (.enableAutoTrace tables ctx) =>
        some ((s.onVcpu fun v => { v with guestContext := ctx }).handleEnableAutoTrace systemCr3
          tables)
    | .ept (.disableAutoTrace ctx) =>
        some (s.onVcpu fun v => { v with guestContext := ctx }).handleDisableAutoTrace
    | .ept (.wrmsrMtrr mtrrState) => some (s.handleWrmsrMtrr mtrrState)
    | .ept (.eptViolation exit) =>
        (s.onVcpu fun v => { v with guestContext := exit.guest.ctx }).handleEptViolation exit
    | .other => some s

/-- A new vCPU. The processor has used neither view. -/
def StaleVcpu.initial (setup : VcpuSetup) (entries : Nat → Entry) : StaleVcpu where
  vcpu := initialVcpu setup entries
  stale _ := false

end Revhv.StaleViews
