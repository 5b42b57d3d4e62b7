import Revhv.Km.StaleViews
import Revhv.Proofs.EptMachine

/-!
# `Revhv.Proofs.StaleViews`: no VM entry with a stale view

* `vcpu_next`: without the flags the handlers are those of `eptMachine`.
* `fresh_next`: an exit that starts with both flags clear ends so. The
  hypercalls and the MTRR writes end with an INVEPT for all contexts. A
  hook swap writes the view in use and invalidates that one.
* `entry_fresh`: both flags are clear at every VM entry, and the VMCS
  selects the normal view exactly when the vCPU is in normal execution.
-/

set_option autoImplicit false

namespace Revhv.StaleViews

open Revhv.Ept Revhv.Hypercall Revhv.Lib Revhv.Memory Revhv.Trace Revhv.Vcpu Revhv.Vmexit

-- What these calls do to the tables does not matter here.
attribute [local irreducible] addHook deactivateViews reactivateViews restoreAutoTrace

/-! ### The handlers without the flags -/

/-- A change of the vCPU is one of the vCPU. -/
@[simp] theorem vcpu_onVcpu (s : StaleVcpu) (f : Vcpu → Vcpu) : (s.onVcpu f).vcpu = f s.vcpu := rfl

/-- It makes no view fresh. -/
@[simp] theorem stale_onVcpu (s : StaleVcpu) (f : Vcpu → Vcpu) : (s.onVcpu f).stale = s.stale := rfl

/-- A write to the views is stored. -/
@[simp] theorem vcpu_writeViews (s : StaleVcpu) (views : EptViews) :
    (s.writeViews views).vcpu = { s.vcpu with ept := views } := rfl

/-- An INVEPT is counted on the vCPU. -/
@[simp] theorem vcpu_invept (s : StaleVcpu) (i : Invept) : (s.invept i).vcpu = s.vcpu.invept i := rfl

/-- INVEPT for all contexts leaves no view stale. -/
theorem stale_invept_allContext (s : StaleVcpu) (eptp : Eptp) :
    (s.invept .allContext).stale eptp = false := by
  simp [StaleVcpu.invept, covers]

/-- A write to the view in use is a write through a pointer into it. -/
theorem vcpu_writeView_current (s : StaleVcpu) (pte : PtePtr) (f : EptPte → EptPte) :
    (s.writeView s.vcpu.currentEptp (s.vcpu.currentEptPages.writePte pte f)).vcpu =
      s.vcpu.writeCurrentPte pte f := by
  unfold StaleVcpu.writeView Vcpu.currentEptp Vcpu.currentEptPages Vcpu.writeCurrentPte
  by_cases hnormal : s.vcpu.inNormalExecution = true
  · simp only [if_pos hnormal, withPages]
  · simp only [if_neg hnormal, withPages]

/-- Without the flags this is the handler for hooks. -/
theorem vcpu_handleEptHook (s : StaleVcpu) :
    s.handleEptHook.vcpu = Hypercall.handleEptHook s.vcpu := by
  unfold StaleVcpu.handleEptHook Hypercall.handleEptHook
  simp only [StaleVcpu.writeView, withPages]
  by_cases hstored : (addHook s.vcpu.ept.normal s.vcpu.guestContext.rdx.toNat
      s.vcpu.guestContext.r8.toNat).2 = true
  · simp only [if_pos hstored]
    rfl
  · simp only [if_neg hstored]
    rfl

/-- Without the flags this is the handler that starts a session. -/
theorem vcpu_handleEnableAutoTrace (systemCr3 : Nat) (tables : Tables) (s : StaleVcpu) :
    (s.handleEnableAutoTrace systemCr3 tables).vcpu =
      Hypercall.handleEnableAutoTrace systemCr3 tables s.vcpu := by
  unfold StaleVcpu.handleEnableAutoTrace Hypercall.handleEnableAutoTrace
  generalize enableAutoTrace tables systemCr3 _ _ _ = answer
  cases answer with
  | ok views => rfl
  | error views => rfl

/-- Without the flags this is the handler that ends one. -/
theorem vcpu_handleDisableAutoTrace (s : StaleVcpu) :
    s.handleDisableAutoTrace.vcpu = Hypercall.handleDisableAutoTrace s.vcpu := by
  unfold StaleVcpu.handleDisableAutoTrace Hypercall.handleDisableAutoTrace
  rfl

/-- Without the flags this is the handler for MTRRs. -/
theorem vcpu_handleWrmsrMtrr (s : StaleVcpu) (mtrrState : MtrrState) :
    (s.handleWrmsrMtrr mtrrState).vcpu = Vmexit.handleWrmsrMtrr s.vcpu mtrrState := by
  unfold StaleVcpu.handleWrmsrMtrr Vmexit.handleWrmsrMtrr
  rfl

/-- Without the flags this is the handler for EPT violations. -/
theorem vcpu_handleEptViolation (s : StaleVcpu) (exit : EptViolation) :
    (s.handleEptViolation exit).map StaleVcpu.vcpu = Vmexit.handleEptViolation s.vcpu exit := by
  have hflip : ((flipView s.vcpu exit).map fun v => { s with vcpu := v }).map StaleVcpu.vcpu =
      flipView s.vcpu exit := by
    rw [Option.map_map]
    exact congrFun Option.map_id _
  unfold StaleVcpu.handleEptViolation Vmexit.handleEptViolation
  cases getHookByOrigPfn s.vcpu.currentEptPages (toPfn exit.physicalAddress) with
  | none => exact hflip
  | some hook =>
    obtain ⟨origPfn, hookPfn, pointer⟩ := hook
    cases pointer with
    | none => exact hflip
    | some pte =>
      simp only [Option.map_some, vcpu_invept]
      rw [vcpu_writeView_current]

/-- Without the flags the machine is `eptMachine`. -/
theorem vcpu_next {systemCr3 : Nat} {s s' : StaleVcpu} {exit : EptExit}
    (hnext : (staleMachine systemCr3).next s (.ept exit) = some s') :
    (eptMachine systemCr3).next s.vcpu exit = some s'.vcpu := by
  cases exit with
  | eptHook ctx =>
    rw [← Option.some.inj hnext]
    exact congrArg some
      (vcpu_handleEptHook (s.onVcpu fun v => { v with guestContext := ctx })).symm
  | enableAutoTrace tables ctx =>
    rw [← Option.some.inj hnext]
    exact congrArg some (vcpu_handleEnableAutoTrace systemCr3 tables
      (s.onVcpu fun v => { v with guestContext := ctx })).symm
  | disableAutoTrace ctx =>
    rw [← Option.some.inj hnext]
    exact congrArg some (vcpu_handleDisableAutoTrace
      (s.onVcpu fun v => { v with guestContext := ctx })).symm
  | wrmsrMtrr mtrrState =>
    rw [← Option.some.inj hnext]
    exact congrArg some (vcpu_handleWrmsrMtrr s mtrrState).symm
  | eptViolation exit =>
    have hforget := vcpu_handleEptViolation
      (s.onVcpu fun v => { v with guestContext := exit.guest.ctx }) exit
    rw [show StaleVcpu.handleEptViolation _ exit = some s' from hnext] at hforget
    exact hforget.symm

/-! ### The flags -/

/-- Both flags are clear, and the VMCS agrees with the vCPU. -/
structure Fresh (s : StaleVcpu) : Prop where
  clear : ∀ eptp, s.stale eptp = false
  wf : s.vcpu.WF

/-- The handler for hooks leaves no view stale. -/
theorem stale_handleEptHook (s : StaleVcpu) (eptp : Eptp) :
    s.handleEptHook.stale eptp = false := by
  unfold StaleVcpu.handleEptHook
  simp only
  split
  · exact stale_invept_allContext _ eptp
  · exact stale_invept_allContext _ eptp

/-- Neither does the end of an enable, on success and on failure. -/
theorem stale_finishEnableAutoTrace (s : StaleVcpu) (answer : Except EptViews EptViews)
    (eptp : Eptp) : (s.finishEnableAutoTrace answer).stale eptp = false := by
  cases answer with
  | ok views => exact stale_invept_allContext _ eptp
  | error views => exact stale_invept_allContext _ eptp

/-- A hook swap makes the view in use stale and no other, and
invalidates it. -/
theorem stale_handleEptViolation {s s' : StaleVcpu} {exit : EptViolation}
    (hswap : s.handleEptViolation exit = some s') (h : ∀ eptp, s.stale eptp = false) (eptp : Eptp) :
    s'.stale eptp = false := by
  unfold StaleVcpu.handleEptViolation at hswap
  split at hswap
  · cases hswap
    -- The entries of the view in use do not decide which one that is.
    have hsame : ∀ pages, (s.writeView s.vcpu.currentEptp pages).vcpu.currentEptp =
        s.vcpu.currentEptp := fun _ => rfl
    simp only [StaleVcpu.invept, hsame]
    simp only [StaleVcpu.writeView, h, covers, Bool.false_or]
    by_cases heq : eptp = s.vcpu.currentEptp
    · simp [heq]
    · simp [heq]
  · obtain ⟨v, _, rfl⟩ := Option.map_eq_some_iff.mp hswap
    exact h eptp

/-- Neither does the start of a session. -/
theorem stale_handleEnableAutoTrace (systemCr3 : Nat) (tables : Tables) (s : StaleVcpu)
    (eptp : Eptp) : (s.handleEnableAutoTrace systemCr3 tables).stale eptp = false := by
  rw [StaleVcpu.handleEnableAutoTrace]
  exact stale_finishEnableAutoTrace s.deactivateHooks _ eptp

/-- Neither does its end. -/
theorem stale_handleDisableAutoTrace (s : StaleVcpu) (eptp : Eptp) :
    s.handleDisableAutoTrace.stale eptp = false := by
  simp only [StaleVcpu.handleDisableAutoTrace, stale_invept_allContext]

/-- Neither does a write to an MTRR. -/
theorem stale_handleWrmsrMtrr (s : StaleVcpu) (mtrrState : MtrrState) (eptp : Eptp) :
    (s.handleWrmsrMtrr mtrrState).stale eptp = false := by
  simp only [StaleVcpu.handleWrmsrMtrr, stale_invept_allContext]

/-- Any exit ends with fresh views if it starts with them. -/
theorem stale_next {systemCr3 : Nat} {s s' : StaleVcpu} {exit : EptExit}
    (h : ∀ eptp, s.stale eptp = false)
    (hnext : (staleMachine systemCr3).next s (.ept exit) = some s') (eptp : Eptp) :
    s'.stale eptp = false := by
  cases exit with
  | eptHook ctx =>
    rw [← Option.some.inj hnext]
    exact stale_handleEptHook (s.onVcpu fun v => { v with guestContext := ctx }) eptp
  | enableAutoTrace tables ctx =>
    rw [← Option.some.inj hnext]
    exact stale_handleEnableAutoTrace systemCr3 tables
      (s.onVcpu fun v => { v with guestContext := ctx }) eptp
  | disableAutoTrace ctx =>
    rw [← Option.some.inj hnext]
    exact stale_handleDisableAutoTrace (s.onVcpu fun v => { v with guestContext := ctx }) eptp
  | wrmsrMtrr mtrrState =>
    rw [← Option.some.inj hnext]
    exact stale_handleWrmsrMtrr s mtrrState eptp
  | eptViolation exit =>
    have hswap : (s.onVcpu fun v =>
        { v with guestContext := exit.guest.ctx }).handleEptViolation exit = some s' := hnext
    exact stale_handleEptViolation hswap h eptp

/-- One exit of either kind. -/
theorem fresh_next {systemCr3 : Nat} (s : StaleVcpu) (exit : AnyExit) (s' : StaleVcpu)
    (h : Fresh s) (hnext : (staleMachine systemCr3).next s exit = some s') : Fresh s' := by
  cases exit with
  | other =>
    cases hnext
    exact h
  | ept exit =>
    exact ⟨stale_next h.clear hnext, (next_viewStep h.wf (vcpu_next hnext)).1⟩

/-- At every VM entry of every run from a new vCPU no view is stale, and
the VMCS points to the normal view exactly when the vCPU is in normal
execution. -/
theorem entry_fresh {systemCr3 : Nat} {setup : VcpuSetup} {entries : Nat → Entry}
    {exits : List AnyExit} {s : StaleVcpu}
    (hrun : (staleMachine systemCr3).run (.initial setup entries) exits = some s) :
    s.stale .normalExecution = false ∧ s.stale .targetExecution = false ∧
      (s.vcpu.eptPointer = .normalExecution ↔ s.vcpu.inNormalExecution = true) := by
  have hfresh := (staleMachine systemCr3).invariant_of_run (I := Fresh) fresh_next
    ⟨fun _ => rfl, initialVcpu_wf setup entries⟩ hrun
  refine ⟨hfresh.clear _, hfresh.clear _, ?_⟩
  rw [hfresh.wf.pointer]
  unfold Vcpu.currentEptp
  cases s.vcpu.inNormalExecution with
  | true => simp
  | false => simp

/-- A new vCPU with its flags. -/
def plainStaleVcpu : StaleVcpu := .initial plainSetup fun _ => makeEntry .invalid 0 0 fun _ => 0

/-- An MTRR write on it. -/
theorem entry_fresh_mtrr : ∃ s,
    (staleMachine 1).run plainStaleVcpu [.ept (.wrmsrMtrr plainSetup.mtrrState)] = some s ∧
    s.stale .normalExecution = false ∧ s.stale .targetExecution = false ∧
    (s.vcpu.eptPointer = .normalExecution ↔ s.vcpu.inNormalExecution = true) := by
  have hnext : (staleMachine 1).next plainStaleVcpu (.ept (.wrmsrMtrr plainSetup.mtrrState)) =
      some (plainStaleVcpu.handleWrmsrMtrr plainSetup.mtrrState) := rfl
  have hrun : (staleMachine 1).run plainStaleVcpu [.ept (.wrmsrMtrr plainSetup.mtrrState)] =
      some (plainStaleVcpu.handleWrmsrMtrr plainSetup.mtrrState) := by
    rw [Machine.run_cons, hnext, Option.bind_some, Machine.run_nil]
  exact ⟨_, hrun, entry_fresh hrun⟩

end Revhv.StaleViews
