import Mathlib.Logic.Basic
import Revhv.Km.Emulation

/-!
# `Revhv.Proofs.Emulation`: how an emulated instruction ends

An emulated instruction either completes, with the RIP behind it and
nothing injected, or it is rejected, with the RIP and the general
registers as they were and one hardware exception injected. Each handler
has a lemma that says so, but for CLTS: `handle_clts` neither advances
the RIP nor injects anything.

* `emulation_settles_iff`: at every exit of every run the instruction
  ends in exactly one of the two ways, with a clear `exception_info`, if
  and only if it is not a CLTS.
* `clts_not_settled`: a CLTS that exits and is executed again.
-/

set_option autoImplicit false

namespace Revhv.Emulation

open Revhv.ControlRegister Revhv.Exception Revhv.Lib Revhv.Lib.BitMask Revhv.Vcpu

/-! ### The two ways to end -/

/-- The RIP of the instruction after the one that has caused the exit. -/
def VmExit.nextRip (exit : VmExit) : BitVec 64 :=
  if exit.vmcs.csLongMode then exit.vmcs.rip + exit.instructionLength
  else (exit.vmcs.rip + exit.instructionLength) &&& 0xFFFFFFFF

/-- The RIP has advanced past the instruction and no exception is
injected. -/
def Completed (exit : VmExit) (v : EmulationVcpu) : Prop :=
  v.rip = exit.nextRip ∧ v.entryInterruption = none

/-- The RIP and the general registers are unchanged and a hardware
exception is injected. -/
def Rejected (exit : VmExit) (v : EmulationVcpu) : Prop :=
  v.rip = exit.vmcs.rip ∧ v.guestContext = exit.guestContext ∧
    ∃ vector errorCode, v.entryInterruption = some (.hardwareException vector errorCode)

/-- Exactly one of the two, and no exception is left recorded. -/
def Settled (exit : VmExit) (v : EmulationVcpu) : Prop :=
  Xor (Completed exit v) (Rejected exit v) ∧ v.exceptionInfo = .clear

/-- What is injected tells the two apart. -/
theorem Completed.not_rejected {exit : VmExit} {v : EmulationVcpu} (h : Completed exit v) :
    ¬ Rejected exit v := by
  intro ⟨_, _, _, _, hinjected⟩
  rw [h.2] at hinjected
  cases hinjected

/-- An instruction that was carried out settles its exit. -/
theorem Completed.settled {exit : VmExit} {v : EmulationVcpu} (h : Completed exit v)
    (hclear : v.exceptionInfo = .clear) : Settled exit v :=
  ⟨Or.inl ⟨h, h.not_rejected⟩, hclear⟩

/-- So does an exception that goes to the guest. -/
theorem Rejected.settled {exit : VmExit} {v : EmulationVcpu} (h : Rejected exit v)
    (hclear : v.exceptionInfo = .clear) : Settled exit v :=
  ⟨Or.inr ⟨h, fun hcompleted => hcompleted.not_rejected h⟩, hclear⟩

/-- An instruction is not empty, so its RIP is not that of the next one. -/
theorem VmExit.nextRip_ne (exit : VmExit) : exit.nextRip ≠ exit.vmcs.rip := by
  have hpos := exit.length_pos
  have hle := exit.length_le
  have hlt := exit.vmcs.rip.isLt
  intro heq
  have hnat := congrArg BitVec.toNat heq
  unfold VmExit.nextRip at hnat
  -- Outside 64-bit mode the sum is cut to 32 bits, where `rip` already fits.
  cases hmode : exit.vmcs.csLongMode with
  | true =>
    rw [if_pos hmode, BitVec.toNat_add] at hnat
    omega
  | false =>
    have hrip := exit.vmcs.rip_lt hmode
    have hmask : (0xFFFFFFFF : BitVec 64).toNat = 2 ^ 32 - 1 := rfl
    rw [if_neg (by rw [hmode]; exact Bool.false_ne_true), BitVec.toNat_and, hmask,
      Nat.and_two_pow_sub_one_eq_mod, BitVec.toNat_add] at hnat
    omega

/-! ### Host exceptions -/

/-- An exception is recorded, or nothing is. -/
def ExceptionInfo.Tidy (info : ExceptionInfo) : Prop :=
  info.exceptionOccurred = true ∨ info = .clear

/-- An expected fault of a wrapper ends at the handler label. -/
theorem handleException_rip {w : Wrapper} {exception : HostException} {errorCode : BitVec 64}
    {info info' : ExceptionInfo} {trapFrame : TrapFrame}
    (h : handleException (w.trapFrame exception errorCode) info = some (trapFrame, info')) :
    trapFrame.rip = w.exceptionHandler ∧ info'.exceptionOccurred = true := by
  have hexpected : (w.trapFrame exception errorCode).r14 ==
      (w.trapFrame exception errorCode).rip := beq_self_eq_true w.exceptionInstruction
  unfold handleException handleGp handleUd recordFault at h
  simp only [hexpected, if_true] at h
  split at h
  · cases h
    exact ⟨rfl, rfl⟩
  · cases h
    exact ⟨rfl, rfl⟩
  · cases h

/-- A wrapper that returns has recorded a fault, or has left
`exception_info` alone. -/
theorem tidy_run {w : Wrapper} {attempt : HostAttempt} {info : ExceptionInfo}
    (h : w.run attempt .clear = some info) : ExceptionInfo.Tidy info := by
  cases attempt with
  | success =>
    cases h
    exact Or.inr rfl
  | fault exception errorCode =>
    obtain ⟨⟨trapFrame, info'⟩, hhandled, rfl⟩ := Option.map_eq_some_iff.mp h
    exact Or.inl (handleException_rip hhandled).2

/-- A call of `read_guest_virtual` or `write_guest_virtual` leaves no
exception recorded. -/
theorem copyGuestVirtual_clear {w : Wrapper} {attempts : List HostAttempt}
    {info : ExceptionInfo} (h : copyGuestVirtual w .clear attempts = some info) :
    info = .clear := by
  -- By induction over the attempts of the copy: the first one that faults ends
  -- it with the record tidied.
  induction attempts with
  | nil =>
    cases h
    rfl
  | cons attempt attempts ih =>
    obtain ⟨info', hrun, hrest⟩ := Option.bind_eq_some_iff.mp h
    cases tidy_run hrun with
    | inl hoccurred =>
      rw [if_pos hoccurred] at hrest
      cases hrest
      rfl
    | inr hclear =>
      subst hclear
      exact ih hrest

/-- Neither do several of them. -/
theorem copies_clear {w : Wrapper} {copies : List (List HostAttempt)} {info : ExceptionInfo}
    (h : copies.foldlM (copyGuestVirtual w) .clear = some info) : info = .clear := by
  induction copies with
  | nil =>
    cases h
    rfl
  | cons attempts copies ih =>
    rw [List.foldlM_cons] at h
    obtain ⟨info', hcopy, hrest⟩ := Option.bind_eq_some_iff.mp h
    rw [copyGuestVirtual_clear hcopy] at hrest
    exact ih hrest

/-! ### The handlers -/

section Handlers

variable {p : CrProcessor} {wrappers : Wrappers} {exit : VmExit} {v v' : EmulationVcpu}

/-- A vCPU on which the exit has changed no more than registers of the
guest. -/
structure AtExit (exit : VmExit) (v : EmulationVcpu) : Prop where
  rip : v.rip = exit.vmcs.rip
  entryInterruption : v.entryInterruption = none

/-- Behind `advance_guest_rip` the instruction counts as carried out. -/
theorem advanceGuestRip_completed (h : AtExit exit v) :
    Completed exit (advanceGuestRip v exit.vmcs exit.instructionLength) := by
  refine ⟨?_, h.entryInterruption⟩
  have hle := exit.length_le
  show (if v.rip < 1#64 <<< 32 ∧ v.rip + exit.instructionLength ≥ 1#64 <<< 32 ∧
    exit.vmcs.csLongMode = false then (v.rip + exit.instructionLength) &&& 0xFFFFFFFF
    else v.rip + exit.instructionLength) = exit.nextRip
  rw [h.rip]
  unfold VmExit.nextRip
  cases hmode : exit.vmcs.csLongMode with
  | true => rw [if_neg fun hwrap => Bool.noConfusion hwrap.2.2, if_pos rfl]
  | false =>
    have hrip := exit.vmcs.rip_lt hmode
    rw [if_neg Bool.false_ne_true]
    split
    · rfl
    · rename_i hwrap
      have hbound : (1#64 <<< 32).toNat = 2 ^ 32 := rfl
      -- Below 4 GB the mask changes nothing.
      have hlt : (exit.vmcs.rip + exit.instructionLength).toNat < 2 ^ 32 := by
        by_contra hge
        exact hwrap ⟨by rw [BitVec.lt_def, hbound]; exact hrip,
          by rw [ge_iff_le, BitVec.le_def, hbound]; omega, rfl⟩
      have hmask : (0xFFFFFFFF : BitVec 64).toNat = 2 ^ 32 - 1 := rfl
      apply BitVec.eq_of_toNat_eq
      rw [BitVec.toNat_and, hmask, Nat.and_two_pow_sub_one_eq_mod, Nat.mod_eq_of_lt hlt]

/-- An injected exception leaves the guest where it was. -/
theorem injectHwException_rejected (hrip : v.rip = exit.vmcs.rip)
    (hcontext : v.guestContext = exit.guestContext) (vector : BitVec 16)
    (errorCode : Option (BitVec 16)) :
    Rejected exit (v.injectHwException vector errorCode) :=
  ⟨hrip, hcontext, vector, errorCode, rfl⟩

/-- The vCPU as the handlers find it. -/
def VmExit.start (exit : VmExit) : EmulationVcpu :=
  EmulationVcpu.exit .clear none exit.guestContext exit.vmcs

/-- An attempt behind a wrapper. On success registers may change, and
nothing else. -/
theorem settled_finishAttempt {w : Wrapper} {attempt : HostAttempt} {info : ExceptionInfo}
    (hrun : w.run attempt .clear = some info) (onSuccess : GuestContext → GuestContext) :
    Settled exit (finishAttempt exit.vmcs exit.instructionLength exit.start info fun v =>
      { v with guestContext := onSuccess v.guestContext }) := by
  unfold finishAttempt
  cases tidy_run hrun with
  | inl hoccurred =>
    simp only [hoccurred, if_true]
    have hrejected : Rejected exit
        (injectHostHwExceptionToGuest { exit.start with exceptionInfo := info }) :=
      ⟨rfl, rfl, _, _, rfl⟩
    exact hrejected.settled rfl
  | inr hclear =>
    subst hclear
    exact (advanceGuestRip_completed ⟨rfl, rfl⟩).settled rfl

/-- RDMSR: the value, or the exception of the host's own RDMSR. -/
theorem settled_handleRdmsr {attempt : HostAttempt} {value : UInt64}
    (h : handleRdmsr wrappers exit.vmcs exit.instructionLength exit.start attempt value =
      some v') : Settled exit v' := by
  unfold handleRdmsr at h
  simp only at h
  split at h
  · -- The MSR that is not read counts as read with success.
    cases h
    have hrun : wrappers.rdmsr.run .success .clear = some .clear := rfl
    exact settled_finishAttempt hrun fun c =>
      { c with rdx := withLow32 c.rdx _, rax := withLow32 c.rax _ }
  · obtain ⟨info, hrun, hfinish⟩ := Option.bind_eq_some_iff.mp h
    cases hfinish
    exact settled_finishAttempt hrun fun c =>
      { c with rdx := withLow32 c.rdx _, rax := withLow32 c.rax _ }

/-- VMCALL: an answer, or `#UD` for a caller that is not the controller. -/
theorem settled_handleVmcall {run : HypercallRun}
    (h : handleVmcall wrappers exit.vmcs exit.instructionLength exit.start run = some v') :
    Settled exit v' := by
  obtain ⟨⟨v, valid⟩, hcall, hend⟩ := Option.bind_eq_some_iff.mp h
  unfold handleHypercall at hcall
  split at hcall
  · cases hcall
    cases hend
    exact (injectHwException_rejected rfl rfl 6 none).settled rfl
  · split at hcall
    · cases hcall
    · obtain ⟨info, hcopies, hanswer⟩ := Option.bind_eq_some_iff.mp hcall
      cases hanswer
      cases hend
      exact (advanceGuestRip_completed ⟨rfl, rfl⟩).settled (copies_clear hcopies)

/-- A write to a control register goes through or gets `#GP`. -/
theorem settled_finishCrWrite (result : CrFields × CrAnswer) :
    Settled exit (finishCrWrite exit.vmcs exit.instructionLength exit.start result) := by
  unfold finishCrWrite
  cases result.2 with
  | generalProtection => exact (injectHwException_rejected rfl rfl 13 (some 0)).settled rfl
  | completed => exact (advanceGuestRip_completed ⟨rfl, rfl⟩).settled rfl

/-- MOV to a control register. -/
theorem settled_handleMovToCr {controlRegister generalPurposeRegister : Fin 16}
    (h : handleMovToCr p exit.vmcs exit.instructionLength exit.start controlRegister
      generalPurposeRegister = some v') : Settled exit v' := by
  unfold handleMovToCr at h
  simp only at h
  split at h
  · cases h
    exact settled_finishCrWrite _
  · split at h
    · cases h
      exact settled_finishCrWrite _
    · cases h

/-- CLTS leaves the RIP where it is and injects nothing. -/
theorem not_settled_handleClts : ¬ Settled exit (handleClts exit.start) := by
  intro ⟨hends, _⟩
  cases hends with
  | inl hcompleted => exact exit.nextRip_ne hcompleted.1.1.symm
  | inr hrejected =>
    obtain ⟨_, _, _, _, hinjected⟩ := hrejected.1
    cases hinjected

/-- How an emulated instruction ends. -/
theorem settled_handleEmulated_iff {reason : EmulatedExit}
    (h : handleEmulated p wrappers exit.vmcs exit.instructionLength exit.start reason =
      some v') : Settled exit v' ↔ reason ≠ .clts := by
  cases reason with
  | clts =>
    cases h
    exact iff_of_false not_settled_handleClts fun hne => hne rfl
  | cpuid eax ebx ecx edx =>
    cases h
    -- CPUID cannot fault, so the handler always advances.
    exact iff_of_true ((advanceGuestRip_completed ⟨rfl, rfl⟩).settled rfl) nofun
  | invd attempt =>
    obtain ⟨info, hrun, hfinish⟩ := Option.bind_eq_some_iff.mp h
    cases hfinish
    exact iff_of_true (settled_finishAttempt hrun id) nofun
  | rdmsr attempt value => exact iff_of_true (settled_handleRdmsr h) nofun
  | wrmsr attempt =>
    obtain ⟨info, hrun, hfinish⟩ := Option.bind_eq_some_iff.mp h
    cases hfinish
    exact iff_of_true (settled_finishAttempt hrun id) nofun
  | xsetbv attempt =>
    obtain ⟨info, hrun, hfinish⟩ := Option.bind_eq_some_iff.mp h
    cases hfinish
    exact iff_of_true (settled_finishAttempt hrun id) nofun
  | getsec =>
    cases h
    -- GETSEC is answered with #UD and does not advance.
    exact iff_of_true ((injectHwException_rejected rfl rfl 6 none).settled rfl) nofun
  | vmcall run => exact iff_of_true (settled_handleVmcall h) nofun
  | movToCr controlRegister generalPurposeRegister =>
    exact iff_of_true (settled_handleMovToCr h) nofun
  | lmsw source =>
    cases h
    exact iff_of_true (settled_finishCrWrite _) nofun
  | otherCrAccess => cases h
  | vmxInstruction =>
    cases h
    exact iff_of_true ((injectHwException_rejected rfl rfl 6 none).settled rfl) nofun

end Handlers

/-! ### Runs -/

variable {p : CrProcessor} {wrappers : Wrappers}

/-- No exit leaves an exception recorded, and CLTS is no exception to
that. -/
theorem handler_clear {v v' : EmulationVcpu} {exit : VmExit} (hclear : v.exceptionInfo = .clear)
    (h : handler p wrappers v exit = some v') : v'.exceptionInfo = .clear := by
  unfold handler at h
  rw [hclear] at h
  split at h
  · -- An emulated exit: CLTS touches nothing, every other handler settles the
    -- exit.
    rename_i reason _
    by_cases hclts : reason = .clts
    · subst hclts
      cases h
      rfl
    · exact ((settled_handleEmulated_iff h).mpr hclts).2
  · -- Any other exit only copies guest memory.
    obtain ⟨info, hcopies, hend⟩ := Option.bind_eq_some_iff.mp h
    have hinfo := copies_clear hcopies
    cases hend
    split
    · exact hinfo
    · exact hinfo

/-- After any run, an exit for an emulated instruction that does not end
in `unrecoverable_host_error` settles the instruction if and only if it
is not a CLTS. -/
theorem emulation_settles_iff (p : CrProcessor) (wrappers : Wrappers) {v v' v'' : EmulationVcpu}
    {exits : List VmExit} {exit : VmExit} {reason : EmulatedExit}
    (hlaunch : v.exceptionInfo = .clear)
    (hrun : (exitMachine p wrappers).run v exits = some v')
    (hreason : exit.reason = .inl reason) (h : handler p wrappers v' exit = some v'') :
    Settled exit v'' ↔ reason ≠ .clts := by
  have hclear : v'.exceptionInfo = .clear :=
    (exitMachine p wrappers).invariant_of_run (I := fun v => v.exceptionInfo = .clear)
      (fun _ _ _ hI hnext => handler_clear hI hnext) hlaunch hrun
  unfold handler at h
  rw [hclear, hreason] at h
  exact settled_handleEmulated_iff h

/-! ### Two exits -/

/-- Every bit of CR4 that has to be 1 may be 1. -/
theorem tsFixed_cr4Subset : Between 0x2000#64 0x3767FF#64 0x3767FF#64 := by decide

/-- `PE` is among the fixed bits of CR0. -/
theorem tsFixed_protectionEnable : (0x80000021#64).getLsbD 0 = true := by decide

/-- A processor on which CR0.TS is fixed to zero in VMX operation. -/
def tsFixedProcessor : CrProcessor where
  cr0Fixed0 := 0x80000021
  cr0Fixed1 := 0xFFFFFFF7
  cr4Fixed0 := 0x2000
  cr4Fixed1 := 0x3767FF
  cr4Reserved := 0xFFFFFFFFFE008000
  saferModeExtensions := false
  refusesCr0 _ _ := false
  refusesCr4 _ _ := false
  cr0Subset := by decide
  cr4Subset := tsFixed_cr4Subset
  protectionEnable := tsFixed_protectionEnable

/-- The wrappers somewhere in the image. -/
def plainWrappers : Wrappers where
  rdmsr := ⟨0x100, 0x110⟩
  wrmsr := ⟨0x120, 0x130⟩
  invd := ⟨0x140, 0x150⟩
  xsetbv := ⟨0x160, 0x170⟩
  memcpy := ⟨0x180, 0x190⟩

/-- A guest in 64-bit code that has set TS in its CR0. -/
def plainGuestVmcs : GuestVmcs where
  rip := 0x1000
  rsp := 0
  cr3 := 0
  csLongMode := true
  trapFlag := false
  blockingBySti := false
  blockingByMovSs := false
  pendingBs := false
  crFields := ⟨⟨0x80050039, 0x80050031⟩, ⟨0x20, 0x2020⟩⟩
  rip_lt := by decide

/-- A two-byte instruction of that guest. -/
def plainExit (reason : EmulatedExit) : VmExit where
  guestContext := .zero
  vmcs := plainGuestVmcs
  instructionLength := 2
  reason := .inl reason
  length_pos := by decide
  length_le := by decide

/-- The vCPU at its launch. -/
def launchVcpu : EmulationVcpu := EmulationVcpu.exit .clear none .zero plainGuestVmcs

/-- An RDMSR that faults on the host, after one that does not. -/
theorem emulation_settles_rdmsr : ∃ v' v'',
    (exitMachine tsFixedProcessor plainWrappers).run launchVcpu
      [plainExit (.rdmsr .success 5)] = some v' ∧
    handler tsFixedProcessor plainWrappers v'
      (plainExit (.rdmsr (.fault .generalProtection 0) 0)) = some v'' ∧
    Settled (plainExit (.rdmsr (.fault .generalProtection 0) 0)) v'' := by
  have hrun : ∃ v', (exitMachine tsFixedProcessor plainWrappers).run launchVcpu
      [plainExit (.rdmsr .success 5)] = some v' := ⟨_, rfl⟩
  obtain ⟨v', hrun⟩ := hrun
  have hfault : ∃ v'', handler tsFixedProcessor plainWrappers v'
      (plainExit (.rdmsr (.fault .generalProtection 0) 0)) = some v'' := by
    cases hrun
    exact ⟨_, rfl⟩
  obtain ⟨v'', hfault⟩ := hfault
  exact ⟨v', v'', hrun, hfault,
    (emulation_settles_iff tsFixedProcessor plainWrappers rfl hrun rfl hfault).mpr nofun⟩

/-- CLTS exits when TS is in the mask and set in the shadow. The guest
finds itself at the CLTS again, without an exception. -/
theorem clts_not_settled : ∃ v',
    tsFixedProcessor.cr0Mask.getLsbD 3 = true ∧
    plainGuestVmcs.crFields.cr0.readShadow.getLsbD 3 = true ∧
    handler tsFixedProcessor plainWrappers launchVcpu (plainExit .clts) = some v' ∧
    v'.rip = plainGuestVmcs.rip ∧ v'.entryInterruption = none ∧
    ¬ Settled (plainExit .clts) v' :=
  ⟨_, by decide, by decide, rfl, rfl, rfl, not_settled_handleClts⟩

end Revhv.Emulation
