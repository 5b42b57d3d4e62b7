import Revhv.Km.ControlRegister
import Revhv.Km.Exception
import Revhv.Km.Vcpu

/-!
# `Revhv.Km.Emulation`: emulated instructions

`handler` (`revhv-km/vmexit.cpp`) for the instructions the hypervisor
emulates, as far as it concerns where the guest goes on:
`advance_guest_rip`, the injection of exceptions, and `exception_info`.

A VM exit comes with the outcome of every attempt the host makes at an
instruction. What CR0 and CR4 become is `Revhv.Km.ControlRegister`, what
an MTRR write does to the EPT is `Revhv.Km.Msr`, and what the hypercalls
do is in the modules about them. `none` is `unrecoverable_host_error`.
-/

set_option autoImplicit false

namespace Revhv.Emulation

open Revhv.ControlRegister Revhv.Exception Revhv.Lib Revhv.Vcpu

/-! ### The vCPU -/

/-- The VM-entry interruption information field when it is valid, with
the error code to deliver. -/
inductive EntryInterruption where
  | hardwareException (vector : BitVec 16) (errorCode : Option (BitVec 16))
  | nonMaskableInterrupt
  deriving DecidableEq

/-- The guest at a VM exit, as the VMCS has it. -/
structure GuestVmcs where
  rip : BitVec 64
  rsp : UInt64
  cr3 : BitVec 64
  csLongMode : Bool
  trapFlag : Bool
  blockingBySti : Bool
  blockingByMovSs : Bool
  /-- BS of the pending debug exceptions. -/
  pendingBs : Bool
  crFields : CrFields
  /-- Outside 64-bit code the RIP has 32 bits. -/
  rip_lt : csLongMode = false → rip.toNat < 2 ^ 32

/-- The fields of a vCPU, and of its VMCS, that the handlers use. -/
structure EmulationVcpu where
  guestContext : GuestContext
  rip : BitVec 64
  blockingBySti : Bool
  blockingByMovSs : Bool
  pendingBs : Bool
  crFields : CrFields
  entryInterruption : Option EntryInterruption
  exceptionInfo : ExceptionInfo

/-- The vCPU at a VM exit of a guest. -/
def EmulationVcpu.exit (exceptionInfo : ExceptionInfo) (entryInterruption : Option EntryInterruption)
    (guestContext : GuestContext) (vmcs : GuestVmcs) : EmulationVcpu where
  guestContext
  rip := vmcs.rip
  blockingBySti := vmcs.blockingBySti
  blockingByMovSs := vmcs.blockingByMovSs
  pendingBs := vmcs.pendingBs
  crFields := vmcs.crFields
  entryInterruption
  exceptionInfo

/-- A register with a value moved to its lower half. -/
def withLow32 (register value : UInt64) : UInt64 :=
  (register &&& 0xFFFFFFFF00000000) ||| (value &&& 0xFFFFFFFF)

/-- `get_gpr_value` of `handle_mov_to_cr`. RSP is the fourth register. -/
def getGprValue (guestContext : GuestContext) (vmcs : GuestVmcs) (reg : Fin 16) : UInt64 :=
  match reg.val with
  | 0 => guestContext.rax
  | 1 => guestContext.rcx
  | 2 => guestContext.rdx
  | 3 => guestContext.rbx
  -- RSP is the only register that is not in the context.
  | 4 => vmcs.rsp
  | 5 => guestContext.rbp
  | 6 => guestContext.rsi
  | 7 => guestContext.rdi
  | 8 => guestContext.r8
  | 9 => guestContext.r9
  | 10 => guestContext.r10
  | 11 => guestContext.r11
  | 12 => guestContext.r12
  | 13 => guestContext.r13
  | 14 => guestContext.r14
  | _ => guestContext.r15

/-- `inject_hw_exception`. -/
def EmulationVcpu.injectHwException (v : EmulationVcpu) (vector : BitVec 16)
    (errorCode : Option (BitVec 16)) : EmulationVcpu :=
  { v with entryInterruption := some (.hardwareException vector errorCode) }

/-- `inject_host_hw_exception_to_guest`. -/
def injectHostHwExceptionToGuest (v : EmulationVcpu) : EmulationVcpu :=
  let vector := v.exceptionInfo.exceptionVector.setWidth 16
  let errorCode :=
    if vectorHasErrorCode vector then some (v.exceptionInfo.errorCode.setWidth 16) else none
  { v.injectHwException vector errorCode with exceptionInfo := .clear }

/-- `advance_guest_rip`. -/
def advanceGuestRip (v : EmulationVcpu) (vmcs : GuestVmcs) (instructionLength : BitVec 64) :
    EmulationVcpu :=
  let newRip := v.rip + instructionLength
  let newRip :=
    -- Only a carry over 4 GB outside 64-bit mode is cut.
    if v.rip < 1#64 <<< 32 ∧ newRip ≥ 1#64 <<< 32 ∧ vmcs.csLongMode = false then
      newRip &&& 0xFFFFFFFF
    else newRip
  { v with
    rip := newRip
    blockingBySti := false
    blockingByMovSs := false
    pendingBs := v.pendingBs || vmcs.trapFlag }

/-! ### VM exits -/

/-- What a hypercall does with the guest: its calls of
`read_guest_virtual` and `write_guest_virtual`, each by its copies, and
the answer in RAX if it leaves one. -/
structure HypercallRun where
  copies : List (List HostAttempt)
  rax : Option UInt64

/-- The exits for emulated instructions, each with the outcome of what
the host attempts. -/
inductive EmulatedExit where
  /-- With what CPUID leaves in the four registers. -/
  | cpuid (eax ebx ecx edx : UInt64)
  | invd (attempt : HostAttempt)
  /-- With the value in case of success. -/
  | rdmsr (attempt : HostAttempt) (value : UInt64)
  | wrmsr (attempt : HostAttempt)
  | xsetbv (attempt : HostAttempt)
  | getsec
  | vmcall (run : HypercallRun)
  /-- MOV to a control register, by the numbers of both registers. -/
  | movToCr (controlRegister generalPurposeRegister : Fin 16)
  | clts
  | lmsw (source : BitVec 16)
  /-- A control-register access of another type. -/
  | otherCrAccess
  /-- The other VMX instructions. -/
  | vmxInstruction

/-- The other exits: their copies, and whether an NMI is injected. -/
structure OtherExit where
  copies : List (List HostAttempt)
  injectsNmi : Bool

/-- `HYPERCALL_KEY`. -/
def hypercallKey : UInt64 := 0x5245564856

/-- `hypercall_number::test_host_df`. -/
def testHostDf : UInt64 := 10

/-- `HV_X64_MSR_GUEST_IDLE`. -/
def hvX64MsrGuestIdle : UInt64 := 0x400000F0

/-- The addresses of the labels in the wrappers. -/
structure Wrappers where
  rdmsr : Wrapper
  wrmsr : Wrapper
  invd : Wrapper
  xsetbv : Wrapper
  memcpy : Wrapper

section Handlers

variable (p : CrProcessor) (wrappers : Wrappers) (vmcs : GuestVmcs) (instructionLength : BitVec 64)

/-- The end of every handler that has attempted an instruction behind a
wrapper. -/
def finishAttempt (v : EmulationVcpu) (exceptionInfo : ExceptionInfo)
    (onSuccess : EmulationVcpu → EmulationVcpu) : EmulationVcpu :=
  let v := { v with exceptionInfo }
  if v.exceptionInfo.exceptionOccurred then injectHostHwExceptionToGuest v
  else advanceGuestRip (onSuccess v) vmcs instructionLength

/-- `handle_cpuid`. -/
def handleCpuid (v : EmulationVcpu) (eax ebx ecx edx : UInt64) : EmulationVcpu :=
  let guestContext := { v.guestContext with
    rax := withLow32 v.guestContext.rax eax
    rbx := withLow32 v.guestContext.rbx ebx
    rcx := withLow32 v.guestContext.rcx ecx
    rdx := withLow32 v.guestContext.rdx edx }
  advanceGuestRip { v with guestContext } vmcs instructionLength

/-- `handle_rdmsr`. -/
def handleRdmsr (v : EmulationVcpu) (attempt : HostAttempt) (value : UInt64) :
    Option EmulationVcpu := do
  let idle := v.guestContext.rcx &&& 0xFFFFFFFF = hvX64MsrGuestIdle
  let msrResult := if idle then 0 else value
  let exceptionInfo ←
    if idle then some v.exceptionInfo else wrappers.rdmsr.run attempt v.exceptionInfo
  some (finishAttempt vmcs instructionLength v exceptionInfo fun v =>
    { v with guestContext := { v.guestContext with
        rdx := withLow32 v.guestContext.rdx (msrResult >>> 32)
        rax := withLow32 v.guestContext.rax msrResult } })

/-- `handle_wrmsr`. -/
def handleWrmsr (v : EmulationVcpu) (attempt : HostAttempt) : Option EmulationVcpu := do
  let exceptionInfo ← wrappers.wrmsr.run attempt v.exceptionInfo
  some (finishAttempt vmcs instructionLength v exceptionInfo id)

/-- `handle_invd`. -/
def handleInvd (v : EmulationVcpu) (attempt : HostAttempt) : Option EmulationVcpu := do
  let exceptionInfo ← wrappers.invd.run attempt v.exceptionInfo
  some (finishAttempt vmcs instructionLength v exceptionInfo id)

/-- `handle_xsetbv`. -/
def handleXsetbv (v : EmulationVcpu) (attempt : HostAttempt) : Option EmulationVcpu := do
  let exceptionInfo ← wrappers.xsetbv.run attempt v.exceptionInfo
  some (finishAttempt vmcs instructionLength v exceptionInfo id)

/-- `handle_getsec`. -/
def handleGetsec (v : EmulationVcpu) : EmulationVcpu :=
  v.injectHwException 6 none

/-- `handle_vmx_instruction`. -/
def handleVmxInstruction (v : EmulationVcpu) : EmulationVcpu :=
  v.injectHwException 6 none

/-- `handle_hypercall`. The answer is whether the key is right.
`test_host_df` destroys the host stack. -/
def handleHypercall (v : EmulationVcpu) (run : HypercallRun) : Option (EmulationVcpu × Bool) :=
  if v.guestContext.rax ≠ hypercallKey then some (v, false)
  else if v.guestContext.rcx = testHostDf then none
  else do
    let exceptionInfo ← run.copies.foldlM (copyGuestVirtual wrappers.memcpy) v.exceptionInfo
    let rax := run.rax.getD v.guestContext.rax
    some ({ v with exceptionInfo, guestContext := { v.guestContext with rax } }, true)

/-- The VMCALL case of `handler`. -/
def handleVmcall (v : EmulationVcpu) (run : HypercallRun) : Option EmulationVcpu := do
  match ← handleHypercall wrappers v run with
  | (v, false) => some (handleVmxInstruction v)
  | (v, true) => some (advanceGuestRip v vmcs instructionLength)

/-- The end of a control-register write: #GP, or on to the next
instruction. -/
def finishCrWrite (v : EmulationVcpu) (result : CrFields × CrAnswer) : EmulationVcpu :=
  match result.2 with
  | .generalProtection => v.injectHwException 13 (some 0)
  | .completed => advanceGuestRip { v with crFields := result.1 } vmcs instructionLength

/-- `handle_mov_to_cr`. -/
def handleMovToCr (v : EmulationVcpu) (controlRegister generalPurposeRegister : Fin 16) :
    Option EmulationVcpu :=
  let regVal := (getGprValue v.guestContext vmcs generalPurposeRegister).toBitVec
  if controlRegister = 0 then
    some (finishCrWrite vmcs instructionLength v (handleMovToCr0 p v.crFields regVal))
  else if controlRegister = 4 then
    some (finishCrWrite vmcs instructionLength v (handleMovToCr4 p v.crFields regVal vmcs.cr3))
  else none

/-- `CR0_TASK_SWITCHED_FLAG`. -/
def cr0TaskSwitchedFlag : BitVec 64 := 8

/-- `handle_clts`. It does not advance the RIP. -/
def handleClts (v : EmulationVcpu) : EmulationVcpu :=
  let cr0 := { v.crFields.cr0 with
    readShadow := v.crFields.cr0.readShadow &&& ~~~cr0TaskSwitchedFlag
    guest := v.crFields.cr0.guest &&& ~~~cr0TaskSwitchedFlag }
  { v with crFields := { v.crFields with cr0 } }

/-- `handle_cr_access` and the rest of `handler` for an emulated
instruction. -/
def handleEmulated (v : EmulationVcpu) : EmulatedExit → Option EmulationVcpu
  | .cpuid eax ebx ecx edx => some (handleCpuid vmcs instructionLength v eax ebx ecx edx)
  | .invd attempt => handleInvd wrappers vmcs instructionLength v attempt
  | .rdmsr attempt value => handleRdmsr wrappers vmcs instructionLength v attempt value
  | .wrmsr attempt => handleWrmsr wrappers vmcs instructionLength v attempt
  | .xsetbv attempt => handleXsetbv wrappers vmcs instructionLength v attempt
  | .getsec => some (handleGetsec v)
  | .vmcall run => handleVmcall wrappers vmcs instructionLength v run
  | .movToCr controlRegister generalPurposeRegister =>
      handleMovToCr p vmcs instructionLength v controlRegister generalPurposeRegister
  | .clts => some (handleClts v)
  | .lmsw source =>
      some (finishCrWrite vmcs instructionLength v (handleLmsw p v.crFields source))
  -- The source ends in `unrecoverable_host_error`: MOV from CR3 and CR8 do not
  -- exit.
  | .otherCrAccess => none
  | .vmxInstruction => some (handleVmxInstruction v)

/-- The other cases of `handler`. -/
def handleOther (v : EmulationVcpu) (exit : OtherExit) : Option EmulationVcpu := do
  let exceptionInfo ← exit.copies.foldlM (copyGuestVirtual wrappers.memcpy) v.exceptionInfo
  let v := { v with exceptionInfo }
  some (if exit.injectsNmi then { v with entryInterruption := some .nonMaskableInterrupt } else v)

end Handlers

/-- A VM exit: the guest, the length of the instruction and what has
caused the exit. -/
structure VmExit where
  guestContext : GuestContext
  vmcs : GuestVmcs
  instructionLength : BitVec 64
  reason : EmulatedExit ⊕ OtherExit
  /-- An instruction has one to fifteen bytes. -/
  length_pos : 0 < instructionLength.toNat
  length_le : instructionLength.toNat ≤ 15

/-- `handler`, from what the vCPU keeps while the guest runs. -/
def handler (p : CrProcessor) (wrappers : Wrappers) (v : EmulationVcpu) (exit : VmExit) :
    Option EmulationVcpu :=
  -- `clear_vmentry_interrupt_info` comes first.
  let v := EmulationVcpu.exit v.exceptionInfo none exit.guestContext exit.vmcs
  match exit.reason with
  | .inl reason => handleEmulated p wrappers exit.vmcs exit.instructionLength v reason
  | .inr other => handleOther wrappers v other

/-- A vCPU from VM entry to VM entry. In between the guest may change
all that is its own. -/
def exitMachine (p : CrProcessor) (wrappers : Wrappers) : Machine EmulationVcpu VmExit where
  next := handler p wrappers

end Revhv.Emulation
