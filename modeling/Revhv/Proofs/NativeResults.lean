import Revhv.Proofs.Emulation

/-!
# `Revhv.Proofs.NativeResults`: the results of CPUID and RDMSR

In 64-bit mode the processor clears the upper halves of the registers that
CPUID and RDMSR write. The handlers write the lower halves and keep the
upper ones.

* `NativeOutcome`: what the guest finds on the processor itself.
* `cpuid_native_iff` / `rdmsr_native_iff`: the handlers, one exit.
* `results_native_iff`: after any run, an exit leaves what the processor
  leaves if and only if the upper halves are clear.
* `upperHalves_stale`: a CPUID that leaves an upper half behind.
-/

set_option autoImplicit false

namespace Revhv.Emulation

open Revhv.ControlRegister Revhv.Exception Revhv.Lib Revhv.Lib.BitMask Revhv.Vcpu

/-! ### What the processor does -/

/-- A 32-bit result in a 64-bit register. -/
def zeroExtend (value : UInt64) : UInt64 := value &&& 0xFFFFFFFF

/-- The upper half of a register, in place. -/
def upperHalf (register : UInt64) : UInt64 := register &&& 0xFFFFFFFF00000000

/-- The registers after a CPUID with these results. -/
def nativeCpuid (c : GuestContext) (eax ebx ecx edx : UInt64) : GuestContext :=
  { c with
    rax := zeroExtend eax
    rbx := zeroExtend ebx
    rcx := zeroExtend ecx
    rdx := zeroExtend edx }

/-- The registers after an RDMSR with this result. -/
def nativeRdmsr (c : GuestContext) (value : UInt64) : GuestContext :=
  { c with
    rax := zeroExtend value
    rdx := zeroExtend (value >>> 32) }

/-- ECX names the MSR that the handler does not read. -/
def idleMsr (c : GuestContext) : Prop := c.rcx &&& 0xFFFFFFFF = hvX64MsrGuestIdle

/-- Whether an MSR is idle shows in its number. -/
instance (c : GuestContext) : Decidable (idleMsr c) :=
  inferInstanceAs (Decidable (_ = _))

/-- The result of the host's RDMSR. The MSR that is not read counts as
zero. -/
def rdmsrResult (c : GuestContext) (attempt : HostAttempt) (value : UInt64) :
    HostAttempt × UInt64 :=
  if idleMsr c then (.success, 0) else (attempt, value)

/-- The error code that is delivered with an exception of the host. -/
def deliveredErrorCode (exception : HostException) (errorCode : BitVec 64) :
    Option (BitVec 16) :=
  if vectorHasErrorCode (exception.vector.setWidth 16) then some (errorCode.setWidth 16) else none

/-- The instruction is done, and the registers are `c`. -/
def CompletedWith (exit : VmExit) (c : GuestContext) (v : EmulationVcpu) : Prop :=
  Completed exit v ∧ v.guestContext = c

/-- The RIP and the registers are unchanged, and the exception of the
host is injected. -/
def FaultedWith (exit : VmExit) (exception : HostException) (errorCode : BitVec 64)
    (v : EmulationVcpu) : Prop :=
  v.rip = exit.vmcs.rip ∧ v.guestContext = exit.guestContext ∧
    v.entryInterruption = some (.hardwareException (exception.vector.setWidth 16)
      (deliveredErrorCode exception errorCode))

/-- How an RDMSR with this result ends on the processor. -/
def RdmsrOutcome (exit : VmExit) (v : EmulationVcpu) : HostAttempt × UInt64 → Prop
  | (.success, value) => CompletedWith exit (nativeRdmsr exit.guestContext value) v
  | (.fault exception errorCode, _) => FaultedWith exit exception errorCode v

/-- What the guest finds on the processor itself, for the two
instructions. -/
def NativeOutcome (exit : VmExit) (v : EmulationVcpu) : EmulatedExit → Prop
  | .cpuid eax ebx ecx edx =>
      CompletedWith exit (nativeCpuid exit.guestContext eax ebx ecx edx) v
  | .rdmsr attempt value => RdmsrOutcome exit v (rdmsrResult exit.guestContext attempt value)
  | _ => True

/-- The registers that the instruction writes have clear upper halves. -/
def UpperHalvesClear (c : GuestContext) : EmulatedExit → Prop
  | .cpuid .. =>
      upperHalf c.rax = 0 ∧ upperHalf c.rbx = 0 ∧ upperHalf c.rcx = 0 ∧ upperHalf c.rdx = 0
  | .rdmsr attempt value =>
      (rdmsrResult c attempt value).1 = .success → upperHalf c.rax = 0 ∧ upperHalf c.rdx = 0
  | _ => True

/-- A CPUID, or an RDMSR with an exception that an RDMSR can raise if it
faults. -/
def ReadsResult : EmulatedExit → Prop
  | .cpuid .. => True
  | .rdmsr attempt _ => ∀ exception errorCode, attempt = .fault exception errorCode →
      exception = .generalProtection ∨ exception = .invalidOpcode
  | _ => False

/-! ### The handlers -/

/-- Moving to the lower half clears the upper half of a register that
has none. -/
theorem withLow32_eq_iff (register value : UInt64) :
    withLow32 register value = zeroExtend value ↔ upperHalf register = 0 := by
  have hselect : (withLow32 register value).toBitVec =
      select 0xFFFFFFFF value.toBitVec register.toBitVec := by
    unfold withLow32 select
    rw [BitVec.or_comm]
    rfl
  have hupper : (upperHalf register).toBitVec = register.toBitVec &&& ~~~(0xFFFFFFFF : BitVec 64) :=
    rfl
  rw [← UInt64.toBitVec_inj, ← UInt64.toBitVec_inj, hselect, hupper]
  exact select_eq_and_iff 0xFFFFFFFF value.toBitVec register.toBitVec

section Handlers

variable {wrappers : Wrappers} {exit : VmExit}

/-- CPUID writes four 32-bit registers, and the handler keeps their
upper halves. -/
theorem cpuid_native_iff (eax ebx ecx edx : UInt64) :
    CompletedWith exit (nativeCpuid exit.guestContext eax ebx ecx edx)
        (handleCpuid exit.vmcs exit.instructionLength exit.start eax ebx ecx edx) ↔
      upperHalf exit.guestContext.rax = 0 ∧ upperHalf exit.guestContext.rbx = 0 ∧
        upperHalf exit.guestContext.rcx = 0 ∧ upperHalf exit.guestContext.rdx = 0 := by
  have hdone : Completed exit
      (handleCpuid exit.vmcs exit.instructionLength exit.start eax ebx ecx edx) :=
    advanceGuestRip_completed ⟨rfl, rfl⟩
  rw [← withLow32_eq_iff _ eax, ← withLow32_eq_iff _ ebx, ← withLow32_eq_iff _ ecx,
    ← withLow32_eq_iff _ edx]
  constructor
  · rintro ⟨-, hregisters⟩
    exact ⟨congrArg GuestContext.rax hregisters, congrArg GuestContext.rbx hregisters,
      congrArg GuestContext.rcx hregisters, congrArg GuestContext.rdx hregisters⟩
  · rintro ⟨hax, hbx, hcx, hdx⟩
    refine ⟨hdone, ?_⟩
    show { exit.guestContext with
      rax := withLow32 exit.guestContext.rax eax
      rbx := withLow32 exit.guestContext.rbx ebx
      rcx := withLow32 exit.guestContext.rcx ecx
      rdx := withLow32 exit.guestContext.rdx edx } = nativeCpuid exit.guestContext eax ebx ecx edx
    rw [hax, hbx, hcx, hdx]
    rfl

/-- An RDMSR that is not at fault, by the vCPU it ends with. -/
def rdmsrDone (exit : VmExit) (value : UInt64) : EmulationVcpu :=
  finishAttempt exit.vmcs exit.instructionLength exit.start .clear fun v =>
    { v with guestContext := { v.guestContext with
        rdx := withLow32 v.guestContext.rdx (value >>> 32)
        rax := withLow32 v.guestContext.rax value } }

/-- RDMSR writes two 32-bit registers, and the handler keeps their upper
halves. -/
theorem rdmsrDone_native_iff (value : UInt64) :
    CompletedWith exit (nativeRdmsr exit.guestContext value) (rdmsrDone exit value) ↔
      upperHalf exit.guestContext.rax = 0 ∧ upperHalf exit.guestContext.rdx = 0 := by
  have hdone : Completed exit (rdmsrDone exit value) := advanceGuestRip_completed ⟨rfl, rfl⟩
  rw [← withLow32_eq_iff _ value, ← withLow32_eq_iff _ (value >>> 32)]
  constructor
  · rintro ⟨-, hregisters⟩
    exact ⟨congrArg GuestContext.rax hregisters, congrArg GuestContext.rdx hregisters⟩
  · rintro ⟨hax, hdx⟩
    refine ⟨hdone, ?_⟩
    show { exit.guestContext with
      rdx := withLow32 exit.guestContext.rdx (value >>> 32)
      rax := withLow32 exit.guestContext.rax value } = nativeRdmsr exit.guestContext value
    rw [hax, hdx]
    rfl

/-- What a wrapper records of an expected fault. -/
def recorded (exception : HostException) (errorCode : BitVec 64) : ExceptionInfo :=
  { ExceptionInfo.clear with
    exceptionOccurred := true
    exceptionVector := exception.vector
    errorCode :=
      if vectorHasErrorCode (exception.vector.setWidth 16) then errorCode else 0 }

/-- A fault in a wrapper is recorded with its error code. -/
theorem run_fault (w : Wrapper) {exception : HostException} (errorCode : BitVec 64)
    (hraises : exception = .generalProtection ∨ exception = .invalidOpcode) :
    w.run (.fault exception errorCode) .clear = some (recorded exception errorCode) := by
  have hexpected : (w.trapFrame exception errorCode).r14 ==
      (w.trapFrame exception errorCode).rip := beq_self_eq_true w.exceptionInstruction
  rw [Wrapper.run, handleException, hexpected]
  rcases hraises with rfl | rfl
  · rfl
  · rfl

/-- An expected fault of the host ends up in the guest as it is. -/
theorem rdmsr_faulted {exception : HostException} (errorCode : BitVec 64)
    (hraises : exception = .generalProtection ∨ exception = .invalidOpcode) :
    FaultedWith exit exception errorCode
      (injectHostHwExceptionToGuest
        { exit.start with exceptionInfo := recorded exception errorCode }) := by
  refine ⟨rfl, rfl, ?_⟩
  rcases hraises with rfl | rfl
  · rfl
  · rfl

/-- RDMSR: the value as on the hardware, or the exception of the host's
own RDMSR. -/
theorem rdmsr_native_iff {attempt : HostAttempt} (value : UInt64)
    (hraises : ∀ exception errorCode, attempt = .fault exception errorCode →
      exception = .generalProtection ∨ exception = .invalidOpcode) :
    ∃ v, handleRdmsr wrappers exit.vmcs exit.instructionLength exit.start attempt value = some v ∧
      (RdmsrOutcome exit v (rdmsrResult exit.guestContext attempt value) ↔
        UpperHalvesClear exit.guestContext (.rdmsr attempt value)) := by
  by_cases hidle : idleMsr exit.guestContext
  · -- The MSR is not read, and its value is zero.
    have hresult : rdmsrResult exit.guestContext attempt value = (.success, 0) := if_pos hidle
    have hstart : exit.start.guestContext.rcx &&& 0xFFFFFFFF = hvX64MsrGuestIdle := hidle
    refine ⟨rdmsrDone exit 0, ?_, ?_⟩
    · unfold handleRdmsr
      simp only [hstart, if_true]
      rfl
    · rw [UpperHalvesClear, hresult]
      exact (rdmsrDone_native_iff 0).trans ⟨fun h _ => h, fun h => h rfl⟩
  · -- Any other MSR is read by the host, whose fault goes to the guest.
    have hresult : rdmsrResult exit.guestContext attempt value = (attempt, value) := if_neg hidle
    have hstart : ¬ (exit.start.guestContext.rcx &&& 0xFFFFFFFF = hvX64MsrGuestIdle) := hidle
    rw [UpperHalvesClear, hresult]
    cases attempt with
    | success =>
      refine ⟨rdmsrDone exit value, ?_, ?_⟩
      · unfold handleRdmsr
        simp only [hstart, if_false]
        rfl
      · exact (rdmsrDone_native_iff value).trans ⟨fun h _ => h, fun h => h rfl⟩
    | fault exception errorCode =>
      have hraise := hraises exception errorCode rfl
      have hfaulted : FaultedWith exit exception errorCode (injectHostHwExceptionToGuest
        { exit.start with exceptionInfo := recorded exception errorCode }) :=
        rdmsr_faulted errorCode hraise
      refine ⟨_, ?_, iff_of_true hfaulted nofun⟩
      unfold handleRdmsr
      simp only [hstart, if_false]
      rw [show exit.start.exceptionInfo = .clear from rfl,
        run_fault wrappers.rdmsr errorCode hraise]
      rfl

end Handlers

/-! ### Runs -/

/-- After any run, the handler of a CPUID or an RDMSR returns, and the
guest finds what the processor leaves if and only if the registers that
the instruction writes have clear upper halves. -/
theorem results_native_iff (p : CrProcessor) (wrappers : Wrappers) {v v' : EmulationVcpu}
    {exits : List VmExit} {exit : VmExit} {reason : EmulatedExit}
    (hlaunch : v.exceptionInfo = .clear)
    (hrun : (exitMachine p wrappers).run v exits = some v')
    (hreason : exit.reason = .inl reason) (hreads : ReadsResult reason) :
    ∃ v'', handler p wrappers v' exit = some v'' ∧
      (NativeOutcome exit v'' reason ↔ UpperHalvesClear exit.guestContext reason) := by
  have hclear : v'.exceptionInfo = .clear :=
    (exitMachine p wrappers).invariant_of_run (I := fun v => v.exceptionInfo = .clear)
      (fun _ _ _ hI hnext => handler_clear hI hnext) hlaunch hrun
  have hhandler : handler p wrappers v' exit =
      handleEmulated p wrappers exit.vmcs exit.instructionLength exit.start reason := by
    unfold handler
    rw [hclear, hreason]
    rfl
  rw [hhandler]
  -- Only CPUID and RDMSR return values of the processor.
  cases reason with
  | cpuid eax ebx ecx edx => exact ⟨_, rfl, cpuid_native_iff eax ebx ecx edx⟩
  | rdmsr attempt value => exact rdmsr_native_iff value hreads
  | _ => exact hreads.elim

/-- An exit for a guest whose RAX is all ones. -/
def onesExit (reason : EmulatedExit) : VmExit :=
  { plainExit reason with guestContext := { GuestContext.zero with rax := 0xFFFFFFFFFFFFFFFF } }

/-- A CPUID and an RDMSR that faults, from a guest with that RAX. -/
theorem results_native_ones : ∃ v v₁ v₂,
    (exitMachine tsFixedProcessor plainWrappers).run launchVcpu
      [plainExit (.rdmsr .success 5)] = some v ∧
    handler tsFixedProcessor plainWrappers v (onesExit (.cpuid 1 2 3 4)) = some v₁ ∧
    (NativeOutcome (onesExit (.cpuid 1 2 3 4)) v₁ (.cpuid 1 2 3 4) ↔
      UpperHalvesClear (onesExit (.cpuid 1 2 3 4)).guestContext (.cpuid 1 2 3 4)) ∧
    handler tsFixedProcessor plainWrappers v
      (onesExit (.rdmsr (.fault .generalProtection 0) 0)) = some v₂ ∧
    NativeOutcome (onesExit (.rdmsr (.fault .generalProtection 0) 0)) v₂
      (.rdmsr (.fault .generalProtection 0) 0) := by
  have hrun : ∃ v, (exitMachine tsFixedProcessor plainWrappers).run launchVcpu
      [plainExit (.rdmsr .success 5)] = some v := ⟨_, rfl⟩
  rcases hrun with ⟨v, hrun⟩
  have hraises : ReadsResult (.rdmsr (.fault .generalProtection 0) 0) := by
    intro exception errorCode heq
    cases heq
    exact Or.inl rfl
  have hcpuid := @results_native_iff tsFixedProcessor plainWrappers launchVcpu v _
    (onesExit (.cpuid 1 2 3 4)) _ rfl hrun rfl trivial
  have hrdmsr := @results_native_iff tsFixedProcessor plainWrappers launchVcpu v _
    (onesExit (.rdmsr (.fault .generalProtection 0) 0)) _ rfl hrun rfl hraises
  rcases hcpuid with ⟨v₁, hv₁, hiff₁⟩
  rcases hrdmsr with ⟨v₂, hv₂, hiff₂⟩
  exact ⟨v, v₁, v₂, hrun, hv₁, hiff₁, hv₂, hiff₂.mpr nofun⟩

/-- A CPUID whose result in EAX is 1 leaves the upper half of RAX as it
was. -/
theorem upperHalves_stale : ∃ v,
    handler tsFixedProcessor plainWrappers launchVcpu (onesExit (.cpuid 1 2 3 4)) = some v ∧
    v.guestContext.rax = 0xFFFFFFFF00000001 ∧
    ¬ NativeOutcome (onesExit (.cpuid 1 2 3 4)) v (.cpuid 1 2 3 4) := by
  refine ⟨_, rfl, by decide, ?_⟩
  rintro ⟨-, hregisters⟩
  exact absurd (congrArg GuestContext.rax hregisters) (by decide)

end Revhv.Emulation
