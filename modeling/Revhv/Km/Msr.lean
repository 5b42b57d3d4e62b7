import Mathlib.Logic.Function.Basic
import Revhv.Km.Hypercall.AutoTrace

/-!
# `Revhv.Km.Msr`: MSR writes of the guest

`read_mtrrs` (`revhv-km/memory.cpp`), the MSR bitmap and the controls for
switched MSRs (`revhv-km/vmcs.cpp`), and `handle_wrmsr`
(`revhv-km/vmexit.cpp`).

`Core` is a logical processor: its MSRs, the MSR fields of the guest in
the VMCS, the bitmap and the vCPU. While the guest runs, `msrs` are the
guest's. `Core.wrmsr` is one WRMSR of the guest, with the VM exit it may
cause and the VM entry after that.

A processor is assumed to support the controls the code asks for.
-/

set_option autoImplicit false

namespace Revhv.Memory

open Revhv.Vcpu

/-! ### MSR numbers -/

/-- `IA32_MTRR_CAPABILITIES`. -/
def ia32MtrrCapabilities : Nat := 0xFE

/-- `IA32_MTRR_PHYSBASE0`. -/
def ia32MtrrPhysbase0 : Nat := 0x200

/-- `IA32_MTRR_PHYSMASK0`. -/
def ia32MtrrPhysmask0 : Nat := 0x201

/-- `IA32_MTRR_FIX64K_00000`. -/
def ia32MtrrFix64k : Nat := 0x250

/-- `IA32_MTRR_FIX16K_80000` and the one after it. -/
def ia32MtrrFix16k : Nat := 0x258

/-- `IA32_MTRR_FIX4K_C0000` and the seven after it. -/
def ia32MtrrFix4k : Nat := 0x268

/-- `IA32_MTRR_DEF_TYPE`. -/
def ia32MtrrDefType : Nat := 0x2FF

/-- `IA32_MTRR_VARIABLE_COUNT` of ia32-doc. -/
def ia32MtrrVariableCount : Nat := 255

/-! ### `read_mtrrs` -/

/-- The bits of a register from `low` on, `width` many. -/
def bitField (register : UInt64) (low width : Nat) : Nat :=
  register.toNat / 2 ^ low % 2 ^ width

/-- A one-bit field. -/
def bitFlag (register : UInt64) (bit : Nat) : Bool := register.toNat.testBit bit

/-- `variable_range_count` of `IA32_MTRR_CAPABILITIES`. -/
def variableRangeCount (msrs : Nat → UInt64) : Nat := bitField (msrs ia32MtrrCapabilities) 0 8

/-- `variable[i]` as `read_mtrrs` fills it. -/
def readVariableRange (msrs : Nat → UInt64) (i : Nat) : VariableRange where
  baseType := bitField (msrs (ia32MtrrPhysbase0 + i * 2)) 0 8
  basePageFrameNumber := bitField (msrs (ia32MtrrPhysbase0 + i * 2)) 12 36
  maskValid := bitFlag (msrs (ia32MtrrPhysmask0 + i * 2)) 11
  maskPageFrameNumber := bitField (msrs (ia32MtrrPhysmask0 + i * 2)) 12 36

/-- An entry of `variable` that only the `memset` has touched. -/
def VariableRange.zero : VariableRange := ⟨0, 0, false, 0⟩

/-- `fixed` as `read_mtrrs` fills it, one byte of a register an element. -/
def readFixedRanges (msrs : Nat → UInt64) (i : Nat) : Nat :=
  if i < 8 then bitField (msrs ia32MtrrFix64k) (i * 8) 8
  else if i < 24 then bitField (msrs (ia32MtrrFix16k + (i - 8) / 8)) (i % 8 * 8) 8
  else if i < 88 then bitField (msrs (ia32MtrrFix4k + (i - 24) / 8)) (i % 8 * 8) 8
  else 0

/-- `read_mtrrs`. With the MTRRs off it returns before it has read any
range. -/
def readMtrrs (msrs : Nat → UInt64) : MtrrState :=
  let variableCount := variableRangeCount msrs
  let fixedSupported := bitFlag (msrs ia32MtrrCapabilities) 8
  let defType := msrs ia32MtrrDefType
  let mtrrEnable := bitFlag defType 11
  let fixedRangeMtrrEnable := bitFlag defType 10
  { mtrrEnable
    fixedRangeMtrrEnable
    defaultMemoryType := bitField defType 0 3
    fixedSupported
    fixed := fun i =>
      -- What is not read stays as `memset` has left it.
      if mtrrEnable && fixedRangeMtrrEnable && fixedSupported then readFixedRanges msrs i else 0
    variableRanges := (List.range variableCount).map fun i =>
      if mtrrEnable then readVariableRange msrs i else .zero }

end Revhv.Memory

namespace Revhv.Vmcs

open Revhv.Memory

/-! ### The MSR bitmap -/

/-- `MSR_ID_LOW_MAX`. -/
def msrIdLowMax : Nat := 0x1FFF

/-- `MSR_ID_HIGH_MIN`. -/
def msrIdHighMin : Nat := 0xC0000000

/-- `MSR_ID_HIGH_MAX`. -/
def msrIdHighMax : Nat := 0xC0001FFF

/-- The two arrays of `msr_bitmap` for writes. -/
structure MsrBitmap where
  wrmsrLow : Nat → BitVec 8
  wrmsrHigh : Nat → BitVec 8

/-- A zeroed bitmap. -/
def MsrBitmap.zeroed : MsrBitmap := ⟨fun _ => 0, fun _ => 0⟩

/-- A byte with the bit of `msr` set or cleared. -/
def writeExitBit (byte : BitVec 8) (msr : Nat) (exit : Bool) : BitVec 8 :=
  if exit then byte ||| 1#8 <<< (msr % 8) else byte &&& ~~~(1#8 <<< (msr % 8))

/-- `set_wrmsr_exiting`. Other MSRs have no bit and are passed over. -/
def setWrmsrExiting (bitmap : MsrBitmap) (msr : Nat) (exit : Bool) : MsrBitmap :=
  if msr ≤ msrIdLowMax then
    { bitmap with
      wrmsrLow := Function.update bitmap.wrmsrLow (msr / 8)
        (writeExitBit (bitmap.wrmsrLow (msr / 8)) msr exit) }
  else if msrIdHighMin ≤ msr ∧ msr ≤ msrIdHighMax then
    { bitmap with
      wrmsrHigh := Function.update bitmap.wrmsrHigh ((msr - msrIdHighMin) / 8)
        (writeExitBit (bitmap.wrmsrHigh ((msr - msrIdHighMin) / 8)) msr exit) }
  else bitmap

/-- Whether the processor exits for a write to `msr`. An MSR without a
bit always exits. -/
def MsrBitmap.wrmsrExits (bitmap : MsrBitmap) (msr : Nat) : Bool :=
  if msr ≤ msrIdLowMax then (bitmap.wrmsrLow (msr / 8)).getLsbD (msr % 8)
  else if msrIdHighMin ≤ msr ∧ msr ≤ msrIdHighMax then
    (bitmap.wrmsrHigh ((msr - msrIdHighMin) / 8)).getLsbD (msr % 8)
  else true

/-- The MSRs `write_other_control_fields` names one by one. -/
def namedMtrrs : List Nat :=
  [ia32MtrrDefType, ia32MtrrFix64k, ia32MtrrFix16k, ia32MtrrFix16k + 1, ia32MtrrFix4k,
    ia32MtrrFix4k + 1, ia32MtrrFix4k + 2, ia32MtrrFix4k + 3, ia32MtrrFix4k + 4,
    ia32MtrrFix4k + 5, ia32MtrrFix4k + 6, ia32MtrrFix4k + 7]

/-- The writes of `write_other_control_fields` to the bitmap. -/
def writeMsrBitmap (bitmap : MsrBitmap) : MsrBitmap :=
  let bitmap := namedMtrrs.foldl (fun bitmap msr => setWrmsrExiting bitmap msr true) bitmap
  (List.range ia32MtrrVariableCount).foldl (fun bitmap i =>
    setWrmsrExiting (setWrmsrExiting bitmap (ia32MtrrPhysbase0 + i * 2) true)
      (ia32MtrrPhysmask0 + i * 2) true) bitmap

/-! ### MSRs that exits and entries switch -/

/-- `IA32_SYSENTER_CS`. -/
def ia32SysenterCs : Nat := 0x174

/-- `IA32_SYSENTER_ESP`. -/
def ia32SysenterEsp : Nat := 0x175

/-- `IA32_SYSENTER_EIP`. -/
def ia32SysenterEip : Nat := 0x176

/-- `IA32_DEBUGCTL`. -/
def ia32Debugctl : Nat := 0x1D9

/-- `IA32_PAT`. -/
def ia32Pat : Nat := 0x277

/-- `IA32_PERF_GLOBAL_CTRL`. -/
def ia32PerfGlobalCtrl : Nat := 0x38F

/-- `IA32_EFER`. -/
def ia32Efer : Nat := 0xC0000080

/-- The MSRs with a guest field in the VMCS. -/
def switchedMsrs : List Nat :=
  [ia32Pat, ia32Efer, ia32PerfGlobalCtrl, ia32Debugctl, ia32SysenterCs, ia32SysenterEsp,
    ia32SysenterEip]

/-- The bits of the VM-exit controls that concern these MSRs. -/
structure VmexitControls where
  saveDebugControls : Bool
  saveIa32Pat : Bool
  loadIa32Pat : Bool
  saveIa32Efer : Bool
  loadIa32Efer : Bool
  saveIa32PerfGlobalCtl : Bool
  loadIa32PerfGlobalCtrl : Bool

/-- The bits of the VM-entry controls that concern these MSRs. -/
structure VmentryControls where
  loadDebugControls : Bool
  loadIa32Efer : Bool
  loadIa32Pat : Bool
  loadIa32PerfGlobalCtrl : Bool

/-- `desiredExitCtls` of `write_vmexit_controls`. -/
def desiredExitCtls : VmexitControls where
  saveDebugControls := true
  saveIa32Pat := true
  loadIa32Pat := true
  saveIa32Efer := true
  loadIa32Efer := true
  saveIa32PerfGlobalCtl := true
  loadIa32PerfGlobalCtrl := true

/-- `desiredEntryCtls` of `write_vmentry_controls`. -/
def desiredEntryCtls : VmentryControls where
  loadDebugControls := true
  loadIa32Efer := true
  loadIa32Pat := true
  loadIa32PerfGlobalCtrl := true

/-- An exit writes the MSR to its guest field. -/
def VmexitControls.saves (controls : VmexitControls) (msr : Nat) : Bool :=
  (msr == ia32Pat && controls.saveIa32Pat) || (msr == ia32Efer && controls.saveIa32Efer) ||
    (msr == ia32PerfGlobalCtrl && controls.saveIa32PerfGlobalCtl) ||
    (msr == ia32Debugctl && controls.saveDebugControls) ||
    msr == ia32SysenterCs || msr == ia32SysenterEsp || msr == ia32SysenterEip

/-- An exit loads the MSR for the host. `IA32_DEBUGCTL` is cleared by
every exit. -/
def VmexitControls.loads (controls : VmexitControls) (msr : Nat) : Bool :=
  (msr == ia32Pat && controls.loadIa32Pat) || (msr == ia32Efer && controls.loadIa32Efer) ||
    (msr == ia32PerfGlobalCtrl && controls.loadIa32PerfGlobalCtrl) || msr == ia32Debugctl ||
    msr == ia32SysenterCs || msr == ia32SysenterEsp || msr == ia32SysenterEip

/-- An entry loads the MSR from its guest field. -/
def VmentryControls.loads (controls : VmentryControls) (msr : Nat) : Bool :=
  (msr == ia32Pat && controls.loadIa32Pat) || (msr == ia32Efer && controls.loadIa32Efer) ||
    (msr == ia32PerfGlobalCtrl && controls.loadIa32PerfGlobalCtrl) ||
    (msr == ia32Debugctl && controls.loadDebugControls) ||
    msr == ia32SysenterCs || msr == ia32SysenterEsp || msr == ia32SysenterEip

/-- The values an exit loads: the fields `write_host_state_fields` has
written. -/
def hostMsr (msr : Nat) : UInt64 :=
  if msr = ia32Pat then 0x0007040600070406
  else if msr = ia32Efer then 0xD01
  else 0

end Revhv.Vmcs

namespace Revhv.Vmexit

open Revhv.Hypercall Revhv.Lib Revhv.Memory Revhv.Trace Revhv.Vcpu Revhv.Vmcs

/-! ### A logical processor -/

/-- What the processor answers a WRMSR with: a fault, or nothing. -/
structure Processor where
  faults : Nat → UInt64 → Bool
  /-- `IA32_MTRR_CAPABILITIES` is read-only. -/
  capabilities : ∀ value, faults ia32MtrrCapabilities value = true

/-- A logical processor with its vCPU. -/
structure Core where
  msrs : Nat → UInt64
  guestFields : Nat → UInt64
  msrBitmap : MsrBitmap
  vcpu : Vcpu

/-- The processor as `vmlaunch` leaves it: `write_guest_state_fields`
has copied the MSRs. -/
def Core.launch (msrs : Nat → UInt64) (setup : VcpuSetup) (entries : Nat → Entry) : Core where
  msrs := msrs
  guestFields := msrs
  msrBitmap := writeMsrBitmap .zeroed
  vcpu := initialVcpu { setup with mtrrState := readMtrrs msrs } entries

/-- What a VM exit does to the MSRs. -/
def Core.vmexit (core : Core) : Core :=
  { core with
    guestFields := fun msr =>
      if desiredExitCtls.saves msr then core.msrs msr else core.guestFields msr
    msrs := fun msr => if desiredExitCtls.loads msr then hostMsr msr else core.msrs msr }

/-- What a VM entry does to the MSRs. -/
def Core.vmentry (core : Core) : Core :=
  { core with
    msrs := fun msr =>
      if desiredEntryCtls.loads msr then core.guestFields msr else core.msrs msr }

/-! ### WRMSR -/

/-- `is_mtrr_msr`. -/
def isMtrrMsr (msr : Nat) : Bool :=
  if msr = ia32MtrrDefType then true
  else if msr = ia32MtrrFix64k then true
  else if ia32MtrrFix16k ≤ msr ∧ msr ≤ ia32MtrrFix16k + 1 then true
  else if ia32MtrrFix4k ≤ msr ∧ msr ≤ ia32MtrrFix4k + 7 then true
  else if ia32MtrrPhysbase0 ≤ msr ∧ msr ≤ ia32MtrrPhysbase0 + 19 then true
  else false

/-- The MSR a WRMSR names: ECX. -/
def wrmsrIndex (guestContext : GuestContext) : Nat := guestContext.rcx.toNat % 2 ^ 32

/-- The value a WRMSR writes: EDX and EAX. -/
def wrmsrValue (guestContext : GuestContext) : UInt64 :=
  (guestContext.rdx &&& 0xFFFFFFFF) <<< 32 ||| (guestContext.rax &&& 0xFFFFFFFF)

/-- The WRMSR instruction itself. -/
def Core.writeMsr (core : Core) (msr : Nat) (value : UInt64) : Core :=
  { core with msrs := Function.update core.msrs msr value }

/-- `handle_wrmsr`. A fault is handed on to the guest. -/
def handleWrmsr (processor : Processor) (guestContext : GuestContext) (core : Core) : Core :=
  let msr := wrmsrIndex guestContext
  let value := wrmsrValue guestContext
  if processor.faults msr value then core
  else
    let core := core.writeMsr msr value
    if isMtrrMsr msr then
      { core with vcpu := handleWrmsrMtrr core.vcpu (readMtrrs core.msrs) }
    else core

/-- A WRMSR of the guest, up to the next instruction. `none` is one that
faults. -/
def Core.wrmsr (processor : Processor) (core : Core) (guestContext : GuestContext) :
    Option Core :=
  let msr := wrmsrIndex guestContext
  let value := wrmsrValue guestContext
  if processor.faults msr value then none
  else if core.msrBitmap.wrmsrExits msr then
    some (handleWrmsr processor guestContext core.vmexit).vmentry
  else some (core.writeMsr msr value)

/-- A processor whose guest writes MSRs. -/
def wrmsrMachine (processor : Processor) : Machine Core GuestContext where
  next core guestContext := core.wrmsr processor guestContext

end Revhv.Vmexit
