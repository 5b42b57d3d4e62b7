import Revhv.Km.Msr
import Revhv.Km.Segment

/-!
# `Revhv.Km.Vmcs`: what is written to the VMCS before the launch

`write_control_fields` (`revhv-km/vmcs.cpp`) with the functions that it calls,
every `vmx_vmwrite` in the order of the source. A field that the processor does
not have makes its write fail, and everything behind it is left undone.

`System` has the registers that these functions read. The VMCS is a map from
the encodings of its fields.
-/

set_option autoImplicit false

namespace Revhv.Vmcs

open Revhv.Memory Revhv.Segment
open Revhv.Lib.StackFrame

/-! ### The registers -/

/-- The system registers of a core. -/
structure System where
  cr0 : UInt64
  cr3 : UInt64
  cr4 : UInt64
  dr7 : UInt64
  segment : SegmentRegister → Register
  gdtr : TableRegister
  idtr : TableRegister
  msrs : Nat → UInt64

/-- `IA32_FS_BASE` -/
def ia32FsBase : Nat := 0xC0000100

/-- `IA32_GS_BASE` -/
def ia32GsBase : Nat := 0xC0000101

/-- `IA32_KERNEL_GS_BASE` -/
def ia32KernelGsBase : Nat := 0xC0000102

/-- `IA32_VMX_BASIC` -/
def ia32VmxBasic : Nat := 0x480

/-- `IA32_VMX_PINBASED_CTLS` -/
def ia32VmxPinbasedCtls : Nat := 0x481

/-- `IA32_VMX_PROCBASED_CTLS` -/
def ia32VmxProcbasedCtls : Nat := 0x482

/-- `IA32_VMX_EXIT_CTLS` -/
def ia32VmxExitCtls : Nat := 0x483

/-- `IA32_VMX_ENTRY_CTLS` -/
def ia32VmxEntryCtls : Nat := 0x484

/-- `IA32_VMX_CR0_FIXED0` -/
def ia32VmxCr0Fixed0 : Nat := 0x486

/-- `IA32_VMX_CR0_FIXED1` -/
def ia32VmxCr0Fixed1 : Nat := 0x487

/-- `IA32_VMX_CR4_FIXED0` -/
def ia32VmxCr4Fixed0 : Nat := 0x488

/-- `IA32_VMX_CR4_FIXED1` -/
def ia32VmxCr4Fixed1 : Nat := 0x489

/-- `IA32_VMX_PROCBASED_CTLS2` -/
def ia32VmxProcbasedCtls2 : Nat := 0x48B

/-- `IA32_VMX_TRUE_PINBASED_CTLS` -/
def ia32VmxTruePinbasedCtls : Nat := 0x48D

/-- `IA32_VMX_TRUE_PROCBASED_CTLS` -/
def ia32VmxTrueProcbasedCtls : Nat := 0x48E

/-- `IA32_VMX_TRUE_EXIT_CTLS` -/
def ia32VmxTrueExitCtls : Nat := 0x48F

/-- `IA32_VMX_TRUE_ENTRY_CTLS` -/
def ia32VmxTrueEntryCtls : Nat := 0x490

/-- RDMSR. Two MSRs are the bases of segment registers. -/
def System.readMsr (s : System) (msr : Nat) : UInt64 :=
  if msr = ia32FsBase then (s.segment .fs).base
  else if msr = ia32GsBase then (s.segment .gs).base
  else s.msrs msr

/-- A segment register with another base. -/
def System.setBase (s : System) (r : SegmentRegister) (base : UInt64) : System :=
  { s with segment := Function.update s.segment r { s.segment r with base } }

/-- WRMSR. -/
def System.writeMsr (s : System) (msr : Nat) (value : UInt64) : System :=
  if msr = ia32FsBase then s.setBase .fs value
  else if msr = ia32GsBase then s.setBase .gs value
  else { s with msrs := Function.update s.msrs msr value }

/-- `CR4_VMX_ENABLE_FLAG` -/
def cr4VmxEnableFlag : UInt64 := 0x2000

/-! ### The encodings of the fields -/

/-- The number of a segment register in the encodings. -/
def segmentNumber : SegmentRegister → UInt64
  | .es => 0
  | .cs => 1
  | .ss => 2
  | .ds => 3
  | .fs => 4
  | .gs => 5
  | .ldtr => 6
  | .tr => 7

/-- `VMCS_CTRL_VIRTUAL_PROCESSOR_IDENTIFIER` -/
def ctrlVirtualProcessorIdentifier : UInt64 := 0x0000

/-- `VMCS_GUEST_ES_SELECTOR` and the others. -/
def guestSelector (r : SegmentRegister) : UInt64 := 0x0800 + 2 * segmentNumber r

/-- `VMCS_HOST_ES_SELECTOR` and the others. There is none for LDTR, so
TR has its number. -/
def hostSelector (r : SegmentRegister) : UInt64 :=
  if r = .tr then 0x0C0C else 0x0C00 + 2 * segmentNumber r

/-- `VMCS_CTRL_MSR_BITMAP_ADDRESS` -/
def ctrlMsrBitmapAddress : UInt64 := 0x2004

/-- `VMCS_CTRL_VMEXIT_MSR_STORE_ADDRESS` -/
def ctrlVmexitMsrStoreAddress : UInt64 := 0x2006

/-- `VMCS_CTRL_VMEXIT_MSR_LOAD_ADDRESS` -/
def ctrlVmexitMsrLoadAddress : UInt64 := 0x2008

/-- `VMCS_CTRL_VMENTRY_MSR_LOAD_ADDRESS` -/
def ctrlVmentryMsrLoadAddress : UInt64 := 0x200A

/-- `VMCS_CTRL_TSC_OFFSET` -/
def ctrlTscOffset : UInt64 := 0x2010

/-- `VMCS_CTRL_EPT_POINTER` -/
def ctrlEptPointer : UInt64 := 0x201A

/-- `VMCS_CTRL_XSS_EXITING_BITMAP` -/
def ctrlXssExitingBitmap : UInt64 := 0x202C

/-- `VMCS_GUEST_VMCS_LINK_POINTER` -/
def guestVmcsLinkPointer : UInt64 := 0x2800

/-- `VMCS_GUEST_DEBUGCTL` -/
def guestDebugctl : UInt64 := 0x2802

/-- `VMCS_GUEST_PAT` -/
def guestPat : UInt64 := 0x2804

/-- `VMCS_GUEST_EFER` -/
def guestEfer : UInt64 := 0x2806

/-- `VMCS_GUEST_PERF_GLOBAL_CTRL` -/
def guestPerfGlobalCtrl : UInt64 := 0x2808

/-- `VMCS_HOST_PAT` -/
def hostPat : UInt64 := 0x2C00

/-- `VMCS_HOST_EFER` -/
def hostEfer : UInt64 := 0x2C02

/-- `VMCS_HOST_PERF_GLOBAL_CTRL` -/
def hostPerfGlobalCtrl : UInt64 := 0x2C04

/-- `VMCS_CTRL_PIN_BASED_VM_EXECUTION_CONTROLS` -/
def ctrlPinBased : UInt64 := 0x4000

/-- `VMCS_CTRL_PROCESSOR_BASED_VM_EXECUTION_CONTROLS` -/
def ctrlProcBased : UInt64 := 0x4002

/-- `VMCS_CTRL_EXCEPTION_BITMAP` -/
def ctrlExceptionBitmap : UInt64 := 0x4004

/-- `VMCS_CTRL_PAGEFAULT_ERROR_CODE_MASK` -/
def ctrlPagefaultErrorCodeMask : UInt64 := 0x4006

/-- `VMCS_CTRL_PAGEFAULT_ERROR_CODE_MATCH` -/
def ctrlPagefaultErrorCodeMatch : UInt64 := 0x4008

/-- `VMCS_CTRL_CR3_TARGET_COUNT` -/
def ctrlCr3TargetCount : UInt64 := 0x400A

/-- `VMCS_CTRL_PRIMARY_VMEXIT_CONTROLS` -/
def ctrlPrimaryVmexit : UInt64 := 0x400C

/-- `VMCS_CTRL_VMEXIT_MSR_STORE_COUNT` -/
def ctrlVmexitMsrStoreCount : UInt64 := 0x400E

/-- `VMCS_CTRL_VMEXIT_MSR_LOAD_COUNT` -/
def ctrlVmexitMsrLoadCount : UInt64 := 0x4010

/-- `VMCS_CTRL_VMENTRY_CONTROLS` -/
def ctrlVmentry : UInt64 := 0x4012

/-- `VMCS_CTRL_VMENTRY_MSR_LOAD_COUNT` -/
def ctrlVmentryMsrLoadCount : UInt64 := 0x4014

/-- `VMCS_CTRL_VMENTRY_INTERRUPTION_INFORMATION_FIELD` -/
def ctrlVmentryInterruptionInformation : UInt64 := 0x4016

/-- `VMCS_CTRL_VMENTRY_EXCEPTION_ERROR_CODE` -/
def ctrlVmentryExceptionErrorCode : UInt64 := 0x4018

/-- `VMCS_CTRL_VMENTRY_INSTRUCTION_LENGTH` -/
def ctrlVmentryInstructionLength : UInt64 := 0x401A

/-- `VMCS_CTRL_SECONDARY_PROCESSOR_BASED_VM_EXECUTION_CONTROLS` -/
def ctrlSecondaryProcBased : UInt64 := 0x401E

/-- `VMCS_GUEST_ES_LIMIT` and the others. -/
def guestLimit (r : SegmentRegister) : UInt64 := 0x4800 + 2 * segmentNumber r

/-- `VMCS_GUEST_GDTR_LIMIT` -/
def guestGdtrLimit : UInt64 := 0x4810

/-- `VMCS_GUEST_IDTR_LIMIT` -/
def guestIdtrLimit : UInt64 := 0x4812

/-- `VMCS_GUEST_ES_ACCESS_RIGHTS` and the others. -/
def guestAccessRights (r : SegmentRegister) : UInt64 := 0x4814 + 2 * segmentNumber r

/-- `VMCS_GUEST_INTERRUPTIBILITY_STATE` -/
def guestInterruptibilityState : UInt64 := 0x4824

/-- `VMCS_GUEST_ACTIVITY_STATE` -/
def guestActivityState : UInt64 := 0x4826

/-- `VMCS_GUEST_SYSENTER_CS` -/
def guestSysenterCs : UInt64 := 0x482A

/-- `VMCS_GUEST_VMX_PREEMPTION_TIMER_VALUE` -/
def guestVmxPreemptionTimerValue : UInt64 := 0x482E

/-- `VMCS_HOST_SYSENTER_CS` -/
def hostSysenterCs : UInt64 := 0x4C00

/-- `VMCS_CTRL_CR0_GUEST_HOST_MASK` -/
def ctrlCr0GuestHostMask : UInt64 := 0x6000

/-- `VMCS_CTRL_CR4_GUEST_HOST_MASK` -/
def ctrlCr4GuestHostMask : UInt64 := 0x6002

/-- `VMCS_CTRL_CR0_READ_SHADOW` -/
def ctrlCr0ReadShadow : UInt64 := 0x6004

/-- `VMCS_CTRL_CR4_READ_SHADOW` -/
def ctrlCr4ReadShadow : UInt64 := 0x6006

/-- `VMCS_CTRL_CR3_TARGET_VALUE_0` -/
def ctrlCr3TargetValue0 : UInt64 := 0x6008

/-- `VMCS_GUEST_CR0` -/
def guestCr0 : UInt64 := 0x6800

/-- `VMCS_GUEST_CR3` -/
def guestCr3 : UInt64 := 0x6802

/-- `VMCS_GUEST_CR4` -/
def guestCr4 : UInt64 := 0x6804

/-- `VMCS_GUEST_ES_BASE` and the others. -/
def guestBase (r : SegmentRegister) : UInt64 := 0x6806 + 2 * segmentNumber r

/-- `VMCS_GUEST_GDTR_BASE` -/
def guestGdtrBase : UInt64 := 0x6816

/-- `VMCS_GUEST_IDTR_BASE` -/
def guestIdtrBase : UInt64 := 0x6818

/-- `VMCS_GUEST_DR7` -/
def guestDr7 : UInt64 := 0x681A

/-- `VMCS_GUEST_RSP` -/
def guestRsp : UInt64 := 0x681C

/-- `VMCS_GUEST_RIP` -/
def guestRip : UInt64 := 0x681E

/-- `VMCS_GUEST_RFLAGS` -/
def guestRflags : UInt64 := 0x6820

/-- `VMCS_GUEST_PENDING_DEBUG_EXCEPTIONS` -/
def guestPendingDebugExceptions : UInt64 := 0x6822

/-- `VMCS_GUEST_SYSENTER_ESP` -/
def guestSysenterEsp : UInt64 := 0x6824

/-- `VMCS_GUEST_SYSENTER_EIP` -/
def guestSysenterEip : UInt64 := 0x6826

/-- `VMCS_HOST_CR0` -/
def hostCr0 : UInt64 := 0x6C00

/-- `VMCS_HOST_CR3` -/
def hostCr3 : UInt64 := 0x6C02

/-- `VMCS_HOST_CR4` -/
def hostCr4 : UInt64 := 0x6C04

/-- `VMCS_HOST_FS_BASE` -/
def hostFsBase : UInt64 := 0x6C06

/-- `VMCS_HOST_GS_BASE` -/
def hostGsBase : UInt64 := 0x6C08

/-- `VMCS_HOST_TR_BASE` -/
def hostTrBase : UInt64 := 0x6C0A

/-- `VMCS_HOST_GDTR_BASE` -/
def hostGdtrBase : UInt64 := 0x6C0C

/-- `VMCS_HOST_IDTR_BASE` -/
def hostIdtrBase : UInt64 := 0x6C0E

/-- `VMCS_HOST_SYSENTER_ESP` -/
def hostSysenterEsp : UInt64 := 0x6C10

/-- `VMCS_HOST_SYSENTER_EIP` -/
def hostSysenterEip : UInt64 := 0x6C12

/-- `VMCS_HOST_RSP` -/
def hostRsp : UInt64 := 0x6C14

/-- `VMCS_HOST_RIP` -/
def hostRip : UInt64 := 0x6C16

/-! ### `vmx_vmwrite` -/

/-- A `vmx_vmwrite`: the encoding of a field and the value for it. -/
abbrev Write : Type := UInt64 × UInt64

/-- A VMCS with some fields written. -/
def withFields (vmcs : UInt64 → UInt64) (writes : List Write) : UInt64 → UInt64 :=
  writes.foldl (fun vmcs write => Function.update vmcs write.1 write.2) vmcs

section
variable (supported : UInt64 → Bool)

/-- `vmx_vmwrite`. `none` is a field that the processor does not have. -/
def vmwrite (vmcs : UInt64 → UInt64) (field value : UInt64) : Option (UInt64 → UInt64) :=
  if supported field then some (Function.update vmcs field value) else none

/-- Writes one after another, up to the first that fails. -/
def writeAll (vmcs : UInt64 → UInt64) : List Write → Option (UInt64 → UInt64)
  | [] => some vmcs
  | (field, value) :: writes => do
    let vmcs ← vmwrite supported vmcs field value
    writeAll vmcs writes

end

/-! ### The controls -/

/-- The flags with some bits set. -/
def flagsOf (bits : List Nat) : UInt64 :=
  bits.foldl (fun flags bit => flags ||| 1 <<< UInt64.ofNat bit) 0

/-- The value that `write_control_field` writes. The low half of a
capability MSR has the bits that must be one, the high half those that
may be. -/
def adjustControls (msrs : Nat → UInt64) (value : UInt64) (capMsr trueCapMsr : Nat) : UInt64 :=
  let cap := if bitFlag (msrs ia32VmxBasic) 55 then msrs trueCapMsr else msrs capMsr
  let allowed0Settings := cap &&& 0xFFFFFFFF
  let allowed1Settings := cap >>> 32
  (value ||| allowed0Settings) &&& allowed1Settings

/-- Bit `nmi_exiting` of the pin-based controls. -/
def nmiExiting : Nat := 3

/-- Bit `virtual_nmi`. -/
def virtualNmi : Nat := 5

/-- Bit `activate_vmx_preemption_timer`. -/
def activateVmxPreemptionTimer : Nat := 6

/-- `write_pin_based_vm_execution_controls`, with `tsc_hiding_enabled`. -/
def writePinBased (msrs : Nat → UInt64) : List Write :=
  [(ctrlPinBased, adjustControls msrs (flagsOf [nmiExiting, virtualNmi, activateVmxPreemptionTimer])
    ia32VmxPinbasedCtls ia32VmxTruePinbasedCtls)]

/-- Bit `use_tsc_offsetting` of the processor-based controls. -/
def useTscOffsetting : Nat := 3

/-- Bit `nmi_window_exiting`. -/
def nmiWindowExiting : Nat := 22

/-- Bit `use_msr_bitmaps`. -/
def useMsrBitmaps : Nat := 28

/-- Bit `activate_secondary_controls`. -/
def activateSecondaryControls : Nat := 31

/-- The bits of `desiredProcBasedCtls2`: `enable_ept`, `enable_rdtscp`,
`enable_vpid`, `enable_invpcid`, `conceal_vmx_from_pt`, `enable_xsaves`
and `enable_user_wait_pause`. -/
def desiredProcBasedCtls2 : List Nat := [1, 3, 5, 12, 19, 20, 26]

/-- `write_processor_based_vm_execution_controls`. -/
def writeProcBased (msrs : Nat → UInt64) : List Write :=
  [(ctrlProcBased,
      adjustControls msrs (flagsOf [useTscOffsetting, useMsrBitmaps, activateSecondaryControls])
        ia32VmxProcbasedCtls ia32VmxTrueProcbasedCtls),
    (ctrlSecondaryProcBased,
      adjustControls msrs (flagsOf desiredProcBasedCtls2) ia32VmxProcbasedCtls2
        ia32VmxProcbasedCtls2)]

/-- The addresses and counts that the writes take from the vCPU and from
`g_hv`. Physical addresses have names of their own. -/
structure VcpuLayout where
  vcpu : UInt64
  hostStack : UInt64
  hostTss : UInt64
  hostGdt : UInt64
  hostIdt : UInt64
  vmexitStub : UInt64
  stealthData : UInt64
  msrEntriesPhysical : UInt64
  msrBitmapPhysical : UInt64
  eptNormalPhysical : UInt64
  hostPml4Physical : UInt64
  systemCr3 : UInt64

/-- Where `msr_store_count` is, behind the three `msr_entries` of
`stealth_data`. -/
def msrStoreCountAddress (stealthData : UInt64) : UInt64 := stealthData + UInt64.ofNat (8 * 6)

/-- Where `msr_load_count` is. -/
def msrLoadCountAddress (stealthData : UInt64) : UInt64 := stealthData + UInt64.ofNat (8 * 7)

/-- `stealth_data.tsc_data` -/
def tscDataAddress (stealthData : UInt64) : UInt64 := stealthData + UInt64.ofNat (8 * 8)

/-- The bits of the VM-exit controls. -/
def exitSaveDebugControls : Nat := 2

/-- Bit `host_address_space_size`. -/
def exitHostAddressSpaceSize : Nat := 9

/-- Bit `load_ia32_perf_global_ctrl` of the VM-exit controls. -/
def exitLoadPerfGlobalCtrl : Nat := 12

/-- Bit `save_ia32_pat`. -/
def exitSavePat : Nat := 18

/-- Bit `load_ia32_pat` of the VM-exit controls. -/
def exitLoadPat : Nat := 19

/-- Bit `save_ia32_efer`. -/
def exitSaveEfer : Nat := 20

/-- Bit `load_ia32_efer` of the VM-exit controls. -/
def exitLoadEfer : Nat := 21

/-- Bit `conceal_vmx_from_pt` of the VM-exit controls. -/
def exitConcealVmxFromPt : Nat := 24

/-- Bit `save_ia32_perf_global_ctl`. -/
def exitSavePerfGlobalCtl : Nat := 30

/-- `write_vmexit_controls`. The count of the entries is read from
`stealth_data`. -/
def writeVmexitControls (msrs : Nat → UInt64) (memory : UInt64 → UInt8) (layout : VcpuLayout) :
    List Write :=
  [(ctrlPrimaryVmexit,
      adjustControls msrs
        (flagsOf [exitSaveDebugControls, exitHostAddressSpaceSize, exitSavePat, exitLoadPat,
          exitSaveEfer, exitLoadEfer, exitSavePerfGlobalCtl, exitLoadPerfGlobalCtrl,
          exitConcealVmxFromPt])
        ia32VmxExitCtls ia32VmxTrueExitCtls),
    (ctrlVmexitMsrStoreCount, loadWord memory (msrStoreCountAddress layout.stealthData)),
    (ctrlVmexitMsrStoreAddress, layout.msrEntriesPhysical),
    -- Nothing is loaded on the way into the host.
    (ctrlVmexitMsrLoadCount, 0),
    (ctrlVmexitMsrLoadAddress, 0)]

/-- Bit `load_debug_controls` of the VM-entry controls. -/
def entryLoadDebugControls : Nat := 2

/-- Bit `ia32e_mode_guest`. -/
def entryIa32eModeGuest : Nat := 9

/-- Bit `load_ia32_perf_global_ctrl` of the VM-entry controls. -/
def entryLoadPerfGlobalCtrl : Nat := 13

/-- Bit `load_ia32_pat` of the VM-entry controls. -/
def entryLoadPat : Nat := 14

/-- Bit `load_ia32_efer` of the VM-entry controls. -/
def entryLoadEfer : Nat := 15

/-- Bit `conceal_vmx_from_pt` of the VM-entry controls. -/
def entryConcealVmxFromPt : Nat := 17

/-- `write_vmentry_controls`. The count of the entries is read from
`stealth_data`. -/
def writeVmentryControls (msrs : Nat → UInt64) (memory : UInt64 → UInt8) (layout : VcpuLayout) :
    List Write :=
  [(ctrlVmentry,
      adjustControls msrs
        (flagsOf [entryLoadDebugControls, entryIa32eModeGuest, entryLoadEfer, entryLoadPat,
          entryLoadPerfGlobalCtrl, entryConcealVmxFromPt])
        ia32VmxEntryCtls ia32VmxTrueEntryCtls),
    (ctrlVmentryMsrLoadCount, loadWord memory (msrLoadCountAddress layout.stealthData)),
    (ctrlVmentryMsrLoadAddress, layout.msrEntriesPhysical)]

/-- `flags` of an EPT pointer: write-back, four levels, and the frame of
the top table. -/
def eptPointer (pml4Physical : UInt64) : UInt64 :=
  let pageWalkLength : UInt64 := 4 - 1
  let pageFrameNumber := (pml4Physical >>> 12) &&& 0xFFFFFFFFF
  pageFrameNumber <<< 12 ||| pageWalkLength <<< 3 ||| 6

/-- `write_other_control_fields`, but for the MSR bitmap and the EPT
themselves. -/
def writeOtherControlFields (s : System) (layout : VcpuLayout) : List Write :=
  -- `page_fault`
  [(ctrlExceptionBitmap, flagsOf [14]),
    (ctrlPagefaultErrorCodeMask, 0),
    (ctrlPagefaultErrorCodeMatch, 0xFFFFFFFFFFFFFFFF),
    (ctrlTscOffset, 0),
    (ctrlCr4GuestHostMask,
      s.readMsr ia32VmxCr4Fixed0 ||| ~~~s.readMsr ia32VmxCr4Fixed1 ||| cr4VmxEnableFlag),
    (ctrlCr0GuestHostMask, s.readMsr ia32VmxCr0Fixed0 ||| ~~~s.readMsr ia32VmxCr0Fixed1),
    (ctrlCr4ReadShadow, s.cr4 &&& ~~~cr4VmxEnableFlag),
    (ctrlCr0ReadShadow, s.cr0),
    (ctrlCr3TargetCount, 1),
    (ctrlCr3TargetValue0, layout.systemCr3),
    (ctrlMsrBitmapAddress, layout.msrBitmapPhysical),
    (ctrlVirtualProcessorIdentifier, 1),
    (ctrlXssExitingBitmap, 0),
    (ctrlVmentryInterruptionInformation, 0),
    (ctrlVmentryExceptionErrorCode, 0),
    (ctrlVmentryInstructionLength, 0),
    (ctrlEptPointer, eptPointer layout.eptNormalPhysical)]

/-! ### The guest -/

/-- The segment registers in the order of the source. -/
def segmentRegisters : List SegmentRegister := [.cs, .ss, .ds, .es, .fs, .gs, .ldtr, .tr]

/-- The base that is written for a segment register. -/
def guestSegmentBase (s : System) (memory : UInt64 → UInt8) (r : SegmentRegister) : UInt64 :=
  match r with
  | .fs => s.readMsr ia32FsBase
  | .gs => s.readMsr ia32GsBase
  | r => baseAddress memory s.gdtr (s.segment r).selector

/-- The writes of `write_guest_state_fields`, without the preemption
timer's. -/
def guestStateFields (s : System) (memory : UInt64 → UInt8) (rflags : UInt64) : List Write :=
  -- RSP and RIP are set by the launch stub just before the launch.
  [(guestCr0, s.cr0), (guestCr3, s.cr3), (guestCr4, s.cr4), (guestDr7, s.dr7), (guestRsp, 0),
    (guestRip, 0), (guestRflags, rflags)] ++
  segmentRegisters.map (fun r =>
    (guestSelector r, UInt64.ofBitVec ((s.segment r).selector.setWidth 64))) ++
  segmentRegisters.map (fun r => (guestBase r, guestSegmentBase s memory r)) ++
  segmentRegisters.map (fun r =>
    (guestLimit r,
      UInt64.ofBitVec ((segmentLimit memory s.gdtr (s.segment r).selector).setWidth 64))) ++
  segmentRegisters.map (fun r =>
    (guestAccessRights r,
      UInt64.ofBitVec ((accessRights memory s.gdtr (s.segment r).selector).setWidth 64))) ++
  [(guestGdtrBase, s.gdtr.base), (guestGdtrLimit, UInt64.ofBitVec (s.gdtr.limit.setWidth 64)),
    (guestIdtrBase, s.idtr.base), (guestIdtrLimit, UInt64.ofBitVec (s.idtr.limit.setWidth 64)),
    (guestDebugctl, s.readMsr ia32Debugctl), (guestSysenterCs, s.readMsr ia32SysenterCs),
    (guestSysenterEsp, s.readMsr ia32SysenterEsp), (guestSysenterEip, s.readMsr ia32SysenterEip),
    (guestPerfGlobalCtrl, s.readMsr ia32PerfGlobalCtrl), (guestPat, s.readMsr ia32Pat),
    (guestEfer, s.readMsr ia32Efer), (guestActivityState, 0), (guestInterruptibilityState, 0),
    (guestPendingDebugExceptions, 0), (guestVmcsLinkPointer, 0xFFFFFFFFFFFFFFFF)]

/-- `write_guest_state_fields`. Without the preemption timer there is no
way on. -/
def writeGuestStateFields (supported : UInt64 → Bool) (s : System) (memory : UInt64 → UInt8)
    (rflags : UInt64) (vmcs : UInt64 → UInt64) : Option (UInt64 → UInt64) := do
  let vmcs ← writeAll supported vmcs (guestStateFields s memory rflags)
  if bitFlag (vmcs ctrlPinBased) activateVmxPreemptionTimer then
    vmwrite supported vmcs guestVmxPreemptionTimerValue 0xFFFFFFFF
  else none

/-! ### The host -/

/-- `vcpu::host_stack_size` -/
def hostStackSize : UInt64 := 0x8000

/-- `host_rsp` -/
def hostStackTop (layout : VcpuLayout) : UInt64 := (layout.hostStack + hostStackSize) &&& ~~~0xF

/-- `efer.flags`: `syscall_enable`, `ia32e_mode_enable`,
`ia32e_mode_active` and `execute_disable_bit_enable`. -/
def hostEferFlags : UInt64 := flagsOf [0, 8, 10, 11]

/-- `pat.flags`, by the eight types from `pa0` on. -/
def hostPatFlags : UInt64 :=
  ([6, 4, 7, 0, 6, 4, 7, 0] : List UInt64).foldr (fun type flags => flags <<< 8 ||| type) 0

/-- `write_host_state_fields` -/
def writeHostStateFields (s : System) (layout : VcpuLayout) : List Write :=
  [(hostCr0, s.cr0),
    (hostCr3, ((layout.hostPml4Physical >>> 12) &&& 0xFFFFFFFFF) <<< 12),
    (hostCr4, s.cr4),
    (hostRsp, hostStackTop layout),
    (hostRip, layout.vmexitStub),
    (hostSelector .cs, UInt64.ofBitVec (hostCs.setWidth 64)),
    (hostSelector .ss, UInt64.ofBitVec (hostSs.setWidth 64)),
    (hostSelector .ds, 0),
    (hostSelector .es, 0),
    (hostSelector .fs, 0),
    (hostSelector .gs, 0),
    (hostSelector .tr, UInt64.ofBitVec (hostTr.setWidth 64)),
    (hostFsBase, layout.vcpu),
    (hostGsBase, 0),
    (hostTrBase, layout.hostTss),
    (hostGdtrBase, layout.hostGdt),
    (hostIdtrBase, layout.hostIdt),
    (hostSysenterCs, 0),
    (hostSysenterEsp, 0),
    (hostSysenterEip, 0),
    (hostPerfGlobalCtrl, 0),
    (hostEfer, hostEferFlags),
    (hostPat, hostPatFlags),
    -- The source writes this field a second time.
    (hostPerfGlobalCtrl, 0)]

/-- `write_control_fields` -/
def writeControlFields (supported : UInt64 → Bool) (s : System) (memory : UInt64 → UInt8)
    (rflags : UInt64) (layout : VcpuLayout) (vmcs : UInt64 → UInt64) :
    Option (UInt64 → UInt64) := do
  let vmcs ← writeAll supported vmcs (writePinBased s.msrs)
  let vmcs ← writeAll supported vmcs (writeProcBased s.msrs)
  let vmcs ← writeAll supported vmcs (writeVmexitControls s.msrs memory layout)
  let vmcs ← writeAll supported vmcs (writeVmentryControls s.msrs memory layout)
  let vmcs ← writeAll supported vmcs (writeOtherControlFields s layout)
  let vmcs ← writeGuestStateFields supported s memory rflags vmcs
  writeAll supported vmcs (writeHostStateFields s layout)

/-! ### NMI windows -/

/-- `enable_nmi_window_exiting` and `disable_nmi_window_exiting`, by the
bit that they ask for. -/
def setNmiWindowExiting (msrs : Nat → UInt64) (vmcs : UInt64 → UInt64) (exit : Bool) :
    UInt64 → UInt64 :=
  let procBased := vmcs ctrlProcBased
  let flags := if exit then procBased ||| flagsOf [nmiWindowExiting]
    else procBased &&& ~~~flagsOf [nmiWindowExiting]
  Function.update vmcs ctrlProcBased
    (adjustControls msrs flags ia32VmxProcbasedCtls ia32VmxTrueProcbasedCtls)

end Revhv.Vmcs
