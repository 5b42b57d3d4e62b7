import Revhv.Km.Assembly
import Revhv.Km.Vmcs

/-!
# `Revhv.Km.Launch`: a core goes into VMX operation and out of it

`virtualize` and `devirtualize` (`revhv-km/vcpu.cpp`), with `check_vmx_support`
and `enable_vmx` (`revhv-km/vmx.cpp`), `prepare_msr_entries`
(`revhv-km/stealth.cpp`), `vmx_vmlaunch_stub` (`revhv-km/vmlaunch_stub.asm`) and
`switch_host_cs` (`revhv-km/utils.asm`). Beside them stands what the processor
loads at a VM entry and at a VM exit, and what it saves, in the VMCS and in the
two areas for MSRs.

Of memory, only the OS's is modelled and two parts of the vCPU: `stealth_data`,
and what `devirtualize` uses as a GDT. The processor reaches the areas for MSRs
by physical addresses, and `Core.linear` says where they are in the address
space.
-/

set_option autoImplicit false

namespace Revhv.Launch

open Revhv.Asm Revhv.Memory Revhv.Segment Revhv.Vmcs
open Revhv.Lib (bytesAt)
open Revhv.Lib.StackFrame

/-- The registers of a core, and the memory under it. `tsc` has what the
next reads of the TSC give, and `linear` is where `memory` has what is
at a physical address. -/
structure Core where
  gpr : Gpr → UInt64
  sys : SysReg → UInt64
  xmm : Fin 16 → BitVec 128
  mxcsr : UInt32
  rflags : UInt64
  memory : UInt64 → UInt8
  linear : UInt64 → UInt64
  tsc : Nat → UInt64
  system : System

/-- The core as the assembly files see it. -/
def Core.cpu (c : Core) (vmcs : UInt64 → UInt64) : Cpu where
  gpr := c.gpr
  sys := c.sys
  xmm := c.xmm
  mxcsr := c.mxcsr
  rflags := c.rflags
  cs := UInt64.ofBitVec ((c.system.segment .cs).selector.setWidth 64)
  ss := UInt64.ofBitVec ((c.system.segment .ss).selector.setWidth 64)
  fsBase := (c.system.segment .fs).base
  memory := c.memory
  vmcs
  tsc := c.tsc

/-- The core behind instructions that leave the system registers alone. -/
def Core.withCpu (c : Core) (s : Cpu) : Core :=
  { c with
    gpr := s.gpr
    sys := s.sys
    xmm := s.xmm
    mxcsr := s.mxcsr
    rflags := s.rflags
    memory := s.memory
    tsc := s.tsc }

/-! ### `virtualize` -/

/-- What the processor and the kernel answer. -/
structure Processor where
  /-- `virtual_machine_extensions` of CPUID. -/
  virtualMachineExtensions : Bool
  /-- VMXON, VMCLEAR and VMPTRLD succeed. -/
  vmxon : Bool
  vmclear : Bool
  vmptrld : Bool
  /-- The fields of a VMCS. -/
  supported : UInt64 → Bool
  /-- The VMCS behind VMCLEAR. -/
  cleared : UInt64 → UInt64

/-- `IA32_FEATURE_CONTROL` -/
def ia32FeatureControl : Nat := 0x3A

/-- `check_vmx_support` -/
def checkVmxSupport (p : Processor) (s : System) : Bool :=
  p.virtualMachineExtensions && bitFlag (s.readMsr ia32FeatureControl) 0 &&
    bitFlag (s.readMsr ia32FeatureControl) 2

/-- `restore_context`, without `dummy_gdt`. -/
structure RestoreContext where
  gdtr : TableRegister
  idtr : TableRegister
  cr3 : UInt64
  cr4 : UInt64
  cr0 : UInt64
  selector : SegmentRegister → BitVec 16
  fsBase : UInt64
  gsBase : UInt64
  kernelGsBase : UInt64
  efer : UInt64
  pat : UInt64
  sysenterCs : UInt64
  sysenterEsp : UInt64
  sysenterEip : UInt64

/-- The assignments to `restore_context` in `virtualize`. -/
def captureRestoreContext (s : System) : RestoreContext where
  gdtr := s.gdtr
  idtr := s.idtr
  cr3 := s.cr3
  cr4 := s.cr4
  cr0 := s.cr0
  selector r := (s.segment r).selector
  fsBase := s.readMsr ia32FsBase
  gsBase := s.readMsr ia32GsBase
  kernelGsBase := s.readMsr ia32KernelGsBase
  efer := s.readMsr ia32Efer
  pat := s.readMsr ia32Pat
  sysenterCs := s.readMsr ia32SysenterCs
  sysenterEsp := s.readMsr ia32SysenterEsp
  sysenterEip := s.readMsr ia32SysenterEip

/-- The system registers behind `enable_vmx`. -/
def enableVmxSystem (s : System) : System :=
  { s with
    cr4 := (s.cr4 ||| cr4VmxEnableFlag ||| s.readMsr ia32VmxCr4Fixed0) &&&
      s.readMsr ia32VmxCr4Fixed1
    cr0 := (s.cr0 ||| s.readMsr ia32VmxCr0Fixed0) &&& s.readMsr ia32VmxCr0Fixed1 }

/-- `enable_vmx`. It ends with STI, whatever IF was. -/
def enableVmx (c : Core) : Core :=
  { c with
    rflags := c.rflags ||| 0x200
    system := enableVmxSystem c.system }

/-! ### `prepare_msr_entries` -/

/-- `IA32_TIME_STAMP_COUNTER` -/
def ia32TimeStampCounter : Nat := 0x10

/-- `IA32_MPERF` -/
def ia32Mperf : Nat := 0xE7

/-- `IA32_APERF` -/
def ia32Aperf : Nat := 0xE8

/-- RDMSR. Each read of the TSC gives the next value of it. -/
def Core.rdmsr (c : Core) (msr : Nat) : UInt64 × Core :=
  if msr = ia32TimeStampCounter then (c.tsc 0, { c with tsc := fun k => c.tsc (k + 1) })
  else (c.system.readMsr msr, c)

/-- Where an entry has `msr_index`, with `reserved` in the upper half of
the word. -/
def msrIndexAddress (entries : UInt64) (entryIdx : Nat) : UInt64 :=
  entries + UInt64.ofNat (8 * (2 * entryIdx))

/-- Where an entry has `msr_data`. -/
def msrDataAddress (entries : UInt64) (entryIdx : Nat) : UInt64 :=
  entries + UInt64.ofNat (8 * (2 * entryIdx + 1))

/-- `add_msr_entry` -/
def addMsrEntry (data : UInt64) (c : Core) (msr entryIdx : Nat) : Core :=
  let c := { c with
    memory := storeWord c.memory (msrIndexAddress data entryIdx) (UInt64.ofNat msr) }
  let value := c.rdmsr msr
  { value.2 with memory := storeWord value.2.memory (msrDataAddress data entryIdx) value.1 }

/-- `max_msr_entries` -/
def maxMsrEntries : Nat := 3

/-- `sizeof(stealth_data)` -/
def stealthDataSize : Nat := 112

/-- `prepare_msr_entries`. The TSC is the last entry, and the count for
loads leaves it out. -/
def prepareMsrEntries (data : UInt64) (c : Core) : Core :=
  let c := { c with memory := store c.memory data (List.replicate stealthDataSize 0) }
  let c := addMsrEntry data c ia32Mperf 0
  let c := addMsrEntry data c ia32Aperf 1
  let c := addMsrEntry data c ia32TimeStampCounter 2
  let memory := storeWord c.memory (msrStoreCountAddress data) (UInt64.ofNat maxMsrEntries)
  { c with
    memory := storeWord memory (msrLoadCountAddress data) (UInt64.ofNat (maxMsrEntries - 1)) }

/-- `virtualize` up to VMLAUNCH: the `restore_context`, the core and the
VMCS. `none` is `false`. -/
def virtualize (p : Processor) (layout : VcpuLayout) (c : Core) :
    Option (RestoreContext × Core × (UInt64 → UInt64)) := do
  if !checkVmxSupport p c.system then none
  else
    let restoreContext := captureRestoreContext c.system
    let c := enableVmx c
    if !p.vmxon then none
    else
      let c := prepareMsrEntries layout.stealthData c
      if !p.vmclear then none
      else if !p.vmptrld then none
      else
        let vmcs ← writeControlFields p.supported c.system c.memory c.rflags layout p.cleared
        some (restoreContext, c, vmcs)

/-- The labels of the assembly files. -/
inductive Label where
  | successfulLaunch
  | csDone
  deriving DecidableEq

/-- `vmx_vmlaunch_stub`, up to VMLAUNCH. -/
def vmlaunchStub : List (Instr Label) :=
  [.movImm .rdx 0x681E, .lea .rax .successfulLaunch, .vmwrite .rdx .rax,
    .movImm .rdx 0x681C, .mov .rax .rsp, .vmwrite .rdx .rax, .vmlaunch]

/-- `vmx_vmlaunch_stub` behind a VMLAUNCH that fails. -/
def failedLaunch : List (Instr Label) :=
  [.pushfq, .pop .rax, .store .rcx 0 .rax, .alu .xor .rax (.reg .rax), .ret]

/-- `vmx_vmlaunch_stub` from `successful_launch` on, which is run in the
guest. -/
def successfulLaunch : List (Instr Label) := [.movImm .rax 1, .ret]

/-! ### VM entries and VM exits -/

/-- A bit of a field. -/
def fieldBit (vmcs : UInt64 → UInt64) (field : UInt64) (bit : Nat) : Bool :=
  bitFlag (vmcs field) bit

/-- The bits of the VM-entry controls that concern MSRs. -/
def entryControls (vmcs : UInt64 → UInt64) : VmentryControls where
  loadDebugControls := fieldBit vmcs ctrlVmentry entryLoadDebugControls
  loadIa32Efer := fieldBit vmcs ctrlVmentry entryLoadEfer
  loadIa32Pat := fieldBit vmcs ctrlVmentry entryLoadPat
  loadIa32PerfGlobalCtrl := fieldBit vmcs ctrlVmentry entryLoadPerfGlobalCtrl

/-- The bits of the VM-exit controls that concern MSRs. -/
def exitControls (vmcs : UInt64 → UInt64) : VmexitControls where
  saveDebugControls := fieldBit vmcs ctrlPrimaryVmexit exitSaveDebugControls
  saveIa32Pat := fieldBit vmcs ctrlPrimaryVmexit exitSavePat
  loadIa32Pat := fieldBit vmcs ctrlPrimaryVmexit exitLoadPat
  saveIa32Efer := fieldBit vmcs ctrlPrimaryVmexit exitSaveEfer
  loadIa32Efer := fieldBit vmcs ctrlPrimaryVmexit exitLoadEfer
  saveIa32PerfGlobalCtl := fieldBit vmcs ctrlPrimaryVmexit exitSavePerfGlobalCtl
  loadIa32PerfGlobalCtrl := fieldBit vmcs ctrlPrimaryVmexit exitLoadPerfGlobalCtrl

/-- The guest field of an MSR. -/
def guestMsrField (msr : Nat) : UInt64 :=
  if msr = ia32Pat then guestPat
  else if msr = ia32Efer then guestEfer
  else if msr = ia32PerfGlobalCtrl then guestPerfGlobalCtrl
  else if msr = ia32Debugctl then guestDebugctl
  else if msr = ia32SysenterCs then guestSysenterCs
  else if msr = ia32SysenterEsp then guestSysenterEsp
  else guestSysenterEip

/-- The value that an exit loads for an MSR. -/
def hostMsrValue (vmcs : UInt64 → UInt64) (msr : Nat) : UInt64 :=
  if msr = ia32Pat then vmcs hostPat
  else if msr = ia32Efer then vmcs hostEfer
  else if msr = ia32PerfGlobalCtrl then vmcs hostPerfGlobalCtrl
  else if msr = ia32SysenterCs then vmcs hostSysenterCs
  else if msr = ia32SysenterEsp then vmcs hostSysenterEsp
  else if msr = ia32SysenterEip then vmcs hostSysenterEip
  else 0

/-- ET, NW, CD and the reserved bits of CR0, which exits and entries
leave alone. -/
def cr0Kept : UInt64 := 0x7FFAFFD0

/-- CR0 behind an exit or an entry with a field for it. -/
def loadCr0 (cr0 field : UInt64) : UInt64 := (cr0 &&& cr0Kept) ||| (field &&& ~~~cr0Kept)

/-- The segment register in the guest fields. -/
def guestRegister (vmcs : UInt64 → UInt64) (r : SegmentRegister) : Register where
  selector := (vmcs (guestSelector r)).toBitVec.setWidth 16
  base := vmcs (guestBase r)
  limit := (vmcs (guestLimit r)).toBitVec.setWidth 32
  accessRights := (vmcs (guestAccessRights r)).toBitVec.setWidth 32

/-- The system registers behind a VM entry. -/
def entrySystem (vmcs : UInt64 → UInt64) (s : System) : System where
  cr0 := loadCr0 s.cr0 (vmcs guestCr0)
  cr3 := vmcs guestCr3
  cr4 := vmcs guestCr4
  dr7 := if (entryControls vmcs).loadDebugControls then vmcs guestDr7 else s.dr7
  segment := guestRegister vmcs
  gdtr := ⟨vmcs guestGdtrBase, (vmcs guestGdtrLimit).toBitVec.setWidth 16⟩
  idtr := ⟨vmcs guestIdtrBase, (vmcs guestIdtrLimit).toBitVec.setWidth 16⟩
  msrs msr := if (entryControls vmcs).loads msr then vmcs (guestMsrField msr) else s.msrs msr

/-- An MSR that is loaded from an entry of an area. -/
def loadMsr (memory : UInt64 → UInt8) (entries : UInt64) (s : System) (entryIdx : Nat) : System :=
  s.writeMsr ((loadWord memory (msrIndexAddress entries entryIdx)).toNat % 2 ^ 32)
    (loadWord memory (msrDataAddress entries entryIdx))

/-- The MSRs that are loaded from an area with so many entries. -/
def loadMsrs (memory : UInt64 → UInt8) (entries count : UInt64) (s : System) : System :=
  (List.range count.toNat).foldl (loadMsr memory entries) s

/-- The guest behind a VM entry, before an event is injected. The MSRs
in the area for entries are loaded last. Its RIP is in the VMCS. -/
def vmentry (vmcs : UInt64 → UInt64) (c : Core) : Core :=
  { c with
    gpr := Function.update c.gpr .rsp (vmcs guestRsp)
    rflags := vmcs guestRflags
    system := loadMsrs c.memory (c.linear (vmcs ctrlVmentryMsrLoadAddress))
      (vmcs ctrlVmentryMsrLoadCount) (entrySystem vmcs c.system) }

/-- The MSRs with a guest field, and whether an exit saves them there. -/
def savedMsrs (vmcs : UInt64 → UInt64) (s : System) : List Write :=
  (switchedMsrs.filter (exitControls vmcs).saves).map fun msr => (guestMsrField msr, s.msrs msr)

/-- The type of a field, bits 11:10 of its encoding: 0 for controls, 1
for the exit information, 2 for the guest and 3 for the host. -/
def fieldType (field : UInt64) : UInt64 := field >>> 10 &&& 3

/-- The guest fields with a register in `Core`. -/
def registerFields : List UInt64 :=
  [guestCr0, guestCr3, guestCr4, guestRsp, guestRip, guestRflags, guestDr7] ++
    segmentRegisters.map guestSelector ++ segmentRegisters.map guestBase ++
      segmentRegisters.map guestLimit ++ segmentRegisters.map guestAccessRights ++
        [guestGdtrBase, guestGdtrLimit, guestIdtrBase, guestIdtrLimit] ++
          switchedMsrs.map guestMsrField

/-- What an exit writes to the VMCS and a `Core` does not have: RIP, the
guest's state besides its registers, and the exit information. `others`
is for the exit information, and for the guest fields of features that
the code does not use. -/
structure ExitInfo where
  rip : UInt64
  activityState : UInt64
  interruptibilityState : UInt64
  pendingDebugExceptions : UInt64
  others : List Write
  type : ∀ write ∈ others,
    fieldType write.1 = 1 ∨ fieldType write.1 = 2 ∧ write.1 ∉ registerFields

/-- The fields of the guest that an exit writes. The valid bit of the
event that the entry injected is cleared. -/
def savedFields (vmcs : UInt64 → UInt64) (info : ExitInfo) (c : Core) : List Write :=
  let s := c.system
  [(guestCr0, s.cr0), (guestCr3, s.cr3), (guestCr4, s.cr4), (guestRsp, c.gpr .rsp),
    (guestRip, info.rip), (guestRflags, c.rflags)] ++
  (if (exitControls vmcs).saveDebugControls then [(guestDr7, s.dr7)] else []) ++
  segmentRegisters.map (fun r =>
    (guestSelector r, UInt64.ofBitVec ((s.segment r).selector.setWidth 64))) ++
  segmentRegisters.map (fun r => (guestBase r, (s.segment r).base)) ++
  segmentRegisters.map (fun r =>
    (guestLimit r, UInt64.ofBitVec ((s.segment r).limit.setWidth 64))) ++
  segmentRegisters.map (fun r =>
    (guestAccessRights r, UInt64.ofBitVec ((s.segment r).accessRights.setWidth 64))) ++
  [(guestGdtrBase, s.gdtr.base), (guestGdtrLimit, UInt64.ofBitVec (s.gdtr.limit.setWidth 64)),
    (guestIdtrBase, s.idtr.base), (guestIdtrLimit, UInt64.ofBitVec (s.idtr.limit.setWidth 64))] ++
  savedMsrs vmcs s ++
  [(guestActivityState, info.activityState),
    (guestInterruptibilityState, info.interruptibilityState),
    (guestPendingDebugExceptions, info.pendingDebugExceptions),
    (ctrlVmentryInterruptionInformation,
      vmcs ctrlVmentryInterruptionInformation &&& ~~~((1 : UInt64) <<< 31))]

/-- The selector of a host field. -/
def hostSelectorValue (vmcs : UInt64 → UInt64) (r : SegmentRegister) : BitVec 16 :=
  (vmcs (hostSelector r)).toBitVec.setWidth 16

/-- The segment registers behind a VM exit. -/
def hostRegister (vmcs : UInt64 → UInt64) (r : SegmentRegister) : Register :=
  match r with
  | .cs => ⟨hostSelectorValue vmcs .cs, 0, 0xFFFFFFFF, 0xA09B⟩
  | .tr => ⟨hostSelectorValue vmcs .tr, vmcs hostTrBase, 0x67, 0x8B⟩
  | .ldtr => .null 0
  | .fs => { dataRegister .fs with base := vmcs hostFsBase }
  | .gs => { dataRegister .gs with base := vmcs hostGsBase }
  | r => dataRegister r
where
  /-- A data segment, unusable with a null selector. -/
  dataRegister (r : SegmentRegister) : Register :=
    if hostSelectorValue vmcs r = 0 then .null 0
    else ⟨hostSelectorValue vmcs r, 0, 0xFFFFFFFF, 0xC093⟩

/-- The system registers behind a VM exit. -/
def exitSystem (vmcs : UInt64 → UInt64) (s : System) : System where
  cr0 := loadCr0 s.cr0 (vmcs hostCr0)
  cr3 := vmcs hostCr3
  cr4 := vmcs hostCr4
  dr7 := 0x400
  segment := hostRegister vmcs
  gdtr := ⟨vmcs hostGdtrBase, 0xFFFF⟩
  idtr := ⟨vmcs hostIdtrBase, 0xFFFF⟩
  msrs msr := if (exitControls vmcs).loads msr then hostMsrValue vmcs msr else s.msrs msr

/-- An MSR that is stored in an entry of an area. -/
def storeMsr (entries : UInt64) (c : Core) (entryIdx : Nat) : Core :=
  let value := c.rdmsr ((loadWord c.memory (msrIndexAddress entries entryIdx)).toNat % 2 ^ 32)
  { value.2 with memory := storeWord value.2.memory (msrDataAddress entries entryIdx) value.1 }

/-- The MSRs that are stored in an area with so many entries. -/
def storeMsrs (entries count : UInt64) (c : Core) : Core :=
  (List.range count.toNat).foldl (storeMsr entries) c

/-- A VM exit of the guest: the VMCS, and the host at its entry point.
The guest's state is saved in the VMCS and in the area for stores, and
then the host's is loaded. The entries have their reserved halves clear,
and name MSRs that may be stored and loaded. -/
def vmexit (vmcs : UInt64 → UInt64) (info : ExitInfo) (c : Core) : (UInt64 → UInt64) × Core :=
  let saved := withFields (withFields vmcs info.others) (savedFields vmcs info c)
  let c := storeMsrs (c.linear (vmcs ctrlVmexitMsrStoreAddress)) (vmcs ctrlVmexitMsrStoreCount) c
  (saved,
    { c with
      gpr := Function.update c.gpr .rsp (vmcs hostRsp)
      rflags := 2
      system := loadMsrs c.memory (c.linear (vmcs ctrlVmexitMsrLoadAddress))
        (vmcs ctrlVmexitMsrLoadCount) (exitSystem vmcs c.system) })

/-- The fields that the exit handlers write. -/
def handlerFields : List UInt64 :=
  [guestRip, guestInterruptibilityState, guestPendingDebugExceptions, ctrlCr0ReadShadow, guestCr0,
    ctrlCr4ReadShadow, guestCr4, ctrlTscOffset, ctrlVmentryInterruptionInformation,
    ctrlVmentryExceptionErrorCode, guestVmxPreemptionTimerValue, ctrlEptPointer, ctrlProcBased]

/-- An exit: the guest with what the core does not have of it, and what
the handler writes to the VMCS. -/
structure Handled where
  info : ExitInfo
  guest : Core
  writes : List Write

/-- The VMCS behind some exits. -/
def afterExits (vmcs : UInt64 → UInt64) (exits : List Handled) : UInt64 → UInt64 :=
  exits.foldl (fun vmcs e => withFields (vmexit vmcs e.info e.guest).1 e.writes) vmcs

/-- CR4 as the guest reads it. -/
def guestReadCr4 (vmcs : UInt64 → UInt64) (c : Core) : UInt64 :=
  (vmcs ctrlCr4ReadShadow &&& vmcs ctrlCr4GuestHostMask) |||
    (c.system.cr4 &&& ~~~vmcs ctrlCr4GuestHostMask)

/-- CR0 as the guest reads it. -/
def guestReadCr0 (vmcs : UInt64 → UInt64) (c : Core) : UInt64 :=
  (vmcs ctrlCr0ReadShadow &&& vmcs ctrlCr0GuestHostMask) |||
    (c.system.cr0 &&& ~~~vmcs ctrlCr0GuestHostMask)

/-! ### `devirtualize` -/

/-- `sizeof(dummy_gdt)` -/
def dummyGdtSize : Nat := 0xFFFF

/-- `gdt_copy_size` -/
def gdtCopySize (gdtr : TableRegister) : Nat :=
  if gdtr.limit.toNat + 1 < dummyGdtSize then gdtr.limit.toNat + 1 else dummyGdtSize

/-- The bytes of `dummy_gdt` before LTR: a copy of the GDT, which is
elsewhere, in which the task is available. -/
def fillDummyGdt (restoreContext : RestoreContext) (dummyGdt : UInt64)
    (memory : UInt64 → UInt8) : UInt64 → UInt8 :=
  let size := gdtCopySize restoreContext.gdtr
  let memory := store memory dummyGdt (bytesAt memory restoreContext.gdtr.base size)
  let trOffset := 8 * (selectorIndex (restoreContext.selector .tr)).toNat
  if trOffset + 16 ≤ size then
    let trDesc := Descriptor.ofWord (loadWord memory (dummyGdt + UInt64.ofNat trOffset))
    storeWord memory (dummyGdt + UInt64.ofNat trOffset)
      { trDesc with type := typeTssAvailable }.toWord
  else memory

/-- `write_ds`, `write_es`, `write_fs` and `write_gs`, one after
another. -/
def writeSegments (restoreContext : RestoreContext) :
    List SegmentRegister → (UInt64 → UInt8) × System → Option ((UInt64 → UInt8) × System)
  | [], s => some s
  | r :: rs, (memory, s) => do
    let (memory, register) ← movToSegment memory s.gdtr (restoreContext.selector r)
    writeSegments restoreContext rs
      (memory, { s with segment := Function.update s.segment r register })

/-- `devirtualize` behind VMXOFF, up to the IDT. -/
def restoreRegisters (restoreContext : RestoreContext) (s : System) : System :=
  let s := { s with cr3 := restoreContext.cr3 }
  let s := s.writeMsr ia32Pat restoreContext.pat
  -- The flush of the TLB: PGE is cleared for a moment.
  let cr4 := s.cr4
  let s := { s with cr4 := cr4 &&& ~~~((1 : UInt64) <<< 7) }
  let s := { s with cr4 := cr4 }
  let s := s.writeMsr ia32Efer restoreContext.efer
  let s := s.writeMsr ia32SysenterCs restoreContext.sysenterCs
  let s := s.writeMsr ia32SysenterEsp restoreContext.sysenterEsp
  let s := s.writeMsr ia32SysenterEip restoreContext.sysenterEip
  { s with idtr := restoreContext.idtr }

/-- The last three lines of `devirtualize`. -/
def restoreBases (restoreContext : RestoreContext) (s : System) : System :=
  let s := s.writeMsr ia32FsBase restoreContext.fsBase
  let s := s.writeMsr ia32GsBase restoreContext.gsBase
  s.writeMsr ia32KernelGsBase restoreContext.kernelGsBase

/-- `devirtualize` behind VMXOFF. `none` is a fault. -/
def devirtualize (restoreContext : RestoreContext) (dummyGdt : UInt64) (c : Core) :
    Option Core := do
  let s := restoreRegisters restoreContext c.system
  let memory := fillDummyGdt restoreContext dummyGdt c.memory
  -- The task register is loaded from the copy, whose TSS is marked available,
  -- then the OS's table returns.
  let dummyGdtr : TableRegister :=
    ⟨dummyGdt, BitVec.ofNat 16 (gdtCopySize restoreContext.gdtr - 1)⟩
  let (memory, tr) ← ltr memory dummyGdtr (restoreContext.selector .tr)
  let s := { s with
    segment := Function.update s.segment .tr tr
    gdtr := restoreContext.gdtr }
  let (memory, s) ← writeSegments restoreContext [.ds, .es, .fs, .gs] (memory, s)
  some { c with memory, system := restoreBases restoreContext s }

/-- `switch_host_cs`, up to IRETQ. -/
def switchHostCs : List (Instr Label) :=
  [.pushfq, .pop .rax, .pushImm 0, .leaMem .r8 .rsp 8, .push .r8, .push .rax,
    .alu .and .rcx (.imm 0xFFFF), .push .rcx, .lea .rax .csDone, .push .rax, .iretq]

end Revhv.Launch
