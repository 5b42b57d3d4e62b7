import Mathlib.Logic.Function.Basic
import Revhv.Lib.StackFrame

/-!
# `Revhv.Km.Segment`: segment registers and descriptor tables

`base_address` and `access_rights` (`revhv-km/utils.inl`), which describe a
segment register to the VMCS by its descriptor, and `gdt::initialize`
(`revhv-km/gdt.cpp`). Beside them stands what the processor itself makes of a
descriptor when it loads a segment register.

Selectors of an LDT are not modelled: the processor is said to refuse them.
-/

set_option autoImplicit false

namespace Revhv.Segment

open Revhv.Lib.StackFrame

/-! ### Selectors and descriptors -/

/-- The segment registers. -/
inductive SegmentRegister where
  | es | cs | ss | ds | fs | gs | ldtr | tr
  deriving DecidableEq

/-- `segment_descriptor_register_64` -/
structure TableRegister where
  base : UInt64
  limit : BitVec 16
  deriving DecidableEq

/-- `index` of a `segment_selector`. -/
def selectorIndex (selector : BitVec 16) : BitVec 13 := selector.extractLsb' 3 13

/-- `table` of a `segment_selector`: one for the LDT. -/
def selectorTable (selector : BitVec 16) : BitVec 1 := selector.extractLsb' 2 1

/-- `request_privilege_level` of a `segment_selector`. -/
def selectorPrivilege (selector : BitVec 16) : BitVec 2 := selector.extractLsb' 0 2

/-- `segment_descriptor_32` -/
structure Descriptor where
  segmentLimitLow : BitVec 16
  baseAddressLow : BitVec 16
  baseAddressMiddle : BitVec 8
  type : BitVec 4
  descriptorType : BitVec 1
  descriptorPrivilegeLevel : BitVec 2
  present : BitVec 1
  segmentLimitHigh : BitVec 4
  system : BitVec 1
  longMode : BitVec 1
  defaultBig : BitVec 1
  granularity : BitVec 1
  baseAddressHigh : BitVec 8
  deriving DecidableEq

/-- The bit fields of a word. -/
def Descriptor.ofWord (word : UInt64) : Descriptor where
  segmentLimitLow := word.toBitVec.extractLsb' 0 16
  baseAddressLow := word.toBitVec.extractLsb' 16 16
  baseAddressMiddle := word.toBitVec.extractLsb' 32 8
  type := word.toBitVec.extractLsb' 40 4
  descriptorType := word.toBitVec.extractLsb' 44 1
  descriptorPrivilegeLevel := word.toBitVec.extractLsb' 45 2
  present := word.toBitVec.extractLsb' 47 1
  segmentLimitHigh := word.toBitVec.extractLsb' 48 4
  system := word.toBitVec.extractLsb' 52 1
  longMode := word.toBitVec.extractLsb' 53 1
  defaultBig := word.toBitVec.extractLsb' 54 1
  granularity := word.toBitVec.extractLsb' 55 1
  baseAddressHigh := word.toBitVec.extractLsb' 56 8

/-- The word of a descriptor. -/
def Descriptor.toWord (d : Descriptor) : UInt64 :=
  ⟨d.baseAddressHigh ++ d.granularity ++ d.defaultBig ++ d.longMode ++ d.system ++
    d.segmentLimitHigh ++ d.present ++ d.descriptorPrivilegeLevel ++ d.descriptorType ++ d.type ++
      d.baseAddressMiddle ++ d.baseAddressLow ++ d.segmentLimitLow⟩

/-- `SEGMENT_DESCRIPTOR_TYPE_SYSTEM` -/
def descriptorTypeSystem : BitVec 1 := 0

/-- `SEGMENT_DESCRIPTOR_TYPE_CODE_OR_DATA` -/
def descriptorTypeCodeOrData : BitVec 1 := 1

/-- `SEGMENT_DESCRIPTOR_TYPE_TSS_AVAILABLE` -/
def typeTssAvailable : BitVec 4 := 9

/-- `SEGMENT_DESCRIPTOR_TYPE_CODE_EXECUTE_READ_ACCESSED` -/
def typeCodeExecuteReadAccessed : BitVec 4 := 11

/-- `SEGMENT_DESCRIPTOR_TYPE_DATA_READ_WRITE` -/
def typeDataReadWrite : BitVec 4 := 2

/-- Where a selector's descriptor is. -/
def descriptorAddress (gdt : TableRegister) (selector : BitVec 16) : UInt64 :=
  gdt.base + UInt64.ofNat (8 * (selectorIndex selector).toNat)

/-- The first word of a descriptor. -/
def descriptorWord (memory : UInt64 → UInt8) (gdt : TableRegister) (selector : BitVec 16) :
    UInt64 := loadWord memory (descriptorAddress gdt selector)

/-- The second word of the descriptor of a system segment:
`base_address_upper` and a field that must be zero. -/
def upperWord (memory : UInt64 → UInt8) (gdt : TableRegister) (selector : BitVec 16) : UInt64 :=
  loadWord memory (descriptorAddress gdt selector + 8)

/-! ### `utils::segment` -/

/-- `base_address` -/
def baseAddress (memory : UInt64 → UInt8) (gdt : TableRegister) (selector : BitVec 16) :
    UInt64 :=
  if selectorIndex selector = 0 then 0
  else
    let descriptor := Descriptor.ofWord (descriptorWord memory gdt selector)
    let high := UInt64.ofBitVec (descriptor.baseAddressHigh.setWidth 64)
    let middle := UInt64.ofBitVec (descriptor.baseAddressMiddle.setWidth 64)
    let low := UInt64.ofBitVec (descriptor.baseAddressLow.setWidth 64)
    -- A system descriptor takes 16 bytes in 64-bit mode.
    if descriptor.descriptorType = descriptorTypeSystem then
      let upper :=
        UInt64.ofBitVec (((upperWord memory gdt selector).toBitVec.extractLsb' 0 32).setWidth 64)
      upper <<< 32 ||| high <<< 24 ||| middle <<< 16 ||| low
    else high <<< 24 ||| middle <<< 16 ||| low

/-- `flags` of the `vmx_segment_access_rights` that `access_rights`
returns. -/
def accessRights (memory : UInt64 → UInt8) (gdt : TableRegister) (selector : BitVec 16) :
    BitVec 32 :=
  let descriptor := Descriptor.ofWord (descriptorWord memory gdt selector)
  let unusable : BitVec 1 := if selectorIndex selector = 0 then 1 else 0
  (0 : BitVec 15) ++ unusable ++ descriptor.granularity ++ descriptor.defaultBig ++
    descriptor.longMode ++ descriptor.system ++ (0 : BitVec 4) ++ descriptor.present ++
      descriptor.descriptorPrivilegeLevel ++ descriptor.descriptorType ++ descriptor.type

/-! ### The processor -/

/-- A segment register with its hidden part. `accessRights` has the
format of the VMCS. -/
structure Register where
  selector : BitVec 16
  base : UInt64
  limit : BitVec 32
  accessRights : BitVec 32
  deriving DecidableEq

/-- Bit 16 of the access rights. -/
def Register.unusable (s : Register) : Bool := s.accessRights.getLsbD 16

/-- A register that was loaded with a null selector. -/
def Register.null (selector : BitVec 16) : Register := ⟨selector, 0, 0, 0x10000⟩

/-- The limit of a descriptor, in bytes. -/
def limitOf (word : UInt64) : BitVec 32 :=
  let low := word &&& 0xFFFF
  let high := (word >>> 32) &&& 0xF0000
  let limit := (low ||| high).toBitVec.setWidth 32
  if word &&& 0x80000000000000 = 0 then limit else limit <<< 12 ||| 0xFFF

/-- Bit 44 of a descriptor, zero for a system segment. -/
def isSystem (word : UInt64) : Bool := word &&& 0x100000000000 == 0

/-- The base of a descriptor. That of a system segment is continued in
the second word. -/
def baseOf (word upper : UInt64) : UInt64 :=
  let low := (word >>> 16) &&& 0xFFFFFF
  let high := (word >>> 32) &&& 0xFF000000
  let base := low ||| high
  if isSystem word then base ||| upper <<< 32 else base

/-- The access rights of a descriptor. -/
def rightsOf (word : UInt64) : BitVec 32 := ((word >>> 40) &&& 0xF0FF).toBitVec.setWidth 32

/-- The register that is loaded with a selector that is not null. -/
def described (memory : UInt64 → UInt8) (gdt : TableRegister) (selector : BitVec 16) :
    Register where
  selector
  base := baseOf (descriptorWord memory gdt selector) (upperWord memory gdt selector)
  limit := limitOf (descriptorWord memory gdt selector)
  accessRights := rightsOf (descriptorWord memory gdt selector)

/-- The register that is loaded with a selector. -/
def loaded (memory : UInt64 → UInt8) (gdt : TableRegister) (selector : BitVec 16) : Register :=
  if selectorIndex selector = 0 then .null selector else described memory gdt selector

/-- A register loaded again with its selector, and the MSR of its base
written again. -/
def reloaded (memory : UInt64 → UInt8) (gdt : TableRegister) (r : SegmentRegister)
    (register : Register) : Register :=
  let loaded := loaded memory gdt register.selector
  if r = .fs ∨ r = .gs then { loaded with base := register.base } else loaded

/-- LSL. Its result for a null selector is nothing to rely on. -/
def segmentLimit (memory : UInt64 → UInt8) (gdt : TableRegister) (selector : BitVec 16) :
    BitVec 32 :=
  if selectorIndex selector = 0 then 0 else limitOf (descriptorWord memory gdt selector)

/-- The descriptor is one for DS, ES, FS or GS, and CPL 0 may load it. -/
def loadable (memory : UInt64 → UInt8) (gdt : TableRegister) (selector : BitVec 16) : Bool :=
  let descriptor := Descriptor.ofWord (descriptorWord memory gdt selector)
  selectorTable selector == 0 &&
    decide (8 * (selectorIndex selector).toNat + 7 ≤ gdt.limit.toNat) &&
    descriptor.descriptorType == descriptorTypeCodeOrData && descriptor.present == 1 &&
    -- Data or code that can be read. Conforming code is open to every privilege level.
    (!descriptor.type.getLsbD 3 || descriptor.type.getLsbD 1) &&
    (descriptor.type.getLsbD 3 && descriptor.type.getLsbD 2 ||
      decide ((selectorPrivilege selector).toNat ≤ descriptor.descriptorPrivilegeLevel.toNat))

/-- A MOV to DS, ES, FS or GS at CPL 0: the memory, whose descriptor is
marked as accessed, and the register. `none` is a fault. -/
def movToSegment (memory : UInt64 → UInt8) (gdt : TableRegister) (selector : BitVec 16) :
    Option ((UInt64 → UInt8) × Register) :=
  if selectorIndex selector = 0 ∧ selectorTable selector = 0 then
    some (memory, .null selector)
  else if loadable memory gdt selector then
    let accessed := descriptorWord memory gdt selector ||| 0x10000000000
    let memory := storeWord memory (descriptorAddress gdt selector) accessed
    some (memory, described memory gdt selector)
  else none

/-- LTR: the memory, whose descriptor is marked as busy, and the task
register. `none` is a fault. -/
def ltr (memory : UInt64 → UInt8) (gdt : TableRegister) (selector : BitVec 16) :
    Option ((UInt64 → UInt8) × Register) :=
  let descriptor := Descriptor.ofWord (descriptorWord memory gdt selector)
  if selectorIndex selector ≠ 0 ∧ selectorTable selector = 0 ∧
      8 * (selectorIndex selector).toNat + 15 ≤ gdt.limit.toNat ∧
      descriptor.descriptorType = descriptorTypeSystem ∧ descriptor.type = typeTssAvailable ∧
      descriptor.present = 1 then
    let busy := descriptorWord memory gdt selector ||| 0x20000000000
    let memory := storeWord memory (descriptorAddress gdt selector) busy
    some (memory, described memory gdt selector)
  else none

/-! ### The host's GDT -/

/-- `gdt::host_cs` -/
def hostCs : BitVec 16 := 1 <<< 3

/-- `gdt::host_ss` -/
def hostSs : BitVec 16 := 2 <<< 3

/-- `gdt::host_tr` -/
def hostTr : BitVec 16 := 3 <<< 3

/-- `sizeof(task_state_segment_64) - 1` -/
def tssLimit : BitVec 16 := 0x67

/-- A descriptor that MEMSET has cleared. -/
def Descriptor.zero : Descriptor := .ofWord 0

/-- `host_cs_descriptor` -/
def hostCsDescriptor : Descriptor :=
  { Descriptor.zero with
    longMode := 1
    present := 1
    descriptorType := descriptorTypeCodeOrData
    type := typeCodeExecuteReadAccessed }

/-- `host_ss_descriptor` -/
def hostSsDescriptor : Descriptor :=
  { Descriptor.zero with
    present := 1
    descriptorType := descriptorTypeCodeOrData
    type := typeDataReadWrite }

/-- `host_tr_descriptor`, without the upper half of the base. -/
def hostTrDescriptor (tss : UInt64) : Descriptor :=
  { Descriptor.zero with
    present := 1
    descriptorType := descriptorTypeSystem
    type := typeTssAvailable
    baseAddressLow := (tss &&& 0xFFFF).toBitVec.setWidth 16
    baseAddressMiddle := ((tss >>> 16) &&& 0xFF).toBitVec.setWidth 8
    baseAddressHigh := ((tss >>> 24) &&& 0xFF).toBitVec.setWidth 8
    segmentLimitLow := tssLimit &&& 0xFFFF
    segmentLimitHigh := ((tssLimit >>> 16) &&& 0xF).setWidth 4 }

/-- `gdt::initialize`, the words of the table. The task's descriptor
takes two of them. -/
def gdtInitialize (tss : UInt64) : List UInt64 :=
  [Descriptor.zero.toWord, hostCsDescriptor.toWord, hostSsDescriptor.toWord,
    (hostTrDescriptor tss).toWord, tss >>> 32]

end Revhv.Segment
