import Revhv.Lib.BitMask
import Revhv.Lib.Machine

/-!
# `Revhv.Km.ControlRegister`: CR0 and CR4 of the guest

`handle_mov_to_cr` and `handle_lmsw` (`revhv-km/vmexit.cpp`), the masks
and shadows they start from (`revhv-km/vmcs.cpp`), and
`get_effective_guest_cr0` and `get_effective_guest_cr4`
(`revhv-km/vmx.h`).

The bits of a register that are in the guest/host mask belong to the
host: the guest reads them from the shadow, and a write that would
change one of them exits. The processor carries every other write out
itself, on the bits outside the mask. Which of these it refuses with
#GP is a parameter.
-/

set_option autoImplicit false

namespace Revhv.ControlRegister

open Revhv.Lib Revhv.Lib.BitMask

/-! ### The registers -/

/-- `CR0_PROTECTION_ENABLE_FLAG`. -/
def cr0ProtectionEnableFlag : BitVec 64 := 1

/-- `extension_type` of `cr0`. -/
def cr0ExtensionType : BitVec 64 := 0x10

/-- `reserved1`, `reserved2` and `reserved3` of `cr0`: bits 6 to 15, 17,
and 19 to 28. -/
def cr0Reserved : BitVec 64 := 0x1FFAFFC0

/-- `CR4_VMX_ENABLE_FLAG`. -/
def cr4VmxEnableFlag : BitVec 64 := 0x2000

/-- The VMCS fields of a control register that writes change. -/
structure CrField where
  readShadow : BitVec 64
  guest : BitVec 64
  deriving DecidableEq

/-- These fields of both registers. -/
structure CrFields where
  cr0 : CrField
  cr4 : CrField
  deriving DecidableEq

/-- What the code asks the processor for, and what the processor refuses
by itself. The position of the reserved bits of CR4 comes with the
header of `cr4`. -/
structure CrProcessor where
  cr0Fixed0 : BitVec 64
  cr0Fixed1 : BitVec 64
  cr4Fixed0 : BitVec 64
  cr4Fixed1 : BitVec 64
  cr4Reserved : BitVec 64
  saferModeExtensions : Bool
  /-- #GP of a MOV to CR0 that does not exit. -/
  refusesCr0 : CrFields → BitVec 64 → Bool
  /-- #GP of a MOV to CR4 that does not exit. -/
  refusesCr4 : CrFields → BitVec 64 → Bool
  cr0Subset : Between cr0Fixed0 cr0Fixed1 cr0Fixed1
  cr4Subset : Between cr4Fixed0 cr4Fixed1 cr4Fixed1
  /-- CR0.PE is fixed to one. -/
  protectionEnable : cr0Fixed0.getLsbD 0 = true

/-- `cr0GuestHostMask` of `write_other_control_fields`. -/
def CrProcessor.cr0Mask (p : CrProcessor) : BitVec 64 := p.cr0Fixed0 ||| ~~~p.cr0Fixed1

/-- `cr4GuestHostMask` of `write_other_control_fields`. -/
def CrProcessor.cr4Mask (p : CrProcessor) : BitVec 64 :=
  p.cr4Fixed0 ||| ~~~p.cr4Fixed1 ||| cr4VmxEnableFlag

/-- `get_effective_guest_cr0` and `get_effective_guest_cr4`, by the mask
they read. -/
def CrField.effective (mask : BitVec 64) (field : CrField) : BitVec 64 :=
  select mask field.readShadow field.guest

/-- A value for CR0 with its reserved bits cleared and ET set. -/
def normalizeCr0 (value : BitVec 64) : BitVec 64 :=
  (value &&& ~~~cr0Reserved) ||| cr0ExtensionType

/-! ### The exit handlers -/

/-- How an instruction ends. -/
inductive CrAnswer where
  | completed
  | generalProtection
  deriving DecidableEq

/-- The branch of `handle_mov_to_cr` for CR0. -/
def handleMovToCr0 (p : CrProcessor) (fields : CrFields) (regVal : BitVec 64) :
    CrFields × CrAnswer :=
  let currEffectiveCr4 := fields.cr4.effective p.cr4Mask
  let newCr0 := normalizeCr0 regVal
  let protectionEnable := newCr0.getLsbD 0
  let writeProtect := newCr0.getLsbD 16
  let notWriteThrough := newCr0.getLsbD 29
  let cacheDisable := newCr0.getLsbD 30
  let pagingEnable := newCr0.getLsbD 31
  let controlFlowEnforcementEnable := currEffectiveCr4.getLsbD 23
  -- Reserved bits of the upper half fault, those of the lower half were dropped
  -- above.
  if newCr0 >>> 32 ≠ 0 then (fields, .generalProtection)
  else if pagingEnable && !protectionEnable then (fields, .generalProtection)
  else if !writeProtect && controlFlowEnforcementEnable then (fields, .generalProtection)
  -- In 64-bit mode paging cannot be turned off.
  else if !pagingEnable then (fields, .generalProtection)
  else if !cacheDisable && notWriteThrough then (fields, .generalProtection)
  else
    -- The shadow takes the value as written, the register the fixed bits
    -- besides.
    ({ fields with cr0 := ⟨newCr0, (newCr0 ||| p.cr0Fixed0) &&& p.cr0Fixed1⟩ }, .completed)

/-- The branch of `handle_mov_to_cr` for CR4. -/
def handleMovToCr4 (p : CrProcessor) (fields : CrFields) (regVal guestCr3 : BitVec 64) :
    CrFields × CrAnswer :=
  let currEffectiveCr0 := fields.cr0.effective p.cr0Mask
  let currEffectiveCr4 := fields.cr4.effective p.cr4Mask
  let newCr4 := regVal
  let physicalAddressExtension := newCr4.getLsbD 5
  let linearAddresses57Bit := newCr4.getLsbD 12
  let smxEnable := newCr4.getLsbD 14
  let pcidEnable := newCr4.getLsbD 17
  let controlFlowEnforcementEnable := newCr4.getLsbD 23
  if newCr4 &&& p.cr4Reserved ≠ 0 then (fields, .generalProtection)
  else if controlFlowEnforcementEnable && !currEffectiveCr0.getLsbD 16 then
    (fields, .generalProtection)
  else if !currEffectiveCr4.getLsbD 17 && pcidEnable && guestCr3 &&& 0xFFF ≠ 0 then
    (fields, .generalProtection)
  -- PAE and LA57 stay while paging is on.
  else if physicalAddressExtension ≠ currEffectiveCr4.getLsbD 5 ∨
      linearAddresses57Bit ≠ currEffectiveCr4.getLsbD 12 then
    (fields, .generalProtection)
  else if !p.saferModeExtensions && smxEnable then (fields, .generalProtection)
  else
    ({ fields with cr4 := ⟨newCr4, (newCr4 ||| p.cr4Fixed0) &&& p.cr4Fixed1⟩ }, .completed)

/-- `lmsw_mask`. -/
def lmswMask : BitVec 64 := 0xF

/-- `new_bits` of `handle_lmsw` before PE is looked at. -/
def lmswBits (lmswSourceData : BitVec 16) : BitVec 64 := lmswSourceData.setWidth 64 &&& lmswMask

/-- `handle_lmsw`. It never raises #GP. -/
def handleLmsw (p : CrProcessor) (fields : CrFields) (lmswSourceData : BitVec 16) :
    CrFields × CrAnswer :=
  let newBits := lmswBits lmswSourceData
  let currentCr0Shadow := fields.cr0.readShadow
  let currentCr0 := fields.cr0.guest
  let newBits :=
    if currentCr0Shadow &&& cr0ProtectionEnableFlag ≠ 0 then newBits ||| cr0ProtectionEnableFlag
    else newBits
  let newCr0Shadow := (currentCr0Shadow &&& ~~~lmswMask) ||| newBits
  let newCr0 := (currentCr0 &&& ~~~lmswMask) ||| newBits
  ({ fields with cr0 := ⟨newCr0Shadow, (newCr0 ||| p.cr0Fixed0) &&& p.cr0Fixed1⟩ }, .completed)

/-! ### The processor -/

/-- A write of the guest to a control register. -/
inductive CrWrite where
  | movToCr0 (value : BitVec 64)
  | movToCr4 (value guestCr3 : BitVec 64)
  | lmsw (source : BitVec 16)

/-- A MOV exits when it would change a bit in the mask as the shadow
shows it. -/
def movExits (mask : BitVec 64) (field : CrField) (value : BitVec 64) : Bool :=
  value &&& mask ≠ field.readShadow &&& mask

/-- LMSW exits when it would change MP, EM or TS in the mask, or set PE
there. -/
def lmswExits (mask : BitVec 64) (field : CrField) (source : BitVec 16) : Bool :=
  (List.range 4).any fun i =>
    mask.getLsbD i && (lmswBits source).getLsbD i != field.readShadow.getLsbD i &&
      (i != 0 || (lmswBits source).getLsbD i)

/-- A write of the guest, with the exit it may cause. -/
def CrWrite.execute (p : CrProcessor) (fields : CrFields) : CrWrite → CrFields × CrAnswer
  | .movToCr0 value =>
      if movExits p.cr0Mask fields.cr0 value then handleMovToCr0 p fields value
      else if p.refusesCr0 fields value then (fields, .generalProtection)
      else
        -- The processor ignores reserved bits, and ET is hardwired.
        let guest := select p.cr0Mask fields.cr0.guest (normalizeCr0 value)
        ({ fields with cr0 := { fields.cr0 with guest } }, .completed)
  | .movToCr4 value guestCr3 =>
      if movExits p.cr4Mask fields.cr4 value then handleMovToCr4 p fields value guestCr3
      else if p.refusesCr4 fields value then (fields, .generalProtection)
      else
        let guest := select p.cr4Mask fields.cr4.guest value
        ({ fields with cr4 := { fields.cr4 with guest } }, .completed)
  | .lmsw source =>
      if lmswExits p.cr0Mask fields.cr0 source then handleLmsw p fields source
      else
        let newBits := lmswBits source ||| (fields.cr0.guest &&& cr0ProtectionEnableFlag)
        let guest := select (p.cr0Mask ||| ~~~lmswMask) fields.cr0.guest newBits
        ({ fields with cr0 := { fields.cr0 with guest } }, .completed)

/-- The registers the hypervisor finds: VMX operation has forced the
fixed bits, and CR0 has no reserved bit. -/
structure CrLaunch (p : CrProcessor) where
  cr0 : BitVec 64
  cr4 : BitVec 64
  cr0Between : Between p.cr0Fixed0 p.cr0Fixed1 cr0
  cr4Between : Between p.cr4Fixed0 p.cr4Fixed1 cr4
  cr0Normal : normalizeCr0 cr0 = cr0

/-- The fields as `write_other_control_fields` and
`write_guest_state_fields` set them. -/
def CrLaunch.fields {p : CrProcessor} (launch : CrLaunch p) : CrFields where
  cr0 := ⟨launch.cr0, launch.cr0⟩
  cr4 := ⟨launch.cr4 &&& ~~~cr4VmxEnableFlag, launch.cr4⟩

/-- The fields, the answer to the last write, and the values accepted
last. The latter are not part of the program. -/
structure CrState where
  fields : CrFields
  answer : CrAnswer
  acceptedCr0 : BitVec 64
  acceptedCr4 : BitVec 64

/-- What CR0 becomes by LMSW. -/
def lmswResult (cr0 : BitVec 64) (source : BitVec 16) : BitVec 64 :=
  (cr0 &&& ~~~lmswMask) ||| lmswBits source ||| (cr0 &&& cr0ProtectionEnableFlag)

/-- The values accepted after a write that has completed. -/
def CrState.accept (s : CrState) : CrWrite → CrState
  | .movToCr0 value => { s with acceptedCr0 := normalizeCr0 value }
  | .movToCr4 value _ => { s with acceptedCr4 := value }
  | .lmsw source => { s with acceptedCr0 := lmswResult s.acceptedCr0 source }

/-- A guest that writes its control registers. -/
def crMachine (p : CrProcessor) : Machine CrState CrWrite where
  next s write :=
    let (fields, answer) := write.execute p s.fields
    let s := { s with fields, answer }
    some (if answer = .completed then s.accept write else s)

/-- The guest when it starts. -/
def CrState.initial {p : CrProcessor} (launch : CrLaunch p) : CrState where
  fields := launch.fields
  answer := .completed
  acceptedCr0 := launch.cr0
  acceptedCr4 := launch.cr4 &&& ~~~cr4VmxEnableFlag

end Revhv.ControlRegister
