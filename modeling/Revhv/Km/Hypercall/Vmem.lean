import Revhv.Km.GuestMemory
import Revhv.Km.Hypercall.Flush

/-!
# `Revhv.Km.Hypercall.Vmem`: the memory hypercalls

`handle_vmem_read` and `handle_vmem_write` (`revhv-km/hypercall.cpp`)
and the request they take (`common/hypercall_types.hpp`). Both go
through `hypercall_local_buffer` of the vCPU, `MAX_VMEM_CHUNK_SIZE`
bytes of the hypervisor's own memory.
-/

set_option autoImplicit false

namespace Revhv.Hypercall

open Revhv.Lib Revhv.GuestMemory

/-- `vmem_request`. -/
structure VmemRequest where
  guestBuffer : UInt64
  targetVa : UInt64
  size : UInt64
  targetCr3 : UInt64
  deriving DecidableEq

namespace VmemRequest

/-- `sizeof(vmem_request)`. -/
def byteSize : Nat := 32

/-- The fields in order. -/
def field (request : VmemRequest) : Nat → UInt64
  | 0 => request.guestBuffer
  | 1 => request.targetVa
  | 2 => request.size
  | _ => request.targetCr3

/-- The request in memory. -/
def bytes (request : VmemRequest) : Bytes := fun i =>
  UInt8.ofNat ((request.field (i / 8)).toNat / 256 ^ (i % 8))

/-- The request that 32 bytes hold. -/
def ofBytes (buffer : Bytes) : VmemRequest where
  guestBuffer := UInt64.ofNat (uint64At buffer 0)
  targetVa := UInt64.ofNat (uint64At buffer 8)
  size := UInt64.ofNat (uint64At buffer 16)
  targetCr3 := UInt64.ofNat (uint64At buffer 24)

/-- The CR3 a request is about. A zero stands for that of the system
process. -/
def cr3 (request : VmemRequest) (systemCr3 : Nat) : Nat :=
  if request.targetCr3 ≠ 0 then request.targetCr3.toNat else systemCr3

end VmemRequest

/-- A buffer of the hypervisor after its `memset`. -/
def zeroBuffer : Bytes := fun _ => 0

/-- `handle_vmem_read`: the memory and RAX. -/
def handleVmemRead (systemCr3 guestCr3 : Nat) (mem : Bytes) (rdx : Nat) : Option (Bytes × Nat) :=
  do
    let (requestRead, buffer) ←
      readGuestVirtual mem guestCr3 rdx zeroBuffer VmemRequest.byteSize
    -- A request that cannot be read whole is not looked at.
    if requestRead ≠ VmemRequest.byteSize then
      return (mem, 0)
    let request := VmemRequest.ofBytes buffer
    let bytesToRead := min request.size.toNat maxVmemChunkSize
    if bytesToRead = 0 then
      return (mem, 0)
    let (bytesRead, localBuffer) ←
      readGuestVirtual mem (request.cr3 systemCr3) request.targetVa.toNat zeroBuffer bytesToRead
    if bytesRead = 0 then
      return (mem, 0)
    let (written, mem') ←
      writeGuestVirtual mem guestCr3 request.guestBuffer.toNat localBuffer bytesRead
    -- Here a part that is written counts as nothing.
    if written ≠ bytesRead then
      return (mem', 0)
    return (mem', bytesRead)

/-- `handle_vmem_write`: the memory and RAX. -/
def handleVmemWrite (systemCr3 guestCr3 : Nat) (mem : Bytes) (rdx : Nat) : Option (Bytes × Nat) :=
  do
    let (requestRead, buffer) ←
      readGuestVirtual mem guestCr3 rdx zeroBuffer VmemRequest.byteSize
    if requestRead ≠ VmemRequest.byteSize then
      return (mem, 0)
    let request := VmemRequest.ofBytes buffer
    let bytesToWrite := min request.size.toNat maxVmemChunkSize
    if bytesToWrite = 0 then
      return (mem, 0)
    let (bytesRead, localBuffer) ←
      readGuestVirtual mem guestCr3 request.guestBuffer.toNat zeroBuffer bytesToWrite
    if bytesRead = 0 then
      return (mem, 0)
    let (written, mem') ←
      writeGuestVirtual mem (request.cr3 systemCr3) request.targetVa.toNat localBuffer bytesRead
    -- Here a part that is written is answered with its length.
    if written = 0 then
      return (mem', 0)
    return (mem', written)

end Revhv.Hypercall
