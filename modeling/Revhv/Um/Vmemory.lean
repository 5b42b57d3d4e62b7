import Revhv.Km.Hypercall.Vmem

/-!
# `Revhv.Um.Vmemory`: `read_vmemory`

The loop of `read_vmemory` (`revhv-um/hypercall.cpp`). Every round
fills in the request on the stack of the caller and makes the hypercall
for one chunk. The request goes to memory through the page tables of
the caller.
-/

set_option autoImplicit false

namespace Revhv.Um

open Revhv.Lib Revhv.GuestMemory Revhv.Hypercall

/-- The process that calls: its CR3, and where its `request` variable
is. -/
structure Caller where
  cr3 : Nat
  requestVa : UInt64

/-- The caller fills in its request. -/
def Caller.storeRequest (caller : Caller) (mem : Bytes) (request : VmemRequest) : Bytes :=
  storeBytes (translateIn mem caller.cr3) caller.requestVa.toNat request.bytes mem
    VmemRequest.byteSize

/-- The request for the chunk behind `total` bytes. -/
def chunkRequest (targetVa outBuffer size targetCr3 : UInt64) (total : Nat) : VmemRequest where
  guestBuffer := outBuffer + UInt64.ofNat total
  targetVa := targetVa + UInt64.ofNat total
  size := UInt64.ofNat (min (size.toNat - total) maxVmemChunkSize)
  targetCr3 := targetCr3

/-- The loop of `read_vmemory`, for at most `fuel` chunks: the memory
and `total_read`. -/
def readVmemoryLoop (systemCr3 : Nat) (caller : Caller)
    (targetVa outBuffer size targetCr3 : UInt64) :
    (fuel total : Nat) → (mem : Bytes) → Option (Bytes × Nat)
  | 0, total, mem => some (mem, total)
  | fuel + 1, total, mem =>
      if total < size.toNat then
        let chunkSize := min (size.toNat - total) maxVmemChunkSize
        let mem := caller.storeRequest mem (chunkRequest targetVa outBuffer size targetCr3 total)
        match handleVmemRead systemCr3 caller.cr3 mem caller.requestVa.toNat with
        | none => none
        | some (mem, bytesRead) =>
            -- A failed or a short chunk ends the loop.
            if bytesRead = 0 then some (mem, total)
            else if bytesRead < chunkSize then some (mem, total + bytesRead)
            else
              readVmemoryLoop systemCr3 caller targetVa outBuffer size targetCr3 fuel
                (total + bytesRead) mem
      else some (mem, total)

/-- `read_vmemory`: the memory and the number of bytes read. -/
def readVmemory (systemCr3 : Nat) (caller : Caller) (mem : Bytes)
    (targetVa outBuffer size targetCr3 : UInt64) : Option (Bytes × Nat) :=
  if outBuffer = 0 ∨ size = 0 then some (mem, 0)
  else readVmemoryLoop systemCr3 caller targetVa outBuffer size targetCr3 size.toNat 0 mem

end Revhv.Um
