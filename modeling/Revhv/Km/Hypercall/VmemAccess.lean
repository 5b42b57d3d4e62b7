import Revhv.Km.Hypercall.Vmem
import Revhv.Lib.Traced

/-!
# `Revhv.Km.Hypercall.VmemAccess`: what the memory hypercalls access

`gva_to_gpa`, the copy loops and the two handlers of
`Revhv.Km.Hypercall.Vmem` once more, with each access behind
`host_physical_base` recorded. An access behind the end of the window is
the last one of a walk, and it is fatal. A copy there is stopped by
`memcpy_wrapper`.
-/

set_option autoImplicit false

namespace Revhv.Hypercall

open Revhv.Lib Revhv.GuestMemory Revhv.Memory

/-! ### Accesses -/

/-- What is recorded: that a round of a copy loop begins and with what
memory, that a table entry is dereferenced, and that bytes are copied
from or to guest memory. -/
inductive HostAccess where
  | round (mem : Bytes) (cr3 gva : Nat)
  | entry (address : Nat)
  | copy (address length : Nat)

/-- All of the access lies in what `map_host_page_tables` maps. -/
def HostAccess.InWindow : HostAccess → Prop
  | .round .. => True
  | .entry address => address < hostPhysicalSize
  | .copy address length => ∀ i < length, address + i < hostPhysicalSize

/-- One access is checked against the window byte by byte. -/
instance : DecidablePred HostAccess.InWindow
  | .round .. => inferInstanceAs (Decidable True)
  | .entry _ => inferInstanceAs (Decidable (_ < _))
  | .copy _ _ => inferInstanceAs (Decidable (∀ _ < _, _))

/-! ### `gva_to_gpa` -/

/-- A table entry is dereferenced, without a wrapper. -/
def dereference (e : Nat × Fin 512) : Traced HostAccess Unit := do
  Traced.emit (.entry (entryAddress e))
  if entryAddress e < hostPhysicalSize then pure () else Traced.stop

/-- The walk of `gva_to_gpa`. -/
def walkTables (mem : Bytes) (cr3 gva : Nat) : Traced HostAccess (Nat × Option Nat) := do
  let tables := tablesOf mem
  let result := gvaToGpa tables (pageDirectory cr3) gva
  dereference (pageDirectory cr3, pml4Idx gva)
  let pml4e := tables (pageDirectory cr3) (pml4Idx gva)
  if !pml4e.present then
    return result
  dereference (pml4e.pageFrameNumber, pdptIdx gva)
  let pdpte := tables pml4e.pageFrameNumber (pdptIdx gva)
  if !pdpte.present then
    return result
  if pdpte.largePage then
    return result
  dereference (pdpte.pageFrameNumber, pdIdx gva)
  let pde := tables pdpte.pageFrameNumber (pdIdx gva)
  if !pde.present then
    return result
  if pde.largePage then
    return result
  dereference (pde.pageFrameNumber, ptIdx gva)
  return result

/-! ### The copy loops -/

/-- The copy of a round, after its walk. The result is where the bytes
are and how many, if the loop goes on. -/
def copyGuest (left : Nat) (p : Nat × Option Nat) : Traced HostAccess (Option (Nat × Nat)) :=
  if p.1 = 0 then pure none
  else do
    -- `min(size - total, offset_to_next_page)`
    let length := min left (p.2.getD 0)
    Traced.emit (.copy p.1 length)
    -- The wrapper catches the exception that a byte behind the window raises.
    if p.1 + length ≤ hostPhysicalSize then pure (some (p.1, length)) else pure none

/-- A round of either loop with `left` bytes to go, up to the count. -/
def copyRound (mem : Bytes) (cr3 gva left : Nat) : Traced HostAccess (Option (Nat × Nat)) := do
  Traced.emit (.round mem cr3 gva)
  copyGuest left (← walkTables mem cr3 gva)

/-- The loop of `read_guest_virtual`. -/
def tracedReadLoop (mem : Bytes) (cr3 va size : Nat) :
    (fuel total : Nat) → (buffer : Bytes) → Traced HostAccess (Nat × Bytes)
  | 0, total, buffer => pure (total, buffer)
  | fuel + 1, total, buffer =>
      if total < size then do
        match ← copyRound mem cr3 ((va + total) % 2 ^ 64) (size - total) with
        | none => return (total, buffer)
        | some (hva, toRead) =>
            tracedReadLoop mem cr3 va size fuel (total + toRead) (memcpy buffer total mem hva toRead)
      else pure (total, buffer)

/-- `read_guest_virtual`. -/
def tracedRead (mem : Bytes) (cr3 va : Nat) (buffer : Bytes) (size : Nat) :
    Traced HostAccess (Nat × Bytes) :=
  if va = 0 ∨ size = 0 then pure (0, buffer) else tracedReadLoop mem cr3 va size size 0 buffer

/-- The loop of `write_guest_virtual`. -/
def tracedWriteLoop (cr3 va : Nat) (buffer : Bytes) (size : Nat) :
    (fuel total : Nat) → (mem : Bytes) → Traced HostAccess (Nat × Bytes)
  | 0, total, mem => pure (total, mem)
  | fuel + 1, total, mem =>
      if total < size then do
        match ← copyRound mem cr3 ((va + total) % 2 ^ 64) (size - total) with
        | none => return (total, mem)
        | some (hva, toWrite) =>
            tracedWriteLoop cr3 va buffer size fuel (total + toWrite)
              (memcpy mem hva buffer total toWrite)
      else pure (total, mem)

/-- `write_guest_virtual`. -/
def tracedWrite (mem : Bytes) (cr3 va : Nat) (buffer : Bytes) (size : Nat) :
    Traced HostAccess (Nat × Bytes) :=
  if va = 0 ∨ size = 0 then pure (0, mem) else tracedWriteLoop cr3 va buffer size size 0 mem

/-! ### The handlers -/

/-- `handle_vmem_read`. -/
def tracedVmemRead (systemCr3 guestCr3 : Nat) (mem : Bytes) (rdx : Nat) :
    Traced HostAccess (Bytes × Nat) := do
  let (requestRead, buffer) ← tracedRead mem guestCr3 rdx zeroBuffer VmemRequest.byteSize
  if requestRead ≠ VmemRequest.byteSize then
    return (mem, 0)
  let request := VmemRequest.ofBytes buffer
  let bytesToRead := min request.size.toNat maxVmemChunkSize
  if bytesToRead = 0 then
    return (mem, 0)
  let (bytesRead, localBuffer) ←
    tracedRead mem (request.cr3 systemCr3) request.targetVa.toNat zeroBuffer bytesToRead
  if bytesRead = 0 then
    return (mem, 0)
  let (written, mem') ← tracedWrite mem guestCr3 request.guestBuffer.toNat localBuffer bytesRead
  if written ≠ bytesRead then
    return (mem', 0)
  return (mem', bytesRead)

/-- `handle_vmem_write`. -/
def tracedVmemWrite (systemCr3 guestCr3 : Nat) (mem : Bytes) (rdx : Nat) :
    Traced HostAccess (Bytes × Nat) := do
  let (requestRead, buffer) ← tracedRead mem guestCr3 rdx zeroBuffer VmemRequest.byteSize
  if requestRead ≠ VmemRequest.byteSize then
    return (mem, 0)
  let request := VmemRequest.ofBytes buffer
  let bytesToWrite := min request.size.toNat maxVmemChunkSize
  if bytesToWrite = 0 then
    return (mem, 0)
  let (bytesRead, localBuffer) ←
    tracedRead mem guestCr3 request.guestBuffer.toNat zeroBuffer bytesToWrite
  if bytesRead = 0 then
    return (mem, 0)
  let (written, mem') ←
    tracedWrite mem (request.cr3 systemCr3) request.targetVa.toNat localBuffer bytesRead
  if written = 0 then
    return (mem', 0)
  return (mem', written)

end Revhv.Hypercall
