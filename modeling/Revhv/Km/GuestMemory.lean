import Revhv.Km.Memory
import Revhv.Lib.ByteCopy

/-!
# `Revhv.Km.GuestMemory`: copies from and to guest memory, with their bytes

`gva_to_hva` (`revhv-km/memory.cpp`), `read_guest_virtual` and
`write_guest_virtual` (`revhv-km/introspection.cpp`) over the bytes of
guest physical memory. The page tables are part of these bytes.

The host sees guest physical memory at `host_physical_base`, 512 GB of
it. Addresses here are offsets from that base. An access behind the
512 GB raises an exception on the host: in `memcpy_wrapper` it ends the
copy, in a walk it is unrecoverable, and then the result is `none`.
-/

set_option autoImplicit false

namespace Revhv.GuestMemory

open Revhv.Lib Revhv.Memory

/-- What `map_host_page_tables` maps at `host_physical_base`: 512 pages
of 1 GB. -/
def hostPhysicalSize : Nat := 2 ^ 39

/-! ### Page tables in memory -/

/-- The 8 bytes from `a` on as a number. -/
def uint64At (mem : Bytes) (a : Nat) : Nat :=
  (List.range 8).foldr (fun i n => (mem (a + i)).toNat + 256 * n) 0

/-- A paging entry from its 64 bits. -/
def pageEntryOf (flags : Nat) : PageEntry where
  present := flags.testBit 0
  write := flags.testBit 1
  largePage := flags.testBit 7
  pageFrameNumber := flags / 2 ^ 12 % 2 ^ 36
  otherFlags := flags &&& 0xFFFF000000000F7C

/-- The offset of an entry, by the frame of its table and its index. -/
def entryAddress (e : Nat × Fin 512) : Nat := e.1 * 2 ^ 12 + e.2 * 8

/-- The page tables in memory. -/
def tablesOf (mem : Bytes) : Tables := fun frame i =>
  pageEntryOf (uint64At mem (entryAddress (frame, i)))

/-- `address_of_page_directory` of a CR3 value: bits 47:12. -/
def pageDirectory (cr3 : Nat) : Nat := cr3 / 2 ^ 12 % 2 ^ 36

/-! ### `gva_to_hva` -/

/-- The entries `gva_to_gpa` dereferences, in order. -/
def walkEntries (tables : Tables) (dtb gva : Nat) : List (Nat × Fin 512) :=
  let pml4e := tables dtb (pml4Idx gva)
  (dtb, pml4Idx gva) ::
    if !pml4e.present then []
    else
      let pdpte := tables pml4e.pageFrameNumber (pdptIdx gva)
      (pml4e.pageFrameNumber, pdptIdx gva) ::
        if !pdpte.present then []
        else if pdpte.largePage then []
        else
          let pde := tables pdpte.pageFrameNumber (pdIdx gva)
          (pdpte.pageFrameNumber, pdIdx gva) ::
            if !pde.present then []
            else if pde.largePage then []
            else [(pde.pageFrameNumber, ptIdx gva)]

/-- The host maps every entry of a walk. -/
def WalkMapped (tables : Tables) (dtb gva : Nat) : Prop :=
  ∀ e ∈ walkEntries tables dtb gva, entryAddress e < hostPhysicalSize

/-- A walk looks at four entries at most. -/
instance (tables : Tables) (dtb gva : Nat) : Decidable (WalkMapped tables dtb gva) :=
  inferInstanceAs (Decidable (∀ e ∈ _, _))

/-- `gva_to_hva`, as an offset, with what it stores through
`offset_to_next_page`. No wrapper is around the walk. -/
def gvaToHva (mem : Bytes) (cr3 gva : Nat) : Option (Nat × Option Nat) :=
  if WalkMapped (tablesOf mem) (pageDirectory cr3) gva then
    some (gvaToGpa (tablesOf mem) (pageDirectory cr3) gva)
  else none

/-! ### The copy loops -/

/-- The loop of `read_guest_virtual`, for at most `fuel` pages: the
number of bytes read and the buffer. `offset_to_next_page` starts at 0. -/
def readLoop (mem : Bytes) (cr3 va size : Nat) :
    (fuel total : Nat) → (buffer : Bytes) → Option (Nat × Bytes)
  | 0, total, buffer => some (total, buffer)
  | fuel + 1, total, buffer =>
      if total < size then
        match gvaToHva mem cr3 ((va + total) % 2 ^ 64) with
        | none => none
        | some (hva, offsetToNextPage) =>
            if hva = 0 then some (total, buffer)
            else
              let toRead := min (size - total) (offsetToNextPage.getD 0)
              -- A page lies before the end of the window or behind it.
              if hva + toRead ≤ hostPhysicalSize then
                readLoop mem cr3 va size fuel (total + toRead) (memcpy buffer total mem hva toRead)
              else some (total, buffer)
      else some (total, buffer)

/-- `read_guest_virtual` into a buffer of the hypervisor. -/
def readGuestVirtual (mem : Bytes) (cr3 va : Nat) (buffer : Bytes) (size : Nat) :
    Option (Nat × Bytes) :=
  if va = 0 ∨ size = 0 then some (0, buffer) else readLoop mem cr3 va size size 0 buffer

/-- The loop of `write_guest_virtual`: the number of bytes written and
the memory, in which every walk finds the bytes stored so far. -/
def writeLoop (cr3 va : Nat) (buffer : Bytes) (size : Nat) :
    (fuel total : Nat) → (mem : Bytes) → Option (Nat × Bytes)
  | 0, total, mem => some (total, mem)
  | fuel + 1, total, mem =>
      if total < size then
        match gvaToHva mem cr3 ((va + total) % 2 ^ 64) with
        | none => none
        | some (hva, offsetToNextPage) =>
            -- A byte that has no translation ends the copy with what is written
            -- so far.
            if hva = 0 then some (total, mem)
            else
              let toWrite := min (size - total) (offsetToNextPage.getD 0)
              if hva + toWrite ≤ hostPhysicalSize then
                writeLoop cr3 va buffer size fuel (total + toWrite)
                  (memcpy mem hva buffer total toWrite)
              else some (total, mem)
      else some (total, mem)

/-- `write_guest_virtual` from a buffer of the hypervisor. -/
def writeGuestVirtual (mem : Bytes) (cr3 va : Nat) (buffer : Bytes) (size : Nat) :
    Option (Nat × Bytes) :=
  if va = 0 ∨ size = 0 then some (0, mem) else writeLoop cr3 va buffer size size 0 mem

/-! ### What the architecture says -/

/-- The upper 17 bits of a 64-bit address are equal. -/
def Canonical (va : Nat) : Prop := va < 2 ^ 47 ∨ 2 ^ 64 - 2 ^ 47 ≤ va ∧ va < 2 ^ 64

/-- An address is canonical by two comparisons. -/
instance (va : Nat) : Decidable (Canonical va) := inferInstanceAs (Decidable (_ ∨ _))

/-- Where the tables map bits 47:0 of an address, by the size of the
page that holds it. -/
def translate (tables : Tables) (dtb va : Nat) : Option Nat :=
  let pml4e := tables dtb (pml4Idx va)
  let pdpte := tables pml4e.pageFrameNumber (pdptIdx va)
  let pde := tables pdpte.pageFrameNumber (pdIdx va)
  let pte := tables pde.pageFrameNumber (ptIdx va)
  if !pml4e.present || !pdpte.present then none
  else if pdpte.largePage then some (pdpte.pageFrameNumber1gb * 2 ^ 30 + va % 2 ^ 30)
  else if !pde.present then none
  else if pde.largePage then some (pde.pageFrameNumber2mb * 2 ^ 21 + va % 2 ^ 21)
  else if !pte.present then none
  else some (pte.pageFrameNumber * 2 ^ 12 + va % 2 ^ 12)

/-- The translation of the processor, which takes canonical addresses
only. -/
def processorTranslate (tables : Tables) (dtb va : Nat) : Option Nat :=
  if Canonical va then translate tables dtb va else none

/-- The translation by a CR3 value, of an address whose upper bits are
not looked at. -/
def translateIn (mem : Bytes) (cr3 : Nat) : Nat → Option Nat :=
  translate (tablesOf mem) (pageDirectory cr3)

end Revhv.GuestMemory
