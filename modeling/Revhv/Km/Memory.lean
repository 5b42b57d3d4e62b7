import Mathlib.Algebra.GroupWithZero.Nat
import Mathlib.Data.Nat.Basic

/-!
# `Revhv.Km.Memory`: page tables and `gva_to_gpa`

The index fields of a virtual address, the fields of a paging entry,
and the four-level walk of `gva_to_gpa` (`revhv-km/memory.h`,
`revhv-km/memory.cpp`).

A walk reads tables at physical frames. What is in them is a value of
`Tables`, from a frame number and an index to the entry.
-/

set_option autoImplicit false

namespace Revhv.Memory

/-! ### `pml4_virtual_address` -/

/-- A table has entries, so a numeral is an index of one. -/
instance neZero_entryCount : NeZero 512 := ⟨by decide⟩

/-- Bits 11:0. -/
def offset (va : Nat) : Nat := va % 2 ^ 12

/-- Bits 20:12. -/
def ptIdx (va : Nat) : Fin 512 := Fin.ofNat 512 (va / 2 ^ 12)

/-- Bits 29:21. -/
def pdIdx (va : Nat) : Fin 512 := Fin.ofNat 512 (va / 2 ^ 21)

/-- Bits 38:30. -/
def pdptIdx (va : Nat) : Fin 512 := Fin.ofNat 512 (va / 2 ^ 30)

/-- Bits 47:39. The sign extension above them takes no part in a walk. -/
def pml4Idx (va : Nat) : Fin 512 := Fin.ofNat 512 (va / 2 ^ 39)

/-- The frame number of an address, `address >> 12`. -/
def toPfn (address : Nat) : Nat := address / 2 ^ 12

/-! ### Paging entries -/

/-- A paging entry of any level. `pageFrameNumber` is bits 47:12; a
large page uses the upper part of them. `otherFlags` are the bits no
walk looks at. -/
structure PageEntry where
  present : Bool
  write : Bool
  largePage : Bool
  pageFrameNumber : Nat
  otherFlags : Nat
  deriving DecidableEq

/-- An entry of a zeroed table. -/
def PageEntry.zero : PageEntry := ⟨false, false, false, 0, 0⟩

/-- The frame number of a 2 MB leaf, bits 47:21. -/
def PageEntry.pageFrameNumber2mb (e : PageEntry) : Nat := e.pageFrameNumber / 2 ^ 9

/-- The frame number of a 1 GB leaf, bits 47:30. -/
def PageEntry.pageFrameNumber1gb (e : PageEntry) : Nat := e.pageFrameNumber / 2 ^ 18

/-- The page tables in physical memory: the entry at an index of the
table at a frame. -/
abbrev Tables := Nat → Fin 512 → PageEntry

/-- `gva_to_gpa` with the table at frame `dtb` as the root. The first
component is the value it returns, 0 standing for a failed walk. The
second is what it stores through `offset_to_next_page`. -/
def gvaToGpa (tables : Tables) (dtb gva : Nat) : Nat × Option Nat :=
  let pml4e := tables dtb (pml4Idx gva)
  if !pml4e.present then (0, none)
  else
    let pdpte := tables pml4e.pageFrameNumber (pdptIdx gva)
    if !pdpte.present then (0, none)
    else if pdpte.largePage then
      -- The offset in a 1 GB page is put together from the lower two indices.
      let off := (pdIdx gva : Nat) * 2 ^ 21 + (ptIdx gva : Nat) * 2 ^ 12 + offset gva
      (pdpte.pageFrameNumber1gb * 2 ^ 30 + off, some (0x40000000 - off))
    else
      let pde := tables pdpte.pageFrameNumber (pdIdx gva)
      if !pde.present then (0, none)
      else if pde.largePage then
        let off := (ptIdx gva : Nat) * 2 ^ 12 + offset gva
        (pde.pageFrameNumber2mb * 2 ^ 21 + off, some (0x200000 - off))
      else
        let pte := tables pde.pageFrameNumber (ptIdx gva)
        if !pte.present then (0, none)
        else (pte.pageFrameNumber * 2 ^ 12 + offset gva, some (0x1000 - offset gva))

end Revhv.Memory
