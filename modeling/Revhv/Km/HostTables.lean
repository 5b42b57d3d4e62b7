import Revhv.Km.Memory
import Mathlib.Logic.Function.Basic

/-!
# `Revhv.Km.HostTables`: the host page tables

`get_system_pte_for_va`, `map_va_range_to_host` and the part of
`map_host_page_tables` before its first mapping (`revhv-km/memory.cpp`).

Pages of tables are named by their frames: `MmGetPhysicalAddress` and
`MmGetVirtualForPhysical` are inverse to each other. The tables of the
system are not written to.
-/

set_option autoImplicit false

namespace Revhv.HostTables

open Revhv.Memory

/-! ### Where the tables lie -/

/-- The frames of the two tables in `host_page_tables`, and the page
that `MmAllocateContiguousMemorySpecifyCache` gives at its `n`-th call,
if it gives one. A page is given once and is none of the two tables. -/
structure HostMemory where
  pml4e : Nat
  pdpte : Nat
  page : Nat → Option Nat
  pdpte_ne : pdpte ≠ pml4e
  page_ne : ∀ n f, page n = some f → f ≠ pml4e ∧ f ≠ pdpte
  page_injective : ∀ m n f, page m = some f → page n = some f → m = n
  pdpte_lt : pdpte < 2 ^ 36
  page_lt : ∀ n f, page n = some f → f < 2 ^ 36

/-- The contents of pages, and how often a page has been asked for. -/
structure HostPageTables where
  pages : Tables
  allocated : Nat

/-- One entry is written. -/
def HostPageTables.set (t : HostPageTables) (frame : Nat) (i : Fin 512) (e : PageEntry) :
    HostPageTables :=
  { t with pages := Function.update t.pages frame (Function.update (t.pages frame) i e) }

/-- `host_pml4_index`. -/
def hostPml4Index : Fin 512 := 255

/-- An entry after `present`, `write` and `page_frame_number` have been
stored. -/
def linkEntry (e : PageEntry) (frame : Nat) : PageEntry :=
  { e with present := true, write := true, pageFrameNumber := frame % 2 ^ 36 }

/-- An entry of the window to physical memory. -/
def windowEntry (i : Fin 512) : PageEntry := ⟨true, true, true, i * 2 ^ 18, 0⟩

/-- What `map_host_page_tables` begins with: the tables are zero up to
the window at `host_pml4_index`. The other pages hold anything. -/
def startTables (m : HostMemory) (rest : Tables) : HostPageTables where
  pages := Function.update
    (Function.update rest m.pml4e
      (Function.update (fun _ => PageEntry.zero) hostPml4Index (linkEntry .zero m.pdpte)))
    m.pdpte windowEntry
  allocated := 0

/-! ### `get_system_pte_for_va` -/

/-- The levels of `page_table_level` that hold leaves. -/
inductive PageTableLevel where
  | pte
  | pde
  | pdpte
  deriving DecidableEq

/-- `get_system_pte_for_va`: the leaf of an address and its level. -/
def getSystemPteForVa (system : Tables) (dtb va : Nat) : Option (PageEntry × PageTableLevel) :=
  let pml4e := system dtb (pml4Idx va)
  if !pml4e.present then none
  else
    let pdpte := system pml4e.pageFrameNumber (pdptIdx va)
    if !pdpte.present then none
    else if pdpte.largePage then some (pdpte, .pdpte)
    else
      let pde := system pdpte.pageFrameNumber (pdIdx va)
      if !pde.present then none
      else if pde.largePage then some (pde, .pde)
      else
        let pte := system pde.pageFrameNumber (ptIdx va)
        if !pte.present then none else some (pte, .pte)

/-! ### `map_va_range_to_host` -/

/-- `alloc_host_pt`. -/
def allocHostPt (m : HostMemory) (t : HostPageTables) : Option Nat × HostPageTables :=
  match m.page t.allocated with
  | none => (none, { t with allocated := t.allocated + 1 })
  | some frame =>
      (some frame, { pages := Function.update t.pages frame fun _ => PageEntry.zero,
                     allocated := t.allocated + 1 })

/-- The table behind an entry, which is allocated if there is none. -/
def ensureTable (m : HostMemory) (t : HostPageTables) (frame : Nat) (i : Fin 512) :
    Option Nat × HostPageTables :=
  if (t.pages frame i).present then (some (t.pages frame i).pageFrameNumber, t)
  else
    match allocHostPt m t with
    | (none, t') => (none, t')
    | (some page, t') =>
        let e := linkEntry (t'.pages frame i) page
        (some e.pageFrameNumber, t'.set frame i e)

/-- The leaf is stored behind the indices, from the table at a frame on. -/
def mapLeaf (m : HostMemory) : HostPageTables → Nat → List (Fin 512) → PageEntry →
    Bool × HostPageTables
  | t, _, [], _ => (true, t)
  | t, frame, [i], leaf => (true, t.set frame i leaf)
  | t, frame, i :: j :: rest, leaf =>
      match ensureTable m t frame i with
      | (none, t') => (false, t')
      | (some page, t') => mapLeaf m t' page (j :: rest) leaf

/-- The indices that lead to a leaf. -/
def leafPath (va : Nat) : PageTableLevel → List (Fin 512)
  | .pdpte => [pml4Idx va, pdptIdx va]
  | .pde => [pml4Idx va, pdptIdx va, pdIdx va]
  | .pte => [pml4Idx va, pdptIdx va, pdIdx va, ptIdx va]

/-- How far the loop goes after a leaf, as a power of 2. At the level of
1 GB pages the mask is `0xFFFFFFFF`. -/
def strideBits : PageTableLevel → Nat
  | .pte => 12
  | .pde => 21
  | .pdpte => 32

/-- The next address: down to a multiple of the stride, then one stride
up. -/
def nextAddress (level : PageTableLevel) (current : Nat) : Nat :=
  (current / 2 ^ strideBits level * 2 ^ strideBits level + 2 ^ strideBits level) % 2 ^ 64

/-- The loop of `map_va_range_to_host`. `none`: it has not come to its
end. -/
def mapLoop (m : HostMemory) (system : Tables) (dtb endAddress : Nat) :
    (fuel current : Nat) → HostPageTables → Option (Bool × HostPageTables)
  | 0, _, _ => none
  | fuel + 1, current, t =>
      if current < endAddress then
        match getSystemPteForVa system dtb current with
        | none => some (false, t)
        | some (leaf, level) =>
            match mapLeaf m t m.pml4e (leafPath current level) leaf with
            -- A leaf that cannot be placed ends the loop with the tables half
            -- filled.
            | (false, t') => some (false, t')
            | (true, t') => mapLoop m system dtb endAddress fuel (nextAddress level current) t'
      else some (true, t)

/-- `map_va_range_to_host`. -/
def mapVaRangeToHost (m : HostMemory) (system : Tables) (dtb fuel : Nat) (t : HostPageTables)
    (va size : Nat) : Option (Bool × HostPageTables) :=
  mapLoop m system dtb ((va + size) % 2 ^ 64) fuel va t

/-- A call: the range, and how many rounds its loop may take. -/
structure MapCall where
  va : Nat
  size : Nat
  fuel : Nat

/-- The tables after one call after the other, if all of them return
true. -/
def mapCalls (m : HostMemory) (system : Tables) (dtb : Nat) :
    HostPageTables → List MapCall → Option HostPageTables
  | t, [] => some t
  | t, call :: calls =>
      match mapVaRangeToHost m system dtb call.fuel t call.va call.size with
      | some (true, t') => mapCalls m system dtb t' calls
      | _ => none

end Revhv.HostTables
