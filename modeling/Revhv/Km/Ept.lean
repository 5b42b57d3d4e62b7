import Mathlib.Algebra.GroupWithZero.Nat
import Mathlib.Data.List.FinRange
import Mathlib.Data.List.ProdSigma
import Mathlib.Logic.Function.Basic
import Revhv.Km.Memory
import Revhv.Km.Mtrr
import Revhv.Lib.Loop

/-!
# `Revhv.Km.Ept`: one EPT view and its operations

`revhv-km/ept.h` and `revhv-km/ept.cpp`. A view maps the first 512 GB
of guest-physical memory to themselves by 2 MB entries. 256 tables are
set aside to split such entries into 4 KB ones.

A pointer to a PTE is a position in those tables. A split PDE holds the
frame number of its table, and the code gets back to the table through
the host's window onto physical memory. `EptPages.tableAt` is that way
back. The two upper levels give full access once and for all and are
left out.

`EptPages.walk` is what the processor reads out of a view.
-/

set_option autoImplicit false

namespace Revhv.Ept

open Revhv.Lib Revhv.Memory

/-! ### Guest pages -/

/-- A 4 KB page of the first 512 GB, by the indices a walk takes to it. -/
structure GuestPage where
  pdpt : Fin 512
  pd : Fin 512
  pt : Fin 512
  deriving DecidableEq

/-- The frame number of a page. -/
def GuestPage.frame (q : GuestPage) : Nat := ((q.pdpt : Nat) * 512 + q.pd) * 512 + q.pt

/-- The page an address below 512 GB lies in. -/
def pageOf (gpa : Nat) : GuestPage := ⟨pdptIdx gpa, pdIdx gpa, ptIdx gpa⟩

/-! ### Entries -/

/-- The bits of a mapping entry besides access, memory type and frame. -/
structure EptAttributes where
  ignorePat : Bool
  accessed : Bool
  dirty : Bool
  userModeExecute : Bool
  verifyGuestPaging : Bool
  pagingWriteAccess : Bool
  supervisorShadowStack : Bool
  suppressVe : Bool
  deriving DecidableEq

/-- All of them clear. -/
def EptAttributes.zero : EptAttributes :=
  ⟨false, false, false, false, false, false, false, false⟩

/-- An `ept_pte`, or an `ept_pde_2mb`. The frame is in units of the page
the entry maps. -/
structure EptPte where
  readAccess : Bool
  writeAccess : Bool
  executeAccess : Bool
  memoryType : Nat
  attributes : EptAttributes
  pageFrameNumber : Nat
  deriving DecidableEq

/-- An entry of a zeroed table. -/
def EptPte.zero : EptPte := ⟨false, false, false, 0, .zero, 0⟩

/-- The entry with other access rights. -/
def EptPte.withAccess (e : EptPte) (read write execute : Bool) : EptPte :=
  { e with readAccess := read, writeAccess := write, executeAccess := execute }

/-- The entry with another memory type, a field of three bits. -/
def EptPte.withMemoryType (e : EptPte) (type : Nat) : EptPte := { e with memoryType := type % 8 }

/-- What `split_pde` writes at index `k` of the table that replaces a 2
MB entry. -/
def EptPte.piece (e : EptPte) (k : Fin 512) : EptPte :=
  { e with pageFrameNumber := e.pageFrameNumber * 512 + k }

/-- An `ept_pde` that points to a table. -/
structure EptPde where
  readAccess : Bool
  writeAccess : Bool
  executeAccess : Bool
  userModeExecute : Bool
  pageFrameNumber : Nat
  deriving DecidableEq

/-- The union of `pde_2mb` and `pde_split`, by its `large_page` bit. -/
inductive EptPdeSlot where
  | large (e : EptPte)
  | split (e : EptPde)
  deriving DecidableEq

/-! ### A view -/

/-- Number of tables set aside for splits. -/
def eptSplitPteCount : Nat := 256

/-- Most hooks of a view. -/
def eptMaxHookCount : Nat := 32

/-- A pointer into `split_pte`. -/
abbrev PtePtr := Fin eptSplitPteCount × Fin 512

/-- `ept_hook`. No pointer means that the hook is suspended. -/
structure EptHook where
  origPfn : Nat
  hookPfn : Nat
  pte : Option PtePtr
  deriving DecidableEq

/-- The frames `MmGetPhysicalAddress` reports for the tables: different
ones. -/
structure TableFrames where
  frame : Fin eptSplitPteCount → Nat
  injective : Function.Injective frame

/-- `ept_pages`. `hooks` are its first `hook_count` hooks. -/
structure EptPages where
  pde : Fin 512 → Fin 512 → EptPdeSlot
  splitPte : Fin eptSplitPteCount → Fin 512 → EptPte
  splitPtePfns : TableFrames
  splitPteUsed : Nat
  hooks : List EptHook

/-- The view with another PDE at `i`, `j`. -/
def EptPages.setPde (pages : EptPages) (i j : Fin 512) (e : EptPdeSlot) : EptPages :=
  { pages with pde := Function.update pages.pde i (Function.update (pages.pde i) j e) }

/-- The view after a write through a pointer to a PTE. -/
def EptPages.writePte (pages : EptPages) (ptr : PtePtr) (f : EptPte → EptPte) : EptPages :=
  { pages with
    splitPte := Function.update pages.splitPte ptr.1
      (Function.update (pages.splitPte ptr.1) ptr.2 (f (pages.splitPte ptr.1 ptr.2))) }

/-- The table whose physical frame is `pfn`. -/
def EptPages.tableAt (pages : EptPages) (pfn : Nat) : Option (Fin eptSplitPteCount) :=
  (List.finRange eptSplitPteCount).find? fun t => pages.splitPtePfns.frame t = pfn

/-- The entry a walk for a page ends in. The rights of a split PDE and
of the PTE behind it are combined. A PDE that leads to no table reads as
an entry that is not present. -/
def EptPages.walk (pages : EptPages) (q : GuestPage) : EptPte :=
  match pages.pde q.pdpt q.pd with
  | .large e => e.piece q.pt
  | .split e =>
      match pages.tableAt e.pageFrameNumber with
      | none => .zero
      | some t =>
          let pte := pages.splitPte t q.pt
          pte.withAccess (e.readAccess && pte.readAccess) (e.writeAccess && pte.writeAccess)
            (e.executeAccess && pte.executeAccess)

/-! ### Permissions and splits -/

/-- `set_all_permissions`. A split PDE keeps its own rights; every table
is rewritten, those not in use too. -/
def setAllPermissions (pages : EptPages) (read write execute : Bool) : EptPages :=
  { pages with
    pde := fun i j =>
      match pages.pde i j with
      | .large e => .large (e.withAccess read write execute)
      | .split e => .split e
    splitPte := fun t k => (pages.splitPte t k).withAccess read write execute }

/-- `split_pde` on the PDE at `i`, `j`: the new view and the table it
used. `none` is its answer `false`, with nothing changed. -/
def splitPde (pages : EptPages) (i j : Fin 512) : Option (EptPages × Fin eptSplitPteCount) :=
  match pages.pde i j with
  | .split _ => none
  | .large e =>
      -- The pool of page tables is never given back.
      if h : pages.splitPteUsed < eptSplitPteCount then
        let t : Fin eptSplitPteCount := ⟨pages.splitPteUsed, h⟩
        let pages :=
          { pages with
            splitPteUsed := pages.splitPteUsed + 1
            splitPte := Function.update pages.splitPte t e.piece }
        some (pages.setPde i j (.split ⟨true, true, true, true, pages.splitPtePfns.frame t⟩), t)
      else none

/-- `get_ept_pte`. A forced split changes the view even where the caller
only wants the pointer. -/
def getEptPte (pages : EptPages) (gpa : Nat) (forceSplit : Bool) : EptPages × Option PtePtr :=
  -- Only the first PML4 entry, 512 GB, is mapped.
  if pml4Idx gpa ≠ 0 then (pages, none)
  else
    let q := pageOf gpa
    match pages.pde q.pdpt q.pd with
    | .split e => (pages, (pages.tableAt e.pageFrameNumber).map fun t => (t, q.pt))
    | .large _ =>
        if !forceSplit then (pages, none)
        else
          match splitPde pages q.pdpt q.pd with
          | none => (pages, none)
          | some (pages, t) => (pages, some (t, q.pt))

/-! ### Building a view, and its memory types -/

/-- One round of the loop that types the entries of a table. `.error` is
its early return. -/
def typePte (mtrrState : MtrrState) (t : Fin eptSplitPteCount) (pages : EptPages)
    (k : Fin 512) : Except EptPages EptPages :=
  let pte := pages.splitPte t k
  let range := getMtrrRangeMemoryType mtrrState (pte.pageFrameNumber * 0x1000) 0x1000
  if !range.isUniform then .error pages
  else .ok (pages.writePte (t, k) fun e => e.withMemoryType range.type)

/-- The loop over the entries of a table. -/
def typeTable (mtrrState : MtrrState) (pages : EptPages) (t : Fin eptSplitPteCount) :
    Except EptPages EptPages :=
  (List.finRange 512).foldlM (typePte mtrrState t) pages

/-- The PDE `initialize_ept` starts from at `i`, `j`: full access, the 2
MB frame in order. -/
def identityPde (i j : Fin 512) : EptPte := ⟨true, true, true, 0, .zero, (i : Nat) * 512 + j⟩

/-- One round of the loop of `initialize_ept` over the PDEs. -/
def initializePde (mtrrState : MtrrState) (pages : EptPages) (ij : Fin 512 × Fin 512) :
    Except EptPages EptPages :=
  let (i, j) := ij
  let e := identityPde i j
  let range := getMtrrRangeMemoryType mtrrState (e.pageFrameNumber * 0x200000) 0x200000
  let pages := pages.setPde i j (.large e)
  if range.isUniform then .ok (pages.setPde i j (.large (e.withMemoryType range.type)))
  else
    match splitPde pages i j with
    -- No table is left: the whole 2 MB get the most restrictive type.
    | none => .ok (pages.setPde i j (.large (e.withMemoryType range.type)))
    | some (pages, t) => typeTable mtrrState pages t

/-- The indices of all PDEs, in the order of the loops. -/
def pdeIndices : List (Fin 512 × Fin 512) :=
  List.product (List.finRange 512) (List.finRange 512)

/-- A zeroed view whose tables lie at `frames`. -/
def EptPages.zeroed (frames : TableFrames) : EptPages where
  pde _ _ := .split ⟨false, false, false, false, 0⟩
  splitPte _ _ := .zero
  splitPtePfns := frames
  splitPteUsed := 0
  hooks := []

/-- `initialize_ept`. Proofs unfold it by name only. -/
@[irreducible] def initializeEpt (frames : TableFrames) (mtrrState : MtrrState) : EptPages :=
  Loop.exit (pdeIndices.foldlM (initializePde mtrrState) (EptPages.zeroed frames))

/-- One round of the inner loop of `update_ept_memory_types`. A table it
makes is typed by the loop over the tables that follows. -/
def updatePde (mtrrState : MtrrState) (i : Fin 512) (pages : EptPages) (j : Fin 512) : EptPages :=
  match pages.pde i j with
  | .split _ => pages
  | .large e =>
      let range := getMtrrRangeMemoryType mtrrState (e.pageFrameNumber * 0x200000) 0x200000
      if range.isUniform then pages.setPde i j (.large (e.withMemoryType range.type))
      else
        match splitPde pages i j with
        | none => pages.setPde i j (.large (e.withMemoryType range.type))
        | some (pages, _) => pages

/-- One round of the outer loop of `update_ept_memory_types`: the PDEs
of one directory, then every table in use. -/
def updatePd (mtrrState : MtrrState) (pages : EptPages) (i : Fin 512) :
    Except EptPages EptPages :=
  let pages := (List.finRange 512).foldl (updatePde mtrrState i) pages
  ((List.finRange eptSplitPteCount).filter fun t => t.val < pages.splitPteUsed).foldlM
    (typeTable mtrrState) pages

/-- `update_ept_memory_types`. -/
@[irreducible] def updateEptMemoryTypes (pages : EptPages) (mtrrState : MtrrState) : EptPages :=
  Loop.exit ((List.finRange 512).foldlM (updatePd mtrrState) pages)

/-! ### Hooks -/

/-- `static_cast<uint32_t>`. -/
def castUInt32 (n : Nat) : Nat := n % 2 ^ 32

/-- `add_hook`. Both frame numbers are cut to 32 bits in the stored
hook. -/
def addHook (pages : EptPages) (origPfn hookPfn : Nat) : EptPages × Bool :=
  if eptMaxHookCount ≤ pages.hooks.length then (pages, false)
  else
    match getEptPte pages (origPfn * 2 ^ 12 % 2 ^ 64) true with
    | (pages, none) => (pages, false)
    | (pages, some pte) =>
        let hook : EptHook := ⟨castUInt32 origPfn, castUInt32 hookPfn, some pte⟩
        let pages := { pages with hooks := pages.hooks ++ [hook] }
        (pages.writePte pte fun e => { e with executeAccess := false }, true)

/-- `get_hook_by_orig_pfn`: the oldest hook on the frame. -/
def getHookByOrigPfn (pages : EptPages) (origPfn : Nat) : Option EptHook :=
  pages.hooks.find? fun hook => hook.origPfn = origPfn

/-- A loop over the hooks whose body may rewrite its hook and the view's
entries. -/
def sweepHooks (body : EptPages → EptHook → EptPages × EptHook) :
    EptPages → List EptHook → EptPages × List EptHook
  | pages, [] => (pages, [])
  | pages, hook :: hooks =>
      let first := body pages hook
      let rest := sweepHooks body first.1 hooks
      (rest.1, first.2 :: rest.2)

/-- The body of `deactivate_hooks`. -/
def deactivateHook (pages : EptPages) (hook : EptHook) : EptPages × EptHook :=
  match hook.pte with
  | none => (pages, hook)
  | some pte =>
      (pages.writePte pte fun e =>
        { e.withAccess true true true with pageFrameNumber := hook.origPfn },
        { hook with pte := none })

/-- `deactivate_hooks`. -/
def deactivateHooks (pages : EptPages) : EptPages :=
  let swept := sweepHooks deactivateHook pages pages.hooks
  { swept.1 with hooks := swept.2 }

/-- The body of `reactivate_hooks`. -/
def reactivateHook (pages : EptPages) (hook : EptHook) : EptPages × EptHook :=
  match hook.pte with
  -- An active hook is left as it is, whatever its entry looks like by now.
  | some _ => (pages, hook)
  | none =>
      match getEptPte pages (hook.origPfn * 2 ^ 12) false with
      | (pages, none) => (pages, hook)
      | (pages, some pte) =>
          (pages.writePte pte fun e =>
            { e with pageFrameNumber := hook.origPfn, executeAccess := false },
            { hook with pte := some pte })

/-- `reactivate_hooks`. -/
def reactivateHooks (pages : EptPages) : EptPages :=
  let swept := sweepHooks reactivateHook pages pages.hooks
  { swept.1 with hooks := swept.2 }

/-! ### Auto-trace -/

/-- The two views of a vCPU. -/
structure EptViews where
  normal : EptPages
  target : EptPages

/-- The number of pages `enable_auto_trace` visits. All of its
arithmetic is modulo `2 ^ 64`. -/
def targetPageCount (targetVa targetSize : Nat) : Nat :=
  let pageAlignedVa := targetVa / 0x1000 * 0x1000
  let pageAlignedEnd := (targetVa + targetSize + 0xFFF) % 2 ^ 64 / 0x1000 * 0x1000
  (pageAlignedEnd + 2 ^ 64 - pageAlignedVa) % 2 ^ 64 / 0x1000

/-- The address of round `n`. -/
def targetPageVa (targetVa n : Nat) : Nat := (targetVa / 0x1000 * 0x1000 + n * 0x1000) % 2 ^ 64

/-- One round of the loop of `enable_auto_trace`. `.error` is the exit
with full access in both views. -/
def tracePage (tables : Tables) (systemCr3 targetVa : Nat) (views : EptViews) (n : Nat) :
    Except EptViews EptViews :=
  let gpa := (gvaToGpa tables systemCr3 (targetPageVa targetVa n)).1
  -- A page that does not translate is passed over.
  if gpa = 0 then .ok views
  else
    match getEptPte views.normal gpa true, getEptPte views.target gpa true with
    | (normal, some pteNormal), (target, some pteTarget) =>
        .ok
          { normal := normal.writePte pteNormal fun e => { e with executeAccess := false }
            target := target.writePte pteTarget fun e => { e with executeAccess := true } }
    | (normal, _), (target, _) =>
        .error
          { normal := setAllPermissions normal true true true
            target := setAllPermissions target true true true }

/-- `enable_auto_trace`: `.ok` is its answer `true`, `.error` its answer
`false`. Only the target view is reset first. -/
@[irreducible] def enableAutoTrace (tables : Tables) (systemCr3 : Nat) (views : EptViews)
    (targetVa targetSize : Nat) : Except EptViews EptViews :=
  (List.range (targetPageCount targetVa targetSize)).foldlM (tracePage tables systemCr3 targetVa)
    { views with target := setAllPermissions views.target true true false }

/-- `restore_auto_trace`. -/
def restoreAutoTrace (views : EptViews) : EptViews where
  normal := setAllPermissions views.normal true true true
  target := setAllPermissions views.target true true true

end Revhv.Ept
