import Mathlib.Algebra.GroupWithZero.Nat
import Mathlib.Data.Nat.Basic

/-!
# `Revhv.Km.Mtrr`: memory types from the MTRRs

`get_mtrr_memory_type_single` and `get_mtrr_range_memory_type`
(`revhv-km/memory.cpp`) over the state `read_mtrrs` has collected.
Where MTRRs overlap, both functions combine types by the same rules.

`rangeMemoryType_page` says that a single 4 KB page always counts as
uniform, so the early returns that the EPT code makes for a page that
is not are never taken.
-/

set_option autoImplicit false

namespace Revhv.Memory

/-! ### Memory types -/

/-- `MEMORY_TYPE_UNCACHEABLE`. -/
def memoryTypeUncacheable : Nat := 0

/-- `MEMORY_TYPE_WRITE_THROUGH`. -/
def memoryTypeWriteThrough : Nat := 4

/-- `MEMORY_TYPE_WRITE_BACK`. -/
def memoryTypeWriteBack : Nat := 6

/-- `MEMORY_TYPE_INVALID`. -/
def memoryTypeInvalid : Nat := 0xFF

/-- A pair of variable-range registers. -/
structure VariableRange where
  baseType : Nat
  basePageFrameNumber : Nat
  maskValid : Bool
  maskPageFrameNumber : Nat
  deriving DecidableEq

/-- `mtrr_state`. -/
structure MtrrState where
  mtrrEnable : Bool
  fixedRangeMtrrEnable : Bool
  defaultMemoryType : Nat
  fixedSupported : Bool
  /-- Eight 64 KB ranges, then sixteen of 16 KB, then sixty-four of 4
  KB. -/
  fixed : Nat → Nat
  /-- The first `variable_count` pairs. -/
  variableRanges : List VariableRange

/-- The type of an address that two ranges with types `a` and `b` cover. -/
def combineTypes (a b : Nat) : Nat :=
  if a = memoryTypeUncacheable ∨ b = memoryTypeUncacheable then memoryTypeUncacheable
  else if (a = memoryTypeWriteThrough ∧ b = memoryTypeWriteBack) ∨
      (a = memoryTypeWriteBack ∧ b = memoryTypeWriteThrough) then memoryTypeWriteThrough
  else memoryTypeUncacheable

/-- One round of the loop over the variable ranges. -/
def variableRangeType (physicalAddress finalType : Nat) (r : VariableRange) : Nat :=
  if !r.maskValid then finalType
  else
    let rangeMask := r.maskPageFrameNumber <<< 12
    let rangeBase := r.basePageFrameNumber <<< 12
    if physicalAddress &&& rangeMask ≠ rangeBase &&& rangeMask then finalType
    else if finalType = memoryTypeInvalid then r.baseType
    -- Two ranges of one type that is not UC still combine to UC here.
    else combineTypes r.baseType finalType

/-- `get_mtrr_memory_type_single`. -/
def getMtrrMemoryTypeSingle (state : MtrrState) (physicalAddress : Nat) : Nat :=
  if !state.mtrrEnable then memoryTypeUncacheable
  else if physicalAddress < 0x100000 ∧ state.fixedSupported ∧ state.fixedRangeMtrrEnable then
    if physicalAddress < 0x80000 then state.fixed (physicalAddress / 0x10000)
    else if physicalAddress < 0xC0000 then
      state.fixed (8 + (physicalAddress - 0x80000) / 0x4000)
    else state.fixed (24 + (physicalAddress - 0xC0000) / 0x1000)
  else
    let finalType :=
      state.variableRanges.foldl (variableRangeType physicalAddress) memoryTypeInvalid
    if finalType ≠ memoryTypeInvalid then finalType else state.defaultMemoryType

/-- The type of a range: what `get_mtrr_range_memory_type` returns and
its `is_uniform`. -/
structure RangeType where
  type : Nat
  isUniform : Bool
  deriving DecidableEq

/-- One round of the loop over the further pages of a range. -/
def rangePageType (state : MtrrState) (start : Nat) (acc : RangeType) (k : Nat) : RangeType :=
  let type := getMtrrMemoryTypeSingle state (start + k * 0x1000)
  if type = acc.type then acc else ⟨combineTypes type acc.type, false⟩

/-- `get_mtrr_range_memory_type`. -/
def getMtrrRangeMemoryType (state : MtrrState) (physicalAddress targetSize : Nat) : RangeType :=
  let firstType := getMtrrMemoryTypeSingle state physicalAddress
  -- The second page of the range is the first one the loop visits.
  let start := physicalAddress / 0x1000 * 0x1000 + 0x1000
  let pages := (physicalAddress + targetSize - start + 0xFFF) / 0x1000
  (List.range pages).foldl (rangePageType state start) ⟨firstType, true⟩

/-- A range of one page has no further pages, so it is uniform. -/
theorem rangeMemoryType_page (state : MtrrState) (frame : Nat) :
    getMtrrRangeMemoryType state (frame * 0x1000) 0x1000 =
      ⟨getMtrrMemoryTypeSingle state (frame * 0x1000), true⟩ := by
  have hpages : (frame * 0x1000 + 0x1000 - (frame * 0x1000 / 0x1000 * 0x1000 + 0x1000) + 0xFFF)
      / 0x1000 = 0 := by omega
  unfold getMtrrRangeMemoryType
  simp only [hpages, List.range_zero, List.foldl_nil]

/-- A range all of whose pages have one type is uniform. -/
theorem rangeMemoryType_of_const {state : MtrrState} {type : Nat}
    (h : ∀ a, getMtrrMemoryTypeSingle state a = type) (physicalAddress targetSize : Nat) :
    getMtrrRangeMemoryType state physicalAddress targetSize = ⟨type, true⟩ := by
  have hround : ∀ (start k : Nat), rangePageType state start ⟨type, true⟩ k = ⟨type, true⟩ := by
    intro start k
    simp [rangePageType, h]
  have hloop : ∀ (start : Nat) (ks : List Nat),
      ks.foldl (rangePageType state start) ⟨type, true⟩ = ⟨type, true⟩ := by
    intro start ks
    induction ks with
    | nil => rfl
    | cons k ks ih =>
      rw [List.foldl_cons, hround]
      exact ih
  unfold getMtrrRangeMemoryType
  rw [h]
  exact hloop _ _

/-- With the MTRRs off every address is uncacheable. -/
theorem memoryTypeSingle_of_disabled {state : MtrrState} (h : state.mtrrEnable = false)
    (a : Nat) : getMtrrMemoryTypeSingle state a = memoryTypeUncacheable := by
  unfold getMtrrMemoryTypeSingle
  rw [h]
  rfl

end Revhv.Memory
