import Mathlib.Order.Bounds.Basic
import Revhv.Km.Msr

/-!
# `Revhv.Proofs.MtrrTypes`: the memory types against the architecture

* `MemType` orders the types by how restrictive they are. Where ranges
  overlap, the architecture takes the greatest lower bound.
* `architecturalType` is the type that the registers give to an address.
* `foldl_combineTypes`: the fold of the source over overlapping ranges
  is that bound, unless a range repeats the type of those before it.
* `memoryTypeSingle_iff`: exactly when an address gets its type.
* `rangeMemoryType_spec`: a range of pages gets the bound of their types.
* `memoryTypes_architectural`: addresses and ranges of pages.
* `sameType_uncacheable`: two write-back ranges combine to UC.
-/

set_option autoImplicit false

namespace Revhv.Memory

/-! ### The order of the types -/

/-- A memory type, ordered by how restrictive it is. -/
@[ext] structure MemType where
  value : Nat
  deriving DecidableEq

namespace MemType

/-- The type of an address that ranges of both types cover. Equal types
keep. -/
def overlap (a b : MemType) : MemType := if a = b then a else ⟨combineTypes a.value b.value⟩

/-- UC is below every type, and WT is below WB. -/
instance : LE MemType where
  le a b := a.value = memoryTypeUncacheable ∨ a = b ∨
    (a.value = memoryTypeWriteThrough ∧ b.value = memoryTypeWriteBack)

/-- The order of the types: UC is below all, and WT below WB. -/
theorem le_def {a b : MemType} : a ≤ b ↔ a.value = memoryTypeUncacheable ∨ a = b ∨
    (a.value = memoryTypeWriteThrough ∧ b.value = memoryTypeWriteBack) := Iff.rfl

/-- The four ways two types overlap. -/
theorem overlap_cases (a b : MemType) :
    (a = b ∧ overlap a b = a) ∨
    (a.value = memoryTypeWriteThrough ∧ b.value = memoryTypeWriteBack ∧ overlap a b = a) ∨
    (a.value = memoryTypeWriteBack ∧ b.value = memoryTypeWriteThrough ∧ overlap a b = b) ∨
    (a ≠ b ∧ ¬ (a.value = memoryTypeWriteThrough ∧ b.value = memoryTypeWriteBack) ∧
      ¬ (a.value = memoryTypeWriteBack ∧ b.value = memoryTypeWriteThrough) ∧
      overlap a b = ⟨memoryTypeUncacheable⟩) := by
  -- Equal types, write-through over write-back in either order, and all the
  -- rest, which is uncacheable.
  by_cases hab : a = b
  · exact Or.inl ⟨hab, if_pos hab⟩
  · have hoverlap : overlap a b = ⟨combineTypes a.value b.value⟩ := if_neg hab
    rw [hoverlap]
    by_cases hwt : a.value = memoryTypeWriteThrough ∧ b.value = memoryTypeWriteBack
    · refine Or.inr (Or.inl ⟨hwt.1, hwt.2, MemType.ext ?_⟩)
      rw [hwt.1, hwt.2]
      rfl
    · by_cases hwb : a.value = memoryTypeWriteBack ∧ b.value = memoryTypeWriteThrough
      · refine Or.inr (Or.inr (Or.inl ⟨hwb.1, hwb.2, MemType.ext ?_⟩))
        rw [hwb.1, hwb.2]
        rfl
      · refine Or.inr (Or.inr (Or.inr ⟨hab, hwt, hwb, MemType.ext ?_⟩))
        show combineTypes a.value b.value = memoryTypeUncacheable
        rw [combineTypes]
        split
        · rfl
        · rw [if_neg fun h => h.elim hwt hwb]

/-- UC is the least type. -/
theorem uncacheable_le (a : MemType) : ⟨memoryTypeUncacheable⟩ ≤ a := Or.inl rfl

/-- The types with `overlap` are a semilattice. -/
instance : SemilatticeInf MemType where
  le_refl _ := Or.inr (Or.inl rfl)
  le_trans a b c hab hbc := by
    -- The order has two steps only: UC below everything and WT below WB.
    rw [le_def, MemType.ext_iff] at *
    simp only [memoryTypeUncacheable, memoryTypeWriteThrough, memoryTypeWriteBack] at *
    omega
  le_antisymm a b hab hba := by
    rw [le_def, MemType.ext_iff] at *
    simp only [memoryTypeUncacheable, memoryTypeWriteThrough, memoryTypeWriteBack] at *
    omega
  inf := overlap
  inf_le_left a b := by
    rcases overlap_cases a b with ⟨-, ho⟩ | ⟨-, -, ho⟩ | ⟨ha, hb, ho⟩ | ⟨-, -, -, ho⟩
    · rw [ho]
      exact Or.inr (Or.inl rfl)
    · rw [ho]
      exact Or.inr (Or.inl rfl)
    · rw [ho]
      exact Or.inr (Or.inr ⟨hb, ha⟩)
    · rw [ho]
      exact uncacheable_le a
  inf_le_right a b := by
    rcases overlap_cases a b with ⟨hab, ho⟩ | ⟨ha, hb, ho⟩ | ⟨-, -, ho⟩ | ⟨-, -, -, ho⟩
    · rw [ho]
      exact Or.inr (Or.inl hab)
    · rw [ho]
      exact Or.inr (Or.inr ⟨ha, hb⟩)
    · rw [ho]
      exact Or.inr (Or.inl rfl)
    · rw [ho]
      exact uncacheable_le b
  le_inf c a b hca hcb := by
    rcases overlap_cases a b with ⟨-, ho⟩ | ⟨-, -, ho⟩ | ⟨-, -, ho⟩ | ⟨hne, hwt, hwb, ho⟩
    · rw [ho]
      exact hca
    · rw [ho]
      exact hca
    · rw [ho]
      exact hcb
    · -- Only UC is below two types that differ and are not WT and WB.
      rw [ho]
      rw [le_def, MemType.ext_iff] at *
      rw [ne_eq, MemType.ext_iff] at hne
      simp only [memoryTypeUncacheable, memoryTypeWriteThrough, memoryTypeWriteBack] at *
      omega

/-- Where two types overlap, the processor uses their greatest lower
bound. -/
theorem inf_eq (a b : MemType) : a ⊓ b = overlap a b := rfl

/-- The type of an address in ranges of types `t` and `ts`. -/
def meet (t : Nat) (ts : List Nat) : MemType := ts.foldl (fun acc t => ⟨t⟩ ⊓ acc) ⟨t⟩

/-- It is the greatest lower bound of the types, so their order does not
matter. -/
theorem isGLB_meet (t : Nat) (ts : List Nat) :
    IsGLB {x | ∃ u ∈ t :: ts, x = (⟨u⟩ : MemType)} (meet t ts) := by
  have hloop : ∀ (acc : MemType) (S : Set MemType), IsGLB S acc →
      IsGLB (S ∪ {x | ∃ u ∈ ts, x = (⟨u⟩ : MemType)})
        (ts.foldl (fun acc t => ⟨t⟩ ⊓ acc) acc) := by
    -- By induction over the types of the loop, with the set of those seen so
    -- far.
    induction ts with
    | nil =>
      intro acc S hS
      have hempty : S ∪ {x | ∃ u ∈ ([] : List Nat), x = (⟨u⟩ : MemType)} = S := by simp
      rw [hempty]
      exact hS
    | cons u us ih =>
      intro acc S hS
      have hnext : IsGLB (S ∪ {(⟨u⟩ : MemType)}) (⟨u⟩ ⊓ acc) := by
        rw [inf_comm]
        exact hS.union isGLB_singleton
      have hset : S ∪ {x | ∃ v ∈ u :: us, x = (⟨v⟩ : MemType)} =
          S ∪ {(⟨u⟩ : MemType)} ∪ {x | ∃ v ∈ us, x = (⟨v⟩ : MemType)} := by
        ext x
        simp only [List.mem_cons, exists_eq_or_imp, Set.mem_union, Set.mem_ofPred_eq,
          Set.mem_singleton_iff, or_assoc]
      rw [hset]
      exact ih _ _ hnext
  have hall := hloop ⟨t⟩ {⟨t⟩} isGLB_singleton
  have hset : {x | ∃ u ∈ t :: ts, x = (⟨u⟩ : MemType)} =
      {(⟨t⟩ : MemType)} ∪ {x | ∃ u ∈ ts, x = (⟨u⟩ : MemType)} := by
    ext x
    simp only [List.mem_cons, exists_eq_or_imp, Set.mem_union, Set.mem_ofPred_eq,
      Set.mem_singleton_iff]
  rw [hset]
  exact hall

/-- The bound of types that are all alike is that type. -/
theorem eq_of_const {ts : List Nat} {bound : MemType} {one t : Nat}
    (hbound : IsGLB {x | ∃ u ∈ ts, x = (⟨u⟩ : MemType)} bound) (hall : ∀ u ∈ ts, u = one)
    (ht : t ∈ ts) : bound = ⟨t⟩ := by
  have hset : {x | ∃ u ∈ ts, x = (⟨u⟩ : MemType)} = {⟨t⟩} := by
    ext x
    constructor
    · rintro ⟨u, hu, rfl⟩
      rw [hall u hu, hall t ht]
      rfl
    · intro hx
      exact ⟨t, ht, hx⟩
  rw [hset] at hbound
  exact hbound.unique isGLB_singleton

end MemType

/-! ### What the architecture says -/

/-- A fixed-range register: eight ranges of `size` bytes from `base` on,
a byte each. -/
structure FixedRegister where
  msr : Nat
  base : Nat
  size : Nat

/-- The eleven of them. -/
def fixedRegisters : List FixedRegister :=
  [⟨ia32MtrrFix64k, 0, 0x10000⟩] ++
    (List.range 2).map (fun j => ⟨ia32MtrrFix16k + j, 0x80000 + j * 0x20000, 0x4000⟩) ++
    (List.range 8).map fun j => ⟨ia32MtrrFix4k + j, 0xC0000 + j * 0x8000, 0x1000⟩

/-- The register covers the address. -/
def FixedRegister.covers (r : FixedRegister) (a : Nat) : Bool :=
  decide (r.base ≤ a ∧ a < r.base + 8 * r.size)

/-- The byte for the address. -/
def FixedRegister.typeAt (r : FixedRegister) (msrs : Nat → UInt64) (a : Nat) : Nat :=
  bitField (msrs r.msr) ((a - r.base) / r.size * 8) 8

/-- The address bits of a base or mask register. -/
def addressBits (register : UInt64) : Nat := bitField register 12 36 * 2 ^ 12

/-- Variable range `i` is valid and covers the address. -/
def rangeMatches (msrs : Nat → UInt64) (a i : Nat) : Bool :=
  bitFlag (msrs (ia32MtrrPhysmask0 + i * 2)) 11 &&
    decide (a &&& addressBits (msrs (ia32MtrrPhysmask0 + i * 2)) =
      addressBits (msrs (ia32MtrrPhysbase0 + i * 2)) &&&
        addressBits (msrs (ia32MtrrPhysmask0 + i * 2)))

/-- The types of the variable ranges that cover the address. -/
def matchingTypes (msrs : Nat → UInt64) (a : Nat) : List Nat :=
  ((List.range (variableRangeCount msrs)).filter (rangeMatches msrs a)).map fun i =>
    bitField (msrs (ia32MtrrPhysbase0 + i * 2)) 0 8

/-- The MTRRs are on. -/
def mtrrsOn (msrs : Nat → UInt64) : Bool := bitFlag (msrs ia32MtrrDefType) 11

/-- A fixed range decides for the address. -/
def inFixedRange (msrs : Nat → UInt64) (a : Nat) : Bool :=
  decide (a < 0x100000) && bitFlag (msrs ia32MtrrCapabilities) 8 &&
    bitFlag (msrs ia32MtrrDefType) 10

/-- The memory type of an address. -/
def architecturalType (msrs : Nat → UInt64) (a : Nat) : Nat :=
  if !mtrrsOn msrs then memoryTypeUncacheable
  else if inFixedRange msrs a then
    match fixedRegisters.find? fun r => r.covers a with
    | some r => r.typeAt msrs a
    | none => memoryTypeUncacheable
  else
    match matchingTypes msrs a with
    | [] => bitField (msrs ia32MtrrDefType) 0 3
    | t :: ts => (MemType.meet t ts).value

/-! ### The fold of the source -/

/-- Some type of the list is the one that those before it, and `acc`,
overlap to. -/
def repeats (acc : MemType) : List Nat → Bool
  | [] => false
  | t :: ts => decide (⟨t⟩ = acc) || repeats (⟨t⟩ ⊓ acc) ts

/-- UC stays. -/
theorem foldl_combineTypes_uncacheable (ts : List Nat) :
    ts.foldl (fun acc t => combineTypes t acc) memoryTypeUncacheable = memoryTypeUncacheable := by
  induction ts with
  | nil => rfl
  | cons t ts ih =>
    have hstep : combineTypes t memoryTypeUncacheable = memoryTypeUncacheable := if_pos (Or.inr rfl)
    rw [List.foldl_cons, hstep, ih]

/-- A type combined with itself gives UC in the source. -/
theorem combineTypes_self (t : Nat) : combineTypes t t = memoryTypeUncacheable := by
  rw [combineTypes]
  split
  · rfl
  · rw [if_neg]
    rintro (⟨ha, hb⟩ | ⟨ha, hb⟩)
    · exact absurd (ha.symm.trans hb) (by decide)
    · exact absurd (ha.symm.trans hb) (by decide)

/-- The fold of the source is the greatest lower bound exactly when that
is UC or no type repeats. -/
theorem foldl_combineTypes (ts : List Nat) (acc : MemType) :
    ts.foldl (fun acc t => combineTypes t acc) acc.value =
        (ts.foldl (fun acc t => ⟨t⟩ ⊓ acc) acc).value ↔
      (ts.foldl (fun acc t => ⟨t⟩ ⊓ acc) acc).value = memoryTypeUncacheable ∨
        repeats acc ts = false := by
  induction ts generalizing acc with
  | nil => simp [repeats]
  | cons t ts ih =>
    rw [List.foldl_cons, List.foldl_cons, repeats]
    -- `combine_types` makes UC of two equal types, which is where it leaves the
    -- meet.
    by_cases hrepeat : (⟨t⟩ : MemType) = acc
    · -- From here on the source has UC.
      have hself : combineTypes t acc.value = memoryTypeUncacheable := by
        rw [← hrepeat]
        exact combineTypes_self t
      rw [hself, foldl_combineTypes_uncacheable]
      simp [hrepeat, eq_comm]
    · have hstep : combineTypes t acc.value = ((⟨t⟩ : MemType) ⊓ acc).value := by
        rw [MemType.inf_eq, MemType.overlap, if_neg hrepeat]
      rw [hstep, ih]
      simp [hrepeat]

/-- The loop over the variable ranges: it combines the types of those
that match. -/
theorem foldl_variableRangeType (a acc : Nat) (rs : List VariableRange) :
    rs.foldl (variableRangeType a) acc =
      ((rs.filter fun r => r.maskValid && decide (a &&& r.maskPageFrameNumber <<< 12 =
          r.basePageFrameNumber <<< 12 &&& r.maskPageFrameNumber <<< 12)).map
        VariableRange.baseType).foldl
          (fun acc t => if acc = memoryTypeInvalid then t else combineTypes t acc) acc := by
  induction rs generalizing acc with
  | nil => rfl
  | cons r rs ih =>
    rw [List.foldl_cons, ih, List.filter_cons]
    -- A range that is not valid or does not match leaves the type as it is.
    cases hvalid : r.maskValid with
    | false => simp [variableRangeType, hvalid]
    | true =>
      by_cases hmatch : a &&& r.maskPageFrameNumber <<< 12 =
          r.basePageFrameNumber <<< 12 &&& r.maskPageFrameNumber <<< 12
      · simp [variableRangeType, hvalid, hmatch]
      · simp [variableRangeType, hvalid, hmatch]

/-- Once a type is there, no combination is `MEMORY_TYPE_INVALID`. -/
theorem foldl_combine_valid {ts : List Nat} {acc : Nat} (hacc : acc ≠ memoryTypeInvalid) :
    ts.foldl (fun acc t => if acc = memoryTypeInvalid then t else combineTypes t acc) acc =
        ts.foldl (fun acc t => combineTypes t acc) acc ∧
      ts.foldl (fun acc t => combineTypes t acc) acc ≠ memoryTypeInvalid := by
  induction ts generalizing acc with
  | nil => exact ⟨rfl, hacc⟩
  | cons t ts ih =>
    -- No branch of `combine_types` yields the mark for an invalid type.
    have hvalid : combineTypes t acc ≠ memoryTypeInvalid := by
      rw [combineTypes]
      split
      · decide
      · split
        · decide
        · decide
    rw [List.foldl_cons, List.foldl_cons, if_neg hacc]
    exact ih hvalid

/-! ### One address -/

section
variable (msrs : Nat → UInt64) (a : Nat)

/-- The ranges that `read_mtrrs` has collected and that match. -/
theorem matchingTypes_eq (hon : mtrrsOn msrs = true) :
    (((readMtrrs msrs).variableRanges.filter fun r => r.maskValid &&
        decide (a &&& r.maskPageFrameNumber <<< 12 =
          r.basePageFrameNumber <<< 12 &&& r.maskPageFrameNumber <<< 12)).map
      VariableRange.baseType) = matchingTypes msrs a := by
  have hranges : (readMtrrs msrs).variableRanges =
      (List.range (variableRangeCount msrs)).map (readVariableRange msrs) := by
    refine List.map_congr_left fun i _ => ?_
    exact if_pos hon
  have htest : ∀ i, ((readVariableRange msrs i).maskValid &&
      decide (a &&& (readVariableRange msrs i).maskPageFrameNumber <<< 12 =
        (readVariableRange msrs i).basePageFrameNumber <<< 12 &&&
          (readVariableRange msrs i).maskPageFrameNumber <<< 12)) = rangeMatches msrs a i := by
    -- The test of the source is the one of the architecture, with shifts for
    -- products.
    intro i
    simp only [Nat.shiftLeft_eq]
    rfl
  rw [hranges, List.filter_map, List.map_map, matchingTypes]
  congr 1
  exact List.filter_congr fun i _ => htest i

/-- Some fixed-range register covers an address below 1 MB. -/
theorem fixedRegisters_cover {a : Nat} (h : a < 0x100000) :
    ∃ r ∈ fixedRegisters, r.covers a = true := by
  rw [fixedRegisters]
  -- One 64 KB register, two of 16 KB and eight of 4 KB, in this order from
  -- address 0.
  by_cases h64 : a < 0x80000
  · refine ⟨⟨ia32MtrrFix64k, 0, 0x10000⟩, by simp, decide_eq_true ?_⟩
    show 0 ≤ a ∧ a < 0 + 8 * 0x10000
    omega
  · by_cases h16 : a < 0xC0000
    · refine ⟨⟨ia32MtrrFix16k + (a - 0x80000) / 0x20000,
        0x80000 + (a - 0x80000) / 0x20000 * 0x20000, 0x4000⟩, ?_, decide_eq_true ?_⟩
      · have hj : (a - 0x80000) / 0x20000 ∈ List.range 2 := List.mem_range.mpr (by omega)
        exact List.mem_append_left _ (List.mem_append_right _ (List.mem_map.mpr ⟨_, hj, rfl⟩))
      · show 0x80000 + (a - 0x80000) / 0x20000 * 0x20000 ≤ a ∧
          a < 0x80000 + (a - 0x80000) / 0x20000 * 0x20000 + 8 * 0x4000
        omega
    · refine ⟨⟨ia32MtrrFix4k + (a - 0xC0000) / 0x8000,
        0xC0000 + (a - 0xC0000) / 0x8000 * 0x8000, 0x1000⟩, ?_, decide_eq_true ?_⟩
      · have hj : (a - 0xC0000) / 0x8000 ∈ List.range 8 := List.mem_range.mpr (by omega)
        exact List.mem_append_right _ (List.mem_map.mpr ⟨_, hj, rfl⟩)
      · show 0xC0000 + (a - 0xC0000) / 0x8000 * 0x8000 ≤ a ∧
          a < 0xC0000 + (a - 0xC0000) / 0x8000 * 0x8000 + 8 * 0x1000
        omega

/-- The index that the source computes for an address below 1 MB. -/
def fixedIndex (a : Nat) : Nat :=
  if a < 0x80000 then a / 0x10000
  else if a < 0xC0000 then 8 + (a - 0x80000) / 0x4000
  else 24 + (a - 0xC0000) / 0x1000

/-- Its element is the byte of every register that covers the address. -/
theorem readFixedRanges_of_covers {r : FixedRegister} (hr : r ∈ fixedRegisters)
    (hcovers : r.covers a = true) : readFixedRanges msrs (fixedIndex a) = r.typeAt msrs a := by
  have hin : r.base ≤ a ∧ a < r.base + 8 * r.size := of_decide_eq_true hcovers
  rw [fixedRegisters, List.mem_append, List.mem_append] at hr
  -- The register that covers the address, and in it the byte: both are read off
  -- the index.
  rcases hr with (h64 | h16) | h4
  · rw [List.mem_singleton] at h64
    subst h64
    have ha : a < 0x80000 := by
      have := hin.2
      simp only at this
      omega
    have hindex : a / 0x10000 < 8 := by omega
    rw [fixedIndex, if_pos ha, readFixedRanges, if_pos hindex]
    rfl
  · obtain ⟨j, hj, rfl⟩ := List.mem_map.mp h16
    have hj2 := List.mem_range.mp hj
    simp only at hin
    have h64 : ¬ a < 0x80000 := by omega
    have h16 : a < 0xC0000 := by omega
    have hlow : ¬ 8 + (a - 0x80000) / 0x4000 < 8 := by omega
    have hhigh : 8 + (a - 0x80000) / 0x4000 < 24 := by omega
    have hreg : (8 + (a - 0x80000) / 0x4000 - 8) / 8 = j := by omega
    have hbyte : (8 + (a - 0x80000) / 0x4000) % 8 = (a - (0x80000 + j * 0x20000)) / 0x4000 := by
      omega
    rw [fixedIndex, if_neg h64, if_pos h16, readFixedRanges, if_neg hlow, if_pos hhigh, hreg, hbyte]
    rfl
  · obtain ⟨j, hj, rfl⟩ := List.mem_map.mp h4
    have hj8 := List.mem_range.mp hj
    simp only at hin
    have h64 : ¬ a < 0x80000 := by omega
    have h16 : ¬ a < 0xC0000 := by omega
    have hlow : ¬ 24 + (a - 0xC0000) / 0x1000 < 8 := by omega
    have hmid : ¬ 24 + (a - 0xC0000) / 0x1000 < 24 := by omega
    have hhigh : 24 + (a - 0xC0000) / 0x1000 < 88 := by omega
    have hreg : (24 + (a - 0xC0000) / 0x1000 - 24) / 8 = j := by omega
    have hbyte : (24 + (a - 0xC0000) / 0x1000) % 8 = (a - (0xC0000 + j * 0x8000)) / 0x1000 := by
      omega
    rw [fixedIndex, if_neg h64, if_neg h16, readFixedRanges, if_neg hlow, if_neg hmid,
      if_pos hhigh, hreg, hbyte]
    rfl

/-- The types of the ranges that match do not repeat, or they overlap to
UC. -/
def NoRepeat : List Nat → Prop
  | [] => True
  | t :: ts => (MemType.meet t ts).value = memoryTypeUncacheable ∨ repeats ⟨t⟩ ts = false

/-- The registers for which an address gets its type: the MTRRs are off,
or a fixed range decides, or no variable range repeats the type of those
before it. -/
def Served : Prop :=
  mtrrsOn msrs = false ∨ inFixedRange msrs a = true ∨ NoRepeat (matchingTypes msrs a)

/-- Exactly then `get_mtrr_memory_type_single` gives the type of the
architecture. -/
theorem memoryTypeSingle_iff
    (hvalid : ∀ t ∈ matchingTypes msrs a, t ≠ memoryTypeInvalid) :
    getMtrrMemoryTypeSingle (readMtrrs msrs) a = architecturalType msrs a ↔ Served msrs a := by
  cases hon : mtrrsOn msrs with
  | false =>
    have hsource : getMtrrMemoryTypeSingle (readMtrrs msrs) a = memoryTypeUncacheable :=
      memoryTypeSingle_of_disabled hon a
    have harch : architecturalType msrs a = memoryTypeUncacheable := by
      rw [architecturalType, hon]
      rfl
    rw [hsource, harch]
    exact ⟨fun _ => Or.inl hon, fun _ => rfl⟩
  | true =>
    have hstate : (readMtrrs msrs).mtrrEnable = true := hon
    cases hfixed : inFixedRange msrs a with
    | true =>
      have hparts := hfixed
      rw [inFixedRange, Bool.and_eq_true, Bool.and_eq_true, decide_eq_true_eq] at hparts
      rcases hparts with ⟨⟨hlow, hsupported⟩, henabled⟩
      -- Every register that covers the address gives the byte the source picks.
      have hsource : getMtrrMemoryTypeSingle (readMtrrs msrs) a =
          readFixedRanges msrs (fixedIndex a) := by
        have hall : ∀ i, (readMtrrs msrs).fixed i = readFixedRanges msrs i := by
          intro i
          refine if_pos ?_
          rw [show bitFlag (msrs ia32MtrrDefType) 11 = true from hon, henabled, hsupported]
          rfl
        have hbranch : a < 0x100000 ∧ (readMtrrs msrs).fixedSupported = true ∧
            (readMtrrs msrs).fixedRangeMtrrEnable = true := ⟨hlow, hsupported, henabled⟩
        rw [getMtrrMemoryTypeSingle, hstate, Bool.not_true, if_neg Bool.false_ne_true,
          if_pos hbranch, hall, hall, hall, fixedIndex]
        split
        · rfl
        · split <;> rfl
      have harch : architecturalType msrs a = readFixedRanges msrs (fixedIndex a) := by
        rw [architecturalType, hon, hfixed]
        cases hfind : fixedRegisters.find? fun r => r.covers a with
        | none =>
          rcases fixedRegisters_cover hlow with ⟨r, hr, hcovers⟩
          exact absurd hcovers (List.find?_eq_none.mp hfind r hr)
        | some r =>
          have hcovers : r.covers a = true := by simpa using List.find?_some hfind
          exact (readFixedRanges_of_covers msrs a (List.mem_of_find?_eq_some hfind) hcovers).symm
      rw [hsource, harch]
      exact ⟨fun _ => Or.inr (Or.inl hfixed), fun _ => rfl⟩
    | false =>
      have hbranch : ¬ (a < 0x100000 ∧ (readMtrrs msrs).fixedSupported = true ∧
          (readMtrrs msrs).fixedRangeMtrrEnable = true) := by
        rintro ⟨hlow, hsupported, henabled⟩
        rw [inFixedRange, decide_eq_true hlow,
          show bitFlag (msrs ia32MtrrCapabilities) 8 = true from hsupported,
          show bitFlag (msrs ia32MtrrDefType) 10 = true from henabled] at hfixed
        cases hfixed
      have hserved : Served msrs a ↔ NoRepeat (matchingTypes msrs a) := by
        simp [Served, hon, hfixed]
      rw [hserved, getMtrrMemoryTypeSingle, hstate, Bool.not_true, if_neg Bool.false_ne_true,
        if_neg hbranch, foldl_variableRangeType, matchingTypes_eq msrs a hon, architecturalType,
        hon, hfixed, Bool.not_true, if_neg Bool.false_ne_true, if_neg Bool.false_ne_true]
      cases htypes : matchingTypes msrs a with
      | nil =>
        exact ⟨fun _ => trivial, fun _ => rfl⟩
      | cons t ts =>
        have ht : t ≠ memoryTypeInvalid := hvalid t (htypes ▸ List.mem_cons_self)
        rcases @foldl_combine_valid ts t ht with ⟨hfold, hne⟩
        rw [List.foldl_cons, if_pos rfl, hfold]
        simp only [ne_eq, hne, not_false_eq_true, if_true]
        exact foldl_combineTypes ts ⟨t⟩

end

/-! ### A range of pages -/

/-- The types of the `n` pages from page `p` on. -/
def pageTypes (state : MtrrState) (p n : Nat) : List Nat :=
  (List.range n).map fun k => getMtrrMemoryTypeSingle state ((p + k) * 0x1000)

/-- A round of the loop over a range takes the type of its page into the
bound. -/
theorem rangePageType_eq (state : MtrrState) (start : Nat) (acc : RangeType) (k : Nat) :
    rangePageType state start acc k =
      ⟨((⟨getMtrrMemoryTypeSingle state (start + k * 0x1000)⟩ : MemType) ⊓ ⟨acc.type⟩).value,
        acc.isUniform && decide (getMtrrMemoryTypeSingle state (start + k * 0x1000) =
          acc.type)⟩ := by
  rw [rangePageType, MemType.inf_eq, MemType.overlap]
  by_cases hsame : getMtrrMemoryTypeSingle state (start + k * 0x1000) = acc.type
  · simp [hsame]
  · simp [hsame]

/-- The loop gives the bound of the types, and is uniform when they are
all alike. -/
theorem foldl_rangePageType (state : MtrrState) (start : Nat) (ks : List Nat) (acc : RangeType) :
    (ks.foldl (rangePageType state start) acc).type =
        ((ks.map fun k => getMtrrMemoryTypeSingle state (start + k * 0x1000)).foldl
          (fun acc t => (⟨t⟩ : MemType) ⊓ acc) ⟨acc.type⟩).value ∧
      ((ks.foldl (rangePageType state start) acc).isUniform = true ↔
        acc.isUniform = true ∧
          ∀ k ∈ ks, getMtrrMemoryTypeSingle state (start + k * 0x1000) = acc.type) := by
  induction ks generalizing acc with
  | nil => simp
  | cons k ks ih =>
    rw [List.foldl_cons, List.map_cons, List.foldl_cons, rangePageType_eq]
    rcases ih ⟨((⟨getMtrrMemoryTypeSingle state (start + k * 0x1000)⟩ : MemType) ⊓
        ⟨acc.type⟩).value, acc.isUniform &&
          decide (getMtrrMemoryTypeSingle state (start + k * 0x1000) = acc.type)⟩ with
      ⟨htype, huniform⟩
    refine ⟨htype, huniform.trans ?_⟩
    by_cases hsame : getMtrrMemoryTypeSingle state (start + k * 0x1000) = acc.type
    · simp [hsame]
    · -- One page of another type, and no later page makes up for it.
      simp [hsame]

/-- `get_mtrr_range_memory_type` over `n + 1` pages from page `p` on. -/
theorem rangeMemoryType_pages (state : MtrrState) (p n : Nat) :
    (getMtrrRangeMemoryType state (p * 0x1000) ((n + 1) * 0x1000)).type =
        (MemType.meet (getMtrrMemoryTypeSingle state (p * 0x1000))
          (pageTypes state (p + 1) n)).value ∧
      ((getMtrrRangeMemoryType state (p * 0x1000) ((n + 1) * 0x1000)).isUniform = true ↔
        ∀ k < n, getMtrrMemoryTypeSingle state ((p + 1 + k) * 0x1000) =
          getMtrrMemoryTypeSingle state (p * 0x1000)) := by
  -- The first page is looked at before the loop, so the loop begins with the
  -- second.
  have hstart : p * 0x1000 / 0x1000 * 0x1000 + 0x1000 = (p + 1) * 0x1000 := by omega
  have hpages : (p * 0x1000 + (n + 1) * 0x1000 - (p + 1) * 0x1000 + 0xFFF) / 0x1000 = n := by omega
  have hpage : ∀ k, (p + 1) * 0x1000 + k * 0x1000 = (p + 1 + k) * 0x1000 := by
    intro k
    exact (Nat.add_mul (p + 1) k 0x1000).symm
  rw [getMtrrRangeMemoryType]
  simp only [hstart, hpages]
  rcases foldl_rangePageType state ((p + 1) * 0x1000) (List.range n)
    ⟨getMtrrMemoryTypeSingle state (p * 0x1000), true⟩ with ⟨htype, huniform⟩
  simp only [hpage, List.mem_range, true_and] at htype huniform
  exact ⟨htype, huniform⟩

/-- Its type is the greatest lower bound of the types of its pages, and
it is uniform exactly when they have one type. -/
theorem rangeMemoryType_spec (state : MtrrState) (p n : Nat) :
    IsGLB {x | ∃ t ∈ pageTypes state p (n + 1), x = (⟨t⟩ : MemType)}
        ⟨(getMtrrRangeMemoryType state (p * 0x1000) ((n + 1) * 0x1000)).type⟩ ∧
      ((getMtrrRangeMemoryType state (p * 0x1000) ((n + 1) * 0x1000)).isUniform = true ↔
        ∃ type, ∀ t ∈ pageTypes state p (n + 1), t = type) := by
  rcases rangeMemoryType_pages state p n with ⟨htype, huniform⟩
  have hcons : pageTypes state p (n + 1) =
      getMtrrMemoryTypeSingle state (p * 0x1000) :: pageTypes state (p + 1) n := by
    have hrest : ∀ k, p + Nat.succ k = p + 1 + k := by
      intro k
      omega
    rw [pageTypes, List.range_succ_eq_map, List.map_cons, List.map_map, pageTypes, Nat.add_zero]
    refine congrArg _ (List.map_congr_left fun k _ => ?_)
    exact congrArg (fun page => getMtrrMemoryTypeSingle state (page * 0x1000)) (hrest k)
  rw [hcons, htype, huniform]
  refine ⟨MemType.isGLB_meet _ _, ?_, ?_⟩
  · intro hall
    refine ⟨getMtrrMemoryTypeSingle state (p * 0x1000), ?_⟩
    intro t ht
    rcases List.mem_cons.mp ht with hfirst | hrest
    · exact hfirst
    · rcases List.mem_map.mp hrest with ⟨k, hk, rfl⟩
      exact hall k (List.mem_range.mp hk)
  · rintro ⟨type, hall⟩ k hk
    -- Uniform means equal to the first page.
    have hfirst := hall _ List.mem_cons_self
    have hpage := hall _ (List.mem_cons_of_mem _ (List.mem_map.mpr ⟨k, List.mem_range.mpr hk, rfl⟩))
    rw [hpage, hfirst]

/-! ### All addresses and ranges -/

/-- No type of a variable range is `MEMORY_TYPE_INVALID`. -/
def ProgrammedTypes (msrs : Nat → UInt64) : Prop :=
  ∀ i < variableRangeCount msrs,
    bitField (msrs (ia32MtrrPhysbase0 + i * 2)) 0 8 ≠ memoryTypeInvalid

/-- Programmed registers have types that are no `MEMORY_TYPE_INVALID`. -/
theorem matchingTypes_valid {msrs : Nat → UInt64} (h : ProgrammedTypes msrs) (a : Nat) :
    ∀ t ∈ matchingTypes msrs a, t ≠ memoryTypeInvalid := by
  intro t ht
  rcases List.mem_map.mp ht with ⟨i, hi, rfl⟩
  exact h i (List.mem_range.mp (List.mem_filter.mp hi).1)

/-- The type of overlapping ranges does not depend on their order. -/
theorem architecturalType_overlap {msrs : Nat → UInt64} {a : Nat} (hon : mtrrsOn msrs = true)
    (hfixed : inFixedRange msrs a = false) (hmatch : matchingTypes msrs a ≠ []) :
    IsGLB {x | ∃ t ∈ matchingTypes msrs a, x = (⟨t⟩ : MemType)} ⟨architecturalType msrs a⟩ := by
  rw [architecturalType, hon, hfixed, Bool.not_true, if_neg Bool.false_ne_true,
    if_neg Bool.false_ne_true]
  cases htypes : matchingTypes msrs a with
  | nil => exact absurd htypes hmatch
  | cons t ts => exact MemType.isGLB_meet t ts

/-- An address gets the type of the architecture, which is the greatest
lower bound of the ranges over it, exactly when it is `Served`. A range
of pages gets the greatest lower bound of its pages' types, and is
uniform exactly when they have one. -/
theorem memoryTypes_architectural (msrs : Nat → UInt64) (h : ProgrammedTypes msrs) :
    (∀ a, getMtrrMemoryTypeSingle (readMtrrs msrs) a = architecturalType msrs a ↔
      Served msrs a) ∧
    (∀ a, mtrrsOn msrs = true → inFixedRange msrs a = false → matchingTypes msrs a ≠ [] →
      IsGLB {x | ∃ t ∈ matchingTypes msrs a, x = (⟨t⟩ : MemType)} ⟨architecturalType msrs a⟩) ∧
    ∀ p n, IsGLB {x | ∃ t ∈ pageTypes (readMtrrs msrs) p (n + 1), x = (⟨t⟩ : MemType)}
        ⟨(getMtrrRangeMemoryType (readMtrrs msrs) (p * 0x1000) ((n + 1) * 0x1000)).type⟩ ∧
      ((getMtrrRangeMemoryType (readMtrrs msrs) (p * 0x1000) ((n + 1) * 0x1000)).isUniform =
          true ↔
        ∃ type, ∀ t ∈ pageTypes (readMtrrs msrs) p (n + 1), t = type) :=
  ⟨fun a => memoryTypeSingle_iff msrs a (matchingTypes_valid h a),
    fun _ => architecturalType_overlap, fun p n => rangeMemoryType_spec (readMtrrs msrs) p n⟩

/-- MTRRs that are on, with two valid write-back ranges over all
addresses. -/
def writeBackTwice (msr : Nat) : UInt64 :=
  if msr = ia32MtrrCapabilities then 2
  else if msr = ia32MtrrDefType then 0x800
  else if msr = ia32MtrrPhysbase0 ∨ msr = ia32MtrrPhysbase0 + 2 then 6
  else if msr = ia32MtrrPhysmask0 ∨ msr = ia32MtrrPhysmask0 + 2 then 0x800
  else 0

/-- Two write-back ranges over the same addresses. -/
theorem memoryTypes_writeBackTwice :
    ProgrammedTypes writeBackTwice ∧
      ((∀ a, getMtrrMemoryTypeSingle (readMtrrs writeBackTwice) a =
        architecturalType writeBackTwice a ↔ Served writeBackTwice a) ∧
      (∀ a, mtrrsOn writeBackTwice = true → inFixedRange writeBackTwice a = false →
        matchingTypes writeBackTwice a ≠ [] →
        IsGLB {x | ∃ t ∈ matchingTypes writeBackTwice a, x = (⟨t⟩ : MemType)}
          ⟨architecturalType writeBackTwice a⟩) ∧
      ∀ p n, IsGLB {x | ∃ t ∈ pageTypes (readMtrrs writeBackTwice) p (n + 1),
            x = (⟨t⟩ : MemType)}
          ⟨(getMtrrRangeMemoryType (readMtrrs writeBackTwice) (p * 0x1000)
            ((n + 1) * 0x1000)).type⟩ ∧
        ((getMtrrRangeMemoryType (readMtrrs writeBackTwice) (p * 0x1000)
            ((n + 1) * 0x1000)).isUniform = true ↔
          ∃ type, ∀ t ∈ pageTypes (readMtrrs writeBackTwice) p (n + 1), t = type)) := by
  have hprogrammed : ProgrammedTypes writeBackTwice := by
    unfold ProgrammedTypes
    decide
  exact ⟨hprogrammed, memoryTypes_architectural writeBackTwice hprogrammed⟩

/-- Two ranges that both say WB make an address UC, where the
architecture keeps WB. -/
theorem sameType_uncacheable :
    getMtrrMemoryTypeSingle (readMtrrs writeBackTwice) 0x100000 = memoryTypeUncacheable ∧
      architecturalType writeBackTwice 0x100000 = memoryTypeWriteBack := by
  decide

end Revhv.Memory
