import Revhv.Km.Segment

/-!
# `Revhv.Proofs.Segment`: what the code makes of a descriptor, and what the processor does

* `baseAddress_eq`, `accessRights_eq`: the two agree on a descriptor.
* `ltr_restored`: LTR with a copy in which the task is available.
* `movToSegment_wasLoaded`: a register that was loaded before is loaded again.
* `ltr_gdtInitialize`: the task of the host's own table.
-/

set_option autoImplicit false

namespace Revhv.Segment

open Revhv.Lib.StackFrame

variable {memory : UInt64 → UInt8} {gdt : TableRegister} {selector : BitVec 16}

/-! ### Bits of a word -/

/-- A mask of low bits. -/
theorem and_mask {n : Nat} (x : BitVec 64) :
    x &&& BitVec.ofNat 64 (2 ^ n - 1) = (x.setWidth n).setWidth 64 := by
  refine BitVec.eq_of_getLsbD_eq fun i hi => ?_
  rw [BitVec.getLsbD_and, BitVec.getLsbD_ofNat, Nat.testBit_two_pow_sub_one,
    BitVec.getLsbD_setWidth, BitVec.getLsbD_setWidth]
  simp [hi, Bool.and_comm]

/-- The bit fields of a descriptor's word. -/
@[simp] theorem ofWord_toWord (d : Descriptor) : Descriptor.ofWord d.toWord = d := by
  cases d
  simp (disch := decide) only [Descriptor.ofWord, Descriptor.toWord, Descriptor.mk.injEq,
    BitVec.extractLsb'_append_eq_of_le, BitVec.extractLsb'_append_eq_of_add_le,
    BitVec.extractLsb'_eq_self]
  simp only [Nat.reduceSub, BitVec.extractLsb'_eq_self, and_self]

/-- The word of a descriptor whose type is replaced. -/
theorem toBitVec_setType (w : UInt64) (t : BitVec 4) :
    ({ Descriptor.ofWord w with type := t }).toWord.toBitVec =
      w.toBitVec.extractLsb' 44 20 ++ t ++ w.toBitVec.extractLsb' 0 40 := by
  generalize hx : w.toBitVec = x
  have hhigh : x.extractLsb' 56 8 ++ x.extractLsb' 55 1 ++ x.extractLsb' 54 1 ++
      x.extractLsb' 53 1 ++ x.extractLsb' 52 1 ++ x.extractLsb' 48 4 ++ x.extractLsb' 47 1 ++
        x.extractLsb' 45 2 ++ x.extractLsb' 44 1 = x.extractLsb' 44 20 := by
    simp (disch := decide) only [BitVec.extractLsb'_append_extractLsb'_eq_extractLsb']
  have hlow : x.extractLsb' 32 8 ++ (x.extractLsb' 16 16 ++ x.extractLsb' 0 16) =
      x.extractLsb' 0 40 := by
    simp (disch := decide) only [BitVec.extractLsb'_append_extractLsb'_eq_extractLsb']
  rw [← hlow, ← hhigh]
  simp only [Descriptor.toWord, Descriptor.ofWord, hx]
  rw [BitVec.append_assoc', BitVec.append_assoc']
  rfl

/-! ### `utils::segment` -/

/-- The base of a descriptor that is not of a system segment. -/
theorem base_bits (w : BitVec 64) :
    (w.extractLsb' 56 8).setWidth 64 <<< 24 ||| (w.extractLsb' 32 8).setWidth 64 <<< 16 |||
        (w.extractLsb' 16 16).setWidth 64 =
      ((w >>> 16) &&& BitVec.ofNat 64 (2 ^ 24 - 1)) |||
        ((w >>> 32) &&& BitVec.ofNat 64 (2 ^ 8 - 1) <<< 24) := by
  rw [and_mask]
  refine BitVec.eq_of_getLsbD_eq fun i hi => ?_
  simp only [BitVec.getLsbD_or, BitVec.getLsbD_and, BitVec.getLsbD_shiftLeft,
    BitVec.getLsbD_setWidth, BitVec.getLsbD_extractLsb', BitVec.getLsbD_ushiftRight,
    BitVec.getLsbD_ofNat, Nat.testBit_two_pow_sub_one]
  grind

/-- The bit that tells a system segment. -/
theorem isSystem_iff (w : UInt64) :
    isSystem w = true ↔ (Descriptor.ofWord w).descriptorType = descriptorTypeSystem := by
  -- The mask is the bit at position 44 alone.
  have hbit : ∀ x : BitVec 64, x &&& 0x100000000000#64 = 0#64 ↔ x.extractLsb' 44 1 = 0#1 := by
    intro x
    constructor
    · intro h
      have hbit := congrArg (fun y => y.getLsbD 44) h
      refine BitVec.eq_of_getLsbD_eq fun i hi => ?_
      have hi : i = 0 := by omega
      subst hi
      simpa using hbit
    · intro h
      have hbit := congrArg (fun y => y.getLsbD 0) h
      have hmask : (0x100000000000#64) = BitVec.twoPow 64 44 := rfl
      have hbit : x.getLsbD 44 = false := by simpa using hbit
      rw [hmask, BitVec.and_twoPow, hbit]
      rfl
  rw [isSystem, beq_iff_eq, ← UInt64.toBitVec_inj]
  exact hbit w.toBitVec

/-- The upper half of a base loses nothing by its width. -/
theorem upper_bits (u : BitVec 64) : (u.extractLsb' 0 32).setWidth 64 <<< 32 = u <<< 32 := by
  refine BitVec.eq_of_getLsbD_eq fun i hi => ?_
  simp only [BitVec.getLsbD_shiftLeft, BitVec.getLsbD_setWidth, BitVec.getLsbD_extractLsb']
  grind

/-- The base that `segment_base` computes is that of the descriptor. -/
theorem baseAddress_eq (h : selectorIndex selector ≠ 0) :
    baseAddress memory gdt selector = (described memory gdt selector).base := by
  rw [baseAddress, if_neg h, described, baseOf]
  generalize descriptorWord memory gdt selector = w
  generalize upperWord memory gdt selector = u
  have hlow := base_bits w.toBitVec
  have hupper := upper_bits u.toBitVec
  apply UInt64.toBitVec_inj.mp
  -- A system descriptor is twice as long, its second word holds the upper half
  -- of the base.
  by_cases hsystem : isSystem w = true
  · rw [if_pos ((isSystem_iff w).mp hsystem), if_pos hsystem]
    show (u.toBitVec.extractLsb' 0 32).setWidth 64 <<< 32 |||
        (w.toBitVec.extractLsb' 56 8).setWidth 64 <<< 24 |||
        (w.toBitVec.extractLsb' 32 8).setWidth 64 <<< 16 |||
        (w.toBitVec.extractLsb' 16 16).setWidth 64 = _
    rw [BitVec.or_assoc, BitVec.or_assoc, ← BitVec.or_assoc _ _ (BitVec.setWidth 64 _), hlow,
      hupper, BitVec.or_comm]
    rfl
  · rw [if_neg (fun h => hsystem ((isSystem_iff w).mpr h)), if_neg hsystem]
    exact hlow

/-- The access rights of a descriptor, put together from its bits. -/
theorem rights_bits (x : BitVec 64) (unusable : BitVec 1) :
    (0 : BitVec 15) ++ unusable ++ x.extractLsb' 55 1 ++ x.extractLsb' 54 1 ++
        x.extractLsb' 53 1 ++ x.extractLsb' 52 1 ++ (0 : BitVec 4) ++ x.extractLsb' 47 1 ++
          x.extractLsb' 45 2 ++ x.extractLsb' 44 1 ++ x.extractLsb' 40 4 =
      (0 : BitVec 15) ++ unusable ++ x.extractLsb' 52 4 ++ (0 : BitVec 4) ++
        x.extractLsb' 40 8 := by
  have hhigh : x.extractLsb' 55 1 ++ x.extractLsb' 54 1 ++ x.extractLsb' 53 1 ++
      x.extractLsb' 52 1 = x.extractLsb' 52 4 := by
    simp (disch := decide) only [BitVec.extractLsb'_append_extractLsb'_eq_extractLsb']
  have hlow : x.extractLsb' 47 1 ++ x.extractLsb' 45 2 ++ x.extractLsb' 44 1 ++
      x.extractLsb' 40 4 = x.extractLsb' 40 8 := by
    simp (disch := decide) only [BitVec.extractLsb'_append_extractLsb'_eq_extractLsb']
  -- Both sides are the same bits in the same order, only grouped differently.
  rw [← hhigh, ← hlow]
  generalize x.extractLsb' 55 1 = g, x.extractLsb' 54 1 = d, x.extractLsb' 53 1 = l,
    x.extractLsb' 52 1 = a, x.extractLsb' 47 1 = p, x.extractLsb' 45 2 = q,
    x.extractLsb' 44 1 = s, x.extractLsb' 40 4 = t
  rw [BitVec.append_assoc', BitVec.append_assoc', BitVec.append_assoc', BitVec.append_assoc',
    BitVec.append_assoc', BitVec.append_assoc']
  rfl

/-- The access rights, put together from the bits of the descriptor. -/
theorem accessRights_bits : accessRights memory gdt selector =
    (0 : BitVec 15) ++ (if selectorIndex selector = 0 then (1 : BitVec 1) else 0) ++
      (descriptorWord memory gdt selector).toBitVec.extractLsb' 52 4 ++ (0 : BitVec 4) ++
        (descriptorWord memory gdt selector).toBitVec.extractLsb' 40 8 :=
  rights_bits _ _

/-- A null selector makes its register unusable. -/
theorem unusable_accessRights (h : selectorIndex selector = 0) :
    (accessRights memory gdt selector).getLsbD 16 = true := by
  rw [accessRights_bits, if_pos h]
  simp only [BitVec.getLsbD_append]
  rfl

/-- The access rights by the bit fields of a descriptor. -/
theorem rightsOf_eq (w : UInt64) : rightsOf w =
    (0 : BitVec 15) ++ (0 : BitVec 1) ++ (Descriptor.ofWord w).granularity ++
      (Descriptor.ofWord w).defaultBig ++ (Descriptor.ofWord w).longMode ++
        (Descriptor.ofWord w).system ++ (0 : BitVec 4) ++ (Descriptor.ofWord w).present ++
          (Descriptor.ofWord w).descriptorPrivilegeLevel ++
            (Descriptor.ofWord w).descriptorType ++ (Descriptor.ofWord w).type := by
  have hbits : ∀ x : BitVec 64,
      (0 : BitVec 15) ++ (0 : BitVec 1) ++ x.extractLsb' 52 4 ++ (0 : BitVec 4) ++
          x.extractLsb' 40 8 =
        ((x >>> 40) &&& (BitVec.ofNat 64 (2 ^ 8 - 1) |||
          BitVec.ofNat 64 (2 ^ 4 - 1) <<< 12)).setWidth 32 := by
    -- Bit by bit: the mask keeps bits 40 to 47 and 52 to 55 of the descriptor.
    intro x
    refine BitVec.eq_of_getLsbD_eq fun i hi => ?_
    simp only [BitVec.getLsbD_append, BitVec.getLsbD_or, BitVec.getLsbD_and,
      BitVec.getLsbD_shiftLeft, BitVec.getLsbD_setWidth, BitVec.getLsbD_extractLsb',
      BitVec.getLsbD_ushiftRight, BitVec.getLsbD_ofNat, Nat.testBit_two_pow_sub_one]
    grind
  exact (hbits w.toBitVec).symm.trans (rights_bits w.toBitVec 0).symm

/-- They are those of the descriptor. -/
theorem accessRights_eq (h : selectorIndex selector ≠ 0) :
    accessRights memory gdt selector = (described memory gdt selector).accessRights := by
  rw [described, rightsOf_eq, accessRights]
  simp only [if_neg h]

/-- The limit by the bit fields of a descriptor. -/
theorem limitOf_eq {w : UInt64} (h : (Descriptor.ofWord w).granularity = 0) :
    limitOf w = ((Descriptor.ofWord w).segmentLimitHigh ++
      (Descriptor.ofWord w).segmentLimitLow).setWidth 32 := by
  have hbits : ∀ x : BitVec 64,
      (x &&& BitVec.ofNat 64 (2 ^ 16 - 1) |||
          (x >>> 32) &&& BitVec.ofNat 64 (2 ^ 4 - 1) <<< 16).setWidth 32 =
        (x.extractLsb' 48 4 ++ x.extractLsb' 0 16).setWidth 32 := by
    intro x
    refine BitVec.eq_of_getLsbD_eq fun i hi => ?_
    simp only [BitVec.getLsbD_append, BitVec.getLsbD_or, BitVec.getLsbD_and,
      BitVec.getLsbD_shiftLeft, BitVec.getLsbD_setWidth, BitVec.getLsbD_extractLsb',
      BitVec.getLsbD_ushiftRight, BitVec.getLsbD_ofNat, Nat.testBit_two_pow_sub_one]
    grind
  -- A byte-granular limit is not scaled by the page size.
  have hbytes : w &&& 0x80000000000000 = 0 := by
    have hbit : w.toBitVec.getLsbD 55 = false := by
      simpa [Descriptor.ofWord] using congrArg (fun b => b.getLsbD 0) h
    have hmask : UInt64.toBitVec 0x80000000000000 = BitVec.twoPow 64 55 := rfl
    apply UInt64.toBitVec_inj.mp
    rw [UInt64.toBitVec_and, hmask, BitVec.and_twoPow, hbit]
    rfl
  rw [limitOf]
  simp only [if_pos hbytes]
  exact hbits w.toBitVec

/-! ### The task register -/

/-- `SEGMENT_DESCRIPTOR_TYPE_TSS_BUSY` -/
def typeTssBusy : BitVec 4 := 11

/-- A word by the part that has the type. -/
theorem split_type (x : BitVec 64) :
    x.extractLsb' 44 20 ++ x.extractLsb' 40 4 ++ x.extractLsb' 0 40 = x := by
  simp (disch := decide) only [BitVec.extractLsb'_append_extractLsb'_eq_extractLsb',
    BitVec.extractLsb'_eq_self]

/-- What the code changes of a task's descriptor is undone by LTR. -/
theorem setType_busy {w : UInt64} (hbusy : (Descriptor.ofWord w).type = typeTssBusy) :
    ({ Descriptor.ofWord w with type := typeTssAvailable }).toWord ||| 0x20000000000 = w := by
  have hmask : UInt64.toBitVec 0x20000000000 = 0#20 ++ 2#4 ++ 0#40 := rfl
  have hsplit := split_type w.toBitVec
  rw [show w.toBitVec.extractLsb' 40 4 = typeTssBusy from hbusy] at hsplit
  apply UInt64.toBitVec_inj.mp
  rw [UInt64.toBitVec_or, toBitVec_setType, hmask, BitVec.or_append, BitVec.or_append,
    BitVec.or_zero, BitVec.or_zero]
  exact hsplit

/-- LTR with a selector whose task the code has marked as available: the
register is the one of the busy task, and the copy is busy again. -/
theorem ltr_restored {w : UInt64} (hindex : selectorIndex selector ≠ 0)
    (htable : selectorTable selector = 0)
    (hlimit : 8 * (selectorIndex selector).toNat + 15 ≤ gdt.limit.toNat)
    (hsystem : (Descriptor.ofWord w).descriptorType = descriptorTypeSystem)
    (hbusy : (Descriptor.ofWord w).type = typeTssBusy)
    (hpresent : (Descriptor.ofWord w).present = 1)
    (hword : descriptorWord memory gdt selector =
      ({ Descriptor.ofWord w with type := typeTssAvailable }).toWord) :
    ltr memory gdt selector =
      some (storeWord memory (descriptorAddress gdt selector) w,
        ⟨selector, baseOf w (upperWord memory gdt selector), limitOf w, rightsOf w⟩) := by
  have hback := setType_busy hbusy
  -- LTR sees an available TSS and marks it busy, which gives the word back.
  rw [ltr, hword, ofWord_toWord]
  have hloaded : descriptorWord (storeWord memory (descriptorAddress gdt selector) w) gdt
      selector = w := loadWord_storeWord ..
  -- The second word lies behind the one that is written.
  have hupper : upperWord (storeWord memory (descriptorAddress gdt selector) w) gdt selector =
      upperWord memory gdt selector := by
    rw [upperWord, upperWord]
    generalize descriptorAddress gdt selector = address
    have hapart := loadWord_storeWord_apart memory address w (o := 8) (p := 0) (by omega)
      (by omega) (by omega)
    have hzero : address + UInt64.ofNat 0 = address := UInt64.add_zero address
    rw [hzero] at hapart
    exact hapart
  rw [if_pos ⟨hindex, htable, hlimit, hsystem, rfl, hpresent⟩]
  simp only [hback, described, hloaded, hupper]

/-! ### The other registers -/

/-- The descriptor was loaded before. -/
def wasLoaded (memory : UInt64 → UInt8) (gdt : TableRegister) (selector : BitVec 16) : Prop :=
  loadable memory gdt selector = true ∧
    (Descriptor.ofWord (descriptorWord memory gdt selector)).type.getLsbD 0 = true

/-- A register that was loaded before is loaded again, and no descriptor
changes by it. -/
theorem movToSegment_wasLoaded (hindex : selectorIndex selector ≠ 0)
    (h : wasLoaded memory gdt selector) :
    movToSegment memory gdt selector = some (memory, described memory gdt selector) := by
  -- The accessed bit is set already, so the load writes nothing new.
  have haccessed : descriptorWord memory gdt selector ||| 0x10000000000 =
      descriptorWord memory gdt selector := by
    have hbit := h.2
    generalize descriptorWord memory gdt selector = w at hbit
    have hmask : UInt64.toBitVec 0x10000000000 = BitVec.twoPow 64 40 := rfl
    have hbit : w.toBitVec.getLsbD 40 = true := by
      simpa [Descriptor.ofWord] using hbit
    apply UInt64.toBitVec_inj.mp
    rw [UInt64.toBitVec_or, hmask]
    refine BitVec.eq_of_getLsbD_eq fun i hi => ?_
    rw [BitVec.getLsbD_or, BitVec.getLsbD_twoPow]
    by_cases hi : i = 40
    · simp [hi, hbit]
    · simp [Ne.symm hi]
  have hsame : storeWord memory (descriptorAddress gdt selector)
      (descriptorWord memory gdt selector) = memory := storeWord_loadWord ..
  rw [movToSegment, if_neg (fun hnull => hindex hnull.1), if_pos h.1]
  simp only [haccessed, hsame]

/-- A null selector loads a null register. -/
theorem movToSegment_null (hindex : selectorIndex selector = 0)
    (htable : selectorTable selector = 0) :
    movToSegment memory gdt selector = some (memory, .null selector) :=
  if_pos ⟨hindex, htable⟩

/-- A selector that a data segment register had. -/
def Reloadable (memory : UInt64 → UInt8) (gdt : TableRegister) (selector : BitVec 16) : Prop :=
  selectorTable selector = 0 ∧ (selectorIndex selector ≠ 0 → wasLoaded memory gdt selector)

/-- A selector whose descriptor can be loaded loads it, with its
accessed bit set. -/
theorem movToSegment_reloadable (h : Reloadable memory gdt selector) :
    movToSegment memory gdt selector = some (memory, loaded memory gdt selector) := by
  rw [loaded]
  split
  next hindex => exact movToSegment_null hindex h.1
  next hindex => exact movToSegment_wasLoaded hindex (h.2 hindex)

/-- What is loaded comes from one word of the table. -/
theorem loaded_congr {memory' : UInt64 → UInt8}
    (htable : ∀ k ≤ gdt.limit.toNat,
      memory' (gdt.base + UInt64.ofNat k) = memory (gdt.base + UInt64.ofNat k))
    (h : Reloadable memory gdt selector) :
    Reloadable memory' gdt selector ∧ loaded memory' gdt selector = loaded memory gdt selector := by
  -- A null selector is loaded without a look at the table.
  by_cases hindex : selectorIndex selector = 0
  · refine ⟨⟨h.1, fun hne => absurd hindex hne⟩, ?_⟩
    rw [loaded, loaded, if_pos hindex, if_pos hindex]
  · have hloadable := h.2 hindex
    have hchecks := hloadable.1
    simp only [loadable, Bool.and_eq_true, decide_eq_true_eq, beq_iff_eq] at hchecks
    have hword : descriptorWord memory' gdt selector = descriptorWord memory gdt selector := by
      refine loadWord_congr fun k hk => ?_
      rw [descriptorAddress, UInt64.add_assoc, ← UInt64.ofNat_add]
      exact htable _ (by omega)
    refine ⟨⟨h.1, fun _ => ?_⟩, ?_⟩
    · rw [wasLoaded, loadable, hword]
      exact hloadable
    · -- The base of a code or data segment has no second word, which could lie
      -- behind the limit.
      have hcode : isSystem (descriptorWord memory gdt selector) = false := by
        rw [← Bool.not_eq_true, isSystem_iff, hchecks.1.1.1.2]
        decide
      rw [loaded, loaded, if_neg hindex, if_neg hindex, described, described, hword]
      simp only [baseOf, hcode, Bool.false_eq_true, if_false]

/-! ### The host's GDT -/

/-- The base that is taken apart in a descriptor and the word behind it. -/
theorem base_parts (x : BitVec 64) :
    (((x >>> 24) &&& 0xFF#64).setWidth 8).setWidth 64 <<< 24 |||
        (((x >>> 16) &&& 0xFF#64).setWidth 8).setWidth 64 <<< 16 |||
        ((x &&& 0xFFFF#64).setWidth 16).setWidth 64 ||| (x >>> 32) <<< 32 = x := by
  have hbyte : (0xFF#64) = BitVec.ofNat 64 (2 ^ 8 - 1) := rfl
  have hword : (0xFFFF#64) = BitVec.ofNat 64 (2 ^ 16 - 1) := rfl
  rw [hbyte, hword]
  refine BitVec.eq_of_getLsbD_eq fun i hi => ?_
  simp only [BitVec.getLsbD_or, BitVec.getLsbD_and, BitVec.getLsbD_shiftLeft,
    BitVec.getLsbD_setWidth, BitVec.getLsbD_ushiftRight, BitVec.getLsbD_ofNat,
    Nat.testBit_two_pow_sub_one]
  grind

/-- The host's task, once it is busy. -/
def busyTask (tss : UInt64) : UInt64 := { hostTrDescriptor tss with type := typeTssBusy }.toWord

/-- The word in the GDT is the descriptor of the host's TSS, as a busy
one. -/
theorem ofWord_busyTask (tss : UInt64) :
    Descriptor.ofWord (busyTask tss) = { hostTrDescriptor tss with type := typeTssBusy } :=
  ofWord_toWord _

/-- Its base is the address of the TSS, taken apart and put together. -/
theorem baseOf_busyTask (tss : UInt64) : baseOf (busyTask tss) (tss >>> 32) = tss := by
  have hsystem : isSystem (busyTask tss) = true := by
    rw [isSystem_iff, ofWord_busyTask]
    rfl
  have hbits := base_bits (busyTask tss).toBitVec
  have hfields := ofWord_busyTask tss
  have hhigh : (busyTask tss).toBitVec.extractLsb' 56 8 =
      ((tss.toBitVec >>> 24) &&& 0xFF#64).setWidth 8 := congrArg Descriptor.baseAddressHigh hfields
  have hmiddle : (busyTask tss).toBitVec.extractLsb' 32 8 =
      ((tss.toBitVec >>> 16) &&& 0xFF#64).setWidth 8 :=
    congrArg Descriptor.baseAddressMiddle hfields
  have hlow : (busyTask tss).toBitVec.extractLsb' 16 16 =
      (tss.toBitVec &&& 0xFFFF#64).setWidth 16 := congrArg Descriptor.baseAddressLow hfields
  rw [hhigh, hmiddle, hlow] at hbits
  rw [baseOf, if_pos hsystem]
  apply UInt64.toBitVec_inj.mp
  refine Eq.trans ?_ (base_parts tss.toBitVec)
  rw [hbits]
  rfl

/-- Its limit is that of a TSS without an I/O map. -/
theorem limitOf_busyTask (tss : UInt64) : limitOf (busyTask tss) = 0x67 := by
  have hgranularity : (Descriptor.ofWord (busyTask tss)).granularity = 0 := by
    rw [ofWord_busyTask]
    rfl
  rw [limitOf_eq hgranularity, ofWord_busyTask]
  show (0#4 ++ 0x67#16).setWidth 32 = 0x67#32
  decide

/-- It is present, of the system, and busy. -/
theorem rightsOf_busyTask (tss : UInt64) : rightsOf (busyTask tss) = 0x8B := by
  rw [rightsOf_eq, ofWord_busyTask]
  show 0#15 ++ 0#1 ++ 0#1 ++ 0#1 ++ 0#1 ++ 0#1 ++ 0#4 ++ 1#1 ++ 0#2 ++ 0#1 ++ 0xB#4 = 0x8B#32
  decide

/-- The task of the host's GDT is the TSS, with the limit and the access
rights that a VM exit loads. -/
theorem ltr_gdtInitialize {tss : UInt64} (hwords : words memory gdt.base 5 = gdtInitialize tss)
    (hlimit : 39 ≤ gdt.limit.toNat) :
    ltr memory gdt hostTr =
      some (storeWord memory (descriptorAddress gdt hostTr) (busyTask tss),
        ⟨hostTr, tss, 0x67, 0x8B⟩) := by
  -- The TSS descriptor is the fourth entry of the table and takes two places.
  have hword := getElem?_words memory gdt.base (n := 5) (k := 3) (by decide)
  have hupper := getElem?_words memory gdt.base (n := 5) (k := 4) (by decide)
  rw [hwords] at hword hupper
  have hword : descriptorWord memory gdt hostTr = (hostTrDescriptor tss).toWord :=
    (Option.some.inj hword).symm
  have haddress : descriptorAddress gdt hostTr + 8 = gdt.base + UInt64.ofNat (8 * 4) :=
    UInt64.add_assoc ..
  have hupper : upperWord memory gdt hostTr = tss >>> 32 := by
    rw [upperWord, haddress]
    exact (Option.some.inj hupper).symm
  have hfields := ofWord_busyTask tss
  have hrestored : ltr memory gdt hostTr = some (_, _) :=
    ltr_restored (w := busyTask tss) (by decide) rfl hlimit (by rw [hfields]; rfl)
      (by rw [hfields]) (by rw [hfields]; rfl) (by rw [hword, hfields]; rfl)
  rw [hrestored, hupper, baseOf_busyTask, limitOf_busyTask, rightsOf_busyTask]

end Revhv.Segment
