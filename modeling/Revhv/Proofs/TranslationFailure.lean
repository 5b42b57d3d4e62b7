import Revhv.Proofs.EptTrace
import Revhv.Proofs.GuestMemory

/-!
# `Revhv.Proofs.TranslationFailure`: what the 0 of `gva_to_gpa` means

`gva_to_gpa` returns 0 for a failed walk. It does not look at the upper
16 bits of the address, and 0 is a physical address too.

* `ZeroFaithful`: an address at which neither of them matters.
* `gvaToGpa_zero_iff`: exactly there a 0 means that the processor could
  not translate, to `gva_to_gpa` and to its callers.
* `gvaToGpa_unfaithful`: the two ways to fail.
-/

set_option autoImplicit false

namespace Revhv.GuestMemory

open Revhv.Lib Revhv.Memory Revhv.Ept

/-- A canonical address that is not at physical address 0, or another
one whose lower 48 bits are at physical address 0 or not mapped. -/
def ZeroFaithful (tables : Tables) (dtb va : Nat) : Prop :=
  (Canonical va → translate tables dtb va ≠ some 0) ∧
    (¬ Canonical va → ∀ pa, translate tables dtb va = some pa → pa = 0)

/-- A 0 stands for an address the tables do not map, or for one at
physical address 0. -/
theorem gvaToGpa_eq_zero (tables : Tables) (dtb va : Nat) :
    (gvaToGpa tables dtb va).1 = 0 ↔ ∀ pa, translate tables dtb va = some pa → pa = 0 := by
  rcases gvaToGpa_spec tables dtb va with ⟨hnone, hzero⟩ | hsome
  · rw [hzero, hnone]
    constructor
    · intro _ pa hpa
      cases hpa
    · intro _
      rfl
  · rcases hsome with ⟨pa, len, hpa, hrest⟩
    have htranslate : translate tables dtb va = some pa := hrest.translates 0 hrest.pos
    rw [hpa, htranslate]
    constructor
    · intro hzero pa' hpa'
      exact (Option.some.inj hpa').symm.trans hzero
    · intro h
      exact h pa rfl

/-- A test that holds exactly when the walk gives 0 is right at exactly
these addresses. -/
theorem zeroTest_iff (tables : Tables) (dtb va : Nat) {P : Prop}
    (hP : P ↔ (gvaToGpa tables dtb va).1 = 0) :
    (P ↔ processorTranslate tables dtb va = none) ↔ ZeroFaithful tables dtb va := by
  rw [hP, gvaToGpa_eq_zero, ZeroFaithful]
  by_cases hcanonical : Canonical va
  · have hprocessor : processorTranslate tables dtb va = translate tables dtb va :=
      if_pos hcanonical
    rw [hprocessor]
    simp only [hcanonical, true_implies, not_true, false_implies, and_true]
    cases htranslate : translate tables dtb va with
    | none => simp
    | some pa => simp
  · have hprocessor : processorTranslate tables dtb va = none := if_neg hcanonical
    rw [hprocessor]
    simp only [hcanonical, false_implies, true_and, not_false_eq_true, true_implies, iff_true]

/-- A byte is read exactly when the walk does not give 0. -/
theorem readGuestVirtual_byte {mem : Bytes} {cr3 va : Nat} (buffer : Bytes) (hva : va ≠ 0)
    (hlt : va < 2 ^ 64) (hmapped : WalkMapped (tablesOf mem) (pageDirectory cr3) va)
    (hleaf : ∀ pa, translateIn mem cr3 va = some pa → pa < hostPhysicalSize) :
    ((readGuestVirtual mem cr3 va buffer 1).map Prod.fst = some 0) ↔
      (gvaToGpa (tablesOf mem) (pageDirectory cr3) va).1 = 0 := by
  have hboth : ¬ (va = 0 ∨ 1 = 0) := by omega
  have hmod : (va + 0) % 2 ^ 64 = va := Nat.mod_eq_of_lt hlt
  have hhva : gvaToHva mem cr3 va = some (gvaToGpa (tablesOf mem) (pageDirectory cr3) va) :=
    if_pos hmapped
  rw [readGuestVirtual, if_neg hboth, readLoop, if_pos (by decide), hmod, hhva]
  rcases gvaToGpa_spec (tablesOf mem) (pageDirectory cr3) va with ⟨-, hzero⟩ | hsome
  · rw [hzero]
    exact ⟨fun _ => rfl, fun _ => rfl⟩
  · rcases hsome with ⟨pa, len, hpa, hrest⟩
    have htranslate : translateIn mem cr3 va = some pa := hrest.translates 0 hrest.pos
    have hpos := hrest.pos
    have hwindow := hrest.window (hleaf pa htranslate)
    rw [hpa]
    by_cases hzero : pa = 0
    · simp [hzero]
    · have hone : min (1 - 0) len = 1 := by omega
      have hcopy : pa + 1 ≤ hostPhysicalSize := by omega
      simp [hzero, hone, hcopy, readLoop]

/-- For every address and all tables, `gva_to_gpa` returns 0 exactly
when the processor could not translate the address if and only if the
address is `ZeroFaithful`. The same goes for what its callers conclude:
`enable_auto_trace` passes over a page, and `read_guest_virtual` stops. -/
theorem gvaToGpa_zero_iff (tables : Tables) (dtb va : Nat) :
    (((gvaToGpa tables dtb va).1 = 0 ↔ processorTranslate tables dtb va = none) ↔
      ZeroFaithful tables dtb va) ∧
    (∀ targetVa n, targetPageVa targetVa n = va →
      ((tracedPage tables dtb targetVa n = none ↔ processorTranslate tables dtb va = none) ↔
        ZeroFaithful tables dtb va)) ∧
    (∀ mem cr3 buffer, tablesOf mem = tables → pageDirectory cr3 = dtb → va ≠ 0 → va < 2 ^ 64 →
      WalkMapped tables dtb va → (∀ pa, translate tables dtb va = some pa → pa < hostPhysicalSize) →
      (((readGuestVirtual mem cr3 va buffer 1).map Prod.fst = some 0 ↔
        processorTranslate tables dtb va = none) ↔ ZeroFaithful tables dtb va)) := by
  refine ⟨zeroTest_iff tables dtb va Iff.rfl, fun targetVa n hpage => ?_, ?_⟩
  · refine zeroTest_iff tables dtb va ?_
    rw [tracedPage, hpage]
    by_cases hzero : (gvaToGpa tables dtb va).1 = 0
    · simp [hzero]
    · simp [hzero]
  · intro mem cr3 buffer htables hdtb hva hlt hmapped hleaf
    subst htables hdtb
    exact zeroTest_iff _ _ va (readGuestVirtual_byte buffer hva hlt hmapped hleaf)

/-- A PML4 at frame 1 and a PDPT at frame 2 whose entry 0 maps the first
GB to itself. -/
def frameZeroMemory : Bytes := fun a =>
  if a = 0x1000 then 0x03 else if a = 0x1001 then 0x20 else if a = 0x2000 then 0x83 else 0

/-- An address that is not canonical is walked by its lower 48 bits, and
a page at physical address 0 counts as one that is not mapped. -/
theorem gvaToGpa_unfaithful :
    (processorTranslate (tablesOf directMemory) 1 (2 ^ 48 + 0x5000) = none ∧
      (gvaToGpa (tablesOf directMemory) 1 (2 ^ 48 + 0x5000)).1 = 2 ^ 30 + 0x5000) ∧
    (processorTranslate (tablesOf frameZeroMemory) 1 0 = some 0 ∧
      (gvaToGpa (tablesOf frameZeroMemory) 1 0).1 = 0) := by
  decide +kernel

end Revhv.GuestMemory
