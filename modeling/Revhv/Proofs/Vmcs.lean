import Revhv.Km.Vmcs
import Revhv.Proofs.Segment

/-!
# `Revhv.Proofs.Vmcs`: the VMCS behind `write_control_fields`

* `writeControlFields_eq`: all writes succeed, and the VMCS has them.
* `bitFlag_adjustControls`: what the capabilities of the processor make of a control.
* `controls_of_toggles`: the controls of a core, however often its NMI window is opened and
  closed.
-/

set_option autoImplicit false

namespace Revhv.Vmcs

open Revhv.Memory Revhv.Segment

/-! ### Writes -/

section
variable {supported : UInt64 → Bool} {vmcs vmcs' : UInt64 → UInt64}

/-- Writes that all succeed are the fields with these values. -/
theorem writeAll_eq {writes : List Write} (h : writeAll supported vmcs writes = some vmcs') :
    vmcs' = withFields vmcs writes := by
  induction writes generalizing vmcs with
  | nil => exact (Option.some.inj h).symm
  | cons write writes ih =>
    obtain ⟨v, hv, hrest⟩ := Option.bind_eq_some_iff.mp h
    rw [vmwrite] at hv
    split at hv
    · rw [← Option.some.inj hv] at hrest
      exact ih hrest
    · cases hv

/-- Two lists of writes one after the other are the writes of the joined
list. -/
theorem withFields_append (vmcs : UInt64 → UInt64) (writes more : List Write) :
    withFields vmcs (writes ++ more) = withFields (withFields vmcs writes) more :=
  List.foldl_append ..

/-- Writes to other fields. -/
theorem withFields_other {writes : List Write} {field : UInt64}
    (h : field ∉ writes.map Prod.fst) : withFields vmcs writes field = vmcs field := by
  induction writes generalizing vmcs with
  | nil => rfl
  | cons write writes ih =>
    rw [List.map_cons, List.mem_cons, not_or] at h
    exact (ih h.2).trans (Function.update_of_ne h.1 _ _)

/-- All the writes of `write_control_fields`. -/
def controlFieldWrites (s : System) (memory : UInt64 → UInt8) (rflags : UInt64)
    (layout : VcpuLayout) : List Write :=
  writePinBased s.msrs ++ writeProcBased s.msrs ++ writeVmexitControls s.msrs memory layout ++
    writeVmentryControls s.msrs memory layout ++ writeOtherControlFields s layout ++
      guestStateFields s memory rflags ++ [(guestVmxPreemptionTimerValue, 0xFFFFFFFF)] ++
        writeHostStateFields s layout

/-- The functions of `vmcs.cpp`, once they succeed, have written one
list of fields. -/
theorem writeControlFields_eq {s : System} {memory : UInt64 → UInt8} {rflags : UInt64}
    {layout : VcpuLayout}
    (h : writeControlFields supported s memory rflags layout vmcs = some vmcs') :
    vmcs' = withFields vmcs (controlFieldWrites s memory rflags layout) := by
  -- The source writes group after group and gives up at the first field that is
  -- refused.
  obtain ⟨v₁, h₁, h⟩ := Option.bind_eq_some_iff.mp h
  obtain ⟨v₂, h₂, h⟩ := Option.bind_eq_some_iff.mp h
  obtain ⟨v₃, h₃, h⟩ := Option.bind_eq_some_iff.mp h
  obtain ⟨v₄, h₄, h⟩ := Option.bind_eq_some_iff.mp h
  obtain ⟨v₅, h₅, h⟩ := Option.bind_eq_some_iff.mp h
  obtain ⟨v₆, h₆, h⟩ := Option.bind_eq_some_iff.mp h
  obtain ⟨v₇, h₇, h₆⟩ := Option.bind_eq_some_iff.mp h₆
  have h₆ : v₆ = withFields v₇ [(guestVmxPreemptionTimerValue, 0xFFFFFFFF)] := by
    -- Without the timer in the pin-based controls the source gives up.
    split at h₆
    · rw [vmwrite] at h₆
      split at h₆
      · exact (Option.some.inj h₆).symm
      · cases h₆
    · cases h₆
  simp only [controlFieldWrites, withFields_append]
  rw [writeAll_eq h, h₆, writeAll_eq h₇, writeAll_eq h₅, writeAll_eq h₄, writeAll_eq h₃,
    writeAll_eq h₂, writeAll_eq h₁]

/-- On a processor with every field, the preemption timer decides. -/
theorem writeControlFields_supported {s : System} {memory : UInt64 → UInt8} {rflags : UInt64}
    {layout : VcpuLayout} (hsupported : ∀ field, supported field = true)
    (htimer : bitFlag (withFields vmcs (writePinBased s.msrs) ctrlPinBased)
      activateVmxPreemptionTimer = true) :
    writeControlFields supported s memory rflags layout vmcs =
      some (withFields vmcs (controlFieldWrites s memory rflags layout)) := by
  have hwrite : ∀ vmcs field value,
      vmwrite supported vmcs field value = some (Function.update vmcs field value) :=
    fun vmcs field value => if_pos (hsupported field)
  have hall : ∀ writes vmcs, writeAll supported vmcs writes = some (withFields vmcs writes) := by
    intro writes
    induction writes with
    | nil => exact fun vmcs => rfl
    | cons write writes ih =>
      intro vmcs
      rw [writeAll, hwrite]
      exact ih _
  -- Nothing between the pin-based controls and the test writes them again.
  have hguest : ∀ vmcs : UInt64 → UInt64,
      bitFlag (vmcs ctrlPinBased) activateVmxPreemptionTimer = true →
        writeGuestStateFields supported s memory rflags vmcs =
          some (withFields (withFields vmcs (guestStateFields s memory rflags))
            [(guestVmxPreemptionTimerValue, 0xFFFFFFFF)]) := by
    intro vmcs hpin
    have hpin : bitFlag (withFields vmcs (guestStateFields s memory rflags) ctrlPinBased)
        activateVmxPreemptionTimer = true := hpin
    rw [writeGuestStateFields, hall, Option.bind_eq_bind, Option.bind_some]
    simp only [if_pos hpin]
    exact hwrite ..
  simp only [writeControlFields, controlFieldWrites, hall, Option.bind_eq_bind, Option.bind_some,
    withFields_append]
  have hpin : bitFlag (withFields (withFields (withFields (withFields (withFields vmcs
      (writePinBased s.msrs)) (writeProcBased s.msrs)) (writeVmexitControls s.msrs memory layout))
        (writeVmentryControls s.msrs memory layout)) (writeOtherControlFields s layout) ctrlPinBased)
          activateVmxPreemptionTimer = true := htimer
  rw [hguest _ hpin, Option.bind_some]

end

/-! ### Bits of the controls -/

/-- A bit of an OR is set in one of the two. -/
theorem bitFlag_or (a b : UInt64) (i : Nat) : bitFlag (a ||| b) i = (bitFlag a i || bitFlag b i) := by
  rw [bitFlag, UInt64.toNat_or, Nat.testBit_or]
  rfl

/-- A bit of an AND is set in both. -/
theorem bitFlag_and (a b : UInt64) (i : Nat) :
    bitFlag (a &&& b) i = (bitFlag a i && bitFlag b i) := by
  rw [bitFlag, UInt64.toNat_and, Nat.testBit_and]
  rfl

/-- A shifted 1 has one bit. -/
theorem bitFlag_shift {bit i : Nat} (hbit : bit < 64) :
    bitFlag (1 <<< UInt64.ofNat bit) i = decide (i = bit) := by
  have hshift : (UInt64.ofNat bit).toNat = bit :=
    UInt64.toNat_ofNat_of_lt' (Nat.lt_trans hbit (by decide))
  have hone : (1 : UInt64).toNat = 1 := rfl
  have hpow : 2 ^ bit < 2 ^ 64 := Nat.pow_lt_pow_right (by omega) hbit
  rw [bitFlag, UInt64.toNat_shiftLeft, hshift, hone, Nat.mod_eq_of_lt hbit, Nat.shiftLeft_eq,
    Nat.one_mul, Nat.mod_eq_of_lt hpow, Nat.testBit_two_pow]
  exact decide_eq_decide.mpr eq_comm

/-- A value made of flags has just their bits. -/
theorem bitFlag_flagsOf {bits : List Nat} (hbits : ∀ bit ∈ bits, bit < 64) (i : Nat) :
    bitFlag (flagsOf bits) i = decide (i ∈ bits) := by
  have hfold : ∀ (bits : List Nat) (flags : UInt64), (∀ bit ∈ bits, bit < 64) →
      bitFlag (bits.foldl (fun flags bit => flags ||| 1 <<< UInt64.ofNat bit) flags) i =
        (bitFlag flags i || decide (i ∈ bits)) := by
    intro bits
    induction bits with
    | nil => simp
    | cons bit bits ih =>
      intro flags hbits
      rw [List.foldl_cons, ih _ fun b hb => hbits b (List.mem_cons_of_mem _ hb), bitFlag_or,
        bitFlag_shift (hbits bit List.mem_cons_self)]
      simp only [List.mem_cons, Bool.decide_or, Bool.or_assoc]
  rw [flagsOf, hfold bits 0 hbits]
  simp [bitFlag]

/-- Bits outside of some flags. -/
theorem bitFlag_clear {bits : List Nat} (hbits : ∀ bit ∈ bits, bit < 64) (a : UInt64) (i : Nat) :
    bitFlag (a &&& ~~~flagsOf bits) i = (bitFlag a i && decide (i ∉ bits)) := by
  by_cases hi : i < 64
  · have hnot : bitFlag (~~~flagsOf bits) i = !bitFlag (flagsOf bits) i := by
      rw [bitFlag, bitFlag, ← UInt64.toNat_toBitVec, BitVec.testBit_toNat, UInt64.toBitVec_not,
        BitVec.getLsbD_not, ← UInt64.toNat_toBitVec, BitVec.testBit_toNat]
      simp [hi]
    rw [bitFlag_and, hnot, bitFlag_flagsOf hbits]
    simp
  · have hlow : bitFlag a i = false := by
      refine Nat.testBit_lt_two_pow (Nat.lt_of_lt_of_le a.toNat_lt ?_)
      exact Nat.pow_le_pow_right (by omega) (by omega)
    rw [bitFlag_and, hlow, Bool.false_and, Bool.false_and]

/-- The capability MSR that `write_control_field` looks at. -/
def capability (msrs : Nat → UInt64) (capMsr trueCapMsr : Nat) : UInt64 :=
  if bitFlag (msrs ia32VmxBasic) 55 then msrs trueCapMsr else msrs capMsr

/-- The processor wants a bit to be one. -/
def required (cap : UInt64) (i : Nat) : Bool := decide (i < 32) && bitFlag cap i

/-- The processor lets a bit be one. -/
def allowed (cap : UInt64) (i : Nat) : Bool := bitFlag cap (i + 32)

/-- A bit of adjusted controls is one that is asked for or required, and
allowed. -/
theorem bitFlag_adjustControls (msrs : Nat → UInt64) (value : UInt64) (capMsr trueCapMsr i : Nat) :
    bitFlag (adjustControls msrs value capMsr trueCapMsr) i =
      ((bitFlag value i || required (capability msrs capMsr trueCapMsr) i) &&
        allowed (capability msrs capMsr trueCapMsr) i) := by
  -- The low half of the capability gives the bits that must be 1, the high half
  -- those that may be.
  have hlow : ∀ cap : UInt64, bitFlag (cap &&& 0xFFFFFFFF) i = required cap i := by
    intro cap
    have hmask : (0xFFFFFFFF : UInt64).toNat = 2 ^ 32 - 1 := rfl
    rw [bitFlag_and, required, Bool.and_comm]
    have hbit : bitFlag 0xFFFFFFFF i = decide (i < 32) := by
      rw [bitFlag, hmask, Nat.testBit_two_pow_sub_one]
    rw [hbit]
  have hhigh : ∀ cap : UInt64, bitFlag (cap >>> 32) i = allowed cap i := by
    intro cap
    have hshift : (32 : UInt64).toNat % 64 = 32 := rfl
    rw [bitFlag, UInt64.toNat_shiftRight, hshift, Nat.testBit_shiftRight, allowed, bitFlag,
      Nat.add_comm]
  rw [adjustControls, bitFlag_and, bitFlag_or]
  exact congrArg₂ (fun a b => (bitFlag value i || a) && b) (hlow _) (hhigh _)

/-! ### The controls of a core -/

/-- A bit of a control that was asked for with some bits. -/
def controlBit (msrs : Nat → UInt64) (bits : List Nat) (capMsr trueCapMsr i : Nat) : Bool :=
  (decide (i ∈ bits) || required (capability msrs capMsr trueCapMsr) i) &&
    allowed (capability msrs capMsr trueCapMsr) i

/-- The bits that are asked for in the processor-based controls. -/
def desiredProcBased : List Nat := [useTscOffsetting, useMsrBitmaps, activateSecondaryControls]

/-- The bits that are asked for in the VM-exit controls. -/
def desiredVmexit : List Nat :=
  [exitSaveDebugControls, exitHostAddressSpaceSize, exitSavePat, exitLoadPat, exitSaveEfer,
    exitLoadEfer, exitSavePerfGlobalCtl, exitLoadPerfGlobalCtrl, exitConcealVmxFromPt]

/-- The bits that are asked for in the VM-entry controls. -/
def desiredVmentry : List Nat :=
  [entryLoadDebugControls, entryIa32eModeGuest, entryLoadEfer, entryLoadPat,
    entryLoadPerfGlobalCtrl, entryConcealVmxFromPt]

/-- The same for controls that are given by their flags. -/
theorem bitFlag_adjust_flagsOf (msrs : Nat → UInt64) {bits : List Nat}
    (hbits : ∀ bit ∈ bits, bit < 64) (capMsr trueCapMsr i : Nat) :
    bitFlag (adjustControls msrs (flagsOf bits) capMsr trueCapMsr) i =
      controlBit msrs bits capMsr trueCapMsr i := by
  rw [bitFlag_adjustControls, bitFlag_flagsOf hbits, controlBit]

/-- The bits asked for in the processor-based controls, behind some
toggles of the NMI window. -/
def toggledProcBased (toggles : List Bool) : List Nat :=
  if toggles.getLast? = some true then nmiWindowExiting :: desiredProcBased else desiredProcBased

/-- One toggle, on controls that were asked for with some bits. -/
theorem bitFlag_toggle (msrs : Nat → UInt64) {vmcs : UInt64 → UInt64} {bits : List Nat}
    (hbits : ∀ i, bitFlag (vmcs ctrlProcBased) i =
      controlBit msrs bits ia32VmxProcbasedCtls ia32VmxTrueProcbasedCtls i)
    (exit : Bool) (i : Nat) :
    bitFlag (setNmiWindowExiting msrs vmcs exit ctrlProcBased) i =
      controlBit msrs (if exit then nmiWindowExiting :: bits else bits.filter (· ≠ nmiWindowExiting))
        ia32VmxProcbasedCtls ia32VmxTrueProcbasedCtls i := by
  have hwindow : ∀ bit ∈ [nmiWindowExiting], bit < 64 := by decide
  rw [setNmiWindowExiting, Function.update_self, bitFlag_adjustControls, controlBit]
  have hbit := hbits i
  rw [controlBit] at hbit
  generalize required (capability msrs ia32VmxProcbasedCtls ia32VmxTrueProcbasedCtls) i = r
    at hbit ⊢
  generalize allowed (capability msrs ia32VmxProcbasedCtls ia32VmxTrueProcbasedCtls) i = a
    at hbit ⊢
  -- Required and allowed bits settle the other positions, so the cases are
  -- those of two flags.
  cases exit with
  | true =>
    simp only [if_true, bitFlag_or, bitFlag_flagsOf hwindow, hbit]
    by_cases hi : i = nmiWindowExiting <;> cases r <;> cases a <;> simp [hi]
  | false =>
    simp only [Bool.false_eq_true, if_false, bitFlag_clear hwindow, hbit]
    by_cases hi : i = nmiWindowExiting <;> cases r <;> cases a <;> simp [hi]

/-- One toggle more adds or removes the NMI-window bit. -/
theorem mem_toggledProcBased (toggles : List Bool) (exit : Bool) (i : Nat) :
    i ∈ (if exit then nmiWindowExiting :: toggledProcBased toggles
      else (toggledProcBased toggles).filter (· ≠ nmiWindowExiting)) ↔
        i ∈ toggledProcBased (toggles ++ [exit]) := by
  have hfresh : nmiWindowExiting ∉ desiredProcBased := by decide
  simp only [toggledProcBased, List.getLast?_append, List.getLast?_singleton, Option.some_or,
    Option.some.injEq]
  -- A toggle adds the bit or takes it away, and no other toggle matters after
  -- that.
  cases exit with
  | true =>
    simp only [if_true]
    split
    · simp
    · simp
  | false =>
    simp only [Bool.false_eq_true, if_false, List.mem_filter, decide_eq_true_eq]
    split
    · constructor
      · rintro ⟨hi, hne⟩
        exact (List.mem_cons.mp hi).resolve_left hne
      · exact fun hi => ⟨List.mem_cons_of_mem _ hi, fun h => hfresh (h ▸ hi)⟩
    · exact ⟨fun h => h.1, fun hi => ⟨hi, fun h => hfresh (h ▸ hi)⟩⟩

/-- The processor-based controls behind any number of toggles. -/
theorem bitFlag_toggles (msrs : Nat → UInt64) {vmcs : UInt64 → UInt64}
    (hbits : ∀ i, bitFlag (vmcs ctrlProcBased) i =
      controlBit msrs desiredProcBased ia32VmxProcbasedCtls ia32VmxTrueProcbasedCtls i)
    (toggles : List Bool) (i : Nat) :
    bitFlag (toggles.foldl (setNmiWindowExiting msrs) vmcs ctrlProcBased) i =
      controlBit msrs (toggledProcBased toggles) ia32VmxProcbasedCtls ia32VmxTrueProcbasedCtls
        i := by
  induction toggles using List.reverseRecOn generalizing i with
  | nil => exact hbits i
  | append_singleton toggles exit ih =>
    rw [List.foldl_append]
    refine (bitFlag_toggle msrs ih exit i).trans ?_
    rw [controlBit, controlBit, decide_eq_decide.mpr (mem_toggledProcBased toggles exit i)]

/-- A toggle writes one field. -/
theorem toggles_other (msrs : Nat → UInt64) (vmcs : UInt64 → UInt64) (toggles : List Bool)
    {field : UInt64} (hfield : field ≠ ctrlProcBased) :
    toggles.foldl (setNmiWindowExiting msrs) vmcs field = vmcs field := by
  induction toggles generalizing vmcs with
  | nil => rfl
  | cons exit toggles ih =>
    rw [List.foldl_cons, ih]
    exact Function.update_of_ne hfield ..

/-! ### The fields -/

section
variable (vmcs : UInt64 → UInt64) (s : System) (memory : UInt64 → UInt8) (rflags : UInt64)
  (layout : VcpuLayout)

-- The first writes have more than a hundred others behind them.
set_option maxRecDepth 2000 in

/-- The pin-based controls as written. -/
theorem written_pinBased :
    withFields vmcs (controlFieldWrites s memory rflags layout) ctrlPinBased =
      adjustControls s.msrs (flagsOf [nmiExiting, virtualNmi, activateVmxPreemptionTimer])
        ia32VmxPinbasedCtls ia32VmxTruePinbasedCtls := rfl

set_option maxRecDepth 2000 in

/-- The primary processor-based controls as written. -/
theorem written_procBased :
    withFields vmcs (controlFieldWrites s memory rflags layout) ctrlProcBased =
      adjustControls s.msrs (flagsOf desiredProcBased) ia32VmxProcbasedCtls
        ia32VmxTrueProcbasedCtls := rfl

set_option maxRecDepth 2000 in

/-- The secondary ones as written. -/
theorem written_secondaryProcBased :
    withFields vmcs (controlFieldWrites s memory rflags layout) ctrlSecondaryProcBased =
      adjustControls s.msrs (flagsOf desiredProcBasedCtls2) ia32VmxProcbasedCtls2
        ia32VmxProcbasedCtls2 := rfl

set_option maxRecDepth 2000 in

/-- The exit controls as written. -/
theorem written_primaryVmexit :
    withFields vmcs (controlFieldWrites s memory rflags layout) ctrlPrimaryVmexit =
      adjustControls s.msrs (flagsOf desiredVmexit) ia32VmxExitCtls ia32VmxTrueExitCtls := rfl

set_option maxRecDepth 2000 in

/-- The entry controls as written. -/
theorem written_vmentry :
    withFields vmcs (controlFieldWrites s memory rflags layout) ctrlVmentry =
      adjustControls s.msrs (flagsOf desiredVmentry) ia32VmxEntryCtls ia32VmxTrueEntryCtls := rfl

end

/-- The controls of a core, bit by bit, however often its NMI window was
opened and closed. A bit is one if it is asked for or the processor
requires it, and the processor allows it. The NMI window is asked for by
the last toggle, which changes nothing else. -/
theorem controls_of_toggles {supported : UInt64 → Bool} {vmcs cleared : UInt64 → UInt64}
    {s : System} {memory : UInt64 → UInt8} {rflags : UInt64} {layout : VcpuLayout}
    (h : writeControlFields supported s memory rflags layout cleared = some vmcs)
    (toggles : List Bool) :
    (∀ field, field ≠ ctrlProcBased →
      toggles.foldl (setNmiWindowExiting s.msrs) vmcs field = vmcs field) ∧
    ∀ i, bitFlag (vmcs ctrlPinBased) i =
        controlBit s.msrs [nmiExiting, virtualNmi, activateVmxPreemptionTimer] ia32VmxPinbasedCtls
          ia32VmxTruePinbasedCtls i ∧
      bitFlag (toggles.foldl (setNmiWindowExiting s.msrs) vmcs ctrlProcBased) i =
        controlBit s.msrs (toggledProcBased toggles) ia32VmxProcbasedCtls
          ia32VmxTrueProcbasedCtls i ∧
      bitFlag (vmcs ctrlSecondaryProcBased) i =
        controlBit s.msrs desiredProcBasedCtls2 ia32VmxProcbasedCtls2 ia32VmxProcbasedCtls2 i ∧
      bitFlag (vmcs ctrlPrimaryVmexit) i =
        controlBit s.msrs desiredVmexit ia32VmxExitCtls ia32VmxTrueExitCtls i ∧
      bitFlag (vmcs ctrlVmentry) i =
        controlBit s.msrs desiredVmentry ia32VmxEntryCtls ia32VmxTrueEntryCtls i := by
  have hvmcs := writeControlFields_eq h
  -- Only the processor-based controls are ever toggled.
  have hproc : ∀ i, bitFlag (vmcs ctrlProcBased) i =
      controlBit s.msrs desiredProcBased ia32VmxProcbasedCtls ia32VmxTrueProcbasedCtls i := by
    intro i
    rw [hvmcs, written_procBased]
    exact bitFlag_adjust_flagsOf s.msrs (by decide) _ _ i
  refine ⟨fun field hfield => toggles_other s.msrs vmcs toggles hfield, fun i => ⟨?_, ?_, ?_, ?_, ?_⟩⟩
  · rw [hvmcs, written_pinBased]
    exact bitFlag_adjust_flagsOf s.msrs (by decide) _ _ i
  · exact bitFlag_toggles s.msrs hproc toggles i
  · rw [hvmcs, written_secondaryProcBased]
    exact bitFlag_adjust_flagsOf s.msrs (by decide) _ _ i
  · rw [hvmcs, written_primaryVmexit]
    exact bitFlag_adjust_flagsOf s.msrs (by decide) _ _ i
  · rw [hvmcs, written_vmentry]
    exact bitFlag_adjust_flagsOf s.msrs (by decide) _ _ i

/-- The MSRs of a processor with VMX, as far as they are read: the
feature control, MPERF and APERF, PAT, EFER, and the capabilities of
VMX. -/
def sampleMsrs : List (Nat × UInt64) :=
  [(0x3A, 5), (0xE7, 0x13C5A2), (0xE8, 0x1702B4), (ia32Pat, 0x0007040600070406), (ia32Efer, 0xD01),
    (ia32VmxBasic, 0x00DA050000000013), (ia32VmxPinbasedCtls, 0x000000FF00000016),
    (ia32VmxProcbasedCtls, 0xFFFBFFFE0401E172), (ia32VmxExitCtls, 0x41FFFFFF00036DFF),
    (ia32VmxEntryCtls, 0x0003FFFF000011FF), (ia32VmxCr0Fixed0, 0x80000021),
    (ia32VmxCr0Fixed1, 0xFFFFFFFF), (ia32VmxCr4Fixed0, 0x2000), (ia32VmxCr4Fixed1, 0x3767FF),
    (ia32VmxProcbasedCtls2, 0x077FFFFF00000000), (ia32VmxTruePinbasedCtls, 0x000000FF00000016),
    (ia32VmxTrueProcbasedCtls, 0xFFFBFFFE04006172), (ia32VmxTrueExitCtls, 0x41FFFFFF00036DFB),
    (ia32VmxTrueEntryCtls, 0x0003FFFF000011FB)]

/-- A core of the OS. -/
def sampleSystem : System where
  cr0 := 0x80050033
  cr3 := 0x1AB000
  cr4 := 0x370678
  dr7 := 0x400
  segment
    | .cs => ⟨0x10, 0, 0, 0x209B⟩
    | .ss => ⟨0x18, 0, 0, 0x4093⟩
    | .ldtr => .null 0
    | .tr => ⟨0x40, 0, 0x67, 0x8B⟩
    | _ => ⟨0x2B, 0, 0xFFFFFFFF, 0xC0F3⟩
  gdtr := ⟨0x8000, 0x57⟩
  idtr := ⟨0x9000, 0xFFF⟩
  msrs msr := (sampleMsrs.lookup msr).getD 0

/-- A vCPU. -/
def sampleLayout : VcpuLayout where
  vcpu := 0x10000
  hostStack := 0x20008
  hostTss := 0x30000
  hostGdt := 0x40000
  hostIdt := 0x50000
  vmexitStub := 0x60000
  stealthData := 0x71000
  msrEntriesPhysical := 0x1000
  msrBitmapPhysical := 0x2000
  eptNormalPhysical := 0x3000
  hostPml4Physical := 0x4000
  systemCr3 := 0x1AB000

/-- The VMCS of the vCPU. -/
def sampleVmcs (memory : UInt64 → UInt8) (s : System) (rflags : UInt64) : UInt64 → UInt64 :=
  withFields (fun _ => 0) (controlFieldWrites s memory rflags sampleLayout)

/-- The sample writes all its fields. -/
theorem sampleVmcs_written (memory : UInt64 → UInt8) (rflags : UInt64) {s : System}
    (h : s.msrs = sampleSystem.msrs) :
    writeControlFields (fun _ => true) s memory rflags sampleLayout (fun _ => 0) =
      some (sampleVmcs memory s rflags) := by
  refine writeControlFields_supported (fun _ => rfl) ?_
  rw [h]
  decide +kernel

/-- Three toggles of the NMI-window bit on the sample. -/
theorem controls_of_toggles_sample :
    bitFlag ([true, false, true].foldl (setNmiWindowExiting sampleSystem.msrs)
      (sampleVmcs (fun _ => 0) sampleSystem 2) ctrlProcBased) nmiWindowExiting = true := by
  rw [((controls_of_toggles (sampleVmcs_written (fun _ => 0) 2 rfl) [true, false, true]).2
    nmiWindowExiting).2.1]
  decide +kernel

end Revhv.Vmcs
