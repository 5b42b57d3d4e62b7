import Revhv.Proofs.EptTyping
import Revhv.Proofs.MsrWrites

/-!
# `Revhv.Proofs.MtrrWrites`: MTRR writes and the memory types of the views

`read_mtrrs`, the bitmap and `is_mtrr_msr` each have their own set of
MTRRs. The bitmap covers what `read_mtrrs` consults (`exits_of_consulted`).
`is_mtrr_msr` stops after ten variable ranges, so a write to a later one
exits and is then passed over.

* `readMtrrs_congr`: the registers `read_mtrrs` consults.
* `mtrrWrites_seen`: in a run that writes nothing new to a range after
  the tenth while the MTRRs are on, the vCPU has the current MTRRs and
  both views have the memory types of these.
* `eleventhRange_unseen`: a write to the eleventh range that the vCPU
  misses.
-/

set_option autoImplicit false

namespace Revhv.Memory

/-! ### What `read_mtrrs` consults -/

/-- The MSRs `read_mtrrs` consults when there are `count` variable
ranges. -/
def Consulted (count msr : Nat) : Prop :=
  msr = ia32MtrrCapabilities ∨ msr = ia32MtrrDefType ∨ msr = ia32MtrrFix64k ∨
    (ia32MtrrFix16k ≤ msr ∧ msr < ia32MtrrFix16k + 2) ∨
    (ia32MtrrFix4k ≤ msr ∧ msr < ia32MtrrFix4k + 8) ∨
    (ia32MtrrPhysbase0 ≤ msr ∧ msr < ia32MtrrPhysbase0 + count * 2)

/-- The result depends on these registers only. -/
theorem readMtrrs_congr {msrs msrs' : Nat → UInt64}
    (h : ∀ msr, Consulted (variableRangeCount msrs) msr → msrs' msr = msrs msr) :
    readMtrrs msrs' = readMtrrs msrs := by
  have hcap := h ia32MtrrCapabilities (Or.inl rfl)
  have hdef := h ia32MtrrDefType (Or.inr (Or.inl rfl))
  have hcount : variableRangeCount msrs' = variableRangeCount msrs := by
    unfold variableRangeCount
    rw [hcap]
  -- Eight 64 KB, sixteen 16 KB and sixty-four 4 KB ranges share eleven
  -- registers.
  have hfixed : readFixedRanges msrs' = readFixedRanges msrs := by
    funext i
    unfold readFixedRanges
    rw [h ia32MtrrFix64k (Or.inr (Or.inr (Or.inl rfl)))]
    split
    · rfl
    · split
      · rw [h (ia32MtrrFix16k + (i - 8) / 8)]
        exact Or.inr (Or.inr (Or.inr (Or.inl ⟨by omega, by omega⟩)))
      · split
        · rw [h (ia32MtrrFix4k + (i - 24) / 8)]
          exact Or.inr (Or.inr (Or.inr (Or.inr (Or.inl ⟨by omega, by omega⟩))))
        · rfl
  have hvariable : ∀ i ∈ List.range (variableRangeCount msrs),
      readVariableRange msrs' i = readVariableRange msrs i := by
    intro i hi
    have hlt := List.mem_range.mp hi
    have hbase := h (ia32MtrrPhysbase0 + i * 2)
      (Or.inr (Or.inr (Or.inr (Or.inr (Or.inr ⟨by omega, by omega⟩)))))
    have hmask := h (ia32MtrrPhysmask0 + i * 2) (Or.inr (Or.inr (Or.inr (Or.inr (Or.inr
      (by unfold ia32MtrrPhysbase0 ia32MtrrPhysmask0; omega))))))
    unfold readVariableRange
    rw [hbase, hmask]
  -- The count comes from MTRRCAP, so both lists have the same length.
  unfold readMtrrs
  simp only [hcap, hdef, hcount, hfixed]
  congr 1
  apply List.map_congr_left
  intro i hi
  rw [hvariable i hi]

/-- With the MTRRs off no range register is read. -/
theorem readMtrrs_congr_off {msrs msrs' : Nat → UInt64}
    (hoff : bitFlag (msrs ia32MtrrDefType) 11 = false)
    (hcap : msrs' ia32MtrrCapabilities = msrs ia32MtrrCapabilities)
    (hdef : msrs' ia32MtrrDefType = msrs ia32MtrrDefType) : readMtrrs msrs' = readMtrrs msrs := by
  unfold readMtrrs variableRangeCount
  simp only [hcap, hdef, hoff, Bool.false_and, Bool.false_eq_true, if_false]

/-- A variable range of the result. -/
theorem variableRange_readMtrrs {msrs : Nat → UInt64} {i : Nat} (hi : i < variableRangeCount msrs)
    (hon : bitFlag (msrs ia32MtrrDefType) 11 = true) :
    (readMtrrs msrs).variableRanges[i]? = some (readVariableRange msrs i) := by
  have hrange : (List.range (variableRangeCount msrs))[i]? = some i := by
    rw [List.getElem?_range hi]
  unfold readMtrrs
  simp only [hon, List.getElem?_map, hrange, Option.map_some, if_true]

end Revhv.Memory

namespace Revhv.Vmexit

open Revhv.Ept Revhv.Hypercall Revhv.Lib Revhv.Memory Revhv.Trace Revhv.Vcpu Revhv.Vmcs

/-! ### The three sets of MTRRs -/

/-- The MSRs that the handler takes for MTRRs, range by range. -/
theorem isMtrrMsr_iff (msr : Nat) :
    isMtrrMsr msr = true ↔ msr = ia32MtrrDefType ∨ msr = ia32MtrrFix64k ∨
      (ia32MtrrFix16k ≤ msr ∧ msr < ia32MtrrFix16k + 2) ∨
      (ia32MtrrFix4k ≤ msr ∧ msr < ia32MtrrFix4k + 8) ∨
      (ia32MtrrPhysbase0 ≤ msr ∧ msr < ia32MtrrPhysbase0 + 20) := by
  unfold isMtrrMsr
  simp only [Bool.if_true_left, Bool.if_false_right, Bool.or_eq_true, decide_eq_true_eq,
    Bool.and_true, Nat.lt_succ_iff]

/-- A write to a consulted register exits. -/
theorem exits_of_consulted {count msr : Nat} (hbelow : ia32MtrrPhysbase0 + count * 2 ≤ 0x250)
    (h : Consulted count msr) (hcap : msr ≠ ia32MtrrCapabilities) :
    (writeMsrBitmap .zeroed).wrmsrExits msr = true := by
  rw [wrmsrExits_writeMsrBitmap]
  unfold Consulted at h
  unfold ia32MtrrPhysbase0 at h hbelow
  unfold ia32MtrrDefType ia32MtrrFix64k ia32MtrrFix16k ia32MtrrFix4k at h
  refine Or.inr (Or.inl ?_)
  omega

/-- No consulted register has a guest field. -/
theorem not_switched_of_consulted {count msr : Nat}
    (hbelow : ia32MtrrPhysbase0 + count * 2 ≤ 0x250) (h : Consulted count msr) :
    msr ∉ switchedMsrs := by
  unfold Consulted at h
  unfold ia32MtrrPhysbase0 at h hbelow
  unfold ia32MtrrCapabilities ia32MtrrDefType ia32MtrrFix64k ia32MtrrFix16k ia32MtrrFix4k at h
  simp only [switchedMsrs, ia32Pat, ia32Efer, ia32PerfGlobalCtrl, ia32Debugctl, ia32SysenterCs,
    ia32SysenterEsp, ia32SysenterEip, List.mem_cons, List.not_mem_nil, or_false]
  omega

/-! ### One WRMSR -/

/-- The write is not a change of a range after the tenth that
`read_mtrrs` would see. -/
def SeenWrite (core : Core) (guestContext : GuestContext) : Prop :=
  ia32MtrrPhysbase0 + 20 ≤ wrmsrIndex guestContext →
    wrmsrIndex guestContext < ia32MtrrPhysbase0 + variableRangeCount core.msrs * 2 →
    bitFlag (core.msrs ia32MtrrDefType) 11 = false ∨
      wrmsrValue guestContext = core.msrs (wrmsrIndex guestContext)

/-- The vCPU has the current MTRRs, and both views have the memory types
of these. -/
structure Synced (core : Core) : Prop where
  mtrrState : core.vcpu.mtrrState = readMtrrs core.msrs
  normal : Typed core.vcpu.mtrrState core.vcpu.ept.normal
  target : Typed core.vcpu.mtrrState core.vcpu.ept.target

/-- A view in order, without an active hook. -/
structure Unhooked (pages : EptPages) : Prop where
  kept : Kept pages
  unguarded : ∀ q, ¬ pages.view.Guarded q

/-- What a run keeps besides. -/
structure Steady (count : Nat) (core : Core) : Prop where
  count_eq : variableRangeCount core.msrs = count
  msrBitmap : core.msrBitmap = writeMsrBitmap .zeroed
  normal : Unhooked core.vcpu.ept.normal
  target : Unhooked core.vcpu.ept.target

/-- New types leave a view without hooks. -/
theorem unhooked_update {pages : EptPages} (h : Unhooked pages) (mtrrState : MtrrState) :
    Unhooked (updateEptMemoryTypes pages mtrrState) := by
  refine ⟨kept_updateEptMemoryTypes h.kept mtrrState, fun q => ?_⟩
  rw [view_updateEptMemoryTypes h.kept.wf]
  exact h.unguarded q

/-- A new view has no hook. -/
theorem unhooked_initializeEpt (frames : TableFrames) (mtrrState : MtrrState) :
    Unhooked (initializeEpt frames mtrrState) := by
  refine ⟨initializeEpt_kept frames mtrrState, fun q hguarded => ?_⟩
  rw [(initializeEpt_pair frames frames mtrrState).view] at hguarded
  obtain ⟨g, hmem, _⟩ := hguarded
  exact absurd hmem List.not_mem_nil

section
variable {processor : Processor} {core core' : Core} {guestContext : GuestContext} {count : Nat}

/-- What a write does to the vCPU. `msrs` are the registers the handler
reads. -/
theorem vcpu_wrmsr (h : Steady count core)
    (hnext : core.wrmsr processor guestContext = some core') :
    (isMtrrMsr (wrmsrIndex guestContext) = false ∧ core'.vcpu = core.vcpu) ∨
      (isMtrrMsr (wrmsrIndex guestContext) = true ∧ ∃ msrs,
        core'.vcpu = handleWrmsrMtrr core.vcpu (readMtrrs msrs) ∧
        ∀ msr, msr ∉ switchedMsrs → core'.msrs msr = msrs msr) := by
  -- Every register `is_mtrr_msr` names lies in the span whose writes exit.
  have hexits : isMtrrMsr (wrmsrIndex guestContext) = true →
      core.msrBitmap.wrmsrExits (wrmsrIndex guestContext) = true := by
    intro hmtrr
    rw [h.msrBitmap, wrmsrExits_writeMsrBitmap]
    refine Or.inr (Or.inl ?_)
    rw [isMtrrMsr_iff] at hmtrr
    unfold ia32MtrrDefType ia32MtrrFix64k ia32MtrrFix16k ia32MtrrFix4k ia32MtrrPhysbase0 at hmtrr
    omega
  unfold Core.wrmsr at hnext
  simp only at hnext
  split at hnext
  · cases hnext
  · rename_i hfault
    split at hnext
    · -- The write exits.
      have heq := Option.some.inj hnext
      unfold handleWrmsr at heq
      simp only [hfault, Bool.false_eq_true, if_false] at heq
      split at heq
      · rename_i hmtrr
        refine Or.inr ⟨hmtrr, _, by rw [← heq]; rfl, fun msr hmsr => ?_⟩
        rw [← heq]
        exact if_neg (mt (entryLoads_iff msr).mp hmsr)
      · rename_i hmtrr
        refine Or.inl ⟨Bool.eq_false_iff.mpr hmtrr, by rw [← heq]; rfl⟩
    · -- The write does not exit, so it was no MTRR write either.
      rename_i hno
      have heq := Option.some.inj hnext
      exact Or.inl ⟨Bool.eq_false_iff.mpr fun hmtrr => hno (hexits hmtrr), by rw [← heq]; rfl⟩

/-- `IA32_MTRR_CAPABILITIES` is never written. -/
theorem index_ne_capabilities (hnext : core.wrmsr processor guestContext = some core') :
    wrmsrIndex guestContext ≠ ia32MtrrCapabilities := by
  intro heq
  unfold Core.wrmsr at hnext
  simp only [heq, processor.capabilities, if_true] at hnext
  cases hnext

/-- A consulted register after a write. -/
theorem consulted_wrmsr (hbelow : ia32MtrrPhysbase0 + count * 2 ≤ 0x250)
    (hnext : core.wrmsr processor guestContext = some core') {msr : Nat}
    (hmsr : Consulted count msr) :
    core'.msrs msr =
      Function.update core.msrs (wrmsrIndex guestContext) (wrmsrValue guestContext) msr := by
  rw [wrmsr_msrs hnext, if_neg]
  exact fun hswitched => not_switched_of_consulted hbelow hmsr hswitched.1

/-- A write that the handler passes over changes nothing that
`read_mtrrs` sees. -/
theorem readMtrrs_of_passedOver (hbelow : ia32MtrrPhysbase0 + count * 2 ≤ 0x250)
    (hcount : variableRangeCount core.msrs = count) (hok : SeenWrite core guestContext)
    (hnext : core.wrmsr processor guestContext = some core')
    (hmtrr : isMtrrMsr (wrmsrIndex guestContext) = false) :
    readMtrrs core'.msrs = readMtrrs core.msrs := by
  have hkept : ∀ msr, Consulted count msr → msr ≠ wrmsrIndex guestContext →
      core'.msrs msr = core.msrs msr := by
    intro msr hmsr hne
    rw [consulted_wrmsr hbelow hnext hmsr, Function.update_of_ne hne]
  have hno := mt (isMtrrMsr_iff _).mpr (Bool.eq_false_iff.mp hmtrr)
  by_cases hconsulted : Consulted count (wrmsrIndex guestContext)
  · -- Of the consulted registers only those after the tenth pair are passed over.
    have hcap := index_ne_capabilities hnext
    have hlate : ia32MtrrPhysbase0 + 20 ≤ wrmsrIndex guestContext ∧
        wrmsrIndex guestContext < ia32MtrrPhysbase0 + count * 2 := by
      unfold Consulted at hconsulted
      unfold ia32MtrrDefType ia32MtrrFix64k ia32MtrrFix16k ia32MtrrFix4k ia32MtrrPhysbase0
        at hconsulted hno
      unfold ia32MtrrPhysbase0
      omega
    cases hok hlate.1 (by rw [hcount]; exact hlate.2) with
    | inl hoff =>
      -- With MTRRs disabled the ranges are not read at all.
      apply readMtrrs_congr_off hoff
      · exact hkept _ (Or.inl rfl) hcap.symm
      · exact hkept _ (Or.inr (Or.inl rfl)) fun heq => hno (Or.inl heq.symm)
    -- A write of the value that is already there changes nothing.
    | inr hsame =>
      apply readMtrrs_congr
      intro msr hmsr
      rw [hcount] at hmsr
      by_cases heq : msr = wrmsrIndex guestContext
      · subst heq
        rw [consulted_wrmsr hbelow hnext hmsr, Function.update_self, hsame]
      · exact hkept msr hmsr heq
  · apply readMtrrs_congr
    intro msr hmsr
    rw [hcount] at hmsr
    exact hkept msr hmsr fun heq => hconsulted (heq ▸ hmsr)

/-- One write keeps the vCPU in step with the registers. -/
theorem synced_wrmsr (hbelow : ia32MtrrPhysbase0 + count * 2 ≤ 0x250) (h : Steady count core)
    (hsynced : Synced core) (hok : SeenWrite core guestContext)
    (hnext : core.wrmsr processor guestContext = some core') :
    Steady count core' ∧ Synced core' := by
  have hcap : core'.msrs ia32MtrrCapabilities = core.msrs ia32MtrrCapabilities := by
    rw [consulted_wrmsr hbelow hnext (Or.inl rfl),
      Function.update_of_ne (index_ne_capabilities hnext).symm]
  have hcount : variableRangeCount core'.msrs = count := by
    rw [← h.count_eq]
    unfold variableRangeCount
    rw [hcap]
  have hbitmap := (wrmsr_msrBitmap hnext).trans h.msrBitmap
  cases vcpu_wrmsr h hnext with
  -- The write is not one of `is_mtrr_msr`: the views stay and so does what they
  -- are built from.
  | inl hpassed =>
    obtain ⟨hmtrr, hvcpu⟩ := hpassed
    have hread := readMtrrs_of_passedOver hbelow h.count_eq hok hnext hmtrr
    refine ⟨⟨hcount, hbitmap, ?_, ?_⟩, ?_, ?_, ?_⟩
    all_goals rw [hvcpu]
    · exact h.normal
    · exact h.target
    · exact hsynced.mtrrState.trans hread.symm
    · exact hsynced.normal
    · exact hsynced.target
  -- The handler reads the MTRRs before the VM entry, which loads none of them.
  | inr hupdated =>
    obtain ⟨_, msrs, hvcpu, hmsrs⟩ := hupdated
    have hread : readMtrrs core'.msrs = readMtrrs msrs := by
      symm
      apply readMtrrs_congr
      intro msr hmsr
      rw [hcount] at hmsr
      exact (hmsrs msr (not_switched_of_consulted hbelow hmsr)).symm
    generalize readMtrrs msrs = mtrrState at hvcpu hread
    refine ⟨⟨hcount, hbitmap, ?_, ?_⟩, ?_, ?_, ?_⟩
    all_goals rw [hvcpu]
    · exact unhooked_update h.normal mtrrState
    · exact unhooked_update h.target mtrrState
    · exact hread.symm
    · exact typed_updateEptMemoryTypes h.normal.kept h.normal.unguarded mtrrState
    · exact typed_updateEptMemoryTypes h.target.kept h.target.unguarded mtrrState

end

/-! ### Runs -/

/-- A processor that has just launched. -/
theorem synced_launch (msrs : Nat → UInt64) (setup : VcpuSetup) (entries : Nat → Entry) :
    Steady (variableRangeCount msrs) (Core.launch msrs setup entries) ∧
      Synced (Core.launch msrs setup entries) := by
  refine ⟨⟨rfl, launch_msrBitmap msrs setup entries, ?_, ?_⟩, rfl, ?_, ?_⟩
  · exact unhooked_initializeEpt setup.framesNormal (readMtrrs msrs)
  · exact unhooked_initializeEpt setup.framesTarget (readMtrrs msrs)
  · exact typed_initializeEpt setup.framesNormal (readMtrrs msrs)
  · exact typed_initializeEpt setup.framesTarget (readMtrrs msrs)

/-- After every run of such writes the vCPU is in step with the MTRRs. -/
theorem mtrrWrites_seen (processor : Processor) (msrs : Nat → UInt64) (setup : VcpuSetup)
    (entries : Nat → Entry)
    (hbelow : ia32MtrrPhysbase0 + variableRangeCount msrs * 2 ≤ ia32MtrrFix64k)
    {writes : List GuestContext} {core : Core}
    (hok : (wrmsrMachine processor).Along SeenWrite (Core.launch msrs setup entries) writes)
    (hrun : (wrmsrMachine processor).run (Core.launch msrs setup entries) writes = some core) :
    core.vcpu.mtrrState = readMtrrs core.msrs ∧
      Typed core.vcpu.mtrrState core.vcpu.ept.normal ∧
      Typed core.vcpu.mtrrState core.vcpu.ept.target := by
  have hinv := (wrmsrMachine processor).invariant_of_along
    (I := fun core => Steady (variableRangeCount msrs) core ∧ Synced core)
    (fun _ _ _ hI hok hnext => synced_wrmsr hbelow hI.1 hI.2 hok hnext)
    (synced_launch msrs setup entries) hok hrun
  exact ⟨hinv.2.mtrrState, hinv.2.normal, hinv.2.target⟩

/-! ### A small processor -/

/-- The MSRs of a processor with `count` variable ranges, the MTRRs on,
and no range in use. -/
def mtrrMsrs (count : UInt64) (msr : Nat) : UInt64 :=
  if msr = ia32MtrrCapabilities then count
  else if msr = ia32MtrrDefType then 0x806
  else 0

/-- That processor when it has launched. -/
def mtrrCore (count : UInt64) : Core :=
  Core.launch (mtrrMsrs count) plainSetup fun _ => makeEntry .invalid 0 0 fun _ => 0

/-- A run that writes another default type, with ten ranges. -/
theorem mtrrWrites_seen_defType : ∃ core,
    (wrmsrMachine plainProcessor).run (mtrrCore 10) [wrmsrContext 0x2FF 0x804] = some core ∧
    core.vcpu.mtrrState.defaultMemoryType = 4 := by
  obtain ⟨core, hnext⟩ := wrmsr_isSome (mtrrCore 10) 0x2FF 0x804 (by decide +kernel)
  have hindex : wrmsrIndex (wrmsrContext 0x2FF 0x804) = ia32MtrrDefType := by decide +kernel
  have hok : (wrmsrMachine plainProcessor).Along SeenWrite (mtrrCore 10)
      [wrmsrContext 0x2FF 0x804] := by
    refine ⟨fun _ hlt => absurd hlt ?_, fun _ _ => trivial⟩
    rw [hindex]
    show ¬ ia32MtrrDefType < ia32MtrrPhysbase0 + variableRangeCount (mtrrMsrs 10) * 2
    decide +kernel
  have hseen := mtrrWrites_seen plainProcessor (mtrrMsrs 10) plainSetup _ (by decide +kernel)
    hok (run_wrmsr hnext)
  refine ⟨core, run_wrmsr hnext, ?_⟩
  have hdef : core.msrs ia32MtrrDefType = wrmsrValue (wrmsrContext 0x2FF 0x804) := by
    rw [wrmsr_msrs hnext, if_neg fun h => absurd h.1 (by decide +kernel), hindex,
      Function.update_self]
  rw [hseen.1]
  show bitField (core.msrs ia32MtrrDefType) 0 3 = 4
  rw [hdef]
  decide +kernel

/-- The guest turns the eleventh range on, and the vCPU does not see it. -/
theorem eleventhRange_unseen : ∃ core,
    (wrmsrMachine plainProcessor).run (mtrrCore 11) [wrmsrContext 0x215 0x800] = some core ∧
    core.vcpu.mtrrState ≠ readMtrrs core.msrs := by
  obtain ⟨core, hnext⟩ := wrmsr_isSome (mtrrCore 11) 0x215 0x800 (by decide +kernel)
  refine ⟨core, run_wrmsr hnext, fun heq => ?_⟩
  have hindex : wrmsrIndex (wrmsrContext 0x215 0x800) = 0x215 := by decide +kernel
  have hmsrs : ∀ msr, msr ∉ switchedMsrs → core.msrs msr =
      Function.update (mtrrMsrs 11) 0x215 (wrmsrValue (wrmsrContext 0x215 0x800)) msr := by
    intro msr hmsr
    rw [wrmsr_msrs hnext, if_neg fun h => hmsr h.1, hindex]
    rfl
  have hcap : core.msrs ia32MtrrCapabilities = 11 := by
    rw [hmsrs _ (by decide +kernel)]
    rfl
  have hdef : core.msrs ia32MtrrDefType = 0x806 := by
    rw [hmsrs _ (by decide +kernel)]
    rfl
  have hvcpu : core.vcpu = (mtrrCore 11).vcpu := by
    cases vcpu_wrmsr (synced_launch (mtrrMsrs 11) plainSetup _).1 hnext with
    | inl hpassed => exact hpassed.2
    | inr hupdated =>
      rw [hindex] at hupdated
      exact absurd hupdated.1 (by decide)
  have hstate : core.vcpu.mtrrState = readMtrrs (mtrrMsrs 11) := by
    rw [hvcpu]
    exact (synced_launch (mtrrMsrs 11) plainSetup _).2.mtrrState
  -- The vCPU has the range turned off, the registers have it turned on.
  have hold := variableRange_readMtrrs (i := 10) (by decide +kernel : 10 <
    variableRangeCount (mtrrMsrs 11)) (by decide +kernel)
  have hcount : variableRangeCount core.msrs = 11 := by
    unfold variableRangeCount
    rw [hcap]
    decide +kernel
  have hnew := variableRange_readMtrrs (i := 10) (by rw [hcount]; decide : 10 <
    variableRangeCount core.msrs) (by rw [hdef]; decide +kernel)
  rw [← heq, hstate, hold] at hnew
  have hvalid : bitFlag (mtrrMsrs 11 0x215) 11 = bitFlag (core.msrs 0x215) 11 :=
    congrArg VariableRange.maskValid (Option.some.inj hnew)
  rw [hmsrs 0x215 (by decide +kernel)] at hvalid
  revert hvalid
  decide +kernel

end Revhv.Vmexit
