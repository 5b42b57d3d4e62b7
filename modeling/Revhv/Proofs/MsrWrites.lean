import Revhv.Km.Msr
import Revhv.Proofs.EptMachine

/-!
# `Revhv.Proofs.MsrWrites`: which MSR writes reach the guest

A WRMSR that exits is carried out on the host side, and the VM entry
after it reloads every MSR that has a guest field. So such a write is
lost unless it stores what the MSR holds.

* `wrmsrExits_writeMsrBitmap`: which writes exit. The loop over the
  variable ranges is long enough to take in `IA32_PAT` and
  `IA32_PERF_GLOBAL_CTRL`.
* `wrmsr_msrs`: the registers after a WRMSR.
* `switchedMsrs_lastWritten`: in a run whose writes to those two MSRs
  change nothing, each switched MSR has the last value written to it.
* `patWrite_lost`: a write to `IA32_PAT` that the guest never sees.
-/

set_option autoImplicit false

namespace Revhv.Vmcs

open Revhv.Memory

/-! ### The bitmap -/

/-- Setting the bit of `m` in its byte, read at the bit of `msr`. -/
theorem getLsbD_writeExitBit (byte : BitVec 8) (m msr : Nat) :
    (writeExitBit byte m true).getLsbD (msr % 8) =
      (decide (msr % 8 = m % 8) || byte.getLsbD (msr % 8)) := by
  have hlt : msr % 8 < 8 := Nat.mod_lt _ (by decide)
  unfold writeExitBit
  rw [if_pos rfl, BitVec.getLsbD_or, ← BitVec.twoPow_eq, BitVec.getLsbD_twoPow, Bool.or_comm]
  congr 1
  rw [decide_eq_true (Nat.mod_lt m (by decide) : m % 8 < 8), Bool.true_and]
  exact decide_eq_decide.mpr eq_comm

/-- Setting the bit of `m` concerns `m` only. An MSR without a bit exits
anyway. -/
theorem wrmsrExits_setWrmsrExiting (bitmap : MsrBitmap) (m msr : Nat) :
    (setWrmsrExiting bitmap m true).wrmsrExits msr =
      (decide (msr = m) || bitmap.wrmsrExits msr) := by
  -- Within one half of the bitmap: the register's byte changes in its own bit
  -- only.
  have hbit : ∀ (bytes : Nat → BitVec 8) (base : Nat), base % 8 = 0 → base ≤ m → base ≤ msr →
      (Function.update bytes ((m - base) / 8) (writeExitBit (bytes ((m - base) / 8)) m true)
        ((msr - base) / 8)).getLsbD (msr % 8) =
        (decide (msr = m) || (bytes ((msr - base) / 8)).getLsbD (msr % 8)) := by
    intro bytes base hbase hm hmsr
    by_cases hbyte : (msr - base) / 8 = (m - base) / 8
    · rw [hbyte, Function.update_self, getLsbD_writeExitBit]
      congr 1
      apply decide_eq_decide.mpr
      omega
    · have hne : msr ≠ m := fun heq => hbyte (by rw [heq])
      rw [Function.update_of_ne hbyte, decide_eq_false hne, Bool.false_or]
  unfold setWrmsrExiting MsrBitmap.wrmsrExits
  unfold msrIdLowMax msrIdHighMin msrIdHighMax
  -- The halves for low and high registers do not overlap, others have no bit
  -- and always exit.
  by_cases hlow : m ≤ 0x1FFF
  · rw [if_pos hlow]
    by_cases hlow' : msr ≤ 0x1FFF
    · rw [if_pos hlow', if_pos hlow']
      exact hbit bitmap.wrmsrLow 0 rfl (Nat.zero_le _) (Nat.zero_le _)
    · have hne : msr ≠ m := by omega
      rw [if_neg hlow', if_neg hlow', decide_eq_false hne, Bool.false_or]
  · rw [if_neg hlow]
    by_cases hhigh : 0xC0000000 ≤ m ∧ m ≤ 0xC0001FFF
    · rw [if_pos hhigh]
      by_cases hhigh' : 0xC0000000 ≤ msr ∧ msr ≤ 0xC0001FFF
      · have hlow' : ¬ msr ≤ 0x1FFF := by omega
        rw [if_neg hlow', if_neg hlow', if_pos hhigh', if_pos hhigh']
        exact hbit bitmap.wrmsrHigh 0xC0000000 rfl hhigh.1 hhigh'.1
      · have hne : msr ≠ m := fun heq => hhigh' (heq ▸ hhigh)
        rw [if_neg hhigh', if_neg hhigh', decide_eq_false hne, Bool.false_or]
    · rw [if_neg hhigh]
      by_cases heq : msr = m
      · subst heq
        rw [if_neg hlow, if_neg hhigh, decide_eq_true rfl, Bool.true_or]
      · rw [decide_eq_false heq, Bool.false_or]

/-- Of the MSRs that the bitmap names, each one exits, and the others do
as before. -/
theorem wrmsrExits_named (ms : List Nat) (bitmap : MsrBitmap) (msr : Nat) :
    (ms.foldl (fun bitmap m => setWrmsrExiting bitmap m true) bitmap).wrmsrExits msr =
      (decide (msr ∈ ms) || bitmap.wrmsrExits msr) := by
  induction ms generalizing bitmap with
  | nil => simp
  | cons m ms ih =>
    rw [List.foldl_cons, ih, wrmsrExits_setWrmsrExiting]
    simp only [List.mem_cons, Bool.decide_or]
    cases decide (msr = m) with
    | true => simp
    | false => simp

/-- The loop over `n` pairs sets the bits of `2 * n` MSRs in a row. -/
theorem wrmsrExits_pairs (n : Nat) (bitmap : MsrBitmap) (msr : Nat) :
    ((List.range n).foldl (fun bitmap i =>
      setWrmsrExiting (setWrmsrExiting bitmap (ia32MtrrPhysbase0 + i * 2) true)
        (ia32MtrrPhysmask0 + i * 2) true) bitmap).wrmsrExits msr =
      (decide (ia32MtrrPhysbase0 ≤ msr ∧ msr < ia32MtrrPhysbase0 + n * 2) ||
        bitmap.wrmsrExits msr) := by
  -- By induction over the pairs set so far, each of which adds two consecutive
  -- registers.
  induction n with
  | zero =>
    have hnone : ¬ (ia32MtrrPhysbase0 ≤ msr ∧ msr < ia32MtrrPhysbase0 + 0 * 2) := by omega
    rw [decide_eq_false hnone, Bool.false_or]
    rfl
  | succ n ih =>
    rw [List.range_succ, List.foldl_append, List.foldl_cons, List.foldl_nil,
      wrmsrExits_setWrmsrExiting, wrmsrExits_setWrmsrExiting, ih]
    rw [← Bool.or_assoc, ← Bool.or_assoc]
    congr 1
    rw [← Bool.decide_or, ← Bool.decide_or]
    apply decide_eq_decide.mpr
    unfold ia32MtrrPhysbase0 ia32MtrrPhysmask0
    omega

/-- Which writes exit. -/
theorem wrmsrExits_writeMsrBitmap (msr : Nat) :
    (writeMsrBitmap .zeroed).wrmsrExits msr = true ↔
      msr ∈ namedMtrrs ∨ (0x200 ≤ msr ∧ msr < 0x3FE) ∨
        (msrIdLowMax < msr ∧ ¬ (msrIdHighMin ≤ msr ∧ msr ≤ msrIdHighMax)) := by
  -- Without any bit set only the registers that the bitmap does not cover exit.
  have hzeroed : MsrBitmap.zeroed.wrmsrExits msr = true ↔
      msrIdLowMax < msr ∧ ¬ (msrIdHighMin ≤ msr ∧ msr ≤ msrIdHighMax) := by
    unfold MsrBitmap.wrmsrExits
    split
    · rename_i hlow
      simp [MsrBitmap.zeroed, hlow]
    · rename_i hlow
      split
      · rename_i hhigh
        simp [MsrBitmap.zeroed, hhigh]
      · rename_i hhigh
        simp only [hhigh, not_false_eq_true, and_true, true_iff]
        omega
  unfold writeMsrBitmap
  rw [wrmsrExits_pairs, wrmsrExits_named, Bool.or_eq_true, Bool.or_eq_true, decide_eq_true_iff,
    decide_eq_true_iff, hzeroed]
  unfold ia32MtrrPhysbase0 ia32MtrrVariableCount
  tauto

/-! ### Switched MSRs -/

/-- The exit controls save the switched MSRs. -/
theorem saves_iff (msr : Nat) : desiredExitCtls.saves msr = true ↔ msr ∈ switchedMsrs := by
  simp [VmexitControls.saves, desiredExitCtls, switchedMsrs, or_assoc]

/-- They load the same ones for the host. -/
theorem exitLoads_iff (msr : Nat) : desiredExitCtls.loads msr = true ↔ msr ∈ switchedMsrs := by
  simp [VmexitControls.loads, desiredExitCtls, switchedMsrs, or_assoc]

/-- The entry controls load the same ones for the guest. -/
theorem entryLoads_iff (msr : Nat) : desiredEntryCtls.loads msr = true ↔ msr ∈ switchedMsrs := by
  simp [VmentryControls.loads, desiredEntryCtls, switchedMsrs, or_assoc]

/-- Two of them are between the first and the last MSR of the loop. -/
theorem switched_exits {msr : Nat} (h : msr ∈ switchedMsrs) :
    (writeMsrBitmap .zeroed).wrmsrExits msr = true ↔
      msr = ia32Pat ∨ msr = ia32PerfGlobalCtrl := by
  rw [wrmsrExits_writeMsrBitmap]
  simp only [switchedMsrs, List.mem_cons, List.not_mem_nil, or_false] at h
  rcases h with rfl | rfl | rfl | rfl | rfl | rfl | rfl <;> decide

end Revhv.Vmcs

namespace Revhv.Vmexit

open Revhv.Hypercall Revhv.Lib Revhv.Memory Revhv.Trace Revhv.Vcpu Revhv.Vmcs

/-! ### One WRMSR -/

section
variable {processor : Processor} {core core' : Core} {guestContext : GuestContext}

/-- The handler leaves the bitmap. -/
theorem msrBitmap_handleWrmsr (core : Core) :
    (handleWrmsr processor guestContext core).msrBitmap = core.msrBitmap := by
  unfold handleWrmsr
  simp only
  split
  · rfl
  · split
    · rfl
    · rfl

/-- It leaves the guest fields. -/
theorem guestFields_handleWrmsr (core : Core) :
    (handleWrmsr processor guestContext core).guestFields = core.guestFields := by
  unfold handleWrmsr
  simp only
  split
  · rfl
  · split
    · rfl
    · rfl

/-- A core starts with the bitmap of `vmcs.cpp`. -/
theorem launch_msrBitmap (msrs : Nat → UInt64) (setup : VcpuSetup) (entries : Nat → Entry) :
    (Core.launch msrs setup entries).msrBitmap = writeMsrBitmap .zeroed := by
  simp only [Core.launch]

/-- The bitmap stays what it is. -/
theorem wrmsr_msrBitmap (hnext : core.wrmsr processor guestContext = some core') :
    core'.msrBitmap = core.msrBitmap := by
  unfold Core.wrmsr at hnext
  simp only at hnext
  split at hnext
  · cases hnext
  · split at hnext
    · cases hnext
      exact msrBitmap_handleWrmsr core.vmexit
    · cases hnext
      rfl

/-- The registers after a WRMSR. If it exits, a switched MSR is what it
was. -/
theorem wrmsr_msrs (hnext : core.wrmsr processor guestContext = some core') (msr : Nat) :
    core'.msrs msr =
      if msr ∈ switchedMsrs ∧ core.msrBitmap.wrmsrExits (wrmsrIndex guestContext) = true then
        core.msrs msr
      else Function.update core.msrs (wrmsrIndex guestContext) (wrmsrValue guestContext) msr := by
  unfold Core.wrmsr at hnext
  simp only at hnext
  split at hnext
  · cases hnext
  · rename_i hfault
    split at hnext
    · rename_i hexits
      cases hnext
      show (if desiredEntryCtls.loads msr then
        (handleWrmsr processor guestContext core.vmexit).guestFields msr else _) = _
      rw [guestFields_handleWrmsr]
      by_cases hswitched : msr ∈ switchedMsrs
      · rw [if_pos ((entryLoads_iff msr).mpr hswitched), if_pos ⟨hswitched, hexits⟩]
        exact if_pos ((saves_iff msr).mpr hswitched)
      · rw [if_neg (mt (entryLoads_iff msr).mp hswitched), if_neg fun h => hswitched h.1]
        -- What the handler has written stays.
        have hmsrs : (handleWrmsr processor guestContext core.vmexit).msrs =
            Function.update core.vmexit.msrs (wrmsrIndex guestContext)
              (wrmsrValue guestContext) := by
          unfold handleWrmsr
          simp only [hfault, Bool.false_eq_true, if_false]
          split
          · rfl
          · rfl
        rw [hmsrs]
        unfold Function.update
        split
        · rfl
        · exact if_neg (mt (exitLoads_iff msr).mp hswitched)
    · rename_i hexits
      cases hnext
      rw [if_neg fun h => hexits h.2]
      rfl

end

/-! ### Runs -/

/-- A write that the VM entry after it does not undo: one to an MSR
whose writes do not exit, or of the value the MSR holds. -/
def LandingWrite (core : Core) (guestContext : GuestContext) : Prop :=
  wrmsrIndex guestContext = ia32Pat ∨ wrmsrIndex guestContext = ia32PerfGlobalCtrl →
    wrmsrValue guestContext = core.msrs (wrmsrIndex guestContext)

/-- The last value written to each MSR, `msrs` being the values before
the run. -/
def lastWritten (msrs : Nat → UInt64) (writes : List GuestContext) : Nat → UInt64 :=
  writes.foldl (fun msrs guestContext =>
    Function.update msrs (wrmsrIndex guestContext) (wrmsrValue guestContext)) msrs

/-- The first write of a run counts until a later one to the same MSR. -/
theorem lastWritten_cons (msrs : Nat → UInt64) (guestContext : GuestContext)
    (writes : List GuestContext) :
    lastWritten msrs (guestContext :: writes) = lastWritten
      (Function.update msrs (wrmsrIndex guestContext) (wrmsrValue guestContext)) writes := rfl

/-- A write that lands is in force for the guest. -/
theorem wrmsr_switched {processor : Processor} {core core' : Core} {guestContext : GuestContext}
    (hbitmap : core.msrBitmap = writeMsrBitmap .zeroed) (hok : LandingWrite core guestContext)
    (hnext : core.wrmsr processor guestContext = some core') {msr : Nat}
    (hmsr : msr ∈ switchedMsrs) :
    core'.msrs msr =
      Function.update core.msrs (wrmsrIndex guestContext) (wrmsrValue guestContext) msr := by
  rw [wrmsr_msrs hnext]
  split
  · rename_i hexits
    by_cases heq : msr = wrmsrIndex guestContext
    · subst heq
      have hboth := (switched_exits hmsr).mp (hbitmap ▸ hexits.2)
      rw [Function.update_self, hok hboth]
    · rw [Function.update_of_ne heq]
  · rfl

/-- In a run of writes that land, each switched MSR holds the last value
the guest wrote to it. -/
theorem switchedMsrs_lastWritten (processor : Processor) (msrs : Nat → UInt64)
    (setup : VcpuSetup) (entries : Nat → Entry) {writes : List GuestContext} {core : Core}
    (hok : (wrmsrMachine processor).Along LandingWrite (Core.launch msrs setup entries) writes)
    (hrun : (wrmsrMachine processor).run (Core.launch msrs setup entries) writes = some core)
    {msr : Nat} (hmsr : msr ∈ switchedMsrs) : core.msrs msr = lastWritten msrs writes msr := by
  have hloop : ∀ (writes : List GuestContext) (start : Core) (msrs : Nat → UInt64),
      start.msrBitmap = writeMsrBitmap .zeroed →
      (∀ msr ∈ switchedMsrs, start.msrs msr = msrs msr) →
      (wrmsrMachine processor).Along LandingWrite start writes →
      (wrmsrMachine processor).run start writes = some core →
      core.msrs msr = lastWritten msrs writes msr := by
    intro writes
    induction writes with
    | nil =>
      intro start msrs _ hsame _ hrun
      cases hrun
      exact hsame msr hmsr
    | cons guestContext writes ih =>
      intro start msrs hbitmap hsame hok hrun
      obtain ⟨next, hnext, hrest⟩ := (wrmsrMachine processor).run_cons_eq_some hrun
      rw [lastWritten_cons]
      refine ih next _ ((wrmsr_msrBitmap hnext).trans hbitmap) (fun m hm => ?_)
        (hok.2 next hnext) hrest
      -- A write that lands is the value at the end, whichever path it took.
      rw [wrmsr_switched hbitmap hok.1 hnext hm]
      by_cases heq : m = wrmsrIndex guestContext
      · subst heq
        rw [Function.update_self, Function.update_self]
      · rw [Function.update_of_ne heq, Function.update_of_ne heq, hsame m hm]
  exact hloop writes (Core.launch msrs setup entries) msrs (launch_msrBitmap msrs setup entries)
    (fun _ _ => rfl) hok hrun

/-! ### A small processor -/

/-- A processor that refuses writes to `IA32_MTRR_CAPABILITIES` only. -/
def plainProcessor : Processor := ⟨fun msr _ => msr == ia32MtrrCapabilities, fun _ => rfl⟩

/-- A WRMSR of a value of at most 32 bits. -/
def wrmsrContext (msr value : UInt64) : GuestContext :=
  { GuestContext.zero with rcx := msr, rax := value }

/-- A WRMSR that does not fault is carried out. -/
theorem wrmsr_isSome (core : Core) (msr value : UInt64)
    (hmsr : wrmsrIndex (wrmsrContext msr value) ≠ ia32MtrrCapabilities) :
    ∃ core', core.wrmsr plainProcessor (wrmsrContext msr value) = some core' := by
  have hfault : plainProcessor.faults (wrmsrIndex (wrmsrContext msr value))
      (wrmsrValue (wrmsrContext msr value)) = false := beq_eq_false_iff_ne.mpr hmsr
  unfold Core.wrmsr
  simp only [hfault, Bool.false_eq_true, if_false]
  split
  · exact ⟨_, rfl⟩
  · exact ⟨_, rfl⟩

/-- A run of one WRMSR. -/
theorem run_wrmsr {processor : Processor} {core core' : Core} {guestContext : GuestContext}
    (hnext : core.wrmsr processor guestContext = some core') :
    (wrmsrMachine processor).run core [guestContext] = some core' := by
  rw [Machine.run_cons]
  unfold wrmsrMachine
  simp only [hnext, Option.bind_some, Machine.run_nil]

/-- That processor, with all MSRs zero, when it has launched. -/
def plainCore : Core :=
  Core.launch (fun _ => 0) plainSetup fun _ => makeEntry .invalid 0 0 fun _ => 0

/-- A run of one write of `IA32_EFER`, which lands. -/
theorem switchedMsrs_lastWritten_efer : ∃ core,
    (wrmsrMachine plainProcessor).run plainCore [wrmsrContext 0xC0000080 0xD01] = some core ∧
    core.msrs ia32Efer = 0xD01 := by
  obtain ⟨core, hnext⟩ := wrmsr_isSome plainCore 0xC0000080 0xD01 (by decide +kernel)
  have hrun := run_wrmsr hnext
  have hok : (wrmsrMachine plainProcessor).Along LandingWrite plainCore
      [wrmsrContext 0xC0000080 0xD01] := by
    refine ⟨fun h => absurd h ?_, fun _ _ => trivial⟩
    decide +kernel
  have hefer : core.msrs ia32Efer = lastWritten (fun _ => 0) _ ia32Efer :=
    switchedMsrs_lastWritten plainProcessor (fun _ => 0) plainSetup _ hok hrun
      (by decide +kernel)
  refine ⟨core, hrun, hefer.trans ?_⟩
  decide +kernel

/-- A write to `IA32_PAT` that does not fault, and that the guest does
not see. -/
theorem patWrite_lost : ∃ core,
    (wrmsrMachine plainProcessor).run plainCore [wrmsrContext 0x277 0x70106] = some core ∧
    lastWritten plainCore.msrs [wrmsrContext 0x277 0x70106] ia32Pat = 0x70106 ∧
    core.msrs ia32Pat = 0 := by
  obtain ⟨core, hnext⟩ := wrmsr_isSome plainCore 0x277 0x70106 (by decide +kernel)
  refine ⟨core, run_wrmsr hnext, ?_, ?_⟩
  · have hindex : wrmsrIndex (wrmsrContext 0x277 0x70106) = ia32Pat := by decide +kernel
    rw [lastWritten_cons, hindex]
    decide +kernel
  · have hexits : plainCore.msrBitmap.wrmsrExits (wrmsrIndex (wrmsrContext 0x277 0x70106)) =
        true := by
      unfold plainCore
      rw [launch_msrBitmap]
      exact (wrmsrExits_writeMsrBitmap _).mpr (Or.inr (Or.inl (by decide +kernel)))
    rw [wrmsr_msrs hnext, if_pos ⟨by decide, hexits⟩]
    rfl

end Revhv.Vmexit
