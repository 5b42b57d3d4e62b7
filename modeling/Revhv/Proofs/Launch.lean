import Mathlib.Data.Bool.AllAny
import Revhv.Km.Launch
import Revhv.Proofs.Assembly
import Revhv.Proofs.MsrArea
import Revhv.Proofs.Vmcs

/-!
# `Revhv.Proofs.Launch`: the guest goes on where the core was

* `virtualize_transparent`: behind VMLAUNCH the core has the registers that it had before.
* `vmexit_roundtrip`: a VM exit enters the host, and the VM entry behind it gives all back.
* `devirtualize_restores`: what the OS gets back when the hypervisor gives up.
-/

set_option autoImplicit false

namespace Revhv.Launch

open Revhv.Asm Revhv.Memory Revhv.Segment Revhv.Vmcs
open Revhv.Lib (bytesAt)
open Revhv.Lib.RecordLayout Revhv.Lib.StackFrame Revhv.Lib.StraightLine

/-! ### Widths -/

/-- Sixteen bits survive their way through a 64-bit field. -/
theorem setWidth_16 (x : BitVec 16) :
    ((UInt64.ofBitVec (x.setWidth 64)).toBitVec).setWidth 16 = x :=
  BitVec.setWidth_setWidth_of_le x (by decide)

/-- So do 32 bits. -/
theorem setWidth_32 (x : BitVec 32) :
    ((UInt64.ofBitVec (x.setWidth 64)).toBitVec).setWidth 32 = x :=
  BitVec.setWidth_setWidth_of_le x (by decide)

/-- CR0 that is loaded over itself. -/
theorem loadCr0_self (x : UInt64) : loadCr0 x x = x := by
  rw [loadCr0]
  apply UInt64.toBitVec_inj.mp
  rw [UInt64.toBitVec_or, UInt64.toBitVec_and, UInt64.toBitVec_and, UInt64.toBitVec_not,
    ← BitVec.and_or_distrib_left, BitVec.or_not_self, BitVec.and_allOnes]

/-! ### The launch -/

/-- Registers that a program cannot tell apart. What an unusable one has
besides its selector counts for nothing. -/
structure SameRegister (s t : Register) : Prop where
  selector : s.selector = t.selector
  unusable : s.unusable = t.unusable
  usable : t.unusable = false → s = t

/-- The guest has the system registers of the core that was launched.
Each segment register is the one that the processor loads with its
selector. -/
structure Launched (memory : UInt64 → UInt8) (s g : System) : Prop where
  cr0 : g.cr0 = s.cr0
  cr3 : g.cr3 = s.cr3
  cr4 : g.cr4 = s.cr4
  dr7 : g.dr7 = s.dr7
  gdtr : g.gdtr = s.gdtr
  idtr : g.idtr = s.idtr
  msrs : g.msrs = s.msrs
  segment : ∀ r, SameRegister (g.segment r) (reloaded memory s.gdtr r (s.segment r))
  base : ∀ r, r = .fs ∨ r = .gs → (g.segment r).base = (s.segment r).base

section
variable (vmcs : UInt64 → UInt64) (s : System) (memory : UInt64 → UInt8) (rflags : UInt64)
  (layout : VcpuLayout)

/-- The guest field of a switched MSR has the value of the MSR. -/
theorem written_guestMsr {msr : Nat} (h : msr ∈ switchedMsrs) :
    withFields vmcs (controlFieldWrites s memory rflags layout) (guestMsrField msr) =
      s.msrs msr := by
  simp only [switchedMsrs, List.mem_cons, List.not_mem_nil, or_false] at h
  rcases h with rfl | rfl | rfl | rfl | rfl | rfl | rfl <;> rfl

set_option maxRecDepth 2000 in

/-- The guest reads the CR0 it had. -/
theorem written_cr0 :
    withFields vmcs (controlFieldWrites s memory rflags layout) ctrlCr0ReadShadow = s.cr0 := rfl

set_option maxRecDepth 2000 in

/-- The guest reads the CR4 it had, without VMXE. -/
theorem written_cr4Shadow :
    withFields vmcs (controlFieldWrites s memory rflags layout) ctrlCr4ReadShadow =
      s.cr4 &&& ~~~cr4VmxEnableFlag := rfl

set_option maxRecDepth 2000 in

/-- The host owns the bits of CR4 that VMX operation fixes, and VMXE. -/
theorem written_cr4Mask :
    withFields vmcs (controlFieldWrites s memory rflags layout) ctrlCr4GuestHostMask =
      s.readMsr ia32VmxCr4Fixed0 ||| ~~~s.readMsr ia32VmxCr4Fixed1 ||| cr4VmxEnableFlag := rfl

/-- The fields of a segment register come from its descriptor, except
for the base, which FS and GS have in an MSR. -/
theorem written_guestRegister (r : SegmentRegister) :
    guestRegister (withFields vmcs (controlFieldWrites s memory rflags layout)) r =
      ⟨(s.segment r).selector, guestSegmentBase s memory r,
        segmentLimit memory s.gdtr (s.segment r).selector,
        accessRights memory s.gdtr (s.segment r).selector⟩ := by
  have hselector : withFields vmcs (controlFieldWrites s memory rflags layout)
      (guestSelector r) = UInt64.ofBitVec ((s.segment r).selector.setWidth 64) := by
    cases r <;> rfl
  have hbase : withFields vmcs (controlFieldWrites s memory rflags layout) (guestBase r) =
      guestSegmentBase s memory r := by
    cases r <;> rfl
  have hlimit : withFields vmcs (controlFieldWrites s memory rflags layout) (guestLimit r) =
      UInt64.ofBitVec ((segmentLimit memory s.gdtr (s.segment r).selector).setWidth 64) := by
    cases r <;> rfl
  have hrights : withFields vmcs (controlFieldWrites s memory rflags layout)
      (guestAccessRights r) =
        UInt64.ofBitVec ((accessRights memory s.gdtr (s.segment r).selector).setWidth 64) := by
    cases r <;> rfl
  rw [guestRegister, hselector, hbase, hlimit, hrights, setWidth_16, setWidth_32, setWidth_32]

end

/-- An MSR that an entry loads has a guest field. -/
theorem mem_switchedMsrs_of_loads {controls : VmentryControls} {msr : Nat}
    (h : controls.loads msr = true) : msr ∈ switchedMsrs := by
  simp only [VmentryControls.loads, Bool.or_eq_true, Bool.and_eq_true, beq_iff_eq] at h
  simp only [switchedMsrs, List.mem_cons, List.not_mem_nil, or_false]
  omega

/-- A null register is unusable. -/
theorem unusable_null (selector : BitVec 16) : (Register.null selector).unusable = true := by
  show (0x10000#32).getLsbD 16 = true
  decide

/-- The segment register that an entry loads, and the one that the
processor loads with the selector. -/
theorem sameRegister_reloaded (s : System) (memory : UInt64 → UInt8) (r : SegmentRegister) :
    SameRegister
      ⟨(s.segment r).selector, guestSegmentBase s memory r,
        segmentLimit memory s.gdtr (s.segment r).selector,
        accessRights memory s.gdtr (s.segment r).selector⟩
      (reloaded memory s.gdtr r (s.segment r)) := by
  -- A null selector leaves the register unusable, and then the rest does not count.
  by_cases hindex : selectorIndex (s.segment r).selector = 0
  · have hunusable : (reloaded memory s.gdtr r (s.segment r)).unusable = true := by
      rw [reloaded, loaded]
      simp only [if_pos hindex]
      split <;> exact unusable_null (s.segment r).selector
    refine ⟨?_, ?_, fun h => by rw [hunusable] at h; cases h⟩
    · rw [reloaded, loaded]
      simp only [if_pos hindex]
      split <;> rfl
    · rw [hunusable]
      exact unusable_accessRights hindex
  -- LSL, LAR and the descriptor say the same, and FS and GS keep the bases of their MSRs.
  · have hsame : (⟨(s.segment r).selector, guestSegmentBase s memory r,
        segmentLimit memory s.gdtr (s.segment r).selector,
        accessRights memory s.gdtr (s.segment r).selector⟩ : Register) =
          reloaded memory s.gdtr r (s.segment r) := by
      rw [reloaded, loaded, segmentLimit, accessRights_eq hindex]
      simp only [if_neg hindex]
      by_cases hr : r = .fs ∨ r = .gs
      · rw [if_pos hr]
        rcases hr with rfl | rfl <;> rfl
      · have hbase : guestSegmentBase s memory r =
            baseAddress memory s.gdtr (s.segment r).selector := by
          cases r <;> first | exact absurd (by decide) hr | rfl
        rw [if_neg hr, hbase, baseAddress_eq hindex]
        rfl
    rw [hsame]
    exact ⟨rfl, rfl, fun _ => rfl⟩

/-- The fields that the stub writes, and those that it does not look at. -/
theorem launched_entrySystem {vmcs v : UInt64 → UInt64} {s : System} {memory : UInt64 → UInt8}
    {rflags : UInt64} {layout : VcpuLayout}
    (hv : ∀ field, field ≠ guestRip → field ≠ guestRsp →
      v field = withFields vmcs (controlFieldWrites s memory rflags layout) field) :
    Launched memory s (entrySystem v s) := by
  constructor
  case cr0 =>
    show loadCr0 s.cr0 (v guestCr0) = s.cr0
    rw [hv guestCr0 (by decide) (by decide)]
    exact loadCr0_self s.cr0
  case cr3 => exact hv guestCr3 (by decide) (by decide)
  case cr4 => exact hv guestCr4 (by decide) (by decide)
  case dr7 =>
    show (if (entryControls v).loadDebugControls then v guestDr7 else s.dr7) = s.dr7
    split
    · exact hv guestDr7 (by decide) (by decide)
    · rfl
  case gdtr =>
    show TableRegister.mk (v guestGdtrBase) ((v guestGdtrLimit).toBitVec.setWidth 16) = s.gdtr
    rw [hv guestGdtrBase (by decide) (by decide), hv guestGdtrLimit (by decide) (by decide)]
    exact congrArg (TableRegister.mk s.gdtr.base) (setWidth_16 s.gdtr.limit)
  case idtr =>
    show TableRegister.mk (v guestIdtrBase) ((v guestIdtrLimit).toBitVec.setWidth 16) = s.idtr
    rw [hv guestIdtrBase (by decide) (by decide), hv guestIdtrLimit (by decide) (by decide)]
    exact congrArg (TableRegister.mk s.idtr.base) (setWidth_16 s.idtr.limit)
  case msrs =>
    funext msr
    show (if (entryControls v).loads msr then v (guestMsrField msr) else s.msrs msr) = s.msrs msr
    split
    next hloads =>
      have hmem := mem_switchedMsrs_of_loads hloads
      have hfield : ∀ msr ∈ switchedMsrs,
          guestMsrField msr ≠ guestRip ∧ guestMsrField msr ≠ guestRsp := by decide
      rw [hv _ (hfield msr hmem).1 (hfield msr hmem).2]
      exact written_guestMsr vmcs s memory rflags layout hmem
    next => rfl
  all_goals
    -- The selector, the base, the limit and the rights are not among the fields of the stub.
    have hregister : ∀ r, guestRegister v r =
        guestRegister (withFields vmcs (controlFieldWrites s memory rflags layout)) r := by
      intro r
      have hfields : ∀ field ∈
          [guestSelector r, guestBase r, guestLimit r, guestAccessRights r],
          field ≠ guestRip ∧ field ≠ guestRsp :=
        List.all_iff_forall_prop.mp (by cases r <;> decide)
      have hread : ∀ field ∈ [guestSelector r, guestBase r, guestLimit r, guestAccessRights r],
          v field = withFields vmcs (controlFieldWrites s memory rflags layout) field :=
        fun field hmem => hv field (hfields field hmem).1 (hfields field hmem).2
      rw [guestRegister, guestRegister, hread (guestSelector r) (by simp),
        hread (guestBase r) (by simp), hread (guestLimit r) (by simp),
        hread (guestAccessRights r) (by simp)]
  case segment =>
    intro r
    show SameRegister (guestRegister v r) _
    rw [hregister, written_guestRegister]
    exact sameRegister_reloaded s memory r
  case base =>
    intro r hr
    show (guestRegister v r).base = _
    rw [hregister, written_guestRegister]
    rcases hr with rfl | rfl <;> rfl

/-- The system registers at a later time. MPERF and APERF have counted
on. -/
structure Later (s t : System) : Prop where
  besides : t = { s with msrs := t.msrs }
  msrs : ∀ msr, msr ≠ ia32Mperf → msr ≠ ia32Aperf → t.msrs msr = s.msrs msr

/-- No entry loads MPERF or APERF from a guest field. -/
theorem loads_counter (controls : VmentryControls) {msr : Nat}
    (h : msr = ia32Mperf ∨ msr = ia32Aperf) : controls.loads msr = false := by
  rcases h with rfl | rfl <;> rfl

/-- An entry puts MPERF and APERF back to what the area has, however far
they have counted. -/
theorem loadMsrs_later {v : UInt64 → UInt64} {s t : System} {memory : UInt64 → UInt8}
    {data tsc : UInt64} (hlater : Later s t)
    (hentries : Entries data memory (s.msrs ia32Mperf) (s.msrs ia32Aperf) tsc) :
    loadMsrs memory data 2 (entrySystem v t) = entrySystem v s := by
  have hmsrs : Function.update (Function.update (entrySystem v t).msrs ia32Mperf
      (s.msrs ia32Mperf)) ia32Aperf (s.msrs ia32Aperf) = (entrySystem v s).msrs := by
    funext msr
    -- Only the two counters may have moved since the exit. The area brings
    -- those back, and no entry control names them.
    show _ = if (entryControls v).loads msr then v (guestMsrField msr) else s.msrs msr
    by_cases haperf : msr = ia32Aperf
    · rw [haperf, Function.update_self, loads_counter _ (.inr rfl)]
      rfl
    rw [Function.update_of_ne haperf]
    by_cases hmperf : msr = ia32Mperf
    · rw [hmperf, Function.update_self, loads_counter _ (.inl rfl)]
      rfl
    rw [Function.update_of_ne hmperf]
    show (if (entryControls v).loads msr then v (guestMsrField msr) else t.msrs msr) = _
    rw [hlater.msrs msr hmperf haperf]
  rw [loadMsrs_entries hentries, hmsrs, hlater.besides]
  rfl

/-- The launch stub, up to VMLAUNCH. -/
theorem run_vmlaunchStub (host : Host Label) (vmcs : UInt64 → UInt64) (s : Core) :
    ∃ u, run (exec host) vmlaunchStub (s.cpu vmcs) = some (u, some .vmlaunch) ∧
      u.vmcs = Function.update (Function.update vmcs guestRip (host.addressOf .successfulLaunch))
        guestRsp (s.gpr .rsp) ∧
      (∀ r, r ≠ .rax → r ≠ .rdx → u.gpr r = s.gpr r) ∧
      SameBesides { s.cpu vmcs with vmcs := u.vmcs } u := by
  refine ⟨_, rfl, rfl, ?_, by constructor <;> rfl⟩
  intro r hrax hrdx
  cases r <;> first | exact absurd rfl hrax | exact absurd rfl hrdx | rfl

/-- A bit that is in the mask and not in the shadow reads as zero. -/
theorem select_shadow (x mask bit : UInt64) :
    (x &&& ~~~bit &&& (mask ||| bit)) ||| (x &&& ~~~(mask ||| bit)) = x &&& ~~~bit := by
  apply UInt64.toBitVec_inj.mp
  refine BitVec.eq_of_getLsbD_eq fun i hi => ?_
  simp only [UInt64.toBitVec_or, UInt64.toBitVec_and, UInt64.toBitVec_not, BitVec.getLsbD_or,
    BitVec.getLsbD_and, BitVec.getLsbD_not, hi, decide_true, Bool.true_and]
  cases x.toBitVec.getLsbD i <;> cases mask.toBitVec.getLsbD i <;> cases bit.toBitVec.getLsbD i <;>
    rfl

/-- Bits of a value inside and outside a mask make up the value. -/
theorem select_self (x mask : UInt64) : (x &&& mask) ||| (x &&& ~~~mask) = x := by
  apply UInt64.toBitVec_inj.mp
  rw [UInt64.toBitVec_or, UInt64.toBitVec_and, UInt64.toBitVec_and, UInt64.toBitVec_not,
    ← BitVec.and_or_distrib_left, BitVec.or_not_self, BitVec.and_allOnes]

/-- The guest at `successful_launch`. -/
structure GuestStarted (memory : UInt64 → UInt8) (s : System) (rflags : UInt64)
    (vmcs : UInt64 → UInt64) (g : Core) : Prop where
  system : Launched memory s g.system
  rflags : g.rflags = rflags
  /-- VMX is hidden from the guest. -/
  cr0 : guestReadCr0 vmcs g = s.cr0
  cr4 : guestReadCr4 vmcs g = s.cr4 &&& ~~~cr4VmxEnableFlag

/-- What `vmx_vmlaunch_stub` gives back to `launch_vm`. -/
structure StubReturned (s : Core) (rax : UInt64) (t : Cpu) (address : UInt64) : Prop where
  rax : t.gpr .rax = rax
  rsp : t.gpr .rsp = s.gpr .rsp + 8
  address : address = loadWord s.memory (s.gpr .rsp)
  gpr : ∀ r ∈ nonvolatileGprs, t.gpr r = s.gpr r
  xmm : t.xmm = s.xmm
  mxcsr : t.mxcsr = s.mxcsr
  sys : t.sys = s.sys

/-- What `virtualize` has done when it comes to VMLAUNCH. -/
theorem virtualize_eq {p : Processor} {layout : VcpuLayout} {c c' : Core}
    {restoreContext : RestoreContext} {vmcs : UInt64 → UInt64}
    (h : virtualize p layout c = some (restoreContext, c', vmcs)) :
    restoreContext = captureRestoreContext c.system ∧
      c' = prepareMsrEntries layout.stealthData (enableVmx c) ∧
      writeControlFields p.supported c'.system c'.memory c'.rflags layout p.cleared =
        some vmcs := by
  rw [virtualize] at h
  -- `prepare_msr_entries` comes first in the source, so every later check is on
  -- its result.
  generalize hprepared : prepareMsrEntries layout.stealthData (enableVmx c) = prepared at h
  split at h
  · cases h
  · simp only [] at h
    split at h
    · cases h
    · -- Each check that fails makes `virtualize` return without a launch.
      simp only [hprepared] at h
      split at h
      · cases h
      · split at h
        · cases h
        · obtain ⟨v, hv, h⟩ := Option.bind_eq_some_iff.mp h
          cases h
          exact ⟨rfl, rfl, hv⟩

/-- Only VMX is turned on, and interrupts. -/
theorem system_virtualize {p : Processor} {layout : VcpuLayout} {c c' : Core}
    {restoreContext : RestoreContext} {vmcs : UInt64 → UInt64}
    (h : virtualize p layout c = some (restoreContext, c', vmcs)) :
    c'.system = enableVmxSystem c.system ∧ c'.rflags = c.rflags ||| 0x200 := by
  obtain ⟨-, hprepared, -⟩ := virtualize_eq h
  rw [prepareMsrEntries_eq] at hprepared
  rw [hprepared]
  exact ⟨rfl, rfl⟩

/-- The launch stub as the guest sees it: behind VMLAUNCH it runs on
with its own registers. -/
theorem run_successfulLaunch (host : Host Label) {vmcs : UInt64 → UInt64} {s : Core} {u : Cpu}
    (hrsp : vmcs guestRsp = s.gpr .rsp) (hgpr : ∀ r, r ≠ .rax → r ≠ .rdx → u.gpr r = s.gpr r)
    (hsame : SameBesides { s.cpu vmcs with vmcs := u.vmcs } u) :
    ∃ t ra, run (exec host) successfulLaunch ((vmentry vmcs (s.withCpu u)).cpu vmcs) =
        some (t, some (.ret ra)) ∧ StubReturned s 1 t ra ∧ t.memory = s.memory := by
  refine ⟨_, _, rfl, ?_, hsame.memory⟩
  have htop : (vmentry vmcs (s.withCpu u)).gpr .rsp = s.gpr .rsp := hrsp
  constructor
  case rax => rfl
  case rsp => exact congrArg (· + 8) htop
  case address => exact congrArg₂ loadWord hsame.memory htop
  -- RAX and RDX are the two registers the launch code uses. Neither is
  -- nonvolatile.
  case gpr =>
    intro r hr
    have hkept : u.gpr r = s.gpr r := by
      refine hgpr r ?_ ?_ <;> rintro rfl <;> exact absurd hr (by decide)
    rw [← hkept]
    cases r <;> first | exact absurd hr (by decide) | rfl
  case xmm => exact hsame.xmm
  case mxcsr => exact hsame.mxcsr
  case sys => exact hsame.sys

/-- A VMLAUNCH that fails: the stub returns through the other branch,
with the registers it was called with. -/
theorem run_failedLaunch (host : Host Label) {vmcs : UInt64 → UInt64} {s : Core} {u : Cpu}
    (hgpr : ∀ r, r ≠ .rax → r ≠ .rdx → u.gpr r = s.gpr r)
    (hsame : SameBesides { s.cpu vmcs with vmcs := u.vmcs } u) (rflags : UInt64) {o : Nat}
    (hrcx : s.gpr .rcx = s.gpr .rsp + UInt64.ofNat o) (hlow : 8 ≤ o) (hhigh : o + 16 ≤ 2 ^ 64) :
    ∃ t ra, run (exec host) failedLaunch { u with rflags } = some (t, some (.ret ra)) ∧
      StubReturned s 0 t ra ∧ loadWord t.memory (s.gpr .rcx) = rflags := by
  have hrsp : u.gpr .rsp = s.gpr .rsp := hgpr .rsp (by decide) (by decide)
  have hout : u.gpr .rcx = s.gpr .rcx := hgpr .rcx (by decide) (by decide)
  have hback : u.gpr .rsp - 8 + 8 = u.gpr .rsp := UInt64.sub_add_cancel ..
  -- The flags are on top of the stack, and then where the caller wants them.
  have hflags : loadWord (storeWord u.memory (u.gpr .rsp - 8) rflags) (u.gpr .rsp - 8) = rflags :=
    loadWord_storeWord ..
  have hrcx : u.gpr .rcx + 0 = u.gpr .rsp - 8 + UInt64.ofNat (o + 8) := by
    rw [UInt64.add_zero, hout, hrcx, ← hrsp, Nat.add_comm, UInt64.ofNat_add, ← UInt64.add_assoc]
    exact congrArg (· + _) hback.symm
  refine ⟨_, _, rfl, ?_, ?_⟩
  · constructor
    case rax => exact UInt64.xor_self
    case rsp =>
      show u.gpr .rsp - 8 + 8 + 8 = _
      rw [hback, hrsp]
    case address =>
      show loadWord (storeWord (storeWord u.memory (u.gpr .rsp - 8) rflags) (u.gpr .rcx + 0)
        (loadWord (storeWord u.memory (u.gpr .rsp - 8) rflags) (u.gpr .rsp - 8)))
          (u.gpr .rsp - 8 + UInt64.ofNat 8) = _
      rw [hrcx, loadWord_storeWord_apart _ _ _ (by omega) (by omega) (by omega)]
      have hapart := loadWord_storeWord_apart u.memory (u.gpr .rsp - 8) rflags (o := 8) (p := 0)
        (by omega) (by omega) (by omega)
      have hzero : u.gpr .rsp - 8 + UInt64.ofNat 0 = u.gpr .rsp - 8 := UInt64.add_zero _
      rw [hzero] at hapart
      rw [hapart, ← hrsp]
      exact congrArg₂ loadWord hsame.memory hback
    case gpr =>
      intro r hr
      have hkept : u.gpr r = s.gpr r := by
        refine hgpr r ?_ ?_ <;> rintro rfl <;> exact absurd hr (by decide)
      rw [← hkept]
      cases r <;> first | exact absurd hr (by decide) | rfl
    case xmm => exact hsame.xmm
    case mxcsr => exact hsame.mxcsr
    case sys => exact hsame.sys
  · show loadWord (storeWord (storeWord u.memory (u.gpr .rsp - 8) rflags) (u.gpr .rcx + 0)
      (loadWord (storeWord u.memory (u.gpr .rsp - 8) rflags) (u.gpr .rsp - 8))) _ = _
    rw [hflags, UInt64.add_zero, hout, loadWord_storeWord]

/-- The VMCS has `msr_entries` for the stores of an exit and for the
loads of an entry, and an exit loads nothing. -/
structure MsrAreas (layout : VcpuLayout) (v : UInt64 → UInt64) : Prop where
  storeCount : v ctrlVmexitMsrStoreCount = 3
  storeAddress : v ctrlVmexitMsrStoreAddress = layout.msrEntriesPhysical
  exitLoadCount : v ctrlVmexitMsrLoadCount = 0
  entryLoadCount : v ctrlVmentryMsrLoadCount = 2
  entryLoadAddress : v ctrlVmentryMsrLoadAddress = layout.msrEntriesPhysical

/-- The fields for the areas. -/
def areaFields : List UInt64 :=
  [ctrlVmexitMsrStoreCount, ctrlVmexitMsrStoreAddress, ctrlVmexitMsrLoadCount,
    ctrlVmentryMsrLoadCount, ctrlVmentryMsrLoadAddress]

set_option maxRecDepth 2000 in
/-- The counts that `prepare_msr_entries` leaves are written. -/
theorem msrAreas_written {layout : VcpuLayout} {cleared v : UInt64 → UInt64} {s : System}
    {c c' : Core} {rflags : UInt64} (hprepared : c' = prepareMsrEntries layout.stealthData c)
    (hv : ∀ field ∈ areaFields,
      v field = withFields cleared (controlFieldWrites s c'.memory rflags layout) field) :
    MsrAreas layout v := by
  obtain ⟨hstore, hload⟩ := counts_prepareMsrEntries layout.stealthData c
  rw [← hprepared] at hstore hload
  constructor
  case storeCount => exact (hv ctrlVmexitMsrStoreCount (by decide)).trans hstore
  case storeAddress => exact hv ctrlVmexitMsrStoreAddress (by decide)
  case exitLoadCount => exact hv ctrlVmexitMsrLoadCount (by decide)
  case entryLoadCount => exact (hv ctrlVmentryMsrLoadCount (by decide)).trans hload
  case entryLoadAddress => exact hv ctrlVmentryMsrLoadAddress (by decide)

/-- The launch is transparent. When `virtualize` comes to VMLAUNCH and
that succeeds, the core goes on in the guest, behind the call of the
stub, with the registers and the memory that it had. Each segment
register is what its selector stands for in the GDT, and VMX, which
`enable_vmx` has turned on, is hidden. The MSRs with a guest field are
the same whatever the entry controls are. MPERF and APERF are loaded
from `msr_entries`, with what `prepare_msr_entries` has read there, and
so they do not show the time up to the launch. All other MSRs are not
touched. When VMLAUNCH fails, the stub says so and leaves RFLAGS to its
caller. `s` is the core that calls the stub, and nobody has written to
`msr_entries` before. -/
theorem virtualize_transparent (host : Host Label) {p : Processor} {layout : VcpuLayout}
    {c c' s : Core} {restoreContext : RestoreContext} {vmcs : UInt64 → UInt64}
    (h : virtualize p layout c = some (restoreContext, c', vmcs))
    (hs : Later c'.system s.system)
    (hlinear : s.linear layout.msrEntriesPhysical = layout.stealthData)
    (hdata : ∀ k < 48, s.memory (layout.stealthData + UInt64.ofNat k) =
      c'.memory (layout.stealthData + UInt64.ofNat k)) :
    ∃ u, run (exec host) vmlaunchStub (s.cpu vmcs) = some (u, some .vmlaunch) ∧
      u.vmcs guestRip = host.addressOf .successfulLaunch ∧
      GuestStarted c'.memory (enableVmxSystem c.system) (c.rflags ||| 0x200) u.vmcs
        (vmentry u.vmcs (s.withCpu u)) ∧
      (∃ t ra, run (exec host) successfulLaunch ((vmentry u.vmcs (s.withCpu u)).cpu u.vmcs) =
          some (t, some (.ret ra)) ∧ StubReturned s 1 t ra ∧ t.memory = s.memory) ∧
      ∀ rflags o, s.gpr .rcx = s.gpr .rsp + UInt64.ofNat o → 8 ≤ o → o + 16 ≤ 2 ^ 64 →
        ∃ t ra, run (exec host) failedLaunch { u with rflags } = some (t, some (.ret ra)) ∧
          StubReturned s 0 t ra ∧ loadWord t.memory (s.gpr .rcx) = rflags := by
  obtain ⟨-, hprepared, hwrites⟩ := virtualize_eq h
  obtain ⟨hsystem', hrflags⟩ := system_virtualize h
  obtain ⟨u, hu, hvmcs, hgpr, hsame⟩ := run_vmlaunchStub host vmcs s
  -- The stub writes RIP and RSP, and the rest is as `write_control_fields` has it.
  have hfields : ∀ field, field ≠ guestRip → field ≠ guestRsp →
      u.vmcs field = withFields p.cleared
        (controlFieldWrites (enableVmxSystem c.system) c'.memory (c.rflags ||| 0x200) layout)
          field := by
    intro field hrip hrsp
    rw [hvmcs, Function.update_of_ne hrsp, Function.update_of_ne hrip,
      writeControlFields_eq hwrites, hsystem', hrflags]
  -- The area has what `prepare_msr_entries` has read.
  have hentries : Entries layout.stealthData u.memory ((enableVmxSystem c.system).msrs ia32Mperf)
      ((enableVmxSystem c.system).msrs ia32Aperf) (c.tsc 0) := by
    have hread := entries_prepareMsrEntries layout.stealthData (enableVmx c)
    rw [← hprepared] at hread
    have hmemory : u.memory = s.memory := hsame.memory
    rw [hmemory]
    exact hread.congr hdata
  have harea : ∀ field ∈ areaFields, field ≠ guestRip ∧ field ≠ guestRsp :=
    List.all_iff_forall_prop.mp (by decide)
  have hareas : MsrAreas layout u.vmcs := msrAreas_written hprepared fun field hfield =>
    hfields field (harea field hfield).1 (harea field hfield).2
  have hrsp : u.vmcs guestRsp = s.gpr .rsp := by
    rw [hvmcs, Function.update_self]
  refine ⟨u, hu, ?_, ?_, ?_, ?_⟩
  · rw [hvmcs, Function.update_of_ne (by decide), Function.update_self]
  · have hlaunched := launched_entrySystem hfields
    have hsystem : (vmentry u.vmcs (s.withCpu u)).system =
        entrySystem u.vmcs (enableVmxSystem c.system) := by
      show loadMsrs u.memory (s.linear (u.vmcs ctrlVmentryMsrLoadAddress))
        (u.vmcs ctrlVmentryMsrLoadCount) (entrySystem u.vmcs s.system) = _
      rw [hareas.entryLoadAddress, hareas.entryLoadCount, hlinear]
      exact loadMsrs_later (hsystem' ▸ hs) hentries
    constructor
    case system =>
      rw [hsystem]
      exact hlaunched
    case rflags => exact hfields guestRflags (by decide) (by decide)
    case cr0 =>
      rw [guestReadCr0, hsystem, hlaunched.cr0, hfields ctrlCr0ReadShadow (by decide) (by decide),
        written_cr0]
      exact select_self (enableVmxSystem c.system).cr0 _
    case cr4 =>
      rw [guestReadCr4, hsystem, hlaunched.cr4, hfields ctrlCr4ReadShadow (by decide) (by decide),
        hfields ctrlCr4GuestHostMask (by decide) (by decide), written_cr4Shadow,
        written_cr4Mask]
      exact select_shadow (enableVmxSystem c.system).cr4 _ _
  · exact run_successfulLaunch host hrsp hgpr hsame
  · intro rflags o hrcx hlow hhigh
    exact run_failedLaunch host hgpr hsame rflags hrcx hlow hhigh

/-- A processor with VMX. -/
def sampleProcessor : Processor where
  virtualMachineExtensions := true
  vmxon := true
  vmclear := true
  vmptrld := true
  supported _ := true
  cleared _ := 0

/-- A GDT with a data segment, which was loaded before, and a busy TSS. -/
def sampleMemory : UInt64 → UInt8 :=
  storeWord (storeWord (fun _ => 0) 0x8028 0x00CFF3000000FFFF) 0x8040 0x00008B0000000067

/-- A core of the OS. -/
def sampleCore : Core where
  gpr r := if r = .rsp then 0x7000 else if r = .rcx then 0x7010 else 0
  sys _ := 0
  xmm _ := 0
  mxcsr := 0x1F80
  rflags := 2
  memory := sampleMemory
  -- The area for MSRs is at the bottom of `stealth_data`.
  linear address := address + 0x70000
  tsc k := UInt64.ofNat (0x5000 + 40 * k)
  system := sampleSystem

/-- The core at VMLAUNCH. -/
def launchedCore : Core := prepareMsrEntries sampleLayout.stealthData (enableVmx sampleCore)

/-- The VMCS that it is launched with. -/
def launchedVmcs : UInt64 → UInt64 :=
  sampleVmcs launchedCore.memory (enableVmxSystem sampleSystem) 0x202

/-- The sample reaches VMLAUNCH. -/
theorem virtualize_sample : virtualize sampleProcessor sampleLayout sampleCore =
    some (captureRestoreContext sampleSystem, launchedCore, launchedVmcs) := by
  have hwritten :=
    sampleVmcs_written launchedCore.memory 0x202 (s := enableVmxSystem sampleSystem) rfl
  have hsupport : checkVmxSupport sampleProcessor sampleCore.system = true := by decide
  rw [virtualize, hsupport]
  exact (Option.bind_eq_some_iff (f := fun v =>
    some (captureRestoreContext sampleSystem, launchedCore, v))).mpr ⟨_, hwritten, rfl⟩

/-- The label is at an address of the kernel. -/
def sampleHost : Host Label where
  addressOf _ := 0x1234
  callee c := some c
  attempt _ s := (s, none)

/-- The sample behind its launch, and a launch of it that fails. -/
theorem virtualize_transparent_sample :
    ∃ u, run (exec sampleHost) vmlaunchStub (launchedCore.cpu launchedVmcs) =
        some (u, some .vmlaunch) ∧ u.vmcs guestRip = 0x1234 ∧
      (vmentry u.vmcs (launchedCore.withCpu u)).system.msrs ia32Mperf = 0x13C5A2 ∧
      ∃ t ra, run (exec sampleHost) failedLaunch { u with rflags := 0x42 } =
        some (t, some (.ret ra)) ∧ loadWord t.memory 0x7010 = 0x42 := by
  obtain ⟨u, hu, hrip, hguest, -, hfailed⟩ := virtualize_transparent sampleHost virtualize_sample
    (s := launchedCore) ⟨rfl, fun _ _ _ => rfl⟩ (by decide) fun _ _ => rfl
  obtain ⟨t, ra, ht, -, hflags⟩ := hfailed 0x42 16 (by decide) (by decide) (by decide)
  have hmperf := congrFun hguest.system.msrs ia32Mperf
  exact ⟨u, hu, hrip, hmperf, t, ra, ht, hflags⟩

/-! ### What an exit saves -/

/-- The fields of the guest that an exit writes when it saves everything
that it may. -/
def allSavedFields (vmcs : UInt64 → UInt64) (info : ExitInfo) (c : Core) : List Write :=
  let s := c.system
  [(guestCr0, s.cr0), (guestCr3, s.cr3), (guestCr4, s.cr4), (guestRsp, c.gpr .rsp),
    (guestRip, info.rip), (guestRflags, c.rflags), (guestDr7, s.dr7)] ++
  segmentRegisters.map (fun r =>
    (guestSelector r, UInt64.ofBitVec ((s.segment r).selector.setWidth 64))) ++
  segmentRegisters.map (fun r => (guestBase r, (s.segment r).base)) ++
  segmentRegisters.map (fun r =>
    (guestLimit r, UInt64.ofBitVec ((s.segment r).limit.setWidth 64))) ++
  segmentRegisters.map (fun r =>
    (guestAccessRights r, UInt64.ofBitVec ((s.segment r).accessRights.setWidth 64))) ++
  [(guestGdtrBase, s.gdtr.base), (guestGdtrLimit, UInt64.ofBitVec (s.gdtr.limit.setWidth 64)),
    (guestIdtrBase, s.idtr.base), (guestIdtrLimit, UInt64.ofBitVec (s.idtr.limit.setWidth 64))] ++
  switchedMsrs.map (fun msr => (guestMsrField msr, s.msrs msr)) ++
  [(guestActivityState, info.activityState),
    (guestInterruptibilityState, info.interruptibilityState),
    (guestPendingDebugExceptions, info.pendingDebugExceptions),
    (ctrlVmentryInterruptionInformation,
      vmcs ctrlVmentryInterruptionInformation &&& ~~~((1 : UInt64) <<< 31))]

/-- The encodings of these fields: those with a register, and four more. -/
def savedNames : List UInt64 :=
  registerFields ++ [guestActivityState, guestInterruptibilityState, guestPendingDebugExceptions,
    ctrlVmentryInterruptionInformation]

section
variable {v : UInt64 → UInt64} (info : ExitInfo) (c : Core)

/-- With the controls as written every field is saved. -/
theorem savedFields_eq (hexit : exitControls v = desiredExitCtls) :
    savedFields v info c = allSavedFields v info c := by
  rw [savedFields, savedMsrs, hexit]
  rfl

/-- The VMCS behind an exit. -/
theorem vmexit_fst (hexit : exitControls v = desiredExitCtls) :
    (vmexit v info c).1 = withFields (withFields v info.others) (allSavedFields v info c) := by
  rw [vmexit, savedFields_eq info c hexit]

variable (b : UInt64 → UInt64)

/-- A segment register is saved in four fields. -/
theorem saved_register (r : SegmentRegister) :
    guestRegister (withFields b (allSavedFields v info c)) r = c.system.segment r := by
  have hselector : withFields b (allSavedFields v info c) (guestSelector r) =
      UInt64.ofBitVec ((c.system.segment r).selector.setWidth 64) := by
    cases r <;> rfl
  have hbase : withFields b (allSavedFields v info c) (guestBase r) =
      (c.system.segment r).base := by
    cases r <;> rfl
  have hlimit : withFields b (allSavedFields v info c) (guestLimit r) =
      UInt64.ofBitVec ((c.system.segment r).limit.setWidth 64) := by
    cases r <;> rfl
  have hrights : withFields b (allSavedFields v info c) (guestAccessRights r) =
      UInt64.ofBitVec ((c.system.segment r).accessRights.setWidth 64) := by
    cases r <;> rfl
  rw [guestRegister, hselector, hbase, hlimit, hrights, setWidth_16, setWidth_32, setWidth_32]

/-- An exit saves the switched MSRs. -/
theorem saved_msr {msr : Nat} (h : msr ∈ switchedMsrs) :
    withFields b (allSavedFields v info c) (guestMsrField msr) = c.system.msrs msr := by
  simp only [switchedMsrs, List.mem_cons, List.not_mem_nil, or_false] at h
  rcases h with rfl | rfl | rfl | rfl | rfl | rfl | rfl <;> rfl

end

/-! ### What an entry loads -/

/-- An exit and an entry put CR0 together again. -/
theorem loadCr0_loadCr0 (x y : UInt64) : loadCr0 (loadCr0 x y) x = x := by
  rw [loadCr0, loadCr0]
  generalize cr0Kept = mask
  apply UInt64.toBitVec_inj.mp
  refine BitVec.eq_of_getLsbD_eq fun i hi => ?_
  simp only [UInt64.toBitVec_or, UInt64.toBitVec_and, UInt64.toBitVec_not, BitVec.getLsbD_or,
    BitVec.getLsbD_and, BitVec.getLsbD_not, hi, decide_true, Bool.true_and]
  cases x.toBitVec.getLsbD i <;> cases mask.toBitVec.getLsbD i <;> cases y.toBitVec.getLsbD i <;>
    rfl

/-- What an exit loads for the host is loaded for the guest again. -/
theorem entry_loads_of_exit_loads (msr : Nat) :
    desiredExitCtls.loads msr = desiredEntryCtls.loads msr := by
  simp only [VmexitControls.loads, VmentryControls.loads, desiredExitCtls, desiredEntryCtls,
    Bool.and_true]

/-- The MSRs that an entry gives the guest: those with a guest field,
and the first two of `msr_entries`. -/
def entryMsrs : List Nat := switchedMsrs ++ [ia32Mperf, ia32Aperf]

/-- With all controls, the MSRs with a guest field are loaded. -/
theorem desiredEntryCtls_loads_iff (msr : Nat) :
    desiredEntryCtls.loads msr = true ↔ msr ∈ switchedMsrs := by
  simp only [VmentryControls.loads, desiredEntryCtls, Bool.and_true, Bool.or_eq_true, beq_iff_eq,
    switchedMsrs, List.mem_cons, List.not_mem_nil, or_false]
  tauto

/-- The guest's system registers behind an exit. CR0 and CR4 have guest
fields that the handlers write, and an MSR that no entry loads is the
host's. -/
def handledSystem (guest host : System) (vmcs : UInt64 → UInt64) : System :=
  { guest with
    cr0 := loadCr0 host.cr0 (vmcs guestCr0)
    cr4 := vmcs guestCr4
    msrs := fun msr => if msr ∈ entryMsrs then guest.msrs msr else host.msrs msr }

section
variable {v w b : UInt64 → UInt64} {info : ExitInfo} {g : Core}

/-- The system registers that an entry loads from the fields which an
exit has saved, if only the handlers' fields have been written in
between. -/
theorem entrySystem_handled (hentry : entryControls w = desiredEntryCtls)
    (hw : ∀ field ∈ registerFields, field ∉ handlerFields →
      w field = withFields b (allSavedFields v info g) field) (host : System) :
    entrySystem w host =
      { g.system with
        cr0 := loadCr0 host.cr0 (w guestCr0)
        cr4 := w guestCr4
        msrs := fun msr => if msr ∈ switchedMsrs then g.system.msrs msr else host.msrs msr } := by
  have hcr3 : w guestCr3 = g.system.cr3 := hw guestCr3 (by decide) (by decide)
  have hdr7 : (if (entryControls w).loadDebugControls then w guestDr7 else host.dr7) =
      g.system.dr7 := by
    rw [hentry]
    exact hw guestDr7 (by decide) (by decide)
  -- A segment register is four fields, and no handler writes any of them.
  have hsegment : guestRegister w = g.system.segment := by
    funext r
    have hfields : ∀ field ∈ [guestSelector r, guestBase r, guestLimit r, guestAccessRights r],
        field ∈ registerFields ∧ field ∉ handlerFields :=
      List.all_iff_forall_prop.mp (by cases r <;> decide)
    have hread := fun field hmem => hw field (hfields field hmem).1 (hfields field hmem).2
    rw [← saved_register info g b r, guestRegister, guestRegister, hread (guestSelector r) (by simp),
      hread (guestBase r) (by simp), hread (guestLimit r) (by simp),
      hread (guestAccessRights r) (by simp)]
  have hgdtr : TableRegister.mk (w guestGdtrBase) ((w guestGdtrLimit).toBitVec.setWidth 16) =
      g.system.gdtr := by
    rw [hw guestGdtrBase (by decide) (by decide), hw guestGdtrLimit (by decide) (by decide)]
    exact congrArg (TableRegister.mk _) (setWidth_16 g.system.gdtr.limit)
  have hidtr : TableRegister.mk (w guestIdtrBase) ((w guestIdtrLimit).toBitVec.setWidth 16) =
      g.system.idtr := by
    rw [hw guestIdtrBase (by decide) (by decide), hw guestIdtrLimit (by decide) (by decide)]
    exact congrArg (TableRegister.mk _) (setWidth_16 g.system.idtr.limit)
  have hmsrs : (fun msr => if (entryControls w).loads msr then w (guestMsrField msr)
      else host.msrs msr) =
        fun msr => if msr ∈ switchedMsrs then g.system.msrs msr else host.msrs msr := by
    have hfields : ∀ msr ∈ switchedMsrs,
        guestMsrField msr ∈ registerFields ∧ guestMsrField msr ∉ handlerFields := by decide
    -- Of the MSRs only those with an entry control are loaded from the VMCS.
    -- The others keep what the host left in them.
    funext msr
    simp only [hentry, desiredEntryCtls_loads_iff]
    by_cases hmem : msr ∈ switchedMsrs
    · rw [if_pos hmem, if_pos hmem, hw _ (hfields msr hmem).1 (hfields msr hmem).2]
      exact saved_msr info g b hmem
    · rw [if_neg hmem, if_neg hmem]
  rw [entrySystem, hcr3, hdr7, hsegment, hgdtr, hidtr, hmsrs]

/-- The loads of the two counters complete what the guest fields give. -/
theorem loadMsrs_handled {memory : UInt64 → UInt8} {data tsc : UInt64}
    (hentries : Entries data memory (g.system.msrs ia32Mperf) (g.system.msrs ia32Aperf) tsc)
    (hentry : entryControls w = desiredEntryCtls)
    (hw : ∀ field ∈ registerFields, field ∉ handlerFields →
      w field = withFields b (allSavedFields v info g) field) (host : System) :
    loadMsrs memory data 2 (entrySystem w host) = handledSystem g.system host w := by
  have hmsrs : Function.update (Function.update
      (fun msr => if msr ∈ switchedMsrs then g.system.msrs msr else host.msrs msr)
        ia32Mperf (g.system.msrs ia32Mperf)) ia32Aperf (g.system.msrs ia32Aperf) =
          fun msr => if msr ∈ entryMsrs then g.system.msrs msr else host.msrs msr := by
    -- The two counters come from the area and the rest from the VMCS, which
    -- together are `entryMsrs`.
    funext msr
    by_cases haperf : msr = ia32Aperf
    · subst haperf
      rfl
    by_cases hmperf : msr = ia32Mperf
    · subst hmperf
      rfl
    have hmem : msr ∈ entryMsrs ↔ msr ∈ switchedMsrs := by
      simp only [entryMsrs, List.mem_append, List.mem_cons, List.not_mem_nil, hmperf, haperf,
        or_false]
    rw [Function.update_of_ne haperf, Function.update_of_ne hmperf]
    simp only [hmem]
  rw [loadMsrs_entries hentries, entrySystem_handled hentry hw, handledSystem, ← hmsrs]

/-- An exit without a handler changes nothing. -/
theorem handledSystem_self {host : System} (hexit : exitControls v = desiredExitCtls)
    (hhost : Later (exitSystem v g.system) host)
    (hcr0 : w guestCr0 = g.system.cr0) (hcr4 : w guestCr4 = g.system.cr4) :
    handledSystem g.system host w = g.system := by
  have hmsrs : (fun msr => if msr ∈ entryMsrs then g.system.msrs msr else host.msrs msr) =
      g.system.msrs := by
    funext msr
    by_cases hmem : msr ∈ entryMsrs
    · rw [if_pos hmem]
    · -- The exit has not loaded it for the host either.
      rw [entryMsrs, List.mem_append, not_or, List.mem_cons, List.mem_singleton, not_or] at hmem
      have hloads : ¬ desiredExitCtls.loads msr = true := by
        rw [entry_loads_of_exit_loads, desiredEntryCtls_loads_iff]
        exact hmem.1
      rw [if_neg (by
        rw [entryMsrs, List.mem_append, not_or, List.mem_cons, List.mem_singleton, not_or]
        exact hmem), hhost.msrs msr hmem.2.1 hmem.2.2]
      show (if (exitControls v).loads msr then hostMsrValue v msr else g.system.msrs msr) = _
      rw [hexit, if_neg hloads]
  -- The bits of CR0 that an entry leaves alone are those the exit had left
  -- alone, so the two cancel.
  have hloaded : loadCr0 host.cr0 g.system.cr0 = g.system.cr0 := by
    rw [hhost.besides]
    exact loadCr0_loadCr0 _ _
  rw [handledSystem, hmsrs, hcr0, hcr4, hloaded]

end

/-! ### VM exits -/

/-- The fields that an exit looks at. -/
def exitFields : List UInt64 :=
  [ctrlPrimaryVmexit, ctrlVmentry, hostCr0, hostCr3, hostCr4, hostRsp, hostRip, hostSelector .cs,
    hostSelector .ss, hostSelector .ds, hostSelector .es, hostSelector .fs, hostSelector .gs,
    hostSelector .tr, hostFsBase, hostGsBase, hostTrBase, hostGdtrBase, hostIdtrBase,
    hostSysenterCs, hostSysenterEsp, hostSysenterEip, hostEfer, hostPat, hostPerfGlobalCtrl] ++
    areaFields

/-- The host at its entry point, with what the guest had. -/
structure HostEntered (layout : VcpuLayout) (g h : Core) : Prop where
  rsp : h.gpr .rsp = hostStackTop layout
  aligned : aligned (h.gpr .rsp) = true
  gpr : ∀ r, r ≠ .rsp → h.gpr r = g.gpr r
  sys : h.sys = g.sys
  xmm : h.xmm = g.xmm
  mxcsr : h.mxcsr = g.mxcsr
  /-- The data of `msr_entries` is all that is written. -/
  entries : Entries layout.stealthData h.memory (g.system.msrs ia32Mperf)
    (g.system.msrs ia32Aperf) (g.tsc 0)
  memory : ∀ x, Outside layout.stealthData 48 x → h.memory x = g.memory x
  tsc : h.tsc = fun k => g.tsc (k + 1)
  linear : h.linear = g.linear
  rflags : h.rflags = 2
  vcpu : (h.system.segment .fs).base = layout.vcpu
  cs : (h.system.segment .cs).selector = hostCs
  ss : (h.system.segment .ss).selector = hostSs
  cr3 : h.system.cr3 = ((layout.hostPml4Physical >>> 12) &&& 0xFFFFFFFFF) <<< 12
  gdtr : h.system.gdtr = ⟨layout.hostGdt, 0xFFFF⟩
  idtr : h.system.idtr = ⟨layout.hostIdt, 0xFFFF⟩
  /-- The task register is the one that LTR loads from the host's GDT. -/
  task : ∀ memory, words memory layout.hostGdt 5 = gdtInitialize layout.hostTss →
    (ltr memory h.system.gdtr hostTr).map Prod.snd = some (h.system.segment .tr)
  msrs : ∀ msr, h.system.msrs msr =
    if desiredExitCtls.loads msr then hostMsr msr else g.system.msrs msr

/-- The host stack is aligned to 16. -/
theorem aligned_hostStackTop (layout : VcpuLayout) : aligned (hostStackTop layout) = true := by
  have hmask : (~~~0xF : UInt64).toNat % 2 ^ 4 = 0 := rfl
  rw [aligned, beq_iff_eq, hostStackTop, UInt64.toNat_and, show 16 = 2 ^ 4 from rfl,
    Nat.and_mod_two_pow, hmask, Nat.and_zero]

section
variable {s : System} {memory : UInt64 → UInt8} {rflags : UInt64} {layout : VcpuLayout}
  {cleared v : UInt64 → UInt64}

/-- The controls that the code relies on. -/
theorem controls_written
    (hexit : ∀ bit ∈ desiredVmexit,
      allowed (capability s.msrs ia32VmxExitCtls ia32VmxTrueExitCtls) bit = true)
    (hentry : ∀ bit ∈ desiredVmentry,
      allowed (capability s.msrs ia32VmxEntryCtls ia32VmxTrueEntryCtls) bit = true)
    (hv : ∀ field ∈ exitFields,
      v field = withFields cleared (controlFieldWrites s memory rflags layout) field) :
    exitControls v = desiredExitCtls ∧ entryControls v = desiredEntryCtls := by
  -- A bit that is asked for is one, because the processor allows it.
  have hexits : ∀ bit ∈ desiredVmexit, fieldBit v ctrlPrimaryVmexit bit = true := by
    intro bit hbit
    rw [fieldBit, hv ctrlPrimaryVmexit (by decide), written_primaryVmexit,
      bitFlag_adjust_flagsOf s.msrs (by decide), controlBit, hexit bit hbit, decide_eq_true hbit]
    rfl
  have hentries : ∀ bit ∈ desiredVmentry, fieldBit v ctrlVmentry bit = true := by
    intro bit hbit
    rw [fieldBit, hv ctrlVmentry (by decide), written_vmentry,
      bitFlag_adjust_flagsOf s.msrs (by decide), controlBit, hentry bit hbit, decide_eq_true hbit]
    rfl
  constructor
  · rw [exitControls, hexits _ (by decide), hexits _ (by decide), hexits _ (by decide),
      hexits _ (by decide), hexits _ (by decide), hexits _ (by decide), hexits _ (by decide)]
    rfl
  · rw [entryControls, hentries _ (by decide), hentries _ (by decide), hentries _ (by decide),
      hentries _ (by decide)]
    rfl

/-- The host values of the switched MSRs are those that `vmcs.cpp` has
written. -/
theorem hostMsrValue_written
    (hv : ∀ field ∈ exitFields,
      v field = withFields cleared (controlFieldWrites s memory rflags layout) field)
    {msr : Nat} (hloads : desiredExitCtls.loads msr = true) :
    hostMsrValue v msr = hostMsr msr := by
  have hmem : msr ∈ switchedMsrs := by
    rw [entry_loads_of_exit_loads] at hloads
    exact mem_switchedMsrs_of_loads hloads
  -- One host field for each MSR. IA32_DEBUGCTL has none: an exit clears it.
  simp only [switchedMsrs, List.mem_cons, List.not_mem_nil, or_false] at hmem
  rcases hmem with rfl | rfl | rfl | rfl | rfl | rfl | rfl
  · exact hv hostPat (by decide)
  · exact hv hostEfer (by decide)
  · exact hv hostPerfGlobalCtrl (by decide)
  · rfl
  · exact hv hostSysenterCs (by decide)
  · exact hv hostSysenterEsp (by decide)
  · exact hv hostSysenterEip (by decide)

/-- The host at its entry point, field by field. -/
theorem vmexit_snd (hareas : MsrAreas layout v) {g : Core}
    (hlinear : g.linear layout.msrEntriesPhysical = layout.stealthData)
    (hentries : HasEntries layout.stealthData g.memory) (info : ExitInfo) :
    (vmexit v info g).2 =
      { g with
        gpr := Function.update g.gpr .rsp (v hostRsp)
        rflags := 2
        memory := storedMemory layout.stealthData g
        tsc := fun k => g.tsc (k + 1)
        system := exitSystem v g.system } := by
  have hstore := storeMsrs_entries hentries
  rw [vmexit]
  simp only [hareas.storeAddress, hareas.storeCount, hareas.exitLoadCount, hlinear, hstore]
  rfl

/-- An exit enters the host as `vmcs.cpp` set it up, whatever the guest
had in its registers. -/
theorem hostEntered_vmexit (hcontrols : exitControls v = desiredExitCtls)
    (hv : ∀ field ∈ exitFields,
      v field = withFields cleared (controlFieldWrites s memory rflags layout) field)
    (hareas : MsrAreas layout v) {g : Core}
    (hlinear : g.linear layout.msrEntriesPhysical = layout.stealthData)
    (hentries : HasEntries layout.stealthData g.memory) (info : ExitInfo) :
    HostEntered layout g (vmexit v info g).2 := by
  rw [vmexit_snd hareas hlinear hentries info]
  have hrsp : v hostRsp = hostStackTop layout := hv hostRsp (by decide)
  have hselector : ∀ r ∈ [SegmentRegister.cs, .ss, .ds, .es, .fs, .gs, .tr],
      hostSelectorValue v r = hostSelectorValue
        (withFields cleared (controlFieldWrites s memory rflags layout)) r := by
    intro r hr
    rw [hostSelectorValue, hostSelectorValue, hv (hostSelector r) (by revert r; decide)]
  have hbase : v hostTrBase = layout.hostTss := hv hostTrBase (by decide)
  have hgdt : v hostGdtrBase = layout.hostGdt := hv hostGdtrBase (by decide)
  have hidt : v hostIdtrBase = layout.hostIdt := hv hostIdtrBase (by decide)
  have htr : (exitSystem v g.system).segment .tr = ⟨hostTr, layout.hostTss, 0x67, 0x8B⟩ := by
    show Register.mk (hostSelectorValue v .tr) (v hostTrBase) 0x67 0x8B = _
    rw [hselector .tr (by decide), hbase]
    rfl
  have hgdtr : (exitSystem v g.system).gdtr = ⟨layout.hostGdt, 0xFFFF⟩ :=
    congrArg (TableRegister.mk · 0xFFFF) hgdt
  have hidtr : (exitSystem v g.system).idtr = ⟨layout.hostIdt, 0xFFFF⟩ :=
    congrArg (TableRegister.mk · 0xFFFF) hidt
  constructor
  case rsp => exact hrsp
  case aligned =>
    show aligned (v hostRsp) = true
    rw [hrsp]
    exact aligned_hostStackTop layout
  case gpr => exact fun r hr => Function.update_of_ne hr _ _
  case entries => exact entries_storedMemory hentries
  case memory => exact fun x hx => storedMemory_outside hx
  case vcpu => exact hv hostFsBase (by decide)
  case cs => exact hselector .cs (by decide)
  case ss =>
    show (hostRegister.dataRegister v .ss).selector = hostSs
    rw [hostRegister.dataRegister, hselector .ss (by decide)]
    rfl
  case cr3 => exact hv hostCr3 (by decide)
  case gdtr => exact hgdtr
  case idtr => exact hidtr
  case task =>
    intro memory hwords
    show (ltr memory (exitSystem v g.system).gdtr hostTr).map Prod.snd =
      some ((exitSystem v g.system).segment .tr)
    -- An exit sets the limit of GDTR to its maximum, which covers the five words of the table.
    have hlimit : 39 ≤ (0xFFFF : BitVec 16).toNat := by decide
    have hload : ltr memory ⟨layout.hostGdt, 0xFFFF⟩ hostTr = some (_, _) :=
      ltr_gdtInitialize hwords hlimit
    rw [hgdtr, htr, hload]
    rfl
  case msrs =>
    intro msr
    show (if (exitControls v).loads msr then hostMsrValue v msr else g.system.msrs msr) = _
    rw [hcontrols]
    split
    next hloads => exact hostMsrValue_written hv hloads
    next => rfl
  all_goals rfl

/-- The fields that an entry looks at. -/
def entryFields : List UInt64 :=
  [ctrlVmentry, ctrlVmentryMsrLoadCount, ctrlVmentryMsrLoadAddress] ++ registerFields

/-- What an exit writes besides the state that the model has is none of
the fields that exits and entries look at. -/
theorem others_apart (info : ExitInfo) {field : UInt64} (h : field ∈ exitFields ++ entryFields) :
    field ∉ info.others.map Prod.fst := by
  have htype : ∀ field ∈ exitFields ++ entryFields,
      fieldType field ≠ 1 ∧ (fieldType field = 2 → field ∈ registerFields) :=
    List.all_iff_forall_prop.mp (by decide +kernel)
  intro hmem
  obtain ⟨write, hwrite, rfl⟩ := List.mem_map.mp hmem
  rcases info.type write hwrite with hinfo | ⟨hguest, hother⟩
  · exact (htype write.1 h).1 hinfo
  · exact hother ((htype write.1 h).2 hguest)

/-- One exit leaves the fields alone that an exit looks at. -/
theorem exitFields_step (hcontrols : exitControls v = desiredExitCtls) (e : Handled)
    (hwrites : ∀ write ∈ e.writes, write.1 ∈ handlerFields) {field : UInt64}
    (hfield : field ∈ exitFields) :
    withFields (vmexit v e.info e.guest).1 e.writes field = v field := by
  -- The list is gone through, not the type of its elements.
  have hall : ∀ field ∈ exitFields, field ∉ savedNames ∧ field ∉ handlerFields :=
    List.all_iff_forall_prop.mp (by decide +kernel)
  have happart := hall field hfield
  have hhandler : field ∉ e.writes.map Prod.fst := by
    intro hmem
    obtain ⟨write, hwrite, rfl⟩ := List.mem_map.mp hmem
    exact happart.2 (hwrites write hwrite)
  have hothers := others_apart e.info (List.mem_append_left entryFields hfield)
  have hsaved : field ∉ (allSavedFields v e.info e.guest).map Prod.fst := happart.1
  rw [withFields_other hhandler, vmexit_fst e.info e.guest hcontrols, withFields_other hsaved,
    withFields_other hothers]

/-- The handler writes none of the fields that an exit reads, and
neither does an exit. By induction on the exits before. -/
theorem exitFields_afterExits
    (hexit : ∀ bit ∈ desiredVmexit,
      allowed (capability s.msrs ia32VmxExitCtls ia32VmxTrueExitCtls) bit = true)
    (hentry : ∀ bit ∈ desiredVmentry,
      allowed (capability s.msrs ia32VmxEntryCtls ia32VmxTrueEntryCtls) bit = true)
    (hv : ∀ field ∈ exitFields,
      v field = withFields cleared (controlFieldWrites s memory rflags layout) field)
    {exits : List Handled}
    (hwrites : ∀ e ∈ exits, ∀ write ∈ e.writes, write.1 ∈ handlerFields) :
    ∀ field ∈ exitFields, afterExits v exits field =
      withFields cleared (controlFieldWrites s memory rflags layout) field := by
  -- By induction over the exits. One exit and the writes of its handler leave
  -- the fields an exit reads as they were.
  induction exits generalizing v with
  | nil => exact hv
  | cons e exits ih =>
    have hcontrols := (controls_written hexit hentry hv).1
    refine ih (v := withFields (vmexit v e.info e.guest).1 e.writes) ?_
      fun e he => hwrites e (List.mem_cons_of_mem _ he)
    intro field hfield
    rw [exitFields_step hcontrols e (hwrites e List.mem_cons_self) hfield]
    exact hv field hfield

end

/-- Behind any number of exits, the fields that an exit looks at are as
they were launched. -/
theorem exitFields_launched {p : Processor} {layout : VcpuLayout} {c c' : Core}
    {restoreContext : RestoreContext} {vmcs v : UInt64 → UInt64} {exits : List Handled}
    (h : virtualize p layout c = some (restoreContext, c', vmcs))
    (hexit : ∀ bit ∈ desiredVmexit,
      allowed (capability c.system.msrs ia32VmxExitCtls ia32VmxTrueExitCtls) bit = true)
    (hentry : ∀ bit ∈ desiredVmentry,
      allowed (capability c.system.msrs ia32VmxEntryCtls ia32VmxTrueEntryCtls) bit = true)
    (hstub : ∀ field, field ≠ guestRip → field ≠ guestRsp → v field = vmcs field)
    (hwrites : ∀ e ∈ exits, ∀ write ∈ e.writes, write.1 ∈ handlerFields) :
    ∀ field ∈ exitFields, afterExits v exits field = withFields p.cleared (controlFieldWrites
      (enableVmxSystem c.system) c'.memory (c.rflags ||| 0x200) layout) field := by
  obtain ⟨-, -, hwritten⟩ := virtualize_eq h
  obtain ⟨hsystem, hrflags⟩ := system_virtualize h
  have hlaunched : ∀ field ∈ exitFields, field ≠ guestRip ∧ field ≠ guestRsp :=
    List.all_iff_forall_prop.mp (by decide)
  -- The launch itself writes RIP and RSP, which are not among these fields.
  have hv : ∀ field ∈ exitFields, v field = withFields p.cleared (controlFieldWrites
      (enableVmxSystem c.system) c'.memory (c.rflags ||| 0x200) layout) field := by
    intro field hfield
    rw [hstub field (hlaunched field hfield).1 (hlaunched field hfield).2,
      writeControlFields_eq hwritten, hsystem, hrflags]
  exact exitFields_afterExits (s := enableVmxSystem c.system) hexit hentry hv hwrites

/-- The areas for MSRs are where they were, behind any number of exits. -/
theorem msrAreas_launched {p : Processor} {layout : VcpuLayout} {c c' : Core}
    {restoreContext : RestoreContext} {vmcs v : UInt64 → UInt64} {exits : List Handled}
    (h : virtualize p layout c = some (restoreContext, c', vmcs))
    (hkept : ∀ field ∈ exitFields, afterExits v exits field = withFields p.cleared
      (controlFieldWrites (enableVmxSystem c.system) c'.memory (c.rflags ||| 0x200) layout) field) :
    MsrAreas layout (afterExits v exits) :=
  msrAreas_written (virtualize_eq h).2.1 fun field hfield =>
    hkept field (List.mem_append_right _ hfield)

/-- What an entry looks at and an exit does not save stays in the VMCS. -/
theorem vmexit_kept {v : UInt64 → UInt64} (hexit : exitControls v = desiredExitCtls)
    (info : ExitInfo) (g : Core) {field : UInt64} (hfield : field ∈ entryFields)
    (hsaved : field ∉ savedNames) : (vmexit v info g).1 field = v field := by
  have hothers := others_apart info (List.mem_append_right exitFields hfield)
  rw [vmexit_fst info g hexit, withFields_other hsaved, withFields_other hothers]

section
variable {layout : VcpuLayout} {v : UInt64 → UInt64} (hexit : exitControls v = desiredExitCtls)
  (hentry : entryControls v = desiredEntryCtls) (hareas : MsrAreas layout v) {g : Core}
  (hlinear : g.linear layout.msrEntriesPhysical = layout.stealthData) (info : ExitInfo)
include hexit hentry hareas hlinear

/-- The system registers that the entry behind a handler loads, from the
guest fields and from `msr_entries`. The handler has written its own
fields only, and no data of the area. -/
theorem loadMsrs_vmexit {w : UInt64 → UInt64} {memory : UInt64 → UInt8} {tsc : UInt64}
    (hw : ∀ field ∈ entryFields, field ∉ handlerFields → w field = (vmexit v info g).1 field)
    (hentries : Entries layout.stealthData memory (g.system.msrs ia32Mperf)
      (g.system.msrs ia32Aperf) tsc) (host : System) :
    loadMsrs memory (g.linear (w ctrlVmentryMsrLoadAddress)) (w ctrlVmentryMsrLoadCount)
      (entrySystem w host) = handledSystem g.system host w := by
  -- A field that neither the exit nor the handler writes is the one of the
  -- launch.
  have hkept : ∀ field ∈ entryFields, field ∉ savedNames → field ∉ handlerFields →
      w field = v field := fun field hfield hsaved hhandler =>
    (hw field hfield hhandler).trans (vmexit_kept hexit info g hfield hsaved)
  have hcontrols : entryControls w = desiredEntryCtls := by
    rw [← hentry]
    simp only [entryControls, fieldBit, hkept ctrlVmentry (by decide) (by decide) (by decide)]
  have hcount : w ctrlVmentryMsrLoadCount = 2 :=
    (hkept _ (by decide) (by decide) (by decide)).trans hareas.entryLoadCount
  have haddress : w ctrlVmentryMsrLoadAddress = layout.msrEntriesPhysical :=
    (hkept _ (by decide) (by decide) (by decide)).trans hareas.entryLoadAddress
  have hregisters : ∀ field ∈ registerFields, field ∉ handlerFields →
      w field = withFields (withFields v info.others) (allSavedFields v info g) field := by
    intro field hfield hhandler
    rw [hw field (List.mem_append_right _ hfield) hhandler, vmexit_fst info g hexit]
  rw [hcount, haddress, hlinear]
  exact loadMsrs_handled hentries hcontrols hregisters host

/-- An entry right behind an exit gives the guest its registers back. -/
theorem vmentry_vmexit (hentries : HasEntries layout.stealthData g.memory)
    (hentered : HostEntered layout g (vmexit v info g).2) {host : System}
    (hhost : Later (vmexit v info g).2.system host) :
    vmentry (vmexit v info g).1 { (vmexit v info g).2 with system := host } =
      { g with memory := (vmexit v info g).2.memory, tsc := (vmexit v info g).2.tsc } := by
  have hfst := vmexit_fst info g hexit
  have hsnd := vmexit_snd hareas hlinear hentries info
  have hsystem := loadMsrs_vmexit hexit hentry hareas hlinear info (fun _ _ _ => rfl)
    hentered.entries host
  -- The handler wrote nothing here, so CR0 and CR4 are the guest's own.
  have hself : handledSystem g.system host (vmexit v info g).1 = g.system := by
    refine handledSystem_self hexit ?_ (by rw [hfst]; rfl) (by rw [hfst]; rfl)
    rwa [hsnd] at hhost
  have hrsp : (vmexit v info g).1 guestRsp = g.gpr .rsp := by
    rw [hfst]
    rfl
  have hflags : (vmexit v info g).1 guestRflags = g.rflags := by
    rw [hfst]
    rfl
  rw [vmentry, hentered.linear, hsystem, hself, hrsp, hflags, hsnd]
  simp only [Function.update_idem, Function.update_eq_self]

end

/-- Every exit of a launched core, behind any number of others, enters
the host at `vmexit_stub`: on top of an aligned host stack, with the
vCPU, the tables and the MSRs of the host, and with everything else as
the guest had it. MPERF, APERF and the TSC are stored in `msr_entries`,
and no other byte of memory is written. The entry behind it gives the
guest all of its registers back, MPERF and APERF from `msr_entries`,
however far they have counted on in the host. The processor has to allow
the VM-exit and VM-entry controls, which the code does not check, and
the guest must not have written to `msr_entries`. -/
theorem vmexit_roundtrip {p : Processor} {layout : VcpuLayout} {c c' : Core}
    {restoreContext : RestoreContext} {vmcs v : UInt64 → UInt64} {exits : List Handled}
    (h : virtualize p layout c = some (restoreContext, c', vmcs))
    (hexit : ∀ bit ∈ desiredVmexit,
      allowed (capability c.system.msrs ia32VmxExitCtls ia32VmxTrueExitCtls) bit = true)
    (hentry : ∀ bit ∈ desiredVmentry,
      allowed (capability c.system.msrs ia32VmxEntryCtls ia32VmxTrueEntryCtls) bit = true)
    (hstub : ∀ field, field ≠ guestRip → field ≠ guestRsp → v field = vmcs field)
    (hwrites : ∀ e ∈ exits, ∀ write ∈ e.writes, write.1 ∈ handlerFields) (info : ExitInfo)
    {g : Core} (hlinear : g.linear layout.msrEntriesPhysical = layout.stealthData)
    (hentries : HasEntries layout.stealthData g.memory) :
    HostEntered layout g (vmexit (afterExits v exits) info g).2 ∧
      (vmexit (afterExits v exits) info g).1 hostRip = layout.vmexitStub ∧
      (∀ host, Later (vmexit (afterExits v exits) info g).2.system host →
        vmentry (vmexit (afterExits v exits) info g).1
            { (vmexit (afterExits v exits) info g).2 with system := host } =
          { g with
            memory := (vmexit (afterExits v exits) info g).2.memory
            tsc := (vmexit (afterExits v exits) info g).2.tsc }) ∧
      (vmexit (afterExits v exits) info g).1 guestRip = info.rip := by
  -- All that an exit reads was written before the launch and by no handler
  -- since.
  have hkept := exitFields_launched h hexit hentry hstub hwrites
  obtain ⟨hexits, hcontrols⟩ := controls_written (s := enableVmxSystem c.system) hexit hentry hkept
  have hareas := msrAreas_launched h hkept
  have hentered := hostEntered_vmexit hexits hkept hareas hlinear hentries info
  have hfst := vmexit_fst info g hexits
  have hothers := others_apart info
    (List.mem_append_left entryFields (show hostRip ∈ exitFields by decide))
  refine ⟨hentered, ?_, fun host hhost => ?_, by rw [hfst]; rfl⟩
  · rw [hfst, withFields_other (show hostRip ∉ savedNames by decide), withFields_other hothers]
    exact hkept hostRip (by decide)
  · exact vmentry_vmexit hexits hcontrols hareas hlinear info hentries hentered hhost

/-- What an exit by an instruction writes besides the registers: its
reason, and its length. -/
def sampleInfo : ExitInfo where
  rip := 0x5000
  activityState := 0
  interruptibilityState := 0
  pendingDebugExceptions := 0
  others := [(0x4402, 0xA), (0x440C, 2)]
  type := by
    intro write hwrite
    simp only [List.mem_cons, List.not_mem_nil, or_false] at hwrite
    rcases hwrite with rfl | rfl
    · exact .inl rfl
    · exact .inl rfl

/-- The area is as `prepare_msr_entries` has left it. -/
theorem hasEntries_launchedCore : HasEntries sampleLayout.stealthData launchedCore.memory :=
  ⟨_, _, _, entries_prepareMsrEntries sampleLayout.stealthData (enableVmx sampleCore)⟩

/-- The sample after one exit and entry, and its next exit. -/
theorem vmexit_roundtrip_sample :
    Entries sampleLayout.stealthData
        (vmexit (afterExits launchedVmcs [⟨sampleInfo, launchedCore, [(guestRip, 0x5002)]⟩])
          sampleInfo launchedCore).2.memory 0x13C5A2 0x1702B4 0x5028 ∧
      (vmexit (afterExits launchedVmcs [⟨sampleInfo, launchedCore, [(guestRip, 0x5002)]⟩])
        sampleInfo launchedCore).1 hostRip = sampleLayout.vmexitStub := by
  have hwrites : ∀ e ∈ [Handled.mk sampleInfo launchedCore [(guestRip, 0x5002)]],
      ∀ write ∈ e.writes, write.1 ∈ handlerFields := by
    intro e he write hwrite
    rw [List.mem_singleton.mp he] at hwrite
    rw [List.mem_singleton.mp hwrite]
    decide
  obtain ⟨hentered, hrip, -, -⟩ := vmexit_roundtrip virtualize_sample (by decide +kernel)
    (by decide +kernel) (fun _ _ _ => rfl) hwrites sampleInfo (g := launchedCore) (by decide)
    hasEntries_launchedCore
  exact ⟨hentered.entries, hrip⟩

/-! ### The way out -/

/-- The task register that the OS had can be loaded from a copy of the
GDT. -/
structure TaskReloadable (memory : UInt64 → UInt8) (gdt : TableRegister) (selector : BitVec 16) :
    Prop where
  index : selectorIndex selector ≠ 0
  table : selectorTable selector = 0
  copied : 8 * (selectorIndex selector).toNat + 16 ≤ gdtCopySize gdt
  system : (Descriptor.ofWord (descriptorWord memory gdt selector)).descriptorType =
    descriptorTypeSystem
  busy : (Descriptor.ofWord (descriptorWord memory gdt selector)).type = typeTssBusy
  present : (Descriptor.ofWord (descriptorWord memory gdt selector)).present = 1

/-- The copy has the size of a GDT, which a 16-bit limit bounds. -/
theorem gdtCopySize_le (gdtr : TableRegister) : gdtCopySize gdtr ≤ 0xFFFF := by
  rw [gdtCopySize, dummyGdtSize]
  split <;> omega

/-- The copy of the GDT changes nothing else. -/
theorem fillDummyGdt_outside {restoreContext : RestoreContext} {dummyGdt x : UInt64}
    {memory : UInt64 → UInt8} (h : Outside dummyGdt (gdtCopySize restoreContext.gdtr) x) :
    fillDummyGdt restoreContext dummyGdt memory x = memory x := by
  have hcopy : ∀ bytes : List UInt8, bytes.length = gdtCopySize restoreContext.gdtr →
      store memory dummyGdt bytes x = memory x := fun bytes hlength =>
    store_outside (hlength ▸ h)
  rw [fillDummyGdt]
  simp only []
  split
  next hfits =>
    have hpart := h.part rfl hfits
    rw [storeWord, store_outside, hcopy _ (Lib.length_bytesAt ..)]
    rw [length_leBytes]
    exact Nat.le_trans (by decide) hpart
  next => exact hcopy _ (Lib.length_bytesAt ..)

/-- LTR with the copy of the GDT loads what the selector stands for in
the GDT. -/
theorem ltr_fillDummyGdt {restoreContext : RestoreContext} (dummyGdt : UInt64)
    {memory : UInt64 → UInt8}
    (h : TaskReloadable memory restoreContext.gdtr (restoreContext.selector .tr)) :
    ∃ memory', ltr (fillDummyGdt restoreContext dummyGdt memory)
        ⟨dummyGdt, BitVec.ofNat 16 (gdtCopySize restoreContext.gdtr - 1)⟩
          (restoreContext.selector .tr) =
        some (memory', described memory restoreContext.gdtr (restoreContext.selector .tr)) ∧
      ∀ x, Outside dummyGdt (gdtCopySize restoreContext.gdtr) x → memory' x = memory x := by
  obtain ⟨hindex, htable, hcopied, hsystem, hbusy, hpresent⟩ := h
  have hsize := gdtCopySize_le restoreContext.gdtr
  have houtside : ∀ x, Outside dummyGdt (gdtCopySize restoreContext.gdtr) x →
      fillDummyGdt restoreContext dummyGdt memory x = memory x := fun _ => fillDummyGdt_outside
  -- The OS's GDT is copied, and then the type of the TSS is patched in the copy.
  generalize hcopy : store memory dummyGdt (bytesAt memory restoreContext.gdtr.base
    (gdtCopySize restoreContext.gdtr)) = copy
  generalize hselector : restoreContext.selector .tr = selector at *
  have hread : ∀ o, o + 8 ≤ gdtCopySize restoreContext.gdtr →
      loadWord copy (dummyGdt + UInt64.ofNat o) =
        loadWord memory (restoreContext.gdtr.base + UInt64.ofNat o) := by
    intro o ho
    rw [loadWord, loadWord, ← hcopy, bytesAt_store_bytesAt memory _ _ (by omega) ho]
  generalize hdummy : (⟨dummyGdt, BitVec.ofNat 16 (gdtCopySize restoreContext.gdtr - 1)⟩ :
    TableRegister) = gdt
  have haddress : descriptorAddress gdt selector =
      dummyGdt + UInt64.ofNat (8 * (selectorIndex selector).toNat) := by
    rw [← hdummy]
    rfl
  have hword : loadWord copy (dummyGdt + UInt64.ofNat (8 * (selectorIndex selector).toNat)) =
      descriptorWord memory restoreContext.gdtr selector := hread _ (by omega)
  generalize hfilled : fillDummyGdt restoreContext dummyGdt memory = filled at *
  have hfill : filled = storeWord copy (descriptorAddress gdt selector)
      { Descriptor.ofWord (descriptorWord memory restoreContext.gdtr selector) with
        type := typeTssAvailable }.toWord := by
    rw [← hfilled, fillDummyGdt, hselector, haddress]
    simp only [if_pos hcopied, hcopy, hword]
  -- The upper half of the descriptor is behind the word that is patched.
  have hupper : upperWord filled gdt selector = upperWord memory restoreContext.gdtr selector := by
    rw [upperWord, hfill, haddress, UInt64.add_assoc]
    have height : UInt64.ofNat (8 * (selectorIndex selector).toNat) + 8 =
        UInt64.ofNat (8 * (selectorIndex selector).toNat + 8) := (UInt64.ofNat_add ..).symm
    rw [height, loadWord_storeWord_apart _ _ _ (by omega) (by omega) (by omega), hread _ hcopied,
      UInt64.ofNat_add, ← UInt64.add_assoc]
    rfl
  have hlimit : 8 * (selectorIndex selector).toNat + 15 ≤ gdt.limit.toNat := by
    rw [← hdummy]
    show _ ≤ (BitVec.ofNat 16 (gdtCopySize restoreContext.gdtr - 1)).toNat
    rw [BitVec.toNat_ofNat, Nat.mod_eq_of_lt (by omega)]
    omega
  have hloaded : descriptorWord filled gdt selector =
      { Descriptor.ofWord (descriptorWord memory restoreContext.gdtr selector) with
        type := typeTssAvailable }.toWord := by
    rw [descriptorWord, hfill, loadWord_storeWord]
  -- LTR marks the TSS as busy again, so the register is the one of the OS's descriptor.
  have hltr := ltr_restored hindex htable hlimit hsystem hbusy hpresent hloaded
  rw [hupper] at hltr
  refine ⟨_, hltr, fun x hx => ?_⟩
  have hpart := hx.part rfl hcopied
  have hapart : 8 ≤ (x - descriptorAddress gdt selector).toNat := by
    rw [haddress]
    exact Nat.le_trans (by decide) hpart
  rw [storeWord, store_outside (by rwa [length_leBytes]), houtside x hx]

/-- The registers DS, ES, FS and GS, one after another. No descriptor
changes by them. -/
theorem writeSegments_eq (restoreContext : RestoreContext) {rs : List SegmentRegister}
    {memory : UInt64 → UInt8} {s : System}
    (h : ∀ r ∈ rs, Reloadable memory s.gdtr (restoreContext.selector r)) :
    writeSegments restoreContext rs (memory, s) =
      some (memory, { s with
        segment := rs.foldl (fun segment r =>
          Function.update segment r (loaded memory s.gdtr (restoreContext.selector r)))
            s.segment }) := by
  induction rs generalizing s with
  | nil => rfl
  | cons r rs ih =>
    rw [writeSegments, movToSegment_reloadable (h r List.mem_cons_self)]
    exact ih fun r hr => h r (List.mem_cons_of_mem _ hr)

/-- The MSRs that are written, without the bases of FS and GS. -/
def restoredMsrs : List Nat :=
  [ia32Pat, ia32Efer, ia32SysenterCs, ia32SysenterEsp, ia32SysenterEip, ia32KernelGsBase]

/-- The segment registers that are loaded. -/
def restoredSegments : List SegmentRegister := [.ds, .es, .fs, .gs, .tr]

/-- The system registers behind `devirtualize`, with what the OS had
before the launch in `s` and what the host had in `h`. -/
def restoredSystem (s h : System) (memory : UInt64 → UInt8) : System where
  cr0 := h.cr0
  cr3 := s.cr3
  cr4 := h.cr4
  dr7 := h.dr7
  segment r :=
    if r ∈ restoredSegments then reloaded memory s.gdtr r (s.segment r) else h.segment r
  gdtr := s.gdtr
  idtr := s.idtr
  msrs msr := if msr ∈ restoredMsrs then s.msrs msr else h.msrs msr

/-- The writes of MSRs, in the order of the source. -/
theorem msrs_restored (s h : Nat → UInt64) :
    Function.update (Function.update (Function.update (Function.update (Function.update
      (Function.update h ia32Pat (s ia32Pat)) ia32Efer (s ia32Efer)) ia32SysenterCs
        (s ia32SysenterCs)) ia32SysenterEsp (s ia32SysenterEsp)) ia32SysenterEip
          (s ia32SysenterEip)) ia32KernelGsBase (s ia32KernelGsBase) =
      fun msr => if msr ∈ restoredMsrs then s msr else h msr := by
  funext msr
  simp only [Function.update_apply, restoredMsrs, List.mem_cons, List.not_mem_nil, or_false]
  split_ifs <;> simp_all

/-- `devirtualize`, once its LTR and its loads of segment registers have
succeeded. -/
theorem devirtualize_eq {restoreContext : RestoreContext} {dummyGdt : UInt64} {h : Core}
    {memory memory' : UInt64 → UInt8} {tr : Register} {s : System}
    (hltr : ltr (fillDummyGdt restoreContext dummyGdt h.memory)
      ⟨dummyGdt, BitVec.ofNat 16 (gdtCopySize restoreContext.gdtr - 1)⟩
        (restoreContext.selector .tr) = some (memory, tr))
    (hwrite : writeSegments restoreContext [.ds, .es, .fs, .gs]
      (memory, { restoreRegisters restoreContext h.system with
        segment := Function.update (restoreRegisters restoreContext h.system).segment .tr tr
        gdtr := restoreContext.gdtr }) = some (memory', s)) :
    devirtualize restoreContext dummyGdt h =
      some { h with memory := memory', system := restoreBases restoreContext s } :=
  Option.bind_eq_some_iff.mpr ⟨_, hltr, Option.bind_eq_some_iff.mpr ⟨_, hwrite, rfl⟩⟩

/-- The hypervisor gives up a core. No instruction on the way faults,
and the OS has its page tables, its descriptor tables and the MSRs of
its `restore_context` again. DS, ES, FS, GS and TR are what their
selectors stand for in the OS's GDT, although its TSS is marked as busy
there. Nothing is written besides `dummy_gdt`. All other registers stay
the host's, CS, SS and LDTR among them. -/
theorem devirtualize_restores {p : Processor} {layout : VcpuLayout} {c c' : Core}
    {restoreContext : RestoreContext} {vmcs : UInt64 → UInt64} {dummyGdt : UInt64} {h : Core}
    (hlaunch : virtualize p layout c = some (restoreContext, c', vmcs))
    (htask : TaskReloadable h.memory c.system.gdtr (c.system.segment .tr).selector)
    (hsegments : ∀ r ∈ [SegmentRegister.ds, .es, .fs, .gs],
      Reloadable h.memory c.system.gdtr (c.system.segment r).selector)
    (hgdt : ∀ k ≤ c.system.gdtr.limit.toNat,
      Outside dummyGdt (gdtCopySize c.system.gdtr) (c.system.gdtr.base + UInt64.ofNat k)) :
    ∃ memory, devirtualize restoreContext dummyGdt h =
        some { h with memory, system := restoredSystem c.system h.system h.memory } ∧
      ∀ x, Outside dummyGdt (gdtCopySize c.system.gdtr) x → memory x = h.memory x := by
  obtain ⟨rfl, -, -⟩ := virtualize_eq hlaunch
  have htask' : TaskReloadable h.memory (captureRestoreContext c.system).gdtr
      ((captureRestoreContext c.system).selector .tr) := htask
  obtain ⟨memory, hltr, hmemory⟩ := ltr_fillDummyGdt dummyGdt htask'
  -- The OS's GDT is not where the copy is, so its descriptors are as before.
  have hloaded := fun r hr => loaded_congr (fun k hk => hmemory _ (hgdt k hk)) (hsegments r hr)
  have hwrite := writeSegments_eq (captureRestoreContext c.system)
    (s := { restoreRegisters (captureRestoreContext c.system) h.system with
      segment := Function.update (restoreRegisters (captureRestoreContext c.system)
        h.system).segment .tr (described h.memory c.system.gdtr (c.system.segment .tr).selector)
      gdtr := c.system.gdtr }) fun r hr => (hloaded r hr).1
  refine ⟨memory, (devirtualize_eq hltr hwrite).trans ?_, hmemory⟩
  refine congrArg some (congrArg (fun system => { h with memory, system }) ?_)
  rw [restoredSystem, ← msrs_restored]
  refine congrArg (fun segment => System.mk _ _ _ _ segment _ _ _) (funext fun r => ?_)
  have hsame : ∀ r ∈ [SegmentRegister.ds, .es, .fs, .gs],
      loaded memory c.system.gdtr (c.system.segment r).selector =
        loaded h.memory c.system.gdtr (c.system.segment r).selector := fun r hr => (hloaded r hr).2
  cases r with
  | ds => exact hsame .ds (by decide)
  | es => exact hsame .es (by decide)
  | fs =>
    have hfs := congrArg (fun r : Register => { r with base := (c.system.segment .fs).base })
      (hsame .fs (by decide))
    exact hfs
  | gs =>
    have hgs := congrArg (fun r : Register => { r with base := (c.system.segment .gs).base })
      (hsame .gs (by decide))
    exact hgs
  | tr => exact (if_neg htask.index).symm
  | cs => rfl
  | ss => rfl
  | ldtr => rfl

/-- The sample gives its registers back. -/
theorem devirtualize_restores_sample :
    ∃ memory, devirtualize (captureRestoreContext sampleSystem) 0xA000 sampleCore =
      some { sampleCore with
        memory, system := restoredSystem sampleSystem sampleSystem sampleMemory } := by
  have htask : TaskReloadable sampleMemory ⟨0x8000, 0x57⟩ 0x40 := by
    constructor <;> decide +kernel
  have hdata : Reloadable sampleMemory ⟨0x8000, 0x57⟩ 0x2B := by
    refine ⟨by decide, fun _ => ⟨?_, ?_⟩⟩ <;> decide +kernel
  -- The GDT of the sample is below `dummy_gdt`.
  have hapart : ∀ k ≤ 0x57, 0x58 ≤ (0x8000 + UInt64.ofNat k - 0xA000).toNat := by decide +kernel
  have hsegments : ∀ r ∈ [SegmentRegister.ds, .es, .fs, .gs],
      Reloadable sampleMemory ⟨0x8000, 0x57⟩ (sampleSystem.segment r).selector := by
    intro r hr
    simp only [List.mem_cons, List.not_mem_nil, or_false] at hr
    rcases hr with rfl | rfl | rfl | rfl <;> exact hdata
  obtain ⟨memory, hmemory, -⟩ := devirtualize_restores (h := sampleCore) virtualize_sample htask
    hsegments hapart
  exact ⟨memory, hmemory⟩

/-- `switch_host_cs` comes back to its caller with the selector in CS,
and with a null selector in SS. It keeps RFLAGS and the stack above it.
After `devirtualize` this gives the OS its CS back. -/
theorem run_switchHostCs (host : Host Label) (s : Cpu) :
    ∃ t, run (exec host) switchHostCs s = some (t, some (.iretq (host.addressOf .csDone))) ∧
      t.cs = s.gpr .rcx &&& 0xFFFF ∧ t.ss = 0 ∧ t.rflags = s.rflags ∧
      t.gpr .rsp = s.gpr .rsp ∧ (∀ r ∈ nonvolatileGprs, t.gpr r = s.gpr r) ∧
      ∀ x, Outside (s.gpr .rsp - 40) 40 x → t.memory x = s.memory x := by
  -- RFLAGS goes over the stack to RAX.
  obtain ⟨a, hfirst, hrax, hrsp, hgpr, hmemory⟩ : ∃ a,
      run (exec host) [.pushfq, .pop .rax] s = some (a, none) ∧ a.gpr .rax = s.rflags ∧
      a.gpr .rsp = s.gpr .rsp ∧ (∀ r, r ≠ .rax → r ≠ .rsp → a.gpr r = s.gpr r) ∧
      a.memory = storeWord s.memory (s.gpr .rsp - 8) s.rflags := by
    refine ⟨_, rfl, loadWord_storeWord .., UInt64.sub_add_cancel .., ?_, rfl⟩
    intro r hrax hrsp
    cases r <;> first | exact absurd rfl hrax | exact absurd rfl hrsp | rfl
  have hframe : switchHostCs = [.pushfq, .pop .rax] ++ ([.pushImm 0, .leaMem .r8 .rsp 8, .push .r8,
    .push .rax, .alu .and .rcx (.imm 0xFFFF), .push .rcx, .lea .rax .csDone, .push .rax] ++
      [.iretq]) := rfl
  -- The five words of the frame.
  let frame : List UInt64 :=
    [host.addressOf .csDone, s.gpr .rcx &&& 0xFFFF, s.rflags, s.gpr .rsp, 0]
  obtain ⟨c, hsecond, hmemoryc, hrspc, hgprc⟩ : ∃ c,
      run (exec host) [.pushImm 0, .leaMem .r8 .rsp 8, .push .r8, .push .rax,
        .alu .and .rcx (.imm 0xFFFF), .push .rcx, .lea .rax .csDone, .push .rax] a =
          some (c, none) ∧
      c.memory = (pushWords a frame).memory ∧ c.gpr .rsp = (pushWords a frame).gpr .rsp ∧
      ∀ r ∈ nonvolatileGprs, c.gpr r = a.gpr r := by
    have hback : a.gpr .rsp - 8 + 8 = s.gpr .rsp := (UInt64.sub_add_cancel ..).trans hrsp
    have hrcx : a.gpr .rcx = s.gpr .rcx := hgpr .rcx (by decide) (by decide)
    refine ⟨_, rfl, ?_, rfl, ?_⟩
    · show (pushWords a [host.addressOf .csDone, a.gpr .rcx &&& 0xFFFF, a.gpr .rax,
        a.gpr .rsp - 8 + 8, 0]).memory = _
      rw [hback, hrcx, hrax]
    · intro r hr
      simp only [nonvolatileGprs, List.mem_cons, List.not_mem_nil, or_false] at hr
      rcases hr with rfl | rfl | rfl | rfl | rfl | rfl | rfl | rfl <;> rfl
  have hpushed := pushed_pushWords a frame
  have hwords := hpushed.words 0 (show 8 * (5 + 0) ≤ 2 ^ 64 by decide)
  rw [← hmemoryc, ← hrspc] at hwords
  have hiretq : run (exec host) [.iretq] c = some
      ({ c.set .rsp (s.gpr .rsp) with
          rflags := s.rflags
          cs := s.gpr .rcx &&& 0xFFFF
          ss := 0 }, some (.iretq (host.addressOf .csDone))) := by
    rw [run, exec_iretq host hwords]
  rw [hframe, run_append _ hfirst, run_append _ hsecond]
  refine ⟨_, hiretq, rfl, rfl, rfl, ?_, ?_, ?_⟩
  · rw [set_gpr, Function.update_self]
  · intro r hr
    have hne : r ≠ .rax ∧ r ≠ .rsp := by
      constructor <;> rintro rfl <;> exact absurd hr (by decide)
    rw [set_gpr_of_ne c _ hne.2, hgprc r hr, hgpr r hne.1 hne.2]
  · intro x hx
    show c.memory x = s.memory x
    have hbase : (pushWords a frame).gpr .rsp = s.gpr .rsp - 40 := by
      have hadd := hpushed.rsp
      rw [hrsp] at hadd
      rw [← hadd]
      exact (UInt64.add_sub_cancel ..).symm
    rw [hmemoryc, hpushed.memory x (by rw [hbase]; exact hx), hmemory]
    refine store_outside ?_
    have hpart : Outside (s.gpr .rsp - 8) 8 x := by
      refine hx.part (o := 32) ?_ (by decide)
      simp only [UInt64.sub_eq_add_neg, UInt64.add_assoc]
      rfl
    rw [length_leBytes]
    exact hpart

end Revhv.Launch
