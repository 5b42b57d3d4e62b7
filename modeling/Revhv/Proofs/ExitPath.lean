import Mathlib.Data.Bool.AllAny
import Revhv.Proofs.Launch
import Revhv.Proofs.VmexitStub

/-!
# `Revhv.Proofs.ExitPath`: an exit from end to end

The processor's exit, `vmexit_stub` around the exit handler, and the processor's
entry, all on one core.

* `vmentry_handled`: the guest that the entry behind a handler goes on with.
* `exit_resumes`: what the guest has behind any exit of a launched core.
-/

set_option autoImplicit false

namespace Revhv.Launch

open Revhv.Asm Revhv.Lib.StackFrame Revhv.Memory Revhv.Segment Revhv.Vmcs
open Revhv.VmexitStub (Called Context FastPath OffsetApart Replied Resumed contextOf contextSize
  loadContext nextTscOffset vmcsCtrlTscOffset vmexitStub vmexitStub_fastPath vmexitStub_slowPath)

/-! ### The entry behind a handler -/

/-- The core with the registers of a `guest_context`. -/
def Core.withContext (g : Core) (k : Context) : Core :=
  { g with
    gpr := fun r => if r = .rsp then g.gpr .rsp else k.gpr r
    sys := k.sys
    xmm := k.xmm
    mxcsr := k.mxcsr }

/-- A core has the registers of its own context. -/
theorem withContext_contextOf (g : Core) (w : UInt64 → UInt64) :
    g.withContext (contextOf (g.cpu w)) = g := by
  have hgpr : (fun r => if r = .rsp then g.gpr .rsp else (contextOf (g.cpu w)).gpr r) = g.gpr := by
    funext r
    by_cases hr : r = .rsp
    · rw [if_pos hr, hr]
    · rw [if_neg hr]
      exact if_neg hr
  rw [Core.withContext, hgpr]
  rfl

section
variable {layout : VcpuLayout} {v : UInt64 → UInt64} (hexit : exitControls v = desiredExitCtls)
  (hentry : entryControls v = desiredEntryCtls) (hareas : MsrAreas layout v) {g : Core}
  (hlinear : g.linear layout.msrEntriesPhysical = layout.stealthData) (info : ExitInfo)
include hexit hentry hareas hlinear

/-- The guest that a VMRESUME goes on with, when only the handlers'
fields have been written since the exit, and no data of `msr_entries`. -/
theorem vmentry_handled {t : Cpu} {tsc : UInt64}
    (ht : ∀ field ∈ entryFields, field ∉ handlerFields →
      t.vmcs field = (vmexit v info g).1 field)
    (hentries : Entries layout.stealthData t.memory (g.system.msrs ia32Mperf)
      (g.system.msrs ia32Aperf) tsc) {h : Core} (hh : h.linear = g.linear) (host : System) :
    vmentry t.vmcs { h.withCpu t with system := host } =
      { g.withContext (contextOf t) with
        memory := t.memory
        tsc := t.tsc
        system := handledSystem g.system host t.vmcs } := by
  have hfst := vmexit_fst info g hexit
  have hrsp : t.vmcs guestRsp = g.gpr .rsp := by
    rw [ht guestRsp (by decide) (by decide), hfst]
    rfl
  have hrflags : t.vmcs guestRflags = g.rflags := by
    rw [ht guestRflags (by decide) (by decide), hfst]
    rfl
  have hgpr : Function.update t.gpr .rsp (g.gpr .rsp) =
      fun r => if r = .rsp then g.gpr .rsp else (contextOf t).gpr r := by
    funext r
    by_cases hr : r = .rsp
    · rw [hr, Function.update_self, if_pos rfl]
    · rw [Function.update_of_ne hr, if_neg hr, contextOf]
      exact (if_neg hr).symm
  -- The areas hold the guest's MSRs, and the handler left their addresses and
  -- counts alone.
  have hsystem := loadMsrs_vmexit hexit hentry hareas hlinear info ht hentries host
  rw [← hh] at hsystem
  show { h.withCpu t with
    gpr := Function.update t.gpr .rsp (t.vmcs guestRsp)
    rflags := t.vmcs guestRflags
    system := loadMsrs t.memory (h.linear (t.vmcs ctrlVmentryMsrLoadAddress))
      (t.vmcs ctrlVmentryMsrLoadCount) (entrySystem t.vmcs host) } = _
  rw [hsystem, hrsp, hrflags, hgpr]
  -- Everything else is as `vmresume` found it.
  show Core.mk _ t.sys t.xmm t.mxcsr g.rflags t.memory h.linear t.tsc _ = _
  rw [hh]
  rfl

end

/-! ### The whole path -/

/-- The core at `vmexit_stub`. -/
def stubEntry (v : UInt64 → UInt64) (info : ExitInfo) (g : Core) : Cpu :=
  (vmexit v info g).2.cpu (vmexit v info g).1

section
variable {layout : VcpuLayout} {v : UInt64 → UInt64} {info : ExitInfo} {g : Core}

/-- The stub starts with the registers of the guest. -/
theorem contextOf_stubEntry (hentered : HostEntered layout g (vmexit v info g).2)
    (w : UInt64 → UInt64) : contextOf (stubEntry v info g) = contextOf (g.cpu w) := by
  have hgpr : (contextOf (stubEntry v info g)).gpr = (contextOf (g.cpu w)).gpr := by
    funext r
    show (if r = .rsp then 0 else (vmexit v info g).2.gpr r) = if r = .rsp then 0 else g.gpr r
    by_cases hr : r = .rsp
    · rw [if_pos hr, if_pos hr]
    · rw [if_neg hr, if_neg hr, hentered.gpr r hr]
  have hsys : (stubEntry v info g).sys = g.sys := hentered.sys
  have hxmm : (stubEntry v info g).xmm = g.xmm := hentered.xmm
  have hmxcsr : (stubEntry v info g).mxcsr = g.mxcsr := hentered.mxcsr
  rw [contextOf, contextOf] at hgpr ⊢
  rw [Context.mk.injEq]
  exact ⟨hgpr, hsys, hxmm, hmxcsr⟩

/-- The guest's registers behind the fast path. The exit itself has read
the TSC once. -/
theorem withContext_replied (hentered : HostEntered layout g (vmexit v info g).2) {t : Cpu}
    (hreplied : Replied (stubEntry v info g) t) :
    g.withContext (contextOf t) = { g with
      gpr := Function.update (Function.update g.gpr .rax vmcsCtrlTscOffset) .r9 (g.tsc 1) } := by
  have hsys : t.sys = g.sys := hreplied.sys.trans hentered.sys
  have hxmm : t.xmm = g.xmm := hreplied.xmm.trans hentered.xmm
  have hmxcsr : t.mxcsr = g.mxcsr := hreplied.mxcsr.trans hentered.mxcsr
  have hr9 : t.gpr .r9 = g.tsc 1 := hreplied.r9.trans (congrFun hentered.tsc 0)
  -- Every register but rsp, rax and r9 has kept the value the guest had.
  have hgpr : (fun r => if r = .rsp then g.gpr .rsp else (contextOf t).gpr r) =
      Function.update (Function.update g.gpr .rax vmcsCtrlTscOffset) .r9 (g.tsc 1) := by
    funext r
    show (if r = .rsp then g.gpr .rsp else if r = .rsp then 0 else t.gpr r) = _
    by_cases hrsp : r = .rsp
    · rw [if_pos hrsp, hrsp]
      rfl
    rw [if_neg hrsp, if_neg hrsp]
    by_cases hne : r = .r9
    · rw [hne, Function.update_self, hr9]
    rw [Function.update_of_ne hne]
    by_cases hrax : r = .rax
    · rw [hrax, Function.update_self, hreplied.rax]
    rw [Function.update_of_ne hrax, hreplied.gpr r hrax hne]
    exact hentered.gpr r hrsp
  rw [Core.withContext, hgpr]
  show { g with gpr := _, sys := t.sys, xmm := t.xmm, mxcsr := t.mxcsr } = _
  rw [hsys, hxmm, hmxcsr]

end

/-- The `guest_context` that the stub puts on the host's stack is not in
`stealth_data`. -/
def FrameApart (layout : VcpuLayout) : Prop :=
  ∀ k < contextSize, Outside layout.stealthData stealthDataSize
    (hostStackTop layout - UInt64.ofNat contextSize + UInt64.ofNat k)

section
variable {layout : VcpuLayout}

/-- Nor is `stealth_data` in the context. -/
theorem FrameApart.data (h : FrameApart layout) {k : Nat} (hk : k < stealthDataSize) :
    Outside (hostStackTop layout - UInt64.ofNat contextSize) contextSize
      (layout.stealthData + UInt64.ofNat k) :=
  apart_symm (by decide) h hk

/-- A handler's answer is `tsc_data`, which is not in the context. -/
theorem FrameApart.offset (h : FrameApart layout) {d : Cpu}
    (hrax : d.gpr .rax = tscDataAddress layout.stealthData) :
    OffsetApart d (hostStackTop layout - UInt64.ofNat contextSize) := by
  intro k hk
  rw [hrax]
  exact (h k hk).part rfl (by decide)

variable {v : UInt64 → UInt64} {info : ExitInfo} {g : Core}
  (hentered : HostEntered layout g (vmexit v info g).2) (hframe : FrameApart layout)
include hentered

/-- The two words that the fast path uses are on the stack. -/
theorem replied_memory {t : Cpu} (hreplied : Replied (stubEntry v info g) t) {x : UInt64}
    (hx : Outside (hostStackTop layout - 16) 16 x) :
    t.memory x = (vmexit v info g).2.memory x := by
  have hrsp : (stubEntry v info g).gpr .rsp = hostStackTop layout := hentered.rsp
  exact hreplied.memory x (by rwa [hrsp])

include hframe

/-- The fast path leaves `msr_entries` as the exit has stored them. -/
theorem entries_replied {t : Cpu} (hreplied : Replied (stubEntry v info g) t) :
    Entries layout.stealthData t.memory (g.system.msrs ia32Mperf) (g.system.msrs ia32Aperf)
      (g.tsc 0) := by
  refine hentered.entries.congr fun k hk => replied_memory hentered hreplied ?_
  have hbase : hostStackTop layout - UInt64.ofNat contextSize + UInt64.ofNat 432 =
      hostStackTop layout - 16 := by
    simp only [UInt64.sub_eq_add_neg, UInt64.add_assoc]
    rfl
  exact (hframe.data (Nat.lt_trans hk (by decide))).part hbase (by decide)

/-- The handler finds the guest's MPERF and APERF in `msr_entries`, and
the TSC at the exit. -/
theorem entries_called {call : Cpu} (hcalled : Called (stubEntry v info g) call) :
    Entries layout.stealthData call.memory (g.system.msrs ia32Mperf) (g.system.msrs ia32Aperf)
      (g.tsc 0) := by
  have hrsp : (stubEntry v info g).gpr .rsp = hostStackTop layout := hentered.rsp
  refine hentered.entries.congr fun k hk => hcalled.memory _ ?_
  rw [hcalled.rcx, hrsp]
  exact hframe.data (Nat.lt_trans hk (by decide))

omit hentered hframe in
/-- Behind the handler, the stub writes the TSC offset at most. -/
theorem entries_resumed {d t : Cpu} {base mperf aperf tsc : UInt64} (hresumed : Resumed d t base)
    (hrax : d.gpr .rax = 0 ∨ d.gpr .rax = tscDataAddress layout.stealthData)
    (hentries : Entries layout.stealthData d.memory mperf aperf tsc) :
    Entries layout.stealthData t.memory mperf aperf tsc := by
  by_cases hzero : d.gpr .rax = 0
  · rwa [(hresumed.plain hzero).1]
  · rw [(hresumed.hidden hzero).1, hrax.resolve_left hzero]
    have haddress : tscDataAddress layout.stealthData + 0 = tscDataAddress layout.stealthData :=
      UInt64.add_zero _
    rw [haddress]
    exact hentries.storeTscOffset _

end

/-- Any exit of a launched core, from end to end. On the fast path the
guest goes on at R8 with the TSC in R9, and it has lost RAX and nothing
else. On the other path the handler is called with the guest's registers
and the vCPU, and with the guest's MPERF and APERF and the TSC in
`msr_entries`, and the guest gets the registers that the handler leaves
in the context. Its system registers are its own, MPERF and APERF
included, but for CR0 and CR4 if the handler writes them, and for the
MSRs that no entry loads. `system` is what the host's system registers
have become in the meantime. In memory the stub writes to the host's
stack and to `tsc_data` only, and the exit to `msr_entries`, which
neither the guest nor the handler may write to. An event that the
handler injects comes after this. -/
theorem exit_resumes {p : Processor} {layout : VcpuLayout} {c c' : Core}
    {restoreContext : RestoreContext} {vmcs v : UInt64 → UInt64} {exits : List Handled}
    (h : virtualize p layout c = some (restoreContext, c', vmcs))
    (hexit : ∀ bit ∈ desiredVmexit,
      allowed (capability c.system.msrs ia32VmxExitCtls ia32VmxTrueExitCtls) bit = true)
    (hentry : ∀ bit ∈ desiredVmentry,
      allowed (capability c.system.msrs ia32VmxEntryCtls ia32VmxTrueEntryCtls) bit = true)
    (hstub : ∀ field, field ≠ guestRip → field ≠ guestRsp → v field = vmcs field)
    (hwrites : ∀ e ∈ exits, ∀ write ∈ e.writes, write.1 ∈ handlerFields)
    (hframe : FrameApart layout) (info : ExitInfo) {g : Core}
    (hlinear : g.linear layout.msrEntriesPhysical = layout.stealthData)
    (hentries : HasEntries layout.stealthData g.memory) (host : Host VmexitStub.Label) :
    (FastPath (stubEntry (afterExits v exits) info g) →
      ∃ t, vmexitStub host (stubEntry (afterExits v exits) info g) = some (t, .vmresume) ∧
        t.vmcs guestRip = g.gpr .r8 ∧
        (∀ x, Outside (hostStackTop layout - 16) 16 x → Outside layout.stealthData 48 x →
          t.memory x = g.memory x) ∧
        HasEntries layout.stealthData t.memory ∧
        ∀ system, Later (vmexit (afterExits v exits) info g).2.system system →
          vmentry t.vmcs
              { (vmexit (afterExits v exits) info g).2.withCpu t with system := system } =
            { g with
              gpr := Function.update (Function.update g.gpr .rax vmcsCtrlTscOffset) .r9 (g.tsc 1)
              memory := t.memory
              tsc := t.tsc }) ∧
      (¬FastPath (stubEntry (afterExits v exits) info g) →
        ∃ call, Called (stubEntry (afterExits v exits) info g) call ∧
          loadContext call.memory (call.gpr .rcx) = contextOf (g.cpu v) ∧
          call.gpr .rdx = layout.vcpu ∧
          Entries layout.stealthData call.memory (g.system.msrs ia32Mperf)
            (g.system.msrs ia32Aperf) (g.tsc 0) ∧
          ∀ d system, host.callee call = some d → d.gpr .rsp = call.gpr .rsp →
            d.gpr .rax = 0 ∨ d.gpr .rax = tscDataAddress layout.stealthData →
            (∀ field, field ∉ handlerFields → d.vmcs field = call.vmcs field) →
            (∀ k < 48, d.memory (layout.stealthData + UInt64.ofNat k) =
              call.memory (layout.stealthData + UInt64.ofNat k)) →
              ∃ t, vmexitStub host (stubEntry (afterExits v exits) info g) =
                  some (t, .vmresume) ∧
                Resumed d t (call.gpr .rcx) ∧ t.vmcs guestRip = d.vmcs guestRip ∧
                HasEntries layout.stealthData t.memory ∧
                vmentry t.vmcs
                    { (vmexit (afterExits v exits) info g).2.withCpu t with system := system } =
                  { g.withContext (loadContext d.memory (call.gpr .rcx)) with
                    memory := t.memory
                    tsc := t.tsc
                    system := handledSystem g.system system t.vmcs }) := by
  have hkept := exitFields_launched h hexit hentry hstub hwrites
  obtain ⟨hexits, hcontrols⟩ := controls_written (s := enableVmxSystem c.system) hexit hentry hkept
  have hareas := msrAreas_launched h hkept
  have hentered := hostEntered_vmexit hexits hkept hareas hlinear hentries info
  have hsnd := vmexit_snd hareas hlinear hentries info
  have hfst := vmexit_fst info g hexits
  constructor
  · intro hfast
    obtain ⟨t, ht, hreplied⟩ := vmexitStub_fastPath host hfast
    -- The stub answers by itself, and it writes RIP and the TSC offset.
    have hother : ∀ field, field ≠ guestRip → field ≠ ctrlTscOffset →
        t.vmcs field = (vmexit (afterExits v exits) info g).1 field := by
      intro field hrip htsc
      rw [hreplied.vmcs]
      exact (Function.update_of_ne htsc _ _).trans (Function.update_of_ne hrip _ _)
    have hfields : ∀ field ∈ entryFields, field ∉ handlerFields →
        t.vmcs field = (vmexit (afterExits v exits) info g).1 field := fun field _ hhandler =>
      hother field (fun h => hhandler (h ▸ by decide)) fun h => hhandler (h ▸ by decide)
    have hcr0 : t.vmcs guestCr0 = g.system.cr0 := by
      rw [hother guestCr0 (by decide) (by decide), hfst]
      rfl
    have hcr4 : t.vmcs guestCr4 = g.system.cr4 := by
      rw [hother guestCr4 (by decide) (by decide), hfst]
      rfl
    have harea := entries_replied hentered hframe hreplied
    refine ⟨t, ht, ?_, ?_, ⟨_, _, _, harea⟩, fun system hsystem => ?_⟩
    · rw [hreplied.vmcs]
      exact hentered.gpr .r8 (by decide)
    · intro x hstack hdata
      exact (replied_memory hentered hreplied hstack).trans (hentered.memory x hdata)
    · rw [hsnd] at hsystem
      rw [vmentry_handled hexits hcontrols hareas hlinear info hfields harea hentered.linear,
        handledSystem_self hexits hsystem hcr0 hcr4, withContext_replied hentered hreplied]
  · intro hslow
    obtain ⟨call, hcalled, hreturn⟩ := vmexitStub_slowPath host hentered.aligned hslow
    have harea := entries_called hentered hframe hcalled
    refine ⟨call, hcalled, hcalled.context.trans (contextOf_stubEntry hentered v),
      hcalled.vcpu.trans hentered.vcpu, harea, ?_⟩
    intro d system hd hrsp hrax hvmcs hdata
    have hrcx : call.gpr .rcx = hostStackTop layout - UInt64.ofNat contextSize := by
      rw [hcalled.rcx]
      exact congrArg (· - UInt64.ofNat contextSize) hentered.rsp
    have hapart : d.gpr .rax ≠ 0 → OffsetApart d (call.gpr .rcx) := fun hne =>
      hrcx ▸ hframe.offset (hrax.resolve_left hne)
    obtain ⟨t, ht, hresumed, -⟩ := hreturn d hd hrsp hapart
    -- The TSC offset is the one field that the stub writes behind the handler.
    have hother : ∀ field, field ≠ ctrlTscOffset → t.vmcs field = d.vmcs field := by
      intro field htsc
      by_cases hanswer : d.gpr .rax = 0
      · rw [(hresumed.plain hanswer).2]
      · rw [(hresumed.hidden hanswer).2]
        exact Function.update_of_ne htsc _ _
    have hfields : ∀ field ∈ entryFields, field ∉ handlerFields →
        t.vmcs field = (vmexit (afterExits v exits) info g).1 field := by
      intro field _ hhandler
      rw [hother field fun h => hhandler (h ▸ by decide), hvmcs field hhandler, hcalled.vmcs]
      rfl
    have hresumedArea := entries_resumed hresumed hrax (harea.congr hdata)
    refine ⟨t, ht, hresumed, hother guestRip (by decide), ⟨_, _, _, hresumedArea⟩, ?_⟩
    rw [← hresumed.context]
    exact vmentry_handled hexits hcontrols hareas hlinear info hfields hresumedArea
      hentered.linear system

/-- A handler of CPUID that only steps over the instruction. -/
def cpuidHost : Host VmexitStub.Label where
  addressOf _ := 0
  callee s := some { s.set .rax 0 with vmcs := Function.update s.vmcs guestRip 0x5002 }
  attempt _ s := (s, none)

/-- A CPUID of the guest: the stub resumes it behind the instruction. -/
theorem exit_resumes_cpuid :
    ∃ t, vmexitStub cpuidHost (stubEntry launchedVmcs sampleInfo launchedCore) =
        some (t, .vmresume) ∧ t.vmcs guestRip = 0x5002 ∧
      vmentry t.vmcs
          { (vmexit launchedVmcs sampleInfo launchedCore).2.withCpu t with
            system := (vmexit launchedVmcs sampleInfo launchedCore).2.system } =
        { launchedCore with
          memory := t.memory
          tsc := t.tsc
          system := handledSystem launchedCore.system
            (vmexit launchedVmcs sampleInfo launchedCore).2.system t.vmcs } := by
  have hwrites : ∀ e ∈ ([] : List Handled), ∀ write ∈ e.writes, write.1 ∈ handlerFields := by simp
  have hframe : FrameApart sampleLayout := by
    have hall : ∀ k < contextSize, stealthDataSize ≤ (hostStackTop sampleLayout -
        UInt64.ofNat contextSize + UInt64.ofNat k - sampleLayout.stealthData).toNat := by
      decide +kernel
    exact hall
  -- Without the benchmark's key the exit goes to the handler.
  have hslow : ¬FastPath (stubEntry launchedVmcs sampleInfo launchedCore) :=
    fun hfast => absurd hfast.2 (show (0x7010 : UInt64) ≠ VmexitStub.benchKey by decide)
  obtain ⟨call, -, hcontext, -, -, hreturn⟩ := (exit_resumes virtualize_sample (by decide +kernel)
    (by decide +kernel) (fun _ _ _ => rfl) hwrites hframe sampleInfo (g := launchedCore)
    (by decide) hasEntries_launchedCore cpuidHost).2 hslow
  -- The handler's only VMCS write advances the guest's rip.
  have hkept : ∀ field, field ∉ handlerFields →
      Function.update call.vmcs guestRip 0x5002 field = call.vmcs field := by
    intro field hfield
    refine Function.update_of_ne ?_ _ _
    rintro rfl
    exact absurd hfield (by decide)
  obtain ⟨t, ht, -, hrip, -, hguest⟩ := hreturn _
    (vmexit launchedVmcs sampleInfo launchedCore).2.system rfl rfl (.inl rfl) hkept fun _ _ => rfl
  have hsame : launchedCore.withContext (loadContext call.memory (call.gpr .rcx)) =
      launchedCore := by
    rw [hcontext, withContext_contextOf]
  exact ⟨t, ht, hrip, hguest.trans (congrArg (fun k : Core => { k with
    memory := t.memory
    tsc := t.tsc
    system := handledSystem launchedCore.system
      (vmexit launchedVmcs sampleInfo launchedCore).2.system t.vmcs }) hsame)⟩

end Revhv.Launch
