import Revhv.Proofs.ConfigMirror
import Revhv.Proofs.EnableFailure

/-!
# `Revhv.Proofs.BroadcastOutcome`: what a broadcast leaves behind

A broadcast reports a refusal and takes nothing back. What it leaves on
a core depends on that core alone.

* `EnableOutcome` and `ConfigOutcome`: what the two broadcasts leave on
  a core that accepts, and on one that refuses.
* `broadcasts_per_core`: both hold on every core, and a broadcast
  returns `false` exactly when some core refuses.
* `enable_keeps_accepted`: a core that stays armed after a broadcast
  that has returned `false`, and a core that keeps a new config.
-/

set_option autoImplicit false

namespace Revhv.Hypercall

open Revhv.AtConfig Revhv.EnableFailure Revhv.Ept Revhv.Lib Revhv.Memory Revhv.Trace
open Revhv.TransitionCfg Revhv.Vcpu Revhv.Vmexit

/-! ### One core -/

/-- The call reaches the hypervisor, and a session can be started on the
range. -/
def EnableAccepts (systemCr3 : Nat) (site : CallSite) (targetVa targetSize : UInt64)
    (v : Vcpu) : Prop :=
  site.delivered = true ∧
    Traceable v.ept.normal site.tables systemCr3 targetVa.toNat targetSize.toNat

/-- What `auto_trace_enable` leaves on a core. The views of a core that
refuses in the middle of a session are not spoken of. -/
structure EnableOutcome (systemCr3 : Nat) (site : CallSite) (targetVa targetSize : UInt64)
    (v v' : Vcpu) : Prop where
  accepted : EnableAccepts systemCr3 site targetVa targetSize v →
    v'.views = v.views.suspend.trace
      (tracedPages site.tables systemCr3 targetVa.toNat targetSize.toNat) ∧
    v'.inNormalExecution = true ∧ v'.traceBuffer = activate v.traceBuffer
  refused : ¬ EnableAccepts systemCr3 site targetVa targetSize v →
    v'.traceBuffer = v.traceBuffer ∧ v'.inNormalExecution = v.inNormalExecution
  unaffected : ¬ EnableAccepts systemCr3 site targetVa targetSize v →
    site.delivered = false ∨ Quiet v → Unaffected v v'
  cfgs : v'.transitionCfgs = v.transitionCfgs

/-- What `config_ept_transition` leaves on a core. -/
structure ConfigOutcome (site : CallSite) (req : ConfigRequest) (v v' : Vcpu) : Prop where
  accepted : Accepts site req v → configured v.transitionCfgs req = some v'.transitionCfgs
  refused : ¬ Accepts site req v → v'.transitionCfgs = v.transitionCfgs
  ept : v'.ept = v.ept
  inNormal : v'.inNormalExecution = v.inNormalExecution
  pointer : v'.eptPointer = v.eptPointer
  ring : v'.traceBuffer = v.traceBuffer

/-- A core that nothing was done to is unaffected. -/
theorem unaffected_refl (v : Vcpu) : Unaffected v v where
  normal _ := Or.inl rfl
  target _ := Or.inl rfl
  hooks := ⟨rfl, rfl⟩
  inNormal := rfl
  pointer := rfl
  ring := rfl

/-- An enable leaves the config tables alone. -/
theorem transitionCfgs_handleEnableAutoTrace (systemCr3 : Nat) (tables : Tables) (v : Vcpu) :
    (handleEnableAutoTrace systemCr3 tables v).transitionCfgs = v.transitionCfgs := by
  unfold handleEnableAutoTrace
  generalize enableAutoTrace _ _ _ _ _ = answer
  cases answer with
  | ok views => rfl
  | error views => rfl

/-- The call of `auto_trace_enable` on one core: its outcome and its
answer. -/
theorem enableCall_outcome {v : Vcpu} (h : v.WF) (systemCr3 : Nat) (site : CallSite)
    (targetVa targetSize : UInt64) :
    EnableOutcome systemCr3 site targetVa targetSize v
      (enableCall systemCr3 site targetVa targetSize v).1 ∧
    ((enableCall systemCr3 site targetVa targetSize v).2 = true ↔
      EnableAccepts systemCr3 site targetVa targetSize v) := by
  cases hdelivered : site.delivered with
  | false =>
    have hrefused : ¬ EnableAccepts systemCr3 site targetVa targetSize v := by
      intro haccepts
      have htrue := haccepts.1
      rw [hdelivered] at htrue
      cases htrue
    have hcall : enableCall systemCr3 site targetVa targetSize v = (v, false) := by
      simp only [enableCall, vmcall, hdelivered, Bool.false_eq_true, if_false]
    rw [hcall]
    exact ⟨⟨fun haccepts => absurd haccepts hrefused, fun _ => ⟨rfl, rfl⟩,
      fun _ _ => unaffected_refl v, rfl⟩, iff_of_false Bool.false_ne_true hrefused⟩
  | true =>
    -- What the hypervisor does is an exit of the vCPU.
    let ctx := { site.registers with rdx := targetVa, r8 := targetSize }
    let v' := handleEnableAutoTrace systemCr3 site.tables { v with guestContext := ctx }
    have hcall : enableCall systemCr3 site targetVa targetSize v =
        (v', v'.guestContext.rax != 0) := by
      simp only [enableCall, vmcall, hdelivered, if_true]
      rfl
    have hnext : (eptMachine systemCr3).next v (.enableAutoTrace site.tables ctx) = some v' := rfl
    have hcfgs : v'.transitionCfgs = v.transitionCfgs :=
      transitionCfgs_handleEnableAutoTrace systemCr3 site.tables _
    obtain ⟨_, hstep⟩ := next_viewStep h hnext
    rw [hcall]
    cases hstep with
    | enabled traceable _ views inNormal ring _ _ rax =>
      have haccepts : EnableAccepts systemCr3 site targetVa targetSize v :=
        ⟨hdelivered, traceable⟩
      refine ⟨⟨fun _ => ⟨views, inNormal, ring⟩, fun hrefused => absurd haccepts hrefused,
        fun hrefused => absurd haccepts hrefused, hcfgs⟩, iff_of_true ?_ haccepts⟩
      rw [rax]
      rfl
    | enableFailed traceable _ inNormal rax =>
      have hrefused : ¬ EnableAccepts systemCr3 site targetVa targetSize v := fun haccepts =>
        traceable haccepts.2
      refine ⟨⟨fun haccepts => absurd haccepts hrefused,
        fun _ => ⟨(failedEnable_frame rax).2, inNormal⟩, fun _ hquiet => ?_, hcfgs⟩,
        iff_of_false ?_ hrefused⟩
      · cases hquiet with
        | inl hlost =>
          rw [hdelivered] at hlost
          cases hlost
        | inr hquiet => exact (unaffected_iff_quiet h hnext rax).mpr hquiet
      · rw [rax]
        exact Bool.false_ne_true

/-- The call of `config_ept_transition` on one core. -/
theorem configCall_outcome (site : CallSite) (req : ConfigRequest) (v : Vcpu) :
    ConfigOutcome site req v (configCall site req v).1 := by
  have hframe : (configCall site req v).1.ept = v.ept ∧
      (configCall site req v).1.inNormalExecution = v.inNormalExecution ∧
      (configCall site req v).1.eptPointer = v.eptPointer ∧
      (configCall site req v).1.traceBuffer = v.traceBuffer := by
    unfold configCall vmcall
    split
    · cases site.readable with
      | false => exact ⟨rfl, rfl, rfl, rfl⟩
      | true =>
        cases req with
        | generic cfg => exact ⟨rfl, rfl, rfl, rfl⟩
        | exactAddr addr cfg =>
          simp only [handleAtConfigEptTransition, if_true]
          split
          · exact ⟨rfl, rfl, rfl, rfl⟩
          · exact ⟨rfl, rfl, rfl, rfl⟩
        | unknown => exact ⟨rfl, rfl, rfl, rfl⟩
    · exact ⟨rfl, rfl, rfl, rfl⟩
  obtain ⟨hept, hinNormal, hpointer, hring⟩ := hframe
  exact ⟨fun haccepts => (configCall_of_accepts haccepts).2,
    fun hrefused => (configCall_of_not_accepts hrefused).2, hept, hinNormal, hpointer, hring⟩

/-! ### All cores -/

/-- The two broadcasts on cores in any reachable state. Either returns
`false` exactly when some core refuses, and leaves every core as that
core's own answer says. Windows has to move the controller's thread to
each core that `SetThreadAffinityMask` asks for, as it does for the core
of an active processor in the group of the process. -/
theorem broadcasts_per_core {n : Nat} {place : Fin n → Fin n} (hplace : ∀ c, place c = c)
    (systemCr3 : Nat) {setup : Fin n → VcpuSetup}
    {entries : Fin n → Nat → Entry} {es : Fin n → List EptExit} {cores : Fin n → Vcpu}
    (hrun : ∀ c, (eptMachine systemCr3).run (initialVcpu (setup c) (entries c)) (es c) =
      some (cores c))
    (sites : Fin n → CallSite) (targetVa targetSize : UInt64) (req : ConfigRequest) :
    ((autoTraceEnable place systemCr3 sites targetVa targetSize cores).2 = false ↔
      ∃ c, ¬ EnableAccepts systemCr3 (sites c) targetVa targetSize (cores c)) ∧
    (∀ c, EnableOutcome systemCr3 (sites c) targetVa targetSize (cores c)
      ((autoTraceEnable place systemCr3 sites targetVa targetSize cores).1 c)) ∧
    ((configEptTransition place sites req cores).2 = false ↔
      ∃ c, ¬ Accepts (sites c) req (cores c)) ∧
    ∀ c, ConfigOutcome (sites c) req (cores c) ((configEptTransition place sites req cores).1 c) := by
  have henable := fun c =>
    enableCall_outcome (reachable_wf (hrun c)) systemCr3 (sites c) targetVa targetSize
  refine ⟨?_, fun c => ?_, ?_, fun c => ?_⟩
  · rw [autoTraceEnable, forEachCpu_placed hplace, Broadcast.broadcast_failure_iff]
    refine exists_congr fun c => ?_
    rw [← (henable c).2, Bool.not_eq_true]
  · rw [autoTraceEnable, forEachCpu_placed hplace, Broadcast.broadcast_apply]
    exact (henable c).1
  · rw [configEptTransition, forEachCpu_placed hplace, Broadcast.broadcast_failure_iff]
    refine exists_congr fun c => ?_
    rw [← configCall_snd_iff, Bool.not_eq_true]
  · rw [configEptTransition_apply hplace]
    exact configCall_outcome (sites c) req (cores c)

/-! ### Two cores, one of which refuses -/

/-- The VMCALL of the second core is not executed. -/
def halfSites (c : Fin 2) : CallSite := ⟨c == 0, true, .zero, directTables⟩

/-- Core 0 takes the range. -/
theorem plainVcpu_accepts : EnableAccepts 1 (halfSites 0) 0x1000 0x1000 plainVcpu :=
  ⟨rfl, traceable_onePage (by rw [plainVcpu_used]; decide) (by decide) (by decide)⟩

/-- The VMCALL of core 1 is not executed, which counts as a refusal. -/
theorem plainVcpu_refuses : ¬ EnableAccepts 1 (halfSites 1) 0x1000 0x1000 plainVcpu := by
  intro haccepts
  cases haccepts.1

/-- The first core keeps the session and the second is as before. -/
theorem broadcasts_per_core_half :
    let cores := fun _ : Fin 2 => plainVcpu
    let after := autoTraceEnable id 1 halfSites 0x1000 0x1000 cores
    after.2 = false ∧ (after.1 0).traceBuffer = activate plainVcpu.traceBuffer ∧
      Unaffected plainVcpu (after.1 1) := by
  intro cores after
  have hrun : ∀ c, (eptMachine 1).run (initialVcpu plainSetup fun _ => makeEntry .invalid 0 0
      fun _ => 0) [] = some (cores c) := fun _ => rfl
  obtain ⟨hreport, houtcome, _⟩ :=
    broadcasts_per_core placed_id 1 hrun halfSites 0x1000 0x1000 quietRequest
  exact ⟨hreport.mpr ⟨1, plainVcpu_refuses⟩, ((houtcome 0).accepted plainVcpu_accepts).2.2,
    (houtcome 1).unaffected plainVcpu_refuses (Or.inl rfl)⟩

/-- Both broadcasts return `false`. The first core is left armed with an
active ring, which it has not been before, and with a new capture
config. -/
theorem broadcast_keeps_accepted :
    let cores := fun _ : Fin 2 => plainVcpu
    let enabled := autoTraceEnable id 1 halfSites 0x1000 0x1000 cores
    let configured := configEptTransition id halfSites quietRequest cores
    enabled.2 = false ∧ (cores 0).traceBuffer.active = false ∧
      (enabled.1 0).traceBuffer.active = true ∧ (enabled.1 0).views ≠ (cores 0).views ∧
      configured.2 = false ∧
      lookupTransitionCfg (configured.1 0).transitionCfgs 0x1000 ≠
        lookupTransitionCfg (cores 0).transitionCfgs 0x1000 := by
  intro cores enabled configured
  have hfirst := (enableCall_outcome plainVcpu_wf 1 (halfSites 0) 0x1000 0x1000).1
  obtain ⟨hviews, _, hring⟩ := hfirst.accepted plainVcpu_accepts
  have hcore : enabled.1 0 = (enableCall 1 (halfSites 0) 0x1000 0x1000 plainVcpu).1 :=
    Broadcast.broadcast_apply _ cores 0
  refine ⟨?_, rfl, ?_, fun heq => ?_, ?_, ?_⟩
  · exact (Broadcast.broadcast_failure_iff _ cores).mpr ⟨1, rfl⟩
  · rw [hcore, hring]
    rfl
  · rw [hcore, hviews] at heq
    have hplain : plainVcpu.views = ⟨identityView, identityView⟩ := initialVcpu_views plainSetup _
    have htrapped := congrArg (fun w => (w.normal.map firstPage).execute) heq
    rw [show (cores 0).views = plainVcpu.views from rfl, hplain,
      show tracedPages (halfSites 0).tables 1 (0x1000 : UInt64).toNat (0x1000 : UInt64).toNat =
        [firstPage] from tracedPages_first] at htrapped
    exact absurd htrapped (by decide)
  · exact (Broadcast.broadcast_failure_iff _ cores).mpr ⟨1, rfl⟩
  · decide +kernel

end Revhv.Hypercall
