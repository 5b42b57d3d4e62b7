import Revhv.Lib.Machine

/-!
# `Revhv.Km.Stealth`: the TSC offset across VM exits

`vmexit_stub` (`revhv-km/vmexit_stub.asm`), the part of `handler`
(`revhv-km/vmexit.cpp`) that chooses whether an exit is hidden, and
`on_vmexit` (`revhv-km/stealth.cpp`). There are two copies of the
offset: `tsc_offset` in `tsc_data`, and the field in the VMCS that the
processor adds to the hardware TSC.

`VmExit` gives an exit with the hardware TSC at its stations. The
hardware TSC is a number below `2 ^ 64` that never decreases.
`VmExit.Possible` states this, and that the measured overheads are not
larger than the real ones.
-/

set_option autoImplicit false

namespace Revhv.Stealth

open Revhv.Lib

/-- `tsc_data`. -/
structure TscData where
  tscOffset : BitVec 64
  storedTsc : BitVec 64
  vmexitToStoreOverhead : BitVec 64
  instructionOverhead : BitVec 64
  vmentryOverhead : BitVec 64
  deriving DecidableEq

/-- The fields of a vCPU that concern its TSC, and the VMCS field
`VMCS_CTRL_TSC_OFFSET`. -/
structure TscVcpu where
  tscData : TscData
  benchCompleted : Bool
  preemptionTimerEnabled : Bool
  vmcsTscOffset : BitVec 64
  deriving DecidableEq

/-- The exit reasons `handler` tells apart as far as the TSC is
concerned. -/
inductive ExitReason where
  | cpuid
  | rdmsr
  | wrmsr
  | xsetbv
  | movCr
  | preemptionTimerExpired
  /-- The reasons whose overhead is not hidden. -/
  | other
  deriving DecidableEq

/-- A VM exit, with the hardware TSC at its stations. -/
structure VmExit where
  reason : ExitReason
  /-- RCX of the guest. -/
  rcx : BitVec 64
  /-- The guest stops for the exit. -/
  exitTsc : Nat
  /-- The processor stores `IA32_TIME_STAMP_COUNTER` among the exit
  MSRs. -/
  storedTsc : Nat
  /-- What the handler measures for the instruction itself. -/
  measuredOverhead : BitVec 64
  /-- RDTSC of `update_tsc_offset`. -/
  finalTsc : Nat
  /-- The guest goes on. -/
  entryTsc : Nat

/-- The key of the benchmark, `RVHVBNCH`. -/
def benchKey : BitVec 64 := 0x52564856424E4348

/-- `on_vmexit`. -/
def onVmexit (v : TscVcpu) (exit : VmExit) : TscVcpu :=
  { v with
    tscData := { v.tscData with
      storedTsc := BitVec.ofNat 64 exit.storedTsc
      instructionOverhead := 0 } }

/-- The vCPU with another `instruction_overhead`. -/
def TscVcpu.withInstructionOverhead (v : TscVcpu) (overhead : BitVec 64) : TscVcpu :=
  { v with tscData := { v.tscData with instructionOverhead := overhead } }

/-- The switch of `handler`, and whether it asks for the overhead to be
hidden. -/
def handleReason (v : TscVcpu) (exit : VmExit) : TscVcpu × Bool :=
  match exit.reason with
  | .cpuid | .rdmsr | .wrmsr | .xsetbv => (v.withInstructionOverhead exit.measuredOverhead, true)
  | .movCr => (v.withInstructionOverhead 100, true)
  | .preemptionTimerExpired =>
      ({ v with
        tscData := { v.tscData with tscOffset := 0 }
        vmcsTscOffset := 0
        preemptionTimerEnabled := false }, false)
  | .other => (v, false)

/-- `handler`. The answer is whether `return_data` is not null. -/
def handler (v : TscVcpu) (exit : VmExit) : TscVcpu × Bool :=
  let (v, hide) := handleReason (onVmexit v exit) exit
  if hide && v.benchCompleted then ({ v with preemptionTimerEnabled := true }, true)
  else (v, false)

/-- `update_tsc_offset`. -/
def updateTscOffset (v : TscVcpu) (finalTsc : BitVec 64) : TscVcpu :=
  let desiredTsc := v.tscData.storedTsc + v.tscData.instructionOverhead -
    v.tscData.vmentryOverhead - v.tscData.vmexitToStoreOverhead
  let tscOffset := v.tscData.tscOffset - (finalTsc - desiredTsc)
  { v with tscData := { v.tscData with tscOffset }, vmcsTscOffset := tscOffset }

/-- The exit takes the fast path for timing benchmarks. -/
def VmExit.fastPath (exit : VmExit) : Bool := exit.reason == .cpuid && exit.rcx == benchKey

/-- `vmexit_stub`, from the exit to the VM entry. -/
def vmexitStub (v : TscVcpu) (exit : VmExit) : TscVcpu :=
  -- The dummy VMWRITE of the fast path goes to the field itself.
  if exit.fastPath then { v with vmcsTscOffset := BitVec.allOnes 64 }
  else
    match handler v exit with
    | (v, true) => updateTscOffset v (BitVec.ofNat 64 exit.finalTsc)
    | (v, false) => v

/-- A vCPU whose guest runs, and the hardware TSC. -/
structure TscState where
  vcpu : TscVcpu
  now : Nat
  deriving DecidableEq

/-- What the guest reads from the TSC while the hardware has `tsc`. -/
def TscState.guestTscAt (s : TscState) (tsc : Nat) : Nat :=
  (BitVec.ofNat 64 tsc + s.vcpu.vmcsTscOffset).toNat

/-- What the guest reads right behind the VM entry. -/
def TscState.guestTsc (s : TscState) : Nat := s.guestTscAt s.now

/-- The hardware TSC does not decrease. If the exit is hidden, its real
overheads are not below the measured ones, and the final RDTSC is not
before `desired_tsc`. -/
structure VmExit.Possible (s : TscState) (exit : VmExit) : Prop where
  exited : s.now ≤ exit.exitTsc
  stored : exit.exitTsc ≤ exit.storedTsc
  final : exit.storedTsc ≤ exit.finalTsc
  entered : exit.finalTsc ≤ exit.entryTsc
  entry_lt : exit.entryTsc < 2 ^ 64
  vmexitToStore : (handler s.vcpu exit).2 = true →
    exit.exitTsc + s.vcpu.tscData.vmexitToStoreOverhead.toNat ≤ exit.storedTsc
  vmentry : (handler s.vcpu exit).2 = true →
    exit.finalTsc + s.vcpu.tscData.vmentryOverhead.toNat ≤ exit.entryTsc
  desired : (handler s.vcpu exit).2 = true →
    exit.storedTsc + (handler s.vcpu exit).1.tscData.instructionOverhead.toNat ≤
      exit.finalTsc + s.vcpu.tscData.vmentryOverhead.toNat +
        s.vcpu.tscData.vmexitToStoreOverhead.toNat

/-- What a real exit has to meet is a comparison of counters. -/
instance (s : TscState) (exit : VmExit) : Decidable (exit.Possible s) :=
  decidable_of_iff
    (s.now ≤ exit.exitTsc ∧ exit.exitTsc ≤ exit.storedTsc ∧ exit.storedTsc ≤ exit.finalTsc ∧
      exit.finalTsc ≤ exit.entryTsc ∧ exit.entryTsc < 2 ^ 64 ∧
      ((handler s.vcpu exit).2 = true →
        exit.exitTsc + s.vcpu.tscData.vmexitToStoreOverhead.toNat ≤ exit.storedTsc) ∧
      ((handler s.vcpu exit).2 = true →
        exit.finalTsc + s.vcpu.tscData.vmentryOverhead.toNat ≤ exit.entryTsc) ∧
      ((handler s.vcpu exit).2 = true →
        exit.storedTsc + (handler s.vcpu exit).1.tscData.instructionOverhead.toNat ≤
          exit.finalTsc + s.vcpu.tscData.vmentryOverhead.toNat +
            s.vcpu.tscData.vmexitToStoreOverhead.toNat))
    ⟨fun ⟨h₁, h₂, h₃, h₄, h₅, h₆, h₇, h₈⟩ => ⟨h₁, h₂, h₃, h₄, h₅, h₆, h₇, h₈⟩,
      fun h => ⟨h.exited, h.stored, h.final, h.entered, h.entry_lt, h.vmexitToStore, h.vmentry,
        h.desired⟩⟩

/-- A core from VM entry to VM entry. -/
def tscMachine : Machine TscState VmExit where
  next s exit :=
    if exit.Possible s then some ⟨vmexitStub s.vcpu exit, exit.entryTsc⟩ else none

/-- A core whose two offsets are zero, as after the launch or a re-sync.
The benchmark may have been run or not. -/
def TscState.initial (tscData : TscData) (benchCompleted preemptionTimerEnabled : Bool)
    (tsc : BitVec 64) : TscState where
  vcpu :=
    { tscData := { tscData with tscOffset := 0 }
      benchCompleted
      preemptionTimerEnabled
      vmcsTscOffset := 0 }
  now := tsc.toNat

end Revhv.Stealth
