import Revhv.Km.VmexitStub

/-!
# `Revhv.Km.Benchmark`: measuring the VMX transitions

`stealth_vmexit_bench_one` (`revhv-km/stealth_util.asm`) and `bench_tsc_overhead`
(`revhv-km/stealth.cpp`). The guest reads the TSC, executes CPUID with the key of the benchmark
in RCX, and reads the TSC again where the exit stub has sent it.

A guest and the host below it are two cores that take turns. They share the registers that the
processor does not switch, and the hardware TSC: a guest reads it with the offset of the VMCS.
-/

set_option autoImplicit false

namespace Revhv.Benchmark

open Revhv.Asm
open Revhv.Lib.StackFrame Revhv.Lib.StraightLine
open Revhv.VmexitStub (benchKey exitReasonCpuid vmcsCtrlTscOffset vmcsExitReason vmcsGuestRip)

/-- The label of `stealth_vmexit_bench_one`. -/
inductive Label where
  | nextRip
  deriving DecidableEq

/-! ### The code -/

/-- `stealth_vmexit_bench_one`, up to the CPUID. -/
def untilCpuid : List (Instr Label) :=
  [.push .rbx, .push .rcx, .lea .r8 .nextRip, .movImm .rcx benchKey, .lfence, .rdtsc, .lfence,
    .alu .shl .rdx (.imm 32), .alu .or .rax (.reg .rdx), .mov .r10 .rax, .lfence, .cpuid]

/-- `next_rip`. -/
def fromNextRip : List (Instr Label) :=
  [.lfence, .rdtsc, .lfence, .alu .shl .rdx (.imm 32), .alu .or .rax (.reg .rdx),
    .mov .rbx .rax, .alu .sub .rbx (.reg .r9), .pop .rcx, .store .rcx 0 .rbx, .mov .rax .r10,
    .pop .rbx, .ret]

/-- The guest's code at its address. It calls nothing and expects no
fault. -/
def guestCode (nextRip : UInt64) : Host Label where
  addressOf _ := nextRip
  callee _ := none
  attempt _ s := (s, none)

/-! ### Transitions -/

/-- A guest that goes on. `h` is the core at VMRESUME, and `g` has the
guest's RSP and memory. -/
def vmEntry (h g : Cpu) : Cpu :=
  { g with
    gpr := Function.update h.gpr .rsp (g.gpr .rsp)
    sys := h.sys
    xmm := h.xmm
    mxcsr := h.mxcsr
    tsc := fun k => h.tsc k + h.vmcs vmcsCtrlTscOffset }

/-- A guest that stops at a CPUID. The processor stores the TSC and
reads it so once. -/
def vmExit (g h : Cpu) : Cpu :=
  { h with
    gpr := Function.update g.gpr .rsp (h.gpr .rsp)
    sys := g.sys
    xmm := g.xmm
    mxcsr := g.mxcsr
    vmcs := Function.update h.vmcs vmcsExitReason exitReasonCpuid
    tsc := fun k => g.tsc (k + 1) - h.vmcs vmcsCtrlTscOffset }

/-- The IA32_TIME_STAMP_COUNTER that the processor stores. -/
def storedTsc (g h : Cpu) : UInt64 := g.tsc 0 - h.vmcs vmcsCtrlTscOffset

/-- The host core, with the hardware TSC as the guest has left it. -/
def clocked (g h : Cpu) : Cpu := { h with tsc := fun k => g.tsc k - h.vmcs vmcsCtrlTscOffset }

/-- What is left by `stealth_vmexit_bench_one`. -/
structure BenchOne where
  guest : Cpu
  returnAddress : UInt64
  host : Cpu
  storedTsc : UInt64

variable (nextRip : UInt64) (host : Host VmexitStub.Label)

/-- `stealth_vmexit_bench_one`, with the exit stub below it. `none` is a
fault, or a guest that is sent elsewhere. -/
def stealthVmexitBenchOne (g h : Cpu) : Option BenchOne :=
  match runCode (exec (guestCode nextRip)) (fun _ => none) 100 untilCpuid g with
  | some (g, .vmexit) =>
    match VmexitStub.vmexitStub host (vmExit g h) with
    | some (h', .vmresume) =>
      -- The stub has to hand the guest back behind the CPUID.
      if h'.vmcs vmcsGuestRip = nextRip then
        match runCode (exec (guestCode nextRip)) (fun _ => none) 100 fromNextRip (vmEntry h' g) with
        | some (g', .ret address) => some ⟨g', address, clocked g' h', storedTsc g h⟩
        | _ => none
      else none
    | _ => none
  | _ => none

/-! ### The benchmark -/

/-- The overheads in `tsc_data` that are measured. -/
structure Overheads where
  vmexitToStore : UInt64
  vmentry : UInt64
  deriving DecidableEq

/-- What an iteration has measured: the answer of
`stealth_vmexit_bench_one`, the TSC stored at the exit, and
`vmentry_overhead`. -/
structure Sample where
  preExitTsc : UInt64
  storedTsc : UInt64
  vmentryOverhead : UInt64

/-- The minimum so far, where zero is none. -/
def lower (least x : UInt64) : UInt64 := if x < least ∨ least = 0 then x else least

/-- The body of the measuring loop. -/
def Overheads.measure (o : Overheads) (x : Sample) : Overheads where
  vmexitToStore := lower o.vmexitToStore (x.storedTsc - x.preExitTsc)
  vmentry := lower o.vmentry x.vmentryOverhead

/-- Iterations `k`, `k + 1`, … of the benchmark, `n` of them. `callers`
are the guest's states where the function is called, with a pointer to
`vmentry_overhead` in RCX. -/
def samples (callers : Nat → Cpu) : (n k : Nat) → Cpu → Option (List Sample × Cpu)
  | 0, _, h => some ([], h)
  | n + 1, k, h => do
    let g := { callers k with tsc := fun i => h.tsc i + h.vmcs vmcsCtrlTscOffset }
    let one ← stealthVmexitBenchOne nextRip host g h
    let (rest, h) ← samples callers n (k + 1) one.host
    let overhead := loadWord one.guest.memory (g.gpr .rcx)
    some (⟨one.guest.gpr .rax, one.storedTsc, overhead⟩ :: rest, h)

/-- `warmup_iterations` -/
def warmupIterations : Nat := 100

/-- `iterations` -/
def iterations : Nat := 10000

/-- `bench_tsc_overhead`. -/
def benchTscOverhead (callers : Nat → Cpu) (h : Cpu) : Option (Overheads × Cpu) := do
  let (_, h) ← samples nextRip host callers warmupIterations 0 h
  let (xs, h) ← samples nextRip host callers iterations warmupIterations h
  some (xs.foldl Overheads.measure ⟨0, 0⟩, h)

end Revhv.Benchmark
