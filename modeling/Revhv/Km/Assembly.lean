import Mathlib.Logic.Function.Basic
import Revhv.Km.Exception
import Revhv.Lib.StraightLine
import Revhv.Lib.StackFrame

/-!
# `Revhv.Km.Assembly`: the processor under the assembly files

The instructions that `revhv-km/vmexit_stub.asm`, `revhv-km/isr.asm`,
`revhv-km/exception_wrappers.asm`, `revhv-km/stealth_util.asm`,
`revhv-km/vmlaunch_stub.asm` and `revhv-km/utils.asm` are written in, and what
they do to a core in VMX root operation or in the guest.

Of the status flags only ZF is kept up to date, since no instruction there
looks at another. A C function that is called is a parameter, and so is what
the processor does when it attempts an instruction that may fault.
-/

set_option autoImplicit false

namespace Revhv.Asm

open Revhv.Exception
open Revhv.Lib Revhv.Lib.RecordLayout Revhv.Lib.StackFrame

/-- The general registers. -/
inductive Gpr where
  | rax | rcx | rdx | rbx | rsp | rbp | rsi | rdi
  | r8 | r9 | r10 | r11 | r12 | r13 | r14 | r15
  deriving DecidableEq

/-- The control and debug registers that are moved. -/
inductive SysReg where
  | cr2 | cr8 | dr0 | dr1 | dr2 | dr3 | dr6
  deriving DecidableEq

/-- A core. `tsc` are the values that RDTSC is still to read. -/
structure Cpu where
  gpr : Gpr → UInt64
  sys : SysReg → UInt64
  xmm : Fin 16 → BitVec 128
  mxcsr : UInt32
  rflags : UInt64
  cs : UInt64
  ss : UInt64
  fsBase : UInt64
  memory : UInt64 → UInt8
  vmcs : UInt64 → UInt64
  tsc : Nat → UInt64

/-- The second operand of an arithmetic instruction. -/
inductive Operand where
  | reg (r : Gpr)
  | imm (value : UInt64)
  | mem (base : Gpr) (offset : UInt64)

/-- The operations of two operands that write the first. -/
inductive AluOp where
  | add | sub | and | or | xor | shl | shr

/-- The instructions that a wrapper attempts. -/
inductive Attempt where
  | rdmsr | wrmsr | invd | xsetbv | repMovsb
  deriving DecidableEq

/-- An instruction. `ι` are the labels of its procedure. -/
inductive Instr (ι : Type) where
  | mov (d r : Gpr)
  | movImm (d : Gpr) (value : UInt64)
  /-- The 32-bit move, which clears the upper half. -/
  | mov32 (d r : Gpr)
  | lea (d : Gpr) (label : ι)
  | leaMem (d base : Gpr) (offset : UInt64)
  | load (d base : Gpr) (offset : UInt64)
  | store (base : Gpr) (offset : UInt64) (r : Gpr)
  | loadXmm (x : Fin 16) (base : Gpr) (offset : UInt64)
  | storeXmm (base : Gpr) (offset : UInt64) (x : Fin 16)
  | ldmxcsr (base : Gpr) (offset : UInt64)
  | stmxcsr (base : Gpr) (offset : UInt64)
  | readSys (d : Gpr) (c : SysReg)
  | writeSys (c : SysReg) (r : Gpr)
  | push (r : Gpr)
  | pushImm (value : UInt64)
  | pushfq
  | pop (d : Gpr)
  | alu (op : AluOp) (d : Gpr) (src : Operand)
  | cmp (r : Gpr) (src : Operand)
  /-- The 32-bit comparison with a constant. -/
  | cmp32 (r : Gpr) (value : UInt32)
  | test (r r' : Gpr)
  | lfence
  | rdtsc
  | rdfsbase (d : Gpr)
  | vmread (d field : Gpr)
  | vmwrite (field r : Gpr)
  | call
  | attempt (a : Attempt)
  | jne (label : ι)
  | jmp (label : ι)
  | cpuid
  | vmlaunch
  | vmresume
  | ret
  | iretq
  | int3

/-- How a straight line is left. -/
inductive Exit (ι : Type) where
  | jump (label : ι)
  | fault (exception : HostException) (errorCode : UInt64)
  /-- CPUID in the guest. -/
  | vmexit
  | vmlaunch
  | vmresume
  | ret (address : UInt64)
  | iretq (rip : UInt64)

/-- What is around a procedure: where its labels are, the C function
that it calls, and the instructions that it attempts. -/
structure Host (ι : Type) where
  addressOf : ι → UInt64
  callee : Cpu → Option Cpu
  attempt : Attempt → Cpu → Cpu × Option (HostException × UInt64)

/-- The core with another value in a general register. -/
def Cpu.set (s : Cpu) (d : Gpr) (value : UInt64) : Cpu :=
  { s with gpr := Function.update s.gpr d value }

/-- The core with another memory. -/
def Cpu.withMemory (s : Cpu) (memory : UInt64 → UInt8) : Cpu := { s with memory }

/-- ZF, bit 6 of RFLAGS. -/
def Cpu.zf (s : Cpu) : Bool := s.rflags &&& 0x40 != 0

/-- The core with another ZF. -/
def Cpu.withZf (s : Cpu) (zf : Bool) : Cpu :=
  { s with rflags := if zf then s.rflags ||| 0x40 else s.rflags &&& ~~~0x40 }

/-- The result of an operation on two 64-bit values. -/
def AluOp.eval : AluOp → UInt64 → UInt64 → UInt64
  | .add, a, b => a + b
  | .sub, a, b => a - b
  | .and, a, b => a &&& b
  | .or, a, b => a ||| b
  | .xor, a, b => a ^^^ b
  | .shl, a, b => a <<< b
  | .shr, a, b => a >>> b

/-- The value of an operand, with a word of memory for an address. -/
def Operand.value (s : Cpu) : Operand → UInt64
  | .reg r => s.gpr r
  | .imm value => value
  | .mem base offset => loadWord s.memory (s.gpr base + offset)

/-- PUSH of a value. -/
def Cpu.pushWord (s : Cpu) (value : UInt64) : Cpu :=
  let rsp := s.gpr .rsp - 8
  { s.set .rsp rsp with memory := storeWord s.memory rsp value }

/-- The word on top of the stack. -/
def Cpu.top (s : Cpu) : UInt64 := loadWord s.memory (s.gpr .rsp)

/-- The core without the word on top of its stack. -/
def Cpu.dropWord (s : Cpu) : Cpu := s.set .rsp (s.gpr .rsp + 8)

/-- MOVAPS, which faults on an address that is not a multiple of 16. -/
def aligned (address : UInt64) : Bool := address.toNat % 16 == 0

section
variable {ι : Type} (host : Host ι)

/-- One instruction. `none` is a fault that no wrapper expects. -/
def exec : Instr ι → Cpu → Option (Cpu × Option (Exit ι))
  | .mov d r, s => some (s.set d (s.gpr r), none)
  | .movImm d value, s => some (s.set d value, none)
  | .mov32 d r, s => some (s.set d (UInt64.ofNat ((s.gpr r).toNat % 2 ^ 32)), none)
  | .lea d label, s => some (s.set d (host.addressOf label), none)
  | .leaMem d base offset, s => some (s.set d (s.gpr base + offset), none)
  | .load d base offset, s => some (s.set d (loadWord s.memory (s.gpr base + offset)), none)
  | .store base offset r, s =>
    some (s.withMemory (storeWord s.memory (s.gpr base + offset) (s.gpr r)), none)
  | .loadXmm x base offset, s =>
    let address := s.gpr base + offset
    if aligned address then
      let value := BitVec.ofNat 128 (leValue 16 (bytesAt s.memory address 16))
      some ({ s with xmm := Function.update s.xmm x value }, none)
    else none
  | .storeXmm base offset x, s =>
    let address := s.gpr base + offset
    if aligned address then
      some (s.withMemory (store s.memory address (leBytes 16 (s.xmm x).toNat)), none)
    else none
  | .ldmxcsr base offset, s =>
    let value := UInt32.ofNat (leValue 4 (bytesAt s.memory (s.gpr base + offset) 4))
    some ({ s with mxcsr := value }, none)
  | .stmxcsr base offset, s =>
    some (s.withMemory (store s.memory (s.gpr base + offset) (leBytes 4 s.mxcsr.toNat)), none)
  | .readSys d c, s => some (s.set d (s.sys c), none)
  | .writeSys c r, s => some ({ s with sys := Function.update s.sys c (s.gpr r) }, none)
  | .push r, s => some (s.pushWord (s.gpr r), none)
  | .pushImm value, s => some (s.pushWord value, none)
  | .pushfq, s => some (s.pushWord s.rflags, none)
  | .pop d, s => some (s.dropWord.set d s.top, none)
  | .alu op d src, s =>
    let value := op.eval (s.gpr d) (src.value s)
    some ((s.set d value).withZf (value == 0), none)
  | .cmp r src, s => some (s.withZf (s.gpr r == src.value s), none)
  | .cmp32 r value, s => some (s.withZf ((s.gpr r).toNat % 2 ^ 32 == value.toNat), none)
  | .test r r', s => some (s.withZf (s.gpr r &&& s.gpr r' == 0), none)
  | .lfence, s => some (s, none)
  | .rdtsc, s =>
    let now := (s.tsc 0).toNat
    some ({ (s.set .rax (UInt64.ofNat (now % 2 ^ 32))).set .rdx (UInt64.ofNat (now / 2 ^ 32)) with
      tsc := fun k => s.tsc (k + 1) }, none)
  | .rdfsbase d, s => some (s.set d s.fsBase, none)
  -- VMREAD and VMWRITE clear the status flags when they succeed.
  | .vmread d field, s => some ((s.set d (s.vmcs (s.gpr field))).withZf false, none)
  | .vmwrite field r, s =>
    some (({ s with vmcs := Function.update s.vmcs (s.gpr field) (s.gpr r) } : Cpu).withZf false,
      none)
  | .call, s => (host.callee s).map fun s => (s, none)
  | .attempt a, s =>
    match host.attempt a s with
    | (s, none) => some (s, none)
    | (s, some (exception, errorCode)) => some (s, some (.fault exception errorCode))
  | .jne label, s => some (s, if s.zf then none else some (.jump label))
  | .jmp label, s => some (s, some (.jump label))
  | .cpuid, s => some (s, some .vmexit)
  | .vmlaunch, s => some (s, some .vmlaunch)
  | .vmresume, s => some (s, some .vmresume)
  | .ret, s => some (s.dropWord, some (.ret s.top))
  | .iretq, s =>
    let word k := loadWord s.memory (s.gpr .rsp + UInt64.ofNat (8 * k))
    some ({ s.set .rsp (word 3) with rflags := word 2, cs := word 1, ss := word 4 },
      some (.iretq (word 0)))
  | .int3, _ => none

end

end Revhv.Asm
