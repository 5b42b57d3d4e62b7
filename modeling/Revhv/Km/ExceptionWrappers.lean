import Revhv.Km.Isr

/-!
# `Revhv.Km.ExceptionWrappers`: instructions that may fault

The five wrappers of `revhv-km/exception_wrappers.asm`. Each leaves the address of one
instruction in R14 and that of its own end in R15. When the instruction faults,
`handle_exception` finds R14 in the `trap_frame` and sends the wrapper to its end.
-/

set_option autoImplicit false

namespace Revhv.ExceptionWrappers

open Revhv.Asm Revhv.Exception
open Revhv.Lib.StackFrame Revhv.Lib.StraightLine

/-- The labels of a wrapper. -/
inductive Label where
  | exceptionInstruction
  | exceptionHandler
  deriving DecidableEq

/-- A wrapper, up to the label `exception_handler` and from there on. -/
structure Code where
  body : List (Instr Label)
  handler : List (Instr Label)

/-- `rdmsr_wrapper` -/
def rdmsrWrapper : Code where
  body :=
    [.push .r15, .push .r14, .lea .r14 .exceptionInstruction, .lea .r15 .exceptionHandler,
      .attempt .rdmsr, .alu .shl .rdx (.imm 32), .alu .or .rax (.reg .rdx)]
  handler := [.pop .r14, .pop .r15, .ret]

/-- `wrmsr_wrapper` -/
def wrmsrWrapper : Code where
  body :=
    [.push .r15, .push .r14, .lea .r14 .exceptionInstruction, .lea .r15 .exceptionHandler,
      .mov32 .rax .rdx, .alu .shr .rdx (.imm 32), .attempt .wrmsr]
  handler := [.pop .r14, .pop .r15, .ret]

/-- `invd_wrapper` -/
def invdWrapper : Code where
  body :=
    [.push .r15, .push .r14, .lea .r14 .exceptionInstruction, .lea .r15 .exceptionHandler,
      .attempt .invd]
  handler := [.pop .r14, .pop .r15, .ret]

/-- `xsetbv_wrapper` -/
def xsetbvWrapper : Code where
  body :=
    [.push .r15, .push .r14, .lea .r14 .exceptionInstruction, .lea .r15 .exceptionHandler,
      .mov32 .rax .rdx, .alu .shr .rdx (.imm 32), .attempt .xsetbv]
  handler := [.pop .r14, .pop .r15, .ret]

/-- `memcpy_wrapper` -/
def memcpyWrapper : Code where
  body :=
    [.push .r15, .push .r14, .lea .r14 .exceptionInstruction, .lea .r15 .exceptionHandler,
      .push .rdi, .push .rsi, .mov .rdi .rcx, .mov .rsi .rdx, .mov .rcx .r8, .attempt .repMovsb]
  handler := [.pop .rsi, .pop .rdi, .pop .r14, .pop .r15, .ret]

/-- The wrapper of an instruction. -/
def wrapperOf : Attempt → Code
  | .rdmsr => rdmsrWrapper
  | .wrmsr => wrmsrWrapper
  | .invd => invdWrapper
  | .xsetbv => xsetbvWrapper
  | .repMovsb => memcpyWrapper

/-- The vector of an exception. -/
def vectorOf (e : HostException) : BitVec 8 := e.vector.setWidth 8

/-- A return, with its address. -/
def returned : Option (Cpu × Exit Label) → Option (Cpu × UInt64)
  | some (s, .ret address) => some (s, address)
  | _ => none

/-- What is around a wrapper: its own code and the instruction that it
attempts, and the path of an exception through the IDT to
`handle_exception`. -/
structure Env where
  code : Host Label
  isr : BitVec 8 → UInt64
  ist : BitVec 3 → UInt64
  handler : Host Isr.Label

variable (env : Env)

/-- A wrapper behind its instruction's fault. -/
def afterFault (code : Code) (e : HostException) (errorCode : UInt64) (s : Cpu) :
    Option (Cpu × UInt64) := do
  let (s, rip) ← Isr.interrupt env.isr env.ist env.handler (vectorOf e) errorCode
    (env.code.addressOf .exceptionInstruction) s
  if rip = env.code.addressOf .exceptionHandler then
    returned (runCode (exec env.code) (fun _ => none) 100 code.handler s)
  else none

/-- A wrapper, from its call to its return. `none` is a host that does
not go on there. -/
def runWrapper (code : Code) (s : Cpu) : Option (Cpu × UInt64) :=
  match runCode (exec env.code) (fun _ => none) 100 (code.body ++ code.handler) s with
  | some (s, .ret address) => some (s, address)
  | some (s, .fault e errorCode) => afterFault env code e errorCode s
  | _ => none

/-- The `exception_info` at an address, as C++ code reads it. -/
def loadExceptionInfo (memory : UInt64 → UInt8) (address : UInt64) : ExceptionInfo where
  exceptionVector := (loadWord memory address).toBitVec
  errorCode := (loadWord memory (address + 8)).toBitVec
  additionalInfo1 := (loadWord memory (address + 16)).toBitVec
  exceptionOccurred := memory (address + 24) != 0

/-- The fields of a `trap_frame` that `handle_exception` uses, for the
vector of an exception. -/
def exceptionFrame (e : HostException) (f : Isr.TrapFrame) : TrapFrame where
  r14 := (f.gpr .r14).toBitVec
  r15 := (f.gpr .r15).toBitVec
  vector := e
  errorCode := f.errorCode.toBitVec
  rip := f.rip.toBitVec

end Revhv.ExceptionWrappers
