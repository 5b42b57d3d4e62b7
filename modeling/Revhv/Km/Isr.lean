import Revhv.Km.Assembly

/-!
# `Revhv.Km.Isr`: exceptions and NMIs of the host, up to their handler

`idt::initialize` (`revhv-km/idt.cpp`), the service routines of
`revhv-km/isr.asm`, and what the processor does before and between them:
it finds the routine through a gate, leaves a frame on the stack, and takes
the frame back at IRETQ. `handle_exception` is given all of it as a
`trap_frame` (`revhv-km/exception.h`).
-/

set_option autoImplicit false

namespace Revhv.Isr

open Revhv.Asm
open Revhv.Lib.StackFrame Revhv.Lib.StraightLine

/-! ### The IDT -/

/-- `segment_descriptor_interrupt_gate_64` -/
structure Gate where
  offsetLow : BitVec 16
  segmentSelector : BitVec 16
  interruptStackTable : BitVec 3
  type : BitVec 4
  descriptorPrivilegeLevel : BitVec 2
  present : Bool
  offsetMiddle : BitVec 16
  offsetHigh : BitVec 32
  deriving DecidableEq

/-- What MEMSET leaves of a gate. -/
def Gate.zero : Gate := ⟨0, 0, 0, 0, 0, false, 0, 0⟩

/-- `SEGMENT_DESCRIPTOR_TYPE_INTERRUPT_GATE` -/
def typeInterruptGate : BitVec 4 := 0xE

/-- `SEGMENT_DESCRIPTOR_TYPE_TRAP_GATE` -/
def typeTrapGate : BitVec 4 := 0xF

/-- `gdt::host_cs.flags`, of index 1. -/
def hostCs : BitVec 16 := 8

/-- `vcpu::ist_index_nmi` -/
def istIndexNmi : BitVec 8 := 1

/-- `vcpu::ist_index_df` -/
def istIndexDf : BitVec 8 := 2

/-- `vcpu::ist_index_mc` -/
def istIndexMc : BitVec 8 := 3

/-- `define_gate` -/
def defineGate (idt : BitVec 8 → Gate) (interruptNumber : BitVec 8) (handler : UInt64)
    (istIndex : BitVec 8) (trapGate : Bool) : BitVec 8 → Gate :=
  Function.update idt interruptNumber
    { offsetLow := (handler &&& 0xFFFF).toBitVec.setWidth 16
      offsetMiddle := ((handler >>> 16) &&& 0xFFFF).toBitVec.setWidth 16
      offsetHigh := (handler >>> 32).toBitVec.setWidth 32
      interruptStackTable := istIndex.setWidth 3
      type := if trapGate then typeTrapGate else typeInterruptGate
      present := true
      segmentSelector := hostCs
      descriptorPrivilegeLevel := 0 }

/-- The calls of `define_gate` in `initialize`: the vector, whose number
its routine has too, the stack and the kind of gate. -/
def gates : List (BitVec 8 × BitVec 8 × Bool) :=
  [(0, 0, false), (1, 0, true), (2, istIndexNmi, false), (3, 0, true), (4, 0, false),
    (5, 0, false), (6, 0, false), (7, 0, false), (8, istIndexDf, false), (10, 0, false),
    (11, 0, false), (12, 0, false), (13, 0, false), (14, 0, false), (16, 0, false),
    (17, 0, false), (18, istIndexMc, false), (19, 0, false), (20, 0, false), (21, 0, false)]

/-- `idt::initialize`. `isr` are the addresses of the service routines. -/
def idtInitialize (isr : BitVec 8 → UInt64) : BitVec 8 → Gate :=
  gates.foldl (fun idt gate => defineGate idt gate.1 (isr gate.1) gate.2.1 gate.2.2)
    fun _ => Gate.zero

/-! ### The processor -/

/-- The offset of a gate. -/
def Gate.offset (gate : Gate) : UInt64 :=
  ⟨gate.offsetHigh ++ gate.offsetMiddle ++ gate.offsetLow⟩

/-- RFLAGS behind a gate. TF, NT, RF and VM are cleared, and IF by an
interrupt gate. -/
def Gate.flags (gate : Gate) (rflags : UInt64) : UInt64 :=
  if gate.type = typeInterruptGate then rflags &&& ~~~0x34300 else rflags &&& ~~~0x34100

/-- The stack that a gate switches to, aligned to 16 bytes. `ist` are
those of the TSS. -/
def Gate.stack (gate : Gate) (ist : BitVec 3 → UInt64) (rsp : UInt64) : UInt64 :=
  (if gate.interruptStackTable = 0 then rsp else ist gate.interruptStackTable) &&& ~~~0xF

/-- The processor leaves the interrupted code for a service routine,
whose address is the second part of the answer. `none` is a gate that is
not present. -/
def deliver (idt : BitVec 8 → Gate) (ist : BitVec 3 → UInt64) (vector : BitVec 8)
    (errorCode rip : UInt64) (s : Cpu) : Option (Cpu × UInt64) :=
  let gate := idt vector
  if gate.present then
    -- In the order of the pushes: SS, RSP, RFLAGS, CS, RIP and, for some
    -- vectors, the error code.
    let frame := ((((s.set .rsp (gate.stack ist (s.gpr .rsp))).pushWord s.ss).pushWord
      (s.gpr .rsp)).pushWord s.rflags).pushWord s.cs |>.pushWord rip
    let frame := if Exception.vectorHasErrorCode (vector.setWidth 16) then frame.pushWord errorCode
      else frame
    some ({ frame with
      rflags := gate.flags s.rflags
      cs := UInt64.ofBitVec (gate.segmentSelector.setWidth 64) }, gate.offset)
  else none

/-! ### The service routines -/

/-- The label of `isr.asm` that is jumped to. -/
inductive Label where
  | genericIsr
  deriving DecidableEq

/-- The registers in the order in which `generic_isr` pops them. -/
def trapFrameGprs : List Gpr :=
  [.rax, .rcx, .rdx, .rbx, .rbp, .rsi, .rdi, .r8, .r9, .r10, .r11, .r12, .r13, .r14, .r15]

/-- `generic_isr`, up to the call. -/
def enterHandler : List (Instr Label) :=
  [Gpr.r15, .r14, .r13, .r12, .r11, .r10, .r9, .r8, .rdi, .rsi, .rbp, .rbx, .rdx, .rcx, .rax].map
    .push ++ [.mov .rcx .rsp, .rdfsbase .rdx, .alu .sub .rsp (.imm 0x20)]

/-- `generic_isr`, from the handler's return on. -/
def leaveHandler : List (Instr Label) :=
  [.alu .add .rsp (.imm 0x20)] ++ trapFrameGprs.map .pop ++
    -- The vector and the error code.
    [.alu .add .rsp (.imm 8), .alu .add .rsp (.imm 8), .iretq]

/-- `generic_isr` -/
def genericIsr : List (Instr Label) := enterHandler ++ [.call] ++ leaveHandler

/-- `ISR_NOERR` -/
def isrNoErr (vector : BitVec 8) : List (Instr Label) :=
  [.pushImm 0, .pushImm (UInt64.ofBitVec (vector.setWidth 64)), .jmp .genericIsr]

/-- `ISR_ERR` -/
def isrErr (vector : BitVec 8) : List (Instr Label) :=
  [.pushImm (UInt64.ofBitVec (vector.setWidth 64)), .jmp .genericIsr]

/-- The uses of the two macros. -/
def isrs : List (BitVec 8 × List (Instr Label)) :=
  [(0, isrNoErr 0), (1, isrNoErr 1), (2, isrNoErr 2), (3, isrNoErr 3), (4, isrNoErr 4),
    (5, isrNoErr 5), (6, isrNoErr 6), (7, isrNoErr 7), (8, isrErr 8), (10, isrErr 10),
    (11, isrErr 11), (12, isrErr 12), (13, isrErr 13), (14, isrErr 14), (16, isrNoErr 16),
    (17, isrErr 17), (18, isrNoErr 18), (19, isrNoErr 19), (20, isrNoErr 20), (21, isrErr 21)]

/-- The code at a label. -/
def target : Exit Label → Option (List (Instr Label))
  | .jump .genericIsr => some genericIsr
  | _ => none

/-- The code at an address. -/
def codeAt (isr : BitVec 8 → UInt64) (address : UInt64) : Option (List (Instr Label)) :=
  (isrs.find? fun entry => isr entry.1 == address).map Prod.snd

/-- The end of a routine that is left by IRETQ. -/
def returned : Option (Cpu × Exit Label) → Option (Cpu × UInt64)
  | some (s, .iretq rip) => some (s, rip)
  | _ => none

/-- An exception or an NMI in code at `rip`, up to IRETQ, with the
address that it goes to. -/
def interrupt (isr : BitVec 8 → UInt64) (ist : BitVec 3 → UInt64) (host : Host Label)
    (vector : BitVec 8) (errorCode rip : UInt64) (s : Cpu) : Option (Cpu × UInt64) := do
  let (s, address) ← deliver (idtInitialize isr) ist vector errorCode rip s
  let code ← codeAt isr address
  returned (runCode (exec host) target 100 code s)

/-! ### `trap_frame` -/

/-- `trap_frame`. `gpr` is only read where the structure has a member. -/
structure TrapFrame where
  gpr : Gpr → UInt64
  vector : UInt64
  errorCode : UInt64
  rip : UInt64
  cs : UInt64
  rflags : UInt64
  rsp : UInt64
  ss : UInt64

/-- The members of a `trap_frame`, every one a word, in the order of
their declaration. -/
def TrapFrame.words (f : TrapFrame) : List UInt64 :=
  [f.gpr .rax, f.gpr .rcx, f.gpr .rdx, f.gpr .rbx, f.gpr .rbp, f.gpr .rsi, f.gpr .rdi, f.gpr .r8,
    f.gpr .r9, f.gpr .r10, f.gpr .r11, f.gpr .r12, f.gpr .r13, f.gpr .r14, f.gpr .r15, f.vector,
    f.errorCode, f.rip, f.cs, f.rflags, f.rsp, f.ss]

/-- The memory has a `trap_frame` at an address. -/
def HasTrapFrame (memory : UInt64 → UInt8) (address : UInt64) (f : TrapFrame) : Prop :=
  words memory address 22 = f.words

/-- The frame of code that is interrupted at `rip`. -/
def frameOf (vector : BitVec 8) (errorCode rip : UInt64) (s : Cpu) : TrapFrame where
  gpr := s.gpr
  vector := UInt64.ofBitVec (vector.setWidth 64)
  errorCode := if Exception.vectorHasErrorCode (vector.setWidth 16) then errorCode else 0
  rip
  cs := s.cs
  rflags := s.rflags
  rsp := s.gpr .rsp
  ss := s.ss

end Revhv.Isr
