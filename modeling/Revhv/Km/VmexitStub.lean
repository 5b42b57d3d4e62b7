import Mathlib.Data.List.FinRange
import Revhv.Km.Assembly
import Revhv.Km.Stealth

/-!
# `Revhv.Km.VmexitStub`: the exit stub

`vmexit_stub` (`revhv-km/vmexit_stub.asm`), where the processor goes at every
VM exit. It saves the guest's registers into a `guest_context` on the host
stack, calls the exit handler with a pointer to it, restores the registers from
it and resumes the guest. When the handler returns a `tsc_data`, the TSC offset
is updated on the way out. An exit of the timing benchmark takes a path of its
own and never reaches the handler.

The handler reads `guest_context` as `revhv-km/vcpu.h` declares it.
-/

set_option autoImplicit false

namespace Revhv.VmexitStub

open Revhv.Asm
open Revhv.Lib (bytesAt)
open Revhv.Lib.RecordLayout Revhv.Lib.StackFrame Revhv.Lib.StraightLine

/-- The labels of `vmexit_stub`. -/
inductive Label where
  | normalPath
  | normalPathNoRestore
  | updateTscOffset
  deriving DecidableEq

/-! ### The structures of the assembly file -/

/-- The general registers in the order of `guest_context`. -/
def contextGprs : List Gpr :=
  [.rax, .rcx, .rdx, .rbx, .rbp, .rsi, .rdi, .r8, .r9, .r10, .r11, .r12, .r13, .r14, .r15]

/-- The control and debug registers in the order of `guest_context`. -/
def contextSys : List SysReg := [.cr2, .cr8, .dr0, .dr1, .dr2, .dr3, .dr6]

/-- The offset of a general register. RSP has none, the guest's is in
the VMCS. -/
def gprOffset : Gpr → Nat
  | .rax => 0
  | .rcx => 8
  | .rdx => 16
  | .rbx => 24
  | .rbp => 32
  | .rsi => 40
  | .rdi => 48
  | .r8 => 56
  | .r9 => 64
  | .r10 => 72
  | .r11 => 80
  | .r12 => 88
  | .r13 => 96
  | .r14 => 104
  | .r15 => 112
  | .rsp => 0

/-- The offset of a control or debug register. -/
def sysOffset : SysReg → Nat
  | .cr2 => 120
  | .cr8 => 128
  | .dr0 => 136
  | .dr1 => 144
  | .dr2 => 152
  | .dr3 => 160
  | .dr6 => 168

/-- The offset of an XMM register. -/
def xmmOffset (x : Fin 16) : Nat := 176 + 16 * x

/-- The offset of MXCSR. -/
def mxcsrOffset : Nat := 432

/-- `SIZEOF guest_context`, with the padding. -/
def contextSize : Nat := 448

/-- `RVHVBNCH`. -/
def benchKey : UInt64 := 0x52564856424E4348

/-- The encodings of the fields that the stub reads and writes. -/
def vmcsExitReason : UInt64 := 0x4402

/-- The encoding of the guest RIP. -/
def vmcsGuestRip : UInt64 := 0x681E

/-- The encoding of the TSC offset. -/
def vmcsCtrlTscOffset : UInt64 := 0x2010

/-- `VMX_EXIT_REASON_EXECUTE_CPUID`. -/
def exitReasonCpuid : UInt64 := 0x0A

/-! ### The code -/

/-- Load a general register from the context. -/
def restoreGpr (r : Gpr) : Instr Label := .load r .rsp (UInt64.ofNat (gprOffset r))

/-- Save GPRs. -/
def saveGprs : List (Instr Label) :=
  contextGprs.map fun r => .store .rsp (UInt64.ofNat (gprOffset r)) r

/-- Save control registers, save debug registers. -/
def saveSys : List (Instr Label) :=
  contextSys.flatMap fun c => [.readSys .rax c, .store .rsp (UInt64.ofNat (sysOffset c)) .rax]

/-- Save XMM registers. -/
def saveXmms : List (Instr Label) :=
  (List.finRange 16).map fun x => .storeXmm .rsp (UInt64.ofNat (xmmOffset x)) x

/-- Restore XMM registers. -/
def restoreXmms : List (Instr Label) :=
  (List.finRange 16).map fun x => .loadXmm x .rsp (UInt64.ofNat (xmmOffset x))

/-- Restore debug registers, restore control registers. -/
def restoreSys : List (Instr Label) :=
  [SysReg.dr0, .dr1, .dr2, .dr3, .dr6, .cr2, .cr8].flatMap fun c =>
    [.load .rax .rsp (UInt64.ofNat (sysOffset c)), .writeSys c .rax]

/-- Restore GPRs, but for the four that are restored later. -/
def restoreGprs : List (Instr Label) :=
  [Gpr.rbp, .rsi, .rdi, .r8, .r9, .r10, .r11, .r12, .r13, .r14, .r15].map restoreGpr

/-- The last four registers, and the guest goes on. -/
def resumeVm : List (Instr Label) :=
  [Gpr.rax, .rcx, .rdx, .rbx].map restoreGpr ++
    [.alu .add .rsp (.imm (UInt64.ofNat contextSize)), .vmresume, .int3]

/-- The context is saved, and the handler's arguments are in place. -/
def saveContext : List (Instr Label) :=
  [.alu .sub .rsp (.imm (UInt64.ofNat contextSize))] ++ saveGprs ++ saveSys ++ saveXmms ++
    [.stmxcsr .rsp (UInt64.ofNat mxcsrOffset), .mov .rcx .rsp, .rdfsbase .rdx,
      .alu .sub .rsp (.imm 0x20)]

/-- From the handler's return on, up to the four registers. -/
def restoreContext : List (Instr Label) :=
  [.alu .add .rsp (.imm 0x20), .mov .rcx .rax, .ldmxcsr .rsp (UInt64.ofNat mxcsrOffset)] ++
    restoreXmms ++ restoreSys ++ restoreGprs ++ [.test .rcx .rcx]

/-- `normal_path_no_restore`. -/
def normalPathNoRestore : List (Instr Label) :=
  saveContext ++ [.call] ++ restoreContext ++ [.jne .updateTscOffset] ++ resumeVm

/-- `normal_path`. -/
def normalPath : List (Instr Label) := [.pop .r11, .pop .r10] ++ normalPathNoRestore

/-- `update_tsc_offset`, up to the four registers. The offsets are those
of `tsc_data`. -/
def writeTscOffset : List (Instr Label) :=
  [.load .rbx .rcx 8, .alu .add .rbx (.mem .rcx 24), .alu .sub .rbx (.mem .rcx 32),
    .alu .sub .rbx (.mem .rcx 16), .lfence, .rdtsc, .lfence, .alu .shl .rdx (.imm 32),
    .alu .or .rax (.reg .rdx), .alu .sub .rax (.reg .rbx), .load .rbx .rcx 0,
    .alu .sub .rbx (.reg .rax), .store .rcx 0 .rbx, .movImm .rax vmcsCtrlTscOffset,
    .vmwrite .rax .rbx]

/-- `update_tsc_offset`. -/
def updateTscOffset : List (Instr Label) := writeTscOffset ++ resumeVm

/-- The fast path, behind its three tests. -/
def fastPath : List (Instr Label) :=
  [.movImm .r11 vmcsGuestRip, .vmwrite .r11 .r8, .pop .r11, .pop .r10, .push .rdx, .lfence,
    .rdtsc, .lfence, .alu .shl .rdx (.imm 32), .alu .or .rax (.reg .rdx), .mov .r9 .rax,
    .movImm .rax vmcsCtrlTscOffset, .alu .xor .rdx (.reg .rdx),
    -- DEC
    .alu .sub .rdx (.imm 1), .vmwrite .rax .rdx, .pop .rdx, .vmresume, .int3]

/-- `vmexit_stub` from its entry. -/
def entry : List (Instr Label) :=
  [.cmp32 .rcx 0x424E4348, .jne .normalPathNoRestore, .push .r10, .push .r11,
    .movImm .r10 vmcsExitReason, .vmread .r10 .r10, .cmp .r10 (.imm exitReasonCpuid),
    .jne .normalPath, .movImm .r10 benchKey, .cmp .rcx (.reg .r10), .jne .normalPath] ++ fastPath

/-- The code at a label. -/
def target : Exit Label → Option (List (Instr Label))
  | .jump .normalPath => some normalPath
  | .jump .normalPathNoRestore => some normalPathNoRestore
  | .jump .updateTscOffset => some updateTscOffset
  | _ => none

/-- An exit, from the processor's entry into the stub to VMRESUME. -/
def vmexitStub (host : Host Label) (s : Cpu) : Option (Cpu × Exit Label) :=
  runCode (exec host) target 200 entry s

/-! ### `guest_context` of `vcpu.h` -/

/-- The members of `guest_context`. -/
inductive Member where
  | gpr (r : Gpr)
  | sys (c : SysReg)
  | xmm (x : Fin 16)
  | mxcsr
  deriving DecidableEq

/-- The members in the order of their declaration, with their sizes. -/
def guestContextMembers : List (Member × Nat) :=
  [(.gpr .rax, 8), (.gpr .rcx, 8), (.gpr .rdx, 8), (.gpr .rbx, 8), (.gpr .rbp, 8), (.gpr .rsi, 8),
    (.gpr .rdi, 8), (.gpr .r8, 8), (.gpr .r9, 8), (.gpr .r10, 8), (.gpr .r11, 8), (.gpr .r12, 8),
    (.gpr .r13, 8), (.gpr .r14, 8), (.gpr .r15, 8), (.sys .cr2, 8), (.sys .cr8, 8), (.sys .dr0, 8),
    (.sys .dr1, 8), (.sys .dr2, 8), (.sys .dr3, 8), (.sys .dr6, 8)] ++
    (List.finRange 16).map (fun x => (.xmm x, 16)) ++ [(.mxcsr, 4)]

/-- The offset of a member: the sizes of those before it. Every one is a
multiple of the size of the member itself, so none is padded. -/
def offsetOf (m : Member) : Nat :=
  ((guestContextMembers.takeWhile fun p => p.1 ≠ m).map Prod.snd).sum

/-- The registers in a `guest_context`. RSP is not among them. -/
structure Context where
  gpr : Gpr → UInt64
  sys : SysReg → UInt64
  xmm : Fin 16 → BitVec 128
  mxcsr : UInt32

/-- The registers of a core that a `guest_context` has. -/
def contextOf (s : Cpu) : Context :=
  ⟨fun r => if r = .rsp then 0 else s.gpr r, s.sys, s.xmm, s.mxcsr⟩

/-- The `guest_context` at an address, as C++ code reads it. -/
def loadContext (memory : UInt64 → UInt8) (address : UInt64) : Context where
  gpr r := if r = .rsp then 0 else loadWord memory (address + UInt64.ofNat (offsetOf (.gpr r)))
  sys c := loadWord memory (address + UInt64.ofNat (offsetOf (.sys c)))
  xmm x := BitVec.ofNat 128
    (leValue 16 (bytesAt memory (address + UInt64.ofNat (offsetOf (.xmm x))) 16))
  mxcsr := UInt32.ofNat (leValue 4 (bytesAt memory (address + UInt64.ofNat (offsetOf .mxcsr)) 4))

/-- The `tsc_data` at an address, as C++ code reads it. -/
def loadTscData (memory : UInt64 → UInt8) (address : UInt64) : Stealth.TscData where
  tscOffset := (loadWord memory address).toBitVec
  storedTsc := (loadWord memory (address + 8)).toBitVec
  vmexitToStoreOverhead := (loadWord memory (address + 16)).toBitVec
  instructionOverhead := (loadWord memory (address + 24)).toBitVec
  vmentryOverhead := (loadWord memory (address + 32)).toBitVec

/-- The exit is one of the timing benchmark. -/
def FastPath (s : Cpu) : Prop :=
  s.vmcs vmcsExitReason = exitReasonCpuid ∧ s.gpr .rcx = benchKey

/-- The stub decides this itself, by two comparisons. -/
instance (s : Cpu) : Decidable (FastPath s) := inferInstanceAs (Decidable (_ ∧ _))

end Revhv.VmexitStub
