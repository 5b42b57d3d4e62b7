import Revhv.Km.Detour
import Revhv.Lib.StackFrame

/-!
# `Revhv.Km.Trampoline`: running the trampoline

A processor whose instructions are a length and an effect that may depend on
their own address, and that knows the three instructions of
`write_absolute_jmp`. Code is not written while it runs. The decoder of
`ept_hook` reports the true lengths.
-/

set_option autoImplicit false

namespace Revhv.Detour

open Revhv.Lib Revhv.Lib.RecordLayout Revhv.Lib.StackFrame

/-- The state of a processor: its stack pointer, its memory, and
everything else. -/
structure Cpu (ρ : Type) where
  regs : ρ
  rsp : UInt64
  memory : UInt64 → UInt8

section
variable {ρ : Type}

/-- The sign extension of 32 bits to 64. -/
def signExtend32 (value : Nat) : Nat :=
  if value < 2 ^ 31 then value else value + 2 ^ 64 - 2 ^ 32

/-- `push imm32`. -/
def pushImm (imm : Nat) : Instr (Cpu ρ) where
  length := 5
  effect _ s :=
    ({ s with
        rsp := s.rsp - 8
        memory := store s.memory (s.rsp - 8) (leBytes 8 (signExtend32 imm)) }, none)

/-- `mov dword ptr [rsp + 4], imm32`. -/
def movHigh (imm : Nat) : Instr (Cpu ρ) where
  length := 8
  effect _ s := ({ s with memory := store s.memory (s.rsp + 4) (leBytes 4 imm) }, none)

/-- `ret`. -/
def ret : Instr (Cpu ρ) where
  length := 1
  effect _ s :=
    ({ s with rsp := s.rsp + 8 }, some (UInt64.ofNat (leValue 8 (bytesAt s.memory s.rsp 8))))

/-- A processor that decodes the three instructions of
`write_absolute_jmp`. -/
structure X86 (ρ : Type) extends Decoder (Cpu ρ) where
  decode_push : ∀ imm < 2 ^ 32, ∀ rest, decode ([0x68] ++ leBytes 4 imm ++ rest) = some (pushImm imm)
  decode_mov : ∀ imm < 2 ^ 32, ∀ rest,
    decode (leBytes 4 0x042444C7 ++ leBytes 4 imm ++ rest) = some (movHigh imm)
  decode_ret : ∀ rest, decode ([0xC3] ++ rest) = some ret

/-- `ZydisDecoderDecodeInstruction` on the bytes of the target function. -/
def zydis (dec : Decoder (Cpu ρ)) (memory : UInt64 → UInt8) (targetFunction : UInt64)
    (overwritten offered : Nat) : Option Nat :=
  (dec.decode (bytesAt memory (targetFunction + UInt64.ofNat overwritten) offered)).map Instr.length

/-- The instructions that the loop of `ept_hook` decodes. -/
def displaced (dec : Decoder (Cpu ρ)) (memory : UInt64 → UInt8) (targetFunction : UInt64) :
    Nat → Nat → List (Instr (Cpu ρ))
  | 0, _ => []
  | rounds + 1, overwritten =>
    if overwritten < absoluteJumpSize then
      match dec.decode (bytesAt memory (targetFunction + UInt64.ofNat overwritten)
          (offeredLength (offsetIntoPage targetFunction) overwritten)) with
      | none => []
      | some i => i :: displaced dec memory targetFunction rounds (overwritten + i.length)
    else []

/-- An address below the stack pointer. -/
def Below (rsp address : UInt64) : Prop := (rsp - 1 - address).toNat < 2 ^ 63

/-- Two states are the same up to memory below the stack pointer. -/
structure SameAbove (s t : Cpu ρ) : Prop where
  regs : s.regs = t.regs
  rsp : s.rsp = t.rsp
  memory : ∀ address, ¬ Below s.rsp address → s.memory address = t.memory address

end

end Revhv.Detour
