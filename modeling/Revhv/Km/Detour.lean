import Revhv.Lib.CodeBlock
import Revhv.Lib.RecordLayout

/-!
# `Revhv.Km.Detour`: building an EPT hook

`write_absolute_jmp` and `ept_hook` of `hooks.cpp`, up to the page that the
processors are asked to install. The decoder is a parameter: from the number of
bytes already overwritten and the number of bytes offered, the length of the
instruction it decodes there, if any. Offsets and lengths are `size_t`.
-/

set_option autoImplicit false

namespace Revhv.Detour

open Revhv.Lib Revhv.Lib.RecordLayout

/-- `absolute_jump_size`. -/
def absoluteJumpSize : Nat := 14

/-- `page_size`. -/
def pageSize : Nat := 0x1000

/-- `write_absolute_jmp`: the bytes of `push low; mov dword ptr [rsp +
4], high; ret`. -/
def writeAbsoluteJmp (targetAddress : UInt64) : List UInt8 :=
  [0x68] ++ leBytes 4 (targetAddress.toNat % 2 ^ 32) ++ leBytes 4 0x042444C7
    ++ leBytes 4 (targetAddress.toNat / 2 ^ 32) ++ [0xC3]

/-- `offset_into_page`. -/
def offsetIntoPage (targetFunction : UInt64) : Nat := targetFunction.toNat % 0x1000

/-- The length offered to the decoder: `page_size - (offset_into_page +
overwritten_size) - 1`. -/
def offeredLength (offset overwritten : Nat) : Nat :=
  (pageSize + 2 ^ 64 - (offset + overwritten) % 2 ^ 64 + 2 ^ 64 - 1) % 2 ^ 64

/-- How the loop over the instructions ends. -/
inductive LoopEnd where
  | decodeFailed
  | exit (overwritten : Nat)
  /-- The loop is still running when its rounds are used up. -/
  | running
deriving DecidableEq

/-- A run of the loop: the calls of the decoder in their order, each
with the bytes overwritten before it and the length offered, and how it
ends. -/
structure LoopRun where
  calls : List (Nat × Nat)
  fin : LoopEnd
deriving DecidableEq

/-- The `while` loop of `ept_hook`, for so many rounds at most. -/
def decodeLoop (decode : Nat → Nat → Option Nat) (offset : Nat) : Nat → Nat → LoopRun
  | 0, overwritten =>
    if overwritten < absoluteJumpSize then ⟨[], .running⟩ else ⟨[], .exit overwritten⟩
  | rounds + 1, overwritten =>
    if overwritten < absoluteJumpSize then
      let offered := offeredLength offset overwritten
      match decode overwritten offered with
      | none => ⟨[(overwritten, offered)], .decodeFailed⟩
      | some length =>
        let rest := decodeLoop decode offset rounds (overwritten + length)
        ⟨(overwritten, offered) :: rest.calls, rest.fin⟩
    else ⟨[], .exit overwritten⟩

/-- Where `ept_hook` gives up. -/
inductive HookError where
  | irql
  | decoderInit
  | decode
  | pageBoundary
  | noTrampoline
  | noExecPage
deriving DecidableEq

/-- What `ept_hook` finds around it: the IRQL, whether the decoder
initialises, and the buffers that the pool gives. -/
structure HookEnv where
  passiveLevel : Bool
  decoderInit : Bool
  trampoline : Option UInt64
  execPage : Option UInt64
deriving DecidableEq

/-- What `ept_hook` builds: the trampoline that `*original_function`
points to, with its bytes, and the bytes of the page that is executed
instead. -/
structure Hook where
  overwritten : Nat
  trampoline : UInt64
  trampolineBytes : List UInt8
  execPage : UInt64
  execPageBytes : List UInt8
deriving DecidableEq

/-- A list with other bytes from an index on. -/
def overwriteAt (bytes : List UInt8) (index : Nat) (new : List UInt8) : List UInt8 :=
  bytes.take index ++ new ++ bytes.drop (index + new.length)

/-- The most rounds that the loop takes. -/
def maxRounds : Nat := absoluteJumpSize

/-- `ept_hook`, on the bytes in memory. The loop takes an instruction a
round, which `decodeLoop_bounds` shows to end within `maxRounds`. -/
def eptHook (env : HookEnv) (decode : Nat → Nat → Option Nat) (memory : UInt64 → UInt8)
    (targetFunction hookFunction : UInt64) : Except HookError Hook :=
  if !env.passiveLevel then .error .irql
  else if !env.decoderInit then .error .decoderInit
  else
    let offset := offsetIntoPage targetFunction
    match (decodeLoop decode offset maxRounds 0).fin with
    | .decodeFailed => .error .decode
    -- Not reached: an instruction has at least one byte.
    | .running => .error .decode
    | .exit overwritten =>
      -- The displaced instructions must not reach the end of the page.
      if offset + overwritten > pageSize - 1 then .error .pageBoundary
      else
        match env.trampoline with
        | none => .error .noTrampoline
        | some trampoline =>
          match env.execPage with
          | none => .error .noExecPage
          | some execPage =>
            .ok {
              overwritten := overwritten
              trampoline := trampoline
              trampolineBytes := bytesAt memory targetFunction overwritten
                ++ writeAbsoluteJmp (targetFunction + UInt64.ofNat overwritten)
              execPage := execPage
              execPageBytes := overwriteAt
                (bytesAt memory (targetFunction - UInt64.ofNat offset) pageSize) offset
                (writeAbsoluteJmp hookFunction) }

end Revhv.Detour
