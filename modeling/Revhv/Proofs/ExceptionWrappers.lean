import Revhv.Km.ExceptionWrappers
import Revhv.Proofs.Isr

/-!
# `Revhv.Proofs.ExceptionWrappers`: a wrapper returns to its caller

* `run_prepare`: the wrapper up to its instruction.
* `run_finish`: the wrapper from `exception_handler` on, wherever it comes from.
* `interrupt_recorded`: a fault of the instruction, through the IDT and `handle_exception`.
* `runWrapper_refines`: all of it does to `exception_info` what `Wrapper.run` does.
-/

set_option autoImplicit false

namespace Revhv.ExceptionWrappers

open Revhv.Asm Revhv.Exception
open Revhv.Isr (Entered HasTrapFrame Left frameOf gates stackOf trapFrameSize)
open Revhv.Lib.RecordLayout Revhv.Lib.StackFrame Revhv.Lib.StraightLine

variable (env : Env)

/-! ### The code around the instruction -/

/-- The registers that a wrapper keeps on the stack, in the order in
which it pops them. -/
def savedGprs : Attempt → List Gpr
  | .repMovsb => [.rsi, .rdi, .r14, .r15]
  | _ => [.r14, .r15]

/-- The registers that an instruction writes. -/
def attemptGprs : Attempt → List Gpr
  | .rdmsr => [.rax, .rdx]
  | .repMovsb => [.rcx, .rsi, .rdi]
  | _ => []

/-- The operands that a wrapper moves to where its instruction has them. -/
def Operands (s p : Cpu) : Attempt → Prop
  | .rdmsr => p.gpr .rcx = s.gpr .rcx
  | .wrmsr | .xsetbv => p.gpr .rcx = s.gpr .rcx ∧ p.gpr .rdx = s.gpr .rdx >>> 32 ∧
      p.gpr .rax = UInt64.ofNat ((s.gpr .rdx).toNat % 2 ^ 32)
  | .invd => True
  | .repMovsb => p.gpr .rdi = s.gpr .rcx ∧ p.gpr .rsi = s.gpr .rdx ∧ p.gpr .rcx = s.gpr .r8

/-- The core at the instruction. -/
structure Prepared (a : Attempt) (s p : Cpu) : Prop where
  r14 : p.gpr .r14 = env.code.addressOf .exceptionInstruction
  r15 : p.gpr .r15 = env.code.addressOf .exceptionHandler
  rsp : p.gpr .rsp + UInt64.ofNat (8 * (savedGprs a).length) = s.gpr .rsp
  /-- What was in the saved registers is on top of the stack. -/
  words : words p.memory (p.gpr .rsp) ((savedGprs a).length + 1) =
    (savedGprs a).map s.gpr ++ [loadWord s.memory (s.gpr .rsp)]
  gpr : ∀ r ∈ [Gpr.rbx, .rbp, .r12, .r13], p.gpr r = s.gpr r
  index : a ≠ .repMovsb → p.gpr .rsi = s.gpr .rsi ∧ p.gpr .rdi = s.gpr .rdi
  memory : ∀ x, 8 * (savedGprs a).length ≤ (x - p.gpr .rsp).toNat → p.memory x = s.memory x
  operands : Operands s p a

/-- The instructions of a wrapper before the one that is attempted. -/
def before (a : Attempt) : List (Instr Label) :=
  match a with
  | .rdmsr | .invd =>
    [.push .r15, .push .r14, .lea .r14 .exceptionInstruction, .lea .r15 .exceptionHandler]
  | .wrmsr | .xsetbv =>
    [.push .r15, .push .r14, .lea .r14 .exceptionInstruction, .lea .r15 .exceptionHandler,
      .mov32 .rax .rdx, .alu .shr .rdx (.imm 32)]
  | .repMovsb =>
    [.push .r15, .push .r14, .lea .r14 .exceptionInstruction, .lea .r15 .exceptionHandler,
      .push .rdi, .push .rsi, .mov .rdi .rcx, .mov .rsi .rdx, .mov .rcx .r8]

/-- The instructions behind it, up to `exception_handler`. -/
def after (a : Attempt) : List (Instr Label) :=
  match a with
  | .rdmsr => [.alu .shl .rdx (.imm 32), .alu .or .rax (.reg .rdx)]
  | _ => []

/-- A wrapper up to its RET: what comes before the attempt, the attempt,
and what comes after it. -/
theorem body_wrapperOf (a : Attempt) : (wrapperOf a).body = before a ++ .attempt a :: after a := by
  cases a <;> rfl

/-- The handler of a wrapper gives the saved registers back and returns. -/
theorem handler_wrapperOf (a : Attempt) :
    (wrapperOf a).handler = (savedGprs a).map .pop ++ [.ret] := by
  cases a <;> rfl

/-- The saved registers are pushed, whatever else is done. -/
theorem prepared_of_pushed {a : Attempt} {s p : Cpu}
    (hrsp : p.gpr .rsp = (pushWords s ((savedGprs a).map s.gpr)).gpr .rsp)
    (hmemory : p.memory = (pushWords s ((savedGprs a).map s.gpr)).memory)
    (hr14 : p.gpr .r14 = env.code.addressOf .exceptionInstruction)
    (hr15 : p.gpr .r15 = env.code.addressOf .exceptionHandler)
    (hgpr : ∀ r ∈ [Gpr.rbx, .rbp, .r12, .r13], p.gpr r = s.gpr r)
    (hindex : a ≠ .repMovsb → p.gpr .rsi = s.gpr .rsi ∧ p.gpr .rdi = s.gpr .rdi)
    (hoperands : Operands s p a) : Prepared env a s p := by
  have hpushed := pushed_pushWords s ((savedGprs a).map s.gpr)
  have hlength : ((savedGprs a).map s.gpr).length = (savedGprs a).length := List.length_map ..
  have hsmall : 8 * ((savedGprs a).length + 1) ≤ 2 ^ 64 := by cases a <;> decide
  constructor
  case r14 => exact hr14
  case r15 => exact hr15
  case rsp =>
    rw [hrsp, ← hlength]
    exact hpushed.rsp
  case words =>
    rw [hrsp, hmemory, ← hlength, hpushed.words 1 (hlength ▸ hsmall)]
    rfl
  case gpr => exact hgpr
  case index => exact hindex
  case memory =>
    intro x hx
    rw [hrsp, ← hlength] at hx
    rw [hmemory]
    exact hpushed.memory x hx
  case operands => exact hoperands

/-- The code in front of the attempt saves the registers and records
where to go on after a fault. -/
theorem run_prepare (a : Attempt) (s : Cpu) :
    ∃ p, run (exec env.code) (before a) s = some (p, none) ∧ Prepared env a s p := by
  have hkept : ∀ p : Cpu, p.gpr .rbx = s.gpr .rbx → p.gpr .rbp = s.gpr .rbp →
      p.gpr .r12 = s.gpr .r12 → p.gpr .r13 = s.gpr .r13 →
        ∀ r ∈ [Gpr.rbx, .rbp, .r12, .r13], p.gpr r = s.gpr r := by
    intro p hrbx hrbp hr12 hr13 r hr
    simp only [List.mem_cons, List.not_mem_nil, or_false] at hr
    rcases hr with rfl | rfl | rfl | rfl
    exacts [hrbx, hrbp, hr12, hr13]
  -- The body runs by evaluation. The wrappers differ in the operands they load.
  cases a with
  | rdmsr =>
    exact ⟨_, rfl, prepared_of_pushed env rfl rfl rfl rfl (hkept _ rfl rfl rfl rfl)
      (fun _ => ⟨rfl, rfl⟩) rfl⟩
  | wrmsr | xsetbv =>
    exact ⟨_, rfl, prepared_of_pushed env rfl rfl rfl rfl (hkept _ rfl rfl rfl rfl)
      (fun _ => ⟨rfl, rfl⟩) ⟨rfl, rfl, rfl⟩⟩
  | invd =>
    exact ⟨_, rfl, prepared_of_pushed env rfl rfl rfl rfl (hkept _ rfl rfl rfl rfl)
      (fun _ => ⟨rfl, rfl⟩) trivial⟩
  | repMovsb =>
    exact ⟨_, rfl, prepared_of_pushed env rfl rfl rfl rfl (hkept _ rfl rfl rfl rfl)
      (fun h => absurd rfl h) ⟨rfl, rfl, rfl⟩⟩

/-- A wrapper at its return. -/
structure Finished (a : Attempt) (s u t : Cpu) : Prop where
  rsp : t.gpr .rsp = s.gpr .rsp + 8
  saved : ∀ r ∈ savedGprs a, t.gpr r = s.gpr r
  gpr : ∀ r, r ∉ savedGprs a → r ≠ .rsp → t.gpr r = u.gpr r
  same : SameBesides u t

/-- From `exception_handler` on, if the saved words are still on top of
the stack. -/
theorem run_finish {a : Attempt} {s u : Cpu}
    (hrsp : u.gpr .rsp + UInt64.ofNat (8 * (savedGprs a).length) = s.gpr .rsp)
    (hwords : words u.memory (u.gpr .rsp) ((savedGprs a).length + 1) =
      (savedGprs a).map s.gpr ++ [loadWord s.memory (s.gpr .rsp)]) (fuel : Nat) :
    ∃ t, runCode (exec env.code) (fun _ => none) ((savedGprs a).length + (fuel + 1))
        (wrapperOf a).handler u = some (t, .ret (loadWord s.memory (s.gpr .rsp))) ∧
      Finished a s u t := by
  -- The saved registers are distinct and RSP is not among them.
  have hsaved : .rsp ∉ savedGprs a ∧ (savedGprs a).Nodup := by cases a <;> decide
  obtain ⟨v, hpops, hrspv, hgprs, hother, hsame⟩ :=
    run_pops env.code (savedGprs a) hsaved.1 hsaved.2 u
  rw [words_add, ← hgprs] at hwords
  obtain ⟨hgprs, htop⟩ := List.append_inj hwords (by rw [List.length_map, List.length_map])
  have hret : exec env.code .ret v =
      some (v.dropWord, some (.ret (loadWord s.memory (s.gpr .rsp)))) := by
    rw [words, words, List.cons.injEq, ← hrspv, ← hsame.memory] at htop
    rw [← htop.1]
    rfl
  refine ⟨v.dropWord, ?_, ?_, ?_, ?_, { hsame with }⟩
  · have hlength : (savedGprs a).length = ((savedGprs a).map (@Instr.pop Label)).length :=
      (List.length_map ..).symm
    rw [handler_wrapperOf, hlength]
    exact (runCode_append _ _ _ hpops).trans (runCode_leave hret rfl)
  · rw [Cpu.dropWord, set_gpr, Function.update_self, hrspv, hrsp]
  · intro r hr
    have hne : r ≠ .rsp := fun h => hsaved.1 (h ▸ hr)
    rw [Cpu.dropWord, set_gpr_of_ne v _ hne]
    exact List.map_inj_left.mp hgprs r hr
  · intro r hr hne
    rw [Cpu.dropWord, set_gpr_of_ne v _ hne, hother r hr hne]

/-! ### A fault -/

/-- `handle_exception` as a C function: what it does to the `trap_frame`
and to the `exception_info` at an address, on `depth` bytes of stack.
The `exception_info` is a part of the `vcpu`, which is not on that
stack. -/
structure Handles (handler : Host Isr.Label) (info : UInt64) (depth : Nat) : Prop where
  /-- It does not return from what is unrecoverable. -/
  refuses : ∀ c f e, HasTrapFrame c.memory (c.gpr .rcx) f →
    f.vector = UInt64.ofBitVec ((vectorOf e).setWidth 64) →
      handleException (exceptionFrame e f) (loadExceptionInfo c.memory info) = none →
        handler.callee c = none
  returns : ∀ c f e g i,
    (∀ x, ¬Outside info 32 x →
      Outside (c.gpr .rcx - UInt64.ofNat depth) (depth + trapFrameSize) x) →
    HasTrapFrame c.memory (c.gpr .rcx) f →
    f.vector = UInt64.ofBitVec ((vectorOf e).setWidth 64) →
      handleException (exceptionFrame e f) (loadExceptionInfo c.memory info) = some (g, i) →
        ∃ d, handler.callee c = some d ∧ d.gpr .rsp = c.gpr .rsp ∧
          HasTrapFrame d.memory (c.gpr .rcx) { f with rip := UInt64.ofBitVec g.rip } ∧
          loadExceptionInfo d.memory info = i ∧
          ∀ x, Outside (c.gpr .rcx - UInt64.ofNat depth) (depth + trapFrameSize) x →
            Outside info 32 x → d.memory x = c.memory x

/-- Every host exception has a gate. -/
theorem vectorOf_mem (e : HostException) : vectorOf e ∈ gates.map Prod.fst := by
  cases e <;> decide

/-- The fault of a wrapper's instruction is expected, so that #GP and
#UD are recorded. Nothing else is recoverable. -/
theorem handleException_wrapper (w : Wrapper) (e : HostException) (errorCode : BitVec 64) :
    (∀ info, handleException (w.trapFrame e errorCode) info = none) ∨
      (e = .generalProtection ∨ e = .invalidOpcode) ∧
        ∀ info, ∃ i, handleException (w.trapFrame e errorCode) info =
          some ({ w.trapFrame e errorCode with rip := w.exceptionHandler }, i) := by
  -- R14 holds the address of the instruction, which is how the handler knows
  -- the fault.
  have hrecord : ∀ e info, ∃ i, recordFault (w.trapFrame e errorCode) info
      ((w.trapFrame e errorCode).r14 == (w.trapFrame e errorCode).rip) =
        some ({ w.trapFrame e errorCode with rip := w.exceptionHandler }, i) := by
    intro e info
    have hexpected : ((w.trapFrame e errorCode).r14 == (w.trapFrame e errorCode).rip) = true :=
      beq_self_eq_true w.exceptionInstruction
    rw [recordFault, if_pos hexpected]
    exact ⟨_, rfl⟩
  -- Only #GP and #UD are recorded. All other vectors are unrecoverable.
  cases e
  case generalProtection => exact Or.inr ⟨Or.inl rfl, fun info => hrecord _ info⟩
  case invalidOpcode => exact Or.inr ⟨Or.inr rfl, fun info => hrecord _ info⟩
  all_goals exact Or.inl fun _ => rfl

/-- The wrapper as `Revhv.Exception` has it. -/
def wrapper : Wrapper :=
  ⟨(env.code.addressOf .exceptionInstruction).toBitVec,
    (env.code.addressOf .exceptionHandler).toBitVec⟩

/-- The frame of the wrapper's fault is the one that `Wrapper.trapFrame`
has. -/
theorem exceptionFrame_frameOf {q : Cpu} (e : HostException) (errorCode : UInt64)
    (hr14 : q.gpr .r14 = env.code.addressOf .exceptionInstruction)
    (hr15 : q.gpr .r15 = env.code.addressOf .exceptionHandler) :
    exceptionFrame e (frameOf (vectorOf e) errorCode
        (env.code.addressOf .exceptionInstruction) q) =
      (wrapper env).trapFrame e errorCode.toBitVec := by
  have hvector : (vectorOf e).setWidth 16 = e.vector.setWidth 16 := by cases e <;> rfl
  simp only [exceptionFrame, frameOf, Wrapper.trapFrame, wrapper, hr14, hr15, hvector]
  congr 1
  split <;> rfl

/-- The record depends on its 32 bytes only. -/
theorem loadExceptionInfo_congr {memory memory' : UInt64 → UInt8} {info : UInt64}
    (h : ∀ x, ¬Outside info 32 x → memory' x = memory x) :
    loadExceptionInfo memory' info = loadExceptionInfo memory info := by
  -- The record is 32 bytes long, with a hole behind the flag.
  have hin : ∀ k < 32, memory' (info + UInt64.ofNat k) = memory (info + UInt64.ofNat k) := by
    intro k hk
    refine h _ ?_
    rw [Outside, toNat_add_sub_self info (by omega)]
    omega
  have hwords : words memory' info 3 = words memory info 3 :=
    words_congr fun k hk => hin k (by omega)
  have hbyte := hin 24 (by decide)
  simp only [words, List.cons.injEq, and_true] at hwords
  have hsecond : info + 8 + 8 = info + 16 := UInt64.add_assoc ..
  rw [hsecond] at hwords
  rw [loadExceptionInfo, loadExceptionInfo, hwords.1, hwords.2.1, hwords.2.2]
  congr 1
  exact congrArg (· != 0) hbyte

/-- The core behind a fault that was recorded. -/
structure Recorded (address : UInt64) (depth : Nat) (i : ExceptionInfo) (q u : Cpu) : Prop where
  gpr : u.gpr = q.gpr
  info : loadExceptionInfo u.memory address = i
  memory : ∀ x, Outside ((q.gpr .rsp &&& ~~~0xF) - UInt64.ofNat trapFrameSize - UInt64.ofNat depth)
    (depth + trapFrameSize) x → Outside address 32 x → u.memory x = q.memory x

/-- A fault at a wrapper's instruction, through the IDT and
`handle_exception`. -/
theorem interrupt_recorded {address : UInt64} {depth : Nat}
    (hisr : Set.InjOn env.isr {v | v ∈ gates.map Prod.fst})
    (hhandles : Handles env.handler address depth) (e : HostException) (errorCode : UInt64)
    {q : Cpu} (hr14 : q.gpr .r14 = env.code.addressOf .exceptionInstruction)
    (hr15 : q.gpr .r15 = env.code.addressOf .exceptionHandler)
    (hapart : ∀ x, ¬Outside address 32 x →
      Outside ((q.gpr .rsp &&& ~~~0xF) - UInt64.ofNat trapFrameSize - UInt64.ofNat depth)
        (depth + trapFrameSize) x) :
    (handleException ((wrapper env).trapFrame e errorCode.toBitVec)
        (loadExceptionInfo q.memory address) = none ∧
      Isr.interrupt env.isr env.ist env.handler (vectorOf e) errorCode
        (env.code.addressOf .exceptionInstruction) q = none) ∨
    ∃ g i u, handleException ((wrapper env).trapFrame e errorCode.toBitVec)
        (loadExceptionInfo q.memory address) = some (g, i) ∧
      Isr.interrupt env.isr env.ist env.handler (vectorOf e) errorCode
        (env.code.addressOf .exceptionInstruction) q =
          some (u, env.code.addressOf .exceptionHandler) ∧ Recorded address depth i q u := by
  have hframe := exceptionFrame_frameOf env e errorCode hr14 hr15
  obtain ⟨c, hc, hnone, hreturn⟩ := Isr.interrupt_present env.ist env.handler hisr (vectorOf_mem e)
    errorCode (env.code.addressOf .exceptionInstruction) q
  rw [Isr.stack_idtInitialize env.ist (vectorOf_mem e)] at hc
  -- The handler either refuses the vector or records it and moves RIP.
  rcases handleException_wrapper (wrapper env) e errorCode.toBitVec with hrefused | ⟨he, hrecorded⟩
  · refine Or.inl ⟨hrefused _, hnone (hhandles.refuses c _ e hc.frame rfl ?_)⟩
    rw [hframe]
    exact hrefused _
  · obtain ⟨i, hi⟩ := hrecorded (loadExceptionInfo q.memory address)
    have hstack : stackOf env.ist (vectorOf e) (q.gpr .rsp) = q.gpr .rsp &&& ~~~0xF := by
      rcases he with rfl | rfl <;> rfl
    rw [hstack] at hc
    have hbase : c.gpr .rcx = (q.gpr .rsp &&& ~~~0xF) - UInt64.ofNat trapFrameSize := by
      rw [← hc.rcx, UInt64.add_sub_cancel]
    -- The frame was pushed below the stack and so not over the record.
    have hinfo : loadExceptionInfo c.memory address = loadExceptionInfo q.memory address := by
      refine loadExceptionInfo_congr fun x hx => hc.memory x ?_
      refine (hapart x hx).part (o := depth) ?_ (Nat.le_refl _)
      rw [hbase, UInt64.sub_add_cancel]
    have hhandled : handleException (exceptionFrame e (frameOf (vectorOf e) errorCode
        (env.code.addressOf .exceptionInstruction) q)) (loadExceptionInfo c.memory address) =
          some ({ (wrapper env).trapFrame e errorCode.toBitVec with
            rip := (wrapper env).exceptionHandler }, i) := by
      rw [hframe, hinfo]
      exact hi
    obtain ⟨d, hd, hrsp, hleave, hwritten, houtside⟩ :=
      hhandles.returns c _ e _ i (hbase ▸ hapart) hc.frame rfl hhandled
    obtain ⟨u, hu, hleft⟩ := hreturn d _ hd hrsp hleave
    refine Or.inr ⟨_, i, u, hi, hu, ?_, ?_, ?_⟩
    · funext r
      by_cases hr : r = .rsp
      · rw [hr]
        exact hleft.rsp
      · exact hleft.gpr r hr
    · rw [hleft.memory, hwritten]
    · intro x hx hxinfo
      rw [hleft.memory, houtside x (hbase ▸ hx) hxinfo]
      refine hc.memory x ?_
      rw [Outside, ← hbase] at hx
      have hoffset := toNat_sub_add (x := x) (c.gpr .rcx - UInt64.ofNat depth) (o := depth)
        (by omega)
      rw [UInt64.sub_add_cancel] at hoffset
      omega

/-! ### A wrapper -/

/-- What an instruction does that faults or does not. It writes the
registers that it has to, and neither the wrapper's stack nor the
`exception_info`. -/
structure Attempted (a : Attempt) (address : UInt64) (p q : Cpu) : Prop where
  gpr : ∀ r, r ∉ attemptGprs a → q.gpr r = p.gpr r
  stack : ∀ x, ¬Outside (p.gpr .rsp) (8 * ((savedGprs a).length + 1)) x → q.memory x = p.memory x
  info : ∀ x, ¬Outside address 32 x → q.memory x = p.memory x

/-- How the attempt ends, as `Revhv.Exception` has it. -/
def attemptOf : Option (HostException × UInt64) → HostAttempt
  | none => .success
  | some (e, errorCode) => .fault e errorCode.toBitVec

/-- The stack that a wrapper and a fault in it may use. -/
def stackSize (depth : Nat) : Nat := depth + 256

/-- The `exception_info` is not on the stack. -/
def InfoApart (address : UInt64) (depth : Nat) (s : Cpu) : Prop :=
  ∀ x, ¬Outside address 32 x →
    Outside (s.gpr .rsp - UInt64.ofNat (stackSize depth)) (stackSize depth + 8) x

/-- The wrapper's words on the stack, and what is left of them by the
instruction. -/
theorem words_attempted {a : Attempt} {address : UInt64} {s p q : Cpu}
    (hprepared : Prepared env a s p) (hattempted : Attempted a address p q) :
    words q.memory (p.gpr .rsp) ((savedGprs a).length + 1) =
      (savedGprs a).map s.gpr ++ [loadWord s.memory (s.gpr .rsp)] := by
  rw [← hprepared.words]
  have hsmall : 8 * ((savedGprs a).length + 1) ≤ 40 := by cases a <;> decide
  refine words_congr fun k hk => hattempted.stack _ ?_
  rw [Outside, toNat_add_sub_self (p.gpr .rsp) (by omega)]
  omega

/-- Where the frame of a fault is: below the wrapper's words, in its
part of the stack. -/
theorem frame_position {a : Attempt} {s p : Cpu} (hprepared : Prepared env a s p) (depth : Nat) :
    ∃ o, o + (depth + trapFrameSize) + (p.gpr .rsp &&& 0xF).toNat + 8 * (savedGprs a).length =
        stackSize depth ∧
      s.gpr .rsp - UInt64.ofNat (stackSize depth) + UInt64.ofNat o =
        (p.gpr .rsp &&& ~~~0xF) - UInt64.ofNat trapFrameSize - UInt64.ofNat depth := by
  have hlow := toNat_align_lt (p.gpr .rsp)
  have hlength : 8 * (savedGprs a).length ≤ 32 := by cases a <;> decide
  -- The frame is aligned down from RSP, so up to 15 bytes lie between them.
  refine ⟨stackSize depth - (depth + trapFrameSize) - (p.gpr .rsp &&& 0xF).toNat -
    8 * (savedGprs a).length, ?_, ?_⟩
  · rw [stackSize, trapFrameSize]
    omega
  · generalize ho : stackSize depth - (depth + trapFrameSize) - (p.gpr .rsp &&& 0xF).toNat -
      8 * (savedGprs a).length = o
    have hsize : stackSize depth = o + 8 * (savedGprs a).length + (p.gpr .rsp &&& 0xF).toNat +
        trapFrameSize + depth := by
      rw [← ho, stackSize, trapFrameSize]
      omega
    have htop : p.gpr .rsp &&& ~~~0xF = p.gpr .rsp - (p.gpr .rsp &&& 0xF) := by
      have hsplit := align_add (p.gpr .rsp)
      generalize p.gpr .rsp &&& ~~~0xF = top at hsplit ⊢
      generalize p.gpr .rsp &&& 0xF = low at hsplit ⊢
      rw [← hsplit, UInt64.add_sub_cancel]
    rw [htop, ← hprepared.rsp, hsize]
    simp only [UInt64.ofNat_add, UInt64.ofNat_toNat]
    grind

/-- What is not in the wrapper's part of the stack is apart from the
wrapper's words. -/
theorem Prepared.outside {a : Attempt} {s p : Cpu} {depth : Nat} {x : UInt64}
    (hprepared : Prepared env a s p)
    (hx : Outside (s.gpr .rsp - UInt64.ofNat (stackSize depth)) (stackSize depth + 8) x) :
    Outside (p.gpr .rsp) (8 * ((savedGprs a).length + 1)) x := by
  have hlength : 8 * (savedGprs a).length ≤ stackSize depth := by
    rw [stackSize]
    cases a <;> simp only [savedGprs, List.length_cons, List.length_nil] <;> omega
  refine hx.part (o := stackSize depth - 8 * (savedGprs a).length) ?_ (by omega)
  generalize ho : stackSize depth - 8 * (savedGprs a).length = o
  have hsize : stackSize depth = o + 8 * (savedGprs a).length := by omega
  rw [← hprepared.rsp, hsize, UInt64.ofNat_add]
  grind

/-- The wrapper's words behind a fault that was recorded. -/
theorem words_recorded {a : Attempt} {address : UInt64} {depth : Nat} {i : ExceptionInfo}
    {s p q u : Cpu} (hdepth : depth < 2 ^ 62) (hprepared : Prepared env a s p)
    (hattempted : Attempted a address p q) (hrsp : q.gpr .rsp = p.gpr .rsp)
    (hinfo : InfoApart address depth s) (hrecorded : Recorded address depth i q u) :
    words u.memory (p.gpr .rsp) ((savedGprs a).length + 1) =
      (savedGprs a).map s.gpr ++ [loadWord s.memory (s.gpr .rsp)] := by
  rw [← words_attempted env hprepared hattempted]
  have hlow := toNat_align_lt (p.gpr .rsp)
  have hsmall : 8 * ((savedGprs a).length + 1) ≤ 40 := by cases a <;> decide
  refine words_congr fun k hk => hrecorded.memory _ ?_ ?_
  · -- The words are above the frame of the fault.
    have hposition : p.gpr .rsp + UInt64.ofNat k -
        ((q.gpr .rsp &&& ~~~0xF) - UInt64.ofNat trapFrameSize - UInt64.ofNat depth) =
          UInt64.ofNat (k + (p.gpr .rsp &&& 0xF).toNat + trapFrameSize + depth) := by
      rw [hrsp]
      have hsplit := align_add (p.gpr .rsp)
      simp only [UInt64.ofNat_add, UInt64.ofNat_toNat]
      grind
    rw [Outside, hposition, UInt64.toNat_ofNat_of_lt' (show _ < 2 ^ 64 by
      rw [trapFrameSize]; omega)]
    omega
  · by_contra hinside
    have hout := hprepared.outside env (hinfo _ hinside)
    rw [Outside, toNat_add_sub_self (p.gpr .rsp) (by omega)] at hout
    omega

/-- What a wrapper's caller gets back. -/
structure Returned (s t : Cpu) (address : UInt64) : Prop where
  address : address = loadWord s.memory (s.gpr .rsp)
  rsp : t.gpr .rsp = s.gpr .rsp + 8
  gpr : ∀ r ∈ nonvolatileGprs, t.gpr r = s.gpr r

/-- The code behind the attempt: RAX and RDX may change, and memory
stays. RDMSR joins its halves in RAX. -/
theorem run_after (a : Attempt) (q : Cpu) :
    ∃ u, run (exec env.code) (after a) q = some (u, none) ∧ u.memory = q.memory ∧
      (∀ r, r ∉ [Gpr.rax, .rdx] → u.gpr r = q.gpr r) ∧
      (a = .rdmsr → u.gpr .rax = q.gpr .rax ||| q.gpr .rdx <<< 32) := by
  by_cases ha : a = .rdmsr
  · subst ha
    refine ⟨_, rfl, rfl, ?_, fun _ => rfl⟩
    intro r hr
    cases r <;> first | exact absurd (by decide) hr | rfl
  · refine ⟨q, ?_, rfl, fun _ _ => rfl, fun h => absurd h ha⟩
    cases a <;> first | exact absurd rfl ha | rfl

/-- The end of a wrapper, with the registers that its instruction has
left or that the fault has kept. -/
theorem finished_returned {a : Attempt} {address : UInt64} {s p q u t : Cpu}
    (hprepared : Prepared env a s p) (hattempted : Attempted a address p q)
    (hu : ∀ r, r ∉ [Gpr.rax, .rdx] → u.gpr r = q.gpr r) (hfinished : Finished a s u t) :
    Returned s t (loadWord s.memory (s.gpr .rsp)) := by
  refine ⟨rfl, hfinished.rsp, fun r hr => ?_⟩
  -- A nonvolatile register is popped, or no instruction of the wrapper touches
  -- it.
  by_cases hsaved : r ∈ savedGprs a
  · exact hfinished.saved r hsaved
  · have hscratch : r ∉ [Gpr.rax, .rdx] ∧ r ≠ .rsp ∧ r ∉ attemptGprs a := by
      simp only [nonvolatileGprs, List.mem_cons, List.not_mem_nil, or_false] at hr
      rcases hr with rfl | rfl | rfl | rfl | rfl | rfl | rfl | rfl <;> cases a <;>
        first | decide | exact absurd (by decide) hsaved
    rw [hfinished.gpr r hsaved hscratch.2.1, hu r hscratch.1, hattempted.gpr r hscratch.2.2]
    -- RSI and RDI are used by the string move only, and it saves them.
    by_cases hcommon : r ∈ [Gpr.rbx, .rbp, .r12, .r13]
    · exact hprepared.gpr r hcommon
    · have hindex : (r = .rsi ∨ r = .rdi) ∧ a ≠ .repMovsb := by
        simp only [nonvolatileGprs, List.mem_cons, List.not_mem_nil, or_false] at hr
        rcases hr with rfl | rfl | rfl | rfl | rfl | rfl | rfl | rfl <;> cases a <;>
          first | decide | exact absurd (by decide) hsaved | exact absurd (by decide) hcommon
      rcases hindex.1 with rfl | rfl
      · exact (hprepared.index hindex.2).1
      · exact (hprepared.index hindex.2).2

/-- A wrapper up to its instruction. -/
theorem runCode_attempt (a : Attempt) {s p : Cpu}
    (hrun : run (exec env.code) (before a) s = some (p, none)) :
    ∃ fuel, runCode (exec env.code) (fun _ => none) 100
        ((wrapperOf a).body ++ (wrapperOf a).handler) s =
      runCode (exec env.code) (fun _ => none)
        ((after a).length + ((savedGprs a).length + (fuel + 1)) + 1)
        (.attempt a :: (after a ++ (wrapperOf a).handler)) p := by
  have hlength : (before a).length + (after a).length + (savedGprs a).length ≤ 13 := by
    cases a <;> decide
  -- A hundred steps are more than any of the wrappers takes.
  refine ⟨98 - (before a).length - (after a).length - (savedGprs a).length, ?_⟩
  have hfuel : 100 = (before a).length + ((after a).length + ((savedGprs a).length +
      (98 - (before a).length - (after a).length - (savedGprs a).length + 1)) + 1) := by
    omega
  rw [body_wrapperOf, List.append_assoc, List.cons_append]
  exact (congrArg (fun fuel => runCode (exec env.code) (fun _ => none) fuel _ s) hfuel).trans
    (runCode_append _ _ _ hrun)

/-- A wrapper whose instruction does not fault. -/
theorem runWrapper_success {a : Attempt} {address : UInt64} {s p q : Cpu}
    (hrun : run (exec env.code) (before a) s = some (p, none)) (hprepared : Prepared env a s p)
    (hattempted : Attempted a address p q) (hq : env.code.attempt a p = (q, none)) :
    ∃ t ra, runWrapper env (wrapperOf a) s = some (t, ra) ∧ Returned s t ra ∧
      t.memory = q.memory ∧ (a = .rdmsr → t.gpr .rax = q.gpr .rax ||| q.gpr .rdx <<< 32) := by
  obtain ⟨fuel, hcode⟩ := runCode_attempt env a hrun
  obtain ⟨u, hafter, hmemory, hgpr, hrax⟩ := run_after env a q
  have hrsp : u.gpr .rsp = p.gpr .rsp := by
    rw [hgpr .rsp (by decide), hattempted.gpr .rsp (by cases a <;> decide)]
  obtain ⟨t, ht, hfinished⟩ := run_finish env (a := a) (s := s) (u := u)
    (hrsp ▸ hprepared.rsp) (by rw [hmemory, hrsp]; exact words_attempted env hprepared hattempted)
    fuel
  -- The instruction does not fault, so the code behind it runs.
  have hattempt : exec env.code (.attempt a) p = some (q, none) := by
    rw [exec, hq]
  refine ⟨t, _, ?_, finished_returned env hprepared hattempted hgpr hfinished,
    hfinished.same.memory.trans hmemory, fun ha => ?_⟩
  · rw [runWrapper, hcode, runCode_next hattempt, runCode_append _ _ _ hafter, ht]
  · rw [hfinished.gpr .rax (by cases a <;> decide) (by decide), hrax ha]

/-- A wrapper whose instruction faults. -/
theorem runWrapper_fault {a : Attempt} {s p q : Cpu} {e : HostException} {errorCode : UInt64}
    (hrun : run (exec env.code) (before a) s = some (p, none))
    (hq : env.code.attempt a p = (q, some (e, errorCode))) :
    runWrapper env (wrapperOf a) s = afterFault env (wrapperOf a) e errorCode q := by
  obtain ⟨fuel, hcode⟩ := runCode_attempt env a hrun
  have hattempt : exec env.code (.attempt a) p = some (q, some (.fault e errorCode)) := by
    rw [exec, hq]
  rw [runWrapper, hcode, runCode_leave hattempt rfl]

/-- A wrapper does to `exception_info` what `Wrapper.run` does, and
returns to its caller unless the fault is unrecoverable. -/
theorem runWrapper_refines {address : UInt64} {depth : Nat} (hdepth : depth < 2 ^ 62)
    (hisr : Set.InjOn env.isr {v | v ∈ gates.map Prod.fst})
    (hhandles : Handles env.handler address depth) (a : Attempt) {s : Cpu}
    (hinfo : InfoApart address depth s) :
    ∃ p, Prepared env a s p ∧ ∀ q outcome, env.code.attempt a p = (q, outcome) →
      Attempted a address p q →
        (runWrapper env (wrapperOf a) s).map (fun r => loadExceptionInfo r.1.memory address) =
            (wrapper env).run (attemptOf outcome) (loadExceptionInfo s.memory address) ∧
          ∀ t ra, runWrapper env (wrapperOf a) s = some (t, ra) → Returned s t ra ∧
            (a = .rdmsr → outcome = none →
              t.gpr .rax = q.gpr .rax ||| q.gpr .rdx <<< 32) := by
  obtain ⟨p, hrun, hprepared⟩ := run_prepare env a s
  refine ⟨p, hprepared, fun q outcome hq hattempted => ?_⟩
  -- The instruction leaves `exception_info` alone.
  have hkept : loadExceptionInfo q.memory address = loadExceptionInfo s.memory address := by
    refine loadExceptionInfo_congr fun x hx => ?_
    rw [hattempted.info x hx]
    have hout := hprepared.outside env (hinfo x hx)
    rw [Outside] at hout
    exact hprepared.memory x (by omega)
  cases outcome with
  | none =>
    obtain ⟨t, ra, ht, hreturned, hmemory, hrax⟩ :=
      runWrapper_success env hrun hprepared hattempted hq
    rw [ht]
    refine ⟨?_, ?_⟩
    · rw [Option.map_some, hmemory, hkept]
      rfl
    · intro t' ra' h
      cases h
      exact ⟨hreturned, fun ha _ => hrax ha⟩
  | some fault =>
    obtain ⟨e, errorCode⟩ := fault
    rw [runWrapper_fault env hrun hq]
    have hgpr : ∀ r ∉ attemptGprs a, q.gpr r = p.gpr r := hattempted.gpr
    have hrsp : q.gpr .rsp = p.gpr .rsp := hgpr _ (by cases a <;> decide)
    have hr14 : q.gpr .r14 = _ := (hgpr _ (by cases a <;> decide)).trans hprepared.r14
    have hr15 : q.gpr .r15 = _ := (hgpr _ (by cases a <;> decide)).trans hprepared.r15
    obtain ⟨o, ho, hframe⟩ := frame_position env hprepared depth
    have hapart : ∀ x, ¬Outside address 32 x →
        Outside ((q.gpr .rsp &&& ~~~0xF) - UInt64.ofNat trapFrameSize - UInt64.ofNat depth)
          (depth + trapFrameSize) x := by
      intro x hx
      refine (hinfo x hx).part (o := o) ?_ (by omega)
      rw [hframe, hrsp]
    rcases interrupt_recorded env hisr hhandles e errorCode hr14 hr15 hapart with
      ⟨hnone, hinterrupt⟩ | ⟨g, i, u, hsome, hinterrupt, hrecorded⟩
    · rw [hkept] at hnone
      rw [afterFault, hinterrupt, attemptOf, Wrapper.run, hnone]
      exact ⟨rfl, fun t ra h => by cases h⟩
    · rw [hkept] at hsome
      have hrspu : u.gpr .rsp = p.gpr .rsp := (congrFun hrecorded.gpr _).trans hrsp
      obtain ⟨t, ht, hfinished⟩ := run_finish env (a := a) (s := s) (u := u)
        (hrspu ▸ hprepared.rsp)
        (by rw [hrspu]; exact words_recorded env hdepth hprepared hattempted hrsp hinfo hrecorded)
        (99 - (savedGprs a).length)
      have hfuel : (savedGprs a).length + (99 - (savedGprs a).length + 1) = 100 := by
        cases a <;> rfl
      rw [hfuel] at ht
      have hback : afterFault env (wrapperOf a) e errorCode q =
          some (t, loadWord s.memory (s.gpr .rsp)) := by
        rw [afterFault, hinterrupt]
        simp only [Option.bind_eq_bind, Option.bind_some, if_true, ht]
        rfl
      rw [hback]
      refine ⟨?_, ?_⟩
      · rw [Option.map_some, hfinished.same.memory, hrecorded.info, attemptOf, Wrapper.run, hsome]
        rfl
      · intro t' ra h
        cases h
        exact ⟨finished_returned env hprepared hattempted
          (fun r _ => congrFun hrecorded.gpr r) hfinished, fun _ h => by cases h⟩

/-! ### A compiled `handle_exception` -/

/-- The exception of a vector. -/
def exceptionOf (vector : UInt64) : Option HostException :=
  [.divideError, .debug, .breakpoint, .overflow, .boundRangeExceeded, .invalidOpcode,
    .deviceNotAvailable, .doubleFault, .invalidTss, .segmentNotPresent, .stackSegmentFault,
    .generalProtection, .pageFault, .x87FloatingPointError, .alignmentCheck, .machineCheck,
    .simdFloatingPointError, .virtualizationException, .controlProtection].find?
      fun e => UInt64.ofBitVec ((vectorOf e).setWidth 64) == vector

/-- The vector of an exception names it. -/
theorem exceptionOf_vectorOf (e : HostException) :
    exceptionOf (UInt64.ofBitVec ((vectorOf e).setWidth 64)) = some e := by
  cases e <;> rfl

/-- The members of an `exception_info` in memory. -/
def infoSlots (i : ExceptionInfo) : List Slot :=
  [⟨0, leBytes 8 i.exceptionVector.toNat⟩, ⟨8, leBytes 8 i.errorCode.toNat⟩,
    ⟨16, leBytes 8 i.additionalInfo1.toNat⟩, ⟨24, [if i.exceptionOccurred then 1 else 0]⟩]

/-- The record that was written is read. -/
theorem loadExceptionInfo_writeSlots (memory : UInt64 → UInt8) (info : UInt64) (i : ExceptionInfo) :
    loadExceptionInfo (writeSlots memory info (infoSlots i)) info = i := by
  have hfits : ∀ t ∈ infoSlots i, t.Fits := by
    intro t ht
    simp only [infoSlots, List.mem_cons, List.not_mem_nil, or_false] at ht
    rcases ht with rfl | rfl | rfl | rfl <;> simp [Slot.Fits, length_leBytes]
  have hapart : (infoSlots i).Pairwise Slot.Apart := by
    simp [infoSlots, Slot.Apart, length_leBytes]
  have hbytes : ∀ t ∈ infoSlots i,
      Lib.bytesAt (writeSlots memory info (infoSlots i)) (info + UInt64.ofNat t.offset)
        t.bytes.length = t.bytes := fun t ht => bytesAt_writeSlots hfits hapart ht
  -- The slots do not overlap, so each word is read back from its own.
  have hword : ∀ (o : Nat) (v : BitVec 64), ⟨o, leBytes 8 v.toNat⟩ ∈ infoSlots i →
      (loadWord (writeSlots memory info (infoSlots i)) (info + UInt64.ofNat o)).toBitVec = v := by
    intro o v hslot
    have hslot := hbytes _ hslot
    have hvalue := leValue_word (UInt64.ofBitVec v) []
    rw [List.append_nil] at hvalue
    rw [length_leBytes] at hslot
    rw [loadWord, hslot]
    exact congrArg UInt64.toBitVec hvalue
  have hzero : info + UInt64.ofNat 0 = info := UInt64.add_zero info
  have hbyte := hbytes ⟨24, [if i.exceptionOccurred then 1 else 0]⟩ (by simp [infoSlots])
  have hvector := hword 0 i.exceptionVector (by simp [infoSlots])
  rw [hzero] at hvector
  have hoccurred : writeSlots memory info (infoSlots i) (info + 24) =
      if i.exceptionOccurred then 1 else 0 := by
    simpa [Lib.bytesAt] using hbyte
  rw [loadExceptionInfo, hvector, hoccurred]
  have herror : (loadWord (writeSlots memory info (infoSlots i)) (info + 8)).toBitVec =
      i.errorCode := hword 8 _ (by simp [infoSlots])
  have hadditional : (loadWord (writeSlots memory info (infoSlots i)) (info + 16)).toBitVec =
      i.additionalInfo1 := hword 16 _ (by simp [infoSlots])
  rw [herror, hadditional]
  cases i with
  | mk _ _ _ occurred => cases occurred <;> rfl

/-- The word of a `trap_frame` at an index. -/
def frameWord (c : Cpu) (k : Nat) : UInt64 :=
  loadWord c.memory (c.gpr .rcx + UInt64.ofNat (8 * k))

/-- `handle_exception` by the memory that it reads and writes. -/
def compiledHandler (info : UInt64) (c : Cpu) : Option Cpu := do
  let e ← exceptionOf (frameWord c 15)
  let (g, i) ← handleException
    ⟨(frameWord c 13).toBitVec, (frameWord c 14).toBitVec, e, (frameWord c 16).toBitVec,
      (frameWord c 17).toBitVec⟩ (loadExceptionInfo c.memory info)
  some { c with
    memory := storeWord (writeSlots c.memory info (infoSlots i))
      (c.gpr .rcx + UInt64.ofNat (8 * 17)) (UInt64.ofBitVec g.rip) }

/-- What it reads in a frame. -/
theorem compiledHandler_frame (info : UInt64) {c : Cpu} {f : Isr.TrapFrame} {e : HostException}
    (hframe : HasTrapFrame c.memory (c.gpr .rcx) f)
    (hvector : f.vector = UInt64.ofBitVec ((vectorOf e).setWidth 64)) :
    compiledHandler info c =
      (handleException (exceptionFrame e f) (loadExceptionInfo c.memory info)).map fun r =>
        { c with
          memory := storeWord (writeSlots c.memory info (infoSlots r.2))
            (c.gpr .rcx + UInt64.ofNat (8 * 17)) (UInt64.ofBitVec r.1.rip) } := by
  have hword : ∀ k (hk : k < 22), frameWord c k = f.words[k] := by
    intro k hk
    have hword := getElem?_words c.memory (c.gpr .rcx) hk
    rw [hframe, List.getElem?_eq_getElem hk, Option.some.injEq] at hword
    exact hword.symm
  have h15 : frameWord c 15 = f.vector := hword 15 (by decide)
  have h13 : frameWord c 13 = f.gpr .r14 := hword 13 (by decide)
  have h14 : frameWord c 14 = f.gpr .r15 := hword 14 (by decide)
  have h16 : frameWord c 16 = f.errorCode := hword 16 (by decide)
  have h17 : frameWord c 17 = f.rip := hword 17 (by decide)
  -- The handler reads these five words of the frame and no others.
  rw [compiledHandler, h15, hvector, exceptionOf_vectorOf, h13, h14, h16, h17]
  exact (Option.map_eq_bind ..).symm

/-- The compiled handler meets what `Handles` asks for. -/
theorem handles_compiledHandler (info : UInt64) (depth : Nat) (addressOf : Isr.Label → UInt64)
    (attempt : Attempt → Cpu → Cpu × Option (HostException × UInt64)) :
    Handles { addressOf, attempt, callee := compiledHandler info } info depth := by
  constructor
  case refuses =>
    intro c f e hframe hvector hrefused
    show compiledHandler info c = none
    rw [compiledHandler_frame info hframe hvector, hrefused, Option.map_none]
  case returns =>
    intro c f e g i hapart hframe hvector hhandled
    have hinfo : ∀ t ∈ infoSlots i, t.offset + t.bytes.length ≤ 32 := by
      intro t ht
      simp only [infoSlots, List.mem_cons, List.not_mem_nil, or_false] at ht
      rcases ht with rfl | rfl | rfl | rfl <;> simp [length_leBytes]
    have hback : c.gpr .rcx - UInt64.ofNat depth + UInt64.ofNat (depth + 8 * 17) =
        c.gpr .rcx + UInt64.ofNat (8 * 17) := by
      rw [UInt64.ofNat_add, ← UInt64.add_assoc, UInt64.sub_add_cancel]
    have hrip : ∀ x, Outside (c.gpr .rcx - UInt64.ofNat depth) (depth + trapFrameSize) x →
        ∀ memory value, storeWord memory (c.gpr .rcx + UInt64.ofNat (8 * 17)) value x =
          memory x := by
      intro x hx memory value
      refine store_outside ?_
      rw [length_leBytes]
      exact hx.part hback (by rw [trapFrameSize]; omega)
    have hd := compiledHandler_frame info hframe hvector
    rw [hhandled, Option.map_some] at hd
    refine ⟨_, hd, rfl, ?_, ?_, ?_⟩
    · -- The `exception_info` is apart from the frame, and RIP is one of its words.
      have hslots : words (writeSlots c.memory info (infoSlots i)) (c.gpr .rcx) 22 =
          words c.memory (c.gpr .rcx) 22 := by
        refine words_congr fun k hk => writeSlots_outside hinfo ?_
        by_contra hinside
        have hout := hapart _ hinside
        have hoffset : c.gpr .rcx + UInt64.ofNat k - (c.gpr .rcx - UInt64.ofNat depth) =
            UInt64.ofNat (k + depth) := by
          rw [UInt64.ofNat_add]
          grind
        rw [Outside, hoffset, UInt64.toNat_ofNat', trapFrameSize] at hout
        omega
      show words _ _ 22 = _
      rw [words_storeWord_at _ _ _ (show 17 < 22 by decide) (by decide), hslots, hframe]
      rfl
    · rw [loadExceptionInfo_congr fun x hx => hrip x (hapart x hx) _ _]
      exact loadExceptionInfo_writeSlots ..
    · intro x hx hxinfo
      exact (hrip x hx _ _).trans (writeSlots_outside hinfo hxinfo)

/-- An MSR that cannot be read. -/
def sampleEnv : Env where
  code :=
    { addressOf := fun
        | .exceptionInstruction => 0x5000
        | .exceptionHandler => 0x5010
      callee := fun _ => none
      attempt := fun _ s => (s, some (.generalProtection, 0)) }
  isr := Isr.sampleIsr
  ist _ := 0
  handler := { Isr.sampleHandler with callee := compiledHandler 0x8000 }

/-- The record of the sample is off its stack. -/
theorem infoApart_sampleCpu : InfoApart 0x8000 0x1000 sampleCpu := by
  have hbase : sampleCpu.gpr .rsp - UInt64.ofNat (stackSize 0x1000) = 0xEF00 := rfl
  intro x hx
  have hlt := x.toNat_lt
  have hinfo : (0x8000 : UInt64).toNat = 0x8000 := rfl
  have hstack : (0xEF00 : UInt64).toNat = 0xEF00 := rfl
  rw [Outside, UInt64.toNat_sub, hinfo] at hx
  rw [Outside, hbase, UInt64.toNat_sub, hstack, stackSize]
  omega

/-- The wrapper of RDMSR on an MSR that raises `#GP`. -/
theorem runWrapper_refines_gp :
    ∃ t ra, runWrapper sampleEnv rdmsrWrapper sampleCpu = some (t, ra) ∧
      loadExceptionInfo t.memory 0x8000 = ⟨13, 0, 0, true⟩ ∧
      ∀ r ∈ nonvolatileGprs, t.gpr r = sampleCpu.gpr r := by
  obtain ⟨p, -, h⟩ := runWrapper_refines sampleEnv (show 0x1000 < 2 ^ 62 by decide)
    Isr.injOn_sampleIsr (handles_compiledHandler 0x8000 0x1000 _ _) .rdmsr infoApart_sampleCpu
  obtain ⟨hrun, hreturned⟩ := h p _ rfl
    ⟨fun _ _ => rfl, fun _ _ => rfl, fun _ _ => rfl⟩
  have hinfo : (wrapper sampleEnv).run (attemptOf (some (.generalProtection, 0)))
      (loadExceptionInfo sampleCpu.memory 0x8000) = some ⟨13, 0, 0, true⟩ := rfl
  obtain ⟨⟨t, ra⟩, ht, hvalue⟩ := Option.map_eq_some_iff.mp (hrun.trans hinfo)
  exact ⟨t, ra, ht, hvalue, (hreturned t ra ht).1.gpr⟩

end Revhv.ExceptionWrappers
