import Mathlib.Data.Bool.AllAny
import Mathlib.Data.List.Nodup
import Mathlib.Data.Set.Function
import Revhv.Km.Isr
import Revhv.Proofs.Assembly

/-!
# `Revhv.Proofs.Isr`: an exception or an NMI, from end to end

* `idtInitialize_gate`, `idtInitialize_absent`: the vectors that have a gate, and where it leads.
* `run_enterHandler`, `run_leaveHandler`: the two halves of `generic_isr`.
* `interrupt_returns`: what `handle_exception` is given, and what its `trap_frame` becomes.
-/

set_option autoImplicit false

namespace Revhv.Isr

open Revhv.Asm
open Revhv.Lib.RecordLayout Revhv.Lib.StackFrame Revhv.Lib.StraightLine

variable {isr : BitVec 8 → UInt64} (ist : BitVec 3 → UInt64) (host : Host Label)

/-! ### The IDT -/

/-- The parts of an address that a gate has make up the address. -/
theorem address_parts (x : BitVec 64) :
    (x >>> 32).setWidth 32 ++ ((x >>> 16) &&& 0xFFFF).setWidth 16 ++
      (x &&& 0xFFFF).setWidth 16 = x := by
  -- The address is cut into three parts, the low two of 16 bits.
  have hmask : ∀ y : BitVec 64, (y &&& 0xFFFF).setWidth 16 = y.setWidth 16 := by
    intro y
    rw [BitVec.setWidth_and]
    exact BitVec.and_allOnes
  rw [hmask, hmask]
  refine BitVec.eq_of_getLsbD_eq fun i hi => ?_
  simp only [BitVec.getLsbD_append, BitVec.getLsbD_setWidth, BitVec.getLsbD_ushiftRight]
  by_cases h16 : i < 16
  · simp [h16]
  · by_cases h32 : i - 16 < 16
    · have hi : 16 + (i - 16) = i := by omega
      simp [h16, h32, hi]
    · have hi' : 32 + (i - 16 - 16) = i := by omega
      have hlt : i - 16 - 16 < 32 := by omega
      simp [h16, h32, hi', hlt]

/-- The gate that `define_gate` fills in. -/
def gateOf (handler : UInt64) (istIndex : BitVec 8) (trapGate : Bool) : Gate :=
  defineGate (fun _ => Gate.zero) 0 handler istIndex trapGate 0

/-- A gate is at its own vector. -/
theorem defineGate_self (idt : BitVec 8 → Gate) (v : BitVec 8) (handler : UInt64)
    (istIndex : BitVec 8) (trapGate : Bool) :
    defineGate idt v handler istIndex trapGate v = gateOf handler istIndex trapGate := by
  rw [gateOf, defineGate, defineGate, Function.update_self, Function.update_self]

/-- It leaves the other vectors. -/
theorem defineGate_other (idt : BitVec 8 → Gate) {v w : BitVec 8} (h : w ≠ v) (handler : UInt64)
    (istIndex : BitVec 8) (trapGate : Bool) :
    defineGate idt v handler istIndex trapGate w = idt w :=
  Function.update_of_ne h ..

/-- The processor finds the address that the gate was filled with. -/
theorem offset_gateOf (handler : UInt64) (istIndex : BitVec 8) (trapGate : Bool) :
    (gateOf handler istIndex trapGate).offset = handler := by
  rw [gateOf, defineGate, Function.update_self]
  exact UInt64.toBitVec_inj.mp (address_parts handler.toBitVec)

section
variable (isr) (idt : BitVec 8 → Gate) (calls : List (BitVec 8 × BitVec 8 × Bool))

/-- A vector that no call defines keeps its gate. -/
theorem foldl_defineGate_absent {v : BitVec 8} (hv : v ∉ calls.map Prod.fst) :
    calls.foldl (fun idt gate => defineGate idt gate.1 (isr gate.1) gate.2.1 gate.2.2) idt v =
      idt v := by
  induction calls generalizing idt with
  | nil => rfl
  | cons c calls ih =>
    obtain ⟨hne, hv⟩ := not_or.mp (fun h => hv (List.mem_cons.mpr h))
    rw [List.foldl_cons, ih _ hv, defineGate_other _ hne]

/-- No call of `define_gate` undoes another one. -/
theorem foldl_defineGate {gate : BitVec 8 × BitVec 8 × Bool} (hgate : gate ∈ calls)
    (hnodup : (calls.map Prod.fst).Nodup) :
    calls.foldl (fun idt gate => defineGate idt gate.1 (isr gate.1) gate.2.1 gate.2.2) idt gate.1 =
      gateOf (isr gate.1) gate.2.1 gate.2.2 := by
  induction calls generalizing idt with
  | nil => cases hgate
  | cons c calls ih =>
    obtain ⟨hfresh, hnodup⟩ := List.nodup_cons.mp hnodup
    rw [List.foldl_cons]
    rcases List.mem_cons.mp hgate with rfl | hgate
    · rw [foldl_defineGate_absent isr _ _ hfresh, defineGate_self]
    · exact ih _ hgate hnodup

end

/-- Every call of `idt::initialize` ends up in the table, since no
vector comes twice. -/
theorem idtInitialize_gate {gate : BitVec 8 × BitVec 8 × Bool} (hgate : gate ∈ gates) :
    idtInitialize isr gate.1 = gateOf (isr gate.1) gate.2.1 gate.2.2 :=
  foldl_defineGate isr _ gates hgate (by decide)

/-- All other vectors have no gate. -/
theorem idtInitialize_absent {v : BitVec 8} (hv : v ∉ gates.map Prod.fst) :
    idtInitialize isr v = Gate.zero :=
  foldl_defineGate_absent isr _ gates hv

/-! ### The routines -/

/-- The routines are those of the gates. -/
theorem isrs_gates : isrs.map Prod.fst = gates.map Prod.fst := rfl

/-- The routine of a vector pushes a dummy where the processor pushes no
error code. -/
theorem isrs_kind : ∀ entry ∈ isrs, entry.2 =
    if Exception.vectorHasErrorCode (entry.1.setWidth 16) then isrErr entry.1
    else isrNoErr entry.1 := by
  intro entry hentry
  simp only [isrs, List.mem_cons, List.not_mem_nil, or_false] at hentry
  rcases hentry with rfl | rfl | rfl | rfl | rfl | rfl | rfl | rfl | rfl | rfl | rfl | rfl | rfl |
    rfl | rfl | rfl | rfl | rfl | rfl | rfl <;> rfl

/-- Labels at different addresses are told apart. -/
theorem codeAt_isr (hisr : Set.InjOn isr {v | v ∈ gates.map Prod.fst}) {v : BitVec 8}
    (hv : v ∈ gates.map Prod.fst) :
    codeAt isr (isr v) = some (if Exception.vectorHasErrorCode (v.setWidth 16) then isrErr v
      else isrNoErr v) := by
  have hsome : (isrs.find? fun entry => isr entry.1 == isr v).isSome := by
    obtain ⟨entry, hentry, rfl⟩ := List.mem_map.mp (show v ∈ isrs.map Prod.fst from hv)
    exact List.find?_isSome.mpr ⟨entry, hentry, beq_self_eq_true _⟩
  obtain ⟨entry, hentry⟩ := Option.isSome_iff_exists.mp hsome
  have hin := List.mem_of_find?_eq_some hentry
  have hsame : isr entry.1 = isr v := by simpa using List.find?_some hentry
  have hvector := hisr (isrs_gates ▸ List.mem_map_of_mem hin) hv hsame
  subst hvector
  rw [codeAt, hentry, Option.map_some, isrs_kind entry hin]

/-! ### Entering -/

/-- The stack that a gate switches to is aligned. -/
theorem aligned_stack (gate : Gate) (rsp : UInt64) : (gate.stack ist rsp).toNat % 16 = 0 := by
  rw [Gate.stack, UInt64.toNat_and]
  have hmask : (~~~(0xF : UInt64)).toNat % 2 ^ 4 = 0 := by decide
  have hmod := Nat.and_mod_two_pow (a := (if gate.interruptStackTable = 0 then rsp
    else ist gate.interruptStackTable).toNat) (b := (~~~(0xF : UInt64)).toNat) (n := 4)
  rw [hmask, Nat.and_zero] at hmod
  exact hmod

/-- The words that the processor and the routine push for a frame. -/
def machineWords (f : TrapFrame) : List UInt64 :=
  [f.vector, f.errorCode, f.rip, f.cs, f.rflags, f.rsp, f.ss]

/-- The words that the processor pushes. -/
theorem deliver_present {idt : BitVec 8 → Gate} {vector : BitVec 8} (errorCode rip : UInt64)
    (hpresent : (idt vector).present = true) (s : Cpu) :
    ∃ rflags cs, deliver idt ist vector errorCode rip s =
      some ({ pushWords (s.set .rsp ((idt vector).stack ist (s.gpr .rsp)))
        ((if Exception.vectorHasErrorCode (vector.setWidth 16) then [errorCode] else []) ++
          [rip, s.cs, s.rflags, s.gpr .rsp, s.ss]) with rflags, cs }, (idt vector).offset) := by
  refine ⟨(idt vector).flags s.rflags,
    UInt64.ofBitVec ((idt vector).segmentSelector.setWidth 64), ?_⟩
  rw [deliver]
  simp only [hpresent, if_true]
  split <;> rfl

/-- From a routine to `generic_isr`, behind words that are pushed
already. -/
theorem runCode_isr (vector : BitVec 8) (errorCode rflags cs : UInt64) (s : Cpu)
    (ws : List UInt64) :
    ∃ fuel, runCode (exec host) target 100
        (if Exception.vectorHasErrorCode (vector.setWidth 16) then isrErr vector
          else isrNoErr vector)
        { pushWords s ((if Exception.vectorHasErrorCode (vector.setWidth 16) then [errorCode]
          else []) ++ ws) with rflags, cs } =
      runCode (exec host) target (fuel + 60) genericIsr
        { pushWords s (UInt64.ofBitVec (vector.setWidth 64) ::
            (if Exception.vectorHasErrorCode (vector.setWidth 16) then errorCode else 0) :: ws)
          with rflags, cs } := by
  -- Where the processor pushes no error code, the stub pushes a zero in its
  -- place.
  cases Exception.vectorHasErrorCode (vector.setWidth 16) with
  | true =>
    refine ⟨38, ?_⟩
    simp only [if_true, isrErr, List.singleton_append, pushWords]
    generalize pushWords s ws = p
    rw [runCode_next rfl]
    exact runCode_jump rfl rfl
  | false =>
    refine ⟨37, ?_⟩
    simp only [Bool.false_eq_true, if_false, isrNoErr, List.nil_append, pushWords]
    generalize pushWords s ws = p
    rw [runCode_next rfl, runCode_next rfl]
    exact runCode_jump rfl rfl

/-- From the interrupted code to `generic_isr`. -/
theorem interrupt_entered (hisr : Set.InjOn isr {v | v ∈ gates.map Prod.fst}) {vector : BitVec 8}
    (hvector : vector ∈ gates.map Prod.fst) (errorCode rip : UInt64) (s : Cpu) :
    ∃ fuel rflags cs, interrupt isr ist host vector errorCode rip s =
        returned (runCode (exec host) target (fuel + 60) genericIsr
          { pushWords (s.set .rsp ((idtInitialize isr vector).stack ist (s.gpr .rsp)))
            (machineWords (frameOf vector errorCode rip s)) with rflags, cs }) := by
  obtain ⟨gate, hgate, rfl⟩ := List.mem_map.mp hvector
  -- `idt_initialize` defines this gate, and a later definition does not
  -- overwrite it.
  have hpresent : (idtInitialize isr gate.1).present = true := by
    rw [idtInitialize_gate hgate, gateOf, defineGate, Function.update_self]
  have hoffset : (idtInitialize isr gate.1).offset = isr gate.1 := by
    rw [idtInitialize_gate hgate, offset_gateOf]
  obtain ⟨rflags, cs, hdeliver⟩ := deliver_present ist errorCode rip hpresent s
  generalize s.set .rsp ((idtInitialize isr gate.1).stack ist (s.gpr .rsp)) = p at hdeliver ⊢
  obtain ⟨fuel, hfuel⟩ := runCode_isr host gate.1 errorCode rflags cs p
    [rip, s.cs, s.rflags, s.gpr .rsp, s.ss]
  refine ⟨fuel, rflags, cs, ?_⟩
  rw [interrupt, hdeliver, hoffset]
  simp only [Option.bind_eq_bind, Option.bind_some, codeAt_isr hisr hvector, hfuel]
  rfl

/-! ### The handler -/

/-- The size of a `trap_frame`. -/
def trapFrameSize : Nat := 176

/-- The core at the call of `handle_exception`, for a frame. -/
structure Entered (top : UInt64) (f : TrapFrame) (s c : Cpu) : Prop where
  /-- The first argument is the `trap_frame`, -/
  frame : HasTrapFrame c.memory (c.gpr .rcx) f
  /-- and the second the vCPU. -/
  vcpu : c.gpr .rdx = s.fsBase
  rcx : c.gpr .rcx + UInt64.ofNat trapFrameSize = top
  rsp : c.gpr .rsp = c.gpr .rcx - 0x20
  aligned : aligned (c.gpr .rsp) = true
  /-- Nothing but the frame is written. -/
  memory : ∀ x, trapFrameSize ≤ (x - c.gpr .rcx).toNat → c.memory x = s.memory x
  sys : c.sys = s.sys
  xmm : c.xmm = s.xmm
  mxcsr : c.mxcsr = s.mxcsr
  fsBase : c.fsBase = s.fsBase
  vmcs : c.vmcs = s.vmcs
  tsc : c.tsc = s.tsc

/-- The entry stub saves the registers: the trap frame is in memory, and
RCX points to it. -/
theorem run_enterHandler {top : UInt64} {f : TrapFrame} {s : Cpu} (htop : top.toNat % 16 = 0)
    (hgpr : f.gpr = s.gpr) (rflags cs : UInt64) :
    ∃ c, run (exec host) enterHandler
        { pushWords (s.set .rsp top) (machineWords f) with rflags, cs } = some (c, none) ∧
      Entered top f s c := by
  have hp := pushed_pushWords (s.set .rsp top) (machineWords f)
  generalize pushWords (s.set .rsp top) (machineWords f) = p at hp ⊢
  have hrsp₀ : (s.set .rsp top).gpr .rsp = top := by rw [set_gpr, Function.update_self]
  -- The general registers, in reverse.
  generalize hp' : ({ p with rflags, cs } : Cpu) = p'
  have hsame : p'.sys = p.sys ∧ p'.xmm = p.xmm ∧ p'.mxcsr = p.mxcsr ∧ p'.fsBase = p.fsBase ∧
      p'.memory = p.memory ∧ p'.vmcs = p.vmcs ∧ p'.tsc = p.tsc := by
    subst hp'
    exact ⟨rfl, rfl, rfl, rfl, rfl, rfl, rfl⟩
  obtain ⟨hsys, hxmm, hmxcsr, hfsBase, hmemory, hvmcs, htsc⟩ := hsame
  have hpushes := run_pushes host [Gpr.r15, .r14, .r13, .r12, .r11, .r10, .r9, .r8, .rdi,
    .rsi, .rbp, .rbx, .rdx, .rcx, .rax] (by decide) p'
  have hreverse : [Gpr.r15, .r14, .r13, .r12, .r11, .r10, .r9, .r8, .rdi, .rsi, .rbp, .rbx, .rdx,
    .rcx, .rax].reverse = trapFrameGprs := rfl
  rw [hreverse] at hpushes
  have hq := pushed_pushWords p' (trapFrameGprs.map p'.gpr)
  generalize pushWords p' (trapFrameGprs.map p'.gpr) = q at hpushes hq
  have htail : run (exec host) [.mov .rcx .rsp, .rdfsbase .rdx, .alu .sub .rsp (.imm 0x20)] q =
      some ((((q.set .rcx (q.gpr .rsp)).set .rdx q.fsBase).set .rsp (q.gpr .rsp - 0x20)).withZf
        (q.gpr .rsp - 0x20 == 0), none) := rfl
  have hgprp : ∀ r, r ≠ .rsp → p'.gpr r = f.gpr r := by
    intro r hr
    rw [← hp', hgpr]
    exact (hp.gpr r hr).trans (set_gpr_of_ne s _ hr)
  have hrspp : p'.gpr .rsp + UInt64.ofNat 56 = top := by
    rw [← hp', ← hrsp₀, ← hp.rsp]
    rfl
  have hrspq : q.gpr .rsp + UInt64.ofNat trapFrameSize = top := by
    rw [← hrspp, ← hq.rsp, UInt64.add_assoc, ← UInt64.ofNat_add]
    rfl
  refine ⟨_, (run_append _ hpushes).trans htail, ?_⟩
  constructor
  case frame =>
    have hwordsp : words p'.memory (p'.gpr .rsp) 7 = machineWords f := by
      have hlength : (machineWords f).length = 7 := rfl
      have hwords := hp.words 0 (by rw [hlength]; decide)
      rw [words, List.append_nil] at hwords
      rw [← hp']
      exact hwords
    have hlength : (trapFrameGprs.map p'.gpr).length = 15 := rfl
    have hwordsq := hq.words 7 (by rw [hlength]; decide)
    rw [hwordsp] at hwordsq
    have hgprs : trapFrameGprs.map p'.gpr = trapFrameGprs.map f.gpr := by
      refine List.map_congr_left fun r hr => hgprp r ?_
      rintro rfl
      exact absurd hr (by decide)
    rw [hgprs] at hwordsq
    exact hwordsq
  case vcpu => exact hq.same.fsBase.trans (hfsBase.trans hp.same.fsBase)
  case rcx => exact hrspq
  case rsp => rfl
  case aligned =>
    have hrsp : (q.gpr .rsp).toNat % 16 = 0 := by
      rw [← hrspq, UInt64.toNat_add, UInt64.toNat_ofNat', trapFrameSize] at htop
      omega
    have hshadow : (0x20 : UInt64).toNat = 32 := rfl
    have hlt := (q.gpr .rsp).toNat_lt
    show aligned (q.gpr .rsp - 0x20) = true
    rw [aligned, beq_iff_eq, UInt64.toNat_sub, hshadow]
    omega
  case memory =>
    intro x hx
    rw [trapFrameSize] at hx
    have hrsp : q.gpr .rsp + UInt64.ofNat 120 = p'.gpr .rsp := hq.rsp
    have hrspp : p'.gpr .rsp = p.gpr .rsp := by rw [← hp']
    have hx : 176 ≤ (x - q.gpr .rsp).toNat := hx
    have hoffset := toNat_sub_add (x := x) (q.gpr .rsp) (o := 120) (by omega)
    rw [hrsp, hrspp] at hoffset
    have houter : q.memory x = p'.memory x := hq.memory x (by
      show 8 * 15 ≤ _
      omega)
    have hinner : p.memory x = s.memory x := hp.memory x (by
      show 8 * 7 ≤ _
      omega)
    exact houter.trans ((congrFun hmemory x).trans hinner)
  case sys => exact hq.same.sys.trans (hsys.trans hp.same.sys)
  case xmm => exact hq.same.xmm.trans (hxmm.trans hp.same.xmm)
  case mxcsr => exact hq.same.mxcsr.trans (hmxcsr.trans hp.same.mxcsr)
  case fsBase => exact hq.same.fsBase.trans (hfsBase.trans hp.same.fsBase)
  case vmcs => exact hq.same.vmcs.trans (hvmcs.trans hp.same.vmcs)
  case tsc => exact hq.same.tsc.trans (htsc.trans hp.same.tsc)

/-- The core behind IRETQ, by the frame that the handler has left. -/
structure Left (f : TrapFrame) (d t : Cpu) : Prop where
  gpr : ∀ r, r ≠ .rsp → t.gpr r = f.gpr r
  rsp : t.gpr .rsp = f.rsp
  rflags : t.rflags = f.rflags
  cs : t.cs = f.cs
  ss : t.ss = f.ss
  /-- The rest is as the handler has left it. -/
  sys : t.sys = d.sys
  xmm : t.xmm = d.xmm
  mxcsr : t.mxcsr = d.mxcsr
  fsBase : t.fsBase = d.fsBase
  memory : t.memory = d.memory
  vmcs : t.vmcs = d.vmcs
  tsc : t.tsc = d.tsc

/-- The exit stub gives the registers of the frame back and returns to
its RIP. -/
theorem runCode_leaveHandler {d : Cpu} {f : TrapFrame} {base : UInt64} (fuel : Nat)
    (hrsp : d.gpr .rsp = base - 0x20) (hframe : HasTrapFrame d.memory base f) :
    ∃ t, runCode (exec host) target (fuel + 19) leaveHandler d = some (t, .iretq f.rip) ∧
      Left f d t := by
  -- The handler's bytes are freed.
  generalize ha : (d.set .rsp (d.gpr .rsp + 0x20)).withZf (d.gpr .rsp + 0x20 == 0) = a
  have hfree : run (exec host) [.alu .add .rsp (.imm 0x20)] d = some (a, none) := by
    rw [← ha]
    rfl
  have hrspa : a.gpr .rsp = base := by
    rw [← ha, withZf_gpr, set_gpr, Function.update_self, hrsp, UInt64.sub_add_cancel]
  have hmemorya : a.memory = d.memory := by
    rw [← ha]
    rfl
  -- The general registers.
  obtain ⟨b, hpops, hrspb, hwords, -, hsame⟩ := run_pops host trapFrameGprs (by decide)
    (by decide) a
  have hall : words d.memory base 22 = words a.memory (a.gpr .rsp) 15 ++
      words a.memory (b.gpr .rsp) 7 := by
    rw [hrspb, hrspa, hmemorya]
    exact words_add d.memory base 15 7
  have hparts : words a.memory (a.gpr .rsp) 15 ++ words a.memory (b.gpr .rsp) 7 =
      trapFrameGprs.map f.gpr ++ machineWords f := hall.symm.trans hframe
  obtain ⟨hgprs, hmachine⟩ := List.append_inj hparts (length_words ..)
  have hgpr : ∀ r ∈ trapFrameGprs, b.gpr r = f.gpr r :=
    List.map_inj_left.mp (hwords.trans hgprs)
  -- The vector and the error code are dropped.
  have hdrop : ∃ c, run (exec host) [.alu .add .rsp (.imm 8), .alu .add .rsp (.imm 8)] b =
      some (c, none) ∧ c.gpr .rsp = b.gpr .rsp + UInt64.ofNat 16 ∧
        (∀ r, r ≠ .rsp → c.gpr r = b.gpr r) ∧ SameBesides b c := by
    refine ⟨_, rfl, ?_, ?_, by constructor <;> rfl⟩
    · show b.gpr .rsp + 8 + 8 = _
      rw [UInt64.add_assoc]
      rfl
    · intro r hr
      rw [withZf_gpr, set_gpr_of_ne _ _ hr, withZf_gpr, set_gpr_of_ne _ _ hr]
  obtain ⟨c, hrunc, hrspc, hgprc, hsamec⟩ := hdrop
  have hiret : words c.memory (c.gpr .rsp) 5 = [f.rip, f.cs, f.rflags, f.rsp, f.ss] := by
    have hsplit : words a.memory (b.gpr .rsp) 2 ++
        words a.memory (b.gpr .rsp + UInt64.ofNat 16) 5 =
          [f.vector, f.errorCode] ++ [f.rip, f.cs, f.rflags, f.rsp, f.ss] :=
      (words_add a.memory (b.gpr .rsp) 2 5).symm.trans hmachine
    rw [hsamec.memory, hsame.memory, hrspc]
    exact (List.append_inj hsplit (length_words ..)).2
  have hiretq := exec_iretq host hiret
  have hrun : run (exec host) leaveHandler.dropLast d = some (c, none) :=
    (run_append _ hfree).trans ((run_append _ hpops).trans hrunc)
  have hcode : runCode (exec host) target (fuel + 19) leaveHandler d =
      runCode (exec host) target (fuel + 1) [.iretq] c := by
    have hlength : fuel + 19 = leaveHandler.dropLast.length + (fuel + 1) := by
      show fuel + 19 = 18 + (fuel + 1)
      omega
    rw [hlength]
    exact runCode_append _ _ [.iretq] hrun
  refine ⟨_, hcode.trans (runCode_leave hiretq rfl), ?_⟩
  have hsamea : a.sys = d.sys ∧ a.xmm = d.xmm ∧ a.mxcsr = d.mxcsr ∧ a.fsBase = d.fsBase ∧
      a.vmcs = d.vmcs ∧ a.tsc = d.tsc := by
    subst ha
    exact ⟨rfl, rfl, rfl, rfl, rfl, rfl⟩
  obtain ⟨hsys, hxmm, hmxcsr, hfsBase, hvmcs, htsc⟩ := hsamea
  constructor
  case gpr =>
    intro r hr
    have hmem : r ∈ trapFrameGprs := by
      cases r <;> first | exact absurd rfl hr | decide
    show (c.set .rsp f.rsp).gpr r = f.gpr r
    rw [set_gpr_of_ne c _ hr, hgprc r hr, hgpr r hmem]
  case rsp =>
    show (c.set .rsp f.rsp).gpr .rsp = f.rsp
    rw [set_gpr, Function.update_self]
  case rflags => rfl
  case cs => rfl
  case ss => rfl
  case sys => exact hsamec.sys.trans (hsame.sys.trans hsys)
  case xmm => exact hsamec.xmm.trans (hsame.xmm.trans hxmm)
  case mxcsr => exact hsamec.mxcsr.trans (hsame.mxcsr.trans hmxcsr)
  case fsBase => exact hsamec.fsBase.trans (hsame.fsBase.trans hfsBase)
  case memory => exact hsamec.memory.trans (hsame.memory.trans hmemorya)
  case vmcs => exact hsamec.vmcs.trans (hsame.vmcs.trans hvmcs)
  case tsc => exact hsamec.tsc.trans (hsame.tsc.trans htsc)

/-- An exception or an NMI with a gate, from end to end. -/
theorem interrupt_present (hisr : Set.InjOn isr {v | v ∈ gates.map Prod.fst}) {vector : BitVec 8}
    (hvector : vector ∈ gates.map Prod.fst) (errorCode rip : UInt64) (s : Cpu) :
    ∃ c, Entered ((idtInitialize isr vector).stack ist (s.gpr .rsp))
        (frameOf vector errorCode rip s) s c ∧
      (host.callee c = none → interrupt isr ist host vector errorCode rip s = none) ∧
      ∀ d f, host.callee c = some d → d.gpr .rsp = c.gpr .rsp →
        HasTrapFrame d.memory (c.gpr .rcx) f →
          ∃ t, interrupt isr ist host vector errorCode rip s = some (t, f.rip) ∧ Left f d t := by
  obtain ⟨fuel, rflags, cs, hentered⟩ := interrupt_entered ist host hisr hvector errorCode rip s
  obtain ⟨c, hrun, hc⟩ := run_enterHandler host
    (aligned_stack ist (idtInitialize isr vector) (s.gpr .rsp))
    (show (frameOf vector errorCode rip s).gpr = s.gpr from rfl) rflags cs
  -- Eighteen instructions lead to the call of the handler.
  have hcall : ∀ p, run (exec host) enterHandler p = some (c, none) →
      runCode (exec host) target (fuel + 60) genericIsr p =
        runCode (exec host) target (fuel + 42) (.call :: leaveHandler) c := by
    intro p hp
    have hlength : fuel + 60 = enterHandler.length + (fuel + 42) := by
      show fuel + 60 = 18 + (fuel + 42)
      omega
    rw [hlength, genericIsr, List.append_assoc]
    exact runCode_append _ _ _ hp
  rw [hcall _ hrun] at hentered
  refine ⟨c, hc, fun hnone => ?_, fun d f hd hrsp hframe => ?_⟩
  · rw [hentered, runCode, exec, hnone]
    rfl
  · have hnext : exec host .call c = some (d, none) := by
      rw [exec, hd]
      rfl
    obtain ⟨t, ht, hleft⟩ := runCode_leaveHandler host (fuel + 22) (hrsp.trans hc.rsp) hframe
    refine ⟨t, ?_, hleft⟩
    rw [hentered, runCode_next hnext, ht]
    rfl

/-- The stack that a vector is handled on: #DF, #MC and NMIs have one of
their own, and the others go on where the interrupted code is. -/
def stackOf (vector : BitVec 8) (rsp : UInt64) : UInt64 :=
  (if vector = 2 then ist 1 else if vector = 8 then ist 2 else if vector = 18 then ist 3 else rsp)
    &&& ~~~0xF

/-- The stack that a gate switches to, vector by vector. -/
theorem stack_idtInitialize {vector : BitVec 8} (hvector : vector ∈ gates.map Prod.fst)
    (rsp : UInt64) : (idtInitialize isr vector).stack ist rsp = stackOf ist vector rsp := by
  -- The list is gone through, not the type of its elements.
  have hindex : ∀ gate ∈ gates, gate.2.1.setWidth 3 =
      if gate.1 = 2 then (1 : BitVec 3) else if gate.1 = 8 then 2 else if gate.1 = 18 then 3
        else 0 := List.all_iff_forall_prop.mp (by decide)
  obtain ⟨gate, hgate, rfl⟩ := List.mem_map.mp hvector
  rw [idtInitialize_gate hgate, gateOf, defineGate, Function.update_self, Gate.stack, stackOf]
  simp only [hindex gate hgate]
  split
  · rfl
  · split
    · rfl
    · split <;> rfl

/-- An exception or an NMI comes back to where the handler's
`trap_frame` says. The handler is given the interrupted registers in
that frame, on an aligned stack, and the frame that it leaves is what
goes on: its registers, its flags, its stack and its RIP. What is not in
the frame, the XMM registers above all, is as the handler leaves it. A
vector without a gate has no handler. The labels of `isr.asm` are
assumed to be at different addresses. -/
theorem interrupt_returns (hisr : Set.InjOn isr {v | v ∈ gates.map Prod.fst}) (vector : BitVec 8)
    (errorCode rip : UInt64) (s : Cpu) :
    (vector ∉ gates.map Prod.fst → interrupt isr ist host vector errorCode rip s = none) ∧
      (vector ∈ gates.map Prod.fst →
        ∃ c, Entered (stackOf ist vector (s.gpr .rsp)) (frameOf vector errorCode rip s) s c ∧
          ∀ d f, host.callee c = some d → d.gpr .rsp = c.gpr .rsp →
            HasTrapFrame d.memory (c.gpr .rcx) f →
              ∃ t, interrupt isr ist host vector errorCode rip s = some (t, f.rip) ∧
                Left f d t) := by
  constructor
  · -- A vector without a gate is not present in the IDT.
    intro hvector
    rw [interrupt, deliver]
    simp only [idtInitialize_absent hvector]
    rfl
  · intro hvector
    obtain ⟨c, hc, -, hreturn⟩ := interrupt_present ist host hisr hvector errorCode rip s
    rw [stack_idtInitialize ist hvector] at hc
    exact ⟨c, hc, hreturn⟩

/-- The routines of `isr.asm` lie one after another. -/
def sampleIsr (vector : BitVec 8) : UInt64 := 0x1000 + 16 * UInt64.ofBitVec (vector.setWidth 64)

/-- A handler that returns at once. -/
def sampleHandler : Host Label where
  addressOf _ := 0
  callee := some
  attempt _ s := (s, none)

/-- The handlers of the sample are at different addresses. -/
theorem injOn_sampleIsr : Set.InjOn sampleIsr {v | v ∈ gates.map Prod.fst} := by
  intro v hv w hw h
  have hall : (gates.map Prod.fst).all (fun a => (gates.map Prod.fst).all fun b =>
      decide (sampleIsr a = sampleIsr b → a = b)) = true := by decide +kernel
  exact List.all_iff_forall_prop.mp (List.all_eq_true.mp hall v hv) w hw h

/-- A `#GP` in the sample. -/
theorem interrupt_returns_gp :
    ∃ t, interrupt sampleIsr (fun _ => 0) sampleHandler 13 0x1234 0x5000 sampleCpu =
      some (t, 0x5000) ∧ t.gpr = sampleCpu.gpr := by
  obtain ⟨c, hc, hreturn⟩ := (interrupt_returns (fun _ => 0) sampleHandler injOn_sampleIsr 13
    0x1234 0x5000 sampleCpu).2 (by decide)
  obtain ⟨t, ht, hleft⟩ := hreturn c _ rfl rfl hc.frame
  refine ⟨t, ht, funext fun r => ?_⟩
  by_cases hr : r = .rsp
  · rw [hr]
    exact hleft.rsp
  · exact hleft.gpr r hr

end Revhv.Isr
