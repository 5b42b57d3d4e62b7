import Revhv.Km.Assembly

/-!
# `Revhv.Proofs.Assembly`: what the instructions do

* `SameBesides`: what a straight line of moves and arithmetic leaves alone.
* `run_pushes`, `run_pops`: registers on their way to the stack and back.
* `run_readTsc`: the TSC, put together from its halves.
-/

set_option autoImplicit false

namespace Revhv.Asm

open Revhv.Lib.RecordLayout Revhv.Lib.StackFrame Revhv.Lib.StraightLine

/-! ### States -/

/-- A write to a register is an update of the register file. -/
@[simp] theorem set_gpr (s : Cpu) (d : Gpr) (v : UInt64) :
    (s.set d v).gpr = Function.update s.gpr d v := rfl

/-- Of two writes to one register the second one counts. -/
@[simp] theorem set_set (s : Cpu) (d : Gpr) (v w : UInt64) : (s.set d v).set d w = s.set d w := by
  simp only [Cpu.set, Function.update_idem]

/-- The other registers stay. -/
theorem set_gpr_of_ne (s : Cpu) {d r : Gpr} (v : UInt64) (h : r ≠ d) :
    (s.set d v).gpr r = s.gpr r := Function.update_of_ne h ..

/-- Memory is none of the registers. -/
@[simp] theorem withMemory_gpr (s : Cpu) (m : UInt64 → UInt8) : (s.withMemory m).gpr = s.gpr := rfl

/-- Neither is the zero flag. -/
@[simp] theorem withZf_gpr (s : Cpu) (z : Bool) : (s.withZf z).gpr = s.gpr := rfl

/-- The zero flag has the value it was given. -/
@[simp] theorem zf_withZf (s : Cpu) (z : Bool) : (s.withZf z).zf = z := by
  have hset : ∀ w : UInt64, (w ||| 0x40) &&& 0x40 = 0x40 := by
    intro w
    apply UInt64.toBitVec_inj.mp
    refine BitVec.eq_of_getLsbD_eq fun i hi => ?_
    simp only [UInt64.toBitVec_and, UInt64.toBitVec_or, BitVec.getLsbD_and, BitVec.getLsbD_or]
    cases BitVec.getLsbD (UInt64.toBitVec 64) i <;> simp
  have hclear : ∀ w : UInt64, (w &&& ~~~0x40) &&& 0x40 = 0 := by
    intro w
    rw [UInt64.and_assoc]
    have hzero : (~~~0x40 : UInt64) &&& 0x40 = 0 := by decide
    rw [hzero, UInt64.and_zero]
  cases z with
  | true =>
    show ((s.rflags ||| 0x40) &&& 0x40 != 0) = true
    rw [hset]
    rfl
  | false =>
    show ((s.rflags &&& ~~~0x40) &&& 0x40 != 0) = false
    rw [hclear]
    rfl

/-- The cores are the same besides general registers and flags. -/
structure SameBesides (s t : Cpu) : Prop where
  sys : t.sys = s.sys
  xmm : t.xmm = s.xmm
  mxcsr : t.mxcsr = s.mxcsr
  cs : t.cs = s.cs
  ss : t.ss = s.ss
  fsBase : t.fsBase = s.fsBase
  memory : t.memory = s.memory
  vmcs : t.vmcs = s.vmcs
  tsc : t.tsc = s.tsc

/-- A multiple of 16 behind an aligned address is aligned. -/
theorem aligned_add {a : UInt64} {k : Nat} (ha : aligned a = true) :
    aligned (a + UInt64.ofNat (16 * k)) = true := by
  unfold aligned at ha ⊢
  rw [beq_iff_eq] at ha ⊢
  rw [UInt64.toNat_add, UInt64.toNat_ofNat']
  omega

/-- What aligning an address cuts off. -/
theorem align_add (x : UInt64) : (x &&& ~~~0xF) + (x &&& 0xF) = x := by
  have hdisjoint : (x &&& ~~~0xF).toBitVec &&& (x &&& 0xF).toBitVec = 0 := by
    rw [UInt64.toBitVec_and, UInt64.toBitVec_and, UInt64.toBitVec_not,
      BitVec.and_comm x.toBitVec (UInt64.toBitVec 0xF), ← BitVec.and_assoc,
      BitVec.and_assoc x.toBitVec, BitVec.not_and_self]
    show x.toBitVec &&& 0#64 &&& x.toBitVec = 0#64
    rw [BitVec.and_zero, BitVec.zero_and]
  apply UInt64.toBitVec_inj.mp
  rw [UInt64.toBitVec_add, BitVec.add_eq_or_of_and_eq_zero _ _ hdisjoint, UInt64.toBitVec_and,
    UInt64.toBitVec_and, UInt64.toBitVec_not, ← BitVec.and_or_distrib_left, BitVec.or_comm,
    BitVec.or_not_self, BitVec.and_allOnes]

/-- What an alignment to 16 takes off is below 16. -/
theorem toNat_align_lt (x : UInt64) : (x &&& 0xF).toNat < 16 := by
  rw [UInt64.toNat_and]
  exact Nat.lt_of_le_of_lt Nat.and_le_right (by decide)

/-- The halves that RDTSC answers make up the TSC. -/
theorem tsc_halves (tsc : UInt64) :
    UInt64.ofNat (tsc.toNat % 2 ^ 32) ||| UInt64.ofNat (tsc.toNat / 2 ^ 32) <<< 32 = tsc := by
  have hlow : tsc.toNat % 2 ^ 32 < 2 ^ 32 := Nat.mod_lt _ (by decide)
  have hhigh : tsc.toNat / 2 ^ 32 < 2 ^ 32 := by
    have hlt := tsc.toNat_lt
    omega
  apply UInt64.toNat_inj.mp
  rw [UInt64.toNat_or, UInt64.toNat_shiftLeft, UInt64.toNat_ofNat_of_lt' (show _ < 2 ^ 64 by omega),
    UInt64.toNat_ofNat_of_lt' (show _ < 2 ^ 64 by omega)]
  have hshift : (tsc.toNat / 2 ^ 32) <<< ((32 : UInt64).toNat % 64) % 2 ^ 64 =
      2 ^ 32 * (tsc.toNat / 2 ^ 32) := by
    show (tsc.toNat / 2 ^ 32) <<< 32 % 2 ^ 64 = _
    rw [Nat.shiftLeft_eq, Nat.mod_eq_of_lt (by omega), Nat.mul_comm]
  rw [hshift, Nat.or_comm, ← Nat.two_pow_add_eq_or_of_lt hlow, Nat.div_add_mod]

/-- RDTSC between its fences, put together in RAX. -/
def readTsc {ι : Type} : List (Instr ι) :=
  [.lfence, .rdtsc, .lfence, .alu .shl .rdx (.imm 32), .alu .or .rax (.reg .rdx)]

/-- RDTSC, with its two halves joined in RAX. Only RAX and RDX change
besides the counter. -/
theorem run_readTsc {ι : Type} (host : Host ι) (s : Cpu) :
    ∃ t, run (exec host) readTsc s = some (t, none) ∧ t.gpr .rax = s.tsc 0 ∧
      (∀ r, r ≠ .rax → r ≠ .rdx → t.gpr r = s.gpr r) ∧
      SameBesides { s with tsc := fun k => s.tsc (k + 1) } t := by
  refine ⟨_, rfl, tsc_halves _, ?_, by constructor <;> rfl⟩
  intro r hrax hrdx
  cases r <;> first | exact absurd rfl hrax | exact absurd rfl hrdx | rfl

/-- The registers that a function has to keep. -/
def nonvolatileGprs : List Gpr := [.rbx, .rbp, .rsi, .rdi, .r12, .r13, .r14, .r15]

/-! ### The stack -/

variable {ι : Type} (host : Host ι)

/-- The core with words on top of the stack, the first of them on top. -/
def pushWords (s : Cpu) : List UInt64 → Cpu
  | [] => s
  | v :: vs => (pushWords s vs).pushWord v

/-- Two groups of pushes are the pushes of the joined list. The list has
the last word that is pushed in front. -/
theorem pushWords_append (s : Cpu) (vs ws : List UInt64) :
    pushWords s (vs ++ ws) = pushWords (pushWords s ws) vs := by
  induction vs with
  | nil => rfl
  | cons v vs ih => rw [List.cons_append, pushWords, ih, pushWords]

/-- What a push of words has changed. -/
structure Pushed (s t : Cpu) (vs : List UInt64) : Prop where
  rsp : t.gpr .rsp + UInt64.ofNat (8 * vs.length) = s.gpr .rsp
  gpr : ∀ r, r ≠ .rsp → t.gpr r = s.gpr r
  words : ∀ n, 8 * (vs.length + n) ≤ 2 ^ 64 →
    words t.memory (t.gpr .rsp) (vs.length + n) = vs ++ words s.memory (s.gpr .rsp) n
  memory : ∀ x, 8 * vs.length ≤ (x - t.gpr .rsp).toNat → t.memory x = s.memory x
  rflags : t.rflags = s.rflags
  same : SameBesides { s with memory := t.memory } t

/-- Words that were pushed are on the stack, in the order of the list. -/
theorem pushed_pushWords (s : Cpu) (vs : List UInt64) : Pushed s (pushWords s vs) vs := by
  induction vs with
  | nil =>
    refine ⟨UInt64.add_zero _, fun _ _ => rfl, fun n _ => ?_, fun _ _ => rfl, rfl,
      by constructor <;> rfl⟩
    rw [List.length_nil, Nat.zero_add]
    rfl
  | cons v vs ih =>
    obtain ⟨hrsp, hgpr, hwords, houtside, hrflags, hsame⟩ := ih
    generalize hs' : pushWords s vs = s' at hrsp hgpr hwords houtside hrflags hsame
    have hstep : pushWords s (v :: vs) = s'.pushWord v := by rw [pushWords, hs']
    have hrsp' : (s'.pushWord v).gpr .rsp = s'.gpr .rsp - 8 := rfl
    have hmemory' : (s'.pushWord v).memory = storeWord s'.memory (s'.gpr .rsp - 8) v := rfl
    rw [hstep]
    refine ⟨?_, ?_, ?_, ?_, hrflags, { hsame with memory := rfl }⟩
    · rw [List.length_cons, ← hrsp, hrsp', Nat.mul_add, Nat.add_comm, UInt64.ofNat_add,
        ← UInt64.add_assoc]
      exact congrArg (· + _) (UInt64.sub_add_cancel _ _)
    · intro r hr
      rw [← hgpr r hr]
      exact set_gpr_of_ne s' _ hr
    · intro n hn
      rw [List.length_cons, Nat.add_right_comm] at hn ⊢
      rw [hrsp', hmemory', words_storeWord _ hn, hwords n (by omega), List.cons_append]
    · intro x hx
      rw [List.length_cons, hrsp'] at hx
      have hoffset := toNat_sub_add (x := x) (s'.gpr .rsp - 8) (o := 8) (by omega)
      have hback : s'.gpr .rsp - 8 + UInt64.ofNat 8 = s'.gpr .rsp := UInt64.sub_add_cancel _ _
      rw [hback] at hoffset
      rw [hmemory', storeWord, store_outside (by rw [length_leBytes]; omega),
        houtside x (by omega)]

/-- IRETQ takes RIP, CS, RFLAGS, RSP and SS from the stack. -/
theorem exec_iretq {c : Cpu} {rip cs rflags rsp ss : UInt64}
    (h : words c.memory (c.gpr .rsp) 5 = [rip, cs, rflags, rsp, ss]) :
    exec host .iretq c = some ({ c.set .rsp rsp with rflags, cs, ss }, some (.iretq rip)) := by
  have hword : ∀ k (hk : k < 5), loadWord c.memory (c.gpr .rsp + UInt64.ofNat (8 * k)) =
      [rip, cs, rflags, rsp, ss][k] := by
    intro k hk
    have hword := getElem?_words c.memory (c.gpr .rsp) hk
    rw [h, List.getElem?_eq_getElem hk, Option.some.injEq] at hword
    exact hword.symm
  have hiretq : exec host .iretq c = some
      ({ c.set .rsp (loadWord c.memory (c.gpr .rsp + UInt64.ofNat (8 * 3))) with
          rflags := loadWord c.memory (c.gpr .rsp + UInt64.ofNat (8 * 2))
          cs := loadWord c.memory (c.gpr .rsp + UInt64.ofNat (8 * 1))
          ss := loadWord c.memory (c.gpr .rsp + UInt64.ofNat (8 * 4)) },
        some (.iretq (loadWord c.memory (c.gpr .rsp + UInt64.ofNat (8 * 0))))) := rfl
  rw [hword 0 (by decide), hword 1 (by decide), hword 2 (by decide), hword 3 (by decide),
    hword 4 (by decide)] at hiretq
  exact hiretq

/-- Registers that are pushed are on top of the stack, the last one
first. -/
theorem run_pushes (rs : List Gpr) (hrs : .rsp ∉ rs) (s : Cpu) :
    run (exec host) (rs.map .push) s = some (pushWords s (rs.reverse.map s.gpr), none) := by
  induction rs generalizing s with
  | nil => rfl
  | cons r rs ih =>
    have hpush : exec host (.push r) s = some (s.pushWord (s.gpr r), none) := rfl
    have hgpr : rs.reverse.map (s.pushWord (s.gpr r)).gpr = rs.reverse.map s.gpr := by
      refine List.map_congr_left fun r' hr' => set_gpr_of_ne s _ ?_
      rintro rfl
      exact hrs (List.mem_cons_of_mem _ (List.mem_reverse.mp hr'))
    rw [List.map_cons, run_cons_next hpush, ih (fun h => hrs (List.mem_cons_of_mem _ h)), hgpr,
      List.reverse_cons, List.map_append, pushWords_append]
    rfl

/-- Registers that are popped are the words on top of the stack. -/
theorem run_pops (rs : List Gpr) (hrs : .rsp ∉ rs) (hnodup : rs.Nodup) (s : Cpu) :
    ∃ t, run (exec host) (rs.map .pop) s = some (t, none) ∧
      t.gpr .rsp = s.gpr .rsp + UInt64.ofNat (8 * rs.length) ∧
      (rs.map t.gpr = words s.memory (s.gpr .rsp) rs.length) ∧
      (∀ r, r ∉ rs → r ≠ .rsp → t.gpr r = s.gpr r) ∧ SameBesides s t := by
  induction rs generalizing s with
  | nil =>
    exact ⟨s, rfl, (UInt64.add_zero _).symm, rfl, fun _ _ _ => rfl, by constructor <;> rfl⟩
  | cons r rs ih =>
    have hr : r ≠ .rsp := fun h => hrs (h ▸ List.mem_cons_self)
    obtain ⟨hfresh, hnodup⟩ := List.nodup_cons.mp hnodup
    generalize hs' : s.dropWord.set r s.top = s'
    have hpop : exec host (.pop r) s = some (s', none) := by
      rw [← hs']
      rfl
    have hrsp' : s'.gpr .rsp = s.gpr .rsp + 8 := by
      rw [← hs', set_gpr_of_ne _ _ hr.symm]
      rfl
    obtain ⟨t, ht, hrsp, hwords, hgpr, hsame⟩ :=
      ih (fun h => hrs (List.mem_cons_of_mem _ h)) hnodup s'
    have hmemory : s'.memory = s.memory := by
      rw [← hs']
      rfl
    refine ⟨t, (run_cons_next hpop).trans ht, ?_, ?_, ?_, ?_⟩
    · rw [hrsp, hrsp', List.length_cons, Nat.mul_add, Nat.add_comm, UInt64.ofNat_add,
        ← UInt64.add_assoc]
      rfl
    · have htop : t.gpr r = loadWord s.memory (s.gpr .rsp) := by
        rw [hgpr r hfresh hr, ← hs', set_gpr, Function.update_self]
        rfl
      rw [List.map_cons, List.length_cons, words, htop, hwords, hmemory, hrsp']
    · intro r' hr' hne
      obtain ⟨hr'r, hr'rs⟩ := not_or.mp (fun h => hr' (List.mem_cons.mpr h))
      rw [hgpr r' hr'rs hne, ← hs', set_gpr_of_ne _ _ hr'r]
      exact set_gpr_of_ne s _ hne
    · subst hs'
      exact { hsame with }

/-- A core with zeros in memory. -/
def sampleCpu : Cpu where
  gpr r := if r = .rsp then 0x10000 else 7
  sys _ := 3
  xmm _ := 5
  mxcsr := 0x1F80
  rflags := 2
  cs := 0x10
  ss := 0x18
  fsBase := 0x9000
  memory _ := 0
  vmcs _ := 0
  tsc _ := 500

end Revhv.Asm
