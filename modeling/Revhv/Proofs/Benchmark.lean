import Mathlib.Order.Bounds.Defs
import Mathlib.Order.Interval.Set.Defs
import Revhv.Km.Benchmark
import Revhv.Proofs.VmexitStub

/-!
# `Revhv.Proofs.Benchmark`: what the benchmark measures

* `stealthVmexitBenchOne_spec`: the guest's code and the fast path of the exit stub make up a
  function that keeps to the calling convention, and answer with four readings of the TSC.
* `foldl_measure_least`: the loop finds the two minima.
* `benchTscOverhead_exact`: the overheads of the whole benchmark, in terms of the hardware TSC.
-/

set_option autoImplicit false

namespace Revhv.Benchmark

open Revhv.Asm
open Revhv.Lib.RecordLayout Revhv.Lib.StackFrame Revhv.Lib.StraightLine
open Revhv.VmexitStub

/-! ### The guest's code -/

/-- The guest at its CPUID. -/
structure AtCpuid (nextRip : UInt64) (g u : Cpu) : Prop where
  r8 : u.gpr .r8 = nextRip
  rcx : u.gpr .rcx = benchKey
  r10 : u.gpr .r10 = g.tsc 0
  rsp : u.gpr .rsp = g.gpr .rsp - 8 - 8
  gpr : ∀ r, r ∉ [Gpr.rax, .rcx, .rdx, .rsp, .r8, .r10] → u.gpr r = g.gpr r
  same : SameBesides { g with
    memory := storeWord (storeWord g.memory (g.gpr .rsp - 8) (g.gpr .rbx)) (g.gpr .rsp - 8 - 8)
      (g.gpr .rcx)
    tsc := fun k => g.tsc (k + 1) } u

/-- The guest runs into its CPUID, with the time before it on record. -/
theorem runCode_untilCpuid (nextRip : UInt64) (g : Cpu) :
    ∃ u, runCode (exec (guestCode nextRip)) (fun _ => none) 100 untilCpuid g =
      some (u, .vmexit) ∧ AtCpuid nextRip g u := by
  -- RBX and RCX are saved, R8 holds the address behind CPUID and RCX the key.
  have hhead : ∃ a, run (exec (guestCode nextRip))
      [.push .rbx, .push .rcx, .lea .r8 .nextRip, .movImm .rcx benchKey] g = some (a, none) ∧
        a.gpr .r8 = nextRip ∧ a.gpr .rcx = benchKey ∧ a.gpr .rsp = g.gpr .rsp - 8 - 8 ∧
        (∀ r, r ∉ [Gpr.rcx, .rsp, .r8] → a.gpr r = g.gpr r) ∧
        SameBesides { g with
          memory := storeWord (storeWord g.memory (g.gpr .rsp - 8) (g.gpr .rbx))
            (g.gpr .rsp - 8 - 8) (g.gpr .rcx) } a := by
    refine ⟨_, rfl, rfl, rfl, rfl, ?_, by constructor <;> rfl⟩
    intro r hr
    cases r <;> first | exact absurd (by decide) hr | rfl
  obtain ⟨a, ha, hr8, hrcx, hrsp, hgpr, hsame⟩ := hhead
  obtain ⟨b, hb, hrax, hgprb, hsameb⟩ := run_readTsc (guestCode nextRip) a
  have htail : run (exec (guestCode nextRip)) [.mov .r10 .rax, .lfence] b =
      some (b.set .r10 (b.gpr .rax), none) := rfl
  have hrun : run (exec (guestCode nextRip)) untilCpuid.dropLast g =
      some (b.set .r10 (b.gpr .rax), none) :=
    (run_append _ ha).trans ((run_append _ hb).trans htail)
  -- CPUID exits, and the rest of the routine runs after the entry.
  have hcode : runCode (exec (guestCode nextRip)) (fun _ => none) 100 untilCpuid g =
      runCode (exec (guestCode nextRip)) (fun _ => none) 89 [.cpuid]
        (b.set .r10 (b.gpr .rax)) := runCode_append _ 89 [.cpuid] hrun
  refine ⟨b.set .r10 (b.gpr .rax), hcode.trans rfl, ?_⟩
  constructor
  case r8 => exact (hgprb .r8 (by decide) (by decide)).trans hr8
  case rcx => exact (hgprb .rcx (by decide) (by decide)).trans hrcx
  case r10 =>
    rw [set_gpr, Function.update_self, hrax, hsame.tsc]
  case rsp => exact (hgprb .rsp (by decide) (by decide)).trans hrsp
  case gpr =>
    intro r hr
    simp only [List.mem_cons, not_or] at hr
    rw [set_gpr_of_ne b _ hr.2.2.2.2.2.1, hgprb r hr.1 hr.2.2.1,
      hgpr r (by simp [hr])]
  case same =>
    have htsc : b.tsc = fun k => g.tsc (k + 1) := by
      rw [hsameb.tsc]
      show (fun k => a.tsc (k + 1)) = _
      rw [hsame.tsc]
    exact
      { sys := hsameb.sys.trans hsame.sys
        xmm := hsameb.xmm.trans hsame.xmm
        mxcsr := hsameb.mxcsr.trans hsame.mxcsr
        cs := hsameb.cs.trans hsame.cs
        ss := hsameb.ss.trans hsame.ss
        fsBase := hsameb.fsBase.trans hsame.fsBase
        memory := hsameb.memory.trans hsame.memory
        vmcs := hsameb.vmcs.trans hsame.vmcs
        tsc := htsc }

/-- The guest where it returns, from `next_rip` on. -/
structure Returned (e t : Cpu) (address : UInt64) : Prop where
  address : address = loadWord (storeWord e.memory (loadWord e.memory (e.gpr .rsp))
    (e.tsc 0 - e.gpr .r9)) (e.gpr .rsp + 8 + 8)
  answer : t.gpr .rax = e.gpr .r10
  rbx : t.gpr .rbx = loadWord (storeWord e.memory (loadWord e.memory (e.gpr .rsp))
    (e.tsc 0 - e.gpr .r9)) (e.gpr .rsp + 8)
  rsp : t.gpr .rsp = e.gpr .rsp + 8 + 8 + 8
  gpr : ∀ r, r ∉ [Gpr.rax, .rbx, .rcx, .rdx, .rsp] → t.gpr r = e.gpr r
  same : SameBesides { e with
    memory := storeWord e.memory (loadWord e.memory (e.gpr .rsp)) (e.tsc 0 - e.gpr .r9)
    tsc := fun k => e.tsc (k + 1) } t

/-- Behind the CPUID the guest takes the time again, and returns. -/
theorem runCode_fromNextRip (nextRip : UInt64) (e : Cpu) :
    ∃ t address, runCode (exec (guestCode nextRip)) (fun _ => none) 100 fromNextRip e =
      some (t, .ret address) ∧ Returned e t address := by
  obtain ⟨a, ha, hrax, hgpra, hsamea⟩ := run_readTsc (guestCode nextRip) e
  have hmemory : a.memory = e.memory := hsamea.memory
  have hrsp : a.gpr .rsp = e.gpr .rsp := hgpra .rsp (by decide) (by decide)
  have hr9 : a.gpr .r9 = e.gpr .r9 := hgpra .r9 (by decide) (by decide)
  -- The stub has left the time of the exit in R9.
  have htail : ∃ b, run (exec (guestCode nextRip)) [.mov .rbx .rax, .alu .sub .rbx (.reg .r9),
      .pop .rcx, .store .rcx 0 .rbx, .mov .rax .r10, .pop .rbx] a = some (b, none) ∧
        b.gpr .rax = a.gpr .r10 ∧
        b.gpr .rbx = loadWord (storeWord a.memory (loadWord a.memory (a.gpr .rsp) + 0)
          (a.gpr .rax - a.gpr .r9)) (a.gpr .rsp + 8) ∧
        b.gpr .rsp = a.gpr .rsp + 8 + 8 ∧
        (∀ r, r ∉ [Gpr.rax, .rbx, .rcx, .rsp] → b.gpr r = a.gpr r) ∧
        SameBesides { a with
          memory := storeWord a.memory (loadWord a.memory (a.gpr .rsp) + 0)
            (a.gpr .rax - a.gpr .r9) } b := by
    refine ⟨_, rfl, rfl, rfl, rfl, ?_, by constructor <;> rfl⟩
    intro r hr
    cases r <;> first | exact absurd (by decide) hr | rfl
  obtain ⟨b, hb, hraxb, hrbxb, hrspb, hgprb, hsameb⟩ := htail
  rw [UInt64.add_zero, hmemory, hrsp, hrax, hr9] at hrbxb hsameb
  rw [hrsp] at hrspb
  have hrun : run (exec (guestCode nextRip)) fromNextRip.dropLast e = some (b, none) :=
    (run_append _ ha).trans hb
  have hcode : runCode (exec (guestCode nextRip)) (fun _ => none) 100 fromNextRip e =
      runCode (exec (guestCode nextRip)) (fun _ => none) 89 [.ret] b :=
    runCode_append _ 89 [.ret] hrun
  have hret : runCode (exec (guestCode nextRip)) (fun _ => none) 89 [.ret] b =
      some (b.dropWord, .ret b.top) := rfl
  refine ⟨b.dropWord, b.top, hcode.trans hret, ?_⟩
  constructor
  case address => rw [Cpu.top, hsameb.memory, hrspb]
  case answer => exact hraxb.trans (hgpra .r10 (by decide) (by decide))
  case rbx => exact hrbxb
  case rsp =>
    rw [← hrspb]
    rfl
  case gpr =>
    intro r hr
    simp only [List.mem_cons, not_or] at hr
    rw [Cpu.dropWord, set_gpr_of_ne b _ hr.2.2.2.2.1, hgprb r (by simp [hr]),
      hgpra r hr.1 hr.2.2.2.1]
  case same =>
    exact
      { sys := hsameb.sys.trans hsamea.sys
        xmm := hsameb.xmm.trans hsamea.xmm
        mxcsr := hsameb.mxcsr.trans hsamea.mxcsr
        cs := hsameb.cs.trans hsamea.cs
        ss := hsameb.ss.trans hsamea.ss
        fsBase := hsameb.fsBase.trans hsamea.fsBase
        memory := hsameb.memory
        vmcs := hsameb.vmcs.trans hsamea.vmcs
        tsc := hsameb.tsc.trans hsamea.tsc }

/-! ### An iteration -/

/-- `vmentry_overhead` is neither the return address nor the word below
it. -/
def PointerApart (g : Cpu) : Prop :=
  ∀ k < 16, 8 ≤ (g.gpr .rsp - 8 + UInt64.ofNat k - g.gpr .rcx).toNat

/-- What an iteration leaves. The four readings of the TSC are two by
the guest, one by the processor at the exit, and one by the exit stub. -/
structure Benched (g h : Cpu) (one : BenchOne) : Prop where
  answer : one.guest.gpr .rax = h.tsc 0 + h.vmcs vmcsCtrlTscOffset
  storedTsc : one.storedTsc = h.tsc 1
  overhead : loadWord one.guest.memory (g.gpr .rcx) = h.tsc 3 + (0 - 1) - h.tsc 2
  /-- The function returns, with the registers that it has to keep. -/
  returnAddress : one.returnAddress = loadWord g.memory (g.gpr .rsp)
  rsp : one.guest.gpr .rsp = g.gpr .rsp + 8
  gpr : ∀ r ∈ nonvolatileGprs, one.guest.gpr r = g.gpr r
  xmm : one.guest.xmm = g.xmm
  mxcsr : one.guest.mxcsr = g.mxcsr
  /-- The host is where it was, and the TSC offset is not. -/
  hostRsp : one.host.gpr .rsp = h.gpr .rsp
  offset : one.host.vmcs vmcsCtrlTscOffset = 0 - 1
  tsc : one.host.tsc = fun k => h.tsc (k + 4)

/-- One iteration: the guest to its CPUID, the fast path of the stub,
and the guest from there on. -/
theorem stealthVmexitBenchOne_spec (nextRip : UInt64) (host : Host VmexitStub.Label) {g h : Cpu}
    (hclock : g.tsc = fun k => h.tsc k + h.vmcs vmcsCtrlTscOffset) (hpointer : PointerApart g) :
    ∃ one, stealthVmexitBenchOne nextRip host g h = some one ∧ Benched g h one := by
  obtain ⟨u, hu, hcpuid⟩ := runCode_untilCpuid nextRip g
  have hfast : FastPath (vmExit u h) := by
    constructor
    · show Function.update h.vmcs vmcsExitReason exitReasonCpuid vmcsExitReason = _
      rw [Function.update_self]
    · show Function.update u.gpr .rsp (h.gpr .rsp) .rcx = benchKey
      rw [Function.update_of_ne (by decide), hcpuid.rcx]
  obtain ⟨v, hv, hreplied⟩ := vmexitStub_fastPath host hfast
  have hrip : v.vmcs vmcsGuestRip = nextRip := by
    rw [hreplied.vmcs, Function.update_of_ne (by decide), Function.update_self]
    show Function.update u.gpr .rsp (h.gpr .rsp) .r8 = nextRip
    rw [Function.update_of_ne (by decide), hcpuid.r8]
  obtain ⟨t, address, ht, hreturned⟩ := runCode_fromNextRip nextRip (vmEntry v u)
  have hone : stealthVmexitBenchOne nextRip host g h =
      some ⟨t, address, clocked t v, storedTsc u h⟩ := by
    rw [stealthVmexitBenchOne, hu]
    simp only [hv, if_pos hrip, ht]
  refine ⟨_, hone, ?_⟩
  -- The clock of each side.
  have hoffset : v.vmcs vmcsCtrlTscOffset = 0 - 1 := by
    rw [hreplied.vmcs, Function.update_self]
  have hclocku : ∀ k, u.tsc k - h.vmcs vmcsCtrlTscOffset = h.tsc (k + 1) := by
    intro k
    rw [hcpuid.same.tsc]
    show g.tsc (k + 1) - _ = _
    rw [hclock, UInt64.add_sub_cancel]
  have hclockv : ∀ k, v.tsc k = h.tsc (k + 3) := by
    intro k
    rw [hreplied.tsc]
    exact hclocku (k + 2)
  -- The registers that the stub has passed on.
  have hgpr : ∀ r, r ∉ [Gpr.rax, .r9, .rsp] → (vmEntry v u).gpr r = u.gpr r := by
    intro r hr
    simp only [List.mem_cons, List.not_mem_nil, or_false, not_or] at hr
    show Function.update v.gpr .rsp (u.gpr .rsp) r = _
    rw [Function.update_of_ne hr.2.2, hreplied.gpr r hr.1 hr.2.1]
    exact Function.update_of_ne hr.2.2 ..
  have hrsp : (vmEntry v u).gpr .rsp = g.gpr .rsp - 8 - 8 := by
    show Function.update v.gpr .rsp (u.gpr .rsp) .rsp = _
    rw [Function.update_self, hcpuid.rsp]
  have hr9 : (vmEntry v u).gpr .r9 = h.tsc 2 := by
    show Function.update v.gpr .rsp (u.gpr .rsp) .r9 = _
    rw [Function.update_of_ne (by decide), hreplied.r9]
    exact hclocku 1
  have htsc : (vmEntry v u).tsc 0 = h.tsc 3 + (0 - 1) := by
    show v.tsc 0 + v.vmcs vmcsCtrlTscOffset = _
    rw [hclockv, hoffset]
  -- The words on the guest's stack.
  have hback : ∀ a : UInt64, a - 8 + 8 = a := fun a => UInt64.sub_add_cancel a 8
  have hstack : words u.memory (g.gpr .rsp - 8 - 8) 3 =
      [g.gpr .rcx, g.gpr .rbx, loadWord g.memory (g.gpr .rsp)] := by
    rw [hcpuid.same.memory]
    show words (storeWord (storeWord g.memory (g.gpr .rsp - 8) (g.gpr .rbx))
      (g.gpr .rsp - 8 - 8) (g.gpr .rcx)) (g.gpr .rsp - 8 - 8) 3 = _
    rw [words_storeWord _ (by omega), words_storeWord _ (by omega)]
    rfl
  simp only [words, hback, List.cons.injEq, and_true] at hstack
  obtain ⟨hpointerWord, hrbx, hreturn⟩ := hstack
  have hmemory : (vmEntry v u).memory = u.memory := rfl
  have hwritten : t.memory = storeWord u.memory (g.gpr .rcx) (h.tsc 3 + (0 - 1) - h.tsc 2) := by
    rw [hreturned.same.memory, hrsp, hmemory, hpointerWord, htsc, hr9]
  have hwords : words t.memory (g.gpr .rsp - 8) 2 =
      [g.gpr .rbx, loadWord g.memory (g.gpr .rsp)] := by
    rw [words_congr fun k hk => ?_]
    · rw [words, words, hback, hrbx, hreturn]
      rfl
    · rw [hwritten, storeWord]
      exact store_outside (by rw [length_leBytes]; exact hpointer k hk)
  simp only [words, hback, List.cons.injEq, and_true] at hwords
  constructor
  case answer =>
    rw [hreturned.answer, hgpr .r10 (by decide), hcpuid.r10, hclock]
  case storedTsc => exact hclocku 0
  case overhead => rw [hwritten, loadWord_storeWord]
  case returnAddress =>
    rw [hreturned.address, hrsp, hmemory, hpointerWord, htsc, hr9, ← hwritten, hback, hback]
    exact hwords.2
  case rsp => rw [hreturned.rsp, hrsp, hback, hback]
  case gpr =>
    intro r hr
    by_cases hrbxr : r = .rbx
    · rw [hrbxr, hreturned.rbx, hrsp, hmemory, hpointerWord, htsc, hr9, ← hwritten, hback]
      exact hwords.1
    · have hkept : r ∈ [Gpr.rbp, .rsi, .rdi, .r12, .r13, .r14, .r15] :=
        (List.mem_cons.mp hr).resolve_left hrbxr
      have hother : ∀ rs : List Gpr, (∀ r' ∈ [Gpr.rbp, .rsi, .rdi, .r12, .r13, .r14, .r15],
          r' ∉ rs) → r ∉ rs := fun _ h => h r hkept
      rw [hreturned.gpr r (hother _ (by decide)), hgpr r (hother _ (by decide)),
        hcpuid.gpr r (hother _ (by decide))]
  case xmm =>
    rw [hreturned.same.xmm]
    show v.xmm = g.xmm
    rw [hreplied.xmm]
    exact hcpuid.same.xmm
  case mxcsr =>
    rw [hreturned.same.mxcsr]
    show v.mxcsr = g.mxcsr
    rw [hreplied.mxcsr]
    exact hcpuid.same.mxcsr
  case hostRsp =>
    show v.gpr .rsp = h.gpr .rsp
    rw [hreplied.gpr .rsp (by decide) (by decide)]
    show Function.update u.gpr .rsp (h.gpr .rsp) .rsp = h.gpr .rsp
    rw [Function.update_self]
  case offset => exact hoffset
  case tsc =>
    funext k
    show t.tsc k - v.vmcs vmcsCtrlTscOffset = _
    rw [hreturned.same.tsc]
    show v.tsc (k + 1) + v.vmcs vmcsCtrlTscOffset - v.vmcs vmcsCtrlTscOffset = _
    rw [UInt64.add_sub_cancel, hclockv]

/-! ### The minima -/

/-- A minimum of values that are not zero, and the values before them. -/
theorem foldl_lower_spec {xs : List UInt64} (hxs : ∀ x ∈ xs, x ≠ 0) {least : UInt64}
    (hleast : least ≠ 0) :
    (xs.foldl lower least = least ∨ xs.foldl lower least ∈ xs) ∧
      xs.foldl lower least ≤ least ∧ ∀ x ∈ xs, xs.foldl lower least ≤ x := by
  -- By induction over the samples. The least so far is never 0, so the first
  -- test of `lower` is settled.
  induction xs generalizing least with
  | nil => exact ⟨Or.inl rfl, UInt64.le_refl _, fun x hx => absurd hx List.not_mem_nil⟩
  | cons y ys ih =>
    have hys : ∀ x ∈ ys, x ≠ 0 := fun x hx => hxs x (List.mem_cons_of_mem _ hx)
    rw [List.foldl_cons]
    by_cases hy : y < least
    · rw [lower, if_pos (Or.inl hy)]
      obtain ⟨hmem, hle, hall⟩ := ih hys (hxs y List.mem_cons_self)
      refine ⟨Or.inr ?_, UInt64.le_trans hle (UInt64.le_of_lt hy), ?_⟩
      · rcases hmem with hmem | hmem
        · rw [hmem]
          exact List.mem_cons_self
        · exact List.mem_cons_of_mem _ hmem
      · intro x hx
        rcases List.mem_cons.mp hx with rfl | hx
        · exact hle
        · exact hall x hx
    · rw [lower, if_neg (by rintro (h | h); exacts [hy h, hleast h])]
      obtain ⟨hmem, hle, hall⟩ := ih hys hleast
      refine ⟨hmem.imp_right (List.mem_cons_of_mem _), hle, ?_⟩
      intro x hx
      rcases List.mem_cons.mp hx with rfl | hx
      · exact UInt64.le_trans hle (UInt64.not_lt.mp hy)
      · exact hall x hx

/-- The loop starts from zero, and the first value takes its place. -/
theorem foldl_lower_least {xs : List UInt64} (hxs : ∀ x ∈ xs, x ≠ 0) (hne : xs ≠ []) :
    xs.foldl lower 0 ∈ xs ∧ ∀ x ∈ xs, xs.foldl lower 0 ≤ x := by
  cases xs with
  | nil => exact absurd rfl hne
  | cons y ys =>
    rw [List.foldl_cons, lower, if_pos (Or.inr rfl)]
    obtain ⟨hmem, hle, hall⟩ := foldl_lower_spec
      (fun x hx => hxs x (List.mem_cons_of_mem _ hx)) (hxs y List.mem_cons_self)
    refine ⟨?_, ?_⟩
    · rcases hmem with hmem | hmem
      · rw [hmem]
        exact List.mem_cons_self
      · exact List.mem_cons_of_mem _ hmem
    · intro x hx
      rcases List.mem_cons.mp hx with rfl | hx
      · exact hle
      · exact hall x hx

/-- The two minima are taken apart from each other, each one over its
own measurements. -/
theorem foldl_measure (xs : List Sample) (o : Overheads) :
    xs.foldl Overheads.measure o =
      ⟨(xs.map fun x => x.storedTsc - x.preExitTsc).foldl lower o.vmexitToStore,
        (xs.map Sample.vmentryOverhead).foldl lower o.vmentry⟩ := by
  induction xs generalizing o with
  | nil => rfl
  | cons x xs ih => rw [List.foldl_cons, ih, List.map_cons, List.map_cons]; rfl

/-! ### The benchmark -/

/-- What an iteration measures from a TSC on, when the offset is what
the stub writes. -/
def sampleAt (tsc : Nat → UInt64) (i : Nat) : Sample where
  preExitTsc := tsc (4 * i) + (0 - 1)
  storedTsc := tsc (4 * i + 1)
  vmentryOverhead := tsc (4 * i + 3) + (0 - 1) - tsc (4 * i + 2)

/-- A run of iterations. From the second one on, at the latest, the TSC
offset is what the stub writes. -/
theorem samples_spec (nextRip : UInt64) (host : Host VmexitStub.Label) {callers : Nat → Cpu}
    {n k : Nat} {h : Cpu} (hcallers : ∀ i, k ≤ i → i < k + n → PointerApart (callers i)) :
    ∃ xs h', samples nextRip host callers n k h = some (xs, h') ∧
      h'.tsc = (fun i => h.tsc (i + 4 * n)) ∧
      (h.vmcs vmcsCtrlTscOffset = 0 - 1 ∨ 0 < n → h'.vmcs vmcsCtrlTscOffset = 0 - 1) ∧
      (h.vmcs vmcsCtrlTscOffset = 0 - 1 → xs = (List.range n).map (sampleAt h.tsc)) := by
  -- By induction over the iterations. Each leaves the offset at -1, as the next
  -- one needs it.
  induction n generalizing k h with
  | zero =>
    exact ⟨[], h, rfl, rfl, fun hn => hn.resolve_right (Nat.lt_irrefl 0), fun _ => rfl⟩
  | succ n ih =>
    generalize hg : ({ callers k with tsc := fun i => h.tsc i + h.vmcs vmcsCtrlTscOffset } : Cpu) = g
    have hpointer : PointerApart g := hg ▸ hcallers k (Nat.le_refl k) (by omega)
    obtain ⟨one, hone, hbenched⟩ := stealthVmexitBenchOne_spec nextRip host (g := g) (h := h)
      (by rw [← hg]) hpointer
    obtain ⟨xs, h', hsamples, htsc, hoffset, hxs⟩ := ih (k := k + 1) (h := one.host)
      fun i hlow hhigh => hcallers i (by omega) (by omega)
    have hrun : samples nextRip host callers (n + 1) k h =
        some (⟨one.guest.gpr .rax, one.storedTsc,
          loadWord one.guest.memory (g.gpr .rcx)⟩ :: xs, h') := by
      rw [samples]
      simp only [hg, hone, hsamples, Option.bind_eq_bind, Option.bind_some]
      rw [← hg]
    refine ⟨_, h', hrun, ?_, fun _ => hoffset (Or.inl hbenched.offset), fun hh => ?_⟩
    · rw [htsc, hbenched.tsc]
      rfl
    · have hfirst : (⟨one.guest.gpr .rax, one.storedTsc,
          loadWord one.guest.memory (g.gpr .rcx)⟩ : Sample) = sampleAt h.tsc 0 := by
        rw [hbenched.answer, hbenched.storedTsc, hbenched.overhead, hh]
        rfl
      -- An iteration reads the time-stamp counter four times.
      have hrest : sampleAt one.host.tsc = sampleAt h.tsc ∘ Nat.succ := by
        funext i
        rw [hbenched.tsc]
        rfl
      rw [hfirst, hxs hbenched.offset, List.range_succ_eq_map, List.map_cons, List.map_map, hrest]

/-- The hardware TSC while the benchmark runs: no reading is below or at
the one before, and the guest does not go on in the very next cycle. -/
structure Advances (tsc : Nat → UInt64) : Prop where
  lt : ∀ i < 4 * (warmupIterations + iterations), tsc i < tsc (i + 1)
  vmentry : ∀ i < warmupIterations + iterations,
    (tsc (4 * i + 2)).toNat + 1 < (tsc (4 * i + 3)).toNat

/-- From the guest's first reading to the one that the processor stores. -/
def exitCycles (tsc : Nat → UInt64) (i : Nat) : Nat :=
  (tsc (4 * i + 1)).toNat - (tsc (4 * i)).toNat

/-- From the reading of the exit stub to the guest's second one. -/
def entryCycles (tsc : Nat → UInt64) (i : Nat) : Nat :=
  (tsc (4 * i + 3)).toNat - (tsc (4 * i + 2)).toNat

/-- The differences of a sample are the cycles of its iteration, since
the counter advances and does not wrap around. -/
theorem toNat_sampleAt {tsc : Nat → UInt64} (htsc : Advances tsc) {i : Nat}
    (hi : i < warmupIterations + iterations) :
    ((sampleAt tsc i).storedTsc - (sampleAt tsc i).preExitTsc).toNat = exitCycles tsc i + 1 ∧
      (sampleAt tsc i).vmentryOverhead.toNat + 1 = entryCycles tsc i ∧
      (sampleAt tsc i).vmentryOverhead.toNat ≠ 0 := by
  have h₀ : (tsc (4 * i)).toNat < (tsc (4 * i + 1)).toNat :=
    UInt64.lt_iff_toNat_lt.mp (htsc.lt (4 * i) (by omega))
  have h₁ : (tsc (4 * i + 1)).toNat < (tsc (4 * i + 2)).toNat :=
    UInt64.lt_iff_toNat_lt.mp (htsc.lt (4 * i + 1) (by omega))
  have h₂ := htsc.vmentry i hi
  have hlt₂ := (tsc (4 * i + 2)).toNat_lt
  have hlt₃ := (tsc (4 * i + 3)).toNat_lt
  have hminus : (0 - 1 : UInt64).toNat = 2 ^ 64 - 1 := rfl
  simp only [sampleAt, exitCycles, entryCycles]
  rw [UInt64.toNat_sub, UInt64.toNat_sub, UInt64.toNat_add, UInt64.toNat_add, hminus]
  refine ⟨?_, ?_, ?_⟩ <;> omega

/-- The numbers of the iterations that count. -/
def measured : Set Nat := Set.Ico warmupIterations (warmupIterations + iterations)

/-- A minimum that the loop finds, as a minimum over the iterations. -/
theorem isLeast_foldl_lower {f : Nat → UInt64} {cycles : Nat → Nat}
    (hf : ∀ i < iterations, (f i).toNat = cycles (warmupIterations + i))
    (hne : ∀ i < iterations, f i ≠ 0) :
    IsLeast (cycles '' measured) (((List.range iterations).map f).foldl lower 0).toNat := by
  -- No sample is 0, because the counter advances between the reads.
  have hnonzero : ∀ x ∈ (List.range iterations).map f, x ≠ 0 := by
    intro x hx
    obtain ⟨i, hi, rfl⟩ := List.mem_map.mp hx
    exact hne i (List.mem_range.mp hi)
  obtain ⟨hmem, hle⟩ := foldl_lower_least hnonzero (List.ne_nil_of_length_pos (by
    rw [List.length_map, List.length_range]
    decide))
  -- The loop runs over the measured iterations, which begin behind the warm-up.
  constructor
  · obtain ⟨i, hi, heq⟩ := List.mem_map.mp hmem
    have hi := List.mem_range.mp hi
    refine ⟨warmupIterations + i, ⟨Nat.le_add_right _ _, Nat.add_lt_add_left hi _⟩, ?_⟩
    rw [← heq, hf i hi]
  · rintro _ ⟨j, ⟨hlow, hhigh⟩, rfl⟩
    have hj : j - warmupIterations < iterations := by omega
    have hfj := hf (j - warmupIterations) hj
    rw [Nat.add_sub_cancel' hlow] at hfj
    rw [← hfj]
    exact UInt64.le_iff_toNat_le.mp (hle _ (List.mem_map_of_mem (List.mem_range.mpr hj)))

/-- The benchmark's overheads are the least ones of its iterations, but
for one cycle: the exit stub leaves a TSC offset of minus one in the
VMCS, so the overhead of the exit is one too large and that of the entry
is one too small. It is assumed that `vmentry_overhead` is apart from
the stack words of the measuring function. -/
theorem benchTscOverhead_exact (nextRip : UInt64) (host : Host VmexitStub.Label)
    (callers : Nat → Cpu) (h : Cpu)
    (hcallers : ∀ i < warmupIterations + iterations, PointerApart (callers i))
    (htsc : Advances h.tsc) :
    ∃ o h', benchTscOverhead nextRip host callers h = some (o, h') ∧
      IsLeast ((fun i => exitCycles h.tsc i + 1) '' measured) o.vmexitToStore.toNat ∧
      IsLeast ((fun i => entryCycles h.tsc i - 1) '' measured) o.vmentry.toNat ∧
      h'.vmcs vmcsCtrlTscOffset = 0 - 1 := by
  obtain ⟨_, a, ha, htsca, hoffseta, -⟩ := samples_spec nextRip host (n := warmupIterations)
    (k := 0) (h := h) fun i _ hi => hcallers i (by omega)
  have hoffseta := hoffseta (Or.inr (by decide))
  obtain ⟨xs, b, hb, -, hoffsetb, hxs⟩ := samples_spec nextRip host (n := iterations)
    (k := warmupIterations) (h := a) fun i _ hi => hcallers i hi
  have hxs := hxs hoffseta
  have hrun : benchTscOverhead nextRip host callers h =
      some (xs.foldl Overheads.measure ⟨0, 0⟩, b) := by
    rw [benchTscOverhead]
    simp only [ha, hb, Option.bind_eq_bind, Option.bind_some]
  -- The readings of the warm-up are gone.
  have hsample : ∀ i, sampleAt a.tsc i = sampleAt h.tsc (warmupIterations + i) := by
    intro i
    have hshift : ∀ j, 4 * i + j + 4 * warmupIterations = 4 * (warmupIterations + i) + j := by
      omega
    have hfirst := hshift 0
    rw [Nat.add_zero] at hfirst
    rw [htsca]
    simp only [sampleAt, hshift, hfirst, Nat.add_zero]
  have hcycles : ∀ i < iterations, _ := fun i hi =>
    toNat_sampleAt htsc (Nat.add_lt_add_left hi warmupIterations)
  have hexit : (xs.foldl Overheads.measure ⟨0, 0⟩).vmexitToStore =
      ((List.range iterations).map fun i => (sampleAt h.tsc (warmupIterations + i)).storedTsc -
        (sampleAt h.tsc (warmupIterations + i)).preExitTsc).foldl lower 0 := by
    simp only [foldl_measure, hxs, List.map_map, Function.comp_def, hsample]
  have hentry : (xs.foldl Overheads.measure ⟨0, 0⟩).vmentry =
      ((List.range iterations).map fun i =>
        (sampleAt h.tsc (warmupIterations + i)).vmentryOverhead).foldl lower 0 := by
    simp only [foldl_measure, hxs, List.map_map, Function.comp_def, hsample]
  refine ⟨_, b, hrun, ?_, ?_, hoffsetb (Or.inl hoffseta)⟩
  · rw [hexit]
    refine isLeast_foldl_lower (fun i hi => (hcycles i hi).1) fun i hi hzero => ?_
    have hone := (hcycles i hi).1
    rw [hzero] at hone
    cases hone
  · rw [hentry]
    refine isLeast_foldl_lower (fun i hi => ?_) fun i hi hzero => ?_
    · show _ = entryCycles h.tsc (warmupIterations + i) - 1
      rw [← (hcycles i hi).2.1, Nat.add_sub_cancel]
    · exact (hcycles i hi).2.2 (congrArg UInt64.toNat hzero)

/-- A counter that advances by 100 at every read, with the result of the
benchmark. -/
theorem benchTscOverhead_exact_steady :
    ∃ o h', benchTscOverhead 0x1000 (sampleHost 0)
        (fun _ => sampleCpu.set .rcx 0x30000)
        { sampleCpu with tsc := fun i => UInt64.ofNat (100 * i) } = some (o, h') ∧
      o.vmexitToStore = 101 ∧ o.vmentry = 99 := by
  have hread : ∀ i < 50000, (UInt64.ofNat (100 * i)).toNat = 100 * i := fun i hi =>
    UInt64.toNat_ofNat_of_lt' (show _ < 2 ^ 64 by omega)
  have hadvances : Advances fun i => UInt64.ofNat (100 * i) := by
    have hcount : warmupIterations + iterations = 10100 := rfl
    constructor
    · intro i hi
      rw [UInt64.lt_iff_toNat_lt, hread i (by omega), hread (i + 1) (by omega)]
      omega
    · intro i hi
      rw [hread _ (by omega), hread _ (by omega)]
      omega
  have hpointer : PointerApart (sampleCpu.set .rcx 0x30000) := by
    unfold PointerApart
    decide +kernel
  obtain ⟨o, h', hrun, ⟨⟨i, ⟨-, hi⟩, hexit⟩, -⟩, ⟨⟨j, ⟨-, hj⟩, hentry⟩, -⟩, -⟩ :=
    benchTscOverhead_exact 0x1000 (sampleHost 0) (fun _ => sampleCpu.set .rcx 0x30000)
      { sampleCpu with tsc := fun i => UInt64.ofNat (100 * i) } (fun _ _ => hpointer) hadvances
  have hcount : warmupIterations + iterations = 10100 := rfl
  refine ⟨o, h', hrun, UInt64.toNat_inj.mp ?_, UInt64.toNat_inj.mp ?_⟩
  · rw [← hexit]
    simp only [exitCycles]
    rw [hread _ (by omega), hread _ (by omega)]
    show _ = 101
    omega
  · rw [← hentry]
    simp only [entryCycles]
    rw [hread _ (by omega), hread _ (by omega)]
    show _ = 99
    omega

end Revhv.Benchmark
